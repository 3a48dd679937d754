/-
# The order of the locks

Only `forward_to` waits for a lock with another one in hand, and it takes the one at the lower address
first.  So threads never wait for each other in a circle.
-/
import Recapn.Channel.Hands

namespace Recapn.Channel

open Recapn.Lib

variable {C : Chan} {c d : ChannelId}

/-- The locks that a thread has where it is. -/
def Thread.Has (address : ChannelId → ℕ) (c : ChannelId) : Thread C → Prop
  | locked _ channel _ => c = channel
  | lockingB self otherShared _ => c = lockA address self otherShared
  | lockedBoth self otherShared _ => c = otherShared ∨ c = self
  | draining self _ => c = self
  | _ => False

/-- The locks that a thread takes in its next step. -/
def Thread.Takes (address : ChannelId → ℕ) (w : World C) (c : ChannelId) : Thread C → Prop
  | locking _ this => c = this
  | lockingA self otherShared _ => c = lockA address self otherShared
  | lockingB self otherShared _ => c = lockB address self otherShared
  | closing self _ | relocking self _ => c = self
  | answering _ _ (item :: _) _ => item.Locks w c
  | _ => False

namespace Machine

variable {address : ChannelId → ℕ} {ok : Machine C → ThreadId → Prop} {m m' : Machine C}
  {t : ThreadId}

/-- A lock that is taken is one that its thread has where it is. -/
def Accounted (address : ChannelId → ℕ) (m : Machine C) : Prop :=
  ∀ c t, m.lock c = some t → (m.thread t).Has address c

/-- A step takes what its thread has then, and releases what it has no more. -/
lemma Step.accounted (h : m.Accounted address) (hstep : Step address t m m') :
    m'.Accounted address := by
  intro c t' hc
  have hself := h c t
  have hother := h c t'
  cases hstep <;> simp only [goto, acquire, release, withWorld, Function.update_apply] at hc ⊢ <;>
    grind [Thread.Has, Channel.lockA, Channel.lockB]

lemma Reached.accounted (h : Reached address ok m) : m.Accounted address :=
  h.invariant (fun c t hc => by cases hc) fun _ hbefore _ hstep => Step.accounted hbefore hstep

/-- A thread that has a lock takes one at a higher address. -/
lemma Accounted.lt_of_takes (h : m.Accounted address) (hdistinct : (m.thread t).Distinct address)
    (hc : m.lock c = some t) (hd : (m.thread t).Takes address m.world d) : address c < address d := by
  have hhas := h c t hc
  cases ht : m.thread t <;>
    grind [Thread.Has, Thread.Takes, Thread.Distinct, Channel.lockA, Channel.lockB]

/-- Locks that are taken are those of channels that are there. -/
lemma Accounted.lt_channels (h : m.Accounted address) (hvalid : m.Valid address)
    (hc : m.lock c = some t) : c < m.world.channels := by
  have hhas := h c t hc
  have hfits := hvalid.fits t
  have hself : ∀ self, (m.thread t).receiver = some self → self < m.world.channels := fun self hself =>
    (hvalid.loose hself).lt
  cases ht : m.thread t <;> grind [Thread.Has, Thread.Fits, Thread.receiver, Channel.lockA]

/-- The thread that has the lock of `c` takes that of `d` next, which is not free. -/
def Blocks (address : ChannelId → ℕ) (m : Machine C) (c d : ChannelId) : Prop :=
  ∃ t, m.lock c = some t ∧ (m.thread t).Takes address m.world d ∧ m.lock d ≠ none

/-- **No deadlock**, whatever the order of the steps: from a lock that is taken, who waits for whom
leads to a thread that has a lock and waits for none. -/
theorem Reached.noDeadlock (h : Reached address ok m) (hc : m.lock c ≠ none) :
    ∃ d t, Relation.ReflTransGen (m.Blocks address) c d ∧ m.lock d = some t ∧
      ∀ e, (m.thread t).Takes address m.world e → m.lock e = none := by
  -- the addresses grow from lock to lock, and there are finitely many channels
  induction hn : (Finset.range m.world.channels).sup address - address c using Nat.strongRecOn
    generalizing c with
  | ind n ih =>
  obtain ⟨t, ht⟩ := Option.ne_none_iff_exists'.1 hc
  by_cases hfree : ∀ e, (m.thread t).Takes address m.world e → m.lock e = none
  · exact ⟨c, t, .refl, ht, hfree⟩
  · simp only [not_forall, exists_prop] at hfree
    obtain ⟨d, htakes, hd⟩ := hfree
    have hlt := h.accounted.lt_of_takes (h.inPlace.1 t) ht htakes
    obtain ⟨t', ht'⟩ := Option.ne_none_iff_exists'.1 hd
    have hle : address d ≤ (Finset.range m.world.channels).sup address :=
      Finset.le_sup (Finset.mem_range.2 (h.accounted.lt_channels h.valid ht'))
    obtain ⟨e, t'', hleads, hend⟩ := ih _ (by omega) hd rfl
    exact ⟨e, t'', .head ⟨t, ht, htakes, hd⟩ hleads, hend⟩

/-- A thread has the lock of one channel and waits for that of another. -/
theorem Reached.noDeadlock_forward : ∃ m : Machine unitChan, Reached id (fun _ _ => True) m ∧
    m.Blocks id 0 1 ∧ ∃ d t, Relation.ReflTransGen (m.Blocks id) 0 d ∧ m.lock d = some t ∧
      ∀ e, (m.thread t).Takes id m.world e → m.lock e = none := by
  have h : Reached id (fun _ _ => True) (start : Machine unitChan) := reached_start
  replace h := h.step trivial (@Step.call _ id 0 _ .channel (.sender 0) _ rfl trivial trivial
    (fun _ h => h.elim) rfl)
  replace h := h.step trivial (@Step.call _ id 0 _ .channel (.sender 1) _ rfl trivial trivial
    (fun _ h => h.elim) rfl)
  replace h := h.step trivial (@Step.sendEvent _ id 0 _ 1 ⟨1⟩ () rfl rfl)
  replace h := h.step trivial (@Step.found _ id 0 _ (.event ()) 1 rfl rfl)
  replace h := h.step trivial (@Step.lock _ id 0 _ (.event ()) 1 rfl rfl)
  replace h := h.step trivial (@Step.forwardTo _ id 1 _ 0 1 ⟨1⟩ _ rfl rfl rfl rfl)
  replace h := h.step trivial (@Step.target _ id 1 _ 0 1 1 rfl rfl (by decide))
  replace h := h.step trivial (@Step.lockA _ id 1 _ 0 1 1 rfl rfl)
  refine ⟨_, h, ⟨1, rfl, rfl, ?_⟩, Reached.noDeadlock h ?_⟩
  · rintro ⟨⟩
  · rintro ⟨⟩

end Machine

end Recapn.Channel

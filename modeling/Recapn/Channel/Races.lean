/-
# Forwards that race

Between finding the channel where the forwards end and taking its lock, that channel may be forwarded
itself.  Then the thread finds another channel with the lock, and goes on with that one; but the lock
and the queue are those of the channel that it found first.
-/
import Recapn.Channel.Interleaving

namespace Recapn.Channel

open Recapn.Lib

variable {C : Chan}

namespace World

/-- The forwards of a channel end at one that has ended. -/
def LeadsToEnded (w : World C) (c : ChannelId) : Prop := ∃ r, Leads w.next c r ∧ w.ended r ≠ none

/-- The channel is where its forwards end still, or these end at one that has ended. -/
def Settled (w : World C) (c : ChannelId) : Prop := w.next c = none ∨ w.LeadsToEnded c

variable {w w' : World C} {c d r : ChannelId}

/-- What has ended is not forwarded. -/
lemma next_of_ended (h : w.ended r ≠ none) : w.next r = none := by
  unfold World.ended at h
  unfold World.next
  rcases htry : w.tryResolved r with _ | sender | _ | err
  · rfl
  · rw [htry] at h
    exact absurd rfl h
  · rfl
  · rfl

/-- What is not resolved has not ended. -/
lemma LeadsToEnded.tryResolved_ne_none (h : w.LeadsToEnded c) : w.tryResolved c ≠ none := by
  intro hnone
  obtain ⟨r, hleads, hended⟩ := h
  obtain rfl := hleads.unique (.refl (w.next_of_none hnone))
  unfold World.ended at hended
  rw [hnone] at hended
  exact hended rfl

lemma LeadsToEnded.of_next (h : w.LeadsToEnded c) (hd : w.next c = some d) : w.LeadsToEnded d := by
  obtain ⟨r, hleads, hended⟩ := h
  exact ⟨r, hleads.of_next hd, hended⟩

/-- The forwards of a channel come to another one. -/
abbrev Comes (w : World C) : ChannelId → ChannelId → Prop :=
  Relation.ReflTransGen fun a b => w.next a = some b

lemma Comes.leads (h : w.Comes c d) (hd : Leads w.next d r) : Leads w.next c r := by
  induction h using Relation.ReflTransGen.head_induction_on with
  | refl => exact hd
  | head hstep _ ih => exact .step hstep ih

end World

namespace Machine

variable {address : ChannelId → ℕ} {m m' : Machine C} {t t' : ThreadId}

/-- When a thread takes the lock of the channel that it has found, that one is where its forwards end
still, or these end at a channel that has ended. -/
def Timely (address : ChannelId → ℕ) (m : Machine C) (t : ThreadId) : Prop :=
  match m.thread t with
  | .locking _ this => m.world.Settled this
  | .lockingA self otherShared _ =>
    Channel.lockA address self otherShared = otherShared → m.world.Settled otherShared
  | .lockingB self otherShared _ =>
    Channel.lockB address self otherShared = otherShared → m.world.Settled otherShared
  | _ => True

/-- A thread that links an item now, or hands a queue on, has the lock of the channel that becomes
the parent of the item, or the target of the forward. -/
def LinksRight (m : Machine C) (t : ThreadId) : Prop :=
  match m.thread t with
  | .locked _ channel this =>
    m.world.tryResolved this = none → channel = this ∧ m.lock channel = some t
  | .lockedBoth self otherShared this =>
    m.world.tryResolved this = none →
      otherShared = this ∧ m.lock otherShared = some t ∧ m.lock self = some t
  | _ => True

end Machine

/-- What a thread knows of the channels whose locks it has, when it took them in time. -/
def Thread.Knows (address : ChannelId → ℕ) (m : Machine C) : Thread C → Prop
  | locked _ channel this => this = channel ∧ m.world.next channel = none ∨ m.world.LeadsToEnded this
  | targeting _ other this => m.world.Comes other this
  | lockingA _ otherShared other => m.world.Comes other otherShared
  | lockingB self otherShared other =>
    m.world.Comes other otherShared ∧
      (lockA address self otherShared = otherShared → m.world.Settled otherShared)
  | lockedBoth _ otherShared this =>
    Leads m.world.next this otherShared ∨ m.world.LeadsToEnded this
  | _ => True

namespace Machine

variable {address : ChannelId → ℕ} {m m' : Machine C} {t t' : ThreadId} {now : Thread C}

/-- The receiver of a channel in use: it is not forwarded. -/
lemma Valid.next_of_receiver (hvalid : m.Valid address) {c : ChannelId}
    (hc : (m.thread t).receiver = some c) : m.world.next c = none :=
  m.world.next_of_none (tryResolved_of_unresolved (hvalid.loose hc).unresolved)

/-! ## What others do -/

section Others

variable (hvalid : m.Valid address) (heffect : Effect address t now m m')

include hvalid heffect

/-- What forwards stays so. -/
lemma Effect.next_some {c d : ChannelId} (h : m.world.next c = some d) :
    m'.world.next c = some d := by
  rcases heffect.next with hnext | ⟨self, otherShared, this, ht, -, hnext, -⟩
  · rw [hnext, h]
  · have hself := hvalid.next_of_receiver (c := self) (t := t) (by rw [ht]; rfl)
    have hne : c ≠ self := by
      rintro rfl
      rw [hself] at h
      cases h
    rw [hnext, Function.update_of_ne hne, h]

/-- A channel whose lock another thread has is not forwarded. -/
lemma Effect.next_none {c : ChannelId} (ht' : t' ≠ t) (hlock : m.lock c = some t')
    (h : m.world.next c = none) : m'.world.next c = none := by
  rcases heffect.next with hnext | ⟨self, otherShared, this, ht, -, hnext, -⟩
  · rw [hnext, h]
  · have hfits := hvalid.fits_at ht
    have hne : c ≠ self := by
      rintro rfl
      rw [hfits.2.2.1, Option.some.injEq] at hlock
      exact ht' hlock.symm
    rw [hnext, Function.update_of_ne hne, h]

lemma Effect.leads {c r : ChannelId} (h : Leads m.world.next c r) (hr : m'.world.next r = none) :
    Leads m'.world.next c r := by
  induction h with
  | refl => exact .refl hr
  | step hstep _ ih => exact .step (heffect.next_some hvalid hstep) (ih hr)

lemma Effect.comes {c d : ChannelId} (h : m.world.Comes c d) : m'.world.Comes c d := by
  induction h with
  | refl => exact .refl
  | tail _ hstep ih => exact ih.tail (heffect.next_some hvalid hstep)

omit hvalid in
lemma Effect.ended {c : ChannelId} (h : m.world.ended c ≠ none) : m'.world.ended c ≠ none := by
  unfold World.ended at h ⊢
  rcases htry : m.world.tryResolved c with _ | sender | _ | err
  · rw [htry] at h
    exact absurd rfl h
  · rw [htry] at h
    exact absurd rfl h
  · rw [show m'.world.tryResolved c = some .dropped from heffect.books.resolved htry]
    simp
  · rw [show m'.world.tryResolved c = some (.error err) from heffect.books.resolved htry]
    simp

lemma Effect.leadsToEnded {c : ChannelId} (h : m.world.LeadsToEnded c) :
    m'.world.LeadsToEnded c := by
  obtain ⟨r, hleads, hended⟩ := h
  have hended' := heffect.ended hended
  exact ⟨r, heffect.leads hvalid hleads (World.next_of_ended hended'), hended'⟩

lemma Effect.settled {c : ChannelId} (ht' : t' ≠ t) (hlock : m.lock c = some t')
    (h : m.world.Settled c) : m'.world.Settled c := by
  rcases h with h | h
  · exact Or.inl (heffect.next_none hvalid ht' hlock h)
  · exact Or.inr (heffect.leadsToEnded hvalid h)

/-- What another thread knows it knows still. -/
lemma Effect.knows {thread : Thread C} (ht' : t' ≠ t) (hfits : thread.Fits address m t')
    (h : thread.Knows address m) : thread.Knows address m' := by
  cases thread with
  | locked item channel this =>
    rcases h with ⟨hthis, hnone⟩ | h
    · exact Or.inl ⟨hthis, heffect.next_none hvalid ht' hfits.2.2 hnone⟩
    · exact Or.inr (heffect.leadsToEnded hvalid h)
  | targeting self other this | lockingA self otherShared other => exact heffect.comes hvalid h
  | lockingB self otherShared other =>
    refine ⟨heffect.comes hvalid h.1, fun hfirst => ?_⟩
    have hlock := hfits.2.2
    rw [hfirst] at hlock
    exact heffect.settled hvalid ht' hlock (h.2 hfirst)
  | lockedBoth self otherShared this =>
    rcases h with h | h
    · exact Or.inl (heffect.leads hvalid h
        (heffect.next_none hvalid ht' hfits.2.2.2 h.next_eq_none))
    · exact Or.inr (heffect.leadsToEnded hvalid h)
  | _ => trivial

end Others

/-! ## What the thread itself comes to know -/

/-- The thread itself knows what it should after its step, when it takes its locks in time. -/
lemma Step.knows (hknows : (m.thread t).Knows address m)
    (htimely : m.Timely address t) (hstep : Step address t m m') :
    (m'.thread t).Knows address m' := by
  have hgoto : ∀ {m₀ : Machine C} {now : Thread C}, (m₀.goto t now).thread t = now :=
    Function.update_self ..
  have hnext : ∀ {c : ChannelId} {sender : Sender},
      m.world.tryResolved c = some (.forwarded sender) → m.world.next c = some sender.shared :=
    fun h => m.world.next_eq_some.2 h
  cases hstep with
  | call hidle hatomic hallowed hlocks hexec =>
    show (m.thread t).Knows address _
    rw [hidle]
    trivial
  | @lock item this ht hfree =>
    rw [hgoto]
    unfold Timely at htimely
    rw [ht] at htimely
    exact htimely.imp_left fun hnone => ⟨rfl, hnone⟩
  | followLocked ht hforwarded =>
    rw [ht] at hknows
    rw [hgoto]
    rcases hknows with ⟨rfl, hnone⟩ | hended
    · rw [hnext hforwarded] at hnone
      cases hnone
    · exact Or.inr (hended.of_next (hnext hforwarded))
  | forwardTo hidle hreceiver hs hexec =>
    rw [hgoto]
    exact Relation.ReflTransGen.refl
  | target ht hnone hne =>
    rw [ht] at hknows
    rw [hgoto]
    exact hknows
  | followTarget ht hforwarded =>
    rw [ht] at hknows
    rw [hgoto]
    exact hknows.tail (hnext hforwarded)
  | @lockA self otherShared other ht hfree =>
    rw [ht] at hknows
    rw [hgoto]
    unfold Timely at htimely
    rw [ht] at htimely
    exact ⟨hknows, htimely⟩
  | @lockB self otherShared other ht hfree =>
    rw [ht] at hknows
    rw [hgoto]
    unfold Timely at htimely
    rw [ht] at htimely
    have hsettled : m.world.Settled otherShared := by
      rcases lockA_lockB address self otherShared with ⟨-, hb⟩ | ⟨ha, -⟩
      · exact htimely hb
      · exact hknows.2 ha
    rcases hsettled with hnone | ⟨r, hleads, hended⟩
    · exact Or.inl (hknows.1.leads (.refl hnone))
    · exact Or.inr ⟨r, hknows.1.leads hleads, hended⟩
  | followBoth ht hforwarded =>
    rw [ht] at hknows
    rw [hgoto]
    rcases hknows with hleads | hended
    · exact Or.inl (hleads.of_next (hnext hforwarded))
    · exact Or.inr (hended.of_next (hnext hforwarded))
  | @targetEnded self other this res ht hended | @bothEnded self otherShared this res ht hended =>
    rw [hgoto]
    cases res <;> trivial
  | _ =>
    rw [hgoto]
    trivial

/-- When all locks are taken in time, every thread knows what it should. -/
lemma Reached.knows (h : Reached address (Timely address) m) (t : ThreadId) :
    (m.thread t).Knows address m := by
  revert t
  refine h.invariant (p := fun m => ∀ t, (m.thread t).Knows address m) (fun _ => trivial) ?_
  intro m m' t hreached hknows htimely hstep t'
  have hvalid := hreached.valid
  obtain ⟨now, heffect⟩ := Step.effect hvalid hstep
  by_cases ht : t' = t
  · rw [ht]
    exact Step.knows (hknows t) htimely hstep
  · rw [heffect.thread, Function.update_of_ne ht]
    exact heffect.knows hvalid ht (hvalid.fits t') (hknows t')

/-- A thread that knows what it should links right. -/
lemma linksRight_of_knows (hvalid : m.Valid address) (hknows : (m.thread t).Knows address m) :
    m.LinksRight t := by
  have hfits := hvalid.fits t
  unfold LinksRight
  cases ht : m.thread t with
  | locked item channel this =>
    rw [ht] at hfits hknows
    intro hnone
    rcases hknows with ⟨rfl, -⟩ | hended
    · exact ⟨rfl, hfits.2.2⟩
    · exact absurd hnone hended.tryResolved_ne_none
  | lockedBoth self otherShared this =>
    rw [ht] at hfits hknows
    intro hnone
    rcases hknows with hleads | hended
    · obtain rfl := hleads.unique (.refl (m.world.next_of_none hnone))
      exact ⟨rfl, hfits.2.2.2, hfits.2.2.1⟩
    · exact absurd hnone hended.tryResolved_ne_none
  | _ => trivial

/-- Items are put into the queue of a channel that is not resolved. -/
lemma LinksRight.next_of_putsInto {c : ChannelId} (h : m.LinksRight t) (hputs : m.PutsInto t c) :
    m.world.next c = none := by
  obtain ⟨this, hnone, ⟨item, ht⟩ | ⟨self, ht⟩⟩ := hputs
  · unfold LinksRight at h
    rw [ht] at h
    rw [(h hnone).1]
    exact m.world.next_of_none hnone
  · unfold LinksRight at h
    rw [ht] at h
    rw [(h hnone).1]
    exact m.world.next_of_none hnone

/-- **Nothing is stranded** in a run in which every lock is taken in time: where an item is linked, or
a queue is handed on, the lock is that of the parent of the item or of the target of the forward,
which is not resolved.  Nothing waits in a channel that was forwarded. -/
theorem Reached.linksRight (h : Reached address (Timely address) m) :
    (∀ t, m.LinksRight t) ∧
      ∀ c, m.world.next c ≠ none → (m.world.channel c).requests = [] := by
  refine ⟨fun t => linksRight_of_knows h.valid (h.knows t), ?_⟩
  refine h.invariant (p := fun m => ∀ c, m.world.next c ≠ none → m.world.queues c = [])
    (fun _ _ => rfl) ?_
  intro m m' t hreached hempty htimely hstep c hc
  have hvalid := hreached.valid
  have hlinks := linksRight_of_knows hvalid (hreached.knows t)
  obtain ⟨now, heffect⟩ := Step.effect hvalid hstep
  have hkeeps : m.world.next c ≠ none → m'.world.queues c = [] := by
    intro hc
    refine (heffect.queues (hempty c hc)).resolve_right fun hputs => ?_
    exact hc (hlinks.next_of_putsInto hputs)
  rcases heffect.next with hnext | ⟨self, otherShared, this, -, -, hnext, hself⟩
  · rw [hnext] at hc
    exact hkeeps hc
  · by_cases hcs : c = self
    · rw [hcs]
      exact hself
    · rw [hnext, Function.update_of_ne hcs] at hc
      exact hkeeps hc

/-- A sender sends an event into a channel that is not forwarded. -/
theorem Reached.linksRight_sent :
    ∃ m : Machine unitChan, Reached id (Timely id) m ∧ (∃ item, m.thread 0 = .locked item 0 0) ∧
      ∀ t, m.LinksRight t := by
  have h : Reached id (Timely id) (start : Machine unitChan) := reached_start
  replace h := h.step (t := 0) trivial (@Step.call _ id 0 _ .channel (.sender 0) _ rfl trivial trivial
    (fun _ h => h.elim) rfl)
  replace h := h.step (t := 0) trivial (@Step.sendEvent _ id 0 _ 0 ⟨0⟩ () rfl rfl)
  replace h := h.step (t := 0) trivial (@Step.found _ id 0 _ (.event ()) 0 rfl rfl)
  replace h := h.step (t := 0) (Or.inl rfl) (@Step.lock _ id 0 _ (.event ()) 0 rfl rfl)
  exact ⟨_, h, ⟨.event (), rfl⟩, (Reached.linksRight h).1⟩

/-- A sender finds a channel; before it takes the lock, the channel is forwarded.  Then it links its
request into the queue of that channel, and the parent of the request is the other one. -/
theorem not_linksRight :
    ∃ m m' : Machine unitChan, Reached id (fun _ _ => True) m ∧ Step id 0 m m' ∧
      m.thread 0 = .locked (.request 0) 0 1 ∧ m.world.tryResolved 1 = none ∧ ¬ m.LinksRight 0 ∧
      m'.world.next 0 = some 1 ∧ (m'.world.channel 0).requests = [.request 0] ∧
      (m'.world.request 0).parent = some 1 := by
  have h : Reached id (fun _ _ => True) (start : Machine unitChan) := reached_start
  replace h := h.step trivial (@Step.call _ id 0 _ .channel (.sender 0) _ rfl trivial trivial
    (fun _ h => h.elim) rfl)
  replace h := h.step trivial (@Step.call _ id 0 _ .channel (.sender 1) _ rfl trivial trivial
    (fun _ h => h.elim) rfl)
  replace h := h.step trivial (@Step.call _ id 0 _ (.requestResponse ()) .unit _ rfl trivial trivial
    (fun _ h => h.elim) rfl)
  replace h := h.step trivial (@Step.send _ id 0 _ 0 ⟨0⟩ 0 _ rfl rfl rfl rfl)
  replace h := h.step trivial (@Step.found _ id 0 _ (.request 0) 0 rfl rfl)
  replace h := h.step trivial (@Step.forwardTo _ id 1 _ 0 1 ⟨1⟩ _ rfl rfl rfl rfl)
  replace h := h.step trivial (@Step.target _ id 1 _ 0 1 1 rfl rfl (by decide))
  replace h := h.step trivial (@Step.lockA _ id 1 _ 0 1 1 rfl rfl)
  replace h := h.step trivial (@Step.lockB _ id 1 _ 0 1 1 rfl rfl)
  replace h := h.step trivial (@Step.splice _ id 1 _ 0 1 1 _ rfl rfl rfl)
  replace h := h.step trivial (@Step.lock _ id 0 _ (.request 0) 0 rfl rfl)
  replace h := h.step trivial (@Step.followLocked _ id 0 _ (.request 0) 0 0 ⟨1⟩ rfl rfl)
  refine ⟨_, _, h, @Step.link _ id 0 _ (.request 0) 0 1 _ rfl rfl rfl, rfl, rfl, fun hlinks => ?_,
    rfl, rfl, rfl⟩
  have hzero : (0 : ChannelId) = 1 := (hlinks rfl).1
  cases hzero

end Machine

end Recapn.Channel

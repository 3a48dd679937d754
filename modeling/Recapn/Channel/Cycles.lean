/-

A receiver is to be forwarded to another channel only, so that the forwards of every channel end.
The channels are compared before the locks are taken; the channel that is found with the locks may
be another one, and then it may be that of the receiver itself.
-/
import Recapn.Channel.Interleaving

namespace Recapn.Channel

open Recapn.Lib

variable {C : Chan}

/-- The forwards form no cycle, and the loops of `most_resolved` and `most_unresolved` end. -/
structure World.LoopsEnd (w : World C) : Prop where
  acyclic : Acyclic w.next
  resolved : ∀ c, ∃ result, Channel.mostResolved c w = .ok result w
  unresolved : ∀ c, ∃ result, Channel.mostUnresolved c w = .ok result w

/-- When the forwards of all channels end, so do the loops. -/
lemma Sound.loopsEnd {w : World C} {extra : ChannelId → ℕ} (hsound : Sound extra w)
    (hends : ∀ c, ∃ r, Leads w.next c r) : w.LoopsEnd where
  acyclic := acyclic_of_leads hends
  resolved c := by
    obtain ⟨r, hr⟩ := hends c
    exact ⟨_, hsound.mostResolved_of_leads hr⟩
  unresolved c := by
    obtain ⟨r, hr⟩ := hends c
    refine ⟨if (w.ended r).isSome then none else some r, ?_⟩
    unfold Channel.mostUnresolved
    rw [World.mostUnresolved_eq, hsound.follow_of_leads hr]
    rfl

namespace Machine

variable {address : ChannelId → ℕ} {m m' : Machine C} {t : ThreadId}

/-- If the thread forwards a receiver now, it is to another channel. -/
def Apart (m : Machine C) (t : ThreadId) : Prop :=
  match m.thread t with
  | .lockedBoth self _ this => m.world.tryResolved this = none → this ≠ self
  | _ => True

/-- A thread that has both locks and finds a channel that is not resolved forwards to it. -/
lemma Step.next_of_lockedBoth {self otherShared this : ChannelId} (hvalid : m.Valid address)
    (hstep : Step address t m m') (ht : m.thread t = .lockedBoth self otherShared this)
    (hnone : m.world.tryResolved this = none) : m'.world.next self = some this := by
  cases hstep with
  | followBoth ht' hforwarded =>
    rw [ht] at ht'
    cases ht'
    rw [hnone] at hforwarded
    cases hforwarded
  | bothEnded ht' hended =>
    rw [ht] at ht'
    cases ht'
    unfold World.ended at hended
    rw [hnone] at hended
    cases hended
  | splice ht' hnone' hexec =>
    rw [ht] at ht'
    cases ht'
    obtain ⟨-, -, hresolved⟩ := forwardLocked_routes hvalid.sound hexec
    have hnext := congrFun (next_of_forwarded hresolved) self
    rw [Function.update_self] at hnext
    exact hnext
  | _ => simp_all

/-- When no receiver was forwarded to its own channel, all forwards end. -/
lemma Reached.ends (h : Reached address Apart m) : ∀ c, ∃ r, Leads m.world.next c r := by
  refine h.invariant (p := fun m => ∀ c, ∃ r, Leads m.world.next c r) (fun c => ⟨c, .refl rfl⟩) ?_
  intro m m' t hreached hends hapart hstep
  have hvalid := hreached.valid
  obtain ⟨now, heffect⟩ := Step.effect hvalid hstep
  rcases heffect.next with hnext | ⟨self, otherShared, this, ht, hnone, hnext, -⟩
  · rw [hnext]
    exact hends
  · have hself : (m.thread t).receiver = some self := by rw [ht]; rfl
    have hne : this ≠ self := by
      unfold Apart at hapart
      rw [ht] at hapart
      exact hapart hnone
    have hunresolved := tryResolved_of_unresolved (hvalid.loose hself).unresolved
    rw [hnext]
    exact leads_update hends (World.next_of_none _ hunresolved)
      (.refl (World.next_of_none _ hnone)) hne

/-- **Forwards form no cycle** in a run, and all loops along them end, exactly if no receiver that is
forwarded with both locks is forwarded to its own channel. -/
theorem Run.loopsEnd_iff {moves : List (Move C)} (h : Run address moves m) :
    (∀ move ∈ moves, move.after.world.LoopsEnd) ↔
      ∀ move ∈ moves, move.before.Apart move.thread := by
  induction h with
  | start => exact ⟨fun _ _ h => absurd h List.not_mem_nil, fun _ _ h => absurd h List.not_mem_nil⟩
  | @step moves move hrun hstep ih =>
    constructor
    · intro hloops
      have hbefore := ih.1 fun move' hmove' => hloops move' (List.mem_append_left _ hmove')
      intro move' hmove'
      rcases List.mem_append.1 hmove' with hmove' | hmove'
      · exact hbefore move' hmove'
      · rw [List.mem_singleton.1 hmove']
        -- else the receiver is forwarded to its own channel now
        unfold Apart
        cases ht : move.before.thread move.thread with
        | lockedBoth self otherShared this =>
          rintro hnone rfl
          have hvalid : move.before.Valid address := Reached.valid ⟨moves, hrun, hbefore⟩
          have hnext := Step.next_of_lockedBoth hvalid hstep ht hnone
          exact not_acyclic_of_next_self hnext
            (hloops move (List.mem_append_right _ List.mem_cons_self)).acyclic
        | _ => trivial
    · intro hapart
      have hloops := ih.2 fun move' hmove' => hapart move' (List.mem_append_left _ hmove')
      intro move' hmove'
      rcases List.mem_append.1 hmove' with hmove' | hmove'
      · exact hloops move' hmove'
      · rw [List.mem_singleton.1 hmove']
        have hreached : Reached address Apart move.after :=
          ⟨moves ++ [move], .step hrun hstep, hapart⟩
        exact hreached.valid.sound.loopsEnd hreached.ends

theorem Run.loopsEnd_iff_channel :
    ∃ (moves : List (Move unitChan)) (m : Machine unitChan), Run id moves m ∧ moves.length = 1 ∧
      ∀ move ∈ moves, move.after.world.LoopsEnd := by
  have hstep : Step id 0 Machine.start _ :=
    @Step.call unitChan id 0 Machine.start .channel (.sender 0) _ rfl trivial trivial (fun _ h => h.elim) rfl
  have hrun := @Run.step unitChan id [] ⟨Machine.start, 0, _⟩ .start hstep
  refine ⟨_, _, hrun, rfl, (Run.loopsEnd_iff hrun).2 fun move hmove => ?_⟩
  rw [List.mem_singleton.1 hmove]
  trivial

/-- Two receivers are forwarded to each other.  Both threads find the other channel not resolved;
then the first one forwards, and the second one finds its own channel. -/
theorem not_loopsEnd :
    ∃ m : Machine unitChan, Reached id (fun _ _ => True) m ∧ m.world.next 1 = some 1 ∧
      Channel.mostResolved 1 m.world = .halt .depth ∧ ¬ m.world.LoopsEnd := by
  have h : Reached id (fun _ _ => True) (start : Machine unitChan) := reached_start
  replace h := h.step trivial (@Step.call _ id 0 _ .channel (.sender 0) _ rfl trivial trivial
    (fun _ h => h.elim) rfl)
  replace h := h.step trivial (@Step.call _ id 0 _ .channel (.sender 1) _ rfl trivial trivial
    (fun _ h => h.elim) rfl)
  replace h := h.step trivial (@Step.forwardTo _ id 0 _ 0 1 ⟨1⟩ _ rfl rfl rfl rfl)
  replace h := h.step trivial (@Step.forwardTo _ id 1 _ 1 0 ⟨0⟩ _ rfl rfl rfl rfl)
  replace h := h.step trivial (@Step.target _ id 0 _ 0 1 1 rfl rfl (by decide))
  replace h := h.step trivial (@Step.target _ id 1 _ 1 0 0 rfl rfl (by decide))
  replace h := h.step trivial (@Step.lockA _ id 0 _ 0 1 1 rfl rfl)
  replace h := h.step trivial (@Step.lockB _ id 0 _ 0 1 1 rfl rfl)
  replace h := h.step trivial (@Step.splice _ id 0 _ 0 1 1 _ rfl rfl rfl)
  replace h := h.step trivial (@Step.lockA _ id 1 _ 1 0 0 rfl rfl)
  replace h := h.step trivial (@Step.lockB _ id 1 _ 1 0 0 rfl rfl)
  replace h := h.step trivial (@Step.followBoth _ id 1 _ 1 0 0 ⟨1⟩ rfl rfl)
  replace h := h.step trivial (@Step.splice _ id 1 _ 1 0 1 _ rfl rfl rfl)
  exact ⟨_, h, rfl, rfl, fun hloops => hloops.acyclic 1 (.single rfl)⟩

end Machine

end Recapn.Channel

/-
# Waiting for a request to be finished

A `Finished` future waits until a request has no receivers any more.  It polls a `ClosedWaiter`,
which waits for the bit that the last receiver sets before it wakes all waiters.  A waiter is
registered only when the bit is not set, so none can slip in behind `wake_all`.

A run here is a run of `Step` that also notes which waiters `wake_all` notified.
-/
import Recapn.Channel.Waiters

namespace Recapn.Channel

variable {R : Type}

/-- `ClosedWaiter`: the receiving side is closed, which the last `remove_receiver` did. -/
def closedWaiter : Polling Bool where
  view := StateFlags.isRecvClosed
  first closed := closed
  again closed := closed
  pending := false
  sets a a' := a' = a.setRecvClosed
  ne_of_first {_} h := by rw [h]; exact nofun
  again_iff {s} := by cases s <;> simp
  ne_of_sets {a a'} h := by
    rw [h]
    exact nofun

namespace Waiting

variable {P : Polling R} {m m' : Waiting R} {w : WaiterId}

/-! ## Waiters that are dropped -/

/-- A waiter that is dropped is not registered. -/
def DroppedOut (m : Waiting R) : Prop := ∀ w, m.phase w = .dropped → m.waiter w = none

lemma DroppedOut.goto (h : DroppedOut m) {phase : Phase R}
    (hphase : phase = .dropped → m.waiter w = none) : DroppedOut (m.goto w phase) := by
  intro w' hdropped
  have hupdated : Function.update m.phase w phase w' = .dropped := hdropped
  by_cases hw : w' = w
  · subst hw
    rw [Function.update_self] at hupdated
    exact hphase hupdated
  · rw [Function.update_of_ne hw] at hupdated
    exact h w' hupdated

/-- A waiter changes that is not dropped, or one is not registered any more. -/
lemma DroppedOut.setWaiter (h : DroppedOut m) {waiter : Option Waiter}
    (hw : m.phase w = .dropped → waiter = none) : DroppedOut (m.setWaiter w waiter) := by
  intro w' hdropped
  show Function.update m.waiter w waiter w' = none
  by_cases hw' : w' = w
  · subst hw'
    rw [Function.update_self]
    exact hw hdropped
  · rw [Function.update_of_ne hw']
    exact h w' hdropped

lemma DroppedOut.returns (h : DroppedOut m) {began result : R} :
    DroppedOut (m.returns w began result) := by
  have hidle : DroppedOut (m.goto w .idle) := h.goto nofun
  exact hidle

/-- No step registers a waiter that is dropped. -/
lemma DroppedOut.step (h : DroppedOut m) (hstep : Step P m m') : DroppedOut m' := by
  have hlocked : DroppedOut m.lock := h
  have hunlocked : DroppedOut m.unlock := h
  cases hstep with
  | ready hidle hw hfirst => exact h.returns
  | unready hidle hw hfirst => exact h.goto nofun
  | lock hphase hfree => exact hlocked.goto nofun
  | readyLocked hphase hfirst => exact hunlocked.returns
  | @register w began waker hphase hfirst =>
    have hlisted : DroppedOut { m.unlock with list := w :: m.list } := h
    refine (hlisted.setWaiter fun hdropped => ?_).returns
    exact nomatch hphase.symm.trans hdropped
  | notified hidle hw hnotified => exact (h.setWaiter fun _ => rfl).goto nofun
  | unnotified hidle hw hnot => exact h.goto nofun
  | relock hphase hfree => exact hlocked.goto nofun
  | notifiedLocked hphase hw hnotified => exact (hunlocked.setWaiter fun _ => rfl).goto nofun
  | update hphase hw hnot hagain =>
    refine (hunlocked.setWaiter fun hdropped => ?_).returns
    exact nomatch hphase.symm.trans hdropped
  | @readyAgain w began waker node hphase hw hnot hagain =>
    have hremoved : DroppedOut (m.unlock.remove w) := h
    exact (hremoved.setWaiter fun _ => rfl).returns
  | release hphase => exact h.returns
  | @drop w node hidle hw hfree =>
    have hremoved : DroppedOut (m.remove w) := h
    exact (hremoved.setWaiter fun _ => rfl).goto fun _ => Function.update_self ..
  | dropNone hidle hw => exact h.goto fun _ => hw
  | @pop w wakers rest node hpopping hroom hlast hw =>
    refine DroppedOut.setWaiter (m := { m with guarded := rest, wakeAll := _ }) h fun hdropped => ?_
    -- a waiter that is registered is not dropped
    exact nomatch hw.symm.trans (h w hdropped)
  | _ => exact h

/-! ## What polls returned -/

/-- What a poll returned is what another would read. -/
def Kept (P : Polling R) (m : Waiting R) : Prop :=
  ∀ poll ∈ m.polls, poll.2 ≠ P.pending → P.view m.atom = poll.2

lemma Kept.returns (h : Kept P m) {began result : R}
    (hresult : result ≠ P.pending → P.view m.atom = result) :
    Kept P (m.returns w began result) := by
  intro poll hmem hne
  rcases List.mem_append.1 hmem with hmem | hmem
  · exact h poll hmem hne
  · obtain rfl := List.mem_singleton.1 hmem
    exact hresult hne

/-- A poll returns what it reads, or that there is nothing yet; and the state is set once. -/
lemma Kept.step (h : Kept P m) (hinv : Inv P m) (hstep : Step P m m') : Kept P m' := by
  have hunlocked : Kept P m.unlock := h
  cases hstep with
  | ready hidle hw hfirst => exact h.returns fun _ => rfl
  | readyLocked hphase hfirst => exact hunlocked.returns fun _ => rfl
  | @register w began waker hphase hfirst =>
    have hregistered : Kept P ({ m.unlock with list := w :: m.list }.setWaiter w
      (some ⟨some waker, false, waker⟩)) := h
    exact hregistered.returns fun hne => absurd rfl hne
  | @update w began waker node hphase hw hnot hagain =>
    have hupdated : Kept P (m.unlock.setWaiter w (some (node.updateWaker waker))) := h
    exact hupdated.returns fun _ => rfl
  | @readyAgain w began waker node hphase hw hnot hagain =>
    have hremoved : Kept P ((m.unlock.remove w).setWaiter w none) := h
    exact hremoved.returns fun _ => rfl
  | release hphase => exact h.returns fun _ => rfl
  | others hview => exact fun poll hmem hne => hview.trans (h poll hmem hne)
  | set hbefore hsets =>
    -- until then no poll returned anything
    exact fun poll hmem hne => absurd ((h poll hmem hne).symm.trans (hinv.before hbefore)) hne
  | _ => exact h

/-! ## Runs with the notifications -/

/-- The waiter is the last of the guarded list, and is taken off and notified. -/
def Notify (m : Waiting R) (w : WaiterId) (m' : Waiting R) : Prop :=
  ∃ wakers rest node, m.wakeAll = .popping wakers ∧ wakers.length < numWakers ∧
    m.guarded = rest ++ [w] ∧ m.waiter w = some node ∧
    m' = { m with guarded := rest, wakeAll := .popping (wakers ++ node.waker.toList) }.setWaiter w
      (some { node with waker := none, notified := true })

lemma Notify.step (h : Notify m w m') : Step P m m' := by
  obtain ⟨wakers, rest, node, hpopping, hroom, hlast, hw, rfl⟩ := h
  exact .pop hpopping hroom hlast hw

/-- What is reached by steps, in any order, with the waiters that were notified, the last one
last. -/
inductive Run (P : Polling R) : Waiting R → List WaiterId → Prop
  | start {atom : StateFlags} (hpending : P.view atom = P.pending) : Run P (start atom) []
  | notify {m m' : Waiting R} {notified : List WaiterId} {w : WaiterId} (h : Run P m notified)
      (hnotify : Notify m w m') : Run P m' (notified ++ [w])
  | other {m m' : Waiting R} {notified : List WaiterId} (h : Run P m notified)
      (hstep : Step P m m') (hother : ∀ w, ¬ Notify m w m') : Run P m' notified

lemma Run.reached {notified : List WaiterId} (h : Run P m notified) :
    Reached P (fun _ => True) m := by
  induction h with
  | start hpending => exact .start hpending
  | notify _ hnotify ih => exact ih.step trivial hnotify.step
  | other _ hstep _ ih => exact ih.step trivial hstep

/-! ## What is notified -/

/-- What waits after a change of one waiter waited before, or is that waiter. -/
lemma waits_of_setWaiter {waiter : Option Waiter} {w' : WaiterId}
    (h : Waits (m.setWaiter w' waiter).waiter w) : Waits m.waiter w ∨ w = w' ∧ waiter ≠ none := by
  by_cases hw : w = w'
  · subst hw
    refine Or.inr ⟨rfl, fun hnone => ?_⟩
    subst hnone
    exact not_waits_update_none h
  · exact Or.inl ((waits_update_of_ne hw waiter).1 h)

/-- What waits after a step waited before, or was registered by a poll that had the lock and found
that the state was not set. -/
lemma waits_of_step (hstep : Step P m m') (hwaits : Waits m'.waiter w) :
    Waits m.waiter w ∨ ∃ began waker, m.phase w = .locked began waker ∧
      P.first (P.view m.atom) = false := by
  cases hstep with
  | register hphase hfirst =>
    rcases waits_of_setWaiter (m := { m.unlock with list := _ }) hwaits with hbefore | ⟨rfl, -⟩
    · exact Or.inl hbefore
    · exact Or.inr ⟨_, _, hphase, hfirst⟩
  | notified hidle hw hnotified => exact Or.inl ((waits_of_setWaiter hwaits).resolve_right (by simp))
  | notifiedLocked hphase hw hnotified =>
    exact Or.inl ((waits_of_setWaiter (m := m.unlock) hwaits).resolve_right (by simp))
  | update hphase hw hnot hagain =>
    rcases waits_of_setWaiter (m := m.unlock) hwaits with hbefore | ⟨rfl, -⟩
    · exact Or.inl hbefore
    · exact Or.inl ⟨_, hw, hnot⟩
  | readyAgain hphase hw hnot hagain =>
    exact Or.inl ((waits_of_setWaiter (m := m.unlock.remove _) hwaits).resolve_right (by simp))
  | drop hidle hw hfree =>
    exact Or.inl ((waits_of_setWaiter (m := m.remove _) hwaits).resolve_right (by simp))
  | @pop w' wakers rest node hpopping hroom hlast hw =>
    rcases waits_of_setWaiter (m := { m with guarded := rest, wakeAll := _ }) hwaits with
      hbefore | ⟨rfl, -⟩
    · exact Or.inl hbefore
    · exact absurd (waits_update_self.1 hwaits) (by simp)
  | _ => exact Or.inl hwaits

/-- `wake_all` never gives the list back. -/
lemma isTaken_of_step (hstep : Step P m m') (htaken : m.wakeAll.IsTaken) : m'.wakeAll.IsTaken := by
  cases hstep with
  | set hbefore hsets =>
    rw [hbefore] at htaken
    exact htaken.elim
  | take | pop | full | wake | relockAll | empty | wakeLast | done => trivial
  | _ => exact htaken

/-- Those that were notified do not wait any more, and were notified once. -/
structure NotifiedOnce (m : Waiting R) (notified : List WaiterId) : Prop where
  nodup : notified.Nodup
  not_waits : ∀ w ∈ notified, ¬ Waits m.waiter w
  taken : notified ≠ [] → m.wakeAll.IsTaken

lemma NotifiedOnce.start {atom : StateFlags} : NotifiedOnce (start atom : Waiting R) [] :=
  ⟨List.nodup_nil, nofun, fun hne => absurd rfl hne⟩

/-- No step makes one of them wait again: the list was taken, so the state is set. -/
lemma NotifiedOnce.step {notified : List WaiterId} (h : NotifiedOnce m notified) (hinv : Inv P m)
    (hlooks : Looks P m) (hstep : Step P m m') : NotifiedOnce m' notified where
  nodup := h.nodup
  not_waits w hw hwaits := by
    rcases waits_of_step hstep hwaits with hbefore | ⟨began, waker, hphase, hfirst⟩
    · exact h.not_waits w hw hbefore
    · have htaken := h.taken (List.ne_nil_of_mem hw)
      rcases hlooks w began waker hphase hfirst with hpending | ⟨-, hset⟩
      · refine hinv.ended (fun hbefore => ?_) hpending
        rw [hbefore] at htaken
        exact htaken
      · rw [hset] at htaken
        exact htaken
  taken hne := isTaken_of_step hstep (h.taken hne)

/-- One that is notified was not notified before: it still waited. -/
lemma NotifiedOnce.notify {notified : List WaiterId} (h : NotifiedOnce m notified) (hinv : Inv P m)
    (hlooks : Looks P m) (hnotify : Notify m w m') : NotifiedOnce m' (notified ++ [w]) := by
  have hstep := h.step hinv hlooks hnotify.step
  obtain ⟨wakers, rest, node, hpopping, hroom, hlast, hw, rfl⟩ := hnotify
  have hwaits : Waits m.waiter w := by
    refine (hinv.linked.mem w).1 (List.mem_append_right _ ?_)
    rw [hlast]
    exact List.mem_append_right _ List.mem_cons_self
  refine ⟨?_, fun w' hw' => ?_, fun _ => trivial⟩
  · rw [← List.concat_eq_append, List.nodup_concat]
    exact ⟨fun hmem => h.not_waits w hmem hwaits, h.nodup⟩
  · rcases List.mem_append.1 hw' with hw' | hw'
    · exact hstep.not_waits w' hw'
    · obtain rfl := List.mem_singleton.1 hw'
      exact fun hwaits => absurd (waits_update_self.1 hwaits) (by simp)

/-- What holds of every run of waiters that look at the state before they are registered. -/
lemma Run.holds {notified : List WaiterId} (h : Run P m notified) (hlooks : ∀ m, Looks P m) :
    Inv P m ∧ DroppedOut m ∧ Kept P m ∧ NotifiedOnce m notified := by
  induction h with
  | start hpending => exact ⟨Inv.start hpending, nofun, nofun, NotifiedOnce.start⟩
  | notify _ hnotify ih =>
    obtain ⟨hinv, hout, hkept, honce⟩ := ih
    have hstep : Step P _ _ := hnotify.step
    exact ⟨hinv.step (hlooks _) hstep, hout.step hstep, hkept.step hinv hstep,
      honce.notify hinv (hlooks _) hnotify⟩
  | other _ hstep _ ih =>
    obtain ⟨hinv, hout, hkept, honce⟩ := ih
    exact ⟨hinv.step (hlooks _) hstep, hout.step hstep, hkept.step hinv hstep,
      honce.step hinv (hlooks _) hstep⟩

/-! ## Finished -/

/-- All `Finished` futures are woken. -/
structure AllFinished (m : Waiting Bool) (history : List WaiterId) : Prop where
  /-- After `wake_all` every waiter that is registered was notified, and the waker that it stored
  was woken. -/
  notified : m.wakeAll = .done → ∀ w node, m.waiter w = some node →
    node.notified = true ∧ node.stored ∈ m.woken
  unlinked : m.wakeAll = .done → m.list = [] ∧ m.guarded = []
  once : history.Nodup
  dropped : ∀ w, m.phase w = .dropped → w ∉ m.list ∧ w ∉ m.guarded
  /-- From when the last receiver is gone, a poll that begins reads that the state is closed. -/
  closed : m.wakeAll ≠ .before → m.atom.isRecvClosed = true
  /-- A poll that began with this returned that the request is finished. -/
  ready : ∀ poll ∈ m.polls, poll.1 = true → poll.2 = true
  /-- What a poll returned once, it returns again. -/
  stays : ∀ poll ∈ m.polls, poll.2 = true → m.atom.isRecvClosed = true

lemma looks_closedWaiter (m : Waiting Bool) : Looks closedWaiter m :=
  fun _ _ _ _ hfirst => Or.inl hfirst

/-- **All that wait for a request to be finished are woken**, in every run of the waiters and of the
last receiver. -/
theorem Run.allFinished {m : Waiting Bool} {history : List WaiterId}
    (h : Run closedWaiter m history) : AllFinished m history := by
  obtain ⟨hinv, hout, hkept, honce⟩ := h.holds looks_closedWaiter
  have hlost : NoneLost closedWaiter m := (h.reached.imp fun m _ => looks_closedWaiter m).noneLost
  have hpending : ∀ {closed : Bool}, closed ≠ closedWaiter.pending ↔ closed = true := by
    intro closed
    exact Bool.ne_false_iff
  refine ⟨hlost.notified, hlost.unlinked, honce.nodup, fun w hdropped => ?_,
    fun hne => hpending.1 (hinv.ended hne), fun poll hmem hbegan => ?_, fun poll hmem hready => ?_⟩
  · rw [← not_or, ← List.mem_append, hinv.linked.mem]
    rintro ⟨node, hw, -⟩
    exact nomatch (hout w hdropped).symm.trans hw
  · exact (hinv.polls poll hmem (hpending.2 hbegan)).trans hbegan
  · exact (hkept poll hmem (hpending.2 hready)).trans hready

/-- Two futures are polled, one of them is dropped, and the last receiver goes. -/
theorem Run.allFinished_two : ∃ m : Waiting Bool, AllFinished m [0] ∧
    m.wakeAll = .done ∧ m.polls = [(false, false), (false, false), (true, true)] ∧
    m.woken = [7] ∧ m.phase 1 = .dropped := by
  have hother : ∀ {m m' : Waiting Bool}, (∀ wakers, m.wakeAll ≠ .popping wakers) →
      ∀ w, ¬ Notify m w m' := fun hne _ h => hne _ h.choose_spec.choose_spec.choose_spec.1
  have hstart : Run closedWaiter (Waiting.start .new) [] := .start rfl
  have hpoll := hstart.other (@Step.unready _ _ _ 0 7 rfl rfl rfl) (hother nofun)
  have hlock := hpoll.other (@Step.lock _ _ _ 0 _ _ rfl rfl) (hother nofun)
  have hregister := hlock.other (@Step.register _ _ _ 0 _ _ rfl rfl) (hother nofun)
  -- a second one is registered, and dropped again
  have hpoll' := hregister.other (@Step.unready _ _ _ 1 8 rfl rfl rfl) (hother nofun)
  have hlock' := hpoll'.other (@Step.lock _ _ _ 1 _ _ rfl rfl) (hother nofun)
  have hregister' := hlock'.other (@Step.register _ _ _ 1 _ _ rfl rfl) (hother nofun)
  have hdrop := hregister'.other (@Step.drop _ _ _ 1 _ rfl rfl rfl) (hother nofun)
  have hset := hdrop.other (.set rfl rfl) (hother nofun)
  have htake := hset.other (.take rfl rfl) (hother nofun)
  have hpop := @Run.notify _ _ _ _ _ 0 htake ⟨[], [], _, rfl, by decide, rfl, rfl, rfl⟩
  have hempty := hpop.other (.empty rfl (by decide) rfl) fun w hnotify => by
    obtain ⟨_, _, _, -, -, hlast, -⟩ := hnotify
    exact List.append_ne_nil_of_right_ne_nil _ (List.cons_ne_nil _ _) hlast.symm
  have hwake := hempty.other (@Step.wakeLast _ _ _ [] 7 rfl) (hother nofun)
  have hdone := hwake.other (.done rfl) (hother nofun)
  have hagain := hdone.other (@Step.notified _ _ _ 0 _ rfl rfl rfl) (hother nofun)
  have hrelease := hagain.other (@Step.release _ _ _ 0 _ rfl) (hother nofun)
  exact ⟨_, Run.allFinished hrelease, rfl, rfl, rfl, rfl⟩

end Waiting

end Recapn.Channel

/-
# Waiters

A task that waits for a state polls a waiter.  The first poll registers the waiter in a list, unless
the state is there already, and later polls look whether the waiter was notified.  Who sets the state
then takes the whole list and notifies the waiters in batches, without the lock while it wakes the
tasks of a batch.  A step is what is done from one lock or atomic access to the next.
-/
import Mathlib.Data.List.Nodup
import Recapn.Channel.State

namespace Recapn.Channel

variable {R : Type}

/-! ## What is polled for -/

/-- What a waiter polls for. -/
structure Polling (R : Type) where
  /-- What is read of the state. -/
  view : StateFlags → R
  /-- With this a first poll returns at once. -/
  first : R → Bool
  /-- With this a later poll returns, if the waiter was not notified. -/
  again : R → Bool
  pending : R
  /-- How the state is set for which the waiters wait. -/
  sets : StateFlags → StateFlags → Prop
  ne_of_first : ∀ {s}, first s = true → s ≠ pending
  again_iff : ∀ {s}, again s = true ↔ s ≠ pending
  ne_of_sets : ∀ {a a'}, sets a a' → view a' ≠ pending

/-- `RecvWaiter`: the value is set, or the sender is closed. -/
def recvWaiter : Polling ShotState where
  view := StateFlags.state
  first
    | .sent => true
    | _ => false
  again
    | .empty => false
    | .sent => true
    | .closed => true
  pending := .empty
  sets a a' := a' = a.setValue ∨ a' = a.setSendClosed
  ne_of_first {s} h := by
    cases s with
    | sent => nofun
    | empty => cases h
    | closed => nofun
  again_iff {s} := by cases s <;> simp
  ne_of_sets {a a'} h := by
    rcases h with rfl | rfl
    · exact nofun
    · unfold StateFlags.state StateFlags.setSendClosed
      split <;> exact nofun

/-! ## Waiters, the list, and who wakes them -/

abbrev WaiterId := ℕ

/-- `Waiter`. -/
structure Waiter where
  waker : Option Waker
  notified : Bool
  /-- The waker that was stored last. -/
  stored : Waker

/-- The waker of a waiter that is polled again, and has not been notified. -/
def Waiter.updateWaker (node : Waiter) (waker : Waker) : Waiter :=
  if node.waker = none ∨ node.waker = some waker then
    { node with waker := some waker, stored := waker }
  else node

/-- Where a `RecvWaiter` is polled.  A poll began when this was read of the state. -/
inductive Phase (R : Type) where
  | idle
  /-- The first poll, where it takes the lock. -/
  | locking (began : R) (waker : Waker)
  | locked (began : R) (waker : Waker)
  /-- A later poll, where it takes the lock. -/
  | relocking (began : R) (waker : Waker)
  | relocked (began : R) (waker : Waker)
  /-- The waiter was notified, and the state is to be read. -/
  | released (began : R)
  | dropped

/-- Where the sender is, which sets the state and runs `WaitList::wake_all`. -/
inductive WakeAll where
  | before
  /-- The state is set, and the lock is to be taken. -/
  | set
  /-- With the lock, and so many wakers. -/
  | popping (wakers : List Waker)
  /-- Without the lock: these are to be woken. -/
  | waking (wakers : List Waker)
  | finishing (wakers : List Waker)
  | done

/-- `NUM_WAKERS`. -/
def numWakers : ℕ := 32

/-- One `AtomicState` and one `WaitList`, the waiters, and who wakes them. -/
structure Waiting (R : Type) where
  atom : StateFlags
  isLocked : Bool
  list : List WaiterId
  /-- The guarded list of `wake_all`. -/
  guarded : List WaiterId
  waiter : WaiterId → Option Waiter
  phase : WaiterId → Phase R
  wakeAll : WakeAll
  woken : List Waker
  /-- What was read of the state when a poll began, and what the poll returned. -/
  polls : List (R × R)

namespace Waiting

/-- The poll of a waiter goes on. -/
def goto (m : Waiting R) (w : WaiterId) (phase : Phase R) : Waiting R :=
  { m with phase := Function.update m.phase w phase }

/-- The poll of a waiter returns. -/
def returns (m : Waiting R) (w : WaiterId) (began result : R) : Waiting R :=
  { m.goto w .idle with polls := m.polls ++ [(began, result)] }

/-- The waiter is registered, or is not. -/
def setWaiter (m : Waiting R) (w : WaiterId) (waiter : Option Waiter) : Waiting R :=
  { m with waiter := Function.update m.waiter w waiter }

/-- `LinkedList::remove`, from the list that has the waiter. -/
def remove (m : Waiting R) (w : WaiterId) : Waiting R :=
  { m with list := m.list.erase w, guarded := m.guarded.erase w }

/-- The lock is taken. -/
def lock (m : Waiting R) : Waiting R := { m with isLocked := true }

/-- The lock is free again. -/
def unlock (m : Waiting R) : Waiting R := { m with isLocked := false }

/-- Nobody waits, and the state is not set. -/
def start (atom : StateFlags) : Waiting R :=
  ⟨atom, false, [], [], fun _ => none, fun _ => .idle, .before, [], []⟩

/-- A step of a task that polls or drops a waiter, of the sender, or of others that change other
bits of the state. -/
inductive Step (P : Polling R) : Waiting R → Waiting R → Prop
  -- `RecvWaiter::poll` of a waiter that is not registered
  | ready {m : Waiting R} {w : WaiterId} (hidle : m.phase w = .idle) (hw : m.waiter w = none)
      (hfirst : P.first (P.view m.atom) = true) :
      Step P m (m.returns w (P.view m.atom) (P.view m.atom))
  | unready {m : Waiting R} {w : WaiterId} {waker : Waker} (hidle : m.phase w = .idle)
      (hw : m.waiter w = none) (hfirst : P.first (P.view m.atom) = false) :
      Step P m (m.goto w (.locking (P.view m.atom) waker))
  | lock {m : Waiting R} {w : WaiterId} {began : R} {waker : Waker}
      (hphase : m.phase w = .locking began waker) (hfree : m.isLocked = false) :
      Step P m (m.lock.goto w (.locked began waker))
  | readyLocked {m : Waiting R} {w : WaiterId} {began : R} {waker : Waker}
      (hphase : m.phase w = .locked began waker) (hfirst : P.first (P.view m.atom) = true) :
      Step P m (m.unlock.returns w began (P.view m.atom))
  | register {m : Waiting R} {w : WaiterId} {began : R} {waker : Waker}
      (hphase : m.phase w = .locked began waker) (hfirst : P.first (P.view m.atom) = false) :
      Step P m
        (({ m.unlock with list := w :: m.list }.setWaiter w (some ⟨some waker, false, waker⟩)).returns w
          began P.pending)
  -- of a waiter that is registered
  | notified {m : Waiting R} {w : WaiterId} {node : Waiter} (hidle : m.phase w = .idle)
      (hw : m.waiter w = some node) (hnotified : node.notified = true) :
      Step P m ((m.setWaiter w none).goto w (.released (P.view m.atom)))
  | unnotified {m : Waiting R} {w : WaiterId} {node : Waiter} {waker : Waker}
      (hidle : m.phase w = .idle) (hw : m.waiter w = some node) (hnot : node.notified = false) :
      Step P m (m.goto w (.relocking (P.view m.atom) waker))
  | relock {m : Waiting R} {w : WaiterId} {began : R} {waker : Waker}
      (hphase : m.phase w = .relocking began waker) (hfree : m.isLocked = false) :
      Step P m (m.lock.goto w (.relocked began waker))
  | notifiedLocked {m : Waiting R} {w : WaiterId} {began : R} {waker : Waker} {node : Waiter}
      (hphase : m.phase w = .relocked began waker) (hw : m.waiter w = some node)
      (hnotified : node.notified = true) :
      Step P m ((m.unlock.setWaiter w none).goto w (.released began))
  | update {m : Waiting R} {w : WaiterId} {began : R} {waker : Waker} {node : Waiter}
      (hphase : m.phase w = .relocked began waker) (hw : m.waiter w = some node)
      (hnot : node.notified = false) (hagain : P.again (P.view m.atom) = false) :
      Step P m ((m.unlock.setWaiter w (some (node.updateWaker waker))).returns w began (P.view m.atom))
  | readyAgain {m : Waiting R} {w : WaiterId} {began : R} {waker : Waker} {node : Waiter}
      (hphase : m.phase w = .relocked began waker) (hw : m.waiter w = some node)
      (hnot : node.notified = false) (hagain : P.again (P.view m.atom) = true) :
      Step P m (((m.unlock.remove w).setWaiter w none).returns w began (P.view m.atom))
  | release {m : Waiting R} {w : WaiterId} {began : R} (hphase : m.phase w = .released began) :
      Step P m (m.returns w began (P.view m.atom))
  -- `RecvWaiter::pinned_drop`
  | drop {m : Waiting R} {w : WaiterId} {node : Waiter} (hidle : m.phase w = .idle)
      (hw : m.waiter w = some node) (hfree : m.isLocked = false) :
      Step P m (((m.remove w).setWaiter w none).goto w .dropped)
  | dropNone {m : Waiting R} {w : WaiterId} (hidle : m.phase w = .idle) (hw : m.waiter w = none) :
      Step P m (m.goto w .dropped)
  | others {m : Waiting R} {a : StateFlags} (hview : P.view a = P.view m.atom) :
      Step P m { m with atom := a }
  -- the sender, and `WaitList::wake_all`
  | set {m : Waiting R} {a : StateFlags} (hbefore : m.wakeAll = .before) (hsets : P.sets m.atom a) :
      Step P m { m with atom := a, wakeAll := .set }
  | take {m : Waiting R} (hset : m.wakeAll = .set) (hfree : m.isLocked = false) :
      Step P m { m.lock with list := [], guarded := m.list, wakeAll := .popping [] }
  | pop {m : Waiting R} {w : WaiterId} {wakers : List Waker} {rest : List WaiterId} {node : Waiter}
      (hpopping : m.wakeAll = .popping wakers) (hroom : wakers.length < numWakers)
      (hlast : m.guarded = rest ++ [w]) (hw : m.waiter w = some node) :
      Step P m
        ({ m with guarded := rest, wakeAll := .popping (wakers ++ node.waker.toList) }.setWaiter w
          (some { node with waker := none, notified := true }))
  | full {m : Waiting R} {wakers : List Waker} (hpopping : m.wakeAll = .popping wakers)
      (hfull : ¬ wakers.length < numWakers) : Step P m { m.unlock with wakeAll := .waking wakers }
  | wake {m : Waiting R} {wakers : List Waker} {waker : Waker}
      (hwaking : m.wakeAll = .waking (wakers ++ [waker])) :
      Step P m { m with wakeAll := .waking wakers, woken := m.woken ++ [waker] }
  | relockAll {m : Waiting R} (hwaking : m.wakeAll = .waking []) (hfree : m.isLocked = false) :
      Step P m { m.lock with wakeAll := .popping [] }
  | empty {m : Waiting R} {wakers : List Waker} (hpopping : m.wakeAll = .popping wakers)
      (hroom : wakers.length < numWakers) (hempty : m.guarded = []) :
      Step P m { m.unlock with wakeAll := .finishing wakers }
  | wakeLast {m : Waiting R} {wakers : List Waker} {waker : Waker}
      (hfinishing : m.wakeAll = .finishing (wakers ++ [waker])) :
      Step P m { m with wakeAll := .finishing wakers, woken := m.woken ++ [waker] }
  | done {m : Waiting R} (hfinishing : m.wakeAll = .finishing []) :
      Step P m { m with wakeAll := .done }

/-- What is reached by steps, in any order, before each of which `ok` holds. -/
inductive Reached (P : Polling R) (ok : Waiting R → Prop) : Waiting R → Prop
  | start {atom : StateFlags} (hpending : P.view atom = P.pending) : Reached P ok (start atom)
  | step {m m' : Waiting R} (h : Reached P ok m) (hok : ok m) (hstep : Step P m m') :
      Reached P ok m'

/-! ## The lists have those that were not notified -/

/-- The waiter is registered and has not been notified. -/
def Waits (waiter : WaiterId → Option Waiter) (w : WaiterId) : Prop :=
  ∃ node, waiter w = some node ∧ node.notified = false

/-- The list and the guarded list have the waiters that were not notified, once each. -/
structure Linked (list guarded : List WaiterId) (waiter : WaiterId → Option Waiter) : Prop where
  nodup : (list ++ guarded).Nodup
  mem : ∀ w, w ∈ list ++ guarded ↔ Waits waiter w

section Linked

variable {list guarded rest : List WaiterId} {waiter : WaiterId → Option Waiter} {w : WaiterId}
  {node : Waiter}

lemma waits_update_of_ne {w' : WaiterId} (hne : w' ≠ w) (node : Option Waiter) :
    Waits (Function.update waiter w node) w' ↔ Waits waiter w' := by
  unfold Waits
  rw [Function.update_of_ne hne]

lemma waits_update_self : Waits (Function.update waiter w (some node)) w ↔ node.notified = false := by
  unfold Waits
  rw [Function.update_self]
  constructor
  · rintro ⟨node', heq, hnot⟩
    cases heq
    exact hnot
  · exact fun hnot => ⟨node, rfl, hnot⟩

lemma not_waits_update_none : ¬ Waits (Function.update waiter w none) w := by
  rintro ⟨node, heq, -⟩
  rw [Function.update_self] at heq
  cases heq

lemma Linked.register (h : Linked list guarded waiter) (hw : waiter w = none)
    (hnot : node.notified = false) :
    Linked (w :: list) guarded (Function.update waiter w (some node)) := by
  have hout : w ∉ list ++ guarded := fun hmem => by
    obtain ⟨node', heq, -⟩ := (h.mem w).1 hmem
    rw [hw] at heq
    cases heq
  refine ⟨List.nodup_cons.2 ⟨hout, h.nodup⟩, fun w' => ?_⟩
  by_cases hw' : w' = w
  · rw [hw', waits_update_self]
    exact ⟨fun _ => hnot, fun _ => List.mem_cons_self⟩
  · rw [waits_update_of_ne hw', ← h.mem]
    show w' ∈ w :: (list ++ guarded) ↔ _
    rw [List.mem_cons]
    exact ⟨fun hmem => hmem.resolve_left hw', Or.inr⟩

/-- The guarded list is the list that was there. -/
lemma Linked.take (h : Linked list [] waiter) : Linked [] list waiter := by
  refine ⟨?_, fun w => ?_⟩
  · have hnodup := h.nodup
    rw [List.append_nil] at hnodup
    exact hnodup
  · rw [← h.mem, List.append_nil]
    exact Iff.rfl

/-- A waiter that is notified, or is in no list and is changed. -/
lemma Linked.keep (h : Linked list guarded waiter) (hwaits : Waits waiter w ↔ node.notified = false) :
    Linked list guarded (Function.update waiter w (some node)) := by
  refine ⟨h.nodup, fun w' => ?_⟩
  rw [h.mem]
  by_cases hw' : w' = w
  · rw [hw', waits_update_self, hwaits]
  · rw [waits_update_of_ne hw']

lemma Linked.forget (h : Linked list guarded waiter) (hwaits : ¬ Waits waiter w) :
    Linked list guarded (Function.update waiter w none) := by
  refine ⟨h.nodup, fun w' => ?_⟩
  rw [h.mem]
  by_cases hw' : w' = w
  · rw [hw']
    exact ⟨fun h' => absurd h' hwaits, fun h' => absurd h' not_waits_update_none⟩
  · rw [waits_update_of_ne hw']

/-- A waiter is taken out of the list that has it. -/
lemma Linked.remove (h : Linked list guarded waiter) :
    Linked (list.erase w) (guarded.erase w) (Function.update waiter w none) := by
  have hsub : (list.erase w ++ guarded.erase w).Sublist (list ++ guarded) :=
    List.erase_sublist.append List.erase_sublist
  have hmem : ∀ w', w' ∈ list.erase w ++ guarded.erase w ↔ w' ≠ w ∧ w' ∈ list ++ guarded := by
    intro w'
    rw [List.mem_append, List.mem_append, (List.nodup_append.1 h.nodup).1.mem_erase_iff,
      (List.nodup_append.1 h.nodup).2.1.mem_erase_iff, and_or_left]
  refine ⟨h.nodup.sublist hsub, fun w' => ?_⟩
  rw [hmem]
  by_cases hw' : w' = w
  · rw [hw']
    exact ⟨fun h' => absurd rfl h'.1, fun h' => absurd h' not_waits_update_none⟩
  · rw [waits_update_of_ne hw', h.mem]
    exact ⟨fun h' => h'.2, fun h' => ⟨hw', h'⟩⟩

/-- A waiter is taken off the end of the guarded list, and notified. -/
lemma Linked.pop (h : Linked list (rest ++ [w]) waiter) (hnotified : node.notified = true) :
    Linked list rest (Function.update waiter w (some node)) := by
  have hall : list ++ (rest ++ [w]) = (list ++ rest).concat w := by
    rw [List.concat_eq_append, List.append_assoc]
  have hnodup := h.nodup
  rw [hall, List.nodup_concat] at hnodup
  refine ⟨hnodup.2, fun w' => ?_⟩
  by_cases hw' : w' = w
  · rw [hw', waits_update_self, hnotified]
    exact ⟨fun hmem => absurd hmem hnodup.1, nofun⟩
  · rw [waits_update_of_ne hw', ← h.mem, hall, List.concat_eq_append, List.mem_append (s := list ++ rest)]
    exact ⟨Or.inl, fun h' => h'.resolve_right fun hmem => hw' (List.mem_singleton.1 hmem)⟩

end Linked

end Waiting

/-! ## What holds in every run -/

/-- What was read of the state when the poll began. -/
def Phase.began : Phase R → Option R
  | locking began _ => some began
  | locked began _ => some began
  | relocking began _ => some began
  | relocked began _ => some began
  | released began => some began
  | _ => none

/-- It is a first poll, and the waiter is not registered yet. -/
def Phase.IsFirst : Phase R → Prop
  | locking _ _ => True
  | locked _ _ => True
  | _ => False

/-- The wakers that are to be woken. -/
def WakeAll.wakers : WakeAll → List Waker
  | popping wakers => wakers
  | waking wakers => wakers
  | finishing wakers => wakers
  | _ => []

/-- The list was taken, and what it had is notified. -/
def WakeAll.IsTaken : WakeAll → Prop
  | before => False
  | set => False
  | _ => True

/-- The guarded list may have waiters. -/
def WakeAll.IsPopping : WakeAll → Prop
  | popping _ => True
  | waking _ => True
  | _ => False

/-- The waker of a waiter is the one that was stored last; it was taken out to be woken when the
waiter was notified. -/
def Waiter.Wakes (wakers : List Waker) (node : Waiter) : Prop :=
  if node.notified then node.stored ∈ wakers else node.waker = some node.stored

namespace Waiting

/-- What holds in every run. -/
structure Inv (P : Polling R) (m : Waiting R) : Prop where
  before : m.wakeAll = .before → P.view m.atom = P.pending
  ended : m.wakeAll ≠ .before → P.view m.atom ≠ P.pending
  began : ∀ w b, (m.phase w).began = some b → b ≠ P.pending → P.view m.atom = b
  polls : ∀ poll ∈ m.polls, poll.1 ≠ P.pending → poll.2 = poll.1
  linked : Linked m.list m.guarded m.waiter
  first : ∀ w, (m.phase w).IsFirst → m.waiter w = none
  list : m.wakeAll.IsTaken → m.list = []
  guarded : ¬ m.wakeAll.IsPopping → m.guarded = []
  wakes : ∀ w node, m.waiter w = some node → Waiter.Wakes (m.woken ++ m.wakeAll.wakers) node

section Inv

variable {P : Polling R} {m : Waiting R} {w : WaiterId}

lemma Inv.start {atom : StateFlags} (hpending : P.view atom = P.pending) :
    Inv P (start atom) where
  before _ := hpending
  ended hne := absurd rfl hne
  began := nofun
  polls := nofun
  linked := ⟨List.nodup_nil, fun _ => ⟨nofun, fun h => nomatch h.choose_spec.1⟩⟩
  first _ _ := rfl
  list := nofun
  guarded _ := rfl
  wakes := nofun

/-- The lock does not matter. -/
lemma Inv.withLock (h : Inv P m) (isLocked : Bool) : Inv P { m with isLocked := isLocked } :=
  ⟨h.before, h.ended, h.began, h.polls, h.linked, h.first, h.list, h.guarded, h.wakes⟩

lemma Inv.goto (h : Inv P m) {phase : Phase R}
    (hbegan : ∀ b, phase.began = some b → b ≠ P.pending → P.view m.atom = b)
    (hfirst : phase.IsFirst → m.waiter w = none) : Inv P (m.goto w phase) where
  before := h.before
  ended := h.ended
  began w' b hb hne := by
    have hphase : (Function.update m.phase w phase w').began = some b := hb
    by_cases hw : w' = w
    · rw [hw, Function.update_self] at hphase
      exact hbegan b hphase hne
    · rw [Function.update_of_ne hw] at hphase
      exact h.began w' b hphase hne
  polls := h.polls
  linked := h.linked
  first w' hfirst' := by
    have hphase : (Function.update m.phase w phase w').IsFirst := hfirst'
    by_cases hw : w' = w
    · rw [hw, Function.update_self] at hphase
      rw [hw]
      exact hfirst hphase
    · rw [Function.update_of_ne hw] at hphase
      exact h.first w' hphase
  list := h.list
  guarded := h.guarded
  wakes := h.wakes

lemma Inv.returns (h : Inv P m) {began result : R} (hresult : began ≠ P.pending → result = began) :
    Inv P (m.returns w began result) := by
  have hgoto : Inv P (m.goto w .idle) := h.goto nofun nofun
  refine { hgoto with polls := fun poll hmem hne => ?_ }
  rcases List.mem_append.1 hmem with hmem | hmem
  · exact h.polls poll hmem hne
  · obtain rfl := List.mem_singleton.1 hmem
    exact hresult hne

/-- A waiter is not registered any more. -/
lemma Inv.unregister (h : Inv P m) {list guarded : List WaiterId}
    (hlinked : Linked list guarded (Function.update m.waiter w none))
    (hlist : m.list = [] → list = []) (hguarded : m.guarded = [] → guarded = []) :
    Inv P ({ m with list := list, guarded := guarded }.setWaiter w none) where
  before := h.before
  ended := h.ended
  began := h.began
  polls := h.polls
  linked := hlinked
  first w' hfirst := by
    show Function.update m.waiter w none w' = none
    by_cases hw : w' = w
    · rw [hw, Function.update_self]
    · rw [Function.update_of_ne hw]
      exact h.first w' hfirst
  list htaken := hlist (h.list htaken)
  guarded hnot := hguarded (h.guarded hnot)
  wakes w' node hnode := by
    have hupdated : Function.update m.waiter w none w' = some node := hnode
    by_cases hw : w' = w
    · rw [hw, Function.update_self] at hupdated
      cases hupdated
    · rw [Function.update_of_ne hw] at hupdated
      exact h.wakes w' node hupdated

/-- A waiter is registered, or is changed. -/
lemma Inv.setWaiter (h : Inv P m) {list : List WaiterId} {node : Waiter}
    (hlinked : Linked list m.guarded (Function.update m.waiter w (some node)))
    (hlist : m.wakeAll.IsTaken → list = []) (hfirst : ¬ (m.phase w).IsFirst)
    (hwakes : Waiter.Wakes (m.woken ++ m.wakeAll.wakers) node) :
    Inv P ({ m with list := list }.setWaiter w (some node)) where
  before := h.before
  ended := h.ended
  began := h.began
  polls := h.polls
  linked := hlinked
  first w' hfirst' := by
    show Function.update m.waiter w (some node) w' = none
    by_cases hw : w' = w
    · rw [hw] at hfirst'
      exact absurd hfirst' hfirst
    · rw [Function.update_of_ne hw]
      exact h.first w' hfirst'
  list := hlist
  guarded := h.guarded
  wakes w' node' hnode := by
    have hupdated : Function.update m.waiter w (some node) w' = some node' := hnode
    by_cases hw : w' = w
    · rw [hw, Function.update_self] at hupdated
      cases hupdated
      exact hwakes
    · rw [Function.update_of_ne hw] at hupdated
      exact h.wakes w' node' hupdated

/-- The sender goes on after it has taken the list. -/
lemma Inv.proceed (h : Inv P m) {now next : WakeAll} {woken : List Waker} (hnow : m.wakeAll = now)
    (htaken : now.IsTaken) (hnext : next.IsTaken) (hguarded : ¬ next.IsPopping → m.guarded = [])
    (hwakers : ∀ k ∈ m.woken ++ now.wakers, k ∈ woken ++ next.wakers) :
    Inv P { m with wakeAll := next, woken := woken } := by
  subst hnow
  have hne : ∀ {wakeAll : WakeAll}, wakeAll.IsTaken → wakeAll ≠ .before := fun hnow heq => by
    rw [heq] at hnow
    exact hnow
  refine ⟨fun heq => absurd heq (hne hnext), fun _ => h.ended (hne htaken), h.began, h.polls, h.linked,
    h.first, fun _ => h.list htaken, hguarded, fun w node hnode => ?_⟩
  have hwakes := h.wakes w node hnode
  unfold Waiter.Wakes at hwakes ⊢
  split
  · rw [if_pos (by assumption)] at hwakes
    exact hwakers _ hwakes
  · rw [if_neg (by assumption)] at hwakes
    exact hwakes

/-- A poll that registers its waiter looks at the state with the lock: it is not set yet, or it was
not when the poll began, and the list has not been taken since. -/
def Looks (P : Polling R) (m : Waiting R) : Prop :=
  ∀ w began waker, m.phase w = .locked began waker → P.first (P.view m.atom) = false →
    P.view m.atom = P.pending ∨ began = P.pending ∧ m.wakeAll = .set

section Steps

variable {m' : Waiting R} {began : R} {waker : Waker} {node : Waiter}

lemma Inv.register (h : Inv P m) (hlooks : Looks P m) (hphase : m.phase w = .locked began waker)
    (hfirst : P.first (P.view m.atom) = false) :
    Inv P (({ m with list := w :: m.list }.setWaiter w (some ⟨some waker, false, waker⟩)).returns w
      began P.pending) := by
  have hlooked := hlooks w began waker hphase hfirst
  have hresult : began ≠ P.pending → P.pending = began := by
    intro hne
    rcases hlooked with hpending | ⟨heq, -⟩
    · exact hpending.symm.trans (h.began w began (by rw [hphase]; rfl) hne)
    · exact absurd heq hne
  have hreturns : Inv P (m.returns w began P.pending) := h.returns hresult
  have hnone : m.waiter w = none := h.first w (by rw [hphase]; trivial)
  have hidle : (m.returns w began P.pending).phase w = .idle := Function.update_self ..
  refine hreturns.setWaiter (h.linked.register hnone rfl) (fun htaken => ?_) ?_ rfl
  · -- the list is taken only when the state is set
    exfalso
    have htaken' : m.wakeAll.IsTaken := htaken
    rcases hlooked with hpending | ⟨-, hset⟩
    · refine h.ended (fun heq => ?_) hpending
      rw [heq] at htaken'
      exact htaken'
    · rw [hset] at htaken'
      exact htaken'
  · rw [hidle]
    exact id

/-- A waiter that was notified is in no list. -/
lemma Inv.notified (h : Inv P m) (hw : m.waiter w = some node) (hnotified : node.notified = true) :
    Inv P (m.setWaiter w none) := by
  have hnot : ¬ Waits m.waiter w := by
    rintro ⟨node', heq, hnot⟩
    rw [hw] at heq
    cases heq
    rw [hnotified] at hnot
    cases hnot
  exact h.unregister (h.linked.forget hnot) id id

/-- A waiter is taken out of the list that has it, and is not registered any more. -/
lemma Inv.remove (h : Inv P m) (w : WaiterId) : Inv P ((m.remove w).setWaiter w none) := by
  refine h.unregister h.linked.remove (fun hnil => ?_) fun hnil => ?_
  · rw [hnil]
    rfl
  · rw [hnil]
    rfl

/-- A waiter gets the waker of the latest poll, or keeps its own. -/
lemma Inv.update (h : Inv P m) (hphase : m.phase w = .relocked began waker)
    (hw : m.waiter w = some node) (hnot : node.notified = false) :
    Inv P (m.setWaiter w (some (node.updateWaker waker))) := by
  have hnot' : (node.updateWaker waker).notified = false := by
    unfold Waiter.updateWaker
    split
    · exact hnot
    · exact hnot
  have hwaits : Waits m.waiter w ↔ (node.updateWaker waker).notified = false :=
    ⟨fun _ => hnot', fun _ => ⟨node, hw, hnot⟩⟩
  refine h.setWaiter (h.linked.keep hwaits) h.list ?_ ?_
  · rw [hphase]
    exact id
  · have hwakes := h.wakes w node hw
    unfold Waiter.Wakes at hwakes ⊢
    rw [hnot] at hwakes
    rw [hnot']
    show (node.updateWaker waker).waker = some (node.updateWaker waker).stored
    unfold Waiter.updateWaker
    split
    · rfl
    · exact hwakes

/-- The state is set. -/
lemma Inv.set (h : Inv P m) {a : StateFlags} (hbefore : m.wakeAll = .before)
    (hsets : P.sets m.atom a) : Inv P { m with atom := a, wakeAll := .set } where
  before := nofun
  ended _ := P.ne_of_sets hsets
  began w b hb hne := absurd ((h.began w b hb hne).symm.trans (h.before hbefore)) hne
  polls := h.polls
  linked := h.linked
  first := h.first
  list := nofun
  guarded _ := h.guarded (by rw [hbefore]; exact id)
  wakes w node hnode := by
    have hwakes := h.wakes w node hnode
    rw [hbefore] at hwakes
    exact hwakes

/-- The list is taken. -/
lemma Inv.take (h : Inv P m) (hset : m.wakeAll = .set) :
    Inv P { m with list := [], guarded := m.list, wakeAll := .popping [] } where
  before := nofun
  ended _ := h.ended (by rw [hset]; exact nofun)
  began := h.began
  polls := h.polls
  linked := by
    have hlinked := h.linked
    rw [h.guarded (by rw [hset]; exact id)] at hlinked
    exact hlinked.take
  first := h.first
  list _ := rfl
  guarded hnot := absurd trivial hnot
  wakes w node hnode := by
    have hwakes := h.wakes w node hnode
    rw [hset] at hwakes
    exact hwakes

/-- One waiter is notified, and its waker is to be woken. -/
lemma Inv.pop (h : Inv P m) {wakers : List Waker} {rest : List WaiterId}
    (hpopping : m.wakeAll = .popping wakers) (hlast : m.guarded = rest ++ [w])
    (hw : m.waiter w = some node) :
    Inv P ({ m with guarded := rest, wakeAll := .popping (wakers ++ node.waker.toList) }.setWaiter w
      (some { node with waker := none, notified := true })) := by
  have hlinked := h.linked
  rw [hlast] at hlinked
  have hnot : node.notified = false := by
    obtain ⟨node', heq, hnot⟩ := (hlinked.mem w).1
      (List.mem_append_right _ (List.mem_append_right _ List.mem_cons_self))
    rw [hw] at heq
    cases heq
    exact hnot
  have hwaker : node.waker = some node.stored := by
    have hwakes := h.wakes w node hw
    unfold Waiter.Wakes at hwakes
    rw [hnot] at hwakes
    exact hwakes
  have htaken : m.wakeAll.IsTaken := by rw [hpopping]; trivial
  refine ⟨nofun, fun _ => h.ended (by rw [hpopping]; exact nofun), h.began, h.polls, hlinked.pop rfl,
    fun w' hfirst => ?_, fun _ => h.list htaken, fun hnot => absurd trivial hnot, fun w' node' hnode => ?_⟩
  · show Function.update m.waiter w _ w' = none
    by_cases hw' : w' = w
    · have hnone := h.first w' hfirst
      rw [hw', hw] at hnone
      cases hnone
    · rw [Function.update_of_ne hw']
      exact h.first w' hfirst
  · have hupdated : Function.update m.waiter w (some { node with waker := none, notified := true }) w'
        = some node' := hnode
    show Waiter.Wakes (m.woken ++ (wakers ++ node.waker.toList)) node'
    by_cases hw' : w' = w
    · rw [hw', Function.update_self] at hupdated
      cases hupdated
      show node.stored ∈ m.woken ++ (wakers ++ node.waker.toList)
      rw [hwaker]
      exact List.mem_append_right _ (List.mem_append_right _ List.mem_cons_self)
    · rw [Function.update_of_ne hw'] at hupdated
      have hwakes := h.wakes w' node' hupdated
      rw [hpopping] at hwakes
      unfold Waiter.Wakes at hwakes ⊢
      split
      · rw [if_pos (by assumption)] at hwakes
        rw [← List.append_assoc]
        exact List.mem_append_left _ hwakes
      · rw [if_neg (by assumption)] at hwakes
        exact hwakes

/-- The last waker of a batch is woken first. -/
lemma mem_woken_wake {woken wakers : List Waker} {k : Waker} (h : k ∈ woken ++ (wakers ++ [waker])) :
    k ∈ woken ++ [waker] ++ wakers := by
  simp only [List.mem_append, List.mem_singleton] at h ⊢
  tauto

/-- A step keeps what holds. -/
lemma Inv.step (h : Inv P m) (hlooks : Looks P m) (hstep : Step P m m') : Inv P m' := by
  have hlocked : Inv P m.lock := h.withLock true
  have hunlocked : Inv P m.unlock := h.withLock false
  cases hstep with
  | ready hidle hw hfirst => exact h.returns fun _ => rfl
  | unready hidle hw hfirst =>
    refine h.goto (fun b hb _ => ?_) fun _ => hw
    cases hb
    rfl
  | lock hphase hfree =>
    refine hlocked.goto (fun b hb => ?_) fun _ => ?_
    · cases hb
      exact h.began _ _ (by rw [hphase]; rfl)
    · exact h.first _ (by rw [hphase]; trivial)
  | readyLocked hphase hfirst => exact hunlocked.returns (h.began _ _ (by rw [hphase]; rfl))
  | register hphase hfirst => exact hunlocked.register hlooks hphase hfirst
  | notified hidle hw hnotified =>
    refine (h.notified hw hnotified).goto (fun b hb _ => ?_) nofun
    cases hb
    rfl
  | unnotified hidle hw hnot =>
    refine h.goto (fun b hb _ => ?_) nofun
    cases hb
    rfl
  | relock hphase hfree =>
    refine hlocked.goto (fun b hb => ?_) nofun
    cases hb
    exact h.began _ _ (by rw [hphase]; rfl)
  | notifiedLocked hphase hw hnotified =>
    refine (hunlocked.notified hw hnotified).goto (fun b hb => ?_) nofun
    cases hb
    exact h.began _ _ (by rw [hphase]; rfl)
  | update hphase hw hnot hagain =>
    exact (hunlocked.update hphase hw hnot).returns (h.began _ _ (by rw [hphase]; rfl))
  | readyAgain hphase hw hnot hagain =>
    exact (hunlocked.remove _).returns (h.began _ _ (by rw [hphase]; rfl))
  | release hphase => exact h.returns (h.began _ _ (by rw [hphase]; rfl))
  | drop hidle hw hfree => exact (h.remove _).goto nofun nofun
  | dropNone hidle hw => exact h.goto nofun nofun
  | others hview =>
    refine ⟨fun heq => hview.trans (h.before heq), fun hne heq => h.ended hne (hview.symm.trans heq),
      fun w b hb hne => hview.trans (h.began w b hb hne), h.polls, h.linked, h.first, h.list, h.guarded,
      h.wakes⟩
  | set hbefore hsets => exact h.set hbefore hsets
  | take hset hfree => exact hlocked.take hset
  | pop hpopping hroom hlast hw => exact h.pop hpopping hlast hw
  | full hpopping hfull =>
    exact hunlocked.proceed hpopping trivial trivial (fun hnot => absurd trivial hnot) fun k hk => hk
  | wake hwaking =>
    refine h.proceed hwaking trivial trivial (fun hnot => absurd trivial hnot) fun k hk => ?_
    exact mem_woken_wake hk
  | relockAll hwaking hfree =>
    exact hlocked.proceed hwaking trivial trivial (fun hnot => absurd trivial hnot) fun k hk => hk
  | empty hpopping hroom hempty =>
    exact hunlocked.proceed hpopping trivial trivial (fun _ => hempty) fun k hk => hk
  | wakeLast hfinishing =>
    have hnil : m.guarded = [] := h.guarded (by rw [hfinishing]; exact id)
    refine h.proceed hfinishing trivial trivial (fun _ => hnil) fun k hk => ?_
    exact mem_woken_wake hk
  | done hfinishing =>
    have hnil : m.guarded = [] := h.guarded (by rw [hfinishing]; exact id)
    exact h.proceed hfinishing trivial trivial (fun _ => hnil) fun k hk => hk

end Steps

end Inv

/-! ## No wake-up is lost -/

/-- No wake-up is lost. -/
structure NoneLost (P : Polling R) (m : Waiting R) : Prop where
  /-- A poll that began when the state was set returned it. -/
  polls : ∀ poll ∈ m.polls, poll.1 ≠ P.pending → poll.2 = poll.1
  /-- After `wake_all` every waiter that is registered was notified, and the waker that it stored was
  woken. -/
  notified : m.wakeAll = .done → ∀ w node, m.waiter w = some node →
    node.notified = true ∧ node.stored ∈ m.woken
  unlinked : m.wakeAll = .done → m.list = [] ∧ m.guarded = []

section Reached

variable {P : Polling R} {m : Waiting R} {ok ok' : Waiting R → Prop}

lemma Reached.imp (h : Reached P ok m) (himp : ∀ m, ok m → ok' m) : Reached P ok' m := by
  induction h with
  | start hpending => exact .start hpending
  | step h hok hstep ih => exact ih.step (himp _ hok) hstep

lemma Reached.inv (h : Reached P (Looks P) m) : Inv P m := by
  induction h with
  | start hpending => exact Inv.start hpending
  | step h hok hstep ih => exact ih.step hok hstep

/-- Nothing is lost when those who register look at the state first. -/
theorem Reached.noneLost (h : Reached P (Looks P) m) : NoneLost P m := by
  have hinv := h.inv
  have hunlinked : m.wakeAll = .done → m.list = [] ∧ m.guarded = [] := fun hdone =>
    ⟨hinv.list (by rw [hdone]; trivial), hinv.guarded (by rw [hdone]; exact id)⟩
  refine ⟨hinv.polls, fun hdone w node hw => ?_, hunlinked⟩
  obtain ⟨hlist, hguarded⟩ := hunlinked hdone
  have hnotified : node.notified = true := by
    by_contra hnot
    -- a waiter that was not notified is in one of the lists
    have hmem := (hinv.linked.mem w).2 ⟨node, hw, Bool.eq_false_iff.2 hnot⟩
    rw [hlist, hguarded] at hmem
    exact absurd hmem List.not_mem_nil
  have hwakes := hinv.wakes w node hw
  unfold Waiter.Wakes at hwakes
  rw [hnotified, hdone] at hwakes
  refine ⟨hnotified, ?_⟩
  have hwoken : node.stored ∈ m.woken ++ [] := hwakes
  rw [List.append_nil] at hwoken
  exact hwoken

end Reached

/-! ## Receivers -/

/-- When a `RecvWaiter` is to be registered, the sender is not closed; or it was closed after the poll
began, and has not taken the list yet. -/
def ChecksClosed (m : Waiting ShotState) : Prop :=
  ∀ w began waker, m.phase w = .locked began waker → m.atom.state = .closed →
    began = .empty ∧ m.wakeAll = .set

lemma looks_of_checksClosed {m : Waiting ShotState} (h : ChecksClosed m) : Looks recvWaiter m := by
  intro w began waker hphase hfirst
  have hview : recvWaiter.view m.atom = m.atom.state := rfl
  rw [hview] at hfirst ⊢
  rcases hstate : m.atom.state
  · rw [hstate] at hfirst
    cases hfirst
  · exact Or.inl rfl
  · exact Or.inr (h w began waker hphase hstate)

/-- **No response wake-up is lost**, in every run in which no waiter is registered that has not seen
that the sender is closed. -/
theorem Reached.noResponseLost {m : Waiting ShotState} (h : Reached recvWaiter ChecksClosed m) :
    NoneLost recvWaiter m :=
  (h.imp fun _ => looks_of_checksClosed).noneLost

/-- One waiter is registered before the value is set, and one is polled afterwards. -/
theorem noResponseLost_sent : ∃ m : Waiting ShotState, Reached recvWaiter ChecksClosed m ∧
    m.wakeAll = .done ∧ m.polls = [(.empty, .empty), (.sent, .sent), (.sent, .sent)] ∧ m.woken = [7] ∧
    NoneLost recvWaiter m := by
  have hopen : ∀ {m : Waiting ShotState}, m.atom.state ≠ .closed → ChecksClosed m :=
    fun hne _ _ _ _ heq => absurd heq hne
  have hstart : Reached recvWaiter ChecksClosed (start .new) := .start rfl
  have hpoll := hstart.step (hopen nofun) (@Step.unready _ _ _ 0 7 rfl rfl rfl)
  have hlock := hpoll.step (hopen nofun) (@Step.lock _ _ _ 0 _ _ rfl rfl)
  have hregister := hlock.step (hopen nofun) (@Step.register _ _ _ 0 _ _ rfl rfl)
  have hset := hregister.step (hopen nofun) (.set rfl (Or.inl rfl))
  -- another waiter is polled before the list is taken
  have hready := hset.step (hopen nofun) (@Step.ready _ _ _ 1 rfl rfl rfl)
  have htake := hready.step (hopen nofun) (.take rfl rfl)
  have hpop := htake.step (hopen nofun) (@Step.pop _ _ _ 0 [] [] _ rfl (by decide) rfl rfl)
  have hempty := hpop.step (hopen nofun) (.empty rfl (by decide) rfl)
  have hwake := hempty.step (hopen nofun) (@Step.wakeLast _ _ _ [] 7 rfl)
  have hdone := hwake.step (hopen nofun) (.done rfl)
  have hagain := hdone.step (hopen nofun) (@Step.notified _ _ _ 0 _ rfl rfl rfl)
  have hrelease := hagain.step (hopen nofun) (@Step.release _ _ _ 0 _ rfl)
  exact ⟨_, hrelease, rfl, rfl, rfl, hrelease.noResponseLost⟩

/-- The sender is closed, and has woken all that waited.  A poll returns that there is nothing yet,
and leaves a waiter in the list, which nobody will notify. -/
theorem not_noResponseLost : ∃ m : Waiting ShotState, Reached recvWaiter (fun _ => True) m ∧
    m.wakeAll = .done ∧ m.polls = [(.closed, .empty)] ∧ m.list = [0] ∧
    m.waiter 0 = some ⟨some 7, false, 7⟩ ∧ ¬ NoneLost recvWaiter m := by
  have hstart : Reached recvWaiter (fun _ => True) (start .new) := .start rfl
  have hset := hstart.step trivial (.set rfl (Or.inr rfl))
  have htake := hset.step trivial (.take rfl rfl)
  have hempty := htake.step trivial (.empty rfl (by decide) rfl)
  have hdone := hempty.step trivial (.done rfl)
  have hpoll := hdone.step trivial (@Step.unready _ _ _ 0 7 rfl rfl rfl)
  have hlock := hpoll.step trivial (@Step.lock _ _ _ 0 _ _ rfl rfl)
  have hregister := hlock.step trivial (@Step.register _ _ _ 0 _ _ rfl rfl)
  refine ⟨_, hregister, rfl, rfl, rfl, rfl, fun hlost => ?_⟩
  cases (hlost.notified rfl 0 ⟨some 7, false, 7⟩ rfl).1

end Waiting

end Recapn.Channel

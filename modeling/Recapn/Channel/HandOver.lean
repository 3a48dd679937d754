/-
# The waker of a closed task

The receiver of a resolution may wait for the channel to close.  It leaves a waker in a slot that
has room for one, and the side that closes the channel wakes it.  Neither takes a lock: a flag says
whether the closing side may read the slot, and the receiver takes the flag back before it puts
another waker there.

A poll and a close are taken apart here into their accesses, of the atomic state and of the slot,
and these come in any order.  What is in the slot is nothing when it is not initialized.
-/
import Recapn.Channel.Repolling

namespace Recapn.Channel.HandOver

open Recapn.Channel.Repolling

/-- A waker that was written to the slot, which so many were before. -/
structure Stored (W : Type) where
  id : ℕ
  waker : W

/-- How far `ClosedTask::poll` is, or what the last one returned. -/
inductive Phase (W : Type) where
  | idle
  | ready
  | pending (waker : W)
  | compare (waker : W)
  | clear (waker : W)
  | reset
  | replace (waker : W)
  | write (waker : W)
  | publish (waker : W)

/-- How far `ClosedTask::close` is. -/
inductive Closing where
  | idle
  | waking
  | done
deriving DecidableEq

/-- No poll is under way. -/
def Phase.isDone {W : Type} : Phase W → Bool
  | idle => true
  | ready => true
  | pending _ => true
  | _ => false

/-- The next access of the poll writes to the slot. -/
def Phase.writes {W : Type} : Phase W → Bool
  | replace _ => true
  | write _ => true
  | _ => false

/-- The `AtomicState` and the `ClosedTask`, what uses them, and what was done with the wakers. -/
structure State (W : Type) where
  atom : StateFlags
  waker : Option (Stored W)
  poll : Phase W
  close : Closing
  stored : ℕ
  dropped : List ℕ
  woken : List (Stored W)
  freed : Bool

/-- `AtomicState::new` and `ClosedTask::new`. -/
def State.new {W : Type} : State W where
  atom := .new
  waker := none
  poll := .idle
  close := .idle
  stored := 0
  dropped := []
  woken := []
  freed := false

variable {W T : Type}

namespace State

/-- `ClosedTask::poll`, up to the load of the state. -/
def load (m : State W) (waker : W) : State W :=
  if m.atom.isRecvClosed then { m with poll := .ready }
  else if m.atom.isClosedTaskSet then { m with poll := .compare waker }
  else { m with poll := .write waker }

/-- The next access of `ClosedTask::poll`.  A waker that is not there cannot be read or dropped. -/
def pollNext (wakers : Wakers W T) (m : State W) : Option (State W) :=
  match m.poll with
  | .compare waker => m.waker.map fun stored =>
    if wakers.willWake stored.waker waker then { m with poll := .pending waker }
    else { m with poll := .clear waker }
  | .clear waker =>
    let atom := m.atom.clearClosedTask
    some { m with atom := atom, poll := if atom.isRecvClosed then .reset else .replace waker }
  | .reset => some { m with atom := m.atom.setClosedTask, poll := .ready }
  | .replace waker => m.waker.map fun stored =>
    { m with waker := none, dropped := stored.id :: m.dropped, poll := .write waker }
  | .write waker =>
    some { m with waker := some ⟨m.stored, waker⟩, stored := m.stored + 1, poll := .publish waker }
  | .publish waker =>
    let atom := m.atom.setClosedTask
    some { m with atom := atom, poll := if atom.isRecvClosed then .ready else .pending waker }
  | _ => none

/-- `ClosedTask::close`, up to the update of the state. -/
def beginClose (m : State W) : State W :=
  let atom := m.atom.setRecvClosed
  let wakes := atom.isClosedTaskSet && !(atom.isSendClosed || atom.isSet)
  { m with atom := atom, close := if wakes then .waking else .done }

/-- `ClosedTask::close` goes on to wake the task. -/
def wake (m : State W) : Option (State W) :=
  m.waker.map fun stored => { m with woken := stored :: m.woken, close := .done }

/-- `ResolutionState::drop`, as far as it is about the waker. -/
def free (m : State W) : Option (State W) :=
  if m.atom.isClosedTaskSet then
    m.waker.map fun stored =>
      { m with waker := none, dropped := stored.id :: m.dropped, freed := true }
  else some { m with freed := true }

end State

/-- One access.  There is one receiver, the channel is closed once, and the state is dropped when
nothing uses it. -/
inductive Step (wakers : Wakers W T) : State W → State W → Prop
  | poll {m : State W} (hdone : m.poll.isDone = true) (hfreed : m.freed = false) (waker : W) :
      Step wakers m (m.load waker)
  | pollNext {m m' : State W} (h : m.pollNext wakers = some m') : Step wakers m m'
  | close {m : State W} (h : m.close = .idle) (hfreed : m.freed = false) : Step wakers m m.beginClose
  | wake {m m' : State W} (hwaking : m.close = .waking) (h : m.wake = some m') : Step wakers m m'
  | free {m m' : State W} (hdone : m.poll.isDone = true) (hclose : m.close ≠ .waking)
      (hfreed : m.freed = false) (h : m.free = some m') : Step wakers m m'

/-- Any number of accesses in any order. -/
inductive Reached (wakers : Wakers W T) : State W → Prop
  | new : Reached wakers .new
  | step {m m' : State W} (h : Reached wakers m) (hstep : Step wakers m m') : Reached wakers m'

/-! ## Who has the slot -/

/-- The flag and the slot are what the poll takes them for.  The closing side has the slot for as
long as it is waking, and then the poll does not write to it. -/
def Agrees (wakers : Wakers W T) (m : State W) : Prop :=
  match m.poll with
  | .idle => m.atom.isClosedTaskSet = false ∧ m.waker = none
  | .ready => m.atom.isClosedTaskSet = m.waker.isSome
  | .pending waker => m.atom.isClosedTaskSet = true ∧ ∃ stored, m.waker = some stored ∧
      wakers.task stored.waker = wakers.task waker
  | .compare _ => m.atom.isClosedTaskSet = true ∧ m.waker.isSome
  | .clear _ => m.atom.isClosedTaskSet = true ∧ m.waker.isSome
  | .reset => m.atom.isClosedTaskSet = false ∧ m.waker.isSome
  | .replace _ => m.atom.isClosedTaskSet = false ∧ m.waker.isSome ∧ m.close ≠ .waking
  | .write _ => m.atom.isClosedTaskSet = false ∧ m.waker = none ∧ m.close ≠ .waking
  | .publish waker => m.atom.isClosedTaskSet = false ∧
      (∃ stored, m.waker = some stored ∧ stored.waker = waker) ∧ m.close ≠ .waking

/-- The phases in which the closing side finds a waker. -/
def Phase.offers : Phase W → Bool
  | pending _ => true
  | compare _ => true
  | clear _ => true
  | _ => false

/-- Every waker that was stored has been dropped, or is in the slot. -/
structure Owned (m : State W) : Prop where
  nodup : m.dropped.Nodup
  lt_iff : ∀ id, id < m.stored ↔ id ∈ m.dropped ∨ ∃ stored, m.waker = some stored ∧ stored.id = id
  slot : ∀ stored, m.waker = some stored → stored.id ∉ m.dropped ∧ stored.id + 1 = m.stored

/-- What holds until the state is dropped. -/
structure Live (wakers : Wakers W T) (m : State W) : Prop where
  isSet : m.atom.isSet = false
  isSendClosed : m.atom.isSendClosed = false
  isRecvClosed : m.atom.isRecvClosed = false ↔ m.close = .idle
  agrees : Agrees wakers m
  waking : m.close = .waking → m.waker.isSome
  woken : m.close = .done → m.poll.offers = true → ∀ stored, m.waker = some stored → stored ∈ m.woken

variable {wakers : Wakers W T} {m m' : State W}

lemma live_new : Live wakers (.new : State W) :=
  ⟨rfl, rfl, iff_of_true rfl rfl, ⟨rfl, rfl⟩, nofun, nofun⟩

lemma owned_new : Owned (.new : State W) :=
  ⟨List.nodup_nil, fun id => by simp [State.new], nofun⟩

/-- Before its final drop, the slot is initialized just when the flag says so, between two polls. -/
lemma Live.isSome_of_isDone (h : Live wakers m) (hdone : m.poll.isDone = true) :
    m.atom.isClosedTaskSet = m.waker.isSome := by
  have hagrees := h.agrees
  rw [Agrees.eq_def] at hagrees
  cases hpoll : m.poll with
  | idle =>
    rw [hpoll] at hagrees
    rw [hagrees.1, hagrees.2]
    rfl
  | ready =>
    rw [hpoll] at hagrees
    exact hagrees
  | pending waker =>
    rw [hpoll] at hagrees
    obtain ⟨hflag, stored, hstored, -⟩ := hagrees
    rw [hflag, hstored]
    rfl
  | _ =>
    rw [hpoll] at hdone
    cases hdone

/-- When the flag is set there is a waker. -/
lemma Live.isSome_of_flag (h : Live wakers m) (hflag : m.atom.isClosedTaskSet = true) :
    m.waker.isSome = true := by
  have hagrees := h.agrees
  rw [Agrees.eq_def, hflag] at hagrees
  cases hpoll : m.poll with
  | ready =>
    rw [hpoll] at hagrees
    exact hagrees.symm
  | pending waker =>
    rw [hpoll] at hagrees
    obtain ⟨-, stored, hstored, -⟩ := hagrees
    rw [hstored]
    rfl
  | compare waker | clear waker =>
    rw [hpoll] at hagrees
    exact hagrees.2
  | _ =>
    rw [hpoll] at hagrees
    cases hagrees.1

/-- As long as the channel is open, nobody else has the slot. -/
lemma Live.close_of_open (h : Live wakers m) (hopen : ¬ m.atom.isRecvClosed = true) : m.close = .idle :=
  h.isRecvClosed.1 (Bool.eq_false_of_not_eq_true hopen)

/-- The load only says where the poll goes on. -/
lemma load_eq (m : State W) (waker : W) : ∃ poll, m.load waker = { m with poll := poll } := by
  unfold State.load
  split
  · exact ⟨_, rfl⟩
  · split
    · exact ⟨_, rfl⟩
    · exact ⟨_, rfl⟩

lemma Live.load (h : Live wakers m) (hdone : m.poll.isDone = true) (waker : W) :
    Live wakers (m.load waker) := by
  have hslot := h.isSome_of_isDone hdone
  unfold State.load
  split
  · exact ⟨h.isSet, h.isSendClosed, h.isRecvClosed, hslot, h.waking, fun _ hoffers => nomatch hoffers⟩
  · next hopen =>
    have hclose := h.close_of_open hopen
    have hidle {c : Closing} (hc : m.close = c) (hne : c ≠ .idle) : False := hne (hc.symm.trans hclose)
    split
    · next hflag =>
      refine ⟨h.isSet, h.isSendClosed, h.isRecvClosed, ⟨hflag, ?_⟩, h.waking,
        fun hc => (hidle hc nofun).elim⟩
      rw [← hslot, hflag]
    · next hflag =>
      have hunset := Bool.eq_false_of_not_eq_true hflag
      refine ⟨h.isSet, h.isSendClosed, h.isRecvClosed, ⟨hunset, ?_, fun hc => hidle hc nofun⟩,
        h.waking, fun hc => (hidle hc nofun).elim⟩
      rw [← Option.not_isSome_iff_eq_none]
      show ¬ m.waker.isSome = true
      rw [← hslot]
      exact hflag

/-- The receiver goes on with a poll. -/
lemma Live.pollNext (h : Live wakers m) (hnext : m.pollNext wakers = some m') : Live wakers m' := by
  have hagrees := h.agrees
  rw [Agrees.eq_def] at hagrees
  rw [State.pollNext.eq_def] at hnext
  cases hpoll : m.poll with
  | compare waker =>
    rw [hpoll] at hagrees hnext
    obtain ⟨stored, hstored, hm'⟩ := Option.map_eq_some_iff.1 hnext
    have hwoken (hc : m.close = .done) : ∀ other, m.waker = some other → other ∈ m.woken :=
      h.woken hc (by rw [hpoll]; rfl)
    split at hm'
    · next hsame =>
      subst hm'
      exact ⟨h.isSet, h.isSendClosed, h.isRecvClosed, ⟨hagrees.1, stored, hstored, wakers.task_eq hsame⟩,
        h.waking, fun hc _ => hwoken hc⟩
    · subst hm'
      exact ⟨h.isSet, h.isSendClosed, h.isRecvClosed, hagrees, h.waking, fun hc _ => hwoken hc⟩
  | clear waker =>
    rw [hpoll] at hagrees hnext
    obtain rfl := Option.some.inj hnext
    by_cases hclosed : m.atom.clearClosedTask.isRecvClosed = true
    · refine ⟨h.isSet, h.isSendClosed, h.isRecvClosed, ?_, h.waking, fun _ hoffers => ?_⟩
      · rw [Agrees.eq_def]
        dsimp only
        rw [if_pos hclosed]
        exact ⟨rfl, hagrees.2⟩
      · dsimp only at hoffers
        rw [if_pos hclosed] at hoffers
        cases hoffers
    · have hclose : m.close = .idle := h.close_of_open hclosed
      refine ⟨h.isSet, h.isSendClosed, h.isRecvClosed, ?_, h.waking, fun hc _ => ?_⟩
      · rw [Agrees.eq_def]
        dsimp only
        rw [if_neg hclosed]
        refine ⟨rfl, hagrees.2, fun hc => ?_⟩
        rw [hclose] at hc
        cases hc
      · dsimp only at hc
        rw [hclose] at hc
        cases hc
  | reset =>
    rw [hpoll] at hagrees hnext
    obtain rfl := Option.some.inj hnext
    exact ⟨h.isSet, h.isSendClosed, h.isRecvClosed, hagrees.2.symm, h.waking, fun _ hoffers => nomatch hoffers⟩
  | replace waker =>
    rw [hpoll] at hagrees hnext
    obtain ⟨stored, hstored, rfl⟩ := Option.map_eq_some_iff.1 hnext
    exact ⟨h.isSet, h.isSendClosed, h.isRecvClosed, ⟨hagrees.1, rfl, hagrees.2.2⟩,
      fun hc => absurd hc hagrees.2.2, fun _ hoffers => nomatch hoffers⟩
  | write waker =>
    rw [hpoll] at hagrees hnext
    obtain rfl := Option.some.inj hnext
    exact ⟨h.isSet, h.isSendClosed, h.isRecvClosed, ⟨hagrees.1, ⟨_, rfl, rfl⟩, hagrees.2.2⟩,
      fun hc => absurd hc hagrees.2.2, fun _ hoffers => nomatch hoffers⟩
  | publish waker =>
    rw [hpoll] at hagrees hnext
    obtain rfl := Option.some.inj hnext
    obtain ⟨hflag, ⟨stored, hstored, htask⟩, hclose⟩ := hagrees
    by_cases hclosed : m.atom.setClosedTask.isRecvClosed = true
    · refine ⟨h.isSet, h.isSendClosed, h.isRecvClosed, ?_, h.waking, fun _ hoffers => ?_⟩
      · rw [Agrees.eq_def]
        dsimp only
        rw [if_pos hclosed, hstored]
        rfl
      · dsimp only at hoffers
        rw [if_pos hclosed] at hoffers
        cases hoffers
    · refine ⟨h.isSet, h.isSendClosed, h.isRecvClosed, ?_, h.waking, fun hc _ => ?_⟩
      · rw [Agrees.eq_def]
        dsimp only
        rw [if_neg hclosed]
        exact ⟨rfl, stored, hstored, congrArg wakers.task htask⟩
      · have hidle : m.close = .idle := h.close_of_open hclosed
        dsimp only at hc
        rw [hidle] at hc
        cases hc
  | _ =>
    rw [hpoll] at hnext
    cases hnext

/-- Where the poll has the slot for itself, the flag is not set. -/
lemma Agrees.of_close (h : Agrees wakers m) (hpoll : m'.poll = m.poll) (hwaker : m'.waker = m.waker)
    (hflag : m'.atom.isClosedTaskSet = m.atom.isClosedTaskSet)
    (hclose : m.atom.isClosedTaskSet = false → m'.close ≠ .waking) : Agrees wakers m' := by
  rw [Agrees.eq_def] at h ⊢
  rw [hpoll, hwaker, hflag]
  cases hphase : m.poll with
  | replace waker | write waker | publish waker =>
    rw [hphase] at h
    exact ⟨h.1, h.2.1, hclose h.1⟩
  | _ =>
    rw [hphase] at h
    exact h

lemma Agrees.flag_of_offers (h : Agrees wakers m) (hoffers : m.poll.offers = true) :
    m.atom.isClosedTaskSet = true := by
  rw [Agrees.eq_def] at h
  cases hphase : m.poll with
  | pending waker | compare waker | clear waker =>
    rw [hphase] at h
    exact h.1
  | _ =>
    rw [hphase] at hoffers
    cases hoffers

/-- The channel is closed: the closing side has the slot if the flag is set. -/
lemma Live.beginClose (h : Live wakers m) : Live wakers m.beginClose := by
  have hnone : m.atom.setRecvClosed.isSendClosed = false ∧ m.atom.setRecvClosed.isSet = false :=
    ⟨h.isSendClosed, h.isSet⟩
  have hclose : m.beginClose.close = if m.atom.isClosedTaskSet then .waking else .done := by
    unfold State.beginClose
    simp only [hnone.1, hnone.2, Bool.or_self, Bool.not_false, Bool.and_true]
    rfl
  refine ⟨h.isSet, h.isSendClosed, iff_of_false nofun ?_, h.agrees.of_close rfl rfl rfl ?_, ?_, ?_⟩
  · rw [hclose]
    split <;> nofun
  · intro hflag hwaking
    rw [hclose, hflag] at hwaking
    cases hwaking
  · intro hwaking
    rw [hclose] at hwaking
    split at hwaking
    · next hflag => exact h.isSome_of_flag hflag
    · cases hwaking
  · -- a poll that offers a waker has set the flag
    intro hdone hoffers
    have hflag : m.atom.isClosedTaskSet = true := h.agrees.flag_of_offers hoffers
    rw [hclose, if_pos hflag] at hdone
    cases hdone

/-- The closing side wakes the task, and has the slot no longer. -/
lemma Live.wake (h : Live wakers m) (hwaking : m.close = .waking) (hnext : m.wake = some m') :
    Live wakers m' := by
  obtain ⟨stored, hstored, rfl⟩ := Option.map_eq_some_iff.1 hnext
  have hclosed : m.atom.isRecvClosed ≠ false := by
    rw [Ne, h.isRecvClosed, hwaking]
    nofun
  refine ⟨h.isSet, h.isSendClosed, iff_of_false hclosed nofun, h.agrees.of_close rfl rfl rfl fun _ => nofun,
    nofun, fun _ _ other hother => ?_⟩
  obtain rfl := Option.mem_unique hstored hother
  exact List.mem_cons_self

/-! ## Who drops the wakers -/

/-- Only the slot and what was dropped matter. -/
lemma Owned.of_eq (h : Owned m) (hwaker : m'.waker = m.waker) (hstored : m'.stored = m.stored)
    (hdropped : m'.dropped = m.dropped) : Owned m' := by
  constructor
  · rw [hdropped]
    exact h.nodup
  · rw [hdropped, hstored, hwaker]
    exact h.lt_iff
  · rw [hdropped, hstored, hwaker]
    exact h.slot

/-- The waker in the slot is dropped. -/
lemma Owned.drop (h : Owned m) {stored : Stored W} (hstored : m.waker = some stored)
    (hwaker : m'.waker = none) (hcount : m'.stored = m.stored)
    (hdropped : m'.dropped = stored.id :: m.dropped) : Owned m' := by
  refine ⟨?_, fun id => ?_, fun other hother => ?_⟩
  · rw [hdropped]
    exact List.nodup_cons.2 ⟨(h.slot stored hstored).1, h.nodup⟩
  · rw [hcount, hdropped, hwaker, h.lt_iff, hstored, List.mem_cons]
    constructor
    · rintro (hmem | ⟨other, hother, rfl⟩)
      · exact .inl (.inr hmem)
      · cases hother
        exact .inl (.inl rfl)
    · rintro ((rfl | hmem) | ⟨other, hother, -⟩)
      · exact .inr ⟨stored, rfl, rfl⟩
      · exact .inl hmem
      · cases hother
  · rw [hwaker] at hother
    cases hother

/-- Another waker is put into an empty slot. -/
lemma Owned.store (h : Owned m) (hnone : m.waker = none) {waker : W}
    (hwaker : m'.waker = some ⟨m.stored, waker⟩) (hcount : m'.stored = m.stored + 1)
    (hdropped : m'.dropped = m.dropped) : Owned m' := by
  have hlt (id : ℕ) : id ∈ m.dropped ↔ id < m.stored := by
    rw [h.lt_iff, hnone]
    simp
  refine ⟨?_, fun id => ?_, fun other hother => ?_⟩
  · rw [hdropped]
    exact h.nodup
  · rw [hcount, hdropped, hwaker, hlt, Nat.lt_succ_iff_lt_or_eq]
    simp [eq_comm]
  · rw [hwaker] at hother
    cases hother
    refine ⟨?_, hcount.symm⟩
    rw [hdropped, hlt]
    exact lt_irrefl _

lemma Owned.pollNext (h : Owned m) (hlive : Live wakers m) (hnext : m.pollNext wakers = some m') :
    Owned m' := by
  have hagrees := hlive.agrees
  rw [Agrees.eq_def] at hagrees
  rw [State.pollNext.eq_def] at hnext
  cases hpoll : m.poll with
  | compare waker =>
    rw [hpoll] at hnext
    obtain ⟨stored, -, hm'⟩ := Option.map_eq_some_iff.1 hnext
    split at hm'
    · subst hm'
      exact h.of_eq rfl rfl rfl
    · subst hm'
      exact h.of_eq rfl rfl rfl
  | replace waker =>
    rw [hpoll] at hnext
    obtain ⟨stored, hstored, rfl⟩ := Option.map_eq_some_iff.1 hnext
    exact h.drop hstored rfl rfl rfl
  | write waker =>
    rw [hpoll] at hagrees hnext
    obtain rfl := Option.some.inj hnext
    exact h.store hagrees.2.1 rfl rfl rfl
  | clear waker | reset | publish waker =>
    rw [hpoll] at hnext
    obtain rfl := Option.some.inj hnext
    exact h.of_eq rfl rfl rfl
  | _ =>
    rw [hpoll] at hnext
    cases hnext

/-! ## The hand-over -/

/-- When the channel was closed, the waker that was stored last has been woken, and it is one of the
task of the last pending poll. -/
def WokenLast (wakers : Wakers W T) (m : State W) : Prop :=
  m.close = .done → ∀ waker, m.poll = .pending waker →
    ∃ stored ∈ m.woken, stored.id + 1 = m.stored ∧ wakers.task stored.waker = wakers.task waker

/-- What holds of the accesses that may come next, and of what became of the wakers. -/
structure HandsOver (wakers : Wakers W T) (m : State W) : Prop where
  woken : WokenLast wakers m
  /-- A poll after the close returns at once. -/
  ready : m.freed = false → m.close ≠ .idle → ∀ waker, (m.load waker).poll = .ready
  /-- What a poll, a close or the final drop reads from the slot is there. -/
  pollInitialized : m.poll.isDone = false → m.pollNext wakers ≠ none
  wakeInitialized : m.close = .waking → m.wake ≠ none
  freeInitialized : m.freed = false → m.poll.isDone = true → m.close ≠ .waking → m.free ≠ none
  /-- The closing side and the poll do not have the slot both. -/
  exclusive : m.close = .waking → m.poll.writes = false
  droppedOnce : m.dropped.Nodup ∧ ∀ id ∈ m.dropped, id < m.stored
  droppedAll : m.freed = true → ∀ id < m.stored, id ∈ m.dropped

/-- The state after its final drop. -/
structure Freed (wakers : Wakers W T) (m : State W) : Prop where
  waker : m.waker = none
  isDone : m.poll.isDone = true
  close : m.close ≠ .waking
  woken : WokenLast wakers m

lemma Live.wokenLast (h : Live wakers m) (howned : Owned m) : WokenLast wakers m := by
  intro hclose waker hpending
  have hagrees := h.agrees
  rw [Agrees.eq_def, hpending] at hagrees
  obtain ⟨-, stored, hstored, htask⟩ := hagrees
  exact ⟨stored, h.woken hclose (by rw [hpending]; rfl) stored hstored, (howned.slot stored hstored).2, htask⟩

/-- The final drop leaves nothing in the slot. -/
lemma Live.free (h : Live wakers m) (howned : Owned m) (hdone : m.poll.isDone = true)
    (hclose : m.close ≠ .waking) (hnext : m.free = some m') :
    Owned m' ∧ Freed wakers m' ∧ m'.freed = true := by
  have hslot := h.isSome_of_isDone hdone
  have hlast := h.wokenLast howned
  unfold State.free at hnext
  split at hnext
  · obtain ⟨stored, hstored, rfl⟩ := Option.map_eq_some_iff.1 hnext
    exact ⟨howned.drop hstored rfl rfl rfl, ⟨rfl, hdone, hclose, hlast⟩, rfl⟩
  · next hflag =>
    obtain rfl := Option.some.inj hnext
    rw [hslot, Option.not_isSome_iff_eq_none] at hflag
    exact ⟨howned.of_eq rfl rfl rfl, ⟨hflag, hdone, hclose, hlast⟩, rfl⟩

/-- A poll goes on only while it is under way. -/
lemma isDone_of_pollNext (h : m.pollNext wakers = some m') : m.poll.isDone = false := by
  rw [State.pollNext.eq_def] at h
  cases hpoll : m.poll with
  | idle | ready | pending waker =>
    rw [hpoll] at h
    cases h
  | _ => rfl

/-- A poll that is under way does not drop the state. -/
lemma freed_pollNext (h : m.pollNext wakers = some m') : m'.freed = m.freed := by
  rw [State.pollNext.eq_def] at h
  cases hpoll : m.poll with
  | compare waker =>
    rw [hpoll] at h
    obtain ⟨stored, -, rfl⟩ := Option.map_eq_some_iff.1 h
    split <;> rfl
  | replace waker =>
    rw [hpoll] at h
    obtain ⟨stored, -, rfl⟩ := Option.map_eq_some_iff.1 h
    rfl
  | _ =>
    rw [hpoll] at h
    cases h <;> rfl

/-- The invariant of all runs. -/
structure Inv (wakers : Wakers W T) (m : State W) : Prop where
  owned : Owned m
  live : m.freed = false → Live wakers m
  freed : m.freed = true → Freed wakers m

lemma Inv.of_live (howned : Owned m) (hlive : Live wakers m) (hfreed : m.freed = false) : Inv wakers m :=
  ⟨howned, fun _ => hlive, fun h => by rw [hfreed] at h; cases h⟩

/-- What one access preserves. -/
lemma Inv.step (h : Inv wakers m) (hstep : Step wakers m m') : Inv wakers m' := by
  -- after the final drop there is no access any more
  have hlive (hne : m.freed ≠ true) : m.freed = false ∧ Live wakers m := by
    have hfreed := Bool.eq_false_of_not_eq_true hne
    exact ⟨hfreed, h.live hfreed⟩
  cases hstep with
  | poll hdone hfreed waker =>
    have hnext := (h.live hfreed).load hdone waker
    obtain ⟨poll, hload⟩ := load_eq m waker
    rw [hload] at hnext ⊢
    exact .of_live (h.owned.of_eq rfl rfl rfl) hnext hfreed
  | pollNext hnext =>
    obtain ⟨hfreed, hlive⟩ := hlive fun hfreed => by
      have hdone := (h.freed hfreed).isDone
      rw [isDone_of_pollNext hnext] at hdone
      cases hdone
    exact .of_live (h.owned.pollNext hlive hnext) (hlive.pollNext hnext) (freed_pollNext hnext ▸ hfreed)
  | close hidle hfreed =>
    exact .of_live (h.owned.of_eq rfl rfl rfl) (h.live hfreed).beginClose hfreed
  | wake hwaking hnext =>
    obtain ⟨hfreed, hlive⟩ := hlive fun hfreed => (h.freed hfreed).close hwaking
    have hnext' := hlive.wake hwaking hnext
    obtain ⟨stored, -, rfl⟩ := Option.map_eq_some_iff.1 hnext
    exact .of_live (h.owned.of_eq rfl rfl rfl) hnext' hfreed
  | free hdone hclose hfreed hnext =>
    obtain ⟨howned, hfinal, hfreed'⟩ := (h.live hfreed).free h.owned hdone hclose hnext
    refine ⟨howned, fun hnot => ?_, fun _ => hfinal⟩
    rw [hfreed'] at hnot
    cases hnot

lemma Reached.inv (h : Reached wakers m) : Inv wakers m := by
  induction h with
  | new => exact .of_live owned_new live_new rfl
  | step _ hstep ih => exact ih.step hstep

/-- What the poll reads from the slot is there. -/
lemma Live.pollNext_ne_none (h : Live wakers m) (hdone : m.poll.isDone = false) :
    m.pollNext wakers ≠ none := by
  have hagrees := h.agrees
  rw [Agrees.eq_def] at hagrees
  rw [State.pollNext.eq_def]
  cases hpoll : m.poll with
  | compare waker =>
    rw [hpoll] at hagrees
    exact fun hnone => absurd (Option.map_eq_none_iff.1 hnone) (Option.isSome_iff_ne_none.1 hagrees.2)
  | replace waker =>
    rw [hpoll] at hagrees
    exact fun hnone => absurd (Option.map_eq_none_iff.1 hnone) (Option.isSome_iff_ne_none.1 hagrees.2.1)
  | clear waker | reset | write waker | publish waker => nofun
  | _ =>
    rw [hpoll] at hdone
    cases hdone

lemma Live.exclusive (h : Live wakers m) (hwaking : m.close = .waking) : m.poll.writes = false := by
  have hagrees := h.agrees
  rw [Agrees.eq_def] at hagrees
  cases hpoll : m.poll with
  | replace waker | write waker =>
    rw [hpoll] at hagrees
    exact absurd hwaking hagrees.2.2
  | _ => rfl

/-- **The waker is handed over**: in any order of accesses, closing the channel wakes the task that
polled last, or its poll has returned; what is read from the slot is there and nobody else writes
to it; and every waker that was stored is dropped once. -/
theorem Reached.handsOver (h : Reached wakers m) : HandsOver wakers m := by
  have hinv := h.inv
  have hne (hwaking : m.close = .waking) : m.freed = false := by
    by_contra hfreed
    exact (hinv.freed (Bool.eq_true_of_not_eq_false hfreed)).close hwaking
  refine ⟨?_, fun hfreed hclose waker => ?_, fun hdone => ?_, fun hwaking => ?_, fun hfreed hdone hclose => ?_,
    fun hwaking => (hinv.live (hne hwaking)).exclusive hwaking,
    ⟨hinv.owned.nodup, fun id hid => (hinv.owned.lt_iff id).2 (.inl hid)⟩, fun hfreed id hid => ?_⟩
  · by_cases hfreed : m.freed = true
    · exact (hinv.freed hfreed).woken
    · exact (hinv.live (Bool.eq_false_of_not_eq_true hfreed)).wokenLast hinv.owned
  · have hclosed : m.atom.isRecvClosed = true := by
      by_contra hopen
      exact hclose ((hinv.live hfreed).close_of_open hopen)
    rw [State.load, if_pos hclosed]
  · have hfreed : m.freed = false := by
      by_contra hfreed
      have hdone' := (hinv.freed (Bool.eq_true_of_not_eq_false hfreed)).isDone
      rw [hdone] at hdone'
      cases hdone'
    exact (hinv.live hfreed).pollNext_ne_none hdone
  · have hsome := (hinv.live (hne hwaking)).waking hwaking
    exact fun hnone => absurd (Option.map_eq_none_iff.1 hnone) (Option.isSome_iff_ne_none.1 hsome)
  · have hslot := (hinv.live hfreed).isSome_of_isDone hdone
    unfold State.free
    split
    · next hflag =>
      rw [hflag] at hslot
      exact fun hnone => absurd (Option.map_eq_none_iff.1 hnone) (Option.isSome_iff_ne_none.1 hslot.symm)
    · nofun
  · obtain hmem | ⟨stored, hstored, -⟩ := (hinv.owned.lt_iff id).1 hid
    · exact hmem
    · rw [(hinv.freed hfreed).waker] at hstored
      cases hstored

/-- The state after polls by the tasks 1 and 2, the close, and the final drop. -/
def twoPolls : State ℕ where
  atom := ⟨false, false, true, true, false⟩
  waker := none
  poll := .pending 2
  close := .done
  stored := 2
  dropped := [1, 0]
  woken := [⟨1, 2⟩]
  freed := true

lemma reached_twoPolls : Reached taskWakers twoPolls := by
  have hfirst : Reached taskWakers _ :=
    .step (.step (.step .new (.poll rfl rfl 1)) (.pollNext rfl)) (.pollNext rfl)
  -- the second poll replaces the waker of the first
  have hsecond : Reached taskWakers _ :=
    .step (.step (.step (.step (.step (.step hfirst (.poll rfl rfl 2)) (.pollNext rfl)) (.pollNext rfl))
      (.pollNext rfl)) (.pollNext rfl)) (.pollNext rfl)
  have hclosed : Reached taskWakers _ := .step (.step hsecond (.close rfl rfl)) (.wake rfl rfl)
  exact .step hclosed (.free rfl nofun rfl rfl)

theorem Reached.handsOver_twoPolls : HandsOver taskWakers twoPolls :=
  Reached.handsOver reached_twoPolls

end Recapn.Channel.HandOver

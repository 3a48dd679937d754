/-
# Polls by different tasks

A waiter keeps the waker of the task that waits.  A later poll may come from another task, and the
stored waker has to become that of the last one.  Both waiters decide with `will_wake` whether to
replace it, and they replace it when the stored waker would wake the polling task already.  So the
waker of the first poll's task stays, and the last poller is woken just when all polls are by that
task.
-/
import Recapn.Channel.State

namespace Recapn.Channel.Repolling

/-- The wakers of some tasks, as `std` documents them: `will_wake` may be false for two wakers of the
same task, but it is true for no others. -/
structure Wakers (W T : Type) where
  task : W → T
  willWake : W → W → Bool
  task_eq : ∀ {v w}, willWake v w = true → task v = task w

/-- `Waiter`. -/
structure Waiter (W : Type) where
  waker : Option W
  notified : Bool

section Polls

variable {W T R : Type} (wakers : Wakers W T)

/-- `should_update`, as both waiters compute it. -/
def shouldUpdate (current : Option W) (pollingWaker : W) : Bool :=
  match current with
  | none => true
  | some waker => wakers.willWake waker pollingWaker

/-- The waiter after a poll in which the channel had not closed. -/
def Waiter.update (self : Waiter W) (pollingWaker : W) : Waiter W :=
  if shouldUpdate wakers self.waker pollingWaker then { self with waker := some pollingWaker } else self

/-- `RecvWaiter::poll`: what it returns, and the waiter then. -/
def RecvWaiter.poll (waiter : Option (Waiter W)) (waker : W) (atom : StateFlags) :
    ShotState × Option (Waiter W) :=
  match waiter with
  | none =>
    match atom.state with
    | .sent => (.sent, none)
    | _ => (.empty, some ⟨some waker, false⟩)
  | some waiter =>
    if waiter.notified then (atom.state, none)
    else
      match atom.state with
      | .empty => (.empty, some (waiter.update wakers waker))
      | state => (state, none)

/-- `ClosedWaiter::poll`. -/
def ClosedWaiter.poll (waiter : Option (Waiter W)) (waker : W) (atom : StateFlags) :
    Bool × Option (Waiter W) :=
  match waiter with
  | none => if atom.isRecvClosed then (true, none) else (false, some ⟨some waker, false⟩)
  | some waiter =>
    if waiter.notified then (atom.isRecvClosed, none)
    else if atom.isRecvClosed then (true, none)
    else (false, some (waiter.update wakers waker))

/-- A poll, with the state that it reads. -/
structure Poll (W : Type) where
  waker : W
  atom : StateFlags

/-- **Every poll is pending, and leaves a waker for the task that polled.** -/
def WakesLast (poll : Option (Waiter W) → W → StateFlags → R × Option (Waiter W)) (pending : R)
    (waiter : Option (Waiter W)) : List (Poll W) → Prop
  | [] => True
  | p :: polls => ∃ next waker, poll waiter p.waker p.atom = (pending, some next) ∧
      next.waker = some waker ∧ wakers.task waker = wakers.task p.waker ∧
      WakesLast poll pending (some next) polls

/-- All polls are by one task. -/
def OneTask (polls : List (Poll W)) : Prop :=
  ∀ p ∈ polls, ∀ q ∈ polls, wakers.task p.waker = wakers.task q.waker

end Polls

section Polls

variable {W T R : Type} {wakers : Wakers W T}
  {poll : Option (Waiter W) → W → StateFlags → R × Option (Waiter W)} {pending : R}
  {isPending : StateFlags → Prop}

/-- A waiter that is polled again keeps a waker of the same task. -/
lemma Waiter.update_task {waiter : Waiter W} {stored waker : W} (hstored : waiter.waker = some stored)
    (hnotified : waiter.notified = false) : ∃ stored', (waiter.update wakers waker).waker = some stored' ∧
      (waiter.update wakers waker).notified = false ∧ wakers.task stored' = wakers.task stored := by
  rw [update]
  split
  · next hupdate =>
    rw [hstored] at hupdate
    exact ⟨waker, rfl, hnotified, (wakers.task_eq hupdate).symm⟩
  · exact ⟨stored, hstored, hnotified, rfl⟩

/-- After the first poll the waker stays with its task. -/
lemma wakesLast_some {waiter : Waiter W} {stored : W} (hstored : waiter.waker = some stored)
    (hnotified : waiter.notified = false)
    (hagain : ∀ waiter waker atom, isPending atom → waiter.notified = false →
      poll (some waiter) waker atom = (pending, some (waiter.update wakers waker)))
    {polls : List (Poll W)} (hpending : ∀ p ∈ polls, isPending p.atom) :
    WakesLast wakers poll pending (some waiter) polls ↔
      ∀ p ∈ polls, wakers.task p.waker = wakers.task stored := by
  induction polls generalizing waiter stored with
  | nil => exact iff_of_true trivial fun p hp => nomatch hp
  | cons p polls ih =>
    rw [List.forall_mem_cons] at hpending
    obtain ⟨stored', hstored', hnotified', htask⟩ := @waiter.update_task _ _ wakers _ p.waker hstored hnotified
    have hpoll := hagain waiter p.waker p.atom hpending.1 hnotified
    have hrest := ih hstored' hnotified' hpending.2
    rw [htask] at hrest
    rw [List.forall_mem_cons, ← hrest]
    constructor
    · rintro ⟨next, waker, hrun, hwaker, hlast, hnext⟩
      obtain rfl := Option.some.inj (congrArg Prod.snd (hpoll.symm.trans hrun))
      obtain rfl := Option.mem_unique hstored' hwaker
      exact ⟨hlast.symm.trans htask, hnext⟩
    · rintro ⟨hsame, hnext⟩
      exact ⟨_, stored', hpoll, hstored', htask.trans hsame.symm, hnext⟩

/-- The last poller is woken just when there is only one. -/
lemma wakesLast_none
    (hfirst : ∀ waker atom, isPending atom → poll none waker atom = (pending, some ⟨some waker, false⟩))
    (hagain : ∀ waiter waker atom, isPending atom → waiter.notified = false →
      poll (some waiter) waker atom = (pending, some (waiter.update wakers waker)))
    {polls : List (Poll W)} (hpending : ∀ p ∈ polls, isPending p.atom) :
    WakesLast wakers poll pending none polls ↔ OneTask wakers polls := by
  cases polls with
  | nil => exact iff_of_true trivial fun p hp => nomatch hp
  | cons p polls =>
    rw [List.forall_mem_cons] at hpending
    have hpoll := hfirst p.waker p.atom hpending.1
    have hrest := @wakesLast_some _ _ _ wakers poll pending isPending ⟨some p.waker, false⟩ p.waker rfl rfl
      hagain polls hpending.2
    constructor
    · rintro ⟨next, waker, hrun, -, -, hnext⟩
      obtain rfl := Option.some.inj (congrArg Prod.snd (hpoll.symm.trans hrun))
      have hall : ∀ q ∈ p :: polls, wakers.task q.waker = wakers.task p.waker :=
        List.forall_mem_cons.2 ⟨rfl, hrest.1 hnext⟩
      exact fun q hq r hr => (hall q hq).trans (hall r hr).symm
    · intro hone
      refine ⟨_, p.waker, hpoll, rfl, rfl, hrest.2 fun q hq => ?_⟩
      exact hone q (List.mem_cons_of_mem p hq) p List.mem_cons_self

/-- **The task that polled last is the one that is woken**, of either waiter, just when all polls are
by one task. -/
theorem wakesLast_iff (wakers : Wakers W T) (polls : List (Poll W)) :
    ((∀ p ∈ polls, p.atom.state = .empty) →
      (WakesLast wakers (RecvWaiter.poll wakers) .empty none polls ↔ OneTask wakers polls)) ∧
    ((∀ p ∈ polls, p.atom.isRecvClosed = false) →
      (WakesLast wakers (ClosedWaiter.poll wakers) false none polls ↔ OneTask wakers polls)) := by
  constructor
  · refine @wakesLast_none _ _ _ wakers (RecvWaiter.poll wakers) .empty (fun atom => atom.state = .empty) ?_ ?_
      polls
    · intro waker atom hempty
      rw [RecvWaiter.poll, hempty]
    · intro waiter waker atom hempty hnotified
      rw [RecvWaiter.poll, hnotified, hempty]
      rfl
  · refine @wakesLast_none _ _ _ wakers (ClosedWaiter.poll wakers) false (fun atom => atom.isRecvClosed = false) ?_
      ?_ polls
    · intro waker atom hopen
      rw [ClosedWaiter.poll, hopen]
      rfl
    · intro waiter waker atom hopen hnotified
      rw [ClosedWaiter.poll, hnotified, hopen]
      rfl

end Polls

/-- Wakers that are known by the task that they wake. -/
def taskWakers : Wakers ℕ ℕ where
  task := id
  willWake v w := v == w
  task_eq h := eq_of_beq h

/-- Two polls of one task. -/
theorem wakesLast_iff_oneTask :
    (WakesLast taskWakers (RecvWaiter.poll taskWakers) .empty none [⟨1, .new⟩, ⟨1, .new⟩] ↔
        OneTask taskWakers [⟨1, .new⟩, ⟨1, .new⟩]) ∧
      (WakesLast taskWakers (ClosedWaiter.poll taskWakers) false none [⟨1, .new⟩, ⟨1, .new⟩] ↔
        OneTask taskWakers [⟨1, .new⟩, ⟨1, .new⟩]) := by
  have hiff := wakesLast_iff taskWakers [⟨1, .new⟩, ⟨1, .new⟩]
  exact ⟨hiff.1 (by decide), hiff.2 (by decide)⟩

/-- After a poll of task 1 and one of task 2 the waker of task 1 is stored. -/
theorem not_wakesLast :
    (∃ waiter, (RecvWaiter.poll taskWakers none 1 .new).2 = some waiter ∧
      RecvWaiter.poll taskWakers (some waiter) 2 .new = (.empty, some ⟨some 1, false⟩)) ∧
      ¬ WakesLast taskWakers (RecvWaiter.poll taskWakers) .empty none [⟨1, .new⟩, ⟨2, .new⟩] ∧
      ¬ WakesLast taskWakers (ClosedWaiter.poll taskWakers) false none [⟨1, .new⟩, ⟨2, .new⟩] := by
  refine ⟨⟨_, rfl, rfl⟩, ?_, ?_⟩
  · rintro ⟨_, _, ⟨⟩, -, -, _, _, ⟨⟩, ⟨⟩, htask, -⟩
    exact absurd htask (by decide)
  · rintro ⟨_, _, ⟨⟩, -, -, _, _, ⟨⟩, ⟨⟩, htask, -⟩
    exact absurd htask (by decide)

end Recapn.Channel.Repolling

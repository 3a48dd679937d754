/-
# Threads

The calls of threads interleave.  Where a call checks what a channel has come to, and where it takes
the lock of a channel, others may come before it: what it does from there up to the next such place
is one step.  So a sender finds the channel where its forwards end, takes the lock of that channel,
and looks again where the forwards end now.
-/
import Recapn.Channel.Atomic

namespace Recapn.Channel

open Recapn.Lib

variable {C : Chan}

abbrev ThreadId := ℕ

/-- Where a thread is in the call that it runs. -/
inductive Thread (C : Chan) where
  | idle
  /-- `resolve_and_lock`, in its first `most_resolved`. -/
  | resolving (item : LinkItem C) (this : ChannelId)
  /-- `resolve_and_lock`, where it locks the channel. -/
  | locking (item : LinkItem C) (this : ChannelId)
  /-- `resolve_and_lock`, with the lock of `channel`, in its second `most_resolved`. -/
  | locked (item : LinkItem C) (channel this : ChannelId)
  /-- `forward_to`, in its first `most_resolved`. -/
  | targeting (self other this : ChannelId)
  /-- `forward_to`, where it takes `lock_a`. -/
  | lockingA (self otherShared other : ChannelId)
  /-- `forward_to`, where it takes `lock_b`. -/
  | lockingB (self otherShared other : ChannelId)
  /-- `forward_to`, with both locks, in its second `most_resolved`. -/
  | lockedBoth (self otherShared this : ChannelId)
  /-- `Receiver::drop`. -/
  | dropping (self : ChannelId)
  /-- `close`, where it takes the lock. -/
  | closing (self : ChannelId) (err : C.Error)
  /-- `close`, with the lock, in its loop. -/
  | draining (self : ChannelId) (err : C.Error)
  /-- `close`, without the lock, with the items that it has taken and not answered, and whether the
  queue was empty then. -/
  | answering (self : ChannelId) (err : C.Error) (items : List (LinkItem C)) (last : Bool)
  /-- `close`, where it takes the lock again. -/
  | relocking (self : ChannelId) (err : C.Error)

/-- The end of a `forward_to` to a channel that has ended. -/
def Thread.ended (self : ChannelId) : MostResolved C → Thread C
  | .dropped => .dropping self
  | .error err => .closing self err

/-- The receiver that is in use in the call. -/
def Thread.receiver : Thread C → Option ChannelId
  | targeting self _ _ => some self
  | lockingA self _ _ => some self
  | lockingB self _ _ => some self
  | lockedBoth self _ _ => some self
  | dropping self => some self
  | closing self _ => some self
  | _ => none

/-- The world, who has the locks of the channels, and where the threads are. -/
structure Machine (C : Chan) where
  world : World C
  lock : ChannelId → Option ThreadId
  thread : ThreadId → Thread C

/-- The locks that a call takes. -/
def Call.Locks (w : World C) (c : ChannelId) : Call C → Prop
  | pollRecv c' _ => c = c'
  | tryRecv c' => c = c'
  | responderRespond r _ => c ∈ w.books.pipelines r
  | setPipeline r _ => c ∈ w.books.pipelines r
  | _ => False

/-- The locks that it takes to answer an item. -/
def LinkItem.Locks (w : World C) (c : ChannelId) : LinkItem C → Prop
  | request r => c ∈ w.books.pipelines r
  | event _ => False

/-- An item is moved into a call. -/
def LinkItem.hold (item : LinkItem C) : ChanM C Unit :=
  match item with
  | .request r => setOwner r .none
  | .event _ => pure ()

/-- Items are moved into a call. -/
def holdAll : List (LinkItem C) → ChanM C Unit
  | [] => pure ()
  | item :: items => do
    item.hold
    holdAll items

/-- What `Receiver::close` does with the lock, for one batch: the items are in its array then. -/
def takeBatch (self : ChannelId) : ChanM C (List (LinkItem C)) := do
  let items ← closeBatch self batchSize
  holdAll items
  pure items

/-- What `Sender::send` and `Sender::send_event` do with the lock of `channel`. -/
def linkItem (this channel : ChannelId) : LinkItem C → ChanM C Unit
  | .request req => sendLocked this channel req
  | .event event => sendEventLocked channel event

/-- The channel at the lower address is locked first. -/
def lockA (address : ChannelId → ℕ) (self otherShared : ChannelId) : ChannelId :=
  if address self < address otherShared then self else otherShared

/-- The channel at the higher address is locked second. -/
def lockB (address : ChannelId → ℕ) (self otherShared : ChannelId) : ChannelId :=
  if address self < address otherShared then otherShared else self

lemma lockA_lockB (address : ChannelId → ℕ) (self otherShared : ChannelId) :
    lockA address self otherShared = self ∧ lockB address self otherShared = otherShared ∨
      lockA address self otherShared = otherShared ∧ lockB address self otherShared = self := by
  unfold lockA lockB
  by_cases h : address self < address otherShared
  · rw [if_pos h, if_pos h]
    exact Or.inl ⟨rfl, rfl⟩
  · rw [if_neg h, if_neg h]
    exact Or.inr ⟨rfl, rfl⟩

namespace Machine

/-- Nothing is there, and all threads are idle. -/
def start : Machine C := ⟨World.empty, fun _ => none, fun _ => .idle⟩

/-- The world has changed. -/
def withWorld (m : Machine C) (w : World C) : Machine C := { m with world := w }

/-- A thread goes on. -/
def goto (m : Machine C) (t : ThreadId) (thread : Thread C) : Machine C :=
  { m with thread := Function.update m.thread t thread }

/-- A thread takes a lock. -/
def acquire (m : Machine C) (t : ThreadId) (c : ChannelId) : Machine C :=
  { m with lock := Function.update m.lock c (some t) }

/-- A lock is free again. -/
def release (m : Machine C) (c : ChannelId) : Machine C :=
  { m with lock := Function.update m.lock c none }

/-- A step of a thread. -/
inductive Step (address : ChannelId → ℕ) (t : ThreadId) : Machine C → Machine C → Prop
  | call {m : Machine C} {call : Call C} {out : Output C} {w : World C} (hidle : m.thread t = .idle)
      (hatomic : call.Atomic) (hallowed : call.Allowed m.world)
      (hlocks : ∀ c, call.Locks m.world c → m.lock c = none)
      (hexec : call.exec m.world = .ok out w) : Step address t m (m.withWorld w)
  -- `Sender::send`: the request is moved into the call
  | send {m : Machine C} {s : SenderId} {self : Sender} {req : RequestId} {w : World C}
      (hidle : m.thread t = .idle) (hs : m.world.sender s = some self)
      (howner : (m.world.request req).owner = .request)
      (hexec : setOwner req .none m.world = .ok () w) :
      Step address t m ((m.withWorld w).goto t (.resolving (.request req) self.shared))
  | sendEvent {m : Machine C} {s : SenderId} {self : Sender} {event : C.Event}
      (hidle : m.thread t = .idle) (hs : m.world.sender s = some self) :
      Step address t m (m.goto t (.resolving (.event event) self.shared))
  | found {m : Machine C} {item : LinkItem C} {this : ChannelId}
      (ht : m.thread t = .resolving item this) (hnone : m.world.tryResolved this = none) :
      Step address t m (m.goto t (.locking item this))
  | follow {m : Machine C} {item : LinkItem C} {this : ChannelId} {channel : Sender}
      (ht : m.thread t = .resolving item this)
      (hforwarded : m.world.tryResolved this = some (.forwarded channel)) :
      Step address t m (m.goto t (.resolving item channel.shared))
  -- the item is given back
  | refuse {m : Machine C} {item : LinkItem C} {this : ChannelId} {res : MostResolved C} {w : World C}
      (ht : m.thread t = .resolving item this) (hended : m.world.ended this = some res)
      (hexec : item.intoItem m.world = .ok () w) :
      Step address t m ((m.withWorld w).goto t .idle)
  | lock {m : Machine C} {item : LinkItem C} {this : ChannelId}
      (ht : m.thread t = .locking item this) (hfree : m.lock this = none) :
      Step address t m ((m.acquire t this).goto t (.locked item this this))
  | followLocked {m : Machine C} {item : LinkItem C} {channel this : ChannelId} {next : Sender}
      (ht : m.thread t = .locked item channel this)
      (hforwarded : m.world.tryResolved this = some (.forwarded next)) :
      Step address t m (m.goto t (.locked item channel next.shared))
  | refuseLocked {m : Machine C} {item : LinkItem C} {channel this : ChannelId} {res : MostResolved C}
      {w : World C} (ht : m.thread t = .locked item channel this)
      (hended : m.world.ended this = some res) (hexec : item.intoItem m.world = .ok () w) :
      Step address t m (((m.withWorld w).release channel).goto t .idle)
  -- it is the lock of `channel` that the thread has, wherever `this` is by now
  | link {m : Machine C} {item : LinkItem C} {channel this : ChannelId} {w : World C}
      (ht : m.thread t = .locked item channel this) (hnone : m.world.tryResolved this = none)
      (hexec : linkItem this channel item m.world = .ok () w) :
      Step address t m (((m.withWorld w).release channel).goto t .idle)
  -- `Receiver::forward_to`
  | forwardTo {m : Machine C} {self : ChannelId} {s : SenderId} {other : Sender} {w : World C}
      (hidle : m.thread t = .idle) (hreceiver : m.world.receiver self = true)
      (hs : m.world.sender s = some other) (hexec : holdReceiver self false m.world = .ok () w) :
      Step address t m ((m.withWorld w).goto t (.targeting self other.shared other.shared))
  | target {m : Machine C} {self other this : ChannelId} (ht : m.thread t = .targeting self other this)
      (hnone : m.world.tryResolved this = none) (hne : address self ≠ address this) :
      Step address t m (m.goto t (.lockingA self this other))
  | followTarget {m : Machine C} {self other this : ChannelId} {channel : Sender}
      (ht : m.thread t = .targeting self other this)
      (hforwarded : m.world.tryResolved this = some (.forwarded channel)) :
      Step address t m (m.goto t (.targeting self other channel.shared))
  | targetEnded {m : Machine C} {self other this : ChannelId} {res : MostResolved C}
      (ht : m.thread t = .targeting self other this) (hended : m.world.ended this = some res) :
      Step address t m (m.goto t (.ended self res))
  -- the receiver is given back
  | targetSelf {m : Machine C} {self other this : ChannelId} {w : World C}
      (ht : m.thread t = .targeting self other this) (hnone : m.world.tryResolved this = none)
      (heq : address self = address this) (hexec : holdReceiver self true m.world = .ok () w) :
      Step address t m ((m.withWorld w).goto t .idle)
  | lockA {m : Machine C} {self otherShared other : ChannelId}
      (ht : m.thread t = .lockingA self otherShared other)
      (hfree : m.lock (lockA address self otherShared) = none) :
      Step address t m
        ((m.acquire t (Channel.lockA address self otherShared)).goto t (.lockingB self otherShared other))
  | lockB {m : Machine C} {self otherShared other : ChannelId}
      (ht : m.thread t = .lockingB self otherShared other)
      (hfree : m.lock (lockB address self otherShared) = none) :
      Step address t m
        ((m.acquire t (Channel.lockB address self otherShared)).goto t
          (.lockedBoth self otherShared other))
  | followBoth {m : Machine C} {self otherShared this : ChannelId} {next : Sender}
      (ht : m.thread t = .lockedBoth self otherShared this)
      (hforwarded : m.world.tryResolved this = some (.forwarded next)) :
      Step address t m (m.goto t (.lockedBoth self otherShared next.shared))
  | bothEnded {m : Machine C} {self otherShared this : ChannelId} {res : MostResolved C}
      (ht : m.thread t = .lockedBoth self otherShared this)
      (hended : m.world.ended this = some res) :
      Step address t m (((m.release otherShared).release self).goto t (.ended self res))
  -- it is forwarded to `this`, and the queue goes to the channel whose lock the thread has
  | splice {m : Machine C} {self otherShared this : ChannelId} {w : World C}
      (ht : m.thread t = .lockedBoth self otherShared this)
      (hnone : m.world.tryResolved this = none)
      (hexec : forwardLocked self otherShared this m.world = .ok () w) :
      Step address t m ((((m.withWorld w).release otherShared).release self).goto t .idle)
  -- `Receiver::drop`
  | dropReceiver {m : Machine C} {self : ChannelId} {w : World C} (hidle : m.thread t = .idle)
      (hreceiver : m.world.receiver self = true)
      (hexec : holdReceiver self false m.world = .ok () w) :
      Step address t m ((m.withWorld w).goto t (.dropping self))
  | dropped {m : Machine C} {self : ChannelId} {w : World C} (ht : m.thread t = .dropping self)
      (hexec : dropReceiver self m.world = .ok () w) : Step address t m ((m.withWorld w).goto t .idle)
  -- `Receiver::close`
  | close {m : Machine C} {self : ChannelId} {err : C.Error} {w : World C} (hidle : m.thread t = .idle)
      (hreceiver : m.world.receiver self = true)
      (hexec : holdReceiver self false m.world = .ok () w) :
      Step address t m ((m.withWorld w).goto t (.closing self err))
  | closeLocked {m : Machine C} {self : ChannelId} {err : C.Error} {w : World C}
      (ht : m.thread t = .closing self err) (hfree : m.lock self = none)
      (hexec : closeLocked self err m.world = .ok () w) :
      Step address t m (((m.withWorld w).acquire t self).goto t (.draining self err))
  -- the array is emptied from its end on, and it is the last one when it is not full
  | drain {m : Machine C} {self : ChannelId} {err : C.Error} {items : List (LinkItem C)} {w : World C}
      (ht : m.thread t = .draining self err) (hexec : takeBatch self m.world = .ok items w) :
      Step address t m (((m.withWorld w).release self).goto t
        (.answering self err items.reverse (decide (items.length < batchSize))))
  | answer {m : Machine C} {self : ChannelId} {err : C.Error} {item : LinkItem C}
      {items : List (LinkItem C)} {last : Bool} {w : World C}
      (ht : m.thread t = .answering self err (item :: items) last)
      (hlocks : ∀ c, item.Locks m.world c → m.lock c = none)
      (hexec : item.respondWithErr err m.world = .ok () w) :
      Step address t m ((m.withWorld w).goto t (.answering self err items last))
  | answered {m : Machine C} {self : ChannelId} {err : C.Error}
      (ht : m.thread t = .answering self err [] false) :
      Step address t m (m.goto t (.relocking self err))
  | relock {m : Machine C} {self : ChannelId} {err : C.Error} (ht : m.thread t = .relocking self err)
      (hfree : m.lock self = none) :
      Step address t m ((m.acquire t self).goto t (.draining self err))
  | closed {m : Machine C} {self : ChannelId} {err : C.Error} {w : World C}
      (ht : m.thread t = .answering self err [] true)
      (hexec : dropReceiver self m.world = .ok () w) :
      Step address t m ((m.withWorld w).goto t .idle)

/-- A step of a run, and the thread that made it. -/
structure Move (C : Chan) where
  before : Machine C
  thread : ThreadId
  after : Machine C

/-- The runs of threads, in any order of their steps. -/
inductive Run (address : ChannelId → ℕ) : List (Move C) → Machine C → Prop
  | start : Run address [] start
  | step {moves : List (Move C)} {move : Move C} (h : Run address moves move.before)
      (hstep : Step address move.thread move.before move.after) :
      Run address (moves ++ [move]) move.after

lemma Run.concat {address : ChannelId → ℕ} {moves : List (Move C)} {m m' : Machine C} {t : ThreadId}
    (h : Run address moves m) (hstep : Step address t m m') :
    Run address (moves ++ [⟨m, t, m'⟩]) m' :=
  @Run.step C address moves ⟨m, t, m'⟩ h hstep

/-- A machine that is reached by steps before each of which `ok` holds of the machine and the thread
that makes the step. -/
def Reached (address : ChannelId → ℕ) (ok : Machine C → ThreadId → Prop) (m : Machine C) : Prop :=
  ∃ moves, Run address moves m ∧ ∀ move ∈ moves, ok move.before move.thread

section Reached

variable {address : ChannelId → ℕ} {ok : Machine C → ThreadId → Prop} {m m' : Machine C}
  {t : ThreadId}

lemma reached_start : Reached address ok start := ⟨[], .start, fun _ h => absurd h List.not_mem_nil⟩

lemma Reached.step (h : Reached address ok m) (hok : ok m t) (hstep : Step address t m m') :
    Reached address ok m' := by
  obtain ⟨moves, hrun, hmoves⟩ := h
  refine ⟨moves ++ [⟨m, t, m'⟩], hrun.concat hstep, fun move hmove => ?_⟩
  rcases List.mem_append.1 hmove with hmove | hmove
  · exact hmoves move hmove
  · rw [List.mem_singleton.1 hmove]
    exact hok

/-- What holds at the start, and after every step when it held before, holds of all that is
reached. -/
theorem Reached.invariant {p : Machine C → Prop} (hstart : p start)
    (hpreserved : ∀ {m m' t}, Reached address ok m → p m → ok m t → Step address t m m' → p m')
    (h : Reached address ok m) : p m := by
  obtain ⟨moves, hrun, hmoves⟩ := h
  induction hrun with
  | start => exact hstart
  | @step moves move hrun hstep ih =>
    have hbefore : ∀ move' ∈ moves, ok move'.before move'.thread := fun move' hmove' =>
      hmoves move' (List.mem_append_left _ hmove')
    exact hpreserved ⟨moves, hrun, hbefore⟩ (ih hbefore)
      (hmoves move (List.mem_append_right _ List.mem_cons_self)) hstep

end Reached

/-- What comes before the last step of a run. -/
lemma Run.of_concat {address : ChannelId → ℕ} {moves : List (Move C)} {move : Move C} {m : Machine C}
    (h : Run address (moves ++ [move]) m) : Run address moves move.before ∧
      Step address move.thread move.before move.after ∧ m = move.after := by
  generalize hall : moves ++ [move] = all at h
  cases h with
  | start => exact absurd hall (List.concat_ne_nil move moves)
  | @step moves' move' hrun hstep =>
    obtain ⟨rfl, hmove⟩ := List.append_inj' hall rfl
    obtain rfl := List.singleton_inj.1 hmove
    exact ⟨hrun, hstep, rfl⟩

/-- What holds at some point of a run, and after every further step when it held before, holds at the
end of the run. -/
theorem Run.invariant {address : ChannelId → ℕ} {p : List (Move C) → Machine C → Prop}
    {earlier later : List (Move C)} {m : Machine C} (h : Run address (earlier ++ later) m)
    (hstart : ∀ {m}, Run address earlier m → p [] m)
    (hpreserved : ∀ {moves move}, Run address (earlier ++ moves) move.before → p moves move.before →
      Step address move.thread move.before move.after → p (moves ++ [move]) move.after) :
    p later m := by
  induction later using List.reverseRecOn generalizing m with
  | nil =>
    rw [List.append_nil] at h
    exact hstart h
  | append_singleton moves move ih =>
    rw [← List.append_assoc] at h
    obtain ⟨hrun, hstep, rfl⟩ := h.of_concat
    exact hpreserved hrun (ih hrun) hstep

end Machine

end Recapn.Channel

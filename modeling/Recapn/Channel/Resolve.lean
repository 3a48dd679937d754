/-
# Resolution

A channel is resolved when it was forwarded, closed with an error or dropped.  Those who send go
along the forwards to the channel where they end.  A channel counts its senders, to close when the
last one is dropped.
-/
import Recapn.Channel.State

namespace Recapn.Channel

open Recapn.Lib

variable {C : Chan}

/-! ## The most resolved channel -/

/-- `SharedChannel::most_resolved`, for so many rounds of its loop. -/
def World.mostResolved (w : World C) : ℕ → ChannelId → Option (ChannelId × Option (MostResolved C))
  | 0, _ => none
  | rounds + 1, self =>
    match w.tryResolved self with
    | none => some (self, none)
    | some .dropped => some (self, some .dropped)
    | some (.error err) => some (self, some (.error err))
    | some (.forwarded channel) => w.mostResolved rounds channel.shared

/-- `SharedChannel::most_unresolved`, for so many rounds of its loop. -/
def World.mostUnresolved (w : World C) : ℕ → ChannelId → Option (Option ChannelId)
  | 0, _ => none
  | rounds + 1, self =>
    match w.tryResolved self with
    | none => some (some self)
    | some .dropped => some none
    | some (.error _) => some none
    | some (.forwarded channel) => w.mostUnresolved rounds channel.shared

/-- `SharedChannel::most_resolved`.  A chain that does not end goes over a channel twice. -/
def mostResolved (self : ChannelId) : ChanM C (ChannelId × Option (MostResolved C)) := fun w =>
  match w.mostResolved (w.channels + 1) self with
  | some result => .ok result w
  | none => .halt .depth

/-- `SharedChannel::most_unresolved`. -/
def mostUnresolved (self : ChannelId) : ChanM C (Option ChannelId) := fun w =>
  match w.mostUnresolved (w.channels + 1) self with
  | some result => .ok result w
  | none => .halt .depth

/-- `SharedChannel::resolve_and_lock`: the channel it found, and the one whose lock it has.  When
the channel has resolved further its loop goes back to its head, and returns there. -/
def resolveAndLock (self : ChannelId) :
    ChanM C (Except (MostResolved C) (ChannelId × ChannelId)) := do
  let (this, resolution) ← mostResolved self
  match resolution with
  | some res => pure (.error res)
  | none => do
    let channel := this
    let (this, resolution) ← mostResolved this
    match resolution with
    | none => pure (.ok (this, channel))
    | some res => pure (.error res)

section MostResolved

variable (w : World C)

/-- How a channel that was not forwarded has ended, if it has. -/
def World.ended (c : ChannelId) : Option (MostResolved C) :=
  match w.tryResolved c with
  | some .dropped => some .dropped
  | some (.error err) => some (.error err)
  | _ => none

lemma World.next_eq_some {c d : ChannelId} :
    w.next c = some d ↔ w.tryResolved c = some (.forwarded ⟨d⟩) := by
  unfold World.next
  rcases w.tryResolved c with _ | sender | _ | err
  · simp
  · simp [Sender.ext_iff]
  · simp
  · simp

/-- The most resolved channel is where the forwards end. -/
lemma World.mostResolved_eq (rounds : ℕ) (c : ChannelId) :
    w.mostResolved rounds c = (follow w.next rounds c).map fun r => (r, w.ended r) := by
  induction rounds generalizing c with
  | zero => rfl
  | succ rounds ih =>
    rw [World.mostResolved, follow]
    rcases htry : w.tryResolved c with _ | sender | _ | err
    · simp [World.next, World.ended, htry]
    · simp [World.next, htry, ih]
    · simp [World.next, World.ended, htry]
    · simp [World.next, World.ended, htry]

lemma World.mostUnresolved_eq (rounds : ℕ) (c : ChannelId) :
    w.mostUnresolved rounds c = (follow w.next rounds c).map fun r =>
      if (w.ended r).isSome then none else some r := by
  induction rounds generalizing c with
  | zero => rfl
  | succ rounds ih =>
    rw [World.mostUnresolved, follow]
    rcases htry : w.tryResolved c with _ | sender | _ | err
    · simp [World.next, World.ended, htry]
    · simp [World.next, htry, ih]
    · simp [World.next, World.ended, htry]
    · simp [World.next, World.ended, htry]

lemma World.next_of_none {c : ChannelId} (h : w.tryResolved c = none) : w.next c = none := by
  unfold World.next
  rw [h]

/-- What neither was forwarded nor has ended is not resolved. -/
lemma World.tryResolved_eq_none {c : ChannelId} (hnext : w.next c = none)
    (hended : w.ended c = none) : w.tryResolved c = none := by
  unfold World.next at hnext
  unfold World.ended at hended
  rcases htry : w.tryResolved c with _ | sender | _ | err
  · rfl
  · rw [htry] at hnext
    cases hnext
  · rw [htry] at hended
    cases hended
  · rw [htry] at hended
    cases hended

end MostResolved

/-- The loop of `most_resolved` comes to the end of the forwards. -/
lemma mostResolved_ok {w w' : World C} {c r : ChannelId} {resolution : Option (MostResolved C)}
    (h : mostResolved c w = .ok (r, resolution) w') :
    w' = w ∧ Leads w.next c r ∧ resolution = w.ended r := by
  unfold mostResolved at h
  rw [World.mostResolved_eq] at h
  rcases hfollow : follow w.next (w.channels + 1) c with _ | r'
  · rw [hfollow] at h
    cases h
  · rw [hfollow] at h
    cases h
    exact ⟨rfl, leads_of_follow hfollow, rfl⟩

/-- When a channel is found and locked, nothing has happened in between. -/
lemma resolveAndLock_ok {w w' : World C} {c this channel : ChannelId}
    (h : resolveAndLock c w = .ok (.ok (this, channel)) w') :
    w' = w ∧ channel = this ∧ Leads w.next c this ∧ w.tryResolved this = none := by
  obtain ⟨⟨r, resolution⟩, w₁, hfirst, hrest⟩ := Prog.bind_eq_ok.1 h
  obtain ⟨rfl, hleads, hres⟩ := mostResolved_ok hfirst
  rcases resolution with _ | res
  · obtain ⟨⟨r', resolution'⟩, w₂, hsecond, hpure⟩ := Prog.bind_eq_ok.1 hrest
    obtain ⟨rfl, hleads', -⟩ := mostResolved_ok hsecond
    obtain rfl := hleads.end.unique hleads'
    rcases resolution' with _ | res
    · cases hpure
      exact ⟨rfl, rfl, hleads, World.tryResolved_eq_none _ hleads.next_eq_none hres.symm⟩
    · cases hpure
  · cases hrest

/-! ## The closed task -/

/-- `Poll`. -/
inductive Poll (α : Type) where
  | ready (value : α)
  | pending
deriving DecidableEq, Repr

/-- `ClosedTask::poll`. -/
def closedTaskPoll (c : ChannelId) (waker : Waker) : ChanM C (Poll Unit) := do
  let ch ← getChannel c
  if ch.state.isRecvClosed then pure (.ready ())
  else do
    let _ ← (if ch.state.isClosedTaskSet ∧ ch.closedTask ≠ some waker then
        modifyChannel c fun ch => { ch with state := ch.state.clearClosedTask, closedTask := none }
      else pure ())
    let ch ← getChannel c
    if ch.state.isClosedTaskSet then pure .pending
    else do
      modifyChannel c fun ch =>
        { ch with state := ch.state.setClosedTask, closedTask := some waker }
      pure .pending

/-- `ClosedTask::close`. -/
def closedTaskClose (c : ChannelId) : ChanM C Unit := do
  modifyChannel c fun ch => { ch with state := ch.state.setRecvClosed }
  let ch ← getChannel c
  if ch.state.isClosedTaskSet ∧ ¬ (ch.state.isSendClosed ∨ ch.state.isSet) then wake ch.closedTask
  else pure ()

/-! ## Counting senders -/

/-- `ResolutionState::add_sender`. -/
def addSender (c : ChannelId) : ChanM C Unit := do
  let ch ← getChannel c
  if ch.senderCount = usizeMax then Prog.halt .panic
  else modifyChannel c fun ch => { ch with senderCount := ch.senderCount + 1 }

/-- `ResolutionState::remove_sender`. -/
def removeSender (c : ChannelId) : ChanM C Unit := do
  let ch ← getChannel c
  let lastReceiver := ch.senderCount = 0
  modifyChannel c fun ch => { ch with senderCount := fetchSubOne ch.senderCount }
  if lastReceiver then closedTaskClose c
  else pure ()

/-- `Sender::clone`. -/
def Sender.clone (self : Sender) : ChanM C Sender := do
  addSender self.shared
  pure self

/-- `Sender::drop`. -/
def Sender.drop (self : Sender) : ChanM C Unit := removeSender self.shared

/-- Drop a `ChannelResolution`. -/
def ChannelResolution.drop (self : ChannelResolution C) : ChanM C Unit :=
  match self with
  | .forward sender => sender.drop
  | .error _ => pure ()

/-! ## Resolving -/

/-- `ResolutionState::resolve`. -/
def resolve (c : ChannelId) (value : ChannelResolution C) : ChanM C Unit := do
  modifyChannel c fun ch => { ch with value := some value }
  let ch ← getChannel c
  let prev := ch.state
  modifyChannel c fun ch => { ch with state := ch.state.trySetValue }
  if prev.isRecvClosed then do
    value.drop
    modifyChannel c fun ch => { ch with value := none }
  else pure ()

/-- `ResolutionState::close_receiver`. -/
def closeReceiver (c : ChannelId) : ChanM C Unit :=
  modifyChannel c fun ch => { ch with state := ch.state.setSendClosed }

/-- `Receiver::drop`. -/
def dropReceiver (c : ChannelId) : ChanM C Unit := do
  let ch ← getChannel c
  if ch.state.isSet then pure ()
  else closeReceiver c

end Recapn.Channel

/-
# The state of channels and requests

Channels and requests are shared: everything that holds a pointer to one refers to it by an id.
The state of the world has all of them, and the values that the program holds: its senders and
receivers, and what counts as a receiver of a response.  The programs here are the functions of
the channel crate, each run to its end without interruption.
-/
import Recapn.Lib.Prog
import Recapn.Lib.Forwarding

namespace Recapn.Channel

open Recapn.Lib

/-- `usize::MAX`. -/
def usizeMax : ℕ := 2 ^ 64 - 1

/-- `fetch_sub` of one: the count wraps. -/
def fetchSubOne (count : ℕ) : ℕ := if count = 0 then usizeMax else count - 1

/-! ## Atomic state -/

/-- `ShotState`. -/
inductive ShotState where
  | sent
  | empty
  | closed
deriving DecidableEq, Repr

/-- `StateFlags`: the bits of an `AtomicState`. -/
structure StateFlags where
  isSet : Bool
  isSendClosed : Bool
  isRecvClosed : Bool
  isClosedTaskSet : Bool
  isPipelineSet : Bool
deriving DecidableEq, Repr

namespace StateFlags

/-- `AtomicState::new`. -/
def new : StateFlags := ⟨false, false, false, false, false⟩

/-- `AtomicState::new_set`. -/
def newSet : StateFlags := { new with isSet := true }

/-- `StateFlags::state`. -/
def state (self : StateFlags) : ShotState :=
  if self.isSet then .sent
  else if self.isSendClosed then .closed
  else .empty

/-- `AtomicState::set_send_closed`. -/
def setSendClosed (self : StateFlags) : StateFlags := { self with isSendClosed := true }

/-- `AtomicState::set_recv_closed`. -/
def setRecvClosed (self : StateFlags) : StateFlags := { self with isRecvClosed := true }

/-- `AtomicState::set_closed_task`. -/
def setClosedTask (self : StateFlags) : StateFlags := { self with isClosedTaskSet := true }

/-- `AtomicState::clear_closed_task`. -/
def clearClosedTask (self : StateFlags) : StateFlags := { self with isClosedTaskSet := false }

/-- `AtomicState::set_value`. -/
def setValue (self : StateFlags) : StateFlags := { self with isSet := true }

/-- `AtomicState::try_set_value`: the state after it. -/
def trySetValue (self : StateFlags) : StateFlags :=
  if self.isRecvClosed then self else { self with isSet := true }

/-- The value is set unless the receiving side is closed. -/
lemma trySetValue_of_open {self : StateFlags} (h : self.isRecvClosed = false) :
    self.trySetValue = self.setValue := by
  have hnot : ¬ self.isRecvClosed = true := by simp [h]
  rw [trySetValue, if_neg hnot]
  rfl

/-- `AtomicState::set_pipeline`. -/
def setPipeline (self : StateFlags) : StateFlags := { self with isPipelineSet := true }

end StateFlags

/-! ## Channels and requests -/

/-- `Chan`: the types that a channel is used with. -/
structure Chan where
  Event : Type
  Parameters : Type
  PipelineKey : Type
  Error : Type
  Results : Type
  Pipeline : Type
  decidableEqKey : DecidableEq PipelineKey
  /-- `IntoResults::into_results` of an error. -/
  intoResults : Error → Results

instance (C : Chan) : DecidableEq C.PipelineKey := C.decidableEqKey

abbrev ChannelId := ℕ

abbrev RequestId := ℕ

/-- A sender that the program holds. -/
abbrev SenderId := ℕ

/-- What the program holds that receives the response of a request. -/
abbrev TrackerId := ℕ

/-- `Waker`: the task that it wakes. -/
abbrev Waker := ℕ

/-- `Sender`. -/
@[ext] structure Sender where
  shared : ChannelId
deriving DecidableEq, Repr

variable (C : Chan)

/-- `LinkItem`. -/
inductive LinkItem where
  | request (id : RequestId)
  | event (data : C.Event)

/-- `ChannelResolution`. -/
inductive ChannelResolution where
  | forward (sender : Sender)
  | error (err : C.Error)

/-- `Resolution`. -/
inductive Resolution where
  | forwarded (sender : Sender)
  | dropped
  | error (err : C.Error)

/-- `MostResolved`. -/
inductive MostResolved where
  | dropped
  | error (err : C.Error)

/-- `SharedChannel`, with its `State` and its `ResolutionState`. -/
structure SharedChannel where
  parentRequest : Option RequestId
  requests : List (LinkItem C)
  waker : Option Waker
  state : StateFlags
  senderCount : ℕ
  /-- The waker of the `ClosedTask`. -/
  closedTask : Option Waker
  value : Option (ChannelResolution C)

/-- The parameters of a request: they are there until they are taken or dropped. -/
inductive Params where
  | present (params : C.Parameters)
  | taken
  | dropped

/-- The value that owns a request. -/
inductive Owner where
  | request
  | channel
  | responder
  | resultsSender
  | none
deriving DecidableEq, Repr

/-- `SharedRequest`, and who owns it. -/
structure SharedRequest where
  owner : Owner
  parent : Option ChannelId
  request : Params C
  state : StateFlags
  receiversCount : ℕ
  response : Option C.Results
  /-- The weak channels by their keys. -/
  pipelineMap : List (C.PipelineKey × ChannelId)
  pipelineDest : Option (Option C.Pipeline)

/-- A sender that the program holds, or held. -/
structure SenderHandle where
  sender : Sender
  live : Bool
deriving DecidableEq, Repr

/-- All channels and requests, and what the program holds. -/
structure World where
  /-- How many channels there are. -/
  channels : ℕ
  channel : ChannelId → SharedChannel C
  /-- The channels that were deallocated. -/
  freed : ChannelId → Bool
  /-- How many requests there are. -/
  requests : ℕ
  request : RequestId → SharedRequest C
  senders : List SenderHandle
  /-- The channels whose receiver the program holds. -/
  receiver : ChannelId → Bool
  /-- The response receivers and pipeline builders that the program holds. -/
  trackers : List (Option RequestId)
  /-- The tasks that were woken, in order. -/
  woken : List Waker

/-- The functions of the crate. -/
abbrev ChanM := Prog Empty (World C)

variable {C}

namespace SharedChannel

/-- A new channel with one sender. -/
def new (parentRequest : Option RequestId) : SharedChannel C where
  parentRequest := parentRequest
  requests := []
  waker := none
  state := .new
  senderCount := 1
  closedTask := none
  value := none

/-- A new channel that is resolved already. -/
def resolved (resolution : ChannelResolution C) : SharedChannel C :=
  { new none with state := .newSet, value := some resolution }

/-- `SharedChannel::try_resolved`. -/
def tryResolved (self : SharedChannel C) : Option (Resolution C) :=
  match self.state.state with
  | .closed => some .dropped
  | .empty => none
  | .sent =>
    match self.value with
    | some (.forward sender) => some (.forwarded sender)
    | some (.error err) => some (.error err)
    | none => none -- the value is there when the state says so

/-- The sender that the resolution of a channel holds. -/
def held (self : SharedChannel C) : Option Sender :=
  match self.state.isSet, self.value with
  | true, some (.forward sender) => some sender
  | _, _ => none

end SharedChannel

/-- `SharedRequest::new`. -/
def SharedRequest.new (params : C.Parameters) (receivers : ℕ) : SharedRequest C where
  owner := .request
  parent := none
  request := .present params
  state := .new
  receiversCount := receivers
  response := none
  pipelineMap := []
  pipelineDest := none

namespace World

/-- No channels and no requests. -/
def empty : World C where
  channels := 0
  channel _ := { SharedChannel.new none with senderCount := 0 }
  freed _ := false
  requests := 0
  request _ := ⟨.none, none, .taken, .new, 0, none, [], none⟩
  senders := []
  receiver _ := false
  trackers := []
  woken := []

/-- Change a channel. -/
def modifyChannel (w : World C) (c : ChannelId) (f : SharedChannel C → SharedChannel C) : World C :=
  { w with channel := Function.update w.channel c (f (w.channel c)) }

/-- Change a request. -/
def modifyRequest (w : World C) (r : RequestId) (f : SharedRequest C → SharedRequest C) : World C :=
  { w with request := Function.update w.request r (f (w.request r)) }

/-- One more channel. -/
def addChannel (w : World C) (ch : SharedChannel C) : World C :=
  { w with channels := w.channels + 1, channel := Function.update w.channel w.channels ch }

section Modify

variable (w : World C) {c d : ChannelId} {r r' : RequestId}
  (f : SharedChannel C → SharedChannel C) (g : SharedRequest C → SharedRequest C)

@[simp] lemma channel_modifyChannel_self : (w.modifyChannel c f).channel c = f (w.channel c) :=
  Function.update_self ..

lemma channel_modifyChannel_of_ne (h : d ≠ c) : (w.modifyChannel c f).channel d = w.channel d :=
  Function.update_of_ne h ..

@[simp] lemma channel_addChannel_self (ch : SharedChannel C) :
    (w.addChannel ch).channel w.channels = ch :=
  Function.update_self ..

lemma channel_addChannel_of_ne (ch : SharedChannel C) (h : d ≠ w.channels) :
    (w.addChannel ch).channel d = w.channel d :=
  Function.update_of_ne h ..

@[simp] lemma request_modifyRequest_self : (w.modifyRequest r g).request r = g (w.request r) :=
  Function.update_self ..

lemma request_modifyRequest_of_ne (h : r' ≠ r) : (w.modifyRequest r g).request r' = w.request r' :=
  Function.update_of_ne h ..

end Modify

/-- What a channel has come to. -/
def tryResolved (w : World C) (c : ChannelId) : Option (Resolution C) := (w.channel c).tryResolved

/-- The channel that a channel was forwarded to. -/
def next (w : World C) (c : ChannelId) : Option ChannelId :=
  match w.tryResolved c with
  | some (.forwarded sender) => some sender.shared
  | _ => none

/-- The sender that the program holds under an id. -/
def sender (w : World C) (s : SenderId) : Option Sender :=
  match w.senders[s]? with
  | some handle => if handle.live then some handle.sender else none
  | none => none

/-- The request whose response the program receives under an id. -/
def tracker (w : World C) (t : TrackerId) : Option RequestId := (w.trackers[t]?).join

end World

/-! ## Parts of programs -/

/-- The shared channel. -/
def getChannel (c : ChannelId) : ChanM C (SharedChannel C) := fun w => .ok (w.channel c) w

/-- Change a channel. -/
def modifyChannel (c : ChannelId) (f : SharedChannel C → SharedChannel C) : ChanM C Unit :=
  Prog.modify fun w => w.modifyChannel c f

/-- The shared request. -/
def getRequest (r : RequestId) : ChanM C (SharedRequest C) := fun w => .ok (w.request r) w

/-- Change a request. -/
def modifyRequest (r : RequestId) (f : SharedRequest C → SharedRequest C) : ChanM C Unit :=
  Prog.modify fun w => w.modifyRequest r f

/-- `Waker::wake`, if there is one. -/
def wake (waker : Option Waker) : ChanM C Unit :=
  Prog.modify fun w => { w with woken := w.woken ++ waker.toList }

end Recapn.Channel

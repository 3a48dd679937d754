/-
# Requests

A request, its response and its pipeline are one shared allocation.  It counts what receives its
response; when nothing does any more, it is finished.  Pipelined channels wait in a map of the
request until the response is there, and then get a receiver.
-/
import Recapn.Channel.Resolve

namespace Recapn.Channel

open Recapn.Lib

variable {C : Chan}

/-! ## The shared request -/

/-- Who owns the request from now on. -/
def setOwner (r : RequestId) (owner : Owner) : ChanM C Unit :=
  modifyRequest r fun req => { req with owner := owner }

namespace SharedRequest

/-- `SharedRequest::drop_request`.  Nothing may be dropped twice. -/
def dropRequest (r : RequestId) : ChanM C Unit := do
  let req ← getRequest r
  match req.request with
  | .present _ => modifyRequest r fun req => { req with request := .dropped }
  | _ => Prog.halt .undefined

/-- `SharedRequest::take_request`. -/
def takeRequest (r : RequestId) : ChanM C C.Parameters := do
  let req ← getRequest r
  match req.request with
  | .present params => do
    modifyRequest r fun req => { req with request := .taken }
    pure params
  | _ => Prog.halt .undefined

/-- `SharedRequest::close_sender`. -/
def closeSender (r : RequestId) : ChanM C Unit :=
  modifyRequest r fun req => { req with state := req.state.setSendClosed }

/-- `SharedRequest::is_finished`. -/
def isFinished (self : SharedRequest C) : Bool := self.state.isRecvClosed

/-- `SharedRequest::set_parent`. -/
def setParent (r : RequestId) (parent : ChannelId) : ChanM C Unit :=
  modifyRequest r fun req => { req with parent := some parent }

/-- `SharedRequest::take_parent`. -/
def takeParent (r : RequestId) : ChanM C (Option ChannelId) := do
  let req ← getRequest r
  modifyRequest r fun req => { req with parent := none }
  pure req.parent

/-- `SharedRequest::try_remove_from_channel`. -/
def tryRemoveFromChannel (r : RequestId) : ChanM C Unit := do
  let req ← getRequest r
  match req.parent with
  | none => pure ()
  | some parent => do
    let mostResolved ← mostUnresolved parent
    match mostResolved with
    | none => pure ()
    | some _ => Prog.halt .panic -- `todo!()`

/-- `SharedRequest::add_receiver`. -/
def addReceiver (r : RequestId) : ChanM C Unit := do
  let req ← getRequest r
  if req.receiversCount = usizeMax then Prog.halt .panic
  else modifyRequest r fun req => { req with receiversCount := req.receiversCount + 1 }

/-- `SharedRequest::remove_receiver`. -/
def removeReceiver (r : RequestId) : ChanM C Unit := do
  let req ← getRequest r
  let lastReceiver := fetchSubOne req.receiversCount = 0
  modifyRequest r fun req => { req with receiversCount := fetchSubOne req.receiversCount }
  if lastReceiver then do
    modifyRequest r fun req => { req with state := req.state.setRecvClosed }
    tryRemoveFromChannel r
  else pure ()

/-- `request::Receiver::drop`, if there is one. -/
def dropReceiver : Option RequestId → ChanM C Unit
  | none => pure ()
  | some r => removeReceiver r

end SharedRequest

/-! ## Channels made and kept weakly -/

/-- Allocate a channel. -/
def newChannel (ch : SharedChannel C) : ChanM C ChannelId := fun w =>
  .ok w.channels (w.addChannel ch)

/-- `WeakChannel::sender`. -/
def weakSender (weak : ChannelId) : ChanM C (Option Sender) := do
  let w ← Prog.get
  if w.freed weak then pure none
  else do
    addSender weak
    pure (some ⟨weak⟩)

/-- `WeakChannel::upgrade`: whether there is a receiver now. -/
def weakUpgrade (weak : ChannelId) : ChanM C Bool := do
  let w ← Prog.get
  if w.freed weak then pure false
  else do
    let ch ← getChannel weak
    modifyChannel weak fun ch => { ch with parentRequest := none }
    SharedRequest.dropReceiver ch.parentRequest
    pure true

/-- `mpsc::weak_channel`. -/
def weakChannel (parent : RequestId) : ChanM C (Sender × ChannelId) := do
  let channel ← newChannel (.new (some parent))
  pure (⟨channel⟩, channel)

/-! ## Requests and their responses -/

/-- `Request::drop`. -/
def dropRequest (r : RequestId) : ChanM C Unit := do
  setOwner r .none
  SharedRequest.dropRequest r
  SharedRequest.closeSender r

/-- `Request::respond`. -/
def respond (r : RequestId) : ChanM C C.Parameters := do
  let params ← SharedRequest.takeRequest r
  setOwner r .responder
  pure params

/-- Give pipelined channels a receiver each.  The resolver is the user's: it gets the receiver, and
what it does with it are further calls. -/
def upgradeAll : List (C.PipelineKey × ChannelId) → ChanM C Unit
  | [] => pure ()
  | (_, value) :: map => do
    let upgraded ← weakUpgrade value
    let _ ← (if upgraded then
        Prog.modify fun w => { w with receiver := Function.update w.receiver value true }
      else pure ())
    upgradeAll map

/-- `SharedRequest::resolve_pipeline_map`. -/
def resolvePipelineMap (r : RequestId) : ChanM C Unit := do
  let req ← getRequest r
  modifyRequest r fun req => { req with pipelineMap := [] }
  upgradeAll req.pipelineMap
  modifyRequest r fun req => { req with state := req.state.setPipeline }

/-- `Responder::respond`. -/
def Responder.respond (r : RequestId) (resp : C.Results) : ChanM C Unit := do
  setOwner r .none
  modifyRequest r fun req =>
    { req with response := some resp, state := req.state.setValue, pipelineDest := some none }
  resolvePipelineMap r

/-- `Responder::tail_call`. -/
def Responder.tailCall (r : RequestId) (msg : C.Parameters) : ChanM C Unit :=
  modifyRequest r fun req => { req with owner := .request, request := .present msg }

/-- `Responder::set_pipeline`. -/
def Responder.setPipeline (r : RequestId) (dst : C.Pipeline) : ChanM C Unit := do
  modifyRequest r fun req => { req with pipelineDest := some (some dst) }
  let req ← getRequest r
  Prog.require (req.response.isSome = true) -- the response is read here
  resolvePipelineMap r
  setOwner r .resultsSender

/-- `Responder::drop`, and `ResultsSender::drop`. -/
def dropResponder (r : RequestId) : ChanM C Unit := do
  setOwner r .none
  SharedRequest.closeSender r

/-- `ResultsSender::respond`. -/
def ResultsSender.respond (r : RequestId) (resp : C.Results) : ChanM C Unit := do
  setOwner r .none
  modifyRequest r fun req => { req with response := some resp, state := req.state.setValue }

/-- `TryRecvError`. -/
inductive TryRecvError where
  | empty
  | closed
deriving DecidableEq, Repr

/-- `ResponseReceiver::try_recv`. -/
def SharedRequest.tryRecv (self : SharedRequest C) : Except TryRecvError (Option C.Results) :=
  match self.state.state with
  | .closed => .error .closed
  | .empty => .error .empty
  | .sent => .ok self.response

/-! ## Pipelines -/

/-- `PipelineBuilder::build`, while the pipeline is not set.  Else it is the user's pipeline that
returns a sender. -/
def build (r : RequestId) (key : C.PipelineKey) : ChanM C (Option Sender) := do
  let req ← getRequest r
  if req.state.isPipelineSet then pure none
  else
    match req.pipelineMap.lookup key with
    | some occupied => do
      let sender ← weakSender occupied
      match sender with
      | some sender => pure (some sender)
      | none => insert (req.pipelineMap.filter fun entry => entry.1 ≠ key)
    | none => insert req.pipelineMap
where
  /-- Track the request, and put a new channel into the map. -/
  insert (map : List (C.PipelineKey × ChannelId)) : ChanM C (Option Sender) := do
    SharedRequest.addReceiver r
    let (sender, weak) ← weakChannel r
    modifyRequest r fun req => { req with pipelineMap := map ++ [(key, weak)] }
    pure (some sender)

end Recapn.Channel

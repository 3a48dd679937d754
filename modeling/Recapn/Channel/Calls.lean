/-
# Calls

What a program can do with the values that it holds.  The values are moved as they are in the
source: who sends a request does not hold it any more, and so for a receiver that is forwarded,
closed or dropped.  What is shared is deallocated at some time after nothing points to it.
-/
import Recapn.Channel.Mpsc

namespace Recapn.Channel

open Recapn.Lib

/-- A call of the program. -/
inductive Call (C : Chan) where
  | channel
  | broken (err : C.Error)
  | cloneSender (s : SenderId)
  | dropSender (s : SenderId)
  | resolveInPlace (s : SenderId)
  | send (s : SenderId) (req : RequestId)
  | sendEvent (s : SenderId) (event : C.Event)
  | forwardTo (c : ChannelId) (other : SenderId)
  | pollClosed (c : ChannelId) (waker : Waker)
  | pollRecv (c : ChannelId) (waker : Waker)
  | tryRecv (c : ChannelId)
  | close (c : ChannelId) (err : C.Error)
  | dropReceiver (c : ChannelId)
  | requestResponse (msg : C.Parameters)
  | requestPipeline (msg : C.Parameters)
  | requestResponsePipeline (msg : C.Parameters)
  | dropRequest (r : RequestId)
  | respond (r : RequestId)
  | responderRespond (r : RequestId) (resp : C.Results)
  | tailCall (r : RequestId) (msg : C.Parameters)
  | setPipeline (r : RequestId) (dst : C.Pipeline)
  | dropResponder (r : RequestId)
  | resultsSenderRespond (r : RequestId) (resp : C.Results)
  | dropResultsSender (r : RequestId)
  | cloneTracker (t : TrackerId)
  | dropTracker (t : TrackerId)
  | build (t : TrackerId) (key : C.PipelineKey)
  | freeChannel (c : ChannelId)
  | freeRequest (r : RequestId)

/-- What a call returned. -/
inductive Output (C : Chan) where
  | unit
  /-- A sender that the program holds now. -/
  | sender (s : SenderId)
  | sent (result : Except (Option C.Error) Unit)
  /-- Whether the receiver was used up. -/
  | forwarded (done : Bool)
  | closed (result : Poll Unit)
  | polled (result : Poll (Option (LinkItem C)))
  | received (item : Option (LinkItem C))
  | params (params : C.Parameters)
  /-- The pipeline is set, and the sender comes from there. -/
  | pipelined

variable {C : Chan}

/-! ## What the program holds -/

/-- The program holds a new sender. -/
def holdSender (sender : Sender) : ChanM C SenderId := fun w =>
  .ok w.senders.length { w with senders := w.senders ++ [⟨sender, true⟩] }

/-- The program holds this sender under the id. -/
def setSender (s : SenderId) (handle : SenderHandle) : ChanM C Unit :=
  Prog.modify fun w => { w with senders := w.senders.set s handle }

/-- The program holds the receiver of a channel, or does not. -/
def holdReceiver (c : ChannelId) (held : Bool) : ChanM C Unit :=
  Prog.modify fun w => { w with receiver := Function.update w.receiver c held }

/-- The program holds something new that receives the response of a request. -/
def holdTracker (r : RequestId) : ChanM C Unit :=
  Prog.modify fun w => { w with trackers := w.trackers ++ [some r] }

/-- The sender under an id. -/
def getSender (s : SenderId) : ChanM C Sender := do
  let w ← Prog.get
  Prog.unwrap (w.sender s)

/-- The request that is tracked under an id. -/
def getTracker (t : TrackerId) : ChanM C RequestId := do
  let w ← Prog.get
  Prog.unwrap (w.tracker t)

/-- Allocate a request with so many receivers, which the program holds. -/
def newRequest (msg : C.Parameters) (receivers : ℕ) : ChanM C Unit :=
  Prog.modify fun w =>
    { w with
      requests := w.requests + 1
      request := Function.update w.request w.requests (.new msg receivers)
      trackers := w.trackers ++ List.replicate receivers (some w.requests) }

/-- `mpsc::channel`. -/
def channel : ChanM C SenderId := do
  let c ← newChannel (.new none)
  holdReceiver c true
  holdSender ⟨c⟩

/-- `mpsc::broken`. -/
def broken (err : C.Error) : ChanM C SenderId := do
  let c ← newChannel (.resolved (.error err))
  holdSender ⟨c⟩

/-- `request_response`. -/
def requestResponse (msg : C.Parameters) : ChanM C Unit := newRequest msg 1

/-- `request_pipeline`. -/
def requestPipeline (msg : C.Parameters) : ChanM C Unit := newRequest msg 1

/-- `request_response_pipeline`. -/
def requestResponsePipeline (msg : C.Parameters) : ChanM C Unit := newRequest msg 2

/-- `Sender::resolve_in_place`. -/
def resolveInPlace (s : SenderId) : ChanM C Unit := do
  let self ← getSender s
  let (resolved, _) ← mostResolved self.shared
  let resolved ← Sender.clone ⟨resolved⟩
  setSender s ⟨resolved, true⟩
  self.drop

/-- `SharedChannel::drop`: the queue is not emptied. -/
def freeChannel (c : ChannelId) : ChanM C Unit := do
  let ch ← getChannel c
  Prog.modify fun w => { w with freed := Function.update w.freed c true }
  SharedRequest.dropReceiver ch.parentRequest
  match ch.held with
  | none => pure ()
  | some sender => sender.drop

/-! ## The calls -/

namespace World

/-- Something points to the channel: a sender or a receiver that the program holds, another
channel that was forwarded to it, or a request that has it as its parent. -/
def Strong (w : World C) (c : ChannelId) : Prop :=
  ⟨⟨c⟩, true⟩ ∈ w.senders ∨ w.receiver c = true ∨
    (∃ c' < w.channels, w.freed c' = false ∧ (w.channel c').held = some ⟨c⟩) ∨
    ∃ r < w.requests, (w.request r).parent = some c

/-- Something owns the request or receives its response. -/
def StrongRequest (w : World C) (r : RequestId) : Prop :=
  (w.request r).owner ≠ .none ∨ some r ∈ w.trackers ∨
    ∃ c < w.channels, w.freed c = false ∧ (w.channel c).parentRequest = some r

end World

namespace Call

/-- Run the call. -/
def exec : Call C → ChanM C (Output C)
  | channel => do
    let s ← Channel.channel
    pure (.sender s)
  | broken err => do
    let s ← Channel.broken err
    pure (.sender s)
  | cloneSender s => do
    let self ← getSender s
    let sender ← self.clone
    let s ← holdSender sender
    pure (.sender s)
  | dropSender s => do
    let self ← getSender s
    setSender s ⟨self, false⟩
    self.drop
    pure .unit
  | resolveInPlace s => do
    Channel.resolveInPlace s
    pure .unit
  | send s req => do
    let self ← getSender s
    let result ← Channel.send self req
    pure (.sent result)
  | sendEvent s event => do
    let self ← getSender s
    let result ← Channel.sendEvent self event
    pure (.sent result)
  | forwardTo c other => do
    let other ← getSender other
    holdReceiver c false
    let done ← Channel.forwardTo c other
    holdReceiver c (!done)
    pure (.forwarded done)
  | pollClosed c waker => do
    let result ← Channel.pollClosed c waker
    pure (.closed result)
  | pollRecv c waker => do
    let result ← Channel.pollRecv c waker
    pure (.polled result)
  | tryRecv c => do
    let item ← Channel.tryRecv c
    pure (.received item)
  | close c err => do
    holdReceiver c false
    Channel.close c err
    pure .unit
  | dropReceiver c => do
    holdReceiver c false
    Channel.dropReceiver c
    pure .unit
  | requestResponse msg => do
    Channel.requestResponse msg
    pure .unit
  | requestPipeline msg => do
    Channel.requestPipeline msg
    pure .unit
  | requestResponsePipeline msg => do
    Channel.requestResponsePipeline msg
    pure .unit
  | dropRequest r => do
    Channel.dropRequest r
    pure .unit
  | respond r => do
    let params ← Channel.respond r
    pure (.params params)
  | responderRespond r resp => do
    Responder.respond r resp
    pure .unit
  | tailCall r msg => do
    Responder.tailCall r msg
    pure .unit
  | setPipeline r dst => do
    Responder.setPipeline r dst
    pure .unit
  | dropResponder r => do
    Channel.dropResponder r
    pure .unit
  | resultsSenderRespond r resp => do
    ResultsSender.respond r resp
    pure .unit
  | dropResultsSender r => do
    Channel.dropResponder r
    pure .unit
  | cloneTracker t => do
    let r ← getTracker t
    SharedRequest.addReceiver r
    holdTracker r
    pure .unit
  | dropTracker t => do
    let r ← getTracker t
    Prog.modify fun w => { w with trackers := w.trackers.set t none }
    SharedRequest.removeReceiver r
    pure .unit
  | build t key => do
    let r ← getTracker t
    let sender ← Channel.build r key
    match sender with
    | none => pure .pipelined
    | some sender => do
      let s ← holdSender sender
      pure (.sender s)
  | freeChannel c => do
    Channel.freeChannel c
    pure .unit
  | freeRequest r => do
    modifyRequest r fun req => { req with parent := none, pipelineMap := [] }
    pure .unit

/-- The program holds the receiver of a channel or owns the request that the call is about, and
what is deallocated is there still and nothing points to it. -/
def Allowed (w : World C) : Call C → Prop
  | send _ req => (w.request req).owner = .request
  | forwardTo c _ => w.receiver c = true
  | pollClosed c _ => w.receiver c = true
  | pollRecv c _ => w.receiver c = true
  | tryRecv c => w.receiver c = true
  | close c _ => w.receiver c = true
  | dropReceiver c => w.receiver c = true
  | dropRequest r => (w.request r).owner = .request
  | respond r => (w.request r).owner = .request
  | responderRespond r _ => (w.request r).owner = .responder
  | tailCall r _ => (w.request r).owner = .responder
  | setPipeline r _ => (w.request r).owner = .responder
  | dropResponder r => (w.request r).owner = .responder
  | resultsSenderRespond r _ => (w.request r).owner = .resultsSender
  | dropResultsSender r => (w.request r).owner = .resultsSender
  | freeChannel c => c < w.channels ∧ w.freed c = false ∧ ¬ w.Strong c
  | freeRequest r => r < w.requests ∧ ¬ w.StrongRequest r
  | _ => True

instance (w : World C) (c : ChannelId) : Decidable (w.Strong c) :=
  inferInstanceAs (Decidable (_ ∨ _ ∨ _ ∨ _))

instance (w : World C) (r : RequestId) : Decidable (w.StrongRequest r) :=
  inferInstanceAs (Decidable (_ ∨ _ ∨ _))

instance (w : World C) (call : Call C) : Decidable (call.Allowed w) := by
  cases call <;> unfold Allowed <;> infer_instance

end Call

/-! ## Runs -/

/-- A step of a run: a call, what it returned, and the world before and after it. -/
structure Step (C : Chan) where
  before : World C
  call : Call C
  output : Output C
  after : World C

/-- The call is allowed, and runs to its end. -/
def Step.Runs (step : Step C) : Prop :=
  step.call.Allowed step.before ∧ step.call.exec step.before = .ok step.output step.after

/-- The runs of calls, each run to its end before the next one. -/
inductive Run : List (Step C) → World C → Prop
  | empty : Run [] World.empty
  | step {steps : List (Step C)} {step : Step C} (h : Run steps step.before) (hruns : step.Runs) :
      Run (steps ++ [step]) step.after

/-- A world that is reached by calls. -/
def Reachable (w : World C) : Prop := ∃ steps, Run steps w

/-- The world after some calls. -/
def runCalls : List (Call C) → World C → Option (World C)
  | [], w => some w
  | call :: calls, w =>
    if call.Allowed w then
      match call.exec w with
      | .ok _ w => runCalls calls w
      | _ => none
    else none

lemma reachable_empty : Reachable (World.empty : World C) := ⟨[], .empty⟩

/-- Calls after a run are a run. -/
lemma Run.runCalls {steps : List (Step C)} {w w' : World C} (h : Run steps w) {calls : List (Call C)}
    (hrun : runCalls calls w = some w') :
    ∃ steps', Run (steps ++ steps') w' ∧ steps'.map Step.call = calls := by
  induction calls generalizing steps w with
  | nil =>
    cases hrun
    exact ⟨[], by rwa [List.append_nil], rfl⟩
  | cons call calls ih =>
    rw [Channel.runCalls] at hrun
    by_cases hallowed : call.Allowed w
    · rw [if_pos hallowed] at hrun
      rcases hexec : call.exec w with ⟨out, w₁⟩ | ⟨e, w₁⟩ | r
      · rw [hexec] at hrun
        obtain ⟨steps', hsteps', hcalls⟩ := ih (@Run.step C steps ⟨w, call, out, w₁⟩ h ⟨hallowed, hexec⟩) hrun
        refine ⟨⟨w, call, out, w₁⟩ :: steps', ?_, by rw [List.map_cons, hcalls]⟩
        rw [List.append_cons]
        exact hsteps'
      · cases e
      · rw [hexec] at hrun
        cases hrun
    · rw [if_neg hallowed] at hrun
      cases hrun

/-- Calls lead from a world that is reached to another one. -/
lemma Reachable.runCalls {w w' : World C} (h : Reachable w) {calls : List (Call C)}
    (hrun : runCalls calls w = some w') : Reachable w' := by
  obtain ⟨steps, hsteps⟩ := h
  obtain ⟨steps', hsteps', -⟩ := hsteps.runCalls hrun
  exact ⟨_, hsteps'⟩

end Recapn.Channel

/-
# Channels

Requests and events are sent into the queue of the channel that the sender's channel was forwarded
to.  The receiver takes them out again, or forwards all that comes to another channel, or closes
the channel with an error, with which it answers what is queued.
-/
import Recapn.Channel.Request

namespace Recapn.Channel

open Recapn.Lib

variable {C : Chan}

/-! ## The queue of a channel -/

/-- `LinkedList::push_back` to the queue. -/
def pushBack (c : ChannelId) (item : LinkItem C) : ChanM C Unit :=
  modifyChannel c fun ch => { ch with requests := ch.requests ++ [item] }

/-- `LinkedList::pop_front` from the queue. -/
def popFront (c : ChannelId) : ChanM C (Option (LinkItem C)) := do
  let ch ← getChannel c
  match ch.requests with
  | [] => pure none
  | first :: rest => do
    modifyChannel c fun ch => { ch with requests := rest }
    pure (some first)

/-- `LinkedList::pop_back` from the queue. -/
def popBack (c : ChannelId) : ChanM C (Option (LinkItem C)) := do
  let ch ← getChannel c
  match ch.requests.getLast? with
  | none => pure none
  | some last => do
    modifyChannel c fun ch => { ch with requests := ch.requests.dropLast }
    pure (some last)

/-- `LinkedList::append_back` of the queue of another channel. -/
def appendBack (c other : ChannelId) : ChanM C Unit := do
  let otherCh ← getChannel other
  modifyChannel c fun ch => { ch with requests := ch.requests ++ otherCh.requests }
  modifyChannel other fun ch => { ch with requests := [] }

/-- Take the waker out of the state of a channel. -/
def takeWaker (c : ChannelId) : ChanM C (Option Waker) := do
  let ch ← getChannel c
  modifyChannel c fun ch => { ch with waker := none }
  pure ch.waker

/-- `LinkItem::into_item`. -/
def LinkItem.intoItem (item : LinkItem C) : ChanM C Unit :=
  match item with
  | .request r => setOwner r .request
  | .event _ => pure ()

/-- Drop an `Item`. -/
def LinkItem.drop (item : LinkItem C) : ChanM C Unit :=
  match item with
  | .request r => dropRequest r
  | .event _ => pure ()

/-- A request that is taken out of a queue has no parent any more. -/
def LinkItem.takeParent (item : LinkItem C) : ChanM C Unit :=
  match item with
  | .request r => do
    let _ ← SharedRequest.takeParent r
    pure ()
  | .event _ => pure ()

/-! ## Sending -/

/-- `Sender::send`, from where it has the lock of `channel` on. -/
def sendLocked (this channel : ChannelId) (req : RequestId) : ChanM C Unit := do
  setOwner req .channel
  pushBack channel (.request req)
  SharedRequest.setParent req this
  let reqShared ← getRequest req
  if reqShared.isFinished then do
    let last ← popBack channel
    let last ← Prog.unwrap last
    last.intoItem
    last.drop
    let _ ← SharedRequest.takeParent req
    pure ()
  else do
    let waker ← takeWaker channel
    wake waker

/-- `Sender::send`: the error with which the request is given back. -/
def send (self : Sender) (req : RequestId) : ChanM C (Except (Option C.Error) Unit) := do
  let locked ← resolveAndLock self.shared
  match locked with
  | .error .dropped => pure (.error none)
  | .error (.error err) => pure (.error (some err))
  | .ok (this, channel) => do
    sendLocked this channel req
    pure (.ok ())

/-- `Sender::send_event`, from where it has the lock of `channel` on. -/
def sendEventLocked (channel : ChannelId) (event : C.Event) : ChanM C Unit := do
  pushBack channel (.event event)
  let waker ← takeWaker channel
  wake waker

/-- `Sender::send_event`: the error with which the event is given back. -/
def sendEvent (self : Sender) (event : C.Event) : ChanM C (Except (Option C.Error) Unit) := do
  let locked ← resolveAndLock self.shared
  match locked with
  | .error .dropped => pure (.error none)
  | .error (.error err) => pure (.error (some err))
  | .ok (_, channel) => do
    sendEventLocked channel event
    pure (.ok ())

/-! ## Receiving -/

/-- `Receiver::is_closed`. -/
def SharedChannel.isClosed (self : SharedChannel C) : Bool := self.state.isRecvClosed

/-- `Receiver::poll_closed`. -/
def pollClosed (c : ChannelId) (waker : Waker) : ChanM C (Poll Unit) := closedTaskPoll c waker

/-- `Receiver::poll_recv`. -/
def pollRecv (c : ChannelId) (waker : Waker) : ChanM C (Poll (Option (LinkItem C))) := do
  let ch ← getChannel c
  if ch.isClosed then pure (.ready none)
  else do
    let next ← popFront c
    match next with
    | some n => do
      n.takeParent
      n.intoItem
      pure (.ready (some n))
    | none => do
      -- the waker is replaced when it would wake another task
      modifyChannel c fun ch => { ch with waker := some waker }
      pure .pending

/-- `Receiver::try_recv`. -/
def tryRecv (c : ChannelId) : ChanM C (Option (LinkItem C)) := do
  let link ← popFront c
  match link with
  | none => pure none
  | some link => do
    link.intoItem
    pure (some link)

/-! ## Closing -/

/-- The answer to an item of a channel that was closed. -/
def LinkItem.respondWithErr (err : C.Error) (item : LinkItem C) : ChanM C Unit :=
  match item with
  | .request r => do
    let _ ← respond r
    Responder.respond r (C.intoResults err)
  | .event _ => pure ()

/-- Answer items in order. -/
def respondAll (err : C.Error) : List (LinkItem C) → ChanM C Unit
  | [] => pure ()
  | item :: items => do
    item.respondWithErr err
    respondAll err items

/-- The capacity of the array of requests in `Receiver::close`. -/
def batchSize : ℕ := 32

/-- Take so many items out of the queue to close the channel, if there are as many. -/
def closeBatch (c : ChannelId) : ℕ → ChanM C (List (LinkItem C))
  | 0 => pure []
  | room + 1 => do
    let item ← popFront c
    match item with
    | none => pure []
    | some item => do
      item.takeParent
      item.intoItem
      let items ← closeBatch c room
      pure (item :: items)

/-- The loop of `Receiver::close`, for so many rounds: a batch is answered without the lock, from
its end on (`ArrayVec::for_each`), and the last batch is not full. -/
def closeLoop (c : ChannelId) (err : C.Error) : ℕ → ChanM C Unit
  | 0 => Prog.halt .depth
  | rounds + 1 => do
    let items ← closeBatch c batchSize
    respondAll err items.reverse
    if items.length < batchSize then pure ()
    else closeLoop c err rounds

/-- `Receiver::close`, up to its loop. -/
def closeLocked (c : ChannelId) (err : C.Error) : ChanM C Unit := do
  let _ ← takeWaker c
  resolve c (.error err)

/-- `Receiver::close`. -/
def close (c : ChannelId) (err : C.Error) : ChanM C Unit := do
  closeLocked c err
  let ch ← getChannel c
  closeLoop c err (ch.requests.length + 1)
  dropReceiver c

/-! ## Forwarding -/

/-- `Receiver::forward_to`, when the other channel has ended. -/
def forwardEnded (self : ChannelId) (resolution : MostResolved C) : ChanM C Unit :=
  match resolution with
  | .dropped => dropReceiver self
  | .error err => close self err

/-- `Receiver::forward_to`, from where it has the locks of both channels and has found `other` to
be the most resolved one. -/
def forwardLocked (self otherShared other : ChannelId) : ChanM C Unit := do
  let sender ← Sender.clone ⟨other⟩
  resolve self (.forward sender)
  let ch ← getChannel self
  let _ ← (if ch.requests.isEmpty then pure ()
    else do
      appendBack otherShared self
      let waker ← takeWaker otherShared
      wake waker)
  dropReceiver self

/-- `Receiver::forward_to`: whether the receiver is used up, else it is given back. -/
def forwardTo (self : ChannelId) (other : Sender) : ChanM C Bool := do
  let (otherShared, resolution) ← mostResolved other.shared
  match resolution with
  | some r => do
    forwardEnded self r
    pure true
  | none =>
    if self = otherShared then pure false
    else do
      let (other, resolution) ← mostResolved other.shared
      match resolution with
      | some r => do
        forwardEnded self r
        pure true
      | none => do
        forwardLocked self otherShared other
        pure true

end Recapn.Channel

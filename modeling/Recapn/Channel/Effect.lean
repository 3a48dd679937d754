/-
# What the functions do to books and queues

Most functions leave the books of the world or the queues of its channels as they are, or both.
For the others it is said here what they do to them.
-/
import Recapn.Channel.Books

namespace Recapn.Channel

open Recapn.Lib Recapn.Lib.Prog

variable {C : Chan}

/-- The queues of the channels. -/
def World.queues (w : World C) (c : ChannelId) : List (LinkItem C) := (w.channel c).requests

/-- The books and the queues. -/
def World.core (w : World C) : Books C × (ChannelId → List (LinkItem C)) := (w.books, w.queues)

section Core

variable {α : Type} {x : ChanM C α}

lemma fixes_books (h : Prog.Fixes World.core x) : Prog.Fixes World.books x := h.comp Prod.fst

lemma fixes_queues (h : Prog.Fixes World.core x) : Prog.Fixes World.queues x := h.comp Prod.snd

end Core

/-! ## Functions that leave both -/

section Reads

variable {δ : Type} {view : World C → δ}

lemma fixes_getChannel (c : ChannelId) : Prog.Fixes view (getChannel c : ChanM C _) := fun _ => rfl

lemma fixes_getRequest (r : RequestId) : Prog.Fixes view (getRequest r : ChanM C _) := fun _ => rfl

lemma fixes_mostResolved (c : ChannelId) : Prog.Fixes view (mostResolved c : ChanM C _) := by
  intro w
  unfold mostResolved
  rcases w.mostResolved (w.channels + 1) c with _ | result
  · trivial
  · rfl

lemma fixes_mostUnresolved (c : ChannelId) : Prog.Fixes view (mostUnresolved c : ChanM C _) := by
  intro w
  unfold mostUnresolved
  rcases w.mostUnresolved (w.channels + 1) c with _ | result
  · trivial
  · rfl

lemma fixes_resolveAndLock (c : ChannelId) : Prog.Fixes view (resolveAndLock c : ChanM C _) := by
  refine fixes_bind (fixes_mostResolved c) fun result => ?_
  obtain ⟨this, resolution⟩ := result
  rcases resolution with _ | res
  · refine fixes_bind (fixes_mostResolved this) fun result => ?_
    obtain ⟨this, resolution⟩ := result
    rcases resolution with _ | res
    · exact fixes_pure _
    · exact fixes_pure _
  · exact fixes_pure _

lemma fixes_getSender (s : SenderId) : Prog.Fixes view (getSender s : ChanM C _) :=
  fixes_bind fixes_get fun _ => fixes_unwrap _

lemma fixes_getTracker (t : TrackerId) : Prog.Fixes view (getTracker t : ChanM C _) :=
  fixes_bind fixes_get fun _ => fixes_unwrap _

end Reads

section Channel

variable {c : ChannelId} {f : SharedChannel C → SharedChannel C}

lemma books_modifyChannel (w : World C) (c : ChannelId) (f : SharedChannel C → SharedChannel C) :
    (w.modifyChannel c f).books = w.books.set c (f (w.channel c)).account := by
  have haccount : (fun d => ((w.modifyChannel c f).channel d).account)
      = Function.update (fun d => (w.channel d).account) c (f (w.channel c)).account := by
    funext d
    by_cases hd : d = c
    · rw [hd, Function.update_self, World.channel_modifyChannel_self]
    · rw [Function.update_of_ne hd, World.channel_modifyChannel_of_ne w f hd]
  unfold World.books Books.set
  rw [haccount]
  rfl

lemma queues_modifyChannel (w : World C) (c : ChannelId) (f : SharedChannel C → SharedChannel C) :
    (w.modifyChannel c f).queues = Function.update w.queues c (f (w.channel c)).requests := by
  funext d
  unfold World.queues
  by_cases hd : d = c
  · rw [hd, Function.update_self, World.channel_modifyChannel_self]
  · rw [Function.update_of_ne hd, World.channel_modifyChannel_of_ne w f hd]

lemma Books.set_account (b : Books C) (c : ChannelId) : b.set c (b.account c) = b := by
  unfold Books.set
  rw [Function.update_eq_self]

lemma fixes_books_modifyChannel (h : ∀ ch, (f ch).account = ch.account) :
    Prog.Fixes World.books (modifyChannel c f) := by
  refine fixes_modify fun w => ?_
  rw [books_modifyChannel, h]
  exact w.books.set_account c

lemma fixes_queues_modifyChannel (h : ∀ ch, (f ch).requests = ch.requests) :
    Prog.Fixes World.queues (modifyChannel c f) := by
  refine fixes_modify fun w => ?_
  rw [queues_modifyChannel, h]
  exact Function.update_eq_self c w.queues

lemma fixes_core_modifyChannel (h : ∀ ch, (f ch).account = ch.account)
    (hrequests : ∀ ch, (f ch).requests = ch.requests) :
    Prog.Fixes World.core (modifyChannel c f) :=
  fun w => Prod.ext (fixes_books_modifyChannel h w) (fixes_queues_modifyChannel hrequests w)

end Channel

lemma fixes_core_modifyRequest {r : RequestId} {f : SharedRequest C → SharedRequest C}
    (h : ∀ req, (f req).pipelineMap = req.pipelineMap) :
    Prog.Fixes World.core (modifyRequest r f) := by
  refine fixes_modify fun w => Prod.ext ?_ rfl
  show (w.modifyRequest r f).books = w.books
  unfold World.books
  congr 1
  funext r'
  by_cases hr : r' = r
  · rw [hr, World.request_modifyRequest_self, h]
  · rw [World.request_modifyRequest_of_ne w f hr]

lemma fixes_wake (waker : Option Waker) : Prog.Fixes World.core (wake waker : ChanM C Unit) :=
  fixes_modify fun _ => rfl

lemma fixes_closedTaskPoll (c : ChannelId) (waker : Waker) :
    Prog.Fixes World.core (closedTaskPoll c waker : ChanM C _) := by
  refine fixes_bind (fixes_getChannel c) fun ch => ?_
  refine fixes_ite (fixes_pure _) ?_
  refine fixes_bind (fixes_ite ?_ (fixes_pure _)) fun _ => ?_
  · exact fixes_core_modifyChannel (fun _ => rfl) fun _ => rfl
  · refine fixes_bind (fixes_getChannel c) fun ch => ?_
    refine fixes_ite (fixes_pure _) ?_
    refine fixes_bind ?_ fun _ => fixes_pure _
    exact fixes_core_modifyChannel (fun _ => rfl) fun _ => rfl

section Request

variable (r : RequestId)

lemma fixes_setOwner (owner : Owner) : Prog.Fixes World.core (setOwner r owner : ChanM C Unit) :=
  fixes_core_modifyRequest fun _ => rfl

lemma fixes_sharedDropRequest :
    Prog.Fixes World.core (SharedRequest.dropRequest r : ChanM C Unit) := by
  refine fixes_bind (fixes_getRequest r) fun req => ?_
  rcases req.request with params | _ | _
  · exact fixes_core_modifyRequest fun _ => rfl
  · exact fixes_halt _
  · exact fixes_halt _

lemma fixes_takeRequest : Prog.Fixes World.core (SharedRequest.takeRequest r : ChanM C _) := by
  refine fixes_bind (fixes_getRequest r) fun req => ?_
  rcases req.request with params | _ | _
  · exact fixes_bind (fixes_core_modifyRequest fun _ => rfl) fun _ => fixes_pure _
  · exact fixes_halt _
  · exact fixes_halt _

lemma fixes_closeSender : Prog.Fixes World.core (SharedRequest.closeSender r : ChanM C Unit) :=
  fixes_core_modifyRequest fun _ => rfl

lemma fixes_setParent (parent : ChannelId) :
    Prog.Fixes World.core (SharedRequest.setParent r parent : ChanM C Unit) :=
  fixes_core_modifyRequest fun _ => rfl

lemma fixes_takeParent : Prog.Fixes World.core (SharedRequest.takeParent r : ChanM C _) := by
  refine fixes_bind (fixes_getRequest r) fun req => ?_
  exact fixes_bind (fixes_core_modifyRequest fun _ => rfl) fun _ => fixes_pure _

lemma fixes_tryRemoveFromChannel :
    Prog.Fixes World.core (SharedRequest.tryRemoveFromChannel r : ChanM C Unit) := by
  refine fixes_bind (fixes_getRequest r) fun req => ?_
  rcases req.parent with _ | parent
  · exact fixes_pure _
  · refine fixes_bind (fixes_mostUnresolved parent) fun result => ?_
    rcases result with _ | _
    · exact fixes_pure _
    · exact fixes_halt _

lemma fixes_addReceiver : Prog.Fixes World.core (SharedRequest.addReceiver r : ChanM C Unit) := by
  refine fixes_bind (fixes_getRequest r) fun req => ?_
  exact fixes_ite (fixes_halt _) (fixes_core_modifyRequest fun _ => rfl)

lemma fixes_removeReceiver :
    Prog.Fixes World.core (SharedRequest.removeReceiver r : ChanM C Unit) := by
  refine fixes_bind (fixes_getRequest r) fun req => ?_
  refine fixes_bind (fixes_core_modifyRequest fun _ => rfl) fun _ => ?_
  refine fixes_ite ?_ (fixes_pure _)
  exact fixes_bind (fixes_core_modifyRequest fun _ => rfl) fun _ =>
    fixes_tryRemoveFromChannel r

lemma fixes_sharedDropReceiver (parent : Option RequestId) :
    Prog.Fixes World.core (SharedRequest.dropReceiver parent : ChanM C Unit) := by
  rcases parent with _ | r
  · exact fixes_pure _
  · exact fixes_removeReceiver r

lemma fixes_dropRequest : Prog.Fixes World.core (dropRequest r : ChanM C Unit) := by
  refine fixes_bind (fixes_setOwner r _) fun _ => ?_
  exact fixes_bind (fixes_sharedDropRequest r) fun _ => fixes_closeSender r

lemma fixes_respond : Prog.Fixes World.core (respond r : ChanM C _) := by
  refine fixes_bind (fixes_takeRequest r) fun params => ?_
  exact fixes_bind (fixes_setOwner r _) fun _ => fixes_pure _

lemma fixes_tailCall (msg : C.Parameters) : Prog.Fixes World.core (Responder.tailCall r msg) :=
  fixes_core_modifyRequest fun _ => rfl

lemma fixes_dropResponder : Prog.Fixes World.core (dropResponder r : ChanM C Unit) :=
  fixes_bind (fixes_setOwner r _) fun _ => fixes_closeSender r

lemma fixes_resultsSenderRespond (resp : C.Results) :
    Prog.Fixes World.core (ResultsSender.respond r resp) :=
  fixes_bind (fixes_setOwner r _) fun _ => fixes_core_modifyRequest fun _ => rfl

end Request

section Item

variable (item : LinkItem C)

lemma fixes_intoItem : Prog.Fixes World.core item.intoItem := by
  rcases item with r | event
  · exact fixes_setOwner r _
  · exact fixes_pure _

lemma fixes_itemDrop : Prog.Fixes World.core item.drop := by
  rcases item with r | event
  · exact fixes_dropRequest r
  · exact fixes_pure _

lemma fixes_itemTakeParent : Prog.Fixes World.core item.takeParent := by
  rcases item with r | event
  · exact fixes_bind (fixes_takeParent r) fun _ => fixes_pure _
  · exact fixes_pure _

end Item

lemma fixes_takeWaker (c : ChannelId) : Prog.Fixes World.core (takeWaker c : ChanM C _) := by
  refine fixes_bind (fixes_getChannel c) fun ch => ?_
  refine fixes_bind ?_ fun _ => fixes_pure _
  exact fixes_core_modifyChannel (fun _ => rfl) fun _ => rfl

/-! ## Functions that leave the books -/

lemma fixes_books_pushBack (c : ChannelId) (item : LinkItem C) :
    Prog.Fixes World.books (pushBack c item) :=
  fixes_books_modifyChannel fun _ => rfl

lemma fixes_books_popFront (c : ChannelId) : Prog.Fixes World.books (popFront c : ChanM C _) := by
  refine fixes_bind (fixes_getChannel c) fun ch => ?_
  rcases ch.requests with _ | ⟨first, rest⟩
  · exact fixes_pure _
  · exact fixes_bind (fixes_books_modifyChannel fun _ => rfl) fun _ => fixes_pure _

lemma fixes_books_popBack (c : ChannelId) : Prog.Fixes World.books (popBack c : ChanM C _) := by
  refine fixes_bind (fixes_getChannel c) fun ch => ?_
  rcases ch.requests.getLast? with _ | last
  · exact fixes_pure _
  · exact fixes_bind (fixes_books_modifyChannel fun _ => rfl) fun _ => fixes_pure _

lemma fixes_books_appendBack (c other : ChannelId) :
    Prog.Fixes World.books (appendBack c other : ChanM C _) := by
  refine fixes_bind (fixes_getChannel other) fun ch => ?_
  refine fixes_bind (fixes_books_modifyChannel fun _ => rfl) fun _ => ?_
  exact fixes_books_modifyChannel fun _ => rfl

lemma fixes_books_sendLocked (this channel : ChannelId) (req : RequestId) :
    Prog.Fixes World.books (sendLocked this channel req : ChanM C Unit) := by
  refine fixes_bind (fixes_books (fixes_setOwner req _)) fun _ => ?_
  refine fixes_bind (fixes_books_pushBack channel _) fun _ => ?_
  refine fixes_bind (fixes_books (fixes_setParent req this)) fun _ => ?_
  refine fixes_bind (fixes_getRequest req) fun reqShared => fixes_ite ?_ ?_
  · refine fixes_bind (fixes_books_popBack channel) fun last => ?_
    refine fixes_bind (fixes_unwrap last) fun last => ?_
    refine fixes_bind (fixes_books (fixes_intoItem last)) fun _ => ?_
    refine fixes_bind (fixes_books (fixes_itemDrop last)) fun _ => ?_
    exact fixes_bind (fixes_books (fixes_takeParent req)) fun _ => fixes_pure _
  · exact fixes_bind (fixes_books (fixes_takeWaker channel)) fun waker =>
      fixes_books (fixes_wake waker)

lemma fixes_books_sendEventLocked (channel : ChannelId) (event : C.Event) :
    Prog.Fixes World.books (sendEventLocked channel event) := by
  refine fixes_bind (fixes_books_pushBack channel _) fun _ => ?_
  exact fixes_bind (fixes_books (fixes_takeWaker channel)) fun waker =>
    fixes_books (fixes_wake waker)

lemma fixes_books_send (self : Sender) (req : RequestId) :
    Prog.Fixes World.books (send self req : ChanM C _) := by
  refine fixes_bind (fixes_resolveAndLock _) fun locked => ?_
  rcases locked with (_ | err) | ⟨this, channel⟩
  · exact fixes_pure _
  · exact fixes_pure _
  · exact fixes_bind (fixes_books_sendLocked this channel req) fun _ => fixes_pure _

lemma fixes_books_sendEvent (self : Sender) (event : C.Event) :
    Prog.Fixes World.books (sendEvent self event) := by
  refine fixes_bind (fixes_resolveAndLock _) fun locked => ?_
  rcases locked with (_ | err) | ⟨this, channel⟩
  · exact fixes_pure _
  · exact fixes_pure _
  · exact fixes_bind (fixes_books_sendEventLocked channel event) fun _ => fixes_pure _

lemma fixes_books_pollRecv (c : ChannelId) (waker : Waker) :
    Prog.Fixes World.books (pollRecv c waker : ChanM C _) := by
  refine fixes_bind (fixes_getChannel c) fun ch => fixes_ite (fixes_pure _) ?_
  refine fixes_bind (fixes_books_popFront c) fun next => ?_
  rcases next with _ | n
  · exact fixes_bind (fixes_books_modifyChannel fun _ => rfl) fun _ => fixes_pure _
  · refine fixes_bind (fixes_books (fixes_itemTakeParent n)) fun _ => ?_
    exact fixes_bind (fixes_books (fixes_intoItem n)) fun _ => fixes_pure _

lemma fixes_books_tryRecv (c : ChannelId) : Prog.Fixes World.books (tryRecv c : ChanM C _) := by
  refine fixes_bind (fixes_books_popFront c) fun link => ?_
  rcases link with _ | link
  · exact fixes_pure _
  · exact fixes_bind (fixes_books (fixes_intoItem link)) fun _ => fixes_pure _

/-! ## Calls that leave both -/

/-- The call leaves the books and the queues. -/
def Call.LeavesCore : Call C → Prop
  | pollClosed _ _ | dropRequest _ | respond _ | tailCall _ _ | dropResponder _
  | resultsSenderRespond _ _ | dropResultsSender _ | cloneTracker _ | dropTracker _ => True
  | _ => False

lemma fixes_exec {call : Call C} (h : call.LeavesCore) : Prog.Fixes World.core call.exec := by
  cases call with
  | pollClosed c waker =>
    exact fixes_bind (fixes_closedTaskPoll c waker) fun _ => fixes_pure _
  | dropRequest r => exact fixes_bind (fixes_dropRequest r) fun _ => fixes_pure _
  | respond r => exact fixes_bind (fixes_respond r) fun _ => fixes_pure _
  | tailCall r msg => exact fixes_bind (fixes_tailCall r msg) fun _ => fixes_pure _
  | dropResponder r | dropResultsSender r =>
    exact fixes_bind (fixes_dropResponder r) fun _ => fixes_pure _
  | resultsSenderRespond r resp =>
    exact fixes_bind (fixes_resultsSenderRespond r resp) fun _ => fixes_pure _
  | cloneTracker t =>
    refine fixes_bind (fixes_getTracker t) fun r => ?_
    refine fixes_bind (fixes_addReceiver r) fun _ => ?_
    exact fixes_bind (fixes_modify fun _ => rfl) fun _ => fixes_pure _
  | dropTracker t =>
    refine fixes_bind (fixes_getTracker t) fun r => ?_
    refine fixes_bind (fixes_modify fun _ => rfl) fun _ => ?_
    exact fixes_bind (fixes_removeReceiver r) fun _ => fixes_pure _
  | _ => exact h.elim

end Recapn.Channel

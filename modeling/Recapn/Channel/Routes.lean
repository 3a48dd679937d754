/-
# What waits, and where senders lead

A sender leads along the forwards to a channel, and items wait in the queues.  Most functions change
neither.  Sending puts an item at the end of one queue, receiving takes the first item out of one,
and forwarding hands one queue on.
-/
import Recapn.Channel.Balance

namespace Recapn.Channel

open Recapn.Lib Recapn.Lib.Prog

variable {C : Chan} {c d : ChannelId}

/-- What the channels have come to, what waits in them, and the senders that the program holds. -/
structure Routes (C : Chan) where
  channels : ℕ
  senders : List SenderHandle
  resolved : ChannelId → Option (Resolution C)
  queues : ChannelId → List (LinkItem C)

/-- The routes of a world. -/
def World.routes (w : World C) : Routes C := ⟨w.channels, w.senders, w.tryResolved, w.queues⟩

/-- What a channel has come to, by its account. -/
def Account.resolved (self : Account C) : Option (Resolution C) :=
  SharedChannel.tryResolved { SharedChannel.new none with
    state := ⟨self.isSet, self.isSendClosed, false, false, false⟩, value := self.value }

lemma Account.Unresolved.resolved {self : Account C} (h : self.Unresolved) : self.resolved = none := by
  obtain ⟨hset, hclosed⟩ := h
  unfold Account.resolved SharedChannel.tryResolved StateFlags.state
  rw [hset, hclosed]
  rfl

lemma World.tryResolved_eq (w : World C) : w.tryResolved = fun c => (w.books.account c).resolved := rfl

lemma tryResolved_of_books {w w' : World C} (h : w'.books = w.books) :
    w'.tryResolved = w.tryResolved := by
  rw [World.tryResolved_eq, World.tryResolved_eq, h]

lemma next_of_tryResolved {w w' : World C} (h : w'.tryResolved = w.tryResolved) :
    w'.next = w.next := by
  funext c
  unfold World.next
  rw [h]

lemma next_of_forwarded {w w' : World C} {r : ChannelId}
    (h : w'.tryResolved = Function.update w.tryResolved c (some (.forwarded ⟨r⟩))) :
    w'.next = Function.update w.next c (some r) := by
  funext d
  unfold World.next
  rw [h]
  by_cases hd : d = c
  · rw [hd, Function.update_self, Function.update_self]
  · rw [Function.update_of_ne hd, Function.update_of_ne hd]

lemma routes_of_books {w w' : World C} (hbooks : w'.books = w.books) (hqueues : w'.queues = w.queues) :
    w'.routes = w.routes := by
  unfold World.routes
  rw [tryResolved_of_books hbooks, hqueues]
  have hchannels : w'.channels = w.channels := congrArg Books.channels hbooks
  have hsenders : w'.senders = w.senders := congrArg Books.senders hbooks
  rw [hchannels, hsenders]

/-! ## Functions that change neither -/

section Fixes

variable {α : Type} {x : ChanM C α}

lemma fixes_routes (h : Prog.Fixes World.core x) : Prog.Fixes World.routes x :=
  h.comp fun core : Books C × (ChannelId → List (LinkItem C)) =>
    (⟨core.1.channels, core.1.senders, fun c => (core.1.account c).resolved, core.2⟩ : Routes C)

lemma fixes_routes_modifyChannel {f : SharedChannel C → SharedChannel C}
    (h : ∀ ch, (f ch).tryResolved = ch.tryResolved)
    (hrequests : ∀ ch, (f ch).requests = ch.requests) :
    Prog.Fixes World.routes (modifyChannel c f) := by
  refine fixes_modify fun w => ?_
  have hresolved : (w.modifyChannel c f).tryResolved = w.tryResolved := by
    funext d
    by_cases hd : d = c
    · rw [hd]
      unfold World.tryResolved
      rw [World.channel_modifyChannel_self, h]
    · unfold World.tryResolved
      rw [World.channel_modifyChannel_of_ne w f hd]
  have hqueues : (w.modifyChannel c f).queues = w.queues := by
    rw [queues_modifyChannel, hrequests]
    exact Function.update_eq_self c w.queues
  show (⟨_, _, _, _⟩ : Routes C) = ⟨_, _, _, _⟩
  rw [hresolved, hqueues]
  rfl

lemma fixes_routes_addSender (c : ChannelId) :
    Prog.Fixes World.routes (addSender c : ChanM C Unit) := by
  refine fixes_bind (fixes_getChannel c) fun ch => ?_
  exact fixes_ite (fixes_halt _) (fixes_routes_modifyChannel (fun _ => rfl) fun _ => rfl)

lemma fixes_routes_closedTaskClose (c : ChannelId) :
    Prog.Fixes World.routes (closedTaskClose c : ChanM C Unit) := by
  refine fixes_bind (fixes_routes_modifyChannel (fun _ => rfl) fun _ => rfl) fun _ => ?_
  refine fixes_bind (fixes_getChannel c) fun ch => ?_
  exact fixes_ite (fixes_routes (fixes_wake _)) (fixes_pure _)

lemma fixes_routes_removeSender (c : ChannelId) :
    Prog.Fixes World.routes (removeSender c : ChanM C Unit) := by
  refine fixes_bind (fixes_getChannel c) fun ch => ?_
  refine fixes_bind (fixes_routes_modifyChannel (fun _ => rfl) fun _ => rfl) fun _ => ?_
  exact fixes_ite (fixes_routes_closedTaskClose c) (fixes_pure _)

lemma fixes_routes_weakUpgrade (weak : ChannelId) :
    Prog.Fixes World.routes (weakUpgrade weak : ChanM C Bool) := by
  refine fixes_bind fixes_get fun w => fixes_ite (fixes_pure _) ?_
  refine fixes_bind (fixes_getChannel weak) fun ch => ?_
  refine fixes_bind (fixes_routes_modifyChannel (fun _ => rfl) fun _ => rfl) fun _ => ?_
  exact fixes_bind (fixes_routes (fixes_sharedDropReceiver _)) fun _ => fixes_pure _

lemma fixes_routes_upgradeAll (map : List (C.PipelineKey × ChannelId)) :
    Prog.Fixes World.routes (upgradeAll map) := by
  induction map with
  | nil => exact fixes_pure _
  | cons entry map ih =>
    refine fixes_bind (fixes_routes_weakUpgrade entry.2) fun upgraded => ?_
    refine fixes_bind ?_ fun _ => ih
    exact fixes_ite (fixes_modify fun _ => rfl) (fixes_pure _)

lemma fixes_routes_modifyRequest (r : RequestId) (f : SharedRequest C → SharedRequest C) :
    Prog.Fixes World.routes (modifyRequest r f) :=
  fixes_modify fun _ => rfl

lemma fixes_routes_newRequest (msg : C.Parameters) (receivers : ℕ) :
    Prog.Fixes World.routes (newRequest msg receivers) :=
  fixes_modify fun _ => rfl

lemma fixes_routes_resolvePipelineMap (r : RequestId) :
    Prog.Fixes World.routes (resolvePipelineMap r : ChanM C Unit) := by
  refine fixes_bind (fixes_getRequest r) fun req => ?_
  refine fixes_bind (fixes_routes_modifyRequest r _) fun _ => ?_
  exact fixes_bind (fixes_routes_upgradeAll _) fun _ => fixes_routes_modifyRequest r _

lemma fixes_routes_responderRespond (r : RequestId) (resp : C.Results) :
    Prog.Fixes World.routes (Responder.respond r resp) := by
  refine fixes_bind (fixes_routes (fixes_setOwner r _)) fun _ => ?_
  exact fixes_bind (fixes_routes_modifyRequest r _) fun _ => fixes_routes_resolvePipelineMap r

lemma fixes_routes_setPipeline (r : RequestId) (dst : C.Pipeline) :
    Prog.Fixes World.routes (Responder.setPipeline r dst) := by
  refine fixes_bind (fixes_routes_modifyRequest r _) fun _ => ?_
  refine fixes_bind (fixes_getRequest r) fun req => ?_
  refine fixes_bind (fixes_require _) fun _ => ?_
  refine fixes_bind (fixes_routes_resolvePipelineMap r) fun _ => ?_
  exact fixes_routes (fixes_setOwner r _)

lemma fixes_routes_freeChannel (c : ChannelId) :
    Prog.Fixes World.routes (freeChannel c : ChanM C Unit) := by
  refine fixes_bind (fixes_getChannel c) fun ch => ?_
  refine fixes_bind (fixes_modify fun _ => rfl) fun _ => ?_
  refine fixes_bind (fixes_routes (fixes_sharedDropReceiver _)) fun _ => ?_
  rcases ch.held with _ | sender
  · exact fixes_pure _
  · exact fixes_routes_removeSender _

end Fixes

/-! ## Sending and receiving -/

section Queues

variable {w w' : World C} {u : Unit}

lemma popFront_ok {out : Option (LinkItem C)} (h : popFront c w = .ok out w') :
    (out = none ∧ w' = w ∧ w.queues c = []) ∨
      ∃ item rest, out = some item ∧ w.queues c = item :: rest ∧
        w'.queues = Function.update w.queues c rest := by
  have hrest := of_bind rfl h
  rcases hqueue : (w.channel c).requests with _ | ⟨first, rest⟩
  · rw [hqueue] at hrest
    cases hrest
    exact Or.inl ⟨rfl, rfl, hqueue⟩
  · rw [hqueue] at hrest
    have hpure := of_bind rfl hrest
    cases hpure
    exact Or.inr ⟨first, rest, rfl, hqueue, queues_modifyChannel w c _⟩

/-- The first item is taken out of the queue of a channel. -/
structure Takes (c : ChannelId) (item : LinkItem C) (rest : List (LinkItem C)) (w w' : World C) :
    Prop where
  queue : w.queues c = item :: rest
  steps : ∃ w₁ w₂, popFront c w = .ok (some item) w₁ ∧
    w₁.queues = Function.update w.queues c rest ∧ item.takeParent w₁ = .ok () w₂ ∧
    item.intoItem w₂ = .ok () w'

section Takes

variable {item : LinkItem C} {rest items : List (LinkItem C)}

lemma Takes.queues (h : Takes c item rest w w') : w'.queues = Function.update w.queues c rest := by
  obtain ⟨w₁, w₂, -, hqueues, htake, hinto⟩ := h.steps
  rw [(fixes_queues (fixes_intoItem item)).ok hinto,
    (fixes_queues (fixes_itemTakeParent item)).ok htake, hqueues]

lemma Takes.books (h : Takes c item rest w w') : w'.books = w.books := by
  obtain ⟨w₁, w₂, hpop, -, htake, hinto⟩ := h.steps
  rw [(fixes_books (fixes_intoItem item)).ok hinto, (fixes_books (fixes_itemTakeParent item)).ok htake,
    (fixes_books_popFront c).ok hpop]

lemma pollRecv_cases {waker : Waker} {out : Poll (Option (LinkItem C))}
    (h : pollRecv c waker w = .ok out w') :
    (out = .ready none ∧ w' = w) ∨
      (out = .pending ∧ w' = w.modifyChannel c fun ch => { ch with waker := some waker }) ∨
      ∃ item rest, out = .ready (some item) ∧ Takes c item rest w w' := by
  have hrest := of_bind rfl h
  rcases ite_eq_ok.1 hrest with ⟨-, hpure⟩ | ⟨-, hrest⟩
  · cases hpure
    exact Or.inl ⟨rfl, rfl⟩
  · obtain ⟨next, w₁, hpop, hrest'⟩ := bind_eq_ok.1 hrest
    rcases popFront_ok hpop with ⟨rfl, rfl, -⟩ | ⟨item, rest, rfl, hqueue, hqueues⟩
    · cases hrest'
      exact Or.inr (Or.inl ⟨rfl, rfl⟩)
    · obtain ⟨_, w₂, htake, hrest''⟩ := bind_eq_ok.1 hrest'
      obtain ⟨_, hinto, rfl⟩ := bind_pure_ok hrest''
      exact Or.inr (Or.inr ⟨item, rest, rfl, hqueue, w₁, w₂, hpop, hqueues, htake, hinto⟩)

/-- A batch ends where the queue does, or goes on behind the first item. -/
lemma closeBatch_succ {room : ℕ} (h : closeBatch c (room + 1) w = .ok items w') :
    (items = [] ∧ w' = w ∧ w.queues c = []) ∨ ∃ item rest w₁ items', items = item :: items' ∧
      Takes c item rest w w₁ ∧ closeBatch c room w₁ = .ok items' w' := by
  obtain ⟨item, w₁, hpop, hrest⟩ := bind_eq_ok.1 h
  rcases popFront_ok hpop with ⟨rfl, rfl, hqueue⟩ | ⟨item, rest, rfl, hqueue, hqueues⟩
  · cases hrest
    exact Or.inl ⟨rfl, rfl, hqueue⟩
  · obtain ⟨_, w₂, htake, hrest'⟩ := bind_eq_ok.1 hrest
    obtain ⟨_, w₃, hinto, hrest''⟩ := bind_eq_ok.1 hrest'
    obtain ⟨items', hmore, rfl⟩ := bind_pure_ok hrest''
    exact Or.inr ⟨item, rest, w₃, items', rfl, ⟨hqueue, w₁, w₂, hpop, hqueues, htake, hinto⟩, hmore⟩

end Takes

/-- The item that was pushed is popped again. -/
lemma popBack_ok {out : Option (LinkItem C)} {items : List (LinkItem C)} {item : LinkItem C}
    (hqueue : w.queues c = items ++ [item]) (h : popBack c w = .ok out w') :
    out = some item ∧ w'.queues = Function.update w.queues c items := by
  have hrest := of_bind rfl h
  have hrequests : (w.channel c).requests = items ++ [item] := hqueue
  rw [hrequests, List.getLast?_concat] at hrest
  have hpure := of_bind rfl hrest
  cases hpure
  refine ⟨rfl, ?_⟩
  rw [queues_modifyChannel, hrequests, List.dropLast_concat]

lemma fixes_isFinished (r : RequestId) {r' : RequestId} {f : SharedRequest C → SharedRequest C}
    (h : ∀ req, (f req).state = req.state) :
    Prog.Fixes (fun w : World C => (w.request r).isFinished) (modifyRequest r' f) := by
  refine fixes_modify fun w => ?_
  unfold SharedRequest.isFinished
  by_cases hr : r = r'
  · rw [hr, World.request_modifyRequest_self, h]
  · rw [World.request_modifyRequest_of_ne w f hr]

/-- The request is pushed, and popped again when it is finished. -/
lemma sendLocked_cases {this channel : ChannelId} {req : RequestId}
    (h : sendLocked this channel req w = .ok u w') :
    ∃ w₁ w₂ w₃, setOwner req .channel w = .ok () w₁ ∧ pushBack channel (.request req) w₁ = .ok () w₂ ∧
      SharedRequest.setParent req this w₂ = .ok () w₃ ∧
      w₃.queues = Function.update w.queues channel (w.queues channel ++ [.request req]) ∧
      ((w.request req).isFinished = true ∧ (∃ w₄ w₅ w₆ parent,
          popBack channel w₃ = .ok (some (.request req)) w₄ ∧ w₄.queues = w.queues ∧
          setOwner req .request w₄ = .ok () w₅ ∧ dropRequest req w₅ = .ok () w₆ ∧
          SharedRequest.takeParent req w₆ = .ok parent w') ∨
        ¬ (w.request req).isFinished = true ∧ (do
          let waker ← takeWaker channel
          wake waker : ChanM C Unit) w₃ = .ok u w') := by
  obtain ⟨_, w₁, howner, hrest⟩ := bind_eq_ok.1 h
  obtain ⟨_, w₂, hpush, hrest⟩ := bind_eq_ok.1 hrest
  obtain ⟨_, w₃, hparent, hrest⟩ := bind_eq_ok.1 hrest
  have hrest := of_bind rfl hrest
  have hqueues₃ : w₃.queues
      = Function.update w.queues channel (w.queues channel ++ [.request req]) := by
    rw [(fixes_queues (fixes_setParent req this)).ok hparent,
      ← (fixes_queues (fixes_setOwner req .channel)).ok howner]
    cases hpush
    exact queues_modifyChannel w₁ channel _
  have hfinished : (w₃.request req).isFinished = (w.request req).isFinished := by
    have howned : Prog.Fixes (fun w : World C => (w.request req).isFinished)
        (setOwner req .channel : ChanM C Unit) :=
      fixes_isFinished req fun _ => rfl
    have hkept : Prog.Fixes (fun w : World C => (w.request req).isFinished)
        (SharedRequest.setParent req this : ChanM C Unit) :=
      fixes_isFinished req fun _ => rfl
    have hpushed : Prog.Fixes (fun w : World C => (w.request req).isFinished)
        (pushBack channel (.request req) : ChanM C Unit) :=
      fixes_modify fun _ => rfl
    exact (hkept.ok hparent).trans ((hpushed.ok hpush).trans (howned.ok howner))
  rw [hfinished] at hrest
  refine ⟨w₁, w₂, w₃, howner, hpush, hparent, hqueues₃, ?_⟩
  rcases ite_eq_ok.1 hrest with ⟨hfin, hrest⟩ | ⟨hfin, hrest⟩
  · obtain ⟨last, w₄, hpop, hrest⟩ := bind_eq_ok.1 hrest
    have hqueue : w₃.queues channel = w.queues channel ++ [.request req] := by
      rw [hqueues₃, Function.update_self]
    obtain ⟨rfl, hqueues₄⟩ := popBack_ok hqueue hpop
    rw [hqueues₃, Function.update_idem, Function.update_eq_self] at hqueues₄
    obtain ⟨last, _, hunwrap, hrest⟩ := bind_eq_ok.1 hrest
    obtain ⟨hlast, rfl⟩ := unwrap_eq_ok.1 hunwrap
    cases hlast
    -- what was pushed is what is dropped
    obtain ⟨_, w₅, hinto, hrest⟩ := bind_eq_ok.1 hrest
    obtain ⟨_, w₆, hdrop, hrest⟩ := bind_eq_ok.1 hrest
    obtain ⟨parent, htake, rfl⟩ := bind_pure_ok hrest
    exact Or.inl ⟨hfin, w₄, w₅, w₆, parent, hpop, hqueues₄, hinto, hdrop, htake⟩
  · exact Or.inr ⟨hfin, hrest⟩

/-- A request that is sent waits, unless it is finished. -/
lemma sendLocked_queues {this channel : ChannelId} {req : RequestId}
    (h : sendLocked this channel req w = .ok u w') :
    w'.queues = if (w.request req).isFinished then w.queues
      else Function.update w.queues channel (w.queues channel ++ [.request req]) := by
  obtain ⟨w₁, w₂, w₃, -, -, -, hqueues, ⟨hfin, w₄, w₅, w₆, _, -, hqueues₄, hinto, hdrop, htake⟩ |
    ⟨hfin, hwake⟩⟩ := sendLocked_cases h
  · rw [if_pos hfin, (fixes_queues (fixes_takeParent req)).ok htake,
      (fixes_queues (fixes_dropRequest req)).ok hdrop,
      (fixes_queues (fixes_setOwner req .request)).ok hinto, hqueues₄]
  · rw [if_neg hfin]
    have hfixes : Prog.Fixes World.core (do
        let waker ← takeWaker channel
        wake waker : ChanM C Unit) :=
      fixes_bind (fixes_takeWaker channel) fun waker => fixes_wake waker
    rw [(fixes_queues hfixes).ok hwake, hqueues]

lemma sendEventLocked_queues {channel : ChannelId} {event : C.Event}
    (h : sendEventLocked channel event w = .ok u w') :
    w'.queues = Function.update w.queues channel (w.queues channel ++ [.event event]) := by
  obtain ⟨_, w₁, hpush, hrest⟩ := bind_eq_ok.1 h
  have hfixes : Prog.Fixes World.core (do
      let waker ← takeWaker channel
      wake waker : ChanM C Unit) :=
    fixes_bind (fixes_takeWaker channel) fun waker => fixes_wake waker
  rw [(fixes_queues hfixes).ok hrest]
  cases hpush
  exact queues_modifyChannel w channel _

/-- The first item is received, or nothing is. -/
lemma pollRecv_queues {waker : Waker} {out : Poll (Option (LinkItem C))}
    (h : pollRecv c waker w = .ok out w') :
    (w'.queues = w.queues ∧ ∀ item, out ≠ .ready (some item)) ∨
      ∃ item rest, out = .ready (some item) ∧ w.queues c = item :: rest ∧
        w'.queues = Function.update w.queues c rest := by
  rcases pollRecv_cases h with ⟨rfl, rfl⟩ | ⟨rfl, rfl⟩ | ⟨item, rest, rfl, htakes⟩
  · exact Or.inl ⟨rfl, nofun⟩
  · have hfixes : Prog.Fixes World.queues (modifyChannel c fun ch : SharedChannel C =>
        { ch with waker := some waker }) :=
      fixes_queues_modifyChannel fun _ => rfl
    exact Or.inl ⟨hfixes.ok rfl, nofun⟩
  · exact Or.inr ⟨item, rest, rfl, htakes.queue, htakes.queues⟩

lemma tryRecv_queues {out : Option (LinkItem C)} (h : tryRecv c w = .ok out w') :
    (w'.queues = w.queues ∧ out = none) ∨
      ∃ item rest, out = some item ∧ w.queues c = item :: rest ∧
        w'.queues = Function.update w.queues c rest := by
  obtain ⟨link, w₁, hpop, hrest⟩ := bind_eq_ok.1 h
  rcases popFront_ok hpop with ⟨rfl, rfl, -⟩ | ⟨item, rest, rfl, hqueue, hqueues⟩
  · cases hrest
    exact Or.inl ⟨rfl, rfl⟩
  · obtain ⟨_, hinto, rfl⟩ := bind_pure_ok hrest
    refine Or.inr ⟨item, rest, rfl, hqueue, ?_⟩
    rw [(fixes_queues (fixes_intoItem item)).ok hinto, hqueues]

/-- A channel that is forwarded is resolved to the other one. -/
lemma forwardLocked_routes {extra : ChannelId → ℕ} {self otherShared other : ChannelId}
    (hsound : Sound extra w) (h : forwardLocked self otherShared other w = .ok u w') :
    w'.channels = w.channels ∧ w'.senders = w.senders ∧
      w'.tryResolved = Function.update w.tryResolved self (some (.forwarded ⟨other⟩)) := by
  have hbooks := (forwardLocked_ok hsound h).1
  have hchannels : w'.channels = w.channels := congrArg Books.channels hbooks
  have hsenders : w'.senders = w.senders := congrArg Books.senders hbooks
  refine ⟨hchannels, hsenders, ?_⟩
  rw [World.tryResolved_eq, hbooks]
  funext d
  unfold Books.resolve
  by_cases hd : d = self
  · rw [hd, Function.update_self, Books.account_set_self]
    rfl
  · rw [Function.update_of_ne hd, Books.account_set_of_ne _ _ hd, World.tryResolved_eq]
    unfold Books.addSender
    by_cases hother : d = other
    · rw [hother, Books.account_set_self]
      rfl
    · rw [Books.account_set_of_ne _ _ hother]

end Queues

end Recapn.Channel

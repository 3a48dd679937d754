/-
# Items arrive once and in order

While no channel is closed or dropped, the channels are a relay: every sender leads to one channel
that is not resolved, where its items wait.  So every item that was accepted is received once, or
waits in one queue, and the items of one sender are received in the order in which they were sent.
-/
import Recapn.Channel.Closing
import Recapn.Channel.Routes
import Recapn.Lib.Relay

namespace Recapn.Channel

open Recapn.Lib Recapn.Lib.Relay

variable {C : Chan} {extra : ChannelId → ℕ} {c d : ChannelId}

/-- The channel of a sender, which is its channel still when the sender is dropped. -/
def World.place (w : World C) (s : SenderId) : ChannelId :=
  match w.senders[s]? with
  | some handle => handle.sender.shared
  | none => 0

/-! ## Calls that move no item -/

/-- No item is moved, and senders lead to where they led; a new one may lead anywhere. -/
structure World.Rests (w w' : World C) : Prop where
  channels : w.channels ≤ w'.channels
  senders : w.senders.length ≤ w'.senders.length
  resolved : w'.tryResolved = w.tryResolved
  queues : w'.queues = w.queues
  place : w'.place = w.place ∨ ∃ s c, w'.place = Function.update w.place s c ∧
    (w.senders.length ≤ s ∨ ∃ r, Leads w.next c r ∧ Leads w.next (w.place s) r)

/-- The call neither sends, receives nor forwards, and it closes no channel. -/
def Call.Quiet : Call C → Prop
  | broken _ => False
  | send _ _ => False
  | sendEvent _ _ => False
  | forwardTo _ _ => False
  | pollRecv _ _ => False
  | tryRecv _ => False
  | close _ _ => False
  | dropReceiver _ => False
  | _ => True

section Rests

variable {w w' : World C}

lemma place_of_getElem? {s : SenderId} {handle : SenderHandle} (h : w.senders[s]? = some handle) :
    w.place s = handle.sender.shared := by
  rw [World.place, h]

lemma rests_of_routes (h : w'.routes = w.routes) : w.Rests w' where
  channels := Nat.le_of_eq (congrArg Routes.channels h).symm
  senders := Nat.le_of_eq (congrArg (fun r : Routes C => r.senders.length) h).symm
  resolved := congrArg Routes.resolved h
  queues := congrArg Routes.queues h
  place := by
    left
    have hsenders : w'.senders = w.senders := congrArg Routes.senders h
    funext s
    rw [World.place, hsenders]
    rfl

lemma rests_of_fixes {α : Type} {x : ChanM C α} {f : α → Output C} {out : Output C}
    (hx : Prog.Fixes World.routes x) (h : (do let a ← x; pure (f a) : ChanM C _) w = .ok out w') :
    w.Rests w' :=
  rests_of_routes ((Prog.fixes_bind hx fun _ => Prog.fixes_pure _).ok h)

/-- The program gets one more sender. -/
lemma rests_of_append (handle : SenderHandle) (hchannels : w.channels ≤ w'.channels)
    (hsenders : w'.senders = w.senders ++ [handle]) (hresolved : w'.tryResolved = w.tryResolved)
    (hqueues : w'.queues = w.queues) : w.Rests w' where
  channels := hchannels
  senders := by
    rw [hsenders, List.length_append]
    exact Nat.le_add_right _ _
  resolved := hresolved
  queues := hqueues
  place := by
    refine Or.inr ⟨w.senders.length, handle.sender.shared, ?_, Or.inl (Nat.le_refl _)⟩
    funext s
    by_cases hs : s = w.senders.length
    · rw [hs, Function.update_self]
      exact place_of_getElem? (by rw [hsenders, List.getElem?_concat_length])
    · rw [Function.update_of_ne hs]
      unfold World.place
      rw [hsenders]
      rcases Nat.lt_or_gt_of_ne hs with hlt | hgt
      · rw [List.getElem?_append_left hlt]
      · have hge : (w.senders ++ [handle]).length ≤ s := by
          rw [List.length_append, List.length_singleton]
          exact hgt
        rw [List.getElem?_eq_none hge, List.getElem?_eq_none (Nat.le_of_lt hgt)]

/-- A sender of the program is written. -/
lemma rests_of_set {s : SenderId} {handle handle' : SenderHandle}
    (hs : w.senders[s]? = some handle) (hsenders : w'.senders = w.senders.set s handle')
    (hchannels : w'.channels = w.channels) (hresolved : w'.tryResolved = w.tryResolved)
    (hqueues : w'.queues = w.queues)
    (hleads : handle'.sender = handle.sender ∨
      ∃ r, Leads w.next handle'.sender.shared r ∧ Leads w.next handle.sender.shared r) :
    w.Rests w' where
  channels := Nat.le_of_eq hchannels.symm
  senders := by
    rw [hsenders, List.length_set]
  resolved := hresolved
  queues := hqueues
  place := by
    have hplace : w'.place = Function.update w.place s handle'.sender.shared := by
      have hlt : s < w.senders.length := (List.getElem?_eq_some_iff.1 hs).1
      funext s'
      by_cases hs' : s' = s
      · rw [hs', Function.update_self]
        exact place_of_getElem? (by rw [hsenders, List.getElem?_set_self hlt])
      · rw [Function.update_of_ne hs']
        unfold World.place
        rw [hsenders, List.getElem?_set_ne (Ne.symm hs')]
    rcases hleads with hsame | ⟨r, hr, hr'⟩
    · left
      rw [hplace, hsame, ← place_of_getElem? hs, Function.update_eq_self]
    · right
      refine ⟨s, handle'.sender.shared, hplace, Or.inr ⟨r, hr, ?_⟩⟩
      rw [place_of_getElem? hs]
      exact hr'

/-- A new channel is not resolved, and nothing waits in it. -/
lemma routes_addChannel {ch : SharedChannel C} (hsound : Sound extra w)
    (hfresh : w.queues w.channels = []) (hresolved : ch.tryResolved = none)
    (hrequests : ch.requests = []) :
    (w.addChannel ch).tryResolved = w.tryResolved ∧ (w.addChannel ch).queues = w.queues := by
  constructor
  · funext d
    unfold World.tryResolved
    by_cases hd : d = w.channels
    · rw [hd, World.channel_addChannel_self, hresolved]
      exact (hsound.fresh (Nat.le_refl _)).2.1.resolved.symm
    · rw [World.channel_addChannel_of_ne w ch hd]
  · funext d
    unfold World.queues
    by_cases hd : d = w.channels
    · rw [hd, World.channel_addChannel_self, hrequests]
      exact hfresh.symm
    · rw [World.channel_addChannel_of_ne w ch hd]

/-- A pipelined sender is of a channel that is there, or of a new one. -/
lemma build_routes {r : RequestId} {key : C.PipelineKey} {sender : Sender} (hsound : Sound extra w)
    (hfresh : w.queues w.channels = []) (h : build r key w = .ok (some sender) w') :
    w.channels ≤ w'.channels ∧ w'.senders = w.senders ∧ w'.tryResolved = w.tryResolved ∧
      w'.queues = w.queues := by
  rcases build_cases h with ⟨-, hnone, -⟩ | ⟨-, ⟨c, -, -, -, hadd⟩ | ⟨-, hinsert⟩⟩
  · cases hnone
  · have hroutes := (fixes_routes_addSender c).ok hadd
    exact ⟨Nat.le_of_eq (congrArg Routes.channels hroutes).symm, congrArg Routes.senders hroutes,
      congrArg Routes.resolved hroutes, congrArg Routes.queues hroutes⟩
  · obtain ⟨w₁, hadd, -, rfl⟩ := build_insert_eq_ok hinsert
    have hbooks := (fixes_books (fixes_addReceiver r)).ok hadd
    have hqueues := (fixes_queues (fixes_addReceiver r)).ok hadd
    have hchannels : w₁.channels = w.channels := congrArg Books.channels hbooks
    have hsound₁ : Sound extra w₁ := by
      unfold Sound
      rw [hbooks]
      exact hsound
    have hfresh₁ : w₁.queues w₁.channels = [] := by
      rw [hqueues, hchannels]
      exact hfresh
    have hadded : (w₁.addChannel (.new (some r))).tryResolved = w₁.tryResolved ∧
        (w₁.addChannel (.new (some r))).queues = w₁.queues :=
      routes_addChannel hsound₁ hfresh₁ rfl rfl
    obtain ⟨hresolved, hqueues₂⟩ := hadded
    refine ⟨?_, congrArg Books.senders hbooks, ?_, ?_⟩
    · show w.channels ≤ w₁.channels + 1
      rw [hchannels]
      exact Nat.le_succ _
    · exact hresolved.trans (tryResolved_of_books hbooks)
    · exact hqueues₂.trans hqueues

/-- A quiet call moves no item. -/
lemma Call.rests {call : Call C} {out : Output C} (hquiet : call.Quiet) (hsound : Sound extra w)
    (hfresh : w.queues w.channels = []) (h : call.exec w = .ok out w') : w.Rests w' := by
  have hcore : call.LeavesCore → Prog.Fixes World.core call.exec := fixes_exec
  cases call with
  | channel =>
    cases h
    have hadded : (w.addChannel (.new none)).tryResolved = w.tryResolved ∧
        (w.addChannel (.new none)).queues = w.queues :=
      routes_addChannel hsound hfresh rfl rfl
    exact rests_of_append ⟨⟨w.channels⟩, true⟩ (Nat.le_succ _) rfl hadded.1 hadded.2
  | cloneSender s =>
    obtain ⟨self, w₁, -, hadd, rfl⟩ := exec_cloneSender_ok h
    have hroutes := (fixes_routes_addSender self.shared).ok hadd
    have hsenders : w₁.senders = w.senders := congrArg Routes.senders hroutes
    refine rests_of_append ⟨self, true⟩
      (Nat.le_of_eq (congrArg Routes.channels hroutes).symm) ?_ (congrArg Routes.resolved hroutes)
      (congrArg Routes.queues hroutes)
    show w₁.senders ++ [⟨self, true⟩] = _
    rw [hsenders]
  | dropSender s =>
    obtain ⟨self, hs, hdrop⟩ := exec_dropSender_ok h
    have hroutes := (fixes_routes_removeSender self.shared).ok hdrop
    exact rests_of_set hs (congrArg Routes.senders hroutes) (congrArg Routes.channels hroutes)
      (congrArg Routes.resolved hroutes) (congrArg Routes.queues hroutes) (Or.inl rfl)
  | resolveInPlace s =>
    obtain ⟨self, resolved, w₁, hs, hleads, hadd, hdrop⟩ := exec_resolveInPlace_ok h
    have hadded := (fixes_routes_addSender resolved).ok hadd
    have hremoved := (fixes_routes_removeSender self.shared).ok hdrop
    have hsenders : w'.senders = w.senders.set s ⟨⟨resolved⟩, true⟩ := by
      have hsame : w₁.senders = w.senders := congrArg Routes.senders hadded
      rw [← hsame]
      exact congrArg Routes.senders hremoved
    exact rests_of_set hs hsenders
      ((congrArg Routes.channels hremoved).trans (congrArg Routes.channels hadded))
      ((congrArg Routes.resolved hremoved).trans (congrArg Routes.resolved hadded))
      ((congrArg Routes.queues hremoved).trans (congrArg Routes.queues hadded))
      (Or.inr ⟨resolved, hleads.end, hleads⟩)
  | pollClosed _ _ | dropRequest _ | respond _ | tailCall _ _ | dropResponder _
  | resultsSenderRespond _ _ | dropResultsSender _ | cloneTracker _ | dropTracker _ =>
    exact rests_of_routes ((fixes_routes (hcore trivial)).ok h)
  | requestResponse msg | requestPipeline msg | requestResponsePipeline msg =>
    exact rests_of_fixes (fixes_routes_newRequest msg _) h
  | responderRespond r resp => exact rests_of_fixes (fixes_routes_responderRespond r resp) h
  | setPipeline r dst => exact rests_of_fixes (fixes_routes_setPipeline r dst) h
  | build t key =>
    obtain ⟨r, -, ⟨hbuild, -⟩ | ⟨sender, w₁, hbuild, -, rfl⟩⟩ := exec_build_cases h
    · rcases build_ok hsound hbuild with ⟨-, hsame⟩ | ⟨sender, hout, -⟩
      · rw [hsame]
        exact rests_of_routes rfl
      · cases hout
    · obtain ⟨hchannels, hsenders, hresolved, hqueues⟩ := build_routes hsound hfresh hbuild
      refine rests_of_append ⟨sender, true⟩ hchannels ?_ hresolved hqueues
      show w₁.senders ++ [⟨sender, true⟩] = _
      rw [hsenders]
  | freeChannel c => exact rests_of_fixes (fixes_routes_freeChannel c) h
  | freeRequest r => exact rests_of_fixes (fixes_routes_modifyRequest r _) h
  | _ => exact hquiet.elim

end Rests

/-! ## What was sent and received -/

/-- The call neither closes nor drops a channel; one that was forwarded may be deallocated. -/
def Call.Lasting (w : World C) : Call C → Prop
  | broken _ => False
  | close _ _ => False
  | dropReceiver _ => False
  | freeChannel c => w.next c ≠ none
  | _ => True

/-- The item that was accepted, and its sender.  A request that is finished already is dropped. -/
def Step.accepted (step : Step C) : Option (SenderId × LinkItem C) :=
  match step.call, step.output with
  | .send s req, .sent (.ok _) =>
    if (step.before.request req).isFinished then none else some (s, .request req)
  | .sendEvent s event, .sent (.ok _) => some (s, .event event)
  | _, _ => none

/-- The item that was received. -/
def Step.received (step : Step C) : Option (LinkItem C) :=
  match step.call, step.output with
  | .pollRecv _ _, .polled (.ready item) => item
  | .tryRecv _, .received item => item
  | _, _ => none

/-- What was accepted has been received, as `received` says with the senders, or waits, as `queued`
says with the senders, in the one channel where its sender leads, which is not resolved.  For every
sender it is the items that it sent, in their order. -/
structure Delivered (steps : List (Step C)) (w : World C) (received : List (SenderId × LinkItem C))
    (queued : ChannelId → List (SenderId × LinkItem C)) : Prop where
  arrived : received.map Prod.snd = steps.filterMap Step.received
  linked : ∀ c, (queued c).map Prod.snd = (w.channel c).requests
  waits : ∀ {c s item}, (s, item) ∈ queued c → Leads w.next (w.place s) c ∧ w.tryResolved c = none
  order : ∀ s, ∃ r, Leads w.next (w.place s) r ∧ w.tryResolved r = none ∧
    ofSource s (steps.filterMap Step.accepted) = ofSource s (received ++ queued r)

/-- The world is a relay that keeps what it was given, and no channel has ended. -/
structure Carried (accepted received : List (SenderId × LinkItem C))
    (queued : ChannelId → List (SenderId × LinkItem C)) (w : World C) : Prop where
  kept : Kept ⟨w.next, w.place, queued, received, fun s => ofSource s accepted⟩
  queues : ∀ c, (queued c).map Prod.snd = w.queues c
  unended : ∀ c, w.ended c = none
  fresh : ∀ {c}, w.channels ≤ c → w.queues c = []
  silent : ∀ {s}, w.senders.length ≤ s → ofSource s accepted = []

namespace Carried

variable {accepted received : List (SenderId × LinkItem C)}
  {queued : ChannelId → List (SenderId × LinkItem C)} {w w' : World C}

lemma map_update {queued : ChannelId → List (SenderId × LinkItem C)}
    {queues : ChannelId → List (LinkItem C)} (h : ∀ c, (queued c).map Prod.snd = queues c)
    (r : ChannelId) (items : List (SenderId × LinkItem C)) (c : ChannelId) :
    (Function.update queued r items c).map Prod.snd
      = Function.update queues r (items.map Prod.snd) c := by
  by_cases hc : c = r
  · rw [hc, Function.update_self, Function.update_self]
  · rw [Function.update_of_ne hc, Function.update_of_ne hc, h]

lemma ended_congr (h : w'.tryResolved = w.tryResolved) : w'.ended = w.ended := by
  funext c
  unfold World.ended
  rw [h]

lemma place_congr (h : w'.senders = w.senders) : w'.place = w.place := by
  funext s
  unfold World.place
  rw [h]

/-- A world with the same books in which other items wait. -/
lemma of_books {queues : ChannelId → List (LinkItem C)} (h : Carried accepted received queued w)
    {accepted' received' : List (SenderId × LinkItem C)}
    {queued' : ChannelId → List (SenderId × LinkItem C)} (hbooks : w'.books = w.books)
    (hkept : Kept ⟨w.next, w.place, queued', received', fun s => ofSource s accepted'⟩)
    (hqueued : ∀ c, (queued' c).map Prod.snd = queues c) (hqueues : w'.queues = queues)
    (hfresh : ∀ {c}, w.channels ≤ c → queues c = [])
    (hsilent : ∀ {s}, w.senders.length ≤ s → ofSource s accepted' = []) :
    Carried accepted' received' queued' w' where
  kept := by
    rw [next_of_tryResolved (tryResolved_of_books hbooks), place_congr (congrArg Books.senders hbooks)]
    exact hkept
  queues c := by rw [hqueued, hqueues]
  unended := by
    rw [ended_congr (tryResolved_of_books hbooks)]
    exact h.unended
  fresh {c} hc := by
    rw [hqueues]
    exact hfresh (Nat.le_trans (Nat.le_of_eq (congrArg Books.channels hbooks).symm) hc)
  silent {s} hs := by
    refine hsilent (Nat.le_trans (Nat.le_of_eq ?_) hs)
    exact (congrArg (fun b : Books C => b.senders.length) hbooks).symm

lemma rest (h : Carried accepted received queued w) (hrests : w.Rests w') :
    Carried accepted received queued w' where
  kept := by
    rw [next_of_tryResolved hrests.resolved]
    rcases hrests.place with hplace | ⟨s, c, hplace, hs⟩
    · rw [hplace]
      exact h.kept
    · rw [hplace]
      rcases hs with hs | ⟨r, hc, hs⟩
      · obtain ⟨r, hr⟩ := h.kept.ends c
        exact h.kept.move (r := r) (Or.inl (h.silent hs))
      · exact h.kept.move (Or.inr ⟨hc, hs⟩)
  queues c := by rw [h.queues, hrests.queues]
  unended := by
    rw [ended_congr hrests.resolved]
    exact h.unended
  fresh {c} hc := by
    rw [hrests.queues]
    exact h.fresh (Nat.le_trans hrests.channels hc)
  silent {s} hs := h.silent (Nat.le_trans hrests.senders hs)

lemma send (h : Carried accepted received queued w) {s : SenderId} {item : LinkItem C}
    {r : ChannelId} (hs : s < w.senders.length) (hr : Leads w.next (w.place s) r)
    (hlt : r < w.channels) (hbooks : w'.books = w.books)
    (hqueues : w'.queues = Function.update w.queues r (w.queues r ++ [item])) :
    Carried (accepted ++ [(s, item)]) received
      (Function.update queued r (queued r ++ [(s, item)])) w' := by
  refine h.of_books hbooks ?_ (fun c => ?_) hqueues (fun {c} hc => ?_) fun {s'} hs' => ?_
  · rw [ofSource_concat]
    exact h.kept.send hr
  · rw [map_update h.queues, List.map_append, h.queues]
    rfl
  · rw [Function.update_of_ne (Nat.ne_of_gt (Nat.lt_of_lt_of_le hlt hc))]
    exact h.fresh hc
  · rw [ofSource_append, h.silent hs', ofSource_singleton,
      if_neg (Nat.ne_of_lt (Nat.lt_of_lt_of_le hs hs'))]
    rfl

lemma receive (h : Carried accepted received queued w) {item : LinkItem C} {c : ChannelId}
    {rest : List (LinkItem C)} (hqueue : w.queues c = item :: rest) (hbooks : w'.books = w.books)
    (hqueues : w'.queues = Function.update w.queues c rest) :
    ∃ s queued', Carried accepted (received ++ [(s, item)]) queued' w' := by
  have hmap := h.queues c
  rw [hqueue] at hmap
  obtain ⟨⟨s, item'⟩, rest', hqueued, hitem, hrest⟩ := List.map_eq_cons_iff.1 hmap
  have hitem' : item' = item := hitem
  subst hitem'
  refine ⟨s, Function.update queued c rest', ?_⟩
  refine h.of_books hbooks (h.kept.arrive hqueued) (fun d => ?_) hqueues (fun {d} hd => ?_) h.silent
  · rw [map_update h.queues, hrest]
  · have hne : d ≠ c := by
      rintro rfl
      rw [h.fresh hd] at hqueue
      cases hqueue
    rw [Function.update_of_ne hne]
    exact h.fresh hd

lemma forward (h : Carried accepted received queued w) {r : ChannelId} (hc : w.tryResolved c = none)
    (hr : Leads w.next r r) (hne : r ≠ c) (hlt : r < w.channels)
    (hchannels : w'.channels = w.channels) (hsenders : w'.senders = w.senders)
    (hresolved : w'.tryResolved = Function.update w.tryResolved c (some (.forwarded ⟨r⟩)))
    (hqueues : w'.queues = Function.update
      (Function.update w.queues r (w.queues r ++ w.queues c)) c []) :
    Carried accepted received
      (Function.update (Function.update queued r (queued r ++ queued c)) c []) w' where
  kept := by
    rw [next_of_forwarded hresolved, place_congr hsenders]
    exact h.kept.handOn (w.next_of_none hc) hr hne
  queues d := by
    rw [hqueues, map_update (map_update h.queues r _), List.map_append, h.queues, h.queues]
    rfl
  unended d := by
    unfold World.ended
    rw [hresolved]
    by_cases hd : d = c
    · rw [hd, Function.update_self]
    · rw [Function.update_of_ne hd]
      exact h.unended d
  fresh {d} hd := by
    rw [hchannels] at hd
    rw [hqueues]
    by_cases hdc : d = c
    · rw [hdc, Function.update_self]
    · rw [Function.update_of_ne hdc,
        Function.update_of_ne (Nat.ne_of_gt (Nat.lt_of_lt_of_le hlt hd))]
      exact h.fresh hd
  silent {s} hs := by
    rw [hsenders] at hs
    exact h.silent hs

/-! ### The calls of a run -/

/-- What one call does: items may have been accepted and received. -/
abbrev After (accepted received : List (SenderId × LinkItem C)) (step : Step C) : Prop :=
  ∃ received' queued', received'.map Prod.snd = step.received.toList ∧
    Carried (accepted ++ step.accepted.toList) (received ++ received') queued' step.after

lemma after_of_silent {step : Step C} (haccepted : step.accepted = none)
    (hreceived : step.received = none) (h : Carried accepted received queued step.after) :
    After accepted received step := by
  refine ⟨[], queued, by rw [hreceived]; rfl, ?_⟩
  rw [haccepted, List.append_nil]
  simpa using h

variable {out : Output C} {s : SenderId}

lemma after_send {req : RequestId} (h : Carried accepted received queued w) (hsound : Sound extra w)
    (hexec : Call.exec (.send s req) w = .ok out w') :
    After accepted received ⟨w, .send s req, out, w'⟩ := by
  obtain ⟨self, hs, ⟨err, rfl, rfl⟩ | ⟨channel, hleads, -, rfl, hlink⟩⟩ := Call.exec_send_cases hexec
  · exact after_of_silent rfl rfl h
  · have hbooks := (fixes_books_sendLocked _ _ req).ok hlink
    have hqueues := sendLocked_queues hlink
    by_cases hfinished : (w.request req).isFinished = true
    · rw [if_pos hfinished] at hqueues
      exact after_of_silent (if_pos hfinished) rfl (h.rest (rests_of_routes (routes_of_books hbooks hqueues)))
    · rw [if_neg hfinished] at hqueues
      have haccepted : Step.accepted ⟨w, .send s req, .sent (.ok ()), w'⟩ = some (s, .request req) :=
        if_neg hfinished
      have hplace : Leads w.next (w.place s) channel := by
        rw [place_of_getElem? hs]
        exact hleads
      have hcarried := h.send (List.getElem?_eq_some_iff.1 hs).1 hplace
        (hsound.leads_lt (hsound.sender_lt hs) hleads) hbooks hqueues
      refine ⟨[], Function.update queued channel (queued channel ++ [(s, .request req)]), rfl, ?_⟩
      rw [haccepted, List.append_nil]
      exact hcarried

lemma after_sendEvent {event : C.Event} (h : Carried accepted received queued w)
    (hsound : Sound extra w) (hexec : Call.exec (.sendEvent s event) w = .ok out w') :
    After accepted received ⟨w, .sendEvent s event, out, w'⟩ := by
  obtain ⟨self, hs, ⟨err, rfl, rfl⟩ | ⟨channel, hleads, -, rfl, hlink⟩⟩ :=
    Call.exec_sendEvent_cases hexec
  · exact after_of_silent rfl rfl h
  · have hbooks := (fixes_books_sendEventLocked _ event).ok hlink
    have hplace : Leads w.next (w.place s) channel := by
      rw [place_of_getElem? hs]
      exact hleads
    have hcarried := h.send (List.getElem?_eq_some_iff.1 hs).1 hplace
      (hsound.leads_lt (hsound.sender_lt hs) hleads) hbooks (sendEventLocked_queues hlink)
    refine ⟨[], Function.update queued channel (queued channel ++ [(s, .event event)]), rfl, ?_⟩
    rw [List.append_nil]
    exact hcarried

lemma after_pollRecv {waker : Waker} (h : Carried accepted received queued w)
    (hexec : Call.exec (.pollRecv c waker) w = .ok out w') :
    After accepted received ⟨w, .pollRecv c waker, out, w'⟩ := by
  obtain ⟨result, w₁, hpoll, hpure⟩ := Prog.bind_eq_ok.1 hexec
  cases hpure
  have hbooks := (fixes_books_pollRecv c waker).ok hpoll
  rcases pollRecv_queues hpoll with ⟨hqueues, hnone⟩ | ⟨item, rest, rfl, hqueue, hqueues⟩
  · have hcarried := h.rest (rests_of_routes (routes_of_books hbooks hqueues))
    rcases result with (_ | item) | _
    · exact after_of_silent rfl rfl hcarried
    · exact absurd rfl (hnone item)
    · exact after_of_silent rfl rfl hcarried
  · obtain ⟨s, queued', hcarried⟩ := h.receive hqueue hbooks hqueues
    exact ⟨[(s, item)], queued', rfl, by simpa [Step.accepted] using hcarried⟩

lemma after_tryRecv (h : Carried accepted received queued w)
    (hexec : Call.exec (.tryRecv c) w = .ok out w') :
    After accepted received ⟨w, .tryRecv c, out, w'⟩ := by
  obtain ⟨result, w₁, hrecv, hpure⟩ := Prog.bind_eq_ok.1 hexec
  cases hpure
  have hbooks := (fixes_books_tryRecv c).ok hrecv
  rcases tryRecv_queues hrecv with ⟨hqueues, rfl⟩ | ⟨item, rest, rfl, hqueue, hqueues⟩
  · exact after_of_silent rfl rfl (h.rest (rests_of_routes (routes_of_books hbooks hqueues)))
  · obtain ⟨s, queued', hcarried⟩ := h.receive hqueue hbooks hqueues
    exact ⟨[(s, item)], queued', rfl, by simpa [Step.accepted] using hcarried⟩

lemma after_forwardTo {other : SenderId} (h : Carried accepted received queued w)
    (hsound : Sound extra w) (hreceiver : w.receiver c = true)
    (hexec : Call.exec (.forwardTo c other) w = .ok out w') :
    After accepted received ⟨w, .forwardTo c other, out, w'⟩ := by
  obtain ⟨sender, done, w₁, hs, hforward, rfl, rfl⟩ := Call.exec_forwardTo_ok hexec
  have hcarried : Carried accepted received queued
      { w with receiver := Function.update w.receiver c false } :=
    h.rest (rests_of_routes rfl)
  have hsound₂ : Sound extra { w with receiver := Function.update w.receiver c false } :=
    Books.Sound.takeReceiver hsound c
  obtain ⟨r, hleads, hcases⟩ := forwardTo_cases hforward
  rcases hcases with ⟨rfl, rfl, -⟩ | ⟨-, res, hended, -⟩ | ⟨rfl, hne, -, hlocked⟩
  · exact after_of_silent rfl rfl (h.rest (rests_of_routes rfl))
  · -- no channel has ended
    rw [hcarried.unended r] at hended
    cases hended
  · obtain ⟨hchannels, hsenders, hresolved⟩ := forwardLocked_routes hsound₂ hlocked
    have hunresolved := tryResolved_of_unresolved (Books.Sound.loose hsound hreceiver).unresolved
    have hforwarded := hcarried.forward hunresolved hleads.end hne
      (hsound₂.leads_lt (hsound.sender_lt hs) hleads) hchannels hsenders hresolved
      (forwardLocked_ok hsound₂ hlocked).2
    exact after_of_silent rfl rfl (hforwarded.rest (rests_of_routes rfl))

/-- Every call that neither closes nor drops a channel carries on. -/
lemma after_call {step : Step C} (h : Carried accepted received queued step.before)
    (hsound : Sound extra step.before) (hruns : step.Runs)
    (hlasting : step.call.Lasting step.before) : After accepted received step := by
  obtain ⟨w, call, out, w'⟩ := step
  obtain ⟨hallowed, hexec⟩ := hruns
  have hquiet : call.Quiet → Carried accepted received queued w' := fun hquiet =>
    h.rest (Call.rests hquiet hsound (h.fresh (Nat.le_refl _)) hexec)
  cases call with
  | send s req => exact h.after_send hsound hexec
  | sendEvent s event => exact h.after_sendEvent hsound hexec
  | forwardTo c other => exact h.after_forwardTo hsound hallowed hexec
  | pollRecv c waker => exact h.after_pollRecv hexec
  | tryRecv c => exact h.after_tryRecv hexec
  | broken err | close c err | dropReceiver c => exact hlasting.elim
  | _ => exact after_of_silent rfl rfl (hquiet trivial)

/-- At the start nothing was sent. -/
lemma empty : Carried (C := C) [] [] (fun _ => []) World.empty where
  kept :=
    { ends := fun c => ⟨c, .refl rfl⟩
      queued := fun hitem => nomatch hitem
      order := fun _ => rfl }
  queues _ := rfl
  unended _ := rfl
  fresh _ := rfl
  silent _ := rfl

/-- What is carried was delivered. -/
lemma delivers {steps : List (Step C)}
    (h : Carried (steps.filterMap Step.accepted) received queued w)
    (hreceived : received.map Prod.snd = steps.filterMap Step.received) :
    Delivered steps w received queued where
  arrived := hreceived
  linked := h.queues
  waits {c s item} hitem := by
    have hleads := h.kept.queued hitem
    exact ⟨hleads, World.tryResolved_eq_none w hleads.next_eq_none (h.unended c)⟩
  order s := by
    obtain ⟨r, hr⟩ := h.kept.ends (w.place s)
    exact ⟨r, hr, World.tryResolved_eq_none w hr.next_eq_none (h.unended r), (h.kept.order hr).symm⟩

end Carried

/-- In every run the world carries what was accepted. -/
lemma Run.carried {steps : List (Step C)} {w : World C} (h : Run steps w)
    (hlasting : ∀ step ∈ steps, step.call.Lasting step.before) :
    ∃ received queued, received.map Prod.snd = steps.filterMap Step.received ∧
      Carried (steps.filterMap Step.accepted) received queued w := by
  induction h with
  | empty => exact ⟨[], fun _ => [], rfl, Carried.empty⟩
  | @step steps step h hruns ih =>
    obtain ⟨received, queued, hreceived, hcarried⟩ := ih fun step' hstep' =>
      hlasting step' (List.mem_append_left _ hstep')
    obtain ⟨received', queued', hreceived', hcarried'⟩ := hcarried.after_call h.sound hruns
      (hlasting step (List.mem_append_right _ List.mem_cons_self))
    refine ⟨received ++ received', queued', ?_, ?_⟩
    · rw [List.map_append, List.filterMap_append, hreceived, hreceived']
      cases hstep : step.received <;> simp [hstep]
    · rw [List.filterMap_append]
      have hlast : [step].filterMap Step.accepted = step.accepted.toList := by
        cases hstep : step.accepted <;> simp [hstep]
      rw [hlast]
      exact hcarried'

/-- **Items arrive once and in order.**  In every run in which no channel is closed or dropped,
what was accepted is what has been received and what waits: every item once, waiting in the one
channel where its sender leads, which is not resolved, and for every sender in order. -/
theorem Run.delivered {steps : List (Step C)} {w : World C} (h : Run steps w)
    (hlasting : ∀ step ∈ steps, step.call.Lasting step.before) :
    ∃ received queued, Delivered steps w received queued := by
  obtain ⟨received, queued, hreceived, hcarried⟩ := h.carried hlasting
  exact ⟨received, queued, hcarried.delivers hreceived⟩

/-- An event is sent before a channel is forwarded and one after it. -/
def forwardCalls : List (Call unitChan) :=
  [.channel, .channel, .sendEvent 0 (), .forwardTo 0 1, .sendEvent 0 (), .tryRecv 1]

theorem Run.delivered_forward :
    ∃ steps, ∃ w : World unitChan, Run steps w ∧ steps.map Step.call = forwardCalls ∧
      ∃ received queued, Delivered steps w received queued := by
  obtain ⟨steps, hrun, hcalls⟩ := Run.empty.runCalls
    (show Channel.runCalls forwardCalls World.empty = some _ from rfl)
  refine ⟨steps, _, hrun, hcalls, Run.delivered hrun fun step hstep => ?_⟩
  have hcall : step.call ∈ forwardCalls := by
    rw [← hcalls]
    exact List.mem_map_of_mem hstep
  simp only [forwardCalls, List.mem_cons, List.not_mem_nil, or_false] at hcall
  rcases hcall with h | h | h | h | h | h
  all_goals
    rw [h]
    trivial

end Recapn.Channel

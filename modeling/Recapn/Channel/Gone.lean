/-
# Requests that are gone

A request that nobody owns any more and that waits in no queue is gone.  It stays gone whatever a
program does, and what was responded, and its pipeline, stay what they are.
-/
import Recapn.Channel.Lifetime
import Recapn.Channel.Places

namespace Recapn.Channel

open Recapn.Lib Recapn.Lib.Prog Parts

variable {C : Chan} {c d : ChannelId} {r r' : RequestId}

/-- The response of a request and what there is of its pipeline. -/
structure Reply (C : Chan) where
  response : Option C.Results
  map : List (C.PipelineKey × ChannelId)
  isSet : Bool
  dest : Option (Option C.Pipeline)

/-- The reply of a request. -/
def SharedRequest.reply (self : SharedRequest C) : Reply C :=
  ⟨self.response, self.pipelineMap, self.state.isPipelineSet, self.pipelineDest⟩

namespace World

/-- Nobody owns the request, and it waits in no queue. -/
def Gone (w : World C) (r : RequestId) : Prop :=
  (w.request r).owner = .none ∧ ∀ c, .request r ∉ w.queues c

/-- A request that is gone stays gone, and its reply is left. -/
def Leaves (r : RequestId) (w w' : World C) : Prop :=
  w.Gone r → w'.Gone r ∧ (w'.request r).reply = (w.request r).reply

lemma Leaves.refl (w : World C) : w.Leaves r w := fun hgone => ⟨hgone, rfl⟩

lemma Leaves.trans {w w' w'' : World C} (h : World.Leaves r w w') (h' : World.Leaves r w' w'') :
    World.Leaves r w w'' := by
  intro hgone
  obtain ⟨hgone', hreply⟩ := h hgone
  obtain ⟨hgone'', hreply'⟩ := h' hgone'
  exact ⟨hgone'', hreply'.trans hreply⟩

end World

/-- The program leaves a request that is gone. -/
abbrev Leaves {α : Type} (r : RequestId) (x : ChanM C α) : Prop := Prog.Keeps (World.Leaves r) x

section Leaves

variable {α β : Type} {x : ChanM C α} {w w' : World C}

lemma leaves_pure (a : α) : Leaves r (pure a : ChanM C α) := keeps_pure World.Leaves.refl a

lemma leaves_bind {f : α → ChanM C β} (hx : Leaves r x) (hf : ∀ a, Leaves r (f a)) :
    Leaves r (x >>= f) :=
  keeps_bind (fun _ _ _ h h' => h.trans h') hx hf

/-- A request that is the same, and in no queue where it was in none. -/
lemma leaves_of_request (hrequest : w'.request r = w.request r)
    (hqueues : ∀ c, .request r ∈ w'.queues c → ∃ d, .request r ∈ w.queues d) : World.Leaves r w w' := by
  intro hgone
  refine ⟨⟨?_, fun c hmem => ?_⟩, by rw [hrequest]⟩
  · rw [hrequest]
    exact hgone.1
  · obtain ⟨d, hd⟩ := hqueues c hmem
    exact hgone.2 d hd

/-- A program that writes another request, and no queue. -/
lemma leaves_of_fixes (hrequest : Prog.Fixes (fun w : World C => w.request r) x)
    (hqueues : Prog.Fixes World.queues x) : Leaves r x := by
  refine keeps_of_ok fun w a w' h => leaves_of_request (hrequest.ok h) fun c hmem => ⟨c, ?_⟩
  rw [hqueues.ok h] at hmem
  exact hmem

/-- The parts of the world on which it depends whether a request is gone, and what its reply is. -/
abbrev replyParts : List Part := [.owner, .response, .pipeline]

/-- A program that writes nothing of these parts, and no queue. -/
lemma Writes.leaves {K : List Part} (h : Writes K x) (hK : ∀ p ∈ replyParts, p ∉ K)
    (hqueues : Prog.Fixes World.queues x) : Leaves r x := by
  refine keeps_of_ok fun w a w' hrun hgone => ?_
  have howner := h.ok hrun (hK .owner (by decide)) r
  have hresponse := h.ok hrun (hK .response (by decide)) r
  have hpipeline := h.ok hrun (hK .pipeline (by decide)) r
  refine ⟨⟨howner.trans hgone.1, fun c => ?_⟩, ?_⟩
  · rw [hqueues.ok hrun]
    exact hgone.2 c
  · unfold SharedRequest.reply
    rw [show (w'.request r).response = (w.request r).response from hresponse, hpipeline.1,
      hpipeline.2.1, hpipeline.2.2]

end Leaves

/-! ## Other requests -/

section Others

variable {w w' : World C}

lemma fixes_request_of_ne (h : r ≠ r') (f : SharedRequest C → SharedRequest C) :
    Prog.Fixes (fun w : World C => w.request r) (modifyRequest r' f) :=
  fixes_modify fun w => World.request_modifyRequest_of_ne w f h

lemma leaves_modifyRequest (h : r ≠ r') (f : SharedRequest C → SharedRequest C) :
    Leaves r (modifyRequest r' f) :=
  leaves_of_fixes (fixes_request_of_ne h f) (fixes_modify fun _ => rfl)

lemma leaves_respond (h : r ≠ r') : Leaves r (respond r' : ChanM C _) := by
  refine leaves_bind ?_ fun params => leaves_bind (leaves_modifyRequest h _) fun _ => leaves_pure _
  refine leaves_bind ((writes_getRequest (K := []) r').leaves (by decide) fun _ => rfl) fun req => ?_
  rcases req.request with params | _ | _
  · exact leaves_bind (leaves_modifyRequest h _) fun _ => leaves_pure _
  · exact keeps_halt _
  · exact keeps_halt _

lemma leaves_upgradeAll (map : List (C.PipelineKey × ChannelId)) : Leaves r (upgradeAll map) :=
  (writes_upgradeAll map).leaves (by decide) (fixes_queues_upgradeAll map)

lemma leaves_resolvePipelineMap (h : r ≠ r') : Leaves r (resolvePipelineMap r' : ChanM C Unit) := by
  refine leaves_bind ((writes_getRequest (K := []) r').leaves (by decide) fun _ => rfl) fun req => ?_
  refine leaves_bind (leaves_modifyRequest h _) fun _ => ?_
  exact leaves_bind (leaves_upgradeAll _) fun _ => leaves_modifyRequest h _

lemma leaves_responderRespond (h : r ≠ r') (resp : C.Results) :
    Leaves r (Responder.respond r' resp) :=
  leaves_bind (leaves_modifyRequest h _) fun _ =>
    leaves_bind (leaves_modifyRequest h _) fun _ => leaves_resolvePipelineMap h

/-! ### Items -/

variable {item : LinkItem C} {items : List (LinkItem C)}

lemma leaves_intoItem (h : item ≠ .request r) : Leaves r item.intoItem := by
  rcases item with r' | event
  · exact leaves_modifyRequest (fun heq => h (congrArg _ heq.symm)) _
  · exact leaves_pure _

lemma leaves_itemTakeParent (item : LinkItem C) : Leaves r item.takeParent :=
  (writes_itemTakeParent item).leaves (by decide) (fixes_queues (fixes_itemTakeParent item))

lemma leaves_respondAll (err : C.Error) (h : .request r ∉ items) : Leaves r (respondAll err items) := by
  induction items with
  | nil => exact leaves_pure _
  | cons item items ih =>
    rw [List.mem_cons, not_or] at h
    refine leaves_bind ?_ fun _ => ih h.2
    rcases item with r' | event
    · have hne : r ≠ r' := fun heq => h.1 (heq ▸ rfl)
      exact leaves_bind (leaves_respond hne) fun _ => leaves_responderRespond hne _
    · exact leaves_pure _

/-- What is taken out of a queue was in it. -/
lemma leaves_of_pop {rest : List (LinkItem C)} (hqueue : w.queues c = item :: rest)
    (hqueues : w'.queues = Function.update w.queues c rest) (hrequest : w'.request r = w.request r) :
    World.Leaves r w w' := by
  refine leaves_of_request hrequest fun d hmem => ?_
  rw [hqueues] at hmem
  by_cases hd : d = c
  · rw [hd, Function.update_self] at hmem
    exact ⟨c, hqueue ▸ List.mem_cons_of_mem _ hmem⟩
  · rw [Function.update_of_ne hd] at hmem
    exact ⟨d, hmem⟩

lemma fixes_request_popFront (c : ChannelId) (r : RequestId) :
    Prog.Fixes (fun w : World C => w.request r) (popFront c : ChanM C _) := by
  refine fixes_bind (fixes_getChannel c) fun ch => ?_
  rcases ch.requests with _ | ⟨first, rest⟩
  · exact fixes_pure _
  · exact fixes_bind (fixes_modify fun _ => rfl) fun _ => fixes_pure _

/-- What is taken out of a queue was queued. -/
lemma Takes.leaves {item : LinkItem C} {rest : List (LinkItem C)} (h : Takes c item rest w w')
    (hgone : w.Gone r) : item ≠ .request r ∧ World.Leaves r w w' := by
  obtain ⟨w₁, w₂, hpop, hqueues, htake, hinto⟩ := h.steps
  have hne : item ≠ .request r := by
    rintro rfl
    exact hgone.2 c (h.queue ▸ List.mem_cons_self)
  have hpopped : World.Leaves r w w₁ :=
    leaves_of_pop h.queue hqueues ((fixes_request_popFront c r).ok hpop)
  exact ⟨hne, (hpopped.trans ((leaves_itemTakeParent item).ok htake)).trans
    ((leaves_intoItem hne).ok hinto)⟩

/-- A batch has no request that is gone. -/
lemma closeBatch_leaves {room : ℕ} (h : closeBatch c room w = .ok items w') (hgone : w.Gone r) :
    .request r ∉ items ∧ w'.Gone r ∧ (w'.request r).reply = (w.request r).reply := by
  induction room generalizing w items with
  | zero =>
    cases h
    exact ⟨List.not_mem_nil, hgone, rfl⟩
  | succ room ih =>
    rcases closeBatch_succ h with ⟨rfl, rfl, -⟩ | ⟨item, rest, w₁, items', rfl, htakes, hbatch⟩
    · exact ⟨List.not_mem_nil, hgone, rfl⟩
    · obtain ⟨hne, hleaves⟩ := htakes.leaves hgone
      obtain ⟨hgone₁, hreply₁⟩ := hleaves hgone
      obtain ⟨hnot, hgone', hreply'⟩ := ih hbatch hgone₁
      refine ⟨?_, hgone', hreply'.trans hreply₁⟩
      rw [List.mem_cons, not_or]
      exact ⟨Ne.symm hne, hnot⟩

end Others

/-! ## Channels -/

section Channels

lemma fixes_queues_resolve (c : ChannelId) (value : ChannelResolution C) :
    Prog.Fixes World.queues (resolve c value) := by
  refine fixes_bind (fixes_queues_modifyChannel fun _ => rfl) fun _ => ?_
  refine fixes_bind (fixes_getChannel c) fun ch => ?_
  refine fixes_bind (fixes_queues_modifyChannel fun _ => rfl) fun _ => ?_
  refine fixes_ite (fixes_bind ?_ fun _ => fixes_queues_modifyChannel fun _ => rfl)
    (fixes_pure _)
  rcases value with sender | err
  · exact fixes_queues_removeSender sender.shared
  · exact fixes_pure _

lemma leaves_dropReceiver (c : ChannelId) : Leaves r (dropReceiver c : ChanM C Unit) :=
  (writes_dropReceiver c).leaves (by decide) (fixes_queues_dropReceiver c)

lemma leaves_closeLocked (c : ChannelId) (err : C.Error) : Leaves r (closeLocked c err) :=
  (writes_closeLocked c err).leaves (by decide)
    (fixes_bind (fixes_queues (fixes_takeWaker c)) fun _ => fixes_queues_resolve c _)

lemma leaves_closeLoop (c : ChannelId) (err : C.Error) (rounds : ℕ) :
    Leaves r (closeLoop c err rounds) := by
  induction rounds with
  | zero => exact keeps_halt _
  | succ rounds ih =>
    refine keeps_of_ok fun w u w' h hgone => ?_
    obtain ⟨items, w₁, hbatch, hrest⟩ := bind_eq_ok.1 h
    obtain ⟨hnot, hgone₁, hreply₁⟩ := closeBatch_leaves hbatch hgone
    have hrest' : Leaves r (do
        respondAll err items.reverse
        if items.length < batchSize then pure ()
        else closeLoop c err rounds : ChanM C Unit) :=
      leaves_bind (leaves_respondAll err (by rwa [List.mem_reverse])) fun _ =>
        keeps_ite (leaves_pure _) ih
    obtain ⟨hgone', hreply'⟩ := hrest'.ok hrest hgone₁
    exact ⟨hgone', hreply'.trans hreply₁⟩

lemma leaves_close (c : ChannelId) (err : C.Error) : Leaves r (close c err) := by
  refine leaves_bind (leaves_closeLocked c err) fun _ => ?_
  refine leaves_bind ((writes_getChannel (K := []) c).leaves (by decide) fun _ => rfl) fun ch => ?_
  exact leaves_bind (leaves_closeLoop c err _) fun _ => leaves_dropReceiver c

/-- What is forwarded was queued before. -/
lemma leaves_forwardLocked (self otherShared other : ChannelId) :
    Leaves r (forwardLocked self otherShared other : ChanM C Unit) := by
  have happend : Leaves r (appendBack otherShared self : ChanM C Unit) := by
    refine keeps_of_ok fun w u w' h => ?_
    have hrest := of_bind rfl h
    have hclear := of_bind rfl hrest
    cases hclear
    refine leaves_of_request rfl fun d hmem => ?_
    rw [queues_modifyChannel, queues_modifyChannel] at hmem
    by_cases hself : d = self
    · rw [hself, Function.update_self] at hmem
      exact absurd hmem List.not_mem_nil
    · rw [Function.update_of_ne hself] at hmem
      by_cases hother : d = otherShared
      · rw [hother, Function.update_self] at hmem
        rcases List.mem_append.1 hmem with hmem | hmem
        · exact ⟨otherShared, hmem⟩
        · exact ⟨self, hmem⟩
      · rw [Function.update_of_ne hother] at hmem
        exact ⟨d, hmem⟩
  have hwake : Leaves r (do
      let waker ← takeWaker otherShared
      wake waker : ChanM C Unit) :=
    (writes_wakeUp otherShared).leaves (by decide) (fixes_bind
      (fixes_queues (fixes_takeWaker otherShared)) fun _ => fixes_queues (fixes_wake _))
  refine leaves_bind ?_ fun sender => ?_
  · refine leaves_bind ?_ fun _ => leaves_pure _
    exact (writes_addSender _).leaves (by decide) (fixes_queues_addSender _)
  · refine leaves_bind ((writes_resolve _ _).leaves (by decide) (fixes_queues_resolve _ _)) fun _ => ?_
    refine leaves_bind ((writes_getChannel (K := []) self).leaves (by decide) fun _ => rfl) fun ch => ?_
    refine leaves_bind ?_ fun _ => leaves_dropReceiver self
    exact keeps_ite (leaves_pure _) (leaves_bind happend fun _ => hwake)

lemma leaves_forwardTo (self : ChannelId) (other : Sender) :
    Leaves r (forwardTo self other : ChanM C Bool) := by
  refine keeps_of_ok fun w done w' h => ?_
  obtain ⟨_, -, ⟨-, rfl, -⟩ | ⟨-, res, -, hended⟩ | ⟨-, -, -, hlocked⟩⟩ := forwardTo_cases h
  · exact .refl _
  · rcases res with _ | err
    · exact (leaves_dropReceiver self).ok hended
    · exact (leaves_close self err).ok hended
  · exact (leaves_forwardLocked _ _ _).ok hlocked

end Channels

/-! ## Calls -/

section Calls

variable {w w' : World C} {out : Output C} {call : Call C}

/-- Another request is sent. -/
lemma sendLocked_leaves {this channel : ChannelId} {u : Unit} (hne : r ≠ r')
    (h : sendLocked this channel r' w = .ok u w') : World.Leaves r w w' := by
  intro hgone
  have howner : (w'.ledger.entry r).owner = (w.ledger.entry r).owner := by
    rw [sendLocked_ledger h]
    split
    · rw [entry_set_of_ne _ _ hne]
    · rw [entry_set_of_ne _ _ hne]
  have hresponse := (writes_sendLocked this channel r').ok h (p := .response) (by decide) r
  have hpipeline := (writes_sendLocked this channel r').ok h (p := .pipeline) (by decide) r
  refine ⟨⟨(show (w'.request r).owner = _ from howner).trans hgone.1, fun c hmem => ?_⟩, ?_⟩
  · rw [sendLocked_queues h] at hmem
    split at hmem
    · exact hgone.2 c hmem
    · by_cases hc : c = channel
      · rw [hc, Function.update_self] at hmem
        rcases List.mem_append.1 hmem with hmem | hmem
        · exact hgone.2 channel hmem
        · exact hne (LinkItem.request.inj (List.mem_singleton.1 hmem))
      · rw [Function.update_of_ne hc] at hmem
        exact hgone.2 c hmem
  · unfold SharedRequest.reply
    rw [show (w'.request r).response = (w.request r).response from hresponse, hpipeline.1,
      hpipeline.2.1, hpipeline.2.2]

lemma leaves_send (self : Sender) (hne : r ≠ r') : Leaves r (send self r' : ChanM C _) := by
  refine leaves_bind (leaves_of_fixes (fixes_resolveAndLock _) (fixes_resolveAndLock _)) fun locked => ?_
  rcases locked with (_ | err) | ⟨this, channel⟩
  · exact leaves_pure _
  · exact leaves_pure _
  · exact leaves_bind (keeps_of_ok fun w u w' h => sendLocked_leaves hne h) fun _ => leaves_pure _

lemma leaves_sendEvent (self : Sender) (event : C.Event) : Leaves r (sendEvent self event) := by
  refine leaves_bind (leaves_of_fixes (fixes_resolveAndLock _) (fixes_resolveAndLock _)) fun locked => ?_
  rcases locked with (_ | err) | ⟨this, channel⟩
  · exact leaves_pure _
  · exact leaves_pure _
  · refine leaves_bind ?_ fun _ => leaves_pure _
    refine leaves_bind (keeps_of_ok fun w u w' h => ?_) fun _ => ?_
    · cases h
      refine leaves_of_request rfl fun d hmem => ?_
      rw [queues_modifyChannel] at hmem
      by_cases hd : d = channel
      · rw [hd, Function.update_self] at hmem
        rcases List.mem_append.1 hmem with hmem | hmem
        · exact ⟨channel, hmem⟩
        · cases List.mem_singleton.1 hmem
      · rw [Function.update_of_ne hd] at hmem
        exact ⟨d, hmem⟩
    · exact (writes_wakeUp channel).leaves (by decide) (fixes_bind
        (fixes_queues (fixes_takeWaker channel)) fun _ => fixes_queues (fixes_wake _))

/-- What is received was queued. -/
lemma popFront_leaves {next : Option (LinkItem C)} (h : popFront c w = .ok next w') (hgone : w.Gone r) :
    next ≠ some (.request r) ∧ World.Leaves r w w' := by
  have hrequest := (fixes_request_popFront c r).ok h
  rcases popFront_ok h with ⟨rfl, rfl, -⟩ | ⟨item, rest, rfl, hqueue, hqueues⟩
  · exact ⟨nofun, .refl _⟩
  · refine ⟨fun heq => hgone.2 c ?_, leaves_of_pop hqueue hqueues hrequest⟩
    rw [hqueue, Option.some.inj heq]
    exact List.mem_cons_self

lemma leaves_pollRecv (c : ChannelId) (waker : Waker) : Leaves r (pollRecv c waker : ChanM C _) := by
  refine keeps_of_ok fun w out w' h hgone => ?_
  rcases pollRecv_cases h with ⟨-, rfl⟩ | ⟨-, rfl⟩ | ⟨item, rest, -, htakes⟩
  · exact ⟨hgone, rfl⟩
  · have hwaker : Leaves r (modifyChannel c fun ch : SharedChannel C =>
        { ch with waker := some waker }) :=
      leaves_of_fixes (fixes_modify fun _ => rfl) (fixes_queues_modifyChannel fun _ => rfl)
    exact hwaker.ok rfl hgone
  · exact (htakes.leaves hgone).2 hgone

lemma leaves_tryRecv (c : ChannelId) : Leaves r (tryRecv c : ChanM C _) := by
  refine keeps_of_ok fun w out w' h hgone => ?_
  obtain ⟨link, w₁, hpop, hrest⟩ := bind_eq_ok.1 h
  obtain ⟨hne, hleaves⟩ := popFront_leaves hpop hgone
  refine hleaves.trans ?_ hgone
  rcases link with _ | item
  · cases hrest
    exact .refl _
  · exact (leaves_bind (leaves_intoItem fun heq => hne (congrArg some heq)) fun _ => leaves_pure _).ok hrest

lemma leaves_newChannel (ch : SharedChannel C) (hempty : ch.requests = []) :
    Leaves r (newChannel ch) := by
  refine keeps_of_ok fun w c w' h => ?_
  cases h
  refine leaves_of_request rfl fun d hmem => ⟨d, ?_⟩
  unfold World.queues at hmem ⊢
  by_cases hd : d = w.channels
  · rw [hd, World.channel_addChannel_self, hempty] at hmem
    exact absurd hmem List.not_mem_nil
  · rwa [World.channel_addChannel_of_ne w ch hd] at hmem

lemma leaves_weakSender (weak : ChannelId) : Leaves r (weakSender weak : ChanM C _) := by
  refine (writes_weakSender weak).leaves (by decide) ?_
  refine fixes_bind fixes_get fun w => fixes_ite (fixes_pure _) ?_
  exact fixes_bind (fixes_queues_addSender weak) fun _ => fixes_pure _

lemma leaves_addReceiver (r' : RequestId) : Leaves r (SharedRequest.addReceiver r' : ChanM C Unit) :=
  (writes_addReceiver r').leaves (by decide) (fixes_queues (fixes_addReceiver r'))

lemma leaves_build_insert (hne : r ≠ r') (key : C.PipelineKey)
    (map : List (C.PipelineKey × ChannelId)) : Leaves r (build.insert r' key map) := by
  refine leaves_bind (leaves_addReceiver r') fun _ => ?_
  refine leaves_bind (leaves_bind (leaves_newChannel _ rfl) fun _ => leaves_pure _) fun channel => ?_
  exact leaves_bind (leaves_modifyRequest hne _) fun _ => leaves_pure _

lemma leaves_build (hne : r ≠ r') (key : C.PipelineKey) : Leaves r (build r' key : ChanM C _) := by
  refine leaves_bind (leaves_of_fixes (fixes_getRequest r') (fixes_getRequest r')) fun req => ?_
  refine keeps_ite (leaves_pure _) ?_
  rcases req.pipelineMap.lookup key with _ | occupied
  · exact leaves_build_insert hne key _
  · refine leaves_bind (leaves_weakSender occupied) fun sender => ?_
    rcases sender with _ | sender
    · exact leaves_build_insert hne key _
    · exact leaves_pure _

lemma newRequest_leaves {msg : C.Parameters} {receivers : ℕ} {u : Unit} (hr : r < w.requests)
    (h : newRequest msg receivers w = .ok u w') : World.Leaves r w w' := by
  cases h
  exact leaves_of_request (Function.update_of_ne (Nat.ne_of_lt hr) _ _) fun c hmem => ⟨c, hmem⟩

/-- A request is gone that the call is not about. -/
lemma Call.subject_ne {owner : Owner} (hgone : w.Gone r) (hsubject : call.subject = some (r', owner))
    (howner : (w.request r').owner = owner) : r ≠ r' := by
  rintro rfl
  refine (Call.subject_owner hsubject).1 ?_
  rw [← howner]
  exact hgone.1

/-- A call about the owner of another request. -/
lemma Call.leaves_subject {owner : Owner} (hsubject : call.subject = some (r', owner)) (hne : r ≠ r') :
    Leaves r call.exec := by
  cases call with
  | dropRequest r₁ =>
    cases hsubject
    refine leaves_bind ?_ fun _ => leaves_pure _
    refine leaves_bind (leaves_modifyRequest hne _) fun _ => leaves_bind ?_ fun _ => leaves_modifyRequest hne _
    refine leaves_bind (leaves_of_fixes (fixes_getRequest r') (fixes_getRequest r')) fun req => ?_
    rcases req.request with params | _ | _
    · exact leaves_modifyRequest hne _
    · exact keeps_halt _
    · exact keeps_halt _
  | respond r₁ =>
    cases hsubject
    exact leaves_bind (leaves_respond hne) fun _ => leaves_pure _
  | responderRespond r₁ resp =>
    cases hsubject
    exact leaves_bind (leaves_responderRespond hne resp) fun _ => leaves_pure _
  | tailCall r₁ msg =>
    cases hsubject
    exact leaves_bind (leaves_modifyRequest hne _) fun _ => leaves_pure _
  | setPipeline r₁ dst =>
    cases hsubject
    refine leaves_bind ?_ fun _ => leaves_pure _
    refine leaves_bind (leaves_modifyRequest hne _) fun _ => ?_
    refine leaves_bind (leaves_of_fixes (fixes_getRequest r') (fixes_getRequest r')) fun req => ?_
    refine leaves_bind (leaves_of_fixes (fixes_require _) (fixes_require _)) fun _ => ?_
    exact leaves_bind (leaves_resolvePipelineMap hne) fun _ => leaves_modifyRequest hne _
  | dropResponder r₁ | resultsSenderRespond r₁ resp | dropResultsSender r₁ =>
    cases hsubject
    exact leaves_bind (leaves_bind (leaves_modifyRequest hne _) fun _ => leaves_modifyRequest hne _)
      fun _ => leaves_pure _
  | _ => cases hsubject

lemma leaves_holdReceiver (c : ChannelId) (held : Bool) :
    Leaves r (holdReceiver c held : ChanM C Unit) :=
  leaves_of_fixes (fixes_modify fun _ => rfl) (fixes_modify fun _ => rfl)

/-- **A request that is gone stays gone**, and its reply is left, by every call but one that builds
a client of it or deallocates it. -/
theorem Call.exec_leaves (hallowed : call.Allowed w) (hr : r < w.requests)
    (hbuild : ∀ t key, call = .build t key → w.tracker t ≠ some r) (hfree : call ≠ .freeRequest r)
    (h : call.exec w = .ok out w') : World.Leaves r w w' := by
  intro hgone
  have hsubject : ∀ {r' owner}, call.subject = some (r', owner) → (w.request r').owner = owner →
      w'.Gone r ∧ (w'.request r).reply = (w.request r).reply := fun hsubject howner =>
    (Call.leaves_subject hsubject (Call.subject_ne hgone hsubject howner)).ok h hgone
  have hapart : ∀ K : List Part, (∀ p ∈ replyParts, p ∉ K) → call.parts = K →
      Prog.Fixes World.queues call.exec → w'.Gone r ∧ (w'.request r).reply = (w.request r).reply :=
    fun K hapart hK hqueues =>
      (Writes.leaves (Call.writes_exec call) (hK ▸ hapart) hqueues).ok h hgone
  have hcore : call.LeavesCore → Prog.Fixes World.core call.exec := fixes_exec
  cases call with
  | channel =>
    refine (leaves_bind (leaves_bind (leaves_newChannel _ rfl) fun c => ?_)
      fun _ => leaves_pure _).ok h hgone
    exact leaves_bind (leaves_holdReceiver c _) fun _ => leaves_of_fixes (fun _ => rfl) fun _ => rfl
  | broken err =>
    refine (leaves_bind (leaves_bind (leaves_newChannel _ rfl) fun c => ?_)
      fun _ => leaves_pure _).ok h hgone
    exact leaves_of_fixes (fun _ => rfl) fun _ => rfl
  | cloneSender s =>
    refine hapart [] (by decide) rfl (fixes_bind (fixes_getSender s) fun self => ?_)
    refine fixes_bind ?_ fun sender => fixes_bind (fun _ => rfl) fun _ => fixes_pure _
    exact fixes_bind (fixes_queues_addSender _) fun _ => fixes_pure _
  | dropSender s =>
    refine hapart [] (by decide) rfl (fixes_bind (fixes_getSender s) fun self => ?_)
    refine fixes_bind (fixes_modify fun _ => rfl) fun _ => ?_
    exact fixes_bind (fixes_queues_removeSender _) fun _ => fixes_pure _
  | resolveInPlace s =>
    refine hapart [] (by decide) rfl (fixes_bind ?_ fun _ => fixes_pure _)
    refine fixes_bind (fixes_getSender s) fun self => ?_
    refine fixes_bind (fixes_mostResolved _) fun resolved => ?_
    refine fixes_bind ?_ fun sender => ?_
    · exact fixes_bind (fixes_queues_addSender _) fun _ => fixes_pure _
    · exact fixes_bind (fixes_modify fun _ => rfl) fun _ => fixes_queues_removeSender _
  | send s req =>
    have hne : r ≠ req := by
      rintro rfl
      have howner := hgone.1
      rw [show (w.request r).owner = .request from hallowed] at howner
      cases howner
    refine (leaves_bind (leaves_of_fixes (fixes_getSender s) (fixes_getSender s)) fun self => ?_).ok h hgone
    exact leaves_bind (leaves_send self hne) fun _ => leaves_pure _
  | sendEvent s event =>
    refine (leaves_bind (leaves_of_fixes (fixes_getSender s) (fixes_getSender s)) fun self => ?_).ok h hgone
    exact leaves_bind (leaves_sendEvent self event) fun _ => leaves_pure _
  | forwardTo c other =>
    refine (leaves_bind (leaves_of_fixes (fixes_getSender other) (fixes_getSender other))
      fun sender => ?_).ok h hgone
    refine leaves_bind (leaves_holdReceiver c _) fun _ => ?_
    refine leaves_bind (leaves_forwardTo c sender) fun done => ?_
    exact leaves_bind (leaves_holdReceiver c _) fun _ => leaves_pure _
  | pollClosed c waker =>
    exact hapart [] (by decide) rfl (fixes_queues (hcore trivial))
  | pollRecv c waker => exact (leaves_bind (leaves_pollRecv c waker) fun _ => leaves_pure _).ok h hgone
  | tryRecv c => exact (leaves_bind (leaves_tryRecv c) fun _ => leaves_pure _).ok h hgone
  | close c err =>
    refine (leaves_bind (leaves_holdReceiver c _) fun _ => ?_).ok h hgone
    exact leaves_bind (leaves_close c err) fun _ => leaves_pure _
  | dropReceiver c =>
    refine (leaves_bind (leaves_holdReceiver c _) fun _ => ?_).ok h hgone
    exact leaves_bind (leaves_dropReceiver c) fun _ => leaves_pure _
  | requestResponse msg | requestPipeline msg | requestResponsePipeline msg =>
    cases h
    exact newRequest_leaves hr rfl hgone
  | dropRequest r' | respond r' | responderRespond r' resp | tailCall r' msg | setPipeline r' dst
  | dropResponder r' | resultsSenderRespond r' resp | dropResultsSender r' =>
    exact hsubject rfl hallowed
  | cloneTracker t | dropTracker t =>
    exact hapart [.receivers, .trackers] (by decide) rfl (fixes_queues (hcore trivial))
  | build t key =>
    obtain ⟨r', ht, hcases⟩ := exec_build_cases h
    have hne : r ≠ r' := by
      rintro rfl
      refine hbuild t key rfl ?_
      unfold World.tracker
      rw [ht]
      rfl
    rcases hcases with ⟨hbuilt, -⟩ | ⟨sender, w₁, hbuilt, -, rfl⟩
    · exact (leaves_build hne key).ok hbuilt hgone
    · have hleaves : World.Leaves r w w₁ := (leaves_build hne key).ok hbuilt
      exact hleaves hgone
  | freeChannel c =>
    exact hapart [.freed, .receivers] (by decide) rfl
      (fixes_bind (fixes_queues_freeChannel c) fun _ => fixes_pure _)
  | freeRequest r' =>
    have hne : r ≠ r' := fun heq => hfree (by rw [heq])
    exact (leaves_bind (leaves_modifyRequest hne _) fun _ => leaves_pure _).ok h hgone

lemma build_insert_gone {key : C.PipelineKey} {map : List (C.PipelineKey × ChannelId)}
    {sender : Option Sender} (h : build.insert r' key map w = .ok sender w') (hgone : w.Gone r) :
    w'.Gone r := by
  obtain ⟨w₁, hadd, -, rfl⟩ := build_insert_eq_ok h
  obtain ⟨howner, hqueues⟩ := ((leaves_newChannel (.new (some r')) rfl).ok rfl
    ((leaves_addReceiver r').ok hadd hgone).1).1
  refine ⟨?_, hqueues⟩
  rw [← howner]
  by_cases hr : r = r'
  · rw [hr, World.request_modifyRequest_self]
  · rw [World.request_modifyRequest_of_ne _ _ hr]

/-- A request that is gone does not come back when a client of it is built. -/
lemma build_gone {key : C.PipelineKey} {sender : Option Sender} (h : build r' key w = .ok sender w')
    (hgone : w.Gone r) : w'.Gone r := by
  rcases build_cases h with ⟨-, -, rfl⟩ | ⟨-, ⟨c, -, -, -, hadd⟩ | ⟨-, hinsert⟩⟩
  · exact hgone
  · exact (((writes_addSender c).leaves (by decide) (fixes_queues_addSender c)).ok hadd hgone).1
  · exact build_insert_gone hinsert hgone

lemma Call.exec_gone (hallowed : call.Allowed w) (hr : r < w.requests)
    (h : call.exec w = .ok out w') (hgone : w.Gone r) : w'.Gone r := by
  by_cases hbuild : ∃ t key, call = .build t key
  · obtain ⟨t, key, rfl⟩ := hbuild
    obtain ⟨r', -, ⟨hbuild, -⟩ | ⟨sender, w₁, hbuild, -, rfl⟩⟩ := Call.exec_build_cases h
    · exact build_gone hbuild hgone
    · have hgone₁ : w₁.Gone r := build_gone hbuild hgone
      exact hgone₁
  · by_cases hfree : call = .freeRequest r
    · rw [hfree] at h
      cases h
      refine ⟨?_, hgone.2⟩
      rw [World.request_modifyRequest_self]
      exact hgone.1
    · refine (Call.exec_leaves hallowed hr (fun t key hcall _ => ?_) hfree h hgone).1
      exact hbuild ⟨t, key, hcall⟩

end Calls

end Recapn.Channel

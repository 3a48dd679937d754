/-
# Which parts of the world the functions write

Of a request a function writes the owner, the parent or the parameters, the count of receivers, the
response or what there is of its pipeline; of the channels, which requests they wait for.  Most
functions write one part or two.
-/
import Recapn.Lib.Parts
import Recapn.Channel.Effect

namespace Recapn.Channel

open Recapn.Lib Parts

variable {C : Chan} {c d : ChannelId} {r : RequestId}

/-- Parts of the world. -/
inductive Part where
  | owner
  | parent
  | params
  /-- The count of receivers, and whether the receiving side is closed. -/
  | receivers
  | response
  /-- The map of pipelined channels, whether the pipeline is set, and what it is set to. -/
  | pipeline
  | requests
  | channels
  | freed
  | parentRequest
  | trackers
deriving DecidableEq

/-- A part is the same in two worlds. -/
def World.Same (p : Part) (w w' : World C) : Prop :=
  match p with
  | .owner => ∀ r, (w'.request r).owner = (w.request r).owner
  | .parent => ∀ r, (w'.request r).parent = (w.request r).parent
  | .params => ∀ r, (w'.request r).request = (w.request r).request
  | .receivers => ∀ r, (w'.request r).receiversCount = (w.request r).receiversCount ∧
      (w'.request r).isFinished = (w.request r).isFinished
  | .response => ∀ r, (w'.request r).response = (w.request r).response
  | .pipeline => ∀ r, (w'.request r).pipelineMap = (w.request r).pipelineMap ∧
      (w'.request r).state.isPipelineSet = (w.request r).state.isPipelineSet ∧
      (w'.request r).pipelineDest = (w.request r).pipelineDest
  | .requests => w'.requests = w.requests
  | .channels => w'.channels = w.channels
  | .freed => w'.freed = w.freed
  | .parentRequest => ∀ c, (w'.channel c).parentRequest = (w.channel c).parentRequest
  | .trackers => w'.trackers = w.trackers

lemma World.same_refl (p : Part) (w : World C) : World.Same p w w := by
  cases p
  case receivers => exact fun r => ⟨rfl, rfl⟩
  case pipeline => exact fun r => ⟨rfl, rfl, rfl⟩
  all_goals first
    | exact fun _ => rfl
    | exact rfl

/-- The parts of the world. -/
def worldParts : Parts (World C) Part where
  same := World.Same
  refl := World.same_refl
  trans {p w w' w''} h h' := by
    cases p
    case receivers => exact fun r => ⟨(h' r).1.trans (h r).1, (h' r).2.trans (h r).2⟩
    case pipeline =>
      exact fun r => ⟨(h' r).1.trans (h r).1, (h' r).2.1.trans (h r).2.1, (h' r).2.2.trans (h r).2.2⟩
    all_goals first
      | exact fun x => (h' x).trans (h x)
      | exact Eq.trans h' h

/-- The program writes no other parts of the world than those in `K`. -/
abbrev Writes {α : Type} (K : List Part) (x : ChanM C α) : Prop := worldParts.Writes K x

/-- A part of one request is the same. -/
def SharedRequest.Same (p : Part) (req req' : SharedRequest C) : Prop :=
  match p with
  | .owner => req'.owner = req.owner
  | .parent => req'.parent = req.parent
  | .params => req'.request = req.request
  | .receivers => req'.receiversCount = req.receiversCount ∧ req'.isFinished = req.isFinished
  | .response => req'.response = req.response
  | .pipeline => req'.pipelineMap = req.pipelineMap ∧
      req'.state.isPipelineSet = req.state.isPipelineSet ∧ req'.pipelineDest = req.pipelineDest
  | _ => True

/-! ## Reading and writing -/

section Primitives

variable {K : List Part}

lemma writes_getChannel (c : ChannelId) : Writes K (getChannel c : ChanM C _) :=
  writes_of_fixes (fixes_getChannel c)

lemma writes_getRequest (r : RequestId) : Writes K (getRequest r : ChanM C _) :=
  writes_of_fixes (fixes_getRequest r)

lemma writes_mostResolved (c : ChannelId) : Writes K (mostResolved c : ChanM C _) :=
  writes_of_fixes (fixes_mostResolved c)

lemma writes_mostUnresolved (c : ChannelId) : Writes K (mostUnresolved c : ChanM C _) :=
  writes_of_fixes (fixes_mostUnresolved c)

lemma writes_resolveAndLock (c : ChannelId) : Writes K (resolveAndLock c : ChanM C _) :=
  writes_of_fixes (fixes_resolveAndLock c)

lemma writes_getSender (s : SenderId) : Writes K (getSender s : ChanM C _) :=
  writes_of_fixes (fixes_getSender s)

lemma writes_getTracker (t : TrackerId) : Writes K (getTracker t : ChanM C _) :=
  writes_of_fixes (fixes_getTracker t)

lemma writes_modifyRequest {f : SharedRequest C → SharedRequest C}
    (h : ∀ p, p ∉ K → ∀ req, SharedRequest.Same p req (f req)) : Writes K (modifyRequest r f) := by
  intro w p hp
  have hself := h p hp (w.request r)
  have hkept : ∀ r', r' ≠ r → (w.modifyRequest r f).request r' = w.request r' := fun r' hr =>
    World.request_modifyRequest_of_ne w f hr
  have hwritten : (w.modifyRequest r f).request r = f (w.request r) :=
    World.request_modifyRequest_self w f
  have hboth : ∀ {q : SharedRequest C → SharedRequest C → Prop}, (∀ req, q req req) →
      q (w.request r) (f (w.request r)) → ∀ r', q (w.request r') ((w.modifyRequest r f).request r') := by
    intro q hrefl hq r'
    by_cases hr : r' = r
    · rw [hr, hwritten]
      exact hq
    · rw [hkept r' hr]
      exact hrefl _
  cases p
  case owner => exact hboth (q := fun a b => b.owner = a.owner) (fun _ => rfl) hself
  case parent => exact hboth (q := fun a b => b.parent = a.parent) (fun _ => rfl) hself
  case params => exact hboth (q := fun a b => b.request = a.request) (fun _ => rfl) hself
  case receivers =>
    exact hboth (q := fun a b => b.receiversCount = a.receiversCount ∧ b.isFinished = a.isFinished)
      (fun _ => ⟨rfl, rfl⟩) hself
  case response => exact hboth (q := fun a b => b.response = a.response) (fun _ => rfl) hself
  case pipeline =>
    exact hboth (q := fun a b => b.pipelineMap = a.pipelineMap ∧
      b.state.isPipelineSet = a.state.isPipelineSet ∧ b.pipelineDest = a.pipelineDest)
      (fun _ => ⟨rfl, rfl, rfl⟩) hself
  case parentRequest => exact fun _ => rfl
  all_goals exact rfl

/-- A program that writes nothing of the world but what has no part. -/
lemma writes_modify {f : World C → World C} (h : ∀ p, p ∉ K → ∀ w, World.Same p w (f w)) :
    Writes K (Prog.modify f : ChanM C Unit) :=
  fun w p hp => h p hp w

lemma writes_modifyChannel {f : SharedChannel C → SharedChannel C}
    (h : ∀ ch, (f ch).parentRequest = ch.parentRequest) : Writes K (modifyChannel c f) := by
  intro w p _
  cases p
  case parentRequest =>
    intro d
    by_cases hd : d = c
    · rw [hd]
      exact (congrArg SharedChannel.parentRequest (World.channel_modifyChannel_self w f)).trans (h _)
    · exact congrArg SharedChannel.parentRequest (World.channel_modifyChannel_of_ne w f hd)
  case receivers => exact fun r => ⟨rfl, rfl⟩
  case pipeline => exact fun r => ⟨rfl, rfl, rfl⟩
  all_goals first
    | exact fun _ => rfl
    | exact rfl

lemma writes_wake (waker : Option Waker) : Writes K (wake waker : ChanM C Unit) := by
  intro w p _
  exact worldParts.refl p w

end Primitives

/-! ## Channels -/

lemma writes_addSender (c : ChannelId) : Writes [] (addSender c : ChanM C Unit) := by
  refine writes_bind (writes_getChannel c) fun ch => ?_
  exact writes_ite (writes_halt _) (writes_modifyChannel fun _ => rfl)

lemma writes_removeSender (c : ChannelId) : Writes [] (removeSender c : ChanM C Unit) := by
  refine writes_bind (writes_getChannel c) fun ch => ?_
  refine writes_bind (writes_modifyChannel fun _ => rfl) fun _ => ?_
  refine writes_ite ?_ (writes_pure _)
  refine writes_bind (writes_modifyChannel fun _ => rfl) fun _ => ?_
  refine writes_bind (writes_getChannel c) fun ch => ?_
  exact writes_ite (writes_wake _) (writes_pure _)

lemma writes_resolve (c : ChannelId) (value : ChannelResolution C) : Writes [] (resolve c value) := by
  refine writes_bind (writes_modifyChannel fun _ => rfl) fun _ => ?_
  refine writes_bind (writes_getChannel c) fun ch => ?_
  refine writes_bind (writes_modifyChannel fun _ => rfl) fun _ => ?_
  refine writes_ite (writes_bind ?_ fun _ => writes_modifyChannel fun _ => rfl) (writes_pure _)
  rcases value with sender | err
  · exact writes_removeSender sender.shared
  · exact writes_pure _

lemma writes_dropReceiver (c : ChannelId) : Writes [] (dropReceiver c : ChanM C Unit) := by
  refine writes_bind (writes_getChannel c) fun ch => ?_
  exact writes_ite (writes_pure _) (writes_modifyChannel fun _ => rfl)

lemma writes_closedTaskPoll (c : ChannelId) (waker : Waker) :
    Writes [] (closedTaskPoll c waker : ChanM C _) := by
  refine writes_bind (writes_getChannel c) fun ch => writes_ite (writes_pure _) ?_
  refine writes_bind (writes_ite (writes_modifyChannel fun _ => rfl) (writes_pure _)) fun _ => ?_
  refine writes_bind (writes_getChannel c) fun ch => writes_ite (writes_pure _) ?_
  exact writes_bind (writes_modifyChannel fun _ => rfl) fun _ => writes_pure _

lemma writes_pushBack (c : ChannelId) (item : LinkItem C) : Writes [] (pushBack c item) :=
  writes_modifyChannel fun _ => rfl

lemma writes_popFront (c : ChannelId) : Writes [] (popFront c : ChanM C _) := by
  refine writes_bind (writes_getChannel c) fun ch => ?_
  rcases ch.requests with _ | ⟨first, rest⟩
  · exact writes_pure _
  · exact writes_bind (writes_modifyChannel fun _ => rfl) fun _ => writes_pure _

lemma writes_popBack (c : ChannelId) : Writes [] (popBack c : ChanM C _) := by
  refine writes_bind (writes_getChannel c) fun ch => ?_
  rcases ch.requests.getLast? with _ | last
  · exact writes_pure _
  · exact writes_bind (writes_modifyChannel fun _ => rfl) fun _ => writes_pure _

lemma writes_appendBack (c other : ChannelId) : Writes [] (appendBack c other : ChanM C _) := by
  refine writes_bind (writes_getChannel other) fun ch => ?_
  exact writes_bind (writes_modifyChannel fun _ => rfl) fun _ => writes_modifyChannel fun _ => rfl

lemma writes_takeWaker (c : ChannelId) : Writes [] (takeWaker c : ChanM C _) := by
  refine writes_bind (writes_getChannel c) fun ch => ?_
  exact writes_bind (writes_modifyChannel fun _ => rfl) fun _ => writes_pure _

/-- Take the waker of a channel and wake it. -/
lemma writes_wakeUp (c : ChannelId) : Writes [] (do
    let waker ← takeWaker c
    wake waker : ChanM C Unit) :=
  writes_bind (writes_takeWaker c) fun waker => writes_wake waker

lemma writes_sendEventLocked (channel : ChannelId) (event : C.Event) :
    Writes [] (sendEventLocked channel event) :=
  writes_bind (writes_pushBack channel _) fun _ => writes_wakeUp channel

lemma writes_closeLocked (c : ChannelId) (err : C.Error) : Writes [] (closeLocked c err) :=
  writes_bind (writes_takeWaker c) fun _ => writes_resolve c _

lemma writes_forwardLocked (self otherShared other : ChannelId) :
    Writes [] (forwardLocked self otherShared other : ChanM C Unit) := by
  refine writes_bind ?_ fun sender => ?_
  · exact writes_bind (writes_addSender _) fun _ => writes_pure _
  · refine writes_bind (writes_resolve self _) fun _ => ?_
    refine writes_bind (writes_getChannel self) fun ch => ?_
    refine writes_bind (writes_ite (writes_pure _) ?_) fun _ => writes_dropReceiver self
    exact writes_bind (writes_appendBack otherShared self) fun _ => writes_wakeUp otherShared

/-! ## Requests -/

lemma writes_setOwner (r : RequestId) (owner : Owner) :
    Writes [.owner] (setOwner r owner : ChanM C Unit) := by
  refine writes_modifyRequest fun p hp req => ?_
  cases p
  case owner => exact absurd List.mem_cons_self hp
  all_goals trivial

lemma writes_setParent (r : RequestId) (parent : ChannelId) :
    Writes [.parent] (SharedRequest.setParent r parent : ChanM C Unit) := by
  refine writes_modifyRequest fun p hp req => ?_
  cases p
  case parent => exact absurd List.mem_cons_self hp
  all_goals trivial

lemma writes_takeParent (r : RequestId) :
    Writes [.parent] (SharedRequest.takeParent r : ChanM C _) := by
  refine writes_bind (writes_getRequest r) fun req => writes_bind ?_ fun _ => writes_pure _
  refine writes_modifyRequest fun p hp req => ?_
  cases p
  case parent => exact absurd List.mem_cons_self hp
  all_goals trivial

/-- The parameters are written, or they are not there. -/
lemma writes_params {α : Type} (r : RequestId) {params : Params C} {a : C.Parameters → α} :
    Writes [.params] (do
      let req ← getRequest r
      match req.request with
      | .present p => do
        modifyRequest r fun req => { req with request := params }
        pure (a p)
      | _ => Prog.halt .undefined : ChanM C α) := by
  refine writes_bind (writes_getRequest r) fun req => ?_
  rcases req.request with p | _ | _
  · refine writes_bind (writes_modifyRequest fun p hp req => ?_) fun _ => writes_pure _
    cases p
    case params => exact absurd List.mem_cons_self hp
    all_goals trivial
  · exact writes_halt _
  · exact writes_halt _

lemma writes_closeSender (r : RequestId) :
    Writes [] (SharedRequest.closeSender r : ChanM C Unit) := by
  refine writes_modifyRequest fun p hp req => ?_
  cases p
  all_goals trivial

lemma writes_dropRequest (r : RequestId) :
    Writes [.owner, .params] (dropRequest r : ChanM C Unit) := by
  refine writes_bind ((writes_setOwner r _).mono (by decide)) fun _ => ?_
  refine writes_bind ?_ fun _ => (writes_closeSender r).mono (by decide)
  exact Writes.mono (writes_params r (a := fun _ => ())) (by decide)

lemma writes_respond (r : RequestId) : Writes [.owner, .params] (respond r : ChanM C _) := by
  refine writes_bind ?_ fun params => ?_
  · exact Writes.mono (writes_params r (a := fun p => p)) (by decide)
  · exact writes_bind ((writes_setOwner r _).mono (by decide)) fun _ => writes_pure _

lemma writes_addReceiver (r : RequestId) :
    Writes [.receivers] (SharedRequest.addReceiver r : ChanM C Unit) := by
  refine writes_bind (writes_getRequest r) fun req => writes_ite (writes_halt _) ?_
  refine writes_modifyRequest fun p hp req => ?_
  cases p
  case receivers => exact absurd List.mem_cons_self hp
  all_goals trivial

lemma writes_tryRemoveFromChannel (r : RequestId) :
    Writes [] (SharedRequest.tryRemoveFromChannel r : ChanM C Unit) := by
  refine writes_bind (writes_getRequest r) fun req => ?_
  rcases req.parent with _ | parent
  · exact writes_pure _
  · refine writes_bind (writes_mostUnresolved parent) fun result => ?_
    rcases result with _ | _
    · exact writes_pure _
    · exact writes_halt _

lemma writes_removeReceiver (r : RequestId) :
    Writes [.receivers] (SharedRequest.removeReceiver r : ChanM C Unit) := by
  have hmodify : ∀ f : SharedRequest C → SharedRequest C, (∀ p, p ≠ .receivers → ∀ req,
      SharedRequest.Same p req (f req)) → Writes [.receivers] (modifyRequest r f) := fun f hf =>
    writes_modifyRequest fun p hp => hf p fun heq => hp (heq ▸ List.mem_cons_self)
  refine writes_bind (writes_getRequest r) fun req => writes_bind (hmodify _ fun p hp req => ?_) fun _ => ?_
  · cases p
    case receivers => exact absurd rfl hp
    all_goals trivial
  · refine writes_ite (writes_bind (hmodify _ fun p hp req => ?_) fun _ => ?_) (writes_pure _)
    · cases p
      case receivers => exact absurd rfl hp
      all_goals trivial
    · exact (writes_tryRemoveFromChannel r).mono (by decide)

lemma writes_sharedDropReceiver (parent : Option RequestId) :
    Writes [.receivers] (SharedRequest.dropReceiver parent : ChanM C Unit) := by
  rcases parent with _ | r
  · exact writes_pure _
  · exact writes_removeReceiver r

lemma writes_tailCall (r : RequestId) (msg : C.Parameters) :
    Writes [.owner, .params] (Responder.tailCall r msg) := by
  refine writes_modifyRequest fun p hp req => ?_
  cases p
  case owner => exact absurd List.mem_cons_self hp
  case params => exact absurd (by decide) hp
  all_goals trivial

lemma writes_dropResponder (r : RequestId) : Writes [.owner] (dropResponder r : ChanM C Unit) :=
  writes_bind (writes_setOwner r _) fun _ => (writes_closeSender r).mono (by decide)

lemma writes_resultsSenderRespond (r : RequestId) (resp : C.Results) :
    Writes [.owner, .response] (ResultsSender.respond r resp) := by
  refine writes_bind ((writes_setOwner r _).mono (by decide)) fun _ => ?_
  refine writes_modifyRequest fun p hp req => ?_
  cases p
  case response => exact absurd (by decide) hp
  all_goals trivial

/-! ## Pipelines -/

lemma writes_weakUpgrade (weak : ChannelId) :
    Writes [.receivers, .parentRequest] (weakUpgrade weak : ChanM C Bool) := by
  refine writes_bind writes_get fun w => writes_ite (writes_pure _) ?_
  refine writes_bind (writes_getChannel weak) fun ch => writes_bind ?_ fun _ => ?_
  · intro w p hp
    cases p
    case parentRequest => exact absurd (by decide) hp
    case receivers => exact absurd (by decide) hp
    case pipeline => exact fun r => ⟨rfl, rfl, rfl⟩
    all_goals first
      | exact fun _ => rfl
      | exact rfl
  · exact writes_bind ((writes_sharedDropReceiver _).mono (by decide)) fun _ => writes_pure _

lemma writes_upgradeAll (map : List (C.PipelineKey × ChannelId)) :
    Writes [.receivers, .parentRequest] (upgradeAll map) := by
  induction map with
  | nil => exact writes_pure _
  | cons entry map ih =>
    refine writes_bind (writes_weakUpgrade entry.2) fun upgraded => writes_bind ?_ fun _ => ih
    exact writes_ite (writes_modify fun p _ w => worldParts.refl p w) (writes_pure _)

/-- What a pipeline that is resolved writes. -/
abbrev pipelineParts : List Part := [.pipeline, .receivers, .parentRequest]

lemma writes_resolvePipelineMap (r : RequestId) :
    Writes pipelineParts (resolvePipelineMap r : ChanM C Unit) := by
  have hmodify : ∀ f : SharedRequest C → SharedRequest C, (∀ p, p ≠ .pipeline → ∀ req,
      SharedRequest.Same p req (f req)) → Writes pipelineParts (modifyRequest r f) := fun f hf =>
    writes_modifyRequest fun p hp => hf p fun heq => hp (heq ▸ List.mem_cons_self)
  refine writes_bind (writes_getRequest r) fun req => writes_bind (hmodify _ fun p hp req => ?_) fun _ => ?_
  · cases p
    case pipeline => exact absurd rfl hp
    all_goals trivial
  · refine writes_bind ((writes_upgradeAll _).mono (by decide)) fun _ => hmodify _ fun p hp req => ?_
    cases p
    case pipeline => exact absurd rfl hp
    all_goals trivial

lemma writes_responderRespond (r : RequestId) (resp : C.Results) :
    Writes (.owner :: .response :: pipelineParts) (Responder.respond r resp) := by
  refine writes_bind ((writes_setOwner r _).mono (by decide)) fun _ => ?_
  refine writes_bind (writes_modifyRequest fun p hp req => ?_) fun _ =>
    (writes_resolvePipelineMap r).mono (by decide)
  cases p
  case response => exact absurd (by decide) hp
  all_goals trivial

lemma writes_setPipeline (r : RequestId) (dst : C.Pipeline) :
    Writes (.owner :: pipelineParts) (Responder.setPipeline r dst) := by
  refine writes_bind (writes_modifyRequest fun p hp req => ?_) fun _ => ?_
  · cases p
    all_goals trivial
  · refine writes_bind (writes_getRequest r) fun req => ?_
    refine writes_bind (writes_require _) fun _ => ?_
    refine writes_bind ((writes_resolvePipelineMap r).mono (by decide)) fun _ => ?_
    exact (writes_setOwner r _).mono (by decide)

lemma writes_newChannel (ch : SharedChannel C) :
    Writes [.channels, .parentRequest] (newChannel ch) := by
  intro w p hp
  cases p
  case channels => exact absurd (by decide) hp
  case parentRequest => exact absurd (by decide) hp
  case receivers => exact fun r => ⟨rfl, rfl⟩
  case pipeline => exact fun r => ⟨rfl, rfl, rfl⟩
  all_goals first
    | exact fun _ => rfl
    | exact rfl

lemma writes_weakSender (weak : ChannelId) : Writes [] (weakSender weak : ChanM C _) := by
  refine writes_bind writes_get fun w => writes_ite (writes_pure _) ?_
  exact writes_bind (writes_addSender weak) fun _ => writes_pure _

/-- What is written when a client is built. -/
abbrev buildParts : List Part := [.channels, .parentRequest, .receivers, .pipeline]

lemma writes_build_insert (r : RequestId) (key : C.PipelineKey)
    (map : List (C.PipelineKey × ChannelId)) : Writes buildParts (build.insert r key map) := by
  refine writes_bind ((writes_addReceiver r).mono (by decide)) fun _ => ?_
  refine writes_bind (writes_bind ?_ fun _ => writes_pure _) fun channel => ?_
  · exact (writes_newChannel _).mono (by decide)
  · refine writes_bind (writes_modifyRequest fun p hp req => ?_) fun _ => writes_pure _
    cases p
    case pipeline => exact absurd (by decide) hp
    all_goals trivial

lemma writes_build (r : RequestId) (key : C.PipelineKey) :
    Writes buildParts (build r key : ChanM C _) := by
  refine writes_bind (writes_getRequest r) fun req => writes_ite (writes_pure _) ?_
  rcases req.pipelineMap.lookup key with _ | occupied
  · exact writes_build_insert r key _
  · refine writes_bind ((writes_weakSender occupied).mono (by decide)) fun sender => ?_
    rcases sender with _ | sender
    · exact writes_build_insert r key _
    · exact writes_pure _

/-! ## Items -/

section Items

variable (item : LinkItem C)

lemma writes_intoItem : Writes [.owner] item.intoItem := by
  rcases item with r | event
  · exact writes_setOwner r _
  · exact writes_pure _

lemma writes_itemDrop : Writes [.owner, .params] item.drop := by
  rcases item with r | event
  · exact writes_dropRequest r
  · exact writes_pure _

lemma writes_itemTakeParent : Writes [.parent] item.takeParent := by
  rcases item with r | event
  · exact writes_bind (writes_takeParent r) fun _ => writes_pure _
  · exact writes_pure _

end Items

lemma writes_sendLocked (this channel : ChannelId) (req : RequestId) :
    Writes [.owner, .parent, .params] (sendLocked this channel req : ChanM C Unit) := by
  refine writes_bind ((writes_setOwner req _).mono (by decide)) fun _ => ?_
  refine writes_bind ((writes_pushBack channel _).mono (by decide)) fun _ => ?_
  refine writes_bind ((writes_setParent req this).mono (by decide)) fun _ => ?_
  refine writes_bind (writes_getRequest req) fun reqShared => writes_ite ?_ ?_
  · refine writes_bind ((writes_popBack channel).mono (by decide)) fun last => ?_
    refine writes_bind (writes_unwrap last) fun last => ?_
    refine writes_bind ((writes_intoItem last).mono (by decide)) fun _ => ?_
    refine writes_bind ((writes_itemDrop last).mono (by decide)) fun _ => ?_
    exact writes_bind ((writes_takeParent req).mono (by decide)) fun _ => writes_pure _
  · exact (writes_wakeUp channel).mono (by decide)

lemma writes_pollRecv (c : ChannelId) (waker : Waker) :
    Writes [.owner, .parent] (pollRecv c waker : ChanM C _) := by
  refine writes_bind (writes_getChannel c) fun ch => writes_ite (writes_pure _) ?_
  refine writes_bind ((writes_popFront c).mono (by decide)) fun next => ?_
  rcases next with _ | n
  · exact writes_bind (writes_modifyChannel fun _ => rfl) fun _ => writes_pure _
  · refine writes_bind ((writes_itemTakeParent n).mono (by decide)) fun _ => ?_
    exact writes_bind ((writes_intoItem n).mono (by decide)) fun _ => writes_pure _

lemma writes_tryRecv (c : ChannelId) : Writes [.owner] (tryRecv c : ChanM C _) := by
  refine writes_bind ((writes_popFront c).mono (by decide)) fun link => ?_
  rcases link with _ | link
  · exact writes_pure _
  · exact writes_bind (writes_intoItem link) fun _ => writes_pure _

lemma writes_closeBatch (c : ChannelId) (room : ℕ) :
    Writes [.owner, .parent] (closeBatch c room : ChanM C _) := by
  induction room with
  | zero => exact writes_pure _
  | succ room ih =>
    refine writes_bind ((writes_popFront c).mono (by decide)) fun item => ?_
    rcases item with _ | item
    · exact writes_pure _
    · refine writes_bind ((writes_itemTakeParent item).mono (by decide)) fun _ => ?_
      refine writes_bind ((writes_intoItem item).mono (by decide)) fun _ => ?_
      exact writes_bind ih fun _ => writes_pure _

/-- What is written when requests are answered. -/
abbrev answerParts : List Part := .owner :: .params :: .response :: pipelineParts

lemma writes_respondWithErr (err : C.Error) (item : LinkItem C) :
    Writes answerParts (item.respondWithErr err) := by
  rcases item with r | event
  · exact writes_bind ((writes_respond r).mono (by decide)) fun _ =>
      (writes_responderRespond r _).mono (by decide)
  · exact writes_pure _

lemma writes_respondAll (err : C.Error) (items : List (LinkItem C)) :
    Writes answerParts (respondAll err items) := by
  induction items with
  | nil => exact writes_pure _
  | cons item items ih => exact writes_bind (writes_respondWithErr err item) fun _ => ih

lemma writes_closeLoop (c : ChannelId) (err : C.Error) (rounds : ℕ) :
    Writes (.parent :: answerParts) (closeLoop c err rounds) := by
  induction rounds with
  | zero => exact writes_halt _
  | succ rounds ih =>
    refine writes_bind ((writes_closeBatch c _).mono (by decide)) fun items => ?_
    refine writes_bind ((writes_respondAll err _).mono (by decide)) fun _ => ?_
    exact writes_ite (writes_pure _) ih

lemma writes_close (c : ChannelId) (err : C.Error) :
    Writes (.parent :: answerParts) (close c err) := by
  refine writes_bind ((writes_closeLocked c err).mono (by decide)) fun _ => ?_
  refine writes_bind (writes_getChannel c) fun ch => ?_
  refine writes_bind (writes_closeLoop c err _) fun _ => ?_
  exact (writes_dropReceiver c).mono (by decide)

lemma writes_forwardTo (self : ChannelId) (other : Sender) :
    Writes (.parent :: answerParts) (forwardTo self other : ChanM C Bool) := by
  have hended : ∀ res : MostResolved C, Writes (.parent :: answerParts) (forwardEnded self res) := by
    intro res
    rcases res with _ | err
    · exact (writes_dropReceiver self).mono (by decide)
    · exact writes_close self err
  refine writes_bind (writes_mostResolved _) fun result => ?_
  obtain ⟨otherShared, resolution⟩ := result
  rcases resolution with _ | res
  · refine writes_ite (writes_pure _) ?_
    refine writes_bind (writes_mostResolved _) fun result => ?_
    obtain ⟨other', resolution⟩ := result
    rcases resolution with _ | res
    · exact writes_bind ((writes_forwardLocked _ _ _).mono (by decide)) fun _ => writes_pure _
    · exact writes_bind (hended res) fun _ => writes_pure _
  · exact writes_bind (hended res) fun _ => writes_pure _

/-! ## Closing

What closing a channel keeps: requests are taken out of the queue and responded to. -/

/-- A relation of worlds that is kept by whatever writes only who owns requests, and their parents
and parameters, and by a response. -/
structure Answers (R : World C → World C → Prop) : Prop where
  refl : ∀ w, R w w
  trans : ∀ w w' w'', R w w' → R w' w'' → R w w''
  writes : ∀ {α : Type} {x : ChanM C α}, Writes [.owner, .parent, .params] x → Prog.Keeps R x
  respond : ∀ r resp, Prog.Keeps R (Responder.respond r resp)

/-- A program keeps what it keeps when it returns. -/
lemma keeps_of_ok {α : Type} {R : World C → World C → Prop} {x : ChanM C α}
    (h : ∀ w a w', x w = .ok a w' → R w w') : Prog.Keeps R x := by
  intro w
  rcases hrun : x w with ⟨a, w'⟩ | ⟨e, w'⟩ | res
  · exact h w a w' hrun
  · exact nomatch e
  · trivial

namespace Answers

variable {R : World C → World C → Prop}

lemma pure {α : Type} (h : Answers R) (a : α) : Prog.Keeps R (pure a : ChanM C α) :=
  Prog.keeps_pure h.refl a

lemma bind {α β : Type} (h : Answers R) {x : ChanM C α} {f : α → ChanM C β} (hx : Prog.Keeps R x)
    (hf : ∀ a, Prog.Keeps R (f a)) : Prog.Keeps R (x >>= f) :=
  Prog.keeps_bind h.trans hx hf

lemma respondAll (h : Answers R) (err : C.Error) (items : List (LinkItem C)) :
    Prog.Keeps R (respondAll err items) := by
  induction items with
  | nil => exact h.pure _
  | cons item items ih =>
    refine h.bind ?_ fun _ => ih
    rcases item with r | event
    · exact h.bind (h.writes ((writes_respond r).mono (by decide))) fun _ => h.respond r _
    · exact h.pure _

lemma closeLoop (h : Answers R) (c : ChannelId) (err : C.Error) (rounds : ℕ) :
    Prog.Keeps R (closeLoop c err rounds) := by
  induction rounds with
  | zero => exact Prog.keeps_halt _
  | succ rounds ih =>
    refine h.bind (h.writes ((writes_closeBatch c _).mono (by decide))) fun items => ?_
    refine h.bind (h.respondAll err _) fun _ => ?_
    exact Prog.keeps_ite (h.pure _) ih

lemma close (h : Answers R) (c : ChannelId) (err : C.Error) : Prog.Keeps R (close c err) := by
  refine h.bind (h.writes ((writes_closeLocked c err).mono (by decide))) fun _ => ?_
  refine h.bind (h.writes (writes_getChannel c)) fun ch => ?_
  refine h.bind (h.closeLoop c err _) fun _ => ?_
  exact h.writes ((writes_dropReceiver c).mono (by decide))

lemma forwardTo (h : Answers R) (self : ChannelId) (other : Sender) :
    Prog.Keeps R (forwardTo self other : ChanM C Bool) := by
  have hended : ∀ res : MostResolved C, Prog.Keeps R (forwardEnded self res) := by
    intro res
    rcases res with _ | err
    · exact h.writes ((writes_dropReceiver self).mono (by decide))
    · exact h.close self err
  refine h.bind (h.writes (writes_mostResolved _)) fun result => ?_
  obtain ⟨otherShared, resolution⟩ := result
  rcases resolution with _ | res
  · refine Prog.keeps_ite (h.pure _) ?_
    refine h.bind (h.writes (writes_mostResolved _)) fun result => ?_
    obtain ⟨other', resolution⟩ := result
    rcases resolution with _ | res
    · exact h.bind (h.writes ((writes_forwardLocked _ _ _).mono (by decide))) fun _ => h.pure _
    · exact h.bind (hended res) fun _ => h.pure _
  · exact h.bind (hended res) fun _ => h.pure _

end Answers

/-! ## Calls -/

lemma writes_holdSender (sender : Sender) : Writes [] (holdSender sender : ChanM C _) :=
  fun w p _ => worldParts.refl p w

lemma writes_setSender (s : SenderId) (handle : SenderHandle) :
    Writes [] (setSender s handle : ChanM C Unit) :=
  writes_modify fun p _ w => worldParts.refl p w

lemma writes_holdReceiver (c : ChannelId) (held : Bool) :
    Writes [] (holdReceiver c held : ChanM C Unit) :=
  writes_modify fun p _ w => worldParts.refl p w

/-- The trackers that the program holds are written. -/
lemma writes_trackers (f : World C → List (Option RequestId)) :
    Writes [.trackers] (Prog.modify fun w => { w with trackers := f w } : ChanM C Unit) := by
  refine writes_modify fun p hp w => ?_
  cases p
  case trackers => exact absurd List.mem_cons_self hp
  all_goals first
    | exact fun _ => ⟨rfl, rfl, rfl⟩
    | exact fun _ => ⟨rfl, rfl⟩
    | exact fun _ => rfl
    | exact rfl

lemma writes_freed (c : ChannelId) : Writes [.freed]
    (Prog.modify fun w => { w with freed := Function.update w.freed c true } : ChanM C Unit) := by
  refine writes_modify fun p hp w => ?_
  cases p
  case freed => exact absurd List.mem_cons_self hp
  all_goals first
    | exact fun _ => ⟨rfl, rfl, rfl⟩
    | exact fun _ => ⟨rfl, rfl⟩
    | exact fun _ => rfl
    | exact rfl

lemma writes_freeChannel (c : ChannelId) :
    Writes [.freed, .receivers] (freeChannel c : ChanM C Unit) := by
  refine writes_bind (writes_getChannel c) fun ch => ?_
  refine writes_bind ((writes_freed c).mono (by decide)) fun _ => ?_
  refine writes_bind ((writes_sharedDropReceiver _).mono (by decide)) fun _ => ?_
  rcases ch.held with _ | sender
  · exact writes_pure _
  · exact (writes_removeSender sender.shared).mono (by decide)

lemma writes_resolveInPlace (s : SenderId) : Writes [] (resolveInPlace s : ChanM C Unit) := by
  refine writes_bind (writes_getSender s) fun self => ?_
  refine writes_bind (writes_mostResolved _) fun resolved => ?_
  refine writes_bind (writes_bind (writes_addSender _) fun _ => writes_pure _) fun sender => ?_
  exact writes_bind (writes_setSender s _) fun _ => writes_removeSender _

lemma writes_send (self : Sender) (req : RequestId) :
    Writes [.owner, .parent, .params] (send self req : ChanM C _) := by
  refine writes_bind (writes_resolveAndLock _) fun locked => ?_
  rcases locked with (_ | err) | ⟨this, channel⟩
  · exact writes_pure _
  · exact writes_pure _
  · exact writes_bind (writes_sendLocked this channel req) fun _ => writes_pure _

lemma writes_sendEvent (self : Sender) (event : C.Event) : Writes [] (sendEvent self event) := by
  refine writes_bind (writes_resolveAndLock _) fun locked => ?_
  rcases locked with (_ | err) | ⟨this, channel⟩
  · exact writes_pure _
  · exact writes_pure _
  · exact writes_bind (writes_sendEventLocked channel event) fun _ => writes_pure _

/-- What a call writes. -/
def Call.parts : Call C → List Part
  | channel => [.channels, .parentRequest]
  | broken _ => [.channels, .parentRequest]
  | send _ _ => [.owner, .parent, .params]
  | forwardTo _ _ => .parent :: answerParts
  | pollRecv _ _ => [.owner, .parent]
  | tryRecv _ => [.owner]
  | close _ _ => .parent :: answerParts
  | requestResponse _ => .trackers :: .requests :: .parent :: answerParts
  | requestPipeline _ => .trackers :: .requests :: .parent :: answerParts
  | requestResponsePipeline _ => .trackers :: .requests :: .parent :: answerParts
  | dropRequest _ => [.owner, .params]
  | respond _ => [.owner, .params]
  | responderRespond _ _ => .owner :: .response :: pipelineParts
  | tailCall _ _ => [.owner, .params]
  | setPipeline _ _ => .owner :: pipelineParts
  | dropResponder _ => [.owner]
  | resultsSenderRespond _ _ => [.owner, .response]
  | dropResultsSender _ => [.owner]
  | cloneTracker _ => [.receivers, .trackers]
  | dropTracker _ => [.receivers, .trackers]
  | build _ _ => buildParts
  | freeChannel _ => [.freed, .receivers]
  | freeRequest _ => [.parent, .pipeline]
  | _ => []

lemma writes_newRequest (msg : C.Parameters) (receivers : ℕ) :
    Writes (.trackers :: .requests :: .parent :: answerParts) (newRequest msg receivers) := by
  refine writes_modify fun p hp w => ?_
  cases p
  case channels => exact rfl
  case freed => exact rfl
  all_goals exact absurd (by decide) hp

lemma writes_freeRequest (r : RequestId) : Writes [.parent, .pipeline]
    (modifyRequest r fun req => { req with parent := none, pipelineMap := [] } : ChanM C Unit) := by
  refine writes_modifyRequest fun p hp req => ?_
  cases p
  case parent => exact absurd (by decide) hp
  case pipeline => exact absurd (by decide) hp
  all_goals trivial

lemma Call.writes_exec (call : Call C) : Writes call.parts call.exec := by
  cases call with
  | channel =>
    refine writes_bind (writes_bind (writes_newChannel _) fun c => ?_) fun _ => writes_pure _
    refine writes_bind ((writes_holdReceiver c _).mono (List.nil_subset _)) fun _ => ?_
    exact (writes_holdSender _).mono (List.nil_subset _)
  | broken err =>
    refine writes_bind (writes_bind (writes_newChannel _) fun c => ?_) fun _ => writes_pure _
    exact (writes_holdSender _).mono (List.nil_subset _)
  | cloneSender s =>
    refine writes_bind (writes_getSender s) fun self => ?_
    refine writes_bind (writes_bind (writes_addSender _) fun _ => writes_pure _) fun sender => ?_
    exact writes_bind (writes_holdSender sender) fun _ => writes_pure _
  | dropSender s =>
    refine writes_bind (writes_getSender s) fun self => ?_
    refine writes_bind (writes_setSender s _) fun _ => ?_
    exact writes_bind (writes_removeSender _) fun _ => writes_pure _
  | resolveInPlace s => exact writes_bind (writes_resolveInPlace s) fun _ => writes_pure _
  | send s req =>
    exact writes_bind (writes_getSender s) fun self =>
      writes_bind (writes_send self req) fun _ => writes_pure _
  | sendEvent s event =>
    exact writes_bind (writes_getSender s) fun self =>
      writes_bind (writes_sendEvent self event) fun _ => writes_pure _
  | forwardTo c other =>
    refine writes_bind (writes_getSender other) fun other => ?_
    refine writes_bind ((writes_holdReceiver c _).mono (List.nil_subset _)) fun _ => ?_
    refine writes_bind (writes_forwardTo c other) fun done => ?_
    exact writes_bind ((writes_holdReceiver c _).mono (List.nil_subset _)) fun _ => writes_pure _
  | pollClosed c waker => exact writes_bind (writes_closedTaskPoll c waker) fun _ => writes_pure _
  | pollRecv c waker => exact writes_bind (writes_pollRecv c waker) fun _ => writes_pure _
  | tryRecv c => exact writes_bind (writes_tryRecv c) fun _ => writes_pure _
  | close c err =>
    refine writes_bind ((writes_holdReceiver c _).mono (List.nil_subset _)) fun _ => ?_
    exact writes_bind (writes_close c err) fun _ => writes_pure _
  | dropReceiver c =>
    refine writes_bind (writes_holdReceiver c _) fun _ => ?_
    exact writes_bind (writes_dropReceiver c) fun _ => writes_pure _
  | requestResponse msg | requestPipeline msg =>
    exact writes_bind (writes_newRequest msg 1) fun _ => writes_pure _
  | requestResponsePipeline msg => exact writes_bind (writes_newRequest msg 2) fun _ => writes_pure _
  | dropRequest r => exact writes_bind (writes_dropRequest r) fun _ => writes_pure _
  | respond r => exact writes_bind (writes_respond r) fun _ => writes_pure _
  | responderRespond r resp => exact writes_bind (writes_responderRespond r resp) fun _ => writes_pure _
  | tailCall r msg => exact writes_bind (writes_tailCall r msg) fun _ => writes_pure _
  | setPipeline r dst => exact writes_bind (writes_setPipeline r dst) fun _ => writes_pure _
  | dropResponder r => exact writes_bind (writes_dropResponder r) fun _ => writes_pure _
  | resultsSenderRespond r resp =>
    exact writes_bind (writes_resultsSenderRespond r resp) fun _ => writes_pure _
  | dropResultsSender r => exact writes_bind (writes_dropResponder r) fun _ => writes_pure _
  | cloneTracker t =>
    show Writes [.receivers, .trackers] _
    refine writes_bind (writes_getTracker t) fun r => ?_
    refine writes_bind ((writes_addReceiver r).mono (by decide)) fun _ => ?_
    exact writes_bind ((writes_trackers _).mono (by decide)) fun _ => writes_pure _
  | dropTracker t =>
    show Writes [.receivers, .trackers] _
    refine writes_bind (writes_getTracker t) fun r => ?_
    refine writes_bind ((writes_trackers _).mono (by decide)) fun _ => ?_
    exact writes_bind ((writes_removeReceiver r).mono (by decide)) fun _ => writes_pure _
  | build t key =>
    refine writes_bind (writes_getTracker t) fun r => writes_bind (writes_build r key) fun sender => ?_
    rcases sender with _ | sender
    · exact writes_pure _
    · exact writes_bind ((writes_holdSender sender).mono (List.nil_subset _)) fun _ => writes_pure _
  | freeChannel c => exact writes_bind (writes_freeChannel c) fun _ => writes_pure _
  | freeRequest r => exact writes_bind (writes_freeRequest r) fun _ => writes_pure _

namespace Answers

variable {R : World C → World C → Prop}

lemma exec_forwardTo (h : Answers R) (c : ChannelId) (other : SenderId) :
    Prog.Keeps R (Call.exec (.forwardTo c other) : ChanM C _) := by
  refine h.bind (h.writes (writes_getSender other)) fun sender => ?_
  refine h.bind (h.writes ((writes_holdReceiver c _).mono (by decide))) fun _ => ?_
  refine h.bind (h.forwardTo c sender) fun done => ?_
  exact h.bind (h.writes ((writes_holdReceiver c _).mono (by decide))) fun _ => h.pure _

lemma exec_close (h : Answers R) (c : ChannelId) (err : C.Error) :
    Prog.Keeps R (Call.exec (.close c err)) := by
  refine h.bind (h.writes ((writes_holdReceiver c _).mono (by decide))) fun _ => ?_
  exact h.bind (h.close c err) fun _ => h.pure _

lemma exec_responderRespond (h : Answers R) (r : RequestId) (resp : C.Results) :
    Prog.Keeps R (Call.exec (.responderRespond r resp)) :=
  h.bind (h.respond r resp) fun _ => h.pure _

end Answers

end Recapn.Channel

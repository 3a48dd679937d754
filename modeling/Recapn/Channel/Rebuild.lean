/-
# Rebuilding a pipelined client

A client that is built again with the same key is one of the same channel, as long as that is alive.
It is alive as long as it has senders, but also while requests are queued in it: they keep their
parent alive.  A sender is only to be added to others that are there, and that is asserted.
-/
import Recapn.Channel.Gone

namespace Recapn.Channel

open Recapn.Lib Recapn.Lib.Prog Parts

variable {C : Chan} {c d : ChannelId} {r r' : RequestId} {key : C.PipelineKey}

/-! ## With debug assertions -/

namespace Debug

/-- `ResolutionState::add_sender`, with its debug assertion. -/
def addSender (c : ChannelId) : ChanM C Unit := do
  let ch ← getChannel c
  let old := ch.senderCount
  Channel.addSender c
  if old = 0 then Prog.halt .panic
  else pure ()

/-- `WeakChannel::sender`, with debug assertions. -/
def weakSender (weak : ChannelId) : ChanM C (Option Sender) := do
  let w ← Prog.get
  if w.freed weak then pure none
  else do
    addSender weak
    pure (some ⟨weak⟩)

/-- `PipelineBuilder::build`, with debug assertions, while the pipeline is not set. -/
def build (r : RequestId) (key : C.PipelineKey) : ChanM C (Option Sender) := do
  let req ← getRequest r
  if req.state.isPipelineSet then pure none
  else
    match req.pipelineMap.lookup key with
    | some occupied => do
      let sender ← weakSender occupied
      match sender with
      | some sender => pure (some sender)
      | none => Channel.build.insert r key (req.pipelineMap.filter fun entry => entry.1 ≠ key)
    | none => Channel.build.insert r key req.pipelineMap

end Debug

/-- A channel with this key is alive and waits in the map. -/
def World.Waiting (w : World C) (r : RequestId) (key : C.PipelineKey) (c : ChannelId) : Prop :=
  (w.request r).pipelineMap.lookup key = some c ∧ w.freed c = false

section Debug

variable {w w' : World C} {out : Option Sender}

lemma debug_addSender {u : Unit} (h : addSender c w = .ok u w')
    (hcount : (w.channel c).senderCount ≠ 0) : Debug.addSender c w = .ok u w' := by
  unfold Debug.addSender
  rw [bind_of_ok (show getChannel c w = .ok (w.channel c) w from rfl), bind_of_ok h,
    if_neg_apply hcount]
  rfl

lemma debug_addSender_panics {u : Unit} (h : Debug.addSender c w = .ok u w') :
    (w.channel c).senderCount ≠ 0 := by
  have hrest := of_bind rfl h
  obtain ⟨_, w₁, hadd, hassert⟩ := bind_eq_ok.1 hrest
  rcases ite_eq_ok.1 hassert with ⟨-, hhalt⟩ | ⟨hcount, -⟩
  · cases hhalt
  · exact hcount

/-- A client is built without a failed assertion, if the channel that waits has a sender. -/
lemma debug_build (h : build r key w = .ok out w')
    (hcount : ∀ c, w.Waiting r key c → (w.channel c).senderCount ≠ 0) :
    Debug.build r key w = .ok out w' := by
  have hrest := of_bind rfl h
  unfold Debug.build
  rw [bind_of_ok (show getRequest r w = .ok (w.request r) w from rfl)]
  rcases ite_eq_ok.1 hrest with ⟨hset, hpure⟩ | ⟨hset, hentry⟩
  · rw [if_pos_apply hset]
    exact hpure
  · rw [if_neg_apply hset]
    rcases hlookup : (w.request r).pipelineMap.lookup key with _ | occupied
    · rw [hlookup] at hentry
      exact hentry
    · rw [hlookup] at hentry
      obtain ⟨sender, w₁, hweak, hsender⟩ := bind_eq_ok.1 hentry
      have hdebug : Debug.weakSender occupied w = .ok sender w₁ := by
        have hweak' := of_bind rfl hweak
        unfold Debug.weakSender
        rw [bind_of_ok (show (Prog.get : ChanM C _) w = .ok w w from rfl)]
        rcases ite_eq_ok.1 hweak' with ⟨hfreed, hpure⟩ | ⟨hfreed, hupgrade⟩
        · rw [if_pos_apply hfreed]
          exact hpure
        · rw [if_neg_apply hfreed]
          obtain ⟨_, w₂, hadd, hpure⟩ := bind_eq_ok.1 hupgrade
          have halive : w.Waiting r key occupied := ⟨hlookup, Bool.eq_false_iff.2 hfreed⟩
          rw [bind_of_ok (debug_addSender hadd (hcount occupied halive))]
          exact hpure
      show (Debug.weakSender occupied >>= _) w = _
      rw [bind_of_ok hdebug]
      exact hsender

/-- Conversely a client that was built was of a channel that had a sender. -/
lemma count_of_debug_build (h : Debug.build r key w = .ok out w')
    (hset : (w.request r).state.isPipelineSet = false) (hwaiting : w.Waiting r key c) :
    (w.channel c).senderCount ≠ 0 := by
  have hrest := of_bind rfl h
  rcases ite_eq_ok.1 hrest with ⟨hset', -⟩ | ⟨-, hentry⟩
  · rw [hset] at hset'
    cases hset'
  · rw [hwaiting.1] at hentry
    obtain ⟨sender, w₁, hweak, -⟩ := bind_eq_ok.1 hentry
    have hweak' := of_bind rfl hweak
    rcases ite_eq_ok.1 hweak' with ⟨hfreed, -⟩ | ⟨-, hupgrade⟩
    · rw [hwaiting.2] at hfreed
      cases hfreed
    · obtain ⟨_, w₂, hadd, -⟩ := bind_eq_ok.1 hupgrade
      exact debug_addSender_panics hadd

end Debug

/-! ## What is built is in the map -/

section Built

variable {w w' : World C} {map : List (C.PipelineKey × ChannelId)}

lemma lookup_filter_self (map : List (C.PipelineKey × ChannelId)) (key : C.PipelineKey) :
    (map.filter fun entry => entry.1 ≠ key).lookup key = none := by
  rw [List.lookup_eq_none_iff]
  intro entry hentry
  have hne := (List.mem_filter.1 hentry).2
  rw [decide_eq_true_iff] at hne
  exact bne_iff_ne.2 hne.symm

lemma lookup_filter_of_ne (map : List (C.PipelineKey × ChannelId)) {key key' : C.PipelineKey}
    (h : key' ≠ key) :
    (map.filter fun entry => entry.1 ≠ key).lookup key' = map.lookup key' := by
  induction map with
  | nil => rfl
  | cons entry map ih =>
    obtain ⟨k, c⟩ := entry
    by_cases hk : k = key
    · rw [List.filter_cons_of_neg (by simpa using hk), ih, List.lookup_cons, hk]
      rw [show (key' == key) = false from beq_eq_false_iff_ne.2 h]
    · rw [List.filter_cons_of_pos (by simpa using hk), List.lookup_cons, List.lookup_cons, ih]

/-- A new channel is put into the map. -/
lemma build_insert_map {out : Option Sender} (h : build.insert r key map w = .ok out w') :
    out = some ⟨w.channels⟩ ∧ (w'.request r).pipelineMap = map ++ [(key, w.channels)] ∧
      (∀ r', r' ≠ r → (w'.request r').reply = (w.request r').reply) ∧
      (w'.request r).reply = { (w.request r).reply with map := (w'.request r).pipelineMap } := by
  obtain ⟨w₁, hadd, rfl, rfl⟩ := build_insert_eq_ok h
  have hsame : ∀ {p}, p ∉ [Part.receivers] → World.Same p w w₁ := fun hp =>
    (writes_addReceiver r).ok hadd hp
  have hchannels : w₁.channels = w.channels := hsame (p := .channels) (by decide)
  have hreply : ∀ r', (w₁.request r').reply = (w.request r').reply := fun r' => by
    have hpipeline := hsame (p := .pipeline) (by decide) r'
    unfold SharedRequest.reply
    rw [show (w₁.request r').response = (w.request r').response from
      hsame (p := .response) (by decide) r', hpipeline.1, hpipeline.2.1, hpipeline.2.2]
  refine ⟨by rw [hchannels], ?_, fun r' hr => ?_, ?_⟩
  · rw [World.request_modifyRequest_self, hchannels]
  · rw [World.request_modifyRequest_of_ne _ _ hr]
    exact hreply r'
  · rw [World.request_modifyRequest_self, ← hreply r]
    rfl

/-- The client that is built is in the map under its key; it is the one that waits there, if one
does, and nothing else in the maps has changed. -/
lemma build_map {sender : Sender} (h : build r key w = .ok (some sender) w') :
    (w'.request r).pipelineMap.lookup key = some sender.shared ∧
      (∀ c, w.Waiting r key c → sender.shared = c) ∧
      (∀ key', key' ≠ key →
        (w'.request r).pipelineMap.lookup key' = (w.request r).pipelineMap.lookup key') ∧
      (∀ r', r' ≠ r → (w'.request r').reply = (w.request r').reply) ∧
      (w'.request r).reply = { (w.request r).reply with map := (w'.request r).pipelineMap } := by
  rcases build_cases h with ⟨-, hnone, -⟩ | ⟨-, ⟨c, hsome, hlookup, -, hadd⟩ | ⟨hfreed, hinsert⟩⟩
  · cases hnone
  · cases hsome
    have hsame := (writes_addSender c).ok hadd (p := .pipeline) List.not_mem_nil
    have hreply : ∀ r', (w'.request r').reply = (w.request r').reply := fun r' => by
      have hpipeline := hsame r'
      have hresponse := (writes_addSender c).ok hadd (p := .response) List.not_mem_nil
      unfold SharedRequest.reply
      rw [show (w'.request r').response = (w.request r').response from hresponse r',
        hpipeline.1, hpipeline.2.1, hpipeline.2.2]
    refine ⟨by rw [(hsame r).1, hlookup], fun c' hc => ?_, fun key' _ => by rw [(hsame r).1],
      fun r' _ => hreply r', ?_⟩
    · have hcell := hc.1
      rw [hlookup] at hcell
      exact Option.some.inj hcell
    · rw [hreply r, (hsame r).1]
      rfl
  · obtain ⟨hsender, hmap, hmaps⟩ := build_insert_map hinsert
    cases hsender
    refine ⟨?_, fun c hc => ?_, fun key' hne => ?_, hmaps⟩
    · rw [hmap, List.lookup_append, lookup_filter_self, List.lookup_cons_self]
      rfl
    · -- the channel in the map is not there any more
      have hgone := hfreed c hc.1
      rw [hc.2] at hgone
      cases hgone
    · rw [hmap, List.lookup_append, lookup_filter_of_ne _ hne, List.lookup_cons,
        show (key' == key) = false from beq_eq_false_iff_ne.2 hne]
      exact Option.or_none

/-- No client is built when the pipeline is set. -/
lemma build_none (h : build r key w = .ok none w') : w' = w := by
  rcases build_cases h with ⟨-, -, hsame⟩ | ⟨-, ⟨c, hsome, -⟩ | ⟨-, hinsert⟩⟩
  · exact hsame
  · cases hsome
  · cases (build_insert_map hinsert).1

/-- While the pipeline is not set a client is built. -/
lemma build_some {out : Option Sender} (h : build r key w = .ok out w')
    (hset : (w.request r).state.isPipelineSet = false) : ∃ sender, out = some sender := by
  rcases build_cases h with ⟨hset', -⟩ | ⟨-, ⟨c, hsome, -⟩ | ⟨-, hinsert⟩⟩
  · rw [hset] at hset'
    cases hset'
  · exact ⟨_, hsome⟩
  · exact ⟨_, (build_insert_map hinsert).1⟩

end Built

/-! ## What waits stays in the map -/

/-- The pipeline of a request is set: nothing waits, and the response is there, with what clients
come from. -/
structure Reply.Set (reply : Reply C) : Prop where
  isSet : reply.isSet = true
  map : reply.map = []
  response : reply.response ≠ none
  dest : reply.dest ≠ none

/-- The map of a request is the same, or its pipeline is set. -/
def World.Spares (r : RequestId) (w w' : World C) : Prop :=
  (w'.request r).reply.Set ∨
    ((w'.request r).reply.map = (w.request r).reply.map ∧
      (w'.request r).reply.isSet = (w.request r).reply.isSet ∧
      ((w.request r).reply.response ≠ none → (w'.request r).reply.response ≠ none) ∧
      ((w.request r).reply.dest ≠ none → (w'.request r).reply.dest ≠ none))

/-- The program leaves the map of a request, or sets its pipeline. -/
abbrev Spares {α : Type} (r : RequestId) (x : ChanM C α) : Prop := Prog.Keeps (World.Spares r) x

section Spares

variable {α β : Type}

lemma spares_of_reply {w w' : World C} (h : (w'.request r).reply = (w.request r).reply) :
    World.Spares r w w' := by
  right
  rw [h]
  exact ⟨rfl, rfl, fun hne => hne, fun hne => hne⟩

lemma World.Spares.refl (w : World C) : w.Spares r w := spares_of_reply rfl

lemma World.Spares.trans {w w' w'' : World C} (h : World.Spares r w w') (h' : World.Spares r w' w'') :
    World.Spares r w w'' := by
  rcases h' with hset | ⟨hmap', hflag', hresponse', hdest'⟩
  · exact Or.inl hset
  · rcases h with hset | ⟨hmap, hflag, hresponse, hdest⟩
    · exact Or.inl ⟨hflag'.trans hset.isSet, hmap'.trans hset.map, hresponse' hset.response,
        hdest' hset.dest⟩
    · exact Or.inr ⟨hmap'.trans hmap, hflag'.trans hflag, fun hne => hresponse' (hresponse hne),
        fun hne => hdest' (hdest hne)⟩

lemma Writes.spares {K : List Part} {x : ChanM C α} (h : Writes K x)
    (hK : ∀ p ∈ [Part.response, .pipeline], p ∉ K) : Spares r x := by
  refine keeps_of_ok fun w a w' hrun => spares_of_reply ?_
  have hresponse := h.ok hrun (hK .response (by decide)) r
  have hpipeline := h.ok hrun (hK .pipeline (by decide)) r
  unfold SharedRequest.reply
  rw [show (w'.request r).response = (w.request r).response from hresponse, hpipeline.1,
    hpipeline.2.1, hpipeline.2.2]

lemma spares_bind {x : ChanM C α} {f : α → ChanM C β} (hx : Spares r x)
    (hf : ∀ a, Spares r (f a)) : Spares r (x >>= f) :=
  keeps_bind (fun _ _ _ h h' => h.trans h') hx hf

lemma spares_pure (a : α) : Spares r (pure a : ChanM C α) := keeps_pure World.Spares.refl a

/-- A request is written, and what was there of its reply is there. -/
lemma spares_modifyRequest {f : SharedRequest C → SharedRequest C}
    (h : ∀ req, (f req).reply.map = req.reply.map ∧ (f req).reply.isSet = req.reply.isSet ∧
      (req.reply.response ≠ none → (f req).reply.response ≠ none) ∧
      (req.reply.dest ≠ none → (f req).reply.dest ≠ none)) : Spares r (modifyRequest r' f) := by
  refine keeps_of_ok fun w u w' hmodify => ?_
  cases hmodify
  by_cases hr : r = r'
  · right
    rw [hr, World.request_modifyRequest_self]
    exact h _
  · exact spares_of_reply (by rw [World.request_modifyRequest_of_ne _ _ hr])

/-- When the map is resolved the pipeline is set, if there is what to resolve it with. -/
lemma resolvePipelineMap_spares {w w' : World C} {u : Unit}
    (h : resolvePipelineMap r' w = .ok u w')
    (hready : (w.request r').reply.response ≠ none ∧ (w.request r').reply.dest ≠ none) :
    World.Spares r w w' := by
  have hrest := of_bind rfl h
  obtain ⟨_, w₁, htake, hrest'⟩ := bind_eq_ok.1 hrest
  obtain ⟨_, w₂, hupgrade, hset⟩ := bind_eq_ok.1 hrest'
  have hpipeline := (writes_upgradeAll _).ok hupgrade (p := .pipeline) (by decide)
  have hresponse := (writes_upgradeAll _).ok hupgrade (p := .response) (by decide)
  have hreply : ∀ r, (w₂.request r).reply = (w₁.request r).reply := fun r => by
    unfold SharedRequest.reply
    rw [show (w₂.request r).response = (w₁.request r).response from hresponse r, (hpipeline r).1,
      (hpipeline r).2.1, (hpipeline r).2.2]
  cases htake
  cases hset
  by_cases hr : r = r'
  · left
    have hafter := hreply r'
    rw [World.request_modifyRequest_self] at hafter
    have hmap := congrArg Reply.map hafter
    have hready' : (w₂.request r').reply.response ≠ none ∧ (w₂.request r').reply.dest ≠ none := by
      rw [hafter]
      exact hready
    rw [hr, World.request_modifyRequest_self]
    exact ⟨rfl, hmap, hready'.1, hready'.2⟩
  · refine spares_of_reply ?_
    rw [World.request_modifyRequest_of_ne _ _ hr, hreply r, World.request_modifyRequest_of_ne _ _ hr]

lemma spares_responderRespond (r' : RequestId) (resp : C.Results) :
    Spares r (Responder.respond r' resp) := by
  refine keeps_of_ok fun w u w' h => ?_
  obtain ⟨_, w₁, howner, hrest⟩ := bind_eq_ok.1 h
  obtain ⟨_, w₂, hmodify, hresolve⟩ := bind_eq_ok.1 hrest
  have hwrites : Spares r (modifyRequest (C := C) r' fun req => { req with
      response := some resp, state := req.state.setValue, pipelineDest := some none }) :=
    spares_modifyRequest fun req => ⟨rfl, rfl, fun _ => nofun, fun _ => nofun⟩
  have hfirst : World.Spares r w w₁ := ((writes_setOwner r' _).spares (by decide)).ok howner
  refine (hfirst.trans (hwrites.ok hmodify)).trans (resolvePipelineMap_spares hresolve ?_)
  cases hmodify
  rw [World.request_modifyRequest_self]
  exact ⟨nofun, nofun⟩

lemma spares_setPipeline (r' : RequestId) (dst : C.Pipeline) :
    Spares r (Responder.setPipeline r' dst) := by
  refine keeps_of_ok fun w u w' h => ?_
  obtain ⟨_, w₁, hmodify, hrest⟩ := bind_eq_ok.1 h
  have hrest' := of_bind rfl hrest
  obtain ⟨_, w₂, hrequire, hrest''⟩ := bind_eq_ok.1 hrest'
  obtain ⟨_, w₃, hresolve, howner⟩ := bind_eq_ok.1 hrest''
  obtain ⟨hresponse, rfl⟩ := require_eq_ok.1 hrequire
  have hwrites : Spares r (modifyRequest (C := C) r' fun req => { req with
      pipelineDest := some (some dst) }) :=
    spares_modifyRequest fun req => ⟨rfl, rfl, fun hne => hne, fun _ => nofun⟩
  have hlast : World.Spares r w₃ w' := ((writes_setOwner r' _).spares (by decide)).ok howner
  refine World.Spares.trans (World.Spares.trans (hwrites.ok hmodify)
    (resolvePipelineMap_spares hresolve ⟨Option.isSome_iff_ne_none.1 hresponse, ?_⟩)) hlast
  cases hmodify
  rw [World.request_modifyRequest_self]
  exact nofun

lemma answers_spares (r : RequestId) : Answers (C := C) (World.Spares r) where
  refl := World.Spares.refl
  trans _ _ _ h h' := h.trans h'
  writes h := h.spares (by decide)
  respond := spares_responderRespond

end Spares

/-- The channel is in the map under this key, unless it is deallocated, or the pipeline is set, or
the request is gone and no builder of it is left. -/
def World.Kept (w : World C) (r : RequestId) (key : C.PipelineKey) (c : ChannelId) : Prop :=
  w.freed c = true ∨ (w.request r).reply.isSet = true ∨ (some r ∉ w.trackers ∧ w.Gone r) ∨
    (w.request r).reply.map.lookup key = some c

section Calls

variable {w w' : World C} {out : Output C} {call : Call C}

/-- What is deallocated stays it. -/
lemma Call.exec_freed (h : call.exec w = .ok out w') (hfreed : w.freed c = true) :
    w'.freed c = true := by
  have hapart : Part.freed ∉ call.parts → w'.freed c = true := fun hK => by
    rw [show w'.freed = w.freed from (Call.writes_exec call).ok h hK]
    exact hfreed
  cases call with
  | freeChannel c' =>
    obtain ⟨_, hfree, rfl⟩ := bind_pure_ok h
    have hrest := of_bind rfl hfree
    obtain ⟨_, w₂, hmodify, hreceiver⟩ := bind_eq_ok.1 hrest
    obtain ⟨_, w₃, hdrop, hsender⟩ := bind_eq_ok.1 hreceiver
    have hsame₃ : w₃.freed = w₂.freed :=
      (writes_sharedDropReceiver _).ok hdrop (p := .freed) (by decide)
    have hsame' : w'.freed = w₃.freed := by
      rcases hheld : (w.channel c').held with _ | sender
      · rw [hheld] at hsender
        cases hsender
        rfl
      · rw [hheld] at hsender
        exact (writes_removeSender _).ok hsender (p := .freed) (by decide)
    cases hmodify
    rw [hsame', hsame₃]
    show Function.update w.freed c' true c = true
    by_cases hc : c = c'
    · rw [hc, Function.update_self]
    · rw [Function.update_of_ne hc]
      exact hfreed
  | _ => exact hapart (of_decide_eq_true rfl)

lemma newRequest_trackers {msg : C.Parameters} {receivers : ℕ} {u : Unit}
    (h : newRequest msg receivers w = .ok u w') (hr : r < w.requests)
    (hnot : some r ∉ w.trackers) : some r ∉ w'.trackers := by
  cases h
  intro hmem
  rcases List.mem_append.1 hmem with hmem | hmem
  · exact hnot hmem
  · cases List.eq_of_mem_replicate hmem
    exact Nat.lt_irrefl _ hr

/-- A request without trackers gets none again: a tracker comes of another one. -/
lemma Call.exec_trackers (h : call.exec w = .ok out w') (hr : r < w.requests)
    (hnot : some r ∉ w.trackers) : some r ∉ w'.trackers := by
  have hapart : Part.trackers ∉ call.parts → some r ∉ w'.trackers := fun hK => by
    rw [show w'.trackers = w.trackers from (Call.writes_exec call).ok h hK]
    exact hnot
  cases call with
  | requestResponse msg | requestPipeline msg | requestResponsePipeline msg =>
    cases h
    exact newRequest_trackers rfl hr hnot
  | cloneTracker t =>
    obtain ⟨r', w₁, ht, hadd, rfl⟩ := exec_cloneTracker_ok h
    have hsame : w₁.trackers = w.trackers :=
      (writes_addReceiver r').ok hadd (p := .trackers) (by decide)
    show some r ∉ w₁.trackers ++ [some r']
    rw [hsame]
    intro hmem
    rcases List.mem_append.1 hmem with hmem | hmem
    · exact hnot hmem
    · rw [List.mem_singleton.1 hmem] at hnot
      exact hnot (List.mem_of_getElem? ht)
  | dropTracker t =>
    obtain ⟨r', -, hremove⟩ := exec_dropTracker_ok h
    have hsame : w'.trackers = w.trackers.set t none :=
      (writes_removeReceiver r').ok hremove (p := .trackers) (by decide)
    rw [hsame]
    intro hmem
    rcases List.mem_or_eq_of_mem_set hmem with hmem | hmem
    · exact hnot hmem
    · cases hmem
  | _ => exact hapart (of_decide_eq_true rfl)

/-- No call takes a channel out of the map of a request but to set its pipeline, unless it builds a
client or deallocates the request. -/
lemma Call.exec_spares (hr : r < w.requests)
    (hbuild : ∀ t key, call = .build t key → w.tracker t ≠ some r) (hfree : call ≠ .freeRequest r)
    (h : call.exec w = .ok out w') : World.Spares r w w' := by
  have hapart : (∀ p ∈ [Part.response, .pipeline], p ∉ call.parts) → World.Spares r w w' := fun hK =>
    ((Call.writes_exec call).spares hK).ok h
  have hnewRequest : ∀ {msg receivers u w₁}, newRequest msg receivers w = .ok u w₁ →
      World.Spares r w w₁ := fun hnew => by
    cases hnew
    exact spares_of_reply (congrArg SharedRequest.reply (Function.update_of_ne (Nat.ne_of_lt hr) _ _))
  cases call with
  | forwardTo c' other => exact ((answers_spares r).exec_forwardTo c' other).ok h
  | close c' err => exact ((answers_spares r).exec_close c' err).ok h
  | responderRespond r' resp => exact ((answers_spares r).exec_responderRespond r' resp).ok h
  | setPipeline r' dst => exact (spares_bind (spares_setPipeline r' dst) fun _ => spares_pure _).ok h
  | resultsSenderRespond r' resp =>
    refine (spares_bind (spares_bind ((writes_setOwner r' _).spares (by decide)) fun _ => ?_)
      fun _ => spares_pure _).ok h
    exact spares_modifyRequest fun req => ⟨rfl, rfl, fun _ => nofun, fun hne => hne⟩
  | requestResponse msg | requestPipeline msg | requestResponsePipeline msg =>
    cases h
    exact hnewRequest rfl
  | build t key =>
    obtain ⟨r', ht, hcases⟩ := exec_build_cases h
    have hne : r ≠ r' := by
      rintro rfl
      refine hbuild t key rfl ?_
      unfold World.tracker
      rw [ht]
      rfl
    rcases hcases with ⟨hbuilt, -⟩ | ⟨sender, w₁, hbuilt, -, rfl⟩
    · exact spares_of_reply (by rw [build_none hbuilt])
    · exact spares_of_reply ((build_map hbuilt).2.2.2.1 r hne)
  | freeRequest r' =>
    have hne : r ≠ r' := fun heq => hfree (by rw [heq])
    cases h
    exact spares_of_reply (by rw [World.request_modifyRequest_of_ne _ _ hne])
  | _ => exact hapart (of_decide_eq_true rfl)

/-- What is in the map is kept there, until the pipeline is set. -/
lemma Call.exec_kept (hallowed : call.Allowed w) (hplaced : Placed (fun _ => 0) w)
    (hr : r < w.requests) (h : call.exec w = .ok out w') (hkept : w.Kept r key c) :
    w'.Kept r key c := by
  have hspared : World.Spares r w w' → w'.Kept r key c := by
    intro hspares
    rcases hspares with hset | ⟨hmap, hflag, -, -⟩
    · exact Or.inr (Or.inl hset.isSet)
    · rcases hkept with hfreed | hset | ⟨hnot, hgone⟩ | hlookup
      · exact Or.inl (Call.exec_freed h hfreed)
      · exact Or.inr (Or.inl (hflag.trans hset))
      · exact Or.inr (Or.inr (Or.inl ⟨Call.exec_trackers h hr hnot, Call.exec_gone hallowed hr h hgone⟩))
      · exact Or.inr (Or.inr (Or.inr ((congrArg (List.lookup key) hmap).trans hlookup)))
  by_cases hbuilds : ∃ t key', call = .build t key' ∧ w.tracker t = some r
  · obtain ⟨t, key', rfl, htracked⟩ := hbuilds
    obtain ⟨r', ht, hcases⟩ := Call.exec_build_cases h
    obtain rfl : r' = r := by
      unfold World.tracker at htracked
      rw [ht] at htracked
      exact Option.some.inj htracked
    rcases hcases with ⟨hbuild, -⟩ | ⟨sender, w₂, hbuild, -, rfl⟩
    · rw [build_none hbuild]
      exact hkept
    · obtain ⟨hself, hwaiting, hother, -, hreply⟩ := build_map hbuild
      rcases hkept with hfreed | hset | ⟨hnot, -⟩ | hlookup
      · exact Or.inl (Call.exec_freed h hfreed)
      · exact Or.inr (Or.inl ((congrArg Reply.isSet hreply).trans hset))
      · exact absurd (List.mem_of_getElem? ht) hnot
      · by_cases hfreed : w.freed c = true
        · exact Or.inl (Call.exec_freed h hfreed)
        · refine Or.inr (Or.inr (Or.inr ?_))
          by_cases hkey : key = key'
          · obtain rfl := hkey
            -- the channel that waits is the one that the client is of
            refine hself.trans ?_
            rw [hwaiting c ⟨hlookup, Bool.eq_false_iff.2 hfreed⟩]
          · exact (hother key hkey).trans hlookup
  · by_cases hfree : call = .freeRequest r
    · subst hfree
      -- nothing tracks a request that is deallocated, and nobody owns it
      have hnot : some r ∉ w.trackers := fun hmem => hallowed.2 (Or.inr (Or.inl hmem))
      have howner : (w.request r).owner = .none := by
        by_contra hne
        exact hallowed.2 (Or.inl hne)
      have hgone : w.Gone r := by
        refine ⟨howner, fun d hmem => ?_⟩
        have hd : d < w.channels := by
          by_contra hlater
          rw [hplaced.fresh (Nat.not_lt.1 hlater)] at hmem
          exact absurd hmem List.not_mem_nil
        have hchannel : (w.request r).owner = .channel := (hplaced.of_mem hd hmem).2.2.1
        rw [howner] at hchannel
        cases hchannel
      exact Or.inr (Or.inr (Or.inl ⟨Call.exec_trackers h hr hnot, Call.exec_gone hallowed hr h hgone⟩))
    · refine hspared (Call.exec_spares hr (fun t key' hcall htracked => ?_) hfree h)
      exact hbuilds ⟨t, key', hcall, htracked⟩

end Calls

/-! ## Runs -/

/-- The step builds a client with this key, while the pipeline is not set. -/
def Step.Builds (step : Step C) (r : RequestId) (key : C.PipelineKey) : Prop :=
  ∃ t, step.call = .build t key ∧ step.before.tracker t = some r ∧
    (step.before.request r).state.isPipelineSet = false

/-- The step returned a sender of this channel. -/
def Step.Returns (step : Step C) (c : ChannelId) : Prop :=
  ∃ s, step.output = .sender s ∧ step.after.sender s = some ⟨c⟩

/-- A client is built without a failed assertion, and it is of the same channel as one that was
built with the same key before, if that is alive. -/
structure Step.Rebuilds (step : Step C) (past : List (Step C)) (r : RequestId)
    (key : C.PipelineKey) : Prop where
  asserts : ∃ out w', Debug.build r key step.before = .ok out w'
  same : ∀ earlier ∈ past, earlier.Builds r key → ∀ c, earlier.Returns c →
    step.before.freed c = false → step.Returns c

section Runs

variable {steps : List (Step C)} {w : World C}

/-- What was run before a step is a run, too. -/
lemma Run.split (h : Run steps w) : ∀ {past step rest}, steps = past ++ step :: rest →
    Run past step.before ∧ step.Runs := by
  induction h with
  | empty =>
    intro past step rest heq
    cases past <;> cases heq
  | @step steps last h hruns ih =>
    intro past step rest heq
    rcases List.eq_nil_or_concat rest with rfl | ⟨rest', last', rfl⟩
    · obtain ⟨hpast, hlast⟩ := List.append_inj' heq rfl
      cases hlast
      exact ⟨hpast ▸ h, hruns⟩
    · rw [List.concat_eq_append, ← List.cons_append, ← List.append_assoc] at heq
      exact ih (List.append_inj' heq rfl).1

lemma handles_ne_zero_iff : w.books.handles c ≠ 0 ↔ w.HasSender c := by
  unfold Books.handles World.HasSender
  rw [← Nat.pos_iff_ne_zero, Nat.add_pos_iff_pos_or_pos, Finset.card_pos]
  refine or_congr List.count_pos_iff ?_
  constructor
  · rintro ⟨c', hc'⟩
    obtain ⟨hlt, hforwards⟩ := Finset.mem_filter.1 hc'
    exact ⟨c', Finset.mem_range.1 hlt, hforwards⟩
  · rintro ⟨c', hlt, hforwards⟩
    exact ⟨c', Finset.mem_filter.2 ⟨Finset.mem_range.2 hlt, hforwards⟩⟩

/-- A step that builds a client returns what `build` does. -/
lemma Step.Builds.ok {step : Step C} (h : step.Builds r key) (hruns : step.Runs) :
    some r ∈ step.before.trackers ∧ ∃ sender w₁, build r key step.before = .ok (some sender) w₁ ∧
      step.after.request = w₁.request ∧ step.after.freed = w₁.freed ∧
      ∀ c, step.Returns c ↔ sender.shared = c := by
  obtain ⟨t, hcall, htracked, hset⟩ := h
  have hexec := hruns.2
  rw [hcall] at hexec
  obtain ⟨r', ht, hcases⟩ := Call.exec_build_cases hexec
  obtain rfl : r' = r := by
    unfold World.tracker at htracked
    rw [ht] at htracked
    exact Option.some.inj htracked
  obtain ⟨hbuild, -⟩ | ⟨sender, w₁, hbuild, houtput, hafter⟩ := hcases
  · obtain ⟨sender, hnone⟩ := build_some hbuild hset
    cases hnone
  have hheld : step.after.sender w₁.senders.length = some sender := by
    unfold World.sender
    rw [hafter]
    simp
  refine ⟨List.mem_of_getElem? ht, sender, w₁, hbuild, by rw [hafter], by rw [hafter], fun c => ?_⟩
  constructor
  · rintro ⟨s', hs', hsender⟩
    rw [houtput] at hs'
    cases hs'
    rw [hheld] at hsender
    exact congrArg Sender.shared (Option.some.inj hsender)
  · rintro rfl
    exact ⟨_, houtput, hheld⟩

/-- A client that was built is kept in the map. -/
lemma Run.kept (h : Run steps w) : ∀ {step}, step ∈ steps → step.Builds r key → step.Returns c →
    r < w.requests ∧ w.Kept r key c := by
  induction h with
  | empty => exact fun hmem => absurd hmem List.not_mem_nil
  | @step steps last h hruns ih =>
    have hcounted := Call.exec_counted hruns.1 h.counted hruns.2
    intro step hmem hbuilds hreturns
    rcases List.mem_append.1 hmem with hmem | hmem
    · obtain ⟨hr, hkept⟩ := ih hmem hbuilds hreturns
      exact ⟨Nat.lt_of_lt_of_le hr hcounted.2.requests,
        Call.exec_kept hruns.1 h.placed hr hruns.2 hkept⟩
    · cases List.mem_singleton.1 hmem
      obtain ⟨htracked, sender, w₁, hbuild, hrequest, -, hsender⟩ := hbuilds.ok hruns
      obtain ⟨hself, -⟩ := build_map hbuild
      have hr : r < last.before.requests := by
        by_contra hlater
        have hcount : last.before.census.count r = 0 := h.counted.later (Nat.not_lt.1 hlater)
        obtain ⟨t, ht⟩ := List.mem_iff_getElem?.1 htracked
        exact Nat.lt_irrefl _ (hcount ▸ count_pos_of_tracker h.counted ht)
      refine ⟨Nat.lt_of_lt_of_le hr hcounted.2.requests, Or.inr (Or.inr (Or.inr ?_))⟩
      rw [hrequest, ← (hsender c).1 hreturns]
      exact hself

/-- **When a client can be rebuilt.**  In every run, all clients that are built again with the same
key are of the same channel, and no assertion fails, exactly if whenever one is built again and the
channel is alive, it has senders. -/
theorem Run.rebuilds (h : Run steps w) :
    (∀ past step rest, steps = past ++ step :: rest → ∀ r key, step.Builds r key →
        step.Rebuilds past r key) ↔
      ∀ step ∈ steps, ∀ r key, step.Builds r key → ∀ c, step.before.Waiting r key c →
        step.before.HasSender c := by
  have hcount : ∀ {past : List (Step C)} {step rest}, steps = past ++ step :: rest → ∀ c,
      (step.before.channel c).senderCount ≠ 0 ↔ step.before.HasSender c := by
    intro past step rest heq c
    have hreached : Reachable step.before := ⟨past, (h.split heq).1⟩
    rw [hreached.senderCount c, handles_ne_zero_iff]
  constructor
  · intro hrebuilds step hmem r key hbuilds c hwaiting
    obtain ⟨past, rest, heq⟩ := List.append_of_mem hmem
    obtain ⟨out, w', hdebug⟩ := (hrebuilds past step rest heq r key hbuilds).asserts
    obtain ⟨t, -, -, hset⟩ := hbuilds
    exact (hcount heq c).1 (count_of_debug_build hdebug hset hwaiting)
  · intro hsenders past step rest heq r key hbuilds
    have hmem : step ∈ steps := by
      rw [heq]
      exact List.mem_append_right _ List.mem_cons_self
    obtain ⟨hpast, hruns⟩ := h.split heq
    obtain ⟨htracked, sender, w₁, hbuild, -, -, hsender⟩ := hbuilds.ok hruns
    constructor
    · exact ⟨_, _, debug_build hbuild fun c hwaiting =>
        (hcount heq c).2 (hsenders step hmem r key hbuilds c hwaiting)⟩
    · intro earlier hearlier hbuilt c hreturned halive
      obtain ⟨t, -, -, hset⟩ := hbuilds
      obtain ⟨-, hkept⟩ := hpast.kept hearlier hbuilt hreturned
      obtain ⟨-, hwaiting, -⟩ := build_map hbuild
      rcases hkept with hfreed | hset' | hnot | hlookup
      · rw [halive] at hfreed
        cases hfreed
      · cases hset.symm.trans hset'
      · exact absurd htracked hnot.1
      · exact (hsender c).2 (hwaiting c ⟨hlookup, halive⟩)

end Runs

/-- A client is built twice, while the first one is there. -/
def rebuildCalls : List (Call unitChan) := [.requestPipeline (), .build 0 (), .build 0 ()]

theorem Run.rebuilds_held :
    ∃ steps, ∃ w : World unitChan, Run steps w ∧ steps.map Step.call = rebuildCalls ∧
      ((∀ past step rest, steps = past ++ step :: rest → ∀ r key, step.Builds r key →
          step.Rebuilds past r key) ↔
        ∀ step ∈ steps, ∀ r key, step.Builds r key → ∀ c, step.before.Waiting r key c →
          step.before.HasSender c) := by
  obtain ⟨steps, hrun, hcalls⟩ := Run.empty.runCalls
    (show Channel.runCalls rebuildCalls World.empty = some _ from rfl)
  exact ⟨steps, _, hrun, hcalls, Run.rebuilds hrun⟩

/-- A request is sent on a client, and the client is dropped: it waits in the channel, which has no
sender any more. -/
def droppedCalls : List (Call unitChan) :=
  [.requestPipeline (), .build 0 (), .requestResponse (), .send 0 1, .dropSender 0]

/-- The channel is alive, and a client of it is built again: the assertion fails. -/
theorem rebuild_asserts :
    ∃ past, ∃ step : Step unitChan, Run (past ++ [step]) step.after ∧
      past.map Step.call = droppedCalls ∧ step.call = .build 0 () ∧ step.Builds 0 () ∧
      step.before.Strong 0 ∧ step.before.Waiting 0 () 0 ∧ ¬ step.before.HasSender 0 ∧
      Debug.build 0 () step.before = .halt .panic ∧ ¬ step.Rebuilds past 0 () := by
  obtain ⟨past, hrun, hcalls⟩ := Run.empty.runCalls
    (show Channel.runCalls droppedCalls World.empty = some _ from rfl)
  have hstep : ∀ {w out w'}, Call.exec (.build 0 ()) w = .ok out w' → Run past w →
      Run (past ++ [⟨w, .build 0 (), out, w'⟩]) w' := fun hexec hpast =>
    @Run.step unitChan past ⟨_, _, _, _⟩ hpast ⟨trivial, hexec⟩
  refine ⟨past, ⟨_, _, _, _⟩, hstep rfl hrun, hcalls, rfl, ⟨0, rfl, rfl, rfl⟩, by decide, ⟨rfl, rfl⟩,
    by decide, rfl, ?_⟩
  intro hrebuilds
  obtain ⟨out, w', hdebug⟩ := hrebuilds.asserts
  cases hdebug

end Recapn.Channel

/-
# Building clients while a response arrives

A client that is built before the pipeline is set waits in the map of its request.  The responder
takes what waits out of the map, gives it receivers without the lock, and looks into the map again,
until it finds nothing there: then it sets the flag, with the lock.  Those who build look at the
flag first without the lock and then with it.
-/
import Recapn.Lib.Once
import Recapn.Channel.Pipelines
import Recapn.Channel.Rebuild

namespace Recapn.Channel

open Recapn.Lib Recapn.Lib.Prog Parts

variable {C : Chan} {c : ChannelId} {r : RequestId} {key : C.PipelineKey}

/-! ## Threads that build, and the responder -/

/-- Where a thread is in `PipelineBuilder::build`. -/
inductive Builder (C : Chan) where
  | idle
  /-- The flag was not set, and the thread is to lock the map. -/
  | locking (t : TrackerId) (key : C.PipelineKey)
  /-- The flag was set, and the thread is to get a client from the pipeline. -/
  | resolving (key : C.PipelineKey)

/-- Where the thread of the responder is in `Responder::respond`. -/
inductive Responding (C : Chan) where
  | before
  /-- `resolve_pipeline_map`, where it locks the map. -/
  | locking
  /-- `resolve_pipeline_map`, without the lock, with what it has taken out of the map. -/
  | upgrading (map : List (C.PipelineKey × ChannelId))
  | returned

/-- What was taken out of the map and has no receiver yet. -/
def Responding.taken : Responding C → List (C.PipelineKey × ChannelId)
  | upgrading map => map
  | _ => []

/-- `Responder::respond`, up to the map. -/
def Responder.answer (r : RequestId) (resp : C.Results) : ChanM C Unit := do
  setOwner r .none
  modifyRequest r fun req =>
    { req with response := some resp, state := req.state.setValue, pipelineDest := some none }

/-- Take what there is out of the map. -/
def takeMap (r : RequestId) : ChanM C (List (C.PipelineKey × ChannelId)) := do
  let req ← getRequest r
  modifyRequest r fun req => { req with pipelineMap := [] }
  pure req.pipelineMap

/-- Give one pipelined channel a receiver, if it is there still. -/
def upgradeOne (value : ChannelId) : ChanM C Bool := do
  let upgraded ← weakUpgrade value
  let _ ← (if upgraded then
      Prog.modify fun w => { w with receiver := Function.update w.receiver value true }
    else pure ())
  pure upgraded

/-- `AtomicState::set_pipeline`. -/
def setPipelineFlag (r : RequestId) : ChanM C Unit :=
  modifyRequest r fun req => { req with state := req.state.setPipeline }

/-- The world, where those who build are and where the responder is, and what has happened: the
clients that were put into the map or found there, those that come from the pipeline, and the
receivers that the resolver of the results got. -/
structure Pipelining (C : Chan) where
  world : World C
  builder : ThreadId → Builder C
  responding : Responding C
  built : List (C.PipelineKey × ChannelId)
  sourced : List (C.PipelineKey × Option (PipelineSource C))
  handed : List (C.PipelineKey × ChannelId)

namespace Pipelining

/-- A world in which nobody builds yet and the responder has not begun. -/
def start (w : World C) : Pipelining C := ⟨w, fun _ => .idle, .before, [], [], []⟩

/-- A thread goes on. -/
def goto (m : Pipelining C) (th : ThreadId) (builder : Builder C) : Pipelining C :=
  { m with builder := Function.update m.builder th builder }

/-- What waits for a receiver. -/
def waiting (m : Pipelining C) (r : RequestId) : List (C.PipelineKey × ChannelId) :=
  m.responding.taken ++ (m.world.request r).pipelineMap

/-- A step of the responder of `r`. -/
inductive Respond (r : RequestId) : Pipelining C → Pipelining C → Prop
  | answer {m : Pipelining C} {resp : C.Results} {w : World C} (hbefore : m.responding = .before)
      (howner : (m.world.request r).owner = .responder)
      (hexec : Responder.answer r resp m.world = .ok () w) :
      Respond r m { m with world := w, responding := .locking }
  -- the flag is set before the map is unlocked
  | set {m : Pipelining C} {w : World C} (hlocking : m.responding = .locking)
      (hempty : (m.world.request r).pipelineMap = [])
      (hexec : setPipelineFlag r m.world = .ok () w) :
      Respond r m { m with world := w, responding := .returned }
  | take {m : Pipelining C} {map : List (C.PipelineKey × ChannelId)} {w : World C}
      (hlocking : m.responding = .locking) (hsome : (m.world.request r).pipelineMap ≠ [])
      (hexec : takeMap r m.world = .ok map w) :
      Respond r m { m with world := w, responding := .upgrading map }
  | upgrade {m : Pipelining C} {entry : C.PipelineKey × ChannelId}
      {map : List (C.PipelineKey × ChannelId)} {upgraded : Bool} {w : World C}
      (hupgrading : m.responding = .upgrading (entry :: map))
      (hexec : upgradeOne entry.2 m.world = .ok upgraded w) :
      Respond r m
        { m with
          world := w
          responding := .upgrading map
          handed := if upgraded then m.handed ++ [entry] else m.handed }
  | again {m : Pipelining C} (hupgrading : m.responding = .upgrading []) :
      Respond r m { m with responding := .locking }

/-- A step of a thread.  What the resolver does with a receiver that it got, and all that is done
with the clients and with other requests, are calls. -/
inductive Step (r : RequestId) : Pipelining C → Pipelining C → Prop
  | respond {m m' : Pipelining C} (h : Respond r m m') : Step r m m'
  -- nobody else responds to the request, and it is not deallocated
  | call {m : Pipelining C} {call : Call C} {out : Output C} {w : World C}
      (hallowed : call.Allowed m.world)
      (hbuild : ∀ t key, call = .build t key → m.world.tracker t ≠ some r)
      (hfree : call ≠ .freeRequest r) (hexec : call.exec m.world = .ok out w)
      (hsingle : (w.request r).state.isPipelineSet = (m.world.request r).state.isPipelineSet) :
      Step r m { m with world := w }
  -- `PipelineBuilder::build`, where it reads the flag without the lock
  | load {m : Pipelining C} {th : ThreadId} {t : TrackerId} {key : C.PipelineKey}
      (hidle : m.builder th = .idle) (ht : m.world.tracker t = some r)
      (hset : (m.world.request r).state.isPipelineSet = false) : Step r m (m.goto th (.locking t key))
  | loadSet {m : Pipelining C} {th : ThreadId} {t : TrackerId} {key : C.PipelineKey}
      (hidle : m.builder th = .idle) (ht : m.world.tracker t = some r)
      (hset : (m.world.request r).state.isPipelineSet = true) : Step r m (m.goto th (.resolving key))
  -- with the lock
  | build {m : Pipelining C} {th : ThreadId} {t : TrackerId} {key : C.PipelineKey} {s : SenderId}
      {sender : Sender} {w : World C} (hlocking : m.builder th = .locking t key)
      (ht : m.world.tracker t = some r) (hexec : (Call.build t key).exec m.world = .ok (.sender s) w)
      (hs : w.sender s = some sender) :
      Step r m { m.goto th .idle with world := w, built := m.built ++ [(key, sender.shared)] }
  | buildSet {m : Pipelining C} {th : ThreadId} {t : TrackerId} {key : C.PipelineKey} {w : World C}
      (hlocking : m.builder th = .locking t key) (ht : m.world.tracker t = some r)
      (hexec : (Call.build t key).exec m.world = .ok .pipelined w) :
      Step r m { m.goto th (.resolving key) with world := w }
  | source {m : Pipelining C} {th : ThreadId} {key : C.PipelineKey}
      (hresolving : m.builder th = .resolving key) :
      Step r m
        { m.goto th .idle with
          sourced := m.sourced ++ [(key, (m.world.request r).pipelineSource)] }

/-- The runs of threads, in any order of their steps, from a world that is reached and where nobody
has built a client of the request yet. -/
inductive Reached (r : RequestId) : Pipelining C → Prop
  | start {w : World C} (hreach : Reachable w) (hr : r < w.requests)
      (hmap : (w.request r).pipelineMap = [])
      (hset : (w.request r).state.isPipelineSet = false) : Reached r (start w)
  | step {m m' : Pipelining C} (h : Reached r m) (hstep : Step r m m') : Reached r m'

end Pipelining

/-! ## What the steps do to the world -/

section Calls

variable {w w' : World C} {call : Call C} {out : Output C}

lemma build_insert_channels {map : List (C.PipelineKey × ChannelId)} {sender : Option Sender}
    (h : build.insert r key map w = .ok sender w') : w'.channels = w.channels + 1 := by
  obtain ⟨w₁, hadd, -, rfl⟩ := build_insert_eq_ok h
  have hchannels : w₁.channels = w.channels :=
    (writes_addReceiver r).ok hadd (p := .channels) (by decide)
  show w₁.channels + 1 = _
  rw [hchannels]

/-- What is built is the channel that waits with this key, or a new one in the place of one that is
deallocated. -/
lemma build_shape {sender : Sender} (h : build r key w = .ok (some sender) w') :
    ((w.request r).pipelineMap.lookup key = some sender.shared ∧ w'.channels = w.channels ∧
      (w'.request r).pipelineMap = (w.request r).pipelineMap) ∨
    ∃ map, map.Sublist (w.request r).pipelineMap ∧ map.lookup key = none ∧
      (∀ entry ∈ (w.request r).pipelineMap, entry ∉ map → entry.1 = key) ∧
      (∀ c, (w.request r).pipelineMap.lookup key = some c → w.freed c = true) ∧
      sender.shared = w.channels ∧ w'.channels = w.channels + 1 ∧
      (w'.request r).pipelineMap = map ++ [(key, w.channels)] := by
  rcases build_cases h with ⟨-, hnone, -⟩ | ⟨-, ⟨c, hsome, hlookup, -, hadd⟩ | ⟨hfreed, hinsert⟩⟩
  · cases hnone
  · cases hsome
    have hsame : ∀ {p}, World.Same p w w' := fun {p} => (writes_addSender c).ok hadd List.not_mem_nil
    exact Or.inl ⟨hlookup, hsame (p := .channels), (hsame (p := .pipeline) r).1⟩
  · obtain ⟨hsender, hmap, -⟩ := build_insert_map hinsert
    cases hsender
    refine Or.inr ⟨_, List.filter_sublist, lookup_filter_self _ key, fun entry hmem hnot => ?_,
      hfreed, rfl, build_insert_channels hinsert, hmap⟩
    by_contra hne
    exact hnot (List.mem_filter.2 ⟨hmem, by simpa using hne⟩)

/-- There are no fewer channels and requests after a call. -/
lemma Call.exec_counts (h : call.exec w = .ok out w') :
    w.channels ≤ w'.channels ∧ w.requests ≤ w'.requests := by
  have hchannels : Part.channels ∉ call.parts → w.channels ≤ w'.channels := fun hK =>
    Nat.le_of_eq (show w'.channels = w.channels from (Call.writes_exec call).ok h hK).symm
  have hrequests : Part.requests ∉ call.parts → w.requests ≤ w'.requests := fun hK =>
    Nat.le_of_eq (show w'.requests = w.requests from (Call.writes_exec call).ok h hK).symm
  cases call with
  | channel | broken err =>
    cases h
    exact ⟨Nat.le_succ _, Nat.le_refl _⟩
  | requestResponse msg | requestPipeline msg | requestResponsePipeline msg =>
    cases h
    exact ⟨Nat.le_refl _, Nat.le_succ _⟩
  | build t key =>
    refine ⟨?_, hrequests (of_decide_eq_true rfl)⟩
    obtain ⟨r, -, ⟨hbuild, -⟩ | ⟨sender, w₂, hbuild, -, rfl⟩⟩ := Call.exec_build_cases h
    · rw [build_none hbuild]
    · rcases build_shape hbuild with ⟨-, heq, -⟩ | ⟨_, -, -, -, -, -, heq, -⟩
      · exact Nat.le_of_eq heq.symm
      · exact Nat.le_of_lt (Nat.lt_of_lt_of_eq (Nat.lt_succ_self _) heq.symm)
  | _ => exact ⟨hchannels (of_decide_eq_true rfl), hrequests (of_decide_eq_true rfl)⟩

end Calls

/-! ## Dropping a receiver of a request -/

/-- A receiver of the request can be dropped: it is not the last one, or the request has no parent,
or there is no channel any more where the forwards of the parent end. -/
def World.Droppable (w : World C) (r : RequestId) : Prop :=
  (w.request r).receiversCount = 1 → ∀ parent, (w.request r).parent = some parent →
    w.mostUnresolved (w.channels + 1) parent = some none

section Droppable

variable {w w' : World C}

lemma fetchSubOne_eq_zero {count : ℕ} : fetchSubOne count = 0 ↔ count = 1 := by
  have hmax : usizeMax ≠ 0 := by decide
  unfold fetchSubOne
  split
  · omega
  · omega

lemma mostUnresolved_congr (h : ∀ c, w'.tryResolved c = w.tryResolved c) (rounds : ℕ)
    (c : ChannelId) : w'.mostUnresolved rounds c = w.mostUnresolved rounds c := by
  induction rounds generalizing c with
  | zero => rfl
  | succ rounds ih =>
    rw [World.mostUnresolved, World.mostUnresolved, h c]
    rcases w.tryResolved c with _ | sender | _ | err
    · rfl
    · exact ih sender.shared
    · rfl
    · rfl

@[simp] lemma mostUnresolved_modifyRequest (w : World C) (f : SharedRequest C → SharedRequest C)
    (rounds : ℕ) (c : ChannelId) :
    (w.modifyRequest r f).mostUnresolved rounds c = w.mostUnresolved rounds c := by
  have hresolved : ∀ d, (w.modifyRequest r f).tryResolved d = w.tryResolved d := fun _ => rfl
  exact mostUnresolved_congr hresolved rounds c

@[simp] lemma channels_modifyRequest (w : World C) (f : SharedRequest C → SharedRequest C) :
    (w.modifyRequest r f).channels = w.channels := rfl

/-- `try_remove_from_channel` returns unless it comes to its `todo!()`. -/
lemma tryRemoveFromChannel_returns_iff : (∃ w', SharedRequest.tryRemoveFromChannel r w = .ok () w') ↔
    ∀ parent, (w.request r).parent = some parent →
      w.mostUnresolved (w.channels + 1) parent = some none := by
  unfold SharedRequest.tryRemoveFromChannel
  rw [bind_of_ok (show getRequest r w = .ok (w.request r) w from rfl)]
  rcases hparent : (w.request r).parent with _ | parent
  · exact ⟨fun _ => nofun, fun _ => ⟨w, rfl⟩⟩
  · constructor
    · rintro ⟨w', hrun⟩ parent' heq
      cases heq
      obtain ⟨resolved, w₁, hmost, hrest⟩ := bind_eq_ok.1 hrun
      unfold mostUnresolved at hmost
      rcases hwalk : w.mostUnresolved (w.channels + 1) parent with _ | result
      · rw [hwalk] at hmost
        cases hmost
      · rw [hwalk] at hmost
        cases hmost
        rcases resolved with _ | resolved
        · rfl
        · cases hrest
    · intro hnone
      refine ⟨w, ?_⟩
      have hmost : mostUnresolved parent w = .ok none w := by
        unfold mostUnresolved
        rw [hnone parent rfl]
      exact bind_of_ok hmost

lemma removeReceiver_returns_iff :
    (∃ w', SharedRequest.removeReceiver r w = .ok () w') ↔ w.Droppable r := by
  unfold SharedRequest.removeReceiver World.Droppable
  rw [bind_of_ok (show getRequest r w = .ok (w.request r) w from rfl),
    bind_of_ok (show modifyRequest r _ w = .ok () _ from rfl)]
  by_cases hlast : fetchSubOne (w.request r).receiversCount = 0
  · rw [if_pos_apply hlast, bind_of_ok (show modifyRequest r _ _ = .ok () _ from rfl),
      tryRemoveFromChannel_returns_iff]
    simp only [World.request_modifyRequest_self, mostUnresolved_modifyRequest, channels_modifyRequest]
    exact ⟨fun h _ => h, fun h => h (fetchSubOne_eq_zero.1 hlast)⟩
  · rw [if_neg_apply hlast]
    exact ⟨fun _ heq => absurd (fetchSubOne_eq_zero.2 heq) hlast, fun _ => ⟨_, rfl⟩⟩

lemma weakUpgrade_of_freed (h : w.freed c = true) : weakUpgrade c w = .ok false w := by
  unfold weakUpgrade
  rw [bind_of_ok (show (Prog.get : ChanM C _) w = .ok w w from rfl), if_pos_apply h]
  rfl

lemma weakUpgrade_of_alive (h : w.freed c = false) : weakUpgrade c w =
    (SharedRequest.dropReceiver (w.channel c).parentRequest >>= fun _ => pure true : ChanM C Bool)
      (w.modifyChannel c fun ch => { ch with parentRequest := none }) := by
  unfold weakUpgrade
  rw [bind_of_ok (show (Prog.get : ChanM C _) w = .ok w w from rfl),
    if_neg_apply (Bool.eq_false_iff.1 h),
    bind_of_ok (show getChannel c w = .ok (w.channel c) w from rfl),
    bind_of_ok (show modifyChannel c _ w = .ok () _ from rfl)]

/-- A channel that is upgraded gets its receiver if it is there still. -/
lemma upgradeOne_ok {upgraded : Bool} (h : upgradeOne c w = .ok upgraded w') :
    upgraded = !w.freed c := by
  obtain ⟨upgraded', w₁, hweak, hrest⟩ := bind_eq_ok.1 h
  obtain ⟨_, hhold, rfl⟩ := bind_pure_ok hrest
  rcases hfreed : w.freed c
  · rw [weakUpgrade_of_alive hfreed] at hweak
    obtain ⟨_, hdrop, rfl⟩ := bind_pure_ok hweak
    rfl
  · rw [weakUpgrade_of_freed hfreed] at hweak
    cases hweak
    rfl

/-- A waiting channel gets its receiver unless that drops the last receiver of a request that is
linked into a channel. -/
lemma upgradeOne_returns_iff : (∃ upgraded w', upgradeOne c w = .ok upgraded w') ↔
    (w.freed c = false → ∀ r, (w.channel c).parentRequest = some r → w.Droppable r) := by
  -- the world in which the channel does not track the request any more
  have hdrops : ∀ r, (∃ w', SharedRequest.removeReceiver r
      (w.modifyChannel c fun ch => { ch with parentRequest := none }) = .ok () w') ↔ w.Droppable r := by
    intro r
    have hresolved : ∀ d, (w.modifyChannel c fun ch => { ch with parentRequest := none }).tryResolved d
        = w.tryResolved d := fun d => by
      unfold World.tryResolved
      by_cases hd : d = c
      · rw [hd, World.channel_modifyChannel_self]
        rfl
      · rw [World.channel_modifyChannel_of_ne _ _ hd]
    rw [removeReceiver_returns_iff]
    unfold World.Droppable
    simp only [mostUnresolved_congr hresolved]
    rfl
  constructor
  · rintro ⟨upgraded, w', hrun⟩ hfreed r hparent
    obtain ⟨upgraded', w₁, hweak, -⟩ := bind_eq_ok.1 hrun
    rw [weakUpgrade_of_alive hfreed, hparent] at hweak
    obtain ⟨_, w₂, hdrop, -⟩ := bind_eq_ok.1 hweak
    exact (hdrops r).1 ⟨w₂, hdrop⟩
  · intro h
    have hweak : ∃ upgraded w', weakUpgrade c w = .ok upgraded w' := by
      rcases hfreed : w.freed c
      · rw [weakUpgrade_of_alive hfreed]
        rcases hparent : (w.channel c).parentRequest with _ | r
        · exact ⟨true, _, rfl⟩
        · obtain ⟨w', hrun⟩ := (hdrops r).2 (h hfreed r hparent)
          exact ⟨true, w', bind_of_ok hrun⟩
      · exact ⟨false, w, weakUpgrade_of_freed hfreed⟩
    obtain ⟨upgraded, w', hrun⟩ := hweak
    unfold upgradeOne
    rw [bind_of_ok hrun]
    cases upgraded with
    | false => exact ⟨false, _, rfl⟩
    | true => exact ⟨true, _, rfl⟩

end Droppable

/-! ## What holds in every run -/

/-- A request that is not a channel's is in no queue. -/
lemma Placed.not_mem_queues {w : World C} (h : Placed (fun _ => 0) w)
    (howner : (w.request r).owner ≠ .channel) (c : ChannelId) : .request r ∉ w.queues c := by
  intro hmem
  have hc : c < w.channels := by
    by_contra hlater
    rw [h.fresh (Nat.not_lt.1 hlater)] at hmem
    exact absurd hmem List.not_mem_nil
  exact howner (h.of_mem hc hmem).2.2.1

/-- A key that is in the map once is found with what it is there with. -/
lemma lookup_of_mem {map : List (C.PipelineKey × ChannelId)} (hnodup : (map.map Prod.fst).Nodup)
    {entry : C.PipelineKey × ChannelId} (hmem : entry ∈ map) : map.lookup entry.1 = some entry.2 := by
  induction map with
  | nil => exact absurd hmem List.not_mem_nil
  | cons first map ih =>
    rw [List.map_cons, List.nodup_cons] at hnodup
    rw [List.lookup_cons]
    rcases List.mem_cons.1 hmem with rfl | hmem
    · rw [beq_self_eq_true]
    · have hne : entry.1 ≠ first.1 := fun heq =>
        hnodup.1 (heq ▸ List.mem_map_of_mem hmem)
      rw [beq_eq_false_iff_ne.2 hne]
      exact ih hnodup.2 hmem

namespace Pipelining

/-- What holds in every run. -/
structure Inv (m : Pipelining C) (r : RequestId) : Prop where
  request : r < m.world.requests
  once : Once Prod.snd (fun entry => m.world.freed entry.2 = true) m.built (m.handed ++ m.waiting r)
  fresh : ∀ entry ∈ m.handed ++ m.waiting r, entry.2 < m.world.channels
  keys : ((m.world.request r).pipelineMap.map Prod.fst).Nodup
  flag : (m.world.request r).state.isPipelineSet = true ↔ m.responding = .returned
  empty : m.responding = .returned → (m.world.request r).pipelineMap = []
  before : m.responding = .before → Reachable m.world
  answered : m.responding ≠ .before → m.world.Gone r ∧
    ∃ resp, (m.world.request r).response = some resp ∧ (m.world.request r).pipelineDest = some none
  resolving : ∀ th key, m.builder th = .resolving key → m.responding = .returned
  sourced : ∀ entry ∈ m.sourced,
    m.responding = .returned ∧ entry.2 = (m.world.request r).pipelineSource

section Inv

variable {m m' : Pipelining C} {w : World C}

lemma Inv.start (hreach : Reachable w) (hr : r < w.requests)
    (hmap : (w.request r).pipelineMap = []) (hset : (w.request r).state.isPipelineSet = false) :
    (Pipelining.start w).Inv r := by
  have hwaiting : (Pipelining.start w).handed ++ (Pipelining.start w).waiting r = [] := hmap
  refine ⟨hr, ?_, ?_, ?_, ?_, by rintro ⟨⟩, fun _ => hreach, fun hne => absurd rfl hne, by rintro _ _ ⟨⟩,
    by rintro _ ⟨⟩⟩
  · rw [hwaiting]
    exact Once.nil
  · rw [hwaiting]
    exact nofun
  · show ((w.request r).pipelineMap.map Prod.fst).Nodup
    rw [hmap]
    exact List.nodup_nil
  · show (w.request r).state.isPipelineSet = true ↔ _
    rw [hset]
    exact ⟨nofun, nofun⟩

/-- Once the responder has begun, a step that leaves the request gone and its reply as it is, or
before that leaves its map and the flag, keeps what holds. -/
lemma Inv.withWorld (h : m.Inv r) (hrequests : m.world.requests ≤ w.requests)
    (hchannels : m.world.channels ≤ w.channels)
    (hfreed : ∀ c, m.world.freed c = true → w.freed c = true)
    (hmap : (w.request r).pipelineMap = (m.world.request r).pipelineMap)
    (hset : (w.request r).state.isPipelineSet = (m.world.request r).state.isPipelineSet)
    (hbefore : m.responding = .before → Reachable w)
    (hanswered : m.responding ≠ .before →
      w.Gone r ∧ (w.request r).reply = (m.world.request r).reply) :
    Inv { m with world := w } r := by
  have hwaiting : Pipelining.waiting { m with world := w } r = m.waiting r := by
    show m.responding.taken ++ (w.request r).pipelineMap = _
    rw [hmap]
    rfl
  refine ⟨Nat.lt_of_lt_of_le h.request hrequests, ?_, ?_, ?_, ?_, ?_, hbefore, ?_, h.resolving, ?_⟩
  · rw [hwaiting]
    exact h.once.mono fun entry hvoid => hfreed entry.2 hvoid
  · rw [hwaiting]
    exact fun entry hmem => Nat.lt_of_lt_of_le (h.fresh entry hmem) hchannels
  · show ((w.request r).pipelineMap.map Prod.fst).Nodup
    rw [hmap]
    exact h.keys
  · show (w.request r).state.isPipelineSet = true ↔ _
    rw [hset]
    exact h.flag
  · intro hreturned
    show (w.request r).pipelineMap = []
    rw [hmap]
    exact h.empty hreturned
  · intro hbegun
    obtain ⟨hgone, hreply⟩ := hanswered hbegun
    obtain ⟨-, resp, hresp, hdest⟩ := h.answered hbegun
    exact ⟨hgone, resp, (congrArg Reply.response hreply).trans hresp,
      (congrArg Reply.dest hreply).trans hdest⟩
  · intro entry hmem
    obtain ⟨hreturned, hsource⟩ := h.sourced entry hmem
    have hreply := (hanswered (by rw [hreturned]; exact nofun)).2
    refine ⟨hreturned, hsource.trans ?_⟩
    unfold SharedRequest.pipelineSource
    rw [show (w.request r).pipelineDest = _ from congrArg Reply.dest hreply,
      show (w.request r).response = _ from congrArg Reply.response hreply]
    rfl

/-- A world after one more call is reached. -/
lemma reachable_exec {w w' : World C} {call : Call C} {out : Output C} (h : Reachable w)
    (hallowed : call.Allowed w) (hexec : call.exec w = .ok out w') : Reachable w' := by
  obtain ⟨steps, hrun⟩ := h
  exact ⟨_, @Run.step C steps ⟨w, call, out, w'⟩ hrun ⟨hallowed, hexec⟩⟩

/-- Calls that are about other things keep what holds. -/
lemma Inv.call (h : m.Inv r) {call : Call C} {out : Output C} (hallowed : call.Allowed m.world)
    (hbuild : ∀ t key, call = .build t key → m.world.tracker t ≠ some r)
    (hfree : call ≠ .freeRequest r) (hexec : call.exec m.world = .ok out w)
    (hsingle : (w.request r).state.isPipelineSet = (m.world.request r).state.isPipelineSet) :
    Inv { m with world := w } r := by
  obtain ⟨hchannels, hrequests⟩ := Call.exec_counts hexec
  have hanswered : m.responding ≠ .before →
      w.Gone r ∧ (w.request r).reply = (m.world.request r).reply := fun hbegun =>
    Call.exec_leaves hallowed h.request hbuild hfree hexec (h.answered hbegun).1
  refine h.withWorld hrequests hchannels (fun c => Call.exec_freed hexec) ?_ hsingle ?_ hanswered
  · by_cases hbegun : m.responding = .before
    · rcases Call.exec_spares h.request hbuild hfree hexec with hset | ⟨hmap, -⟩
      · -- nobody else sets the flag
        have hreturned := h.flag.1 (hsingle.symm.trans hset.isSet)
        rw [hbegun] at hreturned
        cases hreturned
      · exact hmap
    · exact congrArg Reply.map (hanswered hbegun).2
  · exact fun hbegun => reachable_exec (h.before hbegun) hallowed hexec

/-- A thread that builds goes on without a look at the pipeline. -/
lemma Inv.goto (h : m.Inv r) {th : ThreadId} {builder : Builder C}
    (hbuilder : ∀ key, builder = .resolving key → m.responding = .returned) :
    (m.goto th builder).Inv r where
  request := h.request
  once := h.once
  fresh := h.fresh
  keys := h.keys
  flag := h.flag
  empty := h.empty
  before := h.before
  answered := h.answered
  resolving th' key hth' := by
    have hupdated : Function.update m.builder th builder th' = .resolving key := hth'
    by_cases hth : th' = th
    · rw [hth, Function.update_self] at hupdated
      exact hbuilder key hupdated
    · rw [Function.update_of_ne hth] at hupdated
      exact h.resolving th' key hupdated
  sourced := h.sourced

/-- A client comes from what the responder has left. -/
lemma Inv.source (h : m.Inv r) {th : ThreadId} (hresolving : m.builder th = .resolving key) :
    Inv { m.goto th .idle with
      sourced := m.sourced ++ [(key, (m.world.request r).pipelineSource)] } r := by
  have hgoto : (m.goto th .idle).Inv r := h.goto nofun
  refine { hgoto with sourced := fun entry hmem => ?_ }
  rcases List.mem_append.1 hmem with hmem | hmem
  · exact hgoto.sourced entry hmem
  · rw [List.mem_singleton.1 hmem]
    exact ⟨h.resolving th key hresolving, rfl⟩

end Inv

/-! ### Building with the lock -/

section Build

variable {m : Pipelining C} {w : World C} {t : TrackerId}

/-- What a call that builds a client does. -/
lemma exec_build_ok {w w' : World C} {out : Output C} (ht : w.tracker t = some r)
    (h : (Call.build t key).exec w = .ok out w') :
    (out = .pipelined ∧ build r key w = .ok none w ∧ w' = w) ∨ ∃ sender w₁, build r key w = .ok (some sender) w₁ ∧
      out = .sender w₁.senders.length ∧ w'.sender w₁.senders.length = some sender ∧
      w'.channels = w₁.channels ∧ w'.request = w₁.request := by
  obtain ⟨r', ht', hcases⟩ := Call.exec_build_cases h
  obtain rfl : r' = r := by
    unfold World.tracker at ht
    rw [ht'] at ht
    exact Option.some.inj ht
  rcases hcases with ⟨hbuild, rfl⟩ | ⟨sender, w₂, hbuild, rfl, rfl⟩
  · obtain rfl := build_none hbuild
    exact Or.inl ⟨rfl, hbuild, rfl⟩
  · refine Or.inr ⟨sender, w₂, hbuild, rfl, ?_, rfl, rfl⟩
    show World.sender { w₂ with senders := w₂.senders ++ [⟨sender, true⟩] } w₂.senders.length = _
    unfold World.sender
    rw [List.getElem?_concat_length]
    rfl

/-- While a client is built the pipeline is not set. -/
lemma isPipelineSet_of_build {w w' : World C} {sender : Sender}
    (h : Channel.build r key w = .ok (some sender) w') : (w.request r).state.isPipelineSet = false := by
  rcases build_cases h with ⟨-, hnone, -⟩ | ⟨hset, -⟩
  · cases hnone
  · exact hset

/-- What waits after a client was built: a channel that is deallocated may have made place for a new
one. -/
lemma Inv.waiting_build (h : m.Inv r) {sender : Sender}
    (hbuild : Channel.build r key m.world = .ok (some sender) w) :
    Once Prod.snd (fun entry => m.world.freed entry.2 = true) (m.built ++ [(key, sender.shared)])
        (m.handed ++ (m.responding.taken ++ (w.request r).pipelineMap)) ∧
      (∀ entry ∈ m.handed ++ (m.responding.taken ++ (w.request r).pipelineMap),
        entry.2 < w.channels) ∧
      ((w.request r).pipelineMap.map Prod.fst).Nodup := by
  rcases build_shape hbuild with ⟨hlookup, hsame, hmap⟩ |
    ⟨map, hsub, hnone, hkey, hdead, hshared, hnew, hmap⟩
  · rw [hmap, hsame]
    refine ⟨h.once.again ?_, h.fresh, h.keys⟩
    exact List.mem_append_right _ (List.mem_append_right _ (mem_of_lookup hlookup))
  · have hsub' : (m.handed ++ (m.responding.taken ++ map)).Sublist (m.handed ++ m.waiting r) :=
      (List.Sublist.refl _).append ((List.Sublist.refl _).append hsub)
    have hvoid : ∀ entry ∈ m.handed ++ m.waiting r, entry ∉ m.handed ++ (m.responding.taken ++ map) →
        m.world.freed entry.2 = true := by
      intro entry hmem hnot
      rcases List.mem_append.1 hmem with hhanded | hwaits
      · exact absurd (List.mem_append_left _ hhanded) hnot
      · rcases List.mem_append.1 hwaits with htaken | hentry
        · exact absurd (List.mem_append_right _ (List.mem_append_left _ htaken)) hnot
        · have hout : entry ∉ map := fun hin =>
            hnot (List.mem_append_right _ (List.mem_append_right _ hin))
          rw [← hkey entry hentry hout] at hdead
          exact hdead entry.2 (lookup_of_mem h.keys hentry)
    have hfresh : ∀ entry ∈ m.handed ++ (m.responding.taken ++ map), entry.2 < m.world.channels :=
      fun entry hmem => h.fresh entry (hsub'.subset hmem)
    have hadd : (key, m.world.channels).2 ∉ (m.handed ++ (m.responding.taken ++ map)).map Prod.snd := by
      intro hmem
      obtain ⟨entry, hentry, heq⟩ := List.mem_map.1 hmem
      exact Nat.lt_irrefl _ (heq ▸ hfresh entry hentry)
    have hall : m.handed ++ (m.responding.taken ++ (map ++ [(key, m.world.channels)]))
        = m.handed ++ (m.responding.taken ++ map) ++ [(key, m.world.channels)] := by
      simp only [List.append_assoc]
    rw [hmap, hshared, hnew, hall]
    refine ⟨(h.once.sublist hsub' hvoid).add hadd, fun entry hmem => ?_, ?_⟩
    · rcases List.mem_append.1 hmem with hmem | hmem
      · exact Nat.lt_succ_of_lt (hfresh entry hmem)
      · rw [List.mem_singleton.1 hmem]
        exact Nat.lt_succ_self _
    · rw [List.map_append, List.map_singleton, ← List.concat_eq_append]
      refine (h.keys.sublist (hsub.map Prod.fst)).concat fun hmem => ?_
      obtain ⟨entry, hentry, heq⟩ := List.mem_map.1 hmem
      exact (bne_iff_ne.1 (List.lookup_eq_none_iff.1 hnone entry hentry)) heq.symm

/-- A client that is built waits, as it did before or from now on. -/
lemma Inv.build (h : m.Inv r) {th : ThreadId} {s : SenderId} {sender : Sender}
    (ht : m.world.tracker t = some r) (hexec : (Call.build t key).exec m.world = .ok (.sender s) w)
    (hs : w.sender s = some sender) :
    Inv { m.goto th .idle with world := w, built := m.built ++ [(key, sender.shared)] } r := by
  obtain ⟨hchannels, hrequests⟩ := Call.exec_counts hexec
  have hfreed : w.freed = m.world.freed :=
    (Call.writes_exec (.build t key)).ok hexec (of_decide_eq_true rfl : Part.freed ∉ _)
  rcases exec_build_ok ht hexec with ⟨hout, -⟩ | ⟨sender', w₁, hbuild, hout, hs', hcount, hrequest⟩
  · cases hout
  cases hout
  obtain rfl : sender = sender' := Option.mem_unique hs hs'
  have hset := isPipelineSet_of_build hbuild
  have hreply : (w.request r).reply
      = { (m.world.request r).reply with map := (w.request r).pipelineMap } := by
    rw [hrequest]
    exact (build_map hbuild).2.2.2.2
  -- the responder has not returned yet
  have hresponding : m.responding ≠ .returned := fun hreturned => by
    rw [h.flag.2 hreturned] at hset
    cases hset
  have hwaiting := h.waiting_build hbuild
  rw [← hrequest, ← hfreed, ← hcount] at hwaiting
  obtain ⟨honce, hfresh, hkeys⟩ := hwaiting
  have hgoto : (m.goto th .idle).Inv r := h.goto nofun
  have hallowed : (Call.build t key).Allowed m.world := trivial
  refine ⟨Nat.lt_of_lt_of_le h.request hrequests, honce, hfresh, hkeys, ?_,
    fun hreturned => absurd hreturned hresponding, ?_, ?_, hgoto.resolving, fun entry hmem =>
      absurd (h.sourced entry hmem).1 hresponding⟩
  · show (w.request r).state.isPipelineSet = true ↔ _
    rw [show (w.request r).state.isPipelineSet = _ from congrArg Reply.isSet hreply]
    exact h.flag
  · exact fun hbegun => reachable_exec (h.before hbegun) hallowed hexec
  · intro hbegun
    obtain ⟨hgone, resp, hresp, hdest⟩ := h.answered hbegun
    exact ⟨Call.exec_gone hallowed h.request hexec hgone, resp,
      (congrArg Reply.response hreply).trans hresp, (congrArg Reply.dest hreply).trans hdest⟩

/-- Nothing is built when the pipeline was set before the thread had the lock. -/
lemma Inv.buildSet (h : m.Inv r) {th : ThreadId} (ht : m.world.tracker t = some r)
    (hexec : (Call.build t key).exec m.world = .ok .pipelined w) :
    Inv { m.goto th (.resolving key) with world := w } r := by
  rcases exec_build_ok ht hexec with ⟨-, hbuild, rfl⟩ | ⟨sender, w₁, -, hout, -⟩
  · refine h.goto fun key' heq => h.flag.1 ?_
    by_contra hset
    obtain ⟨sender, hsome⟩ := build_some hbuild (Bool.eq_false_iff.2 hset)
    cases hsome
  · cases hout

end Build

/-! ### Responding -/

section Respond

variable {m m' : Pipelining C} {w : World C}

lemma writes_upgradeOne (value : ChannelId) :
    Writes [.receivers, .parentRequest] (upgradeOne value : ChanM C Bool) := by
  refine writes_bind (writes_weakUpgrade value) fun upgraded => writes_bind ?_ fun _ => writes_pure _
  exact writes_ite (writes_modify fun p _ w => worldParts.refl p w) (writes_pure _)

lemma fixes_queues_upgradeOne (value : ChannelId) :
    Prog.Fixes World.queues (upgradeOne value : ChanM C Bool) := by
  refine fixes_bind (fixes_queues_weakUpgrade value) fun upgraded => ?_
  refine fixes_bind ?_ fun _ => fixes_pure _
  exact fixes_ite (fixes_modify fun _ => rfl) (fixes_pure _)

lemma answer_ok {w w' : World C} {resp : C.Results} {u : Unit}
    (h : Responder.answer r resp w = .ok u w') : w' = w.modifyRequest r fun req =>
      { req with
        owner := .none
        response := some resp
        state := req.state.setValue
        pipelineDest := some none } := by
  cases h
  unfold World.modifyRequest
  simp only [Function.update_self, Function.update_idem]

/-- The responder writes the request, and goes on. -/
lemma Inv.write (h : m.Inv r) (hnow : m.responding ≠ .returned)
    {f : SharedRequest C → SharedRequest C} {responding : Responding C} {resp : C.Results}
    (hnext : responding ≠ .before) (howner : (f (m.world.request r)).owner = .none)
    (hqueues : ∀ c, .request r ∉ m.world.queues c)
    (hresp : (f (m.world.request r)).response = some resp)
    (hdest : (f (m.world.request r)).pipelineDest = some none)
    (hmap : responding.taken ++ (f (m.world.request r)).pipelineMap = m.waiting r)
    (hkeys : ((f (m.world.request r)).pipelineMap.map Prod.fst).Nodup)
    (hflag : (f (m.world.request r)).state.isPipelineSet = true ↔ responding = .returned)
    (hempty : responding = .returned → (f (m.world.request r)).pipelineMap = []) :
    Inv { m with world := m.world.modifyRequest r f, responding := responding } r := by
  have hrequest := World.request_modifyRequest_self (r := r) m.world f
  have hwaiting : Pipelining.waiting { m with
      world := m.world.modifyRequest r f, responding := responding } r = m.waiting r := by
    show responding.taken ++ ((m.world.modifyRequest r f).request r).pipelineMap = _
    rw [hrequest, hmap]
  have hgone : (m.world.modifyRequest r f).Gone r := by
    refine ⟨?_, hqueues⟩
    rw [hrequest]
    exact howner
  refine ⟨h.request, ?_, ?_, ?_, ?_, ?_, fun heq => absurd heq hnext, fun _ => ⟨hgone, resp, ?_, ?_⟩,
    fun th key hth => absurd (h.resolving th key hth) hnow,
    fun entry hmem => absurd (h.sourced entry hmem).1 hnow⟩
  · rw [hwaiting]
    exact h.once
  · rw [hwaiting]
    exact h.fresh
  · rw [hrequest]
    exact hkeys
  · rw [hrequest]
    exact hflag
  · intro hreturned
    rw [hrequest]
    exact hempty hreturned
  · rw [hrequest]
    exact hresp
  · rw [hrequest]
    exact hdest

/-- The responder goes on with what waits. -/
lemma Inv.proceed (h : m.Inv r) (hnow : m.responding ≠ .before) (hnow' : m.responding ≠ .returned)
    {responding : Responding C} (hnext : responding ≠ .before) (hnext' : responding ≠ .returned)
    {handed : List (C.PipelineKey × ChannelId)}
    (hsub : (handed ++ (responding.taken ++ (m.world.request r).pipelineMap)).Sublist
      (m.handed ++ m.waiting r))
    (hvoid : ∀ entry ∈ m.handed ++ m.waiting r,
      entry ∉ handed ++ (responding.taken ++ (m.world.request r).pipelineMap) →
        m.world.freed entry.2 = true) :
    Inv { m with responding := responding, handed := handed } r where
  request := h.request
  once := h.once.sublist hsub hvoid
  fresh entry hmem := h.fresh entry (hsub.subset hmem)
  keys := h.keys
  flag := ⟨fun hset => absurd (h.flag.1 hset) hnow', fun heq => absurd heq hnext'⟩
  empty heq := absurd heq hnext'
  before heq := absurd heq hnext
  answered _ := h.answered hnow
  resolving th key hth := absurd (h.resolving th key hth) hnow'
  sourced entry hmem := absurd (h.sourced entry hmem).1 hnow'

/-- One more receiver is handed over, or the channel is not there any more. -/
lemma Inv.upgrade (h : m.Inv r) {entry : C.PipelineKey × ChannelId}
    {map : List (C.PipelineKey × ChannelId)} {upgraded : Bool}
    (hupgrading : m.responding = .upgrading (entry :: map))
    (hexec : upgradeOne entry.2 m.world = .ok upgraded w) :
    Inv { m with
      world := w
      responding := .upgrading map
      handed := if upgraded then m.handed ++ [entry] else m.handed } r := by
  have hbegun : m.responding ≠ .before := by rw [hupgrading]; exact nofun
  have hnot : m.responding ≠ .returned := by rw [hupgrading]; exact nofun
  have hsame : ∀ {p}, p ∉ [Part.receivers, .parentRequest] → World.Same p m.world w := fun hp =>
    (writes_upgradeOne entry.2).ok hexec hp
  obtain ⟨hgone, hreply⟩ := ((writes_upgradeOne entry.2).leaves (by decide)
    (fixes_queues_upgradeOne entry.2)).ok hexec (h.answered hbegun).1
  have hmap : (w.request r).pipelineMap = (m.world.request r).pipelineMap :=
    congrArg Reply.map hreply
  have hfreed : w.freed = m.world.freed := hsame (p := .freed) (by decide)
  have hworld : Inv { m with world := w } r :=
    h.withWorld (Nat.le_of_eq (hsame (p := .requests) (by decide)).symm)
      (Nat.le_of_eq (hsame (p := .channels) (by decide)).symm)
      (fun c hc => by rw [hfreed]; exact hc) hmap (congrArg Reply.isSet hreply)
      (fun heq => absurd heq hbegun) fun _ => ⟨hgone, hreply⟩
  have hwaiting : Pipelining.waiting { m with world := w } r
      = entry :: (map ++ (w.request r).pipelineMap) := by
    show m.responding.taken ++ (w.request r).pipelineMap = _
    rw [hupgrading]
    rfl
  have halive := upgradeOne_ok hexec
  refine hworld.proceed hbegun hnot ?_ ?_ ?_ ?_
  · nofun
  · nofun
  · rw [hwaiting]
    rcases upgraded
    · exact (List.Sublist.refl _).append (List.sublist_cons_self _ _)
    · show (m.handed ++ [entry] ++ (map ++ (w.request r).pipelineMap)).Sublist _
      rw [List.append_assoc]
      exact List.Sublist.refl _
  · rw [hwaiting]
    intro other hmem hout
    rcases upgraded
    · rcases List.mem_append.1 hmem with hhanded | hwaits
      · exact absurd (List.mem_append_left _ hhanded) hout
      · rcases List.mem_cons.1 hwaits with rfl | hwaits
        · -- it is not there any more
          show w.freed other.2 = true
          rw [hfreed]
          simpa using halive.symm
        · exact absurd (List.mem_append_right _ hwaits) hout
    · refine absurd ?_ hout
      show other ∈ m.handed ++ [entry] ++ (map ++ (w.request r).pipelineMap)
      rw [List.append_assoc]
      exact hmem

/-- A step of the responder keeps what holds. -/
lemma Inv.respond (h : m.Inv r) (hstep : Respond r m m') : m'.Inv r := by
  cases hstep with
  | answer hbefore howner hexec =>
    obtain ⟨steps, hrun⟩ := h.before hbefore
    have hnot : m.responding ≠ .returned := by rw [hbefore]; exact nofun
    have hset : (m.world.request r).state.isPipelineSet ≠ true := fun hset => hnot (h.flag.1 hset)
    have hwaiting : m.waiting r = (m.world.request r).pipelineMap := by
      unfold waiting
      rw [hbefore]
      rfl
    obtain rfl := answer_ok hexec
    refine h.write hnot ?_ rfl ?_ rfl rfl hwaiting.symm h.keys ?_ ?_
    · nofun
    · exact hrun.placed.not_mem_queues (by rw [howner]; exact nofun)
    · exact ⟨fun hset' => absurd hset' hset, nofun⟩
    · nofun
  | set hlocking hempty hexec =>
    have hbegun : m.responding ≠ .before := by rw [hlocking]; exact nofun
    have hnot : m.responding ≠ .returned := by rw [hlocking]; exact nofun
    obtain ⟨hgone, resp, hresp, hdest⟩ := h.answered hbegun
    have hwaiting : m.waiting r = (m.world.request r).pipelineMap := by
      unfold waiting
      rw [hlocking]
      rfl
    cases hexec
    refine h.write hnot ?_ hgone.1 hgone.2 hresp hdest hwaiting.symm h.keys ?_ fun _ => hempty
    · nofun
    · exact ⟨fun _ => rfl, fun _ => rfl⟩
  | take hlocking hsome hexec =>
    have hbegun : m.responding ≠ .before := by rw [hlocking]; exact nofun
    have hnot : m.responding ≠ .returned := by rw [hlocking]; exact nofun
    have hset : (m.world.request r).state.isPipelineSet ≠ true := fun hset => hnot (h.flag.1 hset)
    obtain ⟨hgone, resp, hresp, hdest⟩ := h.answered hbegun
    have hwaiting : m.waiting r = (m.world.request r).pipelineMap := by
      unfold waiting
      rw [hlocking]
      rfl
    cases hexec
    refine h.write hnot ?_ hgone.1 hgone.2 hresp hdest ?_ List.nodup_nil ?_ ?_
    · nofun
    · rw [hwaiting]
      exact List.append_nil _
    · exact ⟨fun hset' => absurd hset' hset, nofun⟩
    · nofun
  | upgrade hupgrading hexec => exact h.upgrade hupgrading hexec
  | again hupgrading =>
    have hwaiting : m.waiting r = (m.world.request r).pipelineMap := by
      unfold waiting
      rw [hupgrading]
      rfl
    have hbegun : m.responding ≠ .before := by rw [hupgrading]; exact nofun
    have hnot : m.responding ≠ .returned := by rw [hupgrading]; exact nofun
    refine h.proceed hbegun hnot ?_ ?_ ?_ ?_
    · nofun
    · nofun
    · rw [hwaiting]
      exact List.Sublist.refl _
    · rw [hwaiting]
      exact fun entry hmem hout => absurd hmem hout

end Respond

/-- It holds in every run. -/
theorem Reached.inv {m : Pipelining C} (h : Reached r m) : m.Inv r := by
  induction h with
  | start hreach hr hmap hset => exact Inv.start hreach hr hmap hset
  | step h hstep ih =>
    cases hstep with
    | respond hrespond => exact ih.respond hrespond
    | call hallowed hbuild hfree hexec hsingle => exact ih.call hallowed hbuild hfree hexec hsingle
    | load hidle ht hset => exact ih.goto nofun
    | loadSet hidle ht hset => exact ih.goto fun _ _ => ih.flag.1 hset
    | build hlocking ht hexec hs => exact ih.build ht hexec hs
    | buildSet hlocking ht hexec => exact ih.buildSet ht hexec
    | source hresolving => exact ih.source hresolving

/-! ## The responder alone -/

section Alone

variable {m : Pipelining C} {w : World C}

end Alone

/-! ## Every client resolves once -/

/-- Every client of a request resolves once. -/
structure ResolvesOnce (m : Pipelining C) (r : RequestId) : Prop where
  /-- No receiver is handed over twice, and no channel waits whose receiver was. -/
  once : ((m.handed ++ m.waiting r).map Prod.snd).Nodup
  /-- Receivers are handed over with the keys that the clients were built with. -/
  keyed : ∀ entry ∈ m.handed, entry ∈ m.built
  /-- If its channel is alive, the receiver of a client was handed over, or will be by the responder,
  which has not returned yet. -/
  complete : ∀ entry ∈ m.built, m.world.freed entry.2 = false →
    entry ∈ m.handed ∨ entry ∈ m.waiting r ∧ m.responding ≠ .returned
  /-- The other clients come from the results. -/
  sourced : ∀ entry ∈ m.sourced, (m.world.request r).state.isPipelineSet = true ∧
    ∃ resp, (m.world.request r).response = some resp ∧ entry.2 = some (.response resp)
  /-- Once the flag is set the map is empty, and so it stays. -/
  empty : (m.world.request r).state.isPipelineSet = true → (m.world.request r).pipelineMap = []
  stays : ∀ m', Step r m m' → (m.world.request r).state.isPipelineSet = true →
    (m'.world.request r).state.isPipelineSet = true ∧ (m'.world.request r).pipelineMap = []
  /-- The responder can go on until it returns, and hands over the next receiver. -/
  goesOn : m.responding ≠ .before → m.responding ≠ .returned → ∃ m', Respond r m m'
  hands : ∀ entry map m', m.responding = .upgrading (entry :: map) →
    m.world.freed entry.2 = false → Respond r m m' → m'.handed = m.handed ++ [entry]

/-- If the next channel that waits is alive, the receiver by which it tracks a request can be
dropped. -/
def CanUpgrade (m : Pipelining C) : Prop :=
  ∀ entry map, m.responding = .upgrading (entry :: map) → m.world.freed entry.2 = false →
    ∀ r, (m.world.channel entry.2).parentRequest = some r → m.world.Droppable r

section Resolves

variable {m m' : Pipelining C}

/-- The responder has one step where it gives a channel its receiver. -/
lemma respond_upgrading {entry : C.PipelineKey × ChannelId} {map : List (C.PipelineKey × ChannelId)}
    (hupgrading : m.responding = .upgrading (entry :: map)) : Respond r m m' ↔
      ∃ upgraded w, upgradeOne entry.2 m.world = .ok upgraded w ∧
        m' = { m with
          world := w
          responding := .upgrading map
          handed := if upgraded then m.handed ++ [entry] else m.handed } := by
  constructor
  · intro h
    cases h with
    | upgrade hupgrading' hexec =>
      rw [hupgrading] at hupgrading'
      cases hupgrading'
      exact ⟨_, _, hexec, rfl⟩
    | answer hbefore _ _ => exact nomatch hupgrading.symm.trans hbefore
    | set hlocking _ _ | take hlocking _ _ => exact nomatch hupgrading.symm.trans hlocking
    | again hupgrading' => exact nomatch hupgrading.symm.trans hupgrading'
  · rintro ⟨upgraded, w, hexec, rfl⟩
    exact .upgrade hupgrading hexec

/-- When the responder has returned it has no steps. -/
lemma not_respond_of_returned (hreturned : m.responding = .returned) : ¬ Respond r m m' := by
  intro h
  cases h with
  | answer hbefore _ _ => exact nomatch hreturned.symm.trans hbefore
  | set hlocking _ _ | take hlocking _ _ => exact nomatch hreturned.symm.trans hlocking
  | upgrade hupgrading _ | again hupgrading => exact nomatch hreturned.symm.trans hupgrading

lemma Step.returned (h : Step r m m') (hreturned : m.responding = .returned) :
    m'.responding = .returned := by
  cases h with
  | respond hrespond => exact absurd hrespond (not_respond_of_returned hreturned)
  | _ => exact hreturned

/-- The responder goes on unless it has to drop the last receiver of a request that is linked. -/
lemma goesOn_iff :
    (m.responding ≠ .before → m.responding ≠ .returned → ∃ m', Respond r m m') ↔ m.CanUpgrade := by
  rcases hresponding : m.responding with _ | _ | map | _
  · refine ⟨fun _ entry map heq => ?_, fun _ hbegun => absurd rfl hbegun⟩
    exact nomatch hresponding.symm.trans heq
  · refine ⟨fun _ entry map heq => ?_, fun _ _ _ => ?_⟩
    · exact nomatch hresponding.symm.trans heq
    · by_cases hempty : (m.world.request r).pipelineMap = []
      · exact ⟨_, .set hresponding hempty rfl⟩
      · exact ⟨_, .take hresponding hempty rfl⟩
  · cases map with
    | nil =>
      refine ⟨fun _ entry map heq => ?_, fun _ _ _ => ⟨_, .again hresponding⟩⟩
      exact nomatch hresponding.symm.trans heq
    | cons entry map =>
      constructor
      · intro hgoes entry' map' heq
        rw [hresponding] at heq
        cases heq
        obtain ⟨m', hstep⟩ := hgoes nofun nofun
        obtain ⟨upgraded, w, hexec, -⟩ := (respond_upgrading hresponding).1 hstep
        exact upgradeOne_returns_iff.1 ⟨upgraded, w, hexec⟩
      · intro hcan _ _
        obtain ⟨upgraded, w, hexec⟩ := upgradeOne_returns_iff.2 (hcan entry map hresponding)
        exact ⟨_, .upgrade hresponding hexec⟩
  · refine ⟨fun _ entry map heq => ?_, fun _ _ hnot => absurd rfl hnot⟩
    exact nomatch hresponding.symm.trans heq

/-- **Clients resolve once**, in whatever order threads build clients and the responder takes them
out of the map, exactly if the responder can upgrade the channel that comes next. -/
theorem Reached.resolvesOnce_iff (h : Reached r m) : m.ResolvesOnce r ↔ m.CanUpgrade := by
  constructor
  · intro hresolves
    exact goesOn_iff.1 hresolves.goesOn
  · intro hcan
    have hinv := h.inv
    refine ⟨hinv.once.nodup, fun entry hmem => ?_, fun entry hmem halive => ?_, fun entry hmem => ?_,
      fun hset => hinv.empty (hinv.flag.1 hset), fun m' hstep hset => ?_, goesOn_iff.2 hcan,
      fun entry map m' hupgrading halive hstep => ?_⟩
    · exact hinv.once.known entry (List.mem_append_left _ hmem)
    · have hdead : ¬ m.world.freed entry.2 = true := Bool.eq_false_iff.1 halive
      rcases List.mem_append.1 (hinv.once.complete entry hmem hdead) with hhanded | hwaits
      · exact Or.inl hhanded
      · refine Or.inr ⟨hwaits, fun hreturned => ?_⟩
        -- nothing waits when the responder has returned
        unfold waiting at hwaits
        rw [hreturned, hinv.empty hreturned] at hwaits
        exact absurd hwaits List.not_mem_nil
    · obtain ⟨hreturned, hsource⟩ := hinv.sourced entry hmem
      obtain ⟨-, resp, hresp, hdest⟩ := hinv.answered (by rw [hreturned]; exact nofun)
      refine ⟨hinv.flag.2 hreturned, resp, hresp, ?_⟩
      rw [hsource]
      unfold SharedRequest.pipelineSource
      rw [hdest, hresp]
      rfl
    · have hinv' := (Reached.step h hstep).inv
      have hreturned := Step.returned hstep (hinv.flag.1 hset)
      exact ⟨hinv'.flag.2 hreturned, hinv'.empty hreturned⟩
    · obtain ⟨upgraded, w, hexec, rfl⟩ := (respond_upgrading hupgrading).1 hstep
      have hupgraded : upgraded = true := by
        rw [upgradeOne_ok hexec, halive]
        rfl
      rw [hupgraded]
      rfl

/-- A client is built before the responder begins, and another one while the first gets its
receiver; a third one is built at the end. -/
theorem resolvesOnce_iff_built : ∃ m : Pipelining unitChan, Reached 0 m ∧ m.responding = .returned ∧
    m.built = [((), 0), ((), 1)] ∧ m.handed = [((), 0), ((), 1)] ∧
    m.sourced = [((), some (.response ()))] ∧ m.ResolvesOnce 0 := by
  have hreach : Reachable _ := reachable_empty.runCalls
    (show runCalls [.requestPipeline (), .respond 0] (World.empty : World unitChan) = some _ from rfl)
  have hstart := Reached.start hreach (Nat.zero_lt_one : 0 < 1) rfl rfl
  have hload := hstart.step (@Step.load _ 0 _ 0 0 () rfl rfl rfl)
  have hbuild := hload.step (@Step.build _ 0 _ 0 0 () _ _ _ rfl rfl rfl rfl)
  have hload' := hbuild.step (@Step.load _ 0 _ 1 0 () rfl rfl rfl)
  have hanswer := hload'.step (.respond (@Respond.answer _ 0 _ () _ rfl rfl rfl))
  have htake := hanswer.step (.respond (.take rfl nofun rfl))
  -- the map is not locked while the first client gets its receiver
  have hbuild' := htake.step (@Step.build _ 0 _ 1 0 () _ _ _ rfl rfl rfl rfl)
  have hupgrade := hbuild'.step (.respond (.upgrade rfl rfl))
  have hagain := hupgrade.step (.respond (.again rfl))
  have htake' := hagain.step (.respond (.take rfl nofun rfl))
  have hupgrade' := htake'.step (.respond (@Respond.upgrade _ 0 _ ((), 1) [] true _ rfl rfl))
  have hagain' := hupgrade'.step (.respond (.again rfl))
  have hset := hagain'.step (.respond (.set rfl rfl rfl))
  have hload'' := hset.step (@Step.loadSet _ 0 _ 0 0 () rfl rfl rfl)
  have hsource := hload''.step (@Step.source _ 0 _ 0 () rfl)
  exact ⟨_, hsource, rfl, rfl, rfl, rfl, hsource.resolvesOnce_iff.2 fun entry map heq => nomatch heq⟩

/-- A request that was received without a wait has its channel as its parent still.  Only a
pipelined client is left of it when it is responded to: the client waits, its channel is alive, and
the responder panics. -/
theorem not_resolvesOnce : ∃ m : Pipelining unitChan, Reached 0 m ∧
    m.built = [((), 1)] ∧ m.responding = .upgrading [((), 1)] ∧ m.world.freed 1 = false ∧
    upgradeOne 1 m.world = .halt .panic ∧ ¬ m.ResolvesOnce 0 := by
  have hreach : Reachable _ := reachable_empty.runCalls
    (show runCalls [.channel, .requestPipeline (), .send 0 0, .tryRecv 0, .respond 0]
      (World.empty : World unitChan) = some _ from rfl)
  have hstart := Reached.start hreach (Nat.zero_lt_one : 0 < 1) rfl rfl
  have hload := hstart.step (@Step.load _ 0 _ 0 0 () rfl rfl rfl)
  have hbuild := hload.step (@Step.build _ 0 _ 0 0 () _ _ _ rfl rfl rfl rfl)
  have hdrop := hbuild.step (@Step.call _ 0 _ (.dropTracker 0) _ _ trivial nofun nofun rfl rfl)
  have hanswer := hdrop.step (.respond (@Respond.answer _ 0 _ () _ rfl rfl rfl))
  have htake := hanswer.step (.respond (.take rfl nofun rfl))
  refine ⟨_, htake, rfl, rfl, rfl, rfl, fun hresolves => ?_⟩
  obtain ⟨m', hstep⟩ := hresolves.goesOn nofun nofun
  obtain ⟨upgraded, w, hexec, -⟩ := (respond_upgrading rfl).1 hstep
  cases hexec

end Resolves

end Pipelining

end Recapn.Channel

/-
# Setting a pipeline early

A responder may set the pipeline of a request before its response is there.  Clients that are built
afterwards come from this pipeline.  Those that were pending are to come from it as well, but they
are resolved with the response, and nothing has written that yet.
-/
import Recapn.Channel.Places

namespace Recapn.Channel

open Recapn.Lib

variable {C : Chan} {r : RequestId}

/-- What a pipelined client is resolved with. -/
inductive PipelineSource (C : Chan) where
  /-- `PipelineResolver` of the results. -/
  | response (resp : C.Results)
  /-- `PipelineResolver` of the pipeline that was set. -/
  | dest (dst : C.Pipeline)

/-- A call of `PipelineResolver::resolve`. -/
structure ResolveCall (C : Chan) where
  source : PipelineSource C
  key : C.PipelineKey
  channel : ChannelId

/-- The pipelined clients that are pending, by their keys. -/
def World.pending (w : World C) (r : RequestId) : List (C.PipelineKey × ChannelId) :=
  (w.request r).pipelineMap.filter fun entry => !w.freed entry.2

/-- The calls of the resolver in `Responder::set_pipeline`: it is the one of the response, which is
read as if it was there. -/
def Responder.setPipelineCalls (r : RequestId) : ChanM C (List (ResolveCall C)) := do
  let w ← Prog.get
  match (w.request r).response with
  | none => Prog.halt .undefined
  | some resp => pure ((w.pending r).map fun entry => ⟨.response resp, entry.1, entry.2⟩)

/-- What the end of `PipelineBuilder::build` gets a client from, once the pipeline is set. -/
def SharedRequest.pipelineSource (self : SharedRequest C) : Option (PipelineSource C) :=
  match self.pipelineDest with
  | some (some dst) => some (.dest dst)
  | some none => self.response.map .response
  | none => none

/-- `Responder::set_pipeline` returns, without a look at what is not written yet; all clients that
are pending are resolved with `dst`, each with its key, and so are those that are built later. -/
structure World.SetsPipeline (w : World C) (r : RequestId) (dst : C.Pipeline) : Prop where
  returns : ∃ w', Responder.setPipeline r dst w = .ok () w'
  pending : Responder.setPipelineCalls r w
    = .ok ((w.pending r).map fun entry => ⟨.dest dst, entry.1, entry.2⟩) w
  later : ∀ w', Responder.setPipeline r dst w = .ok () w' →
    (w'.request r).pipelineSource = some (.dest dst)

/-- A request that is to be responded to has no response yet. -/
theorem Reachable.response_eq_none {w : World C} (h : Reachable w)
    (howner : (w.request r).owner ≠ .none) : (w.request r).response = none := by
  obtain ⟨steps, hrun⟩ := h
  exact (hrun.placed.entry r).owned howner

/-- **No pipeline can be set early.**  For every responder of every world that is reached, and every
pipeline. -/
theorem not_setsPipeline {w : World C} (h : Reachable w) (howner : (w.request r).owner = .responder)
    (dst : C.Pipeline) : ¬ w.SetsPipeline r dst := by
  intro hsets
  obtain ⟨w', hreturns⟩ := hsets.returns
  have hresponse := h.response_eq_none (r := r) (by rw [howner]; exact nofun)
  rw [setPipeline_undefined hresponse dst] at hreturns
  cases hreturns

theorem not_setsPipeline_responder :
    ∃ w : World unitChan, Reachable w ∧ (w.request 0).owner = .responder ∧ ¬ w.SetsPipeline 0 () := by
  have hreach : Reachable _ := reachable_empty.runCalls
    (show runCalls [.requestPipeline (), .respond 0] (World.empty : World unitChan) = some _ from rfl)
  exact ⟨_, hreach, rfl, not_setsPipeline hreach rfl ()⟩

/-- One client is pending: it is not resolved with the pipeline, but the response is read. -/
theorem setPipeline_reads_response :
    ∃ w : World unitChan, Reachable w ∧ (w.request 0).owner = .responder ∧
      w.pending 0 = [((), 0)] ∧ (w.request 0).response = none ∧
      Responder.setPipeline 0 () w = .halt .undefined ∧ ¬ w.SetsPipeline 0 () := by
  have hreach : Reachable _ := reachable_empty.runCalls
    (show runCalls [.requestPipeline (), .build 0 (), .respond 0] (World.empty : World unitChan)
      = some _ from rfl)
  refine ⟨_, hreach, rfl, rfl, rfl, rfl, fun hsets => ?_⟩
  obtain ⟨w', hreturns⟩ := hsets.returns
  cases hreturns

end Recapn.Channel

/-
# Requests that are lost

A request is lost when its owner is dropped before anything was answered.  Those who wait for its
response see that it is closed.  Its pipelined clients wait in a map, from which only an answer
takes them: the channels in it are not closed, what is queued on them stays there, and those that
are built later go into the same map.
-/
import Recapn.Channel.Pipelines
import Recapn.Channel.Rebuild

namespace Recapn.Channel

open Recapn.Lib

variable {C : Chan} {c : ChannelId} {r : RequestId}

/-! ## Closed channels -/

/-- Whoever sends to the channel comes to one that was closed or dropped. -/
def World.Closed (w : World C) (c : ChannelId) : Prop :=
  ∃ d, Leads w.next c d ∧ w.ended d ≠ none

lemma World.not_closed {w : World C} (h : w.tryResolved c = none) : ¬ w.Closed c := by
  rintro ⟨d, hleads, hended⟩
  obtain rfl := (Leads.refl (w.next_of_none h)).unique hleads
  refine hended ?_
  unfold World.ended
  rw [h]

/-- **A channel in the map of a request is not closed**, in any world that is reached. -/
theorem Reachable.not_closed {w : World C} (h : Reachable w)
    (hmapped : c ∈ (w.request r).pipelineMap.map Prod.snd) : ¬ w.Closed c := by
  obtain ⟨steps, hrun⟩ := h
  exact World.not_closed (tryResolved_of_unresolved (hrun.sound.pending (hrun.sound.mapped hmapped)).1)

/-! ## Lost requests -/

/-- Nobody will answer the request: it is gone, and its pipeline is not set. -/
structure World.Lost (w : World C) (r : RequestId) : Prop where
  lt : r < w.requests
  gone : w.Gone r
  unset : (w.request r).state.isPipelineSet = false

/-- The step drops the request or its responder.  A request that is finished is dropped when it is
sent. -/
structure Step.Loses (step : Step C) (r : RequestId) : Prop where
  call : step.call = .dropRequest r ∨ step.call = .dropResponder r ∨ ∃ s, step.call = .send s r
  owner : (step.after.request r).owner = .none
  unset : (step.before.request r).state.isPipelineSet = false

/-- The step builds a pipelined client of the request. -/
def Step.BuildsFrom (step : Step C) (r : RequestId) : Prop :=
  ∃ t key, step.call = .build t key ∧ step.before.tracker t = some r

/-- The pipelined clients of a request fail when it is lost: those that are pending are closed, what
is queued on them has ended, and those that are built later are closed already. -/
structure Step.FailsPipelines (step : Step C) (r : RequestId) (later : List (Step C)) : Prop where
  closed : ∀ entry ∈ step.before.pending r, step.after.Closed entry.2
  queued : ∀ entry ∈ step.before.pending r, ∀ r',
    .request r' ∈ (step.before.channel entry.2).requests → step.after.Ended entry.2 r'
  built : ∀ next ∈ later, next.BuildsFrom r → ∃ c, next.Returns c ∧ next.after.Closed c

section Lost

variable {w w' : World C} {out : Output C} {call : Call C} {step : Step C}
  {past later : List (Step C)}

/-- What is lost stays lost. -/
lemma Call.exec_lost (hallowed : call.Allowed w) (h : call.exec w = .ok out w')
    (hrequests : w.requests ≤ w'.requests) (hlost : w.Lost r) : w'.Lost r := by
  refine ⟨hlost.lt.trans_le hrequests, Call.exec_gone hallowed hlost.lt h hlost.gone, ?_⟩
  by_cases hbuilds : ∃ t key, call = .build t key
  · obtain ⟨t, key, rfl⟩ := hbuilds
    obtain ⟨r', -, ⟨hbuild, -⟩ | ⟨sender, w₁, hbuild, -, rfl⟩⟩ := Call.exec_build_cases h
    · rw [build_none hbuild]
      exact hlost.unset
    · obtain ⟨-, -, -, hother, hself⟩ := build_map hbuild
      have hflag : (w₁.request r).state.isPipelineSet = (w.request r).state.isPipelineSet := by
        by_cases hr : r = r'
        · subst hr
          exact congrArg Reply.isSet hself
        · exact congrArg Reply.isSet (hother r hr)
      exact hflag.trans hlost.unset
  · by_cases hfree : call = .freeRequest r
    · subst hfree
      cases h
      rw [World.request_modifyRequest_self]
      exact hlost.unset
    · have hreply := (Call.exec_leaves hallowed hlost.lt (fun t key hcall _ => hbuilds ⟨t, key, hcall⟩)
        hfree h hlost.gone).2
      exact (congrArg Reply.isSet hreply).trans hlost.unset

/-- The step writes nothing of the pipeline. -/
lemma Step.Loses.same (hloses : step.Loses r) (hruns : step.Runs) {p : Part}
    (hp : p ∉ [Part.owner, .parent, .params]) : World.Same p step.before step.after := by
  have hsub : step.call.parts ⊆ [Part.owner, .parent, .params] := by
    rcases hloses.call with hcall | hcall | ⟨s, hcall⟩
    · rw [hcall]
      exact (by decide : [Part.owner, .params] ⊆ [Part.owner, .parent, .params])
    · rw [hcall]
      exact (by decide : [Part.owner] ⊆ [Part.owner, .parent, .params])
    · rw [hcall]
      exact List.Subset.refl _
  exact (Call.writes_exec step.call).ok hruns.2 fun hmem => hp (hsub hmem)

/-- A request whose owner was dropped is lost. -/
lemma Step.Loses.lost (hloses : step.Loses r) (h : Run past step.before) (hruns : step.Runs) :
    step.after.Lost r := by
  have hafter : Placed (fun _ => 0) step.after := (Run.step h hruns).placed
  have howner : (step.before.request r).owner ≠ .none := by
    have hallowed := hruns.1
    rcases hloses.call with hcall | hcall | ⟨s, hcall⟩
    all_goals
      rw [hcall] at hallowed
      rw [show (step.before.request r).owner = _ from hallowed]
      exact nofun
  refine ⟨?_, ⟨hloses.owner, fun d hmem => ?_⟩, ?_⟩
  · rw [show step.after.requests = step.before.requests from
      hloses.same hruns (p := .requests) (by decide)]
    exact h.placed.lt (Or.inr howner)
  · have hd : d < step.after.channels := by
      by_contra hlater
      rw [hafter.fresh (Nat.not_lt.1 hlater)] at hmem
      exact absurd hmem List.not_mem_nil
    have hchannel : (step.after.request r).owner = .channel := (hafter.of_mem hd hmem).2.2.1
    rw [hloses.owner] at hchannel
    cases hchannel
  · exact (hloses.same hruns (p := .pipeline) (by decide) r).2.1.trans hloses.unset

/-- A request that is lost is lost in all worlds that are reached from there. -/
lemma Run.lost {steps : List (Step C)} (h : Run steps w) : ∀ {past step later},
    steps = past ++ step :: later → step.after.Lost r →
    w.Lost r ∧ ∀ next ∈ later, next.before.Lost r := by
  induction h with
  | empty =>
    intro past step later heq
    cases past <;> cases heq
  | @step steps last h hruns ih =>
    intro past step later heq hlost
    rcases List.eq_nil_or_concat later with rfl | ⟨later', last', rfl⟩
    · obtain ⟨-, hlast⟩ := List.append_inj' heq rfl
      cases hlast
      exact ⟨hlost, fun next hnext => absurd hnext List.not_mem_nil⟩
    · rw [List.concat_eq_append, ← List.cons_append, ← List.append_assoc] at heq
      obtain ⟨hsteps, hlast⟩ := List.append_inj' heq rfl
      cases hlast
      obtain ⟨hbefore, hlater⟩ := ih hsteps hlost
      have hrequests := (Call.exec_counted hruns.1 h.counted hruns.2).2.requests
      refine ⟨Call.exec_lost hruns.1 hruns.2 hrequests hbefore, fun next hnext => ?_⟩
      rw [List.concat_eq_append] at hnext
      rcases List.mem_append.1 hnext with hnext | hnext
      · exact hlater next hnext
      · rw [List.mem_singleton.1 hnext]
        exact hbefore

/-- A client of a request that is lost goes into the map. -/
lemma Step.BuildsFrom.not_closed (hbuilds : step.BuildsFrom r) (h : Run past step.before)
    (hruns : step.Runs) (hlost : step.before.Lost r) (hreturns : step.Returns c) :
    ¬ step.after.Closed c := by
  obtain ⟨t, key, hcall, htracked⟩ := hbuilds
  obtain ⟨-, sender, w₁, hbuild, hrequest, -, hsender⟩ :=
    Step.Builds.ok ⟨t, hcall, htracked, hlost.unset⟩ hruns
  obtain ⟨hlookup, -⟩ := build_map hbuild
  refine Reachable.not_closed (r := r) ⟨_, Run.step h hruns⟩ ?_
  rw [hrequest, ← (hsender c).1 hreturns]
  exact List.mem_map.2 ⟨_, mem_of_lookup hlookup, rfl⟩

/-- **When the pipelined clients of a lost request fail.**  In every run in which a request or its
responder is dropped, its pipelined clients fail exactly if none is pending and none is built
later. -/
theorem Run.failsPipelines_iff (h : Run (past ++ step :: later) w) (hloses : step.Loses r) :
    step.FailsPipelines r later ↔
      step.before.pending r = [] ∧ ∀ next ∈ later, ¬ next.BuildsFrom r := by
  obtain ⟨hpast, hruns⟩ := h.split rfl
  constructor
  · intro hfails
    constructor
    · rw [List.eq_nil_iff_forall_not_mem]
      intro entry hentry
      refine Reachable.not_closed (r := r) ⟨_, Run.step hpast hruns⟩ ?_ (hfails.closed entry hentry)
      rw [(hloses.same hruns (p := .pipeline) (by decide) r).1]
      exact List.mem_map.2 ⟨entry, (List.mem_filter.1 hentry).1, rfl⟩
    · intro next hnext hbuilds
      obtain ⟨c, hreturns, hclosed⟩ := hfails.built next hnext hbuilds
      obtain ⟨earlier, rest, rfl⟩ := List.append_of_mem hnext
      have hlost := (h.lost rfl (hloses.lost hpast hruns)).2 next hnext
      obtain ⟨hbefore, hnextRuns⟩ := @Run.split _ _ _ h (past ++ step :: earlier) next rest (by simp)
      exact hbuilds.not_closed hbefore hnextRuns hlost hreturns hclosed
  · rintro ⟨hnone, hbuilt⟩
    refine ⟨fun entry hentry => ?_, fun entry hentry => ?_, fun next hnext hbuilds => ?_⟩
    · rw [hnone] at hentry
      exact absurd hentry List.not_mem_nil
    · rw [hnone] at hentry
      exact absurd hentry List.not_mem_nil
    · exact absurd hbuilds (hbuilt next hnext)

end Lost

/-- A request that nobody pipelines is lost. -/
theorem Run.failsPipelines_alone :
    ∃ (past : List (Step unitChan)) (step : Step unitChan), Run (past ++ step :: []) step.after ∧
      step.call = .dropRequest 0 ∧ step.FailsPipelines 0 [] := by
  obtain ⟨past, hrun, -⟩ := Run.empty.runCalls
    (show Channel.runCalls [.requestResponse ()] (World.empty : World unitChan) = some _ from rfl)
  have hstep : ∀ {w out w'}, Call.exec (.dropRequest 0) w = .ok out w' →
      (w.request 0).owner = .request → Run past w →
      Run (past ++ ⟨w, .dropRequest 0, out, w'⟩ :: []) w' := fun hexec howner hpast =>
    @Run.step unitChan past ⟨_, _, _, _⟩ hpast ⟨howner, hexec⟩
  have hlast := hstep rfl rfl hrun
  refine ⟨past, ⟨_, _, _, _⟩, hlast, rfl, (Run.failsPipelines_iff hlast ⟨Or.inl rfl, rfl, rfl⟩).2 ?_⟩
  exact ⟨rfl, fun next hnext => absurd hnext List.not_mem_nil⟩

/-- A client of a request is built, and another request is sent on it. -/
def pipelinedCalls : List (Call unitChan) :=
  [.requestPipeline (), .build 0 (), .requestResponse (), .send 0 1]

/-- The first request is dropped.  The second one waits on: it is queued, its parameters are there
and its receiver sees nothing.  A client that is built then is of the same channel, and that is
not closed. -/
theorem not_failsPipelines :
    ∃ (past : List (Step unitChan)) (step next : Step unitChan),
      Run (past ++ step :: [next]) next.after ∧ past.map Step.call = pipelinedCalls ∧
      step.call = .dropRequest 0 ∧ next.call = .build 0 () ∧ step.before.pending 0 = [((), 0)] ∧
      .request 1 ∈ (next.after.channel 0).requests ∧
      (next.after.request 1).tryRecv = .error .empty ∧
      (next.after.request 1).request = .present () ∧ next.Returns 0 ∧ ¬ next.after.Closed 0 ∧
      ¬ step.FailsPipelines 0 [next] := by
  obtain ⟨past, hrun, hcalls⟩ := Run.empty.runCalls
    (show Channel.runCalls pipelinedCalls World.empty = some _ from rfl)
  have hsteps : ∀ {w out w₁ out' w₂}, Call.exec (.dropRequest 0) w = .ok out w₁ →
      (w.request 0).owner = .request → Call.exec (.build 0 ()) w₁ = .ok out' w₂ → Run past w →
      Run (past ++ ⟨w, .dropRequest 0, out, w₁⟩ :: [⟨w₁, .build 0 (), out', w₂⟩]) w₂ := by
    intro w out w₁ out' w₂ hdrop howner hbuild hpast
    rw [List.append_cons]
    exact @Run.step unitChan _ ⟨_, _, _, _⟩
      (@Run.step unitChan past ⟨w, .dropRequest 0, out, w₁⟩ hpast ⟨howner, hdrop⟩) ⟨trivial, hbuild⟩
  have hlast := hsteps rfl rfl rfl hrun
  refine ⟨past, ⟨_, _, _, _⟩, ⟨_, _, _, _⟩, hlast, hcalls, rfl, rfl, rfl, List.mem_cons_self, rfl, rfl,
    ⟨_, rfl, rfl⟩, World.not_closed rfl, fun hfails => ?_⟩
  exact World.not_closed rfl (hfails.closed ((), 0) List.mem_cons_self)

end Recapn.Channel

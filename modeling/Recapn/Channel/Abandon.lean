/-
# Requests that are abandoned

A queue and the requests in it point to each other, so someone has to take them apart.  When the
receiver of a channel is dropped, nobody does: what is queued stays queued.  Nor does the request
leave the queue when nothing receives its response any more: it finds its channel, and has nothing
to do there yet.
-/
import Recapn.Channel.Closing

namespace Recapn.Channel

open Recapn.Lib Recapn.Lib.Prog

variable {C : Chan}

/-! ## Dropping a receiver -/

/-- The request has ended: its receivers see it closed, its parameters are dropped, and neither is
it linked in the channel nor does it have a parent. -/
structure World.Ended (w : World C) (c : ChannelId) (r : RequestId) : Prop where
  closed : (w.request r).tryRecv = .error .closed
  dropped : (w.request r).request = .dropped
  unlinked : .request r ∉ (w.channel c).requests
  parent : (w.request r).parent = none

/-- The call drops the receiver of the channel: directly, or by forwarding it to a channel that
was dropped. -/
def Call.LosesReceiver (w : World C) (c : ChannelId) : Call C → Prop
  | .dropReceiver c' => c' = c
  | .forwardTo c' other => c' = c ∧ ∃ sender r, w.sender other = some sender ∧
      Leads w.next sender.shared r ∧ w.ended r = some .dropped
  | _ => False

lemma dropReceiver_returns (c : ChannelId) (w : World C) :
    ∃ w', dropReceiver c w = .ok () w' ∧ w'.queues = w.queues := by
  have hrun : ∃ w', dropReceiver c w = .ok () w' := by
    unfold dropReceiver
    rw [bind_of_ok (show getChannel c w = .ok (w.channel c) w from rfl)]
    by_cases hset : (w.channel c).state.isSet = true
    · rw [if_pos_apply hset]
      exact ⟨w, rfl⟩
    · rw [if_neg_apply hset]
      exact ⟨_, rfl⟩
  obtain ⟨w', hrun⟩ := hrun
  exact ⟨w', hrun, (fixes_queues_dropReceiver c).ok hrun⟩

/-- When a receiver is dropped, the call returns and all queues are what they were. -/
lemma losesReceiver_returns {w : World C} {c : ChannelId} {call : Call C} (hreach : Reachable w)
    (hloses : call.LosesReceiver w c) :
    ∃ out w', call.exec w = .ok out w' ∧ w'.queues = w.queues := by
  cases call with
  | dropReceiver c' =>
    obtain ⟨w', hrun, hqueues⟩ :=
      dropReceiver_returns c' { w with receiver := Function.update w.receiver c' false }
    refine ⟨.unit, w', ?_, hqueues⟩
    rw [Call.exec, bind_of_ok (show holdReceiver c' false w = .ok () _ from rfl), bind_of_ok hrun]
    rfl
  | forwardTo c' other =>
    obtain ⟨-, sender, r, hsender, hleads, hended⟩ := hloses
    obtain ⟨steps, hsteps⟩ := hreach
    have hsound : Sound _ { w with receiver := Function.update w.receiver c' false } :=
      Books.Sound.takeReceiver hsteps.sound c'
    obtain ⟨w', hrun, hqueues⟩ :=
      dropReceiver_returns c' { w with receiver := Function.update w.receiver c' false }
    have hforward : forwardTo c' sender { w with receiver := Function.update w.receiver c' false }
        = .ok true w' := by
      unfold forwardTo
      rw [bind_of_ok (hsound.mostResolved_of_leads hleads)]
      have hended' : World.ended { w with receiver := Function.update w.receiver c' false } r
          = some .dropped := hended
      dsimp only
      rw [hended']
      exact bind_of_ok hrun
    refine ⟨.forwarded true, { w' with receiver := Function.update w'.receiver c' false }, ?_, hqueues⟩
    rw [Call.exec, bind_of_ok (getSender_of_sender hsender),
      bind_of_ok (show holdReceiver c' false w = .ok () _ from rfl), bind_of_ok hforward]
    rfl
  | _ => exact hloses.elim

/-- **A dropped receiver abandons what is queued.**  Dropping the receiver of a channel, or
forwarding it to a channel that was dropped, returns, and ends every queued request exactly if
there is none. -/
theorem receiver_drop_ends_iff {w : World C} {c : ChannelId} {call : Call C} (hreach : Reachable w)
    (hloses : call.LosesReceiver w c) :
    ∃ out w', call.exec w = .ok out w' ∧
      ((∀ r, .request r ∈ (w.channel c).requests → w'.Ended c r) ↔
        ∀ r, .request r ∉ (w.channel c).requests) := by
  obtain ⟨out, w', hexec, hqueues⟩ := losesReceiver_returns hreach hloses
  refine ⟨out, w', hexec, fun hends r hr => ?_, fun hnone r hr => absurd hr (hnone r)⟩
  have hlinked : .request r ∈ w'.queues c := by
    rw [hqueues]
    exact hr
  exact (hends r hr).unlinked hlinked

/-- A request is sent into a new channel. -/
def sentCalls : List (Call unitChan) := [.channel, .requestResponse (), .send 0 0]

theorem receiver_drop_ends_iff_empty :
    ∃ w : World unitChan, Reachable w ∧ ∃ out w', Call.exec (.dropReceiver 0) w = .ok out w' ∧
      ∀ r, .request r ∈ (w.channel 0).requests → w'.Ended 0 r := by
  have hreach : Reachable _ := reachable_empty.runCalls
    (show runCalls [.channel] (World.empty : World unitChan) = some _ from rfl)
  obtain ⟨out, w', hexec, hiff⟩ := @receiver_drop_ends_iff _ _ 0 (.dropReceiver 0) hreach rfl
  exact ⟨_, hreach, out, w', hexec, hiff.2 fun r => List.not_mem_nil⟩

/-- The receiver is dropped: the request is queued still, its receiver waits on, its parameters
are there, and the channel is its parent. -/
theorem not_receiver_drop_ends :
    ∃ w w' : World unitChan, Reachable w ∧
      Call.exec (.dropReceiver 0) w = .ok .unit w' ∧ .request 0 ∈ (w.channel 0).requests ∧
      ¬ w'.Ended 0 0 ∧ .request 0 ∈ (w'.channel 0).requests ∧
      (w'.request 0).tryRecv = .error .empty ∧ (w'.request 0).request = .present () ∧
      (w'.request 0).parent = some 0 := by
  have hreach : Reachable _ := reachable_empty.runCalls
    (show runCalls sentCalls World.empty = some _ from rfl)
  refine ⟨_, _, hreach, rfl, List.mem_cons_self, fun hended => ?_, List.mem_cons_self, rfl, rfl, rfl⟩
  exact hended.unlinked List.mem_cons_self

/-! ## Dropping the last receiver of a response -/

/-- The call drops the last of what receives the response of a request that is queued: a response
receiver or a pipeline builder, or a pipelined channel that is pending. -/
structure Call.DropsLast (w : World C) (r : RequestId) (call : Call C) : Prop where
  queued : ∃ c, .request r ∈ (w.channel c).requests
  last : (w.request r).receiversCount = 1
  drops : (∃ t, call = .dropTracker t ∧ w.tracker t = some r) ∨
    ∃ c, call = .freeChannel c ∧ (w.channel c).parentRequest = some r

/-- The item is this request. -/
def LinkItem.isRequest (r : RequestId) : LinkItem C → Bool
  | .request r' => r' = r
  | .event _ => false

/-- The call returns, the parameters of the request are dropped, and what is queued are all other
items, in their order. -/
def Call.LeavesChannel (w : World C) (r : RequestId) (call : Call C) : Prop :=
  ∃ out w', call.exec w = .ok out w' ∧ (w'.request r).request = .dropped ∧
    ∀ c, (w'.channel c).requests = (w.channel c).requests.filter fun item => !item.isRequest r

lemma fixes_queues_freeChannel (c : ChannelId) :
    Prog.Fixes World.queues (freeChannel c : ChanM C Unit) := by
  refine fixes_bind (fixes_getChannel c) fun ch => ?_
  refine fixes_bind (fixes_modify fun _ => rfl) fun _ => ?_
  refine fixes_bind (fixes_queues (fixes_sharedDropReceiver _)) fun _ => ?_
  rcases ch.held with _ | sender
  · exact fixes_pure _
  · exact fixes_queues_removeSender _

/-- **An abandoned request never leaves its channel.**  In no world does dropping the last
receiver of the response of a queued request take it out of its queue. -/
theorem not_leavesChannel {w : World C} {r : RequestId} {call : Call C} (h : call.DropsLast w r) :
    ¬ call.LeavesChannel w r := by
  rintro ⟨out, w', hexec, -, hrest⟩
  obtain ⟨c, hqueued⟩ := h.queued
  have hqueues : w'.queues = w.queues := by
    rcases h.drops with ⟨t, rfl, -⟩ | ⟨c', rfl, -⟩
    · have hleaves : (Call.dropTracker t : Call C).LeavesCore := trivial
      exact (fixes_queues (fixes_exec hleaves)).ok hexec
    · have hfixes : Prog.Fixes World.queues (Call.exec (.freeChannel c') : ChanM C _) :=
        fixes_bind (fixes_queues_freeChannel c') fun _ => fixes_pure _
      exact hfixes.ok hexec
  have hlinked : .request r ∈ (w'.channel c).requests := by
    show .request r ∈ w'.queues c
    rw [hqueues]
    exact hqueued
  rw [hrest, List.mem_filter] at hlinked
  simp [LinkItem.isRequest] at hlinked

theorem not_leavesChannel_sent :
    ∃ w : World unitChan, Reachable w ∧ Call.DropsLast w 0 (.dropTracker 0) ∧
      ¬ Call.LeavesChannel w 0 (.dropTracker 0) := by
  have hreach : Reachable _ := reachable_empty.runCalls
    (show runCalls sentCalls World.empty = some _ from rfl)
  exact ⟨_, hreach, ⟨⟨0, List.mem_cons_self⟩, rfl, Or.inl ⟨0, rfl, rfl⟩⟩,
    not_leavesChannel ⟨⟨0, List.mem_cons_self⟩, rfl, Or.inl ⟨0, rfl, rfl⟩⟩⟩

/-- The only receiver of the response of a request that was sent is dropped: `todo!()`. -/
theorem drop_last_panics :
    ∃ w : World unitChan, Reachable w ∧ Call.DropsLast w 0 (.dropTracker 0) ∧
      Call.exec (.dropTracker 0) w = .halt .panic ∧ ¬ Call.LeavesChannel w 0 (.dropTracker 0) := by
  have hreach : Reachable _ := reachable_empty.runCalls
    (show runCalls sentCalls World.empty = some _ from rfl)
  refine ⟨_, hreach, ⟨⟨0, List.mem_cons_self⟩, rfl, Or.inl ⟨0, rfl, rfl⟩⟩, rfl, ?_⟩
  rintro ⟨out, w', hexec, -⟩
  cases hexec

end Recapn.Channel

/-
# Closing a channel that is in use

`Receiver::close` publishes the error first, and then answers what is in the queue, batch by batch
and without the lock.  Other threads go on all the time: what they have linked before is answered,
and whatever they link later finds the error when it has the lock.
-/
import Recapn.Channel.Hands
import Recapn.Channel.Pipelining
import Recapn.Channel.Races

namespace Recapn.Channel

open Recapn.Lib Recapn.Lib.Prog Parts

variable {C : Chan} {c d : ChannelId} {r : RequestId}

/-! ## Programs that return -/

section Returns

variable {w w' : World C} {item : LinkItem C} {items : List (LinkItem C)}

lemma popFront_returns (c : ChannelId) (w : World C) : ∃ item w', popFront c w = .ok item w' := by
  unfold popFront
  rw [bind_of_ok (show getChannel c w = .ok (w.channel c) w from rfl)]
  rcases (w.channel c).requests with _ | ⟨first, rest⟩
  · exact ⟨none, w, rfl⟩
  · exact ⟨some first, _, rfl⟩

lemma itemTakeParent_returns (item : LinkItem C) (w : World C) :
    ∃ w', item.takeParent w = .ok () w' := by
  rcases item with r | event
  · exact ⟨_, rfl⟩
  · exact ⟨_, rfl⟩

lemma intoItem_returns (item : LinkItem C) (w : World C) : ∃ w', item.intoItem w = .ok () w' := by
  rcases item with r | event
  · exact ⟨_, rfl⟩
  · exact ⟨_, rfl⟩

lemma holdAll_returns (items : List (LinkItem C)) (w : World C) :
    ∃ w', holdAll items w = .ok () w' := by
  induction items generalizing w with
  | nil => exact ⟨w, rfl⟩
  | cons item items ih =>
    obtain ⟨w₁, hhold⟩ : ∃ w₁, item.hold w = .ok () w₁ := by
      rcases item with r | event
      · exact ⟨_, rfl⟩
      · exact ⟨_, rfl⟩
    obtain ⟨w', hrest⟩ := ih w₁
    refine ⟨w', ?_⟩
    show (item.hold >>= fun _ => holdAll items) w = _
    rw [bind_of_ok hhold, hrest]

lemma closeBatch_returns (c : ChannelId) (room : ℕ) (w : World C) :
    ∃ items w', closeBatch c room w = .ok items w' := by
  induction room generalizing w with
  | zero => exact ⟨[], w, rfl⟩
  | succ room ih =>
    obtain ⟨item, w₁, hpop⟩ := popFront_returns c w
    unfold closeBatch
    rw [bind_of_ok hpop]
    rcases item with _ | item
    · exact ⟨[], w₁, rfl⟩
    · obtain ⟨w₂, htake⟩ := itemTakeParent_returns item w₁
      obtain ⟨w₃, hinto⟩ := intoItem_returns item w₂
      obtain ⟨items, w₄, hmore⟩ := ih w₃
      refine ⟨item :: items, w₄, ?_⟩
      show (item.takeParent >>= fun _ => item.intoItem >>= fun _ => closeBatch c room >>= fun items =>
        pure (item :: items) : ChanM C _) w₁ = _
      rw [bind_of_ok htake, bind_of_ok hinto, bind_of_ok hmore]
      rfl

lemma takeBatch_returns (c : ChannelId) (w : World C) :
    ∃ items w', takeBatch c w = .ok items w' := by
  obtain ⟨items, w₁, hbatch⟩ := closeBatch_returns c batchSize w
  obtain ⟨w₂, hhold⟩ := holdAll_returns items w₁
  refine ⟨items, w₂, ?_⟩
  unfold takeBatch
  rw [bind_of_ok hbatch, bind_of_ok hhold]
  rfl

lemma writes_hold (item : LinkItem C) : Writes [.owner] item.hold := by
  rcases item with r | event
  · exact writes_setOwner r _
  · exact writes_pure _

lemma writes_holdAll (items : List (LinkItem C)) : Writes [.owner] (holdAll items) := by
  induction items with
  | nil => exact writes_pure _
  | cons item items ih => exact writes_bind (writes_hold item) fun _ => ih

/-- Channels that track a request without a parent are upgraded: it is in no channel. -/
lemma upgradeAll_returns {map : List (C.PipelineKey × ChannelId)}
    (hparent : (w.request r).parent = none)
    (htracks : ∀ entry ∈ map, ∀ r', (w.channel entry.2).parentRequest = some r' → r' = r) :
    ∃ w', upgradeAll map w = .ok () w' := by
  induction map generalizing w with
  | nil => exact ⟨w, rfl⟩
  | cons entry map ih =>
    have hdrops : w.freed entry.2 = false → ∀ r', (w.channel entry.2).parentRequest = some r' →
        w.Droppable r' := by
      intro _ r' htrack _ parent hlinked
      rw [htracks entry List.mem_cons_self r' htrack, hparent] at hlinked
      cases hlinked
    obtain ⟨upgraded, w₁, hone⟩ := upgradeOne_returns_iff.2 hdrops
    obtain ⟨upgraded', w₂, hweak, hrest⟩ := bind_eq_ok.1 hone
    obtain ⟨u, hhold, rfl⟩ := bind_pure_ok hrest
    -- the others track what they tracked, or nothing
    have htracks₁ : ∀ d, (w₁.channel d).parentRequest = (w.channel d).parentRequest ∨
        (w₁.channel d).parentRequest = none := by
      intro d
      have hsame : (w₁.channel d).parentRequest = (w₂.channel d).parentRequest := by
        rcases ite_eq_ok.1 hhold with ⟨-, hmodify⟩ | ⟨-, hpure⟩
        · cases hmodify
          rfl
        · cases hpure
          rfl
      rw [hsame]
      rcases weakUpgrade_ok hweak with ⟨-, rfl⟩ | ⟨-, hbooks, -⟩
      · exact Or.inl rfl
      · by_cases hd : d = entry.2
        · right
          show (w₂.books.account d).parentRequest = none
          rw [hbooks, hd]
          exact congrArg Account.parentRequest (Books.account_set_self ..)
        · left
          show (w₂.books.account d).parentRequest = _
          rw [hbooks]
          exact congrArg Account.parentRequest (Books.account_set_of_ne _ _ hd)
    have hparent₁ : (w₁.request r).parent = none := by
      rw [show (w₁.request r).parent = (w.request r).parent from
        (Pipelining.writes_upgradeOne entry.2).ok hone (p := .parent) (by decide) r, hparent]
    obtain ⟨w', hmore⟩ := ih hparent₁ fun entry' hentry r' htrack => by
      refine htracks entry' (List.mem_cons_of_mem _ hentry) r' ?_
      rcases htracks₁ entry'.2 with heq | heq
      · rw [← heq, htrack]
      · rw [heq] at htrack
        cases htrack
    refine ⟨w', ?_⟩
    show (weakUpgrade entry.2 >>= fun upgraded => _ >>= fun _ => upgradeAll map : ChanM C Unit) w = _
    rw [bind_of_ok hweak, bind_of_ok hhold, hmore]

/-- What of a request stays until its pipelined channels get their receivers. -/
lemma respond_returns {params : C.Parameters} (hparams : (w.request r).request = .present params) :
    ∃ w', respond r w = .ok params w' ∧ w'.channel = w.channel ∧
      (w'.request r).parent = (w.request r).parent ∧
      (w'.request r).pipelineMap = (w.request r).pipelineMap := by
  have htake : SharedRequest.takeRequest r w =
      .ok params (w.modifyRequest r fun req => { req with request := .taken }) := by
    unfold SharedRequest.takeRequest
    rw [bind_of_ok (show getRequest r w = .ok (w.request r) w from rfl)]
    rw [hparams]
    rfl
  refine ⟨(w.modifyRequest r fun req => { req with request := .taken }).modifyRequest r fun req =>
    { req with owner := .responder }, ?_, rfl, ?_, ?_⟩
  · unfold respond
    rw [bind_of_ok htake]
    rfl
  · rw [World.request_modifyRequest_self, World.request_modifyRequest_self]
  · rw [World.request_modifyRequest_self, World.request_modifyRequest_self]

/-- A response is given when the request is in no channel. -/
lemma responderRespond_returns (resp : C.Results) (hparent : (w.request r).parent = none)
    (hmapped : ∀ entry ∈ (w.request r).pipelineMap, (w.channel entry.2).parentRequest = some r) :
    ∃ w', Responder.respond r resp w = .ok () w' := by
  obtain ⟨w₁, hanswer, hresolves⟩ : ∃ w₁, Responder.answer r resp w = .ok () w₁ ∧
      Responder.respond r resp w = resolvePipelineMap r w₁ := ⟨_, rfl, rfl⟩
  rw [hresolves]
  have hanswered := Pipelining.answer_ok hanswer
  have hrequest : (w₁.request r).parent = none ∧
      (w₁.request r).pipelineMap = (w.request r).pipelineMap := by
    rw [hanswered, World.request_modifyRequest_self]
    exact ⟨hparent, rfl⟩
  -- the map is taken out, and its channels are upgraded
  obtain ⟨w₂, hupgrade⟩ : ∃ w₂, upgradeAll (w₁.request r).pipelineMap
      (w₁.modifyRequest r fun req => { req with pipelineMap := [] }) = .ok () w₂ := by
    refine upgradeAll_returns (r := r) ?_ fun entry hentry r' htrack => ?_
    · rw [World.request_modifyRequest_self]
      exact hrequest.1
    · rw [hrequest.2] at hentry
      have hchannel : w₁.channel = w.channel := by
        rw [hanswered]
        rfl
      have htrack' : (w₁.channel entry.2).parentRequest = some r' := htrack
      rw [hchannel, hmapped entry hentry, Option.some.injEq] at htrack'
      exact htrack'.symm
  refine ⟨w₂.modifyRequest r fun req => { req with state := req.state.setPipeline }, ?_⟩
  unfold resolvePipelineMap
  rw [bind_of_ok (show getRequest r w₁ = .ok (w₁.request r) w₁ from rfl),
    bind_of_ok (show modifyRequest r _ w₁ = .ok () _ from rfl), bind_of_ok hupgrade]
  rfl

/-- An item that is on its way, and in no channel, is answered. -/
lemma respondWithErr_returns {extra : ChannelId → ℕ} (hsound : Sound extra w) (err : C.Error)
    (hitem : ∀ r, item = .request r → (w.ledger.entry r).Waits ∧ (w.request r).parent = none) :
    ∃ w', item.respondWithErr err w = .ok () w' := by
  rcases item with r | event
  · obtain ⟨⟨⟨params, hparams⟩, -⟩, hparent⟩ := hitem r rfl
    obtain ⟨w₁, hrespond, hchannel, hparent₁, hmap⟩ := respond_returns hparams
    have hmapped : ∀ entry ∈ (w₁.request r).pipelineMap,
        (w₁.channel entry.2).parentRequest = some r := by
      intro entry hentry
      rw [hmap] at hentry
      rw [hchannel]
      exact hsound.mapped (List.mem_map_of_mem hentry)
    obtain ⟨w', hresponse⟩ := responderRespond_returns (C.intoResults err)
      (hparent₁.trans hparent) hmapped
    refine ⟨w', ?_⟩
    show (respond r >>= fun _ => Responder.respond r (C.intoResults err) : ChanM C Unit) w = _
    rw [bind_of_ok hrespond, hresponse]
  · exact ⟨w, rfl⟩

end Returns

/-! ## Where a thread is on its way -/

/-- The channel whose lock a thread has for its queue is on the way of the forwards that it follows. -/
def Thread.OnWay (w : World C) : Thread C → Prop
  | locked _ channel this => w.Comes channel this
  | targeting _ other this => w.Comes other this
  | lockingA _ otherShared other => w.Comes other otherShared
  | lockingB _ otherShared other => w.Comes other otherShared
  | lockedBoth _ otherShared this => w.Comes otherShared this ∨ w.Comes this otherShared
  | _ => True

namespace Machine

variable {address : ChannelId → ℕ} {m m' : Machine C} {t t' : ThreadId} {now : Thread C}

/-- Another one stays on its way. -/
lemma Effect.onWay (hvalid : m.Valid address) (heffect : Effect address t now m m')
    {thread : Thread C} (h : thread.OnWay m.world) : thread.OnWay m'.world := by
  cases thread with
  | locked item channel this | targeting self other this | lockingA self otherShared other
  | lockingB self otherShared other =>
    exact heffect.comes hvalid h
  | lockedBoth self otherShared this => exact h.imp (heffect.comes hvalid) (heffect.comes hvalid)
  | _ => trivial

lemma Step.onWay (h : (m.thread t).OnWay m.world) (hstep : Step address t m m') :
    (m'.thread t).OnWay m'.world := by
  have hnext : ∀ {c : ChannelId} {sender : Sender},
      m.world.tryResolved c = some (.forwarded sender) → m.world.next c = some sender.shared :=
    fun h => m.world.next_eq_some.2 h
  cases hstep with
  | call hidle =>
    show (m.thread t).OnWay _
    rw [hidle]
    trivial
  | lock ht hfree =>
    rw [thread_goto]
    exact Relation.ReflTransGen.refl
  | followLocked ht hforwarded =>
    rw [ht] at h
    rw [thread_goto]
    exact Relation.ReflTransGen.tail h (hnext hforwarded)
  | forwardTo hidle hreceiver hs hexec =>
    rw [thread_goto]
    exact Relation.ReflTransGen.refl
  | target ht hnone hne =>
    rw [ht] at h
    rw [thread_goto]
    exact h
  | followTarget ht hforwarded =>
    rw [ht] at h
    rw [thread_goto]
    exact Relation.ReflTransGen.tail h (hnext hforwarded)
  | lockA ht hfree =>
    rw [ht] at h
    rw [thread_goto]
    exact h
  | lockB ht hfree =>
    rw [ht] at h
    rw [thread_goto]
    exact Or.inr h
  | @followBoth self otherShared this next ht hforwarded =>
    rw [ht] at h
    rw [thread_goto]
    rcases h with h | h
    · exact Or.inl (Relation.ReflTransGen.tail h (hnext hforwarded))
    · -- either the other channel was found, or it is farther on the way
      rcases Relation.ReflTransGen.cases_head h with rfl | ⟨d, hd, hrest⟩
      · exact Or.inl (.single (hnext hforwarded))
      · rw [hnext hforwarded, Option.some.injEq] at hd
        rw [hd]
        exact Or.inr hrest
  | @targetEnded self other this res ht hended | @bothEnded self otherShared this res ht hended =>
    rw [thread_goto]
    cases res <;> trivial
  | _ =>
    rw [thread_goto]
    trivial

lemma Reached.onWay {ok : Machine C → ThreadId → Prop} (h : Reached address ok m) (t : ThreadId) :
    (m.thread t).OnWay m.world := by
  revert t
  refine h.invariant (p := fun m => ∀ t, (m.thread t).OnWay m.world) (fun _ => trivial) ?_
  intro m m' t hreached hway _ hstep t'
  have hvalid := hreached.valid
  obtain ⟨now, heffect⟩ := Step.effect hvalid hstep
  by_cases ht : t' = t
  · rw [ht]
    exact Step.onWay (hway t) hstep
  · rw [heffect.thread, Function.update_of_ne ht]
    exact Effect.onWay hvalid heffect (hway t')

end Machine

/-! ## The queue of a channel that was closed -/

section Queue

variable {w w' : World C} {extra : ChannelId → ℕ} {out : Output C} {err : C.Error}

/-- A call of one lock at most takes nothing out of a queue whose receiver the program does not have,
and puts nothing into it. -/
lemma Call.exec_queues {call : Call C} (hatomic : call.Atomic) (hallowed : call.Allowed w)
    (hsound : Sound extra w) (hfresh : w.queues w.channels = []) (hreceiver : w.receiver c = false)
    (hexec : call.exec w = .ok out w') : w'.queues c = w.queues c := by
  have hquiet : call.Quiet → w'.queues c = w.queues c := fun hquiet => by
    rw [(Call.rests hquiet hsound hfresh hexec).queues]
  have hne : ∀ {c'}, w.receiver c' = true → c ≠ c' := by
    rintro c' hc' rfl
    rw [hreceiver] at hc'
    cases hc'
  cases call with
  | broken err =>
    cases hexec
    show ((w.addChannel (.resolved (.error err))).channel c).requests = (w.channel c).requests
    by_cases hc : c = w.channels
    · rw [hc, World.channel_addChannel_self]
      exact hfresh.symm
    · rw [World.channel_addChannel_of_ne w _ hc]
  | pollRecv c' waker =>
    obtain ⟨result, w₁, hpoll, hpure⟩ := bind_eq_ok.1 hexec
    cases hpure
    rcases pollRecv_queues hpoll with ⟨hqueues, -⟩ | ⟨item, rest, -, -, hqueues⟩
    · rw [hqueues]
    · rw [hqueues, Function.update_of_ne (hne hallowed)]
  | tryRecv c' =>
    obtain ⟨result, hrecv, rfl⟩ := bind_pure_ok hexec
    rcases tryRecv_queues hrecv with ⟨hqueues, -⟩ | ⟨item, rest, -, -, hqueues⟩
    · rw [hqueues]
    · rw [hqueues, Function.update_of_ne (hne hallowed)]
  | send s req | sendEvent s event | forwardTo c other | close c err | dropReceiver c =>
    exact hatomic.elim
  | _ => exact hquiet trivial

end Queue

namespace Machine

variable {address : ChannelId → ℕ} {m m' : Machine C} {t t' : ThreadId} {err : C.Error}

/-- A channel that was resolved has no receiver, neither in the program nor in a call. -/
lemma not_loose_of_ended (hended : m.world.tryResolved c = some (.error err)) :
    ¬ m.world.books.Loose c := by
  intro hloose
  rw [tryResolved_of_unresolved hloose.unresolved] at hended
  cases hended

lemma Valid.receiver_of_ended (hvalid : m.Valid address)
    (hended : m.world.tryResolved c = some (.error err)) : m.world.receiver c = false := by
  rcases hreceiver : m.world.receiver c
  · rfl
  · have hnone := tryResolved_of_unresolved (Books.Sound.receiver hvalid.sound hreceiver).1
    rw [show m.world.tryResolved c = none from hnone] at hended
    cases hended

lemma comes_of_ended {w : World C} (hended : w.tryResolved c = some (.error err))
    (h : w.Comes c d) : d = c := by
  rcases Relation.ReflTransGen.cases_head h with rfl | ⟨c', hnext, -⟩
  · rfl
  · rw [w.next_eq_some, hended] at hnext
    cases hnext

/-- Whoever has the lock of a channel that was closed, and puts items into queues, finds that it was
closed. -/
lemma not_putsInto (hway : (m.thread t).OnWay m.world)
    (hended : m.world.tryResolved c = some (.error err)) : ¬ m.PutsInto t c := by
  rintro ⟨this, hnone, ⟨item, ht⟩ | ⟨self, ht⟩⟩
  · rw [ht] at hway
    rw [comes_of_ended hended hway, hended] at hnone
    cases hnone
  · rw [ht] at hway
    rcases hway with hway | hway
    · rw [comes_of_ended hended hway, hended] at hnone
      cases hnone
    · rcases Relation.ReflTransGen.cases_head hway with rfl | ⟨d, hnext, -⟩
      · rw [hended] at hnone
        cases hnone
      · rw [m.world.next_of_none hnone] at hnext
        cases hnext

/-- Nothing is put into the queue of a channel that was closed, and only who closes it takes items
out of it. -/
lemma Step.queues_of_ended (hvalid : m.Valid address) (hway : (m.thread t).OnWay m.world)
    (hended : m.world.tryResolved c = some (.error err)) (hother : ∀ e, m.thread t ≠ .draining c e)
    (hstep : Step address t m m') : m'.world.queues c = m.world.queues c := by
  have hself : ∀ {self}, (m.thread t).receiver = some self → c ≠ self := by
    rintro self hself rfl
    exact not_loose_of_ended hended (hvalid.loose hself)
  have hputs := not_putsInto hway hended
  cases hstep with
  | call hidle hatomic hallowed hlocks hexec =>
    exact Call.exec_queues hatomic hallowed hvalid.sound (hvalid.fresh (Nat.le_refl _))
      (hvalid.receiver_of_ended hended) hexec
  | send hidle hs howner hexec =>
    exact congrFun ((fixes_queues (fixes_setOwner _ .none)).ok hexec) c
  | refuse ht hended' hexec | refuseLocked ht hended' hexec =>
    exact congrFun ((fixes_queues (fixes_intoItem _)).ok hexec) c
  | @link item channel this w ht hnone hexec =>
    refine (linkItem_books hexec).2 c ?_
    rintro rfl
    exact hputs ⟨this, hnone, Or.inl ⟨item, ht⟩⟩
  | forwardTo hidle hreceiver hs hexec | targetSelf ht hnone heq hexec =>
    cases hexec
    rfl
  | @splice self otherShared this w ht hnone hexec =>
    have hne : c ≠ otherShared := by
      rintro rfl
      exact hputs ⟨this, hnone, Or.inr ⟨self, ht⟩⟩
    show w.queues c = _
    rw [(forwardLocked_ok hvalid.sound hexec).2, Function.update_of_ne (hself (by rw [ht]; rfl)),
      Function.update_of_ne hne]
  | dropReceiver hidle hreceiver hexec =>
    cases hexec
    rfl
  | dropped ht hexec => exact congrFun ((fixes_queues_dropReceiver _).ok hexec) c
  | close hidle hreceiver hexec =>
    cases hexec
    rfl
  | closeLocked ht hfree hexec => exact congrFun (closeLocked_books hvalid.sound hexec).2 c
  | @drain self err' items w ht hexec =>
    have hne : c ≠ self := by
      rintro rfl
      exact hother err' ht
    show w.queues c = _
    rw [(takeBatch_ok_queues hexec).2, Function.update_of_ne hne]
  | @answer self err' item items last w ht hlocks hexec =>
    exact congrFun (congrArg Routes.queues ((fixes_routes_respondWithErr err' item).ok hexec)) c
  | closed ht hexec => exact congrFun ((fixes_queues_dropReceiver _).ok hexec) c
  | _ => rfl

end Machine

/-! ## Closing step by step -/

/-- The channel whose queue a call of `close` empties, and the error that it answers with. -/
def Thread.closes : Thread C → Option (ChannelId × C.Error)
  | draining self err => some (self, err)
  | answering self err _ _ => some (self, err)
  | relocking self err => some (self, err)
  | _ => none

/-- The items out of the queue of a channel that a call of `close` has not answered yet. -/
def Thread.batch (c : ChannelId) : Thread C → List (LinkItem C)
  | answering self _ items _ => if self = c then items else []
  | _ => []

/-- How many steps a call of `close` makes at most, when so many items wait. -/
def Thread.stepsLeft (waiting : ℕ) : Thread C → ℕ
  | draining _ _ => 4 * waiting + 2
  | answering _ _ items true => items.length + 1
  | answering _ _ items false => items.length + (4 * waiting + 4)
  | relocking _ _ => 4 * waiting + 3
  | _ => 0

/-- The locks that the next step of a sender or of `close` needs. -/
def Thread.Needs (w : World C) (c : ChannelId) : Thread C → Prop
  | locking _ this => c = this
  | answering _ _ (item :: _) _ => item.Locks w c
  | relocking self _ => c = self
  | _ => False

/-- Whether a sender is to take a lock next. -/
def Thread.locks : Thread C → ℕ
  | locking _ _ => 1
  | _ => 0

/-- The item that a call sends, and the channel to which it has followed the forwards. -/
def Thread.sends : Thread C → Option (LinkItem C × ChannelId)
  | resolving item this => some (item, this)
  | locking item this => some (item, this)
  | locked item _ this => some (item, this)
  | _ => none

namespace Machine

variable {address : ChannelId → ℕ} {m m' : Machine C} {t t' : ThreadId} {err e : C.Error}

/-- The item that a step answers, if it is one out of the queue of the channel, and the error. -/
def Move.answer (c : ChannelId) (move : Move C) : Option (C.Error × LinkItem C) :=
  match move.before.thread move.thread with
  | .answering self err (item :: _) _ => if self = c then some (err, item) else none
  | _ => none

lemma requests_of_writes {α : Type} {K : List Part} {x : ChanM C α} {a : α} {w w' : World C}
    (h : Writes K x) (hK : Part.requests ∉ K) (hx : x w = .ok a w') : w.requests ≤ w'.requests :=
  Nat.le_of_eq (show w'.requests = w.requests from h.ok hx hK).symm

lemma Step.requests_le (hstep : Step address t m m') : m.world.requests ≤ m'.world.requests := by
  cases hstep with
  | call hidle hatomic hallowed hlocks hexec => exact (Call.exec_counts hexec).2
  | send hidle hs howner hexec => exact requests_of_writes (writes_setOwner _ _) (by decide) hexec
  | refuse ht hended hexec | refuseLocked ht hended hexec =>
    exact requests_of_writes (writes_intoItem _) (by decide) hexec
  | @link item channel this w ht hnone hexec =>
    rcases item with r | event
    · exact requests_of_writes (writes_sendLocked this channel r) (by decide) hexec
    · exact requests_of_writes (writes_sendEventLocked channel event) (by decide) hexec
  | forwardTo hidle hreceiver hs hexec | targetSelf ht hnone heq hexec =>
    cases hexec
    exact Nat.le_refl _
  | splice ht hnone hexec =>
    exact requests_of_writes (writes_forwardLocked _ _ _) (by decide) hexec
  | dropReceiver hidle hreceiver hexec =>
    cases hexec
    exact Nat.le_refl _
  | dropped ht hexec => exact requests_of_writes (writes_dropReceiver _) (by decide) hexec
  | close hidle hreceiver hexec =>
    cases hexec
    exact Nat.le_refl _
  | closeLocked ht hfree hexec => exact requests_of_writes (writes_closeLocked _ _) (by decide) hexec
  | @drain self err items w ht hexec =>
    obtain ⟨w₁, hclose, hhold⟩ := takeBatch_ok hexec
    exact Nat.le_trans (requests_of_writes (writes_closeBatch self _) (by decide) hclose)
      (requests_of_writes (writes_holdAll items) (by decide) hhold)
  | answer ht hlocks hexec => exact requests_of_writes (writes_respondWithErr _ _) (by decide) hexec
  | closed ht hexec => exact requests_of_writes (writes_dropReceiver _) (by decide) hexec
  | _ => exact Nat.le_refl _

/-- A call closes a channel that it closed before, or it has just resolved it. -/
lemma Step.closes (hstep : Step address t m m') (h : (m'.thread t).closes = some (c, e)) :
    (m.thread t).closes = some (c, e) ∨ m.thread t = .closing c e := by
  cases hstep with
  | call hidle => exact Or.inl h
  | closeLocked ht hfree hexec =>
    rw [thread_goto] at h
    cases h
    exact Or.inr ht
  | drain ht hexec | answer ht hlocks hexec | answered ht | relock ht hfree =>
    rw [thread_goto] at h
    cases h
    exact Or.inl (by rw [ht]; rfl)
  | @targetEnded self other this res ht hended | @bothEnded self otherShared this res ht hended =>
    rw [thread_goto] at h
    cases res <;> cases h
  | _ =>
    rw [thread_goto] at h
    cases h

/-- What a call of `close` has come to in a run after it has published its error: `waiting` is what
was queued then, `given` are the answers since, and `steps` is how many steps the call has made. -/
structure Drains (c : ChannelId) (err : C.Error) (t : ThreadId) (waiting : List (LinkItem C))
    (given : List (C.Error × LinkItem C)) (steps : ℕ) (m : Machine C) : Prop where
  ended : m.world.tryResolved c = some (.error err)
  alone : ∀ {t' e}, (m.thread t').closes = some (c, e) → t' = t ∧ e = err
  once : (given ++ ((m.thread t).batch c ++ m.world.queues c).map (Prod.mk err)).Perm
    (waiting.map (Prod.mk err))
  orphans : ∀ {r}, .request r ∈ (m.thread t).batch c → (m.world.ledger.entry r).parent = none
  answered : ∀ {e r}, (e, .request r) ∈ given → r < m.world.requests ∧
    (m.world.ledger.entry r).owner = .none ∧ (m.world.ledger.entry r).parent = none ∧
    (m.world.ledger.entry r).response = some (C.intoResults err)
  last : ∀ {e items}, m.thread t = .answering c e items true → m.world.queues c = []
  empty : (m.thread t).closes ≠ some (c, err) → m.world.queues c = []
  bound : (m.thread t).closes = some (c, err) →
    steps + (m.thread t).stepsLeft (m.world.queues c).length ≤ 4 * waiting.length + 2

lemma batch_eq_nil {thread : Thread C} (h : ∀ e, thread.closes ≠ some (c, e)) :
    thread.batch c = [] := by
  cases thread with
  | answering self err items last =>
    refine if_neg fun heq => h err ?_
    rw [← heq]
    rfl
  | _ => rfl

lemma mem_items_of_batch {thread : Thread C} {item : LinkItem C} (h : item ∈ thread.batch c) :
    item ∈ thread.items := by
  cases thread with
  | answering self err items last =>
    rw [Thread.batch] at h
    split at h
    · exact h
    · exact absurd h List.not_mem_nil
  | _ => exact absurd h List.not_mem_nil

/-- A step answers an item out of the queue of a channel only if it is one of who closes it. -/
lemma answer_eq_none (h : ∀ e, (m.thread t).closes ≠ some (c, e)) :
    Move.answer c ⟨m, t, m'⟩ = none := by
  show (match m.thread t with
    | .answering self err (item :: _) _ => if self = c then some (err, item) else none
    | _ => none) = none
  split
  · rename_i self err item items last ht
    refine if_neg fun heq => h err ?_
    rw [ht, heq]
    rfl
  · rfl

/-- What was answered stays answered: nobody has it in its hands. -/
lemma answered_step {threads : Finset ThreadId} {x : C.Results} (hvalid : m.Valid address)
    (hplaced : m.InPlace threads) (hstep : Step address t m m')
    (h : r < m.world.requests ∧ (m.world.ledger.entry r).owner = .none ∧
      (m.world.ledger.entry r).parent = none ∧ (m.world.ledger.entry r).response = some x) :
    r < m'.world.requests ∧ (m'.world.ledger.entry r).owner = .none ∧
      (m'.world.ledger.entry r).parent = none ∧ (m'.world.ledger.entry r).response = some x := by
  obtain ⟨hr, howner, hparent, hresponse⟩ := h
  have hitem : (m.thread t).items.head? ≠ some (.request r) := by
    intro hhead
    have hwaits := (hplaced.of_mem (List.mem_of_mem_head? hhead)).2.2.1
    rw [hwaits.2] at hresponse
    cases hresponse
  rw [Step.entry hvalid hplaced.placed hr howner hitem hstep]
  exact ⟨Nat.lt_of_lt_of_le hr (Step.requests_le hstep), howner, hparent, hresponse⟩

namespace Drains

variable {waiting : List (LinkItem C)} {given : List (C.Error × LinkItem C)} {steps : ℕ}
  {threads : Finset ThreadId}

/-- No other call comes to close the channel. -/
lemma alone_step (h : m.Drains c err t waiting given steps) (hvalid : m.Valid address)
    (hstep : Step address t' m m') {t'' : ThreadId} (hcloses : (m'.thread t'').closes = some (c, e)) :
    (m.thread t'').closes = some (c, e) := by
  obtain ⟨now, heffect⟩ := Step.effect hvalid hstep
  by_cases ht : t'' = t'
  · rw [ht] at hcloses ⊢
    refine (Step.closes hstep hcloses).resolve_right fun hclosing => ?_
    exact not_loose_of_ended h.ended (hvalid.loose (t := t') (by rw [hclosing]; rfl))
  · rw [heffect.thread, Function.update_of_ne ht] at hcloses
    exact hcloses

/-- Another thread makes a step. -/
lemma other (h : m.Drains c err t waiting given steps) (hvalid : m.Valid address)
    (hway : (m.thread t').OnWay m.world) (hplaced : m.InPlace threads) (ht : t' ≠ t)
    (hstep : Step address t' m m') : m'.Drains c err t waiting given steps := by
  obtain ⟨now, heffect⟩ := Step.effect hvalid hstep
  have hthread : m'.thread t = m.thread t := by
    rw [heffect.thread, Function.update_of_ne (Ne.symm ht)]
  have hqueues : m'.world.queues c = m.world.queues c := by
    refine Step.queues_of_ended hvalid hway h.ended (fun e heq => ?_) hstep
    exact ht (h.alone (e := e) (by rw [heq]; rfl)).1
  refine ⟨heffect.books.resolved h.ended, fun hcloses => h.alone (h.alone_step hvalid hstep hcloses),
    ?_, fun {r} hmem => ?_, fun {e r} hmem => ?_, ?_, ?_, ?_⟩
  · rw [hthread, hqueues]
    exact h.once
  · rw [hthread] at hmem
    have hitems := mem_items_of_batch hmem
    have hmine := hplaced.of_mem hitems
    have hitem : (m.thread t').items.head? ≠ some (.request r) := fun hhead =>
      ht (hplaced.unique hitems (List.mem_of_mem_head? hhead))
    rw [Step.entry hvalid hplaced.placed hmine.1 hmine.2.1 hitem hstep]
    exact h.orphans hmem
  · exact answered_step hvalid hplaced hstep (h.answered hmem)
  · rw [hthread, hqueues]
    exact h.last
  · rw [hthread, hqueues]
    exact h.empty
  · rw [hthread, hqueues]
    exact h.bound

/-- The call itself has returned, and does something else. -/
lemma own_returned (h : m.Drains c err t waiting given steps) (hvalid : m.Valid address)
    (hway : (m.thread t).OnWay m.world) (hplaced : m.InPlace threads)
    (hnot : (m.thread t).closes ≠ some (c, err)) (hstep : Step address t m m') {steps' : ℕ} :
    m'.Drains c err t waiting given steps' := by
  obtain ⟨now, heffect⟩ := Step.effect hvalid hstep
  have hnone : ∀ e, (m.thread t).closes ≠ some (c, e) := fun e hcloses =>
    hnot ((h.alone hcloses).2 ▸ hcloses)
  have hnone' : ∀ e, (m'.thread t).closes ≠ some (c, e) := fun e hcloses =>
    hnone e (h.alone_step hvalid hstep hcloses)
  have hqueues : m'.world.queues c = m.world.queues c := by
    refine Step.queues_of_ended hvalid hway h.ended (fun e heq => hnone e ?_) hstep
    rw [heq]
    rfl
  have hempty := h.empty hnot
  have honce := h.once
  rw [batch_eq_nil hnone, hempty] at honce
  refine ⟨heffect.books.resolved h.ended, fun hcloses => h.alone (h.alone_step hvalid hstep hcloses),
    ?_, fun {r} hmem => ?_, fun {e r} hmem => ?_, fun _ => ?_, fun _ => ?_, fun hcloses => ?_⟩
  · rw [batch_eq_nil hnone', hqueues, hempty]
    exact honce
  · rw [batch_eq_nil hnone'] at hmem
    exact absurd hmem List.not_mem_nil
  · exact answered_step hvalid hplaced hstep (h.answered hmem)
  · rw [hqueues, hempty]
  · rw [hqueues, hempty]
  · exact absurd hcloses (hnone' err)

/-- The call takes a batch. -/
lemma own_drain (h : m.Drains c err t waiting given steps) (hvalid : m.Valid address)
    (hplaced : m.InPlace threads) {items : List (LinkItem C)} {w : World C}
    (ht : m.thread t = .draining c err) (hexec : takeBatch c m.world = .ok items w) :
    (((m.withWorld w).release c).goto t
      (.answering c err items.reverse (decide (items.length < batchSize)))).Drains c err t waiting
      given (steps + 1) := by
  have hstep : Step address t m _ := Step.drain ht hexec
  obtain ⟨hitems, hqueues⟩ := takeBatch_ok_queues hexec
  obtain ⟨now, heffect⟩ := Step.effect hvalid hstep
  have hqueue : w.queues c = (m.world.queues c).drop batchSize := by
    rw [hqueues, Function.update_self]
  have hbatch : ∀ last, (Thread.answering c err items.reverse last : Thread C).batch c = items.reverse :=
    fun _ => if_pos rfl
  have honce := h.once
  have hbound := h.bound (by rw [ht]; rfl)
  rw [ht] at honce hbound
  refine ⟨heffect.books.resolved h.ended, fun hcloses => h.alone (h.alone_step hvalid hstep hcloses),
    ?_, fun {r} hmem => ?_, fun {e r} hmem => ?_, fun {e items'} heq => ?_, fun hcloses => ?_,
    fun _ => ?_⟩
  · rw [thread_goto, hbatch]
    show (given ++ (items.reverse ++ w.queues c).map _).Perm _
    refine List.Perm.trans (List.Perm.append_left _ (List.Perm.map _ ?_)) honce
    rw [hqueue]
    refine (List.Perm.append_right _ (List.reverse_perm items)).trans ?_
    rw [hitems, List.take_append_drop]
    rfl
  · rw [thread_goto, hbatch, List.mem_reverse] at hmem
    show (w.ledger.entry r).parent = none
    rw [(takeBatch_entry hexec r).2 hmem]
  · exact answered_step hvalid hplaced hstep (h.answered hmem)
  · -- the batch is not full, so it was all that waited
    rw [thread_goto] at heq
    have hlast : items.length < batchSize := by
      simp only [Thread.answering.injEq, decide_eq_true_iff] at heq
      exact heq.2.2.2
    show w.queues c = []
    rw [hqueue]
    rw [hitems, List.length_take] at hlast
    exact List.drop_eq_nil_of_le (by omega)
  · rw [thread_goto] at hcloses
    exact absurd rfl hcloses
  · rw [thread_goto]
    show steps + 1 + Thread.stepsLeft (w.queues c).length _ ≤ _
    have hlength : items.length = min batchSize (m.world.queues c).length := by
      rw [hitems, List.length_take]
    have hrest : (w.queues c).length = (m.world.queues c).length - batchSize := by
      rw [hqueue, List.length_drop]
    have hsize : 1 < batchSize := by decide
    have hwas : steps + (4 * (m.world.queues c).length + 2) ≤ 4 * waiting.length + 2 := hbound
    by_cases hlast : items.length < batchSize
    · rw [decide_eq_true hlast]
      show steps + 1 + (items.reverse.length + 1) ≤ _
      rw [List.length_reverse]
      omega
    · rw [decide_eq_false hlast]
      show steps + 1 + (items.reverse.length + (4 * (w.queues c).length + 4)) ≤ _
      rw [List.length_reverse]
      omega

/-- The call answers an item. -/
lemma own_answer (h : m.Drains c err t waiting given steps) (hvalid : m.Valid address)
    (hway : (m.thread t).OnWay m.world) (hplaced : m.InPlace threads) {item : LinkItem C}
    {items : List (LinkItem C)} {last : Bool} {w : World C}
    (ht : m.thread t = .answering c err (item :: items) last)
    (hlocks : ∀ d, item.Locks m.world d → m.lock d = none)
    (hexec : item.respondWithErr err m.world = .ok () w) :
    ((m.withWorld w).goto t (.answering c err items last)).Drains c err t waiting
      (given ++ [(err, item)]) (steps + 1) := by
  have hstep : Step address t m _ := Step.answer ht hlocks hexec
  obtain ⟨now, heffect⟩ := Step.effect hvalid hstep
  have hqueues : w.queues c = m.world.queues c :=
    Step.queues_of_ended hvalid hway h.ended (fun e heq => by rw [ht] at heq; cases heq) hstep
  have hbatch : ∀ items, (Thread.answering c err items last : Thread C).batch c = items := fun _ =>
    if_pos rfl
  have honce := h.once
  have hbound := h.bound (by rw [ht]; rfl)
  rw [ht] at honce hbound
  rw [hbatch] at honce
  refine ⟨heffect.books.resolved h.ended, fun hcloses => h.alone (h.alone_step hvalid hstep hcloses),
    ?_, fun {r} hmem => ?_, fun {e r} hmem => ?_, fun {e items'} heq => ?_, fun hcloses => ?_,
    fun _ => ?_⟩
  · rw [thread_goto, hbatch, List.append_assoc]
    show (given ++ ((err, item) :: (items ++ w.queues c).map _)).Perm _
    rw [hqueues]
    exact honce
  · rw [thread_goto, hbatch] at hmem
    have hne : item ≠ .request r := hplaced.head_ne (t := t) (by rw [ht]; rfl) hmem
    show (w.ledger.entry r).parent = none
    rw [respondWithErr_ledger hexec, amend_entry_of_ne _ _ hne]
    refine h.orphans ?_
    rw [ht, hbatch]
    exact List.mem_cons_of_mem _ hmem
  · rcases List.mem_append.1 hmem with hmem | hmem
    · exact answered_step hvalid hplaced hstep (h.answered hmem)
    · -- this one is answered now
      obtain ⟨-, rfl⟩ := Prod.mk.inj (List.mem_singleton.1 hmem)
      have hmine : .request r ∈ (m.thread t).items := by
        rw [ht]
        exact List.mem_cons_self
      have hparent : (m.world.ledger.entry r).parent = none := by
        refine h.orphans ?_
        rw [ht, hbatch]
        exact List.mem_cons_self
      have hentry : w.ledger.entry r = { m.world.ledger.entry r with
          owner := .none, request := .taken, response := some (C.intoResults err) } := by
        rw [respondWithErr_ledger hexec]
        exact entry_set_self _ _ _
      refine ⟨Nat.lt_of_lt_of_le (hplaced.of_mem hmine).1 (Step.requests_le hstep), ?_⟩
      show (w.ledger.entry r).owner = .none ∧ (w.ledger.entry r).parent = none ∧
        (w.ledger.entry r).response = some (C.intoResults err)
      rw [hentry]
      exact ⟨rfl, hparent, rfl⟩
  · rw [thread_goto] at heq
    cases heq
    show w.queues c = []
    rw [hqueues]
    exact h.last ht
  · rw [thread_goto] at hcloses
    exact absurd rfl hcloses
  · rw [thread_goto]
    show steps + 1 + Thread.stepsLeft (w.queues c).length _ ≤ _
    rw [hqueues]
    cases last
    · have hwas : steps + (items.length + 1 + (4 * (m.world.queues c).length + 4)) ≤
          4 * waiting.length + 2 := hbound
      show steps + 1 + (items.length + (4 * (m.world.queues c).length + 4)) ≤ _
      omega
    · have hwas : steps + (items.length + 1 + 1) ≤ 4 * waiting.length + 2 := hbound
      show steps + 1 + (items.length + 1) ≤ _
      omega

/-- The call goes on, with the world and the items that it had. -/
lemma own_goto (h : m.Drains c err t waiting given steps) {now : Thread C}
    (hworld : m'.world = m.world) (hthread : m'.thread = Function.update m.thread t now)
    (hcloses : now.closes = some (c, err)) (hbatch : now.batch c = (m.thread t).batch c)
    (hlast : ∀ e items, now ≠ .answering c e items true)
    (hleft : steps + 1 + now.stepsLeft (m.world.queues c).length ≤ 4 * waiting.length + 2) :
    m'.Drains c err t waiting given (steps + 1) := by
  have hself : m'.thread t = now := by rw [hthread, Function.update_self]
  refine ⟨by rw [hworld]; exact h.ended, fun {t' e} hcloses' => ?_, ?_, fun {r} hmem => ?_,
    fun {e r} hmem => ?_, fun heq => ?_, fun hnot => ?_, fun _ => ?_⟩
  · by_cases ht : t' = t
    · rw [ht, hself, hcloses] at hcloses'
      cases hcloses'
      exact ⟨ht, rfl⟩
    · rw [hthread, Function.update_of_ne ht] at hcloses'
      exact h.alone hcloses'
  · rw [hself, hbatch, hworld]
    exact h.once
  · rw [hself, hbatch] at hmem
    rw [hworld]
    exact h.orphans hmem
  · rw [hworld]
    exact h.answered hmem
  · rw [hself] at heq
    exact absurd heq (hlast _ _)
  · rw [hself] at hnot
    exact absurd hcloses hnot
  · rw [hself, hworld]
    exact hleft

/-- The call returns. -/
lemma own_closed (h : m.Drains c err t waiting given steps) (hvalid : m.Valid address)
    (hway : (m.thread t).OnWay m.world) (hplaced : m.InPlace threads) {w : World C}
    (ht : m.thread t = .answering c err [] true) (hexec : dropReceiver c m.world = .ok () w) :
    ((m.withWorld w).goto t .idle).Drains c err t waiting given (steps + 1) := by
  have hstep : Step address t m _ := Step.closed ht hexec
  obtain ⟨now, heffect⟩ := Step.effect hvalid hstep
  have hqueues : w.queues c = m.world.queues c :=
    Step.queues_of_ended hvalid hway h.ended (fun e heq => by rw [ht] at heq; cases heq) hstep
  have hempty := h.last ht
  have honce := h.once
  rw [ht] at honce
  refine ⟨heffect.books.resolved h.ended, fun hcloses => h.alone (h.alone_step hvalid hstep hcloses),
    ?_, fun {r} hmem => ?_, fun {e r} hmem => ?_, fun _ => ?_, fun _ => ?_, fun hcloses => ?_⟩
  · rw [thread_goto]
    show (given ++ ([] ++ w.queues c).map _).Perm _
    rw [hqueues]
    rw [show (Thread.answering c err [] true : Thread C).batch c = [] from if_pos rfl] at honce
    exact honce
  · rw [thread_goto] at hmem
    exact absurd hmem List.not_mem_nil
  · exact answered_step hvalid hplaced hstep (h.answered hmem)
  · exact hqueues.trans hempty
  · exact hqueues.trans hempty
  · rw [thread_goto] at hcloses
    cases hcloses

/-- The call makes a step before it has returned. -/
lemma own_closing (h : m.Drains c err t waiting given steps) (hvalid : m.Valid address)
    (hway : (m.thread t).OnWay m.world) (hplaced : m.InPlace threads)
    (hcloses : (m.thread t).closes = some (c, err)) (hstep : Step address t m m') :
    m'.Drains c err t waiting (given ++ (Move.answer c ⟨m, t, m'⟩).toList) (steps + 1) := by
  have hbound := h.bound hcloses
  cases hstep with
  | @drain self err' items w ht hexec =>
    rw [ht] at hcloses
    cases hcloses
    have hnone : Move.answer c ⟨m, t, ((m.withWorld w).release c).goto t
        (.answering c err items.reverse (decide (items.length < batchSize)))⟩ = none := by
      unfold Move.answer
      rw [ht]
    rw [hnone]
    exact (List.append_nil given).symm ▸ h.own_drain hvalid hplaced ht hexec
  | @answer self err' item items last w ht hlocks hexec =>
    rw [ht] at hcloses
    cases hcloses
    have hsome : Move.answer c ⟨m, t, (m.withWorld w).goto t (.answering c err items last)⟩
        = some (err, item) := by
      unfold Move.answer
      rw [ht]
      exact if_pos rfl
    rw [hsome]
    exact h.own_answer hvalid hway hplaced ht hlocks hexec
  | @answered self err' ht =>
    rw [ht] at hcloses hbound
    cases hcloses
    have hnone : Move.answer c ⟨m, t, m.goto t (.relocking c err)⟩ = none := by
      unfold Move.answer
      rw [ht]
    rw [hnone]
    refine (List.append_nil given).symm ▸ h.own_goto rfl rfl rfl ?_ nofun ?_
    · rw [ht]
      exact (if_pos rfl).symm
    · have hwas : steps + (0 + (4 * (m.world.queues c).length + 4)) ≤ 4 * waiting.length + 2 := hbound
      show steps + 1 + (4 * (m.world.queues c).length + 3) ≤ _
      omega
  | @relock self err' ht hfree =>
    rw [ht] at hcloses hbound
    cases hcloses
    have hnone : Move.answer c ⟨m, t, (m.acquire t c).goto t (.draining c err)⟩ = none := by
      unfold Move.answer
      rw [ht]
    rw [hnone]
    refine (List.append_nil given).symm ▸ h.own_goto rfl rfl rfl ?_ nofun ?_
    · rw [ht]
      rfl
    · have hwas : steps + (4 * (m.world.queues c).length + 3) ≤ 4 * waiting.length + 2 := hbound
      show steps + 1 + (4 * (m.world.queues c).length + 2) ≤ _
      omega
  | @closed self err' w ht hexec =>
    rw [ht] at hcloses
    cases hcloses
    have hnone : Move.answer c ⟨m, t, (m.withWorld w).goto t .idle⟩ = none := by
      unfold Move.answer
      rw [ht]
    rw [hnone]
    exact (List.append_nil given).symm ▸ h.own_closed hvalid hway hplaced ht hexec
  | _ => simp_all [Thread.closes]

/-- **What one step does to a channel that is being emptied.** -/
theorem step (h : m.Drains c err t waiting given steps) (hvalid : m.Valid address)
    (hway : (m.thread t').OnWay m.world) (hplaced : m.InPlace threads)
    (hstep : Step address t' m m') :
    m'.Drains c err t waiting (given ++ (Move.answer c ⟨m, t', m'⟩).toList)
      (steps + if t' = t then 1 else 0) := by
  by_cases ht : t' = t
  · rw [if_pos ht]
    subst ht
    by_cases hcloses : (m.thread t').closes = some (c, err)
    · exact h.own_closing hvalid hway hplaced hcloses hstep
    · have hnone : Move.answer c ⟨m, t', m'⟩ = none := answer_eq_none fun e heq =>
        hcloses ((h.alone heq).2 ▸ heq)
      rw [hnone]
      exact (List.append_nil given).symm ▸ h.own_returned hvalid hway hplaced hcloses hstep
  · have hnone : Move.answer c ⟨m, t', m'⟩ = none := answer_eq_none fun e heq => ht (h.alone heq).1
    rw [if_neg ht, hnone]
    exact (List.append_nil given).symm ▸ h.other hvalid hway hplaced ht hstep

end Drains

/-! ## Sending into a channel that was closed -/

/-- In this step the thread is given its item back, with the error. -/
structure Move.Refuses (move : Move C) (t : ThreadId) (item : LinkItem C) (err : C.Error) :
    Prop where
  thread : move.thread = t
  ended : ∃ this, (move.before.thread t).sends = some (item, this) ∧
    move.before.world.ended this = some (.error err)
  returned : move.after.thread t = .idle
  owned : ∀ r, item = .request r → (move.after.world.request r).owner = .request

/-- A thread that sends an item, and had so many forwards to follow to the channel, has come nearer
to it with each of its steps, or was refused with the error. -/
def Refused (c : ChannelId) (err : C.Error) (t : ThreadId) (item : LinkItem C) (n : ℕ)
    (moves : List (Move C)) (m : Machine C) : Prop :=
  (∀ move ∈ moves, (move.after.thread t).sends.isSome = true) ∧
      (∃ this left, (m.thread t).sends = some (item, this) ∧ LeadsIn m.world.next left this c ∧
        moves.countP (fun move => move.thread = t) + left + (m.thread t).locks ≤ n + 1) ∨
    ∃ before move after, moves = before ++ move :: after ∧ move.Refuses t item err ∧
      ∀ move ∈ before, (move.after.thread t).sends.isSome = true

section Refused

variable {item : LinkItem C} {this : ChannelId} {n : ℕ}

lemma ended_of_tryResolved {w : World C} (hended : w.tryResolved c = some (.error err)) :
    w.ended c = some (.error err) := by
  unfold World.ended
  rw [hended]

/-- Short of the channel it leads to everything on the way is resolved. -/
lemma tryResolved_of_leadsIn {w : World C} (h : LeadsIn w.next n this c) : this = c ∧ n = 0 ∨
      ∃ d left, w.tryResolved this = some (.forwarded ⟨d⟩) ∧ n = left + 1 ∧ LeadsIn w.next left d c := by
  cases h with
  | refl hnone => exact Or.inl ⟨rfl, rfl⟩
  | @step left _ d _ hnext hd => exact Or.inr ⟨d, left, w.next_eq_some.1 hnext, rfl, hd⟩

lemma Effect.leadsIn (hvalid : m.Valid address) {now : Thread C}
    (heffect : Effect address t now m m') (hended : m.world.tryResolved c = some (.error err))
    (h : LeadsIn m.world.next n this c) : LeadsIn m'.world.next n this c := by
  have hend : m'.world.next c = none := by
    have hended' : m'.world.tryResolved c = some (.error err) := heffect.books.resolved hended
    unfold World.next
    rw [hended']
  induction h with
  | refl _ => exact .refl hend
  | step hnext _ ih => exact .step (heffect.next_some hvalid hnext) (ih hended hend)

/-- A step of a thread that sends into a channel that was closed: it follows a forward, or takes the
lock, or is refused. -/
lemma Step.sends_of_ended (hended : m.world.tryResolved c = some (.error err))
    (hsends : (m.thread t).sends = some (item, this)) (hleads : LeadsIn m.world.next n this c)
    (hstep : Step address t m m') :
    (∃ this' left, (m'.thread t).sends = some (item, this') ∧ m'.world = m.world ∧
      LeadsIn m.world.next left this' c ∧ left + (m'.thread t).locks + 1 ≤ n + (m.thread t).locks) ∨
      Move.Refuses ⟨m, t, m'⟩ t item err := by
  have hway := tryResolved_of_leadsIn hleads
  have hresolved : m.world.tryResolved this ≠ none := by
    rcases hway with ⟨rfl, -⟩ | ⟨d, left, hforwarded, -, -⟩
    · rw [hended]
      nofun
    · rw [hforwarded]
      nofun
  have hfollow : ∀ {channel : Sender}, m.world.tryResolved this = some (.forwarded channel) →
      ∃ left, n = left + 1 ∧ LeadsIn m.world.next left channel.shared c := by
    intro channel hforwarded
    rcases hway with ⟨rfl, -⟩ | ⟨d, left, hforwarded', hn, hd⟩
    · rw [hended] at hforwarded
      cases hforwarded
    · rw [hforwarded'] at hforwarded
      cases hforwarded
      exact ⟨left, hn, hd⟩
  have hlast : ∀ {res : MostResolved C}, m.world.ended this = some res →
      m.world.ended this = some (.error err) := by
    intro res hres
    rcases hway with ⟨rfl, -⟩ | ⟨d, left, hforwarded, -, -⟩
    · exact ended_of_tryResolved hended
    · unfold World.ended at hres
      rw [hforwarded] at hres
      cases hres
  have hgiven : ∀ {w : World C}, item.intoItem m.world = .ok () w →
      ∀ r, item = .request r → (w.request r).owner = .request := by
    rintro w hinto r rfl
    show (w.ledger.entry r).owner = .request
    rw [setOwner_ledger hinto, entry_set_self]
  cases hstep with
  | found ht hnone =>
    rw [ht] at hsends
    cases hsends
    exact absurd hnone hresolved
  | follow ht hforwarded =>
    rw [ht] at hsends
    cases hsends
    obtain ⟨left, rfl, hleft⟩ := hfollow hforwarded
    refine Or.inl ⟨_, left, by rw [thread_goto]; rfl, rfl, hleft, ?_⟩
    rw [thread_goto, ht]
    exact Nat.le_refl _
  | refuse ht hended' hexec =>
    have hsends' := hsends
    rw [ht] at hsends
    cases hsends
    exact Or.inr ⟨rfl, ⟨_, hsends', hlast hended'⟩, Function.update_self .., hgiven hexec⟩
  | lock ht hfree =>
    rw [ht] at hsends
    cases hsends
    refine Or.inl ⟨this, n, by rw [thread_goto]; rfl, rfl, hleads, ?_⟩
    rw [thread_goto, ht]
    exact Nat.le_refl _
  | followLocked ht hforwarded =>
    rw [ht] at hsends
    cases hsends
    obtain ⟨left, rfl, hleft⟩ := hfollow hforwarded
    refine Or.inl ⟨_, left, by rw [thread_goto]; rfl, rfl, hleft, ?_⟩
    rw [thread_goto, ht]
    exact Nat.le_refl _
  | refuseLocked ht hended' hexec =>
    have hsends' := hsends
    rw [ht] at hsends
    cases hsends
    exact Or.inr ⟨rfl, ⟨_, hsends', hlast hended'⟩, Function.update_self .., hgiven hexec⟩
  | link ht hnone hexec =>
    rw [ht] at hsends
    cases hsends
    exact absurd hnone hresolved
  | _ => simp_all [Thread.sends]

/-- A thread that sends into a channel that was closed can go on, when its lock is free. -/
lemma sends_goesOn (hended : m.world.tryResolved c = some (.error err))
    (hsends : (m.thread t).sends = some (item, this)) (hleads : LeadsIn m.world.next n this c)
    (hfree : ∀ d, (m.thread t).Needs m.world d → m.lock d = none) :
    ∃ m', Step address t m m' := by
  obtain ⟨w, hinto⟩ := intoItem_returns item m.world
  have hway := tryResolved_of_leadsIn hleads
  cases ht : m.thread t with
  | resolving item' this' =>
    rw [ht] at hsends
    cases hsends
    rcases hway with ⟨rfl, -⟩ | ⟨d, left, hforwarded, -, -⟩
    · exact ⟨_, .refuse ht (ended_of_tryResolved hended) hinto⟩
    · exact ⟨_, .follow ht hforwarded⟩
  | locking item' this' =>
    rw [ht] at hfree
    exact ⟨_, .lock ht (hfree this' rfl)⟩
  | locked item' channel this' =>
    rw [ht] at hsends
    cases hsends
    rcases hway with ⟨rfl, -⟩ | ⟨d, left, hforwarded, -, -⟩
    · exact ⟨_, .refuseLocked ht (ended_of_tryResolved hended) hinto⟩
    · exact ⟨_, .followLocked ht hforwarded⟩
  | _ =>
    rw [ht] at hsends
    cases hsends

/-- The sender is refused, or comes nearer, whatever step is made. -/
lemma Refused.step {moves : List (Move C)} {move : Move C} (hvalid : move.before.Valid address)
    (hended : move.before.world.tryResolved c = some (.error err))
    (h : Refused c err t item n moves move.before)
    (hstep : Step address move.thread move.before move.after) :
    Refused c err t item n (moves ++ [move]) move.after := by
  rcases h with ⟨hsent, this, left, hsends, hleads, hcount⟩ | ⟨before, ret, after, rfl, hret, hsent⟩
  · by_cases ht : move.thread = t
    · rw [← ht] at hsends
      rcases Step.sends_of_ended hended hsends hleads hstep with
        ⟨this', left', hsends', hworld, hleads', hleft⟩ | hrefuses
      · rw [ht] at hsends' hleft
        refine Or.inl ⟨fun move' hmove' => ?_, this', left', hsends', by rwa [hworld], ?_⟩
        · rcases List.mem_append.1 hmove' with hmove' | hmove'
          · exact hsent move' hmove'
          · rw [List.mem_singleton.1 hmove', hsends']
            rfl
        · rw [List.countP_append, List.countP_cons_of_pos (by simpa using ht), List.countP_nil]
          omega
      · refine Or.inr ⟨moves, move, [], rfl, ?_, hsent⟩
        rw [← ht]
        exact hrefuses
    · obtain ⟨now, heffect⟩ := Step.effect hvalid hstep
      have hthread : move.after.thread t = move.before.thread t := by
        rw [heffect.thread, Function.update_of_ne (Ne.symm ht)]
      refine Or.inl ⟨fun move' hmove' => ?_, this, left, by rw [hthread, hsends],
        heffect.leadsIn hvalid hended hleads, ?_⟩
      · rcases List.mem_append.1 hmove' with hmove' | hmove'
        · exact hsent move' hmove'
        · rw [List.mem_singleton.1 hmove', hthread, hsends]
          rfl
      · rw [List.countP_append, List.countP_cons_of_neg (by simpa using ht), List.countP_nil, hthread]
        exact hcount
  · exact Or.inr ⟨before, ret, after ++ [move], by rw [List.append_assoc, List.cons_append], hret, hsent⟩

end Refused

/-! ## Closing answers all -/

section Close

variable {earlier later moves : List (Move C)} {close : Move C}

lemma Drains.start (hvalid : m.Valid address) (ht : m.thread t = .closing c err)
    (hstep : Step address t m m') : m'.Drains c err t (m.world.queues c) [] 0 := by
  have hloose := hvalid.loose (t := t) (c := c) (by rw [ht]; rfl)
  have hunset : ¬ (m.world.books.account c).isSet = true := by
    rw [hloose.unresolved.1]
    exact Bool.false_ne_true
  cases hstep with
  | @closeLocked self err' w ht' hfree hexec =>
    rw [ht] at ht'
    cases ht'
    obtain ⟨hbooks, hqueues⟩ := closeLocked_books hvalid.sound hexec
    refine ⟨?_, fun {t' e} hcloses => ?_, ?_, fun {r} hmem => ?_, fun hmem => ?_, fun heq => ?_,
      fun hnot => ?_, fun _ => ?_⟩
    · show (w.books.account c).resolved = some (.error err)
      rw [hbooks]
      exact congrArg Account.resolved (Books.account_set_self ..)
    · by_cases ht' : t' = t
      · rw [ht', thread_goto] at hcloses
        cases hcloses
        exact ⟨ht', rfl⟩
      · -- who closed it before has resolved it, but its receiver is in use
        have hcloses' : (m.thread t').closes = some (c, e) := by
          rw [← hcloses]
          exact congrArg Thread.closes (Function.update_of_ne ht' _ _).symm
        have hfits := hvalid.fits t'
        cases hnow : m.thread t' with
        | draining self e' =>
          rw [hnow] at hfits hcloses'
          cases hcloses'
          exact absurd hfits.2.1 hunset
        | answering self e' items last =>
          rw [hnow] at hfits hcloses'
          cases hcloses'
          exact absurd hfits.2 hunset
        | relocking self e' =>
          rw [hnow] at hfits hcloses'
          cases hcloses'
          exact absurd hfits.2 hunset
        | _ =>
          rw [hnow] at hcloses'
          cases hcloses'
    · rw [thread_goto]
      show (([] ++ w.queues c).map _).Perm _
      rw [hqueues]
      rfl
    · rw [thread_goto] at hmem
      exact absurd hmem List.not_mem_nil
    · exact absurd hmem List.not_mem_nil
    · rw [thread_goto] at heq
      cases heq
    · rw [thread_goto] at hnot
      exact absurd rfl hnot
    · rw [thread_goto]
      show 0 + (4 * (w.queues c).length + 2) ≤ _
      rw [hqueues]
      omega
  | _ => simp_all

/-- The answers to what was in the queue of a channel, in order, with their errors. -/
def answers (c : ChannelId) (moves : List (Move C)) : List (C.Error × LinkItem C) :=
  moves.filterMap (Move.answer c)

lemma Run.reached (h : Run address moves m) : Reached address (fun _ _ => True) m :=
  ⟨moves, h, fun _ _ => trivial⟩

lemma Run.drains (h : Run address (earlier ++ close :: later) m)
    (hclose : close.before.thread close.thread = .closing c err) :
    m.Drains c err close.thread (close.before.world.queues c) (answers c later)
      (later.countP fun move => move.thread = close.thread) := by
  rw [List.append_cons] at h
  refine Run.invariant (p := fun later m => m.Drains c err close.thread
    (close.before.world.queues c) (answers c later) (later.countP fun move => move.thread = close.thread))
    h (fun hstart => ?_) fun {moves move} hrun hdrains hstep => ?_
  · obtain ⟨hrun, hstep, rfl⟩ := hstart.of_concat
    exact Drains.start hrun.reached.valid hclose hstep
  · obtain ⟨-, threads, hplaced⟩ := hrun.reached.inPlace
    have hafter := hdrains.step hrun.reached.valid (hrun.reached.onWay move.thread) hplaced hstep
    have hanswers : answers c (moves ++ [move]) = answers c moves ++ (Move.answer c move).toList := by
      unfold answers
      rw [List.filterMap_append]
      congr 1
    have hcount : (moves ++ [move]).countP (fun move => move.thread = close.thread)
        = moves.countP (fun move => move.thread = close.thread) +
          if move.thread = close.thread then 1 else 0 := by
      rw [List.countP_append, List.countP_singleton]
      simp
    rw [hanswers, hcount]
    exact hafter

/-- What a call of `close` comes to, after it has published its error: `waiting` is what was queued
then, and `later` are the steps since. -/
structure AnswersAll (address : ChannelId → ℕ) (c : ChannelId) (err : C.Error) (close : Move C)
    (later : List (Move C)) (m : Machine C) : Prop where
  /-- Everything that was queued is answered once, with the error, or is still to be answered. -/
  once : (answers c later ++ ((m.thread close.thread).batch c ++ m.world.queues c).map
    (Prod.mk err)).Perm ((close.before.world.queues c).map (Prod.mk err))
  distinct : ∀ r, timesIn (close.before.world.queues c) r ≤ 1
  /-- A request has its response, and no parent, from when it is answered on. -/
  responded : ∀ r, .request r ∈ close.before.world.queues c →
    (err, .request r) ∈ answers c later ∧
        (m.world.request r).response = some (C.intoResults err) ∧ (m.world.request r).parent = none ∨
      (err, .request r) ∉ answers c later ∧ (m.world.request r).response = none
  /-- When the call has returned, everything was answered, and the queue is empty and stays so. -/
  complete : (m.thread close.thread).closes ≠ some (c, err) → m.world.queues c = [] ∧
    (answers c later).Perm ((close.before.world.queues c).map (Prod.mk err))
  /-- The call returns after so many steps, each of which it can make when the locks are free. -/
  returns : (m.thread close.thread).closes = some (c, err) →
    later.countP (fun move => move.thread = close.thread) ≤
        4 * (close.before.world.queues c).length + 1 ∧
      ((∀ d, (m.thread close.thread).Needs m.world d → m.lock d = none) →
        ∃ m', Step address close.thread m m')
  /-- Whoever sends then, to where the forwards end at the channel, is refused with the error. -/
  refuses : ∀ before start after t item this n, close :: later = before ++ start :: after →
    (start.after.thread t).sends = some (item, this) → LeadsIn start.after.world.next n this c →
    Refused c err t item n after m
  /-- Each step of such a sender can be made when the lock is free. -/
  sends : ∀ t item this n, (m.thread t).sends = some (item, this) →
    LeadsIn m.world.next n this c → (∀ d, (m.thread t).Needs m.world d → m.lock d = none) →
    ∃ m', Step address t m m'

/-- The call can go on when the locks that it needs are free. -/
lemma Drains.goesOn {waiting : List (LinkItem C)} {given : List (C.Error × LinkItem C)} {steps : ℕ}
    {threads : Finset ThreadId} (h : m.Drains c err t waiting given steps)
    (hvalid : m.Valid address) (hplaced : m.InPlace threads)
    (hcloses : (m.thread t).closes = some (c, err))
    (hfree : ∀ d, (m.thread t).Needs m.world d → m.lock d = none) : ∃ m', Step address t m m' := by
  cases ht : m.thread t with
  | draining self e =>
    obtain ⟨items, w, hexec⟩ := takeBatch_returns self m.world
    exact ⟨_, .drain ht hexec⟩
  | answering self e items last =>
    rw [ht] at hcloses hfree
    cases hcloses
    rcases items with _ | ⟨item, items⟩
    · cases last with
      | false => exact ⟨_, .answered ht⟩
      | true =>
        obtain ⟨w, hexec, -⟩ := dropReceiver_returns c m.world
        exact ⟨_, .closed ht hexec⟩
    · have hitem : ∀ r, item = .request r → (m.world.ledger.entry r).Waits ∧
          (m.world.request r).parent = none := by
        rintro r rfl
        refine ⟨(hplaced.of_mem (t := t) (r := r) ?_).2.2.1, h.orphans ?_⟩
        · rw [ht]
          exact List.mem_cons_self
        · rw [ht]
          rw [show (Thread.answering c err (.request r :: items) last : Thread C).batch c
            = .request r :: items from if_pos rfl]
          exact List.mem_cons_self
      obtain ⟨w, hexec⟩ := respondWithErr_returns hvalid.sound err hitem
      exact ⟨_, .answer ht hfree hexec⟩
  | relocking self e =>
    rw [ht] at hfree
    exact ⟨_, .relock ht (hfree self rfl)⟩
  | _ =>
    rw [ht] at hcloses
    cases hcloses

/-- A sender is refused from any point of a run on at which the channel was closed. -/
lemma Run.refused {start : Move C} {item : LinkItem C} {this : ChannelId} {n : ℕ}
    (h : Run address (earlier ++ start :: later) m)
    (hended : start.after.world.tryResolved c = some (.error err))
    (hsends : (start.after.thread t).sends = some (item, this))
    (hleads : LeadsIn start.after.world.next n this c) : Refused c err t item n later m := by
  rw [List.append_cons] at h
  refine (Run.invariant (p := fun later m =>
    m.world.tryResolved c = some (.error err) ∧ Refused c err t item n later m)
    h (fun hstart => ?_) fun {moves move} hrun hrefused hstep => ?_).2
  · obtain ⟨-, -, rfl⟩ := hstart.of_concat
    refine ⟨hended, Or.inl ⟨fun _ hmem => absurd hmem List.not_mem_nil, this, n, hsends, hleads, ?_⟩⟩
    have hlocks : (start.after.thread t).locks ≤ 1 := by
      cases start.after.thread t <;> first | exact Nat.le_refl 1 | exact Nat.zero_le 1
    rw [List.countP_nil]
    omega
  · have hvalid := hrun.reached.valid
    obtain ⟨now, heffect⟩ := Step.effect hvalid hstep
    exact ⟨heffect.books.resolved hrefused.1, hrefused.2.step hvalid hrefused.1 hstep⟩

lemma Run.of_append {m : Machine C} (h : Run address (earlier ++ later) m) :
    ∃ m', Run address earlier m' := by
  induction later using List.reverseRecOn generalizing m with
  | nil => exact ⟨m, by rwa [List.append_nil] at h⟩
  | append_singleton moves move ih =>
    rw [← List.append_assoc] at h
    exact ih h.of_concat.1

/-- **Closing a channel answers every request in its queue once**, whatever other threads do
meanwhile, and senders are refused from then on. -/
theorem Run.answersAll (h : Run address (earlier ++ close :: later) m)
    (hclose : close.before.thread close.thread = .closing c err) :
    AnswersAll address c err close later m := by
  have hdrains := h.drains hclose
  have hvalid := h.reached.valid
  obtain ⟨-, threads, hplaced⟩ := h.reached.inPlace
  -- the call when it publishes its error
  obtain ⟨m₁, hrun₁⟩ : ∃ m₁, Run address (earlier ++ [close]) m₁ := by
    rw [List.append_cons] at h
    exact h.of_append
  obtain ⟨hrun, hstep, -⟩ := hrun₁.of_concat
  obtain ⟨-, threads₀, hplaced₀⟩ := hrun.reached.inPlace
  have hlt : c < close.before.world.channels := by
    refine (hrun.reached.valid.loose (t := close.thread) ?_).lt
    rw [hclose]
    rfl
  have hmem : ∀ r, .request r ∈ close.before.world.queues c → (err, .request r) ∈ answers c later ∨
      .request r ∈ (m.thread close.thread).batch c ++ m.world.queues c := by
    intro r hr
    have hsome := (hdrains.once.mem_iff (a := (err, .request r))).2 (List.mem_map_of_mem hr)
    rcases List.mem_append.1 hsome with hanswered | hwaits
    · exact Or.inl hanswered
    · obtain ⟨item, hitem, heq⟩ := List.mem_map.1 hwaits
      rw [(Prod.mk.inj heq).2] at hitem
      exact Or.inr hitem
  -- what is not answered yet has no response
  have hunanswered : ∀ r, .request r ∈ (m.thread close.thread).batch c ++ m.world.queues c →
      (m.world.request r).response = none := by
    intro r hr
    rcases List.mem_append.1 hr with hbatch | hqueue
    · exact (hplaced.of_mem (mem_items_of_batch hbatch)).2.2.1.2
    · have hc : c < m.world.channels := by
        by_contra hlater
        rw [hvalid.fresh (Nat.not_lt.1 hlater)] at hqueue
        exact absurd hqueue List.not_mem_nil
      exact (hplaced.placed.of_mem hc hqueue).2.2.2.2
  refine ⟨hdrains.once, fun r => ?_, fun r hr => ?_, fun hnot => ?_, fun hcloses => ⟨?_, ?_⟩, ?_, ?_⟩
  · exact Nat.le_trans (countP_le_timesQueued hlt r)
      (Nat.le_trans (Nat.le_add_right _ _) (hplaced₀.placed.entry r).once)
  · by_cases hanswered : (err, .request r) ∈ answers c later
    · obtain ⟨-, -, hparent, hresponse⟩ := hdrains.answered hanswered
      exact Or.inl ⟨hanswered, hresponse, hparent⟩
    · exact Or.inr ⟨hanswered, hunanswered r ((hmem r hr).resolve_left hanswered)⟩
  · have hempty := hdrains.empty hnot
    have hnone : ∀ e, (m.thread close.thread).closes ≠ some (c, e) := fun e heq =>
      hnot ((hdrains.alone heq).2 ▸ heq)
    have honce := hdrains.once
    rw [batch_eq_nil hnone, hempty] at honce
    rw [List.append_nil, List.map_nil, List.append_nil] at honce
    exact ⟨hempty, honce⟩
  · have hbound := hdrains.bound hcloses
    have hleft : 0 < (m.thread close.thread).stepsLeft (m.world.queues c).length := by
      cases hnow : m.thread close.thread with
      | draining self e => exact Nat.succ_pos _
      | answering self e items last =>
        cases last with
        | false => exact Nat.succ_pos _
        | true => exact Nat.succ_pos _
      | relocking self e => exact Nat.succ_pos _
      | _ =>
        rw [hnow] at hcloses
        cases hcloses
    omega
  · exact hdrains.goesOn hvalid hplaced hcloses
  · intro before start after t item this n hsplit hsends hleads
    have hall := h
    rw [hsplit, ← List.append_assoc] at hall
    refine hall.refused ?_ hsends hleads
    -- the channel is closed after the step at which the sender is looked at
    rcases List.cons_eq_append_iff.1 hsplit with ⟨rfl, heq⟩ | ⟨before', rfl, rfl⟩
    · obtain ⟨rfl, -⟩ := List.cons.inj heq
      exact (Drains.start hrun.reached.valid hclose hstep).ended
    · have hpart : Run address (earlier ++ close :: (before' ++ [start])) start.after := by
        rw [List.append_cons] at hall
        obtain ⟨m₂, hrun₂⟩ := hall.of_append
        have hlast := hrun₂.of_concat.2.2
        rw [List.append_assoc, hlast] at hrun₂
        exact hrun₂
      exact (hpart.drains hclose).ended
  · intro t item this n hsends hleads hfree
    exact sends_goesOn hdrains.ended hsends hleads hfree

/-- A request is sent, and its channel is closed. -/
theorem Run.answersAll_sent :
    ∃ (earlier later : List (Move unitChan)) (close : Move unitChan) (m : Machine unitChan),
      Run id (earlier ++ close :: later) m ∧ m.thread close.thread = .idle ∧
      answers 0 later = [((), .request 0)] ∧ AnswersAll id 0 () close later m := by
  have h : Run id [] (Machine.start : Machine unitChan) := .start
  replace h := h.concat (@Step.call _ id 0 _ .channel (.sender 0) _ rfl trivial
    trivial (fun _ h => h.elim) rfl)
  replace h := h.concat (@Step.call _ id 0 _ (.requestResponse ()) .unit _ rfl
    trivial trivial (fun _ h => h.elim) rfl)
  replace h := h.concat (@Step.send _ id 0 _ 0 ⟨0⟩ 0 _ rfl rfl rfl rfl)
  replace h := h.concat (@Step.found _ id 0 _ (.request 0) 0 rfl rfl)
  replace h := h.concat (@Step.lock _ id 0 _ (.request 0) 0 rfl rfl)
  replace h := h.concat (@Step.link _ id 0 _ (.request 0) 0 0 _ rfl rfl rfl)
  replace h := h.concat (@Step.close _ id 1 _ 0 () _ rfl rfl rfl)
  replace h := h.concat (@Step.closeLocked _ id 1 _ 0 () _ rfl rfl rfl)
  replace h := h.concat (@Step.drain _ id 1 _ 0 () [.request 0] _ rfl rfl)
  replace h := h.concat (@Step.answer _ id 1 _ 0 () (.request 0) [] true _ rfl
    (fun _ h => nomatch h) rfl)
  replace h := h.concat (@Step.closed _ id 1 _ 0 () _ rfl rfl)
  rw [List.append_assoc, List.append_assoc, List.append_assoc] at h
  exact ⟨_, _, _, _, h, rfl, rfl, Run.answersAll h rfl⟩

end Close

/-! ## What was answered -/

section Answered

variable {r : RequestId} {resp : C.Results} {earlier later : List (Move C)} {move : Move C}

/-- A request that was answered is nowhere any more. -/
lemma InPlace.of_response {threads : Finset ThreadId} (h : m.InPlace threads)
    (hresp : (m.world.request r).response = some resp) :
    (m.world.ledger.entry r).owner = .none ∧ m.world.timesQueued r = 0 ∧
      ∀ t, .request r ∉ (m.thread t).items := by
  have hplaced := h.placed.entry r
  have hwaits : ¬ (m.world.ledger.entry r).Waits := by
    rintro ⟨-, hnone⟩
    cases hresp.symm.trans hnone
  refine ⟨?_, ?_, fun t hmem => hwaits (h.of_mem hmem).2.2.1⟩
  · by_contra howner
    cases hresp.symm.trans (hplaced.owned howner)
  · exact Nat.eq_zero_of_not_pos fun hpos => hwaits (hplaced.waits (Or.inl (Nat.add_pos_left hpos _)))

/-- **A response is for good**: whatever threads do after it was set, it stays what it is, and the
request is in no queue and in no one's hands again. -/
theorem Run.answeredForGood (h : Run address (earlier ++ move :: later) m)
    (hr : r < move.after.world.requests)
    (hresp : (move.after.world.request r).response = some resp) :
    (m.world.request r).response = some resp ∧ (m.world.request r).owner = .none ∧
      (∀ c, .request r ∉ (m.world.channel c).requests) ∧ ∀ t, .request r ∉ (m.thread t).items := by
  rw [List.append_cons] at h
  have hstays := Run.invariant (p := fun _ m => r < m.world.requests ∧
    (m.world.request r).response = some resp) h (fun hstart => ?_) fun {moves move} hrun hbefore hstep => ?_
  · obtain ⟨-, threads, hplaced⟩ := h.reached.inPlace
    obtain ⟨howner, hqueued, hhands⟩ := hplaced.of_response hstays.2
    refine ⟨hstays.2, howner, fun c hmem => ?_, hhands⟩
    by_cases hc : c < m.world.channels
    · exact Nat.ne_of_gt (timesQueued_pos hc hmem) hqueued
    · rw [show (m.world.channel c).requests = [] from h.reached.valid.fresh (Nat.not_lt.1 hc)] at hmem
      exact List.not_mem_nil hmem
  · obtain ⟨-, -, rfl⟩ := hstart.of_concat
    exact ⟨hr, hresp⟩
  · -- what nobody owns, or has in hand, is left by the step
    obtain ⟨-, threads, hplaced⟩ := hrun.reached.inPlace
    obtain ⟨howner, -, hhands⟩ := hplaced.of_response hbefore.2
    have hentry := Step.entry hrun.reached.valid hplaced.placed hbefore.1 howner
      (fun hhead => hhands _ (List.mem_of_mem_head? hhead)) hstep
    exact ⟨Nat.lt_of_lt_of_le hbefore.1 (Step.requests_le hstep),
      (congrArg Entry.response hentry).trans hbefore.2⟩

/-- A request is answered before a channel is made. -/
theorem Run.answeredForGood_alone : ∃ m : Machine unitChan,
    (m.world.request 0).response = some () ∧ (m.world.request 0).owner = .none ∧
      (∀ c, .request 0 ∉ (m.world.channel c).requests) ∧ ∀ t, .request 0 ∉ (m.thread t).items := by
  have h : Run id [] (Machine.start : Machine unitChan) := .start
  replace h := h.concat (@Step.call _ id 0 _ (.requestResponse ()) _ _ rfl trivial trivial
    (fun _ h => h.elim) rfl)
  replace h := h.concat (@Step.call _ id 0 _ (.respond 0) _ _ rfl trivial rfl (fun _ h => h.elim) rfl)
  replace h := h.concat (@Step.call _ id 0 _ (.responderRespond 0 ()) _ _ rfl trivial rfl
    (fun _ h => absurd h List.not_mem_nil) rfl)
  replace h := h.concat (@Step.call _ id 0 _ .channel _ _ rfl trivial trivial (fun _ h => h.elim) rfl)
  rw [List.append_assoc] at h
  exact ⟨_, Run.answeredForGood h Nat.one_pos rfl⟩

end Answered

end Machine

end Recapn.Channel

/-
# Calls that are over at once

While receivers are in use in some calls, others that take one lock at most may run.  They leave the
receivers in use what they are, and what a channel was resolved to, and they put no item anywhere.
-/
import Recapn.Channel.Order

namespace Recapn.Channel

open Recapn.Lib Recapn.Lib.Prog

variable {C : Chan} {extra : ChannelId → ℕ} {c d : ChannelId}

/-- The call takes one lock at most.  Nothing is deallocated here. -/
def Call.Atomic : Call C → Prop
  | send _ _ => False
  | sendEvent _ _ => False
  | forwardTo _ _ => False
  | close _ _ => False
  | dropReceiver _ => False
  | resolveInPlace _ => False
  | freeChannel _ => False
  | freeRequest _ => False
  | _ => True

/-- There may be more channels, and receivers in use and channels that were resolved stay so. -/
structure Books.Grows (b b' : Books C) : Prop where
  channels : b.channels ≤ b'.channels
  loose : ∀ {c}, b.Loose c → b'.Loose c
  isSet : ∀ {c}, c < b.channels → (b.account c).isSet = true → (b'.account c).isSet = true

namespace Books

variable {b b' b'' : Books C}

lemma Grows.refl (b : Books C) : b.Grows b := ⟨Nat.le_refl _, fun h => h, fun _ h => h⟩

lemma Grows.trans (h : b.Grows b') (h' : b'.Grows b'') : b.Grows b'' where
  channels := Nat.le_trans h.channels h'.channels
  loose hc := h'.loose (h.loose hc)
  isSet hc hset := h'.isSet (Nat.lt_of_lt_of_le hc h.channels) (h.isSet hc hset)

lemma Upgrades.grows (h : b.Upgrades b') : b.Grows b' where
  channels := Nat.le_of_eq h.channels.symm
  loose hc := h.loose hc
  isSet {c} _ hset := by rw [h.isSet c, hset]

/-- Only the counts of the channels that are there have changed. -/
lemma grows_of_account (hchannels : b.channels ≤ b'.channels)
    (haccount : ∀ c < b.channels, ∃ count, b'.account c = (b.account c).withCount count)
    (hreceiver : ∀ c < b.channels, b'.receiver c = b.receiver c)
    (hfreed : ∀ c < b.channels, b'.freed c = b.freed c) : b.Grows b' where
  channels := hchannels
  loose {c} hc := by
    obtain ⟨count, heq⟩ := haccount c hc.lt
    refine ⟨Nat.lt_of_lt_of_le hc.lt hchannels, ?_, ?_, ?_, ?_⟩
    · rw [heq]
      exact hc.unresolved
    · rw [heq]
      exact hc.parentRequest
    · rw [hreceiver c hc.lt]
      exact hc.receiver
    · rw [hfreed c hc.lt]
      exact hc.freed
  isSet {c} hc hset := by
    obtain ⟨count, heq⟩ := haccount c hc
    rw [heq]
    exact hset

lemma grows_withCount (b : Books C) (c : ChannelId) (count : ℕ) :
    b.Grows (b.set c ((b.account c).withCount count)) := by
  refine grows_of_account (Nat.le_refl _) (fun d _ => ?_) (fun _ _ => rfl) fun _ _ => rfl
  by_cases hd : d = c
  · rw [hd, account_set_self]
    exact ⟨count, rfl⟩
  · rw [account_set_of_ne _ _ hd]
    exact ⟨(b.account d).senderCount, rfl⟩

lemma grows_newChannel (b : Books C) (a : Account C) : b.Grows (b.newChannel a) := by
  refine grows_of_account (Nat.le_succ _) (fun d hd => ?_) (fun _ _ => rfl) fun _ _ => rfl
  refine ⟨(b.account d).senderCount, ?_⟩
  show Function.update b.account b.channels a d = b.account d
  rw [Function.update_of_ne (Nat.ne_of_lt hd)]

/-- What else is in the books is in no account. -/
lemma grows_of_same (haccount : b'.account = b.account) (hchannels : b'.channels = b.channels)
    (hreceiver : b'.receiver = b.receiver) (hfreed : b'.freed = b.freed) : b.Grows b' := by
  refine grows_of_account (Nat.le_of_eq hchannels.symm) (fun d _ => ?_) (fun d _ => ?_) fun d _ => ?_
  · exact ⟨(b.account d).senderCount, by rw [haccount]; rfl⟩
  · rw [hreceiver]
  · rw [hfreed]

lemma grows_of_eq (h : b' = b) : b.Grows b' := h ▸ .refl b

end Books

/-! ## What such a call does to the books -/

section Grows

variable {w w' : World C}

lemma grows_of_fixes {α : Type} {x : ChanM C α} {f : α → Output C} {out : Output C}
    (hx : Prog.Fixes World.books x) (h : (do let a ← x; pure (f a) : ChanM C _) w = .ok out w') :
    w.books.Grows w'.books :=
  Books.grows_of_eq ((fixes_bind hx fun _ => fixes_pure _).ok h)

lemma grows_of_tame {α : Type} {x : ChanM C α} {f : α → Output C} {out : Output C} (hx : Tame x)
    (hsound : Sound extra w) (h : (do let a ← x; pure (f a) : ChanM C _) w = .ok out w') :
    w.books.Grows w'.books := by
  obtain ⟨a, hrun, rfl⟩ := bind_pure_ok h
  exact (hx _ _ _ _ hsound hrun).2.grows

lemma grows_newRequest {msg : C.Parameters} {receivers : ℕ} {u : Unit}
    (h : newRequest msg receivers w = .ok u w') : w.books.Grows w'.books := by
  cases h
  have hbooks : World.books (C := C) _ = w.books.setPipelines w.requests [] :=
    books_modifyRequest w w.requests fun _ => .new msg receivers
  show w.books.Grows (World.books (w.modifyRequest w.requests fun _ => .new msg receivers))
  rw [hbooks]
  exact Books.grows_of_same rfl rfl rfl rfl

lemma grows_build {r : RequestId} {key : C.PipelineKey} {out : Option Sender}
    (h : build r key w = .ok out w') : w.books.Grows w'.books := by
  rcases build_cases h with ⟨-, -, rfl⟩ | ⟨-, ⟨c, -, -, -, hadd⟩ | ⟨-, hinsert⟩⟩
  · exact .refl _
  · rw [books_addSender hadd]
    exact Books.grows_withCount _ _ _
  · obtain ⟨w₁, hadd, -, rfl⟩ := build_insert_eq_ok hinsert
    have hbooks := (fixes_books (fixes_addReceiver r)).ok hadd
    rw [books_modifyRequest, books_addChannel, hbooks]
    exact (Books.grows_newChannel w.books (SharedChannel.account (.new (some r)))).trans
      (Books.grows_of_same rfl rfl rfl rfl)

/-- What a call of one lock at most does to the books. -/
lemma Call.grows {call : Call C} {out : Output C} (hatomic : call.Atomic) (hsound : Sound extra w)
    (h : call.exec w = .ok out w') : w.books.Grows w'.books := by
  have hcore : call.LeavesCore → Prog.Fixes World.core call.exec := fixes_exec
  cases call with
  | channel =>
    cases h
    refine Books.grows_of_account (Nat.le_succ _) (fun d hd => ?_) (fun d hd => ?_) fun _ _ => rfl
    · refine ⟨(w.books.account d).senderCount, ?_⟩
      exact congrArg SharedChannel.account (World.channel_addChannel_of_ne w _ (Nat.ne_of_lt hd))
    · exact Function.update_of_ne (Nat.ne_of_lt hd) ..
  | broken err =>
    cases h
    refine Books.grows_of_account (Nat.le_succ _) (fun d hd => ?_) (fun _ _ => rfl) fun _ _ => rfl
    refine ⟨(w.books.account d).senderCount, ?_⟩
    exact congrArg SharedChannel.account (World.channel_addChannel_of_ne w _ (Nat.ne_of_lt hd))
  | cloneSender s =>
    obtain ⟨self, w₁, -, hadd, rfl⟩ := exec_cloneSender_ok h
    have hadded : w.books.Grows w₁.books := by
      rw [books_addSender hadd]
      exact Books.grows_withCount _ _ _
    exact hadded.trans (Books.grows_of_same rfl rfl rfl rfl)
  | dropSender s =>
    obtain ⟨self, hs, hdrop⟩ := exec_dropSender_ok h
    have hreleased : Sound (plus extra self.shared)
        { w with senders := w.senders.set s ⟨self, false⟩ } :=
      Books.Sound.releaseSender hsound hs
    rw [books_removeSender hreleased.count_pos hdrop]
    have hset : w.books.Grows (World.books { w with senders := w.senders.set s ⟨self, false⟩ }) :=
      Books.grows_of_same rfl rfl rfl rfl
    exact hset.trans (Books.grows_withCount _ _ _)
  | pollClosed _ _ | dropRequest _ | respond _ | tailCall _ _ | dropResponder _
  | resultsSenderRespond _ _ | dropResultsSender _ | cloneTracker _ | dropTracker _ =>
    exact Books.grows_of_eq ((fixes_books (hcore trivial)).ok h)
  | pollRecv c waker => exact grows_of_fixes (fixes_books_pollRecv c waker) h
  | tryRecv c => exact grows_of_fixes (fixes_books_tryRecv c) h
  | requestResponse msg | requestPipeline msg | requestResponsePipeline msg =>
    cases h
    exact grows_newRequest rfl
  | responderRespond r resp => exact grows_of_tame (tame_responderRespond r resp) hsound h
  | setPipeline r dst => exact grows_of_tame (tame_setPipeline r dst) hsound h
  | build t key =>
    obtain ⟨r, -, ⟨hbuild, -⟩ | ⟨sender, w₁, hbuild, -, rfl⟩⟩ := exec_build_cases h
    · exact grows_build hbuild
    · exact (grows_build hbuild).trans (Books.grows_of_same rfl rfl rfl rfl)
  | _ => exact hatomic.elim

end Grows

/-! ## What such a call does to the channels -/

/-- The program does something else: the books grow, channels that are resolved stay what they are,
none is forwarded, and where nothing waits nothing does. -/
structure World.Steady (w w' : World C) : Prop where
  grows : w.books.Grows w'.books
  resolved : ∀ {c res}, w.tryResolved c = some res → w'.tryResolved c = some res
  next : w'.next = w.next
  queues : ∀ {c}, w.queues c = [] → w'.queues c = []

section Steady

variable {w w' : World C}

lemma steady_of_books (hbooks : w'.books = w.books)
    (hqueues : ∀ {c}, w.queues c = [] → w'.queues c = []) : w.Steady w' where
  grows := Books.grows_of_eq hbooks
  resolved h := by
    rw [tryResolved_of_books hbooks]
    exact h
  next := next_of_tryResolved (tryResolved_of_books hbooks)
  queues := hqueues

lemma steady_of_rests (h : w.Rests w') (hgrows : w.books.Grows w'.books) : w.Steady w' where
  grows := hgrows
  resolved hres := by
    rw [h.resolved]
    exact hres
  next := next_of_tryResolved h.resolved
  queues hc := by
    rw [h.queues]
    exact hc

/-- What is received was waiting. -/
lemma nil_of_received {item : LinkItem C} {rest : List (LinkItem C)} (hqueue : w.queues c = item :: rest)
    (hqueues : w'.queues = Function.update w.queues c rest) {d : ChannelId} (hd : w.queues d = []) :
    w'.queues d = [] := by
  have hne : d ≠ c := by
    rintro rfl
    rw [hd] at hqueue
    cases hqueue
  rw [hqueues, Function.update_of_ne hne, hd]

/-- A new channel that is broken is of no concern to the others. -/
lemma steady_of_broken {err : C.Error} (hgrows : w.books.Grows w'.books)
    (hchannel : w'.channel = (w.addChannel (.resolved (.error err))).channel)
    (hsound : Sound extra w) : w.Steady w' := by
  have hnew : w'.channel w.channels = .resolved (.error err) := by
    rw [hchannel, World.channel_addChannel_self]
  have hother : ∀ {d}, d ≠ w.channels → w'.channel d = w.channel d := fun hd => by
    rw [hchannel, World.channel_addChannel_of_ne w _ hd]
  have hfresh : w.tryResolved w.channels = none :=
    tryResolved_of_unresolved (hsound.fresh (Nat.le_refl _)).2.1
  refine ⟨hgrows, fun {d res} hres => ?_, ?_, fun {d} hd => ?_⟩
  · have hne : d ≠ w.channels := by
      rintro rfl
      rw [hfresh] at hres
      cases hres
    unfold World.tryResolved
    rw [hother hne]
    exact hres
  · funext d
    unfold World.next
    by_cases hd : d = w.channels
    · rw [hd, hfresh]
      unfold World.tryResolved
      rw [hnew]
      rfl
    · unfold World.tryResolved
      rw [hother hd]
  · unfold World.queues
    by_cases hne : d = w.channels
    · rw [hne, hnew]
      rfl
    · rw [hother hne]
      exact hd

/-- **What such a call does.** -/
theorem Call.steady {call : Call C} {out : Output C} (hatomic : call.Atomic) (hsound : Sound extra w)
    (hfresh : w.queues w.channels = []) (h : call.exec w = .ok out w') : w.Steady w' := by
  have hquiet : call.Quiet → w.Steady w' := fun hquiet =>
    steady_of_rests (Call.rests hquiet hsound hfresh h) (Call.grows hatomic hsound h)
  cases call with
  | broken err =>
    have hgrows := Call.grows hatomic hsound h
    cases h
    exact steady_of_broken hgrows rfl hsound
  | pollRecv c waker =>
    obtain ⟨result, w₁, hpoll, hpure⟩ := bind_eq_ok.1 h
    cases hpure
    refine steady_of_books ((fixes_books_pollRecv c waker).ok hpoll) fun {d} hd => ?_
    rcases pollRecv_queues hpoll with ⟨hqueues, -⟩ | ⟨item, rest, -, hqueue, hqueues⟩
    · rw [hqueues, hd]
    · exact nil_of_received hqueue hqueues hd
  | tryRecv c =>
    obtain ⟨result, hrecv, rfl⟩ := bind_pure_ok h
    refine steady_of_books ((fixes_books_tryRecv c).ok hrecv) fun {d} hd => ?_
    rcases tryRecv_queues hrecv with ⟨hqueues, -⟩ | ⟨item, rest, -, hqueue, hqueues⟩
    · rw [hqueues, hd]
    · exact nil_of_received hqueue hqueues hd
  | send s req | sendEvent s event | forwardTo c other | close c err | dropReceiver c =>
    exact hatomic.elim
  | _ => exact hquiet trivial

end Steady

end Recapn.Channel

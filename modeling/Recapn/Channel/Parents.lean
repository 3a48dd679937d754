/-
# The parents of requests

A request has a parent as long as it waits in a queue: the channel that it was sent into, which
leads along the forwards to the channel in whose queue it is.  Whoever takes a request out of a
queue takes its parent away, but `Receiver::try_recv` does not, and when that request is sent again
the debug assertion of `set_parent` fails.
-/
import Recapn.Channel.Hands
import Recapn.Channel.Races
import Recapn.Channel.Rebuild

namespace Recapn.Channel

open Recapn.Lib Recapn.Lib.Prog

variable {C : Chan} {c d : ChannelId} {r : RequestId}

/-! ## Queues and parents -/

/-- A request has a parent exactly when it waits, and the parent leads to where it waits. -/
structure Linked (w : World C) : Prop where
  linked : ∀ {r p}, (w.ledger.entry r).parent = some p →
    ∃ c, Leads w.next p c ∧ .request r ∈ w.queues c
  parent : ∀ {r c}, .request r ∈ w.queues c →
    ∃ p, (w.ledger.entry r).parent = some p ∧ Leads w.next p c

section Linked

variable {w w' : World C} {hands : RequestId → ℕ} {item : LinkItem C} {rest : List (LinkItem C)}

/-- Nothing of the parents, the queues and the forwards changes. -/
lemma Linked.congr (h : Linked w)
    (hparent : ∀ r, (w'.ledger.entry r).parent = (w.ledger.entry r).parent)
    (hqueues : w'.queues = w.queues) (hnext : w'.next = w.next) : Linked w' := by
  refine ⟨fun {r p} hp => ?_, fun {r c} hr => ?_⟩
  · rw [hqueues, hnext]
    exact h.linked (hparent r ▸ hp)
  · rw [hqueues] at hr
    rw [hparent, hnext]
    exact h.parent hr

lemma Linked.of_ledger (h : Linked w) (hledger : w'.ledger = w.ledger)
    (hqueues : w'.queues = w.queues) (hnext : w'.next = w.next) : Linked w' :=
  h.congr (fun r => by rw [hledger]) hqueues hnext

/-- A request that waits nowhere has no parent. -/
lemma Linked.parent_eq_none (h : Linked w) (hplaced : Placed hands w)
    (hr : w.timesQueued r = 0) : (w.ledger.entry r).parent = none := by
  rcases hparent : (w.ledger.entry r).parent with _ | p
  · rfl
  · obtain ⟨c, -, hmem⟩ := h.linked hparent
    have hc : c < w.channels := by
      by_contra hge
      rw [hplaced.fresh (Nat.not_lt.1 hge)] at hmem
      cases hmem
    have hpos := timesQueued_pos hc hmem
    omega

/-- A request that the program owns has no parent. -/
lemma Linked.parent_of_owner (h : Linked w) (hplaced : Placed hands w)
    (howner : (w.ledger.entry r).owner ≠ .channel) : (w.ledger.entry r).parent = none :=
  h.parent_eq_none hplaced (hplaced.timesQueued_eq_zero howner)

/-- The first item of a queue is taken, and its parent with it. -/
lemma Linked.receive (h : Linked w) (hplaced : Placed hands w) (hc : c < w.channels)
    (hqueue : w.queues c = item :: rest) (hqueues : w'.queues = Function.update w.queues c rest)
    (hchannels : w'.channels = w.channels) (hnext : w'.next = w.next)
    (hself : ∀ r, item = .request r → (w'.ledger.entry r).parent = none)
    (hother : ∀ r, item ≠ .request r →
      (w'.ledger.entry r).parent = (w.ledger.entry r).parent) : Linked w' := by
  have hsub : ∀ {r d}, .request r ∈ w'.queues d → .request r ∈ w.queues d := by
    intro r d hmem
    rw [hqueues] at hmem
    by_cases hd : d = c
    · rw [hd, Function.update_self] at hmem
      rw [hd, hqueue]
      exact List.mem_cons_of_mem _ hmem
    · rwa [Function.update_of_ne hd] at hmem
  -- a request waits once
  have honce : ∀ {r d}, .request r ∈ w'.queues d → item ≠ .request r := by
    rintro r d hmem rfl
    have hd : d < w'.channels := by
      by_contra hge
      have hold := hsub hmem
      rw [hplaced.fresh (hchannels ▸ Nat.not_lt.1 hge)] at hold
      cases hold
    have hupdate := timesQueued_update hc hchannels hqueues r
    have hpos := timesQueued_pos hd hmem
    have hone := (hplaced.entry r).once
    rw [hqueue, List.countP_cons_of_pos (LinkItem.isRequest_self r)] at hupdate
    omega
  refine ⟨fun {r p} hp => ?_, fun {r d} hmem => ?_⟩
  · have hne : item ≠ .request r := by
      intro heq
      rw [hself r heq] at hp
      cases hp
    rw [hother r hne] at hp
    obtain ⟨d, hleads, hmem⟩ := h.linked hp
    refine ⟨d, hnext ▸ hleads, ?_⟩
    rw [hqueues]
    by_cases hd : d = c
    · rw [hd, hqueue] at hmem
      rw [hd, Function.update_self]
      exact (List.mem_cons.1 hmem).resolve_left (Ne.symm hne)
    · rwa [Function.update_of_ne hd]
  · obtain ⟨p, hp, hleads⟩ := h.parent (hsub hmem)
    exact ⟨p, (hother r (honce hmem)).trans hp, hnext ▸ hleads⟩

/-- An item is put at the end of the queue of a channel, and a request gets it as its parent. -/
lemma Linked.push (h : Linked w) (hqueues : w'.queues = Function.update w.queues c (w.queues c ++ [item]))
    (hnext : w'.next = w.next) (hc : w.next c = none)
    (hself : ∀ r, item = .request r →
      (w.ledger.entry r).parent = none ∧ (w'.ledger.entry r).parent = some c)
    (hother : ∀ r, item ≠ .request r →
      (w'.ledger.entry r).parent = (w.ledger.entry r).parent) : Linked w' := by
  have hmem_iff : ∀ {r d}, .request r ∈ w'.queues d ↔
      .request r ∈ w.queues d ∨ (d = c ∧ item = .request r) := by
    intro r d
    rw [hqueues]
    by_cases hd : d = c
    · rw [hd, Function.update_self, List.mem_append, List.mem_singleton]
      exact or_congr_right ⟨fun heq => ⟨rfl, heq.symm⟩, fun heq => heq.2.symm⟩
    · rw [Function.update_of_ne hd]
      exact ⟨Or.inl, fun hor => hor.resolve_right fun heq => hd heq.1⟩
  refine ⟨fun {r p} hp => ?_, fun {r d} hmem => ?_⟩
  · by_cases hitem : item = .request r
    · rw [(hself r hitem).2, Option.some.injEq] at hp
      subst hp
      exact ⟨c, .refl (hnext ▸ hc), hmem_iff.2 (Or.inr ⟨rfl, hitem⟩)⟩
    · rw [hother r hitem] at hp
      obtain ⟨d, hleads, hmem⟩ := h.linked hp
      exact ⟨d, hnext ▸ hleads, hmem_iff.2 (Or.inl hmem)⟩
  · by_cases hitem : item = .request r
    · refine ⟨c, (hself r hitem).2, ?_⟩
      rcases hmem_iff.1 hmem with hold | ⟨rfl, -⟩
      · -- it had no parent, and so it did not wait before
        obtain ⟨p, hp, -⟩ := h.parent hold
        rw [(hself r hitem).1] at hp
        cases hp
      · exact .refl (hnext ▸ hc)
    · rcases hmem_iff.1 hmem with hold | ⟨-, heq⟩
      · obtain ⟨p, hp, hleads⟩ := h.parent hold
        exact ⟨p, (hother r hitem).trans hp, hnext ▸ hleads⟩
      · exact absurd heq hitem

/-- The queue of a channel is handed on to the one that it forwards to. -/
lemma Linked.handOn (h : Linked w) (hc : w.next c = none) (hd : w.next d = none) (hne : d ≠ c)
    (hledger : w'.ledger = w.ledger)
    (hqueues : w'.queues
      = Function.update (Function.update w.queues d (w.queues d ++ w.queues c)) c [])
    (hnext : w'.next = Function.update w.next c (some d)) : Linked w' := by
  have hleads : ∀ {p e}, Leads w.next p e → e ≠ c → Leads w'.next p e := fun hp he =>
    hnext ▸ hp.update_of_ne hc he
  have hleads_c : ∀ {p}, Leads w.next p c → Leads w'.next p d := fun hp =>
    hnext ▸ hp.update_of_eq (.refl hd) hne
  refine ⟨fun {r p} hp => ?_, fun {r e} hmem => ?_⟩
  · rw [hledger] at hp
    obtain ⟨e, hpe, hmem⟩ := h.linked hp
    by_cases hec : e = c
    · subst hec
      refine ⟨d, hleads_c hpe, ?_⟩
      rw [hqueues, Function.update_of_ne hne, Function.update_self]
      exact List.mem_append_right _ hmem
    · refine ⟨e, hleads hpe hec, ?_⟩
      rw [hqueues, Function.update_of_ne hec]
      by_cases hed : e = d
      · rw [hed] at hmem ⊢
        rw [Function.update_self]
        exact List.mem_append_left _ hmem
      · rwa [Function.update_of_ne hed]
  · rw [hledger]
    have hec : e ≠ c := by
      rintro rfl
      rw [hqueues, Function.update_self] at hmem
      cases hmem
    rw [hqueues, Function.update_of_ne hec] at hmem
    by_cases hed : e = d
    · rw [hed, Function.update_self] at hmem
      rw [hed]
      rcases List.mem_append.1 hmem with hmem | hmem
      · obtain ⟨p, hp, hpd⟩ := h.parent hmem
        exact ⟨p, hp, hleads hpd hne⟩
      · obtain ⟨p, hp, hpc⟩ := h.parent hmem
        exact ⟨p, hp, hleads_c hpc⟩
    · rw [Function.update_of_ne hed] at hmem
      obtain ⟨p, hp, hpe⟩ := h.parent hmem
      exact ⟨p, hp, hleads hpe hec⟩

end Linked

/-! ## What the functions do to the links -/

section Functions

variable {w w' : World C} {hands : RequestId → ℕ} {u : Unit} {item : LinkItem C}

lemma next_of_books (h : w'.books = w.books) : w'.next = w.next :=
  next_of_tryResolved (tryResolved_of_books h)

/-- A request without a parent is sent: it gets one, or is dropped and has none still. -/
lemma sendLocked_linked (h : Linked w) (hparent : (w.ledger.entry r).parent = none)
    (hnone : w.next c = none) (hsend : sendLocked c c r w = .ok u w') : Linked w' := by
  have hledger := sendLocked_ledger hsend
  have hqueues := sendLocked_queues hsend
  have hnext := next_of_books ((fixes_books_sendLocked c c r).ok hsend)
  by_cases hfin : (w.request r).isFinished = true
  · rw [if_pos hfin] at hledger hqueues
    refine h.congr (fun r' => ?_) hqueues hnext
    rw [hledger]
    by_cases hr : r' = r
    · rw [hr, entry_set_self, hparent]
    · rw [entry_set_of_ne _ _ hr]
  · rw [if_neg hfin] at hledger hqueues
    refine h.push hqueues hnext hnone (fun r' hitem => ?_) fun r' hitem => ?_
    · cases hitem
      refine ⟨hparent, ?_⟩
      rw [hledger, entry_set_self]
    · have hr : r' ≠ r := by
        rintro rfl
        exact hitem rfl
      rw [hledger, entry_set_of_ne _ _ hr]

lemma sendEventLocked_linked {event : C.Event} (h : Linked w) (hnone : w.next c = none)
    (hsend : sendEventLocked c event w = .ok u w') : Linked w' := by
  have hledger := ((writes_sendEventLocked c event).ledger (by decide)).ok hsend
  refine h.push (sendEventLocked_queues hsend)
    (next_of_books ((fixes_books_sendEventLocked c event).ok hsend)) hnone (fun r hitem => ?_)
    fun r _ => ?_
  · cases hitem
  · rw [hledger]

/-- A receiver that is dropped forwards nothing. -/
lemma next_dropReceiver (hdrop : dropReceiver c w = .ok u w') : w'.next = w.next := by
  have hbooks := books_dropReceiver hdrop
  refine next_congr fun d => ?_
  by_cases hset : (w.channel c).state.isSet = true
  · rw [hbooks, if_pos hset]
  · rw [hbooks, if_neg hset]
    unfold Books.closeReceiver
    by_cases hd : d = c
    · have hunset : (w.books.account c).isSet = false := Bool.eq_false_iff.2 hset
      rw [hd, Books.account_set_self]
      unfold Account.held
      simp only [hunset]
    · rw [Books.account_set_of_ne _ _ hd]

lemma dropReceiver_linked (h : Linked w) (hdrop : dropReceiver c w = .ok u w') : Linked w' :=
  h.of_ledger (((writes_dropReceiver c).ledger (by decide)).ok hdrop)
    ((fixes_queues_dropReceiver c).ok hdrop) (next_dropReceiver hdrop)

lemma closeLocked_linked {extra : ChannelId → ℕ} {err : C.Error} (hsound : Sound extra w)
    (hloose : w.books.Loose c) (h : Linked w) (hclose : closeLocked c err w = .ok u w') :
    Linked w' := by
  obtain ⟨hbooks, hqueues⟩ := closeLocked_books hsound hclose
  exact h.of_ledger (((writes_closeLocked c err).ledger (by decide)).ok hclose) hqueues
    (next_of_set hloose rfl hbooks)

/-- What is taken out of a queue loses its parent. -/
lemma Takes.linked {rest : List (LinkItem C)} (h : Takes c item rest w w') (hlinked : Linked w)
    (hplaced : Placed hands w) (hc : c < w.channels) : Linked w' := by
  refine hlinked.receive hplaced hc h.queue h.queues (congrArg Books.channels h.books)
    (next_of_books h.books) (fun r hitem => ?_) fun r hitem => ?_
  · rw [h.ledger, hitem]
    exact congrArg Entry.parent (entry_set_self _ _ _)
  · rw [h.ledger, amend_entry_of_ne _ _ hitem]

lemma pollRecv_linked {waker : Waker} {out : Poll (Option (LinkItem C))} (h : Linked w)
    (hplaced : Placed hands w) (hc : c < w.channels) (hpoll : pollRecv c waker w = .ok out w') :
    Linked w' := by
  have hnext := next_of_books ((fixes_books_pollRecv c waker).ok hpoll)
  rcases pollRecv_cases hpoll with ⟨-, rfl⟩ | ⟨-, rfl⟩ | ⟨item, rest, -, htakes⟩
  · exact h
  · obtain ⟨hledger, hqueues⟩ := setWaker_same w c waker
    exact h.of_ledger hledger hqueues hnext
  · exact htakes.linked h hplaced hc

/-- Only an event comes out of the queue, or nothing. -/
lemma tryRecv_linked {out : Option (LinkItem C)} (h : Linked w) (hplaced : Placed hands w)
    (hc : c < w.channels) (hfirst : ∀ r rest, w.queues c ≠ .request r :: rest)
    (hrecv : tryRecv c w = .ok out w') : Linked w' := by
  have hbooks := (fixes_books_tryRecv c).ok hrecv
  obtain ⟨link, w₁, hpop, hrest⟩ := bind_eq_ok.1 hrecv
  rcases popFront_ok hpop with ⟨rfl, rfl, -⟩ | ⟨item, rest, rfl, hqueue, hqueues⟩
  · cases hrest
    exact h
  · obtain ⟨_, hinto, rfl⟩ := bind_pure_ok hrest
    rcases item with r | event
    · exact absurd hqueue (hfirst r rest)
    · cases hinto
      have hledger := ((writes_popFront c).ledger (by decide)).ok hpop
      refine h.receive hplaced hc hqueue hqueues (congrArg Books.channels hbooks)
        (next_of_books hbooks) (fun r hitem => ?_) fun r _ => ?_
      · cases hitem
      · rw [hledger]

/-- A batch is taken out of a queue item by item. -/
lemma closeBatch_linked {room : ℕ} {items : List (LinkItem C)} (h : Linked w)
    (hplaced : Placed hands w) (hc : c < w.channels) (hbatch : closeBatch c room w = .ok items w') :
    Linked w' := by
  induction room generalizing w hands items with
  | zero =>
    cases hbatch
    exact h
  | succ room ih =>
    rcases closeBatch_succ hbatch with ⟨rfl, rfl, -⟩ | ⟨item, rest, w₁, items', rfl, htakes, hmore⟩
    · exact h
    · have hchannels : w₁.channels = w.channels := congrArg Books.channels htakes.books
      exact ih (htakes.linked h hplaced hc) (htakes.placed hplaced hc) (hchannels ▸ hc) hmore

/-- Who answers a request leaves the parents as they are. -/
lemma respondWithErr_linked {err : C.Error} (h : Linked w)
    (hrespond : item.respondWithErr err w = .ok u w') : Linked w' := by
  have hroutes := (fixes_routes_respondWithErr err item).ok hrespond
  refine h.congr (fun r => ?_) (congrArg Routes.queues hroutes)
    (next_of_tryResolved (congrArg Routes.resolved hroutes))
  rw [respondWithErr_ledger hrespond]
  by_cases hitem : item = .request r
  · rw [hitem]
    show ((w.ledger.set r _).entry r).parent = _
    rw [entry_set_self]
  · rw [amend_entry_of_ne _ _ hitem]

lemma respondAll_linked {err : C.Error} {items : List (LinkItem C)} (h : Linked w)
    (hrespond : respondAll err items w = .ok u w') : Linked w' := by
  induction items generalizing w with
  | nil =>
    cases hrespond
    exact h
  | cons item items ih =>
    obtain ⟨_, w₁, hitem, hrest⟩ := bind_eq_ok.1 hrespond
    exact ih (respondWithErr_linked h hitem) hrest

lemma closeLoop_linked {err : C.Error} {rounds : ℕ} (h : Linked w) (hplaced : Placed hands w)
    (hc : c < w.channels) (hloop : closeLoop c err rounds w = .ok u w') : Linked w' := by
  induction rounds generalizing w with
  | zero => cases hloop
  | succ rounds ih =>
    obtain ⟨items, w₁, hbatch, hrest⟩ := bind_eq_ok.1 hloop
    obtain ⟨_, w₂, hrespond, hrest'⟩ := bind_eq_ok.1 hrest
    have hchannels₁ : w₁.channels = w.channels :=
      congrArg Books.channels ((fixes_books_closeBatch c batchSize).ok hbatch)
    have hchannels₂ : w₂.channels = w₁.channels :=
      congrArg Routes.channels ((fixes_routes_respondAll err _).ok hrespond)
    have hlinked₂ := respondAll_linked (closeBatch_linked h hplaced hc hbatch) hrespond
    have hplaced₂ : Placed hands w₂ := by
      refine respondAll_placed ?_ hrespond
      rw [timesIn_reverse]
      exact closeBatch_placed hplaced hc hbatch
    rcases ite_eq_ok.1 hrest' with ⟨-, hpure⟩ | ⟨-, hloop'⟩
    · cases hpure
      exact hlinked₂
    · exact ih hlinked₂ hplaced₂ (hchannels₂.trans hchannels₁ ▸ hc) hloop'

lemma close_linked {extra : ChannelId → ℕ} {err : C.Error} (hsound : Sound extra w)
    (hloose : w.books.Loose c) (h : Linked w) (hplaced : Placed hands w)
    (hclose : close c err w = .ok u w') : Linked w' := by
  obtain ⟨_, w₁, hlocked, hrest⟩ := bind_eq_ok.1 hclose
  have hrest' := of_bind rfl hrest
  obtain ⟨_, w₂, hloop, hdrop⟩ := bind_eq_ok.1 hrest'
  have hchannels₁ : w₁.channels = w.channels :=
    congrArg Books.channels (closeLocked_books hsound hlocked).1
  have hlinked₁ := closeLocked_linked hsound hloose h hlocked
  have hplaced₁ := closeLocked_placed hsound hplaced hlocked
  exact dropReceiver_linked (closeLoop_linked hlinked₁ hplaced₁ (hchannels₁ ▸ hloose.lt) hloop) hdrop

/-- The parents are not touched when a queue is handed on. -/
lemma forwardTo_linked {extra : ChannelId → ℕ} {self : ChannelId} {other : Sender} {done : Bool}
    (hsound : Sound extra w) (hloose : w.books.Loose self) (h : Linked w)
    (hplaced : Placed hands w) (hforward : forwardTo self other w = .ok done w') : Linked w' := by
  obtain ⟨r, hleads, ⟨-, rfl, -⟩ | ⟨-, res, -, hended⟩ | ⟨-, hne, hnone, hlocked⟩⟩ :=
    forwardTo_cases hforward
  · exact h
  · rcases res with _ | err
    · exact dropReceiver_linked h hended
    · exact close_linked hsound hloose h hplaced hended
  · have hself : w.next self = none := by
      rcases hnext : w.next self with _ | d
      · rfl
      · rw [next_eq_some_iff, hloose.unresolved.held] at hnext
        cases hnext
    exact h.handOn hself (w.next_of_none hnone) hne
      (((writes_forwardLocked self r r).ledger (by decide)).ok hlocked)
      (forwardLocked_ok hsound hlocked).2
      (next_of_forwarded (forwardLocked_routes hsound hlocked).2.2)

end Functions

/-! ## Calls -/

section Calls

variable {w w' : World C} {hands : RequestId → ℕ} {extra : ChannelId → ℕ} {out : Output C}

/-- A quiet call that leaves the parents as they are. -/
lemma Linked.of_quiet {call : Call C} (h : Linked w) (hsound : Sound extra w)
    (hplaced : Placed hands w) (hexec : call.exec w = .ok out w') (hquiet : call.Quiet)
    (hparent : ∀ r, (w'.ledger.entry r).parent = (w.ledger.entry r).parent) : Linked w' := by
  have hrests := Call.rests hquiet hsound (hplaced.fresh (Nat.le_refl _)) hexec
  exact h.congr hparent hrests.queues (next_of_tryResolved hrests.resolved)

lemma Linked.of_leaves {call : Call C} (h : Linked w) (hsound : Sound extra w)
    (hplaced : Placed hands w) (hexec : call.exec w = .ok out w') (hquiet : call.Quiet)
    (hleaves : call.LeavesLedger) : Linked w' :=
  h.of_quiet hsound hplaced hexec hquiet fun r => by rw [(fixes_ledger_exec hleaves).ok hexec]

lemma Call.entryAfter_parent (call : Call C) (e : Entry C) :
    (call.entryAfter e).parent = e.parent := by
  cases call <;> rfl

/-- A call about a request that the program owns. -/
lemma Linked.subject {call : Call C} {owner : Owner} (h : Linked w) (hsound : Sound extra w)
    (hplaced : Placed hands w) (hsubject : call.subject = some (r, owner))
    (howner : (w.ledger.entry r).owner = owner) (hexec : call.exec w = .ok out w')
    (hquiet : call.Quiet) : Linked w' := by
  have hsome := (Call.subject_owner hsubject).1
  rw [← howner] at hsome
  have hledger := (Call.subject_ledger hsubject ((hplaced.entry r).owned hsome) hexec).1
  refine h.of_quiet hsound hplaced hexec hquiet fun r' => ?_
  rw [hledger]
  by_cases hr : r' = r
  · rw [hr, entry_set_self, Call.entryAfter_parent]
  · rw [entry_set_of_ne _ _ hr]

/-- A new request has no parent. -/
lemma Linked.newRequest {call : Call C} {msg : C.Parameters} {receivers : ℕ} {u : Unit}
    (h : Linked w) (hsound : Sound extra w) (hplaced : Placed hands w)
    (hexec : call.exec w = .ok out w') (hquiet : call.Quiet) (hnew : newRequest msg receivers w = .ok u w') :
    Linked w' := by
  refine h.of_quiet hsound hplaced hexec hquiet fun r => ?_
  cases hnew
  by_cases hr : r = w.requests
  · -- it is later than all that wait
    have hqueued : w.timesQueued r = 0 := by
      by_contra hne
      have hpos : 0 < w.timesQueued r := Nat.pos_of_ne_zero hne
      have hlt : r < w.requests := hplaced.lt (Or.inl (Nat.add_pos_left hpos _))
      exact Nat.ne_of_lt hlt hr
    rw [h.parent_eq_none hplaced hqueued, hr]
    show (Function.update w.request w.requests (.new msg receivers) w.requests).parent = none
    rw [Function.update_self]
    rfl
  · exact congrArg (fun req : SharedRequest C => req.parent) (Function.update_of_ne hr _ _)

/-- The call takes no request out of a queue with `try_recv`. -/
def Call.TriesNoRequest (w : World C) : Call C → Prop
  | tryRecv c => ∀ r rest, w.queues c ≠ .request r :: rest
  | _ => True

/-- **The parents lead to where the requests wait**, after every call that does not take a request
out of a queue with `try_recv`. -/
theorem Call.exec_linked {call : Call C} (hallowed : call.Allowed w) (hsound : Sound extra w)
    (hplaced : Placed hands w) (htries : call.TriesNoRequest w) (h : Linked w)
    (hexec : call.exec w = .ok out w') : Linked w' := by
  have hlt : ∀ {c}, w.receiver c = true → c < w.channels := fun hc =>
    (Books.Sound.loose hsound hc).lt
  have hsoundHeld : ∀ c, Sound extra { w with receiver := Function.update w.receiver c false } :=
    fun c => Books.Sound.takeReceiver hsound c
  have hheld : ∀ c, Linked { w with receiver := Function.update w.receiver c false } :=
    fun c => h.of_ledger rfl rfl rfl
  have hplacedHeld : ∀ c, Placed hands { w with receiver := Function.update w.receiver c false } :=
    fun c => hplaced.rest rfl rfl (Nat.le_refl _)
  cases call with
  | channel | cloneSender _ | dropSender _ | resolveInPlace _ | pollClosed _ _ | cloneTracker _
  | dropTracker _ | build _ _ | freeChannel _ =>
    exact h.of_leaves hsound hplaced hexec trivial trivial
  | dropRequest r | respond r | responderRespond r _ | tailCall r _ | setPipeline r _ | dropResponder r
  | resultsSenderRespond r _ | dropResultsSender r =>
    exact h.subject hsound hplaced rfl hallowed hexec trivial
  | requestResponse msg | requestPipeline msg | requestResponsePipeline msg =>
    obtain ⟨_, w₁, hnew, hpure⟩ := bind_eq_ok.1 hexec
    cases hpure
    exact h.newRequest hsound hplaced hexec trivial hnew
  | freeRequest r =>
    refine h.of_quiet hsound hplaced hexec trivial fun r' => ?_
    cases hexec
    rw [ledger_modifyRequest]
    by_cases hr : r' = r
    · -- nobody owns it, and so it does not wait
      have howner : (w.ledger.entry r).owner = .none := by
        by_contra hne
        exact hallowed.2 (Or.inl hne)
      rw [hr, entry_set_self, h.parent_of_owner hplaced (by rw [howner]; exact nofun)]
      rfl
    · rw [entry_set_of_ne _ _ hr]
  | broken err =>
    have hatomic : (Call.broken err).Atomic := trivial
    have hnext := (Call.steady hatomic hsound (hplaced.fresh (Nat.le_refl _)) hexec).next
    cases hexec
    refine h.of_ledger rfl ?_ hnext
    funext d
    show ((w.addChannel (.resolved (.error err))).channel d).requests = (w.channel d).requests
    by_cases hd : d = w.channels
    · rw [hd, World.channel_addChannel_self]
      exact (hplaced.fresh (Nat.le_refl _)).symm
    · rw [World.channel_addChannel_of_ne w _ hd]
  | send s req =>
    obtain ⟨self, -, ⟨-, -, rfl⟩ | ⟨channel, -, hnone, -, hlink⟩⟩ := exec_send_cases hexec
    · exact h
    · have howner : (w.ledger.entry req).owner = .request := hallowed
      have hparent := h.parent_of_owner hplaced (r := req) (by rw [howner]; exact nofun)
      exact sendLocked_linked h hparent (w.next_of_none hnone) hlink
  | sendEvent s event =>
    obtain ⟨self, -, ⟨-, -, rfl⟩ | ⟨channel, -, hnone, -, hlink⟩⟩ := exec_sendEvent_cases hexec
    · exact h
    · exact sendEventLocked_linked h (w.next_of_none hnone) hlink
  | forwardTo c other =>
    obtain ⟨sender, done, w₁, -, hforward, -, rfl⟩ := exec_forwardTo_ok hexec
    exact (forwardTo_linked (hsoundHeld c) (Books.Sound.loose hsound hallowed)
      (hheld c) (hplacedHeld c) hforward).of_ledger rfl rfl rfl
  | pollRecv c waker =>
    obtain ⟨result, w₁, hpoll, hpure⟩ := bind_eq_ok.1 hexec
    cases hpure
    exact pollRecv_linked h hplaced (hlt hallowed) hpoll
  | tryRecv c =>
    obtain ⟨item, hrecv, rfl⟩ := bind_pure_ok hexec
    exact tryRecv_linked h hplaced (hlt hallowed) htries hrecv
  | close c err =>
    exact close_linked (hsoundHeld c) (Books.Sound.loose hsound hallowed) (hheld c)
      (hplacedHeld c) (exec_close_ok hexec)
  | dropReceiver c => exact dropReceiver_linked (hheld c) (exec_dropReceiver_ok hexec)

end Calls

/-! ## The assertion of `set_parent` -/

namespace Debug

/-- `SharedRequest::set_parent`, with its debug assertion. -/
def setParent (r : RequestId) (parent : ChannelId) : ChanM C Unit := do
  let req ← getRequest r
  if req.parent = none then SharedRequest.setParent r parent
  else Prog.halt .panic

/-- `Sender::send`, from where it has the lock of `channel` on, with the assertion. -/
def sendLocked (this channel : ChannelId) (req : RequestId) : ChanM C Unit := do
  setOwner req .channel
  pushBack channel (.request req)
  setParent req this
  let reqShared ← getRequest req
  if reqShared.isFinished then do
    let last ← popBack channel
    let last ← Prog.unwrap last
    last.intoItem
    last.drop
    let _ ← SharedRequest.takeParent req
    pure ()
  else do
    let waker ← takeWaker channel
    wake waker

/-- `Sender::send`, with the assertion. -/
def send (self : Sender) (req : RequestId) : ChanM C (Except (Option C.Error) Unit) := do
  let locked ← resolveAndLock self.shared
  match locked with
  | .error .dropped => pure (.error none)
  | .error (.error err) => pure (.error (some err))
  | .ok (this, channel) => do
    sendLocked this channel req
    pure (.ok ())

end Debug

section Debug

variable {w : World C} {hands : RequestId → ℕ}

lemma debug_setParent (h : (w.request r).parent = none) (parent : ChannelId) :
    Debug.setParent r parent w = SharedRequest.setParent r parent w := by
  unfold Debug.setParent
  rw [bind_of_ok (show getRequest r w = .ok (w.request r) w from rfl), if_pos_apply h]

/-- The assertion holds of a request without a parent. -/
lemma debug_sendLocked (h : (w.request r).parent = none) (this channel : ChannelId) :
    Debug.sendLocked this channel r w = sendLocked this channel r w := by
  unfold Debug.sendLocked Channel.sendLocked
  have howner : setOwner r .channel w = .ok () (w.modifyRequest r fun req =>
      { req with owner := .channel }) := rfl
  rw [bind_of_ok howner, bind_of_ok howner]
  set w₁ := w.modifyRequest r fun req => { req with owner := .channel }
  have hpush : pushBack channel (.request r) w₁ = .ok () (w₁.modifyChannel channel fun ch =>
      { ch with requests := ch.requests ++ [.request r] }) := rfl
  rw [bind_of_ok hpush, bind_of_ok hpush]
  set w₂ := w₁.modifyChannel channel fun ch => { ch with requests := ch.requests ++ [.request r] }
  have hparent : (w₂.request r).parent = none := by
    show (w₁.request r).parent = none
    rw [World.request_modifyRequest_self]
    exact h
  rw [bind_apply, bind_apply, debug_setParent hparent]

lemma debug_send (h : (w.request r).parent = none) (self : Sender) :
    Debug.send self r w = send self r w := by
  unfold Debug.send Channel.send
  rcases hlocked : (resolveAndLock self.shared : ChanM C _) w with ⟨locked, w₁⟩ | ⟨e, w₁⟩ | reason
  · rw [bind_of_ok hlocked, bind_of_ok hlocked]
    have hworld : w₁ = w := by
      have hfixes : Prog.Fixes id (resolveAndLock self.shared : ChanM C _) := fixes_resolveAndLock _
      exact hfixes.ok hlocked
    subst hworld
    rcases locked with (_ | err) | ⟨this, channel⟩
    · rfl
    · rfl
    · show (Debug.sendLocked this channel r >>= _) w₁ = (sendLocked this channel r >>= _) w₁
      rw [bind_apply, bind_apply, debug_sendLocked h]
  · cases e
  · rw [bind_of_halt hlocked, bind_of_halt hlocked]

/-- With every sender that the program holds it can send every request that it owns: the assertion
does not fail. -/
def World.Sendable (w : World C) : Prop :=
  ∀ {s self r}, w.sender s = some self → (w.request r).owner = .request →
    Debug.send self r w = send self r w

lemma Linked.sendable (h : Linked w) (hplaced : Placed hands w) : w.Sendable := by
  intro s self r _ howner
  refine debug_send (h.parent_of_owner hplaced (r := r) ?_) self
  rw [show (w.ledger.entry r).owner = .request from howner]
  exact nofun

end Debug

/-! ## Runs -/

/-- **The parents lead to where the requests wait**, when no call of a run takes a request out of a
queue with `try_recv`. -/
theorem Run.linked {steps : List (Step C)} {w : World C} (h : Run steps w)
    (htries : ∀ step ∈ steps, step.call.TriesNoRequest step.before) : Linked w := by
  induction h with
  | empty => exact ⟨nofun, nofun⟩
  | @step steps step h hruns ih =>
    have hbefore := ih fun step' hmem => htries step' (List.mem_append_left _ hmem)
    exact Call.exec_linked hruns.1 h.sound h.placed
      (htries step (List.mem_append_right _ List.mem_cons_self)) hbefore hruns.2

namespace Machine

variable {address : ChannelId → ℕ} {m m' : Machine C} {t : ThreadId}

/-- The step is no call of `try_recv` that takes a request out of a queue. -/
def Move.TriesNoRequest (move : Move C) : Prop :=
  ∀ {c r rest}, move.before.world.queues c = .request r :: rest →
    ¬ ∃ out w, move.before.thread move.thread = .idle ∧
      (Call.tryRecv c).exec move.before.world = .ok out w ∧ move.after = move.before.withWorld w

lemma intoItem_linked {w w' : World C} {item : LinkItem C} {u : Unit} (h : Linked w)
    (hinto : item.intoItem w = .ok u w') : Linked w' := by
  refine h.congr (fun r => ?_) ((fixes_queues (fixes_intoItem item)).ok hinto)
    (next_of_books ((fixes_books (fixes_intoItem item)).ok hinto))
  rw [intoItem_ledger hinto]
  by_cases hitem : item = .request r
  · rw [hitem]
    show ((w.ledger.set r _).entry r).parent = _
    rw [entry_set_self]
  · rw [amend_entry_of_ne _ _ hitem]

/-- Who is moved into the call keeps the parent that it has. -/
lemma holdAll_linked {w w' : World C} {items : List (LinkItem C)} {u : Unit} (h : Linked w)
    (hhold : holdAll items w = .ok u w') : Linked w' := by
  refine h.congr (fun r => ?_) ((fixes_queues (fixes_holdAll items)).ok hhold)
    (next_of_books ((fixes_books (fixes_holdAll items)).ok hhold))
  obtain ⟨hother, hsame⟩ := holdAll_entry hhold r
  by_cases hmem : .request r ∈ items
  · rw [hsame hmem]
  · rw [hother hmem]

/-- A step that takes its locks in time, and no request with `try_recv`. -/
lemma Step.linked (hvalid : m.Valid address) (hdistinct : (m.thread t).Distinct address)
    {threads : Finset ThreadId} (hplaced : m.InPlace threads) (hlinks : m.LinksRight t)
    (htries : Move.TriesNoRequest ⟨m, t, m'⟩) (h : Linked m.world) (hstep : Step address t m m') :
    Linked m'.world := by
  have hsound := hvalid.sound
  unfold LinksRight at hlinks
  cases hstep with
  | @call call out w hidle hatomic hallowed hlocks hexec =>
    refine Call.exec_linked hallowed hsound hplaced.placed ?_ h hexec
    cases call with
    | tryRecv c =>
      intro r rest hqueue
      exact htries hqueue ⟨out, w, hidle, hexec, rfl⟩
    | _ => trivial
  | @send s self req w hidle hs howner hexec =>
    refine h.congr (fun r => ?_) ((fixes_queues (fixes_setOwner req _)).ok hexec)
      (next_of_books ((fixes_books (fixes_setOwner req _)).ok hexec))
    show (w.ledger.entry r).parent = _
    rw [setOwner_ledger hexec]
    by_cases hr : r = req
    · rw [hr, entry_set_self]
    · rw [entry_set_of_ne _ _ hr]
  | refuse ht hended hexec | refuseLocked ht hended hexec => exact intoItem_linked h hexec
  | @link item channel this w ht hnone hexec =>
    rw [ht] at hlinks
    obtain ⟨rfl, -⟩ := hlinks hnone
    have hnext := m.world.next_of_none hnone
    cases item with
    | request r =>
      -- what the thread has in its hands waits nowhere
      have hmem : .request r ∈ (m.thread t).items := by
        rw [ht]
        exact List.mem_cons_self
      have hparent := h.parent_eq_none hplaced.placed (hplaced.placed.in_hands (hplaced.hands_pos hmem)).2.1
      exact sendLocked_linked h hparent hnext hexec
    | event event => exact sendEventLocked_linked h hnext hexec
  | forwardTo hidle hreceiver hs hexec | targetSelf ht hnone heq hexec =>
    cases hexec
    exact h.of_ledger rfl rfl rfl
  | @splice self otherShared this w ht hnone hexec =>
    rw [ht] at hlinks hdistinct
    obtain ⟨rfl, -⟩ := hlinks hnone
    have hself := hvalid.next_of_receiver (c := self) (t := t) (by rw [ht]; rfl)
    have hne : otherShared ≠ self := fun heq => hdistinct (congrArg address heq.symm)
    exact h.handOn hself (m.world.next_of_none hnone) hne
      (((writes_forwardLocked self otherShared otherShared).ledger (by decide)).ok hexec)
      (forwardLocked_ok hsound hexec).2
      (next_of_forwarded (forwardLocked_routes hsound hexec).2.2)
  | dropReceiver hidle hreceiver hexec =>
    cases hexec
    exact h.of_ledger rfl rfl rfl
  | dropped ht hexec => exact dropReceiver_linked h hexec
  | close hidle hreceiver hexec =>
    cases hexec
    exact h.of_ledger rfl rfl rfl
  | @closeLocked self err w ht hfree hexec =>
    exact closeLocked_linked hsound (hvalid.loose (t := t) (by rw [ht]; rfl)) h hexec
  | @drain self err items w ht hexec =>
    have hfits := hvalid.fits_at ht
    obtain ⟨w₁, hbatch, hhold⟩ := takeBatch_ok hexec
    exact holdAll_linked (closeBatch_linked h hplaced.placed hfits.1 hbatch) hhold
  | answer ht hlocks hexec => exact respondWithErr_linked h hexec
  | closed ht hexec => exact dropReceiver_linked h hexec
  | _ => exact h

/-- The steps of threads in any order, each of which takes its locks in time and takes no request
with `try_recv`. -/
theorem Run.linked {moves : List (Move C)} (h : Run address moves m)
    (htimely : ∀ move ∈ moves, Timely address move.before move.thread)
    (htries : ∀ move ∈ moves, move.TriesNoRequest) : Linked m.world := by
  induction h with
  | start => exact ⟨nofun, nofun⟩
  | @step moves move h hstep ih =>
    have htimely' : ∀ move' ∈ moves, Timely address move'.before move'.thread := fun move' hmem =>
      htimely move' (List.mem_append_left _ hmem)
    have hreached : Reached address (Timely address) move.before := ⟨moves, h, htimely'⟩
    obtain ⟨hdistinct, threads, hplaced⟩ := hreached.inPlace
    exact Step.linked hreached.valid (hdistinct move.thread) hplaced (hreached.linksRight.1 _)
      (htries move (List.mem_append_right _ List.mem_cons_self))
      (ih htimely' fun move' hmem => htries move' (List.mem_append_left _ hmem)) hstep

end Machine

/-- A thread that has found the channel for the request in its hands links it without a failed
assertion. -/
def Machine.Links (m : Machine C) : Prop :=
  ∀ {t r channel this}, m.thread t = .locked (.request r) channel this →
    Debug.sendLocked this channel r m.world = sendLocked this channel r m.world

/-- **A request has a parent exactly when it waits**, and the forwards of the parent end where it
waits: after calls one after another, none of which takes a request out of a queue with `try_recv`,
and after the steps of threads in any order, when besides every lock is taken in time.  Then every
request that the program owns can be sent. -/
theorem parents_lead (address : ChannelId → ℕ) :
    (∀ {steps : List (Step C)} {w : World C}, Run steps w →
      (∀ step ∈ steps, step.call.TriesNoRequest step.before) → Linked w ∧ w.Sendable) ∧
    ∀ {moves : List (Machine.Move C)} {m : Machine C}, Machine.Run address moves m →
      (∀ move ∈ moves, Machine.Timely address move.before move.thread) →
      (∀ move ∈ moves, move.TriesNoRequest) → Linked m.world ∧ m.world.Sendable ∧ m.Links := by
  refine ⟨fun h htries => ?_, fun {moves m} h htimely htries => ?_⟩
  · have hlinked := h.linked htries
    exact ⟨hlinked, hlinked.sendable h.placed⟩
  · have hlinked := h.linked htimely htries
    have hreached : Machine.Reached address (Machine.Timely address) m := ⟨moves, h, htimely⟩
    obtain ⟨-, threads, hplaced⟩ := hreached.inPlace
    refine ⟨hlinked, hlinked.sendable hplaced.placed, fun {t r channel this} ht => ?_⟩
    have hmem : .request r ∈ (m.thread t).items := by
      rw [ht]
      exact List.mem_cons_self
    exact debug_sendLocked (hlinked.parent_eq_none hplaced.placed
      (hplaced.placed.in_hands (hplaced.hands_pos hmem)).2.1) this channel

/-- A request is sent, received and sent again; and a thread makes a channel. -/
theorem parents_lead_again :
    (∃ steps, ∃ w : World unitChan, Run steps w ∧
      steps.map Step.call
        = [.channel, .requestResponse (), .send 0 0, .pollRecv 0 0, .send 0 0] ∧
      Linked w ∧ w.Sendable) ∧
    ∃ moves, ∃ m : Machine unitChan, Machine.Run id moves m ∧ moves.length = 1 ∧
      Linked m.world ∧ m.world.Sendable ∧ m.Links := by
  constructor
  · obtain ⟨steps, hrun, hcalls⟩ := (Run.empty (C := unitChan)).runCalls
      (show runCalls [.channel, .requestResponse (), .send 0 0, .pollRecv 0 0, .send 0 0]
        World.empty = some _ from rfl)
    rw [List.nil_append] at hrun
    refine ⟨steps, _, hrun, hcalls, (parents_lead id).1 hrun fun step hstep => ?_⟩
    have hcall := List.mem_map_of_mem (f := Step.call) hstep
    rw [hcalls] at hcall
    simp only [List.mem_cons, List.not_mem_nil, or_false] at hcall
    rcases hcall with hcall | hcall | hcall | hcall | hcall <;> rw [hcall] <;> trivial
  · have hstep : Machine.Step id 0 (Machine.start : Machine unitChan) _ :=
      @Machine.Step.call _ id 0 _ .channel (.sender 0) _ rfl trivial trivial (fun _ h => h.elim) rfl
    have hrun := Machine.Run.start.concat hstep
    refine ⟨_, _, hrun, rfl, (parents_lead id).2 hrun (fun move hmove => ?_) fun move hmove => ?_⟩
    · rw [List.mem_singleton.1 hmove]
      trivial
    · rw [List.mem_singleton.1 hmove]
      intro c r rest hqueue
      cases hqueue

/-- A request is sent, and taken out again with `try_recv`: it has its parent still, though it waits
nowhere, and when it is sent again the assertion fails. -/
theorem not_parents_lead :
    ∃ steps, ∃ w : World unitChan, Run steps w ∧
      steps.map Step.call = [.channel, .requestResponse (), .send 0 0, .tryRecv 0] ∧
      w.sender 0 = some ⟨0⟩ ∧ (w.request 0).owner = .request ∧
      (w.request 0).parent = some 0 ∧ (∀ c, w.queues c = []) ∧
      Debug.send ⟨0⟩ 0 w = .halt .panic ∧ ¬ Linked w ∧ ¬ w.Sendable := by
  obtain ⟨w, hafter, hsender, howner, hparent, hchannels, hqueue, hpanics, hsends⟩ :
      ∃ w : World unitChan,
        runCalls [.channel, .requestResponse (), .send 0 0, .tryRecv 0] World.empty = some w ∧
        w.sender 0 = some ⟨0⟩ ∧ (w.request 0).owner = .request ∧ (w.request 0).parent = some 0 ∧
        w.channels = 1 ∧ w.queues 0 = [] ∧ Debug.send ⟨0⟩ 0 w = .halt .panic ∧
        ∃ w', send ⟨0⟩ 0 w = .ok (.ok ()) w' :=
    ⟨_, rfl, rfl, rfl, rfl, rfl, rfl, rfl, _, rfl⟩
  obtain ⟨steps, hrun, hcalls⟩ := Run.empty.runCalls hafter
  rw [List.nil_append] at hrun
  have hempty : ∀ c, w.queues c = [] := by
    intro c
    rcases Nat.eq_zero_or_pos c with rfl | hc
    · exact hqueue
    · exact hrun.placed.fresh (hchannels.symm ▸ hc)
  refine ⟨steps, w, hrun, hcalls, hsender, howner, hparent, hempty, hpanics, fun hlinked => ?_,
    fun hsendable => ?_⟩
  · obtain ⟨c, -, hmem⟩ := hlinked.linked hparent
    rw [hempty c] at hmem
    cases hmem
  · obtain ⟨w', hsent⟩ := hsends
    have hsend := hsendable hsender howner
    rw [hpanics, hsent] at hsend
    cases hsend

end Recapn.Channel

/-
# Every request is at one place

A request that waits in a queue waits there once and in no other queue, and what a call has in its
hands waits nowhere.  So whatever a program does, a request whose response is there is owned by
nobody any more.
-/
import Mathlib.Algebra.Order.BigOperators.Group.Finset
import Recapn.Channel.Ledger

namespace Recapn.Channel

open Recapn.Lib Recapn.Lib.Prog

variable {C : Chan} {c d : ChannelId} {r : RequestId}

/-! ## How often a request waits -/

/-- How often a request waits in so many queues. -/
def timesAmong (n : ℕ) (queues : ChannelId → List (LinkItem C)) (r : RequestId) : ℕ :=
  ∑ c ∈ Finset.range n, (queues c).countP (LinkItem.isRequest r)

/-- How often a request waits in the queues. -/
def World.timesQueued (w : World C) : RequestId → ℕ := timesAmong w.channels w.queues

@[simp] lemma LinkItem.isRequest_self (r : RequestId) :
    (LinkItem.request r : LinkItem C).isRequest r = true := by
  simp [LinkItem.isRequest]

lemma LinkItem.isRequest_of_ne {r r' : RequestId} (h : r' ≠ r) :
    (LinkItem.request r : LinkItem C).isRequest r' = false := by
  simp [LinkItem.isRequest, Ne.symm h]

section TimesQueued

variable {w w' : World C}

/-- New channels have no queue. -/
lemma timesQueued_congr (hchannels : w.channels ≤ w'.channels) (hqueues : w'.queues = w.queues)
    (hfresh : ∀ {c}, w.channels ≤ c → w.queues c = []) (r : RequestId) :
    w'.timesQueued r = w.timesQueued r := by
  unfold World.timesQueued timesAmong
  rw [hqueues]
  symm
  refine Finset.sum_subset (Finset.range_subset_range.2 hchannels) fun c _ hc => ?_
  rw [hfresh (Nat.not_lt.1 fun hlt => hc (Finset.mem_range.2 hlt)), List.countP_nil]

/-- One queue is written. -/
lemma timesAmong_update {n : ℕ} (queues : ChannelId → List (LinkItem C)) (items : List (LinkItem C))
    (hc : c < n) (r : RequestId) :
    timesAmong n (Function.update queues c items) r + (queues c).countP (LinkItem.isRequest r)
      = timesAmong n queues r + items.countP (LinkItem.isRequest r) := by
  have hmem : c ∈ Finset.range n := Finset.mem_range.2 hc
  have hsum : ∀ q : ChannelId → List (LinkItem C),
      (q c).countP (LinkItem.isRequest r) +
        ∑ x ∈ (Finset.range n).erase c, (q x).countP (LinkItem.isRequest r) = timesAmong n q r :=
    fun q => Finset.add_sum_erase _ (fun x => (q x).countP (LinkItem.isRequest r)) hmem
  have hrest : ∑ x ∈ (Finset.range n).erase c,
        (Function.update queues c items x).countP (LinkItem.isRequest r)
      = ∑ x ∈ (Finset.range n).erase c, (queues x).countP (LinkItem.isRequest r) := by
    refine Finset.sum_congr rfl fun x hx => ?_
    rw [Function.update_of_ne (Finset.ne_of_mem_erase hx)]
  have hafter := hsum (Function.update queues c items)
  rw [Function.update_self, hrest] at hafter
  have hbefore := hsum queues
  omega

lemma timesQueued_update {items : List (LinkItem C)} (hc : c < w.channels)
    (hchannels : w'.channels = w.channels) (hqueues : w'.queues = Function.update w.queues c items)
    (r : RequestId) :
    w'.timesQueued r + (w.queues c).countP (LinkItem.isRequest r)
      = w.timesQueued r + items.countP (LinkItem.isRequest r) := by
  unfold World.timesQueued
  rw [hchannels, hqueues]
  exact timesAmong_update w.queues items hc r

lemma countP_le_timesQueued (hc : c < w.channels) (r : RequestId) :
    (w.queues c).countP (LinkItem.isRequest r) ≤ w.timesQueued r :=
  Finset.single_le_sum (f := fun x => (w.queues x).countP (LinkItem.isRequest r))
    (fun _ _ => Nat.zero_le _) (Finset.mem_range.2 hc)

/-- A request that waits in a queue. -/
lemma timesQueued_pos (hc : c < w.channels) (h : .request r ∈ w.queues c) : 0 < w.timesQueued r :=
  Nat.lt_of_lt_of_le (List.countP_pos_iff.2 ⟨_, h, LinkItem.isRequest_self r⟩)
    (countP_le_timesQueued hc r)

end TimesQueued

/-! ## Places -/

/-- The request is on its way: its parameters are there and its response is not. -/
def Entry.Waits (self : Entry C) : Prop :=
  (∃ params, self.request = .present params) ∧ self.response = none

/-- A request with this entry may wait in so many queues and be in so many hands. -/
structure Entry.Placed (e : Entry C) (queued hands : ℕ) : Prop where
  once : queued + hands ≤ 1
  linked : 0 < queued → e.owner = .channel
  waits : 0 < queued + hands ∨ e.owner = .request → e.Waits
  owned : e.owner ≠ .none → e.response = none

/-- Every request is at one place, where `hands` says how many calls have it in their hands. -/
structure Placed (hands : RequestId → ℕ) (w : World C) : Prop where
  fresh : ∀ {c}, w.channels ≤ c → w.queues c = []
  entry : ∀ r, (w.ledger.entry r).Placed (w.timesQueued r) (hands r)
  lt : ∀ {r}, 0 < w.timesQueued r + hands r ∨ (w.ledger.entry r).owner ≠ .none → r < w.requests

/-- How often a request is among some items. -/
def timesIn (items : List (LinkItem C)) (r : RequestId) : ℕ := items.countP (LinkItem.isRequest r)

section Placed

variable {w w' : World C} {hands hands' : RequestId → ℕ}

/-- A request that the program owns waits nowhere. -/
lemma Placed.timesQueued_eq_zero (h : Placed hands w) (howner : (w.ledger.entry r).owner ≠ .channel) :
    w.timesQueued r = 0 :=
  Nat.eq_zero_of_not_pos fun hpos => howner ((h.entry r).linked hpos)

/-- What waits in a queue is in no hands. -/
lemma Placed.of_mem (h : Placed hands w) (hc : c < w.channels) (hmem : .request r ∈ w.queues c) :
    w.timesQueued r = 1 ∧ hands r = 0 ∧ (w.ledger.entry r).owner = .channel ∧
      (w.ledger.entry r).Waits := by
  have hpos := timesQueued_pos hc hmem
  have honce := (h.entry r).once
  exact ⟨by omega, by omega, (h.entry r).linked hpos, (h.entry r).waits (Or.inl (by omega))⟩

/-- Nothing that is in the ledger or in a queue changes. -/
lemma Placed.rest (h : Placed hands w) (hledger : w'.ledger = w.ledger)
    (hqueues : w'.queues = w.queues) (hchannels : w.channels ≤ w'.channels) : Placed hands w' := by
  have htimes := timesQueued_congr hchannels hqueues h.fresh
  have hrequests : w'.requests = w.requests := congrArg Ledger.requests hledger
  refine ⟨fun hc => ?_, fun r => ?_, fun {r} hr => ?_⟩
  · rw [hqueues]
    exact h.fresh (Nat.le_trans hchannels hc)
  · rw [hledger, htimes]
    exact h.entry r
  · rw [hledger, htimes] at hr
    rw [hrequests]
    exact h.lt hr

/-- One request may change its place: of the others nothing changes. -/
lemma Placed.move (h : Placed hands w) (hfresh : ∀ {c}, w'.channels ≤ c → w'.queues c = [])
    (hrequests : w.requests ≤ w'.requests)
    (hother : ∀ r', r' ≠ r → w'.ledger.entry r' = w.ledger.entry r' ∧
      w'.timesQueued r' = w.timesQueued r' ∧ hands' r' = hands r')
    (hentry : (w'.ledger.entry r).Placed (w'.timesQueued r) (hands' r)) (hr : r < w'.requests) :
    Placed hands' w' := by
  refine ⟨hfresh, fun r' => ?_, fun {r'} hr' => ?_⟩
  · by_cases hne : r' = r
    · rw [hne]
      exact hentry
    · obtain ⟨hledger, htimes, hhands⟩ := hother r' hne
      rw [hledger, htimes, hhands]
      exact h.entry r'
  · by_cases hne : r' = r
    · rw [hne]
      exact hr
    · obtain ⟨hledger, htimes, hhands⟩ := hother r' hne
      rw [hledger, htimes, hhands] at hr'
      exact Nat.lt_of_lt_of_le (h.lt hr') hrequests

/-- The entry of a request is written. -/
lemma Placed.write (h : Placed hands w) {e : Entry C} (hledger : w'.ledger = w.ledger.set r e)
    (hqueues : w'.queues = w.queues) (hchannels : w'.channels = w.channels)
    (hhands : ∀ r', r' ≠ r → hands' r' = hands r')
    (hentry : e.Placed (w.timesQueued r) (hands' r)) (hr : r < w.requests) : Placed hands' w' := by
  have htimes := timesQueued_congr (Nat.le_of_eq hchannels.symm) hqueues h.fresh
  have hrequests : w'.requests = w.requests := congrArg Ledger.requests hledger
  refine h.move (fun hc => ?_) (Nat.le_of_eq hrequests.symm) (fun r' hne => ⟨?_, htimes r', hhands r' hne⟩) ?_ ?_
  · rw [hqueues]
    exact h.fresh (hchannels ▸ hc)
  · rw [hledger, entry_set_of_ne _ _ hne]
  · rw [hledger, entry_set_self, htimes]
    exact hentry
  · rw [hrequests]
    exact hr

end Placed

/-! ## What the functions do to the places -/

/-- Change the entry of a request; an event has none. -/
def Ledger.amend (l : Ledger C) (item : LinkItem C) (f : Entry C → Entry C) : Ledger C :=
  match item with
  | .request r => l.set r (f (l.entry r))
  | .event _ => l

lemma amend_amend (l : Ledger C) (item : LinkItem C) (f g : Entry C → Entry C) :
    (l.amend item f).amend item g = l.amend item fun e => g (f e) := by
  rcases item with r | event
  · show (l.set r _).set r (g ((l.set r _).entry r)) = _
    rw [entry_set_self, set_set]
    rfl
  · rfl

section Functions

variable {w w' : World C} {hands hands' : RequestId → ℕ} {u : Unit} {item : LinkItem C}

lemma intoItem_ledger (h : item.intoItem w = .ok u w') :
    w'.ledger = w.ledger.amend item fun e => { e with owner := .request } := by
  rcases item with r | event
  · exact setOwner_ledger h
  · cases h
    rfl

lemma itemTakeParent_ledger (h : item.takeParent w = .ok u w') :
    w'.ledger = w.ledger.amend item fun e => { e with parent := none } := by
  rcases item with r | event
  · obtain ⟨out, htake, rfl⟩ := bind_pure_ok h
    exact takeParent_ledger htake
  · cases h
    rfl

lemma Takes.ledger {rest : List (LinkItem C)} (h : Takes c item rest w w') :
    w'.ledger = w.ledger.amend item fun e => { e with owner := .request, parent := none } := by
  obtain ⟨w₁, w₂, hpop, -, htake, hinto⟩ := h.steps
  rw [intoItem_ledger hinto, itemTakeParent_ledger htake, amend_amend,
    ((writes_popFront c).ledger (by decide)).ok hpop]

lemma timesIn_cons (item : LinkItem C) (items : List (LinkItem C)) (r : RequestId) :
    timesIn (item :: items) r = timesIn items r + timesIn [item] r := by
  unfold timesIn
  rw [List.countP_cons, List.countP_cons, List.countP_nil, Nat.zero_add]

lemma timesIn_reverse (items : List (LinkItem C)) : timesIn items.reverse = timesIn items := by
  funext r
  unfold timesIn
  rw [List.countP_reverse]

lemma timesIn_request (r : RequestId) : timesIn [(LinkItem.request r : LinkItem C)] r = 1 := by
  unfold timesIn
  rw [List.countP_cons_of_pos (LinkItem.isRequest_self r), List.countP_nil]

lemma timesIn_of_ne {r' : RequestId} (h : r' ≠ r) :
    timesIn [(LinkItem.request r : LinkItem C)] r' = 0 := by
  unfold timesIn
  rw [List.countP_cons_of_neg (by rw [LinkItem.isRequest_of_ne h]; exact Bool.false_ne_true),
    List.countP_nil]

/-- The first item of a queue is in someone's hands now. -/
lemma Placed.pop (h : Placed hands w) {rest : List (LinkItem C)} (hc : c < w.channels)
    (hqueue : w.queues c = item :: rest) (hqueues : w'.queues = Function.update w.queues c rest)
    (hchannels : w'.channels = w.channels) (hledger : w'.ledger = w.ledger) :
    Placed (fun r => hands r + timesIn [item] r) w' := by
  have hrequests : w'.requests = w.requests := congrArg Ledger.requests hledger
  have htimes : ∀ r, w'.timesQueued r + timesIn [item] r = w.timesQueued r := by
    intro r
    have hupdate := timesQueued_update hc hchannels hqueues r
    have hcons : (w.queues c).countP (LinkItem.isRequest r)
        = rest.countP (LinkItem.isRequest r) + timesIn [item] r := by
      rw [hqueue]
      exact timesIn_cons item rest r
    omega
  refine ⟨fun {d} hd => ?_, fun r => ?_, fun {r} hr => ?_⟩
  · rw [hqueues, Function.update_of_ne, h.fresh (hchannels ▸ hd)]
    rintro rfl
    exact Nat.not_lt.2 hd (hchannels.symm ▸ hc)
  · obtain ⟨honce, hlinked, hwaits, howned⟩ := h.entry r
    have hr := htimes r
    rw [hledger]
    exact ⟨by omega, fun hpos => hlinked (by omega),
      fun hor => hwaits (hor.imp_left fun hpos => by omega), howned⟩
  · rw [hledger] at hr
    rw [hrequests]
    have hr' := htimes r
    exact h.lt (hr.imp_left fun hpos => by omega)

/-- An item that waits nowhere is handed on, and its entry changes. -/
lemma Placed.amend (h : Placed hands w) {f : Entry C → Entry C}
    (hledger : w'.ledger = w.ledger.amend item f) (hqueues : w'.queues = w.queues)
    (hchannels : w'.channels = w.channels)
    (hhands : ∀ r, item ≠ .request r → hands' r = hands r)
    (hentry : ∀ r, item = .request r → r < w.requests ∧
      (f (w.ledger.entry r)).Placed (w.timesQueued r) (hands' r)) : Placed hands' w' := by
  rcases item with r | event
  · obtain ⟨hlt, hplaced⟩ := hentry r rfl
    refine h.write hledger hqueues hchannels (fun r' hne => hhands r' ?_) hplaced hlt
    intro heq
    exact hne (LinkItem.request.inj heq).symm
  · have hsame : hands' = hands := funext fun r => hhands r fun heq => nomatch heq
    rw [hsame]
    exact h.rest hledger hqueues (Nat.le_of_eq hchannels.symm)

/-- What is in someone's hands is on its way and waits nowhere. -/
lemma Placed.in_hands (h : Placed hands w) (hr : 0 < hands r) :
    r < w.requests ∧ w.timesQueued r = 0 ∧ hands r = 1 ∧ (w.ledger.entry r).Waits := by
  have honce := (h.entry r).once
  exact ⟨h.lt (Or.inl (by omega)), by omega, by omega, (h.entry r).waits (Or.inl (by omega))⟩

/-- An item leaves the hands, and the program owns it. -/
lemma Placed.give (h : Placed (fun r => hands r + timesIn [item] r) w) {p : Option ChannelId → Option ChannelId}
    (hledger : w'.ledger = w.ledger.amend item fun e =>
      { e with owner := .request, parent := p e.parent })
    (hqueues : w'.queues = w.queues) (hchannels : w'.channels = w.channels) : Placed hands w' := by
  refine h.amend hledger hqueues hchannels (fun r hne => ?_) ?_
  · rcases item with r' | event
    · have hne' : r ≠ r' := by
        rintro rfl
        exact hne rfl
      rw [timesIn_of_ne hne']
      rfl
    · rfl
  · rintro r rfl
    have hone := timesIn_request (C := C) r
    obtain ⟨hlt, hqueued, hhands, hwaits⟩ := h.in_hands (r := r) (by omega)
    refine ⟨hlt, by omega, fun hpos => by omega, fun _ => hwaits, fun _ => hwaits.2⟩

/-- A request that the program owns is taken into a call. -/
lemma Placed.take (h : Placed hands w) (howner : (w.ledger.entry r).owner = .request)
    (hhands : hands r = 0) :
    Placed (fun r' => hands r' + timesIn [(LinkItem.request r : LinkItem C)] r') w := by
  have hqueued : w.timesQueued r = 0 := h.timesQueued_eq_zero (by rw [howner]; exact fun heq => nomatch heq)
  have hone := timesIn_request (C := C) r
  have hwaits := (h.entry r).waits (Or.inr howner)
  refine h.move h.fresh (Nat.le_refl _) (fun r' hne => ⟨rfl, rfl, ?_⟩) ?_
    (h.lt (Or.inr (by rw [howner]; exact fun heq => nomatch heq)))
  · rw [timesIn_of_ne hne, Nat.add_zero]
  · exact ⟨by omega, fun hpos => by omega, fun _ => hwaits, fun _ => hwaits.2⟩

/-- A request that a call has in its hands waits in a queue afterwards, or is dropped. -/
lemma sendLocked_placed {this channel : ChannelId} (hchannel : channel < w.channels)
    (h : Placed (fun r' => hands r' + timesIn [(LinkItem.request r : LinkItem C)] r') w)
    (hsend : sendLocked this channel r w = .ok u w') : Placed hands w' := by
  have hone := timesIn_request (C := C) r
  obtain ⟨hlt, hqueued, hhands, hwaits⟩ := h.in_hands (r := r) (by omega)
  have hledger := sendLocked_ledger hsend
  have hqueues := sendLocked_queues hsend
  have hchannels : w'.channels = w.channels :=
    congrArg Books.channels ((fixes_books_sendLocked this channel r).ok hsend)
  have hother : ∀ r', r' ≠ r →
      hands r' = hands r' + timesIn [(LinkItem.request r : LinkItem C)] r' := fun r' hne => by
    rw [timesIn_of_ne hne, Nat.add_zero]
  by_cases hfin : (w.request r).isFinished = true
  · rw [if_pos hfin] at hledger hqueues
    refine h.write hledger hqueues hchannels hother ?_ hlt
    refine ⟨by omega, fun hpos => by omega, fun hor => ?_, fun hne => absurd rfl hne⟩
    rcases hor with hpos | howner
    · omega
    · cases howner
  · rw [if_neg hfin] at hledger hqueues
    have htimes : ∀ r', w'.timesQueued r'
        = w.timesQueued r' + timesIn [(LinkItem.request r : LinkItem C)] r' := by
      intro r'
      have hupdate := timesQueued_update hchannel hchannels hqueues r'
      rw [List.countP_append] at hupdate
      show _ = _ + List.countP _ _
      omega
    have hrequests : w'.requests = w.requests := by
      have hreq := congrArg Ledger.requests hledger
      exact hreq
    refine h.move (fun {d} hd => ?_) (Nat.le_of_eq hrequests.symm) (fun r' hne => ⟨?_, ?_, hother r' hne⟩) ?_ ?_
    · rw [hchannels] at hd
      rw [hqueues, Function.update_of_ne, h.fresh hd]
      rintro rfl
      exact Nat.not_lt.2 hd hchannel
    · rw [hledger, entry_set_of_ne _ _ hne]
    · rw [htimes, timesIn_of_ne hne, Nat.add_zero]
    · rw [hledger, entry_set_self, htimes]
      exact ⟨by omega, fun _ => rfl, fun _ => hwaits, fun _ => hwaits.2⟩
    · rw [hrequests]
      exact hlt

lemma sendEventLocked_placed {channel : ChannelId} {event : C.Event} (hchannel : channel < w.channels)
    (h : Placed hands w) (hsend : sendEventLocked channel event w = .ok u w') : Placed hands w' := by
  have hledger := ((writes_sendEventLocked channel event).ledger (by decide)).ok hsend
  have hqueues := sendEventLocked_queues hsend
  have hchannels : w'.channels = w.channels :=
    congrArg Books.channels ((fixes_books_sendEventLocked channel event).ok hsend)
  have htimes : w'.timesQueued = w.timesQueued := by
    funext r
    have hupdate := timesQueued_update hchannel hchannels hqueues r
    rw [List.countP_append, List.countP_cons_of_neg Bool.false_ne_true, List.countP_nil] at hupdate
    omega
  have hrequests : w'.requests = w.requests := congrArg Ledger.requests hledger
  refine ⟨fun {d} hd => ?_, fun r => ?_, fun {r} hr => ?_⟩
  · rw [hchannels] at hd
    rw [hqueues, Function.update_of_ne, h.fresh hd]
    rintro rfl
    exact Nat.not_lt.2 hd hchannel
  · rw [hledger, htimes]
    exact h.entry r
  · rw [hledger, htimes] at hr
    rw [hrequests]
    exact h.lt hr

/-- All items of one queue wait in the other one. -/
lemma forwardLocked_placed {extra : ChannelId → ℕ} {self otherShared other : ChannelId}
    (hsound : Sound extra w) (hself : self < w.channels) (hother : otherShared < w.channels)
    (hne : otherShared ≠ self) (h : Placed hands w)
    (hforward : forwardLocked self otherShared other w = .ok u w') : Placed hands w' := by
  have hledger := ((writes_forwardLocked self otherShared other).ledger (by decide)).ok hforward
  obtain ⟨hbooks, hqueues⟩ := forwardLocked_ok hsound hforward
  have hchannels : w'.channels = w.channels := congrArg Books.channels hbooks
  have hrequests : w'.requests = w.requests := congrArg Ledger.requests hledger
  have htimes : w'.timesQueued = w.timesQueued := by
    funext r
    unfold World.timesQueued
    rw [hchannels, hqueues]
    have happend := timesAmong_update w.queues (w.queues otherShared ++ w.queues self) hother r
    have hclear := timesAmong_update
      (Function.update w.queues otherShared (w.queues otherShared ++ w.queues self)) [] hself r
    rw [Function.update_of_ne (Ne.symm hne), List.countP_nil] at hclear
    rw [List.countP_append] at happend
    omega
  refine ⟨fun {d} hd => ?_, fun r => ?_, fun {r} hr => ?_⟩
  · rw [hchannels] at hd
    have hds : d ≠ self := fun heq => Nat.not_lt.2 hd (heq ▸ hself)
    have hdo : d ≠ otherShared := fun heq => Nat.not_lt.2 hd (heq ▸ hother)
    rw [hqueues, Function.update_of_ne hds, Function.update_of_ne hdo, h.fresh hd]
  · rw [hledger, htimes]
    exact h.entry r
  · rw [hledger, htimes] at hr
    rw [hrequests]
    exact h.lt hr

/-- A request that waited is the program's. -/
lemma received_placed {rest : List (LinkItem C)} {w₁ : World C} (h : Placed hands w)
    (hc : c < w.channels) (hqueue : w.queues c = item :: rest)
    (hqueues : w₁.queues = Function.update w.queues c rest) (hchannels : w₁.channels = w.channels)
    (hledger : w₁.ledger = w.ledger) {p : Option ChannelId → Option ChannelId}
    (hledger' : w'.ledger = w₁.ledger.amend item fun e =>
      { e with owner := .request, parent := p e.parent })
    (hqueues' : w'.queues = w₁.queues) (hchannels' : w'.channels = w₁.channels) : Placed hands w' :=
  (h.pop hc hqueue hqueues hchannels hledger).give hledger' hqueues' hchannels'

lemma setWaker_same (w : World C) (c : ChannelId) (waker : Waker) :
    (w.modifyChannel c fun ch => { ch with waker := some waker }).ledger = w.ledger ∧
      (w.modifyChannel c fun ch => { ch with waker := some waker }).queues = w.queues := by
  refine ⟨rfl, (fixes_queues_modifyChannel fun _ => ?_).ok rfl⟩
  rfl

lemma pollRecv_placed {waker : Waker} {out : Poll (Option (LinkItem C))} (h : Placed hands w)
    (hc : c < w.channels) (hpoll : pollRecv c waker w = .ok out w') : Placed hands w' := by
  rcases pollRecv_cases hpoll with ⟨-, rfl⟩ | ⟨-, rfl⟩ | ⟨item, rest, -, htakes⟩
  · exact h
  · obtain ⟨hledger, hqueues⟩ := setWaker_same w c waker
    exact h.rest hledger hqueues (Nat.le_refl _)
  · have hchannels := congrArg Books.channels htakes.books
    obtain ⟨w₁, w₂, hpop, hqueues, htake, hinto⟩ := htakes.steps
    have hchannels₁ : w₁.channels = w.channels :=
      congrArg Books.channels ((fixes_books_popFront c).ok hpop)
    have hledger₁ := ((writes_popFront c).ledger (by decide)).ok hpop
    refine received_placed h hc htakes.queue hqueues hchannels₁ hledger₁ (p := fun _ => none) ?_ ?_
      (hchannels.trans hchannels₁.symm)
    · rw [intoItem_ledger hinto, itemTakeParent_ledger htake, amend_amend]
    · rw [(fixes_queues (fixes_intoItem item)).ok hinto,
        (fixes_queues (fixes_itemTakeParent item)).ok htake]

lemma tryRecv_placed {out : Option (LinkItem C)} (h : Placed hands w) (hc : c < w.channels)
    (hrecv : tryRecv c w = .ok out w') : Placed hands w' := by
  have hchannels : w'.channels = w.channels :=
    congrArg Books.channels ((fixes_books_tryRecv c).ok hrecv)
  obtain ⟨link, w₁, hpop, hrest⟩ := bind_eq_ok.1 hrecv
  rcases popFront_ok hpop with ⟨rfl, rfl, -⟩ | ⟨item, rest, rfl, hqueue, hqueues⟩
  · cases hrest
    exact h
  · have hchannels₁ : w₁.channels = w.channels :=
      congrArg Books.channels ((fixes_books_popFront c).ok hpop)
    have hledger₁ := ((writes_popFront c).ledger (by decide)).ok hpop
    obtain ⟨_, hinto, rfl⟩ := bind_pure_ok hrest
    exact received_placed h hc hqueue hqueues hchannels₁ hledger₁ (p := fun parent => parent)
      (intoItem_ledger hinto) ((fixes_queues (fixes_intoItem item)).ok hinto)
      (hchannels.trans hchannels₁.symm)

/-- What is taken out of a queue for a batch is in someone's hands. -/
lemma Takes.placed {rest : List (LinkItem C)} (h : Takes c item rest w w') (hplaced : Placed hands w)
    (hc : c < w.channels) : Placed (fun r => hands r + timesIn [item] r) w' := by
  have hchannels : w'.channels = w.channels := congrArg Books.channels h.books
  obtain ⟨w₁, w₂, hpop, hqueues, htake, hinto⟩ := h.steps
  have hchannels₁ : w₁.channels = w.channels :=
    congrArg Books.channels ((fixes_books_popFront c).ok hpop)
  have hledger₁ := ((writes_popFront c).ledger (by decide)).ok hpop
  have hpopped := hplaced.pop hc h.queue hqueues hchannels₁ hledger₁
  refine hpopped.amend (h.ledger.trans (by rw [hledger₁])) ?_ (hchannels.trans hchannels₁.symm)
    (fun _ _ => rfl) ?_
  · rw [(fixes_queues (fixes_intoItem item)).ok hinto,
      (fixes_queues (fixes_itemTakeParent item)).ok htake]
  · rintro r rfl
    have hone := timesIn_request (C := C) r
    obtain ⟨hlt, hqueued, hhands, hwaits⟩ := hpopped.in_hands (r := r) (by omega)
    exact ⟨hlt, by omega, fun hpos => by omega, fun _ => hwaits, fun _ => hwaits.2⟩

/-- A batch of items is in someone's hands. -/
lemma closeBatch_placed {room : ℕ} {items : List (LinkItem C)} (h : Placed hands w)
    (hc : c < w.channels) (hbatch : closeBatch c room w = .ok items w') :
    Placed (fun r => hands r + timesIn items r) w' := by
  induction room generalizing w hands items with
  | zero =>
    cases hbatch
    exact h
  | succ room ih =>
    rcases closeBatch_succ hbatch with ⟨rfl, rfl, -⟩ | ⟨item, rest, w₁, items', rfl, htakes, hmore⟩
    · exact h
    · have hchannels : w₁.channels = w.channels := congrArg Books.channels htakes.books
      have hmoved := ih (htakes.placed h hc) (hchannels ▸ hc) hmore
      have hsame : (fun r => hands r + timesIn (item :: items') r)
          = fun r => hands r + timesIn [item] r + timesIn items' r := by
        funext r
        rw [timesIn_cons]
        omega
      rw [hsame]
      exact hmoved

/-- Whoever answers a request has taken its parameters, and owns it no longer. -/
lemma respondWithErr_ledger {err : C.Error} (h : item.respondWithErr err w = .ok u w') :
    w'.ledger = w.ledger.amend item fun e =>
      { e with owner := .none, request := .taken, response := some (C.intoResults err) } := by
  rcases item with r | event
  · obtain ⟨params, w₁, htake, hresponse⟩ := bind_eq_ok.1 h
    rw [responderRespond_ledger hresponse, (respond_ledger htake).2, entry_set_self, set_set]
    rfl
  · cases h
    rfl

/-- An item that was in someone's hands is answered. -/
lemma respondWithErr_placed {err : C.Error} (h : Placed (fun r => hands r + timesIn [item] r) w)
    (hrespond : item.respondWithErr err w = .ok u w') : Placed hands w' := by
  have hroutes := (fixes_routes_respondWithErr err item).ok hrespond
  refine h.amend (respondWithErr_ledger hrespond) (congrArg Routes.queues hroutes)
    (congrArg Routes.channels hroutes) (fun r hne => ?_) ?_
  · rcases item with r' | event
    · have hne' : r ≠ r' := by
        rintro rfl
        exact hne rfl
      rw [timesIn_of_ne hne', Nat.add_zero]
    · rfl
  · rintro r rfl
    have hone := timesIn_request (C := C) r
    obtain ⟨hlt, hqueued, hhands, -⟩ := h.in_hands (r := r) (by omega)
    refine ⟨hlt, by omega, fun hpos => by omega, fun hor => ?_, fun hne => absurd rfl hne⟩
    rcases hor with hpos | howner
    · omega
    · cases howner

/-- The items that were in someone's hands are answered. -/
lemma respondAll_placed {err : C.Error} {items : List (LinkItem C)}
    (h : Placed (fun r => hands r + timesIn items r) w) (hrespond : respondAll err items w = .ok u w') :
    Placed hands w' := by
  induction items generalizing w with
  | nil =>
    cases hrespond
    exact h
  | cons item items ih =>
    obtain ⟨_, w₁, hitem, hrest⟩ := bind_eq_ok.1 hrespond
    have hcons : (fun r => hands r + timesIn (item :: items) r)
        = fun r => hands r + timesIn items r + timesIn [item] r := by
      funext r
      rw [timesIn_cons, Nat.add_assoc]
    rw [hcons] at h
    exact ih (respondWithErr_placed h hitem) hrest

lemma closeLoop_placed {err : C.Error} {rounds : ℕ} (h : Placed hands w) (hc : c < w.channels)
    (hloop : closeLoop c err rounds w = .ok u w') : Placed hands w' := by
  induction rounds generalizing w with
  | zero => cases hloop
  | succ rounds ih =>
    obtain ⟨items, w₁, hbatch, hrest⟩ := bind_eq_ok.1 hloop
    obtain ⟨_, w₂, hrespond, hrest'⟩ := bind_eq_ok.1 hrest
    have hchannels₁ : w₁.channels = w.channels :=
      congrArg Books.channels ((fixes_books_closeBatch c batchSize).ok hbatch)
    have hchannels₂ : w₂.channels = w₁.channels :=
      congrArg Routes.channels ((fixes_routes_respondAll err _).ok hrespond)
    have hanswered : Placed hands w₂ := by
      refine respondAll_placed ?_ hrespond
      rw [timesIn_reverse]
      exact closeBatch_placed h hc hbatch
    rcases ite_eq_ok.1 hrest' with ⟨-, hpure⟩ | ⟨-, hloop'⟩
    · cases hpure
      exact hanswered
    · exact ih hanswered (hchannels₂.trans hchannels₁ ▸ hc) hloop'

lemma closeLocked_placed {extra : ChannelId → ℕ} {err : C.Error} (hsound : Sound extra w)
    (h : Placed hands w) (hclose : closeLocked c err w = .ok u w') : Placed hands w' := by
  obtain ⟨hbooks, hqueues⟩ := closeLocked_books hsound hclose
  have hchannels : w'.channels = w.channels := congrArg Books.channels hbooks
  exact h.rest (((writes_closeLocked c err).ledger (by decide)).ok hclose) hqueues
    (Nat.le_of_eq hchannels.symm)

lemma dropReceiver_placed (h : Placed hands w) (hdrop : dropReceiver c w = .ok u w') :
    Placed hands w' := by
  have hchannels : w'.channels = w.channels := by
    have hrest := of_bind rfl hdrop
    rcases ite_eq_ok.1 hrest with ⟨-, hpure⟩ | ⟨-, hmodify⟩
    · cases hpure
      rfl
    · cases hmodify
      rfl
  exact h.rest (((writes_dropReceiver c).ledger (by decide)).ok hdrop)
    ((fixes_queues_dropReceiver c).ok hdrop) (Nat.le_of_eq hchannels.symm)

lemma close_placed {extra : ChannelId → ℕ} {err : C.Error} (hsound : Sound extra w)
    (h : Placed hands w) (hc : c < w.channels) (hclose : close c err w = .ok u w') :
    Placed hands w' := by
  obtain ⟨_, w₁, hlocked, hrest⟩ := bind_eq_ok.1 hclose
  have hrest' := of_bind rfl hrest
  obtain ⟨_, w₂, hloop, hdrop⟩ := bind_eq_ok.1 hrest'
  have hchannels₁ : w₁.channels = w.channels :=
    congrArg Books.channels (closeLocked_books hsound hlocked).1
  have hplaced₁ := closeLocked_placed hsound h hlocked
  exact dropReceiver_placed (closeLoop_placed hplaced₁ (hchannels₁ ▸ hc) hloop) hdrop

lemma forwardTo_placed {extra : ChannelId → ℕ} {self : ChannelId} {other : Sender} {done : Bool}
    (hsound : Sound extra w) (hself : self < w.channels) (hother : other.shared < w.channels)
    (h : Placed hands w) (hforward : forwardTo self other w = .ok done w') : Placed hands w' := by
  obtain ⟨r, hleads, ⟨-, rfl, -⟩ | ⟨-, res, -, hended⟩ | ⟨-, hne, -, hlocked⟩⟩ := forwardTo_cases hforward
  · exact h
  · rcases res with _ | err
    · exact dropReceiver_placed h hended
    · exact close_placed hsound h hself hended
  · exact forwardLocked_placed hsound hself (hsound.leads_lt hother hleads) hne h hlocked

end Functions

/-! ## Calls -/

section Calls

variable {w w' : World C} {hands : RequestId → ℕ} {out : Output C}

/-- The request that a call is about, when it is about the owner of one. -/
def Call.subject : Call C → Option (RequestId × Owner)
  | dropRequest r => some (r, .request)
  | respond r => some (r, .request)
  | responderRespond r _ => some (r, .responder)
  | tailCall r _ => some (r, .responder)
  | setPipeline r _ => some (r, .responder)
  | dropResponder r => some (r, .responder)
  | resultsSenderRespond r _ => some (r, .resultsSender)
  | dropResultsSender r => some (r, .resultsSender)
  | _ => none

/-- What a call does to the entry of the request that it is about. -/
def Call.entryAfter (e : Entry C) : Call C → Entry C
  | dropRequest _ => { e with owner := .none, request := .dropped }
  | respond _ => { e with owner := .responder, request := .taken }
  | responderRespond _ resp => { e with owner := .none, response := some resp }
  | tailCall _ msg => { e with owner := .request, request := .present msg }
  | dropResponder _ => { e with owner := .none }
  | resultsSenderRespond _ resp => { e with owner := .none, response := some resp }
  | dropResultsSender _ => { e with owner := .none }
  | _ => e

/-- A pipeline is never set: the response would be read, which is not there yet. -/
lemma setPipeline_undefined (hresponse : (w.request r).response = none) (dst : C.Pipeline) :
    Responder.setPipeline r dst w = .halt .undefined := by
  unfold Responder.setPipeline
  rw [bind_of_ok (show modifyRequest r _ w = .ok () _ from rfl),
    bind_of_ok (show getRequest r _ = .ok _ _ from rfl)]
  refine bind_of_halt ?_
  rw [World.request_modifyRequest_self]
  show (Prog.require ((w.request r).response.isSome = true) : ChanM C Unit) _ = _
  rw [hresponse]
  rfl

/-- A call about the owner of a request does nothing else to the ledger and the queues. -/
lemma Call.subject_ledger {call : Call C} {owner : Owner} (hsubject : call.subject = some (r, owner))
    (hresponse : (w.ledger.entry r).response = none) (h : call.exec w = .ok out w') :
    w'.ledger = w.ledger.set r (call.entryAfter (w.ledger.entry r)) ∧ w'.queues = w.queues ∧
      w'.channels = w.channels := by
  have hdone : ∀ {α : Type} {x : ChanM C α} {f : α → Output C} {e : Entry C},
      Prog.Fixes World.routes x →
      (∀ {a w₁}, x w = .ok a w₁ → w₁.ledger = w.ledger.set r e) →
      (do let a ← x; pure (f a) : ChanM C _) w = .ok out w' →
      w'.ledger = w.ledger.set r e ∧ w'.queues = w.queues ∧ w'.channels = w.channels := by
    intro α x f e hroutes hledger h
    obtain ⟨a, w₁, hrun, hpure⟩ := bind_eq_ok.1 h
    cases hpure
    have hrun' := hroutes.ok hrun
    exact ⟨hledger hrun, congrArg Routes.queues hrun', congrArg Routes.channels hrun'⟩
  cases call with
  | dropRequest r' =>
    cases hsubject
    exact hdone (fixes_routes (fixes_dropRequest r)) dropRequest_ledger h
  | respond r' =>
    cases hsubject
    exact hdone (fixes_routes (fixes_respond r)) (fun hrun => (respond_ledger hrun).2) h
  | responderRespond r' resp =>
    cases hsubject
    exact hdone (fixes_routes_responderRespond r resp) responderRespond_ledger h
  | tailCall r' msg =>
    cases hsubject
    exact hdone (fixes_routes (fixes_tailCall r msg)) tailCall_ledger h
  | setPipeline r' dst =>
    cases hsubject
    obtain ⟨_, w₁, hset, hpure⟩ := bind_eq_ok.1 h
    rw [setPipeline_undefined hresponse dst] at hset
    cases hset
  | resultsSenderRespond r' resp =>
    cases hsubject
    exact hdone (fixes_routes (fixes_resultsSenderRespond r resp)) resultsSenderRespond_ledger h
  | dropResponder r' | dropResultsSender r' =>
    cases hsubject
    exact hdone (fixes_routes (fixes_dropResponder r)) dropResponder_ledger h
  | _ => cases hsubject

/-- The call leaves the ledger as it is, and moves no item. -/
def Call.LeavesLedger : Call C → Prop
  | channel => True
  | cloneSender _ => True
  | dropSender _ => True
  | resolveInPlace _ => True
  | pollClosed _ _ => True
  | cloneTracker _ => True
  | dropTracker _ => True
  | build _ _ => True
  | freeChannel _ => True
  | _ => False

lemma fixes_ledger_exec {call : Call C} (h : call.LeavesLedger) :
    Prog.Fixes World.ledger call.exec := by
  have hapart : ∀ K : List Part, (∀ p ∈ ledgerParts, p ∉ K) → call.parts = K →
      Prog.Fixes World.ledger call.exec := fun K hapart hK =>
    (Call.writes_exec call).ledger (hK ▸ hapart)
  cases call with
  | channel => exact hapart [.channels, .parentRequest] (by decide) rfl
  | cloneSender s | dropSender s | resolveInPlace s | pollClosed c waker =>
    exact hapart [] (by decide) rfl
  | cloneTracker t | dropTracker t => exact hapart [.receivers, .trackers] (by decide) rfl
  | build t key => exact hapart buildParts (by decide) rfl
  | freeChannel c => exact hapart [.freed, .receivers] (by decide) rfl
  | _ => exact h.elim

/-- There is one more request, which the program owns. -/
lemma Placed.newRequest {msg : C.Parameters} {receivers : ℕ} {u : Unit} (h : Placed hands w)
    (hnew : newRequest msg receivers w = .ok u w') : Placed hands w' := by
  cases hnew
  have hlater : ¬ (0 < w.timesQueued w.requests + hands w.requests ∨
      (w.ledger.entry w.requests).owner ≠ .none) := fun hor => Nat.lt_irrefl _ (h.lt hor)
  rw [not_or] at hlater
  refine h.move h.fresh (Nat.le_succ _) (fun r hne => ⟨?_, rfl, rfl⟩) ?_ (Nat.lt_succ_self _)
  · exact congrArg SharedRequest.entry (Function.update_of_ne hne _ _)
  · show (Function.update w.request w.requests (.new msg receivers) w.requests).entry.Placed _ _
    rw [Function.update_self]
    refine ⟨?_, fun hpos => absurd ?_ hlater.1, fun _ => ⟨⟨msg, rfl⟩, rfl⟩, fun _ => rfl⟩
    · show w.timesQueued w.requests + hands w.requests ≤ 1
      omega
    · exact Nat.lt_of_lt_of_le hpos (Nat.le_add_right _ _)

lemma Call.subject_owner {call : Call C} {owner : Owner} (h : call.subject = some (r, owner)) :
    owner ≠ .none ∧ owner ≠ .channel := by
  cases call <;> cases h <;> exact ⟨nofun, nofun⟩

/-- Nothing waits of a request that a call was about. -/
lemma Call.entryAfter_placed {call : Call C} {owner : Owner} {e : Entry C}
    (hsubject : call.subject = some (r, owner)) (hresponse : e.response = none)
    (hset : ∀ dst, call ≠ .setPipeline r dst) : (call.entryAfter e).Placed 0 0 := by
  cases call with
  | tailCall r' msg => exact ⟨Nat.zero_le 1, nofun, fun _ => ⟨⟨msg, rfl⟩, hresponse⟩, fun _ => hresponse⟩
  | respond r' => exact ⟨Nat.zero_le 1, nofun, nofun, fun _ => hresponse⟩
  | setPipeline r' dst =>
    cases hsubject
    exact absurd rfl (hset dst)
  | dropRequest r' | responderRespond r' resp | dropResponder r' | resultsSenderRespond r' resp
  | dropResultsSender r' =>
    exact ⟨Nat.zero_le 1, nofun, nofun, fun hne => absurd rfl hne⟩
  | _ => cases hsubject

/-- A call about a request that the program owns. -/
lemma Placed.subject {call : Call C} {owner : Owner} (h : Placed hands w)
    (hhands : ∀ r, (w.ledger.entry r).owner ≠ .none → hands r = 0)
    (hsubject : call.subject = some (r, owner)) (howner : (w.ledger.entry r).owner = owner)
    (hexec : call.exec w = .ok out w') : Placed hands w' := by
  obtain ⟨hsome, hchannel⟩ := Call.subject_owner hsubject
  rw [← howner] at hsome hchannel
  have hresponse := (h.entry r).owned hsome
  obtain ⟨hledger, hqueues, hchannels⟩ := Call.subject_ledger hsubject hresponse hexec
  refine h.write hledger hqueues hchannels (fun _ _ => rfl) ?_ (h.lt (Or.inr hsome))
  rw [h.timesQueued_eq_zero hchannel, hhands r hsome]
  refine Call.entryAfter_placed hsubject hresponse fun dst hcall => ?_
  rw [hcall] at hexec
  obtain ⟨_, w₁, hset, -⟩ := bind_eq_ok.1 hexec
  rw [setPipeline_undefined hresponse dst] at hset
  cases hset

/-- A call that leaves the ledger. -/
lemma Placed.of_leaves {call : Call C} {extra : ChannelId → ℕ} (h : Placed hands w)
    (hsound : Sound extra w) (hexec : call.exec w = .ok out w') (hleaves : call.LeavesLedger)
    (hquiet : call.Quiet) : Placed hands w' := by
  have hrests := Call.rests hquiet hsound (h.fresh (Nat.le_refl _)) hexec
  exact h.rest ((fixes_ledger_exec hleaves).ok hexec) hrests.queues hrests.channels

/-- **Every request stays at one place.**  Calls may have requests in their hands that the program
does not own. -/
theorem Call.exec_placed {call : Call C} {extra : ChannelId → ℕ} (hallowed : call.Allowed w)
    (hsound : Sound extra w) (h : Placed hands w)
    (hhands : ∀ r, (w.ledger.entry r).owner ≠ .none → hands r = 0)
    (hexec : call.exec w = .ok out w') : Placed hands w' := by
  have hloose : ∀ {c}, w.receiver c = true → c < w.channels := fun hc =>
    (Books.Sound.loose hsound hc).lt
  have hsoundHeld : ∀ c, Sound extra { w with receiver := Function.update w.receiver c false } :=
    fun c => Books.Sound.takeReceiver hsound c
  have hheld : ∀ c, Placed hands { w with receiver := Function.update w.receiver c false } :=
    fun c => h.rest rfl rfl (Nat.le_refl _)
  cases call with
  | channel | cloneSender _ | dropSender _ | resolveInPlace _ | pollClosed _ _ | cloneTracker _
  | dropTracker _ | build _ _ | freeChannel _ =>
    exact h.of_leaves hsound hexec trivial trivial
  | dropRequest r | respond r | responderRespond r _ | tailCall r _ | setPipeline r _ | dropResponder r
  | resultsSenderRespond r _ | dropResultsSender r =>
    exact h.subject hhands rfl hallowed hexec
  | broken err =>
    cases hexec
    refine h.rest rfl ?_ (Nat.le_succ _)
    funext d
    show ((w.addChannel (.resolved (.error err))).channel d).requests = (w.channel d).requests
    by_cases hd : d = w.channels
    · rw [hd, World.channel_addChannel_self]
      exact (h.fresh (Nat.le_refl _)).symm
    · rw [World.channel_addChannel_of_ne w _ hd]
  | send s req =>
    obtain ⟨self, hs, ⟨-, -, rfl⟩ | ⟨channel, hleads, -, -, hlink⟩⟩ := exec_send_cases hexec
    · exact h
    · have howned : (w.ledger.entry req).owner = .request := hallowed
      have hzero := hhands req (by rw [howned]; exact nofun)
      exact sendLocked_placed (hsound.leads_lt (hsound.sender_lt hs) hleads) (h.take howned hzero) hlink
  | sendEvent s event =>
    obtain ⟨self, hs, ⟨-, -, rfl⟩ | ⟨channel, hleads, -, -, hlink⟩⟩ := exec_sendEvent_cases hexec
    · exact h
    · exact sendEventLocked_placed (hsound.leads_lt (hsound.sender_lt hs) hleads) h hlink
  | forwardTo c other =>
    obtain ⟨sender, done, w₁, hs, hforward, -, rfl⟩ := exec_forwardTo_ok hexec
    exact (forwardTo_placed (hsoundHeld c) (hloose hallowed) (hsound.sender_lt hs)
      (hheld c) hforward).rest rfl rfl (Nat.le_refl _)
  | pollRecv c waker =>
    obtain ⟨result, w₁, hpoll, hpure⟩ := bind_eq_ok.1 hexec
    cases hpure
    exact pollRecv_placed h (hloose hallowed) hpoll
  | tryRecv c =>
    obtain ⟨item, hrecv, rfl⟩ := bind_pure_ok hexec
    exact tryRecv_placed h (hloose hallowed) hrecv
  | close c err =>
    exact close_placed (hsoundHeld c) (hheld c) (hloose hallowed)
      (exec_close_ok hexec)
  | dropReceiver c => exact dropReceiver_placed (hheld c) (exec_dropReceiver_ok hexec)
  | requestResponse msg | requestPipeline msg | requestResponsePipeline msg =>
    cases hexec
    exact h.newRequest rfl
  | freeRequest r =>
    cases hexec
    refine h.write (ledger_modifyRequest w r _) rfl rfl (fun _ _ => rfl) ?_ hallowed.1
    obtain ⟨honce, hlinked, hwaits, howned⟩ := h.entry r
    exact ⟨honce, hlinked, hwaits, howned⟩

end Calls

lemma placed_empty : Placed (fun _ => 0) (World.empty : World C) where
  fresh _ := rfl
  entry _ := ⟨Nat.zero_le 1, nofun, nofun, fun _ => rfl⟩
  lt h := h.elim (fun hpos => absurd hpos (Nat.lt_irrefl 0)) fun hne => absurd rfl hne

/-- In every world that is reached, every request is at one place. -/
theorem Run.placed {steps : List (Step C)} {w : World C} (h : Run steps w) :
    Placed (fun _ => 0) w := by
  induction h with
  | empty => exact placed_empty
  | step h hruns ih => exact Call.exec_placed hruns.1 h.sound ih (fun _ _ => rfl) hruns.2

end Recapn.Channel

/-
# What threads have in their hands

A request that is sent, or that was taken out of a queue to be answered, is in the hands of one
thread.  So in a machine, too, every request is at one place, whatever the order of the steps; and
what nobody owns is left by all steps but those of the thread that has it in its hands.
-/
import Recapn.Channel.Places

namespace Recapn.Channel

open Recapn.Lib Recapn.Lib.Prog

variable {C : Chan} {c d : ChannelId} {r : RequestId}

/-! ## Moving items into a call -/

section Hold

variable {w w' : World C} {hands : RequestId → ℕ} {u : Unit} {item : LinkItem C}
  {items : List (LinkItem C)}

lemma hold_ledger (h : item.hold w = .ok u w') :
    w'.ledger = w.ledger.amend item fun e => { e with owner := .none } := by
  rcases item with r | event
  · exact setOwner_ledger h
  · cases h
    rfl

lemma amend_entry_of_ne (l : Ledger C) (f : Entry C → Entry C) (h : item ≠ .request r) :
    (l.amend item f).entry r = l.entry r := by
  rcases item with r' | event
  · have hne : r ≠ r' := by
      rintro rfl
      exact h rfl
    exact entry_set_of_ne l _ hne
  · rfl

/-- What is moved into the call has no owner any more. -/
lemma holdAll_entry (h : holdAll items w = .ok u w') (r : RequestId) :
    (.request r ∉ items → w'.ledger.entry r = w.ledger.entry r) ∧
      (.request r ∈ items → w'.ledger.entry r = { w.ledger.entry r with owner := .none }) := by
  induction items generalizing w with
  | nil =>
    cases h
    exact ⟨fun _ => rfl, fun hmem => absurd hmem List.not_mem_nil⟩
  | cons item items ih =>
    obtain ⟨_, w₁, hhold, hrest⟩ := bind_eq_ok.1 h
    have hledger := hold_ledger hhold
    obtain ⟨hother, hsame⟩ := ih hrest
    have hentry : w₁.ledger.entry r = w.ledger.entry r ∨ item = .request r ∧
        w₁.ledger.entry r = { w.ledger.entry r with owner := .none } := by
      rw [hledger]
      by_cases hitem : item = .request r
      · right
        rw [hitem]
        exact ⟨rfl, entry_set_self _ _ _⟩
      · exact Or.inl (amend_entry_of_ne _ _ hitem)
    constructor
    · intro hnot
      rw [List.mem_cons, not_or] at hnot
      rw [hother hnot.2]
      exact hentry.resolve_right fun hor => hnot.1 hor.1.symm
    · intro hmem
      by_cases hrest : .request r ∈ items
      · rw [hsame hrest]
        rcases hentry with heq | ⟨-, heq⟩
        · rw [heq]
        · rw [heq]
      · have hitem := (List.mem_cons.1 hmem).resolve_right hrest
        rw [hother hrest, hledger, ← hitem]
        exact entry_set_self _ _ _

/-- What is in someone's hands may lose its owner. -/
lemma hold_placed (h : Placed hands w) (hmem : ∀ r, item = .request r → 0 < hands r)
    (hhold : item.hold w = .ok u w') : Placed hands w' := by
  have hchannels : w'.channels = w.channels :=
    congrArg Books.channels ((fixes_books (fixes_hold item)).ok hhold)
  refine h.amend (hold_ledger hhold) ((fixes_queues (fixes_hold item)).ok hhold) hchannels
    (fun _ _ => rfl) ?_
  intro r hitem
  obtain ⟨hlt, hqueued, hhands, hwaits⟩ := h.in_hands (hmem r hitem)
  exact ⟨hlt, by omega, fun hpos => by omega, fun _ => hwaits, fun hne => absurd rfl hne⟩

lemma holdAll_placed (h : Placed hands w) (hmem : ∀ r, .request r ∈ items → 0 < hands r)
    (hhold : holdAll items w = .ok u w') : Placed hands w' := by
  induction items generalizing w with
  | nil =>
    cases hhold
    exact h
  | cons item items ih =>
    obtain ⟨_, w₁, hfirst, hrest⟩ := bind_eq_ok.1 hhold
    refine ih (hold_placed h (fun r hitem => hmem r ?_) hfirst) (fun r hr => hmem r ?_) hrest
    · rw [hitem]
      exact List.mem_cons_self
    · exact List.mem_cons_of_mem _ hr

/-- An item that was in someone's hands is given back to the program. -/
lemma intoItem_placed (h : Placed (fun r => hands r + timesIn [item] r) w)
    (hinto : item.intoItem w = .ok u w') : Placed hands w' := by
  have hchannels : w'.channels = w.channels :=
    congrArg Books.channels ((fixes_books (fixes_intoItem item)).ok hinto)
  exact h.give (p := fun parent => parent) (intoItem_ledger hinto)
    ((fixes_queues (fixes_intoItem item)).ok hinto) hchannels

/-- An item that was in someone's hands is linked. -/
lemma linkItem_placed {this channel : ChannelId} (hchannel : channel < w.channels)
    (h : Placed (fun r => hands r + timesIn [item] r) w)
    (hlink : linkItem this channel item w = .ok u w') : Placed hands w' := by
  rcases item with r | event
  · exact sendLocked_placed hchannel h hlink
  · exact sendEventLocked_placed hchannel h hlink

/-- Another request that nobody owns is left when an item is linked. -/
lemma linkItem_entry {this channel : ChannelId} (hne : item ≠ .request r)
    (hlink : linkItem this channel item w = .ok u w') : w'.ledger.entry r = w.ledger.entry r := by
  rcases item with r' | event
  · have hne' : r ≠ r' := by
      rintro rfl
      exact hne rfl
    rw [sendLocked_ledger hlink]
    split
    · rw [entry_set_of_ne _ _ hne']
    · rw [entry_set_of_ne _ _ hne']
  · rw [((writes_sendEventLocked channel event).ledger (by decide)).ok hlink]

lemma timesIn_pos (h : .request r ∈ items) : 0 < timesIn items r :=
  List.countP_pos_iff.2 ⟨_, h, LinkItem.isRequest_self r⟩

lemma mem_of_timesIn_pos (h : 0 < timesIn items r) : .request r ∈ items := by
  obtain ⟨item, hmem, hitem⟩ := List.countP_pos_iff.1 h
  rcases item with r' | event
  · rw [LinkItem.isRequest, decide_eq_true_iff] at hitem
    rwa [hitem] at hmem
  · cases hitem

/-- A batch is what comes first in the queue, as far as there is room. -/
lemma closeBatch_ok {room : ℕ} (h : closeBatch c room w = .ok items w') :
    items = (w.queues c).take room ∧
      w'.queues = Function.update w.queues c ((w.queues c).drop room) := by
  induction room generalizing w items with
  | zero =>
    cases h
    exact ⟨rfl, (Function.update_eq_self _ _).symm⟩
  | succ room ih =>
    rcases closeBatch_succ h with ⟨rfl, rfl, hqueue⟩ | ⟨item, rest, w₁, items', rfl, htakes, hmore⟩
    · rw [hqueue]
      refine ⟨rfl, ?_⟩
      rw [List.drop_nil, ← hqueue, Function.update_eq_self]
    · obtain ⟨hitems, hqueues'⟩ := ih hmore
      rw [htakes.queues, Function.update_self] at hitems hqueues'
      rw [htakes.queue, hitems, hqueues', Function.update_idem]
      exact ⟨rfl, rfl⟩

lemma takeBatch_ok_queues (h : takeBatch c w = .ok items w') :
    items = (w.queues c).take batchSize ∧
      w'.queues = Function.update w.queues c ((w.queues c).drop batchSize) := by
  obtain ⟨w₁, hbatch, hhold⟩ := takeBatch_ok h
  rw [(fixes_queues (fixes_holdAll items)).ok hhold]
  exact closeBatch_ok hbatch

/-- A batch that was taken is in the hands of the call. -/
lemma takeBatch_placed (h : Placed hands w) (hc : c < w.channels)
    (hbatch : takeBatch c w = .ok items w') : Placed (fun r => hands r + timesIn items r) w' := by
  obtain ⟨w₁, hclose, hhold⟩ := takeBatch_ok hbatch
  refine holdAll_placed (closeBatch_placed h hc hclose) (fun r hr => ?_) hhold
  exact Nat.add_pos_right _ (timesIn_pos hr)

/-- The entries of a batch lose their parents, and the program owns them. -/
lemma closeBatch_entry {room : ℕ} (h : closeBatch c room w = .ok items w') (r : RequestId) :
    (.request r ∉ items → w'.ledger.entry r = w.ledger.entry r) ∧ (.request r ∈ items →
      w'.ledger.entry r = { w.ledger.entry r with owner := .request, parent := none }) := by
  induction room generalizing w items with
  | zero =>
    cases h
    exact ⟨fun _ => rfl, fun hmem => absurd hmem List.not_mem_nil⟩
  | succ room ih =>
    rcases closeBatch_succ h with ⟨rfl, rfl, -⟩ | ⟨item, rest, w₁, items', rfl, htakes, hmore⟩
    · exact ⟨fun _ => rfl, fun hmem => absurd hmem List.not_mem_nil⟩
    · have hledger₁ := htakes.ledger
      obtain ⟨hother, hsame⟩ := ih hmore
      have hentry : item ≠ .request r ∧ w₁.ledger.entry r = w.ledger.entry r ∨
          item = .request r ∧
            w₁.ledger.entry r = { w.ledger.entry r with owner := .request, parent := none } := by
        rw [hledger₁]
        by_cases hitem : item = .request r
        · right
          rw [hitem]
          exact ⟨rfl, entry_set_self _ _ _⟩
        · exact Or.inl ⟨hitem, amend_entry_of_ne _ _ hitem⟩
      constructor
      · intro hnot
        rw [List.mem_cons, not_or] at hnot
        rw [hother hnot.2]
        exact (hentry.resolve_right fun hor => hnot.1 hor.1.symm).2
      · intro hmem
        by_cases hrest : .request r ∈ items'
        · rw [hsame hrest]
          rcases hentry with ⟨-, heq⟩ | ⟨-, heq⟩
          · rw [heq]
          · rw [heq]
        · have hitem := (List.mem_cons.1 hmem).resolve_right hrest
          rw [hother hrest]
          exact (hentry.resolve_left fun hor => hor.1 hitem.symm).2

/-- The entries of a batch that was taken have neither an owner nor a parent any more. -/
lemma takeBatch_entry (h : takeBatch c w = .ok items w') (r : RequestId) :
    (.request r ∉ items → w'.ledger.entry r = w.ledger.entry r) ∧ (.request r ∈ items →
      w'.ledger.entry r = { w.ledger.entry r with owner := .none, parent := none }) := by
  obtain ⟨w₁, hclose, hhold⟩ := takeBatch_ok h
  obtain ⟨hother, hsame⟩ := closeBatch_entry hclose r
  obtain ⟨hother', hsame'⟩ := holdAll_entry hhold r
  constructor
  · intro hnot
    rw [hother' hnot, hother hnot]
  · intro hmem
    rw [hsame' hmem, hsame hmem]

end Hold

/-! ## What calls leave -/

section Leaves

variable {w w' : World C} {hands : RequestId → ℕ} {extra : ChannelId → ℕ} {out : Output C}

/-- What is taken out of a queue, and given to the program, has another entry than what nobody
owns. -/
lemma Placed.entry_of_received (h : Placed hands w) {item : LinkItem C} {rest : List (LinkItem C)}
    (hc : c < w.channels) (hqueue : w.queues c = item :: rest) {f : Entry C → Entry C}
    (hledger : w'.ledger = w.ledger.amend item f) (howner : (w.ledger.entry r).owner = .none) :
    w'.ledger.entry r = w.ledger.entry r := by
  rw [hledger]
  refine amend_entry_of_ne _ _ ?_
  rintro rfl
  have hmem : .request r ∈ w.queues c := hqueue ▸ List.mem_cons_self
  rw [(h.of_mem hc hmem).2.2.1] at howner
  cases howner

lemma pollRecv_entry {waker : Waker} {out : Poll (Option (LinkItem C))} (h : Placed hands w)
    (hc : c < w.channels) (howner : (w.ledger.entry r).owner = .none)
    (hpoll : pollRecv c waker w = .ok out w') : w'.ledger.entry r = w.ledger.entry r := by
  rcases pollRecv_cases hpoll with ⟨-, rfl⟩ | ⟨-, rfl⟩ | ⟨item, rest, -, htakes⟩
  · rfl
  · rfl
  · exact h.entry_of_received hc htakes.queue htakes.ledger howner

lemma tryRecv_entry {out : Option (LinkItem C)} (h : Placed hands w) (hc : c < w.channels)
    (howner : (w.ledger.entry r).owner = .none) (hrecv : tryRecv c w = .ok out w') :
    w'.ledger.entry r = w.ledger.entry r := by
  obtain ⟨link, w₁, hpop, hrest⟩ := bind_eq_ok.1 hrecv
  have hledger₁ := ((writes_popFront c).ledger (by decide)).ok hpop
  rcases popFront_ok hpop with ⟨rfl, rfl, -⟩ | ⟨item, rest, rfl, hqueue, -⟩
  · cases hrest
    rfl
  · obtain ⟨_, hinto, rfl⟩ := bind_pure_ok hrest
    have hledger : w'.ledger = w.ledger.amend item fun e => { e with owner := .request } := by
      rw [intoItem_ledger hinto, hledger₁]
    exact h.entry_of_received hc hqueue hledger howner

/-- The entry of a request that nobody owns is left by every call of one lock at most. -/
lemma Call.exec_entry {call : Call C} (hatomic : call.Atomic) (hallowed : call.Allowed w)
    (hsound : Sound extra w) (h : Placed hands w) (hr : r < w.requests)
    (howner : (w.ledger.entry r).owner = .none) (hexec : call.exec w = .ok out w') :
    w'.ledger.entry r = w.ledger.entry r := by
  have hleaves : call.LeavesLedger → w'.ledger.entry r = w.ledger.entry r := fun hleaves => by
    rw [(fixes_ledger_exec hleaves).ok hexec]
  have hreceiver : ∀ {c}, w.receiver c = true → c < w.channels := fun hc =>
    (Books.Sound.loose hsound hc).lt
  have hnew : ∀ {msg : C.Parameters} {receivers : ℕ} {u : Unit} {w₁ : World C},
      newRequest msg receivers w = .ok u w₁ → w₁.ledger.entry r = w.ledger.entry r := by
    intro msg receivers u w₁ hnew
    cases hnew
    exact congrArg SharedRequest.entry (Function.update_of_ne (Nat.ne_of_lt hr) _ _)
  -- a call about a request is about one that somebody owns
  have hsubject : ∀ {r' owner}, call.subject = some (r', owner) →
      (w.ledger.entry r').owner = owner → w'.ledger.entry r = w.ledger.entry r := by
    intro r' owner hsubject howner'
    have hsome := (Call.subject_owner hsubject).1
    rw [← howner'] at hsome
    have hne : r ≠ r' := by
      rintro rfl
      exact hsome howner
    rw [(Call.subject_ledger hsubject ((h.entry r').owned hsome) hexec).1, entry_set_of_ne _ _ hne]
  cases call with
  | channel | cloneSender s | dropSender s | pollClosed c waker | cloneTracker t | dropTracker t
  | build t key =>
    exact hleaves trivial
  | broken err =>
    have hparts : ∀ p ∈ ledgerParts, p ∉ [Part.channels, .parentRequest] := by decide
    rw [((Call.writes_exec (.broken err)).ledger hparts).ok hexec]
  | pollRecv c waker =>
    obtain ⟨result, w₁, hpoll, hpure⟩ := bind_eq_ok.1 hexec
    cases hpure
    exact pollRecv_entry h (hreceiver hallowed) howner hpoll
  | tryRecv c =>
    obtain ⟨item, hrecv, rfl⟩ := bind_pure_ok hexec
    exact tryRecv_entry h (hreceiver hallowed) howner hrecv
  | requestResponse msg | requestPipeline msg | requestResponsePipeline msg =>
    cases hexec
    exact hnew rfl
  | dropRequest r' | respond r' | responderRespond r' resp | tailCall r' msg | setPipeline r' dst
  | dropResponder r' | resultsSenderRespond r' resp | dropResultsSender r' =>
    exact hsubject rfl hallowed
  | _ => exact hatomic.elim

end Leaves

/-! ## Hands -/

/-- The items that a thread has in its hands; its next step is about the first one of them. -/
def Thread.items : Thread C → List (LinkItem C)
  | resolving item _ => [item]
  | locking item _ => [item]
  | locked item _ _ => [item]
  | answering _ _ items _ => items
  | _ => []

/-- The locks that `forward_to` takes are those of two channels. -/
def Thread.Distinct (address : ChannelId → ℕ) : Thread C → Prop
  | lockingA self otherShared _ => address self ≠ address otherShared
  | lockingB self otherShared _ => address self ≠ address otherShared
  | lockedBoth self otherShared _ => address self ≠ address otherShared
  | _ => True

namespace Machine

variable {address : ChannelId → ℕ} {m m' : Machine C} {t : ThreadId} {others : RequestId → ℕ}

lemma thread_goto (m : Machine C) (t : ThreadId) (now : Thread C) : (m.goto t now).thread t = now :=
  Function.update_self ..

/-- The channels that `forward_to` locks stay two. -/
lemma Step.distinct (hdistinct : (m.thread t).Distinct address) (hstep : Step address t m m') :
    (m'.thread t).Distinct address := by
  cases hstep with
  | call hidle =>
    show (m.thread t).Distinct address
    rw [hidle]
    trivial
  | target ht hnone hne =>
    rw [thread_goto]
    exact hne
  | lockA ht hfree | lockB ht hfree | followBoth ht hforwarded =>
    rw [ht] at hdistinct
    rw [thread_goto]
    exact hdistinct
  | @targetEnded self other this res ht hended | @bothEnded self otherShared this res ht hended =>
    rw [thread_goto]
    cases res <;> trivial
  | _ =>
    rw [thread_goto]
    trivial

/-- **What a step does to the places**: what the thread has in its hands changes, and what the
others have is what it was. -/
theorem Step.places (hvalid : m.Valid address) (hdistinct : (m.thread t).Distinct address)
    (h : Placed (fun r => others r + timesIn (m.thread t).items r) m.world)
    (hheld : ∀ r, (m.world.ledger.entry r).owner ≠ .none →
      others r + timesIn (m.thread t).items r = 0) (hstep : Step address t m m') :
    Placed (fun r => others r + timesIn (m'.thread t).items r) m'.world := by
  have hfits := hvalid.fits t
  have hself : ∀ {c}, (m.thread t).receiver = some c → c < m.world.channels := fun hc =>
    (hvalid.loose hc).lt
  cases hstep with
  | @call call out w hidle hatomic hallowed hlocks hexec =>
    exact Call.exec_placed hallowed hvalid.sound h hheld hexec
  | @send s self req w hidle hs howner hexec =>
    rw [thread_goto]
    rw [hidle] at h hheld
    have hzero := hheld req (by rw [show (m.world.ledger.entry req).owner = .request from howner]; nofun)
    have hhold : (LinkItem.request req : LinkItem C).hold m.world = .ok () w := hexec
    refine hold_placed (Placed.take h howner hzero) (fun r hitem => ?_) hhold
    rw [← LinkItem.request.inj hitem]
    exact Nat.add_pos_right _ (timesIn_pos (List.mem_singleton_self _))
  | sendEvent hidle hs =>
    rw [thread_goto]
    rw [hidle] at h
    exact h
  | found ht hnone | follow ht hforwarded =>
    rw [ht] at h
    rw [thread_goto]
    exact h
  | @refuse item this res w ht hended hexec =>
    rw [ht] at h
    rw [thread_goto]
    exact intoItem_placed h hexec
  | lock ht hfree | followLocked ht hforwarded =>
    rw [ht] at h
    rw [thread_goto]
    exact h
  | refuseLocked ht hended hexec =>
    rw [ht] at h
    rw [thread_goto]
    exact intoItem_placed h hexec
  | link ht hnone hexec =>
    rw [ht] at h hfits
    rw [thread_goto]
    exact linkItem_placed hfits.1 h hexec
  | forwardTo hidle hreceiver hs hexec =>
    rw [hidle] at h
    rw [thread_goto]
    cases hexec
    exact h.rest rfl rfl (Nat.le_refl _)
  | target ht hnone hne | followTarget ht hforwarded =>
    rw [ht] at h
    rw [thread_goto]
    exact h
  | @targetEnded self other this res ht hended =>
    rw [ht] at h
    rw [thread_goto]
    cases res <;> exact h
  | targetSelf ht hnone heq hexec =>
    rw [ht] at h
    rw [thread_goto]
    cases hexec
    exact h.rest rfl rfl (Nat.le_refl _)
  | lockA ht hfree | lockB ht hfree | followBoth ht hforwarded =>
    rw [ht] at h
    rw [thread_goto]
    exact h
  | @bothEnded self otherShared this res ht hended =>
    rw [ht] at h
    rw [thread_goto]
    cases res <;> exact h
  | @splice self otherShared this w ht hnone hexec =>
    rw [ht] at h hfits hdistinct
    rw [thread_goto]
    have hne : otherShared ≠ self := fun heq => hdistinct (congrArg address heq.symm)
    exact forwardLocked_placed hvalid.sound (hself (by rw [ht]; rfl)) hfits.1 hne h hexec
  | dropReceiver hidle hreceiver hexec =>
    rw [hidle] at h
    rw [thread_goto]
    cases hexec
    exact h.rest rfl rfl (Nat.le_refl _)
  | dropped ht hexec =>
    rw [ht] at h
    rw [thread_goto]
    exact dropReceiver_placed h hexec
  | close hidle hreceiver hexec =>
    rw [hidle] at h
    rw [thread_goto]
    cases hexec
    exact h.rest rfl rfl (Nat.le_refl _)
  | closeLocked ht hfree hexec =>
    rw [ht] at h
    rw [thread_goto]
    exact closeLocked_placed hvalid.sound h hexec
  | @drain self err items w ht hexec =>
    rw [ht] at h hfits
    rw [thread_goto]
    show Placed (fun r => others r + timesIn items.reverse r) w
    rw [timesIn_reverse]
    exact takeBatch_placed h hfits.1 hexec
  | @answer self err item items last w ht hlocks hexec =>
    rw [ht] at h
    rw [thread_goto]
    have hcons : (fun r => others r + timesIn (item :: items) r)
        = fun r => others r + timesIn items r + timesIn [item] r := by
      funext r
      rw [timesIn_cons, Nat.add_assoc]
    exact respondWithErr_placed (hcons ▸ h : Placed _ m.world) hexec
  | answered ht | relock ht hfree =>
    rw [ht] at h
    rw [thread_goto]
    exact h
  | closed ht hexec =>
    rw [ht] at h
    rw [thread_goto]
    exact dropReceiver_placed h hexec

/-- A step leaves a request that nobody owns, if it is not about it. -/
theorem Step.entry (hvalid : m.Valid address) {hands : RequestId → ℕ} (h : Placed hands m.world)
    (hr : r < m.world.requests) (howner : (m.world.ledger.entry r).owner = .none)
    (hitem : (m.thread t).items.head? ≠ some (.request r)) (hstep : Step address t m m') :
    m'.world.ledger.entry r = m.world.ledger.entry r := by
  have hfits := hvalid.fits t
  have hapart : ∀ {w : World C}, w.ledger = m.world.ledger →
      w.ledger.entry r = m.world.ledger.entry r := fun heq => by rw [heq]
  -- the item that the thread has in its hands is another one
  have hne : ∀ {item : LinkItem C} {items : List (LinkItem C)}, (m.thread t).items = item :: items →
      item ≠ .request r := fun hitems heq => hitem (by rw [hitems, heq]; rfl)
  cases hstep with
  | @call call out w hidle hatomic hallowed hlocks hexec =>
    exact Call.exec_entry hatomic hallowed hvalid.sound h hr howner hexec
  | @send s self req w hidle hs howner' hexec =>
    have hne' : r ≠ req := by
      rintro rfl
      rw [show (m.world.ledger.entry r).owner = .request from howner'] at howner
      cases howner
    show w.ledger.entry r = _
    rw [setOwner_ledger hexec, entry_set_of_ne _ _ hne']
  | @refuse item this res w ht hended hexec
  | @refuseLocked item channel this res w ht hended hexec =>
    show w.ledger.entry r = _
    rw [intoItem_ledger hexec]
    exact amend_entry_of_ne _ _ (hne (by rw [ht]; rfl))
  | @link item channel this w ht hnone hexec => exact linkItem_entry (hne (by rw [ht]; rfl)) hexec
  | forwardTo hidle hreceiver hs hexec | targetSelf ht hnone heq hexec =>
    cases hexec
    rfl
  | splice ht hnone hexec =>
    exact hapart (((writes_forwardLocked _ _ _).ledger (by decide)).ok hexec)
  | dropReceiver hidle hreceiver hexec =>
    cases hexec
    rfl
  | dropped ht hexec => exact hapart (((writes_dropReceiver _).ledger (by decide)).ok hexec)
  | close hidle hreceiver hexec =>
    cases hexec
    rfl
  | closeLocked ht hfree hexec =>
    exact hapart (((writes_closeLocked _ _).ledger (by decide)).ok hexec)
  | @drain self err items w ht hexec =>
    rw [ht] at hfits
    refine (takeBatch_entry hexec r).1 fun hmem => ?_
    -- what waits in a queue is the channel's
    rw [(takeBatch_ok_queues hexec).1] at hmem
    rw [(h.of_mem hfits.1 (List.mem_of_mem_take hmem)).2.2.1] at howner
    cases howner
  | @answer self err item items last w ht hlocks hexec =>
    show w.ledger.entry r = _
    rw [respondWithErr_ledger hexec]
    exact amend_entry_of_ne _ _ (hne (by rw [ht]; rfl))
  | closed ht hexec => exact hapart (((writes_dropReceiver _).ledger (by decide)).ok hexec)
  | _ => rfl

/-! ## Every request is at one place -/

/-- How often some threads have a request in their hands. -/
def hands (m : Machine C) (threads : Finset ThreadId) (r : RequestId) : ℕ :=
  ∑ t ∈ threads, timesIn (m.thread t).items r

/-- Every request is at one place, and nobody owns what is in the hands of a thread; the other
threads have nothing in their hands. -/
structure InPlace (m : Machine C) (threads : Finset ThreadId) : Prop where
  others : ∀ t ∉ threads, (m.thread t).items = []
  placed : Placed (m.hands threads) m.world
  held : ∀ {r}, 0 < m.hands threads r → (m.world.ledger.entry r).owner = .none

section InPlace

variable {threads : Finset ThreadId} {now : Thread C}

/-- One thread, and the others. -/
lemma hands_eq (m : Machine C) (ht : t ∈ threads) : m.hands threads =
    fun r => m.hands (threads.erase t) r + timesIn (m.thread t).items r := by
  funext r
  exact (Finset.sum_erase_add _ _ ht).symm

lemma hands_insert (hothers : ∀ t ∉ threads, (m.thread t).items = []) (t : ThreadId) :
    m.hands (insert t threads) = m.hands threads := by
  by_cases ht : t ∈ threads
  · rw [Finset.insert_eq_of_mem ht]
  · funext r
    unfold hands
    rw [Finset.sum_insert ht, hothers t ht]
    exact Nat.zero_add _

/-- What the other threads have in their hands they have still. -/
lemma hands_erase (h : m'.thread = Function.update m.thread t now) :
    m'.hands (threads.erase t) = m.hands (threads.erase t) := by
  funext r
  refine Finset.sum_congr rfl fun t' ht' => ?_
  rw [h, Function.update_of_ne (Finset.ne_of_mem_erase ht')]

namespace InPlace

/-- What this thread has in its hands, and what the others have. -/
lemma split (h : m.InPlace threads) (t : ThreadId) : m.hands threads =
    fun r => m.hands (threads.erase t) r + timesIn (m.thread t).items r := by
  rw [← hands_insert h.others t, hands_eq m (Finset.mem_insert_self t threads),
    Finset.erase_insert_eq_erase]

lemma hands_apply (h : m.InPlace threads) (t : ThreadId) (r : RequestId) : m.hands threads r =
    m.hands (threads.erase t) r + timesIn (m.thread t).items r :=
  congrFun (h.split t) r

lemma hands_pos (h : m.InPlace threads) (hmem : .request r ∈ (m.thread t).items) :
    0 < m.hands threads r := by
  rw [h.hands_apply t]
  exact Nat.add_pos_right _ (timesIn_pos hmem)

/-- What a thread has in its hands is on its way, and no one else has it. -/
lemma of_mem (h : m.InPlace threads) (hmem : .request r ∈ (m.thread t).items) :
    r < m.world.requests ∧ (m.world.ledger.entry r).owner = .none ∧ (m.world.ledger.entry r).Waits ∧
      timesIn (m.thread t).items r = 1 ∧ m.hands (threads.erase t) r = 0 := by
  have hpos := h.hands_pos hmem
  obtain ⟨hlt, -, hone, hwaits⟩ := h.placed.in_hands hpos
  have hmine := timesIn_pos hmem
  rw [h.hands_apply t] at hone
  exact ⟨hlt, h.held hpos, hwaits, by omega, by omega⟩

/-- One thread has a request in its hands. -/
lemma unique (h : m.InPlace threads) {t' : ThreadId} (hmem : .request r ∈ (m.thread t).items)
    (hmem' : .request r ∈ (m.thread t').items) : t' = t := by
  by_contra hne
  have hthread : t' ∈ threads := by
    by_contra hnot
    rw [h.others t' hnot] at hmem'
    exact absurd hmem' List.not_mem_nil
  have hle : timesIn (m.thread t').items r ≤ m.hands (threads.erase t) r :=
    Finset.single_le_sum (f := fun t' => timesIn (m.thread t').items r) (fun _ _ => Nat.zero_le _)
      (Finset.mem_erase.2 ⟨hne, hthread⟩)
  have hzero := (h.of_mem hmem).2.2.2.2
  have hpos := timesIn_pos hmem'
  omega

/-- The first item that a thread has in its hands is none of the others. -/
lemma head_ne (h : m.InPlace threads) {item : LinkItem C} {items : List (LinkItem C)}
    (hitems : (m.thread t).items = item :: items) (hmem : .request r ∈ items) :
    item ≠ .request r := by
  rintro rfl
  have hone := (h.of_mem (t := t) (r := r) (by rw [hitems]; exact List.mem_cons_self)).2.2.2.1
  rw [hitems, timesIn_cons] at hone
  have hpos : 0 < timesIn items r := timesIn_pos hmem
  have hmine := timesIn_request (C := C) r
  omega

end InPlace

/-- What a thread has in its hands after a step has no owner. -/
lemma Step.held (h : m.InPlace threads) (hstep : Step address t m m')
    (hmem : .request r ∈ (m'.thread t).items) : (m'.world.ledger.entry r).owner = .none := by
  have hkept : .request r ∈ (m.thread t).items → (m.world.ledger.entry r).owner = .none := fun hmem =>
    (h.of_mem hmem).2.1
  cases hstep with
  | call hidle hatomic hallowed hlocks hexec =>
    have hnone : (m.thread t).items = [] := by rw [hidle]; rfl
    have hmem' : .request r ∈ (m.thread t).items := hmem
    rw [hnone] at hmem'
    exact absurd hmem' List.not_mem_nil
  | @send s self req w hidle hs howner hexec =>
    rw [thread_goto] at hmem
    have hr := LinkItem.request.inj (List.mem_singleton.1 hmem)
    show (w.ledger.entry r).owner = .none
    rw [hr, setOwner_ledger hexec, entry_set_self]
  | found ht hnone | follow ht hforwarded | lock ht hfree | followLocked ht hforwarded =>
    rw [thread_goto] at hmem
    exact hkept (by rw [ht]; exact hmem)
  | @drain self err items w ht hexec =>
    rw [thread_goto] at hmem
    show (w.ledger.entry r).owner = .none
    rw [(takeBatch_entry hexec r).2 (List.mem_reverse.1 hmem)]
  | @answer self err item items last w ht hlocks hexec =>
    rw [thread_goto] at hmem
    have hbefore : .request r ∈ (m.thread t).items := by
      rw [ht]
      exact List.mem_cons_of_mem _ hmem
    have hne : item ≠ .request r := h.head_ne (by rw [ht]; rfl) hmem
    show (w.ledger.entry r).owner = .none
    rw [respondWithErr_ledger hexec, amend_entry_of_ne _ _ hne]
    exact hkept hbefore
  | @targetEnded self other this res ht hended | @bothEnded self otherShared this res ht hended =>
    rw [thread_goto] at hmem
    cases res <;> exact absurd hmem List.not_mem_nil
  | sendEvent hidle hs =>
    rw [thread_goto] at hmem
    cases List.mem_singleton.1 hmem
  | _ =>
    rw [thread_goto] at hmem
    exact absurd hmem List.not_mem_nil

theorem Step.inPlace (hvalid : m.Valid address) (hdistinct : (m.thread t).Distinct address)
    (h : m.InPlace threads) (hstep : Step address t m m') : m'.InPlace (insert t threads) := by
  obtain ⟨now, heffect⟩ := Step.effect hvalid hstep
  have hsplit := h.split t
  have hplaced := h.placed
  rw [hsplit] at hplaced
  have hheld : ∀ r, (m.world.ledger.entry r).owner ≠ .none →
      m.hands (threads.erase t) r + timesIn (m.thread t).items r = 0 := by
    intro r howner
    rw [← h.hands_apply t]
    exact Nat.eq_zero_of_not_pos fun hpos => howner (h.held hpos)
  have hplaced' := Step.places hvalid hdistinct hplaced hheld hstep
  have hsplit' : m'.hands (insert t threads) =
      fun r => m.hands (threads.erase t) r + timesIn (m'.thread t).items r := by
    rw [hands_eq m' (Finset.mem_insert_self t threads), Finset.erase_insert_eq_erase,
      hands_erase heffect.thread]
  refine ⟨fun t' ht' => ?_, hsplit' ▸ hplaced', fun {r} hpos => ?_⟩
  · rw [Finset.mem_insert, not_or] at ht'
    rw [heffect.thread, Function.update_of_ne ht'.1]
    exact h.others t' ht'.2
  · have hpos' : 0 < m.hands (threads.erase t) r + timesIn (m'.thread t).items r := by
      rw [← congrFun hsplit' r]
      exact hpos
    by_cases hmine : 0 < timesIn (m'.thread t).items r
    · exact Step.held h hstep (mem_of_timesIn_pos hmine)
    · -- another thread has it in its hands, and this step is not about it
      have hother : 0 < m.hands (threads.erase t) r := by omega
      have hbefore : 0 < m.hands threads r := by
        rw [h.hands_apply t]
        exact Nat.add_pos_left hother _
      have hitem : (m.thread t).items.head? ≠ some (.request r) := by
        intro hhead
        have hzero := (h.of_mem (List.mem_of_mem_head? hhead)).2.2.2.2
        omega
      rw [Step.entry hvalid h.placed (h.placed.in_hands hbefore).1 (h.held hbefore) hitem hstep]
      exact h.held hbefore

lemma inPlace_start : (start : Machine C).InPlace ∅ where
  others _ _ := rfl
  placed := placed_empty
  held hpos := absurd hpos (Nat.lt_irrefl 0)

/-- **Every request is at one place** in every machine that is reached. -/
theorem Reached.inPlace {ok : Machine C → ThreadId → Prop} (h : Reached address ok m) :
    (∀ t, (m.thread t).Distinct address) ∧ ∃ threads, m.InPlace threads := by
  refine h.invariant (p := fun m => (∀ t, (m.thread t).Distinct address) ∧ ∃ threads, m.InPlace threads)
    ⟨fun _ => trivial, ∅, inPlace_start⟩ ?_
  rintro m m' t hreached ⟨hdistinct, threads, hplaced⟩ - hstep
  have hvalid := hreached.valid
  refine ⟨fun t' => ?_, _, Step.inPlace hvalid (hdistinct t) hplaced hstep⟩
  obtain ⟨now, heffect⟩ := Step.effect hvalid hstep
  by_cases ht : t' = t
  · rw [ht]
    exact Step.distinct (hdistinct t) hstep
  · rw [heffect.thread, Function.update_of_ne ht]
    exact hdistinct t'

/-- **No request is in two places**, whatever the order of the steps: all queues and the hands of all
threads have it at most once, and it is not answered while they do. -/
theorem Reached.onePlace {ok : Machine C → ThreadId → Prop} (h : Reached address ok m)
    (threads : Finset ThreadId) (r : RequestId) :
    m.world.timesQueued r + m.hands threads r ≤ 1 ∧
      (0 < m.world.timesQueued r + m.hands threads r → (m.world.request r).response = none) := by
  obtain ⟨-, all, hplaced⟩ := h.inPlace
  -- the other threads have nothing
  have hle : m.hands threads r ≤ m.hands all r := by
    refine Finset.sum_le_sum_of_ne_zero fun t _ hne => ?_
    by_contra ht
    rw [hplaced.others t ht] at hne
    exact hne rfl
  have hentry := hplaced.placed.entry r
  have honce := hentry.once
  exact ⟨by omega, fun hpos => (hentry.waits (Or.inl (by omega))).2⟩

/-- A request on its way to a channel. -/
theorem Reached.onePlace_sent : ∃ m : Machine unitChan, m.hands {0} 0 = 1 ∧
    m.world.timesQueued 0 + m.hands {0} 0 ≤ 1 ∧
      (0 < m.world.timesQueued 0 + m.hands {0} 0 → (m.world.request 0).response = none) := by
  have h : Reached id (fun _ _ => True) (start : Machine unitChan) := reached_start
  replace h := h.step trivial (@Step.call _ id 0 _ .channel (.sender 0) _ rfl trivial trivial
    (fun _ h => h.elim) rfl)
  replace h := h.step trivial (@Step.call _ id 0 _ (.requestResponse ()) .unit _ rfl trivial trivial
    (fun _ h => h.elim) rfl)
  replace h := h.step trivial (@Step.send _ id 0 _ 0 ⟨0⟩ 0 _ rfl rfl rfl rfl)
  exact ⟨_, rfl, Reached.onePlace h {0} 0⟩

end InPlace

end Machine

end Recapn.Channel

/-
# Who holds what

The books of a world say of every channel how many senders it counts, what it was resolved to and
whether it waits for its receiver, and who holds senders and receivers.  They are sound when every
sender is counted and only channels that are not resolved have a receiver.  Whatever a program
does, they stay sound.
-/
import Mathlib.Data.Finset.Card
import Mathlib.Data.Finset.Range
import Recapn.Channel.Calls

namespace Recapn.Channel

open Recapn.Lib

/-- What is in the books of a channel. -/
structure Account (C : Chan) where
  senderCount : ℕ
  isSet : Bool
  isSendClosed : Bool
  isRecvClosed : Bool
  value : Option (ChannelResolution C)
  parentRequest : Option RequestId

/-- The books of a world. -/
structure Books (C : Chan) where
  channels : ℕ
  account : ChannelId → Account C
  freed : ChannelId → Bool
  senders : List SenderHandle
  receiver : ChannelId → Bool
  pipelines : RequestId → List ChannelId

variable {C : Chan}

namespace Account

/-- The sender that the resolution holds. -/
def held (self : Account C) : Option Sender :=
  match self.isSet, self.value with
  | true, some (.forward sender) => some sender
  | _, _ => none

/-- The channel was not forwarded, closed or dropped. -/
def Unresolved (self : Account C) : Prop := self.isSet = false ∧ self.isSendClosed = false

/-- The account with another count of senders. -/
def withCount (self : Account C) (count : ℕ) : Account C := { self with senderCount := count }

lemma Unresolved.held {self : Account C} (h : self.Unresolved) : self.held = none := by
  rw [Account.held, h.1]

end Account

/-- The account of a channel. -/
def SharedChannel.account (self : SharedChannel C) : Account C :=
  ⟨self.senderCount, self.state.isSet, self.state.isSendClosed, self.state.isRecvClosed, self.value,
    self.parentRequest⟩

/-- The books of a world. -/
def World.books (w : World C) : Books C :=
  ⟨w.channels, fun c => (w.channel c).account, w.freed, w.senders, w.receiver,
    fun r => (w.request r).pipelineMap.map Prod.snd⟩

/-- One more for a channel. -/
def plus (extra : ChannelId → ℕ) (c : ChannelId) : ChannelId → ℕ :=
  Function.update extra c (extra c + 1)

lemma plus_self (extra : ChannelId → ℕ) (c : ChannelId) : plus extra c c = extra c + 1 :=
  Function.update_self ..

lemma plus_of_ne (extra : ChannelId → ℕ) {c c' : ChannelId} (h : c' ≠ c) :
    plus extra c c' = extra c' :=
  Function.update_of_ne h ..

namespace Books

/-- The channels whose resolution holds a sender of `c`. -/
def Forwards (b : Books C) (c c' : ChannelId) : Prop :=
  b.freed c' = false ∧ (b.account c').held = some ⟨c⟩

instance (b : Books C) (c c' : ChannelId) : Decidable (b.Forwards c c') :=
  inferInstanceAs (Decidable (_ ∧ _))

/-- How many senders of a channel the program and the resolutions of channels hold. -/
def handles (b : Books C) (c : ChannelId) : ℕ :=
  b.senders.count ⟨⟨c⟩, true⟩ + ((Finset.range b.channels).filter (b.Forwards c)).card

/-- Every sender is counted, where `extra` says how many are neither held by the program nor by a
resolution.  Channels with a receiver and pipelined channels are not resolved. -/
structure Sound (b : Books C) (extra : ChannelId → ℕ) : Prop where
  count : ∀ c, (b.account c).senderCount = b.handles c + extra c
  isOpen : ∀ c, (b.account c).isRecvClosed = false
  fresh : ∀ {c}, b.channels ≤ c → (b.account c).senderCount = 0 ∧ (b.account c).Unresolved ∧
    (b.account c).parentRequest = none ∧ b.receiver c = false ∧ b.freed c = false
  receiver : ∀ {c}, b.receiver c = true →
    (b.account c).Unresolved ∧ (b.account c).parentRequest = none ∧ b.freed c = false
  pending : ∀ {c r}, (b.account c).parentRequest = some r →
    (b.account c).Unresolved ∧ b.receiver c = false
  target : ∀ {c sender}, (b.account c).held = some sender → sender.shared < b.channels
  mapped : ∀ {r c}, c ∈ b.pipelines r → (b.account c).parentRequest = some r
  nodup : ∀ r, (b.pipelines r).Nodup

/-- The receiver of a channel is in use in a call. -/
structure Loose (b : Books C) (c : ChannelId) : Prop where
  lt : c < b.channels
  unresolved : (b.account c).Unresolved
  parentRequest : (b.account c).parentRequest = none
  receiver : b.receiver c = false
  freed : b.freed c = false

/-- Write the account of a channel. -/
def set (b : Books C) (c : ChannelId) (a : Account C) : Books C :=
  { b with account := Function.update b.account c a }

variable {b : Books C} {extra extra' : ChannelId → ℕ} {c d : ChannelId}

/-! ## Writing an account -/

lemma account_set_self (b : Books C) (c : ChannelId) (a : Account C) : (b.set c a).account c = a :=
  Function.update_self ..

lemma account_set_of_ne (b : Books C) (a : Account C) (h : d ≠ c) :
    (b.set c a).account d = b.account d :=
  Function.update_of_ne h ..

/-- When the resolution holds what it held, the senders are the same. -/
lemma handles_set {a : Account C} (ha : a.held = (b.account c).held) (d : ChannelId) :
    (b.set c a).handles d = b.handles d := by
  have hforwards : ∀ x, (b.set c a).Forwards d x ↔ b.Forwards d x := by
    intro x
    unfold Forwards
    by_cases hx : x = c
    · subst hx
      rw [account_set_self, ha]
      exact Iff.rfl
    · rw [account_set_of_ne b a hx]
      exact Iff.rfl
  unfold handles
  rw [Finset.filter_congr fun x _ => hforwards x]
  rfl

/-- A set with one more element. -/
lemma card_filter_succ {n x : ℕ} {p q : ℕ → Prop} [DecidablePred p] [DecidablePred q] (hx : x < n)
    (hp : ¬ p x) (hq : q x) (h : ∀ y, y ≠ x → (q y ↔ p y)) :
    ((Finset.range n).filter q).card = ((Finset.range n).filter p).card + 1 := by
  have hinsert : (Finset.range n).filter q = insert x ((Finset.range n).filter p) := by
    ext y
    rw [Finset.mem_insert, Finset.mem_filter, Finset.mem_filter]
    by_cases hy : y = x
    · subst hy
      exact ⟨fun _ => Or.inl rfl, fun _ => ⟨Finset.mem_range.2 hx, hq⟩⟩
    · rw [h y hy]
      exact ⟨Or.inr, fun hor => hor.resolve_left hy⟩
  rw [hinsert, Finset.card_insert_of_notMem]
  intro hmem
  exact hp (Finset.mem_filter.1 hmem).2

/-- The sender that a new forward holds is one more. -/
lemma handles_set_forward {a : Account C} (hc : c < b.channels) (hfreed : b.freed c = false)
    (hold : (b.account c).held = none) (ha : a.held = some ⟨d⟩) (d' : ChannelId) :
    (b.set c a).handles d' = plus b.handles d d' := by
  have hne : ∀ x, x ≠ c → ((b.set c a).Forwards d' x ↔ b.Forwards d' x) := by
    intro x hx
    unfold Forwards
    rw [account_set_of_ne b a hx]
    exact Iff.rfl
  have hnot : ¬ b.Forwards d' c := by
    rintro ⟨-, hheld⟩
    rw [hold] at hheld
    cases hheld
  by_cases hd : d' = d
  · subst hd
    rw [plus_self]
    show b.senders.count ⟨⟨d'⟩, true⟩ +
      ((Finset.range b.channels).filter ((b.set c a).Forwards d')).card = _
    rw [card_filter_succ hc hnot ⟨hfreed, by rw [account_set_self, ha]⟩ hne, ← Nat.add_assoc]
    rfl
  · rw [plus_of_ne _ hd]
    have hforwards : ∀ x, (b.set c a).Forwards d' x ↔ b.Forwards d' x := by
      intro x
      by_cases hx : x = c
      · subst hx
        refine ⟨fun hforwards => ?_, fun hforwards => absurd hforwards hnot⟩
        obtain ⟨-, hheld⟩ := hforwards
        rw [account_set_self, ha] at hheld
        cases hheld
        exact absurd rfl hd
      · exact hne x hx
    unfold handles
    rw [Finset.filter_congr fun x _ => hforwards x]
    rfl

/-- An account that fits is written. -/
lemma Sound.set (h : b.Sound extra) (hc : c < b.channels) {a : Account C}
    (hopen : a.isRecvClosed = false)
    (hcount : ∀ d, ((b.set c a).account d).senderCount = (b.set c a).handles d + extra' d)
    (hreceiver : b.receiver c = true → a.Unresolved ∧ a.parentRequest = none)
    (hpending : ∀ r, a.parentRequest = some r → a.Unresolved ∧ b.receiver c = false)
    (htarget : ∀ sender, a.held = some sender → sender.shared < b.channels)
    (hmapped : ∀ r, c ∈ b.pipelines r → a.parentRequest = some r) : (b.set c a).Sound extra' where
  count := hcount
  isOpen d := by
    by_cases hd : d = c
    · subst hd
      rw [account_set_self, hopen]
    · rw [account_set_of_ne b a hd, h.isOpen]
  fresh {d} hd := by
    have hdc : d ≠ c := by
      rintro rfl
      exact Nat.not_lt.2 hd hc
    rw [account_set_of_ne b a hdc]
    exact h.fresh hd
  receiver {d} hd := by
    by_cases hdc : d = c
    · subst hdc
      rw [account_set_self]
      exact ⟨(hreceiver hd).1, (hreceiver hd).2, (h.receiver hd).2.2⟩
    · rw [account_set_of_ne b a hdc]
      exact h.receiver hd
  pending {d r} hr := by
    by_cases hdc : d = c
    · subst hdc
      rw [account_set_self] at hr ⊢
      exact hpending r hr
    · rw [account_set_of_ne b a hdc] at hr ⊢
      exact h.pending hr
  target {d sender} hd := by
    by_cases hdc : d = c
    · subst hdc
      rw [account_set_self] at hd
      exact htarget sender hd
    · rw [account_set_of_ne b a hdc] at hd
      exact h.target hd
  mapped {r d} hd := by
    by_cases hdc : d = c
    · subst hdc
      rw [account_set_self]
      exact hmapped r hd
    · rw [account_set_of_ne b a hdc]
      exact h.mapped hd
  nodup := h.nodup

/-! ## Senders -/

lemma Sound.lt_of_count (h : b.Sound extra) (hc : 0 < (b.account c).senderCount) :
    c < b.channels := by
  by_contra hlt
  rw [(h.fresh (Nat.not_lt.1 hlt)).1] at hc
  exact Nat.lt_irrefl 0 hc

/-- The channel of a sender that the program holds is there. -/
lemma Sound.lt_of_mem (h : b.Sound extra) (hc : ⟨⟨c⟩, true⟩ ∈ b.senders) : c < b.channels := by
  apply h.lt_of_count
  rw [h.count c, handles]
  have hpos : 0 < b.senders.count ⟨⟨c⟩, true⟩ := List.count_pos_iff.2 hc
  omega

/-- Another count is written. -/
lemma Sound.set_count (h : b.Sound extra) (hc : c < b.channels) {count : ℕ}
    (hextra : ∀ d, d ≠ c → extra' d = extra d) (hcount : count = b.handles c + extra' c) :
    (b.set c ((b.account c).withCount count)).Sound extra' := by
  refine h.set hc (h.isOpen c) (fun d => ?_) (fun hr => ?_) (fun r hr => h.pending hr)
    (fun sender hs => h.target hs) fun r hr => h.mapped hr
  · have hhandles : (b.set c ((b.account c).withCount count)).handles d = b.handles d :=
      handles_set (a := (b.account c).withCount count) rfl d
    rw [hhandles]
    by_cases hd : d = c
    · rw [hd, account_set_self b c, ← hcount]
      rfl
    · rw [account_set_of_ne _ _ hd, h.count, hextra d hd]
  · obtain ⟨hunresolved, hparent, -⟩ := h.receiver hr
    exact ⟨hunresolved, hparent⟩

/-- `ResolutionState::add_sender`. -/
def addSender (b : Books C) (c : ChannelId) : Books C :=
  b.set c ((b.account c).withCount ((b.account c).senderCount + 1))

/-- `ResolutionState::remove_sender` of a sender that was counted. -/
def removeSender (b : Books C) (c : ChannelId) : Books C :=
  b.set c ((b.account c).withCount ((b.account c).senderCount - 1))

theorem Sound.addSender (h : b.Sound extra) (hc : c < b.channels) :
    (b.addSender c).Sound (plus extra c) := by
  refine h.set_count hc (fun d hd => plus_of_ne extra hd) ?_
  rw [plus_self, h.count, Nat.add_assoc]

lemma Sound.count_pos (h : b.Sound (plus extra c)) : 0 < (b.account c).senderCount := by
  rw [h.count, plus_self]
  exact Nat.succ_pos _

theorem Sound.removeSender (h : b.Sound (plus extra c)) : (b.removeSender c).Sound extra := by
  refine h.set_count (h.lt_of_count h.count_pos) (fun d hd => (plus_of_ne extra hd).symm) ?_
  rw [h.count, plus_self, ← Nat.add_assoc, Nat.add_sub_cancel]

/-- What the program holds changes, and the accounts do not. -/
lemma Sound.withSenders (h : b.Sound extra) {senders : List SenderHandle}
    (hcount : ∀ c, senders.count ⟨⟨c⟩, true⟩ + extra' c = b.senders.count ⟨⟨c⟩, true⟩ + extra c) :
    ({ b with senders := senders } : Books C).Sound extra' where
  count c := by
    have hold := h.count c
    have hc := hcount c
    unfold handles at hold
    show (b.account c).senderCount = senders.count ⟨⟨c⟩, true⟩ + ((Finset.range b.channels).filter
      (b.Forwards c)).card + extra' c
    omega
  isOpen := h.isOpen
  fresh := h.fresh
  receiver := h.receiver
  pending := h.pending
  target := h.target
  mapped := h.mapped
  nodup := h.nodup

/-- The program holds a new sender. -/
theorem Sound.holdSender (h : b.Sound (plus extra c)) :
    ({ b with senders := b.senders ++ [⟨⟨c⟩, true⟩] } : Books C).Sound extra := by
  refine h.withSenders fun d => ?_
  rw [List.count_append]
  by_cases hd : d = c
  · subst hd
    rw [plus_self, List.count_singleton_self]
    omega
  · have hne : ¬ ((⟨⟨c⟩, true⟩ : SenderHandle) == ⟨⟨d⟩, true⟩) = true := by
      simpa using Ne.symm hd
    rw [plus_of_ne _ hd, List.count_singleton, if_neg hne, Nat.add_zero]

/-- The program holds a sender no more. -/
theorem Sound.releaseSender (h : b.Sound extra) {s : SenderId}
    (hs : b.senders[s]? = some ⟨⟨c⟩, true⟩) :
    ({ b with senders := b.senders.set s ⟨⟨c⟩, false⟩ } : Books C).Sound (plus extra c) := by
  obtain ⟨hlt, hget⟩ := List.getElem?_eq_some_iff.1 hs
  refine h.withSenders fun d => ?_
  have hne : ¬ ((⟨⟨c⟩, false⟩ : SenderHandle) == ⟨⟨d⟩, true⟩) = true := by simp
  rw [List.count_set hlt, hget, if_neg hne, Nat.add_zero]
  by_cases hd : d = c
  · subst hd
    have hpos : 0 < b.senders.count ⟨⟨d⟩, true⟩ :=
      List.count_pos_iff.2 (List.mem_of_getElem? hs)
    rw [plus_self, if_pos (beq_self_eq_true _)]
    omega
  · have hne : ¬ ((⟨⟨c⟩, true⟩ : SenderHandle) == ⟨⟨d⟩, true⟩) = true := by
      simpa using Ne.symm hd
    rw [plus_of_ne _ hd, if_neg hne, Nat.sub_zero]

/-- The program holds another sender in the place of one. -/
theorem Sound.replaceSender (h : b.Sound (plus extra d)) {s : SenderId}
    (hs : b.senders[s]? = some ⟨⟨c⟩, true⟩) :
    ({ b with senders := b.senders.set s ⟨⟨d⟩, true⟩ } : Books C).Sound (plus extra c) := by
  obtain ⟨hlt, hget⟩ := List.getElem?_eq_some_iff.1 hs
  refine h.withSenders fun x => ?_
  have hbeq : ∀ {y}, ((⟨⟨y⟩, true⟩ : SenderHandle) == ⟨⟨x⟩, true⟩) = true ↔ x = y := by
    intro y
    rw [beq_iff_eq, SenderHandle.mk.injEq, Sender.mk.injEq]
    exact ⟨fun h => h.1.symm, fun h => ⟨h.symm, rfl⟩⟩
  have hpos : x = c → 0 < b.senders.count ⟨⟨x⟩, true⟩ := by
    rintro rfl
    exact List.count_pos_iff.2 (List.mem_of_getElem? hs)
  rw [List.count_set hlt, hget]
  simp only [hbeq]
  by_cases hc : x = c
  · have hpos := hpos hc
    by_cases hd : x = d
    · rw [if_pos hc, if_pos hd, ← hc, ← hd, plus_self]
      omega
    · rw [if_pos hc, if_neg hd, ← hc, plus_self, plus_of_ne _ hd]
      omega
  · by_cases hd : x = d
    · rw [if_neg hc, if_pos hd, ← hd, plus_self, plus_of_ne _ hc]
      omega
    · rw [if_neg hc, if_neg hd, plus_of_ne _ hc, plus_of_ne _ hd]
      rfl

/-! ## Resolving -/

/-- `ResolutionState::resolve`, and `Receiver::drop` after it. -/
def resolve (b : Books C) (c : ChannelId) (value : ChannelResolution C) : Books C :=
  b.set c { b.account c with isSet := true, value := some value }

/-- `ResolutionState::close_receiver`. -/
def closeReceiver (b : Books C) (c : ChannelId) : Books C :=
  b.set c { b.account c with isSendClosed := true }

/-- The channel of a receiver in use may come to anything. -/
lemma Sound.set_loose (h : b.Sound extra) (hc : b.Loose c) {a : Account C}
    (hopen : a.isRecvClosed = false)
    (hcount : ∀ d, ((b.set c a).account d).senderCount = (b.set c a).handles d + extra' d)
    (htarget : ∀ sender, a.held = some sender → sender.shared < b.channels)
    (hparent : a.parentRequest = none) : (b.set c a).Sound extra' := by
  refine h.set hc.lt hopen hcount (fun hr => ?_) (fun r hr => ?_) htarget fun r hr => ?_
  · rw [hc.receiver] at hr
    cases hr
  · rw [hparent] at hr
    cases hr
  · have hpending := h.mapped hr
    rw [hc.parentRequest] at hpending
    cases hpending

/-- A channel is forwarded, and the resolution holds the sender. -/
theorem Sound.forward (h : b.Sound (plus extra d)) (hc : b.Loose c) :
    (b.resolve c (.forward ⟨d⟩)).Sound extra := by
  refine h.set_loose hc (h.isOpen c) (fun x => ?_) (fun sender hs => ?_) hc.parentRequest
  swap
  · cases hs
    exact h.lt_of_count h.count_pos
  rw [handles_set_forward hc.lt hc.freed hc.unresolved.held rfl]
  have hcount : ∀ y, (b.account y).senderCount = plus b.handles d y + extra y := by
    intro y
    rw [h.count]
    by_cases hy : y = d
    · rw [hy, plus_self, plus_self]
      omega
    · rw [plus_of_ne _ hy, plus_of_ne _ hy]
  by_cases hx : x = c
  · rw [hx, account_set_self]
    exact hcount c
  · rw [account_set_of_ne _ _ hx, hcount]

/-- A channel is resolved otherwise. -/
lemma Sound.set_ended (h : b.Sound extra) (hc : b.Loose c) {a : Account C}
    (ha : a.held = none) (hopen : a.isRecvClosed = false) (hparent : a.parentRequest = none)
    (hcount : a.senderCount = (b.account c).senderCount) : (b.set c a).Sound extra := by
  refine h.set_loose hc hopen (fun x => ?_) (fun sender hs => ?_) hparent
  swap
  · rw [ha] at hs
    cases hs
  rw [handles_set (ha.trans hc.unresolved.held.symm)]
  by_cases hx : x = c
  · rw [hx, account_set_self, hcount, h.count]
  · rw [account_set_of_ne _ _ hx, h.count]

theorem Sound.close (h : b.Sound extra) (hc : b.Loose c) (err : C.Error) :
    (b.resolve c (.error err)).Sound extra :=
  h.set_ended hc rfl (h.isOpen c) hc.parentRequest rfl

theorem Sound.closeReceiver (h : b.Sound extra) (hc : b.Loose c) :
    (b.closeReceiver c).Sound extra := by
  refine h.set_ended hc ?_ (h.isOpen c) hc.parentRequest rfl
  exact hc.unresolved.held

/-! ## Receivers -/

/-- The program holds the receiver of a channel, or does not. -/
def holdReceiver (b : Books C) (c : ChannelId) (held : Bool) : Books C :=
  { b with receiver := Function.update b.receiver c held }

lemma Sound.loose (h : b.Sound extra) (hc : b.receiver c = true) :
    (b.holdReceiver c false).Loose c := by
  obtain ⟨hunresolved, hparent, hfreed⟩ := h.receiver hc
  refine ⟨?_, hunresolved, hparent, Function.update_self .., hfreed⟩
  show c < b.channels
  by_contra hlt
  rw [(h.fresh (Nat.not_lt.1 hlt)).2.2.2.1] at hc
  cases hc

/-- The receiver is moved into a call. -/
theorem Sound.takeReceiver (h : b.Sound extra) (c : ChannelId) :
    (b.holdReceiver c false).Sound extra where
  count := h.count
  isOpen := h.isOpen
  fresh {d} hd := by
    obtain ⟨hcount, hunresolved, hparent, hreceiver, hfreed⟩ := h.fresh hd
    refine ⟨hcount, hunresolved, hparent, ?_, hfreed⟩
    show Function.update b.receiver c false d = false
    by_cases hdc : d = c
    · rw [hdc, Function.update_self]
    · rw [Function.update_of_ne hdc, hreceiver]
  receiver {d} hd := by
    change Function.update b.receiver c false d = true at hd
    by_cases hdc : d = c
    · rw [hdc, Function.update_self] at hd
      cases hd
    · rw [Function.update_of_ne hdc] at hd
      exact h.receiver hd
  pending {d r} hr := by
    refine ⟨(h.pending hr).1, ?_⟩
    show Function.update b.receiver c false d = false
    by_cases hdc : d = c
    · rw [hdc, Function.update_self]
    · rw [Function.update_of_ne hdc]
      exact (h.pending hr).2
  target := h.target
  mapped := h.mapped
  nodup := h.nodup

/-- The program gets the receiver. -/
theorem Sound.giveReceiver (h : b.Sound extra) (hc : b.Loose c) :
    (b.holdReceiver c true).Sound extra where
  count := h.count
  isOpen := h.isOpen
  fresh {d} hd := by
    obtain ⟨hcount, hunresolved, hparent, hreceiver, hfreed⟩ := h.fresh hd
    refine ⟨hcount, hunresolved, hparent, ?_, hfreed⟩
    have hdc : d ≠ c := by
      rintro rfl
      exact Nat.not_lt.2 hd hc.lt
    show Function.update b.receiver c true d = false
    rw [Function.update_of_ne hdc, hreceiver]
  receiver {d} hd := by
    by_cases hdc : d = c
    · subst hdc
      exact ⟨hc.unresolved, hc.parentRequest, hc.freed⟩
    · change Function.update b.receiver c true d = true at hd
      rw [Function.update_of_ne hdc] at hd
      exact h.receiver hd
  pending {d r} hr := by
    have hdc : d ≠ c := by
      rintro rfl
      change (b.account d).parentRequest = some r at hr
      rw [hc.parentRequest] at hr
      cases hr
    refine ⟨(h.pending hr).1, ?_⟩
    show Function.update b.receiver c true d = false
    rw [Function.update_of_ne hdc]
    exact (h.pending hr).2
  target := h.target
  mapped := h.mapped
  nodup := h.nodup

/-! ## New channels -/

/-- Allocate a channel. -/
def newChannel (b : Books C) (a : Account C) : Books C :=
  { b with channels := b.channels + 1, account := Function.update b.account b.channels a }

/-- A new channel counts one sender, which is on its way to who holds it. -/
theorem Sound.newChannel (h : b.Sound extra) {a : Account C} (hcount : a.senderCount = 1)
    (hopen : a.isRecvClosed = false) (hheld : a.held = none)
    (hpending : ∀ r, a.parentRequest = some r → a.Unresolved) :
    (b.newChannel a).Sound (plus extra b.channels) := by
  obtain ⟨hzero, -, hparent, hreceiver, -⟩ := h.fresh (Nat.le_refl b.channels)
  have haccount : ∀ {d}, d ≠ b.channels → (b.newChannel a).account d = b.account d :=
    fun hd => Function.update_of_ne hd ..
  have hself : (b.newChannel a).account b.channels = a := Function.update_self ..
  -- the new channel holds no sender
  have hhandles : ∀ d, (b.newChannel a).handles d = b.handles d := by
    intro d
    have hfilter : (Finset.range (b.channels + 1)).filter ((b.newChannel a).Forwards d)
        = (Finset.range b.channels).filter (b.Forwards d) := by
      ext x
      rw [Finset.mem_filter, Finset.mem_filter, Finset.mem_range, Finset.mem_range]
      by_cases hx : x = b.channels
      · subst hx
        refine ⟨fun hmem => ?_, fun hmem => absurd hmem.1 (Nat.lt_irrefl _)⟩
        have hforwards := hmem.2.2
        rw [hself, hheld] at hforwards
        cases hforwards
      · unfold Forwards
        rw [haccount hx]
        constructor
        · exact fun hmem => ⟨Nat.lt_of_le_of_ne (Nat.le_of_lt_succ hmem.1) hx, hmem.2⟩
        · exact fun hmem => ⟨Nat.lt_succ_of_lt hmem.1, hmem.2⟩
    show b.senders.count ⟨⟨d⟩, true⟩ +
      ((Finset.range (b.channels + 1)).filter ((b.newChannel a).Forwards d)).card = b.handles d
    rw [hfilter]
    rfl
  refine ⟨fun d => ?_, fun d => ?_, fun {d} hd => ?_, fun {d} hd => ?_, fun {d r} hr => ?_,
    fun {d sender} hs => ?_, fun {r d} hd => ?_, h.nodup⟩
  · rw [hhandles]
    by_cases hd : d = b.channels
    · have hold := h.count b.channels
      rw [hzero] at hold
      rw [hd, hself, plus_self, hcount, ← Nat.add_assoc, ← hold]
    · rw [haccount hd, plus_of_ne _ hd, h.count]
  · by_cases hd : d = b.channels
    · rw [hd, hself, hopen]
    · rw [haccount hd, h.isOpen]
  · have hlt : b.channels < d := hd
    rw [haccount (Nat.ne_of_gt hlt)]
    exact h.fresh (Nat.le_of_lt hlt)
  · have hne : d ≠ b.channels := by
      rintro rfl
      change b.receiver b.channels = true at hd
      rw [hreceiver] at hd
      cases hd
    rw [haccount hne]
    exact h.receiver hd
  · by_cases hd : d = b.channels
    · rw [hd, hself] at hr
      rw [hd, hself]
      exact ⟨hpending r hr, hreceiver⟩
    · rw [haccount hd] at hr ⊢
      exact h.pending hr
  · by_cases hd : d = b.channels
    · rw [hd, hself, hheld] at hs
      cases hs
    · rw [haccount hd] at hs
      exact Nat.lt_succ_of_lt (h.target hs)
  · have hmapped : (b.account d).parentRequest = some r := h.mapped hd
    have hne : d ≠ b.channels := by
      rintro rfl
      rw [hparent] at hmapped
      cases hmapped
    rw [haccount hne, hmapped]

/-! ## Pipelined channels -/

/-- The pipelined channels of a request. -/
def setPipelines (b : Books C) (r : RequestId) (l : List ChannelId) : Books C :=
  { b with pipelines := Function.update b.pipelines r l }

theorem Sound.setPipelines (h : b.Sound extra) {r : RequestId} {l : List ChannelId}
    (hmapped : ∀ d ∈ l, (b.account d).parentRequest = some r) (hnodup : l.Nodup) :
    (b.setPipelines r l).Sound extra where
  count := h.count
  isOpen := h.isOpen
  fresh := h.fresh
  receiver := h.receiver
  pending := h.pending
  target := h.target
  mapped {r' d} hd := by
    change d ∈ Function.update b.pipelines r l r' at hd
    by_cases hr : r' = r
    · subst hr
      rw [Function.update_self] at hd
      exact hmapped d hd
    · rw [Function.update_of_ne hr] at hd
      exact h.mapped hd
  nodup r' := by
    show (Function.update b.pipelines r l r').Nodup
    by_cases hr : r' = r
    · rw [hr, Function.update_self]
      exact hnodup
    · rw [Function.update_of_ne hr]
      exact h.nodup r'

/-- `WeakChannel::upgrade`: the parent request is taken. -/
def upgrade (b : Books C) (c : ChannelId) : Books C :=
  b.set c { b.account c with parentRequest := none }

/-- A pipelined channel that is in no map any more can be upgraded. -/
theorem Sound.upgrade (h : b.Sound extra) {r : RequestId}
    (hc : (b.account c).parentRequest = some r) (hnot : c ∉ b.pipelines r)
    (hfreed : b.freed c = false) :
    (b.upgrade c).Sound extra ∧ (b.upgrade c).Loose c := by
  have hlt : c < b.channels := by
    by_contra hlt
    rw [(h.fresh (Nat.not_lt.1 hlt)).2.2.1] at hc
    cases hc
  obtain ⟨hunresolved, hreceiver⟩ := h.pending hc
  have haccount : (b.upgrade c).account c = { b.account c with parentRequest := none } :=
    account_set_self ..
  constructor
  · refine h.set hlt (h.isOpen c) (fun d => ?_) (fun hr => ?_) (fun r' hr => nomatch hr)
      (fun sender hs => h.target hs) fun r' hr => ?_
    · have hhandles : (b.upgrade c).handles d = b.handles d :=
        handles_set (a := { b.account c with parentRequest := none }) rfl d
      show ((b.upgrade c).account d).senderCount = (b.upgrade c).handles d + extra d
      rw [hhandles]
      by_cases hd : d = c
      · rw [hd, haccount]
        exact h.count c
      · rw [Books.upgrade, account_set_of_ne _ _ hd, h.count]
    · rw [hreceiver] at hr
      cases hr
    · have hother := h.mapped hr
      rw [hc, Option.some.injEq] at hother
      exact absurd (hother ▸ hr) hnot
  · refine ⟨hlt, ?_, ?_, hreceiver, hfreed⟩
    · rw [haccount]
      exact hunresolved
    · rw [haccount]

/-- From books to books in which some pipelined channels got a receiver. -/
structure Upgrades (b b' : Books C) : Prop where
  channels : b'.channels = b.channels
  freed : b'.freed = b.freed
  senders : b'.senders = b.senders
  account : ∀ c, b'.account c = b.account c ∨
    (b.account c).parentRequest ≠ none ∧ b'.account c = { b.account c with parentRequest := none }
  receiver : ∀ c, (b.account c).parentRequest = none → b'.receiver c = b.receiver c

lemma Upgrades.refl (b : Books C) : b.Upgrades b :=
  ⟨rfl, rfl, rfl, fun _ => Or.inl rfl, fun _ _ => rfl⟩

lemma Upgrades.account_eq {b b' : Books C} (h : b.Upgrades b')
    (hc : (b.account c).parentRequest = none) : b'.account c = b.account c :=
  (h.account c).resolve_right fun hor => hor.1 hc

lemma Upgrades.trans {b b' b'' : Books C} (h : b.Upgrades b') (h' : b'.Upgrades b'') :
    b.Upgrades b'' where
  channels := h'.channels.trans h.channels
  freed := h'.freed.trans h.freed
  senders := h'.senders.trans h.senders
  account c := by
    rcases h.account c with heq | ⟨hne, heq⟩
    · rw [← heq]
      exact h'.account c
    · have hnone : (b'.account c).parentRequest = none := by rw [heq]
      rw [h'.account_eq hnone]
      exact Or.inr ⟨hne, heq⟩
  receiver c hc := by
    have hnone : (b'.account c).parentRequest = none := by rw [h.account_eq hc, hc]
    rw [h'.receiver c hnone, h.receiver c hc]

/-- A receiver that is in use stays so. -/
lemma Upgrades.loose {b b' : Books C} (h : b.Upgrades b') (hc : b.Loose c) : b'.Loose c := by
  have haccount := h.account_eq hc.parentRequest
  refine ⟨?_, ?_, ?_, ?_, ?_⟩
  · rw [h.channels]
    exact hc.lt
  · rw [haccount]
    exact hc.unresolved
  · rw [haccount]
    exact hc.parentRequest
  · rw [h.receiver c hc.parentRequest]
    exact hc.receiver
  · rw [h.freed]
    exact hc.freed

/-- What a channel was resolved to stays. -/
lemma Upgrades.isSet {b b' : Books C} (h : b.Upgrades b') (c : ChannelId) :
    (b'.account c).isSet = (b.account c).isSet := by
  rcases h.account c with heq | ⟨-, heq⟩
  · rw [heq]
  · rw [heq]

/-! ## Deallocation -/

/-- A channel is deallocated. -/
def free (b : Books C) (c : ChannelId) : Books C :=
  { b with freed := Function.update b.freed c true }

/-- What is freed has no receiver, and the sender that its resolution held is on its way. -/
theorem Sound.free (h : b.Sound extra) (hlt : c < b.channels) (hreceiver : b.receiver c = false)
    (hfreed : b.freed c = false) :
    (b.free c).Sound (match (b.account c).held with
      | some sender => plus extra sender.shared
      | none => extra) := by
  have hne : ∀ {d x}, x ≠ c → ((b.free c).Forwards d x ↔ b.Forwards d x) := by
    intro d x hx
    unfold Forwards
    show Function.update b.freed c true x = false ∧ _ ↔ _
    rw [Function.update_of_ne hx]
    exact Iff.rfl
  have hnot : ∀ {d}, ¬ (b.free c).Forwards d c := by
    rintro d ⟨hfree, -⟩
    change Function.update b.freed c true c = false at hfree
    rw [Function.update_self] at hfree
    cases hfree
  refine ⟨fun d => ?_, h.isOpen, fun {d} hd => ?_, fun {d} hd => ?_, h.pending, h.target,
    h.mapped, h.nodup⟩
  · have hold := h.count d
    unfold handles at hold
    show (b.account d).senderCount = b.senders.count ⟨⟨d⟩, true⟩ +
      ((Finset.range b.channels).filter ((b.free c).Forwards d)).card + _
    by_cases hheld : (b.account c).held = some ⟨d⟩
    · have hcard : ((Finset.range b.channels).filter (b.Forwards d)).card
          = ((Finset.range b.channels).filter ((b.free c).Forwards d)).card + 1 :=
        card_filter_succ hlt hnot ⟨hfreed, hheld⟩ fun x hx => (hne hx).symm
      rw [hheld]
      dsimp only
      rw [plus_self]
      omega
    · have hforwards : ∀ x, (b.free c).Forwards d x ↔ b.Forwards d x := by
        intro x
        by_cases hx : x = c
        · subst hx
          exact ⟨fun hf => absurd hf hnot, fun hf => absurd hf.2 hheld⟩
        · exact hne hx
      rw [Finset.filter_congr fun x _ => hforwards x, hold]
      rcases hheld' : (b.account c).held with _ | sender
      · rfl
      · dsimp only
        rw [plus_of_ne]
        rintro rfl
        exact hheld hheld'
  · obtain ⟨hcount, hunresolved, hparent, hrecv, hf⟩ := h.fresh hd
    refine ⟨hcount, hunresolved, hparent, hrecv, ?_⟩
    have hdc : d ≠ c := by
      rintro rfl
      exact Nat.not_lt.2 hd hlt
    show Function.update b.freed c true d = false
    rw [Function.update_of_ne hdc, hf]
  · have hdc : d ≠ c := by
      rintro rfl
      change b.receiver d = true at hd
      rw [hreceiver] at hd
      cases hd
    obtain ⟨hunresolved, hparent, hf⟩ := h.receiver hd
    refine ⟨hunresolved, hparent, ?_⟩
    show Function.update b.freed c true d = false
    rw [Function.update_of_ne hdc, hf]

end Books

end Recapn.Channel

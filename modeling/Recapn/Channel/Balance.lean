/-
# The books stay sound

Every call of a program keeps the books of the world sound: so they are in every world that is
reached.  A channel closes when its last sender is dropped and the count was zero before it, which
it never is.
-/
import Recapn.Channel.Effect

namespace Recapn.Channel

open Recapn.Lib Recapn.Lib.Prog

variable {C : Chan} {extra : ChannelId → ℕ} {c d : ChannelId}

/-! ## Senders and receivers -/

lemma books_addSender {w w' : World C} {u : Unit} (h : addSender c w = .ok u w') :
    w'.books = w.books.addSender c := by
  have hrest := of_bind rfl h
  rcases ite_eq_ok.1 hrest with ⟨-, hhalt⟩ | ⟨-, hmodify⟩
  · cases hhalt
  · cases hmodify
    exact books_modifyChannel w c _

lemma fixes_queues_addSender (c : ChannelId) :
    Prog.Fixes World.queues (addSender c : ChanM C Unit) := by
  refine fixes_bind (fixes_getChannel c) fun ch => ?_
  exact fixes_ite (fixes_halt _) (fixes_queues_modifyChannel fun _ => rfl)

/-- A sender that was counted is not the last one and one more. -/
lemma books_removeSender {w w' : World C} {u : Unit} (hcount : 0 < (w.channel c).senderCount)
    (h : removeSender c w = .ok u w') : w'.books = w.books.removeSender c := by
  have hrest := of_bind rfl h
  have hrest := of_bind rfl hrest
  rcases ite_eq_ok.1 hrest with ⟨hzero, -⟩ | ⟨-, hpure⟩
  · exact absurd hzero (Nat.ne_of_gt hcount)
  · cases hpure
    rw [books_modifyChannel]
    unfold fetchSubOne
    rw [if_neg (Nat.ne_of_gt hcount)]
    rfl

lemma fixes_queues_closedTaskClose (c : ChannelId) :
    Prog.Fixes World.queues (closedTaskClose c : ChanM C Unit) := by
  refine fixes_bind (fixes_queues_modifyChannel fun _ => rfl) fun _ => ?_
  refine fixes_bind (fixes_getChannel c) fun ch => ?_
  exact fixes_ite (fixes_queues (fixes_wake _)) (fixes_pure _)

lemma fixes_queues_removeSender (c : ChannelId) :
    Prog.Fixes World.queues (removeSender c : ChanM C Unit) := by
  refine fixes_bind (fixes_getChannel c) fun ch => ?_
  refine fixes_bind (fixes_queues_modifyChannel fun _ => rfl) fun _ => ?_
  exact fixes_ite (fixes_queues_closedTaskClose c) (fixes_pure _)

lemma books_resolve {w w' : World C} {u : Unit} {value : ChannelResolution C}
    (hopen : (w.channel c).state.isRecvClosed = false) (h : resolve c value w = .ok u w') :
    w'.books = w.books.resolve c value ∧ w'.queues = w.queues := by
  have hrest := of_bind rfl h
  have hrest := of_bind rfl hrest
  have hrest := of_bind rfl hrest
  rw [World.channel_modifyChannel_self] at hrest
  rcases ite_eq_ok.1 hrest with ⟨hclosed, -⟩ | ⟨-, hpure⟩
  · rw [hopen] at hclosed
    cases hclosed
  · cases hpure
    constructor
    · rw [books_modifyChannel, books_modifyChannel, World.channel_modifyChannel_self]
      show (w.books.set c _).set c _ = w.books.set c _
      unfold Books.set
      simp only [Function.update_idem]
      congr 2
      show SharedChannel.account { w.channel c with
        value := some value, state := (w.channel c).state.trySetValue } = _
      rw [StateFlags.trySetValue_of_open hopen]
      rfl
    · rw [queues_modifyChannel, queues_modifyChannel, World.channel_modifyChannel_self,
        Function.update_idem]
      exact Function.update_eq_self c w.queues

lemma books_dropReceiver {w w' : World C} {u : Unit} (h : dropReceiver c w = .ok u w') :
    w'.books = (if (w.channel c).state.isSet then w.books else w.books.closeReceiver c) := by
  have hrest := of_bind rfl h
  rcases ite_eq_ok.1 hrest with ⟨hset, hpure⟩ | ⟨hset, hmodify⟩
  · cases hpure
    rw [if_pos hset]
  · cases hmodify
    rw [if_neg hset]
    exact books_modifyChannel w c _

lemma fixes_queues_dropReceiver (c : ChannelId) :
    Prog.Fixes World.queues (dropReceiver c : ChanM C Unit) := by
  refine fixes_bind (fixes_getChannel c) fun ch => ?_
  exact fixes_ite (fixes_pure _) (fixes_queues_modifyChannel fun _ => rfl)

/-! ## Pipelined channels -/

/-- The books of the world are sound up to `extra`. -/
def Sound (extra : ChannelId → ℕ) (w : World C) : Prop := w.books.Sound extra

/-- The books get more receivers at most. -/
def Upgrading (w w' : World C) : Prop := w.books.Upgrades w'.books

section Upgrade

lemma upgrading_trans : ∀ w₁ w₂ w₃ : World C, Upgrading w₁ w₂ → Upgrading w₂ w₃ →
    Upgrading w₁ w₃ :=
  fun _ _ _ => Books.Upgrades.trans

lemma fixes_queues_weakUpgrade (weak : ChannelId) :
    Prog.Fixes World.queues (weakUpgrade weak : ChanM C Bool) := by
  refine fixes_bind fixes_get fun w => fixes_ite (fixes_pure _) ?_
  refine fixes_bind (fixes_getChannel weak) fun ch => ?_
  refine fixes_bind (fixes_queues_modifyChannel fun _ => rfl) fun _ => ?_
  exact fixes_bind (fixes_queues (fixes_sharedDropReceiver _)) fun _ => fixes_pure _

lemma fixes_queues_upgradeAll (map : List (C.PipelineKey × ChannelId)) :
    Prog.Fixes World.queues (upgradeAll map) := by
  induction map with
  | nil => exact fixes_pure _
  | cons entry map ih =>
    refine fixes_bind (fixes_queues_weakUpgrade entry.2) fun upgraded => ?_
    refine fixes_bind ?_ fun _ => ih
    exact fixes_ite (fixes_modify fun _ => rfl) (fixes_pure _)

/-- A channel that is not freed is upgraded. -/
lemma weakUpgrade_ok {w w' : World C} {weak : ChannelId} {upgraded : Bool}
    (h : weakUpgrade weak w = .ok upgraded w') :
    upgraded = false ∧ w' = w ∨
      upgraded = true ∧ w'.books = w.books.upgrade weak ∧ w.books.freed weak = false := by
  have hrest := of_bind rfl h
  rcases ite_eq_ok.1 hrest with ⟨-, hpure⟩ | ⟨hfreed, hrest⟩
  · cases hpure
    exact Or.inl ⟨rfl, rfl⟩
  · right
    have hrest := of_bind rfl hrest
    have hrest := of_bind rfl hrest
    obtain ⟨_, hremove, rfl⟩ := bind_pure_ok hrest
    refine ⟨rfl, ?_, Bool.eq_false_iff.2 hfreed⟩
    rw [(fixes_books (fixes_sharedDropReceiver _)).ok hremove, books_modifyChannel]
    rfl

/-- Channels of a request that are in no map any more get their receivers. -/
lemma upgradeAll_ok {r : RequestId} {map : List (C.PipelineKey × ChannelId)} {w w' : World C}
    {u : Unit} (hsound : Sound extra w) (hnil : w.books.pipelines r = [])
    (hmap : ∀ d ∈ map.map Prod.snd, (w.books.account d).parentRequest = some r)
    (hnodup : (map.map Prod.snd).Nodup) (h : upgradeAll map w = .ok u w') :
    Sound extra w' ∧ Upgrading w w' := by
  induction map generalizing w with
  | nil =>
    cases h
    exact ⟨hsound, .refl _⟩
  | cons entry map ih =>
    rw [List.map_cons, List.nodup_cons] at hnodup
    have hparent := hmap entry.2 List.mem_cons_self
    have hnot : entry.2 ∉ w.books.pipelines r := by
      rw [hnil]
      exact List.not_mem_nil
    obtain ⟨upgraded, w₁, hupgrade, hrest⟩ := bind_eq_ok.1 h
    obtain ⟨_, w₂, hhold, hrest⟩ := bind_eq_ok.1 hrest
    rcases weakUpgrade_ok hupgrade with ⟨rfl, rfl⟩ | ⟨rfl, hbooks, hfreed⟩
    · cases hhold
      exact ih hsound hnil (fun d hd => hmap d (List.mem_cons_of_mem _ hd)) hnodup.2 hrest
    · cases hhold
      obtain ⟨hsound₁, hloose⟩ := Books.Sound.upgrade hsound hparent hnot hfreed
      rw [← hbooks] at hsound₁ hloose
      have hbooks₂ : World.books { w₁ with receiver := Function.update w₁.receiver entry.2 true }
          = w₁.books.holdReceiver entry.2 true := rfl
      have hsound₂ : Sound extra { w₁ with receiver := Function.update w₁.receiver entry.2 true } :=
        hsound₁.giveReceiver hloose
      have hne : ∀ d, (w.books.account d).parentRequest = none → d ≠ entry.2 := by
        rintro d hd rfl
        rw [hparent] at hd
        cases hd
      have haccount : ∀ d, d ≠ entry.2 → w₁.books.account d = w.books.account d := by
        intro d hd
        rw [hbooks]
        exact Books.account_set_of_ne _ _ hd
      have hgrow : Upgrading w { w₁ with receiver := Function.update w₁.receiver entry.2 true } := by
        show w.books.Upgrades _
        rw [hbooks₂]
        refine ⟨by rw [hbooks]; rfl, by rw [hbooks]; rfl, by rw [hbooks]; rfl, fun d => ?_,
          fun d hd => ?_⟩
        · show w₁.books.account d = _ ∨ _ ∧ w₁.books.account d = _
          by_cases hd : d = entry.2
          · right
            rw [hd, hbooks]
            refine ⟨fun hnone => hne _ hnone rfl, ?_⟩
            exact Books.account_set_self ..
          · exact Or.inl (haccount d hd)
        · show Function.update w₁.books.receiver entry.2 true d = _
          rw [Function.update_of_ne (hne d hd), hbooks]
          rfl
      obtain ⟨hsound', hupgrading⟩ := ih hsound₂
        (by rw [hbooks₂, hbooks]; exact hnil) (fun d hd => by
          rw [hbooks₂]
          have hde : d ≠ entry.2 := by
            rintro rfl
            exact hnodup.1 hd
          show (w₁.books.account d).parentRequest = some r
          rw [haccount d hde]
          exact hmap d (List.mem_cons_of_mem _ hd)) hnodup.2 hrest
      exact ⟨hsound', upgrading_trans _ _ _ hgrow hupgrading⟩

/-- The program keeps the books sound, and only gives out receivers. -/
def Tame {α : Type} (x : ChanM C α) : Prop :=
  ∀ extra w a w', Sound extra w → x w = .ok a w' → Sound extra w' ∧ Upgrading w w'

lemma tame_of_fixes {α : Type} {x : ChanM C α} (h : Prog.Fixes World.books x) : Tame x := by
  intro extra w a w' hsound hrun
  have hbooks := h.ok hrun
  unfold Sound Upgrading
  rw [hbooks]
  exact ⟨hsound, .refl _⟩

lemma tame_bind {α β : Type} {x : ChanM C α} {f : α → ChanM C β} (hx : Tame x)
    (hf : ∀ a, Tame (f a)) : Tame (x >>= f) := by
  intro extra w b w' hsound hrun
  obtain ⟨a, w₁, hfirst, hrest⟩ := bind_eq_ok.1 hrun
  obtain ⟨hsound₁, hupgrading₁⟩ := hx _ _ _ _ hsound hfirst
  obtain ⟨hsound', hupgrading'⟩ := hf a _ _ _ _ hsound₁ hrest
  exact ⟨hsound', upgrading_trans _ _ _ hupgrading₁ hupgrading'⟩

lemma books_modifyRequest (w : World C) (r : RequestId) (f : SharedRequest C → SharedRequest C) :
    (w.modifyRequest r f).books
      = w.books.setPipelines r ((f (w.request r)).pipelineMap.map Prod.snd) := by
  have hpipelines : (fun r' => ((w.modifyRequest r f).request r').pipelineMap.map Prod.snd)
      = Function.update (fun r' => (w.request r').pipelineMap.map Prod.snd) r
        ((f (w.request r)).pipelineMap.map Prod.snd) := by
    funext r'
    by_cases hr : r' = r
    · rw [hr, Function.update_self, World.request_modifyRequest_self]
    · rw [Function.update_of_ne hr, World.request_modifyRequest_of_ne w f hr]
  unfold World.books Books.setPipelines
  rw [hpipelines]
  rfl

lemma tame_resolvePipelineMap (r : RequestId) : Tame (resolvePipelineMap r : ChanM C Unit) := by
  intro extra w u w' hsound hrun
  have hrest := of_bind rfl hrun
  obtain ⟨_, w₁, hmodify, hrest⟩ := bind_eq_ok.1 hrest
  obtain ⟨_, w₂, hupgrade, hrest⟩ := bind_eq_ok.1 hrest
  have hbooks : w₁.books = w.books.setPipelines r [] := by
    cases hmodify
    exact books_modifyRequest w r _
  have hsound₁ : Sound extra w₁ := by
    unfold Sound
    rw [hbooks]
    exact Books.Sound.setPipelines hsound (fun d hd => absurd hd List.not_mem_nil) List.nodup_nil
  have haccount : w₁.books.account = w.books.account := by
    rw [hbooks]
    rfl
  obtain ⟨hsound₂, hupgrading⟩ := upgradeAll_ok (r := r) hsound₁
    (by rw [hbooks]; exact Function.update_self ..)
    (fun d hd => by rw [haccount]; exact hsound.mapped hd) (hsound.nodup r) hupgrade
  have hupgrading₁ : Upgrading w w₂ := by
    refine upgrading_trans _ _ _ ?_ hupgrading
    show w.books.Upgrades w₁.books
    rw [hbooks]
    exact ⟨rfl, rfl, rfl, fun _ => Or.inl rfl, fun _ _ => rfl⟩
  have hlast : Tame (modifyRequest r fun req : SharedRequest C =>
      { req with state := req.state.setPipeline }) :=
    tame_of_fixes (fixes_books (fixes_core_modifyRequest fun _ => rfl))
  obtain ⟨hsound', hlast⟩ := hlast _ _ _ _ hsound₂ hrest
  exact ⟨hsound', upgrading_trans _ _ _ hupgrading₁ hlast⟩

lemma tame_responderRespond (r : RequestId) (resp : C.Results) :
    Tame (Responder.respond r resp) := by
  refine tame_bind (tame_of_fixes (fixes_books (fixes_setOwner r _))) fun _ => ?_
  refine tame_bind (tame_of_fixes (fixes_books ?_)) fun _ => tame_resolvePipelineMap r
  exact fixes_core_modifyRequest fun _ => rfl

lemma tame_setPipeline (r : RequestId) (dst : C.Pipeline) : Tame (Responder.setPipeline r dst) := by
  refine tame_bind (tame_of_fixes (fixes_books ?_)) fun _ => ?_
  · exact fixes_core_modifyRequest fun _ => rfl
  refine tame_bind (tame_of_fixes (fixes_getRequest r)) fun req => ?_
  refine tame_bind (tame_of_fixes (fixes_require _)) fun _ => ?_
  exact tame_bind (tame_resolvePipelineMap r) fun _ => tame_of_fixes (fixes_books (fixes_setOwner r _))

lemma tame_respondWithErr (err : C.Error) (item : LinkItem C) : Tame (item.respondWithErr err) := by
  rcases item with r | event
  · exact tame_bind (tame_of_fixes (fixes_books (fixes_respond r))) fun _ =>
      tame_responderRespond r _
  · exact tame_of_fixes (fixes_pure _)

lemma tame_respondAll (err : C.Error) (items : List (LinkItem C)) : Tame (respondAll err items) := by
  induction items with
  | nil => exact tame_of_fixes (fixes_pure _)
  | cons item items ih => exact tame_bind (tame_respondWithErr err item) fun _ => ih

lemma tame_closeBatch (c : ChannelId) (room : ℕ) : Tame (closeBatch c room : ChanM C _) := by
  induction room with
  | zero => exact tame_of_fixes (fixes_pure _)
  | succ room ih =>
    refine tame_bind (tame_of_fixes (fixes_books_popFront c)) fun item => ?_
    rcases item with _ | item
    · exact tame_of_fixes (fixes_pure _)
    · refine tame_bind (tame_of_fixes (fixes_books (fixes_itemTakeParent item))) fun _ => ?_
      refine tame_bind (tame_of_fixes (fixes_books (fixes_intoItem item))) fun _ => ?_
      exact tame_bind ih fun _ => tame_of_fixes (fixes_pure _)

lemma tame_closeLoop (c : ChannelId) (err : C.Error) (rounds : ℕ) : Tame (closeLoop c err rounds) := by
  induction rounds with
  | zero => exact tame_of_fixes (fixes_halt _)
  | succ rounds ih =>
    refine tame_bind (tame_closeBatch c batchSize) fun items => ?_
    refine tame_bind (tame_respondAll err _) fun _ => ?_
    by_cases hlast : items.length < batchSize
    · rw [if_pos hlast]
      exact tame_of_fixes (fixes_pure _)
    · rw [if_neg hlast]
      exact ih

end Upgrade

/-! ## Closing and forwarding -/

lemma Sound.channel_isOpen {w : World C} (h : Sound extra w) (c : ChannelId) :
    (w.channel c).state.isRecvClosed = false :=
  h.isOpen c

/-- A channel that is closed keeps nothing but its resolution. -/
lemma close_ok {w w' : World C} {u : Unit} {err : C.Error} (hsound : Sound extra w)
    (hc : w.books.Loose c) (h : close c err w = .ok u w') :
    Sound extra w' ∧ (w.books.resolve c (.error err)).Upgrades w'.books := by
  obtain ⟨_, w₁, hlocked, hrest⟩ := bind_eq_ok.1 h
  obtain ⟨waker, w₀, hwaker, hresolve⟩ := bind_eq_ok.1 hlocked
  have hbooks₀ := (fixes_books (fixes_takeWaker c)).ok hwaker
  have hsound₀ : Sound extra w₀ := by
    unfold Sound
    rw [hbooks₀]
    exact hsound
  have hbooks₁ := (books_resolve (hsound₀.channel_isOpen c) hresolve).1
  rw [hbooks₀] at hbooks₁
  have hsound₁ : Sound extra w₁ := by
    unfold Sound
    rw [hbooks₁]
    exact Books.Sound.close hsound hc err
  have hrest := of_bind rfl hrest
  obtain ⟨_, w₂, hloop, hdrop⟩ := bind_eq_ok.1 hrest
  obtain ⟨hsound₂, hupgrading⟩ := tame_closeLoop c err _ _ _ _ _ hsound₁ hloop
  -- it is resolved when the receiver is dropped
  have hset : (w₂.channel c).state.isSet = true := by
    have haccount := hupgrading.isSet c
    rw [hbooks₁] at haccount
    exact haccount.trans (congrArg Account.isSet (Books.account_set_self ..))
  have hbooks' := books_dropReceiver hdrop
  rw [if_pos hset] at hbooks'
  unfold Sound
  rw [hbooks', ← hbooks₁]
  exact ⟨hsound₂, hupgrading⟩

lemma tryResolved_of_unresolved {w : World C} (h : (w.books.account c).Unresolved) :
    w.tryResolved c = none := by
  have hset : (w.channel c).state.isSet = false := h.1
  have hclosed : (w.channel c).state.isSendClosed = false := h.2
  unfold World.tryResolved SharedChannel.tryResolved StateFlags.state
  rw [hset, hclosed]
  rfl

lemma tryResolved_eq_forwarded {w : World C} {sender : Sender} :
    w.tryResolved c = some (.forwarded sender) ↔ (w.books.account c).held = some sender := by
  unfold World.tryResolved SharedChannel.tryResolved StateFlags.state World.books SharedChannel.account
    Account.held
  dsimp only
  rcases (w.channel c).state.isSet with _ | _
  · rcases (w.channel c).state.isSendClosed with _ | _ <;> simp
  · rcases (w.channel c).value with _ | sender' | err <;> simp

lemma next_eq_some_iff {w : World C} : w.next c = some d ↔ (w.books.account c).held = some ⟨d⟩ := by
  rw [World.next_eq_some, tryResolved_eq_forwarded]

/-- The forwards depend on the books alone. -/
lemma next_congr {w w' : World C}
    (h : ∀ c, (w'.books.account c).held = (w.books.account c).held) : w'.next = w.next := by
  funext c
  rcases hnext : w.next c with _ | d
  · rcases hnext' : w'.next c with _ | d
    · rfl
    · rw [next_eq_some_iff, h, ← next_eq_some_iff, hnext] at hnext'
      cases hnext'
  · rw [next_eq_some_iff, h, ← next_eq_some_iff, hnext]

/-- Forwards lead to channels that are there. -/
lemma Sound.leads_lt {w : World C} {r : ChannelId} (h : Sound extra w) (hc : c < w.channels)
    (hleads : Leads w.next c r) : r < w.channels := by
  induction hleads with
  | refl => exact hc
  | step hnext _ ih => exact ih (h.target (next_eq_some_iff.1 hnext))

/-- When the books are sound, no chain of forwards goes over more channels than there are. -/
lemma Sound.follow_of_leads {w : World C} {r : ChannelId} (hsound : Sound extra w)
    (hleads : Leads w.next c r) : follow w.next (w.channels + 1) c = some r := by
  have hplaces : ∀ d, w.next d ≠ none → d ∈ List.range w.channels := by
    intro d hd
    rw [List.mem_range]
    by_contra hlt
    refine hd ?_
    rcases hnext : w.next d with _ | d'
    · rfl
    · have hheld := next_eq_some_iff.1 hnext
      rw [(hsound.fresh (Nat.not_lt.1 hlt)).2.1.held] at hheld
      cases hheld
  have hfollow := (follow_eq_some_iff hplaces).2 hleads
  rwa [List.length_range] at hfollow

/-- The loop of `most_resolved` ends where the forwards end. -/
lemma Sound.mostResolved_of_leads {w : World C} {r : ChannelId} (hsound : Sound extra w)
    (hleads : Leads w.next c r) : mostResolved c w = .ok (r, w.ended r) w := by
  unfold mostResolved
  rw [World.mostResolved_eq, hsound.follow_of_leads hleads]
  rfl

/-- What forwarding does from where it has the locks on. -/
lemma forwardLocked_ok {w w' : World C} {self otherShared other : ChannelId} {u : Unit}
    (hsound : Sound extra w) (h : forwardLocked self otherShared other w = .ok u w') :
    w'.books = (w.books.addSender other).resolve self (.forward ⟨other⟩) ∧
      w'.queues = Function.update
        (Function.update w.queues otherShared (w.queues otherShared ++ w.queues self)) self [] := by
  obtain ⟨sender, w₁, hclone, hrest⟩ := bind_eq_ok.1 h
  obtain ⟨_, hadd, rfl⟩ := bind_pure_ok hclone
  have hbooks₁ := books_addSender hadd
  have hqueues₁ := (fixes_queues_addSender other).ok hadd
  obtain ⟨_, w₂, hresolve, hrest⟩ := bind_eq_ok.1 hrest
  have hopen : (w₁.channel self).state.isRecvClosed = false := by
    show (w₁.books.account self).isRecvClosed = false
    rw [hbooks₁]
    unfold Books.addSender
    by_cases hother : self = other
    · rw [hother, Books.account_set_self]
      exact hsound.isOpen other
    · rw [Books.account_set_of_ne _ _ hother]
      exact hsound.isOpen self
  obtain ⟨hbooks₂, hqueues₂⟩ := books_resolve hopen hresolve
  rw [hqueues₁] at hqueues₂
  have hrest := of_bind rfl hrest
  obtain ⟨_, w₃, hqueue, hdrop⟩ := bind_eq_ok.1 hrest
  have hthird : w₃.books = w₂.books ∧ w₃.queues = Function.update
      (Function.update w.queues otherShared (w.queues otherShared ++ w.queues self)) self [] := by
    rcases ite_eq_ok.1 hqueue with ⟨hempty, hpure⟩ | ⟨-, happend⟩
    · cases hpure
      refine ⟨rfl, ?_⟩
      have hnil : w.queues self = [] := by
        rw [← hqueues₂]
        exact List.isEmpty_iff.1 hempty
      rw [hnil, List.append_nil, Function.update_eq_self, ← hnil, Function.update_eq_self, hqueues₂]
    · obtain ⟨_, w₄, happend, hwaker⟩ := bind_eq_ok.1 happend
      have hwake : Prog.Fixes World.core (do
          let waker ← takeWaker otherShared
          wake waker : ChanM C Unit) :=
        fixes_bind (fixes_takeWaker otherShared) fun waker => fixes_wake waker
      rw [(fixes_books hwake).ok hwaker, (fixes_queues hwake).ok hwaker]
      refine ⟨(fixes_books_appendBack _ _).ok happend, ?_⟩
      have happend := of_bind rfl happend
      have hclear := of_bind rfl happend
      cases hclear
      rw [queues_modifyChannel, queues_modifyChannel, ← hqueues₂]
      rfl
  obtain ⟨hbooks₃, hqueues₃⟩ := hthird
  have hset : (w₃.channel self).state.isSet = true := by
    show (w₃.books.account self).isSet = true
    rw [hbooks₃, hbooks₂]
    exact congrArg Account.isSet (Books.account_set_self ..)
  have hbooks' := books_dropReceiver hdrop
  rw [if_pos hset, hbooks₃, hbooks₂, hbooks₁] at hbooks'
  exact ⟨hbooks', by rw [(fixes_queues_dropReceiver self).ok hdrop, hqueues₃]⟩

lemma Books.Loose.addSender {b : Books C} (h : b.Loose c) : (b.addSender d).Loose c := by
  have haccount : ((b.addSender d).account c).Unresolved ∧
      ((b.addSender d).account c).parentRequest = none := by
    unfold Books.addSender
    by_cases hd : c = d
    · rw [← hd, Books.account_set_self]
      exact ⟨h.unresolved, h.parentRequest⟩
    · rw [Books.account_set_of_ne _ _ hd]
      exact ⟨h.unresolved, h.parentRequest⟩
  exact ⟨h.lt, haccount.1, haccount.2, h.receiver, h.freed⟩

/-- Forwarding keeps the books sound. -/
lemma Sound.forwardLocked {w w' : World C} {self otherShared other : ChannelId} {u : Unit}
    (hsound : Sound extra w) (hself : w.books.Loose self) (hother : other < w.channels)
    (h : forwardLocked self otherShared other w = .ok u w') : Sound extra w' := by
  unfold Sound
  rw [(forwardLocked_ok hsound h).1]
  exact (Books.Sound.addSender hsound hother).forward hself.addSender

lemma Sound.dropReceiver {w w' : World C} {u : Unit} (hsound : Sound extra w)
    (hc : w.books.Loose c) (h : dropReceiver c w = .ok u w') : Sound extra w' := by
  have hnot : ¬ (w.channel c).state.isSet = true := by
    rw [show (w.channel c).state.isSet = false from hc.unresolved.1]
    exact Bool.false_ne_true
  have hbooks := books_dropReceiver h
  rw [if_neg hnot] at hbooks
  unfold Sound
  rw [hbooks]
  exact Books.Sound.closeReceiver hsound hc

/-- What `forward_to` comes to: the receiver is given back, or the channel ends as the other one
did, or it is forwarded to where the other one leads. -/
lemma forwardTo_cases {w w' : World C} {self : ChannelId} {other : Sender} {done : Bool}
    (h : forwardTo self other w = .ok done w') :
    ∃ r, Leads w.next other.shared r ∧
      ((done = false ∧ w' = w ∧ r = self) ∨
        (done = true ∧ ∃ res, w.ended r = some res ∧ forwardEnded self res w = .ok () w') ∨
        (done = true ∧ r ≠ self ∧ w.tryResolved r = none ∧ forwardLocked self r r w = .ok () w')) := by
  obtain ⟨⟨r, resolution⟩, w₁, hfirst, hrest⟩ := bind_eq_ok.1 h
  obtain ⟨rfl, hleads, hres⟩ := mostResolved_ok hfirst
  refine ⟨r, hleads, ?_⟩
  rcases resolution with _ | res
  · rcases ite_eq_ok.1 hrest with ⟨hself, hpure⟩ | ⟨hself, hrest⟩
    · cases hpure
      exact Or.inl ⟨rfl, rfl, hself.symm⟩
    · right; right
      obtain ⟨⟨r', resolution'⟩, w₂, hsecond, hrest⟩ := bind_eq_ok.1 hrest
      obtain ⟨rfl, hleads', hres'⟩ := mostResolved_ok hsecond
      obtain rfl := hleads.unique hleads'
      rw [← hres] at hres'
      cases hres'
      obtain ⟨_, hlocked, rfl⟩ := bind_pure_ok hrest
      exact ⟨rfl, fun heq => hself heq.symm,
        World.tryResolved_eq_none _ hleads.next_eq_none hres.symm, hlocked⟩
  · obtain ⟨_, hended, rfl⟩ := bind_pure_ok hrest
    exact Or.inr (Or.inl ⟨rfl, res, hres.symm, hended⟩)

lemma Sound.forwardTo {w w' : World C} {self : ChannelId} {other : Sender} {done : Bool}
    (hsound : Sound extra w) (hself : w.books.Loose self) (hother : other.shared < w.channels)
    (h : forwardTo self other w = .ok done w') :
    Sound extra w' ∧ (done = false → w' = w) := by
  obtain ⟨r, hleads, hcases⟩ := forwardTo_cases h
  rcases hcases with ⟨-, hw, -⟩ | ⟨rfl, res, -, hended⟩ | ⟨rfl, -, -, hlocked⟩
  · exact ⟨hw ▸ hsound, fun _ => hw⟩
  · refine ⟨?_, fun hdone => nomatch hdone⟩
    rcases res with _ | err
    · exact hsound.dropReceiver hself hended
    · exact (close_ok hsound hself hended).1
  · exact ⟨hsound.forwardLocked hself (hsound.leads_lt hother hleads) hlocked,
      fun hdone => nomatch hdone⟩

/-! ## Calls -/

lemma getSender_ok {w w' : World C} {s : SenderId} {sender : Sender}
    (h : getSender s w = .ok sender w') : w' = w ∧ w.senders[s]? = some ⟨sender, true⟩ := by
  have hunwrap := of_bind rfl h
  obtain ⟨hsender, rfl⟩ := unwrap_eq_ok.1 hunwrap
  refine ⟨rfl, ?_⟩
  unfold World.sender at hsender
  rcases hs : w.senders[s]? with _ | ⟨sender', live⟩
  · rw [hs] at hsender
    cases hsender
  · rw [hs] at hsender
    cases live with
    | false => cases hsender
    | true =>
      cases hsender
      rfl

lemma getSender_of_sender {w : World C} {s : SenderId} {sender : Sender}
    (h : w.sender s = some sender) : getSender s w = .ok sender w := by
  unfold getSender
  rw [bind_of_ok (get_apply w), h]
  rfl

lemma getTracker_ok {w w' : World C} {t : TrackerId} {r : RequestId} (h : getTracker t w = .ok r w') :
    w' = w ∧ w.trackers[t]? = some (some r) := by
  have hunwrap := of_bind rfl h
  obtain ⟨htracker, rfl⟩ := unwrap_eq_ok.1 hunwrap
  refine ⟨rfl, ?_⟩
  unfold World.tracker at htracker
  rcases ht : w.trackers[t]? with _ | tracked
  · rw [ht] at htracker
    cases htracker
  · rw [ht] at htracker
    rw [show tracked = some r from htracker]

/-- What is sent is refused, or goes to the channel that the sender leads to. -/
lemma lock_cases (link : ChannelId → ChannelId → ChanM C Unit) {w w' : World C} {self : Sender}
    {result : Except (Option C.Error) Unit}
    (h : (do
      let locked ← resolveAndLock self.shared
      match locked with
      | .error .dropped => pure (.error none)
      | .error (.error err) => pure (.error (some err))
      | .ok (this, last) => do
        link this last
        pure (.ok ()) : ChanM C _) w = .ok result w') :
    (∃ err, result = .error err ∧ w' = w) ∨
      ∃ channel, Leads w.next self.shared channel ∧ w.tryResolved channel = none ∧
        result = .ok () ∧ link channel channel w = .ok () w' := by
  obtain ⟨locked, w₁, hlocked, hrest⟩ := bind_eq_ok.1 h
  obtain rfl : w₁ = w := (@fixes_resolveAndLock C _ id self.shared).ok hlocked
  rcases locked with (_ | err) | ⟨this, channel⟩
  · cases hrest
    exact Or.inl ⟨_, rfl, rfl⟩
  · cases hrest
    exact Or.inl ⟨_, rfl, rfl⟩
  · obtain ⟨_, hlink, rfl⟩ := bind_pure_ok hrest
    obtain ⟨-, rfl, hleads, hnone⟩ := resolveAndLock_ok hlocked
    exact Or.inr ⟨channel, hleads, hnone, rfl, hlink⟩

namespace Call

variable {w w' : World C} {out : Output C} {s : SenderId}

lemma exec_cloneSender_ok (h : exec (.cloneSender s) w = .ok out w') :
    ∃ self w₁, w.senders[s]? = some ⟨self, true⟩ ∧ addSender self.shared w = .ok () w₁ ∧
      w' = { w₁ with senders := w₁.senders ++ [⟨self, true⟩] } := by
  obtain ⟨self, w₀, hself, hrest⟩ := bind_eq_ok.1 h
  obtain ⟨rfl, hs⟩ := getSender_ok hself
  obtain ⟨sender, w₁, hclone, hhold⟩ := bind_eq_ok.1 hrest
  obtain ⟨_, hadd, rfl⟩ := bind_pure_ok hclone
  cases hhold
  exact ⟨self, _, hs, hadd, rfl⟩

lemma exec_dropSender_ok (h : exec (.dropSender s) w = .ok out w') :
    ∃ self, w.senders[s]? = some ⟨self, true⟩ ∧
      removeSender self.shared { w with senders := w.senders.set s ⟨self, false⟩ } = .ok () w' := by
  obtain ⟨self, w₀, hself, hrest⟩ := bind_eq_ok.1 h
  obtain ⟨rfl, hs⟩ := getSender_ok hself
  have hrest' := of_bind rfl hrest
  obtain ⟨_, hdrop, rfl⟩ := bind_pure_ok hrest'
  exact ⟨self, hs, hdrop⟩

lemma exec_resolveInPlace_ok (h : exec (.resolveInPlace s) w = .ok out w') :
    ∃ self resolved w₁, w.senders[s]? = some ⟨self, true⟩ ∧ Leads w.next self.shared resolved ∧
      addSender resolved w = .ok () w₁ ∧
      removeSender self.shared { w₁ with senders := w₁.senders.set s ⟨⟨resolved⟩, true⟩ } = .ok () w' := by
  obtain ⟨_, hresolve, rfl⟩ := bind_pure_ok h
  obtain ⟨self, w₂, hself, hrest⟩ := bind_eq_ok.1 hresolve
  obtain ⟨rfl, hs⟩ := getSender_ok hself
  obtain ⟨⟨resolved, resolution⟩, w₃, hmost, hrest'⟩ := bind_eq_ok.1 hrest
  obtain ⟨rfl, hleads, -⟩ := mostResolved_ok hmost
  obtain ⟨sender, w₁, hclone, hrest''⟩ := bind_eq_ok.1 hrest'
  obtain ⟨_, hadd, rfl⟩ := bind_pure_ok hclone
  have hdrop := of_bind rfl hrest''
  exact ⟨self, resolved, _, hs, hleads, hadd, hdrop⟩

lemma exec_send_cases {req : RequestId} (h : exec (.send s req) w = .ok out w') :
    ∃ self, w.senders[s]? = some ⟨self, true⟩ ∧
      ((∃ err, out = .sent (.error err) ∧ w' = w) ∨
        ∃ channel, Leads w.next self.shared channel ∧ w.tryResolved channel = none ∧
          out = .sent (.ok ()) ∧ sendLocked channel channel req w = .ok () w') := by
  obtain ⟨self, w₀, hself, hrest⟩ := bind_eq_ok.1 h
  obtain ⟨rfl, hs⟩ := getSender_ok hself
  obtain ⟨result, hsend, rfl⟩ := bind_pure_ok hrest
  rcases lock_cases (fun this channel => sendLocked this channel req) hsend with
    ⟨err, rfl, rfl⟩ | ⟨channel, hleads, hnone, rfl, hlink⟩
  · exact ⟨self, hs, Or.inl ⟨err, rfl, rfl⟩⟩
  · exact ⟨self, hs, Or.inr ⟨channel, hleads, hnone, rfl, hlink⟩⟩

lemma exec_sendEvent_cases {event : C.Event} (h : exec (.sendEvent s event) w = .ok out w') :
    ∃ self, w.senders[s]? = some ⟨self, true⟩ ∧
      ((∃ err, out = .sent (.error err) ∧ w' = w) ∨
        ∃ channel, Leads w.next self.shared channel ∧ w.tryResolved channel = none ∧
          out = .sent (.ok ()) ∧ sendEventLocked channel event w = .ok () w') := by
  obtain ⟨self, w₀, hself, hrest⟩ := bind_eq_ok.1 h
  obtain ⟨rfl, hs⟩ := getSender_ok hself
  obtain ⟨result, hsend, rfl⟩ := bind_pure_ok hrest
  rcases lock_cases (fun _ channel => sendEventLocked channel event) hsend with
    ⟨err, rfl, rfl⟩ | ⟨channel, hleads, hnone, rfl, hlink⟩
  · exact ⟨self, hs, Or.inl ⟨err, rfl, rfl⟩⟩
  · exact ⟨self, hs, Or.inr ⟨channel, hleads, hnone, rfl, hlink⟩⟩

lemma exec_forwardTo_ok {other : SenderId} (h : exec (.forwardTo c other) w = .ok out w') :
    ∃ sender done w₁, w.senders[other]? = some ⟨sender, true⟩ ∧
      Channel.forwardTo c sender { w with receiver := Function.update w.receiver c false }
        = .ok done w₁ ∧
      out = .forwarded done ∧ w' = { w₁ with receiver := Function.update w₁.receiver c (!done) } := by
  obtain ⟨sender, w₀, hother, hrest⟩ := bind_eq_ok.1 h
  obtain ⟨rfl, hs⟩ := getSender_ok hother
  have hrest' := of_bind rfl hrest
  obtain ⟨done, w₂, hforward, hback⟩ := bind_eq_ok.1 hrest'
  cases hback
  exact ⟨sender, done, _, hs, hforward, rfl, rfl⟩

lemma exec_close_ok {err : C.Error} (h : exec (.close c err) w = .ok out w') :
    Channel.close c err { w with receiver := Function.update w.receiver c false } = .ok () w' := by
  have hrest := of_bind rfl h
  obtain ⟨_, hclose, rfl⟩ := bind_pure_ok hrest
  exact hclose

lemma exec_dropReceiver_ok (h : exec (.dropReceiver c) w = .ok out w') :
    Channel.dropReceiver c { w with receiver := Function.update w.receiver c false } = .ok () w' := by
  have hrest := of_bind rfl h
  obtain ⟨_, hdrop, rfl⟩ := bind_pure_ok hrest
  exact hdrop

lemma exec_cloneTracker_ok {t : TrackerId} (h : exec (.cloneTracker t) w = .ok out w') :
    ∃ r w₁, w.trackers[t]? = some (some r) ∧ SharedRequest.addReceiver r w = .ok () w₁ ∧
      w' = { w₁ with trackers := w₁.trackers ++ [some r] } := by
  obtain ⟨r, w₀, htracker, hrest⟩ := bind_eq_ok.1 h
  obtain ⟨rfl, ht⟩ := getTracker_ok htracker
  obtain ⟨_, w₁, hadd, hhold⟩ := bind_eq_ok.1 hrest
  cases hhold
  exact ⟨r, _, ht, hadd, rfl⟩

lemma exec_dropTracker_ok {t : TrackerId} (h : exec (.dropTracker t) w = .ok out w') :
    ∃ r, w.trackers[t]? = some (some r) ∧
      SharedRequest.removeReceiver r { w with trackers := w.trackers.set t none } = .ok () w' := by
  obtain ⟨r, w₀, htracker, hrest⟩ := bind_eq_ok.1 h
  obtain ⟨rfl, ht⟩ := getTracker_ok htracker
  have hrest' := of_bind rfl hrest
  obtain ⟨_, hremove, rfl⟩ := bind_pure_ok hrest'
  exact ⟨r, ht, hremove⟩

/-- The pipeline is set already, or the program holds the sender that was built. -/
lemma exec_build_cases {t : TrackerId} {key : C.PipelineKey} (h : exec (.build t key) w = .ok out w') :
    ∃ r, w.trackers[t]? = some (some r) ∧
      (Channel.build r key w = .ok none w' ∧ out = .pipelined ∨
        ∃ sender w₁, Channel.build r key w = .ok (some sender) w₁ ∧
          out = .sender w₁.senders.length ∧
          w' = { w₁ with senders := w₁.senders ++ [⟨sender, true⟩] }) := by
  obtain ⟨r, w₀, htracker, hrest⟩ := bind_eq_ok.1 h
  obtain ⟨rfl, ht⟩ := getTracker_ok htracker
  obtain ⟨sender, w₁, hbuild, hhold⟩ := bind_eq_ok.1 hrest
  refine ⟨r, ht, ?_⟩
  rcases sender with _ | sender
  · cases hhold
    exact Or.inl ⟨hbuild, rfl⟩
  · cases hhold
    exact Or.inr ⟨sender, _, hbuild, rfl, rfl⟩

end Call

lemma Sound.sender_lt {w : World C} {s : SenderId} {sender : Sender} (hsound : Sound extra w)
    (hs : w.senders[s]? = some ⟨sender, true⟩) : sender.shared < w.channels :=
  hsound.lt_of_mem (List.mem_of_getElem? hs)

/-- Senders that were released are removed from the count. -/
lemma Sound.removeSender {w w' : World C} {u : Unit} (hsound : Sound (plus extra c) w)
    (h : removeSender c w = .ok u w') : Sound extra w' := by
  unfold Sound
  rw [books_removeSender hsound.count_pos h]
  exact Books.Sound.removeSender hsound

lemma books_addChannel (w : World C) (ch : SharedChannel C) :
    (w.addChannel ch).books = w.books.newChannel ch.account := by
  have haccount : (fun d => ((w.addChannel ch).channel d).account)
      = Function.update (fun d => (w.channel d).account) w.channels ch.account := by
    funext d
    by_cases hd : d = w.channels
    · rw [hd, Function.update_self, World.channel_addChannel_self]
    · rw [Function.update_of_ne hd, World.channel_addChannel_of_ne w ch hd]
  unfold World.books Books.newChannel
  rw [haccount]
  rfl

/-- A new channel of which the program gets a sender. -/
lemma Sound.addChannel {w : World C} {ch : SharedChannel C} (hsound : Sound extra w)
    (hcount : ch.senderCount = 1) (hopen : ch.state.isRecvClosed = false)
    (hheld : ch.account.held = none)
    (hpending : ∀ r, ch.parentRequest = some r → ch.account.Unresolved) :
    Sound (plus extra w.channels) (w.addChannel ch) := by
  unfold Sound
  rw [books_addChannel]
  exact Books.Sound.newChannel hsound hcount hopen hheld hpending

/-- A new client is of a new channel, which receives the response of the request. -/
lemma build_insert_eq_ok {w w' : World C} {r : RequestId} {key : C.PipelineKey}
    {map : List (C.PipelineKey × ChannelId)} {out : Option Sender}
    (h : build.insert r key map w = .ok out w') :
    ∃ w₁, SharedRequest.addReceiver r w = .ok () w₁ ∧ out = some ⟨w₁.channels⟩ ∧
      w' = (w₁.addChannel (.new (some r))).modifyRequest r fun req =>
        { req with pipelineMap := map ++ [(key, w₁.channels)] } := by
  obtain ⟨_, w₁, hadd, hrest⟩ := bind_eq_ok.1 h
  cases hrest
  exact ⟨w₁, hadd, rfl, rfl⟩

/-- No client is built when the pipeline is set.  Otherwise it is one more of the channel that waits
under the key, or one of a new channel, which takes the place of one that is deallocated. -/
lemma build_cases {w w' : World C} {r : RequestId} {key : C.PipelineKey} {out : Option Sender}
    (h : build r key w = .ok out w') :
    ((w.request r).state.isPipelineSet = true ∧ out = none ∧ w' = w) ∨
      (w.request r).state.isPipelineSet = false ∧
      ((∃ c, out = some ⟨c⟩ ∧ (w.request r).pipelineMap.lookup key = some c ∧ w.freed c = false ∧
          addSender c w = .ok () w') ∨
        (∀ c, (w.request r).pipelineMap.lookup key = some c → w.freed c = true) ∧
          build.insert r key ((w.request r).pipelineMap.filter fun entry => entry.1 ≠ key) w
            = .ok out w') := by
  have hrest := of_bind rfl h
  rcases ite_eq_ok.1 hrest with ⟨hset, hpure⟩ | ⟨hset, hrest⟩
  · cases hpure
    exact Or.inl ⟨hset, rfl, rfl⟩
  refine Or.inr ⟨Bool.eq_false_iff.2 hset, ?_⟩
  rcases hlookup : (w.request r).pipelineMap.lookup key with _ | occupied
  · rw [hlookup] at hrest
    refine Or.inr ⟨nofun, ?_⟩
    rw [List.filter_eq_self.2]
    · exact hrest
    · intro entry hentry
      have hne := List.lookup_eq_none_iff.1 hlookup entry hentry
      exact decide_eq_true (bne_iff_ne.1 hne).symm
  · rw [hlookup] at hrest
    obtain ⟨sender, w₁, hweak, hrest⟩ := bind_eq_ok.1 hrest
    have hweak := of_bind rfl hweak
    rcases ite_eq_ok.1 hweak with ⟨hfreed, hpure⟩ | ⟨hfreed, hweak⟩
    · cases hpure
      refine Or.inr ⟨?_, hrest⟩
      rintro c ⟨⟩
      exact hfreed
    · obtain ⟨_, hadd, rfl⟩ := bind_pure_ok hweak
      cases hrest
      exact Or.inl ⟨occupied, rfl, rfl, Bool.eq_false_iff.2 hfreed, hadd⟩
lemma build_insert_ok {w w' : World C} {r : RequestId} {key : C.PipelineKey}
    {map : List (C.PipelineKey × ChannelId)} {out : Option Sender} (hsound : Sound extra w)
    (hmap : (map.map Prod.snd).Sublist (w.books.pipelines r))
    (h : build.insert r key map w = .ok out w') :
    out = some ⟨w.channels⟩ ∧ Sound (plus extra w.channels) w' := by
  obtain ⟨w₁, hadd, rfl, rfl⟩ := build_insert_eq_ok h
  have hbooks₁ := (fixes_books (fixes_addReceiver r)).ok hadd
  have hsound₁ : Sound extra w₁ := by
    unfold Sound
    rw [hbooks₁]
    exact hsound
  have hchannels : w₁.channels = w.channels := congrArg Books.channels hbooks₁
  have hsound₂ : Sound (plus extra w₁.channels) (w₁.addChannel (.new (some r))) :=
    hsound₁.addChannel rfl rfl rfl fun _ _ => ⟨rfl, rfl⟩
  rw [← hchannels]
  refine ⟨rfl, ?_⟩
  unfold Sound
  rw [books_modifyRequest]
  -- the new channel is in no map yet
  have hfresh : w₁.channels ∉ w.books.pipelines r := by
    intro hmem
    have hparent := hsound.mapped hmem
    rw [(hsound.fresh (Nat.le_of_eq hchannels.symm)).2.2.1] at hparent
    cases hparent
  have haccount : ∀ {d}, d ≠ w₁.channels →
      (w₁.addChannel (.new (some r))).books.account d = w.books.account d := by
    intro d hd
    rw [← hbooks₁]
    exact congrArg SharedChannel.account (World.channel_addChannel_of_ne w₁ _ hd)
  refine Books.Sound.setPipelines hsound₂ (fun d hd => ?_) ?_
  · by_cases hdw : d = w₁.channels
    · rw [hdw]
      show ((w₁.addChannel (.new (some r))).channel w₁.channels).parentRequest = some r
      rw [World.channel_addChannel_self]
      rfl
    · rw [haccount hdw]
      rw [List.map_append, List.mem_append] at hd
      rcases hd with hd | hd
      · exact hsound.mapped (hmap.subset hd)
      · exact absurd (List.mem_singleton.1 hd) hdw
  · rw [List.map_append]
    refine List.nodup_append.2 ⟨(hsound.nodup r).sublist hmap, List.nodup_singleton _, ?_⟩
    rintro d hd d' hd' rfl
    rw [List.mem_singleton.1 hd'] at hd
    exact hfresh (hmap.subset hd)

lemma mem_of_lookup {map : List (C.PipelineKey × ChannelId)} {key : C.PipelineKey}
    (h : map.lookup key = some c) : (key, c) ∈ map := by
  obtain ⟨l₁, l₂, rfl, -⟩ := List.lookup_eq_some_iff.1 h
  exact List.mem_append_right _ List.mem_cons_self

/-- A pipelined sender is one that is counted. -/
lemma build_ok {w w' : World C} {r : RequestId} {key : C.PipelineKey} {out : Option Sender}
    (hsound : Sound extra w) (h : build r key w = .ok out w') :
    (out = none ∧ w' = w) ∨ ∃ sender, out = some sender ∧ Sound (plus extra sender.shared) w' := by
  rcases build_cases h with ⟨-, hnone⟩ | ⟨-, ⟨c, rfl, hlookup, -, hadd⟩ | ⟨-, hinsert⟩⟩
  · exact Or.inl hnone
  · refine Or.inr ⟨_, rfl, ?_⟩
    have hmem : c ∈ w.books.pipelines r := List.mem_map_of_mem (f := Prod.snd) (mem_of_lookup hlookup)
    have hlt : c < w.books.channels := by
      by_contra hlt
      have hparent := hsound.mapped hmem
      rw [(hsound.fresh (Nat.not_lt.1 hlt)).2.2.1] at hparent
      cases hparent
    unfold Sound
    rw [books_addSender hadd]
    exact Books.Sound.addSender hsound hlt
  · obtain ⟨rfl, hsound'⟩ := build_insert_ok hsound (List.Sublist.map _ List.filter_sublist) hinsert
    exact Or.inr ⟨_, rfl, hsound'⟩

/-- Nothing is pending for a request that is not there. -/
lemma Sound.newRequest {w w' : World C} {msg : C.Parameters} {receivers : ℕ} {u : Unit}
    (hsound : Sound extra w) (h : newRequest msg receivers w = .ok u w') : Sound extra w' := by
  cases h
  have hbooks : World.books (C := C) _ = w.books.setPipelines w.requests [] :=
    books_modifyRequest w w.requests fun _ => .new msg receivers
  show Books.Sound (World.books (C := C) (w.modifyRequest w.requests fun _ => .new msg receivers)) _
  rw [hbooks]
  exact Books.Sound.setPipelines hsound (fun d hd => absurd hd List.not_mem_nil) List.nodup_nil

lemma Sound.freeChannel {w w' : World C} {u : Unit} (hsound : Sound extra w)
    (hlt : c < w.channels) (hreceiver : w.receiver c = false) (hfreed : w.freed c = false)
    (h : freeChannel c w = .ok u w') : Sound extra w' := by
  have hrest := of_bind rfl h
  obtain ⟨_, w₁, hmodify, hrest⟩ := bind_eq_ok.1 hrest
  have hbooks₁ : w₁.books = w.books.free c := by
    cases hmodify
    rfl
  obtain ⟨_, w₂, hdrop, hrest⟩ := bind_eq_ok.1 hrest
  have hbooks₂ := (fixes_books (fixes_sharedDropReceiver _)).ok hdrop
  rw [hbooks₁] at hbooks₂
  have hsound₂ := Books.Sound.free hsound hlt hreceiver hfreed
  rw [← hbooks₂] at hsound₂
  rcases hheld : (w.channel c).held with _ | sender
  · rw [show (w.books.account c).held = none from hheld] at hsound₂
    rw [hheld] at hrest
    cases hrest
    exact hsound₂
  · rw [show (w.books.account c).held = some sender from hheld] at hsound₂
    rw [hheld] at hrest
    exact Sound.removeSender hsound₂ hrest

namespace Call

variable {w w' : World C} {out : Output C}

/-- A call that only returns after a program what it returned. -/
lemma sound_of_tame {α : Type} {x : ChanM C α} {f : α → Output C} (hx : Tame x)
    (hsound : Sound extra w) (h : (do let a ← x; pure (f a) : ChanM C _) w = .ok out w') :
    Sound extra w' := by
  obtain ⟨a, hrun, rfl⟩ := bind_pure_ok h
  exact (hx _ _ _ _ hsound hrun).1

/-- **The books stay sound.** -/
theorem exec_sound {call : Call C} (hallowed : call.Allowed w) (hsound : Sound extra w)
    (h : call.exec w = .ok out w') : Sound extra w' := by
  have hcore : call.LeavesCore → Prog.Fixes World.core call.exec := fixes_exec
  cases call with
  | channel =>
    cases h
    have hsound₂ : Sound (plus extra w.channels) (w.addChannel (.new none)) :=
      hsound.addChannel rfl rfl rfl fun _ hr => nomatch hr
    have haccount : (w.addChannel (.new none)).books.account w.channels
        = SharedChannel.account (.new none : SharedChannel C) :=
      congrArg SharedChannel.account (World.channel_addChannel_self w _)
    have hloose : (w.addChannel (.new none)).books.Loose w.channels := by
      obtain ⟨-, -, -, hreceiver, hfreed⟩ := hsound.fresh (Nat.le_refl _)
      refine ⟨Nat.lt_succ_self _, ?_, ?_, hreceiver, hfreed⟩
      · rw [haccount]
        exact ⟨rfl, rfl⟩
      · rw [haccount]
        rfl
    exact (Books.Sound.giveReceiver hsound₂ hloose).holdSender
  | broken err =>
    cases h
    have hsound₂ : Sound (plus extra w.channels) (w.addChannel (.resolved (.error err))) :=
      hsound.addChannel rfl rfl rfl fun _ hr => nomatch hr
    exact Books.Sound.holdSender hsound₂
  | cloneSender s =>
    obtain ⟨self, w₁, hs, hadd, rfl⟩ := exec_cloneSender_ok h
    have hsound₂ : Sound (plus extra self.shared) w₁ := by
      unfold Sound
      rw [books_addSender hadd]
      exact Books.Sound.addSender hsound (hsound.sender_lt hs)
    exact Books.Sound.holdSender hsound₂
  | dropSender s =>
    obtain ⟨self, hs, hdrop⟩ := exec_dropSender_ok h
    have hsound₂ : Sound (plus extra self.shared)
        { w with senders := w.senders.set s ⟨self, false⟩ } :=
      Books.Sound.releaseSender hsound hs
    exact hsound₂.removeSender hdrop
  | resolveInPlace s =>
    obtain ⟨self, resolved, w₁, hs, hleads, hadd, hdrop⟩ := exec_resolveInPlace_ok h
    have hbooks := books_addSender hadd
    have hlt := hsound.leads_lt (hsound.sender_lt hs) hleads
    have hsound₂ : Sound (plus extra resolved) w₁ := by
      unfold Sound
      rw [hbooks]
      exact Books.Sound.addSender hsound hlt
    have hs₂ : w₁.books.senders[s]? = some ⟨self, true⟩ := by
      rw [hbooks]
      exact hs
    have hsound₃ : Sound (plus extra self.shared)
        { w₁ with senders := w₁.senders.set s ⟨⟨resolved⟩, true⟩ } :=
      Books.Sound.replaceSender hsound₂ hs₂
    exact hsound₃.removeSender hdrop
  | send s req =>
    exact (tame_bind (tame_of_fixes (fixes_getSender s)) fun self =>
      tame_bind (tame_of_fixes (fixes_books_send self req)) fun _ =>
        tame_of_fixes (fixes_pure _)) _ _ _ _ hsound h |>.1
  | sendEvent s event =>
    exact (tame_bind (tame_of_fixes (fixes_getSender s)) fun self =>
      tame_bind (tame_of_fixes (fixes_books_sendEvent self event)) fun _ =>
        tame_of_fixes (fixes_pure _)) _ _ _ _ hsound h |>.1
  | forwardTo c other =>
    obtain ⟨sender, done, w₁, hs, hforward, -, rfl⟩ := exec_forwardTo_ok h
    have hloose := Books.Sound.loose hsound hallowed
    have hsound₂ : Sound extra { w with receiver := Function.update w.receiver c false } :=
      Books.Sound.takeReceiver hsound c
    obtain ⟨hsound₃, hback⟩ := hsound₂.forwardTo hloose (hsound.sender_lt hs) hforward
    cases done with
    | true => exact Books.Sound.takeReceiver hsound₃ c
    | false =>
      rw [hback rfl] at hsound₃ ⊢
      exact Books.Sound.giveReceiver hsound₃ hloose
  | pollClosed _ _ | dropRequest _ | respond _ | tailCall _ _ | dropResponder _
  | resultsSenderRespond _ _ | dropResultsSender _ | cloneTracker _ | dropTracker _ =>
    exact (tame_of_fixes (fixes_books (hcore trivial)) _ _ _ _ hsound h).1
  | pollRecv c waker => exact sound_of_tame (tame_of_fixes (fixes_books_pollRecv c waker)) hsound h
  | tryRecv c => exact sound_of_tame (tame_of_fixes (fixes_books_tryRecv c)) hsound h
  | close c err =>
    have hsound₁ : Sound extra { w with receiver := Function.update w.receiver c false } :=
      Books.Sound.takeReceiver hsound c
    exact (close_ok hsound₁ (Books.Sound.loose hsound hallowed) (exec_close_ok h)).1
  | dropReceiver c =>
    have hsound₁ : Sound extra { w with receiver := Function.update w.receiver c false } :=
      Books.Sound.takeReceiver hsound c
    exact hsound₁.dropReceiver (Books.Sound.loose hsound hallowed) (exec_dropReceiver_ok h)
  | requestResponse msg | requestPipeline msg | requestResponsePipeline msg =>
    cases h
    exact hsound.newRequest rfl
  | responderRespond r resp => exact sound_of_tame (tame_responderRespond r resp) hsound h
  | setPipeline r dst => exact sound_of_tame (tame_setPipeline r dst) hsound h
  | build t key =>
    obtain ⟨r, -, ⟨hbuild, -⟩ | ⟨sender, w₁, hbuild, -, rfl⟩⟩ := exec_build_cases h
    · obtain ⟨-, rfl⟩ | ⟨sender, hsome, -⟩ := build_ok hsound hbuild
      · exact hsound
      · cases hsome
    · obtain ⟨hnone, -⟩ | ⟨sender', hsome, hsound₂⟩ := build_ok hsound hbuild
      · cases hnone
      · cases hsome
        exact Books.Sound.holdSender hsound₂
  | freeChannel c =>
    obtain ⟨_, hfree, rfl⟩ := bind_pure_ok h
    obtain ⟨hlt, hfreed, hstrong⟩ := hallowed
    refine hsound.freeChannel hlt ?_ hfreed hfree
    rw [← Bool.not_eq_true]
    exact fun hreceiver => hstrong (Or.inr (Or.inl hreceiver))
  | freeRequest r =>
    cases h
    unfold Sound
    rw [books_modifyRequest]
    exact Books.Sound.setPipelines hsound (fun d hd => absurd hd List.not_mem_nil) List.nodup_nil

end Call

/-- No sender is on its way between calls. -/
lemma sound_empty : Sound (fun _ => 0) (World.empty : World C) where
  count _ := rfl
  isOpen _ := rfl
  fresh _ := ⟨rfl, ⟨rfl, rfl⟩, rfl, rfl, rfl⟩
  receiver h := nomatch h
  pending h := nomatch h
  target h := nomatch h
  mapped h := absurd h List.not_mem_nil
  nodup _ := List.nodup_nil

/-- In every run the books are sound. -/
theorem Run.sound {steps : List (Step C)} {w : World C} (h : Run steps w) :
    Sound (fun _ => 0) w := by
  induction h with
  | empty => exact sound_empty
  | step h hruns ih => exact Call.exec_sound hruns.1 ih hruns.2

end Recapn.Channel

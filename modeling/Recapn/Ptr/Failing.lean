/-
# Promotions that fail

A promotion clears the pointer first, and sets it when there is a larger object.  Allocations may
fail before that and after it.  When there is no room for the object the pointer stays null.  When
there is none for a landing pad of a pointer that moves, the promotion stops half way, and the
pointer leads to what there is of the object.
-/
import Recapn.Ptr.ListPromotion
import Recapn.Ptr.ListAlloc

namespace Recapn.Ptr

open Recapn.Lib Recapn.Lib.Prog

/-- The error is about an allocation. -/
def Error.IsAllocation : Error → Prop
  | allocTooLarge => True
  | allocFailed _ => True
  | _ => False

/-- A call fails cleanly when an allocation that fails leaves its pointer null, and every other
error leaves the message as it was. -/
structure FailsCleanly {α : Type} (slot : SegmentRef) (a : Arena) (outcome : Outcome Error Arena α) :
    Prop where
  allocation : ∀ e a', outcome = .error e a' → e.IsAllocation → a'.word slot = Word.null
  other : ∀ e a', outcome = .error e a' → ¬ e.IsAllocation → a' = a

/-! ## Room for a promotion -/

/-- When a struct is promoted, there are landing pads for its pointers where it moves to. -/
def StructSize.PadsFit (size newSize : StructSize) (a : Arena) (slot start : SegmentRef) : Prop :=
  ∀ place builder a', (⟨slot.segment⟩ : ObjectBuilder).allocStruct slot newSize a =
      .ok (place, builder) a' →
    ∃ b, allocPadsFor ⟨start.segment⟩ builder (fun k => a.word (start.offset (size.data + k)))
      size.ptrs a' = .ok () b

/-- When a list is upgraded to one of structs that fits into a segment, there are landing pads for
its pointers where it moves to. -/
def ElementSize.PadsFit (size : ElementSize) (newSize : StructSize) (count : ElementCount) (a : Arena)
    (slot start : SegmentRef) : Prop :=
  (inlineComposite newSize).exactWords count < 2 ^ 29 →
  ∀ place len builder a', (⟨slot.segment⟩ : ObjectBuilder).allocList slot (inlineComposite newSize)
      count a = .ok (place, len, builder) a' →
    ∃ b, size.allocPads ⟨start.segment⟩ builder (fun k => a.word (start.offset k)) count.get a' =
      .ok () b

/-- If the tree is a struct that has to be promoted, its landing pads fit. -/
def Tree.StructPadsFit (a : Arena) (slot : SegmentRef) (expected : Option StructSize) : Tree → Prop
  | object (.struct size) start _ _ _ => ∀ e ∈ expected, e.fitsInside size = false →
      size.PadsFit (e.max size) a slot start
  | _ => True

/-- If the tree is a list that has to be upgraded, its landing pads fit. -/
def Tree.ListPadsFit (a : Arena) (slot : SegmentRef) (expected : Option ElementSize) : Tree → Prop
  | object (.list size count) start _ _ _ => ∀ e ∈ expected, ∀ newSize,
      size.upgradeTo e = some (.inlineComposite newSize) → .inlineComposite newSize ≠ size →
      size.PadsFit newSize count a slot start
  | _ => True

section Alloc

variable {a a' : Arena} {self : ObjectBuilder} {slot place : SegmentRef}

/-- An allocation of a list that fails changes nothing that was there. -/
lemma ObjectBuilder.allocList_error (hwf : a.Wf) (hself : self.segment = slot.segment)
    (hslot : slot.pos < a.used slot.segment) {size : ElementSize} {count : ElementCount} {e : Error}
    (h : self.allocList slot size count a = .error e a') : e.IsAllocation ∧ a.Grows ∅ a' := by
  rw [allocList] at h
  dsimp only at h
  by_cases hzero : (size.totalWords count.get + if size.isInlineComposite then 1 else 0) % 2 ^ 32 = 0
  · replace h := (if_pos_apply hzero _ _ _).symm.trans h
    cases (bind_of_ok (setPtr_apply hwf hslot _)).symm.trans h
  · replace h := (if_neg_apply hzero _ _ _).symm.trans h
    rcases bind_eq_error.1 h with hlarge | ⟨len, a₁, hlen, h⟩
    · rcases hnew : AllocLen.new ((size.totalWords count.get +
          if size.isInlineComposite then 1 else 0) % 2 ^ 32) with _ | len
      · rw [hnew] at hlarge
        cases hlarge
        exact ⟨trivial, .refl hwf⟩
      · rw [hnew] at hlarge
        cases hlarge
    · obtain ⟨-, rfl⟩ := okOr_eq_ok.1 hlen
      -- the count that goes into the pointer: the conversion may panic, but does not fail
      have hcount : ∀ s, (∃ words, (if size.isInlineComposite = true then
          Prog.unwrap (U29.new (size.totalWords count.get)) else pure count : BuildM ElementCount) s =
            .ok words s) ∨ (if size.isInlineComposite = true then
          Prog.unwrap (U29.new (size.totalWords count.get)) else pure count : BuildM ElementCount) s =
            .halt .panic := by
        intro s
        cases size.isInlineComposite
        · exact Or.inl ⟨count, rfl⟩
        · rcases U29.new (size.totalWords count.get) with _ | words
          · exact Or.inr rfl
          · exact Or.inl ⟨words, rfl⟩
      rcases hcount a with ⟨words, hwords⟩ | hhalt
      · replace h := (bind_of_ok hwords).symm.trans h
        rcases placeList_cases hwf hself hslot size count words len with
          ⟨place, a₂, hplace, hplaces⟩ | ⟨n, a₂, hplace, hgrows⟩
        · replace h := (bind_of_ok hplace).symm.trans h
          have hused := (Arena.mem_fresh.1 (hplaces.mem_fresh place
            ⟨rfl, Nat.le_refl _, Nat.lt_add_of_pos_right len.get_pos⟩)).2
          cases size with
          | inlineComposite s =>
            have htag : (setTag ⟨place.segment⟩ place count (.inlineComposite s)) a₂ = .ok _ _ :=
              bind_of_ok (setPtr_apply hplaces.grows.wf hused _)
            cases (bind_of_ok htag).symm.trans h
          | _ => cases h
        · cases (bind_of_error hplace).symm.trans h
          exact ⟨trivial, hgrows⟩
      · cases (bind_of_halt hhalt).symm.trans h

/-- A list of structs that fits into a segment gets a block of null words behind its tag, and the
pointer is not null. -/
lemma ObjectBuilder.allocList_structs {S : Set SegmentRef} {a₁ : Arena} {size : StructSize}
    {count : ElementCount} (hgrows : Arena.Grows S a a₁) (hself : self.segment = slot.segment)
    (hslot : slot.pos < a.used slot.segment) (hmem : slot ∈ S)
    (hfits : (ElementSize.inlineComposite size).exactWords count < 2 ^ 29)
    {x : SegmentRef × ObjectLen × ObjectBuilder}
    (h : self.allocList slot (.inlineComposite size) count a₁ = .ok x a') :
    x.2.2 = ⟨x.1.segment⟩ ∧ Prepares a S x.1 (size.total * count.get) a' ∧
      a'.word slot ≠ Word.null := by
  have hexact := @exactWords_inlineComposite count size
  have hslot₁ : slot.pos < a₁.used slot.segment := hgrows.lt_used hslot
  rcases allocList_place hgrows.wf hself hslot₁ hfits (by omega) with
    ⟨words, len, place, a₂, -, hlen, hplaces, hrun⟩ | ⟨n, a₂, herror, -⟩
  · rw [hlen, hexact] at hplaces
    have hplace : place ∈ span place (count.get * size.total + 1) := ⟨rfl, Nat.le_refl _, by omega⟩
    have hfresh := hplaces.mem_fresh place hplace
    have hused := (Arena.mem_fresh.1 hfresh).2
    have hset := Arena.grows_set hplaces.grows.wf hused (StructPtr.newInlineCompositeTag count size)
    have htag : (setTag ⟨place.segment⟩ place count (.inlineComposite size)) a₂ = .ok _ _ :=
      bind_of_ok (setPtr_apply hplaces.grows.wf hused _)
    cases h.symm.trans (hrun.trans (bind_of_ok htag))
    have hsub : ∀ r ∈ span (place.offset 1) (size.total * count.get),
        r ∈ span place (count.get * size.total + 1) ∧ r ≠ place := by
      rintro r ⟨hsegment, hle, hlt⟩
      have hle' : place.pos + 1 ≤ r.pos := hle
      have hlt' : r.pos < place.pos + 1 + size.total * count.get := hlt
      rw [Nat.mul_comm] at hlt'
      refine ⟨⟨hsegment, by omega, by omega⟩, ?_⟩
      rintro rfl
      omega
    have hne : slot ≠ place := fun heq => ne_of_fresh hslot₁ hfresh heq.symm
    have hgrows₂ : Arena.Grows S a a₂ := hgrows.trans hplaces.grows fun r _ hr =>
      Set.mem_singleton_iff.1 hr ▸ hmem
    refine ⟨rfl, ⟨?_, fun r hr => ?_, fun r hr => ?_⟩, ?_⟩
    · refine hgrows₂.trans hset fun r hr hr' => ?_
      obtain rfl := Set.mem_singleton_iff.1 hr'
      exact absurd (hgrows.lt_used hr) (Nat.not_lt.2 (Arena.mem_fresh.1 hfresh).1)
    · rw [Arena.fresh_write]
      have hr' := Arena.mem_fresh.1 (hplaces.mem_fresh r (hsub r hr).1)
      exact Arena.mem_fresh.2 ⟨(hgrows.used_le _).trans hr'.1, hr'.2⟩
    · rw [Arena.word_set hused, if_neg (hsub r hr).2]
      exact hplaces.word_eq_null r (hsub r hr).1
    · rw [Arena.word_set hused, if_neg hne]
      exact word_ne_null_of_leads (Arena.lt_length_of_used (Nat.zero_lt_of_lt
        (hplaces.grows.lt_used hslot₁))) hplaces.leads.holds
  · cases h.symm.trans herror

/-- Clearing the pointers to an object only writes words. -/
lemma ObjectBuilder.sameRoom_clearPtrs {u : Unit} (h : self.clearPtrs slot a = .ok u a') :
    Arena.SameRoom a' a := by
  have hkeeps : Prog.Keeps (fun a a' => Arena.SameRoom a' a) (self.clearPtrs slot) := by
    have htrans : ∀ a a' a'' : Arena, a'.SameRoom a → a''.SameRoom a' → a''.SameRoom a :=
      fun _ _ _ h h' => h'.trans h
    have hset : ∀ (builder : ObjectBuilder) (r : SegmentRef) (word : WirePtr),
        Prog.Keeps (fun a a' => Arena.SameRoom a' a) (builder.setPtr r word : BuildM Unit) := by
      intro builder r word a
      rw [setPtr, Arena.writeSection]
      by_cases hle : r.pos + 1 ≤ a.len r.segment
      · rw [if_pos hle]
        exact .write _ _ _ _
      · rw [if_neg hle]
        trivial
    have hread : ∀ r : SegmentRef, Prog.Keeps (fun a a' => Arena.SameRoom a' a)
        (Arena.read r : BuildM Word) := by
      intro r a
      rw [Arena.read]
      by_cases hlt : r.pos < a.len r.segment
      · rw [if_pos hlt]
        exact .refl a
      · rw [if_neg hlt]
        trivial
    refine keeps_bind htrans (hread slot) fun word => keeps_ite ?_ (hset _ _ _)
    refine keeps_bind htrans (fun a => Arena.SameRoom.refl a) fun object => ?_
    rcases object with _ | ⟨pad, builder⟩
    · exact fun a => Arena.SameRoom.refl a
    · refine keeps_bind htrans (hset _ _ _) fun _ => keeps_bind htrans ?_ fun _ => hset _ _ _
      exact keeps_ite (hset _ _ _) fun a => Arena.SameRoom.refl a
  exact hkeeps.ok h

end Alloc

/-! ## Promotions step by step -/

lemma ElementSize.respects_allocPads {size : ElementSize} {srcBuilder dstBuilder : ObjectBuilder}
    {words : ℕ → Word} {count : ℕ} :
    Prog.Respects Arena.SameRoom (size.allocPads srcBuilder dstBuilder words count) := by
  cases size with
  | pointer => exact respects_allocPadsFor
  | inlineComposite size => exact respects_forRange fun _ => respects_allocPadsFor
  | _ => exact respects_pure ()

section Failing

variable {a a₁ a' : Arena} {slot : SegmentRef} {α β : Type}

/-- A call that does not fail fails cleanly. -/
lemma FailsCleanly.of_ok {x : β} {out : Outcome Error Arena β} (h : out = .ok x a') :
    FailsCleanly slot a out := by
  subst h
  exact ⟨fun e a' heq => (nomatch heq), fun e a' heq => (nomatch heq)⟩

lemma FailsCleanly.of_halt {r : Halt} {out : Outcome Error Arena β} (h : out = .halt r) :
    FailsCleanly slot a out := by
  subst h
  exact ⟨fun e a' heq => (nomatch heq), fun e a' heq => (nomatch heq)⟩

/-- An error that is noticed before anything is done. -/
lemma FailsCleanly.of_error {e : Error} {out : Outcome Error Arena β} (h : out = .error e a)
    (he : ¬ e.IsAllocation) : FailsCleanly slot a out := by
  subst h
  refine ⟨fun e' a' heq he' => ?_, fun e' a' heq _ => ?_⟩
  · cases heq
    exact absurd he' he
  · cases heq
    rfl

/-- A failed allocation that left the pointer null. -/
lemma FailsCleanly.of_null {e : Error} {out : Outcome Error Arena β} (h : out = .error e a')
    (he : e.IsAllocation) (hnull : a'.word slot = Word.null) : FailsCleanly slot a out := by
  subst h
  refine ⟨fun e' a' heq _ => ?_, fun e' a' heq he' => ?_⟩
  · cases heq
    exact hnull
  · cases heq
    exact absurd he he'

/-- A promotion clears the pointer, allocates an object and moves something there.  It fails
cleanly just when the landing pads for what moves can be allocated behind the object. -/
lemma failsCleanly_iff_of_steps (alloc : BuildM α) (pads : α → BuildM Unit) {clear : BuildM Unit}
    {move : α → BuildM Unit} {finish : α → BuildM β} (hclear : clear a = .ok () a₁) (hroom : a₁.SameRoom a)
    (halloc : Prog.Respects Arena.SameRoom alloc)
    (hpads : ∀ x, Prog.Respects Arena.SameRoom (pads x))
    (herror : ∀ e a₂, alloc a₁ = .error e a₂ → e.IsAllocation ∧ a₂.word slot = Word.null)
    (hmove : ∀ x a₂, alloc a₁ = .ok x a₂ → ∃ F P, Transfers (move x) (pads x) F P a₂ ∧ slot ∉ F ∧
      slot.pos < a₂.used slot.segment ∧ a₂.word slot ≠ Word.null)
    (hfinish : ∀ x s e s', finish x s ≠ .error e s') :
    FailsCleanly slot a ((do
        clear
        let x ← alloc
        move x
        finish x : BuildM β) a) ↔
      ∀ x a₂, alloc a = .ok x a₂ → ∃ b, pads x a₂ = .ok () b := by
  rw [bind_of_ok hclear]
  have hrelated := halloc a₁ a hroom
  rcases hrun : alloc a₁ with ⟨x, a₂⟩ | ⟨e, a₂⟩ | r
  · obtain ⟨b₂, hrun', hroom'⟩ := halloc.ok hroom hrun
    obtain ⟨F, P, htransfers, hout, hlive, hsome⟩ := hmove x a₂ hrun
    rw [bind_of_ok hrun]
    rcases htransfers with ⟨a₃, b, hmoved, hpadsRun, -⟩ | ⟨n, a₃, b, hmoved, hpadsRun, hgrows⟩
    · rw [bind_of_ok hmoved]
      refine iff_of_true ?_ ?_
      · rcases hend : finish x a₃ with ⟨y, a₄⟩ | ⟨e, a₄⟩ | r
        · exact .of_ok rfl
        · exact absurd hend (hfinish x a₃ e a₄)
        · exact .of_halt rfl
      · intro x' a₂' heq
        cases hrun'.symm.trans heq
        obtain ⟨b', hb', -⟩ := (hpads x).ok hroom' hpadsRun
        exact ⟨b', hb'⟩
    · -- the pointer leads to the new object already
      rw [bind_of_error hmoved]
      refine iff_of_false (fun h => ?_) (fun h => ?_)
      · exact hsome ((hgrows.word_eq hlive hout).symm.trans (h.allocation _ _ rfl trivial))
      · obtain ⟨b', hb'⟩ := h x b₂ hrun'
        obtain ⟨b'', hb'', -⟩ := (hpads x).error hroom' hpadsRun
        cases hb'.symm.trans hb''
  · obtain ⟨he, hnull⟩ := herror e a₂ hrun
    obtain ⟨b₂, hrun', -⟩ := halloc.error hroom hrun
    rw [bind_of_error hrun]
    refine iff_of_true (.of_null rfl he hnull) fun x a₂' heq => ?_
    cases hrun'.symm.trans heq
  · rw [bind_of_halt hrun]
    refine iff_of_true (.of_halt rfl) fun x a₂' heq => ?_
    rw [hrun, heq] at hrelated
    cases hrelated

end Failing

/-! ## Structs and lists -/

section Objects

variable {a a' : Arena} {self : PtrBuilder} {start : SegmentRef} {size : StructSize}
  {pads : List SegmentRef} {t : ℕ → Target}

/-- What is left when the pointers to an object were cleared. -/
lemma clearPtrs_grows {slot : SegmentRef} {builder : ObjectBuilder} {ptr : WirePtr}
    {location : BuildLocation} (hwf : a.Wf) (hhops : Hops a slot ptr location pads)
    (hslot : slot.pos < a.used slot.segment) (hpads : ∀ r ∈ pads, r.pos < a.used r.segment) :
    ∃ a₁, builder.clearPtrs slot a = .ok () a₁ ∧ Erases (insert slot {r | r ∈ pads}) a a₁ ∧ a₁.Wf ∧
      a₁.used = a.used ∧ a₁.SameRoom a ∧ a₁.word slot = Word.null := by
  obtain ⟨a₁, hclear, ha, hkeeps, hused⟩ := @clearPtrs_of_hops a builder slot ptr location pads hhops
    (hslot.trans_le (hwf.used_le_len _)) fun r hr => (hpads r hr).trans_le (hwf.used_le_len _)
  exact ⟨a₁, hclear, ha, hkeeps hwf, hused, ObjectBuilder.sameRoom_clearPtrs hclear,
    ha.null slot (Set.mem_insert _ _)⟩

/-- Clearing a section does not fail. -/
lemma clearSection_ne_error {builder : ObjectBuilder} {len : ℕ} {e : Error} :
    builder.clearSection start len a ≠ .error e a' := by
  rw [ObjectBuilder.clearSection, Arena.writeSection]
  by_cases hle : start.pos + len ≤ a.len start.segment
  · rw [if_pos hle]
    rintro ⟨⟩
  · rw [if_neg hle]
    rintro ⟨⟩

/-- The promotion of a struct fails cleanly just when its landing pads fit. -/
lemma StructAt.failsCleanly_iff (h : StructAt a self.ptr start size pads t) (hwf : a.Wf)
    (hself : self.builder.segment = self.ptr.segment) {expected : StructSize}
    (hlarger : expected.fitsInside size = false) :
    FailsCleanly self.ptr a (self.toStructMut (some expected) a) ↔
      size.PadsFit (expected.max size) a self.ptr start := by
  obtain ⟨ptr, location, hhops, -⟩ := h.leads
  obtain ⟨a₁, hclear, ha, hwf₁, hused, hroom, hnull⟩ :=
    @clearPtrs_grows a pads self.ptr self.builder ptr location hwf hhops h.slot_lt h.pads_lt
  have hpos := StructSize.lt_of_not_fitsInside hlarger
  have hslot₁ : self.ptr.pos < a₁.used self.ptr.segment := by
    rw [hused]
    exact h.slot_lt
  have hbuilder : self.builder = ⟨self.ptr.segment⟩ := congrArg ObjectBuilder.mk hself
  rw [h.toStructMut_eq hwf hself rfl hlarger]
  refine (failsCleanly_iff_of_steps (self.builder.allocStruct self.ptr (expected.max size))
    (fun x => allocPadsFor ⟨start.segment⟩ x.2 (fun k => a.word (start.offset (size.data + k)))
      size.ptrs) hclear hroom (respects_allocStruct _ _) (fun _ => respects_allocPadsFor) ?_ ?_ ?_).trans ?_
  · intro e a₂ herror
    rcases ObjectBuilder.allocStruct_cases hwf₁ hself hslot₁ (expected.max size) with
      ⟨place, a₂', hrun, -⟩ | ⟨n, a₂', hrun, hunchanged⟩
    · cases hrun.symm.trans herror
    · cases hrun.symm.trans herror
      exact ⟨trivial, (hunchanged.grows.word_eq hslot₁ (Set.notMem_empty _)).trans hnull⟩
  · intro x a₂ hrun
    rcases ObjectBuilder.allocStruct_cases hwf₁ hself hslot₁ (expected.max size) with
      ⟨place, a₂', hrun', hlays⟩ | ⟨n, a₂', hrun', -⟩
    · cases hrun'.symm.trans hrun
      have hlive := hlays.grows.lt_used hslot₁
      obtain ⟨cost, hdenotes⟩ := hlays.denotes.holds
      refine ⟨_, _, h.transfers hwf ha hwf₁ hused hlays (Nat.le_max_right _ _) (Nat.le_max_right _ _)
        hpos, ?_, hlive, word_ne_null_of_denotes (Arena.lt_length_of_used (Nat.zero_lt_of_lt hlive))
        hpos hdenotes⟩
      -- the new words were not in use
      have hsub : span place size.data ∪ span (place.offset (expected.max size).data) size.ptrs ⊆
          span place (expected.max size).total := by
        refine Set.union_subset (span_mono ?_) (ptrs_subset_span (Nat.le_max_right _ _) rfl)
        exact (Nat.le_max_right _ _).trans (Nat.le_add_right _ _)
      exact fun hmem => absurd h.slot_lt (Nat.not_lt.2 (hlays.fresh_of_used hused (hsub hmem)).1)
    · cases hrun'.symm.trans hrun
  · intro x s e s' hrun
    rcases bind_eq_error.1 hrun with hclear' | ⟨_, _, _, hreturn⟩
    · exact clearSection_ne_error hclear'
    · cases hreturn
  · rw [hbuilder]
    exact ⟨fun hpads place builder a₂ hrun => hpads (place, builder) a₂ hrun,
      fun hpads x a₂ hrun => hpads x.1 x.2 a₂ hrun⟩

lemma clearListSection_ne_error {builder : ObjectBuilder} {elementSize : ElementSize}
    {count : ElementCount} {e : Error} :
    builder.clearListSection start elementSize count a ≠ .error e a' := by
  rw [ObjectBuilder.clearListSection]
  rcases AllocLen.new (elementSize.objectWords count.get) with _ | len
  · rintro ⟨⟩
  · dsimp only
    by_cases hstructs : elementSize.isInlineComposite = true
    · rw [if_pos_apply hstructs]
      by_cases hpos : 0 < start.pos
      · rw [require_of hpos, pure_bind_eq]
        exact clearSection_ne_error
      · have hhalt : (Prog.require (0 < start.pos) : BuildM Unit) a = .halt .undefined := by
          rw [Prog.require, if_neg hpos]
          rfl
        rw [bind_of_halt hhalt]
        rintro ⟨⟩
    · rw [if_neg_apply hstructs]
      exact clearSection_ne_error

variable {elementSize expected : ElementSize} {newSize : StructSize} {count : ElementCount}

/-- The upgrade of a list fails cleanly just when its landing pads fit. -/
lemma ListAt.failsCleanly_iff (h : ListAt a self.ptr start elementSize count pads t) (hwf : a.Wf)
    (hself : self.builder.segment = self.ptr.segment)
    (hupgrade : elementSize.upgradeTo expected = some (.inlineComposite newSize))
    (hother : ElementSize.inlineComposite newSize ≠ elementSize) :
    FailsCleanly self.ptr a (self.toListMut (some expected) a) ↔
      elementSize.PadsFit newSize count a self.ptr start := by
  obtain ⟨ptr, location, n, hhops, -⟩ := h.leads
  obtain ⟨a₁, hclear, ha, hwf₁, hused, hroom, hnull⟩ :=
    @clearPtrs_grows a pads self.ptr self.builder ptr location hwf hhops h.slot_lt h.pads_lt
  have hslot₁ : self.ptr.pos < a₁.used self.ptr.segment := by
    rw [hused]
    exact h.slot_lt
  have hbuilder : self.builder = ⟨self.ptr.segment⟩ := congrArg ObjectBuilder.mk hself
  have hexact := @exactWords_inlineComposite count newSize
  have hmax := U29.maxValue_eq
  have herror : ∀ e a₂, self.builder.allocList self.ptr (.inlineComposite newSize) count a₁ =
      .error e a₂ → e.IsAllocation ∧ a₂.word self.ptr = Word.null := by
    intro e a₂ hrun
    obtain ⟨he, hgrows⟩ := ObjectBuilder.allocList_error hwf₁ hself hslot₁ hrun
    exact ⟨he, (hgrows.word_eq hslot₁ (Set.notMem_empty _)).trans hnull⟩
  rw [h.toListMut_eq hwf hself rfl hupgrade hother]
  by_cases hfits : (ElementSize.inlineComposite newSize).exactWords count < 2 ^ 29
  · refine (failsCleanly_iff_of_steps
      (self.builder.allocList self.ptr (.inlineComposite newSize) count)
      (fun x => elementSize.allocPads ⟨start.segment⟩ x.2.2 (fun k => a.word (start.offset k))
        count.get) hclear hroom (respects_allocList _ _ _) (fun _ => ElementSize.respects_allocPads)
      herror ?_ ?_).trans ?_
    · intro x a₂ hrun
      obtain ⟨hbuilder', hprepares, hsome⟩ := ObjectBuilder.allocList_structs (ha.grows hwf₁ hused)
        hself h.slot_lt (Set.mem_insert _ _) hfits hrun
      have htransfers := h.transfers hwf (ElementSize.fitsIn_of_upgradeTo hupgrade hother) hother
        (by rw [Nat.mul_comm]; omega) hprepares
      rw [← hbuilder'] at htransfers
      refine ⟨_, _, htransfers, ?_, h.slot_lt.trans_le (hprepares.grows.used_le _), hsome⟩
      rintro ⟨k, hk, hmem⟩
      have hnew := hprepares.fresh _ (ElementSize.movesTo_subset_list
        (ElementSize.fitsIn_of_upgradeTo hupgrade hother) hk hmem)
      exact absurd h.slot_lt (Nat.not_lt.2 (Arena.mem_fresh.1 hnew).1)
    · intro x s e s' hrun
      rcases bind_eq_error.1 hrun with hclear' | ⟨_, _, _, hreturn⟩
      · exact clearListSection_ne_error hclear'
      · cases hreturn
    · rw [hbuilder]
      exact ⟨fun hpads _ place len builder a₂ hrun => hpads (place, len, builder) a₂ hrun,
        fun hpads x a₂ hrun => hpads hfits x.1 x.2.1 x.2.2 a₂ hrun⟩
  · -- the size wrapped around, and the distance of the structs is refused
    refine iff_of_true ?_ fun hfits' => absurd hfits' hfits
    rw [bind_of_ok hclear]
    rcases hrun : self.builder.allocList self.ptr (.inlineComposite newSize) count a₁ with
      ⟨x, a₂⟩ | ⟨e, a₂⟩ | r
    · have hlarge : ¬ newSize.total * count.get ≤ U29.maxValue := by
        by_cases hrest : 2 ^ 29 ≤ (ElementSize.inlineComposite newSize).exactWords count % 2 ^ 32
        · cases hrun.symm.trans (allocList_of_large hrest)
        · rw [Nat.mul_comm]
          omega
      have hhalt : promoteList start elementSize ⟨start.segment⟩ x.1 newSize x.2.2 count a₂ =
          .halt .panic := by
        rw [promoteList.eq_def, stepByUnchecked]
        refine bind_of_halt ?_
        rw [Prog.assert, if_neg hlarge]
        rfl
      rw [bind_of_ok hrun]
      exact .of_halt (bind_of_halt hhalt)
    · rw [bind_of_error hrun]
      exact .of_null rfl (herror e a₂ hrun).1 (herror e a₂ hrun).2
    · rw [bind_of_halt hrun]
      exact .of_halt rfl

/-! ### Errors that are noticed before -/

lemma not_isAllocation_failRead {ptr : WirePtr} {read : Option ExpectedRead} :
    ¬ (WirePtr.failRead ptr read).IsAllocation :=
  fun h => h

/-- A pointer that is no pointer to a struct is refused. -/
lemma failsCleanly_toStructMut {ptr : WirePtr} {location : BuildLocation} {expected : Option StructSize}
    (hhops : Hops a self.ptr ptr location pads) (hslot : self.ptr.pos < a.len self.ptr.segment)
    (hpads : ∀ r ∈ pads, r.pos < a.len r.segment) (hsome : a.word self.ptr ≠ Word.null)
    (hkind : WirePtr.kind ptr ≠ .struct) :
    FailsCleanly self.ptr a (self.toStructMut expected a) := by
  obtain ⟨builder', hlocate, -⟩ := @locate_of_hops _ self.builder _ _ _ _ hhops hslot hpads
  have hbuild : self.builder.buildStruct self.ptr a = .error (WirePtr.failRead ptr (some .struct)) a :=
    (bind_of_ok hlocate).trans (if_neg_apply hkind _ _ _)
  have hinner : self.toStructMutInner expected a = .error _ a := bind_of_error hbuild
  refine .of_error ?_ (@not_isAllocation_failRead ptr (some .struct))
  refine (bind_of_ok (read_of_lt hslot)).trans ?_
  refine (if_neg_apply (fun hnull => hsome (Word.isNull_iff.1 hnull)) _ _ _).trans ?_
  exact bind_of_error hinner

/-- A pointer that is no pointer to a list is refused. -/
lemma failsCleanly_toListMut {ptr : WirePtr} {location : BuildLocation}
    {expected : Option ElementSize} (hhops : Hops a self.ptr ptr location pads)
    (hslot : self.ptr.pos < a.len self.ptr.segment) (hpads : ∀ r ∈ pads, r.pos < a.len r.segment)
    (hsome : a.word self.ptr ≠ Word.null) (hkind : WirePtr.kind ptr ≠ .list) :
    FailsCleanly self.ptr a (self.toListMut expected a) := by
  obtain ⟨builder', hlocate, -⟩ := @locate_of_hops _ self.builder _ _ _ _ hhops hslot hpads
  have hbuild : self.builder.buildList self.ptr a = .error (WirePtr.failRead ptr (some .list)) a :=
    (bind_of_ok hlocate).trans (if_neg_apply hkind _ _ _)
  have hinner : self.toListMutInner expected a = .error _ a := bind_of_error hbuild
  refine .of_error ?_ (@not_isAllocation_failRead ptr (some .list))
  refine (bind_of_ok (read_of_lt hslot)).trans ?_
  refine (if_neg_apply (fun hnull => hsome (Word.isNull_iff.1 hnull)) _ _ _).trans ?_
  exact bind_of_error hinner

/-- A struct that is large enough is handed out. -/
lemma StructAt.failsCleanly_of_fits (h : StructAt a self.ptr start size pads t) (hwf : a.Wf)
    (hself : self.builder.segment = self.ptr.segment) {expected : Option StructSize}
    (hfits : ∀ e ∈ expected, e.fitsInside size = true) :
    FailsCleanly self.ptr a (self.toStructMut expected a) := by
  obtain ⟨ptr, location, hhops, hkind, rfl, hbegins⟩ := h.leads
  have hlt : self.ptr.pos < a.len self.ptr.segment := h.slot_lt.trans_le (hwf.used_le_len _)
  have hpads : ∀ r ∈ pads, r.pos < a.len r.segment := fun r hr =>
    (h.pads_lt r hr).trans_le (hwf.used_le_len _)
  have hneeded : expected.filter (fun e => !e.fitsInside (StructPtr.size ptr)) = none := by
    rw [Option.filter_eq_none_iff]
    intro e he
    rw [hfits e he]
    decide
  have hinner : self.toStructMutInner expected a = _ := bind_of_ok
    (buildStruct_of_hops hself hhops hlt hpads hkind hbegins h.segment_lt)
  dsimp only at hinner
  rw [hneeded] at hinner
  have hrun : self.toStructMut expected a = _ := bind_of_ok (read_of_lt hlt)
  replace hrun := hrun.trans (if_neg_apply
    (fun hnull => h.ne_null (Word.isNull_iff.1 hnull)) _ _ _)
  exact .of_ok (hrun.trans (bind_of_ok hinner))

/-- A list that need not be upgraded is handed out, and one that cannot be is refused. -/
lemma ListAt.failsCleanly_of_kept (h : ListAt a self.ptr start elementSize count pads t) (hwf : a.Wf)
    (hself : self.builder.segment = self.ptr.segment) {expected : Option ElementSize}
    (hkept : ∀ e ∈ expected, ∀ newSize, elementSize.upgradeTo e = some (.inlineComposite newSize) →
      ElementSize.inlineComposite newSize = elementSize) :
    FailsCleanly self.ptr a (self.toListMut expected a) := by
  obtain ⟨ptr, location, n, hhops, hdescribed⟩ := h.leads
  have hle := hwf.used_le_len
  have hlt : self.ptr.pos < a.len self.ptr.segment := h.slot_lt.trans_le (hle _)
  have hbuild := buildList_of_hops hself hhops hlt (fun r hr => (h.pads_lt r hr).trans_le (hle _))
    hdescribed (fun r hr => (h.tag_lt r hr).trans_le (hle _)) h.segment_lt
  have hrun : self.toListMut expected a = _ := bind_of_ok (read_of_lt hlt)
  replace hrun := hrun.trans (if_neg_apply
    (fun hnull => h.ne_null (Word.isNull_iff.1 hnull)) _ _ _)
  have hinner : self.toListMutInner expected a = _ := bind_of_ok hbuild
  dsimp only at hinner
  -- the list as it is
  have hsame : PtrBuilder.upgradeSize elementSize expected = pure none →
      FailsCleanly self.ptr a (self.toListMut expected a) := by
    intro hsize
    rw [hsize, pure_bind_eq] at hinner
    exact .of_ok (hrun.trans (bind_of_ok hinner))
  rcases expected with _ | e
  · exact hsame rfl
  · rcases hupgrade : elementSize.upgradeTo e with _ | upgrade
    · have hsize : PtrBuilder.upgradeSize elementSize (some e) =
          Prog.throw (failUpgrade elementSize.asPtrSize e.asPtrSize) := by
        rw [PtrBuilder.upgradeSize, hupgrade]
      rw [hsize] at hinner
      refine .of_error (hrun.trans (bind_of_error (hinner.trans (bind_of_error rfl)))) ?_
      exact fun h => h
    · by_cases heq : upgrade = elementSize
      · refine hsame ?_
        rw [PtrBuilder.upgradeSize, hupgrade]
        exact if_pos heq
      · have hsize : PtrBuilder.upgradeSize elementSize (some e) = Prog.halt .panic := by
          rw [PtrBuilder.upgradeSize, hupgrade]
          dsimp only
          rw [if_neg heq]
          cases upgrade with
          | inlineComposite newSize => exact absurd (hkept e rfl newSize hupgrade) heq
          | _ => rfl
        rw [hsize] at hinner
        exact .of_halt (hrun.trans (bind_of_halt (hinner.trans (bind_of_halt rfl))))

/-! ### Every pointer -/

/-- A null pointer is no error. -/
lemma failsCleanly_of_null (hslot : self.ptr.pos < a.len self.ptr.segment)
    (hnull : a.word self.ptr = Word.null) (expected : Option StructSize)
    (expectedElement : Option ElementSize) :
    FailsCleanly self.ptr a (self.toStructMut expected a) ∧
      FailsCleanly self.ptr a (self.toListMut expectedElement a) :=
  ⟨.of_ok ((bind_of_ok (read_of_lt hslot)).trans
      (if_pos_apply (Word.isNull_iff.2 hnull) _ _ _)),
    .of_ok ((bind_of_ok (read_of_lt hslot)).trans
      (if_pos_apply (Word.isNull_iff.2 hnull) _ _ _))⟩

/-- **A promotion that fails leaves its pointer null, and any other error the message as it was,
just when the landing pads for the pointers that move fit behind the new object.** -/
theorem PtrBuilder.promotion_failsCleanly_iff {tree : Tree} (hwf : a.Wf)
    (hself : self.builder.segment = self.ptr.segment) (hbelow : tree.Below a self.ptr)
    (hseparate : tree.Separate self.ptr) (hinUse : tree.InUse a self.ptr)
    (expected : Option StructSize) (expectedElement : Option ElementSize) :
    (FailsCleanly self.ptr a (self.toStructMut expected a) ↔
      tree.StructPadsFit a self.ptr expected) ∧
    (FailsCleanly self.ptr a (self.toListMut expectedElement a) ↔
      tree.ListPadsFit a self.ptr expectedElement) := by
  have hslot := hbelow.slot_lt
  cases tree with
  | null =>
    obtain ⟨hstruct, hlist⟩ := failsCleanly_of_null hslot hbelow.2 expected expectedElement
    exact ⟨iff_of_true hstruct trivial, iff_of_true hlist trivial⟩
  | capability index =>
    obtain ⟨-, hcapability, -⟩ := hbelow
    have hkind : WirePtr.kind (a.word self.ptr) = .other := by
      by_contra hkind
      rw [WirePtr.not_isCapability_of_kind hkind] at hcapability
      cases hcapability
    have hsome : a.word self.ptr ≠ Word.null := ne_null_of_kind (by rw [hkind]; decide)
    have hhops : Hops a self.ptr (a.word self.ptr) (.near self.ptr) [] := .near (by rw [hkind]; decide)
    have hpads : ∀ r ∈ ([] : List SegmentRef), r.pos < a.len r.segment := fun r hr => nomatch hr
    exact ⟨iff_of_true (failsCleanly_toStructMut hhops hslot hpads hsome (by rw [hkind]; decide)) trivial,
      iff_of_true (failsCleanly_toListMut hhops hslot hpads hsome (by rw [hkind]; decide)) trivial⟩
  | object shape start count pads ptrs =>
    have hsome := hbelow.2.1
    have hpads := hbelow.2.2.2.1
    obtain ⟨ptr, location, hhops, hdescribed⟩ := hbelow.2.2.1
    cases shape with
    | struct size =>
      obtain ⟨t, hstruct⟩ := structAt_of_tree hbelow hseparate hinUse
      refine ⟨?_, iff_of_true (failsCleanly_toListMut hhops hslot hpads hsome ?_) trivial⟩
      · by_cases hlarger : ∃ e ∈ expected, e.fitsInside size = false
        · obtain ⟨e, rfl, hlarger⟩ := hlarger
          rw [hstruct.failsCleanly_iff hwf hself hlarger]
          refine ⟨fun hpads e' he' _ => ?_, fun hpads => hpads e rfl hlarger⟩
          obtain rfl := Option.some.inj he'
          exact hpads
        · push Not at hlarger
          refine iff_of_true (hstruct.failsCleanly_of_fits hwf hself fun e he => ?_)
            fun e he hlarger' => absurd hlarger' (hlarger e he)
          exact Bool.eq_true_of_not_eq_false (hlarger e he)
      · rw [hdescribed.1]
        decide
    | list size count' =>
      obtain ⟨t, hlist⟩ := listAt_of_tree hbelow hseparate hinUse
      have hkind : WirePtr.kind ptr = .list := by
        cases size with
        | inlineComposite => exact hdescribed.1
        | _ => exact hdescribed.1
      refine ⟨iff_of_true (failsCleanly_toStructMut hhops hslot hpads hsome ?_) trivial, ?_⟩
      · rw [hkind]
        decide
      · by_cases hother : ∃ e ∈ expectedElement, ∃ newSize,
            size.upgradeTo e = some (.inlineComposite newSize) ∧ .inlineComposite newSize ≠ size
        · obtain ⟨e, rfl, newSize, hupgrade, hother⟩ := hother
          rw [hlist.failsCleanly_iff hwf hself hupgrade hother]
          refine ⟨fun hpads e' he' newSize' hupgrade' _ => ?_,
            fun hpads => hpads e rfl newSize hupgrade hother⟩
          obtain rfl := Option.some.inj he'
          cases hupgrade.symm.trans hupgrade'
          exact hpads
        · push Not at hother
          refine iff_of_true (hlist.failsCleanly_of_kept hwf hself hother) ?_
          intro e he newSize hupgrade hne
          exact absurd (hother e he newSize hupgrade) hne

end Objects

/-- The promoted root and its landing pads fit. -/
theorem PtrBuilder.promotion_failsCleanly_iff_smallRoot :
    FailsCleanly ⟨0, 0⟩ smallRootArena (PtrBuilder.root.toStructMut (some largerRoot) smallRootArena) := by
  refine (@PtrBuilder.promotion_failsCleanly_iff smallRootArena PtrBuilder.root smallRootTree
    (wf_wordsArena (by decide) (by decide)) rfl below_smallRoot separate_smallRoot inUse_smallRoot
    (some largerRoot) none).1.2 ?_
  intro e he _ place builder a' hrun
  obtain rfl := Option.some.inj he
  have halloc : (⟨0⟩ : ObjectBuilder).allocStruct ⟨0, 0⟩ (largerRoot.max smallRoot) smallRootArena =
      .ok (⟨0, 4⟩, ⟨0⟩) _ := rfl
  cases halloc.symm.trans hrun
  exact ⟨_, rfl⟩

/-- An allocator with a segment of four words, and a second one of the size that is asked for. -/
def Alloc.twoSegments : Alloc where
  alloc requests size :=
    match requests with
    | [] => if size.get ≤ 4 then some ⟨4, U29.four_lt⟩ else none
    | [_] => some size.toU29
    | _ => none
  le_alloc := by
    intro requests size len h
    rcases requests with _ | ⟨_, _ | _⟩
    · obtain ⟨hle, heq⟩ := Option.ite_none_right_eq_some.1 h
      cases heq
      exact hle
    · cases h
      exact Nat.le_refl _
    · cases h

/-- A root struct and what is below it fill the first segment. -/
def crowdedArena : Arena :=
  (⟨.twoSegments, [AllocLen.one], [⟨⟨fun _ => Word.null, ⟨4, U29.four_lt⟩⟩, 0,
    .used ⟨4, AllocLen.four_pos, U29.four_lt⟩⟩], 0⟩ : Arena).write ⟨0, 0⟩ 4 fun k =>
      [StructPtr.new I30.zero smallRoot, ⟨7, 0, 0, 0, 0, 0, 0, 0⟩, StructPtr.new I30.zero oneWord,
        ⟨9, 0, 0, 0, 0, 0, 0, 0⟩].getD k Word.null

lemma reachable_crowdedArena : Reachable .twoSegments crowdedArena :=
  .write (@Reachable.allocInSegment _ _ _ ⟨0⟩ ⟨3, by decide, by decide⟩ _ (.root rfl) (by decide) rfl)
    ⟨0, 0⟩ 4 (by decide) _

/-- The promoted root fills the second segment, and there is no room for a landing pad: the root
leads to a struct without its pointer. -/
theorem PtrBuilder.not_promotion_failsCleanly :
    Reachable .twoSegments crowdedArena ∧ smallRootTree.Below crowdedArena ⟨0, 0⟩ ∧
      smallRootTree.Separate ⟨0, 0⟩ ∧ smallRootTree.InUse crowdedArena ⟨0, 0⟩ ∧
      ¬ FailsCleanly ⟨0, 0⟩ crowdedArena (PtrBuilder.root.toStructMut (some largerRoot) crowdedArena) := by
  refine ⟨reachable_crowdedArena, below_smallRootTree (by decide) rfl rfl, separate_smallRoot,
    inUse_smallRootTree (by decide), fun h => ?_⟩
  have hnull := h.allocation (.allocFailed 2) _ rfl trivial
  exact absurd hnull (by decide)

end Recapn.Ptr

/-
# What clearing a group resets

The code that clears a group writes zeros: to the slots of its fields, to its pointers and what is
below them, and to the slot of the discriminant.  The discriminant has 16 bits, and its slot counts
in 16 bits, but the code writes a literal of 32 bits: it clears the 32 bits at twice the place.
For the first slot that is the discriminant and 16 bits behind it, and for another slot it is not
the discriminant at all.
-/
import Recapn.Codegen.Group

namespace Recapn.Codegen

open Recapn.Lib Recapn.Ptr

/-! ## Clearing bits -/

/-- These bits became 0, and no other bit changed. -/
structure ClearsBits (B : Set (SegmentRef × ℕ)) (a a' : Arena) : Prop where
  length_eq : a'.segments.length = a.segments.length
  len_eq : a'.len = a.len
  cleared : ∀ b ∈ B, (a'.word b.1).bit b.2 = false
  same : ∀ b, b ∉ B → (a'.word b.1).bit b.2 = (a.word b.1).bit b.2

namespace ClearsBits

variable {B C : Set (SegmentRef × ℕ)} {S : Set SegmentRef} {a a' a'' : Arena}

lemma refl (a : Arena) : ClearsBits ∅ a a :=
  ⟨rfl, rfl, fun b hb => absurd hb (Set.notMem_empty b), fun _ _ => rfl⟩

/-- A bit that was 0 is 0. -/
lemma false_of_false (h : ClearsBits B a a') {b : SegmentRef × ℕ}
    (hb : (a.word b.1).bit b.2 = false) : (a'.word b.1).bit b.2 = false := by
  by_cases hB : b ∈ B
  · exact h.cleared b hB
  · rw [h.same b hB, hb]

/-- The bits that are 0 now. -/
lemma false_iff (h : ClearsBits B a a') (b : SegmentRef × ℕ) :
    (a'.word b.1).bit b.2 = false ↔ b ∈ B ∨ (a.word b.1).bit b.2 = false := by
  constructor
  · intro hb
    by_cases hB : b ∈ B
    · exact Or.inl hB
    · rw [h.same b hB] at hb
      exact Or.inr hb
  · rintro (hB | hb)
    · exact h.cleared b hB
    · exact h.false_of_false hb

lemma trans (h : ClearsBits B a a') (h' : ClearsBits C a' a'') : ClearsBits (B ∪ C) a a'' := by
  refine ⟨h'.length_eq.trans h.length_eq, h'.len_eq.trans h.len_eq, ?_, ?_⟩
  · rintro b (hb | hb)
    · exact h'.false_of_false (h.cleared b hb)
    · exact h'.cleared b hb
  · intro b hb
    rw [h'.same b fun hC => hb (Or.inr hC), h.same b fun hB => hb (Or.inl hB)]

lemma congr (h : ClearsBits B a a') (heq : B = C) : ClearsBits C a a' := heq ▸ h

/-- Words that are erased are bits that are cleared. -/
lemma of_erases (h : Erases S a a') : ClearsBits {b | b.1 ∈ S} a a' := by
  refine ⟨h.length_eq, h.len_eq, ?_, ?_⟩
  · intro b hb
    rw [h.null b.1 hb]
    exact Word.bit_null _
  · intro b hb
    rw [h.same b.1 hb]

lemma null_of_null (h : ClearsBits B a a') {r : SegmentRef} (hr : a.word r = Word.null) :
    a'.word r = Word.null := by
  refine Word.eq_null_iff_bit.2 fun i _ => (h.false_iff (r, i)).2 (Or.inr ?_)
  show (a.word r).bit i = false
  rw [hr, Word.bit_null]

/-- Words of which only zeros were cleared did not change. -/
lemma agrees (h : ClearsBits B a a') (hzero : ∀ b ∈ B, b.1 ∈ S → (a.word b.1).bit b.2 = false) :
    Agrees S a a' := by
  refine ⟨h.length_eq, h.len_eq, ?_⟩
  intro r hr
  refine Word.ext_bit fun i _ => ?_
  by_cases hB : (r, i) ∈ B
  · exact (h.cleared (r, i) hB).trans (hzero (r, i) hB hr).symm
  · exact h.same (r, i) hB

end ClearsBits

/-- The program returns and clears just these bits. -/
def Clears (x : Prog Empty Arena Unit) (B : Set (SegmentRef × ℕ)) (a : Arena) : Prop :=
  ∃ a', x a = .ok () a' ∧ ClearsBits B a a'

/-! ## Clearing a field -/

/-- The bits of a slot. -/
def slotBits (s : StructBuilder) (type : DataType) (slot : ℕ) : Set (SegmentRef × ℕ) :=
  {b | b.1 = s.dataStart.offset (type.begins slot / 64) ∧ type.begins slot % 64 ≤ b.2 ∧
    b.2 < type.begins slot % 64 + type.bits}

section Slots

variable {s : StructBuilder} {type : DataType} {slot value : ℕ} {a a' : Arena}

/-- The word with the slot is in its segment. -/
def SlotInSegment (s : StructBuilder) (type : DataType) (slot : ℕ) (a : Arena) : Prop :=
  s.dataStart.pos + type.begins slot / 64 < a.len s.dataStart.segment

lemma clears_setField (hlt : SlotInSegment s type slot a) :
    Clears (s.setFieldWithDefaultUnchecked type slot value value) (slotBits s type slot) a := by
  have hsegment : (s.dataStart.offset (type.begins slot / 64)).segment < a.segments.length :=
    lt_length_of_len (r := s.dataStart.offset (type.begins slot / 64)) hlt
  refine ⟨a.write (s.dataStart.offset (type.begins slot / 64)) 1 fun _ =>
    type.write (a.word (s.dataStart.offset (type.begins slot / 64))) slot 0, ?_, ?_⟩
  · have hread : (Arena.read (s.dataStart.offset (type.begins slot / 64)) : Prog Empty Arena Word) a =
        .ok _ a := if_pos hlt
    refine (Prog.bind_of_ok hread).trans ?_
    rw [Nat.xor_self]
    exact if_pos (Nat.succ_le_of_lt hlt)
  · refine ⟨Arena.length_write _ _ _ _, funext fun i => Arena.len_write _ _ _ _ i, ?_, ?_⟩
    · rintro ⟨r, i⟩ ⟨rfl, hle, hi⟩
      rw [Arena.word_write_of_mem _ _ _ _ hsegment rfl (Nat.le_refl _) (Nat.lt_succ_self _),
        DataType.bit_write_zero, if_pos ⟨hle, hi⟩]
    · rintro ⟨r, i⟩ hout
      by_cases hr : r = s.dataStart.offset (type.begins slot / 64)
      · subst hr
        rw [Arena.word_write_of_mem _ _ _ _ hsegment rfl (Nat.le_refl _) (Nat.lt_succ_self _),
          DataType.bit_write_zero, if_neg fun hi => hout ⟨rfl, hi⟩]
      · rw [Arena.word_write_of_not_mem]
        rintro ⟨heq, hle, hlt⟩
        exact hr (SegmentRef.ext heq (Nat.le_antisymm (Nat.lt_succ_iff.1 hlt) hle))

/-- A write that returned was in its segment. -/
lemma slotInSegment_of_ok
    (h : (s.setFieldWithDefaultUnchecked type slot value value : Prog Empty Arena Unit) a = .ok () a') :
    SlotInSegment s type slot a := by
  by_contra hlt
  have hread : (Arena.read (s.dataStart.offset (type.begins slot / 64)) : Prog Empty Arena Word) a =
      .halt .undefined := if_neg hlt
  have hrun := h.symm.trans (Prog.bind_of_halt hread)
  cases hrun

/-- What a field reads as when its default is written. -/
lemma dataField_eq_default_iff {default : ℕ} :
    s.dataFieldWithDefaultUnchecked type slot default a = default ↔
      ∀ b ∈ slotBits s type slot, (a.word b.1).bit b.2 = false := by
  have hxor : ∀ m : ℕ, m ^^^ default = default ↔ m = 0 := by
    intro m
    constructor
    · intro h
      have hself : m ^^^ default ^^^ default = default ^^^ default := by rw [h]
      rwa [Nat.xor_assoc, Nat.xor_self, Nat.xor_zero] at hself
    · rintro rfl
      exact Nat.zero_xor default
  rw [StructBuilder.dataFieldWithDefaultUnchecked, hxor, DataType.read_eq_zero_iff]
  constructor
  · rintro h ⟨r, i⟩ ⟨rfl, hle, hi⟩
    exact h i hle hi
  · intro h i hle hi
    exact h (_, i) ⟨rfl, hle, hi⟩

end Slots

/-! ## Calls of the code -/

/-- A call that the code makes: for a field with data, for a discriminant or for a pointer. -/
inductive ClearStep where
  | data (type : DataType) (slot : ℕ)
  | tag (slot : ℕ)
  | ptr (slot : ℕ)

/-- What the call does. -/
def ClearStep.run (s : StructBuilder) (clearCap : List ℕ → ℕ → Except Ptr.Error Unit)
    (depth : ℕ) : ClearStep → Prog Empty Arena Unit
  | data type slot => s.setFieldUnchecked type slot 0
  | tag slot => s.setFieldUnchecked .u32 slot 0
  | ptr slot => (s.ptrFieldMutUnchecked slot).clear clearCap depth

namespace GroupField

/-- The calls of the code for a field, in order. -/
def steps : GroupField → List ClearStep
  | void => []
  | data type slot _ => [.data type slot]
  | enum slot _ => [.data .u16 slot]
  | ptr slot => [.ptr slot]
  | group count fields tagSlot variantCount case variants =>
    (List.finRange count).flatMap (fun k => (fields k).steps) ++
      if variantCount = 0 then []
      else .tag tagSlot :: ((firstCase case).map fun k => (variants k).steps).getD []

variable {s : StructBuilder} {clearCap : List ℕ → ℕ → Except Ptr.Error Unit} {depth : ℕ}
  {size : StructSize} {g : GroupField}

/-- With distinct cases, the variant with case 0 is found. -/
lemma firstCase_eq_some {n : ℕ} {case : Fin n → ℕ} (hinj : Function.Injective case) {k : Fin n}
    (hk : case k = 0) : firstCase case = some k := by
  rcases hfound : firstCase case with _ | j
  · have hnone := List.find?_eq_none.1 hfound k (List.mem_finRange k)
    exact absurd (decide_eq_true hk) hnone
  · have hsome : (List.finRange n).find? (fun k => decide (case k = 0)) = some j := hfound
    have hj : case j = 0 := by simpa using List.find?_some hsome
    rw [hinj (hj.trans hk.symm)]

/-- Setting a field to its default is the same for all defaults. -/
lemma setField_default (type : DataType) (slot default : ℕ) :
    (s.setFieldWithDefaultUnchecked type slot default default : Prog Empty Arena Unit) =
      s.setFieldUnchecked type slot 0 := by
  rw [StructBuilder.setFieldUnchecked, StructBuilder.setFieldWithDefaultUnchecked,
    StructBuilder.setFieldWithDefaultUnchecked, Nat.xor_self, Nat.xor_self]

/-- The code is the run of its steps. -/
lemma clear_eq_fold (hfits : g.Fits size) :
    g.clear s clearCap depth = Prog.fold (fun _ step => step.run s clearCap depth) () g.steps := by
  have hone : ∀ step : ClearStep, Prog.fold (fun _ step => step.run s clearCap depth) () [step] =
      step.run s clearCap depth := by
    intro step
    refine funext fun a => ?_
    rw [Prog.fold_cons, Prog.bind_apply]
    rcases step.run s clearCap depth a with ⟨⟨⟩, a'⟩ | ⟨e, a'⟩ | r
    · rfl
    · rfl
    · rfl
  induction g with
  | void => rfl
  | data type slot default =>
    rw [clear, steps, hone, setField_default]
    rfl
  | enum slot default =>
    rw [clear, steps, hone]
    rfl
  | ptr slot =>
    have hslot : slot < 2 ^ 16 := by
      have hlt : slot < size.ptrs := hfits
      exact hlt.trans size.ptrs_lt
    rw [clear, steps, hone, Nat.mod_eq_of_lt hslot]
    rfl
  | group count fields tagSlot variantCount case variants ihfields ihvariants =>
    obtain ⟨hfields, hvariants, htag, hinj⟩ := hfits
    rw [clear, steps, Prog.fold_append,
      Prog.fold_flatMap fun k _ => ihfields k (hfields k)]
    congr 1
    funext _
    by_cases hcount : variantCount = 0
    · rw [if_pos hcount, if_pos hcount]
      rfl
    · obtain ⟨-, k, hk⟩ := htag hcount
      rw [if_neg hcount, if_neg hcount, firstCase_eq_some hinj hk]
      show _ = Prog.fold _ () (.tag tagSlot :: (variants k).steps)
      rw [Prog.fold_cons]
      congr 1
      funext _
      exact ihvariants k (hvariants k)

end GroupField

/-! ## Runs of the calls -/

/-- The tree is there and can be cleared, or it is cleared already. -/
def Standing (a : Arena) (slot : SegmentRef) (tree : Tree) : Prop :=
  tree.Below a slot ∧ tree.Tidy a ∨
    slot.pos < a.len slot.segment ∧ ∀ r ∈ tree.withSlot slot, a.word r = Word.null

lemma Standing.clearsBits {a a' : Arena} {slot : SegmentRef} {tree : Tree}
    {B : Set (SegmentRef × ℕ)} (h : Standing a slot tree) (ha : ClearsBits B a a')
    (hzero : ∀ b ∈ B, b.1 ∈ tree.withSlot slot → (a.word b.1).bit b.2 = false) :
    Standing a' slot tree := by
  rcases h with ⟨hbelow, htidy⟩ | ⟨hlt, hnull⟩
  · exact Or.inl ⟨hbelow.agree (ha.agrees hzero), htidy.mono ha.len_eq fun r => ha.null_of_null⟩
  · refine Or.inr ⟨?_, fun r hr => ha.null_of_null (hnull r hr)⟩
    rw [ha.len_eq]
    exact hlt

/-- A pointer is cleared with its tree, also a second time. -/
lemma Standing.clears {self : PtrBuilder} {clearCap : List ℕ → ℕ → Except Ptr.Error Unit}
    {depth : ℕ} {a : Arena} {tree : Tree} (h : Standing a self.ptr tree)
    (hseparate : tree.Separate self.ptr)
    (hclears : ClearsTree ((⟨ignoreErrors, clearCap⟩ : Nullifier Empty).clearPtr depth) tree) :
    Clears (self.clear clearCap depth) {b | b.1 ∈ tree.withSlot self.ptr} a := by
  rcases h with ⟨hbelow, htidy⟩ | ⟨hlt, hnull⟩
  · obtain ⟨a', hrun, ha'⟩ := PtrBuilder.clear_of_clearsTree hclears hbelow hseparate htidy
    exact ⟨a', hrun, .of_erases ha'⟩
  · have hword := hnull _ (Set.mem_insert _ _)
    obtain ⟨a', hrun, ha'⟩ := @PtrBuilder.clear_of_clearsTree self clearCap .null a depth
      (fun _ _ _ hbelow hsome => absurd hbelow.2 hsome) ⟨hlt, hword⟩ trivial trivial
    have hrest : Erases (tree.withSlot self.ptr) a' a' :=
      Erases.of_null fun r hr => ha'.null_of_null (hnull r hr)
    refine ⟨a', hrun, .of_erases ((ha'.trans hrest).congr ?_)⟩
    refine Set.union_eq_self_of_subset_left ?_
    rintro r (rfl | hr)
    · exact Set.mem_insert _ _
    · exact absurd hr (Set.notMem_empty r)

namespace ClearStep

/-- The bits that the call clears, where these trees are below the pointers. -/
def bits (s : StructBuilder) (t : ℕ → Tree) : ClearStep → Set (SegmentRef × ℕ)
  | data type slot => slotBits s type slot
  | tag slot => slotBits s .u32 slot
  | ptr slot => {b | b.1 ∈ (t slot).withSlot (s.ptrsStart.offset slot)}

/-- The word that the call writes to is in its segment. -/
def InSegment (s : StructBuilder) (a : Arena) : ClearStep → Prop
  | data type slot => SlotInSegment s type slot a
  | tag slot => SlotInSegment s .u32 slot a
  | ptr _ => True

lemma InSegment.len_eq {s : StructBuilder} {a a' : Arena} {step : ClearStep}
    (hlen : a'.len = a.len) : step.InSegment s a' ↔ step.InSegment s a := by
  cases step with
  | ptr => exact Iff.rfl
  | data type slot | tag slot =>
    show _ < a'.len _ ↔ _ < a.len _
    rw [hlen]

end ClearStep

/-- The trees of the pointers that are to be cleared are there, a recursion of this depth can clear
them, and no other of the calls changes them. -/
structure Ready (s : StructBuilder) (clearCap : List ℕ → ℕ → Except Ptr.Error Unit) (depth : ℕ)
    (t : ℕ → Tree) (steps : List ClearStep) (a : Arena) : Prop where
  standing : ∀ k, .ptr k ∈ steps → Standing a (s.ptrsStart.offset k) (t k)
  separate : ∀ k, .ptr k ∈ steps → (t k).Separate (s.ptrsStart.offset k)
  clears : ∀ k, .ptr k ∈ steps →
    ClearsTree ((⟨ignoreErrors, clearCap⟩ : Nullifier Empty).clearPtr depth) (t k)
  harmless : ∀ step ∈ steps, ∀ k, .ptr k ∈ steps → step ≠ .ptr k → ∀ b ∈ step.bits s t,
    b.1 ∈ (t k).withSlot (s.ptrsStart.offset k) → (a.word b.1).bit b.2 = false

namespace Ready

variable {s : StructBuilder} {clearCap : List ℕ → ℕ → Except Ptr.Error Unit} {depth : ℕ}
  {t : ℕ → Tree} {step : ClearStep} {steps : List ClearStep} {a a' : Arena}

/-- One call. -/
lemma clears_step (h : Ready s clearCap depth t (step :: steps) a) (hlt : step.InSegment s a) :
    Clears (step.run s clearCap depth) (step.bits s t) a := by
  cases step with
  | data type slot | tag slot => exact clears_setField hlt
  | ptr slot =>
    exact Standing.clears (h.standing slot List.mem_cons_self) (h.separate slot List.mem_cons_self)
      (h.clears slot List.mem_cons_self)

/-- What is left to do after a call. -/
lemma tail (h : Ready s clearCap depth t (step :: steps) a)
    (ha : ClearsBits (step.bits s t) a a') : Ready s clearCap depth t steps a' := by
  refine ⟨?_, fun k hk => h.separate k (List.mem_cons_of_mem _ hk),
    fun k hk => h.clears k (List.mem_cons_of_mem _ hk), ?_⟩
  · intro k hk
    have hstanding := h.standing k (List.mem_cons_of_mem _ hk)
    by_cases hsame : step = .ptr k
    · subst hsame
      refine Or.inr ⟨?_, ?_⟩
      · rw [ha.len_eq]
        rcases hstanding with ⟨hbelow, -⟩ | ⟨hlt, -⟩
        · exact hbelow.slot_lt
        · exact hlt
      · intro r hr
        exact Word.eq_null_iff_bit.2 fun i _ => ha.cleared (r, i) hr
    · exact hstanding.clearsBits ha fun b hb =>
        h.harmless step List.mem_cons_self k (List.mem_cons_of_mem _ hk) hsame b hb
  · intro step' hstep' k hk hne b hb hmem
    exact ha.false_of_false (h.harmless step' (List.mem_cons_of_mem _ hstep') k
      (List.mem_cons_of_mem _ hk) hne b hb hmem)

/-- All calls. -/
lemma clears_fold (h : Ready s clearCap depth t steps a)
    (hlt : ∀ step ∈ steps, step.InSegment s a) :
    Clears (Prog.fold (fun _ step => step.run s clearCap depth) () steps)
      {b | ∃ step ∈ steps, b ∈ step.bits s t} a := by
  induction steps generalizing a with
  | nil =>
    refine ⟨a, rfl, (ClearsBits.refl a).congr ?_⟩
    ext b
    simp
  | cons step steps ih =>
    obtain ⟨a', hrun, ha'⟩ := h.clears_step (hlt step List.mem_cons_self)
    obtain ⟨a'', hrun', ha''⟩ := ih (h.tail ha') fun step' hstep' =>
      (ClearStep.InSegment.len_eq ha'.len_eq).2 (hlt step' (List.mem_cons_of_mem _ hstep'))
    refine ⟨a'', (Prog.bind_of_ok hrun).trans hrun', (ha'.trans ha'').congr ?_⟩
    ext b
    simp

/-- When all calls returned, none wrote behind the end of the segment. -/
lemma inSegment_of_ok (h : Ready s clearCap depth t steps a)
    (hrun : Prog.fold (fun _ step => ClearStep.run s clearCap depth step) () steps a = .ok () a') :
    ∀ step ∈ steps, step.InSegment s a := by
  induction steps generalizing a with
  | nil => exact fun step hstep => absurd hstep List.not_mem_nil
  | cons step steps ih =>
    obtain ⟨⟨⟩, a₁, hstep, hrest⟩ := Prog.bind_eq_ok.1 hrun
    have hlt : step.InSegment s a := by
      cases step with
      | data type slot => exact slotInSegment_of_ok hstep
      | tag slot => exact slotInSegment_of_ok hstep
      | ptr slot => trivial
    obtain ⟨a₂, hstep', ha₂⟩ := h.clears_step hlt
    obtain rfl : a₁ = a₂ := by
      have heq := hstep'.symm.trans hstep
      cases heq
      rfl
    intro step' hmem
    rcases List.mem_cons.1 hmem with rfl | hmem
    · exact hlt
    · exact (ClearStep.InSegment.len_eq ha₂.len_eq).1 (ih (h.tail ha₂) hrest step' hmem)

end Ready

/-! ## Bits of the struct -/

namespace ClearStep

/-- The bits of the struct that the call clears. -/
def cleared (size : StructSize) : ClearStep → Set ℕ
  | data type slot => Set.Ico (type.begins slot) (type.begins slot + type.bits)
  | tag slot => Set.Ico (32 * slot) (32 * slot + 32)
  | ptr slot => Set.Ico (64 * (size.data + slot)) (64 * (size.data + slot) + 64)

/-- What the call is for is in the section of the struct where it belongs. -/
def Fits (size : StructSize) : ClearStep → Prop
  | data type slot => type.begins slot + type.bits ≤ 64 * size.data
  | tag slot => 16 * slot + 16 ≤ 64 * size.data
  | ptr slot => slot < size.ptrs

/-- What the call is for is at its default. -/
def IsDefault (s : StructBuilder) (a : Arena) : ClearStep → Prop
  | data type slot => ∀ b ∈ slotBits s type slot, (a.word b.1).bit b.2 = false
  | tag slot => ∀ b ∈ slotBits s .u16 slot, (a.word b.1).bit b.2 = false
  | ptr slot => a.word (s.ptrsStart.offset slot) = Word.null

end ClearStep

namespace GroupField

variable {s : StructBuilder} {size : StructSize} {a : Arena} {g : GroupField}

lemma mem_steps_group {count variantCount tagSlot : ℕ} {fields : Fin count → GroupField}
    {case : Fin variantCount → ℕ} {variants : Fin variantCount → GroupField}
    (hinj : Function.Injective case) {step : ClearStep} :
    step ∈ (group count fields tagSlot variantCount case variants).steps ↔
      (∃ k, step ∈ (fields k).steps) ∨ (variantCount ≠ 0 ∧ step = .tag tagSlot) ∨
        ∃ k, case k = 0 ∧ step ∈ (variants k).steps := by
  have hfields : step ∈ (List.finRange count).flatMap (fun k => (fields k).steps) ↔
      ∃ k, step ∈ (fields k).steps := by simp
  have hvariants : step ∈ ((firstCase case).map fun k => (variants k).steps).getD [] ↔
      ∃ k, case k = 0 ∧ step ∈ (variants k).steps := by
    constructor
    · intro hmem
      rcases hfound : firstCase case with _ | k
      · rw [hfound] at hmem
        exact absurd hmem List.not_mem_nil
      · rw [hfound] at hmem
        have hsome : (List.finRange variantCount).find? (fun k => decide (case k = 0)) = some k := hfound
        exact ⟨k, by simpa using List.find?_some hsome, hmem⟩
    · rintro ⟨k, hk, hmem⟩
      rw [firstCase_eq_some hinj hk]
      exact hmem
  rw [steps, List.mem_append, hfields]
  by_cases hcount : variantCount = 0
  · subst hcount
    rw [if_pos rfl]
    constructor
    · rintro (hk | hmem)
      · exact Or.inl hk
      · exact absurd hmem List.not_mem_nil
    · rintro (hk | ⟨hne, -⟩ | ⟨k, -⟩)
      · exact Or.inl hk
      · exact absurd rfl hne
      · exact k.elim0
  · rw [if_neg hcount, List.mem_cons, hvariants]
    simp [hcount]

/-- The calls of the code are for what fits in the struct. -/
lemma fits_of_mem_steps (hfits : g.Fits size) {step : ClearStep} (hmem : step ∈ g.steps) :
    step.Fits size := by
  induction g with
  | void => exact absurd hmem List.not_mem_nil
  | data type slot default | enum slot default | ptr slot =>
    obtain rfl := List.mem_singleton.1 hmem
    exact hfits
  | group count fields tagSlot variantCount case variants ihfields ihvariants =>
    obtain ⟨hfields, hvariants, htag, hinj⟩ := hfits
    rcases (mem_steps_group hinj).1 hmem with ⟨k, hk⟩ | ⟨hcount, rfl⟩ | ⟨k, -, hk⟩
    · exact ihfields k (hfields k) hk
    · exact (htag hcount).1
    · exact ihvariants k (hvariants k) hk

/-- Calls for fields and pointers clear what belongs to the group. -/
lemma cleared_subset_owns (hfits : g.Fits size) {step : ClearStep} (hmem : step ∈ g.steps)
    (hstep : ∀ slot, step ≠ .tag slot) : step.cleared size ⊆ g.Owns size := by
  induction g with
  | void => exact absurd hmem List.not_mem_nil
  | data type slot default | enum slot default | ptr slot =>
    obtain rfl := List.mem_singleton.1 hmem
    exact fun p hp => hp
  | group count fields tagSlot variantCount case variants ihfields ihvariants =>
    obtain ⟨hfields, hvariants, -, hinj⟩ := hfits
    rcases (mem_steps_group hinj).1 hmem with ⟨k, hk⟩ | ⟨-, heq⟩ | ⟨k, -, hk⟩
    · exact fun p hp => Or.inl ⟨k, ihfields k (hfields k) hk hp⟩
    · exact absurd heq (hstep tagSlot)
    · exact fun p hp => Or.inr (Or.inl ⟨k, ihvariants k (hvariants k) hk hp⟩)

/-- The group is at its default when everything is that the code has a call for. -/
lemma isDefault_iff (hfits : g.Fits size) :
    g.IsDefault s a ↔ ∀ step ∈ g.steps, step.IsDefault s a := by
  induction g with
  | void => exact ⟨fun _ step hmem => absurd hmem List.not_mem_nil, fun _ => trivial⟩
  | data type slot default | enum slot default =>
    rw [steps, List.forall_mem_singleton]
    exact dataField_eq_default_iff
  | ptr slot =>
    rw [steps, List.forall_mem_singleton]
    exact Iff.rfl
  | group count fields tagSlot variantCount case variants ihfields ihvariants =>
    obtain ⟨hfields, hvariants, -, hinj⟩ := hfits
    constructor
    · rintro ⟨hdefault, htag, hvariant⟩ step hmem
      rcases (mem_steps_group hinj).1 hmem with ⟨k, hk⟩ | ⟨hcount, rfl⟩ | ⟨k, hzero, hk⟩
      · exact (ihfields k (hfields k)).1 (hdefault k) step hk
      · exact dataField_eq_default_iff.1 (htag hcount)
      · exact (ihvariants k (hvariants k)).1 (hvariant k hzero) step hk
    · intro h
      refine ⟨?_, ?_, ?_⟩
      · intro k
        exact (ihfields k (hfields k)).2 fun step hk =>
          h step ((mem_steps_group hinj).2 (Or.inl ⟨k, hk⟩))
      · intro hcount
        exact dataField_eq_default_iff.2
          (h (.tag tagSlot) ((mem_steps_group hinj).2 (Or.inr (Or.inl ⟨hcount, rfl⟩))))
      · intro k hzero
        exact (ihvariants k (hvariants k)).2 fun step hk =>
          h step ((mem_steps_group hinj).2 (Or.inr (Or.inr ⟨k, hzero, hk⟩)))

end GroupField

/-! ## Groups that are reset -/

/-- The trees below the pointers of a struct have no word in common with each other or with the
struct. -/
structure PtrTrees (s : StructBuilder) (start : SegmentRef) (size : StructSize) (t : ℕ → Tree)
    (a : Arena) : Prop where
  below : ∀ k < size.ptrs, (t k).Below a (s.ptrsStart.offset k)
  separate : ∀ k < size.ptrs, (t k).Separate (s.ptrsStart.offset k)
  outside : ∀ k < size.ptrs, Disjoint (t k).words (span start size.total)
  apart : ∀ j < size.ptrs, ∀ k < size.ptrs, j ≠ k → Disjoint (t j).words (t k).words

namespace GroupField

/-- The pointers that the code clears can be cleared without harm, and no discriminant is written
over anything but zeros of them and of what is below them. -/
structure PtrsClear (g : GroupField) (s : StructBuilder) (t : ℕ → Tree) (a : Arena) : Prop where
  tidy : ∀ k, .ptr k ∈ g.steps → (t k).Tidy a
  spared : ∀ slot, .tag slot ∈ g.steps → ∀ k, .ptr k ∈ g.steps → ∀ b ∈ slotBits s .u32 slot,
    b.1 ∈ (t k).withSlot (s.ptrsStart.offset k) → (a.word b.1).bit b.2 = false

/-- The 32 bits that are written for a discriminant are in the segment, those of them that are in
the struct and set belong to the group, and a discriminant that is not 0 is overwritten. -/
structure TagsSpare (g : GroupField) (start : SegmentRef) (size : StructSize) (a : Arena) :
    Prop where
  inSegment : ∀ slot, .tag slot ∈ g.steps → start.pos + 32 * slot / 64 < a.len start.segment
  owned : ∀ slot, .tag slot ∈ g.steps → ∀ p < 64 * size.total,
    p ∈ Set.Ico (32 * slot) (32 * slot + 32) → structBit a start p = true → p ∈ g.Owns size
  covered : ∀ slot, .tag slot ∈ g.steps → ∀ p ∈ Set.Ico (16 * slot) (16 * slot + 16),
    structBit a start p = true → ∃ step ∈ g.steps, p ∈ step.cleared size

end GroupField

section Reset

variable {g : GroupField} {s : StructBuilder} {clearCap : List ℕ → ℕ → Except Ptr.Error Unit}
  {start : SegmentRef} {size : StructSize} {t : ℕ → Tree} {a a' : Arena}

lemma StandsAt.mem_slotBits (hstands : StandsAt s a start size) (type : DataType) (slot p : ℕ) :
    (start.offset (p / 64), p % 64) ∈ slotBits s type slot ↔
      p ∈ Set.Ico (type.begins slot) (type.begins slot + type.bits) := by
  have hword := type.begins_mod_add_le slot
  have hmem : (start.offset (p / 64), p % 64) ∈ slotBits s type slot ↔
      p / 64 = type.begins slot / 64 ∧ type.begins slot % 64 ≤ p % 64 ∧
        p % 64 < type.begins slot % 64 + type.bits := by
    constructor
    · rintro ⟨heq, hle, hlt⟩
      rw [hstands.dataStart] at heq
      exact ⟨offset_inj heq, hle, hlt⟩
    · rintro ⟨heq, hle, hlt⟩
      refine ⟨?_, hle, hlt⟩
      rw [hstands.dataStart]
      exact congrArg start.offset heq
  rw [hmem, Set.mem_Ico]
  omega

/-- Every bit of a slot is one of the struct. -/
lemma StandsAt.exists_of_mem_slotBits (hstands : StandsAt s a start size) {type : DataType}
    {slot : ℕ} {b : SegmentRef × ℕ} (hb : b ∈ slotBits s type slot) :
    ∃ p ∈ Set.Ico (type.begins slot) (type.begins slot + type.bits),
      b = (start.offset (p / 64), p % 64) := by
  have hword := type.begins_mod_add_le slot
  obtain ⟨r, i⟩ := b
  have hb' := hb
  obtain ⟨rfl, hle, hlt⟩ := hb'
  replace hle : type.begins slot % 64 ≤ i := hle
  replace hlt : i < type.begins slot % 64 + type.bits := hlt
  have hdiv : (64 * (type.begins slot / 64) + i) / 64 = type.begins slot / 64 := by omega
  have hmod : (64 * (type.begins slot / 64) + i) % 64 = i := by omega
  refine ⟨64 * (type.begins slot / 64) + i, Set.mem_Ico.2 (by omega), ?_⟩
  rw [hdiv, hmod, hstands.dataStart]

/-- The words of a tree below a pointer are not in the struct, but for the pointer. -/
lemma PtrTrees.mem_withSlot (hstands : StandsAt s a start size) (h : PtrTrees s start size t a)
    {k : ℕ} (hk : k < size.ptrs) {j : ℕ} (hj : j < size.total) :
    start.offset j ∈ (t k).withSlot (s.ptrsStart.offset k) ↔ j = size.data + k := by
  rw [hstands.ptrsStart, offset_offset]
  constructor
  · rintro (heq | hmem)
    · exact offset_inj heq
    · exact absurd ⟨rfl, Nat.le_add_right _ _, Nat.add_lt_add_left hj _⟩
        (Set.disjoint_left.1 (h.outside k hk) hmem)
  · rintro rfl
    exact Set.mem_insert _ _

/-- The bits of the struct among those that a call clears. -/
lemma PtrTrees.mem_bits (hstands : StandsAt s a start size) (h : PtrTrees s start size t a)
    {step : ClearStep} (hstep : step.Fits size) {p : ℕ} (hp : p < 64 * size.total) :
    (start.offset (p / 64), p % 64) ∈ step.bits s t ↔ p ∈ step.cleared size := by
  cases step with
  | data type slot => exact hstands.mem_slotBits type slot p
  | tag slot => exact hstands.mem_slotBits .u32 slot p
  | ptr slot =>
    refine (h.mem_withSlot hstands hstep (Nat.div_lt_of_lt_mul hp)).trans ?_
    show _ ↔ p ∈ Set.Ico (64 * (size.data + slot)) (64 * (size.data + slot) + 64)
    rw [Set.mem_Ico]
    omega

/-- What a call for a field or a pointer is for is at its default, and for a discriminant that
depends on its bits. -/
lemma isDefault_of_clearsBits (hstands : StandsAt s a start size) (h : PtrTrees s start size t a)
    (hfits : g.Fits size) (ha : ClearsBits {b | ∃ step ∈ g.steps, b ∈ step.bits s t} a a') :
    g.IsDefault s a' ↔ ∀ slot, .tag slot ∈ g.steps → ∀ p ∈ Set.Ico (16 * slot) (16 * slot + 16),
      structBit a start p = true → ∃ step ∈ g.steps, p ∈ step.cleared size := by
  have hbit : ∀ p < 64 * size.total,
      ((a'.word (start.offset (p / 64))).bit (p % 64) = false ↔
        (∃ step ∈ g.steps, p ∈ step.cleared size) ∨ structBit a start p = false) := by
    intro p hp
    refine (ha.false_iff (start.offset (p / 64), p % 64)).trans (or_congr_left ?_)
    constructor
    · rintro ⟨step, hmem, hb⟩
      exact ⟨step, hmem, (h.mem_bits hstands (GroupField.fits_of_mem_steps hfits hmem) hp).1 hb⟩
    · rintro ⟨step, hmem, hb⟩
      exact ⟨step, hmem, (h.mem_bits hstands (GroupField.fits_of_mem_steps hfits hmem) hp).2 hb⟩
  rw [GroupField.isDefault_iff hfits]
  constructor
  · intro hdefault slot hmem p hp hset
    have hfit : 16 * slot + 16 ≤ 64 * size.data := GroupField.fits_of_mem_steps hfits hmem
    have hlt : p < 64 * size.total := by
      have hle : size.data ≤ size.total := Nat.le_add_right _ _
      have hp' := hp.2
      omega
    have hzero := hdefault _ hmem (start.offset (p / 64), p % 64)
      ((hstands.mem_slotBits .u16 slot p).2 hp)
    rcases (hbit p hlt).1 hzero with hstep | hclear
    · exact hstep
    · rw [hset] at hclear
      cases hclear
  · intro hcovered step hmem
    cases step with
    | data type slot => exact fun b hb => ha.cleared b ⟨.data type slot, hmem, hb⟩
    | ptr slot =>
      refine Word.eq_null_iff_bit.2 fun i _ =>
        ha.cleared (s.ptrsStart.offset slot, i) ⟨.ptr slot, hmem, ?_⟩
      exact Set.mem_insert (s.ptrsStart.offset slot) (t slot).words
    | tag slot =>
      intro b hb
      obtain ⟨p, hp, rfl⟩ := hstands.exists_of_mem_slotBits hb
      have hfit : 16 * slot + 16 ≤ 64 * size.data := GroupField.fits_of_mem_steps hfits hmem
      have hlt : p < 64 * size.total := by
        have hle : size.data ≤ size.total := Nat.le_add_right _ _
        have hp' : p < 16 * slot + 16 := hp.2
        omega
      refine (hbit p hlt).2 ?_
      rcases hset : structBit a start p with _ | _
      · exact Or.inr rfl
      · exact Or.inl (hcovered slot hmem p hp hset)

/-- No bit of another field changed when the bits that are written for the discriminants allow it. -/
lemma frame_of_clearsBits (hstands : StandsAt s a start size) (h : PtrTrees s start size t a)
    (hfits : g.Fits size) (ha : ClearsBits {b | ∃ step ∈ g.steps, b ∈ step.bits s t} a a') :
    (∀ p < 64 * size.total, p ∉ g.Owns size → structBit a' start p = structBit a start p) ↔
      ∀ slot, .tag slot ∈ g.steps → ∀ p < 64 * size.total,
        p ∈ Set.Ico (32 * slot) (32 * slot + 32) → structBit a start p = true → p ∈ g.Owns size := by
  constructor
  · intro hframe slot hmem p hlt hp hset
    by_contra hout
    have hcleared := ha.cleared (start.offset (p / 64), p % 64)
      ⟨_, hmem, (hstands.mem_slotBits .u32 slot p).2 hp⟩
    have hsame := hframe p hlt hout
    rw [hset] at hsame
    exact absurd (hcleared.symm.trans hsame) Bool.false_ne_true
  · intro howned p hlt hout
    by_cases hB : ∃ step ∈ g.steps, (start.offset (p / 64), p % 64) ∈ step.bits s t
    · have hcleared : structBit a' start p = false :=
        ha.cleared (start.offset (p / 64), p % 64) hB
      rw [hcleared]
      obtain ⟨step, hmem, hb⟩ := hB
      have hp := (h.mem_bits hstands (GroupField.fits_of_mem_steps hfits hmem) hlt).1 hb
      by_cases htag : ∃ slot, step = .tag slot
      · obtain ⟨slot, rfl⟩ := htag
        rcases hset : structBit a start p with _ | _
        · rfl
        · exact absurd (howned slot hmem p hlt hp hset) hout
      · exact absurd (GroupField.cleared_subset_owns hfits hmem (not_exists.1 htag) hp) hout
    · exact ha.same (start.offset (p / 64), p % 64) hB

/-- A recursion that may go deep enough clears the pointers of the group. -/
lemma eventually_ready (hstands : StandsAt s a start size) (h : PtrTrees s start size t a)
    (hfits : g.Fits size) (hclear : g.PtrsClear s t a) :
    ∀ᶠ depth in Filter.atTop, Ready s clearCap depth t g.steps a := by
  have htrees : ∀ᶠ depth in Filter.atTop, ∀ k : Fin size.ptrs,
      ClearsTree ((⟨ignoreErrors, clearCap⟩ : Nullifier Empty).clearPtr depth) (t k) :=
    Filter.eventually_all.2 fun k => eventually_clearsTree (fun _ _ => rfl) (t k)
  filter_upwards [htrees] with depth hdepth
  have hptr : ∀ k, .ptr k ∈ g.steps → k < size.ptrs := fun k hmem =>
    GroupField.fits_of_mem_steps hfits hmem
  refine ⟨?_, ?_, ?_, ?_⟩
  · exact fun k hmem => Or.inl ⟨h.below k (hptr k hmem), hclear.tidy k hmem⟩
  · exact fun k hmem => h.separate k (hptr k hmem)
  · exact fun k hmem => hdepth ⟨k, hptr k hmem⟩
  · intro step hstep k hmem hne b hb hin
    have hk := hptr k hmem
    cases step with
    | data type slot =>
      -- the slot is in the data section
      obtain ⟨p, hp, rfl⟩ := hstands.exists_of_mem_slotBits hb
      have hfit : type.begins slot + type.bits ≤ 64 * size.data :=
        GroupField.fits_of_mem_steps hfits hstep
      have hp' := hp.2
      have hsum := size.total_eq
      have hword := (h.mem_withSlot hstands hk (j := p / 64) (by omega)).1 hin
      omega
    | tag slot => exact hclear.spared slot hstep k hmem b hb hin
    | ptr slot =>
      have hslot : slot < size.ptrs := hptr slot hstep
      have hne' : slot ≠ k := fun heq => hne (congrArg ClearStep.ptr heq)
      replace hb : b.1 ∈ (t slot).withSlot (s.ptrsStart.offset slot) := hb
      have hsum := size.total_eq
      have hout : ∀ i < size.ptrs, ∀ j < size.ptrs, i ≠ j →
          s.ptrsStart.offset i ∉ (t j).withSlot (s.ptrsStart.offset j) := by
        intro i hi j hj hij hmem
        rw [show s.ptrsStart.offset i = start.offset (size.data + i) by
          rw [hstands.ptrsStart, offset_offset]] at hmem
        have hword := (h.mem_withSlot hstands hj (j := size.data + i) (by omega)).1 hmem
        omega
      rcases hb with heq | hwords
      · rw [heq] at hin
        exact absurd hin (hout slot hslot k hk hne')
      · rcases hin with heq | hwords'
        · rw [heq] at hwords
          exact absurd (Or.inr hwords) (hout k hk slot hslot hne'.symm)
        · exact absurd hwords' (Set.disjoint_left.1 (h.apart slot hslot k hk hne') hwords)

/-- **Clearing a group resets it just when the 32 bits that are written for each discriminant spare
what is not in the group, and the discriminants are overwritten.** -/
theorem resets_iff_tagsSpare (hstands : StandsAt s a start size) (hfits : g.Fits size)
    (htrees : PtrTrees s start size t a) (hclear : g.PtrsClear s t a) :
    g.Resets s clearCap start size a ↔ g.TagsSpare start size a := by
  have hready := @eventually_ready g s clearCap start size t a hstands htrees hfits hclear
  have hreset : ∀ a', ClearsBits {b | ∃ step ∈ g.steps, b ∈ step.bits s t} a a' →
      (Reset g s start size a a' ↔ _ ∧ _) := fun a' ha' =>
    ⟨fun h => ⟨(isDefault_of_clearsBits hstands htrees hfits ha').1 h.isDefault,
      (frame_of_clearsBits hstands htrees hfits ha').1 h.frame⟩,
      fun h => ⟨(isDefault_of_clearsBits hstands htrees hfits ha').2 h.1,
        (frame_of_clearsBits hstands htrees hfits ha').2 h.2⟩⟩
  have hslot : ∀ slot, SlotInSegment s .u32 slot a ↔
      start.pos + 32 * slot / 64 < a.len start.segment := by
    intro slot
    rw [SlotInSegment, hstands.dataStart]
    exact Iff.rfl
  constructor
  · rintro ⟨n, hn⟩
    obtain ⟨depth, hdepth, hle⟩ := (hready.and (Filter.eventually_ge_atTop n)).exists
    obtain ⟨a', hrun, hreset'⟩ := hn depth hle
    rw [GroupField.clear_eq_fold hfits] at hrun
    have hlt := hdepth.inSegment_of_ok hrun
    obtain ⟨a'', hrun', ha''⟩ := hdepth.clears_fold hlt
    obtain rfl : a' = a'' := by
      have heq := hrun.symm.trans hrun'
      cases heq
      rfl
    obtain ⟨hcovered, howned⟩ := (hreset a' ha'').1 hreset'
    exact ⟨fun slot hmem => (hslot slot).1 (hlt _ hmem), howned, hcovered⟩
  · intro hspare
    obtain ⟨n, hn⟩ := Filter.eventually_atTop.1 hready
    refine ⟨n, fun depth hdepth => ?_⟩
    have hlt : ∀ step ∈ g.steps, step.InSegment s a := by
      intro step hmem
      cases step with
      | data type slot =>
        have hfit : type.begins slot + type.bits ≤ 64 * size.data :=
          GroupField.fits_of_mem_steps hfits hmem
        have hpos := type.bits_pos
        have hblock := hstands.block_le
        have hsum : size.total = size.data + size.ptrs := rfl
        show s.dataStart.pos + _ < a.len s.dataStart.segment
        rw [hstands.dataStart]
        omega
      | tag slot => exact (hslot slot).2 (hspare.inSegment slot hmem)
      | ptr slot => trivial
    obtain ⟨a', hrun, ha'⟩ := (hn depth hdepth).clears_fold hlt
    rw [← GroupField.clear_eq_fold hfits] at hrun
    exact ⟨a', hrun, (hreset a' ha').2 ⟨hspare.covered, hspare.owned⟩⟩

end Reset

/-! ## Unions -/

/-- A union of two members without data, with its discriminant at a slot. -/
def unionAt (slot : ℕ) : GroupField :=
  .group 0 (fun k => k.elim0) slot 2 (fun k => k.val) fun _ => .void

/-- A root struct of one data word. -/
def wordArena (word : Word) : Arena :=
  wordsArena [StructPtr.new I30.zero oneWord, word] ⟨2, Nat.two_pos, U29.two_lt⟩

/-- The builder of the root struct. -/
def wordBuilder : StructBuilder := ⟨⟨0⟩, ⟨0, 1⟩, ⟨0, 2⟩, 8, 0⟩

lemma wf_wordArena (word : Word) : (wordArena word).Wf := wf_wordsArena (by decide) (by simp)

lemma standsAt_wordBuilder (word : Word) :
    StandsAt wordBuilder (wordArena word) ⟨0, 1⟩ oneWord :=
  ⟨rfl, rfl, Nat.one_pos, (by decide : 1 + 1 ≤ 16)⟩

lemma ptrTrees_wordBuilder (word : Word) :
    PtrTrees wordBuilder ⟨0, 1⟩ oneWord (fun _ => .null) (wordArena word) :=
  ⟨fun _ hk => absurd hk (Nat.not_lt_zero _), fun _ hk => absurd hk (Nat.not_lt_zero _),
    fun _ hk => absurd hk (Nat.not_lt_zero _), fun _ hk => absurd hk (Nat.not_lt_zero _)⟩

lemma fits_unionAt {slot : ℕ} (h : 16 * slot + 16 ≤ 64) : (unionAt slot).Fits oneWord :=
  ⟨fun k => k.elim0, fun _ => trivial, fun _ => ⟨h, 0, rfl⟩, Fin.val_injective⟩

lemma steps_unionAt (slot : ℕ) : (unionAt slot).steps = [.tag slot] := rfl

lemma ptrsClear_unionAt (slot : ℕ) (a : Arena) :
    (unionAt slot).PtrsClear wordBuilder (fun _ => .null) a := by
  refine ⟨fun _ _ => trivial, ?_⟩
  intro _ _ k hmem
  rw [steps_unionAt, List.mem_singleton] at hmem
  cases hmem

/-- With its discriminant in front, and nothing in the two bytes behind it, the union is reset. -/
theorem resets_iff_tagsSpare_first :
    (unionAt 0).Resets wordBuilder (fun _ _ => .ok ()) ⟨0, 1⟩ oneWord
      (wordArena ⟨1, 0, 0, 0, 7, 0, 0, 0⟩) := by
  have hmem : ∀ slot, .tag slot ∈ (unionAt 0).steps → slot = 0 := by
    intro slot hmem
    rw [steps_unionAt, List.mem_singleton] at hmem
    cases hmem
    rfl
  refine (resets_iff_tagsSpare (standsAt_wordBuilder _) (fits_unionAt (by decide))
    (ptrTrees_wordBuilder _) (ptrsClear_unionAt 0 _)).2 ⟨?_, ?_, ?_⟩
  · intro slot hslot
    obtain rfl := hmem slot hslot
    exact (by decide : 1 + 0 < 16)
  · intro slot hslot p _ hp hset
    obtain rfl := hmem slot hslot
    have hbehind : ∀ p < 32, structBit (wordArena ⟨1, 0, 0, 0, 7, 0, 0, 0⟩) ⟨0, 1⟩ p = true → p < 16 := by
      decide
    exact Or.inr (Or.inr ⟨two_ne_zero, Nat.zero_le p, hbehind p hp.2 hset⟩)
  · intro slot hslot p hp _
    obtain rfl := hmem slot hslot
    refine ⟨.tag 0, List.mem_singleton_self _, Nat.zero_le p, ?_⟩
    exact Nat.lt_of_lt_of_le hp.2 (by decide)

/-- The discriminant at the second slot stays, and the field in the upper half of the word is
cleared. -/
theorem not_resets_second :
    (wordArena ⟨0, 0, 1, 0, 7, 0, 0, 0⟩).Wf ∧
      StandsAt wordBuilder (wordArena ⟨0, 0, 1, 0, 7, 0, 0, 0⟩) ⟨0, 1⟩ oneWord ∧
      (unionAt 1).Fits oneWord ∧
      ¬ (unionAt 1).Resets wordBuilder (fun _ _ => .ok ()) ⟨0, 1⟩ oneWord
        (wordArena ⟨0, 0, 1, 0, 7, 0, 0, 0⟩) := by
  refine ⟨wf_wordArena _, standsAt_wordBuilder _, fits_unionAt (by decide), ?_⟩
  rintro ⟨n, hn⟩
  obtain ⟨a, hrun, hreset⟩ := hn n (Nat.le_refl n)
  have hcleared : (unionAt 1).clear wordBuilder (fun _ _ => .ok ()) n
      (wordArena ⟨0, 0, 1, 0, 7, 0, 0, 0⟩) =
        .ok () ((wordArena ⟨0, 0, 1, 0, 7, 0, 0, 0⟩).write ⟨0, 1⟩ 1 fun _ =>
          ⟨0, 0, 1, 0, 0, 0, 0, 0⟩) := rfl
  rw [hcleared] at hrun
  cases hrun
  have hdiscriminant := hreset.isDefault.2.1 two_ne_zero
  exact absurd hdiscriminant (by decide)

end Recapn.Codegen

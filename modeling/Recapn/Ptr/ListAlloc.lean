/-
# Allocations of lists that are too large

The words of a list are counted with 32 bits.  A list of structs can have far more words, and the
count is then what is left of it modulo `2 ^ 32`.  If the rest is too large for a segment the
allocation is refused, as it should be; otherwise a list is allocated that has the rest only.
-/
import Recapn.Ptr.ReadBack

namespace Recapn.Ptr

open Recapn.Lib Recapn.Lib.Prog

/-- `OrphanObject`, of which only lists are allocated here. -/
inductive OrphanObject where
  | list (location : SegmentRef) (elementSize : PtrElementSize) (elementCount : ElementCount)
deriving DecidableEq, Repr

/-- Where the object of an orphan is. -/
def OrphanObject.location : OrphanObject → SegmentRef
  | .list location _ _ => location

/-- `ObjectBuilder::alloc_list_orphan`. -/
def ObjectBuilder.allocListOrphan (self : ObjectBuilder) (elementSize : ElementSize)
    (elementCount : ElementCount) : BuildM (OrphanObject × ObjectBuilder) :=
  let totalSize := elementSize.objectWords elementCount.get
  if totalSize = 0 then
    pure (.list self.start elementSize.asPtrSize elementCount, self)
  else do
    let len ← Prog.okOr .allocTooLarge (AllocLen.new totalSize)
    let alloc ← self.alloc len
    let (allocStart, segment) ← Prog.okOr (.allocFailed len.get) alloc
    match elementSize with
    | .inlineComposite size =>
      segment.setPtr allocStart (StructPtr.newInlineCompositeTag elementCount size)
    | _ => pure ()
    pure (.list allocStart elementSize.asPtrSize elementCount, segment)

/-- Where the words of a list start whose elements start at `start`: at the tag, if it has one. -/
def ElementSize.listPlace (size : ElementSize) (start : SegmentRef) : SegmentRef :=
  if size.isInlineComposite then ⟨start.segment, start.pos - 1⟩ else start

/-- A program answers with an error, or has allocated so many words at a place.  It does not
panic. -/
def AllocatesOrFails {α : Type} (x : BuildM α) (place : α → SegmentRef) (words : ℕ)
    (arena : Arena) : Prop :=
  match x arena with
  | .ok a arena' => span (place a) words ⊆ Arena.fresh arena arena'
  | .error _ _ => True
  | .halt _ => False

/-- In every arena, `alloc_list` allocates all words of such a list, or fails. -/
def ElementSize.AllocListSuffices (size : ElementSize) (count : ElementCount) : Prop :=
  ∀ (allocator : Alloc) (arena : Arena) (slot : SegmentRef), Reachable allocator arena →
    slot.pos < arena.used slot.segment →
    AllocatesOrFails ((⟨slot.segment⟩ : ObjectBuilder).allocList slot size count)
      (fun (start, _, _) => size.listPlace start) (size.exactWords count) arena

/-- In every arena, `alloc_list_orphan` allocates all words of such a list, or fails. -/
def ElementSize.AllocListOrphanSuffices (size : ElementSize) (count : ElementCount) : Prop :=
  ∀ (allocator : Alloc) (arena : Arena) (self : ObjectBuilder), Reachable allocator arena →
    self.segment < arena.segments.length →
    AllocatesOrFails (self.allocListOrphan size count) (fun (object, _) => object.location)
      (size.exactWords count) arena

/-! ## The size that is computed -/

section Size

variable {size : ElementSize} {count : ElementCount}

/-- The size that is computed is the exact one modulo `2 ^ 32`. -/
lemma totalSize_eq (size : ElementSize) (count : ElementCount) :
    (size.totalWords count.get + if size.isInlineComposite then 1 else 0) % 2 ^ 32
      = size.exactWords count % 2 ^ 32 :=
  Nat.mod_add_mod _ _ _

/-- Many words do not fit into one segment. -/
lemma not_span_subset_fresh {arena arena' : Arena} {place : SegmentRef} {words : ℕ}
    (hwords : 2 ^ 29 ≤ words) : ¬ span place words ⊆ Arena.fresh arena arena' := by
  intro hsub
  have hmem : (⟨place.segment, place.pos + (2 ^ 29 - 1)⟩ : SegmentRef) ∈ span place words :=
    ⟨rfl, Nat.le_add_right _ _, by
      show place.pos + (2 ^ 29 - 1) < place.pos + words
      omega⟩
  have hused : place.pos + (2 ^ 29 - 1) < arena'.used place.segment :=
    (Arena.mem_fresh.1 (hsub hmem)).2
  have hlt : arena'.used place.segment < 2 ^ 29 := by
    unfold Arena.used
    split
    · exact U29.get_lt _
    · decide
  omega

end Size

section Suffices

variable {size : ElementSize} {count : ElementCount} {arena : Arena} {self : ObjectBuilder}

/-- A list that fits into a segment is placed with all of its words, or not at all. -/
lemma allocList_of_fits {slot : SegmentRef} (hwf : arena.Wf) (hself : self.segment = slot.segment)
    (hslot : slot.pos < arena.used slot.segment) (hfits : size.exactWords count < 2 ^ 29) :
    AllocatesOrFails (self.allocList slot size count) (fun (start, _, _) => size.listPlace start)
      (size.exactWords count) arena := by
  unfold AllocatesOrFails
  by_cases hzero : size.exactWords count = 0
  · obtain ⟨hrun, -⟩ := ObjectBuilder.allocList_zero hwf hslot hself hfits hzero
    rw [hrun, hzero]
    rintro r ⟨-, hle, hlt⟩
    omega
  · rcases ObjectBuilder.allocList_place hwf hself hslot hfits hzero with
      ⟨words, len, place, arena₁, -, hlen, hplaces, hrun⟩ | ⟨n, arena', herror, -⟩
    · rw [hrun]
      have hplaced : span place (size.exactWords count) ⊆ Arena.fresh arena arena₁ := by
        rw [← hlen]
        exact hplaces.mem_fresh
      cases size with
      | inlineComposite s =>
        have hplaceUsed : place.pos < arena₁.used place.segment :=
          (Arena.mem_fresh.1 (hplaced ⟨rfl, Nat.le_refl _, by omega⟩)).2
        rw [ObjectBuilder.setTag, bind_apply,
          bind_of_ok (ObjectBuilder.setPtr_apply hplaces.grows.wf hplaceUsed _)]
        show span place _ ⊆ Arena.fresh arena (arena₁.write place 1 _)
        rw [Arena.fresh_write]
        exact hplaced
      | _ => exact hplaced
    · rw [herror]
      trivial

/-- A list whose size is still too large for a segment when it is computed is refused. -/
lemma allocList_of_large {slot : SegmentRef} (hlarge : 2 ^ 29 ≤ size.exactWords count % 2 ^ 32) :
    self.allocList slot size count arena = .error .allocTooLarge arena := by
  unfold ObjectBuilder.allocList
  dsimp only
  rw [totalSize_eq, if_neg_apply (by omega), AllocLen.new_eq_none.2 (Or.inr hlarge)]
  rfl

lemma objectWords_eq (size : ElementSize) (count : ElementCount) :
    size.objectWords count.get = size.exactWords count % 2 ^ 32 := totalSize_eq size count

/-- The same for an orphan. -/
lemma allocListOrphan_of_fits (hwf : arena.Wf) (hself : self.segment < arena.segments.length)
    (hfits : size.exactWords count < 2 ^ 29) :
    AllocatesOrFails (self.allocListOrphan size count) (fun (object, _) => object.location)
      (size.exactWords count) arena := by
  have htotal : size.objectWords count.get = size.exactWords count := by
    rw [objectWords_eq]
    exact Nat.mod_eq_of_lt (by omega)
  unfold AllocatesOrFails ObjectBuilder.allocListOrphan
  dsimp only
  rw [htotal]
  by_cases hzero : size.exactWords count = 0
  · rw [if_pos_apply hzero, hzero]
    rintro r ⟨-, hle, hlt⟩
    omega
  · rw [if_neg_apply hzero, AllocLen.new_of_mem (Nat.pos_of_ne_zero hzero) hfits,
      okOr_some, pure_bind_eq]
    rcases ObjectBuilder.alloc_cases hwf hself ⟨_, Nat.pos_of_ne_zero hzero, hfits⟩ with
      ⟨arena', hrun, -⟩ | ⟨place, arena₁, hrun, hallocates⟩
    · rw [bind_of_ok hrun]
      trivial
    · rw [bind_of_ok hrun]
      have hplaced : span place (size.exactWords count) ⊆ Arena.fresh arena arena₁ :=
        fun r hr => hallocates.mem_fresh hr
      cases size with
      | inlineComposite s =>
        have hplaceUsed : place.pos < arena₁.used place.segment :=
          (Arena.mem_fresh.1 (hplaced ⟨rfl, Nat.le_refl _, by omega⟩)).2
        rw [okOr_some, pure_bind_eq]
        dsimp only
        rw [bind_of_ok (ObjectBuilder.setPtr_apply hallocates.wf hplaceUsed _)]
        show span place _ ⊆ Arena.fresh arena (arena₁.write place 1 _)
        rw [Arena.fresh_write]
        exact hplaced
      | _ => exact hplaced

lemma allocListOrphan_of_large (hlarge : 2 ^ 29 ≤ size.exactWords count % 2 ^ 32) :
    self.allocListOrphan size count arena = .error .allocTooLarge arena := by
  unfold ObjectBuilder.allocListOrphan
  dsimp only
  rw [objectWords_eq, if_neg_apply (by omega), AllocLen.new_eq_none.2 (Or.inr hlarge)]
  rfl

end Suffices

/-! ## An allocator that never refuses -/

section Rest

variable {size : ElementSize} {count : ElementCount}

/-- Asked for a segment, the allocator gives it. -/
lemma alloc_rootArena (size : AllocLen) :
    Arena.alloc size rootArena = .ok (some ⟨1, 0⟩)
      ⟨.global, [size, AllocLen.one],
        rootArena.segments ++ [⟨⟨fun _ => Word.null, size.toU29⟩, 1, .used size⟩], 1⟩ := by
  have hpos := size.get_pos
  rcases Arena.onSegment_tryUseLen reachable_rootArena.wf
    reachable_rootArena.wf.lastOwned_lt size with ⟨-, hrun⟩ | ⟨hroom, -⟩
  · unfold Arena.alloc
    rw [bind_of_ok (get_apply _)]
    dsimp only
    rw [bind_of_ok hrun]
    rfl
  · have hlen : rootArena.len rootArena.lastOwned = 1 := rfl
    have hused : rootArena.used rootArena.lastOwned = 1 := rfl
    omega

/-- The root segment is full. -/
lemma allocInSegment_rootArena (len : AllocLen) :
    (⟨0⟩ : ObjectBuilder).allocInSegment len rootArena = .ok none rootArena := by
  have hpos := len.get_pos
  rcases ObjectBuilder.allocInSegment_cases reachable_rootArena.wf
    (show (⟨0⟩ : ObjectBuilder).segment < _ by decide) len with ⟨-, hrun⟩ | ⟨hroom, -⟩
  · exact hrun
  · have hlen : rootArena.len (⟨0⟩ : ObjectBuilder).segment = 1 := rfl
    have hused : rootArena.used (⟨0⟩ : ObjectBuilder).segment = 1 := rfl
    omega

/-- A list is allocated in a segment of its own. -/
lemma placeList_rootArena (size : ElementSize) (count words : ElementCount) (len : AllocLen) :
    ∃ a arena', (⟨0⟩ : ObjectBuilder).placeList ⟨0, 0⟩ size count words len rootArena
      = .ok a arena' := by
  unfold ObjectBuilder.placeList
  rw [bind_of_ok (allocInSegment_rootArena len)]
  dsimp only
  rcases hnew : AllocLen.new (len.get + 1) with _ | lenWithPad
  · -- two segments: the pad's, and one as long as a segment can be
    exact ⟨_, _, rfl⟩
  · rcases @ObjectBuilder.allocInArena_cases rootArena ⟨0⟩ reachable_rootArena.wf lenWithPad with
      ⟨arena', hnone, -⟩ | ⟨pad, arena₁, hrun, hallocates⟩
    · exfalso
      unfold ObjectBuilder.allocInArena at hnone
      rw [bind_of_ok (alloc_rootArena lenWithPad)] at hnone
      cases hnone
    · have hpadLt : pad.pos < 2 ^ 29 := hallocates.pos_lt reachable_rootArena.wf
      obtain ⟨offset, hoffsetRun, -⟩ :=
        @ObjectBuilder.offsetFromStart_apply arena₁ ⟨pad.segment⟩ pad rfl hpadLt
      have hslot : (⟨0, 0⟩ : SegmentRef).pos < arena₁.used (⟨0, 0⟩ : SegmentRef).segment :=
        Nat.lt_of_lt_of_le (show 0 < rootArena.used 0 by decide) (hallocates.grows.used_le _)
      have hpad := hallocates.lt_used lenWithPad.get_pos
      have hwf := hallocates.wf.set hslot (FarPtr.new pad.segment offset false)
      refine ⟨(pad.offset 1, ⟨pad.segment⟩),
        (arena₁.write ⟨0, 0⟩ 1 fun _ => FarPtr.new pad.segment offset false).write pad 1
          fun _ => ListPtr.new I30.zero size.asPtrSize words, ?_⟩
      dsimp only
      rw [bind_of_ok hrun, okOr_some, pure_bind_eq]
      dsimp only
      rw [bind_of_ok hoffsetRun, bind_of_ok (ObjectBuilder.id_apply hallocates.wf
        (hallocates.lt_length lenWithPad.get_pos)),
        bind_of_ok (ObjectBuilder.setPtr_apply hallocates.wf hslot _),
        bind_of_ok (ObjectBuilder.setPtr_apply hwf (by
          rw [Arena.used_write]
          exact hpad) _)]
      rfl

/-- When the rest fits into a segment, the list is allocated. -/
lemma allocList_rootArena (hrest : size.exactWords count % 2 ^ 32 < 2 ^ 29) :
    ∃ a arena', (⟨0⟩ : ObjectBuilder).allocList ⟨0, 0⟩ size count rootArena = .ok a arena' := by
  unfold ObjectBuilder.allocList
  dsimp only
  rw [totalSize_eq]
  by_cases hzero : size.exactWords count % 2 ^ 32 = 0
  · rw [if_pos_apply hzero]
    exact ⟨_, _, rfl⟩
  · rw [if_neg_apply hzero, AllocLen.new_of_mem (Nat.pos_of_ne_zero hzero) hrest,
      okOr_some, pure_bind_eq]
    obtain ⟨words, hwords⟩ : ∃ words : ElementCount,
        (if size.isInlineComposite = true then Prog.unwrap (U29.new (size.totalWords count.get))
          else pure count : BuildM ElementCount) = pure words := by
      cases hcomposite : size.isInlineComposite
      · exact ⟨count, rfl⟩
      · have hlt : size.totalWords count.get < 2 ^ 29 := by
          have htotal := totalSize_eq size count
          have hlt : size.totalWords count.get < 2 ^ 32 := Nat.mod_lt _ (by decide)
          rw [hcomposite, if_pos rfl] at htotal
          omega
        rw [if_pos rfl, U29.new_of_lt hlt]
        exact ⟨_, rfl⟩
    rw [hwords, pure_bind_eq]
    obtain ⟨a, arena', hplace⟩ := placeList_rootArena size count words
      ⟨_, Nat.pos_of_ne_zero hzero, hrest⟩
    rcases ObjectBuilder.placeList_cases reachable_rootArena.wf rfl
      (show (⟨0, 0⟩ : SegmentRef).pos < rootArena.used 0 by decide) size count words
      ⟨_, Nat.pos_of_ne_zero hzero, hrest⟩ with
      ⟨place, arena₁, hrun, hplaces⟩ | ⟨n, arena₁, herror, -⟩
    · rw [bind_of_ok hrun]
      cases size with
      | inlineComposite s =>
        have hplaceUsed := (Arena.mem_fresh.1 (hplaces.mem_fresh place
          ⟨rfl, Nat.le_refl _, Nat.lt_add_of_pos_right (Nat.pos_of_ne_zero hzero)⟩)).2
        dsimp only
        rw [ObjectBuilder.setTag, bind_apply,
          bind_of_ok (ObjectBuilder.setPtr_apply hplaces.grows.wf hplaceUsed _)]
        exact ⟨_, _, rfl⟩
      | _ => exact ⟨_, _, rfl⟩
    · rw [herror] at hplace
      cases hplace

/-- The same for an orphan. -/
lemma allocListOrphan_rootArena (hrest : size.exactWords count % 2 ^ 32 < 2 ^ 29) :
    ∃ a arena', (⟨0⟩ : ObjectBuilder).allocListOrphan size count rootArena = .ok a arena' := by
  unfold ObjectBuilder.allocListOrphan
  dsimp only
  rw [objectWords_eq]
  by_cases hzero : size.exactWords count % 2 ^ 32 = 0
  · rw [if_pos_apply hzero]
    exact ⟨_, _, rfl⟩
  · rw [if_neg_apply hzero, AllocLen.new_of_mem (Nat.pos_of_ne_zero hzero) hrest,
      okOr_some, pure_bind_eq]
    rcases @ObjectBuilder.alloc_cases rootArena ⟨0⟩ reachable_rootArena.wf
      (show 0 < rootArena.segments.length by decide) ⟨_, Nat.pos_of_ne_zero hzero, hrest⟩ with
      ⟨arena', hnone, -⟩ | ⟨place, arena₁, hrun, hallocates⟩
    · exfalso
      unfold ObjectBuilder.alloc at hnone
      rw [bind_of_ok (allocInSegment_rootArena _)] at hnone
      dsimp only at hnone
      unfold ObjectBuilder.allocInArena at hnone
      rw [bind_of_ok (alloc_rootArena _)] at hnone
      cases hnone
    · rw [bind_of_ok hrun, okOr_some, pure_bind_eq]
      dsimp only
      cases size with
      | inlineComposite s =>
        have hplaceUsed := hallocates.lt_used (Nat.pos_of_ne_zero hzero)
        dsimp only
        rw [bind_of_ok (ObjectBuilder.setPtr_apply hallocates.wf hplaceUsed _)]
        exact ⟨_, _, rfl⟩
      | _ => exact ⟨_, _, rfl⟩

end Rest

/-! ## Large enough -/

/-- **List allocation is large enough** in every reachable arena, whether the list gets a pointer
or is an orphan, if and only if the list fits into a segment, or what is left of its size modulo
`2 ^ 32` does not. -/
theorem list_allocation_suffices_iff (size : ElementSize) (count : ElementCount) :
    (size.AllocListSuffices count ↔
      size.exactWords count < 2 ^ 29 ∨ 2 ^ 29 ≤ size.exactWords count % 2 ^ 32) ∧
    (size.AllocListOrphanSuffices count ↔
      size.exactWords count < 2 ^ 29 ∨ 2 ^ 29 ≤ size.exactWords count % 2 ^ 32) := by
  refine ⟨⟨fun h => ?_, fun h => ?_⟩, ⟨fun h => ?_, fun h => ?_⟩⟩
  · by_contra hnot
    push Not at hnot
    obtain ⟨⟨start, len, builder⟩, arena', hrun⟩ := allocList_rootArena hnot.2
    have hsuffices := h .global rootArena ⟨0, 0⟩ reachable_rootArena (by decide)
    unfold AllocatesOrFails at hsuffices
    rw [hrun] at hsuffices
    exact not_span_subset_fresh hnot.1 hsuffices
  · intro allocator arena slot hreachable hslot
    rcases h with hfits | hlarge
    · exact allocList_of_fits hreachable.wf rfl hslot hfits
    · unfold AllocatesOrFails
      rw [allocList_of_large hlarge]
      trivial
  · by_contra hnot
    push Not at hnot
    obtain ⟨⟨object, builder⟩, arena', hrun⟩ := allocListOrphan_rootArena hnot.2
    have hsuffices := h .global rootArena ⟨0⟩ reachable_rootArena (by decide)
    unfold AllocatesOrFails at hsuffices
    rw [hrun] at hsuffices
    exact not_span_subset_fresh hnot.1 hsuffices
  · intro allocator arena self hreachable hself
    rcases h with hfits | hlarge
    · exact allocListOrphan_of_fits hreachable.wf hself hfits
    · unfold AllocatesOrFails
      rw [allocListOrphan_of_large hlarge]
      trivial

/-- Sixteen data words. -/
def sixteenWords : StructSize := ⟨16, 0, by decide, StructSize.zero_lt⟩

/-- So many structs of sixteen words have `2 ^ 32` words. -/
def manyStructs : ElementCount := ⟨2 ^ 28, U29.large_lt⟩

/-- One word is allocated, the tag's, for `2 ^ 32` words of structs and their tag. -/
theorem not_list_allocation_suffices :
    (∃ start len builder arena', (⟨0⟩ : ObjectBuilder).allocList ⟨0, 0⟩
        (.inlineComposite sixteenWords) manyStructs rootArena = .ok (start, len, builder) arena' ∧
      len.get = 1 ∧ (ElementSize.inlineComposite sixteenWords).exactWords manyStructs = 2 ^ 32 + 1) ∧
    ¬ (ElementSize.inlineComposite sixteenWords).AllocListSuffices manyStructs ∧
    ¬ (ElementSize.inlineComposite sixteenWords).AllocListOrphanSuffices manyStructs := by
  have hexact : (ElementSize.inlineComposite sixteenWords).exactWords manyStructs = 2 ^ 32 + 1 := by
    decide
  refine ⟨⟨_, _, _, _, rfl, rfl, hexact⟩, fun h => ?_, fun h => ?_⟩
  · exact not_span_subset_fresh (by rw [hexact]; decide)
      (h .global rootArena ⟨0, 0⟩ reachable_rootArena (by decide))
  · exact not_span_subset_fresh (by rw [hexact]; decide)
      (h .global rootArena ⟨0⟩ reachable_rootArena (by decide))

end Recapn.Ptr

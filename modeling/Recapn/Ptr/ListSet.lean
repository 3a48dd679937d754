/-
# Lists and pointers that are set in a buffer

A pointer is set to a list as it is: the new list has elements of the same size.  Like the copy of a
pointer, it lies in the segment of the pointer when there is no other one.
-/
import Recapn.Ptr.StructCopy

namespace Recapn.Ptr

open Recapn.Lib

/-- Nothing is written to no words. -/
lemma Arena.write_zero (arena : Arena) (start : SegmentRef) (words : ℕ → Word) :
    arena.write start 0 words = arena := by
  have hsame : (fun s : ArenaSegment => { s with
      segment := { s.segment with data := fun pos =>
        if start.pos ≤ pos ∧ pos < start.pos + 0 then words (pos - start.pos) else s.segment.data pos } }) =
      id := by
    funext s
    have hdata : (fun pos => if start.pos ≤ pos ∧ pos < start.pos + 0 then words (pos - start.pos)
        else s.segment.data pos) = s.segment.data := by
      funext pos
      exact if_neg (by omega)
    dsimp only
    rw [hdata]
    rfl
  unfold Arena.write
  rw [hsame, List.modify_id]

section SetList

open CopyMachine Prog

variable {ε : Type} {machine : CopyMachine ε} {clearCap : List ℕ → ℕ → Except Error Unit} {depth room : ℕ}
  {a : ReadArena} {id id' : SegmentId} {src start : ℕ} {segment block : Segment} {value : ListReader}
  {v : Value} {target : PtrBuilder} {s : CopyState}

/-- There is nothing to copy of empty structs. -/
lemma copyList_emptyStructs {copyPtr : CopyPtr ε} {dst : SegmentRef} {builder : ObjectBuilder}
    {count : ElementCount} (hstart : start ≤ block.len.get) (hdst : dst.pos ≤ s.arena.len dst.segment) :
    copyList copyPtr start (.inSegment a id block) dst builder (.inlineComposite .empty) count s = .ok () s := by
  have hwrite : ∀ words, (writing (Arena.writeSection dst 0 words) : CopyM ε Unit) s = .ok () s := by
    intro words
    rw [writing, zoom, Arena.writeSection, if_pos (show dst.pos + 0 ≤ s.arena.len dst.segment from hdst),
      Arena.write_zero]
  have hstruct : copyStruct copyPtr start StructSize.empty (.inSegment a id block) dst StructSize.empty builder s =
      .ok () s := by
    have hdata : (copyWords start (.inSegment a id block) dst 0 : CopyM ε Unit) s = .ok () s := by
      rw [copyWords, sectionSlice_eq_pure (show start + 0 ≤ block.len.get from hstart), pure_bind_eq]
      exact hwrite _
    rw [copyStruct]
    exact (bind_of_ok hdata).trans rfl
  have hstep : (stepByUnchecked StructSize.empty.total count.get : CopyM ε Unit) = pure () := by
    refine assert_of ?_
    show 0 * count.get ≤ U29.maxValue
    rw [Nat.zero_mul]
    exact Nat.zero_le _
  show copyInlineComposites copyPtr start .empty (.inSegment a id block) dst .empty builder count s = _
  rw [copyInlineComposites, hstep, pure_bind_eq, pure_bind_eq]
  refine forRange_eq_ok fun k _ => ?_
  rw [show StructSize.empty.total * k = 0 from Nat.zero_mul k]
  exact hstruct

/-- A list is set as one below a pointer is copied. -/
lemma trySetList_fromValue (hblank : target.Blank s.arena) (hvalue : value.ReadFrom a id src v id' block) :
    target.trySetList clearCap machine depth depth value .fromValue s =
      ({ machine with canonical := false } : CopyMachine ε).copyListContent
        (({ machine with canonical := false } : CopyMachine ε).copyPtr depth) (.inSegment a id' block)
        ⟨value.ptr, value.elementSize, value.elementCount⟩ target.ptr ⟨target.ptr.segment⟩ s := by
  obtain ⟨cost, hdenotes⟩ := hvalue.denotes
  have hinside := Shape.words_le_of_inside (hdenotes.inside hvalue.block)
  obtain ⟨start, reader, count, limit, size⟩ := value
  obtain rfl : reader = .inSegment a id' block := hvalue.reader
  have hsize : (CopySize.listBuilderSize ⟨start, .inSegment a id' block, count, limit, size⟩ .fromValue :
      CopyM ε _) = pure (.ok size) := rfl
  rw [PtrBuilder.trySetList, bind_of_ok hblank.clear, hsize, pure_bind_eq, hblank.builder, copyListContent]
  dsimp only at hinside hdenotes ⊢
  rcases @ObjectBuilder.allocList_reserves s.arena ⟨target.ptr.segment⟩ target.ptr hblank.wf rfl hblank.live
      size count (hdenotes.exactWords_lt hvalue.block) with
    ⟨dst, len, arena', hrun, hlen, hdst, -, hreserves⟩ | ⟨n, arena', hrun, -⟩
  · obtain ⟨s₁, hbuild, rfl, -⟩ := @building_of_ok ε _ _ _ _ _ hrun
    rw [bind_of_ok hbuild, bind_of_ok hbuild]
    dsimp only
    by_cases hlen0 : len.get = 0
    · rw [if_pos_apply hlen0, if_pos_apply hlen0]
    · rw [if_neg_apply hlen0, if_neg_apply hlen0, copyToUpgradedList.eq_def]
      by_cases hempty : size.isEmpty = true
      · -- empty structs are left out
        obtain rfl : size = .inlineComposite .empty := by
          cases size with
          | inlineComposite size => exact congrArg _ (eq_of_beq hempty)
          | void =>
            refine absurd (hlen.trans ?_) hlen0
            show (0 * count.get + 63) / 64 + 0 = 0
            rw [Nat.zero_mul]
          | _ => cases hempty
        have hused := hreserves.grows.wf.used_le_len dst.segment
        rw [if_pos_apply hempty]
        exact (copyList_emptyStructs (by omega) (by omega)).symm
      · rw [if_neg_apply hempty, if_pos_apply rfl]
        rfl
  · obtain ⟨s₁, hbuild, rfl, -⟩ := @building_of_error ε _ _ _ _ _ hrun
    rw [bind_of_ok hbuild, bind_of_ok hbuild]
    rfl

/-- **A list is set in a buffer just when there is room for it**, and for what is below its pointers. -/
theorem trySetList_flat (hstrict : machine.handler.Strict) (hvalue : value.ReadFrom a id src v id' block) :
    ∀ᶠ depth in Filter.atTop, ∀ (target : PtrBuilder) (s : CopyState), target.Blank s.arena →
      s.arena.Lone room → CopiesFlat machine.handler room target.ptr v s
        (target.trySetList clearCap machine depth depth value .fromValue s) := by
  obtain ⟨segment, hsegment, hsome⟩ := hvalue.some
  obtain ⟨cost, hdenotes⟩ := hvalue.denotes
  refine (@ListReader.ReadFrom.slotsCost ε { machine with canonical := false } a id id' src block value v hvalue
    rfl).mono fun depth hcosts target s hblank hlone => ?_
  rw [trySetList_fromValue hblank hvalue]
  refine copiesFlat_of_uses hstrict hlone hblank.live hvalue.caps ?_ ?_ fun hlt => ?_
  · have huses := @uses_copyListContent ε { machine with canonical := false } a id block _ src
      (fun k => (v.ptr k).words) target.ptr s id' value.ptr cost value.elementSize value.elementCount hdenotes
      hvalue.block hcosts hblank.wf hblank.live
    obtain ⟨f, -, rfl⟩ := (reads_object_iff hsegment hsome hdenotes hvalue.block).1
      ⟨v, hvalue.reads, (rfl : v = v)⟩
    rw [Value.words_object]
    exact huses
  · exact @copyListContent_settled ε { machine with canonical := false } room a id' block _ target.ptr value.ptr s
      value.elementSize value.elementCount hvalue.block (hdenotes.exactWords_lt hvalue.block) hblank.wf hlone
      hblank.live hblank.null fun k _ _ => settles_copyPtr rfl depth id' _
  · have hcopied := @copyListContent_copied ε { machine with canonical := false } a id id' src target.ptr s
      (fun _ => True) segment block
      (({ machine with canonical := false } : CopyMachine ε).copyPtr depth) value.ptr cost value.elementSize value.elementCount hsegment hsome hdenotes hvalue.block (Shape.copied_false _ _ _ _ _).symm
      (fun k _ _ => copies_any id' (value.ptr + k)) hblank.wf hblank.live
    refine hcopied.imp (fun _ h => h) fun _ s' hcopied hquiet => ?_
    have hreplaces := hcopied.replaces.holds
    rw [hblank.null] at hreplaces
    obtain ⟨w, hreads, hmatches⟩ := (hreplaces.copyOf.mono (fun _ => hquiet) (Set.Subset.refl _)).reads
      hvalue.reads rfl (Value.roomy_of_words_lt hlt)
    obtain rfl := hmatches.eq_of_caps hvalue.caps
    exact hreads

end SetList

end Recapn.Ptr

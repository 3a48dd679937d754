/-
# Copies from unchecked memory

A copy reads its source through an object reader.  Where all pointers are near ones whose objects lie
in the first words of the memory, it makes no difference whether the reader checks its bounds: the
copy is that from a message of one segment.
-/
import Recapn.Ptr.ListSet

namespace Recapn.Ptr

open Recapn.Lib Recapn.Lib.Prog

/-- The reader reads the first `hi` words of the memory, with or without checks. -/
structure ObjectReader.Over (reader : ObjectReader) (memory : ℕ → Word) (hi : ℕ) : Prop where
  word : ∀ pos, reader.word pos = memory pos
  inBounds : ∀ start len, start + len ≤ hi → reader.inBounds start len = true
  read : ∀ {pos start : ℕ} {offset : SignedSegmentOffset} (len : ObjectLen),
    (pos : ℤ) + 1 + offset.get = start → start + len.get ≤ hi →
      reader.readAtLocation (.near pos) offset len = limitRead len.get >>= fun _ => pure (reader, start)

section Over

variable {memory : ℕ → Word} {lo hi pos start : ℕ} {reader x y : ObjectReader} {shape : Shape}

lemma over_unchecked (memory : ℕ → Word) (hi : ℕ) : (⟨.unchecked memory⟩ : ObjectReader).Over memory hi where
  word _ := rfl
  inBounds _ _ _ := rfl
  read {pos start offset} len hstart _ := by
    have htoNat : ((pos : ℤ) + 1 + offset.get).toNat = start := by omega
    show (limitRead len.get >>= fun _ => pure ((pos : ℤ) + 1 + offset.get).toNat) >>= _ = _
    rw [htoNat, bind_assoc_eq]
    rfl

lemma over_inSegment (a : ReadArena) (id : SegmentId) (block : Segment) :
    (ObjectReader.inSegment a id block).Over block.data block.len.get where
  word _ := rfl
  inBounds start len hle := decide_eq_true hle
  read {pos start offset} len hstart hle := by
    have hsection : (⟨a, id, block⟩ : SegmentReader).tryGetSection ((pos : ℤ) + 1 + offset.get) len = some start := by
      rw [hstart, SegmentReader.tryGetSection]
      dsimp only
      rw [if_neg (by omega), if_neg (by omega), if_neg (by omega)]
      rfl
    show ((Prog.okOr Error.pointerOutOfBounds ((⟨a, id, block⟩ : SegmentReader).tryGetSection
      ((pos : ℤ) + 1 + offset.get) len) >>= fun newPtr => limitRead len.get >>= fun _ => pure newPtr) >>= _) = _
    rw [hsection, okOr_some, pure_bind_eq, bind_assoc_eq]
    rfl

namespace ObjectReader.Over

variable {ε σ : Type}

lemma sectionSlice (h : reader.Over memory hi) {len : ℕ} (hle : start + len ≤ hi) :
    (reader.sectionSlice start len : Prog ε σ (ℕ → Word)) = pure fun k => memory (start + k) := by
  rw [ObjectReader.sectionSlice, require_of (h.inBounds start len hle), pure_bind_eq]
  exact congrArg pure (funext fun k => h.word _)

lemma locationOf (h : reader.Over memory hi) (hkind : WirePtr.kind (memory pos) ≠ .far) :
    reader.locationOf pos = pure (reader, ⟨memory pos, .near pos⟩) := by
  rw [ObjectReader.locationOf, h.word]
  exact if_neg hkind

end ObjectReader.Over

/-- What is charged for reading an object. -/
def Shape.charge (memory : ℕ → Word) (pos : ℕ) : Shape → ReadM Unit
  | struct size => limitRead size.len.get
  | list (.inlineComposite size) count => do
    limitRead ((ListPtr.elementCount (memory pos)).get + 1)
    if size.total = 0 then limitRead count.get else pure ()
  | list size count => do
    (if size = .void then limitRead count.get else pure ())
    limitRead (roundUpBitCount (count.get * size.bits))

/-- The object ends within the bounds. -/
lemma Shape.Within.end_le (h : shape.Within memory lo hi pos start) (hpos : pos < hi) :
    start + shape.words ≤ hi := by
  have hsize := shape.size_eq
  rcases h with ⟨hzero, -, hle⟩ | ⟨-, hle, -⟩ <;> omega

/-- A list that is not of structs. -/
lemma ObjectReader.Over.readAsListContent (h : reader.Over memory hi) {size : ElementSize}
    (hcomposite : ListPtr.elementSize (memory pos) ≠ .inlineComposite)
    (hsize : (ListPtr.elementSize (memory pos)).toElementSize = size)
    (hstart : (pos : ℤ) + 1 + (ListPtr.offset (memory pos)).get = start)
    (hend : start + (Shape.list size (ListPtr.elementCount (memory pos))).words ≤ hi) :
    reader.readAsListContent (.near pos) (memory pos) none =
      (if size = .void then limitRead (ListPtr.elementCount (memory pos)).get else pure ()) >>= fun _ =>
        limitRead (roundUpBitCount ((ListPtr.elementCount (memory pos)).get * size.bits)) >>= fun _ =>
          pure (reader, ⟨start, size, ListPtr.elementCount (memory pos)⟩) := by
  obtain ⟨len, hlen, hget⟩ := new_roundUpBitCount (ListPtr.elementSize (memory pos))
    (ListPtr.elementCount (memory pos))
  subst hsize
  have hwords := U29.new_eq_some.1 hlen
  have hlist : start + len.get ≤ hi := by
    refine le_trans (Nat.add_le_add_left ?_ start) hend
    rw [hget]
    exact Nat.mod_le _ _
  rw [ObjectReader.readAsListContent, if_neg hcomposite]
  dsimp only
  rw [ObjectReader.checkUpgrade, pure_bind_eq, hlen, unwrap_some]
  refine congrArg (bind _) (funext fun _ => ?_)
  rw [pure_bind_eq, h.read _ hstart hlist, bind_assoc_eq, hwords]
  rfl

/-- **A reader of the memory follows the pointer**, whether it checks or not. -/
theorem ObjectReader.Over.tryReadTyped (h : reader.Over memory hi) (hpointed : shape.PointedAt memory pos start)
    (hwithin : shape.Within memory lo hi pos start) (hpos : pos < hi) :
    reader.tryReadTyped pos = shape.charge memory pos >>= fun _ => pure (reader, shape.content start) := by
  have hend := hwithin.end_le hpos
  have hfar : WirePtr.kind (memory pos) ≠ .far := by
    rcases hpointed.kind with hkind | hkind <;> rw [hkind] <;> decide
  rw [ObjectReader.tryReadTyped, h.locationOf hfar, pure_bind_eq]
  dsimp only
  cases shape with
  | struct size =>
    obtain ⟨hkind, rfl, hstart⟩ := hpointed
    rw [hkind]
    dsimp only
    rw [ObjectReader.readAsStructContent, h.read _ hstart hend, bind_assoc_eq, bind_assoc_eq]
    rfl
  | list size count =>
    have hkind : WirePtr.kind (memory pos) = .list := by cases size <;> exact hpointed.1
    rw [hkind]
    dsimp only
    suffices hcontent : reader.readAsListContent (.near pos) (memory pos) none =
        (Shape.list size count).charge memory pos >>= fun _ => pure (reader, ⟨start, size, count⟩) by
      rw [hcontent, bind_assoc_eq]
      rfl
    cases size with
    | inlineComposite size =>
      rw [ObjectReader.readAsListContent]
      obtain ⟨-, hsize, hlt, hstart, htag, rfl, rfl, hone, hfits⟩ := hpointed
      have htagPos : (pos : ℤ) + 1 + (ListPtr.offset (memory pos)).get = (start - 1 : ℕ) := by omega
      have hall : start - 1 + ((ListPtr.elementCount (memory pos)).get + 1) ≤ hi := by
        rcases hwithin with ⟨hzero, -⟩ | ⟨-, -, hall⟩
        · exact absurd hzero (Nat.succ_ne_zero _)
        · have hle := hall rfl
          omega
      rw [hsize, if_pos rfl]
      dsimp only
      rw [U29.new_of_lt hlt, okOr_some, pure_bind_eq, h.read _ htagPos hall, bind_assoc_eq]
      refine (congrArg (bind _) (funext fun _ => ?_)).trans (bind_assoc_eq _ _ _).symm
      rw [pure_bind_eq]
      dsimp only
      rw [h.word, if_pos htag, ObjectReader.checkUpgrade, pure_bind_eq, if_neg (Nat.not_lt.2 hfits),
        Nat.sub_add_cancel hone]
    | _ =>
      obtain ⟨-, hsize, rfl, hstart⟩ := hpointed
      exact (h.readAsListContent (by rw [hsize]; decide) (by rw [hsize]; rfl) hstart hend).trans
        (bind_assoc_eq _ _ _).symm

end Over

/-! ## The same copy -/

section Copies

open CopyMachine

variable {ε : Type} {machine : CopyMachine ε} {copyPtr : CopyPtr ε} {memory : ℕ → Word} {lo hi pos start src len : ℕ}
  {x y : ObjectReader} {dst : SegmentRef} {builder : ObjectBuilder} {shape : Shape} {v : Value}

/-- The copy of the pointer is the same through both readers. -/
def SameCopy (copyPtr : CopyPtr ε) (x y : ObjectReader) (src : ℕ) : Prop :=
  ∀ dst builder, copyPtr src x dst builder = copyPtr src y dst builder

variable (hx : x.Over memory hi) (hy : y.Over memory hi)

include hx hy

lemma copyWords_over (hle : src + len ≤ hi) :
    (copyWords src x dst len : CopyM ε Unit) = copyWords src y dst len := by
  rw [copyWords, copyWords, hx.sectionSlice hle, hy.sectionSlice hle]

lemma copyPtrSection_over (hle : src + len ≤ hi)
    (hsame : ∀ k < len, memory (src + k) ≠ Word.null → SameCopy copyPtr x y (src + k)) :
    copyPtrSection copyPtr src x dst builder len = copyPtrSection copyPtr src y dst builder len := by
  refine forRange_congr fun k hk => ?_
  rw [hx.sectionSlice (by omega), hy.sectionSlice (by omega), pure_bind_eq, pure_bind_eq]
  by_cases hnull : (memory (src + k + 0)).isNull = true
  · rw [if_pos hnull, if_pos hnull]
  · rw [if_neg hnull, if_neg hnull]
    exact hsame k hk (fun h => hnull (Word.isNull_iff.2 h)) _ _

lemma copyStruct_over {size : StructSize} (hle : src + size.total ≤ hi)
    (hsame : ∀ k < size.ptrs, memory (src + size.data + k) ≠ Word.null →
      SameCopy copyPtr x y (src + size.data + k)) :
    copyStruct copyPtr src size x dst size builder = copyStruct copyPtr src size y dst size builder := by
  have htotal := size.total_eq
  rw [copyStruct, copyStruct, Nat.min_self, Nat.min_self, copyWords_over hx hy (by omega),
    copyPtrSection_over hx hy (by omega) hsame]

lemma copyInlineComposites_over {size : StructSize} {count : ElementCount} (hle : src + size.total * count.get ≤ hi)
    (hsame : ∀ i < count.get, ∀ k < size.ptrs, memory (src + size.total * i + size.data + k) ≠ Word.null →
      SameCopy copyPtr x y (src + size.total * i + size.data + k)) :
    copyInlineComposites copyPtr src size x dst size builder count =
      copyInlineComposites copyPtr src size y dst size builder count := by
  rw [copyInlineComposites, copyInlineComposites]
  refine congrArg (bind _) (funext fun _ => congrArg (bind _) (funext fun _ => forRange_congr fun i hi' => ?_))
  have hnext : size.total * (i + 1) ≤ size.total * count.get := Nat.mul_le_mul_left _ hi'
  rw [Nat.mul_succ] at hnext
  exact copyStruct_over hx hy (by omega) (hsame i hi')

lemma copyList_over {size : ElementSize} {count : ElementCount} (hlt : (Shape.list size count).words < 2 ^ 29)
    (hle : src + (Shape.list size count).words ≤ hi)
    (hsame : ∀ k < (Shape.list size count).words, (Shape.list size count).isPtr k = true →
      memory (src + k) ≠ Word.null → SameCopy copyPtr x y (src + k)) :
    copyList copyPtr src x dst builder size count = copyList copyPtr src y dst builder size count := by
  obtain ⟨words, hnew, hwords⟩ := totalWords_of_lt hlt
  rw [copyList.eq_def, copyList.eq_def]
  by_cases hptrs : size.isPtrs = true
  · have hptr := Shape.isPtr_of_isPtrs hptrs count
    rw [if_pos hptrs, if_pos hptrs, hnew, unwrap_some, pure_bind_eq, pure_bind_eq]
    exact copyPtrSection_over hx hy (by omega) fun k hk => hsame k (by omega) (hptr k)
  rw [if_neg hptrs, if_neg hptrs]
  by_cases hdata : size.isData = true
  · rw [if_pos hdata, if_pos hdata, hnew, unwrap_some, pure_bind_eq, pure_bind_eq]
    exact copyWords_over hx hy (by omega)
  rw [if_neg hdata, if_neg hdata]
  cases size with
  | inlineComposite size =>
    rw [Shape.words_structs] at hle
    refine copyInlineComposites_over hx hy hle fun i hi' k hk => ?_
    obtain ⟨hlt', hptr⟩ := isPtr_of_element hi' hk
    rw [show src + size.total * i + size.data + k = src + (size.total * i + size.data + k) by omega]
    exact hsame _ hlt' hptr
  | _ => rfl

omit hx hy in
/-- What is read is the same but for the reader. -/
lemma reading_bind {α β γ : Type} (charge : ReadM γ) (found : α) (f : Except Error α → CopyM ε β) :
    (reading (charge >>= fun _ => pure found) >>= f : CopyM ε β) =
      reading charge >>= fun result => f (result.map fun _ => found) := by
  funext s
  rw [bind_apply, bind_apply, reading, reading, zoom, zoom, attempt, attempt, bind_apply]
  rcases charge s.limiter with ⟨_, l⟩ | ⟨e, l⟩ | r <;> rfl

lemma copyStructContent_over {size : StructSize} (hcanonical : machine.canonical = false)
    (hle : start + size.total ≤ hi)
    (hsame : ∀ k < size.ptrs, memory (start + size.data + k) ≠ Word.null →
      SameCopy copyPtr x y (start + size.data + k)) :
    machine.copyStructContent copyPtr x ⟨start, size⟩ dst builder =
      machine.copyStructContent copyPtr y ⟨start, size⟩ dst builder := by
  rw [copyStructContent, copyStructContent, hcanonical]
  dsimp only
  rw [if_neg Bool.false_ne_true, if_neg Bool.false_ne_true, pure_bind_eq, pure_bind_eq]
  refine congrArg (bind _) (funext fun alloc => ?_)
  rcases alloc with e | ⟨dst', builder'⟩
  · rfl
  · exact copyStruct_over hx hy hle hsame

lemma copyListContent_over {size : ElementSize} {count : ElementCount}
    (hlt : (Shape.list size count).words < 2 ^ 29) (hle : start + (Shape.list size count).words ≤ hi)
    (hsame : ∀ k < (Shape.list size count).words, (Shape.list size count).isPtr k = true →
      memory (start + k) ≠ Word.null → SameCopy copyPtr x y (start + k)) :
    machine.copyListContent copyPtr x ⟨start, size, count⟩ dst builder =
      machine.copyListContent copyPtr y ⟨start, size, count⟩ dst builder := by
  rw [copyListContent, copyListContent]
  refine congrArg (bind _) (funext fun alloc => ?_)
  rcases alloc with e | ⟨dst', len', builder'⟩
  · rfl
  · dsimp only
    rw [copyList_over hx hy hlt hle hsame]

/-- **A copy is the same from every reader of the memory**, whether it checks or not. -/
theorem sameCopy_copyPtr (hcanonical : machine.canonical = false) (h : ReadsUnchecked memory lo hi src v)
    (hsome : memory src ≠ Word.null) (hcaps : v.caps = 0) (hpos : src < hi) (hhi : hi < 2 ^ 29) (n : ℕ) :
    SameCopy (machine.copyPtr n) x y src := by
  induction h generalizing n with
  | null hnull => exact absurd hnull hsome
  | @object pos start shape data ptrs _ hpointed hwithin hdata hptrs ih =>
    intro dst builder
    cases n with
    | zero => rfl
    | succ n =>
      have hend := hwithin.end_le hpos
      rw [copyPtr, copyPtr, hx.tryReadTyped hpointed hwithin hpos, hy.tryReadTyped hpointed hwithin hpos,
        reading_bind, reading_bind]
      refine congrArg (bind _) (funext fun result => ?_)
      rcases result with e | _
      · rfl
      · have hslots : ∀ k < shape.words, shape.isPtr k = true → memory (start + k) ≠ Word.null →
            SameCopy (machine.copyPtr n) x y (start + k) := fun k hk hptr hsome' =>
          ih ⟨k, hk, hptr⟩ hsome' (Value.caps_ptrs hcaps ⟨k, hk, hptr⟩)
            (show start + k < hi by omega) n
        cases shape with
        | struct size =>
          refine copyStructContent_over hx hy hcanonical hend fun k hk hsome' => ?_
          rw [Nat.add_assoc] at hsome' ⊢
          exact hslots _ (Nat.add_lt_add_left hk _) (decide_eq_true (Nat.le_add_right _ _)) hsome'
        | list size count =>
          have hlist : machine.copyListContent (machine.copyPtr n) x ⟨start, size, count⟩ dst builder =
              machine.copyListContent (machine.copyPtr n) y ⟨start, size, count⟩ dst builder :=
            copyListContent_over hx hy (by omega) hend hslots
          cases size with
          | inlineComposite size =>
            dsimp only [Except.map, Shape.content]
            rw [hcanonical]
            exact hlist
          | _ => exact hlist

/-- The struct, read through another reader. -/
def StructReader.through (value : StructReader) (reader : ObjectReader) : StructReader :=
  { value with reader := reader }

/-- The list, read through another reader. -/
def ListReader.through (value : ListReader) (reader : ObjectReader) : ListReader :=
  { value with reader := reader }

variable {clearCap : List ℕ → ℕ → Except Error Unit} {depth : ℕ} {target : PtrBuilder}

lemma copyDataBytes_over {self : StructBuilder} {value : StructReader} (hle : value.dataStart + (len + 7) / 8 ≤ hi) :
    (self.copyDataBytes (value.through x) len : CopyM ε Unit) = self.copyDataBytes (value.through y) len := by
  rw [StructBuilder.copyDataBytes, StructBuilder.copyDataBytes]
  dsimp only [StructReader.through]
  rw [hx.sectionSlice hle, hy.sectionSlice hle]

/-- A pointer is set to the same struct. -/
lemma trySetStruct_over {value : StructReader} {size : CopySize StructSize} (hcanonical : size.isCanonical = false)
    (hdata : value.dataStart + (value.dataLen + 7) / 8 ≤ hi) (hptrs : value.ptrsStart + value.ptrsLen ≤ hi)
    (hsame : ∀ k < value.ptrsLen, memory (value.ptrsStart + k) ≠ Word.null →
      SameCopy (({ machine with canonical := false } : CopyMachine ε).copyPtr depth) x y (value.ptrsStart + k)) :
    target.trySetStruct clearCap machine depth depth (value.through x) size =
      target.trySetStruct clearCap machine depth depth (value.through y) size := by
  have hsize : (size.builderSize (value.through x) : CopyM ε StructSize) = size.builderSize (value.through y) := by
    cases size with
    | canonical => cases hcanonical
    | _ => rfl
  rw [PtrBuilder.trySetStruct, PtrBuilder.trySetStruct, hsize, hcanonical]
  refine congrArg (bind _) (funext fun dstSize => congrArg (bind _) (funext fun _ => congrArg (bind _)
    (funext fun alloc => ?_)))
  rcases alloc with e | ⟨dst', builder'⟩
  · rfl
  · dsimp only
    have hmin := Nat.min_le_right (dstSize.data * 8) value.dataLen
    have hmin' := Nat.min_le_right dstSize.ptrs value.ptrsLen
    rw [StructBuilder.tryCopyWithCaveats, StructBuilder.tryCopyWithCaveats]
    dsimp only
    rw [copyDataBytes_over hx hy (show _ ≤ hi by dsimp only [StructReader.through]; omega)]
    refine congrArg (bind _) (funext fun _ => ?_)
    exact copyPtrSection_over hx hy (by dsimp only [StructReader.through]; omega) fun k hk hsome =>
      hsame k (by dsimp only [StructReader.through] at hk; omega) hsome

/-- A pointer is set to the same list. -/
lemma trySetList_over {value : ListReader}
    (hlt : (Shape.list value.elementSize value.elementCount).words < 2 ^ 29)
    (hle : value.ptr + (Shape.list value.elementSize value.elementCount).words ≤ hi)
    (hsame : ∀ k < (Shape.list value.elementSize value.elementCount).words,
      (Shape.list value.elementSize value.elementCount).isPtr k = true → memory (value.ptr + k) ≠ Word.null →
        SameCopy (({ machine with canonical := false } : CopyMachine ε).copyPtr depth) x y (value.ptr + k)) :
    target.trySetList clearCap machine depth depth (value.through x) .fromValue =
      target.trySetList clearCap machine depth depth (value.through y) .fromValue := by
  rw [PtrBuilder.trySetList, PtrBuilder.trySetList]
  refine congrArg (bind _) (funext fun _ => ?_)
  show (building _ >>= _) = (building _ >>= _)
  refine congrArg (bind _) (funext fun alloc => ?_)
  rcases alloc with e | ⟨dst', len', builder'⟩
  · rfl
  · have hcanonical : (CopySize.fromValue : CopySize ElementSize).isCanonical = false := rfl
    dsimp only [ListReader.through]
    rw [hcanonical, copyToUpgradedList.eq_def, copyToUpgradedList.eq_def, if_pos rfl, if_pos rfl,
      copyList_over hx hy hlt hle hsame]

end Copies

/-! ## The same total sizes -/

section Sizes

variable {t : TargetSize} {memory : ℕ → Word} {lo hi pos start len m : ℕ} {x y : ObjectReader} {shape : Shape}
  {v : Value}

variable (hx : x.Over memory hi) (hy : y.Over memory hi)

include hx hy

lemma totalPtrsSize_over (hle : start + len ≤ hi)
    (hsame : ∀ k < len, memory (start + k) ≠ Word.null → t x (start + k) m = t y (start + k) m) :
    totalPtrsSize t x start len m = totalPtrsSize t y start len m := by
  refine fold_congr fun k hk total => ?_
  have hlt := List.mem_range.1 hk
  rw [hx.sectionSlice (by omega), hy.sectionSlice (by omega), pure_bind_eq, pure_bind_eq]
  by_cases hnull : (memory (start + k + 0)).isNull = true
  · rw [if_pos hnull, if_pos hnull]
  · rw [if_neg hnull, if_neg hnull, hsame k hlt fun h => hnull (Word.isNull_iff.2 h)]

lemma totalInlineCompositesTargetsSize_over {size : StructSize} {count : ElementCount}
    (hle : start + size.total * count.get ≤ hi)
    (hsame : ∀ i < count.get, ∀ k < size.ptrs, memory (start + size.total * i + size.data + k) ≠ Word.null →
      t x (start + size.total * i + size.data + k) m = t y (start + size.total * i + size.data + k) m) :
    totalInlineCompositesTargetsSize t x start count size m =
      totalInlineCompositesTargetsSize t y start count size m := by
  have htotal := size.total_eq
  refine congrArg (bind _) (funext fun _ => fold_congr fun i hi' total => ?_)
  have hnext : size.total * (i + 1) ≤ size.total * count.get := Nat.mul_le_mul_left _ (List.mem_range.1 hi')
  rw [Nat.mul_succ] at hnext
  rw [totalPtrsSize_over hx hy (by omega) (hsame i (List.mem_range.1 hi'))]

lemma totalListSize_over {size : ElementSize} {count : ElementCount}
    (hle : start + (Shape.list size count).words ≤ hi)
    (hsame : ∀ m, ∀ k < (Shape.list size count).words, (Shape.list size count).isPtr k = true →
      memory (start + k) ≠ Word.null → t x (start + k) m = t y (start + k) m) :
    totalListSize t x ⟨start, size, count⟩ m = totalListSize t y ⟨start, size, count⟩ m := by
  rw [totalListSize, totalListSize]
  cases size with
  | inlineComposite size =>
    rw [Shape.words_structs] at hle
    dsimp only
    refine congrArg (bind _) (funext fun m' => ?_)
    rw [totalInlineCompositesTargetsSize_over hx hy hle fun i hi' k hk => ?_]
    obtain ⟨hlt', hptr⟩ := isPtr_of_element hi' hk
    rw [show start + size.total * i + size.data + k = start + (size.total * i + size.data + k) by omega]
    exact hsame m' _ hlt' hptr
  | pointer =>
    have hwords : (Shape.list .pointer count).words = count.get := by
      show (64 * count.get + 63) / 64 = count.get
      omega
    rw [hwords] at hle hsame
    dsimp only
    refine congrArg (bind _) (funext fun m' => ?_)
    rw [totalPtrsSize_over hx hy hle fun k hk => hsame m' k hk rfl]
  | _ => rfl

/-- **The size of what is below a pointer is the same from every reader of the memory.** -/
theorem targetSize_over (h : ReadsUnchecked memory lo hi pos v) (hsome : memory pos ≠ Word.null)
    (hpos : pos < hi) (n m : ℕ) : targetSize n x pos m = targetSize n y pos m := by
  induction h generalizing n m with
  | null hnull => exact absurd hnull hsome
  | @object pos start shape data ptrs _ hpointed hwithin hdata hptrs ih =>
    cases n with
    | zero => rfl
    | succ n =>
      have hend := hwithin.end_le hpos
      rw [targetSize, targetSize, hx.tryReadTyped hpointed hwithin hpos, hy.tryReadTyped hpointed hwithin hpos,
        bind_assoc_eq, bind_assoc_eq]
      refine congrArg (bind _) (funext fun _ => ?_)
      rw [pure_bind_eq, pure_bind_eq]
      have hslots : ∀ m, ∀ k < shape.words, shape.isPtr k = true → memory (start + k) ≠ Word.null →
          targetSize n x (start + k) m = targetSize n y (start + k) m := fun m k hk hptr hsome' =>
        ih ⟨k, hk, hptr⟩ hsome' (show start + k < hi by omega) n m
      cases shape with
      | struct size =>
        refine congrArg (bind _) (funext fun m' => ?_)
        rw [totalStructSize, totalStructSize]
        dsimp only [StructContent.ptrsStart]
        rw [totalPtrsSize_over hx hy (show start + size.data + size.ptrs ≤ hi by exact Nat.add_assoc .. ▸ hend)
          fun k hk hsome' => ?_]
        rw [Nat.add_assoc] at hsome' ⊢
        exact hslots m' _ (Nat.add_lt_add_left hk _) (decide_eq_true (Nat.le_add_right _ _)) hsome'
      | list size count => exact totalListSize_over hx hy hend hslots

end Sizes

/-! ## The message of one segment -/

/-- The words of the memory as a message of one segment. -/
def flatArena (memory : ℕ → Word) (hi : SegmentLen) : ReadArena :=
  fun id => if id = 0 then some ⟨memory, hi⟩ else none

section Flat

variable {memory : ℕ → Word} {hi : SegmentLen} {lo pos start : ℕ} {shape : Shape} {v : Value}

lemma Shape.charge_none (shape : Shape) : shape.charge memory pos none = .ok () none := by
  cases shape with
  | struct => rfl
  | list size count =>
    cases size with
    | inlineComposite size =>
      by_cases hzero : size.total = 0
      · rw [charge, if_pos hzero]
        rfl
      · rw [charge, if_neg hzero]
        rfl
    | _ => rfl

lemma Shape.PointedAt.denotes (h : shape.PointedAt memory pos start)
    (hwithin : shape.Within memory lo hi.get pos start) (hpos : pos < hi.get) :
    ∃ cost, Denotes (flatArena memory hi) 0 pos 0 (shape.content start) cost := by
  have hsegment : flatArena memory hi 0 = some ⟨memory, hi⟩ := rfl
  have hread : (ObjectReader.inSegment (flatArena memory hi) 0 ⟨memory, hi⟩).tryReadTyped pos none =
      .ok (.inSegment (flatArena memory hi) 0 ⟨memory, hi⟩, shape.content start) none := by
    rw [(over_inSegment (flatArena memory hi) 0 ⟨memory, hi⟩).tryReadTyped h hwithin hpos,
      bind_of_ok shape.charge_none]
    rfl
  obtain ⟨id', block, cost, -, hreader, hdenotes, -⟩ := (tryReadTyped_eq_ok hsegment).1 hread
  cases hreader
  exact ⟨cost, hdenotes⟩

/-- **What reads without checks reads in the message of one segment.** -/
theorem ReadsUnchecked.reads (h : ReadsUnchecked memory lo hi.get pos v) (hpos : pos < hi.get) :
    Reads (flatArena memory hi) 0 pos v := by
  induction h with
  | null hnull => exact .null rfl hnull
  | object hsome hpointed hwithin hdata _ ih =>
    obtain ⟨cost, hdenotes⟩ := hpointed.denotes hwithin hpos
    have hend := hwithin.end_le hpos
    refine .object rfl hsome hdenotes rfl hdata fun k => ih k ?_
    have hk := k.2.1
    omega

end Flat

end Recapn.Ptr

/-
# Total sizes

The total size of an object is that of its words and of all that is below it.  It can be asked of
a pointer, or of the struct or the list that the pointer is converted to.  Both add up the same
words, but on the way from the pointer the nesting limit is taken down twice for the first object.
-/
import Mathlib.Algebra.Order.BigOperators.Group.Finset
import Recapn.Lib.Sums
import Recapn.Ptr.DeepCopy
import Recapn.Ptr.Nullify
import Recapn.Ptr.StructEquality

namespace Recapn.Ptr

open Recapn.Lib

/-! ## Sizes -/

/-- `MessageSize`.  Its sums wrap around. -/
@[ext]
structure MessageSize where
  words : UInt64
  caps : UInt32
deriving DecidableEq, Repr

namespace MessageSize

instance : Zero MessageSize := ⟨⟨0, 0⟩⟩

/-- `MessageSize::add`. -/
instance : Add MessageSize := ⟨fun self rhs => ⟨self.words + rhs.words, self.caps + rhs.caps⟩⟩

/-- So many words and capabilities, as far as they can be counted. -/
def ofNat (words caps : ℕ) : MessageSize := ⟨UInt64.ofNat words, UInt32.ofNat caps⟩

lemma ofNat_zero : ofNat 0 0 = 0 := rfl

lemma ofNat_add (w w' c c' : ℕ) : ofNat (w + w') (c + c') = ofNat w c + ofNat w' c' :=
  MessageSize.ext (UInt64.ofNat_add _ _) (UInt32.ofNat_add _ _)

instance : AddCommMonoid MessageSize where
  add_assoc _ _ _ := MessageSize.ext (UInt64.add_assoc _ _ _) (UInt32.add_assoc _ _ _)
  zero_add _ := MessageSize.ext (UInt64.zero_add _) (UInt32.zero_add _)
  add_zero _ := MessageSize.ext (UInt64.add_zero _) (UInt32.add_zero _)
  add_comm _ _ := MessageSize.ext (UInt64.add_comm _ _) (UInt32.add_comm _ _)
  nsmul := nsmulRec

lemma sum_ofNat (w c : ℕ → ℕ) (n : ℕ) :
    ∑ k ∈ Finset.range n, ofNat (w k) (c k) =
      ofNat (∑ k ∈ Finset.range n, w k) (∑ k ∈ Finset.range n, c k) := by
  induction n with
  | zero => rfl
  | succ n ih => rw [Finset.sum_range_succ, Finset.sum_range_succ, Finset.sum_range_succ, ih, ofNat_add]

end MessageSize

/-- The function `target_size`, as the others use it. -/
abbrev TargetSize := ObjectReader → ℕ → ℕ → ReadM MessageSize

/-- `total_ptrs_size`. -/
def totalPtrsSize (targetSize : TargetSize) (reader : ObjectReader) (start len nestingLimit : ℕ) :
    ReadM MessageSize :=
  Prog.fold (fun totalSize k => do
    let word ← reader.sectionSlice (start + k) 1
    if (word 0).isNull then pure totalSize
    else do
      let size ← targetSize reader (start + k) nestingLimit
      pure (totalSize + size)) 0 (List.range len)

/-- `total_inline_composites_targets_size`. -/
def totalInlineCompositesTargetsSize (targetSize : TargetSize) (reader : ObjectReader) (start : ℕ)
    (len : ElementCount) (size : StructSize) (nestingLimit : ℕ) : ReadM MessageSize := do
  stepByUnchecked size.total len.get
  Prog.fold (fun totalSize i => do
    let ptrsSize ← totalPtrsSize targetSize reader (start + size.total * i + size.data) size.ptrs
      nestingLimit
    pure (totalSize + ptrsSize)) 0 (List.range len.get)

/-- `total_struct_size`. -/
def totalStructSize (targetSize : TargetSize) (reader : ObjectReader) (content : StructContent)
    (nestingLimit : ℕ) : ReadM MessageSize := do
  let structSize : MessageSize := ⟨UInt64.ofNat content.size.total, 0⟩
  let ptrsTotalSize ← totalPtrsSize targetSize reader content.ptrsStart content.size.ptrs nestingLimit
  pure (structSize + ptrsTotalSize)

/-- The arm of `target_size` for lists. -/
def totalListSize (targetSize : TargetSize) (reader : ObjectReader) (content : ListContent)
    (nestingLimit : ℕ) : ReadM MessageSize := do
  let contentSize : MessageSize :=
    ⟨UInt64.ofNat (content.elementSize.totalWords content.elementCount.get), 0⟩
  let targetsSize ← match content.elementSize with
    | .inlineComposite size => do
      let nestingLimit ← Prog.okOr .nestingLimitExceeded (checkedSub nestingLimit 1)
      let composites ← totalInlineCompositesTargetsSize targetSize reader content.ptr
        content.elementCount size nestingLimit
      -- the tag
      pure (⟨composites.words + 1, composites.caps⟩ : MessageSize)
    | .pointer => do
      let nestingLimit ← Prog.okOr .nestingLimitExceeded (checkedSub nestingLimit 1)
      totalPtrsSize targetSize reader content.ptr content.elementCount.get nestingLimit
    | _ => pure 0
  pure (contentSize + targetsSize)

/-- `target_size`, to a depth. -/
def targetSize : ℕ → TargetSize
  | 0, _, _, _ => Prog.halt .depth
  | depth + 1, reader, ptr, nestingLimit => do
    let (reader, typed) ← reader.tryReadTyped ptr
    match typed with
    | .struct content => do
      let nestingLimit ← Prog.okOr .nestingLimitExceeded (checkedSub nestingLimit 1)
      totalStructSize (targetSize depth) reader content nestingLimit
    | .list content => totalListSize (targetSize depth) reader content nestingLimit
    | .capability _ => pure ⟨0, 1⟩

/-- `PtrReader::target_size`. -/
def PtrReader.targetSize (self : PtrReader) (depth : ℕ) : ReadM MessageSize :=
  if self.isNull then pure 0
  else do
    let nestingLimit ← Prog.okOr .nestingLimitExceeded (checkedSub self.nestingLimit 1)
    Ptr.targetSize depth self.reader self.ptr nestingLimit

/-- `StructReader::total_size`. -/
def StructReader.totalSize (self : StructReader) (depth : ℕ) : ReadM MessageSize := do
  let structSize : MessageSize := ⟨UInt64.ofNat (roundUpByteCount self.dataLen + self.ptrsLen), 0⟩
  let ptrsTargetsSize ← totalPtrsSize (targetSize depth) self.reader self.ptrsStart self.ptrsLen
    self.nestingLimit
  pure (structSize + ptrsTargetsSize)

/-- `ListReader::total_size`. -/
def ListReader.totalSize (self : ListReader) (depth : ℕ) : ReadM MessageSize := do
  let wordCount := UInt64.ofNat (self.elementSize.totalWords self.elementCount.get)
  let wordCount := if self.elementSize.isInlineComposite then wordCount + 1 else wordCount
  let listSize : MessageSize := ⟨wordCount, 0⟩
  match self.elementSize with
  | .pointer => do
    let targetSizes ← totalPtrsSize (targetSize depth) self.reader self.ptr self.elementCount.get
      self.nestingLimit
    pure (listSize + targetSizes)
  | .inlineComposite size => do
    let targetSizes ← totalInlineCompositesTargetsSize (targetSize depth) self.reader self.ptr
      self.elementCount size self.nestingLimit
    pure (listSize + targetSizes)
  | _ => pure listSize

/-! ## The size of a value -/

/-- Structs, and lists of pointers or of structs, are what the nesting limit counts. -/
def Shape.nests : Shape → Bool
  | struct _ => true
  | list .pointer _ => true
  | list (.inlineComposite _) _ => true
  | list _ _ => false

/-- The words of an object of the shape, with the tag of a list of structs. -/
def Shape.size : Shape → ℕ
  | struct size => size.total
  | list size count => size.exactWords count

namespace Value

instance : Inhabited Value := ⟨null⟩

/-- At most so many objects that count are nested in each other. -/
def FitsNesting : Value → ℕ → Prop
  | null, _ => True
  | capability _, _ => True
  | object shape _ ptrs, n => shape.nests = true → ∃ m, n = m + 1 ∧ ∀ k, (ptrs k).FitsNesting m

/-- The words of the objects of a value. -/
def words : Value → ℕ
  | null => 0
  | capability _ => 0
  | object shape _ ptrs => shape.size + ∑ k ∈ Finset.range shape.words,
      if h : k < shape.words ∧ shape.isPtr k = true then (ptrs ⟨k, h⟩).words else 0

/-- The capabilities of a value. -/
def caps : Value → ℕ
  | null => 0
  | capability _ => 1
  | object shape _ ptrs => ∑ k ∈ Finset.range shape.words,
      if h : k < shape.words ∧ shape.isPtr k = true then (ptrs ⟨k, h⟩).caps else 0

/-- The size of a value, as far as it can be counted. -/
def size (v : Value) : MessageSize := .ofNat v.words v.caps

lemma FitsNesting.mono {v : Value} {m n : ℕ} (h : v.FitsNesting m) (hle : m ≤ n) : v.FitsNesting n := by
  induction v generalizing m n with
  | null | capability => trivial
  | object shape data ptrs ih =>
    intro hnests
    obtain ⟨l, rfl, hptrs⟩ := h hnests
    obtain ⟨d, rfl⟩ := Nat.exists_eq_add_of_le hle
    exact ⟨l + d, by omega, fun k => ih k (hptrs k) (Nat.le_add_right l d)⟩

end Value

/-! ## Sums over the pointers of a block -/

section Sums

variable {M : Type} [AddCommMonoid M]

/-- What the pointers of a block add up to. -/
def Shape.sumPtrs (shape : Shape) (g : ℕ → M) : M :=
  ∑ k ∈ Finset.range shape.words, if shape.isPtr k = true then g k else 0

lemma sum_struct {size : StructSize} {p : ℕ → Bool} (hp : ∀ k < size.total, p k = decide (size.data ≤ k))
    (g : ℕ → M) : ∑ k ∈ Finset.range size.total, (if p k = true then g k else 0) =
      ∑ k ∈ Finset.range size.ptrs, g (size.data + k) := by
  have htotal := size.total_eq
  rw [htotal, Finset.sum_range_add, Finset.sum_eq_zero, zero_add]
  · refine Finset.sum_congr rfl fun k hk => ?_
    have hk' := Finset.mem_range.1 hk
    rw [hp _ (by omega), if_pos (decide_eq_true (Nat.le_add_right _ _))]
  · intro k hk
    have hk' := Finset.mem_range.1 hk
    rw [hp k (by omega), if_neg fun h => absurd (of_decide_eq_true h) (by omega)]

lemma Shape.sumPtrs_struct (size : StructSize) (g : ℕ → M) :
    (Shape.struct size).sumPtrs g = ∑ k ∈ Finset.range size.ptrs, g (size.data + k) :=
  sum_struct (fun _ _ => rfl) g

lemma Shape.sumPtrs_structs (size : StructSize) (count : ElementCount) (g : ℕ → M) :
    (Shape.list (.inlineComposite size) count).sumPtrs g =
      ∑ i ∈ Finset.range count.get, ∑ k ∈ Finset.range size.ptrs,
        g (size.total * i + size.data + k) := by
  have hmul : ∀ (h : ℕ → M) (n : ℕ), ∑ k ∈ Finset.range (size.total * n), h k =
      ∑ i ∈ Finset.range n, ∑ k ∈ Finset.range size.total, h (size.total * i + k) := by
    intro h n
    induction n with
    | zero => rfl
    | succ n ih => rw [Nat.mul_succ, Finset.sum_range_add, ih, Finset.sum_range_succ]
  unfold Shape.sumPtrs
  rw [Shape.words_structs, hmul]
  refine Finset.sum_congr rfl fun i hi => ?_
  have hpart := Shape.partAt_element size (Finset.mem_range.1 hi)
  rw [sum_struct hpart.isPtr]
  exact Finset.sum_congr rfl fun k _ => congrArg g (Nat.add_assoc _ _ _).symm

lemma Shape.sumPtrs_pointers (count : ElementCount) (g : ℕ → M) :
    (Shape.list .pointer count).sumPtrs g = ∑ k ∈ Finset.range count.get, g k := by
  have hwords : (Shape.list .pointer count).words = count.get := by
    show (64 * count.get + 63) / 64 = count.get
    omega
  unfold Shape.sumPtrs
  rw [hwords]
  exact Finset.sum_congr rfl fun k _ => if_pos rfl

/-- Data has no pointers. -/
lemma Shape.isPtr_of_data {shape : Shape} (h : shape.nests = false) (k : ℕ) : shape.isPtr k = false := by
  cases shape with
  | struct => cases h
  | list size count =>
    cases size with
    | pointer => cases h
    | inlineComposite => cases h
    | _ => rfl

lemma Shape.sumPtrs_data {shape : Shape} (h : shape.nests = false) (g : ℕ → M) :
    shape.sumPtrs g = 0 :=
  Finset.sum_eq_zero fun k _ => if_neg (by rw [isPtr_of_data h]; exact Bool.false_ne_true)

end Sums

namespace Value

variable {shape : Shape} {data : shape.Data → Word} {ptrs : shape.Slot → Value}

lemma ptr_slot (k : shape.Slot) : (object shape data ptrs).ptr k.1 = ptrs k := dif_pos k.2

lemma words_object : (object shape data ptrs).words =
    shape.size + shape.sumPtrs fun k => ((object shape data ptrs).ptr k).words := by
  show shape.size + _ = _
  congr 1
  refine Finset.sum_congr rfl fun k hk => ?_
  have hlt := Finset.mem_range.1 hk
  show _ = if _ then Value.words (if h : k < shape.words ∧ shape.isPtr k = true then ptrs ⟨k, h⟩ else null)
    else 0
  by_cases hptr : shape.isPtr k = true
  · rw [dif_pos ⟨hlt, hptr⟩, if_pos hptr, dif_pos ⟨hlt, hptr⟩]
  · rw [dif_neg fun h => hptr h.2, if_neg hptr]

lemma caps_object : (object shape data ptrs).caps =
    shape.sumPtrs fun k => ((object shape data ptrs).ptr k).caps := by
  refine Finset.sum_congr rfl fun k hk => ?_
  have hlt := Finset.mem_range.1 hk
  show _ = if _ then Value.caps (if h : k < shape.words ∧ shape.isPtr k = true then ptrs ⟨k, h⟩ else null)
    else 0
  by_cases hptr : shape.isPtr k = true
  · rw [dif_pos ⟨hlt, hptr⟩, if_pos hptr, dif_pos ⟨hlt, hptr⟩]
  · rw [dif_neg fun h => hptr h.2, if_neg hptr]

/-- What has no capabilities has none below its pointers. -/
lemma caps_ptrs (h : (object shape data ptrs).caps = 0) (k : shape.Slot) : (ptrs k).caps = 0 := by
  rw [caps_object] at h
  have hk := Finset.sum_eq_zero_iff.1 h k.1 (Finset.mem_range.2 k.2.1)
  dsimp only at hk
  rwa [if_pos k.2.2, ptr_slot k] at hk

/-- The words of the block, and those below one of its pointers. -/
lemma words_ptrs_le (k : shape.Slot) : shape.size + (ptrs k).words ≤ (object shape data ptrs).words := by
  rw [words_object]
  have hle := Finset.single_le_sum (f := fun i => if shape.isPtr i = true then
    ((object shape data ptrs).ptr i).words else 0) (fun _ _ => Nat.zero_le _) (Finset.mem_range.2 k.2.1)
  rw [if_pos k.2.2, ptr_slot k] at hle
  exact Nat.add_le_add_left hle _

lemma size_object : (object shape data ptrs).size =
    .ofNat shape.size 0 + shape.sumPtrs fun k => ((object shape data ptrs).ptr k).size := by
  have hsum : (shape.sumPtrs fun k => ((object shape data ptrs).ptr k).size) =
      .ofNat (shape.sumPtrs fun k => ((object shape data ptrs).ptr k).words)
        (shape.sumPtrs fun k => ((object shape data ptrs).ptr k).caps) := by
    unfold Shape.sumPtrs
    rw [← MessageSize.sum_ofNat]
    refine Finset.sum_congr rfl fun k _ => ?_
    by_cases hptr : shape.isPtr k = true
    · rw [if_pos hptr, if_pos hptr, if_pos hptr]
      rfl
    · rw [if_neg hptr, if_neg hptr, if_neg hptr, MessageSize.ofNat_zero]
  rw [hsum, ← MessageSize.ofNat_add, size, words_object, caps_object, Nat.zero_add]

end Value

/-! ## What the sizes are -/

section Sizes

open Prog

variable {t : TargetSize} {a : ReadArena} {id : SegmentId} {block : Segment} {m pos start len : ℕ}
  {size : MessageSize} {s : Limiter}

/-- The function gives the size of the value at a position, if it fits the nesting. -/
def Sizes (t : TargetSize) (a : ReadArena) (m : ℕ) (id : SegmentId) (pos : ℕ) : Prop :=
  ∀ block, a id = some block → block.data pos ≠ Word.null → ∀ size s,
    t (.inSegment a id block) pos m none = .ok size s ↔
      s = none ∧ ∃ v, Reads a id pos v ∧ v.FitsNesting m ∧ size = v.size

/-- Pointers one behind the other. -/
lemma totalPtrsSize_eq_ok (hblock : a id = some block) (hin : start + len ≤ block.len.get)
    (ht : ∀ k < len, Sizes t a m id (start + k)) :
    totalPtrsSize t (.inSegment a id block) start len m none = .ok size s ↔
      s = none ∧ ∃ vs : ℕ → Value,
        (∀ k < len, Reads a id (start + k) (vs k) ∧ (vs k).FitsNesting m) ∧
        size = ∑ k ∈ Finset.range len, (vs k).size := by
  refine (@fold_add_eq_ok _ _ _ _ _
    (fun k x => ∃ v, Reads a id (start + k) v ∧ v.FitsNesting m ∧ x = v.size) _ _ _ _ ?_).trans ?_
  · intro k hk b b' s'
    rw [sectionSlice_eq_pure (show start + k + 1 ≤ block.len.get by omega), pure_bind_eq]
    dsimp only [Nat.add_zero]
    by_cases hnull : (block.data (start + k)).isNull = true
    · rw [if_pos_apply hnull, pure_eq_ok]
      constructor
      · rintro ⟨rfl, rfl⟩
        exact ⟨rfl, _, ⟨.null, .null hblock (Word.isNull_iff.1 hnull), trivial, rfl⟩,
          (add_zero b).symm⟩
      · rintro ⟨rfl, x, ⟨v, hreads, -, rfl⟩, rfl⟩
        obtain rfl := (hreads.isNull_iff hblock).1 hnull
        exact ⟨(add_zero b).symm, rfl⟩
    · have hsome : block.data (start + k) ≠ Word.null := fun h => hnull (Word.isNull_iff.2 h)
      rw [if_neg_apply hnull, bind_eq_ok]
      constructor
      · rintro ⟨x, s₁, hrun, hpure⟩
        obtain ⟨rfl, hv⟩ := (ht k hk block hblock hsome _ _).1 hrun
        obtain ⟨rfl, rfl⟩ := pure_eq_ok.1 hpure
        exact ⟨rfl, x, hv, rfl⟩
      · rintro ⟨rfl, x, hv, rfl⟩
        exact ⟨x, none, (ht k hk block hblock hsome _ _).2 ⟨rfl, hv⟩, rfl⟩
  · refine and_congr_right fun _ => ⟨?_, ?_⟩
    · rintro ⟨xs, hxs, rfl⟩
      choose! vs hvs using hxs
      refine ⟨vs, fun k hk => ⟨(hvs k hk).1, (hvs k hk).2.1⟩, ?_⟩
      exact Finset.sum_congr rfl fun k hk => (hvs k (Finset.mem_range.1 hk)).2.2
    · rintro ⟨vs, hvs, rfl⟩
      exact ⟨fun k => (vs k).size, fun k hk => ⟨vs k, (hvs k hk).1, (hvs k hk).2, rfl⟩, rfl⟩

/-- Structs one behind the other. -/
lemma totalInlineCompositesTargetsSize_eq_ok {count : ElementCount} {elem : StructSize}
    (hblock : a id = some block) (hin : start + elem.total * count.get ≤ block.len.get)
    (ht : ∀ i < count.get, ∀ k < elem.ptrs, Sizes t a m id (start + elem.total * i + elem.data + k)) :
    totalInlineCompositesTargetsSize t (.inSegment a id block) start count elem m none = .ok size s ↔
      s = none ∧ ∃ vs : ℕ → ℕ → Value,
        (∀ i < count.get, ∀ k < elem.ptrs,
          Reads a id (start + elem.total * i + elem.data + k) (vs i k) ∧ (vs i k).FitsNesting m) ∧
        size = ∑ i ∈ Finset.range count.get, ∑ k ∈ Finset.range elem.ptrs, (vs i k).size := by
  have hlt := block.len.get_lt
  have hstep : elem.total * count.get ≤ U29.maxValue := by
    show _ ≤ 2 ^ 29 - 1
    omega
  unfold totalInlineCompositesTargetsSize
  rw [stepByUnchecked, assert_of hstep, pure_bind_eq]
  refine (@fold_add_eq_ok _ _ _ _ _
    (fun i x => ∃ vs : ℕ → Value, (∀ k < elem.ptrs,
      Reads a id (start + elem.total * i + elem.data + k) (vs k) ∧ (vs k).FitsNesting m) ∧
      x = ∑ k ∈ Finset.range elem.ptrs, (vs k).size) _ _ _ _ ?_).trans ?_
  · intro i hi b b' s'
    have hnext := elem.mul_succ_le hi
    have htotal := elem.total_eq
    have hptrs := fun x s₁ => @totalPtrsSize_eq_ok t a id block m
      (start + elem.total * i + elem.data) elem.ptrs x s₁ hblock (by omega) (ht i hi)
    rw [bind_eq_ok]
    constructor
    · rintro ⟨x, s₁, hrun, hpure⟩
      obtain ⟨rfl, hvs⟩ := (hptrs x s₁).1 hrun
      obtain ⟨rfl, rfl⟩ := pure_eq_ok.1 hpure
      exact ⟨rfl, x, hvs, rfl⟩
    · rintro ⟨rfl, x, hvs, rfl⟩
      exact ⟨x, none, (hptrs x none).2 ⟨rfl, hvs⟩, rfl⟩
  · refine and_congr_right fun _ => ⟨?_, ?_⟩
    · rintro ⟨xs, hxs, rfl⟩
      choose! vs hvs hsum using hxs
      exact ⟨vs, hvs, Finset.sum_congr rfl fun i hi => hsum i (Finset.mem_range.1 hi)⟩
    · rintro ⟨vs, hvs, rfl⟩
      exact ⟨_, fun i hi => ⟨vs i, hvs i hi, rfl⟩, rfl⟩

/-- The values of an object are those of its pointers. -/
lemma reads_object_iff {id' : SegmentId} {shape : Shape} {cost : ℕ} {segment : Segment} {Q : Value → Prop}
    (hsegment : a id = some segment) (hsome : segment.data pos ≠ Word.null)
    (hdenotes : Denotes a id pos id' (shape.content start) cost) (hblock : a id' = some block) :
    (∃ v, Reads a id pos v ∧ Q v) ↔
      ∃ f : ℕ → Value, (∀ k < shape.words, shape.isPtr k = true → Reads a id' (start + k) (f k)) ∧
        Q (.object shape (fun k => block.data (start + k.1)) fun k => f k.1) := by
  constructor
  · rintro ⟨v, hreads, hv⟩
    cases hreads with
    | null hsegment' hnull =>
      obtain rfl := Option.mem_unique hsegment hsegment'
      exact absurd hnull hsome
    | capability _ _ hdenotes' =>
      have htyped := (hdenotes.unique hsegment hdenotes').2
      cases shape <;> cases htyped
    | @object _ id'' _ start' _ _ block' shape' data ptrs _ _ hdenotes' hblock' hdata hptrs =>
      obtain ⟨rfl, htyped⟩ := hdenotes.unique hsegment hdenotes'
      obtain ⟨rfl, rfl⟩ := Shape.content_inj htyped
      obtain rfl := Option.mem_unique hblock hblock'
      refine ⟨Value.ptr (.object shape data ptrs), fun k hk hptr => ?_, ?_⟩
      · show Reads a id' (start + k) (dite _ _ _)
        rw [dif_pos ⟨hk, hptr⟩]
        exact hptrs ⟨k, hk, hptr⟩
      · have hvalue : data = fun k => block.data (start + k.1) := funext fun k => (hdata k).symm
        have hvalues : (fun k : shape.Slot => Value.ptr (.object shape data ptrs) k.1) = ptrs :=
          funext Value.ptr_slot
        rw [hvalues, ← hvalue]
        exact hv
  · rintro ⟨f, hf, hv⟩
    exact ⟨_, .object hsegment hsome hdenotes hblock (fun _ => rfl)
      fun k => hf k.1 k.2.1 k.2.2, hv⟩

/-- The values of the pointers of a block, which fit a nesting and have a size together. -/
def SlotsSize (a : ReadArena) (id : SegmentId) (shape : Shape) (start m : ℕ) (size : MessageSize) :
    Prop :=
  ∃ f : ℕ → Value, (∀ k < shape.words, shape.isPtr k = true →
    Reads a id (start + k) (f k) ∧ (f k).FitsNesting m) ∧ size = shape.sumPtrs fun k => (f k).size

lemma slotsSize_struct {elem : StructSize} :
    SlotsSize a id (.struct elem) start m size ↔ ∃ vs : ℕ → Value,
      (∀ k < elem.ptrs, Reads a id (start + elem.data + k) (vs k) ∧ (vs k).FitsNesting m) ∧
      size = ∑ k ∈ Finset.range elem.ptrs, (vs k).size := by
  have htotal : (Shape.struct elem).words = elem.data + elem.ptrs := rfl
  constructor
  · rintro ⟨f, hf, rfl⟩
    refine ⟨fun k => f (elem.data + k), fun k hk => ?_, Shape.sumPtrs_struct _ _⟩
    rw [Nat.add_assoc]
    exact hf _ (by omega) (decide_eq_true (Nat.le_add_right _ _))
  · rintro ⟨vs, hvs, rfl⟩
    refine ⟨fun k => vs (k - elem.data), fun k hk hptr => ?_, ?_⟩
    · have hle : elem.data ≤ k := of_decide_eq_true hptr
      have hslot := hvs (k - elem.data) (by omega)
      rw [show start + elem.data + (k - elem.data) = start + k by omega] at hslot
      exact hslot
    · rw [Shape.sumPtrs_struct]
      refine Finset.sum_congr rfl fun k _ => ?_
      dsimp only
      rw [Nat.add_sub_cancel_left]

lemma slotsSize_pointers {count : ElementCount} :
    SlotsSize a id (.list .pointer count) start m size ↔ ∃ vs : ℕ → Value,
      (∀ k < count.get, Reads a id (start + k) (vs k) ∧ (vs k).FitsNesting m) ∧
      size = ∑ k ∈ Finset.range count.get, (vs k).size := by
  have hwords : (Shape.list .pointer count).words = count.get := by
    show (64 * count.get + 63) / 64 = count.get
    omega
  unfold SlotsSize
  rw [hwords]
  refine exists_congr fun f => and_congr ⟨fun hf k hk => hf k hk rfl, fun hf k hk _ => hf k hk⟩ ?_
  rw [Shape.sumPtrs_pointers]

lemma slotsSize_structs {elem : StructSize} {count : ElementCount} :
    SlotsSize a id (.list (.inlineComposite elem) count) start m size ↔ ∃ vs : ℕ → ℕ → Value,
      (∀ i < count.get, ∀ k < elem.ptrs,
        Reads a id (start + elem.total * i + elem.data + k) (vs i k) ∧ (vs i k).FitsNesting m) ∧
      size = ∑ i ∈ Finset.range count.get, ∑ k ∈ Finset.range elem.ptrs, (vs i k).size := by
  constructor
  · rintro ⟨f, hf, rfl⟩
    refine ⟨fun i k => f (elem.total * i + elem.data + k), fun i hi k hk => ?_,
      Shape.sumPtrs_structs _ _ _⟩
    obtain ⟨hlt, hptr⟩ := isPtr_of_element hi hk
    rw [show start + elem.total * i + elem.data + k = start + (elem.total * i + elem.data + k) by omega]
    exact hf _ hlt hptr
  · rintro ⟨vs, hvs, rfl⟩
    have helement : ∀ i, ∀ k < elem.ptrs, (elem.total * i + elem.data + k) / elem.total = i ∧
        (elem.total * i + elem.data + k) % elem.total - elem.data = k := by
      intro i k hk
      have hlt : elem.data + k < elem.total := Nat.add_lt_add_left hk _
      rw [Nat.add_assoc, Nat.mul_add_div (by omega), Nat.div_eq_of_lt hlt, Nat.mul_add_mod,
        Nat.mod_eq_of_lt hlt]
      omega
    refine ⟨fun k => vs (k / elem.total) (k % elem.total - elem.data), fun k hk hptr => ?_, ?_⟩
    · obtain ⟨i, hi, j, hj, rfl⟩ := element_of_isPtr ⟨hk, hptr⟩
      obtain ⟨hdiv, hmod⟩ := helement i j hj
      dsimp only
      rw [hdiv, hmod]
      have hslot := hvs i hi j hj
      rw [show start + elem.total * i + elem.data + j = start + (elem.total * i + elem.data + j) by
        omega] at hslot
      exact hslot
    · rw [Shape.sumPtrs_structs]
      refine Finset.sum_congr rfl fun i _ => Finset.sum_congr rfl fun k hk => ?_
      obtain ⟨hdiv, hmod⟩ := helement i k (Finset.mem_range.1 hk)
      dsimp only
      rw [hdiv, hmod]

/-- The size of an object that counts for the nesting is that of its block and its pointers. -/
lemma exists_size_iff {id' : SegmentId} {shape : Shape} {cost : ℕ} {segment : Segment}
    (hnests : shape.nests = true) (hsegment : a id = some segment)
    (hsome : segment.data pos ≠ Word.null)
    (hdenotes : Denotes a id pos id' (shape.content start) cost) (hblock : a id' = some block) :
    (∃ v, Reads a id pos v ∧ v.FitsNesting (m + 1) ∧ size = v.size) ↔
      ∃ total, SlotsSize a id' shape start m total ∧ size = .ofNat shape.size 0 + total := by
  have hsums : ∀ f : ℕ → Value,
      Value.size (.object shape (fun k => block.data (start + k.1)) fun k => f k.1) =
        .ofNat shape.size 0 + shape.sumPtrs fun k => (f k).size := by
    intro f
    rw [Value.size_object]
    congr 1
    refine Finset.sum_congr rfl fun k hk => ?_
    by_cases hptr : shape.isPtr k = true
    · rw [if_pos hptr, if_pos hptr]
      exact congrArg Value.size (dif_pos ⟨Finset.mem_range.1 hk, hptr⟩)
    · rw [if_neg hptr, if_neg hptr]
  rw [reads_object_iff hsegment hsome hdenotes hblock]
  constructor
  · rintro ⟨f, hf, hfits, rfl⟩
    obtain ⟨m', hm, hptrs⟩ := hfits hnests
    obtain rfl := Nat.succ.inj hm
    exact ⟨_, ⟨f, fun k hk hptr => ⟨hf k hk hptr, hptrs ⟨k, hk, hptr⟩⟩, rfl⟩, hsums f⟩
  · rintro ⟨_, ⟨f, hf, rfl⟩, rfl⟩
    exact ⟨f, fun k hk hptr => (hf k hk hptr).1,
      fun _ => ⟨m, rfl, fun k => (hf k.1 k.2.1 k.2.2).2⟩, (hsums f).symm⟩

variable {id' : SegmentId} {segment : Segment} {cost : ℕ}

/-- The pointers of a struct. -/
lemma totalPtrsSize_struct {elem : StructSize} (hblock : a id = some block)
    (hin : start + elem.total ≤ block.len.get) (ht : ∀ k, Sizes t a m id k) :
    totalPtrsSize t (.inSegment a id block) (start + elem.data) elem.ptrs m none = .ok size s ↔
      s = none ∧ SlotsSize a id (.struct elem) start m size := by
  have htotal := elem.total_eq
  rw [totalPtrsSize_eq_ok hblock (by omega) fun k _ => ht _, slotsSize_struct]

/-- The pointers of a list of pointers. -/
lemma totalPtrsSize_pointers {count : ElementCount} (hblock : a id = some block)
    (hin : start + count.get ≤ block.len.get) (ht : ∀ k, Sizes t a m id k) :
    totalPtrsSize t (.inSegment a id block) start count.get m none = .ok size s ↔
      s = none ∧ SlotsSize a id (.list .pointer count) start m size := by
  rw [totalPtrsSize_eq_ok hblock hin fun k _ => ht _, slotsSize_pointers]

/-- The pointers of a list of structs. -/
lemma totalInlineCompositesTargetsSize_structs {elem : StructSize} {count : ElementCount}
    (hblock : a id = some block) (hin : start + elem.total * count.get ≤ block.len.get)
    (ht : ∀ k, Sizes t a m id k) :
    totalInlineCompositesTargetsSize t (.inSegment a id block) start count elem m none = .ok size s ↔
      s = none ∧ SlotsSize a id (.list (.inlineComposite elem) count) start m size := by
  rw [totalInlineCompositesTargetsSize_eq_ok hblock hin fun i _ k _ => ht _, slotsSize_structs]

/-- Sizes that are made of what the pointers of an object come to. -/
lemma bind_slotsSize {shape : Shape} {x : ReadM MessageSize} {f : MessageSize → MessageSize}
    (hnests : shape.nests = true) (hsegment : a id = some segment)
    (hsome : segment.data pos ≠ Word.null)
    (hdenotes : Denotes a id pos id' (shape.content start) cost) (hblock : a id' = some block)
    (hx : ∀ total s, x none = .ok total s ↔ s = none ∧ SlotsSize a id' shape start m total)
    (hf : ∀ total, f total = .ofNat shape.size 0 + total) :
    (x >>= fun total => pure (f total)) none = .ok size s ↔
      s = none ∧ ∃ v, Reads a id pos v ∧ v.FitsNesting (m + 1) ∧ size = v.size := by
  rw [exists_size_iff hnests hsegment hsome hdenotes hblock, bind_eq_ok]
  constructor
  · rintro ⟨total, s₁, hrun, hpure⟩
    obtain ⟨rfl, hslots⟩ := (hx total s₁).1 hrun
    obtain ⟨rfl, rfl⟩ := pure_eq_ok.1 hpure
    exact ⟨rfl, total, hslots, hf total⟩
  · rintro ⟨rfl, total, hslots, rfl⟩
    exact ⟨total, none, (hx total none).2 ⟨rfl, hslots⟩, pure_eq_ok.2 ⟨hf total, rfl⟩⟩

/-- A struct. -/
lemma totalStructSize_eq_ok {elem : StructSize} (hsegment : a id = some segment)
    (hsome : segment.data pos ≠ Word.null)
    (hdenotes : Denotes a id pos id' (.struct ⟨start, elem⟩) cost) (hblock : a id' = some block)
    (ht : ∀ k, Sizes t a m id' k) :
    totalStructSize t (.inSegment a id' block) ⟨start, elem⟩ m none = .ok size s ↔
      s = none ∧ ∃ v, Reads a id pos v ∧ v.FitsNesting (m + 1) ∧ size = v.size := by
  have hin : start + elem.total ≤ block.len.get :=
    @Shape.words_le_of_inside (.struct elem) start _ (hdenotes.inside hblock)
  have hbind := @bind_slotsSize a id block m pos start size s id' segment cost (.struct elem)
    (totalPtrsSize t (.inSegment a id' block) (start + elem.data) elem.ptrs m)
    (fun total => ⟨UInt64.ofNat elem.total, 0⟩ + total) rfl hsegment hsome hdenotes hblock
    (fun total s => totalPtrsSize_struct hblock hin ht) fun total => rfl
  exact hbind

/-- A list that is not of pointers or structs. -/
lemma exists_size_iff_of_data {shape : Shape} {n : ℕ} (hnests : shape.nests = false)
    (hsegment : a id = some segment) (hsome : segment.data pos ≠ Word.null)
    (hdenotes : Denotes a id pos id' (shape.content start) cost) (hblock : a id' = some block) :
    (∃ v, Reads a id pos v ∧ v.FitsNesting n ∧ size = v.size) ↔ size = .ofNat shape.size 0 := by
  have hsize : ∀ f : ℕ → Value,
      Value.size (.object shape (fun k => block.data (start + k.1)) fun k => f k.1) =
        .ofNat shape.size 0 := by
    intro f
    rw [Value.size_object, Shape.sumPtrs_data hnests, add_zero]
  rw [reads_object_iff hsegment hsome hdenotes hblock]
  constructor
  · rintro ⟨f, -, -, rfl⟩
    exact hsize f
  · rintro rfl
    refine ⟨fun _ => .null, fun k _ hptr => ?_, fun h => ?_, (hsize fun _ => .null).symm⟩
    · rw [Shape.isPtr_of_data hnests] at hptr
      cases hptr
    · rw [hnests] at h
      cases h

/-- Without any nesting there is no object that counts for it. -/
lemma not_fitsNesting_zero {shape : Shape} (hnests : shape.nests = true) (hsegment : a id = some segment)
    (hsome : segment.data pos ≠ Word.null)
    (hdenotes : Denotes a id pos id' (shape.content start) cost) (hblock : a id' = some block) :
    ¬ ∃ v, Reads a id pos v ∧ v.FitsNesting 0 ∧ size = v.size := by
  rw [reads_object_iff hsegment hsome hdenotes hblock]
  rintro ⟨f, -, hfits, -⟩
  obtain ⟨m, hm, -⟩ := hfits hnests
  exact absurd hm.symm (Nat.succ_ne_zero m)

/-- The words of a list that was read are counted exactly, but for the tag. -/
lemma totalWords_of_denotes {elemSize : ElementSize} {count : ElementCount}
    (hdenotes : Denotes a id pos id' ((Shape.list elemSize count).content start) cost)
    (hblock : a id' = some block) :
    elemSize.totalWords count.get + (if elemSize.isInlineComposite = true then 1 else 0) =
      elemSize.exactWords count := by
  rw [totalWords_of_fits (hdenotes.exactWords_lt hblock)]
  rfl

/-- The tag is counted with the pointers. -/
lemma add_tag (words : ℕ) (total : MessageSize) :
    (⟨UInt64.ofNat words, 0⟩ : MessageSize) + ⟨total.words + 1, total.caps⟩ =
      .ofNat (words + 1) 0 + total := by
  refine MessageSize.ext ?_ rfl
  show UInt64.ofNat words + (total.words + 1) = UInt64.ofNat (words + 1) + total.words
  rw [UInt64.ofNat_add, UInt64.add_assoc, UInt64.add_comm total.words]
  rfl

/-- The arm for lists. -/
lemma totalListSize_eq_ok {elemSize : ElementSize} {count : ElementCount} {n : ℕ}
    (hsegment : a id = some segment) (hsome : segment.data pos ≠ Word.null)
    (hdenotes : Denotes a id pos id' ((Shape.list elemSize count).content start) cost)
    (hblock : a id' = some block) (ht : ∀ m, n = m + 1 → ∀ k, Sizes t a m id' k) :
    totalListSize t (.inSegment a id' block) ⟨start, elemSize, count⟩ n none = .ok size s ↔
      s = none ∧ ∃ v, Reads a id pos v ∧ v.FitsNesting n ∧ size = v.size := by
  have htotal := totalWords_of_denotes hdenotes hblock
  have hwords := Shape.words_le_of_inside (hdenotes.inside hblock)
  have hdata : (Shape.list elemSize count).nests = false →
      totalListSize t (.inSegment a id' block) ⟨start, elemSize, count⟩ n =
        pure ((⟨UInt64.ofNat (elemSize.totalWords count.get), 0⟩ : MessageSize) + 0) →
      elemSize.totalWords count.get = elemSize.exactWords count →
      (totalListSize t (.inSegment a id' block) ⟨start, elemSize, count⟩ n none = .ok size s ↔
        s = none ∧ ∃ v, Reads a id pos v ∧ v.FitsNesting n ∧ size = v.size) := by
    intro hnests heq hexact
    rw [exists_size_iff_of_data hnests hsegment hsome hdenotes hblock, heq, pure_eq_ok, hexact,
      add_zero, and_comm, eq_comm, @eq_comm _ _ size]
    rfl
  cases elemSize with
  | pointer =>
    rcases n with _ | m
    · refine iff_of_false ?_ fun h => not_fitsNesting_zero rfl hsegment hsome hdenotes hblock h.2
      exact fun h => nomatch h
    · have hcount : (Shape.list .pointer count).words = (64 * count.get + 63) / 64 := rfl
      have hbind := @bind_slotsSize a id block m pos start size s id' segment cost (.list .pointer count)
        (totalPtrsSize t (.inSegment a id' block) start count.get m)
        (fun total => ⟨UInt64.ofNat (ElementSize.pointer.totalWords count.get), 0⟩ + total) rfl hsegment
        hsome hdenotes hblock (fun total s => totalPtrsSize_pointers hblock (by omega) (ht m rfl))
        fun total => congrArg (fun words => MessageSize.ofNat words 0 + total) htotal
      exact hbind
  | inlineComposite elem =>
    rcases n with _ | m
    · refine iff_of_false ?_ fun h => not_fitsNesting_zero rfl hsegment hsome hdenotes hblock h.2
      exact fun h => nomatch h
    · rw [Shape.words_structs] at hwords
      have hbind := @bind_slotsSize a id block m pos start size s id' segment cost
        (.list (.inlineComposite elem) count)
        (totalInlineCompositesTargetsSize t (.inSegment a id' block) start count elem m) (fun total =>
          ⟨UInt64.ofNat ((ElementSize.inlineComposite elem).totalWords count.get), 0⟩ +
            ⟨total.words + 1, total.caps⟩) rfl hsegment hsome hdenotes hblock
        (fun total s => totalInlineCompositesTargetsSize_structs hblock hwords (ht m rfl)) fun total =>
          (add_tag _ total).trans (congrArg (fun words => MessageSize.ofNat words 0 + total) htotal)
      exact hbind
  | _ => exact hdata rfl rfl htotal

/-- A pointer with a value can be read. -/
lemma Reads.tryReadTyped {v : Value} (h : Reads a id pos v) (hsegment : a id = some segment)
    (hsome : segment.data pos ≠ Word.null) :
    ∃ read, (ObjectReader.inSegment a id segment).tryReadTyped pos none = .ok read none := by
  have hread : ∀ {id' typed cost}, Denotes a id pos id' typed cost →
      ∃ read, (ObjectReader.inSegment a id segment).tryReadTyped pos none = .ok read none := by
    intro id' typed cost hdenotes
    obtain ⟨block, hblock⟩ := hdenotes.segment
    exact ⟨_, (tryReadTyped_eq_ok hsegment).2
      ⟨id', block, cost, hblock, rfl, hdenotes, Limiter.charge_none _⟩⟩
  cases h with
  | null hsegment' hnull =>
    obtain rfl := Option.mem_unique hsegment hsegment'
    exact absurd hnull hsome
  | capability _ _ hdenotes | object _ _ hdenotes => exact hread hdenotes

/-- **The size of a target** is that of the value that is read, as far as it fits the nesting. -/
theorem targetSize_sizes (a : ReadArena) {depth m : ℕ} (hdepth : m < depth) (id : SegmentId) (pos : ℕ) :
    Sizes (targetSize depth) a m id pos := by
  induction depth generalizing m id pos with
  | zero => exact absurd hdepth (Nat.not_lt_zero m)
  | succ depth ih =>
    intro segment hsegment hsome size s
    rcases hread : (ObjectReader.inSegment a id segment).tryReadTyped pos none with
      ⟨⟨reader, typed⟩, s'⟩ | ⟨e, s'⟩ | r
    · obtain ⟨id', block, cost, hblock, rfl, hdenotes, hcharge⟩ := (tryReadTyped_eq_ok hsegment).1 hread
      obtain rfl := Option.some.inj ((Limiter.charge_none _).symm.trans hcharge)
      rw [targetSize, bind_of_ok hread]
      cases typed with
      | struct content =>
        obtain ⟨start, elem⟩ := content
        rcases m with _ | m
        · refine iff_of_false (fun h => nomatch h) fun h => ?_
          exact @not_fitsNesting_zero a id block pos start size id' segment cost (.struct elem) rfl
            hsegment hsome hdenotes hblock h.2
        · exact totalStructSize_eq_ok hsegment hsome hdenotes hblock
            (ih (Nat.lt_of_succ_lt_succ hdepth) id')
      | list content =>
        obtain ⟨start, elemSize, count⟩ := content
        refine totalListSize_eq_ok hsegment hsome hdenotes hblock fun m' hm => ih ?_ id'
        omega
      | capability index =>
        show (pure _ : ReadM MessageSize) none = _ ↔ _
        rw [pure_eq_ok, eq_comm, and_comm, @eq_comm _ _ s]
        refine and_congr_right fun _ => ⟨?_, ?_⟩
        · rintro rfl
          exact ⟨_, .capability hsegment hsome hdenotes, trivial, rfl⟩
        · rintro ⟨v, hv, -, rfl⟩
          obtain rfl := hv.unique (.capability hsegment hsome hdenotes)
          rfl
    · rw [targetSize, bind_of_error hread]
      refine iff_of_false (fun h => nomatch h) ?_
      rintro ⟨-, v, hv, -⟩
      obtain ⟨read, hok⟩ := hv.tryReadTyped hsegment hsome
      rw [hread] at hok
      cases hok
    · rw [targetSize, bind_of_halt hread]
      refine iff_of_false (fun h => nomatch h) ?_
      rintro ⟨-, v, hv, -⟩
      obtain ⟨read, hok⟩ := hv.tryReadTyped hsegment hsome
      rw [hread] at hok
      cases hok

end Sizes

/-! ## Sizes are found -/

/-- Without a limiter, measuring comes to an end. -/
def sizeTerms : Prog.Terms Error Limiter := ⟨fun limiter => limiter = none, fun _ => True, fun _ => False⟩

section Terms

open Prog

variable {t : TargetSize} {a : ReadArena} {id : SegmentId} {block : Segment} {m start len : ℕ}

lemma within_sizeTerms {α : Type} {x : ReadM α}
    (h : Within (readTerms fun limiter => limiter = none) x) : Within sizeTerms x := by
  intro s hs
  have hrun := h s hs
  rcases hx : x s with ⟨v, s'⟩ | ⟨e, s'⟩ | r
  · exact h.ok hs hx
  · exact ⟨trivial, (h.error hs hx).2⟩
  · exact h.halt hs hx

lemma within_totalPtrsSize (hin : start + len ≤ block.len.get)
    (ht : ∀ pos, Within sizeTerms (t (.inSegment a id block) pos m)) :
    Within sizeTerms (totalPtrsSize t (.inSegment a id block) start len m) := by
  refine within_fold (fun k hk b => ?_) 0
  have hlt := List.mem_range.1 hk
  rw [sectionSlice_eq_pure (show start + k + 1 ≤ block.len.get by omega), pure_bind_eq]
  exact within_ite (fun _ => within_pure _) fun _ =>
    within_bind (ht _) fun _ _ => within_pure _

lemma within_totalInlineCompositesTargetsSize {count : ElementCount} {elem : StructSize}
    (hin : start + elem.total * count.get ≤ block.len.get)
    (ht : ∀ pos, Within sizeTerms (t (.inSegment a id block) pos m)) :
    Within sizeTerms
      (totalInlineCompositesTargetsSize t (.inSegment a id block) start count elem m) := by
  have hlt := block.len.get_lt
  have hstep : elem.total * count.get ≤ U29.maxValue := by
    show _ ≤ 2 ^ 29 - 1
    omega
  unfold totalInlineCompositesTargetsSize
  rw [stepByUnchecked, assert_of hstep, pure_bind_eq]
  refine within_fold (fun i hi b => ?_) 0
  have hnext : elem.total * i + elem.total ≤ elem.total * count.get :=
    Nat.mul_le_mul_left _ (List.mem_range.1 hi)
  have htotal := elem.total_eq
  exact within_bind (within_totalPtrsSize (by omega) ht) fun _ _ => within_pure _

/-- Measuring gets no deeper than the nesting limit, even when the pointers lead in circles. -/
lemma within_targetSize {depth : ℕ} (hdepth : m < depth) (hsegment : a id = some block) (pos : ℕ) :
    Within sizeTerms (targetSize depth (.inSegment a id block) pos m) := by
  induction depth generalizing m id block pos with
  | zero => exact absurd hdepth (Nat.not_lt_zero m)
  | succ depth ih =>
    refine within_bind (within_sizeTerms (within_tryReadTyped spends_none _ _)) ?_
    rintro ⟨reader, typed⟩ ⟨s, s', -, hread⟩
    obtain ⟨id', block', cost, hblock, rfl, hdenotes, -⟩ := (tryReadTyped_eq_ok hsegment).1 hread
    have hlimit : ∀ {α : Type} {f : ℕ → ReadM α}, (∀ m', m = m' + 1 → Within sizeTerms (f m')) →
        Within sizeTerms (okOr .nestingLimitExceeded (checkedSub m 1) >>= f) := by
      intro α f hf
      rcases m with _ | m
      · exact within_throw trivial
      · exact hf m rfl
    cases typed with
    | struct content =>
      have hinside := hdenotes.inside hblock
      refine hlimit fun m' hm => within_bind (within_totalPtrsSize hinside.2 fun pos => ?_)
        fun _ _ => within_pure _
      exact ih (by omega) hblock pos
    | list content =>
      obtain ⟨start, elemSize, count⟩ := content
      have hwords := @Shape.words_le_of_inside (.list elemSize count) start _ (hdenotes.inside hblock)
      cases elemSize with
      | pointer =>
        refine hlimit fun m' hm => within_bind (within_totalPtrsSize ?_ fun pos => ?_)
          fun _ _ => within_pure _
        · have hcount : (Shape.list .pointer count).words = (64 * count.get + 63) / 64 := rfl
          show start + count.get ≤ block'.len.get
          omega
        · exact ih (by omega) hblock pos
      | inlineComposite elem =>
        rw [Shape.words_structs] at hwords
        refine hlimit fun m' hm => within_bind
          (within_totalInlineCompositesTargetsSize hwords fun pos => ?_) fun _ _ => within_pure _
        exact ih (by omega) hblock pos
      | _ => exact within_pure _
    | capability => exact within_pure _

end Terms

/-! ## Asking the pointer, or what it is converted to -/

/-- The total size of the struct that the pointer is converted to. -/
def PtrReader.structSize (self : PtrReader) (depth : ℕ) : ReadM MessageSize := do
  let converted ← self.toStruct
  match converted with
  | some reader => reader.totalSize depth
  | none => pure 0

/-- The total size of the list that the pointer is converted to. -/
def PtrReader.listSize (self : PtrReader) (depth : ℕ) : ReadM MessageSize := do
  let converted ← self.toList none
  match converted with
  | some reader => reader.totalSize depth
  | none => pure 0

/-- Without a limiter, the one succeeds exactly when the other does, and with the same size. -/
def SizesAgree (x y : ReadM MessageSize) : Prop :=
  ∀ size s, x none = .ok size s ↔ y none = .ok size s

/-- The value can be read, and is nested as deep as the limit says. -/
def NestsExactly (a : ReadArena) (id : SegmentId) (pos nestingLimit : ℕ) : Prop :=
  ∃ m v, nestingLimit = m + 1 ∧ Reads a id pos v ∧ v.FitsNesting (m + 1) ∧ ¬ v.FitsNesting m

section Agree

open Prog

variable {a : ReadArena} {id : SegmentId} {segment : Segment} {pos n depth : ℕ} {size : MessageSize}
  {s : Limiter}

/-- The size of a pointer's target. -/
lemma PtrReader.targetSize_eq_ok (hsegment : a id = some segment)
    (hsome : segment.data pos ≠ Word.null) (hdepth : n ≤ depth) :
    (⟨pos, .inSegment a id segment, n⟩ : PtrReader).targetSize depth none = .ok size s ↔
      s = none ∧ ∃ m v, n = m + 1 ∧ Reads a id pos v ∧ v.FitsNesting m ∧ size = v.size := by
  have hnull : ¬ (⟨pos, .inSegment a id segment, n⟩ : PtrReader).isNull = true := fun h =>
    hsome (Word.isNull_iff.1 h)
  unfold PtrReader.targetSize
  rw [if_neg_apply hnull]
  rcases n with _ | m
  · refine iff_of_false (fun h => nomatch h) ?_
    rintro ⟨-, m, v, hm, -⟩
    exact absurd hm.symm (Nat.succ_ne_zero m)
  · refine (targetSize_sizes a hdepth id pos segment hsegment hsome size s).trans
      (and_congr_right fun _ => ⟨fun ⟨v, hv⟩ => ⟨m, v, rfl, hv⟩, ?_⟩)
    rintro ⟨m', v, hm, hv⟩
    obtain rfl := Nat.succ.inj hm
    exact ⟨v, hv⟩

/-- What is read from a pointer of a type has the type. -/
lemma PtrReader.typed_of_ptrType {self : PtrReader} {type : PtrType} {reader : ObjectReader}
    {typed : TypedContent} (htype : self.ptrType none = .ok type none)
    (hread : self.reader.tryReadTyped self.ptr none = .ok (reader, typed) none) :
    (type = .struct → ∃ content, typed = .struct content) ∧
      (type = .list → ∃ content, typed = .list content) := by
  obtain ⟨⟨reader', content⟩, limiter, hlocation, hkinds⟩ := bind_eq_ok.1 hread
  unfold PtrReader.ptrType at htype
  rcases ite_eq_ok.1 htype with ⟨-, hpure⟩ | ⟨-, hrest⟩
  · obtain ⟨rfl, -⟩ := pure_eq_ok.1 hpure
    exact ⟨nofun, nofun⟩
  · rw [bind_of_ok hlocation] at hrest
    dsimp only at hrest hkinds
    rcases hkind : content.ptr.kind with _ | _ | _ | _ <;> rw [hkind] at hkinds hrest
    · obtain ⟨⟨_, content'⟩, _, -, hpure⟩ := bind_eq_ok.1 hkinds
      cases hpure
      cases hrest
      exact ⟨fun _ => ⟨_, rfl⟩, nofun⟩
    · obtain ⟨⟨_, content'⟩, _, -, hpure⟩ := bind_eq_ok.1 hkinds
      cases hpure
      cases hrest
      exact ⟨nofun, fun _ => ⟨_, rfl⟩⟩
    · cases hkinds
    · rw [if_neg_apply (by decide), if_neg_apply (by decide)] at hrest
      rcases ite_eq_ok.1 hrest with ⟨-, hpure⟩ | ⟨-, hthrow⟩
      · obtain ⟨rfl, -⟩ := pure_eq_ok.1 hpure
        exact ⟨nofun, nofun⟩
      · exact (throw_eq_ok.1 hthrow).elim

/-- A struct reader measures as one does who comes from the pointer. -/
lemma StructReader.totalSize_eq {reader : ObjectReader} {content : StructContent} {m : ℕ} :
    (⟨content.ptr, content.ptrsStart, reader, m, content.size.data * 8, content.size.ptrs⟩ :
      StructReader).totalSize depth = totalStructSize (targetSize depth) reader content m := by
  have hdata : roundUpByteCount (content.size.data * 8) = content.size.data := by
    show (content.size.data * 8 + 7) / 8 = content.size.data
    omega
  unfold StructReader.totalSize totalStructSize
  dsimp only
  rw [hdata]
  rfl

/-- So does a list reader, whose nesting limit was taken down before. -/
lemma ListReader.totalSize_eq {reader : ObjectReader} {content : ListContent} {m : ℕ} :
    (⟨content.ptr, reader, content.elementCount, m, content.elementSize⟩ : ListReader).totalSize depth =
      totalListSize (targetSize depth) reader content (m + 1) := by
  obtain ⟨start, size, count⟩ := content
  cases size with
  | pointer => rfl
  | inlineComposite elem =>
    show (_ >>= fun total => pure (_ + total)) = (_ >>= fun total => pure (_ + _))
    refine congrArg (bind _) (funext fun total => congrArg pure (MessageSize.ext ?_ rfl))
    show (_ + 1 + total.words : UInt64) = _ + (total.words + 1)
    rw [UInt64.add_assoc, UInt64.add_comm 1]
  | _ => exact congrArg pure (add_zero _).symm

/-- A conversion, and the size of what the pointer is converted to. -/
lemma bind_convert {α : Type} {m : ℕ} {convert : ReadM (ObjectReader × α)} {typed : α → TypedContent}
    {total : ObjectReader × α → ReadM MessageSize} (hsegment : a id = some segment)
    (hsome : segment.data pos ≠ Word.null)
    (hconvert : ∀ reader content limiter, convert none = .ok (reader, content) limiter ↔
      (ObjectReader.inSegment a id segment).tryReadTyped pos none = .ok (reader, typed content) limiter)
    (hkind : ∀ reader found, (ObjectReader.inSegment a id segment).tryReadTyped pos none =
      .ok (reader, found) none → ∃ content, found = typed content)
    (htotal : ∀ content id' block cost, a id' = some block → Denotes a id pos id' (typed content) cost →
      (total (.inSegment a id' block, content) none = .ok size s ↔
        s = none ∧ ∃ v, Reads a id pos v ∧ v.FitsNesting m ∧ size = v.size)) :
    (convert >>= total) none = .ok size s ↔
      s = none ∧ ∃ v, Reads a id pos v ∧ v.FitsNesting m ∧ size = v.size := by
  have hfound : ∀ read limiter, (ObjectReader.inSegment a id segment).tryReadTyped pos none =
      .ok read limiter → ∃ content id' block cost,
        convert none = .ok (.inSegment a id' block, content) none ∧ a id' = some block ∧
        Denotes a id pos id' (typed content) cost := by
    rintro ⟨reader, found⟩ limiter hread
    obtain ⟨id', block, cost, hblock, rfl, hdenotes, hcharge⟩ := (tryReadTyped_eq_ok hsegment).1 hread
    obtain rfl := Option.some.inj ((Limiter.charge_none _).symm.trans hcharge)
    obtain ⟨content, rfl⟩ := hkind _ _ hread
    exact ⟨content, id', block, cost, (hconvert _ _ _).2 hread, hblock, hdenotes⟩
  constructor
  · intro h
    obtain ⟨⟨reader, content⟩, limiter, hrun, hrest⟩ := bind_eq_ok.1 h
    obtain ⟨content', id', block, cost, hrun', hblock, hdenotes⟩ := hfound _ _ ((hconvert _ _ _).1 hrun)
    cases hrun.symm.trans hrun'
    exact (htotal content id' block cost hblock hdenotes).1 hrest
  · rintro ⟨rfl, v, hv, hrest⟩
    obtain ⟨read, hread⟩ := hv.tryReadTyped hsegment hsome
    obtain ⟨content, id', block, cost, hrun, hblock, hdenotes⟩ := hfound _ _ hread
    exact (bind_of_ok hrun).trans ((htotal content id' block cost hblock hdenotes).2
      ⟨rfl, v, hv, hrest⟩)

/-- The size of the struct that the pointer is converted to. -/
lemma PtrReader.structSize_eq_ok (hsegment : a id = some segment)
    (hsome : segment.data pos ≠ Word.null) (hdepth : n ≤ depth)
    (htype : (⟨pos, .inSegment a id segment, n⟩ : PtrReader).ptrType none = .ok .struct none) :
    (⟨pos, .inSegment a id segment, n⟩ : PtrReader).structSize depth none = .ok size s ↔
      s = none ∧ ∃ m v, n = m + 1 ∧ Reads a id pos v ∧ v.FitsNesting (m + 1) ∧ size = v.size := by
  have hnull : ¬ (⟨pos, .inSegment a id segment, n⟩ : PtrReader).isNull = true := fun h =>
    hsome (Word.isNull_iff.1 h)
  unfold PtrReader.structSize PtrReader.toStruct
  rw [if_neg hnull]
  rcases n with _ | m
  · refine iff_of_false (fun h => nomatch h) ?_
    rintro ⟨-, m, v, hm, -⟩
    exact absurd hm.symm (Nat.succ_ne_zero m)
  · show (((ObjectReader.inSegment a id segment).tryReadStruct pos >>= fun read => pure (some _)) >>= _)
      none = _ ↔ _
    rw [bind_assoc_eq]
    refine (bind_convert hsegment hsome (fun _ _ _ => tryReadStruct_eq_ok) (fun reader found hread =>
      (PtrReader.typed_of_ptrType htype hread).1 rfl) ?_).trans (and_congr_right fun _ =>
        ⟨fun ⟨v, hv⟩ => ⟨m, v, rfl, hv⟩, ?_⟩)
    · intro content id' block cost hblock hdenotes
      have hsize := @totalStructSize_eq_ok (Ptr.targetSize depth) a id block m pos content.ptr size s id'
        segment cost content.size hsegment hsome hdenotes hblock fun k => targetSize_sizes a hdepth id' k
      show StructReader.totalSize ⟨_, _, _, _, _, _⟩ depth none = _ ↔ _
      rw [← StructReader.totalSize_eq] at hsize
      exact hsize
    · rintro ⟨m', v, hm, hv⟩
      obtain rfl := Nat.succ.inj hm
      exact ⟨v, hv⟩

/-- The size of the list that the pointer is converted to. -/
lemma PtrReader.listSize_eq_ok (hsegment : a id = some segment)
    (hsome : segment.data pos ≠ Word.null) (hdepth : n ≤ depth)
    (htype : (⟨pos, .inSegment a id segment, n⟩ : PtrReader).ptrType none = .ok .list none) :
    (⟨pos, .inSegment a id segment, n⟩ : PtrReader).listSize depth none = .ok size s ↔
      s = none ∧ ∃ m v, n = m + 1 ∧ Reads a id pos v ∧ v.FitsNesting (m + 1) ∧ size = v.size := by
  have hnull : ¬ (⟨pos, .inSegment a id segment, n⟩ : PtrReader).isNull = true := fun h =>
    hsome (Word.isNull_iff.1 h)
  unfold PtrReader.listSize PtrReader.toList
  rw [if_neg hnull]
  rcases n with _ | m
  · refine iff_of_false (fun h => nomatch h) ?_
    rintro ⟨-, m, v, hm, -⟩
    exact absurd hm.symm (Nat.succ_ne_zero m)
  · show (((ObjectReader.inSegment a id segment).tryReadList pos none >>= fun read => pure (some _)) >>=
      _) none = _ ↔ _
    rw [bind_assoc_eq]
    refine (bind_convert hsegment hsome (fun _ _ _ => tryReadList_eq_ok) (fun reader found hread =>
      (PtrReader.typed_of_ptrType htype hread).2 rfl) ?_).trans (and_congr_right fun _ =>
        ⟨fun ⟨v, hv⟩ => ⟨m, v, rfl, hv⟩, ?_⟩)
    · intro content id' block cost hblock hdenotes
      have hsize := @totalListSize_eq_ok (Ptr.targetSize depth) a id block pos content.ptr size s id'
        segment cost content.elementSize content.elementCount (m + 1) hsegment hsome hdenotes hblock
        fun m' hm k => targetSize_sizes a (by omega) id' k
      show ListReader.totalSize ⟨_, _, _, _, _⟩ depth none = _ ↔ _
      rw [← ListReader.totalSize_eq] at hsize
      exact hsize
    · rintro ⟨m', v, hm, hv⟩
      obtain rfl := Nat.succ.inj hm
      exact ⟨v, hv⟩

/-- The sizes agree unless the nesting is used up. -/
lemma sizesAgree_iff {x y : ReadM MessageSize}
    (hx : ∀ size s, x none = .ok size s ↔
      s = none ∧ ∃ m v, n = m + 1 ∧ Reads a id pos v ∧ v.FitsNesting m ∧ size = v.size)
    (hy : ∀ size s, y none = .ok size s ↔
      s = none ∧ ∃ m v, n = m + 1 ∧ Reads a id pos v ∧ v.FitsNesting (m + 1) ∧ size = v.size) :
    SizesAgree x y ↔ ¬ NestsExactly a id pos n := by
  constructor
  · rintro hagree ⟨m, v, rfl, hv, hfits, hnot⟩
    have hsize := (hagree v.size none).2 ((hy _ _).2 ⟨rfl, m, v, rfl, hv, hfits, rfl⟩)
    obtain ⟨-, m', w, hm, hw, hfits', -⟩ := (hx _ _).1 hsize
    obtain rfl := Nat.succ.inj hm
    exact hnot (hv.unique hw ▸ hfits')
  · intro hnot size s
    rw [hx, hy]
    refine and_congr_right fun _ => ⟨?_, ?_⟩
    · rintro ⟨m, v, hm, hv, hfits, hsize⟩
      exact ⟨m, v, hm, hv, hfits.mono (Nat.le_succ m), hsize⟩
    · rintro ⟨m, v, hm, hv, hfits, hsize⟩
      refine ⟨m, v, hm, hv, ?_, hsize⟩
      by_contra hdeep
      exact hnot ⟨m, v, hm, hv, hfits, hdeep⟩

/-- **The size of a target agrees with following the pointer** to the struct or the list, unless
it is nested exactly as deep as the limit says.  Measuring comes to an end, and gets no deeper than
the limit. -/
theorem target_size_agrees_iff (hsegment : a id = some segment) (hsome : segment.data pos ≠ Word.null)
    (n : ℕ) (hdepth : n ≤ depth) :
    ((⟨pos, .inSegment a id segment, n⟩ : PtrReader).ptrType none = .ok .struct none →
      (SizesAgree ((⟨pos, .inSegment a id segment, n⟩ : PtrReader).targetSize depth)
        ((⟨pos, .inSegment a id segment, n⟩ : PtrReader).structSize depth) ↔
        ¬ NestsExactly a id pos n)) ∧
    ((⟨pos, .inSegment a id segment, n⟩ : PtrReader).ptrType none = .ok .list none →
      (SizesAgree ((⟨pos, .inSegment a id segment, n⟩ : PtrReader).targetSize depth)
        ((⟨pos, .inSegment a id segment, n⟩ : PtrReader).listSize depth) ↔
        ¬ NestsExactly a id pos n)) ∧
    ∀ r, (⟨pos, .inSegment a id segment, n⟩ : PtrReader).targetSize depth none ≠ .halt r := by
  refine ⟨fun htype => ?_, fun htype => ?_, fun r hhalt => ?_⟩
  · exact sizesAgree_iff (fun _ _ => PtrReader.targetSize_eq_ok hsegment hsome hdepth)
      fun _ _ => PtrReader.structSize_eq_ok hsegment hsome hdepth htype
  · exact sizesAgree_iff (fun _ _ => PtrReader.targetSize_eq_ok hsegment hsome hdepth)
      fun _ _ => PtrReader.listSize_eq_ok hsegment hsome hdepth htype
  · refine Within.halt (t := sizeTerms) ?_ rfl hhalt
    refine within_ite (fun _ => within_pure _) fun _ => ?_
    rcases n with _ | m
    · exact within_throw trivial
    · exact within_targetSize hdepth hsegment pos

/-- A segment with a pointer to a struct of two words, behind it. -/
def twoWordsSegment : Segment :=
  ⟨fun k => if k = 0 then StructPtr.new I30.zero twoWords else Word.null, ⟨3, U29.three_lt⟩⟩

/-- The message of that segment. -/
def twoWordsMessage : ReadArena := fun id => if id = 0 then some twoWordsSegment else none

/-- A nesting limit of two is more than enough for it. -/
theorem target_size_agrees_twoWords :
    SizesAgree ((⟨0, .inSegment twoWordsMessage 0 twoWordsSegment, 2⟩ : PtrReader).targetSize 2)
      ((⟨0, .inSegment twoWordsMessage 0 twoWordsSegment, 2⟩ : PtrReader).structSize 2) := by
  have hsome : twoWordsSegment.data 0 ≠ Word.null := by decide
  have hread : (ObjectReader.inSegment twoWordsMessage 0 twoWordsSegment).tryReadTyped 0 none =
      .ok (.inSegment twoWordsMessage 0 twoWordsSegment, .struct ⟨1, twoWords⟩) none := rfl
  obtain ⟨id', block, cost, hblock, -, hdenotes, -⟩ :=
    (@tryReadTyped_eq_ok twoWordsMessage 0 twoWordsSegment rfl _ _ _ _ _).1 hread
  refine ((@target_size_agrees_iff twoWordsMessage 0 twoWordsSegment 0 2 rfl hsome 2 (Nat.le_refl 2)).1
    rfl).2 ?_
  rintro ⟨m, v, hm, hv, -, hnot⟩
  obtain rfl := Nat.succ.inj hm
  obtain ⟨f, -, heq⟩ := (@reads_object_iff twoWordsMessage 0 block 0 1 id' (.struct twoWords) cost
    twoWordsSegment (fun w => w = v) rfl hsome hdenotes hblock).1 ⟨v, hv, rfl⟩
  refine hnot (heq ▸ fun _ => ⟨0, rfl, fun k => ?_⟩)
  have hlt : k.1 < 2 := k.2.1
  have hle : 2 ≤ k.1 := of_decide_eq_true k.2.2
  omega

/-- With a limit of one, the struct can be converted and measured, and the pointer cannot. -/
theorem not_target_size_agrees :
    twoWordsMessage 0 = some twoWordsSegment ∧ twoWordsSegment.data 0 ≠ Word.null ∧
      (⟨0, .inSegment twoWordsMessage 0 twoWordsSegment, 1⟩ : PtrReader).ptrType none = .ok .struct none ∧
      (⟨0, .inSegment twoWordsMessage 0 twoWordsSegment, 1⟩ : PtrReader).targetSize 1 none =
        .error .nestingLimitExceeded none ∧
      (⟨0, .inSegment twoWordsMessage 0 twoWordsSegment, 1⟩ : PtrReader).structSize 1 none =
        .ok ⟨2, 0⟩ none :=
  ⟨rfl, by decide, rfl, rfl, rfl⟩

end Agree

end Recapn.Ptr

/-
# What can be read

Readers come from messages, where they check the bounds of a segment, and from memory that is
vouched for, where they check nothing.  What they read can be counted and copied in the same way: a
copy in a buffer succeeds just when the buffer has room for it.
-/
import Recapn.Ptr.Scratch
import Recapn.Ptr.UncheckedCopy

namespace Recapn.Ptr

open Recapn.Lib

/-! ## Total sizes with a limit -/

section TotalSize

open Prog

variable {α β : Type}

lemma onlyRefuses_halt (h : Halt) : OnlyRefuses (Prog.halt h : ReadM α) := fun _ _ h => nomatch h

lemma onlyRefuses_fold {f : β → α → ReadM β} (hf : ∀ b a, OnlyRefuses (f b a)) (b : β) (l : List α) :
    OnlyRefuses (Prog.fold f b l) := by
  induction l generalizing b with
  | nil => exact onlyRefuses_pure b
  | cons a l ih => exact onlyRefuses_bind (hf b a) fun b' => ih b'

variable {t : TargetSize} (ht : ∀ reader pos m, OnlyRefuses (t reader pos m))

include ht

lemma onlyRefuses_totalPtrsSize (reader : ObjectReader) (start len m : ℕ) :
    OnlyRefuses (totalPtrsSize t reader start len m) := by
  refine onlyRefuses_fold (fun total k => ?_) _ _
  refine onlyRefuses_bind ?_ fun words => ?_
  · exact onlyRefuses_bind (onlyRefuses_ite (onlyRefuses_pure _) (onlyRefuses_halt _)) fun _ =>
      onlyRefuses_pure _
  · exact onlyRefuses_ite (onlyRefuses_pure _) (onlyRefuses_bind (ht _ _ _) fun _ => onlyRefuses_pure _)

lemma onlyRefuses_totalInlineCompositesTargetsSize (reader : ObjectReader) (start : ℕ) (count : ElementCount)
    (size : StructSize) (m : ℕ) :
    OnlyRefuses (totalInlineCompositesTargetsSize t reader start count size m) := by
  refine onlyRefuses_bind (onlyRefuses_ite (onlyRefuses_pure _) (onlyRefuses_halt _)) fun _ => ?_
  refine onlyRefuses_fold (fun total k => ?_) _ _
  exact onlyRefuses_bind (onlyRefuses_totalPtrsSize ht _ _ _ _) fun _ => onlyRefuses_pure _

lemma onlyRefuses_totalListSize (reader : ObjectReader) (content : ListContent) (m : ℕ) :
    OnlyRefuses (totalListSize t reader content m) := by
  obtain ⟨start, size, count⟩ := content
  cases size with
  | inlineComposite size =>
    refine onlyRefuses_bind (onlyRefuses_okOr _ _) fun _ => ?_
    refine onlyRefuses_bind (onlyRefuses_totalInlineCompositesTargetsSize ht _ _ _ _ _) fun _ => ?_
    exact onlyRefuses_bind (onlyRefuses_pure _) fun _ => onlyRefuses_pure _
  | pointer =>
    refine onlyRefuses_bind (onlyRefuses_okOr _ _) fun _ => ?_
    exact onlyRefuses_bind (onlyRefuses_totalPtrsSize ht _ _ _ _) fun _ => onlyRefuses_pure _
  | _ => exact onlyRefuses_bind (onlyRefuses_pure _) fun _ => onlyRefuses_pure _

omit ht in
lemma onlyRefuses_targetSize (depth : ℕ) (reader : ObjectReader) (pos m : ℕ) :
    OnlyRefuses (targetSize depth reader pos m) := by
  induction depth generalizing reader pos m with
  | zero => exact onlyRefuses_halt _
  | succ depth ih =>
    refine onlyRefuses_bind (onlyRefuses_tryReadTyped reader pos) fun found => ?_
    obtain ⟨reader', typed⟩ := found
    cases typed with
    | struct content =>
      refine onlyRefuses_bind (onlyRefuses_okOr _ _) fun _ => ?_
      exact onlyRefuses_bind (onlyRefuses_totalPtrsSize ih _ _ _ _) fun _ => onlyRefuses_pure _
    | list content => exact onlyRefuses_totalListSize ih _ _ _
    | capability index => exact onlyRefuses_pure _

omit ht in
lemma onlyRefuses_totalSize (value : StructReader) (depth : ℕ) : OnlyRefuses (value.totalSize depth) :=
  onlyRefuses_bind (onlyRefuses_totalPtrsSize (onlyRefuses_targetSize depth) _ _ _ _) fun _ => onlyRefuses_pure _

end TotalSize

/-- The size is counted, unless a read limit is exceeded. -/
def Counts (x : ReadM MessageSize) (words : ℕ) : Prop :=
  ∀ limiter, (∃ l, x limiter = .ok (.ofNat words 0) l ∧ (limiter = none → l = none)) ∨
    limiter ≠ none ∧ ∃ l, x limiter = .error .readLimitExceeded l

lemma counts_of_none {x : ReadM MessageSize} {words : ℕ} (honly : OnlyRefuses x)
    (hrun : x none = .ok (.ofNat words 0) none) : Counts x words := by
  intro limiter
  rcases limiter with _ | limit
  · exact Or.inl ⟨none, hrun, fun _ => rfl⟩
  · obtain ⟨l, hok⟩ | hrefused := (honly _ _ hrun).2 (some limit)
    · exact Or.inl ⟨l, hok, nofun⟩
    · exact Or.inr ⟨nofun, hrefused⟩

/-- The buffer can be filled with the value, with enough depth. -/
def Fills (set : ℕ → PtrBuilder → CopyM Error Unit) (v : Value) : Prop :=
  ∀ len, ∀ᶠ depth in Filter.atTop, ∀ limiter, FillsScratch len v limiter (setScratch len (set depth) limiter)

/-! ## Structs -/

/-- The struct is one of a message, with these values below its pointers, which fit the nesting limit
and have no capabilities. -/
structure StructReader.Readable (value : StructReader) (a : ReadArena) (id : SegmentId) (block : Segment)
    (vs : ℕ → Value) : Prop extends value.Carries a id block vs where
  nesting : ∀ k < value.ptrsLen, (vs k).FitsNesting value.nestingLimit

/-- The struct is one of memory that is vouched for. -/
structure StructReader.ReadableUnchecked (value : StructReader) (block : Segment) (vs : ℕ → Value) : Prop where
  reader : value.reader = ⟨.unchecked block.data⟩
  data : value.dataStart + (value.dataLen + 7) / 8 ≤ block.len.get
  ptrs : value.ptrsStart + value.ptrsLen ≤ block.len.get
  dataLen_le : value.dataLen ≤ 8 * (2 ^ 16 - 1)
  ptrsLen_lt : value.ptrsLen < 2 ^ 16
  reads : ∀ k < value.ptrsLen, ReadsUnchecked block.data 0 block.len.get (value.ptrsStart + k) (vs k)
  caps : ∀ k < value.ptrsLen, (vs k).caps = 0
  nesting : ∀ k < value.ptrsLen, (vs k).FitsNesting value.nestingLimit

/-- The struct can be read, and has no capabilities. -/
def StructReader.IsReadable (value : StructReader) (block : Segment) (vs : ℕ → Value) : Prop :=
  (∃ a id, value.Readable a id block vs) ∨ value.ReadableUnchecked block vs

section Structs

variable {a : ReadArena} {id : SegmentId} {block : Segment} {value : StructReader} {vs : ℕ → Value}
  {size : CopySize StructSize} {dstSize : StructSize} {depth : ℕ}

lemma StructReader.IsReadable.dataLen_le (h : value.IsReadable block vs) : value.dataLen ≤ 8 * (2 ^ 16 - 1) := by
  obtain ⟨a, id, h⟩ | h := h
  · exact h.dataLen_le
  · exact h.dataLen_le

lemma StructReader.IsReadable.size_data (h : value.IsReadable block vs) :
    value.size.data = (value.dataLen + 7) / 8 := by
  have hle := h.dataLen_le
  show (value.dataLen + 7) / 8 % 2 ^ 16 = _
  exact Nat.mod_eq_of_lt (by omega)

lemma StructReader.IsReadable.size_ptrs (h : value.IsReadable block vs) : value.size.ptrs = value.ptrsLen := by
  obtain ⟨a, id, h⟩ | h := h
  · exact Nat.mod_eq_of_lt h.ptrsLen_lt
  · exact Nat.mod_eq_of_lt h.ptrsLen_lt

/-- The struct as one of a message. -/
def StructReader.checked (value : StructReader) (block : Segment) : StructReader :=
  value.through (.inSegment (flatArena block.data block.len) 0 block)

namespace StructReader.ReadableUnchecked

variable (h : value.ReadableUnchecked block vs)

include h

lemma eq_through : value = value.through ⟨.unchecked block.data⟩ := by
  rw [through, ← h.reader]

lemma readable : (value.checked block).Readable (flatArena block.data block.len) 0 block vs where
  inside := ⟨rfl, rfl, h.data, h.ptrs⟩
  dataLen_le := h.dataLen_le
  ptrsLen_lt := h.ptrsLen_lt
  reads k hk := (h.reads k hk).reads (by
    have hptrs := h.ptrs
    have hk' : k < value.ptrsLen := hk
    omega)
  caps := h.caps
  nesting := h.nesting

lemma totalSize_checked : value.totalSize depth = (value.checked block).totalSize depth := by
  have hx := over_unchecked block.data block.len.get
  have hy := over_inSegment (flatArena block.data block.len) 0 block
  have hptrs := h.ptrs
  conv_lhs => rw [h.eq_through]
  rw [StructReader.totalSize, StructReader.totalSize]
  dsimp only [through, checked]
  rw [totalPtrsSize_over hx hy h.ptrs fun k hk hsome => ?_]
  exact targetSize_over hx hy (h.reads k hk) hsome (by omega) depth _

lemma trySetStruct_checked {ε : Type} {machine : CopyMachine ε} {clearCap : List ℕ → ℕ → Except Error Unit}
    (hcanonical : size.isCanonical = false) (target : PtrBuilder) :
    target.trySetStruct clearCap machine depth depth value size =
      target.trySetStruct clearCap machine depth depth (value.checked block) size := by
  have hx := over_unchecked block.data block.len.get
  have hy := over_inSegment (flatArena block.data block.len) 0 block
  have hptrs := h.ptrs
  conv_lhs => rw [h.eq_through]
  exact trySetStruct_over hx hy hcanonical h.data h.ptrs fun k hk hsome =>
    sameCopy_copyPtr hx hy rfl (h.reads k hk) hsome (h.caps k hk) (by omega) block.len.get_lt depth

end StructReader.ReadableUnchecked

lemma StructReader.Readable.counts (h : value.Readable a id block vs) (hdepth : value.nestingLimit < depth) :
    Counts (value.totalSize depth) (value.value block vs).words := by
  have hsize := StructReader.IsReadable.size_data (Or.inl ⟨a, id, h⟩)
  have hsize' := StructReader.IsReadable.size_ptrs (Or.inl ⟨a, id, h⟩)
  have hptrs : totalPtrsSize (targetSize depth) value.reader value.ptrsStart value.ptrsLen value.nestingLimit
      none = .ok (∑ k ∈ Finset.range value.ptrsLen, (vs k).size) none := by
    rw [h.inside.reader]
    exact (totalPtrsSize_eq_ok h.inside.segment h.inside.ptrs fun k _ => targetSize_sizes a hdepth id _).2
      ⟨rfl, vs, fun k hk => ⟨h.reads k hk, h.nesting k hk⟩, rfl⟩
  have hcaps : ∑ k ∈ Finset.range value.ptrsLen, (vs k).caps = 0 :=
    Finset.sum_eq_zero fun k hk => h.caps k (Finset.mem_range.1 hk)
  refine counts_of_none (onlyRefuses_totalSize value depth) ?_
  rw [StructReader.totalSize, Prog.bind_of_ok hptrs, StructReader.value,
    StructReader.words_valueAs (Nat.le_of_eq hsize'.symm), StructSize.total, hsize, hsize']
  show Outcome.ok (MessageSize.ofNat ((value.dataLen + 7) / 8 + value.ptrsLen) 0 +
    ∑ k ∈ Finset.range value.ptrsLen, MessageSize.ofNat (vs k).words (vs k).caps) none = _
  rw [MessageSize.sum_ofNat, hcaps, ← MessageSize.ofNat_add]

/-- **The total size of a struct** is that of its words and of what is below its pointers. -/
theorem StructReader.IsReadable.counts (h : value.IsReadable block vs) (hdepth : value.nestingLimit < depth) :
    Counts (value.totalSize depth) (value.value block vs).words := by
  obtain ⟨a, id, h⟩ | h := h
  · exact h.counts hdepth
  · rw [h.totalSize_checked]
    exact h.readable.counts hdepth

/-- **A buffer can be filled with the struct.** -/
theorem StructReader.IsReadable.fills (h : value.IsReadable block vs) (hcanonical : size.isCanonical = false)
    (hsize : (size.builderSize value : CopyM Error StructSize) = pure dstSize) (hle : value.ptrsLen ≤ dstSize.ptrs) :
    Fills (fun depth root => root.trySetStruct clearNoCap (emptyTable returnErrors) depth depth value size)
      (value.valueAs block vs dstSize) := by
  intro len
  obtain ⟨a, id, h⟩ | h := h
  · refine (@trySetStruct_flat _ (emptyTable returnErrors) clearNoCap len.get a id block value vs size dstSize
      strict_returnErrors h.toCarries hcanonical hsize hle).mono fun depth hflat limiter => ?_
    exact fillsScratch_of_copiesFlat (hflat PtrBuilder.root ⟨limiter, Arena.scratch len, [], []⟩
      (Arena.blank_scratch len) (Arena.lone_scratch len))
  · have hsize' : (size.builderSize (value.checked block) : CopyM Error StructSize) = pure dstSize := by
      cases size with
      | canonical => cases hcanonical
      | _ => exact hsize
    refine (@trySetStruct_flat _ (emptyTable returnErrors) clearNoCap len.get (flatArena block.data block.len) 0
      block (value.checked block) vs size dstSize strict_returnErrors h.readable.toCarries hcanonical hsize'
      hle).mono fun depth hflat limiter => ?_
    refine fillsScratch_of_copiesFlat ?_
    dsimp only
    rw [h.trySetStruct_checked hcanonical]
    exact hflat PtrBuilder.root ⟨limiter, Arena.scratch len, [], []⟩ (Arena.blank_scratch len)
      (Arena.lone_scratch len)

end Structs

/-! ## Lists -/

/-- The list is one below a pointer of memory that is vouched for. -/
structure ListReader.FromUnchecked (value : ListReader) (block : Segment) (src : ℕ) (v : Value) : Prop where
  reader : value.reader = ⟨.unchecked block.data⟩
  inside : src < block.len.get
  pointed : (Shape.list value.elementSize value.elementCount).PointedAt block.data src value.ptr
  some : block.data src ≠ Word.null
  reads : ReadsUnchecked block.data 0 block.len.get src v
  caps : v.caps = 0

/-- The list can be read, is this value, and has no capabilities. -/
def ListReader.IsReadable (value : ListReader) (v : Value) : Prop :=
  v.FitsNesting (value.nestingLimit + 1) ∧
    ((∃ a id src id' block, value.ReadFrom a id src v id' block) ∨ ∃ block src, value.FromUnchecked block src v)

section Lists

variable {a : ReadArena} {id id' : SegmentId} {src : ℕ} {block : Segment} {value : ListReader} {v : Value}
  {depth : ℕ}

/-- The list as one of a message. -/
def ListReader.checked (value : ListReader) (block : Segment) : ListReader :=
  value.through (.inSegment (flatArena block.data block.len) 0 block)

namespace ListReader.FromUnchecked

variable (h : value.FromUnchecked block src v)

include h

lemma eq_through : value = value.through ⟨.unchecked block.data⟩ := by
  rw [through, ← h.reader]

/-- What the list is. -/
lemma object : ∃ (data : (Shape.list value.elementSize value.elementCount).Data → Word)
    (ptrs : (Shape.list value.elementSize value.elementCount).Slot → Value), v = .object _ data ptrs ∧
      (Shape.list value.elementSize value.elementCount).Within block.data 0 block.len.get src value.ptr ∧
      ∀ k, ReadsUnchecked block.data 0 block.len.get (value.ptr + k.1) (ptrs k) := by
  cases h.reads with
  | null hnull => exact absurd hnull h.some
  | object _ hpointed hwithin _ hptrs =>
    obtain ⟨rfl, rfl⟩ := hpointed.unique h.pointed
    exact ⟨_, _, rfl, hwithin, hptrs⟩

lemma readFrom : (value.checked block).ReadFrom (flatArena block.data block.len) 0 src v 0 block where
  reader := rfl
  block := rfl
  denotes := by
    obtain ⟨_, _, -, hwithin, -⟩ := h.object
    exact h.pointed.denotes hwithin h.inside
  reads := h.reads.reads h.inside
  caps := h.caps

lemma totalSize_checked : value.totalSize depth = (value.checked block).totalSize depth := by
  have hx := over_unchecked block.data block.len.get
  have hy := over_inSegment (flatArena block.data block.len) 0 block
  obtain ⟨data, ptrs, -, hwithin, hptrs⟩ := h.object
  have hend := hwithin.end_le h.inside
  conv_lhs => rw [h.eq_through]
  obtain ⟨start, reader, count, m, size⟩ := value
  show ListReader.totalSize ⟨_, _, _, _, _⟩ depth = ListReader.totalSize ⟨_, _, _, _, _⟩ depth
  rw [@ListReader.totalSize_eq depth _ ⟨start, size, count⟩ m, @ListReader.totalSize_eq depth _ ⟨start, size, count⟩ m]
  refine totalListSize_over hx hy hend fun m' k hk hptr hsome => ?_
  exact targetSize_over hx hy (hptrs ⟨k, hk, hptr⟩) hsome (show start + k < block.len.get by dsimp only at hend; omega) depth m'

lemma trySetList_checked {ε : Type} {machine : CopyMachine ε} {clearCap : List ℕ → ℕ → Except Error Unit}
    (target : PtrBuilder) : target.trySetList clearCap machine depth depth value .fromValue =
      target.trySetList clearCap machine depth depth (value.checked block) .fromValue := by
  have hx := over_unchecked block.data block.len.get
  have hy := over_inSegment (flatArena block.data block.len) 0 block
  have hlt := block.len.get_lt
  obtain ⟨data, ptrs, rfl, hwithin, hptrs⟩ := h.object
  have hend := hwithin.end_le h.inside
  conv_lhs => rw [h.eq_through]
  exact trySetList_over hx hy (by omega) hend fun k hk hptr hsome =>
    sameCopy_copyPtr hx hy rfl (hptrs ⟨k, hk, hptr⟩) hsome (Value.caps_ptrs h.caps ⟨k, hk, hptr⟩)
      (show value.ptr + k < block.len.get by omega) hlt depth

end ListReader.FromUnchecked

lemma onlyRefuses_listTotalSize (value : ListReader) (depth : ℕ) : OnlyRefuses (value.totalSize depth) := by
  obtain ⟨start, reader, count, m, size⟩ := value
  rw [@ListReader.totalSize_eq depth reader ⟨start, size, count⟩ m]
  exact onlyRefuses_totalListSize (onlyRefuses_targetSize depth) _ _ _

lemma ListReader.ReadFrom.counts (h : value.ReadFrom a id src v id' block)
    (hnesting : v.FitsNesting (value.nestingLimit + 1)) (hdepth : value.nestingLimit < depth) :
    Counts (value.totalSize depth) v.words := by
  obtain ⟨segment, hsegment, hsome⟩ := h.some
  obtain ⟨cost, hdenotes⟩ := h.denotes
  have hreads := h.reads
  have hcaps := h.caps
  refine counts_of_none (onlyRefuses_listTotalSize value depth) ?_
  obtain ⟨start, reader, count, m, size⟩ := value
  obtain rfl : reader = .inSegment a id' block := h.reader
  rw [@ListReader.totalSize_eq depth _ ⟨start, size, count⟩ m]
  refine (totalListSize_eq_ok hsegment hsome hdenotes h.block fun m' hm k => ?_).2
    ⟨rfl, v, hreads, hnesting, by rw [Value.size, hcaps]⟩
  obtain rfl := Nat.succ.inj hm
  exact targetSize_sizes a hdepth id' k

/-- **The total size of a list.** -/
theorem ListReader.IsReadable.counts (h : value.IsReadable v) (hdepth : value.nestingLimit < depth) :
    Counts (value.totalSize depth) v.words := by
  obtain ⟨hnesting, ⟨a, id, src, id', block, h⟩ | ⟨block, src, h⟩⟩ := h
  · exact h.counts hnesting hdepth
  · rw [h.totalSize_checked]
    exact h.readFrom.counts hnesting hdepth

/-- **A buffer can be filled with the list.** -/
theorem ListReader.IsReadable.fills (h : value.IsReadable v) :
    Fills (fun depth root => root.trySetList clearNoCap (emptyTable returnErrors) depth depth value .fromValue)
      v := by
  intro len
  obtain ⟨-, ⟨a, id, src, id', block, h⟩ | ⟨block, src, h⟩⟩ := h
  · refine (@trySetList_flat _ (emptyTable returnErrors) clearNoCap len.get a id id' src block value v
      strict_returnErrors h).mono fun depth hflat limiter => ?_
    exact fillsScratch_of_copiesFlat (hflat PtrBuilder.root ⟨limiter, Arena.scratch len, [], []⟩
      (Arena.blank_scratch len) (Arena.lone_scratch len))
  · refine (@trySetList_flat _ (emptyTable returnErrors) clearNoCap len.get (flatArena block.data block.len) 0 0
      src block (value.checked block) v strict_returnErrors h.readFrom).mono fun depth hflat limiter => ?_
    refine fillsScratch_of_copiesFlat ?_
    dsimp only
    rw [h.trySetList_checked]
    exact hflat PtrBuilder.root ⟨limiter, Arena.scratch len, [], []⟩ (Arena.blank_scratch len)
      (Arena.lone_scratch len)

end Lists

/-! ## Pointers -/

/-- Nothing that is read without checks is a capability. -/
lemma ReadsUnchecked.caps_eq_zero {memory : ℕ → Word} {lo hi pos : ℕ} {v : Value}
    (h : ReadsUnchecked memory lo hi pos v) : v.caps = 0 := by
  induction h with
  | null => rfl
  | @object _ _ shape data ptrs _ _ _ _ _ ih =>
    rw [Value.caps_object]
    refine Finset.sum_eq_zero fun k hk => ?_
    dsimp only
    split
    · next hptr =>
      have hslot := @Value.ptr_slot shape data ptrs ⟨k, Finset.mem_range.1 hk, hptr⟩
      dsimp only at hslot
      rw [hslot]
      exact ih _
    · rfl

/-- The pointer is one of memory that is vouched for, and reads as the value. -/
structure PtrReader.ReadsUnchecked (p : PtrReader) (block : Segment) (v : Value) : Prop where
  reader : p.reader = ⟨.unchecked block.data⟩
  inside : p.ptr < block.len.get
  reads : Ptr.ReadsUnchecked block.data 0 block.len.get p.ptr v
  limit_pos : 0 < p.nestingLimit
  nesting : v.FitsNesting p.nestingLimit

namespace PtrReader.ReadsUnchecked

variable {p : PtrReader} {block : Segment} {v : Value} {size : StructSize} {count : ElementCount}
  {elementSize : ElementSize} (h : p.ReadsUnchecked block v)

include h

lemma isNull_iff : p.isNull = true ↔ v = .null := by
  have hreads := h.reads
  have hword : p.wirePtr = block.data p.ptr := by
    rw [PtrReader.wirePtr, h.reader]
    rfl
  rw [PtrReader.isNull, hword, Word.isNull_iff]
  cases hreads with
  | null hnull => exact ⟨fun _ => rfl, fun _ => hnull⟩
  | object hsome => exact ⟨fun hnull => absurd hnull hsome, by rintro ⟨⟩⟩

/-- The list that the pointer leads to. -/
lemma toList (hshape : v.shape = some (.list elementSize count)) :
    ∃ list, p.toList none none = .ok (some list) none ∧ list.IsReadable v ∧ list.elementSize = elementSize ∧
      list.elementCount = count := by
  have hnull : p.isNull = false := by
    rw [Bool.eq_false_iff, ne_eq, h.isNull_iff]
    rintro rfl
    cases hshape
  obtain ⟨m, hm⟩ := Nat.exists_eq_add_of_le' h.limit_pos
  have hreads := h.reads
  have hnesting := h.nesting
  have hcaps := h.reads.caps_eq_zero
  cases h.reads with
  | null => cases hshape
  | @object _ start _ _ _ hsome hpointed hwithin hword hslots =>
    cases hshape
    refine ⟨⟨start, ⟨.unchecked block.data⟩, count, m, elementSize⟩, ?_, ?_, rfl, rfl⟩
    · rw [PtrReader.toList, hnull, if_neg Bool.false_ne_true, hm, h.reader]
      show (Prog.okOr Error.nestingLimitExceeded (some m) >>= _) none = _
      rw [Prog.okOr_some, Prog.pure_bind_eq, Prog.bind_of_ok hpointed.tryReadList]
      rfl
    · rw [hm] at hnesting
      exact ⟨hnesting, Or.inr ⟨block, p.ptr, rfl, h.inside, hpointed, hsome, hreads, hcaps⟩⟩

/-- The struct that the pointer leads to. -/
lemma toStruct (hshape : v.shape = some (.struct size)) (hsome : v ≠ .null) :
    ∃ r vs, p.toStruct none = .ok (some r) none ∧ r.IsReadable block vs ∧ r.value block vs = v ∧ r.size = size := by
  have hnull : p.isNull = false := by
    rw [Bool.eq_false_iff, ne_eq, h.isNull_iff]
    exact hsome
  have hnesting := h.nesting
  have hcaps := h.reads.caps_eq_zero
  have hdataLt := size.data_lt
  have hptrsLt := size.ptrs_lt
  cases h.reads with
  | null => exact absurd rfl hsome
  | @object _ start _ data ptrs _ hpointed hwithin hword hslots =>
    cases hshape
    obtain ⟨m, hm, hfits⟩ := hnesting rfl
    have hend := hwithin.end_le h.inside
    have htotal : (Shape.struct size).words = size.data + size.ptrs := rfl
    have hslot : ∀ k < size.ptrs, size.data + k < (Shape.struct size).words ∧
        (Shape.struct size).isPtr (size.data + k) = true :=
      fun k hk => ⟨by omega, decide_eq_true (Nat.le_add_right _ _)⟩
    have hvs : ∀ k (hk : k < size.ptrs), Value.ptr (.object (.struct size) data ptrs) (size.data + k) =
        ptrs ⟨size.data + k, hslot k hk⟩ := fun k hk => Value.ptr_slot ⟨size.data + k, hslot k hk⟩
    have hsize : (⟨start, start + size.data, ⟨.unchecked block.data⟩, m, size.data * 8, size.ptrs⟩ :
        StructReader).size = size := by
      refine StructSize.ext ?_ (Nat.mod_eq_of_lt hptrsLt)
      show (size.data * 8 + 7) / 8 % 2 ^ 16 = size.data
      omega
    refine ⟨⟨start, start + size.data, ⟨.unchecked block.data⟩, m, size.data * 8, size.ptrs⟩,
      fun k => Value.ptr (.object (.struct size) data ptrs) (size.data + k), ?_, Or.inr ?_, ?_, hsize⟩
    · rw [PtrReader.toStruct, hnull, if_neg Bool.false_ne_true, hm, h.reader]
      show (Prog.okOr Error.nestingLimitExceeded (some m) >>= _) none = _
      rw [Prog.okOr_some, Prog.pure_bind_eq, Prog.bind_of_ok hpointed.tryReadStruct]
      rfl
    · refine ⟨rfl, by dsimp only; omega, by dsimp only; omega, by dsimp only; omega, hptrsLt, ?_, ?_, ?_⟩
      all_goals
        intro k hk
        dsimp only at hk ⊢
        rw [hvs k hk]
      · rw [Nat.add_assoc]
        exact hslots ⟨size.data + k, hslot k hk⟩
      · exact Value.caps_ptrs hcaps _
      · exact hfits _
    · rw [StructReader.value, hsize, StructReader.valueAs]
      refine congrArg₂ (Value.object (.struct size)) (funext fun k => ?_) (funext fun k => ?_)
      · have hk : k.1 < size.data := Nat.lt_of_not_le (of_decide_eq_false k.2.2)
        dsimp only
        rw [copiedWord, if_pos (by omega)]
        exact hword k
      · have hle : size.data ≤ k.1 := of_decide_eq_true k.2.2
        have hlt := k.2.1
        dsimp only
        rw [if_pos (by omega), Nat.add_sub_cancel' hle]
        exact Value.ptr_slot k

end PtrReader.ReadsUnchecked

end Recapn.Ptr

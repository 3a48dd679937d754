/-
# Values that are written out as words

The default of a pointer field is written out as words, which are those of a message in a buffer
without its root pointer.  The reader of the default is made at the start of the words.

A struct is there, and so are the elements of most lists.  The elements of a list of structs have
their tag in front of them.
-/
import Recapn.Ptr.Sources

namespace Recapn.Codegen.Defaults

open Recapn.Lib Recapn.Ptr

/-- The words of a literal. -/
structure Slice where
  data : ℕ → Word
  len : ℕ

/-- `slice.split_first().unwrap().1`, of a slice with the words of a message. -/
def Slice.rest (slice : Slice) : Slice := ⟨fun k => slice.data (k + 1), slice.len - 1⟩

/-- `Result::expect`. -/
def expect {ε α : Type} (x : ReadM α) : Prog ε Limiter α := fun limiter =>
  match x limiter with
  | .ok v l => .ok v l
  | .error _ _ => .halt .panic
  | .halt h => .halt h

/-- What `ptr_to_slice`, `struct_to_slice` and `list_to_slice` have in common: a message is built in as
many words as the value has, with one more for the root.  `UnwrapErrors` panics at the first error. -/
def toSlice {ε : Type} (totalSize : ReadM MessageSize) (set : PtrBuilder → CopyM Ptr.Error Unit) :
    Prog ε Limiter Slice := do
  let size ← expect totalSize
  Prog.assert (size.caps = 0)
  Prog.assert (size.words.toNat < 2 ^ 29 - 1)
  let len ← Prog.unwrap (AllocLen.new (size.words.toNat % 2 ^ 32 + 1))
  let arena ← expect (setScratch len set)
  Prog.assert (arena.used 0 = len.get)
  pure ⟨arena.memory 0, len.get⟩

/-- `struct_to_slice`. -/
def structToSlice {ε : Type} (depth : ℕ) (s : StructReader) : Prog ε Limiter Slice :=
  toSlice (s.totalSize depth) fun root =>
    root.trySetStruct clearNoCap (emptyTable returnErrors) depth depth s .fromValue

/-- `list_to_slice`. -/
def listToSlice {ε : Type} (depth : ℕ) (l : ListReader) : Prog ε Limiter Slice :=
  toSlice (l.totalSize depth) fun root =>
    root.trySetList clearNoCap (emptyTable returnErrors) depth depth l .fromValue

/-- `ptr_to_slice`. -/
def ptrToSlice {ε : Type} (depth : ℕ) (p : PtrReader) : Prog ε Limiter Slice :=
  toSlice (p.targetSize depth) fun root =>
    root.tryCopyFrom clearNoCap (emptyTable returnErrors) depth depth p

/-- The expression `StructReader::slice_unchecked(words, size)`. -/
structure StructValue where
  words : Slice
  size : StructSize

/-- The expression `ListReader::slice_unchecked(words, len, element_size)`. -/
structure ListValue where
  words : Slice
  len : ElementCount
  elementSize : ElementSize

/-- What the expression is evaluated to. -/
def StructValue.reader (s : StructValue) : StructReader := .sliceUnchecked s.words.data s.size

def ListValue.reader (l : ListValue) : ListReader := .sliceUnchecked l.words.data l.len l.elementSize

/-- `generate_untyped_struct_value`. -/
def generateUntypedStructValue {ε : Type} (depth : ℕ) (s : StructReader) : Prog ε Limiter StructValue := do
  let slice ← structToSlice depth s
  pure ⟨slice.rest, s.size⟩

/-- `generate_untyped_list_value`. -/
def generateUntypedListValue {ε : Type} (depth : ℕ) (list : ListReader) : Prog ε Limiter ListValue := do
  let result ← listToSlice depth list
  pure ⟨result.rest, list.elementCount, list.elementSize⟩

/-! ## Words of a value -/

/-- A read limit is exceeded when the value is counted, or when it is copied to the buffer. -/
def LimitExceeded (totalSize : ReadM MessageSize) (set : PtrBuilder → CopyM Ptr.Error Unit)
    (limiter : Limiter) : Prop :=
  (∃ l, totalSize limiter = .error .readLimitExceeded l) ∨
    ∃ size l len l', totalSize limiter = .ok size l ∧ AllocLen.new (size.words.toNat + 1) = some len ∧
      setScratch len set l = .error .readLimitExceeded l'

section Slice

variable {ε : Type} {totalSize : ReadM MessageSize} {set : ℕ → PtrBuilder → CopyM Ptr.Error Unit} {v : Ptr.Value}
  {limiter l : Limiter}

lemma expect_of_error {α : Type} {x : ReadM α} {e : Ptr.Error} (h : x limiter = .error e l) :
    (expect x : Prog ε Limiter α) limiter = .halt .panic := by
  rw [expect, h]

lemma expect_of_ok {α : Type} {x : ReadM α} {a : α} (h : x limiter = .ok a l) :
    (expect x : Prog ε Limiter α) limiter = .ok a l := by
  rw [expect, h]

/-- There are as many words as are needed. -/
lemma toSlice_of_counted {set : PtrBuilder → CopyM Ptr.Error Unit} {words : ℕ} {len : AllocLen}
    (hsize : totalSize limiter = .ok (.ofNat words 0) l) (hlt : words + 1 < 2 ^ 29)
    (hlen : AllocLen.new (words + 1) = some len) :
    (toSlice totalSize set : Prog ε Limiter Slice) limiter =
      (expect (setScratch len set) >>= fun arena => do
        Prog.assert (arena.used 0 = len.get)
        pure ⟨arena.memory 0, len.get⟩) l := by
  have hwords : (MessageSize.ofNat words 0).words.toNat = words := by
    show (UInt64.ofNat words).toNat = words
    rw [UInt64.toNat_ofNat', Nat.mod_eq_of_lt (by omega)]
  have hcaps : (MessageSize.ofNat words 0).caps = 0 := rfl
  rw [toSlice, Prog.bind_of_ok (expect_of_ok hsize), hwords, Prog.assert_of hcaps, Prog.pure_bind_eq,
    Prog.assert_of (show words < 2 ^ 29 - 1 by omega), Prog.pure_bind_eq,
    Nat.mod_eq_of_lt (show words < 2 ^ 32 by omega), hlen, Prog.unwrap_some, Prog.pure_bind_eq]

/-- **The words of a value that fits in a segment are found**, unless a read limit is exceeded. -/
theorem toSlice_holds {sizes : ℕ → ReadM MessageSize}
    (hcounts : ∀ᶠ depth in Filter.atTop, Counts (sizes depth) v.words) (hfills : Fills set v)
    (hlt : v.words + 1 < 2 ^ 29) (limiter : Limiter) :
    ∀ᶠ depth in Filter.atTop,
      (∃ (arena : Arena) (l : Limiter), (toSlice (sizes depth) (set depth) : Prog ε Limiter Slice) limiter =
        .ok ⟨arena.memory 0, v.words + 1⟩ l ∧ arena.Holds v) ∨
      (limiter ≠ none ∧ LimitExceeded (sizes depth) (set depth) limiter) ∧
        (toSlice (sizes depth) (set depth) : Prog ε Limiter Slice) limiter = .halt .panic := by
  obtain ⟨len, hlen⟩ : ∃ len, AllocLen.new (v.words + 1) = some len := by
    rcases h : AllocLen.new (v.words + 1) with _ | len
    · have hnone := AllocLen.new_eq_none.1 h
      omega
    · exact ⟨len, rfl⟩
  have hget : len.get = v.words + 1 := AllocLen.new_eq_some.1 hlen
  filter_upwards [hcounts, hfills len] with depth hcount hfill
  rcases hcount limiter with ⟨l, hsize, hnone⟩ | ⟨hlimiter, hexceeded⟩
  · have hwords : (MessageSize.ofNat v.words 0).words.toNat = v.words := by
      show (UInt64.ofNat v.words).toNat = v.words
      rw [UInt64.toNat_ofNat', Nat.mod_eq_of_lt (by omega)]
    obtain ⟨arena, l', hrun⟩ | ⟨hlimiter, l', hrun⟩ := (hfill l).of_room (Nat.le_of_eq hget.symm)
    · have hholds := ((hfill l).ok arena l' hrun).2
      refine Or.inl ⟨arena, l', ?_, hholds⟩
      rw [toSlice_of_counted hsize hlt hlen, Prog.bind_of_ok (expect_of_ok hrun),
        Prog.assert_of (hholds.used_eq.trans hget.symm), Prog.pure_bind_eq, hget]
      rfl
    · refine Or.inr ⟨⟨mt hnone hlimiter, Or.inr ⟨_, l, len, l', hsize, ?_, hrun⟩⟩, ?_⟩
      · rw [hwords]
        exact hlen
      · rw [toSlice_of_counted hsize hlt hlen, Prog.bind_of_halt (expect_of_error hrun)]
  · obtain ⟨l, hrun⟩ := hexceeded
    exact Or.inr ⟨⟨hlimiter, Or.inl ⟨l, hrun⟩⟩, Prog.bind_of_halt (expect_of_error hrun)⟩

end Slice

/-! ## What is read -/

/-- The struct that is emitted is the one that was given, with all that is read of it in its words. -/
def StructValue.Denotes (literal : StructValue) (s : StructReader) (block : Segment) (vs : ℕ → Ptr.Value) :
    Prop :=
  literal.size = s.size ∧ literal.reader.Finds literal.words.data literal.words.len s block vs

/-- The list that is emitted is the one that was given. -/
def ListValue.Denotes (literal : ListValue) (list : ListReader) (v : Ptr.Value) : Prop :=
  literal.reader.Finds literal.words.data literal.words.len list v

/-- An expression for the struct is emitted. -/
def EmitsStruct {ε : Type} (o : Outcome ε Limiter StructValue) (s : StructReader) (block : Segment)
    (vs : ℕ → Ptr.Value) : Prop :=
  ∃ literal l, o = .ok literal l ∧ literal.Denotes s block vs

/-- An expression for the list is emitted. -/
def EmitsList {ε : Type} (o : Outcome ε Limiter ListValue) (list : ListReader) (v : Ptr.Value) : Prop :=
  ∃ literal l, o = .ok literal l ∧ literal.Denotes list v

/-- There is a read limit, and it is exceeded by the struct. -/
def StructExceeds (depth : ℕ) (s : StructReader) (limiter : Limiter) : Prop :=
  limiter ≠ none ∧ LimitExceeded (s.totalSize depth) (fun root =>
    root.trySetStruct clearNoCap (emptyTable returnErrors) depth depth s .fromValue) limiter

/-- There is a read limit, and it is exceeded by the list. -/
def ListExceeds (depth : ℕ) (list : ListReader) (limiter : Limiter) : Prop :=
  limiter ≠ none ∧ LimitExceeded (list.totalSize depth) (fun root =>
    root.trySetList clearNoCap (emptyTable returnErrors) depth depth list .fromValue) limiter

/-- The elements of the list are structs that are not empty. -/
def OfStructs (list : ListReader) : Prop :=
  ∃ size, list.elementSize = .inlineComposite size ∧ size.total ≠ 0

section Values

variable {ε : Type} {s : StructReader} {list : ListReader} {block : Segment} {vs : ℕ → Ptr.Value} {v : Ptr.Value}

/-- **A struct is emitted as it is.** -/
theorem generateUntypedStructValue_denotes (hs : s.IsReadable block vs) (hsize : s.size.total ≠ 0)
    (hlt : (s.value block vs).words + 1 < 2 ^ 29) (limiter : Limiter) :
    ∀ᶠ depth in Filter.atTop,
      EmitsStruct ((generateUntypedStructValue depth s : Prog ε Limiter StructValue) limiter) s block vs ∨
        StructExceeds depth s limiter := by
  have hcounts : ∀ᶠ depth in Filter.atTop, Counts (s.totalSize depth) (s.value block vs).words :=
    (Filter.eventually_gt_atTop s.nestingLimit).mono fun _ hdepth => hs.counts hdepth
  have hfills := @StructReader.IsReadable.fills block s vs .fromValue s.size hs rfl rfl (Nat.le_of_eq hs.size_ptrs.symm)
  refine (toSlice_holds (ε := ε) hcounts hfills hlt limiter).mono fun depth hspec => ?_
  refine hspec.imp (fun ⟨arena, l, hrun, hholds⟩ => ?_) And.left
  refine ⟨_, l, Prog.bind_of_ok hrun, rfl, ?_⟩
  have hdata : s.dataLen ≤ s.size.data * 8 := by
    rw [hs.size_data]
    omega
  exact Arena.Holds.findsStruct hholds hsize hdata (Nat.le_of_eq hs.size_ptrs.symm) (Nat.lt_of_succ_lt hlt)

/-- A list that can be read is a list. -/
lemma object_of_isReadable (hlist : list.IsReadable v) :
    ∃ (data : (Shape.list list.elementSize list.elementCount).Data → Word)
      (ptrs : (Shape.list list.elementSize list.elementCount).Slot → Ptr.Value), v = .object _ data ptrs := by
  obtain ⟨-, ⟨a, id, src, id', block, h⟩ | ⟨block, src, h⟩⟩ := hlist
  · obtain ⟨segment, hsegment, hsome⟩ := h.some
    obtain ⟨cost, hdenotes⟩ := h.denotes
    obtain ⟨f, -, rfl⟩ := (reads_object_iff hsegment hsome hdenotes h.block).1 ⟨v, h.reads, (rfl : v = v)⟩
    exact ⟨_, _, rfl⟩
  · obtain ⟨data, ptrs, rfl, -, -⟩ := h.object
    exact ⟨data, ptrs, rfl⟩

/-- What is emitted for a list. -/
lemma generateUntypedListValue_holds (hlist : list.IsReadable v) (hlt : v.words + 1 < 2 ^ 29) (limiter : Limiter) :
    ∀ᶠ depth in Filter.atTop,
      (∃ (arena : Arena) (l : Limiter), (generateUntypedListValue depth list : Prog ε Limiter ListValue) limiter =
        .ok ⟨⟨fun k => arena.memory 0 (k + 1), v.words⟩, list.elementCount, list.elementSize⟩ l ∧ arena.Holds v) ∨
      ListExceeds depth list limiter ∧
        (generateUntypedListValue depth list : Prog ε Limiter ListValue) limiter = .halt .panic := by
  have hcounts : ∀ᶠ depth in Filter.atTop, Counts (list.totalSize depth) v.words :=
    (Filter.eventually_gt_atTop list.nestingLimit).mono fun _ hdepth => hlist.counts hdepth
  refine (toSlice_holds (ε := ε) hcounts hlist.fills hlt limiter).mono fun depth hspec => ?_
  refine hspec.imp (fun ⟨arena, l, hrun, hholds⟩ => ?_) fun ⟨hexceeded, hrun⟩ => ?_
  · exact ⟨arena, l, Prog.bind_of_ok hrun, hholds⟩
  · exact ⟨hexceeded, Prog.bind_of_halt hrun⟩

/-- **A list that has no tag is emitted as it is.** -/
theorem generateUntypedListValue_denotes (hlist : list.IsReadable v) (hlt : v.words + 1 < 2 ^ 29)
    (hstructs : ¬ OfStructs list) (limiter : Limiter) :
    ∀ᶠ depth in Filter.atTop,
      EmitsList ((generateUntypedListValue depth list : Prog ε Limiter ListValue) limiter) list v ∨
        ListExceeds depth list limiter := by
  refine (generateUntypedListValue_holds (ε := ε) hlist hlt limiter).mono fun depth hspec => ?_
  refine hspec.imp (fun ⟨arena, l, hrun, hholds⟩ => ⟨_, l, hrun, ?_⟩) And.left
  obtain ⟨data, ptrs, rfl⟩ := object_of_isReadable hlist
  refine Arena.Holds.findsList hholds ?_ (by omega)
  rcases hsize : list.elementSize with _ | _ | _ | _ | _ | _ | _ | size <;> try exact Or.inl rfl
  -- structs that are empty have no words
  have hzero : size.total = 0 := by
    by_contra hne
    exact hstructs ⟨size, hsize, hne⟩
  rw [Shape.words_structs, hzero, Nat.zero_mul]
  exact Or.inr rfl

/-- **A list of structs is emitted with its tag**: it reads as it is only if it begins with what looks
like the tag. -/
theorem beginsLikeTag_of_denotes (hlist : list.IsReadable v) (hlt : v.words + 1 < 2 ^ 29)
    {size : StructSize} (hsize : list.elementSize = .inlineComposite size) (hne : size.total ≠ 0)
    (hcount : list.elementCount.get ≠ 0) (limiter : Limiter) :
    ∀ᶠ depth in Filter.atTop,
      EmitsList ((generateUntypedListValue depth list : Prog ε Limiter ListValue) limiter) list v →
        v.BeginsLikeTag size list.elementCount := by
  refine (generateUntypedListValue_holds (ε := ε) hlist hlt limiter).mono fun depth hspec hemits => ?_
  obtain ⟨literal, l, hok, hdenotes⟩ := hemits
  obtain ⟨data, ptrs, rfl⟩ := object_of_isReadable hlist
  obtain ⟨start, reader, count, m, elementSize⟩ := list
  obtain rfl : elementSize = .inlineComposite size := hsize
  obtain ⟨arena, l', hrun, hholds⟩ | ⟨-, hrun⟩ := hspec
  · cases hrun.symm.trans hok
    exact Arena.Holds.beginsLikeTag hholds hne hcount hdenotes
  · cases hrun.symm.trans hok

/-- **Defaults of pointers read back, but for lists of structs.**  A list of structs that are not empty
reads back only if its first element looks like the tag of the list. -/
theorem generated_defaults_denote (limiter : Limiter) :
    (∀ (s : StructReader) (block : Segment) (vs : ℕ → Ptr.Value), s.IsReadable block vs → s.size.total ≠ 0 →
      (s.value block vs).words + 1 < 2 ^ 29 → ∀ᶠ depth in Filter.atTop,
        EmitsStruct ((generateUntypedStructValue depth s : Prog ε Limiter StructValue) limiter) s block vs ∨
          StructExceeds depth s limiter) ∧
    ∀ (list : ListReader) (v : Ptr.Value), list.IsReadable v → list.elementCount.get ≠ 0 → v.words + 1 < 2 ^ 29 →
      (¬ OfStructs list → ∀ᶠ depth in Filter.atTop,
        EmitsList ((generateUntypedListValue depth list : Prog ε Limiter ListValue) limiter) list v ∨
          ListExceeds depth list limiter) ∧
      ∀ size, list.elementSize = .inlineComposite size → size.total ≠ 0 → ∀ᶠ depth in Filter.atTop,
        EmitsList ((generateUntypedListValue depth list : Prog ε Limiter ListValue) limiter) list v →
          v.BeginsLikeTag size list.elementCount :=
  ⟨fun _ _ _ hs hsize hlt => generateUntypedStructValue_denotes hs hsize hlt limiter,
    fun _ _ hlist hcount hlt => ⟨fun hstructs => generateUntypedListValue_denotes hlist hlt hstructs limiter,
      fun _ hsize hne => beginsLikeTag_of_denotes hlist hlt hsize hne hcount limiter⟩⟩

end Values

/-! ### Small defaults -/

/-- A few words of plain memory, with a list of one element behind the pointer to it. -/
def fewWords (words : List Word) : Segment := ⟨fun k => words.getD k Word.null, ⟨3, U29.three_lt⟩⟩

/-- The list of one zero byte. -/
def oneByteWords : Segment := fewWords [ListPtr.new I30.zero .byte ⟨1, U29.one_lt⟩]

def oneByteList : ListReader := ⟨1, ⟨.unchecked oneByteWords.data⟩, ⟨1, U29.one_lt⟩, 63, .byte⟩

/-- The size of a struct with one word of data. -/
def oneWord : StructSize := ⟨1, 0, StructSize.one_lt, StructSize.zero_lt⟩

/-- The list of one struct, with a word of zeros. -/
def oneStructWords : Segment :=
  fewWords [ListPtr.new I30.zero .inlineComposite ⟨1, U29.one_lt⟩,
    StructPtr.newInlineCompositeTag ⟨1, U29.one_lt⟩ oneWord]

def oneStructList : ListReader :=
  ⟨2, ⟨.unchecked oneStructWords.data⟩, ⟨1, U29.one_lt⟩, 63, .inlineComposite oneWord⟩

/-- A list whose elements are zeros. -/
def zeros (list : ListReader) : Ptr.Value :=
  .object (.list list.elementSize list.elementCount) (fun _ => Word.null) fun _ => .null

lemma ptr_zeros (list : ListReader) (k : ℕ) : (zeros list).ptr k = .null := by
  rw [zeros, Ptr.Value.ptr]
  split <;> rfl

lemma words_zeros (list : ListReader) :
    (zeros list).words = (Shape.list list.elementSize list.elementCount).size := by
  have hwords : (zeros list).words = _ := Value.words_object
  rw [hwords]
  refine congrArg _ (Finset.sum_eq_zero fun k _ => ?_)
  dsimp only
  split
  · exact congrArg Ptr.Value.words (ptr_zeros list k)
  · rfl

lemma caps_zeros (list : ListReader) : (zeros list).caps = 0 := by
  have hcaps : (zeros list).caps = _ := Value.caps_object
  rw [hcaps]
  refine Finset.sum_eq_zero fun k _ => ?_
  dsimp only
  split
  · exact congrArg Ptr.Value.caps (ptr_zeros list k)
  · rfl

/-- A list of zeros in plain memory. -/
lemma reads_zeros {list : ListReader} {block : Segment} (hsome : block.data 0 ≠ Word.null)
    (hpointed : (Shape.list list.elementSize list.elementCount).PointedAt block.data 0 list.ptr)
    (hwithin : (Shape.list list.elementSize list.elementCount).Within block.data 0 block.len.get 0 list.ptr)
    (hzero : ∀ k < (Shape.list list.elementSize list.elementCount).words, block.data (list.ptr + k) = Word.null) :
    ReadsUnchecked block.data 0 block.len.get 0 (zeros list) :=
  .object hsome hpointed hwithin (fun k => hzero k.1 k.2.1) fun k => .null (hzero k.1 k.2.1)

lemma isReadable_zeros {list : ListReader} {block : Segment} (hreader : list.reader = ⟨.unchecked block.data⟩)
    (hpos : 0 < block.len.get) (hsome : block.data 0 ≠ Word.null)
    (hpointed : (Shape.list list.elementSize list.elementCount).PointedAt block.data 0 list.ptr)
    (hwithin : (Shape.list list.elementSize list.elementCount).Within block.data 0 block.len.get 0 list.ptr)
    (hzero : ∀ k < (Shape.list list.elementSize list.elementCount).words, block.data (list.ptr + k) = Word.null) :
    list.IsReadable (zeros list) := by
  refine ⟨fun _ => ⟨_, rfl, fun k => trivial⟩, Or.inr ⟨block, 0, hreader, hpos, hpointed, hsome, ?_, ?_⟩⟩
  · exact reads_zeros hsome hpointed hwithin hzero
  · exact caps_zeros list

lemma isReadable_oneByte : oneByteList.IsReadable (zeros oneByteList) := by
  refine @isReadable_zeros oneByteList oneByteWords rfl (by decide) (by decide) ⟨by decide, by decide, by decide, by decide⟩
    (Or.inr ⟨by decide, by decide, nofun⟩) fun k hk => ?_
  have hone : k < 1 := hk
  obtain rfl : k = 0 := by omega
  rfl

lemma isReadable_oneStruct : oneStructList.IsReadable (zeros oneStructList) := by
  refine @isReadable_zeros oneStructList oneStructWords rfl (by decide) (by decide)
    ⟨by decide, by decide, by decide, by decide, by decide, by decide, by decide, by decide, by decide⟩
    (Or.inr ⟨by decide, by decide, fun _ => by decide⟩) fun k hk => ?_
  have hone : k < 1 := hk
  obtain rfl : k = 0 := by omega
  rfl

/-- A struct of one word. -/
def oneWordStruct : StructReader := ⟨1, 2, ⟨.unchecked oneByteWords.data⟩, 63, 8, 0⟩

lemma isReadable_oneWord : oneWordStruct.IsReadable oneByteWords fun _ => .null := by
  refine Or.inr ⟨rfl, by decide, by decide, by decide, by decide, ?_, ?_, ?_⟩ <;>
    exact fun k hk => absurd hk (Nat.not_lt_zero k)

lemma words_oneWord : (oneWordStruct.value oneByteWords fun _ => .null).words = 1 := by
  rw [StructReader.value, StructReader.words_valueAs (Nat.le_of_eq isReadable_oneWord.size_ptrs.symm)]
  rfl

/-- A struct of a word and a list of a byte are emitted. -/
theorem generated_defaults_denote_small : ∀ᶠ depth in Filter.atTop,
    EmitsStruct ((generateUntypedStructValue depth oneWordStruct : Prog Empty Limiter StructValue) none)
        oneWordStruct oneByteWords (fun _ => .null) ∧
      EmitsList ((generateUntypedListValue depth oneByteList : Prog Empty Limiter ListValue) none)
        oneByteList (zeros oneByteList) := by
  obtain ⟨hstruct, hlist⟩ := @generated_defaults_denote Empty none
  have hwords : (zeros oneByteList).words = 1 := words_zeros oneByteList
  filter_upwards [hstruct oneWordStruct oneByteWords (fun _ => .null) isReadable_oneWord (by decide)
      (by rw [words_oneWord]; decide),
    (hlist oneByteList (zeros oneByteList) isReadable_oneByte (by decide) (by rw [hwords]; decide)).1
      (fun ⟨_, hsize, _⟩ => nomatch hsize)] with depth hs hl
  exact ⟨hs.resolve_right fun h => h.1 rfl, hl.resolve_right fun h => h.1 rfl⟩

/-- **A list of one struct with a word of zeros does not read back**: the word that is found is the tag. -/
theorem not_emits_oneStruct :
    oneStructList.IsReadable (zeros oneStructList) ∧ oneStructList.elementCount.get ≠ 0 ∧
      (zeros oneStructList).words + 1 < 2 ^ 29 ∧ ∀ᶠ depth in Filter.atTop,
        ¬ EmitsList ((generateUntypedListValue depth oneStructList : Prog Empty Limiter ListValue) none)
          oneStructList (zeros oneStructList) := by
  have hwords : (zeros oneStructList).words = 2 := words_zeros oneStructList
  have hlt : (zeros oneStructList).words + 1 < 2 ^ 29 := by
    rw [hwords]
    decide
  refine ⟨isReadable_oneStruct, by decide, hlt, ?_⟩
  refine (@beginsLikeTag_of_denotes Empty oneStructList (zeros oneStructList) isReadable_oneStruct hlt oneWord rfl
    (by decide) (by decide) none).mono fun depth hlike hemits => ?_
  have hsize := ((if_neg (by decide)).mp (hlike hemits)).2.1
  have hword : (zeros oneStructList).word 0 = Word.null := rfl
  rw [hword] at hsize
  exact absurd hsize (by decide)

end Recapn.Codegen.Defaults

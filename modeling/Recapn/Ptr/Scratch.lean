/-
# Messages in a buffer

A message can be built in a buffer that is handed in as scratch space.  If the allocator behind it
gives out nothing, then all of the message is in the buffer, and the buffer can be read without
checks afterwards.
-/
import Recapn.Ptr.StructCopy

namespace Recapn.Ptr

open Recapn.Lib Recapn.Lib.Prog

/-! ## Buffers -/

/-- `Alloc` of `Scratch::with_segment`, for a segment of so many words before `Never`.  The segment is
given out once. -/
def Alloc.scratch (len : AllocLen) : Alloc where
  alloc requests size :=
    if (∃ r ∈ requests, r.get ≤ len.get) ∨ len.get < size.get then none else some len.toU29
  le_alloc h := by
    split at h
    · cases h
    · next hnot =>
      cases h
      exact Nat.not_lt.1 (not_or.1 hnot).2

namespace Arena

/-- The arena of a new message in a buffer, with its root. -/
def scratch (len : AllocLen) : Arena :=
  ⟨.scratch len, [AllocLen.one], [⟨⟨fun _ => Word.null, len.toU29⟩, 0, .used AllocLen.one⟩], 0⟩

variable (len : AllocLen)

lemma allocRoot_scratch : allocRoot (new (.scratch len)) = .ok () (scratch len) := by
  have halloc : (Alloc.scratch len).alloc [] AllocLen.one = some len.toU29 := by
    refine if_neg (not_or.2 ⟨fun ⟨_, hr, _⟩ => absurd hr List.not_mem_nil, Nat.not_lt.2 ?_⟩)
    exact len.get_pos
  rw [allocRoot, bind_of_ok (get_apply _)]
  dsimp only [new]
  rw [bind_apply, allocNew]
  dsimp only
  rw [halloc]
  rfl

lemma wf_scratch : (scratch len).Wf := (allocRoot_new_eq_ok (allocRoot_scratch len)).1

@[simp] lemma used_scratch : (scratch len).used 0 = 1 := rfl

@[simp] lemma word_scratch (r : SegmentRef) : (scratch len).word r = Word.null := by
  obtain ⟨i, pos⟩ := r
  rcases i with _ | i <;> rfl

/-- The buffer is all there is. -/
lemma lone_scratch : (scratch len).Lone len.get where
  length := rfl
  len_eq := rfl
  refuses more size := by
    refine if_pos (Or.inl ⟨AllocLen.one, List.mem_append_right more (List.mem_singleton_self _), ?_⟩)
    exact len.get_pos

lemma blank_scratch : PtrBuilder.root.Blank (scratch len) :=
  ⟨wf_scratch len, rfl, Nat.one_pos, word_scratch len _⟩

end Arena

/-- The table of a message without capabilities: `InsertableInto` for `Empty`. -/
def emptyTable {ε : Type} (handler : ErrorHandler ε) : CopyMachine ε :=
  ⟨handler, fun _ _ => .error .capabilityNotAllowed, false⟩

/-- `CapPtrBuilder::clear_cap` of `Empty`. -/
def clearNoCap (_ : List ℕ) (_ : ℕ) : Except Error Unit := .error .capabilityNotAllowed

lemma strict_returnErrors : returnErrors.Strict := nofun

/-- The root of a new message in a buffer is set. -/
def setScratch (len : AllocLen) (set : PtrBuilder → CopyM Error Unit) : Prog Error Limiter Arena := fun limiter =>
  match Arena.allocRoot (Arena.new (.scratch len)) with
  | .ok () arena =>
    match set PtrBuilder.root ⟨limiter, arena, [], []⟩ with
    | .ok () s => .ok s.arena s.limiter
    | .error e s => .error e s.limiter
    | .halt r => .halt r
  | _ => .halt .panic

/-- The root of the message reads as the value without checks.  The words of the value are right behind
it, and there are no others. -/
structure Arena.Holds (arena : Arena) (v : Value) : Prop where
  used_eq : arena.used 0 = v.words + 1
  reads : ReadsUnchecked (arena.memory 0) 1 (v.words + 1) 0 v
  first : ∀ shape start, Shape.PointedAt (arena.memory 0) 0 start shape →
    shape.size = 0 ∨ start = 1 + shape.tagWords

/-- **The buffer holds the value just when it has room for it and the root pointer**, unless a read
limit is exceeded. -/
structure FillsScratch (len : AllocLen) (v : Value) (limiter : Limiter) (o : Outcome Error Limiter Arena) :
    Prop where
  ok : ∀ arena l, o = .ok arena l → v.words + 1 ≤ len.get ∧ arena.Holds v
  of_room : v.words + 1 ≤ len.get →
    (∃ arena l, o = .ok arena l) ∨ limiter ≠ none ∧ ∃ l, o = .error .readLimitExceeded l

lemma setScratch_apply (len : AllocLen) (set : PtrBuilder → CopyM Error Unit) (limiter : Limiter) :
    setScratch len set limiter =
      match set PtrBuilder.root ⟨limiter, Arena.scratch len, [], []⟩ with
      | .ok () s => .ok s.arena s.limiter
      | .error e s => .error e s.limiter
      | .halt r => .halt r := by
  unfold setScratch
  rw [Arena.allocRoot_scratch]

/-- The error of a strict copy that is limited is the one that was reported. -/
lemma eq_of_not_unlimited {s : CopyState} {e : Error} (h : ¬ Unlimited returnErrors s e) :
    e = .readLimitExceeded := by
  by_contra hne
  refine h (Or.inr ⟨strict_returnErrors, fun _ heq => hne ?_⟩)
  exact (Option.some.inj heq).symm

lemma fillsScratch_of_copiesFlat {len : AllocLen} {v : Value} {limiter : Limiter}
    {set : PtrBuilder → CopyM Error Unit}
    (h : CopiesFlat returnErrors len.get PtrBuilder.root.ptr v ⟨limiter, Arena.scratch len, [], []⟩
      (set PtrBuilder.root ⟨limiter, Arena.scratch len, [], []⟩)) :
    FillsScratch len v limiter (setScratch len set limiter) := by
  have hroom : v.words + 1 ≤ len.get → (Arena.scratch len).used 0 + v.words ≤ len.get := fun hle => by
    rw [Arena.used_scratch]
    omega
  rw [setScratch_apply]
  rcases hrun : set PtrBuilder.root ⟨limiter, Arena.scratch len, [], []⟩ with ⟨⟨⟩, s⟩ | ⟨e, s⟩ | r
  · obtain ⟨hle, hflat⟩ := h.ok s hrun
    have hused := hflat.used_eq
    have hreads := hflat.reads
    dsimp only at hle hused hreads
    rw [Arena.used_scratch] at hle
    rw [Arena.used_scratch, Nat.add_comm] at hused
    rw [Arena.used_scratch, hused] at hreads
    constructor
    · rintro arena l ⟨⟩
      exact ⟨by omega, hused, hreads, hflat.first⟩
    · exact fun _ => Or.inl ⟨s.arena, s.limiter, rfl⟩
  · refine ⟨nofun, fun hle => Or.inr ?_⟩
    obtain ⟨s', hok⟩ | ⟨e', s', herror, hlimit⟩ := h.of_room (hroom hle)
    · cases hrun.symm.trans hok
    · cases hrun.symm.trans herror
      refine ⟨fun hnone => hlimit (Or.inl hnone), s.limiter, ?_⟩
      rw [eq_of_not_unlimited hlimit]
  · refine ⟨nofun, fun hle => ?_⟩
    obtain ⟨s', hok⟩ | ⟨e', s', herror, -⟩ := h.of_room (hroom hle)
    · cases hrun.symm.trans hok
    · cases hrun.symm.trans herror

/-- The block of the value is where the first object is. -/
lemma Arena.Holds.block {arena : Arena} {shape : Shape} {data : shape.Data → Word} {ptrs : shape.Slot → Value}
    (h : arena.Holds (.object shape data ptrs)) (hsize : shape.size ≠ 0) :
    shape.PointedAt (arena.memory 0) 0 (1 + shape.tagWords) ∧
      (∀ k : shape.Data, arena.memory 0 (1 + shape.tagWords + k.1) = data k) ∧
      ∀ k : shape.Slot, ReadsUnchecked (arena.memory 0) 1 ((Value.object shape data ptrs).words + 1)
        (1 + shape.tagWords + k.1) (ptrs k) := by
  have hreads := h.reads
  cases hreads with
  | object hsome hpointed hwithin hdata hptrs =>
    obtain rfl := (h.first shape _ hpointed).resolve_left hsize
    exact ⟨hpointed, hdata, hptrs⟩

/-! ## Readers without checks -/

/-- `PtrReader::new_unchecked`, at the start of the memory. -/
def PtrReader.newUnchecked (memory : ℕ → Word) : PtrReader := ⟨0, ⟨.unchecked memory⟩, 2 ^ 32 - 1⟩

/-- `StructReader::slice_unchecked`, over the whole memory. -/
def StructReader.sliceUnchecked (memory : ℕ → Word) (size : StructSize) : StructReader :=
  ⟨0, size.data, ⟨.unchecked memory⟩, 2 ^ 32 - 1, size.data * 8, size.ptrs⟩

/-- `ListReader::slice_unchecked`. -/
def ListReader.sliceUnchecked (memory : ℕ → Word) (elementCount : ElementCount) (elementSize : ElementSize) :
    ListReader :=
  ⟨0, ⟨.unchecked memory⟩, elementCount, 2 ^ 32 - 1, elementSize⟩

/-- `StructReader::empty`. -/
def StructReader.empty : StructReader := ⟨0, 0, ⟨.unchecked fun _ => Word.null⟩, 2 ^ 32 - 1, 0, 0⟩

/-- `PtrReader::read_as_struct`.  What cannot be read is empty. -/
def PtrReader.readAsStruct {ε : Type} (self : PtrReader) : Prog ε Limiter StructReader := fun limiter =>
  match self.toStruct limiter with
  | .ok (some ptr) l => .ok ptr l
  | .ok none l | .error _ l => .ok .empty l
  | .halt h => .halt h

/-- At most so many objects are nested in each other. -/
def Value.Nested : Value → ℕ → Prop
  | null, _ => True
  | capability _, _ => True
  | object _ _ ptrs, n => ∃ m, n = m + 1 ∧ ∀ k, (ptrs k).Nested m

/-- Each object but the last has a word. -/
lemma Value.nested_of_words_lt {v : Value} {n : ℕ} (h : v.words < n) : v.Nested n := by
  induction v generalizing n with
  | null | capability => trivial
  | object shape data ptrs ih =>
    obtain ⟨m, rfl⟩ := Nat.exists_eq_add_of_le' (Nat.zero_lt_of_lt h)
    refine ⟨m, rfl, fun k => ih k ?_⟩
    have hle := @Value.words_ptrs_le shape data ptrs k
    have hsize := shape.size_eq
    have hk := k.2.1
    omega

/-- **The reader reads as the struct**: it has the bytes of its data with zeros behind them, and its
pointers with nulls behind them.  All that is read is in the words before `hi`. -/
structure StructReader.Finds (r : StructReader) (memory : ℕ → Word) (hi : ℕ) (value : StructReader)
    (block : Segment) (vs : ℕ → Value) : Prop where
  reader : r.reader = ⟨.unchecked memory⟩
  data_lt : ∀ i < r.dataLen, r.dataStart + i / 8 < hi
  ptrs_lt : ∀ k < r.ptrsLen, r.ptrsStart + k < hi
  dataLen_le : value.dataLen ≤ r.dataLen
  ptrsLen_le : value.ptrsLen ≤ r.ptrsLen
  byte_eq : ∀ i < r.dataLen, r.dataView.byte i = if i < value.dataLen then block.byte value.dataStart i else 0
  reads : ∀ k < r.ptrsLen,
    ReadsUnchecked memory 0 hi (r.ptrsStart + k) (if k < value.ptrsLen then vs k else .null)
  nested : ∀ k < value.ptrsLen, (vs k).Nested r.nestingLimit

/-- **The reader reads as the list**: its elements have the words and the pointers of the value.  All
that is read is in the words before `hi`. -/
structure ListReader.Finds (r : ListReader) (memory : ℕ → Word) (hi : ℕ) (list : ListReader) (v : Value) :
    Prop where
  reader : r.reader = ⟨.unchecked memory⟩
  elementCount : r.elementCount = list.elementCount
  elementSize : r.elementSize = list.elementSize
  inside : r.ptr + (Shape.list r.elementSize r.elementCount).words ≤ hi
  word : ∀ k < (Shape.list r.elementSize r.elementCount).words,
    (Shape.list r.elementSize r.elementCount).isPtr k = false → memory (r.ptr + k) = v.word k
  reads : ∀ k < (Shape.list r.elementSize r.elementCount).words,
    (Shape.list r.elementSize r.elementCount).isPtr k = true → ReadsUnchecked memory 0 hi (r.ptr + k) (v.ptr k)
  /-- A struct of the list has one level less. -/
  nested : ∀ k, (v.ptr k).Nested (r.nestingLimit - 1)

/-- The first element of a list of structs begins with what the tag of the list is: with a word of data
like it, or with a pointer to a struct of the same size. -/
def Value.BeginsLikeTag (v : Value) (size : StructSize) (count : ElementCount) : Prop :=
  if size.data = 0 then (v.ptr 0).shape = some (.struct size)
  else WirePtr.kind (v.word 0) = .struct ∧ StructPtr.size (v.word 0) = size ∧
    StructPtr.inlineCompositeElementCount (v.word 0) = count

section Unchecked

variable {memory : ℕ → Word} {lo hi start : ℕ} {block : Segment} {value : StructReader} {vs : ℕ → Value}
  {size : StructSize}

/-- The reader of a struct that is pointed at. -/
lemma readAsStruct_newUnchecked {ε : Type} (hsome : memory 0 ≠ Word.null)
    (hpointed : (Shape.struct size).PointedAt memory 0 start) :
    ((PtrReader.newUnchecked memory).readAsStruct : Prog ε Limiter StructReader) none =
      .ok ⟨start, start + size.data, ⟨.unchecked memory⟩, 2 ^ 32 - 2, size.data * 8, size.ptrs⟩ none := by
  have hnull : (PtrReader.newUnchecked memory).isNull = false := decide_eq_false hsome
  have hread : (PtrReader.newUnchecked memory).toStruct none =
      .ok (some ⟨start, start + size.data, ⟨.unchecked memory⟩, 2 ^ 32 - 2, size.data * 8, size.ptrs⟩) none := by
    rw [PtrReader.toStruct, hnull, if_neg Bool.false_ne_true]
    show (Prog.okOr Error.nestingLimitExceeded (some (2 ^ 32 - 2)) >>= _) none = _
    rw [okOr_some, pure_bind_eq]
    exact (bind_of_ok hpointed.tryReadStruct).trans rfl
  rw [PtrReader.readAsStruct, hread]

/-- A struct in plain memory is found from the start of it. -/
lemma readAsStruct_finds {ε : Type} (hreads : ReadsUnchecked memory lo hi 0 (value.valueAs block vs size))
    (hdata : value.dataLen ≤ size.data * 8) (hptrs : value.ptrsLen ≤ size.ptrs)
    (hlt : (value.valueAs block vs size).words < 2 ^ 29) :
    ∃ r, ((PtrReader.newUnchecked memory).readAsStruct : Prog ε Limiter StructReader) none = .ok r none ∧
      r.Finds memory hi value block vs := by
  have htotal : (Shape.struct size).words = size.data + size.ptrs := rfl
  rw [StructReader.words_valueAs hptrs] at hlt
  rw [StructReader.valueAs] at hreads
  cases hreads with
  | @object _ start _ _ _ hsome hpointed hwithin hword hslots =>
    refine ⟨_, readAsStruct_newUnchecked hsome hpointed, rfl, fun i hi => ?_, fun k hk => ?_, hdata, hptrs,
      fun i hi => ?_, fun k hk => ?_, fun k hk => ?_⟩
    · dsimp only at hi ⊢
      exact (hwithin.mem (by omega)).2
    · dsimp only at hk ⊢
      rw [Nat.add_assoc]
      exact (hwithin.mem (by omega)).2
    · dsimp only at hi ⊢
      have hk : i / 8 < size.data := by omega
      have hlook := hword ⟨i / 8, by omega, decide_eq_false (Nat.not_le.2 hk)⟩
      dsimp only at hlook
      show (memory ((8 * start + i) / 8)).bytes.getD ((8 * start + i) % 8) 0 = _
      rw [show (8 * start + i) / 8 = start + i / 8 by omega, show (8 * start + i) % 8 = i % 8 by omega, hlook,
        getD_bytes_copiedWord, getD_null, Nat.min_eq_right hdata]
      rfl
    · dsimp only at hk ⊢
      have hslot := hslots ⟨size.data + k, by omega, decide_eq_true (Nat.le_add_right _ _)⟩
      dsimp only at hslot
      rw [Nat.add_sub_cancel_left, ← Nat.add_assoc] at hslot
      exact hslot.mono (Nat.zero_le lo) (Nat.le_refl hi)
    · refine Value.nested_of_words_lt ?_
      have hsingle := Finset.single_le_sum (f := fun k => (vs k).words) (fun _ _ => Nat.zero_le _)
        (Finset.mem_range.2 hk)
      dsimp only at hsingle ⊢
      omega

/-- What is below a pointer of a block is nested less than deep. -/
lemma Value.nested_ptr {v : Value} {n : ℕ} (h : v.words < n) (k : ℕ) : (v.ptr k).Nested n := by
  cases v with
  | null | capability => trivial
  | object shape data ptrs =>
    by_cases hk : k < shape.words ∧ shape.isPtr k = true
    · have heq : Value.ptr (.object shape data ptrs) k = ptrs ⟨k, hk⟩ := dif_pos hk
      rw [heq]
      exact Value.nested_of_words_lt ((Nat.le_add_left _ _).trans_lt ((Value.words_ptrs_le ⟨k, hk⟩).trans_lt h))
    · have heq : Value.ptr (.object shape data ptrs) k = .null := dif_neg hk
      rw [heq]
      trivial

variable {arena : Arena}

/-- **The struct of a buffer is right behind the pointer to it.** -/
lemma Arena.Holds.findsStruct (h : arena.Holds (value.valueAs block vs size)) (hsize : size.total ≠ 0)
    (hdata : value.dataLen ≤ size.data * 8) (hptrs : value.ptrsLen ≤ size.ptrs)
    (hlt : (value.valueAs block vs size).words < 2 ^ 29) :
    (StructReader.sliceUnchecked (fun k => arena.memory 0 (k + 1)) size).Finds
      (fun k => arena.memory 0 (k + 1)) (value.valueAs block vs size).words value block vs := by
  have htotal : (Shape.struct size).words = size.data + size.ptrs := rfl
  obtain ⟨-, hword, hslots⟩ := Arena.Holds.block h hsize
  have hle : size.data + size.ptrs ≤ (value.valueAs block vs size).words := by
    rw [StructReader.words_valueAs hptrs]
    exact Nat.le_add_right _ _
  have hwords : (value.valueAs block vs size).words = _ := StructReader.words_valueAs hptrs
  constructor
  · rfl
  · intro i hi
    dsimp only [StructReader.sliceUnchecked] at hi ⊢
    omega
  · intro k hk
    dsimp only [StructReader.sliceUnchecked] at hk ⊢
    omega
  · exact hdata
  · exact hptrs
  · intro i hi
    dsimp only [StructReader.sliceUnchecked] at hi
    have hk : i / 8 < size.data := by omega
    have hlook := hword ⟨i / 8, by omega, decide_eq_false (Nat.not_le.2 hk)⟩
    dsimp only [Shape.tagWords] at hlook
    rw [Nat.add_zero, Nat.add_comm] at hlook
    show (arena.memory 0 ((8 * 0 + i) / 8 + 1)).bytes.getD ((8 * 0 + i) % 8) 0 = _
    rw [Nat.mul_zero, Nat.zero_add, hlook, getD_bytes_copiedWord, getD_null, Nat.min_eq_right hdata]
    rfl
  · intro k hk
    dsimp only [StructReader.sliceUnchecked] at hk ⊢
    have hslot := hslots ⟨size.data + k, by omega, decide_eq_true (Nat.le_add_right _ _)⟩
    dsimp only [Shape.tagWords] at hslot
    rw [Nat.add_sub_cancel_left] at hslot
    refine ReadsUnchecked.shift (show ReadsUnchecked _ (0 + 1) (_ + 1) _ _ from hslot) ?_
    omega
  · intro k hk
    refine Value.nested_of_words_lt ?_
    have hsingle := Finset.single_le_sum (f := fun k => (vs k).words) (fun _ _ => Nat.zero_le _)
      (Finset.mem_range.2 hk)
    dsimp only [StructReader.sliceUnchecked] at hsingle ⊢
    omega

variable {list : ListReader} {data : (Shape.list list.elementSize list.elementCount).Data → Word}
  {ptrs : (Shape.list list.elementSize list.elementCount).Slot → Value}

/-- **The elements of a list are right behind the pointer to it**, unless there is a tag in front of them. -/
lemma Arena.Holds.findsList (h : arena.Holds (.object _ data ptrs))
    (huntagged : (Shape.list list.elementSize list.elementCount).tagWords = 0 ∨
      (Shape.list list.elementSize list.elementCount).words = 0)
    (hlt : (Value.object _ data ptrs).words < 2 ^ 29) :
    (ListReader.sliceUnchecked (fun k => arena.memory 0 (k + 1)) list.elementCount list.elementSize).Finds
      (fun k => arena.memory 0 (k + 1)) (Value.object _ data ptrs).words list (.object _ data ptrs) := by
  have hsize := (Shape.list list.elementSize list.elementCount).size_eq
  have hwords : (Value.object _ data ptrs).words = _ := Value.words_object
  -- the block begins behind the root pointer, when it is not empty
  have hblock : (Shape.list list.elementSize list.elementCount).words ≠ 0 →
      (∀ k : (Shape.list list.elementSize list.elementCount).Data, arena.memory 0 (1 + k.1) = data k) ∧
        ∀ k : (Shape.list list.elementSize list.elementCount).Slot, ReadsUnchecked (arena.memory 0) 1
          ((Value.object _ data ptrs).words + 1) (1 + k.1) (ptrs k) := by
    intro hne
    have hzero := huntagged.resolve_right hne
    obtain ⟨-, hword, hslots⟩ := Arena.Holds.block h (by omega)
    rw [hzero] at hword hslots
    exact ⟨hword, hslots⟩
  constructor
  · rfl
  · rfl
  · rfl
  · dsimp only [ListReader.sliceUnchecked]
    omega
  · intro k hk hdata
    dsimp only [ListReader.sliceUnchecked] at hk hdata ⊢
    have hlook := (hblock (by omega)).1 ⟨k, hk, hdata⟩
    have hword : (Value.object _ data ptrs).word k = data ⟨k, hk, hdata⟩ := dif_pos ⟨hk, hdata⟩
    rw [hword, ← hlook]
    dsimp only
    rw [Nat.zero_add, Nat.add_comm]
  · intro k hk hptr
    dsimp only [ListReader.sliceUnchecked] at hk hptr ⊢
    have hslot := (hblock (by omega)).2 ⟨k, hk, hptr⟩
    have hvalue : (Value.object _ data ptrs).ptr k = ptrs ⟨k, hk, hptr⟩ := dif_pos ⟨hk, hptr⟩
    rw [hvalue]
    refine ReadsUnchecked.shift (show ReadsUnchecked _ (0 + 1) (_ + 1) _ _ from hslot) ?_
    dsimp only
    omega
  · intro k
    refine Value.nested_ptr ?_ k
    dsimp only [ListReader.sliceUnchecked]
    omega

/-- **Structs in a list are not right behind the pointer to it**: the first word that is found is the tag. -/
lemma Arena.Holds.beginsLikeTag {size : StructSize} {count : ElementCount}
    {data : (Shape.list (.inlineComposite size) count).Data → Word}
    {ptrs : (Shape.list (.inlineComposite size) count).Slot → Value} (h : arena.Holds (.object _ data ptrs))
    (hsize : size.total ≠ 0) (hcount : count.get ≠ 0)
    (hfinds : (ListReader.sliceUnchecked (fun k => arena.memory 0 (k + 1)) count (.inlineComposite size)).Finds
      (fun k => arena.memory 0 (k + 1)) hi list (.object _ data ptrs)) :
    (Value.object _ data ptrs).BeginsLikeTag size count := by
  have hwords : (Shape.list (.inlineComposite size) count).words = size.total * count.get :=
    Shape.words_structs size count
  have hpos : 0 < (Shape.list (.inlineComposite size) count).words := by
    rw [hwords]
    exact Nat.mul_pos (Nat.pos_of_ne_zero hsize) (Nat.pos_of_ne_zero hcount)
  have hfirst : (Shape.list (.inlineComposite size) count).isPtr 0 = decide (size.data = 0) := by
    show decide (size.data ≤ 0 % size.total) = _
    rw [Nat.zero_mod]
    exact decide_eq_decide.2 Nat.le_zero
  -- the tag is the word in front of the block
  have hpointed := (Arena.Holds.block h (Nat.succ_ne_zero _)).1
  obtain ⟨-, -, -, -, hkind, htagSize, htagCount, -, -⟩ := hpointed
  rw [Value.BeginsLikeTag]
  by_cases hdata : size.data = 0
  · rw [if_pos hdata]
    have hread := hfinds.reads 0 hpos (hfirst.trans (decide_eq_true hdata))
    generalize (Value.object _ data ptrs).ptr 0 = first at hread ⊢
    cases hread with
    | null hnull =>
      refine absurd ?_ hsize
      rw [← htagSize, show 1 + _ - 1 = 1 from rfl, show arena.memory 0 1 = Word.null from hnull]
      decide
    | @object _ _ shape _ _ _ hpointed' _ _ _ =>
      cases shape with
      | struct size' =>
        obtain ⟨-, hsize', -⟩ := hpointed'
        exact congrArg (fun s => some (Shape.struct s)) (hsize'.symm.trans htagSize)
      | list size' =>
        exact absurd (hpointed'.kind_list.symm.trans hkind) (by decide)
  · rw [if_neg hdata]
    have hword := hfinds.word 0 hpos (hfirst.trans (decide_eq_false hdata))
    rw [← hword]
    exact ⟨hkind, htagSize, htagCount⟩

end Unchecked

end Recapn.Ptr

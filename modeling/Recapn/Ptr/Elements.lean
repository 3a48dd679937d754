/-
# Elements of data lists

The elements of a list of data are slots behind its start: bits for a list of bits, and numbers at
byte offsets that are computed from the size of an element.  The same accessors serve lists of
structs, whose first data word they see as the element.
-/
import Recapn.Ptr.Slots
import Recapn.Ptr.Verdict
import Recapn.Ptr.Promotion

namespace Recapn.Ptr

open Recapn.Lib Recapn.Lib.Prog

/-! ## Slots of elements -/

/-- `Data::ELEMENT_SIZE`. -/
def DataType.elementSize : DataType → ElementSize
  | .bool => .bit
  | .u8 => .byte
  | .u16 => .twoBytes
  | .u32 => .fourBytes
  | .u64 => .eightBytes

/-- The slot, from the start of the list on, that an element is in.  For numbers it is made of the
offset of the element in bytes (`index_to_offset`), which must be aligned. -/
def elementSlot {ε σ : Type} (type : DataType) (size : ElementSize) (index : ℕ) : Prog ε σ ℕ :=
  match type with
  | .bool => pure index
  | type => do
    Prog.require (type.bytes ∣ size.bits * index / 8)
    pure (size.bits * index / 8 / type.bytes)

namespace ListBuilder

/-- `ListBuilder::data_unchecked`. -/
def dataUnchecked {ε : Type} (self : ListBuilder) (type : DataType) (index : ℕ) : Prog ε Arena ℕ := do
  let slot ← elementSlot type self.elementSize index
  let word ← Arena.read (self.ptr.offset (type.begins slot / 64))
  pure (type.read word slot)

/-- `ListBuilder::set_data_unchecked`. -/
def setDataUnchecked {ε : Type} (self : ListBuilder) (type : DataType) (index value : ℕ) :
    Prog ε Arena Unit := do
  let slot ← elementSlot type self.elementSize index
  let word ← Arena.read (self.ptr.offset (type.begins slot / 64))
  Arena.writeSection (self.ptr.offset (type.begins slot / 64)) 1 fun _ => type.write word slot value

end ListBuilder

/-- `ListReader::data_unchecked`. -/
def ListReader.dataUnchecked {ε σ : Type} (self : ListReader) (type : DataType) (index : ℕ) :
    Prog ε σ ℕ := do
  let slot ← elementSlot type self.elementSize index
  let word ← self.reader.sectionSlice (self.ptr + type.begins slot / 64) 1
  pure (type.read (word 0) slot)

/-- `ObjectBuilder::as_reader`. -/
def ObjectBuilder.asReader (self : ObjectBuilder) (a : Arena) : Option ObjectReader :=
  (a.segments[self.segment]?).map fun s => .inSegment a.toRead self.segment s.segment

/-- `ListBuilder::as_reader`. -/
def ListBuilder.asReader (self : ListBuilder) (a : Arena) : Option ListReader :=
  (self.builder.asReader a).map fun reader =>
    ⟨self.ptr.pos, reader, self.elementCount, 2 ^ 32 - 1, self.elementSize⟩

/-! ## Lists that hold elements of a type -/

/-- The list has elements of the type, or structs with a data word in front, and it is in its
segment. -/
structure ListBuilder.Holds (l : ListBuilder) (type : DataType) (a : Arena) : Prop where
  size : l.elementSize = type.elementSize ∨
    type ≠ .bool ∧ ∃ size, l.elementSize = .inlineComposite size ∧ 0 < size.data
  segment : l.builder.segment = l.ptr.segment
  segment_lt : l.ptr.segment < a.segments.length
  fits : 64 * l.ptr.pos + l.elementSize.bits * l.elementCount.get ≤ 64 * a.len l.ptr.segment

/-- The law of elements: what was written to one is read again, from the builder and from its
reader, the other elements are what they were, and no bit changes that is not one of the element. -/
structure ListBuilder.WritesElement (l : ListBuilder) (type : DataType) (i value : ℕ) (a : Arena) :
    Prop where
  law : ∃ slot a' reader, (elementSlot type l.elementSize i : Prog Empty Unit ℕ) = pure slot ∧
    (l.setDataUnchecked type i value : Prog Empty Arena Unit) a = .ok () a' ∧
    KeepsBits (slotBits l.ptr type slot) a a' ∧ l.asReader a' = some reader ∧
    ∀ j < l.elementCount.get, ∃ v,
      (l.dataUnchecked type j : Prog Empty Arena ℕ) a = .ok v a ∧
      (l.dataUnchecked type j : Prog Empty Arena ℕ) a' = .ok (if j = i then value else v) a' ∧
      (reader.dataUnchecked type j : Prog Empty Unit ℕ) = pure (if j = i then value else v)

section Elements

variable {l : ListBuilder} {type : DataType} {a : Arena} {i j slot slot' value : ℕ}
  {start : SegmentRef}

/-- Different slots have no bit in common. -/
lemma disjoint_slotBits (hne : slot ≠ slot') :
    Disjoint (slotBits start type slot) (slotBits start type slot') := by
  rw [Set.disjoint_left]
  rintro ⟨r, k⟩ ⟨hr, hle, hlt⟩ ⟨hr', hle', hlt'⟩
  have hplace : type.begins slot / 64 = type.begins slot' / 64 := offset_inj (hr.symm.trans hr')
  simp only at hle hlt hle' hlt'
  -- in one word, and less than a slot apart
  have hnear : type.begins slot < type.begins slot' + type.bits ∧
      type.begins slot' < type.begins slot + type.bits := by omega
  have hpos := type.bits_pos
  have hstep : ∀ m n : ℕ, m < n → type.begins m + type.bits ≤ type.begins n := by
    intro m n hmn
    exact Nat.mul_le_mul_left type.bits hmn
  rcases Nat.lt_or_gt_of_ne hne with h | h
  · have hfar := hstep _ _ h
    omega
  · have hfar := hstep _ _ h
    omega

/-- The offset of an element of so many bits for each of its slots. -/
lemma elementSlot_eq {ε σ : Type} {size : ElementSize} {n : ℕ} (hne : type ≠ .bool)
    (hbits : size.bits = type.bits * n) (k : ℕ) :
    (elementSlot type size k : Prog ε σ ℕ) = pure (n * k) := by
  obtain ⟨hwidth, hpos⟩ := DataType.bits_of_ne_bool hne
  have hoffset : size.bits * k / 8 = type.bytes * (n * k) := by
    rw [hbits, hwidth, Nat.mul_assoc, Nat.mul_assoc, Nat.mul_div_cancel_left _ (by decide)]
  have hslot : (elementSlot type size k : Prog ε σ ℕ) = (Prog.require
      (type.bytes ∣ size.bits * k / 8) >>= fun _ => pure (size.bits * k / 8 / type.bytes)) := by
    cases type with
    | bool => exact absurd rfl hne
    | _ => rfl
  rw [hslot, hoffset, require_of (Nat.dvd_mul_right _ _), pure_bind_eq,
    Nat.mul_div_cancel_left _ hpos]

/-- Where the elements are: each has its own slots, and its first one is inside of the list. -/
lemma ListBuilder.Holds.slots (h : l.Holds type a) : ∃ n, 0 < n ∧
    l.elementSize.bits = type.bits * n ∧ ∀ k,
      (elementSlot type l.elementSize k : Prog Empty Arena ℕ) = pure (n * k) ∧
      (elementSlot type l.elementSize k : Prog Empty Unit ℕ) = pure (n * k) := by
  rcases h.size with hsize | ⟨hne, size, hsize, hdata⟩
  · have hbits : l.elementSize.bits = type.bits * 1 := by
      rw [hsize]
      cases type <;> rfl
    refine ⟨1, Nat.one_pos, hbits, fun k => ?_⟩
    by_cases hbool : type = .bool
    · subst hbool
      rw [Nat.one_mul]
      exact ⟨rfl, rfl⟩
    · exact ⟨elementSlot_eq hbool hbits k, elementSlot_eq hbool hbits k⟩
  · -- a struct has at least one word, which is some slots
    obtain ⟨m, hm, hword⟩ : ∃ m, 0 < m ∧ 64 = type.bits * m := by
      cases type with
      | bool => exact absurd rfl hne
      | u8 => exact ⟨8, by decide, rfl⟩
      | u16 => exact ⟨4, by decide, rfl⟩
      | u32 => exact ⟨2, by decide, rfl⟩
      | u64 => exact ⟨1, by decide, rfl⟩
    have htotal : 0 < size.total := Nat.add_pos_left hdata _
    have hbits : l.elementSize.bits = type.bits * (m * size.total) := by
      rw [hsize, ← Nat.mul_assoc, ← hword, Nat.mul_comm]
      rfl
    exact ⟨m * size.total, Nat.mul_pos hm htotal, hbits, fun k =>
      ⟨elementSlot_eq hne hbits k, elementSlot_eq hne hbits k⟩⟩

/-- The word with the slot of an element is in the segment of the list. -/
lemma ListBuilder.Holds.lt_len (h : l.Holds type a) {n : ℕ} (hn : 0 < n)
    (hbits : l.elementSize.bits = type.bits * n) (hi : i < l.elementCount.get) :
    l.ptr.pos + type.begins (n * i) / 64 < a.len l.ptr.segment := by
  have hfits := h.fits
  have hpos := type.bits_pos
  have hend : type.bits * (n * i) + type.bits ≤ l.elementSize.bits * l.elementCount.get := by
    rw [hbits, Nat.mul_assoc]
    calc type.bits * (n * i) + type.bits = type.bits * (n * i + 1) := rfl
      _ ≤ type.bits * (n * i + n) := Nat.mul_le_mul_left _ (Nat.add_le_add_left hn _)
      _ = type.bits * (n * (i + 1)) := rfl
      _ ≤ type.bits * (n * l.elementCount.get) :=
        Nat.mul_le_mul_left _ (Nat.mul_le_mul_left _ hi)
  show l.ptr.pos + type.bits * (n * i) / 64 < a.len l.ptr.segment
  omega

/-- An element is the slot that it is in. -/
lemma ListBuilder.dataUnchecked_eq
    (hslot : (elementSlot type l.elementSize i : Prog Empty Arena ℕ) = pure slot)
    (hlt : l.ptr.pos + type.begins slot / 64 < a.len l.ptr.segment) :
    (l.dataUnchecked type i : Prog Empty Arena ℕ) a = .ok (a.readSlot l.ptr type slot) a := by
  have hread : (Arena.read (l.ptr.offset (type.begins slot / 64)) : Prog Empty Arena Word) a =
      .ok _ a := if_pos hlt
  rw [dataUnchecked, hslot, pure_bind_eq, bind_of_ok hread]
  rfl

lemma ListBuilder.setDataUnchecked_eq
    (hslot : (elementSlot type l.elementSize i : Prog Empty Arena ℕ) = pure slot)
    (hlt : l.ptr.pos + type.begins slot / 64 < a.len l.ptr.segment) :
    (l.setDataUnchecked type i value : Prog Empty Arena Unit) a =
      .ok () (a.setSlot l.ptr type slot value) := by
  have hread : (Arena.read (l.ptr.offset (type.begins slot / 64)) : Prog Empty Arena Word) a =
      .ok _ a := if_pos hlt
  rw [setDataUnchecked, hslot, pure_bind_eq, bind_of_ok hread]
  exact if_pos (Nat.succ_le_of_lt hlt)

/-- The reader of a list sees its words. -/
lemma ListBuilder.Holds.reader (h : l.Holds type a) :
    ∃ reader, l.asReader a = some reader ∧ reader.elementSize = l.elementSize ∧
      ∀ k slot, (elementSlot type l.elementSize k : Prog Empty Unit ℕ) = pure slot →
        l.ptr.pos + type.begins slot / 64 < a.len l.ptr.segment →
        (reader.dataUnchecked type k : Prog Empty Unit ℕ) = pure (a.readSlot l.ptr type slot) := by
  have hget := List.getElem?_eq_getElem h.segment_lt
  refine ⟨⟨l.ptr.pos, .inSegment a.toRead l.ptr.segment (a.segments.get ⟨l.ptr.segment, h.segment_lt⟩).segment,
    l.elementCount, 2 ^ 32 - 1, l.elementSize⟩, ?_, rfl, ?_⟩
  · rw [asReader, ObjectBuilder.asReader, h.segment, hget]
    rfl
  · intro k slot hslot hlt
    rw [Arena.len, hget] at hlt
    rw [ListReader.dataUnchecked, hslot, pure_bind_eq, sectionSlice_eq_pure (by exact hlt),
      pure_bind_eq, Arena.readSlot, Arena.word, show (l.ptr.offset (type.begins slot / 64)).segment =
      l.ptr.segment from rfl, hget]
    rfl

/-- **The law of elements.** -/
theorem ListBuilder.writesElement (hholds : l.Holds type a) (hi : i < l.elementCount.get)
    (hvalue : value < 2 ^ type.bits) : l.WritesElement type i value a := by
  obtain ⟨n, hn, hbits, hslot⟩ := hholds.slots
  have hlt := hholds.lt_len hn hbits hi
  have hkeeps := Arena.keepsBits_setSlot hlt hvalue
  have hholds' : l.Holds type (a.setSlot l.ptr type (n * i) value) := by
    refine ⟨hholds.size, hholds.segment, ?_, ?_⟩
    · rw [hkeeps.length_eq]
      exact hholds.segment_lt
    · rw [hkeeps.len_eq]
      exact hholds.fits
  obtain ⟨reader, hreader, -, hreads⟩ := hholds'.reader
  refine ⟨n * i, _, reader, (hslot i).2, setDataUnchecked_eq (hslot i).1 hlt, hkeeps, hreader, ?_⟩
  intro j hj
  have hlt' := hholds.lt_len hn hbits hj
  have hlt'' := hholds'.lt_len hn hbits hj
  have hvalue' : (a.setSlot l.ptr type (n * i) value).readSlot l.ptr type (n * j) =
      if j = i then value else a.readSlot l.ptr type (n * j) := by
    by_cases hji : j = i
    · rw [if_pos hji, hji, Arena.readSlot_setSlot hlt hvalue]
    · rw [if_neg hji]
      refine hkeeps.readSlot_eq (disjoint_slotBits fun heq => hji ?_)
      exact Nat.eq_of_mul_eq_mul_left hn heq
  refine ⟨a.readSlot l.ptr type (n * j), dataUnchecked_eq (hslot j).1 hlt', ?_, ?_⟩
  · rw [dataUnchecked_eq (hslot j).1 hlt'', hvalue']
  · rw [hreads j _ (hslot j).2 hlt'', hvalue']

end Elements

/-- A list of three numbers of 16 bits. -/
def threeNumbers : ListBuilder := ⟨⟨0⟩, ⟨0, 1⟩, .twoBytes, ⟨3, U29.three_lt⟩⟩

lemma holds_threeNumbers : threeNumbers.Holds .u16 oneWordArena :=
  ⟨Or.inl rfl, rfl, Nat.one_pos, (by decide : 64 * 1 + 8 * 2 * 3 ≤ 64 * 16)⟩

theorem ListBuilder.writesElement_threeNumbers : threeNumbers.WritesElement .u16 1 5 oneWordArena :=
  ListBuilder.writesElement holds_threeNumbers (by decide) (by decide)

end Recapn.Ptr

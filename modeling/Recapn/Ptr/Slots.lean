/-
# Fields that are checked against their struct

A reader and a builder of a struct know how long the data section is, and look up a field only when
its slot is in there.  What is checked is where the slot begins.  In a struct of whole words that is
enough, because a slot that begins inside ends inside.  The view of a list element as a struct may
be shorter than the slot.  And the product of the slot and its width is taken in 64 bits, where it
may wrap around.
-/
import Recapn.Ptr.Fields
import Recapn.Ptr.Clearing

namespace Recapn.Ptr

open Recapn.Lib Recapn.Lib.Prog

/-! ## Slots -/

namespace DataType

/-- `slot * size_of::<Self>()`, as it is compared with the length of the data section.  For `bool`
it is the byte with the bit. -/
def slotByteOffset (type : DataType) (slot : ℕ) : ℕ :=
  match type with
  | .bool => slot / 8
  | type => slot * type.bytes % 2 ^ 64

/-- The slot is inside of a data section of so many bytes. -/
def Inside (type : DataType) (slot len : ℕ) : Prop := type.begins slot + type.bits ≤ 8 * len

/-- The slot begins in the data section, and ends behind it. -/
def Straddles (type : DataType) (slot len : ℕ) : Prop :=
  slot * type.bytes < len ∧ len < slot * type.bytes + type.bytes

/-- The place of the slot is no number of 64 bits, and what is left of it is in the data section. -/
def Wraps (type : DataType) (slot len : ℕ) : Prop :=
  2 ^ 64 ≤ slot * type.bytes ∧ slot * type.bytes % 2 ^ 64 < len

section Slots

variable {type : DataType} {slot len : ℕ}

lemma not_straddles_bool : ¬ DataType.bool.Straddles slot len := fun h =>
  absurd h.2 (Nat.not_lt.2 (Nat.le_of_lt h.1))

lemma not_wraps_bool : ¬ DataType.bool.Wraps slot len := fun h =>
  absurd h.1 (Nat.not_le.2 (by
    rw [show slot * DataType.bool.bytes = 0 from Nat.mul_zero slot]
    decide))

/-- The numbers have some bytes. -/
lemma bits_of_ne_bool (h : type ≠ .bool) : type.bits = 8 * type.bytes ∧ 0 < type.bytes := by
  cases type with
  | bool => exact absurd rfl h
  | _ => exact ⟨rfl, by decide⟩

lemma begins_of_ne_bool (h : type ≠ .bool) : type.begins slot = 8 * (slot * type.bytes) := by
  rw [begins, (bits_of_ne_bool h).1, Nat.mul_assoc, Nat.mul_comm type.bytes]

lemma inside_of_ne_bool (h : type ≠ .bool) :
    type.Inside slot len ↔ slot * type.bytes + type.bytes ≤ len := by
  rw [Inside, begins_of_ne_bool h, (bits_of_ne_bool h).1]
  omega

lemma not_inside_of_wraps (hlen : len < 2 ^ 64) (h : type.Wraps slot len) :
    ¬ type.Inside slot len := by
  have hne : type ≠ .bool := by
    rintro rfl
    exact not_wraps_bool h
  have hle := h.1
  rw [inside_of_ne_bool hne]
  omega

/-- The slots that pass the check. -/
lemma slotByteOffset_lt_iff (hlen : len < 2 ^ 64) :
    type.slotByteOffset slot < len ↔
      type.Inside slot len ∨ type.Straddles slot len ∨ type.Wraps slot len := by
  by_cases hbool : type = .bool
  · subst hbool
    rw [or_iff_left (not_or.2 ⟨not_straddles_bool, not_wraps_bool⟩)]
    show slot / 8 < len ↔ 1 * slot + 1 ≤ 8 * len
    omega
  · have hoffset : type.slotByteOffset slot = slot * type.bytes % 2 ^ 64 := by
      cases type with
      | bool => exact absurd rfl hbool
      | _ => rfl
    have hpos := (bits_of_ne_bool hbool).2
    rw [hoffset, inside_of_ne_bool hbool, Straddles, Wraps]
    omega

end Slots

end DataType

/-! ## Words with slots -/

/-- The bits of a slot, which counts from a place. -/
def slotBits (start : SegmentRef) (type : DataType) (slot : ℕ) : Set (SegmentRef × ℕ) :=
  {b | b.1 = start.offset (type.begins slot / 64) ∧ type.begins slot % 64 ≤ b.2 ∧
    b.2 < type.begins slot % 64 + type.bits}

/-- Bits besides these are what they were, and so are the segments. -/
structure KeepsBits (B : Set (SegmentRef × ℕ)) (a a' : Arena) : Prop where
  length_eq : a'.segments.length = a.segments.length
  len_eq : a'.len = a.len
  used_eq : a'.used = a.used
  same : ∀ b, b ∉ B → (a'.word b.1).bit b.2 = (a.word b.1).bit b.2

section Words

variable {a : Arena} {start : SegmentRef} {type : DataType} {slot value : ℕ}

/-- The arena after a slot was written. -/
def Arena.setSlot (a : Arena) (start : SegmentRef) (type : DataType) (slot value : ℕ) : Arena :=
  a.write (start.offset (type.begins slot / 64)) 1 fun _ =>
    type.write (a.word (start.offset (type.begins slot / 64))) slot value

/-- What a slot reads as in an arena. -/
def Arena.readSlot (a : Arena) (start : SegmentRef) (type : DataType) (slot : ℕ) : ℕ :=
  type.read (a.word (start.offset (type.begins slot / 64))) slot

lemma Arena.word_setSlot (hlt : start.pos + type.begins slot / 64 < a.len start.segment)
    (r : SegmentRef) : (a.setSlot start type slot value).word r =
      if r = start.offset (type.begins slot / 64) then type.write (a.word r) slot value
      else a.word r := by
  have hsegment : start.segment < a.segments.length :=
    lt_length_of_len (r := start.offset (type.begins slot / 64)) hlt
  by_cases hr : r = start.offset (type.begins slot / 64)
  · subst hr
    rw [if_pos rfl]
    exact word_write_of_mem _ _ _ _ hsegment rfl (Nat.le_refl _) (Nat.lt_succ_self _)
  · rw [if_neg hr]
    exact word_write_of_not_mem _ _ _ _ fun h => hr (mem_span_one.1 h)

/-- Only the bits of the slot change. -/
lemma Arena.keepsBits_setSlot (hlt : start.pos + type.begins slot / 64 < a.len start.segment)
    (hvalue : value < 2 ^ type.bits) :
    KeepsBits (slotBits start type slot) a (a.setSlot start type slot value) := by
  refine ⟨length_write _ _ _ _, funext fun i => len_write _ _ _ _ i,
    funext fun i => used_write _ _ _ _ i, ?_⟩
  rintro ⟨r, i⟩ hout
  rw [word_setSlot hlt]
  by_cases hr : r = start.offset (type.begins slot / 64)
  · rw [if_pos hr, DataType.bit_write type _ slot hvalue, if_neg fun hi => hout ⟨hr, hi⟩]
  · rw [if_neg hr]

/-- What was written is read again. -/
lemma Arena.readSlot_setSlot (hlt : start.pos + type.begins slot / 64 < a.len start.segment)
    (hvalue : value < 2 ^ type.bits) : (a.setSlot start type slot value).readSlot start type slot = value := by
  rw [Arena.readSlot, word_setSlot hlt, if_pos rfl]
  exact DataType.read_write type _ slot hvalue

/-- A slot reads the same while its bits do not change. -/
lemma KeepsBits.readSlot_eq {B : Set (SegmentRef × ℕ)} {a' : Arena} (h : KeepsBits B a a')
    (hdisjoint : Disjoint (slotBits start type slot) B) :
    a'.readSlot start type slot = a.readSlot start type slot := by
  refine DataType.read_congr type slot fun i hle hlt => h.same (_, i) ?_
  exact Set.disjoint_left.1 hdisjoint ⟨rfl, hle, hlt⟩

end Words

/-! ## Builders of structs -/

namespace StructBuilder

/-- `StructBuilder::set_field_with_default`. -/
def setFieldWithDefault {ε : Type} (self : StructBuilder) (type : DataType)
    (slot value default : ℕ) : Prog ε Arena Unit :=
  if type.slotByteOffset slot < self.dataLen then
    self.setFieldWithDefaultUnchecked type slot value default
  else pure ()

/-- `StructBuilder::data_field_with_default`. -/
def dataFieldWithDefault {ε : Type} (self : StructBuilder) (type : DataType) (slot default : ℕ) :
    Prog ε Arena ℕ :=
  if type.slotByteOffset slot < self.dataLen then do
    let word ← Arena.read (self.dataStart.offset (type.begins slot / 64))
    pure (type.read word slot ^^^ default)
  else pure default

/-- The data section has whole words, and they are in the arena. -/
structure Stands (s : StructBuilder) (a : Arena) : Prop where
  whole : 8 ∣ s.dataLen
  fits : 8 * s.dataStart.pos + s.dataLen ≤ 8 * a.len s.dataStart.segment

/-- The law of a field: what was written to it is read again, with the same default, and neither
another bit nor a field in other bits changes.  A field that is not in the struct is not written. -/
structure WritesField (s : StructBuilder) (type : DataType) (slot value default : ℕ) (a : Arena) :
    Prop where
  inside : type.Inside slot s.dataLen → ∃ a',
    (s.setFieldWithDefault type slot value default : Prog Empty Arena Unit) a = .ok () a' ∧
    (s.dataFieldWithDefault type slot default : Prog Empty Arena ℕ) a' = .ok value a' ∧
    KeepsBits (slotBits s.dataStart type slot) a a' ∧
    ∀ type' slot' default' v, Disjoint (slotBits s.dataStart type' slot')
        (slotBits s.dataStart type slot) →
      ((s.dataFieldWithDefault type' slot' default' : Prog Empty Arena ℕ) a' = .ok v a' ↔
        (s.dataFieldWithDefault type' slot' default' : Prog Empty Arena ℕ) a = .ok v a)
  outside : ¬ type.Inside slot s.dataLen →
    (s.setFieldWithDefault type slot value default : Prog Empty Arena Unit) a = .ok () a

section Law

variable {self : StructBuilder} {a : Arena} {type : DataType} {slot value default : ℕ}

lemma Stands.dataLen_lt (h : self.Stands a) : self.dataLen < 2 ^ 64 := by
  have hlen := a.len_lt self.dataStart.segment
  have hfits := h.fits
  omega

/-- A slot that begins in whole words ends there. -/
lemma Stands.not_straddles (h : self.Stands a) : ¬ type.Straddles slot self.dataLen := by
  obtain ⟨n, hn⟩ := h.whole
  rintro ⟨hlt, hgt⟩
  rw [hn] at hlt hgt
  cases type with
  | bool => exact DataType.not_straddles_bool ⟨hlt, hgt⟩
  | _ =>
    simp only [DataType.bytes] at hlt hgt
    omega

/-- The word with a slot of the struct is in its segment. -/
lemma Stands.lt_len (h : self.Stands a) (hinside : type.Inside slot self.dataLen) :
    self.dataStart.pos + type.begins slot / 64 < a.len self.dataStart.segment := by
  have hfits := h.fits
  have hpos := type.bits_pos
  have hle : type.begins slot + type.bits ≤ 8 * self.dataLen := hinside
  omega

lemma setField_of_inside (hlen : self.dataLen < 2 ^ 64) (hinside : type.Inside slot self.dataLen)
    (hlt : self.dataStart.pos + type.begins slot / 64 < a.len self.dataStart.segment) :
    (self.setFieldWithDefault type slot value default : Prog Empty Arena Unit) a =
      .ok () (a.setSlot self.dataStart type slot (value ^^^ default)) := by
  refine (if_pos_apply ((DataType.slotByteOffset_lt_iff hlen).2 (Or.inl hinside)) _ _ _).trans ?_
  have hread : (Arena.read (self.dataStart.offset (type.begins slot / 64)) : Prog Empty Arena Word) a =
      .ok _ a := if_pos hlt
  refine (bind_of_ok hread).trans ?_
  exact if_pos (Nat.succ_le_of_lt hlt)

lemma dataField_of_inside (hlen : self.dataLen < 2 ^ 64) (hinside : type.Inside slot self.dataLen)
    (hlt : self.dataStart.pos + type.begins slot / 64 < a.len self.dataStart.segment) :
    (self.dataFieldWithDefault type slot default : Prog Empty Arena ℕ) a =
      .ok (a.readSlot self.dataStart type slot ^^^ default) a := by
  refine (if_pos_apply ((DataType.slotByteOffset_lt_iff hlen).2 (Or.inl hinside)) _ _ _).trans ?_
  have hread : (Arena.read (self.dataStart.offset (type.begins slot / 64)) : Prog Empty Arena Word) a =
      .ok _ a := if_pos hlt
  exact (bind_of_ok hread).trans rfl

/-- A place that wraps around is far behind every segment. -/
lemma not_lt_len_of_wraps (hwraps : type.Wraps slot self.dataLen) :
    ¬ self.dataStart.pos + type.begins slot / 64 < a.len self.dataStart.segment := by
  have hne : type ≠ .bool := by
    rintro rfl
    exact DataType.not_wraps_bool hwraps
  have hlen := a.len_lt self.dataStart.segment
  have hle := hwraps.1
  rw [DataType.begins_of_ne_bool hne]
  omega

/-- A field reads the same in an arena with the same bits in its slot. -/
lemma dataField_congr {a' : Arena} {B : Set (SegmentRef × ℕ)} (h : KeepsBits B a a')
    (hdisjoint : Disjoint (slotBits self.dataStart type slot) B) (v : ℕ) :
    (self.dataFieldWithDefault type slot default : Prog Empty Arena ℕ) a' = .ok v a' ↔
      (self.dataFieldWithDefault type slot default : Prog Empty Arena ℕ) a = .ok v a := by
  have hread : ∀ b : Arena, (self.dataFieldWithDefault type slot default : Prog Empty Arena ℕ) b =
      .ok v b ↔ if type.slotByteOffset slot < self.dataLen then
        self.dataStart.pos + type.begins slot / 64 < b.len self.dataStart.segment ∧
          b.readSlot self.dataStart type slot ^^^ default = v
        else default = v := by
    intro b
    by_cases hcheck : type.slotByteOffset slot < self.dataLen
    · rw [dataFieldWithDefault, if_pos hcheck, if_pos hcheck]
      by_cases hlt : self.dataStart.pos + type.begins slot / 64 < b.len self.dataStart.segment
      · have hok : (Arena.read (self.dataStart.offset (type.begins slot / 64)) :
            Prog Empty Arena Word) b = .ok _ b := if_pos hlt
        rw [bind_of_ok hok, pure_eq_ok, and_iff_left rfl, and_iff_right hlt]
        rfl
      · have hhalt : (Arena.read (self.dataStart.offset (type.begins slot / 64)) :
            Prog Empty Arena Word) b = .halt .undefined := if_neg hlt
        rw [bind_of_halt hhalt]
        exact ⟨fun heq => (nomatch heq), fun heq => absurd heq.1 hlt⟩
    · rw [dataFieldWithDefault, if_neg hcheck, if_neg hcheck, pure_eq_ok, and_iff_left rfl]
  rw [hread a', hread a, h.len_eq, h.readSlot_eq hdisjoint]

/-- **The law of fields holds for every slot whose place is computed without wrapping around into
the struct.** -/
theorem writesField_iff (hstands : self.Stands a) (hvalue : value < 2 ^ type.bits)
    (hdefault : default < 2 ^ type.bits) :
    self.WritesField type slot value default a ↔ ¬ type.Wraps slot self.dataLen := by
  have hlen := hstands.dataLen_lt
  constructor
  · intro h hwraps
    have hrun := h.outside (DataType.not_inside_of_wraps hlen hwraps)
    replace hrun := (if_pos_apply
      ((DataType.slotByteOffset_lt_iff hlen).2 (Or.inr (Or.inr hwraps))) _ _ _).symm.trans hrun
    have hhalt : (Arena.read (self.dataStart.offset (type.begins slot / 64)) :
        Prog Empty Arena Word) a = .halt .undefined := if_neg (not_lt_len_of_wraps hwraps)
    replace hrun := (bind_of_halt hhalt).symm.trans hrun
    cases hrun
  · intro hwraps
    constructor
    · intro hinside
      have hlt := hstands.lt_len hinside
      have hxor : value ^^^ default < 2 ^ type.bits := Nat.xor_lt_two_pow hvalue hdefault
      have hkeeps := Arena.keepsBits_setSlot hlt hxor
      refine ⟨_, setField_of_inside hlen hinside hlt, ?_, hkeeps, ?_⟩
      · rw [dataField_of_inside hlen hinside (by rw [hkeeps.len_eq]; exact hlt),
          Arena.readSlot_setSlot hlt hxor, Nat.xor_assoc, Nat.xor_self, Nat.xor_zero]
      · intro type' slot' default' v hdisjoint
        exact dataField_congr hkeeps hdisjoint v
    · intro hinside
      refine if_neg_apply (fun hcheck => ?_) _ _ _
      rcases (DataType.slotByteOffset_lt_iff hlen).1 hcheck with h | h | h
      · exact hinside h
      · exact hstands.not_straddles h
      · exact hwraps h

end Law

end StructBuilder

/-- A struct of one data word, behind its pointer. -/
def oneWordArena : Arena :=
  wordsArena [StructPtr.new I30.zero oneWord, ⟨7, 0, 0, 0, 0, 0, 0, 0⟩] ⟨2, Nat.two_pos, U29.two_lt⟩

def oneWordBuilder : StructBuilder := ⟨⟨0⟩, ⟨0, 1⟩, ⟨0, 2⟩, 8, 0⟩

lemma stands_oneWordBuilder : oneWordBuilder.Stands oneWordArena :=
  ⟨⟨1, rfl⟩, (by decide : 8 * 1 + 8 ≤ 8 * 16)⟩

/-- The second 16 bits of the word are set. -/
theorem StructBuilder.writesField_iff_second : oneWordBuilder.WritesField .u16 1 5 3 oneWordArena :=
  (StructBuilder.writesField_iff stands_oneWordBuilder (by decide) (by decide)).2
    fun hwraps => absurd hwraps.1 (by decide)

/-- The slot `2 ^ 61` of 64 bits is at the byte `2 ^ 64`, which is taken for the byte 0. -/
theorem StructBuilder.not_writesField :
    oneWordBuilder.Stands oneWordArena ∧ ¬ oneWordBuilder.WritesField .u64 (2 ^ 61) 1 0 oneWordArena := by
  refine ⟨stands_oneWordBuilder, fun h => ?_⟩
  have hrun := h.outside (by
    show ¬ 64 * 2 ^ 61 + 64 ≤ 8 * 8
    decide)
  have hhalt : (oneWordBuilder.setFieldWithDefault .u64 (2 ^ 61) 1 0 : Prog Empty Arena Unit)
      oneWordArena = .halt .undefined := rfl
  cases hhalt.symm.trans hrun

/-! ## Readers of structs -/

/-- `ElementSize::bytes_and_ptrs`. -/
def ElementSize.bytesAndPtrs : ElementSize → ℕ × ℕ
  | .void => (0, 0)
  | .bit => (0, 0)
  | .byte => (1, 0)
  | .twoBytes => (2, 0)
  | .fourBytes => (4, 0)
  | .eightBytes => (8, 0)
  | .pointer => (0, 1)
  | .inlineComposite size => (size.data * 8, size.ptrs)

/-- `ListReader::index_to_offset`, in bytes. -/
def ListReader.indexToOffset (self : ListReader) (index : ℕ) : ℕ := self.elementSize.bits * index / 8

/-- A byte of the memory of the reader. -/
def ObjectReader.byte (self : ObjectReader) (k : ℕ) : Byte := (self.word (k / 8)).bytes.getD (k % 8) 0

/-- `Data::read_unchecked`, in the bytes from the start of the data section on. -/
def DataType.readBytes (type : DataType) (byte : ℕ → Byte) (slot : ℕ) : ℕ :=
  match type with
  | .bool => if byte (slot / 8) &&& (1 <<< (slot % 8).toUInt8) ≠ 0 then 1 else 0
  | type => leValue ((List.range type.bytes).map fun k => byte (slot * type.bytes + k))

/-- The data section of a `StructReader`, in bytes: the view of a list element may begin within a
word. -/
structure DataView where
  reader : ObjectReader
  start : ℕ
  len : ℕ

/-- The data section of a struct. -/
def StructReader.dataView (self : StructReader) : DataView :=
  ⟨self.reader, 8 * self.dataStart, self.dataLen⟩

/-- The data section of the reader that `ListReader::struct_unchecked` gives out. -/
def ListReader.dataView (self : ListReader) (index : ℕ) : DataView :=
  ⟨self.reader, 8 * self.ptr + self.indexToOffset index, self.elementSize.bytesAndPtrs.1⟩

namespace DataView

/-- A byte of the view. -/
def byte (self : DataView) (k : ℕ) : Byte := self.reader.byte (self.start + k)

/-- `StructReader::data_field_with_default`.  The pointer to the slot must not overflow. -/
def dataFieldWithDefault {ε σ : Type} (self : DataView) (type : DataType) (slot default : ℕ) :
    Prog ε σ ℕ :=
  if type.slotByteOffset slot < self.len then do
    Prog.require (slot * type.bytes < 2 ^ 63)
    pure (type.readBytes self.byte slot ^^^ default)
  else pure default

/-- `StructReader::data_field`. -/
def dataField {ε σ : Type} (self : DataView) (type : DataType) (slot : ℕ) : Prog ε σ ℕ :=
  self.dataFieldWithDefault type slot 0

/-- A field of the view is read inside of it: it rests on the bytes of the view alone, it is the
default where the slot is not in the view, and otherwise it is the one of the bytes with zeros
behind them. -/
structure ReadsInside (v : DataView) (type : DataType) (slot default : ℕ) : Prop where
  rests : ∀ reader : ObjectReader,
    (∀ k < v.len, reader.byte (v.start + k) = v.reader.byte (v.start + k)) →
      (DataView.dataFieldWithDefault ⟨reader, v.start, v.len⟩ type slot default : Prog Empty Unit ℕ) =
        v.dataFieldWithDefault type slot default
  outside : ¬ type.Inside slot v.len →
    (v.dataFieldWithDefault type slot default : Prog Empty Unit ℕ) = pure default
  inside : type.Inside slot v.len →
    (v.dataFieldWithDefault type slot default : Prog Empty Unit ℕ) =
      pure (type.readBytes (fun k => if k < v.len then v.byte k else 0) slot ^^^ default)

section Views

variable {v : DataView} {type : DataType} {slot default : ℕ}

/-- What is read rests on the bytes of the slot. -/
lemma readBytes_congr {byte byte' : ℕ → Byte} {len : ℕ} (hinside : type.Inside slot len)
    (h : ∀ k < len, byte' k = byte k) : type.readBytes byte' slot = type.readBytes byte slot := by
  by_cases hbool : type = .bool
  · subst hbool
    have hlt : slot / 8 < len := by
      have hle : 1 * slot + 1 ≤ 8 * len := hinside
      omega
    show (if byte' (slot / 8) &&& _ ≠ 0 then 1 else 0) = if byte (slot / 8) &&& _ ≠ 0 then 1 else 0
    rw [h _ hlt]
  · rw [DataType.inside_of_ne_bool hbool] at hinside
    have hread : ∀ byte : ℕ → Byte, type.readBytes byte slot =
        leValue ((List.range type.bytes).map fun k => byte (slot * type.bytes + k)) := by
      intro byte
      cases type with
      | bool => exact absurd rfl hbool
      | _ => rfl
    rw [hread, hread]
    congr 1
    refine List.map_congr_left fun k hk => h _ ?_
    have hlt := List.mem_range.1 hk
    omega

lemma dataField_of_inside (hlen : v.len < 2 ^ 63) (hinside : type.Inside slot v.len) :
    (v.dataFieldWithDefault type slot default : Prog Empty Unit ℕ) =
      pure (type.readBytes v.byte slot ^^^ default) := by
  have hcheck := (DataType.slotByteOffset_lt_iff (by omega)).2 (Or.inl hinside)
  have hsmall : slot * type.bytes < 2 ^ 63 := by
    by_cases hbool : type = .bool
    · subst hbool
      exact Nat.two_pow_pos 63
    · rw [DataType.inside_of_ne_bool hbool] at hinside
      have hpos := (DataType.bits_of_ne_bool hbool).2
      omega
  rw [dataFieldWithDefault, if_pos hcheck, require_of hsmall, pure_bind_eq]

/-- A slot that straddles the end is read all the same. -/
lemma dataField_of_straddles (hlen : v.len < 2 ^ 63) (hstraddles : type.Straddles slot v.len)
    (reader : ObjectReader) :
    (DataView.dataFieldWithDefault ⟨reader, v.start, v.len⟩ type slot default : Prog Empty Unit ℕ) =
      pure (leValue ((List.range type.bytes).map fun k =>
        reader.byte (v.start + (slot * type.bytes + k))) ^^^ default) := by
  have hcheck := (DataType.slotByteOffset_lt_iff (by omega)).2 (Or.inr (Or.inl hstraddles))
  have hsmall : slot * type.bytes < 2 ^ 63 := Nat.lt_trans hstraddles.1 hlen
  rw [dataFieldWithDefault, if_pos hcheck, require_of hsmall, pure_bind_eq]
  cases type with
  | bool => exact absurd hstraddles DataType.not_straddles_bool
  | _ => rfl

/-- A reader of other memory, in which one byte is another. -/
def flipByte (reader : ObjectReader) (address : ℕ) : ObjectReader :=
  ⟨.unchecked fun k => if k = address / 8 then
    (reader.word k).setBytes (address % 8) [~~~ reader.byte address] else reader.word k⟩

lemma byte_flipByte (reader : ObjectReader) (address k : ℕ) :
    (flipByte reader address).byte k = if k = address then ~~~ reader.byte address else reader.byte k := by
  show (if k / 8 = address / 8 then _ else _ : Word).bytes.getD (k % 8) 0 = _
  by_cases hword : k / 8 = address / 8
  · have hfits : address % 8 + [~~~ reader.byte address].length ≤ 8 := by
      show address % 8 + 1 ≤ 8
      omega
    rw [if_pos hword, Word.getD_bytes_setBytes hfits, List.length_singleton]
    by_cases hk : k = address
    · rw [if_pos (by omega), if_pos hk, hk, Nat.sub_self]
      rfl
    · rw [if_neg (by omega), if_neg hk]
      rfl
  · rw [if_neg hword, if_neg (fun hk => hword (congrArg (· / 8) hk))]
    rfl

/-- A slot that straddles the end rests on a byte behind it. -/
lemma not_rests_of_straddles (hlen : v.len < 2 ^ 63) (hstraddles : type.Straddles slot v.len)
    (h : v.ReadsInside type slot default) : False := by
  have hrests := h.rests (flipByte v.reader (v.start + v.len)) (by
    intro k hk
    rw [byte_flipByte, if_neg (by omega)])
  have hours : (v.dataFieldWithDefault type slot default : Prog Empty Unit ℕ) = _ :=
    dataField_of_straddles hlen hstraddles v.reader
  rw [dataField_of_straddles hlen hstraddles, hours] at hrests
  have hvalue := congrFun hrests ()
  rw [pure_apply, pure_apply, Outcome.ok.injEq, and_iff_left rfl] at hvalue
  replace hvalue := congrArg (fun n => (n ^^^ default).testBit (8 * (v.len - slot * type.bytes))) hvalue
  obtain ⟨hlt, hgt⟩ := hstraddles
  have hdiv : 8 * (v.len - slot * type.bytes) / 8 = v.len - slot * type.bytes := by omega
  have hmod : 8 * (v.len - slot * type.bytes) % 8 = 0 := by omega
  have hplace : slot * type.bytes + (v.len - slot * type.bytes) = v.len := by omega
  rw [Nat.xor_assoc, Nat.xor_assoc, Nat.xor_self, Nat.xor_zero, Nat.xor_zero, testBit_leValue,
    testBit_leValue, hdiv, hmod, List.getD_eq_getElem?_getD, List.getD_eq_getElem?_getD,
    List.getElem?_map, List.getElem?_map, List.getElem?_range (by omega)] at hvalue
  replace hvalue : ((flipByte v.reader (v.start + v.len)).byte
      (v.start + (slot * type.bytes + (v.len - slot * type.bytes)))).toNat.testBit 0 =
    (v.reader.byte (v.start + (slot * type.bytes + (v.len - slot * type.bytes)))).toNat.testBit 0 :=
    hvalue
  have hnot := testBit_not (v.reader.byte (v.start + v.len)) 0
  rw [hplace, byte_flipByte, if_pos rfl] at hvalue
  rw [show ((0 : Fin 8) : ℕ) = 0 from rfl, hvalue] at hnot
  exact Bool.not_ne_self _ hnot.symm

/-- **A field is read inside of its struct just when its slot does not straddle the end of the data
section, and its place does not wrap around into it.** -/
theorem readsInside_iff (hlen : v.len < 2 ^ 32) :
    v.ReadsInside type slot default ↔
      ¬ type.Straddles slot v.len ∧ ¬ type.Wraps slot v.len := by
  have hlen₆₃ : v.len < 2 ^ 63 := by omega
  have hlen₆₄ : v.len < 2 ^ 64 := by omega
  constructor
  · intro h
    refine ⟨fun hstraddles => not_rests_of_straddles hlen₆₃ hstraddles h, fun hwraps => ?_⟩
    have houtside := h.outside (DataType.not_inside_of_wraps hlen₆₄ hwraps)
    have hcheck := (DataType.slotByteOffset_lt_iff hlen₆₄).2 (Or.inr (Or.inr hwraps))
    have hle := hwraps.1
    have hhalt : (Prog.require (slot * type.bytes < 2 ^ 63) : Prog Empty Unit Unit) =
        Prog.halt .undefined := if_neg (by omega)
    rw [dataFieldWithDefault, if_pos hcheck, hhalt] at houtside
    cases congrFun houtside ()
  · rintro ⟨hstraddles, hwraps⟩
    have hdefault : ∀ reader : ObjectReader, ¬ type.Inside slot v.len →
        (DataView.dataFieldWithDefault ⟨reader, v.start, v.len⟩ type slot default :
          Prog Empty Unit ℕ) = pure default := by
      intro reader hinside
      refine if_neg fun hcheck => ?_
      rcases (DataType.slotByteOffset_lt_iff hlen₆₄).1 hcheck with h | h | h
      · exact hinside h
      · exact hstraddles h
      · exact hwraps h
    refine ⟨?_, hdefault v.reader, ?_⟩
    · intro reader hbytes
      by_cases hinside : type.Inside slot v.len
      · rw [dataField_of_inside hlen₆₃ hinside,
          dataField_of_inside (v := ⟨reader, v.start, v.len⟩) hlen₆₃ hinside]
        congr 2
        exact readBytes_congr hinside hbytes
      · exact (hdefault reader hinside).trans (hdefault v.reader hinside).symm
    · intro hinside
      rw [dataField_of_inside hlen₆₃ hinside]
      congr 2
      refine (readBytes_congr hinside fun k hk => ?_).symm
      rw [if_pos hk]

end Views

end DataView

/-- A list of two bytes, behind a pointer. -/
def twoBytesList : ListReader :=
  ⟨1, .inSegment (fun _ => none) 0 ⟨fun _ => ⟨1, 2, 3, 4, 5, 6, 7, 8⟩, ⟨2, U29.two_lt⟩⟩,
    ⟨2, U29.two_lt⟩, 64, .byte⟩

/-- The second byte is read as a field of 8 bits. -/
theorem DataView.readsInside_iff_twoBytesList : (twoBytesList.dataView 1).ReadsInside .u8 0 0 :=
  (DataView.readsInside_iff (by decide)).2
    ⟨fun h => absurd h.2 (by decide), fun h => absurd h.1 (by decide)⟩

/-- A field of 16 bits of the second byte is made of it and of the byte behind the list. -/
theorem DataView.not_readsInside : ¬ (twoBytesList.dataView 1).ReadsInside .u16 0 0 := by
  intro h
  have houtside := h.outside (by
    show ¬ 16 * 0 + 16 ≤ 8 * 1
    decide)
  exact absurd (Outcome.ok.inj (congrFun houtside ())).1 (by decide)

end Recapn.Ptr

/-
# Fields in the data section

A field of the data section is a number of bits at a slot, which counts in the width of the field.
What is written is the value, or its difference to the default when the field has one, so a field
whose bits are zero reads as its default.  The same slot number means other bits for another width.
-/
import Recapn.Ptr.Copy

namespace Recapn

/-! ## Bits of a word -/

namespace Word

/-- The bit at a position, counted from the lowest bit of the first byte. -/
def bit (w : Word) (i : ℕ) : Bool := (w.bytes.getD (i / 8) 0).toNat.testBit (i % 8)

/-- The word with other bytes from an offset on. -/
def setBytes (w : Word) (offset : ℕ) (bytes : List Byte) : Word :=
  ofBytes (w.bytes.take offset ++ bytes ++ w.bytes.drop (offset + bytes.length))

@[simp] lemma bit_null (i : ℕ) : null.bit i = false := by
  have hzero : null.bytes.getD (i / 8) 0 = 0 := by
    show ([0, 0, 0, 0, 0, 0, 0, 0] : List Byte).getD (i / 8) 0 = 0
    rw [List.getD_eq_getElem?_getD]
    rcases h : ([0, 0, 0, 0, 0, 0, 0, 0] : List Byte)[i / 8]? with _ | b
    · rfl
    · have hmem := List.mem_of_getElem? h
      simpa using hmem
  rw [bit, hzero]
  exact Nat.zero_testBit _

lemma testBit_byte_of_le (b : Byte) {j : ℕ} (h : 8 ≤ j) : b.toNat.testBit j = false := by
  refine Nat.testBit_lt_two_pow (Nat.lt_of_lt_of_le b.toNat_lt ?_)
  exact Nat.pow_le_pow_right Nat.two_pos h

/-- Words with the same bits are the same. -/
lemma ext_bit {v w : Word} (h : ∀ i < 64, v.bit i = w.bit i) : v = w := by
  refine bytes_injective (List.ext_getElem (by simp) fun k hv hw => ?_)
  have hk : k < 8 := hv
  refine UInt8.toNat_inj.1 (Nat.eq_of_testBit_eq fun j => ?_)
  by_cases hj : j < 8
  · have hbit := h (8 * k + j) (by omega)
    have hdiv : (8 * k + j) / 8 = k := by omega
    have hmod : (8 * k + j) % 8 = j := by omega
    rwa [bit, bit, hdiv, hmod, List.getD_eq_getElem?_getD, List.getD_eq_getElem?_getD,
      List.getElem?_eq_getElem hv, List.getElem?_eq_getElem hw] at hbit
  · rw [testBit_byte_of_le _ (Nat.not_lt.1 hj), testBit_byte_of_le _ (Nat.not_lt.1 hj)]

lemma eq_null_iff_bit {w : Word} : w = null ↔ ∀ i < 64, w.bit i = false := by
  constructor
  · rintro rfl i -
    exact bit_null i
  · intro h
    refine ext_bit fun i hi => ?_
    rw [h i hi, bit_null]

lemma getD_bytes_setBytes {w : Word} {offset : ℕ} {bytes : List Byte}
    (h : offset + bytes.length ≤ 8) (k : ℕ) :
    (w.setBytes offset bytes).bytes.getD k 0 =
      if offset ≤ k ∧ k < offset + bytes.length then bytes.getD (k - offset) 0
      else w.bytes.getD k 0 := by
  have htake : (w.bytes.take offset).length = offset := by
    rw [List.length_take, length_bytes]
    omega
  rw [setBytes, bytes_ofBytes (by simp; omega), List.append_assoc, List.getD_eq_getElem?_getD,
    List.getElem?_append, htake]
  by_cases hbefore : k < offset
  · rw [if_pos hbefore, if_neg (by omega), List.getElem?_take_of_lt hbefore,
      List.getD_eq_getElem?_getD]
  · rw [if_neg hbefore, List.getElem?_append]
    by_cases hinside : k - offset < bytes.length
    · rw [if_pos hinside, if_pos (by omega), List.getD_eq_getElem?_getD]
    · rw [if_neg hinside, if_neg (by omega), List.getElem?_drop, List.getD_eq_getElem?_getD]
      congr 2
      omega

/-- The bits after some bytes were written. -/
lemma bit_setBytes {w : Word} {offset : ℕ} {bytes : List Byte} (h : offset + bytes.length ≤ 8)
    (i : ℕ) :
    (w.setBytes offset bytes).bit i =
      if offset ≤ i / 8 ∧ i / 8 < offset + bytes.length then
        (bytes.getD (i / 8 - offset) 0).toNat.testBit (i % 8)
      else w.bit i := by
  rw [bit, getD_bytes_setBytes h]
  by_cases hi : offset ≤ i / 8 ∧ i / 8 < offset + bytes.length
  · rw [if_pos hi, if_pos hi]
  · rw [if_neg hi, if_neg hi, bit]

end Word

/-- The value of little-endian bytes. -/
def leValue (bytes : List Byte) : ℕ := bytes.foldr (fun b n => b.toNat + 2 ^ 8 * n) 0

/-- The little-endian bytes of a value. -/
def leBytes (size n : ℕ) : List Byte := (List.range size).map (Word.byteOf n)

@[simp] lemma length_leBytes (size n : ℕ) : (leBytes size n).length = size := by simp [leBytes]

/-- A bit of little-endian bytes is a bit of one of them. -/
lemma testBit_leValue (bytes : List Byte) (j : ℕ) :
    (leValue bytes).testBit j = (bytes.getD (j / 8) 0).toNat.testBit (j % 8) := by
  induction bytes generalizing j with
  | nil =>
    show (0 : ℕ).testBit j = (0 : ℕ).testBit (j % 8)
    rw [Nat.zero_testBit, Nat.zero_testBit]
  | cons b bytes ih =>
    show (b.toNat + 2 ^ 8 * leValue bytes).testBit j = _
    rw [Nat.add_comm, Nat.testBit_two_pow_mul_add _ b.toNat_lt]
    by_cases hj : j < 8
    · rw [if_pos hj, Nat.div_eq_of_lt hj, Nat.mod_eq_of_lt hj]
      rfl
    · have hdiv : j / 8 = (j - 8) / 8 + 1 := by omega
      have hmod : j % 8 = (j - 8) % 8 := by omega
      rw [if_neg hj, ih, hdiv, hmod]
      rfl

/-- A bit of one of the bytes is a bit of the value. -/
lemma testBit_leBytes {size n k j : ℕ} (hk : k < size) (hj : j < 8) :
    ((leBytes size n).getD k 0).toNat.testBit j = n.testBit (8 * k + j) := by
  have hget : (leBytes size n).getD k 0 = Word.byteOf n k := by
    rw [leBytes, List.getD_eq_getElem?_getD, List.getElem?_map, List.getElem?_range hk]
    rfl
  rw [hget, Word.toNat_byteOf, Nat.testBit_mod_two_pow, decide_eq_true hj, Bool.true_and,
    Nat.testBit_div_two_pow, Nat.add_comm]

end Recapn

namespace Recapn.Ptr

open Recapn.Lib

/-! ## Types of fields -/

/-- The types that implement `Data`.  The signed and the floating types of a width are written as
the unsigned one. -/
inductive DataType where
  | bool
  | u8
  | u16
  | u32
  | u64
deriving DecidableEq, Repr

namespace DataType

/-- `size_of`, of a number. -/
def bytes : DataType → ℕ
  | bool => 0
  | u8 => 1
  | u16 => 2
  | u32 => 4
  | u64 => 8

/-- The width of a slot. -/
def bits : DataType → ℕ
  | bool => 1
  | type => 8 * type.bytes

/-- The slot begins at this bit of the data section. -/
def begins (type : DataType) (slot : ℕ) : ℕ := type.bits * slot

lemma bits_pos (type : DataType) : 0 < type.bits := by
  cases type <;> decide

/-- A slot lies in one word. -/
lemma begins_mod_add_le (type : DataType) (slot : ℕ) : type.begins slot % 64 + type.bits ≤ 64 := by
  cases type <;> (show _ * slot % 64 + _ ≤ 64; simp only [bits, bytes]; omega)

end DataType

/-- The bit `bitNum` of a byte is set to the lowest one of `value`, as `Data::write_unchecked` of
`bool` does. -/
def setByteBit (byte : Byte) (bitNum : ℕ) (value : ℕ) : Byte :=
  (byte &&& ~~~(1 <<< bitNum.toUInt8)) ||| (value.toUInt8 <<< bitNum.toUInt8)

/-- What `Data::write_unchecked` makes of the word with the slot. -/
def DataType.write (type : DataType) (word : Word) (slot written : ℕ) : Word :=
  match type with
  | .bool => word.setBytes (slot / 8 % 8) [setByteBit (word.bytes.getD (slot / 8 % 8) 0) (slot % 8) written]
  | type => word.setBytes (type.bytes * slot % 8) (leBytes type.bytes written)

/-- What `Data::read_unchecked` finds in the word with the slot. -/
def DataType.read (type : DataType) (word : Word) (slot : ℕ) : ℕ :=
  match type with
  | .bool => if word.bytes.getD (slot / 8 % 8) 0 &&& (1 <<< (slot % 8).toUInt8) ≠ 0 then 1 else 0
  | type => leValue ((word.bytes.drop (type.bytes * slot % 8)).take type.bytes)

namespace StructBuilder

/-- `StructBuilder::set_field_with_default_unchecked`. -/
def setFieldWithDefaultUnchecked {ε : Type} (self : StructBuilder) (type : DataType)
    (slot value default : ℕ) : Prog ε Arena Unit := do
  let place := self.dataStart.offset (type.begins slot / 64)
  let word ← Arena.read place
  Arena.writeSection place 1 fun _ => type.write word slot (value ^^^ default)

/-- `StructBuilder::set_field_unchecked`. -/
def setFieldUnchecked {ε : Type} (self : StructBuilder) (type : DataType) (slot value : ℕ) :
    Prog ε Arena Unit :=
  self.setFieldWithDefaultUnchecked type slot value 0

/-- `StructBuilder::data_field_with_default_unchecked`: what is read in an arena. -/
def dataFieldWithDefaultUnchecked (self : StructBuilder) (type : DataType) (slot default : ℕ)
    (arena : Arena) : ℕ :=
  type.read (arena.word (self.dataStart.offset (type.begins slot / 64))) slot ^^^ default

/-- `StructBuilder::ptr_field_mut_unchecked`. -/
def ptrFieldMutUnchecked (self : StructBuilder) (slot : ℕ) : PtrBuilder :=
  ⟨self.ptrsStart.offset slot, self.builder⟩

end StructBuilder

/-! ## Bits that are read and written -/

section Byte

lemma testBit_byte (b : Byte) (j : ℕ) : b.toNat.testBit j = b.toBitVec.getLsbD j :=
  BitVec.testBit_toNat _

lemma testBit_one_shiftLeft (b j : Fin 8) :
    ((1 : Byte) <<< b.val.toUInt8).toNat.testBit j = decide (j = b) := by
  revert b j
  decide

lemma zero_shiftLeft (b : Fin 8) : (0 : Byte) <<< b.val.toUInt8 = 0 := by
  revert b
  decide

lemma testBit_and (a b : Byte) (j : ℕ) :
    (a &&& b).toNat.testBit j = (a.toNat.testBit j && b.toNat.testBit j) := by
  rw [testBit_byte, testBit_byte, testBit_byte, UInt8.toBitVec_and, BitVec.getLsbD_and]

lemma testBit_not (a : Byte) (j : Fin 8) : (~~~a).toNat.testBit j = !a.toNat.testBit j := by
  rw [testBit_byte, testBit_byte, UInt8.toBitVec_not, BitVec.getLsbD_not, decide_eq_true j.isLt,
    Bool.true_and]

lemma testBit_or (a b : Byte) (j : ℕ) :
    (a ||| b).toNat.testBit j = (a.toNat.testBit j || b.toNat.testBit j) := by
  rw [testBit_byte, testBit_byte, testBit_byte, UInt8.toBitVec_or, BitVec.getLsbD_or]

/-- One bit of the byte is set. -/
lemma testBit_setByteBit {value : ℕ} (hvalue : value < 2) (byte : Byte) (b j : Fin 8) :
    (setByteBit byte b value).toNat.testBit j =
      if j = b then value.testBit 0 else byte.toNat.testBit j := by
  have hbit : ((value.toUInt8 : Byte) <<< b.val.toUInt8).toNat.testBit j =
      (decide (j = b) && value.testBit 0) := by
    obtain rfl | rfl : value = 0 ∨ value = 1 := by omega
    · show ((0 : Byte) <<< b.val.toUInt8).toNat.testBit j = _
      rw [zero_shiftLeft, UInt8.toNat_zero, Nat.zero_testBit, Nat.zero_testBit, Bool.and_false]
    · show ((1 : Byte) <<< b.val.toUInt8).toNat.testBit j = _
      rw [testBit_one_shiftLeft, Nat.testBit_one_zero, Bool.and_true]
  rw [setByteBit, testBit_or, testBit_and, testBit_not, testBit_one_shiftLeft, hbit]
  by_cases hj : j = b
  · rw [if_pos hj, decide_eq_true hj, Bool.not_true, Bool.and_false, Bool.false_or, Bool.true_and]
  · rw [if_neg hj, decide_eq_false hj, Bool.not_false, Bool.and_true, Bool.false_and, Bool.or_false]

/-- A bit of a byte is looked at with a mask. -/
lemma and_bit_eq_zero_iff (byte : Byte) (b : Fin 8) :
    byte &&& (1 <<< b.val.toUInt8) = 0 ↔ byte.toNat.testBit b = false := by
  have hbit : ∀ j : Fin 8, (byte &&& (1 <<< b.val.toUInt8)).toNat.testBit j =
      (byte.toNat.testBit j && decide (j = b)) := by
    intro j
    rw [testBit_and, testBit_one_shiftLeft b j]
  constructor
  · intro h
    have hb := hbit b
    rw [h] at hb
    simpa using hb.symm
  · intro h
    refine UInt8.toNat_inj.1 (Nat.eq_of_testBit_eq fun j => ?_)
    by_cases hj : j < 8
    · have hj' := hbit ⟨j, hj⟩
      rw [show (byte &&& (1 <<< b.val.toUInt8)).toNat.testBit j = _ from hj', UInt8.toNat_zero,
        Nat.zero_testBit]
      by_cases heq : (⟨j, hj⟩ : Fin 8) = b
      · rw [heq, h]
        rfl
      · rw [decide_eq_false heq, Bool.and_false]
    · rw [Word.testBit_byte_of_le _ (Nat.not_lt.1 hj), UInt8.toNat_zero, Nat.zero_testBit]

end Byte

namespace DataType

/-- The bits of a number that is written to some bytes of a word. -/
lemma bit_setBytes_leBytes {word : Word} {size offset : ℕ} (h : offset + size ≤ 8) (value i : ℕ) :
    (word.setBytes offset (leBytes size value)).bit i =
      if 8 * offset ≤ i ∧ i < 8 * offset + 8 * size then value.testBit (i - 8 * offset)
      else word.bit i := by
  rw [Word.bit_setBytes (by rwa [length_leBytes]), length_leBytes]
  by_cases hi : 8 * offset ≤ i ∧ i < 8 * offset + 8 * size
  · rw [if_pos (by omega), if_pos hi, testBit_leBytes (by omega) (by omega)]
    congr 1
    omega
  · rw [if_neg (by omega), if_neg hi]

/-- The word after a slot was written: the bits of the slot are those of the value. -/
lemma bit_write (type : DataType) (word : Word) (slot : ℕ) {value : ℕ}
    (hvalue : value < 2 ^ type.bits) (i : ℕ) :
    (type.write word slot value).bit i =
      if type.begins slot % 64 ≤ i ∧ i < type.begins slot % 64 + type.bits then
        value.testBit (i - type.begins slot % 64)
      else word.bit i := by
  -- the bytes of a number begin where its slot does
  have hnumber : ∀ bytes, (bytes = 1 ∨ bytes = 2 ∨ bytes = 4 ∨ bytes = 8) →
      (word.setBytes (bytes * slot % 8) (leBytes bytes value)).bit i =
        if 8 * bytes * slot % 64 ≤ i ∧ i < 8 * bytes * slot % 64 + 8 * bytes then
          value.testBit (i - 8 * bytes * slot % 64)
        else word.bit i := by
    intro bytes hbytes
    have hbegins : 8 * (bytes * slot % 8) = 8 * bytes * slot % 64 := by
      rw [Nat.mul_assoc, ← Nat.mul_mod_mul_left]
    have hfits : bytes * slot % 8 + bytes ≤ 8 := by
      rcases hbytes with rfl | rfl | rfl | rfl <;> omega
    rw [bit_setBytes_leBytes hfits, hbegins]
  cases type with
  | bool =>
    show (word.setBytes _ _).bit i = if 1 * slot % 64 ≤ i ∧ i < 1 * slot % 64 + 1 then _ else _
    have hoffset : slot / 8 % 8 + 1 ≤ 8 := by omega
    rw [Word.bit_setBytes (show _ + [_].length ≤ 8 from hoffset), List.length_singleton]
    by_cases hi : slot / 8 % 8 ≤ i / 8 ∧ i / 8 < slot / 8 % 8 + 1
    · have hbyte : i / 8 = slot / 8 % 8 := by omega
      rw [if_pos hi, hbyte, Nat.sub_self]
      have hbit := testBit_setByteBit hvalue (word.bytes.getD (slot / 8 % 8) 0)
        ⟨slot % 8, by omega⟩ ⟨i % 8, by omega⟩
      refine Eq.trans hbit ?_
      by_cases heq : i % 8 = slot % 8
      · rw [if_pos (Fin.ext heq), if_pos (by omega)]
        congr 1
        show 0 = i - 1 * slot % 64
        omega
      · rw [if_neg (fun h => heq (congrArg Fin.val h)), if_neg (by omega), Word.bit, hbyte]
    · rw [if_neg hi, if_neg (by omega)]
  | u8 => exact hnumber 1 (Or.inl rfl)
  | u16 => exact hnumber 2 (Or.inr (Or.inl rfl))
  | u32 => exact hnumber 4 (Or.inr (Or.inr (Or.inl rfl)))
  | u64 => exact hnumber 8 (Or.inr (Or.inr (Or.inr rfl)))

/-- Writing zero clears the bits of the slot. -/
lemma bit_write_zero (type : DataType) (word : Word) (slot : ℕ) (i : ℕ) :
    (type.write word slot 0).bit i =
      if type.begins slot % 64 ≤ i ∧ i < type.begins slot % 64 + type.bits then false
      else word.bit i := by
  rw [bit_write type word slot (Nat.two_pow_pos _), Nat.zero_testBit]

/-- What is read has the bits of the slot. -/
lemma testBit_read (type : DataType) (word : Word) (slot j : ℕ) :
    (type.read word slot).testBit j =
      (decide (j < type.bits) && word.bit (type.begins slot % 64 + j)) := by
  have hnumber : ∀ bytes, (bytes = 1 ∨ bytes = 2 ∨ bytes = 4 ∨ bytes = 8) →
      (leValue ((word.bytes.drop (bytes * slot % 8)).take bytes)).testBit j =
        (decide (j < 8 * bytes) && word.bit (8 * bytes * slot % 64 + j)) := by
    intro bytes hbytes
    have hbegins : 8 * bytes * slot % 64 = 8 * (bytes * slot % 8) := by
      rw [Nat.mul_assoc, ← Nat.mul_mod_mul_left]
    have hdiv : (8 * (bytes * slot % 8) + j) / 8 = bytes * slot % 8 + j / 8 := by omega
    have hmod : (8 * (bytes * slot % 8) + j) % 8 = j % 8 := by omega
    rw [testBit_leValue, hbegins, Word.bit, hdiv, hmod, List.getD_eq_getElem?_getD]
    by_cases hj : j < 8 * bytes
    · rw [List.getElem?_take_of_lt (by omega), List.getElem?_drop, decide_eq_true hj, Bool.true_and,
        List.getD_eq_getElem?_getD]
    · rw [decide_eq_false hj, Bool.false_and, List.getElem?_eq_none (by
        rw [List.length_take]
        omega)]
      exact Nat.zero_testBit _
  cases type with
  | bool =>
    show (if word.bytes.getD (slot / 8 % 8) 0 &&& (1 <<< (slot % 8).toUInt8) ≠ 0 then 1 else 0).testBit j =
      (decide (j < 1) && word.bit (1 * slot % 64 + j))
    have hmask := and_bit_eq_zero_iff (word.bytes.getD (slot / 8 % 8) 0) ⟨slot % 8, by omega⟩
    have hbit : word.bit (1 * slot % 64) = (word.bytes.getD (slot / 8 % 8) 0).toNat.testBit (slot % 8) := by
      rw [Word.bit, show 1 * slot % 64 / 8 = slot / 8 % 8 by omega,
        show 1 * slot % 64 % 8 = slot % 8 by omega]
    by_cases hzero : word.bytes.getD (slot / 8 % 8) 0 &&& (1 <<< (slot % 8).toUInt8) = 0
    · rw [if_neg (not_not.2 hzero), Nat.zero_testBit]
      rcases j with _ | j
      · rw [Nat.add_zero, hbit, hmask.1 hzero, Bool.and_false]
      · rw [decide_eq_false (by omega), Bool.false_and]
    · rw [if_pos hzero]
      rcases j with _ | j
      · rw [Nat.add_zero, hbit, Nat.testBit_one_zero, (Bool.not_eq_false _).mp fun h => hzero (hmask.2 h)]
        rfl
      · rw [decide_eq_false (by omega), Bool.false_and]
        exact Nat.testBit_lt_two_pow (Nat.one_lt_two_pow (Nat.succ_ne_zero j))
  | u8 => exact hnumber 1 (Or.inl rfl)
  | u16 => exact hnumber 2 (Or.inr (Or.inl rfl))
  | u32 => exact hnumber 4 (Or.inr (Or.inr (Or.inl rfl)))
  | u64 => exact hnumber 8 (Or.inr (Or.inr (Or.inr rfl)))

/-- Zero is read just when the bits of the slot are zero. -/
lemma read_eq_zero_iff (type : DataType) (word : Word) (slot : ℕ) :
    type.read word slot = 0 ↔
      ∀ i, type.begins slot % 64 ≤ i → i < type.begins slot % 64 + type.bits →
        word.bit i = false := by
  constructor
  · intro hzero i hle hlt
    have hbit := testBit_read type word slot (i - type.begins slot % 64)
    rw [hzero, Nat.zero_testBit, decide_eq_true (by omega), Bool.true_and,
      Nat.add_sub_cancel' hle] at hbit
    exact hbit.symm
  · intro hzero
    refine Nat.eq_of_testBit_eq fun j => ?_
    rw [testBit_read, Nat.zero_testBit]
    by_cases hj : j < type.bits
    · rw [hzero _ (Nat.le_add_right _ _) (Nat.add_lt_add_left hj _), Bool.and_false]
    · rw [decide_eq_false hj, Bool.false_and]

/-- What was written is read again. -/
lemma read_write (type : DataType) (word : Word) (slot : ℕ) {value : ℕ}
    (hvalue : value < 2 ^ type.bits) : type.read (type.write word slot value) slot = value := by
  refine Nat.eq_of_testBit_eq fun j => ?_
  rw [testBit_read, bit_write type word slot hvalue]
  by_cases hj : j < type.bits
  · rw [decide_eq_true hj, Bool.true_and, if_pos ⟨Nat.le_add_right _ _, Nat.add_lt_add_left hj _⟩,
      Nat.add_sub_cancel_left]
  · rw [decide_eq_false hj, Bool.false_and]
    refine (Nat.testBit_lt_two_pow (Nat.lt_of_lt_of_le hvalue ?_)).symm
    exact Nat.pow_le_pow_right Nat.two_pos (Nat.not_lt.1 hj)

/-- What is read rests on the bits of the slot. -/
lemma read_congr (type : DataType) {word word' : Word} (slot : ℕ)
    (h : ∀ i, type.begins slot % 64 ≤ i → i < type.begins slot % 64 + type.bits →
      word'.bit i = word.bit i) : type.read word' slot = type.read word slot := by
  refine Nat.eq_of_testBit_eq fun j => ?_
  rw [testBit_read, testBit_read]
  by_cases hj : j < type.bits
  · rw [h _ (Nat.le_add_right _ _) (Nat.add_lt_add_left hj _)]
  · rw [decide_eq_false hj, Bool.false_and, Bool.false_and]

end DataType

end Recapn.Ptr

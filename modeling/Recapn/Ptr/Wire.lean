/-
# Pointers on the wire

A pointer is a word.  Its two low bits are its kind: the other bits hold an offset and the size
of a struct, an offset and the element size and count of a list, or, for a far pointer, the
segment and the offset of a landing pad.  A word at the start of a list of structs, its tag,
has the number of structs in place of the offset.
-/
import Recapn.Num
import Recapn.Word

namespace Recapn.Ptr

/-! ## Sizes -/

/-- `StructSize`: the data words and the pointers of a struct. -/
@[ext] structure StructSize where
  data : ℕ
  ptrs : ℕ
  data_lt : data < 2 ^ 16
  ptrs_lt : ptrs < 2 ^ 16
deriving DecidableEq, Repr

namespace StructSize

lemma zero_lt : 0 < 2 ^ 16 := by decide

lemma one_lt : 1 < 2 ^ 16 := by decide

lemma two_lt : 2 < 2 ^ 16 := by decide

/-- `StructSize::EMPTY`. -/
def empty : StructSize := ⟨0, 0, zero_lt, zero_lt⟩

/-- `StructSize::is_empty`. -/
def isEmpty (size : StructSize) : Bool := size == empty

/-- `StructSize::total`. -/
def total (size : StructSize) : ℕ := size.data + size.ptrs

lemma total_eq (size : StructSize) : size.total = size.data + size.ptrs := rfl

lemma mul_succ_le (size : StructSize) {i n : ℕ} (h : i < n) :
    size.total * i + size.total ≤ size.total * n :=
  Nat.mul_le_mul_left _ h

lemma total_lt (size : StructSize) : size.total < 2 ^ 17 := by
  have hdata := size.data_lt
  have hptrs := size.ptrs_lt
  unfold total
  omega

/-- `StructSize::len`. -/
def len (size : StructSize) : ObjectLen :=
  ⟨size.total, Nat.lt_trans size.total_lt (by decide)⟩

@[simp] lemma get_len (size : StructSize) : size.len.get = size.total := rfl

lemma isEmpty_iff {size : StructSize} : size.isEmpty = true ↔ size = empty := by
  simp [isEmpty]

lemma total_eq_zero_iff {size : StructSize} : size.total = 0 ↔ size = empty := by
  constructor
  · intro h
    unfold total at h
    ext
    · show size.data = 0
      omega
    · show size.ptrs = 0
      omega
  · rintro rfl
    rfl

end StructSize

/-- `ElementSize`. -/
inductive ElementSize where
  | void
  | bit
  | byte
  | twoBytes
  | fourBytes
  | eightBytes
  | pointer
  | inlineComposite (size : StructSize)
deriving DecidableEq, Repr

/-- `PtrElementSize`. -/
inductive PtrElementSize where
  | void
  | bit
  | byte
  | twoBytes
  | fourBytes
  | eightBytes
  | pointer
  | inlineComposite
deriving DecidableEq, Repr

namespace PtrElementSize

/-- The discriminant of an element size. -/
def toBits : PtrElementSize → ℕ
  | void => 0
  | bit => 1
  | byte => 2
  | twoBytes => 3
  | fourBytes => 4
  | eightBytes => 5
  | pointer => 6
  | inlineComposite => 7

/-- The element size with a discriminant. -/
def ofBits : ℕ → PtrElementSize
  | 0 => void
  | 1 => bit
  | 2 => byte
  | 3 => twoBytes
  | 4 => fourBytes
  | 5 => eightBytes
  | 6 => pointer
  | _ => inlineComposite

lemma toBits_lt (size : PtrElementSize) : size.toBits < 8 := by
  cases size <;> decide

@[simp] lemma ofBits_toBits (size : PtrElementSize) : ofBits size.toBits = size := by
  cases size <;> rfl

/-- `PtrElementSize::to_element_size`. -/
def toElementSize : PtrElementSize → ElementSize
  | void => .void
  | bit => .bit
  | byte => .byte
  | twoBytes => .twoBytes
  | fourBytes => .fourBytes
  | eightBytes => .eightBytes
  | pointer => .pointer
  | inlineComposite => .inlineComposite StructSize.empty

end PtrElementSize

/-- `Word::round_up_bit_count`, which truncates to 32 bits. -/
def roundUpBitCount (bits : ℕ) : ℕ := (bits + 63) / 64 % 2 ^ 32

/-- `Word::round_up_byte_count`. -/
def roundUpByteCount (bytes : ℕ) : ℕ := (bytes + 7) / 8

namespace ElementSize

/-- `ElementSize::as_ptr_size`. -/
def asPtrSize : ElementSize → PtrElementSize
  | void => .void
  | bit => .bit
  | byte => .byte
  | twoBytes => .twoBytes
  | fourBytes => .fourBytes
  | eightBytes => .eightBytes
  | pointer => .pointer
  | inlineComposite _ => .inlineComposite

/-- `ElementSize::is_inline_composite`. -/
def isInlineComposite : ElementSize → Bool
  | inlineComposite _ => true
  | _ => false

/-- `ElementSize::bits`. -/
def bits : ElementSize → ℕ
  | void => 0
  | bit => 1
  | byte => 8
  | twoBytes => 8 * 2
  | fourBytes => 8 * 4
  | eightBytes => 8 * 8
  | pointer => 8 * 8
  | inlineComposite size => size.total * 64

/-- `ElementSize::total_words`. -/
def totalWords (size : ElementSize) (count : ℕ) : ℕ := roundUpBitCount (size.bits * count)

/-- `ElementSize::object_words`. -/
def objectWords (size : ElementSize) (count : ℕ) : ℕ :=
  (size.totalWords count + if size.isInlineComposite then 1 else 0) % 2 ^ 32

/-- `ElementSize::upgradable_to`. -/
def upgradableTo (size : ElementSize) (other : PtrElementSize) : Bool :=
  match size, other with
  | inlineComposite _, .inlineComposite => true
  | bit, .bit => true
  | bit, _ | _, .bit => false
  | inlineComposite ⟨_, 0, _, _⟩, .pointer => false
  | inlineComposite ⟨0, _, _, _⟩, .byte => false
  | inlineComposite ⟨0, _, _, _⟩, .twoBytes => false
  | inlineComposite ⟨0, _, _, _⟩, .fourBytes => false
  | inlineComposite ⟨0, _, _, _⟩, .eightBytes => false
  | _, .inlineComposite => true
  -- a struct that passed the arms above is not the same as a pointer or a number
  | size, other => size.asPtrSize == other

lemma bits_le_of_ptr (size : PtrElementSize) : size.toElementSize.bits ≤ 64 := by
  cases size <;> decide

/-- The words of a list that is not of structs are not truncated, and are fewer than a segment's. -/
lemma totalWords_of_bits_le {size : ElementSize} (hbits : size.bits ≤ 64) (count : ElementCount) :
    size.totalWords count.get = (size.bits * count.get + 63) / 64 ∧
      size.totalWords count.get < 2 ^ 29 := by
  have hcount := count.get_lt
  have hmul : size.bits * count.get ≤ 64 * count.get := Nat.mul_le_mul_right _ hbits
  have hlt : (size.bits * count.get + 63) / 64 < 2 ^ 29 := by omega
  rw [totalWords, roundUpBitCount, Nat.mod_eq_of_lt (by omega)]
  exact ⟨rfl, hlt⟩

end ElementSize

/-! ## Kinds -/

/-- `WireKind`. -/
inductive WireKind where
  | struct
  | list
  | far
  | other
deriving DecidableEq, Repr

/-- `WirePtr`, as the word it is. -/
abbrev WirePtr := Word

/-- A 32-bit value as a signed integer. -/
def i32OfU32 (n : ℕ) : ℤ := if n < 2 ^ 31 then n else n - 2 ^ 32

/-- A signed integer as a 32-bit value. -/
def u32OfI32 (n : ℤ) : ℕ := (n % 2 ^ 32).toNat

/-- `Parts::content_offset`. -/
def contentOffset (parts : Word) : SignedSegmentOffset where
  get := i32OfU32 parts.lower / 4
  le_get := by
    have hlt := parts.lower_lt
    unfold i32OfU32
    split <;> omega
  get_lt := by
    have hlt := parts.lower_lt
    unfold i32OfU32
    split <;> omega

/-- `Parts::set_content_offset`. -/
def setContentOffset (parts : Word) (offset : SignedSegmentOffset) : Word :=
  .ofParts (u32OfI32 (offset.get * 4) + parts.lower % 4) parts.upper

namespace WirePtr

/-- `WirePtr::kind`. -/
def kind (ptr : WirePtr) : WireKind :=
  match ptr.lower % 4 with
  | 0 => .struct
  | 1 => .list
  | 2 => .far
  | _ => .other

/-- `WirePtr::is_capability`. -/
def isCapability (ptr : WirePtr) : Bool := ptr.lower == 3

lemma kind_eq_struct_iff {ptr : WirePtr} : ptr.kind = .struct ↔ ptr.lower % 4 = 0 := by
  unfold kind
  split <;> simp_all

lemma kind_eq_list_iff {ptr : WirePtr} : ptr.kind = .list ↔ ptr.lower % 4 = 1 := by
  unfold kind
  split <;> simp_all

lemma kind_eq_far_iff {ptr : WirePtr} : ptr.kind = .far ↔ ptr.lower % 4 = 2 := by
  unfold kind
  split <;> simp_all

lemma kind_eq_other_iff {ptr : WirePtr} : ptr.kind = .other ↔ ptr.lower % 4 = 3 := by
  have hlt := Nat.mod_lt ptr.lower (show 0 < 4 by decide)
  unfold kind
  split <;> simp_all
  omega

lemma not_isCapability_of_kind {ptr : WirePtr} (h : ptr.kind ≠ .other) : ptr.isCapability = false := by
  rw [isCapability, beq_eq_false_iff_ne]
  intro hlower
  exact h (kind_eq_other_iff.2 (by rw [hlower]))

@[simp] lemma kind_null : kind Word.null = .struct := by
  rw [kind_eq_struct_iff, Word.lower_null]

end WirePtr

lemma get_contentOffset (parts : Word) : (contentOffset parts).get = i32OfU32 parts.lower / 4 := rfl

lemma u32OfI32_lt (n : ℤ) : u32OfI32 n < 2 ^ 32 := by
  unfold u32OfI32
  omega

/-- A lower half made of an offset and a kind gives the offset back. -/
lemma i32OfU32_offset (offset : SignedSegmentOffset) {kind : ℕ} (h : kind < 4) :
    i32OfU32 (u32OfI32 (offset.get * 4) + kind) / 4 = offset.get := by
  have hle := offset.le_get
  have hlt := offset.get_lt
  unfold i32OfU32 u32OfI32
  split <;> omega

lemma u32OfI32_offset_mod (offset : SignedSegmentOffset) {kind : ℕ} (h : kind < 4) :
    (u32OfI32 (offset.get * 4) + kind) % 4 = kind ∧ u32OfI32 (offset.get * 4) + kind < 2 ^ 32 := by
  have hle := offset.le_get
  have hlt := offset.get_lt
  unfold u32OfI32
  omega

/-! ## Struct pointers and tags -/

namespace StructPtr

/-- The upper half of a struct pointer. -/
def sizeBits (size : StructSize) : ℕ := size.data + 2 ^ 16 * size.ptrs

/-- `StructPtr::new`. -/
def new (offset : SignedSegmentOffset) (size : StructSize) : WirePtr :=
  .ofParts (u32OfI32 (offset.get * 4)) (sizeBits size)

/-- `StructPtr::EMPTY`. -/
def empty : WirePtr := new ⟨-1, I30.le_neg_one, I30.neg_one_lt⟩ StructSize.empty

/-- `StructPtr::new_inline_composite_tag`. -/
def newInlineCompositeTag (count : ElementCount) (size : StructSize) : WirePtr :=
  .ofParts (count.get * 4) (sizeBits size)

/-- `StructPtr::offset`. -/
def offset (ptr : WirePtr) : SignedSegmentOffset := contentOffset ptr

/-- `StructPtr::inline_composite_element_count`. -/
def inlineCompositeElementCount (ptr : WirePtr) : ElementCount :=
  ⟨ptr.lower / 4 % 2 ^ 29, Nat.mod_lt _ (by decide)⟩

/-- `StructPtr::size`. -/
def size (ptr : WirePtr) : StructSize where
  data := ptr.upper % 2 ^ 16
  ptrs := ptr.upper / 2 ^ 16
  data_lt := Nat.mod_lt _ (by decide)
  ptrs_lt := by
    have hlt := ptr.upper_lt
    omega

lemma sizeBits_lt (size : StructSize) : sizeBits size < 2 ^ 32 := by
  have hdata := size.data_lt
  have hptrs := size.ptrs_lt
  unfold sizeBits
  omega

lemma size_of_upper {ptr : WirePtr} {s : StructSize} (h : ptr.upper = sizeBits s) : size ptr = s := by
  have hdata := s.data_lt
  have hptrs := s.ptrs_lt
  unfold sizeBits at h
  ext
  · show ptr.upper % 2 ^ 16 = s.data
    omega
  · show ptr.upper / 2 ^ 16 = s.ptrs
    omega

lemma lower_new (o : SignedSegmentOffset) (s : StructSize) :
    (new o s).lower = u32OfI32 (o.get * 4) + 0 :=
  Word.lower_ofParts _ (u32OfI32_lt _)

@[simp] lemma kind_new (o : SignedSegmentOffset) (s : StructSize) : (new o s).kind = .struct := by
  rw [WirePtr.kind_eq_struct_iff, lower_new]
  exact (u32OfI32_offset_mod o (by decide)).1

@[simp] lemma offset_new (o : SignedSegmentOffset) (s : StructSize) : offset (new o s) = o := by
  apply I30.ext
  show i32OfU32 (new o s).lower / 4 = o.get
  rw [lower_new]
  exact i32OfU32_offset o (by decide)

@[simp] lemma size_new (o : SignedSegmentOffset) (s : StructSize) : size (new o s) = s :=
  size_of_upper (Word.upper_ofParts _ (sizeBits_lt s))

lemma lower_newInlineCompositeTag (count : ElementCount) (s : StructSize) :
    (newInlineCompositeTag count s).lower = count.get * 4 := by
  have hlt := count.get_lt
  exact Word.lower_ofParts _ (by omega)

@[simp] lemma kind_newInlineCompositeTag (count : ElementCount) (s : StructSize) :
    (newInlineCompositeTag count s).kind = .struct := by
  rw [WirePtr.kind_eq_struct_iff, lower_newInlineCompositeTag]
  omega

@[simp] lemma size_newInlineCompositeTag (count : ElementCount) (s : StructSize) :
    size (newInlineCompositeTag count s) = s :=
  size_of_upper (Word.upper_ofParts _ (sizeBits_lt s))

@[simp] lemma inlineCompositeElementCount_new (count : ElementCount) (s : StructSize) :
    inlineCompositeElementCount (newInlineCompositeTag count s) = count := by
  have hlt := count.get_lt
  apply U29.ext
  show (newInlineCompositeTag count s).lower / 4 % 2 ^ 29 = count.get
  rw [lower_newInlineCompositeTag]
  omega

/-- Only the pointer to an empty struct right behind the pointer itself is null. -/
lemma eq_null_iff {ptr : WirePtr} :
    ptr = Word.null ↔ ptr.kind = .struct ∧ offset ptr = I30.zero ∧ size ptr = StructSize.empty := by
  constructor
  · rintro rfl
    exact ⟨WirePtr.kind_null, by decide, by decide⟩
  · rintro ⟨hkind, hoffset, hsize⟩
    rw [WirePtr.kind_eq_struct_iff] at hkind
    have hlower : i32OfU32 ptr.lower / 4 = 0 := congrArg I30.get hoffset
    have hdata : ptr.upper % 2 ^ 16 = 0 := congrArg StructSize.data hsize
    have hptrs : ptr.upper / 2 ^ 16 = 0 := congrArg StructSize.ptrs hsize
    have hlt := ptr.lower_lt
    refine Word.ext_parts ?_ ?_
    · unfold i32OfU32 at hlower
      rw [Word.lower_null]
      split at hlower <;> omega
    · rw [Word.upper_null]
      omega

end StructPtr

/-! ## List pointers -/

namespace ListPtr

/-- `ListPtr::new`. -/
def new (offset : SignedSegmentOffset) (size : PtrElementSize) (count : ElementCount) : WirePtr :=
  .ofParts (u32OfI32 (offset.get * 4) + 1) (count.get * 8 + size.toBits)

/-- `ListPtr::element_size`. -/
def elementSize (ptr : WirePtr) : PtrElementSize := .ofBits (ptr.upper % 8)

/-- `ListPtr::element_count`: the number of elements, or of words in a list of structs. -/
def elementCount (ptr : WirePtr) : ElementCount :=
  ⟨ptr.upper / 8, by
    have hlt := ptr.upper_lt
    omega⟩

/-- `ListPtr::offset`. -/
def offset (ptr : WirePtr) : SignedSegmentOffset := contentOffset ptr

lemma lower_new (o : SignedSegmentOffset) (s : PtrElementSize) (c : ElementCount) :
    (new o s c).lower = u32OfI32 (o.get * 4) + 1 :=
  Word.lower_ofParts _ (u32OfI32_offset_mod o (by decide)).2

lemma upper_new (o : SignedSegmentOffset) (s : PtrElementSize) (c : ElementCount) :
    (new o s c).upper = c.get * 8 + s.toBits := by
  have hc := c.get_lt
  have hs := s.toBits_lt
  exact Word.upper_ofParts _ (by omega)

@[simp] lemma kind_new (o : SignedSegmentOffset) (s : PtrElementSize) (c : ElementCount) :
    (new o s c).kind = .list := by
  rw [WirePtr.kind_eq_list_iff, lower_new]
  exact (u32OfI32_offset_mod o (by decide)).1

@[simp] lemma offset_new (o : SignedSegmentOffset) (s : PtrElementSize) (c : ElementCount) :
    offset (new o s c) = o := by
  apply I30.ext
  show i32OfU32 (new o s c).lower / 4 = o.get
  rw [lower_new]
  exact i32OfU32_offset o (by decide)

@[simp] lemma elementSize_new (o : SignedSegmentOffset) (s : PtrElementSize) (c : ElementCount) :
    elementSize (new o s c) = s := by
  have hs := s.toBits_lt
  have hmod : (new o s c).upper % 8 = s.toBits := by
    rw [upper_new]
    omega
  rw [elementSize, hmod, PtrElementSize.ofBits_toBits]

@[simp] lemma elementCount_new (o : SignedSegmentOffset) (s : PtrElementSize) (c : ElementCount) :
    elementCount (new o s c) = c := by
  have hs := s.toBits_lt
  apply U29.ext
  show (new o s c).upper / 8 = c.get
  rw [upper_new]
  omega

end ListPtr

/-! ## Far pointers -/

namespace FarPtr

/-- `FarPtr::new`. -/
def new (segment : SegmentId) (offset : SegmentOffset) (doubleFar : Bool) : WirePtr :=
  .ofParts (offset.get * 8 + doubleFar.toNat * 4 + 2) segment

/-- `FarPtr::offset`. -/
def offset (ptr : WirePtr) : SegmentOffset :=
  ⟨ptr.lower / 8, by
    have hlt := ptr.lower_lt
    omega⟩

/-- `FarPtr::double_far`. -/
def doubleFar (ptr : WirePtr) : Bool := ptr.lower / 4 % 2 != 0

/-- `FarPtr::segment`. -/
def segment (ptr : WirePtr) : SegmentId := ptr.upper

lemma lower_new (id : SegmentId) (o : SegmentOffset) (d : Bool) :
    (new id o d).lower = o.get * 8 + d.toNat * 4 + 2 := by
  have ho := o.get_lt
  have hd := d.toNat_le
  exact Word.lower_ofParts _ (by omega)

@[simp] lemma kind_new (id : SegmentId) (o : SegmentOffset) (d : Bool) : (new id o d).kind = .far := by
  rw [WirePtr.kind_eq_far_iff, lower_new]
  omega

@[simp] lemma offset_new (id : SegmentId) (o : SegmentOffset) (d : Bool) : offset (new id o d) = o := by
  have hd := d.toNat_le
  apply U29.ext
  show (new id o d).lower / 8 = o.get
  rw [lower_new]
  omega

@[simp] lemma doubleFar_new (id : SegmentId) (o : SegmentOffset) (d : Bool) :
    doubleFar (new id o d) = d := by
  rw [doubleFar, lower_new]
  cases d
  · have hmod : (o.get * 8 + false.toNat * 4 + 2) / 4 % 2 = 0 := by
      rw [Bool.toNat_false]
      omega
    rw [hmod]
    rfl
  · have hmod : (o.get * 8 + true.toNat * 4 + 2) / 4 % 2 = 1 := by
      rw [Bool.toNat_true]
      omega
    rw [hmod]
    rfl

lemma segment_new {id : SegmentId} (h : id < 2 ^ 32) (o : SegmentOffset) (d : Bool) :
    segment (new id o d) = id :=
  Word.upper_ofParts _ h

end FarPtr

/-! ## Capability pointers -/

namespace CapabilityPtr

/-- `CapabilityPtr::new`. -/
def new (index : ℕ) : WirePtr := .ofParts 3 index

/-- `CapabilityPtr::capability_index`. -/
def capabilityIndex (ptr : WirePtr) : ℕ := ptr.upper

end CapabilityPtr

/-- Far and list pointers are not null, and a struct pointer has kind 0. -/
lemma ne_null_of_kind {ptr : WirePtr} (h : ptr.kind ≠ .struct) : ptr ≠ Word.null := by
  rintro rfl
  exact h WirePtr.kind_null

namespace CapabilityPtr

lemma lower_new (index : ℕ) : (new index).lower = 3 := Word.lower_ofParts _ (by decide)

@[simp] lemma kind_new (index : ℕ) : (new index).kind = .other := by
  rw [WirePtr.kind_eq_other_iff, lower_new]

@[simp] lemma isCapability_new (index : ℕ) : (new index).isCapability = true := by
  rw [WirePtr.isCapability, lower_new]
  rfl

lemma capabilityIndex_new {index : ℕ} (h : index < 2 ^ 32) : capabilityIndex (new index) = index :=
  Word.upper_ofParts _ h

end CapabilityPtr

/-! ## Other offsets -/

section SetContentOffset

variable (ptr : WirePtr) (offset : SignedSegmentOffset)

lemma lower_setContentOffset :
    (setContentOffset ptr offset).lower = u32OfI32 (offset.get * 4) + ptr.lower % 4 :=
  Word.lower_ofParts _ (u32OfI32_offset_mod offset (Nat.mod_lt _ (by decide))).2

/-- The sizes are in the upper half. -/
@[simp] lemma upper_setContentOffset : (setContentOffset ptr offset).upper = ptr.upper :=
  Word.upper_ofParts _ ptr.upper_lt

@[simp] lemma kind_setContentOffset : WirePtr.kind (setContentOffset ptr offset) = ptr.kind := by
  have hmod : (setContentOffset ptr offset).lower % 4 = ptr.lower % 4 := by
    rw [lower_setContentOffset]
    exact (u32OfI32_offset_mod offset (Nat.mod_lt _ (by decide))).1
  rw [WirePtr.kind, WirePtr.kind, hmod]

@[simp] lemma contentOffset_setContentOffset : contentOffset (setContentOffset ptr offset) = offset := by
  apply I30.ext
  rw [get_contentOffset, lower_setContentOffset]
  exact i32OfU32_offset offset (Nat.mod_lt _ (by decide))

end SetContentOffset

/-! ## Pointers in general -/

/-- What is put into the pointers is found in them again. -/
structure PacksPointers : Prop where
  struct (o : SignedSegmentOffset) (s : StructSize) : (StructPtr.new o s).kind = .struct ∧
    StructPtr.offset (StructPtr.new o s) = o ∧ StructPtr.size (StructPtr.new o s) = s
  tag (c : ElementCount) (s : StructSize) : (StructPtr.newInlineCompositeTag c s).kind = .struct ∧
    StructPtr.inlineCompositeElementCount (StructPtr.newInlineCompositeTag c s) = c ∧
    StructPtr.size (StructPtr.newInlineCompositeTag c s) = s
  list (o : SignedSegmentOffset) (s : PtrElementSize) (c : ElementCount) : (ListPtr.new o s c).kind = .list ∧
    ListPtr.offset (ListPtr.new o s c) = o ∧ ListPtr.elementSize (ListPtr.new o s c) = s ∧
    ListPtr.elementCount (ListPtr.new o s c) = c
  far (id : UInt32) (o : SegmentOffset) (d : Bool) : (FarPtr.new id.toNat o d).kind = .far ∧
    FarPtr.segment (FarPtr.new id.toNat o d) = id.toNat ∧ FarPtr.offset (FarPtr.new id.toNat o d) = o ∧
    FarPtr.doubleFar (FarPtr.new id.toNat o d) = d
  capability (index : UInt32) : (CapabilityPtr.new index.toNat).kind = .other ∧
    (CapabilityPtr.new index.toNat).isCapability = true ∧
    CapabilityPtr.capabilityIndex (CapabilityPtr.new index.toNat) = index.toNat

/-- Only the offset of a pointer is changed. -/
structure SetsOffset (ptr : WirePtr) (offset : SignedSegmentOffset) : Prop where
  contentOffset : contentOffset (setContentOffset ptr offset) = offset
  kind : WirePtr.kind (setContentOffset ptr offset) = ptr.kind
  size : StructPtr.size (setContentOffset ptr offset) = StructPtr.size ptr
  elementSize : ListPtr.elementSize (setContentOffset ptr offset) = ListPtr.elementSize ptr
  elementCount : ListPtr.elementCount (setContentOffset ptr offset) = ListPtr.elementCount ptr

/-- A word that is null is the pointer to an empty struct at offset 0: it is none of the other
pointers, and a tag is only if it counts no empty structs. -/
structure NullPointers : Prop where
  word (ptr : WirePtr) : ptr = Word.null ↔
    ptr.kind = .struct ∧ StructPtr.offset ptr = I30.zero ∧ StructPtr.size ptr = StructSize.empty
  struct (o : SignedSegmentOffset) (s : StructSize) :
    StructPtr.new o s = Word.null ↔ o = I30.zero ∧ s = StructSize.empty
  tag (c : ElementCount) (s : StructSize) :
    StructPtr.newInlineCompositeTag c s = Word.null ↔ c = ⟨0, by decide⟩ ∧ s = StructSize.empty
  list (o : SignedSegmentOffset) (s : PtrElementSize) (c : ElementCount) : ListPtr.new o s c ≠ Word.null
  far (id : UInt32) (o : SegmentOffset) (d : Bool) : FarPtr.new id.toNat o d ≠ Word.null
  capability (index : UInt32) : CapabilityPtr.new index.toNat ≠ Word.null

lemma packsPointers : PacksPointers where
  struct o s := ⟨StructPtr.kind_new o s, StructPtr.offset_new o s, StructPtr.size_new o s⟩
  tag c s := ⟨StructPtr.kind_newInlineCompositeTag c s, StructPtr.inlineCompositeElementCount_new c s,
    StructPtr.size_newInlineCompositeTag c s⟩
  list o s c := ⟨ListPtr.kind_new o s c, ListPtr.offset_new o s c, ListPtr.elementSize_new o s c,
    ListPtr.elementCount_new o s c⟩
  far id o d := ⟨FarPtr.kind_new id.toNat o d, FarPtr.segment_new id.toNat_lt o d,
    FarPtr.offset_new id.toNat o d, FarPtr.doubleFar_new id.toNat o d⟩
  capability index := ⟨CapabilityPtr.kind_new index.toNat, CapabilityPtr.isCapability_new index.toNat,
    CapabilityPtr.capabilityIndex_new index.toNat_lt⟩

lemma setsOffset (ptr : WirePtr) (offset : SignedSegmentOffset) : SetsOffset ptr offset where
  contentOffset := contentOffset_setContentOffset ptr offset
  kind := kind_setContentOffset ptr offset
  size := by
    ext
    · exact congrArg (· % 2 ^ 16) (upper_setContentOffset ptr offset)
    · exact congrArg (· / 2 ^ 16) (upper_setContentOffset ptr offset)
  elementSize := by rw [ListPtr.elementSize, ListPtr.elementSize, upper_setContentOffset]
  elementCount := U29.ext (congrArg (· / 8) (upper_setContentOffset ptr offset))

lemma nullPointers : NullPointers where
  word ptr := StructPtr.eq_null_iff
  struct o s := by simp [StructPtr.eq_null_iff]
  tag c s := by
    constructor
    · intro h
      have hcount := StructPtr.inlineCompositeElementCount_new c s
      have hsize := StructPtr.size_newInlineCompositeTag c s
      rw [h] at hcount hsize
      exact ⟨hcount.symm, hsize.symm.trans (StructPtr.eq_null_iff.1 rfl).2.2⟩
    · rintro ⟨rfl, rfl⟩
      rfl
  list o s c := ne_null_of_kind (by simp)
  far id o d := ne_null_of_kind (by simp)
  capability index := ne_null_of_kind (by simp)

/-- **Pointers encode and decode**: what is put into a pointer is found in it again, another offset
changes nothing else, and null is the pointer to an empty struct at offset 0. -/
theorem pointers_pack :
    PacksPointers ∧ (∀ ptr offset, SetsOffset ptr offset) ∧ NullPointers :=
  ⟨packsPointers, setsOffset, nullPointers⟩

end Recapn.Ptr

/-
# Comparing lists of data

Two lists of data are compared by their bytes, so what lies behind the last element has to be left
out.  For numbers the bytes are counted.  For bits the last byte is masked, and the elements in it
are its lowest bits, while the mask leaves the highest.
-/
import Recapn.Ptr.Elements

namespace Recapn.Ptr

open Recapn.Lib Recapn.Lib.Prog

/-! ## What is compared -/

namespace ListReader

/-- The list as `ListReader::equality` describes it. -/
def content (self : ListReader) : ListContent := ⟨self.ptr, self.elementSize, self.elementCount⟩

/-- `ListReader::equality`. -/
def equality (self other : ListReader) (depth : ℕ) : EqualityM PtrEquality :=
  Equality.cmpList (Equality.cmpPtr depth) self.content self.reader other.content other.reader

/-- A list of data whose words can be read. -/
structure HoldsData (l : ListReader) : Prop where
  data : l.elementSize = .void ∨ ∃ type : DataType, l.elementSize = type.elementSize
  fits : l.reader.inBounds l.ptr ((l.elementSize.bits * l.elementCount.get + 63) / 64) = true

/-- The lists have elements of one size, as many, and the same. -/
structure SameElements (x y : ListReader) : Prop where
  size : x.elementSize = y.elementSize
  count : x.elementCount = y.elementCount
  elements : ∀ type : DataType, type.elementSize = x.elementSize → ∀ i < x.elementCount.get,
    (x.dataUnchecked type i : Prog Empty Unit ℕ) = y.dataUnchecked type i

/-- A bit of the list, counted from its start. -/
def bit (l : ListReader) (i : ℕ) : Bool := (l.reader.word (l.ptr + i / 64)).bit (i % 64)

/-- The first bit of the last byte of a list of bits. -/
def lastByte (l : ListReader) : ℕ := 8 * (l.elementCount.get / 8)

/-- Where two lists of bits are the same up to their last byte, which is not full, they are the same
in the elements there just when they are the same in as many bits from the other end of the byte. -/
def MaskAgrees (x y : ListReader) : Prop :=
  x.elementSize = .bit → y.elementSize = .bit → x.elementCount = y.elementCount →
    (∀ i < x.lastByte, x.bit i = y.bit i) →
    ((∀ k < x.elementCount.get % 8, x.bit (x.lastByte + k) = y.bit (x.lastByte + k)) ↔
      ∀ k < x.elementCount.get % 8, x.bit (x.lastByte + (7 - k)) = y.bit (x.lastByte + (7 - k)))

/-- The lists, and pointers that lead to them, compare as equal just when their elements are the
same. -/
structure ComparesElements (x y : ListReader) : Prop where
  list : ∀ depth s, ∃ r, x.equality y depth s = .ok r s ∧ (r = .equal ↔ x.SameElements y)
  ptr : ∀ (p q : PtrReader) depth s t,
    p.reader.tryReadTyped p.ptr s.1 = .ok (x.reader, .list x.content) t.1 →
    q.reader.tryReadTyped q.ptr s.2 = .ok (y.reader, .list y.content) t.2 →
    ∃ r, p.equality q (depth + 1) s = .ok r t ∧ (r = .equal ↔ x.SameElements y)

end ListReader

/-! ## Bits of lists -/

section Bits

variable {x y : ListReader} {ours theirs : ℕ → Word} {n : ℕ}

/-- A bit of some words. -/
def bitAt (words : ℕ → Word) (i : ℕ) : Bool := (words (i / 64)).bit (i % 64)

lemma bitAt_byte (words : ℕ → Word) (k : ℕ) {j : ℕ} (hj : j < 8) :
    bitAt words (8 * k + j) = ((words (k / 8)).bytes.getD (k % 8) 0).toNat.testBit j := by
  rw [bitAt, Word.bit, show (8 * k + j) / 64 = k / 8 by omega,
    show (8 * k + j) % 64 / 8 = k % 8 by omega, show (8 * k + j) % 64 % 8 = j by omega]

/-- Bytes with the same bits are the same. -/
lemma byte_eq_iff {a b : Byte} : a = b ↔ ∀ j < 8, a.toNat.testBit j = b.toNat.testBit j := by
  constructor
  · rintro rfl j -
    rfl
  · intro h
    refine UInt8.toNat_inj.1 (Nat.eq_of_testBit_eq fun j => ?_)
    by_cases hj : j < 8
    · exact h j hj
    · rw [Word.testBit_byte_of_le _ (Nat.not_lt.1 hj), Word.testBit_byte_of_le _ (Nat.not_lt.1 hj)]

/-- Bytes are the same just when their bits are. -/
lemma sameBytes_iff :
    Equality.sameBytes ours theirs n = true ↔ ∀ i < 8 * n, bitAt ours i = bitAt theirs i := by
  rw [Equality.sameBytes, List.all_eq_true]
  constructor
  · intro h i hi
    have hbyte := h (i / 8) (List.mem_range.2 (by omega))
    rw [beq_iff_eq, byte_eq_iff] at hbyte
    have hbit := hbyte (i % 8) (Nat.mod_lt i (by decide))
    rwa [← bitAt_byte _ _ (Nat.mod_lt i (by decide)), ← bitAt_byte _ _ (Nat.mod_lt i (by decide)),
      Nat.div_add_mod] at hbit
  · intro h k hk
    rw [beq_iff_eq, byte_eq_iff]
    intro j hj
    rw [← bitAt_byte _ _ hj, ← bitAt_byte _ _ hj]
    exact h _ (by have := List.mem_range.1 hk; omega)

/-- The mask leaves the highest bits. -/
lemma testBit_mask (p : Fin 8) (j : Fin 8) :
    (~~~((255 : Byte) >>> p.val.toUInt8)).toNat.testBit j = decide (8 ≤ j.val + p) := by
  revert p j
  decide

lemma and_mask_eq_iff {a b : Byte} {p : ℕ} (hp : p < 8) :
    a &&& ~~~((255 : Byte) >>> p.toUInt8) = b &&& ~~~((255 : Byte) >>> p.toUInt8) ↔
      ∀ k < p, a.toNat.testBit (7 - k) = b.toNat.testBit (7 - k) := by
  have hbit : ∀ c : Byte, ∀ j < 8, (c &&& ~~~((255 : Byte) >>> p.toUInt8)).toNat.testBit j =
      (c.toNat.testBit j && decide (8 ≤ j + p)) := by
    intro c j hj
    rw [testBit_and]
    exact congrArg _ (testBit_mask ⟨p, hp⟩ ⟨j, hj⟩)
  rw [byte_eq_iff]
  constructor
  · intro h k hk
    have hj := h (7 - k) (by omega)
    rwa [hbit _ _ (by omega), hbit _ _ (by omega), decide_eq_true (by omega), Bool.and_true,
      Bool.and_true] at hj
  · intro h j hj
    rw [hbit _ _ hj, hbit _ _ hj]
    by_cases hmask : 8 ≤ j + p
    · have hk := h (7 - j) (by omega)
      rw [show 7 - (7 - j) = j by omega] at hk
      rw [hk]
    · rw [decide_eq_false hmask, Bool.and_false, Bool.and_false]

/-- Lists of bits compare as equal when their full bytes are, and the highest bits of the rest. -/
lemma cmpBits_iff :
    Equality.cmpBits ours theirs n = true ↔
      (∀ i < 8 * (n / 8), bitAt ours i = bitAt theirs i) ∧
      ∀ k < n % 8, bitAt ours (8 * (n / 8) + (7 - k)) = bitAt theirs (8 * (n / 8) + (7 - k)) := by
  rw [Equality.cmpBits]
  by_cases hfull : n % 8 = 0
  · rw [if_pos hfull, sameBytes_iff, hfull]
    exact (and_iff_left fun k hk => absurd hk (Nat.not_lt_zero k)).symm
  · rw [if_neg hfull, Bool.and_eq_true, sameBytes_iff, beq_iff_eq,
      and_mask_eq_iff (Nat.mod_lt n (by decide))]
    refine and_congr_right fun _ => forall₂_congr fun k _ => ?_
    rw [bitAt_byte _ _ (by omega), bitAt_byte _ _ (by omega)]

end Bits

/-! ## Elements of lists -/

section Lists

variable {x y : ListReader} {type : DataType}

/-- The words of a list that can be read. -/
lemma sectionSlice_of_inBounds {ε σ : Type} {reader : ObjectReader} {ptr len : ℕ}
    (h : reader.inBounds ptr len = true) :
    (reader.sectionSlice ptr len : Prog ε σ (ℕ → Word)) = pure fun k => reader.word (ptr + k) := by
  rw [ObjectReader.sectionSlice, require_of h, pure_bind_eq]

/-- A part of a section is a section. -/
lemma inBounds_of_le {reader : ObjectReader} {ptr len k n : ℕ}
    (h : reader.inBounds ptr len = true) (hle : k + n ≤ len) :
    reader.inBounds (ptr + k) n = true := by
  rw [ObjectReader.inBounds] at h ⊢
  cases hsource : reader.source with
  | checked segment =>
    rw [hsource] at h
    have hlen : ptr + len ≤ segment.segment.len.get := of_decide_eq_true h
    exact decide_eq_true (show ptr + k + n ≤ segment.segment.len.get by omega)
  | unchecked memory => rfl

lemma bits_elementSize (type : DataType) : type.elementSize.bits = type.bits := by
  cases type <;> rfl

/-- The slot of an element is its number. -/
lemma elementSlot_elementSize {ε σ : Type} (i : ℕ) :
    (elementSlot type type.elementSize i : Prog ε σ ℕ) = pure i := by
  by_cases hbool : type = .bool
  · subst hbool
    rfl
  · rw [elementSlot_eq hbool (show _ = type.bits * 1 by rw [bits_elementSize, Nat.mul_one]),
      Nat.one_mul]

/-- What is returned is the same. -/
lemma pure_eq_pure_iff {m n : ℕ} : (pure m : Prog Empty Unit ℕ) = pure n ↔ m = n := by
  constructor
  · intro h
    exact (pure_eq_ok.1 (congrFun h ())).1
  · rintro rfl
    rfl

/-- The element that a list has at an index. -/
lemma ListReader.HoldsData.dataUnchecked_eq (h : x.HoldsData)
    (hsize : type.elementSize = x.elementSize) {i : ℕ} (hi : i < x.elementCount.get) :
    (x.dataUnchecked type i : Prog Empty Unit ℕ) =
      pure (type.read (x.reader.word (x.ptr + type.begins i / 64)) i) := by
  have hfits := h.fits
  rw [← hsize, bits_elementSize] at hfits
  have hend : type.bits * i + type.bits ≤ type.bits * x.elementCount.get := by
    rw [← Nat.mul_succ]
    exact Nat.mul_le_mul_left _ hi
  have hpos := type.bits_pos
  have hword : type.begins i / 64 + 1 ≤ (type.bits * x.elementCount.get + 63) / 64 := by
    rw [DataType.begins]
    omega
  rw [dataUnchecked, ← hsize, elementSlot_elementSize, pure_bind_eq,
    sectionSlice_of_inBounds (inBounds_of_le hfits hword), pure_bind_eq]
  rfl

/-- Slots are the same just when their bits are. -/
lemma read_eq_read_iff {v w : Word} {i : ℕ} :
    type.read v i = type.read w i ↔
      ∀ j < type.bits, v.bit (type.begins i % 64 + j) = w.bit (type.begins i % 64 + j) := by
  constructor
  · intro h j hj
    have hv := type.testBit_read v i j
    rw [h, type.testBit_read, decide_eq_true hj, Bool.true_and, Bool.true_and] at hv
    exact hv.symm
  · intro h
    refine type.read_congr i fun k hle hlt => ?_
    have hk := h (k - type.begins i % 64) (by omega)
    rwa [Nat.add_sub_cancel' hle] at hk

/-- **Elements are the same just when all bits are.** -/
lemma ListReader.HoldsData.sameElements_iff (hx : x.HoldsData) (hy : y.HoldsData)
    (hsize : type.elementSize = x.elementSize) (hsame : x.elementSize = y.elementSize)
    (hcount : x.elementCount = y.elementCount) :
    x.SameElements y ↔ ∀ i < type.bits * x.elementCount.get, x.bit i = y.bit i := by
  have helement : ∀ i < x.elementCount.get,
      ((x.dataUnchecked type i : Prog Empty Unit ℕ) = y.dataUnchecked type i ↔
        ∀ j < type.bits, x.bit (type.begins i + j) = y.bit (type.begins i + j)) := by
    intro i hi
    have hin := type.begins_mod_add_le i
    rw [hx.dataUnchecked_eq hsize hi, hy.dataUnchecked_eq (hsize.trans hsame) (hcount ▸ hi)]
    rw [pure_eq_pure_iff, read_eq_read_iff]
    refine forall₂_congr fun j hj => ?_
    rw [bit, bit, show (type.begins i + j) / 64 = type.begins i / 64 by omega,
      show (type.begins i + j) % 64 = type.begins i % 64 + j by omega]
  constructor
  · intro h k hk
    have hpos := type.bits_pos
    have hi : k / type.bits < x.elementCount.get := by
      rw [Nat.div_lt_iff_lt_mul hpos, Nat.mul_comm]
      exact hk
    have hbit := (helement _ hi).1 (h.elements type hsize _ hi) _ (Nat.mod_lt k hpos)
    rwa [DataType.begins, Nat.div_add_mod] at hbit
  · intro h
    refine ⟨hsame, hcount, fun type' hsize' i hi => ?_⟩
    obtain rfl : type' = type := by
      have heq := hsize'.trans hsize.symm
      cases type' <;> cases type <;> first | rfl | cases heq
    refine (helement i hi).2 fun j hj => h _ ?_
    calc type'.begins i + j < type'.bits * i + type'.bits := Nat.add_lt_add_left hj _
      _ = type'.bits * (i + 1) := rfl
      _ ≤ type'.bits * x.elementCount.get := Nat.mul_le_mul_left _ hi

/-! ## What comparing comes to -/

/-- What words compare as. -/
lemma cmpData_eq (hx : x.HoldsData) (hy : y.HoldsData) (hsize : x.elementSize = y.elementSize)
    (hcount : x.elementCount = y.elementCount) (hbits : x.elementSize.bits ≤ 64)
    (same : (ℕ → Word) → (ℕ → Word) → Bool) (s : Limiter × Limiter) :
    Equality.cmpData x.content x.reader y.content y.reader same s =
      .ok (if same (fun k => x.reader.word (x.ptr + k)) (fun k => y.reader.word (y.ptr + k)) = true
        then .equal else .notEqual) s := by
  obtain ⟨hwords, hlt⟩ := ElementSize.totalWords_of_bits_le hbits x.elementCount
  have hunwrap : (Prog.unwrap (U29.new (x.content.elementSize.totalWords
      x.content.elementCount.get)) : EqualityM U29) = pure ⟨_, hlt⟩ := by
    rw [show U29.new (x.content.elementSize.totalWords x.content.elementCount.get) =
      some ⟨_, hlt⟩ from dif_pos hlt]
    rfl
  have hfitsOurs := hx.fits
  have hfitsTheirs := hy.fits
  rw [← hsize, ← hcount, ← hwords] at hfitsTheirs
  rw [← hwords] at hfitsOurs
  rw [Equality.cmpData, hunwrap, pure_bind_eq, ListReader.content, ListReader.content,
    sectionSlice_of_inBounds hfitsOurs, pure_bind_eq, sectionSlice_of_inBounds hfitsTheirs,
    pure_bind_eq]
  split <;> rfl

/-- Lists of data compare without more reads, and what they compare as decides. -/
lemma ListReader.comparesElements_iff {r : PtrEquality}
    (h : ∀ cmp s, Equality.cmpList cmp x.content x.reader y.content y.reader s = .ok r s) :
    x.ComparesElements y ↔ (r = .equal ↔ x.SameElements y) := by
  constructor
  · intro hcompares
    obtain ⟨r', hrun, hr⟩ := hcompares.list 0 (none, none)
    cases (h _ _).symm.trans hrun
    exact hr
  · intro hr
    refine ⟨fun depth s => ⟨r, h _ s, hr⟩, fun p q depth s t hours htheirs => ⟨r, ?_, hr⟩⟩
    -- a null pointer is read as a struct
    have hnull : (p.reader.word p.ptr).isNull = false := by
      rw [Bool.eq_false_iff]
      intro hnull
      obtain ⟨⟨reader, object⟩, limiter, hlocation, hread⟩ := bind_eq_ok.1 hours
      have hlocates : p.reader.locationOf p.ptr = pure (p.reader, ⟨Word.null, .near p.ptr⟩) := by
        rw [ObjectReader.locationOf, Word.isNull_iff.1 hnull]
        rfl
      rw [hlocates] at hlocation
      cases hlocation
      obtain ⟨⟨_, _⟩, _, -, heq⟩ := bind_eq_ok.1 hread
      exact TypedContent.noConfusion (congrArg Prod.snd (pure_eq_ok.1 heq).1)
    have hours' : Equality.readingOurs (p.reader.tryReadTyped p.ptr) s =
        .ok (x.reader, .list x.content) (t.1, s.2) := zoom_eq_ok.2 ⟨_, hours, rfl⟩
    have htheirs' : Equality.readingTheirs (q.reader.tryReadTyped q.ptr) (t.1, s.2) =
        .ok (y.reader, .list y.content) t := zoom_eq_ok.2 ⟨_, htheirs, rfl⟩
    rw [PtrReader.equality, Equality.cmpPtr, hnull, Bool.false_and]
    refine (if_neg_apply Bool.false_ne_true _ _ _).trans ?_
    refine (bind_of_ok hours').trans ?_
    exact (bind_of_ok htheirs').trans (h _ t)

/-- Lists of the same size and length are compared by their elements, if they have any. -/
lemma cmpList_of_same (hsize : x.elementSize = y.elementSize)
    (hcount : x.elementCount = y.elementCount) (cmp : Equality.CmpPtr) (s : Limiter × Limiter) :
    Equality.cmpList cmp x.content x.reader y.content y.reader s =
      (if x.elementCount = U29.zero then pure .equal
      else Equality.cmpElements cmp x.content x.reader y.content y.reader) s := by
  refine (if_neg_apply (not_not.2 hcount) _ _ s).trans ?_
  exact if_neg_apply (not_not.2 (congrArg ElementSize.asPtrSize hsize)) _ _ s

/-- Lists of the same size that are not empty compare as their words do. -/
lemma ListReader.comparesElements_iff_same (hx : x.HoldsData) (hy : y.HoldsData)
    (hsize : x.elementSize = y.elementSize) (hcount : x.elementCount = y.elementCount)
    (hzero : x.elementCount ≠ U29.zero) (hbits : x.elementSize.bits ≤ 64)
    {same : (ℕ → Word) → (ℕ → Word) → Bool}
    (hmatch : ∀ cmp, Equality.cmpElements cmp x.content x.reader y.content y.reader =
      Equality.cmpData x.content x.reader y.content y.reader same) :
    x.ComparesElements y ↔
      (same (fun k => x.reader.word (x.ptr + k)) (fun k => y.reader.word (y.ptr + k)) = true ↔
        x.SameElements y) := by
  have hequal : ∀ b : Bool, (if b = true then PtrEquality.equal else .notEqual) = .equal ↔ b = true := by
    decide
  rw [← hequal]
  refine comparesElements_iff fun cmp s => ?_
  have hrun := cmpData_eq hx hy hsize hcount hbits same s
  rw [← hmatch cmp] at hrun
  rw [← hrun, cmpList_of_same hsize hcount]
  exact if_neg_apply hzero _ _ s

/-- Lists of bits are compared up to the last byte, and there by the highest bits. -/
lemma comparesElements_iff_of_bit (hx : x.HoldsData) (hy : y.HoldsData)
    (hbit : x.elementSize = .bit) (hsize : x.elementSize = y.elementSize)
    (hcount : x.elementCount = y.elementCount) (hzero : x.elementCount ≠ U29.zero) :
    x.ComparesElements y ↔ x.MaskAgrees y := by
  have hwidth : x.elementSize.bits ≤ 64 := by
    rw [hbit]
    decide
  have hmatch : ∀ cmp, Equality.cmpElements cmp x.content x.reader y.content y.reader =
      Equality.cmpData x.content x.reader y.content y.reader fun ours theirs =>
        Equality.cmpBits ours theirs x.elementCount.get := by
    intro cmp
    rw [Equality.cmpElements, show x.content.elementSize = .bit from hbit]
    rfl
  rw [ListReader.comparesElements_iff_same hx hy hsize hcount hzero hwidth hmatch, cmpBits_iff,
    @ListReader.HoldsData.sameElements_iff x y .bool hx hy hbit.symm hsize hcount]
  -- the elements are the bits up to the last byte, and the lowest ones of it
  have hsplit : (∀ i < DataType.bool.bits * x.elementCount.get, x.bit i = y.bit i) ↔
      (∀ i < x.lastByte, x.bit i = y.bit i) ∧
        ∀ k < x.elementCount.get % 8, x.bit (x.lastByte + k) = y.bit (x.lastByte + k) := by
    have hcut : DataType.bool.bits * x.elementCount.get = x.lastByte + x.elementCount.get % 8 := by
      show 1 * x.elementCount.get = 8 * (x.elementCount.get / 8) + x.elementCount.get % 8
      omega
    rw [hcut]
    constructor
    · intro h
      exact ⟨fun i hi => h i (Nat.lt_add_right _ hi), fun k hk => h _ (Nat.add_lt_add_left hk _)⟩
    · rintro ⟨hfull, hrest⟩ i hi
      rcases Nat.lt_or_ge i x.lastByte with hlt | hge
      · exact hfull i hlt
      · have hk := hrest (i - x.lastByte) (by omega)
        rwa [Nat.add_sub_cancel' hge] at hk
  rw [hsplit]
  constructor
  · intro h _ _ _ hfull
    have hiff := (and_iff_right hfull).symm.trans (h.symm.trans (and_iff_right hfull))
    exact hiff
  · intro h
    refine and_congr_right fun hfull => ?_
    exact (h hbit (hsize ▸ hbit) hcount hfull).symm

/-- Lists of numbers are compared by all of their bits. -/
lemma comparesElements_of_number (hx : x.HoldsData) (hy : y.HoldsData) (hne : type ≠ .bool)
    (hnumber : x.elementSize = type.elementSize) (hsize : x.elementSize = y.elementSize)
    (hcount : x.elementCount = y.elementCount) (hzero : x.elementCount ≠ U29.zero) :
    x.ComparesElements y := by
  obtain ⟨hbytes, -⟩ := DataType.bits_of_ne_bool hne
  have hmatch : ∀ cmp, Equality.cmpElements cmp x.content x.reader y.content y.reader =
      Equality.cmpData x.content x.reader y.content y.reader fun ours theirs =>
        Equality.sameBytes ours theirs ((type.elementSize.bits * x.elementCount.get + 7) / 8) := by
    intro cmp
    rw [Equality.cmpElements, show x.content.elementSize = type.elementSize from hnumber]
    cases type with
    | bool => exact absurd rfl hne
    | _ => rfl
  have hwidth : x.elementSize.bits ≤ 64 := by
    rw [hnumber]
    cases type <;> decide
  rw [ListReader.comparesElements_iff_same hx hy hsize hcount hzero hwidth hmatch, sameBytes_iff,
    hx.sameElements_iff hy hnumber.symm hsize hcount, bits_elementSize]
  have hall : 8 * ((type.bits * x.elementCount.get + 7) / 8) = type.bits * x.elementCount.get := by
    rw [hbytes, Nat.mul_assoc]
    omega
  rw [hall]
  exact Iff.rfl

/-- **Lists of data compare as their elements do, but for the mask.** -/
theorem ListReader.comparesElements_iff_maskAgrees (hx : x.HoldsData) (hy : y.HoldsData) :
    x.ComparesElements y ↔ x.MaskAgrees y := by
  by_cases hcount : x.elementCount = y.elementCount
  swap
  · -- another length
    have hrun : ∀ cmp s, Equality.cmpList cmp x.content x.reader y.content y.reader s =
        .ok .notEqual s := fun cmp s => if_pos_apply hcount _ _ s
    rw [comparesElements_iff hrun]
    exact ⟨fun _ _ _ h => absurd h hcount, fun _ => ⟨(fun h => nomatch h), fun h => absurd h.count hcount⟩⟩
  by_cases hsize : x.elementSize = y.elementSize
  swap
  · -- other elements
    have hptrSize : x.elementSize.asPtrSize ≠ y.elementSize.asPtrSize := by
      rcases hx.data with hvoid | ⟨type, htype⟩ <;> rcases hy.data with hvoid' | ⟨type', htype'⟩
      · exact absurd (hvoid.trans hvoid'.symm) hsize
      · rw [hvoid, htype']
        cases type' <;> decide
      · rw [htype, hvoid']
        cases type <;> decide
      · rw [htype, htype'] at hsize ⊢
        cases type <;> cases type' <;> first | exact absurd rfl hsize | decide
    have hrun : ∀ cmp s, Equality.cmpList cmp x.content x.reader y.content y.reader s =
        .ok .notEqual s := by
      intro cmp s
      refine (if_neg_apply (not_not.2 hcount) _ _ s).trans ?_
      exact if_pos_apply hptrSize _ _ s
    rw [comparesElements_iff hrun]
    refine ⟨fun _ hbit hbit' => absurd (hbit.trans hbit'.symm) hsize, fun _ => ?_⟩
    exact ⟨(fun h => nomatch h), fun h => absurd h.size hsize⟩
  by_cases hzero : x.elementCount = U29.zero
  · -- no elements
    have hrun : ∀ cmp s, Equality.cmpList cmp x.content x.reader y.content y.reader s =
        .ok .equal s := by
      intro cmp s
      rw [cmpList_of_same hsize hcount]
      exact if_pos_apply hzero _ _ s
    have hnone : x.elementCount.get = 0 := congrArg U29.get hzero
    rw [comparesElements_iff hrun]
    constructor
    · rintro - - - - -
      rw [hnone]
      exact ⟨fun _ k hk => absurd hk (Nat.not_lt_zero k), fun _ k hk => absurd hk (Nat.not_lt_zero k)⟩
    · intro _
      refine ⟨fun _ => ⟨hsize, hcount, fun _ _ i hi => ?_⟩, fun _ => rfl⟩
      rw [hnone] at hi
      exact absurd hi (Nat.not_lt_zero i)
  rcases hx.data with hvoid | ⟨type, htype⟩
  · -- elements without bits
    have hrun : ∀ cmp s, Equality.cmpList cmp x.content x.reader y.content y.reader s =
        .ok .equal s := by
      intro cmp s
      rw [cmpList_of_same hsize hcount]
      refine (if_neg_apply hzero _ _ s).trans ?_
      rw [Equality.cmpElements, show x.content.elementSize = .void from hvoid]
      rfl
    rw [comparesElements_iff hrun]
    refine ⟨fun _ hbit => absurd (hvoid.symm.trans hbit) (by decide), fun _ => ?_⟩
    refine ⟨fun _ => ⟨hsize, hcount, fun type htype => ?_⟩, fun _ => rfl⟩
    rw [hvoid] at htype
    cases type <;> cases htype
  · by_cases hbool : type = .bool
    · subst hbool
      exact comparesElements_iff_of_bit hx hy htype hsize hcount hzero
    · refine iff_of_true (comparesElements_of_number hx hy hbool htype hsize hcount hzero) ?_
      intro hbit
      rw [htype] at hbit
      cases type with
      | bool => exact absurd rfl hbool
      | _ => cases hbit

end Lists

/-- A list of one bit, which is the lowest one of a word. -/
def oneBitList (byte : Byte) : ListReader :=
  ⟨1, .inSegment (fun _ => none) 0 ⟨fun _ => ⟨byte, 0, 0, 0, 0, 0, 0, 0⟩, ⟨2, U29.two_lt⟩⟩,
    ⟨1, U29.one_lt⟩, 64, .bit⟩

lemma holdsData_oneBitList (byte : Byte) : (oneBitList byte).HoldsData :=
  ⟨Or.inr ⟨.bool, rfl⟩, decide_eq_true (by decide : 1 + (1 * 1 + 63) / 64 ≤ 2)⟩

theorem ListReader.comparesElements_iff_maskAgrees_oneBit :
    (oneBitList 3).ComparesElements (oneBitList 1) ↔ (oneBitList 3).MaskAgrees (oneBitList 1) :=
  ListReader.comparesElements_iff_maskAgrees (holdsData_oneBitList 3) (holdsData_oneBitList 1)

/-- The lists of a set and of a clear bit compare as equal. -/
theorem ListReader.not_comparesElements :
    ¬ (oneBitList 1).ComparesElements (oneBitList 0) := by
  intro h
  obtain ⟨r, hrun, hr⟩ := h.list 0 (none, none)
  have hequal : (oneBitList 1).equality (oneBitList 0) 0 (none, none) = .ok .equal (none, none) := rfl
  cases hequal.symm.trans hrun
  have hbit := (hr.1 rfl).elements .bool rfl 0 Nat.one_pos
  exact absurd (Outcome.ok.inj (congrFun hbit ())).1 (by decide)

end Recapn.Ptr

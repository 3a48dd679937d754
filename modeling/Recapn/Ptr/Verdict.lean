/-
# What a comparison comes to

Two pointers that can be read are compared by their values.  `Differ` says of two values that the
comparison of pointers tells them apart.  A struct is told from another when their data words are
not the same as they lie, or when pointers differ that both structs have: that is not how
`StructReader::equality` compares structs, which leaves out null words at the end of the data, and
counts the pointers up to the last that is not null.
-/
import Recapn.Lib.Depth
import Recapn.Ptr.Terms
import Recapn.Ptr.Value

namespace Recapn.Ptr

open Recapn.Lib Recapn.Lib.Prog Equality

/-! ## Values that differ -/

/-- A struct of a value: the object itself, or an element of a list of structs. -/
structure StructValue where
  size : StructSize
  word : ℕ → Word
  ptr : ℕ → Value

/-- The struct at an offset in the block. -/
def Value.part (v : Value) (offset : ℕ) (size : StructSize) : StructValue where
  size := size
  word k := v.word (offset + k)
  ptr k := v.ptr (offset + size.data + k)

/-- Structs that are compared when the values are. -/
inductive Parts (v w : Value) : StructValue → StructValue → Prop
  | object {size size' : StructSize} (hv : v.shape = some (.struct size))
      (hw : w.shape = some (.struct size')) : Parts v w (v.part 0 size) (w.part 0 size')
  | element {size size' : StructSize} {count : ElementCount} {i : ℕ}
      (hv : v.shape = some (.list (.inlineComposite size) count))
      (hw : w.shape = some (.list (.inlineComposite size') count)) (hi : i < count.get) :
      Parts v w (v.part (size.total * i) size) (w.part (size'.total * i) size')

/-- Objects of which the contents are compared. -/
def SameKind : Option Shape → Option Shape → Prop
  | some (.struct _), some (.struct _) => True
  | some (.list size count), some (.list size' count') =>
    count = count' ∧ size.asPtrSize = size'.asPtrSize
  | none, none => True
  | _, _ => False

/-- The elements of a list of data are the same. -/
def ElementSize.sameElements (size : ElementSize) (count : ℕ) (ours theirs : ℕ → Word) : Bool :=
  match size with
  | void | pointer | inlineComposite _ => true
  | bit => cmpBits ours theirs count
  | size => sameBytes ours theirs ((size.bits * count + 7) / 8)

/-- The data words are the same as they lie. -/
def StructValue.SameData (x y : StructValue) : Prop :=
  x.size.data = y.size.data ∧ ∀ k < x.size.data, x.word k = y.word k

/-- Two values differ. -/
inductive Value.Differ : Value → Value → Prop
  | kind {v w : Value} (h : ¬ SameKind v.shape w.shape) : Differ v w
  | elements {v w : Value} {size : ElementSize} {count : ElementCount}
      (hv : v.shape = some (.list size count)) (hw : w.shape = some (.list size count))
      (h : size.sameElements count.get v.word w.word = false) : Differ v w
  | item {v w : Value} {count : ElementCount} {i : ℕ} (hv : v.shape = some (.list .pointer count))
      (hw : w.shape = some (.list .pointer count)) (hi : i < count.get)
      (h : Differ (v.ptr i) (w.ptr i)) : Differ v w
  | data {v w : Value} {x y : StructValue} (hparts : Parts v w x y) (h : ¬ x.SameData y) :
      Differ v w
  | field {v w : Value} {x y : StructValue} {k : ℕ} (hparts : Parts v w x y)
      (hx : k < x.size.ptrs) (hy : k < y.size.ptrs) (h : Differ (x.ptr k) (y.ptr k)) : Differ v w

namespace StructValue

/-- Pointers differ that both structs have. -/
def PtrsDiffer (x y : StructValue) : Prop :=
  ∃ k, k < x.size.ptrs ∧ k < y.size.ptrs ∧ (x.ptr k).Differ (y.ptr k)

end StructValue

section Differ

variable {v w : Value}

lemma differ_structs {size size' : StructSize} (hv : v.shape = some (.struct size))
    (hw : w.shape = some (.struct size')) :
    v.Differ w ↔ ¬ (v.part 0 size).SameData (w.part 0 size') ∨
      (v.part 0 size).PtrsDiffer (w.part 0 size') := by
  constructor
  · intro h
    cases h with
    | kind h =>
      rw [hv, hw] at h
      exact absurd trivial h
    | elements hv' | item hv' =>
      rw [hv] at hv'
      cases hv'
    | data hparts h =>
      cases hparts with
      | object hv' hw' =>
        rw [hv] at hv'
        rw [hw] at hw'
        cases hv'
        cases hw'
        exact .inl h
      | element hv' =>
        rw [hv] at hv'
        cases hv'
    | field hparts hx hy h =>
      cases hparts with
      | object hv' hw' =>
        rw [hv] at hv'
        rw [hw] at hw'
        cases hv'
        cases hw'
        exact .inr ⟨_, hx, hy, h⟩
      | element hv' =>
        rw [hv] at hv'
        cases hv'
  · rintro (h | ⟨k, hx, hy, h⟩)
    · exact .data (.object hv hw) h
    · exact .field (.object hv hw) hx hy h

lemma differ_elements {size size' : StructSize} {count : ElementCount}
    (hv : v.shape = some (.list (.inlineComposite size) count))
    (hw : w.shape = some (.list (.inlineComposite size') count)) :
    v.Differ w ↔ ∃ i < count.get,
      ¬ (v.part (size.total * i) size).SameData (w.part (size'.total * i) size') ∨
        (v.part (size.total * i) size).PtrsDiffer (w.part (size'.total * i) size') := by
  constructor
  · intro h
    cases h with
    | kind h =>
      rw [hv, hw] at h
      exact absurd ⟨rfl, rfl⟩ h
    | elements hv' _ h =>
      rw [hv] at hv'
      cases hv'
      cases h
    | item hv' =>
      rw [hv] at hv'
      cases hv'
    | data hparts h =>
      cases hparts with
      | object hv' =>
        rw [hv] at hv'
        cases hv'
      | element hv' hw' hi =>
        rw [hv] at hv'
        rw [hw] at hw'
        cases hv'
        cases hw'
        exact ⟨_, hi, .inl h⟩
    | field hparts hx hy h =>
      cases hparts with
      | object hv' =>
        rw [hv] at hv'
        cases hv'
      | element hv' hw' hi =>
        rw [hv] at hv'
        rw [hw] at hw'
        cases hv'
        cases hw'
        exact ⟨_, hi, .inr ⟨_, hx, hy, h⟩⟩
  · rintro ⟨i, hi, h | ⟨k, hx, hy, h⟩⟩
    · exact .data (.element hv hw hi) h
    · exact .field (.element hv hw hi) hx hy h

lemma differ_pointers {count : ElementCount} (hv : v.shape = some (.list .pointer count))
    (hw : w.shape = some (.list .pointer count)) :
    v.Differ w ↔ ∃ i < count.get, (v.ptr i).Differ (w.ptr i) := by
  constructor
  · intro h
    cases h with
    | kind h =>
      rw [hv, hw] at h
      exact absurd ⟨rfl, rfl⟩ h
    | elements hv' _ h =>
      rw [hv] at hv'
      cases hv'
      cases h
    | item hv' _ hi h =>
      rw [hv] at hv'
      cases hv'
      exact ⟨_, hi, h⟩
    | data hparts | field hparts =>
      rcases hparts with ⟨hv', -⟩ | ⟨hv', -⟩ <;> rw [hv] at hv' <;> cases hv'
  · rintro ⟨i, hi, h⟩
    exact .item hv hw hi h

lemma differ_data {size : ElementSize} {count : ElementCount}
    (hv : v.shape = some (.list size count)) (hw : w.shape = some (.list size count))
    (hptrs : size ≠ .pointer) (hstructs : size.isInlineComposite = false) :
    v.Differ w ↔ size.sameElements count.get v.word w.word = false := by
  constructor
  · intro h
    cases h with
    | kind h =>
      rw [hv, hw] at h
      exact absurd ⟨rfl, rfl⟩ h
    | elements hv' _ h =>
      rw [hv] at hv'
      cases hv'
      exact h
    | item hv' =>
      rw [hv] at hv'
      cases hv'
      exact absurd rfl hptrs
    | data hparts | field hparts =>
      rcases hparts with ⟨hv', -⟩ | ⟨hv', -⟩ <;> rw [hv] at hv' <;> cases hv'
      cases hstructs
  · exact .elements hv hw

end Differ

/-! ## Coming to a verdict -/

/-- The comparison comes to a verdict, at every depth that is large enough, and the verdict is
`NotEqual` just when `D` holds.  Limiters can only keep it from a verdict. -/
def Decides (run : ℕ → EqualityM PtrEquality) (D : Prop) : Prop :=
  ∃ verdict, Settles (none, none) verdict run ∧ (verdict = .notEqual ↔ D)

section Decides

variable {D D' : Prop} {run : ℕ → EqualityM PtrEquality}

lemma Decides.congr (h : Decides run D) (hiff : D ↔ D') : Decides run D' := by
  obtain ⟨verdict, hrun, hverdict⟩ := h
  exact ⟨verdict, hrun, hverdict.trans hiff⟩

lemma decides_notEqual (h : D) : Decides (fun _ => pure .notEqual) D :=
  ⟨.notEqual, settles_pure _, fun _ => h, fun _ => rfl⟩

lemma decides_equal (h : ¬ D) : Decides (fun _ => pure .equal) D :=
  ⟨.equal, settles_pure _, nofun, fun hD => absurd hD h⟩

lemma decides_ite {p : Prop} {inst : Decidable p} (h : p → Decides run D) :
    Decides (fun depth => if p then run depth else pure .notEqual) (¬ p ∨ D) := by
  by_cases hp : p
  · simp only [if_pos hp]
    exact (h hp).congr ⟨.inr, fun h => h.resolve_left (not_not_intro hp)⟩
  · simp only [if_neg hp]
    exact decides_notEqual (.inl hp)

lemma decides_bind {α : Type} {x : ℕ → EqualityM α} {f : ℕ → α → EqualityM PtrEquality} {a : α}
    (hx : Settles (none, none) a x) (hf : Decides (fun depth => f depth a) D) :
    Decides (fun depth => x depth >>= f depth) D := by
  obtain ⟨verdict, hrun, hverdict⟩ := hf
  exact ⟨verdict, settles_bind hx hrun, hverdict⟩

lemma Decides.of_succ (h : Decides (fun depth => run (depth + 1)) D) : Decides run D := by
  obtain ⟨verdict, hrun, hverdict⟩ := h
  exact ⟨verdict, hrun.of_succ, hverdict⟩

/-- A loop over pairs tells them apart when one of the pairs is told apart. -/
lemma decides_cmpAll {n : ℕ} {cmp : ℕ → ℕ → EqualityM PtrEquality} {E : ℕ → Prop}
    (h : ∀ k < n, Decides (fun depth => cmp depth k) (E k)) :
    Decides (fun depth => cmpAll n (cmp depth)) (∃ k < n, E k) := by
  induction n with
  | zero => exact decides_equal (by
      rintro ⟨k, hk, -⟩
      omega)
  | succ n ih =>
    obtain ⟨before, hbefore, hiff⟩ := ih fun k hk => h k (Nat.lt_succ_of_lt hk)
    obtain ⟨last, hlast, hiff'⟩ := h n (Nat.lt_succ_self n)
    refine decides_bind hbefore ?_
    by_cases hnot : before = .notEqual
    · obtain ⟨k, hk, hE⟩ := hiff.1 hnot
      simp only [if_pos hnot]
      exact decides_notEqual ⟨k, Nat.lt_succ_of_lt hk, hE⟩
    · simp only [if_neg hnot]
      have hnone : ¬ ∃ k < n, E k := fun hE => hnot (hiff.2 hE)
      refine decides_bind hlast ?_
      have hstep : (∃ k < n + 1, E k) ↔ E n := by
        constructor
        · rintro ⟨k, hk, hE⟩
          rcases Nat.lt_succ_iff_lt_or_eq.1 hk with hlt | rfl
          · exact absurd ⟨k, hlt, hE⟩ hnone
          · exact hE
        · exact fun hE => ⟨n, Nat.lt_succ_self n, hE⟩
      by_cases hequal : last = .equal
      · simp only [if_pos hequal]
        refine ⟨before, settles_pure _, ?_⟩
        rw [hstep, ← hiff', hequal]
        exact ⟨fun h => absurd h hnot, nofun⟩
      · simp only [if_neg hequal]
        exact ⟨last, settles_pure _, hiff'.trans hstep.symm⟩

end Decides

/-! ## Comparing what pointers point to -/

section Comparing

variable {a b : ReadArena} {ourId theirId ourBlockId theirBlockId : SegmentId}
  {ourSrc theirSrc ourStart theirStart : ℕ} {v w : Value} {ourShape theirShape : Shape}
  {ourSegment theirSegment ourBlock theirBlock : Segment}

/-- A pointer of our block is compared with one of theirs by their values. -/
def ComparesSlots (a b : ReadArena) (ourId theirId : SegmentId) (ourBlock theirBlock : Segment)
    (ourStart theirStart : ℕ) (v w : Value) (ourShape theirShape : Shape) : Prop :=
  ∀ i < ourShape.words, ourShape.isPtr i = true → ∀ j < theirShape.words, theirShape.isPtr j = true →
    Decides (fun depth => cmpPtr depth (ourStart + i) (.inSegment a ourId ourBlock) (theirStart + j)
      (.inSegment b theirId theirBlock)) ((v.ptr i).Differ (w.ptr j))

lemma sameWords_iff {ours theirs : ℕ → Word} {len : ℕ} :
    sameWords ours theirs len = true ↔ ∀ k < len, ours k = theirs k := by
  simp [sameWords]

section Structs

variable (hours : Opened a ourId ourSrc v ourShape ourBlockId ourBlock ourStart)
  (htheirs : Opened b theirId theirSrc w theirShape theirBlockId theirBlock theirStart) {i j : ℕ}
  {size size' : StructSize} (hpart : ourShape.PartAt i size) (hpart' : theirShape.PartAt j size')

include hpart hpart'

/-- Pointers of structs are compared by their values. -/
lemma decides_part {k : ℕ} (hslots : ComparesSlots a b ourBlockId theirBlockId ourBlock theirBlock
      ourStart theirStart v w ourShape theirShape) (hk : k < size.ptrs) (hk' : k < size'.ptrs) :
    Decides (fun depth => cmpPtr depth (ourStart + i + size.data + k)
        (.inSegment a ourBlockId ourBlock) (theirStart + j + size'.data + k)
        (.inSegment b theirBlockId theirBlock))
      (((v.part i size).ptr k).Differ ((w.part j size').ptr k)) := by
  have hle := hpart.le
  have hle' := hpart'.le
  have htotal := size.total_eq
  have htotal' : size'.total = size'.data + size'.ptrs := rfl
  have hslot := hslots (i + size.data + k) (by omega) (by
    rw [Nat.add_assoc, hpart.isPtr _ (by omega)]
    exact decide_eq_true (by omega)) (j + size'.data + k) (by omega) (by
    rw [Nat.add_assoc, hpart'.isPtr _ (by omega)]
    exact decide_eq_true (by omega))
  rw [← Nat.add_assoc, ← Nat.add_assoc, ← Nat.add_assoc, ← Nat.add_assoc] at hslot
  exact hslot

/-- The pointers that two structs both have are told apart as their values are. -/
lemma decides_cmpPtrs (hslots : ComparesSlots a b ourBlockId theirBlockId ourBlock theirBlock
      ourStart theirStart v w ourShape theirShape) :
    Decides (fun depth => cmpPtrs (cmpPtr depth) (ourStart + i + size.data)
        (.inSegment a ourBlockId ourBlock) (theirStart + j + size'.data)
        (.inSegment b theirBlockId theirBlock) (min size.ptrs size'.ptrs))
      ((v.part i size).PtrsDiffer (w.part j size')) := by
  refine (decides_cmpAll fun k hk => decides_part hpart hpart' hslots
    (Nat.lt_min.1 hk).1 (Nat.lt_min.1 hk).2).congr ?_
  constructor
  · rintro ⟨k, hk, hdiffer⟩
    exact ⟨k, (Nat.lt_min.1 hk).1, (Nat.lt_min.1 hk).2, hdiffer⟩
  · rintro ⟨k, hx, hy, hdiffer⟩
    exact ⟨k, Nat.lt_min.2 ⟨hx, hy⟩, hdiffer⟩

include hours htheirs

/-- A comparison of structs looks at the data words as they lie. -/
lemma cmpStruct_eq (cmpPtr : CmpPtr) :
    cmpStruct cmpPtr ⟨ourStart + i, size⟩ (.inSegment a ourBlockId ourBlock) ⟨theirStart + j, size'⟩
        (.inSegment b theirBlockId theirBlock)
      = if size.data = size'.data ∧ sameWords (v.part i size).word (w.part j size').word size.data = true
        then cmpPtrs cmpPtr (ourStart + i + size.data) (.inSegment a ourBlockId ourBlock)
          (theirStart + j + size'.data) (.inSegment b theirBlockId theirBlock)
          (min size.ptrs size'.ptrs)
        else pure .notEqual := by
  have hle := hpart.le
  have hle' := hpart'.le
  have htotal := size.total_eq
  have htotal' : size'.total = size'.data + size'.ptrs := rfl
  have hfits := hours.fits
  have hfits' := htheirs.fits
  have hdata : ourStart + i + size.data ≤ ourBlock.len.get := by omega
  have hdata' : theirStart + j + size'.data ≤ theirBlock.len.get := by omega
  have hsame (hlen : size.data = size'.data) :
      (sameWords (fun k => ourBlock.data (ourStart + i + k)) (fun k => theirBlock.data (theirStart + j + k))
        size.data = true) ↔ sameWords (v.part i size).word (w.part j size').word size.data = true := by
    rw [sameWords_iff, sameWords_iff]
    refine forall_congr' fun k => forall_congr' fun hk => ?_
    have hour := hours.word (i + k) (by omega) (by
      rw [hpart.isPtr k (by omega)]
      exact decide_eq_false (by omega))
    have htheir := htheirs.word (j + k) (by omega) (by
      rw [hpart'.isPtr k (by omega)]
      exact decide_eq_false (by omega))
    rw [Nat.add_assoc, Nat.add_assoc, hour, htheir]
    rfl
  unfold cmpStruct
  simp only [sectionSlice_eq_pure hdata, sectionSlice_eq_pure hdata', pure_bind_eq,
    and_congr_right hsame]
  rfl

/-- Structs are told apart by the data words as they lie, and by the pointers that both have. -/
lemma decides_cmpStruct (hslots : ComparesSlots a b ourBlockId theirBlockId ourBlock theirBlock
      ourStart theirStart v w ourShape theirShape) :
    Decides (fun depth => cmpStruct (cmpPtr depth) ⟨ourStart + i, size⟩
        (.inSegment a ourBlockId ourBlock) ⟨theirStart + j, size'⟩
        (.inSegment b theirBlockId theirBlock))
      (¬ (v.part i size).SameData (w.part j size') ∨ (v.part i size).PtrsDiffer (w.part j size')) := by
  simp only [cmpStruct_eq hours htheirs hpart hpart']
  refine (decides_ite fun _ => decides_cmpPtrs hpart hpart' hslots).congr ?_
  rw [sameWords_iff]
  rfl

end Structs

lemma sameBytes_congr {ours ours' theirs theirs' : ℕ → Word} {len words : ℕ}
    (hour : ∀ k < words, ours k = ours' k) (htheir : ∀ k < words, theirs k = theirs' k)
    (hlen : len ≤ 8 * words) : sameBytes ours theirs len = sameBytes ours' theirs' len := by
  rw [Bool.eq_iff_iff]
  simp only [sameBytes, List.all_eq_true, List.mem_range]
  refine forall_congr' fun k => forall_congr' fun hk => ?_
  rw [hour (k / 8) (by omega), htheir (k / 8) (by omega)]

/-- Whether elements are the same is a matter of the words of the list. -/
lemma sameElements_congr {size : ElementSize} {count : ℕ} {ours ours' theirs theirs' : ℕ → Word}
    (hour : ∀ k < (size.bits * count + 63) / 64, ours k = ours' k)
    (htheir : ∀ k < (size.bits * count + 63) / 64, theirs k = theirs' k) :
    size.sameElements count ours theirs = size.sameElements count ours' theirs' := by
  have hbytes : sameBytes ours theirs ((size.bits * count + 7) / 8)
      = sameBytes ours' theirs' ((size.bits * count + 7) / 8) :=
    sameBytes_congr hour htheir (by omega)
  cases size with
  | void | pointer | inlineComposite => rfl
  | bit =>
    replace hour : ∀ k < (1 * count + 63) / 64, ours k = ours' k := hour
    replace htheir : ∀ k < (1 * count + 63) / 64, theirs k = theirs' k := htheir
    have hfull : sameBytes ours theirs (count / 8) = sameBytes ours' theirs' (count / 8) :=
      sameBytes_congr hour htheir (by omega)
    show cmpBits ours theirs count = cmpBits ours' theirs' count
    unfold cmpBits
    by_cases hpartial : count % 8 = 0
    · rw [if_pos hpartial, if_pos hpartial, hfull]
    · -- the last byte is in a word of the list
      rw [if_neg hpartial, if_neg hpartial, hfull, hour (count / 8 / 8) (by omega),
        htheir (count / 8 / 8) (by omega)]
  | _ => exact hbytes

/-- Lists of data are told apart by their elements. -/
lemma decides_cmpData {size : ElementSize} {count : ElementCount}
    (hours : Opened a ourId ourSrc v (.list size count) ourBlockId ourBlock ourStart)
    (htheirs : Opened b theirId theirSrc w (.list size count) theirBlockId theirBlock theirStart)
    (hbits : size.bits ≤ 64) (hdata : ∀ k, (Shape.list size count).isPtr k = false) :
    Decides (fun _ => cmpData ⟨ourStart, size, count⟩ (.inSegment a ourBlockId ourBlock)
        ⟨theirStart, size, count⟩ (.inSegment b theirBlockId theirBlock)
        fun ours theirs => size.sameElements count.get ours theirs)
      (size.sameElements count.get v.word w.word = false) := by
  obtain ⟨hwords, hlt⟩ := ElementSize.totalWords_of_bits_le hbits count
  have hfits : ourStart + size.totalWords count.get ≤ ourBlock.len.get := by
    rw [hwords]
    exact hours.fits
  have hfits' : theirStart + size.totalWords count.get ≤ theirBlock.len.get := by
    rw [hwords]
    exact htheirs.fits
  have hsame : size.sameElements count.get (fun k => ourBlock.data (ourStart + k))
      (fun k => theirBlock.data (theirStart + k)) = size.sameElements count.get v.word w.word :=
    sameElements_congr (fun k hk => hours.word k hk (hdata k)) fun k hk => htheirs.word k hk (hdata k)
  unfold cmpData
  simp only [U29.new_of_lt hlt, unwrap_some, pure_bind_eq, sectionSlice_eq_pure hfits,
    sectionSlice_eq_pure hfits', hsame]
  rcases hverdict : size.sameElements count.get v.word w.word with _ | _
  · exact decides_notEqual rfl
  · exact decides_equal (by rintro ⟨⟩)

lemma eq_of_asPtrSize {size size' : ElementSize} (hstructs : size.isInlineComposite = false)
    (h : size.asPtrSize = size'.asPtrSize) : size = size' := by
  cases size with
  | inlineComposite => cases hstructs
  | _ => cases size' <;> first | rfl | cases h

/-- What is inside of a segment has a length that a segment can have. -/
lemma le_maxValue_of_fits {block : Segment} {start words : ℕ} (h : start + words ≤ block.len.get) :
    words ≤ U29.maxValue := by
  have hlt := block.len.get_lt
  have hmax := U29.maxValue_eq
  omega

/-- Empty lists do not differ. -/
lemma not_differ_of_empty {size size' : ElementSize} (hv : v.shape = some (.list size U29.zero))
    (hw : w.shape = some (.list size' U29.zero)) (h : size.asPtrSize = size'.asPtrSize) :
    ¬ v.Differ w := by
  have hnone {E : ℕ → Prop} : ¬ ∃ i < U29.zero.get, E i := by
    rintro ⟨i, hi, -⟩
    exact Nat.not_lt_zero i hi
  cases size with
  | inlineComposite =>
    cases size' with
    | inlineComposite =>
      rw [differ_elements hv hw]
      exact hnone
    | _ => cases h
  | pointer =>
    obtain rfl := eq_of_asPtrSize rfl h
    rw [differ_pointers hv hw]
    exact hnone
  | _ =>
    obtain rfl := eq_of_asPtrSize rfl h
    rw [differ_data hv hw nofun rfl]
    nofun

/-- Lists are told apart as the values are. -/
lemma decides_cmpList {size size' : ElementSize} {count count' : ElementCount}
    (hv : v.shape = some (.list size count)) (hw : w.shape = some (.list size' count'))
    (hours : Opened a ourId ourSrc v (.list size count) ourBlockId ourBlock ourStart)
    (htheirs : Opened b theirId theirSrc w (.list size' count') theirBlockId theirBlock theirStart)
    (hslots : ComparesSlots a b ourBlockId theirBlockId ourBlock theirBlock ourStart theirStart v w
      (.list size count) (.list size' count')) :
    Decides (fun depth => cmpList (cmpPtr depth) ⟨ourStart, size, count⟩
        (.inSegment a ourBlockId ourBlock) ⟨theirStart, size', count'⟩
        (.inSegment b theirBlockId theirBlock)) (v.Differ w) := by
  unfold cmpList
  by_cases hcount : count = count'
  · obtain rfl := hcount
    simp only [ne_eq, not_true_eq_false, if_false]
    by_cases hsize : size.asPtrSize = size'.asPtrSize
    · simp only [hsize, not_true_eq_false, if_false]
      by_cases hzero : count = U29.zero
      · obtain rfl := hzero
        simp only [if_true]
        exact decides_equal (not_differ_of_empty hv hw hsize)
      · simp only [if_neg hzero]
        cases size with
        | inlineComposite size =>
          cases size' with
          | inlineComposite size' =>
            have hstep : size.total * count.get ≤ U29.maxValue := by
              rw [← Shape.words_structs]
              exact le_maxValue_of_fits hours.fits
            have hstep' : size'.total * count.get ≤ U29.maxValue := by
              rw [← Shape.words_structs]
              exact le_maxValue_of_fits htheirs.fits
            simp only [cmpElements, stepByUnchecked, assert_of hstep, assert_of hstep',
              pure_bind_eq]
            refine (decides_cmpAll fun i hi => ?_).congr (differ_elements hv hw).symm
            exact decides_cmpStruct hours htheirs (Shape.partAt_element size hi)
              (Shape.partAt_element size' hi) hslots
          | _ => cases hsize
        | pointer =>
          obtain rfl := eq_of_asPtrSize rfl hsize
          refine (decides_cmpAll (E := fun k => (v.ptr k).Differ (w.ptr k)) fun k hk => ?_).congr
            (differ_pointers hv hw).symm
          replace hk : k < count.get := hk
          have hwords : k < (Shape.list .pointer count).words := by
            show k < (64 * count.get + 63) / 64
            omega
          exact hslots k hwords rfl k hwords rfl
        | void =>
          obtain rfl := eq_of_asPtrSize rfl hsize
          refine decides_equal ?_
          rw [differ_data hv hw nofun rfl]
          nofun
        | _ =>
          obtain rfl := eq_of_asPtrSize rfl hsize
          exact (decides_cmpData hours htheirs (by decide) fun _ => rfl).congr
            (differ_data hv hw nofun rfl).symm
    · simp only [hsize, not_false_eq_true, if_true]
      refine decides_notEqual (.kind ?_)
      rw [hv, hw]
      exact fun h => hsize h.2
  · simp only [ne_eq, hcount, not_false_eq_true, if_true]
    refine decides_notEqual (.kind ?_)
    rw [hv, hw]
    exact fun h => hcount h.1

/-- Objects are told apart as the values are. -/
lemma decides_cmpContent (hv : v.shape = some ourShape) (hw : w.shape = some theirShape)
    (hours : Opened a ourId ourSrc v ourShape ourBlockId ourBlock ourStart)
    (htheirs : Opened b theirId theirSrc w theirShape theirBlockId theirBlock theirStart)
    (hslots : ComparesSlots a b ourBlockId theirBlockId ourBlock theirBlock ourStart theirStart v w
      ourShape theirShape) :
    Decides (fun depth => cmpContent (cmpPtr depth) (.inSegment a ourBlockId ourBlock)
        (ourShape.content ourStart) (.inSegment b theirBlockId theirBlock)
        (theirShape.content theirStart)) (v.Differ w) := by
  cases ourShape with
  | struct size =>
    cases theirShape with
    | struct size' =>
      exact (decides_cmpStruct hours htheirs (Shape.partAt_struct size) (Shape.partAt_struct size')
        hslots).congr (differ_structs hv hw).symm
    | list =>
      refine decides_notEqual (.kind ?_)
      rw [hv, hw]
      exact not_false
  | list size count =>
    cases theirShape with
    | struct =>
      refine decides_notEqual (.kind ?_)
      rw [hv, hw]
      exact not_false
    | list => exact decides_cmpList hv hw hours htheirs hslots

/-- A pointer yields what it denotes. -/
lemma yields_tryReadTyped (hsegment : a ourId = some ourSegment) {typed : TypedContent} {cost : ℕ}
    (hdenotes : Denotes a ourId ourSrc ourBlockId typed cost) (hblock : a ourBlockId = some ourBlock) :
    Yields none (ObjectReader.inSegment a ourBlockId ourBlock, typed)
      ((ObjectReader.inSegment a ourId ourSegment).tryReadTyped ourSrc) := by
  constructor
  · exact (tryReadTyped_eq_ok hsegment).2 ⟨_, _, _, hblock, rfl, hdenotes, Limiter.charge_none _⟩
  · intro limiter limiter' read h
    obtain ⟨id', block', cost', hblock', hreader, hdenotes', -⟩ := (tryReadTyped_eq_ok hsegment).1 h
    obtain ⟨rfl, htyped⟩ := hdenotes.unique hsegment hdenotes'
    obtain rfl := Option.mem_unique hblock hblock'
    exact Prod.ext hreader htyped.symm

/-- Two pointers that are not both null are compared by what they denote. -/
lemma settles_cmpPtr {verdict : PtrEquality} {ourCost theirCost : ℕ} {ours theirs : TypedContent}
    (hsegment : a ourId = some ourSegment) (hsegment' : b theirId = some theirSegment)
    (hnull : ¬ ((ourSegment.data ourSrc).isNull = true ∧ (theirSegment.data theirSrc).isNull = true))
    (hours : Denotes a ourId ourSrc ourBlockId ours ourCost) (hblock : a ourBlockId = some ourBlock)
    (htheirs : Denotes b theirId theirSrc theirBlockId theirs theirCost)
    (hblock' : b theirBlockId = some theirBlock)
    (hcontent : Settles (none, none) verdict fun depth => cmpContent (cmpPtr depth)
      (.inSegment a ourBlockId ourBlock) ours (.inSegment b theirBlockId theirBlock) theirs) :
    Settles (none, none) verdict fun depth => cmpPtr depth ourSrc (.inSegment a ourId ourSegment)
      theirSrc (.inSegment b theirId theirSegment) := by
  refine Settles.of_succ ?_
  have hword : (((ObjectReader.inSegment a ourId ourSegment).word ourSrc).isNull &&
      ((ObjectReader.inSegment b theirId theirSegment).word theirSrc).isNull) = false := by
    rw [Bool.eq_false_iff, ne_eq, Bool.and_eq_true]
    exact hnull
  simp only [cmpPtr, hword, Bool.false_eq_true, if_false]
  refine settles_bind (settles_of_yields fun _ =>
    yields_zoom (yields_tryReadTyped hsegment hours hblock) rfl) ?_
  exact settles_bind (settles_of_yields fun _ =>
    yields_zoom (yields_tryReadTyped hsegment' htheirs hblock') rfl) hcontent

lemma decides_cmpPtr {D : Prop} {ourCost theirCost : ℕ} {ours theirs : TypedContent}
    (hsegment : a ourId = some ourSegment) (hsegment' : b theirId = some theirSegment)
    (hnull : ¬ ((ourSegment.data ourSrc).isNull = true ∧ (theirSegment.data theirSrc).isNull = true))
    (hours : Denotes a ourId ourSrc ourBlockId ours ourCost) (hblock : a ourBlockId = some ourBlock)
    (htheirs : Denotes b theirId theirSrc theirBlockId theirs theirCost)
    (hblock' : b theirBlockId = some theirBlock)
    (hcontent : Decides (fun depth => cmpContent (cmpPtr depth) (.inSegment a ourBlockId ourBlock) ours
      (.inSegment b theirBlockId theirBlock) theirs) D) :
    Decides (fun depth => cmpPtr depth ourSrc (.inSegment a ourId ourSegment) theirSrc
      (.inSegment b theirId theirSegment)) D := by
  obtain ⟨verdict, hrun, hverdict⟩ := hcontent
  exact ⟨verdict, settles_cmpPtr hsegment hsegment' hnull hours hblock htheirs hblock' hrun, hverdict⟩

end Comparing

/-- Pointers that read as `v` are compared by their values. -/
def ComparesValue (a b : ReadArena) (v : Value) : Prop :=
  ∀ ⦃ourId theirId : SegmentId⦄ ⦃ourSrc theirSrc : ℕ⦄ ⦃ourSegment theirSegment : Segment⦄ ⦃w : Value⦄,
    a ourId = some ourSegment → ourSrc < ourSegment.len.get → Reads a ourId ourSrc v →
    b theirId = some theirSegment → theirSrc < theirSegment.len.get → Reads b theirId theirSrc w →
    Decides (fun depth => cmpPtr depth ourSrc (.inSegment a ourId ourSegment) theirSrc
      (.inSegment b theirId theirSegment)) (v.Differ w)

section Step

variable {a b : ReadArena} {v w : Value}

/-- What a pointer that is not of an object denotes. -/
lemma Reads.of_shape_none {id : SegmentId} {pos : ℕ} (h : Reads a id pos v) (hshape : v.shape = none) :
    ∃ id' block index cost, a id' = some block ∧ Denotes a id pos id' (.capability index) cost := by
  cases h with
  | null => cases hshape
  | capability _ _ hdenotes =>
    obtain ⟨block, hblock⟩ := hdenotes.segment
    exact ⟨_, block, _, _, hblock, hdenotes⟩
  | object => cases hshape

lemma not_differ_capabilities (hv : v.shape = none) (hw : w.shape = none) : ¬ v.Differ w := by
  intro h
  cases h with
  | kind h =>
    rw [hv, hw] at h
    exact h trivial
  | elements hv' | item hv' =>
    rw [hv] at hv'
    cases hv'
  | data hparts | field hparts =>
    rcases hparts with ⟨hv', -⟩ | ⟨hv', -⟩ <;> rw [hv] at hv' <;> cases hv'

lemma not_differ_null : ¬ Value.null.Differ .null := by
  rw [differ_structs rfl rfl]
  rintro (h | ⟨k, hk, -⟩)
  · refine h ⟨rfl, ?_⟩
    intro k hk
    exact absurd hk (Nat.not_lt_zero k)
  · exact Nat.not_lt_zero k hk

/-- Pointers are compared by their values when the pointers below are. -/
lemma comparesValue_step (hslots : ∀ shape, v.shape = some shape → ∀ k < shape.words,
    shape.isPtr k = true → ComparesValue a b (v.ptr k)) : ComparesValue a b v := by
  intro ourId theirId ourSrc theirSrc ourSegment theirSegment w hours hpos hv htheirs hpos' hw
  by_cases hnull : (ourSegment.data ourSrc).isNull = true ∧ (theirSegment.data theirSrc).isNull = true
  · obtain rfl := (hv.isNull_iff hours).1 hnull.1
    obtain rfl := (hw.isNull_iff htheirs).1 hnull.2
    have hword : (((ObjectReader.inSegment a ourId ourSegment).word ourSrc).isNull &&
        ((ObjectReader.inSegment b theirId theirSegment).word theirSrc).isNull) = true :=
      Bool.and_eq_true_iff.2 hnull
    refine Decides.of_succ ?_
    simp only [cmpPtr, hword, if_true]
    exact decides_equal not_differ_null
  · rcases hshape : v.shape with _ | shape
    · obtain ⟨ourBlockId, ourBlock, index, cost, hblock, hdenotes⟩ := hv.of_shape_none hshape
      rcases hshape' : w.shape with _ | shape'
      · obtain ⟨theirBlockId, theirBlock, index', cost', hblock', hdenotes'⟩ := hw.of_shape_none hshape'
        refine decides_cmpPtr hours htheirs hnull hdenotes hblock hdenotes' hblock' ?_
        have hnot := not_differ_capabilities hshape hshape'
        exact ⟨.containsCaps, settles_pure _, nofun, fun h => absurd h hnot⟩
      · obtain ⟨theirBlockId, theirBlock, start', hopened'⟩ := hw.opened htheirs hpos' hshape'
        obtain ⟨cost', hdenotes'⟩ := hopened'.denotes
        refine decides_cmpPtr hours htheirs hnull hdenotes hblock hdenotes' hopened'.segment ?_
        have hdiffer : v.Differ w := .kind (by
          rw [hshape, hshape']
          exact not_false)
        cases shape' <;> exact decides_notEqual hdiffer
    · obtain ⟨ourBlockId, ourBlock, start, hopened⟩ := hv.opened hours hpos hshape
      obtain ⟨cost, hdenotes⟩ := hopened.denotes
      rcases hshape' : w.shape with _ | shape'
      · obtain ⟨theirBlockId, theirBlock, index', cost', hblock', hdenotes'⟩ := hw.of_shape_none hshape'
        refine decides_cmpPtr hours htheirs hnull hdenotes hopened.segment hdenotes' hblock' ?_
        have hdiffer : v.Differ w := .kind (by
          rw [hshape, hshape']
          cases shape <;> exact not_false)
        cases shape <;> exact decides_notEqual hdiffer
      · obtain ⟨theirBlockId, theirBlock, start', hopened'⟩ := hw.opened htheirs hpos' hshape'
        obtain ⟨cost', hdenotes'⟩ := hopened'.denotes
        refine decides_cmpPtr hours htheirs hnull hdenotes hopened.segment hdenotes'
          hopened'.segment ?_
        refine decides_cmpContent hshape hshape' hopened hopened' ?_
        intro i hi hptr j hj hptr'
        have hfits := hopened.fits
        have hfits' := hopened'.fits
        exact hslots shape hshape i hi hptr hopened.segment (by omega) (hopened.ptr i hi hptr)
          hopened'.segment (by omega) (hopened'.ptr j hj hptr')

end Step

/-- **A comparison of pointers that can be read comes to a verdict**, and it is `NotEqual` just when
the values differ. -/
theorem comparesValue (a b : ReadArena) (v : Value) : ComparesValue a b v := by
  induction v with
  | null =>
    refine comparesValue_step fun shape hshape k hk => ?_
    cases hshape
    exact absurd hk (Nat.not_lt_zero k)
  | capability =>
    refine comparesValue_step fun shape hshape => ?_
    cases hshape
  | object shape data ptrs ih =>
    refine comparesValue_step fun shape' hshape k hk hptr => ?_
    cases hshape
    have hvalue : Value.ptr (.object shape data ptrs) k = ptrs ⟨k, hk, hptr⟩ := dif_pos ⟨hk, hptr⟩
    rw [hvalue]
    exact ih ⟨k, hk, hptr⟩

end Recapn.Ptr

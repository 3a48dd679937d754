/-
# Integers of the wire format

Lengths and counts in a message have 29 bits and pointer offsets have 30 bits with a sign.  A
value of these types carries its range, and its constructor `new` checks it.  The integers of
the machine are natural numbers; where the source relies on a checked operation, the check is
written out.
-/
import Mathlib.Algebra.Group.Int.Defs
import Mathlib.Algebra.GroupWithZero.Nat
import Mathlib.Tactic.Common

namespace Recapn

/-- `u32::checked_add` and `usize::checked_add`, for a type of the given number of bits. -/
def checkedAdd (bits a b : ℕ) : Option ℕ := if a + b < 2 ^ bits then some (a + b) else none

lemma checkedAdd_of_lt {bits a b : ℕ} (h : a + b < 2 ^ bits) : checkedAdd bits a b = some (a + b) :=
  if_pos h

/-- `checked_sub`. -/
def checkedSub (a b : ℕ) : Option ℕ := if b ≤ a then some (a - b) else none

/-- `u29`. -/
@[ext] structure U29 where
  get : ℕ
  get_lt : get < 2 ^ 29
deriving DecidableEq, Repr

namespace U29

/-- `u29::MAX_VALUE`. -/
def maxValue : ℕ := 2 ^ 29 - 1

lemma maxValue_eq : maxValue = 2 ^ 29 - 1 := rfl

lemma one_lt : 1 < 2 ^ 29 := by decide

lemma two_lt : 2 < 2 ^ 29 := by decide

lemma three_lt : 3 < 2 ^ 29 := by decide

lemma four_lt : 4 < 2 ^ 29 := by decide

lemma sixteen_lt : 16 < 2 ^ 29 := by decide

lemma large_lt : 2 ^ 28 < 2 ^ 29 := by decide

/-- `u29::ZERO`. -/
def zero : U29 := ⟨0, by decide⟩

instance : Inhabited U29 := ⟨zero⟩

/-- `u29::new`. -/
def new (n : ℕ) : Option U29 := if h : n < 2 ^ 29 then some ⟨n, h⟩ else none

@[simp] lemma get_zero : zero.get = 0 := rfl

lemma new_of_lt {n : ℕ} (h : n < 2 ^ 29) : new n = some ⟨n, h⟩ := dif_pos h

@[simp] lemma new_get (n : U29) : new n.get = some n := new_of_lt n.get_lt

lemma new_eq_some {n : ℕ} {m : U29} : new n = some m ↔ m.get = n := by
  constructor
  · intro h
    by_cases hn : n < 2 ^ 29
    · rw [new_of_lt hn] at h
      cases h
      rfl
    · rw [new, dif_neg hn] at h
      cases h
  · rintro rfl
    exact new_get m

end U29

/-- `i30`. -/
@[ext] structure I30 where
  get : ℤ
  le_get : -2 ^ 29 ≤ get
  get_lt : get < 2 ^ 29
deriving DecidableEq, Repr

namespace I30

lemma le_one : -2 ^ 29 ≤ (1 : ℤ) := by decide

lemma one_lt : (1 : ℤ) < 2 ^ 29 := by decide

lemma le_neg_one : -2 ^ 29 ≤ (-1 : ℤ) := by decide

lemma neg_one_lt : (-1 : ℤ) < 2 ^ 29 := by decide

/-- Zero, as an `i30`. -/
def zero : I30 := ⟨0, by decide, by decide⟩

@[simp] lemma get_zero : zero.get = 0 := rfl

/-- `i30::new`. -/
def new (n : ℤ) : Option I30 :=
  if h : -2 ^ 29 ≤ n ∧ n < 2 ^ 29 then some ⟨n, h.1, h.2⟩ else none

lemma new_of_mem {n : ℤ} (hle : -2 ^ 29 ≤ n) (hlt : n < 2 ^ 29) : new n = some ⟨n, hle, hlt⟩ :=
  dif_pos ⟨hle, hlt⟩

lemma exists_new {n : ℤ} (hle : -2 ^ 29 ≤ n) (hlt : n < 2 ^ 29) :
    ∃ m : I30, new n = some m ∧ m.get = n :=
  ⟨_, new_of_mem hle hlt, rfl⟩

end I30

/-- `SegmentLen`, the length of a segment in a message. -/
abbrev SegmentLen := U29

/-- `SegmentOffset`, an offset from the start of a segment. -/
abbrev SegmentOffset := U29

/-- `SignedSegmentOffset`. -/
abbrev SignedSegmentOffset := I30

/-- `ObjectLen`, the length of an object in words. -/
abbrev ObjectLen := U29

/-- `ElementCount`, the number of elements of a list. -/
abbrev ElementCount := U29

/-- `AllocLen`, the length of an allocation, which is not zero. -/
@[ext] structure AllocLen where
  get : ℕ
  get_pos : 0 < get
  get_lt : get < 2 ^ 29
deriving DecidableEq, Repr

namespace AllocLen

/-- `NonZeroU29::new`. -/
def new (n : ℕ) : Option AllocLen :=
  if h : 0 < n ∧ n < 2 ^ 29 then some ⟨n, h.1, h.2⟩ else none

lemma four_pos : 0 < 4 := by decide

/-- `AllocLen::ONE`. -/
def one : AllocLen := ⟨1, Nat.one_pos, U29.one_lt⟩

/-- `AllocLen::MAX`. -/
def max : AllocLen := ⟨U29.maxValue, by decide, by decide⟩

/-- The length as a `u29`. -/
def toU29 (len : AllocLen) : U29 := ⟨len.get, len.get_lt⟩

lemma new_of_mem {n : ℕ} (hpos : 0 < n) (hlt : n < 2 ^ 29) : new n = some ⟨n, hpos, hlt⟩ :=
  dif_pos ⟨hpos, hlt⟩

lemma new_eq_some {n : ℕ} {len : AllocLen} : new n = some len ↔ len.get = n := by
  constructor
  · intro h
    by_cases hn : 0 < n ∧ n < 2 ^ 29
    · rw [new_of_mem hn.1 hn.2] at h
      cases h
      rfl
    · rw [new, dif_neg hn] at h
      cases h
  · rintro rfl
    exact new_of_mem len.get_pos len.get_lt

lemma new_eq_none {n : ℕ} : new n = none ↔ n = 0 ∨ 2 ^ 29 ≤ n := by
  by_cases hn : 0 < n ∧ n < 2 ^ 29
  · rw [new_of_mem hn.1 hn.2]
    constructor
    · intro h
      cases h
    · omega
  · rw [new, dif_neg hn]
    constructor
    · intro _
      omega
    · intro _
      rfl

end AllocLen

/-- `SegmentId`. -/
abbrev SegmentId := ℕ

end Recapn

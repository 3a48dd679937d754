/-
# Bytes and words

A message is a sequence of 8-byte words, and everything that leaves the program (packed
streams, stream tables, segments) is a string of bytes.  This file sets up the two, the
conversions between a slice of words and the bytes under it, and the little-endian 32-bit
values that the wire format lays over a word.
-/
import Mathlib.Algebra.GroupWithZero.Nat
import Mathlib.Data.FinEnum
import Mathlib.Data.List.Basic
import Mathlib.Tactic.Common

namespace Recapn

/-- A byte of a message. -/
abbrev Byte := UInt8

/-- A word: eight bytes, in memory order. -/
structure Word where
  b0 : Byte
  b1 : Byte
  b2 : Byte
  b3 : Byte
  b4 : Byte
  b5 : Byte
  b6 : Byte
  b7 : Byte
deriving DecidableEq, Repr

namespace Word

/-- `Word::NULL`. -/
def null : Word := ⟨0, 0, 0, 0, 0, 0, 0, 0⟩

instance : Inhabited Word := ⟨null⟩

/-- `Word::is_null`. -/
def isNull (w : Word) : Bool := w == null

@[simp] lemma isNull_iff {w : Word} : w.isNull = true ↔ w = null := by
  simp [isNull]

/-- The bytes of a word. -/
def bytes (w : Word) : List Byte := [w.b0, w.b1, w.b2, w.b3, w.b4, w.b5, w.b6, w.b7]

@[simp] lemma length_bytes (w : Word) : w.bytes.length = 8 := rfl

/-- The word made of the first eight bytes of a list, zero where the list is too short. -/
def ofBytes (l : List Byte) : Word :=
  ⟨l.getD 0 0, l.getD 1 0, l.getD 2 0, l.getD 3 0, l.getD 4 0, l.getD 5 0, l.getD 6 0, l.getD 7 0⟩

@[simp] lemma ofBytes_bytes (w : Word) : ofBytes w.bytes = w := rfl

lemma bytes_ofBytes {l : List Byte} (h : l.length = 8) : (ofBytes l).bytes = l := by
  match l, h with
  | [_, _, _, _, _, _, _, _], _ => rfl

lemma bytes_injective {v w : Word} (h : v.bytes = w.bytes) : v = w := by
  rw [← ofBytes_bytes v, h, ofBytes_bytes]

/-- `Word::slice_to_bytes`. -/
def sliceToBytes (ws : List Word) : List Byte := ws.flatMap bytes

@[simp] lemma sliceToBytes_nil : sliceToBytes [] = [] := rfl

@[simp] lemma sliceToBytes_cons (w : Word) (ws : List Word) :
    sliceToBytes (w :: ws) = w.bytes ++ sliceToBytes ws := rfl

@[simp] lemma sliceToBytes_append (vs ws : List Word) :
    sliceToBytes (vs ++ ws) = sliceToBytes vs ++ sliceToBytes ws := by
  simp [sliceToBytes]

@[simp] lemma length_sliceToBytes (ws : List Word) : (sliceToBytes ws).length = 8 * ws.length := by
  induction ws with
  | nil => rfl
  | cons w ws ih =>
    simp only [sliceToBytes_cons, List.length_append, length_bytes, ih, List.length_cons]
    omega

/-- The words under a slice of bytes: what a word slice holds after the bytes were copied
into the bytes under it (`Word::slice_to_bytes_mut`).  A last incomplete word is left out. -/
def ofByteSlice : List Byte → List Word
  | b0 :: b1 :: b2 :: b3 :: b4 :: b5 :: b6 :: b7 :: l =>
    ⟨b0, b1, b2, b3, b4, b5, b6, b7⟩ :: ofByteSlice l
  | _ => []

@[simp] lemma ofByteSlice_nil : ofByteSlice [] = [] := rfl

@[simp] lemma ofByteSlice_bytes_append (w : Word) (l : List Byte) :
    ofByteSlice (w.bytes ++ l) = w :: ofByteSlice l := rfl

lemma ofByteSlice_append {a l : List Byte} (h : a.length = 8) :
    ofByteSlice (a ++ l) = ofBytes a :: ofByteSlice l := by
  conv_lhs => rw [← bytes_ofBytes h]
  exact ofByteSlice_bytes_append _ _

@[simp] lemma ofByteSlice_sliceToBytes (ws : List Word) : ofByteSlice (sliceToBytes ws) = ws := by
  induction ws with
  | nil => rfl
  | cons w ws ih => rw [sliceToBytes_cons, ofByteSlice_bytes_append, ih]

lemma exists_sliceToBytes {n : ℕ} {l : List Byte} (h : l.length = 8 * n) :
    ∃ ws : List Word, ws.length = n ∧ l = sliceToBytes ws := by
  induction n generalizing l with
  | zero => exact ⟨[], rfl, by simpa using h⟩
  | succ n ih =>
    have hsplit : l.take 8 ++ l.drop 8 = l := List.take_append_drop 8 l
    obtain ⟨ws, hlen, hws⟩ := ih (l := l.drop 8) (by rw [List.length_drop]; omega)
    have h8 : (l.take 8).length = 8 := by rw [List.length_take]; omega
    refine ⟨ofBytes (l.take 8) :: ws, by simp [hlen], ?_⟩
    rw [sliceToBytes_cons, bytes_ofBytes h8, ← hws, hsplit]

lemma length_ofByteSlice {n : ℕ} {l : List Byte} (h : l.length = 8 * n) :
    (ofByteSlice l).length = n := by
  obtain ⟨ws, hlen, rfl⟩ := exists_sliceToBytes h
  rw [ofByteSlice_sliceToBytes, hlen]

/-- Bytes that start with whole words are under a slice that starts with these words. -/
lemma sliceToBytes_eq_append {slice ws : List Word} {l : List Byte}
    (h : sliceToBytes slice = sliceToBytes ws ++ l) :
    ∃ rest, slice = ws ++ rest ∧ sliceToBytes rest = l := by
  induction ws generalizing slice with
  | nil => exact ⟨slice, rfl, h⟩
  | cons w ws ih =>
    rcases slice with _ | ⟨v, slice⟩
    · have hlen := congrArg List.length h
      rw [List.length_append, length_sliceToBytes, length_sliceToBytes, List.length_nil,
        List.length_cons] at hlen
      omega
    · rw [sliceToBytes_cons, sliceToBytes_cons, List.append_assoc] at h
      obtain ⟨hv, hrest⟩ := List.append_inj h rfl
      obtain ⟨rest, rfl, hl⟩ := ih hrest
      exact ⟨rest, by rw [bytes_injective hv]; rfl, hl⟩

/-! ## The 32-bit halves of a word -/

/-- A little-endian 32-bit value. -/
def u32OfBytes (a b c d : Byte) : ℕ :=
  a.toNat + 2 ^ 8 * b.toNat + 2 ^ 16 * c.toNat + 2 ^ 24 * d.toNat

/-- The first `WireValue<u32>` of a word. -/
def lower (w : Word) : ℕ := u32OfBytes w.b0 w.b1 w.b2 w.b3

/-- The second `WireValue<u32>` of a word. -/
def upper (w : Word) : ℕ := u32OfBytes w.b4 w.b5 w.b6 w.b7

/-- The byte at position `i` of a little-endian value. -/
def byteOf (n i : ℕ) : Byte := UInt8.ofNat (n / 2 ^ (8 * i) % 2 ^ 8)

/-- The word with the given halves. -/
def ofParts (lo up : ℕ) : Word :=
  ⟨byteOf lo 0, byteOf lo 1, byteOf lo 2, byteOf lo 3,
    byteOf up 0, byteOf up 1, byteOf up 2, byteOf up 3⟩

lemma toNat_byteOf (n i : ℕ) : (byteOf n i).toNat = n / 2 ^ (8 * i) % 2 ^ 8 := by
  simp [byteOf]

lemma u32OfBytes_lt (a b c d : Byte) : u32OfBytes a b c d < 2 ^ 32 := by
  have ha := a.toNat_lt
  have hb := b.toNat_lt
  have hc := c.toNat_lt
  have hd := d.toNat_lt
  unfold u32OfBytes
  omega

lemma u32OfBytes_byteOf {n : ℕ} (h : n < 2 ^ 32) :
    u32OfBytes (byteOf n 0) (byteOf n 1) (byteOf n 2) (byteOf n 3) = n := by
  simp only [u32OfBytes, toNat_byteOf]
  omega

lemma byteOf_u32OfBytes (a b c d : Byte) :
    byteOf (u32OfBytes a b c d) 0 = a ∧ byteOf (u32OfBytes a b c d) 1 = b ∧
      byteOf (u32OfBytes a b c d) 2 = c ∧ byteOf (u32OfBytes a b c d) 3 = d := by
  have ha := a.toNat_lt
  have hb := b.toNat_lt
  have hc := c.toNat_lt
  have hd := d.toNat_lt
  refine ⟨?_, ?_, ?_, ?_⟩ <;> apply UInt8.toNat_inj.1 <;> rw [toNat_byteOf, u32OfBytes] <;> omega

lemma lower_lt (w : Word) : w.lower < 2 ^ 32 := u32OfBytes_lt _ _ _ _

lemma upper_lt (w : Word) : w.upper < 2 ^ 32 := u32OfBytes_lt _ _ _ _

lemma lower_ofParts {lo : ℕ} (up : ℕ) (h : lo < 2 ^ 32) : (ofParts lo up).lower = lo :=
  u32OfBytes_byteOf h

lemma upper_ofParts {up : ℕ} (lo : ℕ) (h : up < 2 ^ 32) : (ofParts lo up).upper = up :=
  u32OfBytes_byteOf h

lemma ofParts_lower_upper (w : Word) : ofParts w.lower w.upper = w := by
  obtain ⟨h0, h1, h2, h3⟩ := byteOf_u32OfBytes w.b0 w.b1 w.b2 w.b3
  obtain ⟨h4, h5, h6, h7⟩ := byteOf_u32OfBytes w.b4 w.b5 w.b6 w.b7
  simp only [ofParts, lower, upper, h0, h1, h2, h3, h4, h5, h6, h7]

lemma ext_parts {v w : Word} (hl : v.lower = w.lower) (hu : v.upper = w.upper) : v = w := by
  rw [← ofParts_lower_upper v, ← ofParts_lower_upper w, hl, hu]

@[simp] lemma lower_null : null.lower = 0 := rfl

@[simp] lemma upper_null : null.upper = 0 := rfl

end Word

end Recapn

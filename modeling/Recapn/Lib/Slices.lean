/-
# Consecutive pieces of a list

A list that is put together from pieces is taken apart again by the positions where the pieces
start.  `starts pos lens` are the positions of pieces of lengths `lens` laid out from `pos` on.
-/
import Mathlib.Algebra.GroupWithZero.Nat
import Mathlib.Data.List.Basic
import Mathlib.Tactic.Common

namespace Recapn.Lib.Slices

variable {α : Type*}

/-- Where pieces of the given lengths start when the first one starts at `pos`. -/
def starts (pos : ℕ) : List ℕ → List ℕ
  | [] => []
  | len :: lens => pos :: starts (pos + len) lens

@[simp] lemma length_starts (pos : ℕ) (lens : List ℕ) : (starts pos lens).length = lens.length := by
  induction lens generalizing pos with
  | nil => rfl
  | cons len lens ih => rw [starts, List.length_cons, ih, List.length_cons]

lemma getElem?_starts (pos : ℕ) (lens : List ℕ) (i : ℕ) :
    (starts pos lens)[i]? = if i < lens.length then some (pos + (lens.take i).sum) else none := by
  induction lens generalizing pos i with
  | nil => rfl
  | cons len lens ih =>
    rcases i with _ | i
    · simp [starts]
    · rw [starts, List.getElem?_cons_succ, ih, List.length_cons, List.take_succ_cons, List.sum_cons,
        Nat.add_assoc]
      simp only [Nat.succ_lt_succ_iff]

lemma getLast?_starts_le (pos : ℕ) (lens : List ℕ) :
    ((starts pos lens).getLast?).getD 0 ≤ pos + lens.sum := by
  induction lens generalizing pos with
  | nil => exact Nat.zero_le _
  | cons len lens ih =>
    have htail := ih (pos + len)
    rw [starts, List.sum_cons, List.getLast?_cons]
    rcases h : (starts (pos + len) lens).getLast? with _ | last
    · simp
    · rw [h] at htail
      simp only [Option.getD_some] at htail ⊢
      omega

/-- A piece lies after the pieces before it and before the pieces after it. -/
lemma drop_flatten (pieces : List (List α)) {i : ℕ} (h : i < pieces.length) :
    pieces.flatten.drop (pieces.take i).flatten.length
      = pieces[i] ++ (pieces.drop (i + 1)).flatten := by
  have hsplit : pieces.flatten = (pieces.take i).flatten ++ (pieces.drop i).flatten := by
    rw [← List.flatten_append, List.take_append_drop]
  rw [hsplit, List.drop_left, List.drop_eq_getElem_cons h, List.flatten_cons]

lemma take_drop_flatten (pieces : List (List α)) {i : ℕ} (h : i < pieces.length) :
    (pieces.flatten.drop (pieces.take i).flatten.length).take pieces[i].length = pieces[i] := by
  rw [drop_flatten pieces h, List.take_left]

/-- The last piece goes up to the end. -/
lemma drop_flatten_last (pieces : List (List α)) {i : ℕ} (h : i < pieces.length)
    (hlast : i + 1 = pieces.length) :
    pieces.flatten.drop (pieces.take i).flatten.length = pieces[i] := by
  rw [drop_flatten pieces h, hlast, List.drop_length, List.flatten_nil, List.append_nil]

lemma length_flatten_take (pieces : List (List α)) (i : ℕ) :
    (pieces.take i).flatten.length = ((pieces.map List.length).take i).sum := by
  rw [List.length_flatten, List.map_take]

/-- The pieces of the given lengths at the front of a list. -/
def cut : List ℕ → List α → List (List α)
  | [], _ => []
  | len :: lens, l => l.take len :: cut lens (l.drop len)

lemma map_length_cut (lens : List ℕ) (l : List α) (h : lens.sum ≤ l.length) :
    (cut lens l).map List.length = lens := by
  induction lens generalizing l with
  | nil => rfl
  | cons len lens ih =>
    rw [List.sum_cons] at h
    rw [cut, List.map_cons, List.length_take, Nat.min_eq_left (by omega),
      ih _ (by rw [List.length_drop]; omega)]

lemma flatten_cut (lens : List ℕ) (l : List α) : (cut lens l).flatten = l.take lens.sum := by
  induction lens generalizing l with
  | nil => rfl
  | cons len lens ih => rw [cut, List.flatten_cons, ih, List.sum_cons, List.take_add]

end Recapn.Lib.Slices

/-
# Walks in depth-first order

The order in which a depth-first walk meets the nodes of a graph that turns out to be a forest: a
node, then everything below it, then what is beside it.  Nodes are listed by their keys.
-/
import Mathlib.Data.List.Nodup

namespace Recapn.Lib

variable {α κ : Type} {below : α → List α} {key : α → κ}

/-- The keys of these nodes and of everything below them, in depth-first order. -/
inductive Walk (below : α → List α) (key : α → κ) : List α → List κ → Prop where
  | nil : Walk below key [] []
  | cons {a : α} {as : List α} {inner rest : List κ} :
      Walk below key (below a) inner → Walk below key as rest →
      Walk below key (a :: as) (key a :: (inner ++ rest))

namespace Walk

lemma append {as bs : List α} {ks ls : List κ} (h : Walk below key as ks)
    (h' : Walk below key bs ls) : Walk below key (as ++ bs) (ks ++ ls) := by
  induction h with
  | nil => exact h'
  | cons hinner _ _ ih =>
    rw [List.cons_append, List.cons_append, List.append_assoc]
    exact Walk.cons hinner ih

/-- The walk below one node. -/
lemma single {a : α} {inner : List κ} (h : Walk below key (below a) inner) :
    Walk below key [a] (key a :: inner) := by
  have hwalk := Walk.cons h Walk.nil
  rw [List.append_nil] at hwalk
  exact hwalk

lemma eq_nil {ks : List κ} (h : Walk below key [] ks) : ks = [] := by
  cases h
  rfl

lemma of_cons {a : α} {as : List α} {ks : List κ} (h : Walk below key (a :: as) ks) :
    ∃ inner rest, ks = key a :: inner ++ rest ∧ Walk below key (below a) inner ∧
      Walk below key as rest := by
  cases h with
  | cons hinner hrest => exact ⟨_, _, rfl, hinner, hrest⟩

lemma of_append {as bs : List α} {ks : List κ} (h : Walk below key (as ++ bs) ks) :
    ∃ first second, ks = first ++ second ∧ Walk below key as first ∧
      Walk below key bs second := by
  induction as generalizing ks with
  | nil => exact ⟨[], ks, rfl, Walk.nil, h⟩
  | cons a as ih =>
    obtain ⟨inner, rest, rfl, hinner, hrest⟩ := h.of_cons
    obtain ⟨first, second, rfl, hfirst, hsecond⟩ := ih hrest
    refine ⟨key a :: (inner ++ first), second, ?_, Walk.cons hinner hfirst, hsecond⟩
    simp only [List.cons_append, List.append_assoc]

/-- A walk goes through each of its nodes and what is below it. -/
lemma of_mem {a : α} {as : List α} {ks : List κ} (h : Walk below key as ks) (ha : a ∈ as) :
    ∃ inner, Walk below key (below a) inner ∧ (key a :: inner).Sublist ks := by
  induction as generalizing ks with
  | nil => cases ha
  | cons first as ih =>
    obtain ⟨inner, rest, rfl, hinner, hrest⟩ := h.of_cons
    rcases List.mem_cons.1 ha with rfl | ha
    · exact ⟨inner, hinner, List.sublist_append_left _ _⟩
    · obtain ⟨inner', hinner', hsub⟩ := ih hrest ha
      exact ⟨inner', hinner', hsub.trans (List.sublist_append_right _ _)⟩

lemma keys_sublist {as : List α} {ks : List κ} (h : Walk below key as ks) : (as.map key).Sublist ks := by
  induction as generalizing ks with
  | nil => exact List.nil_sublist _
  | cons first as ih =>
    obtain ⟨inner, rest, rfl, -, hrest⟩ := h.of_cons
    exact ((ih hrest).trans (List.sublist_append_right _ _)).cons_cons _

end Walk

end Recapn.Lib

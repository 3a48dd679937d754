/-
# Names in modules

A module has names that it declares and names that it opens with a glob, and what it declares shadows what
it opens.  A name that has two meanings is not found.  A path goes through modules, one for every name of it
but the last, so nothing is found further down than the path is long.
-/
import Mathlib.Tactic.Common

namespace Recapn.Lib

/-- What modules have under which names, and which of it are modules. -/
structure Modules (M N D : Type) where
  declares : M → N → D → Prop
  opens : M → N → D → Prop
  enters : D → M → Prop

namespace Modules

variable {M N D : Type} (t : Modules M N D)

/-- What a name means in a module. -/
def Finds (m : M) (n : N) (d : D) : Prop :=
  (t.declares m n d ∧ ∀ d', t.declares m n d' → d' = d) ∨
    ((∀ d', ¬ t.declares m n d') ∧ t.opens m n d ∧ ∀ d', t.opens m n d' → d' = d)

/-- What a path means from a module. -/
inductive Denotes : M → List N → D → Prop
  | last {m : M} {n : N} {d : D} (h : t.Finds m n d) : Denotes m [n] d
  | cons {m m' : M} {n : N} {path : List N} {e d : D} (h : t.Finds m n e) (he : t.enters e m')
      (hrest : Denotes m' path d) : Denotes m (n :: path) d

variable {t} {m m' : M} {n : N} {d d' e : D} {path : List N}

lemma Finds.of_declares (h : t.Finds m n d) (hd : t.declares m n d') :
    d' = d ∧ ∀ e, t.declares m n e → e = d := by
  rcases h with ⟨-, hunique⟩ | ⟨hnone, -⟩
  · exact ⟨hunique d' hd, hunique⟩
  · exact absurd hd (hnone d')

lemma Finds.unique (h : t.Finds m n d) (h' : t.Finds m n d') : d = d' := by
  rcases h with ⟨hd, -⟩ | ⟨hnone, -, hunique⟩
  · exact (h'.of_declares hd).1
  · rcases h' with ⟨hd', -⟩ | ⟨-, hd', -⟩
    · exact absurd hd' (hnone d')
    · exact (hunique d' hd').symm

/-- What is opened is found unless something is declared. -/
lemma finds_of_opens (hnone : ∀ d', ¬ t.declares m n d') (hd : t.opens m n d)
    (hunique : ∀ d', t.opens m n d' → d' = d) : t.Finds m n d := .inr ⟨hnone, hd, hunique⟩

lemma denotes_singleton : t.Denotes m [n] d ↔ t.Finds m n d := by
  refine ⟨fun h => ?_, .last⟩
  cases h with
  | last h => exact h
  | cons _ _ hrest => cases hrest

lemma denotes_cons (hpath : path ≠ []) :
    t.Denotes m (n :: path) d ↔ ∃ e m', t.Finds m n e ∧ t.enters e m' ∧ t.Denotes m' path d := by
  constructor
  · intro h
    cases h with
    | last => exact absurd rfl hpath
    | cons h he hrest => exact ⟨_, _, h, he, hrest⟩
  · rintro ⟨e, m', h, he, hrest⟩
    exact .cons h he hrest

/-- A path means one thing at most. -/
lemma Denotes.unique (henters : ∀ {d m m'}, t.enters d m → t.enters d m' → m = m') (h : t.Denotes m path d)
    (h' : t.Denotes m path d') : d = d' := by
  induction h with
  | last h => exact h.unique (denotes_singleton.1 h')
  | cons h he hrest ih =>
    cases h' with
    | last => cases hrest
    | cons h' he' hrest' =>
      obtain rfl := h.unique h'
      obtain rfl := henters he he'
      exact ih hrest'

/-- A path of so many names leads down so many levels at most. -/
lemma Denotes.depth_le {level : M → ℕ} {depth : D → ℕ}
    (hmodule : ∀ m n e m', t.Finds m n e → t.enters e m' → level m' ≤ level m + 1)
    (hitem : ∀ m n d, t.Finds m n d → depth d ≤ level m) (h : t.Denotes m path d) :
    depth d + 1 ≤ level m + path.length := by
  induction h with
  | last h => exact Nat.add_le_add_right (hitem _ _ _ h) 1
  | cons h he hrest ih =>
    have hlevel := hmodule _ _ _ _ h he
    rw [List.length_cons]
    omega

end Modules

end Recapn.Lib

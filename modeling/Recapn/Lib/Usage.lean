/-
# What runs use up

Parts of a program use up something that can be added: room, time, or what is left of a limit.
A usage says which changes of the state go with which amount, for runs that succeed and for runs
that fail.  A program uses what its parts use together; it does not halt.
-/
import Mathlib.Algebra.BigOperators.Group.Finset.Basic
import Recapn.Lib.Prog

namespace Recapn.Lib

variable {M ε σ α β : Type} [AddCommMonoid M]

/-- What becomes of the state when so much is used up.  A run that fails with an error may have asked
for less than what the whole would have used. -/
structure Usage (M ε σ : Type) [AddCommMonoid M] where
  done : M → σ → σ → Prop
  failed : M → σ → ε → σ → Prop
  done_add : ∀ {m n : M} {s t u : σ}, done m s t → done n t u → done (m + n) s u
  failed_add : ∀ {m : M} {s t : σ} {e : ε} (n : M), failed m s e t → failed (m + n) s e t
  failed_after : ∀ {m n : M} {s t u : σ} {e : ε}, done m s t → failed n t e u → failed (m + n) s e u

/-- A run from the state ends, and has used up so much. -/
def Outcome.Uses (U : Usage M ε σ) (m : M) (s : σ) : Outcome ε σ α → Prop
  | .ok _ s' => U.done m s s'
  | .error e s' => U.failed m s e s'
  | .halt _ => False

namespace Prog

variable {U : Usage M ε σ} {m n : M} {s : σ}

lemma uses_pure {a : α} (h : U.done m s s) : ((pure a : Prog ε σ α) s).Uses U m s := h

/-- Parts one after the other use what they use together. -/
lemma uses_bind {x : Prog ε σ α} {f : α → Prog ε σ β} (hx : (x s).Uses U m s)
    (hf : ∀ a s', U.done m s s' → (f a s').Uses U n s') : ((x >>= f) s).Uses U (m + n) s := by
  rcases hrun : x s with ⟨a, s'⟩ | ⟨e, s'⟩ | r
  · rw [hrun] at hx
    rw [bind_of_ok hrun]
    have hrest := hf a s' hx
    rcases hrun' : f a s' with ⟨b, s''⟩ | ⟨e, s''⟩ | r
    · rw [hrun'] at hrest
      exact U.done_add hx hrest
    · rw [hrun'] at hrest
      exact U.failed_after hx hrest
    · rw [hrun'] at hrest
      exact hrest.elim
  · rw [hrun] at hx
    rw [bind_of_error hrun]
    exact U.failed_add n hx
  · rw [hrun] at hx
    exact hx.elim

/-- A loop uses what its rounds use together.  In each round it is known what was used before. -/
lemma uses_forRange {k : ℕ} {body : ℕ → Prog ε σ Unit} {w : ℕ → M} (hs : U.done 0 s s)
    (hbody : ∀ i < k, ∀ t, U.done (∑ j ∈ Finset.range i, w j) s t → (body i t).Uses U (w i) t) :
    (forRange k body s).Uses U (∑ i ∈ Finset.range k, w i) s := by
  induction k with
  | zero => exact hs
  | succ k ih =>
    rw [Finset.sum_range_succ]
    refine uses_bind (ih fun i hi => hbody i (Nat.lt_succ_of_lt hi)) ?_
    intro _ t ht
    exact hbody k (Nat.lt_succ_self k) t ht

end Prog

end Recapn.Lib

/-
# Letter-by-letter transducers

A transducer reads its input one letter at a time and may write any number of output letters
at each step.  What matters for a decoder that is suspended and resumed is that its run on
a concatenation is the run on the first part followed by the run on the second.
-/
import Mathlib.Tactic.Common
import Mathlib.Data.List.Basic

namespace Recapn.Transducer

variable {σ α β : Type*} (step : σ → α → σ × List β)

/-- The run of a transducer: the state it ends in and everything it has written. -/
def run (s : σ) : List α → σ × List β
  | [] => (s, [])
  | a :: l => ((run (step s a).1 l).1, (step s a).2 ++ (run (step s a).1 l).2)

@[simp] lemma run_nil (s : σ) : run step s [] = (s, []) := rfl

lemma run_cons (s : σ) (a : α) (l : List α) :
    run step s (a :: l) = ((run step (step s a).1 l).1, (step s a).2 ++ (run step (step s a).1 l).2) :=
  rfl

@[simp] lemma run_singleton (s : σ) (a : α) : run step s [a] = step s a := by
  simp [run_cons]

lemma run_append (s : σ) (l m : List α) :
    run step s (l ++ m)
      = ((run step (run step s l).1 m).1, (run step s l).2 ++ (run step (run step s l).1 m).2) := by
  induction l generalizing s with
  | nil => simp
  | cons a l ih => simp [run_cons, ih]

/-- The two runs that make up the run on a concatenation. -/
lemma run_append_eq {s t u : σ} {l m : List α} {v w : List β} (hl : run step s l = (t, v))
    (hm : run step t m = (u, w)) : run step s (l ++ m) = (u, v ++ w) := by
  rw [run_append, hl, hm]

end Recapn.Transducer

/-
# Loops that add up

A loop over the numbers below `n` adds something in every round, or fails.  What it comes to is the
sum of what its rounds add.
-/
import Mathlib.Algebra.BigOperators.Intervals
import Recapn.Lib.Prog

namespace Recapn.Lib.Prog

variable {ε σ M : Type} [AddCommMonoid M]

/-- A loop whose rounds add something adds up what they add. -/
lemma fold_add_eq_ok {f : M → ℕ → Prog ε σ M} {R : ℕ → M → Prop} {n : ℕ} {s s' : σ} {b : M}
    (hf : ∀ k < n, ∀ b b' s', f b k s = .ok b' s' ↔ s' = s ∧ ∃ x, R k x ∧ b' = b + x) :
    fold f 0 (List.range n) s = .ok b s' ↔
      s' = s ∧ ∃ xs : ℕ → M, (∀ k < n, R k (xs k)) ∧ b = ∑ k ∈ Finset.range n, xs k := by
  induction n generalizing b s' with
  | zero =>
    constructor
    · rintro ⟨⟩
      exact ⟨rfl, fun _ => 0, fun k hk => absurd hk (Nat.not_lt_zero k), rfl⟩
    · rintro ⟨rfl, xs, -, rfl⟩
      rfl
  | succ n ih =>
    have ih' := fun b s' => @ih s' b fun k hk => hf k (Nat.lt_succ_of_lt hk)
    rw [List.range_succ, fold_append, bind_eq_ok]
    constructor
    · rintro ⟨b', s₁, hfold, hlast⟩
      obtain ⟨rfl, xs, hxs, rfl⟩ := (ih' b' s₁).1 hfold
      obtain ⟨b'', s₂, hstep, hpure⟩ := bind_eq_ok.1 hlast
      obtain ⟨rfl, rfl⟩ := pure_eq_ok.1 hpure
      obtain ⟨rfl, x, hx, rfl⟩ := (hf n (Nat.lt_succ_self n) _ _ _).1 hstep
      refine ⟨rfl, Function.update xs n x, fun k hk => ?_, ?_⟩
      · rcases Nat.lt_succ_iff_lt_or_eq.1 hk with hlt | rfl
        · rw [Function.update_of_ne (Nat.ne_of_lt hlt)]
          exact hxs k hlt
        · rw [Function.update_self]
          exact hx
      · rw [Finset.sum_range_succ, Function.update_self]
        congr 1
        refine Finset.sum_congr rfl fun k hk => ?_
        rw [Function.update_of_ne (Nat.ne_of_lt (Finset.mem_range.1 hk))]
    · rintro ⟨rfl, xs, hxs, rfl⟩
      refine ⟨_, _, (ih' _ _).2 ⟨rfl, xs, fun k hk => hxs k (Nat.lt_succ_of_lt hk), rfl⟩, ?_⟩
      refine bind_eq_ok.2 ⟨_, _, (hf n (Nat.lt_succ_self n) _ _ _).2
        ⟨rfl, xs n, hxs n (Nat.lt_succ_self n), rfl⟩, ?_⟩
      rw [Finset.sum_range_succ]
      rfl

end Recapn.Lib.Prog

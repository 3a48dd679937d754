/-
# Programs that respect a relation

Two states may differ in something that a program does not look at.  The program does the same on
both then: it returns the same value or fails with the same error, and leaves two states that
differ in no more.  What respects a relation is put together from parts that do.
-/
import Recapn.Lib.Prog

namespace Recapn.Lib

variable {ε σ α β : Type} {R : σ → σ → Prop}

/-- The same value or error, in related states. -/
inductive Outcome.Related (R : σ → σ → Prop) : Outcome ε σ α → Outcome ε σ α → Prop
  | ok {a : α} {s t : σ} (h : R s t) : Related R (.ok a s) (.ok a t)
  | error {e : ε} {s t : σ} (h : R s t) : Related R (.error e s) (.error e t)
  | halt {r : Halt} : Related R (.halt r) (.halt r)

namespace Prog

/-- On related states the program does the same. -/
def Respects (R : σ → σ → Prop) (x : Prog ε σ α) : Prop :=
  ∀ s t, R s t → Outcome.Related R (x s) (x t)

section Respects

lemma Respects.ok {x : Prog ε σ α} (h : Respects R x) {s s' t : σ} {a : α} (hst : R s t)
    (hx : x s = .ok a s') : ∃ t', x t = .ok a t' ∧ R s' t' := by
  have hrelated := h s t hst
  rw [hx] at hrelated
  rcases ht : x t with ⟨b, t'⟩ | ⟨e, t'⟩ | r
  · rw [ht] at hrelated
    cases hrelated with
    | ok hs' => exact ⟨t', rfl, hs'⟩
  · rw [ht] at hrelated
    cases hrelated
  · rw [ht] at hrelated
    cases hrelated

lemma Respects.error {x : Prog ε σ α} (h : Respects R x) {s s' t : σ} {e : ε} (hst : R s t)
    (hx : x s = .error e s') : ∃ t', x t = .error e t' ∧ R s' t' := by
  have hrelated := h s t hst
  rw [hx] at hrelated
  rcases ht : x t with ⟨b, t'⟩ | ⟨e', t'⟩ | r
  · rw [ht] at hrelated
    cases hrelated
  · rw [ht] at hrelated
    cases hrelated with
    | error hs' => exact ⟨t', rfl, hs'⟩
  · rw [ht] at hrelated
    cases hrelated

lemma respects_pure (a : α) : Respects R (pure a : Prog ε σ α) := fun _ _ h => .ok h

lemma respects_throw (e : ε) : Respects R (throw e : Prog ε σ α) := fun _ _ h => .error h

lemma respects_halt (r : Halt) : Respects R (halt r : Prog ε σ α) := fun _ _ _ => .halt

lemma respects_okOr (e : ε) (o : Option α) : Respects R (okOr e o : Prog ε σ α) := by
  cases o with
  | none => exact respects_throw e
  | some a => exact respects_pure a

lemma respects_unwrap (o : Option α) : Respects R (unwrap o : Prog ε σ α) := by
  cases o with
  | none => exact respects_halt .panic
  | some a => exact respects_pure a

lemma respects_ite {p : Prop} {inst : Decidable p} {x y : Prog ε σ α} (hx : Respects R x)
    (hy : Respects R y) : Respects R (if p then x else y) := by
  by_cases hp : p
  · rw [if_pos hp]
    exact hx
  · rw [if_neg hp]
    exact hy

lemma respects_require (p : Prop) [Decidable p] : Respects R (require p : Prog ε σ Unit) :=
  respects_ite (respects_pure ()) (respects_halt .undefined)

lemma respects_bind {x : Prog ε σ α} {f : α → Prog ε σ β} (hx : Respects R x)
    (hf : ∀ a, Respects R (f a)) : Respects R (x >>= f) := by
  intro s t hst
  have hrelated := hx s t hst
  rcases hs : x s with ⟨a, s'⟩ | ⟨e, s'⟩ | r
  · obtain ⟨t', ht, hst'⟩ := hx.ok hst hs
    rw [bind_of_ok hs, bind_of_ok ht]
    exact hf a s' t' hst'
  · obtain ⟨t', ht, hst'⟩ := hx.error hst hs
    rw [bind_of_error hs, bind_of_error ht]
    exact .error hst'
  · rw [hs] at hrelated
    rcases ht : x t with ⟨b, t'⟩ | ⟨e, t'⟩ | r'
    · rw [ht] at hrelated
      cases hrelated
    · rw [ht] at hrelated
      cases hrelated
    · rw [ht] at hrelated
      cases hrelated
      rw [bind_of_halt hs, bind_of_halt ht]
      exact .halt

lemma respects_forRange {n : ℕ} {body : ℕ → Prog ε σ Unit} (hbody : ∀ k, Respects R (body k)) :
    Respects R (forRange n body) := by
  induction n with
  | zero => exact respects_pure ()
  | succ n ih => exact respects_bind ih fun _ => hbody n

end Respects

end Prog

end Recapn.Lib

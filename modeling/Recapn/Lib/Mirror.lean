/-
# Programs that are mirrored

A program that runs on a part of a state is mirrored by one that runs on the whole: where the whole run
succeeds so does the one on the part, with the same value, and where the part ends up in a state that the
rest has nothing against, so does the whole.  What the rest is against only grows along a run.
-/
import Recapn.Lib.Prog

namespace Recapn.Lib.Prog

variable {ε ε' σ τ α β γ : Type} {R : σ → τ → Prop} {P : σ → Prop}

/-- The second program mirrors the first one, which succeeds wherever the second does. -/
structure Mirrors (R : σ → τ → Prop) (P : σ → Prop) (x : Prog ε σ α) (y : Prog ε' τ α) : Prop where
  back : ∀ {s a s'}, x s = .ok a s' → P s' → P s
  up : ∀ {s t a s'}, R s t → x s = .ok a s' → P s' → ∃ t', y t = .ok a t' ∧ R s' t'
  down : ∀ {s t a t'}, R s t → y t = .ok a t' → ∃ s', x s = .ok a s' ∧ R s' t'

lemma mirrors_pure (a : α) : Mirrors R P (pure a : Prog ε σ α) (pure a : Prog ε' τ α) where
  back h hp := (pure_eq_ok.1 h).2 ▸ hp
  up {s t _ _} hr h _ := by
    obtain ⟨rfl, rfl⟩ := pure_eq_ok.1 h
    exact ⟨t, rfl, hr⟩
  down {s t _ _} hr h := by
    obtain ⟨rfl, rfl⟩ := pure_eq_ok.1 h
    exact ⟨s, rfl, hr⟩

lemma mirrors_throw (e : ε) (e' : ε') : Mirrors R P (throw e : Prog ε σ α) (throw e' : Prog ε' τ α) where
  back h _ := (throw_eq_ok.1 h).elim
  up _ h _ := (throw_eq_ok.1 h).elim
  down _ h := (throw_eq_ok.1 h).elim

lemma mirrors_halt (r r' : Halt) : Mirrors R P (halt r : Prog ε σ α) (halt r' : Prog ε' τ α) where
  back h _ := (halt_eq_ok.1 h).elim
  up _ h _ := (halt_eq_ok.1 h).elim
  down _ h := (halt_eq_ok.1 h).elim

lemma mirrors_bind {x : Prog ε σ α} {y : Prog ε' τ α} {f : α → Prog ε σ β} {g : α → Prog ε' τ β}
    (hxy : Mirrors R P x y) (hfg : ∀ a, Mirrors R P (f a) (g a)) : Mirrors R P (x >>= f) (y >>= g) where
  back h hp := by
    obtain ⟨a, s', hx, hf⟩ := bind_eq_ok.1 h
    exact hxy.back hx ((hfg a).back hf hp)
  up hr h hp := by
    obtain ⟨a, s', hx, hf⟩ := bind_eq_ok.1 h
    obtain ⟨t', hy, hr'⟩ := hxy.up hr hx ((hfg a).back hf hp)
    obtain ⟨t'', hg, hr''⟩ := (hfg a).up hr' hf hp
    exact ⟨t'', bind_eq_ok.2 ⟨a, t', hy, hg⟩, hr''⟩
  down hr h := by
    obtain ⟨a, t', hy, hg⟩ := bind_eq_ok.1 h
    obtain ⟨s', hx, hr'⟩ := hxy.down hr hy
    obtain ⟨s'', hf, hr''⟩ := (hfg a).down hr' hg
    exact ⟨s'', bind_eq_ok.2 ⟨a, s', hx, hf⟩, hr''⟩

lemma mirrors_fold {f : β → α → Prog ε σ β} {g : β → α → Prog ε' τ β} {as : List α}
    (h : ∀ a ∈ as, ∀ b, Mirrors R P (f b a) (g b a)) (b : β) : Mirrors R P (fold f b as) (fold g b as) := by
  induction as generalizing b with
  | nil => exact mirrors_pure b
  | cons a as ih =>
    exact mirrors_bind (h a List.mem_cons_self b) fun b' => ih (fun a' ha' => h a' (List.mem_cons_of_mem a ha')) b'

end Recapn.Lib.Prog

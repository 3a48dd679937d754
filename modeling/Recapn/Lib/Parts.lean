/-
# Parts of a state

A state has parts, and a program writes some of them.  What it writes is said once, and everything
that rests on other parts only is left as it was.
-/
import Recapn.Lib.Prog

namespace Recapn.Lib

/-- Parts of the states in `σ`: for each, whether it is the same in two states. -/
structure Parts (σ P : Type) where
  same : P → σ → σ → Prop
  refl : ∀ p s, same p s s
  trans : ∀ {p s s' s''}, same p s s' → same p s' s'' → same p s s''

variable {ε σ α β P : Type} {parts : Parts σ P} {K K' : List P}

/-- The program writes no other parts than those in `K`. -/
def Parts.Writes (parts : Parts σ P) (K : List P) (x : Prog ε σ α) : Prop :=
  Prog.Keeps (fun s s' => ∀ p, p ∉ K → parts.same p s s') x

namespace Parts

lemma Writes.ok {x : Prog ε σ α} (h : parts.Writes K x) {s s' : σ} {a : α} (hx : x s = .ok a s')
    {p : P} (hp : p ∉ K) : parts.same p s s' :=
  Prog.Keeps.ok h hx p hp

lemma Writes.mono {x : Prog ε σ α} (h : parts.Writes K x) (hsub : K ⊆ K') : parts.Writes K' x := by
  intro s
  have hs := h s
  rcases hrun : x s with ⟨a, s'⟩ | ⟨e, s'⟩ | r
  · rw [hrun] at hs
    exact fun p hp => hs p fun hmem => hp (hsub hmem)
  · rw [hrun] at hs
    exact fun p hp => hs p fun hmem => hp (hsub hmem)
  · trivial

lemma writes_pure (a : α) : parts.Writes K (pure a : Prog ε σ α) :=
  Prog.keeps_pure (fun s p _ => parts.refl p s) a

lemma writes_halt (r : Halt) : parts.Writes K (Prog.halt r : Prog ε σ α) := Prog.keeps_halt r

lemma writes_get : parts.Writes K (Prog.get : Prog ε σ σ) := fun s p _ => parts.refl p s

lemma writes_unwrap (o : Option α) : parts.Writes K (Prog.unwrap o : Prog ε σ α) :=
  Prog.keeps_unwrap (fun s p _ => parts.refl p s) o

lemma writes_ite {p : Prop} {inst : Decidable p} {x y : Prog ε σ α} (hx : parts.Writes K x)
    (hy : parts.Writes K y) : parts.Writes K (if p then x else y) :=
  Prog.keeps_ite hx hy

lemma writes_bind {x : Prog ε σ α} {f : α → Prog ε σ β} (hx : parts.Writes K x)
    (hf : ∀ a, parts.Writes K (f a)) : parts.Writes K (x >>= f) :=
  Prog.keeps_bind (fun _ _ _ h h' p hp => parts.trans (h p hp) (h' p hp)) hx hf

lemma writes_require (p : Prop) [Decidable p] :
    parts.Writes K (Prog.require p : Prog ε σ Unit) :=
  writes_ite (writes_pure ()) (writes_halt _)

/-- A program that leaves everything as it is. -/
lemma writes_of_fixes {x : Prog ε σ α} (h : Prog.Fixes id x) : parts.Writes K x := by
  intro s
  have hs := h s
  rcases hrun : x s with ⟨a, s'⟩ | ⟨e, s'⟩ | r
  · rw [hrun] at hs
    exact fun p _ => (show s' = s from hs) ▸ parts.refl p s'
  · rw [hrun] at hs
    exact fun p _ => (show s' = s from hs) ▸ parts.refl p s'
  · trivial

/-- What rests on other parts only stays what it is. -/
lemma Writes.fixes {δ : Type} {view : σ → δ} {x : Prog ε σ α} (h : parts.Writes K x) (L : List P)
    (hview : ∀ s s', (∀ p ∈ L, parts.same p s s') → view s' = view s) (hL : ∀ p ∈ L, p ∉ K) :
    Prog.Fixes view x := by
  intro s
  have hs := h s
  rcases hrun : x s with ⟨a, s'⟩ | ⟨e, s'⟩ | r
  · rw [hrun] at hs
    exact hview s s' fun p hp => hs p (hL p hp)
  · rw [hrun] at hs
    exact hview s s' fun p hp => hs p (hL p hp)
  · trivial

end Parts

end Recapn.Lib

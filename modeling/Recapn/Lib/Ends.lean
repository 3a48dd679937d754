/-
# How runs end

What is said of a program is often about the runs that succeed, together with the reasons for
which a run may halt; a run that fails is left out.  These are the rules for such statements, one
for every way to put programs together.
-/
import Recapn.Lib.Prog

namespace Recapn.Lib

variable {ε ε' σ τ α β : Type}

/-- A run that succeeds ends in this way, and one that halts does so for one of these reasons. -/
def Outcome.Ends (H : Halt → Prop) (Q : α → σ → Prop) : Outcome ε σ α → Prop
  | .ok a s => Q a s
  | .error _ _ => True
  | .halt r => H r

namespace Outcome.Ends

variable {H H' : Halt → Prop} {Q Q' : α → σ → Prop} {o : Outcome ε σ α}

lemma imp (h : o.Ends H Q) (hH : ∀ r, H r → H' r) (hQ : ∀ a s, Q a s → Q' a s) : o.Ends H' Q' := by
  cases o with
  | ok a s => exact hQ a s h
  | error => trivial
  | halt r => exact hH r h

lemma of_ok {a : α} {s : σ} (h : o.Ends H Q) (hrun : o = .ok a s) : Q a s := by
  rw [hrun] at h
  exact h

lemma of_halt {r : Halt} (h : o.Ends H Q) (hrun : o = .halt r) : H r := by
  rw [hrun] at h
  exact h

end Outcome.Ends

namespace Prog

variable {H : Halt → Prop} {s : σ}

/-- What comes after a part ends in this way wherever the part ends. -/
lemma ends_bind {x : Prog ε σ α} {f : α → Prog ε σ β} {Q : α → σ → Prop} {R : β → σ → Prop}
    (hx : (x s).Ends H Q) (hf : ∀ a s', Q a s' → (f a s').Ends H R) : ((x >>= f) s).Ends H R := by
  rcases hrun : x s with ⟨a, s'⟩ | ⟨e, s'⟩ | r
  · rw [bind_of_ok hrun]
    exact hf a s' (hx.of_ok hrun)
  · rw [bind_of_error hrun]
    trivial
  · rw [bind_of_halt hrun]
    exact hx.of_halt hrun

/-- An error that is handed out as a value is a way to succeed. -/
lemma ends_zoom_attempt {view : τ → σ} {put : τ → σ → τ} {x : Prog ε σ α} {t : τ}
    {Q : Except ε α → τ → Prop} (hok : ∀ a s', x (view t) = .ok a s' → Q (.ok a) (put t s'))
    (herror : ∀ e s', x (view t) = .error e s' → Q (.error e) (put t s'))
    (hhalt : ∀ r, x (view t) = .halt r → H r) :
    ((zoom view put (attempt x : Prog ε' σ _)) t).Ends H Q := by
  unfold zoom attempt
  rcases hx : x (view t) with ⟨a, s'⟩ | ⟨e, s'⟩ | r
  · exact hok a s' hx
  · exact herror e s' hx
  · exact hhalt r hx

/-- A loop ends with what its body preserves. -/
lemma ends_forRange {n : ℕ} {body : ℕ → Prog ε σ Unit} (inv : ℕ → σ → Prop) (hs : inv 0 s)
    (hbody : ∀ i < n, ∀ t, inv i t → (body i t).Ends H fun _ => inv (i + 1)) :
    (forRange n body s).Ends H fun _ => inv n := by
  induction n with
  | zero => exact hs
  | succ n ih =>
    refine ends_bind (ih fun i hi => hbody i (Nat.lt_succ_of_lt hi)) ?_
    intro _ t ht
    exact hbody n (Nat.lt_succ_self n) t ht

end Prog

end Recapn.Lib

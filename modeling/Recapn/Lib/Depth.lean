/-
# Programs that recurse to a depth

A recursion that nothing in the program bounds takes a depth.  What such a program comes to is
what it comes to for every depth that is large enough.
-/
import Mathlib.Order.Filter.AtTopBot.Basic
import Recapn.Lib.Prog

namespace Recapn.Lib

namespace Prog

open Filter

variable {ε σ α β : Type} {s₀ : σ} {a b : α}

/-- From `s₀` the program returns `a` and changes nothing, and it never returns anything else. -/
def Yields (s₀ : σ) (a : α) (x : Prog ε σ α) : Prop :=
  x s₀ = .ok a s₀ ∧ ∀ {s s' : σ} {b : α}, x s = .ok b s' → b = a

lemma yields_pure (a : α) : Yields s₀ a (pure a : Prog ε σ α) := by
  refine ⟨rfl, ?_⟩
  intro s s' b h
  exact (pure_eq_ok.1 h).1.symm

lemma yields_bind {x : Prog ε σ α} {f : α → Prog ε σ β} {b : β} (hx : Yields s₀ a x)
    (hf : Yields s₀ b (f a)) : Yields s₀ b (x >>= f) := by
  refine ⟨(bind_of_ok hx.1).trans hf.1, ?_⟩
  intro s s' b' h
  obtain ⟨a', t, hfirst, hrest⟩ := bind_eq_ok.1 h
  obtain rfl := hx.2 hfirst
  exact hf.2 hrest

lemma yields_zoom {τ : Type} {view : τ → σ} {put : τ → σ → τ} {t₀ : τ} {x : Prog ε σ α}
    (hx : Yields (view t₀) a x) (hput : put t₀ (view t₀) = t₀) : Yields t₀ a (zoom view put x) := by
  constructor
  · exact zoom_eq_ok.2 ⟨_, hx.1, hput⟩
  · intro t t' b h
    obtain ⟨s', hrun, -⟩ := zoom_eq_ok.1 h
    exact hx.2 hrun

/-- For every depth that is large enough, the program yields `a`. -/
def Settles (s₀ : σ) (a : α) (run : ℕ → Prog ε σ α) : Prop :=
  ∀ᶠ depth in atTop, Yields s₀ a (run depth)

lemma settles_of_yields {run : ℕ → Prog ε σ α} (h : ∀ depth, Yields s₀ a (run depth)) :
    Settles s₀ a run :=
  Eventually.of_forall h

lemma settles_pure (a : α) : Settles s₀ a fun _ => (pure a : Prog ε σ α) :=
  settles_of_yields fun _ => yields_pure a

lemma settles_bind {x : ℕ → Prog ε σ α} {f : ℕ → α → Prog ε σ β} {b : β} (hx : Settles s₀ a x)
    (hf : Settles s₀ b fun depth => f depth a) : Settles s₀ b fun depth => x depth >>= f depth := by
  filter_upwards [hx, hf] with depth hx hf
  exact yields_bind hx hf

/-- A program settles on one value. -/
lemma Settles.unique {run : ℕ → Prog ε σ α} (h : Settles s₀ a run) (h' : Settles s₀ b run) :
    a = b := by
  obtain ⟨depth, hdepth, hdepth'⟩ := (h.and h').exists
  exact hdepth'.2 hdepth.1

/-- The first depth does not count. -/
lemma Settles.of_succ {run : ℕ → Prog ε σ α} (h : Settles s₀ a fun depth => run (depth + 1)) :
    Settles s₀ a run := by
  obtain ⟨n, hn⟩ := eventually_atTop.1 h
  refine eventually_atTop.2 ⟨n + 1, ?_⟩
  intro depth hdepth
  obtain ⟨k, rfl⟩ := Nat.exists_eq_add_of_le' hdepth
  exact hn (k + n) (Nat.le_add_left _ _)

/-! ## Programs that end -/

/-- From `s` the program comes to the same end for every depth from `n` on, and the terms allow
that end. -/
def EndsBy (n : ℕ) (t : Terms ε σ) (s : σ) (run : ℕ → Prog ε σ α) : Prop :=
  ∃ o, (∀ depth, n ≤ depth → run depth s = o) ∧ t.Allows o

section EndsBy

variable {n m : ℕ} {t t' : Terms ε σ} {s : σ}

/-- A program that recurses to no depth. -/
lemma Within.endsBy {x : Prog ε σ α} (h : Within t x) (hs : t.inv s) :
    EndsBy n t s fun _ => x :=
  ⟨x s, fun _ _ => rfl, h s hs⟩

/-- A program that fails at once. -/
lemma endsBy_of_error {run : ℕ → Prog ε σ α} {e : ε} (hrun : ∀ depth, run depth s = .error e s)
    (he : t.err e) (hs : t.inv s) : EndsBy n t s run :=
  ⟨_, fun depth _ => hrun depth, he, hs⟩

lemma EndsBy.mono {run : ℕ → Prog ε σ α} (h : EndsBy n t s run) (hnm : n ≤ m) :
    EndsBy m t s run := by
  obtain ⟨o, hrun, ho⟩ := h
  exact ⟨o, fun depth hdepth => hrun depth (hnm.trans hdepth), ho⟩

lemma Terms.Allows.imp {o : Outcome ε σ α} (h : t.Allows o) (hinv : ∀ s, t.inv s → t'.inv s)
    (herr : ∀ e, t.err e → t'.err e) (hhalts : ∀ r, t.halts r → t'.halts r) : t'.Allows o := by
  rcases o with ⟨a, s⟩ | ⟨e, s⟩ | r
  · exact hinv s h
  · exact ⟨herr e h.1, hinv s h.2⟩
  · exact hhalts r h

lemma EndsBy.imp {run : ℕ → Prog ε σ α} (h : EndsBy n t s run) (hinv : ∀ s, t.inv s → t'.inv s)
    (herr : ∀ e, t.err e → t'.err e) (hhalts : ∀ r, t.halts r → t'.halts r) :
    EndsBy n t' s run := by
  obtain ⟨o, hrun, ho⟩ := h
  exact ⟨o, hrun, ho.imp hinv herr hhalts⟩

/-- The second part has to end only from where the first part can leave. -/
lemma endsBy_bind {x : ℕ → Prog ε σ α} {f : ℕ → α → Prog ε σ β} (hx : EndsBy n t s x)
    (hf : ∀ a s', t.inv s' → x n s = .ok a s' → EndsBy n t' s' fun depth => f depth a)
    (hinv : ∀ s, t.inv s → t'.inv s) (herr : ∀ e, t.err e → t'.err e)
    (hhalts : ∀ r, t.halts r → t'.halts r) :
    EndsBy n t' s fun depth => x depth >>= f depth := by
  obtain ⟨o, hrun, ho⟩ := hx
  rcases o with ⟨a, s'⟩ | ⟨e, s'⟩ | r
  · obtain ⟨o', hrest, ho'⟩ := hf a s' ho (hrun n le_rfl)
    exact ⟨o', fun depth hdepth => (bind_of_ok (hrun depth hdepth)).trans (hrest depth hdepth), ho'⟩
  · exact ⟨.error e s', fun depth hdepth => bind_of_error (hrun depth hdepth), herr e ho.1,
      hinv s' ho.2⟩
  · exact ⟨.halt r, fun depth hdepth => bind_of_halt (hrun depth hdepth), hhalts r ho⟩

/-- Both parts end within the same terms. -/
lemma EndsBy.bind {x : ℕ → Prog ε σ α} {f : ℕ → α → Prog ε σ β} (hx : EndsBy n t s x)
    (hf : ∀ a s', t.inv s' → x n s = .ok a s' → EndsBy n t s' fun depth => f depth a) :
    EndsBy n t s fun depth => x depth >>= f depth :=
  endsBy_bind hx hf (fun _ h => h) (fun _ h => h) fun _ h => h

lemma endsBy_fold {f : ℕ → β → α → Prog ε σ β} {as : List α} {b : β} (hs : t.inv s)
    (hf : ∀ a ∈ as, ∀ b s, t.inv s → EndsBy n t s fun depth => f depth b a) :
    EndsBy n t s fun depth => fold (f depth) b as := by
  induction as generalizing b s with
  | nil => exact (within_pure b).endsBy hs
  | cons a as ih =>
    refine EndsBy.bind (hf a List.mem_cons_self b s hs) ?_
    intro b' s' hs' _
    exact ih hs' fun a' ha' => hf a' (List.mem_cons_of_mem _ ha')

/-- The first depth does not count. -/
lemma EndsBy.succ {run : ℕ → Prog ε σ α} (h : EndsBy n t s fun depth => run (depth + 1)) :
    EndsBy (n + 1) t s run := by
  obtain ⟨o, hrun, ho⟩ := h
  refine ⟨o, ?_, ho⟩
  intro depth hdepth
  obtain ⟨k, rfl⟩ := Nat.exists_eq_add_of_le' hdepth
  exact hrun (k + n) (Nat.le_add_left _ _)

end EndsBy

end Prog

end Recapn.Lib

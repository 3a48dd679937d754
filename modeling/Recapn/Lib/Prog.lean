/-
# Programs with state, errors and halts

A program runs on a state.  It returns a value and a state, or an error and the state it left
behind, or it halts: it panicked, it did something undefined, or it ran out of its recursion
depth.  Errors can be handled, halts cannot.
-/
import Mathlib.Tactic.Common

namespace Recapn.Lib

/-- Why a program halted. -/
inductive Halt where
  | panic
  | undefined
  | depth
deriving DecidableEq, Repr

/-- What a program comes to. -/
inductive Outcome (ε σ α : Type) where
  | ok (a : α) (s : σ)
  | error (e : ε) (s : σ)
  | halt (h : Halt)
deriving DecidableEq

/-- A program with errors in `ε`, on a state in `σ`. -/
def Prog (ε σ α : Type) : Type := σ → Outcome ε σ α

namespace Prog

variable {ε ε' σ τ α β γ : Type}

instance : Monad (Prog ε σ) where
  pure a := fun s => .ok a s
  bind x f := fun s =>
    match x s with
    | .ok a s => f a s
    | .error e s => .error e s
    | .halt h => .halt h

/-- The program that fails. -/
def throw (e : ε) : Prog ε σ α := fun s => .error e s

/-- The program that halts. -/
def halt (h : Halt) : Prog ε σ α := fun _ => .halt h

/-- The state. -/
def get : Prog ε σ σ := fun s => .ok s s

/-- Change the state. -/
def modify (f : σ → σ) : Prog ε σ Unit := fun s => .ok () (f s)

/-- `Option::ok_or`, and the question mark behind it. -/
def okOr (e : ε) : Option α → Prog ε σ α
  | some a => pure a
  | none => throw e

/-- `Option::unwrap`. -/
def unwrap : Option α → Prog ε σ α
  | some a => pure a
  | none => halt .panic

/-- `assert!`. -/
def assert (p : Prop) [Decidable p] : Prog ε σ Unit := if p then pure () else halt .panic

/-- What must hold for the program to have a meaning. -/
def require (p : Prop) [Decidable p] : Prog ε σ Unit := if p then pure () else halt .undefined

/-- Run a program and hand out its error as a value. -/
def attempt (x : Prog ε σ α) : Prog ε' σ (Except ε α) := fun s =>
  match x s with
  | .ok a s => .ok (.ok a) s
  | .error e s => .ok (.error e) s
  | .halt h => .halt h

/-- Run a program on a part of the state. -/
def zoom (view : τ → σ) (put : τ → σ → τ) (x : Prog ε σ α) : Prog ε τ α := fun t =>
  match x (view t) with
  | .ok a s => .ok a (put t s)
  | .error e s => .error e (put t s)
  | .halt h => .halt h

/-- Run the body for every number below `n`, in order. -/
def forRange (n : ℕ) (body : ℕ → Prog ε σ Unit) : Prog ε σ Unit :=
  match n with
  | 0 => pure ()
  | n + 1 => do
    forRange n body
    body n

/-- Run the body for every item, in order, each on what the one before it returned. -/
def fold (f : β → α → Prog ε σ β) (b : β) : List α → Prog ε σ β
  | [] => pure b
  | a :: as => do
    let b ← f b a
    fold f b as

/-! ## What a run that succeeds went through -/

@[simp] lemma pure_apply (a : α) (s : σ) : (pure a : Prog ε σ α) s = .ok a s := rfl

@[simp] lemma throw_apply (e : ε) (s : σ) : (throw e : Prog ε σ α) s = .error e s := rfl

@[simp] lemma halt_apply (h : Halt) (s : σ) : (halt h : Prog ε σ α) s = .halt h := rfl

@[simp] lemma get_apply (s : σ) : (get : Prog ε σ σ) s = .ok s s := rfl

@[simp] lemma modify_apply (f : σ → σ) (s : σ) : (modify f : Prog ε σ Unit) s = .ok () (f s) := rfl

@[simp] lemma okOr_some (e : ε) (a : α) : (okOr e (some a) : Prog ε σ α) = pure a := rfl

@[simp] lemma okOr_none (e : ε) : (okOr e none : Prog ε σ α) = throw e := rfl

@[simp] lemma unwrap_some (a : α) : (unwrap (some a) : Prog ε σ α) = pure a := rfl

lemma bind_apply (x : Prog ε σ α) (f : α → Prog ε σ β) (s : σ) :
    (x >>= f) s = match x s with
      | .ok a s => f a s
      | .error e s => .error e s
      | .halt h => .halt h := rfl

@[simp] lemma pure_bind_eq (a : α) (f : α → Prog ε σ β) : (pure a >>= f) = f a := rfl

/-- Run the first part of a program. -/
lemma bind_of_ok {x : Prog ε σ α} {f : α → Prog ε σ β} {s s' : σ} {a : α} (h : x s = .ok a s') :
    (x >>= f) s = f a s' := by
  rw [bind_apply, h]

/-- The run of what comes after a first part that is known to end. -/
lemma of_bind {x : Prog ε σ α} {f : α → Prog ε σ β} {s s' s'' : σ} {a : α} {b : β}
    (hx : x s = .ok a s') (h : (x >>= f) s = .ok b s'') : f a s' = .ok b s'' :=
  (bind_of_ok hx).symm.trans h

lemma bind_of_error {x : Prog ε σ α} {f : α → Prog ε σ β} {s s' : σ} {e : ε}
    (h : x s = .error e s') : (x >>= f) s = .error e s' := by
  rw [bind_apply, h]

lemma bind_of_halt {x : Prog ε σ α} {f : α → Prog ε σ β} {s : σ} {r : Halt} (h : x s = .halt r) :
    (x >>= f) s = .halt r := by
  rw [bind_apply, h]

/-- The first part may be another one that does the same. -/
lemma bind_of_eq {x y : Prog ε σ α} {f : α → Prog ε σ β} {s s' : σ} (h : x s = y s') :
    (x >>= f) s = (y >>= f) s' := by
  rw [bind_apply, bind_apply, h]

/-- A program that succeeds has succeeded in all its parts. -/
lemma bind_eq_ok {x : Prog ε σ α} {f : α → Prog ε σ β} {s s'' : σ} {b : β} :
    (x >>= f) s = .ok b s'' ↔ ∃ a s', x s = .ok a s' ∧ f a s' = .ok b s'' := by
  constructor
  · intro h
    rw [bind_apply] at h
    rcases hx : x s with ⟨a, s'⟩ | ⟨e, s'⟩ | r
    · rw [hx] at h
      exact ⟨a, s', rfl, h⟩
    · rw [hx] at h
      cases h
    · rw [hx] at h
      cases h
  · rintro ⟨a, s', hx, hf⟩
    rw [bind_of_ok hx, hf]

lemma bind_pure_ok {x : Prog ε σ α} {g : α → β} {s s' : σ} {b : β}
    (h : (x >>= fun a => pure (g a)) s = .ok b s') : ∃ a, x s = .ok a s' ∧ g a = b := by
  obtain ⟨a, s₁, hx, hpure⟩ := bind_eq_ok.1 h
  cases hpure
  exact ⟨a, hx, rfl⟩

/-- A run that fails did so in its first part, or in what comes then. -/
lemma bind_eq_error {x : Prog ε σ α} {f : α → Prog ε σ β} {s s'' : σ} {e : ε} :
    (x >>= f) s = .error e s'' ↔
      x s = .error e s'' ∨ ∃ a s', x s = .ok a s' ∧ f a s' = .error e s'' := by
  rw [bind_apply]
  rcases x s with ⟨a, s'⟩ | ⟨e', s'⟩ | r
  · constructor
    · intro h
      exact Or.inr ⟨a, s', rfl, h⟩
    · rintro (h | ⟨a', t, heq, h⟩)
      · cases h
      · cases heq
        exact h
  · constructor
    · intro h
      cases h
      exact Or.inl rfl
    · rintro (h | ⟨a', t, heq, -⟩)
      · cases h
        rfl
      · cases heq
  · constructor
    · intro h
      cases h
    · rintro (h | ⟨a', t, heq, -⟩)
      · cases h
      · cases heq

lemma pure_eq_ok {a b : α} {s s' : σ} : (pure a : Prog ε σ α) s = .ok b s' ↔ a = b ∧ s = s' := by
  rw [pure_apply, Outcome.ok.injEq]

lemma throw_eq_ok {e : ε} {a : α} {s s' : σ} : (throw e : Prog ε σ α) s = .ok a s' ↔ False := by
  rw [throw_apply]
  exact ⟨fun h => (nomatch h), False.elim⟩

lemma halt_eq_ok {r : Halt} {a : α} {s s' : σ} : (halt r : Prog ε σ α) s = .ok a s' ↔ False := by
  rw [halt_apply]
  exact ⟨fun h => (nomatch h), False.elim⟩

@[simp] lemma fold_nil (f : β → α → Prog ε σ β) (b : β) : fold f b [] = pure b := rfl

lemma fold_cons (f : β → α → Prog ε σ β) (b : β) (a : α) (as : List α) :
    fold f b (a :: as) = f b a >>= fun b => fold f b as := rfl

lemma bind_assoc_eq {γ : Type} (x : Prog ε σ α) (f : α → Prog ε σ β) (g : β → Prog ε σ γ) :
    (x >>= f) >>= g = x >>= fun a => f a >>= g := by
  funext s
  rcases hx : x s with ⟨a, s'⟩ | ⟨e, s'⟩ | r
  · rw [bind_of_ok hx, bind_apply, bind_of_ok hx, bind_apply]
  · rw [bind_of_error hx, bind_of_error (bind_of_error hx)]
  · rw [bind_of_halt hx, bind_of_halt (bind_of_halt hx)]

lemma fold_append (f : β → α → Prog ε σ β) (b : β) (as bs : List α) :
    fold f b (as ++ bs) = fold f b as >>= fun b => fold f b bs := by
  induction as generalizing b with
  | nil => rfl
  | cons a as ih =>
    rw [List.cons_append, fold_cons, fold_cons, bind_assoc_eq]
    congr 1
    funext b'
    exact ih b'

/-- Runs one after the other are the run of all their steps. -/
lemma fold_flatMap {γ : Type} {f : Unit → γ → Prog ε σ Unit} {x : α → Prog ε σ Unit}
    {steps : α → List γ} {as : List α} (h : ∀ a ∈ as, x a = fold f () (steps a)) :
    fold (fun _ a => x a) () as = fold f () (as.flatMap steps) := by
  induction as with
  | nil => rfl
  | cons a as ih =>
    rw [fold_cons, List.flatMap_cons, fold_append, h a List.mem_cons_self]
    congr 1
    funext u
    exact ih fun a' ha' => h a' (List.mem_cons_of_mem a ha')

/-- What holds at the end of a loop holds at its start, if every round carries it back. -/
lemma fold_eq_ok_induction {f : β → α → Prog ε σ β} {motive : β → List α → σ → Prop} {b b' : β}
    {as : List α} {s s' : σ} (h : fold f b as s = .ok b' s') (hnil : motive b' [] s')
    (hcons : ∀ b a as s b₁ s₁, f b a s = .ok b₁ s₁ → motive b₁ as s₁ → motive b (a :: as) s) :
    motive b as s := by
  induction as generalizing b s with
  | nil =>
    obtain ⟨rfl, rfl⟩ := pure_eq_ok.1 h
    exact hnil
  | cons a as ih =>
    obtain ⟨b₁, s₁, hfirst, hrest⟩ := bind_eq_ok.1 h
    exact hcons b a as s b₁ s₁ hfirst (ih hrest)

lemma okOr_eq_ok {e : ε} {o : Option α} {a : α} {s s' : σ} :
    (okOr e o : Prog ε σ α) s = .ok a s' ↔ o = some a ∧ s = s' := by
  rcases o with _ | b
  · rw [okOr_none, throw_eq_ok]
    exact ⟨False.elim, fun h => nomatch h.1⟩
  · rw [okOr_some, pure_eq_ok, Option.some.injEq]

lemma unwrap_eq_ok {o : Option α} {a : α} {s s' : σ} :
    (unwrap o : Prog ε σ α) s = .ok a s' ↔ o = some a ∧ s = s' := by
  rcases o with _ | b
  · show (halt .panic : Prog ε σ α) s = .ok a s' ↔ _
    rw [halt_eq_ok]
    exact ⟨False.elim, fun h => nomatch h.1⟩
  · rw [unwrap_some, pure_eq_ok, Option.some.injEq]

lemma zoom_eq_ok {view : τ → σ} {put : τ → σ → τ} {x : Prog ε σ α} {s s' : τ} {a : α} :
    zoom view put x s = .ok a s' ↔ ∃ v, x (view s) = .ok a v ∧ put s v = s' := by
  unfold zoom
  rcases hrun : x (view s) with ⟨b, v⟩ | ⟨e, v⟩ | r
  · constructor
    · intro h
      cases h
      exact ⟨v, rfl, rfl⟩
    · rintro ⟨v', hv, rfl⟩
      cases hv
      rfl
  · exact ⟨fun h => (nomatch h), fun ⟨_, hv, _⟩ => nomatch hv⟩
  · exact ⟨fun h => (nomatch h), fun ⟨_, hv, _⟩ => nomatch hv⟩

lemma attempt_eq_ok {x : Prog ε σ α} {s s' : σ} {a : α} :
    (attempt x : Prog ε' σ (Except ε α)) s = .ok (.ok a) s' ↔ x s = .ok a s' := by
  unfold attempt
  rcases x s with ⟨b, v⟩ | ⟨e, v⟩ | r
  · constructor
    · intro h
      cases h
      rfl
    · intro h
      cases h
      rfl
  · exact ⟨fun h => (nomatch h), fun h => nomatch h⟩
  · exact ⟨fun h => (nomatch h), fun h => nomatch h⟩

lemma ite_eq_ok {p : Prop} [Decidable p] {x y : Prog ε σ α} {a : α} {s s' : σ} :
    (if p then x else y) s = .ok a s' ↔ p ∧ x s = .ok a s' ∨ ¬ p ∧ y s = .ok a s' := by
  by_cases hp : p
  · rw [if_pos hp]
    exact ⟨fun h => Or.inl ⟨hp, h⟩, fun h => h.elim And.right fun h => absurd hp h.1⟩
  · rw [if_neg hp]
    exact ⟨fun h => Or.inr ⟨hp, h⟩, fun h => h.elim (fun h => absurd h.1 hp) And.right⟩

lemma if_pos_apply {p : Prop} {inst : Decidable p} (hp : p) (x y : Prog ε σ α) (s : σ) :
    (if p then x else y) s = x s := by
  rw [if_pos hp]

lemma if_neg_apply {p : Prop} {inst : Decidable p} (hp : ¬ p) (x y : Prog ε σ α) (s : σ) :
    (if p then x else y) s = y s := by
  rw [if_neg hp]

lemma assert_eq_ok {p : Prop} [Decidable p] {s s' : σ} :
    (assert p : Prog ε σ Unit) s = .ok () s' ↔ p ∧ s = s' := by
  rw [assert, ite_eq_ok, pure_eq_ok, halt_eq_ok]
  simp

lemma require_eq_ok {p : Prop} [Decidable p] {s s' : σ} :
    (require p : Prog ε σ Unit) s = .ok () s' ↔ p ∧ s = s' := by
  rw [require, ite_eq_ok, pure_eq_ok, halt_eq_ok]
  simp

lemma assert_of {p : Prop} [Decidable p] (h : p) : (assert p : Prog ε σ Unit) = pure () := if_pos h

lemma require_of {p : Prop} [Decidable p] (h : p) : (require p : Prog ε σ Unit) = pure () := if_pos h

/-- A loop whose body does nothing does nothing. -/
lemma forRange_eq_ok {n : ℕ} {body : ℕ → Prog ε σ Unit} {s : σ} (h : ∀ k < n, body k s = .ok () s) :
    forRange n body s = .ok () s := by
  induction n with
  | zero => rfl
  | succ n ih =>
    rw [forRange, bind_of_ok (ih fun k hk => h k (Nat.lt_succ_of_lt hk))]
    exact h n (Nat.lt_succ_self n)

/-- Loops whose bodies do the same do the same. -/
lemma forRange_congr {n : ℕ} {body body' : ℕ → Prog ε σ Unit} (h : ∀ k < n, body k = body' k) :
    forRange n body = forRange n body' := by
  induction n with
  | zero => rfl
  | succ n ih =>
    have hbefore := ih fun k hk => h k (Nat.lt_succ_of_lt hk)
    rw [forRange, forRange, hbefore, h n (Nat.lt_succ_self n)]

lemma fold_congr {f g : β → α → Prog ε σ β} {as : List α} (h : ∀ a ∈ as, ∀ b, f b a = g b a) {b : β} :
    fold f b as = fold g b as := by
  induction as generalizing b with
  | nil => rfl
  | cons a as ih =>
    rw [fold_cons, fold_cons, h a List.mem_cons_self]
    exact congrArg (bind _) (funext fun b' => ih fun a' ha' => h a' (List.mem_cons_of_mem _ ha'))

/-! ## What a run may come to -/

/-- The terms of a program: what its states have, which errors it may fail with and in which ways
it may halt. -/
structure Terms (ε σ : Type) where
  inv : σ → Prop
  err : ε → Prop
  halts : Halt → Prop

/-- What a program within the terms may come to. -/
def Terms.Allows (t : Terms ε σ) : Outcome ε σ α → Prop
  | .ok _ s => t.inv s
  | .error e s => t.err e ∧ t.inv s
  | .halt r => t.halts r

/-- From a state that has what the terms ask for, every run stays within them. -/
def Within (t : Terms ε σ) (x : Prog ε σ α) : Prop := ∀ s, t.inv s → t.Allows (x s)

section Within

variable {t : Terms ε σ}

lemma Within.ok {x : Prog ε σ α} (h : Within t x) {s s' : σ} {a : α} (hs : t.inv s)
    (hx : x s = .ok a s') : t.inv s' := by
  have hrun := h s hs
  rw [hx] at hrun
  exact hrun

lemma Within.error {x : Prog ε σ α} (h : Within t x) {s s' : σ} {e : ε} (hs : t.inv s)
    (hx : x s = .error e s') : t.err e ∧ t.inv s' := by
  have hrun := h s hs
  rw [hx] at hrun
  exact hrun

lemma Within.halt {x : Prog ε σ α} (h : Within t x) {s : σ} {r : Halt} (hs : t.inv s)
    (hx : x s = .halt r) : t.halts r := by
  have hrun := h s hs
  rw [hx] at hrun
  exact hrun

lemma within_pure (a : α) : Within t (pure a : Prog ε σ α) := fun _ hs => hs

lemma within_throw {e : ε} (he : t.err e) : Within t (throw e : Prog ε σ α) := fun _ hs => ⟨he, hs⟩

lemma within_halt {r : Halt} (hr : t.halts r) : Within t (halt r : Prog ε σ α) := fun _ _ => hr

lemma within_get : Within t (get : Prog ε σ σ) := fun _ hs => hs

lemma within_modify {f : σ → σ} (hf : ∀ s, t.inv s → t.inv (f s)) :
    Within t (modify f : Prog ε σ Unit) := hf

lemma within_okOr {e : ε} (he : t.err e) (o : Option α) : Within t (okOr e o : Prog ε σ α) := by
  rcases o with _ | a
  · exact within_throw he
  · exact within_pure a

lemma within_unwrap (hr : t.halts .panic) (o : Option α) : Within t (unwrap o : Prog ε σ α) := by
  rcases o with _ | a
  · exact within_halt hr
  · exact within_pure a

lemma within_ite {p : Prop} {inst : Decidable p} {x y : Prog ε σ α} (hx : p → Within t x)
    (hy : ¬ p → Within t y) : Within t (if p then x else y) := by
  by_cases hp : p
  · rw [if_pos hp]
    exact hx hp
  · rw [if_neg hp]
    exact hy hp

lemma within_assert (hr : t.halts .panic) (p : Prop) [Decidable p] :
    Within t (assert p : Prog ε σ Unit) :=
  within_ite (fun _ => within_pure ()) fun _ => within_halt hr

lemma within_require (hr : t.halts .undefined) (p : Prop) [Decidable p] :
    Within t (require p : Prog ε σ Unit) :=
  within_ite (fun _ => within_pure ()) fun _ => within_halt hr

lemma allows_bind {x : Prog ε σ α} {f : α → Prog ε σ β} {s : σ} (hx : t.Allows (x s))
    (hf : ∀ a s', x s = .ok a s' → t.inv s' → t.Allows (f a s')) : t.Allows ((x >>= f) s) := by
  rw [bind_apply]
  rcases hrun : x s with ⟨a, s'⟩ | ⟨e, s'⟩ | r
  · rw [hrun] at hx
    exact hf a s' hrun hx
  · rw [hrun] at hx
    exact hx
  · rw [hrun] at hx
    exact hx

/-- The second part has to stay within the terms only for what the first part can return. -/
lemma within_bind {x : Prog ε σ α} {f : α → Prog ε σ β} (hx : Within t x)
    (hf : ∀ a, (∃ s s', t.inv s ∧ x s = .ok a s') → Within t (f a)) : Within t (x >>= f) :=
  fun s hs => allows_bind (hx s hs) fun a s' hrun hs' => hf a ⟨s, s', hs, hrun⟩ s' hs'

lemma within_forRange {n : ℕ} {body : ℕ → Prog ε σ Unit} (hbody : ∀ k < n, Within t (body k)) :
    Within t (forRange n body) := by
  induction n with
  | zero => exact within_pure ()
  | succ n ih =>
    refine within_bind (ih fun k hk => hbody k (Nat.lt_succ_of_lt hk)) ?_
    intro _ _
    exact hbody n (Nat.lt_succ_self n)

lemma within_fold {f : β → α → Prog ε σ β} {as : List α} (hf : ∀ a ∈ as, ∀ b, Within t (f b a))
    (b : β) : Within t (fold f b as) := by
  induction as generalizing b with
  | nil => exact within_pure b
  | cons a as ih =>
    refine within_bind (hf a List.mem_cons_self b) ?_
    intro b' _
    exact ih (fun a' ha' => hf a' (List.mem_cons_of_mem _ ha')) b'

/-- A program that hands out its errors as values does not fail. -/
lemma within_attempt {x : Prog ε σ α} (hx : Within t x) :
    Within ⟨t.inv, fun _ => False, t.halts⟩ (attempt x : Prog ε' σ (Except ε α)) := by
  intro s hs
  unfold attempt
  rcases hrun : x s with ⟨a, s'⟩ | ⟨e, s'⟩ | r
  · exact hx.ok hs hrun
  · exact (hx.error hs hrun).2
  · exact hx.halt hs hrun

/-- What is handed out as an error is one that the terms allow. -/
lemma err_of_zoom_attempt {view : τ → σ} {put : τ → σ → τ} {x : Prog ε σ α} (hx : Within t x)
    {s s' : τ} {e : ε} (hs : t.inv (view s))
    (h : (zoom view put (attempt x) : Prog ε' τ (Except ε α)) s = .ok (.error e) s') : t.err e := by
  unfold zoom attempt at h
  rcases hrun : x (view s) with ⟨a, v⟩ | ⟨e', v⟩ | r
  · rw [hrun] at h
    cases h
  · rw [hrun] at h
    cases h
    exact (hx.error hs hrun).1
  · rw [hrun] at h
    cases h

/-- A program on a part of the state. -/
lemma within_zoom {view : τ → σ} {put : τ → σ → τ} {t' : Terms ε τ} {x : Prog ε σ α}
    (hx : Within t x) (hview : ∀ s, t'.inv s → t.inv (view s))
    (hput : ∀ s v, t'.inv s → t.inv v → t'.inv (put s v)) (herr : ∀ e, t.err e → t'.err e)
    (hhalts : ∀ r, t.halts r → t'.halts r) : Within t' (zoom view put x) := by
  intro s hs
  unfold zoom
  rcases hrun : x (view s) with ⟨a, v⟩ | ⟨e, v⟩ | r
  · exact hput s v hs (hx.ok (hview s hs) hrun)
  · obtain ⟨he, hv⟩ := hx.error (hview s hs) hrun
    exact ⟨herr e he, hput s v hs hv⟩
  · exact hhalts r (hx.halt (hview s hs) hrun)

end Within

/-! ## What every run keeps

`Keeps R x` says that `R` relates the state before a run of `x` to the state after it, be it a
success or an error.  For a preorder it is proved part by part.
-/

/-- Every run of the program moves the state along the relation. -/
def Keeps (R : σ → σ → Prop) (x : Prog ε σ α) : Prop :=
  ∀ s, match x s with
    | .ok _ s' => R s s'
    | .error _ s' => R s s'
    | .halt _ => True

section Keeps

variable {R : σ → σ → Prop}

lemma Keeps.ok {x : Prog ε σ α} (h : Keeps R x) {s s' : σ} {a : α} (hx : x s = .ok a s') :
    R s s' := by
  have hs := h s
  rw [hx] at hs
  exact hs

lemma Keeps.error {x : Prog ε σ α} (h : Keeps R x) {s s' : σ} {e : ε} (hx : x s = .error e s') :
    R s s' := by
  have hs := h s
  rw [hx] at hs
  exact hs

lemma keeps_pure (hrefl : ∀ s, R s s) (a : α) : Keeps R (pure a : Prog ε σ α) := fun s => hrefl s

lemma keeps_throw (hrefl : ∀ s, R s s) (e : ε) : Keeps R (throw e : Prog ε σ α) := fun s => hrefl s

lemma keeps_halt (r : Halt) : Keeps R (halt r : Prog ε σ α) := fun _ => trivial

lemma keeps_okOr (hrefl : ∀ s, R s s) (e : ε) (o : Option α) : Keeps R (okOr e o : Prog ε σ α) := by
  rcases o with _ | a
  · exact keeps_throw hrefl e
  · exact keeps_pure hrefl a

lemma keeps_unwrap (hrefl : ∀ s, R s s) (o : Option α) : Keeps R (unwrap o : Prog ε σ α) := by
  rcases o with _ | a
  · exact keeps_halt _
  · exact keeps_pure hrefl a

lemma keeps_ite {p : Prop} {inst : Decidable p} {x y : Prog ε σ α} (hx : Keeps R x)
    (hy : Keeps R y) : Keeps R (if p then x else y) := by
  by_cases hp : p
  · rw [if_pos hp]
    exact hx
  · rw [if_neg hp]
    exact hy

lemma keeps_bind (htrans : ∀ s t u, R s t → R t u → R s u) {x : Prog ε σ α} {f : α → Prog ε σ β}
    (hx : Keeps R x) (hf : ∀ a, Keeps R (f a)) : Keeps R (x >>= f) := by
  intro s
  rw [bind_apply]
  rcases hrun : x s with ⟨a, s'⟩ | ⟨e, s'⟩ | r
  · have hfirst : R s s' := hx.ok hrun
    show match f a s' with | .ok _ s'' => R s s'' | .error _ s'' => R s s'' | .halt _ => True
    rcases hrest : f a s' with ⟨b, s''⟩ | ⟨e, s''⟩ | r
    · exact htrans _ _ _ hfirst ((hf a).ok hrest)
    · exact htrans _ _ _ hfirst ((hf a).error hrest)
    · trivial
  · exact hx.error hrun
  · trivial

end Keeps

/-! ## What every run leaves as it is -/

/-- No run of the program changes this about the state. -/
def Fixes {β : Type} (view : σ → β) (x : Prog ε σ α) : Prop :=
  Keeps (fun s s' => view s' = view s) x

section Fixes

variable {δ : Type} {view : σ → δ}

lemma Fixes.ok {x : Prog ε σ α} (h : Fixes view x) {s s' : σ} {a : α} (hx : x s = .ok a s') :
    view s' = view s :=
  Keeps.ok h hx

lemma fixes_pure (a : α) : Fixes view (pure a : Prog ε σ α) := fun _ => rfl

lemma fixes_halt (r : Halt) : Fixes view (halt r : Prog ε σ α) := keeps_halt r

lemma fixes_get : Fixes view (get : Prog ε σ σ) := fun _ => rfl

lemma fixes_modify {f : σ → σ} (h : ∀ s, view (f s) = view s) :
    Fixes view (modify f : Prog ε σ Unit) := h

lemma fixes_unwrap (o : Option α) : Fixes view (unwrap o : Prog ε σ α) := by
  rcases o with _ | a
  · exact fixes_halt _
  · exact fixes_pure a

lemma fixes_ite {p : Prop} {inst : Decidable p} {x y : Prog ε σ α} (hx : Fixes view x)
    (hy : Fixes view y) : Fixes view (if p then x else y) :=
  keeps_ite hx hy

lemma fixes_bind {x : Prog ε σ α} {f : α → Prog ε σ β} (hx : Fixes view x)
    (hf : ∀ a, Fixes view (f a)) : Fixes view (x >>= f) :=
  keeps_bind (fun _ _ _ h h' => h'.trans h) hx hf

lemma fixes_require (p : Prop) [Decidable p] : Fixes view (require p : Prog ε σ Unit) :=
  fixes_ite (fixes_pure ()) (fixes_halt _)

lemma Fixes.comp {δ' : Type} {x : Prog ε σ α} (h : Fixes view x) (g : δ → δ') :
    Fixes (fun s => g (view s)) x := by
  intro s
  have hs := h s
  rcases hrun : x s with ⟨a, s'⟩ | ⟨e, s'⟩ | r
  · rw [hrun] at hs
    exact congrArg g hs
  · rw [hrun] at hs
    exact congrArg g hs
  · trivial

end Fixes

end Prog

end Recapn.Lib

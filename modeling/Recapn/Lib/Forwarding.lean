/-
# Places that forward to each other

Every place may forward to another one.  From a place one is led on to the end of its chain, if
there is one.  When the end of a chain forwards to a place that does not lead back to it, the
chains that ended there are longer, and they all end still.
-/
import Mathlib.Data.Fintype.Pigeonhole
import Mathlib.Data.Set.Finite.List
import Mathlib.Logic.Function.Basic
import Mathlib.Logic.Relation
import Mathlib.Data.List.Perm.Subperm
import Mathlib.Tactic.Common

namespace Recapn.Lib

variable {ι : Type}

/-- From `i` one is led to `r`, which does not forward. -/
inductive Leads (next : ι → Option ι) : ι → ι → Prop
  | refl {i : ι} (h : next i = none) : Leads next i i
  | step {i j r : ι} (h : next i = some j) (hj : Leads next j r) : Leads next i r

/-- One is led from `i` to `r` over so many other places. -/
inductive LeadsIn (next : ι → Option ι) : ℕ → ι → ι → Prop
  | refl {i : ι} (h : next i = none) : LeadsIn next 0 i i
  | step {n : ℕ} {i j r : ι} (h : next i = some j) (hj : LeadsIn next n j r) :
      LeadsIn next (n + 1) i r

/-- The end of the chain from a place, when there are at most so many places on it. -/
def follow (next : ι → Option ι) : ℕ → ι → Option ι
  | 0, _ => none
  | fuel + 1, i =>
    match next i with
    | none => some i
    | some j => follow next fuel j

/-- No place is led back to itself. -/
def Acyclic (next : ι → Option ι) : Prop :=
  ∀ i, ¬ Relation.TransGen (fun a b => next a = some b) i i

section Leads

variable {next : ι → Option ι} {i j r s : ι}

lemma Leads.next_eq_none (h : Leads next i r) : next r = none := by
  induction h with
  | refl h => exact h
  | step h hj ih => exact ih

lemma Leads.unique (hr : Leads next i r) (hs : Leads next i s) : r = s := by
  induction hr with
  | refl h =>
    cases hs with
    | refl => rfl
    | step hstep => rw [h] at hstep; cases hstep
  | step h hj ih =>
    cases hs with
    | refl hnone => rw [h] at hnone; cases hnone
    | step hstep hs =>
      rw [h] at hstep
      cases hstep
      exact ih hs

lemma Leads.of_next (h : Leads next i r) (hj : next i = some j) : Leads next j r := by
  cases h with
  | refl hnone => rw [hj] at hnone; cases hnone
  | step hstep hr =>
    rw [hj] at hstep
    cases hstep
    exact hr

/-- The end of a chain leads to itself. -/
lemma Leads.end (h : Leads next i r) : Leads next r r := .refl h.next_eq_none

lemma Leads.leadsIn (h : Leads next i r) : ∃ n, LeadsIn next n i r := by
  induction h with
  | refl h => exact ⟨0, .refl h⟩
  | step h hj ih =>
    obtain ⟨n, hn⟩ := ih
    exact ⟨n + 1, .step h hn⟩

lemma LeadsIn.unique {n m : ℕ} (hr : LeadsIn next n i r) (hs : LeadsIn next m i s) : n = m := by
  induction hr generalizing m with
  | refl h =>
    cases hs with
    | refl => rfl
    | step hstep => rw [h] at hstep; cases hstep
  | step h hj ih =>
    cases hs with
    | refl hnone => rw [h] at hnone; cases hnone
    | step hstep hs =>
      rw [h] at hstep
      cases hstep
      rw [ih hs]

/-- Every place that is reached from `i` is nearer to the end. -/
lemma LeadsIn.lt_of_transGen {n : ℕ} (h : LeadsIn next n i r)
    (hj : Relation.TransGen (fun a b => next a = some b) i j) :
    ∃ m, m < n ∧ LeadsIn next m j r := by
  induction hj with
  | single hstep =>
    cases h with
    | refl hnone => rw [hstep] at hnone; cases hnone
    | step hstep' hr =>
      rw [hstep] at hstep'
      cases hstep'
      exact ⟨_, Nat.lt_succ_self _, hr⟩
  | tail _ hstep ih =>
    obtain ⟨m, hm, hr⟩ := ih
    cases hr with
    | refl hnone => rw [hstep] at hnone; cases hnone
    | step hstep' hr =>
      rw [hstep] at hstep'
      cases hstep'
      exact ⟨_, Nat.lt_of_succ_lt hm, hr⟩

/-- When all chains end, there is no cycle. -/
theorem acyclic_of_leads (h : ∀ i, ∃ r, Leads next i r) : Acyclic next := by
  intro i hcycle
  obtain ⟨r, hr⟩ := h i
  obtain ⟨n, hn⟩ := hr.leadsIn
  obtain ⟨m, hm, hback⟩ := hn.lt_of_transGen hcycle
  exact Nat.ne_of_lt hm (hback.unique hn)

lemma not_acyclic_of_next_self (h : next i = some i) : ¬ Acyclic next :=
  fun hacyclic => hacyclic i (.single h)

/-! ### Following the chain -/

lemma leads_of_follow {fuel : ℕ} (h : follow next fuel i = some r) : Leads next i r := by
  induction fuel generalizing i with
  | zero => cases h
  | succ fuel ih =>
    rw [follow] at h
    rcases hnext : next i with _ | j
    · rw [hnext] at h
      cases h
      exact .refl hnext
    · rw [hnext] at h
      exact .step hnext (ih h)

lemma LeadsIn.follow {n fuel : ℕ} (h : LeadsIn next n i r) (hn : n < fuel) :
    follow next fuel i = some r := by
  induction h generalizing fuel with
  | refl h =>
    obtain ⟨fuel, rfl⟩ := Nat.exists_eq_succ_of_ne_zero (Nat.ne_zero_of_lt hn)
    rw [Lib.follow, h]
  | step h hj ih =>
    obtain ⟨fuel, rfl⟩ := Nat.exists_eq_succ_of_ne_zero (Nat.ne_zero_of_lt hn)
    rw [Lib.follow, h]
    exact ih (Nat.lt_of_succ_lt_succ hn)

/-- The places over which one is led are different, and all of them forward. -/
lemma LeadsIn.path {n : ℕ} (h : LeadsIn next n i r) :
    ∃ path : List ι, path.length = n ∧ path.Nodup ∧
      ∀ x ∈ path, next x ≠ none ∧ ∃ m, m ≤ n ∧ LeadsIn next m x r := by
  induction h with
  | refl h => exact ⟨[], rfl, List.nodup_nil, fun x hx => absurd hx List.not_mem_nil⟩
  | @step n i j r h hj ih =>
    obtain ⟨path, hlength, hnodup, hpath⟩ := ih
    have hi : LeadsIn next (n + 1) i r := .step h hj
    refine ⟨i :: path, by rw [List.length_cons, hlength], List.nodup_cons.2 ⟨?_, hnodup⟩, ?_⟩
    · -- `i` is farther from the end than they are
      intro hmem
      obtain ⟨-, m, hm, hback⟩ := hpath i hmem
      rw [hback.unique hi] at hm
      exact Nat.not_succ_le_self n hm
    · intro x hx
      rcases List.mem_cons.1 hx with rfl | hx
      · refine ⟨fun hnone => ?_, n + 1, Nat.le_refl _, hi⟩
        rw [h] at hnone
        cases hnone
      · obtain ⟨hne, m, hm, hx⟩ := hpath x hx
        exact ⟨hne, m, Nat.le_succ_of_le hm, hx⟩

/-- When only some places forward, one need not go over more than these. -/
theorem follow_eq_some_iff {places : List ι} (hplaces : ∀ i, next i ≠ none → i ∈ places) :
    follow next (places.length + 1) i = some r ↔ Leads next i r := by
  refine ⟨leads_of_follow, fun h => ?_⟩
  obtain ⟨n, hn⟩ := h.leadsIn
  obtain ⟨path, hlength, hnodup, hpath⟩ := hn.path
  refine hn.follow (Nat.lt_succ_of_le ?_)
  rw [← hlength]
  exact (List.subperm_of_subset hnodup fun x hx => hplaces x (hpath x hx).1).length_le

/-! ### Coming back -/

/-- From `i` one comes to a place that one comes back to. -/
def Revisits (next : ι → Option ι) (i : ι) : Prop :=
  ∃ j, Relation.ReflTransGen (fun a b => next a = some b) i j ∧
    Relation.TransGen (fun a b => next a = some b) j j

/-- The place to which one comes in so many steps, if one gets so far. -/
def after (next : ι → Option ι) (i : ι) : ℕ → Option ι
  | 0 => some i
  | n + 1 => (after next i n).bind next

lemma reaches_of_after {n : ℕ} (h : after next i n = some j) :
    Relation.ReflTransGen (fun a b => next a = some b) i j := by
  induction n generalizing j with
  | zero =>
    cases h
    exact .refl
  | succ n ih =>
    obtain ⟨k, hk, hnext⟩ := Option.bind_eq_some_iff.1 h
    exact (ih hk).tail hnext

lemma after_reaches {m n : ℕ} (hn : after next i n = some j) (hm : after next i (n + m + 1) = some r) :
    Relation.TransGen (fun a b => next a = some b) j r := by
  induction m generalizing r with
  | zero =>
    obtain ⟨k, hk, hnext⟩ := Option.bind_eq_some_iff.1 hm
    rw [hn] at hk
    cases hk
    exact .single hnext
  | succ m ih =>
    obtain ⟨k, hk, hnext⟩ := Option.bind_eq_some_iff.1 hm
    exact (ih hk).tail hnext

/-- Where one is led to the end from a place on the way, one is from the start. -/
lemma leads_of_after {n : ℕ} (hn : after next i n = some j) (h : Leads next j r) : Leads next i r := by
  induction n generalizing j with
  | zero =>
    cases hn
    exact h
  | succ n ih =>
    obtain ⟨k, hk, hnext⟩ := Option.bind_eq_some_iff.1 hn
    exact ih hk (.step hnext h)

/-- One is led to an end if and only if one never comes back to a place, when only some of the
places that one comes to forward. -/
theorem leads_iff_not_revisits {places : List ι}
    (hplaces : ∀ j, Relation.ReflTransGen (fun a b => next a = some b) i j → next j ≠ none → j ∈ places) :
    (∃ r, Leads next i r) ↔ ¬ Revisits next i := by
  constructor
  · rintro ⟨r, hr⟩ ⟨j, hij, hjj⟩
    obtain ⟨n, hn⟩ := hr.leadsIn
    obtain ⟨m, hm⟩ : ∃ m, LeadsIn next m j r := by
      rcases Relation.reflTransGen_iff_eq_or_transGen.1 hij with rfl | hij
      · exact ⟨n, hn⟩
      · obtain ⟨m, -, hm⟩ := hn.lt_of_transGen hij
        exact ⟨m, hm⟩
    -- the place would be nearer to the end than it is
    obtain ⟨k, hk, hback⟩ := hm.lt_of_transGen hjj
    exact Nat.ne_of_lt hk (hback.unique hm)
  · intro hrevisits
    by_contra hnone
    have hafter : ∀ n, ∃ j, after next i n = some j ∧ next j ≠ none := by
      intro n
      induction n with
      | zero => exact ⟨i, rfl, fun hend => hnone ⟨i, .refl hend⟩⟩
      | succ n ih =>
        obtain ⟨j, hj, hnext⟩ := ih
        obtain ⟨k, hk⟩ := Option.ne_none_iff_exists'.1 hnext
        have hsucc : after next i (n + 1) = some k := by
          rw [after, hj]
          exact hk
        exact ⟨k, hsucc, fun hend => hnone ⟨k, leads_of_after hsucc (.refl hend)⟩⟩
    choose at' hat hnext using hafter
    have hmem (n : ℕ) : at' n ∈ places := hplaces _ (reaches_of_after (hat n)) (hnext n)
    have := (List.finite_toSet places).to_subtype
    obtain ⟨n, m, hne, heq⟩ := Finite.exists_ne_map_eq_of_infinite
      fun n => (⟨at' n, hmem n⟩ : {j | j ∈ places})
    have heq' : at' n = at' m := congrArg Subtype.val heq
    wlog hlt : n < m generalizing n m
    · exact this m n hne.symm heq.symm heq'.symm (by omega)
    · obtain ⟨d, rfl⟩ := Nat.exists_eq_add_of_lt hlt
      have hcycle := after_reaches (hat n) (hat (n + d + 1))
      rw [← heq'] at hcycle
      exact hrevisits ⟨at' n, reaches_of_after (hat n), hcycle⟩

end Leads

/-! ## Forwarding one more place -/

section Update

variable [DecidableEq ι] {next : ι → Option ι} {i j r s x : ι}

/-- Chains that end elsewhere are what they were. -/
lemma Leads.update_of_ne (h : Leads next x r) (hi : next i = none) (hne : r ≠ i) :
    Leads (Function.update next i (some j)) x r := by
  induction h with
  | refl h => exact .refl (by rw [Function.update_of_ne hne, h])
  | @step x y r h hj ih =>
    have hx : x ≠ i := by
      rintro rfl
      rw [h] at hi
      cases hi
    exact .step (by rw [Function.update_of_ne hx, h]) (ih hne)

/-- A chain that ended at the place goes on where that one forwards to. -/
lemma Leads.update_of_eq (h : Leads next x i) (hj : Leads next j s) (hne : s ≠ i) :
    Leads (Function.update next i (some j)) x s := by
  have hi := h.next_eq_none
  induction h with
  | refl h => exact .step (by rw [Function.update_self]) (hj.update_of_ne hi hne)
  | @step x y r h hj' ih =>
    have hx : x ≠ r := by
      rintro rfl
      rw [h] at hi
      cases hi
    exact .step (by rw [Function.update_of_ne hx, h]) (ih hne hi)

/-- All chains end when the end of one forwards to a place that does not lead back to it. -/
theorem leads_update (hends : ∀ x, ∃ r, Leads next x r) (hi : next i = none)
    (hj : Leads next j s) (hne : s ≠ i) (x : ι) :
    ∃ r, Leads (Function.update next i (some j)) x r := by
  obtain ⟨r, hr⟩ := hends x
  by_cases hri : r = i
  · rw [hri] at hr
    exact ⟨s, hr.update_of_eq hj hne⟩
  · exact ⟨r, hr.update_of_ne hi hri⟩

end Update

end Recapn.Lib

/-
# Joins that may not exist

A partial join answers with the least upper bound of two elements, or not at all.  It need not find
every bound there is, but it does find the larger of two elements that are in order.  Joining a
list of elements to another gives the least upper bound of them all, so the order in which they are
joined does not matter where it gives anything.
-/
import Mathlib.Order.Bounds.Basic
import Mathlib.Data.List.Perm.Basic

namespace Recapn.Lib

variable {α : Type*} [PartialOrder α]

/-- What the join answers is the least upper bound, in either order. -/
structure PartialJoin (join : α → α → Option α) : Prop where
  comm : ∀ a b, join a b = join b a
  of_le : ∀ {a b}, a ≤ b → join a b = some b
  isLUB : ∀ {a b c}, join a b = some c → IsLUB {a, b} c

namespace PartialJoin

variable {join : α → α → Option α} {a b c : α} {l l₁ l₂ : List α}

lemma self (h : PartialJoin join) (a : α) : join a a = some a := h.of_le le_rfl

lemma le_left (h : PartialJoin join) (hjoin : join a b = some c) : a ≤ c :=
  (h.isLUB hjoin).1 (Set.mem_insert a {b})

lemma le_right (h : PartialJoin join) (hjoin : join a b = some c) : b ≤ c :=
  (h.isLUB hjoin).1 (Set.mem_insert_of_mem a rfl)

/-- What was joined takes either in again. -/
lemma absorbs (h : PartialJoin join) (hjoin : join a b = some c) :
    join c a = some c ∧ join c b = some c := by
  rw [h.comm c a, h.comm c b]
  exact ⟨h.of_le (h.le_left hjoin), h.of_le (h.le_right hjoin)⟩

/-- All of a list joined to an element is the least upper bound. -/
lemma isLUB_foldlM (h : PartialJoin join) (hjoin : l.foldlM join a = some c) :
    IsLUB (insert a {x | x ∈ l}) c := by
  induction l generalizing a with
  | nil =>
    cases hjoin
    simp
  | cons b l ih =>
    obtain ⟨d, hd, hrest⟩ := Option.bind_eq_some_iff.1 hjoin
    have hlub := h.isLUB hd
    have hrun := ih hrest
    constructor
    · rintro x (rfl | hx)
      · exact (h.le_left hd).trans (hrun.1 (Set.mem_insert _ _))
      · rcases List.mem_cons.1 hx with rfl | hx
        · exact (h.le_right hd).trans (hrun.1 (Set.mem_insert _ _))
        · exact hrun.1 (Set.mem_insert_of_mem _ hx)
    · intro u hu
      -- a bound of them all is one of the first two, so of their join
      have hfirst : d ≤ u := by
        apply hlub.2
        rintro x (rfl | rfl)
        · exact hu (Set.mem_insert _ _)
        · exact hu (Set.mem_insert_of_mem _ List.mem_cons_self)
      apply hrun.2
      rintro x (rfl | hx)
      · exact hfirst
      · exact hu (Set.mem_insert_of_mem _ (List.mem_cons_of_mem _ hx))

/-- Nothing gets smaller. -/
lemma le_foldlM (h : PartialJoin join) (hjoin : l.foldlM join a = some c) : a ≤ c :=
  (h.isLUB_foldlM hjoin).1 (Set.mem_insert _ _)

lemma mem_le_foldlM (h : PartialJoin join) (hjoin : l.foldlM join a = some c) (hb : b ∈ l) : b ≤ c :=
  (h.isLUB_foldlM hjoin).1 (Set.mem_insert_of_mem _ hb)

/-- Two orders of the same elements that both give something give the same. -/
lemma foldlM_perm (h : PartialJoin join) (hperm : l₁.Perm l₂) (h₁ : l₁.foldlM join a = some b)
    (h₂ : l₂.foldlM join a = some c) : b = c := by
  have hmem : {x | x ∈ l₁} = {x | x ∈ l₂} := Set.ext fun x => hperm.mem_iff
  have hb := h.isLUB_foldlM h₁
  rw [hmem] at hb
  exact hb.unique (h.isLUB_foldlM h₂)

end PartialJoin

end Recapn.Lib

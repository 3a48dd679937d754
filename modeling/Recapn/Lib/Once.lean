/-
# Things done once

Things are issued, wait, and are done.  Each has a name.  No name is done twice, nor does it wait
when it was done, and nothing that was issued is left out, unless it has become void meanwhile.
-/
import Mathlib.Data.List.Nodup

namespace Recapn.Lib

variable {α β : Type} {name : α → β} {void void' : α → Prop} {issued all all' : List α} {x : α}

/-- All that was issued and is not void is among `all`, what is done already and then what waits;
each name is there once at most. -/
structure Once (name : α → β) (void : α → Prop) (issued all : List α) : Prop where
  nodup : (all.map name).Nodup
  known : ∀ x ∈ all, x ∈ issued
  complete : ∀ x ∈ issued, ¬ void x → x ∈ all

namespace Once

lemma nil : Once name void [] [] := ⟨List.nodup_nil, nofun, nofun⟩

/-- More becomes void. -/
lemma mono (h : Once name void issued all) (hvoid : ∀ x, void x → void' x) :
    Once name void' issued all :=
  ⟨h.nodup, h.known, fun x hx hnot => h.complete x hx fun hv => hnot (hvoid x hv)⟩

/-- What is void is taken out. -/
lemma sublist (h : Once name void issued all) (hsub : all'.Sublist all)
    (hvoid : ∀ x ∈ all, x ∉ all' → void x) : Once name void issued all' where
  nodup := h.nodup.sublist (hsub.map name)
  known x hx := h.known x (hsub.subset hx)
  complete x hx hnot := by
    by_contra hout
    exact hnot (hvoid x (h.complete x hx hnot) hout)

/-- What is among `all` is issued again. -/
lemma again (h : Once name void issued all) (hx : x ∈ all) : Once name void (issued ++ [x]) all where
  nodup := h.nodup
  known y hy := List.mem_append_left _ (h.known y hy)
  complete y hy hnot := by
    rcases List.mem_append.1 hy with hy | hy
    · exact h.complete y hy hnot
    · rw [List.mem_singleton.1 hy]
      exact hx

/-- What has a new name is issued, and waits. -/
lemma add (h : Once name void issued all) (hx : name x ∉ all.map name) :
    Once name void (issued ++ [x]) (all ++ [x]) where
  nodup := by
    rw [List.map_append, List.map_singleton, ← List.concat_eq_append]
    exact h.nodup.concat hx
  known y hy := by
    rcases List.mem_append.1 hy with hy | hy
    · exact List.mem_append_left _ (h.known y hy)
    · exact List.mem_append_right _ hy
  complete y hy hnot := by
    rcases List.mem_append.1 hy with hy | hy
    · exact List.mem_append_left _ (h.complete y hy hnot)
    · exact List.mem_append_right _ hy

end Once

end Recapn.Lib

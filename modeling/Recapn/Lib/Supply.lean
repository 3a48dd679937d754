/-
# A supply of names

One after the other, names are given to those who ask for them.  Everyone asks for a name of their own first,
gets it unless it is taken, and gets another one that is not taken otherwise.  So no name is given twice, and
a name that nobody gets in place of another is taken in the end exactly if somebody asked for it.
-/
import Mathlib.Data.List.Perm.Basic

namespace Recapn.Lib

variable {N I : Type}

/-- What those who ask get, when these are taken: `made` says what they may get, and `first` what they ask
for. -/
inductive Supply (made first : N → I → Prop) : List I → List N → List I → Prop
  | nil {taken : List I} : Supply made first taken [] []
  | cons {taken : List I} {n : N} {ns : List N} {i : I} {is : List I} (hfresh : i ∉ taken) (hmade : made n i)
      (hfirst : ∀ w, first n w → w ∉ taken → i = w) (hrest : Supply made first (i :: taken) ns is) :
      Supply made first taken (n :: ns) (i :: is)

namespace Supply

variable {made first : N → I → Prop} {taken : List I} {ns ns' : List N} {is is' : List I} {n : N} {w : I}

lemma append (h : Supply made first taken ns is) (h' : Supply made first (is.reverse ++ taken) ns' is') :
    Supply made first taken (ns ++ ns') (is ++ is') := by
  induction h with
  | nil => exact h'
  | cons hfresh hmade hfirst _ ih =>
    rw [List.reverse_cons, List.append_assoc] at h'
    exact .cons hfresh hmade hfirst (ih h')

/-- No name is given that is taken. -/
lemma not_mem (h : Supply made first taken ns is) : ∀ i ∈ is, i ∉ taken := by
  induction h with
  | nil => exact nofun
  | cons hfresh _ _ _ ih =>
    intro i hi
    rcases List.mem_cons.1 hi with rfl | hi
    · exact hfresh
    · exact fun htaken => ih i hi (List.mem_cons_of_mem _ htaken)

/-- No name is given twice. -/
lemma nodup (h : Supply made first taken ns is) : is.Nodup := by
  induction h with
  | nil => exact List.nodup_nil
  | cons _ _ _ hrest ih => exact List.nodup_cons.2 ⟨fun hi => hrest.not_mem _ hi List.mem_cons_self, ih⟩

lemma exists_made (h : Supply made first taken ns is) : ∀ i ∈ is, ∃ n ∈ ns, made n i := by
  induction h with
  | nil => exact nofun
  | cons _ hmade _ _ ih =>
    intro i hi
    rcases List.mem_cons.1 hi with rfl | hi
    · exact ⟨_, List.mem_cons_self, hmade⟩
    · exact (ih i hi).imp fun n hn => ⟨List.mem_cons_of_mem _ hn.1, hn.2⟩

/-- What somebody asks for is taken in the end. -/
lemma mem_of_first (h : Supply made first taken ns is) (hn : n ∈ ns) (hw : first n w) : w ∈ is ∨ w ∈ taken := by
  induction h with
  | nil => cases hn
  | @cons taken n' ns i is _ _ hfirst _ ih =>
    rcases List.mem_cons.1 hn with rfl | hn
    · by_cases htaken : w ∈ taken
      · exact .inr htaken
      · rw [hfirst w hw htaken]
        exact .inl List.mem_cons_self
    · rcases ih hn with hgiven | htaken
      · exact .inl (List.mem_cons_of_mem _ hgiven)
      · rcases List.mem_cons.1 htaken with rfl | htaken
        · exact .inl List.mem_cons_self
        · exact .inr htaken

/-- A name that can only be asked for is given exactly if it was not taken and is asked for. -/
lemma mem_iff (h : Supply made first taken ns is) (hw : ∀ n ∈ ns, made n w → first n w) :
    w ∈ is ↔ w ∉ taken ∧ ∃ n ∈ ns, first n w := by
  constructor
  · intro hgiven
    obtain ⟨n, hn, hmade⟩ := h.exists_made w hgiven
    exact ⟨h.not_mem w hgiven, n, hn, hw n hn hmade⟩
  · rintro ⟨htaken, n, hn, hfirst⟩
    exact (h.mem_of_first hn hfirst).resolve_right htaken

end Supply

end Recapn.Lib

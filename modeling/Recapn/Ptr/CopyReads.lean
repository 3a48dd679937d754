/-
# What a copy reads as

A strict copy, not in canonical form, of a pointer that reads as a value reads as the same value,
with the capabilities that the tables gave out for those of the source.  There is one exception:
a list that fills a segment cannot be read again.  Strict or not, a copy leads to nothing but
fresh words.
-/
import Recapn.Ptr.CopyOf

namespace Recapn.Ptr

open Recapn.Lib

/-! ## What a word denotes -/

section Denotes

variable {a : ReadArena} {id id' : SegmentId} {pos cost index : ℕ} {typed : TypedContent}

/-- A null pointer denotes an empty struct. -/
lemma Denotes.of_null (h : Denotes a id pos id' typed cost) (hnull : a.Holds id pos Word.null) :
    ∃ start, typed = .struct ⟨start, StructSize.empty⟩ := by
  obtain ⟨segment, hsegment, hword⟩ := hnull
  by_contra hne
  exact h.ne_null hsegment (fun start heq => hne ⟨start, heq⟩) hword

/-- An object in a message is not null, but for an empty struct. -/
lemma Denotes.shape_of_null {shape : Shape} {start : ℕ} (h : Denotes a id pos id' (shape.content start) cost)
    (hnull : a.Holds id pos Word.null) : shape = .struct StructSize.empty := by
  obtain ⟨start', htyped⟩ := h.of_null hnull
  exact (@Shape.content_inj shape (.struct StructSize.empty) _ _ htyped).1

/-- A capability pointer denotes its capability. -/
lemma denotes_capability (hword : a.Holds id pos (CapabilityPtr.new index)) :
    Denotes a id pos id (.capability (CapabilityPtr.capabilityIndex (CapabilityPtr.new index))) 0 := by
  obtain ⟨segment, hsegment, hword⟩ := hword
  have hkind := CapabilityPtr.kind_new index
  have hlocates : Locates a id pos id ⟨segment.data pos, .near pos⟩ 0 := .near hsegment (by
    rw [hword, hkind]
    decide)
  have hdescribes : Describes a id ⟨segment.data pos, .near pos⟩ id
      (.capability (CapabilityPtr.capabilityIndex (segment.data pos))) 0 := .capability (by
    rw [hword, WirePtr.isCapability, CapabilityPtr.lower_new]
    rfl)
  rw [hword] at hlocates hdescribes
  exact ⟨id, _, 0, 0, hlocates, hdescribes, rfl⟩

lemma ReadArena.Holds.denotes_unique {w : Word} (hword : a.Holds id pos w) {id₁ id₂ : SegmentId}
    {typed₁ typed₂ : TypedContent} {cost₁ cost₂ : ℕ} (h₁ : Denotes a id pos id₁ typed₁ cost₁)
    (h₂ : Denotes a id pos id₂ typed₂ cost₂) : id₁ = id₂ ∧ typed₁ = typed₂ := by
  obtain ⟨segment, hsegment, -⟩ := hword
  exact h₁.unique hsegment h₂

/-- What denotes a capability denotes no object. -/
lemma Denotes.not_capability {shape : Shape} {start : ℕ} {w : Word} (hword : a.Holds id pos w)
    {id₁ id₂ : SegmentId} {cost₁ cost₂ : ℕ} (h₁ : Denotes a id pos id₁ (shape.content start) cost₁)
    (h₂ : Denotes a id pos id₂ (.capability index) cost₂) : False := by
  have htyped := (hword.denotes_unique h₁ h₂).2
  cases shape <;> cases htyped

end Denotes

/-! ## What is reached -/

/-- From a pointer one comes to the word of an object. -/
inductive Reaches (a : ReadArena) : SegmentId → ℕ → SegmentRef → Prop
  | here {id id' : SegmentId} {pos start cost : ℕ} {shape : Shape} {r : SegmentRef}
      (hdenotes : Denotes a id pos id' (shape.content start) cost)
      (hmem : r ∈ span ⟨id', start⟩ shape.words) : Reaches a id pos r
  | there {id id' : SegmentId} {pos start cost k : ℕ} {shape : Shape} {r : SegmentRef}
      (hdenotes : Denotes a id pos id' (shape.content start) cost) (hk : k < shape.words)
      (hptr : shape.isPtr k = true) (hreaches : Reaches a id' (start + k) r) : Reaches a id pos r

section Copies

variable {ε : Type} {machine : CopyMachine ε} {a a' : ReadArena} {strict : Prop}
  {F : Set SegmentRef} {id did : SegmentId} {pos dpos : ℕ} {r : SegmentRef}

/-- Nothing is reached from a null pointer. -/
lemma Reaches.ne_null (h : Reaches a id pos r) : ¬ a.Holds id pos Word.null := by
  intro hnull
  cases h with
  | here hdenotes hmem =>
    obtain rfl := hdenotes.shape_of_null hnull
    obtain ⟨-, hle, hlt⟩ := hmem
    exact absurd hlt (Nat.not_lt.2 hle)
  | there hdenotes hk =>
    obtain rfl := hdenotes.shape_of_null hnull
    exact absurd hk (Nat.not_lt_zero _)

/-- What is reached first is the object of the pointer. -/
lemma Reaches.denotes (h : Reaches a id pos r) :
    ∃ id' shape start cost, Denotes a id pos id' (Shape.content shape start) cost := by
  cases h with
  | here hdenotes | there hdenotes => exact ⟨_, _, _, _, hdenotes⟩

/-- **A copy leads to nothing but the places of its objects.** -/
theorem CopyOf.reaches (h : CopyOf machine a strict F a' id pos did dpos)
    (hreaches : Reaches a' did dpos r) : r ∈ F := by
  induction h with
  | null _ hnull' | refused _ hnull' => exact absurd hnull' hreaches.ne_null
  | capability _ _ hword =>
    obtain ⟨_, shape, _, _, hdenotes⟩ := hreaches.denotes
    exact (hdenotes.not_capability hword (denotes_capability hword)).elim
  | object _ _ _ _ _ _ hdsegment _ hdenotes' _ hfresh _ _ ih =>
    cases hreaches with
    | here hdenotes hmem =>
      obtain ⟨rfl, htyped⟩ := hdenotes'.unique hdsegment hdenotes
      obtain ⟨rfl, rfl⟩ := Shape.content_inj htyped
      exact hfresh hmem
    | there hdenotes hk hptr hreaches =>
      obtain ⟨rfl, htyped⟩ := hdenotes'.unique hdsegment hdenotes
      obtain ⟨rfl, rfl⟩ := Shape.content_inj htyped
      exact ih _ hk hptr hreaches
  | full _ _ _ _ _ _ _ hrefuses =>
    obtain ⟨_, _, _, _, hdenotes⟩ := hreaches.denotes
    exact absurd hdenotes (hrefuses _ _ _)

end Copies

/-! ## Values -/

/-- The values are the same, with other capabilities in the place of those of the source. -/
inductive Value.Matches {ε : Type} (machine : CopyMachine ε) : Value → Value → Prop
  | null : Value.Matches machine .null .null
  | capability {index newIndex : ℕ} (hanswer : machine.Answers index (some newIndex)) :
      Value.Matches machine (.capability index)
        (.capability (CapabilityPtr.capabilityIndex (CapabilityPtr.new newIndex)))
  | refused {index : ℕ} (hanswer : machine.Answers index none) :
      Value.Matches machine (.capability index) .null
  | object {shape : Shape} {data : shape.Data → Word} {ptrs ptrs' : shape.Slot → Value}
      (hptrs : ∀ k, Value.Matches machine (ptrs k) (ptrs' k)) :
      Value.Matches machine (.object shape data ptrs) (.object shape data ptrs')

/-- No list of structs in it fills a segment. -/
def Value.Roomy : Value → Prop
  | object shape _ ptrs => ¬ shape.Full ∧ ∀ k, (ptrs k).Roomy
  | _ => True

section Values

variable {ε : Type} {machine : CopyMachine ε} {a a' : ReadArena} {strict : Prop}
  {F : Set SegmentRef} {id did : SegmentId} {pos dpos : ℕ} {v w : Value}

lemma Reads.holds (h : Reads a id pos v) : ∃ w, a.Holds id pos w := by
  cases h with
  | null hsegment | capability hsegment | object hsegment => exact ⟨_, _, hsegment, rfl⟩

/-- The copy of a pointer that reads as null is null. -/
lemma CopyOf.of_null (h : CopyOf machine a strict F a' id pos did dpos)
    (hnull : a.Holds id pos Word.null) : a'.Holds did dpos Word.null := by
  cases h with
  | null _ hnull' | refused _ hnull' => exact hnull'
  | capability hdenotes =>
    obtain ⟨_, htyped⟩ := hdenotes.of_null hnull
    cases htyped
  | object hsegment hsource => exact absurd hnull (ReadArena.not_holds_null hsegment hsource)
  | full _ hdenotes =>
    obtain ⟨_, htyped⟩ := hdenotes.of_null hnull
    cases htyped

/-- **A strict copy of what can be read reads as the same value.** -/
theorem CopyOf.reads (hreads : Reads a id pos v) (hcanonical : machine.canonical = false)
    (hroomy : v.Roomy) (h : CopyOf machine a True F a' id pos did dpos) :
    ∃ w, Reads a' did dpos w ∧ v.Matches machine w := by
  induction hreads generalizing did dpos with
  | null hsegment hnull =>
    obtain ⟨dsegment, hdsegment, hdnull⟩ := h.of_null ⟨_, hsegment, hnull⟩
    exact ⟨.null, .null hdsegment hdnull, .null⟩
  | capability hsegment hsome hdenotes =>
    cases h with
    | null hnull => exact absurd hnull (ReadArena.not_holds_null hsegment hsome)
    | refused hkeeps hnull' =>
      obtain ⟨dsegment, hdsegment, hdnull⟩ := hnull'
      obtain ⟨_, _, _, hdenotes', hanswer⟩ := hkeeps.resolve_left (fun h => h trivial)
      cases (hdenotes.unique hsegment hdenotes').2
      exact ⟨.null, .null hdsegment hdnull, .refused hanswer⟩
    | capability hdenotes' hanswer hword =>
      cases (hdenotes.unique hsegment hdenotes').2
      have hdenotes' := denotes_capability hword
      obtain ⟨dsegment, hdsegment, hdata⟩ := hword
      refine ⟨_, .capability hdsegment ?_ hdenotes', .capability hanswer⟩
      rw [hdata]
      exact CapabilityPtr.ne_null_new _
    | object _ _ hdenotes' =>
      exact (hdenotes'.not_capability ⟨_, hsegment, rfl⟩ hdenotes).elim
    | @full _ _ _ _ start _ _ _ _ _ size count _ _ hdenotes' =>
      exact (@Denotes.not_capability _ _ _ _ (.list (.inlineComposite size) count) _ _
        ⟨_, hsegment, rfl⟩ _ _ _ _ hdenotes' hdenotes).elim
  | @object id id' pos start _ segment block shape data ptrs hsegment hsome hdenotes hblock hdata _ ih =>
    cases h with
    | null hnull => exact absurd hnull (ReadArena.not_holds_null hsegment hsome)
    | refused hkeeps =>
      obtain ⟨_, _, _, hdenotes', -⟩ := hkeeps.resolve_left (fun h => h trivial)
      exact (hdenotes.not_capability ⟨_, hsegment, rfl⟩ hdenotes').elim
    | capability hdenotes' =>
      exact (hdenotes.not_capability ⟨_, hsegment, rfl⟩ hdenotes').elim
    | object _ _ hdenotes' hblock' hcopy _ hdsegment hdsome hddenotes hdblock _ hddata hdptrs =>
      obtain ⟨rfl, htyped⟩ := hdenotes.unique hsegment hdenotes'
      obtain ⟨rfl, rfl⟩ := Shape.content_inj htyped.symm
      obtain rfl := Option.mem_unique hblock hblock'
      rw [hcanonical, Shape.copied_false, eq_comm] at hcopy
      subst hcopy
      simp only [Shape.source_self] at hddata hdptrs
      have hslots := fun k => ih k (hroomy.2 k) (hdptrs k.1 k.2.1 k.2.2)
      choose ws hws using hslots
      refine ⟨.object _ data ws, .object hdsegment hdsome hddenotes hdblock ?_
        fun k => (hws k).1, .object fun k => (hws k).2⟩
      intro k
      rw [hddata k.1 k.2.1 k.2.2]
      exact hdata k
    | @full _ _ _ _ start _ _ _ _ _ size count copy _ hdenotes' _ hcopy hfull =>
      have htyped := (hdenotes.unique hsegment hdenotes').2
      obtain ⟨rfl, -⟩ := @Shape.content_inj _ (.list (.inlineComposite size) count) _ _ htyped
      rw [hcanonical, Shape.copied_false] at hcopy
      exact absurd (hcopy ▸ hfull) hroomy.1

/-- A list that fills a segment cannot be read in the copy. -/
theorem CopyOf.roomy (hreads : Reads a id pos v) (hcanonical : machine.canonical = false)
    (h : CopyOf machine a True F a' id pos did dpos) (hreads' : Reads a' did dpos w) : v.Roomy := by
  induction hreads generalizing did dpos w with
  | null | capability => trivial
  | @object id id' pos start _ segment block shape data ptrs hsegment hsome hdenotes hblock hdata _ ih =>
    cases h with
    | null hnull => exact absurd hnull (ReadArena.not_holds_null hsegment hsome)
    | refused hkeeps =>
      obtain ⟨_, _, _, hdenotes', -⟩ := hkeeps.resolve_left (fun h => h trivial)
      exact (hdenotes.not_capability ⟨_, hsegment, rfl⟩ hdenotes').elim
    | capability hdenotes' =>
      exact (hdenotes.not_capability ⟨_, hsegment, rfl⟩ hdenotes').elim
    | object _ _ hdenotes' hblock' hcopy hroom hdsegment hdsome hddenotes hdblock _ hddata hdptrs =>
      obtain ⟨rfl, htyped⟩ := hdenotes.unique hsegment hdenotes'
      obtain ⟨rfl, rfl⟩ := Shape.content_inj htyped.symm
      rw [hcanonical, Shape.copied_false, eq_comm] at hcopy
      subst hcopy
      simp only [Shape.source_self] at hdptrs
      cases hreads' with
      | null hdsegment' hdnull =>
        obtain rfl := Option.mem_unique hdsegment hdsegment'
        exact absurd hdnull hdsome
      | capability _ _ hddenotes' =>
        exact (hddenotes.not_capability ⟨_, hdsegment, rfl⟩ hddenotes').elim
      | object _ _ hddenotes' _ _ hdreads =>
        obtain ⟨rfl, htyped⟩ := hddenotes.unique hdsegment hddenotes'
        obtain ⟨rfl, rfl⟩ := Shape.content_inj htyped.symm
        exact ⟨hroom, fun k => ih k (hdptrs k.1 k.2.1 k.2.2) (hdreads k)⟩
    | full _ _ _ _ _ hdsegment hdsome hrefuses =>
      cases hreads' with
      | null hdsegment' hdnull =>
        obtain rfl := Option.mem_unique hdsegment hdsegment'
        exact absurd hdnull hdsome
      | capability _ _ hddenotes' => exact absurd hddenotes' (hrefuses _ _ _)
      | object _ _ hddenotes' => exact absurd hddenotes' (hrefuses _ _ _)

end Values

end Recapn.Ptr

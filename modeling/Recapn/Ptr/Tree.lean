/-
# Object trees in an arena

What is below a pointer of a message that is built is a tree: the landing pads on the way to the
object, the tag of a list of structs, the block of the object and, for every pointer of the
block, the tree below it.  Here it is said where in the arena the tree lies.  The trees of a
message have no word in common.
-/
import Recapn.Ptr.Clear
import Recapn.Ptr.Value

namespace Recapn.Ptr

open Recapn.Lib

/-! ## From a pointer to its object -/

/-- The landing pad that a far pointer names. -/
def FarPtr.pad (ptr : WirePtr) : SegmentRef := ⟨FarPtr.segment ptr, (FarPtr.offset ptr).get⟩

/-- The pointer that describes the object, where it says that the object is, and the landing pads
on the way there. -/
inductive Hops (a : Arena) (slot : SegmentRef) :
    WirePtr → BuildLocation → List SegmentRef → Prop where
  | near (hkind : WirePtr.kind (a.word slot) ≠ .far) : Hops a slot (a.word slot) (.near slot) []
  | far (hkind : WirePtr.kind (a.word slot) = .far)
      (hsingle : FarPtr.doubleFar (a.word slot) = false) :
      Hops a slot (a.word (FarPtr.pad (a.word slot))) (.far (FarPtr.pad (a.word slot)))
        [FarPtr.pad (a.word slot)]
  | doubleFar (hkind : WirePtr.kind (a.word slot) = .far)
      (hdouble : FarPtr.doubleFar (a.word slot) = true)
      (hpad : WirePtr.kind (a.word (FarPtr.pad (a.word slot))) = .far) :
      Hops a slot (a.word ((FarPtr.pad (a.word slot)).offset 1))
        (.doubleFar (FarPtr.segment (a.word (FarPtr.pad (a.word slot))))
          (FarPtr.offset (a.word (FarPtr.pad (a.word slot)))))
        [FarPtr.pad (a.word slot), (FarPtr.pad (a.word slot)).offset 1]

/-- The object begins there. -/
def BuildLocation.Begins (location : BuildLocation) (offset : SignedSegmentOffset)
    (start : SegmentRef) : Prop :=
  match location with
  | .near origin | .far origin =>
    start.segment = origin.segment ∧ (start.pos : ℤ) = (origin.pos : ℤ) + 1 + offset.get
  | .doubleFar segment place => start = ⟨segment, place.get⟩

/-- The tag of a list of structs is the word in front of its block. -/
def Shape.tag (shape : Shape) (start : SegmentRef) : Set SegmentRef :=
  match shape with
  | .list (.inlineComposite _) _ => {⟨start.segment, start.pos - 1⟩}
  | _ => ∅

/-- The pointer, found at the location, describes an object of this shape with its block at
`start`.  A list of structs has a count in its pointer too: of its words, or of its elements
when the list has a segment of its own. -/
def Shape.DescribedBy (a : Arena) (ptr : WirePtr) (location : BuildLocation) (start : SegmentRef)
    (count : ElementCount) : Shape → Prop
  | .struct size => WirePtr.kind ptr = .struct ∧ StructPtr.size ptr = size ∧
      (size ≠ StructSize.empty → location.Begins (StructPtr.offset ptr) start)
  | .list (.inlineComposite size) n => WirePtr.kind ptr = .list ∧
      ListPtr.elementSize ptr = .inlineComposite ∧ ListPtr.elementCount ptr = count ∧
      (count.get = size.total * n.get ∨ count = n) ∧
      ∃ tag, location.Begins (ListPtr.offset ptr) tag ∧ start = tag.offset 1 ∧
        WirePtr.kind (a.word tag) = .struct ∧ StructPtr.size (a.word tag) = size ∧
        StructPtr.inlineCompositeElementCount (a.word tag) = n
  | .list size n => WirePtr.kind ptr = .list ∧ ListPtr.elementSize ptr ≠ .inlineComposite ∧
      (ListPtr.elementSize ptr).toElementSize = size ∧ ListPtr.elementCount ptr = n ∧
      location.Begins (ListPtr.offset ptr) start

/-! ## Trees -/

/-- What is below a pointer: nothing, a capability, or an object with its shape, the place of its
block, the count that the pointer of a list of structs has, the landing pads and what is below its
pointers. -/
inductive Tree where
  | null
  | capability (index : ℕ)
  | object (shape : Shape) (start : SegmentRef) (count : ElementCount) (pads : List SegmentRef)
      (ptrs : shape.Slot → Tree)

namespace Tree

/-- The words of the tree: landing pads, tags and blocks. -/
def words : Tree → Set SegmentRef
  | null => ∅
  | capability _ => ∅
  | object shape start _ pads ptrs =>
    {r | r ∈ pads} ∪ (shape.tag start ∪ span start shape.words) ∪ {r | ∃ k, r ∈ (ptrs k).words}

/-- The tree lies below the pointer at the slot. -/
def Below (a : Arena) : Tree → SegmentRef → Prop
  | null, slot => slot.pos < a.len slot.segment ∧ a.word slot = Word.null
  | capability index, slot =>
    slot.pos < a.len slot.segment ∧ WirePtr.isCapability (a.word slot) = true ∧
    CapabilityPtr.capabilityIndex (a.word slot) = index
  | object shape start count pads ptrs, slot =>
    slot.pos < a.len slot.segment ∧ a.word slot ≠ Word.null ∧
    (∃ ptr location, Hops a slot ptr location pads ∧
      shape.DescribedBy a ptr location start count) ∧
    (∀ r ∈ pads, r.pos < a.len r.segment) ∧
    (∀ r ∈ shape.tag start, r.pos < a.len r.segment) ∧
    start.segment < a.segments.length ∧ start.pos + shape.words ≤ a.len start.segment ∧
    ∀ k : shape.Slot, (ptrs k).Below a (start.offset k.1)

/-- No two parts of the tree have a word in common, and the pointer is none of them. -/
def Separate : Tree → SegmentRef → Prop
  | null, _ => True
  | capability _, _ => True
  | object shape start count pads ptrs, slot =>
    slot ∉ (object shape start count pads ptrs).words ∧
    (∀ r ∈ pads, r ∉ shape.tag start ∪ span start shape.words) ∧
    (∀ k, Disjoint (ptrs k).words
      ({r | r ∈ pads} ∪ (shape.tag start ∪ span start shape.words))) ∧
    (∀ j k, j ≠ k → Disjoint (ptrs j).words (ptrs k).words) ∧
    ∀ k : shape.Slot, (ptrs k).Separate (start.offset k.1)

/-- The pointer of a tree is in its segment. -/
lemma Below.slot_lt {a : Arena} {tree : Tree} {slot : SegmentRef} (h : tree.Below a slot) :
    slot.pos < a.len slot.segment := by
  cases tree with
  | null | capability | object => exact h.1

/-- A null pointer has nothing below it. -/
lemma Below.words_of_null {a : Arena} {tree : Tree} {slot : SegmentRef} (h : tree.Below a slot)
    (hnull : a.word slot = Word.null) : tree.words = ∅ := by
  cases tree with
  | null | capability => rfl
  | object => exact absurd hnull h.2.1

/-- What is below the word at a position of the block: nothing when it is no pointer. -/
def childAt {shape : Shape} (ptrs : shape.Slot → Tree) (k : ℕ) : Tree :=
  if h : k < shape.words ∧ shape.isPtr k = true then ptrs ⟨k, h⟩ else null

end Tree

/-! ## Trees of arenas that agree -/

/-- The arenas have the same segments, and the same words at these places. -/
structure Agrees (S : Set SegmentRef) (a a' : Arena) : Prop where
  length_eq : a'.segments.length = a.segments.length
  len_eq : a'.len = a.len
  word_eq : ∀ r ∈ S, a'.word r = a.word r

section Agrees

variable {S T : Set SegmentRef} {a a' : Arena} {slot start : SegmentRef} {ptr : WirePtr}
  {location : BuildLocation} {pads : List SegmentRef}

lemma Agrees.mono (h : Agrees S a a') (hsub : T ⊆ S) : Agrees T a a' :=
  ⟨h.length_eq, h.len_eq, fun r hr => h.word_eq r (hsub hr)⟩

lemma Hops.agree (h : Hops a slot ptr location pads) (hslot : a'.word slot = a.word slot)
    (hpads : ∀ r ∈ pads, a'.word r = a.word r) : Hops a' slot ptr location pads := by
  cases h with
  | near hkind =>
    rw [← hslot] at hkind ⊢
    exact .near hkind
  | far hkind hsingle =>
    rw [← hpads _ (List.mem_singleton_self _)]
    rw [← hslot] at hkind hsingle ⊢
    exact .far hkind hsingle
  | doubleFar hkind hdouble hpad =>
    have hfirst := hpads _ List.mem_cons_self
    have hsecond := hpads _ (List.mem_cons_of_mem _ (List.mem_singleton_self _))
    rw [← hfirst] at hpad ⊢
    rw [← hsecond]
    rw [← hslot] at hkind hdouble hpad ⊢
    exact .doubleFar hkind hdouble hpad

lemma Shape.DescribedBy.agree {shape : Shape} {count : ElementCount}
    (h : shape.DescribedBy a ptr location start count)
    (htag : ∀ r ∈ shape.tag start, a'.word r = a.word r) :
    shape.DescribedBy a' ptr location start count := by
  cases shape with
  | struct size => exact h
  | list size n =>
    cases size with
    | inlineComposite size =>
      obtain ⟨hkind, hsize, hcount, hcounts, tag, hbegins, rfl, hword⟩ := h
      have heq : a'.word tag = a.word tag := htag tag rfl
      rw [← heq] at hword
      exact ⟨hkind, hsize, hcount, hcounts, tag, hbegins, rfl, hword⟩
    | _ => exact h

namespace Tree

/-- A tree rests on the pointer and on its own words. -/
lemma Below.agree {tree : Tree} (h : tree.Below a slot)
    (hagree : Agrees (insert slot tree.words) a a') : tree.Below a' slot := by
  induction tree generalizing slot with
  | null | capability index =>
    refine ⟨?_, ?_⟩
    · rw [hagree.len_eq]
      exact h.1
    · rw [hagree.word_eq slot (Set.mem_insert _ _)]
      exact h.2
  | object shape start count pads ptrs ih =>
    obtain ⟨hslot, hsome, ⟨ptr, location, hhops, hdescribed⟩, hpads, htag, hsegment, hblock,
      hptrs⟩ := h
    have hword : a'.word slot = a.word slot := hagree.word_eq slot (Set.mem_insert _ _)
    refine ⟨?_, ?_, ⟨ptr, location, hhops.agree hword ?_, hdescribed.agree ?_⟩, ?_, ?_, ?_, ?_, ?_⟩
    · rw [hagree.len_eq]
      exact hslot
    · rw [hword]
      exact hsome
    · intro r hr
      exact hagree.word_eq r (Or.inr (Or.inl (Or.inl hr)))
    · intro r hr
      exact hagree.word_eq r (Or.inr (Or.inl (Or.inr (Or.inl hr))))
    · rw [hagree.len_eq]
      exact hpads
    · rw [hagree.len_eq]
      exact htag
    · rw [hagree.length_eq]
      exact hsegment
    · rw [hagree.len_eq]
      exact hblock
    · intro k
      refine ih k (hptrs k) (hagree.mono ?_)
      rintro r (rfl | hr)
      · refine Or.inr (Or.inl (Or.inr (Or.inr ⟨rfl, ?_, ?_⟩)))
        · exact Nat.le_add_right _ _
        · exact Nat.add_lt_add_left k.2.1 _
      · exact Or.inr (Or.inr ⟨k, hr⟩)

lemma childAt_of_slot {shape : Shape} (ptrs : shape.Slot → Tree) {k : ℕ}
    (h : k < shape.words ∧ shape.isPtr k = true) : childAt ptrs k = ptrs ⟨k, h⟩ :=
  dif_pos h

lemma mem_words_childAt {shape : Shape} {ptrs : shape.Slot → Tree} {k : ℕ} {r : SegmentRef}
    (h : r ∈ (childAt ptrs k).words) : ∃ k, r ∈ (ptrs k).words := by
  by_cases hk : k < shape.words ∧ shape.isPtr k = true
  · rw [childAt_of_slot ptrs hk] at h
    exact ⟨_, h⟩
  · rw [childAt, dif_neg hk] at h
    exact absurd h (Set.notMem_empty r)

end Tree

end Agrees

end Recapn.Ptr

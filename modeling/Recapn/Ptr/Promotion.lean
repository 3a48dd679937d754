/-
# What a promoted struct keeps

A struct moves to a larger place, and everything that could be read of it can be read there: its
data, and its pointers, which stand for the same capabilities and objects.  What was added is
null, the old place and its landing pads are null, and nothing else in the message changes.
-/
import Recapn.Ptr.Transfer
import Recapn.Ptr.Clearing

namespace Recapn.Ptr

open Recapn.Lib Recapn.Lib.Prog

/-! ## Pointers lead to one place -/

section Hops

variable {a : Arena} {slot : SegmentRef} {ptr ptr' : WirePtr} {location location' : BuildLocation}
  {pads pads' : List SegmentRef}

end Hops

/-! ## Trees in use -/

/-- The object begins at a place in use, or right behind one when it is empty. -/
def Target.InUse (a : Arena) : Target → Prop
  | .object _ _ place => place.pos ≤ a.used place.segment
  | _ => True

/-- All words of the tree and its pointer are in use.  A struct without words has a place too. -/
def Tree.InUse (a : Arena) : Tree → SegmentRef → Prop
  | .null, slot => slot.pos < a.used slot.segment
  | .capability _, slot => slot.pos < a.used slot.segment
  | .object shape start _ pads ptrs, slot =>
    slot.pos < a.used slot.segment ∧ (∀ r ∈ pads, r.pos < a.used r.segment) ∧
    (∀ r ∈ shape.tag start, r.pos < a.used r.segment) ∧
    start.pos + shape.words ≤ a.used start.segment ∧
    (∀ ptr location, Hops a slot ptr location pads → shape = .struct StructSize.empty →
      location.Begins (contentOffset ptr) start) ∧
    ∀ k : shape.Slot, (ptrs k).InUse a (start.offset k.1)

section InUse

variable {a : Arena} {slot : SegmentRef} {D E : Set SegmentRef} {t : Target}

/-- What is described is of this kind and begins there. -/
lemma Shape.DescribedBy.begins {shape : Shape} {ptr : WirePtr} {location : BuildLocation}
    {start : SegmentRef} {count : ElementCount}
    (h : shape.DescribedBy a ptr location start count)
    (hempty : shape = .struct StructSize.empty → location.Begins (contentOffset ptr) start) :
    (WirePtr.kind ptr = .struct ∨ WirePtr.kind ptr = .list) ∧
      ∃ place, location.Begins (contentOffset ptr) place ∧ (place = start ∨ place ∈ shape.tag start) := by
  cases shape with
  | struct size =>
    obtain ⟨hkind, rfl, hbegins⟩ := h
    refine ⟨Or.inl hkind, start, ?_, Or.inl rfl⟩
    by_cases hsize : StructPtr.size ptr = StructSize.empty
    · exact hempty (congrArg Shape.struct hsize)
    · exact hbegins hsize
  | list size n =>
    cases size with
    | inlineComposite size =>
      obtain ⟨hkind, -, -, -, tag, hbegins, rfl, -⟩ := h
      exact ⟨Or.inr hkind, tag, hbegins, Or.inr rfl⟩
    | _ => exact ⟨Or.inr h.1, start, h.2.2.2.2, Or.inl rfl⟩

/-- The pointer of a tree stands for something in use. -/
lemma Tree.Below.resolves {tree : Tree} (h : tree.Below a slot) (hused : tree.InUse a slot)
    (hD : Disjoint tree.words D) : ∃ t : Target, Resolves a D slot t ∧ t.InUse a := by
  cases tree with
  | null => exact ⟨.null, h.2, trivial⟩
  | capability index => exact ⟨.capability index, h.2, trivial⟩
  | object shape start count pads ptrs =>
    obtain ⟨-, hsome, ⟨ptr, location, hhops, hdescribed⟩, -⟩ := h
    obtain ⟨-, hpads, htag, hblock, hempty, -⟩ := hused
    obtain ⟨hkind, place, hbegins, hplace⟩ := hdescribed.begins (hempty ptr location hhops)
    refine ⟨.object (WirePtr.kind ptr) ptr.upper place, ⟨hsome, hkind, ptr, location, pads, hhops,
      rfl, rfl, hbegins, ?_⟩, ?_⟩
    · intro r hr
      exact ⟨hpads r hr, fun hmem => Set.disjoint_left.1 hD (Or.inl (Or.inl hr)) hmem⟩
    · show place.pos ≤ a.used place.segment
      rcases hplace with rfl | hplace
      · exact (Nat.le_add_right _ _).trans hblock
      · exact (htag place hplace).le

/-- Landing pads are not among words that are not in use. -/
lemma Resolves.union (h : Resolves a D slot t) (hE : ∀ r ∈ E, a.used r.segment ≤ r.pos) :
    Resolves a (D ∪ E) slot t := by
  cases t with
  | null | capability => exact h
  | object kind size place =>
    obtain ⟨hsome, hkind, ptr, location, pads, hhops, hptr, hsize, hbegins, hpads⟩ := h
    refine ⟨hsome, hkind, ptr, location, pads, hhops, hptr, hsize, hbegins, ?_⟩
    intro r hr
    refine ⟨(hpads r hr).1, ?_⟩
    rintro (hD | hmem)
    · exact (hpads r hr).2 hD
    · exact absurd (hpads r hr).1 (Nat.not_lt.2 (hE r hmem))

/-- What is in use precedes what is allocated after it. -/
lemma Target.InUse.precedes {dst : SegmentRef} (hwf : a.Wf) (h : t.InUse a)
    (hdst : a.used dst.segment ≤ dst.pos) : t.Precedes dst := by
  cases t with
  | null | capability => trivial
  | object kind size place =>
    refine ⟨lt_of_le_of_lt h (hwf.used_lt _), fun hsegment => ?_⟩
    have hplace : place.pos ≤ a.used place.segment := h
    rw [hsegment] at hplace
    exact hplace.trans hdst

end InUse

/-! ## Objects that are there already -/

section Build

variable {a : Arena} {builder : ObjectBuilder} {slot start : SegmentRef} {ptr : WirePtr}
  {location : BuildLocation} {pads : List SegmentRef}

lemma buildForWriting_of_begins {offset : SignedSegmentOffset} (h : location.Begins offset start)
    (hsegment : start.segment < a.segments.length)
    (hbuilder : ∀ origin, location = .near origin ∨ location = .far origin →
      builder.segment = origin.segment) :
    builder.buildForWriting location offset a = .ok (start, ⟨start.segment⟩) a := by
  have hend : ∀ origin : SegmentRef, builder.segment = origin.segment →
      (start.segment = origin.segment ∧ (start.pos : ℤ) = (origin.pos : ℤ) + 1 + offset.get) →
      builder.buildObjectFromEndOf origin offset a = .ok (start, ⟨start.segment⟩) a := by
    rintro origin hself ⟨heq, hpos⟩
    have hplace : (⟨origin.segment, ((origin.pos : ℤ) + 1 + offset.get).toNat⟩ : SegmentRef) =
        start := by
      refine SegmentRef.ext heq.symm ?_
      show ((origin.pos : ℤ) + 1 + offset.get).toNat = start.pos
      omega
    rw [ObjectBuilder.buildObjectFromEndOf, require_of (by omega), pure_bind_eq, hplace,
      heq, ← hself]
    rfl
  cases location with
  | near origin => exact hend origin (hbuilder origin (Or.inl rfl)) h
  | far origin => exact hend origin (hbuilder origin (Or.inr rfl)) h
  | doubleFar segment place =>
    replace h : start = ⟨segment, place.get⟩ := h
    subst h
    rw [ObjectBuilder.buildForWriting, bind_of_ok (buildObjectIn_of_lt hsegment _)]
    rfl

/-- Where a pointer leads is found by a builder in the segment of the object. -/
lemma locate_for_writing (hself : builder.segment = slot.segment)
    (h : Hops a slot ptr location pads) (hslot : slot.pos < a.len slot.segment)
    (hpads : ∀ r ∈ pads, r.pos < a.len r.segment) {offset : SignedSegmentOffset}
    (hbegins : location.Begins offset start) (hsegment : start.segment < a.segments.length) :
    ∃ builder', builder.locate slot a = .ok (⟨ptr, location⟩, builder') a ∧
      builder'.buildForWriting location offset a = .ok (start, ⟨start.segment⟩) a := by
  obtain ⟨builder', hlocate, hnear, hfar⟩ := @locate_of_hops _ builder _ _ _ _ h hslot hpads
  refine ⟨builder', hlocate, buildForWriting_of_begins hbegins hsegment ?_⟩
  rintro origin (rfl | rfl)
  · obtain rfl : origin = slot := by
      cases h
      rfl
    rw [hnear rfl, hself]
  · exact hfar origin rfl

/-- A struct that is there is found. -/
lemma buildStruct_of_hops (hself : builder.segment = slot.segment)
    (h : Hops a slot ptr location pads) (hslot : slot.pos < a.len slot.segment)
    (hpads : ∀ r ∈ pads, r.pos < a.len r.segment) (hkind : WirePtr.kind ptr = .struct)
    (hbegins : location.Begins (StructPtr.offset ptr) start)
    (hsegment : start.segment < a.segments.length) :
    builder.buildStruct slot a = .ok (⟨start, StructPtr.size ptr⟩, ⟨start.segment⟩) a := by
  obtain ⟨builder', hlocate, hbuild⟩ := locate_for_writing hself h hslot hpads hbegins hsegment
  refine (bind_of_ok hlocate).trans ?_
  refine (if_pos_apply hkind _ _ _).trans ?_
  exact (bind_of_ok hbuild).trans rfl

end Build

/-! ## Promoted structs -/

/-- What a promotion relies on: a struct that is in use, apart from its pointer and the landing
pads, with pointers that stand for the targets without these words. -/
structure StructAt (a : Arena) (slot start : SegmentRef) (size : StructSize)
    (pads : List SegmentRef) (t : ℕ → Target) : Prop where
  slot_lt : slot.pos < a.used slot.segment
  ne_null : a.word slot ≠ Word.null
  leads : ∃ ptr location, Hops a slot ptr location pads ∧ WirePtr.kind ptr = .struct ∧
    StructPtr.size ptr = size ∧ location.Begins (StructPtr.offset ptr) start
  pads_lt : ∀ r ∈ pads, r.pos < a.used r.segment
  segment_lt : start.segment < a.segments.length
  block_le : start.pos + size.total ≤ a.used start.segment
  slot_apart : slot ∉ span start size.total
  slot_ne_pad : slot ∉ pads
  pads_apart : ∀ r ∈ pads, r ∉ span start size.total
  targets : ∀ k < size.ptrs, (t k).InUse a ∧
    Resolves a (insert slot {r | r ∈ pads} ∪ span start size.total)
      (start.offset (size.data + k)) (t k)

/-- A struct was promoted: `slot` pointed to a struct at `start`, over these landing pads, and now
points to a larger one, which the builder is for. -/
structure PromotesStruct (a : Arena) (slot start : SegmentRef) (size : StructSize)
    (pads : List SegmentRef) (newSize : StructSize) (builder : StructBuilder) (a' : Arena) :
    Prop where
  wf : a'.Wf
  builder_eq : builder = ⟨⟨builder.dataStart.segment⟩, builder.dataStart,
    builder.dataStart.offset newSize.data, newSize.data * 8, newSize.ptrs⟩
  denotes : ∃ cost, Denotes a'.toRead slot.segment slot.pos builder.dataStart.segment
    (.struct ⟨builder.dataStart.pos, newSize⟩) cost
  fresh : span builder.dataStart newSize.total ⊆ Arena.fresh a a'
  data : ∀ k < size.data, a'.word (builder.dataStart.offset k) = a.word (start.offset k)
  data_null : ∀ k, size.data ≤ k → k < newSize.data →
    a'.word (builder.dataStart.offset k) = Word.null
  ptrs : ∀ k < size.ptrs, ∃ t, Resolves a ∅ (start.offset (size.data + k)) t ∧
    Resolves a' ∅ (builder.ptrsStart.offset k) t
  ptrs_null : ∀ k, size.ptrs ≤ k → k < newSize.ptrs →
    a'.word (builder.ptrsStart.offset k) = Word.null
  pads_null : ∀ r ∈ pads, a'.word r = Word.null
  old_null : ∀ r ∈ span start size.total, a'.word r = Word.null
  same : ∀ r, r.pos < a.used r.segment → r ≠ slot → r ∉ pads → r ∉ span start size.total →
    a'.word r = a.word r

section Structs

variable {a a₁ a₂ a₃ a' : Arena} {slot start place : SegmentRef} {size newSize : StructSize}
  {count : ElementCount} {pads : List SegmentRef} {t : ℕ → Target}
  {ptrs : (Shape.struct size).Slot → Tree}

/-- The pointers of the object of a tree stand for something apart from it. -/
lemma targets_of_tree {shape : Shape} {ptrs : shape.Slot → Tree}
    (hbelow : (Tree.object shape start count pads ptrs).Below a slot)
    (hseparate : (Tree.object shape start count pads ptrs).Separate slot)
    (hused : (Tree.object shape start count pads ptrs).InUse a slot) :
    ∃ t : ℕ → Target, ∀ k < shape.words, shape.isPtr k = true → (t k).InUse a ∧
      Resolves a (insert slot {r | r ∈ pads} ∪ (shape.tag start ∪ span start shape.words))
        (start.offset k) (t k) := by
  obtain ⟨-, -, -, -, -, -, -, hptrs⟩ := hbelow
  obtain ⟨hslot, -, hapart, -, -⟩ := hseparate
  obtain ⟨-, -, -, -, -, hptrsUsed⟩ := hused
  have htarget : ∀ k, ∃ target : Target, k < shape.words → shape.isPtr k = true →
      target.InUse a ∧ Resolves a
        (insert slot {r | r ∈ pads} ∪ (shape.tag start ∪ span start shape.words))
        (start.offset k) target := by
    intro k
    by_cases hk : k < shape.words ∧ shape.isPtr k = true
    · obtain ⟨target, hresolves, htargetUsed⟩ := (hptrs ⟨k, hk⟩).resolves
        (D := insert slot {r | r ∈ pads} ∪ (shape.tag start ∪ span start shape.words))
        (hptrsUsed ⟨k, hk⟩) (by
          rw [Set.disjoint_left]
          rintro r hr ((rfl | hpad) | hblock)
          · exact hslot (Or.inr ⟨_, hr⟩)
          · exact Set.disjoint_left.1 (hapart _) hr (Or.inl hpad)
          · exact Set.disjoint_left.1 (hapart _) hr (Or.inr hblock))
      exact ⟨target, fun _ _ => ⟨htargetUsed, hresolves⟩⟩
    · exact ⟨.null, fun hlt hptr => absurd ⟨hlt, hptr⟩ hk⟩
  choose t ht using htarget
  exact ⟨t, ht⟩

/-- A struct with its tree is such a one. -/
lemma structAt_of_tree (hbelow : (Tree.object (.struct size) start count pads ptrs).Below a slot)
    (hseparate : (Tree.object (.struct size) start count pads ptrs).Separate slot)
    (hused : (Tree.object (.struct size) start count pads ptrs).InUse a slot) :
    ∃ t, StructAt a slot start size pads t := by
  obtain ⟨t, ht⟩ := targets_of_tree hbelow hseparate hused
  obtain ⟨-, hsome, ⟨ptr, location, hhops, hdescribed⟩, -, -, hsegment, -, -⟩ := hbelow
  obtain ⟨hslot, hpads, -, -, -⟩ := hseparate
  obtain ⟨hslotUsed, hpadsUsed, -, hblock, hempty, -⟩ := hused
  refine ⟨fun k => t (size.data + k), hslotUsed, hsome,
    ⟨ptr, location, hhops, hdescribed.1, hdescribed.2.1, ?_⟩, hpadsUsed, hsegment, hblock, ?_, ?_, ?_, ?_⟩
  · by_cases hsize : size = StructSize.empty
    · exact hempty ptr location hhops (congrArg Shape.struct hsize)
    · exact hdescribed.2.2 hsize
  · exact fun hmem => hslot (Or.inl (Or.inr (Or.inr hmem)))
  · exact fun hmem => hslot (Or.inl (Or.inl hmem))
  · exact fun r hr hmem => hpads r hr (Or.inr hmem)
  · intro k hk
    obtain ⟨hinUse, hresolves⟩ := ht (size.data + k) (Nat.add_lt_add_left hk _)
      (decide_eq_true (Nat.le_add_right _ _))
    refine ⟨hinUse, hresolves.mono ?_⟩
    exact Set.union_subset_union_right _ Set.subset_union_right

/-- Null words in the words of a set change nothing else. -/
lemma Erases.grows {S : Set SegmentRef} (h : Erases S a a₁) (hwf : a₁.Wf) (hused : a₁.used = a.used) :
    Arena.Grows S a a₁ := by
  refine ⟨hwf, fun r hr => ?_, fun r _ hr => h.same r hr⟩
  show r.pos < a₁.used r.segment
  rw [hused]
  exact hr

/-- The block that was laid out is fresh. -/
lemma Lays.fresh_of_used {typed : TypedContent} {len : ℕ} (h : Lays a₁ slot place len typed a₂)
    (hused : a₁.used = a.used) {r : SegmentRef} (hr : r ∈ span place len) :
    a.used r.segment ≤ r.pos ∧ r.pos < a₂.used r.segment := by
  have hmem := Arena.mem_fresh.1 (h.mem_fresh r hr)
  rw [hused] at hmem
  exact hmem

/-- The pointers of a struct lie in it. -/
lemma ptrs_subset_span {m n : ℕ} {size : StructSize} (h : m ≤ size.ptrs) (hn : n = size.total) :
    span (start.offset size.data) m ⊆ span start n := by
  rintro r ⟨hsegment, hle, hlt⟩
  have hle' : start.pos + size.data ≤ r.pos := hle
  have hlt' : r.pos < start.pos + size.data + m := hlt
  have htotal := size.total_eq
  exact ⟨hsegment, by omega, by omega⟩

namespace StructAt

variable (h : StructAt a slot start size pads t)
include h

/-- The words that the struct and its pointers take. -/
lemma old_used : ∀ r ∈ insert slot {r | r ∈ pads} ∪ span start size.total,
    r.pos < a.used r.segment := by
  rintro r ((rfl | hr) | ⟨hsegment, -, hlt⟩)
  · exact h.slot_lt
  · exact h.pads_lt r hr
  · rw [hsegment]
    exact hlt.trans_le h.block_le

/-- The struct moves to a block that was laid out after its pointers were cleared. -/
lemma transfers (hwf : a.Wf) (ha : Erases (insert slot {r | r ∈ pads}) a a₁) (hwf₁ : a₁.Wf)
    (hused : a₁.used = a.used) {typed : TypedContent}
    (hlays : Lays a₁ slot place newSize.total typed a₂) (hdata : size.data ≤ newSize.data)
    (hptrs : size.ptrs ≤ newSize.ptrs) (hpos : 0 < newSize.total) :
    Transfers (promoteStruct start size ⟨start.segment⟩ place (place.offset newSize.data)
        ⟨place.segment⟩)
      (allocPadsFor ⟨start.segment⟩ ⟨place.segment⟩
        (fun k => a.word (start.offset (size.data + k))) size.ptrs)
      (span place size.data ∪ span (place.offset newSize.data) size.ptrs)
      (fun a₃ => (∀ k < size.data, a₃.word (place.offset k) = a.word (start.offset k)) ∧
        ∀ k < size.ptrs, Resolves a₃ (insert slot {r | r ∈ pads} ∪ span start size.total ∪
          span place newSize.total) ((place.offset newSize.data).offset k) (t k)) a₂ := by
  have htotal := size.total_eq
  have htotal' : newSize.total = newSize.data + newSize.ptrs := rfl
  have hgrows₁ := ha.grows hwf₁ hused
  have hfresh : ∀ r ∈ span place newSize.total, a.used r.segment ≤ r.pos ∧
      r.pos < a₂.used r.segment := fun r hr => hlays.fresh_of_used hused hr
  have hold : ∀ r, r.pos < a.used r.segment → r ∉ span place newSize.total := fun r hr hmem =>
    absurd hr (Nat.not_lt.2 (hfresh r hmem).1)
  have hlive : ∀ r : SegmentRef, r.pos < a.used r.segment → r.pos < a₂.used r.segment := by
    intro r hr
    rw [← hused] at hr
    exact hlays.grows.lt_used hr
  have hplace : place ∈ span place newSize.total := ⟨rfl, Nat.le_refl _, by omega⟩
  have hend : place.pos + newSize.total ≤ a₂.used place.segment := by
    have hlast : place.offset (newSize.total - 1) ∈ span place newSize.total :=
      offset_mem_span (Nat.sub_lt hpos Nat.one_pos)
    have hlt : place.pos + (newSize.total - 1) < a₂.used place.segment := (hfresh _ hlast).2
    omega
  have hdataSub : span place size.data ⊆ span place newSize.total := span_mono (by omega)
  have hptrsSub : span (place.offset newSize.data) size.ptrs ⊆ span place newSize.total :=
    ptrs_subset_span hptrs rfl
  have hblock : ∀ r ∈ span start size.total, r ∉ span place newSize.total := fun r hr =>
    hold r (h.old_used r (Or.inr hr))
  have hsource : ∀ k < size.ptrs, Resolves a₂ (insert slot {r | r ∈ pads} ∪ span start size.total ∪
      span place newSize.total) (start.offset (size.data + k)) (t k) ∧
      (t k).Precedes (place.offset newSize.data) := by
    intro k hk
    obtain ⟨hinUse, hresolves⟩ := h.targets k hk
    have hmem : start.offset (size.data + k) ∈ span start size.total := offset_mem_span (by omega)
    have hslotUsed := h.old_used _ (Or.inr hmem)
    refine ⟨?_, hinUse.precedes hwf ?_⟩
    · have hfirst := (hresolves.union fun r hr => (hfresh r hr).1).grows hgrows₁
        (fun r hr => Or.inl (Or.inl hr)) hslotUsed ?_
      · refine hfirst.grows hlays.grows ?_ ?_ ?_
        · rintro r rfl
          exact Or.inl (Or.inl (Or.inl rfl))
        · rw [hused]
          exact hslotUsed
        · rintro rfl
          exact h.slot_apart hmem
      · rintro (heq | hpad)
        · exact h.slot_apart (heq ▸ hmem)
        · exact h.pads_apart _ hpad hmem
    · exact (hfresh place hplace).1.trans (Nat.le_add_right _ _)
  have hmoves : Transfers (promoteStruct start size ⟨start.segment⟩ place
      (place.offset newSize.data) ⟨place.segment⟩) _ _ _ a₂ := promoteStruct_transfers
    (D := insert slot {r | r ∈ pads} ∪ span start size.total ∪ span place newSize.total) t
    hlays.grows.wf rfl rfl
    (by
      have hle := hlays.grows.used_le start.segment
      rw [hused] at hle
      exact h.block_le.trans hle)
    (by omega)
    (by
      show place.pos + newSize.data + size.ptrs ≤ a₂.used place.segment
      omega)
    (by
      rintro r (hr | hr)
      · exact hlive r (h.old_used r hr)
      · exact (hfresh r hr).2)
    (hdataSub.trans Set.subset_union_right) (hptrsSub.trans Set.subset_union_right)
    (fun k hk => hlays.word_eq_null _ (hptrsSub (offset_mem_span hk)))
    (Set.disjoint_left.2 fun r hr hmem => hblock r hr (hdataSub hmem))
    (Set.disjoint_left.2 fun r hr hmem => hblock r hr (hptrsSub hmem))
    (by
      rw [Set.disjoint_left]
      rintro r ⟨-, -, hlt⟩ ⟨-, hle, -⟩
      have hle' : place.pos + newSize.data ≤ r.pos := hle
      omega)
    hsource
  -- the old words are still there
  have hwords : ∀ k < size.total, a₂.word (start.offset k) = a.word (start.offset k) := by
    intro k hk
    have hmem : start.offset k ∈ span start size.total := offset_mem_span hk
    have hslotUsed := h.old_used _ (Or.inr hmem)
    rw [hlays.grows.word_eq (by rw [hused]; exact hslotUsed)]
    · refine ha.same _ ?_
      rintro (heq | hpad)
      · exact h.slot_apart (heq ▸ hmem)
      · exact h.pads_apart _ hpad hmem
    · rintro heq
      exact h.slot_apart (heq ▸ hmem)
  rw [allocPadsFor_congr fun k hk => hwords (size.data + k) (by omega)] at hmoves
  refine hmoves.imp fun a₃ _ hmoved => ⟨fun k hk => ?_, hmoved.2⟩
  rw [hmoved.1 k hk]
  exact hwords k (by omega)

/-- The struct was promoted when its old place is cleared too. -/
lemma promotes (hwf : a.Wf) (ha : Erases (insert slot {r | r ∈ pads}) a a₁) (hwf₁ : a₁.Wf)
    (hused : a₁.used = a.used)
    (hlays : Lays a₁ slot place newSize.total (.struct ⟨place.pos, newSize⟩) a₂)
    (hdata : size.data ≤ newSize.data) (hptrs : size.ptrs ≤ newSize.ptrs) (hpos : 0 < newSize.total)
    (hrun : promoteStruct start size ⟨start.segment⟩ place (place.offset newSize.data)
      ⟨place.segment⟩ a₂ = .ok () a₃) :
    PromotesStruct a slot start size pads newSize
      ⟨⟨place.segment⟩, place, place.offset newSize.data, newSize.data * 8, newSize.ptrs⟩
      (a₃.write start size.total fun _ => Word.null) := by
  have htotal := size.total_eq
  have htotal' : newSize.total = newSize.data + newSize.ptrs := rfl
  obtain ⟨hgrows, hword, hresolves⟩ :=
    (h.transfers hwf ha hwf₁ hused hlays hdata hptrs hpos).of_ok hrun
  have hlive : ∀ r : SegmentRef, r.pos < a.used r.segment → r.pos < a₂.used r.segment := by
    intro r hr
    rw [← hused] at hr
    exact hlays.grows.lt_used hr
  have hfresh : ∀ r ∈ span place newSize.total, a.used r.segment ≤ r.pos ∧
      r.pos < a₂.used r.segment := fun r hr => hlays.fresh_of_used hused hr
  have hdataSub : span place size.data ⊆ span place newSize.total := span_mono (by omega)
  have hptrsSub : span (place.offset newSize.data) size.ptrs ⊆ span place newSize.total :=
    ptrs_subset_span hptrs rfl
  have hsub : span place size.data ∪ span (place.offset newSize.data) size.ptrs ⊆
      span place newSize.total := Set.union_subset hdataSub hptrsSub
  have hle₃ : start.pos + size.total ≤ a₃.used start.segment := by
    have hle := hlays.grows.used_le start.segment
    rw [hused] at hle
    exact h.block_le.trans (hle.trans (hgrows.used_le _))
  have hclear := Arena.grows_write hgrows.wf hle₃ fun _ => Word.null
  have hold : ∀ r, r.pos < a.used r.segment → r ∉ span place newSize.total := fun r hr hmem =>
    absurd hr (Nat.not_lt.2 (hfresh r hmem).1)
  have hnew : ∀ r ∈ span place newSize.total, r ∉ span start size.total := fun r hr hmem =>
    hold r (h.old_used r (Or.inr hmem)) hr
  -- a word of the new block that nothing was moved to
  have hnull : ∀ r ∈ span place newSize.total,
      r ∉ span place size.data ∪ span (place.offset newSize.data) size.ptrs →
      (a₃.write start size.total fun _ => Word.null).word r = Word.null := by
    intro r hr hout
    have hr₂ := (hfresh r hr).2
    rw [hclear.word_eq (hgrows.lt_used hr₂) (hnew r hr), hgrows.word_eq hr₂ hout]
    exact hlays.word_eq_null r hr
  -- a word that was there before, after the pointers were cleared
  have hkeep : ∀ r, r.pos < a.used r.segment → r ≠ slot → r ∉ span start size.total →
      (a₃.write start size.total fun _ => Word.null).word r = a₁.word r := by
    intro r hr hslot hout
    have hr₂ := hlive r hr
    rw [hclear.word_eq (hgrows.lt_used hr₂) hout,
      hgrows.word_eq hr₂ fun hmem => hold r hr (hsub hmem)]
    rw [← hused] at hr
    exact hlays.grows.word_eq hr hslot
  refine ⟨hclear.wf, rfl, ?_, ?_, ?_, ?_, ?_, ?_, ?_, ?_, ?_⟩
  · refine (hlays.denotes.agree (World.agree_trans (hgrows.agree hlays.grows.wf ?_)
      (hclear.agree hgrows.wf ?_))).holds
    · rintro r (rfl | ⟨hr, hout⟩)
      · exact ⟨hlive r h.slot_lt, fun hmem => hold r h.slot_lt (hsub hmem)⟩
      · exact ⟨(Arena.mem_fresh.1 hr).2, fun hmem => hout (hsub hmem)⟩
    · rintro r (rfl | ⟨hr, hout⟩)
      · exact ⟨(hlive r h.slot_lt).trans_le (hgrows.used_le _), h.slot_apart⟩
      · refine ⟨(Arena.mem_fresh.1 hr).2.trans_le (hgrows.used_le _), fun hmem => ?_⟩
        have hle := (Arena.mem_fresh.1 hr).1
        rw [hused] at hle
        exact absurd (h.old_used r (Or.inr hmem)) (Nat.not_lt.2 hle)
  · intro r hr
    rw [Arena.fresh_write]
    exact Arena.mem_fresh.2 ⟨(hfresh r hr).1, (hfresh r hr).2.trans_le (hgrows.used_le _)⟩
  · intro k hk
    have hmem : place.offset k ∈ span place newSize.total := offset_mem_span (by omega)
    show (a₃.write start size.total fun _ => Word.null).word (place.offset k) = _
    rw [hclear.word_eq ((hfresh _ hmem).2.trans_le (hgrows.used_le _)) (hnew _ hmem)]
    exact hword k hk
  · intro k hle hlt
    refine hnull _ (offset_mem_span (by omega)) ?_
    rintro (⟨-, -, hlt'⟩ | ⟨-, hle', -⟩)
    · exact absurd (Nat.lt_of_add_lt_add_left hlt') (Nat.not_lt.2 hle)
    · exact absurd (Nat.le_of_add_le_add_left hle') (Nat.not_le.2 hlt)
  · intro k hk
    obtain ⟨-, hresolvesOld⟩ := h.targets k hk
    have hmem : (place.offset newSize.data).offset k ∈ span place newSize.total :=
      hptrsSub (offset_mem_span hk)
    have hmoved := (hresolves k hk).grows hclear (fun r hr => Or.inl (Or.inr hr))
      ((hfresh _ hmem).2.trans_le (hgrows.used_le _)) (hnew _ hmem)
    exact ⟨t k, hresolvesOld.mono (Set.empty_subset _), hmoved.mono (Set.empty_subset _)⟩
  · intro k hle hlt
    refine hnull _ (ptrs_subset_span (Nat.le_refl _) rfl (offset_mem_span hlt)) ?_
    rintro (⟨-, -, hlt'⟩ | ⟨-, -, hlt'⟩)
    · have hlt'' : place.pos + newSize.data + k < place.pos + size.data := hlt'
      omega
    · exact absurd (Nat.lt_of_add_lt_add_left hlt') (Nat.not_lt.2 hle)
  · intro r hr
    have hslot : r ≠ slot := fun heq => h.slot_ne_pad (heq ▸ hr)
    rw [hkeep r (h.pads_lt r hr) hslot (h.pads_apart r hr)]
    exact ha.null r (Or.inr hr)
  · intro r hr
    have hsegment : start.segment < a₃.segments.length :=
      Arena.lt_length_of_used (lt_of_lt_of_le (Nat.pos_of_ne_zero fun hzero => by
        obtain ⟨-, hle, hlt⟩ := hr
        omega) hle₃)
    exact Arena.word_write_of_mem _ _ _ _ hsegment hr.1 hr.2.1 hr.2.2
  · intro r hr hslot hpad hout
    rw [hkeep r hr hslot hout]
    exact ha.same r fun hmem => hmem.elim hslot hpad

end StructAt

/-! ## The promotion of a struct -/

lemma StructSize.lt_of_not_fitsInside {expected size : StructSize}
    (h : expected.fitsInside size = false) : 0 < (expected.max size).total := by
  have hlarger : ¬(expected.data ≤ size.data ∧ expected.ptrs ≤ size.ptrs) := by
    rintro ⟨hdata, hptrs⟩
    rw [StructSize.fitsInside, decide_eq_true hdata, decide_eq_true hptrs] at h
    cases h
  have hdata : expected.data ≤ (expected.max size).data := Nat.le_max_left _ _
  have hptrs : expected.ptrs ≤ (expected.max size).ptrs := Nat.le_max_left _ _
  show 0 < (expected.max size).data + (expected.max size).ptrs
  omega

/-- A struct that is too small is promoted, step by step. -/
lemma StructAt.toStructMut_eq (h : StructAt a slot start size pads t) (hwf : a.Wf)
    {self : PtrBuilder} (hself : self.builder.segment = self.ptr.segment) (hslot : self.ptr = slot)
    {expected : StructSize} (hlarger : expected.fitsInside size = false) :
    self.toStructMut (some expected) a = (do
      self.builder.clearPtrs self.ptr
      let (newStart, newBuilder) ← self.builder.allocStruct self.ptr (expected.max size)
      promoteStruct start size ⟨start.segment⟩ newStart
        (newStart.offset (expected.max size).data) newBuilder
      ObjectBuilder.clearSection ⟨start.segment⟩ start size.total
      pure (some ⟨newBuilder, newStart, newStart.offset (expected.max size).data,
        (expected.max size).data * 8, (expected.max size).ptrs⟩) : BuildM (Option StructBuilder)) a := by
  subst hslot
  obtain ⟨ptr, location, hhops, hkind, rfl, hbegins⟩ := h.leads
  have hlt : self.ptr.pos < a.len self.ptr.segment := h.slot_lt.trans_le (hwf.used_le_len _)
  have hpads : ∀ r ∈ pads, r.pos < a.len r.segment := fun r hr =>
    (h.pads_lt r hr).trans_le (hwf.used_le_len _)
  have hneeded : ((some expected).filter fun e => !e.fitsInside (StructPtr.size ptr)) =
      some expected := by
    rw [Option.filter_some, hlarger]
    rfl
  refine (bind_of_ok (read_of_lt hlt)).trans ?_
  refine (if_neg_apply (fun hnull => h.ne_null (Word.isNull_iff.1 hnull)) _ _ _).trans ?_
  have hinner : self.toStructMutInner (some expected) a = _ := bind_of_ok
    (buildStruct_of_hops hself hhops hlt hpads hkind hbegins h.segment_lt)
  dsimp only at hinner
  rw [hneeded] at hinner
  refine (bind_of_eq hinner).trans ?_
  simp only [bind_assoc_eq, Option.map_some, pure_bind_eq]

/-- **A struct that is promoted keeps its content.**  Its data is the same, and its pointers stand
for the same; what was added, the old place and the landing pads are null, and no other word that
was in use changes. -/
theorem PtrBuilder.toStructMut_promotes {self : PtrBuilder} {expected : StructSize}
    {builder : StructBuilder} (hwf : a.Wf) (hself : self.builder.segment = self.ptr.segment)
    (hbelow : (Tree.object (.struct size) start count pads ptrs).Below a self.ptr)
    (hseparate : (Tree.object (.struct size) start count pads ptrs).Separate self.ptr)
    (hinUse : (Tree.object (.struct size) start count pads ptrs).InUse a self.ptr)
    (hlarger : expected.fitsInside size = false)
    (hrun : self.toStructMut (some expected) a = .ok (some builder) a') :
    PromotesStruct a self.ptr start size pads (expected.max size) builder a' := by
  obtain ⟨t, hstruct⟩ := structAt_of_tree hbelow hseparate hinUse
  obtain ⟨ptr, location, hhops, -⟩ := hstruct.leads
  replace hrun := (hstruct.toStructMut_eq hwf hself rfl hlarger).symm.trans hrun
  obtain ⟨⟨⟩, a₁, hclear, hrun⟩ := bind_eq_ok.1 hrun
  obtain ⟨a₁', hclear', ha, hkeeps, hused⟩ := @clearPtrs_of_hops a self.builder self.ptr ptr location
    pads hhops (hstruct.slot_lt.trans_le (hwf.used_le_len _))
    fun r hr => (hstruct.pads_lt r hr).trans_le (hwf.used_le_len _)
  cases hclear'.symm.trans hclear
  have hwf₁ := hkeeps hwf
  rcases ObjectBuilder.allocStruct_cases hwf₁ hself (by rw [hused]; exact hstruct.slot_lt)
      (expected.max size) with ⟨place, a₂, halloc, hlays⟩ | ⟨n, a₂, halloc, -⟩
  · replace hrun := (bind_of_ok halloc).symm.trans hrun
    obtain ⟨⟨⟩, a₃, hpromote, hrun⟩ := bind_eq_ok.1 hrun
    have hpromotes := hstruct.promotes hwf ha hwf₁ hused hlays (Nat.le_max_right _ _)
      (Nat.le_max_right _ _) (StructSize.lt_of_not_fitsInside hlarger) hpromote
    by_cases hfits : start.pos + size.total ≤ a₃.len start.segment
    · replace hrun := (bind_of_ok (clearSection_of_le hfits)).symm.trans hrun
      cases hrun
      exact hpromotes
    · have hhalt : ObjectBuilder.clearSection ⟨start.segment⟩ start size.total a₃ =
          .halt .undefined := if_neg hfits
      replace hrun := (bind_of_halt hhalt).symm.trans hrun
      cases hrun
  · replace hrun := (bind_of_error halloc).symm.trans hrun
    cases hrun

end Structs

/-- A root struct with one data word and one pointer, to a struct of one data word behind it. -/
def smallRoot : StructSize := ⟨1, 1, StructSize.one_lt, StructSize.one_lt⟩

def smallRootArena : Arena :=
  wordsArena [StructPtr.new I30.zero smallRoot, ⟨7, 0, 0, 0, 0, 0, 0, 0⟩,
    StructPtr.new I30.zero oneWord, ⟨9, 0, 0, 0, 0, 0, 0, 0⟩] ⟨4, AllocLen.four_pos, U29.four_lt⟩

/-- What is below the root. -/
def smallRootTree : Tree :=
  .object (.struct smallRoot) ⟨0, 1⟩ U29.zero [] fun _ =>
    .object (.struct oneWord) ⟨0, 3⟩ U29.zero [] fun _ => .null

lemma slot_smallRoot (k : (Shape.struct smallRoot).Slot) : k.1 = 1 := by
  obtain ⟨k, hk, hptr⟩ := k
  have hlt : k < 2 := hk
  have hle : 1 ≤ k := of_decide_eq_true hptr
  show k = 1
  omega

lemma not_isPtr_oneWord : ∀ _ : (Shape.struct oneWord).Slot, False := by
  rintro ⟨k, hk, hptr⟩
  have hlt : k < 1 := hk
  have hle : 1 ≤ k := of_decide_eq_true hptr
  omega

/-- The tree is below the root of every message that begins with these words. -/
lemma below_smallRootTree {a : Arena} (hlen : 4 ≤ a.len 0)
    (hroot : a.word ⟨0, 0⟩ = StructPtr.new I30.zero smallRoot)
    (hptr : a.word ⟨0, 2⟩ = StructPtr.new I30.zero oneWord) : smallRootTree.Below a ⟨0, 0⟩ := by
  have hsegment : 0 < a.segments.length :=
    @lt_length_of_len a ⟨0, 0⟩ (show 0 < a.len 0 by omega)
  refine ⟨(by omega : 0 < a.len 0), ?_, ⟨_, _, .near ?_, ?_⟩, fun r hr => (nomatch hr),
    fun r hr => (nomatch hr), hsegment, (by omega : 1 + 2 ≤ a.len 0), fun k => ?_⟩
  · rw [hroot]
    decide
  · rw [hroot]
    decide
  · rw [hroot]
    exact ⟨by decide, by decide, fun _ => ⟨rfl, by decide⟩⟩
  · rw [slot_smallRoot k]
    refine ⟨(by omega : 2 < a.len 0), ?_, ⟨_, _, .near ?_, ?_⟩, fun r hr => (nomatch hr),
      fun r hr => (nomatch hr), hsegment, (by omega : 3 + 1 ≤ a.len 0),
      fun k => (not_isPtr_oneWord k).elim⟩
    · exact ne_of_eq_of_ne hptr (by decide)
    · exact ne_of_eq_of_ne (congrArg WirePtr.kind hptr) (by decide)
    · show (Shape.struct oneWord).DescribedBy _ (a.word ⟨0, 2⟩) _ _ _
      rw [hptr]
      exact ⟨by decide, by decide, fun _ => ⟨rfl, by decide⟩⟩

lemma below_smallRoot : smallRootTree.Below smallRootArena ⟨0, 0⟩ :=
  below_smallRootTree (by decide : 4 ≤ 16) rfl rfl

/-- The struct below the root. -/
def smallLeaf : Tree := .object (.struct oneWord) ⟨0, 3⟩ U29.zero [] fun _ => .null

lemma words_smallLeaf {r : SegmentRef} (h : r ∈ smallLeaf.words) : 3 ≤ r.pos := by
  rcases h with (hr | hr | ⟨-, hge, -⟩) | ⟨k, -⟩
  · cases hr
  · cases hr
  · exact hge
  · exact (not_isPtr_oneWord k).elim

lemma separate_smallRoot : smallRootTree.Separate ⟨0, 0⟩ := by
  refine ⟨?_, fun r hr => (nomatch hr), fun k => ?_, fun j k hjk => ?_, fun k => ?_⟩
  · rintro ((hr | hr | ⟨-, hge, -⟩) | ⟨k, hr⟩)
    · cases hr
    · cases hr
    · exact absurd hge (by decide)
    · exact absurd (words_smallLeaf hr) (by decide)
  · rw [Set.disjoint_left]
    rintro r hr (hr' | hr' | ⟨-, -, hlt⟩)
    · cases hr'
    · cases hr'
    · exact absurd (words_smallLeaf hr) (Nat.not_le.2 hlt)
  · exact absurd (Subtype.ext ((slot_smallRoot j).trans (slot_smallRoot k).symm)) hjk
  · rw [slot_smallRoot k]
    refine ⟨fun hr => ?_, fun r hr => (nomatch hr), fun k => (not_isPtr_oneWord k).elim,
      fun k => (not_isPtr_oneWord k).elim, fun k => (not_isPtr_oneWord k).elim⟩
    exact absurd (words_smallLeaf hr) (by decide)

lemma inUse_smallRootTree {a : Arena} (hused : 4 ≤ a.used 0) : smallRootTree.InUse a ⟨0, 0⟩ := by
  refine ⟨(by omega : 0 < a.used 0), fun r hr => (nomatch hr), fun r hr => (nomatch hr),
    (by omega : 1 + 2 ≤ a.used 0), fun _ _ _ heq => absurd heq (by decide), fun k => ?_⟩
  rw [slot_smallRoot k]
  exact ⟨(by omega : 2 < a.used 0), fun r hr => (nomatch hr), fun r hr => (nomatch hr),
    (by omega : 3 + 1 ≤ a.used 0), fun _ _ _ heq => absurd heq (by decide),
    fun k => (not_isPtr_oneWord k).elim⟩

lemma inUse_smallRoot : smallRootTree.InUse smallRootArena ⟨0, 0⟩ :=
  inUse_smallRootTree (Nat.le_refl 4)

/-- Two data words and two pointers. -/
def largerRoot : StructSize := ⟨2, 2, StructSize.two_lt, StructSize.two_lt⟩

/-- The root is promoted. -/
theorem PtrBuilder.toStructMut_promotes_smallRoot :
    ∃ builder a', PtrBuilder.root.toStructMut (some largerRoot) smallRootArena =
        .ok (some builder) a' ∧
      PromotesStruct smallRootArena ⟨0, 0⟩ ⟨0, 1⟩ smallRoot [] (largerRoot.max smallRoot) builder a' :=
  ⟨_, _, rfl, @PtrBuilder.toStructMut_promotes _ _ _ _ _ _ _ PtrBuilder.root largerRoot _
    (wf_wordsArena (by decide) (by decide)) rfl below_smallRoot separate_smallRoot inUse_smallRoot
    (by decide) rfl⟩

end Recapn.Ptr

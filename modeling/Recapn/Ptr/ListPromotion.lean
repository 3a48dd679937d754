/-
# Lists that are upgraded

A builder of a list of structs may find a list of something else, or of smaller structs.  Then a
list of structs is allocated, and the elements move over one after the other.  Each kind of element
goes to words of its own in the new list, and takes landing pads for its pointers.
-/
import Recapn.Ptr.Elements

namespace Recapn.Ptr

open Recapn.Lib Recapn.Lib.Prog

/-! ## Lists that are there already -/

section Build

variable {a : Arena} {builder : ObjectBuilder} {slot start : SegmentRef} {ptr : WirePtr}
  {location : BuildLocation} {pads : List SegmentRef} {size : ElementSize}
  {count n : ElementCount}

/-- A list that is there is found. -/
lemma buildList_of_hops (hself : builder.segment = slot.segment)
    (h : Hops a slot ptr location pads) (hslot : slot.pos < a.len slot.segment)
    (hpads : ∀ r ∈ pads, r.pos < a.len r.segment)
    (hdescribed : (Shape.list size count).DescribedBy a ptr location start n)
    (htag : ∀ r ∈ (Shape.list size count).tag start, r.pos < a.len r.segment)
    (hsegment : start.segment < a.segments.length) :
    builder.buildList slot a = .ok (⟨start, size, count⟩, ⟨start.segment⟩) a := by
  cases size with
  | inlineComposite s =>
    obtain ⟨hkind, hsize, -, -, tag, hbegins, rfl, htagKind, rfl, rfl⟩ := hdescribed
    obtain ⟨builder', hlocate, hbuild⟩ := @locate_for_writing _ builder _ _ _ _ _ hself h hslot hpads
      (ListPtr.offset ptr) hbegins hsegment
    have hread : (Arena.read tag : BuildM Word) a = .ok (a.word tag) a := by
      refine read_of_lt ?_
      have htagLt := htag ⟨tag.segment, tag.pos + 1 - 1⟩ rfl
      exact htagLt
    refine (bind_of_ok hlocate).trans ((if_pos_apply hkind _ _ _).trans ?_)
    refine (bind_of_ok hbuild).trans ((if_pos_apply hsize _ _ _).trans ?_)
    refine (bind_of_ok hread).trans ?_
    rw [assert_of htagKind, pure_bind_eq]
    rfl
  | _ =>
    obtain ⟨hkind, hsize, helement, rfl, hbegins⟩ := hdescribed
    obtain ⟨builder', hlocate, hbuild⟩ := @locate_for_writing _ builder _ _ _ _ _ hself h hslot hpads
      (ListPtr.offset ptr) hbegins hsegment
    refine (bind_of_ok hlocate).trans ((if_pos_apply hkind _ _ _).trans ?_)
    refine (bind_of_ok hbuild).trans ((if_neg_apply hsize _ _ _).trans ?_)
    rw [helement]
    rfl

end Build

/-! ## New blocks -/

/-- The words of a set may have changed, and there is a new block of null words. -/
structure Prepares (a : Arena) (S : Set SegmentRef) (place : SegmentRef) (len : ℕ) (a' : Arena) :
    Prop where
  grows : Arena.Grows S a a'
  fresh : ∀ r ∈ span place len, r ∈ Arena.fresh a a'
  null : ∀ r ∈ span place len, a'.word r = Word.null

/-! ## Elements in their new places -/

namespace ElementSize

/-- There is room for an element in structs of this size. -/
def FitsIn (newSize : StructSize) : ElementSize → Prop
  | void => True
  | bit => False
  | pointer => 0 < newSize.ptrs
  | inlineComposite size => size.data ≤ newSize.data ∧ size.ptrs ≤ newSize.ptrs
  | _ => 0 < newSize.data

/-- The words of the new list that an element moves to. -/
def movesTo (newSize : StructSize) (place : SegmentRef) (k : ℕ) : ElementSize → Set SegmentRef
  | void | bit => ∅
  | pointer => {place.offset k}
  | inlineComposite size => span (place.offset (newSize.total * k)) size.data ∪
      span (place.offset (newSize.total * k + newSize.data)) size.ptrs
  | _ => {place.offset (newSize.total * k)}

/-- An element is where it moved to. -/
def Moved (newSize : StructSize) (a : Arena) (D : Set SegmentRef) (start place : SegmentRef)
    (t : ℕ → Target) (k : ℕ) (a' : Arena) : ElementSize → Prop
  | void | bit => True
  | pointer => Resolves a' D (place.offset k) (t k)
  | inlineComposite size =>
    (∀ j < size.data, a'.word ((place.offset (newSize.total * k)).offset j) =
      a.word ((start.offset (size.total * k)).offset j)) ∧
    ∀ j < size.ptrs, Resolves a' D ((place.offset (newSize.total * k + newSize.data)).offset j)
      (t (size.total * k + (size.data + j)))
  | size => a'.word (place.offset (newSize.total * k)) = Word.null.setBytes 0
      (CopyMachine.elementBytes (fun j => a.word (start.offset j)) size.bytesAndPtrs.1 k)

/-- The landing pads for the pointers of a list. -/
def allocPads (size : ElementSize) (srcBuilder dstBuilder : ObjectBuilder) (words : ℕ → Word)
    (count : ℕ) : BuildM Unit :=
  match size with
  | pointer => allocPadsFor srcBuilder dstBuilder words count
  | inlineComposite size => Prog.forRange count fun k =>
      allocPadsFor srcBuilder dstBuilder (fun j => words (size.total * k + (size.data + j))) size.ptrs
  | _ => pure ()

variable {size expected : ElementSize} {newSize : StructSize} {place start : SegmentRef}
  {j k n : ℕ}

/-- What a list is upgraded to has room for its elements. -/
lemma fitsIn_of_upgradeTo (h : size.upgradeTo expected = some (inlineComposite newSize))
    (hother : inlineComposite newSize ≠ size) : size.FitsIn newSize := by
  rcases ite_eq_iff.1 h with ⟨rfl, heq⟩ | ⟨-, hupgrade⟩
  · exact absurd (Option.some.inj heq).symm hother
  · cases size with
    | void => trivial
    | bit => cases hupgrade
    | inlineComposite size =>
      cases expected with
      | inlineComposite min =>
        cases hupgrade
        exact ⟨Nat.le_max_left _ _, Nat.le_max_left _ _⟩
      | bit => cases hupgrade
      | void =>
        cases hupgrade
        exact absurd rfl hother
      | _ =>
        obtain ⟨-, heq⟩ := Option.ite_none_left_eq_some.1 hupgrade
        cases heq
        exact absurd rfl hother
    | _ =>
      cases expected with
      | inlineComposite min =>
        obtain ⟨hsome, heq⟩ := Option.ite_none_left_eq_some.1 hupgrade
        cases heq
        exact Nat.pos_of_ne_zero hsome
      | _ => cases hupgrade

/-- Elements move into the structs that they become, and pointers to words one after the other. -/
lemma movesTo_subset (hfits : size.FitsIn newSize) (hsize : size ≠ pointer) :
    size.movesTo newSize place k ⊆ span (place.offset (newSize.total * k)) newSize.total := by
  have htotal := newSize.total_eq
  cases size with
  | void | bit => exact Set.empty_subset _
  | pointer => exact absurd rfl hsize
  | inlineComposite size =>
    obtain ⟨hdata, hptrs⟩ := hfits
    refine Set.union_subset (span_mono (by omega)) ?_
    rw [← offset_offset]
    exact ptrs_subset_span hptrs rfl
  | _ =>
    have hpos : 0 < newSize.data := hfits
    exact Set.singleton_subset_iff.2 (offset_mem_span (by omega) : (place.offset _).offset 0 ∈ _)

/-- They are words of the new list. -/
lemma movesTo_subset_list (hfits : size.FitsIn newSize) (hk : k < n) :
    size.movesTo newSize place k ⊆ span place (newSize.total * n) := by
  by_cases hsize : size = pointer
  · subst hsize
    have hpos : 0 < newSize.ptrs := hfits
    have htotal := newSize.total_eq
    refine Set.singleton_subset_iff.2 (offset_mem_span ?_)
    calc k < n := hk
      _ = 1 * n := (Nat.one_mul n).symm
      _ ≤ newSize.total * n := Nat.mul_le_mul_right _ (by omega)
  · refine (movesTo_subset hfits hsize).trans ?_
    have hlast : newSize.total * k + newSize.total ≤ newSize.total * n :=
      Nat.mul_le_mul_left newSize.total hk
    rintro r ⟨hsegment, hle, hlt⟩
    have hle' : place.pos + newSize.total * k ≤ r.pos := hle
    have hlt' : r.pos < place.pos + newSize.total * k + newSize.total := hlt
    exact ⟨hsegment, by omega, by omega⟩

/-- No two elements move to one word. -/
lemma disjoint_movesTo (hfits : size.FitsIn newSize) (hjk : j < k) :
    Disjoint (size.movesTo newSize place j) (size.movesTo newSize place k) := by
  by_cases hsize : size = pointer
  · subst hsize
    exact Set.disjoint_singleton.2 fun heq => absurd (offset_inj heq) (Nat.ne_of_lt hjk)
  · refine Disjoint.mono (movesTo_subset hfits hsize) (movesTo_subset hfits hsize) ?_
    have hnext : newSize.total * j + newSize.total ≤ newSize.total * k :=
      Nat.mul_le_mul_left newSize.total hjk
    rw [Set.disjoint_left]
    rintro r ⟨-, -, hlt⟩ ⟨-, hle, -⟩
    have hlt' : r.pos < place.pos + newSize.total * j + newSize.total := hlt
    have hle' : place.pos + newSize.total * k ≤ r.pos := hle
    omega

/-- An element stays where it moved to while its words and landing pads do not change. -/
lemma Moved.grows {a a₁ a₂ : Arena} {D F : Set SegmentRef} {t : ℕ → Target}
    (h : size.Moved newSize a D start place t k a₁) (hgrows : Arena.Grows F a₁ a₂) (hF : F ⊆ D)
    (hlive : ∀ r ∈ size.movesTo newSize place k, r.pos < a₁.used r.segment)
    (hapart : Disjoint F (size.movesTo newSize place k)) :
    size.Moved newSize a D start place t k a₂ := by
  have hout : ∀ r ∈ size.movesTo newSize place k, r ∉ F := fun r hr hmem =>
    Set.disjoint_left.1 hapart hmem hr
  cases size with
  | void | bit => trivial
  | pointer => exact Resolves.grows h hgrows hF (hlive _ rfl) (hout _ rfl)
  | inlineComposite size =>
    obtain ⟨hdata, hptrs⟩ := h
    refine ⟨fun i hi => ?_, fun i hi => ?_⟩
    · have hmem : (place.offset (newSize.total * k)).offset i ∈
          (inlineComposite size).movesTo newSize place k := Or.inl (offset_mem_span hi)
      exact (hgrows.word_eq (hlive _ hmem) (hout _ hmem)).trans (hdata i hi)
    · have hmem : (place.offset (newSize.total * k + newSize.data)).offset i ∈
          (inlineComposite size).movesTo newSize place k := Or.inr (offset_mem_span hi)
      exact (hptrs i hi).grows hgrows hF (hlive _ hmem) (hout _ hmem)
  | _ => exact (hgrows.word_eq (hlive _ rfl) (hout _ rfl)).trans h

end ElementSize

/-! ## Upgraded lists -/

/-- What an upgrade relies on: a list that is in use, apart from its pointer and the landing pads,
with pointers that stand for the targets without these words. -/
structure ListAt (a : Arena) (slot start : SegmentRef) (size : ElementSize) (count : ElementCount)
    (pads : List SegmentRef) (t : ℕ → Target) : Prop where
  slot_lt : slot.pos < a.used slot.segment
  ne_null : a.word slot ≠ Word.null
  leads : ∃ ptr location n, Hops a slot ptr location pads ∧
    (Shape.list size count).DescribedBy a ptr location start n
  pads_lt : ∀ r ∈ pads, r.pos < a.used r.segment
  tag_lt : ∀ r ∈ (Shape.list size count).tag start, r.pos < a.used r.segment
  segment_lt : start.segment < a.segments.length
  block_le : start.pos + (Shape.list size count).words ≤ a.used start.segment
  slot_ne_pad : slot ∉ pads
  slot_apart : slot ∉ (Shape.list size count).tag start ∪ span start (Shape.list size count).words
  pads_apart : ∀ r ∈ pads,
    r ∉ (Shape.list size count).tag start ∪ span start (Shape.list size count).words
  targets : ∀ k < (Shape.list size count).words, (Shape.list size count).isPtr k = true →
    (t k).InUse a ∧ Resolves a (insert slot {r | r ∈ pads} ∪
      ((Shape.list size count).tag start ∪ span start (Shape.list size count).words))
      (start.offset k) (t k)

section Lists

variable {a a₁ a₂ a₃ a' : Arena} {slot start place : SegmentRef} {size : ElementSize}
  {newSize : StructSize} {count n : ElementCount} {pads : List SegmentRef} {t : ℕ → Target}

/-- A list with its tree is such a one. -/
lemma listAt_of_tree {ptrs : (Shape.list size count).Slot → Tree}
    (hbelow : (Tree.object (.list size count) start n pads ptrs).Below a slot)
    (hseparate : (Tree.object (.list size count) start n pads ptrs).Separate slot)
    (hused : (Tree.object (.list size count) start n pads ptrs).InUse a slot) :
    ∃ t, ListAt a slot start size count pads t := by
  obtain ⟨t, ht⟩ := targets_of_tree hbelow hseparate hused
  obtain ⟨-, hsome, ⟨ptr, location, hhops, hdescribed⟩, -, -, hsegment, -, -⟩ := hbelow
  obtain ⟨hslot, hpads, -, -, -⟩ := hseparate
  obtain ⟨hslotUsed, hpadsUsed, htagUsed, hblock, -, -⟩ := hused
  exact ⟨t, hslotUsed, hsome, ⟨ptr, location, n, hhops, hdescribed⟩, hpadsUsed, htagUsed, hsegment,
    hblock, fun hmem => hslot (Or.inl (Or.inl hmem)), fun hmem => hslot (Or.inl (Or.inr hmem)),
    hpads, ht⟩

/-- A number is written to the start of a null word. -/
lemma setNumber_transfers (hwf : a₃.Wf) {dst : SegmentRef} (hdst : dst.pos < a₃.used dst.segment)
    (hnull : a₃.word dst = Word.null) (bytes : List Byte) :
    Transfers (do
        let word ← Arena.read dst
        Arena.writeSection dst 1 fun _ => Word.setBytes word 0 bytes) (pure ()) {dst}
      (fun a' => a'.word dst = Word.null.setBytes 0 bytes) a₃ := by
  have hread : (Arena.read dst : BuildM Word) a₃ = .ok (a₃.word dst) a₃ :=
    read_of_lt (hdst.trans_le (hwf.used_le_len _))
  have hwrite : (Arena.writeSection dst 1 fun _ => Word.setBytes (a₃.word dst) 0 bytes : BuildM Unit) a₃ =
      .ok () (a₃.write dst 1 fun _ => Word.setBytes (a₃.word dst) 0 bytes) :=
    if_pos (Nat.succ_le_of_lt (hdst.trans_le (hwf.used_le_len _)))
  refine .of_write ((bind_of_ok hread).trans hwrite) (.write _ _ _ _)
    (Arena.grows_set hwf hdst _) ?_
  rw [Arena.word_set hdst, if_pos rfl, hnull]

/-- The elements of a list move one after the other. -/
lemma elements_transfers (hfits : size.FitsIn newSize)
    {S D : Set SegmentRef}
    (hprepares : Prepares a S place (newSize.total * count.get) a₂)
    (hD : span place (newSize.total * count.get) ⊆ D)
    {x xPads : ℕ → BuildM Unit} (hpads : ∀ k, Prog.Respects Arena.SameRoom (xPads k))
    (hstep : ∀ k < count.get, ∀ F a₃, Arena.Grows F a₂ a₃ →
      F ⊆ span place (newSize.total * count.get) → Disjoint F (size.movesTo newSize place k) →
      Transfers (x k) (xPads k) (size.movesTo newSize place k)
        (fun a' => size.Moved newSize a D start place t k a') a₃) :
    Transfers (Prog.forRange count.get x) (Prog.forRange count.get xPads)
      {r | ∃ k < count.get, r ∈ size.movesTo newSize place k}
      (fun a' => ∀ k < count.get, size.Moved newSize a D start place t k a') a₂ := by
  have hsub : ∀ k < count.get, size.movesTo newSize place k ⊆ span place (newSize.total * count.get) :=
    fun k hk => ElementSize.movesTo_subset_list hfits hk
  refine .forRange hprepares.grows.wf hpads (fun k hk a₃ hgrows => ?_) ?_
  · refine hstep k hk _ a₃ hgrows ?_ ?_
    · rintro r ⟨j, hjk, hr⟩
      exact hsub j (hjk.trans hk) hr
    · rw [Set.disjoint_left]
      rintro r ⟨j, hjk, hr⟩ hmem
      exact Set.disjoint_left.1 (ElementSize.disjoint_movesTo hfits hjk) hr hmem
  · intro k hk j hjk a₁ a₃ hgrows hmoved hgrows'
    refine hmoved.grows hgrows' ((hsub k hk).trans hD) (fun r hr => ?_)
      (ElementSize.disjoint_movesTo hfits hjk).symm
    exact (Arena.mem_fresh.1 (hprepares.fresh r (hsub j (hjk.trans hk) hr))).2.trans_le
      (hgrows.used_le _)

namespace ListAt

variable (h : ListAt a slot start size count pads t)
include h

/-- A list that has to be upgraded is upgraded step by step. -/
lemma toListMut_eq (hwf : a.Wf) {self : PtrBuilder}
    (hself : self.builder.segment = self.ptr.segment) (hslot : self.ptr = slot)
    {expected : ElementSize} (hupgrade : size.upgradeTo expected = some (.inlineComposite newSize))
    (hother : ElementSize.inlineComposite newSize ≠ size) :
    self.toListMut (some expected) a = (do
      self.builder.clearPtrs self.ptr
      let (newListPtr, _, newBuilder) ← self.builder.allocList self.ptr (.inlineComposite newSize) count
      promoteList start size ⟨start.segment⟩ newListPtr newSize newBuilder count
      ObjectBuilder.clearListSection ⟨start.segment⟩ start size count
      pure (some ⟨newBuilder, newListPtr, .inlineComposite newSize, count⟩) :
        BuildM (Option ListBuilder)) a := by
  subst hslot
  obtain ⟨ptr, location, n, hhops, hdescribed⟩ := h.leads
  have hle := hwf.used_le_len
  have hlt : self.ptr.pos < a.len self.ptr.segment := h.slot_lt.trans_le (hle _)
  have hbuild := buildList_of_hops hself hhops hlt (fun r hr => (h.pads_lt r hr).trans_le (hle _))
    hdescribed (fun r hr => (h.tag_lt r hr).trans_le (hle _)) h.segment_lt
  have hsize : PtrBuilder.upgradeSize size (some expected) = pure (some newSize) := by
    rw [PtrBuilder.upgradeSize, hupgrade]
    exact if_neg hother
  refine (bind_of_ok (read_of_lt hlt)).trans ?_
  refine (if_neg_apply (fun hnull => h.ne_null (Word.isNull_iff.1 hnull)) _ _ _).trans ?_
  have hinner : self.toListMutInner (some expected) a = _ := bind_of_ok hbuild
  dsimp only at hinner
  rw [hsize, pure_bind_eq] at hinner
  refine (bind_of_eq hinner).trans ?_
  simp only [bind_assoc_eq, pure_bind_eq]

/-- The words that the list and its pointers take. -/
lemma old_used : ∀ r ∈ insert slot {r | r ∈ pads} ∪ ((Shape.list size count).tag start ∪
    span start (Shape.list size count).words), r.pos < a.used r.segment := by
  rintro r ((rfl | hr) | hr | ⟨hsegment, -, hlt⟩)
  · exact h.slot_lt
  · exact h.pads_lt r hr
  · exact h.tag_lt r hr
  · rw [hsegment]
    exact hlt.trans_le h.block_le

variable {len : ℕ}

/-- The words of the list are still there when a new block was laid out and some of it written. -/
lemma kept (hprepares : Prepares a (insert slot {r | r ∈ pads}) place len a₂) {F : Set SegmentRef}
    (hgrows : Arena.Grows F a₂ a₃) (hF : F ⊆ span place len) {m : ℕ}
    (hm : m < (Shape.list size count).words) :
    (start.offset m).pos < a₃.used (start.offset m).segment ∧
      a₃.word (start.offset m) = a.word (start.offset m) ∧
      ((Shape.list size count).isPtr m = true → Resolves a₃ (insert slot {r | r ∈ pads} ∪
        ((Shape.list size count).tag start ∪ span start (Shape.list size count).words) ∪
        span place len) (start.offset m) (t m)) := by
  have hmem : start.offset m ∈ span start (Shape.list size count).words := offset_mem_span hm
  have hused := h.old_used _ (Or.inr (Or.inr hmem))
  have hused₂ := hprepares.grows.lt_used hused
  have hout : start.offset m ∉ insert slot {r | r ∈ pads} := by
    rintro (heq | hpad)
    · exact h.slot_apart (Or.inr (heq ▸ hmem))
    · exact h.pads_apart _ hpad (Or.inr hmem)
  have hnew : start.offset m ∉ F := fun hr =>
    absurd hused (Nat.not_lt.2 (Arena.mem_fresh.1 (hprepares.fresh _ (hF hr))).1)
  refine ⟨hgrows.lt_used hused₂, ?_, fun hptr => ?_⟩
  · rw [hgrows.word_eq hused₂ hnew, hprepares.grows.word_eq hused hout]
  · have hresolves := (h.targets m hm hptr).2.union fun r hr =>
      (Arena.mem_fresh.1 (hprepares.fresh r hr)).1
    have hresolves₂ := hresolves.grows hprepares.grows (fun r hr => Or.inl (Or.inl hr)) hused hout
    exact hresolves₂.grows hgrows (fun r hr => Or.inr (hF hr)) hused₂ hnew

/-- The words of the new list are in use. -/
lemma new_used (hprepares : Prepares a (insert slot {r | r ∈ pads}) place len a₂) :
    ∀ r ∈ insert slot {r | r ∈ pads} ∪ ((Shape.list size count).tag start ∪
      span start (Shape.list size count).words) ∪ span place len, r.pos < a₂.used r.segment := by
  rintro r (hr | hr)
  · exact (h.old_used r hr).trans_le (hprepares.grows.used_le _)
  · exact (Arena.mem_fresh.1 (hprepares.fresh r hr)).2

/-- What a pointer of the list stands for is in front of the new list. -/
lemma precedes (hwf : a.Wf) (hprepares : Prepares a (insert slot {r | r ∈ pads}) place len a₂)
    {dst : SegmentRef} (hdst : dst ∈ span place len) {m : ℕ}
    (hm : m < (Shape.list size count).words) (hptr : (Shape.list size count).isPtr m = true) :
    (t m).Precedes dst :=
  (h.targets m hm hptr).1.precedes hwf (Arena.mem_fresh.1 (hprepares.fresh dst hdst)).1

/-- One pointer of a list moves. -/
lemma transfers_pointer (hwf : a.Wf) (hsize : size = .pointer)
    (hprepares : Prepares a (insert slot {r | r ∈ pads}) place len a₂) {F : Set SegmentRef}
    (hgrows : Arena.Grows F a₂ a₃) (hF : F ⊆ span place len) {dst : SegmentRef}
    (hdst : dst ∈ span place len) (hout : dst ∉ F) {k : ℕ} (hk : k < count.get) :
    Transfers (transferPtr (start.offset k) ⟨start.segment⟩ dst ⟨dst.segment⟩)
      (if WirePtr.isNear (a.word (start.offset k)) then
        allocLandingPads ⟨start.segment⟩ ⟨dst.segment⟩ else pure ())
      {dst} (fun a' => Resolves a' (insert slot {r | r ∈ pads} ∪ ((Shape.list size count).tag start ∪
        span start (Shape.list size count).words) ∪ span place len) dst (t k)) a₃ := by
  subst hsize
  have hm : k < (Shape.list .pointer count).words := by
    show k < (64 * count.get + 63) / 64
    omega
  obtain ⟨hlive, hword, hresolves⟩ := h.kept hprepares hgrows hF hm
  have hdstUsed := (Arena.mem_fresh.1 (hprepares.fresh dst hdst)).2
  rw [← hword]
  refine transferPtr_transfers hgrows.wf rfl rfl hlive (hgrows.lt_used hdstUsed) ?_
    (Or.inr hdst) ?_ (hresolves rfl) (h.precedes hwf hprepares hdst hm rfl)
  · intro r hr
    exact (h.new_used hprepares r hr).trans_le (hgrows.used_le _)
  · rw [hgrows.word_eq hdstUsed hout]
    exact hprepares.null dst hdst

/-- One struct of a list moves. -/
lemma transfers_struct (hwf : a.Wf) {structSize : StructSize} (hsize : size = .inlineComposite structSize)
    (hfits : size.FitsIn newSize) (hpos : 0 < newSize.total)
    (hprepares : Prepares a (insert slot {r | r ∈ pads}) place (newSize.total * count.get) a₂)
    {F : Set SegmentRef} (hgrows : Arena.Grows F a₂ a₃) (hF : F ⊆ span place (newSize.total * count.get))
    {k : ℕ} (hk : k < count.get) (hout : Disjoint F (size.movesTo newSize place k)) :
    Transfers (promoteStruct (start.offset (structSize.total * k)) structSize ⟨start.segment⟩
        (place.offset (newSize.total * k)) (place.offset (newSize.total * k + newSize.data))
        ⟨place.segment⟩)
      (allocPadsFor ⟨start.segment⟩ ⟨place.segment⟩
        (fun j => a.word (start.offset (structSize.total * k + (structSize.data + j)))) structSize.ptrs)
      (size.movesTo newSize place k)
      (fun a' => size.Moved newSize a (insert slot {r | r ∈ pads} ∪
        ((Shape.list size count).tag start ∪ span start (Shape.list size count).words) ∪
        span place (newSize.total * count.get)) start place t k a') a₃ := by
  have hsub := @ElementSize.movesTo_subset_list size newSize place k count.get hfits hk
  subst hsize
  have htotal := structSize.total_eq
  have hwords : (Shape.list (.inlineComposite structSize) count).words =
      structSize.total * count.get := by
    show (structSize.total * 64 * count.get + 63) / 64 = _
    rw [Nat.mul_right_comm]
    omega
  have hnext : structSize.total * k + structSize.total ≤ structSize.total * count.get :=
    Nat.mul_le_mul_left structSize.total hk
  have hkept := fun j (hj : j < structSize.total) => h.kept hprepares hgrows hF
    (show structSize.total * k + j < (Shape.list (.inlineComposite structSize) count).words by omega)
  have hnewUsed : ∀ r ∈ span place (newSize.total * count.get), r.pos < a₃.used r.segment :=
    fun r hr => (Arena.mem_fresh.1 (hprepares.fresh r hr)).2.trans_le (hgrows.used_le _)
  have hblock : ∀ r ∈ span (start.offset (structSize.total * k)) structSize.total,
      r ∉ span place (newSize.total * count.get) := by
    rintro r ⟨hsegment, hle, hlt⟩ hmem
    have hle' : start.pos + structSize.total * k ≤ r.pos := hle
    have hlt' : r.pos < start.pos + structSize.total * k + structSize.total := hlt
    have hused := h.old_used r (Or.inr (Or.inr ⟨hsegment, by omega, by omega⟩))
    exact absurd hused (Nat.not_lt.2 (Arena.mem_fresh.1 (hprepares.fresh r hmem)).1)
  have hptr : ∀ j < structSize.ptrs, (Shape.list (.inlineComposite structSize) count).isPtr
      (structSize.total * k + (structSize.data + j)) = true := by
    intro j hj
    show decide (structSize.data ≤ (structSize.total * k + (structSize.data + j)) % structSize.total) = true
    rw [Nat.mul_add_mod, Nat.mod_eq_of_lt (by omega)]
    exact decide_eq_true (Nat.le_add_right _ _)
  have hsource : ∀ j < structSize.ptrs, Resolves a₃ (insert slot {r | r ∈ pads} ∪
      ((Shape.list (.inlineComposite structSize) count).tag start ∪
        span start (Shape.list (.inlineComposite structSize) count).words) ∪
        span place (newSize.total * count.get))
      ((start.offset (structSize.total * k)).offset (structSize.data + j))
      (t (structSize.total * k + (structSize.data + j))) ∧
      (t (structSize.total * k + (structSize.data + j))).Precedes
        (place.offset (newSize.total * k + newSize.data)) := by
    intro j hj
    rw [offset_offset]
    refine ⟨(hkept (structSize.data + j) (by omega)).2.2 (hptr j hj), ?_⟩
    refine h.precedes hwf hprepares (hsub (Or.inr ?_)) (by omega) (hptr j hj)
    exact (offset_mem_span (Nat.zero_lt_of_lt hj) : (place.offset _).offset 0 ∈ _)
  have hnull : ∀ r ∈ (ElementSize.inlineComposite structSize).movesTo newSize place k,
      a₃.word r = Word.null := by
    intro r hr
    rw [hgrows.word_eq (Arena.mem_fresh.1 (hprepares.fresh r (hsub hr))).2 fun hmem =>
      Set.disjoint_left.1 hout hmem hr]
    exact hprepares.null r (hsub hr)
  have hsrc : (start.offset (structSize.total * k)).pos + structSize.total ≤
      a₃.used (start.offset (structSize.total * k)).segment := by
    have hle := h.block_le
    have hle₂ := hprepares.grows.used_le start.segment
    have hle₃ := hgrows.used_le start.segment
    show start.pos + structSize.total * k + structSize.total ≤ a₃.used start.segment
    omega
  have hend : place.pos + newSize.total * k + newSize.total ≤ a₃.used place.segment := by
    have hnext' : newSize.total * k + newSize.total ≤ newSize.total * count.get :=
      Nat.mul_le_mul_left newSize.total hk
    have hlast : place.pos + (newSize.total * k + (newSize.total - 1)) < a₃.used place.segment :=
      hnewUsed _ (offset_mem_span (by omega))
    omega
  have htotal' : newSize.total = newSize.data + newSize.ptrs := rfl
  obtain ⟨hdata, hptrs⟩ := hfits
  have hdst : (place.offset (newSize.total * k)).pos + structSize.data ≤
      a₃.used (place.offset (newSize.total * k)).segment := by
    show place.pos + newSize.total * k + structSize.data ≤ a₃.used place.segment
    omega
  have hdstPtrs : (place.offset (newSize.total * k + newSize.data)).pos + structSize.ptrs ≤
      a₃.used (place.offset (newSize.total * k + newSize.data)).segment := by
    show place.pos + (newSize.total * k + newSize.data) + structSize.ptrs ≤ a₃.used place.segment
    omega
  have hmoves : Transfers (promoteStruct (start.offset (structSize.total * k)) structSize
      ⟨start.segment⟩ (place.offset (newSize.total * k))
      (place.offset (newSize.total * k + newSize.data)) ⟨place.segment⟩) _ _ _ a₃ :=
    promoteStruct_transfers (D := insert slot {r | r ∈ pads} ∪
      ((Shape.list (.inlineComposite structSize) count).tag start ∪
        span start (Shape.list (.inlineComposite structSize) count).words) ∪
        span place (newSize.total * count.get))
      (fun j => t (structSize.total * k + (structSize.data + j))) hgrows.wf rfl rfl
      hsrc hdst hdstPtrs
      (fun r hr => (h.new_used hprepares r hr).trans_le (hgrows.used_le _))
      ((Set.subset_union_left.trans hsub).trans Set.subset_union_right)
      ((Set.subset_union_right.trans hsub).trans Set.subset_union_right)
      (fun j hj => hnull _ (Or.inr (offset_mem_span hj)))
      (Set.disjoint_left.2 fun r hr hmem => hblock r hr (hsub (Or.inl hmem)))
      (Set.disjoint_left.2 fun r hr hmem => hblock r hr (hsub (Or.inr hmem)))
      (by
        rw [Set.disjoint_left]
        rintro r ⟨-, -, hlt⟩ ⟨-, hle, -⟩
        have hlt' : r.pos < place.pos + newSize.total * k + structSize.data := hlt
        have hle' : place.pos + (newSize.total * k + newSize.data) ≤ r.pos := hle
        omega)
      hsource
  have hwordsPtr : ∀ j < structSize.ptrs, a₃.word ((start.offset (structSize.total * k)).offset
      (structSize.data + j)) = a.word (start.offset (structSize.total * k + (structSize.data + j))) := by
    intro j hj
    rw [offset_offset]
    exact (hkept (structSize.data + j) (by omega)).2.1
  rw [allocPadsFor_congr hwordsPtr] at hmoves
  refine hmoves.imp fun a₄ _ hmoved => ⟨fun j hj => ?_, hmoved.2⟩
  rw [hmoved.1 j hj, offset_offset]
  exact (hkept j (by omega)).2.1

/-- The numbers of a list move. -/
lemma transfers_numbers {bytes : ℕ} (hbytes : 0 < bytes) (hbits : size.bits = 8 * bytes)
    (hdvd : bytes ∣ 8) (hfits : size.FitsIn newSize)
    (hto : ∀ k, size.movesTo newSize place k = {place.offset (newSize.total * k)})
    (hmoved : ∀ D k a', a'.word (place.offset (newSize.total * k)) = Word.null.setBytes 0
      (CopyMachine.elementBytes (fun j => a.word (start.offset j)) bytes k) →
      size.Moved newSize a D start place t k a')
    (hprepares : Prepares a (insert slot {r | r ∈ pads}) place (newSize.total * count.get) a₂) :
    Transfers (promoteData bytes start size ⟨start.segment⟩ place newSize count) (pure ())
      {r | ∃ k < count.get, r ∈ size.movesTo newSize place k}
      (fun a' => ∀ k < count.get, size.Moved newSize a (insert slot {r | r ∈ pads} ∪
        ((Shape.list size count).tag start ∪ span start (Shape.list size count).words) ∪
        span place (newSize.total * count.get)) start place t k a') a₂ := by
  have hle : bytes ≤ 8 := Nat.le_of_dvd (by decide) hdvd
  have hwords : (Shape.list size count).words = (8 * bytes * count.get + 63) / 64 := by
    rw [← hbits]
    rfl
  have hlt := count.get_lt
  have hmul : 8 * bytes * count.get ≤ 64 * count.get := Nat.mul_le_mul_right _ (by omega)
  have htotal : size.totalWords count.get = (Shape.list size count).words := by
    show (size.bits * count.get + 63) / 64 % 2 ^ 32 = (size.bits * count.get + 63) / 64
    rw [hbits]
    exact Nat.mod_eq_of_lt (by omega)
  have hsmall : size.totalWords count.get < 2 ^ 29 := by
    rw [htotal, hwords]
    omega
  have hslice : ObjectBuilder.sectionSliceMut ⟨start.segment⟩ start (size.totalWords count.get) a₂ =
      .ok (fun k => a₂.word (start.offset k)) a₂ := by
    refine if_pos ?_
    rw [htotal]
    exact h.block_le.trans ((hprepares.grows.used_le _).trans (hprepares.grows.wf.used_le_len _))
  have hrun : promoteData bytes start size ⟨start.segment⟩ place newSize count a₂ =
      (Prog.forRange count.get fun k => do
        let word ← Arena.read (place.offset (newSize.total * k))
        Arena.writeSection (place.offset (newSize.total * k)) 1 fun _ => Word.setBytes word 0
          (CopyMachine.elementBytes (fun j => a₂.word (start.offset j)) bytes k) : BuildM Unit) a₂ := by
    rw [promoteData, U29.new_of_lt hsmall, unwrap_some, pure_bind_eq]
    exact bind_of_ok hslice
  have hnothing : (pure () : BuildM Unit) = Prog.forRange count.get fun _ => pure () := by
    generalize count.get = n
    induction n with
    | zero => rfl
    | succ n ih => rw [Prog.forRange, ← ih, pure_bind_eq]
  rw [hnothing]
  refine .of_eq hrun (elements_transfers hfits hprepares Set.subset_union_right
    (fun _ => respects_pure ()) ?_)
  intro k hk F a₃ hgrows hF hout
  rw [hto] at hout ⊢
  have hmem := @ElementSize.movesTo_subset_list size newSize place k count.get hfits hk
  rw [hto, Set.singleton_subset_iff] at hmem
  have hused := (Arena.mem_fresh.1 (hprepares.fresh _ hmem)).2
  refine (setNumber_transfers hgrows.wf (hgrows.lt_used hused) ?_ _).imp
    fun a₄ _ hword => hmoved _ _ _ ?_
  · rw [hgrows.word_eq hused (Set.disjoint_singleton_right.1 hout)]
    exact hprepares.null _ hmem
  · rw [hword, CopyMachine.elementBytes, CopyMachine.elementBytes]
    have hplace : bytes * k / 8 < (Shape.list size count).words := by
      rw [hwords]
      have hnext : bytes * k + bytes ≤ bytes * count.get := Nat.mul_le_mul_left bytes hk
      rw [Nat.mul_assoc]
      omega
    rw [(h.kept hprepares (.refl hprepares.grows.wf) (Set.empty_subset _) hplace).2.1]

/-- A list moves to a block that was laid out after its pointers were cleared. -/
lemma transfers (hwf : a.Wf) (hfits : size.FitsIn newSize)
    (hother : ElementSize.inlineComposite newSize ≠ size)
    (hsmall : newSize.total * count.get ≤ U29.maxValue)
    (hprepares : Prepares a (insert slot {r | r ∈ pads}) place (newSize.total * count.get) a₂) :
    Transfers (promoteList start size ⟨start.segment⟩ place newSize ⟨place.segment⟩ count)
      (size.allocPads ⟨start.segment⟩ ⟨place.segment⟩ (fun k => a.word (start.offset k)) count.get)
      {r | ∃ k < count.get, r ∈ size.movesTo newSize place k}
      (fun a' => ∀ k < count.get, size.Moved newSize a (insert slot {r | r ∈ pads} ∪
        ((Shape.list size count).tag start ∪ span start (Shape.list size count).words) ∪
        span place (newSize.total * count.get)) start place t k a') a₂ := by
  rw [promoteList.eq_def, stepByUnchecked, assert_of hsmall, pure_bind_eq]
  cases size with
  | void =>
    exact .of_write rfl (.refl a₂) (.refl hprepares.grows.wf) fun k hk => trivial
  | bit => exact hfits.elim
  | byte | twoBytes | fourBytes | eightBytes =>
    exact h.transfers_numbers (by decide) rfl (by decide) hfits (fun _ => rfl)
      (fun _ _ _ hword => hword) hprepares
  | pointer =>
    refine elements_transfers hfits hprepares Set.subset_union_right
      (fun _ => respects_ite respects_allocLandingPads (respects_pure ())) ?_
    intro k hk F a₃ hgrows hF hout
    exact h.transfers_pointer hwf rfl hprepares hgrows hF
      (ElementSize.movesTo_subset_list hfits hk rfl) (Set.disjoint_singleton_right.1 hout) hk
  | inlineComposite structSize =>
    have hpos : 0 < newSize.total := by
      refine Nat.pos_of_ne_zero fun hzero => hother ?_
      have htotal := newSize.total_eq
      obtain ⟨hdata, hptrs⟩ := hfits
      rw [show newSize = structSize from StructSize.ext (by omega) (by omega)]
    have hassert : structSize.total * count.get ≤ U29.maxValue := by
      have hle := h.block_le
      have hlt := hwf.used_lt start.segment
      have hwords : (Shape.list (.inlineComposite structSize) count).words =
          structSize.total * count.get := by
        show (structSize.total * 64 * count.get + 63) / 64 = _
        rw [Nat.mul_right_comm]
        omega
      show _ ≤ 2 ^ 29 - 1
      omega
    dsimp only
    rw [stepByUnchecked, assert_of hassert, pure_bind_eq]
    refine elements_transfers hfits hprepares Set.subset_union_right
      (fun _ => respects_allocPadsFor) ?_
    intro k hk F a₃ hgrows hF hout
    exact h.transfers_struct hwf rfl hfits hpos hprepares hgrows hF hk hout

end ListAt

end Lists

end Recapn.Ptr

/-
# Clearing a pointer

The pointers to an object are followed and cleared, then the object is, with everything below it.
A pointer whose tree is tidy is cleared with its tree, and nothing else is.  Behind a list of
structs of more than one word there may be a neighbour, and then it is erased as well.
-/
import Mathlib.Order.Filter.AtTopBot.Basic
import Mathlib.Order.Filter.Finite
import Recapn.Ptr.Nullify

namespace Recapn.Ptr

open Recapn.Lib Recapn.Lib.Prog

variable {ε : Type}

/-! ## Following and clearing the pointers to an object -/

section Pads

variable {s : ClearState} {a : Arena} {builder : ObjectBuilder} {slot start : SegmentRef}
  {ptr : WirePtr} {location : BuildLocation} {pads : List SegmentRef}

lemma buildObjectIn_of_lt {segment : SegmentId} (h : segment < a.segments.length)
    (offset : SegmentOffset) :
    builder.buildObjectIn segment offset a =
      .ok (some (⟨segment, offset.get⟩, ⟨segment⟩)) a := by
  have hget := List.getElem?_eq_getElem h
  have hplace : SegmentRef.offset ⟨segment, 0⟩ offset.get = ⟨segment, offset.get⟩ :=
    SegmentRef.ext rfl (Nat.zero_add _)
  rw [ObjectBuilder.buildObjectIn, bind_of_ok (x := builder.buildSegment segment) rfl, hget]
  show Outcome.ok (some (SegmentRef.offset ⟨segment, 0⟩ offset.get, _)) a = _
  rw [hplace]

/-- The landing pad of a far pointer. -/
lemma buildObjectIn_pad {far : WirePtr} (h : (FarPtr.pad far).pos < a.len (FarPtr.pad far).segment) :
    builder.buildObjectIn (FarPtr.segment far) (FarPtr.offset far) a =
      .ok (some (FarPtr.pad far, ⟨FarPtr.segment far⟩)) a :=
  buildObjectIn_of_lt (lt_length_of_len h) _

/-- The pointers to an object are followed, by a builder in the segment of the last one. -/
lemma locate_of_hops (h : Hops a slot ptr location pads) (hslot : slot.pos < a.len slot.segment)
    (hpads : ∀ r ∈ pads, r.pos < a.len r.segment) :
    ∃ builder', builder.locate slot a = .ok (⟨ptr, location⟩, builder') a ∧
      (location = .near slot → builder' = builder) ∧
      ∀ origin, location = .far origin → builder'.segment = origin.segment := by
  have hread : builder.locate slot a = builder.locatePtr slot (a.word slot) a :=
    bind_of_ok (read_of_lt hslot)
  rw [hread]
  cases h with
  | near hkind =>
    refine ⟨builder, ?_, fun _ => rfl, fun _ heq => (nomatch heq)⟩
    rw [ObjectBuilder.locatePtr, if_neg hkind]
    rfl
  | far hkind hsingle =>
    have hpad := hpads _ (List.mem_singleton_self _)
    refine ⟨⟨FarPtr.segment (a.word slot)⟩, ?_, fun heq => (nomatch heq), ?_⟩
    · rw [ObjectBuilder.locatePtr, if_pos hkind, bind_of_ok (buildObjectIn_pad hpad)]
      show (Arena.read (FarPtr.pad (a.word slot)) >>= fun padPtr => _) a = _
      rw [bind_of_ok (read_of_lt hpad), hsingle]
      rfl
    · rintro origin heq
      cases heq
      rfl
  | doubleFar hkind hdouble hfar =>
    have hpad := hpads _ List.mem_cons_self
    have htag := hpads _ (List.mem_cons_of_mem _ (List.mem_singleton_self _))
    refine ⟨⟨FarPtr.segment (a.word slot)⟩, ?_, fun heq => (nomatch heq), fun _ heq => (nomatch heq)⟩
    rw [ObjectBuilder.locatePtr, if_pos hkind, bind_of_ok (buildObjectIn_pad hpad)]
    show (Arena.read (FarPtr.pad (a.word slot)) >>= fun padPtr => _) a = _
    rw [bind_of_ok (read_of_lt hpad), hdouble]
    show (Arena.read ((FarPtr.pad (a.word slot)).offset 1) >>= fun tag => _) a = _
    rw [bind_of_ok (read_of_lt htag), assert_of hfar]
    rfl

lemma Erases.setNull {r : SegmentRef} (h : r.pos < a.len r.segment) :
    Erases {r} a (a.write r 1 fun _ => Word.null) := by
  have hspan : span r 1 = {r} := Set.ext fun r' => mem_span_one
  have herases := Erases.write (lt_length_of_len h) 1
  rw [hspan] at herases
  exact herases

/-- Null words keep an arena well-formed wherever they are written. -/
lemma Arena.Wf.write_null (hwf : a.Wf) (start : SegmentRef) (len : ℕ) :
    (a.write start len fun _ => Word.null).Wf where
  owned {i s} hs := by
    rw [Arena.getElem?_write] at hs
    obtain ⟨s₀, hs₀, rfl⟩ := Option.map_eq_some_iff.1 hs
    obtain ⟨hid, len', hstate, hle⟩ := hwf.owned hs₀
    by_cases hi : start.segment = i
    · rw [if_pos hi]
      exact ⟨hid, len', hstate, hle⟩
    · rw [if_neg hi]
      exact ⟨hid, len', hstate, hle⟩
  clean r hr := by
    rw [Arena.used_write] at hr
    by_cases hspan : r ∈ span start len
    · by_cases hsegment : start.segment < a.segments.length
      · exact Arena.word_write_of_mem _ _ _ _ hsegment hspan.1 hspan.2.1 hspan.2.2
      · rw [Arena.word, List.getElem?_eq_none (by
          rw [Arena.length_write, hspan.1]
          exact Nat.not_lt.1 hsegment)]
    · rw [Arena.word_write_of_not_mem _ _ _ _ hspan]
      exact hwf.clean r hr
  lastOwned_lt := by
    rw [Arena.length_write]
    exact hwf.lastOwned_lt
  length_le := by
    rw [Arena.length_write]
    exact hwf.length_le

lemma used_write_null {start : SegmentRef} {len : ℕ} :
    (a.write start len fun _ => Word.null).used = a.used :=
  funext fun i => Arena.used_write _ _ _ _ i

/-- The pointers to an object become null. -/
lemma clearPtrs_of_hops (h : Hops a slot ptr location pads) (hslot : slot.pos < a.len slot.segment)
    (hpads : ∀ r ∈ pads, r.pos < a.len r.segment) :
    ∃ a', builder.clearPtrs slot a = .ok () a' ∧ Erases (insert slot {r | r ∈ pads}) a a' ∧
      (a.Wf → a'.Wf) ∧ a'.used = a.used := by
  have hread : builder.clearPtrs slot a = _ := bind_of_ok (read_of_lt hslot)
  rw [hread]
  cases h with
  | near hkind =>
    refine ⟨a.write slot 1 fun _ => Word.null, ?_, ?_, fun hwf => hwf.write_null _ _, ?_⟩
    · rw [if_neg hkind]
      exact setPtr_of_lt hslot
    · have herases := Erases.setNull hslot
      simpa using herases
    · exact used_write_null
  | far hkind hsingle =>
    have hpad := hpads _ (List.mem_singleton_self _)
    have hfirst := Erases.setNull hpad
    have hslot' := hslot
    rw [← hfirst.len_eq] at hslot'
    refine ⟨_, ?_, ((hfirst.trans (Erases.setNull hslot'))).congr ?_,
      fun hwf => (hwf.write_null _ _).write_null _ _, used_write_null.trans used_write_null⟩
    · rw [if_pos_apply hkind, bind_of_ok (buildObjectIn_pad hpad)]
      dsimp only
      rw [bind_of_ok (setPtr_of_lt hpad), hsingle]
      exact setPtr_of_lt hslot'
    · ext r
      simp [or_comm]
  | doubleFar hkind hdouble hfar =>
    have hpad := hpads _ List.mem_cons_self
    have htag := hpads _ (List.mem_cons_of_mem _ (List.mem_singleton_self _))
    have hfirst := Erases.setNull hpad
    have htag' := htag
    rw [← hfirst.len_eq] at htag'
    have hsecond := hfirst.trans (Erases.setNull htag')
    have hslot' := hslot
    rw [← hsecond.len_eq] at hslot'
    refine ⟨_, ?_, (hsecond.trans (Erases.setNull hslot')).congr ?_,
      fun hwf => ((hwf.write_null _ _).write_null _ _).write_null _ _,
      used_write_null.trans (used_write_null.trans used_write_null)⟩
    · rw [if_pos_apply hkind, bind_of_ok (buildObjectIn_pad hpad)]
      dsimp only
      rw [bind_of_ok (setPtr_of_lt hpad), hdouble]
      show (ObjectBuilder.setPtr ⟨FarPtr.segment (a.word slot)⟩
        ((FarPtr.pad (a.word slot)).offset 1) Word.null >>= fun _ => _) _ = _
      rw [bind_of_ok (setPtr_of_lt htag')]
      exact setPtr_of_lt hslot'
    · ext r
      simp [or_comm]

/-- The object is found where its pointer says. -/
lemma buildAtLocation_of_begins {offset : SignedSegmentOffset} (h : location.Begins offset start)
    (hsegment : start.segment < a.segments.length) :
    ∃ builder', builder.buildAtLocation location offset a = .ok (start, builder') a := by
  have hend : ∀ origin : SegmentRef, start.segment = origin.segment ∧
      (start.pos : ℤ) = (origin.pos : ℤ) + 1 + offset.get →
      builder.buildObjectFromEndOf origin offset a = .ok (start, builder) a := by
    rintro origin ⟨heq, hpos⟩
    have hplace : (⟨origin.segment, ((origin.pos : ℤ) + 1 + offset.get).toNat⟩ : SegmentRef) =
        start := by
      refine SegmentRef.ext heq.symm ?_
      show ((origin.pos : ℤ) + 1 + offset.get).toNat = start.pos
      omega
    rw [ObjectBuilder.buildObjectFromEndOf, require_of (by omega), pure_bind_eq, hplace]
    rfl
  cases location with
  | near origin | far origin => exact ⟨builder, hend origin h⟩
  | doubleFar segment place =>
    replace h : start = ⟨segment, place.get⟩ := h
    subst h
    refine ⟨⟨segment⟩, ?_⟩
    rw [ObjectBuilder.buildAtLocation, bind_of_ok (buildObjectIn_of_lt hsegment _)]
    rfl

end Pads

/-! ## Trees -/

section Trees

variable {self : Nullifier ε} {s : ClearState} {a a' : Arena} {builder : ObjectBuilder}
  {clearPtr : ObjectBuilder → SegmentRef → Nullifier.ClearM ε Unit} {slot start : SegmentRef}
  {shape : Shape} {count : ElementCount} {pads : List SegmentRef} {ptrs : shape.Slot → Tree}
  {ptr : WirePtr} {location : BuildLocation}

/-- The pointers to an object have no word in common with its block and what is below it. -/
lemma Tree.Separate.disjoint_blockWords
    (h : (Tree.object shape start count pads ptrs).Separate slot) :
    Disjoint (blockWords shape start ptrs) (insert slot {r | r ∈ pads}) := by
  obtain ⟨hslot, hpads, hapart, -, -⟩ := h
  rw [Set.disjoint_left]
  rintro r (hr | ⟨k, hr⟩) (rfl | hpad)
  · exact hslot (Or.inl (Or.inr hr))
  · exact hpads r hpad hr
  · exact hslot (Or.inr ⟨k, hr⟩)
  · exact Set.disjoint_left.1 (hapart k) hr (Or.inl hpad)

lemma withSlot_object :
    (Tree.object shape start count pads ptrs).withSlot slot =
      insert slot {r | r ∈ pads} ∪ blockWords shape start ptrs := by
  rw [Tree.withSlot, Tree.words, blockWords, Set.insert_union, Set.union_assoc]

/-- The block and what is below it are there when its pointers are cleared. -/
lemma blocks_of_below (hbelow : (Tree.object shape start count pads ptrs).Below a slot)
    (hseparate : (Tree.object shape start count pads ptrs).Separate slot)
    (htidy : (Tree.object shape start count pads ptrs).Tidy a)
    (ha : Erases (insert slot {r | r ∈ pads}) a a') : Blocks a' shape start ptrs := by
  have hdisjoint := hseparate.disjoint_blockWords
  obtain ⟨-, -, -, -, -, hsegment, hblock, hptrs⟩ := hbelow
  obtain ⟨-, -, hapart, hpairwise, hbelowSeparate⟩ := hseparate
  refine ⟨?_, ?_, ?_, fun k => (htidy.2 k).erases ha, hbelowSeparate, ?_, hpairwise⟩
  · rw [ha.length_eq]
    exact hsegment
  · rw [ha.len_eq]
    exact hblock
  · intro k
    refine (hptrs k).agree (ha.agrees (hdisjoint.mono_left ?_))
    rintro r (rfl | hr)
    · exact Or.inl (Or.inr (Blocks.mem_span k.2.1))
    · exact Or.inr ⟨k, hr⟩
  · intro k
    exact (hapart k).mono_right fun r hr => Or.inr hr

/-- The part for a struct. -/
lemma nulls_structContent {size : StructSize} {ptrs : (Shape.struct size).Slot → Tree}
    (hdescribed : (Shape.struct size).DescribedBy a ptr location start count)
    (h : Blocks s.arena (.struct size) start ptrs) (hclear : ∀ k, ClearsTree clearPtr (ptrs k)) :
    Nulls (self.clearStructContent clearPtr builder ⟨ptr, location⟩)
      (blockWords (.struct size) start ptrs) s := by
  obtain ⟨-, rfl, hbegins⟩ := hdescribed
  by_cases hempty : StructPtr.size ptr = StructSize.empty
  · rw [Nullifier.clearStructContent]
    dsimp only
    rw [if_pos hempty]
    have hwords : (Shape.struct (StructPtr.size ptr)).words = 0 :=
      StructSize.total_eq_zero_iff.2 hempty
    refine nulls_pure ?_
    rintro r ((hr | ⟨-, hge, hlt⟩) | ⟨⟨k, hk⟩, -⟩)
    · exact absurd hr (Set.notMem_empty r)
    · omega
    · have hlt := hk.1
      omega
  · rw [Nullifier.clearStructContent]
    dsimp only
    rw [if_neg hempty]
    obtain ⟨builder', hrun⟩ :=
      @buildAtLocation_of_begins s.arena builder start location _ (hbegins hempty) h.segment_lt
    exact nulls_build_read hrun (nulls_clearStruct h hclear)

/-- The part for a list. -/
lemma nulls_listContent {size : ElementSize} {n : ElementCount}
    {ptrs : (Shape.list size n).Slot → Tree}
    (hdescribed : (Shape.list size n).DescribedBy s.arena ptr location start count)
    (h : Blocks s.arena (.list size n) start ptrs)
    (htag : ∀ r ∈ (Shape.list size n).tag start, r.pos < s.arena.len r.segment)
    (htidy : (Tree.object (.list size n) start count pads ptrs).Tidy s.arena)
    (hclear : ∀ k, ClearsTree clearPtr (ptrs k)) :
    Nulls (self.clearListContent clearPtr builder ⟨ptr, location⟩)
      (blockWords (.list size n) start ptrs) s := by
  rw [Nullifier.clearListContent]
  dsimp only
  by_cases hcomposite : ∃ structSize, size = .inlineComposite structSize
  · obtain ⟨structSize, rfl⟩ := hcomposite
    obtain ⟨-, hsize, rfl, hcounts, tag, hbegins, rfl, hkind, hstruct, -⟩ := hdescribed
    obtain ⟨builder', hrun⟩ :=
      @buildAtLocation_of_begins s.arena builder tag location _ hbegins h.segment_lt
    refine nulls_build_read hrun ?_
    dsimp only
    rw [if_pos hsize]
    refine nulls_build_read (read_of_lt (htag tag rfl)) ?_
    rw [assert_of hkind, pure_bind_eq, hstruct]
    obtain ⟨hle, hbehind⟩ := htidy.1 structSize n rfl
    exact nulls_clearStructs (Nat.succ_pos _) h hclear hcounts hle hbehind
  · have hother : (Shape.list size n).DescribedBy s.arena ptr location start count ↔
        WirePtr.kind ptr = .list ∧ ListPtr.elementSize ptr ≠ .inlineComposite ∧
          (ListPtr.elementSize ptr).toElementSize = size ∧ ListPtr.elementCount ptr = n ∧
          location.Begins (ListPtr.offset ptr) start := by
      cases size with
      | inlineComposite structSize => exact absurd ⟨structSize, rfl⟩ hcomposite
      | _ => exact Iff.rfl
    obtain ⟨-, hsize, hsize', rfl, hbegins⟩ := hother.1 hdescribed
    obtain ⟨builder', hrun⟩ :=
      @buildAtLocation_of_begins s.arena builder start location _ hbegins h.segment_lt
    refine nulls_build_read hrun ?_
    dsimp only
    rw [if_neg hsize, hsize']
    by_cases hpointer : size = .pointer
    · subst hpointer
      exact nulls_clearPointers h hclear
    · have hnoptr : ∀ k : (Shape.list size (ListPtr.elementCount ptr)).Slot, False := by
        rintro ⟨k, -, hptr⟩
        cases size with
        | pointer => exact hpointer rfl
        | inlineComposite structSize => exact hcomposite ⟨structSize, rfl⟩
        | _ => cases hptr
      have hnotag : (Shape.list size (ListPtr.elementCount ptr)).tag start = ∅ := by
        cases size with
        | inlineComposite structSize => exact absurd ⟨structSize, rfl⟩ hcomposite
        | _ => rfl
      have hbits : size.bits ≤ 64 := by
        rw [← hsize']
        exact ElementSize.bits_le_of_ptr _
      have hdata : Nulls (self.build (builder'.clearListSection start size
          (ListPtr.elementCount ptr)) pure)
          (span start (Shape.list size (ListPtr.elementCount ptr)).words) s := by
        refine nulls_clearData hbits ?_ h.segment_lt h.block_le
        cases size with
        | inlineComposite structSize => exact absurd ⟨structSize, rfl⟩ hcomposite
        | _ => rfl
      have hlist : self.clearList clearPtr builder' start size (ListPtr.elementCount ptr) =
          self.build (builder'.clearListSection start size (ListPtr.elementCount ptr)) pure := by
        cases size with
        | pointer => exact absurd rfl hpointer
        | inlineComposite structSize => exact absurd ⟨structSize, rfl⟩ hcomposite
        | _ => rfl
      rw [hlist]
      refine hdata.congr ?_
      ext r
      constructor
      · intro hr
        exact Or.inl (Or.inr hr)
      · rintro ((hr | hr) | ⟨k, -⟩)
        · rw [hnotag] at hr
          exact absurd hr (Set.notMem_empty r)
        · exact hr
        · exact (hnoptr k).elim

/-- A pointer whose pointers below can be cleared can be cleared. -/
lemma clearsTree_object {depth : ℕ} (hclear : ∀ k, ClearsTree (self.clearPtr depth) (ptrs k)) :
    ClearsTree (self.clearPtr (depth + 1)) (.object shape start count pads ptrs) := by
  intro builder slot s hbelow _ hseparate htidy
  have hbelow' := hbelow
  obtain ⟨hslot, -, ⟨ptr, location, hhops, hdescribed⟩, hpads, htag, -, -, -⟩ := hbelow'
  obtain ⟨builder', hlocate, -⟩ := @locate_of_hops _ builder _ _ _ _ hhops hslot hpads
  obtain ⟨a, hclearPtrs, ha, -⟩ := @clearPtrs_of_hops _ builder _ _ _ _ hhops hslot hpads
  rw [withSlot_object]
  refine nulls_build_read hlocate (nulls_build hclearPtrs ha ?_)
  have hblocks := blocks_of_below hbelow hseparate htidy ha
  have hdescribed' : shape.DescribedBy a ptr location start count := by
    refine hdescribed.agree fun r hr => ha.same r fun hmem => ?_
    exact Set.disjoint_left.1 hseparate.disjoint_blockWords (Or.inl (Or.inl hr)) hmem
  cases shape with
  | struct size =>
    dsimp only
    rw [hdescribed.1]
    exact nulls_structContent hdescribed' hblocks hclear
  | list size n =>
    have hkind : WirePtr.kind ptr = .list := by
      cases size with
      | inlineComposite => exact hdescribed.1
      | _ => exact hdescribed.1
    dsimp only
    rw [hkind]
    refine nulls_listContent hdescribed' hblocks ?_ (htidy.erases ha) hclear
    intro r hr
    show r.pos < a.len r.segment
    rw [ha.len_eq]
    exact htag r hr

instance : Finite shape.Slot := by
  refine Finite.of_injective (fun k : shape.Slot => (⟨k.1, k.2.1⟩ : Fin shape.words)) ?_
  intro j k hjk
  exact Subtype.ext (congrArg Fin.val hjk)

/-- A capability is handed back.  What the table says to it is ignored. -/
lemma clearsTree_capability (hignore : ∀ reported err, self.handler reported err = none) (depth : ℕ)
    (index : ℕ) : ClearsTree (self.clearPtr (depth + 1)) (.capability index) := by
  intro builder slot s hbelow _ _ _
  obtain ⟨hslot, hcapability, -⟩ := hbelow
  have hkind : WirePtr.kind (s.arena.word slot) = .other := by
    by_contra hkind
    rw [WirePtr.not_isCapability_of_kind hkind] at hcapability
    cases hcapability
  have hhops : Hops s.arena slot (s.arena.word slot) (.near slot) [] := .near (by rw [hkind]; decide)
  obtain ⟨builder', hlocate, -⟩ := @locate_of_hops _ builder _ _ _ _ hhops hslot (by simp)
  obtain ⟨a, hclearPtrs, ha, -⟩ := @clearPtrs_of_hops _ builder _ _ _ _ hhops hslot (by simp)
  have hslots : (Tree.capability index).withSlot slot = insert slot {r | r ∈ []} ∪ ∅ := by
    rw [Set.union_empty]
    simp [Tree.withSlot, Tree.words]
  rw [hslots]
  refine nulls_build_read hlocate (nulls_build hclearPtrs ha ?_)
  dsimp only
  rw [hkind]
  show Nulls (Prog.assert (WirePtr.isCapability (s.arena.word slot)) >>= fun _ => _) _ _
  rw [assert_of hcapability, pure_bind_eq]
  rcases hclearCap : self.clearCap s.caps (CapabilityPtr.capabilityIndex (s.arena.word slot)) with err | ⟨⟩
  · refine ⟨⟨a, err :: s.reported, CapabilityPtr.capabilityIndex (s.arena.word slot) :: s.caps⟩, ?_,
      Erases.of_null fun r hr => absurd hr (Set.notMem_empty r)⟩
    simp only [Nullifier.clearCapability, hclearCap, Nullifier.handleErr, hignore]
  · refine ⟨⟨a, s.reported, CapabilityPtr.capabilityIndex (s.arena.word slot) :: s.caps⟩, ?_,
      Erases.of_null fun r hr => absurd hr (Set.notMem_empty r)⟩
    simp only [Nullifier.clearCapability, hclearCap]

/-- A tree can be cleared by a recursion that may go deep enough. -/
lemma eventually_clearsTree (hignore : ∀ reported err, self.handler reported err = none)
    (tree : Tree) : ∀ᶠ depth in Filter.atTop, ClearsTree (self.clearPtr depth) tree := by
  induction tree with
  | null =>
    refine Filter.Eventually.of_forall fun depth builder slot s hbelow hsome => ?_
    exact absurd hbelow.2 hsome
  | capability index =>
    refine Filter.eventually_atTop.2 ⟨1, fun depth hdepth => ?_⟩
    obtain ⟨depth, rfl⟩ := Nat.exists_eq_add_of_le' hdepth
    exact clearsTree_capability hignore depth index
  | object shape start count pads ptrs ih =>
    obtain ⟨n, hn⟩ := Filter.eventually_atTop.1 (Filter.eventually_all.2 ih)
    refine Filter.eventually_atTop.2 ⟨n + 1, fun depth hdepth => ?_⟩
    obtain ⟨depth, rfl⟩ := Nat.exists_eq_add_of_le hdepth
    rw [Nat.add_right_comm]
    exact clearsTree_object (hn (n + depth) (Nat.le_add_right _ _))

end Trees

/-! ## Clearing a pointer -/

/-- The pointer is cleared, by a recursion that may go deep enough: it and the words of its tree
become null, and no other word changes. -/
def PtrBuilder.ClearsExactly (self : PtrBuilder) (clearCap : List ℕ → ℕ → Except Error Unit)
    (tree : Tree) (a : Arena) : Prop :=
  ∃ n, ∀ depth ≥ n, ∃ a', (self.clear clearCap depth : Prog Empty Arena Unit) a = .ok () a' ∧
    Erases (tree.withSlot self.ptr) a a'

/-- A pointer is cleared with its tree by a recursion that can clear the tree. -/
lemma PtrBuilder.clear_of_clearsTree {self : PtrBuilder}
    {clearCap : List ℕ → ℕ → Except Error Unit} {tree : Tree} {a : Arena} {depth : ℕ}
    (hclear : ClearsTree ((⟨ignoreErrors, clearCap⟩ : Nullifier Empty).clearPtr depth) tree)
    (hbelow : tree.Below a self.ptr) (hseparate : tree.Separate self.ptr) (htidy : tree.Tidy a) :
    ∃ a', (self.clear clearCap depth : Prog Empty Arena Unit) a = .ok () a' ∧
      Erases (tree.withSlot self.ptr) a a' := by
  have hrun : Nulls (self.tryClear ⟨ignoreErrors, clearCap⟩ depth) (tree.withSlot self.ptr)
      ⟨a, [], []⟩ := by
    refine nulls_build_read (read_of_lt hbelow.slot_lt) ?_
    by_cases hnull : (a.word self.ptr).isNull = true
    · rw [if_pos hnull]
      have hword := Word.isNull_iff.1 hnull
      refine nulls_pure ?_
      rintro r (rfl | hr)
      · exact hword
      · rw [hbelow.words_of_null hword] at hr
        exact absurd hr (Set.notMem_empty r)
    · rw [if_neg hnull]
      exact hclear self.builder self.ptr ⟨a, [], []⟩ hbelow
        (fun hword => hnull (Word.isNull_iff.2 hword)) hseparate htidy
  obtain ⟨s', hok, herases⟩ := hrun
  refine ⟨s'.arena, ?_, herases⟩
  rw [PtrBuilder.clear, hok]

/-- **Clearing a pointer erases its tree and nothing else, when the tree is tidy.** -/
theorem clears_exactly_of_tidy (self : PtrBuilder) (clearCap : List ℕ → ℕ → Except Error Unit)
    {tree : Tree} {a : Arena} (hbelow : tree.Below a self.ptr) (hseparate : tree.Separate self.ptr)
    (htidy : tree.Tidy a) : self.ClearsExactly clearCap tree a := by
  obtain ⟨n, hn⟩ := Filter.eventually_atTop.1
    (@eventually_clearsTree Empty ⟨ignoreErrors, clearCap⟩ (fun _ _ => rfl) tree)
  exact ⟨n, fun depth hdepth => PtrBuilder.clear_of_clearsTree (hn depth hdepth) hbelow hseparate htidy⟩

/-- An arena of one segment of 16 words, from which so many words are used. -/
def wordsArena (words : List Word) (used : AllocLen) : Arena :=
  ⟨.never, [], [⟨⟨fun pos => words.getD pos Word.null, ⟨16, U29.sixteen_lt⟩⟩, 0, .used used⟩], 0⟩

lemma wf_wordsArena {words : List Word} {used : AllocLen} (hused : used.get ≤ 16)
    (hwords : words.length ≤ used.get) : (wordsArena words used).Wf := by
  constructor
  · intro i s hs
    rcases i with _ | i
    · cases hs
      exact ⟨rfl, used, rfl, hused⟩
    · cases hs
  · rintro ⟨i, pos⟩ hpos
    rcases i with _ | i
    · show words.getD pos Word.null = Word.null
      rw [List.getD_eq_getElem?_getD, List.getElem?_eq_none (hwords.trans hpos), Option.getD_none]
    · rfl
  · exact Nat.one_pos
  · exact (by decide : 1 ≤ 2 ^ 32 - 1)

/-- A list of one struct of two data words, at the word 3 and pointed to by the word 1. -/
def oneStruct : Tree :=
  .object (.list (.inlineComposite twoWords) ⟨1, U29.one_lt⟩) ⟨0, 4⟩ ⟨2, U29.two_lt⟩ [] fun _ => .null

/-- One data word. -/
def oneWord : StructSize := ⟨1, 0, StructSize.one_lt, StructSize.zero_lt⟩

/-- A root with two pointers: to the list, and to a struct of one data word that is allocated
after so many words more. -/
def rootWords (gap : ℕ) (offset : SignedSegmentOffset) : List Word :=
  [StructPtr.new I30.zero ⟨0, 2, StructSize.zero_lt, StructSize.two_lt⟩,
    ListPtr.new ⟨1, I30.le_one, I30.one_lt⟩ .inlineComposite ⟨2, U29.two_lt⟩,
    StructPtr.new offset oneWord,
    StructPtr.newInlineCompositeTag ⟨1, U29.one_lt⟩ twoWords,
    ⟨1, 0, 0, 0, 0, 0, 0, 0⟩, ⟨2, 0, 0, 0, 0, 0, 0, 0⟩] ++
  List.replicate gap Word.null ++ [⟨3, 0, 0, 0, 0, 0, 0, 0⟩]

/-- The struct is right behind the list. -/
def neighbourArena : Arena := wordsArena (rootWords 0 ⟨3, by decide, by decide⟩) ⟨7, by decide, by decide⟩

/-- There are two words between the list and the struct. -/
def apartArena : Arena := wordsArena (rootWords 2 ⟨5, by decide, by decide⟩) ⟨9, by decide, by decide⟩

lemma not_isPtr_twoWords : ∀ _ : (Shape.list (.inlineComposite twoWords) ⟨1, by decide⟩).Slot, False := by
  rintro ⟨k, hk, hptr⟩
  have hlt : k < 2 := hk
  have hle : 2 ≤ k % 2 := of_decide_eq_true hptr
  omega

lemma below_oneStruct {gap : ℕ} {offset : SignedSegmentOffset} {used : AllocLen} :
    oneStruct.Below (wordsArena (rootWords gap offset) used) ⟨0, 1⟩ := by
  have hptr : (wordsArena (rootWords gap offset) used).word ⟨0, 1⟩ =
      ListPtr.new ⟨1, by decide, by decide⟩ .inlineComposite ⟨2, by decide⟩ := rfl
  have htag : (wordsArena (rootWords gap offset) used).word ⟨0, 3⟩ =
      StructPtr.newInlineCompositeTag ⟨1, by decide⟩ twoWords := rfl
  refine ⟨(by decide : 1 < 16), ?_, ⟨_, _, .near ?_, ?_⟩, ?_, ?_, ?_, ?_, ?_⟩
  · rw [hptr]
    decide
  · rw [hptr]
    decide
  · rw [hptr]
    refine ⟨by decide, by decide, by decide, Or.inl rfl, ⟨0, 3⟩, ⟨rfl, by decide⟩, rfl, ?_⟩
    rw [htag]
    decide
  · exact fun r hr => nomatch hr
  · rintro r rfl
    exact (by decide : 3 < 16)
  · exact Nat.one_pos
  · exact (by decide : 4 + 2 ≤ 16)
  · exact fun k => (not_isPtr_twoWords k).elim

lemma words_oneStruct {r : SegmentRef} (h : r ∈ oneStruct.words) : 3 ≤ r.pos ∧ r.pos < 6 := by
  rcases h with ((hr | rfl | ⟨-, hge, hlt⟩) | ⟨k, -⟩)
  · cases hr
  · exact (by decide : 3 ≤ 3 ∧ 3 < 6)
  · exact ⟨(Nat.le_succ 3).trans hge, hlt⟩
  · exact (not_isPtr_twoWords k).elim

lemma separate_oneStruct : oneStruct.Separate ⟨0, 1⟩ := by
  refine ⟨fun h => ?_, fun r hr => (nomatch hr), ?_, ?_, ?_⟩
  · exact absurd (words_oneStruct h).1 (by decide)
  · exact fun k => (not_isPtr_twoWords k).elim
  · exact fun k => (not_isPtr_twoWords k).elim
  · exact fun k => (not_isPtr_twoWords k).elim

/-- With null words behind it, the list is cleared alone. -/
theorem clears_exactly_apart :
    (⟨⟨0, 1⟩, ⟨0⟩⟩ : PtrBuilder).ClearsExactly (fun _ _ => .ok ()) oneStruct apartArena := by
  refine clears_exactly_of_tidy _ _ below_oneStruct separate_oneStruct ⟨?_, ?_⟩
  · rintro size n heq
    cases heq
    refine ⟨(by decide : 4 + 2 * 2 ≤ 16), ?_⟩
    rintro ⟨i, pos⟩ ⟨hi, hge, hlt⟩
    replace hi : i = 0 := hi
    replace hge : 6 ≤ pos := hge
    replace hlt : pos < 8 := hlt
    subst hi
    left
    obtain rfl | rfl : pos = 6 ∨ pos = 7 := by omega
    · rfl
    · rfl
  · exact fun k => (not_isPtr_twoWords k).elim

/-- What is right behind the list is erased with it: a struct that belongs to another pointer. -/
theorem not_clears_exactly :
    neighbourArena.Wf ∧ oneStruct.Below neighbourArena ⟨0, 1⟩ ∧ oneStruct.Separate ⟨0, 1⟩ ∧
      (Tree.object (.struct oneWord) ⟨0, 6⟩ U29.zero [] fun _ => .null).Below neighbourArena ⟨0, 2⟩ ∧
      ¬ (⟨⟨0, 1⟩, ⟨0⟩⟩ : PtrBuilder).ClearsExactly (fun _ _ => .ok ()) oneStruct neighbourArena := by
  refine ⟨wf_wordsArena (by decide) (by decide), below_oneStruct, separate_oneStruct, ?_, ?_⟩
  · have hptr : neighbourArena.word ⟨0, 2⟩ = StructPtr.new ⟨3, by decide, by decide⟩ oneWord := rfl
    refine ⟨(by decide : 2 < 16), ?_, ⟨_, _, .near ?_, ?_⟩, ?_, ?_, ?_, ?_, ?_⟩
    · rw [hptr]
      decide
    · rw [hptr]
      decide
    · rw [hptr]
      exact ⟨by decide, by decide, fun _ => ⟨rfl, by decide⟩⟩
    · exact fun r hr => nomatch hr
    · exact fun r hr => nomatch hr
    · exact Nat.one_pos
    · exact (by decide : 6 + 1 ≤ 16)
    · rintro ⟨k, hk, hptr⟩
      have hlt : k < 1 := hk
      have hle : 1 ≤ k := of_decide_eq_true hptr
      omega
  · rintro ⟨n, hn⟩
    obtain ⟨a, hrun, ha⟩ := hn (n + 1) (Nat.le_succ n)
    have hcleared : (PtrBuilder.clear ⟨⟨0, 1⟩, ⟨0⟩⟩ (fun _ _ => .ok ()) (n + 1) : Prog Empty Arena Unit)
        neighbourArena = .ok () ((neighbourArena.write ⟨0, 1⟩ 1 fun _ => Word.null).write ⟨0, 3⟩ 5
          fun _ => Word.null) := rfl
    rw [hcleared] at hrun
    cases hrun
    have hsame := ha.same ⟨0, 6⟩ ?_
    · exact absurd hsame (by decide)
    · rintro (hr | hr)
      · cases hr
      · exact absurd (words_oneStruct hr).2 (by decide)

end Recapn.Ptr

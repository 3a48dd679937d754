/-
# What clearing a pointer erases

Clearing a pointer walks down its tree and overwrites its words with null.  For a list of structs
the walk takes the count of the list pointer, which is a number of words, for the number of
structs, and goes on behind the end of the list.  Where that finds nothing but null words, or
words of the list's own trees, which it erased before, the words of the tree are erased and no
others.
-/
import Recapn.Ptr.Tree

namespace Recapn.Ptr

open Recapn.Lib Recapn.Lib.Prog

/-! ## Erasing words -/

/-- These words became null, and no other word changed. -/
structure Erases (S : Set SegmentRef) (a a' : Arena) : Prop where
  length_eq : a'.segments.length = a.segments.length
  len_eq : a'.len = a.len
  null : ∀ r ∈ S, a'.word r = Word.null
  same : ∀ r, r ∉ S → a'.word r = a.word r

namespace Erases

variable {S T : Set SegmentRef} {a a' a'' : Arena}

/-- Nothing has to be done for words that are null. -/
lemma of_null (h : ∀ r ∈ S, a.word r = Word.null) : Erases S a a :=
  ⟨rfl, rfl, h, fun _ _ => rfl⟩

lemma trans (h : Erases S a a') (h' : Erases T a' a'') : Erases (S ∪ T) a a'' := by
  refine ⟨h'.length_eq.trans h.length_eq, h'.len_eq.trans h.len_eq, ?_, ?_⟩
  · intro r hr
    by_cases hT : r ∈ T
    · exact h'.null r hT
    · rw [h'.same r hT]
      exact h.null r (hr.resolve_right hT)
  · intro r hr
    rw [h'.same r fun hT => hr (Or.inr hT), h.same r fun hS => hr (Or.inl hS)]

lemma congr (h : Erases S a a') (heq : S = T) : Erases T a a' := heq ▸ h

/-- Words that were null already need not be counted. -/
lemma of_subset (h : Erases S a a') (hsub : T ⊆ S)
    (hnull : ∀ r ∈ S, r ∉ T → a.word r = Word.null) : Erases T a a' := by
  refine ⟨h.length_eq, h.len_eq, fun r hr => h.null r (hsub hr), ?_⟩
  intro r hr
  by_cases hS : r ∈ S
  · rw [h.null r hS, hnull r hS hr]
  · exact h.same r hS

lemma agrees (h : Erases S a a') (hdisjoint : Disjoint T S) : Agrees T a a' :=
  ⟨h.length_eq, h.len_eq, fun r hr => h.same r (Set.disjoint_left.1 hdisjoint hr)⟩

/-- A null word stays null. -/
lemma null_of_null (h : Erases S a a') {r : SegmentRef} (hr : a.word r = Word.null) :
    a'.word r = Word.null := by
  by_cases hS : r ∈ S
  · exact h.null r hS
  · rw [h.same r hS, hr]

/-- Words of a segment are overwritten. -/
lemma write {start : SegmentRef} (hsegment : start.segment < a.segments.length) (len : ℕ) :
    Erases (span start len) a (a.write start len fun _ => Word.null) := by
  refine ⟨Arena.length_write _ _ _ _, funext fun i => Arena.len_write _ _ _ _ i, ?_, ?_⟩
  · rintro r ⟨hr, hle, hlt⟩
    exact Arena.word_write_of_mem _ _ _ _ hsegment hr hle hlt
  · intro r hr
    exact Arena.word_write_of_not_mem _ _ _ _ hr

end Erases

/-! ## Programs that erase -/

variable {ε : Type}

/-- The program succeeds and erases just these words. -/
def Nulls (x : Nullifier.ClearM ε Unit) (S : Set SegmentRef) (s : ClearState) : Prop :=
  ∃ s', x s = .ok () s' ∧ Erases S s.arena s'.arena

section Nulls

variable {S T : Set SegmentRef} {s : ClearState} {x : Nullifier.ClearM ε Unit}

lemma Nulls.bind {y : Nullifier.ClearM ε Unit} (hx : Nulls x S s)
    (hy : ∀ s', Erases S s.arena s'.arena → Nulls y T s') : Nulls (x >>= fun _ => y) (S ∪ T) s := by
  obtain ⟨s', hrun, hs'⟩ := hx
  obtain ⟨s'', hrun', hs''⟩ := hy s' hs'
  exact ⟨s'', (bind_of_ok hrun).trans hrun', hs'.trans hs''⟩

lemma Nulls.of_subset (h : Nulls x S s) (hsub : T ⊆ S)
    (hnull : ∀ r ∈ S, r ∉ T → s.arena.word r = Word.null) : Nulls x T s := by
  obtain ⟨s', hrun, hs'⟩ := h
  exact ⟨s', hrun, hs'.of_subset hsub hnull⟩

lemma Nulls.congr (h : Nulls x S s) (heq : S = T) : Nulls x T s := heq ▸ h

/-- There is nothing to do for words that are null. -/
lemma nulls_pure (h : ∀ r ∈ S, s.arena.word r = Word.null) :
    Nulls (pure () : Nullifier.ClearM ε Unit) S s :=
  ⟨s, rfl, .of_null h⟩

/-- A loop erases what its rounds erase. -/
lemma nulls_forRange {n : ℕ} {body : ℕ → Nullifier.ClearM ε Unit} (W : ℕ → Set SegmentRef)
    (hbody : ∀ k < n, ∀ s', Erases {r | ∃ j < k, r ∈ W j} s.arena s'.arena →
      Nulls (body k) (W k) s') :
    Nulls (Prog.forRange n body) {r | ∃ j < n, r ∈ W j} s := by
  induction n with
  | zero =>
    refine nulls_pure ?_
    rintro r ⟨j, hj, -⟩
    exact absurd hj (Nat.not_lt_zero j)
  | succ n ih =>
    refine (Nulls.bind (ih fun k hk => hbody k (Nat.lt_succ_of_lt hk))
      (hbody n (Nat.lt_succ_self n))).congr ?_
    ext r
    constructor
    · rintro (⟨j, hj, hr⟩ | hr)
      · exact ⟨j, Nat.lt_succ_of_lt hj, hr⟩
      · exact ⟨n, Nat.lt_succ_self n, hr⟩
    · rintro ⟨j, hj, hr⟩
      rcases Nat.lt_succ_iff_lt_or_eq.1 hj with hj | rfl
      · exact Or.inl ⟨j, hj, hr⟩
      · exact Or.inr hr

variable {self : Nullifier ε} {α : Type}

/-- Run the part that only builds. -/
lemma build_of_ok {y : BuildM α} {f : α → Nullifier.ClearM ε Unit} {v : α} {a : Arena}
    (h : y s.arena = .ok v a) : self.build y f s = f v { s with arena := a } := by
  have hrun : (Nullifier.building y : Nullifier.ClearM ε (Except Error α)) s =
      .ok (.ok v) { s with arena := a } := by
    simp only [Nullifier.building, Prog.zoom, Prog.attempt, h]
  exact bind_of_ok hrun

lemma nulls_build {y : BuildM α} {f : α → Nullifier.ClearM ε Unit} {v : α} {a : Arena}
    (h : y s.arena = .ok v a) (ha : Erases S s.arena a)
    (hf : Nulls (f v) T { s with arena := a }) : Nulls (self.build y f) (S ∪ T) s := by
  obtain ⟨s', hrun, hs'⟩ := hf
  exact ⟨s', (build_of_ok h).trans hrun, ha.trans hs'⟩

/-- The part that builds only looks. -/
lemma nulls_build_read {y : BuildM α} {f : α → Nullifier.ClearM ε Unit} {v : α}
    (h : y s.arena = .ok v s.arena) (hf : Nulls (f v) S s) : Nulls (self.build y f) S s := by
  obtain ⟨s', hrun, hs'⟩ := hf
  exact ⟨s', (build_of_ok h).trans hrun, hs'⟩

lemma read_of_lt {r : SegmentRef} {a : Arena} (h : r.pos < a.len r.segment) :
    (Arena.read r : BuildM Word) a = .ok (a.word r) a :=
  if_pos h

lemma clearSection_of_le {builder : ObjectBuilder} {start : SegmentRef} {len : ℕ} {a : Arena}
    (h : start.pos + len ≤ a.len start.segment) :
    builder.clearSection start len a = .ok () (a.write start len fun _ => Word.null) :=
  if_pos h

lemma setPtr_of_lt {builder : ObjectBuilder} {ptr : SegmentRef} {value : WirePtr} {a : Arena}
    (h : ptr.pos < a.len ptr.segment) :
    (builder.setPtr ptr value : BuildM Unit) a = .ok () (a.write ptr 1 fun _ => value) :=
  if_pos h

/-- A section of words is cleared. -/
lemma nulls_clearSection {builder : ObjectBuilder} {start : SegmentRef} {len : ℕ}
    (hsegment : start.segment < s.arena.segments.length)
    (h : start.pos + len ≤ s.arena.len start.segment) :
    Nulls (self.build (builder.clearSection start len) pure) (span start len) s := by
  have hrun : Nulls (self.build (builder.clearSection start len) pure) (span start len ∪ ∅) s :=
    nulls_build (clearSection_of_le h) (Erases.write hsegment len)
      (nulls_pure fun r hr => absurd hr (Set.notMem_empty r))
  exact hrun.congr (Set.union_empty _)

end Nulls

/-! ## Sections of pointers -/

/-- What the walk finds behind the lists of structs of the tree, where it takes words for
structs, are words of their segments, and they are null or below the list itself. -/
def Tree.Tidy (a : Arena) : Tree → Prop
  | .null => True
  | .capability _ => True
  | .object shape start count _ ptrs =>
    (∀ size n, shape = .list (.inlineComposite size) n →
      start.pos + size.total * count.get ≤ a.len start.segment ∧
      ∀ r ∈ span (start.offset (size.total * n.get)) (size.total * count.get - size.total * n.get),
        a.word r = Word.null ∨ ∃ k, r ∈ (ptrs k).words) ∧
    ∀ k, (ptrs k).Tidy a

/-- A tree stays tidy while null words stay null. -/
lemma Tree.Tidy.mono {a a' : Arena} {tree : Tree} (h : tree.Tidy a) (hlen : a'.len = a.len)
    (hnull : ∀ r, a.word r = Word.null → a'.word r = Word.null) : tree.Tidy a' := by
  induction tree with
  | null | capability => trivial
  | object shape start count pads ptrs ih =>
    refine ⟨?_, fun k => ih k (h.2 k)⟩
    intro size n hshape
    obtain ⟨hend, hbehind⟩ := h.1 size n hshape
    rw [hlen]
    exact ⟨hend, fun r hr => (hbehind r hr).imp_left (hnull r)⟩

lemma Tree.Tidy.erases {S : Set SegmentRef} {a a' : Arena} {tree : Tree} (h : tree.Tidy a)
    (ha : Erases S a a') : tree.Tidy a' :=
  h.mono ha.len_eq fun _ => ha.null_of_null

/-- The pointer with its tree. -/
def Tree.withSlot (tree : Tree) (slot : SegmentRef) : Set SegmentRef := insert slot tree.words

/-- The function clears pointers with this tree. -/
def ClearsTree (clearPtr : ObjectBuilder → SegmentRef → Nullifier.ClearM ε Unit) (tree : Tree) :
    Prop :=
  ∀ builder slot s, tree.Below s.arena slot → s.arena.word slot ≠ Word.null →
    tree.Separate slot → tree.Tidy s.arena → Nulls (clearPtr builder slot) (tree.withSlot slot) s

section Sections

variable {self : Nullifier ε} {s : ClearState} {builder : ObjectBuilder}
  {clearPtr : ObjectBuilder → SegmentRef → Nullifier.ClearM ε Unit}

/-- Pointers with trees that have no word in common, one after the other. -/
lemma nulls_clearPtrSection {place : SegmentRef} {len : ℕ} (t : ℕ → Tree)
    (hclear : ∀ k < len, ClearsTree clearPtr (t k))
    (hbelow : ∀ k < len, (t k).Below s.arena (place.offset k))
    (hseparate : ∀ k < len, (t k).Separate (place.offset k))
    (htidy : ∀ k < len, (t k).Tidy s.arena)
    (hapart : ∀ j < len, ∀ k < len, j ≠ k →
      Disjoint ((t j).withSlot (place.offset j)) ((t k).withSlot (place.offset k))) :
    Nulls (self.clearPtrSection clearPtr builder place len)
      {r | ∃ k < len, r ∈ (t k).withSlot (place.offset k)} s := by
  refine nulls_forRange (fun k => (t k).withSlot (place.offset k)) ?_
  intro k hk s' hs'
  have hk' : (t k).Below s'.arena (place.offset k) := by
    refine (hbelow k hk).agree (hs'.agrees ?_)
    rw [Set.disjoint_left]
    rintro r hr ⟨j, hj, hr'⟩
    exact Set.disjoint_left.1 (hapart k hk j (hj.trans hk) (Nat.ne_of_gt hj)) hr hr'
  refine nulls_build_read (read_of_lt hk'.slot_lt) ?_
  show Nulls (if (s'.arena.word (place.offset k)).isNull then pure ()
    else clearPtr builder (place.offset k)) _ _
  by_cases hnull : (s'.arena.word (place.offset k)).isNull = true
  · rw [if_pos hnull]
    have hword := Word.isNull_iff.1 hnull
    refine nulls_pure ?_
    rintro r (rfl | hr)
    · exact hword
    · rw [hk'.words_of_null hword] at hr
      exact absurd hr (Set.notMem_empty r)
  · rw [if_neg hnull]
    exact hclear k hk builder _ s' hk'
      (fun hword => hnull (Word.isNull_iff.2 hword)) (hseparate k hk) ((htidy k hk).erases hs')

/-- Null words are taken for pointers, and nothing happens. -/
lemma nulls_clearPtrSection_of_null {place : SegmentRef} {len : ℕ}
    (hlt : place.pos + len ≤ s.arena.len place.segment)
    (hnull : ∀ k < len, s.arena.word (place.offset k) = Word.null) :
    Nulls (self.clearPtrSection clearPtr builder place len) ∅ s := by
  refine (nulls_clearPtrSection (fun _ => .null) ?_ ?_ ?_ ?_ ?_).of_subset
    (Set.empty_subset _) ?_
  · intro k _ builder slot s hbelow hsome
    exact absurd hbelow.2 hsome
  · intro k hk
    exact ⟨(Nat.add_lt_add_left hk _).trans_le hlt, hnull k hk⟩
  · intro k _
    trivial
  · intro k _
    trivial
  · intro j _ k _ hjk
    rw [Set.disjoint_left]
    rintro r (rfl | hr) (hr' | hr')
    · exact hjk (offset_inj hr')
    · exact absurd hr' (Set.notMem_empty _)
    · exact absurd hr (Set.notMem_empty _)
    · exact absurd hr (Set.notMem_empty _)
  · rintro r ⟨k, hk, rfl | hr⟩ -
    · exact hnull k hk
    · exact absurd hr (Set.notMem_empty r)

end Sections

/-! ## Blocks -/

/-- The trees below a block, in an arena: they are there, and they have no word in common with
each other or with the block and its tag. -/
structure Blocks (a : Arena) (shape : Shape) (start : SegmentRef) (ptrs : shape.Slot → Tree) :
    Prop where
  segment_lt : start.segment < a.segments.length
  block_le : start.pos + shape.words ≤ a.len start.segment
  below : ∀ k : shape.Slot, (ptrs k).Below a (start.offset k.1)
  tidy : ∀ k, (ptrs k).Tidy a
  separate : ∀ k : shape.Slot, (ptrs k).Separate (start.offset k.1)
  apart : ∀ k, Disjoint (ptrs k).words (shape.tag start ∪ span start shape.words)
  pairwise : ∀ j k, j ≠ k → Disjoint (ptrs j).words (ptrs k).words

/-- The words of a block with its tag and all that is below it. -/
def blockWords (shape : Shape) (start : SegmentRef) (ptrs : shape.Slot → Tree) : Set SegmentRef :=
  shape.tag start ∪ span start shape.words ∪ {r | ∃ k, r ∈ (ptrs k).words}

namespace Blocks

variable {a : Arena} {shape : Shape} {start : SegmentRef} {ptrs : shape.Slot → Tree}

lemma mem_span {k : ℕ} (hk : k < shape.words) : start.offset k ∈ span start shape.words :=
  ⟨rfl, Nat.le_add_right _ _, Nat.add_lt_add_left hk _⟩

/-- Different pointers of the block have nothing in common. -/
lemma disjoint (h : Blocks a shape start ptrs) {j k : ℕ} (hj : j < shape.words)
    (hk : k < shape.words) (hjk : j ≠ k) :
    Disjoint ((Tree.childAt ptrs j).withSlot (start.offset j))
      ((Tree.childAt ptrs k).withSlot (start.offset k)) := by
  have hout : ∀ {i l : ℕ}, l < shape.words → start.offset l ∉ (Tree.childAt ptrs i).words := by
    intro i l hl hmem
    obtain ⟨k', hk'⟩ := Tree.mem_words_childAt hmem
    exact Set.disjoint_left.1 (h.apart k') hk' (Or.inr (mem_span hl))
  rw [Set.disjoint_left]
  rintro r (rfl | hr) (hr' | hr')
  · exact hjk (offset_inj hr')
  · exact hout hj hr'
  · rw [hr'] at hr
    exact hout hk hr
  · by_cases hslot : j < shape.words ∧ shape.isPtr j = true
    · by_cases hslot' : k < shape.words ∧ shape.isPtr k = true
      · rw [Tree.childAt_of_slot ptrs hslot] at hr
        rw [Tree.childAt_of_slot ptrs hslot'] at hr'
        have hne : (⟨j, hslot⟩ : shape.Slot) ≠ ⟨k, hslot'⟩ := fun heq =>
          hjk (congrArg Subtype.val heq)
        exact Set.disjoint_left.1 (h.pairwise _ _ hne) hr hr'
      · rw [Tree.childAt, dif_neg hslot'] at hr'
        exact absurd hr' (Set.notMem_empty r)
    · rw [Tree.childAt, dif_neg hslot] at hr
      exact absurd hr (Set.notMem_empty r)

/-- A run of pointers of the block, in a later arena where they and their trees are unharmed. -/
lemma nulls_section {self : Nullifier ε} {s : ClearState} {builder : ObjectBuilder}
    {clearPtr : ObjectBuilder → SegmentRef → Nullifier.ClearM ε Unit} {S : Set SegmentRef}
    (h : Blocks a shape start ptrs) (hclear : ∀ k, ClearsTree clearPtr (ptrs k))
    (ha : Erases S a s.arena) {o len : ℕ}
    (hptr : ∀ j < len, o + j < shape.words ∧ shape.isPtr (o + j) = true)
    (hout : ∀ j < len, Disjoint ((Tree.childAt ptrs (o + j)).withSlot (start.offset (o + j))) S) :
    Nulls (self.clearPtrSection clearPtr builder (start.offset o) len)
      {r | ∃ j < len, r ∈ (Tree.childAt ptrs (o + j)).withSlot (start.offset (o + j))} s := by
  have hsection : Nulls (self.clearPtrSection clearPtr builder (start.offset o) len)
      {r | ∃ j < len, r ∈ (Tree.childAt ptrs (o + j)).withSlot ((start.offset o).offset j)} s := by
    refine nulls_clearPtrSection (fun j => Tree.childAt ptrs (o + j)) ?_ ?_ ?_ ?_ ?_
    · intro j hj
      rw [Tree.childAt_of_slot ptrs (hptr j hj)]
      exact hclear _
    · intro j hj
      rw [offset_offset]
      have hdisjoint := hout j hj
      rw [Tree.childAt_of_slot ptrs (hptr j hj)] at hdisjoint ⊢
      exact (h.below ⟨o + j, hptr j hj⟩).agree (ha.agrees hdisjoint)
    · intro j hj
      rw [offset_offset, Tree.childAt_of_slot ptrs (hptr j hj)]
      exact h.separate ⟨o + j, hptr j hj⟩
    · intro j hj
      rw [Tree.childAt_of_slot ptrs (hptr j hj)]
      exact (h.tidy _).erases ha
    · intro i hi j hj hij
      rw [offset_offset, offset_offset]
      exact h.disjoint (hptr i hi).1 (hptr j hj).1 (by omega)
  simpa only [offset_offset] using hsection

end Blocks

section Objects

variable {self : Nullifier ε} {s : ClearState} {builder : ObjectBuilder}
  {clearPtr : ObjectBuilder → SegmentRef → Nullifier.ClearM ε Unit} {start : SegmentRef}

/-- A struct and what is below it. -/
lemma nulls_clearStruct {size : StructSize} {ptrs : (Shape.struct size).Slot → Tree}
    (h : Blocks s.arena (.struct size) start ptrs) (hclear : ∀ k, ClearsTree clearPtr (ptrs k)) :
    Nulls (self.clearStruct clearPtr builder start size) (blockWords (.struct size) start ptrs) s := by
  have hptr : ∀ j < size.ptrs, size.data + j < (Shape.struct size).words ∧
      (Shape.struct size).isPtr (size.data + j) = true := by
    intro j hj
    exact ⟨Nat.add_lt_add_left hj _, decide_eq_true (Nat.le_add_right _ _)⟩
  have hsection : Nulls (self.clearPtrSection clearPtr builder (start.offset size.data) size.ptrs)
      _ s :=
    h.nulls_section hclear (Erases.of_null fun r hr => absurd hr (Set.notMem_empty r)) hptr
      fun j _ => Set.disjoint_empty _
  have hblock : ∀ (S : Set SegmentRef) (s' : ClearState), Erases S s.arena s'.arena →
      Nulls (self.build (builder.clearStructSection start size) pure) (span start size.total) s' := by
    intro S s' ha
    have hsegment := h.segment_lt
    have hle := h.block_le
    rw [← ha.length_eq] at hsegment
    rw [← ha.len_eq] at hle
    exact nulls_clearSection hsegment hle
  refine (hsection.bind (hblock _)).congr ?_
  ext r
  constructor
  · rintro (⟨j, hj, rfl | hr⟩ | hr)
    · exact Or.inl (Or.inr (Blocks.mem_span (hptr j hj).1))
    · exact Or.inr (Tree.mem_words_childAt hr)
    · exact Or.inl (Or.inr hr)
  · rintro ((hr | hr) | ⟨⟨k, hk⟩, hr⟩)
    · exact absurd hr (Set.notMem_empty r)
    · exact Or.inr hr
    · have hlt : k < size.data + size.ptrs := hk.1
      have hle : size.data ≤ k := of_decide_eq_true hk.2
      refine Or.inl ⟨k - size.data, by omega, Or.inr ?_⟩
      rw [Nat.add_sub_cancel' hle, Tree.childAt_of_slot ptrs hk]
      exact hr

/-- A list of pointers. -/
lemma nulls_clearPointers {count : ElementCount} {ptrs : (Shape.list .pointer count).Slot → Tree}
    (h : Blocks s.arena (.list .pointer count) start ptrs)
    (hclear : ∀ k, ClearsTree clearPtr (ptrs k)) :
    Nulls (self.clearList clearPtr builder start .pointer count)
      (blockWords (.list .pointer count) start ptrs) s := by
  have hwords : (Shape.list .pointer count).words = count.get := by
    show (8 * 8 * count.get + 63) / 64 = _
    omega
  have hptr : ∀ j < count.get, 0 + j < (Shape.list .pointer count).words ∧
      (Shape.list .pointer count).isPtr (0 + j) = true := by
    intro j hj
    rw [hwords, Nat.zero_add]
    exact ⟨hj, rfl⟩
  have hsection : Nulls (self.clearPtrSection clearPtr builder (start.offset 0) count.get) _ s :=
    h.nulls_section hclear (Erases.of_null fun r hr => absurd hr (Set.notMem_empty r)) hptr
      fun j _ => Set.disjoint_empty _
  refine hsection.congr ?_
  ext r
  constructor
  · rintro ⟨j, hj, rfl | hr⟩
    · exact Or.inl (Or.inr (Blocks.mem_span (hptr j hj).1))
    · exact Or.inr (Tree.mem_words_childAt hr)
  · rintro ((hr | ⟨hsegment, hle, hlt⟩) | ⟨⟨k, hk⟩, hr⟩)
    · exact absurd hr (Set.notMem_empty r)
    · refine ⟨r.pos - start.pos, ?_, Or.inl ?_⟩
      · rw [hwords] at hlt
        omega
      · refine SegmentRef.ext hsegment ?_
        show r.pos = start.pos + (0 + (r.pos - start.pos))
        omega
    · refine ⟨k, ?_, Or.inr ?_⟩
      · rw [← hwords]
        exact hk.1
      · rw [Nat.zero_add, Tree.childAt_of_slot ptrs hk]
        exact hr

/-- A list without pointers. -/
lemma nulls_clearData {size : ElementSize} {count : ElementCount} (hbits : size.bits ≤ 64)
    (hcomposite : size.isInlineComposite = false)
    (hsegment : start.segment < s.arena.segments.length)
    (hle : start.pos + (Shape.list size count).words ≤ s.arena.len start.segment) :
    Nulls (self.build (builder.clearListSection start size count) pure)
      (span start (Shape.list size count).words) s := by
  obtain ⟨hwords, hlt⟩ := ElementSize.totalWords_of_bits_le hbits count
  have hobject : size.objectWords count.get = (Shape.list size count).words := by
    have htag : (if size.isInlineComposite = true then 1 else 0) = 0 := by
      rw [hcomposite]
      rfl
    rw [ElementSize.objectWords, htag, Nat.add_zero, Nat.mod_eq_of_lt (by omega), hwords]
    rfl
  rcases Nat.eq_zero_or_pos (Shape.list size count).words with hzero | hpos
  · have hrun : builder.clearListSection start size count = pure () := by
      rw [ObjectBuilder.clearListSection, hobject, hzero]
      rfl
    rw [hrun, hzero]
    refine nulls_build_read (pure_apply _ _) (nulls_pure ?_)
    rintro r ⟨-, hge, hr⟩
    omega
  · have hsmall : (Shape.list size count).words < 2 ^ 29 := by
      rw [← hobject, ElementSize.objectWords, hcomposite]
      exact (Nat.mod_le _ _).trans_lt hlt
    have hnew : AllocLen.new (size.objectWords count.get) = some ⟨_, hpos, hsmall⟩ := by
      rw [hobject]
      exact dif_pos ⟨hpos, hsmall⟩
    have hrun : builder.clearListSection start size count =
        builder.clearSection start (Shape.list size count).words := by
      rw [ObjectBuilder.clearListSection, hnew]
      dsimp only
      rw [if_neg (by rw [hcomposite]; exact Bool.false_ne_true)]
    rw [hrun]
    exact nulls_clearSection hsegment hle

/-- The words of a list of structs, with its tag, are cleared. -/
lemma nulls_clearTagged {size : StructSize} {count : ElementCount} (hpos : 0 < start.pos)
    (hsegment : start.segment < s.arena.segments.length)
    (hle : start.pos + size.total * count.get ≤ s.arena.len start.segment) :
    Nulls (self.build (builder.clearListSection start (.inlineComposite size) count) pure)
      (span ⟨start.segment, start.pos - 1⟩ (size.total * count.get + 1)) s := by
  have hlen := s.arena.len_lt start.segment
  have hobject : (ElementSize.inlineComposite size).objectWords count.get =
      size.total * count.get + 1 := by
    show ((size.total * 64 * count.get + 63) / 64 % 2 ^ 32 + 1) % 2 ^ 32 = _
    rw [Nat.mul_right_comm]
    omega
  have hnew : AllocLen.new ((ElementSize.inlineComposite size).objectWords count.get) =
      some ⟨size.total * count.get + 1, Nat.succ_pos _, by omega⟩ := by
    rw [hobject]
    exact dif_pos ⟨Nat.succ_pos _, by omega⟩
  have hrun : builder.clearListSection start (.inlineComposite size) count =
      builder.clearSection ⟨start.segment, start.pos - 1⟩ (size.total * count.get + 1) := by
    rw [ObjectBuilder.clearListSection, hnew]
    show (Prog.require (0 < start.pos) >>= fun _ => _) = _
    rw [require_of hpos, pure_bind_eq]
  rw [hrun]
  refine nulls_clearSection hsegment ?_
  show start.pos - 1 + (size.total * count.get + 1) ≤ s.arena.len start.segment
  omega

/-- The pointers of the structs of a list are at multiples of the size. -/
lemma isPtr_of_element {size : StructSize} {n : ElementCount} {i j : ℕ} (hi : i < n.get)
    (hj : j < size.ptrs) :
    size.total * i + size.data + j < (Shape.list (.inlineComposite size) n).words ∧
      (Shape.list (.inlineComposite size) n).isPtr (size.total * i + size.data + j) = true := by
  have hpart := Shape.partAt_element size hi
  have hlt : size.data + j < size.total := Nat.add_lt_add_left hj _
  have hptr := hpart.isPtr _ hlt
  have hle := hpart.le
  rw [Nat.add_assoc]
  exact ⟨by omega, hptr.trans (decide_eq_true (Nat.le_add_right _ _))⟩

/-- Every pointer of a list of structs is one of a struct. -/
lemma element_of_isPtr {size : StructSize} {n : ElementCount} {k : ℕ}
    (hk : k < (Shape.list (.inlineComposite size) n).words ∧
      (Shape.list (.inlineComposite size) n).isPtr k = true) :
    ∃ i < n.get, ∃ j < size.ptrs, k = size.total * i + size.data + j := by
  have hlt : k < size.total * n.get := by
    rw [← Shape.words_structs]
    exact hk.1
  have hptr : size.data ≤ k % size.total := of_decide_eq_true hk.2
  have htotal : 0 < size.total := by
    rcases Nat.eq_zero_or_pos size.total with hzero | hpos
    · rw [hzero, Nat.zero_mul] at hlt
      exact absurd hlt (Nat.not_lt_zero k)
    · exact hpos
  have hmod : k % size.total < size.data + size.ptrs := Nat.mod_lt k htotal
  refine ⟨k / size.total, Nat.div_lt_of_lt_mul hlt, k % size.total - size.data, by omega, ?_⟩
  have hdiv := Nat.div_add_mod k size.total
  omega

/-- A list of structs, behind which the walk finds null words or words of its own trees. -/
lemma nulls_clearStructs {size : StructSize} {n count : ElementCount}
    {ptrs : (Shape.list (.inlineComposite size) n).Slot → Tree} (hpos : 0 < start.pos)
    (h : Blocks s.arena (.list (.inlineComposite size) n) start ptrs)
    (hclear : ∀ k, ClearsTree clearPtr (ptrs k))
    (hcount : count.get = size.total * n.get ∨ count = n)
    (hle : start.pos + size.total * count.get ≤ s.arena.len start.segment)
    (hbehind : ∀ r ∈ span (start.offset (size.total * n.get))
        (size.total * count.get - size.total * n.get),
      s.arena.word r = Word.null ∨ ∃ k, r ∈ (ptrs k).words) :
    Nulls (self.clearList clearPtr builder start (.inlineComposite size) count)
      (blockWords (.list (.inlineComposite size) n) start ptrs) s := by
  have hlen := s.arena.len_lt start.segment
  have hwords := Shape.words_structs size n
  have htotal : 0 < size.total → n.get ≤ count.get := by
    intro htotal
    rcases hcount with hcount | rfl
    · rw [hcount]
      exact Nat.le_mul_of_pos_left _ htotal
    · exact Nat.le_refl _
  have hmono : size.total * n.get ≤ size.total * count.get := by
    rcases Nat.eq_zero_or_pos size.total with hzero | htotal'
    · rw [hzero, Nat.zero_mul, Nat.zero_mul]
    · exact Nat.mul_le_mul_left _ (htotal htotal')
  -- what the round for a struct erases, and nothing for what is no struct
  let W : ℕ → Set SegmentRef := fun i =>
    {r | i < n.get ∧ ∃ j < size.ptrs,
      r ∈ (Tree.childAt ptrs (size.total * i + size.data + j)).withSlot
        (start.offset (size.total * i + size.data + j))}
  have hsub : ∀ i < n.get, ∀ j < size.ptrs,
      (Tree.childAt ptrs (size.total * i + size.data + j)).withSlot
        (start.offset (size.total * i + size.data + j)) ⊆ W i :=
    fun i hi j hj r hr => ⟨hi, j, hj, hr⟩
  have hchild : ∀ k r, r ∈ (ptrs k).words → ∃ i < n.get, i < count.get ∧ r ∈ W i := by
    rintro ⟨k, hk⟩ r hr
    obtain ⟨i, hi, j, hj, rfl⟩ := element_of_isPtr hk
    have hle' := htotal (Nat.lt_of_lt_of_le (Nat.lt_of_le_of_lt (Nat.zero_le j) hj)
      (Nat.le_add_left _ _))
    refine ⟨i, hi, hi.trans_le hle', hsub i hi j hj (Or.inr ?_)⟩
    rw [Tree.childAt_of_slot ptrs hk]
    exact hr
  have hloop : Nulls (Prog.forRange count.get fun k =>
      self.clearPtrSection clearPtr builder (start.offset (size.total * k + size.data)) size.ptrs)
      {r | ∃ i < count.get, r ∈ W i} s := by
    refine nulls_forRange W ?_
    intro i hi s' ha
    by_cases hreal : i < n.get
    · refine (h.nulls_section hclear ha (fun j hj => isPtr_of_element hreal hj) ?_).congr ?_
      · intro j hj
        rw [Set.disjoint_left]
        rintro r hr ⟨i', hi', hreal', j', hj', hr'⟩
        refine Set.disjoint_left.1 (h.disjoint (isPtr_of_element hreal hj).1
          (isPtr_of_element hreal' hj').1 ?_) hr hr'
        have hstep : size.total * i' + size.total ≤ size.total * i := Nat.mul_le_mul_left _ hi'
        have hlt : size.data + j' < size.total := Nat.add_lt_add_left hj' _
        omega
      · ext r
        exact ⟨fun hr => ⟨hreal, hr⟩, fun hr => hr.2⟩
    · -- the walk takes words behind the list for a struct
      refine (nulls_clearPtrSection_of_null ?_ ?_).congr ?_
      · show start.pos + (size.total * i + size.data) + size.ptrs ≤ s'.arena.len start.segment
        rw [ha.len_eq]
        have hstep := size.mul_succ_le hi
        have hsum := size.total_eq
        omega
      · intro j hj
        rw [offset_offset]
        have hstep := size.mul_succ_le hi
        have hafter : size.total * n.get ≤ size.total * i :=
          Nat.mul_le_mul_left _ (Nat.not_lt.1 hreal)
        have hsum := size.total_eq
        rcases hbehind (start.offset (size.total * i + size.data + j))
            ⟨rfl, by show _ + _ ≤ _ + _; omega, by show _ + _ < _ + _ + _; omega⟩ with
          hnull | ⟨k, hk⟩
        · exact ha.null_of_null hnull
        · obtain ⟨i', hi', -, hr⟩ := hchild k _ hk
          exact ha.null _ ⟨i', Nat.lt_of_lt_of_le hi' (Nat.not_lt.1 hreal), hr⟩
      · ext r
        exact ⟨fun hr => absurd hr (Set.notMem_empty r), fun hr => absurd hr.1 hreal⟩
  have hrest : ∀ (S : Set SegmentRef) (s' : ClearState), Erases S s.arena s'.arena →
      Nulls (self.build (builder.clearListSection start (.inlineComposite size) count) pure)
        (span ⟨start.segment, start.pos - 1⟩ (size.total * count.get + 1)) s' := by
    intro S s' ha
    have hsegment := h.segment_lt
    have hle' := hle
    rw [← ha.length_eq] at hsegment
    rw [← ha.len_eq] at hle'
    exact nulls_clearTagged hpos hsegment hle'
  have hassert : size.total * count.get ≤ U29.maxValue := by
    rw [U29.maxValue]
    omega
  have hrun := hloop.bind (hrest _)
  rw [← pure_bind_eq () fun _ => Prog.forRange count.get _ >>= _,
    ← assert_of hassert] at hrun
  refine Nulls.of_subset hrun ?_ ?_
  · rintro r ((rfl | ⟨hsegment, hge, hlt⟩) | ⟨k, hk⟩)
    · exact Or.inr ⟨rfl, Nat.le_refl _, by show _ < _ + _; omega⟩
    · refine Or.inr ⟨hsegment, ?_, ?_⟩
      · show start.pos - 1 ≤ r.pos
        omega
      · show r.pos < start.pos - 1 + (size.total * count.get + 1)
        omega
    · obtain ⟨i, -, hi, hr⟩ := hchild k r hk
      exact Or.inl ⟨i, hi, hr⟩
  · rintro r (⟨i, hi, hreal, j, hj, rfl | hr⟩ | ⟨hsegment, hge, hlt⟩) hnot
    · exact absurd (Or.inl (Or.inr (Blocks.mem_span (isPtr_of_element hreal hj).1))) hnot
    · exact absurd (Or.inr (Tree.mem_words_childAt hr)) hnot
    · replace hsegment : r.segment = start.segment := hsegment
      replace hge : start.pos - 1 ≤ r.pos := hge
      replace hlt : r.pos < start.pos - 1 + (size.total * count.get + 1) := hlt
      have hnottag : r.pos ≠ start.pos - 1 := fun heq =>
        hnot (Or.inl (Or.inl (SegmentRef.ext hsegment heq)))
      have hafter : start.pos + size.total * n.get ≤ r.pos := by
        by_contra hbefore
        refine hnot (Or.inl (Or.inr ⟨hsegment, by omega, ?_⟩))
        omega
      rcases hbehind r ⟨hsegment, hafter, by show _ < _ + _ + _; omega⟩ with hnull | hk
      · exact hnull
      · exact absurd (Or.inr hk) hnot

end Objects

end Recapn.Ptr

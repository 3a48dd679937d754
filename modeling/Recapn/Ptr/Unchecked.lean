/-
# Pointers that are vouched for

An unchecked reader follows pointers in plain memory: there are no segments, no bounds and no
limit, so that all pointers it meets have to be near ones, and whoever made it vouches that their
objects are there.  What is read is the same as in a message whose pointers are all near.
-/
import Recapn.Ptr.TotalSize

namespace Recapn.Ptr

open Recapn.Lib Recapn.Lib.Prog

/-- The words in front of the block: the tag of a list of structs. -/
def Shape.tagWords : Shape → ℕ
  | list (.inlineComposite _) _ => 1
  | _ => 0

lemma Shape.size_eq (shape : Shape) : shape.size = shape.words + shape.tagWords := by
  cases shape with
  | struct => rfl
  | list size count => cases size <;> rfl

/-- The near pointer at a position leads to an object of the shape, with its block at `start`. -/
def Shape.PointedAt (memory : ℕ → Word) (pos start : ℕ) : Shape → Prop
  | struct size => WirePtr.kind (memory pos) = .struct ∧ StructPtr.size (memory pos) = size ∧
      (pos : ℤ) + 1 + (StructPtr.offset (memory pos)).get = start
  | list (.inlineComposite size) count => WirePtr.kind (memory pos) = .list ∧
      ListPtr.elementSize (memory pos) = .inlineComposite ∧
      (ListPtr.elementCount (memory pos)).get + 1 < 2 ^ 29 ∧
      (pos : ℤ) + 1 + (ListPtr.offset (memory pos)).get + 1 = start ∧
      WirePtr.kind (memory (start - 1)) = .struct ∧ StructPtr.size (memory (start - 1)) = size ∧
      StructPtr.inlineCompositeElementCount (memory (start - 1)) = count ∧
      1 ≤ start ∧ count.get * size.total ≤ (ListPtr.elementCount (memory pos)).get
  | list size count => WirePtr.kind (memory pos) = .list ∧
      ListPtr.elementSize (memory pos) = size.asPtrSize ∧ ListPtr.elementCount (memory pos) = count ∧
      (pos : ℤ) + 1 + (ListPtr.offset (memory pos)).get = start

/-- The object lies in the words from `lo` to `hi`, with all the words that the pointer says a list of
structs has.  One without any words is at its pointer, or right behind it. -/
def Shape.Within (memory : ℕ → Word) (lo hi pos start : ℕ) (shape : Shape) : Prop :=
  (shape.size = 0 ∧ pos ≤ start ∧ start ≤ pos + 1) ∨
    lo + shape.tagWords ≤ start ∧ start + shape.words ≤ hi ∧
      (shape.tagWords = 1 → start + (ListPtr.elementCount (memory pos)).get ≤ hi)

/-- The pointer at a position of the memory reads as the value without checks.  The objects below
it lie in the words from `lo` to `hi`. -/
inductive ReadsUnchecked (memory : ℕ → Word) (lo hi : ℕ) : ℕ → Value → Prop
  | null {pos : ℕ} (hnull : memory pos = Word.null) : ReadsUnchecked memory lo hi pos .null
  | object {pos start : ℕ} {shape : Shape} {data : shape.Data → Word} {ptrs : shape.Slot → Value}
      (hsome : memory pos ≠ Word.null) (hpointed : shape.PointedAt memory pos start)
      (hwithin : shape.Within memory lo hi pos start) (hdata : ∀ k, memory (start + k.1) = data k)
      (hptrs : ∀ k, ReadsUnchecked memory lo hi (start + k.1) (ptrs k)) :
      ReadsUnchecked memory lo hi pos (.object shape data ptrs)

/-- All pointers at and below a position are near ones, or capabilities, and their objects lie in the
words from `lo` to `hi`. -/
inductive Near (memory : ℕ → Word) (lo hi : ℕ) : ℕ → Prop
  | null {pos : ℕ} (hnull : memory pos = Word.null) : Near memory lo hi pos
  | capability {pos : ℕ} (hkind : WirePtr.kind (memory pos) = .other) : Near memory lo hi pos
  | object {pos start : ℕ} {shape : Shape} (hpointed : shape.PointedAt memory pos start)
      (hwithin : shape.Within memory lo hi pos start)
      (hptrs : ∀ k < shape.words, shape.isPtr k = true → Near memory lo hi (start + k)) :
      Near memory lo hi pos

section PointedAt

variable {memory memory' : ℕ → Word} {shape shape' : Shape} {pos start start' lo hi : ℕ}

/-- The words of the block are between the bounds. -/
lemma Shape.Within.mem (h : shape.Within memory lo hi pos start) {k : ℕ} (hk : k < shape.words) :
    lo ≤ start + k ∧ start + k < hi := by
  have hsize := shape.size_eq
  rcases h with ⟨hzero, -⟩ | ⟨hle, hlt⟩ <;> omega

lemma Shape.Within.mono (h : shape.Within memory lo hi pos start) {lo' hi' : ℕ} (hlo : lo' ≤ lo) (hhi : hi ≤ hi') :
    shape.Within memory lo' hi' pos start :=
  h.imp_right fun ⟨hle, hlt, hall⟩ => ⟨by omega, by omega, fun htag => (hall htag).trans hhi⟩

lemma Shape.Within.congr (h : shape.Within memory lo hi pos start) (hpos : memory' pos = memory pos) :
    shape.Within memory' lo hi pos start := by
  unfold Shape.Within at h ⊢
  rwa [hpos]

/-- Whether a pointer leads to an object depends on the pointer, and on the tag of the object. -/
lemma Shape.PointedAt.congr (h : shape.PointedAt memory pos start) (hpos : memory' pos = memory pos)
    (htag : shape.tagWords = 1 → memory' (start - 1) = memory (start - 1)) :
    shape.PointedAt memory' pos start := by
  cases shape with
  | struct =>
    unfold Shape.PointedAt at h ⊢
    rwa [hpos]
  | list size count =>
    cases size with
    | inlineComposite size =>
      unfold Shape.PointedAt at h ⊢
      rwa [hpos, htag rfl]
    | _ =>
      unfold Shape.PointedAt at h ⊢
      rwa [hpos]

/-- The tag is between the bounds as well. -/
lemma Shape.Within.tag (h : shape.Within memory lo hi pos start) (htag : shape.tagWords = 1) :
    lo ≤ start - 1 ∧ start - 1 < hi ∧ start - 1 < start := by
  have hsize := shape.size_eq
  rcases h with ⟨hzero, -⟩ | ⟨hle, hlt⟩ <;> omega

/-- Offsets are relative: memory may be moved. -/
lemma Shape.PointedAt.shift {c : ℕ} (h : shape.PointedAt memory (pos + c) (start + c))
    (hone : shape.tagWords ≤ start) : shape.PointedAt (fun k => memory (k + c)) pos start := by
  cases shape with
  | struct =>
    obtain ⟨hkind, hsize, hstart⟩ := h
    exact ⟨hkind, hsize, by dsimp only; omega⟩
  | list size count =>
    cases size with
    | inlineComposite size =>
      obtain ⟨hkind, hsize, hlt, hstart, htag, htagSize, htagCount, -, hfits⟩ := h
      have hone' : 1 ≤ start := hone
      rw [show start + c - 1 = start - 1 + c by omega] at htag htagSize htagCount
      exact ⟨hkind, hsize, hlt, by dsimp only; omega, htag, htagSize, htagCount, hone', hfits⟩
    | _ =>
      obtain ⟨hkind, hsize, hcount, hstart⟩ := h
      exact ⟨hkind, hsize, hcount, by dsimp only; omega⟩

section Read

open ObjectReader

variable {memory : ℕ → Word} {pos : ℕ}

lemma locationOf_unchecked (hkind : WirePtr.kind (memory pos) ≠ .far) :
    (⟨.unchecked memory⟩ : ObjectReader).locationOf pos none =
      .ok (⟨.unchecked memory⟩, ⟨memory pos, .near pos⟩) none :=
  congrFun (if_neg hkind) none

/-- Unchecked memory has no bounds. -/
lemma readAtLocation_unchecked {offset : SignedSegmentOffset} {start : ℕ} (len : ObjectLen)
    (hstart : (pos : ℤ) + 1 + offset.get = start) :
    (⟨.unchecked memory⟩ : ObjectReader).readAtLocation (.near pos) offset len none =
      .ok (⟨.unchecked memory⟩, start) none := by
  have htoNat : ((pos : ℤ) + 1 + offset.get).toNat = start := by omega
  show Outcome.ok ((⟨.unchecked memory⟩ : ObjectReader), ((pos : ℤ) + 1 + offset.get).toNat) none = _
  rw [htoNat]

/-- A list that is not of structs. -/
lemma readAsListContent_unchecked {start : ℕ} {size : ElementSize}
    (hsize : ListPtr.elementSize (memory pos) ≠ .inlineComposite)
    (helement : (ListPtr.elementSize (memory pos)).toElementSize = size)
    (hstart : (pos : ℤ) + 1 + (ListPtr.offset (memory pos)).get = start) :
    (⟨.unchecked memory⟩ : ObjectReader).readAsListContent (.near pos) (memory pos) none none =
      .ok (⟨.unchecked memory⟩, ⟨start, size, ListPtr.elementCount (memory pos)⟩) none := by
  obtain ⟨len, hlen, -⟩ := new_roundUpBitCount (ListPtr.elementSize (memory pos))
    (ListPtr.elementCount (memory pos))
  have hlimit : ∀ p : Prop, ∀ _ : Decidable p,
      (if p then limitRead (ListPtr.elementCount (memory pos)).get else pure ()) none = .ok () none := by
    intro p _
    by_cases hp : p
    · rw [if_pos hp]
      rfl
    · rw [if_neg hp]
      rfl
  subst helement
  refine (if_neg_apply hsize _ _ _).trans ?_
  rw [checkUpgrade, pure_bind_eq, bind_of_ok (hlimit _ _), hlen, unwrap_some,
    pure_bind_eq, bind_of_ok (readAtLocation_unchecked len hstart)]
  rfl

end Read

lemma Shape.PointedAt.readAsListContent {size : ElementSize} {count : ElementCount}
    (h : (Shape.list size count).PointedAt memory pos start) :
    (⟨.unchecked memory⟩ : ObjectReader).readAsListContent (.near pos) (memory pos) none none =
      .ok (⟨.unchecked memory⟩, ⟨start, size, count⟩) none := by
  rw [ObjectReader.readAsListContent]
  cases size with
  | inlineComposite size =>
    obtain ⟨-, hsize, hlt, hstart, htag, rfl, rfl, hone, hfits⟩ := h
    have htagPos : (pos : ℤ) + 1 + (ListPtr.offset (memory pos)).get = (start - 1 : ℕ) := by omega
    rw [hsize, if_pos rfl, U29.new_of_lt hlt, okOr_some, pure_bind_eq,
      bind_of_ok (readAtLocation_unchecked _ htagPos)]
    dsimp only [ObjectReader.word]
    rw [if_pos htag, ObjectReader.checkUpgrade, pure_bind_eq, if_neg (Nat.not_lt.2 hfits),
      Nat.sub_add_cancel hone]
    by_cases hzero : (StructPtr.size (memory (start - 1))).total = 0
    · rw [if_pos hzero]
      rfl
    · rw [if_neg hzero]
      rfl
  | _ =>
    obtain ⟨-, hsize, rfl, hstart⟩ := h
    exact readAsListContent_unchecked (by rw [hsize]; decide) (by rw [hsize]; rfl) hstart

lemma Shape.PointedAt.kind_list {size : ElementSize} {count : ElementCount}
    (h : (Shape.list size count).PointedAt memory pos start) : WirePtr.kind (memory pos) = .list := by
  cases size <;> exact h.1

/-- **An unchecked reader follows the pointer.** -/
theorem Shape.PointedAt.tryReadTyped (h : shape.PointedAt memory pos start) :
    (⟨.unchecked memory⟩ : ObjectReader).tryReadTyped pos none =
      .ok (⟨.unchecked memory⟩, shape.content start) none := by
  cases shape with
  | struct size =>
    obtain ⟨hkind, rfl, hstart⟩ := h
    rw [ObjectReader.tryReadTyped, bind_of_ok (locationOf_unchecked (by rw [hkind]; decide))]
    dsimp only
    rw [hkind]
    dsimp only
    rw [ObjectReader.readAsStructContent, bind_assoc_eq,
      bind_of_ok (readAtLocation_unchecked _ hstart)]
    rfl
  | list size count =>
    have hkind := h.kind_list
    rw [ObjectReader.tryReadTyped, bind_of_ok (locationOf_unchecked (by rw [hkind]; decide))]
    dsimp only
    rw [hkind]
    dsimp only
    rw [bind_of_ok h.readAsListContent]
    rfl

lemma Shape.PointedAt.tryReadStruct {size : StructSize} (h : (Shape.struct size).PointedAt memory pos start) :
    (⟨.unchecked memory⟩ : ObjectReader).tryReadStruct pos none =
      .ok (⟨.unchecked memory⟩, ⟨start, size⟩) none := by
  obtain ⟨hkind, rfl, hstart⟩ := h
  have htry : ObjectReader.tryStructPtr (memory pos) = pure (memory pos) := if_pos hkind
  rw [ObjectReader.tryReadStruct, bind_of_ok (locationOf_unchecked (by rw [hkind]; decide))]
  dsimp only
  rw [htry, pure_bind_eq, ObjectReader.readAsStructContent,
    bind_of_ok (readAtLocation_unchecked _ hstart)]
  rfl

lemma Shape.PointedAt.tryReadList {size : ElementSize} {count : ElementCount}
    (h : (Shape.list size count).PointedAt memory pos start) :
    (⟨.unchecked memory⟩ : ObjectReader).tryReadList pos none none =
      .ok (⟨.unchecked memory⟩, ⟨start, size, count⟩) none := by
  have hkind := h.kind_list
  have htry : ObjectReader.tryListPtr (memory pos) = pure (memory pos) := if_pos hkind
  rw [ObjectReader.tryReadList, bind_of_ok (locationOf_unchecked (by rw [hkind]; decide))]
  dsimp only
  rw [htry, pure_bind_eq]
  exact h.readAsListContent

/-- A pointer leads to one object. -/
lemma Shape.PointedAt.unique (h : shape.PointedAt memory pos start) (h' : shape'.PointedAt memory pos start') :
    shape = shape' ∧ start = start' := by
  have heq := h.tryReadTyped.symm.trans h'.tryReadTyped
  rw [Outcome.ok.injEq, Prod.mk.injEq] at heq
  exact Shape.content_inj heq.1.2

/-- A pointer to an object is not a far pointer, and no capability. -/
lemma Shape.PointedAt.kind (h : shape.PointedAt memory pos start) :
    WirePtr.kind (memory pos) = .struct ∨ WirePtr.kind (memory pos) = .list := by
  cases shape with
  | struct => exact Or.inl h.1
  | list => exact Or.inr h.kind_list

/-- A null pointer leads to an empty struct, if to anything. -/
lemma Shape.PointedAt.size_eq_zero (h : shape.PointedAt memory pos start) (hnull : memory pos = Word.null) :
    shape.size = 0 := by
  have hkind : WirePtr.kind (memory pos) = .struct := by rw [hnull, WirePtr.kind_null]
  cases shape with
  | struct size =>
    obtain ⟨-, rfl, -⟩ := h
    rw [hnull]
    rfl
  | list => exact absurd (hkind.symm.trans h.kind_list) (by decide)

/-- A list that is not of structs. -/
lemma Shape.pointedAt_list (hkind : WirePtr.kind (memory pos) = .list)
    (hsize : ListPtr.elementSize (memory pos) ≠ .inlineComposite)
    (hstart : (pos : ℤ) + 1 + (ListPtr.offset (memory pos)).get = start) :
    (Shape.list (ListPtr.elementSize (memory pos)).toElementSize
      (ListPtr.elementCount (memory pos))).PointedAt memory pos start := by
  cases helement : ListPtr.elementSize (memory pos) with
  | inlineComposite => exact absurd helement hsize
  | _ => exact ⟨hkind, helement, rfl, hstart⟩

/-- A near pointer of a message leads to what it denotes. -/
lemma Denotes.pointedAt {a : ReadArena} {id id' : SegmentId} {segment : Segment} {cost : ℕ}
    (hsegment : a id = some segment) (hkind : WirePtr.kind (segment.data pos) ≠ .far)
    (h : Denotes a id pos id' (shape.content start) cost) :
    id' = id ∧ shape.PointedAt segment.data pos start := by
  obtain ⟨mid, content, pads, words, hlocates, hdescribes, -⟩ := h
  cases hlocates with
  | near hsegment' =>
    obtain rfl := Option.mem_unique hsegment hsegment'
    generalize htyped : shape.content start = typed at hdescribes
    cases hdescribes with
    | struct hstruct hplaced =>
      cases hplaced with
      | near _ hstart =>
        obtain ⟨rfl, rfl⟩ := @Shape.content_inj _ (.struct _) _ _ htyped
        exact ⟨rfl, hstruct, rfl, hstart⟩
    | @list _ _ size count hlist hptrSize hsize hcount hplaced =>
      cases hplaced with
      | near _ hstart =>
        obtain ⟨rfl, rfl⟩ := @Shape.content_inj _ (.list size count) _ _ htyped
        dsimp only at hlist hptrSize hsize hcount hstart
        subst hcount hsize
        exact ⟨rfl, Shape.pointedAt_list hlist hptrSize hstart⟩
    | inlineComposite hlist hptrSize hwords hlt hplaced hblock htag htagKind hfits =>
      cases hplaced with
      | near _ hstart =>
        obtain rfl := Option.mem_unique hsegment hblock
        obtain ⟨rfl, rfl⟩ := @Shape.content_inj _ (.list (.inlineComposite _) _) _ _ htyped
        dsimp only at hlist hptrSize hwords hstart
        subst hwords htag
        refine ⟨rfl, hlist, hptrSize, hlt, ?_, htagKind, rfl, rfl, Nat.succ_pos _, hfits⟩
        rw [hstart]
        rfl
    | capability => cases shape <;> cases htyped
  | far hsegment' hptr hfar | doubleFar hsegment' hptr hfar =>
    obtain rfl := Option.mem_unique hsegment hsegment'
    exact absurd (hptr ▸ hfar) hkind

end PointedAt

/-! ## Memory that is moved and written -/

section Memory

variable {memory memory' : ℕ → Word} {pos lo hi lo' hi' : ℕ} {v w : Value}

lemma ReadsUnchecked.mono (h : ReadsUnchecked memory lo hi pos v) (hlo : lo' ≤ lo) (hhi : hi ≤ hi') :
    ReadsUnchecked memory lo' hi' pos v := by
  induction h with
  | null hnull => exact .null hnull
  | object hsome hpointed hwithin hdata _ ih =>
    exact .object hsome hpointed (hwithin.mono hlo hhi) hdata ih

/-- Memory may be moved. -/
lemma ReadsUnchecked.shift {c p : ℕ} (h : ReadsUnchecked memory (lo + c) (hi + c) p v) (hp : p = pos + c) :
    ReadsUnchecked (fun k => memory (k + c)) lo hi pos v := by
  induction h generalizing pos with
  | null hnull =>
    subst hp
    exact .null hnull
  | @object _ start shape data ptrs hsome hpointed hwithin hdata _ ih =>
    subst hp
    have hle : c + shape.tagWords ≤ start := by
      have hsize := shape.size_eq
      rcases hwithin with ⟨hzero, hpos⟩ | ⟨hlo, -⟩ <;> omega
    obtain ⟨start, rfl⟩ := Nat.exists_eq_add_of_le' ((Nat.le_add_right _ _).trans hle)
    have hmove : ∀ k, start + c + k = start + k + c := fun k => by omega
    refine @ReadsUnchecked.object _ lo hi pos start shape data ptrs hsome (hpointed.shift (by omega)) ?_
      (fun k => ?_) fun k => ih k (hmove k.1)
    · refine hwithin.imp (fun h => ⟨h.1, by omega, by omega⟩) fun ⟨hlo, hlt, hall⟩ => ?_
      refine ⟨by omega, by omega, fun htag => ?_⟩
      have hend := hall htag
      dsimp only
      omega
    · rw [← hmove]
      exact hdata k

lemma Near.congr (h : Near memory lo hi pos) (hpos : memory' pos = memory pos)
    (heq : ∀ k, lo ≤ k → k < hi → memory' k = memory k) : Near memory' lo hi pos := by
  induction h with
  | null hnull => exact .null (hpos.trans hnull)
  | capability hkind => exact .capability (hpos.symm ▸ hkind)
  | object hpointed hwithin _ ih =>
    refine .object (hpointed.congr hpos fun htag => heq _ (hwithin.tag htag).1 (hwithin.tag htag).2.1)
      (hwithin.congr hpos)
      fun k hk hptr => ih k hk hptr ?_
    exact heq _ (hwithin.mem hk).1 (hwithin.mem hk).2

lemma Near.mono (h : Near memory lo hi pos) (hlo : lo' ≤ lo) (hhi : hi ≤ hi') : Near memory lo' hi' pos := by
  induction h with
  | null hnull => exact .null hnull
  | capability hkind => exact .capability hkind
  | object hpointed hwithin _ ih => exact .object hpointed (hwithin.mono hlo hhi) ih

/-- **Near pointers are read without checks as they are read with them.** -/
theorem Near.reads {a : ReadArena} {id : SegmentId} {segment : Segment} (hsegment : a id = some segment)
    (h : Near segment.data lo hi pos) (hreads : Reads a id pos v) (hcaps : v.caps = 0) :
    ReadsUnchecked segment.data lo hi pos v := by
  induction hreads with
  | null hsegment' hnull =>
    obtain rfl := Option.mem_unique hsegment hsegment'
    exact .null hnull
  | capability => exact absurd hcaps Nat.one_ne_zero
  | @object id id' pos start cost _ block shape data ptrs hsegment' hsome hdenotes hblock hdata _ ih =>
    obtain rfl := Option.mem_unique hsegment hsegment'
    cases h with
    | null hnull => exact absurd hnull hsome
    | capability hkind =>
      have hfar : WirePtr.kind (segment.data pos) ≠ .far := by
        rw [hkind]
        decide
      have hobject := (hdenotes.pointedAt hsegment hfar).2.kind
      rw [hkind] at hobject
      exact absurd hobject (by decide)
    | @object _ start' shape' hpointed hwithin hptrs =>
      have hkind : WirePtr.kind (segment.data pos) ≠ .far := by
        rcases hpointed.kind with h | h <;> rw [h] <;> decide
      obtain ⟨rfl, hpointed'⟩ := hdenotes.pointedAt hsegment hkind
      obtain ⟨rfl, rfl⟩ := hpointed.unique hpointed'
      obtain rfl := Option.mem_unique hsegment hblock
      refine .object hsome hpointed hwithin hdata fun k => ?_
      exact ih k hsegment (hptrs k.1 k.2.1 k.2.2) (Value.caps_ptrs hcaps k)

end Memory

end Recapn.Ptr

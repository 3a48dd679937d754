/-
# The layouts of allocated objects

After an allocation the pointer leads to the allocated words: near, over a landing pad in front
of them, or over a double-far landing pad.  From this follows what a reader finds there.
-/
import Recapn.Ptr.Alloc

namespace Recapn.Ptr

open Recapn.Lib

/-! ## Pointers that lead to words -/

/-- The pointer at `slot` leads to `len` words at `place`, and the pointer that describes them
is made from an offset. -/
def Leads (make : SignedSegmentOffset → WirePtr) (slot place : SegmentRef) (len : ℕ)
    (a : ReadArena) : Prop :=
  ∃ mid content pads offset, Locates a slot.segment slot.pos mid content pads ∧
    content.ptr = make offset ∧ Placed a mid content.location offset len place.segment place.pos

lemma Placed.mono_len {a : ReadArena} {id id' : SegmentId} {location : Location}
    {offset : SignedSegmentOffset} {len len' pos : ℕ} (h : Placed a id location offset len id' pos)
    (hle : len' ≤ len) : Placed a id location offset len' id' pos := by
  cases h with
  | near hsegment hpos hlen => exact .near hsegment hpos (by omega)
  | far hsegment hpos hlen => exact .far hsegment hpos (by omega)
  | doubleFar hsegment hlen => exact .doubleFar hsegment (by omega)

lemma Placed.unique {a : ReadArena} {id id₁ id₂ : SegmentId} {location : Location}
    {offset : SignedSegmentOffset} {len₁ len₂ pos₁ pos₂ : ℕ}
    (h₁ : Placed a id location offset len₁ id₁ pos₁)
    (h₂ : Placed a id location offset len₂ id₂ pos₂) : id₁ = id₂ ∧ pos₁ = pos₂ := by
  cases h₁ with
  | near _ hpos _ =>
    cases h₂ with
    | near _ hpos' _ => exact ⟨rfl, by omega⟩
  | far _ hpos _ =>
    cases h₂ with
    | far _ hpos' _ => exact ⟨rfl, by omega⟩
  | doubleFar =>
    cases h₂ with
    | doubleFar => exact ⟨rfl, rfl⟩

/-- A pointer has its content in one place. -/
lemma Locates.unique {a : ReadArena} {id id₁ id₂ : SegmentId} {src pads₁ pads₂ : ℕ}
    {content₁ content₂ : Content} (h₁ : Locates a id src id₁ content₁ pads₁)
    (h₂ : Locates a id src id₂ content₂ pads₂) :
    id₁ = id₂ ∧ content₁ = content₂ ∧ pads₁ = pads₂ := by
  cases h₁ with
  | near hsegment hkind =>
    cases h₂ with
    | near hsegment' _ =>
      obtain rfl := Option.mem_unique hsegment hsegment'
      exact ⟨rfl, rfl, rfl⟩
    | far hsegment' hptr hfar =>
      obtain rfl := Option.mem_unique hsegment hsegment'
      exact absurd (hptr ▸ hfar) hkind
    | doubleFar hsegment' hptr hfar =>
      obtain rfl := Option.mem_unique hsegment hsegment'
      exact absurd (hptr ▸ hfar) hkind
  | far hsegment hptr hfar hdouble hpad =>
    cases h₂ with
    | near hsegment' hkind =>
      obtain rfl := Option.mem_unique hsegment hsegment'
      exact absurd (hptr ▸ hfar) hkind
    | far hsegment' hptr' _ _ hpad' =>
      obtain rfl := Option.mem_unique hsegment hsegment'
      obtain rfl := hptr.symm.trans hptr'
      obtain rfl := Option.mem_unique hpad hpad'
      exact ⟨rfl, rfl, rfl⟩
    | doubleFar hsegment' hptr' _ hdouble' =>
      obtain rfl := Option.mem_unique hsegment hsegment'
      obtain rfl := hptr.symm.trans hptr'
      rw [hdouble] at hdouble'
      cases hdouble'
  | doubleFar hsegment hptr hfar hdouble hpad _ hpadPtr =>
    cases h₂ with
    | near hsegment' hkind =>
      obtain rfl := Option.mem_unique hsegment hsegment'
      exact absurd (hptr ▸ hfar) hkind
    | far hsegment' hptr' _ hdouble' =>
      obtain rfl := Option.mem_unique hsegment hsegment'
      obtain rfl := hptr.symm.trans hptr'
      rw [hdouble] at hdouble'
      cases hdouble'
    | doubleFar hsegment' hptr' _ _ hpad' _ hpadPtr' =>
      obtain rfl := Option.mem_unique hsegment hsegment'
      obtain rfl := hptr.symm.trans hptr'
      obtain rfl := Option.mem_unique hpad hpad'
      obtain rfl := hpadPtr.symm.trans hpadPtr'
      exact ⟨rfl, rfl, rfl⟩

section Leads

variable {a : ReadArena} {slot place : SegmentRef} {len : ℕ}

lemma Leads.mono_len {make : SignedSegmentOffset → WirePtr} (h : Leads make slot place len a)
    {len' : ℕ} (hle : len' ≤ len) : Leads make slot place len' a := by
  obtain ⟨mid, content, pads, offset, hlocates, hptr, hplaced⟩ := h
  exact ⟨mid, content, pads, offset, hlocates, hptr, hplaced.mono_len hle⟩

/-- The words of a struct. -/
lemma Leads.struct {size : StructSize}
    (h : Leads (fun offset => StructPtr.new offset size) slot place size.total a) :
    ∃ cost, Denotes a slot.segment slot.pos place.segment (.struct ⟨place.pos, size⟩) cost := by
  obtain ⟨mid, ⟨ptr, location⟩, pads, offset, hlocates, hptr, hplaced⟩ := h
  dsimp only at hptr
  subst hptr
  have hdescribes := @Describes.struct a mid ⟨StructPtr.new offset size, location⟩ place.segment
    place.pos (StructPtr.kind_new offset size) (by simpa using hplaced)
  simp only [StructPtr.size_new] at hdescribes
  exact ⟨_, mid, _, pads, _, hlocates, hdescribes, rfl⟩

/-- The words of a list that is not of structs. -/
lemma Leads.list {size : ElementSize} (hsize : size.isInlineComposite = false)
    {count : ElementCount}
    (h : Leads (fun offset => ListPtr.new offset size.asPtrSize count) slot place
      (size.totalWords count.get) a) :
    ∃ cost, Denotes a slot.segment slot.pos place.segment (.list ⟨place.pos, size, count⟩) cost := by
  obtain ⟨mid, ⟨ptr, location⟩, pads, offset, hlocates, hptr, hplaced⟩ := h
  dsimp only at hptr
  subst hptr
  have hptrSize : size.asPtrSize ≠ .inlineComposite ∧ size.asPtrSize.toElementSize = size := by
    cases size with
    | inlineComposite => cases hsize
    | _ => exact ⟨by decide, rfl⟩
  have hdescribes := @Describes.list a mid
    ⟨ListPtr.new offset size.asPtrSize count, location⟩ place.segment place.pos size count
    (ListPtr.kind_new _ _ _)
    (by
      show ListPtr.elementSize (ListPtr.new offset size.asPtrSize count) ≠ .inlineComposite
      rw [ListPtr.elementSize_new]
      exact hptrSize.1)
    (by
      show (ListPtr.elementSize (ListPtr.new offset size.asPtrSize count)).toElementSize = size
      rw [ListPtr.elementSize_new]
      exact hptrSize.2)
    (ListPtr.elementCount_new _ _ _)
    (by
      show Placed a mid location (ListPtr.offset (ListPtr.new offset size.asPtrSize count)) _ _ _
      rw [ListPtr.offset_new]
      exact hplaced)
  exact ⟨_, mid, _, pads, _, hlocates, hdescribes, rfl⟩

/-- The words of a list of structs, and the tag in front of them. -/
lemma Leads.inlineComposite {words count : ElementCount} {size : StructSize}
    (h : Leads (fun offset => ListPtr.new offset .inlineComposite words) slot place
      (words.get + 1) a) (hwords : words.get + 1 < 2 ^ 29) {segment : Segment}
    (hsegment : a place.segment = some segment)
    (htag : segment.data place.pos = StructPtr.newInlineCompositeTag count size)
    (hfits : count.get * size.total ≤ words.get) :
    ∃ cost, Denotes a slot.segment slot.pos place.segment
      (.list ⟨place.pos + 1, .inlineComposite size, count⟩) cost := by
  obtain ⟨mid, ⟨ptr, location⟩, pads, offset, hlocates, hptr, hplaced⟩ := h
  dsimp only at hptr
  subst hptr
  have hdescribes := @Describes.inlineComposite a mid
    ⟨ListPtr.new offset .inlineComposite words, location⟩ place.segment segment place.pos words.get
    (StructPtr.newInlineCompositeTag count size) (ListPtr.kind_new _ _ _)
    (ListPtr.elementSize_new _ _ _) (congrArg U29.get (ListPtr.elementCount_new _ _ _)) hwords
    (by
      show Placed a mid location (ListPtr.offset (ListPtr.new offset .inlineComposite words)) _ _ _
      rw [ListPtr.offset_new]
      exact hplaced)
    hsegment htag (StructPtr.kind_newInlineCompositeTag _ _)
    (by
      rw [StructPtr.inlineCompositeElementCount_new, StructPtr.size_newInlineCompositeTag]
      exact hfits)
  rw [StructPtr.inlineCompositeElementCount_new, StructPtr.size_newInlineCompositeTag]
    at hdescribes
  exact ⟨_, mid, _, pads, _, hlocates, hdescribes, rfl⟩

/-- A list pointer with too small a word count for the elements of the tag cannot be read. -/
lemma Leads.not_denotes {words count : ElementCount} {size : StructSize}
    (h : Leads (fun offset => ListPtr.new offset .inlineComposite words) slot place len a)
    {segment : Segment} (hsegment : a place.segment = some segment)
    (htag : segment.data place.pos = StructPtr.newInlineCompositeTag count size)
    (hoverrun : words.get < count.get * size.total) {id : SegmentId} {typed : TypedContent}
    {cost : ℕ} : ¬ Denotes a slot.segment slot.pos id typed cost := by
  rintro ⟨mid', content', pads', words', hlocates', hdescribes, -⟩
  obtain ⟨mid, ⟨ptr, location⟩, pads, offset, hlocates, hptr, hplaced⟩ := h
  dsimp only at hptr
  subst hptr
  obtain ⟨rfl, rfl, -⟩ := hlocates.unique hlocates'
  cases hdescribes with
  | struct hkind =>
    have hlist := ListPtr.kind_new offset .inlineComposite words
    rw [hkind] at hlist
    cases hlist
  | list _ hptrSize => exact hptrSize (ListPtr.elementSize_new _ _ _)
  | inlineComposite _ _ hwords _ hplaced' hsegment' htag' _ hfits =>
    replace hwords : (ListPtr.elementCount (ListPtr.new offset .inlineComposite words)).get = _ :=
      hwords
    rw [ListPtr.elementCount_new] at hwords
    replace hplaced' :
        Placed a mid location (ListPtr.offset (ListPtr.new offset .inlineComposite words)) _ _ _ :=
      hplaced'
    rw [ListPtr.offset_new] at hplaced'
    obtain ⟨rfl, rfl⟩ := hplaced.unique hplaced'
    obtain rfl := Option.mem_unique hsegment hsegment'
    rw [← htag', htag, StructPtr.inlineCompositeElementCount_new,
      StructPtr.size_newInlineCompositeTag] at hfits
    omega
  | capability hcap =>
    have hkind := WirePtr.not_isCapability_of_kind
      (show WirePtr.kind (ListPtr.new offset .inlineComposite words) ≠ .other by
        rw [ListPtr.kind_new]
        decide)
    rw [hkind] at hcap
    cases hcap

end Leads

/-! ## Words that are allocated and pointed to -/

/-- So many words were allocated at `place`, and `slot` leads to them.  That it does rests on the
slot and on the fresh words besides them. -/
structure Places (arena : Arena) (make : SignedSegmentOffset → WirePtr) (slot place : SegmentRef)
    (len : ℕ) (arena' : Arena) : Prop where
  grows : Arena.Grows {slot} arena arena'
  mem_fresh : ∀ r ∈ span place len, r ∈ Arena.fresh arena arena'
  word_eq_null : ∀ r ∈ span place len, arena'.word r = Word.null
  leads : Rests (insert slot (Arena.fresh arena arena' \ span place len))
    (Leads make slot place len) arena'.toRead

/-- What a reader sees that agrees with the arena. -/
lemma agree_toRead {arena : Arena} {F : Set SegmentRef} {a : ReadArena}
    (h : World.Agree F arena.toRead a) {i : ℕ} (hi : i < arena.segments.length) :
    ∃ segment, a i = some segment ∧ arena.used i ≤ segment.len.get ∧
      ∀ pos, ⟨i, pos⟩ ∈ F → segment.data pos = arena.word ⟨i, pos⟩ := by
  obtain ⟨seg, hseg, hlen, hdata⟩ := Arena.toRead_eq_some hi
  obtain ⟨segment, hsegment, hle, hword⟩ := h i seg hseg
  exact ⟨segment, hsegment, by omega, fun pos hpos => (hword pos hpos).trans (hdata pos)⟩

section Places

variable {arena arena₁ arena₂ : Arena} {make : SignedSegmentOffset → WirePtr} {slot : SegmentRef}

lemma Arena.grows_set (hwf : arena.Wf) (hslot : slot.pos < arena.used slot.segment) (v : Word) :
    Arena.Grows {slot} arena (arena.write slot 1 fun _ => v) :=
  (Arena.grows_write hwf (by omega) _).mono fun _ hr => mem_span_one.1 hr

/-- A word that was not live is not the slot. -/
lemma ne_of_fresh (hslot : slot.pos < arena.used slot.segment) {r : SegmentRef}
    (hr : r ∈ Arena.fresh arena arena₁) : r ≠ slot := by
  rintro rfl
  have hle := (Arena.mem_fresh.1 hr).1
  omega

/-- A near pointer to the words behind it. -/
lemma places_near (hwf : arena.Wf) (hslot : slot.pos < arena.used slot.segment) {r : SegmentRef}
    {size : ℕ} (hallocates : arena.Allocates r size arena₁) (hsegment : slot.segment = r.segment)
    {offset : SignedSegmentOffset} (hoffset : (slot.pos : ℤ) + 1 + offset.get = r.pos)
    (hkind : WirePtr.kind (make offset) ≠ .far) :
    Places arena make slot r size (arena₁.write slot 1 fun _ => make offset) := by
  have hslot₁ := hallocates.grows.lt_used hslot
  refine ⟨?_, fun p hp => ?_, fun p hp => ?_, ?_⟩
  · exact (hallocates.grows.mono (Set.empty_subset _)).trans
      (Arena.grows_set hallocates.wf hslot₁ _) fun _ _ h => h
  · rw [Arena.fresh_write]
    exact hallocates.mem_fresh hp
  · rw [Arena.word_set hslot₁, if_neg (ne_of_fresh hslot (hallocates.mem_fresh hp))]
    exact hallocates.word_eq_null hwf hp
  · intro a hagree
    have hlength : slot.segment < (arena₁.write slot 1 fun _ => make offset).segments.length := by
      rw [Arena.length_write]
      exact Arena.lt_length_of_used (by omega)
    obtain ⟨segment, hseg, hlen, hdata⟩ := agree_toRead hagree hlength
    have hword : segment.data slot.pos = make offset := by
      rw [hdata _ (Set.mem_insert _ _), Arena.word_set hslot₁, if_pos rfl]
    rw [Arena.used_write, hallocates.used_eq, if_pos hsegment] at hlen
    refine ⟨slot.segment, ⟨make offset, .near slot.pos⟩, 0, offset, ?_, rfl, ?_⟩
    · rw [← hword]
      exact .near hseg (by rw [hword]; exact hkind)
    · rw [← hsegment]
      exact .near hseg hoffset hlen

/-- A far pointer to a landing pad in front of the words. -/
lemma places_far (hwf : arena.Wf) (hslot : slot.pos < arena.used slot.segment) {pad : SegmentRef}
    {size : ℕ} (hallocates : arena.Allocates pad (size + 1) arena₁) {offset : SegmentOffset}
    (hoffset : offset.get = pad.pos) :
    Places arena make slot (pad.offset 1) size
      ((arena₁.write slot 1 fun _ => FarPtr.new pad.segment offset false).write pad 1
        fun _ => make I30.zero) := by
  have hslot₁ := hallocates.grows.lt_used hslot
  have hpad : pad ∈ span pad (size + 1) := ⟨rfl, Nat.le_refl _, by omega⟩
  have hpadFresh := hallocates.mem_fresh hpad
  have hpadSlot : pad ≠ slot := ne_of_fresh hslot hpadFresh
  have hpadUsed : pad.pos < arena₁.used pad.segment := (Arena.mem_fresh.1 hpadFresh).2
  have hwf₂ := hallocates.wf.set hslot₁ (FarPtr.new pad.segment offset false)
  have hpadUsed₂ : pad.pos
      < (arena₁.write slot 1 fun _ => FarPtr.new pad.segment offset false).used pad.segment := by
    rw [Arena.used_write]
    exact hpadUsed
  have hsub : ∀ p ∈ span (pad.offset 1) size, p ∈ span pad (size + 1) ∧ p ≠ pad := by
    rintro p ⟨hsegment, hle, hlt⟩
    have hle' : pad.pos + 1 ≤ p.pos := hle
    have hlt' : p.pos < pad.pos + 1 + size := hlt
    refine ⟨⟨hsegment, by omega, by omega⟩, ?_⟩
    rintro rfl
    omega
  have hword : ∀ p, ((arena₁.write slot 1 fun _ => FarPtr.new pad.segment offset false).write pad 1
      fun _ => make I30.zero).word p = if p = pad then make I30.zero
        else if p = slot then FarPtr.new pad.segment offset false else arena₁.word p := by
    intro p
    rw [Arena.word_set hpadUsed₂, Arena.word_set hslot₁]
  refine ⟨?_, fun p hp => ?_, fun p hp => ?_, ?_⟩
  · refine ((hallocates.grows.mono (Set.empty_subset _)).trans
      (Arena.grows_set hallocates.wf hslot₁ _) fun _ _ h => h).trans
      (Arena.grows_set hwf₂ hpadUsed₂ _) ?_
    rintro r hr (rfl : r = pad)
    have hle := (Arena.mem_fresh.1 hpadFresh).1
    omega
  · rw [Arena.fresh_write, Arena.fresh_write]
    exact hallocates.mem_fresh (hsub p hp).1
  · rw [hword, if_neg (hsub p hp).2,
      if_neg (ne_of_fresh hslot (hallocates.mem_fresh (hsub p hp).1))]
    exact hallocates.word_eq_null hwf (hsub p hp).1
  · intro a hagree
    have hpadLength := hallocates.lt_length (Nat.succ_pos size)
    have hid : pad.segment < 2 ^ 32 := by
      have hle := hallocates.wf.length_le
      omega
    obtain ⟨segment, hseg, -, hdata⟩ := agree_toRead (i := slot.segment) hagree (by
      rw [Arena.length_write, Arena.length_write]
      exact Arena.lt_length_of_used (by omega))
    obtain ⟨padSegment, hpadSeg, hpadLen, hpadData⟩ := agree_toRead (i := pad.segment) hagree (by
      rw [Arena.length_write, Arena.length_write]
      exact hpadLength)
    have hslotWord : segment.data slot.pos = FarPtr.new pad.segment offset false := by
      rw [hdata _ (Set.mem_insert _ _), hword, if_neg hpadSlot.symm, if_pos rfl]
    have hpadMem : pad ∉ span (pad.offset 1) size := fun h => (hsub pad h).2 rfl
    have hpadWord : padSegment.data pad.pos = make I30.zero := by
      rw [hpadData _ (Set.mem_insert_of_mem _ ⟨?_, hpadMem⟩), hword, if_pos rfl]
      rw [Arena.fresh_write, Arena.fresh_write]
      exact hpadFresh
    rw [Arena.used_write, Arena.used_write, hallocates.used_eq, if_pos rfl] at hpadLen
    have hlocates := @Locates.far a slot.segment slot.pos segment padSegment _ hseg hslotWord
      (FarPtr.kind_new _ _ _) (FarPtr.doubleFar_new _ _ _)
    rw [FarPtr.segment_new hid, FarPtr.offset_new, hoffset, hpadWord] at hlocates
    refine ⟨pad.segment, ⟨make I30.zero, .far pad.pos⟩, 1, I30.zero, hlocates hpadSeg (by omega), rfl, ?_⟩
    refine .far hpadSeg ?_ ?_
    · exact Int.add_zero _
    · show pad.pos + 1 + size ≤ _
      omega

/-- A double-far pointer to a landing pad, and the words in a segment of their own. -/
lemma places_doubleFar (hslot : slot.pos < arena.used slot.segment)
    {pad start : SegmentRef} {size : ℕ} (hpadAlloc : arena.Allocates pad 2 arena₁)
    (hstartAlloc : arena₁.Allocates start size arena₂) (hsize : 0 < size)
    {offset offset' : SegmentOffset} (hoffset : offset.get = pad.pos)
    (hoffset' : offset'.get = start.pos) :
    Places arena make slot start size
      (((arena₂.write slot 1 fun _ => FarPtr.new pad.segment offset true).write pad 1
        fun _ => FarPtr.new start.segment offset' false).write (pad.offset 1) 1
        fun _ => make I30.zero) := by
  have hslot₂ : slot.pos < arena₂.used slot.segment :=
    Nat.lt_of_lt_of_le hslot
      (Nat.le_trans (hpadAlloc.grows.used_le _) (hstartAlloc.grows.used_le _))
  have hpad : pad ∈ Arena.fresh arena arena₁ :=
    hpadAlloc.mem_fresh ⟨rfl, Nat.le_refl _, by omega⟩
  have htag : pad.offset 1 ∈ Arena.fresh arena arena₁ :=
    hpadAlloc.mem_fresh ⟨rfl, Nat.le_succ _, Nat.lt_succ_self _⟩
  have hpadFresh : pad ∈ Arena.fresh arena arena₂ :=
    Store.fresh_subset_left hstartAlloc.grows.store hpad
  have htagFresh : pad.offset 1 ∈ Arena.fresh arena arena₂ :=
    Store.fresh_subset_left hstartAlloc.grows.store htag
  have hstartFresh : ∀ p ∈ span start size, p ∈ Arena.fresh arena arena₂ := fun p hp =>
    Store.fresh_subset_right hpadAlloc.grows.store (hstartAlloc.mem_fresh hp)
  have hpadUsed := (Arena.mem_fresh.1 hpadFresh).2
  have htagUsed := (Arena.mem_fresh.1 htagFresh).2
  have hstartPad : ∀ p ∈ span start size, p ≠ pad ∧ p ≠ pad.offset 1 := fun p hp =>
    ⟨ne_of_fresh (Arena.mem_fresh.1 hpad).2 (hstartAlloc.mem_fresh hp),
      ne_of_fresh (Arena.mem_fresh.1 htag).2 (hstartAlloc.mem_fresh hp)⟩
  have hpadSlot : pad ≠ slot := ne_of_fresh hslot hpad
  have htagSlot : pad.offset 1 ≠ slot := ne_of_fresh hslot htag
  have hpadTag : pad ≠ pad.offset 1 := fun h => Nat.ne_of_lt (Nat.lt_succ_self pad.pos)
    (congrArg SegmentRef.pos h)
  have hwf₃ := hstartAlloc.wf.set hslot₂ (FarPtr.new pad.segment offset true)
  have hpadUsed₃ : pad.pos
      < (arena₂.write slot 1 fun _ => FarPtr.new pad.segment offset true).used pad.segment := by
    rw [Arena.used_write]
    exact hpadUsed
  have hwf₄ := hwf₃.set hpadUsed₃ (FarPtr.new start.segment offset' false)
  have hword : ∀ p, (((arena₂.write slot 1 fun _ => FarPtr.new pad.segment offset true).write pad 1
      fun _ => FarPtr.new start.segment offset' false).write (pad.offset 1) 1
      fun _ => make I30.zero).word p = if p = pad.offset 1 then make I30.zero
        else if p = pad then FarPtr.new start.segment offset' false
        else if p = slot then FarPtr.new pad.segment offset true else arena₂.word p := by
    intro p
    rw [Arena.word_set, Arena.word_set, Arena.word_set hslot₂]
    · rw [Arena.used_write]
      exact hpadUsed
    · rw [Arena.used_write, Arena.used_write]
      exact htagUsed
  have hused : ∀ i, (((arena₂.write slot 1 fun _ => FarPtr.new pad.segment offset true).write pad 1
      fun _ => FarPtr.new start.segment offset' false).write (pad.offset 1) 1
      fun _ => make I30.zero).used i = arena₂.used i := fun i => by
    rw [Arena.used_write, Arena.used_write, Arena.used_write]
  refine ⟨?_, fun p hp => ?_, fun p hp => ?_, ?_⟩
  · refine ⟨hwf₄.set (by
      rw [Arena.used_write, Arena.used_write]
      exact htagUsed) _, fun p hp => ?_, fun p hp hF => ?_⟩
    · have hle : arena.used p.segment ≤ arena₂.used p.segment :=
        Nat.le_trans (hpadAlloc.grows.used_le _) (hstartAlloc.grows.used_le _)
      show p.pos < _
      rw [hused]
      exact Nat.lt_of_lt_of_le hp hle
    · show (((arena₂.write slot 1 _).write pad 1 _).write (pad.offset 1) 1 _).word p = arena.word p
      have hpslot : p ≠ slot := hF
      rw [hword, if_neg, if_neg, if_neg hpslot, hstartAlloc.word_eq, hpadAlloc.word_eq]
      · exact (ne_of_fresh hp hpad).symm
      · exact (ne_of_fresh hp htag).symm
  · rw [Arena.fresh_write, Arena.fresh_write, Arena.fresh_write]
    exact hstartFresh p hp
  · rw [hword, if_neg (hstartPad p hp).2, if_neg (hstartPad p hp).1,
      if_neg (ne_of_fresh hslot (hstartFresh p hp))]
    exact hstartAlloc.word_eq_null hpadAlloc.wf hp
  · intro a hagree
    have hmem : ∀ p, p ∈ Arena.fresh arena arena₁ → p ∉ span start size →
        p ∈ insert slot (Arena.fresh arena
          (((arena₂.write slot 1 fun _ => FarPtr.new pad.segment offset true).write pad 1
            fun _ => FarPtr.new start.segment offset' false).write (pad.offset 1) 1
            fun _ => make I30.zero) \ span start size) := by
      intro p hp hspan
      refine Set.mem_insert_of_mem _ ⟨?_, hspan⟩
      rw [Arena.fresh_write, Arena.fresh_write, Arena.fresh_write]
      exact Store.fresh_subset_left hstartAlloc.grows.store hp
    have hlength : ∀ {i}, 0 < arena₂.used i → i < (((arena₂.write slot 1
        fun _ => FarPtr.new pad.segment offset true).write pad 1
        fun _ => FarPtr.new start.segment offset' false).write (pad.offset 1) 1
        fun _ => make I30.zero).segments.length := by
      intro i hi
      rw [Arena.length_write, Arena.length_write, Arena.length_write]
      exact Arena.lt_length_of_used hi
    have hid : ∀ {i}, 0 < arena₂.used i → i < 2 ^ 32 := by
      intro i hi
      have hlt := Arena.lt_length_of_used hi
      have hle := hstartAlloc.wf.length_le
      omega
    have hstartUsed : arena₂.used start.segment = start.pos + size := by
      rw [hstartAlloc.used_eq, if_pos rfl]
    obtain ⟨segment, hseg, -, hdata⟩ := agree_toRead hagree
      (hlength (i := slot.segment) (by omega))
    obtain ⟨padSegment, hpadSeg, hpadLen, hpadData⟩ := agree_toRead hagree
      (hlength (i := pad.segment) (by omega))
    obtain ⟨startSegment, hstartSeg, hstartLen, -⟩ := agree_toRead hagree
      (hlength (i := start.segment) (by omega))
    rw [hused] at hpadLen hstartLen
    have hslotWord : segment.data slot.pos = FarPtr.new pad.segment offset true := by
      rw [hdata _ (Set.mem_insert _ _), hword, if_neg htagSlot.symm, if_neg hpadSlot.symm,
        if_pos rfl]
    have hpadWord : padSegment.data pad.pos = FarPtr.new start.segment offset' false := by
      rw [hpadData _ (hmem pad hpad fun h => (hstartPad pad h).1 rfl), hword, if_neg hpadTag,
        if_pos rfl]
    have htagWord : padSegment.data (pad.pos + 1) = make I30.zero := by
      rw [hpadData _ (hmem (pad.offset 1) htag fun h => (hstartPad _ h).2 rfl)]
      exact (hword (pad.offset 1)).trans (if_pos rfl)
    have hlocates := @Locates.doubleFar a slot.segment slot.pos segment padSegment _
      (FarPtr.new start.segment offset' false) hseg hslotWord (FarPtr.kind_new _ _ _)
      (FarPtr.doubleFar_new _ _ _)
    rw [FarPtr.segment_new (hid (i := pad.segment) (by omega)),
      FarPtr.segment_new (hid (i := start.segment) (by omega)), FarPtr.offset_new,
      FarPtr.offset_new, hoffset, htagWord] at hlocates
    have htagPos : pad.pos + 1 < arena₂.used pad.segment := htagUsed
    refine ⟨pad.segment, _, 2, I30.zero,
      hlocates hpadSeg (by omega) hpadWord (FarPtr.kind_new _ _ _), rfl, ?_⟩
    rw [← hoffset']
    refine .doubleFar hstartSeg ?_
    omega

end Places

end Recapn.Ptr

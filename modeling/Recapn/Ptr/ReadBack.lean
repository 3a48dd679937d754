/-
# Allocated objects read back

A struct or a list that was allocated is what a reader finds behind the pointer: in the same
place, of the same size and with the same count.  There is one exception.  A list of structs
that fills a segment together with its tag gets a double-far landing pad whose tag has the number
of elements where the number of words belongs, so that readers refuse the list, unless its
structs have one word each.
-/
import Recapn.Ptr.Layout

namespace Recapn.Ptr

open Recapn.Lib Recapn.Lib.Prog

/-! ## What is in the pointer -/

/-- A pointer that leads to one that is not null is not null. -/
lemma Locates.ne_null {arena : ReadArena} {id id' : SegmentId} {src pads : ℕ} {content : Content}
    {segment : Segment} (h : Locates arena id src id' content pads) (hsegment : arena id = some segment)
    (hcontent : content.ptr ≠ Word.null) : segment.data src ≠ Word.null := by
  intro hnull
  cases h with
  | near hsegment' =>
    obtain rfl := Option.mem_unique hsegment hsegment'
    exact hcontent hnull
  | far hsegment' hptr hkind | doubleFar hsegment' hptr hkind =>
    obtain rfl := Option.mem_unique hsegment hsegment'
    rw [← hptr, hnull] at hkind
    exact absurd hkind (by decide)

section Alloc

variable {a : Arena} {slot place : SegmentRef}

/-- A pointer to something else than an empty struct is not null. -/
lemma Denotes.ne_null {arena : ReadArena} {id id' : SegmentId} {src cost : ℕ} {typed : TypedContent}
    {segment : Segment} (h : Denotes arena id src id' typed cost) (hsegment : arena id = some segment)
    (htyped : ∀ pos, typed ≠ .struct ⟨pos, StructSize.empty⟩) : segment.data src ≠ Word.null := by
  obtain ⟨mid, content, pads, words, hlocates, hdescribes, -⟩ := h
  refine hlocates.ne_null hsegment fun hnull => ?_
  cases hdescribes with
  | @struct _ pos =>
    have hsize : StructPtr.size Word.null = StructSize.empty := by decide
    exact htyped pos (by rw [hnull, hsize])
  | list hkind | inlineComposite hkind =>
    rw [hnull] at hkind
    exact absurd hkind (by decide)
  | capability hcap =>
    rw [hnull] at hcap
    exact absurd hcap (by decide)

/-- A pointer to a struct that is not empty is not null. -/
lemma word_ne_null_of_denotes {size : StructSize} {id : SegmentId} {pos cost : ℕ}
    (hslot : slot.segment < a.segments.length) (hpos : 0 < size.total)
    (h : Denotes a.toRead slot.segment slot.pos id (.struct ⟨pos, size⟩) cost) :
    a.word slot ≠ Word.null := by
  obtain ⟨segment, hsegment, -, hdata⟩ := Arena.toRead_eq_some hslot
  rw [← hdata]
  refine h.ne_null hsegment fun _ heq => ?_
  cases heq
  exact absurd hpos (by decide)

/-- A pointer that leads to a list is not null. -/
lemma word_ne_null_of_leads {size : PtrElementSize} {count : ElementCount} {len : ℕ}
    (hslot : slot.segment < a.segments.length)
    (h : Leads (fun offset => ListPtr.new offset size count) slot place len a.toRead) :
    a.word slot ≠ Word.null := by
  obtain ⟨segment, hsegment, -, hdata⟩ := Arena.toRead_eq_some hslot
  obtain ⟨mid, content, pads, offset, hlocates, hptr, -⟩ := h
  rw [← hdata]
  refine hlocates.ne_null hsegment ?_
  rw [hptr]
  exact ne_null_of_kind (by rw [ListPtr.kind_new]; decide)

end Alloc

/-! ## Objects that were laid out -/

/-- An object with `len` words of content from `start` on was laid out, and `slot` points to it:
this rests on the slot and on the fresh words besides the content. -/
structure Lays (arena : Arena) (slot start : SegmentRef) (len : ℕ) (typed : TypedContent)
    (arena' : Arena) : Prop where
  grows : Arena.Grows {slot} arena arena'
  mem_fresh : ∀ r ∈ span start len, r ∈ Arena.fresh arena arena'
  word_eq_null : ∀ r ∈ span start len, arena'.word r = Word.null
  denotes : Rests (insert slot (Arena.fresh arena arena' \ span start len))
    (fun a => ∃ cost, Denotes a slot.segment slot.pos start.segment typed cost) arena'.toRead

lemma Places.lays {arena arena' : Arena} {make : SignedSegmentOffset → WirePtr}
    {slot place : SegmentRef} {len : ℕ} (h : Places arena make slot place len arena')
    {typed : TypedContent} (hdenotes : ∀ a, Leads make slot place len a →
      ∃ cost, Denotes a slot.segment slot.pos place.segment typed cost) :
    Lays arena slot place len typed arena' :=
  ⟨h.grows, h.mem_fresh, h.word_eq_null, h.leads.imp hdenotes⟩

/-- That the pointer leads to the words does not rest on the first of them. -/
lemma Places.agree_write {arena arena' : Arena} {make : SignedSegmentOffset → WirePtr}
    {slot place : SegmentRef} {len : ℕ} (h : Places arena make slot place (len + 1) arena')
    (hslot : slot.pos < arena.used slot.segment) (v : Word) :
    World.Agree (insert slot (Arena.fresh arena arena' \ span place (len + 1))) arena'.toRead
      (arena'.write place 1 fun _ => v).toRead := by
  have hplace : place ∈ span place (len + 1) := ⟨rfl, Nat.le_refl _, by omega⟩
  have hplaceFresh := h.mem_fresh place hplace
  refine (Arena.grows_set h.grows.wf (Arena.mem_fresh.1 hplaceFresh).2 _).agree h.grows.wf ?_
  rintro r (rfl | ⟨hr, hspan⟩)
  · exact ⟨h.grows.lt_used hslot,
      fun (heq : r = place) => ne_of_fresh hslot hplaceFresh heq.symm⟩
  · exact ⟨(Arena.mem_fresh.1 hr).2, fun (heq : r = place) => hspan (heq ▸ hplace)⟩

/-- So many null words are fresh, and `slot` was written.  What is said of the message rests on the
slot and on the other fresh words. -/
structure Reserves (arena : Arena) (slot start : SegmentRef) (len : ℕ) (φ : ReadArena → Prop)
    (arena' : Arena) : Prop where
  grows : Arena.Grows {slot} arena arena'
  mem_fresh : ∀ r ∈ span start len, r ∈ Arena.fresh arena arena'
  word_eq_null : ∀ r ∈ span start len, arena'.word r = Word.null
  rests : Rests (insert slot (Arena.fresh arena arena' \ span start len)) φ arena'.toRead

lemma Lays.reserves {arena arena' : Arena} {slot start : SegmentRef} {len : ℕ} {typed : TypedContent}
    (h : Lays arena slot start len typed arena') :
    Reserves arena slot start len
      (fun a => ∃ cost, Denotes a slot.segment slot.pos start.segment typed cost) arena' :=
  ⟨h.grows, h.mem_fresh, h.word_eq_null, h.denotes⟩

/-- The words behind a tag are there to be filled. -/
lemma Places.tagged {arena arena' : Arena} {make : SignedSegmentOffset → WirePtr}
    {slot place : SegmentRef} {len : ℕ} {tag : Word} {φ : ReadArena → Prop}
    (h : Places arena make slot place (len + 1) arena') (hslot : slot.pos < arena.used slot.segment)
    (hφ : ∀ a segment, Leads make slot place (len + 1) a → a place.segment = some segment →
      segment.data place.pos = tag → φ a) :
    Reserves arena slot (place.offset 1) len φ (arena'.write place 1 fun _ => tag) := by
  have hplace : place ∈ span place (len + 1) := ⟨rfl, Nat.le_refl _, by omega⟩
  have hplaceFresh := h.mem_fresh place hplace
  have hplaceUsed := (Arena.mem_fresh.1 hplaceFresh).2
  have hsub : ∀ p ∈ span (place.offset 1) len, p ∈ span place (len + 1) ∧ p ≠ place := by
    rintro p ⟨hsegment, hle, hlt⟩
    have hle' : place.pos + 1 ≤ p.pos := hle
    have hlt' : p.pos < place.pos + 1 + len := hlt
    refine ⟨⟨hsegment, by omega, by omega⟩, ?_⟩
    rintro rfl
    omega
  refine ⟨?_, fun p hp => ?_, fun p hp => ?_, fun a hagree => ?_⟩
  · refine h.grows.trans (Arena.grows_set h.grows.wf hplaceUsed _) ?_
    rintro r hr (rfl : r = place)
    have hle := (Arena.mem_fresh.1 hplaceFresh).1
    omega
  · rw [Arena.fresh_write]
    exact h.mem_fresh p (hsub p hp).1
  · rw [Arena.word_set hplaceUsed, if_neg (hsub p hp).2]
    exact h.word_eq_null p (hsub p hp).1
  · have hsubset : insert slot (Arena.fresh arena arena' \ span place (len + 1)) ⊆
        insert slot (Arena.fresh arena (arena'.write place 1 fun _ => tag) \
          span (place.offset 1) len) := by
      intro p hp
      rcases hp with rfl | ⟨hp, hspan⟩
      · exact Set.mem_insert _ _
      · refine Set.mem_insert_of_mem _ ⟨?_, fun hp' => hspan (hsub p hp').1⟩
        rw [Arena.fresh_write]
        exact hp
    have hleads := h.leads a (World.agree_trans (h.agree_write hslot _)
      (World.agree_mono hsubset hagree))
    have hlength : place.segment < (arena'.write place 1 fun _ => tag).segments.length := by
      rw [Arena.length_write]
      exact Arena.lt_length_of_used (by omega)
    obtain ⟨segment, hsegment, -, hdata⟩ := agree_toRead hagree hlength
    have hplaceSpan : place ∉ span (place.offset 1) len := fun hp => (hsub place hp).2 rfl
    refine hφ a segment hleads hsegment ?_
    rw [hdata _ (Set.mem_insert_of_mem _ ⟨?_, hplaceSpan⟩), Arena.word_set hplaceUsed, if_pos rfl]
    rw [Arena.fresh_write]
    exact hplaceFresh

/-- A tag in front of the elements makes the words a list of structs. -/
lemma Places.lays_inlineComposite {arena arena' : Arena} {slot place : SegmentRef}
    {words count : ElementCount} {len : ℕ} {size : StructSize}
    (h : Places arena (fun offset => ListPtr.new offset .inlineComposite words) slot place
      (len + 1) arena') (hslot : slot.pos < arena.used slot.segment)
    (hwords : words.get ≤ len) (hlt : words.get + 1 < 2 ^ 29)
    (hfits : count.get * size.total ≤ words.get) :
    Lays arena slot (place.offset 1) len
      (.list ⟨(place.offset 1).pos, .inlineComposite size, count⟩)
      (arena'.write place 1 fun _ => StructPtr.newInlineCompositeTag count size) := by
  have htagged := h.tagged hslot fun a segment hleads hsegment htag =>
    (hleads.mono_len (show words.get + 1 ≤ len + 1 by omega)).inlineComposite hlt hsegment htag hfits
  exact ⟨htagged.grows, htagged.mem_fresh, htagged.word_eq_null, htagged.rests⟩

namespace ObjectBuilder

variable {arena : Arena} {self : ObjectBuilder} {ptr : SegmentRef}

/-! ## Structs -/

/-- An allocation of a struct lays it out, or fails and changes nothing. -/
lemma allocStruct_cases (hwf : arena.Wf) (hself : self.segment = ptr.segment)
    (hptr : ptr.pos < arena.used ptr.segment) (size : StructSize) :
    (∃ start arena', self.allocStruct ptr size arena = .ok (start, ⟨start.segment⟩) arena' ∧
      Lays arena ptr start size.total (.struct ⟨start.pos, size⟩) arena') ∨
    ∃ n arena', self.allocStruct ptr size arena = .error (.allocFailed n) arena' ∧
      arena.Unchanged arena' := by
  have hlength : self.segment < arena.segments.length := by
    rw [hself]
    exact Arena.lt_length_of_used (by omega)
  have hptrLt : ptr.pos < 2 ^ 29 := Nat.lt_trans hptr (hwf.used_lt _)
  have htotal := size.total_lt
  unfold allocStruct
  rcases hnew : AllocLen.new size.total with _ | len
  · -- an empty struct: its pointer leads to itself
    have hzero : size.total = 0 := by
      rcases AllocLen.new_eq_none.1 hnew with h | h
      · exact h
      · omega
    obtain rfl := StructSize.total_eq_zero_iff.1 hzero
    left
    refine ⟨ptr, arena.write ptr 1 fun _ => StructPtr.empty, ?_, ?_⟩
    · dsimp only
      rw [bind_of_ok (setPtr_apply hwf hptr _)]
      rcases self with ⟨segment⟩
      cases hself
      rfl
    · refine ⟨Arena.grows_set hwf hptr _, ?_, ?_, ?_⟩
      · rintro r ⟨-, hle, hlt⟩
        omega
      · rintro r ⟨-, hle, hlt⟩
        omega
      · intro a hagree
        have hlength' : ptr.segment < (arena.write ptr 1 fun _ => StructPtr.empty).segments.length := by
          rw [Arena.length_write]
          exact Arena.lt_length_of_used (by omega)
        obtain ⟨segment, hsegment, hlen, hdata⟩ := agree_toRead hagree hlength'
        have hword : segment.data ptr.pos = StructPtr.empty := by
          rw [hdata _ (Set.mem_insert _ _), Arena.word_set hptr, if_pos rfl]
        rw [Arena.used_write] at hlen
        refine Leads.struct ⟨ptr.segment, ⟨StructPtr.empty, .near ptr.pos⟩, 0, _, ?_, rfl, ?_⟩
        · rw [← hword]
          refine .near hsegment ?_
          rw [hword]
          decide
        · refine .near hsegment ?_ ?_
          · show (ptr.pos : ℤ) + 1 + -1 = ptr.pos
            omega
          · show ptr.pos + 0 ≤ _
            omega
  · have hlen := AllocLen.new_eq_some.1 hnew
    dsimp only
    rcases allocInSegment_cases hwf hlength len with
      ⟨-, hrun⟩ | ⟨-, r, arena₁, hrun, hsegment, hallocates⟩
    · rw [bind_of_ok hrun]
      dsimp only
      rw [AllocLen.new_of_mem (Nat.succ_pos _) (by omega), unwrap_some, pure_bind_eq]
      rcases @allocInArena_cases arena self hwf ⟨size.total + 1, Nat.succ_pos _, by omega⟩ with
        ⟨arena', hrun, hunchanged⟩ | ⟨pad, arena₁, hrun, hallocates⟩
      · right
        refine ⟨size.total + 1, arena', ?_, hunchanged⟩
        rw [bind_of_ok hrun]
        rfl
      · left
        have hpadLt : pad.pos < 2 ^ 29 := hallocates.pos_lt hwf
        obtain ⟨offset, hoffsetRun, hoffset⟩ :=
          @offsetFromStart_apply arena₁ ⟨pad.segment⟩ pad rfl hpadLt
        have hptr₁ := hallocates.grows.lt_used hptr
        have hpadUsed := hallocates.lt_used (Nat.succ_pos _)
        have hwf₂ := hallocates.wf.set hptr₁ (FarPtr.new pad.segment offset false)
        refine ⟨pad.offset 1, _, ?_, (places_far hwf hptr hallocates hoffset).lays
          fun a h => Leads.struct h⟩
        rw [bind_of_ok hrun, okOr_some, pure_bind_eq]
        dsimp only
        rw [bind_of_ok hoffsetRun, bind_of_ok (id_apply hallocates.wf
          (hallocates.lt_length (Nat.succ_pos _))), bind_of_ok
          (setPtr_apply hallocates.wf hptr₁ _), bind_of_ok (setPtr_apply hwf₂ (by
            rw [Arena.used_write]
            exact hpadUsed) _)]
        rfl
    · left
      have hrLt : r.pos < 2 ^ 29 := hallocates.pos_lt hwf
      have hptrSegment : ptr.segment = r.segment := hself.symm.trans hsegment.symm
      obtain ⟨offset, hoffsetRun, hoffset⟩ :=
        @offsetFromEndOf_apply arena₁ self ptr r hptrSegment hptrLt hrLt
      have hptr₁ := hallocates.grows.lt_used hptr
      have hkind : WirePtr.kind (StructPtr.new offset size) ≠ .far := by
        rw [StructPtr.kind_new]
        decide
      have hplaces := @places_near arena arena₁ (fun offset => StructPtr.new offset size) ptr hwf
        hptr r _ hallocates hptrSegment offset hoffset hkind
      rw [hlen] at hplaces
      refine ⟨r, _, ?_, hplaces.lays fun a h => Leads.struct h⟩
      rw [bind_of_ok hrun]
      dsimp only
      rw [bind_of_ok hoffsetRun, bind_of_ok (setPtr_apply hallocates.wf hptr₁ _),
        hsegment]
      rfl

/-! ## Lists -/

/-- A list that fills a segment gets a double-far landing pad. -/
lemma allocSegmentOfList_cases (hwf : arena.Wf) (hself : self.segment = ptr.segment)
    (hptr : ptr.pos < arena.used ptr.segment) (size : ElementSize) (count : ElementCount) :
    (∃ start arena', self.allocSegmentOfList ptr size count arena
        = .ok (start, ⟨start.segment⟩) arena' ∧
      Places arena (fun offset => ListPtr.new offset size.asPtrSize count) ptr start
        AllocLen.max.get arena') ∨
    ∃ n arena', self.allocSegmentOfList ptr size count arena = .error (.allocFailed n) arena' ∧
      arena.Grows ∅ arena' := by
  have hlength : self.segment < arena.segments.length := by
    rw [hself]
    exact Arena.lt_length_of_used (by omega)
  unfold allocSegmentOfList allocDoubleFarLandingPad
  rcases alloc_cases hwf hlength landingPadLen with
    ⟨arena₁, hpadRun, hunchanged⟩ | ⟨pad, arena₁, hpadRun, hpadAlloc⟩
  · right
    refine ⟨landingPadLen.get, arena₁, ?_, hunchanged.grows⟩
    rw [bind_apply, bind_of_ok hpadRun]
    rfl
  · rcases @allocInArena_cases arena₁ self hpadAlloc.wf AllocLen.max with
      ⟨arena₂, hrun, hunchanged⟩ | ⟨start, arena₂, hrun, hallocates⟩
    · right
      refine ⟨AllocLen.max.get, arena₂, ?_,
        hpadAlloc.grows.trans hunchanged.grows fun _ _ h => h⟩
      rw [bind_apply, bind_of_ok hpadRun]
      show (self.allocInArena AllocLen.max >>= _) arena₁ = _
      rw [bind_of_ok hrun]
      rfl
    · left
      have hpadPair : arena.Allocates pad 2 arena₁ := hpadAlloc
      have hpadLt : pad.pos < 2 ^ 29 := hpadAlloc.pos_lt hwf
      have hstartLt : start.pos < 2 ^ 29 := hallocates.pos_lt hpadAlloc.wf
      obtain ⟨offset, hoffsetRun, hoffset⟩ :=
        @offsetFromStart_apply arena₂ ⟨pad.segment⟩ pad rfl hpadLt
      have hpadUsed₁ : ∀ p ∈ span pad 2, p.pos < arena₂.used p.segment := fun p hp =>
        Nat.lt_of_lt_of_le (Arena.mem_fresh.1 (hpadPair.mem_fresh hp)).2
          (hallocates.grows.used_le _)
      have hpadUsed := hpadUsed₁ pad ⟨rfl, Nat.le_refl _, by omega⟩
      have htagUsed := hpadUsed₁ (pad.offset 1) ⟨rfl, Nat.le_succ _, Nat.lt_succ_self _⟩
      have hptr₂ : ptr.pos < arena₂.used ptr.segment :=
        Nat.lt_of_lt_of_le hptr
          (Nat.le_trans (hpadAlloc.grows.used_le _) (hallocates.grows.used_le _))
      have hwf₃ := hallocates.wf.set hptr₂ (FarPtr.new pad.segment offset true)
      obtain ⟨offset', hoffsetRun', hoffset'⟩ := @offsetFromStart_apply
        (arena₂.write ptr 1 fun _ => FarPtr.new pad.segment offset true) ⟨start.segment⟩ start
        rfl hstartLt
      have hpadUsed₃ : pad.pos
          < (arena₂.write ptr 1 fun _ => FarPtr.new pad.segment offset true).used pad.segment := by
        rw [Arena.used_write]
        exact hpadUsed
      have hwf₄ := hwf₃.set hpadUsed₃ (FarPtr.new start.segment offset' false)
      refine ⟨start, _, ?_, places_doubleFar hptr hpadPair hallocates (by decide) hoffset hoffset'⟩
      rw [bind_apply, bind_of_ok hpadRun]
      show (self.allocInArena AllocLen.max >>= _) arena₁ = _
      have hpadLength : pad.segment < arena₂.segments.length :=
        Arena.lt_length_of_used (by omega)
      have hstartLength := hallocates.lt_length (by decide)
      rw [bind_of_ok hrun, okOr_some, pure_bind_eq]
      dsimp only
      rw [bind_of_ok hoffsetRun, bind_of_ok (id_apply hallocates.wf hpadLength),
        bind_of_ok (setPtr_apply hallocates.wf hptr₂ _), bind_of_ok hoffsetRun',
        bind_of_ok (id_apply hwf₃ (by
          rw [Arena.length_write]
          exact hstartLength)),
        bind_of_ok (setPtr_apply hwf₃ hpadUsed₃ _),
        bind_of_ok (setPtr_apply hwf₄ (by
          rw [Arena.used_write, Arena.used_write]
          exact htagUsed) _)]
      rfl

/-- The words of a list are placed in one of three ways.  With a double-far landing pad the
count is always that of the elements. -/
lemma placeList_cases (hwf : arena.Wf) (hself : self.segment = ptr.segment)
    (hptr : ptr.pos < arena.used ptr.segment) (size : ElementSize) (count words : ElementCount)
    (len : AllocLen) :
    (∃ place arena', self.placeList ptr size count words len arena
        = .ok (place, ⟨place.segment⟩) arena' ∧
      Places arena (fun offset => ListPtr.new offset size.asPtrSize
        (if len = AllocLen.max then count else words)) ptr place len.get arena') ∨
    ∃ n arena', self.placeList ptr size count words len arena = .error (.allocFailed n) arena' ∧
      arena.Grows ∅ arena' := by
  have hlength : self.segment < arena.segments.length := by
    rw [hself]
    exact Arena.lt_length_of_used (by omega)
  have hptrLt : ptr.pos < 2 ^ 29 := Nat.lt_trans hptr (hwf.used_lt _)
  unfold placeList
  rcases allocInSegment_cases hwf hlength len with
    ⟨-, hrun⟩ | ⟨hroom, r, arena₁, hrun, hsegment, hallocates⟩
  · rw [bind_of_ok hrun]
    dsimp only
    rcases hnew : AllocLen.new (len.get + 1) with _ | lenWithPad
    · have hmax : len = AllocLen.max := by
        have hlt := len.get_lt
        apply AllocLen.ext
        rcases AllocLen.new_eq_none.1 hnew with h | h
        · omega
        · show len.get = 2 ^ 29 - 1
          omega
      subst hmax
      exact allocSegmentOfList_cases hwf hself hptr size count
    · have hget := AllocLen.new_eq_some.1 hnew
      dsimp only
      rcases @allocInArena_cases arena self hwf lenWithPad with
        ⟨arena', hrun, hunchanged⟩ | ⟨pad, arena₁, hrun, hallocates⟩
      · right
        refine ⟨lenWithPad.get, arena', ?_, hunchanged.grows⟩
        rw [bind_of_ok hrun]
        rfl
      · left
        rw [hget] at hallocates
        have hlt := lenWithPad.get_lt
        have hmax : len ≠ AllocLen.max := by
          rintro rfl
          have hmaxGet : AllocLen.max.get = 2 ^ 29 - 1 := rfl
          omega
        have hpadLt : pad.pos < 2 ^ 29 := hallocates.pos_lt hwf
        obtain ⟨offset, hoffsetRun, hoffset⟩ :=
          @offsetFromStart_apply arena₁ ⟨pad.segment⟩ pad rfl hpadLt
        have hptr₁ := hallocates.grows.lt_used hptr
        have hpadUsed := hallocates.lt_used (Nat.succ_pos _)
        have hwf₂ := hallocates.wf.set hptr₁ (FarPtr.new pad.segment offset false)
        refine ⟨pad.offset 1, _, ?_, places_far hwf hptr hallocates hoffset⟩
        rw [bind_of_ok hrun, okOr_some, pure_bind_eq]
        dsimp only
        rw [bind_of_ok hoffsetRun, bind_of_ok (id_apply hallocates.wf
          (hallocates.lt_length (Nat.succ_pos _))), bind_of_ok
          (setPtr_apply hallocates.wf hptr₁ _), bind_of_ok (setPtr_apply hwf₂ (by
            rw [Arena.used_write]
            exact hpadUsed) _), if_neg hmax]
        rfl
  · left
    have hmax : len ≠ AllocLen.max := by
      rintro rfl
      have hmaxGet : AllocLen.max.get = 2 ^ 29 - 1 := rfl
      have hlt := arena.len_lt self.segment
      rw [hself] at hroom hlt
      omega
    have hrLt : r.pos < 2 ^ 29 := hallocates.pos_lt hwf
    have hptrSegment : ptr.segment = r.segment := hself.symm.trans hsegment.symm
    obtain ⟨offset, hoffsetRun, hoffset⟩ :=
      @offsetFromEndOf_apply arena₁ self ptr r hptrSegment hptrLt hrLt
    have hptr₁ := hallocates.grows.lt_used hptr
    refine ⟨r, _, ?_, places_near hwf hptr hallocates hptrSegment hoffset (by
      rw [ListPtr.kind_new]
      decide)⟩
    rw [bind_of_ok hrun]
    dsimp only
    rw [if_neg hmax, bind_of_ok hoffsetRun,
      bind_of_ok (setPtr_apply hallocates.wf hptr₁ _), hsegment]
    rfl

end ObjectBuilder

/-- The words of a list in a segment, the tag of a list of structs included. -/
def ElementSize.exactWords (size : ElementSize) (count : ElementCount) : ℕ :=
  (size.bits * count.get + 63) / 64 + if size.isInlineComposite then 1 else 0

/-- A list of structs of two or more words that fills a segment together with its tag. -/
def FillsSegment : ElementSize → ElementCount → Prop
  | .inlineComposite size, count => 2 ≤ size.total ∧ count.get * size.total + 1 = U29.maxValue
  | _, _ => False

section Fits

variable {size : ElementSize} {count : ElementCount}

lemma totalWords_of_fits (hfits : size.exactWords count < 2 ^ 29) :
    size.totalWords count.get = (size.bits * count.get + 63) / 64 := by
  unfold ElementSize.exactWords at hfits
  exact Nat.mod_eq_of_lt (by omega)

lemma totalSize_of_fits (hfits : size.exactWords count < 2 ^ 29) :
    (size.totalWords count.get + if size.isInlineComposite then 1 else 0) % 2 ^ 32
      = size.exactWords count := by
  rw [totalWords_of_fits hfits]
  exact Nat.mod_eq_of_lt (by
    show size.exactWords count < 2 ^ 32
    omega)

lemma totalWords_inlineComposite {s : StructSize}
    (hfits : (ElementSize.inlineComposite s).exactWords count < 2 ^ 29) :
    (ElementSize.inlineComposite s).totalWords count.get = count.get * s.total := by
  rw [totalWords_of_fits hfits]
  show (s.total * 64 * count.get + 63) / 64 = _
  rw [Nat.mul_right_comm, Nat.mul_comm s.total]
  omega

lemma exactWords_inlineComposite {s : StructSize} :
    (ElementSize.inlineComposite s).exactWords count = count.get * s.total + 1 := by
  show (s.total * 64 * count.get + 63) / 64 + 1 = _
  rw [Nat.mul_right_comm, Nat.mul_comm s.total]
  omega

end Fits

namespace ObjectBuilder

variable {arena : Arena} {self : ObjectBuilder} {ptr : SegmentRef} {size : ElementSize}
  {count : ElementCount}

/-- A list that has words is placed, and then its tag is written. -/
lemma allocList_eq (hfits : size.exactWords count < 2 ^ 29) (hpos : size.exactWords count ≠ 0) :
    ∃ words : ElementCount, ∃ len : AllocLen,
      words.get = (if size.isInlineComposite then size.totalWords count.get else count.get) ∧
      len.get = size.exactWords count ∧
      ∀ arena, self.allocList ptr size count arena
        = (self.placeList ptr size count words len >>= fun (start, segment) =>
            setTag segment start count size >>= fun start =>
              pure (start, len.toU29, segment)) arena := by
  have htotal := totalSize_of_fits hfits
  have hwordsLt : size.totalWords count.get < 2 ^ 29 := by
    have hexact := totalWords_of_fits hfits
    unfold ElementSize.exactWords at hfits
    omega
  obtain ⟨words, hwords, hwordsRun⟩ : ∃ words : ElementCount,
      words.get = (if size.isInlineComposite then size.totalWords count.get else count.get) ∧
      (if size.isInlineComposite = true then Prog.unwrap (U29.new (size.totalWords count.get))
        else pure count : BuildM ElementCount) = pure words := by
    cases hcomposite : size.isInlineComposite
    · exact ⟨count, rfl, rfl⟩
    · refine ⟨⟨_, hwordsLt⟩, rfl, ?_⟩
      rw [if_pos rfl, U29.new_of_lt hwordsLt]
      rfl
  have hlen : ∃ len : AllocLen, len.get = size.exactWords count ∧
      AllocLen.new (size.exactWords count) = some len :=
    ⟨⟨_, Nat.pos_of_ne_zero hpos, hfits⟩, rfl, AllocLen.new_of_mem _ _⟩
  obtain ⟨len, hlen, hnew⟩ := hlen
  refine ⟨words, len, hwords, hlen, fun arena => ?_⟩
  unfold allocList
  dsimp only
  rw [htotal]
  rw [if_neg_apply hpos, hnew, okOr_some, pure_bind_eq]
  show ((if size.isInlineComposite = true then Prog.unwrap (U29.new (size.totalWords count.get))
    else pure count : BuildM ElementCount) >>= _) arena = _
  rw [hwordsRun, pure_bind_eq]

/-- A list that has words: they are placed, and the tag is written. -/
lemma allocList_place (hwf : arena.Wf) (hself : self.segment = ptr.segment)
    (hptr : ptr.pos < arena.used ptr.segment) (hfits : size.exactWords count < 2 ^ 29)
    (hpos : size.exactWords count ≠ 0) :
    (∃ words : ElementCount, ∃ len : AllocLen, ∃ place arena₁,
      words.get = (if size.isInlineComposite then size.totalWords count.get else count.get) ∧
      len.get = size.exactWords count ∧
      Places arena (fun offset => ListPtr.new offset size.asPtrSize
        (if len = AllocLen.max then count else words)) ptr place len.get arena₁ ∧
      self.allocList ptr size count arena
        = (setTag ⟨place.segment⟩ place count size >>= fun start =>
            pure (start, len.toU29, ⟨place.segment⟩)) arena₁) ∨
    ∃ n arena', self.allocList ptr size count arena = .error (.allocFailed n) arena' ∧
      arena.Grows ∅ arena' := by
  obtain ⟨words, len, hwords, hlen, hrun⟩ := @allocList_eq self ptr size count hfits hpos
  rcases placeList_cases hwf hself hptr size count words len with
    ⟨place, arena₁, hplaceRun, hplaces⟩ | ⟨n, arena', herror, hgrows⟩
  · left
    refine ⟨words, len, place, arena₁, hwords, hlen, hplaces, ?_⟩
    rw [hrun, bind_of_ok hplaceRun]
  · right
    refine ⟨n, arena', ?_, hgrows⟩
    rw [hrun, bind_of_error herror]

/-- A list without any words. -/
lemma allocList_zero (hwf : arena.Wf) (hptr : ptr.pos < arena.used ptr.segment)
    (hself : self.segment = ptr.segment) (hfits : size.exactWords count < 2 ^ 29)
    (hzero : size.exactWords count = 0) :
    self.allocList ptr size count arena = .ok (ptr.offset 1, U29.zero, ⟨ptr.segment⟩)
      (arena.write ptr 1 fun _ => ListPtr.new I30.zero size.asPtrSize count) ∧
    Lays arena ptr (ptr.offset 1) 0 (.list ⟨(ptr.offset 1).pos, size, count⟩)
      (arena.write ptr 1 fun _ => ListPtr.new I30.zero size.asPtrSize count) := by
  have htotal := totalSize_of_fits hfits
  have hcomposite : size.isInlineComposite = false := by
    unfold ElementSize.exactWords at hzero
    cases h : size.isInlineComposite
    · rfl
    · rw [h] at hzero
      simp at hzero
  have hwords : size.totalWords count.get = 0 := by
    rw [totalWords_of_fits hfits]
    unfold ElementSize.exactWords at hzero
    omega
  refine ⟨?_, Arena.grows_set hwf hptr _, ?_, ?_, ?_⟩
  · unfold allocList
    dsimp only
    rw [htotal, if_pos_apply hzero, bind_of_ok (setPtr_apply hwf hptr _)]
    rcases self with ⟨segment⟩
    cases hself
    rfl
  · rintro r ⟨-, hle, hlt⟩
    omega
  · rintro r ⟨-, hle, hlt⟩
    omega
  · intro a hagree
    have hlength : ptr.segment < (arena.write ptr 1 fun _ =>
        ListPtr.new I30.zero size.asPtrSize count).segments.length := by
      rw [Arena.length_write]
      exact Arena.lt_length_of_used (by omega)
    obtain ⟨segment, hsegment, hlen, hdata⟩ := agree_toRead hagree hlength
    have hword : segment.data ptr.pos
        = ListPtr.new I30.zero size.asPtrSize count := by
      rw [hdata _ (Set.mem_insert _ _), Arena.word_set hptr, if_pos rfl]
    rw [Arena.used_write] at hlen
    refine Leads.list hcomposite ⟨ptr.segment,
      ⟨ListPtr.new I30.zero size.asPtrSize count, .near ptr.pos⟩, 0, _, ?_, rfl, ?_⟩
    · rw [← hword]
      refine .near hsegment ?_
      rw [hword, ListPtr.kind_new]
      decide
    · refine .near hsegment ?_ ?_
      · show (ptr.pos : ℤ) + 1 + 0 = (ptr.pos + 1 : ℕ)
        omega
      · rw [hwords]
        show ptr.pos + 1 + 0 ≤ _
        omega

/-- An allocation of a list that does not fill a segment lays it out, or fails and changes
nothing that was there. -/
lemma allocList_cases (hwf : arena.Wf) (hself : self.segment = ptr.segment)
    (hptr : ptr.pos < arena.used ptr.segment) (hfits : size.exactWords count < 2 ^ 29)
    (hfills : ¬ FillsSegment size count) :
    (∃ start len arena', self.allocList ptr size count arena
        = .ok (start, len, ⟨start.segment⟩) arena' ∧ len.get = size.exactWords count ∧
      Lays arena ptr start (size.totalWords count.get) (.list ⟨start.pos, size, count⟩) arena') ∨
    ∃ n arena', self.allocList ptr size count arena = .error (.allocFailed n) arena' ∧
      arena.Grows ∅ arena' := by
  by_cases hzero : size.exactWords count = 0
  · obtain ⟨hrun, hlays⟩ := allocList_zero hwf hptr hself hfits hzero
    have hwords : size.totalWords count.get = 0 := by
      rw [totalWords_of_fits hfits]
      unfold ElementSize.exactWords at hzero
      omega
    left
    refine ⟨ptr.offset 1, U29.zero, _, hrun, hzero.symm, ?_⟩
    rw [hwords]
    exact hlays
  · rcases allocList_place hwf hself hptr hfits hzero with
      ⟨words, len, place, arena₁, hwords, hlen, hplaces, hrun⟩ | herror
    · left
      cases size with
      | inlineComposite s =>
        have hexact := @exactWords_inlineComposite count s
        have htotal := totalWords_inlineComposite hfits
        replace hwords : words.get = (ElementSize.inlineComposite s).totalWords count.get := hwords
        have hlenLt := len.get_lt
        rw [hlen, hexact] at hplaces
        obtain ⟨listWords, hlistWords, hle, hge⟩ : ∃ listWords : ElementCount,
            listWords = (if len = AllocLen.max then count else words) ∧
            listWords.get ≤ count.get * s.total ∧ count.get * s.total ≤ listWords.get := by
          by_cases hmax : len = AllocLen.max
          · -- the whole segment: the structs have one word each
            refine ⟨count, (if_pos hmax).symm, ?_⟩
            have hfull : count.get * s.total + 1 = U29.maxValue := by
              rw [← hexact, ← hlen, hmax]
              rfl
            have hone : s.total = 1 := by
              have hlt : ¬ 2 ≤ s.total := fun h => hfills ⟨h, hfull⟩
              have hne : s.total ≠ 0 := by
                intro h
                rw [h] at hfull
                cases hfull
              omega
            rw [hone, Nat.mul_one]
            exact ⟨Nat.le_refl _, Nat.le_refl _⟩
          · refine ⟨words, (if_neg hmax).symm, ?_⟩
            rw [hwords, htotal]
            exact ⟨Nat.le_refl _, Nat.le_refl _⟩
        rw [← hlistWords] at hplaces
        have hplaceUsed : place.pos < arena₁.used place.segment :=
          (Arena.mem_fresh.1 (hplaces.mem_fresh place ⟨rfl, Nat.le_refl _, by omega⟩)).2
        have hlays := @Places.lays_inlineComposite _ _ _ _ _ count _ s hplaces hptr hle
          (by omega) hge
        refine ⟨place.offset 1, len.toU29,
          arena₁.write place 1 fun _ => StructPtr.newInlineCompositeTag count s, ?_, hlen, ?_⟩
        · rw [hrun, setTag, bind_apply, bind_of_ok (setPtr_apply hplaces.grows.wf
            hplaceUsed _)]
          rfl
        · rw [htotal]
          exact hlays
      | _ =>
        have hcount : (if len = AllocLen.max then count else words) = count := by
          have heq : words = count := U29.ext hwords
          rw [heq, ite_self]
        rw [hlen, hcount] at hplaces
        have hexact := totalWords_of_fits hfits
        refine ⟨place, len.toU29, arena₁, hrun, hlen, ?_⟩
        rw [hexact]
        refine hplaces.lays fun a h => ?_
        apply Leads.list rfl
        rw [hexact]
        exact h
    · exact Or.inr herror

/-- An allocation of a list of structs that fills a segment gets a pointer that readers refuse. -/
lemma allocList_full (hwf : arena.Wf) (hself : self.segment = ptr.segment)
    (hptr : ptr.pos < arena.used ptr.segment) (hfills : FillsSegment size count) :
    (∃ start len arena', self.allocList ptr size count arena
        = .ok (start, len, ⟨start.segment⟩) arena' ∧ len.get = size.exactWords count ∧
      arena'.word ptr ≠ Word.null ∧ Reserves arena ptr start (size.totalWords count.get)
        (fun a => ∀ id typed cost, ¬ Denotes a ptr.segment ptr.pos id typed cost) arena') ∨
    ∃ n arena', self.allocList ptr size count arena = .error (.allocFailed n) arena' ∧
      arena.Grows ∅ arena' := by
  cases size with
  | inlineComposite s =>
    obtain ⟨htwo, hfull⟩ := hfills
    have hmaxValue := U29.maxValue_eq
    have hexact := @exactWords_inlineComposite count s
    have hfits : (ElementSize.inlineComposite s).exactWords count < 2 ^ 29 := by omega
    have hpos : (ElementSize.inlineComposite s).exactWords count ≠ 0 := by omega
    rcases allocList_place hwf hself hptr hfits hpos with
      ⟨words, len', place, arena₁, -, hlen, hplaces, hrun⟩ | herror
    · left
      have hmax : len' = AllocLen.max := by
        apply AllocLen.ext
        rw [hlen, hexact, hfull]
        rfl
      have hdouble : count.get * 2 ≤ count.get * s.total := Nat.mul_le_mul_left _ htwo
      rw [if_pos hmax, hlen, hexact] at hplaces
      have hplaceFresh := hplaces.mem_fresh place ⟨rfl, Nat.le_refl _, by omega⟩
      have hplaceUsed := (Arena.mem_fresh.1 hplaceFresh).2
      have hptr' := hplaces.grows.lt_used hptr
      refine ⟨place.offset 1, len'.toU29,
        arena₁.write place 1 fun _ => StructPtr.newInlineCompositeTag count s, ?_, hlen, ?_, ?_⟩
      · rw [hrun, setTag, bind_apply, bind_of_ok (setPtr_apply hplaces.grows.wf
          hplaceUsed _)]
        rfl
      · rw [Arena.word_set hplaceUsed, if_neg fun heq => ne_of_fresh hptr hplaceFresh heq.symm]
        exact word_ne_null_of_leads (Arena.lt_length_of_used (Nat.zero_lt_of_lt hptr'))
          hplaces.leads.holds
      · rw [totalWords_inlineComposite hfits]
        exact hplaces.tagged hptr fun a segment hleads hsegment htag id typed cost =>
          hleads.not_denotes hsegment htag (by omega)
    · exact Or.inr herror
  | _ => exact hfills.elim

/-- The reader refuses a list of structs that fills a segment. -/
lemma allocList_fills (hwf : arena.Wf) (hself : self.segment = ptr.segment)
    (hptr : ptr.pos < arena.used ptr.segment) (hfills : FillsSegment size count)
    {start : SegmentRef} {len : ObjectLen} {builder : ObjectBuilder} {arena' : Arena}
    (h : self.allocList ptr size count arena = .ok (start, len, builder) arena') (id : SegmentId)
    (typed : TypedContent) (cost : ℕ) :
    ¬ Denotes arena'.toRead ptr.segment ptr.pos id typed cost := by
  rcases allocList_full hwf hself hptr hfills with
    ⟨_, _, arena₁, hrun, -, -, hreserves⟩ | ⟨n, arena₁, hrun, -⟩
  · cases hrun.symm.trans h
    exact hreserves.rests.holds id typed cost
  · cases hrun.symm.trans h

end ObjectBuilder

/-! ## Reading back -/

/-- The arenas that object builders reach: the root segment is allocated, and then words are
allocated in segments or anywhere, and used words are written. -/
inductive Reachable (allocator : Alloc) : Arena → Prop
  | root {arena : Arena} (hrun : Arena.allocRoot (Arena.new allocator) = .ok () arena) :
      Reachable allocator arena
  | allocInSegment {arena arena' : Arena} {self : ObjectBuilder} {size : AllocLen}
      {place : Option SegmentRef} (h : Reachable allocator arena)
      (hself : self.segment < arena.segments.length)
      (hrun : self.allocInSegment size arena = .ok place arena') : Reachable allocator arena'
  | allocInArena {arena arena' : Arena} {self : ObjectBuilder} {size : AllocLen}
      {place : Option (SegmentRef × ObjectBuilder)} (h : Reachable allocator arena)
      (hrun : self.allocInArena size arena = .ok place arena') : Reachable allocator arena'
  | write {arena : Arena} (h : Reachable allocator arena) (start : SegmentRef) (len : ℕ)
      (hlen : start.pos + len ≤ arena.used start.segment) (words : ℕ → Word) :
      Reachable allocator (arena.write start len words)

lemma Reachable.wf {allocator : Alloc} {arena : Arena} (h : Reachable allocator arena) :
    arena.Wf := by
  induction h with
  | root hrun => exact (Arena.allocRoot_new_eq_ok hrun).1
  | @allocInSegment arena arena' self size place _ hself hrun ih =>
    rcases ObjectBuilder.allocInSegment_cases ih hself size with
      ⟨-, hrun'⟩ | ⟨-, r, arena₁, hrun', -, hallocates⟩
    · rw [hrun'] at hrun
      cases hrun
      exact ih
    · rw [hrun'] at hrun
      cases hrun
      exact hallocates.wf
  | @allocInArena arena arena' self size place _ hrun ih =>
    rcases @ObjectBuilder.allocInArena_cases arena self ih size with
      ⟨arena₁, hrun', hunchanged⟩ | ⟨r, arena₁, hrun', hallocates⟩
    · rw [hrun'] at hrun
      cases hrun
      exact hunchanged.wf
    · rw [hrun'] at hrun
      cases hrun
      exact hallocates.wf
  | write _ _ _ hlen words ih => exact ih.write hlen words

/-- Resolve the pointer at a slot with a reader of the arena. -/
def Arena.resolve (arena : Arena) (slot : SegmentRef) :
    Outcome Error Limiter (ObjectReader × TypedContent) :=
  match arena.toRead slot.segment with
  | some segment =>
    (ObjectReader.inSegment arena.toRead slot.segment segment).tryReadTyped slot.pos none
  | none => .halt .panic

/-- The pointer at a slot resolves to the object, in the segment of `start`. -/
def Arena.ResolvesTo (arena : Arena) (slot start : SegmentRef) (typed : TypedContent) : Prop :=
  ∃ segment, arena.toRead start.segment = some segment ∧
    arena.resolve slot
      = .ok (ObjectReader.inSegment arena.toRead start.segment segment, typed) none

lemma Arena.resolvesTo_iff {arena : Arena} {slot start : SegmentRef} {typed : TypedContent}
    (hslot : slot.pos < arena.used slot.segment) :
    arena.ResolvesTo slot start typed ↔
      ∃ cost, Denotes arena.toRead slot.segment slot.pos start.segment typed cost := by
  obtain ⟨segment, hsegment, -, -⟩ :=
    Arena.toRead_eq_some (Arena.lt_length_of_used (Nat.zero_lt_of_lt hslot))
  unfold ResolvesTo resolve
  rw [hsegment]
  dsimp only
  constructor
  · rintro ⟨segment', hsegment', hread⟩
    obtain ⟨id, segment'', cost, hsegment'', hreader, hdenotes, -⟩ :=
      (tryReadTyped_eq_ok hsegment).1 hread
    cases hreader
    exact ⟨cost, hdenotes⟩
  · rintro ⟨cost, hdenotes⟩
    obtain ⟨mid, content, pads, words, hlocates, hdescribes, -⟩ := id hdenotes
    obtain ⟨segment', hsegment'⟩ : ∃ segment', arena.toRead start.segment = some segment' := by
      cases hdescribes with
      | struct _ hplaced | list _ _ _ _ hplaced | inlineComposite _ _ _ _ hplaced =>
        exact hplaced.bounds.imp fun _ h => h.1
      | capability => exact hlocates.segment
    exact ⟨segment', hsegment', (tryReadTyped_eq_ok hsegment).2
      ⟨_, segment', cost, hsegment', rfl, hdenotes, rfl⟩⟩

/-- **Allocated objects read back**, in every reachable arena and for every slot in it, whether
the object is near, behind a landing pad or fills a segment: a struct always, and a list unless
it is a list of structs of two or more words that fills a segment together with its tag. -/
theorem alloc_reads_back {allocator : Alloc} {arena : Arena} (h : Reachable allocator arena)
    {slot : SegmentRef} (hslot : slot.pos < arena.used slot.segment) :
    (∀ size start builder arena',
      (⟨slot.segment⟩ : ObjectBuilder).allocStruct slot size arena = .ok (start, builder) arena' →
      arena'.ResolvesTo slot start (.struct ⟨start.pos, size⟩)) ∧
    (∀ (size : ElementSize) (count : ElementCount) start len builder arena',
      size.exactWords count < 2 ^ 29 →
      (⟨slot.segment⟩ : ObjectBuilder).allocList slot size count arena
        = .ok (start, len, builder) arena' →
      (arena'.ResolvesTo slot start (.list ⟨start.pos, size, count⟩) ↔
        ¬ FillsSegment size count)) := by
  have hwf := h.wf
  constructor
  · intro size start builder arena' hrun
    rcases @ObjectBuilder.allocStruct_cases arena ⟨slot.segment⟩ slot hwf rfl hslot size with
      ⟨start', arena₁, hrun', hlays⟩ | ⟨n, arena₁, herror, -⟩
    · rw [hrun'] at hrun
      cases hrun
      have hslot' := Nat.lt_of_lt_of_le hslot (hlays.grows.used_le _)
      exact (Arena.resolvesTo_iff hslot').2 hlays.denotes.holds
    · rw [herror] at hrun
      cases hrun
  · intro size count start len builder arena' hfits hrun
    by_cases hfills : FillsSegment size count
    · refine ⟨fun hresolves => ?_, fun hnot => absurd hfills hnot⟩
      obtain ⟨segment, -, hread⟩ := hresolves
      obtain ⟨seg, hseg, -, -⟩ : ∃ seg, arena'.toRead slot.segment = some seg ∧ True ∧ True := by
        rcases hseg : arena'.toRead slot.segment with _ | seg
        · rw [Arena.resolve, hseg] at hread
          cases hread
        · exact ⟨seg, rfl, trivial, trivial⟩
      rw [Arena.resolve, hseg] at hread
      obtain ⟨id, -, cost, -, -, hdenotes, -⟩ := (tryReadTyped_eq_ok hseg).1 hread
      exact absurd hdenotes
        (ObjectBuilder.allocList_fills hwf rfl hslot hfills hrun id _ cost)
    · refine ⟨fun _ => hfills, fun _ => ?_⟩
      rcases @ObjectBuilder.allocList_cases arena ⟨slot.segment⟩ slot size count hwf rfl hslot hfits
          hfills with
        ⟨start', len', arena₁, hrun', -, hlays⟩ | ⟨n, arena₁, herror, -⟩
      · rw [hrun'] at hrun
        cases hrun
        have hslot' := Nat.lt_of_lt_of_le hslot (hlays.grows.used_le _)
        exact (Arena.resolvesTo_iff hslot').2 hlays.denotes.holds
      · rw [herror] at hrun
        cases hrun

/-- An arena with its root segment of one word, from an allocator that never gives more than it
is asked for. -/
def rootArena : Arena :=
  ⟨.global, [AllocLen.one], [⟨⟨fun _ => Word.null, ⟨1, U29.one_lt⟩⟩, 0, .used AllocLen.one⟩], 0⟩

lemma reachable_rootArena : Reachable .global rootArena := .root rfl

/-- Two data words. -/
def twoWords : StructSize := ⟨2, 0, StructSize.two_lt, StructSize.zero_lt⟩

theorem alloc_reads_back_rootArena :
    ∃ start builder arena',
      (⟨0⟩ : ObjectBuilder).allocStruct ⟨0, 0⟩ twoWords rootArena = .ok (start, builder) arena' ∧
      arena'.ResolvesTo ⟨0, 0⟩ start (.struct ⟨start.pos, twoWords⟩) :=
  ⟨_, _, _, rfl, (@alloc_reads_back _ _ reachable_rootArena ⟨0, 0⟩ (by decide)).1 twoWords _ _ _ rfl⟩

/-- So many structs of two words fill a segment together with their tag. -/
def fullCount : ElementCount := ⟨2 ^ 28 - 1, by decide⟩

theorem not_alloc_reads_back :
    ∃ start len builder arena', Reachable .global rootArena ∧
      (ElementSize.inlineComposite twoWords).exactWords fullCount < 2 ^ 29 ∧
      (⟨0⟩ : ObjectBuilder).allocList ⟨0, 0⟩ (.inlineComposite twoWords) fullCount rootArena
        = .ok (start, len, builder) arena' ∧
      arena'.resolve ⟨0, 0⟩ = .error .inlineCompositeOverrun none := by
  refine ⟨_, _, _, _, reachable_rootArena, by decide, rfl, ?_⟩
  rfl

end Recapn.Ptr

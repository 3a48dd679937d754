/-
# Copies that stay in one segment

An arena over a buffer that was handed in has its root segment alone, and its allocator gives out
no other.  Whatever is copied into it lies in that segment, and is reached by near pointers only.
It can be read without checks then.
-/
import Recapn.Ptr.CopyCost
import Recapn.Ptr.Unchecked

namespace Recapn.Ptr

open Recapn.Lib Recapn.Lib.Prog

/-! ## Arenas of one segment -/

namespace Arena

/-- The words of a segment. -/
def memory (arena : Arena) (g : ℕ) : ℕ → Word := fun pos => arena.word ⟨g, pos⟩

/-- The arena has its root segment alone, of so many words, and its allocator gives out no other
one. -/
structure Lone (room : ℕ) (arena : Arena) : Prop where
  length : arena.segments.length = 1
  len_eq : arena.len 0 = room
  refuses : ∀ more size, arena.allocator.alloc (more ++ arena.requests) size = none

/-- The arena stays so. -/
def loneTerms (room : ℕ) : Prog.Terms Error Arena := ⟨Lone room, fun _ => True, fun _ => True⟩

variable {room : ℕ}

lemma tryUseLen_ne_error (size : AllocLen) {s s' : ArenaSegment} {e : Error}
    (h : ArenaSegment.tryUseLen size s = .error e s') : False := by
  rw [ArenaSegment.tryUseLen, bind_of_ok (get_apply s)] at h
  rcases hstate : s.state with used | _ | _
  · rw [hstate] at h
    dsimp only at h
    by_cases hfull : s.segment.len.get < used.get + size.get
    · rw [if_pos_apply hfull] at h
      cases h
    · rw [if_neg_apply hfull] at h
      rcases hnew : AllocLen.new (used.get + size.get) with _ | len
      · rw [hnew] at h
        cases h
      · rw [hnew] at h
        cases h
  · rw [hstate] at h
    cases h
  · rw [hstate] at h
    cases h

lemma within_onSegment_lone (i : ℕ) (size : AllocLen) :
    Prog.Within (loneTerms room) (onSegment i (ArenaSegment.tryUseLen size)) := by
  intro arena hlone
  rcases hrun : onSegment i (ArenaSegment.tryUseLen size) arena with ⟨o, arena'⟩ | ⟨e, arena'⟩ | r
  · have hlen := (len_onSegment_tryUseLen hrun 0).trans hlone.len_eq
    unfold onSegment at hrun
    rcases hs : arena.segments[i]? with _ | s
    · rw [hs] at hrun
      cases hrun
    · rcases hs' : ArenaSegment.tryUseLen size s with ⟨o', s'⟩ | ⟨e, s'⟩ | r <;>
        simp only [hs, hs'] at hrun <;> cases hrun
      exact ⟨(List.length_set ..).trans hlone.length, hlen, hlone.refuses⟩
  · exfalso
    unfold onSegment at hrun
    rcases hs : arena.segments[i]? with _ | s
    · rw [hs] at hrun
      cases hrun
    · rcases hs' : ArenaSegment.tryUseLen size s with ⟨o', s'⟩ | ⟨e, s'⟩ | r <;>
        simp only [hs, hs'] at hrun <;> cases hrun
      exact tryUseLen_ne_error size hs'
  · trivial

/-- Nothing that a builder does gets another segment. -/
lemma loneTerms_builds (room : ℕ) : BuildTerms (loneTerms room) where
  panic := trivial
  undefined := trivial
  allocTooLarge := trivial
  allocFailed := fun _ => trivial
  write := by
    intro arena start len words hlone
    exact ⟨(length_write ..).trans hlone.length, (len_write ..).trans hlone.len_eq, hlone.refuses⟩
  onSegment := within_onSegment_lone
  alloc := by
    intro size arena harena
    have htail : ¬ maxSegments ≤ arena.segments.length - 1 := by
      rw [harena.length]
      decide
    rw [alloc, bind_of_ok (get_apply arena)]
    refine allows_bind (within_onSegment_lone _ _ arena harena) fun offset arena₁ _ harena₁ => ?_
    rcases offset with _ | offset
    · -- the allocator is asked, and refuses
      dsimp only
      have hnone := harena₁.refuses [] size
      rw [List.nil_append] at hnone
      rw [if_neg_apply htail, bind_apply, allocNew, hnone]
      refine ⟨harena₁.length, harena₁.len_eq, fun more size' => ?_⟩
      have hmore := harena₁.refuses (more ++ [size]) size'
      rwa [List.append_assoc] at hmore
    · exact harena₁

/-- Its other segments, if it had any, are not used. -/
lemma Lone.used_eq_zero {arena : Arena} (h : arena.Lone room) {i : ℕ} (hi : i ≠ 0) : arena.used i = 0 := by
  unfold used
  rw [List.getElem?_eq_none (by rw [h.length]; omega)]

lemma Lone.segment_eq {arena : Arena} (h : arena.Lone room) {slot : SegmentRef}
    (hslot : slot.pos < arena.used slot.segment) : slot.segment = 0 := by
  by_contra hne
  rw [h.used_eq_zero hne] at hslot
  exact absurd hslot (Nat.not_lt_zero _)

/-- A reader sees the words of the segment. -/
lemma toRead_memory {arena : Arena} {g : ℕ} (h : 0 < arena.used g) :
    ∃ segment, arena.toRead g = some segment ∧ segment.data = arena.memory g := by
  obtain ⟨segment, hsegment, -, hdata⟩ := toRead_eq_some (lt_length_of_used h)
  exact ⟨segment, hsegment, funext hdata⟩

end Arena

/-! ## Objects of one segment -/

/-- An object was allocated in the segment of its pointer.  Its block is to be filled. -/
structure LaysNear (room : ℕ) (shape : Shape) (slot start : SegmentRef) (a a' : Arena) : Prop where
  lone : a'.Lone room
  grows : a.Grows {slot} a'
  segment : start.segment = slot.segment
  pointed : shape.PointedAt (a'.memory slot.segment) slot.pos start.pos
  within : shape.Within (a'.memory slot.segment) (a.used slot.segment) (a'.used slot.segment) slot.pos start.pos
  place : shape.size = 0 ∨ start.pos = a.used slot.segment + shape.tagWords
  mem_fresh : ∀ r ∈ span start shape.words, r ∈ a.fresh a'
  ready : Ready shape.words (fun _ => Word.null) start 0 shape.words a'

section Alloc

variable {room : ℕ} {a a' : Arena} {slot start : SegmentRef}

/-- What takes words of a lone arena finds room for them. -/
lemma Arena.Takes.le_room {words g' : ℕ} (h : a.Takes 0 words g' a') (hlone : a'.Lone room) :
    a.used 0 + words ≤ room := by
  have hused := h.wf.used_le_len 0
  rw [hlone.len_eq] at hused
  rcases h.outgrows with hle | ⟨i, hi, hlt⟩
  · omega
  · rw [hlone.used_eq_zero hi] at hlt
    exact absurd hlt (Nat.not_lt_zero _)

/-- An object that was placed behind what was used is reached by a near pointer. -/
lemma ObjectBuilder.Appends.laysNear {shape : Shape} (h : Appends shape slot start a a') (hlone : a'.Lone room)
    (hslot : slot.pos < a.used slot.segment) (hgrows : a.Grows {slot} a')
    (hfresh : ∀ r ∈ span start shape.words, r ∈ a.fresh a')
    (hnull : ∀ r ∈ span start shape.words, a'.word r = Word.null)
    (hinside : start.pos + shape.words ≤ a'.used start.segment)
    (hdenotes : ∃ cost, Denotes a'.toRead slot.segment slot.pos start.segment (shape.content start.pos)
      cost) : LaysNear room shape slot start a a' := by
  obtain ⟨segment, hsegment, hdata⟩ :=
    Arena.toRead_memory (Nat.zero_lt_of_lt (hgrows.lt_used hslot))
  obtain ⟨cost, hdenotes⟩ := hdenotes
  refine ⟨hlone, hgrows, h.segment, ?_, ?_, ?_, hfresh, hgrows.wf, hinside, fun k _ hk => hnull _ ?_⟩
  · have hpointed := (hdenotes.pointedAt hsegment (by rw [hdata]; exact h.kind)).2
    rwa [hdata] at hpointed
  · have hused := h.grows.used_self
    have hsize := shape.size_eq
    refine h.place.imp_right fun hplace => ⟨by omega, Nat.le_of_eq hplace, fun htag => ?_⟩
    have hcount : (ListPtr.elementCount (a'.memory slot.segment slot.pos)).get = shape.words := by
      cases shape with
      | struct => cases htag
      | list size count =>
        cases size with
        | inlineComposite size => exact h.tag size count rfl
        | _ => cases htag
    rw [hcount, hplace]
  · have hused := h.grows.used_self
    have hsize := shape.size_eq
    exact h.place.imp And.left fun hplace => by omega
  · exact ⟨rfl, Nat.le_add_right _ _, Nat.add_lt_add_left hk _⟩

variable (hwf : a.Wf) (hlone : a.Lone room) (hslot : slot.pos < a.used slot.segment)

include hwf hlone hslot

/-- A struct is allocated in the segment, or not at all. -/
lemma allocStruct_lone (size : StructSize) :
    (∃ start a', (⟨slot.segment⟩ : ObjectBuilder).allocStruct slot size a = .ok (start, ⟨slot.segment⟩) a' ∧
      LaysNear room (.struct size) slot start a a') ∨
    ∃ n a', (⟨slot.segment⟩ : ObjectBuilder).allocStruct slot size a = .error (.allocFailed n) a' ∧
      a'.Lone room ∧ a.Grows ∅ a' := by
  have hzero := hlone.segment_eq hslot
  have hwithin := within_allocStruct ⟨slot.segment⟩ (Arena.loneTerms_builds room) slot size
  rcases @ObjectBuilder.allocStruct_reserves a ⟨slot.segment⟩ slot hwf rfl hslot size with
    ⟨start, a', hrun, hinside, -, hlays⟩ | ⟨n, a', hrun, hgrows⟩
  · left
    have hlone' := hwithin.ok hlone hrun
    have htakes := @allots_allocStruct a ⟨slot.segment⟩ slot hwf rfl hslot size
    unfold Allots at htakes
    rw [hrun] at htakes
    have hroom : a.used slot.segment + size.total ≤ a.len slot.segment := by
      rw [hzero] at htakes ⊢
      exact (htakes.le_room hlone').trans_eq hlone.len_eq.symm
    obtain ⟨start', a₁, hrun', happends⟩ := @ObjectBuilder.allocStruct_of_room a ⟨slot.segment⟩ slot hwf rfl
      hslot size hroom
    have heq := hrun.symm.trans hrun'
    rw [Outcome.ok.injEq, Prod.mk.injEq] at heq
    obtain ⟨⟨rfl, -⟩, rfl⟩ := heq
    exact ⟨start, a', hrun', happends.laysNear hlone' hslot hlays.grows hlays.mem_fresh hlays.word_eq_null
      hinside hlays.denotes.holds⟩
  · exact Or.inr ⟨n, a', hrun, (hwithin.error hlone hrun).2, hgrows⟩

/-- A list is allocated in the segment, or not at all. -/
lemma allocList_lone {size : ElementSize} {count : ElementCount} (hfits : size.exactWords count < 2 ^ 29) :
    (∃ start len a', (⟨slot.segment⟩ : ObjectBuilder).allocList slot size count a =
        .ok (start, len, ⟨slot.segment⟩) a' ∧ len.get = size.exactWords count ∧
      LaysNear room (.list size count) slot start a a') ∨
    ∃ n a', (⟨slot.segment⟩ : ObjectBuilder).allocList slot size count a = .error (.allocFailed n) a' ∧
      a'.Lone room ∧ a.Grows ∅ a' := by
  have hzero := hlone.segment_eq hslot
  have hwithin := within_allocList ⟨slot.segment⟩ (Arena.loneTerms_builds room) slot size count
  rcases @ObjectBuilder.allocList_reserves a ⟨slot.segment⟩ slot hwf rfl hslot size count hfits with
    ⟨start, len, a', hrun, hlen, hinside, -, hreserves⟩ | ⟨n, a', hrun, hgrows⟩
  · left
    have hlone' := hwithin.ok hlone hrun
    have htakes := @allots_allocList a ⟨slot.segment⟩ slot hwf rfl hslot size count hfits
    unfold Allots at htakes
    rw [hrun] at htakes
    have hroom : a.used slot.segment + size.exactWords count ≤ a.len slot.segment := by
      rw [hzero] at htakes ⊢
      exact (htakes.le_room hlone').trans_eq hlone.len_eq.symm
    obtain ⟨start', len', a₁, hrun', happends⟩ := @ObjectBuilder.allocList_of_room a ⟨slot.segment⟩ slot hwf
      rfl hslot size count hroom
    have heq := hrun.symm.trans hrun'
    rw [Outcome.ok.injEq, Prod.mk.injEq, Prod.mk.injEq] at heq
    obtain ⟨⟨rfl, rfl, -⟩, rfl⟩ := heq
    refine ⟨start, len, a', hrun', hlen, happends.laysNear hlone' hslot hreserves.grows
      hreserves.mem_fresh hreserves.word_eq_null hinside ?_⟩
    -- there is a word in front of the list, so that it does not fill the segment
    rcases hreserves.rests.holds with ⟨-, hdenotes⟩ | ⟨hfull, -⟩
    · exact hdenotes
    · exfalso
      have hlt := a.len_lt slot.segment
      cases size with
      | inlineComposite size =>
        rw [exactWords_inlineComposite] at hroom
        have hmax : count.get * size.total + 1 = 2 ^ 29 - 1 := hfull.2
        omega
      | _ => exact hfull
  · exact Or.inr ⟨n, a', hrun, (hwithin.error hlone hrun).2, hgrows⟩

end Alloc

/-! ## Copies to one segment -/

/-- In a lone arena the words `[b, c)` of a block were written, and the pointers among them lead to
words that were fresh. -/
structure Settled (room : ℕ) (isPtr : ℕ → Prop) (start : SegmentRef) (b c : ℕ)
    (s s' : CopyState) : Prop where
  lone : s'.arena.Lone room
  grows : Arena.Grows (range start b c) s.arena s'.arena
  near : ∀ k, b ≤ k → k < c → isPtr k → Near (s'.arena.memory start.segment)
    (s.arena.used start.segment) (s'.arena.used start.segment) (start.pos + k)

/-- The pointer was written, or is null as it was.  Its object begins right behind what was used. -/
structure Rooted (room : ℕ) (slot : SegmentRef) (s s' : CopyState) : Prop extends
    Settled room (fun _ => True) slot 0 1 s s' where
  first : ∀ shape start, Shape.PointedAt (s'.arena.memory slot.segment) slot.pos start shape →
    shape.size = 0 ∨ start = s.arena.used slot.segment + shape.tagWords

/-- The function copies the pointer to the segment of a null pointer. -/
def Settles {ε : Type} (room : ℕ) (copyPtr : CopyMachine.CopyPtr ε) (a : ReadArena)
    (id : SegmentId) (src : ℕ) : Prop :=
  ∀ block, a id = some block → ∀ (slot : SegmentRef) (s : CopyState), s.arena.Wf → s.arena.Lone room →
    slot.pos < s.arena.used slot.segment → s.arena.word slot = Word.null →
    (copyPtr src (.inSegment a id block) slot ⟨slot.segment⟩ s).Ends (fun _ => True)
      fun _ s' => Rooted room slot s s'

/-- Near pointers stay so when nothing of what they lead to is written. -/
lemma Near.grows {arena arena' : Arena} {F : Set SegmentRef} {g lo pos : ℕ}
    (h : Near (arena.memory g) lo (arena.used g) pos) (hgrows : arena.Grows F arena')
    (hpos : pos < arena.used g) (hslot : (⟨g, pos⟩ : SegmentRef) ∉ F)
    (hF : ∀ k, lo ≤ k → (⟨g, k⟩ : SegmentRef) ∉ F) :
    Near (arena'.memory g) lo (arena'.used g) pos :=
  (h.congr (hgrows.word_eq (r := ⟨g, pos⟩) hpos hslot) fun k hle hlt =>
    hgrows.word_eq (r := ⟨g, k⟩) hlt (hF k hle)).mono (Nat.le_refl _) (hgrows.used_le _)

section Settled

variable {room : ℕ} {isPtr : ℕ → Prop} {words : ℕ} {start : SegmentRef} {b c d : ℕ} {s s' s'' : CopyState}

lemma mem_range {r : SegmentRef} : r ∈ range start b c ↔
    r.segment = start.segment ∧ start.pos + b ≤ r.pos ∧ r.pos < start.pos + c := by
  constructor
  · rintro ⟨k, hle, hlt, rfl⟩
    exact ⟨rfl, Nat.add_le_add_left hle _, Nat.add_lt_add_left hlt _⟩
  · rintro ⟨hsegment, hle, hlt⟩
    exact ⟨r.pos - start.pos, by omega, by omega, SegmentRef.ext hsegment (by
      show r.pos = start.pos + (r.pos - start.pos)
      omega)⟩

/-- There are no pointers among the words. -/
lemma Settled.of_data (hlone : s'.arena.Lone room) (hgrows : Arena.Grows (range start b c) s.arena s'.arena)
    (hdata : ∀ k, b ≤ k → k < c → ¬ isPtr k) : Settled room isPtr start b c s s' :=
  ⟨hlone, hgrows, fun k hle hlt hptr => absurd hptr (hdata k hle hlt)⟩

/-- Two ranges, one after the other. -/
lemma Settled.append (hinside : start.pos + words ≤ s.arena.used start.segment) (hbc : b ≤ c) (hcd : c ≤ d)
    (hd : d ≤ words) (h : Settled room isPtr start b c s s') (h' : Settled room isPtr start c d s' s'') :
    Settled room isPtr start b d s s'' := by
  have hused := h.grows.used_le start.segment
  refine ⟨h'.lone, ?_, fun k hle hlt hptr => ?_⟩
  · refine (h.grows.mono fun r hr => ?_).trans h'.grows fun r _ hr => ?_
    · rw [mem_range] at hr ⊢
      exact ⟨hr.1, hr.2.1, by omega⟩
    · rw [mem_range] at hr ⊢
      exact ⟨hr.1, by omega, hr.2.2⟩
  · by_cases hk : k < c
    · -- the second range is none of the words that the pointer leads to
      refine (h.near k hle hk hptr).grows h'.grows (by omega) ?_ fun j hj => ?_
      · rw [mem_range]
        rintro ⟨-, hc, -⟩
        dsimp only at hc
        omega
      · rw [mem_range]
        rintro ⟨-, -, hlt'⟩
        dsimp only at hlt'
        omega
    · exact (h'.near k (Nat.not_lt.1 hk) hlt hptr).mono hused (Nat.le_refl _)

/-- The ranges of a loop, one after the other. -/
lemma settled_forRange {ε : Type} (off : ℕ → ℕ) {n : ℕ} {body : ℕ → CopyM ε Unit}
    (hoff : ∀ i, off i ≤ off (i + 1)) (hn : off n ≤ words) (hlone : s.arena.Lone room)
    (hready : Ready words (fun _ => Word.null) start (off 0) (off n) s.arena)
    (hbody : ∀ i < n, ∀ t : CopyState, t.arena.Lone room →
      Ready words (fun _ => Word.null) start (off i) (off (i + 1)) t.arena →
      (body i t).Ends (fun _ => True) fun _ t' => Settled room isPtr start (off i) (off (i + 1)) t t') :
    (Prog.forRange n body s).Ends (fun _ => True) fun _ s' => Settled room isPtr start (off 0) (off n) s s' := by
  have hmono : ∀ i j, i ≤ j → off i ≤ off j := fun i j hij => monotone_nat_of_le_succ hoff hij
  refine ends_forRange (fun i t => Settled room isPtr start (off 0) (off i) s t) ?_ ?_
  · exact .of_data hlone (.refl hready.wf) fun k hle hlt => absurd hlt (Nat.not_lt.2 hle)
  · intro i hi t hsettled
    have hnext : off (i + 1) ≤ off n := hmono _ _ hi
    have hfirst : off 0 ≤ off i := hmono _ _ (Nat.zero_le i)
    refine (hbody i hi t hsettled.lone
      ((hready.of_grows hn hsettled.grows hfirst).narrow hnext)).imp (fun _ h => h) fun _ t' hsettled' => ?_
    exact hsettled.append hready.inside hfirst (hoff i) (hnext.trans hn) hsettled'

end Settled

section Blocks

open CopyMachine

variable {ε : Type} {machine : CopyMachine ε} {room : ℕ} {a : ReadArena} {id : SegmentId}
  {block : Segment}
  {copyPtr : CopyPtr ε} {isPtr : ℕ → Prop} {words : ℕ} {start : SegmentRef} {src b n : ℕ} {s : CopyState}

/-- Data is copied. -/
lemma copyWords_settled (hlone : s.arena.Lone room)
    (hready : Ready words (fun _ => Word.null) start b (b + n) s.arena) (hn : b + n ≤ words)
    (hdata : ∀ k < n, ¬ isPtr (b + k)) :
    ((copyWords src (.inSegment a id block) (start.offset b) n : CopyM ε Unit) s).Ends (fun _ => True)
      fun _ s' => Settled room isPtr start b (b + n) s s' := by
  have hinside := hready.inside
  have hdst : (start.offset b).pos + n ≤ s.arena.used (start.offset b).segment := by
    show start.pos + b + n ≤ s.arena.used start.segment
    omega
  rw [copyWords]
  refine ends_bind ((sectionSlice_ends n).imp (fun _ _ => trivial) fun _ _ h => h) ?_
  rintro values s ⟨rfl, -⟩
  have hwrite : (writing (Arena.writeSection (start.offset b) n values) : CopyM ε Unit) s =
      .ok () { s with arena := s.arena.write (start.offset b) n values } := by
    have hlen := hready.wf.used_le_len (start.offset b).segment
    rw [writing, Prog.zoom, Arena.writeSection, if_pos (by omega)]
  rw [hwrite]
  refine .of_data ⟨(Arena.length_write ..).trans hlone.length, (Arena.len_write ..).trans hlone.len_eq,
    hlone.refuses⟩
    ((Arena.grows_write hready.wf hdst values).mono ?_) fun k hle hlt => ?_
  · rintro r ⟨hsegment, hle, hlt⟩
    exact mem_range.2 ⟨hsegment, hle, by rw [← Nat.add_assoc]; exact hlt⟩
  · obtain ⟨j, rfl⟩ := Nat.exists_eq_add_of_le hle
    exact hdata j (by omega)

/-- Pointers are copied. -/
lemma copyPtrSection_settled (hblock : a id = some block) (hlone : s.arena.Lone room)
    (hready : Ready words (fun _ => Word.null) start b (b + n) s.arena) (hn : b + n ≤ words)
    (hcopy : ∀ k < n, Settles room copyPtr a id (src + k)) :
    (copyPtrSection copyPtr src (.inSegment a id block) (start.offset b) ⟨start.segment⟩ n s).Ends
      (fun _ => True) fun _ s' => Settled room isPtr start b (b + n) s s' := by
  refine settled_forRange (b + ·) (fun i => by omega) hn hlone hready fun k hk t hlone' hready' => ?_
  have hinside := hready'.inside
  have hslot : (start.offset (b + k)).pos < t.arena.used (start.offset (b + k)).segment := by
    show start.pos + (b + k) < t.arena.used start.segment
    omega
  have hnull := hready'.word_eq (b + k) (Nat.le_refl _) (Nat.lt_succ_self _)
  refine ends_bind ((sectionSlice_ends 1).imp (fun _ _ => trivial) fun _ _ h => h) ?_
  rintro values t ⟨rfl, -⟩
  rw [offset_offset]
  by_cases hsource : (values 0).isNull = true
  · rw [if_pos_apply hsource]
    refine ⟨hlone', .refl hready'.wf, fun j hle hlt _ => .null ?_⟩
    obtain rfl : j = b + k := by omega
    exact hnull
  · rw [if_neg_apply hsource]
    refine (hcopy k hk block hblock (start.offset (b + k)) t hready'.wf hlone' hslot hnull).imp
      (fun _ h => h) fun _ t' hsettled => ?_
    refine ⟨hsettled.lone, hsettled.grows.mono fun r hr => ?_, fun j hle hlt _ => ?_⟩
    · obtain ⟨i, -, hi, rfl⟩ := hr
      obtain rfl : i = 0 := by omega
      exact ⟨b + k, Nat.le_refl _, Nat.lt_succ_self _, rfl⟩
    · obtain rfl : j = b + k := by omega
      exact hsettled.near 0 (Nat.le_refl _) Nat.one_pos trivial

/-- A struct is copied. -/
lemma copyStruct_settled {size : StructSize} (hblock : a id = some block) (hlone : s.arena.Lone room)
    (hready : Ready words (fun _ => Word.null) start b (b + size.total) s.arena)
    (hn : b + size.total ≤ words) (hdata : ∀ k < size.data, ¬ isPtr (b + k))
    (hcopy : ∀ k < size.ptrs, Settles room copyPtr a id (src + size.data + k)) :
    (copyStruct copyPtr src size (.inSegment a id block) (start.offset b) size ⟨start.segment⟩ s).Ends
      (fun _ => True) fun _ s' => Settled room isPtr start b (b + size.total) s s' := by
  have htotal := size.total_eq
  rw [htotal, ← Nat.add_assoc] at hready hn ⊢
  rw [copyStruct, Nat.min_self, Nat.min_self]
  have hwords := @copyWords_settled ε room a id block isPtr words start src b size.data s hlone
    (hready.narrow (by omega)) (by omega) hdata
  refine ends_bind hwords fun _ t hsettled => ?_
  rw [offset_offset]
  have hptrs := @copyPtrSection_settled ε room a id block copyPtr isPtr words start (src + size.data)
    (b + size.data) size.ptrs t hblock hsettled.lone (hready.of_grows hn hsettled.grows (by omega)) hn hcopy
  exact hptrs.imp (fun _ h => h) fun _ t' hsettled' =>
    hsettled.append hready.inside (by omega) (by omega) hn hsettled'

/-- Structs one behind the other. -/
lemma copyInlineComposites_settled {size : StructSize} {count : ElementCount} (hblock : a id = some block)
    (hlone : s.arena.Lone room) (hready : Ready words (fun _ => Word.null) start 0 words s.arena)
    (hwords : words = size.total * count.get)
    (hdata : ∀ i < count.get, ∀ k < size.data, ¬ isPtr (size.total * i + k))
    (hcopy : ∀ i < count.get, ∀ k < size.ptrs, Settles room copyPtr a id (src + size.total * i + size.data + k)) :
    (copyInlineComposites copyPtr src size (.inSegment a id block) start size ⟨start.segment⟩ count
      s).Ends (fun _ => True) fun _ s' => Settled room isPtr start 0 words s s' := by
  have hnext : ∀ i, size.total * (i + 1) = size.total * i + size.total := fun i => Nat.mul_succ _ _
  have hstep : ∀ t : CopyState, ((stepByUnchecked size.total count.get : CopyM ε Unit) t).Ends (fun _ => True)
      fun _ t' => t' = t := by
    intro t
    unfold stepByUnchecked Prog.assert
    by_cases hle : size.total * count.get ≤ U29.maxValue
    · rw [if_pos_apply hle]
      rfl
    · rw [if_neg_apply hle]
      trivial
  rw [copyInlineComposites]
  refine ends_bind (hstep s) ?_
  rintro _ s rfl
  refine ends_bind (hstep _) ?_
  rintro _ s rfl
  have hloop := @settled_forRange room isPtr words start s ε (size.total * ·) count.get
    (fun k => copyStruct copyPtr (src + size.total * k) size (.inSegment a id block)
      (start.offset (size.total * k)) size ⟨start.segment⟩)
    (fun i => Nat.mul_le_mul_left _ (Nat.le_succ i)) (Nat.le_of_eq hwords.symm) hlone
    (by rw [Nat.mul_zero, ← hwords]; exact hready) fun i hi t hlone' hready' => by
      have hle : size.total * (i + 1) ≤ size.total * count.get := Nat.mul_le_mul_left _ hi
      rw [hnext] at hle
      have hsettled := @copyStruct_settled ε room a id block copyPtr isPtr words start (src + size.total * i)
        (size.total * i) t size hblock hlone' (hnext i ▸ hready') (by omega) (hdata i hi) (hcopy i hi)
      rw [← hnext] at hsettled
      exact hsettled
  rw [Nat.mul_zero, ← hwords] at hloop
  exact hloop

/-- The words of a list. -/
lemma copyList_settled {size : ElementSize} {count : ElementCount} (hblock : a id = some block)
    (hlone : s.arena.Lone room) (hlt : (Shape.list size count).words < 2 ^ 29)
    (hready : Ready (Shape.list size count).words (fun _ => Word.null) start 0
      (Shape.list size count).words s.arena)
    (hcopy : ∀ k < (Shape.list size count).words, (Shape.list size count).isPtr k = true →
      Settles room copyPtr a id (src + k)) :
    (copyList copyPtr src (.inSegment a id block) start ⟨start.segment⟩ size count s).Ends (fun _ => True)
      fun _ s' => Settled room (fun k => (Shape.list size count).isPtr k = true) start 0
        (Shape.list size count).words s s' := by
  obtain ⟨words, hnew, hwords⟩ := totalWords_of_lt hlt
  have hready' : Ready (Shape.list size count).words (fun _ => Word.null) start 0 (0 + words.get) s.arena := by
    rw [Nat.zero_add, hwords]
    exact hready
  have hn : 0 + words.get ≤ (Shape.list size count).words := by omega
  rw [copyList.eq_def]
  by_cases hptrs : size.isPtrs = true
  · have hptr := Shape.isPtr_of_isPtrs hptrs count
    have hsettled := @copyPtrSection_settled ε room a id block copyPtr
      (fun k => (Shape.list size count).isPtr k = true) _ start src 0 words.get s hblock hlone hready' hn
      fun k hk => hcopy k (by omega) (hptr k)
    rw [Nat.zero_add] at hsettled
    rw [if_pos_apply hptrs, hnew, unwrap_some, pure_bind_eq, ← hwords]
    exact hsettled
  rw [if_neg_apply hptrs]
  by_cases hdata : size.isData = true
  · have hsettled := @copyWords_settled ε room a id block
      (fun k => (Shape.list size count).isPtr k = true) _ start src 0 words.get s hlone hready' hn
      fun k _ => by
        rw [Shape.isPtr_of_isData hptrs hdata count]
        exact Bool.false_ne_true
    rw [Nat.zero_add] at hsettled
    rw [if_pos_apply hdata, hnew, unwrap_some, pure_bind_eq, ← hwords]
    exact hsettled
  rw [if_neg_apply hdata]
  cases size with
  | inlineComposite size =>
    refine copyInlineComposites_settled hblock hlone hready (Shape.words_structs size count)
      (fun i hi k hk => ?_) fun i hi k hk => ?_
    · have hpart := Shape.partAt_element size hi
      have htotal := size.total_eq
      rw [hpart.isPtr k (by omega), decide_eq_true_eq]
      omega
    · obtain ⟨hlt', hptr⟩ := isPtr_of_element hi hk
      rw [show src + size.total * i + size.data + k = src + (size.total * i + size.data + k) by omega]
      exact hcopy _ hlt' hptr
  | _ => trivial

end Blocks

/-! ## Copies of pointers -/

section Pointers

open CopyMachine

variable {ε : Type} {machine : CopyMachine ε} {room : ℕ} {a : ReadArena} {id : SegmentId}
  {block : Segment}
  {copyPtr : CopyPtr ε} {slot start : SegmentRef} {src pos : ℕ} {s s' s₁ : CopyState}

lemma mem_range_slot {r : SegmentRef} : r ∈ range slot 0 1 ↔ r = slot := by
  rw [mem_range]
  constructor
  · rintro ⟨hsegment, hle, hlt⟩
    exact SegmentRef.ext hsegment (by omega)
  · rintro rfl
    exact ⟨rfl, Nat.le_refl _, Nat.lt_succ_self _⟩

lemma Rooted.of_slot (hlone : s'.arena.Lone room) (hgrows : Arena.Grows {slot} s.arena s'.arena)
    (hnear : Near (s'.arena.memory slot.segment) (s.arena.used slot.segment) (s'.arena.used slot.segment)
      slot.pos)
    (hfirst : ∀ shape start, Shape.PointedAt (s'.arena.memory slot.segment) slot.pos start shape →
      shape.size = 0 ∨ start = s.arena.used slot.segment + shape.tagWords) : Rooted room slot s s' := by
  refine ⟨⟨hlone, hgrows.mono fun r hr => mem_range_slot.2 hr, fun k _ hk _ => ?_⟩, hfirst⟩
  obtain rfl : k = 0 := by omega
  exact hnear

/-- The pointer is left null. -/
lemma Rooted.of_null (hlone : s'.arena.Lone room) (hgrows : Arena.Grows {slot} s.arena s'.arena)
    (hnull : s'.arena.word slot = Word.null) : Rooted room slot s s' :=
  .of_slot hlone hgrows (.null hnull) fun _ _ hpointed => Or.inl (hpointed.size_eq_zero hnull)

/-- What could not be copied is left null. -/
lemma handleErr_settled (hslot : slot.pos < s.arena.used slot.segment) (hnull : s.arena.word slot = Word.null)
    (hlone : s₁.arena.Lone room) (hgrows : Arena.Grows ∅ s.arena s₁.arena) (err : Error) :
    (machine.handleErr err s₁).Ends (fun _ => True) fun _ s' => Rooted room slot s s' := by
  rw [handleErr]
  rcases machine.handler s₁.reported err with _ | e
  · refine .of_null hlone (hgrows.mono (Set.empty_subset _)) ?_
    exact (hgrows.word_eq hslot (Set.notMem_empty _)).trans hnull
  · trivial

/-- The object of the pointer was filled. -/
lemma LaysNear.settled {shape : Shape} (h : LaysNear room shape slot start s.arena s₁.arena)
    (hslot : slot.pos < s.arena.used slot.segment)
    (hfilled : Settled room (fun k => shape.isPtr k = true) start 0 shape.words s₁ s') :
    Rooted room slot s s' := by
  have hsegment := h.segment
  have hused := h.grows.used_le slot.segment
  have hused' := hfilled.grows.used_le slot.segment
  have hfresh : ∀ r ∈ range start 0 shape.words, r ∈ s.arena.fresh s₁.arena := by
    rintro r ⟨k, -, hk, rfl⟩
    exact h.mem_fresh _ ⟨rfl, Nat.le_add_right _ _, Nat.add_lt_add_left hk _⟩
  have hout : slot ∉ range start 0 shape.words := fun hmem => by
    have hle := (Arena.mem_fresh.1 (hfresh _ hmem)).1
    omega
  have hslot' : s'.arena.memory slot.segment slot.pos = s₁.arena.memory slot.segment slot.pos :=
    hfilled.grows.word_eq (r := slot) (by omega) hout
  have hpointed : shape.PointedAt (s'.arena.memory slot.segment) slot.pos start.pos := by
    refine h.pointed.congr hslot' fun htag => ?_
    obtain ⟨-, hlt, hbefore⟩ := h.within.tag htag
    refine hfilled.grows.word_eq (r := ⟨slot.segment, start.pos - 1⟩) hlt fun hmem => ?_
    have hle := (mem_range.1 hmem).2.1
    dsimp only at hle
    omega
  refine .of_slot hfilled.lone (h.grows.trans hfilled.grows fun r hr hmem => ?_) ?_ fun shape' start' hother => ?_
  · have hle := (Arena.mem_fresh.1 (hfresh r hmem)).1
    omega
  · refine .object hpointed ((h.within.mono (Nat.le_refl _) hused').congr hslot') fun k hk hptr => ?_
    have hnear := hfilled.near k (Nat.zero_le _) hk hptr
    rw [hsegment] at hnear
    exact hnear.mono hused (Nat.le_refl _)
  · obtain ⟨rfl, rfl⟩ := hother.unique hpointed
    exact h.place

/-- A struct is copied to the segment of its pointer. -/
lemma copyStructContent_settled {size : StructSize} (hblock : a id = some block)
    (hcanonical : machine.canonical = false) (hwf : s.arena.Wf) (hlone : s.arena.Lone room)
    (hslot : slot.pos < s.arena.used slot.segment) (hnull : s.arena.word slot = Word.null)
    (hcopy : ∀ k < size.ptrs, Settles room copyPtr a id (pos + size.data + k)) :
    (machine.copyStructContent copyPtr (.inSegment a id block) ⟨pos, size⟩ slot ⟨slot.segment⟩ s).Ends
      (fun _ => True) fun _ s' => Rooted room slot s s' := by
  rw [copyStructContent, hcanonical]
  dsimp only
  rw [if_neg Bool.false_ne_true, pure_bind_eq]
  rcases allocStruct_lone hwf hlone hslot size with ⟨start, a', hrun, hlays⟩ | ⟨n, a', hrun, hlone', hgrows⟩
  · obtain ⟨s₁, hbuild, rfl, -⟩ := @building_of_ok ε _ _ _ _ _ hrun
    rw [bind_of_ok hbuild]
    dsimp only
    have hready : Ready size.total (fun _ => Word.null) start 0 (0 + size.total) s₁.arena := by
      rw [Nat.zero_add]
      exact hlays.ready
    have hfilled := @copyStruct_settled ε room a id block copyPtr (fun k => (Shape.struct size).isPtr k = true)
      size.total start pos 0 s₁ size hblock hlays.lone hready (Nat.le_of_eq (Nat.zero_add _)) (fun k hk => by
        rw [Nat.zero_add, Shape.isPtr, decide_eq_true_eq]
        omega) hcopy
    rw [Nat.zero_add, hlays.segment] at hfilled
    exact hfilled.imp (fun _ h => h) fun _ s' hsettled => hlays.settled hslot hsettled
  · obtain ⟨s₁, hbuild, rfl, -⟩ := @building_of_error ε _ _ _ _ _ hrun
    rw [bind_of_ok hbuild]
    exact handleErr_settled hslot hnull hlone' hgrows _

/-- A list is copied to the segment of its pointer. -/
lemma copyListContent_settled {size : ElementSize} {count : ElementCount} (hblock : a id = some block)
    (hfits : size.exactWords count < 2 ^ 29) (hwf : s.arena.Wf) (hlone : s.arena.Lone room)
    (hslot : slot.pos < s.arena.used slot.segment) (hnull : s.arena.word slot = Word.null)
    (hcopy : ∀ k < (Shape.list size count).words, (Shape.list size count).isPtr k = true →
      Settles room copyPtr a id (pos + k)) :
    (machine.copyListContent copyPtr (.inSegment a id block) ⟨pos, size, count⟩ slot ⟨slot.segment⟩ s).Ends
      (fun _ => True) fun _ s' => Rooted room slot s s' := by
  have hexact : size.exactWords count = (Shape.list size count).words +
      if size.isInlineComposite then 1 else 0 := rfl
  rw [copyListContent]
  rcases allocList_lone hwf hlone hslot hfits with
    ⟨start, len, a', hrun, hlen, hlays⟩ | ⟨n, a', hrun, hlone', hgrows⟩
  · obtain ⟨s₁, hbuild, rfl, -⟩ := @building_of_ok ε _ _ _ _ _ hrun
    rw [bind_of_ok hbuild]
    dsimp only
    by_cases hempty : len.get = 0
    · rw [if_pos_apply hempty]
      refine hlays.settled hslot (.of_data hlays.lone (.refl hlays.ready.wf) fun k _ hk => ?_)
      omega
    · have hfilled := copyList_settled hblock hlays.lone (by omega) hlays.ready hcopy
      rw [hlays.segment] at hfilled
      rw [if_neg_apply hempty]
      exact hfilled.imp (fun _ h => h) fun _ s' hsettled => hlays.settled hslot hsettled
  · obtain ⟨s₁, hbuild, rfl, -⟩ := @building_of_error ε _ _ _ _ _ hrun
    rw [bind_of_ok hbuild]
    exact handleErr_settled hslot hnull hlone' hgrows _

/-- A capability needs no words. -/
lemma copyCapability_settled (hcanonical : machine.canonical = false) (index : ℕ) (hwf : s.arena.Wf)
    (hlone : s.arena.Lone room) (hslot : slot.pos < s.arena.used slot.segment)
    (hnull : s.arena.word slot = Word.null) :
    (machine.copyCapability index slot ⟨slot.segment⟩ s).Ends (fun _ => True)
      fun _ s' => Rooted room slot s s' := by
  rw [copyCapability, hcanonical, if_neg_apply Bool.false_ne_true, bind_of_ok (get_apply s),
    bind_of_ok (modify_apply _ s)]
  rcases machine.copyCap s.caps index with err | (_ | newIndex)
  · have hgrows : Arena.Grows ∅ s.arena ({ s with caps := index :: s.caps } : CopyState).arena := .refl hwf
    exact @handleErr_settled ε machine room slot s { s with caps := index :: s.caps } hslot hnull hlone hgrows err
  · exact .of_null hlone (.refl hwf) hnull
  · show ((writing (ObjectBuilder.setPtr ⟨slot.segment⟩ slot (CapabilityPtr.new newIndex)) :
        CopyM ε Unit) { s with caps := index :: s.caps }).Ends _ _
    have hrun : (writing (ObjectBuilder.setPtr ⟨slot.segment⟩ slot (CapabilityPtr.new newIndex)) :
        CopyM ε Unit) { s with caps := index :: s.caps } = .ok ()
        { s with caps := index :: s.caps,
                 arena := s.arena.write slot 1 fun _ => CapabilityPtr.new newIndex } := by
      rw [writing, Prog.zoom, ObjectBuilder.setPtr_apply hwf hslot]
    rw [hrun]
    have hkind : WirePtr.kind ((s.arena.write slot 1 fun _ => CapabilityPtr.new newIndex).word slot) = .other := by
      have hword := Arena.word_set hslot (CapabilityPtr.new newIndex) slot
      rw [if_pos rfl] at hword
      rw [hword, CapabilityPtr.kind_new]
    refine .of_slot ⟨(Arena.length_write ..).trans hlone.length, (Arena.len_write ..).trans hlone.len_eq,
    hlone.refuses⟩
      (Arena.grows_set hwf hslot _) (.capability hkind) fun shape pos hpointed => ?_
    rcases hpointed.kind with h | h <;> exact absurd (hkind.symm.trans h) (by decide)

/-- **A copy in a lone arena leads to near pointers only.** -/
theorem settles_copyPtr (hcanonical : machine.canonical = false) (n : ℕ) (id : SegmentId) (src : ℕ) :
    Settles room (machine.copyPtr n) a id src := by
  induction n generalizing id src with
  | zero =>
    intro segment _ slot s _ _ _ _
    trivial
  | succ n ih =>
    intro segment hsegment slot s hwf hlone hslot hnull
    rw [copyPtr]
    refine ends_bind ((reading_ends hsegment src s).imp (fun _ h => h.elim) fun _ _ h => h) ?_
    rintro result s₁ ⟨harena, -, hread⟩
    rw [← harena] at hwf hlone hslot hnull
    suffices hsettled : Outcome.Ends (fun _ => True)
        (fun _ s' => Rooted room slot s₁ s') _ by
      refine hsettled.imp (fun _ h => h) ?_
      rintro _ s' ⟨⟨hlone', hgrows, hnear⟩, hfirst⟩
      rw [harena] at hgrows hnear hfirst
      exact ⟨⟨hlone', hgrows, hnear⟩, hfirst⟩
    rcases result with err | ⟨reader, typed⟩
    · exact handleErr_settled hslot hnull hlone (.refl hwf) err
    · obtain ⟨id', block, cost, hblock, rfl, hdenotes⟩ := hread reader typed rfl
      cases typed with
      | struct content =>
        exact copyStructContent_settled hblock hcanonical hwf hlone hslot hnull fun k _ => ih id' _
      | list content =>
        obtain ⟨pos, size, count⟩ := content
        have hfits := @Denotes.exactWords_lt _ _ _ _ _ _ _ _ _ hdenotes hblock
        have hlist := @copyListContent_settled ε machine room a id' block (machine.copyPtr n) slot pos s₁ size count
          hblock hfits hwf hlone hslot hnull fun k _ _ => ih id' _
        cases size with
        | inlineComposite size =>
          dsimp only
          rw [hcanonical]
          exact hlist
        | _ => exact hlist
      | capability index => exact copyCapability_settled hcanonical index hwf hlone hslot hnull

end Pointers

/-! ## Copies that fit -/

/-- A value of fewer words than a segment has no list that fills one. -/
lemma Value.roomy_of_words_lt {v : Value} (h : v.words < 2 ^ 29 - 1) : v.Roomy := by
  induction v with
  | null | capability => trivial
  | object shape data ptrs ih =>
    refine ⟨fun hfull => ?_, fun k => ih k ?_⟩
    · have hle : shape.size ≤ (Value.object shape data ptrs).words := by
        rw [Value.words_object]
        exact Nat.le_add_right _ _
      cases shape with
      | struct => exact hfull
      | list size count =>
        cases size with
        | inlineComposite size =>
          have hsize := (Shape.list (.inlineComposite size) count).size_eq
          have htag : (Shape.list (.inlineComposite size) count).tagWords = 1 := rfl
          have hwords := Shape.words_structs size count
          rw [Nat.mul_comm] at hwords
          have hmax : count.get * size.total + 1 = 2 ^ 29 - 1 := hfull.2
          omega
        | _ => exact hfull
    · have hle := @Value.words_ptrs_le shape data ptrs k
      omega

/-- Everything was copied: the pointer reads as the value without checks, and the words behind what
was used are those of the objects. -/
structure Flat (room : ℕ) (slot : SegmentRef) (v : Value) (s s' : CopyState) : Prop where
  lone : s'.arena.Lone room
  wf : s'.arena.Wf
  used_eq : s'.arena.used 0 = s.arena.used 0 + v.words
  reads : ReadsUnchecked (s'.arena.memory 0) (s.arena.used 0) (s'.arena.used 0) slot.pos v
  first : ∀ shape start, Shape.PointedAt (s'.arena.memory 0) slot.pos start shape →
    shape.size = 0 ∨ start = s.arena.used 0 + shape.tagWords

/-- A copy to a null pointer succeeds just when there is room for the value, as long as no limit is
exceeded. -/
structure CopiesFlat {ε : Type} (handler : ErrorHandler ε) (room : ℕ) (slot : SegmentRef) (v : Value)
    (s : CopyState) (o : Outcome ε CopyState Unit) : Prop where
  ok : ∀ s', o = .ok () s' → s.arena.used 0 + v.words ≤ room ∧ Flat room slot v s s'
  of_room : s.arena.used 0 + v.words ≤ room →
    (∃ s', o = .ok () s') ∨ ∃ e s', o = .error e s' ∧ ¬ Unlimited handler s e

/-- What is copied strictly, into a lone arena, to near pointers, is flat. -/
lemma copiesFlat_of_uses {ε : Type} {handler : ErrorHandler ε} {room : ℕ} {slot : SegmentRef} {v : Value}
    {s : CopyState} {o : Outcome ε CopyState Unit} (hstrict : handler.Strict) (hlone : s.arena.Lone room)
    (hslot : slot.pos < s.arena.used slot.segment) (hcaps : v.caps = 0)
    (huses : o.Uses (copyUsage handler slot.segment) v.words s)
    (hsettled : o.Ends (fun _ => True) fun _ s' => Rooted room slot s s')
    (hreads : v.words < 2 ^ 29 - 1 → o.Ends (fun _ => True) fun _ s' => s'.reported = s.reported →
      Reads s'.arena.toRead slot.segment slot.pos v) : CopiesFlat handler room slot v s o := by
  have hzero := hlone.segment_eq hslot
  have hlen := s.arena.len_lt 0
  rw [hlone.len_eq] at hlen
  rw [hzero] at huses hreads hslot
  constructor
  · rintro s' rfl
    have hused := huses.wf.used_le_len 0
    rw [hsettled.lone.len_eq] at hused
    have hreported := huses.strict hstrict
    have hroom : s.arena.used 0 + v.words ≤ room := by
      rcases huses.outgrows hreported with hle | ⟨i, hi, hlt⟩
      · omega
      · rw [hsettled.lone.used_eq_zero hi] at hlt
        exact absurd hlt (Nat.not_lt_zero _)
    obtain ⟨-, -, hextends⟩ := huses.fits (Or.inr hreported) (hlone.len_eq ▸ hroom)
    obtain ⟨segment, hsegment, hdata⟩ := @Arena.toRead_memory s'.arena 0 (by
      rw [hextends.used_self]
      omega)
    have hnear := hsettled.near 0 (Nat.le_refl _) Nat.one_pos trivial
    rw [hzero, ← hdata] at hnear
    refine ⟨hroom, hsettled.lone, huses.wf, hextends.used_self, ?_, ?_⟩
    · rw [← hdata]
      exact hnear.reads hsegment (hreads (by omega) hreported) hcaps
    · have hfirst := hsettled.first
      rw [hzero] at hfirst
      exact hfirst
  · intro hroom
    rcases o with ⟨⟨⟩, s'⟩ | ⟨e, s'⟩ | r
    · exact Or.inl ⟨s', rfl⟩
    · refine Or.inr ⟨e, s', rfl, fun hfree => ?_⟩
      have hfull := huses.full hfree
      rw [hlone.len_eq] at hfull
      exact absurd hroom (Nat.not_le.2 hfull)
    · exact huses.elim

end Recapn.Ptr

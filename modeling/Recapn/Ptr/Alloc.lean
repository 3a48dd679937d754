/-
# What an allocation lays out

An arena is a store whose live places are the used words.  Allocating an object and pointing to
it leaves all live words but the pointer as they were; the object lies on fresh words, which are
null, and that the pointer leads to it rests on the pointer and on the fresh words in front of
the object.  This holds for all three layouts: a near pointer, a far pointer to a landing pad in
front of the object, and a double-far pointer to a list that fills a segment.
-/
import Recapn.Lib.Footprint
import Recapn.Ptr.Builder
import Recapn.Ptr.Target

namespace Recapn.Ptr

open Recapn.Lib Recapn.Lib.Prog

/-! ## Arenas as stores -/

/-- A reader's arena agrees with another on places where it has the same words.  The other one
may have more segments, and longer ones. -/
instance : World SegmentRef ReadArena where
  Agree F a a' := ∀ id segment, a id = some segment → ∃ segment', a' id = some segment' ∧
    segment.len.get ≤ segment'.len.get ∧
    ∀ pos, ⟨id, pos⟩ ∈ F → segment'.data pos = segment.data pos
  agree_refl _ _ _ segment h := ⟨segment, h, Nat.le_refl _, fun _ _ => rfl⟩
  agree_trans := by
    intro F a a' a'' h h' id segment hsegment
    obtain ⟨segment', hsegment', hlen, hdata⟩ := h id segment hsegment
    obtain ⟨segment'', hsegment'', hlen', hdata'⟩ := h' id segment' hsegment'
    exact ⟨segment'', hsegment'', Nat.le_trans hlen hlen', fun pos hpos =>
      (hdata' pos hpos).trans (hdata pos hpos)⟩
  agree_mono := by
    intro F G a a' hsub h id segment hsegment
    obtain ⟨segment', hsegment', hlen, hdata⟩ := h id segment hsegment
    exact ⟨segment', hsegment', hlen, fun pos hpos => hdata pos (hsub hpos)⟩

/-- The `len` places from `start` on. -/
def span (start : SegmentRef) (len : ℕ) : Set SegmentRef :=
  {r | r.segment = start.segment ∧ start.pos ≤ r.pos ∧ r.pos < start.pos + len}

lemma mem_span {r start : SegmentRef} {len : ℕ} :
    r ∈ span start len ↔ r.segment = start.segment ∧ start.pos ≤ r.pos ∧ r.pos < start.pos + len :=
  Iff.rfl

lemma mem_span_one {r start : SegmentRef} : r ∈ span start 1 ↔ r = start := by
  rw [mem_span]
  constructor
  · rintro ⟨hsegment, hle, hlt⟩
    exact SegmentRef.ext hsegment (by omega)
  · rintro rfl
    exact ⟨rfl, Nat.le_refl _, Nat.lt_succ_self _⟩

/-- A place inside of a segment is in a segment of the arena. -/
lemma lt_length_of_len {a : Arena} {r : SegmentRef} (h : r.pos < a.len r.segment) :
    r.segment < a.segments.length := by
  by_contra hnot
  have hlen : a.len r.segment = 0 := by
    rw [Arena.len, List.getElem?_eq_none (Nat.not_lt.1 hnot)]
  omega

namespace Arena

/-- The store of an arena. -/
def store (arena : Arena) : Store SegmentRef Word where
  live := {r | r.pos < arena.used r.segment}
  get := arena.word

/-- The words of `arena'` that `arena` did not use. -/
abbrev fresh (arena arena' : Arena) : Set SegmentRef := Store.fresh arena.store arena'.store

/-- The arena grew and is well-formed; only words in `F` changed of those that it had. -/
structure Grows (F : Set SegmentRef) (arena arena' : Arena) : Prop where
  wf : arena'.Wf
  store : Store.Grows F arena.store arena'.store

variable {arena arena' arena'' : Arena} {F G : Set SegmentRef}

lemma mem_live {r : SegmentRef} : r ∈ arena.store.live ↔ r.pos < arena.used r.segment := Iff.rfl

lemma mem_fresh {r : SegmentRef} :
    r ∈ fresh arena arena' ↔ arena.used r.segment ≤ r.pos ∧ r.pos < arena'.used r.segment := by
  show r.pos < arena'.used r.segment ∧ ¬ r.pos < arena.used r.segment ↔ _
  rw [Nat.not_lt]
  exact And.comm

namespace Grows

lemma refl (hwf : arena.Wf) : Grows F arena arena := ⟨hwf, .refl F _⟩

lemma mono (h : Grows F arena arena') (hsub : F ⊆ G) : Grows G arena arena' :=
  ⟨h.wf, h.store.mono hsub⟩

lemma trans (h : Grows F arena arena') (h' : Grows G arena' arena'')
    (hsub : ∀ r, r.pos < arena.used r.segment → r ∈ G → r ∈ F) : Grows F arena arena'' :=
  ⟨h'.wf, h.store.trans h'.store fun r hr => hsub r hr⟩

lemma used_le (h : Grows F arena arena') (i : ℕ) : arena.used i ≤ arena'.used i := by
  by_contra hlt
  have hlive : (⟨i, arena'.used i⟩ : SegmentRef) ∈ arena'.store.live :=
    h.store.live_subset (Nat.not_le.1 hlt)
  exact Nat.lt_irrefl _ hlive

lemma lt_used (h : Grows F arena arena') {r : SegmentRef} (hr : r.pos < arena.used r.segment) :
    r.pos < arena'.used r.segment :=
  hr.trans_le (h.used_le _)

lemma word_eq (h : Grows F arena arena') {r : SegmentRef} (hr : r.pos < arena.used r.segment)
    (hF : r ∉ F) : arena'.word r = arena.word r :=
  h.store.get_eq r hr hF

/-- Readers of the arena agree on the words that did not change. -/
lemma agree (hwf : arena.Wf) (h : Grows F arena arena')
    (hG : ∀ r ∈ G, r.pos < arena.used r.segment ∧ r ∉ F) :
    World.Agree G arena.toRead arena'.toRead := by
  intro id segment hsegment
  have hid := lt_length_of_toRead hsegment
  have hused := Nat.lt_of_lt_of_le (hwf.used_pos hid) (h.used_le id)
  obtain ⟨seg, hseg, hlen, hdata⟩ := toRead_eq_some hid
  obtain ⟨segment', hsegment', hlen', hdata'⟩ := toRead_eq_some (lt_length_of_used hused)
  obtain rfl := Option.mem_unique hseg hsegment
  refine ⟨segment', hsegment', ?_, fun pos hpos => ?_⟩
  · rw [hlen, hlen']
    exact h.used_le id
  · obtain ⟨hlive, hF⟩ := hG _ hpos
    rw [hdata, hdata', h.word_eq hlive hF]

end Grows

lemma Allocates.grows {r : SegmentRef} {size : ℕ} (h : Allocates arena r size arena') :
    Grows ∅ arena arena' := by
  refine ⟨h.wf, ?_, fun p _ _ => congrFun h.word_eq p⟩
  intro p (hp : p.pos < arena.used p.segment)
  show p.pos < arena'.used p.segment
  rw [h.used_eq]
  by_cases hseg : p.segment = r.segment
  · rw [if_pos hseg, h.pos_eq, ← hseg]
    omega
  · rw [if_neg hseg]
    exact hp

lemma Unchanged.grows (h : Unchanged arena arena') : Grows ∅ arena arena' := by
  refine ⟨h.wf, ?_, fun p _ _ => congrFun h.word_eq p⟩
  intro p hp
  show p.pos < arena'.used p.segment
  rw [h.used_eq]
  exact hp

/-- The words that were allocated are fresh. -/
lemma Allocates.mem_fresh {r : SegmentRef} {size : ℕ} (h : Allocates arena r size arena')
    {p : SegmentRef} (hp : p ∈ span r size) : p ∈ fresh arena arena' := by
  obtain ⟨hsegment, hle, hlt⟩ := hp
  rw [Arena.mem_fresh, h.used_eq, if_pos hsegment, hsegment, ← h.pos_eq]
  exact ⟨hle, hlt⟩

/-- Fresh words are null. -/
lemma Allocates.word_eq_null (hwf : arena.Wf) {r : SegmentRef} {size : ℕ}
    (h : Allocates arena r size arena') {p : SegmentRef} (hp : p ∈ span r size) :
    arena'.word p = Word.null := by
  rw [h.word_eq]
  exact hwf.clean p (Arena.mem_fresh.1 (h.mem_fresh hp)).1

lemma Allocates.lt_length {r : SegmentRef} {size : ℕ} (h : Allocates arena r size arena')
    (hsize : 0 < size) : r.segment < arena'.segments.length := by
  apply lt_length_of_used
  rw [h.used_eq, if_pos rfl]
  omega

lemma fresh_write {start : SegmentRef} {len : ℕ} {words : ℕ → Word} :
    fresh arena (arena'.write start len words) = fresh arena arena' := by
  ext p
  rw [mem_fresh, mem_fresh, used_write]

lemma grows_write (hwf : arena.Wf) {start : SegmentRef} {len : ℕ}
    (hlen : start.pos + len ≤ arena.used start.segment) (words : ℕ → Word) :
    Grows (span start len) arena (arena.write start len words) := by
  refine ⟨hwf.write hlen words, fun p hp => ?_, fun p _ hp => ?_⟩
  · show p.pos < (arena.write start len words).used p.segment
    rw [used_write]
    exact hp
  · exact word_write_of_not_mem arena start len words hp

/-- The words after one of them is set. -/
lemma word_set {p : SegmentRef} (hp : p.pos < arena.used p.segment) (v : Word) (r : SegmentRef) :
    (arena.write p 1 fun _ => v).word r = if r = p then v else arena.word r := by
  by_cases hr : r = p
  · subst hr
    rw [if_pos rfl]
    exact word_write_of_mem arena r 1 _ (lt_length_of_used (by omega)) rfl (Nat.le_refl _)
      (Nat.lt_succ_self _)
  · rw [if_neg hr]
    exact word_write_of_not_mem arena p 1 _ fun h => hr (mem_span_one.1 h)

end Arena

/-! ## What the small operations of a builder do -/

namespace ObjectBuilder

variable {arena arena' : Arena} {self : ObjectBuilder}

lemma id_apply (hwf : arena.Wf) (hself : self.segment < arena.segments.length) :
    self.id arena = .ok self.segment arena := by
  have hs := List.getElem?_eq_getElem hself
  rw [id, hs]
  show Outcome.ok _ arena = _
  rw [(hwf.owned hs).1]

lemma setPtr_apply {ε : Type} (hwf : arena.Wf) {ptr : SegmentRef}
    (hptr : ptr.pos < arena.used ptr.segment) (value : WirePtr) :
    (self.setPtr ptr value : Prog ε Arena Unit) arena
      = .ok () (arena.write ptr 1 fun _ => value) := by
  have hle := hwf.used_le_len ptr.segment
  show (if ptr.pos + 1 ≤ arena.len ptr.segment then Outcome.ok () _ else _) = _
  rw [if_pos (by omega)]

lemma offsetFromEndOf_apply {ptr stop : SegmentRef} (hsegment : ptr.segment = stop.segment)
    (hptr : ptr.pos < 2 ^ 29) (hstop : stop.pos < 2 ^ 29) :
    ∃ offset : SignedSegmentOffset, self.offsetFromEndOf ptr stop arena = .ok offset arena ∧
      (ptr.pos : ℤ) + 1 + offset.get = stop.pos := by
  have hexists := @I30.exists_new ((stop.pos : ℤ) - (ptr.pos + 1 : ℕ)) (by omega) (by omega)
  obtain ⟨offset, hnew, hget⟩ := hexists
  refine ⟨offset, ?_, by omega⟩
  show (Prog.require (ptr.segment = stop.segment) >>= fun _ =>
    unchecked (I30.new ((stop.pos : ℤ) - (ptr.pos + 1 : ℕ)))) arena = _
  rw [require_of hsegment, pure_bind_eq, hnew]
  rfl

lemma offsetFromStart_apply {stop : SegmentRef} (hsegment : self.segment = stop.segment)
    (hstop : stop.pos < 2 ^ 29) :
    ∃ offset : SegmentOffset, self.offsetFromStart stop arena = .ok offset arena ∧
      offset.get = stop.pos := by
  obtain ⟨offset, hnew, hget⟩ :=
    @I30.exists_new ((stop.pos : ℤ) - (0 : ℕ)) (by omega) (by omega)
  have hcast : u32OfI32 offset.get = stop.pos := by
    rw [hget, u32OfI32]
    omega
  refine ⟨⟨stop.pos, hstop⟩, ?_, rfl⟩
  show ((Prog.require (self.segment = stop.segment) >>= fun _ =>
    unchecked (I30.new ((stop.pos : ℤ) - (0 : ℕ)))) >>= fun signedOffset =>
      Prog.unwrap (U29.new (u32OfI32 signedOffset.get))) arena = _
  rw [require_of hsegment, pure_bind_eq, hnew]
  show (Prog.unwrap (U29.new (u32OfI32 offset.get)) : BuildM SegmentOffset) arena = _
  rw [hcast, U29.new_of_lt hstop]
  rfl

/-- Allocating in the builder's own segment, if it has the words. -/
lemma allocInSegment_cases (hwf : arena.Wf) (hself : self.segment < arena.segments.length)
    (size : AllocLen) :
    (arena.len self.segment < arena.used self.segment + size.get ∧
      self.allocInSegment size arena = .ok none arena) ∨
    (arena.used self.segment + size.get ≤ arena.len self.segment ∧
      ∃ (r : SegmentRef) (arena' : Arena), self.allocInSegment size arena = .ok (some r) arena' ∧
        r.segment = self.segment ∧ arena.Allocates r size.get arena') := by
  unfold allocInSegment
  rcases Arena.onSegment_tryUseLen hwf hself size with
    ⟨hroom, hrun⟩ | ⟨hroom, o, arena', hrun, hallocates⟩
  · left
    refine ⟨hroom, ?_⟩
    rw [bind_of_ok hrun]
    rfl
  · right
    refine ⟨hroom, ⟨self.segment, o.get⟩, arena', ?_, rfl, hallocates⟩
    rw [bind_of_ok hrun]
    rfl

/-- Allocating anywhere. -/
lemma allocInArena_cases (hwf : arena.Wf) (size : AllocLen) :
    (∃ arena', self.allocInArena size arena = .ok none arena' ∧ arena.Unchanged arena') ∨
    ∃ (r : SegmentRef) (arena' : Arena), self.allocInArena size arena = .ok (some (r, ⟨r.segment⟩)) arena' ∧
      arena.Allocates r size.get arena' := by
  unfold allocInArena
  rcases Arena.alloc_cases hwf size with ⟨arena', hrun, hunchanged⟩ | ⟨r, arena', hrun, hallocates⟩
  · left
    refine ⟨arena', ?_, hunchanged⟩
    rw [bind_of_ok hrun]
    rfl
  · right
    refine ⟨r, arena', ?_, hallocates⟩
    rw [bind_of_ok hrun]
    rfl

/-- Allocating in the builder's segment or anywhere. -/
lemma alloc_cases (hwf : arena.Wf) (hself : self.segment < arena.segments.length)
    (size : AllocLen) :
    (∃ arena', self.alloc size arena = .ok none arena' ∧ arena.Unchanged arena') ∨
    ∃ (r : SegmentRef) (arena' : Arena), self.alloc size arena = .ok (some (r, ⟨r.segment⟩)) arena' ∧
      arena.Allocates r size.get arena' := by
  unfold alloc
  rcases allocInSegment_cases hwf hself size with
    ⟨-, hrun⟩ | ⟨-, r, arena', hrun, hsegment, hallocates⟩
  · rw [bind_of_ok hrun]
    exact allocInArena_cases hwf size
  · right
    refine ⟨r, arena', ?_, hallocates⟩
    rw [bind_of_ok hrun, hsegment]
    rfl

end ObjectBuilder

end Recapn.Ptr

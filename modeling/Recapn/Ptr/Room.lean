/-
# What allocations depend on

An allocation does not look at words.  Arenas that differ in their words only have the same room:
they place an object in the same way, or fail in the same way.
-/
import Recapn.Lib.Respects
import Recapn.Ptr.Alloc

namespace Recapn.Ptr

open Recapn.Lib

/-- What a segment has besides its words. -/
def ArenaSegment.room (self : ArenaSegment) : SegmentLen × SegmentId × SegmentState :=
  (self.segment.len, self.id, self.state)

/-- The arenas differ in their words only. -/
structure Arena.SameRoom (a b : Arena) : Prop where
  allocator : a.allocator = b.allocator
  requests : a.requests = b.requests
  lastOwned : a.lastOwned = b.lastOwned
  segments : a.segments.map ArenaSegment.room = b.segments.map ArenaSegment.room

namespace Arena.SameRoom

variable {a b c : Arena}

lemma refl (a : Arena) : SameRoom a a := ⟨rfl, rfl, rfl, rfl⟩

lemma symm (h : SameRoom a b) : SameRoom b a :=
  ⟨h.allocator.symm, h.requests.symm, h.lastOwned.symm, h.segments.symm⟩

lemma trans (h : SameRoom a b) (h' : SameRoom b c) : SameRoom a c :=
  ⟨h.allocator.trans h'.allocator, h.requests.trans h'.requests, h.lastOwned.trans h'.lastOwned,
    h.segments.trans h'.segments⟩

lemma length_eq (h : SameRoom a b) : a.segments.length = b.segments.length := by
  have hlength := congrArg List.length h.segments
  rwa [List.length_map, List.length_map] at hlength

/-- The segments of one are those of the other, up to their words. -/
lemma getElem? (h : SameRoom a b) (i : ℕ) :
    (a.segments[i]?).map ArenaSegment.room = (b.segments[i]?).map ArenaSegment.room := by
  rw [← List.getElem?_map, ← List.getElem?_map, h.segments]

lemma len_eq (h : SameRoom a b) (i : ℕ) : a.len i = b.len i := by
  have hi := h.getElem? i
  rw [Arena.len, Arena.len]
  rcases ha : a.segments[i]? with _ | s <;> rcases hb : b.segments[i]? with _ | t <;>
    rw [ha, hb] at hi
  · cases hi
  · cases hi
  · exact congrArg (fun r : SegmentLen × SegmentId × SegmentState => r.1.get) (Option.some.inj hi)

/-- Words may be written to one of them. -/
lemma write (a : Arena) (start : SegmentRef) (len : ℕ) (words : ℕ → Word) :
    SameRoom (a.write start len words) a := by
  refine ⟨rfl, rfl, rfl, List.ext_getElem? fun i => ?_⟩
  rw [List.getElem?_map, List.getElem?_map, getElem?_write]
  rcases a.segments[i]? with _ | s
  · rfl
  · by_cases hi : start.segment = i
    · simp only [Option.map_some, if_pos hi]
      rfl
    · simp only [Option.map_some, if_neg hi]

end Arena.SameRoom

/-! ## Allocations have the same result -/

section Respects

open Prog Arena

variable {a b : Arena} {self : ObjectBuilder}

/-- Using more of a segment looks at its length and its state. -/
lemma respects_tryUseLen (i : ℕ) (size : AllocLen) :
    Respects SameRoom (onSegment i (ArenaSegment.tryUseLen size)) := by
  intro a b h
  have hi := h.getElem? i
  rw [onSegment, onSegment]
  rcases ha : a.segments[i]? with _ | s <;> rcases hb : b.segments[i]? with _ | t <;>
    rw [ha, hb] at hi
  · exact .halt
  · cases hi
  · cases hi
  · have hroom : s.room = t.room := Option.some.inj hi
    have hlen : s.segment.len = t.segment.len := congrArg Prod.fst hroom
    have hid : s.id = t.id := congrArg (fun r => r.2.1) hroom
    have hstate : s.state = t.state := congrArg (fun r => r.2.2) hroom
    -- the segment that is put back
    have hset : ∀ s' t' : ArenaSegment, s'.room = t'.room →
        SameRoom { a with segments := a.segments.set i s' } { b with segments := b.segments.set i t' } := by
      intro s' t' hroom'
      refine ⟨h.allocator, h.requests, h.lastOwned, ?_⟩
      show (a.segments.set i s').map ArenaSegment.room = (b.segments.set i t').map ArenaSegment.room
      rw [List.map_set, List.map_set, h.segments, hroom']
    rcases hused : s.state with len | _ | _
    · by_cases hfull : s.segment.len.get < len.get + size.get
      · have hs : ArenaSegment.tryUseLen size s = .ok none s := by
          simp [ArenaSegment.tryUseLen, bind_apply, hused, hfull]
        have ht : ArenaSegment.tryUseLen size t = .ok none t := by
          simp [ArenaSegment.tryUseLen, bind_apply, ← hstate, hused, ← hlen, hfull]
        simp only [hs, ht]
        exact .ok (hset s t hroom)
      · rcases hnew : AllocLen.new (len.get + size.get) with _ | used
        · have hs : ArenaSegment.tryUseLen size s = .halt .panic := by
            simp [ArenaSegment.tryUseLen, bind_apply, hused, hfull, hnew, Prog.unwrap]
          have ht : ArenaSegment.tryUseLen size t = .halt .panic := by
            simp [ArenaSegment.tryUseLen, bind_apply, ← hstate, hused, ← hlen, hfull, hnew, Prog.unwrap]
          simp only [hs, ht]
          exact .halt
        · have hs : ArenaSegment.tryUseLen size s = .ok (some len.toU29) { s with state := .used used } := by
            simp [ArenaSegment.tryUseLen, bind_apply, hused, hfull, hnew]
          have ht : ArenaSegment.tryUseLen size t = .ok (some len.toU29) { t with state := .used used } := by
            simp [ArenaSegment.tryUseLen, bind_apply, ← hstate, hused, ← hlen, hfull, hnew]
          simp only [hs, ht]
          refine .ok (hset _ _ ?_)
          show (s.segment.len, s.id, SegmentState.used used) = (t.segment.len, t.id, .used used)
          rw [hlen, hid]
    · have hs : ArenaSegment.tryUseLen size s = .halt .panic := by
        simp [ArenaSegment.tryUseLen, bind_apply, hused]
      have ht : ArenaSegment.tryUseLen size t = .halt .panic := by
        simp [ArenaSegment.tryUseLen, bind_apply, ← hstate, hused]
      simp only [hs, ht]
      exact .halt
    · have hs : ArenaSegment.tryUseLen size s = .halt .panic := by
        simp [ArenaSegment.tryUseLen, bind_apply, hused]
      have ht : ArenaSegment.tryUseLen size t = .halt .panic := by
        simp [ArenaSegment.tryUseLen, bind_apply, ← hstate, hused]
      simp only [hs, ht]
      exact .halt

lemma respects_allocNew (size : AllocLen) (id : SegmentId) : Respects SameRoom (allocNew size id) := by
  intro a b h
  rw [allocNew, allocNew, ← h.allocator, ← h.requests]
  exact .ok ⟨rfl, rfl, h.lastOwned, h.segments⟩

lemma respects_alloc (size : AllocLen) : Respects SameRoom (Arena.alloc size) := by
  intro a b h
  rw [Arena.alloc, bind_of_ok (get_apply a), bind_of_ok (get_apply b)]
  dsimp only
  rw [← h.lastOwned, ← h.length_eq]
  refine respects_bind (respects_tryUseLen a.lastOwned size) (fun offset => ?_) a b h
  cases offset with
  | some offset => exact respects_pure _
  | none =>
    refine respects_ite (respects_pure none) (respects_bind (respects_allocNew size _) fun segment => ?_)
    cases segment with
    | none => exact respects_pure none
    | some segment =>
      refine respects_bind (fun a b h => .ok ⟨h.allocator, h.requests, rfl, ?_⟩) fun _ => respects_pure _
      show (a.segments ++ [segment]).map ArenaSegment.room = (b.segments ++ [segment]).map ArenaSegment.room
      rw [List.map_append, List.map_append, h.segments]

lemma respects_id : Respects SameRoom self.id := by
  intro a b h
  have hi := h.getElem? self.segment
  rw [ObjectBuilder.id, ObjectBuilder.id]
  rcases ha : a.segments[self.segment]? with _ | s <;>
    rcases hb : b.segments[self.segment]? with _ | t <;> rw [ha, hb] at hi
  · exact .halt
  · cases hi
  · cases hi
  · have hid : s.id = t.id := congrArg (fun r => r.2.1) (Option.some.inj hi)
    show Outcome.Related SameRoom (.ok s.id a) (.ok t.id b)
    rw [hid]
    exact .ok h

lemma respects_setPtr (ptr : SegmentRef) (value : WirePtr) :
    Respects SameRoom (self.setPtr ptr value : BuildM Unit) := by
  intro a b h
  have hlen := h.len_eq ptr.segment
  rw [ObjectBuilder.setPtr, writeSection, writeSection, hlen]
  by_cases hle : ptr.pos + 1 ≤ b.len ptr.segment
  · rw [if_pos hle, if_pos hle]
    exact .ok ((SameRoom.write a ptr 1 _).trans (h.trans (SameRoom.write b ptr 1 _).symm))
  · rw [if_neg hle, if_neg hle]
    exact .halt

lemma respects_offsetFrom (start stop : SegmentRef) :
    Respects SameRoom (self.offsetFrom start stop) := by
  refine respects_bind (respects_require _) fun _ => ?_
  rcases I30.new ((stop.pos : ℤ) - start.pos) with _ | offset
  · exact respects_halt .undefined
  · exact respects_pure offset

lemma respects_offsetFromStart (stop : SegmentRef) : Respects SameRoom (self.offsetFromStart stop) :=
  respects_bind (respects_offsetFrom _ _) fun _ => respects_unwrap _

lemma respects_allocInSegment (size : AllocLen) : Respects SameRoom (self.allocInSegment size) :=
  respects_bind (respects_tryUseLen _ size) fun _ => respects_pure _

lemma respects_allocInArena (size : AllocLen) : Respects SameRoom (self.allocInArena size) :=
  respects_bind (respects_alloc size) fun _ => respects_pure _

lemma respects_allocDoubleFarLandingPad : Respects SameRoom self.allocDoubleFarLandingPad := by
  refine respects_bind (respects_bind (respects_allocInSegment _) fun word => ?_) fun _ =>
    respects_pure _
  cases word with
  | some word => exact respects_pure _
  | none => exact respects_allocInArena _

/-- `alloc_struct` places structs by the room. -/
lemma respects_allocStruct (ptr : SegmentRef) (size : StructSize) :
    Respects SameRoom (self.allocStruct ptr size) := by
  rw [ObjectBuilder.allocStruct]
  rcases AllocLen.new size.total with _ | len
  · exact respects_bind (respects_setPtr _ _) fun _ => respects_pure _
  · refine respects_bind (respects_allocInSegment len) fun start => ?_
    cases start with
    | some start =>
      exact respects_bind (respects_offsetFrom _ _) fun _ =>
        respects_bind (respects_setPtr _ _) fun _ => respects_pure _
    | none =>
      refine respects_bind (respects_unwrap _) fun lenWithPad => ?_
      refine respects_bind (respects_allocInArena _) fun alloc => ?_
      refine respects_bind (respects_okOr _ _) fun place => ?_
      refine respects_bind (respects_offsetFromStart _) fun offset => ?_
      refine respects_bind respects_id fun id => ?_
      exact respects_bind (respects_setPtr _ _) fun _ =>
        respects_bind (respects_setPtr _ _) fun _ => respects_pure _

lemma respects_allocSegmentOfList (ptr : SegmentRef) (size : ElementSize) (count : ElementCount) :
    Respects SameRoom (self.allocSegmentOfList ptr size count) := by
  refine respects_bind respects_allocDoubleFarLandingPad fun alloc => ?_
  refine respects_bind (respects_okOr _ _) fun pads => ?_
  refine respects_bind (respects_allocInArena _) fun alloc => ?_
  refine respects_bind (respects_okOr _ _) fun place => ?_
  refine respects_bind (respects_offsetFromStart _) fun offset => ?_
  refine respects_bind respects_id fun id => ?_
  refine respects_bind (respects_setPtr _ _) fun _ => ?_
  refine respects_bind (respects_offsetFromStart _) fun offset => ?_
  refine respects_bind respects_id fun id => ?_
  exact respects_bind (respects_setPtr _ _) fun _ =>
    respects_bind (respects_setPtr _ _) fun _ => respects_pure _

lemma respects_placeList (ptr : SegmentRef) (size : ElementSize) (count ptrCount : ElementCount)
    (len : AllocLen) : Respects SameRoom (self.placeList ptr size count ptrCount len) := by
  refine respects_bind (respects_allocInSegment len) fun alloc => ?_
  cases alloc with
  | some alloc =>
    exact respects_bind (respects_offsetFrom _ _) fun _ =>
      respects_bind (respects_setPtr _ _) fun _ => respects_pure _
  | none =>
    rcases AllocLen.new (len.get + 1) with _ | lenWithPad
    · exact respects_allocSegmentOfList ptr size count
    · refine respects_bind (respects_allocInArena _) fun alloc => ?_
      refine respects_bind (respects_okOr _ _) fun place => ?_
      refine respects_bind (respects_offsetFromStart _) fun offset => ?_
      refine respects_bind respects_id fun id => ?_
      exact respects_bind (respects_setPtr _ _) fun _ =>
        respects_bind (respects_setPtr _ _) fun _ => respects_pure _

/-- `alloc_list` places lists by the room. -/
lemma respects_allocList (ptr : SegmentRef) (size : ElementSize) (count : ElementCount) :
    Respects SameRoom (self.allocList ptr size count) := by
  rw [ObjectBuilder.allocList]
  refine respects_ite (respects_bind (respects_setPtr _ _) fun _ => respects_pure _) ?_
  refine respects_bind (respects_okOr _ _) fun len => ?_
  refine respects_bind (respects_ite (respects_unwrap _) (respects_pure _)) fun ptrCount => ?_
  refine respects_bind (respects_placeList _ _ _ _ _) fun place => ?_
  refine respects_bind ?_ fun _ => respects_pure _
  cases size with
  | inlineComposite size => exact respects_bind (respects_setPtr _ _) fun _ => respects_pure _
  | _ => exact respects_pure _

end Respects

end Recapn.Ptr

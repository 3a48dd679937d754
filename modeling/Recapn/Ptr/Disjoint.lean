/-
# Allocations do not overlap

Words are allocated by four calls: from the segment of a builder, from any segment of the arena,
from the former and else from the latter, and from the arena itself.  They all count up what is
used of a segment, so in every run of calls the ranges that were granted are live and disjoint.
-/
import Recapn.Ptr.Alloc

namespace Recapn.Ptr

open Recapn.Lib Recapn.Lib.Prog

/-- A call that allocates words. -/
inductive AllocCall where
  | alloc (builder : ObjectBuilder) (size : AllocLen)
  | allocInSegment (builder : ObjectBuilder) (size : AllocLen)
  | allocInArena (builder : ObjectBuilder) (size : AllocLen)
  | arenaAlloc (size : AllocLen)

namespace AllocCall

/-- How many words the call asks for. -/
def size : AllocCall → AllocLen
  | alloc _ size => size
  | allocInSegment _ size => size
  | allocInArena _ size => size
  | arenaAlloc size => size

/-- The call: where the words are, if there are any. -/
def exec : AllocCall → BuildM (Option SegmentRef)
  | alloc builder size => do
    let place ← builder.alloc size
    pure (place.map Prod.fst)
  | allocInSegment builder size => builder.allocInSegment size
  | allocInArena builder size => do
    let place ← builder.allocInArena size
    pure (place.map Prod.fst)
  | arenaAlloc size => Arena.alloc size

/-- A builder stands in a segment of the arena. -/
def Stands (arena : Arena) : AllocCall → Prop
  | alloc builder _ => builder.segment < arena.segments.length
  | allocInSegment builder _ => builder.segment < arena.segments.length
  | allocInArena builder _ => builder.segment < arena.segments.length
  | arenaAlloc _ => True

variable {arena arena' : Arena}

lemma segments_of_allocInArena_none {builder : ObjectBuilder} {size : AllocLen} (hwf : arena.Wf)
    (h : builder.allocInArena size arena = .ok none arena') :
    arena'.segments = arena.segments := by
  obtain ⟨place, arena₁, halloc, hpure⟩ := bind_eq_ok.1 h
  rcases place with _ | place
  · cases hpure
    exact Arena.segments_of_alloc_none hwf halloc
  · cases hpure

/-- A call allocates, or leaves the segments as they are. -/
lemma exec_cases (hwf : arena.Wf) (call : AllocCall) (hstands : call.Stands arena) :
    (∃ arena', call.exec arena = .ok none arena' ∧ arena'.segments = arena.segments ∧
      arena.Unchanged arena') ∨
    ∃ r arena', call.exec arena = .ok (some r) arena' ∧ arena.Allocates r call.size.get arena' := by
  cases call with
  | alloc builder size =>
    rcases ObjectBuilder.allocInSegment_cases hwf hstands size with
      ⟨-, hsegment⟩ | ⟨-, r, arena₁, hsegment, -, hallocates⟩
    · rcases @ObjectBuilder.allocInArena_cases arena builder hwf size with
        ⟨arena₁, hrun, hunchanged⟩ | ⟨r, arena₁, hrun, hallocates⟩
      · left
        have halloc : builder.alloc size arena = .ok none arena₁ := by
          rw [ObjectBuilder.alloc, bind_of_ok hsegment]
          exact hrun
        refine ⟨arena₁, ?_, segments_of_allocInArena_none hwf hrun, hunchanged⟩
        rw [exec, bind_of_ok halloc]
        rfl
      · right
        have halloc : builder.alloc size arena = .ok (some (r, ⟨r.segment⟩)) arena₁ := by
          rw [ObjectBuilder.alloc, bind_of_ok hsegment]
          exact hrun
        refine ⟨r, arena₁, ?_, hallocates⟩
        rw [exec, bind_of_ok halloc]
        rfl
    · right
      have halloc : builder.alloc size arena = .ok (some (r, builder)) arena₁ := by
        rw [ObjectBuilder.alloc, bind_of_ok hsegment]
        rfl
      refine ⟨r, arena₁, ?_, hallocates⟩
      rw [exec, bind_of_ok halloc]
      rfl
  | allocInSegment builder size =>
    rcases ObjectBuilder.allocInSegment_cases hwf hstands size with
      ⟨-, hrun⟩ | ⟨-, r, arena₁, hrun, -, hallocates⟩
    · exact Or.inl ⟨arena, hrun, rfl, .refl hwf⟩
    · exact Or.inr ⟨r, arena₁, hrun, hallocates⟩
  | allocInArena builder size =>
    rcases @ObjectBuilder.allocInArena_cases arena builder hwf size with
      ⟨arena₁, hrun, hunchanged⟩ | ⟨r, arena₁, hrun, hallocates⟩
    · left
      refine ⟨arena₁, ?_, segments_of_allocInArena_none hwf hrun, hunchanged⟩
      rw [exec, bind_of_ok hrun]
      rfl
    · right
      refine ⟨r, arena₁, ?_, hallocates⟩
      rw [exec, bind_of_ok hrun]
      rfl
  | arenaAlloc size =>
    rcases Arena.alloc_cases hwf size with ⟨arena₁, hrun, hunchanged⟩ | ⟨r, arena₁, hrun, hallocates⟩
    · exact Or.inl ⟨arena₁, hrun, Arena.segments_of_alloc_none hwf hrun, hunchanged⟩
    · exact Or.inr ⟨r, arena₁, hrun, hallocates⟩

end AllocCall

/-! ## Runs -/

/-- The words that a call was granted: where they are, and how many. -/
structure Range where
  start : SegmentRef
  len : AllocLen

/-- The places of a range. -/
def Range.places (range : Range) : Set SegmentRef := span range.start range.len.get

/-- The ranges that the calls of a run were granted. -/
def granted (log : List (AllocCall × Option SegmentRef)) : List Range :=
  log.filterMap fun (call, place) => place.map fun start => ⟨start, call.size⟩

/-- The runs of calls on an arena with a root: what each call returned, and the arena after
them.  Used words may be written in between. -/
inductive Allocations (allocator : Alloc) : List (AllocCall × Option SegmentRef) → Arena → Prop
  | root {arena : Arena} (hrun : Arena.allocRoot (Arena.new allocator) = .ok () arena) :
      Allocations allocator [] arena
  | call {log : List (AllocCall × Option SegmentRef)} {arena arena' : Arena} {call : AllocCall}
      {place : Option SegmentRef} (h : Allocations allocator log arena)
      (hstands : call.Stands arena) (hexec : call.exec arena = .ok place arena') :
      Allocations allocator (log ++ [(call, place)]) arena'
  | write {log : List (AllocCall × Option SegmentRef)} {arena : Arena}
      (h : Allocations allocator log arena) (start : SegmentRef) (len : ℕ)
      (hlen : start.pos + len ≤ arena.used start.segment) (words : ℕ → Word) :
      Allocations allocator log (arena.write start len words)

/-- The word of the root pointer. -/
def rootPtr : SegmentRef := ⟨0, 0⟩

/-- The root pointer and the granted ranges. -/
def taken (log : List (AllocCall × Option SegmentRef)) : List (Set SegmentRef) :=
  span rootPtr 1 :: (granted log).map Range.places

variable {allocator : Alloc} {log : List (AllocCall × Option SegmentRef)} {arena : Arena}

/-- After every run the arena is well-formed, and what was granted is live and does not
overlap. -/
lemma Allocations.apart (h : Allocations allocator log arena) :
    arena.Wf ∧ arena.store.Apart (taken log) := by
  induction h with
  | root hrun =>
    obtain ⟨hwf, hused⟩ := Arena.allocRoot_new_eq_ok hrun
    refine ⟨hwf, fun A hA => ?_, List.pairwise_singleton _ _⟩
    rw [List.mem_singleton.1 hA]
    rintro r hr
    rw [mem_span_one.1 hr]
    show 0 < Arena.used _ 0
    rw [hused]
    exact Nat.one_pos
  | @call log arena arena' call place _ hstands hexec ih =>
    obtain ⟨hwf, hapart⟩ := ih
    have htaken : taken (log ++ [(call, place)])
        = taken log ++ (place.map fun start => span start call.size.get).toList := by
      rcases place with _ | start <;> simp [taken, granted, Range.places]
    rcases call.exec_cases hwf hstands with
      ⟨arena₁, hrun, -, hunchanged⟩ | ⟨r, arena₁, hrun, hallocates⟩
    · rw [hrun] at hexec
      cases hexec
      rw [htaken, Option.map_none, Option.toList_none, List.append_nil]
      exact ⟨hunchanged.wf, hapart.grows hunchanged.grows.store.live_subset⟩
    · rw [hrun] at hexec
      cases hexec
      rw [htaken, Option.map_some, Option.toList_some]
      exact ⟨hallocates.wf, hapart.snoc hallocates.grows.store.live_subset fun p hp =>
        hallocates.mem_fresh hp⟩
  | @write log arena _ start len hlen words ih =>
    obtain ⟨hwf, hapart⟩ := ih
    have hgrows := Arena.grows_write hwf hlen words
    exact ⟨hgrows.wf, hapart.grows hgrows.store.live_subset⟩

/-- **Allocations never overlap.**  After every run of calls on an arena, each granted range is
inside of the used part of its segment, which is inside of the segment; the ranges are disjoint
from each other and from the root pointer.  Every further call returns; no segment is used less
after it, and if it is granted nothing, the segments are what they were. -/
theorem allocations_disjoint (h : Allocations allocator log arena) :
    (∀ range ∈ granted log,
      range.start.pos + range.len.get ≤ arena.used range.start.segment ∧
      arena.used range.start.segment ≤ arena.len range.start.segment) ∧
    (granted log).Pairwise (fun range range' => Disjoint range.places range'.places) ∧
    (∀ range ∈ granted log, Disjoint (span rootPtr 1) range.places) ∧
    ∀ call : AllocCall, call.Stands arena → ∃ place arena', call.exec arena = .ok place arena' ∧
      (∀ i, arena.used i ≤ arena'.used i) ∧
      (place = none → arena'.segments = arena.segments) := by
  obtain ⟨hwf, hlive, hpairwise⟩ := h.apart
  rw [taken, List.pairwise_cons] at hpairwise
  refine ⟨fun range hrange => ?_, List.pairwise_map.1 hpairwise.2,
    fun range hrange => hpairwise.1 _ (List.mem_map_of_mem hrange), fun call hstands => ?_⟩
  · refine ⟨?_, hwf.used_le_len _⟩
    -- the last word of the range is used
    have hpos := range.len.get_pos
    have hlast : (⟨range.start.segment, range.start.pos + range.len.get - 1⟩ : SegmentRef)
        ∈ arena.store.live := by
      refine hlive _ (List.mem_cons_of_mem _ (List.mem_map_of_mem hrange)) ?_
      refine mem_span.2 ⟨rfl, ?_, ?_⟩
      · show range.start.pos ≤ range.start.pos + range.len.get - 1
        omega
      · show range.start.pos + range.len.get - 1 < range.start.pos + range.len.get
        omega
    have hlt := Arena.mem_live.1 hlast
    dsimp only at hlt
    omega
  · rcases call.exec_cases hwf hstands with
      ⟨arena', hrun, hsegments, hunchanged⟩ | ⟨r, arena', hrun, hallocates⟩
    · exact ⟨none, arena', hrun, hunchanged.grows.used_le, fun _ => hsegments⟩
    · exact ⟨some r, arena', hrun, hallocates.grows.used_le, fun hnone => nomatch hnone⟩

/-- Two words for a builder in the root's segment, which has no room, and two from the arena. -/
def twoCalls : List (AllocCall × Option SegmentRef) :=
  [(.alloc ⟨0⟩ landingPadLen, some ⟨1, 0⟩), (.arenaAlloc landingPadLen, some ⟨2, 0⟩)]

theorem allocations_disjoint_two_calls :
    granted twoCalls = [⟨⟨1, 0⟩, landingPadLen⟩, ⟨⟨2, 0⟩, landingPadLen⟩] ∧
      (granted twoCalls).Pairwise fun range range' => Disjoint range.places range'.places := by
  have hroot : Allocations .global [] _ := .root rfl
  have hfirst : Allocations .global [(.alloc ⟨0⟩ landingPadLen, some ⟨1, 0⟩)] _ :=
    hroot.call (show AllocCall.Stands _ (.alloc ⟨0⟩ landingPadLen) from Nat.one_pos) rfl
  have hsecond : Allocations .global twoCalls _ :=
    hfirst.call (show AllocCall.Stands _ (.arenaAlloc landingPadLen) from trivial) rfl
  exact ⟨rfl, (allocations_disjoint hsecond).2.1⟩

end Recapn.Ptr

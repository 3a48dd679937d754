/-
# Layers of allocators

An allocator hands out segments of memory and takes them back.  Some allocators are layers over
another one: `Scratch` hands out the space that it borrows before it asks the other allocator, and
`Growing` asks the other allocator for more and more.  `Scratch` tells by address and length which
segments it got from where, when they are given back.

A layer over an allocator that hands out unused memory of its own is such an allocator too, and
the other one gets back what it handed out.
-/
import Mathlib.Data.Set.Lattice
import Mathlib.Order.CompletePartialOrder
import Recapn.Num

namespace Recapn.Ptr.Allocators

/-! ## Allocators -/

/-- `Segment`: the place of its first word in memory, and its length. -/
structure Segment where
  data : ℕ
  len : SegmentLen
deriving DecidableEq, Repr

/-- The places of its words. -/
def Segment.words (segment : Segment) : Set ℕ :=
  {p | segment.data ≤ p ∧ p < segment.data + segment.len.get}

lemma Segment.data_mem {segment : Segment} (h : 0 < segment.len.get) : segment.data ∈ segment.words :=
  ⟨le_rfl, Nat.lt_add_of_pos_right h⟩

/-- `Alloc`, for an allocator with a state. -/
structure Alloc (σ : Type) where
  alloc : AllocLen → σ → Option Segment × σ
  dealloc : Segment → σ → σ

/-- A call of an allocator, and its answer. -/
inductive Event where
  | alloc (size : AllocLen) (answer : Option Segment)
  | dealloc (segment : Segment)
deriving DecidableEq, Repr

/-- The segments that were handed out and not given back, the last call being the first event. -/
def live : List Event → List Segment
  | [] => []
  | .alloc _ none :: events => live events
  | .alloc _ (some segment) :: events => segment :: live events
  | .dealloc segment :: events => (live events).erase segment

/-- The calls of an allocator from a state on.  Only live segments are given back. -/
inductive Run {σ : Type} (A : Alloc σ) (s : σ) : List Event → σ → Prop
  | start : Run A s [] s
  | alloc {events : List Event} {s' : σ} (h : Run A s events s') (size : AllocLen) :
      Run A s (.alloc size (A.alloc size s').1 :: events) (A.alloc size s').2
  | dealloc {events : List Event} {s' : σ} (h : Run A s events s') {segment : Segment}
      (hlive : segment ∈ live events) : Run A s (.dealloc segment :: events) (A.dealloc segment s')

/-- The segment is as long as was asked for, it is in the memory of the allocator, and none of its
words is in use. -/
structure Grants (memory : Set ℕ) (used : List Segment) (size : AllocLen) (segment : Segment) : Prop where
  le_len : size.get ≤ segment.len.get
  words_subset : segment.words ⊆ memory
  unused : ∀ other ∈ used, Disjoint segment.words other.words

/-- What an allocator with this memory promises, from a state on. -/
def Lawful {σ : Type} (A : Alloc σ) (s : σ) (memory : Set ℕ) : Prop :=
  ∀ ⦃events s'⦄, Run A s events s' → ∀ ⦃size segment⦄, (A.alloc size s').1 = some segment →
    Grants memory (live events) size segment

/-- The allocator, with the calls that it got. -/
def Alloc.recorded {σ : Type} (A : Alloc σ) : Alloc (List Event × σ) where
  alloc size s :=
    ((A.alloc size s.2).1, .alloc size (A.alloc size s.2).1 :: s.1, (A.alloc size s.2).2)
  dealloc segment s := (.dealloc segment :: s.1, A.dealloc segment s.2)

variable {σ : Type} {A : Alloc σ} {s : σ} {memory : Set ℕ} {events : List Event} {size : AllocLen}
  {segment space : Segment}

lemma mem_live_of_alloc (h : segment ∈ live events) : ∃ size, .alloc size (some segment) ∈ events := by
  induction events with
  | nil => cases h
  | cons event events ih =>
    have hrest (h : segment ∈ live events) :
        ∃ size, Event.alloc size (some segment) ∈ event :: events := by
      obtain ⟨size, hsize⟩ := ih h
      exact ⟨size, List.mem_cons_of_mem _ hsize⟩
    cases event with
    | alloc size answer =>
      cases answer with
      | none => exact hrest h
      | some other =>
        rcases List.mem_cons.1 h with rfl | h
        · exact ⟨size, List.mem_cons_self⟩
        · exact hrest h
    | dealloc other => exact hrest (List.mem_of_mem_erase h)

/-- What was given back had been handed out. -/
lemma Run.allocated_of_dealloc {s' : σ} (h : Run A s events s') (hmem : .dealloc segment ∈ events) :
    ∃ size, .alloc size (some segment) ∈ events := by
  have hcons {event : Event} {events : List Event}
      (h : ∃ size, Event.alloc size (some segment) ∈ events) :
      ∃ size, Event.alloc size (some segment) ∈ event :: events := by
    obtain ⟨size, hsize⟩ := h
    exact ⟨size, List.mem_cons_of_mem _ hsize⟩
  induction h with
  | start => cases hmem
  | alloc h size ih =>
    rcases List.mem_cons.1 hmem with heq | hmem
    · cases heq
    · exact hcons (ih hmem)
  | dealloc h hlive ih =>
    rcases List.mem_cons.1 hmem with heq | hmem
    · cases heq
      exact hcons (mem_live_of_alloc hlive)
    · exact hcons (ih hmem)

/-- The record holds the calls. -/
lemma Run.of_recorded {log : List Event × σ} (h : Run A.recorded ([], s) events log) :
    log.1 = events ∧ Run A s events log.2 := by
  induction h with
  | start => exact ⟨rfl, .start⟩
  | @alloc events log h size ih =>
    obtain ⟨hlog, hrun⟩ := ih
    exact ⟨congrArg (List.cons (Event.alloc size (A.alloc size log.2).1)) hlog, hrun.alloc size⟩
  | @dealloc events log h segment hlive ih =>
    obtain ⟨hlog, hrun⟩ := ih
    exact ⟨congrArg (List.cons (Event.dealloc segment)) hlog, hrun.dealloc hlive⟩

namespace Lawful

variable {s' : σ}

lemma recorded (hA : Lawful A s memory) : Lawful A.recorded ([], s) memory :=
  fun _ _ h _ _ halloc => hA h.of_recorded.2 halloc

/-- All that was handed out was long enough and in the memory. -/
lemma grants_of_mem (hA : Lawful A s memory) (h : Run A s events s')
    (hmem : .alloc size (some segment) ∈ events) : ∃ used, Grants memory used size segment := by
  induction h with
  | start => cases hmem
  | @alloc events s' h size' ih =>
    rcases List.mem_cons.1 hmem with heq | hmem
    · obtain ⟨rfl, hanswer⟩ := Event.alloc.inj heq
      exact ⟨live events, hA h hanswer.symm⟩
    · exact ih hmem
  | dealloc h hlive ih =>
    rcases List.mem_cons.1 hmem with heq | hmem
    · cases heq
    · exact ih hmem

/-- A live segment is not empty and in the memory. -/
lemma of_mem_live (hA : Lawful A s memory) (h : Run A s events s') (hlive : segment ∈ live events) :
    0 < segment.len.get ∧ segment.words ⊆ memory := by
  obtain ⟨size, hmem⟩ := mem_live_of_alloc hlive
  obtain ⟨used, hgrants⟩ := hA.grants_of_mem h hmem
  exact ⟨size.get_pos.trans_le hgrants.le_len, hgrants.words_subset⟩

/-- No word is in two live segments. -/
lemma pairwise_live (hA : Lawful A s memory) (h : Run A s events s') :
    (live events).Pairwise fun a b => Disjoint a.words b.words := by
  induction h with
  | start => exact List.Pairwise.nil
  | @alloc events s' h size ih =>
    rcases hanswer : (A.alloc size s').1 with _ | segment
    · exact ih
    · exact List.Pairwise.cons (hA h hanswer).unused ih
  | dealloc h hlive ih => exact ih.sublist List.erase_sublist

end Lawful

/-! ## Scratch space -/

/-- `Scratch`. -/
structure Scratch (σ : Type) where
  segment : Segment
  used : Bool
  next : σ

/-- `Scratch::with_segment`. -/
def Scratch.withSegment (segment : Segment) (next : σ) : Scratch σ := ⟨segment, false, next⟩

/-- `Alloc` of `Scratch`. -/
def scratch (A : Alloc σ) : Alloc (Scratch σ) where
  alloc size s :=
    if s.used = true ∨ s.segment.len.get < size.get then
      let (answer, next) := A.alloc size s.next
      (answer, { s with next := next })
    else (some s.segment, { s with used := true })
  dealloc segment s :=
    if segment ≠ s.segment then { s with next := A.dealloc segment s.next } else s

/-- The call is none that hands out the scratch space or takes it back. -/
def passedOn (space : Segment) : Event → Bool
  | .alloc _ (some segment) => segment ≠ space
  | .alloc _ none => true
  | .dealloc segment => segment ≠ space

/-- Of the calls that are passed on, what is live is all but the scratch space. -/
lemma live_filter_passedOn (space : Segment) (events : List Event) :
    live (events.filter (passedOn space)) = (live events).filter (· ≠ space) := by
  induction events with
  | nil => rfl
  | cons event events ih =>
    cases event with
    | alloc size answer =>
      cases answer with
      | none => exact ih
      | some segment =>
        by_cases h : segment = space
        · simpa [passedOn, live, h] using ih
        · simpa [passedOn, live, h] using ih
    | dealloc segment =>
      rw [live, ← List.erase_filter]
      by_cases h : segment = space
      · have hnot : segment ∉ (live events).filter (· ≠ space) := by simp [h]
        rw [List.erase_of_not_mem hnot, ← ih, List.filter_cons_of_neg (by simp [passedOn, h])]
      · rw [List.filter_cons_of_pos (by simp [passedOn, h]), live, ih]

/-- Scratch space over an allocator that knows nothing of it, after some calls. -/
structure ScratchInv (A : Alloc σ) (s : σ) (space : Segment) (events : List Event) (s' : Scratch σ) :
    Prop where
  segment_eq : s'.segment = space
  next : Run A s (events.filter (passedOn space)) s'.next
  unused : s'.used = false → space ∉ live events

section Scratch

variable {s' : Scratch σ}

/-- An allocator does not hand out what is not in its memory. -/
lemma Lawful.ne_space (hA : Lawful A s memory) (hspace : Disjoint memory space.words) {s' : σ}
    (h : Run A s events s') (halloc : (A.alloc size s').1 = some segment) : segment ≠ space := by
  rintro rfl
  have hgrants := hA h halloc
  have hdata := Segment.data_mem (size.get_pos.trans_le hgrants.le_len)
  exact Set.disjoint_left.1 hspace (hgrants.words_subset hdata) hdata

/-- What one call does to scratch space. -/
lemma Run.scratchInv (hA : Lawful A s memory) (hspace : Disjoint memory space.words)
    (h : Run (scratch A) (.withSegment space s) events s') : ScratchInv A s space events s' := by
  induction h with
  | start => exact ⟨rfl, .start, fun _ hlive => by cases hlive⟩
  | @alloc events s' h size ih =>
    by_cases hpass : s'.used = true ∨ s'.segment.len.get < size.get
    · -- the other allocator is asked
      have hcall : (scratch A).alloc size s' =
          ((A.alloc size s'.next).1, { s' with next := (A.alloc size s'.next).2 }) := if_pos hpass
      rw [hcall]
      have hne : ∀ segment, (A.alloc size s'.next).1 = some segment → segment ≠ space :=
        fun _ halloc => hA.ne_space hspace ih.next halloc
      have hnext := ih.next.alloc size
      rcases hanswer : (A.alloc size s'.next).1 with _ | segment
      · rw [hanswer] at hnext
        exact ⟨ih.segment_eq, hnext, ih.unused⟩
      · have hkept : passedOn space (.alloc size (some segment)) = true := by
          simpa [passedOn] using hne segment hanswer
        rw [hanswer] at hnext
        refine ⟨ih.segment_eq, ?_, fun hused hlive => ?_⟩
        · rw [List.filter_cons_of_pos hkept]
          exact hnext
        · rcases List.mem_cons.1 hlive with heq | hlive
          · exact hne segment hanswer heq.symm
          · exact ih.unused hused hlive
    · have hcall : (scratch A).alloc size s' = (some s'.segment, { s' with used := true }) :=
        if_neg hpass
      rw [hcall]
      have hdropped : ¬ passedOn space (.alloc size (some s'.segment)) = true := by
        simp [passedOn, ih.segment_eq]
      refine ⟨ih.segment_eq, ?_, fun hused => by cases hused⟩
      rw [List.filter_cons_of_neg hdropped]
      exact ih.next
  | @dealloc events s' h segment hlive ih =>
    by_cases hspace' : segment = space
    · have hcall : (scratch A).dealloc segment s' = s' :=
        if_neg (not_not.2 (hspace'.trans ih.segment_eq.symm))
      have hdropped : ¬ passedOn space (.dealloc segment) = true := by simp [passedOn, hspace']
      rw [hcall]
      refine ⟨ih.segment_eq, ?_, fun hused hlive => ih.unused hused (List.mem_of_mem_erase hlive)⟩
      rw [List.filter_cons_of_neg hdropped]
      exact ih.next
    · have hcall : (scratch A).dealloc segment s' = { s' with next := A.dealloc segment s'.next } :=
        if_pos (by rwa [ih.segment_eq])
      have hkept : passedOn space (.dealloc segment) = true := by simpa [passedOn] using hspace'
      have hlive' : segment ∈ live (events.filter (passedOn space)) := by
        rw [live_filter_passedOn]
        exact List.mem_filter.2 ⟨hlive, by simpa using hspace'⟩
      rw [hcall]
      refine ⟨ih.segment_eq, ?_, fun hused hlive => ih.unused hused (List.mem_of_mem_erase hlive)⟩
      rw [List.filter_cons_of_pos hkept]
      exact ih.next.dealloc hlive'

/-- Scratch space over an allocator is an allocator of the memory of both. -/
lemma Lawful.scratch (hA : Lawful A s memory) (hspace : Disjoint memory space.words) :
    Lawful (scratch A) (.withSegment space s) (memory ∪ space.words) := by
  intro events s' h size segment halloc
  have hinv := h.scratchInv hA hspace
  have hlive : ∀ other ∈ live events, other = space ∨ other ∈ live (events.filter (passedOn space)) := by
    intro other hother
    rw [live_filter_passedOn, List.mem_filter]
    by_cases heq : other = space
    · exact .inl heq
    · exact .inr ⟨hother, by simpa using heq⟩
  by_cases hpass : s'.used = true ∨ s'.segment.len.get < size.get
  · have hcall : (Allocators.scratch A).alloc size s' =
        ((A.alloc size s'.next).1, { s' with next := (A.alloc size s'.next).2 }) := if_pos hpass
    rw [hcall] at halloc
    have hgrants := hA hinv.next halloc
    refine ⟨hgrants.le_len, hgrants.words_subset.trans Set.subset_union_left, fun other hother => ?_⟩
    rcases hlive other hother with rfl | hother
    · exact hspace.mono_left hgrants.words_subset
    · exact hgrants.unused other hother
  · have hcall : (Allocators.scratch A).alloc size s' = (some s'.segment, { s' with used := true }) :=
      if_neg hpass
    rw [hcall, Option.some.injEq, hinv.segment_eq] at halloc
    obtain ⟨hused, hlen⟩ := not_or.1 hpass
    subst halloc
    rw [hinv.segment_eq] at hlen
    refine ⟨not_lt.1 hlen, Set.subset_union_right, fun other hother => ?_⟩
    rcases hlive other hother with rfl | hother
    · exact absurd hother (hinv.unused (Bool.eq_false_of_not_eq_true hused))
    · exact (hspace.mono_left (hA.of_mem_live hinv.next hother).2).symm

end Scratch

/-! ## Growing segments -/

/-- `Growing`. -/
structure Growing (σ : Type) where
  nextSegment : AllocLen
  inner : σ

/-- `cmp::max`. -/
def larger (a b : AllocLen) : AllocLen := if b.get < a.get then a else b

/-- `u32::saturating_add`. -/
def saturatingAdd (a b : ℕ) : ℕ := min (a + b) (2 ^ 32 - 1)

/-- `Alloc` of `Growing`. -/
def growing (A : Alloc σ) : Alloc (Growing σ) where
  alloc size s :=
    let allocSize := larger size s.nextSegment
    let nextSize := saturatingAdd s.nextSegment.get allocSize.get
    let (answer, inner) := A.alloc allocSize s.inner
    (answer, ⟨(AllocLen.new nextSize).getD AllocLen.max, inner⟩)
  dealloc segment s := { s with inner := A.dealloc segment s.inner }

section Growing

variable {s' : Growing σ} {first : AllocLen}

lemma get_larger (a b : AllocLen) : (larger a b).get = max a.get b.get := by
  unfold larger
  split <;> omega

/-- The sum of two lengths does not saturate. -/
lemma add_lt (a b : AllocLen) : a.get + b.get < 2 ^ 32 := by
  have ha := a.get_lt
  have hb := b.get_lt
  omega

lemma growing_alloc (s' : Growing σ) (size : AllocLen) :
    ((growing A).alloc size s').1 = (A.alloc (larger size s'.nextSegment) s'.inner).1 ∧
    ((growing A).alloc size s').2.inner = (A.alloc (larger size s'.nextSegment) s'.inner).2 := ⟨rfl, rfl⟩

/-- The next segment is as long as all so far, up to the largest length. -/
lemma get_nextSegment_growing (s' : Growing σ) (size : AllocLen) :
    ((growing A).alloc size s').2.nextSegment.get =
      min (s'.nextSegment.get + max size.get s'.nextSegment.get) AllocLen.max.get := by
  have hsum := add_lt s'.nextSegment (larger size s'.nextSegment)
  have hpos := s'.nextSegment.get_pos
  have hmax : AllocLen.max.get = 2 ^ 29 - 1 := rfl
  show ((AllocLen.new (saturatingAdd _ _)).getD AllocLen.max).get = _
  rw [saturatingAdd, Nat.min_eq_left (by omega), ← get_larger]
  by_cases hlt : s'.nextSegment.get + (larger size s'.nextSegment).get < 2 ^ 29
  · rw [AllocLen.new_of_mem (by omega) hlt, Option.getD_some]
    have hle : s'.nextSegment.get + (larger size s'.nextSegment).get ≤ AllocLen.max.get := by omega
    exact (Nat.min_eq_left hle).symm
  · rw [AllocLen.new_eq_none.2 (.inr (not_lt.1 hlt)), Option.getD_none]
    exact (Nat.min_eq_right (by omega)).symm

/-- The calls are passed on, with other sizes. -/
lemma Run.growing_inner (h : Run (growing A) ⟨first, s⟩ events s') :
    ∃ inner, Run A s inner s'.inner ∧ live inner = live events := by
  induction h with
  | start => exact ⟨[], .start, rfl⟩
  | @alloc events s' h size ih =>
    obtain ⟨inner, hrun, hlive⟩ := ih
    obtain ⟨hanswer, hinner⟩ := growing_alloc (A := A) s' size
    have hnext := hrun.alloc (larger size s'.nextSegment)
    rw [← hanswer, ← hinner] at hnext
    refine ⟨_, hnext, ?_⟩
    cases ((growing A).alloc size s').1 with
    | none => exact hlive
    | some segment => exact congrArg (List.cons segment) hlive
  | @dealloc events s' h segment hmem ih =>
    obtain ⟨inner, hrun, hlive⟩ := ih
    exact ⟨_, hrun.dealloc (hlive ▸ hmem), congrArg (·.erase segment) hlive⟩

/-- A growing allocator is an allocator of the same memory. -/
lemma Lawful.growing (hA : Lawful A s memory) (first : AllocLen) :
    Lawful (growing A) ⟨first, s⟩ memory := by
  intro events s' h size segment halloc
  obtain ⟨inner, hrun, hlive⟩ := h.growing_inner
  have hgrants := hA hrun halloc
  refine ⟨le_trans ?_ hgrants.le_len, hgrants.words_subset, hlive ▸ hgrants.unused⟩
  rw [get_larger]
  exact Nat.le_max_left _ _

end Growing

/-! ## What the layers keep -/

/-- After some calls of scratch space over an allocator that records its calls. -/
structure ScratchKeeps (A : Alloc σ) (s : σ) (space : Segment) (events : List Event)
    (s' : Scratch (List Event × σ)) : Prop where
  longEnough : ∀ size segment, .alloc size (some segment) ∈ events → size.get ≤ segment.len.get
  /-- The scratch space is in one live segment at most. -/
  handedOutOnce : (live events).Pairwise fun a b =>
    Disjoint a.words space.words ∨ Disjoint b.words space.words
  /-- The other allocator was given back only what it had handed out, and was still live. -/
  next : Run A s s'.next.1 s'.next.2
  /-- It got back just those of its segments that were given back. -/
  passedOn : ∀ segment, .dealloc segment ∈ s'.next.1 ↔
    .dealloc segment ∈ events ∧ ∃ size, .alloc size (some segment) ∈ s'.next.1
  live_next : live s'.next.1 = (live events).filter (· ≠ space)

/-- After some calls of a growing allocator. -/
structure GrowingKeeps (A : Alloc σ) (events : List Event) (s' : Growing σ) : Prop where
  longEnough : ∀ size segment, .alloc size (some segment) ∈ events → size.get ≤ segment.len.get
  /-- The other allocator answers a request at least as large. -/
  answers : ∀ size : AllocLen, ∃ allocSize : AllocLen, size.get ≤ allocSize.get ∧
    ((growing A).alloc size s').1 = (A.alloc allocSize s'.inner).1
  noOverflow : ∀ size, s'.nextSegment.get + (larger size s'.nextSegment).get < 2 ^ 32
  next_le : ∀ size, ((growing A).alloc size s').2.nextSegment.get =
    min (s'.nextSegment.get + (larger size s'.nextSegment).get) AllocLen.max.get

lemma scratchKeeps (hA : Lawful A s memory) (hspace : Disjoint memory space.words)
    {s' : Scratch (List Event × σ)}
    (h : Run (scratch A.recorded) (.withSegment space ([], s)) events s') :
    ScratchKeeps A s space events s' := by
  have hinv := h.scratchInv hA.recorded hspace
  have hlawful := hA.recorded.scratch hspace
  obtain ⟨hlog, hrun⟩ := hinv.next.of_recorded
  have hlive : live s'.next.1 = (live events).filter (· ≠ space) := by
    rw [hlog, live_filter_passedOn]
  -- a segment of the other allocator has none of the words of the scratch space
  have hother : ∀ segment ∈ live events, segment ≠ space → Disjoint segment.words space.words := by
    intro segment hmem hne
    have hmem' : segment ∈ live (events.filter (Allocators.passedOn space)) := by
      rw [live_filter_passedOn]
      exact List.mem_filter.2 ⟨hmem, by simpa using hne⟩
    exact hspace.mono_left (hA.of_mem_live hrun hmem').2
  refine ⟨fun size segment hmem => ?_, ?_, hlog ▸ hrun, fun segment => ?_, hlive⟩
  · obtain ⟨used, hgrants⟩ := hlawful.grants_of_mem h hmem
    exact hgrants.le_len
  · refine (hlawful.pairwise_live h).imp_of_mem fun ha hb hdisjoint => ?_
    rename_i a b
    by_cases heq : a = space
    · rw [← heq]
      exact .inr hdisjoint.symm
    · exact .inl (hother a ha heq)
  · rw [hlog]
    constructor
    · intro hmem
      exact ⟨(List.mem_filter.1 hmem).1, hrun.allocated_of_dealloc hmem⟩
    · rintro ⟨hmem, size, hsize⟩
      have hne : segment ≠ space := by simpa [Allocators.passedOn] using (List.mem_filter.1 hsize).2
      exact List.mem_filter.2 ⟨hmem, by simpa [Allocators.passedOn] using hne⟩

lemma growingKeeps (hA : Lawful A s memory) {first : AllocLen} {s' : Growing σ}
    (h : Run (growing A) ⟨first, s⟩ events s') : GrowingKeeps A events s' where
  longEnough size segment hmem := by
    obtain ⟨used, hgrants⟩ := (hA.growing first).grants_of_mem h hmem
    exact hgrants.le_len
  answers size := by
    refine ⟨larger size s'.nextSegment, ?_, rfl⟩
    rw [get_larger]
    exact Nat.le_max_left _ _
  noOverflow size := add_lt _ _
  next_le size := by rw [get_nextSegment_growing, get_larger]

/-- **The layers keep what their allocators promise**: scratch space is handed out once, and the
allocator behind it gets back what it handed out; growing segments are as long as was asked for,
and their lengths do not overflow. -/
theorem layers_keep {σ : Type} {A : Alloc σ} {s : σ} {memory : Set ℕ} (hA : Lawful A s memory) :
    (∀ (space : Segment) (events : List Event) (s' : Scratch (List Event × σ)),
      Disjoint memory space.words → Run (scratch A.recorded) (.withSegment space ([], s)) events s' →
      ScratchKeeps A s space events s') ∧
    (∀ (first : AllocLen) (events : List Event) (s' : Growing σ),
      Run (growing A) ⟨first, s⟩ events s' → GrowingKeeps A events s') :=
  ⟨fun _ _ _ hspace h => scratchKeeps hA hspace h, fun _ _ _ h => growingKeeps hA h⟩

/-! ## One word after the other -/

/-- An allocator that hands out the words of the memory in their order, and takes nothing back. -/
def bump : Alloc ℕ where
  alloc size next := (some ⟨next, size.toU29⟩, next + size.get)
  dealloc _ next := next

/-- All that it handed out lies between where it began and where it goes on. -/
lemma bump_live {first next : ℕ} (h : Run bump first events next) :
    first ≤ next ∧ ∀ segment ∈ live events, segment.data + segment.len.get ≤ next := by
  induction h with
  | start => exact ⟨le_rfl, fun segment hmem => by cases hmem⟩
  | @alloc events next h size ih =>
    refine ⟨ih.1.trans (Nat.le_add_right _ _), fun segment hmem => ?_⟩
    rcases List.mem_cons.1 hmem with rfl | hmem
    · exact le_rfl
    · exact (ih.2 segment hmem).trans (Nat.le_add_right _ _)
  | dealloc h hlive ih => exact ⟨ih.1, fun segment hmem => ih.2 segment (List.mem_of_mem_erase hmem)⟩

lemma lawful_bump (first : ℕ) : Lawful bump first {p | first ≤ p} := by
  intro events next h size segment halloc
  obtain ⟨hfirst, hlive⟩ := bump_live h
  cases halloc
  refine ⟨le_rfl, fun p hp => hfirst.trans hp.1, fun other hmem => Set.disjoint_left.2 ?_⟩
  intro p hp hother
  have hle := hlive other hmem
  have hlt := hother.2
  exact absurd (hlt.trans_le (hle.trans hp.1)) (lt_irrefl p)

/-- The first 16 words. -/
def space16 : Segment := ⟨0, ⟨16, U29.sixteen_lt⟩⟩

lemma disjoint_space16 : Disjoint {p | 16 ≤ p} space16.words :=
  Set.disjoint_left.2 fun _ hp hspace => absurd hspace.2 (not_lt.2 hp)

/-- The scratch space is handed out to the first request and not again, when it was given back. The
second of two growing segments is as long as the first one twice. -/
theorem layers_keep_bump :
    ScratchKeeps bump 16 space16
      [.alloc .one (some ⟨16, ⟨1, by decide⟩⟩), .dealloc space16, .alloc .one (some space16)]
      ⟨space16, true, ([.alloc .one (some ⟨16, ⟨1, by decide⟩⟩)], 17)⟩ ∧
    GrowingKeeps bump [.alloc .one (some ⟨17, ⟨2, by decide⟩⟩), .alloc .one (some ⟨16, ⟨1, by decide⟩⟩)]
      ⟨⟨4, by decide, by decide⟩, 19⟩ := by
  have hscratch : Run (scratch bump.recorded) (.withSegment space16 ([], 16)) _ _ :=
    .alloc (.dealloc (.alloc .start .one) List.mem_cons_self) .one
  have hgrowing : Run (growing bump) ⟨.one, 16⟩ _ _ := .alloc (.alloc .start .one) .one
  exact ⟨(layers_keep (lawful_bump 16)).1 space16 _ _ disjoint_space16 hscratch,
    (layers_keep (lawful_bump 16)).2 .one _ _ hgrowing⟩

end Recapn.Ptr.Allocators

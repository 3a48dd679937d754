/-
# External segments

An arena also takes segments that it did not allocate: they are read-only, and are marked deleted
when they are removed.  A segment is found by its id, which is its place: the root is 0, and the
others count from 1 on.  `insert_external_segment` leaves out the one: the id that it gives to a
segment, and returns, is that of the segment before.
-/
import Recapn.Ptr.Arena

namespace Recapn.Ptr

open Recapn.Lib Recapn.Lib.Prog

namespace ArenaSegment

/-- `ArenaSegment::external`. -/
def external (segment : Segment) (id : SegmentId) : ArenaSegment := ⟨segment, id, .readOnly⟩

/-- `ArenaSegment::delete`. -/
def delete (self : ArenaSegment) : ArenaSegment := { self with state := .deleted }

end ArenaSegment

namespace Arena

/-- `Arena::segment`. -/
def segment (arena : Arena) (id : SegmentId) : Option ArenaSegment := arena.segments[id]?

/-- `BuildArena::insert_external_segment`. -/
def insertExternalSegment (segment : Segment) : BuildM (Option SegmentId) := do
  let arena ← Prog.get
  let tailLen := arena.segments.length - 1
  if maxSegments ≤ tailLen then pure none
  else do
    let id := tailLen
    let segment := ArenaSegment.external segment id
    Prog.modify fun arena => { arena with segments := arena.segments ++ [segment] }
    pure (some id)

/-- `BuildArena::remove_external_segment`. -/
def removeExternalSegment (id : SegmentId) : BuildM Unit := do
  let arena ← Prog.get
  let segment ← Prog.unwrap (arena.segment id)
  Prog.modify fun arena => { arena with segments := arena.segments.set id segment.delete }

end Arena

/-! ## Runs -/

/-- A call on an arena with a root, and what it returned. -/
inductive ArenaEvent where
  | alloc (size : AllocLen) (place : Option SegmentRef)
  | insert (segment : Segment) (id : Option SegmentId)
  | remove (id : SegmentId)

/-- A step of a run: a call, and the arena before and after it. -/
structure ArenaStep where
  before : Arena
  event : ArenaEvent
  after : Arena

namespace ArenaStep

/-- The call of the step. -/
def Runs (step : ArenaStep) : Prop :=
  match step.event with
  | .alloc size place => Arena.alloc size step.before = .ok place step.after
  | .insert segment id => Arena.insertExternalSegment segment step.before = .ok id step.after
  | .remove id => Arena.removeExternalSegment id step.before = .ok () step.after

/-- The ids that the step hands out: that of the segment in which words were allocated, and the
one that was returned for an inserted segment. -/
def handedOut (step : ArenaStep) : List SegmentId :=
  match step.event with
  | .alloc _ (some place) => ((step.after.segment place.segment).map ArenaSegment.id).toList
  | .insert _ (some id) => [id]
  | _ => []

/-- The step does with ids what it should: an inserted segment is found under its id, under which
nothing was found before; a removal marks the segment under the id, which is external, and
leaves the others. -/
def Sound (step : ArenaStep) : Prop :=
  match step.event with
  | .alloc _ _ => True
  | .insert segment (some id) => step.before.segment id = none ∧
      ∃ s, step.after.segment id = some s ∧ s.segment = segment ∧ s.state = .readOnly
  | .insert _ none => step.after = step.before
  | .remove id => ∃ s, step.before.segment id = some s ∧ (∀ len, s.state ≠ .used len) ∧
      ∀ i, step.after.segment i = if i = id then some s.delete else step.before.segment i

/-- The step inserts a segment where there is room for one. -/
def Inserts (step : ArenaStep) : Prop :=
  ∃ segment id, step.event = .insert segment id ∧
    step.before.segments.length - 1 < Arena.maxSegments

end ArenaStep

/-- The runs on a new arena with a root.  Only what was inserted is removed. -/
inductive ArenaRun (allocator : Alloc) : List ArenaStep → Arena → Prop
  | root {arena : Arena} (hrun : Arena.allocRoot (Arena.new allocator) = .ok () arena) :
      ArenaRun allocator [] arena
  | step {steps : List ArenaStep} {step : ArenaStep} (h : ArenaRun allocator steps step.before)
      (hruns : step.Runs)
      (hremove : ∀ id, step.event = .remove id →
        ∃ earlier ∈ steps, ∃ segment, earlier.event = .insert segment (some id)) :
      ArenaRun allocator (steps ++ [step]) step.after

/-- Every id that was handed out, and the root's, finds the segment that has it, and allocations
succeed or fail normally. -/
def IdsHold (steps : List ArenaStep) (arena : Arena) : Prop :=
  (∀ id ∈ 0 :: steps.flatMap ArenaStep.handedOut, ∃ s, arena.segment id = some s ∧ s.id = id) ∧
  ∀ size, ∃ place arena', Arena.alloc size arena = .ok place arena'

variable {allocator : Alloc} {steps : List ArenaStep} {arena : Arena}

/-- Inserting a segment returns the place of the last one that was there. -/
lemma insertExternalSegment_eq (arena : Arena) (segment : Segment) :
    Arena.insertExternalSegment segment arena =
      if Arena.maxSegments ≤ arena.segments.length - 1 then .ok none arena
      else .ok (some (arena.segments.length - 1))
        { arena with
          segments := arena.segments ++
            [ArenaSegment.external segment (arena.segments.length - 1)] } := by
  unfold Arena.insertExternalSegment
  rw [bind_of_ok (get_apply arena)]
  dsimp only
  by_cases hmax : Arena.maxSegments ≤ arena.segments.length - 1
  · rw [if_pos_apply hmax, if_pos hmax]
    rfl
  · rw [if_neg_apply hmax, if_neg hmax]
    rfl

/-- The id of an inserted segment is one of a segment that was there before. -/
lemma ArenaStep.not_sound_of_inserts {step : ArenaStep} (hruns : step.Runs)
    (hpos : 0 < step.before.segments.length) (h : step.Inserts) : ¬ step.Sound := by
  obtain ⟨before, event, after⟩ := step
  obtain ⟨segment, id, rfl, hroom⟩ := h
  have hrun : Arena.insertExternalSegment segment before = .ok id after := hruns
  rw [insertExternalSegment_eq, if_neg (Nat.not_le.2 hroom)] at hrun
  cases hrun
  rintro ⟨hnone, -⟩
  have hlt : before.segments.length - 1 < before.segments.length := Nat.sub_lt hpos Nat.one_pos
  rw [Arena.segment, List.getElem?_eq_getElem hlt] at hnone
  cases hnone

/-- In a well-formed arena, the segments are found under their ids. -/
lemma Arena.Wf.segment (hwf : arena.Wf) {id : ℕ} (hid : id < arena.segments.length) :
    ∃ s, arena.segment id = some s ∧ s.id = id := by
  have hs := List.getElem?_eq_getElem hid
  exact ⟨_, hs, (hwf.owned hs).1⟩

/-- The segments of an arena stay when words are allocated. -/
lemma Arena.Allocates.length_le {arena' : Arena} {r : SegmentRef} {size : ℕ} (hwf : arena.Wf)
    (h : arena.Allocates r size arena') : arena.segments.length ≤ arena'.segments.length := by
  by_contra hlt
  have hused := hwf.used_pos (Nat.not_le.1 hlt)
  have hnone : arena'.used arena'.segments.length = 0 := by
    rw [Arena.used, List.getElem?_eq_none (Nat.le_refl _)]
  rw [h.used_eq] at hnone
  split at hnone
  · next hsegment =>
    rw [hsegment, ← h.pos_eq] at hused
    omega
  · omega

/-- Without insertions, the arena stays well-formed, and what was handed out are places in it. -/
lemma ArenaRun.wf (h : ArenaRun allocator steps arena) (hins : ∀ step ∈ steps, ¬ step.Inserts) :
    arena.Wf ∧ (∀ id ∈ 0 :: steps.flatMap ArenaStep.handedOut, id < arena.segments.length) ∧
      ∀ step ∈ steps, step.Sound ∧ ∀ segment id, step.event ≠ .insert segment (some id) := by
  induction h with
  | root hrun =>
    have hwf := (Arena.allocRoot_new_eq_ok hrun).1
    refine ⟨hwf, fun id hid => ?_, fun step hstep => absurd hstep List.not_mem_nil⟩
    rw [List.mem_singleton.1 hid]
    exact Nat.zero_lt_of_lt hwf.lastOwned_lt
  | @step steps step hrun hruns hremove ih =>
    obtain ⟨hwf, hhanded, hsound⟩ := ih fun s hs => hins s (List.mem_append_left _ hs)
    have hnot : ¬ step.Inserts := hins step (by simp)
    obtain ⟨before, event, after⟩ := step
    dsimp only at hwf hhanded hrun ⊢
    -- it is enough to look at the last step
    have hall : ∀ {last : ArenaStep}, last.Sound →
        (∀ segment id, last.event ≠ .insert segment (some id)) → ∀ s ∈ steps ++ [last],
          s.Sound ∧ ∀ segment id, s.event ≠ .insert segment (some id) := by
      intro last hlast hevent s hs
      rcases List.mem_append.1 hs with hs | hs
      · exact hsound s hs
      · rw [List.mem_singleton.1 hs]
        exact ⟨hlast, hevent⟩
    cases event with
    | alloc size place =>
      have halloc : Arena.alloc size before = .ok place after := hruns
      rcases Arena.alloc_cases hwf size with
        ⟨arena₁, hrun₁, hunchanged⟩ | ⟨r, arena₁, hrun₁, hallocates⟩
      · rw [hrun₁] at halloc
        cases halloc
        refine ⟨hunchanged.wf, fun id hid => ?_, hall trivial fun _ _ hne => nomatch hne⟩
        rw [Arena.segments_of_alloc_none hwf hrun₁]
        rw [List.flatMap_append, ← List.cons_append] at hid
        rcases List.mem_append.1 hid with hid | hid
        · exact hhanded id hid
        · cases hid
      · rw [hrun₁] at halloc
        cases halloc
        refine ⟨hallocates.wf, fun id hid => ?_, hall trivial fun _ _ hne => nomatch hne⟩
        rw [List.flatMap_append, ← List.cons_append] at hid
        rcases List.mem_append.1 hid with hid | hid
        · exact Nat.lt_of_lt_of_le (hhanded id hid) (hallocates.length_le hwf)
        · -- the segment in which the words are has its place as its id
          have hsegment : r.segment < after.segments.length := by
            apply Arena.lt_length_of_used
            rw [hallocates.used_eq, if_pos rfl]
            have hpos := size.get_pos
            omega
          obtain ⟨s, hs, hsid⟩ := hallocates.wf.segment hsegment
          simp only [List.flatMap_cons, List.flatMap_nil, List.append_nil, ArenaStep.handedOut, hs,
            Option.map_some, Option.toList_some, List.mem_singleton] at hid
          rw [hid, hsid]
          exact hsegment
    | insert segment id =>
      have hinsert : Arena.insertExternalSegment segment before = .ok id after := hruns
      by_cases hmax : Arena.maxSegments ≤ before.segments.length - 1
      · rw [insertExternalSegment_eq, if_pos hmax] at hinsert
        cases hinsert
        refine ⟨hwf, fun id hid => ?_, hall rfl fun _ _ hne => nomatch hne⟩
        rw [List.flatMap_append, ← List.cons_append] at hid
        rcases List.mem_append.1 hid with hid | hid
        · exact hhanded id hid
        · cases hid
      · exact absurd ⟨segment, id, rfl, Nat.not_le.1 hmax⟩ hnot
    | remove id =>
      -- nothing was inserted that could be removed
      obtain ⟨earlier, hmem, segment, hevent⟩ := hremove id rfl
      exact absurd hevent ((hsound earlier hmem).2 segment id)

/-- In whatever state they are, an allocation takes no segments away. -/
lemma keeps_length_alloc (size : AllocLen) :
    Prog.Keeps (fun arena arena' : Arena => arena.segments.length ≤ arena'.segments.length)
      (Arena.alloc size) := by
  have hrefl : ∀ arena : Arena, arena.segments.length ≤ arena.segments.length :=
    fun arena => Nat.le_refl _
  have htrans : ∀ arena₁ arena₂ arena₃ : Arena, arena₁.segments.length ≤ arena₂.segments.length →
      arena₂.segments.length ≤ arena₃.segments.length →
      arena₁.segments.length ≤ arena₃.segments.length := fun _ _ _ => Nat.le_trans
  refine keeps_bind htrans hrefl fun arena => keeps_bind htrans ?_ fun offset => ?_
  · -- a segment is set
    intro arena₁
    unfold Arena.onSegment
    rcases arena₁.segments[arena.lastOwned]? with _ | s
    · trivial
    · dsimp only
      rcases ArenaSegment.tryUseLen size s with ⟨a, s'⟩ | ⟨e, s'⟩ | r
      · exact Nat.le_of_eq List.length_set.symm
      · exact Nat.le_of_eq List.length_set.symm
      · trivial
  · rcases offset with _ | offset
    · refine keeps_ite (keeps_pure hrefl none) ?_
      refine keeps_bind htrans (fun arena₁ => Nat.le_refl _) fun segment => ?_
      rcases segment with _ | segment
      · exact keeps_pure hrefl none
      · refine keeps_bind htrans (fun arena₁ => ?_) fun _ => keeps_pure hrefl _
        show arena₁.segments.length ≤ (arena₁.segments ++ [segment]).length
        rw [List.length_append]
        exact Nat.le_add_right _ _
    · exact keeps_pure hrefl _

/-- The first segment of an arena in a run is the root. -/
lemma ArenaRun.length_pos (h : ArenaRun allocator steps arena) : 0 < arena.segments.length := by
  induction h with
  | root hrun => exact Nat.zero_lt_of_lt (Arena.allocRoot_new_eq_ok hrun).1.lastOwned_lt
  | @step steps step hrun hruns hremove ih =>
    obtain ⟨before, event, after⟩ := step
    dsimp only at ih ⊢
    cases event with
    | alloc size place => exact Nat.lt_of_lt_of_le ih ((keeps_length_alloc size).ok hruns)
    | insert segment id =>
      have hinsert : Arena.insertExternalSegment segment before = .ok id after := hruns
      rw [insertExternalSegment_eq] at hinsert
      split at hinsert
      · cases hinsert
        exact ih
      · cases hinsert
        rw [List.length_append]
        exact Nat.lt_add_right _ ih
    | remove id =>
      have hremoved : Arena.removeExternalSegment id before = .ok () after := hruns
      have hrest := of_bind rfl hremoved
      obtain ⟨s, _, hunwrap, hmodify⟩ := bind_eq_ok.1 hrest
      obtain ⟨-, rfl⟩ := unwrap_eq_ok.1 hunwrap
      cases hmodify
      rw [List.length_set]
      exact ih

/-- **Segment ids are stable without external segments.**  In a run, every step is sound and every
id that was handed out finds its segment exactly if no segment was inserted where there was room
for one. -/
theorem ids_stable_iff (h : ArenaRun allocator steps arena) :
    (∀ step ∈ steps, step.Sound) ∧ IdsHold steps arena ↔ ∀ step ∈ steps, ¬ step.Inserts := by
  constructor
  · rintro ⟨hsound, -⟩
    -- the first insertion is already wrong
    induction h with
    | root hrun => exact fun step hstep => absurd hstep List.not_mem_nil
    | @step steps step hrun hruns hremove ih =>
      intro s hs
      rcases List.mem_append.1 hs with hs | hs
      · exact ih (fun s hs => hsound s (List.mem_append_left _ hs)) s hs
      · rw [List.mem_singleton.1 hs]
        intro hins
        exact ArenaStep.not_sound_of_inserts hruns hrun.length_pos hins (hsound step (by simp))
  · intro hins
    obtain ⟨hwf, hhanded, hsound⟩ := h.wf hins
    refine ⟨fun step hstep => (hsound step hstep).1, fun id hid => hwf.segment (hhanded id hid), ?_⟩
    intro size
    rcases Arena.alloc_cases hwf size with ⟨arena', hrun, -⟩ | ⟨r, arena', hrun, -⟩
    · exact ⟨none, arena', hrun⟩
    · exact ⟨some r, arena', hrun⟩

/-- A new arena with a root. -/
def rootedArena : Arena :=
  ⟨.global, [AllocLen.one], [⟨⟨fun _ => Word.null, AllocLen.one.toU29⟩, 0, .used AllocLen.one⟩], 0⟩

/-- A word is allocated in a new segment. -/
def allocStep : ArenaStep :=
  ⟨rootedArena, .alloc AllocLen.one (some ⟨1, 0⟩),
    ⟨.global, [AllocLen.one, AllocLen.one],
      rootedArena.segments ++ [⟨⟨fun _ => Word.null, AllocLen.one.toU29⟩, 1, .used AllocLen.one⟩], 1⟩⟩

theorem ids_stable_iff_alloc : allocStep.handedOut = [1] ∧ IdsHold [allocStep] allocStep.after := by
  have hroot : ArenaRun .global [] rootedArena := .root rfl
  have hrun : ArenaRun .global [allocStep] allocStep.after :=
    @ArenaRun.step _ [] allocStep hroot rfl fun _ h => nomatch h
  refine ⟨rfl, ((ids_stable_iff hrun).2 fun step hstep => ?_).2⟩
  rintro ⟨segment, id, hevent, -⟩
  rw [List.mem_singleton.1 hstep] at hevent
  cases hevent

/-- A null word that comes from elsewhere. -/
def externalWord : Segment := ⟨fun _ => Word.null, AllocLen.one.toU29⟩

/-- The word is inserted. -/
def insertStep : ArenaStep :=
  ⟨rootedArena, .insert externalWord (some 0),
    { rootedArena with segments := rootedArena.segments ++ [ArenaSegment.external externalWord 0] }⟩

/-- And removed under the id that was returned. -/
def removeStep : ArenaStep :=
  ⟨insertStep.after, .remove 0,
    { insertStep.after with
      segments := insertStep.after.segments.set 0
        ⟨⟨fun _ => Word.null, AllocLen.one.toU29⟩, 0, .deleted⟩ }⟩

/-- An inserted segment gets the id of the root.  When it is removed the root is deleted in its
place, and no allocation returns any more. -/
theorem not_ids_stable :
    ArenaRun .global [insertStep, removeStep] removeStep.after ∧ ¬ insertStep.Sound ∧
      ¬ IdsHold [insertStep, removeStep] removeStep.after ∧
      (removeStep.after.segment 0).map ArenaSegment.state = some .deleted ∧
      (removeStep.after.segment 1).map ArenaSegment.state = some .readOnly ∧
      ∀ size, Arena.alloc size removeStep.after = .halt .panic := by
  have hroot : ArenaRun .global [] rootedArena := .root rfl
  have hinsert : ArenaRun .global [insertStep] insertStep.after :=
    @ArenaRun.step _ [] insertStep hroot rfl fun _ h => nomatch h
  have hremove : ArenaRun .global [insertStep, removeStep] removeStep.after := by
    refine @ArenaRun.step _ [insertStep] removeStep hinsert rfl fun id h => ?_
    cases h
    exact ⟨insertStep, List.mem_singleton_self _, externalWord, rfl⟩
  refine ⟨hremove, ?_, ?_, rfl, rfl, fun size => rfl⟩
  · rintro ⟨hnone, -⟩
    cases hnone
  · rintro ⟨-, hallocs⟩
    obtain ⟨place, arena', halloc⟩ := hallocs AllocLen.one
    cases halloc

end Recapn.Ptr

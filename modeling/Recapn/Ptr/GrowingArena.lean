/-
# What an arena gives back

A growing arena owns the segments that it got from its allocator, and gives them back when it is
cleared or dropped.  External segments stand in the same list, and nothing tells them apart there
but their state, which `clear_inner` does not look at: it gives them to the allocator too.

The memory of a segment is known here by where it came from.  What the allocator was asked, what
it answered and what it was given back is its history, on which its answers may depend.
-/
import Mathlib.Data.List.Induction
import Recapn.Ptr.External

namespace Recapn.Ptr.Growing

open Recapn.Lib Recapn.Lib.Prog

/-! ## The allocator -/

/-- Where memory came from: from the allocator's event of that number, or from elsewhere. -/
inductive Origin where
  | allocated (event : ℕ)
  | external
deriving DecidableEq, Repr

/-- The pointer and the length of a `Segment`. -/
structure Block where
  origin : Origin
  len : SegmentLen
deriving DecidableEq, Repr

/-- A call of the allocator, with the length of the segment that was returned, if any. -/
inductive AllocEvent where
  | alloc (size : AllocLen) (len : Option SegmentLen)
  | dealloc (block : Block)
deriving DecidableEq, Repr

/-- `Alloc`: what the allocator answers to a request after the calls before, the last one first.
A segment that it returns is as long as was asked for. -/
structure Alloc where
  alloc : List AllocEvent → AllocLen → Option SegmentLen
  le_alloc : ∀ {history size len}, alloc history size = some len → size.get ≤ len.get

/-- `Alloc` of `Global`. -/
def Alloc.global : Alloc where
  alloc _ size := some size.toU29
  le_alloc h := by
    cases h
    exact Nat.le_refl _

/-- The segments that were obtained from the allocator. -/
def obtained : List AllocEvent → List Block
  | [] => []
  | .alloc _ (some len) :: history => ⟨.allocated history.length, len⟩ :: obtained history
  | _ :: history => obtained history

/-- The segments that were passed to `dealloc`. -/
def deallocated : List AllocEvent → List Block
  | [] => []
  | .dealloc block :: history => block :: deallocated history
  | _ :: history => deallocated history

/-! ## The arena -/

/-- An `ArenaSegment` with the origin of its memory. -/
structure Held where
  segment : ArenaSegment
  origin : Origin

/-- `ArenaSegment::segment`, as the memory that is passed to `dealloc`. -/
def Held.block (self : Held) : Block := ⟨self.origin, self.segment.segment.len⟩

/-- `growing::Arena`, with the history of its allocator. -/
structure Arena where
  allocator : Alloc
  history : List AllocEvent
  first : Option Held
  tail : List Held
  lastOwned : SegmentId

/-- Why a call panicked. -/
inductive Panic where
  | expect
  | unwrap
  | unreachable
deriving DecidableEq, Repr

/-- The calls on an arena.  One that panics leaves the arena as it then was. -/
abbrev ArenaM := Prog Panic Arena

namespace Arena

/-- `Arena::new`, on an allocator with a history. -/
def new (allocator : Alloc) (history : List AllocEvent) : Arena := ⟨allocator, history, none, [], 0⟩

/-- `Arena::segment`. -/
def segment (arena : Arena) (id : SegmentId) : Option Held :=
  if id = 0 then arena.first else arena.tail[id - 1]?

/-- Replace the segment with the id. -/
def setSegment (arena : Arena) (id : SegmentId) (held : Held) : Arena :=
  if id = 0 then { arena with first := some held }
  else { arena with tail := arena.tail.set (id - 1) held }

/-- The private `Arena::alloc`: ask the allocator for a segment, which is zeroed. -/
def allocNew (minSize : AllocLen) (id : SegmentId) : ArenaM (Option Held) := fun arena =>
  let len := arena.allocator.alloc arena.history minSize
  .ok (len.map fun len =>
      ⟨⟨⟨fun _ => Word.null, len⟩, id, .used minSize⟩, .allocated arena.history.length⟩)
    { arena with history := .alloc minSize len :: arena.history }

/-- `Arena::alloc_root`. -/
def allocRoot : ArenaM Held := do
  let arena ← Prog.get
  match arena.first with
  | some first => pure first
  | none => do
    let first ← allocNew AllocLen.one 0
    let first ← Prog.okOr .expect first
    Prog.modify fun arena => { arena with first := some first }
    pure first

/-- `ArenaSegment::try_use_len` on the segment with the id. -/
def tryUseLen (id : SegmentId) (len : AllocLen) : ArenaM (Option SegmentOffset) := do
  let arena ← Prog.get
  let held ← Prog.okOr .unwrap (arena.segment id)
  match ArenaSegment.tryUseLen len held.segment with
  | .ok offset segment => do
    Prog.modify fun arena => arena.setSegment id { held with segment := segment }
    pure offset
  | _ => Prog.throw .unreachable

/-- `BuildArena::alloc`, which returns the offset and the id of the segment. -/
def alloc (minSize : AllocLen) : ArenaM (Option (SegmentOffset × SegmentId)) := do
  let arena ← Prog.get
  let lastOwned := arena.lastOwned
  let offset ← tryUseLen lastOwned minSize
  match offset with
  | some offset => pure (some (offset, lastOwned))
  | none =>
    let tailLen := arena.tail.length
    if Ptr.Arena.maxSegments ≤ tailLen then pure none
    else do
      let id := tailLen + 1
      let segment ← allocNew minSize id
      match segment with
      | none => pure none
      | some segment => do
        Prog.modify fun arena =>
          { arena with tail := arena.tail ++ [segment], lastOwned := id }
        pure (some (U29.zero, id))

/-- `BuildArena::insert_external_segment`. -/
def insertExternalSegment (segment : Segment) : ArenaM (Option SegmentId) := do
  let arena ← Prog.get
  let tailLen := arena.tail.length
  if Ptr.Arena.maxSegments ≤ tailLen then pure none
  else do
    let id := tailLen
    let held : Held := ⟨ArenaSegment.external segment id, .external⟩
    Prog.modify fun arena => { arena with tail := arena.tail ++ [held] }
    pure (some id)

/-- `BuildArena::remove_external_segment`. -/
def removeExternalSegment (id : SegmentId) : ArenaM Unit := do
  let arena ← Prog.get
  let held ← Prog.okOr .expect (arena.segment id)
  Prog.modify fun arena => arena.setSegment id { held with segment := held.segment.delete }

/-- The segments of the arena, the first one first. -/
def held (arena : Arena) : List Held := arena.first.toList ++ arena.tail

/-- `Alloc::dealloc`. -/
def dealloc (block : Block) : ArenaM Unit :=
  Prog.modify fun arena => { arena with history := .dealloc block :: arena.history }

/-- `Alloc::dealloc` for each segment. -/
def deallocAll : List Held → ArenaM Unit
  | [] => pure ()
  | held :: rest => do
    dealloc held.block
    deallocAll rest

/-- `Arena::clear_inner`. -/
def clear : ArenaM Unit := do
  let arena ← Prog.get
  Prog.modify fun arena => { arena with lastOwned := 0, first := none, tail := [] }
  deallocAll arena.held

end Arena

/-! ## Runs -/

/-- A call on an arena. -/
inductive Call where
  | allocRoot
  | alloc (size : AllocLen)
  | insert (segment : Segment)
  | remove (id : SegmentId)
  | clear

/-- The program of a call. -/
def Call.prog : Call → ArenaM Unit
  | .allocRoot => Arena.allocRoot >>= fun _ => pure ()
  | .alloc size => Arena.alloc size >>= fun _ => pure ()
  | .insert segment => Arena.insertExternalSegment segment >>= fun _ => pure ()
  | .remove id => Arena.removeExternalSegment id
  | .clear => Arena.clear

/-- The arena after a call, whether it returned or panicked. -/
def Call.exec (call : Call) (arena : Arena) : Arena :=
  match call.prog arena with
  | .ok _ arena' => arena'
  | .error _ arena' => arena'
  | .halt _ => arena

/-- The arena after some calls on a new one. -/
def run (allocator : Alloc) (calls : List Call) : Arena :=
  calls.foldl (fun arena call => call.exec arena) (Arena.new allocator [])

/-- The history of the allocator when the arena was dropped after the calls: `Arena::drop` clears
it. -/
def dropped (allocator : Alloc) (calls : List Call) : List AllocEvent :=
  (Call.clear.exec (run allocator calls)).history

/-! ## What should hold -/

/-- Every segment that was given back had been obtained before, and was given back for the first
time. -/
def Sound : List AllocEvent → Prop
  | [] => True
  | .dealloc block :: history =>
    block ∈ obtained history ∧ block ∉ deallocated history ∧ Sound history
  | .alloc _ _ :: history => Sound history

/-- Every segment that was obtained was given back exactly once, and nothing else was. -/
def GivenBack (history : List AllocEvent) : Prop :=
  Sound history ∧ ∀ block ∈ obtained history, block ∈ deallocated history

/-- The arena is as a new one on its allocator: it has no root, and the root that it gets is a null
word with the id 0, after which the ids count from 1. -/
def Arena.LikeNew (arena : Arena) : Prop :=
  arena = Arena.new arena.allocator arena.history ∧ arena.segment 0 = none ∧
  ∀ root arena', Arena.allocRoot arena = .ok root arena' →
    root.segment.id = 0 ∧ root.segment.state = .used AllocLen.one ∧
    (∀ pos, root.segment.segment.data pos = Word.null) ∧
    ∀ size offset id arena'', Arena.alloc size arena' = .ok (some (offset, id)) arena'' →
      id = 0 ∨ id = 1 ∧ offset = U29.zero

/-- Somewhere in the calls a segment is inserted while the arena has room for it. -/
def Inserts (allocator : Alloc) (calls : List Call) : Prop :=
  ∃ earlier segment later, calls = earlier ++ .insert segment :: later ∧
    (run allocator earlier).tail.length < Ptr.Arena.maxSegments

/-! ## What a call does -/

namespace Arena

/-- The memory of the segments of the arena. -/
def blocks (arena : Arena) : List Block := arena.held.map Held.block

/-- Replacing a segment by one in the same memory. -/
lemma blocks_setSegment {arena : Arena} {id : SegmentId} {held held' : Held}
    (hsegment : arena.segment id = some held) (hblock : held'.block = held.block) :
    (arena.setSegment id held').blocks = arena.blocks := by
  unfold segment at hsegment
  unfold setSegment blocks Arena.held
  by_cases hid : id = 0
  · rw [if_pos hid] at hsegment ⊢
    rw [hsegment]
    show held'.block :: _ = held.block :: _
    rw [hblock]
  · rw [if_neg hid] at hsegment ⊢
    rw [List.map_append, List.map_append, List.map_set, hblock]
    obtain ⟨hlt, hget⟩ := List.getElem?_eq_some_iff.1 hsegment
    subst hget
    congr 1
    apply List.ext_getElem?
    intro i
    rw [List.getElem?_set]
    by_cases hi : id - 1 = i
    · subst hi
      rw [if_pos rfl, List.length_map, if_pos hlt, List.getElem?_map, List.getElem?_eq_getElem hlt]
      rfl
    · rw [if_neg hi]

/-- The arena after its segments were given back. -/
lemma deallocAll_apply (held : List Held) (arena : Arena) :
    deallocAll held arena = .ok ()
      { arena with history := (held.map fun h => AllocEvent.dealloc h.block).reverse ++ arena.history } := by
  induction held generalizing arena with
  | nil => rfl
  | cons h held ih =>
    show (dealloc h.block >>= fun _ => deallocAll held) arena = _
    rw [bind_of_ok (rfl : dealloc h.block arena = .ok () _), ih]
    simp

/-- Clearing gives all segments back and leaves a new arena. -/
lemma clear_apply (arena : Arena) :
    clear arena = .ok () (new arena.allocator
      ((arena.blocks.map AllocEvent.dealloc).reverse ++ arena.history)) := by
  show deallocAll arena.held { arena with lastOwned := 0, first := none, tail := [] } = _
  rw [deallocAll_apply, blocks, List.map_map]
  rfl

end Arena

/-- What a call does to the memory of an arena and to the history of its allocator. -/
inductive Effect (arena : Arena) : Call → Arena → Prop
  /-- Nothing, also when the allocator refused. -/
  | keeps {call : Call} {arena' : Arena} (hblocks : arena'.blocks = arena.blocks)
      (hhistory : arena'.history = arena.history ∨
        ∃ size, arena'.history = .alloc size none :: arena.history)
      (hcall : ∀ segment, call = .insert segment → Ptr.Arena.maxSegments ≤ arena.tail.length) :
      Effect arena call arena'
  /-- A segment is obtained. -/
  | obtains {call : Call} {arena' : Arena} (size : AllocLen) (len : SegmentLen)
      (hblocks : arena'.blocks.Perm (⟨.allocated arena.history.length, len⟩ :: arena.blocks))
      (hhistory : arena'.history = .alloc size (some len) :: arena.history)
      (hcall : ∀ segment, call ≠ .insert segment) : Effect arena call arena'
  /-- A segment is inserted. -/
  | inserts {arena' : Arena} (segment : Segment)
      (hroom : arena.tail.length < Ptr.Arena.maxSegments)
      (hblocks : arena'.blocks = arena.blocks ++ [⟨.external, segment.len⟩])
      (hhistory : arena'.history = arena.history) : Effect arena (.insert segment) arena'
  /-- All segments are given back. -/
  | clears : Effect arena .clear (Arena.new arena.allocator
      ((arena.blocks.map AllocEvent.dealloc).reverse ++ arena.history))

namespace Call

lemma exec_of_ok {call : Call} {arena arena' : Arena} (h : call.prog arena = .ok () arena') :
    call.exec arena = arena' := by
  rw [exec, h]

lemma exec_of_error {call : Call} {arena arena' : Arena} {e : Panic}
    (h : call.prog arena = .error e arena') : call.exec arena = arena' := by
  rw [exec, h]

end Call

section Effects

variable {arena : Arena}

/-- Using words of a segment leaves its memory. -/
lemma segment_of_tryUseLen {len : AllocLen} {self self' : ArenaSegment}
    {offset : Option SegmentOffset} (h : ArenaSegment.tryUseLen len self = .ok offset self') :
    self'.segment = self.segment := by
  unfold ArenaSegment.tryUseLen at h
  rw [bind_of_ok (get_apply self)] at h
  rcases hstate : self.state with used | _ | _
  · rw [hstate] at h
    rcases ite_eq_ok.1 h with ⟨-, h⟩ | ⟨-, h⟩
    · cases h
      rfl
    · obtain ⟨used, _, hused, h⟩ := bind_eq_ok.1 h
      obtain ⟨-, rfl⟩ := unwrap_eq_ok.1 hused
      cases h
      rfl
  · rw [hstate] at h
    cases h
  · rw [hstate] at h
    cases h

/-- Using words of a segment of the arena, or a panic. -/
lemma tryUseLen_cases (id : SegmentId) (len : AllocLen) (arena : Arena) :
    (∃ offset arena', Arena.tryUseLen id len arena = .ok offset arena' ∧
      arena'.blocks = arena.blocks ∧ arena'.history = arena.history ∧
      arena'.tail.length = arena.tail.length) ∨
    ∃ e, Arena.tryUseLen id len arena = .error e arena := by
  unfold Arena.tryUseLen
  rw [bind_of_ok (get_apply arena)]
  rcases hsegment : arena.segment id with _ | held
  · exact Or.inr ⟨.unwrap, rfl⟩
  · rw [okOr_some, pure_bind_eq]
    rcases hrun : ArenaSegment.tryUseLen len held.segment with ⟨offset, segment⟩ | ⟨e, segment⟩ | r
    · left
      refine ⟨offset, arena.setSegment id { held with segment := segment }, rfl, ?_, ?_, ?_⟩
      · apply Arena.blocks_setSegment hsegment
        show (⟨held.origin, segment.segment.len⟩ : Block) = ⟨held.origin, _⟩
        rw [segment_of_tryUseLen hrun]
      · unfold Arena.setSegment
        split <;> rfl
      · unfold Arena.setSegment
        split
        · rfl
        · exact List.length_set
    · exact Or.inr ⟨.unreachable, rfl⟩
    · exact Or.inr ⟨.unreachable, rfl⟩

lemma effect_allocRoot (arena : Arena) : Effect arena .allocRoot (Call.allocRoot.exec arena) := by
  rcases hfirst : arena.first with _ | first
  · rcases hlen : arena.allocator.alloc arena.history AllocLen.one with _ | len
    · -- the allocator refuses, and the call panics
      have hrun : Call.allocRoot.prog arena
          = .error .expect { arena with history := .alloc AllocLen.one none :: arena.history } := by
        simp [Call.prog, Arena.allocRoot, Arena.allocNew, bind_apply, hfirst, hlen]
      rw [Call.exec_of_error hrun]
      exact .keeps rfl (Or.inr ⟨_, rfl⟩) fun _ h => nomatch h
    · have hrun : Call.allocRoot.prog arena = .ok ()
          { arena with
            first := some ⟨⟨⟨fun _ => Word.null, len⟩, 0, .used AllocLen.one⟩,
              .allocated arena.history.length⟩
            history := .alloc AllocLen.one (some len) :: arena.history } := by
        simp [Call.prog, Arena.allocRoot, Arena.allocNew, bind_apply, hfirst, hlen]
      rw [Call.exec_of_ok hrun]
      refine .obtains AllocLen.one len ?_ rfl fun _ h => nomatch h
      unfold Arena.blocks Arena.held
      rw [hfirst]
      exact List.Perm.refl _
  · have hrun : Call.allocRoot.prog arena = .ok () arena := by
      simp [Call.prog, Arena.allocRoot, bind_apply, hfirst]
    rw [Call.exec_of_ok hrun]
    exact .keeps rfl (Or.inl rfl) fun _ h => nomatch h

lemma effect_alloc (size : AllocLen) (arena : Arena) :
    Effect arena (.alloc size) ((Call.alloc size).exec arena) := by
  have hcall : ∀ segment, Call.alloc size ≠ .insert segment := fun _ h => nomatch h
  rcases tryUseLen_cases arena.lastOwned size arena with
    ⟨offset, arena₁, hrun, hblocks, hhistory, hlength⟩ | ⟨e, hrun⟩
  · rcases offset with _ | offset
    · -- the last owned segment is full, and another one is asked for
      by_cases hmax : Ptr.Arena.maxSegments ≤ arena.tail.length
      · have hprog : (Call.alloc size).prog arena = .ok () arena₁ := by
          simp [Call.prog, Arena.alloc, bind_apply, hrun, hmax]
        rw [Call.exec_of_ok hprog]
        exact .keeps hblocks (Or.inl hhistory) fun _ h => nomatch h
      · rcases hlen : arena₁.allocator.alloc arena₁.history size with _ | len
        · have hprog : (Call.alloc size).prog arena
              = .ok () { arena₁ with history := .alloc size none :: arena₁.history } := by
            simp [Call.prog, Arena.alloc, Arena.allocNew, bind_apply, hrun, hmax, hlen]
          rw [Call.exec_of_ok hprog]
          refine .keeps hblocks (Or.inr ⟨size, ?_⟩) fun _ h => nomatch h
          rw [hhistory]
        · have hprog : (Call.alloc size).prog arena = .ok ()
              { arena₁ with
                history := .alloc size (some len) :: arena₁.history
                tail := arena₁.tail ++ [⟨⟨⟨fun _ => Word.null, len⟩, arena.tail.length + 1,
                  .used size⟩, .allocated arena₁.history.length⟩]
                lastOwned := arena.tail.length + 1 } := by
            simp [Call.prog, Arena.alloc, Arena.allocNew, bind_apply, hrun, hmax, hlen]
          rw [Call.exec_of_ok hprog]
          refine .obtains size len ?_ (by rw [hhistory]) fun _ h => nomatch h
          rw [← hblocks, ← hhistory]
          unfold Arena.blocks Arena.held
          rw [← List.append_assoc, List.map_append]
          exact List.perm_append_singleton _ _
    · have hprog : (Call.alloc size).prog arena = .ok () arena₁ := by
        simp [Call.prog, Arena.alloc, bind_apply, hrun]
      rw [Call.exec_of_ok hprog]
      exact .keeps hblocks (Or.inl hhistory) fun _ h => nomatch h
  · have hprog : (Call.alloc size).prog arena = .error e arena := by
      simp [Call.prog, Arena.alloc, bind_apply, hrun]
    rw [Call.exec_of_error hprog]
    exact .keeps rfl (Or.inl rfl) fun _ h => nomatch h

lemma effect_insert (segment : Segment) (arena : Arena) :
    Effect arena (.insert segment) ((Call.insert segment).exec arena) := by
  by_cases hmax : Ptr.Arena.maxSegments ≤ arena.tail.length
  · have hprog : (Call.insert segment).prog arena = .ok () arena := by
      simp [Call.prog, Arena.insertExternalSegment, bind_apply, hmax]
    rw [Call.exec_of_ok hprog]
    exact .keeps rfl (Or.inl rfl) fun _ _ => hmax
  · have hprog : (Call.insert segment).prog arena = .ok () { arena with
        tail := arena.tail ++ [⟨ArenaSegment.external segment arena.tail.length, .external⟩] } := by
      simp [Call.prog, Arena.insertExternalSegment, bind_apply, hmax]
    rw [Call.exec_of_ok hprog]
    refine .inserts segment (Nat.not_le.1 hmax) ?_ rfl
    unfold Arena.blocks Arena.held
    rw [← List.append_assoc, List.map_append]
    rfl

lemma effect_remove (id : SegmentId) (arena : Arena) :
    Effect arena (.remove id) ((Call.remove id).exec arena) := by
  rcases hsegment : arena.segment id with _ | held
  · have hprog : (Call.remove id).prog arena = .error .expect arena := by
      simp [Call.prog, Arena.removeExternalSegment, bind_apply, hsegment]
    rw [Call.exec_of_error hprog]
    exact .keeps rfl (Or.inl rfl) fun _ h => nomatch h
  · have hprog : (Call.remove id).prog arena
        = .ok () (arena.setSegment id { held with segment := held.segment.delete }) := by
      simp [Call.prog, Arena.removeExternalSegment, bind_apply, hsegment]
    rw [Call.exec_of_ok hprog]
    refine .keeps (Arena.blocks_setSegment hsegment rfl) (Or.inl ?_) fun _ h => nomatch h
    unfold Arena.setSegment
    split <;> rfl

lemma exec_clear (arena : Arena) : Call.clear.exec arena = Arena.new arena.allocator
    ((arena.blocks.map AllocEvent.dealloc).reverse ++ arena.history) :=
  Call.exec_of_ok (Arena.clear_apply arena)

/-- Each call does one of these things. -/
lemma effect_exec (call : Call) (arena : Arena) : Effect arena call (call.exec arena) := by
  cases call with
  | allocRoot => exact effect_allocRoot arena
  | alloc size => exact effect_alloc size arena
  | insert segment => exact effect_insert segment arena
  | remove id => exact effect_remove id arena
  | clear =>
    rw [exec_clear]
    exact .clears

end Effects

/-! ## The memory of an arena in a run -/

section Owns

variable {arena arena' : Arena} {call : Call}

/-- The arena has just the segments that were obtained and not given back. -/
structure Owns (arena : Arena) : Prop where
  sound : Sound arena.history
  nodup : arena.blocks.Nodup
  obtained : ∀ block ∈ arena.blocks, block ∈ obtained arena.history
  not_deallocated : ∀ block ∈ arena.blocks, block ∉ deallocated arena.history
  complete : ∀ block ∈ Growing.obtained arena.history,
    block ∈ deallocated arena.history ∨ block ∈ arena.blocks

/-- The event of an obtained segment is one of the history. -/
lemma lt_of_mem_obtained {history : List AllocEvent} {block : Block}
    (h : block ∈ obtained history) : ∃ n < history.length, block.origin = .allocated n := by
  induction history with
  | nil => cases h
  | cons event history ih =>
    have hlift : block ∈ obtained history →
        ∃ n < (event :: history).length, block.origin = .allocated n := fun h => by
      obtain ⟨n, hn, horigin⟩ := ih h
      exact ⟨n, Nat.lt_succ_of_lt hn, horigin⟩
    rcases event with ⟨size, _ | len⟩ | b
    · exact hlift h
    · rcases List.mem_cons.1 h with rfl | h
      · exact ⟨history.length, Nat.lt_succ_self _, rfl⟩
      · exact hlift h
    · exact hlift h

/-- What was given back had been obtained. -/
lemma Sound.mem_obtained {history : List AllocEvent} (h : Sound history) {block : Block}
    (hblock : block ∈ deallocated history) : block ∈ obtained history := by
  induction history with
  | nil => cases hblock
  | cons event history ih =>
    rcases event with ⟨size, _ | len⟩ | b
    · exact ih h hblock
    · exact List.mem_cons_of_mem _ (ih h hblock)
    · rcases List.mem_cons.1 hblock with rfl | hblock
      · exact h.1
      · exact ih h.2.2 hblock

/-- Giving back segments, each for the first time. -/
lemma Sound.dealloc {history : List AllocEvent} (h : Sound history) {blocks : List Block}
    (hnodup : blocks.Nodup) (hobtained : ∀ block ∈ blocks, block ∈ obtained history)
    (hnot : ∀ block ∈ blocks, block ∉ deallocated history) :
    Sound ((blocks.map AllocEvent.dealloc).reverse ++ history) := by
  induction blocks generalizing history with
  | nil => exact h
  | cons block blocks ih =>
    obtain ⟨hhead, htail⟩ := List.nodup_cons.1 hnodup
    rw [List.map_cons, List.reverse_cons, List.append_assoc]
    refine ih ⟨hobtained _ (by simp), hnot _ (by simp), h⟩ htail
      (fun b hb => hobtained b (List.mem_cons_of_mem _ hb)) fun b hb hmem => ?_
    rcases List.mem_cons.1 hmem with rfl | hmem
    · exact hhead hb
    · exact hnot b (List.mem_cons_of_mem _ hb) hmem

lemma obtained_dealloc (blocks : List Block) (history : List AllocEvent) :
    obtained ((blocks.map AllocEvent.dealloc).reverse ++ history) = obtained history := by
  induction blocks generalizing history with
  | nil => rfl
  | cons block blocks ih =>
    rw [List.map_cons, List.reverse_cons, List.append_assoc, ih]
    rfl

lemma mem_deallocated_dealloc {blocks : List Block} {history : List AllocEvent} {block : Block} :
    block ∈ deallocated ((blocks.map AllocEvent.dealloc).reverse ++ history) ↔
      block ∈ blocks ∨ block ∈ deallocated history := by
  induction blocks generalizing history with
  | nil => simp
  | cons b blocks ih =>
    rw [List.map_cons, List.reverse_cons, List.append_assoc, ih, List.mem_cons]
    show _ ∨ block ∈ b :: deallocated history ↔ _
    rw [List.mem_cons, or_left_comm, or_assoc]

lemma owns_new (allocator : Alloc) : Owns (Arena.new allocator []) :=
  ⟨trivial, List.nodup_nil, fun _ h => (nomatch h), fun _ h => (nomatch h), fun _ h => (nomatch h)⟩

/-- A call that inserts no segment keeps that. -/
lemma Owns.effect (h : Owns arena) (heffect : Effect arena call arena')
    (hcall : ∀ segment, call = .insert segment → Ptr.Arena.maxSegments ≤ arena.tail.length) :
    Owns arena' := by
  cases heffect with
  | keeps hblocks hhistory _ =>
    have hobtained : Growing.obtained arena'.history = Growing.obtained arena.history := by
      rcases hhistory with hhistory | ⟨size, hhistory⟩
      · rw [hhistory]
      · rw [hhistory]
        rfl
    have hdeallocated : deallocated arena'.history = deallocated arena.history := by
      rcases hhistory with hhistory | ⟨size, hhistory⟩
      · rw [hhistory]
      · rw [hhistory]
        rfl
    have hsound : Sound arena'.history := by
      rcases hhistory with hhistory | ⟨size, hhistory⟩ <;> (rw [hhistory]; exact h.sound)
    refine ⟨hsound, ?_, ?_, ?_, ?_⟩ <;> rw [hblocks]
    · exact h.nodup
    · rw [hobtained]
      exact h.obtained
    · rw [hdeallocated]
      exact h.not_deallocated
    · rw [hobtained, hdeallocated]
      exact h.complete
  | obtains size len hblocks hhistory _ =>
    -- the event is a new one
    have hfresh : ∀ block ∈ Growing.obtained arena.history,
        block ≠ ⟨.allocated arena.history.length, len⟩ := by
      rintro block hblock rfl
      obtain ⟨n, hn, horigin⟩ := lt_of_mem_obtained hblock
      cases horigin
      exact Nat.lt_irrefl _ hn
    refine ⟨?_, ?_, ?_, ?_, ?_⟩
    · rw [hhistory]
      exact h.sound
    · rw [hblocks.nodup_iff, List.nodup_cons]
      exact ⟨fun hmem => hfresh _ (h.obtained _ hmem) rfl, h.nodup⟩
    · intro block hblock
      rw [hhistory]
      rcases List.mem_cons.1 (hblocks.mem_iff.1 hblock) with rfl | hblock
      · exact List.mem_cons_self
      · exact List.mem_cons_of_mem _ (h.obtained block hblock)
    · intro block hblock
      rw [hhistory]
      rcases List.mem_cons.1 (hblocks.mem_iff.1 hblock) with rfl | hblock
      · exact fun hmem => hfresh _ (h.sound.mem_obtained hmem) rfl
      · exact h.not_deallocated block hblock
    · intro block hblock
      rw [hhistory] at hblock ⊢
      rw [hblocks.mem_iff]
      rcases List.mem_cons.1 hblock with rfl | hblock
      · exact Or.inr List.mem_cons_self
      · exact (h.complete block hblock).imp_right (List.mem_cons_of_mem _)
  | inserts segment hroom _ _ => exact absurd (hcall segment rfl) (Nat.not_le.2 hroom)
  | clears =>
    refine ⟨h.sound.dealloc h.nodup h.obtained h.not_deallocated, List.nodup_nil,
      fun _ h => (nomatch h), fun _ h => (nomatch h), fun block hblock => ?_⟩
    refine Or.inl (mem_deallocated_dealloc.2 ?_)
    change block ∈ Growing.obtained (_ ++ arena.history) at hblock
    rw [obtained_dealloc] at hblock
    exact (h.complete block hblock).symm

/-- What an arena has or gave back it has or gave back after a call. -/
lemma kept_of_effect (heffect : Effect arena call arena') {block : Block}
    (h : block ∈ arena.blocks ∨ block ∈ deallocated arena.history) :
    block ∈ arena'.blocks ∨ block ∈ deallocated arena'.history := by
  cases heffect with
  | keeps hblocks hhistory _ =>
    rw [hblocks]
    rcases hhistory with hhistory | ⟨size, hhistory⟩ <;> rw [hhistory] <;> exact h
  | obtains size len hblocks hhistory _ =>
    rw [hhistory, hblocks.mem_iff]
    exact h.imp_left (List.mem_cons_of_mem _)
  | inserts segment _ hblocks hhistory =>
    rw [hblocks, hhistory]
    exact h.imp_left (List.mem_append_left _)
  | clears => exact Or.inr (mem_deallocated_dealloc.2 h)

end Owns

section Run

variable {allocator : Alloc} {calls : List Call}

lemma run_concat (allocator : Alloc) (calls : List Call) (call : Call) :
    run allocator (calls ++ [call]) = call.exec (run allocator calls) := by
  rw [run, List.foldl_append]
  rfl

/-- Calls that insert no segment do so from the start on. -/
lemma not_inserts_of_concat {call : Call} (h : ¬ Inserts allocator (calls ++ [call])) :
    ¬ Inserts allocator calls ∧ ∀ segment, call = .insert segment →
      Ptr.Arena.maxSegments ≤ (run allocator calls).tail.length := by
  constructor
  · rintro ⟨earlier, segment, later, rfl, hroom⟩
    exact h ⟨earlier, segment, later ++ [call], by simp, hroom⟩
  · rintro segment rfl
    by_contra hroom
    exact h ⟨calls, segment, [], rfl, Nat.not_le.1 hroom⟩

/-- Without insertions, the arena has what was obtained and not given back. -/
lemma owns_run (h : ¬ Inserts allocator calls) : Owns (run allocator calls) := by
  induction calls using List.reverseRecOn with
  | nil => exact owns_new allocator
  | append_singleton calls call ih =>
    obtain ⟨hcalls, hcall⟩ := not_inserts_of_concat h
    rw [run_concat]
    exact (ih hcalls).effect (effect_exec call _) hcall

/-- What an arena has or gave back it has or gave back after more calls. -/
lemma kept_of_run {earlier : List Call} (later : List Call) {block : Block}
    (h : block ∈ (run allocator earlier).blocks ∨
      block ∈ deallocated (run allocator earlier).history) :
    block ∈ (run allocator (earlier ++ later)).blocks ∨
      block ∈ deallocated (run allocator (earlier ++ later)).history := by
  induction later using List.reverseRecOn with
  | nil =>
    rw [List.append_nil]
    exact h
  | append_singleton later call ih =>
    rw [← List.append_assoc, run_concat]
    exact kept_of_effect (effect_exec call _) ih

/-- When the arena is dropped, what it had is given back. -/
lemma mem_deallocated_dropped {block : Block} (h : block ∈ (run allocator calls).blocks ∨
    block ∈ deallocated (run allocator calls).history) :
    block ∈ deallocated (dropped allocator calls) := by
  rw [dropped, exec_clear]
  exact mem_deallocated_dealloc.2 h

/-- An arena that was cleared is as a new one. -/
lemma likeNew_clear (arena : Arena) : (Call.clear.exec arena).LikeNew := by
  rw [exec_clear]
  refine ⟨rfl, rfl, fun root arena' hrun => ?_⟩
  unfold Arena.allocRoot at hrun
  rw [bind_of_ok (get_apply _)] at hrun
  obtain ⟨first, arena₁, hnew, hrest⟩ := bind_eq_ok.1 hrun
  obtain ⟨held, arena₂, hexpect, hrest⟩ := bind_eq_ok.1 hrest
  cases hnew
  obtain ⟨hheld, rfl⟩ := okOr_eq_ok.1 hexpect
  obtain ⟨len, -, rfl⟩ := Option.map_eq_some_iff.1 hheld
  cases hrest
  refine ⟨rfl, rfl, fun _ => rfl, fun size offset id arena'' halloc => ?_⟩
  unfold Arena.alloc at halloc
  rw [bind_of_ok (get_apply _)] at halloc
  obtain ⟨o, arena₃, huse, hrest⟩ := bind_eq_ok.1 halloc
  rcases o with _ | o
  · right
    rcases ite_eq_ok.1 hrest with ⟨-, hrest⟩ | ⟨-, hrest⟩
    · cases hrest
    · obtain ⟨segment, arena₄, hnew, hrest⟩ := bind_eq_ok.1 hrest
      rcases segment with _ | segment
      · cases hrest
      · cases hrest
        exact ⟨rfl, rfl⟩
  · cases hrest
    exact Or.inl rfl

/-- **Segments are given back exactly once**, and nothing else is, when an arena is dropped after
any calls, and a cleared arena is as a new one: if and only if no external segment was inserted
while the arena had room for it. -/
theorem gives_back_iff (allocator : Alloc) (calls : List Call) :
    (GivenBack (dropped allocator calls) ∧ ∀ earlier later, calls = earlier ++ .clear :: later →
      (run allocator (earlier ++ [.clear])).LikeNew) ↔ ¬ Inserts allocator calls := by
  constructor
  · rintro ⟨⟨hsound, -⟩, -⟩ ⟨earlier, segment, later, rfl, hroom⟩
    -- the inserted segment is given back, and was never obtained
    have hinserted : (⟨.external, segment.len⟩ : Block)
        ∈ (run allocator (earlier ++ [.insert segment])).blocks := by
      rw [run_concat]
      cases effect_exec (.insert segment) (run allocator earlier) with
      | keeps _ _ hcall => exact absurd (hcall segment rfl) (Nat.not_le.2 hroom)
      | obtains _ _ _ _ hcall => exact absurd rfl (hcall segment)
      | inserts _ _ hblocks _ =>
        rw [hblocks]
        exact List.mem_append_right _ (List.mem_singleton_self _)
    have hkept := mem_deallocated_dropped (kept_of_run later (Or.inl hinserted))
    rw [List.append_assoc] at hkept
    obtain ⟨n, -, horigin⟩ := lt_of_mem_obtained (hsound.mem_obtained hkept)
    cases horigin
  · intro h
    refine ⟨?_, fun earlier later _ => ?_⟩
    · have howns : Owns (Call.clear.exec (run allocator calls)) :=
        (owns_run h).effect (effect_exec .clear _) fun _ h => nomatch h
      refine ⟨howns.sound, fun block hblock => (howns.complete block hblock).resolve_right ?_⟩
      rw [exec_clear]
      exact fun h => nomatch h
    · rw [run_concat]
      exact likeNew_clear _

/-- One word that was not obtained from the allocator is inserted, and the arena is dropped. -/
theorem not_gives_back :
    dropped .global [.allocRoot, .insert externalWord]
      = [.dealloc ⟨.external, AllocLen.one.toU29⟩, .dealloc ⟨.allocated 0, AllocLen.one.toU29⟩,
        .alloc AllocLen.one (some AllocLen.one.toU29)] ∧
    ¬ GivenBack (dropped .global [.allocRoot, .insert externalWord]) := by
  have hdropped : dropped .global [.allocRoot, .insert externalWord]
      = [.dealloc ⟨.external, AllocLen.one.toU29⟩, .dealloc ⟨.allocated 0, AllocLen.one.toU29⟩,
        .alloc AllocLen.one (some AllocLen.one.toU29)] := rfl
  refine ⟨hdropped, fun h => ?_⟩
  rw [hdropped] at h
  obtain ⟨⟨hobtained, -⟩, -⟩ := h
  have hnot : (⟨.external, AllocLen.one.toU29⟩ : Block) ∉ obtained
      [.dealloc ⟨.allocated 0, AllocLen.one.toU29⟩,
        .alloc AllocLen.one (some AllocLen.one.toU29)] := by decide
  exact hnot hobtained

end Run

end Recapn.Ptr.Growing

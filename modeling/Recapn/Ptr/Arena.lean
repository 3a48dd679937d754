/-
# Arenas that grow

A message that is built lives in an arena of segments.  A segment is used from its start on, and
what is not used of it yet is null.  An allocation takes the next words of a segment, or a new
segment from the allocator of the arena.  The state of the programs here is the arena; a program
that leaves the memory of a segment halts, since what it does then is undefined.
-/
import Recapn.Ptr.Reader

namespace Recapn.Ptr

open Recapn.Lib Recapn.Lib.Prog

/-! ## Segments of an arena -/

/-- `SegmentRef`: a place in a segment of the arena. -/
@[ext] structure SegmentRef where
  segment : ℕ
  pos : ℕ
deriving DecidableEq, Repr

/-- `SegmentState`. -/
inductive SegmentState where
  | used (len : AllocLen)
  | readOnly
  | deleted
deriving DecidableEq, Repr

/-- `ArenaSegment`. -/
structure ArenaSegment where
  segment : Segment
  id : SegmentId
  state : SegmentState

namespace ArenaSegment

/-- `ArenaSegment::used_len`. -/
def usedLen (self : ArenaSegment) : SegmentOffset :=
  match self.state with
  | .used len => len.toU29
  | .readOnly => self.segment.len
  | .deleted => U29.zero

/-- `ArenaSegment::used_segment`. -/
def usedSegment (self : ArenaSegment) : Segment := ⟨self.segment.data, self.usedLen⟩

/-- `ArenaSegment::try_use_len`. -/
def tryUseLen (len : AllocLen) : Prog Error ArenaSegment (Option SegmentOffset) := do
  let self ← Prog.get
  match self.state with
  | .used oldUsed =>
    let newUsed := oldUsed.get + len.get
    if self.segment.len.get < newUsed then pure none
    else do
      let used ← Prog.unwrap (AllocLen.new newUsed)
      Prog.modify fun self => { self with state := .used used }
      pure (some oldUsed.toU29)
  | _ => Prog.halt .panic

end ArenaSegment

/-- `Alloc`: what the allocator answers to a request, after the requests before.  A segment that
it returns is null and is as long as was asked for. -/
structure Alloc where
  alloc : List AllocLen → AllocLen → Option SegmentLen
  le_alloc : ∀ {requests size len}, alloc requests size = some len → size.get ≤ len.get

/-- `Alloc` of `Never`. -/
def Alloc.never : Alloc := ⟨fun _ _ => none, fun h => nomatch h⟩

/-- `Alloc` of `Global`, which returns just what was asked for. -/
def Alloc.global : Alloc where
  alloc _ size := some size.toU29
  le_alloc h := by
    cases h
    exact Nat.le_refl _

/-- `Arena`.  The first segment and the others are one list here: a segment's id is its place. -/
structure Arena where
  allocator : Alloc
  /-- The requests to the allocator so far, the last one first. -/
  requests : List AllocLen
  segments : List ArenaSegment
  lastOwned : SegmentId

/-- Programs that build. -/
abbrev BuildM := Prog Error Arena

namespace Arena

/-! ## Words and lengths -/

/-- The word at a place. -/
def word (arena : Arena) (r : SegmentRef) : Word :=
  match arena.segments[r.segment]? with
  | some s => s.segment.data r.pos
  | none => Word.null

/-- How much of a segment is used. -/
def used (arena : Arena) (i : ℕ) : ℕ :=
  match arena.segments[i]? with
  | some s => s.usedLen.get
  | none => 0

/-- The length of a segment. -/
def len (arena : Arena) (i : ℕ) : ℕ :=
  match arena.segments[i]? with
  | some s => s.segment.len.get
  | none => 0

/-- Write words to the `len` places from `start` on. -/
def write (arena : Arena) (start : SegmentRef) (len : ℕ) (words : ℕ → Word) : Arena :=
  { arena with
    segments := arena.segments.modify start.segment fun s =>
      { s with
        segment :=
          { s.segment with
            data := fun pos =>
              if start.pos ≤ pos ∧ pos < start.pos + len then words (pos - start.pos)
              else s.segment.data pos } } }

/-- The arena as a `ReadArena`, which sees what is used of the segments. -/
def toRead (arena : Arena) : ReadArena := fun id => (arena.segments[id]?).map (·.usedSegment)

/-! ## Allocation -/

/-- `Arena::new`. -/
def new (allocator : Alloc) : Arena := ⟨allocator, [], [], 0⟩

/-- `Arena::MAX_SEGMENTS`. -/
def maxSegments : ℕ := 2 ^ 32 - 2

/-- Run a program on a segment of the arena. -/
def onSegment {α : Type} (i : ℕ) (x : Prog Error ArenaSegment α) : BuildM α := fun arena =>
  match arena.segments[i]? with
  | none => .halt .panic
  | some s =>
    match x s with
    | .ok a s => .ok a { arena with segments := arena.segments.set i s }
    | .error e s => .error e { arena with segments := arena.segments.set i s }
    | .halt h => .halt h

/-- `Arena::alloc`: ask the allocator for a segment. -/
def allocNew (minSize : AllocLen) (id : SegmentId) : BuildM (Option ArenaSegment) := fun arena =>
  .ok ((arena.allocator.alloc arena.requests minSize).map fun len =>
      ⟨⟨fun _ => Word.null, len⟩, id, .used minSize⟩)
    { arena with requests := minSize :: arena.requests }

/-- `Arena::alloc_root`. -/
def allocRoot : BuildM Unit := do
  let arena ← Prog.get
  match arena.segments with
  | [] => do
    let first ← allocNew AllocLen.one 0
    let first ← Prog.unwrap first
    Prog.modify fun arena => { arena with segments := [first] }
  | _ :: _ => pure ()

/-- `BuildArena::alloc`. -/
def alloc (minSize : AllocLen) : BuildM (Option SegmentRef) := do
  let arena ← Prog.get
  let lastOwned := arena.lastOwned
  let offset ← onSegment lastOwned (ArenaSegment.tryUseLen minSize)
  match offset with
  | some offset => pure (some ⟨lastOwned, offset.get⟩)
  | none =>
    let tailLen := arena.segments.length - 1
    if maxSegments ≤ tailLen then pure none
    else do
      let id := tailLen + 1
      let segment ← allocNew minSize id
      match segment with
      | none => pure none
      | some segment => do
        Prog.modify fun arena =>
          { arena with segments := arena.segments ++ [segment], lastOwned := id }
        pure (some ⟨id, 0⟩)

/-! ## Reading and writing words -/

/-- Read the word at a place. -/
def read {ε : Type} (r : SegmentRef) : Prog ε Arena Word := fun arena =>
  if r.pos < arena.len r.segment then .ok (arena.word r) arena else .halt .undefined

/-- Write words to the `len` places from `start` on. -/
def writeSection {ε : Type} (start : SegmentRef) (len : ℕ) (words : ℕ → Word) :
    Prog ε Arena Unit := fun arena =>
  if start.pos + len ≤ arena.len start.segment then .ok () (arena.write start len words)
  else .halt .undefined

/-! ## The arena after a write -/

section Write

variable (arena : Arena) (start : SegmentRef) (len : ℕ) (words : ℕ → Word)

@[simp] lemma length_write : (arena.write start len words).segments.length = arena.segments.length := by
  simp [write]

lemma getElem?_write (i : ℕ) :
    (arena.write start len words).segments[i]? = arena.segments[i]?.map fun s =>
      if start.segment = i then
        { s with
          segment :=
            { s.segment with
              data := fun pos =>
                if start.pos ≤ pos ∧ pos < start.pos + len then words (pos - start.pos)
                else s.segment.data pos } }
      else s := by
  show (arena.segments.modify start.segment _)[i]? = _
  rw [List.getElem?_modify]
  rfl

@[simp] lemma used_write (i : ℕ) : (arena.write start len words).used i = arena.used i := by
  unfold used
  rw [getElem?_write]
  rcases arena.segments[i]? with _ | s
  · rfl
  · by_cases hi : start.segment = i
    · simp only [Option.map_some, if_pos hi]
      rfl
    · simp only [Option.map_some, if_neg hi]

@[simp] lemma len_write (i : ℕ) : (arena.write start len words).len i = arena.len i := by
  unfold Arena.len
  rw [getElem?_write]
  rcases arena.segments[i]? with _ | s
  · rfl
  · by_cases hi : start.segment = i
    · simp only [Option.map_some, if_pos hi]
    · simp only [Option.map_some, if_neg hi]

/-- A word that is not written stays. -/
lemma word_write_of_not_mem {r : SegmentRef}
    (h : ¬ (r.segment = start.segment ∧ start.pos ≤ r.pos ∧ r.pos < start.pos + len)) :
    (arena.write start len words).word r = arena.word r := by
  unfold word
  rw [getElem?_write]
  rcases arena.segments[r.segment]? with _ | s
  · rfl
  · by_cases hi : start.segment = r.segment
    · have hpos : ¬ (start.pos ≤ r.pos ∧ r.pos < start.pos + len) := fun hpos => h ⟨hi.symm, hpos⟩
      simp only [Option.map_some, if_pos hi, if_neg hpos]
    · simp only [Option.map_some, if_neg hi]

/-- A word that is written. -/
lemma word_write_of_mem {r : SegmentRef} (hlt : start.segment < arena.segments.length)
    (hsegment : r.segment = start.segment) (hle : start.pos ≤ r.pos)
    (hpos : r.pos < start.pos + len) :
    (arena.write start len words).word r = words (r.pos - start.pos) := by
  unfold word
  rw [getElem?_write, hsegment, List.getElem?_eq_getElem hlt]
  simp only [Option.map_some, if_true, if_pos (And.intro hle hpos)]

end Write

/-! ## Well-formed arenas -/

/-- The arena has the segments that it allocated itself, each under its place as its id, and
beyond what is used of them they are null. -/
structure Wf (arena : Arena) : Prop where
  owned : ∀ {i : ℕ} {s : ArenaSegment}, arena.segments[i]? = some s →
    s.id = i ∧ ∃ len, s.state = .used len ∧ len.get ≤ s.segment.len.get
  clean : ∀ r : SegmentRef, arena.used r.segment ≤ r.pos → arena.word r = Word.null
  lastOwned_lt : arena.lastOwned < arena.segments.length
  length_le : arena.segments.length ≤ 2 ^ 32 - 1

section Wf

variable {arena : Arena}

lemma lt_length_of_used {i : ℕ} (h : 0 < arena.used i) : i < arena.segments.length := by
  by_contra hi
  rw [used, List.getElem?_eq_none (Nat.not_lt.1 hi)] at h
  exact Nat.lt_irrefl 0 h

lemma Wf.used_eq (hwf : arena.Wf) {i : ℕ} {s : ArenaSegment} (hs : arena.segments[i]? = some s) :
    ∃ len, s.state = .used len ∧ arena.used i = len.get ∧ len.get ≤ s.segment.len.get := by
  obtain ⟨-, len, hstate, hle⟩ := hwf.owned hs
  refine ⟨len, hstate, ?_, hle⟩
  rw [used, hs]
  show s.usedLen.get = len.get
  rw [ArenaSegment.usedLen, hstate]
  rfl

lemma Wf.used_pos (hwf : arena.Wf) {i : ℕ} (hi : i < arena.segments.length) : 0 < arena.used i := by
  obtain ⟨len, -, hused, -⟩ := hwf.used_eq (List.getElem?_eq_getElem hi)
  rw [hused]
  exact len.get_pos

lemma Wf.used_le_len (hwf : arena.Wf) (i : ℕ) : arena.used i ≤ arena.len i := by
  rcases hs : arena.segments[i]? with _ | s
  · rw [used, hs]
    exact Nat.zero_le _
  · obtain ⟨len, -, hused, hle⟩ := hwf.used_eq hs
    rw [hused, Arena.len, hs]
    exact hle

lemma len_lt (arena : Arena) (i : ℕ) : arena.len i < 2 ^ 29 := by
  rw [Arena.len]
  rcases arena.segments[i]? with _ | s
  · exact Nat.two_pow_pos 29
  · exact s.segment.len.get_lt

lemma Wf.used_lt (hwf : arena.Wf) (i : ℕ) : arena.used i < 2 ^ 29 :=
  Nat.lt_of_le_of_lt (hwf.used_le_len i) (arena.len_lt i)

/-- Readers see the used words of the segments. -/
lemma toRead_eq_some {i : ℕ} (hi : i < arena.segments.length) :
    ∃ segment, arena.toRead i = some segment ∧ segment.len.get = arena.used i ∧
      ∀ pos, segment.data pos = arena.word ⟨i, pos⟩ := by
  have hs := List.getElem?_eq_getElem hi
  refine ⟨arena.segments[i].usedSegment, ?_, ?_, fun pos => ?_⟩
  · rw [toRead, hs]
    rfl
  · rw [used, hs]
    rfl
  · rw [word]
    show _ = match arena.segments[i]? with | some s => s.segment.data pos | none => Word.null
    rw [hs]
    rfl

lemma lt_length_of_toRead {i : ℕ} {segment : Segment} (h : arena.toRead i = some segment) :
    i < arena.segments.length := by
  by_contra hi
  rw [toRead, List.getElem?_eq_none (Nat.not_lt.1 hi)] at h
  cases h

/-- Writing to the used words keeps an arena well-formed. -/
lemma Wf.write (hwf : arena.Wf) {start : SegmentRef} {len : ℕ}
    (hlen : start.pos + len ≤ arena.used start.segment) (words : ℕ → Word) :
    (arena.write start len words).Wf where
  owned {i s} hs := by
    rw [getElem?_write] at hs
    obtain ⟨s₀, hs₀, rfl⟩ := Option.map_eq_some_iff.1 hs
    obtain ⟨hid, len', hstate, hle⟩ := hwf.owned hs₀
    by_cases hi : start.segment = i
    · rw [if_pos hi]
      exact ⟨hid, len', hstate, hle⟩
    · rw [if_neg hi]
      exact ⟨hid, len', hstate, hle⟩
  clean r hr := by
    rw [used_write] at hr
    rw [word_write_of_not_mem, hwf.clean r hr]
    rintro ⟨hsegment, -, hlt⟩
    rw [hsegment] at hr
    omega
  lastOwned_lt := by
    rw [length_write]
    exact hwf.lastOwned_lt
  length_le := by
    rw [length_write]
    exact hwf.length_le

lemma Wf.set (hwf : arena.Wf) {p : SegmentRef} (hp : p.pos < arena.used p.segment) (v : Word) :
    (arena.write p 1 fun _ => v).Wf :=
  hwf.write hp _

end Wf

/-! ## What an allocation does -/

/-- The words from `r` on were allocated: the words of the arena are what they were, and so many
more of its segment are used. -/
structure Allocates (arena : Arena) (r : SegmentRef) (size : ℕ) (arena' : Arena) : Prop where
  wf : arena'.Wf
  word_eq : arena'.word = arena.word
  pos_eq : r.pos = arena.used r.segment
  used_eq : ∀ i, arena'.used i = if i = r.segment then r.pos + size else arena.used i

lemma Allocates.pos_lt {arena arena' : Arena} {r : SegmentRef} {size : ℕ}
    (h : arena.Allocates r size arena') (hwf : arena.Wf) : r.pos < 2 ^ 29 :=
  h.pos_eq ▸ hwf.used_lt _

lemma Allocates.lt_used {arena arena' : Arena} {r : SegmentRef} {size : ℕ}
    (h : arena.Allocates r size arena') (hsize : 0 < size) : r.pos < arena'.used r.segment := by
  rw [h.used_eq, if_pos rfl]
  exact Nat.lt_add_of_pos_right hsize

/-- Nothing was allocated. -/
structure Unchanged (arena arena' : Arena) : Prop where
  wf : arena'.Wf
  word_eq : arena'.word = arena.word
  used_eq : arena'.used = arena.used

lemma Unchanged.refl {arena : Arena} (hwf : arena.Wf) : Unchanged arena arena := ⟨hwf, rfl, rfl⟩

section Alloc

variable {arena arena' : Arena}

/-- Using more of a segment that has the room allocates. -/
lemma allocates_set (hwf : arena.Wf) {i size : ℕ} {s : ArenaSegment}
    (hs : arena.segments[i]? = some s) {used len : AllocLen} (hused : arena.used i = used.get)
    (hlen : len.get = used.get + size) (hroom : len.get ≤ s.segment.len.get) :
    Allocates arena ⟨i, used.get⟩ size
      { arena with segments := arena.segments.set i { s with state := .used len } } := by
  have hilt : i < arena.segments.length := (List.getElem?_eq_some_iff.1 hs).1
  have hget : ∀ j, (arena.segments.set i { s with state := .used len })[j]?
      = if i = j then some { s with state := .used len } else arena.segments[j]? := by
    intro j
    rw [List.getElem?_set]
    by_cases hij : i = j
    · rw [if_pos hij, if_pos hij, if_pos hilt]
    · rw [if_neg hij, if_neg hij]
  have hword : ∀ r, word ⟨arena.allocator, arena.requests,
      arena.segments.set i { s with state := .used len }, arena.lastOwned⟩ r = arena.word r := by
    intro r
    unfold word
    dsimp only
    rw [hget]
    by_cases hij : i = r.segment
    · rw [if_pos hij, ← hij, hs]
    · rw [if_neg hij]
  have husedEq : ∀ j, Arena.used ⟨arena.allocator, arena.requests,
      arena.segments.set i { s with state := .used len }, arena.lastOwned⟩ j
      = if j = i then used.get + size else arena.used j := by
    intro j
    unfold Arena.used
    dsimp only
    rw [hget]
    by_cases hij : i = j
    · rw [if_pos hij, if_pos hij.symm]
      exact hlen
    · rw [if_neg hij, if_neg (Ne.symm hij)]
  refine ⟨⟨?_, ?_, ?_, ?_⟩, funext hword, hused.symm, husedEq⟩
  · intro j t ht
    dsimp only at ht
    rw [hget] at ht
    by_cases hij : i = j
    · rw [if_pos hij, Option.some.injEq] at ht
      subst ht
      exact ⟨hij ▸ (hwf.owned hs).1, len, rfl, hroom⟩
    · rw [if_neg hij] at ht
      exact hwf.owned ht
  · intro r hr
    rw [husedEq] at hr
    rw [hword]
    apply hwf.clean
    by_cases hi : r.segment = i
    · rw [if_pos hi] at hr
      rw [hi]
      omega
    · rw [if_neg hi] at hr
      exact hr
  · show arena.lastOwned < (arena.segments.set i _).length
    rw [List.length_set]
    exact hwf.lastOwned_lt
  · show (arena.segments.set i _).length ≤ _
    rw [List.length_set]
    exact hwf.length_le

/-- Using the next words of a segment, if it has them. -/
lemma onSegment_tryUseLen (hwf : arena.Wf) {i : ℕ} (hi : i < arena.segments.length)
    (size : AllocLen) :
    (arena.len i < arena.used i + size.get ∧
      onSegment i (ArenaSegment.tryUseLen size) arena = .ok none arena) ∨
    (arena.used i + size.get ≤ arena.len i ∧ ∃ (o : SegmentOffset) (arena' : Arena),
      onSegment i (ArenaSegment.tryUseLen size) arena = .ok (some o) arena' ∧
      Allocates arena ⟨i, o.get⟩ size.get arena') := by
  have hs := List.getElem?_eq_getElem hi
  obtain ⟨used, hstate, hused, hle⟩ := hwf.used_eq hs
  have hlen : arena.len i = arena.segments[i].segment.len.get := by
    rw [Arena.len, hs]
  by_cases hroom : arena.segments[i].segment.len.get < used.get + size.get
  · have hrun : ArenaSegment.tryUseLen size arena.segments[i] = .ok none arena.segments[i] := by
      simp [ArenaSegment.tryUseLen, bind_apply, hstate, hroom]
    left
    refine ⟨by omega, ?_⟩
    simp only [onSegment, hs, hrun, List.set_getElem_self]
  · have hlt := arena.segments[i].segment.len.get_lt
    have hpos := used.get_pos
    have hnew := AllocLen.new_of_mem (n := used.get + size.get) (by omega) (by omega)
    have hrun : ArenaSegment.tryUseLen size arena.segments[i] = .ok (some used.toU29)
        { arena.segments[i] with state := .used ⟨used.get + size.get, by omega, by omega⟩ } := by
      simp [ArenaSegment.tryUseLen, bind_apply, hstate, hroom, hnew]
    right
    have hallocates := @allocates_set _ hwf _ size.get _ hs _
      ⟨used.get + size.get, by omega, by omega⟩ hused rfl (Nat.not_lt.1 hroom)
    refine ⟨by omega, used.toU29, _, ?_, hallocates⟩
    simp only [onSegment, hs, hrun]

/-- A new segment at the end of an arena allocates. -/
lemma allocates_append (hwf : arena.Wf) (requests : List AllocLen) {size : AllocLen}
    {len : SegmentLen} (hlen : size.get ≤ len.get) (hmax : arena.segments.length < 2 ^ 32 - 1) :
    Allocates arena ⟨arena.segments.length, 0⟩ size.get
      ⟨arena.allocator, requests,
        arena.segments ++ [⟨⟨fun _ => Word.null, len⟩, arena.segments.length, .used size⟩],
        arena.segments.length⟩ := by
  have hget : ∀ j, (arena.segments ++
      [⟨⟨fun _ => Word.null, len⟩, arena.segments.length, .used size⟩])[j]?
      = if j = arena.segments.length then
          some ⟨⟨fun _ => Word.null, len⟩, arena.segments.length, .used size⟩
        else arena.segments[j]? := by
    intro j
    rw [List.getElem?_append]
    by_cases hj : j < arena.segments.length
    · rw [if_pos hj, if_neg (Nat.ne_of_lt hj)]
    · rw [if_neg hj]
      by_cases heq : j = arena.segments.length
      · rw [if_pos heq, heq, Nat.sub_self]
        rfl
      · rw [if_neg heq, List.getElem?_eq_none, List.getElem?_eq_none]
        · omega
        · show 1 ≤ _
          omega
  have hnone : arena.segments[arena.segments.length]? = none := List.getElem?_eq_none (Nat.le_refl _)
  have hword : ∀ r, word ⟨arena.allocator, requests,
      arena.segments ++ [⟨⟨fun _ => Word.null, len⟩, arena.segments.length, .used size⟩],
      arena.segments.length⟩ r = arena.word r := by
    intro r
    unfold word
    dsimp only
    rw [hget]
    by_cases hr : r.segment = arena.segments.length
    · rw [if_pos hr, hr, hnone]
    · rw [if_neg hr]
  have hused : ∀ j, Arena.used ⟨arena.allocator, requests,
      arena.segments ++ [⟨⟨fun _ => Word.null, len⟩, arena.segments.length, .used size⟩],
      arena.segments.length⟩ j
      = if j = arena.segments.length then 0 + size.get else arena.used j := by
    intro j
    unfold Arena.used
    dsimp only
    rw [hget]
    by_cases hj : j = arena.segments.length
    · rw [if_pos hj, if_pos hj, Nat.zero_add]
      rfl
    · rw [if_neg hj, if_neg hj]
  have husedNone : arena.used arena.segments.length = 0 := by
    rw [Arena.used, hnone]
  refine ⟨⟨?_, ?_, ?_, ?_⟩, funext hword, husedNone.symm, hused⟩
  · intro j t ht
    dsimp only at ht
    rw [hget] at ht
    by_cases hj : j = arena.segments.length
    · rw [if_pos hj, Option.some.injEq] at ht
      subst ht
      exact ⟨hj.symm, size, rfl, hlen⟩
    · rw [if_neg hj] at ht
      exact hwf.owned ht
  · intro r hr
    rw [hused] at hr
    rw [hword]
    by_cases hi : r.segment = arena.segments.length
    · rw [word, hi, hnone]
    · rw [if_neg hi] at hr
      exact hwf.clean r hr
  · show arena.segments.length < (arena.segments ++ _).length
    rw [List.length_append]
    exact Nat.lt_succ_self _
  · show (arena.segments ++ _).length ≤ _
    rw [List.length_append]
    show arena.segments.length + 1 ≤ _
    omega

/-- Asking the allocator does not change the words of the arena. -/
lemma unchanged_requests (hwf : arena.Wf) (requests : List AllocLen) :
    Unchanged arena { arena with requests := requests } :=
  ⟨⟨hwf.owned, hwf.clean, hwf.lastOwned_lt, hwf.length_le⟩, rfl, rfl⟩

/-- An arena allocates, or leaves everything as it is. -/
lemma alloc_cases (hwf : arena.Wf) (size : AllocLen) :
    (∃ arena', alloc size arena = .ok none arena' ∧ Unchanged arena arena') ∨
      ∃ r arena', alloc size arena = .ok (some r) arena' ∧ Allocates arena r size.get arena' := by
  unfold alloc
  rw [bind_of_ok (get_apply arena)]
  dsimp only
  rcases onSegment_tryUseLen hwf hwf.lastOwned_lt size with
    ⟨-, hrun⟩ | ⟨-, o, arena', hrun, hallocates⟩
  · rw [bind_of_ok hrun]
    by_cases hmax : maxSegments ≤ arena.segments.length - 1
    · left
      refine ⟨arena, ?_, .refl hwf⟩
      show (if maxSegments ≤ _ then _ else _ : BuildM (Option SegmentRef)) arena = _
      rw [if_pos_apply hmax]
      rfl
    · have hpos := Nat.zero_lt_of_lt hwf.lastOwned_lt
      have hid : arena.segments.length - 1 + 1 = arena.segments.length := by omega
      rcases hlen : arena.allocator.alloc arena.requests size with _ | len
      · left
        refine ⟨_, ?_, unchanged_requests hwf (size :: arena.requests)⟩
        show (if maxSegments ≤ _ then _ else _ : BuildM (Option SegmentRef)) arena = _
        rw [if_neg_apply hmax, bind_apply, allocNew, hlen]
        rfl
      · right
        have hlt : arena.segments.length < 2 ^ 32 - 1 := by
          unfold maxSegments at hmax
          omega
        refine ⟨⟨arena.segments.length, 0⟩, _, ?_, allocates_append hwf (size :: arena.requests)
          (arena.allocator.le_alloc hlen) hlt⟩
        show (if maxSegments ≤ _ then _ else _ : BuildM (Option SegmentRef)) arena = _
        rw [if_neg_apply hmax, bind_apply, allocNew, hlen, hid]
        rfl
  · right
    refine ⟨⟨arena.lastOwned, o.get⟩, arena', ?_, hallocates⟩
    rw [bind_of_ok hrun]
    rfl

/-- An allocation that fails leaves the segments. -/
lemma segments_of_alloc_none (hwf : arena.Wf) {size : AllocLen}
    (h : alloc size arena = .ok none arena') : arena'.segments = arena.segments := by
  unfold alloc at h
  rw [bind_of_ok (get_apply arena)] at h
  dsimp only at h
  rcases onSegment_tryUseLen hwf hwf.lastOwned_lt size with ⟨-, hrun⟩ | ⟨-, o, arena₁, hrun, -⟩
  · rw [bind_of_ok hrun] at h
    dsimp only at h
    by_cases hmax : maxSegments ≤ arena.segments.length - 1
    · rw [if_pos_apply hmax] at h
      cases h
      rfl
    · rw [if_neg_apply hmax, bind_apply, allocNew] at h
      rcases hlen : arena.allocator.alloc arena.requests size with _ | len
      · rw [hlen] at h
        cases h
        rfl
      · rw [hlen] at h
        cases h
  · rw [bind_of_ok hrun] at h
    cases h

end Alloc

/-- The root segment of a new arena. -/
lemma allocRoot_new_eq_ok {allocator : Alloc} {arena : Arena}
    (h : allocRoot (new allocator) = .ok () arena) : arena.Wf ∧ arena.used 0 = 1 := by
  unfold allocRoot at h
  have hrest := of_bind rfl h
  have hrest := of_bind rfl hrest
  obtain ⟨segment, arena₂, hunwrap, hmodify⟩ := bind_eq_ok.1 hrest
  obtain ⟨hfirst, rfl⟩ := unwrap_eq_ok.1 hunwrap
  obtain ⟨len, hlen, rfl⟩ := Option.map_eq_some_iff.1 hfirst
  cases hmodify
  refine ⟨⟨?_, ?_, Nat.one_pos, show 1 ≤ 2 ^ 32 - 1 by decide⟩, rfl⟩
  · intro i s hs
    rcases i with _ | i
    · cases hs
      exact ⟨rfl, AllocLen.one, rfl, allocator.le_alloc hlen⟩
    · cases hs
  · rintro ⟨i, pos⟩ -
    rcases i with _ | i <;> rfl

end Arena

end Recapn.Ptr

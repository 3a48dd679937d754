/-
# The nesting limit

A reader has a nesting limit, which is to bound how deep one gets in a message whose pointers may
lead back to where one came from.  Copies and comparisons go through all the pointers below one,
and do not look at the limit: they get as deep as the message does.
-/
import Recapn.Ptr.Terms

namespace Recapn.Ptr

open Recapn.Lib

/-! ## Pointers that are nested deep -/

/-- Through `n` objects one comes from a pointer to one that is not null. -/
def Nested : ℕ → ObjectReader → ℕ → Prop
  | 0, reader, src => (reader.word src).isNull = false
  | n + 1, reader, src =>
    (reader.word src).isNull = false ∧
      ∃ reader' typed way slot, reader.tryReadTyped src none = .ok (reader', typed) none ∧
        typed.follow way = some slot ∧ Nested n reader' slot

/-- Through `n` objects on either side, in the same way, one comes from two pointers to two that
are not both null. -/
def NestedPair : ℕ → ObjectReader → ℕ → ObjectReader → ℕ → Prop
  | 0, ours, ourSrc, theirs, theirSrc =>
    ((ours.word ourSrc).isNull && (theirs.word theirSrc).isNull) = false
  | n + 1, ours, ourSrc, theirs, theirSrc =>
    ((ours.word ourSrc).isNull && (theirs.word theirSrc).isNull) = false ∧
      ∃ ours' ourTyped theirs' theirTyped way ourSlot theirSlot,
        ours.tryReadTyped ourSrc none = .ok (ours', ourTyped) none ∧
        theirs.tryReadTyped theirSrc none = .ok (theirs', theirTyped) none ∧
        ourTyped.follow way = some ourSlot ∧ theirTyped.follow way = some theirSlot ∧
        NestedPair n ours' ourSlot theirs' theirSlot

/-- What is nested deeper is nested deep. -/
lemma Nested.of_succ {n : ℕ} {reader : ObjectReader} {src : ℕ} (h : Nested (n + 1) reader src) :
    Nested n reader src := by
  induction n generalizing reader src with
  | zero => exact h.1
  | succ n ih =>
    obtain ⟨hword, reader', typed, way, slot, hread, hslot, hnested⟩ := h
    exact ⟨hword, reader', typed, way, slot, hread, hslot, ih hnested⟩

lemma Nested.of_add {n : ℕ} (c : ℕ) {reader : ObjectReader} {src : ℕ}
    (h : Nested (n + c) reader src) : Nested n reader src := by
  induction c with
  | zero => exact h
  | succ c ih => exact ih h.of_succ

lemma NestedPair.of_succ {n : ℕ} {ours theirs : ObjectReader} {ourSrc theirSrc : ℕ}
    (h : NestedPair (n + 1) ours ourSrc theirs theirSrc) :
    NestedPair n ours ourSrc theirs theirSrc := by
  induction n generalizing ours ourSrc theirs theirSrc with
  | zero => exact h.1
  | succ n ih =>
    obtain ⟨hwords, ours', ourTyped, theirs', theirTyped, way, ourSlot, theirSlot, hours, htheirs,
      hour, htheir, hnested⟩ := h
    exact ⟨hwords, ours', ourTyped, theirs', theirTyped, way, ourSlot, theirSlot, hours, htheirs,
      hour, htheir, ih hnested⟩

lemma NestedPair.of_add {n : ℕ} (c : ℕ) {ours theirs : ObjectReader} {ourSrc theirSrc : ℕ}
    (h : NestedPair (n + c) ours ourSrc theirs theirSrc) :
    NestedPair n ours ourSrc theirs theirSrc := by
  induction c with
  | zero => exact h
  | succ c ih => exact ih h.of_succ

/-! ## How deep a traversal gets -/

/-- However deep a copy gets, it reports nothing about nesting. -/
lemma copiesAt_any {ε : Type} {machine : CopyMachine ε} (htables : machine.TableErrors) (depth : ℕ)
    (reader : ObjectReader) (src : ℕ) :
    CopiesAt (fun _ => True) (machine.copyPtr depth) reader src := by
  induction depth generalizing reader src with
  | zero => exact fun _ _ => Prog.within_halt trivial
  | succ depth ih =>
    exact within_copyPtr trivial trivial htables fun reader' _ _ _ slot _ => ih reader' slot

/-- A copy gets no deeper than the pointers are nested. -/
lemma copiesAt_of_not_nested {ε : Type} {machine : CopyMachine ε} (htables : machine.TableErrors)
    {n : ℕ} {reader : ObjectReader} {src : ℕ} (h : ¬ Nested n reader src) :
    CopiesAt (fun r => r ≠ .depth) (machine.copyPtr (n + 1)) reader src := by
  induction n generalizing reader src with
  | zero =>
    refine within_copyPtr (fun hr => nomatch hr) (fun hr => nomatch hr) htables ?_
    intro reader' typed hread way slot hslot
    have hnull : (reader.word src).isNull = true := Bool.not_eq_false _ ▸ h
    rw [follow_of_null hnull hread way] at hslot
    cases hslot
  | succ n ih =>
    refine within_copyPtr (fun hr => nomatch hr) (fun hr => nomatch hr) htables ?_
    intro reader' typed hread way slot hslot
    rcases hnull : (reader.word src).isNull with _ | _
    · exact ih fun hnested => h ⟨hnull, reader', typed, way, slot, hread, hslot, hnested⟩
    · rw [follow_of_null hnull hread way] at hslot
      cases hslot

/-- However deep a comparison gets, it does not fail because of nesting. -/
lemma comparesAt_any (depth : ℕ) (ours : ObjectReader) (ourSrc : ℕ) (theirs : ObjectReader)
    (theirSrc : ℕ) : ComparesAt (fun _ => True) (Equality.cmpPtr depth) ours ourSrc theirs theirSrc := by
  induction depth generalizing ours ourSrc theirs theirSrc with
  | zero => exact Prog.within_halt trivial
  | succ depth ih =>
    exact within_cmpPtr trivial trivial fun _ ours' _ theirs' _ _ _ _ ourSlot theirSlot _ _ =>
      ih ours' ourSlot theirs' theirSlot

/-- A comparison gets no deeper than pairs of pointers are nested. -/
lemma comparesAt_of_not_nestedPair {n : ℕ} {ours theirs : ObjectReader} {ourSrc theirSrc : ℕ}
    (h : ¬ NestedPair n ours ourSrc theirs theirSrc) :
    ComparesAt (fun r => r ≠ .depth) (Equality.cmpPtr (n + 1)) ours ourSrc theirs theirSrc := by
  induction n generalizing ours ourSrc theirs theirSrc with
  | zero =>
    refine within_cmpPtr (fun hr => nomatch hr) (fun hr => nomatch hr) ?_
    intro hsome
    exact absurd hsome h
  | succ n ih =>
    refine within_cmpPtr (fun hr => nomatch hr) (fun hr => nomatch hr) ?_
    intro hsome ours' ourTyped theirs' theirTyped hour htheir way ourSlot theirSlot hourSlot htheirSlot
    exact ih fun hnested => h ⟨hsome, ours', ourTyped, theirs', theirTyped, way, ourSlot, theirSlot,
      hour, htheir, hourSlot, htheirSlot, hnested⟩

/-! ## Traversals -/

/-- A deep copy into a pointer, a struct or a list. -/
inductive DeepCopy where
  | ptr (self : PtrBuilder) (clearCap : List ℕ → ℕ → Except Error Unit) (clearDepth : ℕ)
    (other : PtrReader)
  | struct (self : StructBuilder) (other : StructReader)
  | list (self : ListBuilder) (other : ListReader)
  | ranges (self : ListBuilder) (selfStart : ElementCount) (other : ListReader)
    (otherStart len : ElementCount)
  | elements (self : ListBuilder) (other : ListReader)

namespace DeepCopy

variable {ε : Type}

/-- Copy, to a depth. -/
def exec (machine : CopyMachine ε) (depth : ℕ) : DeepCopy → CopyM ε Unit
  | ptr builder clearCap clearDepth other =>
    builder.tryCopyFrom clearCap machine clearDepth depth other
  | struct builder other => builder.tryCopyWithCaveats machine depth other
  | list builder other => builder.tryCopyFrom machine depth other
  | ranges builder start other otherStart len =>
    builder.tryCopyRanges machine depth start other otherStart len
  | elements builder other => builder.tryCopyWithCaveats machine depth other

/-- The reader that is copied from. -/
def reader : DeepCopy → ObjectReader
  | ptr _ _ _ other => other.reader
  | struct _ other => other.reader
  | list _ other | elements _ other => other.reader
  | ranges _ _ other _ _ => other.reader

/-- Its nesting limit. -/
def nestingLimit : DeepCopy → ℕ
  | ptr _ _ _ other => other.nestingLimit
  | struct _ other => other.nestingLimit
  | list _ other | elements _ other => other.nestingLimit
  | ranges _ _ other _ _ => other.nestingLimit

/-- The pointers at which the copy starts.  Lists are copied by the length of the builder. -/
def Start : DeepCopy → ℕ → Prop
  | ptr _ _ _ other, slot => slot = other.ptr
  | struct _ other, slot => ∃ k < other.ptrsLen, slot = other.ptrsStart + k
  | list builder other, slot | elements builder other, slot =>
    ∃ way, (TypedContent.list ⟨other.ptr, other.elementSize, builder.elementCount⟩).follow way
      = some slot
  | ranges _ _ other otherStart len, slot =>
    ∃ way, (TypedContent.list ⟨rangeStart other.ptr otherStart other.elementSize,
      other.elementSize, len⟩).follow way = some slot

/-- The depth for clearing what was at the destination is enough. -/
def Clears (ε : Type) (arena : Arena) : DeepCopy → Prop
  | ptr builder clearCap clearDepth _ =>
    (builder.clear clearCap clearDepth : Prog ε Arena Unit) arena ≠ .halt .depth
  | _ => True

end DeepCopy

/-- The state in which a copy into an arena starts, from a message without a limiter. -/
def CopyState.start (arena : Arena) : CopyState := ⟨none, arena, [], []⟩

lemma inv_start {ε : Type} {H : Halt → Prop} (arena : Arena) :
    (copyTerms ε H).inv (CopyState.start arena) :=
  ⟨rfl, List.not_mem_nil⟩

section Exec

open DeepCopy Prog

variable {ε : Type} {H : Halt → Prop} (hpanic : H .panic) (hundefined : H .undefined)
  {machine : CopyMachine ε} {depth : ℕ}

include hundefined

/-- A struct is copied from its pointers. -/
lemma within_copyStructWithCaveats {builder : StructBuilder} {other : StructReader}
    (hstart : ∀ k < other.ptrsLen, CopiesAt H (machine.copyPtr depth) other.reader (other.ptrsStart + k)) :
    Within (copyTerms ε H) (builder.tryCopyWithCaveats machine depth other) := by
  refine within_bind ?_ fun _ _ => ?_
  · refine within_bind (within_sectionSlice hundefined _ _ _) fun words _ => ?_
    refine within_bind (within_writing_section hundefined _ _ _) fun _ _ => ?_
    exact within_ite (fun _ => within_pure _) fun _ => within_setBytes hundefined _ _ _
  · exact within_copyPtrSection hundefined fun k hk =>
      hstart k (Nat.lt_of_lt_of_le hk (Nat.min_le_right _ _))

include hpanic

/-- Copies that do not clear first. -/
lemma within_exec {call : DeepCopy} (hptr : ∀ builder clearCap clearDepth other,
      call ≠ .ptr builder clearCap clearDepth other)
    (hstart : ∀ slot, call.Start slot → CopiesAt H (machine.copyPtr depth) call.reader slot) :
    Within (copyTerms ε H) (call.exec machine depth) := by
  cases call with
  | ptr builder clearCap clearDepth other => exact absurd rfl (hptr _ _ _ _)
  | struct builder other =>
    exact within_copyStructWithCaveats hundefined fun k hk => hstart _ ⟨k, hk, rfl⟩
  | list builder other =>
    refine within_bind (within_assert hpanic _) fun _ _ => ?_
    refine within_bind (within_assert hpanic _) fun _ _ => ?_
    exact within_copyToUpgradedList hpanic hundefined fun way slot hslot => hstart slot ⟨way, hslot⟩
  | ranges builder start other otherStart len =>
    refine within_bind (within_assert hpanic _) fun _ _ => ?_
    refine within_ite (fun _ => within_pure _) fun _ => ?_
    refine within_bind (within_assert hpanic _) fun _ _ => ?_
    refine within_bind (within_assert hpanic _) fun _ _ => ?_
    exact within_copyToUpgradedListAt hpanic hundefined fun way slot hslot => hstart slot ⟨way, hslot⟩
  | elements builder other =>
    refine within_bind (within_assert hpanic _) fun _ _ => ?_
    obtain ⟨target, ptr, size, count⟩ := builder
    obtain ⟨otherPtr, otherReader, otherCount, otherLimit, otherSize⟩ := other
    refine within_ite (fun hsame => ?_) fun _ => ?_
    · obtain rfl : otherSize = size := hsame
      exact within_copyList hpanic hundefined fun way slot hslot => hstart slot ⟨way, hslot⟩
    · cases size with
      | inlineComposite size =>
        cases otherSize with
        | inlineComposite otherSize =>
          exact within_copyInlineComposites hpanic hundefined fun i hi k hk =>
            hstart _ ⟨.element i k, if_pos ⟨hi, hk⟩⟩
        | _ => exact within_halt hpanic
      | _ => cases otherSize <;> exact within_halt hpanic

/-- A copy from the start stays within the terms, when clearing halts within them. -/
lemma exec_start {call : DeepCopy} {arena : Arena}
    (hclear : ∀ builder clearCap clearDepth other, call = .ptr builder clearCap clearDepth other →
      ∀ r, (builder.clear clearCap clearDepth : Prog ε Arena Unit) arena = .halt r → H r)
    (hstart : ∀ slot, call.Start slot → CopiesAt H (machine.copyPtr depth) call.reader slot) :
    (copyTerms ε H).Allows (call.exec machine depth (CopyState.start arena)) := by
  cases call with
  | ptr builder clearCap clearDepth other =>
    have hcopy := hstart other.ptr rfl builder.ptr builder.builder
    have hcleared := hclear _ _ _ _ rfl
    show (copyTerms ε H).Allows ((CopyMachine.writing (builder.clear clearCap clearDepth) >>= fun _ =>
      machine.copyPtr depth other.ptr other.reader builder.ptr builder.builder) (CopyState.start arena))
    refine allows_bind ?_ fun _ s _ hs => hcopy s hs
    show (copyTerms ε H).Allows (zoom CopyState.arena _ _ _)
    unfold zoom
    rcases hrun : (builder.clear clearCap clearDepth : Prog ε Arena Unit) (CopyState.start arena).arena
      with ⟨_, arena'⟩ | ⟨e, arena'⟩ | r
    · exact inv_start arena'
    · exact ⟨trivial, inv_start arena'⟩
    · exact hcleared r hrun
  | struct | list | ranges | elements =>
    exact within_exec hpanic hundefined (fun _ _ _ _ h => by cases h) hstart _ (inv_start arena)

end Exec

/-- The errors that the handler of a copy was given, when the copy has ended. -/
def reported {ε : Type} : Outcome ε CopyState Unit → List Error
  | .ok _ s | .error _ s => s.reported
  | .halt _ => []

lemma not_mem_reported {ε : Type} {H : Halt → Prop} {outcome : Outcome ε CopyState Unit}
    (h : (copyTerms ε H).Allows outcome) : .nestingLimitExceeded ∉ reported outcome := by
  rcases outcome with ⟨_, s⟩ | ⟨e, s⟩ | r
  · exact h.2
  · exact h.2.2
  · exact List.not_mem_nil

/-- The deep traversals: copies into an arena, and comparisons. -/
inductive Traversal (ε : Type) where
  | copy (call : DeepCopy) (machine : CopyMachine ε) (arena : Arena)
  | equality (self other : PtrReader)

namespace Traversal

variable {ε : Type}

/-- The nesting limit of its readers. -/
def nestingLimit : Traversal ε → ℕ
  | copy call _ _ => call.nestingLimit
  | equality ours theirs => min ours.nestingLimit theirs.nestingLimit

/-- A pointer to copy that is not null is nested deeper than `n`, or are two to compare. -/
def Deeper (n : ℕ) : Traversal ε → Prop
  | copy call _ _ => ∃ slot, call.Start slot ∧ Nested n call.reader slot
  | equality ours theirs => NestedPair n ours.reader ours.ptr theirs.reader theirs.ptr

/-- The recursion gets deeper than `depth`. -/
def RunsOut (depth : ℕ) : Traversal ε → Prop
  | copy call machine arena => call.exec machine depth (.start arena) = .halt .depth
  | equality ours theirs => ours.equality theirs depth (none, none) = .halt .depth

/-- It ends, and its error handler or its caller was given `NestingLimitExceeded`. -/
def Reports (depth : ℕ) : Traversal ε → Prop
  | copy call machine arena =>
    .nestingLimitExceeded ∈ reported (call.exec machine depth (.start arena))
  | equality ours theirs =>
    ∃ s, ours.equality theirs depth (none, none) = .error .nestingLimitExceeded s

/-- Up to a constant, the recursion gets no deeper than the nesting limit, and pointers that are
nested deeper are reported. -/
def KeepsNesting (c : ℕ) (t : Traversal ε) : Prop :=
  ¬ t.RunsOut (t.nestingLimit + 1 + c) ∧
    (t.Deeper t.nestingLimit → t.Reports (t.nestingLimit + 1 + c))

/-- What a copy relies on: its tables fail as tables do, and its destination can be cleared. -/
def Proper : Traversal ε → Prop
  | copy call machine arena => machine.TableErrors ∧ call.Clears ε arena
  | equality _ _ => True

/-- No traversal reports anything about nesting. -/
lemma not_reports {t : Traversal ε} (ht : t.Proper) (depth : ℕ) : ¬ t.Reports depth := by
  cases t with
  | copy call machine arena =>
    have hrun : (copyTerms ε fun _ => True).Allows (call.exec machine depth (CopyState.start arena)) :=
      exec_start trivial trivial (fun _ _ _ _ _ _ _ => trivial)
        fun slot _ => copiesAt_any ht.1 depth call.reader slot
    exact not_mem_reported hrun
  | equality ours theirs =>
    rintro ⟨s, hrun⟩
    have hany := comparesAt_any depth ours.reader ours.ptr theirs.reader theirs.ptr
    exact (hany.error rfl hrun).1 rfl

/-- A traversal gets no deeper than its pointers are nested. -/
lemma not_runsOut {t : Traversal ε} (ht : t.Proper) {n : ℕ} (h : ¬ t.Deeper n) :
    ¬ t.RunsOut (n + 1) := by
  cases t with
  | copy call machine arena =>
    have hrun : (copyTerms ε fun r => r ≠ .depth).Allows
        (call.exec machine (n + 1) (CopyState.start arena)) := ?_
    · intro hdepth
      have hexec : call.exec machine (n + 1) (.start arena) = .halt .depth := hdepth
      rw [hexec] at hrun
      exact hrun rfl
    · refine exec_start (fun hr => nomatch hr) (fun hr => nomatch hr) ?_
        fun slot hslot => copiesAt_of_not_nested ht.1 fun hnested => h ⟨slot, hslot, hnested⟩
      rintro builder clearCap clearDepth other rfl r hr rfl
      exact ht.2 hr
  | equality ours theirs =>
    intro hdepth
    exact (comparesAt_of_not_nestedPair h).halt rfl hdepth rfl

/-- What is nested deeper than a bound is nested deeper than a smaller one. -/
lemma Deeper.of_add {t : Traversal ε} {n : ℕ} (c : ℕ) (h : t.Deeper (n + c)) : t.Deeper n := by
  cases t with
  | copy call machine arena =>
    obtain ⟨slot, hslot, hnested⟩ := h
    exact ⟨slot, hslot, hnested.of_add c⟩
  | equality ours theirs => exact NestedPair.of_add c h

/-- **A deep traversal keeps the nesting limit exactly when nothing is nested deeper.**  It looks at
the limit nowhere. -/
theorem keepsNesting_iff (t : Traversal ε) (ht : t.Proper) (c : ℕ) :
    t.KeepsNesting c ↔ ¬ t.Deeper t.nestingLimit := by
  constructor
  · rintro ⟨-, hreports⟩ hdeeper
    exact not_reports ht _ (hreports hdeeper)
  · intro hnot
    refine ⟨?_, fun hdeeper => absurd hdeeper hnot⟩
    rw [Nat.add_right_comm]
    exact not_runsOut ht fun hdeeper => hnot (hdeeper.of_add c)

end Traversal

/-! ## A struct that points to itself -/

/-- One word, which points to a struct of one pointer that starts with this word. -/
def cycleSegment : Segment where
  data _ := StructPtr.new ⟨-1, I30.le_neg_one, I30.neg_one_lt⟩ ⟨0, 1, StructSize.zero_lt, StructSize.one_lt⟩
  len := ⟨1, U29.one_lt⟩

/-- A message with this segment. -/
def cycleArena : ReadArena
  | 0 => some cycleSegment
  | _ => none

/-- Its root, with the default limit. -/
def cycleReader : PtrReader := ⟨0, .inSegment cycleArena 0 cycleSegment, 64⟩

/-- The root is read as the struct in which it lies. -/
lemma tryReadTyped_cycle :
    cycleReader.reader.tryReadTyped 0 none =
      .ok (cycleReader.reader, .struct ⟨0, ⟨0, 1, by decide, by decide⟩⟩) none := by
  rfl

/-- It is nested in itself. -/
lemma nested_cycle (n : ℕ) : Nested n cycleReader.reader 0 := by
  induction n with
  | zero => rfl
  | succ n ih => exact ⟨rfl, _, _, .field 0, 0, tryReadTyped_cycle, rfl, ih⟩

/-- The copy of the message into a fresh one. -/
def copyCycle : Traversal Empty :=
  .copy (.ptr PtrBuilder.root (fun _ _ => .error .capabilityNotAllowed) 0 cycleReader)
    ⟨ignoreErrors, fun _ _ => .error .capabilityNotAllowed, false⟩
    ⟨Alloc.global, [], [⟨⟨fun _ => Word.null, AllocLen.one.toU29⟩, 0, .used AllocLen.one⟩], 0⟩

lemma proper_copyCycle : copyCycle.Proper := by
  constructor
  · intro caps index err herr
    cases herr
    exact Or.inl rfl
  · exact fun h => nomatch h

theorem Traversal.keepsNesting_iff_cycle : ¬ copyCycle.KeepsNesting 0 := by
  rw [Traversal.keepsNesting_iff copyCycle proper_copyCycle 0, not_not]
  exact ⟨0, rfl, nested_cycle _⟩

/-- To compare the message with itself, no depth is enough. -/
lemma equality_cycle (depth : ℕ) :
    cycleReader.equality cycleReader depth (none, none) = .halt .depth := by
  induction depth with
  | zero => rfl
  | succ depth ih =>
    -- the two structs have no data, and their only pointers are the ones that are compared
    show (Equality.cmpPtr depth 0 cycleReader.reader 0 cycleReader.reader >>= fun last =>
      if last = .equal then pure .equal else pure last : EqualityM PtrEquality) (none, none) = _
    exact Prog.bind_of_halt ih

/-- **No constant bounds how deep a traversal gets beyond the limit**: that of a message of one word
never ends. -/
theorem not_keepsNesting : ¬ ∃ c, ∀ t : Traversal Error, t.KeepsNesting c := by
  rintro ⟨c, h⟩
  exact (h (.equality cycleReader cycleReader)).1 (equality_cycle _)

end Recapn.Ptr

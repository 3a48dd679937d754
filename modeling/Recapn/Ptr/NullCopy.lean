/-
# Pointers that are null in a copy

A null word can be read as a pointer to an empty struct, so whatever copies pointers has to ask
first whether they are null.  The loops over pointer sections do, and so a copy is null wherever the
source is.  Two ways into the copy machine do not: the copy of a single pointer, and that of a range
of pointers into a list of structs.
-/
import Recapn.Ptr.ListCopy
import Recapn.Ptr.Overwrite

namespace Recapn.Ptr

open Recapn.Lib Recapn.Lib.Prog

/-! ## Ways through a message -/

/-- From a pointer one comes to another one this way. -/
inductive Follows (a : ReadArena) : SegmentId → ℕ → List Way → SegmentId → ℕ → Prop
  | here {id : SegmentId} {pos : ℕ} : Follows a id pos [] id pos
  | there {id id' id'' : SegmentId} {pos pos' pos'' cost : ℕ} {typed : TypedContent} {way : Way}
      {ways : List Way} (hdenotes : Denotes a id pos id' typed cost)
      (hway : typed.follow way = some pos') (hrest : Follows a id' pos' ways id'' pos'') :
      Follows a id pos (way :: ways) id'' pos''

/-- The pointer reader is at the end of the way. -/
def PtrReader.Reached (r : PtrReader) (a : ReadArena) (id : SegmentId) (pos : ℕ) (ways : List Way) :
    Prop :=
  ∃ id' segment, Follows a id pos ways id' r.ptr ∧ a id' = some segment ∧
    r.reader = .inSegment a id' segment

/-- **A pointer and its copy are null in the same places.**  What is there in the source may be null in
the copy if something was reported, or if the tables have no capability for it. -/
structure SameNulls (quiet : Prop) (a : ReadArena) (id : SegmentId) (pos : ℕ) (a' : ReadArena)
    (did : SegmentId) (dpos : ℕ) : Prop where
  null : ∀ ways (r r' : PtrReader), r.Reached a id pos ways → r'.Reached a' did dpos ways →
    r.isNull = true → r'.isNull = true ∧ r'.ptrType = r.ptrType
  present : quiet → ∀ ways (r r' : PtrReader), r.Reached a id pos ways → r'.Reached a' did dpos ways →
    r'.isNull = true → r.isNull = true

section Ways

variable {ε : Type} {machine : CopyMachine ε} {a a' : ReadArena} {strict : Prop}
  {F : Set SegmentRef} {id did : SegmentId} {pos dpos : ℕ} {ways : List Way}

/-- A pointer reader is null just when the word is. -/
lemma PtrReader.Reached.isNull_iff {r : PtrReader} {id' : SegmentId} {segment : Segment}
    (hsegment : a id' = some segment) (hreader : r.reader = .inSegment a id' segment) :
    r.isNull = true ↔ a.Holds id' r.ptr Word.null := by
  rw [isNull, wirePtr, hreader, Word.isNull_iff]
  constructor
  · intro hnull
    exact ⟨segment, hsegment, hnull⟩
  · rintro ⟨segment', hsegment', hnull⟩
    obtain rfl := Option.mem_unique hsegment hsegment'
    exact hnull

/-- The pointers of an object and of its copy. -/
lemma Shape.follow_copied {shape copy : Shape} {canonical : Bool} {atPtr block : ℕ → Word}
    {src start dstart q q' : ℕ} {way : Way} (hcopy : copy = shape.copied canonical atPtr src block start)
    (hway : (shape.content start).follow way = some q)
    (hway' : (copy.content dstart).follow way = some q') :
    ∃ k < copy.words, copy.isPtr k = true ∧ q = start + shape.source copy k ∧ q' = dstart + k := by
  -- the pointer of a struct, and what it is a copy of
  have hsource : ∀ size csize : StructSize, ∀ k, size.source csize (csize.data + k) = size.data + k := by
    intro size csize k
    rw [StructSize.source, if_neg (by omega)]
    omega
  cases shape with
  | struct size =>
    obtain ⟨csize, rfl⟩ : ∃ csize, copy = .struct csize := ⟨_, hcopy⟩
    cases way with
    | field k =>
      obtain ⟨-, hq⟩ := Option.ite_none_right_eq_some.1 hway
      obtain ⟨hk, hq'⟩ := Option.ite_none_right_eq_some.1 hway'
      cases hq
      cases hq'
      refine ⟨csize.data + k, Nat.add_lt_add_left hk _, decide_eq_true (Nat.le_add_right _ _), ?_,
        Nat.add_assoc _ _ _⟩
      show start + size.data + k = start + size.source csize (csize.data + k)
      rw [hsource, Nat.add_assoc]
    | _ => cases hway
  | list size count =>
    cases size with
    | pointer =>
      obtain rfl : copy = .list .pointer count := hcopy
      cases way with
      | item k =>
        obtain ⟨hk, hq⟩ := Option.ite_none_right_eq_some.1 hway
        obtain ⟨-, hq'⟩ := Option.ite_none_right_eq_some.1 hway'
        cases hq
        cases hq'
        refine ⟨k, ?_, rfl, rfl, rfl⟩
        rw [@words_asStruct .pointer ⟨0, 1, by decide, by decide⟩ count rfl]
        show k < 1 * count.get
        omega
      | _ => cases hway
    | inlineComposite size =>
      obtain ⟨csize, rfl⟩ : ∃ csize, copy = .list (.inlineComposite csize) count := ⟨_, hcopy⟩
      cases way with
      | element i k =>
        obtain ⟨-, hq⟩ := Option.ite_none_right_eq_some.1 hway
        obtain ⟨⟨hi, hk⟩, hq'⟩ := Option.ite_none_right_eq_some.1 hway'
        cases hq
        cases hq'
        have htotal := csize.total_eq
        have hlt : csize.data + k < csize.total := by omega
        have hmod : (csize.total * i + (csize.data + k)) % csize.total = csize.data + k := by
          rw [Nat.mul_add_mod, Nat.mod_eq_of_lt hlt]
        have hdiv : (csize.total * i + (csize.data + k)) / csize.total = i := by
          rw [Nat.mul_add_div (by omega), Nat.div_eq_of_lt hlt, Nat.add_zero]
        have hpart := partAt_element csize hi
        have hle := hpart.le
        refine ⟨csize.total * i + (csize.data + k), by omega, ?_, ?_, by omega⟩
        · rw [hpart.isPtr _ hlt]
          exact decide_eq_true (Nat.le_add_right _ _)
        · show start + size.total * i + size.data + k = start + (size.total * (_ / csize.total) +
            size.source csize (_ % csize.total))
          rw [hmod, hdiv, hsource]
          omega
      | _ => cases hway
    | _ => cases way <;> cases hway

/-- What is below a copy is a copy again. -/
lemma CopyOf.follows {i i' : SegmentId} {q q' : ℕ} (h : CopyOf machine a strict F a' id pos did dpos)
    (hsource : Follows a id pos ways i q) (hcopy : Follows a' did dpos ways i' q') :
    CopyOf machine a strict F a' i q i' q' := by
  induction hsource generalizing did dpos with
  | here =>
    cases hcopy
    exact h
  | @there id id₁ _ pos pos₁ _ _ typed way ways hdenotes hway _ ih =>
    cases hcopy with
    | @there _ did₁ _ _ dpos₁ _ _ typed' _ _ hdenotes' hway' hrest' =>
      have hnone : ∀ start, (TypedContent.struct ⟨start, StructSize.empty⟩).follow way = none := by
        intro start
        cases way with
        | field k =>
          show (if k < 0 then some (start + 0 + k) else none) = none
          exact if_neg (Nat.not_lt_zero k)
        | _ => rfl
      cases h with
      | null hnull =>
        obtain ⟨start, rfl⟩ := hdenotes.of_null hnull
        cases (hnone start).symm.trans hway
      | refused _ hnull' =>
        obtain ⟨start, rfl⟩ := hdenotes'.of_null hnull'
        cases (hnone start).symm.trans hway'
      | capability _ _ hword =>
        obtain ⟨-, rfl⟩ := hword.denotes_unique hdenotes' (denotes_capability hword)
        cases way <;> cases hway'
      | object hsegment hsome hdenotes₁ hblock hshape hroom hdsegment hdsome hdenotes₁' hdblock hfresh
          hdata hptrs =>
        obtain ⟨rfl, rfl⟩ := hdenotes₁.unique hsegment hdenotes
        obtain ⟨rfl, rfl⟩ := hdenotes₁'.unique hdsegment hdenotes'
        obtain ⟨k, hk, hptr, rfl, rfl⟩ := Shape.follow_copied hshape hway hway'
        exact ih (hptrs k hk hptr) hrest'
      | full _ _ _ _ _ _ _ hrefuses => exact absurd hdenotes' (hrefuses _ _ _)

/-- A copy is null just where the source is. -/
lemma CopyOf.sameNulls (h : CopyOf machine a strict F a' id pos did dpos) {quiet : Prop}
    (hquiet : quiet → strict ∧ ∀ index, ¬ machine.Answers index none) :
    SameNulls quiet a id pos a' did dpos := by
  constructor
  · rintro ways r r' ⟨i, segment, hfollows, hsegment, hreader⟩ ⟨i', segment', hfollows', hsegment', hreader'⟩
      hnull
    have hholds := (PtrReader.Reached.isNull_iff hsegment hreader).1 hnull
    have hnull' := (PtrReader.Reached.isNull_iff hsegment' hreader').2
      ((h.follows hfollows hfollows').of_null hholds)
    refine ⟨hnull', ?_⟩
    rw [PtrReader.ptrType, if_pos hnull', PtrReader.ptrType, if_pos hnull]
  · rintro hq ways r r' ⟨i, segment, hfollows, hsegment, hreader⟩
      ⟨i', segment', hfollows', hsegment', hreader'⟩ hnull'
    obtain ⟨hstrict, hanswers⟩ := hquiet hq
    have hholds := (PtrReader.Reached.isNull_iff hsegment' hreader').1 hnull'
    refine (PtrReader.Reached.isNull_iff hsegment hreader).2 ?_
    cases h.follows hfollows hfollows' with
    | null hnull => exact hnull
    | refused hkeeps =>
      rcases hkeeps with hnot | ⟨_, index, _, _, hanswer⟩
      · exact absurd hstrict hnot
      · exact absurd hanswer (hanswers index)
    | capability _ _ hword => exact absurd (hword.unique hholds) (CapabilityPtr.ne_null_new _)
    | object _ _ _ _ _ _ hdsegment hdsome | full _ _ _ _ _ hdsegment hdsome =>
      exact absurd hholds (ReadArena.not_holds_null hdsegment hdsome)

/-- A null pointer whose copy is not null. -/
lemma not_sameNulls {quiet : Prop} {w : Word} (hnull : a.Holds id pos Word.null)
    (hpresent : a'.Holds did dpos w) (hw : w ≠ Word.null) : ¬ SameNulls quiet a id pos a' did dpos := by
  intro h
  have ⟨segment, hsegment, _⟩ := hnull
  have ⟨segment', hsegment', _⟩ := hpresent
  let r : PtrReader := ⟨pos, .inSegment a id segment, 0⟩
  let r' : PtrReader := ⟨dpos, .inSegment a' did segment', 0⟩
  have hr : r.isNull = true := (PtrReader.Reached.isNull_iff hsegment rfl).2 hnull
  have hr' := (h.null [] r r' ⟨_, _, .here, hsegment, rfl⟩ ⟨_, _, .here, hsegment', rfl⟩ hr).1
  exact hw (hpresent.unique ((PtrReader.Reached.isNull_iff hsegment' rfl).1 hr'))

end Ways

/-! ## Calls that copy -/

/-- The pointer of the source is in its segment. -/
structure PtrReader.In (source : PtrReader) (a : ReadArena) (id : SegmentId) (block : Segment) : Prop where
  reader : source.reader = .inSegment a id block
  segment : a id = some block
  inside : source.ptr < block.len.get

/-- The list of the source is in its segment. -/
structure ListReader.In (source : ListReader) (a : ReadArena) (id : SegmentId) (block : Segment) : Prop where
  reader : source.reader = .inSegment a id block
  segment : a id = some block
  inside : source.ptr + (Shape.list source.elementSize source.elementCount).words ≤ block.len.get

/-- The builder is that of a pointer that is null. -/
structure PtrBuilder.Blank (target : PtrBuilder) (arena : Arena) : Prop where
  wf : arena.Wf
  builder : target.builder = ⟨target.ptr.segment⟩
  live : target.ptr.pos < arena.used target.ptr.segment
  null : arena.word target.ptr = Word.null

/-- The builder is that of a list in words that are in use. -/
structure ListBuilder.At (target : ListBuilder) (arena : Arena) : Prop where
  wf : arena.Wf
  builder : target.builder = ⟨target.ptr.segment⟩
  inside : target.ptr.pos + (Shape.list target.elementSize target.elementCount).words ≤
    arena.used target.ptr.segment

/-- The words of the list are null. -/
def ListBuilder.Zeroed (target : ListBuilder) (arena : Arena) : Prop :=
  ∀ k < (Shape.list target.elementSize target.elementCount).words,
    arena.word (target.ptr.offset k) = Word.null

/-- The functions of builders that copy. -/
inductive CopyCall where
  | copyFrom (target : PtrBuilder) (other : PtrReader)
  | setStruct (target : PtrBuilder) (value : StructReader) (size : CopySize StructSize)
  | setList (target : PtrBuilder) (value : ListReader) (size : CopySize ElementSize)
  | listCopyFrom (target : ListBuilder) (other : ListReader)
  | listCopyRanges (target : ListBuilder) (targetStart : ElementCount) (other : ListReader)
      (otherStart len : ElementCount)

/-- The pointer `k` of element `i` is at this place of the list. -/
def ElementSize.PtrAt (size : ElementSize) (i k pos : ℕ) : Prop :=
  ∃ elem, size.asStruct = some elem ∧ k < elem.ptrs ∧ pos = elem.total * i + elem.data + k

namespace CopyCall

/-- The call, with the depths of its two recursions.  Ranges of lists are not canonical. -/
def run {ε : Type} (machine : CopyMachine ε) (clearCap : List ℕ → ℕ → Except Error Unit)
    (clearDepth depth : ℕ) : CopyCall → CopyM ε Unit
  | copyFrom target other => target.tryCopyFrom clearCap machine clearDepth depth other
  | setStruct target value size => target.trySetStruct clearCap machine clearDepth depth value size
  | setList target value size => target.trySetList clearCap machine clearDepth depth value size
  | listCopyFrom target other => target.tryCopyFrom { machine with canonical := false } depth other
  | listCopyRanges target targetStart other otherStart len =>
    target.tryCopyRanges { machine with canonical := false } depth targetStart other otherStart len

/-- The source is in a segment of the message, and the destination is new. -/
def Fits (a : ReadArena) (id : SegmentId) (block : Segment) (arena : Arena) : CopyCall → Prop
  | copyFrom target other => target.Blank arena ∧ other.In a id block
  | setStruct target value _ => target.Blank arena ∧ value.In a id block
  | setList target value _ => target.Blank arena ∧ value.In a id block
  | listCopyFrom target other | listCopyRanges target _ other _ _ =>
    target.At arena ∧ target.Zeroed arena ∧ other.In a id block

/-- The pointer at `src` goes to this one in the destination.  New structs and lists are found by
their pointers after the call, in words that the call allocated. -/
def Pairs (arena arena' : Arena) (src : ℕ) (did : SegmentId) (dpos : ℕ) : CopyCall → Prop
  | copyFrom target other => src = other.ptr ∧ did = target.ptr.segment ∧ dpos = target.ptr.pos
  | setStruct target value _ => ∃ k size start cost, k < value.ptrsLen ∧ k < size.ptrs ∧
      Denotes arena'.toRead target.ptr.segment target.ptr.pos did (.struct ⟨start, size⟩) cost ∧
      src = value.ptrsStart + k ∧ dpos = start + size.data + k
  | setList target value _ => ∃ i k start size count cost pos pos', i < value.elementCount.get ∧
      Denotes arena'.toRead target.ptr.segment target.ptr.pos did (.list ⟨start, size, count⟩) cost ∧
      value.elementSize.PtrAt i k pos ∧ size.PtrAt i k pos' ∧ src = value.ptr + pos ∧
      dpos = start + pos' ∧ ⟨did, dpos⟩ ∈ Arena.fresh arena arena'
  | listCopyFrom target other => ∃ i k pos pos', i < other.elementCount.get ∧
      other.elementSize.PtrAt i k pos ∧ target.elementSize.PtrAt i k pos' ∧ src = other.ptr + pos ∧
      did = target.ptr.segment ∧ dpos = target.ptr.pos + pos'
  | listCopyRanges target targetStart other otherStart len => ∃ i k pos pos', i < len.get ∧
      other.elementSize.PtrAt (otherStart.get + i) k pos ∧
      target.elementSize.PtrAt (targetStart.get + i) k pos' ∧ src = other.ptr + pos ∧
      did = target.ptr.segment ∧ dpos = target.ptr.pos + pos'

/-- The call copies a null pointer without asking whether it is null. -/
def CopiesNull (block : Segment) : CopyCall → Prop
  | copyFrom _ other => block.data other.ptr = Word.null
  | listCopyRanges target _ other otherStart len => other.elementSize = .pointer ∧
      target.elementSize ≠ .pointer ∧
      ∃ i < len.get, block.data (other.ptr + otherStart.get + i) = Word.null
  | _ => False

end CopyCall

/-! ## What the calls do -/

section Calls

open CopyMachine

variable {ε : Type} {machine : CopyMachine ε} {clearCap : List ℕ → ℕ → Except Error Unit}
  {clearDepth depth : ℕ} {a : ReadArena} {id : SegmentId} {block : Segment} {s s' : CopyState}

/-- A null pointer is clear. -/
lemma PtrBuilder.Blank.clear {target : PtrBuilder} (h : target.Blank s.arena) :
    (writing (target.clear clearCap clearDepth) : CopyM ε Unit) s = .ok () s := by
  have hlen := h.wf.used_le_len target.ptr.segment
  have hlive := h.live
  have hread : (Arena.read target.ptr : BuildM Word) s.arena = .ok (s.arena.word target.ptr) s.arena :=
    if_pos (by omega)
  have hbuild : (Nullifier.building (Arena.read target.ptr) : Nullifier.ClearM Empty _) ⟨s.arena, [], []⟩ =
      .ok (.ok (s.arena.word target.ptr)) ⟨s.arena, [], []⟩ := by
    rw [Nullifier.building, Prog.zoom, Prog.attempt, hread]
  have hclear : target.tryClear (⟨ignoreErrors, clearCap⟩ : Nullifier Empty) clearDepth ⟨s.arena, [], []⟩ =
      .ok () ⟨s.arena, [], []⟩ := by
    rw [tryClear, Nullifier.build, bind_of_ok hbuild, h.null]
    rfl
  rw [writing, Prog.zoom, PtrBuilder.clear, hclear]

/-- The copies that are made are not for want of room in a recursion. -/
lemma copies_any (id : SegmentId) (src : ℕ) :
    Copies machine a id (machine.copyPtr depth) (fun _ => True) src :=
  fun block hblock hsome slot t hwf hslot =>
    (copyPtr_copied depth id src block hblock hsome slot t hwf hslot).imp (fun _ _ => trivial) fun _ _ h => h

/-- What is filled over a null word is the copy of a pointer. -/
lemma copyOf_of_done {strict : Prop} {F : Set SegmentRef} {slot : SegmentRef} {src : ℕ} {a' : ReadArena}
    (h : (Item.ptr src).Done machine a id strict F slot Word.null a') :
    CopyOf machine a strict F a' id src slot.segment slot.pos :=
  Replaces.copyOf h

/-- A present pointer is copied to a pointer that is null in the same places. -/
lemma copyFrom_sameNulls {target : PtrBuilder} {other : PtrReader} (htarget : target.Blank s.arena)
    (hother : other.In a id block) (hsome : block.data other.ptr ≠ Word.null)
    (hrun : target.tryCopyFrom clearCap machine clearDepth depth other s = .ok () s') :
    SameNulls (s'.reported = s.reported ∧ ∀ index, ¬ machine.Answers index none) a id other.ptr
      s'.arena.toRead target.ptr.segment target.ptr.pos := by
  rw [PtrBuilder.tryCopyFrom, bind_of_ok htarget.clear, hother.reader, htarget.builder] at hrun
  have hcopied := (@copies_any _ _ depth _ id other.ptr block hother.segment hsome target.ptr s
    htarget.wf htarget.live).of_ok hrun
  have hreplaces := hcopied.replaces.holds
  rw [htarget.null] at hreplaces
  exact hreplaces.copyOf.sameNulls fun h => h

/-- A pointer that is null is copied to one that is not. -/
lemma copyFrom_not_sameNulls {target : PtrBuilder} {other : PtrReader} (htarget : target.Blank s.arena)
    (hother : other.In a id block) (hnull : block.data other.ptr = Word.null) {quiet : Prop}
    (hrun : target.tryCopyFrom clearCap machine clearDepth depth other s = .ok () s') :
    ¬ SameNulls quiet a id other.ptr s'.arena.toRead target.ptr.segment target.ptr.pos := by
  rw [PtrBuilder.tryCopyFrom, bind_of_ok htarget.clear, hother.reader, htarget.builder] at hrun
  have hready : Ready 1 (fun _ => Word.null) target.ptr 0 (0 + 1) s.arena := by
    refine ⟨htarget.wf, htarget.live, ?_⟩
    intro k _ hk
    obtain rfl : k = 0 := by omega
    exact htarget.null
  have hfilled := (@copyPtr_null ε machine a id block (fun _ => True) 1 (fun _ => .word StructPtr.empty)
    _ target.ptr other.ptr s depth 0 hother.segment hnull hother.inside hready (Nat.le_refl _) rfl
    trivial).of_ok hrun
  have hholds := (hfilled.done 0 (Nat.le_refl _) Nat.one_pos).holds
  exact not_sameNulls ⟨block, hother.segment, hnull⟩ hholds (by decide)

/-- The size of a new struct is computed without a change. -/
lemma builderSize_ends {value : StructReader} (hvalue : value.In a id block) (size : CopySize StructSize) :
    (size.builderSize value s : Outcome ε CopyState _).Ends (fun _ => True) fun _ t => t = s := by
  have hslice : ∀ pos len, ((ObjectReader.inSegment a id block).sectionSlice pos len s :
      Outcome ε CopyState _).Ends (fun _ => True) fun _ t => t = s :=
    fun pos len => (sectionSlice_ends len).imp (fun _ _ => trivial) fun _ _ h => h.1
  cases size with
  | fromValue | minimum => rfl
  | canonical =>
    refine @ends_bind _ _ _ _ _ _ value.canonicalDataLen _ (fun _ t => t = s) _ ?_ ?_
    · rw [StructReader.canonicalDataLen, hvalue.reader]
      split
      · refine ends_bind (hslice _ _) ?_
        rintro words _ rfl
        rfl
      · refine ends_bind (hslice _ _) ?_
        rintro words _ rfl
        rfl
    · rintro dataLen _ rfl
      rw [hvalue.reader]
      refine ends_bind (hslice _ _) ?_
      rintro words _ rfl
      rfl

/-- An error that is handled leaves a pointer null. -/
lemma PtrBuilder.Blank.handleErr_ends {target : PtrBuilder} {s₁ : CopyState} (h : target.Blank s.arena)
    (hgrows : Arena.Grows ∅ s.arena s₁.arena) (err : Error) :
    (machine.handleErr err s₁).Ends (fun _ => True) fun _ s' => ∀ did typed cost,
      Denotes s'.arena.toRead target.ptr.segment target.ptr.pos did typed cost →
      ∃ start, typed = .struct ⟨start, StructSize.empty⟩ := by
  rw [handleErr]
  rcases machine.handler s₁.reported err with _ | e
  · intro did typed cost hdenotes
    have hword := hgrows.word_eq h.live (Set.notMem_empty _)
    have hslot := h.live.trans_le (hgrows.used_le _)
    have hholds := (rests_holds hslot (Set.mem_univ target.ptr)).holds
    rw [hword, h.null] at hholds
    exact hdenotes.of_null hholds
  · trivial

/-- The pointers of a struct are set to those of the source. -/
lemma setStruct_ends {target : PtrBuilder} {value : StructReader} (htarget : target.Blank s.arena)
    (hvalue : value.In a id block) (size : CopySize StructSize) :
    (target.trySetStruct clearCap machine clearDepth depth value size s).Ends (fun _ => True)
      fun _ s' => ∀ k csize start did cost, k < value.ptrsLen → k < csize.ptrs →
        Denotes s'.arena.toRead target.ptr.segment target.ptr.pos did (.struct ⟨start, csize⟩) cost →
        CopyOf { machine with canonical := size.isCanonical } a (s'.reported = s.reported)
          (Arena.fresh s.arena s'.arena) s'.arena.toRead id (value.ptrsStart + k) did
          (start + csize.data + k) := by
  rw [PtrBuilder.trySetStruct]
  refine ends_bind (builderSize_ends hvalue size) ?_
  rintro copy s rfl
  rw [bind_of_ok htarget.clear, htarget.builder]
  have htotal := copy.total_eq
  rcases @ObjectBuilder.allocStruct_reserves s.arena ⟨target.ptr.segment⟩ target.ptr htarget.wf rfl
      htarget.live copy with ⟨start, arena', hrun, hinside, hsome, hlays⟩ | ⟨n, arena', hrun, hgrows⟩
  · obtain ⟨s₁, hbuild, rfl, hreported⟩ := @building_of_ok ε _ _ _ _ _ hrun
    rw [bind_of_ok hbuild]
    have hready := hlays.reserves.ready hinside
    have hat : StructBuilder.At ⟨⟨start.segment⟩, start, start.offset copy.data, copy.data * 8, copy.ptrs⟩
        copy s₁.arena := ⟨hready.wf, rfl, rfl, rfl, rfl, hinside⟩
    have hcopy := @StructBuilder.tryCopyWithCaveats_filled ε
      { machine with canonical := size.isCanonical } a id block _ copy value s₁ depth hat hvalue
    refine hcopy.imp (fun _ _ => trivial) fun _ s' hfilled => ?_
    obtain ⟨-, -, hrests⟩ := hlays.reserves.filled htarget.live hsome hreported
      (hfilled.congr_old fun k hle hlt => hready.word_eq k hle hlt)
    obtain ⟨⟨cost, hdenotes⟩, ⟨segment, hsegment, -⟩, hdone⟩ := hrests.holds
    intro k csize start' did cost' hk hk' hdenotes'
    obtain ⟨rfl, htyped⟩ := hdenotes.unique hsegment hdenotes'
    cases htyped
    have hptr := hdone (copy.data + k) (by omega)
    rw [StructBuilder.plan, if_neg (by omega), Nat.add_sub_cancel_left, if_pos hk] at hptr
    rw [Nat.add_assoc]
    exact copyOf_of_done hptr
  · -- nothing was allocated, and the pointer stays null
    obtain ⟨s₁, hbuild, rfl, hreported⟩ := @building_of_error ε _ _ _ _ _ hrun
    rw [bind_of_ok hbuild]
    refine (htarget.handleErr_ends hgrows _).imp (fun _ h => h) fun _ s' hnull => ?_
    intro k csize start did cost _ hk hdenotes
    obtain ⟨start', htyped⟩ := hnull did _ cost hdenotes
    cases htyped
    exact absurd hk (Nat.not_lt_zero k)

/-- The element size of a new list is computed without a change. -/
lemma listBuilderSize_ends {value : ListReader} (hvalue : value.In a id block) (size : CopySize ElementSize) :
    (size.listBuilderSize value s : Outcome ε CopyState _).Ends (fun _ => True) fun r t => t = s ∧
      ∀ dstSize, r = .ok dstSize → value.elementSize.CopiesTo dstSize := by
  cases size with
  | fromValue => exact ⟨rfl, fun dstSize h => Or.inl (Except.ok.inj h)⟩
  | minimum size =>
    rw [CopySize.listBuilderSize]
    rcases hupgrade : value.elementSize.upgradeTo size with _ | upgrade
    · exact ⟨rfl, by rintro _ ⟨⟩⟩
    · exact ⟨rfl, fun _ h => Except.ok.inj h ▸ ElementSize.copiesTo_of_upgrade hupgrade⟩
  | canonical =>
    refine @ends_bind _ _ _ _ _ _ value.canonicalElementSize _
      (fun dstSize t => t = s ∧ value.elementSize.CopiesTo dstSize) _ ?_ ?_
    · rw [ListReader.canonicalElementSize.eq_def, hvalue.reader]
      rcases hsize : value.elementSize with _ | _ | _ | _ | _ | _ | _ | elem
      case inlineComposite =>
        refine ends_bind (Q := fun _ t => t = s) ?_ ?_
        · refine ends_bind (Q := fun _ t => t = s) ?_ ?_
          · rw [stepByUnchecked, Prog.assert]
            split
            · rfl
            · trivial
          · rintro _ _ rfl
            exact (maxCanonicalStructSize_ends elem _).imp (fun _ _ => trivial) fun _ _ h => h.1
        · rintro copy _ rfl
          exact ⟨rfl, Or.inr ⟨copy, rfl, Or.inl ⟨elem, rfl⟩⟩⟩
      all_goals exact ⟨rfl, Or.inl rfl⟩
    · rintro dstSize _ ⟨rfl, hcopies⟩
      exact ⟨rfl, fun _ h => Except.ok.inj h ▸ hcopies⟩

/-- Pointer `k` of element `i` of a list that was set is a copy, if it is in words that were
allocated. -/
def ElementSet (machine : CopyMachine ε) (a : ReadArena) (id : SegmentId) (target : PtrBuilder)
    (i k src : ℕ) (s s' : CopyState) : Prop :=
  ∀ dsize count start did cost pos,
    Denotes s'.arena.toRead target.ptr.segment target.ptr.pos did (.list ⟨start, dsize, count⟩) cost →
    dsize.PtrAt i k pos → ⟨did, start + pos⟩ ∈ Arena.fresh s.arena s'.arena →
    CopyOf machine a (s'.reported = s.reported) (Arena.fresh s.arena s'.arena) s'.arena.toRead id src did
      (start + pos)

/-- A list that was not set has no pointers. -/
lemma elementSet_of_failed {target : PtrBuilder} {s₁ : CopyState} (htarget : target.Blank s.arena)
    (hgrows : Arena.Grows ∅ s.arena s₁.arena) (err : Error) (machine' : CopyMachine ε) (i k src : ℕ) :
    (machine.handleErr err s₁).Ends (fun _ => True) fun _ s' =>
      ElementSet machine' a id target i k src s s' := by
  refine (htarget.handleErr_ends hgrows err).imp (fun _ h => h) fun _ s' hnull => ?_
  intro dsize count start did cost pos' hdenotes
  obtain ⟨_, htyped⟩ := hnull did _ cost hdenotes
  cases htyped

/-- The pointers of a list that fits into a segment are copied. -/
lemma setList_of_fits {target : PtrBuilder} {value : ListReader} (htarget : target.Blank s.arena)
    (hvalue : value.In a id block) {dstSize : ElementSize} {elem copy : StructSize} {i k : ℕ}
    (helem : value.elementSize.asStruct = some elem) (hcopy : dstSize.asStruct = some copy)
    (hcopies : value.elementSize.CopiesTo dstSize) (hi : i < value.elementCount.get) (hk : k < elem.ptrs)
    {start : SegmentRef} {len : ObjectLen} {s₁ : CopyState}
    (hlen : len.get = dstSize.exactWords value.elementCount)
    (hinside : start.pos + (Shape.list dstSize value.elementCount).words ≤
      s₁.arena.used start.segment)
    (hsome : s₁.arena.word target.ptr ≠ Word.null) (hreported : s₁.reported = s.reported)
    (hreserves : Reserves s.arena target.ptr start (Shape.list dstSize value.elementCount).words
      (fun a => ¬ (Shape.list dstSize value.elementCount).Full ∧ (∃ cost, Denotes a target.ptr.segment
        target.ptr.pos start.segment ((Shape.list dstSize value.elementCount).content start.pos) cost) ∨
        (Shape.list dstSize value.elementCount).Full ∧
          ∀ id typed cost, ¬ Denotes a target.ptr.segment target.ptr.pos id typed cost) s₁.arena) :
    ((if len.get = 0 then pure () else copyToUpgradedList (machine.copyPtr depth) value.ptr value.reader
      value.elementSize start ⟨start.segment⟩ dstSize value.elementCount : CopyM ε Unit) s₁).Ends
      (fun _ => True) fun _ s' => ElementSet machine a id target i k
        (value.ptr + (elem.total * i + elem.data + k)) s s' := by
  have hblock := hvalue.inside
  rw [Shape.words_asStruct helem] at hblock
  have hlt := block.len.get_lt
  have hmax := U29.maxValue_eq
  have hwords : (Shape.list dstSize value.elementCount).words = copy.total * value.elementCount.get :=
    Shape.words_asStruct hcopy
  have hready := hreserves.ready hinside
  rw [hwords] at hready
  -- the words of the list are those that it denotes
  suffices hfilled : Outcome.Ends (fun _ => True) (fun _ s' => Filled machine a id
      (elem.listPlan copy block.data value.ptr fun _ => Word.null) (fun _ => Word.null) start 0
      (copy.total * value.elementCount.get) s₁ s') _ by
    refine hfilled.imp (fun _ h => h) fun _ s' hfilled => ?_
    rw [← hwords] at hfilled
    obtain ⟨-, -, hrests⟩ := hreserves.filled htarget.live hsome hreported hfilled
    obtain ⟨hdenotes, ⟨segment, hsegment, -⟩, hdone⟩ := hrests.holds
    rintro dsize count start' did cost pos' hdenotes' ⟨copy', hcopy', hk', rfl⟩ -
    rcases hdenotes with ⟨-, cost', hdenotes⟩ | ⟨-, hrefuses⟩
    · obtain ⟨rfl, htyped⟩ := hdenotes.unique hsegment hdenotes'
      cases htyped
      obtain rfl := Option.mem_unique hcopy hcopy'
      have htotal := copy.total_eq
      have hnext := copy.mul_succ_le hi
      have hptr := hdone (copy.total * i + (copy.data + k)) (by omega)
      rw [StructSize.listPlan_element (by omega), StructSize.plan, if_neg (by omega),
        Nat.add_sub_cancel_left, if_pos hk] at hptr
      have hcopied := copyOf_of_done hptr
      rwa [show value.ptr + elem.total * i + elem.data + k = value.ptr + (elem.total * i + elem.data + k) by
        omega, show (start.offset (copy.total * i + (copy.data + k))).pos =
        start.pos + (copy.total * i + copy.data + k) from congrArg (start.pos + ·) (Nat.add_assoc _ _ _).symm]
        at hcopied
    · exact absurd hdenotes' (hrefuses _ _ _)
  by_cases hzero : len.get = 0
  · rw [if_pos_apply hzero]
    have hnone : copy.total * value.elementCount.get = 0 := by
      rw [hlen] at hzero
      rw [← hwords]
      exact Nat.eq_zero_of_add_eq_zero_right hzero
    refine hready.kept (Nat.le_refl _) fun k _ hk => ?_
    rw [hnone] at hk
    exact absurd hk (Nat.not_lt_zero k)
  · rw [if_neg_apply hzero, hvalue.reader]
    exact copyToUpgradedList_rows hvalue.segment helem hcopy hcopies (by omega) (fun _ => trivial) hready
      fun i _ j _ _ => copies_any id _

/-- An allocation that fails leaves the words as they were. -/
lemma grows_of_allocList_error {self : ObjectBuilder} {slot : SegmentRef} {arena arena' : Arena} {e : Error}
    (hwf : arena.Wf) (hself : self.segment = slot.segment) (hslot : slot.pos < arena.used slot.segment)
    {size : ElementSize} {count : ElementCount} (hrun : self.allocList slot size count arena = .error e arena') :
    arena.Grows ∅ arena' := by
  rw [ObjectBuilder.allocList] at hrun
  dsimp only at hrun
  by_cases htotal : (size.totalWords count.get + if size.isInlineComposite then 1 else 0) % 2 ^ 32 = 0
  · rw [if_pos htotal, bind_of_ok (ObjectBuilder.setPtr_apply hwf hslot _)] at hrun
    cases hrun
  rw [if_neg htotal] at hrun
  rcases hlen : AllocLen.new ((size.totalWords count.get + if size.isInlineComposite then 1 else 0) % 2 ^ 32)
    with _ | len
  · rw [hlen] at hrun
    cases hrun
    exact .refl hwf
  rw [hlen, okOr_some, pure_bind_eq] at hrun
  rcases bind_eq_error.1 hrun with herror | ⟨words, arena₁, hwords, hrest⟩
  · exfalso
    split at herror
    · generalize U29.new (size.totalWords count.get) = words at herror
      cases words <;> cases herror
    · cases herror
  clear hrun
  obtain rfl : arena = arena₁ := by
    split at hwords
    · exact (unwrap_eq_ok.1 hwords).2
    · exact (pure_eq_ok.1 hwords).2
  rcases ObjectBuilder.placeList_cases hwf hself hslot size count words len with
    ⟨place, arena₂, hplace, -⟩ | ⟨n, arena₂, hplace, hgrows⟩
  · exfalso
    rw [bind_of_ok hplace] at hrest
    rcases bind_eq_error.1 hrest with herror | ⟨start, arena₃, -, herror⟩
    · -- a tag is written, or it is not
      cases size with
      | inlineComposite =>
        rcases bind_eq_error.1 herror with herror | ⟨_, _, -, herror⟩
        · rw [ObjectBuilder.setPtr, Arena.writeSection] at herror
          split at herror <;> cases herror
        · cases herror
      | _ => cases herror
    · cases herror
  · rw [bind_of_error hplace] at hrest
    cases hrest
    exact hgrows

/-- A list whose size wraps around to zero is not allocated, and any other one has words. -/
lemma allocList_ends {self : ObjectBuilder} {slot : SegmentRef} (hwf : s.arena.Wf)
    (hself : self.segment = slot.segment) (hslot : slot.pos < s.arena.used slot.segment)
    (size : ElementSize) (count : ElementCount) :
    ((building (self.allocList slot size count) : CopyM ε _) s).Ends (fun _ => True) fun result s₁ =>
      (∀ e, result = .error e → Arena.Grows ∅ s.arena s₁.arena) ∧
        ∀ start len builder, result = .ok (start, len, builder) → len.get = 0 →
          Arena.fresh s.arena s₁.arena = ∅ := by
  refine ends_zoom_attempt ?_ ?_ fun _ _ => trivial
  · rintro ⟨start, len, builder⟩ arena' hrun
    refine ⟨by rintro _ ⟨⟩, fun start' len' builder' heq hzero => ?_⟩
    cases heq
    rw [ObjectBuilder.allocList] at hrun
    dsimp only at hrun
    by_cases htotal : (size.totalWords count.get + if size.isInlineComposite then 1 else 0) % 2 ^ 32 = 0
    · rw [if_pos htotal, bind_of_ok (ObjectBuilder.setPtr_apply hwf hslot _)] at hrun
      cases hrun
      show Arena.fresh s.arena (s.arena.write slot 1 _) = ∅
      rw [Arena.fresh_write]
      exact Set.sdiff_self
    · rw [if_neg htotal] at hrun
      obtain ⟨alloc, _, -, hrun⟩ := bind_eq_ok.1 hrun
      obtain ⟨_, _, -, hrun⟩ := bind_eq_ok.1 hrun
      obtain ⟨_, _, -, hrun⟩ := bind_eq_ok.1 hrun
      obtain ⟨_, _, -, hrun⟩ := bind_eq_ok.1 hrun
      obtain ⟨heq, -⟩ := pure_eq_ok.1 hrun
      cases heq
      exact absurd hzero (Nat.pos_iff_ne_zero.1 alloc.get_pos)
  · rintro e arena' hrun
    exact ⟨fun _ _ => grows_of_allocList_error hwf hself hslot hrun, by rintro _ _ _ ⟨⟩⟩

/-- The pointers of a list are set to those of the source. -/
lemma setList_ends {target : PtrBuilder} {value : ListReader} (htarget : target.Blank s.arena)
    (hvalue : value.In a id block) (size : CopySize ElementSize) {i k pos : ℕ}
    (hi : i < value.elementCount.get) (hpos : value.elementSize.PtrAt i k pos) :
    (target.trySetList clearCap machine clearDepth depth value size s).Ends (fun _ => True)
      fun _ s' => ElementSet { machine with canonical := size.isCanonical } a id target i k
        (value.ptr + pos) s s' := by
  obtain ⟨elem, helem, hk, rfl⟩ := hpos
  rw [PtrBuilder.trySetList, bind_of_ok htarget.clear]
  refine ends_bind (listBuilderSize_ends hvalue size) ?_
  rintro (err | dstSize) s ⟨rfl, hcopies⟩
  · exact elementSet_of_failed htarget (.refl htarget.wf) err _ i k _
  replace hcopies := hcopies dstSize rfl
  obtain ⟨copy, hcopy⟩ := hcopies.asStruct helem
  dsimp only
  rw [htarget.builder]
  by_cases hfits : dstSize.exactWords value.elementCount < 2 ^ 29
  · rcases @ObjectBuilder.allocList_reserves s.arena ⟨target.ptr.segment⟩ target.ptr htarget.wf rfl
        htarget.live _ _ hfits with
      ⟨start, len, arena', hrun, hlen, hinside, hsome, hreserves⟩ | ⟨n, arena', hrun, hgrows⟩
    · obtain ⟨s₁, hbuild, rfl, hreported⟩ := @building_of_ok ε _ _ _ _ _ hrun
      rw [bind_of_ok hbuild]
      exact setList_of_fits htarget hvalue helem hcopy hcopies hi hk hlen hinside hsome hreported hreserves
    · obtain ⟨s₁, hbuild, rfl, -⟩ := @building_of_error ε _ _ _ _ _ hrun
      rw [bind_of_ok hbuild]
      exact elementSet_of_failed htarget hgrows _ _ i k _
  by_cases hlarge : 2 ^ 29 ≤ dstSize.exactWords value.elementCount % 2 ^ 32
  · -- a size that is refused
    obtain ⟨s₁, hbuild, harena, -⟩ := @building_of_error ε _ _ _ _ _
      (@allocList_of_large dstSize value.elementCount s.arena ⟨target.ptr.segment⟩ target.ptr hlarge)
    rw [bind_of_ok hbuild]
    exact elementSet_of_failed htarget (harena.symm ▸ .refl htarget.wf) _ _ i k _
  · -- a size that wraps around
    have hinside := hvalue.inside
    rw [Shape.words_asStruct helem] at hinside
    have hlt := block.len.get_lt
    have hwraps : U29.maxValue < copy.total * value.elementCount.get := by
      have hmax := U29.maxValue_eq
      rcases hcopies.rows helem hcopy with rfl | ⟨-, rfl⟩ | ⟨-, rfl, -⟩
      · -- a list of the same size is not larger than the source
        have hexact : value.elementSize.exactWords value.elementCount ≤
            (Shape.list value.elementSize value.elementCount).words + 1 := by
          refine Nat.add_le_add_left ?_ _
          split <;> decide
        rw [Shape.words_asStruct helem] at hexact
        omega
      · rw [exactWords_inlineComposite, Nat.mul_comm] at hfits hlarge
        omega
      · rw [exactWords_inlineComposite, Nat.mul_comm] at hfits hlarge
        omega
    refine ends_bind (@allocList_ends ε s ⟨target.ptr.segment⟩ target.ptr htarget.wf rfl htarget.live
      dstSize value.elementCount) ?_
    rintro (e | ⟨start, len, builder⟩) s₁ ⟨herror, hzero⟩
    · exact elementSet_of_failed htarget (herror e rfl) e _ i k _
    dsimp only
    by_cases hempty : len.get = 0
    · rw [if_pos_apply hempty]
      intro dsize count start' did cost pos _ _ hfresh
      rw [hzero start len builder rfl hempty] at hfresh
      exact hfresh.elim
    · rw [if_neg_apply hempty]
      refine (copyToUpgradedList_large helem hcopy hcopies ?_ ?_ hwraps).imp (fun _ h => h)
        fun _ _ h => h.elim
      · intro hempty
        cases hsrc : value.elementSize with
        | inlineComposite size =>
          rw [hsrc] at hempty helem
          cases helem
          rw [eq_of_beq hempty] at hk
          exact Nat.not_lt_zero k hk
        | pointer =>
          rw [hsrc] at hempty
          cases hempty
        | _ =>
          rw [hsrc] at helem
          cases helem
      · rintro rfl
        obtain rfl := Option.mem_unique helem hcopy
        have hmax := U29.maxValue_eq
        omega

/-- The words of a list of nulls are there to be filled. -/
lemma ListBuilder.At.ready {target : ListBuilder} {copy : StructSize} (h : target.At s.arena)
    (hzeroed : target.Zeroed s.arena) (hcopy : target.elementSize.asStruct = some copy) :
    Ready (copy.total * target.elementCount.get) (fun _ => Word.null) target.ptr 0
      (copy.total * target.elementCount.get) s.arena := by
  have hwords : (Shape.list target.elementSize target.elementCount).words =
      copy.total * target.elementCount.get := Shape.words_asStruct hcopy
  rw [← hwords]
  exact ⟨h.wf, h.inside, fun k _ hk => hzeroed k hk⟩

/-- The pointers of a list that is copied over are those of the source. -/
lemma listCopyFrom_copyOf {target : ListBuilder} {other : ListReader} (htarget : target.At s.arena)
    (hzeroed : target.Zeroed s.arena) (hother : other.In a id block) {i k pos pos' : ℕ}
    (hrun : target.tryCopyFrom machine depth other s = .ok () s') (hi : i < other.elementCount.get)
    (hpos : other.elementSize.PtrAt i k pos) (hpos' : target.elementSize.PtrAt i k pos') :
    CopyOf machine a (s'.reported = s.reported) (Arena.fresh s.arena s'.arena) s'.arena.toRead id
      (other.ptr + pos) target.ptr.segment (target.ptr.pos + pos') := by
  obtain ⟨size, hsize, hk, rfl⟩ := hpos
  obtain ⟨copy, hcopy, hk', rfl⟩ := hpos'
  rw [ListBuilder.tryCopyFrom] at hrun
  obtain ⟨_, _, hassert, hrun⟩ := bind_eq_ok.1 hrun
  obtain ⟨hupgrade, rfl⟩ := assert_eq_ok.1 hassert
  obtain ⟨_, _, hassert, hrun⟩ := bind_eq_ok.1 hrun
  obtain ⟨hle, rfl⟩ := assert_eq_ok.1 hassert
  rw [hother.reader, htarget.builder] at hrun
  have hready := htarget.ready hzeroed hcopy
  have htotal := Nat.mul_le_mul_right target.elementCount.get
    (ElementSize.total_le_of_fits hupgrade hsize hcopy).total
  have hlt := hready.lt
  have hmax := U29.maxValue_eq
  have hfilled := (copyToUpgradedList_rows hother.segment hsize hcopy
    (ElementSize.copiesTo_of_fits hupgrade) (by omega) (fun _ => trivial) hready
    fun i _ j _ _ => copies_any id _).of_ok hrun
  exact hfilled.copyOf (by omega) hk hk'

section Ranges

variable {target : ListBuilder} {other : ListReader} {targetStart otherStart len : ElementCount}
  {size copy : StructSize}

/-- A range that was copied is inside of both lists. -/
lemma listCopyRanges_run (hother : other.In a id block) (htarget : target.At s.arena)
    (hrun : target.tryCopyRanges machine depth targetStart other otherStart len s = .ok () s') :
    target.elementSize.upgradeTo other.elementSize = some target.elementSize ∧
      (len.get = 0 ∧ s = s' ∨ targetStart.get + len.get ≤ target.elementCount.get ∧
        otherStart.get + len.get ≤ other.elementCount.get ∧ ∃ words wordCount,
          copyElementsAt (machine.copyPtr depth) other.ptr (.inSegment a id block) other.elementSize words
            wordCount otherStart target.ptr ⟨target.ptr.segment⟩ target.elementSize targetStart len s =
            .ok () s') := by
  rw [ListBuilder.tryCopyRanges] at hrun
  obtain ⟨_, _, hassert, hrun⟩ := bind_eq_ok.1 hrun
  obtain ⟨hupgrade, rfl⟩ := assert_eq_ok.1 hassert
  refine ⟨hupgrade, ?_⟩
  by_cases hlen : len = U29.zero
  · rw [if_pos_apply hlen] at hrun
    exact Or.inl ⟨congrArg U29.get hlen, (pure_eq_ok.1 hrun).2⟩
  · rw [if_neg_apply hlen] at hrun
    obtain ⟨_, _, hassert, hrun⟩ := bind_eq_ok.1 hrun
    obtain ⟨hdst, rfl⟩ := assert_eq_ok.1 hassert
    obtain ⟨_, _, hassert, hrun⟩ := bind_eq_ok.1 hrun
    obtain ⟨hsrc, rfl⟩ := assert_eq_ok.1 hassert
    rw [hother.reader, htarget.builder] at hrun
    obtain ⟨wordCount, _, hunwrap, hrun⟩ := bind_eq_ok.1 hrun
    obtain ⟨-, rfl⟩ := unwrap_eq_ok.1 hunwrap
    obtain ⟨words, _, hslice, hrun⟩ := bind_eq_ok.1 hrun
    have hstate := ((sectionSlice_ends wordCount.get).of_ok hslice).1
    rw [hstate] at hrun
    exact Or.inr ⟨hdst, hsrc, words, wordCount.get, hrun⟩

/-- The part of a list of nulls that a range goes to. -/
lemma ListBuilder.At.range_ready (h : target.At s.arena) (hzeroed : target.Zeroed s.arena)
    (hcopy : target.elementSize.asStruct = some copy)
    (hdst : targetStart.get + len.get ≤ target.elementCount.get) :
    copy.total * targetStart.get < 2 ^ 29 ∧ Ready (copy.total * len.get) (fun _ => Word.null)
      (target.ptr.offset (copy.total * targetStart.get)) 0 (copy.total * len.get) s.arena := by
  have hready := h.ready hzeroed hcopy
  have hlt := hready.lt
  have hinside := hready.inside
  have hsum : copy.total * targetStart.get + copy.total * len.get ≤
      copy.total * target.elementCount.get := by
    rw [← Nat.mul_add]
    exact Nat.mul_le_mul_left _ hdst
  refine ⟨by omega, h.wf, ?_, ?_⟩
  · show target.ptr.pos + copy.total * targetStart.get + copy.total * len.get ≤
      s.arena.used target.ptr.segment
    omega
  · intro k _ hk
    rw [offset_offset]
    exact hready.word_eq _ (Nat.zero_le _) (by omega)

/-- The part of the source that is copied. -/
lemma ListReader.In.range_inside (hother : other.In a id block) (hsize : other.elementSize.asStruct = some size)
    (hsrc : otherStart.get + len.get ≤ other.elementCount.get) :
    other.ptr + size.total * (otherStart.get + len.get) ≤ block.len.get := by
  have hinside := hother.inside
  rw [Shape.words_asStruct hsize] at hinside
  have hle : size.total * (otherStart.get + len.get) ≤ size.total * other.elementCount.get :=
    Nat.mul_le_mul_left _ hsrc
  omega

/-- Ranges of pointers that come to a list of structs. -/
lemma listCopyRanges_present (hother : other.In a id block) (htarget : target.At s.arena)
    (hzeroed : target.Zeroed s.arena) (hpointer : other.elementSize = .pointer)
    (hcopy : target.elementSize = .inlineComposite copy) (hlen : 0 < len.get)
    (hrun : target.tryCopyRanges machine depth targetStart other otherStart len s = .ok () s') :
    0 < copy.ptrs ∧ Filled machine a id (copy.presentPlan block.data (other.ptr + otherStart.get) fun _ => Word.null)
      (fun _ => Word.null) (target.ptr.offset (copy.total * targetStart.get)) 0 (copy.total * len.get) s s' := by
  obtain ⟨hupgrade, ⟨hzero, -⟩ | ⟨hdst, hsrc, words, wordCount, hrun⟩⟩ := listCopyRanges_run hother htarget hrun
  · omega
  have hcopies := ElementSize.copiesTo_of_fits hupgrade
  have hasStruct : target.elementSize.asStruct = some copy := by
    rw [hcopy]
    rfl
  obtain ⟨hlt, hready⟩ := htarget.range_ready hzeroed hasStruct hdst
  have hone : (⟨0, 1, by decide, by decide⟩ : StructSize).total = 1 := rfl
  have hinside : other.ptr + (⟨0, 1, by decide, by decide⟩ : StructSize).total *
      (otherStart.get + len.get) ≤ block.len.get := hother.range_inside (by
    rw [hpointer]
    rfl) hsrc
  rw [hpointer, hcopy] at hcopies hrun
  have hptrs : 0 < copy.ptrs := by
    rcases hcopies with heq | ⟨copy', heq, ⟨_, hne⟩ | hfits⟩
    · cases heq
    · cases hne
    · cases heq
      exact hfits
  have hstructs : copyToStructsAt (machine.copyPtr depth) other.ptr (.inSegment a id block) .pointer words
      otherStart target.ptr ⟨target.ptr.segment⟩ copy targetStart len s = .ok () s' := hrun
  rw [hone, Nat.one_mul] at hinside
  exact ⟨hptrs, (copyToStructsAt_pointer hother.segment hptrs hinside hlt hready trivial
    fun i _ => copies_any id _).of_ok hstructs⟩

/-- The pointers of a range are those of the source, as long as no null pointer comes to a struct. -/
lemma listCopyRanges_copyOf (hother : other.In a id block) (htarget : target.At s.arena)
    (hzeroed : target.Zeroed s.arena)
    (hrun : target.tryCopyRanges machine depth targetStart other otherStart len s = .ok () s')
    (hsome : other.elementSize = .pointer → target.elementSize ≠ .pointer → ∀ i < len.get,
      block.data (other.ptr + otherStart.get + i) ≠ Word.null) {i k pos pos' : ℕ} (hi : i < len.get)
    (hpos : other.elementSize.PtrAt (otherStart.get + i) k pos)
    (hpos' : target.elementSize.PtrAt (targetStart.get + i) k pos') :
    CopyOf machine a (s'.reported = s.reported) (Arena.fresh s.arena s'.arena) s'.arena.toRead id
      (other.ptr + pos) target.ptr.segment (target.ptr.pos + pos') := by
  obtain ⟨size, hsize, hk, rfl⟩ := hpos
  obtain ⟨copy, hcopy, hk', rfl⟩ := hpos'
  obtain ⟨hupgrade, ⟨hzero, -⟩ | ⟨hdst, hsrc, words, wordCount, helements⟩⟩ :=
    listCopyRanges_run hother htarget hrun
  · omega
  obtain ⟨hlt, hready⟩ := htarget.range_ready hzeroed hcopy hdst
  have hinside := hother.range_inside hsize hsrc
  have hsrcEq : size.total * (otherStart.get + i) = size.total * otherStart.get + size.total * i :=
    Nat.mul_add _ _ _
  have hdstEq : copy.total * (targetStart.get + i) = copy.total * targetStart.get + copy.total * i :=
    Nat.mul_add _ _ _
  have hpos : other.ptr + size.total * otherStart.get + (size.total * i + size.data + k) =
      other.ptr + (size.total * (otherStart.get + i) + size.data + k) := by omega
  have hpos' : (target.ptr.offset (copy.total * targetStart.get)).pos + (copy.total * i + copy.data + k) =
      target.ptr.pos + (copy.total * (targetStart.get + i) + copy.data + k) := by
    show target.ptr.pos + copy.total * targetStart.get + _ = _
    omega
  have hrows (hkind : other.elementSize = .pointer ∧ target.elementSize = .pointer ∨
      other.elementSize = .inlineComposite size ∧ target.elementSize = .inlineComposite copy) :
      CopyOf machine a (s'.reported = s.reported) (Arena.fresh s.arena s'.arena) s'.arena.toRead id
        (other.ptr + (size.total * (otherStart.get + i) + size.data + k)) target.ptr.segment
        (target.ptr.pos + (copy.total * (targetStart.get + i) + copy.data + k)) := by
    have hfilled := (copyElementsAt_rows hother.segment hsize hcopy hkind hinside hlt hready
      fun i _ j _ _ => copies_any id _).of_ok helements
    have hcopied := hfilled.copyOf hi hk hk'
    rwa [hpos, hpos'] at hcopied
  rcases (ElementSize.copiesTo_of_fits hupgrade).rows hsize hcopy with heq | hstructs | ⟨hpointer, hstruct, -⟩
  · refine hrows ?_
    rw [← heq] at hcopy ⊢
    cases hkind : other.elementSize with
    | pointer => exact Or.inl ⟨rfl, rfl⟩
    | inlineComposite elem =>
      rw [hkind] at hsize hcopy
      cases hsize
      cases hcopy
      exact Or.inr ⟨rfl, rfl⟩
    | _ =>
      rw [hkind] at hsize
      cases hsize
  · exact hrows (Or.inr hstructs)
  · -- pointers that come to structs
    have hpresent := hsome hpointer (by
      rw [hstruct]
      exact fun h => nomatch h) i hi
    obtain ⟨hptrs, hfilled⟩ := listCopyRanges_present hother htarget hzeroed hpointer hstruct (by omega) hrun
    rw [hpointer] at hsize
    cases hsize
    obtain rfl : k = 0 := Nat.lt_one_iff.1 hk
    have htotal := copy.total_eq
    have hnext := copy.mul_succ_le hi
    have hdone := (hfilled.done (copy.total * i + copy.data) (Nat.zero_le _) (by omega)).holds
    rw [StructSize.presentPlan_ptr hptrs, if_neg hpresent] at hdone
    have hcopied := copyOf_of_done hdone
    rw [show ((target.ptr.offset (copy.total * targetStart.get)).offset (copy.total * i + copy.data)).pos =
      target.ptr.pos + (copy.total * (targetStart.get + i) + copy.data + 0) by rw [← hpos']; rfl] at hcopied
    have hsource : other.ptr + otherStart.get + i = other.ptr + (1 * (otherStart.get + i) + 0 + 0) := by omega
    rw [hsource] at hcopied
    exact hcopied

/-- A null pointer that comes to a struct is not null there. -/
lemma listCopyRanges_not_null (hother : other.In a id block) (htarget : target.At s.arena)
    (hzeroed : target.Zeroed s.arena)
    (hrun : target.tryCopyRanges machine depth targetStart other otherStart len s = .ok () s')
    (hpointer : other.elementSize = .pointer) (hne : target.elementSize ≠ .pointer) {i : ℕ} (hi : i < len.get)
    (hnull : block.data (other.ptr + otherStart.get + i) = Word.null) :
    ∃ pos', target.elementSize.PtrAt (targetStart.get + i) 0 pos' ∧
      s'.arena.toRead.Holds target.ptr.segment (target.ptr.pos + pos') StructPtr.empty := by
  obtain ⟨hupgrade, -⟩ := listCopyRanges_run hother htarget hrun
  rcases ElementSize.copiesTo_of_fits hupgrade with heq | ⟨copy, hstruct, -⟩
  · exact absurd (heq.symm.trans hpointer) hne
  obtain ⟨hptrs, hfilled⟩ := listCopyRanges_present hother htarget hzeroed hpointer hstruct (by omega) hrun
  have htotal := copy.total_eq
  have hnext := copy.mul_succ_le hi
  have hdone := (hfilled.done (copy.total * i + copy.data) (Nat.zero_le _) (by omega)).holds
  rw [StructSize.presentPlan_ptr hptrs, if_pos hnull] at hdone
  refine ⟨_, ⟨copy, by rw [hstruct]; rfl, hptrs, rfl⟩, ?_⟩
  have hdstEq : copy.total * (targetStart.get + i) = copy.total * targetStart.get + copy.total * i :=
    Nat.mul_add _ _ _
  rw [show target.ptr.pos + (copy.total * (targetStart.get + i) + copy.data + 0) =
    ((target.ptr.offset (copy.total * targetStart.get)).offset (copy.total * i + copy.data)).pos by
      show _ = target.ptr.pos + copy.total * targetStart.get + (copy.total * i + copy.data)
      omega]
  exact hdone

end Ranges

/-- **Copies are null where their sources are**, just when no null pointer is copied without asking
whether it is null. -/
theorem CopyCall.sameNulls_iff {call : CopyCall} (hfits : call.Fits a id block s.arena)
    (hrun : call.run machine clearCap clearDepth depth s = .ok () s') :
    (∀ src did dpos, call.Pairs s.arena s'.arena src did dpos →
      SameNulls (s'.reported = s.reported ∧ ∀ index, ¬ machine.Answers index none) a id src
        s'.arena.toRead did dpos) ↔ ¬ call.CopiesNull block := by
  cases call with
  | copyFrom target other =>
    obtain ⟨htarget, hother⟩ := hfits
    constructor
    · intro h hnull
      exact copyFrom_not_sameNulls htarget hother hnull hrun (h _ _ _ ⟨rfl, rfl, rfl⟩)
    · rintro hsome _ _ _ ⟨rfl, rfl, rfl⟩
      exact copyFrom_sameNulls htarget hother hsome hrun
  | setStruct target value size =>
    obtain ⟨htarget, hvalue⟩ := hfits
    refine iff_of_true ?_ (fun h => h)
    rintro _ _ _ ⟨k, csize, start, cost, hk, hk', hdenotes, rfl, rfl⟩
    exact ((setStruct_ends htarget hvalue size).of_ok hrun k csize start _ cost hk hk' hdenotes).sameNulls
      fun h => h
  | setList target value size =>
    obtain ⟨htarget, hvalue⟩ := hfits
    refine iff_of_true ?_ (fun h => h)
    rintro _ _ _ ⟨i, k, start, dsize, count, cost, pos, pos', hi, hdenotes, hpos, hpos', rfl, rfl, hfresh⟩
    exact ((setList_ends htarget hvalue size hi hpos).of_ok hrun dsize count start _ cost pos' hdenotes hpos'
      hfresh).sameNulls fun h => h
  | listCopyFrom target other =>
    obtain ⟨htarget, hzeroed, hother⟩ := hfits
    refine iff_of_true ?_ (fun h => h)
    rintro _ _ _ ⟨i, k, pos, pos', hi, hpos, hpos', rfl, rfl, rfl⟩
    exact (listCopyFrom_copyOf htarget hzeroed hother hrun hi hpos hpos').sameNulls fun h => h
  | listCopyRanges target targetStart other otherStart len =>
    obtain ⟨htarget, hzeroed, hother⟩ := hfits
    constructor
    · rintro h ⟨hpointer, hne, i, hi, hnull⟩
      obtain ⟨pos', hpos', hpresent⟩ :=
        listCopyRanges_not_null hother htarget hzeroed hrun hpointer hne hi hnull
      have hpos : other.elementSize.PtrAt (otherStart.get + i) 0 (1 * (otherStart.get + i) + 0 + 0) :=
        ⟨⟨0, 1, by decide, by decide⟩, by rw [hpointer]; rfl, Nat.one_pos, rfl⟩
      refine not_sameNulls ⟨block, hother.segment, ?_⟩ hpresent (by decide)
        (h _ _ _ ⟨i, 0, _, pos', hi, hpos, hpos', rfl, rfl, rfl⟩)
      rwa [show other.ptr + (1 * (otherStart.get + i) + 0 + 0) = other.ptr + otherStart.get + i by omega]
    · rintro hnot _ _ _ ⟨i, k, pos, pos', hi, hpos, hpos', rfl, rfl, rfl⟩
      refine (listCopyRanges_copyOf hother htarget hzeroed hrun ?_ hi hpos hpos').sameNulls fun h => h
      intro hpointer hne j hj hnull
      exact hnot ⟨hpointer, hne, j, hj, hnull⟩

end Calls

/-- A message of one null pointer, and the copy of such a pointer to its root. -/
def blankRootArena : Arena := wordsArena [] AllocLen.one

def blankRootCopy : CopyCall := .copyFrom .root ⟨0, .inSegment blankArena 0 blankSegment, 64⟩

lemma fits_blankRootCopy : blankRootCopy.Fits blankArena 0 blankSegment blankRootArena :=
  ⟨⟨wf_wordsArena (by decide) (by decide), rfl, by decide, rfl⟩, rfl, rfl, by decide⟩

lemma run_blankRootCopy :
    ∃ s', blankRootCopy.run lenientMachine (fun _ _ => .ok ()) 1 1 ⟨none, blankRootArena, [], []⟩ =
      .ok () s' ∧ s'.reported = [] ∧ s'.arena.word ⟨0, 0⟩ = StructPtr.empty :=
  ⟨_, rfl, rfl, rfl⟩

theorem CopyCall.sameNulls_iff_blankRootCopy :
    ∃ s', blankRootCopy.run lenientMachine (fun _ _ => .ok ()) 1 1 ⟨none, blankRootArena, [], []⟩ =
        .ok () s' ∧
      ((∀ src did dpos, blankRootCopy.Pairs blankRootArena s'.arena src did dpos →
        SameNulls (s'.reported = [] ∧ ∀ index, ¬ lenientMachine.Answers index none) blankArena 0 src
          s'.arena.toRead did dpos) ↔ ¬ blankRootCopy.CopiesNull blankSegment) := by
  obtain ⟨s', hrun, -, -⟩ := run_blankRootCopy
  exact ⟨s', hrun, CopyCall.sameNulls_iff fits_blankRootCopy hrun⟩

/-- The copy of a null pointer is an empty struct. -/
theorem CopyCall.not_sameNulls :
    blankRootCopy.Fits blankArena 0 blankSegment blankRootArena ∧
      ∃ s', blankRootCopy.run lenientMachine (fun _ _ => .ok ()) 1 1 ⟨none, blankRootArena, [], []⟩ =
          .ok () s' ∧ s'.reported = [] ∧ s'.arena.word ⟨0, 0⟩ = StructPtr.empty ∧
        ∃ src did dpos, blankRootCopy.Pairs blankRootArena s'.arena src did dpos ∧
          ¬ SameNulls (s'.reported = [] ∧ ∀ index, ¬ lenientMachine.Answers index none) blankArena 0 src
            s'.arena.toRead did dpos := by
  obtain ⟨s', hrun, hreported, hempty⟩ := run_blankRootCopy
  refine ⟨fits_blankRootCopy, s', hrun, hreported, hempty, _, _, _, ⟨rfl, rfl, rfl⟩, ?_⟩
  exact copyFrom_not_sameNulls fits_blankRootCopy.1 fits_blankRootCopy.2 rfl hrun

end Recapn.Ptr

/-
# Lists of lists

An element of a list of lists is a pointer, and setting it copies a list there.  The element size
of the copy is that of the source, upgraded to a size that has a pointer.  Only lists that have
pointers themselves can be upgraded so.
-/
import Recapn.Ptr.Adoption
import Recapn.Ptr.CopyCost

namespace Recapn.Ptr

open Recapn.Lib

/-! ## Elements that are pointers -/

namespace ListBuilder

/-- `ListBuilder::index_to_offset`, in bytes. -/
def indexToOffset (self : ListBuilder) (index : ℕ) : ℕ := self.elementSize.bits * index / 8

/-- `ListBuilder::ptr_mut_unchecked`. -/
def ptrMutUnchecked (self : ListBuilder) (index : ℕ) : PtrBuilder :=
  let dataOffset := match self.elementSize with
    | .inlineComposite size => size.data * 8
    | _ => 0
  ⟨self.ptr.offset ((self.indexToOffset index + dataOffset) / 8), self.builder⟩

/-- `try_set` of an element of a `List<AnyList>`. -/
def trySetAnyList {ε : Type} (self : ListBuilder) (clearCap : List ℕ → ℕ → Except Error Unit)
    (machine : CopyMachine ε) (clearDepth depth : ℕ) (index : ℕ) (value : ListReader) : CopyM ε Unit :=
  (self.ptrMutUnchecked index).trySetList clearCap machine clearDepth depth value (.minimum .pointer)

end ListBuilder

/-- The elements have a pointer. -/
def ElementSize.HasPtr : ElementSize → Prop
  | .pointer => True
  | .inlineComposite size => size.ptrs ≠ 0
  | _ => False

/-- The pointer of an element is in the words of the list. -/
lemma ListBuilder.At.live_ptrMutUnchecked {target : ListBuilder} {arena : Arena} {index : ℕ}
    (h : target.At arena) (hsize : target.elementSize.HasPtr) (hindex : index < target.elementCount.get) :
    (target.ptrMutUnchecked index).ptr.segment = target.ptr.segment ∧
      (target.ptrMutUnchecked index).ptr.pos < arena.used target.ptr.segment := by
  refine ⟨rfl, ?_⟩
  obtain ⟨builder, ptr, size, count⟩ := target
  have hinside := h.inside
  dsimp only at hinside hindex hsize ⊢
  cases size with
  | pointer =>
    have hwords : (Shape.list .pointer count).words = (64 * count.get + 63) / 64 := rfl
    have hpos : ((⟨builder, ptr, .pointer, count⟩ : ListBuilder).ptrMutUnchecked index).ptr.pos =
      ptr.pos + (64 * index / 8 + 0) / 8 := rfl
    omega
  | inlineComposite size =>
    have htotal := size.total_eq
    have hptrs := Nat.pos_of_ne_zero hsize
    have hpos : ((⟨builder, ptr, .inlineComposite size, count⟩ : ListBuilder).ptrMutUnchecked index).ptr.pos =
      ptr.pos + (size.total * 64 * index / 8 + size.data * 8) / 8 := rfl
    have hnext := size.mul_succ_le hindex
    rw [Shape.words_structs] at hinside
    rw [Nat.mul_right_comm] at hpos
    omega
  | _ => exact hsize.elim

/-! ## The size of the copy -/

section Sizes

variable {ε σ : Type} {value : ListReader}

lemma listBuilderSize_of_hasPtr (h : value.elementSize.HasPtr) :
    (CopySize.listBuilderSize value (.minimum .pointer) : Prog ε σ _) =
      pure (.ok value.elementSize) := by
  obtain ⟨ptr, reader, count, limit, size⟩ := value
  cases size with
  | pointer => rfl
  | inlineComposite size =>
    have hupgrade : (ElementSize.inlineComposite size).upgradeTo .pointer = some (.inlineComposite size) := by
      show (if size.ptrs = 0 then none else some (ElementSize.inlineComposite size)) = _
      exact if_neg h
    unfold CopySize.listBuilderSize
    dsimp only
    rw [hupgrade]
  | _ => exact h.elim

lemma listBuilderSize_of_not_hasPtr (h : ¬ value.elementSize.HasPtr) :
    (CopySize.listBuilderSize value (.minimum .pointer) : Prog ε σ _) =
      pure (.error (failUpgrade value.elementSize.asPtrSize .pointer)) := by
  obtain ⟨ptr, reader, count, limit, size⟩ := value
  cases size with
  | pointer => exact absurd trivial h
  | inlineComposite size =>
    have hupgrade : (ElementSize.inlineComposite size).upgradeTo .pointer = none := by
      show (if size.ptrs = 0 then none else some (ElementSize.inlineComposite size)) = _
      exact if_pos (not_not.1 h)
    unfold CopySize.listBuilderSize
    dsimp only
    rw [hupgrade]
    rfl
  | _ => rfl

end Sizes

/-! ## Setting a null pointer -/

/-- Nothing that is reported in the run hinders it: no read limit is exceeded, and no allocation
fails. -/
def Unhindered {ε : Type} (o : Outcome ε CopyState Unit) (s : CopyState) : Prop :=
  match o with
  | .ok _ s' | .error _ s' => ∀ new, s'.reported = new ++ s.reported → ∀ e ∈ new, ¬ e.Hinders
  | .halt _ => True

/-- Capabilities apart, matching values are the same. -/
lemma Value.Matches.eq_of_caps {ε : Type} {machine : CopyMachine ε} {v w : Value} (h : v.Matches machine w)
    (hcaps : v.caps = 0) : w = v := by
  induction h with
  | null => rfl
  | capability | refused => exact absurd hcaps Nat.one_ne_zero
  | object _ ih =>
    congr 1
    funext k
    exact ih k (Value.caps_ptrs hcaps k)

/-- Nothing hinders a copy that there is room for. -/
lemma unhindered_of_uses {ε : Type} {handler : ErrorHandler ε} {o : Outcome ε CopyState Unit} {g words : ℕ} {s : CopyState}
    (h : o.Uses (copyUsage handler g) words s) (hlimiter : s.limiter = none)
    (hroom : s.arena.used g + words ≤ s.arena.len g) : Unhindered o s := by
  rcases o with ⟨u, s'⟩ | ⟨e, s'⟩ | r
  · obtain ⟨-, hreported, -⟩ := h.fits (Or.inl hlimiter) hroom
    intro new hnew e he
    rw [hreported, List.self_eq_append_left] at hnew
    exact absurd (hnew ▸ he) List.not_mem_nil
  · exact absurd hroom (Nat.not_le.2 (h.full (Or.inl hlimiter)))
  · trivial

/-- What is only reported because the run is hindered is not reported. -/
lemma Reports.eq_of_unhindered {l l' : List Error} (h : Reports l l')
    (hfree : ∀ new, l' = new ++ l → ∀ e ∈ new, ¬ e.Hinders) : l' = l := by
  obtain ⟨new, rfl, hnew⟩ := h
  rcases new with _ | ⟨e, new⟩
  · rfl
  · exact absurd (hnew e List.mem_cons_self) (hfree _ rfl e List.mem_cons_self)

/-- A copy that nothing hinders succeeds. -/
lemma ok_of_unhindered {ε : Type} {handler : ErrorHandler ε} {o : Outcome ε CopyState Unit} {g words : ℕ} {s : CopyState}
    (h : o.Uses (copyUsage handler g) words s) (hfree : Unhindered o s) :
    ∃ s', o = .ok () s' ∧ s'.reported = s.reported := by
  rcases o with ⟨⟨⟩, s'⟩ | ⟨e, s'⟩ | r
  · exact ⟨s', rfl, h.reports.eq_of_unhindered hfree⟩
  · exact absurd (h.reports.eq_of_unhindered hfree) h.reported
  · exact h.elim

/-- The list is the one below a pointer of a message, which reads as the value.  It has no
capabilities. -/
structure ListReader.ReadFrom (value : ListReader) (a : ReadArena) (id : SegmentId) (src : ℕ) (v : Value)
    (id' : SegmentId) (block : Segment) : Prop where
  reader : value.reader = .inSegment a id' block
  block : a id' = some block
  denotes : ∃ cost, Denotes a id src id'
    ((Shape.list value.elementSize value.elementCount).content value.ptr) cost
  reads : Reads a id src v
  caps : v.caps = 0

section SetList

open CopyMachine Prog

variable {ε : Type} {machine : CopyMachine ε} {clearCap : List ℕ → ℕ → Except Error Unit} {depth : ℕ}
  {a : ReadArena} {id id' : SegmentId} {src : ℕ} {block : Segment} {value : ListReader} {v : Value}
  {target : PtrBuilder} {s s' : CopyState}

/-- The pointer is not null. -/
lemma ListReader.ReadFrom.some (h : value.ReadFrom a id src v id' block) :
    ∃ segment, a id = some segment ∧ segment.data src ≠ Word.null := by
  obtain ⟨_, segment, hsegment, -⟩ := h.reads.holds
  obtain ⟨cost, hdenotes⟩ := h.denotes
  exact ⟨segment, hsegment, hdenotes.ne_null hsegment fun _ h => nomatch h⟩

lemma ListReader.ReadFrom.slotsCost (h : value.ReadFrom a id src v id' block) (hcanonical : machine.canonical = false) :
    ∀ᶠ depth in Filter.atTop, SlotsCost machine.handler (machine.copyPtr depth) a id' value.ptr
      (.list value.elementSize value.elementCount) v := by
  obtain ⟨segment, hsegment, hsome⟩ := h.some
  obtain ⟨cost, hdenotes⟩ := h.denotes
  obtain ⟨f, hf, rfl⟩ := (reads_object_iff hsegment hsome hdenotes h.block).1 ⟨v, h.reads, (rfl : v = v)⟩
  exact eventually_slotsCost fun k =>
    eventually_costs hcanonical (hf k.1 k.2.1 k.2.2) (Value.caps_ptrs h.caps k)

/-- A list that has pointers is copied as a list below a pointer is. -/
lemma trySetList_of_hasPtr (hblank : target.Blank s.arena) (hreader : value.reader = .inSegment a id' block)
    (hsize : value.elementSize.HasPtr) :
    target.trySetList clearCap machine depth depth value (.minimum .pointer) s =
      ({ machine with canonical := false } : CopyMachine ε).copyListContent
        (({ machine with canonical := false } : CopyMachine ε).copyPtr depth) (.inSegment a id' block)
        ⟨value.ptr, value.elementSize, value.elementCount⟩ target.ptr ⟨target.ptr.segment⟩ s := by
  obtain ⟨start, reader, count, limit, size⟩ := value
  obtain rfl : reader = .inSegment a id' block := hreader
  have hempty : ¬ size.isEmpty = true := by
    cases size with
    | inlineComposite size =>
      intro h
      obtain rfl := eq_of_beq h
      exact hsize rfl
    | pointer => exact Bool.false_ne_true
    | _ => exact hsize.elim
  have hcopy : ∀ (dst : SegmentRef) (builder : ObjectBuilder), copyToUpgradedList
      (({ machine with canonical := false } : CopyMachine ε).copyPtr depth) start (.inSegment a id' block)
        size dst builder size count =
      copyList (({ machine with canonical := false } : CopyMachine ε).copyPtr depth) start
        (.inSegment a id' block) dst builder size count := by
    intro dst builder
    rw [copyToUpgradedList.eq_def, if_neg hempty, if_pos rfl]
  rw [PtrBuilder.trySetList, bind_of_ok hblank.clear, listBuilderSize_of_hasPtr hsize, pure_bind_eq,
    hblank.builder, copyListContent]
  refine congrFun (congrArg (building _ >>= ·) (funext fun alloc => ?_)) s
  rcases alloc with err | ⟨dst, words, builder⟩
  · rfl
  · exact congrArg (fun copy => if words.get = 0 then pure () else copy) (hcopy dst builder)

/-- A list that has no pointers is not copied: the handler is asked about an incompatible upgrade. -/
lemma trySetList_of_not_hasPtr (hblank : target.Blank s.arena) (hsize : ¬ value.elementSize.HasPtr) :
    target.trySetList clearCap machine depth depth value (.minimum .pointer) s =
      machine.handleErr (failUpgrade value.elementSize.asPtrSize .pointer) s := by
  rw [PtrBuilder.trySetList, bind_of_ok hblank.clear, listBuilderSize_of_not_hasPtr hsize, pure_bind_eq]

/-- Setting the pointer to a list that has pointers uses the words of the list. -/
lemma uses_trySetList (hblank : target.Blank s.arena) (hvalue : value.ReadFrom a id src v id' block)
    (hcosts : SlotsCost machine.handler (({ machine with canonical := false } : CopyMachine ε).copyPtr depth) a id' value.ptr
      (.list value.elementSize value.elementCount) v) (hsize : value.elementSize.HasPtr) :
    (target.trySetList clearCap machine depth depth value (.minimum .pointer) s).Uses
      (copyUsage machine.handler target.ptr.segment) v.words s := by
  obtain ⟨segment, hsegment, hsome⟩ := hvalue.some
  obtain ⟨cost, hdenotes⟩ := hvalue.denotes
  have huses := @uses_copyListContent ε { machine with canonical := false } a id block _ src
    (fun k => (v.ptr k).words) target.ptr s id' value.ptr cost value.elementSize value.elementCount hdenotes
    hvalue.block hcosts hblank.wf hblank.live
  obtain ⟨f, -, rfl⟩ := (reads_object_iff hsegment hsome hdenotes hvalue.block).1
    ⟨v, hvalue.reads, (rfl : v = v)⟩
  rw [Value.words_object, trySetList_of_hasPtr hblank hvalue.reader hsize]
  exact huses

/-- A pointer that was set is the copy of the one that the list is below. -/
lemma trySetList_copied (hblank : target.Blank s.arena) (hvalue : value.ReadFrom a id src v id' block)
    (hsize : value.elementSize.HasPtr)
    (hrun : target.trySetList clearCap machine depth depth value (.minimum .pointer) s = .ok () s')
    (hreported : s'.reported = s.reported) : Arena.Grows {target.ptr} s.arena s'.arena ∧
      CopyOf { machine with canonical := false } a True (Arena.fresh s.arena s'.arena) s'.arena.toRead id
        src target.ptr.segment target.ptr.pos := by
  obtain ⟨segment, hsegment, hsome⟩ := hvalue.some
  obtain ⟨cost, hdenotes⟩ := hvalue.denotes
  rw [trySetList_of_hasPtr hblank hvalue.reader hsize] at hrun
  have hcopied := (copyListContent_copied (H := fun _ => True) hsegment hsome hdenotes hvalue.block
    (Shape.copied_false _ _ _ _ _).symm (fun k _ _ => copies_any id' (value.ptr + k)) hblank.wf
    hblank.live).of_ok hrun
  have hreplaces := hcopied.replaces.holds
  rw [hblank.null] at hreplaces
  exact ⟨hcopied.grows, hreplaces.copyOf.mono (fun _ => hreported) (Set.Subset.refl _)⟩

/-- The handler may go on, and the arena stays as it is. -/
lemma handleErr_eq_ok {e : Error} (h : machine.handleErr e s = .ok () s') : s'.arena = s.arena := by
  unfold handleErr at h
  split at h
  · cases h
    rfl
  · cases h

/-- A pointer stays null if the list has no pointers. -/
lemma not_reads_of_not_hasPtr (hblank : target.Blank s.arena) (hvalue : value.ReadFrom a id src v id' block)
    (hsize : ¬ value.elementSize.HasPtr)
    (hrun : target.trySetList clearCap machine depth depth value (.minimum .pointer) s = .ok () s') :
    ¬ Reads s'.arena.toRead target.ptr.segment target.ptr.pos v := by
  intro hreads'
  rw [trySetList_of_not_hasPtr hblank hsize] at hrun
  rw [handleErr_eq_ok hrun] at hreads'
  obtain ⟨dsegment, hdsegment, -, hdata⟩ :=
    Arena.toRead_eq_some (Arena.lt_length_of_used (Nat.zero_lt_of_lt hblank.live))
  have hnull : dsegment.data target.ptr.pos = Word.null := (hdata _).trans hblank.null
  -- a list is not null
  obtain rfl := hreads'.unique (.null hdsegment hnull)
  obtain ⟨segment, hsegment, hsome⟩ := hvalue.some
  cases hvalue.reads with
  | null hsegment' hnull' =>
    obtain rfl := Option.mem_unique hsegment hsegment'
    exact hsome hnull'

/-- What a null pointer was set to reads as the list just when the list has pointers and there is no
list in it that fills a segment. -/
lemma trySetList_reads_iff (hblank : target.Blank s.arena) (hvalue : value.ReadFrom a id src v id' block)
    (hcosts : SlotsCost machine.handler (({ machine with canonical := false } : CopyMachine ε).copyPtr depth) a id' value.ptr
      (.list value.elementSize value.elementCount) v)
    (hfree : Unhindered (target.trySetList clearCap machine depth depth value (.minimum .pointer) s) s) :
    (∃ s', target.trySetList clearCap machine depth depth value (.minimum .pointer) s = .ok () s' ∧
      Reads s'.arena.toRead target.ptr.segment target.ptr.pos v) ↔
        value.elementSize.HasPtr ∧ v.Roomy := by
  by_cases hsize : value.elementSize.HasPtr
  · obtain ⟨s', hrun, hreported⟩ := ok_of_unhindered (uses_trySetList hblank hvalue hcosts hsize) hfree
    obtain ⟨-, hcopy⟩ := trySetList_copied hblank hvalue hsize hrun hreported
    constructor
    · rintro ⟨s₁, hrun', hreads'⟩
      cases hrun.symm.trans hrun'
      exact ⟨hsize, hcopy.roomy hvalue.reads rfl hreads'⟩
    · rintro ⟨-, hroomy⟩
      obtain ⟨w, hreads', hmatches⟩ := hcopy.reads hvalue.reads rfl hroomy
      obtain rfl := hmatches.eq_of_caps hvalue.caps
      exact ⟨s', hrun, hreads'⟩
  · refine iff_of_false ?_ fun h => hsize h.1
    rintro ⟨s', hrun, hreads'⟩
    exact not_reads_of_not_hasPtr hblank hvalue hsize hrun hreads'

/-- No other word changes. -/
lemma trySetList_grows (hblank : target.Blank s.arena) (hvalue : value.ReadFrom a id src v id' block)
    (hcosts : SlotsCost machine.handler (({ machine with canonical := false } : CopyMachine ε).copyPtr depth) a id' value.ptr
      (.list value.elementSize value.elementCount) v)
    (hfree : Unhindered (target.trySetList clearCap machine depth depth value (.minimum .pointer) s) s)
    (hrun : target.trySetList clearCap machine depth depth value (.minimum .pointer) s = .ok () s') :
    Arena.Grows {target.ptr} s.arena s'.arena := by
  by_cases hsize : value.elementSize.HasPtr
  · obtain ⟨s₁, hrun', hreported⟩ := ok_of_unhindered (uses_trySetList hblank hvalue hcosts hsize) hfree
    cases hrun.symm.trans hrun'
    exact (trySetList_copied hblank hvalue hsize hrun hreported).1
  · rw [trySetList_of_not_hasPtr hblank hsize] at hrun
    rw [handleErr_eq_ok hrun]
    exact .refl hblank.wf

/-- Another error may be reported. -/
lemma unhindered_handleErr {e : Error} (he : ¬ e.Hinders) : Unhindered (machine.handleErr e s) s := by
  have hnew : ∀ new, e :: s.reported = new ++ s.reported → ∀ e' ∈ new, ¬ e'.Hinders := by
    intro new hnew e' he'
    obtain rfl : [e] = new := List.append_cancel_right hnew
    exact List.mem_singleton.1 he' ▸ he
  unfold handleErr
  split
  · exact hnew
  · exact hnew

/-- With room for the list, nothing hinders it. -/
lemma trySetList_unhindered (hblank : target.Blank s.arena) (hvalue : value.ReadFrom a id src v id' block)
    (hcosts : SlotsCost machine.handler (({ machine with canonical := false } : CopyMachine ε).copyPtr depth) a id' value.ptr
      (.list value.elementSize value.elementCount) v) (hlimiter : s.limiter = none)
    (hroom : s.arena.used target.ptr.segment + v.words ≤ s.arena.len target.ptr.segment) :
    Unhindered (target.trySetList clearCap machine depth depth value (.minimum .pointer) s) s := by
  by_cases hsize : value.elementSize.HasPtr
  · have huses := @uses_trySetList ε machine clearCap depth a id id' src block value v target s hblank hvalue
      hcosts hsize
    exact unhindered_of_uses huses hlimiter hroom
  · rw [trySetList_of_not_hasPtr hblank hsize]
    exact unhindered_handleErr fun h => h

end SetList

/-! ## Setting an element -/

section Elements

open CopyMachine Prog

/-- Readers of an arena that uses at least as much agree on the words that are the same. -/
lemma agree_toRead_iff {a a' : Arena} {W : Set SegmentRef} (hused : ∀ i, a.used i ≤ a'.used i)
    (hwf : a.Wf) (hW : ∀ r ∈ W, r.pos < a.used r.segment) :
    World.Agree W a.toRead a'.toRead ↔ ∀ r ∈ W, a'.word r = a.word r := by
  have hread : ∀ {i : ℕ}, 0 < a.used i → ∃ segment segment', a.toRead i = some segment ∧
      a'.toRead i = some segment' ∧ segment.len.get ≤ segment'.len.get ∧
      (∀ pos, segment.data pos = a.word ⟨i, pos⟩) ∧ ∀ pos, segment'.data pos = a'.word ⟨i, pos⟩ := by
    intro i hi
    obtain ⟨segment, hsegment, hlen, hdata⟩ := Arena.toRead_eq_some (Arena.lt_length_of_used hi)
    obtain ⟨segment', hsegment', hlen', hdata'⟩ :=
      Arena.toRead_eq_some (Arena.lt_length_of_used (hi.trans_le (hused i)))
    exact ⟨segment, segment', hsegment, hsegment', by rw [hlen, hlen']; exact hused i, hdata, hdata'⟩
  constructor
  · intro hagree r hr
    obtain ⟨segment, segment', hsegment, hsegment', -, hdata, hdata'⟩ := hread (Nat.zero_lt_of_lt (hW r hr))
    obtain ⟨segment'', hsegment'', -, hsame⟩ := hagree r.segment segment hsegment
    obtain rfl := Option.mem_unique hsegment' hsegment''
    rw [← hdata' r.pos, ← hdata r.pos]
    exact hsame r.pos hr
  · intro hsame i segment hsegment
    obtain ⟨segment₁, segment', hsegment₁, hsegment', hlen, hdata, hdata'⟩ :=
      hread (hwf.used_pos (Arena.lt_length_of_toRead hsegment))
    obtain rfl := Option.mem_unique hsegment hsegment₁
    exact ⟨segment', hsegment', hlen, fun pos hpos => by rw [hdata, hdata', hsame _ hpos]⟩

variable {ε : Type} {clearCap : List ℕ → ℕ → Except Error Unit} {depth : ℕ} {self : PtrBuilder}
  {a a₁ : Arena} {machine : CopyMachine ε} {s : CopyState}

/-- Whoever asks for it, a pointer is cleared in the same way. -/
lemma PtrBuilder.clear_eq_ok : (self.clear clearCap depth : Prog ε Arena Unit) a = .ok () a₁ ↔
    (self.clear clearCap depth : BuildM Unit) a = .ok () a₁ := by
  unfold PtrBuilder.clear
  rcases self.tryClear (⟨ignoreErrors, clearCap⟩ : Nullifier Empty) depth ⟨a, [], []⟩
    with ⟨⟨⟩, s⟩ | ⟨e, s⟩ | r
  · constructor <;> rintro ⟨⟩ <;> rfl
  · cases e
  · exact iff_of_false (fun h => nomatch h) fun h => nomatch h

/-- Clearing ends with an arena, or it halts. -/
lemma PtrBuilder.clear_cases (self : PtrBuilder) (clearCap : List ℕ → ℕ → Except Error Unit) (depth : ℕ)
    (s : CopyState) :
    (∃ a₁, (self.clear clearCap depth : BuildM Unit) s.arena = .ok () a₁ ∧
      (writing (self.clear clearCap depth) : CopyM ε Unit) s = .ok () { s with arena := a₁ }) ∨
    (∀ a₁, (self.clear clearCap depth : BuildM Unit) s.arena ≠ .ok () a₁) ∧
      ∃ r, (writing (self.clear clearCap depth) : CopyM ε Unit) s = .halt r := by
  unfold writing zoom PtrBuilder.clear
  rcases self.tryClear (⟨ignoreErrors, clearCap⟩ : Nullifier Empty) depth ⟨s.arena, [], []⟩
    with ⟨⟨⟩, cleared⟩ | ⟨e, cleared⟩ | r
  · exact Or.inl ⟨cleared.arena, rfl, rfl⟩
  · cases e
  · exact Or.inr ⟨fun _ h => (nomatch h), r, rfl⟩

/-- Clearing the pointer leaves the words as they are. -/
def PtrBuilder.ClearLeaves (self : PtrBuilder) (clearCap : List ℕ → ℕ → Except Error Unit) (depth : ℕ)
    (W : Set SegmentRef) (a : Arena) : Prop :=
  ∃ a₁, (self.clear clearCap depth : BuildM Unit) a = .ok () a₁ ∧ ∀ r ∈ W, a₁.word r = a.word r

/-- A pointer that was cleared can be set. -/
lemma PtrBuilder.blank_of_clear (hwf : a.Wf) (hbuilder : self.builder = ⟨self.ptr.segment⟩)
    (hlive : self.ptr.pos < a.used self.ptr.segment)
    (h : (self.clear clearCap depth : BuildM Unit) a = .ok () a₁) : self.Blank a₁ := by
  have hblanks := PtrBuilder.clear_blanks h
  refine ⟨hblanks.wf hwf, hbuilder, ?_, PtrBuilder.clear_null h⟩
  rw [hblanks.used_eq]
  exact hlive

/-- Setting a pointer is clearing it and setting the null pointer. -/
lemma PtrBuilder.trySetList_of_clear {value : ListReader} {size : CopySize ElementSize}
    (hclear : (writing (self.clear clearCap depth) : CopyM ε Unit) s = .ok () { s with arena := a₁ })
    (hblank : self.Blank a₁) :
    self.trySetList clearCap machine depth depth value size s =
      self.trySetList clearCap machine depth depth value size { s with arena := a₁ } := by
  have hdone : (writing (self.clear clearCap depth) : CopyM ε Unit) { s with arena := a₁ } =
      .ok () { s with arena := a₁ } := PtrBuilder.Blank.clear hblank
  exact bind_of_eq (hclear.trans hdone.symm)

variable {m : ReadArena} {id id' : SegmentId} {segment block : Segment} {src n index : ℕ}
  {expected : Option PtrElementSize} {value : ListReader} {l l' : Limiter} {v : Value} {target : ListBuilder}
  {W : Set SegmentRef}

/-- The list that is read is the one that the pointer denotes. -/
lemma readFrom_of_toList (hsegment : m id = some segment)
    (h : (⟨src, .inSegment m id segment, n⟩ : PtrReader).toList expected l = .ok (some value) l')
    (hreads : Reads m id src v) (hcaps : v.caps = 0) :
    ∃ id' block, value.ReadFrom m id src v id' block := by
  rcases ite_eq_ok.1 h with ⟨-, hpure⟩ | ⟨-, hrun⟩
  · cases (pure_eq_ok.1 hpure).1
  obtain ⟨limit, l₁, -, hread⟩ := bind_eq_ok.1 hrun
  obtain ⟨⟨reader, content⟩, l₂, hlist, hpure⟩ := bind_eq_ok.1 hread
  obtain ⟨hvalue, -⟩ := pure_eq_ok.1 hpure
  obtain rfl := Option.some.inj hvalue
  obtain ⟨⟨reader₁, found⟩, l₃, hlocation, htry⟩ := bind_eq_ok.1 hlist
  obtain ⟨mid, segment₁, pads, hsegment₁, rfl, hlocates, -⟩ := (locationOf_eq_ok hsegment).1 hlocation
  obtain ⟨ptr, l₄, hptr, hcontent⟩ := bind_eq_ok.1 htry
  rcases ite_eq_ok.1 hptr with ⟨hkind, hpure⟩ | ⟨-, hthrow⟩
  · obtain ⟨rfl, -⟩ := pure_eq_ok.1 hpure
    obtain ⟨id', block, words, hblock, rfl, hdescribes, -⟩ :=
      (readAsListContent_eq_ok hsegment₁ hkind).1 hcontent
    exact ⟨id', block, rfl, hblock, ⟨_, mid, found, pads, words, hlocates, hdescribes, rfl⟩, hreads, hcaps⟩
  · exact (throw_eq_ok.1 hthrow).elim

/-- The element is set to a list that reads as the value, and readers find the words of `W`, and all
that rests on them, as before. -/
def ListBuilder.Stores (target : ListBuilder) (clearCap : List ℕ → ℕ → Except Error Unit)
    (machine : CopyMachine ε) (depth index : ℕ) (value : ListReader) (v : Value) (W : Set SegmentRef)
    (s : CopyState) : Prop :=
  ∃ s', target.trySetAnyList clearCap machine depth depth index value s = .ok () s' ∧
    Reads s'.arena.toRead (target.ptrMutUnchecked index).ptr.segment (target.ptrMutUnchecked index).ptr.pos v ∧
    World.Agree W s.arena.toRead s'.arena.toRead

/-- Setting an element does what clearing its pointer and copying the list there do. -/
lemma ListBuilder.stores_iff (htarget : target.At s.arena) (hsize : target.elementSize.HasPtr)
    (hindex : index < target.elementCount.get) (hvalue : value.ReadFrom m id src v id' block)
    (hcosts : SlotsCost machine.handler (({ machine with canonical := false } : CopyMachine ε).copyPtr depth) m id' value.ptr
      (.list value.elementSize value.elementCount) v)
    (hfree : Unhindered (target.trySetAnyList clearCap machine depth depth index value s) s)
    (hW : ∀ r ∈ W, r.pos < s.arena.used r.segment ∧ r ≠ (target.ptrMutUnchecked index).ptr) :
    target.Stores clearCap machine depth index value v W s ↔
      (value.elementSize.HasPtr ∧ v.Roomy) ∧
        (target.ptrMutUnchecked index).ClearLeaves clearCap depth W s.arena := by
  obtain ⟨-, hlive⟩ := htarget.live_ptrMutUnchecked hsize hindex
  unfold ListBuilder.Stores ListBuilder.trySetAnyList at *
  rcases @PtrBuilder.clear_cases ε (target.ptrMutUnchecked index) clearCap depth s with
    ⟨a₁, hclear, hwriting⟩ | ⟨hhalts, r, hwriting⟩
  · have hblanks := PtrBuilder.clear_blanks hclear
    have hblank := PtrBuilder.blank_of_clear htarget.wf htarget.builder hlive hclear
    have hW₁ : ∀ r ∈ W, r.pos < a₁.used r.segment := fun r hr => by
      rw [hblanks.used_eq]
      exact (hW r hr).1
    rw [PtrBuilder.trySetList_of_clear hwriting hblank] at hfree ⊢
    have hiff := @trySetList_reads_iff ε machine clearCap depth m id id' src block value v
      (target.ptrMutUnchecked index) { s with arena := a₁ } hblank hvalue hcosts hfree
    -- after the pointer was cleared, no word of `W` changes
    have hsame : ∀ s', (target.ptrMutUnchecked index).trySetList clearCap machine depth depth value
        (.minimum .pointer) { s with arena := a₁ } = .ok () s' →
          (World.Agree W s.arena.toRead s'.arena.toRead ↔ ∀ r ∈ W, a₁.word r = s.arena.word r) := by
      intro s' hrun
      have hgrows := @trySetList_grows ε machine clearCap depth m id id' src block value v
        (target.ptrMutUnchecked index) { s with arena := a₁ } s' hblank hvalue hcosts hfree hrun
      have hused : ∀ i, s.arena.used i ≤ s'.arena.used i := fun i => by
        rw [← hblanks.used_eq]
        exact hgrows.used_le i
      rw [agree_toRead_iff hused htarget.wf fun r hr => (hW r hr).1]
      refine forall₂_congr fun r hr => ?_
      rw [hgrows.word_eq (hW₁ r hr) (hW r hr).2]
    constructor
    · rintro ⟨s', hrun, hreads', hagree⟩
      exact ⟨hiff.1 ⟨s', hrun, hreads'⟩, a₁, hclear, (hsame s' hrun).1 hagree⟩
    · rintro ⟨hcopied, a₂, hclear₂, hleaves⟩
      cases hclear.symm.trans hclear₂
      obtain ⟨s', hrun, hreads'⟩ := hiff.2 hcopied
      exact ⟨s', hrun, hreads', (hsame s' hrun).2 hleaves⟩
  · refine iff_of_false ?_ fun ⟨_, a₁, h, _⟩ => hhalts a₁ h
    rintro ⟨s', hrun, -⟩
    rw [PtrBuilder.trySetList, bind_of_halt hwriting] at hrun
    cases hrun

/-- With room for the list, nothing hinders it. -/
lemma ListBuilder.unhindered_of_room (htarget : target.At s.arena) (hsize : target.elementSize.HasPtr)
    (hindex : index < target.elementCount.get) (hvalue : value.ReadFrom m id src v id' block)
    (hcosts : SlotsCost machine.handler (({ machine with canonical := false } : CopyMachine ε).copyPtr depth) m id' value.ptr
      (.list value.elementSize value.elementCount) v) (hlimiter : s.limiter = none)
    (hroom : s.arena.used target.ptr.segment + v.words ≤ s.arena.len target.ptr.segment) :
    Unhindered (target.trySetAnyList clearCap machine depth depth index value s) s := by
  obtain ⟨-, hlive⟩ := htarget.live_ptrMutUnchecked hsize hindex
  unfold ListBuilder.trySetAnyList
  rcases @PtrBuilder.clear_cases ε (target.ptrMutUnchecked index) clearCap depth s with
    ⟨a₁, hclear, hwriting⟩ | ⟨-, r, hwriting⟩
  · have hblanks := PtrBuilder.clear_blanks hclear
    have hblank := PtrBuilder.blank_of_clear htarget.wf htarget.builder hlive hclear
    have hroom₁ : a₁.used target.ptr.segment + v.words ≤ a₁.len target.ptr.segment := by
      rw [hblanks.used_eq, hblanks.len_eq]
      exact hroom
    rw [PtrBuilder.trySetList_of_clear hwriting hblank]
    exact @trySetList_unhindered ε machine clearCap depth m id id' src block value v
      (target.ptrMutUnchecked index) { s with arena := a₁ } hblank hvalue hcosts hlimiter hroom₁
  · rw [PtrBuilder.trySetList, bind_of_halt hwriting]
    trivial

/-- **An element of a list of lists is set to a list that has pointers**, and to no other one.  No
list in it may fill a segment, and clearing the old value of the element must leave the words of the
others alone, which it does if that value is a tidy tree. -/
theorem ListBuilder.stores_any_list_iff (htarget : target.At s.arena) (hsize : target.elementSize.HasPtr)
    (hindex : index < target.elementCount.get) (hsegment : m id = some segment)
    (hvalue : (⟨src, .inSegment m id segment, n⟩ : PtrReader).toList expected l = .ok (some value) l')
    (hreads : Reads m id src v) (hcaps : v.caps = 0)
    (hW : ∀ r ∈ W, r.pos < s.arena.used r.segment ∧ r ≠ (target.ptrMutUnchecked index).ptr) :
    ((∀ᶠ depth in Filter.atTop,
        Unhindered (target.trySetAnyList clearCap machine depth depth index value s) s) →
      ((∀ᶠ depth in Filter.atTop, target.Stores clearCap machine depth index value v W s) ↔
        (value.elementSize.HasPtr ∧ v.Roomy) ∧
          ∀ᶠ depth in Filter.atTop, (target.ptrMutUnchecked index).ClearLeaves clearCap depth W s.arena)) ∧
    (s.limiter = none → s.arena.used target.ptr.segment + v.words ≤ s.arena.len target.ptr.segment →
      ∀ᶠ depth in Filter.atTop,
        Unhindered (target.trySetAnyList clearCap machine depth depth index value s) s) ∧
    ∀ tree : Tree, tree.Below s.arena (target.ptrMutUnchecked index).ptr →
      tree.Separate (target.ptrMutUnchecked index).ptr → tree.Tidy s.arena →
      Disjoint W (tree.withSlot (target.ptrMutUnchecked index).ptr) → ∀ᶠ depth in Filter.atTop,
        (target.ptrMutUnchecked index).ClearLeaves clearCap depth W s.arena := by
  obtain ⟨id', block, hfrom⟩ := readFrom_of_toList hsegment hvalue hreads hcaps
  have hcosts := @ListReader.ReadFrom.slotsCost ε { machine with canonical := false } m id id' src block value v
    hfrom rfl
  refine ⟨fun hfree => ?_, fun hlimiter hroom => ?_, fun tree hbelow hseparate htidy hapart => ?_⟩
  · refine (Filter.eventually_congr ((hcosts.and hfree).mono fun depth h => ?_)).trans
      (Filter.eventually_and.trans (and_congr_left' Filter.eventually_const))
    exact ListBuilder.stores_iff htarget hsize hindex hfrom h.1 h.2 hW
  · exact hcosts.mono fun depth h =>
      ListBuilder.unhindered_of_room htarget hsize hindex hfrom h hlimiter hroom
  · obtain ⟨k, hk⟩ := clears_exactly_of_tidy (target.ptrMutUnchecked index) clearCap hbelow hseparate htidy
    refine Filter.eventually_atTop.2 ⟨k, fun depth hdepth => ?_⟩
    obtain ⟨a₁, hclear, herases⟩ := hk depth hdepth
    exact ⟨a₁, PtrBuilder.clear_eq_ok.1 hclear,
      fun r hr => herases.same r (Set.disjoint_left.1 hapart hr)⟩

end Elements

/-! ### Lists of one element -/

/-- A message of a list of one element, which is zero. -/
def oneElement (size : PtrElementSize) : ReadArena :=
  fun id => if id = 0 then some (wideSegment size ⟨1, U29.one_lt⟩ Word.null ⟨2, U29.two_lt⟩) else none

def oneElementList (size : PtrElementSize) : ListReader :=
  ⟨1, .inSegment (oneElement size) 0 (wideSegment size ⟨1, U29.one_lt⟩ Word.null ⟨2, U29.two_lt⟩), ⟨1, U29.one_lt⟩,
    0, size.toElementSize⟩

/-- A list of one list, which is null, in a message with room for more. -/
def oneListArena : Arena :=
  wordsArena [ListPtr.new I30.zero .pointer ⟨1, U29.one_lt⟩] ⟨2, Nat.two_pos, U29.two_lt⟩

def oneList : ListBuilder := ⟨⟨0⟩, ⟨0, 1⟩, .pointer, ⟨1, U29.one_lt⟩⟩

lemma at_oneList : oneList.At oneListArena := ⟨wf_wordsArena (by decide) (by decide), rfl, by decide⟩

/-- The element is set to a list of one null pointer. -/
theorem ListBuilder.stores_any_list_onePointer :
    ∀ᶠ depth in Filter.atTop, oneList.Stores (fun _ _ => .ok ()) lenientMachine depth 0
      (oneElementList .pointer) (.repeated ⟨1, by decide⟩ .null) {⟨0, 0⟩} ⟨none, oneListArena, [], []⟩ := by
  have hreads : Reads (oneElement .pointer) 0 0 (.repeated ⟨1, by decide⟩ .null) := by
    obtain ⟨_, hdenotes⟩ := @denotes_wide (oneElement .pointer) 0 .pointer ⟨1, by decide⟩ Word.null
      ⟨2, by decide⟩ rfl (by decide) (by decide)
    exact reads_repeated rfl hdenotes rfl fun k => .null rfl (data_wide k)
  have hvalue : (⟨0, .inSegment (oneElement .pointer) 0
      (wideSegment .pointer ⟨1, by decide⟩ Word.null ⟨2, by decide⟩), 1⟩ : PtrReader).toList none none =
        .ok (some (oneElementList .pointer)) none := rfl
  have hindex : 0 < oneList.elementCount.get := by decide
  obtain ⟨hiff, hroom, hleaves⟩ := ListBuilder.stores_any_list_iff (ε := Empty) (m := oneElement .pointer)
    (s := ⟨none, oneListArena, [], []⟩) (W := {⟨0, 0⟩}) at_oneList trivial hindex rfl hvalue hreads
    (Value.caps_repeated _ _) (by
      rintro r rfl
      exact ⟨by decide, by decide⟩)
  have hapart : Disjoint {⟨0, 0⟩} (Tree.null.withSlot (oneList.ptrMutUnchecked 0).ptr) := by
    refine Set.disjoint_singleton_left.2 ?_
    rintro (heq | hmem)
    · exact absurd heq (by decide)
    · exact hmem
  refine (hiff (hroom rfl ?_)).2 ⟨⟨trivial, fun h => ?_, fun _ => trivial⟩, hleaves .null ?_ trivial trivial hapart⟩
  · rw [Value.words_repeated]
    decide
  · exact h
  · exact ⟨by decide, rfl⟩

lemma blank_oneList : (oneList.ptrMutUnchecked 0).Blank oneListArena :=
  ⟨wf_wordsArena (by decide) (by decide), rfl, by decide, rfl⟩

/-- The list of one zero byte. -/
def oneByte : Value := .object (.list .byte ⟨1, U29.one_lt⟩) (fun _ => Word.null) fun _ => .null

lemma readFrom_oneByte : ∃ block, (oneElementList .byte).ReadFrom (oneElement .byte) 0 0 oneByte 0 block := by
  obtain ⟨cost, hdenotes⟩ := @denotes_wide (oneElement .byte) 0 .byte ⟨1, by decide⟩ Word.null ⟨2, by decide⟩
    rfl (by decide) (by decide)
  have hsome := hdenotes.ne_null rfl fun _ h => nomatch h
  refine ⟨_, rfl, rfl, ⟨cost, hdenotes⟩, ?_, ?_⟩
  · exact @Reads.object (oneElement .byte) 0 0 0 1 cost _ _ (.list .byte _) _ _ rfl hsome hdenotes rfl
      (fun k => data_wide k.1) fun k => absurd k.2.2 Bool.false_ne_true
  · rw [oneByte, Value.caps_object, Shape.sumPtrs_data rfl]

/-- Setting the element to the list of one byte leaves it null, although there is room for the byte. -/
theorem ListBuilder.not_stores_any_list :
    oneByte.words = 1 ∧ oneListArena.used 0 + 1 ≤ oneListArena.len 0 ∧
      (⟨0, .inSegment (oneElement .byte) 0 (wideSegment .byte ⟨1, by decide⟩ Word.null ⟨2, by decide⟩), 1⟩ :
        PtrReader).toList none none = .ok (some (oneElementList .byte)) none ∧
      Reads (oneElement .byte) 0 0 oneByte ∧ oneByte.caps = 0 ∧ ∀ depth,
        (∃ s', oneList.trySetAnyList (fun _ _ => .ok ()) lenientMachine depth depth 0 (oneElementList .byte)
          ⟨none, oneListArena, [], []⟩ = .ok () s' ∧ s'.arena.word ⟨0, 1⟩ = Word.null) ∧
        ∀ W, ¬ oneList.Stores (fun _ _ => .ok ()) lenientMachine depth 0 (oneElementList .byte) oneByte W
          ⟨none, oneListArena, [], []⟩ := by
  obtain ⟨block, hfrom⟩ := readFrom_oneByte
  refine ⟨?_, by decide, rfl, hfrom.reads, hfrom.caps, fun depth => ⟨?_, ?_⟩⟩
  · rw [oneByte, Value.words_object, Shape.sumPtrs_data rfl]
    rfl
  · refine ⟨⟨none, oneListArena, [failUpgrade .byte .pointer], []⟩, ?_, rfl⟩
    exact trySetList_of_not_hasPtr blank_oneList fun h => h
  · rintro W ⟨s', hrun, hreads, -⟩
    exact not_reads_of_not_hasPtr blank_oneList hfrom (fun h => h) hrun hreads

end Recapn.Ptr

/-
# Structs that are set

A pointer is set to a struct by laying out a new one and copying the sections of the source into
it.  The new struct may be larger: the data behind that of the source is zero then, and the
pointers behind those of the source are null.
-/
import Recapn.Ptr.AnyList
import Recapn.Ptr.FlatCopy

namespace Recapn.Ptr

open Recapn.Lib

/-- The struct can be read, with these values below its pointers, and has no capabilities. -/
structure StructReader.Carries (value : StructReader) (a : ReadArena) (id : SegmentId) (block : Segment)
    (vs : ℕ → Value) : Prop where
  inside : value.In a id block
  dataLen_le : value.dataLen ≤ 8 * (2 ^ 16 - 1)
  ptrsLen_lt : value.ptrsLen < 2 ^ 16
  reads : ∀ k < value.ptrsLen, Reads a id (value.ptrsStart + k) (vs k)
  caps : ∀ k < value.ptrsLen, (vs k).caps = 0

/-- The struct, cut off or filled up to some size. -/
def StructReader.valueAs (value : StructReader) (block : Segment) (vs : ℕ → Value) (size : StructSize) :
    Value :=
  .object (.struct size)
    (fun k => copiedWord block.data value.dataStart (min (size.data * 8) value.dataLen) Word.null k.1)
    fun k => if k.1 - size.data < value.ptrsLen then vs (k.1 - size.data) else .null

/-- The struct as it is. -/
def StructReader.value (value : StructReader) (block : Segment) (vs : ℕ → Value) : Value :=
  value.valueAs block vs value.size

section SetStruct

open CopyMachine Prog

variable {ε : Type} {machine : CopyMachine ε} {clearCap : List ℕ → ℕ → Except Error Unit} {depth : ℕ}
  {handler : ErrorHandler ε} {room : ℕ}
  {a : ReadArena} {id : SegmentId} {block : Segment} {value : StructReader} {vs : ℕ → Value}
  {size : CopySize StructSize} {dstSize : StructSize} {target : PtrBuilder} {s s' : CopyState}

lemma StructReader.ptr_valueAs {k : ℕ} (hk : k < dstSize.ptrs) :
    (value.valueAs block vs dstSize).ptr (dstSize.data + k) = if k < value.ptrsLen then vs k else .null := by
  have hslot : dstSize.data + k < (Shape.struct dstSize).words ∧
      (Shape.struct dstSize).isPtr (dstSize.data + k) = true :=
    ⟨Nat.add_lt_add_left hk _, decide_eq_true (Nat.le_add_right _ _)⟩
  refine (Value.ptr_slot ⟨dstSize.data + k, hslot⟩).trans ?_
  dsimp only
  rw [Nat.add_sub_cancel_left]

/-- The pointers that the source does not have are null. -/
lemma StructReader.words_valueAs (hle : value.ptrsLen ≤ dstSize.ptrs) :
    (value.valueAs block vs dstSize).words =
      dstSize.total + ∑ k ∈ Finset.range value.ptrsLen, (vs k).words := by
  have hsum : ∑ k ∈ Finset.range dstSize.ptrs, ((value.valueAs block vs dstSize).ptr (dstSize.data + k)).words =
      ∑ k ∈ Finset.range value.ptrsLen, (vs k).words := by
    obtain ⟨more, hmore⟩ := Nat.exists_eq_add_of_le hle
    rw [Finset.sum_congr rfl fun k hk => congrArg Value.words (ptr_valueAs (Finset.mem_range.1 hk)), hmore,
      Finset.sum_range_add, Finset.sum_congr rfl fun k hk => congrArg Value.words (if_pos (Finset.mem_range.1 hk))]
    refine (congrArg _ (Finset.sum_eq_zero fun k _ => ?_)).trans (Nat.add_zero _)
    rw [if_neg (by omega)]
    rfl
  rw [← hsum]
  exact (Value.words_object ..).trans (congrArg _ (Shape.sumPtrs_struct dstSize _))

lemma StructReader.Carries.caps_valueAs (h : value.Carries a id block vs) :
    (value.valueAs block vs dstSize).caps = 0 := by
  refine (Value.caps_object ..).trans ((Shape.sumPtrs_struct dstSize _).trans
    (Finset.sum_eq_zero fun k hk => ?_))
  refine (congrArg Value.caps (ptr_valueAs (Finset.mem_range.1 hk))).trans ?_
  split
  · exact h.caps k ‹_›
  · rfl

/-- Words of a section are written for nothing. -/
lemma uses_writing {dst : SegmentRef} {n : ℕ} (hwf : s.arena.Wf)
    (hdst : dst.pos + n ≤ s.arena.used dst.segment) (ws : ℕ → Word) (g : ℕ) :
    ((writing (Arena.writeSection dst n ws) : CopyM ε Unit) s).Uses (copyUsage handler g) 0 s := by
  have hlen := hwf.used_le_len dst.segment
  have hwrite : (writing (Arena.writeSection dst n ws) : CopyM ε Unit) s =
      .ok () { s with arena := s.arena.write dst n ws } := by
    rw [writing, zoom, Arena.writeSection, if_pos (by omega)]
  rw [hwrite]
  exact Spent.of_write hwf hdst _ g

/-- The bytes of a data section are written for nothing. -/
lemma uses_copyDataBytes {self : StructBuilder} {len : ℕ} (hwf : s.arena.Wf) (hvalue : value.In a id block)
    (hlen : len ≤ value.dataLen)
    (hself : self.dataStart.pos + (len + 7) / 8 ≤ s.arena.used self.dataStart.segment) (g : ℕ) :
    ((self.copyDataBytes value len : CopyM ε Unit) s).Uses (copyUsage handler g) 0 s := by
  have hdata := hvalue.data
  rw [StructBuilder.copyDataBytes, hvalue.reader, sectionSlice_eq_pure (by omega), pure_bind_eq]
  refine uses_bind (m := 0) (n := 0) (uses_writing hwf (by omega) _ g) fun _ t ht => ?_
  have hused := ht.used_le self.dataStart.segment
  by_cases hrest : len % 8 = 0
  · rw [if_pos_apply hrest]
    exact uses_pure (Spent.refl ht.wf g)
  · rw [if_neg_apply hrest]
    have hslot : (self.dataStart.offset (len / 8)).pos + 1 ≤
        t.arena.used (self.dataStart.offset (len / 8)).segment := by
      show self.dataStart.pos + len / 8 + 1 ≤ t.arena.used self.dataStart.segment
      omega
    have hlive := ht.wf.used_le_len (self.dataStart.offset (len / 8)).segment
    rw [setBytes_of_lt (by omega)]
    exact uses_writing ht.wf hslot _ g

/-- A struct that is copied over another one uses what its pointers use. -/
lemma uses_tryCopyWithCaveats {self : StructBuilder} {selfSize : StructSize} {ws : ℕ → ℕ}
    (hself : self.At selfSize s.arena) (hvalue : value.In a id block) (hle : value.ptrsLen ≤ selfSize.ptrs)
    (hcosts : ∀ k < value.ptrsLen, Costs machine.handler (machine.copyPtr depth) a id (value.ptrsStart + k) (ws k)) :
    (self.tryCopyWithCaveats machine depth value s).Uses (copyUsage machine.handler self.dataStart.segment)
      (∑ k ∈ Finset.range value.ptrsLen, ws k) s := by
  have htotal := selfSize.total_eq
  have hinside := hself.inside
  have hdataLen := hself.dataLen
  have hmin : min self.ptrsLen value.ptrsLen = value.ptrsLen := Nat.min_eq_right (hself.ptrsLen ▸ hle)
  have hfits := hvalue.ptrs
  rw [StructBuilder.tryCopyWithCaveats, hmin, ← Nat.zero_add (∑ k ∈ Finset.range value.ptrsLen, ws k)]
  have hleft := Nat.min_le_left self.dataLen value.dataLen
  refine uses_bind (uses_copyDataBytes hself.wf hvalue (Nat.min_le_right _ _) (by omega) _) fun _ t ht => ?_
  have hused := ht.used_le self.dataStart.segment
  rw [hvalue.reader, hself.ptrsStart, hself.builder]
  refine @uses_copyPtrSection _ _ _ _ _ _ _ _ _ (self.dataStart.offset selfSize.data) _ hvalue.segment hfits
    ht.wf ?_ hcosts
  show self.dataStart.pos + selfSize.data + value.ptrsLen ≤ t.arena.used self.dataStart.segment
  omega

/-- Setting a null pointer to a struct uses the words of the new struct, and what its pointers use. -/
lemma uses_trySetStruct {ws : ℕ → ℕ} (htarget : target.Blank s.arena) (hvalue : value.In a id block)
    (hcanonical : size.isCanonical = false)
    (hsize : (size.builderSize value : CopyM ε StructSize) = pure dstSize) (hle : value.ptrsLen ≤ dstSize.ptrs)
    (hcosts : ∀ k < value.ptrsLen,
      Costs machine.handler (({ machine with canonical := false } : CopyMachine ε).copyPtr depth) a id (value.ptrsStart + k) (ws k)) :
    (target.trySetStruct clearCap machine depth depth value size s).Uses (copyUsage machine.handler target.ptr.segment)
      (dstSize.total + ∑ k ∈ Finset.range value.ptrsLen, ws k) s := by
  rw [PtrBuilder.trySetStruct, hsize, pure_bind_eq, bind_of_ok htarget.clear, htarget.builder, hcanonical]
  refine uses_building (@allots_allocStruct s.arena ⟨target.ptr.segment⟩ target.ptr htarget.wf rfl htarget.live
      dstSize)
    (f := fun v => StructBuilder.tryCopyWithCaveats
      ⟨v.2, v.1, v.1.offset dstSize.data, dstSize.data * 8, dstSize.ptrs⟩
      { machine with canonical := false } depth value)
    (fun v => rfl) (fun e => rfl) fun v a₁ hrun hwf₁ => ?_
  rcases @ObjectBuilder.allocStruct_reserves s.arena ⟨target.ptr.segment⟩ target.ptr htarget.wf rfl htarget.live
      dstSize with ⟨place, a', hrun', hinside, -, -⟩ | ⟨m, a', hrun', -⟩
  · cases hrun.symm.trans hrun'
    exact @uses_tryCopyWithCaveats _ _ _ _ _ _ _
      { s with arena := a₁ } ⟨⟨place.segment⟩, place, place.offset dstSize.data, dstSize.data * 8, dstSize.ptrs⟩
      dstSize ws ⟨hwf₁, rfl, rfl, rfl, rfl, hinside⟩ hvalue hle hcosts
  · cases hrun.symm.trans hrun'

/-- What comes to the words of a new struct is what the value says. -/
lemma reads_of_done {start : SegmentRef} {strict : Prop} {F : Set SegmentRef} {a' : ReadArena}
    {dsegment : Segment} {cost : ℕ} (hvalue : value.Carries a id block vs)
    (hroomy : ∀ k < value.ptrsLen, (vs k).Roomy) (hcanonical : machine.canonical = false) (hstrict : strict)
    (hdsegment : a' target.ptr.segment = some dsegment) (hsome : dsegment.data target.ptr.pos ≠ Word.null)
    (hdenotes : Denotes a' target.ptr.segment target.ptr.pos start.segment (.struct ⟨start.pos, dstSize⟩) cost)
    (hdone : ∀ k < dstSize.total, (StructBuilder.plan
      ⟨⟨start.segment⟩, start, start.offset dstSize.data, dstSize.data * 8, dstSize.ptrs⟩ dstSize block value s
        k).Done machine a id strict F (start.offset k) Word.null a')
    (hnull : ∀ k < dstSize.total, s.arena.word (start.offset k) = Word.null) :
    Reads a' target.ptr.segment target.ptr.pos (value.valueAs block vs dstSize) := by
  have htotal := dstSize.total_eq
  obtain ⟨dblock, hdblock⟩ := hdenotes.segment
  refine @Reads.object _ _ _ _ _ _ _ _ (.struct dstSize) _ _ hdsegment hsome hdenotes hdblock
    (fun k => ?_) fun k => ?_
  · have hlt : k.1 < dstSize.total := k.2.1
    have hdata : k.1 < dstSize.data := Nat.not_le.1 (of_decide_eq_false k.2.2)
    have hword := hdone k.1 hlt
    rw [StructBuilder.plan, if_pos hdata] at hword
    obtain ⟨segment, hsegment, hword⟩ := hword
    rw [Option.mem_unique hdblock hsegment]
    exact hword.trans (congrArg (copiedWord _ _ _ · _) (hnull k.1 hlt))
  · have hlt : k.1 < dstSize.total := k.2.1
    have hptr : dstSize.data ≤ k.1 := of_decide_eq_true k.2.2
    have hitem := hdone k.1 hlt
    rw [StructBuilder.plan, if_neg (Nat.not_lt.2 hptr)] at hitem
    by_cases hk : k.1 - dstSize.data < value.ptrsLen
    · rw [if_pos hk] at hitem ⊢
      obtain ⟨w, hreads, hmatches⟩ := ((copyOf_of_done hitem).mono (fun _ => hstrict)
        (Set.Subset.refl F)).reads (hvalue.reads _ hk) hcanonical (hroomy _ hk)
      obtain rfl := hmatches.eq_of_caps (hvalue.caps _ hk)
      exact hreads
    · rw [if_neg hk] at hitem ⊢
      obtain ⟨segment, hsegment, hword⟩ := hitem
      exact .null hsegment (hword.trans (hnull k.1 hlt))

/-- An error that is handled is reported. -/
lemma handleErr_reported {e : Error} : (machine.handleErr e s).Ends (fun _ => True) fun _ s' =>
    s'.reported ≠ s.reported := by
  rw [handleErr]
  split
  · exact List.cons_ne_self _ _
  · trivial

/-- A pointer that was set reads as the struct, if nothing was reported. -/
lemma trySetStruct_reads (htarget : target.Blank s.arena) (hvalue : value.Carries a id block vs)
    (hroomy : ∀ k < value.ptrsLen, (vs k).Roomy) (hcanonical : size.isCanonical = false)
    (hsize : (size.builderSize value : CopyM ε StructSize) = pure dstSize) :
    (target.trySetStruct clearCap machine depth depth value size s).Ends (fun _ => True) fun _ s' =>
      s'.reported = s.reported →
        Reads s'.arena.toRead target.ptr.segment target.ptr.pos (value.valueAs block vs dstSize) := by
  rw [PtrBuilder.trySetStruct, hsize, pure_bind_eq, bind_of_ok htarget.clear, htarget.builder, hcanonical]
  rcases @ObjectBuilder.allocStruct_reserves s.arena ⟨target.ptr.segment⟩ target.ptr htarget.wf rfl
      htarget.live dstSize with ⟨start, arena', hrun, hinside, hsome, hlays⟩ | ⟨n, arena', hrun, -⟩
  · obtain ⟨s₁, hbuild, rfl, hreported⟩ := @building_of_ok ε _ _ _ _ _ hrun
    rw [bind_of_ok hbuild]
    have hready := hlays.reserves.ready hinside
    have hnull : ∀ k < dstSize.total, s₁.arena.word (start.offset k) = Word.null :=
      fun k hk => hready.word_eq k (Nat.zero_le _) hk
    have hat : StructBuilder.At
        ⟨⟨start.segment⟩, start, start.offset dstSize.data, dstSize.data * 8, dstSize.ptrs⟩ dstSize s₁.arena :=
      ⟨hready.wf, rfl, rfl, rfl, rfl, hinside⟩
    refine (@StructBuilder.tryCopyWithCaveats_filled ε { machine with canonical := false } a id block _ dstSize
      value s₁ depth hat hvalue.inside).imp (fun _ _ => trivial) fun _ s' hfilled hquiet => ?_
    obtain ⟨-, -, hrests⟩ := hlays.reserves.filled htarget.live hsome hreported
      (hfilled.congr_old fun k _ hlt => hnull k hlt)
    obtain ⟨⟨cost, hdenotes⟩, ⟨dsegment, hdsegment, hdsome⟩, hdone⟩ := hrests.holds
    exact reads_of_done hvalue hroomy rfl hquiet hdsegment hdsome hdenotes hdone hnull
  · obtain ⟨s₁, hbuild, -, hreported⟩ := @building_of_error ε _ _ _ _ _ hrun
    rw [bind_of_ok hbuild]
    exact (@handleErr_reported ε machine s₁ (.allocFailed n)).imp (fun _ h => h)
      fun _ s' hne hquiet => absurd (hquiet.trans hreported.symm) hne

/-! ### In one segment -/

lemma writing_lone {dst : SegmentRef} {n : ℕ} (hwf : s.arena.Wf) (hlone : s.arena.Lone room)
    (hdst : dst.pos + n ≤ s.arena.used dst.segment) (ws : ℕ → Word) :
    ((writing (Arena.writeSection dst n ws) : CopyM ε Unit) s).Ends (fun _ => True)
      fun _ s' => s'.arena.Lone room ∧ s.arena.Grows (span dst n) s'.arena := by
  have hlen := hwf.used_le_len dst.segment
  rw [writing, zoom, Arena.writeSection, if_pos (by omega)]
  exact ⟨⟨(Arena.length_write ..).trans hlone.length, (Arena.len_write ..).trans hlone.len_eq, hlone.refuses⟩,
    Arena.grows_write hwf hdst ws⟩

/-- The bytes of a data section are written there. -/
lemma copyDataBytes_lone {self : StructBuilder} {len : ℕ} (hwf : s.arena.Wf) (hlone : s.arena.Lone room)
    (hvalue : value.In a id block) (hlen : len ≤ value.dataLen)
    (hself : self.dataStart.pos + (len + 7) / 8 ≤ s.arena.used self.dataStart.segment) :
    ((self.copyDataBytes value len : CopyM ε Unit) s).Ends (fun _ => True)
      fun _ s' => s'.arena.Lone room ∧ s.arena.Grows (span self.dataStart ((len + 7) / 8)) s'.arena := by
  have hdata := hvalue.data
  rw [StructBuilder.copyDataBytes, hvalue.reader, sectionSlice_eq_pure (by omega), pure_bind_eq]
  refine ends_bind (writing_lone hwf hlone (by omega) _) ?_
  rintro _ t ⟨hlone₁, hgrows₁⟩
  have hwhole : span self.dataStart (len / 8) ⊆ span self.dataStart ((len + 7) / 8) :=
    fun r hr => ⟨hr.1, hr.2.1, hr.2.2.trans_le (by omega)⟩
  by_cases hrest : len % 8 = 0
  · rw [if_pos_apply hrest]
    exact ⟨hlone₁, hgrows₁.mono hwhole⟩
  · rw [if_neg_apply hrest]
    have hused := hgrows₁.used_le self.dataStart.segment
    have hslot : (self.dataStart.offset (len / 8)).pos + 1 ≤
        t.arena.used (self.dataStart.offset (len / 8)).segment := by
      show self.dataStart.pos + len / 8 + 1 ≤ t.arena.used self.dataStart.segment
      omega
    have hlive := hgrows₁.wf.used_le_len (self.dataStart.offset (len / 8)).segment
    rw [setBytes_of_lt (by omega)]
    refine (writing_lone hgrows₁.wf hlone₁ hslot _).imp (fun _ h => h) ?_
    rintro _ t' ⟨hlone₂, hgrows₂⟩
    refine ⟨hlone₂, (hgrows₁.mono hwhole).trans (hgrows₂.mono fun r hr => ?_) fun r _ hr => hr⟩
    obtain ⟨hsegment, hle, hlt⟩ := hr
    dsimp only [SegmentRef.offset] at hsegment hle hlt
    exact ⟨hsegment, by omega, by omega⟩

/-- A struct that is copied over a new one gets near pointers. -/
lemma tryCopyWithCaveats_settled {start : SegmentRef} (hvalue : value.In a id block) (hlone : s.arena.Lone room)
    (hready : Ready dstSize.total (fun _ => Word.null) start 0 dstSize.total s.arena)
    (hcanonical : machine.canonical = false) :
    (StructBuilder.tryCopyWithCaveats
      ⟨⟨start.segment⟩, start, start.offset dstSize.data, dstSize.data * 8, dstSize.ptrs⟩ machine depth value
        s).Ends (fun _ => True) fun _ s' =>
      Settled room (fun k => (Shape.struct dstSize).isPtr k = true) start 0 dstSize.total s s' := by
  have htotal := dstSize.total_eq
  have hinside := hready.inside
  have hptrs := hvalue.ptrs
  have hmin := Nat.min_le_left dstSize.ptrs value.ptrsLen
  have hmin' := Nat.min_le_left (dstSize.data * 8) value.dataLen
  rw [StructBuilder.tryCopyWithCaveats]
  refine ends_bind (copyDataBytes_lone hready.wf hlone hvalue (Nat.min_le_right _ _) (by
    dsimp only
    omega)) ?_
  rintro _ t ⟨hlone₁, hgrows₁⟩
  have hdata : Settled room (fun k => (Shape.struct dstSize).isPtr k = true) start 0 dstSize.data s t := by
    refine .of_data hlone₁ (hgrows₁.mono fun r hr => mem_range.2 ?_) fun k _ hk hptr => ?_
    · obtain ⟨hsegment, hle, hlt⟩ := hr
      dsimp only at hsegment hle hlt
      exact ⟨hsegment, hle, by omega⟩
    · exact absurd (of_decide_eq_true hptr) (Nat.not_le.2 hk)
  dsimp only
  rw [hvalue.reader]
  have hready₁ := hready.of_grows (Nat.le_refl _) hdata.grows (Nat.zero_le _)
  have hptrs' := @copyPtrSection_settled ε room a id block (machine.copyPtr depth)
    (fun k => (Shape.struct dstSize).isPtr k = true) dstSize.total start value.ptrsStart dstSize.data
    (min dstSize.ptrs value.ptrsLen) t hvalue.segment hlone₁ (hready₁.narrow (by omega)) (by omega)
    fun k _ => settles_copyPtr hcanonical depth id _
  refine hptrs'.imp (fun _ h => h) fun _ t' hsettled => ?_
  have hboth := hdata.append hinside (Nat.zero_le _) (by omega) (by omega) hsettled
  -- the pointers that the source does not have stay null
  refine hboth.append hinside (Nat.zero_le _) (by omega) (Nat.le_refl _)
    ⟨hsettled.lone, .refl hsettled.grows.wf, fun k hle hlt _ => .null ?_⟩
  exact (hready.of_grows (Nat.le_refl _) hboth.grows (Nat.zero_le _)).word_eq k hle hlt

/-- A struct is set in the segment of its pointer. -/
lemma trySetStruct_settled (htarget : target.Blank s.arena) (hlone : s.arena.Lone room)
    (hvalue : value.In a id block) (hcanonical : size.isCanonical = false)
    (hsize : (size.builderSize value : CopyM ε StructSize) = pure dstSize) :
    (target.trySetStruct clearCap machine depth depth value size s).Ends (fun _ => True)
      fun _ s' => Rooted room target.ptr s s' := by
  rw [PtrBuilder.trySetStruct, hsize, pure_bind_eq, bind_of_ok htarget.clear, htarget.builder, hcanonical]
  rcases allocStruct_lone htarget.wf hlone htarget.live dstSize with
    ⟨start, a', hrun, hlays⟩ | ⟨n, a', hrun, hlone', hgrows⟩
  · obtain ⟨s₁, hbuild, rfl, -⟩ := @building_of_ok ε _ _ _ _ _ hrun
    rw [bind_of_ok hbuild]
    dsimp only
    rw [← hlays.segment]
    refine (@tryCopyWithCaveats_settled ε { machine with canonical := false } depth room a id block value
      dstSize s₁ start hvalue hlays.lone hlays.ready rfl).imp (fun _ h => h) fun _ s' hsettled => ?_
    exact hlays.settled htarget.live hsettled
  · obtain ⟨s₁, hbuild, rfl, -⟩ := @building_of_error ε _ _ _ _ _ hrun
    rw [bind_of_ok hbuild]
    exact handleErr_settled htarget.live htarget.null hlone' hgrows _

/-! ### Structs that fit -/

/-- The pointers of the struct are smaller than what there is room for. -/
lemma StructReader.roomy_of_words_lt (hle : value.ptrsLen ≤ dstSize.ptrs)
    (hlt : (value.valueAs block vs dstSize).words < 2 ^ 29 - 1) : ∀ k < value.ptrsLen, (vs k).Roomy := by
  intro k hk
  have hsingle := Finset.single_le_sum (f := fun k => (vs k).words) (fun _ _ => Nat.zero_le _)
    (Finset.mem_range.2 hk)
  rw [words_valueAs hle] at hlt
  exact Value.roomy_of_words_lt (by omega)

lemma StructReader.Carries.costs (hvalue : value.Carries a id block vs) (hcanonical : machine.canonical = false) :
    ∀ᶠ depth in Filter.atTop, ∀ k < value.ptrsLen,
      Costs machine.handler (machine.copyPtr depth) a id (value.ptrsStart + k) (vs k).words := by
  refine ((Filter.eventually_all_finset (Finset.range value.ptrsLen)).2 fun k hk => ?_).mono
    fun depth h k hk => h k (Finset.mem_range.2 hk)
  exact eventually_costs hcanonical (hvalue.reads k (Finset.mem_range.1 hk)) (hvalue.caps k (Finset.mem_range.1 hk))

/-- **A struct is set in a buffer just when there is room for its new size**, and for what is below
its pointers.  It can be read there without checks. -/
theorem trySetStruct_flat (hstrict : machine.handler.Strict) (hvalue : value.Carries a id block vs)
    (hcanonical : size.isCanonical = false)
    (hsize : (size.builderSize value : CopyM ε StructSize) = pure dstSize) (hle : value.ptrsLen ≤ dstSize.ptrs) :
    ∀ᶠ depth in Filter.atTop, ∀ (target : PtrBuilder) (s : CopyState), target.Blank s.arena →
      s.arena.Lone room → CopiesFlat machine.handler room target.ptr (value.valueAs block vs dstSize) s
        (target.trySetStruct clearCap machine depth depth value size s) := by
  have hcosts := @StructReader.Carries.costs ε { machine with canonical := false } a id block value vs hvalue rfl
  refine hcosts.mono fun depth hcosts target s htarget hlone => ?_
  have huses := @uses_trySetStruct ε machine clearCap depth a id block value size dstSize target s
    (fun k => (vs k).words) htarget hvalue.inside hcanonical hsize hle hcosts
  rw [← StructReader.words_valueAs hle] at huses
  exact copiesFlat_of_uses hstrict hlone htarget.live hvalue.caps_valueAs huses
    (trySetStruct_settled htarget hlone hvalue.inside hcanonical hsize) fun hlt =>
      trySetStruct_reads htarget hvalue (StructReader.roomy_of_words_lt hle hlt) hcanonical hsize

end SetStruct

end Recapn.Ptr

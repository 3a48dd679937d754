/-
# Deep copies

What a deep copy leaves in the arena of the destination.  The copy of an object fills a block of
words, range by range: data words are copied, and pointers are copied in turn, each into words
that were fresh.  What the pointers in one range became rests on words that the copies after it
do not change.  The block of a new object was null before; that of an object that is written over
keeps what no copy reaches.
-/
import Recapn.Lib.Ends
import Recapn.Ptr.CopyOf

namespace Recapn.Ptr

open Recapn.Lib Recapn.Lib.Prog

/-! ## What a copy does -/

section Filled

variable {ε : Type} (machine : CopyMachine ε) (a : ReadArena) (id : SegmentId)

/-- A pointer of the source was copied to `slot`.  What became of it rests on the slot and on fresh
words. -/
structure Copied (src : ℕ) (slot : SegmentRef) (s s' : CopyState) : Prop where
  grows : Arena.Grows {slot} s.arena s'.arena
  reported : s.reported <:+ s'.reported
  replaces : Rests (insert slot (Arena.fresh s.arena s'.arena))
    (Replaces machine a id (s'.reported = s.reported) (Arena.fresh s.arena s'.arena) slot
      (s.arena.word slot) src) s'.arena.toRead

/-- The function copies the pointer, or halts for one of these reasons. -/
def Copies (copyPtr : CopyMachine.CopyPtr ε) (H : Halt → Prop) (src : ℕ) : Prop :=
  ∀ block, a id = some block → block.data src ≠ Word.null →
    ∀ (slot : SegmentRef) (s : CopyState), s.arena.Wf → slot.pos < s.arena.used slot.segment →
      (copyPtr src (.inSegment a id block) slot ⟨slot.segment⟩ s).Ends H
        fun _ s' => Copied machine a id src slot s s'

/-- The words of a block in `[b, c)`. -/
def range (start : SegmentRef) (b c : ℕ) : Set SegmentRef :=
  {r | ∃ k, b ≤ k ∧ k < c ∧ r = start.offset k}

/-- What was to come to the words `[b, c)` of a block is there. -/
structure Filled (plan : ℕ → Item) (old : ℕ → Word) (start : SegmentRef) (b c : ℕ)
    (s s' : CopyState) : Prop where
  grows : Arena.Grows (range start b c) s.arena s'.arena
  reported : s.reported <:+ s'.reported
  done : ∀ k, b ≤ k → k < c → Rests (insert (start.offset k) (Arena.fresh s.arena s'.arena))
    ((plan k).Done machine a id (s'.reported = s.reported) (Arena.fresh s.arena s'.arena)
      (start.offset k) (old k)) s'.arena.toRead

end Filled

/-- The block is there, and its words `[b, c)` are the old ones. -/
structure Ready (words : ℕ) (old : ℕ → Word) (start : SegmentRef) (b c : ℕ) (arena : Arena) : Prop where
  wf : arena.Wf
  inside : start.pos + words ≤ arena.used start.segment
  word_eq : ∀ k, b ≤ k → k < c → arena.word (start.offset k) = old k

/-- What is reported stays so. -/
lemma reported_eq_of_suffix {l l' l'' : List Error} (h : l <:+ l') (h' : l' <:+ l'')
    (heq : l'' = l) : l' = l ∧ l'' = l' := by
  have hle := h.length_le
  have hle' := h'.length_le
  have hlen := congrArg List.length heq
  have hfirst : l = l' := h.eq_of_length (by omega)
  exact ⟨hfirst.symm, heq.trans hfirst⟩

/-- A word of the arena is there for readers who agree on it. -/
lemma rests_holds {arena : Arena} {slot : SegmentRef} (hslot : slot.pos < arena.used slot.segment)
    {F : Set SegmentRef} (hmem : slot ∈ F) :
    Rests F (fun a => a.Holds slot.segment slot.pos (arena.word slot)) arena.toRead := by
  intro a hagree
  obtain ⟨segment, hsegment, -, hdata⟩ :=
    agree_toRead hagree (Arena.lt_length_of_used (Nat.zero_lt_of_lt hslot))
  exact ⟨segment, hsegment, hdata _ hmem⟩

section Filled

variable {ε : Type} {machine : CopyMachine ε} {a : ReadArena} {id : SegmentId} {words : ℕ}
  {plan : ℕ → Item} {old : ℕ → Word} {start : SegmentRef} {b c d : ℕ} {s s' s'' : CopyState}

/-- Two ranges are filled, one after the other. -/
lemma Filled.append (hinside : start.pos + words ≤ s.arena.used start.segment) (hbc : b ≤ c)
    (hcd : c ≤ d) (hd : d ≤ words) (h : Filled machine a id plan old start b c s s')
    (h' : Filled machine a id plan old start c d s' s'') :
    Filled machine a id plan old start b d s s'' := by
  have hlive : ∀ k < words, start.pos + k < s.arena.used start.segment := by
    intro k hk
    omega
  refine ⟨?_, h.reported.trans h'.reported, ?_⟩
  · refine (h.grows.mono ?_).trans h'.grows ?_
    · rintro r ⟨k, hle, hlt, rfl⟩
      exact ⟨k, hle, by omega, rfl⟩
    · rintro r - ⟨k, hle, hlt, rfl⟩
      exact ⟨k, by omega, hlt, rfl⟩
  · intro k hle hlt
    by_cases hk : k < c
    · -- the second range is neither this word nor fresh after the first
      have hagree : World.Agree (insert (start.offset k) (Arena.fresh s.arena s'.arena))
          s'.arena.toRead s''.arena.toRead := by
        refine h'.grows.agree h.grows.wf ?_
        rintro r (rfl | hr)
        · refine ⟨Nat.lt_of_lt_of_le (hlive k (by omega)) (h.grows.used_le _), ?_⟩
          rintro ⟨j, hj, -, hjk⟩
          have hjk' := offset_inj hjk
          omega
        · refine ⟨(Arena.mem_fresh.1 hr).2, ?_⟩
          rintro ⟨j, -, hj, rfl⟩
          have hold := (Arena.mem_fresh.1 hr).1
          have hin := hlive j (by omega)
          have hold' : s.arena.used start.segment ≤ start.pos + j := hold
          omega
      have hsub : Arena.fresh s.arena s'.arena ⊆ Arena.fresh s.arena s''.arena :=
        Store.fresh_subset_left h'.grows.store
      exact (((h.done k hle hk).agree hagree).mono (Set.insert_subset_insert hsub)).imp
        fun _ hdone => hdone.mono (fun heq => (reported_eq_of_suffix h.reported h'.reported heq).1) hsub
    · have hsub : Arena.fresh s'.arena s''.arena ⊆ Arena.fresh s.arena s''.arena :=
        Store.fresh_subset_right h.grows.store
      exact ((h'.done k (by omega) hlt).mono (Set.insert_subset_insert hsub)).imp
        fun _ hdone => hdone.mono (fun heq => (reported_eq_of_suffix h.reported h'.reported heq).2) hsub

/-- What is left of the block is as it was. -/
lemma Ready.of_grows {arena arena' : Arena} (h : Ready words old start b d arena) (hd : d ≤ words)
    (hgrows : Arena.Grows (range start b c) arena arena') (hbc : b ≤ c) :
    Ready words old start c d arena' := by
  have hinside := h.inside
  refine ⟨hgrows.wf, hinside.trans (hgrows.used_le _), ?_⟩
  intro k hle hlt
  have hlive : start.pos + k < arena.used start.segment := by omega
  rw [hgrows.word_eq hlive]
  · exact h.word_eq k (by omega) hlt
  · rintro ⟨j, -, hj, hjk⟩
    have hjk' := offset_inj hjk
    omega

lemma Ready.filled (h : Ready words old start b d s.arena) (hd : d ≤ words)
    (hfilled : Filled machine a id plan old start b c s s') (hbc : b ≤ c) :
    Ready words old start c d s'.arena :=
  h.of_grows hd hfilled.grows hbc

lemma Ready.narrow (h : Ready words old start b d s.arena) (hc : c ≤ d) :
    Ready words old start b c s.arena :=
  ⟨h.wf, h.inside, fun k hle hlt => h.word_eq k hle (by omega)⟩

/-- Words that stay as they are. -/
lemma Ready.kept (h : Ready words old start b c s.arena) (hc : c ≤ words)
    (hplan : ∀ k, b ≤ k → k < c → plan k = .word (old k)) :
    Filled machine a id plan old start b c s s := by
  refine ⟨.refl h.wf, List.suffix_refl _, ?_⟩
  intro k hle hlt
  have hinside := h.inside
  have hslot : (start.offset k).pos < s.arena.used (start.offset k).segment := by
    show start.pos + k < s.arena.used start.segment
    omega
  rw [hplan k hle hlt, ← h.word_eq k hle hlt]
  exact rests_holds hslot (Set.mem_insert _ _)

/-- The ranges of a loop are filled, one after the other. -/
lemma filled_forRange (off : ℕ → ℕ) {n : ℕ} {body : ℕ → CopyM ε Unit} {H : Halt → Prop}
    (hoff : ∀ i, off i ≤ off (i + 1)) (hn : off n ≤ words)
    (hready : Ready words old start (off 0) (off n) s.arena)
    (hbody : ∀ i < n, ∀ t : CopyState, Ready words old start (off i) (off (i + 1)) t.arena →
      (body i t).Ends H fun _ t' => Filled machine a id plan old start (off i) (off (i + 1)) t t') :
    (Prog.forRange n body s).Ends H fun _ s' =>
      Filled machine a id plan old start (off 0) (off n) s s' := by
  have hmono : ∀ i j, i ≤ j → off i ≤ off j := fun i j hij => monotone_nat_of_le_succ hoff hij
  refine ends_forRange (fun i t => Filled machine a id plan old start (off 0) (off i) s t)
    ?_ ?_
  · refine (hready.narrow (hmono _ _ (Nat.zero_le n))).kept ((hmono _ _ (Nat.zero_le n)).trans hn) ?_
    intro k hle hlt
    omega
  · intro i hi t hfilled
    have hnext : off (i + 1) ≤ off n := hmono _ _ hi
    refine (hbody i hi t ((hready.filled hn hfilled (hmono _ _ (Nat.zero_le i))).narrow hnext)).imp
      (fun _ h => h) fun _ t' hfilled' => ?_
    exact Filled.append hready.inside (hmono _ _ (Nat.zero_le i)) (hoff i) (by omega) hfilled hfilled'

end Filled

/-! ## Filling a block -/

/-- What comes to a word of a struct that another one is copied over. -/
def StructSize.plan (size copy : StructSize) (words : ℕ → Word) (src : ℕ) (old : ℕ → Word) (k : ℕ) :
    Item :=
  if k < copy.data then
    if k < size.data then .word (words (src + k)) else .word (old k)
  else if k - copy.data < size.ptrs then .ptr (src + size.data + (k - copy.data)) else .word (old k)

section Blocks

open CopyMachine

variable {ε : Type} {machine : CopyMachine ε} {a : ReadArena} {id : SegmentId} {block : Segment}
  {copyPtr : CopyPtr ε} {H : Halt → Prop} {words : ℕ} {plan : ℕ → Item} {old : ℕ → Word}
  {start : SegmentRef} {src b n : ℕ} {s : CopyState}

/-- Words are written. -/
lemma writeSection_filled {values : ℕ → Word} (hready : Ready words old start b (b + n) s.arena)
    (hn : b + n ≤ words) (hplan : ∀ i < n, plan (b + i) = .word (values i)) :
    ((writing (Arena.writeSection (start.offset b) n values) : CopyM ε Unit) s).Ends H
      fun _ s' => Filled machine a id plan old start b (b + n) s s' := by
  have hinside := hready.inside
  have hused : (start.offset b).pos + n ≤ s.arena.used (start.offset b).segment := by
    show start.pos + b + n ≤ s.arena.used start.segment
    omega
  have hlen := hready.wf.used_le_len start.segment
  have hwrite : Arena.writeSection (start.offset b) n values s.arena
      = (.ok () (s.arena.write (start.offset b) n values) : Outcome ε Arena Unit) :=
    if_pos (Nat.le_trans hused hlen)
  have hgrows := Arena.grows_write hready.wf hused values
  rw [writing, Prog.zoom, hwrite]
  refine ⟨hgrows.mono ?_, List.suffix_refl _, ?_⟩
  · rintro r ⟨hsegment, hle, hlt⟩
    have hle' : start.pos + b ≤ r.pos := hle
    have hlt' : r.pos < start.pos + b + n := hlt
    exact ⟨r.pos - start.pos, by omega, by omega, SegmentRef.ext hsegment (by
      show r.pos = start.pos + (r.pos - start.pos)
      omega)⟩
  · intro k hle hlt
    obtain ⟨i, rfl⟩ := Nat.exists_eq_add_of_le hle
    have hslot : (start.offset (b + i)).pos < s.arena.used (start.offset (b + i)).segment := by
      show start.pos + (b + i) < s.arena.used start.segment
      omega
    have hword : (s.arena.write (start.offset b) n values).word (start.offset (b + i)) = values i := by
      rw [Arena.word_write_of_mem _ (start.offset b) n _ (r := start.offset (b + i))
        (Arena.lt_length_of_used (Nat.zero_lt_of_lt hslot)) rfl
        (by show start.pos + b ≤ start.pos + (b + i); omega)
        (by show start.pos + (b + i) < start.pos + b + n; omega)]
      show values (start.pos + (b + i) - (start.pos + b)) = _
      congr 1
      omega
    rw [hplan i (by omega), ← hword]
    exact rests_holds (hgrows.lt_used hslot) (Set.mem_insert _ _)

/-- What is outside of the segment is undefined. -/
lemma sectionSlice_ends {ε σ : Type} {t : σ} {pos : ℕ} (len : ℕ) :
    ((ObjectReader.inSegment a id block).sectionSlice pos len t : Outcome ε σ _).Ends
      (fun r => r = .undefined ∧ block.len.get < pos + len)
      fun words t' => t' = t ∧ words = fun k => block.data (pos + k) := by
  by_cases hfits : pos + len ≤ block.len.get
  · rw [sectionSlice_eq_pure hfits]
    exact ⟨rfl, rfl⟩
  · have hin : ¬ (ObjectReader.inSegment a id block).inBounds pos len = true := by
      rw [show (ObjectReader.inSegment a id block).inBounds pos len
        = decide (pos + len ≤ block.len.get) from rfl, decide_eq_true_eq]
      exact hfits
    rw [ObjectReader.sectionSlice, Prog.require, if_neg hin]
    exact ⟨rfl, by omega⟩

/-- A range of data is copied. -/
lemma copyWords_filled (hout : block.len.get < src + n → H .undefined)
    (hready : Ready words old start b (b + n) s.arena) (hn : b + n ≤ words)
    (hplan : ∀ i < n, plan (b + i) = .word (block.data (src + i))) :
    ((copyWords src (.inSegment a id block) (start.offset b) n : CopyM ε Unit) s).Ends H
      fun _ s' => Filled machine a id plan old start b (b + n) s s' := by
  rw [copyWords]
  refine ends_bind ((sectionSlice_ends n).imp ?_ fun _ _ h => h) ?_
  · rintro r ⟨rfl, hlt⟩
    exact hout hlt
  · rintro _ _ ⟨rfl, rfl⟩
    exact writeSection_filled hready hn hplan

/-- Writing bytes is writing the word that they are in. -/
lemma setBytes_of_lt {place : SegmentRef} {offset : ℕ} {bytes : List Byte}
    (hplace : place.pos < s.arena.len place.segment) :
    (setBytes place offset bytes : CopyM ε Unit) s =
      (writing (Arena.writeSection place 1 fun _ => Word.ofBytes ((s.arena.word place).bytes.take offset ++ bytes ++
        (s.arena.word place).bytes.drop (offset + bytes.length))) : CopyM ε Unit) s := by
  have hread : (writing (Arena.read place) : CopyM ε Word) s = .ok (s.arena.word place) s := by
    rw [writing, Prog.zoom, Arena.read, if_pos hplace]
  rw [setBytes, bind_of_ok hread]

/-- Bytes of a word are written. -/
lemma setBytes_filled {offset : ℕ} {bytes : List Byte} (hready : Ready words old start b (b + 1) s.arena)
    (hn : b + 1 ≤ words) (hplan : plan b = .word (Word.ofBytes ((old b).bytes.take offset ++ bytes ++
      (old b).bytes.drop (offset + bytes.length)))) :
    ((setBytes (start.offset b) offset bytes : CopyM ε Unit) s).Ends H
      fun _ s' => Filled machine a id plan old start b (b + 1) s s' := by
  have hinside := hready.inside
  have hslot : (start.offset b).pos < s.arena.len (start.offset b).segment := by
    have hlen := hready.wf.used_le_len start.segment
    show start.pos + b < s.arena.len start.segment
    omega
  rw [setBytes_of_lt hslot, hready.word_eq b (Nat.le_refl _) (Nat.lt_succ_self _)]
  refine writeSection_filled hready hn ?_
  intro i hi
  obtain rfl : i = 0 := by omega
  exact hplan

/-- A pointer was copied. -/
lemma Copied.filled {s' : CopyState} (hready : Ready words old start b (b + 1) s.arena)
    (hplan : plan b = .ptr src) (h : Copied machine a id src (start.offset b) s s') :
    Filled machine a id plan old start b (b + 1) s s' := by
  refine ⟨h.grows.mono ?_, h.reported, ?_⟩
  · rintro r rfl
    exact ⟨b, Nat.le_refl _, Nat.lt_succ_self _, rfl⟩
  · intro k hle hlt
    obtain rfl : k = b := by omega
    rw [hplan, ← hready.word_eq k (Nat.le_refl _) (Nat.lt_succ_self _)]
    exact h.replaces

/-- A pointer is copied, unless it is null. -/
lemma copySlot_filled (hblock : a id = some block) (hout : block.len.get < src + 1 → H .undefined)
    (hready : Ready words old start b (b + 1) s.arena) (hn : b + 1 ≤ words) (hplan : plan b = .ptr src)
    (hcopy : Copies machine a id copyPtr H src) :
    ((do
      let word ← (ObjectReader.inSegment a id block).sectionSlice src 1
      if (word 0).isNull then pure ()
      else copyPtr src (.inSegment a id block) (start.offset b) ⟨start.segment⟩ : CopyM ε Unit) s).Ends H
      fun _ s' => Filled machine a id plan old start b (b + 1) s s' := by
  have hinside := hready.inside
  have hslot : (start.offset b).pos < s.arena.used (start.offset b).segment := by
    show start.pos + b < s.arena.used start.segment
    omega
  have hold := hready.word_eq b (Nat.le_refl _) (Nat.lt_succ_self _)
  refine ends_bind ((sectionSlice_ends 1).imp ?_ fun _ _ h => h) ?_
  · rintro r ⟨rfl, hlt⟩
    exact hout hlt
  rintro _ s ⟨rfl, rfl⟩
  rcases hword : (block.data src).isNull with _ | _
  · -- a pointer that is copied
    have hsome : block.data src ≠ Word.null := fun h => by
      rw [Word.isNull_iff.2 h] at hword
      cases hword
    rw [if_neg_apply Bool.false_ne_true]
    exact (hcopy block hblock hsome (start.offset b) s hready.wf hslot).imp (fun _ h => h)
      fun _ _ hcopied => hcopied.filled hready hplan
  · -- a pointer that is null stays what it was
    rw [if_pos_apply rfl]
    refine ⟨.refl hready.wf, List.suffix_refl _, ?_⟩
    intro k hle hlt
    obtain rfl : k = b := by omega
    rw [hplan, ← hold]
    exact (rests_holds hslot (Set.mem_insert _ _)).imp fun _ h =>
      .null ⟨block, hblock, Word.isNull_iff.1 hword⟩ h

/-- A range of pointers is copied. -/
lemma copyPtrSection_filled (hblock : a id = some block)
    (hout : block.len.get < src + n → H .undefined)
    (hready : Ready words old start b (b + n) s.arena) (hn : b + n ≤ words)
    (hplan : ∀ i < n, plan (b + i) = .ptr (src + i))
    (hcopy : ∀ i < n, Copies machine a id copyPtr H (src + i)) :
    (copyPtrSection copyPtr src (.inSegment a id block) (start.offset b) ⟨start.segment⟩ n s).Ends H
      fun _ s' => Filled machine a id plan old start b (b + n) s s' := by
  refine filled_forRange (fun i => b + i) (fun i => Nat.le_succ _) hn hready ?_
  intro i hi t ht
  rw [offset_offset]
  exact copySlot_filled hblock (fun hlt => hout (by omega)) ht (by omega) (hplan i hi) (hcopy i hi)

/-- A struct is copied over another one. -/
lemma copyStruct_filled (hblock : a id = some block) {size copy : StructSize}
    (hout : block.len.get < src + size.total → H .undefined)
    (hready : Ready words old start b (b + copy.total) s.arena) (hn : b + copy.total ≤ words)
    (hplan : ∀ k < copy.total, plan (b + k) = size.plan copy block.data src (fun k => old (b + k)) k)
    (hcopy : ∀ j < size.ptrs, j < copy.ptrs → Copies machine a id copyPtr H (src + size.data + j)) :
    (copyStruct copyPtr src size (.inSegment a id block) (start.offset b) copy ⟨start.segment⟩ s).Ends
      H fun _ s' => Filled machine a id plan old start b (b + copy.total) s s' := by
  have hsize := size.total_eq
  have htotal := copy.total_eq
  have hdata := Nat.min_le_left size.data copy.data
  have hdata' := Nat.min_le_right size.data copy.data
  have hptrs := Nat.min_le_left size.ptrs copy.ptrs
  have hptrs' := Nat.min_le_right size.ptrs copy.ptrs
  have hinside := hready.inside
  -- the data of the smaller struct, and what is left of the data
  have hwords := @copyWords_filled ε machine a id block H words plan old start src b
    (min size.data copy.data) s (fun hlt => hout (by omega)) (hready.narrow (by omega)) (by omega) (by
      intro i hi
      rw [hplan i (by omega), StructSize.plan, if_pos (by omega), if_pos (by omega)])
  refine ends_bind hwords fun _ s₁ hfilled₁ => ?_
  have hready₁ := hready.filled hn hfilled₁ (Nat.le_add_right _ _)
  have hkept₁ : Filled machine a id plan old start (b + min size.data copy.data) (b + copy.data)
      s₁ s₁ := by
    refine (hready₁.narrow (by omega)).kept (by omega) ?_
    intro k hle hlt
    obtain ⟨i, rfl⟩ := Nat.exists_eq_add_of_le (show b ≤ k by omega)
    rw [hplan i (by omega), StructSize.plan, if_pos (by omega), if_neg (by omega)]
  have hboth₁ := Filled.append hinside (by omega) (by omega) (by omega) hfilled₁ hkept₁
  -- the pointers
  have hready₂ := (hready.filled hn hboth₁ (by omega)).narrow
    (show b + copy.data + min size.ptrs copy.ptrs ≤ b + copy.total by omega)
  have hsection := @copyPtrSection_filled ε machine a id block copyPtr H words plan old start
    (src + size.data) (b + copy.data) (min size.ptrs copy.ptrs) s₁ hblock
    (fun hlt => hout (by omega)) hready₂ (by omega) (by
      intro i hi
      rw [Nat.add_assoc, hplan (copy.data + i) (by omega), StructSize.plan, if_neg (by omega),
        Nat.add_sub_cancel_left, if_pos (by omega)])
    (fun j hj => hcopy j (by omega) (by omega))
  rw [offset_offset]
  refine hsection.imp (fun _ h => h) fun _ s₂ hfilled₂ => ?_
  have hboth₂ := Filled.append hinside (by omega) (by omega) (by omega) hboth₁ hfilled₂
  have hready₃ := hready.filled hn hboth₂ (by omega)
  refine Filled.append hinside (by omega) (by omega) hn hboth₂ (hready₃.kept hn ?_)
  intro k hle hlt
  obtain ⟨i, rfl⟩ := Nat.exists_eq_add_of_le (show b ≤ k by omega)
  rw [hplan i (by omega), StructSize.plan, if_neg (by omega), if_neg (by omega)]

/-- Structs are copied over others, one after the other. -/
lemma copyInlineComposites_filled (hblock : a id = some block) {size copy : StructSize}
    {count : ElementCount} (hout : block.len.get < src + size.total * count.get → H .undefined)
    (hready : Ready words old start b (b + copy.total * count.get) s.arena)
    (hn : b + copy.total * count.get ≤ words) (hcount : size.total * count.get ≤ U29.maxValue)
    (hcount' : copy.total * count.get ≤ U29.maxValue)
    (hplan : ∀ i < count.get, ∀ k < copy.total, plan (b + copy.total * i + k) =
      size.plan copy block.data (src + size.total * i) (fun k => old (b + copy.total * i + k)) k)
    (hcopy : ∀ i < count.get, ∀ j < size.ptrs, j < copy.ptrs →
      Copies machine a id copyPtr H (src + size.total * i + size.data + j)) :
    (copyInlineComposites copyPtr src size (.inSegment a id block) (start.offset b) copy
      ⟨start.segment⟩ count s).Ends H
      fun _ s' => Filled machine a id plan old start b (b + copy.total * count.get) s s' := by
  rw [copyInlineComposites, stepByUnchecked, stepByUnchecked, assert_of hcount,
    pure_bind_eq, assert_of hcount', pure_bind_eq]
  have hoff : b + copy.total * 0 = b := Nat.add_zero b
  refine hoff ▸ filled_forRange (fun i => b + copy.total * i)
    (fun i => Nat.add_le_add_left (Nat.le_add_right _ _) _) hn (hoff.symm ▸ hready) ?_
  intro i hi t ht
  have hnext := size.mul_succ_le hi
  have hnext' := copy.mul_succ_le hi
  have hdst : b + copy.total * i + copy.total ≤ words := by omega
  have hend : b + copy.total * (i + 1) = b + copy.total * i + copy.total := by
    rw [Nat.mul_succ, Nat.add_assoc]
  rw [offset_offset, hend]
  rw [hend] at ht
  exact copyStruct_filled hblock (fun hlt => hout (by omega)) ht hdst (hplan i hi) (hcopy i hi)

end Blocks

/-! ## Objects -/

/-- What comes to a word of a copy. -/
def Shape.plan (shape copy : Shape) (words : ℕ → Word) (src k : ℕ) : Item :=
  if copy.isPtr k then .ptr (src + shape.source copy k)
  else .word (words (src + shape.source copy k))

section Plan

variable {size copy : StructSize} {words : ℕ → Word} {src : ℕ} {old : ℕ → Word} {k : ℕ}

/-- The copy of a struct that is not larger has nothing of what was there. -/
lemma StructSize.plan_eq (hle : copy.Le size) (hk : k < copy.total) :
    size.plan copy words src old k = if copy.data ≤ k then .ptr (src + size.source copy k)
      else .word (words (src + size.source copy k)) := by
  have htotal := copy.total_eq
  have hdata := hle.data
  have hptrs := hle.ptrs
  by_cases hlt : k < copy.data
  · rw [plan, if_pos hlt, if_pos (by omega), if_neg (by omega), source, if_pos hlt]
  · rw [plan, if_neg hlt, if_pos (by omega), if_pos (by omega), source, if_neg hlt]
    congr 1
    omega

lemma Shape.plan_struct (hle : copy.Le size) (hk : k < copy.total) :
    (struct size).plan (struct copy) words src k = size.plan copy words src old k := by
  rw [StructSize.plan_eq hle hk, plan]
  simp only [isPtr, source, decide_eq_true_eq]

lemma Shape.plan_element {count : ElementCount} {i : ℕ} (hle : copy.Le size) (hk : k < copy.total) :
    (list (.inlineComposite size) count).plan (list (.inlineComposite copy) count) words src
      (copy.total * i + k) = size.plan copy words (src + size.total * i) old k := by
  have hmod : (copy.total * i + k) % copy.total = k := by rw [Nat.mul_add_mod, Nat.mod_eq_of_lt hk]
  have hdiv : (copy.total * i + k) / copy.total = i := by
    rw [Nat.mul_add_div (by omega), Nat.div_eq_of_lt hk, Nat.add_zero]
  rw [StructSize.plan_eq hle hk, plan]
  simp only [isPtr, source, decide_eq_true_eq, hmod, hdiv, ← Nat.add_assoc]

end Plan

/-! ## Objects that are allocated -/

section Alloc

variable {arena arena' : Arena} {self : ObjectBuilder} {slot start : SegmentRef} {len : ℕ}
  {φ : ReadArena → Prop}

/-- The words are there to be filled. -/
lemma Reserves.ready (h : Reserves arena slot start len φ arena')
    (hinside : start.pos + len ≤ arena'.used start.segment) :
    Ready len (fun _ => Word.null) start 0 len arena' :=
  ⟨h.grows.wf, hinside, fun _ _ hlt => h.word_eq_null _ ⟨rfl, Nat.le_add_right _ _,
    Nat.add_lt_add_left hlt _⟩⟩

/-- An object that was laid out is inside of its segment. -/
lemma Lays.inside {shape : Shape} (h : Lays arena slot start len (shape.content start.pos) arena') :
    start.pos + shape.words ≤ arena'.used start.segment := by
  obtain ⟨cost, hdenotes⟩ := h.denotes.holds
  obtain ⟨segment, hsegment⟩ := hdenotes.segment
  obtain ⟨seg, hseg, hlen, -⟩ := Arena.toRead_eq_some (Arena.lt_length_of_toRead hsegment)
  obtain rfl := Option.mem_unique hsegment hseg
  rw [← hlen]
  exact Shape.words_le_of_inside (hdenotes.inside hsegment)

/-- A pointer to something else than an empty struct that was laid out is not null. -/
lemma Lays.ne_null {typed : TypedContent} (h : Lays arena slot start len typed arena')
    (hslot : slot.pos < arena.used slot.segment)
    (htyped : ∀ pos, typed ≠ .struct ⟨pos, StructSize.empty⟩) : arena'.word slot ≠ Word.null := by
  obtain ⟨cost, hdenotes⟩ := h.denotes.holds
  have hslot' := h.grows.lt_used hslot
  obtain ⟨segment, hsegment, -, hdata⟩ :=
    Arena.toRead_eq_some (Arena.lt_length_of_used (Nat.zero_lt_of_lt hslot'))
  rw [← hdata]
  exact hdenotes.ne_null hsegment htyped

/-- A struct that has nothing is not allocated. -/
lemma ObjectBuilder.allocStruct_empty (hwf : arena.Wf) (hslot : slot.pos < arena.used slot.segment) :
    self.allocStruct slot StructSize.empty arena =
      .ok (slot, self) (arena.write slot 1 fun _ => StructPtr.empty) := by
  rw [allocStruct, show AllocLen.new StructSize.empty.total = none by decide]
  dsimp only
  rw [bind_of_ok (setPtr_apply hwf hslot _)]
  rfl

/-- An allocation of a struct reserves its words, or fails. -/
lemma ObjectBuilder.allocStruct_reserves (hwf : arena.Wf) (hself : self.segment = slot.segment)
    (hslot : slot.pos < arena.used slot.segment) (size : StructSize) :
    (∃ start arena', self.allocStruct slot size arena = .ok (start, ⟨start.segment⟩) arena' ∧
      start.pos + size.total ≤ arena'.used start.segment ∧ arena'.word slot ≠ Word.null ∧
      Lays arena slot start size.total ((Shape.struct size).content start.pos) arena') ∨
    ∃ n arena', self.allocStruct slot size arena = .error (.allocFailed n) arena' ∧ arena.Grows ∅ arena' := by
  rcases allocStruct_cases hwf hself hslot size with ⟨start, arena', hrun, hlays⟩ | ⟨n, arena', hrun, h⟩
  · left
    have hinside := @Lays.inside _ _ _ _ _ (.struct size) hlays
    refine ⟨start, arena', hrun, hinside, ?_, hlays⟩
    by_cases hzero : size.total = 0
    · -- the pointer to an empty struct
      obtain rfl := StructSize.total_eq_zero_iff.1 hzero
      cases (allocStruct_empty hwf hslot).symm.trans hrun
      rw [Arena.word_set hslot, if_pos rfl]
      decide
    · refine hlays.ne_null hslot fun pos heq => hzero ?_
      cases heq
      rfl
  · exact Or.inr ⟨_, arena', hrun, h.grows⟩

/-- An allocation of a list reserves its words, or fails.  The pointer of a list of structs that
fills a segment is refused by readers. -/
lemma ObjectBuilder.allocList_reserves (hwf : arena.Wf) (hself : self.segment = slot.segment)
    (hslot : slot.pos < arena.used slot.segment) {size : ElementSize} {count : ElementCount}
    (hfits : size.exactWords count < 2 ^ 29) :
    (∃ start len arena', self.allocList slot size count arena = .ok (start, len, ⟨start.segment⟩) arena' ∧
      len.get = size.exactWords count ∧
      start.pos + (Shape.list size count).words ≤ arena'.used start.segment ∧
      arena'.word slot ≠ Word.null ∧ Reserves arena slot start (Shape.list size count).words
        (fun a => ¬ (Shape.list size count).Full ∧ (∃ cost, Denotes a slot.segment slot.pos start.segment
          ((Shape.list size count).content start.pos) cost) ∨ (Shape.list size count).Full ∧
          ∀ id typed cost, ¬ Denotes a slot.segment slot.pos id typed cost) arena') ∨
    ∃ n arena', self.allocList slot size count arena = .error (.allocFailed n) arena' ∧
      arena.Grows ∅ arena' := by
  have hwords : size.totalWords count.get = (Shape.list size count).words := totalWords_of_fits hfits
  by_cases hfills : FillsSegment size count
  · rcases allocList_full hwf hself hslot hfills with
      ⟨start, len, arena', hrun, hlen, hsome, hreserves⟩ | ⟨n, arena', hrun, hgrows⟩
    · left
      rw [hwords] at hreserves
      refine ⟨start, len, arena', hrun, hlen, ?_, hsome, hreserves.grows, hreserves.mem_fresh,
        hreserves.word_eq_null, hreserves.rests.imp fun _ h => Or.inr ⟨hfills, h⟩⟩
      -- its last word is fresh
      have hpos : 0 < (Shape.list size count).words := by
        cases size with
        | inlineComposite size =>
          obtain ⟨-, hfull⟩ := hfills
          rw [Shape.words_structs, Nat.mul_comm]
          have hmax := U29.maxValue_eq
          omega
        | _ => exact hfills.elim
      obtain ⟨last, hlast⟩ := Nat.exists_eq_succ_of_ne_zero hpos.ne'
      have hmem := hreserves.mem_fresh (start.offset last) ⟨rfl, Nat.le_add_right _ _, by
        show start.pos + last < start.pos + (Shape.list size count).words
        omega⟩
      have hused : start.pos + last < arena'.used start.segment := (Arena.mem_fresh.1 hmem).2
      omega
    · exact Or.inr ⟨_, arena', hrun, hgrows⟩
  · rcases allocList_cases hwf hself hslot hfits hfills with
      ⟨start, len, arena', hrun, hlen, hlays⟩ | ⟨n, arena', hrun, hgrows⟩
    · left
      rw [hwords] at hlays
      have hinside := @Lays.inside _ _ _ _ _ (.list size count) hlays
      have hreserves := hlays.reserves
      refine ⟨start, len, arena', hrun, hlen, hinside, ?_, hreserves.grows, hreserves.mem_fresh,
        hreserves.word_eq_null, hreserves.rests.imp fun _ h => Or.inl ⟨hfills, h⟩⟩
      exact hlays.ne_null hslot fun pos heq => (nomatch heq)
    · exact Or.inr ⟨_, arena', hrun, hgrows⟩

end Alloc

section Objects

open CopyMachine

variable {ε : Type} {machine : CopyMachine ε} {a : ReadArena} {id id' : SegmentId} {src : ℕ}
  {slot start : SegmentRef} {len : ℕ} {φ : ReadArena → Prop} {s s' s₁ : CopyState}
  {arena : Arena} {H : Halt → Prop} {plan : ℕ → Item}

/-- The words were filled. -/
lemma Reserves.filled (h : Reserves s.arena slot start len φ s₁.arena)
    (hslot : slot.pos < s.arena.used slot.segment) (hsome : s₁.arena.word slot ≠ Word.null)
    (hreported : s₁.reported = s.reported)
    (hfilled : Filled machine a id plan (fun _ => Word.null) start 0 len s₁ s') :
    Arena.Grows {slot} s.arena s'.arena ∧ s.reported <:+ s'.reported ∧
      Rests (insert slot (Arena.fresh s.arena s'.arena)) (fun a' => φ a' ∧
        (∃ segment, a' slot.segment = some segment ∧ segment.data slot.pos ≠ Word.null) ∧
        ∀ k < len, (plan k).Done machine a id (s'.reported = s.reported)
          (Arena.fresh s.arena s'.arena) (start.offset k) Word.null a') s'.arena.toRead := by
  have hslot₁ := h.grows.lt_used hslot
  have hnot : ∀ r ∈ range start 0 len, r ∈ span start len := by
    rintro r ⟨k, -, hlt, rfl⟩
    exact ⟨rfl, Nat.le_add_right _ _, Nat.add_lt_add_left hlt _⟩
  have hout : slot ∉ range start 0 len := fun hmem => by
    have hle := (Arena.mem_fresh.1 (h.mem_fresh _ (hnot _ hmem))).1
    omega
  have hright : Arena.fresh s₁.arena s'.arena ⊆ Arena.fresh s.arena s'.arena :=
    Store.fresh_subset_right h.grows.store
  have hleft : Arena.fresh s.arena s₁.arena ⊆ Arena.fresh s.arena s'.arena :=
    Store.fresh_subset_left hfilled.grows.store
  refine ⟨?_, hreported ▸ hfilled.reported, ?_⟩
  · refine h.grows.trans hfilled.grows ?_
    intro r hr hmem
    have hle := (Arena.mem_fresh.1 (h.mem_fresh _ (hnot _ hmem))).1
    omega
  · intro a' hagree
    refine ⟨?_, ?_, ?_⟩
    · have hkept : World.Agree (insert slot (Arena.fresh s.arena s₁.arena \ span start len))
          s₁.arena.toRead s'.arena.toRead := by
        refine hfilled.grows.agree h.grows.wf ?_
        rintro r (rfl | ⟨hr, hspan⟩)
        · exact ⟨hslot₁, hout⟩
        · exact ⟨(Arena.mem_fresh.1 hr).2, fun hmem => hspan (hnot _ hmem)⟩
      exact h.rests a' (World.agree_trans hkept (World.agree_mono
        (Set.insert_subset_insert fun r hr => hleft hr.1) hagree))
    · have hslot' := hfilled.grows.lt_used hslot₁
      obtain ⟨segment, hsegment, -, hdata⟩ :=
        agree_toRead hagree (Arena.lt_length_of_used (Nat.zero_lt_of_lt hslot'))
      refine ⟨segment, hsegment, ?_⟩
      rw [hdata _ (Set.mem_insert _ _), hfilled.grows.word_eq hslot₁ hout]
      exact hsome
    · intro k hk
      have hspan : start.offset k ∈ span start len :=
        ⟨rfl, Nat.le_add_right _ _, Nat.add_lt_add_left hk _⟩
      have hsub : insert (start.offset k) (Arena.fresh s₁.arena s'.arena) ⊆
          insert slot (Arena.fresh s.arena s'.arena) := by
        rintro r (rfl | hr)
        · exact Set.mem_insert_of_mem _ (hleft (h.mem_fresh _ hspan))
        · exact Set.mem_insert_of_mem _ (hright hr)
      exact (hfilled.done k (Nat.zero_le _) hk a' (World.agree_mono hsub hagree)).mono
        (fun heq => heq.trans hreported.symm) hright

/-- What was not copied leaves the pointer as it was. -/
lemma handleErr_copied (hsome : ¬ a.Holds id src Word.null)
    (hslot : slot.pos < s.arena.used slot.segment) (hgrows : Arena.Grows ∅ s.arena s₁.arena)
    (hreported : s₁.reported = s.reported) (err : Error) :
    (machine.handleErr err s₁).Ends H fun _ s' => Copied machine a id src slot s s' := by
  rw [handleErr]
  rcases machine.handler s₁.reported err with _ | e
  · refine ⟨hgrows.mono (Set.empty_subset _), ?_, ?_⟩
    · rw [← hreported]
      exact List.suffix_cons _ _
    · have hword := hgrows.word_eq hslot (Set.notMem_empty _)
      rw [← hword]
      refine (rests_holds (hgrows.lt_used hslot) (Set.mem_insert _ _)).imp
        fun _ hold => .kept hsome (Or.inl fun heq => ?_) hold
      -- something was reported
      have hlen : (err :: s₁.reported).length = s.reported.length := congrArg List.length heq
      rw [List.length_cons, hreported] at hlen
      omega
  · trivial

/-- A copy that was allocated and filled. -/
lemma Copied.of_filled (hreserves : Reserves s.arena slot start len φ s₁.arena)
    (hsource : ¬ a.Holds id src Word.null) (hslot : slot.pos < s.arena.used slot.segment)
    (hsome : s₁.arena.word slot ≠ Word.null) (hreported : s₁.reported = s.reported)
    (hfilled : Filled machine a id' plan (fun _ => Word.null) start 0 len s₁ s')
    (hcopy : ∀ (strict : Prop) (F : Set SegmentRef) (a' : ReadArena) (segment : Segment), φ a' →
      a' slot.segment = some segment → segment.data slot.pos ≠ Word.null → span start len ⊆ F →
      (∀ k < len, (plan k).Done machine a id' strict F (start.offset k) Word.null a') →
      CopyOf machine a strict F a' id src slot.segment slot.pos) : Copied machine a id src slot s s' := by
  obtain ⟨hgrows, hsuffix, hrests⟩ := hreserves.filled hslot hsome hreported hfilled
  have hleft : Arena.fresh s.arena s₁.arena ⊆ Arena.fresh s.arena s'.arena :=
    Store.fresh_subset_left hfilled.grows.store
  refine ⟨hgrows, hsuffix, hrests.imp ?_⟩
  rintro a' ⟨hφ, ⟨segment, hsegment, hne⟩, hdone⟩
  exact .copy hsource (hcopy _ _ a' segment hφ hsegment hne
    (fun r hr => hleft (hreserves.mem_fresh r hr)) hdone) (ReadArena.not_holds_null hsegment hne)

/-- What was filled as the plan of a shape says is a copy. -/
lemma CopyOf.of_plan {strict : Prop} {F : Set SegmentRef} {a' : ReadArena} {pos cost : ℕ}
    {segment block dsegment : Segment} {shape copy : Shape} (hsegment : a id = some segment)
    (hsource : segment.data src ≠ Word.null) (hdenotes : Denotes a id src id' (shape.content pos) cost)
    (hblock : a id' = some block)
    (hcopy : copy = shape.copied machine.canonical segment.data src block.data pos)
    (hroom : ¬ copy.Full) (hdsegment : a' slot.segment = some dsegment) (hsome : dsegment.data slot.pos ≠ Word.null)
    (hdenotes' : ∃ cost', Denotes a' slot.segment slot.pos start.segment (copy.content start.pos) cost')
    (hfresh : span start copy.words ⊆ F)
    (hdone : ∀ k < copy.words, (shape.plan copy block.data pos k).Done machine a id' strict F
      (start.offset k) Word.null a') : CopyOf machine a strict F a' id src slot.segment slot.pos := by
  obtain ⟨cost', hdenotes'⟩ := hdenotes'
  obtain ⟨dblock, hdblock⟩ := hdenotes'.segment
  refine .object hsegment hsource hdenotes hblock hcopy hroom hdsegment hsome hdenotes' hdblock hfresh ?_ ?_
  · intro k hk hdata
    have hword := hdone k hk
    rw [Shape.plan, hdata, if_neg Bool.false_ne_true] at hword
    obtain ⟨segment', hsegment', hdata'⟩ := hword
    rw [Option.mem_unique hdblock hsegment']
    exact hdata'
  · intro k hk hptr
    have hreplaces := hdone k hk
    rw [Shape.plan, hptr, if_pos rfl] at hreplaces
    exact Replaces.copyOf hreplaces

/-- The copy of a list, even of one that readers refuse. -/
lemma CopyOf.of_listPlan {strict : Prop} {F : Set SegmentRef} {a' : ReadArena} {pos cost : ℕ}
    {segment block dsegment : Segment} {size copy : ElementSize} {count : ElementCount}
    (hsegment : a id = some segment) (hsource : segment.data src ≠ Word.null)
    (hdenotes : Denotes a id src id' ((Shape.list size count).content pos) cost)
    (hblock : a id' = some block)
    (hcopy : .list copy count = (Shape.list size count).copied machine.canonical segment.data src
      block.data pos) (hdenotes' : ¬ (Shape.list copy count).Full ∧ (∃ cost, Denotes a' slot.segment
        slot.pos start.segment ((Shape.list copy count).content start.pos) cost) ∨
        (Shape.list copy count).Full ∧ ∀ id typed cost, ¬ Denotes a' slot.segment slot.pos id typed cost)
    (hdsegment : a' slot.segment = some dsegment) (hsome : dsegment.data slot.pos ≠ Word.null)
    (hfresh : span start (Shape.list copy count).words ⊆ F)
    (hdone : ∀ k < (Shape.list copy count).words, ((Shape.list size count).plan (.list copy count)
      block.data pos k).Done machine a id' strict F (start.offset k) Word.null a') :
    CopyOf machine a strict F a' id src slot.segment slot.pos := by
  rcases hdenotes' with ⟨hroom, hdenotes'⟩ | ⟨hfull, hrefuses⟩
  · exact .of_plan hsegment hsource hdenotes hblock hcopy hroom hdsegment hsome hdenotes' hfresh hdone
  · cases size with
    | inlineComposite size =>
      exact .full hsegment hdenotes hblock hcopy hfull hdsegment hsome hrefuses
    | _ =>
      cases hcopy
      exact hfull.elim

lemma building_of_ok {α : Type} {x : BuildM α} {v : α} (h : x s.arena = .ok v arena) :
    ∃ s₁ : CopyState, (building x : CopyM ε _) s = .ok (.ok v) s₁ ∧ s₁.arena = arena ∧
      s₁.reported = s.reported := by
  refine ⟨{ s with arena := arena }, ?_, rfl, rfl⟩
  rw [building, Prog.zoom, Prog.attempt, h]

lemma building_of_error {α : Type} {x : BuildM α} {e : Error} (h : x s.arena = .error e arena) :
    ∃ s₁ : CopyState, (building x : CopyM ε _) s = .ok (.error e) s₁ ∧ s₁.arena = arena ∧
      s₁.reported = s.reported := by
  refine ⟨{ s with arena := arena }, ?_, rfl, rfl⟩
  rw [building, Prog.zoom, Prog.attempt, h]

variable {segment block : Segment} {copyPtr : CopyPtr ε} {pos cost : ℕ}

/-- What is trimmed is inside of the segment. -/
lemma calculateCanonicalStructSize_eq {σ : Type} {size : StructSize}
    (hfits : pos + size.total ≤ block.len.get) :
    (calculateCanonicalStructSize (.inSegment a id block) pos size : Prog ε σ _) =
      pure (canonicalStructSize block.data pos size) := by
  have htotal := size.total_eq
  rw [calculateCanonicalStructSize, sectionSlice_eq_pure (by omega), pure_bind_eq,
    sectionSlice_eq_pure (by omega), pure_bind_eq]
  rfl

/-- The copy of a struct. -/
lemma copyStructContent_copied {size : StructSize} (hsegment : a id = some segment)
    (hsource : segment.data src ≠ Word.null)
    (hdenotes : Denotes a id src id' ((Shape.struct size).content pos) cost)
    (hblock : a id' = some block)
    (hcopy : ∀ j < size.ptrs, Copies machine a id' copyPtr H (pos + size.data + j))
    (hwf : s.arena.Wf) (hslot : slot.pos < s.arena.used slot.segment) :
    (machine.copyStructContent copyPtr (.inSegment a id' block) ⟨pos, size⟩ slot ⟨slot.segment⟩ s).Ends
      H fun _ s' => Copied machine a id src slot s s' := by
  have hfits : pos + size.total ≤ block.len.get := Shape.words_le_of_inside (hdenotes.inside hblock)
  have hnull := ReadArena.not_holds_null hsegment hsource
  obtain ⟨copy, hsize, hshape, hle⟩ : ∃ copy : StructSize,
      (if machine.canonical then calculateCanonicalStructSize (.inSegment a id' block) pos size
        else pure size : CopyM ε StructSize) = pure copy ∧
      Shape.struct copy = (Shape.struct size).copied machine.canonical segment.data src block.data pos ∧
      copy.Le size := by
    rcases hcanonical : machine.canonical with _ | _
    · exact ⟨size, rfl, rfl, .refl size⟩
    · exact ⟨_, calculateCanonicalStructSize_eq hfits, rfl, canonicalStructSize_le _ _ _⟩
  rw [copyStructContent]
  dsimp only
  rw [hsize, pure_bind_eq]
  rcases @ObjectBuilder.allocStruct_reserves s.arena ⟨slot.segment⟩ slot hwf rfl hslot copy with
    ⟨start, arena', hrun, hinside, hsome, hlays⟩ | ⟨n, arena', hrun, hgrows⟩
  · obtain ⟨s₁, hbuild, rfl, hreported⟩ := @building_of_ok ε _ _ _ _ _ hrun
    rw [bind_of_ok hbuild]
    have hready := hlays.reserves.ready hinside
    have hzero : 0 + copy.total = copy.total := Nat.zero_add _
    have hfilled := @copyStruct_filled ε machine a id' block copyPtr H copy.total
      ((Shape.struct size).plan (.struct copy) block.data pos) (fun _ => Word.null) start pos 0
      s₁ hblock size copy (fun hlt => absurd hfits (Nat.not_le.2 hlt)) (hzero.symm ▸ hready) (Nat.le_of_eq hzero) (by
        intro k hk
        rw [Nat.zero_add]
        exact Shape.plan_struct hle hk) (fun j hj _ => hcopy j hj)
    refine hfilled.imp (fun _ h => h) fun _ s' hfilled => ?_
    rw [hzero] at hfilled
    refine Copied.of_filled hlays.reserves hnull hslot hsome hreported hfilled ?_
    intro strict F a' dsegment hdenotes' hdsegment hne hfresh hdone
    exact .of_plan hsegment hsource hdenotes hblock hshape (fun h => h) hdsegment hne hdenotes' hfresh hdone
  · obtain ⟨s₁, hbuild, rfl, hreported⟩ := @building_of_error ε _ _ _ _ _ hrun
    rw [bind_of_ok hbuild]
    exact handleErr_copied hnull hslot hgrows hreported _

/-- What is in a list is inside of its segment, and there is a place for a tag. -/
lemma Denotes.exactWords_lt {size : ElementSize} {count : ElementCount}
    (hdenotes : Denotes a id src id' ((Shape.list size count).content pos) cost)
    (hblock : a id' = some block) : size.exactWords count < 2 ^ 29 := by
  have hfits := Shape.words_le_of_inside (hdenotes.inside hblock)
  have hlt := block.len.get_lt
  have hwords : (Shape.list size count).words = (size.bits * count.get + 63) / 64 := rfl
  obtain ⟨mid, content, pads, words, -, hdescribes, -⟩ := hdenotes
  generalize htyped : (Shape.list size count).content pos = typed at hdescribes
  cases hdescribes with
  | struct => cases htyped
  | @list id'' pos' size' count' _ hptrSize hsize =>
    cases htyped
    have hcomposite : size.isInlineComposite = false := by
      rw [← hsize]
      rcases hptr : ListPtr.elementSize content.ptr with _ | _ | _ | _ | _ | _ | _ | _
      all_goals first | rfl | exact absurd hptr hptrSize
    rw [ElementSize.exactWords, hcomposite]
    show (size.bits * count.get + 63) / 64 + 0 < 2 ^ 29
    omega
  | @inlineComposite _ _ place words tag _ _ _ hlt' _ _ _ _ hfits' =>
    cases htyped
    rw [exactWords_inlineComposite]
    omega
  | capability => cases htyped

lemma Shape.plan_self {shape : Shape} {words : ℕ → Word} {k : ℕ} :
    shape.plan shape words pos k =
      if shape.isPtr k then .ptr (pos + k) else .word (words (pos + k)) := by
  rw [plan, source_self]

/-- The words of a list that is smaller than a segment. -/
lemma totalWords_of_lt {size : ElementSize} {count : ElementCount}
    (hlt : (Shape.list size count).words < 2 ^ 29) :
    ∃ words : ObjectLen, U29.new (size.totalWords count.get) = some words ∧
      words.get = (Shape.list size count).words := by
  have hwords : size.totalWords count.get = (Shape.list size count).words :=
    Nat.mod_eq_of_lt (by
      show (Shape.list size count).words < 2 ^ 32
      omega)
  rw [hwords]
  exact ⟨⟨_, hlt⟩, U29.new_of_lt hlt, rfl⟩

/-- What is in use of a segment is smaller than one. -/
lemma Ready.lt {words b c : ℕ} {old : ℕ → Word} (h : Ready words old start b c arena) : words < 2 ^ 29 := by
  have hinside := h.inside
  have hlen := h.wf.used_le_len start.segment
  have hlt : arena.len start.segment < 2 ^ 29 := by
    unfold Arena.len
    rcases arena.segments[start.segment]? with _ | segment
    · decide
    · exact segment.segment.len.get_lt
  omega

/-- Structs that are plain data have no pointers. -/
lemma mod_total_lt {size : StructSize} (hptrs : ¬ (ElementSize.inlineComposite size).isPtrs = true)
    (hdata : (ElementSize.inlineComposite size).isData = true) {k : ℕ} :
    k % size.total < size.data := by
  have hsome : size.data ≠ 0 := by
    intro hzero
    simp_all [ElementSize.isPtrs, ElementSize.isData]
  have hnone : size.ptrs = 0 := by
    by_contra h
    simp_all [ElementSize.isPtrs, ElementSize.isData, ElementSize.isComposite]
  have htotal : size.total = size.data := by
    rw [StructSize.total, hnone, Nat.add_zero]
  rw [htotal]
  exact Nat.mod_lt _ (Nat.pos_of_ne_zero hsome)

/-- In a list of pointers, or of structs of pointers, all words are pointers. -/
lemma Shape.isPtr_of_isPtrs {size : ElementSize} (hptrs : size.isPtrs = true) (count : ElementCount)
    (k : ℕ) : (Shape.list size count).isPtr k = true := by
  cases size with
  | pointer => rfl
  | inlineComposite size =>
    obtain ⟨-, hdata⟩ := Bool.and_eq_true_iff.1 hptrs
    have hnone : size.data = 0 := eq_of_beq hdata
    exact decide_eq_true (by omega)
  | _ => cases hptrs

/-- In a list of data there are none. -/
lemma Shape.isPtr_of_isData {size : ElementSize} (hptrs : ¬ size.isPtrs = true)
    (hdata : size.isData = true) (count : ElementCount) (k : ℕ) :
    (Shape.list size count).isPtr k = false := by
  cases size with
  | pointer => exact absurd rfl hptrs
  | inlineComposite size => exact decide_eq_false (Nat.not_le.2 (mod_total_lt hptrs hdata))
  | _ => rfl

/-- A list that has words is copied over another one of the same size. -/
lemma copyList_filled {size : ElementSize} {count : ElementCount} {old : ℕ → Word}
    (hblock : a id = some block)
    (hout : block.len.get < pos + (Shape.list size count).words → H .undefined)
    (hready : Ready (Shape.list size count).words old start 0 (Shape.list size count).words s.arena)
    (hvoid : size ≠ .void)
    (hcopy : ∀ k < (Shape.list size count).words, (Shape.list size count).isPtr k = true →
      Copies machine a id copyPtr H (pos + k)) :
    (copyList copyPtr pos (.inSegment a id block) start ⟨start.segment⟩ size count s).Ends H fun _ s' =>
      Filled machine a id ((Shape.list size count).plan (.list size count) block.data pos) old start 0
        (Shape.list size count).words s s' := by
  obtain ⟨words, hnew, hwords⟩ := totalWords_of_lt hready.lt
  have hzero : 0 + words.get = (Shape.list size count).words := by rw [hwords, Nat.zero_add]
  rw [copyList.eq_def]
  by_cases hptrs : size.isPtrs = true
  · have hptr := Shape.isPtr_of_isPtrs hptrs count
    rw [if_pos_apply hptrs, hnew, unwrap_some, pure_bind_eq, ← hzero]
    refine copyPtrSection_filled hblock (fun hlt => hout (by omega)) (hzero ▸ hready) (Nat.le_of_eq hzero) ?_ ?_
    · intro i hi
      rw [Nat.zero_add, Shape.plan_self, hptr, if_pos rfl]
    · intro i hi
      exact hcopy i (by omega) (hptr i)
  · rw [if_neg_apply hptrs]
    by_cases hdata : size.isData = true
    · have hptr := Shape.isPtr_of_isData hptrs hdata count
      rw [if_pos_apply hdata, hnew, unwrap_some, pure_bind_eq, ← hzero]
      refine copyWords_filled (fun hlt => hout (by omega)) (hzero ▸ hready) (Nat.le_of_eq hzero) ?_
      intro i hi
      rw [Nat.zero_add, Shape.plan_self, hptr, if_neg Bool.false_ne_true]
    · rw [if_neg_apply hdata]
      cases size with
      | inlineComposite size =>
        have hstructs := Shape.words_structs size count
        have hlt := hready.lt
        have hmax := U29.maxValue_eq
        have hend : 0 + size.total * count.get = (Shape.list (.inlineComposite size) count).words := by
          rw [Nat.zero_add, hstructs]
        have hready' : Ready (Shape.list (.inlineComposite size) count).words old start 0
            (0 + size.total * count.get) s.arena := by
          rw [hend]
          exact hready
        have hcount : size.total * count.get ≤ U29.maxValue := by omega
        rw [← hend]
        refine copyInlineComposites_filled hblock (fun hlt => hout (hstructs.symm ▸ hlt)) hready'
          (Nat.le_of_eq hend) hcount hcount ?_ ?_
        · intro i hi k hk
          rw [Nat.zero_add]
          exact Shape.plan_element (.refl size) hk
        · intro i hi j hj _
          have hpart := Shape.partAt_element size hi
          have htotal := size.total_eq
          have hle := hpart.le
          rw [Nat.add_assoc, Nat.add_assoc]
          refine hcopy _ (by omega) ?_
          rw [hpart.isPtr _ (by omega)]
          exact decide_eq_true (by omega)
      | void => exact absurd rfl hvoid
      | pointer => exact absurd rfl hptrs
      | _ => exact absurd rfl hdata

/-- The copy of a list of the same element size. -/
lemma copyListContent_copied {size : ElementSize} {count : ElementCount} (hsegment : a id = some segment)
    (hsource : segment.data src ≠ Word.null)
    (hdenotes : Denotes a id src id' ((Shape.list size count).content pos) cost)
    (hblock : a id' = some block)
    (hshape : .list size count = (Shape.list size count).copied machine.canonical segment.data src
      block.data pos)
    (hcopy : ∀ k < (Shape.list size count).words, (Shape.list size count).isPtr k = true →
      Copies machine a id' copyPtr H (pos + k))
    (hwf : s.arena.Wf) (hslot : slot.pos < s.arena.used slot.segment) :
    (machine.copyListContent copyPtr (.inSegment a id' block) ⟨pos, size, count⟩ slot ⟨slot.segment⟩
      s).Ends H fun _ s' => Copied machine a id src slot s s' := by
  have hfits : pos + (Shape.list size count).words ≤ block.len.get :=
    Shape.words_le_of_inside (hdenotes.inside hblock)
  have hnull := ReadArena.not_holds_null hsegment hsource
  rw [copyListContent]
  dsimp only
  rcases @ObjectBuilder.allocList_reserves s.arena ⟨slot.segment⟩ slot hwf rfl hslot _ _
      (hdenotes.exactWords_lt hblock) with
    ⟨start, len, arena', hrun, hlen, hinside, hsome, hreserves⟩ | ⟨n, arena', hrun, hgrows⟩
  · obtain ⟨s₁, hbuild, rfl, hreported⟩ := @building_of_ok ε _ _ _ _ _ hrun
    rw [bind_of_ok hbuild]
    dsimp only
    have hready := hreserves.ready hinside
    by_cases hempty : len.get = 0
    · -- a list without any words
      have hwords : (Shape.list size count).words = 0 := by
        rw [hlen] at hempty
        exact Nat.eq_zero_of_add_eq_zero_right hempty
      rw [if_pos_apply hempty]
      have hfilled : Filled machine a id' ((Shape.list size count).plan (.list size count) block.data
          pos) (fun _ => Word.null) start 0 (Shape.list size count).words s₁ s₁ := by
        refine hready.kept (Nat.le_refl _) ?_
        intro k _ hk
        omega
      exact Copied.of_filled hreserves hnull hslot hsome hreported hfilled fun _ _ _ _ =>
        .of_listPlan hsegment hsource hdenotes hblock hshape
    · rw [if_neg_apply hempty]
      have hvoid : size ≠ .void := by
        rintro rfl
        refine hempty (hlen.trans ?_)
        show (0 * count.get + 63) / 64 + 0 = 0
        rw [Nat.zero_mul]
      refine (copyList_filled hblock (fun hlt => absurd hfits (Nat.not_le.2 hlt)) hready hvoid
        hcopy).imp (fun _ h => h) fun _ s' hfilled => ?_
      exact Copied.of_filled hreserves hnull hslot hsome hreported hfilled fun _ _ _ _ =>
        .of_listPlan hsegment hsource hdenotes hblock hshape
  · obtain ⟨s₁, hbuild, rfl, hreported⟩ := @building_of_error ε _ _ _ _ _ hrun
    rw [bind_of_ok hbuild]
    exact handleErr_copied hnull hslot hgrows hreported _

lemma calculateCanonicalStructSize_ends {ε σ : Type} {t : σ} (size : StructSize) :
    (calculateCanonicalStructSize (.inSegment a id block) pos size t : Outcome ε σ _).Ends
      (fun r => r = .undefined ∧ block.len.get < pos + size.total)
      fun copy t' => t' = t ∧ copy = canonicalStructSize block.data pos size := by
  have htotal := size.total_eq
  rw [calculateCanonicalStructSize]
  refine ends_bind ((sectionSlice_ends size.data).imp ?_ fun _ _ h => h) ?_
  · rintro r ⟨rfl, hlt⟩
    exact ⟨rfl, by omega⟩
  · rintro words _ ⟨rfl, rfl⟩
    refine ends_bind ((sectionSlice_ends size.ptrs).imp ?_ fun _ _ h => h) ?_
    · rintro r ⟨rfl, hlt⟩
      exact ⟨rfl, by omega⟩
    · rintro words _ ⟨rfl, rfl⟩
      exact ⟨rfl, rfl⟩

/-- The elements are measured, as long as they are inside of the segment. -/
lemma maxCanonicalStructSize_ends {ε σ : Type} {t : σ} (size : StructSize) (count : ℕ) :
    (maxCanonicalStructSize (.inSegment a id block) pos size count t : Outcome ε σ _).Ends
      (fun r => r = .undefined ∧ block.len.get < pos + size.total * count)
      fun copy t' => t' = t ∧ copy = canonicalElementSize block.data pos size count := by
  induction count with
  | zero => exact ⟨rfl, rfl⟩
  | succ count ih =>
    have hnext : size.total * (count + 1) = size.total * count + size.total := Nat.mul_succ _ _
    refine ends_bind (ih.imp ?_ fun _ _ h => h) ?_
    · rintro r ⟨rfl, hlt⟩
      exact ⟨rfl, by omega⟩
    · rintro smaller _ ⟨rfl, rfl⟩
      refine ends_bind ((calculateCanonicalStructSize_ends size).imp ?_ fun _ _ h => h) ?_
      · rintro r ⟨rfl, hlt⟩
        exact ⟨rfl, by omega⟩
      · rintro last _ ⟨rfl, rfl⟩
        exact ⟨rfl, rfl⟩

/-- The copy of a list of structs in canonical form. -/
lemma copyCanonicalList_copied {size : StructSize} {count : ElementCount}
    (hsegment : a id = some segment) (hsource : segment.data src ≠ Word.null)
    (hdenotes : Denotes a id src id' ((Shape.list (.inlineComposite size) count).content pos) cost)
    (hblock : a id' = some block) (hcanonical : machine.canonical = true)
    (hscan : segment.len.get < src + size.total * count.get → H .undefined)
    (hcopy : ∀ k < (Shape.list (.inlineComposite size) count).words,
      (Shape.list (.inlineComposite size) count).isPtr k = true →
      Copies machine a id' copyPtr H (pos + k))
    (hwf : s.arena.Wf) (hslot : slot.pos < s.arena.used slot.segment) :
    (machine.copyCanonicalList copyPtr src (.inSegment a id segment) (.inSegment a id' block)
      ⟨pos, .inlineComposite size, count⟩ size slot ⟨slot.segment⟩ s).Ends H
      fun _ s' => Copied machine a id src slot s s' := by
  have hexact := hdenotes.exactWords_lt hblock
  have hfits : pos + size.total * count.get ≤ block.len.get :=
    Shape.words_structs size count ▸ Shape.words_le_of_inside (hdenotes.inside hblock)
  have hnull := ReadArena.not_holds_null hsegment hsource
  have hmax := U29.maxValue_eq
  rw [exactWords_inlineComposite, Nat.mul_comm] at hexact
  rw [copyCanonicalList, calculateCanonicalInlineCompositeSize]
  dsimp only
  rw [stepByUnchecked, assert_of (show size.total * count.get ≤ U29.maxValue by omega),
    pure_bind_eq]
  refine ends_bind ((maxCanonicalStructSize_ends size count.get).imp ?_ fun _ _ h => h) ?_
  · rintro r ⟨rfl, hlt⟩
    exact hscan hlt
  rintro copy s ⟨rfl, hcopySize⟩
  have hle : copy.Le size := hcopySize ▸ canonicalElementSize_le _ _ _ _
  have hshape : Shape.list (.inlineComposite copy) count = (Shape.list (.inlineComposite size)
      count).copied machine.canonical segment.data src block.data pos := by
    rw [hcanonical, hcopySize]
    rfl
  have htotal : copy.total * count.get ≤ size.total * count.get := Nat.mul_le_mul_right _ hle.total
  have hcopyExact : (ElementSize.inlineComposite copy).exactWords count < 2 ^ 29 := by
    rw [exactWords_inlineComposite, Nat.mul_comm]
    omega
  have hwords := Shape.words_structs copy count
  rcases @ObjectBuilder.allocList_reserves s.arena ⟨slot.segment⟩ slot hwf rfl hslot _ _ hcopyExact with
    ⟨start, len, arena', hrun, hlen, hinside, hsome, hreserves⟩ | ⟨n, arena', hrun, hgrows⟩
  · obtain ⟨s₁, hbuild, rfl, hreported⟩ := @building_of_ok ε _ _ _ _ _ hrun
    rw [bind_of_ok hbuild]
    dsimp only
    have hready := hreserves.ready hinside
    by_cases hempty : copy = StructSize.empty
    · -- there is nothing in the elements
      rw [if_pos_apply hempty]
      refine Copied.of_filled hreserves hnull hslot hsome hreported ?_ fun _ _ _ _ =>
        .of_listPlan hsegment hsource hdenotes hblock hshape
      refine hready.kept (Nat.le_refl _) ?_
      intro k _ hk
      rw [hwords, hempty, show StructSize.empty.total = 0 from rfl, Nat.zero_mul] at hk
      omega
    · rw [if_neg_apply hempty]
      have hend : 0 + copy.total * count.get = (Shape.list (.inlineComposite copy) count).words := by
        rw [Nat.zero_add, hwords]
      have hready' : Ready (Shape.list (.inlineComposite copy) count).words (fun _ => Word.null) start 0
          (0 + copy.total * count.get) s₁.arena := by
        rw [hend]
        exact hready
      have hfilled := @copyInlineComposites_filled ε machine a id' block copyPtr H _
        ((Shape.list (.inlineComposite size) count).plan (.list (.inlineComposite copy) count)
          block.data pos) (fun _ => Word.null) start pos 0 s₁ hblock size copy count
        (fun hlt => absurd hfits (Nat.not_le.2 hlt)) hready' (Nat.le_of_eq hend) (by omega)
        (by omega) (by
          intro i hi k hk
          rw [Nat.zero_add]
          exact Shape.plan_element hle hk) (by
          intro i hi j hj _
          have hpart := Shape.partAt_element size hi
          have htotal := size.total_eq
          have hpartLe := hpart.le
          rw [Nat.add_assoc, Nat.add_assoc]
          refine hcopy _ (by omega) ?_
          rw [hpart.isPtr _ (by omega)]
          exact decide_eq_true (by omega))
      refine hfilled.imp (fun _ h => h) fun _ s' hfilled => ?_
      rw [hend] at hfilled
      exact Copied.of_filled hreserves hnull hslot hsome hreported hfilled fun _ _ _ _ =>
        .of_listPlan hsegment hsource hdenotes hblock hshape
  · obtain ⟨s₁, hbuild, rfl, hreported⟩ := @building_of_error ε _ _ _ _ _ hrun
    rw [bind_of_ok hbuild]
    exact handleErr_copied hnull hslot hgrows hreported _

/-- The copy of a capability. -/
lemma copyCapability_copied {index : ℕ} (hsegment : a id = some segment)
    (hsource : segment.data src ≠ Word.null) (hdenotes : Denotes a id src id' (.capability index) cost)
    (hwf : s.arena.Wf) (hslot : slot.pos < s.arena.used slot.segment) :
    (machine.copyCapability index slot ⟨slot.segment⟩ s).Ends H
      fun _ s' => Copied machine a id src slot s s' := by
  have hnull := ReadArena.not_holds_null hsegment hsource
  rw [copyCapability]
  rcases machine.canonical with _ | _
  · rw [if_neg_apply Bool.false_ne_true, bind_of_ok (get_apply s),
      bind_of_ok (modify_apply _ s)]
    rcases hanswer : machine.copyCap s.caps index with err | (_ | newIndex)
    · have hgrows : Arena.Grows ∅ s.arena ({ s with caps := index :: s.caps } : CopyState).arena :=
        .refl hwf
      exact handleErr_copied hnull hslot hgrows rfl err
    · refine ⟨.refl hwf, List.suffix_refl _, ?_⟩
      exact (rests_holds hslot (Set.mem_insert _ _)).imp fun _ hold =>
        .kept hnull (Or.inr ⟨id', index, cost, hdenotes, s.caps, hanswer⟩) hold
    · have hgrows := Arena.grows_set hwf hslot (CapabilityPtr.new newIndex)
      have hslot' := hgrows.lt_used hslot
      have hword : (s.arena.write slot 1 fun _ => CapabilityPtr.new newIndex).word slot =
          CapabilityPtr.new newIndex := by
        rw [Arena.word_set hslot, if_pos rfl]
      have hrun : (writing (ObjectBuilder.setPtr ⟨slot.segment⟩ slot (CapabilityPtr.new newIndex)) :
          CopyM ε Unit) { s with caps := index :: s.caps } = .ok ()
          { s with caps := index :: s.caps,
                   arena := s.arena.write slot 1 fun _ => CapabilityPtr.new newIndex } := by
        rw [writing, Prog.zoom, ObjectBuilder.setPtr_apply hwf hslot]
      show ((writing (ObjectBuilder.setPtr ⟨slot.segment⟩ slot (CapabilityPtr.new newIndex)) :
          CopyM ε Unit) { s with caps := index :: s.caps }).Ends H _
      rw [hrun]
      refine ⟨hgrows, List.suffix_refl _, ?_⟩
      refine (rests_holds hslot' (Set.mem_insert _ _)).imp fun a' hold => ?_
      rw [hword] at hold
      refine .copy hnull (.capability hdenotes ⟨s.caps, hanswer⟩ hold) fun hnull' => ?_
      exact CapabilityPtr.ne_null_new newIndex (hold.unique hnull')
  · rw [if_pos_apply rfl]
    exact handleErr_copied hnull hslot (.refl hwf) rfl _

end Objects

/-! ## Pointers -/

/-- The copy of a pointer, to a depth, may halt for this reason: the depth is used up, or elements
are measured that are not in the segment. -/
inductive Stuck {ε : Type} (machine : CopyMachine ε) (a : ReadArena) :
    ℕ → SegmentId → ℕ → Halt → Prop
  | depth {id : SegmentId} {src : ℕ} : Stuck machine a 0 id src .depth
  | scan {n : ℕ} {id id' : SegmentId} {src pos cost : ℕ} {segment : Segment} {size : StructSize}
      {count : ElementCount} (hcanonical : machine.canonical = true) (hsegment : a id = some segment)
      (hdenotes : Denotes a id src id' ((Shape.list (.inlineComposite size) count).content pos) cost)
      (hscan : segment.len.get < src + size.total * count.get) :
      Stuck machine a (n + 1) id src .undefined
  | step {n : ℕ} {id id' : SegmentId} {src pos cost k : ℕ} {block : Segment} {shape : Shape} {r : Halt}
      (hdenotes : Denotes a id src id' (shape.content pos) cost) (hblock : a id' = some block)
      (hk : k < shape.words) (hptr : shape.isPtr k = true)
      (hsome : block.data (pos + k) ≠ Word.null) (hslot : Stuck machine a n id' (pos + k) r) :
      Stuck machine a (n + 1) id src r

section Pointers

open CopyMachine

variable {ε : Type} {machine : CopyMachine ε} {a : ReadArena}

/-- What is read is what the pointer denotes, and the arena stays as it is. -/
lemma reading_ends {id : SegmentId} {segment : Segment} (hsegment : a id = some segment) (src : ℕ)
    (s : CopyState) :
    ((reading (ObjectReader.tryReadTyped (.inSegment a id segment) src) : CopyM ε _) s).Ends
      (fun _ => False) fun result s₁ => s₁.arena = s.arena ∧ s₁.reported = s.reported ∧
        ∀ reader typed, result = .ok (reader, typed) → ∃ id' block cost, a id' = some block ∧
          reader = .inSegment a id' block ∧ Denotes a id src id' typed cost := by
  refine ends_zoom_attempt ?_ ?_ ?_
  · rintro ⟨reader, typed⟩ limiter hrun
    refine ⟨rfl, rfl, ?_⟩
    rintro reader' typed' heq
    cases heq
    obtain ⟨id', block, cost, hblock, hreader, hdenotes, -⟩ := (tryReadTyped_eq_ok hsegment).1 hrun
    exact ⟨id', block, cost, hblock, hreader, hdenotes⟩
  · intro e limiter _
    exact ⟨rfl, rfl, fun _ _ h => (nomatch h)⟩
  · intro r hrun
    exact (within_tryReadTyped spends_any (.inSegment a id segment) src).halt trivial hrun

/-- **A deep copy**: a pointer that is copied becomes a copy of what is below it. -/
theorem copyPtr_copied (n : ℕ) (id : SegmentId) (src : ℕ) :
    Copies machine a id (machine.copyPtr n) (Stuck machine a n id src) src := by
  induction n generalizing id src with
  | zero =>
    intro segment _ _ slot s _ _
    exact Stuck.depth
  | succ n ih =>
    intro segment hsegment hsource slot s hwf hslot
    have hnull := ReadArena.not_holds_null hsegment hsource
    rw [copyPtr]
    refine ends_bind ((reading_ends hsegment src s).imp (fun _ h => h.elim) fun _ _ h => h) ?_
    rintro result s₁ ⟨harena, hreported, hread⟩
    rw [← harena] at hwf hslot
    -- the copy starts from what the reader left, which differs in its limiter only
    suffices hcopied : Outcome.Ends (Stuck machine a (n + 1) id src)
        (fun _ s' => Copied machine a id src slot s₁ s') _ by
      refine hcopied.imp (fun _ h => h) fun _ s' hcopied => ?_
      obtain ⟨hgrows, hsuffix, hreplaces⟩ := hcopied
      rw [harena] at hgrows hreplaces
      rw [hreported] at hsuffix hreplaces
      exact ⟨hgrows, hsuffix, hreplaces⟩
    rcases result with err | ⟨reader, typed⟩
    · exact handleErr_copied hnull hslot (.refl hwf) rfl err
    · obtain ⟨id', block, cost, hblock, rfl, hdenotes⟩ := hread reader typed rfl
      have hchild : ∀ (shape : Shape) (pos k : ℕ), typed = shape.content pos → k < shape.words →
          shape.isPtr k = true →
          Copies machine a id' (machine.copyPtr n) (Stuck machine a (n + 1) id src) (pos + k) := by
        rintro shape pos k rfl hk hptr block' hblock' hsome slot' t hwf' hslot'
        exact (ih id' (pos + k) block' hblock' hsome slot' t hwf' hslot').imp
          (fun r hr => .step hdenotes hblock' hk hptr hsome hr) fun _ _ h => h
      cases typed with
      | struct content =>
        obtain ⟨pos, size⟩ := content
        refine copyStructContent_copied hsegment hsource hdenotes hblock ?_ hwf hslot
        intro j hj
        rw [Nat.add_assoc]
        refine hchild (.struct size) pos (size.data + j) rfl ?_ (decide_eq_true (Nat.le_add_right _ _))
        exact Nat.add_lt_add_left hj _
      | list content =>
        obtain ⟨pos, size, count⟩ := content
        have hcopy := fun k => hchild (.list size count) pos k rfl
        have hlist (hshape : .list size count = (Shape.list size count).copied machine.canonical
            segment.data src block.data pos) :=
          copyListContent_copied hsegment hsource hdenotes hblock hshape hcopy hwf hslot
        cases size with
        | inlineComposite size =>
          rcases hcanonical : machine.canonical with _ | _
          · rw [hcanonical] at hlist
            exact hlist rfl
          · exact copyCanonicalList_copied hsegment hsource hdenotes hblock hcanonical
              (fun hscan => .scan hcanonical hsegment hdenotes hscan) hcopy hwf hslot
        | _ => exact hlist rfl
      | capability index =>
        exact copyCapability_copied hsegment hsource hdenotes hwf hslot

end Pointers

end Recapn.Ptr

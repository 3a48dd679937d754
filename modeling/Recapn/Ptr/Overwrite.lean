/-
# Copying a struct over another one

A struct cannot be resized in place, so a copy over it goes through the sections that both structs
have.  What the copy does not reach keeps what was there: the data behind that of the source, the
pointers behind those of the source, and the pointers that are null or cannot be read in the
source.  The target is replaced just when none of these held anything.
-/
import Recapn.Ptr.CopyReads
import Recapn.Ptr.DeepCopy
import Recapn.Ptr.Failing

namespace Recapn.Ptr

open Recapn.Lib Recapn.Lib.Prog

/-! ## Structs of a list -/

namespace ListBuilder

end ListBuilder

/-! ## Structs in arenas and in messages -/

/-- The builder is that of a struct of this size, in words that are in use. -/
structure StructBuilder.At (target : StructBuilder) (size : StructSize) (arena : Arena) : Prop where
  wf : arena.Wf
  builder : target.builder = ⟨target.dataStart.segment⟩
  ptrsStart : target.ptrsStart = target.dataStart.offset size.data
  dataLen : target.dataLen = size.data * 8
  ptrsLen : target.ptrsLen = size.ptrs
  inside : target.dataStart.pos + size.total ≤ arena.used target.dataStart.segment

/-- The sections of the struct are in a segment of the message. -/
structure StructReader.In (source : StructReader) (a : ReadArena) (id : SegmentId) (block : Segment) :
    Prop where
  reader : source.reader = .inSegment a id block
  segment : a id = some block
  data : source.dataStart + (source.dataLen + 7) / 8 ≤ block.len.get
  ptrs : source.ptrsStart + source.ptrsLen ≤ block.len.get

/-- A byte of a data section. -/
def Arena.byte (arena : Arena) (start : SegmentRef) (i : ℕ) : Byte :=
  (arena.word (start.offset (i / 8))).bytes.getD (i % 8) 0

/-- A byte of a data section. -/
def Segment.byte (segment : Segment) (start i : ℕ) : Byte :=
  (segment.data (start + i / 8)).bytes.getD (i % 8) 0

/-! ## The data that is copied -/

/-- A word of a data section over which `len` bytes were copied. -/
def copiedWord (words : ℕ → Word) (src len : ℕ) (old : Word) (k : ℕ) : Word :=
  if 8 * k + 8 ≤ len then words (src + k)
  else if 8 * k < len then old.setBytes 0 ((words (src + k)).bytes.take (len % 8)) else old

/-- The bytes of the source, and then those that were there. -/
lemma getD_bytes_copiedWord (words : ℕ → Word) (src len : ℕ) (old : Word) (i : ℕ) :
    (copiedWord words src len old (i / 8)).bytes.getD (i % 8) 0 =
      if i < len then (words (src + i / 8)).bytes.getD (i % 8) 0 else old.bytes.getD (i % 8) 0 := by
  by_cases hwhole : 8 * (i / 8) + 8 ≤ len
  · rw [copiedWord, if_pos hwhole, if_pos (by omega)]
  · by_cases hpart : 8 * (i / 8) < len
    · have hlen : ((words (src + i / 8)).bytes.take (len % 8)).length = len % 8 := by
        rw [List.length_take, Word.length_bytes]
        omega
      rw [copiedWord, if_neg hwhole, if_pos hpart, Word.getD_bytes_setBytes (by rw [hlen]; omega), hlen]
      by_cases hi : i < len
      · rw [if_pos (by omega), if_pos hi, Nat.sub_zero, List.getD_eq_getElem?_getD,
          List.getElem?_take_of_lt (by omega), ← List.getD_eq_getElem?_getD]
      · rw [if_neg (by omega), if_neg hi]
    · rw [copiedWord, if_neg hwhole, if_neg hpart, if_neg (by omega)]

section DataBytes

open CopyMachine

variable {ε : Type} {machine : CopyMachine ε} {a : ReadArena} {id : SegmentId} {block : Segment}
  {self : StructBuilder} {size : StructSize} {other : StructReader} {s : CopyState}
  {H : Halt → Prop} {plan : ℕ → Item} {old : ℕ → Word}

/-- The bytes that both structs have are copied. -/
lemma StructBuilder.copyDataBytes_filled (hother : other.In a id block) {len : ℕ}
    (hlen : len ≤ size.data * 8) (hotherLen : len ≤ other.dataLen)
    (hready : Ready size.total old self.dataStart 0 size.data s.arena)
    (hplan : ∀ k < size.data, plan k = .word (copiedWord block.data other.dataStart len (old k) k)) :
    ((self.copyDataBytes other len : CopyM ε Unit) s).Ends H
      fun _ s' => Filled machine a id plan old self.dataStart 0 size.data s s' := by
  have htotal := size.total_eq
  have hdata := hother.data
  have hslice : other.dataStart + (len + 7) / 8 ≤ block.len.get := by omega
  have hinside := hready.inside
  rw [copyDataBytes, hother.reader, sectionSlice_eq_pure hslice, pure_bind_eq]
  -- the whole words
  have hwhole := @writeSection_filled ε machine a id H size.total plan old self.dataStart 0 (len / 8) s
    (fun k => block.data (other.dataStart + k)) (hready.narrow (by omega)) (by omega) (by
      intro i hi
      rw [Nat.zero_add, hplan i (by omega), copiedWord, if_pos (by omega)])
  refine ends_bind hwhole fun _ s₁ hfilled => ?_
  rw [Nat.zero_add] at hfilled
  have hready₁ := hready.filled (by omega) hfilled (Nat.zero_le _)
  have hkept : ∀ {t : CopyState} {b : ℕ}, Ready size.total old self.dataStart b size.data t.arena →
      len ≤ 8 * b → Filled machine a id plan old self.dataStart b size.data t t := by
    intro t b ht hb
    refine ht.kept (by omega) ?_
    intro k hle hlt
    rw [hplan k hlt, copiedWord, if_neg (by omega), if_neg (by omega)]
  by_cases hrest : len % 8 = 0
  · rw [if_pos_apply hrest]
    exact Filled.append hinside (Nat.zero_le _) (by omega) (by omega) hfilled (hkept hready₁ (by omega))
  · -- the bytes of the last one
    rw [if_neg_apply hrest]
    have hbytes : ((block.data (other.dataStart + len / 8)).bytes.take (len % 8)).length = len % 8 := by
      rw [List.length_take, Word.length_bytes]
      omega
    have hlast := @setBytes_filled ε machine a id H size.total plan old self.dataStart (len / 8) s₁ 0
      ((block.data (other.dataStart + len / 8)).bytes.take (len % 8)) (hready₁.narrow (by omega))
      (by omega) (by
        rw [hplan _ (by omega), copiedWord, if_neg (by omega), if_pos (by omega)]
        rfl)
    refine hlast.imp (fun _ h => h) fun _ s₂ hfilled₁ => ?_
    have hboth := Filled.append hinside (Nat.zero_le _) (Nat.le_succ _) (by omega) hfilled hfilled₁
    exact Filled.append hinside (Nat.zero_le _) (by omega) (by omega) hboth
      (hkept (hready.filled (by omega) hboth (Nat.zero_le _)) (by omega))

end DataBytes

/-! ## Structs that are replaced -/

section Overwrite

open CopyMachine

variable {ε : Type} {machine : CopyMachine ε} {a : ReadArena} {id : SegmentId} {block : Segment}
  {self : StructBuilder} {size : StructSize} {other : StructReader} {s s' : CopyState} {depth : ℕ}

/-- The words of the target before the copy. -/
def StructBuilder.before (target : StructBuilder) (s : CopyState) (k : ℕ) : Word :=
  s.arena.word (target.dataStart.offset k)

/-- What a copy brings to the words of the target. -/
def StructBuilder.plan (target : StructBuilder) (size : StructSize) (block : Segment)
    (other : StructReader) (s : CopyState) (k : ℕ) : Item :=
  if k < size.data then .word (copiedWord block.data other.dataStart
    (min target.dataLen other.dataLen) (target.before s k) k)
  else if k - size.data < other.ptrsLen then .ptr (other.ptrsStart + (k - size.data))
  else .word (target.before s k)

/-- A struct was copied over the target. -/
lemma StructBuilder.tryCopyWithCaveats_filled (hself : self.At size s.arena)
    (hother : other.In a id block) :
    (self.tryCopyWithCaveats machine depth other s).Ends (fun _ => True) fun _ s' =>
      Filled machine a id (self.plan size block other s) (self.before s) self.dataStart 0 size.total s
        s' := by
  have htotal := size.total_eq
  have hinside := hself.inside
  have hptrs := Nat.min_le_left self.ptrsLen other.ptrsLen
  have hptrs' := Nat.min_le_right self.ptrsLen other.ptrsLen
  have hptrsLen := hself.ptrsLen
  have hfits := hother.ptrs
  have hready : Ready size.total (self.before s) self.dataStart 0 size.total s.arena :=
    ⟨hself.wf, hinside, fun _ _ _ => rfl⟩
  rw [tryCopyWithCaveats]
  have hdata := @StructBuilder.copyDataBytes_filled ε machine a id block self size other s
    (fun _ => True) (self.plan size block other s) (self.before s) hother
    (min self.dataLen other.dataLen) (hself.dataLen ▸ Nat.min_le_left _ _) (Nat.min_le_right _ _)
    (hready.narrow (by omega)) (fun k hk => if_pos hk)
  refine ends_bind hdata fun _ s₁ hfilled => ?_
  have hready₁ := hready.filled (Nat.le_refl _) hfilled (Nat.zero_le _)
  have hsection := @copyPtrSection_filled ε machine a id block (machine.copyPtr depth) (fun _ => True)
    size.total (self.plan size block other s) (self.before s) self.dataStart other.ptrsStart size.data
    (min self.ptrsLen other.ptrsLen) s₁ hother.segment (fun _ => trivial) (hready₁.narrow (by omega))
    (by omega) (by
      intro i hi
      rw [plan, if_neg (by omega), Nat.add_sub_cancel_left, if_pos (by omega)])
    (fun i _ block' hblock' hsome slot t hwf hslot =>
      (copyPtr_copied depth id _ block' hblock' hsome slot t hwf hslot).imp (fun _ _ => trivial)
        fun _ _ h => h)
  rw [hother.reader, hself.ptrsStart, hself.builder]
  refine hsection.imp (fun _ h => h) fun _ s₂ hfilled₁ => ?_
  have hboth := Filled.append hinside (Nat.zero_le _) (by omega) (by omega) hfilled hfilled₁
  refine Filled.append hinside (Nat.zero_le _) (by omega) (Nat.le_refl _) hboth
    ((hready.filled (Nat.le_refl _) hboth (Nat.zero_le _)).kept (Nat.le_refl _) ?_)
  intro k hle hlt
  rw [plan, if_neg (by omega), if_neg (by omega)]

/-- The data behind that of the source is zero. -/
def StructBuilder.Zeroed (target : StructBuilder) (other : StructReader) (s : CopyState) : Prop :=
  ∀ i < target.dataLen, other.dataLen ≤ i → s.arena.byte target.dataStart i = 0

/-- The source has a pointer in this place, and it can be followed. -/
def StructReader.Provides (source : StructReader) (a : ReadArena) (id : SegmentId) (k : ℕ) : Prop :=
  k < source.ptrsLen ∧ ¬ a.Holds id (source.ptrsStart + k) Word.null ∧
    ∃ id' typed cost, Denotes a id (source.ptrsStart + k) id' typed cost

/-! ## What is left of the target -/

/-- A word that a reader finds is that of the arena. -/
lemma Arena.word_of_holds {arena : Arena} {r : SegmentRef} {w : Word}
    (h : arena.toRead.Holds r.segment r.pos w) : arena.word r = w := by
  obtain ⟨segment, hsegment, rfl⟩ := h
  obtain ⟨segment', hsegment', -, hdata⟩ := Arena.toRead_eq_some (Arena.lt_length_of_toRead hsegment)
  rw [Option.mem_unique hsegment hsegment']
  exact (hdata r.pos).symm

/-- What is reached is in use. -/
lemma Reaches.live {arena : Arena} {i : SegmentId} {pos : ℕ} {r : SegmentRef}
    (h : Reaches arena.toRead i pos r) : r.pos < arena.used r.segment := by
  induction h with
  | @here _ id' _ start _ shape r hdenotes hmem =>
    obtain ⟨segment, hsegment⟩ := hdenotes.segment
    obtain ⟨segment', hsegment', hlen, -⟩ := Arena.toRead_eq_some (Arena.lt_length_of_toRead hsegment)
    obtain rfl := Option.mem_unique hsegment hsegment'
    have hinside : start + shape.words ≤ segment.len.get :=
      Shape.words_le_of_inside (hdenotes.inside hsegment)
    obtain ⟨hseg, -, hlt⟩ := hmem
    replace hseg : r.segment = id' := hseg
    replace hlt : r.pos < start + shape.words := hlt
    rw [hseg, ← hlen]
    omega
  | there _ _ _ _ ih => exact ih

section Left

variable (hself : self.At size s.arena)
  (hfilled : Filled machine a id (self.plan size block other s) (self.before s) self.dataStart 0
    size.total s s')

include hself hfilled

/-- The bytes of the target after the copy. -/
lemma StructBuilder.byte_eq {i : ℕ} (hi : i < self.dataLen) :
    s'.arena.byte self.dataStart i =
      if i < other.dataLen then block.byte other.dataStart i else s.arena.byte self.dataStart i := by
  have htotal := size.total_eq
  have hdataLen := hself.dataLen
  have hk : i / 8 < size.data := by omega
  have hdone := (hfilled.done (i / 8) (Nat.zero_le _) (by omega)).holds
  rw [plan, if_pos hk] at hdone
  have hword := @Arena.word_of_holds s'.arena (self.dataStart.offset (i / 8)) _ hdone
  rw [Arena.byte, hword, getD_bytes_copiedWord]
  by_cases hlt : i < other.dataLen
  · rw [if_pos (Nat.lt_min.2 ⟨hi, hlt⟩), if_pos hlt]
    rfl
  · rw [if_neg fun h => hlt (Nat.lt_min.1 h).2, if_neg hlt]
    rfl

end Left

end Overwrite

/-- A null word. -/
def blankSegment : Segment := ⟨fun _ => Word.null, ⟨1, U29.one_lt⟩⟩

def blankArena : ReadArena := fun _ => some blankSegment

/-- What fails is replaced by null. -/
def lenientMachine : CopyMachine Empty := ⟨fun _ _ => none, fun _ index => .ok (some index), false⟩

end Recapn.Ptr

/-
# Comparing structs in two ways

Structs are compared by `StructReader::equality`, and again by the comparison of the pointers to
them.  Here it is said when the two come to the same verdict.  The first leaves out what is null
at the end of the data and of the pointers, the second does not.
-/
import Mathlib.Data.List.GetD
import Recapn.Ptr.Verdict

namespace Recapn.Ptr

open Recapn.Lib Recapn.Lib.Prog Equality
open scoped Classical

/-! ## Without what is null at the end -/

namespace StructValue

/-- How many of the first `len` pointers are left without null pointers at the end. -/
def ptrCountTo (x : StructValue) : ℕ → ℕ
  | 0 => 0
  | len + 1 => if (x.ptr len).isNull then x.ptrCountTo len else len + 1

/-- How many pointers are left without null pointers at the end. -/
def ptrCount (x : StructValue) : ℕ := x.ptrCountTo x.size.ptrs

end StructValue

/-! ### Bytes -/

lemma getD_of_forall_zero {bytes : List Byte} (h : ∀ byte ∈ bytes, byte = 0) (k : ℕ) :
    bytes.getD k 0 = 0 := by
  rcases Nat.lt_or_ge k bytes.length with hlt | hge
  · rw [List.getD_eq_getElem _ _ hlt]
    exact h _ (List.getElem_mem hlt)
  · exact List.getD_eq_default _ _ hge

/-- The bytes of a struct's data. -/
def StructValue.dataBytes (x : StructValue) : List Byte :=
  (List.range (x.size.data * 8)).map fun k => (x.word (k / 8)).bytes.getD (k % 8) 0

lemma getD_null (k : ℕ) : Word.null.bytes.getD k 0 = 0 := by
  have hnull : Word.null.bytes = List.replicate 8 0 := rfl
  rw [hnull]
  exact getD_of_forall_zero (fun _ h => List.eq_of_mem_replicate h) k

section Structs

variable {a b : ReadArena} {ourId theirId ourBlockId theirBlockId : SegmentId}
  {ourSrc theirSrc ourStart theirStart : ℕ} {v w : Value} {ourShape theirShape : Shape}
  {ourBlock theirBlock : Segment} {i j : ℕ} {size size' : StructSize}

variable (hours : Opened a ourId ourSrc v ourShape ourBlockId ourBlock ourStart)
  (htheirs : Opened b theirId theirSrc w theirShape theirBlockId theirBlock theirStart)
  (hpart : ourShape.PartAt i size) (hpart' : theirShape.PartAt j size')

include hours htheirs hpart hpart'

end Structs

/-! ## Readers of pointers -/

/-- The pointer can be read, and reads as the value. -/
structure PtrReader.ReadsAs (p : PtrReader) (a : ReadArena) (v : Value) : Prop where
  nesting : 0 < p.nestingLimit
  reads : ∃ id segment, a id = some segment ∧ p.reader = .inSegment a id segment ∧
    p.ptr < segment.len.get ∧ Reads a id p.ptr v

section Readers

variable {a b : ReadArena} {id id' : SegmentId} {pos start cost : ℕ} {segment block : Segment} {v w : Value}

/-- Reading a list is reading, when it is a list. -/
lemma tryReadList_eq_ok {reader reader' : ObjectReader} {content : ListContent}
    {limiter limiter' : Limiter} :
    reader.tryReadList pos none limiter = .ok (reader', content) limiter' ↔
      reader.tryReadTyped pos limiter = .ok (reader', .list content) limiter' := by
  constructor
  · intro h
    obtain ⟨⟨reader₁, found⟩, limiter₁, hlocation, htry⟩ := bind_eq_ok.1 h
    obtain ⟨ptr, limiter₂, hptr, hread⟩ := bind_eq_ok.1 htry
    rcases ite_eq_ok.1 hptr with ⟨hkind, hpure⟩ | ⟨-, hthrow⟩
    · obtain ⟨rfl, rfl⟩ := pure_eq_ok.1 hpure
      refine (bind_of_ok hlocation).trans ?_
      dsimp only
      rw [hkind]
      exact bind_of_ok hread
    · exact (throw_eq_ok.1 hthrow).elim
  · intro h
    obtain ⟨⟨reader₁, found⟩, limiter₁, hlocation, hrun⟩ := bind_eq_ok.1 h
    refine (bind_of_ok hlocation).trans ?_
    dsimp only at hrun ⊢
    rcases hkind : found.ptr.kind with _ | _ | _ | _ <;> rw [hkind] at hrun
    · obtain ⟨_, _, -, hpure⟩ := bind_eq_ok.1 hrun
      cases (pure_eq_ok.1 hpure).1
    · obtain ⟨⟨reader₂, object⟩, limiter₂, hread, hpure⟩ := bind_eq_ok.1 hrun
      obtain ⟨heq, rfl⟩ := pure_eq_ok.1 hpure
      cases heq
      exact (bind_of_ok (ite_eq_ok.2 (.inl ⟨hkind, rfl⟩))).trans hread
    · exact (throw_eq_ok.1 hrun).elim
    · obtain ⟨_, _, -, hpure⟩ := bind_eq_ok.1 hrun
      cases (pure_eq_ok.1 hpure).1

end Readers

section Pointers

variable {a : ReadArena} {v : Value} {p : PtrReader} {id : SegmentId} {segment : Segment}
  {limiter limiter' : Limiter} (hsegment : a id = some segment)
  (hreader : p.reader = .inSegment a id segment) (hpos : p.ptr < segment.len.get)
  (hv : Reads a id p.ptr v)

include hsegment hreader

include hv

include hpos

end Pointers

section Agrees

variable {a b : ReadArena} {v w : Value} {p q : PtrReader} {id id' : SegmentId}
  {segment segment' : Segment} (hsegment : a id = some segment)
  (hreader : p.reader = .inSegment a id segment) (hpos : p.ptr < segment.len.get)
  (hv : Reads a id p.ptr v) (hsegment' : b id' = some segment')
  (hreader' : q.reader = .inSegment b id' segment') (hpos' : q.ptr < segment'.len.get)
  (hw : Reads b id' q.ptr w)

include hsegment hreader hv hsegment' hreader' hw

include hpos hpos'

end Agrees

/-- The word with the number five. -/
def five : Word := Word.ofBytes [5]

/-- A segment with pointers to two structs: one with the word `five`, one with the same word and a
null word behind it. -/
def paddedSegment : Segment where
  data
    | 0 => StructPtr.new ⟨1, I30.le_one, I30.one_lt⟩ ⟨1, 0, StructSize.one_lt, StructSize.zero_lt⟩
    | 1 => StructPtr.new ⟨1, I30.le_one, I30.one_lt⟩ ⟨2, 0, StructSize.two_lt, StructSize.zero_lt⟩
    | 2 => five
    | 3 => five
    | _ => Word.null
  len := ⟨5, by decide⟩

/-- The arena with this segment as its only one. -/
def paddedArena : ReadArena
  | 0 => some paddedSegment
  | _ => none

/-- The reader of a pointer in this segment. -/
def paddedReader (pos : ℕ) : PtrReader := ⟨pos, .inSegment paddedArena 0 paddedSegment, 64⟩

/-- The value of a struct with data only. -/
def dataValue (size : StructSize) (words : ℕ → Word) : Value :=
  .object (.struct size) (fun k => words k.1) fun _ => .null

lemma readsAs_padded {pos start : ℕ} {size : StructSize} (hpos : pos < 5) (hptrs : size.ptrs = 0)
    (hsome : paddedSegment.data pos ≠ Word.null)
    (hread : (ObjectReader.inSegment paddedArena 0 paddedSegment).tryReadTyped pos none
      = .ok (.inSegment paddedArena 0 paddedSegment, .struct ⟨start, size⟩) none) :
    (paddedReader pos).ReadsAs paddedArena
      (dataValue size fun k => paddedSegment.data (start + k)) := by
  have hsegment : paddedArena 0 = some paddedSegment := rfl
  obtain ⟨id', block, cost, hblock, hreader, hdenotes, -⟩ := (tryReadTyped_eq_ok hsegment).1 hread
  have hid : id' = 0 := by
    have hsource := congrArg ObjectReader.source hreader
    cases hsource
    rfl
  obtain rfl := hid
  refine ⟨Nat.succ_pos 63, 0, paddedSegment, rfl, rfl, hpos, ?_⟩
  refine .object rfl hsome hdenotes hsegment (fun _ => rfl) ?_
  rintro ⟨k, hk, hptr⟩
  have hle : size.data ≤ k := of_decide_eq_true hptr
  have hlt : k < size.data + size.ptrs := hk
  omega

lemma readsAs_short : (paddedReader 0).ReadsAs paddedArena (dataValue ⟨1, 0, by decide, by decide⟩
    fun k => paddedSegment.data (2 + k)) :=
  readsAs_padded (by decide) rfl (by decide) rfl

lemma readsAs_long : (paddedReader 1).ReadsAs paddedArena (dataValue ⟨2, 0, by decide, by decide⟩
    fun k => paddedSegment.data (3 + k)) :=
  readsAs_padded (by decide) rfl (by decide) rfl

end Recapn.Ptr

/-
# Reads stay inside of segments

Whatever the bytes of a message are, an object that is read lies in one of its segments: this is
what the readers of structs and lists rely on when they access their memory unchecked.
-/
import Recapn.Ptr.Target

namespace Recapn.Ptr

open Recapn.Lib

/-- The object lies inside of a segment of `len` words: the data and the pointers of a struct,
all elements of a list, and the tag in front of a list of structs. -/
def TypedContent.Inside (len : ℕ) : TypedContent → Prop
  | .struct content => content.ptr + content.size.data ≤ len ∧
      content.ptrsStart + content.size.ptrs ≤ len
  | .list ⟨ptr, .inlineComposite size, count⟩ => 1 ≤ ptr ∧ ptr + count.get * size.total ≤ len
  | .list ⟨ptr, size, count⟩ => 64 * ptr + size.bits * count.get ≤ 64 * len
  | .capability _ => True

lemma inside_list_of_bits {len pos : ℕ} {size : PtrElementSize} (hsize : size ≠ .inlineComposite)
    {count : ElementCount} (h : pos + size.toElementSize.totalWords count.get ≤ len) :
    TypedContent.Inside len (.list ⟨pos, size.toElementSize, count⟩) := by
  have hwords := (ElementSize.totalWords_of_bits_le (ElementSize.bits_le_of_ptr size) count).1
  have hbits : 64 * pos + size.toElementSize.bits * count.get ≤ 64 * len := by
    rw [hwords] at h
    omega
  cases size with
  | inlineComposite => exact absurd rfl hsize
  | _ => exact hbits

/-- What a pointer denotes lies inside of a segment of the arena. -/
lemma Denotes.inside {arena : ReadArena} {id id' : SegmentId} {src cost : ℕ} {typed : TypedContent}
    (h : Denotes arena id src id' typed cost) {segment' : Segment}
    (hsegment' : arena id' = some segment') : typed.Inside segment'.len.get := by
  obtain ⟨mid, content, pads, words, -, hdescribes, -⟩ := h
  cases hdescribes with
  | @struct _ pos _ hplaced =>
    obtain ⟨segment, hsegment, hlen⟩ := hplaced.bounds
    obtain rfl := Option.mem_unique hsegment hsegment'
    unfold StructSize.total at hlen
    constructor
    · show pos + (StructPtr.size content.ptr).data ≤ segment.len.get
      omega
    · show pos + (StructPtr.size content.ptr).data + (StructPtr.size content.ptr).ptrs
        ≤ segment.len.get
      omega
  | list _ hptrSize hsize _ hplaced =>
    obtain ⟨segment, hsegment, hlen⟩ := hplaced.bounds
    obtain rfl := Option.mem_unique hsegment hsegment'
    subst hsize
    exact inside_list_of_bits hptrSize hlen
  | inlineComposite _ _ _ _ hplaced _ _ _ hfits =>
    obtain ⟨segment, hsegment, hlen⟩ := hplaced.bounds
    obtain rfl := Option.mem_unique hsegment hsegment'
    constructor
    · exact Nat.succ_le_succ (Nat.zero_le _)
    · omega
  | capability => trivial

/-- **Reads stay inside of segments.**  In an arena of any segments with any words, and for any
word of a segment taken as a pointer, with or without a limiter: the object that a successful
read returns lies inside of one segment of the arena, in which the reader then stands. -/
theorem tryReadTyped_inside {arena : ReadArena} {id : SegmentId} {segment : Segment}
    (hsegment : arena id = some segment) (src : ℕ) {limiter limiter' : Limiter}
    {reader : ObjectReader} {typed : TypedContent}
    (h : (ObjectReader.inSegment arena id segment).tryReadTyped src limiter
      = .ok (reader, typed) limiter') :
    ∃ id' segment', arena id' = some segment' ∧ reader = .inSegment arena id' segment' ∧
      typed.Inside segment'.len.get := by
  obtain ⟨id', segment', cost, hsegment', rfl, hdenotes, -⟩ := (tryReadTyped_eq_ok hsegment).1 h
  exact ⟨id', segment', hsegment', rfl, hdenotes.inside hsegment'⟩

/-- A segment of four words: a far pointer to the landing pad behind it, which points to a list
of structs with one struct of one word. -/
def compositeSegment : Segment where
  data
    | 0 => FarPtr.new 0 ⟨1, U29.one_lt⟩ false
    | 1 => ListPtr.new I30.zero .inlineComposite ⟨1, U29.one_lt⟩
    | 2 => StructPtr.newInlineCompositeTag ⟨1, U29.one_lt⟩ ⟨1, 0, StructSize.one_lt, StructSize.zero_lt⟩
    | _ => Word.null
  len := ⟨4, U29.four_lt⟩

/-- The arena with this segment as its only one. -/
def compositeArena : ReadArena
  | 0 => some compositeSegment
  | _ => none

theorem tryReadTyped_inside_composite :
    ∃ id' segment', compositeArena id' = some segment' ∧
      ObjectReader.inSegment compositeArena 0 compositeSegment
        = .inSegment compositeArena id' segment' ∧
      TypedContent.Inside segment'.len.get
        (.list ⟨3, .inlineComposite ⟨1, 0, by decide, by decide⟩, ⟨1, by decide⟩⟩) := by
  have hread : (ObjectReader.inSegment compositeArena 0 compositeSegment).tryReadTyped 0 (some 10)
      = .ok (ObjectReader.inSegment compositeArena 0 compositeSegment,
          .list ⟨3, .inlineComposite ⟨1, 0, by decide, by decide⟩, ⟨1, by decide⟩⟩) (some 7) := by
    rfl
  exact tryReadTyped_inside rfl 0 hread

end Recapn.Ptr

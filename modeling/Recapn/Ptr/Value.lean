/-
# Values

What is below a pointer of a message is a tree of objects.  An object has a shape, which is what
its pointer and its tag say of it, and a block of words, of which the shape says which are data
and which are pointers again.  Where the object lies and by which pointers it is reached is not
part of the value.
-/
import Recapn.Ptr.ReadBack
import Recapn.Ptr.Bounds

namespace Recapn.Ptr

open Recapn.Lib

/-! ## Shapes -/

/-- The kind and the sizes of an object. -/
inductive Shape where
  | struct (size : StructSize)
  | list (size : ElementSize) (count : ElementCount)
deriving DecidableEq

namespace Shape

/-- How many words the block has.  The tag of a list of structs is in front of it. -/
def words : Shape → ℕ
  | struct size => size.total
  | list size count => (size.bits * count.get + 63) / 64

/-- The word is a pointer. -/
def isPtr : Shape → ℕ → Bool
  | struct size, k => decide (size.data ≤ k)
  | list .pointer _, _ => true
  | list (.inlineComposite size) _, k => decide (size.data ≤ k % size.total)
  | list _ _, _ => false

/-- An object of the shape, with its block at a position. -/
def content : Shape → ℕ → TypedContent
  | struct size, pos => .struct ⟨pos, size⟩
  | list size count, pos => .list ⟨pos, size, count⟩

/-- The data words of the block. -/
abbrev Data (shape : Shape) : Type := {k : ℕ // k < shape.words ∧ shape.isPtr k = false}

/-- The pointers of the block. -/
abbrev Slot (shape : Shape) : Type := {k : ℕ // k < shape.words ∧ shape.isPtr k = true}

lemma content_inj {shape shape' : Shape} {pos pos' : ℕ}
    (h : shape.content pos = shape'.content pos') : shape = shape' ∧ pos = pos' := by
  cases shape with
  | struct size =>
    cases shape' with
    | struct size' =>
      cases h
      exact ⟨rfl, rfl⟩
    | list => cases h
  | list size count =>
    cases shape' with
    | struct => cases h
    | list size' count' =>
      cases h
      exact ⟨rfl, rfl⟩

/-- What is inside of a segment has its block there. -/
lemma words_le_of_inside {shape : Shape} {pos len : ℕ} (h : (shape.content pos).Inside len) :
    pos + shape.words ≤ len := by
  cases shape with
  | struct size =>
    have hptrs : pos + size.data + size.ptrs ≤ len := h.2
    show pos + (size.data + size.ptrs) ≤ len
    omega
  | list size count =>
    cases size with
    | inlineComposite size =>
      have hle : pos + count.get * size.total ≤ len := h.2
      show pos + (size.total * 64 * count.get + 63) / 64 ≤ len
      rw [Nat.mul_right_comm, Nat.mul_comm size.total]
      omega
    | _ =>
      show pos + (_ + 63) / 64 ≤ len
      replace h : 64 * pos + _ * count.get ≤ 64 * len := h
      omega

end Shape

/-! ## Values -/

/-- A value: null, a capability, or an object with its data and what its pointers are. -/
inductive Value where
  | null
  | capability (index : ℕ)
  | object (shape : Shape) (data : shape.Data → Word) (ptrs : shape.Slot → Value)

namespace Value

/-- It is null. -/
def isNull : Value → Bool
  | null => true
  | _ => false

lemma isNull_iff {v : Value} : v.isNull = true ↔ v = null := by
  cases v with
  | null => exact ⟨fun _ => rfl, fun _ => rfl⟩
  | capability | object => exact ⟨nofun, nofun⟩

/-- The shape of what a pointer with this value is read as.  A null pointer is read as a struct
that has nothing in it. -/
def shape : Value → Option Shape
  | null => some (.struct StructSize.empty)
  | capability _ => none
  | object shape _ _ => some shape

/-- A data word of the block, null where there is none. -/
def word : Value → ℕ → Word
  | object shape data _, k =>
    if h : k < shape.words ∧ shape.isPtr k = false then data ⟨k, h⟩ else Word.null
  | _, _ => Word.null

/-- A pointer of the block, null where there is none. -/
def ptr : Value → ℕ → Value
  | object shape _ ptrs, k =>
    if h : k < shape.words ∧ shape.isPtr k = true then ptrs ⟨k, h⟩ else null
  | _, _ => null

end Value

/-- A struct of this size is at the offset in an object of the shape. -/
structure Shape.PartAt (shape : Shape) (offset : ℕ) (size : StructSize) : Prop where
  le : offset + size.total ≤ shape.words
  isPtr : ∀ k < size.total, shape.isPtr (offset + k) = decide (size.data ≤ k)

namespace Shape

lemma words_structs (size : StructSize) (count : ElementCount) :
    (list (.inlineComposite size) count).words = size.total * count.get := by
  show (size.total * 64 * count.get + 63) / 64 = _
  rw [Nat.mul_right_comm]
  omega

lemma partAt_struct (size : StructSize) : (struct size).PartAt 0 size := by
  refine ⟨Nat.le_of_eq (Nat.zero_add _), ?_⟩
  intro k _
  rw [Nat.zero_add]
  rfl

lemma partAt_element (size : StructSize) {count : ElementCount} {i : ℕ} (hi : i < count.get) :
    (list (.inlineComposite size) count).PartAt (size.total * i) size := by
  constructor
  · have hnext := size.mul_succ_le hi
    rw [words_structs]
    exact hnext
  · intro k hk
    show decide (size.data ≤ (size.total * i + k) % size.total) = _
    rw [Nat.mul_add_mod, Nat.mod_eq_of_lt hk]

end Shape

/-- The pointer at a position reads as the value, without errors. -/
inductive Reads (a : ReadArena) : SegmentId → ℕ → Value → Prop
  | null {id : SegmentId} {pos : ℕ} {segment : Segment} (hsegment : a id = some segment)
      (hnull : segment.data pos = Word.null) : Reads a id pos .null
  | capability {id id' : SegmentId} {pos index cost : ℕ} {segment : Segment}
      (hsegment : a id = some segment) (hsome : segment.data pos ≠ Word.null)
      (hdenotes : Denotes a id pos id' (.capability index) cost) : Reads a id pos (.capability index)
  | object {id id' : SegmentId} {pos start cost : ℕ} {segment block : Segment} {shape : Shape}
      {data : shape.Data → Word} {ptrs : shape.Slot → Value} (hsegment : a id = some segment)
      (hsome : segment.data pos ≠ Word.null)
      (hdenotes : Denotes a id pos id' (shape.content start) cost) (hblock : a id' = some block)
      (hdata : ∀ k, block.data (start + k.1) = data k)
      (hptrs : ∀ k, Reads a id' (start + k.1) (ptrs k)) : Reads a id pos (.object shape data ptrs)

section Unique

variable {a : ReadArena} {id : SegmentId} {pos : ℕ}

/-- What a pointer denotes is in a segment of the arena. -/
lemma Denotes.segment {id' : SegmentId} {typed : TypedContent} {cost : ℕ}
    (h : Denotes a id pos id' typed cost) : ∃ segment, a id' = some segment := by
  obtain ⟨mid, content, pads, words, hlocates, hdescribes, -⟩ := h
  cases hdescribes with
  | struct _ hplaced | list _ _ _ _ hplaced =>
    obtain ⟨segment, hsegment, -⟩ := hplaced.bounds
    exact ⟨segment, hsegment⟩
  | inlineComposite _ _ _ _ _ hsegment => exact ⟨_, hsegment⟩
  | capability => exact hlocates.segment

/-- A pointer denotes one thing. -/
lemma Denotes.unique {segment : Segment} (hsegment : a id = some segment) {id₁ id₂ : SegmentId}
    {typed₁ typed₂ : TypedContent} {cost₁ cost₂ : ℕ} (h₁ : Denotes a id pos id₁ typed₁ cost₁)
    (h₂ : Denotes a id pos id₂ typed₂ cost₂) : id₁ = id₂ ∧ typed₁ = typed₂ := by
  obtain ⟨segment₁, hsegment₁⟩ := h₁.segment
  obtain ⟨segment₂, hsegment₂⟩ := h₂.segment
  have hread₁ := (tryReadTyped_eq_ok hsegment).2
    ⟨id₁, segment₁, cost₁, hsegment₁, rfl, h₁, Limiter.charge_none _⟩
  have hread₂ := (tryReadTyped_eq_ok hsegment).2
    ⟨id₂, segment₂, cost₂, hsegment₂, rfl, h₂, Limiter.charge_none _⟩
  have heq := hread₁.symm.trans hread₂
  simp only [Outcome.ok.injEq, Prod.mk.injEq, ObjectReader.inSegment, ObjectReader.mk.injEq,
    Source.checked.injEq, SegmentReader.mk.injEq] at heq
  exact ⟨heq.1.1.2.1, heq.1.2⟩

/-- **A pointer reads as at most one value.** -/
theorem Reads.unique {v w : Value} (hv : Reads a id pos v) (hw : Reads a id pos w) : v = w := by
  induction hv generalizing w with
  | null hsegment hnull =>
    cases hw with
    | null => rfl
    | capability hsegment' hsome =>
      obtain rfl := Option.mem_unique hsegment hsegment'
      exact absurd hnull hsome
    | object hsegment' hsome =>
      obtain rfl := Option.mem_unique hsegment hsegment'
      exact absurd hnull hsome
  | capability hsegment hsome hdenotes =>
    cases hw with
    | null hsegment' hnull =>
      obtain rfl := Option.mem_unique hsegment hsegment'
      exact absurd hnull hsome
    | capability _ _ hdenotes' =>
      cases (hdenotes.unique hsegment hdenotes').2
      rfl
    | @object _ _ _ _ _ _ _ shape _ _ _ _ hdenotes' =>
      have htyped := (hdenotes.unique hsegment hdenotes').2
      cases shape <;> cases htyped
  | @object id₁ _ pos₁ _ _ _ _ shape data ptrs hsegment hsome hdenotes hblock hdata _ ih =>
    cases hw with
    | null hsegment' hnull =>
      obtain rfl := Option.mem_unique hsegment hsegment'
      exact absurd hnull hsome
    | capability _ _ hdenotes' =>
      have htyped := (hdenotes.unique hsegment hdenotes').2
      cases shape <;> cases htyped
    | object _ _ hdenotes' hblock' hdata' hptrs' =>
      obtain ⟨rfl, htyped⟩ := hdenotes.unique hsegment hdenotes'
      obtain ⟨rfl, rfl⟩ := Shape.content_inj htyped
      obtain rfl := Option.mem_unique hblock hblock'
      have hdataEq : data = _ := funext fun k => (hdata k).symm.trans (hdata' k)
      have hptrsEq : ptrs = _ := funext fun k => ih k (hptrs' k)
      rw [hdataEq, hptrsEq]

end Unique

/-! ## Following a pointer -/

/-- The pointer was followed to its block. -/
structure Opened (a : ReadArena) (id : SegmentId) (pos : ℕ) (v : Value) (shape : Shape)
    (id' : SegmentId) (block : Segment) (start : ℕ) : Prop where
  denotes : ∃ cost, Denotes a id pos id' (shape.content start) cost
  segment : a id' = some block
  fits : start + shape.words ≤ block.len.get
  word : ∀ k < shape.words, shape.isPtr k = false → block.data (start + k) = v.word k
  ptr : ∀ k < shape.words, shape.isPtr k = true → Reads a id' (start + k) (v.ptr k)

/-- A null pointer denotes an empty struct behind it. -/
lemma denotes_of_null {a : ReadArena} {id : SegmentId} {pos : ℕ} {segment : Segment}
    (hsegment : a id = some segment) (hnull : segment.data pos = Word.null)
    (hpos : pos < segment.len.get) :
    Denotes a id pos id ((Shape.struct StructSize.empty).content (pos + 1)) 0 := by
  have hsize : StructPtr.size Word.null = StructSize.empty := by decide
  have hplaced : Placed a id (.near pos) (StructPtr.offset Word.null)
      (StructPtr.size Word.null).total id (pos + 1) := .near hsegment rfl hpos
  have hlocates : Locates a id pos id ⟨segment.data pos, .near pos⟩ 0 :=
    .near hsegment (by
      rw [hnull]
      decide)
  rw [hnull] at hlocates
  have hdescribes : Describes a id ⟨Word.null, .near pos⟩ id
      (.struct ⟨pos + 1, StructPtr.size Word.null⟩) (StructPtr.size Word.null).total :=
    .struct (show WirePtr.kind Word.null = .struct by decide) hplaced
  rw [hsize] at hdescribes
  exact ⟨id, _, 0, _, hlocates, hdescribes, rfl⟩

/-- A pointer that reads as an object, or as null, can be followed. -/
lemma Reads.opened {a : ReadArena} {id : SegmentId} {pos : ℕ} {v : Value} {segment : Segment}
    (h : Reads a id pos v) (hsegment : a id = some segment) (hpos : pos < segment.len.get)
    {shape : Shape} (hshape : v.shape = some shape) :
    ∃ id' block start, Opened a id pos v shape id' block start := by
  cases h with
  | null hsegment' hnull =>
    obtain rfl := Option.mem_unique hsegment hsegment'
    cases hshape
    exact ⟨id, segment, pos + 1, ⟨0, denotes_of_null hsegment hnull hpos⟩, hsegment, hpos,
      fun k hk => absurd hk (Nat.not_lt_zero k), fun k hk => absurd hk (Nat.not_lt_zero k)⟩
  | capability => cases hshape
  | @object _ id' _ start _ _ block _ data ptrs _ _ hdenotes hblock hdata hptrs =>
    cases hshape
    refine ⟨id', block, start, ⟨_, hdenotes⟩, hblock,
      Shape.words_le_of_inside (hdenotes.inside hblock), ?_, ?_⟩
    · intro k hk hnot
      have hvalue : Value.word (.object shape data ptrs) k = data ⟨k, hk, hnot⟩ := dif_pos ⟨hk, hnot⟩
      rw [hvalue]
      exact hdata ⟨k, hk, hnot⟩
    · intro k hk hptr
      have hvalue : Value.ptr (.object shape data ptrs) k = ptrs ⟨k, hk, hptr⟩ := dif_pos ⟨hk, hptr⟩
      rw [hvalue]
      exact hptrs ⟨k, hk, hptr⟩

/-- A pointer is null just when it reads as null. -/
lemma Reads.isNull_iff {a : ReadArena} {id : SegmentId} {pos : ℕ} {v : Value} {segment : Segment}
    (h : Reads a id pos v) (hsegment : a id = some segment) :
    (segment.data pos).isNull = true ↔ v = .null := by
  rw [Word.isNull_iff]
  cases h with
  | null hsegment' hnull =>
    obtain rfl := Option.mem_unique hsegment hsegment'
    exact ⟨fun _ => rfl, fun _ => hnull⟩
  | capability hsegment' hsome | object hsegment' hsome =>
    obtain rfl := Option.mem_unique hsegment hsegment'
    exact ⟨fun hnull => absurd hnull hsome, nofun⟩

end Recapn.Ptr

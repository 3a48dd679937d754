/-
# What a deep copy is a copy of

The copy of a pointer leads to an object of the same kind, in words that were fresh, whose data
words are those of the source and whose pointers are copies again.  The object may be smaller
than that of the source: the canonical copy leaves out the null words at the ends of sections.
Where a copy was refused there is a null pointer.
-/
import Recapn.Ptr.Terms
import Recapn.Ptr.Value

namespace Recapn.Ptr

open Recapn.Lib

/-! ## Sizes in canonical form -/

/-- The size of a struct without the null words at the ends of its sections. -/
def canonicalStructSize (words : ℕ → Word) (src : ℕ) (size : StructSize) : StructSize where
  data := trimEndNullWords (fun k => words (src + k)) size.data
  ptrs := trimEndNullWords (fun k => words (src + size.data + k)) size.ptrs
  data_lt := Nat.lt_of_le_of_lt (trimEndNullWords_le _ _) size.data_lt
  ptrs_lt := Nat.lt_of_le_of_lt (trimEndNullWords_le _ _) size.ptrs_lt

/-- The sectionwise maximum of the sizes of so many structs, one behind the other. -/
def canonicalElementSize (words : ℕ → Word) (src : ℕ) (size : StructSize) : ℕ → StructSize
  | 0 => StructSize.empty
  | count + 1 => (canonicalElementSize words src size count).max
      (canonicalStructSize words (src + size.total * count) size)

namespace StructSize

variable {size other third : StructSize}

/-- It has no more data words and no more pointers. -/
structure Le (size other : StructSize) : Prop where
  data : size.data ≤ other.data
  ptrs : size.ptrs ≤ other.ptrs

lemma Le.total (h : size.Le other) : size.total ≤ other.total := Nat.add_le_add h.data h.ptrs

lemma Le.refl (size : StructSize) : size.Le size := ⟨Nat.le_refl _, Nat.le_refl _⟩

lemma max_le (h : size.Le third) (h' : other.Le third) : (size.max other).Le third :=
  ⟨Nat.max_le.2 ⟨h.data, h'.data⟩, Nat.max_le.2 ⟨h.ptrs, h'.ptrs⟩⟩

lemma empty_le (size : StructSize) : empty.Le size := ⟨Nat.zero_le _, Nat.zero_le _⟩

/-- The word of a struct that a word of its copy is from. -/
def source (size copy : StructSize) (k : ℕ) : ℕ :=
  if k < copy.data then k else k - copy.data + size.data

end StructSize

lemma canonicalStructSize_le (words : ℕ → Word) (src : ℕ) (size : StructSize) :
    (canonicalStructSize words src size).Le size :=
  ⟨trimEndNullWords_le _ _, trimEndNullWords_le _ _⟩

lemma canonicalElementSize_le (words : ℕ → Word) (src : ℕ) (size : StructSize) (count : ℕ) :
    (canonicalElementSize words src size count).Le size := by
  induction count with
  | zero => exact StructSize.empty_le size
  | succ count ih => exact StructSize.max_le ih (canonicalStructSize_le _ _ _)

namespace Shape

/-- The shape that an object is copied to.  The elements of a list of structs are measured from
the words at the pointer on. -/
def copied (canonical : Bool) (atPtr : ℕ → Word) (pos : ℕ) (block : ℕ → Word) (start : ℕ) :
    Shape → Shape
  | struct size => struct (if canonical then canonicalStructSize block start size else size)
  | list (.inlineComposite size) count =>
    list (.inlineComposite (if canonical then canonicalElementSize atPtr pos size count.get else size))
      count
  | shape => shape

/-- The word of an object that a word of its copy is from. -/
def source : Shape → Shape → ℕ → ℕ
  | struct size, struct copy, k => size.source copy k
  | list (.inlineComposite size) _, list (.inlineComposite copy) _, k =>
    size.total * (k / copy.total) + size.source copy (k % copy.total)
  | _, _, k => k

/-- A list that readers refuse when it was allocated. -/
def Full : Shape → Prop
  | struct _ => False
  | list size count => FillsSegment size count

/-- Without canonical form the shape stays the same. -/
lemma copied_false (atPtr : ℕ → Word) (pos : ℕ) (block : ℕ → Word) (start : ℕ) (shape : Shape) :
    shape.copied false atPtr pos block start = shape := by
  cases shape with
  | struct size => rfl
  | list size count => cases size <;> rfl

/-- A word of a copy of the same shape is from the same place. -/
lemma source_self (shape : Shape) (k : ℕ) : shape.source shape k = k := by
  have hsize : ∀ (size : StructSize) (j : ℕ), size.source size j = j := by
    intro size j
    unfold StructSize.source
    split <;> omega
  cases shape with
  | struct size => exact hsize size k
  | list size count =>
    cases size with
    | inlineComposite size =>
      show size.total * (k / size.total) + size.source size (k % size.total) = k
      rw [hsize, Nat.div_add_mod]
    | _ => rfl

end Shape

/-! ## Copies -/

lemma CapabilityPtr.ne_null_new (index : ℕ) : CapabilityPtr.new index ≠ Word.null :=
  ne_null_of_kind (by simp)

/-- The word at a position of the message. -/
def ReadArena.Holds (a : ReadArena) (id : SegmentId) (pos : ℕ) (word : Word) : Prop :=
  ∃ segment, a id = some segment ∧ segment.data pos = word

/-- The tables may answer so, after some other capabilities. -/
def CopyMachine.Answers {ε : Type} (machine : CopyMachine ε) (index : ℕ) (answer : Option ℕ) :
    Prop :=
  ∃ caps, machine.copyCap caps index = .ok answer

/-- A copy of the pointer may leave what was there. -/
def CopyMachine.Keeps {ε : Type} (machine : CopyMachine ε) (a : ReadArena) (strict : Prop)
    (id : SegmentId) (src : ℕ) : Prop :=
  ¬ strict ∨ ∃ id' index cost, Denotes a id src id' (.capability index) cost ∧
    machine.Answers index none

/-- The pointer of a message is the copy of a pointer of another one, with its objects in `F`.  It
is the copy of everything below the pointer if the copy is `strict`, and otherwise there may be
null pointers in some places. -/
inductive CopyOf {ε : Type} (machine : CopyMachine ε) (a : ReadArena) (strict : Prop)
    (F : Set SegmentRef) (a' : ReadArena) : SegmentId → ℕ → SegmentId → ℕ → Prop
  | null {id did : SegmentId} {pos dpos : ℕ} (hnull : a.Holds id pos Word.null)
      (hnull' : a'.Holds did dpos Word.null) : CopyOf machine a strict F a' id pos did dpos
  | refused {id did : SegmentId} {pos dpos : ℕ} (hkeeps : machine.Keeps a strict id pos)
      (hnull' : a'.Holds did dpos Word.null) : CopyOf machine a strict F a' id pos did dpos
  | capability {id id' did : SegmentId} {pos dpos index newIndex cost : ℕ}
      (hdenotes : Denotes a id pos id' (.capability index) cost)
      (hanswer : machine.Answers index (some newIndex))
      (hword : a'.Holds did dpos (CapabilityPtr.new newIndex)) :
      CopyOf machine a strict F a' id pos did dpos
  | object {id id' did did' : SegmentId} {pos start dpos dstart cost cost' : ℕ}
      {segment block dsegment dblock : Segment} {shape copy : Shape} (hsegment : a id = some segment)
      (hsource : segment.data pos ≠ Word.null)
      (hdenotes : Denotes a id pos id' (shape.content start) cost) (hblock : a id' = some block)
      (hcopy : copy = shape.copied machine.canonical segment.data pos block.data start)
      (hroom : ¬ copy.Full) (hdsegment : a' did = some dsegment) (hsome : dsegment.data dpos ≠ Word.null)
      (hdenotes' : Denotes a' did dpos did' (copy.content dstart) cost')
      (hdblock : a' did' = some dblock) (hfresh : span ⟨did', dstart⟩ copy.words ⊆ F)
      (hdata : ∀ k < copy.words, copy.isPtr k = false →
        dblock.data (dstart + k) = block.data (start + shape.source copy k))
      (hptrs : ∀ k < copy.words, copy.isPtr k = true →
        CopyOf machine a strict F a' id' (start + shape.source copy k) did' (dstart + k)) :
      CopyOf machine a strict F a' id pos did dpos
  | full {id id' did : SegmentId} {pos start dpos cost : ℕ} {segment block dsegment : Segment}
      {size : StructSize} {count : ElementCount} {copy : ElementSize} (hsegment : a id = some segment)
      (hdenotes : Denotes a id pos id' (.list ⟨start, .inlineComposite size, count⟩) cost)
      (hblock : a id' = some block)
      (hcopy : .list copy count = (Shape.list (.inlineComposite size) count).copied machine.canonical
        segment.data pos block.data start)
      (hfull : (Shape.list copy count).Full) (hdsegment : a' did = some dsegment)
      (hsome : dsegment.data dpos ≠ Word.null)
      (hrefuses : ∀ id typed cost, ¬ Denotes a' did dpos id typed cost) :
      CopyOf machine a strict F a' id pos did dpos

section CopyOf

variable {ε : Type} {machine : CopyMachine ε} {a a' : ReadArena} {strict strict' : Prop}
  {F F' : Set SegmentRef} {id did : SegmentId} {pos dpos : ℕ}

lemma ReadArena.Holds.unique {w w' : Word} (h : a.Holds id pos w) (h' : a.Holds id pos w') :
    w = w' := by
  obtain ⟨segment, hsegment, rfl⟩ := h
  obtain ⟨segment', hsegment', rfl⟩ := h'
  rw [Option.mem_unique hsegment hsegment']

lemma ReadArena.not_holds_null {segment : Segment} (hsegment : a id = some segment)
    (hsome : segment.data pos ≠ Word.null) : ¬ a.Holds id pos Word.null :=
  fun h => hsome (ReadArena.Holds.unique ⟨segment, hsegment, rfl⟩ h)

lemma CopyMachine.Keeps.mono (h : machine.Keeps a strict id pos) (hstrict : strict' → strict) :
    machine.Keeps a strict' id pos := by
  rcases h with h | h
  · exact Or.inl fun hs => h (hstrict hs)
  · exact Or.inr h

/-- A copy that is as strict, or less so, may have its objects in more places. -/
lemma CopyOf.mono (h : CopyOf machine a strict F a' id pos did dpos) (hstrict : strict' → strict)
    (hF : F ⊆ F') : CopyOf machine a strict' F' a' id pos did dpos := by
  induction h with
  | null hnull hnull' => exact .null hnull hnull'
  | refused hkeeps hnull' => exact .refused (hkeeps.mono hstrict) hnull'
  | capability hdenotes hanswer hword => exact .capability hdenotes hanswer hword
  | object hsegment hsource hdenotes hblock hcopy hroom hdsegment hsome hdenotes' hdblock hfresh hdata
      _ ih =>
    exact .object hsegment hsource hdenotes hblock hcopy hroom hdsegment hsome hdenotes' hdblock
      (hfresh.trans hF) hdata ih
  | full hsegment hdenotes hblock hcopy hfull hdsegment hsome hrefuses =>
    exact .full hsegment hdenotes hblock hcopy hfull hdsegment hsome hrefuses

end CopyOf

/-! ## Words and pointers that were copied -/

/-- What comes to a word of the destination: a word, or the copy of a pointer. -/
inductive Item where
  | word (word : Word)
  | ptr (src : ℕ)

section Replaces

variable {ε : Type} (machine : CopyMachine ε) (a : ReadArena) (id : SegmentId) (strict : Prop)
  (F : Set SegmentRef) (slot : SegmentRef) (old : Word)

/-- A pointer of the source was copied over an old word, unless it is null. -/
inductive Replaces (src : ℕ) (a' : ReadArena) : Prop
  | null (hnull : a.Holds id src Word.null) (hold : a'.Holds slot.segment slot.pos old)
  | copy (hsome : ¬ a.Holds id src Word.null)
      (hcopy : CopyOf machine a strict F a' id src slot.segment slot.pos)
      (hnew : ¬ a'.Holds slot.segment slot.pos Word.null)
  | kept (hsome : ¬ a.Holds id src Word.null) (hkeeps : machine.Keeps a strict id src)
      (hold : a'.Holds slot.segment slot.pos old)

/-- The item came to the word. -/
def Item.Done : Item → ReadArena → Prop
  | word w, a' => a'.Holds slot.segment slot.pos w
  | ptr src, a' => Replaces machine a id strict F slot old src a'

end Replaces

section Replaces

variable {ε : Type} {machine : CopyMachine ε} {a a' : ReadArena} {id : SegmentId}
  {strict strict' : Prop} {F F' : Set SegmentRef} {slot : SegmentRef} {old : Word} {src : ℕ}

lemma Replaces.mono (h : Replaces machine a id strict F slot old src a')
    (hstrict : strict' → strict) (hF : F ⊆ F') : Replaces machine a id strict' F' slot old src a' := by
  cases h with
  | null hnull hold => exact .null hnull hold
  | copy hsome hcopy hnew => exact .copy hsome (hcopy.mono hstrict hF) hnew
  | kept hsome hkeeps hold => exact .kept hsome (hkeeps.mono hstrict) hold

/-- Over a null word there is a copy. -/
lemma Replaces.copyOf (h : Replaces machine a id strict F slot Word.null src a') :
    CopyOf machine a strict F a' id src slot.segment slot.pos := by
  cases h with
  | null hnull hold => exact .null hnull hold
  | copy _ hcopy => exact hcopy
  | kept _ hkeeps hold => exact .refused hkeeps hold

lemma Item.Done.mono {item : Item} (h : item.Done machine a id strict F slot old a')
    (hstrict : strict' → strict) (hF : F ⊆ F') :
    item.Done machine a id strict' F' slot old a' := by
  cases item with
  | word => exact h
  | ptr => exact Replaces.mono h hstrict hF

end Replaces

end Recapn.Ptr

/-
# The code that clears a group

A group has no size of its own: it is a part of the struct that it is in, and the generator writes
for it a function that clears it.  For every field that is not in a union the function clears the
field, by its type and its descriptor; for the union it sets the discriminant, and clears the
member with case 0.  Groups in groups are cleared by their own functions.
-/
import Recapn.Ptr.Clearing
import Recapn.Ptr.Fields

namespace Recapn.Codegen

open Recapn.Lib Recapn.Ptr

/-! ## Fields of groups -/

/-- A field where the generated code clears it: its `FieldType` with the descriptor.  A group has
its own fields, and when it has variants the slot of its discriminant and their cases. -/
inductive GroupField where
  | void
  | data (type : DataType) (slot default : ℕ)
  | enum (slot default : ℕ)
  | ptr (slot : ℕ)
  | group (count : ℕ) (fields : Fin count → GroupField) (tagSlot variantCount : ℕ)
      (case : Fin variantCount → ℕ) (variants : Fin variantCount → GroupField)

/-- The variant that `GeneratedWhich::call_clear` finds. -/
def firstCase {n : ℕ} (case : Fin n → ℕ) : Option (Fin n) :=
  (List.finRange n).find? fun k => case k = 0

/-- The function `FieldType::clear` of a field.  For a group it is `FieldGroup::clear`, whose body
`GeneratedStruct::clear_all` and `GeneratedWhich::call_clear` write. -/
def GroupField.clear (s : StructBuilder) (clearCap : List ℕ → ℕ → Except Ptr.Error Unit)
    (depth : ℕ) : GroupField → Prog Empty Arena Unit
  | void => pure ()
  | data type slot default => s.setFieldWithDefaultUnchecked type slot default default
  | enum slot _ => s.setFieldUnchecked .u16 slot 0
  | ptr slot => (s.ptrFieldMutUnchecked (slot % 2 ^ 16)).clear clearCap depth
  | group count fields tagSlot variantCount case variants => do
    Prog.fold (fun _ k => (fields k).clear s clearCap depth) () (List.finRange count)
    if variantCount = 0 then pure ()
    else do
      -- the literal has no suffix, so it is an `i32`
      s.setFieldUnchecked .u32 tagSlot 0
      match firstCase case with
      | some k => (variants k).clear s clearCap depth
      | none => Prog.halt .panic -- the generator expects a variant with case 0

namespace GroupField

/-- The schema compiler gives a field a place in the sections of its struct, and a union a place
for its discriminant and a case 0. -/
def Fits (size : StructSize) : GroupField → Prop
  | void => True
  | data type slot _ => type.begins slot + type.bits ≤ 64 * size.data
  | enum slot _ => 16 * slot + 16 ≤ 64 * size.data
  | ptr slot => slot < size.ptrs
  | group _ fields tagSlot variantCount case variants =>
    (∀ k, (fields k).Fits size) ∧ (∀ k, (variants k).Fits size) ∧
    (variantCount ≠ 0 → 16 * tagSlot + 16 ≤ 64 * size.data ∧ ∃ k, case k = 0) ∧
    Function.Injective case

/-- The field reads as its default, and so do the fields of a group that are not in its union, the
discriminant is 0 and the member with case 0 reads as its default. -/
def IsDefault (s : StructBuilder) (a : Arena) : GroupField → Prop
  | void => True
  | data type slot default => s.dataFieldWithDefaultUnchecked type slot default a = default
  | enum slot default => s.dataFieldWithDefaultUnchecked .u16 slot default a = default
  | ptr slot => a.word (s.ptrsStart.offset slot) = Word.null
  | group _ fields tagSlot variantCount case variants =>
    (∀ k, (fields k).IsDefault s a) ∧
    (variantCount ≠ 0 → s.dataFieldWithDefaultUnchecked .u16 tagSlot 0 a = 0) ∧
    ∀ k, case k = 0 → (variants k).IsDefault s a

/-- The bits of the struct that belong to the field: of a group, those of all fields and variants,
and of the discriminant. -/
def Owns (size : StructSize) : GroupField → Set ℕ
  | void => ∅
  | data type slot _ => Set.Ico (type.begins slot) (type.begins slot + type.bits)
  | enum slot _ => Set.Ico (16 * slot) (16 * slot + 16)
  | ptr slot => Set.Ico (64 * (size.data + slot)) (64 * (size.data + slot) + 64)
  | group _ fields tagSlot variantCount _ variants =>
    {p | (∃ k, p ∈ (fields k).Owns size) ∨ (∃ k, p ∈ (variants k).Owns size) ∨
      variantCount ≠ 0 ∧ p ∈ Set.Ico (16 * tagSlot) (16 * tagSlot + 16)}

end GroupField

/-! ## Structs in an arena -/

/-- A bit of the struct that begins at a place. -/
def structBit (a : Arena) (start : SegmentRef) (p : ℕ) : Bool :=
  (a.word (start.offset (p / 64))).bit (p % 64)

/-- The builder is one of a struct of this size. -/
structure StandsAt (s : StructBuilder) (a : Arena) (start : SegmentRef) (size : StructSize) :
    Prop where
  dataStart : s.dataStart = start
  ptrsStart : s.ptrsStart = start.offset size.data
  segment_lt : start.segment < a.segments.length
  block_le : start.pos + size.total ≤ a.len start.segment

/-- Clearing the group resets it: its fields and its union are at their defaults, and no other bit
of the struct changed. -/
structure Reset (g : GroupField) (s : StructBuilder) (start : SegmentRef) (size : StructSize)
    (a a' : Arena) : Prop where
  isDefault : g.IsDefault s a'
  frame : ∀ p < 64 * size.total, p ∉ g.Owns size → structBit a' start p = structBit a start p

/-- The code that is generated for the group returns, when the recursion over objects may go deep
enough, and has reset the group. -/
def GroupField.Resets (g : GroupField) (s : StructBuilder)
    (clearCap : List ℕ → ℕ → Except Ptr.Error Unit) (start : SegmentRef) (size : StructSize)
    (a : Arena) : Prop :=
  ∃ n, ∀ depth ≥ n, ∃ a', g.clear s clearCap depth a = .ok () a' ∧ Reset g s start size a a'

end Recapn.Codegen

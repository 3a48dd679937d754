/-
# Comparing pointers

Two pointers are compared by what they point to: data words by their bytes, pointers again as
pointers.  The recursion takes its depth as an argument.  The state has the two limiters of the
messages that are compared.
-/
import Mathlib.Data.List.DropRight
import Recapn.Ptr.Copy

namespace Recapn.Ptr

open Recapn.Lib

/-- `PtrEquality`. -/
inductive PtrEquality where
  | notEqual
  | equal
  | containsCaps
deriving DecidableEq, Repr

/-- Programs that compare. -/
abbrev EqualityM := Prog Error (Limiter × Limiter)

namespace Equality

/-- Run a part that reads our message. -/
def readingOurs {α : Type} (x : ReadM α) : EqualityM α :=
  Prog.zoom Prod.fst (fun s limiter => (limiter, s.2)) x

/-- Run a part that reads their message. -/
def readingTheirs {α : Type} (x : ReadM α) : EqualityM α :=
  Prog.zoom Prod.snd (fun s limiter => (s.1, limiter)) x

/-- The function `cmp_ptr`, as the others use it. -/
abbrev CmpPtr := ℕ → ObjectReader → ℕ → ObjectReader → EqualityM PtrEquality

/-- The loops over pairs: the first pair that is not equal ends them, and capabilities are
remembered. -/
def cmpAll (n : ℕ) (cmp : ℕ → EqualityM PtrEquality) : EqualityM PtrEquality :=
  match n with
  | 0 => pure .equal
  | n + 1 => do
    let equality ← cmpAll n cmp
    if equality = .notEqual then pure .notEqual
    else do
      let last ← cmp n
      if last = .equal then pure equality else pure last

/-- Compare pairs of pointers. -/
def cmpPtrs (cmpPtr : CmpPtr) (ourPtrs : ℕ) (ourReader : ObjectReader) (theirPtrs : ℕ)
    (theirReader : ObjectReader) (len : ℕ) : EqualityM PtrEquality :=
  cmpAll len fun k => cmpPtr (ourPtrs + k) ourReader (theirPtrs + k) theirReader

/-- The first `len` words are the same. -/
def sameWords (ours theirs : ℕ → Word) (len : ℕ) : Bool :=
  (List.range len).all fun k => ours k == theirs k

/-- `cmp_struct`. -/
def cmpStruct (cmpPtr : CmpPtr) (ourStruct : StructContent) (ourReader : ObjectReader)
    (theirStruct : StructContent) (theirReader : ObjectReader) : EqualityM PtrEquality := do
  let ourData ← ourReader.sectionSlice ourStruct.ptr ourStruct.size.data
  let theirData ← theirReader.sectionSlice theirStruct.ptr theirStruct.size.data
  if ourStruct.size.data = theirStruct.size.data ∧
      sameWords ourData theirData ourStruct.size.data = true then
    cmpPtrs cmpPtr ourStruct.ptrsStart ourReader theirStruct.ptrsStart theirReader
      (min ourStruct.size.ptrs theirStruct.size.ptrs)
  else pure .notEqual

/-- The first `len` bytes are the same. -/
def sameBytes (ours theirs : ℕ → Word) (len : ℕ) : Bool :=
  (List.range len).all fun k =>
    (ours (k / 8)).bytes.getD (k % 8) 0 == (theirs (k / 8)).bytes.getD (k % 8) 0

/-- The arm of `cmp_list` for lists of bits. -/
def cmpBits (ours theirs : ℕ → Word) (len : ℕ) : Bool :=
  let fullBytes := len / 8
  let partialBits := len % 8
  if partialBits = 0 then sameBytes ours theirs fullBytes
  else
    let mask : Byte := ~~~((255 : Byte) >>> partialBits.toUInt8)
    let ourPartial := (ours (fullBytes / 8)).bytes.getD (fullBytes % 8) 0
    let theirPartial := (theirs (fullBytes / 8)).bytes.getD (fullBytes % 8) 0
    sameBytes ours theirs fullBytes && (ourPartial &&& mask == theirPartial &&& mask)

/-- The arms of `cmp_list` for lists of data, by their words. -/
def cmpData (ourList : ListContent) (ourReader : ObjectReader) (theirList : ListContent)
    (theirReader : ObjectReader) (same : (ℕ → Word) → (ℕ → Word) → Bool) :
    EqualityM PtrEquality := do
  let words ← Prog.unwrap (U29.new (ourList.elementSize.totalWords ourList.elementCount.get))
  let ours ← ourReader.sectionSlice ourList.ptr words.get
  let theirs ← theirReader.sectionSlice theirList.ptr words.get
  if same ours theirs then pure .equal else pure .notEqual

/-- The match of `cmp_list` on the element size. -/
def cmpElements (cmpPtr : CmpPtr) (ourList : ListContent) (ourReader : ObjectReader)
    (theirList : ListContent) (theirReader : ObjectReader) : EqualityM PtrEquality :=
  let len := ourList.elementCount.get
  match ourList.elementSize, theirList.elementSize with
  | .void, _ => pure .equal
  | .bit, _ => cmpData ourList ourReader theirList theirReader fun ours theirs =>
      cmpBits ours theirs len
  | .pointer, _ => cmpPtrs cmpPtr ourList.ptr ourReader theirList.ptr theirReader len
  | .inlineComposite ourSize, .inlineComposite theirSize => do
    stepByUnchecked ourSize.total len
    stepByUnchecked theirSize.total len
    cmpAll len fun k =>
      cmpStruct cmpPtr ⟨ourList.ptr + ourSize.total * k, ourSize⟩ ourReader
        ⟨theirList.ptr + theirSize.total * k, theirSize⟩ theirReader
  | .inlineComposite _, _ => Prog.halt .panic
  | size, _ => cmpData ourList ourReader theirList theirReader fun ours theirs =>
      sameBytes ours theirs ((size.bits * len + 7) / 8)

/-- `cmp_list`. -/
def cmpList (cmpPtr : CmpPtr) (ourList : ListContent) (ourReader : ObjectReader)
    (theirList : ListContent) (theirReader : ObjectReader) : EqualityM PtrEquality :=
  if ourList.elementCount ≠ theirList.elementCount then pure .notEqual
  else if ourList.elementSize.asPtrSize ≠ theirList.elementSize.asPtrSize then pure .notEqual
  else if ourList.elementCount = U29.zero then pure .equal
  else cmpElements cmpPtr ourList ourReader theirList theirReader

/-- The match of `cmp_ptr` on what the pointers point to. -/
def cmpContent (cmpPtr : CmpPtr) (ourReader : ObjectReader) (ours : TypedContent)
    (theirReader : ObjectReader) (theirs : TypedContent) : EqualityM PtrEquality :=
  match ours, theirs with
  | .struct ours, .struct theirs => cmpStruct cmpPtr ours ourReader theirs theirReader
  | .list ours, .list theirs => cmpList cmpPtr ours ourReader theirs theirReader
  | .capability _, .capability _ => pure .containsCaps
  | _, _ => pure .notEqual

/-- `cmp_ptr`, to a depth. -/
def cmpPtr : ℕ → CmpPtr
  | 0, _, _, _, _ => Prog.halt .depth
  | depth + 1, ourPtr, ourReader, theirPtr, theirReader =>
    if (ourReader.word ourPtr).isNull && (theirReader.word theirPtr).isNull then pure .equal
    else do
      let (ourReader, ours) ← readingOurs (ourReader.tryReadTyped ourPtr)
      let (theirReader, theirs) ← readingTheirs (theirReader.tryReadTyped theirPtr)
      cmpContent (cmpPtr depth) ourReader ours theirReader theirs

end Equality

/-- `PtrReader::equality`. -/
def PtrReader.equality (self other : PtrReader) (depth : ℕ) : EqualityM PtrEquality :=
  Equality.cmpPtr depth self.ptr self.reader other.ptr other.reader

/-! ## Comparing structs -/

/-- `ObjectReader::trim_end_null_section`. -/
def ObjectReader.trimEndNullSection {ε σ : Type} (self : ObjectReader) (ptr len : ℕ) :
    Prog ε σ ℕ := do
  let words ← self.sectionSlice ptr len
  pure (trimEndNullWords words len)

/-- `trim_end_null_bytes`. -/
def trimEndNullBytes (bytes : List Byte) : List Byte := bytes.rdropWhile fun byte => byte == 0

/-- `cmp_ptr_sections`. -/
def Equality.cmpPtrSections (cmpPtr : CmpPtr) (ourPtrs ourLen : ℕ) (ourReader : ObjectReader)
    (theirPtrs theirLen : ℕ) (theirReader : ObjectReader) : EqualityM PtrEquality := do
  let ourLen ← ourReader.trimEndNullSection ourPtrs ourLen
  let theirLen ← theirReader.trimEndNullSection theirPtrs theirLen
  if ourLen ≠ theirLen then pure .notEqual
  else cmpPtrs cmpPtr ourPtrs ourReader theirPtrs theirReader ourLen

/-- `StructReader::data_section`. -/
def StructReader.dataSection {ε σ : Type} (self : StructReader) : Prog ε σ (List Byte) := do
  let words ← self.reader.sectionSlice self.dataStart ((self.dataLen + 7) / 8)
  pure ((List.range self.dataLen).map fun k => (words (k / 8)).bytes.getD (k % 8) 0)

/-- `StructReader::equality`. -/
def StructReader.equality (self other : StructReader) (depth : ℕ) : EqualityM PtrEquality := do
  let ourData ← self.dataSection
  let theirData ← other.dataSection
  if trimEndNullBytes ourData ≠ trimEndNullBytes theirData then pure .notEqual
  else
    Equality.cmpPtrSections (Equality.cmpPtr depth) self.ptrsStart self.ptrsLen self.reader
      other.ptrsStart other.ptrsLen other.reader

end Recapn.Ptr

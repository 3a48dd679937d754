/-
# Deep copies

A copy reads an object from a message, allocates one of the same size in the arena of another
message, copies the data words and goes on with the pointers.  What cannot be read or allocated
is handed to the error handler, which lets the copy go on with a null pointer in that place, or
breaks it off.  The recursion takes its depth as an argument: the source counts nothing here.
-/
import Recapn.Ptr.Clear
import Recapn.Ptr.Readers

namespace Recapn.Ptr

open Recapn.Lib

/-! ## Element sizes -/

namespace ElementSize

/-- `ElementSize::is_empty`. -/
def isEmpty : ElementSize → Bool
  | void => true
  | inlineComposite size => size.isEmpty
  | _ => false

/-- `ElementSize::is_ptrs`. -/
def isPtrs (self : ElementSize) : Bool :=
  !self.isEmpty &&
    match self with
    | pointer => true
    | inlineComposite size => size.data == 0
    | _ => false

/-- `ElementSize::is_composite`. -/
def isComposite : ElementSize → Bool
  | inlineComposite size => size.data != 0 && size.ptrs != 0
  | _ => false

/-- `ElementSize::is_data`. -/
def isData (self : ElementSize) : Bool := !self.isEmpty && !self.isPtrs && !self.isComposite

end ElementSize

/-- `StructSize::max`. -/
def StructSize.max (self other : StructSize) : StructSize where
  data := Nat.max self.data other.data
  ptrs := Nat.max self.ptrs other.ptrs
  data_lt := Nat.max_lt.2 ⟨self.data_lt, other.data_lt⟩
  ptrs_lt := Nat.max_lt.2 ⟨self.ptrs_lt, other.ptrs_lt⟩

/-- `ElementSize::upgrade_to` for two sizes that are not the same. -/
def ElementSize.upgradeOther : ElementSize → ElementSize → Option ElementSize
  | inlineComposite src, inlineComposite min => some (inlineComposite (src.max min))
  | bit, _ | _, bit => none
  | inlineComposite src, pointer => if src.ptrs = 0 then none else some (inlineComposite src)
  | pointer, inlineComposite min => if min.ptrs = 0 then none else some (inlineComposite min)
  | inlineComposite src, void => some (inlineComposite src)
  | inlineComposite src, _ => if src.data = 0 then none else some (inlineComposite src)
  | void, inlineComposite min => some (inlineComposite min)
  | _, inlineComposite min => if min.data = 0 then none else some (inlineComposite min)
  | _, _ => none

/-- `ElementSize::upgrade_to`. -/
def ElementSize.upgradeTo (self other : ElementSize) : Option ElementSize :=
  if self = other then some other else self.upgradeOther other

/-! ## Sections of a message -/

namespace ObjectReader

/-- The words from `ptr` on are in the segment of the reader. -/
def inBounds (self : ObjectReader) (ptr len : ℕ) : Bool :=
  match self.source with
  | .checked segment => ptr + len ≤ segment.segment.len.get
  | .unchecked _ => true

/-- `ObjectReader::section_slice`.  A slice that leaves the segment is undefined. -/
def sectionSlice {ε σ : Type} (self : ObjectReader) (ptr len : ℕ) : Prog ε σ (ℕ → Word) := do
  Prog.require (self.inBounds ptr len = true)
  pure fun k => self.word (ptr + k)

end ObjectReader

/-- `trim_end_null_words`: how many of the first `len` words are left. -/
def trimEndNullWords (words : ℕ → Word) : ℕ → ℕ
  | 0 => 0
  | len + 1 => if (words len).isNull then trimEndNullWords words len else len + 1

lemma trimEndNullWords_le (words : ℕ → Word) (len : ℕ) : trimEndNullWords words len ≤ len := by
  induction len with
  | zero => exact Nat.le_refl _
  | succ len ih =>
    unfold trimEndNullWords
    split
    · omega
    · exact Nat.le_refl _

/-- `calculate_canonical_struct_size`. -/
def calculateCanonicalStructSize {ε σ : Type} (reader : ObjectReader) (src : ℕ)
    (size : StructSize) : Prog ε σ StructSize := do
  let data ← reader.sectionSlice src size.data
  let ptrs ← reader.sectionSlice (src + size.data) size.ptrs
  pure
    { data := trimEndNullWords data size.data
      ptrs := trimEndNullWords ptrs size.ptrs
      data_lt := Nat.lt_of_le_of_lt (trimEndNullWords_le _ _) size.data_lt
      ptrs_lt := Nat.lt_of_le_of_lt (trimEndNullWords_le _ _) size.ptrs_lt }

/-- `step_by_unchecked`: the distance between the elements is checked, the elements follow. -/
def stepByUnchecked {ε σ : Type} (offset len : ℕ) : Prog ε σ Unit :=
  Prog.assert (offset * len ≤ U29.maxValue)

/-- The fold over the elements in `calculate_canonical_inline_composite_size`. -/
def maxCanonicalStructSize {ε σ : Type} (reader : ObjectReader) (src : ℕ) (size : StructSize) :
    ℕ → Prog ε σ StructSize
  | 0 => pure StructSize.empty
  | count + 1 => do
    let smaller ← maxCanonicalStructSize reader src size count
    let last ← calculateCanonicalStructSize reader (src + size.total * count) size
    pure (smaller.max last)

/-- `calculate_canonical_inline_composite_size`. -/
def calculateCanonicalInlineCompositeSize {ε σ : Type} (reader : ObjectReader) (src : ℕ)
    (size : StructSize) (count : ElementCount) : Prog ε σ StructSize := do
  stepByUnchecked size.total count.get
  maxCanonicalStructSize reader src size count.get

/-! ## The copy machine -/

/-- The state of a copy: the limiter of the source, the arena of the destination, the errors
that were handled and the capabilities that were copied, the last ones first. -/
structure CopyState where
  limiter : Limiter
  arena : Arena
  reported : List Error
  caps : List ℕ

/-- Programs that copy. -/
abbrev CopyM (ε : Type) := Prog ε CopyState

/-- `CopyMachine`.  `copyCap` is `InsertableInto::copy` between the tables, which may answer
differently after other capabilities. -/
structure CopyMachine (ε : Type) where
  handler : ErrorHandler ε
  copyCap : List ℕ → ℕ → Except Error (Option ℕ)
  canonical : Bool

namespace CopyMachine

variable {ε : Type}

/-- Run a part that reads the source. -/
def reading {α : Type} (x : ReadM α) : CopyM ε (Except Error α) :=
  Prog.zoom CopyState.limiter (fun s limiter => { s with limiter := limiter }) (Prog.attempt x)

/-- Run a part that builds in the destination and may fail. -/
def building {α : Type} (x : BuildM α) : CopyM ε (Except Error α) :=
  Prog.zoom CopyState.arena (fun s arena => { s with arena := arena }) (Prog.attempt x)

/-- Run a part that writes to the destination. -/
def writing {α : Type} (x : Prog ε Arena α) : CopyM ε α :=
  Prog.zoom CopyState.arena (fun s arena => { s with arena := arena }) x

/-- `CopyMachine::handle_err`. -/
def handleErr (self : CopyMachine ε) (err : Error) : CopyM ε Unit := fun s =>
  match self.handler s.reported err with
  | none => .ok () { s with reported := err :: s.reported }
  | some e => .error e { s with reported := err :: s.reported }

/-- The function `CopyMachine::copy_ptr`, as the others use it. -/
abbrev CopyPtr (ε : Type) := ℕ → ObjectReader → SegmentRef → ObjectBuilder → CopyM ε Unit

/-- `CopyMachine::copy_ptr_section`. -/
def copyPtrSection (copyPtr : CopyPtr ε) (src : ℕ) (reader : ObjectReader) (dst : SegmentRef)
    (builder : ObjectBuilder) (len : ℕ) : CopyM ε Unit :=
  Prog.forRange len fun k => do
    let word ← reader.sectionSlice (src + k) 1
    if (word 0).isNull then pure () else copyPtr (src + k) reader (dst.offset k) builder

/-- Copy `len` words. -/
def copyWords (src : ℕ) (reader : ObjectReader) (dst : SegmentRef) (len : ℕ) : CopyM ε Unit := do
  let words ← reader.sectionSlice src len
  writing (Arena.writeSection dst len words)

/-- `CopyMachine::copy_struct`. -/
def copyStruct (copyPtr : CopyPtr ε) (src : ℕ) (srcSize : StructSize) (reader : ObjectReader)
    (dst : SegmentRef) (dstSize : StructSize) (builder : ObjectBuilder) : CopyM ε Unit := do
  copyWords src reader dst (min srcSize.data dstSize.data)
  copyPtrSection copyPtr (src + srcSize.data) reader (dst.offset dstSize.data) builder
    (min srcSize.ptrs dstSize.ptrs)

/-- `CopyMachine::copy_inline_composites`. -/
def copyInlineComposites (copyPtr : CopyPtr ε) (src : ℕ) (srcSize : StructSize)
    (reader : ObjectReader) (dst : SegmentRef) (dstSize : StructSize) (builder : ObjectBuilder)
    (len : ElementCount) : CopyM ε Unit := do
  stepByUnchecked srcSize.total len.get
  stepByUnchecked dstSize.total len.get
  Prog.forRange len.get fun k =>
    copyStruct copyPtr (src + srcSize.total * k) srcSize reader (dst.offset (dstSize.total * k))
      dstSize builder

/-- `CopyMachine::copy_list`. -/
def copyList (copyPtr : CopyPtr ε) (src : ℕ) (reader : ObjectReader) (dst : SegmentRef)
    (builder : ObjectBuilder) (size : ElementSize) (len : ElementCount) : CopyM ε Unit :=
  if size.isPtrs then do
    let words ← Prog.unwrap (U29.new (size.totalWords len.get))
    copyPtrSection copyPtr src reader dst builder words.get
  else if size.isData then do
    let words ← Prog.unwrap (U29.new (size.totalWords len.get))
    copyWords src reader dst words.get
  else
    match size with
    | .inlineComposite size => copyInlineComposites copyPtr src size reader dst size builder len
    | _ => Prog.halt .panic

/-- The part of `CopyMachine::copy_ptr` for a struct. -/
def copyStructContent (self : CopyMachine ε) (copyPtr : CopyPtr ε) (reader : ObjectReader)
    (content : StructContent) (dst : SegmentRef) (builder : ObjectBuilder) : CopyM ε Unit := do
  let dstSize ←
    (if self.canonical then calculateCanonicalStructSize reader content.ptr content.size
      else pure content.size)
  let alloc ← building (builder.allocStruct dst dstSize)
  match alloc with
  | .ok (dst, builder) =>
    copyStruct copyPtr content.ptr content.size reader dst dstSize builder
  | .error err => self.handleErr err

/-- The part of `CopyMachine::copy_ptr` for a list of structs in canonical form.  The size is
calculated from the words at the pointer, in the segment of the pointer. -/
def copyCanonicalList (self : CopyMachine ε) (copyPtr : CopyPtr ε) (src : ℕ)
    (srcReader reader : ObjectReader) (content : ListContent) (srcSize : StructSize)
    (dst : SegmentRef) (builder : ObjectBuilder) : CopyM ε Unit := do
  let dstSize ←
    calculateCanonicalInlineCompositeSize srcReader src srcSize content.elementCount
  let alloc ← building (builder.allocList dst (.inlineComposite dstSize) content.elementCount)
  match alloc with
  | .ok (dst, _, builder) =>
    if dstSize = StructSize.empty then pure ()
    else
      copyInlineComposites copyPtr content.ptr srcSize reader dst dstSize builder
        content.elementCount
  | .error err => self.handleErr err

/-- The part of `CopyMachine::copy_ptr` for a list of the same element size. -/
def copyListContent (self : CopyMachine ε) (copyPtr : CopyPtr ε) (reader : ObjectReader)
    (content : ListContent) (dst : SegmentRef) (builder : ObjectBuilder) : CopyM ε Unit := do
  let alloc ← building (builder.allocList dst content.elementSize content.elementCount)
  match alloc with
  | .ok (dst, totalSize, builder) =>
    if totalSize.get = 0 then pure ()
    else copyList copyPtr content.ptr reader dst builder content.elementSize content.elementCount
  | .error err => self.handleErr err

/-- The part of `CopyMachine::copy_ptr` for a capability. -/
def copyCapability (self : CopyMachine ε) (index : ℕ) (dst : SegmentRef)
    (builder : ObjectBuilder) : CopyM ε Unit :=
  if self.canonical then self.handleErr .capabilityNotAllowed
  else do
    let s ← Prog.get
    Prog.modify fun s => { s with caps := index :: s.caps }
    match self.copyCap s.caps index with
    | .ok (some newIndex) => writing (builder.setPtr dst (CapabilityPtr.new newIndex))
    | .ok none => pure ()
    | .error err => self.handleErr err

/-- `CopyMachine::copy_ptr`, to a depth. -/
def copyPtr (self : CopyMachine ε) : ℕ → CopyPtr ε
  | 0, _, _, _, _ => Prog.halt .depth
  | depth + 1, src, reader, dst, builder => do
    let result ← reading (reader.tryReadTyped src)
    match result with
    | .error err => self.handleErr err
    | .ok (reader', .struct content) =>
      self.copyStructContent (self.copyPtr depth) reader' content dst builder
    | .ok (reader', .list content) =>
      match content.elementSize, self.canonical with
      | .inlineComposite srcSize, true =>
        self.copyCanonicalList (self.copyPtr depth) src reader reader' content srcSize dst builder
      | _, _ => self.copyListContent (self.copyPtr depth) reader' content dst builder
    | .ok (_, .capability index) => self.copyCapability index dst builder

/-! ### Lists that are upgraded -/

/-- The `size` bytes of an element of a list of data. -/
def elementBytes (words : ℕ → Word) (size k : ℕ) : List Byte :=
  ((words (size * k / 8)).bytes.drop (size * k % 8)).take size

/-- Write bytes at an offset in the word at a place. -/
def setBytes (place : SegmentRef) (offset : ℕ) (bytes : List Byte) : CopyM ε Unit := do
  let word ← writing (Arena.read place)
  writing (Arena.writeSection place 1 fun _ => Word.ofBytes
    (word.bytes.take offset ++ bytes ++ word.bytes.drop (offset + bytes.length)))

/-- How many bytes an element of a list of data has, if it has any. -/
def dataBytes : ElementSize → Option ℕ
  | .byte => some 1
  | .twoBytes => some 2
  | .fourBytes => some 4
  | .eightBytes => some 8
  | _ => none

/-- The macro `copy_data` of `CopyMachine::copy_to_upgraded_list`: every element goes to the start of a struct. -/
def copyData (size : ℕ) (src : ℕ) (reader : ObjectReader) (srcSize : ElementSize)
    (dst : SegmentRef) (dstSize : StructSize) (len : ElementCount) : CopyM ε Unit := do
  let totalSize ← Prog.unwrap (U29.new (srcSize.totalWords len.get))
  let words ← reader.sectionSlice src totalSize.get
  Prog.forRange len.get fun k =>
    setBytes (dst.offset (dstSize.total * k)) 0 (elementBytes words size k)

/-- The part of `CopyMachine::copy_to_upgraded_list` for a list that becomes one of structs. -/
def copyToStructs (copyPtr : CopyPtr ε) (src : ℕ) (reader : ObjectReader) (srcSize : ElementSize)
    (dst : SegmentRef) (builder : ObjectBuilder) (dstSize : StructSize) (len : ElementCount) :
    CopyM ε Unit :=
  if srcSize = .pointer ∧ dstSize.data = 0 ∧ dstSize.ptrs = 1 then do
    let words ← Prog.unwrap (U29.new (srcSize.totalWords len.get))
    copyPtrSection copyPtr src reader dst builder words.get
  else if srcSize = .eightBytes ∧ dstSize.data = 1 ∧ dstSize.ptrs = 0 then do
    let words ← Prog.unwrap (U29.new (srcSize.totalWords len.get))
    copyWords src reader dst words.get
  else do
    stepByUnchecked dstSize.total len.get
    match srcSize, dataBytes srcSize with
    | .pointer, _ =>
      Prog.forRange len.get fun k => do
        let word ← reader.sectionSlice (src + k) 1
        if (word 0).isNull then pure ()
        else copyPtr (src + k) reader (dst.offset (dstSize.total * k + dstSize.data)) builder
    | _, some size => copyData size src reader srcSize dst dstSize len
    | _, none => Prog.halt .panic

/-- `CopyMachine::copy_to_upgraded_list`. -/
def copyToUpgradedList (copyPtr : CopyPtr ε) (src : ℕ) (reader : ObjectReader)
    (srcSize : ElementSize) (dst : SegmentRef) (builder : ObjectBuilder) (dstSize : ElementSize)
    (len : ElementCount) : CopyM ε Unit :=
  if srcSize.isEmpty then pure ()
  else if srcSize = dstSize then copyList copyPtr src reader dst builder dstSize len
  else
    match srcSize, dstSize with
    | .inlineComposite srcSize, .inlineComposite dstSize =>
      copyInlineComposites copyPtr src srcSize reader dst dstSize builder len
    | srcSize, .inlineComposite dstSize =>
      copyToStructs copyPtr src reader srcSize dst builder dstSize len
    | _, _ => Prog.halt .panic

/-! ### Ranges of lists -/

/-- The macro `copy_by_slice` of `CopyMachine::copy_to_upgraded_list_at`.  The slices end at `len`. -/
def copyBySlice (size : ℕ) (words : ℕ → Word) (srcStart : ℕ) (dst : SegmentRef)
    (dstStart len : ℕ) : CopyM ε Unit := do
  Prog.assert (srcStart ≤ len ∧ dstStart ≤ len)
  Prog.assert (len - srcStart = len - dstStart)
  Prog.forRange (len - srcStart) fun k =>
    setBytes (dst.offset (size * (dstStart + k) / 8)) (size * (dstStart + k) % 8)
      (elementBytes words size (srcStart + k))

/-- The loop over the bits in `CopyMachine::copy_to_upgraded_list_at`. -/
def copyBits (words : ℕ → Word) (wordCount srcStart : ℕ) (dst : SegmentRef) (dstStart len : ℕ) :
    CopyM ε Unit :=
  Prog.forRange len fun k => do
    let srcIdx := srcStart + k
    let dstIdx := dstStart + k
    Prog.assert (srcIdx / 8 < 8 * wordCount ∧ dstIdx / 8 < 8 * wordCount)
    let byte := (words (srcIdx / 64)).bytes.getD (srcIdx / 8 % 8) 0
    let value : Byte := (byte >>> (srcIdx % 8).toUInt8) &&& 1
    let dstBit := (dstIdx % 8).toUInt8
    let word ← writing (Arena.read (dst.offset (dstIdx / 64)))
    let old := word.bytes.getD (dstIdx / 8 % 8) 0
    setBytes (dst.offset (dstIdx / 64)) (dstIdx / 8 % 8)
      [(old &&& ~~~(1 <<< dstBit)) ||| (value <<< dstBit)]

/-- The part of `CopyMachine::copy_to_upgraded_list_at` for a list that becomes one of structs. -/
def copyToStructsAt (copyPtr : CopyPtr ε) (src : ℕ) (reader : ObjectReader)
    (srcSize : ElementSize) (words : ℕ → Word) (srcStart : ElementCount) (dst : SegmentRef)
    (builder : ObjectBuilder) (dstSize : StructSize) (dstStart len : ElementCount) :
    CopyM ε Unit := do
  let dstOffset ← Prog.unwrap (U29.new (dstSize.total * dstStart.get % 2 ^ 32))
  let dst := dst.offset dstOffset.get
  stepByUnchecked dstSize.total len.get
  match srcSize, dataBytes srcSize with
  | .pointer, _ =>
    Prog.forRange len.get fun k =>
      copyPtr (src + srcStart.get + k) reader (dst.offset (dstSize.total * k + dstSize.data)) builder
  | _, some size => do
    Prog.assert (srcStart.get ≤ len.get)
    Prog.forRange (len.get - srcStart.get) fun k =>
      setBytes (dst.offset (dstSize.total * k)) 0 (elementBytes words size (srcStart.get + k))
  | _, none => Prog.halt .panic

/-- The match of `CopyMachine::copy_to_upgraded_list_at`. -/
def copyElementsAt (copyPtr : CopyPtr ε) (src : ℕ) (reader : ObjectReader) (srcSize : ElementSize)
    (words : ℕ → Word) (wordCount : ℕ) (srcStart : ElementCount) (dst : SegmentRef)
    (builder : ObjectBuilder) (dstSize : ElementSize) (dstStart len : ElementCount) :
    CopyM ε Unit :=
  match srcSize, dstSize, dataBytes srcSize with
  | .void, _, _ => pure ()
  | .bit, .bit, _ => copyBits words wordCount srcStart.get dst dstStart.get len.get
  | .pointer, .pointer, _ =>
    copyPtrSection copyPtr (src + srcStart.get) reader (dst.offset dstStart.get) builder len.get
  | .inlineComposite srcSize, .inlineComposite dstSize, _ => do
    let srcOffset ← Prog.unwrap (U29.new (srcSize.total * srcStart.get % 2 ^ 32))
    let dstOffset ← Prog.unwrap (U29.new (dstSize.total * dstStart.get % 2 ^ 32))
    copyInlineComposites copyPtr (src + srcOffset.get) srcSize reader (dst.offset dstOffset.get)
      dstSize builder len
  | srcSize, .inlineComposite dstSize, _ =>
    copyToStructsAt copyPtr src reader srcSize words srcStart dst builder dstSize dstStart len
  | srcSize, dstSize, some size =>
    if srcSize = dstSize then copyBySlice size words srcStart.get dst dstStart.get len.get
    else Prog.halt .panic
  | _, _, none => Prog.halt .panic

/-- `CopyMachine::copy_to_upgraded_list_at`. -/
def copyToUpgradedListAt (copyPtr : CopyPtr ε) (src : ℕ) (reader : ObjectReader)
    (srcSize : ElementSize) (srcStart : ElementCount) (dst : SegmentRef) (builder : ObjectBuilder)
    (dstSize : ElementSize) (dstStart len : ElementCount) : CopyM ε Unit := do
  let wordCount ← Prog.unwrap (U29.new (srcSize.totalWords len.get))
  let words ← reader.sectionSlice src wordCount.get
  copyElementsAt copyPtr src reader srcSize words wordCount.get srcStart dst builder dstSize
    dstStart len

end CopyMachine

/-! ## Copying into pointers, structs and lists -/

namespace PtrBuilder

/-- `PtrBuilder::try_copy_from`: the pointer is cleared, and then copied to.  The two depths are
those of the two recursions. -/
def tryCopyFrom {ε : Type} (self : PtrBuilder) (clearCap : List ℕ → ℕ → Except Error Unit)
    (machine : CopyMachine ε) (clearDepth depth : ℕ) (other : PtrReader) : CopyM ε Unit := do
  CopyMachine.writing (self.clear clearCap clearDepth)
  machine.copyPtr depth other.ptr other.reader self.ptr self.builder

end PtrBuilder

/-- `StructBuilder`. -/
structure StructBuilder where
  builder : ObjectBuilder
  dataStart : SegmentRef
  ptrsStart : SegmentRef
  /-- In bytes. -/
  dataLen : ℕ
  ptrsLen : ℕ

namespace StructBuilder

/-- The data part of `StructBuilder::try_copy_with_caveats`: the bytes that both structs have. -/
def copyDataBytes {ε : Type} (self : StructBuilder) (other : StructReader) (len : ℕ) :
    CopyM ε Unit := do
  let words ← other.reader.sectionSlice other.dataStart ((len + 7) / 8)
  CopyMachine.writing (Arena.writeSection self.dataStart (len / 8) words)
  if len % 8 = 0 then pure ()
  else CopyMachine.setBytes (self.dataStart.offset (len / 8)) 0 ((words (len / 8)).bytes.take (len % 8))

/-- `StructBuilder::try_copy_with_caveats`. -/
def tryCopyWithCaveats {ε : Type} (self : StructBuilder) (machine : CopyMachine ε) (depth : ℕ)
    (other : StructReader) : CopyM ε Unit := do
  self.copyDataBytes other (min self.dataLen other.dataLen)
  CopyMachine.copyPtrSection (machine.copyPtr depth) other.ptrsStart other.reader self.ptrsStart
    self.builder (min self.ptrsLen other.ptrsLen)

end StructBuilder

/-- `ListBuilder`. -/
structure ListBuilder where
  builder : ObjectBuilder
  ptr : SegmentRef
  elementSize : ElementSize
  elementCount : ElementCount

namespace ListBuilder

/-- `ListBuilder::try_copy_from`.  The length is that of the builder. -/
def tryCopyFrom {ε : Type} (self : ListBuilder) (machine : CopyMachine ε) (depth : ℕ)
    (other : ListReader) : CopyM ε Unit := do
  Prog.assert (self.elementSize.upgradeTo other.elementSize = some self.elementSize)
  Prog.assert (other.elementCount.get ≤ self.elementCount.get)
  CopyMachine.copyToUpgradedList (machine.copyPtr depth) other.ptr other.reader other.elementSize
    self.ptr self.builder self.elementSize self.elementCount

/-- `ListBuilder::try_copy_ranges`. -/
def tryCopyRanges {ε : Type} (self : ListBuilder) (machine : CopyMachine ε) (depth : ℕ)
    (selfStart : ElementCount) (other : ListReader) (otherStart len : ElementCount) :
    CopyM ε Unit := do
  Prog.assert (self.elementSize.upgradeTo other.elementSize = some self.elementSize)
  if len = U29.zero then pure ()
  else do
    Prog.assert (selfStart.get + len.get ≤ self.elementCount.get)
    Prog.assert (otherStart.get + len.get ≤ other.elementCount.get)
    CopyMachine.copyToUpgradedListAt (machine.copyPtr depth) other.ptr other.reader
      other.elementSize otherStart self.ptr self.builder self.elementSize selfStart len

/-- `ListBuilder::try_copy_with_caveats`. -/
def tryCopyWithCaveats {ε : Type} (self : ListBuilder) (machine : CopyMachine ε) (depth : ℕ)
    (other : ListReader) : CopyM ε Unit := do
  Prog.assert (self.elementCount = other.elementCount)
  if other.elementSize = self.elementSize then
    CopyMachine.copyList (machine.copyPtr depth) other.ptr other.reader self.ptr self.builder
      self.elementSize self.elementCount
  else
    match other.elementSize, self.elementSize with
    | .inlineComposite src, .inlineComposite dst =>
      CopyMachine.copyInlineComposites (machine.copyPtr depth) other.ptr src other.reader self.ptr
        dst self.builder self.elementCount
    | _, _ => Prog.halt .panic

end ListBuilder

/-! ## Setting pointers to copies -/

namespace StructReader

/-- `StructReader::size`. -/
def size (self : StructReader) : StructSize where
  data := roundUpByteCount self.dataLen % 2 ^ 16
  ptrs := self.ptrsLen % 2 ^ 16
  data_lt := Nat.mod_lt _ (by decide)
  ptrs_lt := Nat.mod_lt _ (by decide)

/-- The data part of `StructReader::canonical_size`: the bytes that are left. -/
def canonicalDataLen {ε σ : Type} (self : StructReader) : Prog ε σ ℕ :=
  if self.dataLen < 8 then do
    let words ← self.reader.sectionSlice self.dataStart (roundUpByteCount self.dataLen)
    pure (if ((words 0).bytes.take self.dataLen).all (· == 0) then 0 else self.dataLen)
  else do
    let words ← self.reader.sectionSlice self.dataStart (self.dataLen / 8)
    pure (8 * trimEndNullWords words (self.dataLen / 8))

/-- `StructReader::canonical_size`. -/
def canonicalSize {ε σ : Type} (self : StructReader) : Prog ε σ StructSize := do
  let dataLen ← self.canonicalDataLen
  let ptrs ← self.reader.sectionSlice self.ptrsStart self.ptrsLen
  pure
    { data := roundUpByteCount dataLen % 2 ^ 16
      ptrs := trimEndNullWords ptrs self.ptrsLen % 2 ^ 16
      data_lt := Nat.mod_lt _ (by decide)
      ptrs_lt := Nat.mod_lt _ (by decide) }

end StructReader

/-- `ListReader::canonical_element_size`. -/
def ListReader.canonicalElementSize {ε σ : Type} (self : ListReader) : Prog ε σ ElementSize :=
  match self.elementSize with
  | .inlineComposite size => do
    let size ← calculateCanonicalInlineCompositeSize self.reader self.ptr size self.elementCount
    pure (.inlineComposite size)
  | other => pure other

/-- `CopySize`. -/
inductive CopySize (α : Type) where
  | fromValue
  | canonical
  | minimum (size : α)
deriving DecidableEq, Repr

namespace CopySize

/-- `CopySize::is_canonical`. -/
def isCanonical {α : Type} : CopySize α → Bool
  | canonical => true
  | _ => false

/-- `CopySize::<StructSize>::builder_size`. -/
def builderSize {ε σ : Type} (value : StructReader) : CopySize StructSize → Prog ε σ StructSize
  | canonical => value.canonicalSize
  | fromValue => pure value.size
  | minimum size => pure (value.size.max size)

/-- `CopySize::<ElementSize>::builder_size`. -/
def listBuilderSize {ε σ : Type} (value : ListReader) :
    CopySize ElementSize → Prog ε σ (Except Error ElementSize)
  | canonical => do
    let size ← value.canonicalElementSize
    pure (.ok size)
  | fromValue => pure (.ok value.elementSize)
  | minimum size =>
    match value.elementSize.upgradeTo size with
    | some upgrade => pure (.ok upgrade)
    | none => pure (.error (failUpgrade value.elementSize.asPtrSize size.asPtrSize))

end CopySize

namespace PtrBuilder

variable {ε : Type} (self : PtrBuilder) (clearCap : List ℕ → ℕ → Except Error Unit)
  (machine : CopyMachine ε) (clearDepth depth : ℕ)

/-- `PtrBuilder::try_set_struct`. -/
def trySetStruct (value : StructReader) (size : CopySize StructSize) : CopyM ε Unit := do
  let dstSize ← size.builderSize value
  CopyMachine.writing (self.clear clearCap clearDepth)
  let alloc ← CopyMachine.building (self.builder.allocStruct self.ptr dstSize)
  match alloc with
  | .ok (start, builder) =>
    StructBuilder.tryCopyWithCaveats
      ⟨builder, start, start.offset dstSize.data, dstSize.data * 8, dstSize.ptrs⟩
      { machine with canonical := size.isCanonical } depth value
  | .error err => machine.handleErr err

/-- `PtrBuilder::try_set_list`. -/
def trySetList (value : ListReader) (size : CopySize ElementSize) : CopyM ε Unit := do
  CopyMachine.writing (self.clear clearCap clearDepth)
  let builderSize ← size.listBuilderSize value
  match builderSize with
  | .error err => machine.handleErr err
  | .ok dstSize => do
    let alloc ← CopyMachine.building (self.builder.allocList self.ptr dstSize value.elementCount)
    match alloc with
    | .error err => machine.handleErr err
    | .ok (start, totalWords, builder) =>
      if totalWords.get = 0 then pure ()
      else
        CopyMachine.copyToUpgradedList (({ machine with canonical := size.isCanonical }).copyPtr depth)
          value.ptr value.reader value.elementSize start builder dstSize value.elementCount

end PtrBuilder

end Recapn.Ptr

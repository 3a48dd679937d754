/-
# Reading objects

An arena hands out segments by their ids.  An object reader stands in one of them and follows
pointers: near pointers inside of the segment, far pointers over a landing pad in any segment,
and double-far pointers over two words of a landing pad.  Every object and every landing pad
that is read is checked against the bounds of its segment and charged to the read limiter, which
all readers of a message share: it is the state of the programs here, `none` without a limiter.

Positions are counted in words from the start of the segment.  Addresses have 64 bits, so that
pointer arithmetic near a segment does not wrap around.
-/
import Recapn.Lib.Prog
import Recapn.Ptr.Wire

namespace Recapn.Ptr

open Recapn.Lib

/-! ## Errors -/

/-- `ExpectedRead`. -/
inductive ExpectedRead where
  | struct
  | list
  | far
  | capability
deriving DecidableEq, Repr

/-- `ActualRead`. -/
inductive ActualRead where
  | null
  | struct
  | list
  | far
  | other
deriving DecidableEq, Repr

/-- `FailedRead`. -/
structure FailedRead where
  expected : Option ExpectedRead
  actual : ActualRead
deriving DecidableEq, Repr

/-- `IncompatibleUpgrade`. -/
structure IncompatibleUpgrade where
  source : PtrElementSize
  target : PtrElementSize
deriving DecidableEq, Repr

/-- `Error`. -/
inductive Error where
  | nestingLimitExceeded
  | pointerOutOfBounds
  | readLimitExceeded
  | inlineCompositeOverrun
  | unsupportedInlineCompositeElementTag
  | unexpectedRead (read : FailedRead)
  | incompatibleUpgrade (upgrade : IncompatibleUpgrade)
  | capabilityNotAllowed
  | invalidCapabilityPointer (index : ℕ)
  | textNotNulTerminated
  | missingSegment (segment : SegmentId)
  | writingNotAllowed
  | allocTooLarge
  | allocFailed (size : ℕ)
  | orphanFromDifferentMessage
deriving DecidableEq, Repr

/-- `WirePtr::fail_read`. -/
def WirePtr.failRead (ptr : WirePtr) (expected : Option ExpectedRead) : Error :=
  .unexpectedRead ⟨expected,
    if ptr.isNull then .null
    else
      match ptr.kind with
      | .struct => .struct
      | .far => .far
      | .other => .other
      | .list => .list⟩

/-- `fail_upgrade`. -/
def failUpgrade (source target : PtrElementSize) : Error := .incompatibleUpgrade ⟨source, target⟩

/-! ## The read limiter -/

/-- `ReadLimiter::try_read`: whether the read is within the limit, and the limit after it. -/
def ReadLimiter.tryRead (limit words : ℕ) : Bool × ℕ :=
  if words ≤ limit then (true, limit - words) else (false, limit)

/-- What is left of the read limit, if there is one. -/
abbrev Limiter := Option ℕ

/-- Programs that read: they charge the limiter and may fail. -/
abbrev ReadM := Prog Error Limiter

/-- `ObjectReader::try_amplified_read`. -/
def tryAmplifiedRead (words : ℕ) : ReadM Bool := fun limiter =>
  match limiter with
  | none => .ok true none
  | some limit =>
    let (read, limit) := ReadLimiter.tryRead limit words
    .ok read (some limit)

/-- Charge the limiter, or fail. -/
def limitRead (words : ℕ) : ReadM Unit := do
  let read ← tryAmplifiedRead words
  if read then pure () else Prog.throw .readLimitExceeded

/-! ## Segments -/

/-- `Segment`: the words of a segment, and how many there are. -/
structure Segment where
  data : ℕ → Word
  len : SegmentLen

/-- `ReadArena`, by its `segment`. -/
abbrev ReadArena := SegmentId → Option Segment

/-- `SegmentReader`. -/
structure SegmentReader where
  arena : ReadArena
  id : SegmentId
  segment : Segment

namespace SegmentReader

/-- `SegmentReader::from_source`. -/
def fromSource (arena : ReadArena) (id : SegmentId) : Option SegmentReader :=
  (arena id).map fun segment => ⟨arena, id, segment⟩

/-- `SegmentReader::try_get_section`. -/
def tryGetSection (reader : SegmentReader) (start : ℤ) (len : ObjectLen) : Option ℕ :=
  let stop := start + len.get
  if stop < start then none
  else if start < 0 then none
  else if (reader.segment.len.get : ℤ) < stop then none
  else some start.toNat

/-- `SegmentReader::try_get_section_offset`. -/
def tryGetSectionOffset (reader : SegmentReader) (offset : SegmentOffset) (len : ObjectLen) :
    Option ℕ :=
  reader.tryGetSection offset.get len

/-- `SegmentReader::segment`. -/
def segmentOf (reader : SegmentReader) (id : SegmentId) : Option SegmentReader :=
  fromSource reader.arena id

/-- A section that was found lies in the segment. -/
lemma tryGetSection_eq_some {reader : SegmentReader} {start : ℤ} {len : ObjectLen} {pos : ℕ} :
    reader.tryGetSection start len = some pos ↔
      start = pos ∧ pos + len.get ≤ reader.segment.len.get := by
  unfold tryGetSection
  constructor
  · intro h
    simp only at h
    split at h
    · cases h
    · split at h
      · cases h
      · split at h
        · cases h
        · next hneg hlen =>
          rw [Option.some.injEq] at h
          omega
  · rintro ⟨rfl, hlen⟩
    simp only
    rw [if_neg (by omega), if_neg (by omega), if_neg (by omega), Int.toNat_natCast]

end SegmentReader

/-! ## Object readers -/

/-- Where an object reader reads: in a segment of an arena, or, for pointers whose maker vouches
for them, in memory without bounds. -/
inductive Source where
  | checked (reader : SegmentReader)
  | unchecked (memory : ℕ → Word)

/-- `ObjectReader`.  Its limiter is the state of the programs. -/
structure ObjectReader where
  source : Source

/-- `Location`: where the content of a pointer is. -/
inductive Location where
  | near (origin : ℕ)
  | far (origin : ℕ)
  | doubleFar (segment : SegmentId) (offset : SegmentOffset)
deriving DecidableEq, Repr

/-- `Content`. -/
structure Content where
  ptr : WirePtr
  location : Location
deriving DecidableEq, Repr

/-- `StructContent`. -/
structure StructContent where
  ptr : ℕ
  size : StructSize
deriving DecidableEq, Repr

/-- `StructContent::ptrs_start`. -/
def StructContent.ptrsStart (content : StructContent) : ℕ := content.ptr + content.size.data

/-- `ListContent`. -/
structure ListContent where
  ptr : ℕ
  elementSize : ElementSize
  elementCount : ElementCount
deriving DecidableEq, Repr

/-- `TypedContent`. -/
inductive TypedContent where
  | struct (content : StructContent)
  | list (content : ListContent)
  | capability (index : ℕ)
deriving DecidableEq, Repr

namespace ObjectReader

/-- A reader in a segment of an arena. -/
def inSegment (arena : ReadArena) (id : SegmentId) (segment : Segment) : ObjectReader :=
  ⟨.checked ⟨arena, id, segment⟩⟩

/-- The segment reader, if there is one. -/
def segment (reader : ObjectReader) : Option SegmentReader :=
  match reader.source with
  | .checked segment => some segment
  | .unchecked _ => none

/-- The word at a position. -/
def word (reader : ObjectReader) (pos : ℕ) : Word :=
  match reader.source with
  | .checked segment => segment.segment.data pos
  | .unchecked memory => memory pos

/-- `ObjectReader::try_read_object_in`: the reader in the other segment, and the position. -/
def tryReadObjectIn (self : ObjectReader) (segment : SegmentId) (offset : SegmentOffset)
    (len : ObjectLen) : ReadM (ObjectReader × ℕ) := do
  let reader ← Prog.okOr (.missingSegment segment) (self.segment.bind (·.segmentOf segment))
  let ptr ← Prog.okOr .pointerOutOfBounds (reader.tryGetSectionOffset offset len)
  limitRead len.get
  pure (⟨.checked reader⟩, ptr)

/-- `ObjectReader::try_read_object_from_end_of`.  An unchecked pointer is taken as it is: whoever
made it vouches that it does not leave its memory. -/
def tryReadObjectFromEndOf (self : ObjectReader) (ptr : ℕ) (offset : SignedSegmentOffset)
    (len : ObjectLen) : ReadM ℕ := do
  let start : ℤ := ptr + 1 + offset.get
  let newPtr ← match self.source with
    | .checked segment => Prog.okOr .pointerOutOfBounds (segment.tryGetSection start len)
    | .unchecked _ => pure start.toNat
  limitRead len.get
  pure newPtr

/-- `WirePtr::try_far_ptr`. -/
def tryFarPtr (ptr : WirePtr) : ReadM WirePtr :=
  if ptr.kind = .far then pure ptr else Prog.throw (ptr.failRead (some .far))

/-- `WirePtr::try_struct_ptr`. -/
def tryStructPtr (ptr : WirePtr) : ReadM WirePtr :=
  if ptr.kind = .struct then pure ptr else Prog.throw (ptr.failRead (some .struct))

/-- `WirePtr::try_list_ptr`. -/
def tryListPtr (ptr : WirePtr) : ReadM WirePtr :=
  if ptr.kind = .list then pure ptr else Prog.throw (ptr.failRead (some .list))

/-- `WirePtr::try_cap_ptr`. -/
def tryCapPtr (ptr : WirePtr) : ReadM WirePtr :=
  if ptr.isCapability then pure ptr else Prog.throw (ptr.failRead (some .capability))

/-- `ObjectReader::location_of`. -/
def locationOf (self : ObjectReader) (src : ℕ) : ReadM (ObjectReader × Content) := do
  let ptr : WirePtr := self.word src
  if ptr.kind = .far then
    let doubleFar := FarPtr.doubleFar ptr
    let landingPadSize : ObjectLen :=
      if doubleFar then ⟨2, U29.two_lt⟩ else ⟨1, U29.one_lt⟩
    let (self, pad) ← self.tryReadObjectIn (FarPtr.segment ptr) (FarPtr.offset ptr) landingPadSize
    let padPtr : WirePtr := self.word pad
    if doubleFar then
      -- the pad is another far pointer, and the word behind it describes the object
      let tag : WirePtr := self.word (pad + 1)
      let farPtr ← tryFarPtr padPtr
      pure (self, ⟨tag, .doubleFar (FarPtr.segment farPtr) (FarPtr.offset farPtr)⟩)
    else
      pure (self, ⟨padPtr, .far pad⟩)
  else
    pure (self, ⟨ptr, .near src⟩)

/-- Read an object of the given length at a location. -/
def readAtLocation (self : ObjectReader) (location : Location) (offset : SignedSegmentOffset)
    (len : ObjectLen) : ReadM (ObjectReader × ℕ) :=
  match location with
  | .near origin | .far origin => do
    let ptr ← self.tryReadObjectFromEndOf origin offset len
    pure (self, ptr)
  | .doubleFar segment offset => self.tryReadObjectIn segment offset len

/-- `ObjectReader::read_as_struct_content`. -/
def readAsStructContent (self : ObjectReader) (location : Location) (structPtr : WirePtr) :
    ReadM (ObjectReader × StructContent) := do
  let size := StructPtr.size structPtr
  let (self, ptr) ← self.readAtLocation location (StructPtr.offset structPtr) size.len
  pure (self, ⟨ptr, size⟩)

/-- The check of a list's element size against the expected one. -/
def checkUpgrade (ptrElement : PtrElementSize) (elementSize : ElementSize) :
    Option PtrElementSize → ReadM Unit
  | some expected =>
    if elementSize.upgradableTo expected then pure ()
    else Prog.throw (failUpgrade ptrElement expected)
  | none => pure ()

/-- `ObjectReader::read_as_list_content`. -/
def readAsListContent (self : ObjectReader) (location : Location) (listPtr : WirePtr)
    (expectedElementSize : Option PtrElementSize) : ReadM (ObjectReader × ListContent) := do
  let ptrElement := ListPtr.elementSize listPtr
  if ptrElement = .inlineComposite then
    let wordCount := (ListPtr.elementCount listPtr).get
    -- one more for the tag
    let len ← Prog.okOr .pointerOutOfBounds (U29.new (wordCount + 1))
    let (self, tagPtr) ← self.readAtLocation location (ListPtr.offset listPtr) len
    let tag : WirePtr := self.word tagPtr
    if tag.kind = .struct then
      let first := tagPtr + 1
      let elementCount := StructPtr.inlineCompositeElementCount tag
      let structSize := StructPtr.size tag
      checkUpgrade ptrElement (.inlineComposite structSize) expectedElementSize
      let wordsPerElement := structSize.total
      if wordCount < elementCount.get * wordsPerElement then
        Prog.throw .inlineCompositeOverrun
      else
        -- empty structs can claim to be any number
        (if wordsPerElement = 0 then limitRead elementCount.get else pure ())
        pure (self, ⟨first, .inlineComposite structSize, elementCount⟩)
    else
      Prog.throw .unsupportedInlineCompositeElementTag
  else
    let elementSize := ptrElement.toElementSize
    checkUpgrade ptrElement elementSize expectedElementSize
    let elementCount := ListPtr.elementCount listPtr
    (if elementSize = .void then limitRead elementCount.get else pure ())
    let wordCount := roundUpBitCount (elementCount.get * elementSize.bits)
    let len ← Prog.unwrap (U29.new wordCount)
    let (self, ptr) ← self.readAtLocation location (ListPtr.offset listPtr) len
    pure (self, ⟨ptr, elementSize, elementCount⟩)

/-- `ObjectReader::try_read_typed`. -/
def tryReadTyped (self : ObjectReader) (ptr : ℕ) : ReadM (ObjectReader × TypedContent) := do
  let (self, content) ← self.locationOf ptr
  match content.ptr.kind with
  | .struct => do
    let (self, content) ← self.readAsStructContent content.location content.ptr
    pure (self, .struct content)
  | .list => do
    let (self, content) ← self.readAsListContent content.location content.ptr none
    pure (self, .list content)
  | .other => do
    let cap ← tryCapPtr content.ptr
    pure (self, .capability (CapabilityPtr.capabilityIndex cap))
  | .far => Prog.throw (content.ptr.failRead none)

/-- `ObjectReader::try_read_struct`. -/
def tryReadStruct (self : ObjectReader) (ptr : ℕ) : ReadM (ObjectReader × StructContent) := do
  let (self, content) ← self.locationOf ptr
  let ptr ← tryStructPtr content.ptr
  self.readAsStructContent content.location ptr

/-- `ObjectReader::try_read_list`. -/
def tryReadList (self : ObjectReader) (ptr : ℕ) (expectedElementSize : Option PtrElementSize) :
    ReadM (ObjectReader × ListContent) := do
  let (self, content) ← self.locationOf ptr
  let ptr ← tryListPtr content.ptr
  self.readAsListContent content.location ptr expectedElementSize

end ObjectReader

end Recapn.Ptr

/-
# Pointer, struct and list readers

What a user of a message holds: a pointer reader, and the readers of structs, lists and blobs
that it gives out.  A null pointer gives out nothing, and neither does a pointer beyond the
nesting limit.
-/
import Recapn.Ptr.Reader

namespace Recapn.Ptr

open Recapn.Lib

/-- `PtrReader`. -/
structure PtrReader where
  ptr : ℕ
  reader : ObjectReader
  nestingLimit : ℕ

/-- `StructReader`. -/
structure StructReader where
  dataStart : ℕ
  ptrsStart : ℕ
  reader : ObjectReader
  nestingLimit : ℕ
  /-- In bytes. -/
  dataLen : ℕ
  ptrsLen : ℕ

/-- `ListReader`. -/
structure ListReader where
  ptr : ℕ
  reader : ObjectReader
  elementCount : ElementCount
  nestingLimit : ℕ
  elementSize : ElementSize

/-- `BlobReader`. -/
structure BlobReader where
  ptr : ℕ
  elementCount : ElementCount

/-- `PtrType`. -/
inductive PtrType where
  | null
  | struct
  | list
  | capability
deriving DecidableEq, Repr

namespace PtrReader

/-- `PtrReader::ptr`. -/
def wirePtr (self : PtrReader) : WirePtr := self.reader.word self.ptr

/-- `PtrReader::is_null`. -/
def isNull (self : PtrReader) : Bool := self.wirePtr.isNull

/-- `PtrReader::ptr_type`. -/
def ptrType (self : PtrReader) : ReadM PtrType :=
  if self.isNull then pure .null
  else do
    let (_, content) ← self.reader.locationOf self.ptr
    if content.ptr.kind = .struct then pure .struct
    else if content.ptr.kind = .list then pure .list
    else if content.ptr.isCapability then pure .capability
    else Prog.throw (content.ptr.failRead none)

/-- `PtrReader::to_struct`. -/
def toStruct (self : PtrReader) : ReadM (Option StructReader) :=
  if self.isNull then pure none
  else do
    let nestingLimit ← Prog.okOr .nestingLimitExceeded (checkedSub self.nestingLimit 1)
    let (reader, content) ← self.reader.tryReadStruct self.ptr
    pure (some ⟨content.ptr, content.ptrsStart, reader, nestingLimit, content.size.data * 8,
      content.size.ptrs⟩)

/-- `PtrReader::to_list`. -/
def toList (self : PtrReader) (expectedElementSize : Option PtrElementSize) :
    ReadM (Option ListReader) :=
  if self.isNull then pure none
  else do
    let nestingLimit ← Prog.okOr .nestingLimitExceeded (checkedSub self.nestingLimit 1)
    let (reader, content) ← self.reader.tryReadList self.ptr expectedElementSize
    pure (some ⟨content.ptr, reader, content.elementCount, nestingLimit, content.elementSize⟩)

/-- `PtrReader::to_blob_inner`. -/
def toBlobInner (self : PtrReader) : ReadM BlobReader := do
  let (reader, content) ← self.reader.locationOf self.ptr
  let listPtr ← ObjectReader.tryListPtr content.ptr
  let elementSize := ListPtr.elementSize listPtr
  if elementSize = .byte then
    let elementCount := ListPtr.elementCount listPtr
    let len ← Prog.unwrap (U29.new (roundUpByteCount elementCount.get))
    let (_, ptr) ← reader.readAtLocation content.location (ListPtr.offset listPtr) len
    pure ⟨ptr, elementCount⟩
  else
    Prog.throw (failUpgrade elementSize .byte)

/-- `PtrReader::to_blob`. -/
def toBlob (self : PtrReader) : ReadM (Option BlobReader) :=
  if self.isNull then pure none
  else do
    let blob ← self.toBlobInner
    pure (some blob)

end PtrReader

end Recapn.Ptr

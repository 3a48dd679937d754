/-
# Promotions

A builder of a struct or of a list of structs may expect more of it than there is.  Then a larger
object is allocated, what there is moves over, and the old object is cleared.  Data is copied.  A
pointer is relative to its own place, so it is made anew: near, over a landing pad in the segment
of its object, or over a double-far one.  Far pointers and capabilities are taken as they are.
-/
import Recapn.Ptr.Fields

namespace Recapn.Ptr

open Recapn.Lib

/-- `StructSize::fits_inside`. -/
def StructSize.fitsInside (self outer : StructSize) : Bool :=
  decide (self.data ≤ outer.data) && decide (self.ptrs ≤ outer.ptrs)

/-- `StructContent`, with the place that the builder knows. -/
structure BuildStructContent where
  ptr : SegmentRef
  size : StructSize

/-- `ListContent`, with the place that the builder knows. -/
structure BuildListContent where
  ptr : SegmentRef
  elementSize : ElementSize
  elementCount : ElementCount

/-! ## Objects that are built already -/

namespace ObjectBuilder

/-- The part of `ObjectBuilder::build_struct` and `ObjectBuilder::build_list` that finds the
object. -/
def buildForWriting (self : ObjectBuilder) (location : BuildLocation)
    (offset : SignedSegmentOffset) : BuildM (SegmentRef × ObjectBuilder) :=
  match location with
  | .near origin | .far origin => self.buildObjectFromEndOf origin offset
  | .doubleFar segment start => do
    let object ← self.buildObjectIn segment start
    Prog.okOr .writingNotAllowed object

/-- `ObjectBuilder::build_struct`. -/
def buildStruct (self : ObjectBuilder) (origin : SegmentRef) :
    BuildM (BuildStructContent × ObjectBuilder) := do
  let (content, builder) ← self.locate origin
  if content.ptr.kind = .struct then do
    let (start, builder) ← builder.buildForWriting content.location (StructPtr.offset content.ptr)
    pure (⟨start, StructPtr.size content.ptr⟩, builder)
  else Prog.throw (content.ptr.failRead (some .struct))

/-- `ObjectBuilder::build_list`. -/
def buildList (self : ObjectBuilder) (origin : SegmentRef) :
    BuildM (BuildListContent × ObjectBuilder) := do
  let (content, builder) ← self.locate origin
  if content.ptr.kind = .list then do
    let (start, builder) ← builder.buildForWriting content.location (ListPtr.offset content.ptr)
    let elementSize := ListPtr.elementSize content.ptr
    if elementSize = .inlineComposite then do
      let tag : WirePtr ← Arena.read start
      Prog.assert (tag.kind = .struct)
      pure (⟨start.offset 1, .inlineComposite (StructPtr.size tag),
        StructPtr.inlineCompositeElementCount tag⟩, builder)
    else pure (⟨start, elementSize.toElementSize, ListPtr.elementCount content.ptr⟩, builder)
  else Prog.throw (content.ptr.failRead (some .list))

/-- `ObjectBuilder::section_slice_mut`, for what is read from it. -/
def sectionSliceMut (_ : ObjectBuilder) (start : SegmentRef) (len : ℕ) : BuildM (ℕ → Word) :=
  fun arena =>
    if start.pos + len ≤ arena.len start.segment then .ok (fun k => arena.word (start.offset k)) arena
    else .halt .undefined

end ObjectBuilder

/-! ## Moving pointers -/

/-- The part of `transfer_ptr` that makes a pointer to `srcContent`, which `ptr` describes. -/
def transferContent (ptr : WirePtr) (srcContent : SegmentRef) (srcBuilder : ObjectBuilder)
    (dst : SegmentRef) (dstBuilder : ObjectBuilder) : BuildM WirePtr := do
  let srcSegment ← srcBuilder.id
  let dstSegment ← dstBuilder.id
  if srcSegment = dstSegment then do
    let newOffset ← dstBuilder.offsetFromEndOf dst srcContent
    pure (setContentOffset ptr newOffset)
  else do
    let newContentPtr ← srcBuilder.allocInSegment AllocLen.one
    match newContentPtr with
    | some newContentPtr => do
      let newOffset ← srcBuilder.offsetFromEndOf newContentPtr srcContent
      srcBuilder.setPtr newContentPtr (setContentOffset ptr newOffset)
      let farOffset ← srcBuilder.offsetFromStart newContentPtr
      pure (FarPtr.new srcSegment farOffset false)
    | none => do
      let alloc ← dstBuilder.allocDoubleFarLandingPad
      let (newDoubleFar, tag, doubleFarBuilder) ← Prog.okOr (.allocFailed landingPadLen.get) alloc
      let doubleFarSegment ← doubleFarBuilder.id
      let doubleFarOffset ← doubleFarBuilder.offsetFromStart newDoubleFar
      let contentOffset ← srcBuilder.offsetFromStart srcContent
      doubleFarBuilder.setPtr newDoubleFar (FarPtr.new srcSegment contentOffset false)
      doubleFarBuilder.setPtr tag (setContentOffset ptr I30.zero)
      pure (FarPtr.new doubleFarSegment doubleFarOffset true)

/-- `transfer_ptr`. -/
def transferPtr (src : SegmentRef) (srcBuilder : ObjectBuilder) (dst : SegmentRef)
    (dstBuilder : ObjectBuilder) : BuildM Unit := do
  let ptr : WirePtr ← Arena.read src
  if ptr.isNull then pure ()
  else do
    let newPtr ←
      match ptr.kind with
      | .struct | .list => do
        let (srcContent, _) ← srcBuilder.buildObjectFromEndOf src (contentOffset ptr)
        transferContent ptr srcContent srcBuilder dst dstBuilder
      | .far | .other => pure ptr
    dstBuilder.setPtr dst newPtr

/-- `transfer_ptr_section`. -/
def transferPtrSection (src : SegmentRef) (srcBuilder : ObjectBuilder) (dst : SegmentRef)
    (dstBuilder : ObjectBuilder) (len : ℕ) : BuildM Unit :=
  Prog.forRange len fun k => transferPtr (src.offset k) srcBuilder (dst.offset k) dstBuilder

/-! ## Moving structs and lists -/

/-- `promote_struct`. -/
def promoteStruct (src : SegmentRef) (srcSize : StructSize) (srcBuilder : ObjectBuilder)
    (dstData dstPtrs : SegmentRef) (dstBuilder : ObjectBuilder) : BuildM Unit := do
  let srcData ← srcBuilder.sectionSliceMut src srcSize.data
  Arena.writeSection dstData srcSize.data srcData
  transferPtrSection (src.offset srcSize.data) srcBuilder dstPtrs dstBuilder srcSize.ptrs

/-- `copy_data!` of `promote_list`, for elements of so many bytes. -/
def promoteData (bytes : ℕ) (src : SegmentRef) (srcSize : ElementSize) (srcBuilder : ObjectBuilder)
    (dst : SegmentRef) (dstSize : StructSize) (len : ElementCount) : BuildM Unit := do
  let totalSize ← Prog.unwrap (U29.new (srcSize.totalWords len.get))
  let srcWords ← srcBuilder.sectionSliceMut src totalSize.get
  Prog.forRange len.get fun k => do
    let place := dst.offset (dstSize.total * k)
    let word ← Arena.read place
    Arena.writeSection place 1 fun _ => word.setBytes 0 (CopyMachine.elementBytes srcWords bytes k)

/-- `promote_list`. -/
def promoteList (src : SegmentRef) (srcSize : ElementSize) (srcBuilder : ObjectBuilder)
    (dst : SegmentRef) (dstSize : StructSize) (dstBuilder : ObjectBuilder) (len : ElementCount) :
    BuildM Unit := do
  stepByUnchecked dstSize.total len.get
  match srcSize with
  | .void | .bit => pure ()
  | .byte => promoteData 1 src srcSize srcBuilder dst dstSize len
  | .twoBytes => promoteData 2 src srcSize srcBuilder dst dstSize len
  | .fourBytes => promoteData 4 src srcSize srcBuilder dst dstSize len
  | .eightBytes => promoteData 8 src srcSize srcBuilder dst dstSize len
  -- the pointers go to words one after the other, and not to one of each struct
  | .pointer => transferPtrSection src srcBuilder dst dstBuilder len.get
  | .inlineComposite srcSize => do
    stepByUnchecked srcSize.total len.get
    Prog.forRange len.get fun k =>
      promoteStruct (src.offset (srcSize.total * k)) srcSize srcBuilder
        (dst.offset (dstSize.total * k)) (dst.offset (dstSize.total * k + dstSize.data)) dstBuilder

/-! ## Builders of objects -/

namespace PtrBuilder

/-- `PtrBuilder::to_struct_mut_inner`. -/
def toStructMutInner (self : PtrBuilder) (expectedSize : Option StructSize) :
    BuildM StructBuilder := do
  let (existingStruct, existingBuilder) ← self.builder.buildStruct self.ptr
  let existingSize := existingStruct.size
  let neededSize :=
    (expectedSize.filter fun e => !e.fitsInside existingSize).map fun e => e.max existingSize
  match neededSize with
  | none =>
    pure ⟨existingBuilder, existingStruct.ptr, existingStruct.ptr.offset existingSize.data,
      existingSize.data * 8, existingSize.ptrs⟩
  | some promotionSize => do
    self.builder.clearPtrs self.ptr
    let (newStart, newBuilder) ← self.builder.allocStruct self.ptr promotionSize
    let newPtrsStart := newStart.offset promotionSize.data
    promoteStruct existingStruct.ptr existingSize existingBuilder newStart newPtrsStart newBuilder
    existingBuilder.clearSection existingStruct.ptr existingSize.total
    pure ⟨newBuilder, newStart, newPtrsStart, promotionSize.data * 8, promotionSize.ptrs⟩

/-- `PtrBuilder::to_struct_mut`.  A null pointer is no error of its own. -/
def toStructMut (self : PtrBuilder) (expectedSize : Option StructSize) :
    BuildM (Option StructBuilder) := do
  let word ← Arena.read self.ptr
  if word.isNull then pure none
  else do
    let builder ← self.toStructMutInner expectedSize
    pure (some builder)

/-- The size of the structs that `PtrBuilder::to_list_mut_inner` upgrades a list to, if it has
to. -/
def upgradeSize (existingSize : ElementSize) :
    Option ElementSize → BuildM (Option StructSize)
  | none => pure none
  | some expected =>
    match existingSize.upgradeTo expected with
    | some upgrade =>
      if upgrade = existingSize then pure none
      else
        match upgrade with
        | .inlineComposite size => pure (some size)
        | _ => Prog.halt .panic
    | none => Prog.throw (failUpgrade existingSize.asPtrSize expected.asPtrSize)

/-- `PtrBuilder::to_list_mut_inner`. -/
def toListMutInner (self : PtrBuilder) (expectedElementSize : Option ElementSize) :
    BuildM ListBuilder := do
  let (existingList, builder) ← self.builder.buildList self.ptr
  let len := existingList.elementCount
  let upgradeSize ← upgradeSize existingList.elementSize expectedElementSize
  match upgradeSize with
  | none => pure ⟨builder, existingList.ptr, existingList.elementSize, len⟩
  | some upgradeSize => do
    self.builder.clearPtrs self.ptr
    let (newListPtr, _, newBuilder) ←
      self.builder.allocList self.ptr (.inlineComposite upgradeSize) len
    promoteList existingList.ptr existingList.elementSize builder newListPtr upgradeSize newBuilder
      len
    builder.clearListSection existingList.ptr existingList.elementSize len
    pure ⟨newBuilder, newListPtr, .inlineComposite upgradeSize, len⟩

/-- `PtrBuilder::to_list_mut`.  A null pointer is no error of its own. -/
def toListMut (self : PtrBuilder) (expectedElementSize : Option ElementSize) :
    BuildM (Option ListBuilder) := do
  let word ← Arena.read self.ptr
  if word.isNull then pure none
  else do
    let builder ← self.toListMutInner expectedElementSize
    pure (some builder)

end PtrBuilder

end Recapn.Ptr

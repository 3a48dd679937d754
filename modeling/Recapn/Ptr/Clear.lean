/-
# Clearing pointers

A pointer is cleared together with everything below it: landing pads, the pointers in structs
and lists, and the words of the objects are overwritten with null.  The recursion takes its depth
as an argument.  Capabilities are handed back to the table of the builder, which may refuse.
-/
import Recapn.Ptr.Builder

namespace Recapn.Ptr

open Recapn.Lib

/-- What an `ErrorHandler` does with an error, after the ones it was given before: go on, or
break. -/
abbrev ErrorHandler (ε : Type) : Type := List Error → Error → Option ε

/-- `IgnoreErrors`. -/
def ignoreErrors : ErrorHandler Empty := fun _ _ => none

/-- `ReturnErrors`. -/
def returnErrors : ErrorHandler Error := fun _ err => some err

/-! ## Following pointers of a builder -/

/-- `Location`, with the places that the builder knows. -/
inductive BuildLocation where
  | near (origin : SegmentRef)
  | far (origin : SegmentRef)
  | doubleFar (segment : SegmentId) (offset : SegmentOffset)
deriving DecidableEq, Repr

/-- `Content`, with the places that the builder knows. -/
structure BuildContent where
  ptr : WirePtr
  location : BuildLocation
deriving DecidableEq, Repr

namespace ObjectBuilder

/-- `ObjectBuilder::build_segment`. -/
def buildSegment (_ : ObjectBuilder) (segment : SegmentId) : BuildM (Option ObjectBuilder) :=
  fun arena => .ok ((arena.segments[segment]?).map fun _ => ⟨segment⟩) arena

/-- `ObjectBuilder::build_object_in`. -/
def buildObjectIn (self : ObjectBuilder) (segment : SegmentId) (offset : SegmentOffset) :
    BuildM (Option (SegmentRef × ObjectBuilder)) := do
  let builder ← self.buildSegment segment
  pure (builder.map fun builder => (builder.start.offset offset.get, builder))

/-- `ObjectBuilder::build_object_from_end_of`.  An address in front of its segment does not exist. -/
def buildObjectFromEndOf (self : ObjectBuilder) (ptr : SegmentRef) (offset : SignedSegmentOffset) :
    BuildM (SegmentRef × ObjectBuilder) := do
  Prog.require (0 ≤ (ptr.pos : ℤ) + 1 + offset.get)
  pure (⟨ptr.segment, ((ptr.pos : ℤ) + 1 + offset.get).toNat⟩, self)

/-- `ObjectBuilder::locate_ptr`. -/
def locatePtr (self : ObjectBuilder) (place : SegmentRef) (ptr : WirePtr) :
    BuildM (BuildContent × ObjectBuilder) :=
  if ptr.kind = .far then do
    let object ← self.buildObjectIn (FarPtr.segment ptr) (FarPtr.offset ptr)
    let (pad, builder) ← Prog.unwrap object
    let padPtr : WirePtr ← Arena.read pad
    if FarPtr.doubleFar ptr then do
      let tag : WirePtr ← Arena.read (pad.offset 1)
      Prog.assert (padPtr.kind = .far)
      pure (⟨tag, .doubleFar (FarPtr.segment padPtr) (FarPtr.offset padPtr)⟩, builder)
    else
      pure (⟨padPtr, .far pad⟩, builder)
  else
    pure (⟨ptr, .near place⟩, self)

/-- `ObjectBuilder::locate`. -/
def locate (self : ObjectBuilder) (ptr : SegmentRef) : BuildM (BuildContent × ObjectBuilder) := do
  let wirePtr ← Arena.read ptr
  self.locatePtr ptr wirePtr

/-- Find the object that is described at a location.  A double-far pointer into a segment that
the arena does not have ends in a panic, whatever the kind of the object. -/
def buildAtLocation (self : ObjectBuilder) (location : BuildLocation)
    (offset : SignedSegmentOffset) : BuildM (SegmentRef × ObjectBuilder) :=
  match location with
  | .near origin | .far origin => self.buildObjectFromEndOf origin offset
  | .doubleFar segment start => do
    let object ← self.buildObjectIn segment start
    Prog.unwrap object

/-- `ObjectBuilder::clear_ptrs`. -/
def clearPtrs (self : ObjectBuilder) (ptr : SegmentRef) : BuildM Unit := do
  let wirePtr : WirePtr ← Arena.read ptr
  if wirePtr.kind = .far then do
    let object ← self.buildObjectIn (FarPtr.segment wirePtr) (FarPtr.offset wirePtr)
    match object with
    | none => pure ()
    | some (pad, builder) => do
      builder.setPtr pad Word.null
      (if FarPtr.doubleFar wirePtr then builder.setPtr (pad.offset 1) Word.null else pure ())
      self.setPtr ptr Word.null
  else self.setPtr ptr Word.null

/-- `ObjectBuilder::clear_struct_section`. -/
def clearStructSection (self : ObjectBuilder) (start : SegmentRef) (size : StructSize) :
    BuildM Unit :=
  self.clearSection start size.total

/-- `ObjectBuilder::clear_list_section`.  The tag of a list of structs is in front of `start`. -/
def clearListSection (self : ObjectBuilder) (start : SegmentRef) (size : ElementSize)
    (count : ElementCount) : BuildM Unit :=
  match AllocLen.new (size.objectWords count.get) with
  | none => pure ()
  | some len =>
    if size.isInlineComposite then do
      Prog.require (0 < start.pos)
      self.clearSection ⟨start.segment, start.pos - 1⟩ len.get
    else self.clearSection start len.get

end ObjectBuilder

/-! ## The nullifier -/

/-- The state of a run that clears: the arena, the errors that were handled and the capabilities
that were given back, the last ones first. -/
structure ClearState where
  arena : Arena
  reported : List Error
  caps : List ℕ

/-- `Nullifier`.  The table answers to a capability index, after the ones before. -/
structure Nullifier (ε : Type) where
  handler : ErrorHandler ε
  clearCap : List ℕ → ℕ → Except Error Unit

namespace Nullifier

variable {ε : Type}

/-- Programs that clear. -/
abbrev ClearM (ε : Type) := Prog ε ClearState

/-- Run a part that only builds.  It does not fail, as it allocates nothing. -/
def building {α : Type} (x : BuildM α) : ClearM ε (Except Error α) :=
  Prog.zoom ClearState.arena (fun s arena => { s with arena := arena }) (Prog.attempt x)

/-- Hand an error to the handler. -/
def handleErr (self : Nullifier ε) (err : Error) : ClearM ε Unit := fun s =>
  match self.handler s.reported err with
  | none => .ok () { s with reported := err :: s.reported }
  | some e => .error e { s with reported := err :: s.reported }

/-- Run a part that only builds, and hand its error to the handler. -/
def build {α : Type} (self : Nullifier ε) (x : BuildM α) (f : α → ClearM ε Unit) : ClearM ε Unit := do
  let result ← building x
  match result with
  | .ok a => f a
  | .error err => self.handleErr err

/-- Give a capability back to the table. -/
def clearCapability (self : Nullifier ε) (index : ℕ) : ClearM ε Unit := fun s =>
  match self.clearCap s.caps index with
  | .ok () => .ok () { s with caps := index :: s.caps }
  | .error err => self.handleErr err { s with caps := index :: s.caps }

/-- `Nullifier::clear_ptr_section`, with the function for a pointer. -/
def clearPtrSection (self : Nullifier ε) (clearPtr : ObjectBuilder → SegmentRef → ClearM ε Unit)
    (builder : ObjectBuilder) (ptr : SegmentRef) (len : ℕ) : ClearM ε Unit :=
  Prog.forRange len fun k =>
    self.build (Arena.read (ptr.offset k)) fun word =>
      if word.isNull then pure () else clearPtr builder (ptr.offset k)

/-- `Nullifier::clear_struct`. -/
def clearStruct (self : Nullifier ε) (clearPtr : ObjectBuilder → SegmentRef → ClearM ε Unit)
    (builder : ObjectBuilder) (start : SegmentRef) (size : StructSize) : ClearM ε Unit := do
  self.clearPtrSection clearPtr builder (start.offset size.data) size.ptrs
  self.build (builder.clearStructSection start size) pure

/-- `Nullifier::clear_list`. -/
def clearList (self : Nullifier ε) (clearPtr : ObjectBuilder → SegmentRef → ClearM ε Unit)
    (builder : ObjectBuilder) (start : SegmentRef) (size : ElementSize) (count : ElementCount) :
    ClearM ε Unit :=
  match size with
  | .pointer => self.clearPtrSection clearPtr builder start count.get
  | .inlineComposite structSize => do
    -- the assertion of `step_by_unchecked`
    Prog.assert (structSize.total * count.get ≤ U29.maxValue)
    Prog.forRange count.get fun k =>
      self.clearPtrSection clearPtr builder (start.offset (structSize.total * k + structSize.data))
        structSize.ptrs
    self.build (builder.clearListSection start size count) pure
  | _ => self.build (builder.clearListSection start size count) pure

/-- The part of `Nullifier::clear_ptr` for a struct. -/
def clearStructContent (self : Nullifier ε) (clearPtr : ObjectBuilder → SegmentRef → ClearM ε Unit)
    (builder : ObjectBuilder) (content : BuildContent) : ClearM ε Unit :=
  let size := StructPtr.size content.ptr
  if size = StructSize.empty then pure ()
  else
    self.build (builder.buildAtLocation content.location (StructPtr.offset content.ptr))
      fun (start, builder) => self.clearStruct clearPtr builder start size

/-- The part of `Nullifier::clear_ptr` for a list. -/
def clearListContent (self : Nullifier ε) (clearPtr : ObjectBuilder → SegmentRef → ClearM ε Unit)
    (builder : ObjectBuilder) (content : BuildContent) : ClearM ε Unit :=
  self.build (builder.buildAtLocation content.location (ListPtr.offset content.ptr))
    fun (start, builder) =>
      -- the count of the list pointer, which is the number of words of a list of structs
      let count := ListPtr.elementCount content.ptr
      let elementSize := ListPtr.elementSize content.ptr
      if elementSize = .inlineComposite then
        self.build (Arena.read start) fun tag => do
          Prog.assert (WirePtr.kind tag = .struct)
          self.clearList clearPtr builder (start.offset 1) (.inlineComposite (StructPtr.size tag)) count
      else self.clearList clearPtr builder start elementSize.toElementSize count

/-- `Nullifier::clear_ptr`, to a depth. -/
def clearPtr (self : Nullifier ε) : ℕ → ObjectBuilder → SegmentRef → ClearM ε Unit
  | 0, _, _ => Prog.halt .depth
  | depth + 1, ptrBuilder, place =>
    self.build (ptrBuilder.locate place) fun (content, builder) =>
      self.build (ptrBuilder.clearPtrs place) fun _ =>
        match content.ptr.kind with
        | .struct => self.clearStructContent (self.clearPtr depth) builder content
        | .list => self.clearListContent (self.clearPtr depth) builder content
        | .other => do
          Prog.assert content.ptr.isCapability
          self.clearCapability (CapabilityPtr.capabilityIndex content.ptr)
        | .far => Prog.halt .panic

end Nullifier

/-! ## Pointer builders -/

/-- `PtrBuilder`. -/
structure PtrBuilder where
  ptr : SegmentRef
  builder : ObjectBuilder
deriving DecidableEq, Repr

namespace PtrBuilder

/-- `PtrBuilder::root`. -/
def root : PtrBuilder := ⟨⟨0, 0⟩, ⟨0⟩⟩

/-- `PtrBuilder::try_clear`. -/
def tryClear {ε : Type} (self : PtrBuilder) (nullifier : Nullifier ε) (depth : ℕ) :
    Nullifier.ClearM ε Unit :=
  nullifier.build (Arena.read self.ptr) fun word =>
    if word.isNull then pure () else nullifier.clearPtr depth self.builder self.ptr

/-- `PtrBuilder::clear`. -/
def clear {ε : Type} (self : PtrBuilder) (clearCap : List ℕ → ℕ → Except Error Unit) (depth : ℕ) :
    Prog ε Arena Unit := fun arena =>
  match self.tryClear ⟨ignoreErrors, clearCap⟩ depth ⟨arena, [], []⟩ with
  | .ok () s => .ok () s.arena
  | .error e _ => nomatch e
  | .halt h => .halt h

end PtrBuilder

end Recapn.Ptr

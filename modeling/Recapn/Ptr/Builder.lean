/-
# Building objects

An object builder stands in a segment of an arena and lays out objects.  An allocation tries
the builder's own segment first and any other then; an object in another segment gets a landing
pad in front of it, and a list that fills a whole segment a pad of two words of its own.

A builder writes at addresses: it does not check that they are in its segment, and asserts it
in debug builds only.  The distance of two addresses is only defined inside of one segment.
-/
import Recapn.Ptr.Arena

namespace Recapn.Ptr

open Recapn.Lib

/-- `SegmentRef::offset`. -/
def SegmentRef.offset (r : SegmentRef) (n : ℕ) : SegmentRef := ⟨r.segment, r.pos + n⟩

lemma offset_inj {start : SegmentRef} {j k : ℕ} (h : start.offset j = start.offset k) : j = k := by
  have hpos : start.pos + j = start.pos + k := congrArg SegmentRef.pos h
  omega

lemma offset_offset (start : SegmentRef) (j k : ℕ) :
    (start.offset j).offset k = start.offset (j + k) := by
  rw [SegmentRef.offset, SegmentRef.offset, SegmentRef.offset, Nat.add_assoc]

/-- `ObjectBuilder`: the segment in which it stands.  Its arena is the state. -/
structure ObjectBuilder where
  segment : ℕ
deriving DecidableEq, Repr

/-- `LANDING_PAD_LEN`. -/
def landingPadLen : AllocLen := ⟨2, Nat.two_pos, U29.two_lt⟩

/-- The result of an unchecked conversion, which is undefined when the value is out of range. -/
def unchecked {α : Type} : Option α → BuildM α
  | some a => pure a
  | none => Prog.halt .undefined

namespace ObjectBuilder

/-- `ObjectBuilder::id`. -/
def id (self : ObjectBuilder) : BuildM SegmentId := fun arena =>
  match arena.segments[self.segment]? with
  | some s => .ok s.id arena
  | none => .halt .undefined

/-- `ObjectBuilder::start`. -/
def start (self : ObjectBuilder) : SegmentRef := ⟨self.segment, 0⟩

/-- `ObjectBuilder::offset_from`. -/
def offsetFrom (_ : ObjectBuilder) (start stop : SegmentRef) : BuildM SignedSegmentOffset := do
  Prog.require (start.segment = stop.segment)
  unchecked (I30.new ((stop.pos : ℤ) - start.pos))

/-- `ObjectBuilder::offset_from_end_of`. -/
def offsetFromEndOf (self : ObjectBuilder) (start stop : SegmentRef) :
    BuildM SignedSegmentOffset :=
  self.offsetFrom (start.offset 1) stop

/-- `ObjectBuilder::offset_from_start`. -/
def offsetFromStart (self : ObjectBuilder) (stop : SegmentRef) : BuildM SegmentOffset := do
  let signedOffset ← self.offsetFrom self.start stop
  Prog.unwrap (U29.new (u32OfI32 signedOffset.get))

/-- `ObjectBuilder::set_ptr`. -/
def setPtr {ε : Type} (_ : ObjectBuilder) (ptr : SegmentRef) (value : WirePtr) :
    Prog ε Arena Unit :=
  Arena.writeSection ptr 1 fun _ => value

/-- `ObjectBuilder::clear_section`. -/
def clearSection (_ : ObjectBuilder) (start : SegmentRef) (len : ℕ) : BuildM Unit :=
  Arena.writeSection start len fun _ => Word.null

/-- `ObjectBuilder::alloc_in_segment`. -/
def allocInSegment (self : ObjectBuilder) (size : AllocLen) : BuildM (Option SegmentRef) := do
  let offset ← Arena.onSegment self.segment (ArenaSegment.tryUseLen size)
  pure (offset.map fun offset => ⟨self.segment, offset.get⟩)

/-- `ObjectBuilder::alloc_in_arena`. -/
def allocInArena (_ : ObjectBuilder) (size : AllocLen) :
    BuildM (Option (SegmentRef × ObjectBuilder)) := do
  let place ← Arena.alloc size
  pure (place.map fun place => (place, ⟨place.segment⟩))

/-- `ObjectBuilder::alloc`. -/
def alloc (self : ObjectBuilder) (size : AllocLen) :
    BuildM (Option (SegmentRef × ObjectBuilder)) := do
  let word ← self.allocInSegment size
  match word with
  | some word => pure (some (word, self))
  | none => self.allocInArena size

/-- `ObjectBuilder::alloc_double_far_landing_pad`: the pad, the tag behind it and the builder. -/
def allocDoubleFarLandingPad (self : ObjectBuilder) :
    BuildM (Option (SegmentRef × SegmentRef × ObjectBuilder)) := do
  let pad ← self.alloc landingPadLen
  pure (pad.map fun (pad, segment) => (pad, pad.offset 1, segment))

/-- `ObjectBuilder::alloc_struct`. -/
def allocStruct (self : ObjectBuilder) (ptr : SegmentRef) (size : StructSize) :
    BuildM (SegmentRef × ObjectBuilder) :=
  match AllocLen.new size.total with
  | none => do
    self.setPtr ptr StructPtr.empty
    pure (ptr, self)
  | some len => do
    let start ← self.allocInSegment len
    match start with
    | some start => do
      let offset ← self.offsetFromEndOf ptr start
      self.setPtr ptr (StructPtr.new offset size)
      pure (start, self)
    | none => do
      let lenWithPad ← Prog.unwrap (AllocLen.new (size.total + 1))
      let alloc ← self.allocInArena lenWithPad
      let (pad, objectSegment) ← Prog.okOr (.allocFailed lenWithPad.get) alloc
      -- the pad is the actual pointer to the content
      let offsetToPad ← objectSegment.offsetFromStart pad
      let id ← objectSegment.id
      self.setPtr ptr (FarPtr.new id offsetToPad false)
      objectSegment.setPtr pad (StructPtr.new I30.zero size)
      pure (pad.offset 1, objectSegment)

/-- `ObjectBuilder::alloc_segment_of_list`. -/
def allocSegmentOfList (self : ObjectBuilder) (ptr : SegmentRef) (elementSize : ElementSize)
    (elementCount : ElementCount) : BuildM (SegmentRef × ObjectBuilder) := do
  let alloc ← self.allocDoubleFarLandingPad
  let (pad, tag, padBuilder) ← Prog.okOr (.allocFailed landingPadLen.get) alloc
  let alloc ← self.allocInArena AllocLen.max
  let (start, listSegment) ← Prog.okOr (.allocFailed AllocLen.max.get) alloc
  let offsetToPad ← padBuilder.offsetFromStart pad
  let padId ← padBuilder.id
  self.setPtr ptr (FarPtr.new padId offsetToPad true)
  let offsetToList ← listSegment.offsetFromStart start
  let listId ← listSegment.id
  padBuilder.setPtr pad (FarPtr.new listId offsetToList false)
  -- the count is the number of elements, also for a list of structs
  padBuilder.setPtr tag
    (ListPtr.new I30.zero elementSize.asPtrSize elementCount)
  pure (start, listSegment)

/-- The part of `ObjectBuilder::alloc_list` that finds a place for a list of `totalSize` words,
and points to it. -/
def placeList (self : ObjectBuilder) (ptr : SegmentRef) (elementSize : ElementSize)
    (elementCount listPtrElementCount : ElementCount) (len : AllocLen) :
    BuildM (SegmentRef × ObjectBuilder) := do
  let alloc ← self.allocInSegment len
  match alloc with
  | some alloc => do
    let offset ← self.offsetFromEndOf ptr alloc
    self.setPtr ptr (ListPtr.new offset elementSize.asPtrSize listPtrElementCount)
    pure (alloc, self)
  | none =>
    match AllocLen.new (len.get + 1) with
    | some lenWithLandingPad => do
      let alloc ← self.allocInArena lenWithLandingPad
      let (pad, segment) ← Prog.okOr (.allocFailed lenWithLandingPad.get) alloc
      let offsetToPad ← segment.offsetFromStart pad
      let id ← segment.id
      self.setPtr ptr (FarPtr.new id offsetToPad false)
      segment.setPtr pad
        (ListPtr.new I30.zero elementSize.asPtrSize listPtrElementCount)
      pure (pad.offset 1, segment)
    | none => self.allocSegmentOfList ptr elementSize elementCount

/-- The part of `ObjectBuilder::alloc_list` that writes the tag of a list of structs. -/
def setTag (self : ObjectBuilder) (start : SegmentRef) (elementCount : ElementCount) :
    ElementSize → BuildM SegmentRef
  | .inlineComposite size => do
    self.setPtr start (StructPtr.newInlineCompositeTag elementCount size)
    pure (start.offset 1)
  | _ => pure start

/-- `ObjectBuilder::alloc_list`. -/
def allocList (self : ObjectBuilder) (ptr : SegmentRef) (elementSize : ElementSize)
    (elementCount : ElementCount) : BuildM (SegmentRef × ObjectLen × ObjectBuilder) :=
  let isStructList := elementSize.isInlineComposite
  let tagSize := if isStructList then 1 else 0
  let size := elementSize.totalWords elementCount.get
  -- the sum wraps around in release builds
  let totalSize := (size + tagSize) % 2 ^ 32
  if totalSize = 0 then do
    self.setPtr ptr (ListPtr.new I30.zero elementSize.asPtrSize elementCount)
    pure (ptr.offset 1, U29.zero, self)
  else do
    let len ← Prog.okOr .allocTooLarge (AllocLen.new totalSize)
    let listPtrElementCount ←
      (if isStructList then Prog.unwrap (U29.new size) else pure elementCount)
    let (start, segment) ← self.placeList ptr elementSize elementCount listPtrElementCount len
    let start ← segment.setTag start elementCount elementSize
    pure (start, len.toU29, segment)

end ObjectBuilder

end Recapn.Ptr

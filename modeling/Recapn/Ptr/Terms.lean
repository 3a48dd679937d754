/-
# What traversals may come to

Copies and comparisons read, build and go on with the pointers below.  Here it is said what they
may fail with and how they may halt, when the same is said of what they do with those pointers.
-/
import Recapn.Ptr.Equality
import Recapn.Ptr.Target

namespace Recapn.Ptr

open Recapn.Lib

/-! ## The pointers of an object -/

/-- The way from an object to one of its pointers. -/
inductive Way where
  | field (k : ℕ)
  | item (k : ℕ)
  | element (i k : ℕ)
deriving DecidableEq, Repr

/-- The position of a pointer of an object. -/
def TypedContent.follow : TypedContent → Way → Option ℕ
  | .struct content, .field k =>
    if k < content.size.ptrs then some (content.ptrsStart + k) else none
  | .list ⟨pos, .pointer, count⟩, .item k => if k < count.get then some (pos + k) else none
  | .list ⟨pos, .inlineComposite size, count⟩, .element i k =>
    if i < count.get ∧ k < size.ptrs then some (pos + size.total * i + size.data + k) else none
  | _, _ => none

/-- A section that is inside of its segment is there. -/
lemma sectionSlice_eq_pure {a : ReadArena} {id : SegmentId} {segment : Segment} {ε σ : Type}
    {ptr len : ℕ} (hlen : ptr + len ≤ segment.len.get) :
    ((ObjectReader.inSegment a id segment).sectionSlice ptr len : Prog ε σ _)
      = pure fun k => segment.data (ptr + k) := by
  have hin : (ObjectReader.inSegment a id segment).inBounds ptr len = true := decide_eq_true hlen
  rw [ObjectReader.sectionSlice, Prog.require_of hin, Prog.pure_bind_eq]
  rfl

/-! ## What the parts of a traversal may come to

Reading never halts.  `H` says in which ways other runs may: building may panic and do what is
undefined, but does not recurse.  Nothing that they fail with is about nesting.
-/

/-- Reading, with a limiter of which `I` is said. -/
def readTerms (I : Limiter → Prop) : Prog.Terms Error Limiter :=
  ⟨I, fun e => e ≠ .nestingLimitExceeded, fun _ => False⟩

/-- What is said of the limiter is also said of what is left of it. -/
def Spends (I : Limiter → Prop) : Prop := ∀ words, Prog.Within (readTerms I) (tryAmplifiedRead words)

lemma spends_none : Spends fun limiter => limiter = none := by
  intro words limiter hlimiter
  obtain rfl : limiter = none := hlimiter
  exact rfl

lemma spends_any : Spends fun _ => True := by
  intro words limiter _
  rcases limiter with _ | limit
  · trivial
  · trivial

/-- Building. -/
def buildTerms (H : Halt → Prop) : Prog.Terms Error Arena :=
  ⟨fun _ => True, fun e => e ≠ .nestingLimitExceeded, H⟩

section Reading

open ObjectReader Prog

variable {I : Limiter → Prop} (hI : Spends I) (self : ObjectReader)

include hI

lemma within_limitRead (words : ℕ) : Within (readTerms I) (limitRead words) := by
  refine within_bind (hI words) fun read _ => ?_
  exact within_ite (fun _ => within_pure _) fun _ => within_throw fun h => nomatch h

lemma within_tryReadObjectIn (segment : SegmentId) (offset : SegmentOffset) (len : ObjectLen) :
    Within (readTerms I) (self.tryReadObjectIn segment offset len) := by
  refine within_bind (within_okOr (fun h => nomatch h) _) fun reader _ => ?_
  refine within_bind (within_okOr (fun h => nomatch h) _) fun ptr _ => ?_
  exact within_bind (within_limitRead hI _) fun _ _ => within_pure _

lemma within_tryReadObjectFromEndOf (ptr : ℕ) (offset : SignedSegmentOffset) (len : ObjectLen) :
    Within (readTerms I) (self.tryReadObjectFromEndOf ptr offset len) := by
  have hend (newPtr : ℕ) :
      Within (readTerms I) (limitRead len.get >>= fun _ => pure newPtr) :=
    within_bind (within_limitRead hI _) fun _ _ => within_pure _
  rcases self with ⟨segment | memory⟩
  · exact within_bind (within_okOr (fun h => nomatch h) _) fun newPtr _ => hend newPtr
  · exact hend _

lemma within_readAtLocation (location : Location) (offset : SignedSegmentOffset)
    (len : ObjectLen) : Within (readTerms I) (self.readAtLocation location offset len) := by
  cases location with
  | near origin | far origin =>
    exact within_bind (within_tryReadObjectFromEndOf hI self _ _ _) fun _ _ => within_pure _
  | doubleFar segment offset => exact within_tryReadObjectIn hI self _ _ _

omit hI in
lemma within_tryFarPtr (ptr : WirePtr) : Within (readTerms I) (tryFarPtr ptr) :=
  within_ite (fun _ => within_pure _) fun _ => within_throw fun h => nomatch h

lemma within_locationOf (src : ℕ) : Within (readTerms I) (self.locationOf src) := by
  refine within_ite (fun _ => ?_) fun _ => within_pure _
  refine within_bind (within_tryReadObjectIn hI self _ _ _) fun pad _ => ?_
  refine within_ite (fun _ => ?_) fun _ => within_pure _
  exact within_bind (within_tryFarPtr _) fun _ _ => within_pure _

lemma within_readAsStructContent (location : Location) (ptr : WirePtr) :
    Within (readTerms I) (self.readAsStructContent location ptr) :=
  within_bind (within_readAtLocation hI self _ _ _) fun _ _ => within_pure _

omit hI in
lemma within_checkUpgrade (ptrElement : PtrElementSize) (size : ElementSize)
    (expected : Option PtrElementSize) :
    Within (readTerms I) (checkUpgrade ptrElement size expected) := by
  rcases expected with _ | expected
  · exact within_pure _
  · exact within_ite (fun _ => within_pure _) fun _ => within_throw fun h => nomatch h

lemma within_readAsListContent (location : Location) (ptr : WirePtr)
    (expected : Option PtrElementSize) :
    Within (readTerms I) (self.readAsListContent location ptr expected) := by
  refine within_ite (fun _ => ?_) fun _ => ?_
  · refine within_bind (within_okOr (fun h => nomatch h) _) fun len _ => ?_
    refine within_bind (within_readAtLocation hI self _ _ _) fun tag _ => ?_
    refine within_ite (fun _ => ?_) fun _ => within_throw fun h => nomatch h
    refine within_bind (within_checkUpgrade _ _ _) fun _ _ => ?_
    refine within_ite (fun _ => within_throw fun h => nomatch h) fun _ => ?_
    refine within_bind ?_ fun _ _ => within_pure _
    exact within_ite (fun _ => within_limitRead hI _) fun _ => within_pure _
  · refine within_bind (within_checkUpgrade _ _ _) fun _ _ => ?_
    refine within_bind (within_ite (fun _ => within_limitRead hI _) fun _ => within_pure _)
      fun _ _ => ?_
    -- the length of a list of other elements always fits
    obtain ⟨len, hlen, -⟩ := new_roundUpBitCount (ListPtr.elementSize ptr) (ListPtr.elementCount ptr)
    dsimp only
    rw [hlen, unwrap_some, pure_bind_eq]
    exact within_bind (within_readAtLocation hI self _ _ _) fun _ _ => within_pure _

lemma within_tryReadTyped (src : ℕ) : Within (readTerms I) (self.tryReadTyped src) := by
  refine within_bind (within_locationOf hI self src) ?_
  rintro ⟨self', content⟩ -
  dsimp only
  split
  · exact within_bind (within_readAsStructContent hI _ _ _) fun _ _ => within_pure _
  · exact within_bind (within_readAsListContent hI _ _ _ _) fun _ _ => within_pure _
  · refine within_bind ?_ fun _ _ => within_pure _
    exact within_ite (fun _ => within_pure _) fun _ => within_throw (by rintro ⟨⟩)
  · exact within_throw (by rintro ⟨⟩)

end Reading

section Building

open ObjectBuilder Prog

variable {t : Terms Error Arena} (self : ObjectBuilder)

/-- Terms that everything a builder does keeps to. -/
structure BuildTerms (t : Terms Error Arena) : Prop where
  panic : t.halts .panic
  undefined : t.halts .undefined
  allocTooLarge : t.err .allocTooLarge
  allocFailed : ∀ n, t.err (.allocFailed n)
  write : ∀ arena start len words, t.inv arena → t.inv (arena.write start len words)
  onSegment : ∀ i size, Within t (Arena.onSegment i (ArenaSegment.tryUseLen size))
  alloc : ∀ size, Within t (Arena.alloc size)

lemma within_writeSection {ε : Type} {t : Terms ε Arena} (ht : t.halts .undefined)
    (hinv : ∀ arena start len words, t.inv arena → t.inv (arena.write start len words))
    (start : SegmentRef) (len : ℕ) (words : ℕ → Word) : Within t (Arena.writeSection start len words) := by
  intro arena harena
  unfold Arena.writeSection
  by_cases hlen : start.pos + len ≤ arena.len start.segment
  · rw [if_pos hlen]
    exact hinv _ _ _ _ harena
  · rw [if_neg hlen]
    exact ht

section Parts

variable (ht : BuildTerms t)

include ht

lemma within_setPtr (ptr : SegmentRef) (value : WirePtr) : Within t (self.setPtr ptr value) :=
  within_writeSection ht.undefined ht.write _ _ _

lemma within_id : Within t self.id := by
  intro arena harena
  unfold ObjectBuilder.id
  rcases arena.segments[self.segment]? with _ | s
  · exact ht.undefined
  · exact harena

lemma within_offsetFrom (start stop : SegmentRef) : Within t (self.offsetFrom start stop) := by
  refine within_bind (within_require ht.undefined _) fun _ _ => ?_
  rcases I30.new ((stop.pos : ℤ) - start.pos) with _ | offset
  · exact within_halt ht.undefined
  · exact within_pure _

lemma within_offsetFromStart (stop : SegmentRef) : Within t (self.offsetFromStart stop) :=
  within_bind (within_offsetFrom _ ht _ _) fun _ _ => within_unwrap ht.panic _

lemma within_allocInSegment (size : AllocLen) : Within t (self.allocInSegment size) :=
  within_bind (ht.onSegment _ _) fun _ _ => within_pure _

lemma within_allocInArena (size : AllocLen) : Within t (self.allocInArena size) :=
  within_bind (ht.alloc size) fun _ _ => within_pure _

lemma within_alloc (size : AllocLen) : Within t (self.alloc size) := by
  refine within_bind (within_allocInSegment _ ht _) fun word _ => ?_
  rcases word with _ | word
  · exact within_allocInArena _ ht _
  · exact within_pure _

lemma within_allocStruct (ptr : SegmentRef) (size : StructSize) :
    Within t (self.allocStruct ptr size) := by
  unfold allocStruct
  rcases AllocLen.new size.total with _ | len
  · exact within_bind (within_setPtr _ ht _ _) fun _ _ => within_pure _
  · refine within_bind (within_allocInSegment _ ht _) fun start _ => ?_
    rcases start with _ | start
    · refine within_bind (within_unwrap ht.panic _) fun lenWithPad _ => ?_
      refine within_bind (within_allocInArena _ ht _) fun alloc _ => ?_
      refine within_bind (within_okOr (ht.allocFailed _) _) fun pad _ => ?_
      refine within_bind (within_offsetFromStart _ ht _) fun _ _ => ?_
      refine within_bind (within_id _ ht) fun _ _ => ?_
      refine within_bind (within_setPtr _ ht _ _) fun _ _ => ?_
      exact within_bind (within_setPtr _ ht _ _) fun _ _ => within_pure _
    · refine within_bind (within_offsetFrom _ ht _ _) fun offset _ => ?_
      exact within_bind (within_setPtr _ ht _ _) fun _ _ => within_pure _

lemma within_allocSegmentOfList (ptr : SegmentRef) (elementSize : ElementSize)
    (elementCount : ElementCount) :
    Within t (self.allocSegmentOfList ptr elementSize elementCount) := by
  refine within_bind (within_bind (within_alloc _ ht _) fun _ _ => within_pure _)
    fun alloc _ => ?_
  refine within_bind (within_okOr (ht.allocFailed _) _) fun pad _ => ?_
  refine within_bind (within_allocInArena _ ht _) fun alloc _ => ?_
  refine within_bind (within_okOr (ht.allocFailed _) _) fun start _ => ?_
  refine within_bind (within_offsetFromStart _ ht _) fun _ _ => ?_
  refine within_bind (within_id _ ht) fun _ _ => ?_
  refine within_bind (within_setPtr _ ht _ _) fun _ _ => ?_
  refine within_bind (within_offsetFromStart _ ht _) fun _ _ => ?_
  refine within_bind (within_id _ ht) fun _ _ => ?_
  refine within_bind (within_setPtr _ ht _ _) fun _ _ => ?_
  exact within_bind (within_setPtr _ ht _ _) fun _ _ => within_pure _

lemma within_placeList (ptr : SegmentRef) (elementSize : ElementSize)
    (elementCount listPtrElementCount : ElementCount) (len : AllocLen) :
    Within t
      (self.placeList ptr elementSize elementCount listPtrElementCount len) := by
  refine within_bind (within_allocInSegment _ ht _) fun alloc _ => ?_
  rcases alloc with _ | alloc
  · dsimp only
    rcases AllocLen.new (len.get + 1) with _ | lenWithLandingPad
    · exact within_allocSegmentOfList _ ht _ _ _
    · refine within_bind (within_allocInArena _ ht _) fun alloc _ => ?_
      refine within_bind (within_okOr (ht.allocFailed _) _) fun pad _ => ?_
      refine within_bind (within_offsetFromStart _ ht _) fun _ _ => ?_
      refine within_bind (within_id _ ht) fun _ _ => ?_
      refine within_bind (within_setPtr _ ht _ _) fun _ _ => ?_
      exact within_bind (within_setPtr _ ht _ _) fun _ _ => within_pure _
  · refine within_bind (within_offsetFrom _ ht _ _) fun offset _ => ?_
    exact within_bind (within_setPtr _ ht _ _) fun _ _ => within_pure _

lemma within_allocList (ptr : SegmentRef) (elementSize : ElementSize)
    (elementCount : ElementCount) :
    Within t (self.allocList ptr elementSize elementCount) := by
  refine within_ite (fun _ => ?_) fun _ => ?_
  · exact within_bind (within_setPtr _ ht _ _) fun _ _ => within_pure _
  · refine within_bind (within_okOr ht.allocTooLarge _) fun len _ => ?_
    refine within_bind (within_ite (fun _ => within_unwrap ht.panic _) fun _ => within_pure _)
      fun count _ => ?_
    refine within_bind (within_placeList _ ht _ _ _ _ _) fun place _ => ?_
    refine within_bind ?_ fun _ _ => within_pure _
    cases elementSize with
    | inlineComposite size =>
      exact within_bind (within_setPtr _ ht _ _) fun _ _ => within_pure _
    | _ => exact within_pure _

end Parts

variable {H : Halt → Prop} (hpanic : H .panic)

include hpanic

lemma within_tryUseLen (size : AllocLen) :
    Within (⟨fun _ => True, fun e => e ≠ .nestingLimitExceeded, H⟩ : Terms Error ArenaSegment)
      (ArenaSegment.tryUseLen size) := by
  refine within_bind within_get fun s _ => ?_
  rcases s.state with used | _ | _
  · refine within_ite (fun _ => within_pure _) fun _ => ?_
    refine within_bind (within_unwrap hpanic _) fun _ _ => ?_
    exact within_bind (within_modify fun _ _ => trivial) fun _ _ => within_pure _
  · exact within_halt hpanic
  · exact within_halt hpanic

lemma within_onSegment (i : ℕ) (size : AllocLen) :
    Within (buildTerms H) (Arena.onSegment i (ArenaSegment.tryUseLen size)) := by
  intro arena _
  unfold Arena.onSegment
  rcases arena.segments[i]? with _ | s
  · exact hpanic
  · have hrun := within_tryUseLen hpanic size
    rcases hs : ArenaSegment.tryUseLen size s with ⟨offset, s'⟩ | ⟨e, s'⟩ | r
    · simp only [hs]
      trivial
    · simp only [hs]
      exact ⟨(hrun.error trivial hs).1, trivial⟩
    · simp only [hs]
      exact hrun.halt trivial hs

/-- Building does not exceed a nesting limit. -/
lemma buildTerms_builds (hundefined : H .undefined) : BuildTerms (buildTerms H) where
  panic := hpanic
  undefined := hundefined
  allocTooLarge := fun h => nomatch h
  allocFailed := fun _ h => nomatch h
  write := fun _ _ _ _ _ => trivial
  onSegment := within_onSegment hpanic
  alloc := by
    intro size
    refine within_bind within_get fun arena _ => ?_
    refine within_bind (within_onSegment hpanic _ _) fun offset _ => ?_
    rcases offset with _ | offset
    · refine within_ite (fun _ => within_pure _) fun _ => ?_
      refine within_bind (fun _ _ => trivial) fun segment _ => ?_
      rcases segment with _ | segment
      · exact within_pure _
      · exact within_bind (within_modify fun _ _ => trivial) fun _ _ => within_pure _
    · exact within_pure _

end Building

/-! ## What a copy may come to -/

/-- Copying from a message without a limiter. -/
def copyTerms (ε : Type) (H : Halt → Prop) : Prog.Terms ε CopyState :=
  ⟨fun s => s.limiter = none ∧ Error.nestingLimitExceeded ∉ s.reported, fun _ => True, H⟩

/-- The tables only fail with these. -/
def CopyMachine.TableErrors {ε : Type} (self : CopyMachine ε) : Prop :=
  ∀ caps index err, self.copyCap caps index = .error err →
    err = .capabilityNotAllowed ∨ err = .invalidCapabilityPointer index

/-- A null pointer is read as a struct without pointers. -/
lemma follow_of_null {reader reader' : ObjectReader} {src : ℕ} {limiter limiter' : Limiter}
    {typed : TypedContent} (hnull : (reader.word src).isNull = true)
    (h : reader.tryReadTyped src limiter = .ok (reader', typed) limiter') (way : Way) :
    typed.follow way = none := by
  have hword : reader.word src = Word.null := Word.isNull_iff.1 hnull
  unfold ObjectReader.tryReadTyped at h
  obtain ⟨⟨reader₁, content⟩, limiter₁, hlocation, hread⟩ := Prog.bind_eq_ok.1 h
  unfold ObjectReader.locationOf at hlocation
  rw [hword] at hlocation
  obtain ⟨hcontent, -⟩ := Prog.pure_eq_ok.1 hlocation
  cases hcontent
  obtain ⟨⟨reader₂, object⟩, limiter₂, hobject, hpure⟩ := Prog.bind_eq_ok.1 hread
  obtain ⟨htyped, -⟩ := Prog.pure_eq_ok.1 hpure
  cases htyped
  obtain ⟨⟨reader₃, pos⟩, limiter₃, -, hpure⟩ := Prog.bind_eq_ok.1 hobject
  obtain ⟨hobject, -⟩ := Prog.pure_eq_ok.1 hpure
  cases hobject
  have hptrs : (StructPtr.size Word.null).ptrs = 0 := by decide
  rcases way with k | k | ⟨i, k⟩
  · exact if_neg (hptrs.symm ▸ Nat.not_lt_zero k)
  · rfl
  · rfl

/-- The words of a list of pointers, or of structs of pointers, are its pointers. -/
lemma follow_of_isPtrs {size : ElementSize} (hptrs : size.isPtrs = true) {count : ElementCount}
    {k : ℕ} (hk : k < size.totalWords count.get) (pos : ℕ) :
    ∃ way, (TypedContent.list ⟨pos, size, count⟩).follow way = some (pos + k) := by
  have hle : size.totalWords count.get ≤ (size.bits * count.get + 63) / 64 := Nat.mod_le _ _
  cases size with
  | pointer =>
    have hbits : ElementSize.pointer.bits = 64 := rfl
    rw [hbits] at hle
    exact ⟨.item k, if_pos (by omega)⟩
  | inlineComposite size =>
    obtain ⟨-, hdata⟩ := Bool.and_eq_true_iff.1 hptrs
    have hzero : size.data = 0 := eq_of_beq hdata
    have htotal : size.total = size.ptrs := by rw [StructSize.total, hzero, Nat.zero_add]
    have hbits : (ElementSize.inlineComposite size).bits = size.ptrs * 64 := by
      rw [← htotal]
      rfl
    have hlt : k < size.ptrs * count.get := by
      rw [hbits, Nat.mul_right_comm] at hle
      omega
    have hpos : 0 < size.ptrs := Nat.pos_of_mul_pos_right (Nat.zero_lt_of_lt hlt)
    refine ⟨.element (k / size.ptrs) (k % size.ptrs), ?_⟩
    have hin : k / size.ptrs < count.get ∧ k % size.ptrs < size.ptrs :=
      ⟨Nat.div_lt_of_lt_mul hlt, Nat.mod_lt _ hpos⟩
    have hsum := Nat.div_add_mod k size.ptrs
    show (if k / size.ptrs < count.get ∧ k % size.ptrs < size.ptrs then _ else none) = _
    rw [if_pos hin, htotal, hzero, Option.some.injEq]
    omega
  | _ => cases hptrs

section Copying

open CopyMachine Prog

variable {ε : Type} {H : Halt → Prop} (hpanic : H .panic) (hundefined : H .undefined)

lemma within_reading {α : Type} {x : ReadM α} (hx : Within (readTerms fun limiter => limiter = none) x) :
    Within (copyTerms ε H) (reading x) :=
  within_zoom (within_attempt hx) (fun _ hs => hs.1) (fun _ _ hs hv => ⟨hv, hs.2⟩)
    (fun _ => False.elim) fun _ => False.elim

lemma within_building {α : Type} {x : BuildM α} (hx : Within (buildTerms H) x) :
    Within (copyTerms ε H) (building x) :=
  within_zoom (within_attempt hx) (fun _ _ => trivial) (fun _ _ hs _ => hs)
    (fun _ => False.elim) fun _ hr => hr

lemma within_handleErr (machine : CopyMachine ε) {err : Error} (herr : err ≠ .nestingLimitExceeded) :
    Within (copyTerms ε H) (machine.handleErr err) := by
  rintro s ⟨hlimiter, hreported⟩
  have hcons : Error.nestingLimitExceeded ∉ err :: s.reported := by
    rw [List.mem_cons, not_or]
    exact ⟨herr.symm, hreported⟩
  unfold handleErr
  rcases machine.handler s.reported err with _ | e
  · exact ⟨hlimiter, hcons⟩
  · exact ⟨trivial, hlimiter, hcons⟩

lemma within_sectionSlice {σ : Type} {t : Terms ε σ} (ht : t.halts .undefined)
    (reader : ObjectReader) (ptr len : ℕ) : Within t (reader.sectionSlice ptr len) :=
  within_bind (within_require ht _) fun _ _ => within_pure _

include hundefined

lemma within_writing_section (start : SegmentRef) (len : ℕ) (words : ℕ → Word) :
    Within (copyTerms ε H) (writing (Arena.writeSection start len words)) :=
  within_zoom (t := ⟨fun _ => True, fun _ => True, H⟩)
    (within_writeSection hundefined (fun _ _ _ _ _ => trivial) _ _ _) (fun _ _ => trivial)
    (fun _ _ hs _ => hs) (fun _ _ => trivial) fun _ hr => hr

lemma within_writing_read (place : SegmentRef) :
    Within (copyTerms ε H) (writing (Arena.read place)) := by
  refine within_zoom (t := ⟨fun _ => True, fun _ => True, H⟩) ?_ (fun _ _ => trivial)
    (fun _ _ hs _ => hs) (fun _ _ => trivial) fun _ hr => hr
  intro arena _
  unfold Arena.read
  by_cases hpos : place.pos < arena.len place.segment
  · rw [if_pos hpos]
    trivial
  · rw [if_neg hpos]
    exact hundefined

/-- Copying from the pointer at `slot` stays within the terms. -/
def CopiesAt (H : Halt → Prop) (copyPtr : CopyPtr ε) (reader : ObjectReader) (slot : ℕ) : Prop :=
  ∀ dst builder, Within (copyTerms ε H) (copyPtr slot reader dst builder)

variable {copyPtr : CopyPtr ε} {reader : ObjectReader} {src : ℕ} {dst : SegmentRef}
  {builder : ObjectBuilder}

lemma within_copyPtrSection {len : ℕ} (hptr : ∀ k < len, CopiesAt H copyPtr reader (src + k)) :
    Within (copyTerms ε H) (copyPtrSection copyPtr src reader dst builder len) := by
  refine within_forRange fun k hk => ?_
  refine within_bind (within_sectionSlice hundefined _ _ _) fun word _ => ?_
  exact within_ite (fun _ => within_pure _) fun _ => hptr k hk _ _

lemma within_copyWords (len : ℕ) :
    Within (copyTerms ε H) (copyWords src reader dst len) :=
  within_bind (within_sectionSlice hundefined _ _ _) fun _ _ =>
    within_writing_section hundefined _ _ _

lemma within_copyStruct {srcSize dstSize : StructSize}
    (hptr : ∀ k < srcSize.ptrs, CopiesAt H copyPtr reader (src + srcSize.data + k)) :
    Within (copyTerms ε H) (copyStruct copyPtr src srcSize reader dst dstSize builder) := by
  refine within_bind (within_copyWords hundefined _) fun _ _ => ?_
  exact within_copyPtrSection hundefined fun k hk => hptr k (Nat.lt_of_lt_of_le hk (Nat.min_le_left _ _))

include hpanic

lemma within_copyInlineComposites {srcSize dstSize : StructSize} {len : ElementCount}
    (hptr : ∀ i < len.get, ∀ k < srcSize.ptrs,
      CopiesAt H copyPtr reader (src + srcSize.total * i + srcSize.data + k)) :
    Within (copyTerms ε H)
      (copyInlineComposites copyPtr src srcSize reader dst dstSize builder len) := by
  refine within_bind (within_assert hpanic _) fun _ _ => ?_
  refine within_bind (within_assert hpanic _) fun _ _ => ?_
  exact within_forRange fun i hi => within_copyStruct hundefined (hptr i hi)

/-- A list is copied from its pointers. -/
lemma within_copyList {size : ElementSize} {len : ElementCount}
    (hptr : ∀ way slot, (TypedContent.list ⟨src, size, len⟩).follow way = some slot →
      CopiesAt H copyPtr reader slot) :
    Within (copyTerms ε H) (copyList copyPtr src reader dst builder size len) := by
  refine within_ite (fun hptrs => ?_) fun _ => within_ite (fun _ => ?_) fun _ => ?_
  · refine within_bind (within_unwrap hpanic _) fun words hwords => ?_
    obtain ⟨s, s', -, hunwrap⟩ := hwords
    obtain ⟨hnew, -⟩ := unwrap_eq_ok.1 hunwrap
    refine within_copyPtrSection hundefined fun k hk => ?_
    rw [U29.new_eq_some.1 hnew] at hk
    obtain ⟨way, hway⟩ := follow_of_isPtrs hptrs hk src
    exact hptr way _ hway
  · exact within_bind (within_unwrap hpanic _) fun words _ => within_copyWords hundefined _
  · cases size with
    | inlineComposite size =>
      exact within_copyInlineComposites hpanic hundefined fun i hi k hk =>
        hptr (.element i k) _ (if_pos ⟨hi, hk⟩)
    | _ => exact within_halt hpanic

omit hpanic in
lemma within_setBytes (place : SegmentRef) (offset : ℕ) (bytes : List Byte) :
    Within (copyTerms ε H) (setBytes place offset bytes) := by
  refine within_bind (within_writing_read hundefined _) fun word _ => ?_
  exact within_writing_section hundefined _ _ _

lemma within_copyData (size : ℕ) {srcSize : ElementSize} {dstSize : StructSize}
    {len : ElementCount} :
    Within (copyTerms ε H) (copyData size src reader srcSize dst dstSize len) := by
  refine within_bind (within_unwrap hpanic _) fun totalSize _ => ?_
  refine within_bind (within_sectionSlice hundefined _ _ _) fun words _ => ?_
  exact within_forRange fun k _ => within_setBytes hundefined _ _ _

omit hundefined hpanic in
/-- The pointers of a list of pointers. -/
lemma copiesAt_item {srcSize : ElementSize} {len : ElementCount}
    (hptr : ∀ way slot, (TypedContent.list ⟨src, srcSize, len⟩).follow way = some slot →
      CopiesAt H copyPtr reader slot) (hpointer : srcSize = .pointer) {k : ℕ} (hk : k < len.get) :
    CopiesAt H copyPtr reader (src + k) := by
  subst hpointer
  exact hptr (.item k) _ (if_pos hk)

lemma within_copyToStructs {srcSize : ElementSize} {dstSize : StructSize} {len : ElementCount}
    (hptr : ∀ way slot, (TypedContent.list ⟨src, srcSize, len⟩).follow way = some slot →
      CopiesAt H copyPtr reader slot) :
    Within (copyTerms ε H) (copyToStructs copyPtr src reader srcSize dst builder dstSize len) := by
  refine within_ite (fun hpointers => ?_) fun _ => within_ite (fun _ => ?_) fun _ => ?_
  · refine within_bind (within_unwrap hpanic _) fun words hwords => ?_
    obtain ⟨s, s', -, hunwrap⟩ := hwords
    obtain ⟨hnew, -⟩ := unwrap_eq_ok.1 hunwrap
    refine within_copyPtrSection hundefined fun k hk => copiesAt_item hptr hpointers.1 ?_
    have hbits : ElementSize.pointer.bits = 64 := rfl
    have hwords := (ElementSize.totalWords_of_bits_le (Nat.le_of_eq hbits) len).1
    rw [U29.new_eq_some.1 hnew, hpointers.1, hwords, hbits] at hk
    omega
  · exact within_bind (within_unwrap hpanic _) fun words _ => within_copyWords hundefined _
  · refine within_bind (within_assert hpanic _) fun _ _ => ?_
    cases srcSize with
    | pointer =>
      refine within_forRange fun k hk => ?_
      refine within_bind (within_sectionSlice hundefined _ _ _) fun word _ => ?_
      exact within_ite (fun _ => within_pure _) fun _ => copiesAt_item hptr rfl hk _ _
    | byte | twoBytes | fourBytes | eightBytes => exact within_copyData hpanic hundefined _
    | void | bit | inlineComposite => exact within_halt hpanic

/-- A list that is upgraded is copied from its pointers. -/
lemma within_copyToUpgradedList {srcSize dstSize : ElementSize} {len : ElementCount}
    (hptr : ∀ way slot, (TypedContent.list ⟨src, srcSize, len⟩).follow way = some slot →
      CopiesAt H copyPtr reader slot) :
    Within (copyTerms ε H)
      (copyToUpgradedList copyPtr src reader srcSize dst builder dstSize len) := by
  refine within_ite (fun _ => within_pure _) fun _ => within_ite (fun hsame => ?_) fun _ => ?_
  · exact within_copyList hpanic hundefined (hsame ▸ hptr)
  · cases dstSize with
    | inlineComposite dstSize =>
      cases srcSize with
      | inlineComposite srcSize =>
        exact within_copyInlineComposites hpanic hundefined fun i hi k hk =>
          hptr (.element i k) _ (if_pos ⟨hi, hk⟩)
      | _ => exact within_copyToStructs hpanic hundefined hptr
    | _ => cases srcSize <;> exact within_halt hpanic

omit hpanic hundefined in
/-- Where the copy of a range of a list starts. -/
def rangeStart (src : ℕ) (srcStart : ElementCount) : ElementSize → ℕ
  | .inlineComposite size => src + size.total * srcStart.get % 2 ^ 32
  | _ => src + srcStart.get

/-- A range of a list is copied from its pointers. -/
lemma within_copyToUpgradedListAt {srcSize dstSize : ElementSize} {srcStart dstStart : ElementCount}
    {len : ElementCount}
    (hptr : ∀ way slot,
      (TypedContent.list ⟨rangeStart src srcStart srcSize, srcSize, len⟩).follow way = some slot →
      CopiesAt H copyPtr reader slot) :
    Within (copyTerms ε H) (copyToUpgradedListAt copyPtr src reader srcSize srcStart dst builder
      dstSize dstStart len) := by
  refine within_bind (within_unwrap hpanic _) fun wordCount _ => ?_
  refine within_bind (within_sectionSlice hundefined _ _ _) fun words _ => ?_
  have hslice (size : ℕ) : Within (copyTerms ε H)
      (copyBySlice size words srcStart.get dst dstStart.get len.get) := by
    refine within_bind (within_assert hpanic _) fun _ _ => ?_
    refine within_bind (within_assert hpanic _) fun _ _ => ?_
    exact within_forRange fun k _ => within_setBytes hundefined _ _ _
  have hstructs (size : StructSize) (_ : srcSize.isInlineComposite = false) :
      Within (copyTerms ε H)
        (copyToStructsAt copyPtr src reader srcSize words srcStart dst builder size dstStart len) := by
    refine within_bind (within_unwrap hpanic _) fun dstOffset _ => ?_
    refine within_bind (within_assert hpanic _) fun _ _ => ?_
    cases srcSize with
    | pointer => exact within_forRange fun k hk => hptr (.item k) _ (if_pos hk) _ _
    | byte | twoBytes | fourBytes | eightBytes =>
      refine within_bind (within_assert hpanic _) fun _ _ => ?_
      exact within_forRange fun k _ => within_setBytes hundefined _ _ _
    | void | bit | inlineComposite => exact within_halt hpanic
  cases srcSize with
  | void => exact within_pure _
  | bit =>
    cases dstSize with
    | bit =>
      refine within_forRange fun k _ => ?_
      refine within_bind (within_assert hpanic _) fun _ _ => ?_
      refine within_bind (within_writing_read hundefined _) fun word _ => ?_
      exact within_setBytes hundefined _ _ _
    | inlineComposite size => exact hstructs size rfl
    | _ => exact within_halt hpanic
  | pointer =>
    cases dstSize with
    | pointer =>
      exact within_copyPtrSection hundefined fun k hk => hptr (.item k) _ (if_pos hk)
    | inlineComposite size => exact hstructs size rfl
    | _ => exact within_halt hpanic
  | inlineComposite size =>
    cases dstSize with
    | inlineComposite dstSize =>
      refine within_bind (within_unwrap hpanic _) fun srcOffset hsrcOffset => ?_
      refine within_bind (within_unwrap hpanic _) fun dstOffset _ => ?_
      obtain ⟨s, s', -, hunwrap⟩ := hsrcOffset
      obtain ⟨hnew, -⟩ := unwrap_eq_ok.1 hunwrap
      rw [rangeStart, ← U29.new_eq_some.1 hnew] at hptr
      exact within_copyInlineComposites hpanic hundefined fun i hi k hk =>
        hptr (.element i k) _ (if_pos ⟨hi, hk⟩)
    | _ => exact within_halt hpanic
  | _ =>
    cases dstSize with
    | inlineComposite size => exact hstructs size rfl
    | _ =>
      dsimp only [copyElementsAt, dataBytes]
      exact within_ite (fun _ => hslice _) fun _ => within_halt hpanic

omit hpanic hundefined in
lemma within_calculateCanonicalStructSize {t : Terms ε CopyState} (ht : t.halts .undefined)
    (size : StructSize) : Within t (calculateCanonicalStructSize reader src size) := by
  refine within_bind (within_sectionSlice ht _ _ _) fun data _ => ?_
  exact within_bind (within_sectionSlice ht _ _ _) fun ptrs _ => within_pure _

lemma within_calculateCanonicalInlineCompositeSize (size : StructSize) (count : ElementCount) :
    Within (copyTerms ε H) (calculateCanonicalInlineCompositeSize reader src size count) := by
  refine within_bind (within_assert hpanic _) fun _ _ => ?_
  induction count.get with
  | zero => exact within_pure _
  | succ count ih =>
    refine within_bind ih fun smaller _ => ?_
    refine within_bind (within_calculateCanonicalStructSize hundefined _) fun last _ => ?_
    exact within_pure _

omit hpanic hundefined in
/-- What is read for a copy is read without a limiter. -/
lemma of_reading {α : Type} {x : ReadM α} (hx : Within (readTerms fun limiter => limiter = none) x) {s s' : CopyState}
    (hs : s.limiter = none) {a : α} (h : (reading x : CopyM ε _) s = .ok (.ok a) s') :
    x none = .ok a none := by
  obtain ⟨limiter, hrun, -⟩ := zoom_eq_ok.1 h
  rw [hs] at hrun
  have hx' := attempt_eq_ok.1 hrun
  obtain rfl : limiter = none := hx.ok rfl hx'
  exact hx'

omit hpanic hundefined in
lemma of_reading_error {α : Type} {x : ReadM α} (hx : Within (readTerms fun limiter => limiter = none) x) {s s' : CopyState}
    (hs : s.limiter = none) {err : Error}
    (h : (reading x : CopyM ε _) s = .ok (.error err) s') : err ≠ .nestingLimitExceeded :=
  err_of_zoom_attempt hx hs h

omit hpanic hundefined in
lemma within_alloc_error {α : Type} (machine : CopyMachine ε) {x : BuildM α}
    (hx : Within (buildTerms H) x) {s s' : CopyState} {err : Error}
    (h : (building x : CopyM ε _) s = .ok (.error err) s') :
    Within (copyTerms ε H) (machine.handleErr err) :=
  within_handleErr machine (err_of_zoom_attempt hx trivial h)

/-- **What the copy of a pointer comes to** is what the copies of the pointers below it come to. -/
lemma within_copyPtr {machine : CopyMachine ε} (htables : machine.TableErrors) {depth : ℕ}
    (hslots : ∀ reader' typed, reader.tryReadTyped src none = .ok (reader', typed) none →
      ∀ way slot, typed.follow way = some slot → CopiesAt H (machine.copyPtr depth) reader' slot) :
    CopiesAt H (machine.copyPtr (depth + 1)) reader src := by
  intro dst builder
  have htyped := within_tryReadTyped spends_none reader src
  refine within_bind (within_reading htyped) fun result hresult => ?_
  obtain ⟨s, s', hs, hrun⟩ := hresult
  rcases result with err | ⟨reader', typed⟩
  · exact within_handleErr machine (of_reading_error htyped hs.1 hrun)
  · have hslots' := hslots reader' typed (of_reading htyped hs.1 hrun)
    cases typed with
    | struct content =>
      have hfield (k : ℕ) (hk : k < content.size.ptrs) :
          CopiesAt H (machine.copyPtr depth) reader' (content.ptr + content.size.data + k) :=
        hslots' (.field k) _ (if_pos hk)
      refine within_bind (within_ite (fun _ => ?_) fun _ => within_pure _) fun dstSize _ => ?_
      · exact within_calculateCanonicalStructSize hundefined _
      · have halloc := within_allocStruct builder (buildTerms_builds hpanic hundefined) dst dstSize
        refine within_bind (within_building halloc) fun alloc hrun => ?_
        obtain ⟨s, s', -, hrun⟩ := hrun
        rcases alloc with err | ⟨dst', builder'⟩
        · exact within_alloc_error machine halloc hrun
        · exact within_copyStruct hundefined hfield
    | list content =>
      obtain ⟨pos, size, count⟩ := content
      have hlist : Within (copyTerms ε H)
          (machine.copyListContent (machine.copyPtr depth) reader' ⟨pos, size, count⟩ dst builder) := by
        have halloc := within_allocList builder (buildTerms_builds hpanic hundefined) dst size count
        refine within_bind (within_building halloc) fun alloc hrun => ?_
        obtain ⟨s, s', -, hrun⟩ := hrun
        rcases alloc with err | ⟨dst', totalSize, builder'⟩
        · exact within_alloc_error machine halloc hrun
        · exact within_ite (fun _ => within_pure _) fun _ =>
            within_copyList hpanic hundefined hslots'
      cases size with
      | inlineComposite size =>
        dsimp only
        rcases machine.canonical with _ | _
        · exact hlist
        · refine within_bind (within_calculateCanonicalInlineCompositeSize hpanic hundefined _ _)
            fun dstSize _ => ?_
          have halloc := within_allocList builder (buildTerms_builds hpanic hundefined) dst (.inlineComposite dstSize)
            count
          refine within_bind (within_building halloc) fun alloc hrun => ?_
          obtain ⟨s, s', -, hrun⟩ := hrun
          rcases alloc with err | ⟨dst', totalSize, builder'⟩
          · exact within_alloc_error machine halloc hrun
          · refine within_ite (fun _ => within_pure _) fun _ => ?_
            exact within_copyInlineComposites hpanic hundefined fun i hi k hk =>
              hslots' (.element i k) _ (if_pos ⟨hi, hk⟩)
      | _ => exact hlist
    | capability index =>
      refine within_ite (fun _ => within_handleErr machine (by rintro ⟨⟩)) fun _ => ?_
      refine within_bind within_get fun s _ => ?_
      refine within_bind (within_modify fun _ hs => hs) fun _ _ => ?_
      rcases hcap : machine.copyCap s.caps index with err | (_ | newIndex)
      · refine within_handleErr machine ?_
        rcases htables _ _ _ hcap with rfl | rfl
        · rintro ⟨⟩
        · rintro ⟨⟩
      · exact within_pure _
      · exact within_writing_section hundefined _ _ _

end Copying

/-! ## What a comparison may come to -/

/-- Comparing messages without limiters. -/
def equalityTerms (H : Halt → Prop) : Prog.Terms Error (Limiter × Limiter) :=
  ⟨fun s => s = (none, none), fun e => e ≠ .nestingLimitExceeded, H⟩

section Comparing

open Equality Prog

variable {H : Halt → Prop} (hpanic : H .panic) (hundefined : H .undefined)

lemma within_readingOurs {α : Type} {x : ReadM α} (hx : Within (readTerms fun limiter => limiter = none) x) :
    Within (equalityTerms H) (readingOurs x) :=
  within_zoom hx (fun _ hs => hs ▸ rfl) (fun _ _ hs hv => by rw [hs, hv]; rfl) (fun _ he => he)
    fun _ => False.elim

lemma within_readingTheirs {α : Type} {x : ReadM α} (hx : Within (readTerms fun limiter => limiter = none) x) :
    Within (equalityTerms H) (readingTheirs x) :=
  within_zoom hx (fun _ hs => hs ▸ rfl) (fun _ _ hs hv => by rw [hs, hv]; rfl) (fun _ he => he)
    fun _ => False.elim

lemma within_cmpAll {n : ℕ} {cmp : ℕ → EqualityM PtrEquality}
    (hcmp : ∀ k < n, Within (equalityTerms H) (cmp k)) : Within (equalityTerms H) (cmpAll n cmp) := by
  induction n with
  | zero => exact within_pure _
  | succ n ih =>
    refine within_bind (ih fun k hk => hcmp k (Nat.lt_succ_of_lt hk)) fun equality _ => ?_
    refine within_ite (fun _ => within_pure _) fun _ => ?_
    refine within_bind (hcmp n (Nat.lt_succ_self n)) fun last _ => ?_
    exact within_ite (fun _ => within_pure _) fun _ => within_pure _

/-- Comparing the pointers at two places stays within the terms. -/
def ComparesAt (H : Halt → Prop) (cmpPtr : CmpPtr) (ours : ObjectReader) (ourSlot : ℕ)
    (theirs : ObjectReader) (theirSlot : ℕ) : Prop :=
  Within (equalityTerms H) (cmpPtr ourSlot ours theirSlot theirs)

variable {cmpPtr : CmpPtr} {ourReader theirReader : ObjectReader}

include hundefined

lemma within_cmpStruct {ours theirs : StructContent}
    (hptr : ∀ k < ours.size.ptrs, k < theirs.size.ptrs →
      ComparesAt H cmpPtr ourReader (ours.ptrsStart + k) theirReader (theirs.ptrsStart + k)) :
    Within (equalityTerms H) (cmpStruct cmpPtr ours ourReader theirs theirReader) := by
  refine within_bind (within_sectionSlice hundefined _ _ _) fun ourData _ => ?_
  refine within_bind (within_sectionSlice hundefined _ _ _) fun theirData _ => ?_
  refine within_ite (fun _ => ?_) fun _ => within_pure _
  exact within_cmpAll fun k hk =>
    hptr k (Nat.lt_of_lt_of_le hk (Nat.min_le_left _ _)) (Nat.lt_of_lt_of_le hk (Nat.min_le_right _ _))

include hpanic

lemma within_cmpData {ours theirs : ListContent} {same : (ℕ → Word) → (ℕ → Word) → Bool} :
    Within (equalityTerms H) (cmpData ours ourReader theirs theirReader same) := by
  refine within_bind (within_unwrap hpanic _) fun words _ => ?_
  refine within_bind (within_sectionSlice hundefined _ _ _) fun ourWords _ => ?_
  refine within_bind (within_sectionSlice hundefined _ _ _) fun theirWords _ => ?_
  exact within_ite (fun _ => within_pure _) fun _ => within_pure _

lemma within_cmpList {ours theirs : ListContent}
    (hptr : ∀ way ourSlot theirSlot, (TypedContent.list ours).follow way = some ourSlot →
      (TypedContent.list theirs).follow way = some theirSlot →
      ComparesAt H cmpPtr ourReader ourSlot theirReader theirSlot) :
    Within (equalityTerms H) (cmpList cmpPtr ours ourReader theirs theirReader) := by
  refine within_ite (fun _ => within_pure _) fun hcount => ?_
  refine within_ite (fun _ => within_pure _) fun hsizes => ?_
  refine within_ite (fun _ => within_pure _) fun _ => ?_
  have hcount' : ours.elementCount = theirs.elementCount := Decidable.not_not.1 hcount
  have hsizes' : ours.elementSize.asPtrSize = theirs.elementSize.asPtrSize :=
    Decidable.not_not.1 hsizes
  obtain ⟨ourPos, ourSize, count⟩ := ours
  obtain ⟨theirPos, theirSize, count'⟩ := theirs
  obtain rfl : count = count' := hcount'
  cases ourSize with
  | void => exact within_pure _
  | pointer =>
    cases theirSize with
    | pointer =>
      exact within_cmpAll fun k hk => hptr (.item k) _ _ (if_pos hk) (if_pos hk)
    | _ => cases hsizes'
  | inlineComposite ourSize =>
    cases theirSize with
    | inlineComposite theirSize =>
      refine within_bind (within_assert hpanic _) fun _ _ => ?_
      refine within_bind (within_assert hpanic _) fun _ _ => ?_
      refine within_cmpAll fun i hi => ?_
      exact within_cmpStruct hundefined fun k hour htheir =>
        hptr (.element i k) _ _ (if_pos ⟨hi, hour⟩) (if_pos ⟨hi, htheir⟩)
    | _ => cases hsizes'
  | _ => exact within_cmpData hpanic hundefined

omit hpanic hundefined in
/-- What is read for a comparison is read without a limiter. -/
lemma of_zoom {α : Type} {x : ReadM α} (hx : Within (readTerms fun limiter => limiter = none) x)
    {view : Limiter × Limiter → Limiter} {put : Limiter × Limiter → Limiter → Limiter × Limiter}
    {s s' : Limiter × Limiter} (hs : view s = none) {a : α} (h : zoom view put x s = .ok a s') :
    x none = .ok a none := by
  obtain ⟨limiter, hrun, -⟩ := zoom_eq_ok.1 h
  rw [hs] at hrun
  obtain rfl : limiter = none := hx.ok rfl hrun
  exact hrun

/-- **What the comparison of two pointers comes to** is what the comparisons of the pointers below
them come to. -/
lemma within_cmpPtr {depth ourSrc theirSrc : ℕ}
    (hslots : ((ourReader.word ourSrc).isNull && (theirReader.word theirSrc).isNull) = false →
      ∀ ours ourTyped theirs theirTyped,
      ourReader.tryReadTyped ourSrc none = .ok (ours, ourTyped) none →
      theirReader.tryReadTyped theirSrc none = .ok (theirs, theirTyped) none →
      ∀ way ourSlot theirSlot, ourTyped.follow way = some ourSlot →
        theirTyped.follow way = some theirSlot →
        ComparesAt H (Equality.cmpPtr depth) ours ourSlot theirs theirSlot) :
    ComparesAt H (Equality.cmpPtr (depth + 1)) ourReader ourSrc theirReader theirSrc := by
  have hours := within_tryReadTyped spends_none ourReader ourSrc
  have htheirs := within_tryReadTyped spends_none theirReader theirSrc
  refine within_ite (fun _ => within_pure _) fun hnull => ?_
  have hsome := Bool.eq_false_iff.2 hnull
  refine within_bind (within_readingOurs hours) fun ourResult hourRun => ?_
  refine within_bind (within_readingTheirs htheirs) fun theirResult htheirRun => ?_
  obtain ⟨ourReader', ourTyped⟩ := ourResult
  obtain ⟨theirReader', theirTyped⟩ := theirResult
  obtain ⟨s, _, rfl, hourRun⟩ := hourRun
  obtain ⟨t, _, rfl, htheirRun⟩ := htheirRun
  have hptr := hslots hsome _ _ _ _ (of_zoom hours rfl hourRun) (of_zoom htheirs rfl htheirRun)
  cases ourTyped with
  | struct ourContent =>
    cases theirTyped with
    | struct theirContent =>
      exact within_cmpStruct hundefined fun k hour htheir =>
        hptr (.field k) _ _ (if_pos hour) (if_pos htheir)
    | _ => exact within_pure _
  | list ourContent =>
    cases theirTyped with
    | list theirContent => exact within_cmpList hpanic hundefined hptr
    | _ => exact within_pure _
  | capability =>
    cases theirTyped with
    | _ => exact within_pure _

end Comparing

end Recapn.Ptr

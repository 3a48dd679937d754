/-
# The traversal limit

All reads of a message charge one limiter.  What they hand out, in words, with the landing pads
on the way and one word for every element of a list whose elements have no size, never adds up
to more than the limit.
-/
import Recapn.Ptr.Bounds
import Recapn.Ptr.Readers

namespace Recapn.Ptr

open Recapn.Lib Recapn.Lib.Prog
open ObjectReader

/-! ## No read gives anything back -/

namespace Limiter

/-- What is left is not more than before. -/
def Shrinks : Limiter → Limiter → Prop
  | none, none => True
  | some limit, some limit' => limit' ≤ limit
  | _, _ => False

lemma shrinks_refl (limiter : Limiter) : limiter.Shrinks limiter := by
  rcases limiter with _ | limit
  · trivial
  · exact Nat.le_refl limit

lemma shrinks_trans (a b c : Limiter) (hab : a.Shrinks b) (hbc : b.Shrinks c) : a.Shrinks c := by
  rcases a with _ | a <;> rcases b with _ | b <;> rcases c with _ | c
  all_goals first
    | trivial
    | exact hab.elim
    | exact hbc.elim
    | exact Nat.le_trans hbc hab

end Limiter

/-- The program never raises what is left of the limit. -/
abbrev Frugal {α : Type} (x : ReadM α) : Prop := Prog.Keeps Limiter.Shrinks x

section Frugal

variable {α β : Type}

lemma frugal_pure (a : α) : Frugal (pure a) := keeps_pure Limiter.shrinks_refl a

lemma frugal_throw (e : Error) : Frugal (Prog.throw e : ReadM α) :=
  keeps_throw Limiter.shrinks_refl e

lemma frugal_okOr (e : Error) (o : Option α) : Frugal (Prog.okOr e o) :=
  keeps_okOr Limiter.shrinks_refl e o

lemma frugal_unwrap (o : Option α) : Frugal (Prog.unwrap o) :=
  keeps_unwrap Limiter.shrinks_refl o

lemma frugal_bind {x : ReadM α} {f : α → ReadM β} (hx : Frugal x) (hf : ∀ a, Frugal (f a)) :
    Frugal (x >>= f) :=
  keeps_bind Limiter.shrinks_trans hx hf

lemma frugal_tryAmplifiedRead (words : ℕ) : Frugal (tryAmplifiedRead words) := by
  intro limiter
  rcases limiter with _ | limit
  · trivial
  · show (ReadLimiter.tryRead limit words).2 ≤ limit
    rw [ReadLimiter.tryRead]
    split
    · exact Nat.sub_le _ _
    · exact Nat.le_refl _

lemma frugal_limitRead (words : ℕ) : Frugal (limitRead words) := by
  refine frugal_bind (frugal_tryAmplifiedRead words) fun read => ?_
  exact keeps_ite (frugal_pure ()) (frugal_throw _)

variable (self : ObjectReader)

lemma frugal_tryReadObjectIn (segment : SegmentId) (offset : SegmentOffset) (len : ObjectLen) :
    Frugal (self.tryReadObjectIn segment offset len) := by
  refine frugal_bind (frugal_okOr _ _) fun reader => ?_
  refine frugal_bind (frugal_okOr _ _) fun ptr => ?_
  exact frugal_bind (frugal_limitRead _) fun _ => frugal_pure _

lemma frugal_tryReadObjectFromEndOf (ptr : ℕ) (offset : SignedSegmentOffset) (len : ObjectLen) :
    Frugal (self.tryReadObjectFromEndOf ptr offset len) := by
  have hend (newPtr : ℕ) : Frugal (limitRead len.get >>= fun _ => pure newPtr) :=
    frugal_bind (frugal_limitRead _) fun _ => frugal_pure _
  rcases self with ⟨segment | memory⟩
  · exact frugal_bind (frugal_okOr _ _) hend
  · exact hend _

lemma frugal_readAtLocation (location : Location) (offset : SignedSegmentOffset) (len : ObjectLen) :
    Frugal (self.readAtLocation location offset len) := by
  cases location with
  | near origin | far origin =>
    exact frugal_bind (frugal_tryReadObjectFromEndOf self _ _ _) fun _ => frugal_pure _
  | doubleFar segment offset => exact frugal_tryReadObjectIn self _ _ _

lemma frugal_locationOf (src : ℕ) : Frugal (self.locationOf src) := by
  refine keeps_ite ?_ (frugal_pure _)
  refine frugal_bind (frugal_tryReadObjectIn self _ _ _) fun pad => ?_
  refine keeps_ite ?_ (frugal_pure _)
  exact frugal_bind (keeps_ite (frugal_pure _) (frugal_throw _)) fun _ => frugal_pure _

lemma frugal_readAsStructContent (location : Location) (ptr : WirePtr) :
    Frugal (self.readAsStructContent location ptr) :=
  frugal_bind (frugal_readAtLocation self _ _ _) fun _ => frugal_pure _

lemma frugal_checkUpgrade (ptrElement : PtrElementSize) (size : ElementSize)
    (expected : Option PtrElementSize) : Frugal (checkUpgrade ptrElement size expected) := by
  rcases expected with _ | expected
  · exact frugal_pure _
  · exact keeps_ite (frugal_pure _) (frugal_throw _)

lemma frugal_readAsListContent (location : Location) (ptr : WirePtr)
    (expected : Option PtrElementSize) :
    Frugal (self.readAsListContent location ptr expected) := by
  refine keeps_ite ?_ ?_
  · refine frugal_bind (frugal_okOr _ _) fun len => ?_
    refine frugal_bind (frugal_readAtLocation self _ _ _) fun tag => ?_
    refine keeps_ite ?_ (frugal_throw _)
    refine frugal_bind (frugal_checkUpgrade _ _ _) fun _ => ?_
    refine keeps_ite (frugal_throw _) ?_
    exact frugal_bind (keeps_ite (frugal_limitRead _) (frugal_pure _)) fun _ => frugal_pure _
  · refine frugal_bind (frugal_checkUpgrade _ _ _) fun _ => ?_
    refine frugal_bind (keeps_ite (frugal_limitRead _) (frugal_pure _)) fun _ => ?_
    refine frugal_bind (frugal_unwrap _) fun len => ?_
    exact frugal_bind (frugal_readAtLocation self _ _ _) fun _ => frugal_pure _

lemma frugal_tryReadTyped (src : ℕ) : Frugal (self.tryReadTyped src) := by
  refine frugal_bind (frugal_locationOf self src) ?_
  rintro ⟨self', content⟩
  dsimp only
  split
  · exact frugal_bind (frugal_readAsStructContent _ _ _) fun _ => frugal_pure _
  · exact frugal_bind (frugal_readAsListContent _ _ _ _) fun _ => frugal_pure _
  · exact frugal_bind (keeps_ite (frugal_pure _) (frugal_throw _)) fun _ => frugal_pure _
  · exact frugal_throw _

lemma frugal_tryReadStruct (src : ℕ) : Frugal (self.tryReadStruct src) := by
  refine frugal_bind (frugal_locationOf self src) fun content => ?_
  refine frugal_bind (keeps_ite (frugal_pure _) (frugal_throw _)) fun ptr => ?_
  exact frugal_readAsStructContent _ _ _

lemma frugal_tryReadList (src : ℕ) (expected : Option PtrElementSize) :
    Frugal (self.tryReadList src expected) := by
  refine frugal_bind (frugal_locationOf self src) fun content => ?_
  refine frugal_bind (keeps_ite (frugal_pure _) (frugal_throw _)) fun ptr => ?_
  exact frugal_readAsListContent _ _ _ _

end Frugal

/-! ## Limits only refuse -/

/-- What the program returns without a limit, it returns with any, unless the limit is exceeded. -/
def OnlyRefuses {α : Type} (x : ReadM α) : Prop :=
  ∀ v s, x none = .ok v s → s = none ∧ ∀ limiter : Limiter,
    (∃ limiter', x limiter = .ok v limiter') ∨ ∃ limiter', x limiter = .error .readLimitExceeded limiter'

section OnlyRefuses

variable {α β : Type}

lemma onlyRefuses_pure (a : α) : OnlyRefuses (pure a) := by
  rintro v s ⟨⟩
  exact ⟨rfl, fun limiter => Or.inl ⟨limiter, rfl⟩⟩

lemma onlyRefuses_throw (e : Error) : OnlyRefuses (Prog.throw e : ReadM α) := fun _ _ h => nomatch h

lemma onlyRefuses_okOr (e : Error) (o : Option α) : OnlyRefuses (Prog.okOr e o) := by
  rcases o with _ | a
  · exact onlyRefuses_throw e
  · exact onlyRefuses_pure a

lemma onlyRefuses_unwrap (o : Option α) : OnlyRefuses (Prog.unwrap o) := by
  rcases o with _ | a
  · exact fun _ _ h => nomatch h
  · exact onlyRefuses_pure a

lemma onlyRefuses_bind {x : ReadM α} {f : α → ReadM β} (hx : OnlyRefuses x)
    (hf : ∀ a, OnlyRefuses (f a)) : OnlyRefuses (x >>= f) := by
  intro v s hrun
  obtain ⟨a, s₁, hfirst, hrest⟩ := bind_eq_ok.1 hrun
  obtain ⟨rfl, hfirst'⟩ := hx a s₁ hfirst
  obtain ⟨rfl, hrest'⟩ := hf a v s hrest
  refine ⟨rfl, fun limiter => ?_⟩
  rcases hfirst' limiter with ⟨limiter', hok⟩ | ⟨limiter', herror⟩
  · rw [bind_of_ok hok]
    exact hrest' limiter'
  · exact Or.inr ⟨limiter', bind_of_error herror⟩

lemma onlyRefuses_ite {p : Prop} {inst : Decidable p} {x y : ReadM α} (hx : OnlyRefuses x)
    (hy : OnlyRefuses y) : OnlyRefuses (if p then x else y) := by
  by_cases hp : p
  · rw [if_pos hp]
    exact hx
  · rw [if_neg hp]
    exact hy

lemma onlyRefuses_limitRead (words : ℕ) : OnlyRefuses (limitRead words) := by
  rintro ⟨⟩ s ⟨⟩
  refine ⟨rfl, fun limiter => ?_⟩
  rcases limiter with _ | limit
  · exact Or.inl ⟨none, rfl⟩
  · by_cases hle : words ≤ limit
    · refine Or.inl ⟨some (limit - words), ?_⟩
      simp [limitRead, tryAmplifiedRead, ReadLimiter.tryRead, hle, bind_apply]
    · refine Or.inr ⟨some limit, ?_⟩
      simp [limitRead, tryAmplifiedRead, ReadLimiter.tryRead, hle, bind_apply]

variable (self : ObjectReader)

lemma onlyRefuses_tryReadObjectIn (segment : SegmentId) (offset : SegmentOffset) (len : ObjectLen) :
    OnlyRefuses (self.tryReadObjectIn segment offset len) := by
  refine onlyRefuses_bind (onlyRefuses_okOr _ _) fun reader => ?_
  refine onlyRefuses_bind (onlyRefuses_okOr _ _) fun ptr => ?_
  exact onlyRefuses_bind (onlyRefuses_limitRead _) fun _ => onlyRefuses_pure _

lemma onlyRefuses_readAtLocation (location : Location) (offset : SignedSegmentOffset)
    (len : ObjectLen) : OnlyRefuses (self.readAtLocation location offset len) := by
  have hlimit (newPtr : ℕ) : OnlyRefuses (limitRead len.get >>= fun _ => pure newPtr) :=
    onlyRefuses_bind (onlyRefuses_limitRead _) fun _ => onlyRefuses_pure _
  have hend (origin : ℕ) : OnlyRefuses (self.tryReadObjectFromEndOf origin offset len) := by
    rcases self with ⟨segment | memory⟩
    · exact onlyRefuses_bind (onlyRefuses_okOr _ _) hlimit
    · exact hlimit _
  cases location with
  | near origin | far origin => exact onlyRefuses_bind (hend origin) fun _ => onlyRefuses_pure _
  | doubleFar segment offset => exact onlyRefuses_tryReadObjectIn self _ _ _

lemma onlyRefuses_locationOf (src : ℕ) : OnlyRefuses (self.locationOf src) := by
  refine onlyRefuses_ite ?_ (onlyRefuses_pure _)
  refine onlyRefuses_bind (onlyRefuses_tryReadObjectIn self _ _ _) fun pad => ?_
  refine onlyRefuses_ite ?_ (onlyRefuses_pure _)
  exact onlyRefuses_bind (onlyRefuses_ite (onlyRefuses_pure _) (onlyRefuses_throw _)) fun _ =>
    onlyRefuses_pure _

lemma onlyRefuses_readAsListContent (location : Location) (ptr : WirePtr) :
    OnlyRefuses (self.readAsListContent location ptr none) := by
  refine onlyRefuses_ite ?_ ?_
  · refine onlyRefuses_bind (onlyRefuses_okOr _ _) fun len => ?_
    refine onlyRefuses_bind (onlyRefuses_readAtLocation self _ _ _) fun tag => ?_
    refine onlyRefuses_ite ?_ (onlyRefuses_throw _)
    refine onlyRefuses_bind (onlyRefuses_pure _) fun _ => ?_
    refine onlyRefuses_ite (onlyRefuses_throw _) ?_
    exact onlyRefuses_bind (onlyRefuses_ite (onlyRefuses_limitRead _) (onlyRefuses_pure _)) fun _ =>
      onlyRefuses_pure _
  · refine onlyRefuses_bind (onlyRefuses_pure _) fun _ => ?_
    refine onlyRefuses_bind (onlyRefuses_ite (onlyRefuses_limitRead _) (onlyRefuses_pure _)) fun _ => ?_
    refine onlyRefuses_bind (onlyRefuses_unwrap _) fun len => ?_
    exact onlyRefuses_bind (onlyRefuses_readAtLocation self _ _ _) fun _ => onlyRefuses_pure _

/-- With a limit, an object is read as without one, or the limit is exceeded. -/
lemma onlyRefuses_tryReadTyped (src : ℕ) : OnlyRefuses (self.tryReadTyped src) := by
  refine onlyRefuses_bind (onlyRefuses_locationOf self src) ?_
  rintro ⟨self', content⟩
  dsimp only
  split
  · exact onlyRefuses_bind (onlyRefuses_bind (onlyRefuses_readAtLocation _ _ _ _) fun _ =>
      onlyRefuses_pure _) fun _ => onlyRefuses_pure _
  · exact onlyRefuses_bind (onlyRefuses_readAsListContent _ _ _) fun _ => onlyRefuses_pure _
  · exact onlyRefuses_bind (onlyRefuses_ite (onlyRefuses_pure _) (onlyRefuses_throw _)) fun _ =>
      onlyRefuses_pure _
  · exact onlyRefuses_throw _

end OnlyRefuses

/-! ## What reads hand out -/

/-- The words of a list with its tag, and one for every element when elements have no size. -/
def listWords (size : ElementSize) (count : ElementCount) : ℕ :=
  (size.bits * count.get + 63) / 64 + (if size.isInlineComposite then 1 else 0)
    + if size.bits = 0 then count.get else 0

/-- The words of an object. -/
def TypedContent.words : TypedContent → ℕ
  | .struct content => content.size.total
  | .list content => listWords content.elementSize content.elementCount
  | .capability _ => 0

/-- The words of a struct. -/
def StructReader.words (self : StructReader) : ℕ := self.dataLen / 8 + self.ptrsLen

/-- The words of a list. -/
def ListReader.words (self : ListReader) : ℕ := listWords self.elementSize self.elementCount

/-- The words of a blob. -/
def BlobReader.words (self : BlobReader) : ℕ := (self.elementCount.get + 7) / 8

/-- The words of the landing pads that a pointer is followed over. -/
def PtrReader.padWords (self : PtrReader) : ℕ :=
  if self.wirePtr.kind = .far then (if FarPtr.doubleFar self.wirePtr then 2 else 1) else 0

/-- The reads that are made of a pointer: the ones of its reader, and the one that sizes, copies
and comparisons of whole object trees are made of. -/
inductive Request where
  | ptrType
  | toStruct
  | toList (expectedElementSize : Option PtrElementSize)
  | toBlob
  | typed

/-- Make a read.  What it returns is the number of words of the object it hands out. -/
def Request.read (self : PtrReader) : Request → ReadM ℕ
  | .ptrType => do
    let _ ← self.ptrType
    pure 0
  | .toStruct => do
    let object ← self.toStruct
    pure (object.elim 0 StructReader.words)
  | .toList expectedElementSize => do
    let object ← self.toList expectedElementSize
    pure (object.elim 0 ListReader.words)
  | .toBlob => do
    let object ← self.toBlob
    pure (object.elim 0 BlobReader.words)
  | .typed => do
    let (_, object) ← self.reader.tryReadTyped self.ptr
    pure object.words

/-- The reader stands in a segment of the arena. -/
def PtrReader.StandsIn (self : PtrReader) (arena : ReadArena) : Prop :=
  ∃ id segment, arena id = some segment ∧ self.reader = inSegment arena id segment

/-- Make reads one after the other, successful or not: the words that they hand out and the
words of the landing pads they follow, and what is left of the limit. -/
def spend : List (PtrReader × Request) → Limiter → ℕ × Limiter
  | [], limiter => (0, limiter)
  | (reader, request) :: requests, limiter =>
    match request.read reader limiter with
    | .ok words limiter =>
      let (total, limiter) := spend requests limiter
      (reader.padWords + words + total, limiter)
    | .error _ limiter => spend requests limiter
    | .halt _ => (0, limiter)

/-! ## Each read is charged for what it hands out -/

lemma Locates.pads_eq {arena : ReadArena} {id id' : SegmentId} {segment : Segment} {src pads n : ℕ}
    {content : Content} (hsegment : arena id = some segment)
    (h : Locates arena id src id' content pads) :
    pads = PtrReader.padWords ⟨src, inSegment arena id segment, n⟩ := by
  show pads = if WirePtr.kind (segment.data src) = .far then
    (if FarPtr.doubleFar (segment.data src) then 2 else 1) else 0
  rcases h with ⟨hseg, hkind⟩ | ⟨hseg, hptr, hkind, hdouble, -, -⟩ |
    ⟨hseg, hptr, hkind, hdouble, -, -, -, -⟩
  · obtain rfl := Option.mem_unique hsegment hseg
    rw [if_neg hkind]
  · obtain rfl := Option.mem_unique hsegment hseg
    rw [hptr, if_pos hkind, hdouble]
    rfl
  · obtain rfl := Option.mem_unique hsegment hseg
    rw [hptr, if_pos hkind, hdouble]
    rfl

lemma bits_eq_zero_iff (size : PtrElementSize) (h : size ≠ .inlineComposite) :
    size.toElementSize.bits = 0 ↔ size.toElementSize = .void := by
  cases size <;> first | exact absurd rfl h | decide

lemma isInlineComposite_toElementSize {size : PtrElementSize} (h : size ≠ .inlineComposite) :
    size.toElementSize.isInlineComposite = false := by
  cases size <;> first | exact absurd rfl h | rfl

/-- The cost of an object covers its words. -/
lemma Describes.words_le {arena : ReadArena} {id id' : SegmentId} {content : Content}
    {typed : TypedContent} {cost : ℕ} (h : Describes arena id content id' typed cost) :
    typed.words ≤ cost := by
  cases h with
  | struct => exact Nat.le_refl _
  | @list _ pos size count _ hptrSize hsize _ _ =>
    subst hsize
    have hwords := (ElementSize.totalWords_of_bits_le
      (ElementSize.bits_le_of_ptr (ListPtr.elementSize content.ptr)) count).1
    show listWords _ count ≤ _
    rw [listWords, isInlineComposite_toElementSize hptrSize, hwords]
    by_cases hvoid : (ListPtr.elementSize content.ptr).toElementSize = .void
    · rw [if_pos ((bits_eq_zero_iff _ hptrSize).2 hvoid), if_pos hvoid]
      exact Nat.le_refl _
    · rw [if_neg fun hbits => hvoid ((bits_eq_zero_iff _ hptrSize).1 hbits), if_neg hvoid]
      exact Nat.le_refl _
  | @inlineComposite _ _ pos wordCount tag _ _ _ _ _ _ _ _ hfits =>
    show listWords (.inlineComposite (StructPtr.size tag)) _ ≤ _
    have hbits : ((StructPtr.size tag).total * 64
        * (StructPtr.inlineCompositeElementCount tag).get + 63) / 64
        = (StructPtr.inlineCompositeElementCount tag).get * (StructPtr.size tag).total := by
      rw [Nat.mul_right_comm, Nat.mul_comm (StructPtr.size tag).total]
      omega
    rw [listWords]
    show ((StructPtr.size tag).total * 64 * _ + 63) / 64 + 1 + _ ≤ _
    have hzero : (ElementSize.inlineComposite (StructPtr.size tag)).bits = 0
        ↔ (StructPtr.size tag).total = 0 := by
      show (StructPtr.size tag).total * 64 = 0 ↔ _
      omega
    rw [hbits]
    simp only [hzero]
    omega
  | capability => exact Nat.zero_le _

/-- A read of so many words was charged for them. -/
def Charged (limiter : Limiter) (words : ℕ) (limiter' : Limiter) : Prop :=
  ∃ cost, words ≤ cost ∧ limiter.charge cost = some limiter'

lemma Charged.mono {limiter limiter' : Limiter} {m n : ℕ} (h : Charged limiter n limiter')
    (hle : m ≤ n) : Charged limiter m limiter' := by
  obtain ⟨cost, hcost, hcharge⟩ := h
  exact ⟨cost, Nat.le_trans hle hcost, hcharge⟩

section Charged

variable {arena : ReadArena} {self : PtrReader} {limiter limiter' : Limiter}

lemma charged_of_describes {id id' mid : SegmentId} {segment : Segment} {content : Content}
    {typed : TypedContent} {pads cost : ℕ} {limiter₁ : Limiter} (hsegment : arena id = some segment)
    (hreader : self.reader = inSegment arena id segment)
    (hlocates : Locates arena id self.ptr mid content pads)
    (hdescribes : Describes arena mid content id' typed cost)
    (hpads : limiter.charge pads = some limiter₁) (hcost : limiter₁.charge cost = some limiter') :
    Charged limiter (self.padWords + typed.words) limiter' := by
  have hpadWords : pads = self.padWords := by
    rw [hlocates.pads_eq hsegment (n := self.nestingLimit), ← hreader]
  refine ⟨pads + cost, ?_, (Limiter.charge_add _ _).2 ⟨limiter₁, hpads, hcost⟩⟩
  have hwords := hdescribes.words_le
  omega

lemma charged_tryReadTyped (hself : self.StandsIn arena) {reader : ObjectReader}
    {typed : TypedContent}
    (h : self.reader.tryReadTyped self.ptr limiter = .ok (reader, typed) limiter') :
    Charged limiter (self.padWords + typed.words) limiter' := by
  obtain ⟨id, segment, hsegment, hreader⟩ := hself
  rw [hreader] at h
  obtain ⟨id', segment', cost, -, -, ⟨mid, content, pads, words, hlocates, hdescribes, rfl⟩,
    hcharge⟩ := (tryReadTyped_eq_ok hsegment).1 h
  obtain ⟨limiter₁, hpads, hwords⟩ := (Limiter.charge_add _ _).1 hcharge
  exact charged_of_describes hsegment hreader hlocates hdescribes hpads hwords

lemma charged_tryReadStruct (hself : self.StandsIn arena) {reader : ObjectReader}
    {object : StructContent}
    (h : self.reader.tryReadStruct self.ptr limiter = .ok (reader, object) limiter') :
    Charged limiter (self.padWords + object.size.total) limiter' :=
  charged_tryReadTyped hself (tryReadStruct_eq_ok.1 h)

lemma charged_tryReadList (hself : self.StandsIn arena) {reader : ObjectReader}
    {object : ListContent} {expected : Option PtrElementSize}
    (h : self.reader.tryReadList self.ptr expected limiter = .ok (reader, object) limiter') :
    Charged limiter (self.padWords + listWords object.elementSize object.elementCount) limiter' := by
  obtain ⟨id, segment, hsegment, hreader⟩ := hself
  rw [hreader] at h
  obtain ⟨⟨reader₁, content⟩, limiter₁, hlocation, htry⟩ := bind_eq_ok.1 h
  obtain ⟨mid, segment₁, pads, hsegment₁, rfl, hlocates, hpads⟩ :=
    (locationOf_eq_ok hsegment).1 hlocation
  obtain ⟨ptr, limiter₂, hptr, hread⟩ := bind_eq_ok.1 htry
  rcases ite_eq_ok.1 hptr with ⟨hkind, hpure⟩ | ⟨-, hthrow⟩
  · obtain ⟨rfl, rfl⟩ := pure_eq_ok.1 hpure
    obtain ⟨id', segment', cost, -, -, hdescribes, -, hcharge⟩ :=
      (readAsListContent_eq_ok hsegment₁ hkind).1 hread
    exact charged_of_describes hsegment hreader hlocates hdescribes hpads hcharge
  · exact (throw_eq_ok.1 hthrow).elim

lemma charged_toBlobInner (hself : self.StandsIn arena) {blob : BlobReader}
    (h : self.toBlobInner limiter = .ok blob limiter') :
    Charged limiter (self.padWords + blob.words) limiter' := by
  obtain ⟨id, segment, hsegment, hreader⟩ := hself
  unfold PtrReader.toBlobInner at h
  rw [hreader] at h
  obtain ⟨⟨reader₁, content⟩, limiter₁, hlocation, htry⟩ := bind_eq_ok.1 h
  obtain ⟨mid, segment₁, pads, hsegment₁, rfl, hlocates, hpads⟩ :=
    (locationOf_eq_ok hsegment).1 hlocation
  obtain ⟨ptr, limiter₂, hptr, hread⟩ := bind_eq_ok.1 htry
  rcases ite_eq_ok.1 hptr with ⟨hkind, hpure⟩ | ⟨-, hthrow⟩
  · obtain ⟨rfl, rfl⟩ := pure_eq_ok.1 hpure
    rcases ite_eq_ok.1 hread with ⟨hbyte, hlen⟩ | ⟨-, hthrow⟩
    · obtain ⟨len, _, hunwrap, hat⟩ := bind_eq_ok.1 hlen
      obtain ⟨hnew, rfl⟩ := unwrap_eq_ok.1 hunwrap
      obtain ⟨⟨reader₂, pos⟩, last, hplace, hpure⟩ := bind_eq_ok.1 hat
      obtain ⟨id', segment', -, -, hplaced, hcharge⟩ := (readAtLocation_eq_ok hsegment₁).1 hplace
      obtain ⟨rfl, rfl⟩ := pure_eq_ok.1 hpure
      have hpadWords : pads = self.padWords := by
        rw [hlocates.pads_eq hsegment (n := self.nestingLimit), ← hreader]
      refine ⟨pads + len.get, ?_, (Limiter.charge_add _ _).2 ⟨limiter₁, hpads, hcharge⟩⟩
      rw [U29.new_eq_some.1 hnew, hpadWords]
      exact Nat.le_refl _
    · exact (throw_eq_ok.1 hthrow).elim
  · exact (throw_eq_ok.1 hthrow).elim

/-- A null pointer is not followed. -/
lemma padWords_of_isNull (hnull : self.isNull = true) : self.padWords = 0 := by
  have hkind : self.wirePtr.kind ≠ .far := by
    rw [Word.isNull_iff.1 hnull, WirePtr.kind_null]
    decide
  rw [PtrReader.padWords, if_neg hkind]

lemma charged_null (hnull : self.isNull = true) : Charged limiter (self.padWords + 0) limiter :=
  ⟨0, Nat.le_of_eq (padWords_of_isNull hnull), Limiter.charge_zero _⟩

/-- **Every read is charged for what it hands out**, and for its landing pads. -/
theorem charged_read (hself : self.StandsIn arena) {request : Request} {words : ℕ}
    (h : request.read self limiter = .ok words limiter') :
    Charged limiter (self.padWords + words) limiter' := by
  cases request with
  | ptrType =>
    obtain ⟨ptrType, last, hread, hpure⟩ := bind_eq_ok.1 h
    obtain ⟨rfl, rfl⟩ := pure_eq_ok.1 hpure
    rcases ite_eq_ok.1 hread with ⟨hnull, hpure⟩ | ⟨-, hread⟩
    · obtain ⟨-, rfl⟩ := pure_eq_ok.1 hpure
      exact charged_null hnull
    · obtain ⟨id, segment, hsegment, hreader⟩ := hself
      rw [hreader] at hread
      obtain ⟨⟨reader₁, content⟩, limiter₁, hlocation, hkind⟩ := bind_eq_ok.1 hread
      obtain ⟨mid, segment₁, pads, -, rfl, hlocates, hpads⟩ :=
        (locationOf_eq_ok hsegment).1 hlocation
      have hlast : limiter₁ = last := by
        rcases ite_eq_ok.1 hkind with ⟨-, hpure⟩ | ⟨-, hkind⟩
        · exact (pure_eq_ok.1 hpure).2
        · rcases ite_eq_ok.1 hkind with ⟨-, hpure⟩ | ⟨-, hkind⟩
          · exact (pure_eq_ok.1 hpure).2
          · rcases ite_eq_ok.1 hkind with ⟨-, hpure⟩ | ⟨-, hthrow⟩
            · exact (pure_eq_ok.1 hpure).2
            · exact (throw_eq_ok.1 hthrow).elim
      have hpadWords : pads = self.padWords := by
        rw [hlocates.pads_eq hsegment (n := self.nestingLimit), ← hreader]
      exact ⟨pads, by rw [hpadWords]; exact Nat.le_refl _, hlast ▸ hpads⟩
  | toStruct =>
    obtain ⟨object, last, hread, hpure⟩ := bind_eq_ok.1 h
    obtain ⟨rfl, rfl⟩ := pure_eq_ok.1 hpure
    rcases ite_eq_ok.1 hread with ⟨hnull, hpure⟩ | ⟨-, hread⟩
    · obtain ⟨rfl, rfl⟩ := pure_eq_ok.1 hpure
      exact charged_null hnull
    · obtain ⟨nesting, _, hnesting, hread⟩ := bind_eq_ok.1 hread
      obtain ⟨-, rfl⟩ := okOr_eq_ok.1 hnesting
      obtain ⟨⟨reader₁, content⟩, _, hobject, hpure⟩ := bind_eq_ok.1 hread
      obtain ⟨rfl, rfl⟩ := pure_eq_ok.1 hpure
      refine (charged_tryReadStruct hself hobject).mono ?_
      show _ + (content.size.data * 8 / 8 + content.size.ptrs) ≤ _
      rw [Nat.mul_div_cancel _ (by decide)]
      exact Nat.le_refl _
  | toList expected =>
    obtain ⟨object, last, hread, hpure⟩ := bind_eq_ok.1 h
    obtain ⟨rfl, rfl⟩ := pure_eq_ok.1 hpure
    rcases ite_eq_ok.1 hread with ⟨hnull, hpure⟩ | ⟨-, hread⟩
    · obtain ⟨rfl, rfl⟩ := pure_eq_ok.1 hpure
      exact charged_null hnull
    · obtain ⟨nesting, _, hnesting, hread⟩ := bind_eq_ok.1 hread
      obtain ⟨-, rfl⟩ := okOr_eq_ok.1 hnesting
      obtain ⟨⟨reader₁, content⟩, _, hobject, hpure⟩ := bind_eq_ok.1 hread
      obtain ⟨rfl, rfl⟩ := pure_eq_ok.1 hpure
      exact charged_tryReadList hself hobject
  | toBlob =>
    obtain ⟨object, last, hread, hpure⟩ := bind_eq_ok.1 h
    obtain ⟨rfl, rfl⟩ := pure_eq_ok.1 hpure
    rcases ite_eq_ok.1 hread with ⟨hnull, hpure⟩ | ⟨-, hread⟩
    · obtain ⟨rfl, rfl⟩ := pure_eq_ok.1 hpure
      exact charged_null hnull
    · obtain ⟨blob, _, hobject, hpure⟩ := bind_eq_ok.1 hread
      obtain ⟨rfl, rfl⟩ := pure_eq_ok.1 hpure
      exact charged_toBlobInner hself hobject
  | typed =>
    obtain ⟨⟨reader₁, object⟩, last, hread, hpure⟩ := bind_eq_ok.1 h
    obtain ⟨rfl, rfl⟩ := pure_eq_ok.1 hpure
    exact charged_tryReadTyped hself hread

end Charged

/-- A read, successful or not, never raises what is left. -/
lemma frugal_read (self : PtrReader) (request : Request) : Frugal (request.read self) := by
  cases request with
  | ptrType =>
    refine frugal_bind (keeps_ite (frugal_pure _) ?_) fun _ => frugal_pure _
    refine frugal_bind (frugal_locationOf _ _) fun content => ?_
    refine keeps_ite (frugal_pure _) (keeps_ite (frugal_pure _) ?_)
    exact keeps_ite (frugal_pure _) (frugal_throw _)
  | toStruct =>
    refine frugal_bind (keeps_ite (frugal_pure _) ?_) fun _ => frugal_pure _
    refine frugal_bind (frugal_okOr _ _) fun _ => ?_
    exact frugal_bind (frugal_tryReadStruct _ _) fun _ => frugal_pure _
  | toList expected =>
    refine frugal_bind (keeps_ite (frugal_pure _) ?_) fun _ => frugal_pure _
    refine frugal_bind (frugal_okOr _ _) fun _ => ?_
    exact frugal_bind (frugal_tryReadList _ _ _) fun _ => frugal_pure _
  | toBlob =>
    refine frugal_bind (keeps_ite (frugal_pure _) ?_) fun _ => frugal_pure _
    refine frugal_bind ?_ fun _ => frugal_pure _
    refine frugal_bind (frugal_locationOf _ _) fun content => ?_
    refine frugal_bind (keeps_ite (frugal_pure _) (frugal_throw _)) fun listPtr => ?_
    refine keeps_ite ?_ (frugal_throw _)
    refine frugal_bind (frugal_unwrap _) fun len => ?_
    exact frugal_bind (frugal_readAtLocation _ _ _ _) fun _ => frugal_pure _
  | typed => exact frugal_bind (frugal_tryReadTyped _ _) fun _ => frugal_pure _

/-- **The traversal limit is sound.**  Whatever reads are made with one limiter by readers of a
message, in whatever order and whether they succeed or not: what they hand out and what is left
of the limit never add up to more than the limit was. -/
theorem spend_le_limit {arena : ReadArena} (requests : List (PtrReader × Request))
    (hreaders : ∀ reader request, (reader, request) ∈ requests → reader.StandsIn arena)
    (limit : ℕ) :
    ∃ left, (spend requests (some limit)).2 = some left ∧
      (spend requests (some limit)).1 + left ≤ limit := by
  induction requests generalizing limit with
  | nil => exact ⟨limit, rfl, by rw [spend]; omega⟩
  | cons head requests ih =>
    obtain ⟨reader, request⟩ := head
    have hself := hreaders reader request List.mem_cons_self
    have hrest : ∀ reader request, (reader, request) ∈ requests → reader.StandsIn arena :=
      fun reader request hmem => hreaders reader request (List.mem_cons_of_mem _ hmem)
    rw [spend]
    rcases hrun : request.read reader (some limit) with ⟨words, limiter⟩ | ⟨e, limiter⟩ | r
    · obtain ⟨cost, hcost, hcharge⟩ := charged_read hself hrun
      obtain ⟨hle, rfl⟩ := Limiter.charge_some_eq_some.1 hcharge
      obtain ⟨left, hleft, hsum⟩ := ih hrest (limit - cost)
      exact ⟨left, hleft, by dsimp only; omega⟩
    · rcases limiter with _ | limit'
      · exact ((frugal_read reader request).error hrun).elim
      · have hle : limit' ≤ limit := (frugal_read reader request).error hrun
        obtain ⟨left, hleft, hsum⟩ := ih hrest limit'
        exact ⟨left, hleft, by dsimp only; omega⟩
    · exact ⟨limit, rfl, by dsimp only; omega⟩

/-- A reader at the start of the segment with a far pointer to a list. -/
def compositeReader : PtrReader := ⟨0, inSegment compositeArena 0 compositeSegment, 64⟩

theorem spend_le_limit_composite :
    ∃ left, (spend [(compositeReader, .toList none), (compositeReader, .toStruct),
        (compositeReader, .typed)] (some 10)).2 = some left ∧
      (spend [(compositeReader, .toList none), (compositeReader, .toStruct),
        (compositeReader, .typed)] (some 10)).1 + left ≤ 10 := by
  have hstands : compositeReader.StandsIn compositeArena := ⟨0, compositeSegment, rfl, rfl⟩
  refine @spend_le_limit compositeArena _ (fun reader request hmem => ?_) 10
  simp only [List.mem_cons, List.not_mem_nil, or_false, Prod.mk.injEq] at hmem
  rcases hmem with ⟨rfl, -⟩ | ⟨rfl, -⟩ | ⟨rfl, -⟩ <;> exact hstands

end Recapn.Ptr

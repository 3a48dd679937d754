/-
# What a pointer denotes

Apart from the limiter, whether a pointer can be read and what it points to is a matter of the
arena alone.  `Locates` says where the content of a pointer is described, `Placed` where a
described object lies, and `Denotes` puts the two together: the pointer at a position denotes an
object in a segment, and reading it costs so many words.  A read succeeds exactly when the
pointer denotes an object and the limiter can be charged for the cost.
-/
import Recapn.Ptr.Reader

namespace Recapn.Ptr

open Recapn.Lib Recapn.Lib.Prog

/-! ## Charging the limiter -/

/-- The limiter after a charge, if it can be charged. -/
def Limiter.charge (limiter : Limiter) (words : ℕ) : Option Limiter :=
  match limiter with
  | none => some none
  | some limit => if words ≤ limit then some (some (limit - words)) else none

namespace Limiter

@[simp] lemma charge_none (words : ℕ) : charge none words = some none := rfl

lemma charge_some_eq_some {limit words : ℕ} {limiter : Limiter} :
    charge (some limit) words = some limiter ↔ words ≤ limit ∧ limiter = some (limit - words) := by
  rw [charge]
  by_cases h : words ≤ limit
  · rw [if_pos h, Option.some.injEq]
    exact ⟨fun heq => ⟨h, heq.symm⟩, fun heq => heq.2.symm⟩
  · rw [if_neg h]
    exact ⟨fun heq => (nomatch heq), fun heq => absurd heq.1 h⟩

@[simp] lemma charge_zero (limiter : Limiter) : limiter.charge 0 = some limiter := by
  rcases limiter with _ | limit
  · rfl
  · rw [charge_some_eq_some]
    exact ⟨Nat.zero_le _, rfl⟩

/-- Two charges are one charge. -/
lemma charge_add {limiter limiter' : Limiter} (m n : ℕ) :
    limiter.charge (m + n) = some limiter' ↔
      ∃ mid, limiter.charge m = some mid ∧ mid.charge n = some limiter' := by
  rcases limiter with _ | limit
  · constructor
    · intro h
      exact ⟨none, rfl, h⟩
    · rintro ⟨mid, hmid, h⟩
      cases hmid
      exact h
  · constructor
    · intro h
      obtain ⟨hle, rfl⟩ := charge_some_eq_some.1 h
      refine ⟨some (limit - m), charge_some_eq_some.2 ⟨by omega, rfl⟩, ?_⟩
      exact charge_some_eq_some.2 ⟨by omega, by rw [Nat.sub_sub]⟩
    · rintro ⟨mid, hmid, h⟩
      obtain ⟨hle, rfl⟩ := charge_some_eq_some.1 hmid
      obtain ⟨hle', rfl⟩ := charge_some_eq_some.1 h
      exact charge_some_eq_some.2 ⟨by omega, by rw [Nat.sub_sub]⟩

end Limiter

lemma limitRead_eq_ok {words : ℕ} {limiter limiter' : Limiter} {u : Unit} :
    limitRead words limiter = .ok u limiter' ↔ limiter.charge words = some limiter' := by
  rcases limiter with _ | limit
  · show Outcome.ok () none = Outcome.ok u limiter' ↔ some none = some limiter'
    simp
  · rw [Limiter.charge_some_eq_some]
    by_cases h : words ≤ limit
    · have hrun : limitRead words (some limit) = .ok () (some (limit - words)) := by
        simp [limitRead, bind_apply, tryAmplifiedRead, ReadLimiter.tryRead, h]
      rw [hrun, Outcome.ok.injEq]
      exact ⟨fun heq => ⟨h, heq.2.symm⟩, fun heq => ⟨rfl, heq.2.symm⟩⟩
    · have hrun : limitRead words (some limit) = .error .readLimitExceeded (some limit) := by
        simp [limitRead, bind_apply, tryAmplifiedRead, ReadLimiter.tryRead, h]
      rw [hrun]
      exact ⟨fun heq => (nomatch heq), fun heq => absurd heq.1 h⟩

/-! ## Where the content of a pointer is -/

/-- The pointer at `src` in segment `id` is followed to segment `id'`, where `content` describes
the object; so many words of landing pads are read on the way. -/
inductive Locates (arena : ReadArena) (id : SegmentId) (src : ℕ) :
    SegmentId → Content → ℕ → Prop
  | near {segment : Segment} (hsegment : arena id = some segment)
      (hkind : WirePtr.kind (segment.data src) ≠ .far) :
      Locates arena id src id ⟨segment.data src, .near src⟩ 0
  | far {segment pad : Segment} {ptr : WirePtr} (hsegment : arena id = some segment)
      (hptr : segment.data src = ptr) (hkind : ptr.kind = .far)
      (hdouble : FarPtr.doubleFar ptr = false) (hpad : arena (FarPtr.segment ptr) = some pad)
      (hlen : (FarPtr.offset ptr).get + 1 ≤ pad.len.get) :
      Locates arena id src (FarPtr.segment ptr)
        ⟨pad.data (FarPtr.offset ptr).get, .far (FarPtr.offset ptr).get⟩ 1
  | doubleFar {segment pad : Segment} {ptr : WirePtr} {padPtr : WirePtr}
      (hsegment : arena id = some segment)
      (hptr : segment.data src = ptr) (hkind : ptr.kind = .far)
      (hdouble : FarPtr.doubleFar ptr = true) (hpad : arena (FarPtr.segment ptr) = some pad)
      (hlen : (FarPtr.offset ptr).get + 2 ≤ pad.len.get)
      (hpadPtr : pad.data (FarPtr.offset ptr).get = padPtr) (hpadKind : padPtr.kind = .far) :
      Locates arena id src (FarPtr.segment ptr)
        ⟨pad.data ((FarPtr.offset ptr).get + 1),
          .doubleFar (FarPtr.segment padPtr) (FarPtr.offset padPtr)⟩ 2

/-- Content is found in a segment of the arena. -/
lemma Locates.segment {arena : ReadArena} {id id' : SegmentId} {src pads : ℕ} {content : Content}
    (h : Locates arena id src id' content pads) : ∃ segment, arena id' = some segment := by
  rcases h with ⟨hsegment, -⟩ | ⟨-, -, -, -, hpad, -⟩ | ⟨-, -, -, -, hpad, -, -, -⟩
  · exact ⟨_, hsegment⟩
  · exact ⟨_, hpad⟩
  · exact ⟨_, hpad⟩

/-- An object of `len` words, described at `location` in segment `id`, lies at `pos` in segment
`id'`. -/
inductive Placed (arena : ReadArena) (id : SegmentId) :
    Location → SignedSegmentOffset → ℕ → SegmentId → ℕ → Prop
  | near {segment : Segment} {origin pos len : ℕ} {offset : SignedSegmentOffset}
      (hsegment : arena id = some segment) (hpos : (origin : ℤ) + 1 + offset.get = pos)
      (hlen : pos + len ≤ segment.len.get) : Placed arena id (.near origin) offset len id pos
  | far {segment : Segment} {origin pos len : ℕ} {offset : SignedSegmentOffset}
      (hsegment : arena id = some segment) (hpos : (origin : ℤ) + 1 + offset.get = pos)
      (hlen : pos + len ≤ segment.len.get) : Placed arena id (.far origin) offset len id pos
  | doubleFar {segment : Segment} {id' : SegmentId} {start : SegmentOffset} {len : ℕ}
      {offset : SignedSegmentOffset} (hsegment : arena id' = some segment)
      (hlen : start.get + len ≤ segment.len.get) :
      Placed arena id (.doubleFar id' start) offset len id' start.get

/-- A placed object lies in a segment of the arena. -/
lemma Placed.bounds {arena : ReadArena} {id id' : SegmentId} {location : Location}
    {offset : SignedSegmentOffset} {len pos : ℕ} (h : Placed arena id location offset len id' pos) :
    ∃ segment, arena id' = some segment ∧ pos + len ≤ segment.len.get := by
  rcases h with ⟨hsegment, -, hlen⟩ | ⟨hsegment, -, hlen⟩ | ⟨hsegment, hlen⟩
  · exact ⟨_, hsegment, hlen⟩
  · exact ⟨_, hsegment, hlen⟩
  · exact ⟨_, hsegment, hlen⟩

/-- The content `content`, found in segment `id`, describes an object in segment `id'`, which
costs so many words. -/
inductive Describes (arena : ReadArena) (id : SegmentId) (content : Content) :
    SegmentId → TypedContent → ℕ → Prop
  | struct {id' : SegmentId} {pos : ℕ} (hkind : content.ptr.kind = .struct)
      (hplaced : Placed arena id content.location (StructPtr.offset content.ptr)
        (StructPtr.size content.ptr).total id' pos) :
      Describes arena id content id' (.struct ⟨pos, StructPtr.size content.ptr⟩)
        (StructPtr.size content.ptr).total
  | list {id' : SegmentId} {pos : ℕ} {size : ElementSize} {count : ElementCount}
      (hkind : content.ptr.kind = .list)
      (hptrSize : ListPtr.elementSize content.ptr ≠ .inlineComposite)
      (hsize : (ListPtr.elementSize content.ptr).toElementSize = size)
      (hcount : ListPtr.elementCount content.ptr = count)
      (hplaced : Placed arena id content.location (ListPtr.offset content.ptr)
        (size.totalWords count.get) id' pos) :
      Describes arena id content id' (.list ⟨pos, size, count⟩)
        (size.totalWords count.get + if size = .void then count.get else 0)
  | inlineComposite {id' : SegmentId} {segment : Segment} {pos wordCount : ℕ} {tag : WirePtr}
      (hkind : content.ptr.kind = .list)
      (hptrSize : ListPtr.elementSize content.ptr = .inlineComposite)
      (hwords : (ListPtr.elementCount content.ptr).get = wordCount)
      (hlt : wordCount + 1 < 2 ^ 29)
      (hplaced : Placed arena id content.location (ListPtr.offset content.ptr) (wordCount + 1) id'
        pos)
      (hsegment : arena id' = some segment) (htag : segment.data pos = tag)
      (htagKind : tag.kind = .struct)
      (hfits : (StructPtr.inlineCompositeElementCount tag).get * (StructPtr.size tag).total
        ≤ wordCount) :
      Describes arena id content id'
        (.list ⟨pos + 1, .inlineComposite (StructPtr.size tag),
          StructPtr.inlineCompositeElementCount tag⟩)
        (wordCount + 1 + if (StructPtr.size tag).total = 0 then
          (StructPtr.inlineCompositeElementCount tag).get else 0)
  | capability (hcap : content.ptr.isCapability = true) :
      Describes arena id content id (.capability (CapabilityPtr.capabilityIndex content.ptr)) 0

/-- The pointer at `src` in segment `id` denotes an object in segment `id'`, and reading it
costs so many words. -/
def Denotes (arena : ReadArena) (id : SegmentId) (src : ℕ) (id' : SegmentId)
    (typed : TypedContent) (cost : ℕ) : Prop :=
  ∃ mid content pads words, Locates arena id src mid content pads ∧
    Describes arena mid content id' typed words ∧ cost = pads + words

/-! ## Reads are what the pointers denote -/

section Reads

open ObjectReader

variable {arena : ReadArena} {id : SegmentId} {segment : Segment}

lemma tryReadObjectIn_eq_ok {target : SegmentId} {offset : SegmentOffset} {len : ObjectLen}
    {limiter limiter' : Limiter} {reader : ObjectReader} {pos : ℕ} :
    (inSegment arena id segment).tryReadObjectIn target offset len limiter
        = .ok (reader, pos) limiter' ↔
      ∃ segment', arena target = some segment' ∧ reader = inSegment arena target segment' ∧
        pos = offset.get ∧ pos + len.get ≤ segment'.len.get ∧
        limiter.charge len.get = some limiter' := by
  unfold tryReadObjectIn
  simp only [bind_eq_ok, okOr_eq_ok, pure_eq_ok, limitRead_eq_ok]
  constructor
  · rintro ⟨segReader, _, ⟨hreader, rfl⟩, ptr, _, ⟨hptr, rfl⟩, _, _, hcharge, heq, rfl⟩
    obtain ⟨segment', hsegment', rfl⟩ : ∃ segment', arena target = some segment' ∧
        segReader = ⟨arena, target, segment'⟩ := by
      have hmap : (arena target).map (SegmentReader.mk arena target) = some segReader := hreader
      rw [Option.map_eq_some_iff] at hmap
      obtain ⟨segment', hsegment', heq'⟩ := hmap
      exact ⟨segment', hsegment', heq'.symm⟩
    obtain ⟨hpos, hlen⟩ := SegmentReader.tryGetSection_eq_some.1 hptr
    cases heq
    exact ⟨segment', hsegment', rfl, by omega, hlen, hcharge⟩
  · rintro ⟨segment', hsegment', rfl, rfl, hlen, hcharge⟩
    refine ⟨⟨arena, target, segment'⟩, limiter, ⟨?_, rfl⟩, offset.get, limiter, ⟨?_, rfl⟩, (),
      limiter', hcharge, rfl, rfl⟩
    · show (arena target).map (SegmentReader.mk arena target) = _
      rw [hsegment']
      rfl
    · exact SegmentReader.tryGetSection_eq_some.2 ⟨rfl, hlen⟩

lemma tryReadObjectFromEndOf_eq_ok {origin : ℕ} {offset : SignedSegmentOffset} {len : ObjectLen}
    {limiter limiter' : Limiter} {pos : ℕ} :
    (inSegment arena id segment).tryReadObjectFromEndOf origin offset len limiter
        = .ok pos limiter' ↔
      (origin : ℤ) + 1 + offset.get = pos ∧ pos + len.get ≤ segment.len.get ∧
        limiter.charge len.get = some limiter' := by
  unfold tryReadObjectFromEndOf
  simp only [inSegment, bind_eq_ok, okOr_eq_ok, pure_eq_ok, limitRead_eq_ok,
    SegmentReader.tryGetSection_eq_some]
  constructor
  · rintro ⟨ptr, _, ⟨⟨hpos, hlen⟩, rfl⟩, _, _, hcharge, rfl, rfl⟩
    exact ⟨hpos, hlen, hcharge⟩
  · rintro ⟨hpos, hlen, hcharge⟩
    exact ⟨pos, limiter, ⟨⟨hpos, hlen⟩, rfl⟩, (), limiter', hcharge, rfl, rfl⟩

/-- Reading at a location is being placed, and charged. -/
lemma readAtLocation_eq_ok (hsegment : arena id = some segment) {location : Location}
    {offset : SignedSegmentOffset} {len : ObjectLen} {limiter limiter' : Limiter}
    {reader : ObjectReader} {pos : ℕ} :
    (inSegment arena id segment).readAtLocation location offset len limiter
        = .ok (reader, pos) limiter' ↔
      ∃ id' segment', arena id' = some segment' ∧ reader = inSegment arena id' segment' ∧
        Placed arena id location offset len.get id' pos ∧
        limiter.charge len.get = some limiter' := by
  rcases location with origin | origin | ⟨target, start⟩
  · show ((inSegment arena id segment).tryReadObjectFromEndOf origin offset len >>= fun ptr =>
      pure (inSegment arena id segment, ptr)) limiter = _ ↔ _
    simp only [bind_eq_ok, pure_eq_ok, tryReadObjectFromEndOf_eq_ok]
    constructor
    · rintro ⟨ptr, _, ⟨hpos, hlen, hcharge⟩, heq, rfl⟩
      cases heq
      exact ⟨id, segment, hsegment, rfl, .near hsegment hpos hlen, hcharge⟩
    · rintro ⟨id', segment', hsegment', rfl, hplaced, hcharge⟩
      cases hplaced with
      | near hseg hpos hlen =>
        obtain rfl := Option.mem_unique hsegment hseg
        obtain rfl := Option.mem_unique hsegment hsegment'
        exact ⟨pos, limiter', ⟨hpos, hlen, hcharge⟩, rfl, rfl⟩
  · show ((inSegment arena id segment).tryReadObjectFromEndOf origin offset len >>= fun ptr =>
      pure (inSegment arena id segment, ptr)) limiter = _ ↔ _
    simp only [bind_eq_ok, pure_eq_ok, tryReadObjectFromEndOf_eq_ok]
    constructor
    · rintro ⟨ptr, _, ⟨hpos, hlen, hcharge⟩, heq, rfl⟩
      cases heq
      exact ⟨id, segment, hsegment, rfl, .far hsegment hpos hlen, hcharge⟩
    · rintro ⟨id', segment', hsegment', rfl, hplaced, hcharge⟩
      cases hplaced with
      | far hseg hpos hlen =>
        obtain rfl := Option.mem_unique hsegment hseg
        obtain rfl := Option.mem_unique hsegment hsegment'
        exact ⟨pos, limiter', ⟨hpos, hlen, hcharge⟩, rfl, rfl⟩
  · show (inSegment arena id segment).tryReadObjectIn target start len limiter = _ ↔ _
    rw [tryReadObjectIn_eq_ok]
    constructor
    · rintro ⟨segment', hsegment', rfl, rfl, hlen, hcharge⟩
      exact ⟨target, segment', hsegment', rfl, .doubleFar hsegment' hlen, hcharge⟩
    · rintro ⟨id', segment', hsegment', rfl, hplaced, hcharge⟩
      cases hplaced with
      | doubleFar hseg hlen =>
        obtain rfl := Option.mem_unique hsegment' hseg
        exact ⟨segment', hsegment', rfl, rfl, hlen, hcharge⟩

lemma tryFarPtr_eq_ok {ptr ptr' : WirePtr} {limiter limiter' : Limiter} :
    tryFarPtr ptr limiter = .ok ptr' limiter' ↔ ptr.kind = .far ∧ ptr' = ptr ∧ limiter' = limiter := by
  rw [tryFarPtr, ite_eq_ok, pure_eq_ok, throw_eq_ok]
  constructor
  · rintro (⟨hkind, rfl, rfl⟩ | ⟨-, h⟩)
    · exact ⟨hkind, rfl, rfl⟩
    · exact h.elim
  · rintro ⟨hkind, rfl, rfl⟩
    exact Or.inl ⟨hkind, rfl, rfl⟩

lemma word_inSegment (pos : ℕ) : (inSegment arena id segment).word pos = segment.data pos := rfl

/-- Following a pointer is locating its content, and charging for the landing pads. -/
lemma locationOf_eq_ok (hsegment : arena id = some segment) {src : ℕ}
    {limiter limiter' : Limiter} {reader : ObjectReader} {content : Content} :
    (inSegment arena id segment).locationOf src limiter = .ok (reader, content) limiter' ↔
      ∃ id' segment' pads, arena id' = some segment' ∧ reader = inSegment arena id' segment' ∧
        Locates arena id src id' content pads ∧ limiter.charge pads = some limiter' := by
  unfold locationOf
  dsimp only [word_inSegment]
  constructor
  · intro h
    rcases ite_eq_ok.1 h with ⟨hkind, h⟩ | ⟨hkind, h⟩
    · obtain ⟨⟨pad, padPos⟩, mid, hpad, h⟩ := bind_eq_ok.1 h
      obtain ⟨segment', hsegment', rfl, rfl, hlen, hcharge⟩ := tryReadObjectIn_eq_ok.1 hpad
      rcases hdouble : FarPtr.doubleFar (segment.data src) with _ | _
      · simp only [hdouble, Bool.false_eq_true, if_false] at h hlen hcharge
        obtain ⟨heq, rfl⟩ := pure_eq_ok.1 h
        cases heq
        exact ⟨_, segment', 1, hsegment', rfl, .far hsegment rfl hkind hdouble hsegment' hlen,
          hcharge⟩
      · simp only [hdouble, if_true] at h hlen hcharge
        obtain ⟨farPtr, _, hfar, hpure⟩ := bind_eq_ok.1 h
        obtain ⟨hpadKind, rfl, rfl⟩ := tryFarPtr_eq_ok.1 hfar
        obtain ⟨heq, rfl⟩ := pure_eq_ok.1 hpure
        cases heq
        exact ⟨_, segment', 2, hsegment', rfl,
          .doubleFar hsegment rfl hkind hdouble hsegment' hlen rfl hpadKind, hcharge⟩
    · obtain ⟨heq, rfl⟩ := pure_eq_ok.1 h
      cases heq
      exact ⟨id, segment, 0, hsegment, rfl, .near hsegment hkind, Limiter.charge_zero _⟩
  · rintro ⟨id', segment', pads, hsegment', rfl, hlocates, hcharge⟩
    cases hlocates with
    | near hseg hkind =>
      obtain rfl := Option.mem_unique hsegment hseg
      obtain rfl := Option.mem_unique hsegment hsegment'
      rw [Limiter.charge_zero, Option.some.injEq] at hcharge
      rw [hcharge]
      exact if_neg_apply hkind _ _ _
    | @far seg pad ptr hseg hptr hkind hdouble hpad hlen =>
      obtain rfl := Option.mem_unique hsegment hseg
      obtain rfl := Option.mem_unique hsegment' hpad
      subst hptr
      refine (if_pos_apply hkind _ _ _).trans ?_
      rw [hdouble]
      exact bind_of_ok (tryReadObjectIn_eq_ok.2 ⟨segment', hpad, rfl, rfl, hlen, hcharge⟩)
    | @doubleFar seg pad ptr padPtr hseg hptr hkind hdouble hpad hlen hpadPtr hpadKind =>
      obtain rfl := Option.mem_unique hsegment hseg
      obtain rfl := Option.mem_unique hsegment' hpad
      subst hptr
      subst hpadPtr
      refine (if_pos_apply hkind _ _ _).trans ?_
      rw [hdouble]
      refine (bind_of_ok
        (tryReadObjectIn_eq_ok.2 ⟨segment', hpad, rfl, rfl, hlen, hcharge⟩)).trans ?_
      exact bind_of_ok (tryFarPtr_eq_ok.2 ⟨hpadKind, rfl, rfl⟩)

lemma readAsStructContent_eq_ok (hsegment : arena id = some segment) {location : Location}
    {ptr : WirePtr} {limiter limiter' : Limiter} {reader : ObjectReader} {content : StructContent} :
    (inSegment arena id segment).readAsStructContent location ptr limiter
        = .ok (reader, content) limiter' ↔
      ∃ id' segment', arena id' = some segment' ∧ reader = inSegment arena id' segment' ∧
        content.size = StructPtr.size ptr ∧
        Placed arena id location (StructPtr.offset ptr) (StructPtr.size ptr).total id' content.ptr ∧
        limiter.charge (StructPtr.size ptr).total = some limiter' := by
  unfold readAsStructContent
  constructor
  · intro h
    obtain ⟨⟨reader', pos⟩, mid, hread, h⟩ := bind_eq_ok.1 h
    obtain ⟨id', segment', hsegment', rfl, hplaced, hcharge⟩ :=
      (readAtLocation_eq_ok hsegment).1 hread
    obtain ⟨heq, rfl⟩ := pure_eq_ok.1 h
    cases heq
    exact ⟨id', segment', hsegment', rfl, rfl, hplaced, hcharge⟩
  · rintro ⟨id', segment', hsegment', rfl, hsize, hplaced, hcharge⟩
    refine (bind_of_ok ((readAtLocation_eq_ok hsegment).2
      ⟨id', segment', hsegment', rfl, hplaced, hcharge⟩)).trans ?_
    rcases content with ⟨pos, size⟩
    rw [← hsize]
    rfl

/-- Whether a list may be read as one of the expected element size. -/
def Upgradable (size : ElementSize) : Option PtrElementSize → Prop
  | some expected => size.upgradableTo expected = true
  | none => True

lemma upgradable_none (size : ElementSize) : Upgradable size none := trivial

lemma checkUpgrade_eq_ok {ptrElement : PtrElementSize} {size : ElementSize}
    {expected : Option PtrElementSize} {limiter limiter' : Limiter} :
    checkUpgrade ptrElement size expected limiter = .ok () limiter' ↔
      Upgradable size expected ∧ limiter = limiter' := by
  rcases expected with _ | expected
  · show Outcome.ok () limiter = Outcome.ok () limiter' ↔ True ∧ limiter = limiter'
    simp
  · show (if size.upgradableTo expected then pure () else Prog.throw _ : ReadM Unit) limiter = _ ↔ _
    rw [ite_eq_ok, pure_eq_ok, throw_eq_ok]
    simp [Upgradable]

/-- A charge that is only made in one case. -/
lemma limitRead_if_eq_ok {p : Prop} {inst : Decidable p} {words : ℕ} {limiter limiter' : Limiter} :
    (if p then limitRead words else pure () : ReadM Unit) limiter = .ok () limiter' ↔
      limiter.charge (if p then words else 0) = some limiter' := by
  by_cases hp : p
  · rw [if_pos hp, if_pos hp, limitRead_eq_ok]
  · rw [if_neg hp, if_neg hp, pure_eq_ok, Limiter.charge_zero, Option.some.injEq]
    simp

/-- The length of a list that is not of structs fits in an object length. -/
lemma new_roundUpBitCount (size : PtrElementSize) (count : ElementCount) :
    ∃ len : ObjectLen, U29.new (roundUpBitCount (count.get * size.toElementSize.bits)) = some len ∧
      len.get = size.toElementSize.totalWords count.get := by
  have hlt := (ElementSize.totalWords_of_bits_le (ElementSize.bits_le_of_ptr size) count).2
  refine ⟨⟨_, hlt⟩, ?_, rfl⟩
  rw [Nat.mul_comm]
  exact U29.new_of_lt hlt

/-- Reading a list is what a list pointer describes, when the element size fits. -/
lemma readAsListContent_eq_ok (hsegment : arena id = some segment) {content : Content}
    (hkind : content.ptr.kind = .list) {expected : Option PtrElementSize}
    {limiter limiter' : Limiter} {reader : ObjectReader} {list : ListContent} :
    (inSegment arena id segment).readAsListContent content.location content.ptr expected limiter
        = .ok (reader, list) limiter' ↔
      ∃ id' segment' cost, arena id' = some segment' ∧ reader = inSegment arena id' segment' ∧
        Describes arena id content id' (.list list) cost ∧ Upgradable list.elementSize expected ∧
        limiter.charge cost = some limiter' := by
  unfold readAsListContent
  constructor
  · intro h
    rcases ite_eq_ok.1 h with ⟨hsize, hcomposite⟩ | ⟨hsize, hlist⟩
    · obtain ⟨len, _, hokOr, hread⟩ := bind_eq_ok.1 hcomposite
      obtain ⟨hnew, rfl⟩ := okOr_eq_ok.1 hokOr
      have hlen := U29.new_eq_some.1 hnew
      obtain ⟨⟨reader', pos⟩, mid, hat, htag⟩ := bind_eq_ok.1 hread
      obtain ⟨id', segment', hsegment', rfl, hplaced, hcharge⟩ :=
        (readAtLocation_eq_ok hsegment).1 hat
      rw [hlen] at hplaced hcharge
      rcases ite_eq_ok.1 htag with ⟨htagKind, hcheck⟩ | ⟨-, hthrow⟩
      · obtain ⟨_, mid', hchecked, hoverrun⟩ := bind_eq_ok.1 hcheck
        obtain ⟨hupgrade, rfl⟩ := checkUpgrade_eq_ok.1 hchecked
        rcases ite_eq_ok.1 hoverrun with ⟨-, hthrow⟩ | ⟨hfits, hlimit⟩
        · exact (throw_eq_ok.1 hthrow).elim
        · obtain ⟨_, last, hamplified, hpure⟩ := bind_eq_ok.1 hlimit
          rw [limitRead_if_eq_ok] at hamplified
          obtain ⟨heq, rfl⟩ := pure_eq_ok.1 hpure
          cases heq
          exact ⟨id', segment', _, hsegment', rfl,
            .inlineComposite hkind hsize rfl (hlen ▸ len.get_lt) hplaced hsegment' rfl htagKind
              (Nat.not_lt.1 hfits), hupgrade,
            (Limiter.charge_add _ _).2 ⟨mid, hcharge, hamplified⟩⟩
      · exact (throw_eq_ok.1 hthrow).elim
    · obtain ⟨_, mid, hchecked, hlimit⟩ := bind_eq_ok.1 hlist
      obtain ⟨hupgrade, rfl⟩ := checkUpgrade_eq_ok.1 hchecked
      obtain ⟨_, mid, hamplified, hlen⟩ := bind_eq_ok.1 hlimit
      rw [limitRead_if_eq_ok] at hamplified
      obtain ⟨len, hnew, hget⟩ := new_roundUpBitCount (ListPtr.elementSize content.ptr)
        (ListPtr.elementCount content.ptr)
      dsimp only at hlen
      rw [hnew, unwrap_some, pure_bind_eq] at hlen
      obtain ⟨⟨reader', pos⟩, last, hat, hpure⟩ := bind_eq_ok.1 hlen
      obtain ⟨id', segment', hsegment', rfl, hplaced, hcharge⟩ :=
        (readAtLocation_eq_ok hsegment).1 hat
      obtain ⟨heq, rfl⟩ := pure_eq_ok.1 hpure
      cases heq
      rw [hget] at hplaced hcharge
      refine ⟨id', segment', _, hsegment', rfl, .list hkind hsize rfl rfl hplaced, hupgrade, ?_⟩
      rw [Nat.add_comm]
      exact (Limiter.charge_add _ _).2 ⟨mid, hamplified, hcharge⟩
  · rintro ⟨id', segment', cost, hsegment', rfl, hdescribes, hupgrade, hcharge⟩
    cases hdescribes with
    | list _ hptrSize hsize hcount hplaced =>
      subst hsize
      subst hcount
      rw [Nat.add_comm] at hcharge
      obtain ⟨mid, hamplified, hcharge⟩ := (Limiter.charge_add _ _).1 hcharge
      obtain ⟨len, hlen, hget⟩ := new_roundUpBitCount (ListPtr.elementSize content.ptr)
        (ListPtr.elementCount content.ptr)
      rw [← hget] at hplaced hcharge
      refine (if_neg_apply hptrSize _ _ _).trans ?_
      refine (bind_of_ok (checkUpgrade_eq_ok.2 ⟨hupgrade, rfl⟩)).trans ?_
      refine (bind_of_ok (limitRead_if_eq_ok.2 hamplified)).trans ?_
      rw [hlen, unwrap_some, pure_bind_eq]
      exact bind_of_ok ((readAtLocation_eq_ok hsegment).2
        ⟨id', segment', hsegment', rfl, hplaced, hcharge⟩)
    | inlineComposite _ hptrSize hwords hlt hplaced hseg htag htagKind hfits =>
      obtain rfl := Option.mem_unique hsegment' hseg
      subst htag
      subst hwords
      obtain ⟨mid, hcharge, hamplified⟩ := (Limiter.charge_add _ _).1 hcharge
      refine (if_pos_apply hptrSize _ _ _).trans ?_
      rw [U29.new_of_lt hlt]
      refine (bind_of_ok ((readAtLocation_eq_ok hsegment).2
        ⟨id', segment', hsegment', rfl, hplaced, hcharge⟩)).trans ?_
      refine (if_pos_apply htagKind _ _ _).trans ?_
      refine (bind_of_ok (checkUpgrade_eq_ok.2 ⟨hupgrade, rfl⟩)).trans ?_
      refine (if_neg_apply (Nat.not_lt.2 hfits) _ _ _).trans ?_
      exact bind_of_ok (limitRead_if_eq_ok.2 hamplified)

/-- **A pointer can be read exactly when it denotes an object** and the limiter allows for it. -/
theorem tryReadTyped_eq_ok (hsegment : arena id = some segment) {src : ℕ}
    {limiter limiter' : Limiter} {reader : ObjectReader} {typed : TypedContent} :
    (inSegment arena id segment).tryReadTyped src limiter = .ok (reader, typed) limiter' ↔
      ∃ id' segment' cost, arena id' = some segment' ∧ reader = inSegment arena id' segment' ∧
        Denotes arena id src id' typed cost ∧ limiter.charge cost = some limiter' := by
  unfold tryReadTyped
  constructor
  · intro h
    obtain ⟨⟨reader', content⟩, mid, hlocation, hrun⟩ := bind_eq_ok.1 h
    obtain ⟨id', segment', pads, hsegment', rfl, hlocates, hpads⟩ :=
      (locationOf_eq_ok hsegment).1 hlocation
    dsimp only at hrun
    rcases hkind : content.ptr.kind with _ | _ | _ | _
    · rw [hkind] at hrun
      obtain ⟨⟨reader'', object⟩, last, hread, hpure⟩ := bind_eq_ok.1 hrun
      obtain ⟨id'', segment'', hsegment'', rfl, hsize, hplaced, hcharge⟩ :=
        (readAsStructContent_eq_ok hsegment').1 hread
      obtain ⟨heq, rfl⟩ := pure_eq_ok.1 hpure
      cases heq
      rcases object with ⟨pos, size⟩
      cases hsize
      exact ⟨id'', segment'', _, hsegment'', rfl,
        ⟨id', content, pads, _, hlocates, .struct hkind hplaced, rfl⟩,
        (Limiter.charge_add _ _).2 ⟨mid, hpads, hcharge⟩⟩
    · rw [hkind] at hrun
      obtain ⟨⟨reader'', list⟩, last, hread, hpure⟩ := bind_eq_ok.1 hrun
      obtain ⟨id'', segment'', cost, hsegment'', rfl, hdescribes, -, hcharge⟩ :=
        (readAsListContent_eq_ok hsegment' hkind).1 hread
      obtain ⟨heq, rfl⟩ := pure_eq_ok.1 hpure
      cases heq
      exact ⟨id'', segment'', _, hsegment'', rfl,
        ⟨id', content, pads, cost, hlocates, hdescribes, rfl⟩,
        (Limiter.charge_add _ _).2 ⟨mid, hpads, hcharge⟩⟩
    · rw [hkind] at hrun
      exact (throw_eq_ok.1 hrun).elim
    · rw [hkind] at hrun
      obtain ⟨cap, last, hcap, hpure⟩ := bind_eq_ok.1 hrun
      rcases ite_eq_ok.1 hcap with ⟨hisCap, hcap⟩ | ⟨-, hcap⟩
      · obtain ⟨rfl, rfl⟩ := pure_eq_ok.1 hcap
        obtain ⟨heq, rfl⟩ := pure_eq_ok.1 hpure
        cases heq
        exact ⟨id', segment', pads, hsegment', rfl,
          ⟨id', content, pads, 0, hlocates, .capability hisCap, rfl⟩, hpads⟩
      · exact (throw_eq_ok.1 hcap).elim
  · rintro ⟨id', segment', cost, hsegment', rfl, ⟨mid, content, pads, words, hlocates, hdescribes,
      rfl⟩, hcharge⟩
    obtain ⟨limiter₁, hpads, hwords⟩ := (Limiter.charge_add _ _).1 hcharge
    obtain ⟨segment₁, hsegment₁⟩ := hlocates.segment
    refine (bind_of_ok ((locationOf_eq_ok hsegment).2
      ⟨mid, segment₁, pads, hsegment₁, rfl, hlocates, hpads⟩)).trans ?_
    dsimp only
    cases hdescribes with
    | struct hkind hplaced =>
      rw [hkind]
      exact bind_of_ok ((readAsStructContent_eq_ok hsegment₁).2
        ⟨id', segment', hsegment', rfl, rfl, hplaced, hwords⟩)
    | list hkind hptrSize hsize hcount hplaced =>
      rw [hkind]
      exact bind_of_ok ((readAsListContent_eq_ok hsegment₁ hkind).2
        ⟨id', segment', _, hsegment', rfl, .list hkind hptrSize hsize hcount hplaced,
          upgradable_none _, hwords⟩)
    | inlineComposite hkind hptrSize hcount hlt hplaced hseg htag htagKind hfits =>
      rw [hkind]
      exact bind_of_ok ((readAsListContent_eq_ok hsegment₁ hkind).2
        ⟨id', segment', _, hsegment', rfl,
          .inlineComposite hkind hptrSize hcount hlt hplaced hseg htag htagKind hfits,
          upgradable_none _, hwords⟩)
    | capability hcap =>
      obtain rfl := Option.mem_unique hsegment₁ hsegment'
      have hkind : content.ptr.kind = .other := by
        rw [WirePtr.kind_eq_other_iff, eq_of_beq hcap]
      rw [Limiter.charge_zero, Option.some.injEq] at hwords
      rw [hkind, ← hwords]
      refine (bind_of_ok (if_pos_apply hcap _ _ _)).trans ?_
      rfl

end Reads

/-- Reading a struct is reading, when it is a struct. -/
lemma tryReadStruct_eq_ok {reader reader' : ObjectReader} {pos : ℕ} {content : StructContent}
    {limiter limiter' : Limiter} :
    reader.tryReadStruct pos limiter = .ok (reader', content) limiter' ↔
      reader.tryReadTyped pos limiter = .ok (reader', .struct content) limiter' := by
  constructor
  · intro h
    obtain ⟨⟨reader₁, found⟩, limiter₁, hlocation, htry⟩ := bind_eq_ok.1 h
    obtain ⟨ptr, limiter₂, hptr, hread⟩ := bind_eq_ok.1 htry
    rcases ite_eq_ok.1 hptr with ⟨hkind, hpure⟩ | ⟨-, hthrow⟩
    · obtain ⟨rfl, rfl⟩ := pure_eq_ok.1 hpure
      refine (bind_of_ok hlocation).trans ?_
      dsimp only
      rw [hkind]
      exact bind_of_ok hread
    · exact (throw_eq_ok.1 hthrow).elim
  · intro h
    obtain ⟨⟨reader₁, found⟩, limiter₁, hlocation, hrun⟩ := bind_eq_ok.1 h
    refine (bind_of_ok hlocation).trans ?_
    dsimp only at hrun ⊢
    rcases hkind : found.ptr.kind with _ | _ | _ | _ <;> rw [hkind] at hrun
    · obtain ⟨⟨reader₂, object⟩, limiter₂, hread, hpure⟩ := bind_eq_ok.1 hrun
      obtain ⟨heq, rfl⟩ := pure_eq_ok.1 hpure
      cases heq
      exact (bind_of_ok (ite_eq_ok.2 (.inl ⟨hkind, rfl⟩))).trans hread
    · obtain ⟨_, _, -, hpure⟩ := bind_eq_ok.1 hrun
      cases (pure_eq_ok.1 hpure).1
    · exact (throw_eq_ok.1 hrun).elim
    · obtain ⟨_, _, -, hpure⟩ := bind_eq_ok.1 hrun
      cases (pure_eq_ok.1 hpure).1

end Recapn.Ptr

/-
# Orphans that are adopted

An orphan is an object that no pointer leads to.  When it is adopted, the old value of the pointer is
cleared, and then the pointer is made from what the orphan says of itself.  For a list of structs the
pointer has the number of words, but the orphan that was allocated has the number of elements.
-/
import Recapn.Ptr.Clearing
import Recapn.Ptr.ListAlloc

namespace Recapn.Ptr

open Recapn.Lib Recapn.Lib.Prog

/-! ## Adoption -/

/-- What an `OrphanBuilder` has: the object that was allocated, or what was disowned. -/
inductive Orphaned where
  | list (object : OrphanObject)
  | struct (location : SegmentRef) (size : StructSize)
  | far (location : SegmentRef) (doubleFar : Bool)
  | capability (index : ℕ)
deriving DecidableEq, Repr

/-- `OrphanBuilder`, in the same message as the pointers. -/
structure OrphanBuilder where
  builder : ObjectBuilder
  object : Option Orphaned
deriving DecidableEq, Repr

namespace PtrBuilder

/-- `PtrBuilder::set_capability_ptr`. -/
def setCapabilityPtr (self : PtrBuilder) (index : ℕ) : BuildM Unit :=
  self.builder.setPtr self.ptr (CapabilityPtr.new index)

/-- The part of `PtrBuilder::try_adopt` for an object at a location, which the pointer describes but
for the offset. -/
def adoptObject (self : PtrBuilder) (builder : ObjectBuilder) (location : SegmentRef)
    (basePtr : WirePtr) : BuildM Unit :=
  if builder = self.builder then do
    let offset ← self.builder.offsetFromEndOf self.ptr location
    self.builder.setPtr self.ptr (setContentOffset basePtr offset)
  else do
    let landingPad ← builder.allocInSegment AllocLen.one
    match landingPad with
    | some landingPad => do
      let offset ← builder.offsetFromEndOf landingPad location
      -- this goes into the pointer, not into the landing pad
      builder.setPtr self.ptr (setContentOffset basePtr offset)
      let farOffset ← builder.offsetFromStart landingPad
      let id ← builder.id
      self.builder.setPtr self.ptr (FarPtr.new id farOffset false)
    | none => do
      let pad ← self.builder.allocDoubleFarLandingPad
      let (far, tag, padBuilder) ← Prog.okOr (.allocFailed landingPadLen.get) pad
      let farOffset ← self.builder.offsetFromStart location
      let id ← self.builder.id
      padBuilder.setPtr far (FarPtr.new id farOffset false)
      padBuilder.setPtr tag basePtr
      let padOffset ← padBuilder.offsetFromStart far
      let padId ← padBuilder.id
      self.builder.setPtr self.ptr (FarPtr.new padId padOffset true)

/-- `PtrBuilder::try_adopt`.  With an error the orphan is given back. -/
def tryAdopt (self : PtrBuilder) (clearCap : List ℕ → ℕ → Except Error Unit) (depth : ℕ)
    (orphan : OrphanBuilder) : BuildM Unit := do
  self.clear clearCap depth
  match orphan.object with
  | none => pure ()
  | some (.far location doubleFar) => do
    let offset ← orphan.builder.offsetFromStart location
    let id ← orphan.builder.id
    self.builder.setPtr self.ptr (FarPtr.new id offset doubleFar)
  | some (.capability index) => self.setCapabilityPtr index
  | some (.struct location size) =>
    self.adoptObject orphan.builder location (StructPtr.new I30.zero size)
  | some (.list (.list location elementSize elementCount)) =>
    self.adoptObject orphan.builder location (ListPtr.new I30.zero elementSize elementCount)

end PtrBuilder

/-- `Orphanage::try_new_list_orphan`, with the builder of the orphanage. -/
def ObjectBuilder.tryNewListOrphan (self : ObjectBuilder) (size : ElementSize)
    (count : ElementCount) : BuildM OrphanBuilder := do
  let (object, builder) ← self.allocListOrphan size count
  pure ⟨builder, some (.list object)⟩

/-! ## Clearing writes null words only -/

/-- Some words became null, and that is all. -/
structure Blanks (a a' : Arena) : Prop where
  used_eq : a'.used = a.used
  len_eq : a'.len = a.len
  wf : a.Wf → a'.Wf
  word : ∀ r, a'.word r = a.word r ∨ a'.word r = Word.null

/-- A word that null is written to is null, or it is nowhere. -/
lemma word_write_null (a : Arena) {start r : SegmentRef} {len : ℕ} (h : r ∈ span start len) :
    (a.write start len fun _ => Word.null).word r = Word.null := by
  by_cases hsegment : start.segment < a.segments.length
  · exact Arena.word_write_of_mem _ _ _ _ hsegment h.1 h.2.1 h.2.2
  · rw [Arena.word, List.getElem?_eq_none (by
      rw [Arena.length_write, h.1]
      exact Nat.not_lt.1 hsegment)]

namespace Blanks

variable {a a' a'' : Arena}

lemma refl (a : Arena) : Blanks a a := ⟨rfl, rfl, fun h => h, fun _ => Or.inl rfl⟩

lemma trans (h : Blanks a a') (h' : Blanks a' a'') : Blanks a a'' := by
  refine ⟨h'.used_eq.trans h.used_eq, h'.len_eq.trans h.len_eq, fun hwf => h'.wf (h.wf hwf), fun r => ?_⟩
  rcases h'.word r with hword | hword
  · rw [hword]
    exact h.word r
  · exact Or.inr hword

lemma write_null (a : Arena) (start : SegmentRef) (len : ℕ) :
    Blanks a (a.write start len fun _ => Word.null) := by
  refine ⟨used_write_null, funext fun i => Arena.len_write _ _ _ _ i, fun hwf => hwf.write_null start len,
    fun r => ?_⟩
  by_cases hspan : r ∈ span start len
  · exact Or.inr (word_write_null a hspan)
  · exact Or.inl (Arena.word_write_of_not_mem _ _ _ _ hspan)

end Blanks

/-- The program only blanks words. -/
abbrev Blanking {ε α : Type} (x : Prog ε Arena α) : Prop := Prog.Keeps Blanks x

/-- The clearing program only blanks words. -/
abbrev Clearing {ε α : Type} (x : Nullifier.ClearM ε α) : Prop :=
  Prog.Keeps (fun s s' : ClearState => Blanks s.arena s'.arena) x

section Blanking

variable {ε α β : Type} {builder : ObjectBuilder}

lemma blanking_pure (v : α) : Blanking (pure v : Prog ε Arena α) := keeps_pure Blanks.refl v

lemma blanking_bind {x : Prog ε Arena α} {f : α → Prog ε Arena β} (hx : Blanking x)
    (hf : ∀ v, Blanking (f v)) : Blanking (x >>= f) :=
  keeps_bind (fun _ _ _ h h' => h.trans h') hx hf

lemma blanking_read (r : SegmentRef) : Blanking (Arena.read r : Prog ε Arena Word) := by
  intro a
  unfold Arena.read
  by_cases h : r.pos < a.len r.segment
  · rw [if_pos h]
    exact Blanks.refl a
  · rw [if_neg h]
    trivial

lemma blanking_writeNull (start : SegmentRef) (len : ℕ) :
    Blanking (Arena.writeSection start len fun _ => Word.null : Prog ε Arena Unit) := by
  intro a
  unfold Arena.writeSection
  by_cases h : start.pos + len ≤ a.len start.segment
  · rw [if_pos h]
    exact Blanks.write_null a start len
  · rw [if_neg h]
    trivial

lemma blanking_require (p : Prop) [Decidable p] : Blanking (Prog.require p : Prog ε Arena Unit) :=
  keeps_ite (blanking_pure ()) (keeps_halt _)

lemma blanking_buildObjectIn (segment : SegmentId) (offset : SegmentOffset) :
    Blanking (builder.buildObjectIn segment offset) :=
  fun a => Blanks.refl a

lemma blanking_buildObjectFromEndOf (ptr : SegmentRef) (offset : SignedSegmentOffset) :
    Blanking (builder.buildObjectFromEndOf ptr offset) :=
  blanking_bind (blanking_require _) fun _ => blanking_pure _

lemma blanking_locate (slot : SegmentRef) : Blanking (builder.locate slot) := by
  refine blanking_bind (blanking_read slot) fun ptr => keeps_ite ?_ (blanking_pure _)
  refine blanking_bind (blanking_buildObjectIn _ _) fun object => ?_
  refine blanking_bind (keeps_unwrap Blanks.refl _) fun place => ?_
  refine blanking_bind (blanking_read _) fun padPtr => keeps_ite ?_ (blanking_pure _)
  refine blanking_bind (blanking_read _) fun tag => ?_
  exact blanking_bind (keeps_ite (blanking_pure ()) (keeps_halt _)) fun _ => blanking_pure _

lemma blanking_buildAtLocation (location : BuildLocation) (offset : SignedSegmentOffset) :
    Blanking (builder.buildAtLocation location offset) := by
  cases location with
  | near origin | far origin => exact blanking_buildObjectFromEndOf origin offset
  | doubleFar segment start =>
    exact blanking_bind (blanking_buildObjectIn _ _) fun object => keeps_unwrap Blanks.refl _

lemma blanking_clearPtrs (slot : SegmentRef) : Blanking (builder.clearPtrs slot) := by
  refine blanking_bind (blanking_read slot) fun ptr => keeps_ite ?_ (blanking_writeNull slot 1)
  refine blanking_bind (blanking_buildObjectIn _ _) fun object => ?_
  rcases object with _ | ⟨pad, builder'⟩
  · exact blanking_pure ()
  · refine blanking_bind (blanking_writeNull pad 1) fun _ => ?_
    refine blanking_bind (keeps_ite (blanking_writeNull _ 1) (blanking_pure ())) fun _ => ?_
    exact blanking_writeNull slot 1

lemma blanking_clearListSection (start : SegmentRef) (size : ElementSize) (count : ElementCount) :
    Blanking (builder.clearListSection start size count) := by
  unfold ObjectBuilder.clearListSection
  rcases AllocLen.new (size.objectWords count.get) with _ | len
  · exact blanking_pure ()
  · refine keeps_ite ?_ (blanking_writeNull start len.get)
    exact blanking_bind (blanking_require _) fun _ => blanking_writeNull _ len.get

end Blanking

section Clearing

variable {ε α β : Type} {self : Nullifier ε}
  {clearPtr : ObjectBuilder → SegmentRef → Nullifier.ClearM ε Unit}

open Nullifier

lemma clearing_pure (v : α) : Clearing (pure v : ClearM ε α) :=
  keeps_pure (fun s => Blanks.refl s.arena) v

lemma clearing_bind {x : ClearM ε α} {f : α → ClearM ε β} (hx : Clearing x)
    (hf : ∀ v, Clearing (f v)) : Clearing (x >>= f) :=
  keeps_bind (fun _ _ _ h h' => h.trans h') hx hf

lemma clearing_assert (p : Prop) [Decidable p] : Clearing (Prog.assert p : ClearM ε Unit) :=
  keeps_ite (clearing_pure ()) (keeps_halt _)

lemma clearing_forRange {n : ℕ} {body : ℕ → ClearM ε Unit} (h : ∀ k, Clearing (body k)) :
    Clearing (Prog.forRange n body) := by
  induction n with
  | zero => exact clearing_pure ()
  | succ n ih => exact clearing_bind ih fun _ => h n

lemma clearing_handleErr (err : Error) : Clearing (self.handleErr err) := by
  intro s
  unfold Nullifier.handleErr
  rcases self.handler s.reported err with _ | e
  · exact Blanks.refl s.arena
  · exact Blanks.refl s.arena

lemma clearing_building {x : BuildM α} (hx : Blanking x) :
    Clearing (building x : ClearM ε (Except Error α)) := by
  intro s
  have hkeeps := hx s.arena
  unfold building Prog.zoom Prog.attempt
  rcases hrun : x s.arena with ⟨v, a⟩ | ⟨e, a⟩ | r
  · rw [hrun] at hkeeps
    exact hkeeps
  · rw [hrun] at hkeeps
    exact hkeeps
  · trivial

lemma clearing_build {x : BuildM α} {f : α → ClearM ε Unit} (hx : Blanking x)
    (hf : ∀ v, Clearing (f v)) : Clearing (self.build x f) := by
  refine clearing_bind (clearing_building hx) fun result => ?_
  rcases result with err | v
  · exact clearing_handleErr err
  · exact hf v

lemma clearing_clearCapability (index : ℕ) : Clearing (self.clearCapability index) := by
  intro s
  unfold Nullifier.clearCapability
  rcases self.clearCap s.caps index with err | u
  · exact clearing_handleErr err { s with caps := index :: s.caps }
  · exact Blanks.refl s.arena

lemma clearing_clearPtrSection (hclear : ∀ builder slot, Clearing (clearPtr builder slot))
    (builder : ObjectBuilder) (ptr : SegmentRef) (len : ℕ) :
    Clearing (self.clearPtrSection clearPtr builder ptr len) :=
  clearing_forRange fun k => clearing_build (blanking_read _) fun _ =>
    keeps_ite (clearing_pure ()) (hclear builder (ptr.offset k))

lemma clearing_clearList (hclear : ∀ builder slot, Clearing (clearPtr builder slot))
    (builder : ObjectBuilder) (start : SegmentRef) (size : ElementSize) (count : ElementCount) :
    Clearing (self.clearList clearPtr builder start size count) := by
  have hsection : ∀ size : ElementSize,
      Clearing (self.build (builder.clearListSection start size count) pure) := fun size =>
    clearing_build (blanking_clearListSection start size count) clearing_pure
  cases size with
  | pointer => exact clearing_clearPtrSection hclear builder start count.get
  | inlineComposite structSize =>
    refine clearing_bind (clearing_assert _) fun _ => clearing_bind ?_ fun _ => hsection _
    exact clearing_forRange fun k => clearing_clearPtrSection hclear builder _ _
  | _ => exact hsection _

/-- What is described somewhere is cleared. -/
lemma clearing_content {depth : ℕ} (ih : ∀ builder slot, Clearing (self.clearPtr depth builder slot))
    (builder : ObjectBuilder) (content : BuildContent) :
    Clearing (match content.ptr.kind with
      | .struct => self.clearStructContent (self.clearPtr depth) builder content
      | .list => self.clearListContent (self.clearPtr depth) builder content
      | .other => Prog.assert content.ptr.isCapability >>= fun _ =>
          self.clearCapability (CapabilityPtr.capabilityIndex content.ptr)
      | .far => Prog.halt .panic) := by
  cases content.ptr.kind with
  | struct =>
    refine keeps_ite (clearing_pure ()) ?_
    refine clearing_build (blanking_buildAtLocation _ _) fun (start, builder'') => ?_
    refine clearing_bind (clearing_clearPtrSection ih _ _ _) fun _ => ?_
    exact clearing_build (blanking_writeNull start _) clearing_pure
  | list =>
    refine clearing_build (blanking_buildAtLocation _ _) fun (start, builder'') => ?_
    refine keeps_ite ?_ (clearing_clearList ih _ _ _ _)
    refine clearing_build (blanking_read start) fun tag => ?_
    exact clearing_bind (clearing_assert _) fun _ => clearing_clearList ih _ _ _ _
  | other => exact clearing_bind (clearing_assert _) fun _ => clearing_clearCapability _
  | far => exact keeps_halt _

/-- Whatever is below the pointer, clearing it writes null words only. -/
lemma clearing_clearPtr (depth : ℕ) (builder : ObjectBuilder) (slot : SegmentRef) :
    Clearing (self.clearPtr depth builder slot) := by
  induction depth generalizing builder slot with
  | zero => exact keeps_halt _
  | succ depth ih =>
    refine clearing_build (blanking_locate slot) fun (content, builder') => ?_
    exact clearing_build (blanking_clearPtrs slot) fun _ => clearing_content ih builder' content

end Clearing

/-- A pointer that is cleared leaves the arena but for words that become null. -/
lemma PtrBuilder.clear_blanks {self : PtrBuilder} {clearCap : List ℕ → ℕ → Except Error Unit}
    {depth : ℕ} {a a' : Arena} (h : (self.clear clearCap depth : BuildM Unit) a = .ok () a') :
    Blanks a a' := by
  have hclearing : Clearing (self.tryClear (⟨ignoreErrors, clearCap⟩ : Nullifier Empty) depth) :=
    clearing_build (blanking_read _) fun _ =>
      keeps_ite (clearing_pure ()) (clearing_clearPtr depth _ _)
  unfold PtrBuilder.clear at h
  rcases hrun : self.tryClear (⟨ignoreErrors, clearCap⟩ : Nullifier Empty) depth ⟨a, [], []⟩
    with ⟨u, s⟩ | ⟨e, s⟩ | r
  · rw [hrun] at h
    cases h
    exact hclearing.ok hrun
  · cases e
  · rw [hrun] at h
    cases h

/-! ## A pointer that was cleared is null -/

/-- A program that does not fail. -/
abbrev Unfailing {α : Type} (x : BuildM α) : Prop :=
  Prog.Within ⟨fun _ => True, fun _ => False, fun _ => True⟩ x

section Unfailing

variable {builder : ObjectBuilder} {slot : SegmentRef} {a a' : Arena}

lemma unfailing_read (r : SegmentRef) : Unfailing (Arena.read r) := by
  intro a _
  unfold Arena.read
  split <;> trivial

lemma unfailing_setPtr (r : SegmentRef) (word : Word) : Unfailing (builder.setPtr r word) := by
  intro a _
  unfold ObjectBuilder.setPtr Arena.writeSection
  split <;> trivial

lemma unfailing_locate (slot : SegmentRef) : Unfailing (builder.locate slot) := by
  refine within_bind (unfailing_read slot) fun ptr _ => ?_
  refine within_ite (fun _ => ?_) fun _ => within_pure _
  refine within_bind (fun _ _ => trivial) fun object _ => ?_
  refine within_bind (within_unwrap trivial _) fun place _ => ?_
  refine within_bind (unfailing_read _) fun padPtr _ => ?_
  refine within_ite (fun _ => ?_) fun _ => within_pure _
  refine within_bind (unfailing_read _) fun tag _ => ?_
  exact within_bind (within_assert trivial _) fun _ _ => within_pure _

lemma unfailing_clearPtrs (slot : SegmentRef) : Unfailing (builder.clearPtrs slot) := by
  refine within_bind (unfailing_read slot) fun ptr _ => ?_
  refine within_ite (fun _ => ?_) fun _ => unfailing_setPtr slot _
  refine within_bind (fun _ _ => trivial) fun object _ => ?_
  rcases object with _ | ⟨pad, builder'⟩
  · exact within_pure ()
  · refine within_bind (unfailing_setPtr pad _) fun _ _ => ?_
    refine within_bind (within_ite (fun _ => unfailing_setPtr _ _) fun _ => within_pure ())
      fun _ _ => ?_
    exact unfailing_setPtr slot _

lemma read_eq_ok {r : SegmentRef} {word : Word} (h : (Arena.read r : BuildM Word) a = .ok word a') :
    word = a.word r ∧ a' = a := by
  unfold Arena.read at h
  by_cases hr : r.pos < a.len r.segment
  · rw [if_pos hr] at h
    cases h
    exact ⟨rfl, rfl⟩
  · rw [if_neg hr] at h
    cases h

lemma buildObjectIn_eq_ok {segment : SegmentId} {offset : SegmentOffset}
    {object : Option (SegmentRef × ObjectBuilder)} (h : builder.buildObjectIn segment offset a = .ok object a') :
    a' = a ∧ (object = none ↔ a.segments.length ≤ segment) := by
  cases h
  refine ⟨rfl, ?_⟩
  rw [Option.map_map, Option.map_eq_none_iff, List.getElem?_eq_none_iff]

/-- The landing pad of a pointer that was located is in a segment of the arena, which stays as it
is. -/
lemma locate_eq_ok {x : BuildContent × ObjectBuilder} (h : builder.locate slot a = .ok x a') :
    a' = a ∧ (WirePtr.kind (a.word slot) = .far →
      FarPtr.segment (a.word slot) < a.segments.length) := by
  obtain ⟨ptr, a₁, hread, hlocate⟩ := bind_eq_ok.1 h
  obtain ⟨rfl, rfl⟩ := read_eq_ok hread
  rcases ite_eq_ok.1 hlocate with ⟨hfar, hobject⟩ | ⟨hnear, hpure⟩
  · obtain ⟨object, a₂, hbuild, hplace⟩ := bind_eq_ok.1 hobject
    obtain ⟨place, a₃, hunwrap, hpad⟩ := bind_eq_ok.1 hplace
    obtain ⟨rfl, rfl⟩ := unwrap_eq_ok.1 hunwrap
    obtain ⟨padPtr, a₄, hreadPad, htag⟩ := bind_eq_ok.1 hpad
    obtain ⟨-, rfl⟩ := read_eq_ok hreadPad
    obtain ⟨rfl, hnone⟩ := buildObjectIn_eq_ok hbuild
    refine ⟨?_, fun _ => ?_⟩
    · rcases ite_eq_ok.1 htag with ⟨-, hdouble⟩ | ⟨-, hpure⟩
      · obtain ⟨_, _, hreadTag, hassert⟩ := bind_eq_ok.1 hdouble
        obtain ⟨-, rfl⟩ := read_eq_ok hreadTag
        obtain ⟨_, _, hassert, hpure⟩ := bind_eq_ok.1 hassert
        obtain ⟨-, rfl⟩ := assert_eq_ok.1 hassert
        exact (pure_eq_ok.1 hpure).2.symm
      · exact (pure_eq_ok.1 hpure).2.symm
    · by_contra hlt
      cases hnone.2 (Nat.not_lt.1 hlt)
  · obtain ⟨-, rfl⟩ := pure_eq_ok.1 hpure
    exact ⟨rfl, fun hfar => absurd hfar hnear⟩

lemma setPtr_null (h : (builder.setPtr slot Word.null : BuildM Unit) a = .ok () a') :
    a'.word slot = Word.null := by
  unfold ObjectBuilder.setPtr Arena.writeSection at h
  by_cases hlen : slot.pos + 1 ≤ a.len slot.segment
  · rw [if_pos hlen] at h
    cases h
    exact word_write_null a ⟨rfl, Nat.le_refl _, Nat.lt_succ_self _⟩
  · rw [if_neg hlen] at h
    cases h

/-- A pointer that could be located and was cleared is null. -/
lemma clearPtrs_null {x : BuildContent × ObjectBuilder} {a₁ : Arena}
    (hlocate : builder.locate slot a = .ok x a₁) (h : builder.clearPtrs slot a₁ = .ok () a') :
    a'.word slot = Word.null := by
  obtain ⟨ptr, a₂, hread, hlocatePtr⟩ := bind_eq_ok.1 hlocate
  obtain ⟨ptr', a₃, hread', hclear⟩ := bind_eq_ok.1 h
  rcases ite_eq_ok.1 hclear with ⟨hfar, hobject⟩ | ⟨-, hset⟩
  · obtain ⟨object, a₄, hbuild, hpads⟩ := bind_eq_ok.1 hobject
    rcases object with _ | ⟨pad, builder'⟩
    · -- the landing pad was found before
      obtain ⟨rfl, hsegment⟩ := locate_eq_ok hlocate
      obtain ⟨rfl, rfl⟩ := read_eq_ok hread'
      exact absurd (hsegment hfar) (Nat.not_lt.2 ((buildObjectIn_eq_ok hbuild).2.1 rfl))
    · obtain ⟨_, _, -, hpads⟩ := bind_eq_ok.1 hpads
      obtain ⟨_, _, -, hset⟩ := bind_eq_ok.1 hpads
      exact setPtr_null hset
  · exact setPtr_null hset

/-- A part that does not fail was run, and then the rest. -/
lemma build_eq_ok {α ε : Type} {self : Nullifier ε} {x : BuildM α} {f : α → Nullifier.ClearM ε Unit}
    {s s' : ClearState} {u : Unit} (hx : Unfailing x) (h : self.build x f s = .ok u s') :
    ∃ v a, x s.arena = .ok v a ∧ f v { s with arena := a } = .ok u s' := by
  rcases hrun : x s.arena with ⟨v, a⟩ | ⟨e, a⟩ | r
  · rw [build_of_ok hrun] at h
    exact ⟨v, a, rfl, h⟩
  · exact (hx.error trivial hrun).1.elim
  · have hbuild : (Nullifier.building x : Nullifier.ClearM ε (Except Error α)) s = .halt r := by
      rw [Nullifier.building, Prog.zoom, Prog.attempt, hrun]
    rw [Nullifier.build, bind_of_halt hbuild] at h
    cases h

end Unfailing

/-- A pointer that was cleared is null. -/
lemma PtrBuilder.clear_null {self : PtrBuilder} {clearCap : List ℕ → ℕ → Except Error Unit} {depth : ℕ}
    {a a' : Arena} (h : (self.clear clearCap depth : BuildM Unit) a = .ok () a') :
    a'.word self.ptr = Word.null := by
  unfold PtrBuilder.clear at h
  rcases hrun : self.tryClear (⟨ignoreErrors, clearCap⟩ : Nullifier Empty) depth ⟨a, [], []⟩
    with ⟨u, s⟩ | ⟨e, s⟩ | r
  · rw [hrun] at h
    cases h
    obtain ⟨word, a₁, hread, hclear⟩ := build_eq_ok (unfailing_read self.ptr) hrun
    obtain ⟨rfl, rfl⟩ := read_eq_ok hread
    rcases ite_eq_ok.1 hclear with ⟨hnull, hpure⟩ | ⟨-, hptr⟩
    · obtain ⟨-, rfl⟩ := pure_eq_ok.1 hpure
      exact Word.isNull_iff.1 hnull
    · rcases depth with _ | depth
      · cases hptr
      · obtain ⟨⟨content, builder'⟩, a₂, hlocate, hrest⟩ := build_eq_ok (unfailing_locate self.ptr) hptr
        obtain ⟨_, a₃, hclearPtrs, hcontent⟩ := build_eq_ok (unfailing_clearPtrs self.ptr) hrest
        have hnull := clearPtrs_null hlocate hclearPtrs
        -- what is below the pointer is cleared after it
        have hblanks := (clearing_content (clearing_clearPtr depth) builder' content).ok hcontent
        exact (hblanks.word self.ptr).elim (fun heq => heq.trans hnull) id
  · cases e
  · rw [hrun] at h
    cases h

/-! ## Orphans that were allocated -/

/-- The words of a list lie at a place: its tag, if it has one, and null words. -/
structure ElementSize.Blank (size : ElementSize) (count : ElementCount) (location : SegmentRef)
    (a : Arena) : Prop where
  le_used : location.pos + size.objectWords count.get ≤ a.used location.segment
  tag : ∀ {s}, size = .inlineComposite s → size.objectWords count.get ≠ 0 →
    a.word location = StructPtr.newInlineCompositeTag count s
  null : ∀ r ∈ span location (size.objectWords count.get),
    (size.isInlineComposite = true → r ≠ location) → a.word r = Word.null

/-- The words of an orphan that was allocated. -/
def OrphanObject.words (object : OrphanObject) (size : ElementSize) (count : ElementCount) :
    Set SegmentRef :=
  span object.location (size.objectWords count.get)

section Orphan

variable {size : ElementSize} {count : ElementCount} {arena arena' a : Arena}
  {self builder : ObjectBuilder} {object : OrphanObject} {location : SegmentRef}

/-- An orphan list that was allocated lies blank in the segment of its builder. -/
lemma ObjectBuilder.allocListOrphan_ok (hwf : arena.Wf) (hself : self.segment < arena.segments.length)
    (h : self.allocListOrphan size count arena = .ok (object, builder) arena') :
    ∃ location, object = .list location size.asPtrSize count ∧ builder = ⟨location.segment⟩ ∧
      arena'.Wf ∧ size.Blank count location arena' := by
  unfold ObjectBuilder.allocListOrphan at h
  dsimp only at h
  rcases ite_eq_ok.1 h with ⟨hzero, hpure⟩ | ⟨hzero, hrest⟩
  · cases hpure
    refine ⟨self.start, rfl, rfl, hwf, ?_, fun _ hne => absurd hzero hne, fun r hr => ?_⟩
    · rw [hzero]
      exact Nat.zero_le _
    · rw [hzero] at hr
      obtain ⟨-, hle, hlt⟩ := hr
      omega
  · obtain ⟨len, arena₁, hlen, hrest⟩ := bind_eq_ok.1 hrest
    obtain ⟨hnew, rfl⟩ := okOr_eq_ok.1 hlen
    have hget : size.objectWords count.get = len.get := (AllocLen.new_eq_some.1 hnew).symm
    rcases ObjectBuilder.alloc_cases hwf hself len with ⟨arena₂, hrun, -⟩ | ⟨place, arena₂, hrun, hallocates⟩
    · rw [bind_of_ok hrun] at hrest
      cases hrest
    · rw [bind_of_ok hrun, okOr_some, pure_bind_eq] at hrest
      dsimp only at hrest
      have hend : arena₂.used place.segment = place.pos + len.get := by
        rw [hallocates.used_eq, if_pos rfl]
      have hnull : ∀ r ∈ span place len.get, arena₂.word r = Word.null := fun r hr =>
        hallocates.word_eq_null hwf hr
      have hpos := len.get_pos
      cases size with
      | inlineComposite s =>
        have hplace : place.pos < arena₂.used place.segment := by omega
        dsimp only at hrest
        rw [bind_of_ok (ObjectBuilder.setPtr_apply hallocates.wf hplace _)] at hrest
        cases hrest
        refine ⟨place, rfl, rfl, hallocates.wf.set hplace _, ?_, fun heq _ => ?_, fun r hr hne => ?_⟩
        · rw [Arena.used_write, hget, hend]
        · cases heq
          rw [Arena.word_set hplace, if_pos rfl]
        · rw [hget] at hr
          rw [Arena.word_set hplace, if_neg (hne rfl), hnull r hr]
      | _ =>
        cases hrest
        refine ⟨place, rfl, rfl, hallocates.wf, ⟨?_, fun heq _ => (nomatch heq), fun r hr _ => ?_⟩⟩
        · rw [hget, hend]
        · rw [hget] at hr
          exact hnull r hr

/-- As long as nothing is written into the words of the orphan, it lies blank. -/
lemma ElementSize.Blank.grows {W : Set SegmentRef} (h : size.Blank count location arena)
    (hgrows : Arena.Grows W arena a) (hapart : Disjoint W (span location (size.objectWords count.get))) :
    size.Blank count location a := by
  have hword : ∀ r ∈ span location (size.objectWords count.get), a.word r = arena.word r := by
    intro r hr
    have hle := h.le_used
    refine hgrows.word_eq ?_ fun hmem => Set.disjoint_left.1 hapart hmem hr
    obtain ⟨hsegment, -, hlt⟩ := hr
    rw [hsegment]
    omega
  refine ⟨h.le_used.trans (hgrows.used_le _), fun heq hne => ?_, fun r hr hne => ?_⟩
  · rw [hword location ⟨rfl, Nat.le_refl _, by omega⟩]
    exact h.tag heq hne
  · rw [hword r hr]
    exact h.null r hr hne

end Orphan

/-! ## Reading an orphan that was adopted -/

/-- The pointer reads as a list of so many elements of the size, and they are all zero. -/
def Arena.ReadsZeroList (a : Arena) (slot : SegmentRef) (size : ElementSize) (count : ElementCount) :
    Prop :=
  ∃ start, a.ResolvesTo slot start (.list ⟨start.pos, size, count⟩) ∧
    ∀ r ∈ span start ((size.bits * count.get + 63) / 64), a.word r = Word.null

/-- The number of the elements can stand for the number of the words: the elements have no more
words, and so many words are used behind the tag. -/
def ElementSize.OrphanFits (size : ElementSize) (count : ElementCount) (location : SegmentRef)
    (a : Arena) : Prop :=
  ∀ s, size = .inlineComposite s →
    count.get * s.total ≤ count.get ∧ location.pos + (count.get + 1) ≤ a.used location.segment

/-- The old value of the pointer can be cleared, and if the word is a tag, it stays. -/
def PtrBuilder.ClearSpares (self : PtrBuilder) (clearCap : List ℕ → ℕ → Except Error Unit)
    (depth : ℕ) (size : ElementSize) (location : SegmentRef) (a : Arena) : Prop :=
  ∃ a', (self.clear clearCap depth : BuildM Unit) a = .ok () a' ∧
    (size.isInlineComposite = true → a'.word location = a.word location)

section Near

variable {a : Arena} {ptr location : SegmentRef} {offset : SignedSegmentOffset}

/-- A near pointer leads to the words behind its offset. -/
lemma leads_near {make : SignedSegmentOffset → WirePtr} {len : ℕ}
    (hptr : ptr.pos < a.used ptr.segment) (hword : a.word ptr = make offset)
    (hkind : WirePtr.kind (make offset) ≠ .far) (hsegment : ptr.segment = location.segment)
    (hoffset : (ptr.pos : ℤ) + 1 + offset.get = location.pos)
    (hlen : location.pos + len ≤ a.used location.segment) :
    Leads make ptr location len a.toRead := by
  obtain ⟨segment, hseg, hused, hdata⟩ :=
    Arena.toRead_eq_some (Arena.lt_length_of_used (Nat.zero_lt_of_lt hptr))
  have hat : segment.data ptr.pos = make offset := (hdata ptr.pos).trans hword
  refine ⟨ptr.segment, ⟨make offset, .near ptr.pos⟩, 0, offset, ?_, rfl, ?_⟩
  · rw [← hat]
    exact .near hseg (by rw [hat]; exact hkind)
  · rw [← hsegment]
    refine .near hseg hoffset ?_
    rw [hused, hsegment]
    exact hlen

/-- What it takes to read a list of structs over a near pointer. -/
lemma resolvesTo_composite {start : SegmentRef} {s : StructSize} {count words : ElementCount}
    (hptr : ptr.pos < a.used ptr.segment)
    (hword : a.word ptr = ListPtr.new offset .inlineComposite words)
    (hsegment : ptr.segment = location.segment)
    (hoffset : (ptr.pos : ℤ) + 1 + offset.get = location.pos)
    (h : a.ResolvesTo ptr start (.list ⟨start.pos, .inlineComposite s, count⟩)) :
    StructPtr.size (a.word location) = s ∧
      StructPtr.inlineCompositeElementCount (a.word location) = count ∧
      count.get * s.total ≤ words.get ∧
      location.pos + (words.get + 1) ≤ a.used location.segment := by
  obtain ⟨cost, mid, content, pads, charged, hlocates, hdescribes, -⟩ :=
    (Arena.resolvesTo_iff hptr).1 h
  obtain ⟨segment, hseg, hused, hdata⟩ :=
    Arena.toRead_eq_some (Arena.lt_length_of_used (Nat.zero_lt_of_lt hptr))
  have hat : segment.data ptr.pos = ListPtr.new offset .inlineComposite words :=
    (hdata ptr.pos).trans hword
  have hnear : Locates a.toRead ptr.segment ptr.pos ptr.segment
      ⟨segment.data ptr.pos, .near ptr.pos⟩ 0 := .near hseg (by
    rw [hat, ListPtr.kind_new]
    decide)
  obtain ⟨rfl, rfl, -⟩ := hnear.unique hlocates
  rw [hat] at hdescribes
  generalize start.segment = id, start.pos = pos at hdescribes
  cases hdescribes with
  | list _ hptrSize => exact absurd (ListPtr.elementSize_new _ _ _) hptrSize
  | inlineComposite _ _ hwords _ hplaced hseg' htag _ hfits =>
    replace hwords : (ListPtr.elementCount (ListPtr.new offset .inlineComposite words)).get = _ :=
      hwords
    rw [ListPtr.elementCount_new] at hwords
    replace hplaced : Placed a.toRead ptr.segment (.near ptr.pos)
        (ListPtr.offset (ListPtr.new offset .inlineComposite words)) _ _ _ := hplaced
    rw [ListPtr.offset_new] at hplaced
    cases hplaced with
    | near hseg'' hpos hlen =>
      obtain rfl := Option.mem_unique hseg hseg''
      obtain rfl := Option.mem_unique hseg hseg'
      obtain rfl := Int.natCast_inj.1 (hpos.symm.trans hoffset)
      rw [hdata, hsegment] at htag
      rw [hused, hsegment, ← hwords] at hlen
      rw [← hwords] at hfits
      subst htag
      exact ⟨rfl, rfl, hfits, hlen⟩

/-- A list of structs is read over a near pointer to its tag. -/
lemma resolvesTo_of_composite {s : StructSize} {count words : ElementCount} (hwf : a.Wf)
    (hptr : ptr.pos < a.used ptr.segment)
    (hword : a.word ptr = ListPtr.new offset .inlineComposite words)
    (hsegment : ptr.segment = location.segment)
    (hoffset : (ptr.pos : ℤ) + 1 + offset.get = location.pos)
    (htag : a.word location = StructPtr.newInlineCompositeTag count s)
    (hfits : count.get * s.total ≤ words.get)
    (hlen : location.pos + (words.get + 1) ≤ a.used location.segment) :
    a.ResolvesTo ptr (location.offset 1) (.list ⟨location.pos + 1, .inlineComposite s, count⟩) := by
  have hlt := hwf.used_lt location.segment
  obtain ⟨segment, hseg, -, hdata⟩ :=
    Arena.toRead_eq_some (Arena.lt_length_of_used (Nat.zero_lt_of_lt hptr))
  rw [hsegment] at hseg hdata
  refine (Arena.resolvesTo_iff hptr).2 ((leads_near hptr hword ?_ hsegment hoffset hlen).inlineComposite
    (by omega) hseg ((hdata _).trans htag) hfits)
  rw [ListPtr.kind_new]
  decide

/-- Any other list is read over a near pointer to its elements. -/
lemma resolvesTo_of_plain {size : ElementSize} {count : ElementCount}
    (hsize : size.isInlineComposite = false) (hptr : ptr.pos < a.used ptr.segment)
    (hword : a.word ptr = ListPtr.new offset size.asPtrSize count)
    (hsegment : ptr.segment = location.segment)
    (hoffset : (ptr.pos : ℤ) + 1 + offset.get = location.pos)
    (hlen : location.pos + size.totalWords count.get ≤ a.used location.segment) :
    a.ResolvesTo ptr location (.list ⟨location.pos, size, count⟩) := by
  refine (Arena.resolvesTo_iff hptr).2
    ((leads_near hptr hword ?_ hsegment hoffset hlen).list hsize)
  rw [ListPtr.kind_new]
  decide

end Near

section Adopt

variable {size : ElementSize} {count : ElementCount} {a a₁ : Arena} {ptr location : SegmentRef}
  {clearCap : List ℕ → ℕ → Except Error Unit} {depth : ℕ}

/-- The pointer to an orphan in the same segment is the one to a list, with the offset to it. -/
lemma setContentOffset_listPtr (offset : SignedSegmentOffset) (size : PtrElementSize)
    (count : ElementCount) :
    setContentOffset (ListPtr.new I30.zero size count) offset = ListPtr.new offset size count := by
  unfold setContentOffset
  rw [ListPtr.lower_new, ListPtr.upper_new]
  rfl

/-- After the old value was cleared, a list orphan of the same segment is adopted by writing a
near pointer. -/
lemma PtrBuilder.tryAdopt_of_clear {ptrSize : PtrElementSize} (hwf : a₁.Wf)
    (hclear : ((⟨ptr, ⟨ptr.segment⟩⟩ : PtrBuilder).clear clearCap depth : BuildM Unit) a = .ok () a₁)
    (hptr : ptr.pos < a₁.used ptr.segment) (hsegment : ptr.segment = location.segment)
    (hlocation : location.pos < 2 ^ 29) :
    ∃ offset : SignedSegmentOffset, (ptr.pos : ℤ) + 1 + offset.get = location.pos ∧
      (⟨ptr, ⟨ptr.segment⟩⟩ : PtrBuilder).tryAdopt clearCap depth
          ⟨⟨location.segment⟩, some (.list (.list location ptrSize count))⟩ a =
        .ok () (a₁.write ptr 1 fun _ => ListPtr.new offset ptrSize count) := by
  have hlt := hwf.used_lt ptr.segment
  obtain ⟨offset, hrun, hoffset⟩ :=
    @ObjectBuilder.offsetFromEndOf_apply a₁ ⟨ptr.segment⟩ ptr location hsegment (by omega) hlocation
  refine ⟨offset, hoffset, ?_⟩
  unfold PtrBuilder.tryAdopt
  rw [bind_of_ok hclear]
  dsimp only
  rw [PtrBuilder.adoptObject, if_pos (by rw [hsegment]), bind_of_ok hrun,
    setContentOffset_listPtr]
  exact ObjectBuilder.setPtr_apply hwf hptr _

/-- Adopting the orphan of a list makes the pointer read as the list, with zero elements. -/
def PtrBuilder.AdoptsZeroList (clearCap : List ℕ → ℕ → Except Error Unit) (depth : ℕ)
    (ptr location : SegmentRef) (size : ElementSize) (count : ElementCount) (a : Arena) : Prop :=
  ∃ a', (⟨ptr, ⟨ptr.segment⟩⟩ : PtrBuilder).tryAdopt clearCap depth
      ⟨⟨location.segment⟩, some (.list (.list location size.asPtrSize count))⟩ a = .ok () a' ∧
    a'.ReadsZeroList ptr size count

/-- An adoption clears the old value of the pointer and writes the pointer to the list. -/
lemma adoptsZeroList_iff (hwf : a.Wf) (hptr : ptr.pos < a.used ptr.segment)
    (hsegment : ptr.segment = location.segment) (hlocation : location.pos ≤ a.used location.segment) :
    PtrBuilder.AdoptsZeroList clearCap depth ptr location size count a ↔
      ∃ a₁, ((⟨ptr, ⟨ptr.segment⟩⟩ : PtrBuilder).clear clearCap depth : BuildM Unit) a = .ok () a₁ ∧
        ∃ offset : SignedSegmentOffset, (ptr.pos : ℤ) + 1 + offset.get = location.pos ∧
          (a₁.write ptr 1 fun _ => ListPtr.new offset size.asPtrSize count).ReadsZeroList ptr size
            count := by
  have hlt := hwf.used_lt location.segment
  have hadopt : ∀ a₁, ((⟨ptr, ⟨ptr.segment⟩⟩ : PtrBuilder).clear clearCap depth : BuildM Unit) a =
      .ok () a₁ → _ := fun a₁ hclear =>
    have hblanks := PtrBuilder.clear_blanks hclear
    @PtrBuilder.tryAdopt_of_clear count a a₁ ptr location clearCap depth size.asPtrSize
      (hblanks.wf hwf) hclear (by rw [hblanks.used_eq]; exact hptr) hsegment (by omega)
  constructor
  · rintro ⟨a', hrun, hreads⟩
    obtain ⟨⟨⟩, a₁, hclear, -⟩ := bind_eq_ok.1 hrun
    obtain ⟨offset, hoffset, hrun'⟩ := hadopt a₁ hclear
    cases hrun.symm.trans hrun'
    exact ⟨a₁, hclear, offset, hoffset, hreads⟩
  · rintro ⟨a₁, hclear, offset, hoffset, hreads⟩
    obtain ⟨offset', hoffset', hrun⟩ := hadopt a₁ hclear
    obtain rfl : offset = offset' := I30.ext (by omega)
    exact ⟨_, hrun, hreads⟩

/-- A list that is not of structs. -/
lemma adoptsZeroList_iff_of_plain (hsize : size.isInlineComposite = false) (hwf : a.Wf)
    (hblank : size.Blank count location a) (hptr : ptr.pos < a.used ptr.segment)
    (hsegment : ptr.segment = location.segment)
    (hout : ptr ∉ span location (size.objectWords count.get)) :
    PtrBuilder.AdoptsZeroList clearCap depth ptr location size count a ↔
      (⟨ptr, ⟨ptr.segment⟩⟩ : PtrBuilder).ClearSpares clearCap depth size location a := by
  have hbits : size.bits ≤ 64 := by
    cases size with
    | inlineComposite => cases hsize
    | _ => decide
  obtain ⟨htotal, hlt⟩ := ElementSize.totalWords_of_bits_le hbits count
  have hwords : size.objectWords count.get = size.totalWords count.get := by
    rw [ElementSize.objectWords, hsize, if_neg (by decide), Nat.add_zero]
    exact Nat.mod_eq_of_lt (by omega)
  have hle := hblank.le_used
  rw [adoptsZeroList_iff hwf hptr hsegment (by omega)]
  constructor
  · rintro ⟨a₁, hclear, -⟩
    exact ⟨a₁, hclear, fun h => by rw [hsize] at h; cases h⟩
  · rintro ⟨a₁, hclear, -⟩
    have hblanks := PtrBuilder.clear_blanks hclear
    have hptr₁ : ptr.pos < a₁.used ptr.segment := by
      rw [hblanks.used_eq]
      exact hptr
    have hlt := hwf.used_lt location.segment
    obtain ⟨offset, -, hoffset⟩ := @ObjectBuilder.offsetFromEndOf_apply a ⟨ptr.segment⟩ ptr location
      hsegment (by have := hwf.used_lt ptr.segment; omega) (by omega)
    refine ⟨a₁, hclear, offset, hoffset, location, ?_, fun r hr => ?_⟩
    · refine resolvesTo_of_plain hsize ?_ ?_ hsegment hoffset ?_
      · rw [Arena.used_write]
        exact hptr₁
      · rw [Arena.word_set hptr₁, if_pos rfl]
      · rw [Arena.used_write, hblanks.used_eq, ← hwords]
        exact hle
    · rw [← htotal, ← hwords] at hr
      rw [Arena.word_set hptr₁, if_neg fun heq : r = ptr => hout (heq ▸ hr)]
      have hnull := hblank.null r hr fun h => by rw [hsize] at h; cases h
      exact (hblanks.word r).elim (fun heq => heq.trans hnull) id

/-- The tag of an empty list of empty structs is a null word. -/
lemma newInlineCompositeTag_empty :
    StructPtr.newInlineCompositeTag (StructPtr.inlineCompositeElementCount Word.null)
      (StructPtr.size Word.null) = Word.null := by
  decide

/-- A list of structs: the number of its elements goes for the number of its words. -/
lemma adoptsZeroList_iff_of_composite {s : StructSize} (hwf : a.Wf)
    (hblank : (ElementSize.inlineComposite s).Blank count location a)
    (hptr : ptr.pos < a.used ptr.segment) (hsegment : ptr.segment = location.segment)
    (hout : ptr ∉ span location ((ElementSize.inlineComposite s).objectWords count.get)) :
    PtrBuilder.AdoptsZeroList clearCap depth ptr location (.inlineComposite s) count a ↔
      (ElementSize.inlineComposite s).OrphanFits count location a ∧
        (⟨ptr, ⟨ptr.segment⟩⟩ : PtrBuilder).ClearSpares clearCap depth (.inlineComposite s)
          location a := by
  have hle := hblank.le_used
  have hlt := hwf.used_lt location.segment
  have hcount := count.get_lt
  have hwords : count.get * s.total ≤ count.get →
      (ElementSize.inlineComposite s).objectWords count.get = count.get * s.total + 1 := by
    intro hfits
    rw [objectWords_eq, exactWords_inlineComposite]
    exact Nat.mod_eq_of_lt (by omega)
  rw [adoptsZeroList_iff hwf hptr hsegment (by omega)]
  constructor
  · rintro ⟨a₁, hclear, offset, hoffset, start, hresolves, -⟩
    have hblanks := PtrBuilder.clear_blanks hclear
    have hptr₁ : ptr.pos < a₁.used ptr.segment := by
      rw [hblanks.used_eq]
      exact hptr
    have hptrWord : (a₁.write ptr 1 fun _ => ListPtr.new offset .inlineComposite count).word ptr =
        ListPtr.new offset .inlineComposite count := by
      rw [Arena.word_set hptr₁, if_pos rfl]
    obtain ⟨hsize, helements, hfits, hused⟩ := resolvesTo_composite
      (by rw [Arena.used_write]; exact hptr₁) hptrWord hsegment hoffset hresolves
    have hne : location ≠ ptr := by
      rintro rfl
      refine hout ⟨rfl, Nat.le_refl _, ?_⟩
      rw [hwords hfits]
      omega
    rw [Arena.word_set hptr₁, if_neg hne] at hsize helements
    rw [Arena.used_write, hblanks.used_eq] at hused
    refine ⟨?_, a₁, hclear, fun _ => ?_⟩
    · rintro _ ⟨⟩
      exact ⟨hfits, hused⟩
    · rcases hblanks.word location with hsame | hnull
      · exact hsame
      · -- an erased tag reads as the one of an empty list of empty structs, which is null
        rw [hblank.tag rfl (by rw [hwords hfits]; omega), ← hsize, ← helements, hnull]
        exact newInlineCompositeTag_empty.symm
  · rintro ⟨hfits, a₁, hclear, hspares⟩
    obtain ⟨hfits, hused⟩ := hfits s rfl
    have hblanks := PtrBuilder.clear_blanks hclear
    have hptr₁ : ptr.pos < a₁.used ptr.segment := by
      rw [hblanks.used_eq]
      exact hptr
    obtain ⟨offset, -, hoffset⟩ := @ObjectBuilder.offsetFromEndOf_apply a ⟨ptr.segment⟩ ptr location
      hsegment (by have := hwf.used_lt ptr.segment; omega) (by omega)
    have hspan : location ∈ span location ((ElementSize.inlineComposite s).objectWords count.get) :=
      ⟨rfl, Nat.le_refl _, by rw [hwords hfits]; omega⟩
    have hne : ∀ r ∈ span location ((ElementSize.inlineComposite s).objectWords count.get), r ≠ ptr :=
      fun r hr heq => hout (heq ▸ hr)
    refine ⟨a₁, hclear, offset, hoffset, location.offset 1, ?_, fun r hr => ?_⟩
    · refine resolvesTo_of_composite ((hblanks.wf hwf).set hptr₁ _) ?_ ?_ hsegment hoffset ?_ hfits ?_
      · rw [Arena.used_write]
        exact hptr₁
      · rw [Arena.word_set hptr₁, if_pos rfl]
        rfl
      · rw [Arena.word_set hptr₁, if_neg (hne _ hspan), hspares rfl]
        exact hblank.tag rfl (by rw [hwords hfits]; omega)
      · rw [Arena.used_write, hblanks.used_eq]
        exact hused
    · have helements : ((ElementSize.inlineComposite s).bits * count.get + 63) / 64 =
          count.get * s.total := by
        show (s.total * 64 * count.get + 63) / 64 = _
        rw [Nat.mul_right_comm, Nat.mul_comm s.total]
        omega
      rw [helements] at hr
      obtain ⟨hsegment', hge, hlt'⟩ := hr
      replace hge : location.pos + 1 ≤ r.pos := hge
      replace hlt' : r.pos < location.pos + 1 + count.get * s.total := hlt'
      have hmem : r ∈ span location ((ElementSize.inlineComposite s).objectWords count.get) := by
        refine ⟨hsegment', by omega, ?_⟩
        rw [hwords hfits]
        omega
      rw [Arena.word_set hptr₁, if_neg (hne r hmem)]
      have hnull := hblank.null r hmem fun _ heq => by
        rw [heq] at hge
        omega
      exact (hblanks.word r).elim (fun heq => heq.trans hnull) id

/-- Clearing a tidy tree that is apart from a word leaves the word. -/
lemma clearSpares_of_tidy (self : PtrBuilder) {tree : Tree} (hbelow : tree.Below a self.ptr)
    (hseparate : tree.Separate self.ptr) (htidy : tree.Tidy a) (hapart : location ∉ tree.withSlot self.ptr) :
    ∀ᶠ depth in Filter.atTop, self.ClearSpares clearCap depth size location a := by
  obtain ⟨n, hn⟩ := clears_exactly_of_tidy self clearCap hbelow hseparate htidy
  refine Filter.eventually_atTop.2 ⟨n, fun depth hdepth => ?_⟩
  obtain ⟨a', hrun, herases⟩ := hn depth hdepth
  refine ⟨a', ?_, fun _ => herases.same location hapart⟩
  unfold PtrBuilder.clear at hrun ⊢
  rcases hclear : self.tryClear (⟨ignoreErrors, clearCap⟩ : Nullifier Empty) depth ⟨a, [], []⟩
    with ⟨u, s⟩ | ⟨e, s⟩ | r
  · rw [hclear] at hrun
    cases hrun
    rfl
  · cases e
  · rw [hclear] at hrun
    cases hrun

end Adopt

/-- **An adopted list orphan reads back** as the list that was allocated, with zero elements, if
and only if the number of its elements can stand for the number of its words, and clearing the
old value of the pointer leaves the tag.  That it does when the old value is tidy. -/
theorem adopted_orphan_reads_back_iff {allocator : Alloc} {arena arena' a : Arena}
    {W : Set SegmentRef} {self builder : ObjectBuilder} {size : ElementSize} {count : ElementCount}
    {object : OrphanObject} {ptr : SegmentRef} (hreachable : Reachable allocator arena)
    (hself : self.segment < arena.segments.length)
    (halloc : self.tryNewListOrphan size count arena = .ok ⟨builder, some (.list object)⟩ arena')
    (hgrows : Arena.Grows W arena' a) (hapart : Disjoint W (object.words size count))
    (hsegment : ptr.segment = builder.segment) (hptr : ptr.pos < a.used ptr.segment)
    (hout : ptr ∉ object.words size count) (clearCap : List ℕ → ℕ → Except Error Unit) :
    ((∀ᶠ depth in Filter.atTop, ∃ a', (⟨ptr, builder⟩ : PtrBuilder).tryAdopt clearCap depth
        ⟨builder, some (.list object)⟩ a = .ok () a' ∧ a'.ReadsZeroList ptr size count) ↔
      size.OrphanFits count object.location a ∧ ∀ᶠ depth in Filter.atTop,
        (⟨ptr, builder⟩ : PtrBuilder).ClearSpares clearCap depth size object.location a) ∧
    ∀ tree : Tree, tree.Below a ptr → tree.Separate ptr → tree.Tidy a →
      object.location ∉ tree.withSlot ptr → ∀ᶠ depth in Filter.atTop,
        (⟨ptr, builder⟩ : PtrBuilder).ClearSpares clearCap depth size object.location a := by
  obtain ⟨⟨object', builder'⟩, arena₁, hrun, hpure⟩ := bind_eq_ok.1 halloc
  cases hpure
  obtain ⟨location, rfl, rfl, hwf', hblank'⟩ :=
    ObjectBuilder.allocListOrphan_ok hreachable.wf hself hrun
  have hblank := hblank'.grows hgrows hapart
  have hptrSegment : ptr.segment = location.segment := hsegment
  refine ⟨?_, fun tree hbelow hseparate htidy hspared =>
    clearSpares_of_tidy _ hbelow hseparate htidy hspared⟩
  have hadopts : ∀ depth,
      PtrBuilder.AdoptsZeroList clearCap depth ptr location size count a ↔
        size.OrphanFits count location a ∧
          (⟨ptr, ⟨ptr.segment⟩⟩ : PtrBuilder).ClearSpares clearCap depth size location a := by
    intro depth
    cases hsize : size.isInlineComposite with
    | false =>
      rw [adoptsZeroList_iff_of_plain hsize hgrows.wf hblank hptr hptrSegment hout]
      refine (and_iff_right ?_).symm
      rintro s rfl
      cases hsize
    | true =>
      obtain ⟨s, rfl⟩ : ∃ s, size = .inlineComposite s := by
        cases size with
        | inlineComposite s => exact ⟨s, rfl⟩
        | _ => cases hsize
      exact adoptsZeroList_iff_of_composite hgrows.wf hblank hptr hptrSegment hout
  rw [← hptrSegment]
  refine (Filter.eventually_congr (Filter.Eventually.of_forall fun depth => ?_)).trans
    (Filter.eventually_and.trans (and_congr_left' Filter.eventually_const))
  have hiff := hadopts depth
  unfold PtrBuilder.AdoptsZeroList at hiff
  rw [← hptrSegment] at hiff
  exact hiff

/-- An allocator of one segment, which has four words. -/
def Alloc.fourWords : Alloc where
  alloc requests size :=
    match requests with
    | [] => if size.get ≤ 4 then some ⟨4, U29.four_lt⟩ else none
    | _ => none
  le_alloc := by
    intro requests size len h
    rcases requests with _ | _
    · obtain ⟨hle, heq⟩ := Option.ite_none_right_eq_some.1 h
      cases heq
      exact hle
    · cases h

/-- Its arena with the root allocated. -/
def fourWordsArena : Arena :=
  ⟨.fourWords, [AllocLen.one], [⟨⟨fun _ => Word.null, ⟨4, U29.four_lt⟩⟩, 0, .used AllocLen.one⟩], 0⟩

lemma reachable_fourWordsArena : Reachable .fourWords fourWordsArena := .root rfl

/-- Two structs of one word each are adopted by the root. -/
theorem adopted_orphan_reads_back_oneWord :
    ∃ orphan arena', (⟨0⟩ : ObjectBuilder).tryNewListOrphan (.inlineComposite oneWord)
        ⟨2, by decide⟩ fourWordsArena = .ok orphan arena' ∧
      ∀ᶠ depth in Filter.atTop, ∃ a', PtrBuilder.root.tryAdopt (fun _ _ => .ok ()) depth orphan arena' =
        .ok () a' ∧ a'.ReadsZeroList ⟨0, 0⟩ (.inlineComposite oneWord) ⟨2, by decide⟩ := by
  refine ⟨⟨⟨0⟩, some (.list (.list ⟨0, 1⟩ .inlineComposite ⟨2, by decide⟩))⟩, _, rfl, ?_⟩
  obtain ⟨-, -, -, hwf, -⟩ := @ObjectBuilder.allocListOrphan_ok (.inlineComposite oneWord)
    ⟨2, by decide⟩ fourWordsArena _ ⟨0⟩ _ _ reachable_fourWordsArena.wf (by decide) rfl
  have hreads := @adopted_orphan_reads_back_iff .fourWords fourWordsArena _ _ ∅ ⟨0⟩ ⟨0⟩
    (.inlineComposite oneWord) ⟨2, by decide⟩ (.list ⟨0, 1⟩ .inlineComposite ⟨2, by decide⟩) ⟨0, 0⟩
    reachable_fourWordsArena (by decide) rfl (.refl hwf) (Set.empty_disjoint _) rfl (by decide)
    (fun hmem => absurd hmem.2.1 (by decide)) fun _ _ => .ok ()
  refine hreads.1.2 ⟨?_, hreads.2 .null ⟨(by decide : 0 < 4), rfl⟩ trivial trivial ?_⟩
  · rintro s ⟨⟩
    exact ⟨by decide, (by decide : 1 + (2 + 1) ≤ 4)⟩
  · rintro (heq | hmem)
    · exact absurd heq (by decide)
    · exact hmem

/-- A struct of two words has too many: the root leads to a list that is one word short. -/
theorem not_adopted_orphan_reads_back :
    Reachable .fourWords fourWordsArena ∧
      ∃ orphan arena', (⟨0⟩ : ObjectBuilder).tryNewListOrphan (.inlineComposite twoWords)
          ⟨1, by decide⟩ fourWordsArena = .ok orphan arena' ∧
        ∀ depth, ∃ a', PtrBuilder.root.tryAdopt (fun _ _ => .ok ()) depth orphan arena' = .ok () a' ∧
          a'.resolve ⟨0, 0⟩ = .error .inlineCompositeOverrun none :=
  ⟨reachable_fourWordsArena, _, _, rfl, fun _ => ⟨_, rfl, rfl⟩⟩

end Recapn.Ptr

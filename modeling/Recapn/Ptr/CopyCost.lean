/-
# What a deep copy costs

A deep copy allocates the objects of the value that it copies, one after the other.  As long as
the segment of the pointer has room they lie in it one behind the other, and the copy uses exactly
the words of the value.  Nothing but an allocation that fails, or a read limit that is exceeded,
keeps it from that.
-/
import Recapn.Lib.Usage
import Recapn.Ptr.Limit
import Recapn.Ptr.NullCopy
import Recapn.Ptr.TotalSize

namespace Recapn.Ptr

open Recapn.Lib Recapn.Lib.Prog

/-! ## Words that are taken -/

namespace Arena

/-- So many words more are in use in one segment, and in no other one. -/
structure Extends (g words : ℕ) (a a' : Arena) : Prop where
  used_eq : ∀ i, a'.used i = if i = g then a.used i + words else a.used i
  len_eq : ∀ i, a'.len i = a.len i

/-- At least so many words more are in use in the segment, or some are in another one. -/
def Outgrows (g words : ℕ) (a a' : Arena) : Prop :=
  a.used g + words ≤ a'.used g ∨ ∃ i, i ≠ g ∧ a.used i < a'.used i

/-- From a builder in `g` so many words were taken, in the segment `g'`.  They are in `g` if there
is room. -/
structure Takes (g words : ℕ) (a : Arena) (g' : ℕ) (a' : Arena) : Prop where
  wf : a'.Wf
  used_le : ∀ i, a.used i ≤ a'.used i
  outgrows : Outgrows g words a a'
  away : g' ≠ g → ∃ i, i ≠ g ∧ a.used i < a'.used i
  fits : a.used g + words ≤ a.len g → g' = g ∧ Extends g words a a'

section Words

variable {a a' a'' : Arena} {g g' words words' : ℕ}

lemma Extends.refl (g : ℕ) (a : Arena) : Extends g 0 a a :=
  ⟨fun i => by rw [Nat.add_zero, ite_self], fun _ => rfl⟩

lemma Extends.trans (h : Extends g words a a') (h' : Extends g words' a' a'') :
    Extends g (words + words') a a'' := by
  refine ⟨fun i => ?_, fun i => (h'.len_eq i).trans (h.len_eq i)⟩
  rw [h'.used_eq, h.used_eq]
  by_cases hi : i = g
  · rw [if_pos hi, if_pos hi, if_pos hi, Nat.add_assoc]
  · rw [if_neg hi, if_neg hi, if_neg hi]

/-- Words may be written as well. -/
lemma Extends.write (h : Extends g words a a') (start : SegmentRef) (len : ℕ) (ws : ℕ → Word) :
    Extends g words a (a'.write start len ws) :=
  ⟨fun i => (used_write _ _ _ _ i).trans (h.used_eq i),
    fun i => (len_write _ _ _ _ i).trans (h.len_eq i)⟩

lemma Extends.used_self (h : Extends g words a a') : a'.used g = a.used g + words := by
  rw [h.used_eq, if_pos rfl]

lemma Extends.used_le (h : Extends g words a a') (i : ℕ) : a.used i ≤ a'.used i := by
  rw [h.used_eq]
  split <;> omega

/-- Words that were taken in the segment itself. -/
lemma Extends.takes (h : Extends g words a a') (hwf : a'.Wf) : Takes g words a g a' :=
  ⟨hwf, h.used_le, Or.inl (Nat.le_of_eq h.used_self.symm), fun hne => absurd rfl hne, fun _ => ⟨rfl, h⟩⟩

/-- What outgrows the room is taken from fresh words. -/
lemma takes_of_fresh {F : Set SegmentRef} {place : SegmentRef} (hwf : a.Wf) (hgrows : Grows F a a')
    (hfresh : span place words ⊆ fresh a a') (hfull : a.len g < a.used g + words) :
    Takes g words a place.segment a' := by
  have hlen := hwf.used_le_len g
  have hfirst := mem_fresh.1 (hfresh ⟨rfl, Nat.le_refl _, Nat.lt_add_of_pos_right (by omega)⟩)
  have hlast := mem_fresh.1 (hfresh (a := place.offset (words - 1)) ⟨rfl, Nat.le_add_right _ _, by
    show place.pos + (words - 1) < place.pos + words
    omega⟩)
  have hend : place.pos + (words - 1) < a'.used place.segment := hlast.2
  have haway : place.segment ≠ g → ∃ i, i ≠ g ∧ a.used i < a'.used i :=
    fun hne => ⟨place.segment, hne, by omega⟩
  refine ⟨hgrows.wf, hgrows.used_le, ?_, haway, fun hroom => absurd hroom (by omega)⟩
  by_cases hsegment : place.segment = g
  · left
    rw [hsegment] at hfirst hend
    omega
  · exact Or.inr (haway hsegment)

end Words

/-- Using more of a segment does not change the length of any. -/
lemma len_onSegment_tryUseLen {a a' : Arena} {i : ℕ} {size : AllocLen} {o : Option SegmentOffset}
    (h : onSegment i (ArenaSegment.tryUseLen size) a = .ok o a') (j : ℕ) : a'.len j = a.len j := by
  unfold onSegment at h
  rcases hs : a.segments[i]? with _ | segment
  · rw [hs] at h
    cases h
  · rw [hs] at h
    have hkept : Prog.Fixes (fun s : ArenaSegment => s.segment.len) (ArenaSegment.tryUseLen size) := by
      refine fixes_bind fixes_get fun self => ?_
      rcases self.state with used | _ | _
      · refine fixes_ite (fixes_pure _) (fixes_bind (fixes_unwrap _) fun _ => ?_)
        exact fixes_bind (fixes_modify fun _ => rfl) fun _ => fixes_pure _
      · exact fixes_halt _
      · exact fixes_halt _
    rcases hrun : ArenaSegment.tryUseLen size segment with ⟨o', segment'⟩ | ⟨e, segment'⟩ | r
    · simp only [hrun] at h
      cases h
      have hlen : segment'.segment.len = segment.segment.len := hkept.ok hrun
      unfold Arena.len
      dsimp only
      rw [List.getElem?_set]
      by_cases hij : i = j
      · subst hij
        rw [if_pos rfl, if_pos (List.getElem?_eq_some_iff.1 hs).1, hs]
        exact congrArg U29.get hlen
      · rw [if_neg hij]
    · simp only [hrun] at h
      cases h
    · simp only [hrun] at h
      cases h

end Arena

/-! ## What allocations take -/

namespace ObjectBuilder

variable {a a' : Arena} {self builder : ObjectBuilder} {slot start : SegmentRef}

/-- With room, an object is placed in the segment of its pointer. -/
lemma allocInSegment_of_room (hwf : a.Wf) (hself : self.segment = slot.segment)
    (hslot : slot.pos < a.used slot.segment) {len : AllocLen}
    (hroom : a.used slot.segment + len.get ≤ a.len slot.segment)
    (make : SignedSegmentOffset → WirePtr) :
    ∃ r a₁ a', self.allocInSegment len a = .ok (some r) a₁ ∧
      (self.offsetFromEndOf slot r >>= fun offset => self.setPtr slot (make offset) >>= fun _ =>
        pure (r, self) : BuildM _) a₁ = .ok (r, self) a' ∧
      r.segment = slot.segment ∧ r.pos + len.get = a'.used r.segment ∧
      (∃ offset, a'.word slot = make offset) ∧ Arena.Extends slot.segment len.get a a' ∧ a'.Wf := by
  have hlength : self.segment < a.segments.length := by
    rw [hself]
    exact Arena.lt_length_of_used (by omega)
  rcases allocInSegment_cases hwf hlength len with ⟨hfull, -⟩ | ⟨-, r, a₁, hrun, hsegment, hallocates⟩
  · rw [hself] at hfull
    omega
  have hr : r.segment = slot.segment := hsegment.trans hself
  have hrPos := hallocates.pos_eq
  have hused := hwf.used_lt r.segment
  have hslotLt := hwf.used_lt slot.segment
  obtain ⟨offset, hoffset, -⟩ :=
    @offsetFromEndOf_apply a₁ self slot r hr.symm (by omega) (by omega)
  have hslot₁ : slot.pos < a₁.used slot.segment := hallocates.grows.lt_used hslot
  have hextends : Arena.Extends slot.segment len.get a a₁ := by
    refine ⟨fun i => ?_, fun i => ?_⟩
    · rw [hallocates.used_eq, hrPos, hr]
      by_cases hi : i = slot.segment
      · rw [if_pos hi, if_pos hi, hi]
      · rw [if_neg hi, if_neg hi]
    · obtain ⟨o, a₂, honSegment, hpure⟩ := bind_eq_ok.1 hrun
      obtain ⟨-, rfl⟩ := pure_eq_ok.1 hpure
      exact Arena.len_onSegment_tryUseLen honSegment i
  refine ⟨r, a₁, _, hrun, ?_, hr, ?_, ⟨offset, ?_⟩, hextends.write _ _ _,
    hallocates.wf.set hslot₁ (make offset)⟩
  · rw [bind_of_ok hoffset, bind_of_ok (setPtr_apply hallocates.wf hslot₁ _)]
    rfl
  · rw [Arena.used_write, hallocates.used_eq, if_pos rfl]
  · rw [Arena.word_set hslot₁, if_pos rfl]

/-- An object was placed behind what was used of the segment of its pointer, which is a near one. -/
structure Appends (shape : Shape) (slot start : SegmentRef) (a a' : Arena) : Prop where
  wf : a'.Wf
  segment : start.segment = slot.segment
  grows : Arena.Extends slot.segment shape.size a a'
  kind : WirePtr.kind (a'.word slot) ≠ .far
  place : (shape.size = 0 ∧ slot.pos ≤ start.pos ∧ start.pos ≤ slot.pos + 1) ∨
    start.pos + shape.words = a'.used slot.segment
  tag : ∀ size count, shape = .list (.inlineComposite size) count →
    (ListPtr.elementCount (a'.word slot)).get = shape.words

/-- With room, a struct uses its words. -/
lemma allocStruct_of_room (hwf : a.Wf) (hself : self.segment = slot.segment)
    (hslot : slot.pos < a.used slot.segment) {size : StructSize}
    (hroom : a.used slot.segment + size.total ≤ a.len slot.segment) :
    ∃ start a', self.allocStruct slot size a = .ok (start, self) a' ∧
      Appends (.struct size) slot start a a' := by
  rcases hnew : AllocLen.new size.total with _ | len
  · -- nothing is allocated for an empty struct
    have htotal := size.total_lt
    have hzero : size.total = 0 := (AllocLen.new_eq_none.1 hnew).resolve_right (by omega)
    obtain rfl := StructSize.total_eq_zero_iff.1 hzero
    refine ⟨slot, _, allocStruct_empty hwf hslot, hwf.set hslot _, rfl, (Arena.Extends.refl _ a).write _ _ _,
      ?_, Or.inl ⟨rfl, Nat.le_refl _, Nat.le_succ _⟩, nofun⟩
    rw [Arena.word_set hslot, if_pos rfl]
    decide
  · have hlen := AllocLen.new_eq_some.1 hnew
    rw [← hlen] at hroom
    obtain ⟨r, a₁, a', halloc, hrest, hr, hrUsed, ⟨offset, hword⟩, hextends, hwf'⟩ :=
      allocInSegment_of_room hwf hself hslot hroom fun offset => StructPtr.new offset size
    rw [hlen] at hextends
    refine ⟨r, a', ?_, hwf', hr, hextends, ?_, Or.inr ?_, nofun⟩
    · unfold allocStruct
      rw [hnew]
      exact (bind_of_ok halloc).trans hrest
    · rw [hword, StructPtr.kind_new]
      decide
    · rw [← hr, ← hrUsed, hlen]
      rfl

/-- With room, a list uses its words, and one for its tag. -/
lemma allocList_of_room (hwf : a.Wf) (hself : self.segment = slot.segment)
    (hslot : slot.pos < a.used slot.segment) {size : ElementSize} {count : ElementCount}
    (hroom : a.used slot.segment + size.exactWords count ≤ a.len slot.segment) :
    ∃ start len a', self.allocList slot size count a = .ok (start, len, self) a' ∧
      Appends (.list size count) slot start a a' := by
  have hlt := a.len_lt slot.segment
  have hfits : size.exactWords count < 2 ^ 29 := by omega
  obtain ⟨segment⟩ := self
  obtain rfl : segment = slot.segment := hself
  by_cases hzero : size.exactWords count = 0
  · have hsize : (Shape.list size count).size = 0 := hzero
    refine ⟨_, _, _, (allocList_zero hwf hslot rfl hfits hzero).1, hwf.set hslot _, rfl, ?_, ?_,
      Or.inl ⟨hsize, Nat.le_succ _, Nat.le_refl _⟩, ?_⟩
    · rw [hsize]
      exact (Arena.Extends.refl _ a).write _ _ _
    · rw [Arena.word_set hslot, if_pos rfl, ListPtr.kind_new]
      decide
    · rintro elem _ ⟨⟩
      rw [exactWords_inlineComposite] at hzero
      exact absurd hzero (Nat.succ_ne_zero _)
  obtain ⟨words, len, hwords, hlen, hrun⟩ :=
    @allocList_eq ⟨slot.segment⟩ slot size count hfits hzero
  rw [← hlen] at hroom
  obtain ⟨r, a₁, a₂, halloc, hrest, hr, hrUsed, ⟨offset, hword⟩, hextends, hwf₂⟩ :=
    @allocInSegment_of_room a ⟨slot.segment⟩ slot hwf rfl hslot len hroom
      fun offset => ListPtr.new offset size.asPtrSize words
  have hplace : (⟨slot.segment⟩ : ObjectBuilder).placeList slot size count words len a =
      .ok (r, ⟨slot.segment⟩) a₂ := by
    unfold placeList
    exact (bind_of_ok halloc).trans hrest
  have hkind : WirePtr.kind (a₂.word slot) ≠ .far := by
    rw [hword, ListPtr.kind_new]
    decide
  have hexact : size.exactWords count = (Shape.list size count).words +
      if size.isInlineComposite then 1 else 0 := rfl
  rw [hrun, bind_of_ok hplace]
  rw [hlen] at hextends
  cases size with
  | inlineComposite elem =>
    have hexact' : len.get = (Shape.list (.inlineComposite elem) count).words + 1 := hlen.trans hexact
    have hrLt : r.pos < a₂.used r.segment := by omega
    have hold : slot.pos < r.pos := by
      have hused := hextends.used_self
      rw [hr] at hrUsed
      omega
    have haway : ((a₂.write r 1 fun _ => StructPtr.newInlineCompositeTag count elem).word slot) = a₂.word slot := by
      rw [Arena.word_set hrLt, if_neg fun heq => by rw [heq] at hold; omega]
    refine ⟨r.offset 1, len.toU29, _, ?_, hwf₂.set hrLt (StructPtr.newInlineCompositeTag count elem), hr,
      hextends.write r 1 _, ?_, Or.inr ?_, fun _ _ _ => ?_⟩
    · dsimp only
      rw [setTag, bind_apply, bind_of_ok (setPtr_apply hwf₂ hrLt _)]
      rfl
    · rw [haway]
      exact hkind
    · rw [Arena.used_write, ← hr, ← hrUsed, hexact']
      show r.pos + 1 + _ = _
      omega
    · rw [haway, hword, ListPtr.elementCount_new, hwords]
      exact totalWords_of_fits hfits
  | _ =>
    refine ⟨r, len.toU29, a₂, rfl, hwf₂, hr, hextends, hkind, Or.inr ?_, by rintro _ _ ⟨⟩⟩
    rw [← hr, ← hrUsed, hlen, hexact]
    rfl

end ObjectBuilder

/-- From a builder in `g` the program takes so many words, in the segment of its result, or there
is no room for them and the allocation fails. -/
def Allots {α : Type} (g words : ℕ) (x : BuildM α) (segment : α → ℕ) (a : Arena) : Prop :=
  match x a with
  | .ok v a' => a.Takes g words (segment v) a'
  | .error e a' => (∃ n, e = .allocFailed n) ∧ a.Grows ∅ a' ∧ a.len g < a.used g + words
  | .halt _ => False

section Allots

variable {a : Arena} {self : ObjectBuilder} {slot : SegmentRef}

lemma allots_allocStruct (hwf : a.Wf) (hself : self.segment = slot.segment)
    (hslot : slot.pos < a.used slot.segment) (size : StructSize) :
    Allots slot.segment size.total (self.allocStruct slot size) (fun v => v.1.segment) a := by
  unfold Allots
  by_cases hroom : a.used slot.segment + size.total ≤ a.len slot.segment
  · obtain ⟨start, a', hrun, happends⟩ := ObjectBuilder.allocStruct_of_room hwf hself hslot hroom
    rw [hrun]
    exact happends.segment.symm ▸ happends.grows.takes happends.wf
  · rcases ObjectBuilder.allocStruct_reserves hwf hself hslot size with
      ⟨start, a', hrun, -, -, hlays⟩ | ⟨n, a', hrun, hgrows⟩
    · rw [hrun]
      exact Arena.takes_of_fresh hwf hlays.grows hlays.mem_fresh (by omega)
    · rw [hrun]
      exact ⟨⟨n, rfl⟩, hgrows, by omega⟩

lemma allots_allocList (hwf : a.Wf) (hself : self.segment = slot.segment)
    (hslot : slot.pos < a.used slot.segment) {size : ElementSize} {count : ElementCount}
    (hfits : size.exactWords count < 2 ^ 29) :
    Allots slot.segment (size.exactWords count) (self.allocList slot size count)
      (fun v => v.1.segment) a := by
  unfold Allots
  by_cases hroom : a.used slot.segment + size.exactWords count ≤ a.len slot.segment
  · obtain ⟨start, len, a', hrun, happends⟩ := ObjectBuilder.allocList_of_room hwf hself hslot hroom
    rw [hrun]
    exact happends.segment.symm ▸ happends.grows.takes happends.wf
  · rcases ObjectBuilder.allocList_reserves hwf hself hslot hfits with
      ⟨start, len, a', hrun, -, -, -, hreserves⟩ | ⟨n, a', hrun, hgrows⟩
    · have hfresh := allocList_of_fits hwf hself hslot hfits
      unfold AllocatesOrFails at hfresh
      rw [hrun] at hfresh ⊢
      have hplace : span (size.listPlace start) (size.exactWords count) ⊆ a.fresh a' := hfresh
      have htakes := Arena.takes_of_fresh hwf hreserves.grows hplace (g := slot.segment) (by omega)
      have hsegment : (size.listPlace start).segment = start.segment := by
        unfold ElementSize.listPlace
        split <;> rfl
      rw [hsegment] at htakes
      exact htakes
    · rw [hrun]
      exact ⟨⟨n, rfl⟩, hgrows, by omega⟩

end Allots

/-! ## What copies use -/

/-- A read limit is exceeded, or there is no room. -/
def Error.Hinders : Error → Prop
  | .readLimitExceeded => True
  | .allocFailed _ => True
  | _ => False

/-- What was reported in between says that the run was hindered. -/
def Reports (before after : List Error) : Prop :=
  ∃ new, after = new ++ before ∧ ∀ e ∈ new, e.Hinders

namespace Reports

variable {l l' l'' : List Error}

lemma refl (l : List Error) : Reports l l := ⟨[], rfl, fun _ h => absurd h List.not_mem_nil⟩

lemma trans (h : Reports l l') (h' : Reports l' l'') : Reports l l'' := by
  obtain ⟨new, rfl, hnew⟩ := h
  obtain ⟨new', rfl, hnew'⟩ := h'
  refine ⟨new' ++ new, (List.append_assoc _ _ _).symm, fun e he => ?_⟩
  exact (List.mem_append.1 he).elim (hnew' e) (hnew e)

lemma cons {e : Error} (he : e.Hinders) (l : List Error) : Reports l (e :: l) :=
  ⟨[e], rfl, fun _ he' => List.mem_singleton.1 he' ▸ he⟩

lemma suffix (h : Reports l l') : l <:+ l' := by
  obtain ⟨new, rfl, -⟩ := h
  exact List.suffix_append _ _

end Reports

/-- No error is handled by going on. -/
def ErrorHandler.Strict {ε : Type} (handler : ErrorHandler ε) : Prop :=
  ∀ reported err, handler reported err ≠ none

/-- A copy to a pointer in `g` succeeded.  If nothing was reported it has used so many words.
Without a limit it does report nothing if there is room for them. -/
structure Spent {ε : Type} (handler : ErrorHandler ε) (g words : ℕ) (s s' : CopyState) : Prop where
  wf : s'.arena.Wf
  used_le : ∀ i, s.arena.used i ≤ s'.arena.used i
  reports : Reports s.reported s'.reported
  outgrows : s'.reported = s.reported → Arena.Outgrows g words s.arena s'.arena
  strict : handler.Strict → s'.reported = s.reported
  fits : s.limiter = none ∨ s'.reported = s.reported → s.arena.used g + words ≤ s.arena.len g →
    (s.limiter = none → s'.limiter = none) ∧ s'.reported = s.reported ∧
      Arena.Extends g words s.arena s'.arena

/-- The error is not that a limit was exceeded. -/
def Unlimited {ε : Type} (handler : ErrorHandler ε) (s : CopyState) (e : ε) : Prop :=
  s.limiter = none ∨ handler.Strict ∧ ∀ reported, handler reported .readLimitExceeded ≠ some e

/-- A copy to a pointer in `g` was broken off, as something was reported. -/
structure Hindered {ε : Type} (handler : ErrorHandler ε) (g words : ℕ) (s : CopyState) (e : ε)
    (s' : CopyState) : Prop where
  reports : Reports s.reported s'.reported
  reported : s'.reported ≠ s.reported
  full : Unlimited handler s e → s.arena.len g < s.arena.used g + words

section Usage

variable {ε : Type} {handler : ErrorHandler ε} {e : ε} {g g' words words' : ℕ} {s s' s'' : CopyState}

lemma Spent.refl (hwf : s.arena.Wf) (g : ℕ) : Spent handler g 0 s s :=
  ⟨hwf, fun _ => Nat.le_refl _, .refl _, fun _ => Or.inl (Nat.le_refl _), fun _ => rfl,
    fun _ _ => ⟨fun h => h, rfl, .refl g _⟩⟩

/-- What is outgrown stays so. -/
lemma Spent.trans (h : Spent handler g words s s') (h' : Spent handler g words' s' s'') :
    Spent handler g (words + words') s s'' := by
  refine ⟨h'.wf, fun i => (h.used_le i).trans (h'.used_le i), h.reports.trans h'.reports,
    fun heq => ?_, fun hstrict => (h'.strict hstrict).trans (h.strict hstrict), fun hfree hroom => ?_⟩
  · obtain ⟨heq₁, heq₂⟩ := reported_eq_of_suffix h.reports.suffix h'.reports.suffix heq
    rcases h.outgrows heq₁ with hfirst | ⟨i, hi, hlt⟩
    · rcases h'.outgrows heq₂ with hsecond | ⟨i, hi, hlt⟩
      · left
        omega
      · exact Or.inr ⟨i, hi, (h.used_le i).trans_lt hlt⟩
    · exact Or.inr ⟨i, hi, hlt.trans_le (h'.used_le i)⟩
  · have hfirst := hfree.imp_right fun heq =>
      (reported_eq_of_suffix h.reports.suffix h'.reports.suffix heq).1
    obtain ⟨hlimiter₁, hreported₁, hextends₁⟩ := h.fits hfirst (by omega)
    obtain ⟨hlimiter₂, hreported₂, hextends₂⟩ := h'.fits
      (hfree.imp hlimiter₁ fun heq => heq.trans hreported₁.symm) (by
        rw [hextends₁.used_self, hextends₁.len_eq]
        omega)
    exact ⟨fun hlimiter => hlimiter₂ (hlimiter₁ hlimiter), hreported₂.trans hreported₁,
      hextends₁.trans hextends₂⟩

lemma Hindered.add (h : Hindered handler g words s e s') (words' : ℕ) :
    Hindered handler g (words + words') s e s' :=
  ⟨h.reports, h.reported, fun hfree => (h.full hfree).trans_le (Nat.add_le_add_left (Nat.le_add_right _ _) _)⟩

lemma Spent.hindered (h : Spent handler g words s s') (h' : Hindered handler g words' s' e s'') :
    Hindered handler g (words + words') s e s'' := by
  refine ⟨h.reports.trans h'.reports, fun heq => ?_, fun hfree => ?_⟩
  · exact h'.reported (reported_eq_of_suffix h.reports.suffix h'.reports.suffix heq).2
  · by_contra hroom
    obtain ⟨hlimiter₁, -, hextends₁⟩ := h.fits (hfree.imp_right fun hstrict => h.strict hstrict.1) (by omega)
    have hfull := h'.full (hfree.imp_left hlimiter₁)
    rw [hextends₁.used_self, hextends₁.len_eq] at hfull
    omega

/-- The words that copies to pointers in a segment use. -/
def copyUsage {ε : Type} (handler : ErrorHandler ε) (g : ℕ) : Usage ℕ ε CopyState where
  done := Spent handler g
  failed := Hindered handler g
  done_add := Spent.trans
  failed_add n h := h.add n
  failed_after := Spent.hindered

/-- Words were written. -/
lemma Spent.of_write {dst : SegmentRef} {len : ℕ} (hwf : s.arena.Wf)
    (hdst : dst.pos + len ≤ s.arena.used dst.segment) (ws : ℕ → Word) (g : ℕ) :
    Spent handler g 0 s { s with arena := s.arena.write dst len ws } := by
  have hgrows := Arena.grows_write hwf hdst ws
  exact ⟨hgrows.wf, hgrows.used_le, .refl _, fun _ => Or.inl (hgrows.used_le g), fun _ => rfl,
    fun _ _ => ⟨fun h => h, rfl, (Arena.Extends.refl g _).write _ _ _⟩⟩

/-- What is used after words were taken for the object, in the segment where it is. -/
lemma Arena.Takes.spent {a₁ : Arena} (h : s.arena.Takes g words g' a₁)
    (h' : Spent handler g' words' { s with arena := a₁ } s') : Spent handler g (words + words') s s' := by
  refine ⟨h'.wf, fun i => (h.used_le i).trans (h'.used_le i), h'.reports, fun heq => ?_, h'.strict,
    fun hfree hroom => ?_⟩
  · by_cases hg : g' = g
    · subst hg
      rcases h.outgrows with hfirst | ⟨i, hi, hlt⟩
      · rcases h'.outgrows heq with hsecond | ⟨i, hi, hlt⟩
        · left
          have hsecond' : a₁.used g' + words' ≤ s'.arena.used g' := hsecond
          omega
        · exact Or.inr ⟨i, hi, (h.used_le i).trans_lt hlt⟩
      · exact Or.inr ⟨i, hi, hlt.trans_le (h'.used_le i)⟩
    · obtain ⟨i, hi, hlt⟩ := h.away hg
      exact Or.inr ⟨i, hi, hlt.trans_le (h'.used_le i)⟩
  · obtain ⟨rfl, hextends⟩ := h.fits (by omega)
    obtain ⟨hlimiter', hreported, hextends'⟩ := h'.fits hfree (by
      show a₁.used g' + words' ≤ a₁.len g'
      rw [hextends.used_self, hextends.len_eq]
      omega)
    exact ⟨hlimiter', hreported, hextends.trans hextends'⟩

lemma Arena.Takes.hindered {a₁ : Arena} (h : s.arena.Takes g words g' a₁)
    (h' : Hindered handler g' words' { s with arena := a₁ } e s') :
    Hindered handler g (words + words') s e s' := by
  refine ⟨h'.reports, h'.reported, fun hfree => ?_⟩
  by_contra hroom
  obtain ⟨rfl, hextends⟩ := h.fits (by omega)
  have hfull : a₁.len g' < a₁.used g' + words' := h'.full hfree
  rw [hextends.used_self, hextends.len_eq] at hfull
  omega

/-- What is read of the source counts against the limit alone. -/
lemma uses_of_limiter {o : Outcome ε CopyState Unit} {l : Limiter} (hlimiter : s.limiter = none → l = none)
    (h : o.Uses (copyUsage handler g) words { s with limiter := l }) :
    o.Uses (copyUsage handler g) words s := by
  rcases o with ⟨u, s'⟩ | ⟨e, s'⟩ | r
  · refine ⟨h.wf, h.used_le, h.reports, h.outgrows, h.strict, fun hfree hroom => ?_⟩
    obtain ⟨hnone, hrest⟩ := h.fits (hfree.imp_left hlimiter) hroom
    exact ⟨fun hs => hnone (hlimiter hs), hrest⟩
  · exact ⟨h.reports, h.reported, fun hfree => h.full (hfree.imp_left hlimiter)⟩
  · exact h

end Usage

/-! ## Copies of blocks -/

section Copies

open CopyMachine

variable {ε : Type} {machine : CopyMachine ε} {handler : ErrorHandler ε} {a : ReadArena} {id : SegmentId}
  {block : Segment} {copyPtr : CopyPtr ε} {src n w : ℕ} {ws : ℕ → ℕ} {dst slot : SegmentRef} {s : CopyState}

/-- A copy of the pointer uses so many words.  A null pointer is not copied. -/
def Costs (handler : ErrorHandler ε) (copyPtr : CopyPtr ε) (a : ReadArena) (id : SegmentId) (src w : ℕ) : Prop :=
  ∀ block, a id = some block → (block.data src = Word.null → w = 0) ∧
    (block.data src ≠ Word.null → ∀ (slot : SegmentRef) (s : CopyState), s.arena.Wf →
      slot.pos < s.arena.used slot.segment →
      (copyPtr src (.inSegment a id block) slot ⟨slot.segment⟩ s).Uses (copyUsage handler slot.segment) w s)

/-- Words of a block that is in use are written for nothing. -/
lemma uses_copyWords (hsrc : src + n ≤ block.len.get) (hwf : s.arena.Wf)
    (hdst : dst.pos + n ≤ s.arena.used dst.segment) (g : ℕ) :
    ((copyWords src (.inSegment a id block) dst n : CopyM ε Unit) s).Uses (copyUsage handler g) 0 s := by
  have hlen := hwf.used_le_len dst.segment
  have hwrite : (writing (Arena.writeSection dst n fun k => block.data (src + k)) : CopyM ε Unit) s =
      .ok () { s with arena := s.arena.write dst n fun k => block.data (src + k) } := by
    rw [writing, zoom, Arena.writeSection, if_pos (by omega)]
  rw [copyWords, sectionSlice_eq_pure hsrc, pure_bind_eq, hwrite]
  exact Spent.of_write hwf hdst _ g

/-- Pointers one behind the other. -/
lemma uses_copyPtrSection (hblock : a id = some block) (hsrc : src + n ≤ block.len.get)
    (hwf : s.arena.Wf) (hdst : dst.pos + n ≤ s.arena.used dst.segment)
    (hcosts : ∀ k < n, Costs handler copyPtr a id (src + k) (ws k)) :
    (copyPtrSection copyPtr src (.inSegment a id block) dst ⟨dst.segment⟩ n s).Uses
      (copyUsage handler dst.segment) (∑ k ∈ Finset.range n, ws k) s := by
  refine uses_forRange (Spent.refl hwf _) fun k hk t ht => ?_
  rw [sectionSlice_eq_pure (show src + k + 1 ≤ block.len.get by omega), pure_bind_eq]
  dsimp only [Nat.add_zero]
  by_cases hnull : (block.data (src + k)).isNull = true
  · rw [if_pos_apply hnull, (hcosts k hk block hblock).1 (Word.isNull_iff.1 hnull)]
    exact uses_pure (Spent.refl ht.wf _)
  · have hsome : block.data (src + k) ≠ Word.null := fun h => hnull (Word.isNull_iff.2 h)
    have hused := ht.used_le dst.segment
    rw [if_neg_apply hnull]
    refine (hcosts k hk block hblock).2 hsome (dst.offset k) t ht.wf ?_
    show dst.pos + k < t.arena.used dst.segment
    omega

/-- A struct of the same size. -/
lemma uses_copyStruct {size : StructSize} (hblock : a id = some block)
    (hsrc : src + size.total ≤ block.len.get) (hwf : s.arena.Wf)
    (hdst : dst.pos + size.total ≤ s.arena.used dst.segment)
    (hcosts : ∀ k < size.ptrs, Costs handler copyPtr a id (src + size.data + k) (ws k)) :
    (copyStruct copyPtr src size (.inSegment a id block) dst size ⟨dst.segment⟩ s).Uses
      (copyUsage handler dst.segment) (∑ k ∈ Finset.range size.ptrs, ws k) s := by
  have htotal := size.total_eq
  rw [copyStruct, Nat.min_self, Nat.min_self]
  rw [← Nat.zero_add (∑ k ∈ Finset.range size.ptrs, ws k)]
  refine uses_bind (uses_copyWords (by omega) hwf (by omega) _) fun _ t ht => ?_
  have hused := ht.used_le dst.segment
  refine @uses_copyPtrSection _ _ _ _ _ _ _ _ _ (dst.offset size.data) _ hblock (by omega) ht.wf ?_ hcosts
  show dst.pos + size.data + size.ptrs ≤ t.arena.used dst.segment
  omega

/-- Structs of the same size, one behind the other. -/
lemma uses_copyInlineComposites {size : StructSize} {count : ElementCount} {ws : ℕ → ℕ → ℕ}
    (hblock : a id = some block) (hsrc : src + size.total * count.get ≤ block.len.get)
    (hwf : s.arena.Wf) (hdst : dst.pos + size.total * count.get ≤ s.arena.used dst.segment)
    (hcosts : ∀ i < count.get, ∀ k < size.ptrs,
      Costs handler copyPtr a id (src + size.total * i + size.data + k) (ws i k)) :
    (copyInlineComposites copyPtr src size (.inSegment a id block) dst size ⟨dst.segment⟩ count
      s).Uses (copyUsage handler dst.segment)
      (∑ i ∈ Finset.range count.get, ∑ k ∈ Finset.range size.ptrs, ws i k) s := by
  have hlt := block.len.get_lt
  have hstep : size.total * count.get ≤ U29.maxValue := by
    show _ ≤ 2 ^ 29 - 1
    omega
  rw [copyInlineComposites, stepByUnchecked, assert_of hstep, pure_bind_eq, pure_bind_eq]
  refine uses_forRange (Spent.refl hwf _) fun i hi t ht => ?_
  have hnext := size.mul_succ_le hi
  have hused := ht.used_le dst.segment
  refine @uses_copyStruct _ _ _ _ _ _ _ _ (dst.offset (size.total * i)) _ _ hblock (by omega) ht.wf ?_
    (hcosts i hi)
  show dst.pos + size.total * i + size.total ≤ t.arena.used dst.segment
  omega

/-- A list that has words uses what its pointers use. -/
lemma uses_copyList {size : ElementSize} {count : ElementCount} (hblock : a id = some block)
    (hsrc : src + (Shape.list size count).words ≤ block.len.get) (hwf : s.arena.Wf)
    (hdst : dst.pos + (Shape.list size count).words ≤ s.arena.used dst.segment) (hvoid : size ≠ .void)
    (hcosts : ∀ k < (Shape.list size count).words, (Shape.list size count).isPtr k = true →
      Costs handler copyPtr a id (src + k) (ws k)) :
    (copyList copyPtr src (.inSegment a id block) dst ⟨dst.segment⟩ size count s).Uses
      (copyUsage handler dst.segment) ((Shape.list size count).sumPtrs ws) s := by
  have hlt := block.len.get_lt
  obtain ⟨words, hnew, hwords⟩ := @totalWords_of_lt size count (by omega)
  rw [copyList.eq_def]
  by_cases hptrs : size.isPtrs = true
  · have hptr := Shape.isPtr_of_isPtrs hptrs count
    have hsum : (Shape.list size count).sumPtrs ws = ∑ k ∈ Finset.range words.get, ws k := by
      rw [hwords]
      exact Finset.sum_congr rfl fun k _ => if_pos (hptr k)
    rw [if_pos_apply hptrs, hnew, unwrap_some, pure_bind_eq, hsum]
    exact uses_copyPtrSection hblock (hwords ▸ hsrc) hwf (hwords ▸ hdst)
      fun k hk => hcosts k (hwords ▸ hk) (hptr k)
  rw [if_neg_apply hptrs]
  by_cases hdata : size.isData = true
  · have hsum : (Shape.list size count).sumPtrs ws = 0 := Finset.sum_eq_zero fun k _ => if_neg (by
      rw [Shape.isPtr_of_isData hptrs hdata count k]
      exact Bool.false_ne_true)
    rw [if_pos_apply hdata, hnew, unwrap_some, pure_bind_eq, hsum]
    exact uses_copyWords (hwords ▸ hsrc) hwf (hwords ▸ hdst) _
  rw [if_neg_apply hdata]
  cases size with
  | inlineComposite size =>
    rw [Shape.words_structs] at hsrc hdst
    rw [Shape.sumPtrs_structs]
    refine uses_copyInlineComposites hblock hsrc hwf hdst fun i hi k hk => ?_
    obtain ⟨hlt', hptr⟩ := isPtr_of_element hi hk
    rw [show src + size.total * i + size.data + k = src + (size.total * i + size.data + k) by omega]
    exact hcosts _ hlt' hptr
  | void => exact absurd rfl hvoid
  | pointer => exact absurd rfl hptrs
  | _ => exact absurd rfl hdata

/-! ## Copies of objects -/

variable {id' : SegmentId} {segment : Segment} {pos start cost : ℕ}

/-- What hinders the copy is handed to the handler. -/
lemma uses_handleErr {g words : ℕ} {e : Error} {l : Limiter} {a₁ : Arena} (he : e.Hinders)
    (hgrows : s.arena.Grows ∅ a₁)
    (hfull : s.limiter = none ∨ e ≠ .readLimitExceeded → s.arena.len g < s.arena.used g + words) :
    (machine.handleErr e { s with limiter := l, arena := a₁ }).Uses (copyUsage machine.handler g) words s := by
  have hne : e :: s.reported ≠ s.reported := fun h => by
    have hlength := congrArg List.length h
    rw [List.length_cons] at hlength
    omega
  unfold handleErr
  dsimp only
  rcases hhandler : machine.handler s.reported e with _ | err
  · refine ⟨hgrows.wf, hgrows.used_le, .cons he _, fun h => absurd h hne,
      fun hstrict => absurd hhandler (hstrict _ _), fun hfree hroom => ?_⟩
    exact absurd hroom (Nat.not_le.2 (hfull (Or.inl (hfree.resolve_right hne))))
  · refine ⟨.cons he _, hne, fun hfree => hfull (hfree.imp_right ?_)⟩
    rintro ⟨-, hlimit⟩ rfl
    exact hlimit _ hhandler

/-- An object is allocated and copied. -/
lemma uses_building {α : Type} {x : BuildM α} {place : α → ℕ} {f : α → CopyM ε Unit}
    {y : Except Error α → CopyM ε Unit} {g words words' : ℕ}
    (halloc : Allots g words x place s.arena) (hy : ∀ v, y (.ok v) = f v)
    (hy' : ∀ e, y (.error e) = machine.handleErr e)
    (hf : ∀ v a₁, x s.arena = .ok v a₁ → a₁.Wf →
      (f v { s with arena := a₁ }).Uses (copyUsage machine.handler (place v)) words' { s with arena := a₁ }) :
    ((building x >>= y : CopyM ε Unit) s).Uses (copyUsage machine.handler g) (words + words') s := by
  unfold Allots at halloc
  rcases hrun : x s.arena with ⟨v, a₁⟩ | ⟨e, a₁⟩ | r
  · rw [hrun] at halloc
    have hbuild : (building x : CopyM ε _) s = .ok (.ok v) { s with arena := a₁ } := by
      rw [building, zoom, attempt, hrun]
    rw [bind_of_ok hbuild, hy]
    have hrest := hf v a₁ hrun halloc.wf
    rcases hcopy : f v { s with arena := a₁ } with ⟨u, s'⟩ | ⟨e, s'⟩ | r
    · rw [hcopy] at hrest
      exact halloc.spent hrest
    · rw [hcopy] at hrest
      exact halloc.hindered hrest
    · rw [hcopy] at hrest
      exact hrest.elim
  · rw [hrun] at halloc
    obtain ⟨⟨n, rfl⟩, hgrows, hfull⟩ := halloc
    have hbuild : (building x : CopyM ε _) s = .ok (.error (.allocFailed n)) { s with arena := a₁ } := by
      rw [building, zoom, attempt, hrun]
    rw [bind_of_ok hbuild, hy']
    exact uses_handleErr (l := s.limiter) trivial hgrows fun _ => by omega
  · rw [hrun] at halloc
    exact halloc.elim

/-- A copy of a struct uses its words, and what its pointers use. -/
lemma uses_copyStructContent {size : StructSize}
    (hdenotes : Denotes a id src id' ((Shape.struct size).content start) cost)
    (hblock : a id' = some block) (hcanonical : machine.canonical = false)
    (hcosts : ∀ k < (Shape.struct size).words, (Shape.struct size).isPtr k = true →
      Costs machine.handler copyPtr a id' (start + k) (ws k)) (hwf : s.arena.Wf)
    (hslot : slot.pos < s.arena.used slot.segment) :
    (machine.copyStructContent copyPtr (.inSegment a id' block) ⟨start, size⟩ slot ⟨slot.segment⟩
      s).Uses (copyUsage machine.handler slot.segment)
      ((Shape.struct size).size + (Shape.struct size).sumPtrs ws) s := by
  have hsrc : start + size.total ≤ block.len.get := Shape.words_le_of_inside (hdenotes.inside hblock)
  rw [copyStructContent, hcanonical]
  dsimp only
  rw [if_neg Bool.false_ne_true, pure_bind_eq, Shape.sumPtrs_struct]
  refine uses_building (@allots_allocStruct s.arena ⟨slot.segment⟩ slot hwf rfl hslot size)
    (f := fun v => copyStruct copyPtr start size (.inSegment a id' block) v.1 size v.2)
    (fun v => rfl) (fun e => rfl) fun v a₁ hrun hwf₁ => ?_
  rcases @ObjectBuilder.allocStruct_reserves s.arena ⟨slot.segment⟩ slot hwf rfl hslot size with
    ⟨place, a', hrun', hinside, -, -⟩ | ⟨m, a', hrun', -⟩
  · cases hrun.symm.trans hrun'
    refine uses_copyStruct hblock hsrc hwf₁ hinside fun k hk => ?_
    rw [Nat.add_assoc]
    exact hcosts (size.data + k) (Nat.add_lt_add_left hk _) (decide_eq_true (Nat.le_add_right _ _))
  · cases hrun.symm.trans hrun'

/-- A copy of a list uses its words, its tag, and what its pointers use. -/
lemma uses_copyListContent {size : ElementSize} {count : ElementCount}
    (hdenotes : Denotes a id src id' ((Shape.list size count).content start) cost)
    (hblock : a id' = some block)
    (hcosts : ∀ k < (Shape.list size count).words, (Shape.list size count).isPtr k = true →
      Costs machine.handler copyPtr a id' (start + k) (ws k)) (hwf : s.arena.Wf)
    (hslot : slot.pos < s.arena.used slot.segment) :
    (machine.copyListContent copyPtr (.inSegment a id' block) ⟨start, size, count⟩ slot
      ⟨slot.segment⟩ s).Uses (copyUsage machine.handler slot.segment)
      ((Shape.list size count).size + (Shape.list size count).sumPtrs ws) s := by
  have hsrc : start + (Shape.list size count).words ≤ block.len.get :=
    Shape.words_le_of_inside (hdenotes.inside hblock)
  have hfits := hdenotes.exactWords_lt hblock
  rw [copyListContent]
  refine uses_building (@allots_allocList s.arena ⟨slot.segment⟩ slot hwf rfl hslot size count hfits)
    (f := fun v => if v.2.1.get = 0 then pure ()
      else copyList copyPtr start (.inSegment a id' block) v.1 v.2.2 size count)
    (fun v => rfl) (fun e => rfl) fun v a₁ hrun hwf₁ => ?_
  rcases @ObjectBuilder.allocList_reserves s.arena ⟨slot.segment⟩ slot hwf rfl hslot size count hfits with
    ⟨place, len, a', hrun', hlen, hinside, -, -⟩ | ⟨m, a', hrun', -⟩
  · cases hrun.symm.trans hrun'
    have hexact : size.exactWords count = (Shape.list size count).words +
        if size.isInlineComposite then 1 else 0 := rfl
    by_cases hempty : len.get = 0
    · -- a list without any words has no pointers
      have hwords : (Shape.list size count).words = 0 := by omega
      have hsum : (Shape.list size count).sumPtrs ws = 0 := by
        unfold Shape.sumPtrs
        rw [hwords]
        rfl
      rw [if_pos_apply hempty, hsum]
      exact uses_pure (Spent.refl hwf₁ _)
    · have hvoid : size ≠ .void := by
        rintro rfl
        refine hempty (hlen.trans ?_)
        show (0 * count.get + 63) / 64 + 0 = 0
        rw [Nat.zero_mul]
      rw [if_neg_apply hempty]
      exact uses_copyList hblock hsrc hwf₁ hinside hvoid hcosts
  · cases hrun.symm.trans hrun'

/-- A copy of an object uses its words, and what its pointers use. -/
lemma costs_object {shape : Shape} (hdenotes : Denotes a id src id' (shape.content start) cost)
    (hblock : a id' = some block) (hsegment : a id = some segment)
    (hsome : segment.data src ≠ Word.null) (hcanonical : machine.canonical = false) {depth : ℕ}
    (hcosts : ∀ k < shape.words, shape.isPtr k = true →
      Costs machine.handler (machine.copyPtr depth) a id' (start + k) (ws k)) :
    Costs machine.handler (machine.copyPtr (depth + 1)) a id src (shape.size + shape.sumPtrs ws) := by
  intro segment' hsegment'
  obtain rfl := Option.mem_unique hsegment hsegment'
  refine ⟨fun hnull => absurd hnull hsome, fun _ slot s hwf hslot => ?_⟩
  have hread := (tryReadTyped_eq_ok hsegment).2
    ⟨id', block, cost, hblock, rfl, hdenotes, Limiter.charge_none cost⟩
  obtain ⟨-, honly⟩ := onlyRefuses_tryReadTyped _ _ _ _ hread
  rw [copyPtr]
  rcases honly s.limiter with ⟨l, hok⟩ | ⟨l, herror⟩
  · have hreading : (reading ((ObjectReader.inSegment a id segment).tryReadTyped src) : CopyM ε _) s =
        .ok (.ok (.inSegment a id' block, shape.content start)) { s with limiter := l } := by
      rw [reading, zoom, attempt, hok]
    rw [bind_of_ok hreading]
    have hlimiter : s.limiter = none → l = none := fun hnone => by
      rw [hnone, hread] at hok
      cases hok
      rfl
    refine uses_of_limiter hlimiter ?_
    cases shape with
    | struct size => exact uses_copyStructContent hdenotes hblock hcanonical hcosts hwf hslot
    | list size count =>
      have hcontent := @uses_copyListContent ε machine a id block (machine.copyPtr depth) src ws slot
        { s with limiter := l } id' start cost size count hdenotes hblock hcosts hwf hslot
      cases size with
      | inlineComposite size =>
        dsimp only [Shape.content]
        rw [hcanonical]
        exact hcontent
      | _ => exact hcontent
  · have hreading : (reading ((ObjectReader.inSegment a id segment).tryReadTyped src) : CopyM ε _) s =
        .ok (.error .readLimitExceeded) { s with limiter := l } := by
      rw [reading, zoom, attempt, herror]
    rw [bind_of_ok hreading]
    refine uses_handleErr trivial (Arena.Grows.refl hwf) fun hfree => ?_
    rw [hfree.resolve_right fun h => h rfl, hread] at herror
    cases herror

/-- Copies of the pointers of a block use the words of what is below them. -/
def SlotsCost (handler : ErrorHandler ε) (copyPtr : CopyPtr ε) (a : ReadArena) (id : SegmentId) (start : ℕ) (shape : Shape) (v : Value) :
    Prop :=
  ∀ k < shape.words, shape.isPtr k = true → Costs handler copyPtr a id (start + k) (v.ptr k).words

lemma eventually_slotsCost {shape : Shape} {data : shape.Data → Word} {ptrs : shape.Slot → Value}
    (h : ∀ k : shape.Slot, ∀ᶠ depth in Filter.atTop,
      Costs machine.handler (machine.copyPtr depth) a id (start + k.1) (ptrs k).words) :
    ∀ᶠ depth in Filter.atTop, SlotsCost machine.handler (machine.copyPtr depth) a id start shape (.object shape data ptrs) := by
  refine (Filter.eventually_all.2 h).mono fun depth hcosts k hk hptr => ?_
  rw [@Value.ptr_slot shape data ptrs ⟨k, hk, hptr⟩]
  exact hcosts ⟨k, hk, hptr⟩

/-- **A deep copy of a value without capabilities uses its words.** -/
theorem eventually_costs (hcanonical : machine.canonical = false) {v : Value} (hreads : Reads a id src v)
    (hcaps : v.caps = 0) : ∀ᶠ depth in Filter.atTop, Costs machine.handler (machine.copyPtr depth) a id src v.words := by
  induction hreads with
  | null hsegment hnull =>
    refine Filter.Eventually.of_forall fun depth block hblock => ⟨fun _ => rfl, fun hsome => ?_⟩
    obtain rfl := Option.mem_unique hsegment hblock
    exact absurd hnull hsome
  | capability => exact absurd hcaps Nat.one_ne_zero
  | @object id id' src start cost segment block shape data ptrs hsegment hsome hdenotes hblock hdata hptrs
      ih =>
    obtain ⟨n, hn⟩ := Filter.eventually_atTop.1
      (@eventually_slotsCost _ _ _ _ _ shape data ptrs fun k => ih k (Value.caps_ptrs hcaps k))
    refine Filter.eventually_atTop.2 ⟨n + 1, fun depth hdepth => ?_⟩
    obtain ⟨depth, rfl⟩ := Nat.exists_eq_add_of_le hdepth
    rw [Nat.add_right_comm, Value.words_object]
    exact costs_object hdenotes hblock hsegment hsome hcanonical (hn (n + depth) (Nat.le_add_right _ _))

/-! ## Copies and total sizes -/

/-- Copies to the pointer succeed without a report, and allocate exactly so many words, all of them
in its segment. -/
def PtrBuilder.CopyTakes (target : PtrBuilder) (clearCap : List ℕ → ℕ → Except Error Unit)
    (machine : CopyMachine ε) (other : PtrReader) (words : ℕ) (s : CopyState) : Prop :=
  ∀ᶠ depth in Filter.atTop, ∃ s', target.tryCopyFrom clearCap machine depth depth other s = .ok () s' ∧
    s'.reported = s.reported ∧ Arena.Extends target.ptr.segment words s.arena s'.arena

variable {target : PtrBuilder} {clearCap : List ℕ → ℕ → Except Error Unit} {v : Value} {m words : ℕ}

/-- A copy to a null pointer is that of the copy machine. -/
lemma PtrBuilder.Blank.tryCopyFrom_eq (h : target.Blank s.arena) (depth : ℕ) :
    target.tryCopyFrom clearCap machine depth depth ⟨pos, .inSegment a id segment, m⟩ s =
      machine.copyPtr depth pos (.inSegment a id segment) target.ptr ⟨target.ptr.segment⟩ s := by
  rw [PtrBuilder.tryCopyFrom, bind_of_ok h.clear, h.builder]

/-- With room for the words of the value, exactly these are taken. -/
lemma PtrBuilder.Blank.copyTakes_of_room (h : target.Blank s.arena) (hcanonical : machine.canonical = false)
    (hreads : Reads a id pos v) (hcaps : v.caps = 0) (hsegment : a id = some segment)
    (hsome : segment.data pos ≠ Word.null) (hlimiter : s.limiter = none)
    (hroom : s.arena.used target.ptr.segment + v.words ≤ s.arena.len target.ptr.segment) :
    target.CopyTakes clearCap machine ⟨pos, .inSegment a id segment, m⟩ v.words s := by
  refine (eventually_costs hcanonical hreads hcaps).mono fun depth hcosts => ?_
  have huses := (hcosts segment hsegment).2 hsome target.ptr s h.wf h.live
  rw [h.tryCopyFrom_eq]
  rcases hrun : machine.copyPtr depth pos (.inSegment a id segment) target.ptr ⟨target.ptr.segment⟩ s with
    ⟨⟨⟩, s'⟩ | ⟨e, s'⟩ | r
  · rw [hrun] at huses
    obtain ⟨-, hreported, hextends⟩ := huses.fits (Or.inl hlimiter) hroom
    exact ⟨s', rfl, hreported, hextends⟩
  · rw [hrun] at huses
    have hfull := huses.full (Or.inl hlimiter)
    omega
  · rw [hrun] at huses
    exact huses.elim

/-- Copies that report nothing find room for the words of the value. -/
lemma PtrBuilder.Blank.words_lt_of_copyTakes (h : target.Blank s.arena)
    (hcanonical : machine.canonical = false) (hreads : Reads a id pos v) (hcaps : v.caps = 0)
    (hsegment : a id = some segment) (hsome : segment.data pos ≠ Word.null)
    (htakes : target.CopyTakes clearCap machine ⟨pos, .inSegment a id segment, m⟩ words s) :
    v.words < 2 ^ 29 := by
  obtain ⟨depth, ⟨s', hrun, hreported, hextends⟩, hcosts⟩ :=
    (htakes.and (eventually_costs hcanonical hreads hcaps)).exists
  have huses := (hcosts segment hsegment).2 hsome target.ptr s h.wf h.live
  rw [h.tryCopyFrom_eq] at hrun
  rw [hrun] at huses
  have hlt := huses.wf.used_lt target.ptr.segment
  rcases huses.outgrows hreported with hle | ⟨i, hi, hmore⟩
  · omega
  · rw [hextends.used_eq, if_neg hi] at hmore
    exact absurd hmore (Nat.lt_irrefl _)

/-- **A deep copy to a null pointer allocates exactly the words that were counted for it**, as long as
they were counted without wrapping around. -/
theorem copy_takes_target_size_iff {n depth : ℕ} {size : MessageSize} (hsegment : a id = some segment)
    (hsome : segment.data pos ≠ Word.null) (hreads : Reads a id pos v) (hcaps : v.caps = 0)
    (hdepth : n ≤ depth)
    (hsize : (⟨pos, .inSegment a id segment, n⟩ : PtrReader).targetSize depth none = .ok size none)
    (hcanonical : machine.canonical = false) (htarget : target.Blank s.arena) (hlimiter : s.limiter = none)
    (hroom : s.arena.used target.ptr.segment + size.words.toNat ≤ s.arena.len target.ptr.segment) :
    target.CopyTakes clearCap machine ⟨pos, .inSegment a id segment, n⟩ size.words.toNat s ↔
      v.words < 2 ^ 64 := by
  obtain ⟨-, m, v', -, hreads', -, rfl⟩ := (PtrReader.targetSize_eq_ok hsegment hsome hdepth).1 hsize
  obtain rfl := hreads.unique hreads'
  constructor
  · intro htakes
    have hlt := htarget.words_lt_of_copyTakes hcanonical hreads hcaps hsegment hsome htakes
    exact hlt.trans (by decide)
  · intro hlt
    have hwords : v.size.words.toNat = v.words := UInt64.toNat_ofNat_of_lt hlt
    rw [hwords] at hroom ⊢
    exact htarget.copyTakes_of_room hcanonical hreads hcaps hsegment hsome hlimiter hroom

end Copies

/-- The words of a message of two words are copied to a null root. -/
theorem copy_takes_target_size_twoWords :
    PtrBuilder.root.CopyTakes (fun _ _ => .ok ()) lenientMachine
      ⟨0, .inSegment twoWordsMessage 0 twoWordsSegment, 2⟩ 2 ⟨none, blankRootArena, [], []⟩ := by
  have hsome : twoWordsSegment.data 0 ≠ Word.null := by decide
  have hread : (ObjectReader.inSegment twoWordsMessage 0 twoWordsSegment).tryReadTyped 0 none =
      .ok (.inSegment twoWordsMessage 0 twoWordsSegment, .struct ⟨1, twoWords⟩) none := rfl
  obtain ⟨id', block, cost, hblock, -, hdenotes, -⟩ :=
    (@tryReadTyped_eq_ok twoWordsMessage 0 twoWordsSegment rfl _ _ _ _ _).1 hread
  have hempty : ∀ _ : (Shape.struct twoWords).Slot, False := by
    rintro ⟨k, hk, hptr⟩
    exact absurd (of_decide_eq_true hptr) (Nat.not_le_of_lt hk)
  have hreads : Reads twoWordsMessage 0 0 (.object (.struct twoWords) (fun k => block.data (1 + k.1))
      fun k => (hempty k).elim) :=
    .object rfl hsome hdenotes hblock (fun _ => rfl) fun k => (hempty k).elim
  exact (copy_takes_target_size_iff rfl hsome hreads rfl (Nat.le_refl 2) rfl rfl fits_blankRootCopy.1 rfl
    (by decide)).2 (show 2 < 2 ^ 64 by decide)

/-! ### Sizes that wrap around -/

/-- A list of equal pointers. -/
def Value.repeated (count : ElementCount) (v : Value) : Value :=
  .object (.list .pointer count) (fun _ => Word.null) fun _ => v

namespace Value

variable (count : ElementCount) (v : Value)

lemma sum_repeated (g : Value → ℕ) :
    ((Shape.list .pointer count).sumPtrs fun k => g ((repeated count v).ptr k)) = count.get * g v := by
  rw [Shape.sumPtrs_pointers]
  refine (Finset.sum_eq_card_nsmul fun k hk => ?_).trans (congrArg (· * g v) (Finset.card_range count.get))
  have hlt : k < (Shape.list .pointer count).words := by
    have hk' := Finset.mem_range.1 hk
    show k < (64 * count.get + 63) / 64
    omega
  exact congrArg g (ptr_slot ⟨k, hlt, rfl⟩)

lemma words_repeated : (repeated count v).words = count.get + count.get * v.words := by
  have hsize : (Shape.list .pointer count).size = count.get := by
    show (64 * count.get + 63) / 64 + 0 = count.get
    omega
  rw [repeated, words_object, hsize]
  exact congrArg (count.get + ·) (sum_repeated count v words)

lemma caps_repeated : (repeated count v).caps = count.get * v.caps := by
  rw [repeated, caps_object]
  exact sum_repeated count v caps

end Value

/-- A segment of a list behind its pointer, whose words are all the same. -/
def wideSegment (size : PtrElementSize) (count : ElementCount) (word : Word) (len : U29) : Segment :=
  ⟨fun | 0 => ListPtr.new I30.zero size count | _ + 1 => word, len⟩

section Wide

variable {a : ReadArena} {id id' : SegmentId} {size : PtrElementSize} {count : ElementCount} {word : Word}
  {len : U29}

lemma data_wide (k : ℕ) : (wideSegment size count word len).data (1 + k) = word := by
  rw [Nat.add_comm]
  rfl

lemma describes_wide (hsegment : a id = some (wideSegment size count word len))
    (hsize : size ≠ .inlineComposite) (hlen : 1 + size.toElementSize.totalWords count.get ≤ len.get)
    {location : Location} (hlocation : location = .near 0 ∨ location = .far 0) :
    ∃ cost, Describes a id ⟨ListPtr.new I30.zero size count, location⟩ id
      (.list ⟨1, size.toElementSize, count⟩) cost := by
  refine ⟨_, .list (ListPtr.kind_new _ _ _) ?_ ?_ (ListPtr.elementCount_new _ _ _) ?_⟩
  · rwa [ListPtr.elementSize_new]
  · rw [ListPtr.elementSize_new]
  · dsimp only
    rw [ListPtr.offset_new]
    rcases hlocation with rfl | rfl
    · exact .near hsegment rfl hlen
    · exact .far hsegment rfl hlen

/-- The pointer before the words of a list. -/
lemma denotes_wide (hsegment : a id = some (wideSegment size count word len))
    (hsize : size ≠ .inlineComposite) (hlen : 1 + size.toElementSize.totalWords count.get ≤ len.get) :
    ∃ cost, Denotes a id 0 id (.list ⟨1, size.toElementSize, count⟩) cost := by
  obtain ⟨cost, hdescribes⟩ := describes_wide hsegment hsize hlen (Or.inl rfl)
  refine ⟨_, id, _, _, _, .near hsegment ?_, hdescribes, rfl⟩
  show WirePtr.kind (ListPtr.new I30.zero size count) ≠ .far
  rw [ListPtr.kind_new]
  decide

/-- A far pointer to it. -/
lemma denotes_wide_far {segment : Segment} {src : ℕ} (hsegment : a id = some segment)
    (hptr : segment.data src = FarPtr.new id' U29.zero false)
    (hpad : a id' = some (wideSegment size count word len)) (hid : id' < 2 ^ 32)
    (hsize : size ≠ .inlineComposite) (hlen : 1 + size.toElementSize.totalWords count.get ≤ len.get) :
    ∃ cost, Denotes a id src id' (.list ⟨1, size.toElementSize, count⟩) cost := by
  obtain ⟨cost, hdescribes⟩ := describes_wide hpad hsize hlen (Or.inr rfl)
  rw [← FarPtr.segment_new hid U29.zero false] at hpad
  have hpadLen : (FarPtr.offset (FarPtr.new id' U29.zero false)).get + 1 ≤ len.get := by
    rw [FarPtr.offset_new]
    exact (Nat.le_add_right 1 _).trans hlen
  have hlocates := Locates.far hsegment hptr (FarPtr.kind_new _ _ _) (FarPtr.doubleFar_new _ _ _) hpad
    hpadLen
  rw [FarPtr.segment_new hid, FarPtr.offset_new] at hlocates
  exact ⟨_, id', _, _, _, hlocates, hdescribes, rfl⟩

/-- A pointer to a list of pointers. -/
lemma reads_repeated {v : Value} {pos cost : ℕ} {segment block : Segment} (hsegment : a id = some segment)
    (hdenotes : Denotes a id pos id' (.list ⟨1, .pointer, count⟩) cost) (hblock : a id' = some block)
    (hv : ∀ k, Reads a id' (1 + k) v) : Reads a id pos (.repeated count v) := by
  have hsome := hdenotes.ne_null hsegment fun _ h => nomatch h
  refine @Reads.object a id id' pos 1 cost segment block (.list .pointer count) _ _ hsegment hsome hdenotes
    hblock (fun k => ?_) fun k => hv k.1
  exact absurd k.2.2.symm Bool.false_ne_true

end Wide

def wideRoot : Segment :=
  wideSegment .pointer ⟨2 ^ 28, U29.large_lt⟩ (FarPtr.new 1 U29.zero false) ⟨2 ^ 28 + 1, by decide⟩

def wideMiddle : Segment :=
  wideSegment .pointer ⟨2 ^ 18 - 1, by decide⟩ (FarPtr.new 2 U29.zero false) ⟨2 ^ 18, by decide⟩

def wideLeaf : Segment :=
  wideSegment .eightBytes ⟨2 ^ 18, by decide⟩ Word.null ⟨2 ^ 18 + 1, by decide⟩

/-- A list of pointers to a list of pointers to a list of words. -/
def wideMessage : ReadArena
  | 0 => some wideRoot
  | 1 => some wideMiddle
  | 2 => some wideLeaf
  | _ => none

def wideValue : Value := .repeated ⟨2 ^ 28, U29.large_lt⟩ (.repeated ⟨2 ^ 18 - 1, by decide⟩
  (.object (.list .eightBytes ⟨2 ^ 18, by decide⟩) (fun _ => Word.null) fun _ => .null))

lemma reads_wideValue : Reads wideMessage 0 0 wideValue := by
  obtain ⟨_, hroot⟩ := @denotes_wide wideMessage 0 .pointer _ _ _ rfl (by decide) (by decide)
  refine reads_repeated rfl hroot rfl fun k => ?_
  obtain ⟨_, hmiddle⟩ := @denotes_wide_far wideMessage 0 1 .pointer _ _ _ wideRoot (1 + k) rfl (data_wide k)
    rfl (by decide) (by decide) (by decide)
  refine reads_repeated rfl hmiddle rfl fun k => ?_
  obtain ⟨_, hleaf⟩ := @denotes_wide_far wideMessage 1 2 .eightBytes _ _ _ wideMiddle (1 + k) rfl
    (data_wide k) rfl (by decide) (by decide) (by decide)
  have hsome := hleaf.ne_null rfl fun _ h => nomatch h
  exact @Reads.object wideMessage 1 2 (1 + k) 1 _ wideMiddle wideLeaf (.list .eightBytes _) _ _ rfl hsome
    hleaf rfl (fun k => data_wide k.1) fun k => absurd k.2.2 Bool.false_ne_true

lemma words_wideValue : wideValue.words = 2 ^ 64 := by
  rw [wideValue, Value.words_repeated, Value.words_repeated, Value.words_object, Shape.sumPtrs_data rfl]
  rfl

lemma caps_wideValue : wideValue.caps = 0 := by
  rw [wideValue, Value.caps_repeated, Value.caps_repeated, Value.caps_object, Shape.sumPtrs_data rfl]
  rfl

lemma fitsNesting_wideValue : wideValue.FitsNesting 2 :=
  fun _ => ⟨1, rfl, fun _ _ => ⟨0, rfl, fun _ h => absurd h Bool.false_ne_true⟩⟩

/-- The value has 2^64 words, which are counted as none.  There is room for that in every segment,
but not for the copy. -/
theorem not_copy_takes_target_size :
    Reads wideMessage 0 0 wideValue ∧ wideValue.caps = 0 ∧
      (⟨0, .inSegment wideMessage 0 wideRoot, 3⟩ : PtrReader).targetSize 3 none = .ok 0 none ∧
      PtrBuilder.root.Blank blankRootArena ∧
      blankRootArena.used 0 + (0 : MessageSize).words.toNat ≤ blankRootArena.len 0 ∧
      ¬ PtrBuilder.root.CopyTakes (fun _ _ => .ok ()) lenientMachine
        ⟨0, .inSegment wideMessage 0 wideRoot, 3⟩ 0 ⟨none, blankRootArena, [], []⟩ := by
  have hsome : wideRoot.data 0 ≠ Word.null := by decide
  refine ⟨reads_wideValue, caps_wideValue, ?_, fits_blankRootCopy.1, by decide, fun htakes => ?_⟩
  · refine (PtrReader.targetSize_eq_ok rfl hsome (Nat.le_refl 3)).2
      ⟨rfl, 2, wideValue, rfl, reads_wideValue, fitsNesting_wideValue, ?_⟩
    rw [Value.size, words_wideValue, caps_wideValue]
    rfl
  · have hlt := fits_blankRootCopy.1.words_lt_of_copyTakes rfl reads_wideValue caps_wideValue rfl hsome
      htakes
    rw [words_wideValue] at hlt
    exact absurd hlt (by decide)

end Recapn.Ptr

/-
# Upgrades of lists

A builder decides with `upgrade_to` whether a list can be seen as one of another element size, and
a reader decides with `upgradable_to`.  They agree where the list becomes one of structs.  They do
not where the list is one of structs already, and a number, a pointer or nothing is expected in
the place of each struct: the builder hands such a list out, and the reader refuses it.

What the builder hands out is the smallest size that both sizes can be seen as, so a list that is
promoted time and again only grows, and to the same size in whichever order.
-/
import Recapn.Lib.PartialJoin
import Recapn.Ptr.Promote
import Recapn.Ptr.Target

namespace Recapn.Ptr

open Recapn.Lib Recapn.Lib.Prog

namespace ElementSize

/-- A struct of this size has an element of that size at its start.  `ElementSize::upgrade_to`
lets a list of such structs stand for a list of the elements. -/
def Provides : ElementSize → ElementSize → Prop
  | inlineComposite _, void => True
  | inlineComposite size, pointer => size.ptrs ≠ 0
  | inlineComposite size, byte => size.data ≠ 0
  | inlineComposite size, twoBytes => size.data ≠ 0
  | inlineComposite size, fourBytes => size.data ≠ 0
  | inlineComposite size, eightBytes => size.data ≠ 0
  | _, _ => False

/-- The reader and the builder agree on a list of element size `existing` that is expected to have
elements of size `expected`. -/
structure Agrees (existing expected : ElementSize) : Prop where
  kept : existing.upgradeTo expected = some existing → existing.upgradableTo expected.asPtrSize = true
  upgraded : ∀ size, existing.upgradeTo expected = some size →
    existing.upgradableTo size.asPtrSize = true ∧ size.upgradableTo expected.asPtrSize = true
  /-- A list that has the size the builder hands out reads back under the expected size. -/
  readBack : ∀ size, existing.upgradeTo expected = some size → ∀ {arena : ReadArena}
    {id : SegmentId} {segment : Segment} {ptr : ℕ} {limiter limiter' : Limiter}
    {reader : ObjectReader} {list : ListContent}, arena id = some segment → list.elementSize = size →
    (ObjectReader.inSegment arena id segment).tryReadList ptr none limiter = .ok (reader, list) limiter' →
    (ObjectReader.inSegment arena id segment).tryReadList ptr (some expected.asPtrSize) limiter
      = .ok (reader, list) limiter'

/-- A list can be read as what it is. -/
lemma upgradableTo_asPtrSize (size : ElementSize) : size.upgradableTo size.asPtrSize = true := by
  cases size <;> rfl

/-- What two different sizes have in common is a size of structs, and neither is a bit. -/
lemma upgradeOther_eq_some {self other size : ElementSize} (h : self.upgradeOther other = some size) :
    size.isInlineComposite = true ∧ self ≠ bit ∧
      (other.isInlineComposite = true ∨ self.Provides other) := by
  cases self with
  | bit => cases h
  | inlineComposite src =>
    cases other with
    | bit => cases h
    | inlineComposite min =>
      cases h
      exact ⟨rfl, nofun, .inl rfl⟩
    | void =>
      cases h
      exact ⟨rfl, nofun, .inr trivial⟩
    | _ =>
      -- a pointer needs a pointer, the others need a data word
      obtain ⟨hsome, heq⟩ := Option.ite_none_left_eq_some.1 h
      cases heq
      exact ⟨rfl, nofun, .inr hsome⟩
  | void =>
    cases other with
    | inlineComposite min =>
      cases h
      exact ⟨rfl, nofun, .inl rfl⟩
    | _ => cases h
  | _ =>
    cases other with
    | inlineComposite min =>
      obtain ⟨-, heq⟩ := Option.ite_none_left_eq_some.1 h
      cases heq
      exact ⟨rfl, nofun, .inl rfl⟩
    | _ => cases h

/-- Everything but bits can be read as structs. -/
lemma upgradableTo_inlineComposite {size : ElementSize} (h : size ≠ bit) :
    size.upgradableTo .inlineComposite = true := by
  cases size with
  | bit => exact absurd rfl h
  | _ => rfl

lemma asPtrSize_of_isInlineComposite {size : ElementSize} (h : size.isInlineComposite = true) :
    size.asPtrSize = .inlineComposite := by
  cases size with
  | inlineComposite => rfl
  | _ => cases h

/-- A struct that provides an element is handed out as it is, and cannot be read as the element. -/
lemma Provides.refused {self other : ElementSize} (h : self.Provides other) :
    self.upgradeTo other = some self ∧ self.upgradableTo other.asPtrSize = false := by
  cases self with
  | inlineComposite size =>
    cases other with
    | bit => cases h
    | inlineComposite => cases h
    | void => exact ⟨rfl, rfl⟩
    | _ =>
      refine ⟨if_neg h, ?_⟩
      obtain ⟨data, ptrs, _, _⟩ := size
      rcases data with _ | data <;> rcases ptrs with _ | ptrs <;> rfl
  | _ => cases h

/-- What the builder hands out can be read under the expected size, when it is not the start of a
struct that is expected. -/
lemma upgradableTo_of_upgradeTo {self other size : ElementSize} (hnone : ¬ self.Provides other)
    (h : self.upgradeTo other = some size) :
    self.upgradableTo size.asPtrSize = true ∧ size.upgradableTo other.asPtrSize = true := by
  rcases ite_eq_iff.1 h with ⟨rfl, heq⟩ | ⟨-, hother⟩
  · cases heq
    exact ⟨upgradableTo_asPtrSize self, upgradableTo_asPtrSize self⟩
  · obtain ⟨hsize, hself, hexpected⟩ := upgradeOther_eq_some hother
    have hstructs := hexpected.resolve_right hnone
    rw [asPtrSize_of_isInlineComposite hsize, asPtrSize_of_isInlineComposite hstructs]
    refine ⟨upgradableTo_inlineComposite hself, upgradableTo_inlineComposite ?_⟩
    rintro rfl
    cases hsize

end ElementSize

/-- A list that reads without an expected size reads under one that it can be upgraded to, and
under no other. -/
lemma tryReadList_expected {arena : ReadArena} {id : SegmentId} {segment : Segment} {ptr : ℕ}
    {limiter limiter' : Limiter} {reader : ObjectReader} {list : ListContent}
    (hsegment : arena id = some segment)
    (h : (ObjectReader.inSegment arena id segment).tryReadList ptr none limiter
      = .ok (reader, list) limiter') (expected : PtrElementSize) :
    (ObjectReader.inSegment arena id segment).tryReadList ptr (some expected) limiter
        = .ok (reader, list) limiter' ↔ list.elementSize.upgradableTo expected = true := by
  obtain ⟨⟨reader₁, content⟩, limiter₁, hlocation, htry⟩ := bind_eq_ok.1 h
  obtain ⟨mid, segment₁, pads, hsegment₁, rfl, -, -⟩ :=
    (locationOf_eq_ok hsegment).1 hlocation
  obtain ⟨listPtr, limiter₂, hptr, hread⟩ := bind_eq_ok.1 htry
  rcases ite_eq_ok.1 hptr with ⟨hkind, hpure⟩ | ⟨-, hthrow⟩
  · obtain ⟨rfl, rfl⟩ := pure_eq_ok.1 hpure
    obtain ⟨id', segment', cost, hsegment', rfl, hdescribes, -, hcharge⟩ :=
      (readAsListContent_eq_ok hsegment₁ hkind).1 hread
    have hrun : (ObjectReader.inSegment arena id segment).tryReadList ptr (some expected) limiter
        = (ObjectReader.inSegment arena mid segment₁).readAsListContent content.location content.ptr
            (some expected) limiter₁ :=
      (bind_of_ok hlocation).trans (bind_of_ok hptr)
    rw [hrun, readAsListContent_eq_ok hsegment₁ hkind]
    constructor
    · rintro ⟨_, _, _, _, _, _, hupgrade, _⟩
      exact hupgrade
    · intro hupgrade
      exact ⟨id', segment', cost, hsegment', rfl, hdescribes, hupgrade, hcharge⟩
  · exact (throw_eq_ok.1 hthrow).elim

namespace ElementSize

/-- **Reader and builder agree on an upgrade** just when it is not a list of structs of which the
elements at the start are expected. -/
theorem agrees_iff (existing expected : ElementSize) :
    existing.Agrees expected ↔ ¬ existing.Provides expected := by
  constructor
  · intro hagrees hprovides
    obtain ⟨hkept, hrefused⟩ := hprovides.refused
    have haccepted := hagrees.kept hkept
    rw [hrefused] at haccepted
    cases haccepted
  · intro hnone
    refine ⟨fun h => (upgradableTo_of_upgradeTo hnone h).2, fun _ => upgradableTo_of_upgradeTo hnone, ?_⟩
    rintro size h arena id segment ptr limiter limiter' reader list hsegment rfl hread
    exact (tryReadList_expected hsegment hread _).2 (upgradableTo_of_upgradeTo hnone h).2

/-- A list of structs with one data word is handed out as a list of words, and is not read as one. -/
theorem not_agrees : ¬ ∀ existing expected : ElementSize, existing.Agrees expected := by
  intro h
  have haccepted := (h (inlineComposite ⟨1, 0, by decide, by decide⟩) eightBytes).kept rfl
  cases haccepted

end ElementSize

/-! ## The order of the element sizes -/

/-- Every struct of the first size can be one of the second. -/
instance : PartialOrder StructSize where
  le s t := s.data ≤ t.data ∧ s.ptrs ≤ t.ptrs
  le_refl s := ⟨le_rfl, le_rfl⟩
  le_trans r s t hrs hst := ⟨hrs.1.trans hst.1, hrs.2.trans hst.2⟩
  le_antisymm s t hst hts := StructSize.ext (hst.1.antisymm hts.1) (hst.2.antisymm hts.2)

/-- The larger of two struct sizes has each of the larger sections. -/
lemma StructSize.isLUB_max (s t : StructSize) : IsLUB {s, t} (s.max t) := by
  constructor
  · rintro r (rfl | rfl)
    · exact ⟨Nat.le_max_left _ _, Nat.le_max_left _ _⟩
    · exact ⟨Nat.le_max_right _ _, Nat.le_max_right _ _⟩
  · intro u hu
    have hs : s ≤ u := hu (Set.mem_insert s {t})
    have ht : t ≤ u := hu (Set.mem_insert_of_mem s rfl)
    exact ⟨Nat.max_le.2 ⟨hs.1, ht.1⟩, Nat.max_le.2 ⟨hs.2, ht.2⟩⟩

namespace ElementSize

/-- A struct of this size has room for the element at the start of its section. -/
def HasRoomFor (size : StructSize) : ElementSize → Prop
  | void => True
  | bit => False
  | pointer => size.ptrs ≠ 0
  | inlineComposite s => s ≤ size
  | _ => size.data ≠ 0

lemma HasRoomFor.mono {s t : StructSize} (hst : s ≤ t) {a : ElementSize} (h : HasRoomFor s a) :
    HasRoomFor t a := by
  have hdata : s.data ≤ t.data := hst.1
  have hptrs : s.ptrs ≤ t.ptrs := hst.2
  cases a with
  | void => trivial
  | bit => exact h
  | pointer =>
    intro hzero
    exact h (by omega)
  | inlineComposite r => exact le_trans (show r ≤ s from h) hst
  | _ =>
    intro hzero
    exact h (by omega)

/-- The elements of the first size can be promoted to ones of the second: they are the same, or
structs with room for them. -/
instance : PartialOrder ElementSize where
  le a b := a = b ∨ ∃ t, b = inlineComposite t ∧ HasRoomFor t a
  le_refl a := .inl rfl
  le_trans a b c := by
    rintro (rfl | ⟨s, rfl, hs⟩) hbc
    · exact hbc
    · rcases hbc with rfl | ⟨t, rfl, ht⟩
      · exact .inr ⟨s, rfl, hs⟩
      · exact .inr ⟨t, rfl, hs.mono ht⟩
  le_antisymm a b := by
    rintro (rfl | ⟨s, rfl, hs⟩) hba
    · rfl
    · rcases hba with rfl | ⟨t, rfl, ht⟩
      · rfl
      · exact congrArg inlineComposite (le_antisymm (show t ≤ s from hs) ht)

variable {a b c : ElementSize} {s t : StructSize}

lemma le_inlineComposite_iff : a ≤ inlineComposite t ↔ HasRoomFor t a := by
  constructor
  · rintro (rfl | ⟨t', ht', h⟩)
    · exact le_refl t
    · cases ht'
      exact h
  · intro h
    exact .inr ⟨t, rfl, h⟩

lemma inlineComposite_le_iff : inlineComposite s ≤ b ↔ ∃ t, b = inlineComposite t ∧ s ≤ t := by
  constructor
  · rintro (rfl | h)
    · exact ⟨s, rfl, le_refl s⟩
    · exact h
  · intro h
    exact .inr h

/-! ## Upgrades as joins -/

/-- The arms of the match are symmetric. -/
lemma upgradeOther_comm (a b : ElementSize) : a.upgradeOther b = b.upgradeOther a := by
  have hmax (s t : StructSize) : s.max t = t.max s :=
    StructSize.ext (Nat.max_comm _ _) (Nat.max_comm _ _)
  cases a with
  | inlineComposite s =>
    cases b with
    | inlineComposite t => exact congrArg (some ∘ inlineComposite) (hmax s t)
    | _ => rfl
  | _ => cases b <;> rfl

lemma upgradeTo_comm (a b : ElementSize) : a.upgradeTo b = b.upgradeTo a := by
  by_cases h : a = b
  · rw [h]
  · unfold upgradeTo
    rw [if_neg h, if_neg (Ne.symm h), upgradeOther_comm]

/-- An element that the structs have room for is upgraded to them. -/
lemma upgradeTo_of_hasRoomFor (h : HasRoomFor t a) :
    a.upgradeTo (inlineComposite t) = some (inlineComposite t) := by
  unfold upgradeTo
  split
  · rfl
  · cases a with
    | void => rfl
    | bit => cases h
    | inlineComposite s =>
      have hmax : s.max t = t := StructSize.ext (Nat.max_eq_right h.1) (Nat.max_eq_right h.2)
      exact congrArg (some ∘ inlineComposite) hmax
    | _ => exact if_neg h

/-- What a size and one of structs are upgraded to has room for both, and no smaller size has. -/
lemma upgradeOther_inlineComposite (h : a.upgradeOther (inlineComposite t) = some c) :
    IsLUB {a, inlineComposite t} c := by
  -- an element that there is room for
  have hroom (hfits : HasRoomFor t a) : IsLUB {a, inlineComposite t} (inlineComposite t) := by
    refine ⟨?_, fun u hu => hu (Set.mem_insert_of_mem a rfl)⟩
    rintro x (rfl | rfl)
    · exact le_inlineComposite_iff.2 hfits
    · exact le_refl _
  cases a with
  | void =>
    cases h
    exact hroom trivial
  | bit => cases h
  | inlineComposite s =>
    cases h
    have hlub := StructSize.isLUB_max s t
    constructor
    · rintro x (rfl | rfl)
      · exact le_inlineComposite_iff.2 (hlub.1 (Set.mem_insert s {t}))
      · exact le_inlineComposite_iff.2 (hlub.1 (Set.mem_insert_of_mem s rfl))
    · intro u hu
      obtain ⟨r, rfl, hr⟩ := inlineComposite_le_iff.1 (hu (Set.mem_insert (inlineComposite s) _))
      refine le_inlineComposite_iff.2 (hlub.2 ?_)
      rintro x (rfl | rfl)
      · exact hr
      · exact le_inlineComposite_iff.1 (hu (Set.mem_insert_of_mem _ rfl))
  | _ =>
    obtain ⟨hfits, heq⟩ := Option.ite_none_left_eq_some.1 h
    cases heq
    exact hroom hfits

/-- `ElementSize::upgrade_to` joins the sizes. -/
lemma partialJoin_upgradeTo : PartialJoin upgradeTo where
  comm := upgradeTo_comm
  of_le := by
    rintro a b (rfl | ⟨t, rfl, h⟩)
    · exact if_pos rfl
    · exact upgradeTo_of_hasRoomFor h
  isLUB := by
    intro a b c h
    rcases ite_eq_iff.1 h with ⟨rfl, heq⟩ | ⟨-, hother⟩
    · cases heq
      simp
    · -- one of them is a size of structs
      by_cases hb : ∃ t, b = inlineComposite t
      · obtain ⟨t, rfl⟩ := hb
        exact upgradeOther_inlineComposite hother
      · have ha : ∃ s, a = inlineComposite s := by
          cases a with
          | inlineComposite s => exact ⟨s, rfl⟩
          | _ =>
            cases b with
            | inlineComposite t => exact absurd ⟨t, rfl⟩ hb
            | _ => cases hother
        obtain ⟨s, rfl⟩ := ha
        rw [upgradeOther_comm] at hother
        rw [Set.pair_comm]
        exact upgradeOther_inlineComposite hother

/-! ## Promotions -/

/-- A list that is expected to have elements of these sizes, one after the other. -/
def upgradeAll (size : ElementSize) (expected : List ElementSize) : Option ElementSize :=
  expected.foldlM upgradeTo size

/-- In `size` there are structs that have the sections of those of `old`, if it has any. -/
def KeepsSections (old size : ElementSize) : Prop :=
  ∀ s, old = inlineComposite s → ∃ t, size = inlineComposite t ∧ s.data ≤ t.data ∧ s.ptrs ≤ t.ptrs

lemma keepsSections_of_le (h : a ≤ b) : a.KeepsSections b := by
  rintro s rfl
  exact inlineComposite_le_iff.1 h

/-- The laws of `upgrade_to`, for two sizes and for any number of promotions of one list. -/
structure UpgradesLawfully : Prop where
  self (a : ElementSize) : a.upgradeTo a = some a
  comm (a b : ElementSize) : a.upgradeTo b = b.upgradeTo a
  absorbs {a b c : ElementSize} : a.upgradeTo b = some c →
    c.upgradeTo a = some c ∧ c.upgradeTo b = some c
  keepsSections {a b c : ElementSize} : a.upgradeTo b = some c → a.KeepsSections c ∧ b.KeepsSections c
  /-- The order of the promotions does not matter. -/
  orderIndependent {size b c : ElementSize} {first second : List ElementSize} : first.Perm second →
    size.upgradeAll first = some b → size.upgradeAll second = some c → b = c
  /-- The sections of the list, and of what was expected of it, are there in the end, and it can
  still be seen as any of them. -/
  neverShrinks {size c : ElementSize} {expected : List ElementSize} :
    size.upgradeAll expected = some c → ∀ e ∈ size :: expected,
      e.KeepsSections c ∧ c.upgradeTo e = some c
  /-- A promotion hands out a list of the size that `upgrade_to` says. -/
  handsOut {self : PtrBuilder} {expected : ElementSize} {list : ListBuilder} {a a' : Arena} :
    self.toListMutInner (some expected) a = .ok list a' →
    ∃ existing builder a₁, self.builder.buildList self.ptr a = .ok (existing, builder) a₁ ∧
      existing.elementSize.upgradeTo expected = some list.elementSize

/-- What the size is found to be upgraded to is what `upgrade_to` says, if it is another one. -/
lemma upgradeSize_eq_ok {existing expected : ElementSize} {upgrade : Option StructSize} {a a' : Arena}
    (h : PtrBuilder.upgradeSize existing (some expected) a = .ok upgrade a') :
    existing.upgradeTo expected = some ((upgrade.map inlineComposite).getD existing) := by
  rcases hupgrade : existing.upgradeTo expected with _ | size
  · simp only [PtrBuilder.upgradeSize, hupgrade] at h
    exact (throw_eq_ok.1 h).elim
  · simp only [PtrBuilder.upgradeSize, hupgrade] at h
    rcases ite_eq_ok.1 h with ⟨rfl, hpure⟩ | ⟨-, hmatch⟩
    · rw [← (pure_eq_ok.1 hpure).1]
      rfl
    · cases size with
      | inlineComposite size =>
        rw [← (pure_eq_ok.1 hmatch).1]
        rfl
      | _ => cases hmatch

lemma toListMutInner_elementSize {self : PtrBuilder} {expected : ElementSize} {list : ListBuilder}
    {a a' : Arena} (h : self.toListMutInner (some expected) a = .ok list a') :
    ∃ existing builder a₁, self.builder.buildList self.ptr a = .ok (existing, builder) a₁ ∧
      existing.elementSize.upgradeTo expected = some list.elementSize := by
  obtain ⟨⟨existing, builder⟩, a₁, hbuild, hrest⟩ := bind_eq_ok.1 h
  obtain ⟨upgrade, a₂, hsize, hrest⟩ := bind_eq_ok.1 hrest
  refine ⟨existing, builder, a₁, hbuild, ?_⟩
  rw [upgradeSize_eq_ok hsize]
  rcases upgrade with _ | newSize
  · rw [← (pure_eq_ok.1 hrest).1]
    rfl
  · obtain ⟨_, _, -, hrest⟩ := bind_eq_ok.1 hrest
    obtain ⟨⟨newListPtr, _, newBuilder⟩, _, -, hrest⟩ := bind_eq_ok.1 hrest
    obtain ⟨_, _, -, hrest⟩ := bind_eq_ok.1 hrest
    obtain ⟨_, _, -, hpure⟩ := bind_eq_ok.1 hrest
    rw [← (pure_eq_ok.1 hpure).1]
    rfl

/-- **Upgrades are joins**: the size of two lists is the same in either order, either list can be
seen as one of it, and a list promoted time and again only grows, to the same size in any order. -/
theorem upgradesLawfully : UpgradesLawfully where
  self := partialJoin_upgradeTo.self
  comm := upgradeTo_comm
  absorbs := partialJoin_upgradeTo.absorbs
  keepsSections h := ⟨keepsSections_of_le (partialJoin_upgradeTo.le_left h),
    keepsSections_of_le (partialJoin_upgradeTo.le_right h)⟩
  orderIndependent := partialJoin_upgradeTo.foldlM_perm
  neverShrinks {size c expected} h e he := by
    have hle : e ≤ c := by
      rcases List.mem_cons.1 he with rfl | he
      · exact partialJoin_upgradeTo.le_foldlM h
      · exact partialJoin_upgradeTo.mem_le_foldlM h he
    rw [upgradeTo_comm]
    exact ⟨keepsSections_of_le hle, partialJoin_upgradeTo.of_le hle⟩
  handsOut := toListMutInner_elementSize

end ElementSize

end Recapn.Ptr

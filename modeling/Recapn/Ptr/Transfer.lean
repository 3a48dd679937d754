/-
# What a moved pointer resolves to

A pointer stands for nothing, for a capability, or for an object of a kind and a size at a place,
however many landing pads there are on the way.  When a pointer is moved it stands for the same:
its offset is taken anew from where it is, or it is made a far pointer over a new landing pad.
-/
import Recapn.Ptr.Promote
import Recapn.Ptr.Room
import Recapn.Ptr.Nullify

namespace Recapn.Ptr

open Recapn.Lib Recapn.Lib.Prog

/-! ## Pointers with another offset -/

/-- A struct pointer with another offset is null only when the offset is zero. -/
lemma setContentOffset_ne_null {ptr : WirePtr} {offset : SignedSegmentOffset}
    (hoffset : offset.get ≠ 0) : setContentOffset ptr offset ≠ Word.null := by
  intro hnull
  have hzero := congrArg contentOffset hnull
  rw [contentOffset_setContentOffset] at hzero
  rw [hzero] at hoffset
  exact hoffset (by decide)

/-! ## Targets -/

/-- What a pointer stands for: nothing, a capability, or an object of a kind.  The object has a
size, which is the upper half of the pointer that describes it (the sections of a struct, or the
element size and the count of a list), and the place where it begins. -/
inductive Target where
  | null
  | capability (index : ℕ)
  | object (kind : WireKind) (size : ℕ) (place : SegmentRef)

/-- The pointer stands for the target, over landing pads that are used and not in `D`. -/
def Resolves (a : Arena) (D : Set SegmentRef) (slot : SegmentRef) : Target → Prop
  | .null => a.word slot = Word.null
  | .capability index => WirePtr.isCapability (a.word slot) = true ∧
      CapabilityPtr.capabilityIndex (a.word slot) = index
  | .object kind size place => a.word slot ≠ Word.null ∧ (kind = .struct ∨ kind = .list) ∧
      ∃ ptr location pads, Hops a slot ptr location pads ∧ WirePtr.kind ptr = kind ∧
        ptr.upper = size ∧ location.Begins (contentOffset ptr) place ∧
        ∀ r ∈ pads, r.pos < a.used r.segment ∧ r ∉ D

/-- The object does not begin behind the place, nor outside of a segment. -/
def Target.Precedes (dst : SegmentRef) : Target → Prop
  | .object _ _ place => place.pos < 2 ^ 29 ∧ (place.segment = dst.segment → place.pos ≤ dst.pos)
  | _ => True

section Resolves

variable {a a' : Arena} {D F : Set SegmentRef} {slot : SegmentRef} {t : Target}

lemma Resolves.mono (h : Resolves a D slot t) (hsub : F ⊆ D) : Resolves a F slot t := by
  cases t with
  | null | capability => exact h
  | object kind size place =>
    obtain ⟨hsome, hkind, ptr, location, pads, hhops, hptr, hsize, hbegins, hpads⟩ := h
    exact ⟨hsome, hkind, ptr, location, pads, hhops, hptr, hsize, hbegins,
      fun r hr => ⟨(hpads r hr).1, fun hF => (hpads r hr).2 (hsub hF)⟩⟩

/-- A pointer stands for the same while it and its landing pads do not change. -/
lemma Resolves.grows (h : Resolves a D slot t) (hgrows : Arena.Grows F a a') (hsub : F ⊆ D)
    (hslot : slot.pos < a.used slot.segment) (hout : slot ∉ F) : Resolves a' D slot t := by
  have hword := hgrows.word_eq hslot hout
  cases t with
  | null => exact hword.trans h
  | capability index =>
    show WirePtr.isCapability (a'.word slot) = true ∧ _
    rw [hword]
    exact h
  | object kind size place =>
    obtain ⟨hsome, hkind, ptr, location, pads, hhops, hptr, hsize, hbegins, hpads⟩ := h
    refine ⟨?_, hkind, ptr, location, pads, ?_, hptr, hsize, hbegins, ?_⟩
    · rw [hword]
      exact hsome
    · exact hhops.agree hword fun r hr =>
        hgrows.word_eq (hpads r hr).1 fun hF => (hpads r hr).2 (hsub hF)
    · exact fun r hr => ⟨(hpads r hr).1.trans_le (hgrows.used_le _), (hpads r hr).2⟩

/-- A null pointer stands for nothing, and no other one does. -/
lemma Resolves.eq_null_iff (h : Resolves a D slot t) : a.word slot = Word.null ↔ t = .null := by
  cases t with
  | null => exact ⟨fun _ => rfl, fun _ => h⟩
  | capability index =>
    refine ⟨fun hnull => ?_, fun ht => nomatch ht⟩
    have hcapability := h.1
    rw [hnull] at hcapability
    exact absurd hcapability (by decide)
  | object kind size place =>
    exact ⟨fun hnull => absurd hnull h.1, fun ht => nomatch ht⟩

end Resolves

/-! ## Moving a pointer -/

section Transfer

variable {a a' : Arena} {D : Set SegmentRef} {src dst place : SegmentRef}
  {srcBuilder dstBuilder : ObjectBuilder} {ptr : WirePtr} {t : Target}

/-- The pointers that are made for an object in another place: near, over a landing pad in the
segment of the object, or over a double-far one. -/
inductive Moves (a : Arena) (dst place : SegmentRef) (ptr : WirePtr) : WirePtr → Arena → Prop where
  | near {offset : SignedSegmentOffset} (hsegment : place.segment = dst.segment)
      (hoffset : (dst.pos : ℤ) + 1 + offset.get = place.pos) :
      Moves a dst place ptr (setContentOffset ptr offset) a
  | far {pad : SegmentRef} {a₁ : Arena} {offset : SignedSegmentOffset} {far : SegmentOffset}
      (hallocates : a.Allocates pad 1 a₁) (hsegment : pad.segment = place.segment)
      (hoffset : (pad.pos : ℤ) + 1 + offset.get = place.pos) (hfar : far.get = pad.pos) :
      Moves a dst place ptr (FarPtr.new pad.segment far false)
        (a₁.write pad 1 fun _ => setContentOffset ptr offset)
  | doubleFar {pad : SegmentRef} {a₁ : Arena} {far content : SegmentOffset}
      (hallocates : a.Allocates pad 2 a₁) (hsegment : place.segment < a.segments.length)
      (hfar : far.get = pad.pos) (hcontent : content.get = place.pos) :
      Moves a dst place ptr (FarPtr.new pad.segment far true)
        ((a₁.write pad 1 fun _ => FarPtr.new place.segment content false).write (pad.offset 1) 1
          fun _ => setContentOffset ptr I30.zero)

/-- What `transfer_ptr` allocates for a pointer to an object: nothing in the same segment, and
otherwise a landing pad in the segment of the object, or a double-far one. -/
def allocLandingPads (srcBuilder dstBuilder : ObjectBuilder) : BuildM Unit :=
  if srcBuilder.segment = dstBuilder.segment then pure ()
  else do
    let pad ← srcBuilder.allocInSegment AllocLen.one
    match pad with
    | some _ => pure ()
    | none => do
      let alloc ← dstBuilder.allocDoubleFarLandingPad
      let _ ← Prog.okOr (.allocFailed landingPadLen.get) alloc
      pure ()

lemma respects_allocLandingPads :
    Prog.Respects Arena.SameRoom (allocLandingPads srcBuilder dstBuilder) := by
  refine respects_ite (respects_pure ()) ?_
  refine respects_bind (respects_allocInSegment _) fun pad => ?_
  cases pad with
  | some pad => exact respects_pure ()
  | none =>
    exact respects_bind respects_allocDoubleFarLandingPad fun _ =>
      respects_bind (respects_okOr _ _) fun _ => respects_pure ()

/-- The pointer is made in one of these ways, or there is no room for landing pads. -/
lemma transferContent_cases (hwf : a.Wf) (hsrcBuilder : srcBuilder.segment = place.segment)
    (hsrc : place.segment < a.segments.length) (hdstBuilder : dstBuilder.segment = dst.segment)
    (hdst : dst.pos < a.used dst.segment) (hplace : place.pos < 2 ^ 29) :
    (∃ newPtr a' b, transferContent ptr place srcBuilder dst dstBuilder a = .ok newPtr a' ∧
      allocLandingPads srcBuilder dstBuilder a = .ok () b ∧ Arena.SameRoom a' b ∧
      Moves a dst place ptr newPtr a') ∨
    ∃ a', transferContent ptr place srcBuilder dst dstBuilder a =
        .error (.allocFailed landingPadLen.get) a' ∧
      allocLandingPads srcBuilder dstBuilder a = .error (.allocFailed landingPadLen.get) a' ∧
      a.Unchanged a' := by
  have hdstLength : dst.segment < a.segments.length := Arena.lt_length_of_used (by omega)
  have hdstLt : dst.pos < 2 ^ 29 := Nat.lt_trans hdst (hwf.used_lt _)
  have hsrcLength : srcBuilder.segment < a.segments.length := by
    rw [hsrcBuilder]
    exact hsrc
  have hsrcId := @ObjectBuilder.id_apply a srcBuilder hwf hsrcLength
  have hdstId : dstBuilder.id a = .ok dstBuilder.segment a :=
    ObjectBuilder.id_apply hwf (by rw [hdstBuilder]; exact hdstLength)
  have hids : transferContent ptr place srcBuilder dst dstBuilder a = _ :=
    (bind_of_ok hsrcId).trans (bind_of_ok hdstId)
  by_cases hsame : srcBuilder.segment = dstBuilder.segment
  · left
    have hsegment : place.segment = dst.segment := by
      rw [← hsrcBuilder, hsame, hdstBuilder]
    obtain ⟨offset, hoffsetRun, hoffset⟩ :=
      @ObjectBuilder.offsetFromEndOf_apply a dstBuilder dst place hsegment.symm hdstLt hplace
    refine ⟨_, a, a, ?_, if_pos_apply hsame _ _ _, .refl a, .near hsegment hoffset⟩
    rw [hids, if_pos_apply hsame]
    exact bind_of_ok hoffsetRun
  · rw [hids, if_neg_apply hsame, allocLandingPads, if_neg_apply hsame]
    rcases ObjectBuilder.allocInSegment_cases hwf hsrcLength AllocLen.one with
      ⟨-, halloc⟩ | ⟨-, pad, a₁, halloc, hpadSegment, hallocates⟩
    · -- there is no room in the segment of the object
      rw [bind_of_ok halloc, bind_of_ok halloc]
      have hlength : dstBuilder.segment < a.segments.length := by
        rw [hdstBuilder]
        exact hdstLength
      rcases ObjectBuilder.alloc_cases hwf hlength landingPadLen with
        ⟨a₁, halloc', hunchanged⟩ | ⟨pad, a₁, halloc', hallocates⟩
      · right
        have hpads : dstBuilder.allocDoubleFarLandingPad a = .ok none a₁ := bind_of_ok halloc'
        exact ⟨a₁, bind_of_ok hpads, bind_of_ok hpads, hunchanged⟩
      · left
        have hpads : dstBuilder.allocDoubleFarLandingPad a =
            .ok (some (pad, pad.offset 1, ⟨pad.segment⟩)) a₁ := bind_of_ok halloc'
        have hpadLength := hallocates.lt_length (show 0 < 2 by decide)
        have hpadLt : pad.pos < 2 ^ 29 := hallocates.pos_lt hwf
        obtain ⟨far, hfarRun, hfar⟩ :=
          @ObjectBuilder.offsetFromStart_apply a₁ ⟨pad.segment⟩ pad rfl hpadLt
        obtain ⟨content, hcontentRun, hcontent⟩ :=
          @ObjectBuilder.offsetFromStart_apply a₁ srcBuilder place hsrcBuilder hplace
        have hpadUsed : pad.pos < a₁.used pad.segment := by
          rw [hallocates.used_eq, if_pos rfl]
          show pad.pos < pad.pos + 2
          omega
        have htagUsed : (pad.offset 1).pos <
            (a₁.write pad 1 fun _ => FarPtr.new place.segment content false).used
              (pad.offset 1).segment := by
          rw [Arena.used_write, hallocates.used_eq]
          show pad.pos + 1 < if pad.segment = pad.segment then pad.pos + 2 else _
          rw [if_pos rfl]
          omega
        refine ⟨_, _, a₁, ?_, bind_of_ok hpads, ?_, .doubleFar hallocates hsrc hfar hcontent⟩
        · refine (bind_of_ok hpads).trans ?_
          refine (bind_of_ok (ObjectBuilder.id_apply hallocates.wf hpadLength)).trans ?_
          refine (bind_of_ok hfarRun).trans ((bind_of_ok hcontentRun).trans ?_)
          rw [hsrcBuilder]
          refine (bind_of_ok (ObjectBuilder.setPtr_apply hallocates.wf hpadUsed _)).trans ?_
          exact bind_of_ok (ObjectBuilder.setPtr_apply (hallocates.wf.set hpadUsed _) htagUsed _)
        · exact (Arena.SameRoom.write _ _ _ _).trans (Arena.SameRoom.write _ _ _ _)
    · left
      have hpadPlace : pad.segment = place.segment := hpadSegment.trans hsrcBuilder
      have hpadLt : pad.pos < 2 ^ 29 := hallocates.pos_lt hwf
      have hpadUsed : pad.pos < a₁.used pad.segment := by
        rw [hallocates.used_eq, if_pos rfl]
        show pad.pos < pad.pos + 1
        omega
      obtain ⟨offset, hoffsetRun, hoffset⟩ :=
        @ObjectBuilder.offsetFromEndOf_apply a₁ srcBuilder pad place hpadPlace hpadLt hplace
      obtain ⟨far, hfarRun, hfar⟩ := @ObjectBuilder.offsetFromStart_apply
        (a₁.write pad 1 fun _ => setContentOffset ptr offset) srcBuilder pad hpadSegment.symm hpadLt
      refine ⟨_, _, a₁, ?_, bind_of_ok halloc, .write _ _ _ _,
        .far hallocates hpadPlace hoffset hfar⟩
      refine (bind_of_ok halloc).trans ((bind_of_ok hoffsetRun).trans ?_)
      refine (bind_of_ok (ObjectBuilder.setPtr_apply hallocates.wf hpadUsed _)).trans ?_
      rw [hpadSegment]
      exact bind_of_ok hfarRun

/-! ### Where the new pointer leads -/

lemma hops_near {slot : SegmentRef} (hword : a.word slot = ptr) (hkind : WirePtr.kind ptr ≠ .far) :
    Hops a slot ptr (.near slot) [] := by
  subst hword
  exact .near hkind

lemma hops_far {slot : SegmentRef} {pad : SegmentRef} {offset : SegmentOffset}
    (hword : a.word slot = FarPtr.new pad.segment offset false) (hid : pad.segment < 2 ^ 32)
    (hoffset : offset.get = pad.pos) : Hops a slot (a.word pad) (.far pad) [pad] := by
  have hpad : FarPtr.pad (a.word slot) = pad := by
    refine SegmentRef.ext ?_ ?_
    · rw [FarPtr.pad, hword, FarPtr.segment_new hid]
    · rw [FarPtr.pad, hword, FarPtr.offset_new, hoffset]
  have hhops : Hops a slot (a.word (FarPtr.pad (a.word slot))) (.far (FarPtr.pad (a.word slot)))
      [FarPtr.pad (a.word slot)] := by
    refine .far ?_ ?_
    · rw [hword, FarPtr.kind_new]
    · rw [hword, FarPtr.doubleFar_new]
  rwa [hpad] at hhops

lemma hops_doubleFar {slot : SegmentRef} {pad : SegmentRef} {offset content : SegmentOffset}
    {id : SegmentId} (hword : a.word slot = FarPtr.new pad.segment offset true)
    (hid : pad.segment < 2 ^ 32) (hoffset : offset.get = pad.pos)
    (hpadWord : a.word pad = FarPtr.new id content false) (hid' : id < 2 ^ 32) :
    Hops a slot (a.word (pad.offset 1)) (.doubleFar id content) [pad, pad.offset 1] := by
  have hpad : FarPtr.pad (a.word slot) = pad := by
    refine SegmentRef.ext ?_ ?_
    · rw [FarPtr.pad, hword, FarPtr.segment_new hid]
    · rw [FarPtr.pad, hword, FarPtr.offset_new, hoffset]
  have hhops : Hops a slot (a.word ((FarPtr.pad (a.word slot)).offset 1))
      (.doubleFar (FarPtr.segment (a.word (FarPtr.pad (a.word slot))))
        (FarPtr.offset (a.word (FarPtr.pad (a.word slot)))))
      [FarPtr.pad (a.word slot), (FarPtr.pad (a.word slot)).offset 1] := by
    refine .doubleFar ?_ ?_ ?_
    · rw [hword, FarPtr.kind_new]
    · rw [hword, FarPtr.doubleFar_new]
    · rw [hpad, hpadWord, FarPtr.kind_new]
  rwa [hpad, hpadWord, FarPtr.segment_new hid', FarPtr.offset_new] at hhops

/-- Making the pointer allocates landing pads at most. -/
lemma Moves.grows (hwf : a.Wf) {newPtr : WirePtr} (h : Moves a dst place ptr newPtr a') :
    Arena.Grows ∅ a a' := by
  cases h with
  | near => exact .refl hwf
  | @far pad a₁ offset far hallocates =>
    have hpad : pad ∈ Arena.fresh a a₁ := hallocates.mem_fresh ⟨rfl, Nat.le_refl _, Nat.lt_succ_self _⟩
    refine hallocates.grows.trans (Arena.grows_set hallocates.wf (Arena.mem_fresh.1 hpad).2 _) ?_
    rintro r hr rfl
    exact absurd hr (Nat.not_lt.2 (Arena.mem_fresh.1 hpad).1)
  | @doubleFar pad a₁ far content hallocates =>
    have hpad : pad ∈ Arena.fresh a a₁ := hallocates.mem_fresh ⟨rfl, Nat.le_refl _, by omega⟩
    have htag : pad.offset 1 ∈ Arena.fresh a a₁ :=
      hallocates.mem_fresh ⟨rfl, Nat.le_succ _, Nat.lt_succ_self _⟩
    have hset := Arena.grows_set hallocates.wf (Arena.mem_fresh.1 hpad).2
      (FarPtr.new place.segment content false)
    have htagUsed : (pad.offset 1).pos <
        (a₁.write pad 1 fun _ => FarPtr.new place.segment content false).used
          (pad.offset 1).segment := by
      rw [Arena.used_write]
      exact (Arena.mem_fresh.1 htag).2
    refine (hallocates.grows.trans hset ?_).trans (Arena.grows_set hset.wf htagUsed _) ?_
    · rintro r hr rfl
      exact absurd hr (Nat.not_lt.2 (Arena.mem_fresh.1 hpad).1)
    · rintro r hr rfl
      exact absurd hr (Nat.not_lt.2 (Arena.mem_fresh.1 htag).1)

/-- The new pointer stands for the object. -/
lemma Moves.resolves (hwf : a.Wf) {newPtr : WirePtr} (h : Moves a dst place ptr newPtr a')
    (hkind : WirePtr.kind ptr = .struct ∨ WirePtr.kind ptr = .list)
    (hdst : dst.pos < a.used dst.segment) (hD : ∀ r ∈ D, r.pos < a.used r.segment)
    (hbefore : place.segment = dst.segment → place.pos ≤ dst.pos) :
    Resolves (a'.write dst 1 fun _ => newPtr) D dst
      (.object (WirePtr.kind ptr) ptr.upper place) := by
  have hgrows := h.grows hwf
  have hdst' : dst.pos < a'.used dst.segment := hgrows.lt_used hdst
  have hdstWord : (a'.write dst 1 fun _ => newPtr).word dst = newPtr := by
    rw [Arena.word_set hdst', if_pos rfl]
  have hothers : ∀ r, r ≠ dst → (a'.write dst 1 fun _ => newPtr).word r = a'.word r := by
    intro r hr
    rw [Arena.word_set hdst', if_neg hr]
  have hfresh : ∀ {r : SegmentRef} {a₁ : Arena}, r ∈ Arena.fresh a a₁ → r ≠ dst ∧ r ∉ D := by
    intro r a₁ hr
    refine ⟨ne_of_fresh hdst hr, fun hmem => ?_⟩
    exact absurd (hD r hmem) (Nat.not_lt.2 (Arena.mem_fresh.1 hr).1)
  cases h with
  | @near offset hsegment hoffset =>
    have hword : WirePtr.kind (setContentOffset ptr offset) ≠ .far := by
      rw [kind_setContentOffset]
      rcases hkind with hkind | hkind
      · rw [hkind]
        decide
      · rw [hkind]
        decide
    refine ⟨?_, hkind, setContentOffset ptr offset, .near dst, [], ?_, by simp, by simp, ?_, ?_⟩
    · rw [hdstWord]
      have hle := hbefore hsegment
      exact setContentOffset_ne_null (by omega)
    · exact hops_near hdstWord hword
    · rw [contentOffset_setContentOffset]
      exact ⟨hsegment, hoffset.symm⟩
    · exact fun r hr => absurd hr List.not_mem_nil
  | @far pad a₁ offset far hallocates hsegment hoffset hfar =>
    have hpad : pad ∈ Arena.fresh a a₁ := hallocates.mem_fresh ⟨rfl, Nat.le_refl _, Nat.lt_succ_self _⟩
    have hpadUsed := (Arena.mem_fresh.1 hpad).2
    have hid : pad.segment < 2 ^ 32 := by
      have hlt := hallocates.lt_length Nat.one_pos
      have hle := hallocates.wf.length_le
      omega
    have hpadWord : ((a₁.write pad 1 fun _ => setContentOffset ptr offset).write dst 1 fun _ =>
        FarPtr.new pad.segment far false).word pad = setContentOffset ptr offset := by
      rw [hothers pad (hfresh hpad).1, Arena.word_set hpadUsed, if_pos rfl]
    have hhops := hops_far hdstWord hid hfar
    rw [hpadWord] at hhops
    refine ⟨?_, hkind, _, _, _, hhops, by simp, by simp, ?_, ?_⟩
    · rw [hdstWord]
      refine ne_null_of_kind ?_
      rw [FarPtr.kind_new]
      decide
    · rw [contentOffset_setContentOffset]
      exact ⟨hsegment.symm, hoffset.symm⟩
    · intro r hr
      obtain rfl := List.mem_singleton.1 hr
      refine ⟨?_, (hfresh hpad).2⟩
      rw [Arena.used_write, Arena.used_write]
      exact hpadUsed
  | @doubleFar pad a₁ far content hallocates hsegment hfar hcontent =>
    have hpad : pad ∈ Arena.fresh a a₁ := hallocates.mem_fresh ⟨rfl, Nat.le_refl _, by omega⟩
    have htag : pad.offset 1 ∈ Arena.fresh a a₁ :=
      hallocates.mem_fresh ⟨rfl, Nat.le_succ _, Nat.lt_succ_self _⟩
    have hpadUsed := (Arena.mem_fresh.1 hpad).2
    have htagUsed := (Arena.mem_fresh.1 htag).2
    have hid : pad.segment < 2 ^ 32 ∧ place.segment < 2 ^ 32 := by
      have hlt := hallocates.lt_length (show 0 < 2 by decide)
      have hle := hallocates.wf.length_le
      have hle' := hwf.length_le
      omega
    have hne : pad ≠ pad.offset 1 := fun heq =>
      absurd (congrArg SegmentRef.pos heq) (Nat.ne_of_lt (Nat.lt_succ_self pad.pos))
    have htagUsed' : (pad.offset 1).pos <
        (a₁.write pad 1 fun _ => FarPtr.new place.segment content false).used
          (pad.offset 1).segment := by
      rw [Arena.used_write]
      exact htagUsed
    have hpadWord := hothers pad (hfresh hpad).1
    rw [Arena.word_set htagUsed', if_neg hne, Arena.word_set hpadUsed, if_pos rfl] at hpadWord
    have htagWord := hothers (pad.offset 1) (hfresh htag).1
    rw [Arena.word_set htagUsed', if_pos rfl] at htagWord
    have hhops := hops_doubleFar hdstWord hid.1 hfar hpadWord hid.2
    rw [htagWord] at hhops
    refine ⟨?_, hkind, _, _, _, hhops, by simp, by simp, ?_, ?_⟩
    · rw [hdstWord]
      refine ne_null_of_kind ?_
      rw [FarPtr.kind_new]
      decide
    · exact SegmentRef.ext rfl hcontent.symm
    · intro r hr
      rw [Arena.used_write, Arena.used_write, Arena.used_write]
      rcases List.mem_cons.1 hr with rfl | hr
      · exact ⟨hpadUsed, (hfresh hpad).2⟩
      · obtain rfl := List.mem_singleton.1 hr
        exact ⟨htagUsed, (hfresh htag).2⟩

/-- A far pointer leads the same way from everywhere. -/
lemma Hops.move {location : BuildLocation} {pads : List SegmentRef}
    (h : Hops a src ptr location pads) (hkind : WirePtr.kind (a.word src) = .far)
    (hword : a'.word dst = a.word src) (hpads : ∀ r ∈ pads, a'.word r = a.word r) :
    Hops a' dst ptr location pads := by
  cases h with
  | near hnear => exact absurd hkind hnear
  | far _ hsingle =>
    rw [← hpads _ (List.mem_singleton_self _)]
    rw [← hword] at hkind hsingle ⊢
    exact .far hkind hsingle
  | doubleFar _ hdouble hpad =>
    have hfirst := hpads _ List.mem_cons_self
    have hsecond := hpads _ (List.mem_cons_of_mem _ (List.mem_singleton_self _))
    rw [← hfirst] at hpad ⊢
    rw [← hsecond]
    rw [← hword] at hkind hdouble hpad ⊢
    exact .doubleFar hkind hdouble hpad

/-- Where a pointer leads that is not far. -/
lemma Hops.eq_near {location : BuildLocation} {pads : List SegmentRef}
    (h : Hops a src ptr location pads) (hkind : WirePtr.kind (a.word src) ≠ .far) :
    ptr = a.word src ∧ location = .near src := by
  cases h with
  | near => exact ⟨rfl, rfl⟩
  | far hfar | doubleFar hfar => exact absurd hfar hkind

/-- A pointer that is taken as it is stands for the same. -/
lemma Resolves.verbatim (hwf : a.Wf) (hdst : dst.pos < a.used dst.segment) (hdstD : dst ∈ D)
    (h : Resolves a D src t)
    (hkind : WirePtr.kind (a.word src) = .far ∨ WirePtr.kind (a.word src) = .other) :
    Resolves (a.write dst 1 fun _ => a.word src) D dst t := by
  have hword : (a.write dst 1 fun _ => a.word src).word dst = a.word src := by
    rw [Arena.word_set hdst, if_pos rfl]
  cases t with
  | null => exact hword.trans h
  | capability index =>
    show WirePtr.isCapability ((a.write dst 1 fun _ => a.word src).word dst) = true ∧ _
    rw [hword]
    exact h
  | object kind size place =>
    obtain ⟨hsome, hobject, ptr, location, pads, hhops, hptr, hsize, hbegins, hpads⟩ := h
    have hfar : WirePtr.kind (a.word src) = .far := by
      refine hkind.resolve_right fun hother => ?_
      obtain ⟨rfl, -⟩ := hhops.eq_near (by rw [hother]; decide)
      rw [← hptr, hother] at hobject
      rcases hobject with hobject | hobject
      · cases hobject
      · cases hobject
    refine ⟨?_, hobject, ptr, location, pads, hhops.move hfar hword ?_, hptr, hsize, hbegins, ?_⟩
    · rw [hword]
      exact hsome
    · intro r hr
      exact (Arena.grows_set hwf hdst (a.word src)).word_eq (hpads r hr).1
        fun hmem => (hpads r hr).2 (Set.mem_singleton_iff.1 hmem ▸ hdstD)
    · intro r hr
      rw [Arena.used_write]
      exact hpads r hr

/-! ### Runs that move something -/

/-- The program moves something to words of `F`, where `P` holds then, and allocates as `pads` does.
Or there is no room for that, and it fails as `pads` does. -/
def Transfers (x pads : BuildM Unit) (F : Set SegmentRef) (P : Arena → Prop) (a : Arena) : Prop :=
  (∃ a' b, x a = .ok () a' ∧ pads a = .ok () b ∧ a'.SameRoom b ∧ Arena.Grows F a a' ∧ P a') ∨
  ∃ n a' b, x a = .error (.allocFailed n) a' ∧ pads a = .error (.allocFailed n) b ∧ Arena.Grows F a a'

namespace Transfers

variable {x y pads pads' : BuildM Unit} {F G H : Set SegmentRef} {P Q : Arena → Prop}

/-- A run that succeeds. -/
lemma of_ok (h : Transfers x pads F P a) (hrun : x a = .ok () a') : Arena.Grows F a a' ∧ P a' := by
  rcases h with ⟨a₁, b, hx, -, -, hgrows, hP⟩ | ⟨n, a₁, b, hx, -⟩
  · cases hx.symm.trans hrun
    exact ⟨hgrows, hP⟩
  · cases hx.symm.trans hrun

/-- One transfer after another. -/
lemma bind (h : Transfers x pads F P a) (hpads' : Prog.Respects Arena.SameRoom pads')
    (hnext : ∀ a', Arena.Grows F a a' → P a' → Transfers y pads' G Q a') (hF : F ⊆ H) (hG : G ⊆ H) :
    Transfers (x >>= fun _ => y) (pads >>= fun _ => pads') H Q a := by
  rcases h with ⟨a₁, b, hx, hpads, hroom, hgrows, hP⟩ | ⟨n, a₁, b, hx, hpads, hgrows⟩
  · rcases hnext a₁ hgrows hP with ⟨a₂, b₂, hy, hpads₂, hroom₂, hgrows₂, hQ⟩ | ⟨n, a₂, b₂, hy, hpads₂, hgrows₂⟩
    · obtain ⟨b₃, hb₃, hroom₃⟩ := hpads'.ok hroom hpads₂
      exact Or.inl ⟨a₂, b₃, (bind_of_ok hx).trans hy, (bind_of_ok hpads).trans hb₃,
        hroom₂.trans hroom₃, (hgrows.mono hF).trans hgrows₂ fun r _ hr => hG hr, hQ⟩
    · obtain ⟨b₃, hb₃, -⟩ := hpads'.error hroom hpads₂
      exact Or.inr ⟨n, a₂, b₃, (bind_of_ok hx).trans hy, (bind_of_ok hpads).trans hb₃,
        (hgrows.mono hF).trans hgrows₂ fun r _ hr => hG hr⟩
  · exact Or.inr ⟨n, a₁, b, bind_of_error hx, bind_of_error hpads, hgrows.mono hF⟩

/-- Another program that does the same. -/
lemma of_eq (heq : x a = y a) (h : Transfers y pads F P a) : Transfers x pads F P a := by
  rw [Transfers, heq]
  exact h

lemma imp (h : Transfers x pads F P a) (hPQ : ∀ a', Arena.Grows F a a' → P a' → Q a') :
    Transfers x pads F Q a := by
  rcases h with ⟨a₁, b, hx, hpads, hroom, hgrows, hP⟩ | herror
  · exact Or.inl ⟨a₁, b, hx, hpads, hroom, hgrows, hPQ a₁ hgrows hP⟩
  · exact Or.inr herror

/-- A step that allocates nothing. -/
lemma of_write (hx : x a = .ok () a') (hroom : a'.SameRoom a)
    (hgrows : Arena.Grows F a a') (hP : P a') : Transfers x (pure ()) F P a :=
  Or.inl ⟨a', a, hx, rfl, hroom, hgrows, hP⟩

/-- Transfers in a loop.  What one round has moved is kept by the later ones. -/
lemma forRange {n : ℕ} {x pads : ℕ → BuildM Unit} {F : ℕ → Set SegmentRef} {P : ℕ → Arena → Prop}
    (hwf : a.Wf) (hpads : ∀ k, Prog.Respects Arena.SameRoom (pads k))
    (hstep : ∀ k < n, ∀ a', Arena.Grows {r | ∃ j < k, r ∈ F j} a a' →
      Transfers (x k) (pads k) (F k) (P k) a')
    (hkeep : ∀ k < n, ∀ j < k, ∀ a₁ a₂, Arena.Grows {r | ∃ j < k, r ∈ F j} a a₁ → P j a₁ →
      Arena.Grows (F k) a₁ a₂ → P j a₂) :
    Transfers (Prog.forRange n x) (Prog.forRange n pads) {r | ∃ k < n, r ∈ F k}
      (fun a' => ∀ k < n, P k a') a := by
  induction n with
  | zero => exact .of_write rfl (.refl a) (.refl hwf) fun k hk => absurd hk (Nat.not_lt_zero k)
  | succ n ih =>
    refine (ih (fun k hk => hstep k (Nat.lt_succ_of_lt hk))
      fun k hk => hkeep k (Nat.lt_succ_of_lt hk)).bind (G := F n) (hpads n) ?_ ?_ ?_
    · intro a₁ hgrows hP
      refine (hstep n (Nat.lt_succ_self n) a₁ hgrows).imp fun a₂ hgrows' hlast k hk => ?_
      rcases Nat.lt_succ_iff_lt_or_eq.1 hk with hlt | rfl
      · exact hkeep n (Nat.lt_succ_self n) k hlt a₁ a₂ hgrows (hP k hlt) hgrows'
      · exact hlast
    · rintro r ⟨k, hk, hr⟩
      exact ⟨k, Nat.lt_succ_of_lt hk, hr⟩
    · intro r hr
      exact ⟨n, Nat.lt_succ_self n, hr⟩

end Transfers

/-- `transfer_ptr` makes such a pointer anew: it is near, and not null. -/
def WirePtr.isNear (ptr : WirePtr) : Bool :=
  !ptr.isNull && (ptr.kind == .struct || ptr.kind == .list)

/-- The landing pads for some pointers. -/
def allocPadsFor (srcBuilder dstBuilder : ObjectBuilder) (words : ℕ → Word) (len : ℕ) : BuildM Unit :=
  Prog.forRange len fun k =>
    if WirePtr.isNear (words k) then allocLandingPads srcBuilder dstBuilder else pure ()

lemma respects_allocPadsFor {words : ℕ → Word} {len : ℕ} :
    Prog.Respects Arena.SameRoom (allocPadsFor srcBuilder dstBuilder words len) :=
  respects_forRange fun _ =>
    respects_ite respects_allocLandingPads (respects_pure ())

lemma allocPadsFor_congr {words words' : ℕ → Word} {len : ℕ} (h : ∀ k < len, words k = words' k) :
    allocPadsFor srcBuilder dstBuilder words len = allocPadsFor srcBuilder dstBuilder words' len := by
  induction len with
  | zero => rfl
  | succ len ih =>
    have hfirst := ih fun k hk => h k (Nat.lt_succ_of_lt hk)
    rw [allocPadsFor, allocPadsFor] at hfirst
    rw [allocPadsFor, allocPadsFor, Prog.forRange, Prog.forRange, hfirst, h len (Nat.lt_succ_self len)]

/-- The pointer stands for the same when it is moved. -/
lemma transferPtr_transfers (hwf : a.Wf) (hsrcBuilder : srcBuilder.segment = src.segment)
    (hdstBuilder : dstBuilder.segment = dst.segment) (hsrc : src.pos < a.used src.segment)
    (hdst : dst.pos < a.used dst.segment) (hD : ∀ r ∈ D, r.pos < a.used r.segment) (hdstD : dst ∈ D)
    (hnull : a.word dst = Word.null) (h : Resolves a D src t) (hprecedes : t.Precedes dst) :
    Transfers (transferPtr src srcBuilder dst dstBuilder)
      (if WirePtr.isNear (a.word src) then allocLandingPads srcBuilder dstBuilder else pure ())
      {dst} (fun a' => Resolves a' D dst t) a := by
  have hlen : src.pos < a.len src.segment := hsrc.trans_le (hwf.used_le_len _)
  have hread : transferPtr src srcBuilder dst dstBuilder a = _ := bind_of_ok (read_of_lt hlen)
  by_cases hsome : a.word src = Word.null
  · have hnear : WirePtr.isNear (a.word src) = false := by
      rw [hsome]
      decide
    obtain rfl := h.eq_null_iff.1 hsome
    rw [hnear, if_neg Bool.false_ne_true]
    refine .of_write ?_ (.refl a) (.refl hwf) hnull
    rw [hread]
    exact if_pos_apply (Word.isNull_iff.2 hsome) _ _ _
  · have hisNull : (a.word src).isNull = false := Bool.eq_false_iff.2 fun hisNull =>
      hsome (Word.isNull_iff.1 hisNull)
    rw [hisNull] at hread
    replace hread := hread.trans (if_neg_apply Bool.false_ne_true _ _ _)
    by_cases hkind : WirePtr.kind (a.word src) = .far ∨ WirePtr.kind (a.word src) = .other
    · have hnear : WirePtr.isNear (a.word src) = false := by
        rw [WirePtr.isNear]
        rcases hkind with hkind | hkind
        · rw [hkind]
          exact Bool.and_false _
        · rw [hkind]
          exact Bool.and_false _
      have hset : transferPtr src srcBuilder dst dstBuilder a =
          (dstBuilder.setPtr dst (a.word src) : BuildM Unit) a := by
        rw [hread]
        rcases hkind with hkind | hkind
        · rw [hkind]
          rfl
        · rw [hkind]
          rfl
      rw [hnear, if_neg Bool.false_ne_true]
      exact .of_write (hset.trans (ObjectBuilder.setPtr_apply hwf hdst _)) (.write _ _ _ _)
        (Arena.grows_set hwf hdst _) (h.verbatim hwf hdst hdstD hkind)
    · obtain ⟨hfar, hother⟩ := not_or.1 hkind
      -- a struct or a list, which is near
      have hobject : WirePtr.kind (a.word src) = .struct ∨ WirePtr.kind (a.word src) = .list := by
        rcases hk : WirePtr.kind (a.word src) with _ | _ | _ | _
        · exact Or.inl rfl
        · exact Or.inr rfl
        · exact absurd hk hfar
        · exact absurd hk hother
      have hnear : WirePtr.isNear (a.word src) = true := by
        rw [WirePtr.isNear, hisNull]
        rcases hobject with hk | hk
        · rw [hk]
          rfl
        · rw [hk]
          rfl
      cases t with
      | null => exact absurd h hsome
      | capability index =>
        have hcapability := h.1
        rw [WirePtr.not_isCapability_of_kind hother] at hcapability
        cases hcapability
      | object kind size place =>
        obtain ⟨-, -, ptr, location, pads, hhops, rfl, rfl, hbegins, -⟩ := h
        obtain ⟨rfl, rfl⟩ := hhops.eq_near hfar
        obtain ⟨hsegment, hpos⟩ := hbegins
        obtain ⟨hplace, hbefore⟩ := hprecedes
        have hbuild : srcBuilder.buildObjectFromEndOf src (contentOffset (a.word src)) a =
            .ok (place, srcBuilder) a := by
          have heq : (⟨src.segment, ((src.pos : ℤ) + 1 + (contentOffset (a.word src)).get).toNat⟩ :
              SegmentRef) = place := by
            refine SegmentRef.ext hsegment.symm ?_
            show ((src.pos : ℤ) + 1 + (contentOffset (a.word src)).get).toNat = place.pos
            omega
          rw [ObjectBuilder.buildObjectFromEndOf, require_of (by omega), pure_bind_eq, heq]
          rfl
        have hcontent : transferPtr src srcBuilder dst dstBuilder a =
            (transferContent (a.word src) place srcBuilder dst dstBuilder >>= fun newPtr =>
              dstBuilder.setPtr dst newPtr) a := by
          rw [hread]
          rcases hobject with hk | hk
          · rw [hk]
            exact (bind_of_ok hbuild :)
          · rw [hk]
            exact (bind_of_ok hbuild :)
        have hlength : place.segment < a.segments.length := by
          rw [hsegment]
          exact Arena.lt_length_of_used (by omega)
        rw [hnear, if_pos rfl]
        rcases @transferContent_cases a dst place srcBuilder dstBuilder (a.word src) hwf
            (hsrcBuilder.trans hsegment.symm) hlength hdstBuilder hdst hplace with
          ⟨newPtr, a₁, b, hrun, hpads, hroom, hmoves⟩ | ⟨a₁, hrun, hpads, hunchanged⟩
        · have hgrows := hmoves.grows hwf
          have hdst' : dst.pos < a₁.used dst.segment := hgrows.lt_used hdst
          refine Or.inl ⟨_, b, hcontent.trans ((bind_of_ok hrun).trans
            (ObjectBuilder.setPtr_apply hgrows.wf hdst' _)), hpads,
            (Arena.SameRoom.write _ _ _ _).trans hroom, ?_, hmoves.resolves hwf hobject hdst hD hbefore⟩
          exact (hgrows.mono (Set.empty_subset _)).trans (Arena.grows_set hgrows.wf hdst' _)
            fun _ _ hr => hr
        · exact Or.inr ⟨_, a₁, a₁, hcontent.trans (bind_of_error hrun), hpads,
            hunchanged.grows.mono (Set.empty_subset _)⟩

/-! ## Moving pointers and structs -/

lemma Target.Precedes.offset (h : t.Precedes dst) (k : ℕ) : t.Precedes (dst.offset k) := by
  cases t with
  | null | capability => trivial
  | object kind size place => exact ⟨h.1, fun heq => (h.2 heq).trans (Nat.le_add_right _ _)⟩

lemma offset_mem_span {start : SegmentRef} {len k : ℕ} (hk : k < len) :
    start.offset k ∈ span start len :=
  ⟨rfl, Nat.le_add_right _ _, Nat.add_lt_add_left hk _⟩

lemma span_mono {start : SegmentRef} {len len' : ℕ} (h : len ≤ len') : span start len ⊆ span start len' :=
  fun _ hr => ⟨hr.1, hr.2.1, hr.2.2.trans_le (Nat.add_le_add_left h _)⟩

/-- The pointers of a section stand for the same when they are moved. -/
lemma transferPtrSection_transfers {len : ℕ} (t : ℕ → Target) (hwf : a.Wf)
    (hsrcBuilder : srcBuilder.segment = src.segment)
    (hdstBuilder : dstBuilder.segment = dst.segment) (hsrc : src.pos + len ≤ a.used src.segment)
    (hdst : dst.pos + len ≤ a.used dst.segment) (hD : ∀ r ∈ D, r.pos < a.used r.segment)
    (hdstD : span dst len ⊆ D) (hnull : ∀ k < len, a.word (dst.offset k) = Word.null)
    (hapart : Disjoint (span src len) (span dst len))
    (h : ∀ k < len, Resolves a D (src.offset k) (t k) ∧ (t k).Precedes dst) :
    Transfers (transferPtrSection src srcBuilder dst dstBuilder len)
      (allocPadsFor srcBuilder dstBuilder (fun k => a.word (src.offset k)) len) (span dst len)
      (fun a' => ∀ k < len, Resolves a' D (dst.offset k) (t k)) a := by
  induction len with
  | zero =>
    exact .of_write rfl (.refl a) (.refl hwf) fun k hk => absurd hk (Nat.not_lt_zero k)
  | succ len ih =>
    have hspan : span dst len ⊆ span dst (len + 1) := span_mono (Nat.le_succ len)
    have hfirst := ih (by omega) (by omega) (hspan.trans hdstD)
      (fun k hk => hnull k (Nat.lt_succ_of_lt hk))
      (hapart.mono (span_mono (Nat.le_succ len)) hspan) (fun k hk => h k (Nat.lt_succ_of_lt hk))
    obtain ⟨hsource, hprecedes⟩ := h len (Nat.lt_succ_self len)
    have hsrcLive : (src.offset len).pos < a.used (src.offset len).segment := by
      show src.pos + len < a.used src.segment
      omega
    have hdstLive : (dst.offset len).pos < a.used (dst.offset len).segment := by
      show dst.pos + len < a.used dst.segment
      omega
    have hsrcOut : src.offset len ∉ span dst len := fun hmem =>
      Set.disjoint_left.1 hapart (offset_mem_span (Nat.lt_succ_self len)) (hspan hmem)
    have hdstOut : dst.offset len ∉ span dst len := fun hmem =>
      absurd hmem.2.2 (Nat.lt_irrefl _)
    have hlastMem : dst.offset len ∈ span dst (len + 1) := offset_mem_span (Nat.lt_succ_self len)
    refine hfirst.bind (G := {dst.offset len}) (respects_ite respects_allocLandingPads
      (respects_pure ())) ?_ hspan (Set.singleton_subset_iff.2 hlastMem)
    intro a₁ hgrows hresolves
    have hlast := transferPtr_transfers hgrows.wf
      (show srcBuilder.segment = (src.offset len).segment from hsrcBuilder)
      (show dstBuilder.segment = (dst.offset len).segment from hdstBuilder)
      (hgrows.lt_used hsrcLive) (hgrows.lt_used hdstLive)
      (fun r hr => (hD r hr).trans_le (hgrows.used_le _)) (hdstD hlastMem)
      ((hgrows.word_eq hdstLive hdstOut).trans (hnull len (Nat.lt_succ_self len)))
      (hsource.grows hgrows (hspan.trans hdstD) hsrcLive hsrcOut) (hprecedes.offset len)
    rw [hgrows.word_eq hsrcLive hsrcOut] at hlast
    refine hlast.imp fun a₂ hgrows' hresolves' k hk => ?_
    rcases Nat.lt_succ_iff_lt_or_eq.1 hk with hk | rfl
    · refine (hresolves k hk).grows hgrows' ?_ ?_ ?_
      · rintro r rfl
        exact hdstD hlastMem
      · refine Nat.lt_of_lt_of_le ?_ (hgrows.used_le _)
        show dst.pos + k < a.used dst.segment
        omega
      · intro heq
        exact absurd (offset_inj heq) (Nat.ne_of_lt hk)
    · exact hresolves'

/-- A struct moves to another place: its data is copied, and its pointers stand for the same. -/
lemma promoteStruct_transfers {size : StructSize} {dstPtrs : SegmentRef} (t : ℕ → Target)
    (hwf : a.Wf) (hsrcBuilder : srcBuilder.segment = src.segment)
    (hdstBuilder : dstBuilder.segment = dstPtrs.segment)
    (hsrc : src.pos + size.total ≤ a.used src.segment)
    (hdst : dst.pos + size.data ≤ a.used dst.segment)
    (hdstPtrs : dstPtrs.pos + size.ptrs ≤ a.used dstPtrs.segment)
    (hD : ∀ r ∈ D, r.pos < a.used r.segment) (hdstD : span dst size.data ⊆ D)
    (hptrsD : span dstPtrs size.ptrs ⊆ D)
    (hnull : ∀ k < size.ptrs, a.word (dstPtrs.offset k) = Word.null)
    (hapart : Disjoint (span src size.total) (span dst size.data))
    (hapartPtrs : Disjoint (span src size.total) (span dstPtrs size.ptrs))
    (hsections : Disjoint (span dst size.data) (span dstPtrs size.ptrs))
    (h : ∀ k < size.ptrs, Resolves a D (src.offset (size.data + k)) (t k) ∧ (t k).Precedes dstPtrs) :
    Transfers (promoteStruct src size srcBuilder dst dstPtrs dstBuilder)
      (allocPadsFor srcBuilder dstBuilder (fun k => a.word (src.offset (size.data + k))) size.ptrs)
      (span dst size.data ∪ span dstPtrs size.ptrs)
      (fun a' => (∀ k < size.data, a'.word (dst.offset k) = a.word (src.offset k)) ∧
        ∀ k < size.ptrs, Resolves a' D (dstPtrs.offset k) (t k)) a := by
  have hsum := size.total_eq
  have hlen := hwf.used_le_len src.segment
  have hslice : srcBuilder.sectionSliceMut src size.data a = .ok (fun k => a.word (src.offset k)) a :=
    if_pos (by omega)
  have hwrite : (Arena.writeSection dst size.data fun k => a.word (src.offset k) : BuildM Unit) a =
      .ok () (a.write dst size.data fun k => a.word (src.offset k)) :=
    if_pos (hdst.trans (hwf.used_le_len _))
  have hcopy := Arena.grows_write hwf hdst fun k => a.word (src.offset k)
  have hptrSpan : span (src.offset size.data) size.ptrs ⊆ span src size.total := by
    rintro r ⟨hsegment, hle, hlt⟩
    have hle' : src.pos + size.data ≤ r.pos := hle
    have hlt' : r.pos < src.pos + size.data + size.ptrs := hlt
    exact ⟨hsegment, by omega, by omega⟩
  have hsrcWord : ∀ k < size.ptrs, (a.write dst size.data fun k => a.word (src.offset k)).word
      ((src.offset size.data).offset k) = a.word (src.offset (size.data + k)) := by
    intro k hk
    rw [offset_offset]
    refine hcopy.word_eq ?_ fun hmem => Set.disjoint_left.1 hapart (offset_mem_span (by omega)) hmem
    show src.pos + (size.data + k) < a.used src.segment
    omega
  have hsource : ∀ k < size.ptrs, Resolves (a.write dst size.data fun k => a.word (src.offset k)) D
      ((src.offset size.data).offset k) (t k) ∧ (t k).Precedes dstPtrs := by
    intro k hk
    rw [offset_offset]
    refine ⟨(h k hk).1.grows hcopy hdstD ?_ ?_, (h k hk).2⟩
    · show src.pos + (size.data + k) < a.used src.segment
      omega
    · exact fun hmem => Set.disjoint_left.1 hapart (offset_mem_span (by omega)) hmem
  have hptrNull : ∀ k < size.ptrs, (a.write dst size.data fun k => a.word (src.offset k)).word
      (dstPtrs.offset k) = Word.null := by
    intro k hk
    refine (hcopy.word_eq ?_ ?_).trans (hnull k hk)
    · show dstPtrs.pos + k < a.used dstPtrs.segment
      omega
    · exact fun hmem => Set.disjoint_left.1 hsections hmem (offset_mem_span hk)
  have hptrs := transferPtrSection_transfers t hcopy.wf
    (show srcBuilder.segment = (src.offset size.data).segment from hsrcBuilder) hdstBuilder
    (by
      rw [Arena.used_write]
      show src.pos + size.data + size.ptrs ≤ a.used src.segment
      omega)
    (by rwa [Arena.used_write])
    (fun r hr => by
      rw [Arena.used_write]
      exact hD r hr)
    hptrsD hptrNull (hapartPtrs.mono_left hptrSpan) hsource
  rw [allocPadsFor_congr hsrcWord] at hptrs
  -- the data is copied before, which allocates nothing
  have hdata : Transfers (Arena.writeSection dst size.data fun k => a.word (src.offset k)) (pure ())
      (span dst size.data) (fun a' => a' = a.write dst size.data fun k => a.word (src.offset k)) a :=
    .of_write hwrite (.write _ _ _ _) hcopy rfl
  refine Transfers.of_eq (bind_of_ok hslice) (hdata.bind respects_allocPadsFor ?_
    Set.subset_union_left Set.subset_union_right)
  rintro a₁ - rfl
  refine hptrs.imp fun a₂ hgrows hresolves => ⟨fun k hk => ?_, hresolves⟩
  have hlive : (dst.offset k).pos < (a.write dst size.data fun k => a.word (src.offset k)).used
      (dst.offset k).segment := by
    rw [Arena.used_write]
    show dst.pos + k < a.used dst.segment
    omega
  have hout : dst.offset k ∉ span dstPtrs size.ptrs := fun hmem =>
    Set.disjoint_left.1 hsections (offset_mem_span hk) hmem
  rw [hgrows.word_eq hlive hout]
  have hlength : dst.segment < a.segments.length := Arena.lt_length_of_used (by omega)
  refine (@Arena.word_write_of_mem a dst size.data _ (dst.offset k) hlength rfl
    (Nat.le_add_right _ _) (Nat.add_lt_add_left hk _)).trans ?_
  show a.word (src.offset (dst.pos + k - dst.pos)) = _
  rw [Nat.add_sub_cancel_left]

end Transfer

end Recapn.Ptr

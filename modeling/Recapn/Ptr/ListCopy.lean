/-
# Copies of lists over lists

A list of pointers or of structs is a row of structs, and a copy of one over another is a copy of
structs over structs: the words and pointers that both have are copied, and what is left of the old
structs stays.
-/
import Recapn.Ptr.DeepCopy
import Recapn.Ptr.ListPromotion

namespace Recapn.Ptr

open Recapn.Lib Recapn.Lib.Prog

/-! ## Lists as rows of structs -/

/-- The struct that an element is, if it is not just data. -/
def ElementSize.asStruct : ElementSize → Option StructSize
  | pointer => some ⟨0, 1, StructSize.zero_lt, StructSize.one_lt⟩
  | inlineComposite size => some size
  | _ => none

/-- A list of the one element size can be copied over one of the other: the sizes are the same, or
both are of structs, or the elements have room in the structs. -/
def ElementSize.CopiesTo (srcSize dstSize : ElementSize) : Prop :=
  srcSize = dstSize ∨ ∃ copy, dstSize = .inlineComposite copy ∧
    ((∃ size, srcSize = .inlineComposite size) ∨ srcSize.FitsIn copy)

/-- What comes to a word of a list of structs that others are copied over. -/
def StructSize.listPlan (size copy : StructSize) (words : ℕ → Word) (src : ℕ) (old : ℕ → Word) (k : ℕ) :
    Item :=
  size.plan copy words (src + size.total * (k / copy.total))
    (fun j => old (copy.total * (k / copy.total) + j)) (k % copy.total)

/-- What comes to a word of a list of structs when a range of pointers is copied into it.  A pointer
that is null becomes one to an empty struct. -/
def StructSize.presentPlan (copy : StructSize) (words : ℕ → Word) (src : ℕ) (old : ℕ → Word) (k : ℕ) :
    Item :=
  if k % copy.total = copy.data then
    if words (src + k / copy.total) = Word.null then .word StructPtr.empty
    else .ptr (src + k / copy.total)
  else .word (old k)

section Rows

variable {srcSize : ElementSize} {size copy : StructSize} {words old : ℕ → Word} {src i k : ℕ}
  {count : ElementCount}

/-- The word of an element. -/
lemma StructSize.div_mod_element (hk : k < copy.total) :
    (copy.total * i + k) / copy.total = i ∧ (copy.total * i + k) % copy.total = k := by
  constructor
  · rw [Nat.mul_add_div (by omega), Nat.div_eq_of_lt hk, Nat.add_zero]
  · rw [Nat.mul_add_mod, Nat.mod_eq_of_lt hk]

/-- The words of an element. -/
lemma StructSize.listPlan_element (hk : k < copy.total) :
    size.listPlan copy words src old (copy.total * i + k) =
      size.plan copy words (src + size.total * i) (fun j => old (copy.total * i + j)) k := by
  obtain ⟨hdiv, hmod⟩ := @div_mod_element copy i k hk
  rw [listPlan, hmod, hdiv]

/-- The first pointer of an element. -/
lemma StructSize.presentPlan_ptr (hptrs : 0 < copy.ptrs) :
    copy.presentPlan words src old (copy.total * i + copy.data) =
      if words (src + i) = Word.null then .word StructPtr.empty else .ptr (src + i) := by
  obtain ⟨hdiv, hmod⟩ := @div_mod_element copy i copy.data (Nat.lt_add_of_pos_right hptrs)
  rw [presentPlan, hmod, if_pos rfl, hdiv]

/-- Nothing is copied from a struct that has nothing. -/
lemma StructSize.plan_empty : empty.plan copy words src old k = .word (old k) := by
  have hnone : ∀ j, ¬ j < 0 := Nat.not_lt_zero
  rw [plan, show empty.data = 0 from rfl, show empty.ptrs = 0 from rfl, if_neg (hnone _),
    if_neg (hnone _), ite_self]

lemma Shape.words_asStruct (hsize : srcSize.asStruct = some size) :
    (list srcSize count).words = size.total * count.get := by
  cases srcSize with
  | inlineComposite size' =>
    cases hsize
    exact words_structs size count
  | pointer =>
    cases hsize
    show (8 * 8 * count.get + 63) / 64 = 1 * count.get
    omega
  | _ => cases hsize

lemma Shape.isPtr_asStruct (hsize : srcSize.asStruct = some size) (k : ℕ) :
    (list srcSize count).isPtr k = decide (size.data ≤ k % size.total) := by
  cases srcSize with
  | inlineComposite size' =>
    cases hsize
    rfl
  | pointer =>
    cases hsize
    exact (decide_eq_true (Nat.zero_le _)).symm
  | _ => cases hsize

/-- A copy over a list of the same size is a copy of its structs. -/
lemma Shape.plan_asStruct (hsize : srcSize.asStruct = some size)
    (hk : k < (list srcSize count).words) :
    (list srcSize count).plan (list srcSize count) words src k = size.listPlan size words src old k := by
  have hpos : 0 < size.total := by
    rw [words_asStruct hsize] at hk
    exact Nat.pos_of_mul_pos_right (Nat.zero_lt_of_lt hk)
  have hdiv := Nat.div_add_mod k size.total
  rw [plan_self, isPtr_asStruct hsize, StructSize.listPlan,
    StructSize.plan_eq (.refl size) (Nat.mod_lt k hpos)]
  have hsource : size.source size (k % size.total) = k % size.total := source_self (.struct size) _
  rw [hsource, Nat.add_assoc, hdiv]
  simp only [decide_eq_true_eq]

/-- An upgrade copies to its result. -/
lemma ElementSize.copiesTo_of_upgrade {dstSize other : ElementSize}
    (h : srcSize.upgradeTo other = some dstSize) : srcSize.CopiesTo dstSize := by
  by_cases hsame : srcSize = dstSize
  · exact Or.inl hsame
  · cases dstSize with
    | inlineComposite copy =>
      exact Or.inr ⟨copy, rfl, Or.inr (fitsIn_of_upgradeTo h (Ne.symm hsame))⟩
    | _ =>
      exfalso
      rcases ite_eq_iff.1 h with ⟨heq, hother⟩ | ⟨-, hupgrade⟩
      · exact hsame (heq.trans (Option.some.inj hother))
      · cases srcSize <;> cases other <;> simp [upgradeOther] at hupgrade

/-- What is upgraded to itself by other elements has room for them. -/
lemma ElementSize.fitsIn_of_upgrade {dstSize : ElementSize} (h : dstSize.upgradeTo srcSize = some dstSize)
    (hne : srcSize ≠ dstSize) : ∃ copy, dstSize = .inlineComposite copy ∧ srcSize.FitsIn copy := by
  rcases ite_eq_iff.1 h with ⟨heq, -⟩ | ⟨-, hupgrade⟩
  · exact absurd heq.symm hne
  · cases dstSize with
    | inlineComposite copy =>
      refine ⟨copy, rfl, ?_⟩
      cases srcSize with
      | inlineComposite size =>
        have hmax : copy.max size = copy := inlineComposite.inj (Option.some.inj hupgrade)
        rw [← hmax]
        exact ⟨Nat.le_max_right _ _, Nat.le_max_right _ _⟩
      | void => trivial
      | bit => cases hupgrade
      | _ => exact Nat.pos_of_ne_zero (Option.ite_none_left_eq_some.1 hupgrade).1
    | _ => cases srcSize <;> simp [upgradeOther] at hupgrade

lemma ElementSize.copiesTo_of_fits {dstSize : ElementSize} (h : dstSize.upgradeTo srcSize = some dstSize) :
    srcSize.CopiesTo dstSize := by
  by_cases hsame : srcSize = dstSize
  · exact Or.inl hsame
  · obtain ⟨copy, rfl, hfits⟩ := fitsIn_of_upgrade h hsame
    exact Or.inr ⟨copy, rfl, Or.inr hfits⟩

/-- Elements that have room are not larger. -/
lemma ElementSize.total_le_of_fits {dstSize : ElementSize} (h : dstSize.upgradeTo srcSize = some dstSize)
    (hsize : srcSize.asStruct = some size) (hcopySize : dstSize.asStruct = some copy) : size.Le copy := by
  by_cases hsame : srcSize = dstSize
  · rw [hsame, hcopySize] at hsize
    cases hsize
    exact .refl _
  · obtain ⟨copy', rfl, hfits⟩ := fitsIn_of_upgrade h hsame
    cases hcopySize
    cases srcSize with
    | inlineComposite =>
      cases hsize
      exact ⟨hfits.1, hfits.2⟩
    | pointer =>
      cases hsize
      exact ⟨Nat.zero_le _, hfits⟩
    | _ => cases hsize

/-- Lists of pointers and structs. -/
lemma ElementSize.CopiesTo.rows {dstSize : ElementSize} (h : srcSize.CopiesTo dstSize)
    (hsize : srcSize.asStruct = some size) (hcopySize : dstSize.asStruct = some copy) :
    srcSize = dstSize ∨ srcSize = .inlineComposite size ∧ dstSize = .inlineComposite copy ∨
      srcSize = .pointer ∧ dstSize = .inlineComposite copy ∧ 0 < copy.ptrs := by
  rcases h with heq | ⟨copy, rfl, hkind⟩
  · exact Or.inl heq
  · cases hcopySize
    cases srcSize with
    | inlineComposite size' =>
      cases hsize
      exact Or.inr (Or.inl ⟨rfl, rfl⟩)
    | pointer =>
      rcases hkind with ⟨_, hne⟩ | hfits
      · cases hne
      · exact Or.inr (Or.inr ⟨rfl, rfl, hfits⟩)
    | _ => cases hsize

/-- What a row of structs is copied to is one again. -/
lemma ElementSize.CopiesTo.asStruct {dstSize : ElementSize} (h : srcSize.CopiesTo dstSize)
    (hsize : srcSize.asStruct = some size) : ∃ copy, dstSize.asStruct = some copy := by
  rcases h with rfl | ⟨copy, rfl, -⟩
  · exact ⟨size, hsize⟩
  · exact ⟨copy, rfl⟩

end Rows

section Filled

variable {ε : Type} {machine : CopyMachine ε} {a : ReadArena} {id : SegmentId} {plan plan' : ℕ → Item}
  {old : ℕ → Word} {start : SegmentRef} {b c : ℕ} {s s' : CopyState}

lemma Filled.congr (h : Filled machine a id plan old start b c s s')
    (hplan : ∀ k, b ≤ k → k < c → plan' k = plan k) : Filled machine a id plan' old start b c s s' := by
  refine ⟨h.grows, h.reported, fun k hle hlt => ?_⟩
  rw [hplan k hle hlt]
  exact h.done k hle hlt

lemma Filled.congr_old {old' : ℕ → Word} (h : Filled machine a id plan old start b c s s')
    (hold : ∀ k, b ≤ k → k < c → old k = old' k) : Filled machine a id plan old' start b c s s' := by
  refine ⟨h.grows, h.reported, fun k hle hlt => ?_⟩
  rw [← hold k hle hlt]
  exact h.done k hle hlt

end Filled

/-! ## Copying the rows -/

section Copy

open CopyMachine

variable {ε : Type} {machine : CopyMachine ε} {a : ReadArena} {id : SegmentId} {block : Segment}
  {copyPtr : CopyPtr ε} {H : Halt → Prop} {words : ℕ} {plan : ℕ → Item} {old : ℕ → Word}
  {start : SegmentRef} {src : ℕ} {s : CopyState} {size copy : StructSize} {len : ElementCount}
  {srcSize dstSize : ElementSize}

/-- Of each struct one word is filled, and the others stay. -/
lemma filled_elements {n j : ℕ} {body : ℕ → CopyM ε Unit} (hj : j < copy.total)
    (hready : Ready words old start 0 (copy.total * n) s.arena) (hn : copy.total * n ≤ words)
    (hplan : ∀ i < n, ∀ k < copy.total, k ≠ j → plan (copy.total * i + k) =
      .word (old (copy.total * i + k)))
    (hbody : ∀ i < n, ∀ t : CopyState,
      Ready words old start (copy.total * i + j) (copy.total * i + j + 1) t.arena →
      (body i t).Ends H fun _ t' =>
        Filled machine a id plan old start (copy.total * i + j) (copy.total * i + j + 1) t t') :
    (Prog.forRange n body s).Ends H fun _ s' =>
      Filled machine a id plan old start 0 (copy.total * n) s s' := by
  refine filled_forRange (fun i => copy.total * i) (fun i => Nat.mul_le_mul_left _ (Nat.le_succ i)) hn
    hready ?_
  intro i hi t ht
  have hnext : copy.total * (i + 1) = copy.total * i + copy.total := Nat.mul_succ _ _
  have hle : copy.total * (i + 1) ≤ copy.total * n := Nat.mul_le_mul_left _ hi
  have hinside := ht.inside
  -- the words before the one that is filled, that one, and the words behind it
  have hbefore : Filled machine a id plan old start (copy.total * i) (copy.total * i + j) t t := by
    refine (ht.narrow (by omega)).kept (by omega) ?_
    intro k hle hlt
    obtain ⟨k, rfl⟩ := Nat.exists_eq_add_of_le hle
    exact hplan i hi k (by omega) (by omega)
  have hready₁ := ht.filled (by omega) hbefore (Nat.le_add_right _ _)
  refine (hbody i hi t (hready₁.narrow (by omega))).imp (fun _ h => h) fun _ t' hfilled => ?_
  have hboth := Filled.append hinside (by omega) (by omega) (by omega) hbefore hfilled
  refine Filled.append hinside (by omega) (by omega) (by omega) hboth
    ((ht.filled (by omega) hboth (by omega)).kept (by omega) ?_)
  intro k hle' hlt
  obtain ⟨k, rfl⟩ := Nat.exists_eq_add_of_le (show copy.total * i ≤ k by omega)
  exact hplan i hi k (by omega) (by omega)

/-- A list is copied over another one of the same size. -/
lemma copyList_rows (hblock : a id = some block) (hsize : srcSize.asStruct = some size)
    (hout : block.len.get < src + size.total * len.get → H .undefined)
    (hready : Ready (size.total * len.get) old start 0 (size.total * len.get) s.arena)
    (hcopy : ∀ i < len.get, ∀ j < size.ptrs,
      Copies machine a id copyPtr H (src + size.total * i + size.data + j)) :
    (copyList copyPtr src (.inSegment a id block) start ⟨start.segment⟩ srcSize len s).Ends H fun _ s' =>
      Filled machine a id (size.listPlan size block.data src old) old start 0 (size.total * len.get) s
        s' := by
  have hwords : (Shape.list srcSize len).words = size.total * len.get := Shape.words_asStruct hsize
  have hvoid : srcSize ≠ .void := by
    rintro rfl
    cases hsize
  rw [← hwords] at hout hready ⊢
  refine (copyList_filled hblock hout hready hvoid ?_).imp (fun _ h => h) fun _ s' hfilled =>
    hfilled.congr fun k _ hk => (Shape.plan_asStruct hsize hk).symm
  intro k hk hptr
  rw [Shape.isPtr_asStruct hsize, decide_eq_true_eq] at hptr
  rw [hwords] at hk
  have htotal := size.total_eq
  have hlt : k % size.total < size.total := Nat.mod_lt k (Nat.pos_of_mul_pos_right (Nat.zero_lt_of_lt hk))
  have hdiv := Nat.div_add_mod k size.total
  have hslot := hcopy (k / size.total) (Nat.div_lt_of_lt_mul hk) (k % size.total - size.data) (by omega)
  rwa [show src + size.total * (k / size.total) + size.data + (k % size.total - size.data) = src + k by
    omega] at hslot

/-- Pointers are copied into structs. -/
lemma copyToStructs_pointer (hblock : a id = some block) (hptrs : 0 < copy.ptrs)
    (hout : block.len.get < src + len.get → H .undefined)
    (hready : Ready (copy.total * len.get) old start 0 (copy.total * len.get) s.arena)
    (hcopy : ∀ i < len.get, Copies machine a id copyPtr H (src + i)) :
    (copyToStructs copyPtr src (.inSegment a id block) .pointer start ⟨start.segment⟩ copy len s).Ends H
      fun _ s' => Filled machine a id
        ((⟨0, 1, by decide, by decide⟩ : StructSize).listPlan copy block.data src old) old start 0
        (copy.total * len.get) s s' := by
  have hlt := hready.lt
  have hmax := U29.maxValue_eq
  have htotal := copy.total_eq
  rw [copyToStructs]
  by_cases hone : copy.data = 0 ∧ copy.ptrs = 1
  · -- the elements are just the pointers
    have hcopyTotal : copy.total = 1 := by omega
    obtain ⟨words, hnew, hwords⟩ : ∃ words : ObjectLen,
        U29.new (ElementSize.pointer.totalWords len.get) = some words ∧ words.get = copy.total * len.get := by
      have hlist : (Shape.list .pointer len).words = 1 * len.get :=
        @Shape.words_asStruct .pointer ⟨0, 1, by decide, by decide⟩ len rfl
      rw [hcopyTotal] at hlt ⊢
      rw [← hlist] at hlt ⊢
      exact totalWords_of_lt hlt
    rw [if_pos_apply ⟨rfl, hone⟩, hnew, unwrap_some, pure_bind_eq]
    have hzero : 0 + words.get = copy.total * len.get := by rw [hwords, Nat.zero_add]
    rw [← hzero]
    refine copyPtrSection_filled hblock (fun hlt => hout (by rwa [hwords, hcopyTotal, Nat.one_mul] at hlt))
      (hzero.symm ▸ hready) (Nat.le_of_eq hzero) ?_ ?_
    · intro i hi
      rw [StructSize.listPlan, hcopyTotal, Nat.zero_add, Nat.mod_one, Nat.div_one, StructSize.plan,
        if_neg (by omega), if_pos (show 0 - copy.data < 1 by omega)]
      congr 1
      show src + 1 * i + 0 + (0 - copy.data) = src + i
      omega
    · intro i hi
      rw [hwords, hcopyTotal, Nat.one_mul] at hi
      exact hcopy i hi
  · rw [if_neg_apply (fun h => hone h.2), if_neg_apply (by rintro ⟨⟨⟩, -⟩), stepByUnchecked,
      assert_of (show copy.total * len.get ≤ U29.maxValue by omega), pure_bind_eq]
    refine filled_elements (show copy.data < copy.total by omega) hready (Nat.le_refl _) ?_ ?_
    · intro i hi k hk hne
      rw [StructSize.listPlan_element hk, StructSize.plan]
      by_cases hdata : k < copy.data
      · rw [if_pos hdata, if_neg (Nat.not_lt_zero k)]
      · rw [if_neg hdata, if_neg (show ¬ k - copy.data < 1 by omega)]
    · intro i hi t ht
      have hnext := copy.mul_succ_le hi
      refine copySlot_filled hblock (fun hlt => hout (by omega)) ht (by omega) ?_ (hcopy i hi)
      rw [StructSize.listPlan_element (by omega), StructSize.plan, if_neg (Nat.lt_irrefl _),
        if_pos (show copy.data - copy.data < 1 by omega)]
      congr 1
      show src + 1 * i + 0 + (copy.data - copy.data) = src + i
      omega

/-- A list of pointers or structs is copied over one that it can be upgraded to, or over one of
smaller structs. -/
lemma copyToUpgradedList_rows (hblock : a id = some block) (hsize : srcSize.asStruct = some size)
    (hcopySize : dstSize.asStruct = some copy)
    (hcopies : srcSize.CopiesTo dstSize) (hcount : size.total * len.get ≤ U29.maxValue)
    (hout : block.len.get < src + size.total * len.get → H .undefined)
    (hready : Ready (copy.total * len.get) old start 0 (copy.total * len.get) s.arena)
    (hcopy : ∀ i < len.get, ∀ j < size.ptrs, j < copy.ptrs →
      Copies machine a id copyPtr H (src + size.total * i + size.data + j)) :
    (copyToUpgradedList copyPtr src (.inSegment a id block) srcSize start ⟨start.segment⟩ dstSize len
      s).Ends H fun _ s' => Filled machine a id (size.listPlan copy block.data src old) old start 0
        (copy.total * len.get) s s' := by
  rw [copyToUpgradedList.eq_def]
  by_cases hempty : srcSize.isEmpty = true
  · -- structs that have nothing are copied to nothing
    rw [if_pos_apply hempty]
    refine hready.kept (Nat.le_refl _) ?_
    intro k _ hk
    obtain rfl : size = StructSize.empty := by
      cases srcSize with
      | inlineComposite size' =>
        cases hsize
        exact eq_of_beq hempty
      | pointer => cases hempty
      | _ => cases hsize
    rw [StructSize.listPlan, StructSize.plan_empty, Nat.div_add_mod]
  rw [if_neg_apply hempty]
  by_cases hsame : srcSize = dstSize
  · subst hsame
    obtain rfl := Option.mem_unique hsize hcopySize
    rw [if_pos_apply rfl]
    exact copyList_rows hblock hsize hout hready fun i hi j hj => hcopy i hi j hj hj
  rw [if_neg_apply hsame]
  rcases hcopies.rows hsize hcopySize with heq | ⟨rfl, rfl⟩ | ⟨rfl, rfl, hptrs⟩
  · exact absurd heq hsame
  · have hlt := hready.lt
    have hmax := U29.maxValue_eq
    have hzero : 0 + copy.total * len.get = copy.total * len.get := Nat.zero_add _
    have hcopies := @copyInlineComposites_filled ε machine a id block copyPtr H (copy.total * len.get)
      (size.listPlan copy block.data src old) old start src 0 s hblock size copy len hout
      (hzero.symm ▸ hready) (Nat.le_of_eq hzero) hcount (by omega) (by
        intro i hi k hk
        rw [Nat.zero_add, StructSize.listPlan_element hk]) hcopy
    rw [hzero] at hcopies
    exact hcopies
  · cases hsize
    rw [show (⟨0, 1, by decide, by decide⟩ : StructSize).total = 1 from rfl, Nat.one_mul] at hout
    refine copyToStructs_pointer hblock hptrs hout hready fun i hi => ?_
    have hslot := hcopy i hi 0 Nat.one_pos hptrs
    rwa [show src + (⟨0, 1, by decide, by decide⟩ : StructSize).total * i +
      (⟨0, 1, by decide, by decide⟩ : StructSize).data + 0 = src + i by
        show src + 1 * i + 0 + 0 = src + i
        omega] at hslot

/-- A list of structs that is larger than a segment is not copied to. -/
lemma copyToUpgradedList_large {reader : ObjectReader} {builder : ObjectBuilder}
    (hsize : srcSize.asStruct = some size) (hcopySize : dstSize.asStruct = some copy)
    (hcopies : srcSize.CopiesTo dstSize) (hempty : ¬ srcSize.isEmpty = true) (hsame : srcSize ≠ dstSize)
    (hlarge : U29.maxValue < copy.total * len.get) :
    (copyToUpgradedList copyPtr src reader srcSize start builder dstSize len s).Ends (fun _ => True)
      fun _ _ => False := by
  have hnot : ¬ copy.total * len.get ≤ U29.maxValue := Nat.not_le.2 hlarge
  rw [copyToUpgradedList.eq_def, if_neg_apply hempty, if_neg_apply hsame]
  rcases hcopies.rows hsize hcopySize with heq | ⟨rfl, rfl⟩ | ⟨rfl, rfl, -⟩
  · exact absurd heq hsame
  · show (copyInlineComposites copyPtr src size reader start copy builder len s).Ends _ _
    rw [copyInlineComposites, stepByUnchecked, stepByUnchecked, Prog.assert, Prog.assert, if_neg hnot]
    split
    · rw [pure_bind_eq]
      trivial
    · trivial
  · show (copyToStructs copyPtr src reader .pointer start builder copy len s).Ends _ _
    have hlt := len.get_lt
    have hmax := U29.maxValue_eq
    rw [copyToStructs, if_neg_apply (by
      rintro ⟨-, hdata, hptrs⟩
      have htotal : copy.total = 1 := by rw [StructSize.total, hdata, hptrs]
      rw [htotal, Nat.one_mul] at hlarge
      omega), if_neg_apply (by rintro ⟨⟨⟩, -⟩), stepByUnchecked, Prog.assert, if_neg hnot]
    trivial

/-- Pointer `k` of struct `i` of a row that was null is a copy. -/
lemma Filled.copyOf {s' : CopyState} {n i k : ℕ}
    (h : Filled machine a id (size.listPlan copy block.data src fun _ => Word.null) (fun _ => Word.null)
      start 0 (copy.total * n) s s') (hi : i < n) (hk : k < size.ptrs) (hk' : k < copy.ptrs) :
    CopyOf machine a (s'.reported = s.reported) (Arena.fresh s.arena s'.arena) s'.arena.toRead id
      (src + (size.total * i + size.data + k)) start.segment (start.pos + (copy.total * i + copy.data + k)) := by
  have htotal := copy.total_eq
  have hnext := copy.mul_succ_le hi
  have hdone := (h.done (copy.total * i + (copy.data + k)) (Nat.zero_le _) (by omega)).holds
  rw [StructSize.listPlan_element (by omega), StructSize.plan, if_neg (by omega), Nat.add_sub_cancel_left,
    if_pos hk] at hdone
  rw [show src + (size.total * i + size.data + k) = src + size.total * i + size.data + k by omega,
    Nat.add_assoc (copy.total * i)]
  exact Replaces.copyOf hdone

/-! ### Ranges -/

/-- The start of a range that is inside of a segment. -/
lemma unwrap_offset {σ : Type} {total at_ : ℕ} (hlt : total * at_ < 2 ^ 29) :
    ∃ offset : U29, (Prog.unwrap (U29.new (total * at_ % 2 ^ 32)) : Prog ε σ U29) = pure offset ∧
      offset.get = total * at_ := by
  rw [Nat.mod_eq_of_lt (by omega), U29.new_of_lt hlt]
  exact ⟨_, rfl, rfl⟩

variable {srcStart dstStart : ElementCount} {wordCount : ℕ} {values : ℕ → Word}

/-- A range of a list of pointers or structs is copied over one of a list of the same kind. -/
lemma copyElementsAt_rows (hblock : a id = some block) (hsize : srcSize.asStruct = some size)
    (hcopySize : dstSize.asStruct = some copy)
    (hkind : srcSize = .pointer ∧ dstSize = .pointer ∨
      srcSize = .inlineComposite size ∧ dstSize = .inlineComposite copy)
    (hsrc : src + size.total * (srcStart.get + len.get) ≤ block.len.get)
    (hdst : copy.total * dstStart.get < 2 ^ 29)
    (hready : Ready (copy.total * len.get) old (start.offset (copy.total * dstStart.get)) 0
      (copy.total * len.get) s.arena)
    (hcopy : ∀ i < len.get, ∀ j < size.ptrs, j < copy.ptrs →
      Copies machine a id copyPtr H (src + size.total * srcStart.get + size.total * i + size.data + j)) :
    (copyElementsAt copyPtr src (.inSegment a id block) srcSize values wordCount srcStart start
      ⟨start.segment⟩ dstSize dstStart len s).Ends H fun _ s' =>
        Filled machine a id (size.listPlan copy block.data (src + size.total * srcStart.get) old) old
          (start.offset (copy.total * dstStart.get)) 0 (copy.total * len.get) s s' := by
  have hlt := block.len.get_lt
  have hmax := U29.maxValue_eq
  have hlt' := hready.lt
  rw [Nat.mul_add] at hsrc
  rcases hkind with ⟨rfl, rfl⟩ | ⟨rfl, rfl⟩
  · cases hsize
    cases hcopySize
    have hone : (⟨0, 1, by decide, by decide⟩ : StructSize).total = 1 := rfl
    rw [hone, Nat.one_mul, Nat.one_mul] at hready hsrc
    rw [hone, Nat.one_mul, Nat.one_mul, Nat.one_mul]
    have hsection := @copyPtrSection_filled ε machine a id block copyPtr H len.get
      (StructSize.listPlan ⟨0, 1, by decide, by decide⟩ ⟨0, 1, by decide, by decide⟩ block.data
        (src + srcStart.get) old) old (start.offset dstStart.get) (src + srcStart.get) 0 len.get s hblock
      (fun hlt => absurd hsrc (by omega)) ((Nat.zero_add len.get).symm ▸ hready)
      (Nat.le_of_eq (Nat.zero_add _)) (by
        intro i _
        rw [StructSize.listPlan, hone, Nat.zero_add, Nat.mod_one, Nat.div_one, Nat.one_mul]
        rfl) (by
        intro i hi
        have hslot := hcopy i hi 0 Nat.one_pos Nat.one_pos
        rwa [hone, Nat.one_mul, Nat.one_mul] at hslot)
    rw [Nat.zero_add] at hsection
    exact hsection
  · have hsrcStart : size.total * srcStart.get < 2 ^ 29 := by omega
    obtain ⟨srcOffset, hnew, hsrcOffset⟩ := @unwrap_offset ε CopyState _ _ hsrcStart
    obtain ⟨dstOffset, hnew', hdstOffset⟩ := @unwrap_offset ε CopyState _ _ hdst
    have hzero : 0 + copy.total * len.get = copy.total * len.get := Nat.zero_add _
    rw [copyElementsAt, hnew, pure_bind_eq, hnew', pure_bind_eq, hsrcOffset, hdstOffset]
    have hcopies := @copyInlineComposites_filled ε machine a id block copyPtr H (copy.total * len.get)
      (size.listPlan copy block.data (src + size.total * srcStart.get) old) old
      (start.offset (copy.total * dstStart.get)) (src + size.total * srcStart.get) 0 s hblock size copy len
      (fun hlt => absurd hsrc (by omega)) (hzero.symm ▸ hready) (Nat.le_of_eq hzero) (by omega) (by omega)
      (by
        intro i hi k hk
        rw [Nat.zero_add, StructSize.listPlan_element hk]) hcopy
    rw [hzero] at hcopies
    exact hcopies

/-! ### Pointers that are not tested for null -/

/-- A null pointer is copied as a pointer to an empty struct. -/
lemma copyPtr_null {n b : ℕ} (hblock : a id = some block) (hnull : block.data src = Word.null)
    (hsrc : src < block.len.get) (hready : Ready words old start b (b + 1) s.arena) (hn : b + 1 ≤ words)
    (hplan : plan b = .word StructPtr.empty) (hH : H .depth) :
    (machine.copyPtr n src (.inSegment a id block) (start.offset b) ⟨start.segment⟩ s).Ends H
      fun _ s' => Filled machine a id plan old start b (b + 1) s s' := by
  rcases n with _ | n
  · exact hH
  have hwf := hready.wf
  have hinside := hready.inside
  have hslot : (start.offset b).pos < s.arena.used (start.offset b).segment := by
    show start.pos + b < s.arena.used start.segment
    omega
  have hread := (tryReadTyped_eq_ok hblock).2 ⟨id, block, 0, hblock, rfl,
    denotes_of_null hblock hnull hsrc, Limiter.charge_zero s.limiter⟩
  have hreading : (reading (ObjectReader.tryReadTyped (.inSegment a id block) src) : CopyM ε _) s =
      .ok (.ok (.inSegment a id block, (Shape.struct StructSize.empty).content (src + 1))) s := by
    rw [reading, Prog.zoom, Prog.attempt, hread]
  have hsize : (if machine.canonical then
      calculateCanonicalStructSize (.inSegment a id block) (src + 1) StructSize.empty
      else pure StructSize.empty : CopyM ε StructSize) = pure StructSize.empty := by
    rcases machine.canonical with _ | _
    · rfl
    · exact calculateCanonicalStructSize_eq hsrc
  have halloc := @ObjectBuilder.allocStruct_empty s.arena ⟨start.segment⟩ (start.offset b) hwf hslot
  obtain ⟨s₁, hbuild, harena, hreported⟩ := @building_of_ok ε _ _ _ _ _ halloc
  have hgrows := Arena.grows_set hwf hslot StructPtr.empty
  rw [← harena] at hgrows
  have hslot₁ := hgrows.lt_used hslot
  rw [copyPtr, bind_of_ok hreading]
  show (machine.copyStructContent (machine.copyPtr n) (.inSegment a id block) ⟨src + 1, StructSize.empty⟩
    (start.offset b) ⟨start.segment⟩ s).Ends H _
  rw [copyStructContent]
  dsimp only
  rw [hsize, pure_bind_eq, bind_of_ok hbuild]
  -- there is nothing in the struct that is copied
  have hnone : Ready 0 old (start.offset b) 0 0 s₁.arena :=
    ⟨hgrows.wf, Nat.le_of_lt hslot₁, fun k _ hk => absurd hk (Nat.not_lt_zero k)⟩
  have hempty := @copyStruct_filled ε machine a id block (machine.copyPtr n) H 0 plan old (start.offset b)
    (src + 1) 0 s₁ hblock StructSize.empty StructSize.empty (fun hlt => absurd hsrc (Nat.not_le.2 hlt)) hnone
    (Nat.le_refl _) (fun k hk => absurd hk (Nat.not_lt_zero k)) (fun j hj => absurd hj (Nat.not_lt_zero j))
  refine hempty.imp (fun _ h => h) fun _ s₂ hfilled => ?_
  have hgrows₂ : Arena.Grows ∅ s₁.arena s₂.arena := hfilled.grows.mono (by
    rintro r ⟨k, -, hk, -⟩
    exact absurd hk (Nat.not_lt_zero k))
  refine ⟨(hgrows.trans hgrows₂ fun r _ h => h.elim).mono ?_, hreported ▸ hfilled.reported, ?_⟩
  · rintro r rfl
    exact ⟨b, Nat.le_refl _, Nat.lt_succ_self _, rfl⟩
  · intro k hle hlt
    obtain rfl : k = b := by omega
    have hword : s₂.arena.word (start.offset k) = StructPtr.empty := by
      rw [hgrows₂.word_eq hslot₁ (Set.notMem_empty _), harena, Arena.word_set hslot, if_pos rfl]
    rw [hplan, ← hword]
    exact rests_holds (hgrows₂.lt_used hslot₁) (Set.mem_insert _ _)

/-- A range of pointers is copied into structs. -/
lemma copyToStructsAt_pointer {n : ℕ} (hblock : a id = some block) (hptrs : 0 < copy.ptrs)
    (hsrc : src + (srcStart.get + len.get) ≤ block.len.get) (hdst : copy.total * dstStart.get < 2 ^ 29)
    (hready : Ready (copy.total * len.get) old (start.offset (copy.total * dstStart.get)) 0
      (copy.total * len.get) s.arena)
    (hH : H .depth)
    (hcopy : ∀ i < len.get, Copies machine a id (machine.copyPtr n) H (src + srcStart.get + i)) :
    (copyToStructsAt (machine.copyPtr n) src (.inSegment a id block) .pointer values srcStart start
      ⟨start.segment⟩ copy dstStart len s).Ends H fun _ s' =>
        Filled machine a id (copy.presentPlan block.data (src + srcStart.get) old) old
          (start.offset (copy.total * dstStart.get)) 0 (copy.total * len.get) s s' := by
  have hmax := U29.maxValue_eq
  have hlt := hready.lt
  have htotal := copy.total_eq
  obtain ⟨dstOffset, hnew, hdstOffset⟩ := @unwrap_offset ε CopyState _ _ hdst
  rw [copyToStructsAt, hnew, pure_bind_eq, hdstOffset]
  dsimp only
  rw [stepByUnchecked, assert_of (show copy.total * len.get ≤ U29.maxValue by omega),
    pure_bind_eq]
  refine filled_elements (show copy.data < copy.total by omega) hready (Nat.le_refl _) ?_ ?_
  · intro i hi k hk hne
    rw [StructSize.presentPlan, (StructSize.div_mod_element hk).2, if_neg hne]
  · intro i hi t ht
    have hnext := copy.mul_succ_le hi
    have hinside := ht.inside
    have hplan : copy.presentPlan block.data (src + srcStart.get) old (copy.total * i + copy.data) =
        if block.data (src + srcStart.get + i) = Word.null then .word StructPtr.empty
        else .ptr (src + srcStart.get + i) := StructSize.presentPlan_ptr hptrs
    by_cases hnull : block.data (src + srcStart.get + i) = Word.null
    · rw [if_pos hnull] at hplan
      exact copyPtr_null hblock hnull (by omega) ht (by omega) hplan hH
    · rw [if_neg hnull] at hplan
      have hslot : ((start.offset (copy.total * dstStart.get)).offset (copy.total * i + copy.data)).pos <
          t.arena.used start.segment := by
        replace hinside : start.pos + copy.total * dstStart.get + copy.total * len.get ≤
          t.arena.used start.segment := hinside
        show start.pos + copy.total * dstStart.get + (copy.total * i + copy.data) < _
        omega
      exact (hcopy i hi block hblock hnull _ t ht.wf hslot).imp (fun _ h => h)
        fun _ _ hcopied => hcopied.filled ht hplan

end Copy

end Recapn.Ptr

/-
# What a deep copy reads as

A copy to a null pointer reads as what was copied, whatever is done to other words later.
-/
import Recapn.Ptr.AnyList

namespace Recapn.Ptr

open Recapn.Lib Recapn.Lib.Prog

variable {ε : Type} {machine : CopyMachine ε} {clearCap : List ℕ → ℕ → Except Error Unit}
  {clearDepth depth : ℕ} {a : ReadArena} {s s' : CopyState} {target : PtrBuilder} {other : PtrReader}
  {v : Value}

/-- A copy that ends, and reports nothing, rests on the pointer and on words that were fresh.  The
pointer leads to these only, and it reads as the source, with capabilities that the tables gave;
all other words stay what they were. -/
theorem PtrBuilder.Blank.copy_reads (htarget : target.Blank s.arena) (hother : other.ReadsAs a v)
    (hsome : v ≠ .null) (hroomy : v.Roomy) (hcanonical : machine.canonical = false)
    (hrun : target.tryCopyFrom clearCap machine clearDepth depth other s = .ok () s')
    (hquiet : s'.reported = s.reported) :
    Arena.Grows {target.ptr} s.arena s'.arena ∧
      Rests (insert target.ptr (Arena.fresh s.arena s'.arena)) (fun a' : ReadArena =>
        (∀ r, Reaches a' target.ptr.segment target.ptr.pos r → r ∈ Arena.fresh s.arena s'.arena) ∧
        ∃ w, Reads a' target.ptr.segment target.ptr.pos w ∧ v.Matches machine w ∧
          (v.caps = 0 → w = v)) s'.arena.toRead := by
  obtain ⟨-, id, block, hblock, hreader, -, hreads⟩ := hother
  have hpresent : block.data other.ptr ≠ Word.null := by
    intro hnull
    exact hsome (hreads.unique (.null hblock hnull))
  rw [PtrBuilder.tryCopyFrom, bind_of_ok htarget.clear, hreader, htarget.builder] at hrun
  obtain ⟨hgrows, -, hreplaces⟩ := (@copies_any _ _ depth _ id other.ptr block hblock hpresent
    target.ptr s htarget.wf htarget.live).of_ok hrun
  refine ⟨hgrows, hreplaces.imp fun a' hcopied => ?_⟩
  rw [htarget.null] at hcopied
  have hcopy : CopyOf machine a True _ a' id other.ptr target.ptr.segment target.ptr.pos :=
    hcopied.copyOf.mono (fun _ => hquiet) (Set.Subset.refl _)
  obtain ⟨w, hw, hmatches⟩ := CopyOf.reads hreads hcanonical hroomy hcopy
  exact ⟨fun r => hcopy.reaches, w, hw, hmatches, hmatches.eq_of_caps⟩

/-- A struct of a data word is copied to a null root. -/
theorem PtrBuilder.Blank.copy_reads_short : ∃ s' v,
    PtrBuilder.root.tryCopyFrom (fun _ _ => .ok ()) lenientMachine 1 1 (paddedReader 0)
      ⟨none, blankRootArena, [], []⟩ = .ok () s' ∧ (paddedReader 0).ReadsAs paddedArena v ∧
      Reads s'.arena.toRead 0 0 v := by
  have hroomy : ¬ (Shape.struct ⟨1, 0, by decide, by decide⟩).Full := id
  obtain ⟨-, hrests⟩ := @PtrBuilder.Blank.copy_reads Empty lenientMachine (fun _ _ => .ok ()) 1 1 _
    ⟨none, blankRootArena, [], []⟩ _ _ _ _ fits_blankRootCopy.1 readsAs_short Value.noConfusion
    ⟨hroomy, fun _ => trivial⟩ rfl rfl rfl
  obtain ⟨-, w, hreads, -, heq⟩ := hrests.holds
  rw [heq rfl] at hreads
  exact ⟨_, _, rfl, readsAs_short, hreads⟩

/-! ## Comparing what reads the same -/

lemma sameElements_self (size : ElementSize) (count : ℕ) (words : ℕ → Word) :
    size.sameElements count words words = true := by
  cases size <;> simp [ElementSize.sameElements, Equality.cmpBits, Equality.sameBytes]

/-- A value does not differ from itself. -/
lemma Value.Differ.ne {v w : Value} (h : v.Differ w) : v ≠ w := by
  have hparts : ∀ {v : Value} {x y : StructValue}, Parts v v x y → x = y := by
    rintro v x y (⟨hv, hw⟩ | ⟨hv, hw, -⟩) <;> cases hv.symm.trans hw <;> rfl
  induction h with
  | @kind v w h =>
    rintro rfl
    rcases hshape : v.shape with _ | (_ | _) <;> rw [hshape] at h <;> exact h (by simp [SameKind])
  | elements _ _ h =>
    rintro rfl
    rw [sameElements_self] at h
    cases h
  | item _ _ _ _ ih =>
    rintro rfl
    exact ih rfl
  | data hxy h =>
    rintro rfl
    exact h (hparts hxy ▸ ⟨rfl, fun _ _ => rfl⟩)
  | field hxy _ _ _ ih =>
    rintro rfl
    exact ih (by rw [hparts hxy])

lemma sameElements_comm (size : ElementSize) (count : ℕ) (ours theirs : ℕ → Word) :
    size.sameElements count ours theirs = size.sameElements count theirs ours := by
  have hbytes : ∀ len, Equality.sameBytes ours theirs len = Equality.sameBytes theirs ours len := by
    intro len
    simp only [Equality.sameBytes, BEq.comm]
  cases size <;> simp [ElementSize.sameElements, Equality.cmpBits, hbytes, BEq.comm]

lemma Value.Differ.symm {v w : Value} (h : v.Differ w) : w.Differ v := by
  have hparts : ∀ {v w : Value} {x y : StructValue}, Parts v w x y → Parts w v y x := by
    rintro v w x y (⟨hv, hw⟩ | ⟨hv, hw, hi⟩)
    · exact .object hw hv
    · exact .element hw hv hi
  have hkind : ∀ {s t : Option Shape}, SameKind s t → SameKind t s := by
    rintro (_ | (_ | _)) (_ | (_ | _)) <;> simp +contextual [SameKind]
  induction h with
  | kind h => exact .kind fun hsame => h (hkind hsame)
  | elements hv hw h => exact .elements hw hv (sameElements_comm .. ▸ h)
  | item hv hw hi _ ih => exact .item hw hv hi ih
  | data hxy h => exact .data (hparts hxy) fun hyx => h ⟨hyx.1.symm, fun k hk => (hyx.2 k (hyx.1 ▸ hk)).symm⟩
  | field hxy hx hy _ ih => exact .field (hparts hxy) hy hx ih

/-- What `equality` finds of two pointers that can be read. -/
lemma PtrReader.ReadsAs.settles {p q : PtrReader} {b : ReadArena} {w : Value} (hp : p.ReadsAs a v)
    (hq : q.ReadsAs b w) :
    ∃ verdict, Settles (none, none) verdict (p.equality q) ∧ (verdict = .notEqual ↔ v.Differ w) := by
  obtain ⟨-, id, block, hblock, hreader, hlt, hreads⟩ := hp
  obtain ⟨-, id', block', hblock', hreader', hlt', hreads'⟩ := hq
  obtain ⟨verdict, hsettles, hdiffer⟩ := comparesValue a b v hblock hlt hreads hblock' hlt' hreads'
  refine ⟨verdict, ?_, hdiffer⟩
  unfold PtrReader.equality
  rw [hreader, hreader']
  exact hsettles

/-- **A pointer is never found not equal to one that reads the same**, as a copy does. -/
theorem PtrReader.ReadsAs.equality_same {p q : PtrReader} {b : ReadArena} (hp : p.ReadsAs a v)
    (hq : q.ReadsAs b v) : ∃ verdict, verdict ≠ .notEqual ∧ Settles (none, none) verdict (p.equality q) := by
  obtain ⟨verdict, hsettles, hdiffer⟩ := hp.settles hq
  exact ⟨verdict, fun h => (hdiffer.1 h).ne rfl, hsettles⟩

theorem PtrReader.ReadsAs.equality_same_short : ∃ verdict, verdict ≠ .notEqual ∧
    Settles (none, none) verdict ((paddedReader 0).equality (paddedReader 0)) :=
  PtrReader.ReadsAs.equality_same readsAs_short readsAs_short

/-- **Two pointers are not equal whichever is asked**. -/
theorem PtrReader.ReadsAs.equality_comm {p q : PtrReader} {b : ReadArena} {w : Value}
    (hp : p.ReadsAs a v) (hq : q.ReadsAs b w) :
    ∃ verdict verdict', Settles (none, none) verdict (p.equality q) ∧
      Settles (none, none) verdict' (q.equality p) ∧
      (verdict = .notEqual ↔ verdict' = .notEqual) := by
  obtain ⟨verdict, hsettles, hdiffer⟩ := hp.settles hq
  obtain ⟨verdict', hsettles', hdiffer'⟩ := hq.settles hp
  refine ⟨verdict, verdict', hsettles, hsettles', ?_⟩
  rw [hdiffer, hdiffer']
  exact ⟨Value.Differ.symm, Value.Differ.symm⟩

/-- The two structs of different sizes. -/
theorem PtrReader.ReadsAs.equality_comm_short : ∃ verdict verdict',
    Settles (none, none) verdict ((paddedReader 0).equality (paddedReader 1)) ∧
      Settles (none, none) verdict' ((paddedReader 1).equality (paddedReader 0)) ∧
      (verdict = .notEqual ↔ verdict' = .notEqual) :=
  PtrReader.ReadsAs.equality_comm readsAs_short readsAs_long

end Recapn.Ptr

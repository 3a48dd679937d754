/-
# How names are made unique

Making an identifier leaves everything else as it is.  The identifier that is made was not taken before in
its scope, it is the first one that is tried unless that is taken, and only its scope has it more.  A file
is validated when its module has one, and what is below it is.
-/
import Recapn.Codegen.Validation

namespace Recapn.Codegen

open Recapn.Lib Recapn.Lib.Prog

variable {names : Spelling} {v v' : Validation} {taken : List Ident} {path : Name} {i m : Ident}

/-- Making an identifier leaves the state alone. -/
lemma makeIdent_eq_ok {σ τ : Type} {name : Name} {ident : Ident} {s s' : σ}
    (h : makeIdent names name s = .ok ident s') : s' = s ∧ ∀ t : τ, makeIdent names name t = .ok ident t := by
  obtain ⟨str, s₁, hstr, h⟩ := bind_eq_ok.1 h
  have hlift : makeIdentStr names name = .ok str := eq_ok_of_liftError hstr
  rw [hlift] at hstr
  obtain ⟨-, rfl⟩ := pure_eq_ok.1 hstr
  simp only [makeIdent, hlift, liftError, pure_bind_eq]
  rcases ite_eq_ok.1 h with ⟨hparses, h⟩ | ⟨hparses, h⟩
  · obtain ⟨rfl, rfl⟩ := pure_eq_ok.1 h
    rw [if_pos hparses]
    exact ⟨rfl, fun t => rfl⟩
  · rw [if_neg hparses]
    rcases ite_eq_ok.1 h with ⟨hraw, h⟩ | ⟨hraw, h⟩
    · obtain ⟨rfl, rfl⟩ := pure_eq_ok.1 h
      rw [if_pos hraw]
      exact ⟨rfl, fun t => rfl⟩
    · exact (throw_eq_ok.1 h).elim

lemma untaken_eq_ok {σ τ : Type} {taken : List Ident} {rounds : ℕ} {name : Name} {ident : Ident} {s s' : σ}
    (h : untaken names taken rounds name s = .ok ident s') :
    s' = s ∧ ∀ t : τ, untaken names taken rounds name t = .ok ident t := by
  induction rounds generalizing name s with
  | zero => cases h
  | succ rounds ih =>
    obtain ⟨first, s₁, hfirst, hloop⟩ := bind_eq_ok.1 h
    obtain ⟨rfl, hsame⟩ := makeIdent_eq_ok (τ := τ) hfirst
    rcases ite_eq_ok.1 hloop with ⟨htaken, hnext⟩ | ⟨htaken, hdone⟩
    · obtain ⟨rfl, hrest⟩ := ih hnext
      refine ⟨rfl, fun t => (bind_of_ok (hsame t)).trans ?_⟩
      rw [if_pos htaken]
      exact hrest t
    · obtain ⟨rfl, rfl⟩ := pure_eq_ok.1 hdone
      refine ⟨rfl, fun t => (bind_of_ok (hsame t)).trans ?_⟩
      rw [if_neg htaken]
      rfl

/-- The first identifier that is tried is taken unless it is taken already. -/
lemma makeUntaken_of_not_mem (h : makeIdent names path () = .ok i ()) (hi : i ∉ taken) :
    makeUntaken names taken path () = .ok i () := by
  refine (bind_of_ok h).trans ?_
  rw [if_neg hi]
  rfl

lemma makeUntaken_first (h : makeUntaken names taken path () = .ok m ()) :
    ∃ i, makeIdent names path () = .ok i () ∧ (i ∉ taken → m = i) := by
  obtain ⟨i, ⟨⟩, hi, hrest⟩ := bind_eq_ok.1 h
  refine ⟨i, hi, fun hnot => ?_⟩
  rw [if_neg hnot] at hrest
  exact (pure_eq_ok.1 hrest).1.symm

/-- The identifier is made from the name and some underscores. -/
lemma untaken_made {rounds : ℕ} (h : untaken names taken rounds path () = .ok m ()) :
    ∃ k, makeIdent names (path ++ List.replicate k '_') () = .ok m () := by
  induction rounds generalizing path with
  | zero => cases h
  | succ rounds ih =>
    obtain ⟨i, ⟨⟩, hi, hrest⟩ := bind_eq_ok.1 h
    rcases ite_eq_ok.1 hrest with ⟨-, hrest⟩ | ⟨-, hrest⟩
    · obtain ⟨k, hk⟩ := ih hrest
      refine ⟨k + 1, ?_⟩
      rw [List.append_assoc] at hk
      exact hk
    · obtain ⟨rfl, -⟩ := pure_eq_ok.1 hrest
      refine ⟨0, ?_⟩
      rw [List.replicate_zero, List.append_nil]
      exact hi

lemma untaken_not_mem {rounds : ℕ} (h : untaken names taken rounds path () = .ok m ()) : m ∉ taken := by
  induction rounds generalizing path with
  | zero => cases h
  | succ rounds ih =>
    obtain ⟨i, ⟨⟩, -, hrest⟩ := bind_eq_ok.1 h
    rcases ite_eq_ok.1 hrest with ⟨-, hrest⟩ | ⟨hnot, hrest⟩
    · exact ih hrest
    · obtain ⟨rfl, -⟩ := pure_eq_ok.1 hrest
      exact hnot

/-- The identifiers of a scope are those that one more is added to, or they stay. -/
lemma takenIn_cons (idents : ScopedIdentifierSet) (scope other : Option TypeScope) (ident : Ident) :
    ScopedIdentifierSet.takenIn ((scope.map TypeScope.ids, ident) :: idents) other =
      if scope.map TypeScope.ids = other.map TypeScope.ids then ident :: idents.takenIn other
      else idents.takenIn other := by
  by_cases h : scope.map TypeScope.ids = other.map TypeScope.ids
  · rw [if_pos h]
    simp [ScopedIdentifierSet.takenIn, h]
  · rw [if_neg h]
    simp [ScopedIdentifierSet.takenIn, h]

lemma vacantEntry_of_not_mem {id : Id} (h : id ∉ v.ids) : vacantEntry id v = .ok () v := by
  simp [vacantEntry, bind_apply, h]

/-- `make_unique` in a scope is that of the identifiers that are taken there. -/
lemma makeUniqueIn_eq_ok {scope : Option TypeScope} {name : Name} {ident : Ident} :
    makeUniqueIn names scope name v = .ok ident v' ↔
      makeUntaken names (v.identifiers.takenIn scope) name () = .ok ident () ∧
        v' = { v with identifiers := (scope.map TypeScope.ids, ident) :: v.identifiers } := by
  constructor
  · intro h
    have h := of_bind rfl h
    obtain ⟨⟨made, idents⟩, v₂, hmade, h⟩ := bind_eq_ok.1 h
    obtain ⟨ident', v₃, huntaken, hmade⟩ := bind_eq_ok.1 hmade
    obtain ⟨rfl, hsame⟩ := untaken_eq_ok (τ := Unit) huntaken
    cases hmade
    cases h
    exact ⟨hsame (), rfl⟩
  · rintro ⟨h, rfl⟩
    obtain ⟨-, hsame⟩ := untaken_eq_ok (τ := Validation) h
    have hmade := bind_of_ok (hsame v) (f := fun ident =>
      (pure (ident, (scope.map TypeScope.ids, ident) :: v.identifiers) :
        Prog Stop Validation (Ident × ScopedIdentifierSet)))
    exact (bind_of_ok (show Prog.get v = .ok v v from rfl)).trans (bind_of_ok hmade)

/-! ## Files -/

/-- The loop over the nested items of a file. -/
def validateBelow (names : Spelling) (loader : SchemaLoader) (depth : ℕ) (schema : Node) (modIdent : Ident) :
    Prog Stop Validation Unit :=
  fold (fun _ nested =>
      match nested with
      | .error (.schema (.missingNode _)) => pure ()
      | nested => do
        let nested ← liftError nested
        validateItem names loader depth nested (.ofFile ⟨schema.id, modIdent⟩))
    () (loader.nestedItems schema)

variable {loader : SchemaLoader} {depth : ℕ} {file : Node} {w w' : Validation}

/-- What the nested items of a file find. -/
def Validation.below (v : Validation) (file : Node) (m : Ident) (path : Name) : Validation :=
  ⟨v.nodes ++ [(file.id, .file ⟨m, path ++ rsExtension⟩)], (none, m) :: v.identifiers⟩

lemma validateFile_eq_ok : validateFile names loader depth file w = .ok () w' ↔
    file.id ∉ w.ids ∧ ∃ path m, file.displayName.asStr = some path ∧
      makeUntaken names (w.identifiers.takenIn none) path () = .ok m () ∧
      validateBelow names loader depth file m (w.below file m path) = .ok () w' := by
  constructor
  · intro h
    obtain ⟨_, w₁, hvacant, -⟩ := bind_eq_ok.1 h
    obtain ⟨-, hnot⟩ := vacantEntry_eq_ok hvacant
    replace h := of_vacantEntry_bind h
    obtain ⟨path, w₂, hpath, hrest⟩ := bind_eq_ok.1 h
    obtain ⟨m, w₃, hm, hrest⟩ := bind_eq_ok.1 hrest
    obtain ⟨_, w₄, hinsert, hrest⟩ := bind_eq_ok.1 hrest
    have hstr : file.displayName.asStr = some path ∧ w₂ = w := by
      cases hname : file.displayName.asStr with
      | none =>
        rw [nameOf, hname] at hpath
        exact (throw_eq_ok.1 hpath).elim
      | some name =>
        rw [nameOf, hname] at hpath
        obtain ⟨rfl, rfl⟩ := pure_eq_ok.1 hpath
        exact ⟨rfl, rfl⟩
    obtain ⟨hstr, rfl⟩ := hstr
    obtain ⟨hident, rfl⟩ := makeUniqueIn_eq_ok.1 hm
    cases hinsert
    exact ⟨hnot, path, m, hstr, hident, hrest⟩
  · rintro ⟨hnot, path, m, hpath, hm, h⟩
    refine bind_eq_ok.2 ⟨(), w, vacantEntry_of_not_mem hnot, ?_⟩
    refine bind_eq_ok.2 ⟨path, w, ?_, ?_⟩
    · rw [nameOf, hpath]
      rfl
    · refine bind_eq_ok.2 ⟨m, _, makeUniqueIn_eq_ok.2 ⟨hm, rfl⟩, ?_⟩
      exact bind_eq_ok.2 ⟨(), _, rfl, h⟩

end Recapn.Codegen

/-
# Identifiers of generated code

Names of a schema become identifiers, and an identifier that is taken already is told apart by
underscores at the end of its name.  What other crates do with the letters of a name is a
parameter.
-/
import Mathlib.Algebra.Order.BigOperators.Group.List
import Mathlib.Algebra.Order.Group.Nat
import Recapn.Codegen.Schema
import Recapn.Lib.Depth

namespace Recapn.Codegen

open Recapn.Lib Recapn.Lib.Prog

/-- An identifier, with its `r#` if it has one. -/
abbrev Ident := List Char

/-- What the generator takes from `unicode_ident`, `syn` and `heck`. -/
structure Spelling where
  isXidStart : Char → Bool
  isXidContinue : Char → Bool
  /-- Whether `syn::parse_str::<syn::Ident>` accepts the string. -/
  parses : List Char → Bool
  asPascalCase : Name → Name
  asSnakeCase : Name → Name
  asShoutySnakeCase : Name → Name

/-- Where the generator panics. -/
inductive Panic where
  | invalidIdentifier
  | expectedFile
  | expectedStruct
  | expectedEnum
  | expectedConst
  | discriminantCount
  | enumerantIndex
  | defaultValue
deriving DecidableEq

/-- Why the generator stops: an error that it returns, or a panic, which no part of it catches. -/
inductive Stop where
  | error (e : Error)
  | panic (p : Panic)
deriving DecidableEq

variable {σ : Type}

/-- The question mark behind a result. -/
def liftError {α : Type} : Except Error α → Prog Stop σ α
  | .ok a => pure a
  | .error e => throw (.error e)

/-- Convert a string into a valid identifier string by replacing invalid characters. -/
def makeIdentStr (names : Spelling) : Name → Except Error (List Char)
  | [] => .error (.generator .emptyName)
  | first :: chars =>
    let first := if names.isXidStart first then first else '_'
    .ok (first :: chars.map fun c => if names.isXidContinue c then c else '_')

def makeIdent (names : Spelling) (s : Name) : Prog Stop σ Ident := do
  let identStr ← liftError (makeIdentStr names s)
  if names.parses identStr then pure identStr
  else if names.parses ('r' :: '#' :: identStr) then pure ('r' :: '#' :: identStr)
  else throw (.panic .invalidIdentifier)

/-- The loop of `make_unique`, for so many rounds at most: underscores until the identifier is
none of those that are taken. -/
def untaken (names : Spelling) (taken : List Ident) : ℕ → Name → Prog Stop σ Ident
  | 0, _ => halt .depth
  | rounds + 1, name => do
    let ident ← makeIdent names name
    if ident ∈ taken then untaken names taken rounds (name ++ ['_'])
    else pure ident

/-- As many letters as any of the identifiers has. -/
def lettersBound (taken : List Ident) : ℕ := (taken.map List.length).sum

/-- An identifier for the name that is none of those that are taken.  Every round makes the name
longer, so one is found before the rounds are used up. -/
def makeUntaken (names : Spelling) (taken : List Ident) (name : Name) : Prog Stop σ Ident :=
  untaken names taken (lettersBound taken + 2) name

/-! ## The sets of identifiers -/

abbrev IdentifierSet := List Ident

/-- `IdentifierSet::make_unique`. -/
def IdentifierSet.makeUnique (names : Spelling) (idents : IdentifierSet) (name : Name) :
    Prog Stop σ (Ident × IdentifierSet) := do
  let ident ← makeUntaken names idents name
  pure (ident, ident :: idents)

/-- The scope of a module. -/
structure ModScope where
  id : Id
  modIdent : Ident
deriving DecidableEq

/-- The scope that types are in: a file and the structs around them, the innermost last. -/
structure TypeScope where
  file : ModScope
  types : List ModScope
deriving DecidableEq

namespace TypeScope

/-- The scope of the file itself. -/
def ofFile (file : ModScope) : TypeScope := ⟨file, []⟩

def push (scope : TypeScope) (next : ModScope) : TypeScope :=
  { scope with types := scope.types ++ [next] }

/-- Module scopes are compared by their ids, and so are scopes. -/
def ids (scope : TypeScope) : Id × List Id := (scope.file.id, scope.types.map ModScope.id)

end TypeScope

/-- Identifiers with the scopes they are taken in. -/
abbrev ScopedIdentifierSet := List (Option (Id × List Id) × Ident)

namespace ScopedIdentifierSet

/-- The identifiers that are taken in a scope. -/
def takenIn (idents : ScopedIdentifierSet) (scope : Option TypeScope) : List Ident :=
  (idents.filter fun entry => entry.1 = scope.map TypeScope.ids).map Prod.snd

/-- `ScopedIdentifierSet::make_unique`. -/
def makeUnique (names : Spelling) (idents : ScopedIdentifierSet) (scope : Option TypeScope)
    (name : Name) : Prog Stop σ (Ident × ScopedIdentifierSet) := do
  let ident ← makeUntaken names (idents.takenIn scope) name
  pure (ident, (scope.map TypeScope.ids, ident) :: idents)

end ScopedIdentifierSet

/-! ## Names are made unique in finitely many rounds -/

variable {names : Spelling} {taken : List Ident} {t : Terms Stop σ}

/-- Whether the generator stopped because a table did not hold what it was asked for. -/
def Stop.IsUnwrap : Stop → Prop
  | .panic .expectedFile => True
  | .panic .expectedStruct => True
  | .panic .expectedEnum => True
  | .panic .expectedConst => True
  | _ => False

lemma length_makeIdentStr {s : Name} {str : List Char} (h : makeIdentStr names s = .ok str) :
    str.length = s.length := by
  rcases s with _ | ⟨first, chars⟩
  · cases h
  · cases h
    simp

/-- An identifier has at least the letters of its name. -/
lemma length_le_of_makeIdent {s : Name} {ident : Ident} {st st' : σ}
    (h : makeIdent names s st = .ok ident st') : s.length ≤ ident.length := by
  obtain ⟨str, st₁, hstr, h⟩ := bind_eq_ok.1 h
  have hlen : str.length = s.length := by
    rcases hs : makeIdentStr names s with e | str'
    · rw [hs] at hstr
      cases hstr
    · rw [hs] at hstr
      cases hstr
      exact length_makeIdentStr hs
  rcases ite_eq_ok.1 h with ⟨-, h⟩ | ⟨-, h⟩
  · rw [← (pure_eq_ok.1 h).1, hlen]
  · rcases ite_eq_ok.1 h with ⟨-, h⟩ | ⟨-, h⟩
    · rw [← (pure_eq_ok.1 h).1, List.length_cons, List.length_cons, hlen]
      omega
    · exact (throw_eq_ok.1 h).elim

lemma length_le_lettersBound {ident : Ident} (h : ident ∈ taken) :
    ident.length ≤ lettersBound taken :=
  List.single_le_sum (by simp) _ (List.mem_map_of_mem h)

section Within

variable (hunwrap : ∀ stop, ¬ stop.IsUnwrap → t.err stop)

include hunwrap

lemma within_liftError {α : Type} (r : Except Error α) :
    Within t (liftError r : Prog Stop σ α) := by
  rcases r with e | a
  · exact within_throw (hunwrap _ (fun h => h))
  · exact within_pure a

lemma within_makeIdent (s : Name) : Within t (makeIdent names s) := by
  refine within_bind (within_liftError hunwrap _) fun str _ => ?_
  refine within_ite (fun _ => within_pure _) fun _ => ?_
  exact within_ite (fun _ => within_pure _) fun _ => within_throw (hunwrap _ (fun h => h))

/-- The rounds are not used up as long as they and the letters of the name exceed the letters of
every identifier that is taken. -/
lemma within_untaken {rounds : ℕ} {name : Name} (hrounds : 0 < rounds)
    (hname : lettersBound taken + 1 < rounds + name.length) :
    Within t (untaken names taken rounds name) := by
  induction rounds generalizing name with
  | zero => exact absurd hrounds (lt_irrefl 0)
  | succ rounds ih =>
    refine within_bind (within_makeIdent hunwrap name) ?_
    rintro ident ⟨s, s', -, hrun⟩
    refine within_ite (fun htaken => ?_) fun _ => within_pure ident
    have hlen := length_le_of_makeIdent hrun
    have hle := length_le_lettersBound htaken
    refine ih (by omega) ?_
    rw [List.length_append, List.length_singleton]
    omega

/-- A name is made unique: the loop ends. -/
lemma within_makeUntaken (name : Name) : Within t (makeUntaken names taken name) :=
  within_untaken hunwrap (Nat.succ_pos _) (by omega)

lemma IdentifierSet.within_makeUnique (idents : IdentifierSet) (name : Name) :
    Within t (idents.makeUnique names name) :=
  within_bind (within_makeUntaken hunwrap name) fun _ _ => within_pure _

lemma ScopedIdentifierSet.within_makeUnique (idents : ScopedIdentifierSet)
    (scope : Option TypeScope) (name : Name) : Within t (idents.makeUnique names scope name) :=
  within_bind (within_makeUntaken hunwrap name) fun _ _ => within_pure _

end Within

end Recapn.Codegen

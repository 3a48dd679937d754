/-
# Which names become identifiers

Letters of a name that no identifier has become underscores, and a keyword gets `r#` in front.  Four
keywords and the underscore are no identifiers with it either, and the names that become one of
these are all names that the generator panics at.  A name that got an underscore at its end is none.
-/
import Recapn.Codegen.Ident

namespace Recapn.Codegen

open Recapn.Lib Recapn.Lib.Prog

/-- A letter that starts identifiers, or an underscore, and letters that continue them. -/
def Spelling.IsWord (names : Spelling) : List Char → Prop
  | [] => False
  | first :: chars => (names.isXidStart first ∨ first = '_') ∧ ∀ c ∈ chars, names.isXidContinue c

/-- The words that are no identifiers with `r#` in front either. -/
def neverRaw : List (List Char) :=
  [['s', 'e', 'l', 'f'], ['S', 'e', 'l', 'f'], ['s', 'u', 'p', 'e', 'r'], ['c', 'r', 'a', 't', 'e'], ['_']]

/-- What is known of the other crates.  Words are identifiers but for the keywords and the underscore, and
with `r#` in front they are but for a few. -/
structure Spelling.Lawful (names : Spelling) (keyword : List Char → Prop) : Prop where
  underscore : names.isXidContinue '_'
  isWord_of_neverRaw : ∀ str ∈ neverRaw, names.IsWord str
  parses_iff : ∀ str, names.IsWord str → (names.parses str ↔ ¬ keyword str ∧ str ≠ ['_'])
  parses_raw_iff : ∀ str, names.IsWord str → (names.parses ('r' :: '#' :: str) ↔ str ∉ neverRaw)
  keyword_of_neverRaw : ∀ str ∈ neverRaw, str ≠ ['_'] → keyword str

/-- An identifier of Rust. -/
def Spelling.IsIdent (names : Spelling) (keyword : List Char → Prop) (ident : Ident) : Prop :=
  (names.IsWord ident ∧ ¬ keyword ident ∧ ident ≠ ['_']) ∨
    ∃ str, names.IsWord str ∧ str ∉ neverRaw ∧ ident = 'r' :: '#' :: str

/-- The name is one of the four keywords, or a single letter that starts no identifier. -/
def Spelling.Unspellable (names : Spelling) (name : Name) : Prop :=
  (name ∈ neverRaw ∧ name ≠ ['_']) ∨ ∃ c, name = [c] ∧ (names.isXidStart c → c = '_')

section Words

variable {σ : Type} {names : Spelling} {keyword : List Char → Prop} {name : Name} {str w : List Char}

/-- Letters that are replaced become underscores, so a word without any was there before. -/
lemma eq_of_map_ite {p : Char → Prop} [DecidablePred p] {chars : List Char}
    (h : chars.map (fun c => if p c then c else '_') = w) (hw : '_' ∉ w) : chars = w := by
  induction chars generalizing w with
  | nil => exact h
  | cons c chars ih =>
    subst h
    obtain ⟨hc, hrest⟩ := not_or.1 (mt List.mem_cons.2 hw)
    rw [List.map_cons, ← ih rfl hrest]
    split
    · rfl
    · next hp => exact absurd (if_neg hp).symm hc

lemma isWord_makeIdentStr (hl : names.Lawful keyword) (h : makeIdentStr names name = .ok str) :
    names.IsWord str := by
  cases name with
  | nil => cases h
  | cons first chars =>
    cases h
    refine ⟨?_, fun c hc => ?_⟩
    · by_cases hfirst : names.isXidStart first
      · rw [if_pos hfirst]
        exact .inl hfirst
      · rw [if_neg hfirst]
        exact .inr rfl
    · obtain ⟨d, -, rfl⟩ := List.mem_map.1 hc
      by_cases hd : names.isXidContinue d
      · rwa [if_pos hd]
      · rw [if_neg hd]
        exact hl.underscore

/-- A word stays as it is. -/
lemma makeIdentStr_of_isWord (h : names.IsWord name) : makeIdentStr names name = .ok name := by
  cases name with
  | nil => exact h.elim
  | cons first chars =>
    obtain ⟨hfirst, hchars⟩ := h
    have hmap : chars.map (fun c => if names.isXidContinue c then c else '_') = chars := by
      rw [List.map_congr_left fun c hc => if_pos (hchars c hc), List.map_id']
    rw [makeIdentStr, hmap]
    rcases hfirst with hstart | rfl
    · rw [if_pos hstart]
    · rw [ite_self]

/-- A string without underscores was the name. -/
lemma eq_of_makeIdentStr (h : makeIdentStr names name = .ok str) (hw : '_' ∉ str) : name = str := by
  cases name with
  | nil => cases h
  | cons first chars =>
    cases h
    obtain ⟨hfirst, hchars⟩ := not_or.1 (mt List.mem_cons.2 hw)
    by_cases hstart : names.isXidStart first
    · rw [if_pos hstart, ← eq_of_map_ite rfl hchars]
    · exact absurd (if_neg hstart).symm hfirst

lemma underscore_not_mem_of_neverRaw : ∀ w ∈ neverRaw, w ≠ ['_'] → '_' ∉ w := by decide

/-- The names that become one of the words that `r#` does not help. -/
lemma mem_neverRaw_iff (hl : names.Lawful keyword) (h : makeIdentStr names name = .ok str) :
    str ∈ neverRaw ↔ names.Unspellable name := by
  constructor
  · intro hmem
    by_cases hu : str = ['_']
    · -- one letter, and it was replaced or is the underscore
      subst hu
      cases name with
      | nil => cases h
      | cons first chars =>
        simp only [makeIdentStr, Except.ok.injEq, List.cons.injEq, List.map_eq_nil_iff] at h
        obtain ⟨hfirst, rfl⟩ := h
        refine .inr ⟨first, rfl, fun hstart => ?_⟩
        rw [if_pos hstart] at hfirst
        exact hfirst
    · rw [eq_of_makeIdentStr h (underscore_not_mem_of_neverRaw str hmem hu)]
      exact .inl ⟨hmem, hu⟩
  · rintro (⟨hmem, -⟩ | ⟨c, rfl, hc⟩)
    · rw [makeIdentStr_of_isWord (hl.isWord_of_neverRaw name hmem)] at h
      cases h
      exact hmem
    · have hstr : makeIdentStr names [c] = .ok ['_'] := by
        by_cases hstart : names.isXidStart c
        · obtain rfl := hc hstart
          simp [makeIdentStr]
        · simp [makeIdentStr, hstart]
      rw [hstr] at h
      cases h
      decide

lemma makeIdentStr_of_ne_nil (names : Spelling) (hname : name ≠ []) : ∃ str, makeIdentStr names name = .ok str := by
  cases name with
  | nil => exact absurd rfl hname
  | cons first chars => exact ⟨_, rfl⟩

/-- Any other name becomes an identifier. -/
lemma makeIdent_of_spellable (hl : names.Lawful keyword) (hname : name ≠ []) (hs : ¬ names.Unspellable name)
    (st : σ) : ∃ ident, makeIdent names name st = .ok ident st ∧ names.IsIdent keyword ident := by
  obtain ⟨str, hstr⟩ := makeIdentStr_of_ne_nil names hname
  have hword := isWord_makeIdentStr hl hstr
  have hraw := mt (mem_neverRaw_iff hl hstr).1 hs
  by_cases hparses : names.parses str
  · refine ⟨str, ?_, .inl ⟨hword, (hl.parses_iff str hword).1 hparses⟩⟩
    simp [makeIdent, hstr, liftError, hparses]
  · have hsecond := (hl.parses_raw_iff str hword).2 hraw
    refine ⟨'r' :: '#' :: str, ?_, .inr ⟨str, hword, hraw, rfl⟩⟩
    simp [makeIdent, hstr, liftError, hparses, hsecond]

/-- A word that is no keyword is the identifier that is made for it. -/
lemma makeIdent_of_isWord (hl : names.Lawful keyword) (hword : names.IsWord name) (hkeyword : ¬ keyword name)
    (hu : name ≠ ['_']) (st : σ) : makeIdent names name st = .ok name st := by
  have hparses := (hl.parses_iff name hword).2 ⟨hkeyword, hu⟩
  simp [makeIdent, makeIdentStr_of_isWord hword, liftError, hparses]

/-- The generator panics at these names. -/
lemma makeIdent_of_unspellable (hl : names.Lawful keyword) (hname : name ≠ []) (hs : names.Unspellable name)
    (st : σ) : makeIdent names name st = .error (.panic .invalidIdentifier) st := by
  obtain ⟨str, hstr⟩ := makeIdentStr_of_ne_nil names hname
  have hword := isWord_makeIdentStr hl hstr
  have hraw := (mem_neverRaw_iff hl hstr).2 hs
  have hfirst : ¬ names.parses str := by
    rw [hl.parses_iff str hword]
    rintro ⟨hkeyword, hu⟩
    exact hkeyword (hl.keyword_of_neverRaw str hraw hu)
  have hsecond : ¬ names.parses ('r' :: '#' :: str) := by
    rw [hl.parses_raw_iff str hword]
    exact not_not_intro hraw
  simp [makeIdent, hstr, liftError, hfirst, hsecond]

/-! ## Underscores at the end -/

/-- With an underscore behind it, every name becomes an identifier. -/
lemma not_unspellable_append (hname : name ≠ []) (k : ℕ) (hk : 0 < k) :
    ¬ names.Unspellable (name ++ List.replicate k '_') := by
  have hmem : '_' ∈ name ++ List.replicate k '_' :=
    List.mem_append_right _ (List.mem_replicate.2 ⟨hk.ne', rfl⟩)
  rintro (⟨hraw, hu⟩ | ⟨c, hc, -⟩)
  · exact underscore_not_mem_of_neverRaw _ hraw hu hmem
  · have hlen := congrArg List.length hc
    have hpos := List.length_pos_of_ne_nil hname
    rw [List.length_append, List.length_replicate, List.length_singleton] at hlen
    omega

/-- So the rounds all make identifiers, up to one that is not taken. -/
lemma untaken_of_spellable (hl : names.Lawful keyword) {taken : List Ident} (hname : name ≠ [])
    (hs : ¬ names.Unspellable name) {rounds : ℕ} (hrounds : 0 < rounds)
    (hlen : lettersBound taken + 1 < rounds + name.length) (st : σ) :
    ∃ ident, untaken names taken rounds name st = .ok ident st ∧ names.IsIdent keyword ident ∧ ident ∉ taken := by
  induction rounds generalizing name with
  | zero => exact absurd hrounds (lt_irrefl 0)
  | succ rounds ih =>
    obtain ⟨ident, hrun, hident⟩ := makeIdent_of_spellable hl hname hs st
    have hbind := bind_of_ok (f := fun ident =>
      if ident ∈ taken then untaken names taken rounds (name ++ ['_']) else pure ident) hrun
    by_cases htaken : ident ∈ taken
    · have hle := length_le_of_makeIdent hrun
      have hbound := length_le_lettersBound htaken
      have hlen' : lettersBound taken + 1 < rounds + (name ++ ['_']).length := by
        rw [List.length_append, List.length_singleton]
        omega
      obtain ⟨ident', hrun', hident', hfresh⟩ :=
        ih (List.append_ne_nil_of_left_ne_nil hname _) (not_unspellable_append hname 1 Nat.one_pos) (by omega) hlen'
      refine ⟨ident', hbind.trans ?_, hident', hfresh⟩
      rw [if_pos htaken]
      exact hrun'
    · refine ⟨ident, hbind.trans ?_, hident, htaken⟩
      rw [if_neg htaken]
      rfl

lemma makeUntaken_of_spellable (hl : names.Lawful keyword) (taken : List Ident) (hname : name ≠ [])
    (hs : ¬ names.Unspellable name) (st : σ) : ∃ ident, makeUntaken names taken name st = .ok ident st ∧
      names.IsIdent keyword ident ∧ ident ∉ taken :=
  untaken_of_spellable hl hname hs (Nat.succ_pos _) (by omega) st

/-- The name becomes an identifier, with any number of underscores behind it too, and one that is not
taken in any set. -/
structure BecomesIdent (names : Spelling) (keyword : List Char → Prop) (name : Name) (st : σ) : Prop where
  makeIdent : ∀ k, ∃ ident, makeIdent names (name ++ List.replicate k '_') st = .ok ident st ∧
    names.IsIdent keyword ident
  makeUnique : ∀ idents : IdentifierSet, ∃ ident,
    idents.makeUnique names name st = .ok (ident, ident :: idents) st ∧ names.IsIdent keyword ident ∧ ident ∉ idents
  makeUnique_scoped : ∀ (idents : ScopedIdentifierSet) (scope : Option TypeScope), ∃ ident,
    idents.makeUnique names scope name st = .ok (ident, (scope.map TypeScope.ids, ident) :: idents) st ∧
      names.IsIdent keyword ident ∧ (scope.map TypeScope.ids, ident) ∉ idents

/-- A name becomes an identifier unless it is `self`, `Self`, `super` or `crate`, or a single letter that
starts no identifier, or the underscore. -/
theorem becomesIdent_iff (hl : names.Lawful keyword) (hname : name ≠ []) (st : σ) :
    BecomesIdent names keyword name st ↔ ¬ names.Unspellable name := by
  constructor
  · intro h hs
    obtain ⟨ident, hrun, -⟩ := h.makeIdent 0
    rw [List.replicate_zero, List.append_nil, makeIdent_of_unspellable hl hname hs] at hrun
    cases hrun
  · intro hs
    refine ⟨fun k => ?_, fun idents => ?_, fun idents scope => ?_⟩
    · rcases Nat.eq_zero_or_pos k with rfl | hk
      · rw [List.replicate_zero, List.append_nil]
        exact makeIdent_of_spellable hl hname hs st
      · exact makeIdent_of_spellable hl (by simp [hname]) (not_unspellable_append hname k hk) st
    · obtain ⟨ident, hrun, hident, hfresh⟩ := makeUntaken_of_spellable hl idents hname hs st
      exact ⟨ident, bind_of_ok hrun, hident, hfresh⟩
    · obtain ⟨ident, hrun, hident, hfresh⟩ := makeUntaken_of_spellable hl (idents.takenIn scope) hname hs st
      refine ⟨ident, bind_of_ok hrun, hident, fun hmem => hfresh ?_⟩
      exact List.mem_map.2 ⟨_, List.mem_filter.2 ⟨hmem, by simp⟩, rfl⟩

end Words

/-! ## Latin letters -/

instance {names : Spelling} : DecidablePred names.IsWord
  | [] => inferInstanceAs (Decidable False)
  | first :: chars =>
    haveI : Decidable (∀ c ∈ chars, names.isXidContinue c) := List.decidableBAll _ chars
    inferInstanceAs (Decidable ((names.isXidStart first ∨ first = '_') ∧ ∀ c ∈ chars, names.isXidContinue c))

/-- Some of the keywords. -/
def latinKeywords : List (List Char) :=
  ['f', 'n'] :: ['t', 'y', 'p', 'e'] :: neverRaw.filter (· ≠ ['_'])

/-- The letters of a few alphabets only. -/
def latinLetters : Spelling where
  isXidStart := Char.isAlpha
  isXidContinue c := c.isAlphanum || c = '_'
  parses := fun _ => false
  asPascalCase := id
  asSnakeCase := id
  asShoutySnakeCase := id

def latin : Spelling :=
  { latinLetters with
    parses := fun str => (latinLetters.IsWord str ∧ !latinKeywords.contains str ∧ str ≠ ['_']) ∨
      (str.take 2 = ['r', '#'] ∧ latinLetters.IsWord (str.drop 2) ∧ !neverRaw.contains (str.drop 2)) }

/-- No word begins like one with `r#`. -/
lemma take_ne_of_isWord {str : List Char} (h : latinLetters.IsWord str) : str.take 2 ≠ ['r', '#'] := by
  rintro htake
  obtain ⟨rest, rfl⟩ : ∃ rest, str = 'r' :: '#' :: rest := by
    refine ⟨str.drop 2, ?_⟩
    conv_lhs => rw [← List.take_append_drop 2 str, htake]
    rfl
  exact absurd (h.2 '#' List.mem_cons_self) (by decide)

lemma lawful_latin : latin.Lawful (· ∈ latinKeywords) where
  underscore := by decide
  isWord_of_neverRaw := by decide
  parses_iff str hword := by
    have hword' : latinLetters.IsWord str := hword
    simp [latin, hword', take_ne_of_isWord hword']
  parses_raw_iff str hword := by
    have hword' : latinLetters.IsWord str := hword
    have hraw : ¬ latinLetters.IsWord ('r' :: '#' :: str) := fun h => take_ne_of_isWord h rfl
    simp [latin, hword', hraw]
  keyword_of_neverRaw := by decide

theorem becomesIdent_iff_type :
    BecomesIdent latin (· ∈ latinKeywords) ['t', 'y', 'p', 'e'] () ↔ ¬ latin.Unspellable ['t', 'y', 'p', 'e'] :=
  becomesIdent_iff lawful_latin (by decide) ()

/-- A field may be called `self`, and the generator panics at it. -/
theorem not_becomesIdent_self : ¬ ∀ (names : Spelling) (keyword : List Char → Prop), names.Lawful keyword →
    ∀ name ≠ [], BecomesIdent names keyword name () := by
  intro h
  obtain ⟨ident, hrun, -⟩ := (h latin _ lawful_latin ['s', 'e', 'l', 'f'] (by decide)).makeIdent 0
  have hself : latin.Unspellable ['s', 'e', 'l', 'f'] := .inl (by decide)
  have hpanic := makeIdent_of_unspellable lawful_latin (by decide) hself ()
  rw [List.replicate_zero, List.append_nil, hpanic] at hrun
  cases hrun

end Recapn.Codegen

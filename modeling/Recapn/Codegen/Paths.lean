/-
# What the paths of types denote

A path begins where the type is referred to, goes up to the module around it, or starts at the names for the
file and the imports.  From there on it goes down through the modules of structs.  It ends at its type unless
one of its names is a name of the templates in the module where it is looked up.
-/
import Recapn.Codegen.Crate
import Recapn.Codegen.FileOrder

namespace Recapn.Codegen

open Recapn.Lib Recapn.Lib.Prog

/-- A type that is recorded. -/
def Crate.HasType (c : Crate) (id : Id) (type : TypeInfo) : Prop :=
  (∃ modIdent, (id, .struct ⟨type, modIdent⟩) ∈ c.nodes) ∨ ∃ enumerants, (id, .enum ⟨type, enumerants⟩) ∈ c.nodes

/-- A name of the templates, in the module of a scope. -/
def Reserved (scope : TypeScope) (n : Ident) : Prop :=
  Used n ∨ scope.types ≠ [] ∧ (n = readerName ∨ n = builderName)

instance {n : Ident} : Decidable (Used n) := inferInstanceAs (Decidable (_ ∨ _ ∨ _))

instance {scope : TypeScope} {n : Ident} : Decidable (Reserved scope n) := inferInstanceAs (Decidable (_ ∨ _ ∧ (_ ∨ _)))

/-- None of the names from a scope down to the type is reserved where it is looked up. -/
def TypeInfo.ClearFrom (type : TypeInfo) (outer : List ModScope) : Prop :=
  (∀ before m, outer <+: before → before ++ [m] <+: type.scope.types →
    ¬ Reserved ⟨type.scope.file, before⟩ m.modIdent) ∧ ¬ Reserved type.scope type.typeIdent

/-- The first name of the path from the file down to the type. -/
def TypeInfo.firstIdent (type : TypeInfo) : Ident := (type.scope.types.head?.map ModScope.modIdent).getD type.typeIdent

/-- The path goes down from a file, whose module has another name than the first one of the path. -/
def TypeInfo.ClearFromFile (type : TypeInfo) : Prop :=
  type.ClearFrom [] ∧ type.firstIdent ≠ type.scope.file.modIdent

/-- Nothing is in the way of the path from the scope to the type. -/
def Crate.Clear (c : Crate) (type : TypeInfo) (refScope : TypeScope) : Prop :=
  if refScope.file.id = type.scope.file.id then
    if refScope.ids.2 <+: type.scope.ids.2 then type.ClearFrom refScope.types
    else if refScope.ids.2.dropLast = type.scope.ids.2 then ¬ Reserved type.scope type.typeIdent
    else c.Unhidden refScope fileSegment ∧ type.ClearFromFile
  else c.Unhidden refScope importsSegment ∧ type.ClearFromFile

section Paths

variable {names : Spelling} {c : Crate} {m : Module} {n : Ident} {d : Meaning} {id : Id} {type : TypeInfo}

/-! ## Scopes with the same ids -/

/-- A struct is recorded in one scope, with one module. -/
lemma Crate.Valid.eq_of_last (h : c.Valid names) {file file' last last' : ModScope} {outer outer' : List ModScope}
    (hs : TypeScope.Placed ⟨file, outer ++ [last]⟩ c.nodes) (hs' : TypeScope.Placed ⟨file', outer' ++ [last']⟩ c.nodes)
    (hid : last.id = last'.id) : outer ++ [last] = outer' ++ [last'] := by
  obtain ⟨typeIdent, hmem⟩ := hs.types outer last List.prefix_rfl
  obtain ⟨typeIdent', hmem'⟩ := hs'.types outer' last' List.prefix_rfl
  rw [← hid] at hmem'
  have hinfo := h.eq_of_mem hmem hmem'
  simp only [NodeInfo.struct.injEq, StructInfo.mk.injEq, TypeInfo.mk.injEq, TypeScope.mk.injEq] at hinfo
  obtain ⟨⟨-, -, rfl⟩, hident⟩ := hinfo
  obtain ⟨lastId, lastIdent⟩ := last
  obtain ⟨lastId', lastIdent'⟩ := last'
  obtain rfl : lastId = lastId' := hid
  obtain rfl : lastIdent = lastIdent' := hident
  rfl

lemma Crate.Valid.types_eq (h : c.Valid names) {s s' : TypeScope} (hs : s.Placed c.nodes) (hs' : s'.Placed c.nodes)
    (hids : s.types.map ModScope.id = s'.types.map ModScope.id) : s.types = s'.types := by
  obtain ⟨file, types⟩ := s
  obtain ⟨file', types'⟩ := s'
  rcases List.eq_nil_or_concat' types with rfl | ⟨outer, last, rfl⟩
  · exact (List.map_eq_nil_iff.1 hids.symm).symm
  · rcases List.eq_nil_or_concat' types' with rfl | ⟨outer', last', rfl⟩
    · exact List.map_eq_nil_iff.1 hids
    · refine h.eq_of_last hs hs' ?_
      simp only [List.map_append, List.map_cons, List.map_nil] at hids
      exact List.singleton_injective (List.append_inj' hids rfl).2

lemma Crate.Valid.file_eq (h : c.Valid names) {s s' : TypeScope} (hs : s.Placed c.nodes) (hs' : s'.Placed c.nodes)
    (hid : s.file.id = s'.file.id) : s.file = s'.file := by
  obtain ⟨path, hmem⟩ := hs.file
  obtain ⟨path', hmem'⟩ := hs'.file
  rw [← hid] at hmem'
  have hinfo := h.eq_of_mem hmem hmem'
  simp only [NodeInfo.file.injEq, FileInfo.mk.injEq] at hinfo
  obtain ⟨⟨fileId, fileIdent⟩, types⟩ := s
  obtain ⟨⟨fileId', fileIdent'⟩, types'⟩ := s'
  obtain rfl : fileId = fileId' := hid
  obtain rfl : fileIdent = fileIdent' := hinfo.1
  rfl

lemma TypeScope.Placed.around {file : ModScope} {outer types : List ModScope} {nodes : NodeInfoMap}
    (h : TypeScope.Placed ⟨file, types⟩ nodes) (hpre : outer <+: types) : TypeScope.Placed ⟨file, outer⟩ nodes where
  file := h.file
  types before m hbefore := h.types before m (hbefore.trans hpre)

/-! ## Types and their modules are items -/

lemma Crate.HasType.item (htype : c.HasType id type) : c.Item type.scope.module type.typeIdent (.type id) := by
  rcases htype with ⟨modIdent, hmem⟩ | ⟨enumerants, hmem⟩
  · exact .structType hmem
  · exact .enumType hmem

lemma Crate.HasType.placed (htype : c.HasType id type) (h : c.Valid names) : type.scope.Placed c.nodes := by
  rcases htype with ⟨modIdent, hmem⟩ | ⟨enumerants, hmem⟩
  · exact h.placed hmem rfl
  · exact h.placed hmem rfl

lemma TypeScope.Placed.item {file last : ModScope} {outer : List ModScope}
    (hs : TypeScope.Placed ⟨file, outer ++ [last]⟩ c.nodes) :
    c.Item (TypeScope.module ⟨file, outer⟩) last.modIdent (.module (.struct last.id)) := by
  obtain ⟨typeIdent, hmem⟩ := hs.types outer last List.prefix_rfl
  exact .structModule hmem

lemma Crate.Valid.finds_item_iff (h : c.Valid names) (hd : c.Item m n d) {e : Meaning} :
    c.modules.Finds m n e ↔ e = d ∧ ¬ c.Added m n := by
  constructor
  · intro hfinds
    obtain rfl := (hfinds.of_declares (.inl hd)).1
    exact ⟨rfl, (h.finds_iff hd).1 hfinds⟩
  · rintro ⟨rfl, hadded⟩
    exact (h.finds_iff hd).2 hadded

/-! ## What the templates add under the name of an item -/

/-- Validation keeps the name of the union off the items, and no other name. -/
lemma Crate.Valid.added_iff (h : c.Valid names) (hwhich : makeIdent names whichName () = .ok whichName ())
    {scope : TypeScope} (hs : scope.Placed c.nodes) (hd : c.Item scope.module n d) :
    c.Added scope.module n ↔ Reserved scope n := by
  constructor
  · rintro ⟨e, he⟩
    generalize hm : scope.module = m at he
    have hscope (id : Id) (hid : scope.module = .struct id) : scope.types ≠ [] := by
      intro hnil
      rw [TypeScope.module, hnil] at hid
      cases hid
    cases he with
    | file | imports | inner => exact absurd hm (scope.module_ne_outer _)
    | imported =>
      unfold TypeScope.module at hm
      split at hm <;> cases hm
    | innerPrelude => exact .inl (.inr (.inr rfl))
    | innerUse hn => exact .inl (used_of_segment hn)
    | reader => exact .inr ⟨hscope _ hm, .inl rfl⟩
    | builder => exact .inr ⟨hscope _ hm, .inr rfl⟩
    | which hmem hunion =>
      exfalso
      obtain ⟨identifiers, htold⟩ := h.told
      refine (htold.which _ _ hmem hunion _ hwhich).2 ?_
      obtain ⟨id', info', scope', hmem', hscope', hmodule, htakes, -⟩ := hd.takes
      have hinner := (h.placed hmem rfl).push hmem
      have hids := h.ids_of_module hinner (h.placed hmem' hscope')
        ((TypeScope.module_concat _ _ _).trans (hmodule.trans hm).symm)
      rw [hids]
      exact List.mem_flatMap.2 ⟨_, hmem', htakes⟩
    | useItem _ hn | use _ hn => exact .inl hn
  · rintro (hused | ⟨hne, hn⟩)
    · exact (Crate.exists_adds_of_used hused hs).imp fun _ he => he.1
    · obtain ⟨file, types⟩ := scope
      obtain ⟨outer, last, rfl⟩ := (List.eq_nil_or_concat' types).resolve_left hne
      obtain ⟨typeIdent, hmem⟩ := hs.types outer last List.prefix_rfl
      rw [TypeScope.module_concat]
      rcases hn with rfl | rfl
      · exact ⟨_, .reader hmem⟩
      · exact ⟨_, .builder hmem⟩

/-! ## Down through the modules of structs -/

lemma TypeInfo.clearFrom_iff {outer inner : List ModScope} {next : ModScope}
    (htypes : outer ++ next :: inner = type.scope.types) : type.ClearFrom outer ↔
      ¬ Reserved ⟨type.scope.file, outer⟩ next.modIdent ∧ type.ClearFrom (outer ++ [next]) := by
  have hnext : outer ++ [next] <+: type.scope.types := ⟨inner, by rw [← htypes]; simp⟩
  constructor
  · rintro ⟨hmodules, hlast⟩
    exact ⟨hmodules outer next List.prefix_rfl hnext,
      fun before m hpre => hmodules before m ((List.prefix_append _ _).trans hpre), hlast⟩
  · rintro ⟨hfirst, hmodules, hlast⟩
    refine ⟨fun before m hpre hbefore => ?_, hlast⟩
    obtain ⟨middle, rfl⟩ := hpre
    rw [← htypes, List.append_assoc, List.prefix_append_right_inj] at hbefore
    cases middle with
    | nil =>
      obtain rfl := (List.cons_prefix_cons.1 hbefore).1
      rw [List.append_nil]
      exact hfirst
    | cons e middle =>
      obtain ⟨rfl, hrest⟩ := List.cons_prefix_cons.1 hbefore
      refine hmodules _ m ⟨middle, by simp⟩ ?_
      rw [← htypes, List.append_assoc, List.prefix_append_right_inj]
      exact List.cons_prefix_cons.2 ⟨rfl, hrest⟩

/-- The induction is on the structs that are left to go down. -/
lemma Crate.Valid.denotes_iff (h : c.Valid names) (hwhich : makeIdent names whichName () = .ok whichName ())
    (htype : c.HasType id type) {inner : List ModScope} : ∀ outer, outer ++ inner = type.scope.types →
    (c.modules.Denotes (TypeScope.module ⟨type.scope.file, outer⟩) (inner.map ModScope.modIdent ++ [type.typeIdent])
      (.type id) ↔ type.ClearFrom outer) := by
  have hplaced := htype.placed h
  induction inner with
  | nil =>
    intro outer htypes
    rw [List.append_nil] at htypes
    subst htypes
    rw [List.map_nil, List.nil_append, Modules.denotes_singleton, h.finds_iff htype.item,
      h.added_iff hwhich hplaced htype.item]
    refine ⟨fun hclear => ⟨fun before m hpre hbefore => ?_, hclear⟩, fun hclear => hclear.2⟩
    have hle := hpre.length_le
    have hlt := hbefore.length_le
    rw [List.length_append, List.length_singleton] at hlt
    omega
  | cons next inner ih =>
    intro outer htypes
    have hpre : outer ++ [next] <+: type.scope.types := ⟨inner, by rw [← htypes]; simp⟩
    have hnext : TypeScope.Placed ⟨type.scope.file, outer ++ [next]⟩ c.nodes := hplaced.around hpre
    have hitem := hnext.item
    rw [type.clearFrom_iff htypes, ← ih (outer ++ [next]) (by rw [← htypes]; simp), TypeScope.module_concat,
      ← h.added_iff hwhich hnext.outer hitem, List.map_cons, List.cons_append,
      Modules.denotes_cons (List.append_ne_nil_of_right_ne_nil _ (List.cons_ne_nil _ _))]
    constructor
    · rintro ⟨e, m', hfinds, henters, hrest⟩
      obtain ⟨rfl, hadded⟩ := (h.finds_item_iff hitem).1 hfinds
      cases henters
      exact ⟨hadded, hrest⟩
    · rintro ⟨hadded, hrest⟩
      exact ⟨_, _, (h.finds_item_iff hitem).2 ⟨rfl, hadded⟩, rfl, hrest⟩

/-! ## Down from a file -/

/-- How many structs are around a node. -/
def Crate.around (c : Crate) (id : Id) : ℕ :=
  (((c.nodes.lookup id).bind NodeInfo.scope).map fun scope => scope.types.length).getD 0

/-- How many structs are around what a module has. -/
def Crate.level (c : Crate) : Module → ℕ
  | .struct id => c.around id + 1
  | _ => 0

def Crate.depth (c : Crate) : Meaning → ℕ
  | .type id => c.around id
  | _ => 0

/-- What a name of the module may mean: a module that is one struct further down at most, and no type that
is further down. -/
structure Crate.Below (c : Crate) (m : Module) (d : Meaning) : Prop where
  module : ∀ m', d = .module m' → c.level m' ≤ c.level m + 1
  depth : c.depth d ≤ c.level m

lemma Crate.Below.mono {m' : Module} (h : c.Below m d) (hle : c.level m ≤ c.level m') : c.Below m' d where
  module m₁ hd := (h.module m₁ hd).trans (Nat.succ_le_succ hle)
  depth := h.depth.trans hle

lemma Crate.Valid.around_eq (h : c.Valid names) {info : NodeInfo} (hmem : (id, info) ∈ c.nodes) {scope : TypeScope}
    (hscope : info.scope = some scope) : c.around id = scope.types.length := by
  rw [Crate.around, (lookup_eq_some_iff h.keys).2 hmem, Option.bind_some, hscope]
  rfl

lemma Crate.Valid.level_module (h : c.Valid names) {scope : TypeScope} (hs : scope.Placed c.nodes) :
    c.level scope.module = scope.types.length := by
  obtain ⟨file, types⟩ := scope
  rcases List.eq_nil_or_concat' types with rfl | ⟨outer, last, rfl⟩
  · rfl
  · obtain ⟨typeIdent, hmem⟩ := hs.types outer last List.prefix_rfl
    rw [TypeScope.module_concat, Crate.level, h.around_eq hmem rfl, List.length_append, List.length_singleton]

lemma Crate.Valid.below_item (h : c.Valid names) (hd : c.Item m n d) : c.Below m d := by
  cases hd with
  | structType hmem | enumType hmem =>
    exact ⟨nofun, (h.around_eq hmem rfl).trans_le (h.level_module (h.placed hmem rfl)).ge⟩
  | structModule hmem =>
    refine ⟨?_, Nat.zero_le _⟩
    rintro _ ⟨⟩
    rw [Crate.level, h.around_eq hmem rfl, h.level_module (h.placed hmem rfl)]

/-- The module of a struct is further down than the one around it. -/
lemma Crate.Valid.level_scope_le (h : c.Valid names) {info : StructInfo} (hmem : (id, .struct info) ∈ c.nodes) :
    c.level info.typeInfo.scope.module ≤ c.level (.struct id) := by
  rw [h.level_module (h.placed hmem rfl), Crate.level, h.around_eq hmem rfl]
  exact Nat.le_succ _

lemma Crate.below_of_level {m' : Module} (hm : c.level m' = 0) : c.Below m (.module m') where
  module := by
    rintro _ ⟨⟩
    rw [hm]
    exact Nat.zero_le _
  depth := Nat.zero_le _

lemma Crate.Valid.below_adds (h : c.Valid names) (hd : c.Adds m n d) : c.Below m d := by
  induction hd with
  | file | imports | inner | imported => exact Crate.below_of_level rfl
  | innerPrelude => exact ⟨nofun, Nat.zero_le _⟩
  | innerUse _ _ ih => exact ih.mono le_rfl
  | reader | builder | which => exact ⟨nofun, Nat.zero_le _⟩
  | useItem hmem _ hitem => exact (h.below_item hitem).mono (h.level_scope_le hmem)
  | use hmem _ _ ih => exact ih.mono (h.level_scope_le hmem)

lemma Crate.Valid.below_finds (h : c.Valid names) (hd : c.modules.Finds m n d) : c.Below m d := by
  rcases hd with ⟨hitem | hadds, -⟩ | ⟨-, ⟨f, rfl, hitem, -⟩, -⟩
  · exact h.below_item hitem
  · exact h.below_adds hadds
  · exact (h.below_item hitem).mono le_rfl

lemma Crate.level_of_adds_outer {f : Id} {m' : Module} (hd : c.Adds (.outer f) n (.module m')) : c.level m' = 0 := by
  cases hd <;> rfl

/-- A path that begins with a name of the templates stays above the type. -/
lemma Crate.Valid.not_denotes_outer (h : c.Valid names) {f : Id} (hadded : c.Added (.outer f) n) {path : Path}
    (hlen : path.length ≤ c.around id) : ¬ c.modules.Denotes (.outer f) (n :: path) (.type id) := by
  obtain ⟨e, he⟩ := hadded
  have hadds (e : Meaning) (hfinds : c.modules.Finds (.outer f) n e) : c.Adds (.outer f) n e := by
    have heq := (hfinds.of_declares (.inr he)).1
    rwa [← heq]
  intro hpath
  cases hpath with
  | last hfinds => exact Crate.not_isItem_of_adds_outer (hadds _ hfinds) trivial
  | cons hfinds henters hrest =>
    cases henters
    have hmodule (m : Module) (n : Ident) (e : Meaning) (m' : Module) (hfinds : c.modules.Finds m n e)
        (henters : c.modules.enters e m') : c.level m' ≤ c.level m + 1 := (h.below_finds hfinds).module m' henters
    have hitem (m : Module) (n : Ident) (d : Meaning) (hfinds : c.modules.Finds m n d) : c.depth d ≤ c.level m :=
      (h.below_finds hfinds).depth
    have hdepth := Modules.Denotes.depth_le hmodule hitem hrest
    rw [Crate.level_of_adds_outer (hadds _ hfinds), Crate.depth] at hdepth
    omega

lemma Crate.Valid.added_outer_iff (h : c.Valid names) {file : ModScope}
    (hfile : ∃ path, (file.id, .file ⟨file.modIdent, path⟩) ∈ c.nodes) :
    c.Added (.outer file.id) n ↔ n = fileSegment ∨ n = importsSegment ∨ n = file.modIdent := by
  obtain ⟨path, hmem⟩ := hfile
  constructor
  · rintro ⟨d, hd⟩
    generalize hm : Module.outer file.id = m at hd
    cases hd with
    | file => exact .inl rfl
    | imports => exact .inr (.inl rfl)
    | inner hmem' =>
      cases hm
      cases h.eq_of_mem hmem hmem'
      exact .inr (.inr rfl)
    | _ => cases hm
  · rintro (rfl | rfl | rfl)
    · exact ⟨_, .file hmem⟩
    · exact ⟨_, .imports hmem⟩
    · exact ⟨_, .inner hmem⟩

/-- What the glob leaves of a name of the file. -/
lemma Crate.Valid.not_added_iff (h : c.Valid names) (hwhich : makeIdent names whichName () = .ok whichName ())
    {file : ModScope} (hs : TypeScope.Placed ⟨file, []⟩ c.nodes) (hd : c.Item (.inner file.id) n d) :
    (¬ c.Added (.outer file.id) n ∧ ¬ c.Added (.inner file.id) n) ↔
      ¬ Reserved ⟨file, []⟩ n ∧ n ≠ file.modIdent := by
  rw [h.added_outer_iff hs.file, show Module.inner file.id = TypeScope.module ⟨file, []⟩ from rfl,
    h.added_iff hwhich hs hd]
  constructor
  · rintro ⟨houter, hinner⟩
    exact ⟨hinner, fun hn => houter (.inr (.inr hn))⟩
  · rintro ⟨hinner, hn⟩
    refine ⟨?_, hinner⟩
    rintro (hfile | himports | hname)
    · exact hinner (.inl (.inl hfile))
    · exact hinner (.inl (.inr (.inl himports)))
    · exact hn hname

lemma Crate.Valid.denotes_file_iff (h : c.Valid names) (hwhich : makeIdent names whichName () = .ok whichName ())
    (htype : c.HasType id type) : c.modules.Denotes (.outer type.scope.file.id)
      (type.scope.types.map ModScope.modIdent ++ [type.typeIdent]) (.type id) ↔ type.ClearFromFile := by
  have hplaced := htype.placed h
  have hitem := htype.item
  have haround : c.around id = type.scope.types.length := by
    rcases htype with ⟨modIdent, hmem⟩ | ⟨enumerants, hmem⟩
    · exact h.around_eq hmem rfl
    · exact h.around_eq hmem rfl
  have hfrom := h.denotes_iff hwhich htype [] (List.nil_append _)
  obtain ⟨typeIdent, ⟨file, types⟩⟩ := type
  have hfile : TypeScope.Placed ⟨file, []⟩ c.nodes := hplaced.around (List.nil_prefix)
  cases types with
  | nil =>
    rw [List.map_nil, List.nil_append, Modules.denotes_singleton, h.finds_outer_iff hitem,
      h.not_added_iff hwhich hfile hitem]
    rw [List.map_nil, List.nil_append, Modules.denotes_singleton, h.finds_iff hitem, h.added_iff hwhich hfile hitem]
      at hfrom
    exact and_congr hfrom Iff.rfl
  | cons next inner =>
    have hnext : TypeScope.Placed ⟨file, [] ++ [next]⟩ c.nodes := hplaced.around ⟨inner, rfl⟩
    have hmod : c.Item (.inner file.id) next.modIdent (.module (.struct next.id)) := hnext.item
    have hpath : inner.map ModScope.modIdent ++ [typeIdent] ≠ [] :=
      List.append_ne_nil_of_right_ne_nil _ (List.cons_ne_nil _ _)
    refine Iff.trans ?_ (and_congr hfrom Iff.rfl)
    rw [List.map_cons, List.cons_append, Modules.denotes_cons hpath]
    constructor
    · intro hdenotes
      have houter : ¬ c.Added (.outer file.id) next.modIdent := fun hadded =>
        h.not_denotes_outer hadded (by simp [haround]) ((Modules.denotes_cons hpath).2 hdenotes)
      obtain ⟨e, m', ⟨hitem' | hadds, -⟩ | ⟨-, ⟨f, hf, hitem', hinner⟩, -⟩, henters, hrest⟩ := hdenotes
      · exact absurd hitem' Crate.not_item_outer
      · exact absurd ⟨e, hadds⟩ houter
      · cases hf
        obtain rfl := h.item_unique hitem' hmod
        refine ⟨(Modules.denotes_cons hpath).2 ⟨_, m', (h.finds_item_iff hmod).2 ⟨rfl, hinner⟩, henters, hrest⟩, ?_⟩
        exact fun hname => houter ((h.added_outer_iff hfile.file).2 (.inr (.inr hname)))
    · rintro ⟨hdenotes, hname⟩
      obtain ⟨e, m', hfinds, henters, hrest⟩ := (Modules.denotes_cons hpath).1 hdenotes
      obtain ⟨rfl, hinner⟩ := (h.finds_item_iff hmod).1 hfinds
      have hreserved := mt (h.added_iff hwhich hfile hmod).2 hinner
      exact ⟨_, m', (h.finds_outer_iff hmod).2 ((h.not_added_iff hwhich hfile hmod).2 ⟨hreserved, hname⟩), henters,
        hrest⟩

/-! ## The five forms of a path -/

/-- No identifier is `super`. -/
lemma makeIdent_ne_super {keyword : List Char → Prop} (hl : names.Lawful keyword) {name : Name} {ident : Ident}
    (h : makeIdent names name () = .ok ident ()) : ident ≠ superSegment := by
  have hmem : superSegment ∈ neverRaw := by decide
  rintro rfl
  obtain ⟨str, _, -, hrest⟩ := bind_eq_ok.1 h
  rcases ite_eq_ok.1 hrest with ⟨hparses, hpure⟩ | ⟨-, hrest⟩
  · obtain rfl := (pure_eq_ok.1 hpure).1
    exact ((hl.parses_iff _ (hl.isWord_of_neverRaw _ hmem)).1 hparses).1 (hl.keyword_of_neverRaw _ hmem (by decide))
  · rcases ite_eq_ok.1 hrest with ⟨-, hpure⟩ | ⟨-, hthrow⟩
    · cases (pure_eq_ok.1 hpure).1
    · exact (throw_eq_ok.1 hthrow).elim

lemma Crate.Valid.item_ne_super {keyword : List Char → Prop} (hl : names.Lawful keyword) (h : c.Valid names)
    (hd : c.Item m n d) : n ≠ superSegment := by
  obtain ⟨identifiers, htold⟩ := h.told
  obtain ⟨id, info, scope, hmem, -, -, htakes, -⟩ := hd.takes
  obtain ⟨name, hmade⟩ := htold.made _ (List.mem_flatMap.2 ⟨_, hmem, htakes⟩)
  exact makeIdent_ne_super hl hmade

lemma Crate.means_cons {path : Path} (hn : n ≠ superSegment) :
    c.Means m (n :: path) d ↔ c.modules.Denotes m (n :: path) d := by
  rw [Crate.Means, if_neg hn]

lemma Crate.Valid.parent_unique (h : c.Valid names) {m₁ m₂ : Module} (h₁ : c.Parent m m₁) (h₂ : c.Parent m m₂) :
    m₁ = m₂ := by
  cases h₁ with
  | inner =>
    cases h₂
    rfl
  | struct hmem =>
    cases h₂ with
    | struct hmem' =>
      obtain rfl := NodeInfo.struct.inj (h.eq_of_mem hmem hmem')
      rfl

lemma Crate.Valid.means_unique (h : c.Valid names) {path : Path} {d' : Meaning} (hd : c.Means m path d)
    (hd' : c.Means m path d') : d = d' := by
  have henters {d : Meaning} {m m' : Module} (he : c.modules.enters d m) (he' : c.modules.enters d m') : m = m' :=
    Meaning.module.inj (he.symm.trans he')
  cases path with
  | nil => exact hd.elim
  | cons n path =>
    by_cases hn : n = superSegment
    · rw [Crate.Means, if_pos hn] at hd hd'
      obtain ⟨m₁, hparent₁, hdenotes⟩ := hd
      obtain ⟨m₂, hparent₂, hdenotes'⟩ := hd'
      obtain rfl := h.parent_unique hparent₁ hparent₂
      exact hdenotes.unique henters hdenotes'
    · rw [Crate.means_cons hn] at hd hd'
      exact hd.unique henters hd'

lemma stripScopes_eq_some : ∀ {types refs inner : List ModScope}, stripScopes types refs = some inner →
    ∃ before, types = before ++ inner ∧ before.map ModScope.id = refs.map ModScope.id
  | types, [], inner, h => ⟨[], by simpa [stripScopes] using h, rfl⟩
  | [], _ :: _, _, h => by cases h
  | m :: types, ref :: refs, inner, h => by
    rw [stripScopes] at h
    split at h
    · next hid =>
      obtain ⟨before, rfl, hbefore⟩ := stripScopes_eq_some h
      exact ⟨m :: before, rfl, by rw [List.map_cons, List.map_cons, hid, hbefore]⟩
    · cases h

lemma stripScopes_eq_none : ∀ {types refs : List ModScope}, stripScopes types refs = none →
    ¬ refs.map ModScope.id <+: types.map ModScope.id
  | _, [], h, _ => by simp [stripScopes] at h
  | [], _ :: _, _, hpre => by simp at hpre
  | m :: types, ref :: refs, h, hpre => by
    obtain ⟨hid, hpre⟩ := List.cons_prefix_cons.1 hpre
    rw [stripScopes, if_pos hid.symm] at h
    exact stripScopes_eq_none h hpre

/-- In the module of the imports every file that is imported is found. -/
lemma Crate.Valid.finds_imports_iff (h : c.Valid names) {f g : Id} (hg : g ∈ c.imports f) {info : FileInfo}
    (hmem : (g, .file info) ∈ c.nodes) : c.modules.Finds (.imports f) info.modIdent d ↔ d = .module (.outer g) := by
  have hunique (d : Meaning) (hd : c.modules.declares (.imports f) info.modIdent d) : d = .module (.outer g) := by
    generalize hm : Module.imports f = m at hd
    generalize hn : info.modIdent = n at hd
    rcases hd with hd | hd
    · obtain ⟨_, _, scope, -, -, hmodule, -⟩ := hd.takes
      rw [← hm, TypeScope.module] at hmodule
      split at hmodule <;> cases hmodule
    · cases hd with
      | imported _ hmem' =>
        have hmem'' : ((none : Option (Id × List Id)), info.modIdent) ∈ NodeInfo.takes (.file ‹FileInfo›) := by
          rw [hn]
          exact List.mem_singleton_self _
        obtain ⟨rfl, -⟩ := h.eq_of_takes hmem hmem' (List.mem_singleton_self _) hmem''
        rfl
      | _ => cases hm
  constructor
  · intro hfinds
    exact (hfinds.of_declares (.inr (.imported hg hmem))).1.symm
  · rintro rfl
    exact .inl ⟨.inr (.imported hg hmem), hunique⟩

section Forms

variable {keyword : List Char → Prop} {refScope : TypeScope} (h : c.Valid names)
  (hwhich : makeIdent names whichName () = .ok whichName ()) (htype : c.HasType id type)

include h hwhich htype

/-- From a scope around the type the path goes down. -/
lemma Crate.Valid.means_down_iff (hl : names.Lawful keyword) (hfile : refScope.file = type.scope.file)
    {inner : List ModScope} (htypes : refScope.types ++ inner = type.scope.types) :
    c.Means refScope.module (inner.map ModScope.modIdent ++ [type.typeIdent]) (.type id) ↔
      type.ClearFrom refScope.types := by
  have hdenotes := h.denotes_iff hwhich htype refScope.types htypes
  have hscope : TypeScope.module ⟨type.scope.file, refScope.types⟩ = refScope.module := by
    rw [← hfile]
  rw [hscope] at hdenotes
  cases inner with
  | nil => exact (Crate.means_cons (h.item_ne_super hl htype.item)).trans hdenotes
  | cons next inner =>
    have hpre : refScope.types ++ [next] <+: type.scope.types := ⟨inner, by rw [← htypes]; simp⟩
    have hnext : TypeScope.Placed ⟨type.scope.file, refScope.types ++ [next]⟩ c.nodes :=
      (htype.placed h).around hpre
    exact (Crate.means_cons (h.item_ne_super hl hnext.item)).trans hdenotes

/-- From the module of a struct the path goes up to the types beside the struct. -/
lemma Crate.Valid.means_super_iff (href : refScope.Placed c.nodes) {last : ModScope}
    (htypes : refScope = ⟨type.scope.file, type.scope.types ++ [last]⟩) :
    c.Means refScope.module [superSegment, type.typeIdent] (.type id) ↔ ¬ Reserved type.scope type.typeIdent := by
  subst htypes
  obtain ⟨typeIdent, hmem⟩ := href.types type.scope.types last List.prefix_rfl
  have hparent : c.Parent (.struct last.id) type.scope.module := .struct hmem
  rw [TypeScope.module_concat, Crate.Means, if_pos rfl, ← h.added_iff hwhich (htype.placed h) htype.item,
    ← h.finds_iff htype.item]
  constructor
  · rintro ⟨m, hm, hdenotes⟩
    obtain rfl := h.parent_unique hm hparent
    exact Modules.denotes_singleton.1 hdenotes
  · exact fun hfinds => ⟨_, hparent, .last hfinds⟩

/-- A path that starts at the name for the file goes down from there. -/
lemma Crate.Valid.means_file_iff (href : refScope.Placed c.nodes) (hfile : refScope.file = type.scope.file) :
    c.Means refScope.module (fileSegment :: (type.scope.types.map ModScope.modIdent ++ [type.typeIdent])) (.type id) ↔
      c.Unhidden refScope fileSegment ∧ type.ClearFromFile := by
  rw [Crate.means_cons (by decide),
    Modules.denotes_cons (List.append_ne_nil_of_right_ne_nil _ (List.cons_ne_nil _ _)),
    ← h.denotes_file_iff hwhich htype, ← hfile]
  constructor
  · rintro ⟨e, m', hfinds, henters, hrest⟩
    obtain ⟨rfl, hun⟩ := (h.finds_used_iff href (.inl rfl)).1 hfinds
    cases henters
    exact ⟨hun, hrest⟩
  · rintro ⟨hun, hrest⟩
    exact ⟨_, _, (h.finds_used_iff href (.inl rfl)).2 ⟨rfl, hun⟩, rfl, hrest⟩

/-- A path that starts at the name for the imports goes through the file of the type. -/
lemma Crate.Valid.means_imports_iff (href : refScope.Placed c.nodes)
    (himport : type.scope.file.id ∈ c.imports refScope.file.id) :
    c.Means refScope.module (importsSegment :: type.scope.file.modIdent ::
      (type.scope.types.map ModScope.modIdent ++ [type.typeIdent])) (.type id) ↔
      c.Unhidden refScope importsSegment ∧ type.ClearFromFile := by
  obtain ⟨path, hmem⟩ := (htype.placed h).file
  rw [Crate.means_cons (by decide), Modules.denotes_cons (List.cons_ne_nil _ _), ← h.denotes_file_iff hwhich htype]
  have hbelow (e : Meaning) : (∃ d m', c.modules.Finds (.imports refScope.file.id) type.scope.file.modIdent d ∧
      c.modules.enters d m' ∧ c.modules.Denotes m'
        (type.scope.types.map ModScope.modIdent ++ [type.typeIdent]) e) ↔
      c.modules.Denotes (.outer type.scope.file.id)
        (type.scope.types.map ModScope.modIdent ++ [type.typeIdent]) e := by
    constructor
    · rintro ⟨d, m', hfinds, henters, hrest⟩
      obtain rfl := (h.finds_imports_iff himport hmem).1 hfinds
      cases henters
      exact hrest
    · exact fun hrest => ⟨_, _, (h.finds_imports_iff himport hmem).2 rfl, rfl, hrest⟩
  rw [← hbelow, ← Modules.denotes_cons (List.append_ne_nil_of_right_ne_nil _ (List.cons_ne_nil _ _))]
  constructor
  · rintro ⟨e, m', hfinds, henters, hrest⟩
    obtain ⟨rfl, hun⟩ := (h.finds_used_iff href (.inr rfl)).1 hfinds
    cases henters
    exact ⟨hun, hrest⟩
  · rintro ⟨hun, hrest⟩
    exact ⟨_, _, (h.finds_used_iff href (.inr rfl)).2 ⟨rfl, hun⟩, rfl, hrest⟩

/-- The path that is resolved means its type exactly if nothing is in its way. -/
lemma Crate.Valid.means_resolvePath_iff (hl : names.Lawful keyword) (href : refScope.Placed c.nodes)
    (himport : type.scope.file.id = refScope.file.id ∨ type.scope.file.id ∈ c.imports refScope.file.id) :
    c.Means refScope.module (type.resolvePath refScope) (.type id) ↔ c.Clear type refScope := by
  have hplaced := htype.placed h
  unfold TypeInfo.resolvePath Crate.Clear
  by_cases hids : refScope.ids = type.scope.ids
  · -- the type is in the scope
    have hfileId : refScope.file.id = type.scope.file.id := congrArg Prod.fst hids
    have htypes := h.types_eq href hplaced (congrArg Prod.snd hids)
    have hpre : refScope.ids.2 <+: type.scope.ids.2 := hids ▸ List.prefix_rfl
    rw [if_pos hids, if_pos hfileId, if_pos hpre]
    exact h.means_down_iff hwhich htype hl (h.file_eq href hplaced hfileId)
      ((List.append_nil _).trans htypes)
  · rw [if_neg hids]
    by_cases hfileId : refScope.file.id = type.scope.file.id
    · have hfile := h.file_eq href hplaced hfileId
      rw [if_pos hfileId, if_pos hfileId]
      by_cases hparent : refScope.types ≠ [] ∧
          type.scope.types.map ModScope.id = refScope.types.dropLast.map ModScope.id
      · -- the type is beside the struct that the scope is
        obtain ⟨outer, last, href'⟩ := (List.eq_nil_or_concat' refScope.types).resolve_left hparent.1
        have hid := hparent.2
        rw [href', List.dropLast_concat] at hid
        have houter : TypeScope.Placed ⟨refScope.file, outer⟩ c.nodes := href.around ⟨[last], href'.symm⟩
        have htypes : type.scope.types = outer := h.types_eq hplaced houter hid
        have hlong : ¬ refScope.ids.2 <+: type.scope.ids.2 := by
          intro hpre
          have hlen := hpre.length_le
          simp [TypeScope.ids, href', htypes] at hlen
        have hdrop : refScope.ids.2.dropLast = type.scope.ids.2 := by
          simp [TypeScope.ids, href', htypes]
        have hscope : refScope = ⟨type.scope.file, type.scope.types ++ [last]⟩ := by
          rw [htypes, ← href', ← hfile]
        rw [if_pos hparent, if_neg hlong, if_pos hdrop]
        exact h.means_super_iff hwhich htype href hscope
      · rw [if_neg hparent]
        cases hstrip : stripScopes type.scope.types refScope.types with
        | some inner =>
          -- the type is below the scope
          obtain ⟨before, htypes, hbefore⟩ := stripScopes_eq_some hstrip
          have hpre : refScope.ids.2 <+: type.scope.ids.2 := by
            rw [TypeScope.ids, TypeScope.ids, htypes, List.map_append, hbefore]
            exact List.prefix_append _ _
          have hplaced' : TypeScope.Placed ⟨type.scope.file, before⟩ c.nodes := hplaced.around ⟨inner, htypes.symm⟩
          have heq : before = refScope.types := h.types_eq hplaced' href hbefore
          rw [if_pos hpre]
          exact h.means_down_iff hwhich htype hl hfile (by rw [htypes, heq])
        | none =>
          have hpre : ¬ refScope.ids.2 <+: type.scope.ids.2 := stripScopes_eq_none hstrip
          have hdrop : refScope.ids.2.dropLast ≠ type.scope.ids.2 := by
            intro hdrop
            refine hparent ⟨fun hnil => hpre ?_, ?_⟩
            · simp [TypeScope.ids, hnil]
            · rw [List.map_dropLast]
              exact hdrop.symm
          rw [if_neg hpre, if_neg hdrop]
          exact h.means_file_iff hwhich htype href hfile
    · -- the type is in another file
      rw [if_neg hfileId, if_neg hfileId]
      exact h.means_imports_iff hwhich htype href (himport.resolve_left (Ne.symm hfileId))

end Forms

end Paths

/-- What is generated for a request, when every file imports these. -/
def GeneratorContext.crate (ctx : GeneratorContext) (imports : Id → List Id) : Crate := ⟨ctx.info, ctx.loader, imports⟩

section Resolved

variable {names : Spelling} {keyword : List Char → Prop} {loader : SchemaLoader} {ctx : GeneratorContext}
  {v : Validation}

lemma valid_crate (h : contextOf names loader = .ok ctx v) (imports : Id → List Id) :
    (ctx.crate imports).Valid names := by
  rcases contextOf_cases names loader with ⟨v', hv', hsound⟩ | ⟨stop, v', hstop⟩
  · obtain ⟨rfl, rfl⟩ := Outcome.ok.inj (h.symm.trans hv')
    exact ⟨⟨v.identifiers, told_of_new h⟩, hsound.nodup⟩
  · rw [h] at hstop
    cases hstop

/-- In the code for a request that is valid, the path to a type from any scope of the same file or of a file
that imports its file denotes exactly the type, if and only if nothing is in the way of the path. -/
theorem resolvePath_denotes_iff (hl : names.Lawful keyword) (hword : names.IsWord whichName)
    (hkeyword : ¬ keyword whichName) (h : contextOf names loader = .ok ctx v) (imports : Id → List Id) {id : Id}
    {type : TypeInfo} (htype : (ctx.crate imports).HasType id type) {refScope : TypeScope}
    (href : refScope.Placed ctx.info)
    (himport : type.scope.file.id = refScope.file.id ∨ type.scope.file.id ∈ imports refScope.file.id) :
    (∀ d, (ctx.crate imports).Means refScope.module (type.resolvePath refScope) d ↔ d = .type id) ↔
      (ctx.crate imports).Clear type refScope := by
  have hvalid := valid_crate h imports
  have hwhich := makeIdent_of_isWord hl hword hkeyword (by decide) ()
  rw [← hvalid.means_resolvePath_iff hwhich htype hl href himport]
  constructor
  · exact fun hall => (hall _).2 rfl
  · rintro hmeans d
    constructor
    · exact fun hd => hvalid.means_unique hd hmeans
    · rintro rfl
      exact hmeans

end Resolved

/-- A struct without fields. -/
def plainStruct (id : Id) (name : Name) (nested : List NestedNode) : Node :=
  ⟨id, ⟨some name⟩, nested, .ok (.struct ⟨0, 0, false, 0, 0, []⟩)⟩

/-- A file of the name with two structs `A` and `B`, and a struct `C` in `A`. -/
def nestedStructs (file : Name) : SchemaLoader where
  nodes := [⟨1, ⟨some file⟩, [⟨⟨some ['A']⟩, 2⟩, ⟨⟨some ['B']⟩, 4⟩], .ok .file⟩,
    plainStruct 2 ['A'] [⟨⟨some ['C']⟩, 3⟩], plainStruct 3 ['C'] [], plainStruct 4 ['B'] []]
  nodup := by
    simp only [plainStruct, List.map_cons, List.map_nil]
    decide

def nestedStructsInfo (file : Ident) (path : Name) : NodeInfoMap :=
  [(1, .file ⟨file, path⟩), (2, .struct ⟨⟨['A'], ⟨⟨1, file⟩, []⟩⟩, ['A', '_']⟩),
    (3, .struct ⟨⟨['C'], ⟨⟨1, file⟩, [⟨2, ['A', '_']⟩]⟩⟩, ['C', '_']⟩),
    (4, .struct ⟨⟨['B'], ⟨⟨1, file⟩, []⟩⟩, ['B', '_']⟩)]

lemma placed_nestedStructs (file : Ident) (path : Name) :
    TypeScope.Placed ⟨⟨1, file⟩, [⟨4, ['B', '_']⟩]⟩ (nestedStructsInfo file path) := by
  have hfile : ((1 : Id), NodeInfo.file ⟨file, path⟩) ∈ nestedStructsInfo file path := List.mem_cons_self
  have hstruct : ((4 : Id), NodeInfo.struct ⟨⟨['B'], .ofFile ⟨1, file⟩⟩, ['B', '_']⟩) ∈
      nestedStructsInfo file path := by
    simp [nestedStructsInfo, TypeScope.ofFile]
  exact (placed_ofFile hfile).push hstruct

/-- Another file may hold such structs. -/
theorem resolvePath_denotes_iff_nestedStructs :
    Crate.Means ⟨nestedStructsInfo ['F'] ['F', '.', 'r', 's'], nestedStructs ['F'], fun _ => []⟩
      (.struct 4) [fileSegment, ['A', '_'], ['C']] (.type 3) := by
  have h : contextOf latin (nestedStructs ['F']) =
      .ok ⟨nestedStructs ['F'], nestedStructsInfo ['F'] ['F', '.', 'r', 's']⟩ _ := rfl
  refine ((resolvePath_denotes_iff lawful_latin (by decide) (by decide) h (fun _ => [])
    (.inl ⟨['C', '_'], List.mem_cons_of_mem _ (List.mem_cons_of_mem _ List.mem_cons_self)⟩)
    (placed_nestedStructs _ _) (.inl rfl)).2 ?_ _).2 rfl
  have hun : Crate.Unhidden ⟨nestedStructsInfo ['F'] ['F', '.', 'r', 's'], nestedStructs ['F'], fun _ => []⟩
      ⟨⟨1, ['F']⟩, [⟨4, ['B', '_']⟩]⟩ fileSegment := by
    refine ⟨fun outer _ d hd => ?_, by decide⟩
    obtain ⟨id, info, scope, hmem, -, -, htakes, -⟩ := hd.takes
    have hall : ∀ e ∈ nestedStructsInfo ['F'] ['F', '.', 'r', 's'], ∀ t ∈ e.2.takes, t.2 ≠ fileSegment := by decide
    exact hall _ hmem _ htakes rfl
  refine (if_pos rfl).mpr ((if_neg (by decide)).mpr ((if_neg (by decide)).mpr ⟨hun, ⟨?_, by decide⟩, by decide⟩))
  intro before m _ hpre
  cases before with
  | nil =>
    obtain ⟨rfl, -⟩ := List.cons_prefix_cons.1 hpre
    decide
  | cons e before =>
    have hnil := List.prefix_nil.1 (List.cons_prefix_cons.1 hpre).2
    simp at hnil

/-- The file has a module of the same name as a struct in it, which hides the struct from the names in front
of the paths. -/
theorem not_resolvePath_denotes_nestedStructs : ¬ ∀ (names : Spelling) (keyword : List Char → Prop),
    names.Lawful keyword → names.IsWord whichName → ¬ keyword whichName → ∀ loader ctx v,
    contextOf names loader = .ok ctx v → ∀ (imports : Id → List Id) (id : Id) (type : TypeInfo),
    (ctx.crate imports).HasType id type → ∀ refScope : TypeScope, refScope.Placed ctx.info →
    (type.scope.file.id = refScope.file.id ∨ type.scope.file.id ∈ imports refScope.file.id) →
    ∀ d, (ctx.crate imports).Means refScope.module (type.resolvePath refScope) d ↔ d = .type id := by
  intro hall
  have h : contextOf latin (nestedStructs ['A', '_']) =
      .ok ⟨nestedStructs ['A', '_'], nestedStructsInfo ['A', '_'] ['A', '_', '.', 'r', 's']⟩ _ := rfl
  let type : TypeInfo := ⟨['C'], ⟨⟨1, ['A', '_']⟩, [⟨2, ['A', '_']⟩]⟩⟩
  have htype : (GeneratorContext.crate ⟨nestedStructs ['A', '_'],
      nestedStructsInfo ['A', '_'] ['A', '_', '.', 'r', 's']⟩ fun _ => []).HasType 3 type :=
    .inl ⟨['C', '_'], List.mem_cons_of_mem _ (List.mem_cons_of_mem _ List.mem_cons_self)⟩
  have hplaced := placed_nestedStructs ['A', '_'] ['A', '_', '.', 'r', 's']
  have hmeans := (hall latin _ lawful_latin (by decide) (by decide) _ _ _ h _ 3 type htype _ hplaced (.inl rfl) _).2 rfl
  have hclear := ((valid_crate h _).means_resolvePath_iff rfl htype lawful_latin hplaced (.inl rfl)).1 hmeans
  have hfile := (if_neg (by decide)).mp ((if_neg (by decide)).mp ((if_pos rfl).mp hclear))
  exact hfile.2.2 rfl

end Recapn.Codegen

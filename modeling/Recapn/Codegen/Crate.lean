/-
# The modules of generated code

A file becomes a module around another one.  The outer module has names for itself, for the files that are
imported and for the inner module, and opens the inner module with a glob.  The inner module has the items of
the file, and every struct has a module with its readers and builders, its union and its nested items.  All
of them use the names for the file and the imports.
-/
import Mathlib.Data.List.Induction
import Recapn.Codegen.Generation
import Recapn.Codegen.Scopes
import Recapn.Lib.Modules

namespace Recapn.Codegen

open Recapn.Lib Recapn.Lib.Prog

inductive Module where
  | outer (file : Id)
  | imports (file : Id)
  | inner (file : Id)
  | struct (id : Id)
deriving DecidableEq

/-- What a name of generated code stands for. -/
inductive Meaning where
  | module (m : Module)
  | type (id : Id)
  | reader (id : Id)
  | builder (id : Id)
  | which (id : Id)
  | prelude
deriving DecidableEq

def readerName : Ident := ['R', 'e', 'a', 'd', 'e', 'r']
def builderName : Ident := ['B', 'u', 'i', 'l', 'd', 'e', 'r']
def preludeSegment : Ident := ['_', 'p']

/-- The module that the items of a scope are in. -/
def TypeScope.module (scope : TypeScope) : Module :=
  match scope.types.getLast? with
  | none => .inner scope.file.id
  | some m => .struct m.id

/-- The code that is generated for what is recorded, with the files that every file imports. -/
structure Crate where
  nodes : NodeInfoMap
  loader : SchemaLoader
  imports : Id → List Id

namespace Crate

variable (c : Crate)

/-- The types of a module and the modules of its structs. -/
inductive Item : Module → Ident → Meaning → Prop
  | structType {id : Id} {info : StructInfo} (h : (id, .struct info) ∈ c.nodes) :
      Item info.typeInfo.scope.module info.typeInfo.typeIdent (.type id)
  | structModule {id : Id} {info : StructInfo} (h : (id, .struct info) ∈ c.nodes) :
      Item info.typeInfo.scope.module info.modIdent (.module (.struct id))
  | enumType {id : Id} {info : EnumInfo} (h : (id, .enum info) ∈ c.nodes) :
      Item info.typeInfo.scope.module info.typeInfo.typeIdent (.type id)

/-- What the templates add: `GeneratedRootFile`, `GeneratedFile` and `GeneratedStruct`. -/
inductive Adds : Module → Ident → Meaning → Prop
  | file {f : Id} {info : FileInfo} (h : (f, .file info) ∈ c.nodes) :
      Adds (.outer f) fileSegment (.module (.outer f))
  | imports {f : Id} {info : FileInfo} (h : (f, .file info) ∈ c.nodes) :
      Adds (.outer f) importsSegment (.module (.imports f))
  | inner {f : Id} {info : FileInfo} (h : (f, .file info) ∈ c.nodes) :
      Adds (.outer f) info.modIdent (.module (.inner f))
  | imported {f g : Id} {info : FileInfo} (hg : g ∈ c.imports f) (h : (g, .file info) ∈ c.nodes) :
      Adds (.imports f) info.modIdent (.module (.outer g))
  | innerPrelude {f : Id} {info : FileInfo} (h : (f, .file info) ∈ c.nodes) :
      Adds (.inner f) preludeSegment .prelude
  | innerUse {f : Id} {n : Ident} {d : Meaning} (hn : n = fileSegment ∨ n = importsSegment)
      (h : Adds (.outer f) n d) : Adds (.inner f) n d
  | reader {id : Id} {info : StructInfo} (h : (id, .struct info) ∈ c.nodes) :
      Adds (.struct id) readerName (.reader id)
  | builder {id : Id} {info : StructInfo} (h : (id, .struct info) ∈ c.nodes) :
      Adds (.struct id) builderName (.builder id)
  | which {id : Id} {info : StructInfo} (h : (id, .struct info) ∈ c.nodes) (hunion : c.loader.HasUnion id) :
      Adds (.struct id) whichName (.which id)
  | useItem {id : Id} {info : StructInfo} {n : Ident} {d : Meaning} (h : (id, .struct info) ∈ c.nodes)
      (hn : n = fileSegment ∨ n = importsSegment ∨ n = preludeSegment)
      (hd : Item c info.typeInfo.scope.module n d) : Adds (.struct id) n d
  | use {id : Id} {info : StructInfo} {n : Ident} {d : Meaning} (h : (id, .struct info) ∈ c.nodes)
      (hn : n = fileSegment ∨ n = importsSegment ∨ n = preludeSegment)
      (hd : Adds info.typeInfo.scope.module n d) : Adds (.struct id) n d

/-- The templates add something under the name. -/
def Added (m : Module) (n : Ident) : Prop := ∃ d, c.Adds m n d

/-- The names of all modules.  The items of the inner module are public, and what it uses is not.  An item
that is called like something that is used there is an error. -/
def modules : Modules Module Ident Meaning where
  declares m n d := c.Item m n d ∨ c.Adds m n d
  opens m n d := ∃ f, m = .outer f ∧ c.Item (.inner f) n d ∧ ¬ c.Added (.inner f) n
  enters d m := d = .module m

inductive Parent : Module → Module → Prop
  | inner {f : Id} : Parent (.inner f) (.outer f)
  | struct {id : Id} {info : StructInfo} (h : (id, .struct info) ∈ c.nodes) :
      Parent (.struct id) info.typeInfo.scope.module

/-- What a path means in a module. -/
def Means (m : Module) (path : Path) (d : Meaning) : Prop :=
  match path with
  | [] => False
  | first :: rest =>
    if first = superSegment then ∃ m', c.Parent m m' ∧ c.modules.Denotes m' rest d
    else c.modules.Denotes m (first :: rest) d

end Crate

/-! ## Items are told apart -/

/-- The code that is generated after validation. -/
structure Crate.Valid (names : Spelling) (c : Crate) : Prop where
  told : ∃ identifiers, Told names c.loader ⟨c.nodes, identifiers⟩
  keys : (c.nodes.map Prod.fst).Nodup

section Valid

variable {names : Spelling} {c : Crate} {m : Module} {n : Ident} {d d' : Meaning}

lemma Crate.Valid.eq_of_mem (h : c.Valid names) {id : Id} {info info' : NodeInfo} (hmem : (id, info) ∈ c.nodes)
    (hmem' : (id, info') ∈ c.nodes) : info = info' :=
  (Prod.mk.inj (List.inj_on_of_nodup_map h.keys hmem hmem' rfl)).2

lemma Crate.Valid.placed (h : c.Valid names) {id : Id} {info : NodeInfo} (hmem : (id, info) ∈ c.nodes)
    {scope : TypeScope} (hscope : info.scope = some scope) : scope.Placed c.nodes :=
  let ⟨_, htold⟩ := h.told
  htold.placed id info hmem scope hscope

/-- What is in the lists of two members is in those of one. -/
lemma eq_of_mem_flatMap {α β : Type} {f : α → List β} {l : List α} (hnodup : (l.flatMap f).Nodup) {a b : α}
    (ha : a ∈ l) (hb : b ∈ l) {x : β} (hxa : x ∈ f a) (hxb : x ∈ f b) : a = b := by
  induction l with
  | nil => cases ha
  | cons e l ih =>
    rw [List.flatMap_cons] at hnodup
    obtain ⟨-, hrest, hdisjoint⟩ := List.nodup_append.1 hnodup
    rcases List.mem_cons.1 ha with rfl | ha'
    · rcases List.mem_cons.1 hb with rfl | hb'
      · rfl
      · exact absurd rfl (hdisjoint x hxa x (List.mem_flatMap.2 ⟨b, hb', hxb⟩))
    · rcases List.mem_cons.1 hb with rfl | hb'
      · exact absurd rfl (hdisjoint x hxb x (List.mem_flatMap.2 ⟨a, ha', hxa⟩))
      · exact ih hrest ha' hb'

/-- An identifier of a scope is taken for one node. -/
lemma Crate.Valid.eq_of_takes (h : c.Valid names) {id id' : Id} {info info' : NodeInfo} (hmem : (id, info) ∈ c.nodes)
    (hmem' : (id', info') ∈ c.nodes) {t : Option (Id × List Id) × Ident} (ht : t ∈ info.takes)
    (ht' : t ∈ info'.takes) : id = id' ∧ info = info' :=
  let ⟨_, htold⟩ := h.told
  Prod.mk.inj (eq_of_mem_flatMap htold.nodup hmem hmem' ht ht')

/-- Scopes with the same module are the same. -/
lemma Crate.Valid.ids_of_module (h : c.Valid names) {s s' : TypeScope} (hs : s.Placed c.nodes)
    (hs' : s'.Placed c.nodes) (heq : s.module = s'.module) : s.ids = s'.ids := by
  obtain ⟨file, types⟩ := s
  obtain ⟨file', types'⟩ := s'
  rcases List.eq_nil_or_concat' types with rfl | ⟨outer, m, rfl⟩
  · rcases List.eq_nil_or_concat' types' with rfl | ⟨outer', m', rfl⟩
    · have hid : file.id = file'.id := by
        simpa [TypeScope.module] using heq
      simp [TypeScope.ids, hid]
    · simp [TypeScope.module] at heq
  · rcases List.eq_nil_or_concat' types' with rfl | ⟨outer', m', rfl⟩
    · simp [TypeScope.module] at heq
    · have hid : m.id = m'.id := by
        simpa [TypeScope.module] using heq
      obtain ⟨typeIdent, hmem⟩ := hs.types outer m List.prefix_rfl
      obtain ⟨typeIdent', hmem'⟩ := hs'.types outer' m' List.prefix_rfl
      rw [← hid] at hmem'
      have hinfo := h.eq_of_mem hmem hmem'
      simp only [NodeInfo.struct.injEq, StructInfo.mk.injEq, TypeInfo.mk.injEq, TypeScope.mk.injEq] at hinfo
      obtain ⟨⟨-, rfl, rfl⟩, -⟩ := hinfo
      simp [TypeScope.ids, hid]

/-- An item is that of a node that is recorded. -/
lemma Crate.Item.takes (hd : c.Item m n d) : ∃ id info scope, (id, info) ∈ c.nodes ∧ info.scope = some scope ∧
    scope.module = m ∧ (some scope.ids, n) ∈ info.takes ∧ (d = .type id ∨ d = .module (.struct id)) := by
  cases hd with
  | structType h => exact ⟨_, _, _, h, rfl, rfl, List.mem_cons_self, .inl rfl⟩
  | structModule h =>
    exact ⟨_, _, _, h, rfl, rfl, List.mem_cons_of_mem _ (List.mem_singleton_self _), .inr rfl⟩
  | enumType h => exact ⟨_, _, _, h, rfl, rfl, List.mem_singleton_self _, .inl rfl⟩

/-- The type of a struct is not called like its module. -/
lemma Crate.Valid.not_both (h : c.Valid names) {id : Id} (hd : c.Item m n (.type id))
    (hd' : c.Item m n (.module (.struct id))) : False := by
  obtain ⟨identifiers, htold⟩ := h.told
  generalize htype : Meaning.type id = type at hd
  generalize hmodule : Meaning.module (.struct id) = module at hd'
  generalize hm : m = m' at hd'
  generalize hn : n = n' at hd'
  cases hd with
  | structType hmem =>
    cases htype
    cases hd' with
    | structType => cases hmodule
    | enumType => cases hmodule
    | structModule hmem' =>
      cases hmodule
      obtain rfl := NodeInfo.struct.inj (h.eq_of_mem hmem hmem')
      have hnodup := (List.nodup_flatMap.1 htold.nodup).1 _ hmem
      refine (List.nodup_cons.1 hnodup).1 ?_
      rw [hn]
      exact List.mem_singleton_self _
  | structModule => cases htype
  | enumType hmem =>
    cases htype
    cases hd' with
    | structType => cases hmodule
    | enumType => cases hmodule
    | structModule hmem' =>
      cases hmodule
      cases h.eq_of_mem hmem hmem'

/-- A name means one item of a module. -/
lemma Crate.Valid.item_unique (h : c.Valid names) (hd : c.Item m n d) (hd' : c.Item m n d') : d = d' := by
  obtain ⟨id, info, scope, hmem, hscope, hmodule, htakes, hkind⟩ := hd.takes
  obtain ⟨id', info', scope', hmem', hscope', hmodule', htakes', hkind'⟩ := hd'.takes
  have hids := h.ids_of_module (h.placed hmem hscope) (h.placed hmem' hscope') (hmodule.trans hmodule'.symm)
  rw [← hids] at htakes'
  obtain ⟨rfl, rfl⟩ := h.eq_of_takes hmem hmem' htakes htakes'
  rcases hkind with rfl | rfl
  · rcases hkind' with rfl | rfl
    · rfl
    · exact (h.not_both hd hd').elim
  · rcases hkind' with rfl | rfl
    · exact (h.not_both hd' hd).elim
    · rfl

/-! ## What the templates add is no item -/

/-- A type, or the module of a struct. -/
def Meaning.IsItem : Meaning → Prop
  | .type _ => True
  | .module (.struct _) => True
  | _ => False

lemma Crate.Item.isItem (hd : c.Item m n d) : d.IsItem := by
  cases hd <;> trivial

lemma TypeScope.Placed.outer {file : ModScope} {outer : List ModScope} {last : ModScope} {nodes : NodeInfoMap}
    (h : TypeScope.Placed ⟨file, outer ++ [last]⟩ nodes) : TypeScope.Placed ⟨file, outer⟩ nodes where
  file := h.file
  types before m hpre := h.types before m (hpre.trans (List.prefix_append _ _))

lemma TypeScope.module_concat (file : ModScope) (outer : List ModScope) (last : ModScope) :
    TypeScope.module ⟨file, outer ++ [last]⟩ = .struct last.id := by
  simp [TypeScope.module]

/-- What every module uses: the names for the file and the imports, and the prelude. -/
def Used (n : Ident) : Prop := n = fileSegment ∨ n = importsSegment ∨ n = preludeSegment

/-- What is used in the inner module of a file is used in every module below it. -/
lemma Crate.Adds.everywhere {scope : TypeScope} (hn : Used n) (h : c.Adds (.inner scope.file.id) n d)
    (hs : scope.Placed c.nodes) : c.Adds scope.module n d := by
  obtain ⟨file, types⟩ := scope
  induction types using List.reverseRecOn with
  | nil => exact h
  | append_singleton outer last ih =>
    obtain ⟨typeIdent, hmem⟩ := hs.types outer last List.prefix_rfl
    rw [TypeScope.module_concat]
    exact .use hmem hn (ih h hs.outer)

/-- The names that are used everywhere stand for something that is no item. -/
lemma Crate.exists_adds_of_used {scope : TypeScope} (hn : Used n) (hs : scope.Placed c.nodes) :
    ∃ d, c.Adds scope.module n d ∧ ¬ d.IsItem := by
  obtain ⟨path, hfile⟩ := hs.file
  rcases hn with rfl | rfl | rfl
  · exact ⟨_, .everywhere (.inl rfl) (.innerUse (.inl rfl) (.file hfile)) hs, id⟩
  · exact ⟨_, .everywhere (.inr (.inl rfl)) (.innerUse (.inr rfl) (.imports hfile)) hs, id⟩
  · exact ⟨_, .everywhere (.inr (.inr rfl)) (.innerPrelude hfile) hs, id⟩

lemma Crate.Valid.exists_other (h : c.Valid names) (hd : c.Adds m n d) : ∃ d', c.Adds m n d' ∧ ¬ d'.IsItem := by
  induction hd with
  | file hf => exact ⟨_, .file hf, id⟩
  | imports hf => exact ⟨_, .imports hf, id⟩
  | inner hf => exact ⟨_, .inner hf, id⟩
  | imported hg hf => exact ⟨_, .imported hg hf, id⟩
  | innerPrelude hf => exact ⟨_, .innerPrelude hf, id⟩
  | innerUse hn _ ih => exact ih.imp fun d' hd' => ⟨.innerUse hn hd'.1, hd'.2⟩
  | reader hs => exact ⟨_, .reader hs, id⟩
  | builder hs => exact ⟨_, .builder hs, id⟩
  | which hs hunion => exact ⟨_, .which hs hunion, id⟩
  | useItem hs hn _ =>
    exact (Crate.exists_adds_of_used hn (h.placed hs rfl)).imp fun d' hd' => ⟨.use hs hn hd'.1, hd'.2⟩
  | use hs hn _ ih => exact ih.imp fun d' hd' => ⟨.use hs hn hd'.1, hd'.2⟩

/-- An item is found in its module unless the templates add something under its name. -/
lemma Crate.Valid.finds_iff (h : c.Valid names) (hd : c.Item m n d) : c.modules.Finds m n d ↔ ¬ c.Added m n := by
  constructor
  · rintro hfinds ⟨e, he⟩
    obtain ⟨d', hd', hitem⟩ := h.exists_other he
    have heq := (hfinds.of_declares (.inl hd)).2 d' (.inr hd')
    rw [heq] at hitem
    exact hitem hd.isItem
  · intro hadded
    refine .inl ⟨.inl hd, fun d' hd' => ?_⟩
    rcases hd' with hd' | hd'
    · exact h.item_unique hd' hd
    · exact absurd ⟨d', hd'⟩ hadded

lemma TypeScope.module_ne_outer (scope : TypeScope) (f : Id) : scope.module ≠ .outer f := by
  unfold TypeScope.module
  split <;> nofun

lemma Crate.not_item_outer {f : Id} : ¬ c.Item (.outer f) n d := by
  intro hd
  obtain ⟨_, _, scope, -, -, hmodule, -⟩ := hd.takes
  exact scope.module_ne_outer f hmodule

lemma Crate.not_isItem_of_adds_outer {f : Id} (hd : c.Adds (.outer f) n d) : ¬ d.IsItem := by
  cases hd <;> exact id

/-- An item of a file is found through the glob, unless something in either module is called like it. -/
lemma Crate.Valid.finds_outer_iff (h : c.Valid names) {f : Id} (hd : c.Item (.inner f) n d) :
    c.modules.Finds (.outer f) n d ↔ ¬ c.Added (.outer f) n ∧ ¬ c.Added (.inner f) n := by
  have hnone (hdeclares : c.modules.declares (.outer f) n d) : False :=
    hdeclares.elim Crate.not_item_outer fun hd' => Crate.not_isItem_of_adds_outer hd' hd.isItem
  constructor
  · rintro (⟨hdeclares, -⟩ | ⟨hshadow, ⟨f', hf, -, hinner⟩, -⟩)
    · exact (hnone hdeclares).elim
    · cases hf
      exact ⟨fun ⟨e, he⟩ => hshadow e (.inr he), hinner⟩
  · rintro ⟨houter, hinner⟩
    refine Modules.finds_of_opens (fun d' hd' => ?_) ⟨f, rfl, hd, hinner⟩ fun d' hd' => ?_
    · exact hd'.elim Crate.not_item_outer fun hd' => houter ⟨d', hd'⟩
    · obtain ⟨f', hf', hd', -⟩ := hd'
      cases hf'
      exact h.item_unique hd' hd

/-! ### The names for the file and the imports -/

/-- No struct around the scope declares the name, and the file is not called so. -/
def Crate.Unhidden (c : Crate) (scope : TypeScope) (n : Ident) : Prop :=
  (∀ outer, outer <+: scope.types → ∀ d, ¬ c.Item (TypeScope.module ⟨scope.file, outer⟩) n d) ∧
    scope.file.modIdent ≠ n

/-- What a struct around the scope declares is used in the scope. -/
lemma Crate.declares_below {scope : TypeScope} (hn : Used n) (hs : scope.Placed c.nodes) {outer : List ModScope}
    (hpre : outer <+: scope.types) (hd : c.Item (TypeScope.module ⟨scope.file, outer⟩) n d) :
    c.Item scope.module n d ∨ c.Adds scope.module n d := by
  obtain ⟨file, types⟩ := scope
  induction types using List.reverseRecOn with
  | nil =>
    obtain rfl := List.prefix_nil.1 hpre
    exact .inl hd
  | append_singleton types last ih =>
    rcases List.prefix_concat_iff.1 hpre with rfl | hpre
    · exact .inl hd
    · obtain ⟨typeIdent, hmem⟩ := hs.types types last List.prefix_rfl
      rw [TypeScope.module_concat]
      rcases ih hs.outer hpre hd with hitem | hadds
      · exact .inr (.useItem hmem hn hitem)
      · exact .inr (.use hmem hn hadds)

/-- What the outer module has under a name for itself or for the imports, unless the file is called so. -/
def outerMeaning (f : Id) (n : Ident) : Meaning :=
  if n = fileSegment then .module (.outer f) else .module (.imports f)

lemma Crate.adds_outer_iff {f : Id} {modIdent : Ident} {path : Name} (h : c.Valid names)
    (hfile : (f, .file ⟨modIdent, path⟩) ∈ c.nodes) (hn : n = fileSegment ∨ n = importsSegment) :
    c.Adds (.outer f) n d ↔ d = outerMeaning f n ∨ modIdent = n ∧ d = .module (.inner f) := by
  constructor
  · intro hd
    generalize hm : Module.outer f = m at hd
    cases hd with
    | file =>
      cases hm
      exact .inl rfl
    | imports =>
      refine .inl ?_
      cases hm
      rfl
    | inner hmem =>
      cases hm
      cases h.eq_of_mem hfile hmem
      exact .inr ⟨rfl, rfl⟩
    | _ => cases hm
  · rintro (rfl | ⟨rfl, rfl⟩)
    · rcases hn with rfl | rfl
      · exact .file hfile
      · exact .imports hfile
    · exact .inner hfile

lemma Crate.Unhidden.outer {file last : ModScope} {outer : List ModScope}
    (h : c.Unhidden ⟨file, outer ++ [last]⟩ n) : c.Unhidden ⟨file, outer⟩ n :=
  ⟨fun before hpre => h.1 before (hpre.trans (List.prefix_append _ _)), h.2⟩

/-- Unless it is hidden, such a name stands for one thing. -/
lemma Crate.Valid.eq_of_declares (h : c.Valid names) {scope : TypeScope} (hs : scope.Placed c.nodes)
    (hn : n = fileSegment ∨ n = importsSegment) (hun : c.Unhidden scope n)
    (hd : c.Item scope.module n d ∨ c.Adds scope.module n d) : d = outerMeaning scope.file.id n := by
  obtain ⟨file, types⟩ := scope
  induction types using List.reverseRecOn with
  | nil =>
    have hadds := hd.resolve_left (hun.1 [] List.prefix_rfl d)
    obtain ⟨path, hfile⟩ := hs.file
    generalize hm : TypeScope.module ⟨file, []⟩ = m at hadds
    cases hadds with
    | innerPrelude => rcases hn with hn | hn <;> cases hn
    | innerUse _ hout =>
      cases hm
      rcases (Crate.adds_outer_iff h hfile hn).1 hout with heq | ⟨hname, -⟩
      · exact heq
      · exact absurd hname hun.2
    | _ => cases hm
  | append_singleton outer last ih =>
    have hadds := hd.resolve_left (hun.1 _ List.prefix_rfl d)
    obtain ⟨typeIdent, hmem⟩ := hs.types outer last List.prefix_rfl
    rw [TypeScope.module_concat] at hadds
    generalize hm : Module.struct last.id = m at hadds
    cases hadds with
    | reader => rcases hn with hn | hn <;> cases hn
    | builder => rcases hn with hn | hn <;> cases hn
    | which => rcases hn with hn | hn <;> cases hn
    | useItem hstruct _ hitem =>
      cases hm
      obtain rfl := NodeInfo.struct.inj (h.eq_of_mem hmem hstruct)
      exact absurd hitem (hun.outer.1 outer List.prefix_rfl d)
    | use hstruct _ hrest =>
      cases hm
      obtain rfl := NodeInfo.struct.inj (h.eq_of_mem hmem hstruct)
      exact ih hs.outer hun.outer (.inr hrest)
    | _ => cases hm

lemma used_of_segment (hn : n = fileSegment ∨ n = importsSegment) : Used n :=
  hn.elim .inl fun h => .inr (.inl h)

lemma not_isItem_outerMeaning (f : Id) (n : Ident) : ¬ (outerMeaning f n).IsItem := by
  unfold outerMeaning
  split <;> exact id

/-- The names for the file and the imports are found unless they are hidden. -/
lemma Crate.Valid.finds_used_iff (h : c.Valid names) {scope : TypeScope} (hs : scope.Placed c.nodes)
    (hn : n = fileSegment ∨ n = importsSegment) :
    c.modules.Finds scope.module n d ↔ d = outerMeaning scope.file.id n ∧ c.Unhidden scope n := by
  obtain ⟨path, hfile⟩ := hs.file
  have hmeaning : c.Adds scope.module n (outerMeaning scope.file.id n) :=
    .everywhere (used_of_segment hn) (.innerUse hn ((Crate.adds_outer_iff h hfile hn).2 (.inl rfl))) hs
  constructor
  · intro hfinds
    obtain ⟨rfl, hall⟩ := hfinds.of_declares (.inr hmeaning)
    refine ⟨rfl, fun outer hpre d' hd' => ?_, fun hname => ?_⟩
    · have heq := hall d' (Crate.declares_below (used_of_segment hn) hs hpre hd')
      rw [heq] at hd'
      exact not_isItem_outerMeaning _ _ hd'.isItem
    · have hinner : c.Adds scope.module n (.module (.inner scope.file.id)) :=
        .everywhere (used_of_segment hn) (.innerUse hn ((Crate.adds_outer_iff h hfile hn).2 (.inr ⟨hname, rfl⟩))) hs
      have heq := hall _ (.inr hinner)
      unfold outerMeaning at heq
      split at heq <;> cases heq
  · rintro ⟨rfl, hun⟩
    exact .inl ⟨.inr hmeaning, fun d' hd' => h.eq_of_declares hs hn hun hd'⟩

end Valid

end Recapn.Codegen

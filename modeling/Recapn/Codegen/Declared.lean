/-
# What generated code declares

In every module the types and modules of the items are told apart from each other.  What is left are the names
that the templates add.  Of those only the name of the union is kept off the items, so one of the others is
declared by an item as soon as an item asks for it.
-/
import Recapn.Codegen.Filed
import Recapn.Codegen.Paths

namespace Recapn.Codegen

open Recapn.Lib Recapn.Lib.Prog

/-! ## What is declared in generated code -/

/-- The names that are used in every module. -/
def usedNames : List Ident := [fileSegment, importsSegment, preludeSegment]

/-- The names of the templates in the module of a struct, besides the union. -/
def structNames : List Ident := usedNames ++ [readerName, builderName]

/-- The accessor of the union. -/
def whichAccessor : Ident := ['w', 'h', 'i', 'c', 'h']

/-- The types and modules that an item declares. -/
def GeneratedItem.declares : GeneratedItem → List Ident
  | .struct generated => [generated.ident, generated.modIdent]
  | .enum generated => [generated.name]
  | .const _ => []

namespace GeneratedStruct

variable (generated : GeneratedStruct GeneratedItem)

/-- The types and modules that are declared in the module of a struct. -/
def declares : List Ident :=
  structNames ++ (if generated.which.isSome then [whichName] else []) ++
    generated.nestedItems.flatMap GeneratedItem.declares

def whichAccessors : List Ident := if generated.which.isSome then [whichAccessor] else []

/-- The functions of the reader. -/
def readerFunctions : List Ident :=
  (allFields generated.fields generated.which).map GeneratedField.accessorIdent ++ generated.whichAccessors

/-- The functions of the builder. -/
def builderFunctions : List Ident :=
  (allFields generated.fields generated.which).map GeneratedField.accessorIdent ++
    (allFields generated.fields generated.which).filterMap GeneratedField.ownAccessorIdent ++ generated.whichAccessors

end GeneratedStruct

/-- No two names of the code that is generated for an item collide. -/
inductive GeneratedItem.Apart : GeneratedItem → Prop
  | struct {generated : GeneratedStruct GeneratedItem} (hdeclares : generated.declares.Nodup)
      (hreader : generated.readerFunctions.Nodup) (hbuilder : generated.builderFunctions.Nodup)
      (hvariants : ∀ which ∈ generated.which, (which.fields.map GeneratedVariant.discriminantIdent).Nodup)
      (hnested : ∀ item ∈ generated.nestedItems, Apart item) : Apart (.struct generated)
  | enum {generated : GeneratedEnum} (henumerants : generated.enumerants.Nodup) : Apart (.enum generated)
  | const {generated : GeneratedConst} : Apart (.const generated)

/-- No two names of a generated file collide. -/
structure GeneratedFile.Apart (generated : GeneratedFile) : Prop where
  declares : (usedNames ++ generated.items.flatMap GeneratedItem.declares).Nodup
  items : ∀ item ∈ generated.items, item.Apart

/-- No two names of the module around a generated file collide, and no two of its imports. -/
structure GeneratedRootFile.Apart (generated : GeneratedRootFile) : Prop where
  declares : [generated.ident, fileSegment, importsSegment].Nodup
  imports : generated.imports.Nodup

/-! ## What items ask for -/

/-- The names of the types and modules of an item. -/
def NestedItem.typeNames (names : Spelling) (name : Name) : NestedItem → List Name
  | .struct _ => [names.asPascalCase name, names.asSnakeCase name]
  | .enum _ => [names.asPascalCase name]
  | _ => []

/-- An item of the node asks for the identifier. -/
def SchemaLoader.Asks (names : Spelling) (loader : SchemaLoader) (parent : Node) (w : Ident) : Prop :=
  ∃ text item name, loader.Child parent text item ∧ text.asStr = some name ∧
    ∃ asked ∈ item.typeNames names name, Tried names asked w

/-- No item of the node asks for a name that is reserved. -/
def SchemaLoader.Free (names : Spelling) (loader : SchemaLoader) (parent : Node) (reserved : List Ident) : Prop :=
  ∀ w ∈ reserved, ¬ loader.Asks names parent w

/-- No item of the struct asks for a name of the templates, and no field for that of the accessor of the union. -/
structure StructSchema.Free (names : Spelling) (loader : SchemaLoader) (schema : StructSchema) : Prop where
  items : loader.Free names schema.node structNames
  fields : schema.HasVariants → ∀ field ∈ schema.info.fields, ∀ name ∈ accessorNames names loader field,
    ¬ Tried names name whichAccessor

/-- The struct is below the node. -/
inductive SchemaLoader.Under (loader : SchemaLoader) : Node → StructSchema → Prop
  | child {parent : Node} {text : Text} {schema : StructSchema} (h : loader.Child parent text (.struct schema)) :
      Under loader parent schema
  | deeper {parent : Node} {text : Text} {schema inner : StructSchema}
      (h : loader.Child parent text (.struct schema)) (hinner : Under loader schema.node inner) :
      Under loader parent inner

/-- No name collides in the struct, or in one below it. -/
def StructSchema.Clean (names : Spelling) (loader : SchemaLoader) (schema : StructSchema) : Prop :=
  schema.Free names loader ∧ ∀ inner, loader.Under schema.node inner → inner.Free names loader

lemma forall_under_iff {loader : SchemaLoader} {parent : Node} {P : StructSchema → Prop} :
    (∀ inner, loader.Under parent inner → P inner) ↔
      ∀ text schema, loader.Child parent text (.struct schema) →
        P schema ∧ ∀ inner, loader.Under schema.node inner → P inner := by
  constructor
  · exact fun h text schema hchild => ⟨h schema (.child hchild), fun inner hinner => h inner (.deeper hchild hinner)⟩
  · intro h inner hunder
    cases hunder with
    | child hchild => exact (h _ _ hchild).1
    | deeper hchild hinner => exact (h _ _ hchild).2 inner hinner

/-! ## What is recorded of an item -/

/-- The types and modules of a node. -/
def NodeInfo.declares : NodeInfo → List Ident
  | .struct info => [info.typeInfo.typeIdent, info.modIdent]
  | .enum info => [info.typeInfo.typeIdent]
  | _ => []

def declaredOf (nodes : NodeInfoMap) (item : NestedItem) : List Ident :=
  ((nodes.lookup item.node.id).map NodeInfo.declares).getD []

/-- What validation leaves, with a spelling that never gives a constant a name of the templates. -/
structure Checked (names : Spelling) (loader : SchemaLoader) (v : Validation) : Prop where
  told : Told names loader v
  keys : (v.nodes.map Prod.fst).Nodup
  sourced : Sourced names loader v
  which : Tried names whichName whichName
  shouty : ∀ name, ∀ w ∈ structNames, ¬ Tried names (names.asShoutySnakeCase name) w

/-- What is recorded of an item that is on file: all that it takes is in the scope, and it is declared or taken
for a constant. -/
structure Kept (names : Spelling) (v : Validation) (scope : TypeScope) (text : Text) (item : NestedItem)
    (info : NodeInfo) : Prop where
  mem : (item.node.id, info) ∈ v.nodes
  declares : (info.declares.map fun w => (some scope.ids, w)).Sublist info.takes
  made : ∀ w ∈ info.declares, ∃ name, text.asStr = some name ∧ ∃ asked ∈ item.typeNames names name, Made names asked w
  others : ∀ w, (some scope.ids, w) ∈ info.takes →
    w ∈ info.declares ∨ ∃ name, Made names (names.asShoutySnakeCase name) w
  first : ∀ name, text.asStr = some name → ∀ asked ∈ item.typeNames names name, ∀ w, Tried names asked w →
    (some scope.ids, w) ∈ v.identifiers

section Declared

variable {names : Spelling} {loader : SchemaLoader} {v : Validation} {scope : TypeScope} {text : Text}
  {item : NestedItem} {parent : Node} {items : List NestedItem} {w : Ident}

lemma Filed.kept (h : Filed names loader v scope text item) : ∃ info, Kept names v scope text item info := by
  cases h with
  | @struct _ _ name schema typeIdent modIdent hname hmem htype hmod hbelow =>
    refine ⟨_, hmem, List.Sublist.refl _, fun w hw => ⟨name, hname, ?_⟩, fun w hw => .inl ?_, ?_⟩
    · rcases List.mem_cons.1 hw with rfl | hw
      · exact ⟨_, List.mem_cons_self, htype.made⟩
      · rw [List.mem_singleton.1 hw]
        exact ⟨_, List.mem_cons_of_mem _ List.mem_cons_self, hmod.made⟩
    · simpa [NodeInfo.takes, NodeInfo.declares] using hw
    · intro name' hname' asked hasked w hw
      obtain rfl := Option.mem_unique hname hname'
      rcases List.mem_cons.1 hasked with rfl | hasked
      · exact htype.first w hw
      · rw [List.mem_singleton.1 hasked] at hw
        exact hmod.first w hw
  | @enum _ _ name schema typeIdent enumerants hname hmem htype henumerants =>
    refine ⟨_, hmem, List.Sublist.refl _, fun w hw => ⟨name, hname, ?_⟩, fun w hw => .inl ?_, ?_⟩
    · rw [List.mem_singleton.1 hw]
      exact ⟨_, List.mem_cons_self, htype.made⟩
    · simpa [NodeInfo.takes, NodeInfo.declares] using hw
    · intro name' hname' asked hasked w hw
      obtain rfl := Option.mem_unique hname hname'
      rw [List.mem_singleton.1 hasked] at hw
      exact htype.first w hw
  | @const _ _ name schema ident hname hmem hident =>
    refine ⟨_, hmem, List.nil_sublist _, nofun, fun w hw => .inr ⟨name, ?_⟩, nofun⟩
    obtain rfl : w = ident := by simpa [NodeInfo.takes] using hw
    exact hident.made
  | interface hmem | annotationDecl hmem => exact ⟨_, hmem, List.nil_sublist _, nofun, nofun, nofun⟩

lemma declaredOf_eq {nodes : NodeInfoMap} (hkeys : (nodes.map Prod.fst).Nodup) (item : NestedItem) {info : NodeInfo}
    (hmem : (item.node.id, info) ∈ nodes) : declaredOf nodes item = info.declares := by
  rw [declaredOf, (lookup_eq_some_iff hkeys).2 hmem]
  rfl

lemma Kept.declaredOf_eq {info : NodeInfo} (h : Kept names v scope text item info)
    (hchecked : Checked names loader v) : declaredOf v.nodes item = info.declares :=
  Codegen.declaredOf_eq hchecked.keys item h.mem

lemma Kept.mem_takes {info : NodeInfo} (h : Kept names v scope text item info) (hw : w ∈ info.declares) :
    (some scope.ids, w) ∈ info.takes := h.declares.subset (List.mem_map_of_mem hw)

/-- The names of the templates are made only when they are tried. -/
lemma getLast_of_structNames (hw : w ∈ structNames) : w.getLast? ≠ some '_' := by
  have hall : ∀ w ∈ structNames, w.getLast? ≠ some '_' := by decide
  exact hall w hw

variable (hchecked : Checked names loader v) (hitems : ∀ item, item ∈ items ↔ ∃ text, loader.Child parent text item)
  (hfiled : ∀ text item, loader.Child parent text item → Filed names loader v scope text item)

include hchecked hitems hfiled

/-- A name of the templates is declared by an item exactly if an item asks for it. -/
lemma mem_declared_iff (hparent : loader.get (parentId scope.ids) = some parent) (hw : w ∈ structNames) :
    w ∈ items.flatMap (declaredOf v.nodes) ↔ loader.Asks names parent w := by
  have hlast := getLast_of_structNames hw
  constructor
  · intro hdeclared
    obtain ⟨item, hitem, hdeclared⟩ := List.mem_flatMap.1 hdeclared
    obtain ⟨text, hchild⟩ := (hitems item).1 hitem
    obtain ⟨info, hkept⟩ := (hfiled text item hchild).kept
    rw [hkept.declaredOf_eq hchecked] at hdeclared
    obtain ⟨name, hname, asked, hasked, hmade⟩ := hkept.made w hdeclared
    exact ⟨text, item, name, hchild, hname, asked, hasked, hmade.tried hlast⟩
  · rintro ⟨text, item, name, hchild, hname, asked, hasked, htried⟩
    obtain ⟨info, hkept⟩ := (hfiled text item hchild).kept
    -- by now the identifier is taken in the scope, for an item of the same node
    rcases hchecked.sourced _ w (hkept.first name hname asked hasked w htried) with hwhich | hsource
    · obtain rfl := Tried.unique (hwhich.tried hlast) hchecked.which
      exact absurd hw (by decide)
    · obtain ⟨parent', text', item', info', hparent', hchild', hmem', htakes⟩ := hsource
      obtain rfl := Option.mem_unique hparent hparent'
      obtain ⟨info'', hkept'⟩ := (hfiled text' item' hchild').kept
      obtain rfl := (Prod.mk.inj (List.inj_on_of_nodup_map hchecked.keys hmem' hkept'.mem rfl)).2
      refine List.mem_flatMap.2 ⟨item', (hitems item').2 ⟨text', hchild'⟩, ?_⟩
      rw [hkept'.declaredOf_eq hchecked]
      rcases hkept'.others w htakes with hdeclared | ⟨name', hconst⟩
      · exact hdeclared
      · exact absurd (hconst.tried hlast) (hchecked.shouty name' w hw)

/-- What the items of a node declare is told apart. -/
lemma nodup_declared (hids : (items.map fun item => item.node.id).Nodup) :
    (items.flatMap (declaredOf v.nodes)).Nodup := by
  rw [List.nodup_flatMap]
  constructor
  · intro item hitem
    obtain ⟨text, hchild⟩ := (hitems item).1 hitem
    obtain ⟨info, hkept⟩ := (hfiled text item hchild).kept
    rw [hkept.declaredOf_eq hchecked]
    have htakes : info.takes.Nodup := (List.nodup_flatMap.1 hchecked.told.nodup).1 _ hkept.mem
    exact (htakes.sublist hkept.declares).of_map _
  · refine (List.pairwise_map.1 hids).imp_of_mem fun {item item'} hitem hitem' hne w hw hw' => hne ?_
    obtain ⟨text, hchild⟩ := (hitems item).1 hitem
    obtain ⟨info, hkept⟩ := (hfiled text item hchild).kept
    obtain ⟨text', hchild'⟩ := (hitems item').1 hitem'
    obtain ⟨info', hkept'⟩ := (hfiled text' item' hchild').kept
    rw [hkept.declaredOf_eq hchecked] at hw
    rw [hkept'.declaredOf_eq hchecked] at hw'
    exact (Prod.mk.inj (eq_of_mem_flatMap hchecked.told.nodup hkept.mem hkept'.mem (hkept.mem_takes hw)
      (hkept'.mem_takes hw'))).1

/-- In the module of a struct no item is called like the union. -/
lemma which_not_declared (hwhich : (some scope.ids, whichName) ∉ v.takes) :
    whichName ∉ items.flatMap (declaredOf v.nodes) := by
  intro hdeclared
  obtain ⟨item, hitem, hdeclared⟩ := List.mem_flatMap.1 hdeclared
  obtain ⟨text, hchild⟩ := (hitems item).1 hitem
  obtain ⟨info, hkept⟩ := (hfiled text item hchild).kept
  rw [hkept.declaredOf_eq hchecked] at hdeclared
  exact hwhich (List.mem_flatMap.2 ⟨_, hkept.mem, hkept.mem_takes hdeclared⟩)

/-- Names of the templates that are different are told apart from the items exactly if no item asks for one. -/
lemma nodup_append_declared_iff (hparent : loader.get (parentId scope.ids) = some parent)
    (hids : (items.map fun item => item.node.id).Nodup) {reserved : List Ident} (hreserved : reserved.Nodup)
    (hsub : reserved ⊆ structNames) :
    (reserved ++ items.flatMap (declaredOf v.nodes)).Nodup ↔ loader.Free names parent reserved := by
  rw [List.nodup_append]
  constructor
  · rintro ⟨-, -, hne⟩ w hw hasks
    exact hne w hw w ((mem_declared_iff hchecked hitems hfiled hparent (hsub hw)).2 hasks) rfl
  · intro hfree
    refine ⟨hreserved, nodup_declared hchecked hitems hfiled hids, ?_⟩
    rintro w hw _ hdeclared rfl
    exact hfree w hw ((mem_declared_iff hchecked hitems hfiled hparent (hsub hw)).1 hdeclared)

end Declared

end Recapn.Codegen

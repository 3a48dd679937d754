/-
# Items on file

What validation leaves of an item, and of everything below it: the item is recorded in the scope that it is
validated in, with identifiers that are made for its name, and the ones that were tried first are taken in
the scope by then.  Nothing else takes identifiers in a scope but the items of one node, and the union.
-/
import Recapn.Codegen.FileOrder
import Recapn.Codegen.Members

namespace Recapn.Codegen

open Recapn.Lib Recapn.Lib.Prog

/-- A nested item of a node, or the group of one of its fields, with its name. -/
inductive SchemaLoader.Child (loader : SchemaLoader) (parent : Node) : Text → NestedItem → Prop
  | nested {named : NamedNestedItem} (h : .ok named ∈ loader.nestedItems parent) :
      Child loader parent named.name named.item
  | group {info : StructDecl} {field : Field} {group : StructSchema} (hwhich : parent.which = .ok (.struct info))
      (hfield : field ∈ info.fields) (hgroup : loader.fieldType field = .ok (.group group)) :
      Child loader parent field.name (.struct group)

/-- The identifier is made for the name, and the one that is tried first is taken in the scope. -/
structure TakenFor (names : Spelling) (v : Validation) (scope : TypeScope) (asked : Name) (ident : Ident) : Prop where
  made : Made names asked ident
  first : ∀ w, Tried names asked w → (some scope.ids, w) ∈ v.identifiers

/-- The item is recorded in the scope, and so is what is below it. -/
inductive Filed (names : Spelling) (loader : SchemaLoader) (v : Validation) : TypeScope → Text → NestedItem → Prop
  | struct {scope : TypeScope} {text : Text} {name : Name} {schema : StructSchema} {typeIdent modIdent : Ident}
      (hname : text.asStr = some name)
      (hmem : (schema.node.id, .struct ⟨⟨typeIdent, scope⟩, modIdent⟩) ∈ v.nodes)
      (htype : TakenFor names v scope (names.asPascalCase name) typeIdent)
      (hmod : TakenFor names v scope (names.asSnakeCase name) modIdent)
      (hbelow : ∀ text item, loader.Child schema.node text item →
        Filed names loader v (scope.push ⟨schema.node.id, modIdent⟩) text item) :
      Filed names loader v scope text (.struct schema)
  | enum {scope : TypeScope} {text : Text} {name : Name} {schema : EnumSchema} {typeIdent : Ident}
      {enumerants : List Ident} (hname : text.asStr = some name)
      (hmem : (schema.node.id, .enum ⟨⟨typeIdent, scope⟩, enumerants⟩) ∈ v.nodes)
      (htype : TakenFor names v scope (names.asPascalCase name) typeIdent) (henumerants : enumerants.Nodup) :
      Filed names loader v scope text (.enum schema)
  | const {scope : TypeScope} {text : Text} {name : Name} {schema : ConstSchema} {ident : Ident}
      (hname : text.asStr = some name) (hmem : (schema.node.id, .const ⟨ident, scope⟩) ∈ v.nodes)
      (hident : TakenFor names v scope (names.asShoutySnakeCase name) ident) :
      Filed names loader v scope text (.const schema)
  | interface {scope : TypeScope} {text : Text} {node : Node} (hmem : (node.id, .interface) ∈ v.nodes) :
      Filed names loader v scope text (.interface node)
  | annotationDecl {scope : TypeScope} {text : Text} {node : Node} (hmem : (node.id, .annotationDecl) ∈ v.nodes) :
      Filed names loader v scope text (.annotationDecl node)

/-- The id of the node that a scope belongs to: a struct, or the file. -/
def parentId (key : Id × List Id) : Id := key.2.getLastD key.1

/-- What is taken in the scope of a node is taken for a union or for an item of the node. -/
def Sourced (names : Spelling) (loader : SchemaLoader) (v : Validation) : Prop :=
  ∀ key ident, (some key, ident) ∈ v.identifiers → Made names whichName ident ∨
    ∃ parent text item info, loader.get (parentId key) = some parent ∧ loader.Child parent text item ∧
      (item.node.id, info) ∈ v.nodes ∧ (some key, ident) ∈ info.takes

/-- What may happen during validation. -/
structure Grown (names : Spelling) (loader : SchemaLoader) (v v' : Validation) : Prop where
  nodes : v.nodes ⊆ v'.nodes
  identifiers : v.identifiers ⊆ v'.identifiers
  sourced : Sourced names loader v → Sourced names loader v'

section Filed

variable {names : Spelling} {loader : SchemaLoader} {v v' v'' : Validation} {scope : TypeScope} {name : Name}
  {text : Text} {item : NestedItem} {parent : Node} {ident : Ident}

lemma Grown.refl (v : Validation) : Grown names loader v v := ⟨List.Subset.refl _, List.Subset.refl _, id⟩

lemma Grown.trans (h : Grown names loader v v') (h' : Grown names loader v' v'') : Grown names loader v v'' :=
  ⟨List.Subset.trans h.nodes h'.nodes, List.Subset.trans h.identifiers h'.identifiers, h'.sourced ∘ h.sourced⟩

lemma TakenFor.mono (h : TakenFor names v scope name ident) (hgrown : Grown names loader v v') :
    TakenFor names v' scope name ident := ⟨h.made, fun w hw => hgrown.identifiers (h.first w hw)⟩

lemma Filed.mono (h : Filed names loader v scope text item) (hgrown : Grown names loader v v') :
    Filed names loader v' scope text item := by
  induction h with
  | struct hname hmem htype hmod _ ih =>
    exact .struct hname (hgrown.nodes hmem) (htype.mono hgrown) (hmod.mono hgrown) ih
  | enum hname hmem htype henumerants => exact .enum hname (hgrown.nodes hmem) (htype.mono hgrown) henumerants
  | const hname hmem hident => exact .const hname (hgrown.nodes hmem) (hident.mono hgrown)
  | interface hmem => exact .interface (hgrown.nodes hmem)
  | annotationDecl hmem => exact .annotationDecl (hgrown.nodes hmem)

/-- A loop that files one after the other. -/
lemma filed_fold {α : Type} {f : Unit → α → Prog Stop Validation Unit} {P : Validation → α → Prop} {as : List α}
    (hmono : ∀ a v v', Grown names loader v v' → P v a → P v' a)
    (hstep : ∀ a ∈ as, ∀ v v', f () a v = .ok () v' → Grown names loader v v' ∧ P v' a)
    (h : fold f () as v = .ok () v') : Grown names loader v v' ∧ ∀ a ∈ as, P v' a := by
  induction as generalizing v with
  | nil =>
    obtain ⟨-, rfl⟩ := pure_eq_ok.1 h
    exact ⟨.refl v, nofun⟩
  | cons a as ih =>
    obtain ⟨_, v₁, hfirst, hrest⟩ := bind_eq_ok.1 h
    obtain ⟨hgrown₁, ha⟩ := hstep a List.mem_cons_self v v₁ hfirst
    obtain ⟨hgrown, has⟩ := ih (fun a' ha' => hstep a' (List.mem_cons_of_mem _ ha')) hrest
    refine ⟨hgrown₁.trans hgrown, fun a' ha' => ?_⟩
    rcases List.mem_cons.1 ha' with rfl | ha'
    · exact hmono a' v₁ v' hgrown ha
    · exact has a' ha'

/-! ## One node -/

/-- A node is recorded with the identifiers that were taken for it. -/
lemma grown_insert (hparent : loader.get (parentId scope.ids) = some parent) (hchild : loader.Child parent text item)
    (info : NodeInfo) (idents : List Ident) (htakes : ∀ i ∈ idents, (some scope.ids, i) ∈ info.takes) :
    Grown names loader v ⟨v.nodes ++ [(item.node.id, info)],
      idents.map (fun i => (some scope.ids, i)) ++ v.identifiers⟩ where
  nodes := List.subset_append_left _ _
  identifiers := List.subset_append_right _ _
  sourced hsourced key ident hmem := by
    rcases List.mem_append.1 hmem with hmem | hmem
    · obtain ⟨_, hi, heq⟩ := List.mem_map.1 hmem
      cases heq
      exact .inr ⟨parent, text, item, info, hparent, hchild, List.mem_append_right _ (List.mem_singleton_self _),
        htakes ident hi⟩
    · rcases hsourced key ident hmem with hwhich | ⟨p, t, i, info', hp, hc, hin, ht⟩
      · exact .inl hwhich
      · exact .inr ⟨p, t, i, info', hp, hc, List.mem_append_left _ hin, ht⟩

/-- An identifier that was made unique, in a set with more of them later. -/
lemma takenFor_of_makeUntaken {identifiers : ScopedIdentifierSet}
    (h : makeUntaken names (identifiers.takenIn (some scope)) name () = .ok ident ())
    (hident : (some scope.ids, ident) ∈ v.identifiers) (hsub : identifiers ⊆ v.identifiers) :
    TakenFor names v scope name ident where
  made := made_of_makeUntaken h
  first w hw := by
    by_cases htaken : w ∈ identifiers.takenIn (some scope)
    · obtain ⟨⟨key, i⟩, hmem, heq⟩ := List.mem_map.1 htaken
      obtain rfl : i = w := heq
      obtain ⟨hmem, hkey⟩ := List.mem_filter.1 hmem
      obtain rfl : key = some scope.ids := of_decide_eq_true hkey
      exact hsub hmem
    · rw [← eq_of_tried h hw htaken]
      exact hident

/-- An item that is filed leaves more than there was. -/
def Files (names : Spelling) (loader : SchemaLoader) (scope : TypeScope) (text : Text) (item : NestedItem)
    (x : Prog Stop Validation Unit) : Prop :=
  ∀ v v', x v = .ok () v' → Grown names loader v v' ∧ Filed names loader v' scope text item

section Item

variable (hparent : loader.get (parentId scope.ids) = some parent) (hname : text.asStr = some name)

include hparent hname

lemma files_validateEnum {schema : EnumSchema} (hchild : loader.Child parent text (.enum schema)) :
    Files names loader scope text (.enum schema) (validateEnum names schema name scope) := by
  intro v v' h
  replace h := of_vacantEntry_bind h
  obtain ⟨typeIdent, v₂, hident, hrest⟩ := bind_eq_ok.1 h
  obtain ⟨enumerants, v₃, henumerants, hinsert⟩ := bind_eq_ok.1 hrest
  obtain ⟨huntaken, rfl⟩ := makeUniqueIn_eq_ok.1 hident
  obtain ⟨rfl, hnodup⟩ := validateEnumerants_eq_ok henumerants
  cases hinsert
  have htakes : ∀ i ∈ [typeIdent], (some scope.ids, i) ∈ NodeInfo.takes (.enum ⟨⟨typeIdent, scope⟩, enumerants⟩) := by
    intro i hi
    rw [List.mem_singleton.1 hi]
    exact List.mem_singleton_self _
  refine ⟨grown_insert hparent hchild _ _ htakes,
    .enum hname (List.mem_append_right _ (List.mem_singleton_self _)) ?_ hnodup⟩
  exact takenFor_of_makeUntaken huntaken List.mem_cons_self (List.subset_cons_self _ _)

lemma files_validateConst {schema : ConstSchema} (hchild : loader.Child parent text (.const schema)) :
    Files names loader scope text (.const schema) (validateConst names schema name scope) := by
  intro v v' h
  replace h := of_vacantEntry_bind h
  obtain ⟨constIdent, v₂, hident, hinsert⟩ := bind_eq_ok.1 h
  obtain ⟨huntaken, rfl⟩ := makeUniqueIn_eq_ok.1 hident
  cases hinsert
  have htakes : ∀ i ∈ [constIdent], (some scope.ids, i) ∈ NodeInfo.takes (.const ⟨constIdent, scope⟩) := by
    intro i hi
    rw [List.mem_singleton.1 hi]
    exact List.mem_singleton_self _
  refine ⟨grown_insert hparent hchild _ _ htakes, .const hname (List.mem_append_right _ (List.mem_singleton_self _)) ?_⟩
  exact takenFor_of_makeUntaken huntaken List.mem_cons_self (List.subset_cons_self _ _)

end Item

lemma grown_insertInfo {id : Id} {info : NodeInfo} : Grown names loader v ⟨v.nodes ++ [(id, info)], v.identifiers⟩ where
  nodes := List.subset_append_left _ _
  identifiers := List.Subset.refl _
  sourced hsourced key ident hmem := by
    rcases hsourced key ident hmem with hwhich | ⟨p, t, i, info', hp, hc, hin, ht⟩
    · exact .inl hwhich
    · exact .inr ⟨p, t, i, info', hp, hc, List.mem_append_left _ hin, ht⟩

lemma files_validateInterface (node : Node) :
    Files names loader scope text (.interface node) (validateInterface node) := by
  intro v v' h
  replace h := of_vacantEntry_bind h
  cases h
  exact ⟨grown_insertInfo, .interface (List.mem_append_right _ (List.mem_singleton_self _))⟩

lemma files_validateAnnotation (node : Node) :
    Files names loader scope text (.annotationDecl node) <| validateAnnotation node := by
  intro v v' h
  replace h := of_vacantEntry_bind h
  cases h
  exact ⟨grown_insertInfo, .annotationDecl (List.mem_append_right _ (List.mem_singleton_self _))⟩

/-- A union takes its name in a scope. -/
lemma grown_takeWhich {schema : StructSchema} {inner : TypeScope} (h : takeWhich names schema inner v = .ok () v') :
    Grown names loader v v' := by
  rcases ite_eq_ok.1 h with ⟨-, h⟩ | ⟨-, h⟩
  · obtain ⟨which, v₂, hwhich, hpure⟩ := bind_eq_ok.1 h
    obtain ⟨-, rfl⟩ := pure_eq_ok.1 hpure
    obtain ⟨huntaken, rfl⟩ := makeUniqueIn_eq_ok.1 hwhich
    refine ⟨List.Subset.refl _, List.subset_cons_self _ _, fun hsourced key ident hmem => ?_⟩
    rcases List.mem_cons.1 hmem with heq | hmem
    · cases heq
      exact .inl (made_of_makeUntaken huntaken)
    · exact hsourced key ident hmem
  · obtain ⟨-, rfl⟩ := pure_eq_ok.1 h
    exact .refl v

lemma parentId_push (scope : TypeScope) (m : ModScope) : parentId (scope.push m).ids = m.id := by
  simp [parentId, TypeScope.ids, TypeScope.push]

/-! ## Items and structs -/

lemma filed_validateNestedItems {x : NamedNestedItem → Prog Stop Validation Unit} {node : Node}
    (hx : ∀ named, .ok named ∈ loader.nestedItems node → Files names loader scope named.name named.item (x named))
    (h : validateNestedItems loader x node v = .ok () v') : Grown names loader v v' ∧
      ∀ named, .ok named ∈ loader.nestedItems node → Filed names loader v' scope named.name named.item := by
  let P : Validation → Except Error NamedNestedItem → Prop := fun v nested =>
    ∀ named, nested = .ok named → Filed names loader v scope named.name named.item
  have hmono (nested : Except Error NamedNestedItem) (v v' : Validation) (hgrown : Grown names loader v v')
      (h : P v nested) : P v' nested := fun named hnamed => (h named hnamed).mono hgrown
  have hloop := filed_fold hmono (fun nested hnested v v' h => ?_) h
  · exact ⟨hloop.1, fun named hnamed => hloop.2 _ hnamed named rfl⟩
  · obtain ⟨named, v₁, hlift, hrest⟩ := bind_eq_ok.1 h
    obtain ⟨rfl, rfl⟩ := eq_of_liftError hlift
    obtain ⟨hgrown, hfiled⟩ := hx named hnested v₁ v' hrest
    refine ⟨hgrown, ?_⟩
    rintro _ ⟨⟩
    exact hfiled

lemma filed_validateGroups {x : StructSchema → Name → Prog Stop Validation Unit} {schema : StructSchema}
    (hx : ∀ field ∈ schema.info.fields, ∀ group name, loader.fieldType field = .ok (.group group) →
      field.name.asStr = some name → Files names loader scope field.name (.struct group) (x group name))
    (h : validateGroups loader x schema v = .ok () v') : Grown names loader v v' ∧
      ∀ field ∈ schema.info.fields, ∀ group, loader.fieldType field = .ok (.group group) →
        Filed names loader v' scope field.name (.struct group) := by
  let P : Validation → Field × ℕ → Prop := fun v entry =>
    ∀ group, loader.fieldType entry.1 = .ok (.group group) → Filed names loader v scope entry.1.name (.struct group)
  have hmono (entry : Field × ℕ) (v v' : Validation) (hgrown : Grown names loader v v') (h : P v entry) :
      P v' entry := fun group hgroup => (h group hgroup).mono hgrown
  have hloop := filed_fold hmono (fun entry hentry v v' h => ?_) h
  · refine ⟨hloop.1, fun field hfield group hgroup => ?_⟩
    obtain ⟨idx, hentry⟩ := mem_iff_zipIdx.1 hfield
    exact hloop.2 _ hentry group hgroup
  · obtain ⟨field, idx⟩ := entry
    have hfield : field ∈ schema.info.fields := mem_iff_zipIdx.2 ⟨idx, hentry⟩
    obtain ⟨fieldType, v₁, hlift, hrest⟩ := bind_eq_ok.1 h
    obtain ⟨htype, rfl⟩ := eq_of_liftError hlift
    cases fieldType with
    | slot offset type defaultValue =>
      obtain ⟨-, rfl⟩ := pure_eq_ok.1 hrest
      refine ⟨.refl _, fun group hgroup => ?_⟩
      rw [htype] at hgroup
      cases hgroup
    | group group =>
      obtain ⟨name, v₂, hstr, hgroup⟩ := bind_eq_ok.1 hrest
      obtain ⟨hname, rfl⟩ := eq_of_nameOf hstr
      obtain ⟨hgrown, hfiled⟩ := hx field hfield group name htype hname v₂ v' hgroup
      refine ⟨hgrown, fun group' hgroup' => ?_⟩
      rw [htype] at hgroup'
      cases hgroup'
      exact hfiled

/-- The induction is on the depth, for items and structs at once. -/
lemma files_validate (depth : ℕ) : ∀ (scope : TypeScope) (parent : Node),
    loader.get (parentId scope.ids) = some parent →
    (∀ named, .ok named ∈ loader.nestedItems parent →
      Files names loader scope named.name named.item (validateItem names loader depth named scope)) ∧
    ∀ schema text name, loader.Child parent text (.struct schema) → (NestedItem.struct schema).Loaded loader →
      text.asStr = some name →
      Files names loader scope text (.struct schema) (validateStruct names loader depth schema name scope) := by
  induction depth with
  | zero => exact fun scope parent _ => ⟨fun _ _ _ _ h => (nomatch h), fun _ _ _ _ _ _ _ _ h => (nomatch h)⟩
  | succ depth ih =>
    intro scope parent hparent
    refine ⟨fun named hnamed v v' h => ?_, fun schema text name hchild hloaded hname v v' h => ?_⟩
    · obtain ⟨name, v₁, hstr, hitem⟩ := bind_eq_ok.1 h
      obtain ⟨hname, rfl⟩ := eq_of_nameOf hstr
      have hloaded := (SchemaLoader.mem_nestedItems hnamed).1
      have hchild := SchemaLoader.Child.nested hnamed
      obtain ⟨text, id, item⟩ := named
      cases item with
      | struct schema => exact (ih scope parent hparent).2 schema text name hchild hloaded hname v₁ v' hitem
      | enum schema => exact files_validateEnum hparent hname hchild v₁ v' hitem
      | interface node => exact files_validateInterface node v₁ v' hitem
      | const schema => exact files_validateConst hparent hname hchild v₁ v' hitem
      | annotationDecl node => exact files_validateAnnotation node v₁ v' hitem
    · replace h := of_vacantEntry_bind h
      obtain ⟨typeIdent, v₂, htype, hrest⟩ := bind_eq_ok.1 h
      obtain ⟨modIdent, v₃, hmod, hrest⟩ := bind_eq_ok.1 hrest
      obtain ⟨_, v₄, hinsert, hrest⟩ := bind_eq_ok.1 hrest
      obtain ⟨_, v₅, hwhich, hrest⟩ := bind_eq_ok.1 hrest
      obtain ⟨_, v₆, hnested, hgroups⟩ := bind_eq_ok.1 hrest
      obtain ⟨htype', rfl⟩ := makeUniqueIn_eq_ok.1 htype
      obtain ⟨hmod', rfl⟩ := makeUniqueIn_eq_ok.1 hmod
      cases hinsert
      have hinner : loader.get (parentId (scope.push ⟨schema.node.id, modIdent⟩).ids) = some schema.node := by
        rw [parentId_push]
        exact hloaded.get_eq
      obtain ⟨hitem, hstruct⟩ := ih _ _ hinner
      have htakes : ∀ i ∈ [modIdent, typeIdent], (some scope.ids, i) ∈
          NodeInfo.takes (.struct ⟨⟨typeIdent, scope⟩, modIdent⟩) := by
        intro i hi
        rcases List.mem_cons.1 hi with rfl | hi
        · exact List.mem_cons_of_mem _ (List.mem_singleton_self _)
        · rw [List.mem_singleton.1 hi]
          exact List.mem_cons_self
      have hinsert : Grown names loader v ⟨v.nodes ++ [(schema.node.id, .struct ⟨⟨typeIdent, scope⟩, modIdent⟩)],
          [modIdent, typeIdent].map (fun i => (some scope.ids, i)) ++ v.identifiers⟩ :=
        grown_insert hparent hchild _ _ htakes
      have hwhich' : Grown names loader _ v₅ := grown_takeWhich hwhich
      obtain ⟨hgrown₆, hnested'⟩ := filed_validateNestedItems hitem hnested
      obtain ⟨hgrown', hgroups'⟩ := filed_validateGroups (fun field hfield group name hgroup hname =>
        hstruct group field.name name (.group hloaded.which_eq hfield hgroup) (SchemaLoader.group_loaded hgroup) hname)
        hgroups
      have hgrown := hwhich'.trans (hgrown₆.trans hgrown')
      refine ⟨hinsert.trans hgrown, .struct hname (hgrown.nodes
        (List.mem_append_right _ (List.mem_singleton_self _))) ?_ ?_ ?_⟩
      · refine (takenFor_of_makeUntaken htype' ?_ ?_ : TakenFor names _ scope _ typeIdent).mono hgrown
        · exact List.mem_cons_of_mem _ List.mem_cons_self
        · exact fun t ht => List.mem_cons_of_mem _ (List.mem_cons_of_mem _ ht)
      · exact (takenFor_of_makeUntaken hmod' List.mem_cons_self (List.subset_cons_self _ _) :
          TakenFor names _ scope _ modIdent).mono hgrown
      · intro text' item' hchild'
        cases hchild' with
        | nested hnamed => exact (hnested' _ hnamed).mono hgrown'
        | group hwhich' hfield hgroup =>
          have heq := hwhich'.symm.trans hloaded.which_eq
          cases heq
          exact hgroups' _ hfield _ hgroup

/-! ## Files -/

/-- What is below a file is on file in the scope of its module. -/
structure FiledFile (names : Spelling) (loader : SchemaLoader) (v : Validation) (file : Node) (m : Ident) : Prop where
  recorded : ∃ path, (file.id, .file ⟨m, path⟩) ∈ v.nodes
  below : ∀ text item, loader.Child file text item → Filed names loader v (.ofFile ⟨file.id, m⟩) text item

lemma FiledFile.mono {file : Node} {m : Ident} (h : FiledFile names loader v file m)
    (hgrown : Grown names loader v v') : FiledFile names loader v' file m where
  recorded := h.recorded.imp fun _ hmem => hgrown.nodes hmem
  below text item hchild := (h.below text item hchild).mono hgrown

lemma grown_below (v : Validation) (file : Node) (m : Ident) (path : Name) :
    Grown names loader v (v.below file m path) where
  nodes := List.subset_append_left _ _
  identifiers := List.subset_cons_self _ _
  sourced hsourced key ident hmem := by
    rcases List.mem_cons.1 hmem with heq | hmem
    · cases heq
    · rcases hsourced key ident hmem with hwhich | ⟨p, t, i, info', hp, hc, hin, ht⟩
      · exact .inl hwhich
      · exact .inr ⟨p, t, i, info', hp, hc, List.mem_append_left _ hin, ht⟩

lemma filed_validateFile {depth : ℕ} {file : Node} (hfile : file ∈ loader.files)
    (h : validateFile names loader depth file v = .ok () v') :
    Grown names loader v v' ∧ ∃ m, FiledFile names loader v' file m := by
  obtain ⟨-, path, m, -, hm, hbelow⟩ := validateFile_eq_ok.1 h
  obtain ⟨hget, hwhich⟩ := SchemaLoader.mem_files hfile
  have hitem : ∀ named, .ok named ∈ loader.nestedItems file → Files names loader (.ofFile ⟨file.id, m⟩) named.name
      named.item (validateItem names loader depth named (.ofFile ⟨file.id, m⟩)) :=
    (files_validate depth (.ofFile ⟨file.id, m⟩) file hget).1
  let P : Validation → Except Error NamedNestedItem → Prop := fun v nested =>
    ∀ named, nested = .ok named → Filed names loader v (.ofFile ⟨file.id, m⟩) named.name named.item
  have hmono (nested : Except Error NamedNestedItem) (v v' : Validation) (hgrown : Grown names loader v v')
      (h : P v nested) : P v' nested := fun named hnamed => (h named hnamed).mono hgrown
  have hloop := filed_fold hmono (fun nested hnested v v' h => ?_) hbelow
  · refine ⟨(grown_below v file m path).trans hloop.1, m, ?_, fun text item hchild => ?_⟩
    · exact ⟨_, hloop.1.nodes (List.mem_append_right _ (List.mem_singleton_self _))⟩
    · cases hchild with
      | nested hnamed => exact hloop.2 _ hnamed _ rfl
      | group hstruct =>
        rw [hwhich] at hstruct
        cases hstruct
  · rcases nested with e | named
    · refine ⟨?_, nofun⟩
      rcases e with e | e
      · cases e
        case missingNode =>
          obtain ⟨-, rfl⟩ := pure_eq_ok.1 h
          exact .refl _
        all_goals exact (throw_eq_ok.1 h).elim
      · exact (throw_eq_ok.1 h).elim
    · obtain ⟨hgrown, hfiled⟩ := hitem named hnested v v' h
      refine ⟨hgrown, ?_⟩
      rintro _ ⟨⟩
      exact hfiled

lemma sourced_new : Sourced names loader .new := nofun

/-- **After validation** all that is below a file is on file. -/
lemma filed_of_contextOf {ctx : GeneratorContext} (h : contextOf names loader = .ok ctx v) :
    Sourced names loader v ∧ ∀ file ∈ loader.files, ∃ m, FiledFile names loader v file m := by
  obtain ⟨hfiles, -⟩ := contextOf_eq_ok.1 h
  have hmono (file : Node) (v v' : Validation) (hgrown : Grown names loader v v')
      (h : ∃ m, FiledFile names loader v file m) : ∃ m, FiledFile names loader v' file m :=
    h.imp fun _ hfiled => hfiled.mono hgrown
  obtain ⟨hgrown, hfiled⟩ := filed_fold hmono (fun file hfile v v' h => filed_validateFile hfile h) hfiles
  exact ⟨hgrown.sourced sourced_new, hfiled⟩

end Filed

end Recapn.Codegen

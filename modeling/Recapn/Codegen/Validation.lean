/-
# What validation leaves

Every node is recorded at most once and as what it is, below a file that is recorded.  A step
down records a node that was not recorded yet, so the way down is no longer than there are nodes.
When validation succeeds, the nodes it recorded below an item are the item, then those below its
nested items, then those below its groups.
-/
import Recapn.Codegen.Validate
import Recapn.Lib.Walk

namespace Recapn.Codegen

open Recapn.Lib Recapn.Lib.Prog

variable {loader : SchemaLoader} {names : Spelling}

/-! ## What the loader hands out -/

lemma SchemaLoader.id_of_get {id : Id} {node : Node} (h : loader.get id = some node) :
    node.id = id := by
  have hfound := List.find?_some h
  exact eq_of_beq hfound

lemma SchemaLoader.mem_ids_of_get {id : Id} {node : Node} (h : loader.get id = some node) :
    id ∈ loader.nodes.map Node.id := by
  rw [← SchemaLoader.id_of_get h]
  exact List.mem_map_of_mem (List.mem_of_find?_eq_some h)

/-- Every node of the loader is found by its id. -/
lemma SchemaLoader.get_of_mem {node : Node} (h : node ∈ loader.nodes) :
    loader.get node.id = some node := by
  rcases hfound : loader.get node.id with _ | other
  · have hnone := List.find?_eq_none.1 hfound node h
    simp at hnone
  · have hid := SchemaLoader.id_of_get hfound
    have hmem : other ∈ loader.nodes := List.mem_of_find?_eq_some hfound
    rw [List.inj_on_of_nodup_map loader.nodup hmem h hid]

lemma isFile_of_fromNode {node schema : Node} (h : FileSchema.fromNode node = some schema) :
    schema = node ∧ node.which = .ok .file := by
  simp only [FileSchema.fromNode, Option.ite_none_right_eq_some, Option.some.injEq] at h
  obtain ⟨hfile, rfl⟩ := h
  refine ⟨rfl, ?_⟩
  unfold Node.isFile at hfile
  split at hfile
  · assumption
  · cases hfile

lemma SchemaLoader.mem_files {file : Node} (h : file ∈ loader.files) :
    loader.get file.id = some file ∧ file.which = .ok .file := by
  obtain ⟨node, hnode, hfile⟩ := List.mem_filterMap.1 h
  obtain ⟨rfl, hwhich⟩ := isFile_of_fromNode hfile
  exact ⟨SchemaLoader.get_of_mem hnode, hwhich⟩

lemma SchemaLoader.trySchema_eq_ok {T : Type} {fromNode : Node → Option T} {id : Id} {schema : T}
    (h : loader.trySchema fromNode id = .ok schema) :
    ∃ node, loader.get id = some node ∧ fromNode node = some schema := by
  unfold SchemaLoader.trySchema at h
  rcases hget : loader.get id with _ | node
  · rw [hget] at h
    cases h
  · rw [hget] at h
    rcases hfrom : fromNode node with _ | found
    · simp [hfrom] at h
    · simp only [hfrom, Except.ok.injEq] at h
      exact ⟨node, rfl, h ▸ hfrom⟩

/-- The item is a node of the loader, and of the kind that it is taken for. -/
structure NestedItem.Loaded (loader : SchemaLoader) (item : NestedItem) : Prop where
  get_eq : loader.get item.node.id = some item.node
  which_eq : item.node.which = match item with
    | .struct schema => .ok (.struct schema.info)
    | .enum schema => .ok (.enum schema.enumerants)
    | .interface _ => .ok .interface
    | .const schema => .ok (.const schema.type schema.value)
    | .annotationDecl _ => .ok .annotationDecl

/-- A nested item is the node with its id. -/
lemma SchemaLoader.nestedItem_eq_ok {nested : NestedNode} {named : NamedNestedItem}
    (h : loader.nestedItem nested = .ok named) :
    named.item.Loaded loader ∧ named.item.node.id = named.id := by
  unfold SchemaLoader.nestedItem at h
  rcases hget : loader.get nested.id with _ | node
  · rw [hget] at h
    cases h
  · rw [hget] at h
    have hid := SchemaLoader.id_of_get hget
    rcases hwhich : node.which with variant | kind
    · simp [hwhich] at h
    · rcases kind with _ | info | enumerants | _ | ⟨type, value⟩ | _
      · simp [hwhich] at h
      all_goals
        simp only [hwhich, Except.ok.injEq] at h
        subst h
        exact ⟨⟨by simpa only [NestedItem.node, hid] using hget, hwhich⟩, hid⟩

lemma SchemaLoader.mem_nestedItems {node : Node} {named : NamedNestedItem}
    (h : .ok named ∈ loader.nestedItems node) :
    named.item.Loaded loader ∧ named.item.node.id = named.id := by
  obtain ⟨nested, -, hnested⟩ := List.mem_map.1 h
  exact SchemaLoader.nestedItem_eq_ok hnested

lemma StructSchema.loaded_of_trySchema {id : Id} {schema : StructSchema}
    (h : loader.trySchema StructSchema.fromNode id = .ok schema) :
    (NestedItem.struct schema).Loaded loader := by
  obtain ⟨node, hget, hfrom⟩ := SchemaLoader.trySchema_eq_ok h
  unfold StructSchema.fromNode at hfrom
  split at hfrom
  case h_1 info hwhich =>
    obtain rfl := Option.some.inj hfrom
    refine ⟨?_, hwhich⟩
    rw [← SchemaLoader.id_of_get hget] at hget
    exact hget
  case h_2 => cases hfrom

lemma EnumSchema.loaded_of_trySchema {id : Id} {schema : EnumSchema}
    (h : loader.trySchema EnumSchema.fromNode id = .ok schema) :
    (NestedItem.enum schema).Loaded loader := by
  obtain ⟨node, hget, hfrom⟩ := SchemaLoader.trySchema_eq_ok h
  unfold EnumSchema.fromNode at hfrom
  split at hfrom
  case h_1 enumerants hwhich =>
    obtain rfl := Option.some.inj hfrom
    refine ⟨?_, hwhich⟩
    rw [← SchemaLoader.id_of_get hget] at hget
    exact hget
  case h_2 => cases hfrom

/-- The group of a field is a struct node. -/
lemma SchemaLoader.group_loaded {field : Field} {group : StructSchema}
    (h : loader.fieldType field = .ok (.group group)) : (NestedItem.struct group).Loaded loader := by
  unfold SchemaLoader.fieldType at h
  split at h
  case h_1 => cases h
  case h_2 =>
    simp only [bind, Except.bind] at h
    split at h <;> cases h
  case h_3 typeId _ =>
    simp only [bind, Except.bind] at h
    split at h
    · cases h
    · rename_i schema hschema
      cases h
      exact StructSchema.loaded_of_trySchema hschema

/-! ## What is recorded -/

/-- The info is one of a node like this. -/
def NodeInfo.Describes (info : NodeInfo) (node : Node) : Prop :=
  match info with
  | .file _ => node.which = .ok .file
  | .struct _ => ∃ decl, node.which = .ok (.struct decl)
  | .enum _ => ∃ enumerants, node.which = .ok (.enum enumerants)
  | .const _ => ∃ type value, node.which = .ok (.const type value)
  | .interface => node.which = .ok .interface
  | .annotationDecl => node.which = .ok .annotationDecl

/-- The scope is one of a file that is recorded. -/
def TypeScope.In (scope : TypeScope) (nodes : NodeInfoMap) : Prop :=
  ∃ file, (scope.file.id, .file file) ∈ nodes

/-- Every node is recorded once and as what it is, and its scope is one of a recorded file. -/
structure NodeInfoMap.Sound (loader : SchemaLoader) (nodes : NodeInfoMap) : Prop where
  nodup : (nodes.map Prod.fst).Nodup
  describes : ∀ id info, (id, info) ∈ nodes → ∃ node, loader.get id = some node ∧
    info.Describes node
  scope_in : ∀ id info, (id, info) ∈ nodes → ∀ scope, info.scope = some scope → scope.In nodes

lemma TypeScope.In.mono {scope : TypeScope} {nodes nodes' : NodeInfoMap} (h : scope.In nodes)
    (hsub : nodes ⊆ nodes') : scope.In nodes' :=
  h.imp fun _ hmem => hsub hmem

namespace NodeInfoMap.Sound

variable {nodes : NodeInfoMap}

lemma nil : NodeInfoMap.Sound loader [] := by
  refine ⟨List.nodup_nil, ?_, ?_⟩
  · intro id info h
    cases h
  · intro id info h
    cases h

/-- One more node is recorded. -/
lemma insert (h : nodes.Sound loader) {id : Id} {info : NodeInfo} (hid : id ∉ nodes.map Prod.fst)
    (hdescribes : ∃ node, loader.get id = some node ∧ info.Describes node)
    (hscope : ∀ scope, info.scope = some scope → scope.In nodes) :
    NodeInfoMap.Sound loader (nodes ++ [(id, info)]) := by
  have hsub : nodes ⊆ nodes ++ [(id, info)] := List.subset_append_left _ _
  constructor
  · rw [List.map_append, List.map_singleton, List.nodup_append_comm]
    exact List.nodup_cons.2 ⟨hid, h.nodup⟩
  · intro id' info' hmem
    rcases List.mem_append.1 hmem with hmem | hmem
    · exact h.describes id' info' hmem
    · obtain ⟨rfl, rfl⟩ := Prod.mk.inj (List.mem_singleton.1 hmem)
      exact hdescribes
  · intro id' info' hmem scope hinfo
    rcases List.mem_append.1 hmem with hmem | hmem
    · exact (h.scope_in id' info' hmem scope hinfo).mono hsub
    · obtain ⟨rfl, rfl⟩ := Prod.mk.inj (List.mem_singleton.1 hmem)
      exact (hscope scope hinfo).mono hsub

end NodeInfoMap.Sound

/-! ## How much is left to record -/

/-- The nodes of the loader that are not recorded. -/
def SchemaLoader.unrecorded (loader : SchemaLoader) (nodes : NodeInfoMap) : List Id :=
  (loader.nodes.map Node.id).filter fun id => id ∉ nodes.map Prod.fst

lemma SchemaLoader.length_unrecorded_le {nodes nodes' : NodeInfoMap} (h : nodes <+: nodes') :
    (loader.unrecorded nodes').length ≤ (loader.unrecorded nodes).length := by
  refine (List.monotone_filter_right _ ?_).length_le
  intro id hid
  simp only [decide_eq_true_eq] at hid ⊢
  exact fun hmem => hid ((h.map Prod.fst).subset hmem)

/-- Recording a node of the loader leaves fewer of them. -/
lemma SchemaLoader.length_unrecorded_lt {nodes : NodeInfoMap} {id : Id} {info : NodeInfo}
    (hid : id ∉ nodes.map Prod.fst) (hloaded : id ∈ loader.nodes.map Node.id) :
    (loader.unrecorded (nodes ++ [(id, info)])).length < (loader.unrecorded nodes).length := by
  have hmem : id ∈ loader.unrecorded nodes :=
    List.mem_filter.2 ⟨hloaded, by simpa only [decide_eq_true_eq] using hid⟩
  have heq : loader.unrecorded (nodes ++ [(id, info)]) =
      (loader.unrecorded nodes).filter fun other => other ≠ id := by
    unfold SchemaLoader.unrecorded
    rw [List.filter_filter]
    refine List.filter_congr ?_
    intro other _
    simp only [List.map_append, List.map_singleton, List.mem_append, List.mem_singleton, not_or,
      Bool.decide_and, ne_eq]
    exact Bool.and_comm _ _
  rw [heq]
  exact List.length_filter_lt_length_iff_exists.2 ⟨id, hmem, by simp⟩

/-! ## Validation ends -/

/-- The part of validation that records nothing. -/
def recordsNothing (nodes : NodeInfoMap) : Terms Stop Validation where
  inv v := v.nodes = nodes
  err stop := ¬ stop.IsUnwrap
  halts _ := False

/-- Validation goes on from these infos. -/
def goesOn (loader : SchemaLoader) (nodes : NodeInfoMap) : Terms Stop Validation where
  inv v := v.nodes.Sound loader ∧ nodes <+: v.nodes
  err stop := ¬ stop.IsUnwrap
  halts _ := False

section Ends

variable {nodes : NodeInfoMap} {v : Validation} {α β : Type} {n : ℕ}

lemma within_vacantEntry (id : Id) : Within (recordsNothing nodes) (vacantEntry id) := by
  refine within_bind within_get fun v _ => ?_
  exact within_ite (fun _ => within_throw fun h => h) fun _ => within_pure ()

lemma within_makeUniqueIn (scope : Option TypeScope) (name : Name) :
    Within (recordsNothing nodes) (makeUniqueIn names scope name) := by
  refine within_bind within_get fun v _ => ?_
  refine within_bind (ScopedIdentifierSet.within_makeUnique (fun _ h => h) _ scope name)
    fun made _ => ?_
  exact within_bind (within_modify fun _ h => h) fun _ _ => within_pure _

lemma within_nameOf {σ : Type} {t : Terms Stop σ} (hunwrap : ∀ stop, ¬ stop.IsUnwrap → t.err stop)
    (context : NameContext) (text : Text) : Within t (nameOf context text) := by
  unfold nameOf
  rcases text.asStr with _ | name
  · exact within_throw (hunwrap _ fun h => h)
  · exact within_pure name

lemma eq_ok_of_liftError {σ α : Type} {r : Except Error α} {s s' : σ} {a : α}
    (h : liftError r s = .ok a s') : r = .ok a := by
  rcases r with e | b
  · exact (throw_eq_ok.1 h).elim
  · exact congrArg Except.ok (pure_eq_ok.1 h).1

lemma vacantEntry_eq_ok {id : Id} {v' : Validation} (h : vacantEntry id v = .ok () v') :
    v' = v ∧ id ∉ v.nodes.map Prod.fst := by
  have h := of_bind rfl h
  rcases ite_eq_ok.1 h with ⟨-, h⟩ | ⟨hid, h⟩
  · exact (throw_eq_ok.1 h).elim
  · exact ⟨(pure_eq_ok.1 h).2.symm, hid⟩

/-- An entry that was vacant is left as it was. -/
lemma of_vacantEntry_bind {id : Id} {f : Unit → Prog Stop Validation α} {a : α} {v' : Validation}
    (h : (vacantEntry id >>= f) v = .ok a v') : f () v = .ok a v' := by
  obtain ⟨_, v₁, hvacant, hrest⟩ := bind_eq_ok.1 h
  obtain ⟨hv₁, -⟩ := vacantEntry_eq_ok hvacant
  rw [← hv₁]
  exact hrest

/-- What records nothing leaves the infos sound. -/
lemma endsBy_of_recordsNothing {x : ℕ → Prog Stop Validation α} {f : ℕ → α → Prog Stop Validation β}
    (hsound : nodes.Sound loader) (hx : EndsBy n (recordsNothing nodes) v x)
    (hf : ∀ a v', v'.nodes = nodes → x n v = .ok a v' →
      EndsBy n (goesOn loader nodes) v' fun depth => f depth a) :
    EndsBy n (goesOn loader nodes) v fun depth => x depth >>= f depth := by
  refine endsBy_bind hx hf ?_ (fun _ h => h) fun _ h => h
  intro v' hv'
  have hnodes : v'.nodes = nodes := hv'
  exact ⟨hnodes ▸ hsound, hnodes ▸ List.prefix_rfl⟩

/-- One node is recorded, and nothing else is done. -/
lemma endsBy_insertInfo (hv : v.nodes = nodes) (hsound : nodes.Sound loader) {id : Id}
    {info : NodeInfo} (hid : id ∉ nodes.map Prod.fst)
    (hdescribes : ∃ node, loader.get id = some node ∧ info.Describes node)
    (hscope : ∀ scope, info.scope = some scope → scope.In nodes) :
    EndsBy n (goesOn loader nodes) v fun _ => insertInfo id info := by
  subst hv
  refine ⟨_, fun _ _ => rfl, ?_⟩
  exact ⟨hsound.insert hid hdescribes hscope, List.prefix_append _ _⟩

lemma endsBy_vacantEntry {f : ℕ → Prog Stop Validation β} {id : Id} (hv : v.nodes = nodes)
    (hsound : nodes.Sound loader)
    (hf : id ∉ nodes.map Prod.fst → EndsBy n (goesOn loader nodes) v f) :
    EndsBy n (goesOn loader nodes) v fun depth => vacantEntry id >>= fun _ => f depth := by
  refine endsBy_of_recordsNothing hsound ((within_vacantEntry id).endsBy hv) ?_
  intro _ v' _ hrun
  obtain ⟨rfl, hid⟩ := vacantEntry_eq_ok hrun
  exact hf (hv ▸ hid)

/-- Validation that goes on from what is recorded later goes on from what was recorded before. -/
lemma endsBy_earlier {nodes' : NodeInfoMap} {x : ℕ → Prog Stop Validation α}
    (h : EndsBy n (goesOn loader nodes') v x) (hpre : nodes <+: nodes') :
    EndsBy n (goesOn loader nodes) v x :=
  h.imp (fun _ hv' => ⟨hv'.1, hpre.trans hv'.2⟩) (fun _ he => he) fun _ hr => hr

/-- One node is recorded, and validation goes on from there. -/
lemma endsBy_insertInfo_bind {f : ℕ → Prog Stop Validation α} (hv : v.nodes = nodes) {id : Id}
    {info : NodeInfo}
    (hf : ∀ v', v'.nodes = nodes ++ [(id, info)] →
      EndsBy n (goesOn loader (nodes ++ [(id, info)])) v' f) :
    EndsBy n (goesOn loader nodes) v fun depth => insertInfo id info >>= fun _ => f depth := by
  have hrest := endsBy_earlier (hf { v with nodes := v.nodes ++ [(id, info)] } (by rw [hv]))
    (List.prefix_append nodes _)
  obtain ⟨o, hrun, ho⟩ := hrest
  exact ⟨o, hrun, ho⟩

lemma within_validateEnumerants (schema : EnumSchema) :
    Within (recordsNothing nodes) (validateEnumerants names schema) := by
  refine within_bind (within_fold ?_ _) fun _ _ => within_pure _
  rintro ⟨enumerant, idx⟩ - ⟨enumerants, idents⟩
  refine within_bind (within_nameOf (fun _ h => h) _ _) fun name _ => ?_
  refine within_bind (IdentifierSet.within_makeUnique (fun _ h => h) _ _) fun made _ => ?_
  exact within_pure _

lemma within_takeWhich (schema : StructSchema) (inner : TypeScope) :
    Within (recordsNothing nodes) (takeWhich names schema inner) := by
  refine within_ite (fun _ => ?_) fun _ => within_pure ()
  exact within_bind (within_makeUniqueIn _ _) fun _ _ => within_pure ()

lemma endsBy_validateEnum (hv : v.nodes = nodes) (hsound : nodes.Sound loader)
    {schema : EnumSchema} (hloaded : (NestedItem.enum schema).Loaded loader) (name : Name)
    {scope : TypeScope} (hscope : scope.In nodes) :
    EndsBy n (goesOn loader nodes) v fun _ => validateEnum names schema name scope := by
  refine endsBy_vacantEntry hv hsound fun hid => ?_
  refine endsBy_of_recordsNothing hsound ((within_makeUniqueIn _ _).endsBy hv) ?_
  intro typeIdent v₁ hv₁ _
  refine endsBy_of_recordsNothing hsound ((within_validateEnumerants schema).endsBy hv₁) ?_
  intro enumerants v₂ hv₂ _
  refine endsBy_insertInfo hv₂ hsound hid ⟨_, hloaded.get_eq, _, hloaded.which_eq⟩ ?_
  rintro _ ⟨rfl⟩
  exact hscope

lemma endsBy_validateConst (hv : v.nodes = nodes) (hsound : nodes.Sound loader)
    {schema : ConstSchema} (hloaded : (NestedItem.const schema).Loaded loader) (name : Name)
    {scope : TypeScope} (hscope : scope.In nodes) :
    EndsBy n (goesOn loader nodes) v fun _ => validateConst names schema name scope := by
  refine endsBy_vacantEntry hv hsound fun hid => ?_
  refine endsBy_of_recordsNothing hsound ((within_makeUniqueIn _ _).endsBy hv) ?_
  intro ident v₁ hv₁ _
  refine endsBy_insertInfo hv₁ hsound hid ⟨_, hloaded.get_eq, _, _, hloaded.which_eq⟩ ?_
  rintro _ ⟨rfl⟩
  exact hscope

lemma endsBy_validateInterface (hv : v.nodes = nodes) (hsound : nodes.Sound loader) {node : Node}
    (hloaded : (NestedItem.interface node).Loaded loader) :
    EndsBy n (goesOn loader nodes) v fun _ => validateInterface node := by
  refine endsBy_vacantEntry hv hsound fun hid => ?_
  refine endsBy_insertInfo hv hsound hid ⟨_, hloaded.get_eq, hloaded.which_eq⟩ ?_
  intro scope hinfo
  cases hinfo

lemma endsBy_validateAnnotation (hv : v.nodes = nodes) (hsound : nodes.Sound loader) {node : Node}
    (hloaded : (NestedItem.annotationDecl node).Loaded loader) :
    EndsBy n (goesOn loader nodes) v fun _ => validateAnnotation node := by
  refine endsBy_vacantEntry hv hsound fun hid => ?_
  refine endsBy_insertInfo hv hsound hid ⟨_, hloaded.get_eq, hloaded.which_eq⟩ ?_
  intro scope hinfo
  cases hinfo

/-- An item takes one depth more than a struct. -/
lemma endsBy_validateItem (hv : v.nodes = nodes) (hsound : nodes.Sound loader)
    {named : NamedNestedItem} (hloaded : named.item.Loaded loader) {scope : TypeScope}
    (hscope : scope.In nodes)
    (hstruct : ∀ schema name v, v.nodes = nodes → (NestedItem.struct schema).Loaded loader →
      EndsBy n (goesOn loader nodes) v fun depth =>
        validateStruct names loader depth schema name scope) :
    EndsBy (n + 1) (goesOn loader nodes) v fun depth =>
      validateItem names loader depth named scope := by
  refine EndsBy.succ ?_
  refine endsBy_of_recordsNothing hsound ((within_nameOf (fun _ h => h) _ _).endsBy hv) ?_
  intro name v₁ hv₁ _
  obtain ⟨text, id, item⟩ := named
  cases item with
  | struct schema => exact hstruct schema name v₁ hv₁ hloaded
  | enum schema => exact endsBy_validateEnum hv₁ hsound hloaded name hscope
  | interface node => exact endsBy_validateInterface hv₁ hsound hloaded
  | const schema => exact endsBy_validateConst hv₁ hsound hloaded name hscope
  | annotationDecl node => exact endsBy_validateAnnotation hv₁ hsound hloaded

lemma endsBy_validateNestedItems {validateItem : ℕ → NamedNestedItem → Prog Stop Validation Unit}
    {node : Node} (hv : (goesOn loader nodes).inv v)
    (hitem : ∀ v, (goesOn loader nodes).inv v → ∀ named, named.item.Loaded loader →
      EndsBy n (goesOn loader v.nodes) v fun depth => validateItem depth named) :
    EndsBy n (goesOn loader nodes) v fun depth =>
      validateNestedItems loader (validateItem depth) node := by
  refine endsBy_fold hv ?_
  rintro nested hnested - v' hv'
  rcases nested with e | named
  · exact (within_throw fun h => h).endsBy hv'
  · exact endsBy_earlier (hitem v' hv' named (SchemaLoader.mem_nestedItems hnested).1) hv'.2

lemma endsBy_validateGroups {validateStruct : ℕ → StructSchema → Name → Prog Stop Validation Unit}
    {schema : StructSchema} (hv : (goesOn loader nodes).inv v)
    (hstruct : ∀ v, (goesOn loader nodes).inv v → ∀ v', v'.nodes = v.nodes → ∀ group name,
      (NestedItem.struct group).Loaded loader →
      EndsBy n (goesOn loader v.nodes) v' fun depth => validateStruct depth group name) :
    EndsBy n (goesOn loader nodes) v fun depth =>
      validateGroups loader (validateStruct depth) schema := by
  refine endsBy_fold hv ?_
  rintro ⟨field, idx⟩ - - v' hv'
  refine endsBy_earlier ?_ hv'.2
  refine endsBy_of_recordsNothing hv'.1 ((within_liftError (fun _ h => h) _).endsBy rfl) ?_
  intro fieldType v₁ hv₁ hfield
  rcases fieldType with ⟨offset, ty, defaultValue⟩ | group
  · exact (within_pure ()).endsBy ⟨hv₁ ▸ hv'.1, hv₁ ▸ List.prefix_rfl⟩
  · refine endsBy_of_recordsNothing hv'.1 ((within_nameOf (fun _ h => h) _ _).endsBy hv₁) ?_
    intro name v₂ hv₂ _
    exact hstruct v' hv' v₂ hv₂ group name (SchemaLoader.group_loaded (eq_ok_of_liftError hfield))

/-- Below a struct the way down is no longer than there are nodes left to record: the induction
is on their number, and the struct itself is one of them. -/
lemma endsBy_validateStruct {k : ℕ} (hv : v.nodes = nodes) (hsound : nodes.Sound loader)
    {schema : StructSchema} (hloaded : (NestedItem.struct schema).Loaded loader) (name : Name)
    {scope : TypeScope} (hscope : scope.In nodes) (hk : (loader.unrecorded nodes).length ≤ k) :
    EndsBy (2 * k + 1) (goesOn loader nodes) v fun depth =>
      validateStruct names loader depth schema name scope := by
  induction k using Nat.strong_induction_on generalizing v nodes schema name scope with
  | _ k ih =>
    refine EndsBy.succ ?_
    refine endsBy_vacantEntry hv hsound fun hid => ?_
    refine endsBy_of_recordsNothing hsound ((within_makeUniqueIn _ _).endsBy hv) ?_
    intro typeIdent v₁ hv₁ _
    refine endsBy_of_recordsNothing hsound ((within_makeUniqueIn _ _).endsBy hv₁) ?_
    intro modIdent v₂ hv₂ _
    -- the struct is recorded before anything below it
    let info := NodeInfo.struct ⟨⟨typeIdent, scope⟩, modIdent⟩
    let inner := scope.push ⟨schema.node.id, modIdent⟩
    have hsound' : NodeInfoMap.Sound loader (nodes ++ [(schema.node.id, info)]) := by
      refine hsound.insert hid ⟨_, hloaded.get_eq, _, hloaded.which_eq⟩ ?_
      rintro _ ⟨rfl⟩
      exact hscope
    have hless : (loader.unrecorded (nodes ++ [(schema.node.id, info)])).length < k :=
      (SchemaLoader.length_unrecorded_lt hid
        (SchemaLoader.mem_ids_of_get hloaded.get_eq)).trans_le hk
    have hinner : inner.In (nodes ++ [(schema.node.id, info)]) :=
      TypeScope.In.mono hscope (List.subset_append_left _ _)
    have hbelow : ∀ v, (goesOn loader (nodes ++ [(schema.node.id, info)])).inv v →
        ∀ v', v'.nodes = v.nodes → ∀ group name, (NestedItem.struct group).Loaded loader →
        EndsBy (2 * k - 1) (goesOn loader v.nodes) v' fun depth =>
          validateStruct names loader depth group name inner := by
      rintro v ⟨hv, hpre⟩ v' hv' group name hgroup
      have hfewer := (SchemaLoader.length_unrecorded_le hpre).trans_lt hless
      exact (ih _ hfewer hv' hv hgroup name (hinner.mono hpre.subset) le_rfl).mono (by omega)
    refine endsBy_insertInfo_bind hv₂ (fun v₃ hv₃ => ?_)
    refine endsBy_of_recordsNothing hsound' ((within_takeWhich schema inner).endsBy hv₃) ?_
    intro _ v₄ hv₄ _
    refine EndsBy.bind (endsBy_validateNestedItems ⟨hv₄ ▸ hsound', hv₄ ▸ List.prefix_rfl⟩ ?_) ?_
    · intro v hv named hnamed
      refine (endsBy_validateItem rfl hv.1 hnamed (hinner.mono hv.2.subset) ?_).mono
        (n := 2 * k - 1 + 1) (by omega)
      exact fun group name v' hv' hgroup => hbelow v hv v' hv' group name hgroup
    · intro _ v₅ hv₅ _
      refine endsBy_validateGroups hv₅ fun v hv v' hv' group name hgroup => ?_
      exact (hbelow v hv v' hv' group name hgroup).mono (by omega)

lemma endsBy_validateFile {k : ℕ} (hv : v.nodes = nodes) (hsound : nodes.Sound loader) {file : Node}
    (hfile : loader.get file.id = some file ∧ file.which = .ok .file)
    (hk : (loader.unrecorded nodes).length ≤ k) :
    EndsBy (2 * k + 2) (goesOn loader nodes) v fun depth =>
      validateFile names loader depth file := by
  refine endsBy_vacantEntry hv hsound fun hid => ?_
  refine endsBy_of_recordsNothing hsound ((within_nameOf (fun _ h => h) _ _).endsBy hv) ?_
  intro path v₁ hv₁ _
  refine endsBy_of_recordsNothing hsound ((within_makeUniqueIn _ _).endsBy hv₁) ?_
  intro modIdent v₂ hv₂ _
  let info := NodeInfo.file ⟨modIdent, path ++ rsExtension⟩
  have hsound' : NodeInfoMap.Sound loader (nodes ++ [(file.id, info)]) := by
    refine hsound.insert hid ⟨_, hfile.1, hfile.2⟩ ?_
    intro scope hinfo
    cases hinfo
  have hinner : (TypeScope.ofFile ⟨file.id, modIdent⟩).In (nodes ++ [(file.id, info)]) :=
    ⟨_, List.mem_append_right _ (List.mem_singleton_self _)⟩
  refine endsBy_insertInfo_bind hv₂ (fun v₃ hv₃ => ?_)
  refine endsBy_fold ⟨hv₃ ▸ hsound', hv₃ ▸ List.prefix_rfl⟩ ?_
  rintro nested hnested - v hv
  have hitem : ∀ named, .ok named ∈ loader.nestedItems file → EndsBy (2 * k + 2)
      (goesOn loader (nodes ++ [(file.id, info)])) v fun depth =>
        validateItem names loader depth named (.ofFile ⟨file.id, modIdent⟩) := by
    intro named hnamed
    have hpre := (List.prefix_append nodes _).trans hv.2
    have hfewer := (SchemaLoader.length_unrecorded_le hpre).trans hk
    refine endsBy_earlier ?_ hv.2
    refine endsBy_validateItem rfl hv.1 (SchemaLoader.mem_nestedItems hnamed).1
      (hinner.mono hv.2.subset) ?_
    intro schema name v' hv' hloaded
    exact endsBy_validateStruct hv' hv.1 hloaded name (hinner.mono hv.2.subset) hfewer
  rcases nested with e | named
  · rcases e with e | e
    · cases e
      case missingNode => exact (within_pure ()).endsBy hv
      all_goals exact (within_throw fun h => h).endsBy hv
    · exact (within_throw fun h => h).endsBy hv
  · exact hitem named hnested

/-- **Validation ends**, and it records every node once and as what it is. -/
lemma endsBy_new (names : Spelling) (loader : SchemaLoader) :
    EndsBy (2 * loader.nodes.length + 2) (goesOn loader []) Validation.new
      (GeneratorContext.new names loader) := by
  have hstart : (goesOn loader []).inv Validation.new := ⟨NodeInfoMap.Sound.nil, List.prefix_rfl⟩
  refine EndsBy.bind (endsBy_fold hstart ?_) ?_
  · rintro file hfile - v hv
    refine endsBy_earlier (endsBy_validateFile rfl hv.1 (SchemaLoader.mem_files hfile) ?_) hv.2
    calc (loader.unrecorded v.nodes).length ≤ (loader.nodes.map Node.id).length :=
          List.length_filter_le _ _
      _ = loader.nodes.length := List.length_map _
  · intro _ v hv _
    exact (within_bind within_get fun _ _ => within_pure _).endsBy hv

end Ends

/-! ## The order in which nodes are recorded -/

/-- The nested items of a node that can be opened. -/
def SchemaLoader.itemsOf (loader : SchemaLoader) (node : Node) : List NestedItem :=
  (loader.nestedItems node).filterMap fun nested =>
    match nested with
    | .ok named => some named.item
    | .error _ => none

/-- The groups of these fields that can be opened. -/
def SchemaLoader.groupsOf (loader : SchemaLoader) (fields : List Field) : List NestedItem :=
  fields.filterMap fun field =>
    match loader.fieldType field with
    | .ok (.group group) => some (.struct group)
    | _ => none

/-- What is below an item: the nested items and then the groups of a struct. -/
def SchemaLoader.below (loader : SchemaLoader) : NestedItem → List NestedItem
  | .struct schema => loader.itemsOf schema.node ++ loader.groupsOf schema.info.fields
  | _ => []

/-- The ids of these items and of everything below them, in the order of a walk. -/
abbrev SchemaLoader.Walks (loader : SchemaLoader) (items : List NestedItem) (ids : List Id) : Prop :=
  Walk loader.below (fun item => item.node.id) items ids

/-- Between the two, what was recorded are these items and everything below them. -/
def Recorded (loader : SchemaLoader) (items : List NestedItem) (v v' : Validation) : Prop :=
  ∃ ids, v'.ids = v.ids ++ ids ∧ loader.Walks items ids

lemma Recorded.nil (loader : SchemaLoader) {v v' : Validation} (h : v'.nodes = v.nodes) : Recorded loader [] v v' :=
  ⟨[], by rw [Validation.ids, h, List.append_nil, Validation.ids], Walk.nil⟩

lemma Recorded.append {items items' : List NestedItem} {v v' v'' : Validation}
    (h : Recorded loader items v v') (h' : Recorded loader items' v' v'') :
    Recorded loader (items ++ items') v v'' := by
  obtain ⟨ids, hids, hwalk⟩ := h
  obtain ⟨ids', hids', hwalk'⟩ := h'
  exact ⟨ids ++ ids', by rw [hids', hids, List.append_assoc], hwalk.append hwalk'⟩

section Order

variable {v v' : Validation} {scope : TypeScope} {name : Name}

lemma makeUniqueIn_nodes {scope : Option TypeScope} {ident : Ident}
    (h : makeUniqueIn names scope name v = .ok ident v') : v'.nodes = v.nodes :=
  (within_makeUniqueIn scope name).ok rfl h

lemma insertInfo_ids {id : Id} {info : NodeInfo} (h : insertInfo id info v = .ok () v') :
    v'.ids = v.ids ++ [id] := by
  cases h
  exact List.map_append

/-- A node is recorded, and everything below it after it. -/
lemma Recorded.node (item : NestedItem) {v₁ v₂ : Validation} {info : NodeInfo}
    (hv : v₁.nodes = v.nodes) (hinsert : insertInfo item.node.id info v₁ = .ok () v₂)
    (hbelow : Recorded loader (loader.below item) v₂ v') : Recorded loader [item] v v' := by
  obtain ⟨inner, hids, hwalk⟩ := hbelow
  refine ⟨item.node.id :: inner, ?_, Walk.single hwalk⟩
  rw [hids, insertInfo_ids hinsert, Validation.ids, hv, List.append_assoc]
  rfl

lemma recorded_validateEnum {schema : EnumSchema}
    (h : validateEnum names schema name scope v = .ok () v') :
    Recorded loader [.enum schema] v v' := by
  replace h := of_vacantEntry_bind h
  obtain ⟨typeIdent, v₂, hident, h⟩ := bind_eq_ok.1 h
  obtain ⟨enumerants, v₃, henumerants, h⟩ := bind_eq_ok.1 h
  have hv₂ : v₂.nodes = v.nodes := makeUniqueIn_nodes hident
  have hv₃ : v₃.nodes = v₂.nodes := (within_validateEnumerants schema).ok rfl henumerants
  exact Recorded.node (.enum schema) (hv₃.trans hv₂) h (Recorded.nil loader rfl)

lemma recorded_validateInterface {node : Node} (h : validateInterface node v = .ok () v') :
    Recorded loader [.interface node] v v' := by
  replace h := of_vacantEntry_bind h
  exact Recorded.node (.interface node) rfl h (Recorded.nil loader rfl)

lemma recorded_validateConst {schema : ConstSchema}
    (h : validateConst names schema name scope v = .ok () v') :
    Recorded loader [.const schema] v v' := by
  replace h := of_vacantEntry_bind h
  obtain ⟨ident, v₂, hident, h⟩ := bind_eq_ok.1 h
  exact Recorded.node (.const schema) (makeUniqueIn_nodes hident) h (Recorded.nil loader rfl)

lemma recorded_validateAnnotation {node : Node} (h : validateAnnotation node v = .ok () v') :
    Recorded loader [.annotationDecl node] v v' := by
  replace h := of_vacantEntry_bind h
  exact Recorded.node (.annotationDecl node) rfl h (Recorded.nil loader rfl)

/-- What a loop over nested items records, if its body records the items that can be opened. -/
lemma recorded_nested {body : Except Error NamedNestedItem → Prog Stop Validation Unit}
    (hbody : ∀ nested v v', body nested v = .ok () v' → Recorded loader
      (match nested with
        | .ok named => [named.item]
        | .error _ => []) v v')
    {nested : List (Except Error NamedNestedItem)} (h : fold (fun _ => body) () nested v = .ok () v') :
    Recorded loader (nested.filterMap fun nested =>
      match nested with
      | .ok named => some named.item
      | .error _ => none) v v' := by
  induction nested generalizing v with
  | nil =>
    obtain ⟨-, rfl⟩ := pure_eq_ok.1 h
    exact Recorded.nil loader rfl
  | cons first rest ih =>
    obtain ⟨_, v₁, hfirst, hrest⟩ := bind_eq_ok.1 h
    have hrecorded := (hbody first v v₁ hfirst).append (ih hrest)
    rcases first with e | named
    · exact hrecorded
    · exact hrecorded

lemma recorded_validateNestedItems {item : NamedNestedItem → Prog Stop Validation Unit} {node : Node}
    (hitem : ∀ named v v', item named v = .ok () v' → Recorded loader [named.item] v v')
    (h : validateNestedItems loader item node v = .ok () v') :
    Recorded loader (loader.itemsOf node) v v' := by
  refine recorded_nested ?_ h
  intro nested v v' h
  rcases nested with e | named
  · exact (throw_eq_ok.1 h).elim
  · exact hitem named v v' h

lemma recorded_validateGroups {struct : StructSchema → Name → Prog Stop Validation Unit}
    {schema : StructSchema}
    (hstruct : ∀ group name v v', struct group name v = .ok () v' →
      Recorded loader [.struct group] v v')
    (h : validateGroups loader struct schema v = .ok () v') :
    Recorded loader (loader.groupsOf schema.info.fields) v v' := by
  rw [← List.zipIdx_map_fst 0 schema.info.fields]
  refine fold_eq_ok_induction (motive := fun _ pairs v => Recorded loader (loader.groupsOf (pairs.map Prod.fst)) v v')
    h (Recorded.nil loader rfl) ?_
  rintro _ ⟨field, idx⟩ pairs v _ v₁ hfirst ih
  obtain ⟨fieldType, v₂, hfield, hfirst⟩ := bind_eq_ok.1 hfirst
  have hok := eq_ok_of_liftError hfield
  have hv₂ : v₂.nodes = v.nodes :=
    ((within_liftError (fun _ h => h) _ : Within (recordsNothing v.nodes) _)).ok rfl hfield
  rcases fieldType with ⟨offset, ty, defaultValue⟩ | group
  · obtain ⟨-, rfl⟩ := pure_eq_ok.1 hfirst
    have hrecorded := (Recorded.nil loader hv₂).append ih
    simpa only [SchemaLoader.groupsOf, List.map_cons, List.filterMap_cons, hok, List.nil_append] using hrecorded
  · obtain ⟨name, v₃, hname, hfirst⟩ := bind_eq_ok.1 hfirst
    have hv₃ : v₃.nodes = v₂.nodes :=
      ((within_nameOf (fun _ h => h) _ _ : Within (recordsNothing v₂.nodes) _)).ok rfl hname
    have hrecorded := (Recorded.nil loader (hv₃.trans hv₂)).append ((hstruct group name v₃ v₁ hfirst).append ih)
    simpa only [SchemaLoader.groupsOf, List.map_cons, List.filterMap_cons, hok, List.nil_append,
      List.singleton_append] using hrecorded

lemma recorded_validateItem {depth : ℕ} {named : NamedNestedItem}
    (hstruct : ∀ depth' < depth, ∀ schema name v, 
      validateStruct names loader depth' schema name scope v = .ok () v' →
      Recorded loader [.struct schema] v v')
    (h : validateItem names loader depth named scope v = .ok () v') :
    Recorded loader [named.item] v v' := by
  cases depth with
  | zero => cases h
  | succ depth =>
    obtain ⟨name, v₁, hname, h⟩ := bind_eq_ok.1 h
    have hv₁ : v₁.nodes = v.nodes :=
      ((within_nameOf (fun _ h => h) _ _ : Within (recordsNothing v.nodes) _)).ok rfl hname
    refine (Recorded.nil loader hv₁).append ?_
    obtain ⟨text, id, item⟩ := named
    cases item with
    | struct schema => exact hstruct depth (Nat.lt_succ_self depth) schema name v₁ h
    | enum schema => exact recorded_validateEnum h
    | interface node => exact recorded_validateInterface h
    | const schema => exact recorded_validateConst h
    | annotationDecl node => exact recorded_validateAnnotation h

/-- A struct that was validated is recorded with everything below it, in the order of a walk. -/
lemma recorded_validateStruct {depth : ℕ} {schema : StructSchema}
    (h : validateStruct names loader depth schema name scope v = .ok () v') :
    Recorded loader [.struct schema] v v' := by
  induction depth using Nat.strong_induction_on generalizing schema name scope v v' with
  | _ depth ih =>
  cases depth with
  | zero => cases h
  | succ depth =>
    replace h := of_vacantEntry_bind h
    obtain ⟨typeIdent, v₂, htype, h⟩ := bind_eq_ok.1 h
    obtain ⟨modIdent, v₃, hmod, h⟩ := bind_eq_ok.1 h
    obtain ⟨_, v₄, hinsert, h⟩ := bind_eq_ok.1 h
    obtain ⟨_, v₅, hwhich, h⟩ := bind_eq_ok.1 h
    obtain ⟨_, v₆, hnested, hgroups⟩ := bind_eq_ok.1 h
    have hv₃ : v₃.nodes = v.nodes := (makeUniqueIn_nodes hmod).trans (makeUniqueIn_nodes htype)
    have hv₅ : v₅.nodes = v₄.nodes := (within_takeWhich schema _).ok rfl hwhich
    refine Recorded.node (.struct schema) hv₃ hinsert ?_
    refine (Recorded.nil loader hv₅).append (Recorded.append
      (recorded_validateNestedItems ?_ hnested) (recorded_validateGroups ?_ hgroups))
    · intro named v v' h
      refine recorded_validateItem ?_ h
      intro depth' hlt group name v h
      exact ih depth' (hlt.trans (Nat.lt_succ_self depth)) h
    · intro group name v v' h
      exact ih depth (Nat.lt_succ_self depth) h

/-- What a file that was validated adds: itself and everything below it. -/
lemma ids_validateFile {depth : ℕ} {file : Node}
    (h : validateFile names loader depth file v = .ok () v') :
    ∃ ids, v'.ids = v.ids ++ file.id :: ids ∧ loader.Walks (loader.itemsOf file) ids := by
  replace h := of_vacantEntry_bind h
  obtain ⟨path, v₂, hpath, h⟩ := bind_eq_ok.1 h
  obtain ⟨modIdent, v₃, hmod, h⟩ := bind_eq_ok.1 h
  obtain ⟨_, v₄, hinsert, h⟩ := bind_eq_ok.1 h
  have hv₂ : v₂.nodes = v.nodes :=
    ((within_nameOf (fun _ h => h) _ _ : Within (recordsNothing v.nodes) _)).ok rfl hpath
  have hv₃ : v₃.nodes = v₂.nodes := makeUniqueIn_nodes hmod
  have hitem : ∀ named v v', validateItem names loader depth named
      (.ofFile ⟨file.id, modIdent⟩) v = .ok () v' → Recorded loader [named.item] v v' := by
    intro named v v' h
    exact recorded_validateItem (fun _ _ _ _ _ h => recorded_validateStruct h) h
  obtain ⟨ids, hids, hwalk⟩ : Recorded loader (loader.itemsOf file) v₄ v' := by
    refine recorded_nested ?_ h
    intro nested v v' h
    rcases nested with e | named
    · rcases e with e | e
      · cases e
        case missingNode => exact Recorded.nil loader (congrArg Validation.nodes (pure_eq_ok.1 h).2.symm)
        all_goals exact (throw_eq_ok.1 h).elim
      · exact (throw_eq_ok.1 h).elim
    · exact hitem named v v' h
  refine ⟨ids, ?_, hwalk⟩
  rw [hids, insertInfo_ids hinsert, Validation.ids, hv₃, hv₂, List.append_assoc]
  rfl

/-- **After validation every file is walked**: what is below it is recorded once, after it. -/
lemma walks_of_new {depth : ℕ} {ctx : GeneratorContext}
    (h : GeneratorContext.new names loader depth v = .ok ctx v') :
    ctx = ⟨loader, v'.nodes⟩ ∧ ∀ file ∈ loader.files, ∃ ids,
      ids.Sublist v'.ids ∧ loader.Walks (loader.itemsOf file) ids := by
  obtain ⟨_, v₁, hfiles, h⟩ := bind_eq_ok.1 h
  have h := of_bind rfl h
  obtain ⟨rfl, rfl⟩ := pure_eq_ok.1 h
  refine ⟨rfl, ?_⟩
  refine (fold_eq_ok_induction (motive := fun _ files v => v.ids.Sublist v₁.ids ∧ ∀ file ∈ files, ∃ ids,
    ids.Sublist v₁.ids ∧ loader.Walks (loader.itemsOf file) ids) hfiles ⟨List.Sublist.refl _, by simp⟩ ?_).2
  rintro _ first files v _ v₂ hfirst ⟨hsub, hwalks⟩
  obtain ⟨ids, hids, hwalk⟩ := ids_validateFile hfirst
  have hgrows : v.ids.Sublist v₂.ids := by
    rw [hids]
    exact List.sublist_append_left _ _
  refine ⟨hgrows.trans hsub, ?_⟩
  intro file hfile
  rcases List.mem_cons.1 hfile with rfl | hfile
  · refine ⟨ids, List.Sublist.trans ?_ hsub, hwalk⟩
    rw [hids]
    exact (List.sublist_cons_self _ _).trans (List.sublist_append_right _ _)
  · exact hwalks file hfile

end Order

end Recapn.Codegen

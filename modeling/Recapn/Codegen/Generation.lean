/-
# Generation ends

After validation, what generation looks up is recorded as what it is looked up for, and the walk
of a file, which validation recorded without a node met twice, is the way generation takes.
-/
import Recapn.Codegen.Generate
import Recapn.Codegen.Validation

namespace Recapn.Codegen

open Recapn.Lib Recapn.Lib.Prog

variable {loader : SchemaLoader} {names : Spelling} {ctx : GeneratorContext}

/-! ## Resolved types name nodes of their kind -/

/-- The node that the type names is of the kind that the type says. -/
def Ty.Loaded (loader : SchemaLoader) (ty : Ty) : Prop :=
  match ty.kind with
  | .enum schema _ => (NestedItem.enum schema).Loaded loader
  | .struct schema _ => (NestedItem.struct schema).Loaded loader
  | _ => True

lemma bind_eq_ok_except {ε α β : Type} {x : Except ε α} {f : α → Except ε β} {b : β} :
    (x >>= f) = .ok b ↔ ∃ a, x = .ok a ∧ f a = .ok b := by
  rcases x with e | a
  · exact ⟨fun h => (nomatch h), fun ⟨_, h, _⟩ => nomatch h⟩
  · exact ⟨fun h => ⟨a, rfl, h⟩, fun ⟨_, h, hf⟩ => by cases h; exact hf⟩

lemma loaded_of_resolveTypeInner : ∀ (type : CapnpType) (listDepth : ℕ) {ty : Ty},
    loader.resolveTypeInner type listDepth = .ok ty → ty.Loaded loader
  | .prim p, listDepth, ty, h | .text, listDepth, ty, h | .data, listDepth, ty, h => by
    rw [SchemaLoader.resolveTypeInner] at h
    cases h
    trivial
  | .list elementType, listDepth, ty, h => by
    rw [SchemaLoader.resolveTypeInner] at h
    exact loaded_of_resolveTypeInner elementType (listDepth + 1) h
  | .enum typeId brand, listDepth, ty, h => by
    rw [SchemaLoader.resolveTypeInner] at h
    obtain ⟨schema, hschema, h⟩ := bind_eq_ok_except.1 h
    obtain ⟨scopes, -, h⟩ := bind_eq_ok_except.1 h
    cases h
    exact EnumSchema.loaded_of_trySchema hschema
  | .struct typeId brand, listDepth, ty, h => by
    rw [SchemaLoader.resolveTypeInner] at h
    obtain ⟨schema, hschema, h⟩ := bind_eq_ok_except.1 h
    obtain ⟨scopes, -, h⟩ := bind_eq_ok_except.1 h
    cases h
    exact StructSchema.loaded_of_trySchema hschema
  | .interface typeId brand, listDepth, ty, h => by
    rw [SchemaLoader.resolveTypeInner] at h
    obtain ⟨schema, -, h⟩ := bind_eq_ok_except.1 h
    obtain ⟨scopes, -, h⟩ := bind_eq_ok_except.1 h
    cases h
    trivial
  | .anyPointer any, listDepth, ty, h => by
    rw [SchemaLoader.resolveTypeInner] at h
    obtain ⟨kind, hkind, h⟩ := bind_eq_ok_except.1 h
    cases h
    cases any <;> cases hkind <;> trivial
  | .unknown variant, listDepth, ty, h => by
    rw [SchemaLoader.resolveTypeInner] at h
    cases h

/-- The nodes that a field names are of the kinds that it says. -/
def FieldType.Loaded (loader : SchemaLoader) (fieldType : FieldType) : Prop :=
  match fieldType with
  | .slot _ ty _ => ty.Loaded loader
  | .group schema => (NestedItem.struct schema).Loaded loader

lemma loaded_of_fieldType {field : Field} {fieldType : FieldType}
    (h : loader.fieldType field = .ok fieldType) : fieldType.Loaded loader := by
  unfold SchemaLoader.fieldType at h
  split at h
  case h_1 => cases h
  case h_2 =>
    obtain ⟨ty, hty, h⟩ := bind_eq_ok_except.1 h
    cases h
    exact loaded_of_resolveTypeInner _ 0 hty
  case h_3 =>
    obtain ⟨group, hgroup, h⟩ := bind_eq_ok_except.1 h
    cases h
    exact StructSchema.loaded_of_trySchema hgroup

/-! ## What is looked up is there -/

namespace NodeInfoMap.Sound

variable {nodes : NodeInfoMap} {id : Id} {info : NodeInfo}

lemma describes_of_get (h : nodes.Sound loader) (hmem : (id, info) ∈ nodes) {node : Node}
    (hget : loader.get id = some node) : info.Describes node := by
  obtain ⟨node', hget', hdescribes⟩ := h.describes id info hmem
  rw [hget] at hget'
  rw [Option.some.inj hget']
  exact hdescribes

lemma struct_of_mem (h : nodes.Sound loader) {schema : StructSchema}
    (hloaded : (NestedItem.struct schema).Loaded loader) (hmem : (schema.node.id, info) ∈ nodes) :
    ∃ struct, info = .struct struct := by
  have hdescribes := h.describes_of_get hmem hloaded.get_eq
  have hwhich := hloaded.which_eq
  cases info with
  | struct struct => exact ⟨struct, rfl⟩
  | _ => simp_all [NodeInfo.Describes, NestedItem.node]

lemma enum_of_mem (h : nodes.Sound loader) {schema : EnumSchema}
    (hloaded : (NestedItem.enum schema).Loaded loader) (hmem : (schema.node.id, info) ∈ nodes) :
    ∃ enum, info = .enum enum := by
  have hdescribes := h.describes_of_get hmem hloaded.get_eq
  have hwhich := hloaded.which_eq
  cases info with
  | enum enum => exact ⟨enum, rfl⟩
  | _ => simp_all [NodeInfo.Describes, NestedItem.node]

lemma const_of_mem (h : nodes.Sound loader) {schema : ConstSchema}
    (hloaded : (NestedItem.const schema).Loaded loader) (hmem : (schema.node.id, info) ∈ nodes) :
    ∃ const, info = .const const := by
  have hdescribes := h.describes_of_get hmem hloaded.get_eq
  have hwhich := hloaded.which_eq
  cases info with
  | const const => exact ⟨const, rfl⟩
  | _ => simp_all [NodeInfo.Describes, NestedItem.node]

lemma file_of_mem (h : nodes.Sound loader) {node : Node} (hget : loader.get id = some node)
    (hwhich : node.which = .ok .file) (hmem : (id, info) ∈ nodes) : ∃ file, info = .file file := by
  have hdescribes := h.describes_of_get hmem hget
  cases info with
  | file file => exact ⟨file, rfl⟩
  | _ => simp_all [NodeInfo.Describes]

end NodeInfoMap.Sound

lemma NodeInfoMap.mem_of_lookup {nodes : NodeInfoMap} {id : Id} {info : NodeInfo}
    (h : nodes.lookup id = some info) : (id, info) ∈ nodes := by
  obtain ⟨⟨id', info'⟩, hfound, rfl⟩ := Option.map_eq_some_iff.1 h
  have hid := List.find?_some hfound
  obtain rfl : id' = id := eq_of_beq hid
  exact List.mem_of_find?_eq_some hfound

lemma GeneratorContext.mem_of_findInfo {id : Id} {info : NodeInfo} {c c' : FileContext}
    (h : ctx.findInfo id c = .ok info c') : (id, info) ∈ ctx.info := by
  have hok := eq_ok_of_liftError h
  split at hok
  case h_1 found hlookup =>
    cases hok
    exact NodeInfoMap.mem_of_lookup hlookup
  case h_2 => cases hok

/-! ## The part of generation that does not recurse -/

/-- Generation is on its way: it imports files that are recorded, the structs it has been at are
those before and some of these, and it does not stop because something was recorded as something
else. -/
def onWay (ctx : GeneratorContext) (visited ids : List Id) : Terms Stop FileContext where
  inv c := (∀ id ∈ c.requiredImports, ∃ file, (id, .file file) ∈ ctx.info) ∧
    ∃ new, c.visited = visited ++ new ∧ new.Sublist ids
  err stop := ¬ stop.IsUnwrap
  halts _ := False

/-- The part of generation that does not recurse keeps to these terms: it may import files that are recorded. -/
structure GeneratorContext.Generates (ctx : GeneratorContext) (t : Terms Stop FileContext) : Prop where
  sound : ctx.info.Sound ctx.loader
  stop : ∀ stop, ¬ stop.IsUnwrap → t.err stop
  imports : ∀ id file c, (id, .file file) ∈ ctx.info → id ∉ c.requiredImports → t.inv c →
    t.inv { c with requiredImports := c.requiredImports.orderedInsert (· ≤ ·) id }

lemma generates_onWay {visited ids : List Id} (hsound : ctx.info.Sound ctx.loader) :
    ctx.Generates (onWay ctx visited ids) where
  sound := hsound
  stop _ hstop := hstop
  imports id file c hfile _ hc := by
    refine ⟨fun id' hid' => ?_, hc.2⟩
    rcases List.mem_cons.1 ((List.perm_orderedInsert _ _ _).subset hid') with rfl | hid'
    · exact ⟨file, hfile⟩
    · exact hc.1 id' hid'

section Within

variable {t : Terms Stop FileContext} {α : Type} (ht : ctx.Generates t)

include ht

lemma within_lift {r : Except Error α} : Within t (liftError r : Prog Stop FileContext α) :=
  within_liftError ht.stop r

lemma within_findInfo {f : NodeInfo → Prog Stop FileContext α} {id : Id}
    (hf : ∀ info, (id, info) ∈ ctx.info → Within t (f info)) :
    Within t (ctx.findInfo id >>= f) := by
  refine within_bind (within_lift ht) ?_
  rintro info ⟨c, c', -, hfound⟩
  exact hf info (GeneratorContext.mem_of_findInfo hfound)

lemma within_findStruct {f : StructInfo → Prog Stop FileContext α} {schema : StructSchema}
    (hloaded : (NestedItem.struct schema).Loaded ctx.loader)
    (hf : ∀ info, (schema.node.id, .struct info) ∈ ctx.info →
      Within t (f info)) :
    Within t
      (ctx.findInfo schema.node.id >>= fun info => info.unwrapStruct >>= f) := by
  refine within_findInfo ht fun info hmem => ?_
  obtain ⟨struct, rfl⟩ := ht.sound.struct_of_mem hloaded hmem
  exact hf struct hmem

lemma within_findEnum {f : EnumInfo → Prog Stop FileContext α} {schema : EnumSchema}
    (hloaded : (NestedItem.enum schema).Loaded ctx.loader)
    (hf : ∀ info, (schema.node.id, .enum info) ∈ ctx.info →
      Within t (f info)) :
    Within t
      (ctx.findInfo schema.node.id >>= fun info => info.unwrapEnum >>= f) := by
  refine within_findInfo ht fun info hmem => ?_
  obtain ⟨enum, rfl⟩ := ht.sound.enum_of_mem hloaded hmem
  exact hf enum hmem

/-- The file of a type that is recorded is recorded. -/
lemma within_importFrom {scope : TypeScope} {type : TypeInfo} (htype : type.scope.In ctx.info) :
    Within t (GeneratorContext.importFrom scope type) := by
  refine within_ite (fun _ => within_modify ?_) fun _ => within_pure ()
  obtain ⟨file, hfile⟩ := htype
  intro c hc
  by_cases hmem : type.scope.file.id ∈ c.requiredImports
  · rw [if_pos hmem]
    exact hc
  · rw [if_neg hmem]
    exact ht.imports _ file c hfile hmem hc

lemma within_resolveKind {scope : TypeScope} {ty : Ty} {tyCtx : TypeContext}
    (hty : ty.Loaded ctx.loader) :
    Within t (ctx.resolveKind scope ty tyCtx) := by
  rcases ty with ⟨listDepth, kind⟩
  cases kind with
  | enum schema parameters =>
    refine within_findEnum ht hty fun info hmem => ?_
    refine within_bind (within_importFrom ht (ht.sound.scope_in _ _ hmem _ rfl)) fun _ _ => ?_
    exact within_ite (fun _ => within_pure _) fun _ => within_pure _
  | struct schema parameters =>
    refine within_findStruct ht hty fun info hmem => ?_
    refine within_bind (within_importFrom ht (ht.sound.scope_in _ _ hmem _ rfl)) fun _ _ => ?_
    exact within_pure _
  | _ => exact within_pure _

lemma within_resolveType {scope : TypeScope} {ty : Ty} {tyCtx : TypeContext}
    (hty : ty.Loaded ctx.loader) :
    Within t (ctx.resolveType scope ty tyCtx) := by
  refine within_bind (within_resolveKind ht hty) fun _ _ => ?_
  exact within_ite (fun _ => within_pure _) fun _ => within_pure _

lemma within_resolveFieldType {scope : TypeScope} {fieldType : FieldType}
    (hfield : fieldType.Loaded ctx.loader) :
    Within t (ctx.resolveFieldType scope fieldType) := by
  cases fieldType with
  | slot offset ty defaultValue => exact within_resolveType ht hfield
  | group group => exact within_findStruct ht hfield fun _ _ => within_pure _

lemma within_enumerantOf {scope : TypeScope} {schema : EnumSchema}
    (hloaded : (NestedItem.enum schema).Loaded ctx.loader) (value : ℕ) :
    Within t (ctx.enumerantOf scope schema value) := by
  refine within_findEnum ht hloaded fun info _ => ?_
  rcases info.enumerants[value]? with _ | enumerant
  · exact within_throw (ht.stop _ fun h => h)
  · exact within_pure _

lemma within_generateFieldDefaultForType {scope : TypeScope} {ty : Ty}
    (hty : ty.Loaded ctx.loader) :
    Within t (ctx.generateFieldDefaultForType scope ty) := by
  refine within_ite (fun _ => within_pure _) fun _ => ?_
  rcases ty with ⟨listDepth, kind⟩
  cases kind with
  | enum schema parameters => exact within_enumerantOf ht hty 0
  | _ => exact within_pure _

lemma within_writeWords (value : Value) (expr : Expr) :
    Within t (GeneratorContext.writeWords value expr) :=
  within_ite (fun _ => within_pure _) fun _ => within_throw (ht.stop _ fun h => h)

lemma within_generateDataValue {scope : TypeScope} {ty : Ty} (hty : ty.Loaded ctx.loader)
    (value : Value) : Within t (ctx.generateDataValue scope ty.kind value) := by
  rcases ty with ⟨listDepth, kind⟩
  cases kind with
  | prim p => exact within_pure _
  | enum schema parameters => exact within_enumerantOf ht hty _
  | _ => exact within_throw (ht.stop _ fun h => h)

lemma within_generateFieldDefaultValue {scope : TypeScope} {ty : Ty} (hty : ty.Loaded ctx.loader)
    (value : Value) :
    Within t (ctx.generateFieldDefaultValue scope ty value) := by
  refine within_ite (fun _ => within_writeWords ht value _) fun _ => ?_
  refine within_ite (fun _ => within_generateDataValue ht hty value) fun _ => ?_
  rcases ty with ⟨listDepth, kind⟩
  cases kind with
  | interface schema parameters | anyCapability | scopeBound scope index
  | implicitMethodParameter index =>
    exact within_pure _
  | _ => exact within_writeWords ht value _

lemma within_fieldDescriptor {scope : TypeScope} {fieldType : FieldType}
    (hfield : fieldType.Loaded ctx.loader) :
    Within t (ctx.fieldDescriptor scope fieldType) := by
  cases fieldType with
  | group schema => exact within_pure _
  | slot offset ty defaultValue =>
    refine within_ite (fun _ => within_pure _) fun _ => ?_
    refine within_bind ?_ fun _ _ => within_pure _
    rcases defaultValue with _ | value
    · exact within_generateFieldDefaultForType ht hfield
    · exact within_generateFieldDefaultValue ht hfield value

lemma within_makeUnique (idents : IdentifierSet) (name : Name) :
    Within t (idents.makeUnique names name) :=
  IdentifierSet.within_makeUnique ht.stop idents name

lemma within_generateField {fieldType : FieldType} (hfield : fieldType.Loaded ctx.loader)
    (name : Name) (info : StructInfo) (descriptorIdents accessorIdents : IdentifierSet) :
    Within t
      (ctx.generateField names fieldType name info descriptorIdents accessorIdents) := by
  refine within_bind (within_makeUnique ht _ _) fun accessor _ => ?_
  refine within_bind (within_makeUnique ht _ _) fun descriptor _ => ?_
  refine within_bind (within_fieldDescriptor ht hfield) fun own _ => ?_
  refine within_bind (within_resolveFieldType ht hfield) fun synType _ => ?_
  refine within_ite (fun _ => ?_) fun _ => within_pure _
  exact within_bind (within_makeUnique ht _ _) fun _ _ => within_pure _

/-- The type of a field, once it is resolved. -/
lemma within_fieldType {f : FieldType → Prog Stop FileContext α} {field : Field}
    (hf : ∀ fieldType, fieldType.Loaded ctx.loader → Within t (f fieldType)) :
    Within t (liftError (ctx.loader.fieldType field) >>= f) := by
  refine within_bind (within_lift ht) ?_
  rintro fieldType ⟨c, c', -, hrun⟩
  exact hf fieldType (loaded_of_fieldType (eq_ok_of_liftError hrun))

lemma within_generateFields (schema : StructSchema) (info : StructInfo)
    (fields : List (Field × ℕ)) (idents : GeneratorContext.StructIdents) :
    Within t (ctx.generateFields names schema info fields idents) := by
  refine within_fold ?_ _
  rintro ⟨field, idx⟩ - ⟨generated, idents⟩
  refine within_bind (within_nameOf ht.stop _ _) fun name _ => ?_
  refine within_fieldType ht fun fieldType hfield => ?_
  refine within_bind (within_generateField ht hfield _ _ _ _) fun _ _ => ?_
  exact within_pure _

lemma within_generateVariants (schema : StructSchema) (info : StructInfo)
    (variants : List (Field × ℕ)) (idents : GeneratorContext.StructIdents) :
    Within t (ctx.generateVariants names schema info variants idents) := by
  refine within_fold ?_ _
  rintro ⟨field, idx⟩ - ⟨generated, idents⟩
  refine within_bind (within_nameOf ht.stop _ _) fun name _ => ?_
  refine within_bind (within_makeUnique ht _ _) fun discriminant _ => ?_
  refine within_fieldType ht fun fieldType hfield => ?_
  refine within_bind (within_generateField ht hfield _ _ _ _) fun _ _ => ?_
  refine within_bind (within_resolveFieldType ht hfield) fun _ _ => ?_
  exact within_pure _

lemma within_generateMembers (schema : StructSchema) (info : StructInfo) :
    Within t (ctx.generateMembers names schema info) := by
  refine within_ite (fun _ => within_throw (ht.stop _ fun h => h)) fun _ => ?_
  refine within_bind (within_generateFields ht _ _ _ _) fun generated _ => ?_
  refine within_ite (fun _ => within_pure _) fun _ => ?_
  exact within_bind (within_generateVariants ht _ _ _ _) fun _ _ => within_pure _

lemma within_generateConst (schema : ConstSchema) (info : ConstInfo) :
    Within t (ctx.generateConst schema info) := by
  refine within_bind (within_lift ht) ?_
  rintro ty ⟨c, c', -, hrun⟩
  have hty : ty.Loaded ctx.loader := loaded_of_resolveTypeInner _ 0 (eq_ok_of_liftError hrun)
  refine within_bind (within_resolveType ht hty) fun constType _ => ?_
  refine within_bind (within_ite (fun _ => ?_) fun _ => ?_) fun value _ => within_pure _
  · exact within_generateDataValue ht hty _
  · exact within_writeWords ht _ _

end Within

/-! ## The walk of generation -/

section Walk

variable {visited ids ids' : List Id} {c : FileContext} {α β : Type} {n : ℕ}

/-- Two parts of the walk, one after the other. -/
lemma endsBy_walk {x : ℕ → Prog Stop FileContext α} {f : ℕ → α → Prog Stop FileContext β}
    (hx : EndsBy n (onWay ctx visited ids) c x)
    (hf : ∀ a c', (onWay ctx c'.visited []).inv c' → x n c = .ok a c' →
      EndsBy n (onWay ctx c'.visited ids') c' fun depth => f depth a) :
    EndsBy n (onWay ctx visited (ids ++ ids')) c fun depth => x depth >>= f depth := by
  refine endsBy_bind hx ?_ ?_ (fun _ h => h) fun _ h => h
  · rintro a c' ⟨himports, new, hnew, hsub⟩ hrun
    have hstart : (onWay ctx c'.visited []).inv c' :=
      ⟨himports, [], (List.append_nil _).symm, List.Sublist.refl _⟩
    refine (hf a c' hstart hrun).imp ?_ (fun _ h => h) fun _ h => h
    rintro c'' ⟨himports', new', hnew', hsub'⟩
    exact ⟨himports', new ++ new', by rw [hnew', hnew, List.append_assoc], hsub.append hsub'⟩
  · rintro c' ⟨himports, new, hnew, hsub⟩
    exact ⟨himports, new, hnew, hsub.trans (List.sublist_append_left _ _)⟩

/-- A part that does not recurse, and the walk after it. -/
lemma Within.endsBy_walk {x : Prog Stop FileContext α} {f : ℕ → α → Prog Stop FileContext β}
    (hx : Within (onWay ctx c.visited []) x) (hc : (onWay ctx c.visited []).inv c)
    (hf : ∀ a c', (onWay ctx c'.visited []).inv c' → x c = .ok a c' →
      EndsBy n (onWay ctx c'.visited ids) c' fun depth => f depth a) :
    EndsBy n (onWay ctx c.visited ids) c fun depth => x >>= f depth := by
  show EndsBy n (onWay ctx c.visited ([] ++ ids)) c _
  exact Codegen.endsBy_walk (hx.endsBy hc) hf

lemma onWay_start (hc : (onWay ctx c.visited []).inv c) : (onWay ctx c.visited ids).inv c := by
  obtain ⟨himports, new, hnew, hsub⟩ := hc
  exact ⟨himports, new, hnew, hsub.trans (List.nil_sublist _)⟩

/-- The part of the walk is over. -/
lemma Within.endsBy_done {x : Prog Stop FileContext α} (hx : Within (onWay ctx c.visited []) x)
    (hc : (onWay ctx c.visited []).inv c) :
    EndsBy n (onWay ctx c.visited ids) c fun _ => x := by
  refine (hx.endsBy hc).imp ?_ (fun _ h => h) fun _ h => h
  rintro c' ⟨himports, new, hnew, hsub⟩
  exact ⟨himports, new, hnew, hsub.trans (List.nil_sublist _)⟩

/-- What a struct was recorded as is looked up. -/
lemma endsBy_findStruct (hsound : ctx.info.Sound ctx.loader) {schema : StructSchema}
    (hloaded : (NestedItem.struct schema).Loaded ctx.loader) (hc : (onWay ctx c.visited []).inv c)
    {f : ℕ → StructInfo → Prog Stop FileContext α}
    (hf : ∀ info, EndsBy n (onWay ctx c.visited ids) c fun depth => f depth info) :
    EndsBy n (onWay ctx c.visited ids) c fun depth =>
      ctx.findInfo schema.node.id >>= fun info => info.unwrapStruct >>= f depth := by
  rcases hlookup : ctx.info.lookup schema.node.id with _ | info
  · have hfind : ctx.findInfo schema.node.id =
        Prog.throw (.error (.schema (.missingNode schema.node.id))) := by
      simp only [GeneratorContext.findInfo, hlookup, liftError]
    rw [hfind]
    exact Within.endsBy_done (within_throw fun h => h) hc
  · have hfind : ctx.findInfo schema.node.id = pure info := by
      simp only [GeneratorContext.findInfo, hlookup, liftError]
    obtain ⟨struct, rfl⟩ := hsound.struct_of_mem hloaded (NodeInfoMap.mem_of_lookup hlookup)
    rw [hfind]
    exact hf struct

/-- A loop goes the way of its list, one element after the other. -/
lemma endsBy_fold {f : ℕ → β → α → Prog Stop FileContext β} {P : List α → List Id → Prop} {as : List α} {b : β}
    (hcons : ∀ a as ids b c, P (a :: as) ids → (onWay ctx c.visited []).inv c →
      (∀ ids b c, P as ids → (onWay ctx c.visited []).inv c →
        EndsBy n (onWay ctx c.visited ids) c fun depth => fold (f depth) b as) →
      EndsBy n (onWay ctx c.visited ids) c fun depth => f depth b a >>= fun b => fold (f depth) b as)
    (hwalk : P as ids) (hc : (onWay ctx c.visited []).inv c) :
    EndsBy n (onWay ctx c.visited ids) c fun depth => fold (f depth) b as := by
  induction as generalizing b c ids with
  | nil => exact Within.endsBy_done (within_pure _) hc
  | cons a as ih => exact hcons a as ids b c hwalk hc fun ids b c hwalk hc => ih hwalk hc

lemma endsBy_generateNestedItems {item : ℕ → Id → NestedItem → Prog Stop FileContext
      (Option GeneratedItem)} {node : Node} {k : ℕ}
    (hitem : ∀ (named : NamedNestedItem) c ids, named.item.Loaded ctx.loader → named.item.node.id = named.id →
      ctx.loader.Walks [named.item] ids → ids.length ≤ k → (onWay ctx c.visited []).inv c →
      EndsBy n (onWay ctx c.visited ids) c fun depth => item depth named.id named.item)
    (hwalk : ctx.loader.Walks (ctx.loader.itemsOf node) ids) (hk : ids.length ≤ k)
    (hc : (onWay ctx c.visited []).inv c) :
    EndsBy n (onWay ctx c.visited ids) c fun depth =>
      ctx.generateNestedItems (item depth) node := by
  unfold SchemaLoader.itemsOf at hwalk
  refine endsBy_fold (P := fun nested ids => nested ⊆ ctx.loader.nestedItems node ∧
    ctx.loader.Walks (nested.filterMap _) ids ∧ ids.length ≤ k) ?_ ⟨List.Subset.refl _, hwalk, hk⟩ hc
  rintro first rest ids generated c ⟨hsub, hwalk, hk⟩ hc ih
  have hrest : rest ⊆ ctx.loader.nestedItems node := fun x hx => hsub (List.mem_cons_of_mem _ hx)
  rcases first with e | named
  · -- an item that cannot be opened ends the walk
    exact endsBy_of_error (fun _ => rfl) (fun h => h) (onWay_start hc)
  · obtain ⟨hloaded, hid⟩ := SchemaLoader.mem_nestedItems (hsub List.mem_cons_self)
    obtain ⟨inner, others, rfl, hinner, hothers⟩ := Walk.of_cons hwalk
    rw [List.length_append] at hk
    have hfirst : EndsBy n (onWay ctx c.visited (named.item.node.id :: inner)) c fun depth =>
        item depth named.id named.item >>= fun item => pure (generated ++ item.toList) := by
      refine EndsBy.bind (hitem named c _ hloaded hid (Walk.single hinner) (by omega) hc) ?_
      exact fun item c' hc' _ => (within_pure _).endsBy hc'
    refine endsBy_walk hfirst fun generated' c' hc' _ => ?_
    exact ih others generated' c' ⟨hrest, hothers, by omega⟩ hc'

lemma endsBy_generateGroups (hsound : ctx.info.Sound ctx.loader)
    {struct : ℕ → StructSchema → StructInfo → Prog Stop FileContext
      (GeneratedStruct GeneratedItem)} {schema : StructSchema} {k : ℕ}
    (hstruct : ∀ group info c ids, (NestedItem.struct group).Loaded ctx.loader →
      ctx.loader.Walks [.struct group] ids → ids.length ≤ k → (onWay ctx c.visited []).inv c →
      EndsBy n (onWay ctx c.visited ids) c fun depth => struct depth group info)
    (hwalk : ctx.loader.Walks (ctx.loader.groupsOf schema.info.fields) ids) (hk : ids.length ≤ k)
    (hc : (onWay ctx c.visited []).inv c) :
    EndsBy n (onWay ctx c.visited ids) c fun depth => ctx.generateGroups (struct depth) schema := by
  refine endsBy_fold (P := fun fields ids => ctx.loader.Walks (ctx.loader.groupsOf fields) ids ∧ ids.length ≤ k)
    ?_ ⟨hwalk, hk⟩ hc
  rintro field fields ids generated c ⟨hwalk, hk⟩ hc ih
  rcases hfield : ctx.loader.fieldType field with e | fieldType
  · exact endsBy_of_error (fun _ => rfl) (fun h => h) (onWay_start hc)
  simp only [SchemaLoader.groupsOf, List.filterMap_cons, hfield] at hwalk
  rcases fieldType with ⟨offset, ty, defaultValue⟩ | group
  · exact Within.endsBy_walk (within_pure _) hc fun generated' c' hc' _ => ih ids generated' c' ⟨hwalk, hk⟩ hc'
  · have hloaded := SchemaLoader.group_loaded hfield
    obtain ⟨inner, others, rfl, hinner, hothers⟩ := Walk.of_cons hwalk
    rw [List.length_append] at hk
    refine endsBy_walk (endsBy_findStruct hsound hloaded hc fun info => EndsBy.bind
      (hstruct group info c _ hloaded (Walk.single hinner) (by omega) hc) ?_) ?_
    · intro item c' hc' _
      exact (within_pure _).endsBy hc'
    · intro generated' c' hc' _
      exact ih others generated' c' ⟨hothers, by omega⟩ hc'

/-- An item takes one depth more than a struct. -/
lemma endsBy_generateItem (hsound : ctx.info.Sound ctx.loader) {item : NestedItem} {id : Id}
    (hloaded : item.Loaded ctx.loader) (hid : item.node.id = id)
    (hc : (onWay ctx c.visited []).inv c)
    (hstruct : ∀ schema info, item = .struct schema →
      EndsBy n (onWay ctx c.visited ids) c fun depth => ctx.generateStruct names depth schema info) :
    EndsBy (n + 1) (onWay ctx c.visited ids) c fun depth => ctx.generateItem names depth id item := by
  subst hid
  refine EndsBy.succ ?_
  cases item with
  | struct schema =>
    refine endsBy_findStruct hsound hloaded hc fun info => EndsBy.bind (hstruct schema info rfl) ?_
    intro generated c' hc' _
    exact (within_pure _).endsBy hc'
  | enum schema =>
    refine Within.endsBy_done (within_findEnum (generates_onWay hsound) hloaded fun info _ => ?_) hc
    exact within_pure _
  | const schema =>
    refine Within.endsBy_done (within_findInfo (generates_onWay hsound) fun info hmem => ?_) hc
    obtain ⟨const, rfl⟩ := hsound.const_of_mem hloaded hmem
    exact within_bind (within_generateConst (generates_onWay hsound) schema const) fun _ _ => within_pure _
  | interface node => exact Within.endsBy_done (within_findInfo (generates_onWay hsound) fun _ _ => within_pure _) hc
  | annotationDecl node =>
    exact Within.endsBy_done (within_findInfo (generates_onWay hsound) fun _ _ => within_pure _) hc

/-- The induction is on the length of the walk below the struct. -/
lemma endsBy_generateStruct (hsound : ctx.info.Sound ctx.loader) {schema : StructSchema} {k : ℕ}
    (info : StructInfo) (hwalk : ctx.loader.Walks [.struct schema] ids) (hk : ids.length ≤ k)
    (hc : (onWay ctx c.visited []).inv c) :
    EndsBy (2 * k) (onWay ctx c.visited ids) c fun depth =>
      ctx.generateStruct names depth schema info := by
  induction k generalizing schema info c ids with
  | zero =>
    obtain ⟨inner, others, rfl, -, -⟩ := Walk.of_cons hwalk
    simp at hk
  | succ k ih =>
    obtain ⟨inner, others, rfl, hinner, hothers⟩ := Walk.of_cons hwalk
    obtain rfl := hothers.eq_nil
    obtain ⟨first, second, rfl, hfirst, hsecond⟩ := Walk.of_append hinner
    simp only [List.length_append, List.length_cons, List.length_nil] at hk
    refine EndsBy.succ (n := 2 * k + 1) ?_
    have hvisit : EndsBy (2 * k + 1) (onWay ctx c.visited [schema.node.id]) c fun _ =>
        visit schema.node.id := by
      refine ⟨_, fun _ _ => rfl, hc.1, [schema.node.id], rfl, List.Sublist.refl _⟩
    have hids : schema.node.id :: (first ++ second) ++ [] =
        [schema.node.id] ++ (first ++ (second ++ [])) := by
      simp
    show EndsBy _ (onWay ctx c.visited (schema.node.id :: (first ++ second) ++ [])) _ _
    rw [hids]
    refine endsBy_walk hvisit fun _ c₁ hc₁ _ => ?_
    refine Within.endsBy_walk (within_generateMembers (generates_onWay hsound) schema info) hc₁ ?_
    rintro ⟨fields, which⟩ c₂ hc₂ -
    refine endsBy_walk (endsBy_generateNestedItems (k := k) ?_ hfirst (by omega) hc₂) ?_
    · intro named c ids hloaded hid hwalk hk hc
      refine endsBy_generateItem hsound hloaded hid hc ?_
      intro schema' info' hitem
      rw [hitem] at hwalk
      exact ih info' hwalk hk hc
    · intro nestedItems c₃ hc₃ _
      refine endsBy_walk (endsBy_generateGroups (k := k) hsound ?_ hsecond (by omega) hc₃) ?_
      · intro group info' c ids _ hwalk hk hc
        exact (ih info' hwalk hk hc).mono (by omega)
      · intro groups c₄ hc₄ _
        exact Within.endsBy_done (within_pure _) hc₄

/-- **Generation ends**, and it takes the way that validation took. -/
lemma endsBy_generateFile (names : Spelling) (ctx : GeneratorContext)
    (hsound : ctx.info.Sound ctx.loader)
    (hfiles : ∀ file ∈ ctx.loader.files, ∃ ids, ids.Nodup ∧
      ctx.loader.Walks (ctx.loader.itemsOf file) ids) (id : Id) :
    ∃ n ids, ids.Nodup ∧ EndsBy n (onWay ctx [] ids) FileContext.new fun depth =>
      ctx.generateFile names depth id := by
  have hstart : (onWay ctx FileContext.new.visited []).inv FileContext.new :=
    ⟨fun id hid => (nomatch hid), [], rfl, List.Sublist.refl _⟩
  rcases hschema : ctx.loader.trySchema FileSchema.fromNode id with e | schema
  · refine ⟨0, [], List.nodup_nil, ?_⟩
    refine endsBy_of_error (e := .error e) (fun depth => ?_) (fun h => h) hstart
    rw [GeneratorContext.generateFile, hschema]
    rfl
  obtain ⟨node, hget, hfrom⟩ := SchemaLoader.trySchema_eq_ok hschema
  obtain ⟨rfl, hwhich⟩ := isFile_of_fromNode hfrom
  have hmem : schema ∈ ctx.loader.files :=
    List.mem_filterMap.2 ⟨schema, List.mem_of_find?_eq_some hget, hfrom⟩
  obtain ⟨ids, hnodup, hwalk⟩ := hfiles schema hmem
  refine ⟨2 * ids.length + 1, ids, hnodup, ?_⟩
  show EndsBy _ (onWay ctx FileContext.new.visited ids) _ _
  refine Within.endsBy_walk (within_lift (generates_onWay hsound) (r := ctx.loader.trySchema FileSchema.fromNode id))
    hstart ?_
  intro schema' c₁ hc₁ hrun
  obtain rfl : schema = schema' := by
    have hok := eq_ok_of_liftError hrun
    rw [hschema] at hok
    exact Except.ok.inj hok
  refine Within.endsBy_walk (within_lift (generates_onWay hsound) : Within _ (ctx.findInfo id)) hc₁ ?_
  intro info c₂ hc₂ hrun
  obtain ⟨file, rfl⟩ := hsound.file_of_mem hget hwhich (GeneratorContext.mem_of_findInfo hrun)
  refine Within.endsBy_walk (within_pure file) hc₂ ?_
  intro info c₃ hc₃ _
  have hitems : EndsBy (2 * ids.length + 1) (onWay ctx c₃.visited ids) c₃ fun depth =>
      ctx.generateNestedItems (ctx.generateItem names depth) schema := by
    refine endsBy_generateNestedItems (k := ids.length) ?_ hwalk le_rfl hc₃
    intro named c ids hloaded hid hwalk hk hc
    refine endsBy_generateItem hsound hloaded hid hc ?_
    intro schema' info' hitem
    rw [hitem] at hwalk
    exact endsBy_generateStruct hsound info' hwalk hk hc
  refine EndsBy.imp (t := onWay ctx c₃.visited (ids ++ [])) (endsBy_walk hitems ?_)
    (fun _ h => by rwa [List.append_nil] at h) (fun _ h => h) fun _ h => h
  intro items c₄ hc₄ _
  -- the files whose modules are imported are recorded
  have himports : ∀ id ∈ c₄.requiredImports, ∃ file, (id, .file file) ∈ ctx.info := hc₄.1
  refine Within.endsBy_walk within_get hc₄ ?_
  intro c c₅ hc₅ hget
  cases hget
  refine Within.endsBy_done (within_bind (within_fold ?_ _) fun _ _ => within_pure _) hc₅
  intro id hid imports
  obtain ⟨file, hfile⟩ := himports id hid
  obtain ⟨node, hget, hdescribes⟩ := hsound.describes id _ hfile
  refine within_findInfo (generates_onWay hsound) fun info hmem => ?_
  obtain ⟨file, rfl⟩ := hsound.file_of_mem hget hdescribes hmem
  exact within_pure _

end Walk

/-! ## Validation makes generation finite -/

/-- Validation ended, with a result or with an error, and recorded no node twice. -/
def RecordsOnce {α : Type} : Outcome Stop Validation α → Prop
  | .ok _ v => v.ids.Nodup
  | .error _ v => v.ids.Nodup
  | .halt _ => False

/-- Generation of a file ended, was at no struct twice, and did not panic because a node was
recorded as something else than it was looked up for. -/
def VisitsOnce {α : Type} : Outcome Stop FileContext α → Prop
  | .ok _ c => c.visited.Nodup
  | .error stop c => c.visited.Nodup ∧ ¬ stop.IsUnwrap
  | .halt _ => False

lemma recordsOnce_of_allows {α : Type} {o : Outcome Stop Validation α}
    (h : (goesOn loader []).Allows o) : RecordsOnce o := by
  rcases o with ⟨a, v⟩ | ⟨stop, v⟩ | r
  · exact h.1.nodup
  · exact h.2.1.nodup
  · exact h

lemma visitsOnce_of_allows {α : Type} {ids : List Id} (hnodup : ids.Nodup)
    {o : Outcome Stop FileContext α} (h : (onWay ctx [] ids).Allows o) : VisitsOnce o := by
  have hvisited : ∀ c, (onWay ctx [] ids).inv c → c.visited.Nodup := by
    rintro c ⟨-, new, hnew, hsub⟩
    rw [hnew]
    exact hnodup.sublist hsub
  rcases o with ⟨a, c⟩ | ⟨stop, c⟩ | r
  · exact hvisited c h
  · exact ⟨hvisited c h.2, h.1⟩
  · exact h

open Filter in
/-- **Validation makes generation finite.**  For every set of loaded nodes, in whatever order the
files come, validation ends and records no node twice.  When it succeeds, generation of every
file ends as well, is at no struct twice, and finds every node recorded as what it looks it up
for. -/
theorem generation_finite (names : Spelling) (loader : SchemaLoader) :
    ∃ o, (∀ᶠ depth in atTop, GeneratorContext.new names loader depth Validation.new = o) ∧
      RecordsOnce o ∧
      ∀ ctx v, o = .ok ctx v → ∀ id, ∃ o',
        (∀ᶠ depth in atTop, ctx.generateFile names depth id FileContext.new = o') ∧
        VisitsOnce o' := by
  obtain ⟨o, hrun, ho⟩ := endsBy_new names loader
  refine ⟨o, eventually_atTop.2 ⟨_, hrun⟩, recordsOnce_of_allows ho, ?_⟩
  rintro ctx v rfl id
  obtain ⟨rfl, hwalks⟩ := walks_of_new (hrun _ le_rfl)
  obtain ⟨hsound, -⟩ := ho
  have hfiles : ∀ file ∈ loader.files, ∃ ids, ids.Nodup ∧
      loader.Walks (loader.itemsOf file) ids := by
    intro file hfile
    obtain ⟨ids, hsub, hwalk⟩ := hwalks file hfile
    exact ⟨ids, List.Nodup.sublist hsub hsound.nodup, hwalk⟩
  obtain ⟨n, ids, hnodup, o', hrun', ho'⟩ :=
    endsBy_generateFile names ⟨loader, v.nodes⟩ hsound hfiles id
  exact ⟨o', eventually_atTop.2 ⟨n, hrun'⟩, visitsOnce_of_allows hnodup ho'⟩

end Recapn.Codegen

/-
# Validation of the schema

Validation goes through the files and, below each of them, through nested items and groups, and
records for every node what generation will look up: its identifiers and its scope.  A node that
is recorded already ends it with an error.
-/
import Recapn.Codegen.Ident

namespace Recapn.Codegen

open Recapn.Lib Recapn.Lib.Prog

/-! ## What is recorded of a node -/

structure TypeInfo where
  typeIdent : Ident
  scope : TypeScope

structure FileInfo where
  modIdent : Ident
  path : Name

structure StructInfo where
  typeInfo : TypeInfo
  modIdent : Ident

structure EnumInfo where
  typeInfo : TypeInfo
  enumerants : List Ident

structure ConstInfo where
  ident : Ident
  scope : TypeScope

inductive NodeInfo where
  | file (info : FileInfo)
  | struct (info : StructInfo)
  | enum (info : EnumInfo)
  | const (info : ConstInfo)
  | interface
  | annotationDecl

variable {σ : Type}

namespace NodeInfo

def unwrapFile : NodeInfo → Prog Stop σ FileInfo
  | .file info => pure info
  | _ => throw (.panic .expectedFile)

def unwrapStruct : NodeInfo → Prog Stop σ StructInfo
  | .struct info => pure info
  | _ => throw (.panic .expectedStruct)

def unwrapEnum : NodeInfo → Prog Stop σ EnumInfo
  | .enum info => pure info
  | _ => throw (.panic .expectedEnum)

def unwrapConst : NodeInfo → Prog Stop σ ConstInfo
  | .const info => pure info
  | _ => throw (.panic .expectedConst)

/-- The scope that was recorded. -/
def scope : NodeInfo → Option TypeScope
  | .struct info => some info.typeInfo.scope
  | .enum info => some info.typeInfo.scope
  | .const info => some info.scope
  | _ => none

end NodeInfo

/-- The infos by the ids of their nodes, in the order in which they were recorded. -/
abbrev NodeInfoMap := List (Id × NodeInfo)

/-- What validation works on. -/
structure Validation where
  nodes : NodeInfoMap
  identifiers : ScopedIdentifierSet

namespace Validation

/-- Nothing is recorded. -/
def new : Validation := ⟨[], []⟩

/-- The ids of which something is recorded. -/
def ids (v : Validation) : List Id := v.nodes.map Prod.fst

end Validation

/-- `nodes.entry(id)`, which must be vacant. -/
def vacantEntry (id : Id) : Prog Stop Validation Unit := do
  let v ← get
  if id ∈ v.ids then throw (.error (.schema (.duplicateNode id))) else pure ()

/-- `entry.insert(info)`. -/
def insertInfo (id : Id) (info : NodeInfo) : Prog Stop Validation Unit :=
  modify fun v => { v with nodes := v.nodes ++ [(id, info)] }

/-- `identifiers.make_unique(scope, name)`. -/
def makeUniqueIn (names : Spelling) (scope : Option TypeScope) (name : Name) :
    Prog Stop Validation Ident := do
  let v ← get
  let (ident, identifiers) ← v.identifiers.makeUnique names scope name
  modify fun v => { v with identifiers := identifiers }
  pure ident

/-- `as_str` on a name, with the error for what it belongs to. -/
def nameOf (context : NameContext) (text : Text) : Prog Stop σ Name :=
  match text.asStr with
  | some name => pure name
  | none => throw (.error (.generator (.invalidName context)))

/-! ## Validation -/

/-- The name of the identifier that the union of a struct takes. -/
def whichName : Name := ['W', 'h', 'i', 'c', 'h']

/-- The end of the path of a generated file. -/
def rsExtension : Name := ['.', 'r', 's']

/-- The identifiers of the enumerants of an enum. -/
def validateEnumerants (names : Spelling) (schema : EnumSchema) :
    Prog Stop Validation (List Ident) := do
  let (enumerants, _) ← fold
    (fun (enumerants, idents) (enumerant, idx) => do
      let name ← nameOf (.enumerant schema.node.id idx) enumerant
      let (ident, idents) ← IdentifierSet.makeUnique names idents (names.asPascalCase name)
      pure (enumerants ++ [ident], idents))
    (([], []) : List Ident × IdentifierSet) schema.enumerants.zipIdx
  pure enumerants

def validateEnum (names : Spelling) (schema : EnumSchema) (name : Name) (scope : TypeScope) :
    Prog Stop Validation Unit := do
  vacantEntry schema.node.id
  let typeIdent ← makeUniqueIn names (some scope) (names.asPascalCase name)
  let enumerants ← validateEnumerants names schema
  insertInfo schema.node.id (.enum ⟨⟨typeIdent, scope⟩, enumerants⟩)

def validateInterface (node : Node) : Prog Stop Validation Unit := do
  vacantEntry node.id
  insertInfo node.id .interface

def validateConst (names : Spelling) (schema : ConstSchema) (name : Name) (scope : TypeScope) :
    Prog Stop Validation Unit := do
  vacantEntry schema.node.id
  let ident ← makeUniqueIn names (some scope) (names.asShoutySnakeCase name)
  insertInfo schema.node.id (.const ⟨ident, scope⟩)

def validateAnnotation (node : Node) : Prog Stop Validation Unit := do
  vacantEntry node.id
  insertInfo node.id .annotationDecl

/-- A union takes the name of its discriminant in the scope of its struct. -/
def takeWhich (names : Spelling) (schema : StructSchema) (inner : TypeScope) :
    Prog Stop Validation Unit :=
  if schema.info.discriminantCount ≠ 0 then do
    let _ ← makeUniqueIn names (some inner) whichName
    pure ()
  else pure ()

/-- The loop over the nested items of a struct. -/
def validateNestedItems (loader : SchemaLoader)
    (validateItem : NamedNestedItem → Prog Stop Validation Unit) (node : Node) :
    Prog Stop Validation Unit :=
  fold (fun _ nested => do
      let nested ← liftError nested
      validateItem nested)
    () (loader.nestedItems node)

/-- The loop over the groups of a struct.  Groups are not among its nested nodes, they are found
through its fields. -/
def validateGroups (loader : SchemaLoader)
    (validateStruct : StructSchema → Name → Prog Stop Validation Unit) (schema : StructSchema) :
    Prog Stop Validation Unit :=
  fold (fun _ (field, idx) => do
      match ← liftError (loader.fieldType field) with
      | .group group => do
        let name ← nameOf (.field schema.node.id idx) field.name
        validateStruct group name
      | .slot _ _ _ => pure ())
    () schema.info.fields.zipIdx

mutual

/-- `validate_item`, with so much depth for its recursion. -/
def validateItem (names : Spelling) (loader : SchemaLoader) :
    ℕ → NamedNestedItem → TypeScope → Prog Stop Validation Unit
  | 0, _, _ => halt .depth
  | depth + 1, node, scope => do
    let name ← nameOf (.node node.id) node.name
    match node.item with
    | .struct schema => validateStruct names loader depth schema name scope
    | .enum schema => validateEnum names schema name scope
    | .interface node => validateInterface node
    | .const schema => validateConst names schema name scope
    | .annotationDecl node => validateAnnotation node

/-- `validate_struct`.  The scope that it pushes is popped before it returns. -/
def validateStruct (names : Spelling) (loader : SchemaLoader) :
    ℕ → StructSchema → Name → TypeScope → Prog Stop Validation Unit
  | 0, _, _, _ => halt .depth
  | depth + 1, schema, name, scope => do
    vacantEntry schema.node.id
    let typeIdent ← makeUniqueIn names (some scope) (names.asPascalCase name)
    let modIdent ← makeUniqueIn names (some scope) (names.asSnakeCase name)
    insertInfo schema.node.id (.struct ⟨⟨typeIdent, scope⟩, modIdent⟩)
    let inner := scope.push ⟨schema.node.id, modIdent⟩
    takeWhich names schema inner
    validateNestedItems loader (fun nested => validateItem names loader depth nested inner)
      schema.node
    validateGroups loader (fun group name => validateStruct names loader depth group name inner)
      schema

end

/-- `validate_file`. -/
def validateFile (names : Spelling) (loader : SchemaLoader) (depth : ℕ) (schema : Node) :
    Prog Stop Validation Unit := do
  vacantEntry schema.id
  let path ← nameOf (.node schema.id) schema.displayName
  let modIdent ← makeUniqueIn names none path
  insertInfo schema.id (.file ⟨modIdent, path ++ rsExtension⟩)
  fold (fun _ nested =>
      match nested with
      -- nodes of files that were not requested can be missing
      | .error (.schema (.missingNode _)) => pure ()
      | nested => do
        let nested ← liftError nested
        validateItem names loader depth nested (.ofFile ⟨schema.id, modIdent⟩))
    () (loader.nestedItems schema)

structure GeneratorContext where
  loader : SchemaLoader
  info : NodeInfoMap

/-- `GeneratorContext::new`, once the nodes are loaded. -/
def GeneratorContext.new (names : Spelling) (loader : SchemaLoader) (depth : ℕ) :
    Prog Stop Validation GeneratorContext := do
  fold (fun _ file => validateFile names loader depth file) () loader.files
  let v ← get
  pure ⟨loader, v.nodes⟩

end Recapn.Codegen

/-
# Generation of the code of a file

Generation walks down from a file once more and looks up what validation recorded.  It keeps no
list of the nodes it has been at.  The tokens of literals are left out.
-/
import Mathlib.Data.List.Sort
import Recapn.Codegen.Validate

namespace Recapn.Codegen

open Recapn.Lib Recapn.Lib.Prog

/-! ## What is generated -/

/-- A path of generated code, segment by segment. -/
abbrev Path := List Ident

/-- The types of generated code.  What the generator has to say about lists, enums, structs and
groups is said of their paths. -/
inductive RustType where
  | prim (p : Primitive)
  | enumOf (path : Path)
  | path (path : Path)
  | data
  | text
  | structOf (path : Path)
  | group (path : Path)
  | anyPtr
  | anyStruct
  | anyList
  | list (element : RustType)
  | constPtr (target : RustType)

/-- The expressions of generated code. -/
inductive Expr where
  | none
  | literal
  | enumerant (type : Path) (enumerant : Ident)
  | some
  | words

structure FieldDescriptor where
  slot : ℕ
  default : Expr

structure GeneratedField where
  typeName : Ident
  fieldType : RustType
  ownAccessorIdent : Option Ident
  accessorIdent : Ident
  descriptorIdent : Ident
  descriptor : Option FieldDescriptor

structure GeneratedVariant where
  discriminantIdent : Ident
  discriminantFieldType : RustType
  case : ℕ
  field : GeneratedField

structure GeneratedWhich where
  tagSlot : ℕ
  fields : List GeneratedVariant

structure GeneratedEnum where
  id : Id
  name : Ident
  enumerants : List Ident

structure GeneratedConst where
  ident : Ident
  constType : RustType
  value : Expr

/-- A struct, around the items that are generated inside its module. -/
structure GeneratedStruct (Item : Type) where
  id : Id
  ident : Ident
  modIdent : Ident
  /-- Data words and pointers; a group has no size of its own. -/
  size : Option (ℕ × ℕ)
  fields : List GeneratedField
  which : Option GeneratedWhich
  nestedItems : List Item

inductive GeneratedItem where
  | struct (generated : GeneratedStruct GeneratedItem)
  | enum (generated : GeneratedEnum)
  | const (generated : GeneratedConst)

structure GeneratedFile where
  items : List GeneratedItem
  ident : Ident

structure GeneratedRootFile where
  ident : Ident
  imports : List Ident
  path : Name

/-! ## Paths -/

def superSegment : Ident := ['s', 'u', 'p', 'e', 'r']
def fileSegment : Ident := ['_', '_', 'f', 'i', 'l', 'e']
def importsSegment : Ident := ['_', '_', 'i', 'm', 'p', 'o', 'r', 't', 's']

/-- The segments of the modules below the given ones, when they are below them.  Modules are
compared by their ids. -/
def stripScopes : List ModScope → List ModScope → Option (List ModScope)
  | modules, [] => some modules
  | [], _ :: _ => none
  | m :: modules, outer :: outers =>
    if m.id = outer.id then stripScopes modules outers else none

/-- `TypeInfo::resolve_path`: the path of the type, from a scope that refers to it. -/
def TypeInfo.resolvePath (type : TypeInfo) (refScope : TypeScope) : Path :=
  let segments := fun modules : List ModScope => modules.map ModScope.modIdent ++ [type.typeIdent]
  if refScope.ids = type.scope.ids then [type.typeIdent]
  else if refScope.file.id = type.scope.file.id then
    if refScope.types ≠ [] ∧
        type.scope.types.map ModScope.id = refScope.types.dropLast.map ModScope.id then
      [superSegment, type.typeIdent]
    else match stripScopes type.scope.types refScope.types with
      | some inner => segments inner
      | none => fileSegment :: segments type.scope.types
  else importsSegment :: type.scope.file.modIdent :: segments type.scope.types

/-! ## Generation -/

/-- What generation of one file works on: the files whose modules it has to import, in ascending
order, and the structs it has been at, which the code does not keep. -/
structure FileContext where
  requiredImports : List Id
  visited : List Id

def FileContext.new : FileContext := ⟨[], []⟩

inductive TypeContext where
  | field
  | const
deriving DecidableEq

/-- `ctx.required_imports.insert(id)`. -/
def requireImport (id : Id) : Prog Stop FileContext Unit :=
  Prog.modify fun ctx =>
    if id ∈ ctx.requiredImports then ctx
    else { ctx with requiredImports := ctx.requiredImports.orderedInsert (· ≤ ·) id }

/-- `generate_struct` is at a struct. -/
def visit (id : Id) : Prog Stop FileContext Unit :=
  Prog.modify fun ctx => { ctx with visited := ctx.visited ++ [id] }

def NodeInfoMap.lookup (info : NodeInfoMap) (id : Id) : Option NodeInfo :=
  (info.find? fun entry => entry.1 == id).map Prod.snd

namespace GeneratorContext

variable (ctx : GeneratorContext)

def findInfo (id : Id) : Prog Stop FileContext NodeInfo :=
  liftError (match ctx.info.lookup id with
    | some info => .ok info
    | none => .error (.schema (.missingNode id)))

/-- Import the file of a type that is in another file. -/
def importFrom (scope : TypeScope) (type : TypeInfo) : Prog Stop FileContext Unit :=
  if type.scope.file.id ≠ scope.file.id then requireImport type.scope.file.id else pure ()

/-- The type that is not in a list, of `resolve_type`. -/
def resolveKind (scope : TypeScope) (info : Ty) (tyCtx : TypeContext) :
    Prog Stop FileContext RustType :=
  match info.kind with
  | .prim p => pure (.prim p)
  | .enum schema _ => do
    let typeInfo := (← (← ctx.findInfo schema.node.id).unwrapEnum).typeInfo
    importFrom scope typeInfo
    let path := typeInfo.resolvePath scope
    if tyCtx = .const ∧ !info.isList then pure (.path path) else pure (.enumOf path)
  | .data => pure .data
  | .text => pure .text
  | .struct schema _ => do
    let typeInfo := (← (← ctx.findInfo schema.node.id).unwrapStruct).typeInfo
    importFrom scope typeInfo
    pure (.structOf (typeInfo.resolvePath scope))
  | .interface _ _ => pure .anyPtr
  | .anyPointer => pure .anyPtr
  | .anyStruct => pure .anyStruct
  | .anyList => pure .anyList
  | .anyCapability => pure .anyPtr
  | .scopeBound _ _ => pure .anyPtr
  | .implicitMethodParameter _ => pure .anyPtr

/-- A type in so many lists. -/
def listOf (type : RustType) : ℕ → RustType
  | 0 => type
  | depth + 1 => .list (listOf type depth)

def resolveType (scope : TypeScope) (info : Ty) (tyCtx : TypeContext) :
    Prog Stop FileContext RustType := do
  let kind ← ctx.resolveKind scope info tyCtx
  let type := listOf kind info.listDepth
  if tyCtx = .const ∧ info.isPtrField then pure (.constPtr type) else pure type

def resolveFieldType (scope : TypeScope) (fieldType : FieldType) :
    Prog Stop FileContext RustType :=
  match fieldType with
  | .group group => do
    let groupType := (← (← ctx.findInfo group.node.id).unwrapStruct).typeInfo
    pure (.group (groupType.resolvePath scope))
  | .slot _ fieldType _ => ctx.resolveType scope fieldType .field

/-- The enumerant of an enum. -/
def enumerantOf (scope : TypeScope) (schema : EnumSchema) (value : ℕ) :
    Prog Stop FileContext Expr := do
  let info ← (← ctx.findInfo schema.node.id).unwrapEnum
  match info.enumerants[value]? with
  | some enumerant => pure (.enumerant (info.typeInfo.resolvePath scope) enumerant)
  | none => throw (.panic .enumerantIndex)

def generateFieldDefaultForType (scope : TypeScope) (info : Ty) : Prog Stop FileContext Expr :=
  if info.listDepth ≠ 0 then pure .none
  else match info.kind with
    | .prim _ => pure .literal
    | .enum schema _ => ctx.enumerantOf scope schema 0
    | _ => pure .none

/-- `generate_data_value`.  Types of other kinds do not get here. -/
def generateDataValue (scope : TypeScope) (kind : TypeKind) (value : Value) :
    Prog Stop FileContext Expr :=
  match kind with
  | .prim _ => pure .literal
  | .enum schema _ => ctx.enumerantOf scope schema (value.enum.getD 0)
  | _ => throw (.panic .defaultValue)

/-- A pointer value as words. -/
def writeWords (value : Value) (expr : Expr) : Prog Stop FileContext Expr :=
  if value.writes then pure expr else throw (.panic .defaultValue)

def generateFieldDefaultValue (scope : TypeScope) (type : Ty) (value : Value) :
    Prog Stop FileContext Expr :=
  if type.isList then writeWords value .some
  else if type.isDataField then ctx.generateDataValue scope type.kind value
  else match type.kind with
    | .interface _ _ => pure .none
    | .anyCapability => pure .none
    | .scopeBound _ _ => pure .none
    | .implicitMethodParameter _ => pure .none
    | _ => writeWords value .some

/-- What `own_accessor_ident` puts before the name of its field. -/
def intoPart : Name := ['i', 'n', 't', 'o', '_']

/-- The default of a slot. -/
def fieldDefault (scope : TypeScope) (type : Ty) : Option Value → Prog Stop FileContext Expr
  | some default => ctx.generateFieldDefaultValue scope type default
  | none => ctx.generateFieldDefaultForType scope type

/-- Whether a field has an accessor of its own, and its descriptor. -/
def fieldDescriptor (scope : TypeScope) :
    FieldType → Prog Stop FileContext (Bool × Option FieldDescriptor)
  | .group _ => pure (true, none)
  | .slot offset type defaultValue =>
    if type.isVoidField then pure (type.isPtrField, none)
    else do
      let default ← ctx.fieldDefault scope type defaultValue
      pure (type.isPtrField, some ⟨offset, default⟩)

/-- `generate_field`.  It returns the descriptor identifiers and the accessor identifiers that
are taken then. -/
def generateField (names : Spelling) (fieldType : FieldType) (name : Name) (info : StructInfo)
    (descriptorIdents accessorIdents : IdentifierSet) :
    Prog Stop FileContext (GeneratedField × IdentifierSet × IdentifierSet) := do
  let scope := info.typeInfo.scope
  let (accessorIdent, accessorIdents) ← accessorIdents.makeUnique names (names.asSnakeCase name)
  let (descriptorIdent, descriptorIdents) ←
    descriptorIdents.makeUnique names (names.asShoutySnakeCase name)
  let (hasOwnAccessor, descriptor) ← ctx.fieldDescriptor scope fieldType
  let synType ← ctx.resolveFieldType scope fieldType
  if hasOwnAccessor then do
    let (ownAccessorIdent, accessorIdents) ←
      accessorIdents.makeUnique names (names.asSnakeCase (intoPart ++ name))
    pure (⟨info.typeInfo.typeIdent, synType, some ownAccessorIdent, accessorIdent, descriptorIdent,
      descriptor⟩, descriptorIdents, accessorIdents)
  else
    pure (⟨info.typeInfo.typeIdent, synType, none, accessorIdent, descriptorIdent, descriptor⟩,
      descriptorIdents, accessorIdents)

def generateEnum (schema : EnumSchema) (info : EnumInfo) : Prog Stop FileContext GeneratedEnum :=
  pure ⟨schema.node.id, info.typeInfo.typeIdent, info.enumerants⟩

def generateConstValue (scope : TypeScope) (type : Ty) (value : Value) :
    Prog Stop FileContext Expr :=
  if type.isDataField then ctx.generateDataValue scope type.kind value
  else writeWords value .words

def generateConst (schema : ConstSchema) (info : ConstInfo) :
    Prog Stop FileContext GeneratedConst := do
  let t ← liftError (ctx.loader.resolveType schema.type)
  let constType ← ctx.resolveType info.scope t .const
  let value ← ctx.generateConstValue info.scope t schema.value
  pure ⟨info.ident, constType, value⟩

/-- The identifiers that are taken inside a struct. -/
structure StructIdents where
  discriminant : IdentifierSet
  descriptor : IdentifierSet
  accessor : IdentifierSet

/-- The fields of a struct that are not in its union. -/
def generateFields (names : Spelling) (schema : StructSchema) (info : StructInfo)
    (fields : List (Field × ℕ)) (idents : StructIdents) :
    Prog Stop FileContext (List GeneratedField × StructIdents) :=
  fold (fun (generated, idents) (field, idx) => do
      let name ← nameOf (.field schema.node.id idx) field.name
      let fieldType ← liftError (ctx.loader.fieldType field)
      let (generatedField, descriptor, accessor) ←
        ctx.generateField names fieldType name info idents.descriptor idents.accessor
      pure (generated ++ [generatedField], ⟨idents.discriminant, descriptor, accessor⟩))
    ([], idents) fields

/-- The fields of a struct that are in its union. -/
def generateVariants (names : Spelling) (schema : StructSchema) (info : StructInfo)
    (variants : List (Field × ℕ)) (idents : StructIdents) :
    Prog Stop FileContext (List GeneratedVariant × StructIdents) :=
  fold (fun (generated, idents) (field, idx) => do
      let name ← nameOf (.field schema.node.id idx) field.name
      let (discriminantIdent, discriminant) ←
        idents.discriminant.makeUnique names (names.asPascalCase name)
      let fieldType ← liftError (ctx.loader.fieldType field)
      let (generatedField, descriptor, accessor) ←
        ctx.generateField names fieldType name info idents.descriptor idents.accessor
      let discriminantFieldType ←
        ctx.resolveFieldType (info.typeInfo.scope.push ⟨schema.node.id, info.modIdent⟩) fieldType
      pure (generated ++ [⟨discriminantIdent, discriminantFieldType, field.discriminantValue,
        generatedField⟩], ⟨discriminant, descriptor, accessor⟩))
    ([], idents) variants

/-- The fields and the union of a struct. -/
def generateMembers (names : Spelling) (schema : StructSchema) (info : StructInfo) :
    Prog Stop FileContext (List GeneratedField × Option GeneratedWhich) := do
  let (fields, variants) := schema.info.fields.zipIdx.partition fun field =>
    field.1.discriminant.isNone
  if schema.info.discriminantCount ≠ variants.length then throw (.panic .discriminantCount)
  else do
    let (generated, idents) ← ctx.generateFields names schema info fields ⟨[], [], []⟩
    if variants = [] then pure (generated, none)
    else do
      let (variants, _) ← ctx.generateVariants names schema info variants idents
      pure (generated, some ⟨schema.info.discriminantOffset, variants⟩)

/-- The loop over the nested items of a struct or a file. -/
def generateNestedItems (generateItem : Id → NestedItem → Prog Stop FileContext
    (Option GeneratedItem)) (node : Node) : Prog Stop FileContext (List GeneratedItem) :=
  fold (fun generated nested => do
      let nested ← liftError nested
      let item ← generateItem nested.id nested.item
      pure (generated ++ item.toList))
    [] (ctx.loader.nestedItems node)

/-- The loop over the groups of a struct. -/
def generateGroups (generateStruct : StructSchema → StructInfo → Prog Stop FileContext
    (GeneratedStruct GeneratedItem)) (schema : StructSchema) :
    Prog Stop FileContext (List GeneratedItem) :=
  fold (fun generated field => do
      match ← liftError (ctx.loader.fieldType field) with
      | .group group => do
        let info ← (← ctx.findInfo group.node.id).unwrapStruct
        let item ← generateStruct group info
        pure (generated ++ [.struct item])
      | .slot _ _ _ => pure generated)
    [] schema.info.fields

mutual

/-- `generate_item`, with so much depth for its recursion. -/
def generateItem (names : Spelling) :
    ℕ → Id → NestedItem → Prog Stop FileContext (Option GeneratedItem)
  | 0, _, _ => halt .depth
  | depth + 1, id, item => do
    let info ← ctx.findInfo id
    match item with
    | .struct schema => do
      let generated ← generateStruct names depth schema (← info.unwrapStruct)
      pure (some (.struct generated))
    | .enum schema => do
      let generated ← generateEnum schema (← info.unwrapEnum)
      pure (some (.enum generated))
    | .const schema => do
      let generated ← ctx.generateConst schema (← info.unwrapConst)
      pure (some (.const generated))
    | .interface _ => pure none
    | .annotationDecl _ => pure none

/-- `generate_struct`. -/
def generateStruct (names : Spelling) :
    ℕ → StructSchema → StructInfo → Prog Stop FileContext (GeneratedStruct GeneratedItem)
  | 0, _, _ => halt .depth
  | depth + 1, schema, info => do
    visit schema.node.id
    let (fields, which) ← ctx.generateMembers names schema info
    let nestedItems ← ctx.generateNestedItems (generateItem names depth) schema.node
    let groups ← ctx.generateGroups (generateStruct names depth) schema
    pure ⟨schema.node.id, info.typeInfo.typeIdent, info.modIdent,
      if schema.info.isGroup then none
      else some (schema.info.dataWordCount, schema.info.pointerCount), fields, which,
      nestedItems ++ groups⟩

end

/-- `generate_file`. -/
def generateFile (names : Spelling) (depth : ℕ) (id : Id) :
    Prog Stop FileContext (GeneratedFile × GeneratedRootFile) := do
  let schema ← liftError (ctx.loader.trySchema FileSchema.fromNode id)
  let info ← (← ctx.findInfo id).unwrapFile
  let items ← ctx.generateNestedItems (ctx.generateItem names depth) schema
  let file ← Prog.get
  let imports ← fold (fun imports id => do
      let info ← (← ctx.findInfo id).unwrapFile
      pure (imports ++ [info.modIdent]))
    [] file.requiredImports
  pure (⟨items, info.modIdent⟩, ⟨info.modIdent, imports, info.path⟩)

end GeneratorContext

end Recapn.Codegen

/-
# Schema nodes and the loader

The nodes of a code generator request, as far as the generator reads them, and the loader that
finds them by their ids.  Ids come from the request: the nested nodes of a node, the groups and
the types of its fields may name any node, or none.
-/
import Mathlib.Algebra.GroupWithZero.Nat
import Mathlib.Data.List.Nodup

namespace Recapn.Codegen

/-- The id of a node. -/
abbrev Id := ℕ

/-- Text as a list of characters. -/
abbrev Name := List Char

/-- A text field of a node.  There is nothing to get with `as_str` when it is not UTF-8. -/
structure Text where
  asStr : Option Name
deriving DecidableEq

/-! ## Errors -/

/-- What a name belongs to. -/
inductive NameContext where
  | node (id : Id)
  | field (typeId : Id) (index : ℕ)
  | enumerant (typeId : Id) (index : ℕ)
deriving DecidableEq

inductive SchemaError where
  | duplicateNode (id : Id)
  | missingNode (id : Id)
  | invalidNestedNode (id : Id)
  | unknownNodeType (variant : ℕ)
  | unknownFieldType (variant : ℕ)
  | unknownType (variant : ℕ)
  | unknownPointerType (variant : ℕ)
  | unknownScopeBinding (variant : ℕ)
  | unexpectedNodeType
deriving DecidableEq

inductive GeneratorError where
  | invalidName (context : NameContext)
  | emptyName
deriving DecidableEq

inductive Error where
  | schema (e : SchemaError)
  | generator (e : GeneratorError)
deriving DecidableEq

/-! ## Nodes -/

/-- The types that hold no other type and name no node. -/
inductive Primitive where
  | void
  | bool
  | int8
  | int16
  | int32
  | int64
  | uint8
  | uint16
  | uint32
  | uint64
  | float32
  | float64
deriving DecidableEq

/-- What an `AnyPointer` may stand for. -/
inductive AnyPointer where
  | anyKind
  | struct
  | list
  | capability
  | parameter (scopeId : Id) (parameterIndex : ℕ)
  | implicitMethodParameter (parameterIndex : ℕ)
  | unknown (variant : ℕ)
deriving DecidableEq

mutual

/-- A type as the request spells it. -/
inductive CapnpType where
  | prim (p : Primitive)
  | text
  | data
  | list (elementType : CapnpType)
  | enum (typeId : Id) (brand : List BrandScope)
  | struct (typeId : Id) (brand : List BrandScope)
  | interface (typeId : Id) (brand : List BrandScope)
  | anyPointer (any : AnyPointer)
  | unknown (variant : ℕ)

/-- What a brand says of the parameters of one scope. -/
inductive BrandScope where
  | bind (scopeId : Id) (bindings : List Binding)
  | inherit (scopeId : Id)
  | unknown (scopeId : Id) (variant : ℕ)

/-- What one parameter is bound to. -/
inductive Binding where
  | type (ty : CapnpType)
  | unbound
  | unknown (variant : ℕ)

end

/-- A value of the request.  Of what it holds, the generator's way through its own tables depends
on the number that it has as an enum value; its pointer is written out as words, or writing it
out panics. -/
structure Value where
  enum : Option ℕ
  writes : Bool
deriving DecidableEq

inductive FieldWhich where
  | slot (offset : ℕ) (type : CapnpType) (defaultValue : Option Value)
  | group (typeId : Id)

structure Field where
  name : Text
  discriminantValue : ℕ
  /-- What kind of field it is, or the number of a kind that is not known. -/
  which : Except ℕ FieldWhich

/-- The struct part of a node. -/
structure StructDecl where
  dataWordCount : ℕ
  pointerCount : ℕ
  isGroup : Bool
  discriminantCount : ℕ
  discriminantOffset : ℕ
  fields : List Field

inductive NodeKind where
  | file
  | struct (info : StructDecl)
  | enum (enumerants : List Text)
  | interface
  | const (type : CapnpType) (value : Value)
  | annotationDecl

structure NestedNode where
  name : Text
  id : Id

structure Node where
  id : Id
  displayName : Text
  nestedNodes : List NestedNode
  /-- What kind of node it is, or the number of a kind that is not known. -/
  which : Except ℕ NodeKind

/-! ## The loader -/

/-- The nodes of the request by their ids, in the order in which the map hands them out. -/
structure SchemaLoader where
  nodes : List Node
  nodup : (nodes.map Node.id).Nodup

structure StructSchema where
  node : Node
  info : StructDecl

structure EnumSchema where
  node : Node
  enumerants : List Text

structure ConstSchema where
  node : Node
  type : CapnpType
  value : Value

/-- Whether the node is a file: `FileSchema::from_node`. -/
def Node.isFile (node : Node) : Bool :=
  match node.which with
  | .ok .file => true
  | _ => false

def FileSchema.fromNode (node : Node) : Option Node :=
  if node.isFile then some node else none

def StructSchema.fromNode (node : Node) : Option StructSchema :=
  match node.which with
  | .ok (.struct info) => some ⟨node, info⟩
  | _ => none

def EnumSchema.fromNode (node : Node) : Option EnumSchema :=
  match node.which with
  | .ok (.enum enumerants) => some ⟨node, enumerants⟩
  | _ => none

def InterfaceSchema.fromNode (node : Node) : Option Node :=
  match node.which with
  | .ok .interface => some node
  | _ => none

/-- `SchemaLoader::get`. -/
def SchemaLoader.get (loader : SchemaLoader) (id : Id) : Option Node :=
  loader.nodes.find? fun node => node.id == id

/-- `SchemaLoader::files`. -/
def SchemaLoader.files (loader : SchemaLoader) : List Node :=
  loader.nodes.filterMap FileSchema.fromNode

/-- `SchemaLoader::try_schema`, for the schemas that `fromNode` recognises. -/
def SchemaLoader.trySchema {T : Type} (loader : SchemaLoader) (fromNode : Node → Option T)
    (id : Id) : Except Error T :=
  match loader.get id with
  | none => .error (.schema (.missingNode id))
  | some node =>
    match fromNode node with
    | none => .error (.schema .unexpectedNodeType)
    | some schema => .ok schema

/-! ## Nested items -/

inductive NestedItem where
  | struct (schema : StructSchema)
  | enum (schema : EnumSchema)
  | interface (node : Node)
  | const (schema : ConstSchema)
  | annotationDecl (node : Node)

/-- The node that the item is. -/
def NestedItem.node : NestedItem → Node
  | .struct schema => schema.node
  | .enum schema => schema.node
  | .interface node => node
  | .const schema => schema.node
  | .annotationDecl node => node

structure NamedNestedItem where
  name : Text
  id : Id
  item : NestedItem

/-- The node of one nested id: the closure in `Schema::nested_items`. -/
def SchemaLoader.nestedItem (loader : SchemaLoader) (nested : NestedNode) :
    Except Error NamedNestedItem :=
  match loader.get nested.id with
  | none => .error (.schema (.missingNode nested.id))
  | some node =>
    match node.which with
    | .error variant => .error (.schema (.unknownNodeType variant))
    | .ok .file => .error (.schema (.invalidNestedNode nested.id))
    | .ok (.struct info) => .ok ⟨nested.name, nested.id, .struct ⟨node, info⟩⟩
    | .ok (.enum enumerants) => .ok ⟨nested.name, nested.id, .enum ⟨node, enumerants⟩⟩
    | .ok .interface => .ok ⟨nested.name, nested.id, .interface node⟩
    | .ok (.const type value) => .ok ⟨nested.name, nested.id, .const ⟨node, type, value⟩⟩
    | .ok .annotationDecl => .ok ⟨nested.name, nested.id, .annotationDecl node⟩

/-- `Schema::nested_items`. -/
def SchemaLoader.nestedItems (loader : SchemaLoader) (node : Node) :
    List (Except Error NamedNestedItem) :=
  node.nestedNodes.map loader.nestedItem

/-! ## Types -/

mutual

/-- A type with the nodes that it names. -/
inductive TypeKind where
  | prim (p : Primitive)
  | enum (schema : EnumSchema) (parameters : List (Id × ScopeBranding))
  | data
  | text
  | struct (schema : StructSchema) (parameters : List (Id × ScopeBranding))
  | interface (schema : Node) (parameters : List (Id × ScopeBranding))
  | anyPointer
  | anyStruct
  | anyList
  | anyCapability
  | scopeBound (scope : Id) (index : ℕ)
  | implicitMethodParameter (index : ℕ)

inductive Ty where
  | mk (listDepth : ℕ) (kind : TypeKind)

inductive ScopeBranding where
  | inherit
  | bind (types : List Ty)

end

/-- The branding of a type: its scopes, sorted by their ids. -/
abbrev Branding := List (Id × ScopeBranding)

namespace Ty

def listDepth : Ty → ℕ
  | .mk listDepth _ => listDepth

def kind : Ty → TypeKind
  | .mk _ kind => kind

def isList (ty : Ty) : Bool := 0 < ty.listDepth

def isDataField (ty : Ty) : Bool :=
  if ty.listDepth ≠ 0 then false
  else match ty.kind with
    | .prim _ => true
    | .enum _ _ => true
    | _ => false

def isPtrField (ty : Ty) : Bool := !ty.isDataField

/-- A field of this type has no place in its struct. -/
def isVoidField : Ty → Bool
  | .mk 0 (.prim .void) => true
  | _ => false

end Ty

/-- The kind of an `AnyPointer` type. -/
def resolveAny : AnyPointer → Except Error TypeKind
  | .anyKind => .ok .anyPointer
  | .struct => .ok .anyStruct
  | .list => .ok .anyList
  | .capability => .ok .anyCapability
  | .parameter scopeId parameterIndex => .ok (.scopeBound scopeId parameterIndex)
  | .implicitMethodParameter parameterIndex => .ok (.implicitMethodParameter parameterIndex)
  | .unknown variant => .error (.schema (.unknownPointerType variant))

mutual

/-- `SchemaLoader::resolve_type_inner`. -/
def SchemaLoader.resolveTypeInner (loader : SchemaLoader) : CapnpType → ℕ → Except Error Ty
  | .prim p, listDepth => .ok (.mk listDepth (.prim p))
  | .text, listDepth => .ok (.mk listDepth .text)
  | .data, listDepth => .ok (.mk listDepth .data)
  | .list elementType, listDepth => loader.resolveTypeInner elementType (listDepth + 1)
  | .enum typeId brand, listDepth => do
    let schema ← loader.trySchema EnumSchema.fromNode typeId
    let scopes ← loader.resolveScopes brand
    .ok (.mk listDepth (.enum schema (scopes.mergeSort fun a b => a.1 ≤ b.1)))
  | .struct typeId brand, listDepth => do
    let schema ← loader.trySchema StructSchema.fromNode typeId
    let scopes ← loader.resolveScopes brand
    .ok (.mk listDepth (.struct schema (scopes.mergeSort fun a b => a.1 ≤ b.1)))
  | .interface typeId brand, listDepth => do
    let schema ← loader.trySchema InterfaceSchema.fromNode typeId
    let scopes ← loader.resolveScopes brand
    .ok (.mk listDepth (.interface schema (scopes.mergeSort fun a b => a.1 ≤ b.1)))
  | .anyPointer any, listDepth => do
    let kind ← resolveAny any
    .ok (.mk listDepth kind)
  | .unknown variant, _ => .error (.schema (.unknownType variant))

/-- The scopes of a brand: the loop of `SchemaLoader::resolve_brand`. -/
def SchemaLoader.resolveScopes (loader : SchemaLoader) :
    List BrandScope → Except Error (List (Id × ScopeBranding))
  | [] => .ok []
  | .bind scopeId bindings :: scopes => do
    let types ← loader.resolveBindings scopeId 0 bindings
    let rest ← loader.resolveScopes scopes
    .ok ((scopeId, .bind types) :: rest)
  | .inherit scopeId :: scopes => do
    let rest ← loader.resolveScopes scopes
    .ok ((scopeId, .inherit) :: rest)
  | .unknown _ variant :: _ => .error (.schema (.unknownScopeBinding variant))

/-- The bindings of one scope, the first of which has the given index. -/
def SchemaLoader.resolveBindings (loader : SchemaLoader) (scopeId : Id) :
    ℕ → List Binding → Except Error (List Ty)
  | _, [] => .ok []
  | index, .type ty :: bindings => do
    let ty ← loader.resolveTypeInner ty 0
    let rest ← loader.resolveBindings scopeId (index + 1) bindings
    .ok (ty :: rest)
  | index, .unbound :: bindings => do
    let rest ← loader.resolveBindings scopeId (index + 1) bindings
    .ok (.mk 0 (.scopeBound scopeId (index % 2 ^ 16)) :: rest)
  | _, .unknown variant :: _ => .error (.schema (.unknownScopeBinding variant))

end

/-- `SchemaLoader::resolve_type`. -/
def SchemaLoader.resolveType (loader : SchemaLoader) (ty : CapnpType) : Except Error Ty :=
  loader.resolveTypeInner ty 0

/-! ## Fields -/

inductive FieldType where
  | slot (offset : ℕ) (fieldType : Ty) (defaultValue : Option Value)
  | group (schema : StructSchema)

/-- `FieldSchema::field_type`. -/
def SchemaLoader.fieldType (loader : SchemaLoader) (field : Field) : Except Error FieldType :=
  match field.which with
  | .error variant => .error (.schema (.unknownFieldType variant))
  | .ok (.slot offset type defaultValue) => do
    let ty ← loader.resolveType type
    .ok (.slot offset ty defaultValue)
  | .ok (.group typeId) => do
    let ty ← loader.trySchema StructSchema.fromNode typeId
    .ok (.group ty)

/-- `FieldSchema::NO_DISCRIMINANT`. -/
def noDiscriminant : ℕ := 0xffff

/-- `FieldSchema::discriminant`. -/
def Field.discriminant (field : Field) : Option ℕ :=
  if field.discriminantValue = noDiscriminant then none else some field.discriminantValue

end Recapn.Codegen

/-
# Loaders with the same nodes

A loader is asked for nodes by their ids.  Of two that find the same nodes, validation and generation do
the same, and generation does the same on two tables that find the same infos.
-/
import Recapn.Codegen.Generate

namespace Recapn.Codegen

open Recapn.Lib Recapn.Lib.Prog

variable {l₁ l₂ : SchemaLoader} {names : Spelling}

lemma trySchema_congr (h : l₁.get = l₂.get) {T : Type} (fromNode : Node → Option T) (id : Id) :
    l₁.trySchema fromNode id = l₂.trySchema fromNode id := by
  simp only [SchemaLoader.trySchema, h]

lemma nestedItems_congr (h : l₁.get = l₂.get) (node : Node) : l₁.nestedItems node = l₂.nestedItems node := by
  have hitem : l₁.nestedItem = l₂.nestedItem := by
    funext nested
    simp only [SchemaLoader.nestedItem, h]
  simp only [SchemaLoader.nestedItems, hitem]

mutual

lemma resolveTypeInner_congr (h : l₁.get = l₂.get) : ∀ (ty : CapnpType) (listDepth : ℕ),
    l₁.resolveTypeInner ty listDepth = l₂.resolveTypeInner ty listDepth
  | .prim p, listDepth | .text, listDepth | .data, listDepth => rfl
  | .list elementType, listDepth => by
    simp only [SchemaLoader.resolveTypeInner, resolveTypeInner_congr h elementType]
  | .enum typeId brand, listDepth | .struct typeId brand, listDepth
  | .interface typeId brand, listDepth => by
    simp only [SchemaLoader.resolveTypeInner, trySchema_congr h, resolveScopes_congr h brand]
  | .anyPointer any, listDepth | .unknown variant, listDepth => rfl

lemma resolveScopes_congr (h : l₁.get = l₂.get) :
    ∀ brand : List BrandScope, l₁.resolveScopes brand = l₂.resolveScopes brand
  | [] => rfl
  | .bind scopeId bindings :: scopes => by
    simp only [SchemaLoader.resolveScopes, resolveBindings_congr h scopeId 0 bindings, resolveScopes_congr h scopes]
  | .inherit scopeId :: scopes => by
    simp only [SchemaLoader.resolveScopes, resolveScopes_congr h scopes]
  | .unknown scopeId variant :: scopes => rfl

lemma resolveBindings_congr (h : l₁.get = l₂.get) (scopeId : Id) : ∀ (index : ℕ) (bindings : List Binding),
    l₁.resolveBindings scopeId index bindings = l₂.resolveBindings scopeId index bindings
  | index, [] => rfl
  | index, .type ty :: bindings => by
    simp only [SchemaLoader.resolveBindings, resolveTypeInner_congr h ty, resolveBindings_congr h scopeId _ bindings]
  | index, .unbound :: bindings => by
    simp only [SchemaLoader.resolveBindings, resolveBindings_congr h scopeId _ bindings]
  | index, .unknown variant :: bindings => rfl

end

lemma resolveType_congr (h : l₁.get = l₂.get) (ty : CapnpType) : l₁.resolveType ty = l₂.resolveType ty :=
  resolveTypeInner_congr h ty 0

lemma fieldType_congr (h : l₁.get = l₂.get) (field : Field) : l₁.fieldType field = l₂.fieldType field := by
  simp only [SchemaLoader.fieldType, resolveType_congr h, trySchema_congr h]

lemma validate_congr (h : l₁.get = l₂.get) (depth : ℕ) :
    validateItem names l₁ depth = validateItem names l₂ depth ∧
      validateStruct names l₁ depth = validateStruct names l₂ depth := by
  induction depth with
  | zero => exact ⟨rfl, rfl⟩
  | succ depth ih =>
    constructor
    · funext named scope
      simp only [validateItem, ih.2]
    · funext schema name scope
      simp only [validateStruct, validateNestedItems, validateGroups, nestedItems_congr h, fieldType_congr h, ih.1,
        ih.2]

lemma validateFile_congr (h : l₁.get = l₂.get) (depth : ℕ) (file : Node) :
    validateFile names l₁ depth file = validateFile names l₂ depth file := by
  simp only [validateFile, nestedItems_congr h, (validate_congr h depth).1]

/-! ## Generation -/

section Generation

variable {ctx₁ ctx₂ : GeneratorContext}

namespace GeneratorContext

/-- The contexts find the same nodes and the same infos. -/
structure Alike (ctx₁ ctx₂ : GeneratorContext) : Prop where
  get : ctx₁.loader.get = ctx₂.loader.get
  lookup : ctx₁.info.lookup = ctx₂.info.lookup

variable (h : Alike ctx₁ ctx₂)

include h

lemma findInfo_congr (id : Id) : ctx₁.findInfo id = ctx₂.findInfo id := by
  simp only [findInfo, h.lookup]

lemma resolveKind_congr (scope : TypeScope) (info : Ty) (tyCtx : TypeContext) :
    ctx₁.resolveKind scope info tyCtx = ctx₂.resolveKind scope info tyCtx := by
  simp only [resolveKind, findInfo_congr h]

lemma Alike.resolveType (scope : TypeScope) (info : Ty) (tyCtx : TypeContext) :
    ctx₁.resolveType scope info tyCtx = ctx₂.resolveType scope info tyCtx := by
  simp only [GeneratorContext.resolveType, resolveKind_congr h]

lemma resolveFieldType_congr (scope : TypeScope) (fieldType : FieldType) :
    ctx₁.resolveFieldType scope fieldType = ctx₂.resolveFieldType scope fieldType := by
  simp only [resolveFieldType, findInfo_congr h, h.resolveType]

lemma enumerantOf_congr (scope : TypeScope) (schema : EnumSchema) (value : ℕ) :
    ctx₁.enumerantOf scope schema value = ctx₂.enumerantOf scope schema value := by
  simp only [enumerantOf, findInfo_congr h]

lemma generateDataValue_congr (scope : TypeScope) (kind : TypeKind) (value : Value) :
    ctx₁.generateDataValue scope kind value = ctx₂.generateDataValue scope kind value := by
  simp only [generateDataValue, enumerantOf_congr h]

lemma fieldDefault_congr (scope : TypeScope) (type : Ty) (value : Option Value) :
    ctx₁.fieldDefault scope type value = ctx₂.fieldDefault scope type value := by
  cases value with
  | none => simp only [fieldDefault, generateFieldDefaultForType, enumerantOf_congr h]
  | some value => simp only [fieldDefault, generateFieldDefaultValue, generateDataValue_congr h]

lemma fieldDescriptor_congr (scope : TypeScope) (fieldType : FieldType) :
    ctx₁.fieldDescriptor scope fieldType = ctx₂.fieldDescriptor scope fieldType := by
  cases fieldType with
  | slot offset type value => simp only [fieldDescriptor, fieldDefault_congr h]
  | group schema => rfl

lemma generateField_congr (fieldType : FieldType) (name : Name) (info : StructInfo)
    (descriptorIdents accessorIdents : IdentifierSet) :
    ctx₁.generateField names fieldType name info descriptorIdents accessorIdents =
      ctx₂.generateField names fieldType name info descriptorIdents accessorIdents := by
  simp only [generateField, fieldDescriptor_congr h, resolveFieldType_congr h]

lemma generateConst_congr (schema : ConstSchema) (info : ConstInfo) :
    ctx₁.generateConst schema info = ctx₂.generateConst schema info := by
  simp only [generateConst, generateConstValue, resolveType_congr h.get, h.resolveType, generateDataValue_congr h]

lemma generateMembers_congr (schema : StructSchema) (info : StructInfo) :
    ctx₁.generateMembers names schema info = ctx₂.generateMembers names schema info := by
  simp only [generateMembers, generateFields, generateVariants, fieldType_congr h.get, generateField_congr h,
    resolveFieldType_congr h]

lemma generate_congr (depth : ℕ) : ctx₁.generateItem names depth = ctx₂.generateItem names depth ∧
    ctx₁.generateStruct names depth = ctx₂.generateStruct names depth := by
  induction depth with
  | zero => exact ⟨rfl, rfl⟩
  | succ depth ih =>
    constructor
    · funext id item
      simp only [generateItem, findInfo_congr h, generateConst_congr h, ih.2]
    · funext schema info
      simp only [generateStruct, generateNestedItems, generateGroups, generateMembers_congr h,
        nestedItems_congr h.get, fieldType_congr h.get, findInfo_congr h, ih.1, ih.2]

/-- The same files are generated. -/
lemma generateFile_congr (depth : ℕ) (id : Id) :
    ctx₁.generateFile names depth id = ctx₂.generateFile names depth id := by
  simp only [generateFile, generateNestedItems, trySchema_congr h.get, nestedItems_congr h.get, findInfo_congr h,
    (generate_congr h depth).1]

end GeneratorContext

end Generation

end Recapn.Codegen

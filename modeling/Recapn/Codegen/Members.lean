/-
# The members of a struct

Every field gets an accessor, some get another one that takes the builder, and those of the union get a
variant.  The accessors of one struct are told apart, and so are its variants.  The accessor of the union is
not among those: the templates add it, under a name that a field may ask for.
-/
import Recapn.Codegen.Generate
import Recapn.Codegen.Scopes
import Recapn.Lib.Supply

namespace Recapn.Codegen

open Recapn.Lib Recapn.Lib.Prog

variable {names : Spelling} {asked name : Name} {ident w : Ident}

/-! ## Which identifiers names get -/

/-- The identifier is made for the name first. -/
def Tried (names : Spelling) (asked : Name) (ident : Ident) : Prop := makeIdent names asked () = .ok ident ()

/-- The identifier is made for the name, or for the name with underscores behind it. -/
def Made (names : Spelling) (asked : Name) (ident : Ident) : Prop :=
  ∃ k, Tried names (asked ++ List.replicate k '_') ident

lemma Tried.unique (h : Tried names asked ident) (h' : Tried names asked w) : ident = w :=
  (Outcome.ok.inj (h.symm.trans h')).1

lemma getLast_makeIdentStr {s : Name} {str : List Char} (h : makeIdentStr names (s ++ ['_']) = .ok str) :
    str.getLast? = some '_' := by
  cases s with
  | nil =>
    cases h
    simp
  | cons first chars =>
    rw [List.cons_append, makeIdentStr, List.map_append] at h
    cases h
    rw [← List.cons_append, List.getLast?_append]
    simp

/-- An identifier of a name with an underscore behind it ends in one. -/
lemma Tried.getLast (h : Tried names (asked ++ ['_']) ident) : ident.getLast? = some '_' := by
  obtain ⟨str, s₁, hstr, hrest⟩ := bind_eq_ok.1 h
  have hlast := getLast_makeIdentStr (eq_ok_of_liftError hstr)
  rcases ite_eq_ok.1 hrest with ⟨-, hpure⟩ | ⟨-, hrest⟩
  · obtain ⟨rfl, -⟩ := pure_eq_ok.1 hpure
    exact hlast
  · rcases ite_eq_ok.1 hrest with ⟨-, hpure⟩ | ⟨-, hthrow⟩
    · obtain ⟨rfl, -⟩ := pure_eq_ok.1 hpure
      rw [List.getLast?_cons, List.getLast?_cons, hlast]
      rfl
    · exact (throw_eq_ok.1 hthrow).elim

/-- An identifier that ends otherwise is only made first. -/
lemma Made.tried (h : Made names asked w) (hw : w.getLast? ≠ some '_') : Tried names asked w := by
  obtain ⟨k, hk⟩ := h
  cases k with
  | zero =>
    rw [List.replicate_zero, List.append_nil] at hk
    exact hk
  | succ k =>
    rw [List.replicate_succ', ← List.append_assoc] at hk
    exact absurd hk.getLast hw

/-- The identifiers that are in a set after they were made for these names. -/
def Supplied (names : Spelling) (idents : IdentifierSet) (asked : List Name) (given : List Ident)
    (idents' : IdentifierSet) : Prop :=
  Supply (Made names) (Tried names) idents asked given ∧ idents' = given.reverse ++ idents

lemma Supplied.nil (idents : IdentifierSet) : Supplied names idents [] [] idents := ⟨.nil, rfl⟩

lemma Supplied.append {idents idents₁ idents₂ : IdentifierSet} {asked asked' : List Name} {given given' : List Ident}
    (h : Supplied names idents asked given idents₁) (h' : Supplied names idents₁ asked' given' idents₂) :
    Supplied names idents (asked ++ asked') (given ++ given') idents₂ := by
  obtain ⟨hsupply, rfl⟩ := h
  obtain ⟨hsupply', rfl⟩ := h'
  exact ⟨hsupply.append hsupply', by rw [List.reverse_append, List.append_assoc]⟩

lemma made_of_makeUntaken {taken : List Ident} (h : makeUntaken names taken name () = .ok ident ()) :
    Made names name ident := untaken_made h

lemma eq_of_tried {taken : List Ident} (h : makeUntaken names taken name () = .ok ident ()) (hw : Tried names name w)
    (htaken : w ∉ taken) : ident = w := by
  obtain ⟨first, hfirst, heq⟩ := makeUntaken_first h
  obtain rfl := Tried.unique hfirst hw
  exact heq htaken

lemma supplied_makeUnique {σ : Type} {idents idents' : IdentifierSet} {s s' : σ}
    (h : idents.makeUnique names name s = .ok (ident, idents') s') : Supplied names idents [name] [ident] idents' := by
  obtain ⟨-, hfresh, rfl, huntaken⟩ := makeUnique_eq_ok h
  exact ⟨.cons hfresh (made_of_makeUntaken huntaken) (fun w hw htaken => eq_of_tried huntaken hw htaken) .nil, rfl⟩

/-! ## What fields ask for -/

/-- A field of the type has an accessor that takes the builder. -/
def FieldType.hasOwnAccessor : FieldType → Bool
  | .group _ => true
  | .slot _ type _ => type.isPtrField

/-- The names of the accessors of a field. -/
def accessorNames (names : Spelling) (loader : SchemaLoader) (field : Field) : List Name :=
  match field.name.asStr, loader.fieldType field with
  | some name, .ok fieldType => names.asSnakeCase name ::
      if fieldType.hasOwnAccessor then [names.asSnakeCase (GeneratorContext.intoPart ++ name)] else []
  | _, _ => []

/-- The name of the variant of a field. -/
def variantNames (names : Spelling) (field : Field) : List Name :=
  match field.name.asStr with
  | some name => [names.asPascalCase name]
  | none => []

def GeneratedField.accessors (field : GeneratedField) : List Ident :=
  field.accessorIdent :: field.ownAccessorIdent.toList

section Generate

variable {ctx : GeneratorContext} {c c' : FileContext} {fieldType : FieldType} {info : StructInfo}
  {schema : StructSchema} {descriptors descriptors' accessors accessors' : IdentifierSet} {field : GeneratedField}

lemma fieldDescriptor_eq_ok {scope : TypeScope} {own : Bool} {descriptor : Option FieldDescriptor}
    (h : ctx.fieldDescriptor scope fieldType c = .ok (own, descriptor) c') : own = fieldType.hasOwnAccessor := by
  cases fieldType with
  | group group => exact (Prod.mk.inj (pure_eq_ok.1 h).1).1.symm
  | slot offset type defaultValue =>
    rcases ite_eq_ok.1 h with ⟨-, hpure⟩ | ⟨-, hbind⟩
    · exact (Prod.mk.inj (pure_eq_ok.1 hpure).1).1.symm
    · obtain ⟨default, c₁, -, hpure⟩ := bind_eq_ok.1 hbind
      exact (Prod.mk.inj (pure_eq_ok.1 hpure).1).1.symm

lemma supplied_generateField
    (h : ctx.generateField names fieldType name info descriptors accessors c =
      .ok (field, descriptors', accessors') c') :
    Supplied names accessors (names.asSnakeCase name ::
      if fieldType.hasOwnAccessor then [names.asSnakeCase (GeneratorContext.intoPart ++ name)] else [])
      field.accessors accessors' := by
  obtain ⟨⟨accessorIdent, accessors₁⟩, c₁, haccessor, hrest⟩ := bind_eq_ok.1 h
  obtain ⟨⟨descriptorIdent, descriptors₁⟩, c₂, -, hrest⟩ := bind_eq_ok.1 hrest
  obtain ⟨⟨own, descriptor⟩, c₃, hdescriptor, hrest⟩ := bind_eq_ok.1 hrest
  obtain ⟨synType, c₄, -, hrest⟩ := bind_eq_ok.1 hrest
  obtain rfl := fieldDescriptor_eq_ok hdescriptor
  have hfirst := supplied_makeUnique haccessor
  rcases ite_eq_ok.1 hrest with ⟨hown, hrest⟩ | ⟨hown, hpure⟩
  · obtain ⟨⟨ownIdent, accessors₂⟩, c₅, hmade, hpure⟩ := bind_eq_ok.1 hrest
    obtain ⟨heq, -⟩ := pure_eq_ok.1 hpure
    obtain ⟨rfl, hpair⟩ := Prod.mk.inj heq
    obtain ⟨-, rfl⟩ := Prod.mk.inj hpair
    rw [if_pos hown]
    exact hfirst.append (supplied_makeUnique hmade)
  · obtain ⟨heq, -⟩ := pure_eq_ok.1 hpure
    obtain ⟨rfl, hpair⟩ := Prod.mk.inj heq
    obtain ⟨-, rfl⟩ := Prod.mk.inj hpair
    rw [if_neg hown]
    exact hfirst

/-! ## The fields of a struct -/

variable {idents idents' : GeneratorContext.StructIdents}

lemma supplied_generateFields {fields : List (Field × ℕ)} {generated : List GeneratedField}
    (h : ctx.generateFields names schema info fields idents c = .ok (generated, idents') c') :
    idents'.discriminant = idents.discriminant ∧
      Supplied names idents.accessor (fields.flatMap fun field => accessorNames names ctx.loader field.1)
        (generated.flatMap GeneratedField.accessors) idents'.accessor := by
  obtain ⟨hdiscriminant, new, rfl, hsupplied⟩ := fold_eq_ok_induction (motive := fun before fields _ =>
    idents'.discriminant = before.2.discriminant ∧ ∃ new, generated = before.1 ++ new ∧
      Supplied names before.2.accessor (fields.flatMap fun field => accessorNames names ctx.loader field.1)
        (new.flatMap GeneratedField.accessors) idents'.accessor) h
    ⟨rfl, [], (List.append_nil _).symm, .nil _⟩ (by
      rintro ⟨before, idents⟩ ⟨field, idx⟩ fields c ⟨before', idents₁⟩ c₁ hentry ⟨hdiscriminant, new, hnew, hsupplied⟩
      obtain ⟨name, c₂, hname, hentry⟩ := bind_eq_ok.1 hentry
      obtain ⟨fieldType, c₃, hfield, hentry⟩ := bind_eq_ok.1 hentry
      obtain ⟨⟨made, descriptors, accessors⟩, c₄, hmade, hpure⟩ := bind_eq_ok.1 hentry
      obtain ⟨heq, -⟩ := pure_eq_ok.1 hpure
      obtain ⟨rfl, rfl⟩ := Prod.mk.inj heq
      have hasked : accessorNames names ctx.loader field = names.asSnakeCase name ::
          if fieldType.hasOwnAccessor then [names.asSnakeCase (GeneratorContext.intoPart ++ name)] else [] := by
        simp only [accessorNames, (eq_of_nameOf hname).1, (eq_of_liftError hfield).1]
      refine ⟨hdiscriminant, made :: new, by rw [hnew, List.append_assoc]; rfl, ?_⟩
      rw [List.flatMap_cons, List.flatMap_cons, hasked]
      exact (supplied_generateField hmade).append hsupplied)
  exact ⟨hdiscriminant, hsupplied⟩

lemma supplied_generateVariants {fields : List (Field × ℕ)} {generated : List GeneratedVariant}
    (h : ctx.generateVariants names schema info fields idents c = .ok (generated, idents') c') :
    Supplied names idents.discriminant (fields.flatMap fun field => variantNames names field.1)
      (generated.map GeneratedVariant.discriminantIdent) idents'.discriminant ∧
      Supplied names idents.accessor (fields.flatMap fun field => accessorNames names ctx.loader field.1)
        (generated.flatMap fun variant => variant.field.accessors) idents'.accessor := by
  obtain ⟨new, rfl, hsupplied⟩ := fold_eq_ok_induction (motive := fun before fields _ =>
    ∃ new, generated = before.1 ++ new ∧
      Supplied names before.2.discriminant (fields.flatMap fun field => variantNames names field.1)
        (new.map GeneratedVariant.discriminantIdent) idents'.discriminant ∧
      Supplied names before.2.accessor (fields.flatMap fun field => accessorNames names ctx.loader field.1)
        (new.flatMap fun variant => variant.field.accessors) idents'.accessor) h
    ⟨[], (List.append_nil _).symm, .nil _, .nil _⟩ (by
      rintro ⟨before, idents⟩ ⟨field, idx⟩ fields c ⟨before', idents₁⟩ c₁ hentry ⟨new, hnew, hdiscriminants, haccessors⟩
      obtain ⟨name, c₂, hname, hentry⟩ := bind_eq_ok.1 hentry
      obtain ⟨⟨variant, discriminant⟩, c₃, hvariant, hentry⟩ := bind_eq_ok.1 hentry
      obtain ⟨fieldType, c₄, hfield, hentry⟩ := bind_eq_ok.1 hentry
      obtain ⟨⟨made, descriptors, accessors⟩, c₅, hmade, hentry⟩ := bind_eq_ok.1 hentry
      obtain ⟨variantType, c₆, -, hpure⟩ := bind_eq_ok.1 hentry
      obtain ⟨heq, -⟩ := pure_eq_ok.1 hpure
      obtain ⟨rfl, rfl⟩ := Prod.mk.inj heq
      have hstr := (eq_of_nameOf hname).1
      have hasked : accessorNames names ctx.loader field = names.asSnakeCase name ::
          if fieldType.hasOwnAccessor then [names.asSnakeCase (GeneratorContext.intoPart ++ name)] else [] := by
        simp only [accessorNames, hstr, (eq_of_liftError hfield).1]
      have hvariants : variantNames names field = [names.asPascalCase name] := by
        simp only [variantNames, hstr]
      refine ⟨⟨variant, variantType, field.discriminantValue, made⟩ :: new, by rw [hnew, List.append_assoc]; rfl, ?_, ?_⟩
      · rw [List.flatMap_cons, List.map_cons, hvariants]
        exact (supplied_makeUnique hvariant).append hdiscriminants
      · rw [List.flatMap_cons, List.flatMap_cons, hasked]
        exact (supplied_generateField hmade).append haccessors)
  exact hsupplied

/-- The struct has fields in its union. -/
def StructSchema.HasVariants (schema : StructSchema) : Prop :=
  ∃ field ∈ schema.info.fields, field.discriminant.isSome

/-- The fields of a struct, those of its union last. -/
def allFields (fields : List GeneratedField) (which : Option GeneratedWhich) : List GeneratedField :=
  fields ++ (which.map fun which => which.fields.map GeneratedVariant.field).getD []

/-- The accessors of a struct are told apart, and so are its variants.  An accessor that could not be made in
place of another one is there if a field asks for it. -/
structure MembersApart (names : Spelling) (loader : SchemaLoader) (schema : StructSchema)
    (fields : List GeneratedField) (which : Option GeneratedWhich) : Prop where
  union : which.isSome ↔ schema.HasVariants
  counted : which.isSome → schema.info.discriminantCount ≠ 0
  accessors : ((allFields fields which).flatMap GeneratedField.accessors).Nodup
  variants : ∀ which' ∈ which, (which'.fields.map GeneratedVariant.discriminantIdent).Nodup
  asked : ∀ w : Ident, w.getLast? ≠ some '_' → (w ∈ (allFields fields which).flatMap GeneratedField.accessors ↔
    ∃ field ∈ schema.info.fields, ∃ name ∈ accessorNames names loader field, Tried names name w)

/-- What the fields ask for together. -/
lemma Supplied.asked_iff {fields : List Field} {entries : List (Field × ℕ)} {given : List Ident}
    {accessors : IdentifierSet} (hentries : ∀ field, field ∈ fields ↔ ∃ idx, (field, idx) ∈ entries)
    (h : Supplied names [] (entries.flatMap fun field => accessorNames names ctx.loader field.1) given accessors)
    (hw : w.getLast? ≠ some '_') :
    w ∈ given ↔ ∃ field ∈ fields, ∃ name ∈ accessorNames names ctx.loader field, Tried names name w := by
  rw [h.1.mem_iff fun name _ hmade => hmade.tried hw]
  constructor
  · rintro ⟨-, name, hname, htried⟩
    obtain ⟨⟨field, idx⟩, hentry, hname⟩ := List.mem_flatMap.1 hname
    exact ⟨field, (hentries field).2 ⟨idx, hentry⟩, name, hname, htried⟩
  · rintro ⟨field, hfield, name, hname, htried⟩
    obtain ⟨idx, hentry⟩ := (hentries field).1 hfield
    exact ⟨List.not_mem_nil, name, List.mem_flatMap.2 ⟨_, hentry, hname⟩, htried⟩

lemma mem_iff_zipIdx {fields : List Field} {field : Field} : field ∈ fields ↔ ∃ idx, (field, idx) ∈ fields.zipIdx := by
  have hmap : fields.zipIdx.map Prod.fst = fields := List.zipIdx_map_fst _ _
  constructor
  · intro hfield
    rw [← hmap] at hfield
    obtain ⟨entry, hentry, rfl⟩ := List.mem_map.1 hfield
    exact ⟨entry.2, hentry⟩
  · rintro ⟨idx, hentry⟩
    have hfield := List.mem_map_of_mem (f := Prod.fst) hentry
    rwa [hmap] at hfield

lemma membersApart_of_generateMembers {fields : List GeneratedField} {which : Option GeneratedWhich}
    (h : ctx.generateMembers names schema info c = .ok (fields, which) c') :
    MembersApart names ctx.loader schema fields which := by
  let inUnion : Field × ℕ → Bool := fun field => !field.1.discriminant.isNone
  have hvariants : schema.HasVariants ↔ schema.info.fields.zipIdx.filter inUnion ≠ [] := by
    rw [Ne, List.filter_eq_nil_iff]
    constructor
    · rintro ⟨field, hfield, hsome⟩ hnil
      obtain ⟨idx, hentry⟩ := mem_iff_zipIdx.1 hfield
      exact hnil _ hentry (by simpa [inUnion, Option.isSome_iff_ne_none] using hsome)
    · intro hnil
      by_contra hnone
      refine hnil fun entry hentry hin => hnone ⟨entry.1, mem_iff_zipIdx.2 ⟨_, hentry⟩, ?_⟩
      simpa [inUnion, Option.isSome_iff_ne_none] using hin
  rw [GeneratorContext.generateMembers, List.partition_eq_filter_filter] at h
  rcases ite_eq_ok.1 h with ⟨-, hthrow⟩ | ⟨hcount, h⟩
  · exact (throw_eq_ok.1 hthrow).elim
  · obtain ⟨⟨generated, idents⟩, c₁, hfields, hrest⟩ := bind_eq_ok.1 h
    obtain ⟨hdiscriminant, hplain⟩ := supplied_generateFields hfields
    rcases ite_eq_ok.1 hrest with ⟨hnil, hpure⟩ | ⟨hnil, hrest⟩
    · -- no field is in the union
      obtain ⟨heq, -⟩ := pure_eq_ok.1 hpure
      obtain ⟨rfl, rfl⟩ := Prod.mk.inj heq
      have hentries (field : Field) : field ∈ schema.info.fields ↔ ∃ idx, (field, idx) ∈
          schema.info.fields.zipIdx.filter fun field => field.1.discriminant.isNone := by
        rw [mem_iff_zipIdx]
        refine exists_congr fun idx => ⟨fun hentry => List.mem_filter.2 ⟨hentry, ?_⟩, fun h => (List.mem_filter.1 h).1⟩
        simpa [inUnion] using List.filter_eq_nil_iff.1 hnil _ hentry
      have hall : allFields generated none = generated := List.append_nil _
      constructor
      · simpa using fun hin => hvariants.1 hin hnil
      · exact nofun
      · rw [hall]
        exact hplain.1.nodup
      · exact nofun
      · rw [hall]
        exact fun w hw => hplain.asked_iff hentries hw
    · obtain ⟨⟨variants, idents'⟩, c₂, hmade, hpure⟩ := bind_eq_ok.1 hrest
      obtain ⟨heq, -⟩ := pure_eq_ok.1 hpure
      obtain ⟨rfl, rfl⟩ := Prod.mk.inj heq
      obtain ⟨hdiscriminants, haccessors⟩ := supplied_generateVariants hmade
      have hentries (field : Field) : field ∈ schema.info.fields ↔ ∃ idx, (field, idx) ∈
          (schema.info.fields.zipIdx.filter fun field => field.1.discriminant.isNone) ++
            schema.info.fields.zipIdx.filter inUnion := by
        rw [mem_iff_zipIdx]
        refine exists_congr fun idx => ⟨fun hentry => List.mem_append.2 ?_, fun h => ?_⟩
        · by_cases hnone : field.discriminant.isNone
          · exact .inl (List.mem_filter.2 ⟨hentry, hnone⟩)
          · exact .inr (List.mem_filter.2 ⟨hentry, by simpa [inUnion, Option.isSome_iff_ne_none] using hnone⟩)
        · exact (List.mem_append.1 h).elim (fun h => (List.mem_filter.1 h).1) fun h => (List.mem_filter.1 h).1
      have hall : (allFields generated (some ⟨schema.info.discriminantOffset, variants⟩)).flatMap
          GeneratedField.accessors = generated.flatMap GeneratedField.accessors ++
            variants.flatMap fun variant => variant.field.accessors := by
        simp [allFields, List.flatMap_append, List.flatMap_map]
      have hsupplied := hplain.append haccessors
      rw [← List.flatMap_append, ← hall] at hsupplied
      constructor
      · simpa using hvariants.2 hnil
      · intro _
        rw [not_not.1 hcount]
        exact fun hlen => hnil (List.length_eq_zero_iff.1 hlen)
      · exact hsupplied.1.nodup
      · rintro _ ⟨⟩
        exact hdiscriminants.1.nodup
      · exact fun w hw => hsupplied.asked_iff hentries hw

end Generate

end Recapn.Codegen

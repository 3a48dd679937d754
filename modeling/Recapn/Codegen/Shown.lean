/-
# What is shown of items

Generation goes through the items that validation went through, in the same order.  The code of an item
declares what is recorded of the item, and no names of it collide exactly if no name collides in a struct that
is among the items or below them.
-/
import Recapn.Codegen.Declared

namespace Recapn.Codegen

open Recapn.Lib Recapn.Lib.Prog

/-! ## The functions of a struct -/

section Functions

variable {names : Spelling} {loader : SchemaLoader} {schema : StructSchema}
  {generated : GeneratedStruct GeneratedItem}

lemma accessors_perm (fields : List GeneratedField) : (fields.flatMap GeneratedField.accessors).Perm
    (fields.map GeneratedField.accessorIdent ++ fields.filterMap GeneratedField.ownAccessorIdent) := by
  induction fields with
  | nil => exact .nil
  | cons field fields ih =>
    rw [List.flatMap_cons, List.map_cons, GeneratedField.accessors, List.cons_append, List.cons_append]
    refine (((ih.append_left field.ownAccessorIdent.toList).trans (List.perm_append_comm_assoc _ _ _)).cons _).trans ?_
    cases hown : field.ownAccessorIdent with
    | none => simp [hown]
    | some own => simp [hown]

/-- The functions of a struct collide only if a field asks for the name of the accessor of the union. -/
lemma MembersApart.functions_iff (h : MembersApart names loader schema generated.fields generated.which) :
    (generated.readerFunctions.Nodup ∧ generated.builderFunctions.Nodup) ↔
      (schema.HasVariants → ∀ field ∈ schema.info.fields, ∀ name ∈ accessorNames names loader field,
        ¬ Tried names name whichAccessor) := by
  let all := (allFields generated.fields generated.which).flatMap GeneratedField.accessors
  have hperm : (all ++ generated.whichAccessors).Perm generated.builderFunctions :=
    (accessors_perm _).append_right _
  have hsub : generated.readerFunctions.Sublist generated.builderFunctions :=
    (List.sublist_append_left _ _).append (List.Sublist.refl _)
  have hbuilder : (generated.readerFunctions.Nodup ∧ generated.builderFunctions.Nodup) ↔
      (all ++ generated.whichAccessors).Nodup :=
    ⟨fun hboth => hperm.nodup_iff.2 hboth.2,
      fun hall => ⟨(hperm.nodup_iff.1 hall).sublist hsub, hperm.nodup_iff.1 hall⟩⟩
  have hasked : whichAccessor ∉ all ↔ ∀ field ∈ schema.info.fields, ∀ name ∈ accessorNames names loader field,
      ¬ Tried names name whichAccessor := by
    rw [h.asked whichAccessor (by decide)]
    push Not
    rfl
  rw [hbuilder, ← h.union, ← hasked]
  by_cases hunion : generated.which.isSome
  · have hwhich : generated.whichAccessors = [whichAccessor] := if_pos hunion
    rw [hwhich, List.nodup_append_comm, List.singleton_append, List.nodup_cons]
    exact ⟨fun hboth _ => hboth.1, fun hnot => ⟨hnot hunion, h.accessors⟩⟩
  · have hwhich : generated.whichAccessors = [] := if_neg hunion
    rw [hwhich, List.append_nil]
    exact ⟨fun _ hsome => absurd hsome hunion, fun _ => h.accessors⟩

end Functions

/-! ## Lists of items -/

/-- The generated items declare what is recorded of these items, and have collisions exactly if those do. -/
structure Shows (names : Spelling) (ctx : GeneratorContext) (items : List NestedItem) (generated : List GeneratedItem) :
    Prop where
  declares : generated.flatMap GeneratedItem.declares = items.flatMap (declaredOf ctx.info)
  apart : (∀ g ∈ generated, g.Apart) ↔ ∀ schema, .struct schema ∈ items → schema.Clean names ctx.loader

section Shows

variable {names : Spelling} {ctx : GeneratorContext} {items items' : List NestedItem}
  {generated generated' : List GeneratedItem} {c c' : FileContext}

lemma Shows.nil : Shows names ctx [] [] := ⟨rfl, iff_of_true nofun nofun⟩

lemma Shows.append (h : Shows names ctx items generated) (h' : Shows names ctx items' generated') :
    Shows names ctx (items ++ items') (generated ++ generated') where
  declares := by
    rw [List.flatMap_append, List.flatMap_append, h.declares, h'.declares]
  apart := by
    simp only [List.mem_append, or_imp, forall_and]
    exact and_congr h.apart h'.apart

lemma shows_generateNestedItems {x : Id → NestedItem → Prog Stop FileContext (Option GeneratedItem)} {node : Node}
    (hx : ∀ named c c' out, .ok named ∈ ctx.loader.nestedItems node → x named.id named.item c = .ok out c' →
      Shows names ctx [named.item] out.toList)
    (h : ctx.generateNestedItems x node c = .ok generated c') :
    Shows names ctx (ctx.loader.itemsOf node) generated := by
  obtain ⟨f, hok, hitems⟩ : ∃ f : Except Error NamedNestedItem → Option NestedItem,
      (∀ named, f (.ok named) = some named.item) ∧
        ctx.loader.itemsOf node = (ctx.loader.nestedItems node).filterMap f := ⟨_, fun _ => rfl, rfl⟩
  rw [hitems]
  obtain ⟨new, rfl, hshows⟩ := fold_eq_ok_induction (motive := fun before nested _ =>
    nested ⊆ ctx.loader.nestedItems node → ∃ new, generated = before ++ new ∧
      Shows names ctx (nested.filterMap f) new) h (fun _ => ⟨[], (List.append_nil _).symm, .nil⟩) (by
    intro before first rest c before' c₁ hfirst ih hsub
    obtain ⟨named, c₂, hlift, hitem⟩ := bind_eq_ok.1 hfirst
    obtain ⟨out, c₃, hout, hpure⟩ := bind_eq_ok.1 hitem
    obtain ⟨rfl, -⟩ := eq_of_liftError hlift
    obtain ⟨rfl, -⟩ := pure_eq_ok.1 hpure
    obtain ⟨new, rfl, hshows⟩ := ih fun e he => hsub (List.mem_cons_of_mem _ he)
    rw [List.filterMap_cons_some (hok named)]
    exact ⟨out.toList ++ new, List.append_assoc _ _ _,
      (hx named c₂ c₃ out (hsub List.mem_cons_self) hout).append hshows⟩) (List.Subset.refl _)
  exact hshows

lemma unwrapStruct_eq_ok {info : NodeInfo} {struct : StructInfo} (h : info.unwrapStruct c = .ok struct c') :
    info = .struct struct := by
  cases info with
  | struct info => rw [(pure_eq_ok.1 h).1]
  | _ => exact (throw_eq_ok.1 h).elim

lemma shows_generateGroups {x : StructSchema → StructInfo → Prog Stop FileContext (GeneratedStruct GeneratedItem)}
    {schema : StructSchema}
    (hx : ∀ field group info c c' g, field ∈ schema.info.fields → ctx.loader.fieldType field = .ok (.group group) →
      (group.node.id, .struct info) ∈ ctx.info → x group info c = .ok g c' →
      Shows names ctx [.struct group] [.struct g])
    (h : ctx.generateGroups x schema c = .ok generated c') :
    Shows names ctx (ctx.loader.groupsOf schema.info.fields) generated := by
  obtain ⟨new, rfl, hshows⟩ := fold_eq_ok_induction (motive := fun before fields _ =>
    fields ⊆ schema.info.fields → ∃ new, generated = before ++ new ∧
      Shows names ctx (ctx.loader.groupsOf fields) new) h (fun _ => ⟨[], (List.append_nil _).symm, .nil⟩) (by
    intro before field fields c before' c₁ hfirst ih hsub
    obtain ⟨new, rfl, hshows⟩ := ih fun e he => hsub (List.mem_cons_of_mem _ he)
    obtain ⟨fieldType, c₂, hlift, hfield⟩ := bind_eq_ok.1 hfirst
    have hok := (eq_of_liftError hlift).1
    cases fieldType with
    | slot offset type defaultValue =>
      obtain ⟨rfl, -⟩ := pure_eq_ok.1 hfield
      refine ⟨new, rfl, ?_⟩
      simpa only [SchemaLoader.groupsOf, List.filterMap_cons, hok] using hshows
    | group group =>
      obtain ⟨info, c₃, hfind, hunwrap⟩ := bind_eq_ok.1 hfield
      obtain ⟨struct, c₄, hstruct, hitem⟩ := bind_eq_ok.1 hunwrap
      obtain ⟨g, c₅, hg, hpure⟩ := bind_eq_ok.1 hitem
      obtain ⟨rfl, -⟩ := pure_eq_ok.1 hpure
      obtain rfl := unwrapStruct_eq_ok hstruct
      have hgroup := hx field group struct _ _ g (hsub List.mem_cons_self) hok
        (GeneratorContext.mem_of_findInfo hfind) hg
      refine ⟨.struct g :: new, by rw [List.append_assoc]; rfl, ?_⟩
      simpa only [SchemaLoader.groupsOf, List.filterMap_cons, hok, List.singleton_append] using hgroup.append hshows)
    (List.Subset.refl _)
  exact hshows

/-! ## What is below an item -/

lemma mem_itemsOf_iff {loader : SchemaLoader} {node : Node} {item : NestedItem} :
    item ∈ loader.itemsOf node ↔ ∃ named, .ok named ∈ loader.nestedItems node ∧ named.item = item := by
  rw [SchemaLoader.itemsOf, List.mem_filterMap]
  constructor
  · rintro ⟨nested, hnested, hitem⟩
    cases nested with
    | error e => cases hitem
    | ok named => exact ⟨named, hnested, Option.some.inj hitem⟩
  · rintro ⟨named, hnamed, rfl⟩
    exact ⟨_, hnamed, rfl⟩

lemma mem_groupsOf_iff {loader : SchemaLoader} {fields : List Field} {item : NestedItem} :
    item ∈ loader.groupsOf fields ↔
      ∃ field ∈ fields, ∃ group, loader.fieldType field = .ok (.group group) ∧ item = .struct group := by
  rw [SchemaLoader.groupsOf, List.mem_filterMap]
  refine exists_congr fun field => and_congr_right fun _ => ?_
  constructor
  · intro hitem
    split at hitem
    case h_1 group hgroup => exact ⟨group, hgroup, (Option.some.inj hitem).symm⟩
    case h_2 => cases hitem
  · rintro ⟨group, hgroup, rfl⟩
    rw [hgroup]

lemma mem_below_iff {loader : SchemaLoader} {schema : StructSchema} {item : NestedItem}
    (hloaded : (NestedItem.struct schema).Loaded loader) :
    item ∈ loader.below (.struct schema) ↔ ∃ text, loader.Child schema.node text item := by
  rw [SchemaLoader.below, List.mem_append, mem_itemsOf_iff, mem_groupsOf_iff]
  constructor
  · rintro (⟨named, hnamed, rfl⟩ | ⟨field, hfield, group, hgroup, rfl⟩)
    · exact ⟨_, .nested hnamed⟩
    · exact ⟨_, .group hloaded.which_eq hfield hgroup⟩
  · rintro ⟨text, hchild⟩
    cases hchild with
    | nested hnamed => exact .inl ⟨_, hnamed, rfl⟩
    | group hwhich hfield hgroup =>
      have heq := hwhich.symm.trans hloaded.which_eq
      cases heq
      exact .inr ⟨_, hfield, _, hgroup, rfl⟩

/-- An item and everything below it is met once. -/
def Once (loader : SchemaLoader) (item : NestedItem) : Prop := ∃ ids, loader.Walks [item] ids ∧ ids.Nodup

lemma once_of_mem {loader : SchemaLoader} {ids : List Id} {item : NestedItem} (hwalk : loader.Walks items ids)
    (hnodup : ids.Nodup) (hitem : item ∈ items) : Once loader item := by
  obtain ⟨inner, hinner, hsub⟩ := hwalk.of_mem hitem
  exact ⟨_, .single hinner, hnodup.sublist hsub⟩

/-- What is below an item is met once. -/
lemma Once.below {loader : SchemaLoader} {item : NestedItem} (h : Once loader item) :
    ∃ ids, loader.Walks (loader.below item) ids ∧ ids.Nodup := by
  obtain ⟨ids, hwalk, hnodup⟩ := h
  obtain ⟨inner, hinner, hsub⟩ := hwalk.of_mem (List.mem_singleton_self item)
  exact ⟨inner, hinner, hnodup.sublist ((List.sublist_cons_self _ _).trans hsub)⟩

/-! ## Item by item -/

section Generated

variable {v : Validation} (hinfo : ctx.info = v.nodes) (hchecked : Checked names ctx.loader v)

include hinfo hchecked

/-- What the module of a struct declares collides exactly if an item asks for a name of the templates. -/
lemma declares_struct_iff {scope : TypeScope} {schema : StructSchema} {modIdent typeIdent : Ident}
    {g : GeneratedStruct GeneratedItem} (hloaded : (NestedItem.struct schema).Loaded ctx.loader)
    (honce : Once ctx.loader (.struct schema))
    (hmem : (schema.node.id, .struct ⟨⟨typeIdent, scope⟩, modIdent⟩) ∈ v.nodes)
    (hbelow : ∀ text item, ctx.loader.Child schema.node text item →
      Filed names ctx.loader v (scope.push ⟨schema.node.id, modIdent⟩) text item)
    (hunion : g.which.isSome → schema.info.discriminantCount ≠ 0)
    (hshows : Shows names ctx (ctx.loader.below (.struct schema)) g.nestedItems) :
    g.declares.Nodup ↔ ctx.loader.Free names schema.node structNames := by
  let inner := scope.push ⟨schema.node.id, modIdent⟩
  let declared := (ctx.loader.below (.struct schema)).flatMap (declaredOf v.nodes)
  obtain ⟨ids, hwalk, hnodup⟩ := honce.below
  have hids := hnodup.sublist hwalk.keys_sublist
  have hparent : ctx.loader.get (parentId inner.ids) = some schema.node := by
    rw [parentId_push]
    exact hloaded.get_eq
  have hitems (item : NestedItem) : item ∈ ctx.loader.below (.struct schema) ↔
      ∃ text, ctx.loader.Child schema.node text item := mem_below_iff hloaded
  rw [← nodup_append_declared_iff hchecked hitems hbelow hparent hids (by decide) (List.Subset.refl _),
    GeneratedStruct.declares, hshows.declares, hinfo]
  by_cases hsome : g.which.isSome
  · -- the union has a name that no item has
    have hhas : ctx.loader.HasUnion schema.node.id :=
      ⟨schema.node, schema.info, hloaded.get_eq, hloaded.which_eq, hunion hsome⟩
    have htakes := (hchecked.told.which _ _ hmem hhas whichName hchecked.which).2
    have hnot : whichName ∉ declared := which_not_declared hchecked hitems hbelow htakes
    have hperm : (structNames ++ [whichName] ++ declared).Perm (whichName :: (structNames ++ declared)) := by
      rw [List.append_assoc]
      exact List.perm_middle
    rw [if_pos hsome, hperm.nodup_iff, List.nodup_cons, List.mem_append, not_or]
    exact ⟨fun hboth => hboth.2, fun hall => ⟨⟨by decide, hnot⟩, hall⟩⟩
  · rw [if_neg hsome, List.append_nil]

lemma shows_struct {scope : TypeScope} {text : Text} {schema : StructSchema} {info : StructInfo}
    {g : GeneratedStruct GeneratedItem} (hloaded : (NestedItem.struct schema).Loaded ctx.loader)
    (honce : Once ctx.loader (.struct schema)) (hfiled : Filed names ctx.loader v scope text (.struct schema))
    (hmem : (schema.node.id, .struct info) ∈ ctx.info) (hident : g.ident = info.typeInfo.typeIdent)
    (hmod : g.modIdent = info.modIdent) (hmembers : MembersApart names ctx.loader schema g.fields g.which)
    (hshows : Shows names ctx (ctx.loader.below (.struct schema)) g.nestedItems) :
    Shows names ctx [.struct schema] [.struct g] := by
  cases hfiled with
  | @struct _ _ name _ typeIdent modIdent hname hmem' htype hmod' hbelow =>
    rw [hinfo] at hmem
    have heq := (Prod.mk.inj (List.inj_on_of_nodup_map hchecked.keys hmem hmem' rfl)).2
    obtain rfl := NodeInfo.struct.inj heq
    have hdeclares := declares_struct_iff hinfo hchecked hloaded honce hmem' hbelow hmembers.counted hshows
    have hnested : (∀ item ∈ g.nestedItems, item.Apart) ↔
        ∀ inner, ctx.loader.Under schema.node inner → inner.Free names ctx.loader := by
      rw [hshows.apart, forall_under_iff]
      constructor
      · exact fun h text inner hchild => h inner ((mem_below_iff hloaded).2 ⟨text, hchild⟩)
      · intro h inner hinner
        obtain ⟨text, hchild⟩ := (mem_below_iff hloaded).1 hinner
        exact h text inner hchild
    have hclean : (GeneratedItem.struct g).Apart ↔ schema.Clean names ctx.loader := by
      constructor
      · intro h
        cases h with
        | struct hdecl hreader hbuilder hvariants hitems =>
          exact ⟨⟨hdeclares.1 hdecl, hmembers.functions_iff.1 ⟨hreader, hbuilder⟩⟩, hnested.1 hitems⟩
      · rintro ⟨⟨hitems, hfields⟩, hunder⟩
        obtain ⟨hreader, hbuilder⟩ := hmembers.functions_iff.2 hfields
        exact .struct (hdeclares.2 hitems) hreader hbuilder hmembers.variants (hnested.2 hunder)
    constructor
    · rw [List.flatMap_singleton, List.flatMap_singleton, hinfo, declaredOf_eq hchecked.keys (.struct schema) hmem']
      show [g.ident, g.modIdent] = [typeIdent, modIdent]
      rw [hident, hmod]
    · simp only [List.mem_singleton, forall_eq, NestedItem.struct.injEq]
      exact hclean

/-- An item that is no struct is shown when it declares what is recorded, and has no collisions in itself. -/
lemma shows_other {item : NestedItem} {out : Option GeneratedItem} {info : NodeInfo}
    (hstruct : ∀ schema, item ≠ .struct schema) (hmem : (item.node.id, info) ∈ v.nodes)
    (hdeclares : out.toList.flatMap GeneratedItem.declares = info.declares) (hapart : ∀ g ∈ out, g.Apart) :
    Shows names ctx [item] out.toList where
  declares := by
    rw [List.flatMap_singleton, hinfo, declaredOf_eq hchecked.keys item hmem]
    exact hdeclares
  apart := by
    constructor
    · intro _ schema hschema
      exact absurd (List.mem_singleton.1 hschema).symm (hstruct schema)
    · intro _ g hg
      exact hapart g (Option.mem_toList.1 hg)

/-- The induction is on the depth, for items and structs at once. -/
lemma shows_generate (depth : ℕ) :
    (∀ scope text item c c' out, item.Loaded ctx.loader → Once ctx.loader item →
      Filed names ctx.loader v scope text item → ctx.generateItem names depth item.node.id item c = .ok out c' →
      Shows names ctx [item] out.toList) ∧
    ∀ scope text schema info c c' g, (NestedItem.struct schema).Loaded ctx.loader →
      Once ctx.loader (.struct schema) → Filed names ctx.loader v scope text (.struct schema) →
      (schema.node.id, .struct info) ∈ ctx.info → ctx.generateStruct names depth schema info c = .ok g c' →
      Shows names ctx [.struct schema] [.struct g] := by
  induction depth with
  | zero => exact ⟨fun _ _ _ _ _ _ _ _ _ h => (nomatch h), fun _ _ _ _ _ _ _ _ _ _ _ h => (nomatch h)⟩
  | succ depth ih =>
    refine ⟨fun scope text item c c' out hloaded honce hfiled h => ?_,
      fun scope text schema info c c' g hloaded honce hfiled hmem h => ?_⟩
    · obtain ⟨info, c₁, hfind, hrest⟩ := bind_eq_ok.1 h
      have hmem := GeneratorContext.mem_of_findInfo hfind
      have hmem' := hmem
      rw [hinfo] at hmem'
      cases item with
      | struct schema =>
        obtain ⟨struct, c₂, hunwrap, hstruct⟩ := bind_eq_ok.1 hrest
        obtain ⟨g, c₃, hg, hpure⟩ := bind_eq_ok.1 hstruct
        obtain ⟨rfl, -⟩ := pure_eq_ok.1 hpure
        obtain rfl := unwrapStruct_eq_ok hunwrap
        exact ih.2 scope text schema struct c₂ c₃ g hloaded honce hfiled hmem hg
      | enum schema =>
        cases hfiled with
        | enum hname henum htype henumerants =>
          obtain rfl := (Prod.mk.inj (List.inj_on_of_nodup_map hchecked.keys hmem' henum rfl)).2
          obtain ⟨enum, c₂, hunwrap, hgenerate⟩ := bind_eq_ok.1 hrest
          obtain ⟨g, c₃, hg, hpure⟩ := bind_eq_ok.1 hgenerate
          obtain ⟨rfl, -⟩ := pure_eq_ok.1 hpure
          obtain ⟨rfl, -⟩ := pure_eq_ok.1 hunwrap
          obtain ⟨rfl, -⟩ := pure_eq_ok.1 hg
          refine shows_other hinfo hchecked nofun henum rfl ?_
          rintro _ ⟨⟩
          exact .enum henumerants
      | const schema =>
        cases hfiled with
        | const hname hconst hident =>
          obtain rfl := (Prod.mk.inj (List.inj_on_of_nodup_map hchecked.keys hmem' hconst rfl)).2
          obtain ⟨const, c₂, hunwrap, hgenerate⟩ := bind_eq_ok.1 hrest
          obtain ⟨g, c₃, hg, hpure⟩ := bind_eq_ok.1 hgenerate
          obtain ⟨rfl, -⟩ := pure_eq_ok.1 hpure
          refine shows_other hinfo hchecked nofun hconst rfl ?_
          rintro _ ⟨⟩
          exact .const
      | interface node =>
        cases hfiled with
        | interface hnode =>
          obtain ⟨rfl, -⟩ := pure_eq_ok.1 hrest
          exact shows_other hinfo hchecked nofun hnode rfl nofun
      | annotationDecl node =>
        cases hfiled with
        | annotationDecl hnode =>
          obtain ⟨rfl, -⟩ := pure_eq_ok.1 hrest
          exact shows_other hinfo hchecked nofun hnode rfl nofun
    · obtain ⟨_, c₁, hvisit, hrest⟩ := bind_eq_ok.1 h
      obtain ⟨⟨fields, which⟩, c₂, hmembers, hrest⟩ := bind_eq_ok.1 hrest
      obtain ⟨nestedItems, c₃, hnested, hrest⟩ := bind_eq_ok.1 hrest
      obtain ⟨groups, c₄, hgroups, hpure⟩ := bind_eq_ok.1 hrest
      obtain ⟨rfl, -⟩ := pure_eq_ok.1 hpure
      obtain ⟨ids, hwalk, hnodup⟩ := honce.below
      have hbelow : ∀ text item, ctx.loader.Child schema.node text item →
          ∃ inner, Filed names ctx.loader v inner text item := by
        cases hfiled with
        | struct hname hmem' htype hmod hbelow => exact fun text item hchild => ⟨_, hbelow text item hchild⟩
      have honce' {text : Text} {item : NestedItem} (hchild : ctx.loader.Child schema.node text item) :
          Once ctx.loader item := once_of_mem hwalk hnodup ((mem_below_iff hloaded).2 ⟨text, hchild⟩)
      have hitems : Shows names ctx (ctx.loader.itemsOf schema.node) nestedItems := by
        refine shows_generateNestedItems (fun named c c' out hnamed hout => ?_) hnested
        obtain ⟨hloaded', hid⟩ := SchemaLoader.mem_nestedItems hnamed
        obtain ⟨inner, hfiled'⟩ := hbelow _ _ (.nested hnamed)
        rw [← hid] at hout
        exact ih.1 inner _ named.item c c' out hloaded' (honce' (.nested hnamed)) hfiled' hout
      have hgroups' : Shows names ctx (ctx.loader.groupsOf schema.info.fields) groups := by
        refine shows_generateGroups (fun field group info c c' g hfield hgroup hmem' hg => ?_) hgroups
        have hchild := SchemaLoader.Child.group hloaded.which_eq hfield hgroup
        obtain ⟨inner, hfiled'⟩ := hbelow _ _ hchild
        exact ih.2 inner _ group info c c' g (SchemaLoader.group_loaded hgroup) (honce' hchild) hfiled' hmem' hg
      exact shows_struct hinfo hchecked hloaded honce hfiled hmem rfl rfl (membersApart_of_generateMembers hmembers)
        (hitems.append hgroups')

end Generated

end Shows

end Recapn.Codegen

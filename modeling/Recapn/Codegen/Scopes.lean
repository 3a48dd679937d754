/-
# What is recorded is told apart

In every scope the identifiers of what is recorded there are all different, and different from the name of
the union of the struct that the scope is.  A scope is a file that is recorded and the structs around it,
which are recorded too, each in the scope of those before it.
-/
import Recapn.Codegen.Taken

namespace Recapn.Codegen

open Recapn.Lib Recapn.Lib.Prog

/-- The identifiers that are taken for a node, with the scopes they are taken in. -/
def NodeInfo.takes : NodeInfo → ScopedIdentifierSet
  | .file info => [(none, info.modIdent)]
  | .struct info =>
    [(some info.typeInfo.scope.ids, info.typeInfo.typeIdent), (some info.typeInfo.scope.ids, info.modIdent)]
  | .enum info => [(some info.typeInfo.scope.ids, info.typeInfo.typeIdent)]
  | .const info => [(some info.scope.ids, info.ident)]
  | .interface => []
  | .annotationDecl => []

def Validation.takes (v : Validation) : ScopedIdentifierSet := v.nodes.flatMap fun entry => entry.2.takes

/-- The file of the scope is recorded with its module, and so is every struct around it, in the scope of
those before it. -/
structure TypeScope.Placed (scope : TypeScope) (nodes : NodeInfoMap) : Prop where
  file : ∃ path, (scope.file.id, .file ⟨scope.file.modIdent, path⟩) ∈ nodes
  types : ∀ outer m, outer ++ [m] <+: scope.types →
    ∃ typeIdent, (m.id, .struct ⟨⟨typeIdent, ⟨scope.file, outer⟩⟩, m.modIdent⟩) ∈ nodes

lemma TypeScope.Placed.mono {scope : TypeScope} {nodes nodes' : NodeInfoMap} (h : scope.Placed nodes)
    (hsub : nodes ⊆ nodes') : scope.Placed nodes' where
  file := h.file.imp fun _ hmem => hsub hmem
  types outer m hpre := (h.types outer m hpre).imp fun _ hmem => hsub hmem

/-- A struct is placed in its scope, and its module is a scope. -/
lemma TypeScope.Placed.push {scope : TypeScope} {nodes : NodeInfoMap} (h : scope.Placed nodes) {id : Id}
    {typeIdent modIdent : Ident} (hmem : (id, .struct ⟨⟨typeIdent, scope⟩, modIdent⟩) ∈ nodes) :
    (scope.push ⟨id, modIdent⟩).Placed nodes where
  file := h.file
  types outer m hpre := by
    have hpre' : outer ++ [m] <+: scope.types ++ [⟨id, modIdent⟩] := hpre
    rcases List.prefix_concat_iff.1 hpre' with heq | hpre'
    · obtain ⟨rfl, hm⟩ := List.append_inj' heq rfl
      obtain rfl := List.singleton_injective hm
      exact ⟨typeIdent, hmem⟩
    · exact h.types outer m hpre'

/-- The struct has a union, which is generated in its module. -/
def SchemaLoader.HasUnion (loader : SchemaLoader) (id : Id) : Prop :=
  ∃ node decl, loader.get id = some node ∧ node.which = .ok (.struct decl) ∧ decl.discriminantCount ≠ 0

structure Told (names : Spelling) (loader : SchemaLoader) (v : Validation) : Prop where
  nodup : v.takes.Nodup
  subset : v.takes ⊆ v.identifiers
  made : ∀ t ∈ v.takes, ∃ name, makeIdent names name () = .ok t.2 ()
  placed : ∀ id info, (id, info) ∈ v.nodes → ∀ scope, info.scope = some scope → scope.Placed v.nodes
  inside : ∀ key ident, (some key, ident) ∈ v.identifiers → ∀ id ∈ key.2, id ∈ v.ids
  which : ∀ id info, (id, .struct info) ∈ v.nodes → loader.HasUnion id → ∀ i,
    makeIdent names whichName () = .ok i () →
    (some (info.typeInfo.scope.push ⟨id, info.modIdent⟩).ids, i) ∈ v.identifiers ∧
      (some (info.typeInfo.scope.push ⟨id, info.modIdent⟩).ids, i) ∉ v.takes

section Told

variable {names : Spelling} {loader : SchemaLoader} {v v' : Validation} {scope : TypeScope} {name : Name}

lemma told_new : Told names loader .new := ⟨List.nodup_nil, List.nil_subset _, nofun, nofun, nofun, nofun⟩

/-- The identifier was not taken. -/
lemma makeUniqueIn_fresh {scope : Option TypeScope} {ident : Ident}
    (h : makeUniqueIn names scope name v = .ok ident v') : (scope.map TypeScope.ids, ident) ∉ v.identifiers ∧
      v' = { v with identifiers := (scope.map TypeScope.ids, ident) :: v.identifiers } ∧
      ∃ name, makeIdent names name () = .ok ident () := by
  obtain ⟨hident, heq⟩ := makeUniqueIn_eq_ok.1 h
  obtain ⟨k, hmade⟩ := untaken_made hident
  refine ⟨fun hmem => untaken_not_mem hident ?_, heq, _, hmade⟩
  exact List.mem_map.2 ⟨_, List.mem_filter.2 ⟨hmem, by simp⟩, rfl⟩

/-- One more node is recorded, with identifiers that were not taken. -/
lemma Told.insert (h : Told names loader v) {id : Id} {info : NodeInfo} {identifiers : ScopedIdentifierSet}
    (hnodup : info.takes.Nodup) (hfresh : ∀ t ∈ info.takes, t ∉ v.identifiers) (hsub : v.identifiers ⊆ identifiers)
    (htakes : info.takes ⊆ identifiers) (hmade : ∀ t ∈ info.takes, ∃ name, makeIdent names name () = .ok t.2 ())
    (hscope : ∀ scope, info.scope = some scope → scope.Placed v.nodes)
    (hinside : ∀ key ident, (some key, ident) ∈ identifiers → (some key, ident) ∉ v.identifiers →
      ∀ id' ∈ key.2, id' ∈ v.ids ∨ id' = id)
    (hwhich : ∀ struct, info = .struct struct → loader.HasUnion id → ∀ i, makeIdent names whichName () = .ok i () →
      (some (struct.typeInfo.scope.push ⟨id, struct.modIdent⟩).ids, i) ∈ identifiers ∧
        (some (struct.typeInfo.scope.push ⟨id, struct.modIdent⟩).ids, i) ∉ v.identifiers ∧
        (some (struct.typeInfo.scope.push ⟨id, struct.modIdent⟩).ids, i) ∉ info.takes) :
    Told names loader ⟨v.nodes ++ [(id, info)], identifiers⟩ := by
  have hall : Validation.takes ⟨v.nodes ++ [(id, info)], identifiers⟩ = v.takes ++ info.takes := by
    simp [Validation.takes]
  have hnodes : v.nodes ⊆ v.nodes ++ [(id, info)] := List.subset_append_left _ _
  constructor
  · rw [hall]
    exact List.nodup_append.2 ⟨h.nodup, hnodup, fun t ht t' ht' heq => hfresh t' ht' (heq ▸ h.subset ht)⟩
  · rw [hall]
    exact List.append_subset.2 ⟨fun t ht => hsub (h.subset ht), htakes⟩
  · rw [hall]
    exact fun t ht => (List.mem_append.1 ht).elim (h.made t) (hmade t)
  · intro id' info' hmem scope hs
    rcases List.mem_append.1 hmem with hmem | hmem
    · exact (h.placed id' info' hmem scope hs).mono hnodes
    · obtain ⟨rfl, rfl⟩ := Prod.mk.inj (List.mem_singleton.1 hmem)
      exact (hscope scope hs).mono hnodes
  · intro key ident hmem id' hid'
    have hids : Validation.ids ⟨v.nodes ++ [(id, info)], identifiers⟩ = v.ids ++ [id] := List.map_append
    rw [hids, List.mem_append, List.mem_singleton]
    by_cases hold : (some key, ident) ∈ v.identifiers
    · exact .inl (h.inside key ident hold id' hid')
    · exact hinside key ident hmem hold id' hid'
  · intro id' struct hmem hunion i hi
    rw [hall, List.mem_append, not_or]
    rcases List.mem_append.1 hmem with hmem | hmem
    · obtain ⟨hin, hnot⟩ := h.which id' struct hmem hunion i hi
      exact ⟨hsub hin, hnot, fun ht => hfresh _ ht hin⟩
    · obtain ⟨rfl, rfl⟩ := Prod.mk.inj (List.mem_singleton.1 hmem)
      obtain ⟨hin, hnot, htakes'⟩ := hwhich struct rfl hunion i hi
      exact ⟨hin, fun ht => hnot (h.subset ht), htakes'⟩

/-! ## Item by item -/

/-- The program keeps what is recorded told apart, when it runs in a scope that is placed. -/
def Keeps (names : Spelling) (loader : SchemaLoader) (scope : TypeScope) (x : Prog Stop Validation Unit) : Prop :=
  ∀ v v', Told names loader v → scope.Placed v.nodes → x v = .ok () v' → Told names loader v' ∧ v.nodes ⊆ v'.nodes

lemma keeps_pure : Keeps names loader scope (pure ()) := by
  intro v v' hv _ h
  obtain ⟨-, rfl⟩ := pure_eq_ok.1 h
  exact ⟨hv, List.Subset.refl _⟩

lemma keeps_throw (stop : Stop) : Keeps names loader scope (throw stop) := fun _ _ _ _ h => (throw_eq_ok.1 h).elim

lemma keeps_fold {α : Type} {f : Unit → α → Prog Stop Validation Unit} {as : List α}
    (h : ∀ a ∈ as, Keeps names loader scope (f () a)) : Keeps names loader scope (fold f () as) := by
  induction as with
  | nil => exact keeps_pure
  | cons a as ih =>
    intro v v' hv hscope hrun
    obtain ⟨_, v₁, ha, hrest⟩ := bind_eq_ok.1 hrun
    obtain ⟨hv₁, hsub₁⟩ := h a List.mem_cons_self v v₁ hv hscope ha
    obtain ⟨hv', hsub⟩ := ih (fun a' ha' => h a' (List.mem_cons_of_mem a ha')) v₁ v' hv₁ (hscope.mono hsub₁) hrest
    exact ⟨hv', fun e he => hsub (hsub₁ he)⟩

lemma eq_of_liftError {σ α : Type} {r : Except Error α} {a : α} {s s' : σ} (h : liftError r s = .ok a s') :
    r = .ok a ∧ s' = s := by
  have hr := eq_ok_of_liftError h
  rw [hr] at h
  exact ⟨hr, (pure_eq_ok.1 h).2.symm⟩

lemma eq_of_nameOf {σ : Type} {context : NameContext} {text : Text} {s s' : σ}
    (h : nameOf context text s = .ok name s') : text.asStr = some name ∧ s' = s := by
  cases hname : text.asStr with
  | none =>
    rw [nameOf, hname] at h
    exact (throw_eq_ok.1 h).elim
  | some other =>
    rw [nameOf, hname] at h
    obtain ⟨rfl, rfl⟩ := pure_eq_ok.1 h
    exact ⟨rfl, rfl⟩

/-- The structs around a scope that is placed are recorded. -/
lemma TypeScope.Placed.mem_ids (h : scope.Placed v.nodes) {id : Id} (hid : id ∈ scope.ids.2) : id ∈ v.ids := by
  obtain ⟨m, hm, rfl⟩ := List.mem_map.1 hid
  obtain ⟨outer, inner, htypes⟩ := List.append_of_mem hm
  obtain ⟨typeIdent, hmem⟩ := h.types outer m ⟨inner, by rw [htypes, List.append_assoc]; rfl⟩
  exact List.mem_map.2 ⟨_, hmem, rfl⟩

/-- An identifier that is made unique was not in the set. -/
lemma makeUnique_eq_ok {σ : Type} {idents idents' : IdentifierSet} {ident : Ident} {s s' : σ}
    (h : idents.makeUnique names name s = .ok (ident, idents') s') :
    s' = s ∧ ident ∉ idents ∧ idents' = ident :: idents ∧ makeUntaken names idents name () = .ok ident () := by
  obtain ⟨ident', s₁, huntaken, hrest⟩ := bind_eq_ok.1 h
  obtain ⟨rfl, hsame⟩ := untaken_eq_ok (τ := Unit) huntaken
  obtain ⟨heq, rfl⟩ := pure_eq_ok.1 hrest
  obtain ⟨rfl, rfl⟩ := Prod.mk.inj heq
  exact ⟨rfl, untaken_not_mem (hsame ()), rfl, hsame ()⟩

/-- The enumerants of an enum are told apart. -/
lemma validateEnumerants_eq_ok {schema : EnumSchema} {enumerants : List Ident}
    (h : validateEnumerants names schema v = .ok enumerants v') : v' = v ∧ enumerants.Nodup := by
  obtain ⟨⟨found, idents⟩, v₁, hfold, hpure⟩ := bind_eq_ok.1 h
  obtain ⟨rfl, rfl⟩ := pure_eq_ok.1 hpure
  refine fold_eq_ok_induction (motive := fun before _ v => before.1.Nodup → before.1 ⊆ before.2 → v₁ = v ∧ found.Nodup)
    hfold (fun hnodup _ => ⟨rfl, hnodup⟩) ?_ List.nodup_nil (List.nil_subset _)
  rintro ⟨before, taken⟩ item items v ⟨before', taken'⟩ v₂ hitem ih hnodup hsub
  obtain ⟨name, v₃, hname, hmake⟩ := bind_eq_ok.1 hitem
  obtain ⟨-, rfl⟩ := eq_of_nameOf hname
  obtain ⟨⟨ident, taken''⟩, v₄, hmade, hpush⟩ := bind_eq_ok.1 hmake
  obtain ⟨rfl, hfresh, rfl, -⟩ := makeUnique_eq_ok hmade
  obtain ⟨heq, rfl⟩ := pure_eq_ok.1 hpush
  obtain ⟨rfl, rfl⟩ := Prod.mk.inj heq
  refine ih ?_ ?_
  · rw [List.nodup_append_comm]
    exact List.nodup_cons.2 ⟨fun hmem => hfresh (hsub hmem), hnodup⟩
  · refine List.append_subset.2 ⟨fun e he => List.mem_cons_of_mem _ (hsub he), ?_⟩
    exact List.cons_subset_cons _ (List.nil_subset _)

/-- The identifiers that are taken in a scope that is placed are in structs that are recorded. -/
lemma Told.inside_cons (hscope : scope.Placed v.nodes) (idents : List Ident) {key : Id × List Id} {ident : Ident}
    (hmem : (some key, ident) ∈ idents.map (fun i => (some scope.ids, i)) ++ v.identifiers)
    (hnot : (some key, ident) ∉ v.identifiers) : ∀ id ∈ key.2, id ∈ v.ids := by
  intro id hid
  rcases List.mem_append.1 hmem with hnew | hold
  · obtain ⟨i, -, heq⟩ := List.mem_map.1 hnew
    obtain ⟨hkey, -⟩ := Prod.mk.inj heq
    obtain rfl := Option.some.inj hkey
    exact hscope.mem_ids hid
  · exact absurd hold hnot

/-- One more node that is not a struct is recorded, with one identifier. -/
lemma Told.insertIdent (hv : Told names loader v) {id : Id} {info : NodeInfo} {ident : Ident}
    {key : Option (Id × List Id)} (hfresh : (key, ident) ∉ v.identifiers)
    (hmade : ∃ name, makeIdent names name () = .ok ident ()) (htakes : info.takes = [(key, ident)])
    (hplaced : ∀ scope, info.scope = some scope → scope.Placed v.nodes)
    (hinside : ∀ ids, key = some ids → ∀ id ∈ ids.2, id ∈ v.ids) (hstruct : ∀ struct, info ≠ .struct struct) :
    Told names loader ⟨v.nodes ++ [(id, info)], (key, ident) :: v.identifiers⟩ := by
  refine hv.insert ?_ ?_ (List.subset_cons_self _ _) ?_ ?_ hplaced ?_ fun struct heq => absurd heq (hstruct struct)
  · rw [htakes]
    exact List.nodup_singleton _
  · intro t ht
    rw [htakes] at ht
    rw [List.mem_singleton.1 ht]
    exact hfresh
  · rw [htakes]
    exact List.cons_subset_cons _ (List.nil_subset _)
  · intro t ht
    rw [htakes] at ht
    rw [List.mem_singleton.1 ht]
    exact hmade
  · intro ids ident' hmem hnot id' hid
    rcases List.mem_cons.1 hmem with heq | hold
    · exact .inl (hinside ids (Prod.mk.inj heq).1.symm id' hid)
    · exact absurd hold hnot

lemma keeps_validateEnum (schema : EnumSchema) (name : Name) :
    Keeps names loader scope (validateEnum names schema name scope) := by
  intro v v' hv hscope h
  replace h := of_vacantEntry_bind h
  obtain ⟨typeIdent, v₂, hident, hrest⟩ := bind_eq_ok.1 h
  obtain ⟨enumerants, v₃, henumerants, hinsert⟩ := bind_eq_ok.1 hrest
  obtain ⟨hfresh, rfl, hmade⟩ := makeUniqueIn_fresh hident
  obtain ⟨rfl, -⟩ := validateEnumerants_eq_ok henumerants
  cases hinsert
  refine ⟨hv.insertIdent hfresh hmade rfl ?_ ?_ (by rintro _ ⟨⟩), List.subset_append_left _ _⟩
  · rintro _ ⟨⟩
    exact hscope
  · rintro _ ⟨⟩
    exact fun id hid => hscope.mem_ids hid

lemma keeps_validateConst (schema : ConstSchema) (name : Name) :
    Keeps names loader scope (validateConst names schema name scope) := by
  intro v v' hv hscope h
  replace h := of_vacantEntry_bind h
  obtain ⟨constIdent, v₂, hident, hinsert⟩ := bind_eq_ok.1 h
  obtain ⟨hfresh, rfl, hmade⟩ := makeUniqueIn_fresh hident
  cases hinsert
  refine ⟨hv.insertIdent hfresh hmade rfl ?_ ?_ (by rintro _ ⟨⟩), List.subset_append_left _ _⟩
  · rintro _ ⟨⟩
    exact hscope
  · rintro _ ⟨⟩
    exact fun id hid => hscope.mem_ids hid

/-- A node that takes no identifier. -/
lemma keeps_insertInfo {id : Id} {info : NodeInfo} (htakes : info.takes = []) (hscope : info.scope = none)
    (hstruct : ∀ struct, info ≠ .struct struct) :
    Keeps names loader scope (vacantEntry id >>= fun _ => insertInfo id info) := by
  intro v v' hv _ h
  replace h := of_vacantEntry_bind h
  cases h
  refine ⟨hv.insert ?_ ?_ (List.Subset.refl _) ?_ ?_ ?_ ?_ ?_, List.subset_append_left _ _⟩
  · rw [htakes]
    exact List.nodup_nil
  · rw [htakes]
    exact nofun
  · rw [htakes]
    exact List.nil_subset _
  · rw [htakes]
    exact nofun
  · rw [hscope]
    exact nofun
  · exact fun key ident hmem hnot => absurd hmem hnot
  · exact fun struct hinfo => absurd hinfo (hstruct struct)

lemma keeps_validateInterface (node : Node) : Keeps names loader scope (validateInterface node) :=
  keeps_insertInfo rfl rfl nofun

lemma keeps_validateAnnotation (node : Node) : Keeps names loader scope <| validateAnnotation node :=
  keeps_insertInfo rfl rfl nofun

lemma keeps_validateNestedItems {x : NamedNestedItem → Prog Stop Validation Unit} {node : Node}
    (hx : ∀ named, named.item.Loaded loader → Keeps names loader scope (x named)) :
    Keeps names loader scope (validateNestedItems loader x node) := by
  refine keeps_fold fun nested hnested v v' hv hscope h => ?_
  obtain ⟨named, v₁, hlift, hrest⟩ := bind_eq_ok.1 h
  obtain ⟨rfl, rfl⟩ := eq_of_liftError hlift
  exact hx named (SchemaLoader.mem_nestedItems hnested).1 v₁ v' hv hscope hrest

lemma keeps_validateGroups {x : StructSchema → Name → Prog Stop Validation Unit} {schema : StructSchema}
    (hx : ∀ group name, (NestedItem.struct group).Loaded loader → Keeps names loader scope (x group name)) :
    Keeps names loader scope (validateGroups loader x schema) := by
  refine keeps_fold ?_
  rintro ⟨field, idx⟩ - v v' hv hscope h
  obtain ⟨fieldType, v₁, hlift, hrest⟩ := bind_eq_ok.1 h
  obtain ⟨hfield, rfl⟩ := eq_of_liftError hlift
  cases fieldType with
  | slot offset ty defaultValue => exact keeps_pure v₁ v' hv hscope hrest
  | group group =>
    obtain ⟨name, v₂, hname, hgroup⟩ := bind_eq_ok.1 hrest
    obtain ⟨-, rfl⟩ := eq_of_nameOf hname
    exact hx group name (SchemaLoader.group_loaded hfield) v₂ v' hv hscope hgroup

/-- The scope of the module of a struct is not the one that the struct is in. -/
lemma TypeScope.ids_push_ne (scope : TypeScope) (m : ModScope) : (scope.push m).ids ≠ scope.ids := by
  intro heq
  have hlen := congrArg (fun key : Id × List Id => key.2.length) heq
  simp [TypeScope.ids, TypeScope.push] at hlen

lemma TypeScope.mem_ids_push (scope : TypeScope) (m : ModScope) : m.id ∈ (scope.push m).ids.2 := by
  simp [TypeScope.ids, TypeScope.push]

/-- In the module of a struct that is not recorded nothing is taken. -/
lemma Told.not_mem_push (hv : Told names loader v) {m : ModScope} (hid : m.id ∉ v.ids) (ident : Ident) :
    (some (scope.push m).ids, ident) ∉ v.identifiers :=
  fun hmem => hid (hv.inside _ ident hmem m.id (scope.mem_ids_push m))

/-- A struct is recorded with two identifiers, and its union takes one in its own scope, where nothing was
taken before. -/
lemma Told.insertStruct (hv : Told names loader v) (hscope : scope.Placed v.nodes) {schema : StructSchema}
    (hloaded : (NestedItem.struct schema).Loaded loader) (hid : schema.node.id ∉ v.ids) {typeIdent modIdent : Ident}
    (htype : (some scope.ids, typeIdent) ∉ v.identifiers) (hmod : (some scope.ids, modIdent) ∉ v.identifiers)
    (hne : modIdent ≠ typeIdent) (htypeMade : ∃ name, makeIdent names name () = .ok typeIdent ())
    (hmodMade : ∃ name, makeIdent names name () = .ok modIdent ()) {v₁ : Validation}
    (h : takeWhich names schema (scope.push ⟨schema.node.id, modIdent⟩)
      ⟨v.nodes ++ [(schema.node.id, .struct ⟨⟨typeIdent, scope⟩, modIdent⟩)],
        (some scope.ids, modIdent) :: (some scope.ids, typeIdent) :: v.identifiers⟩ = .ok () v₁) :
    Told names loader v₁ ∧ v₁.nodes = v.nodes ++ [(schema.node.id, .struct ⟨⟨typeIdent, scope⟩, modIdent⟩)] := by
  let inner := scope.push ⟨schema.node.id, modIdent⟩
  let taken := (some scope.ids, modIdent) :: (some scope.ids, typeIdent) :: v.identifiers
  have hinner (ident : Ident) : (some inner.ids, ident) ∉ taken := by
    intro hmem
    rcases List.mem_cons.1 hmem with heq | hmem
    · exact scope.ids_push_ne _ (Option.some.inj (Prod.mk.inj heq).1)
    · rcases List.mem_cons.1 hmem with heq | hmem
      · exact scope.ids_push_ne _ (Option.some.inj (Prod.mk.inj heq).1)
      · exact hv.not_mem_push hid ident hmem
  have hnodup : (NodeInfo.struct ⟨⟨typeIdent, scope⟩, modIdent⟩).takes.Nodup := by
    refine List.nodup_cons.2 ⟨fun hmem => ?_, List.nodup_singleton _⟩
    exact hne (Prod.mk.inj (List.mem_singleton.1 hmem)).2.symm
  have hfresh : ∀ t ∈ (NodeInfo.struct ⟨⟨typeIdent, scope⟩, modIdent⟩).takes, t ∉ v.identifiers := by
    intro t ht
    rcases List.mem_cons.1 ht with rfl | ht
    · exact htype
    · rw [List.mem_singleton.1 ht]
      exact hmod
  have hsub : v.identifiers ⊆ taken := fun t ht => List.mem_cons_of_mem _ (List.mem_cons_of_mem _ ht)
  have htakes : (NodeInfo.struct ⟨⟨typeIdent, scope⟩, modIdent⟩).takes ⊆ taken := by
    intro t ht
    rcases List.mem_cons.1 ht with rfl | ht
    · exact List.mem_cons_of_mem _ List.mem_cons_self
    · rw [List.mem_singleton.1 ht]
      exact List.mem_cons_self
  have hmade : ∀ t ∈ (NodeInfo.struct ⟨⟨typeIdent, scope⟩, modIdent⟩).takes,
      ∃ name, makeIdent names name () = .ok t.2 () := by
    intro t ht
    rcases List.mem_cons.1 ht with rfl | ht
    · exact htypeMade
    · rw [List.mem_singleton.1 ht]
      exact hmodMade
  have hplaced : ∀ scope', (NodeInfo.struct ⟨⟨typeIdent, scope⟩, modIdent⟩).scope = some scope' →
      scope'.Placed v.nodes := by
    rintro _ ⟨⟩
    exact hscope
  have hinside : ∀ key ident, (some key, ident) ∈ taken → (some key, ident) ∉ v.identifiers →
      ∀ id ∈ key.2, id ∈ v.ids ∨ id = schema.node.id :=
    fun key ident hmem hnot id hid' => .inl (Told.inside_cons hscope [modIdent, typeIdent] hmem hnot id hid')
  rcases ite_eq_ok.1 h with ⟨hunion, h⟩ | ⟨hunion, h⟩
  · -- the union takes its name where nothing is taken
    obtain ⟨which, v₂, hwhich, hpure⟩ := bind_eq_ok.1 h
    obtain ⟨-, rfl⟩ := pure_eq_ok.1 hpure
    obtain ⟨huntaken, rfl⟩ := makeUniqueIn_eq_ok.1 hwhich
    have hnone : ScopedIdentifierSet.takenIn taken (some inner) = [] := by
      refine List.map_eq_nil_iff.2 (List.filter_eq_nil_iff.2 fun entry hentry heq => ?_)
      have hkey : entry.1 = some inner.ids := of_decide_eq_true heq
      exact hinner entry.2 (by rw [← hkey]; exact hentry)
    rw [hnone] at huntaken
    obtain ⟨first, hfirst, heq⟩ := makeUntaken_first huntaken
    obtain rfl := heq List.not_mem_nil
    refine ⟨hv.insert hnodup hfresh (fun t ht => List.mem_cons_of_mem _ (hsub ht))
      (fun t ht => List.mem_cons_of_mem _ (htakes ht)) hmade hplaced ?_ ?_, rfl⟩
    · intro key ident hmem hnot id hid'
      rcases List.mem_cons.1 hmem with heq | hmem
      · obtain rfl := Option.some.inj (Prod.mk.inj heq).1
        have hid' : id ∈ scope.ids.2 ++ [schema.node.id] := by
          simpa [TypeScope.ids, TypeScope.push] using hid'
        rcases List.mem_append.1 hid' with hid' | hid'
        · exact .inl (hscope.mem_ids hid')
        · exact .inr (List.mem_singleton.1 hid')
      · exact hinside key ident hmem hnot id hid'
    · rintro struct ⟨⟩ - i hi
      obtain rfl : i = which := by
        rw [hi] at hfirst
        cases hfirst
        rfl
      exact ⟨List.mem_cons_self, fun hmem => hinner i (hsub hmem), fun hmem => hinner i (htakes hmem)⟩
  · obtain ⟨-, rfl⟩ := pure_eq_ok.1 h
    refine ⟨hv.insert hnodup hfresh hsub htakes hmade hplaced hinside ?_, rfl⟩
    rintro struct - ⟨node, decl, hget, hwhich, hcount⟩
    have hnode : node = schema.node := Option.some.inj (hget.symm.trans hloaded.get_eq)
    subst hnode
    have hdecl := hwhich.symm.trans hloaded.which_eq
    cases hdecl
    exact absurd hcount hunion

/-- The induction is on the depth, for items and structs at once. -/
lemma keeps_validate (depth : ℕ) : ∀ scope : TypeScope,
    (∀ named, named.item.Loaded loader → Keeps names loader scope (validateItem names loader depth named scope)) ∧
    ∀ schema name, (NestedItem.struct schema).Loaded loader →
      Keeps names loader scope (validateStruct names loader depth schema name scope) := by
  induction depth with
  | zero => exact fun scope => ⟨fun _ _ _ _ _ _ h => (nomatch h), fun _ _ _ _ _ _ _ h => (nomatch h)⟩
  | succ depth ih =>
    intro scope
    refine ⟨fun named hloaded v v' hv hscope h => ?_, fun schema name hloaded v v' hv hscope h => ?_⟩
    · obtain ⟨name, v₁, hname, hitem⟩ := bind_eq_ok.1 h
      obtain ⟨-, rfl⟩ := eq_of_nameOf hname
      obtain ⟨text, id, item⟩ := named
      cases item with
      | struct schema => exact (ih scope).2 schema name hloaded v₁ v' hv hscope hitem
      | enum schema => exact keeps_validateEnum schema name v₁ v' hv hscope hitem
      | interface node => exact keeps_validateInterface node v₁ v' hv hscope hitem
      | const schema => exact keeps_validateConst schema name v₁ v' hv hscope hitem
      | annotationDecl node => exact keeps_validateAnnotation node v₁ v' hv hscope hitem
    · obtain ⟨_, v₀, hvacant, -⟩ := bind_eq_ok.1 h
      obtain ⟨-, hid⟩ := vacantEntry_eq_ok hvacant
      replace h := of_vacantEntry_bind h
      obtain ⟨typeIdent, v₂, htype, hrest⟩ := bind_eq_ok.1 h
      obtain ⟨modIdent, v₃, hmod, hrest⟩ := bind_eq_ok.1 hrest
      obtain ⟨_, v₄, hinsert, hrest⟩ := bind_eq_ok.1 hrest
      obtain ⟨_, v₅, hwhich, hrest⟩ := bind_eq_ok.1 hrest
      obtain ⟨_, v₆, hnested, hgroups⟩ := bind_eq_ok.1 hrest
      obtain ⟨htype', rfl, htypeMade⟩ := makeUniqueIn_fresh htype
      obtain ⟨hmod', rfl, hmodMade⟩ := makeUniqueIn_fresh hmod
      cases hinsert
      obtain ⟨hne, hmod''⟩ := not_or.1 (mt List.mem_cons.2 hmod')
      obtain ⟨hv₅, hnodes⟩ := hv.insertStruct hscope hloaded hid htype' hmod''
        (fun heq => hne (by rw [heq])) htypeMade hmodMade hwhich
      have hsub₅ : v.nodes ⊆ v₅.nodes := by
        rw [hnodes]
        exact List.subset_append_left _ _
      have hmem : (schema.node.id, .struct ⟨⟨typeIdent, scope⟩, modIdent⟩) ∈ v₅.nodes := by
        rw [hnodes]
        exact List.mem_append_right _ (List.mem_singleton_self _)
      have hinner := (hscope.mono hsub₅).push hmem
      obtain ⟨hitem, hstruct⟩ := ih (scope.push ⟨schema.node.id, modIdent⟩)
      obtain ⟨hv₆, hsub₆⟩ := keeps_validateNestedItems hitem v₅ v₆ hv₅ hinner hnested
      obtain ⟨hv', hsub'⟩ := keeps_validateGroups (fun group name hg => hstruct group name hg) v₆ v' hv₆
        (hinner.mono hsub₆) hgroups
      exact ⟨hv', fun e he => hsub' (hsub₆ (hsub₅ he))⟩

/-! ## File by file -/

lemma placed_ofFile {nodes : NodeInfoMap} {id : Id} {m : Ident} {path : Name}
    (hmem : (id, .file ⟨m, path⟩) ∈ nodes) : (TypeScope.ofFile ⟨id, m⟩).Placed nodes where
  file := ⟨path, hmem⟩
  types outer m hpre := by
    have hnil := List.prefix_nil.1 hpre
    simp at hnil

lemma told_validateFile {depth : ℕ} {file : Node} (hv : Told names loader v)
    (h : validateFile names loader depth file v = .ok () v') : Told names loader v' := by
  obtain ⟨-, path, m, -, hm, hbelow⟩ := validateFile_eq_ok.1 h
  have hfresh : (none, m) ∉ v.identifiers := by
    refine fun hmem => untaken_not_mem hm ?_
    exact List.mem_map.2 ⟨_, List.mem_filter.2 ⟨hmem, by simp⟩, rfl⟩
  have hfile : Told names loader (v.below file m path) := by
    refine hv.insertIdent hfresh ((untaken_made hm).imp' _ fun _ hk => hk) rfl ?_ ?_ ?_
    all_goals rintro _ ⟨⟩
  have hplaced : (TypeScope.ofFile ⟨file.id, m⟩).Placed (v.below file m path).nodes :=
    placed_ofFile (List.mem_append_right _ (List.mem_singleton_self _))
  refine (keeps_fold (fun nested hnested => ?_) _ _ hfile hplaced hbelow).1
  have hitem (named : NamedNestedItem) (hnamed : .ok named ∈ loader.nestedItems file) :
      Keeps names loader (.ofFile ⟨file.id, m⟩) (validateItem names loader depth named (.ofFile ⟨file.id, m⟩)) :=
    (keeps_validate depth _).1 named (SchemaLoader.mem_nestedItems hnamed).1
  rcases nested with e | named
  · rcases e with e | e
    · cases e
      case missingNode => exact keeps_pure
      all_goals exact keeps_throw _
    · exact keeps_throw _
  · exact hitem named hnested

/-- **Validation tells apart** what it records in one scope, and places every scope. -/
lemma told_of_new {depth : ℕ} {ctx : GeneratorContext} (h : GeneratorContext.new names loader depth .new = .ok ctx v) :
    Told names loader v := by
  obtain ⟨_, v₁, hfiles, hrest⟩ := bind_eq_ok.1 h
  have hrest := of_bind rfl hrest
  obtain ⟨-, rfl⟩ := pure_eq_ok.1 hrest
  refine fold_eq_ok_induction (motive := fun _ _ v => Told names loader v → Told names loader v₁) hfiles id ?_ told_new
  intro _ file files v _ v₂ hfile ih hv
  exact ih (told_validateFile hv hfile)

end Told

end Recapn.Codegen

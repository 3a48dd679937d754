/-
# Collisions of generated names

Names that are made unique never collide with each other, and making one unique always ends.  So in the code of
a file names collide exactly where an item asks for a name that the templates add in the same module, where a
field asks for the name of the accessor of the union, or where the file itself gets the name that its outer
module has for the file or the imports.
-/
import Recapn.Codegen.Shown

namespace Recapn.Codegen

open Recapn.Lib Recapn.Lib.Prog

/-! ## The imports of a file -/

/-- No file is imported twice. -/
def importsOnce : Terms Stop FileContext where
  inv c := c.requiredImports.Nodup
  err _ := True
  halts _ := True

section Imports

variable {names : Spelling} {ctx : GeneratorContext} {c c' : FileContext}

lemma generates_importsOnce (hsound : ctx.info.Sound ctx.loader) : ctx.Generates importsOnce where
  sound := hsound
  stop _ _ := trivial
  imports _ _ _ _ hnot hc := (List.perm_orderedInsert _ _ _).nodup_iff.2 (List.nodup_cons.2 ⟨hnot, hc⟩)

lemma within_generateNestedItems {x : Id → NestedItem → Prog Stop FileContext (Option GeneratedItem)} {node : Node}
    (hx : ∀ named, .ok named ∈ ctx.loader.nestedItems node → Within importsOnce (x named.id named.item)) :
    Within importsOnce (ctx.generateNestedItems x node) := by
  refine within_fold (fun nested hnested generated => ?_) _
  refine within_bind (within_liftError (fun _ _ => trivial) nested) ?_
  rintro named ⟨c, c', -, hrun⟩
  obtain ⟨rfl, -⟩ := eq_of_liftError hrun
  exact within_bind (hx named hnested) fun _ _ => within_pure _

lemma within_generateGroups {x : StructSchema → StructInfo → Prog Stop FileContext (GeneratedStruct GeneratedItem)}
    {schema : StructSchema} (hsound : ctx.info.Sound ctx.loader)
    (hx : ∀ group info, Within importsOnce (x group info)) :
    Within importsOnce (ctx.generateGroups x schema) := by
  refine within_fold (fun field _ generated => ?_) _
  refine within_fieldType (generates_importsOnce hsound) fun fieldType hloaded => ?_
  cases fieldType with
  | slot offset type defaultValue => exact within_pure _
  | group group =>
    refine within_findStruct (generates_importsOnce hsound) hloaded fun info _ => ?_
    exact within_bind (hx group info) fun _ _ => within_pure _

/-- The induction is on the depth, for items and structs at once. -/
lemma within_generate (hsound : ctx.info.Sound ctx.loader) (depth : ℕ) :
    (∀ item : NestedItem, item.Loaded ctx.loader →
      Within importsOnce (ctx.generateItem names depth item.node.id item)) ∧
    ∀ schema info, Within importsOnce (ctx.generateStruct names depth schema info) := by
  have hgenerates := generates_importsOnce hsound
  induction depth with
  | zero => exact ⟨fun _ _ => within_halt trivial, fun _ _ => within_halt trivial⟩
  | succ depth ih =>
    obtain ⟨hitem, hstruct⟩ := ih
    refine ⟨fun item hloaded => ?_, fun schema info => ?_⟩
    · cases item with
      | struct schema =>
        refine within_findStruct hgenerates hloaded fun info _ => ?_
        exact within_bind (hstruct schema info) fun _ _ => within_pure _
      | enum schema => exact within_findEnum hgenerates hloaded fun _ _ => within_pure _
      | const schema =>
        refine within_findInfo hgenerates fun info hmem => ?_
        obtain ⟨const, rfl⟩ := hsound.const_of_mem hloaded hmem
        refine within_bind (within_pure const) fun const _ => ?_
        exact within_bind (within_generateConst hgenerates schema const) fun _ _ => within_pure _
      | interface node => exact within_findInfo hgenerates fun _ _ => within_pure _
      | annotationDecl node => exact within_findInfo hgenerates fun _ _ => within_pure _
    · refine within_bind (within_modify fun _ hc => hc) fun _ _ => ?_
      refine within_bind (within_generateMembers hgenerates schema info) fun members _ => ?_
      refine within_bind (within_generateNestedItems fun named hnamed => ?_) fun nestedItems _ => ?_
      · obtain ⟨hloaded, hid⟩ := SchemaLoader.mem_nestedItems hnamed
        rw [← hid]
        exact hitem named.item hloaded
      · exact within_bind (within_generateGroups hsound hstruct) fun _ _ => within_pure _

/-- The file is recorded with the module. -/
def HasModule (nodes : NodeInfoMap) (id : Id) (m : Ident) : Prop := ∃ path, (id, .file ⟨m, path⟩) ∈ nodes

/-- A module is that of one file. -/
lemma Told.hasModule_unique {loader : SchemaLoader} {v : Validation} (h : Told names loader v) {id id' : Id} {m : Ident}
    (hm : HasModule v.nodes id m) (hm' : HasModule v.nodes id' m) : id = id' := by
  obtain ⟨path, hmem⟩ := hm
  obtain ⟨path', hmem'⟩ := hm'
  exact (Prod.mk.inj (eq_of_mem_flatMap h.nodup hmem hmem' (List.mem_singleton_self _) (List.mem_singleton_self _))).1

lemma exists_of_modules {nodes : NodeInfoMap} {ids : List Id} {modules : List Ident}
    (h : List.Forall₂ (HasModule nodes) ids modules) : ∀ m ∈ modules, ∃ id ∈ ids, HasModule nodes id m := by
  induction h with
  | nil => exact nofun
  | cons hm _ ih =>
    intro m hmem
    rcases List.mem_cons.1 hmem with rfl | hmem
    · exact ⟨_, List.mem_cons_self, hm⟩
    · exact (ih m hmem).imp fun _ hid => ⟨List.mem_cons_of_mem _ hid.1, hid.2⟩

/-- Different files have different modules. -/
lemma Told.nodup_modules {loader : SchemaLoader} {v : Validation} (h : Told names loader v) {ids : List Id}
    {modules : List Ident} (hids : ids.Nodup) (hmodules : List.Forall₂ (HasModule v.nodes) ids modules) :
    modules.Nodup := by
  induction hmodules with
  | nil => exact List.nodup_nil
  | cons hm hrest ih =>
    obtain ⟨hnot, hids⟩ := List.nodup_cons.1 hids
    refine List.nodup_cons.2 ⟨fun hmem => ?_, ih hids⟩
    obtain ⟨id', hid', hm'⟩ := exists_of_modules hrest _ hmem
    obtain rfl := h.hasModule_unique hm hm'
    exact hnot hid'

lemma eq_of_findInfo {id : Id} {info : NodeInfo} (h : ctx.findInfo id c = .ok info c') :
    (id, info) ∈ ctx.info ∧ c' = c := ⟨GeneratorContext.mem_of_findInfo h, (eq_of_liftError h).2⟩

lemma unwrapFile_eq_ok {info : NodeInfo} {file : FileInfo} (h : info.unwrapFile c = .ok file c') :
    info = .file file ∧ c' = c := by
  cases info with
  | file info =>
    obtain ⟨rfl, rfl⟩ := pure_eq_ok.1 h
    exact ⟨rfl, rfl⟩
  | _ => exact (throw_eq_ok.1 h).elim

/-- What is generated of a file: its items, and around them its module and those that the items are imported
from. -/
lemma generateFile_eq_ok {depth : ℕ} {id : Id} {generated : GeneratedFile} {root : GeneratedRootFile}
    (h : ctx.generateFile names depth id c = .ok (generated, root) c') :
    ∃ file, ctx.loader.trySchema FileSchema.fromNode id = .ok file ∧ HasModule ctx.info id root.ident ∧
      ctx.generateNestedItems (ctx.generateItem names depth) file c = .ok generated.items c' ∧
      List.Forall₂ (HasModule ctx.info) c'.requiredImports root.imports := by
  obtain ⟨file, c₁, hfile, hrest⟩ := bind_eq_ok.1 h
  obtain ⟨info, c₂, hfind, hrest⟩ := bind_eq_ok.1 hrest
  obtain ⟨fileInfo, c₃, hunwrap, hrest⟩ := bind_eq_ok.1 hrest
  obtain ⟨items, c₄, hitems, hrest⟩ := bind_eq_ok.1 hrest
  obtain ⟨context, c₅, hget, hrest⟩ := bind_eq_ok.1 hrest
  obtain ⟨imports, c₆, himports, hpure⟩ := bind_eq_ok.1 hrest
  obtain ⟨heq, rfl⟩ := pure_eq_ok.1 hpure
  obtain ⟨rfl, rfl⟩ := Prod.mk.inj heq
  cases hget
  obtain ⟨hschema, rfl⟩ := eq_of_liftError hfile
  obtain ⟨hmem, rfl⟩ := eq_of_findInfo hfind
  obtain ⟨rfl, rfl⟩ := unwrapFile_eq_ok hunwrap
  obtain ⟨rfl, new, rfl, hnew⟩ := fold_eq_ok_induction (motive := fun before ids c => c₆ = c ∧ ∃ new,
    imports = before ++ new ∧ List.Forall₂ (HasModule ctx.info) ids new) himports
    ⟨rfl, [], (List.append_nil _).symm, .nil⟩ (by
      rintro before id ids c _ c₇ hfirst ⟨rfl, new, rfl, hnew⟩
      obtain ⟨info, c₈, hfind, hfirst⟩ := bind_eq_ok.1 hfirst
      obtain ⟨file, c₉, hunwrap, hpure⟩ := bind_eq_ok.1 hfirst
      obtain ⟨hmem, rfl⟩ := eq_of_findInfo hfind
      obtain ⟨rfl, rfl⟩ := unwrapFile_eq_ok hunwrap
      obtain ⟨rfl, rfl⟩ := pure_eq_ok.1 hpure
      exact ⟨rfl, file.modIdent :: new, List.append_assoc _ _ _, .cons ⟨_, hmem⟩ hnew⟩)
  exact ⟨file, hschema, ⟨_, hmem⟩, hitems, hnew⟩

end Imports

/-! ## The module of a file -/

/-- The file comes first among those whose paths ask for the identifier. -/
def SchemaLoader.FirstToAsk (names : Spelling) (loader : SchemaLoader) (file : Node) (w : Ident) : Prop :=
  ∃ before after, loader.files = before ++ file :: after ∧ fileIdent names file = some w ∧
    ∀ other ∈ before, fileIdent names other ≠ some w

/-- Nothing that a file or something below it is called is a name of the templates where it is declared. -/
structure SchemaLoader.FileFree (names : Spelling) (loader : SchemaLoader) (file : Node) : Prop where
  module : ∀ w ∈ [fileSegment, importsSegment], ¬ loader.FirstToAsk names file w
  items : loader.Free names file usedNames
  structs : ∀ schema, loader.Under file schema → schema.Free names loader

/-- The identifier is made for the path of the file. -/
def FileMade (names : Spelling) (file : Node) (ident : Ident) : Prop :=
  ∃ path, file.displayName.asStr = some path ∧ Made names path ident

section File

variable {names : Spelling} {loader : SchemaLoader} {v : Validation} {ctx : GeneratorContext} {file : Node}
  {before after : List Node} {taken : List Ident} {nodes : NodeInfoMap} {depth : ℕ} {m w : Ident}

lemma fileIdent_eq_some_iff : fileIdent names file = some w ↔
    ∃ path, file.displayName.asStr = some path ∧ Tried names path w := by
  constructor
  · intro h
    unfold fileIdent at h
    split at h
    case h_1 => cases h
    case h_2 path hpath =>
      split at h
      case h_1 i s hmade =>
        obtain rfl := Option.some.inj h
        exact ⟨path, hpath, hmade⟩
      case h_2 => cases h
  · rintro ⟨path, hpath, htried⟩
    exact fileIdent_of_makeIdent hpath htried

lemma FileMade.asked (h : FileMade names file w) (hw : w.getLast? ≠ some '_') : fileIdent names file = some w := by
  obtain ⟨path, hpath, hmade⟩ := h
  exact fileIdent_eq_some_iff.2 ⟨path, hpath, hmade.tried hw⟩

/-- The files before one get their modules first.  The induction is on those. -/
lemma LaidOut.supply (h : LaidOut names loader depth taken (before ++ file :: after) nodes)
    (hkind : ∀ info, (file.id, info) ∈ nodes → ∃ f, info = .file f) :
    ∃ given path m, Supply (FileMade names) (fun file i => fileIdent names file = some i) taken before given ∧
      file.displayName.asStr = some path ∧ makeUntaken names (given.reverse ++ taken) path () = .ok m () ∧
      HasModule nodes file.id m := by
  induction before generalizing taken nodes with
  | nil =>
    obtain ⟨path, m, filePath, hpath, hm, hmem⟩ := h.exists_module hkind
    exact ⟨[], path, m, .nil, hpath, hm, filePath, hmem⟩
  | cons first before ih =>
    cases h with
    | cons hfirstPath hfirst halone hrest =>
      obtain ⟨given, path, m, hsupply, hpath, hm, filePath, hmem⟩ :=
        ih hrest fun info hinfo => hkind info (List.mem_append_right _ hinfo)
      have hmade := made_of_makeUntaken hfirst
      refine ⟨_ :: given, path, m, .cons (untaken_not_mem hfirst) ⟨_, hfirstPath, hmade⟩ ?_ hsupply, hpath, ?_, filePath,
        List.mem_append_right _ hmem⟩
      · intro w hw hnot
        obtain ⟨path', hpath', htried⟩ := fileIdent_eq_some_iff.1 hw
        obtain rfl := Option.mem_unique hfirstPath hpath'
        exact eq_of_tried hfirst htried hnot
      · rw [List.reverse_cons, List.append_assoc]
        exact hm

/-- A file gets a name that is made only when it is asked for exactly if it asks first. -/
lemma module_eq_iff (hsound : v.nodes.Sound loader)
    (hlaid : LaidOut names loader depth [] loader.files v.nodes) (hfile : file ∈ loader.files)
    (hm : HasModule v.nodes file.id m) (hw : w.getLast? ≠ some '_') :
    m = w ↔ loader.FirstToAsk names file w := by
  obtain ⟨hget, hwhich⟩ := SchemaLoader.mem_files hfile
  have hkind (info : NodeInfo) (hinfo : (file.id, info) ∈ v.nodes) : ∃ f, info = .file f :=
    hsound.file_of_mem hget hwhich hinfo
  have hsplit (before after : List Node) (hfiles : loader.files = before ++ file :: after) :
      m = w ↔ fileIdent names file = some w ∧ ∀ other ∈ before, fileIdent names other ≠ some w := by
    rw [hfiles] at hlaid
    obtain ⟨given, path, m', hsupply, hpath, hmade, hm'⟩ := hlaid.supply hkind
    obtain rfl : m = m' := by
      obtain ⟨filePath, hmem⟩ := hm
      obtain ⟨filePath', hmem'⟩ := hm'
      have heq := (Prod.mk.inj (List.inj_on_of_nodup_map hsound.nodup hmem hmem' rfl)).2
      exact (FileInfo.mk.inj (NodeInfo.file.inj heq)).1
    have hgiven := hsupply.mem_iff fun other (_ : other ∈ before) hmade => hmade.asked hw
    constructor
    · rintro rfl
      refine ⟨FileMade.asked ⟨path, hpath, made_of_makeUntaken hmade⟩ hw, fun other hother hasks => ?_⟩
      refine untaken_not_mem hmade (List.mem_append_left _ (List.mem_reverse.2 ?_))
      exact hgiven.2 ⟨List.not_mem_nil, other, hother, hasks⟩
    · rintro ⟨hasks, hfirst⟩
      obtain ⟨path', hpath', htried⟩ := fileIdent_eq_some_iff.1 hasks
      obtain rfl := Option.mem_unique hpath hpath'
      refine eq_of_tried hmade htried ?_
      rw [List.append_nil, List.mem_reverse, hgiven]
      rintro ⟨-, other, hother, hasks'⟩
      exact hfirst other hother hasks'
  constructor
  · intro heq
    obtain ⟨before, after, hfiles⟩ := List.append_of_mem hfile
    exact ⟨before, after, hfiles, (hsplit before after hfiles).1 heq⟩
  · rintro ⟨before, after, hfiles, hfirst⟩
    exact (hsplit before after hfiles).2 hfirst

/-! ## What validation leaves -/

lemma mem_of_makeIdentStr {name : Name} {str : List Char} {c : Char} (h : makeIdentStr names name = .ok str)
    (hc : c ∈ str) : c = '_' ∨ c ∈ name := by
  cases name with
  | nil => cases h
  | cons first chars =>
    cases h
    rcases List.mem_cons.1 hc with rfl | hc
    · split
      · exact .inr List.mem_cons_self
      · exact .inl rfl
    · obtain ⟨d, hd, rfl⟩ := List.mem_map.1 hc
      split
      · exact .inr (List.mem_cons_of_mem _ hd)
      · exact .inl rfl

/-- A name without small letters is not made into one with some, but for the `r#`. -/
lemma Tried.not_small {name : Name} (h : Tried names name w) (hname : ∀ c ∈ name, c.isLower = false)
    (hsmall : ∃ c ∈ w, c.isLower = true) (hraw : '#' ∉ w) : False := by
  obtain ⟨str, s₁, hlift, hrest⟩ := bind_eq_ok.1 h
  have hstr := (eq_of_liftError hlift).1
  rcases ite_eq_ok.1 hrest with ⟨-, hpure⟩ | ⟨-, hrest⟩
  · obtain ⟨rfl, -⟩ := pure_eq_ok.1 hpure
    obtain ⟨c, hc, hlower⟩ := hsmall
    rcases mem_of_makeIdentStr hstr hc with rfl | hc
    · exact absurd hlower (by decide)
    · exact absurd ((hname c hc).symm.trans hlower) (by decide)
  · rcases ite_eq_ok.1 hrest with ⟨-, hpure⟩ | ⟨-, hthrow⟩
    · obtain ⟨rfl, -⟩ := pure_eq_ok.1 hpure
      exact hraw (List.mem_cons_of_mem _ List.mem_cons_self)
    · exact (throw_eq_ok.1 hthrow).elim

lemma small_of_structNames : ∀ w ∈ structNames, (∃ c ∈ w, c.isLower = true) ∧ '#' ∉ w := by
  -- 35 is the code of `#`
  have h : structNames.all (fun w => w.any Char.isLower && w.all fun c => c.val != 35) = true := by
    decide
  intro w hw
  have hboth := List.all_eq_true.1 h w hw
  rw [Bool.and_eq_true, List.any_eq_true, List.all_eq_true] at hboth
  refine ⟨hboth.1, fun hmem => ?_⟩
  have hcode := hboth.2 _ hmem
  revert hcode
  decide

lemma checked_of_contextOf {keyword : List Char → Prop} (hl : names.Lawful keyword)
    (hword : names.IsWord whichName) (hkeyword : ¬ keyword whichName)
    (hshouty : ∀ name, ∀ c ∈ names.asShoutySnakeCase name, c.isLower = false)
    (h : contextOf names loader = .ok ctx v) : Checked names loader v ∧ v.nodes.Sound loader := by
  rcases contextOf_cases names loader with ⟨v', hv', hsound⟩ | ⟨stop, v', hstop⟩
  · obtain ⟨rfl, rfl⟩ := Outcome.ok.inj (h.symm.trans hv')
    refine ⟨⟨told_of_new h, hsound.nodup, (filed_of_contextOf h).1, ?_, fun name w hw htried => ?_⟩, hsound⟩
    · exact makeIdent_of_isWord hl hword hkeyword (by decide) ()
    · obtain ⟨hsmall, hraw⟩ := small_of_structNames w hw
      exact htried.not_small (hshouty name) hsmall hraw
  · rw [h] at hstop
    cases hstop

/-! ## Files -/

lemma mem_itemsOf_file_iff (hwhich : file.which = .ok .file) {item : NestedItem} :
    item ∈ loader.itemsOf file ↔ ∃ text, loader.Child file text item := by
  rw [mem_itemsOf_iff]
  constructor
  · rintro ⟨named, hnamed, rfl⟩
    exact ⟨_, .nested hnamed⟩
  · rintro ⟨text, hchild⟩
    cases hchild with
    | nested hnamed => exact ⟨_, hnamed, rfl⟩
    | group hstruct =>
      rw [hwhich] at hstruct
      cases hstruct

/-- Names of a generated file collide exactly if an item of the file asks for one that is used in every module,
or if names of a struct collide. -/
lemma file_apart_iff {generated : GeneratedFile} {ids : List Id} {c c' : FileContext} (hinfo : ctx.info = v.nodes)
    (hchecked : Checked names ctx.loader v) (hfile : file ∈ ctx.loader.files)
    (hfiled : FiledFile names ctx.loader v file m)
    (hwalk : ctx.loader.Walks (ctx.loader.itemsOf file) ids) (hnodup : ids.Nodup)
    (hitems : ctx.generateNestedItems (ctx.generateItem names depth) file c = .ok generated.items c') :
    generated.Apart ↔ ctx.loader.Free names file usedNames ∧
      ∀ schema, ctx.loader.Under file schema → schema.Free names ctx.loader := by
  obtain ⟨hget, hwhich⟩ := SchemaLoader.mem_files hfile
  have hmem (item : NestedItem) : item ∈ ctx.loader.itemsOf file ↔ ∃ text, ctx.loader.Child file text item :=
    mem_itemsOf_file_iff hwhich
  have hshows : Shows names ctx (ctx.loader.itemsOf file) generated.items := by
    refine shows_generateNestedItems (fun named c c' out hnamed hout => ?_) hitems
    obtain ⟨hloaded, hid⟩ := SchemaLoader.mem_nestedItems hnamed
    rw [← hid] at hout
    refine (shows_generate hinfo hchecked depth).1 _ named.name named.item c c' out hloaded ?_
      (hfiled.below _ _ (.nested hnamed)) hout
    exact once_of_mem hwalk hnodup (mem_itemsOf_iff.2 ⟨named, hnamed, rfl⟩)
  have hdeclares : (usedNames ++ generated.items.flatMap GeneratedItem.declares).Nodup ↔
      ctx.loader.Free names file usedNames := by
    rw [hshows.declares, hinfo]
    exact nodup_append_declared_iff hchecked hmem hfiled.below hget (hnodup.sublist hwalk.keys_sublist) (by decide)
      (List.subset_append_left _ _)
  have hstructs : (∀ item ∈ generated.items, item.Apart) ↔
      ∀ schema, ctx.loader.Under file schema → schema.Free names ctx.loader := by
    rw [hshows.apart, forall_under_iff]
    constructor
    · exact fun h text schema hchild => h schema ((hmem _).2 ⟨text, hchild⟩)
    · intro h schema hschema
      obtain ⟨text, hchild⟩ := (hmem _).1 hschema
      exact h text schema hchild
  exact ⟨fun h => ⟨hdeclares.1 h.declares, hstructs.1 h.items⟩, fun h => ⟨hdeclares.2 h.1, hstructs.2 h.2⟩⟩

/-- The names around a file collide exactly if the file gets one of those that are used in every module. -/
lemma root_apart_iff {root : GeneratedRootFile} (himports : root.imports.Nodup) :
    root.Apart ↔ ∀ w ∈ [fileSegment, importsSegment], root.ident ≠ w := by
  have hne : fileSegment ≠ importsSegment := by decide
  constructor
  · rintro ⟨hdeclares, -⟩ w hw heq
    exact (List.nodup_cons.1 hdeclares).1 (heq ▸ hw)
  · refine fun h => ⟨List.nodup_cons.2 ⟨fun hmem => h _ hmem rfl, ?_⟩, himports⟩
    exact List.nodup_cons.2 ⟨fun hmem => hne (List.mem_singleton.1 hmem), List.nodup_singleton _⟩

/-- Names are made unique, in whatever set, without going on forever. -/
lemma makeUnique_ends (names : Spelling) (name : Name) :
    (∀ (idents : IdentifierSet) (r : Halt), idents.makeUnique names name () ≠ .halt r) ∧
      ∀ (idents : ScopedIdentifierSet) (scope : Option TypeScope) (r : Halt),
        idents.makeUnique names scope name () ≠ .halt r := by
  let t : Terms Stop Unit := ⟨fun _ => True, fun _ => True, fun _ => False⟩
  have hends {α : Type} {x : Prog Stop Unit α} (hx : Within t x) (r : Halt) : x () ≠ .halt r :=
    fun hrun => hx.halt trivial hrun
  exact ⟨fun idents => hends (idents.within_makeUnique (fun _ _ => trivial) name),
    fun idents scope => hends (idents.within_makeUnique (fun _ _ => trivial) scope name)⟩

/-- **Generated names** of a file collide exactly where an item or a field, or the file itself, asks for a name
that the templates add in the same module.  Files have different modules, and names are always made unique. -/
theorem generated_apart_iff {keyword : List Char → Prop} (hl : names.Lawful keyword)
    (hword : names.IsWord whichName) (hkeyword : ¬ keyword whichName)
    (hshouty : ∀ name, ∀ c ∈ names.asShoutySnakeCase name, c.isLower = false)
    (h : contextOf names loader = .ok ctx v) (hfile : file ∈ loader.files) {generated : GeneratedFile}
    {root : GeneratedRootFile} {c : FileContext}
    (hgenerate : ctx.generateFile names depth file.id .new = .ok (generated, root) c) :
    (generated.Apart ∧ root.Apart ↔ loader.FileFree names file) ∧
      (∀ other ∈ loader.files, ∀ depth' generated' root' c',
        ctx.generateFile names depth' other.id .new = .ok (generated', root') c' → root'.ident = root.ident →
        other = file) ∧
      ∀ name, (∀ (idents : IdentifierSet) (r : Halt), idents.makeUnique names name () ≠ .halt r) ∧
        ∀ (idents : ScopedIdentifierSet) (scope : Option TypeScope) (r : Halt),
          idents.makeUnique names scope name () ≠ .halt r := by
  obtain ⟨hchecked, hsound⟩ := checked_of_contextOf hl hword hkeyword hshouty h
  obtain ⟨hfiles, hctx⟩ := contextOf_eq_ok.1 h
  subst hctx
  obtain ⟨hget, hwhich⟩ := SchemaLoader.mem_files hfile
  obtain ⟨file', hschema, hmodule, hitems, himports⟩ := generateFile_eq_ok hgenerate
  obtain rfl : file = file' := by
    obtain ⟨node, hget', hfrom⟩ := SchemaLoader.trySchema_eq_ok hschema
    rw [Option.some.inj (hget.symm.trans hget')]
    exact (isFile_of_fromNode hfrom).1.symm
  refine ⟨?_, ?_, makeUnique_ends names⟩
  · have hwithin : Within importsOnce
        (GeneratorContext.generateNestedItems ⟨loader, v.nodes⟩
          (GeneratorContext.generateItem ⟨loader, v.nodes⟩ names depth) file) := by
      refine within_generateNestedItems fun named hnamed => ?_
      obtain ⟨hloaded, hid⟩ := SchemaLoader.mem_nestedItems hnamed
      rw [← hid]
      exact (within_generate hsound depth).1 named.item hloaded
    have hone : c.requiredImports.Nodup := hwithin.ok (s := .new) List.nodup_nil hitems
    obtain ⟨nodes, hlaid, hnodes⟩ := laidOut_of_validateFiles (unentered_new _) (nodup_files loader) hfiles
    obtain rfl : v.nodes = nodes := hnodes
    obtain ⟨m, hfiled⟩ := (filed_of_contextOf h).2 file hfile
    obtain ⟨-, hwalks⟩ := walks_of_new h
    obtain ⟨ids, hsub, hwalk⟩ := hwalks file hfile
    have happart := file_apart_iff rfl hchecked hfile hfiled hwalk (hsound.nodup.sublist hsub) hitems
    have hlast : ∀ w ∈ [fileSegment, importsSegment], w.getLast? ≠ some '_' := by decide
    rw [happart, root_apart_iff (hchecked.told.nodup_modules hone himports)]
    have hroot (w : Ident) (hw : w ∈ [fileSegment, importsSegment]) :
        root.ident ≠ w ↔ ¬ loader.FirstToAsk names file w :=
      not_congr (module_eq_iff hsound hlaid hfile hmodule (hlast w hw))
    constructor
    · rintro ⟨⟨hfree, hstructs⟩, hmodules⟩
      exact ⟨fun w hw => (hroot w hw).1 (hmodules w hw), hfree, hstructs⟩
    · rintro ⟨hmodules, hfree, hstructs⟩
      exact ⟨⟨hfree, hstructs⟩, fun w hw => (hroot w hw).2 (hmodules w hw)⟩
  · intro other hother depth' generated' root' c' hgenerate' hident
    obtain ⟨-, -, hmodule', -, -⟩ := generateFile_eq_ok hgenerate'
    rw [hident] at hmodule'
    have hid := hchecked.told.hasModule_unique hmodule' hmodule
    have hget' := (SchemaLoader.mem_files hother).1
    rw [hid, hget] at hget'
    exact (Option.some.inj hget').symm

end File

/-! ## A struct inside another one -/

/-- The letters of `latin`, with names in small or in capital letters. -/
def cased : Spelling :=
  { latin with
    asSnakeCase := List.map Char.toLower
    asShoutySnakeCase := List.map Char.toUpper }

lemma lawful_cased : cased.Lawful (· ∈ latinKeywords) :=
  ⟨lawful_latin.underscore, lawful_latin.isWord_of_neverRaw, lawful_latin.parses_iff, lawful_latin.parses_raw_iff,
    lawful_latin.keyword_of_neverRaw⟩

/-- A small letter becomes a capital one, and the others are not small. -/
lemma isLower_toUpper (c : Char) : c.toUpper.isLower = false := by
  unfold Char.toUpper
  split
  · next hsmall =>
    obtain ⟨hle, hge⟩ := hsmall
    rw [Bool.eq_false_iff]
    intro hlower
    obtain ⟨hle', hge'⟩ := Bool.and_eq_true_iff.1 hlower
    have hle' := of_decide_eq_true hle'
    have hge' := of_decide_eq_true hge'
    simp only [ge_iff_le, UInt32.le_iff_toNat_le, UInt32.toNat_add] at hle hge hle' hge'
    simp at hle hge hle' hge'
    omega
  · next hsmall =>
    rw [Bool.eq_false_iff]
    intro hlower
    obtain ⟨hle, hge⟩ := Bool.and_eq_true_iff.1 hlower
    exact hsmall ⟨of_decide_eq_true hle, of_decide_eq_true hge⟩

lemma shouty_cased : ∀ name, ∀ c ∈ cased.asShoutySnakeCase name, c.isLower = false := by
  intro name c hc
  obtain ⟨d, -, rfl⟩ := List.mem_map.1 hc
  exact isLower_toUpper d

/-- A file with a struct `A`, and another struct in that. -/
def structInside (name : Name) : SchemaLoader where
  nodes := [⟨1, ⟨some ['f']⟩, [⟨⟨some ['A']⟩, 2⟩], .ok .file⟩, plainStruct 2 ['A'] [⟨⟨some name⟩, 3⟩],
    plainStruct 3 name []]
  nodup := by
    simp only [plainStruct, List.map_cons, List.map_nil]
    decide

/-- What is recorded of them, with the identifiers of the inner struct. -/
def structInsideInfo (type module : Ident) : NodeInfoMap :=
  [(1, .file ⟨['f'], ['f', '.', 'r', 's']⟩), (2, .struct ⟨⟨['A'], ⟨⟨1, ['f']⟩, []⟩⟩, ['a']⟩),
    (3, .struct ⟨⟨type, ⟨⟨1, ['f']⟩, [⟨2, ['a']⟩]⟩⟩, module⟩)]

def structInsideFile (type module : Ident) : GeneratedFile :=
  ⟨[.struct ⟨2, ['A'], ['a'], some (0, 0), [], none, [.struct ⟨3, type, module, some (0, 0), [], none, []⟩]⟩], ['f']⟩

def structInsideRoot : GeneratedRootFile := ⟨['f'], [], ['f', '.', 'r', 's']⟩

theorem generated_apart_iff_structInside :
    (structInsideFile ['B'] ['b']).Apart ∧ structInsideRoot.Apart ↔
      (structInside ['B']).FileFree cased ⟨1, ⟨some ['f']⟩, [⟨⟨some ['A']⟩, 2⟩], .ok .file⟩ := by
  have h : contextOf cased (structInside ['B']) = .ok ⟨structInside ['B'], structInsideInfo ['B'] ['b']⟩ _ := rfl
  have hgenerate : GeneratorContext.generateFile ⟨structInside ['B'], structInsideInfo ['B'] ['b']⟩ cased 6 1 .new =
      .ok (structInsideFile ['B'] ['b'], structInsideRoot) _ := rfl
  exact (generated_apart_iff lawful_cased (by decide) (by decide) shouty_cased h List.mem_cons_self hgenerate).1

/-- The struct inside is called `Reader`, like the type of the readers of the other one. -/
theorem not_generated_apart_reader : ¬ ∀ (names : Spelling) (keyword : List Char → Prop), names.Lawful keyword →
    names.IsWord whichName → ¬ keyword whichName →
    (∀ name, ∀ c ∈ names.asShoutySnakeCase name, c.isLower = false) → ∀ loader ctx v,
    contextOf names loader = .ok ctx v → ∀ file ∈ loader.files, ∀ depth generated root c,
    ctx.generateFile names depth file.id .new = .ok (generated, root) c → generated.Apart ∧ root.Apart := by
  intro hall
  have h : contextOf cased (structInside readerName) =
      .ok ⟨structInside readerName, structInsideInfo readerName ['r', 'e', 'a', 'd', 'e', 'r']⟩ _ := rfl
  have hgenerate : GeneratorContext.generateFile
      ⟨structInside readerName, structInsideInfo readerName ['r', 'e', 'a', 'd', 'e', 'r']⟩ cased 6 1 .new =
      .ok (structInsideFile readerName ['r', 'e', 'a', 'd', 'e', 'r'], structInsideRoot) _ := rfl
  have hfile := (hall cased _ lawful_cased (by decide) (by decide) shouty_cased _ _ _ h _ List.mem_cons_self 6 _ _ _
    hgenerate).1
  cases hfile.items _ List.mem_cons_self with
  | struct hdeclares => exact absurd hdeclares (by decide)

end Recapn.Codegen

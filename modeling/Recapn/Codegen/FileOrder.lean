/-
# The order of the files

Files are validated in the order in which a hash map hands them out.  They share the identifiers of their
modules and the infos of their nodes.  What is below a file is validated as if the file were alone, up to
the module that it is in, so the order matters to the modules of the files and to nothing else.
-/
import Recapn.Codegen.Generation
import Recapn.Codegen.SameNodes
import Recapn.Codegen.Taken
import Recapn.Codegen.Words
import Recapn.Lib.Mirror

namespace Recapn.Codegen

open Recapn.Lib Recapn.Lib.Prog

variable {loader : SchemaLoader} {names : Spelling}

/-! ## A file in another module -/

/-- The scope, in another module for its file. -/
def TypeScope.inModule (m : Ident) (scope : TypeScope) : TypeScope := { scope with file := ⟨scope.file.id, m⟩ }

def NodeInfo.inModule (m : Ident) : NodeInfo → NodeInfo
  | .file info => .file { info with modIdent := m }
  | .struct info => .struct { info with typeInfo := { info.typeInfo with scope := info.typeInfo.scope.inModule m } }
  | .enum info => .enum { info with typeInfo := { info.typeInfo with scope := info.typeInfo.scope.inModule m } }
  | .const info => .const { info with scope := info.scope.inModule m }
  | .interface => .interface
  | .annotationDecl => .annotationDecl

def NodeInfoMap.inModule (m : Ident) (nodes : NodeInfoMap) : NodeInfoMap :=
  nodes.map fun entry => (entry.1, entry.2.inModule m)

@[simp] lemma NodeInfoMap.keys_inModule (m : Ident) (nodes : NodeInfoMap) :
    (nodes.inModule m).map Prod.fst = nodes.map Prod.fst := by
  rw [NodeInfoMap.inModule, List.map_map]
  rfl

/-- What validation of a file on its own has, is there behind what was before, in the module `m`. -/
structure Framed (before : Validation) (file : Id) (m : Ident) (v w : Validation) : Prop where
  nodes : w.nodes = before.nodes ++ v.nodes.inModule m
  inside : ∀ scope : TypeScope, scope.file.id = file →
    w.identifiers.takenIn (some scope) = v.identifiers.takenIn (some scope)
  outside : ∀ scope : Option TypeScope, (∀ s ∈ scope, s.file.id ≠ file) →
    w.identifiers.takenIn scope = before.identifiers.takenIn scope

/-- None of the nodes was there before. -/
def Apart (before v : Validation) : Prop := ∀ id ∈ v.ids, id ∉ before.ids

section Framed

variable {before v w v' w' : Validation} {file : Id} {m : Ident} {α β : Type}

lemma Framed.ids (h : Framed before file m v w) : w.ids = before.ids ++ v.ids := by
  rw [Validation.ids, h.nodes, List.map_append, NodeInfoMap.keys_inModule]
  rfl

lemma Framed.taken (h : Framed before file m v w) {scope : TypeScope} (hscope : scope.file.id = file) (ident : Ident) :
    Framed before file m { v with identifiers := (some scope.ids, ident) :: v.identifiers }
      { w with identifiers := (some scope.ids, ident) :: w.identifiers } where
  nodes := h.nodes
  inside other hother := by
    have hv := takenIn_cons v.identifiers (some scope) (some other) ident
    have hw := takenIn_cons w.identifiers (some scope) (some other) ident
    rw [h.inside other hother] at hw
    exact hw.trans hv.symm
  outside other hother := by
    have hw := takenIn_cons w.identifiers (some scope) other ident
    have hne : (some scope).map TypeScope.ids ≠ other.map TypeScope.ids := by
      intro heq
      obtain ⟨s, rfl, hs⟩ := Option.map_eq_some_iff.1 heq.symm
      exact hother s rfl ((congrArg Prod.fst hs).trans hscope)
    rw [if_neg hne, h.outside other hother] at hw
    exact hw

lemma Framed.insert (h : Framed before file m v w) (id : Id) (info : NodeInfo) :
    Framed before file m { v with nodes := v.nodes ++ [(id, info)] }
      { w with nodes := w.nodes ++ [(id, info.inModule m)] } where
  nodes := by
    rw [h.nodes, NodeInfoMap.inModule, NodeInfoMap.inModule, List.map_append, List.append_assoc]
    rfl
  inside := h.inside
  outside := h.outside

lemma mirrors_liftError (r : Except Error α) :
    Mirrors (Framed before file m) (Apart before) (liftError r) (liftError r) := by
  cases r with
  | ok a => exact mirrors_pure a
  | error e => exact mirrors_throw _ _

lemma mirrors_nameOf (context : NameContext) (text : Text) :
    Mirrors (Framed before file m) (Apart before) (nameOf context text) (nameOf context text) := by
  unfold nameOf
  cases text.asStr with
  | some name => exact mirrors_pure name
  | none => exact mirrors_throw _ _

lemma mirrors_makeUntaken (taken : List Ident) (name : Name) :
    Mirrors (Framed before file m) (Apart before) (makeUntaken names taken name) (makeUntaken names taken name) where
  back h hp := (untaken_eq_ok (τ := Unit) h).1 ▸ hp
  up {s t _ _} hr h _ := by
    obtain ⟨rfl, hsame⟩ := untaken_eq_ok h
    exact ⟨t, hsame t, hr⟩
  down {s t _ _} hr h := by
    obtain ⟨rfl, hsame⟩ := untaken_eq_ok h
    exact ⟨s, hsame s, hr⟩

lemma mirrors_makeUnique (idents : IdentifierSet) (name : Name) :
    Mirrors (Framed before file m) (Apart before) (idents.makeUnique names name) (idents.makeUnique names name) :=
  mirrors_bind (mirrors_makeUntaken idents name) fun _ => mirrors_pure _

lemma mirrors_validateEnumerants (schema : EnumSchema) : Mirrors (Framed before file m) (Apart before)
    (validateEnumerants names schema) (validateEnumerants names schema) := by
  refine mirrors_bind (mirrors_fold ?_ _) fun _ => mirrors_pure _
  rintro ⟨enumerant, idx⟩ - ⟨enumerants, idents⟩
  refine mirrors_bind (mirrors_nameOf _ _) fun name => ?_
  exact mirrors_bind (mirrors_makeUnique _ _) fun _ => mirrors_pure _

/-- An identifier in a scope of the file is the one that the file on its own takes. -/
lemma mirrors_makeUniqueIn {scope : TypeScope} (hscope : scope.file.id = file) (name : Name) :
    Mirrors (Framed before file m) (Apart before) (makeUniqueIn names (some scope) name)
      (makeUniqueIn names (some (scope.inModule m)) name) where
  back h hp := by
    obtain ⟨-, rfl⟩ := makeUniqueIn_eq_ok.1 h
    exact hp
  up {v w ident v'} hr h _ := by
    obtain ⟨hident, rfl⟩ := makeUniqueIn_eq_ok.1 h
    refine ⟨_, makeUniqueIn_eq_ok.2 ⟨?_, rfl⟩, hr.taken hscope ident⟩
    rw [hr.inside (scope.inModule m) hscope]
    exact hident
  down {v w ident w'} hr h := by
    obtain ⟨hident, rfl⟩ := makeUniqueIn_eq_ok.1 h
    refine ⟨_, makeUniqueIn_eq_ok.2 ⟨?_, rfl⟩, hr.taken hscope ident⟩
    rw [hr.inside (scope.inModule m) hscope] at hident
    exact hident

lemma mirrors_insertInfo (id : Id) (info : NodeInfo) :
    Mirrors (Framed before file m) (Apart before) (insertInfo id info) (insertInfo id (info.inModule m)) where
  back h hp := by
    cases h
    exact fun id' hid' => hp id' (by
      rw [Validation.ids, List.map_append]
      exact List.mem_append_left _ hid')
  up {v w _ v'} hr h _ := by
    cases h
    exact ⟨_, rfl, hr.insert id info⟩
  down {v w _ w'} hr h := by
    cases h
    exact ⟨_, rfl, hr.insert id info⟩

/-- What is recorded in the end was not there before, so the entry is vacant there too. -/
lemma mirrors_vacantEntry {id : Id} {x y : Prog Stop Validation Unit}
    (hxy : Mirrors (Framed before file m) (Apart before) x y)
    (hin : ∀ v v', (vacantEntry id >>= fun _ => x) v = .ok () v' → id ∈ v'.ids) :
    Mirrors (Framed before file m) (Apart before) (vacantEntry id >>= fun _ => x) (vacantEntry id >>= fun _ => y) where
  back h hp := by
    obtain ⟨_, v₁, hvacant, hx⟩ := bind_eq_ok.1 h
    obtain ⟨rfl, -⟩ := vacantEntry_eq_ok hvacant
    exact hxy.back hx hp
  up {v w _ v'} hr h hp := by
    have hid := hin v v' h
    obtain ⟨_, v₁, hvacant, hx⟩ := bind_eq_ok.1 h
    obtain ⟨rfl, hnot⟩ := vacantEntry_eq_ok hvacant
    obtain ⟨w', hy, hr'⟩ := hxy.up hr hx hp
    refine ⟨w', bind_eq_ok.2 ⟨(), w, vacantEntry_of_not_mem ?_, hy⟩, hr'⟩
    rw [hr.ids, List.mem_append]
    exact not_or.2 ⟨hp id hid, hnot⟩
  down {v w _ w'} hr h := by
    obtain ⟨_, w₁, hvacant, hy⟩ := bind_eq_ok.1 h
    obtain ⟨rfl, hnot⟩ := vacantEntry_eq_ok hvacant
    obtain ⟨v', hx, hr'⟩ := hxy.down hr hy
    refine ⟨v', bind_eq_ok.2 ⟨(), v, vacantEntry_of_not_mem fun hmem => hnot ?_, hx⟩, hr'⟩
    have hids : w₁.nodes.map Prod.fst = before.ids ++ v.ids := hr.ids
    rw [hids]
    exact List.mem_append_right _ hmem

/-! ### Item by item -/

/-- A loader without nodes. -/
def SchemaLoader.empty : SchemaLoader := ⟨[], List.nodup_nil⟩

/-- An item that was validated is recorded. -/
lemma Recorded.mem {item : NestedItem} (h : Recorded loader [item] v v') : item.node.id ∈ v'.ids := by
  obtain ⟨ids, hids, hwalk⟩ := h
  obtain ⟨inner, rest, rfl, -, -⟩ := hwalk.of_cons
  rw [hids]
  exact List.mem_append_right _ List.mem_cons_self

variable {scope : TypeScope}

lemma mirrors_validateEnum (hscope : scope.file.id = file) (schema : EnumSchema) (name : Name) :
    Mirrors (Framed before file m) (Apart before) (validateEnum names schema name scope)
      (validateEnum names schema name (scope.inModule m)) := by
  refine mirrors_vacantEntry ?_ fun v v' h =>
    (recorded_validateEnum h : Recorded .empty [.enum schema] v v').mem
  refine mirrors_bind (mirrors_makeUniqueIn hscope _) fun typeIdent => ?_
  refine mirrors_bind (mirrors_validateEnumerants schema) fun enumerants => ?_
  exact mirrors_insertInfo _ (.enum ⟨⟨typeIdent, scope⟩, enumerants⟩)

lemma mirrors_validateConst (hscope : scope.file.id = file) (schema : ConstSchema) (name : Name) :
    Mirrors (Framed before file m) (Apart before) (validateConst names schema name scope)
      (validateConst names schema name (scope.inModule m)) := by
  refine mirrors_vacantEntry ?_ fun v v' h =>
    (recorded_validateConst h : Recorded .empty [.const schema] v v').mem
  refine mirrors_bind (mirrors_makeUniqueIn hscope _) fun ident => ?_
  exact mirrors_insertInfo _ (.const ⟨ident, scope⟩)

lemma mirrors_validateInterface (node : Node) :
    Mirrors (Framed before file m) (Apart before) (validateInterface node) (validateInterface node) :=
  mirrors_vacantEntry (mirrors_insertInfo _ .interface)
    fun v v' h => (recorded_validateInterface h : Recorded .empty [.interface node] v v').mem

lemma mirrors_validateAnnotation (node : Node) :
    Mirrors (Framed before file m) (Apart before) ( validateAnnotation node) <| validateAnnotation node :=
  mirrors_vacantEntry (mirrors_insertInfo _ .annotationDecl)
    fun v v' h => ( recorded_validateAnnotation h : Recorded .empty [.annotationDecl node] v v').mem

lemma mirrors_takeWhich (hscope : scope.file.id = file) (schema : StructSchema) :
    Mirrors (Framed before file m) (Apart before) (takeWhich names schema scope)
      (takeWhich names schema (scope.inModule m)) := by
  unfold takeWhich
  split
  · exact mirrors_bind (mirrors_makeUniqueIn hscope _) fun _ => mirrors_pure _
  · exact mirrors_pure ()

lemma mirrors_validateNestedItems {x y : NamedNestedItem → Prog Stop Validation Unit} {node : Node}
    (hxy : ∀ named, Mirrors (Framed before file m) (Apart before) (x named) (y named)) :
    Mirrors (Framed before file m) (Apart before) (validateNestedItems loader x node)
      (validateNestedItems loader y node) :=
  mirrors_fold (fun _ _ _ => mirrors_bind (mirrors_liftError _) hxy) ()

lemma mirrors_validateGroups {x y : StructSchema → Name → Prog Stop Validation Unit} {schema : StructSchema}
    (hxy : ∀ group name, Mirrors (Framed before file m) (Apart before) (x group name) (y group name)) :
    Mirrors (Framed before file m) (Apart before) (validateGroups loader x schema)
      (validateGroups loader y schema) := by
  refine mirrors_fold ?_ ()
  rintro ⟨field, idx⟩ - -
  refine mirrors_bind (mirrors_liftError _) fun fieldType => ?_
  cases fieldType with
  | slot offset ty defaultValue => exact mirrors_pure ()
  | group group => exact mirrors_bind (mirrors_nameOf _ _) fun name => hxy group name

/-- The induction is on the depth, for items and structs at once. -/
lemma mirrors_validate (depth : ℕ) : ∀ scope : TypeScope, scope.file.id = file →
    (∀ named, Mirrors (Framed before file m) (Apart before) (validateItem names loader depth named scope)
      (validateItem names loader depth named (scope.inModule m))) ∧
    ∀ schema name, Mirrors (Framed before file m) (Apart before) (validateStruct names loader depth schema name scope)
      (validateStruct names loader depth schema name (scope.inModule m)) := by
  induction depth with
  | zero => exact fun scope _ => ⟨fun _ => mirrors_halt _ _, fun _ _ => mirrors_halt _ _⟩
  | succ depth ih =>
    intro scope hscope
    refine ⟨fun named => ?_, fun schema name => ?_⟩
    · refine mirrors_bind (mirrors_nameOf _ _) fun name => ?_
      obtain ⟨text, id, item⟩ := named
      cases item with
      | struct schema => exact (ih scope hscope).2 schema name
      | enum schema => exact mirrors_validateEnum hscope schema name
      | interface node => exact mirrors_validateInterface node
      | const schema => exact mirrors_validateConst hscope schema name
      | annotationDecl node => exact mirrors_validateAnnotation node
    · refine mirrors_vacantEntry ?_ fun v v' h => Recorded.mem (recorded_validateStruct
        (show validateStruct names loader (depth + 1) schema name scope v = .ok () v' from h))
      refine mirrors_bind (mirrors_makeUniqueIn hscope _) fun typeIdent => ?_
      refine mirrors_bind (mirrors_makeUniqueIn hscope _) fun modIdent => ?_
      refine mirrors_bind (mirrors_insertInfo _ (.struct ⟨⟨typeIdent, scope⟩, modIdent⟩)) fun _ => ?_
      have hinner : (scope.push ⟨schema.node.id, modIdent⟩).file.id = file := hscope
      obtain ⟨hitem, hstruct⟩ := ih _ hinner
      refine mirrors_bind (mirrors_takeWhich hinner schema) fun _ => ?_
      refine mirrors_bind (mirrors_validateNestedItems hitem) fun _ => ?_
      exact mirrors_validateGroups hstruct

end Framed

/-! ## File by file -/

section Files

variable {v w w' : Validation} {depth : ℕ} {file : Node} {files : List Node} {m i : Ident} {taken : List Ident}
  {path : Name} {nodes : NodeInfoMap}

lemma mirrors_validateBelow {before : Validation} (i : Ident) :
    Mirrors (Framed before file.id m) (Apart before) (validateBelow names loader depth file i)
      (validateBelow names loader depth file m) := by
  refine mirrors_fold (fun nested _ _ => ?_) ()
  have hitem (nested : Except Error NamedNestedItem) :
      Mirrors (Framed before file.id m) (Apart before)
        (liftError nested >>= fun nested => validateItem names loader depth nested (.ofFile ⟨file.id, i⟩))
        (liftError nested >>= fun nested => validateItem names loader depth nested (.ofFile ⟨file.id, m⟩)) :=
    mirrors_bind (mirrors_liftError _) fun named => (mirrors_validate depth (.ofFile ⟨file.id, i⟩) rfl).1 named
  rcases nested with e | named
  · rcases e with e | e
    · cases e
      case missingNode => exact mirrors_pure ()
      all_goals exact hitem _
    · exact hitem _
  · exact hitem _

/-- Nothing is taken in the scopes of these files. -/
def Unentered (w : Validation) (files : List Node) : Prop :=
  ∀ file ∈ files, ∀ scope : TypeScope, scope.file.id = file.id → w.identifiers.takenIn (some scope) = []

/-- What is there besides the file. -/
def Validation.besides (w : Validation) (m : Ident) : Validation := ⟨w.nodes, (none, m) :: w.identifiers⟩

lemma framed_below (hunentered : Unentered w [file]) :
    Framed (w.besides m) file.id m (Validation.new.below file i path) (w.below file m path) where
  nodes := rfl
  inside scope hscope := by
    have hw := takenIn_cons w.identifiers none (some scope) m
    have hv := takenIn_cons [] none (some scope) i
    rw [if_neg (by simp)] at hw hv
    rw [hunentered file List.mem_cons_self scope hscope] at hw
    exact hw.trans hv.symm
  outside _ _ := rfl

/-- A file that is validated among others is validated on its own. -/
lemma validateFile_alone (hunentered : Unentered w [file]) (h : validateFile names loader depth file w = .ok () w') :
    ∃ path m v, file.displayName.asStr = some path ∧
      makeUntaken names (w.identifiers.takenIn none) path () = .ok m () ∧
      validateFile names loader depth file .new = .ok () v ∧ Framed (w.besides m) file.id m v w' := by
  obtain ⟨-, path, m, hpath, hm, hbelow⟩ := validateFile_eq_ok.1 h
  obtain ⟨i, hi, -⟩ := makeUntaken_first hm
  have hnew : makeUntaken names [] path () = .ok i () := makeUntaken_of_not_mem hi List.not_mem_nil
  obtain ⟨v, hv, hframed⟩ := (mirrors_validateBelow i).down (framed_below hunentered) hbelow
  refine ⟨path, m, v, hpath, hm, ?_, hframed⟩
  exact validateFile_eq_ok.2 ⟨List.not_mem_nil, path, i, hpath, hnew, hv⟩

/-- A file that is validated on its own is validated among others, if none of its nodes is theirs. -/
lemma validateFile_among (hunentered : Unentered w [file]) (h : validateFile names loader depth file .new = .ok () v)
    (hpath : file.displayName.asStr = some path)
    (hm : makeUntaken names (w.identifiers.takenIn none) path () = .ok m ()) (hapart : Apart w v) :
    ∃ w', validateFile names loader depth file w = .ok () w' ∧ Framed (w.besides m) file.id m v w' := by
  obtain ⟨-, path', i, hpath', -, hbelow⟩ := validateFile_eq_ok.1 h
  obtain rfl : path' = path := Option.mem_unique hpath' hpath
  obtain ⟨w', hw', hframed⟩ := (mirrors_validateBelow i).up (framed_below (m := m) hunentered) hbelow hapart
  obtain ⟨ids, hids, -⟩ := ids_validateFile h
  have hmem : file.id ∈ v.ids := by
    rw [hids]
    exact List.mem_append_right _ List.mem_cons_self
  exact ⟨w', validateFile_eq_ok.2 ⟨hapart _ hmem, path', m, hpath, hm, hw'⟩, hframed⟩

lemma Unentered.head (h : Unentered w (file :: files)) : Unentered w [file] := by
  intro other hother
  rw [List.mem_singleton.1 hother]
  exact h file List.mem_cons_self

lemma Unentered.tail (hunentered : Unentered w (file :: files)) (hnot : file.id ∉ files.map Node.id)
    (hframed : Framed (w.besides m) file.id m v w') : Unentered w' files := by
  intro other hother scope hscope
  have hne : scope.file.id ≠ file.id := by
    rw [hscope]
    exact fun heq => hnot (heq ▸ List.mem_map_of_mem hother)
  rw [hframed.outside (some scope) fun s hs => (Option.some.inj hs) ▸ hne]
  have htaken := takenIn_cons w.identifiers none (some scope) m
  rw [if_neg (by simp)] at htaken
  exact htaken.trans (hunentered other (List.mem_cons_of_mem _ hother) scope hscope)

lemma Framed.taken_none (hframed : Framed (w.besides m) file.id m v w') :
    w'.identifiers.takenIn none = m :: w.identifiers.takenIn none := by
  rw [hframed.outside none nofun]
  have htaken := takenIn_cons w.identifiers none none m
  rw [if_pos rfl] at htaken
  exact htaken

/-- What is recorded of files one after the other: what each has on its own, in the module that it gets. -/
inductive LaidOut (names : Spelling) (loader : SchemaLoader) (depth : ℕ) :
    List Ident → List Node → NodeInfoMap → Prop
  | nil {taken : List Ident} : LaidOut names loader depth taken [] []
  | cons {taken : List Ident} {file : Node} {files : List Node} {path : Name} {m : Ident} {v : Validation}
      {nodes : NodeInfoMap} (hpath : file.displayName.asStr = some path)
      (hm : makeUntaken names taken path () = .ok m ())
      (halone : validateFile names loader depth file .new = .ok () v)
      (hrest : LaidOut names loader depth (m :: taken) files nodes) :
      LaidOut names loader depth taken (file :: files) (v.nodes.inModule m ++ nodes)

/-- The loop over the files. -/
def validateFiles (names : Spelling) (loader : SchemaLoader) (depth : ℕ) (files : List Node) :
    Prog Stop Validation Unit :=
  fold (fun _ file => validateFile names loader depth file) () files

lemma laidOut_of_validateFiles (hunentered : Unentered w files) (hnodup : (files.map Node.id).Nodup)
    (h : validateFiles names loader depth files w = .ok () w') :
    ∃ nodes, LaidOut names loader depth (w.identifiers.takenIn none) files nodes ∧ w'.nodes = w.nodes ++ nodes := by
  induction files generalizing w with
  | nil =>
    obtain ⟨-, rfl⟩ := pure_eq_ok.1 h
    exact ⟨[], .nil, (List.append_nil _).symm⟩
  | cons file files ih =>
    obtain ⟨_, w₁, hfile, hrest⟩ := bind_eq_ok.1 h
    obtain ⟨hnot, hnodup⟩ := List.nodup_cons.1 hnodup
    have hone : Unentered w [file] := hunentered.head
    obtain ⟨path, m, v, hpath, hm, halone, hframed⟩ := validateFile_alone hone hfile
    obtain ⟨nodes, hlaid, hnodes⟩ := ih (hunentered.tail hnot hframed) hnodup hrest
    rw [hframed.taken_none] at hlaid
    refine ⟨_, .cons hpath hm halone hlaid, ?_⟩
    rw [hnodes, hframed.nodes, List.append_assoc]
    rfl

lemma LaidOut.validateFiles (hlaid : LaidOut names loader depth taken files nodes) (hunentered : Unentered w files)
    (hnodup : (files.map Node.id).Nodup) (htaken : w.identifiers.takenIn none = taken)
    (honce : (w.ids ++ nodes.map Prod.fst).Nodup) :
    ∃ w', validateFiles names loader depth files w = .ok () w' ∧ w'.nodes = w.nodes ++ nodes := by
  induction hlaid generalizing w with
  | nil => exact ⟨w, rfl, (List.append_nil _).symm⟩
  | @cons taken file files path m v nodes hpath hm halone hrest ih =>
    subst htaken
    obtain ⟨hnot, hnodup⟩ := List.nodup_cons.1 hnodup
    have hone : Unentered w [file] := hunentered.head
    rw [List.map_append, NodeInfoMap.keys_inModule] at honce
    have hapart : Apart w v := fun id hid hmem =>
      (List.nodup_append.1 honce).2.2 id hmem id (List.mem_append_left _ hid) rfl
    obtain ⟨w₁, hfile, hframed⟩ := validateFile_among hone halone hpath hm hapart
    have honce₁ : (w₁.ids ++ nodes.map Prod.fst).Nodup := by
      rw [hframed.ids, List.append_assoc]
      exact honce
    obtain ⟨w₂, hfiles, hnodes⟩ := ih (hunentered.tail hnot hframed) hnodup hframed.taken_none honce₁
    refine ⟨w₂, bind_eq_ok.2 ⟨(), w₁, hfile, hfiles⟩, ?_⟩
    rw [hnodes, hframed.nodes, List.append_assoc]
    rfl

/-- The infos of a file on its own. -/
def aloneNodes (names : Spelling) (loader : SchemaLoader) (depth : ℕ) (file : Node) : NodeInfoMap :=
  match validateFile names loader depth file .new with
  | .ok _ v => v.nodes
  | _ => []

/-- The identifier that is tried first for the module of a file. -/
def fileIdent (names : Spelling) (file : Node) : Option Ident :=
  match file.displayName.asStr with
  | none => none
  | some path =>
    match makeIdent names path () with
    | .ok ident _ => some ident
    | _ => none

lemma aloneNodes_of_eq_ok (h : validateFile names loader depth file .new = .ok () v) :
    aloneNodes names loader depth file = v.nodes := by
  rw [aloneNodes, h]

lemma fileIdent_of_makeIdent (hpath : file.displayName.asStr = some path) (h : makeIdent names path () = .ok i ()) :
    fileIdent names file = some i := by
  simp only [fileIdent, hpath, h]

lemma LaidOut.keys (h : LaidOut names loader depth taken files nodes) :
    nodes.map Prod.fst = files.flatMap fun file => (aloneNodes names loader depth file).map Prod.fst := by
  induction h with
  | nil => rfl
  | cons _ _ halone _ ih =>
    rw [List.map_append, NodeInfoMap.keys_inModule, List.flatMap_cons, ih, aloneNodes_of_eq_ok halone]

lemma LaidOut.alone (h : LaidOut names loader depth taken files nodes) :
    ∀ file ∈ files, ∃ v, validateFile names loader depth file .new = .ok () v := by
  induction h with
  | nil => exact nofun
  | cons _ _ halone _ ih =>
    intro file hfile
    rcases List.mem_cons.1 hfile with rfl | hfile
    · exact ⟨_, halone⟩
    · exact ih file hfile

/-- Files that are validated each on its own all get modules, whatever is taken. -/
lemma laidOut_of_alone {keyword : List Char → Prop} (hl : names.Lawful keyword)
    (h : ∀ file ∈ files, ∃ v, validateFile names loader depth file .new = .ok () v) (taken : List Ident) :
    ∃ nodes, LaidOut names loader depth taken files nodes := by
  induction files generalizing taken with
  | nil => exact ⟨[], .nil⟩
  | cons file files ih =>
    obtain ⟨v, halone⟩ := h file List.mem_cons_self
    obtain ⟨-, path, i, hpath, hi, -⟩ := validateFile_eq_ok.1 halone
    obtain ⟨i, hi, -⟩ := makeUntaken_first hi
    have hname : path ≠ [] := by
      rintro rfl
      cases hi
    have hspellable : ¬ names.Unspellable path := by
      intro hs
      rw [makeIdent_of_unspellable hl hname hs] at hi
      cases hi
    obtain ⟨m, hm, -, -⟩ := makeUntaken_of_spellable hl taken hname hspellable ()
    obtain ⟨nodes, hrest⟩ := ih (fun other hother => h other (List.mem_cons_of_mem _ hother)) (m :: taken)
    exact ⟨_, .cons hpath hm halone hrest⟩

/-- No two of the files are tried the same identifier for. -/
def Distinct (names : Spelling) (files : List Node) : Prop :=
  ∀ file ∈ files, ∀ other ∈ files, ∀ i, fileIdent names file = some i → fileIdent names other = some i → file = other

/-- Then every file gets the module that it gets on its own. -/
lemma LaidOut.eq_of_distinct (h : LaidOut names loader depth taken files nodes) (hnodup : files.Nodup)
    (hdistinct : Distinct names files) (hout : ∀ file ∈ files, ∀ i, fileIdent names file = some i → i ∉ taken) :
    nodes = files.flatMap fun file =>
      (aloneNodes names loader depth file).inModule ((fileIdent names file).getD []) := by
  induction h with
  | nil => rfl
  | @cons taken file files path m v nodes hpath hm halone hrest ih =>
    obtain ⟨hnot, hnodup⟩ := List.nodup_cons.1 hnodup
    obtain ⟨i, hi, hfirst⟩ := makeUntaken_first hm
    have hfile := fileIdent_of_makeIdent hpath hi
    obtain rfl := hfirst (hout file List.mem_cons_self i hfile)
    rw [List.flatMap_cons, aloneNodes_of_eq_ok halone, hfile]
    refine congrArg _ (ih hnodup (fun f hf g hg => ?_) fun other hother j hj hmem => ?_)
    · exact hdistinct f (List.mem_cons_of_mem _ hf) g (List.mem_cons_of_mem _ hg)
    · rcases List.mem_cons.1 hmem with rfl | hmem
      · obtain rfl := hdistinct file List.mem_cons_self other (List.mem_cons_of_mem _ hother) j hfile hj
        exact hnot hother
      · exact hout other (List.mem_cons_of_mem _ hother) j hj hmem

end Files

/-! ## Any order -/

/-- `GeneratorContext::new`, with a depth that suffices. -/
def contextOf (names : Spelling) (loader : SchemaLoader) : Outcome Stop Validation GeneratorContext :=
  GeneratorContext.new names loader (2 * loader.nodes.length + 2) .new

/-- Both stop, or they find the same infos of every node and generate the same files. -/
def SameOutput (names : Spelling) (l₁ l₂ : SchemaLoader) : Prop :=
  (∃ s₁ v₁ s₂ v₂, contextOf names l₁ = .error s₁ v₁ ∧ contextOf names l₂ = .error s₂ v₂) ∨
    ∃ ctx₁ v₁ ctx₂ v₂, contextOf names l₁ = .ok ctx₁ v₁ ∧ contextOf names l₂ = .ok ctx₂ v₂ ∧
      (∀ id, ctx₁.info.lookup id = ctx₂.info.lookup id) ∧
      ∀ depth id, ctx₁.generateFile names depth id = ctx₂.generateFile names depth id

/-- Every file is validated on its own, and no node is below two files. -/
structure Validates (names : Spelling) (loader : SchemaLoader) : Prop where
  alone : ∀ file ∈ loader.files, ∃ v,
    validateFile names loader (2 * loader.nodes.length + 2) file .new = .ok () v
  once : (loader.files.flatMap fun file =>
    (aloneNodes names loader (2 * loader.nodes.length + 2) file).map Prod.fst).Nodup

section Order

variable {l₁ l₂ : SchemaLoader} {v : Validation} {ctx : GeneratorContext} {nodes : NodeInfoMap}

lemma contextOf_eq_ok : contextOf names loader = .ok ctx v ↔
    validateFiles names loader (2 * loader.nodes.length + 2) loader.files .new = .ok () v ∧
      ctx = ⟨loader, v.nodes⟩ := by
  constructor
  · intro h
    obtain ⟨_, v₁, hfiles, hrest⟩ := bind_eq_ok.1 h
    have hrest := of_bind rfl hrest
    obtain ⟨rfl, rfl⟩ := pure_eq_ok.1 hrest
    exact ⟨hfiles, rfl⟩
  · rintro ⟨hfiles, rfl⟩
    exact bind_eq_ok.2 ⟨(), v, hfiles, rfl⟩

/-- Validation succeeds with sound infos, or stops with an error or a panic. -/
lemma contextOf_cases (names : Spelling) (loader : SchemaLoader) :
    (∃ v, contextOf names loader = .ok ⟨loader, v.nodes⟩ v ∧ v.nodes.Sound loader) ∨
      ∃ stop v, contextOf names loader = .error stop v := by
  obtain ⟨o, hrun, ho⟩ := endsBy_new names loader
  have heq : contextOf names loader = o := hrun _ le_rfl
  rcases o with ⟨ctx, v⟩ | ⟨stop, v⟩ | r
  · obtain ⟨-, rfl⟩ := contextOf_eq_ok.1 heq
    exact .inl ⟨v, heq, ho.1⟩
  · exact .inr ⟨stop, v, heq⟩
  · exact ho.elim

lemma files_eq_filter (loader : SchemaLoader) : loader.files = loader.nodes.filter Node.isFile := by
  rw [← List.filterMap_eq_filter]
  rfl

lemma nodup_files (loader : SchemaLoader) : (loader.files.map Node.id).Nodup := by
  rw [files_eq_filter]
  exact loader.nodup.sublist (List.filter_sublist.map _)

lemma unentered_new (files : List Node) : Unentered .new files := fun _ _ _ _ => rfl

/-- Whether validation succeeds does not depend on the order of the files. -/
lemma contextOf_iff {keyword : List Char → Prop} (hl : names.Lawful keyword) :
    (∃ v, contextOf names loader = .ok ⟨loader, v.nodes⟩ v) ↔ Validates names loader := by
  constructor
  · rintro ⟨v, h⟩
    obtain ⟨hfiles, -⟩ := contextOf_eq_ok.1 h
    obtain ⟨nodes, hlaid, hnodes⟩ := laidOut_of_validateFiles (unentered_new _) (nodup_files loader) hfiles
    refine ⟨hlaid.alone, ?_⟩
    rcases contextOf_cases names loader with ⟨v', hv', hsound⟩ | ⟨stop, v', herror⟩
    · obtain ⟨-, rfl⟩ := Outcome.ok.inj (h.symm.trans hv')
      rw [← hlaid.keys]
      have hnodup := hsound.nodup
      rw [hnodes] at hnodup
      exact hnodup
    · rw [h] at herror
      cases herror
  · intro h
    obtain ⟨nodes, hlaid⟩ := laidOut_of_alone hl h.alone []
    have honce := h.once
    rw [← hlaid.keys] at honce
    obtain ⟨v, hv, -⟩ := hlaid.validateFiles (unentered_new _) (nodup_files loader) rfl honce
    exact ⟨v, contextOf_eq_ok.2 ⟨hv, rfl⟩⟩

lemma get_eq_some_iff {id : Id} {node : Node} : loader.get id = some node ↔ node ∈ loader.nodes ∧ node.id = id := by
  constructor
  · exact fun h => ⟨List.mem_of_find?_eq_some h, SchemaLoader.id_of_get h⟩
  · rintro ⟨hmem, rfl⟩
    exact SchemaLoader.get_of_mem hmem

lemma get_of_perm (h : l₁.nodes.Perm l₂.nodes) : l₁.get = l₂.get := by
  funext id
  refine Option.ext fun node => ?_
  rw [get_eq_some_iff, get_eq_some_iff, h.mem_iff]

lemma files_of_perm (h : l₁.nodes.Perm l₂.nodes) : l₁.files.Perm l₂.files := h.filterMap _

lemma Validates.of_perm (hv : Validates names l₁) (h : l₁.nodes.Perm l₂.nodes) : Validates names l₂ := by
  have hfile (file : Node) : validateFile names l₁ (2 * l₁.nodes.length + 2) file =
      validateFile names l₂ (2 * l₁.nodes.length + 2) file := validateFile_congr (get_of_perm h) _ file
  obtain ⟨halone, honce⟩ := hv
  have hnodes : aloneNodes names l₁ (2 * l₁.nodes.length + 2) = aloneNodes names l₂ (2 * l₁.nodes.length + 2) := by
    funext file
    simp only [aloneNodes, hfile]
  rw [hnodes] at honce
  rw [h.length_eq] at hfile halone honce
  refine ⟨fun file hmem => ?_, ?_⟩
  · obtain ⟨v, hrun⟩ := halone file ((files_of_perm h).mem_iff.2 hmem)
    exact ⟨v, hfile file ▸ hrun⟩
  · exact ((files_of_perm h).flatMap_right _).nodup_iff.1 honce

lemma lookup_eq_some_iff {nodes : NodeInfoMap} (hnodup : (nodes.map Prod.fst).Nodup) {id : Id} {info : NodeInfo} :
    nodes.lookup id = some info ↔ (id, info) ∈ nodes := by
  refine ⟨NodeInfoMap.mem_of_lookup, fun hmem => ?_⟩
  cases hfound : nodes.lookup id with
  | none =>
    have hnone := List.find?_eq_none.1 (Option.map_eq_none_iff.1 hfound) _ hmem
    simp at hnone
  | some other =>
    have heq := List.inj_on_of_nodup_map hnodup (NodeInfoMap.mem_of_lookup hfound) hmem rfl
    rw [(Prod.mk.inj heq).2]

lemma lookup_of_perm {nodes₁ nodes₂ : NodeInfoMap} (h : nodes₁.Perm nodes₂)
    (hnodup : (nodes₁.map Prod.fst).Nodup) : nodes₁.lookup = nodes₂.lookup := by
  have hnodup₂ : (nodes₂.map Prod.fst).Nodup := (h.map Prod.fst).nodup_iff.1 hnodup
  funext id
  refine Option.ext fun info => ?_
  rw [lookup_eq_some_iff hnodup, lookup_eq_some_iff hnodup₂, h.mem_iff]

/-- What a context has when the files are told apart at once. -/
lemma nodes_of_distinct {keyword : List Char → Prop} (hl : names.Lawful keyword) (hv : Validates names loader)
    (hdistinct : Distinct names loader.files) : ∃ v, contextOf names loader = .ok ⟨loader, v.nodes⟩ v ∧
      (v.nodes.map Prod.fst).Nodup ∧ v.nodes = loader.files.flatMap fun file =>
        (aloneNodes names loader (2 * loader.nodes.length + 2) file).inModule ((fileIdent names file).getD []) := by
  obtain ⟨nodes, hlaid⟩ := laidOut_of_alone hl hv.alone []
  have honce := hv.once
  rw [← hlaid.keys] at honce
  obtain ⟨v, hrun, hnodes⟩ := hlaid.validateFiles (unentered_new _) (nodup_files loader) rfl honce
  obtain rfl : v.nodes = nodes := hnodes
  have hnodup : loader.files.Nodup := List.Nodup.of_map _ (nodup_files loader)
  exact ⟨v, contextOf_eq_ok.2 ⟨hrun, rfl⟩, honce,
    hlaid.eq_of_distinct hnodup hdistinct fun _ _ _ _ => List.not_mem_nil⟩

lemma Distinct.of_perm {files₁ files₂ : List Node} (hd : Distinct names files₁) (h : files₁.Perm files₂) :
    Distinct names files₂ :=
  fun file hfile other hother => hd file (h.mem_iff.2 hfile) other (h.mem_iff.2 hother)

lemma sameOutput_of_distinct {keyword : List Char → Prop} (hl : names.Lawful keyword) (h : l₁.nodes.Perm l₂.nodes)
    (hv : Validates names l₁) (hdistinct : Distinct names l₁.files) : SameOutput names l₁ l₂ := by
  obtain ⟨v₁, hrun₁, hnodup₁, hnodes₁⟩ := nodes_of_distinct hl hv hdistinct
  obtain ⟨v₂, hrun₂, -, hnodes₂⟩ := nodes_of_distinct hl (hv.of_perm h) (hdistinct.of_perm (files_of_perm h))
  have halone : aloneNodes names l₁ (2 * l₁.nodes.length + 2) = aloneNodes names l₂ (2 * l₂.nodes.length + 2) := by
    funext file
    simp only [aloneNodes, validateFile_congr (get_of_perm h), h.length_eq]
  have hperm : v₁.nodes.Perm v₂.nodes := by
    rw [hnodes₁, hnodes₂, halone]
    exact (files_of_perm h).flatMap_right _
  have hlookup := lookup_of_perm hperm hnodup₁
  refine .inr ⟨_, v₁, _, v₂, hrun₁, hrun₂, fun id => congrFun hlookup id, fun depth id => ?_⟩
  exact GeneratorContext.generateFile_congr ⟨get_of_perm h, hlookup⟩ depth id

lemma sameOutput_of_not_validates {keyword : List Char → Prop} (hl : names.Lawful keyword)
    (h₁ : ¬ Validates names l₁) (h₂ : ¬ Validates names l₂) : SameOutput names l₁ l₂ := by
  have hstops {l : SchemaLoader} (h : ¬ Validates names l) : ∃ stop v, contextOf names l = .error stop v := by
    rcases contextOf_cases names l with ⟨v, hrun, -⟩ | hstop
    · exact absurd ((contextOf_iff hl).1 ⟨v, hrun⟩) h
    · exact hstop
  obtain ⟨s₁, v₁, hrun₁⟩ := hstops h₁
  obtain ⟨s₂, v₂, hrun₂⟩ := hstops h₂
  exact .inl ⟨s₁, v₁, s₂, v₂, hrun₁, hrun₂⟩

/-! ### Two files for one identifier -/

/-- The first of the files is recorded with the module that is made for its path. -/
lemma LaidOut.exists_module {taken : List Ident} {file : Node} {files : List Node} {depth : ℕ}
    (h : LaidOut names loader depth taken (file :: files) nodes)
    (hkind : ∀ info, (file.id, info) ∈ nodes → ∃ file, info = .file file) :
    ∃ path m filePath, file.displayName.asStr = some path ∧ makeUntaken names taken path () = .ok m () ∧
      (file.id, .file ⟨m, filePath⟩) ∈ nodes := by
  cases h with
  | @cons _ _ _ path m v rest hpath hm halone hrest =>
    obtain ⟨ids, hids, -⟩ := ids_validateFile halone
    have hmem : file.id ∈ v.ids := by
      rw [hids]
      exact List.mem_append_right _ List.mem_cons_self
    obtain ⟨⟨key, info⟩, hinfo, rfl⟩ := List.mem_map.1 hmem
    have hin : (file.id, info.inModule m) ∈ v.nodes.inModule m ++ rest :=
      List.mem_append_left _ (List.mem_map.2 ⟨_, hinfo, rfl⟩)
    obtain ⟨⟨modIdent, filePath⟩, hfile⟩ := hkind _ hin
    have hmod : modIdent = m := by
      cases info with
      | file info =>
        cases hfile
        rfl
      | _ => cases hfile
    subst hmod
    exact ⟨path, modIdent, filePath, hpath, hm, hfile ▸ hin⟩

/-- The module that the first of the files has. -/
lemma LaidOut.mem_file {taken : List Ident} {file : Node} {files : List Node} {depth : ℕ}
    (h : LaidOut names loader depth taken (file :: files) nodes)
    (hkind : ∀ info, (file.id, info) ∈ nodes → ∃ file, info = .file file) :
    ∃ m path, (file.id, .file ⟨m, path⟩) ∈ nodes ∧ m ∉ taken ∧
      ∀ i, fileIdent names file = some i → i ∉ taken → m = i := by
  obtain ⟨path, m, filePath, hpath, hm, hmem⟩ := h.exists_module hkind
  refine ⟨m, filePath, hmem, untaken_not_mem hm, fun i hi hnot => ?_⟩
  obtain ⟨i', hi', hfirst⟩ := makeUntaken_first hm
  obtain rfl := Option.some.inj ((fileIdent_of_makeIdent hpath hi').symm.trans hi)
  exact hfirst hnot

/-- A loader whose map hands out these two nodes first. -/
lemma exists_perm_of_mem {first second : Node} (hfirst : first ∈ loader.nodes) (hsecond : second ∈ loader.nodes)
    (hne : first ≠ second) : ∃ (l : SchemaLoader) (rest : List Node),
      l.nodes = first :: second :: rest ∧ l.nodes.Perm loader.nodes := by
  obtain ⟨s, t, hnodes⟩ := List.append_of_mem hfirst
  have hperm : loader.nodes.Perm (first :: (s ++ t)) := hnodes ▸ List.perm_middle
  have hmem : second ∈ s ++ t := ((List.mem_cons.1 (hperm.mem_iff.1 hsecond)).resolve_left hne.symm)
  obtain ⟨s', t', hrest⟩ := List.append_of_mem hmem
  have hperm' : (s ++ t).Perm (second :: (s' ++ t')) := hrest ▸ List.perm_middle
  have hall := hperm.trans (hperm'.cons first)
  exact ⟨⟨_, (hall.map Node.id).nodup_iff.1 loader.nodup⟩, s' ++ t', rfl, hall.symm⟩

lemma files_cons_cons {first second : Node} {rest : List Node} (h : loader.nodes = first :: second :: rest)
    (hfirst : first.isFile) (hsecond : second.isFile) :
    loader.files = first :: second :: rest.filter Node.isFile := by
  rw [files_eq_filter, h, List.filter_cons_of_pos hfirst, List.filter_cons_of_pos hsecond]

lemma laidOut_of_validates {keyword : List Char → Prop} (hl : names.Lawful keyword) (hv : Validates names loader) :
    ∃ v, contextOf names loader = .ok ⟨loader, v.nodes⟩ v ∧ v.nodes.Sound loader ∧
      LaidOut names loader (2 * loader.nodes.length + 2) [] loader.files v.nodes := by
  obtain ⟨v, hrun⟩ := (contextOf_iff hl).2 hv
  obtain ⟨hfiles, -⟩ := contextOf_eq_ok.1 hrun
  obtain ⟨nodes, hlaid, hnodes⟩ := laidOut_of_validateFiles (unentered_new _) (nodup_files loader) hfiles
  obtain rfl : v.nodes = nodes := hnodes
  rcases contextOf_cases names loader with ⟨v', hv', hsound⟩ | ⟨stop, v', herror⟩
  · obtain ⟨-, rfl⟩ := Outcome.ok.inj (hrun.symm.trans hv')
    exact ⟨v, hrun, hsound, hlaid⟩
  · rw [hrun] at herror
    cases herror

/-- When the same identifier is tried for two files, the one that comes first gets it. -/
lemma not_sameOutput_of_shared {keyword : List Char → Prop} (hl : names.Lawful keyword) {file other : Node}
    {rest₁ rest₂ : List Node} (hv₁ : Validates names l₁) (hv₂ : Validates names l₂)
    (hnodes₁ : l₁.nodes = file :: other :: rest₁) (hnodes₂ : l₂.nodes = other :: file :: rest₂)
    (hfile : file.isFile) (hother : other.isFile) {i : Ident} (hi : fileIdent names file = some i)
    (hi' : fileIdent names other = some i) : ¬ SameOutput names l₁ l₂ := by
  obtain ⟨v₁, hrun₁, hsound₁, hlaid₁⟩ := laidOut_of_validates hl hv₁
  obtain ⟨v₂, hrun₂, hsound₂, hlaid₂⟩ := laidOut_of_validates hl hv₂
  have hwhich := (isFile_of_fromNode (show FileSchema.fromNode file = some file from if_pos hfile)).2
  have hget₁ : l₁.get file.id = some file := SchemaLoader.get_of_mem (hnodes₁ ▸ List.mem_cons_self)
  have hget₂ : l₂.get file.id = some file :=
    SchemaLoader.get_of_mem (hnodes₂ ▸ List.mem_cons_of_mem _ List.mem_cons_self)
  rw [files_cons_cons hnodes₁ hfile hother] at hlaid₁
  rw [files_cons_cons hnodes₂ hother hfile] at hlaid₂
  -- the file comes first, and gets what is tried
  obtain ⟨m₁, path₁, hmem₁, -, hfirst⟩ := hlaid₁.mem_file fun info => hsound₁.file_of_mem hget₁ hwhich
  obtain rfl := hfirst i hi List.not_mem_nil
  -- the other one comes first, and has taken it
  generalize hall : v₂.nodes = all at hlaid₂
  cases hlaid₂ with
  | @cons _ _ _ path m v nodes hpath hm halone hrest =>
    obtain ⟨i', hi'', htaken⟩ := makeUntaken_first hm
    obtain rfl := Option.some.inj ((fileIdent_of_makeIdent hpath hi'').symm.trans hi')
    obtain rfl := htaken List.not_mem_nil
    obtain ⟨m₂, path₂, hmem₂, hnot, -⟩ := hrest.mem_file fun info hinfo =>
      hsound₂.file_of_mem hget₂ hwhich (hall ▸ List.mem_append_right _ hinfo)
    have hlookup₁ := (lookup_eq_some_iff hsound₁.nodup).2 hmem₁
    have hlookup₂ := (lookup_eq_some_iff hsound₂.nodup).2 (hall ▸ List.mem_append_right _ hmem₂)
    rintro (⟨s₁, w₁, s₂, w₂, hstop, -⟩ | ⟨ctx₁, w₁, ctx₂, w₂, hctx₁, hctx₂, hsame, -⟩)
    · rw [hrun₁] at hstop
      cases hstop
    · obtain ⟨rfl, -⟩ := Outcome.ok.inj (hrun₁.symm.trans hctx₁)
      obtain ⟨rfl, -⟩ := Outcome.ok.inj (hrun₂.symm.trans hctx₂)
      have heq := (hlookup₁.symm.trans (hsame file.id)).trans hlookup₂
      cases heq
      exact hnot List.mem_cons_self

/-- In whatever order the nodes come, validation stops in all of them, or all find the same infos and
generate the same files, exactly if no two files of a request that is valid are tried the same identifier
for. -/
theorem sameOutput_iff {keyword : List Char → Prop} (hl : names.Lawful keyword) :
    (∀ l₁ l₂ : SchemaLoader, l₁.nodes.Perm loader.nodes → l₂.nodes.Perm loader.nodes → SameOutput names l₁ l₂) ↔
      (Validates names loader → Distinct names loader.files) := by
  constructor
  · intro h hv file hfile other hother i hi hi'
    by_contra hne
    rw [files_eq_filter] at hfile hother
    obtain ⟨hmem, hisFile⟩ := List.mem_filter.1 hfile
    obtain ⟨hmem', hisFile'⟩ := List.mem_filter.1 hother
    obtain ⟨l₁, rest₁, hnodes₁, hperm₁⟩ := exists_perm_of_mem hmem hmem' hne
    obtain ⟨l₂, rest₂, hnodes₂, hperm₂⟩ := exists_perm_of_mem hmem' hmem (Ne.symm hne)
    exact not_sameOutput_of_shared hl (hv.of_perm hperm₁.symm) (hv.of_perm hperm₂.symm) hnodes₁ hnodes₂ hisFile
      hisFile' hi hi' (h l₁ l₂ hperm₁ hperm₂)
  · intro h l₁ l₂ hperm₁ hperm₂
    by_cases hv : Validates names loader
    · exact sameOutput_of_distinct hl (hperm₁.trans hperm₂.symm) (hv.of_perm hperm₁.symm)
        ((h hv).of_perm (files_of_perm hperm₁.symm))
    · exact sameOutput_of_not_validates hl (fun hv₁ => hv (hv₁.of_perm hperm₁)) fun hv₂ => hv (hv₂.of_perm hperm₂)

end Order

/-- Two files whose names differ in a letter that no identifier has. -/
def plusMinus : SchemaLoader where
  nodes := [⟨7, ⟨some ['a', '+']⟩, [], .ok .file⟩, ⟨8, ⟨some ['a', '-']⟩, [], .ok .file⟩]
  nodup := by decide

def minusPlus : SchemaLoader where
  nodes := [⟨8, ⟨some ['a', '-']⟩, [], .ok .file⟩, ⟨7, ⟨some ['a', '+']⟩, [], .ok .file⟩]
  nodup := by decide

lemma validates_plusMinus : Validates latin plusMinus where
  alone file hfile := by
    rcases List.mem_cons.1 hfile with rfl | hfile
    · exact ⟨_, rfl⟩
    · obtain rfl := List.mem_singleton.1 hfile
      exact ⟨_, rfl⟩
  once := by decide

theorem not_sameOutput_plusMinus : ¬ ∀ (names : Spelling) (keyword : List Char → Prop), names.Lawful keyword →
    ∀ loader l₁ l₂ : SchemaLoader, l₁.nodes.Perm loader.nodes → l₂.nodes.Perm loader.nodes →
      SameOutput names l₁ l₂ := by
  intro h
  have hperm : minusPlus.nodes.Perm plusMinus.nodes := .swap _ _ _
  refine not_sameOutput_of_shared lawful_latin validates_plusMinus (validates_plusMinus.of_perm hperm.symm) rfl rfl
    rfl rfl (i := ['a', '_']) ?_ ?_ (h latin _ lawful_latin plusMinus plusMinus minusPlus (.refl _) hperm)
  · rfl
  · rfl

/-- Two files that are told apart. -/
def plusOne : SchemaLoader where
  nodes := [⟨7, ⟨some ['a', '+']⟩, [], .ok .file⟩, ⟨8, ⟨some ['a', '1']⟩, [], .ok .file⟩]
  nodup := by decide

def onePlus : SchemaLoader where
  nodes := [⟨8, ⟨some ['a', '1']⟩, [], .ok .file⟩, ⟨7, ⟨some ['a', '+']⟩, [], .ok .file⟩]
  nodup := by decide

theorem sameOutput_iff_plusOne : SameOutput latin plusOne onePlus := by
  refine (sameOutput_iff lawful_latin).2 (fun _ file hfile other hother i hi hi' => ?_) _ _ (.refl _) (.swap _ _ _)
  have hfiles : plusOne.files = plusOne.nodes := rfl
  rw [hfiles] at hfile hother
  simp only [plusOne, List.mem_cons, List.not_mem_nil, or_false] at hfile hother
  rcases hfile with rfl | rfl
  · rcases hother with rfl | rfl
    · rfl
    · exact absurd (hi.trans hi'.symm) (by decide)
  · rcases hother with rfl | rfl
    · exact absurd (hi.trans hi'.symm) (by decide)
    · rfl

end Recapn.Codegen

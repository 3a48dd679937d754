/-
# Generic parameters and their bindings

A node can be generic because of its own parameters or because of those of a scope around it.
The loader gathers the parameters of a node by a walk outwards over its scopes, which puts those
of each scope in front of what it has.  Another walk does the same for the types that a brand
binds the parameters to.

The parameters of a scope are walked from the last to the first, so that they come out in their
order.  The bindings of a scope are not: the types of a `Bind` come out in reverse.  So the two
lists line up when every scope that is bound has a list of types that reads the same from both
ends (`gatherNodeBindings_linesUp_iff`).
-/
import Mathlib.Data.Option.Basic
import Mathlib.Order.Basic
import Recapn.Codegen.Schema
import Recapn.Lib.Prog

namespace Recapn.Codegen

open Recapn.Lib

/-! ## Generic nodes -/

/-- A node with what it says about its scope and its parameters. -/
structure GenericNode extends Node where
  isGeneric : Bool
  scopeId : Id
  parameters : List Text

/-- The nodes of the request, with their scopes and parameters. -/
structure GenericLoader where
  nodes : List GenericNode
  nodup : (nodes.map fun node => node.id).Nodup

namespace GenericLoader

/-- The loader, of which scopes and parameters are left out. -/
def toLoader (loader : GenericLoader) : SchemaLoader where
  nodes := loader.nodes.map GenericNode.toNode
  nodup := by
    rw [List.map_map]
    exact loader.nodup

/-- `SchemaLoader::get`. -/
def get (loader : GenericLoader) (id : Id) : Option GenericNode :=
  loader.nodes.find? fun node => node.id == id

end GenericLoader

/-! ## Brands -/

/-- `SchemaLoader::resolve_brand`. -/
def SchemaLoader.resolveBrand (loader : SchemaLoader) (brand : List BrandScope) :
    Except Error Branding := do
  let scopes ← loader.resolveScopes brand
  .ok (scopes.mergeSort fun a b => a.1 ≤ b.1)

/-- The scopes of a brand are in the order of their ids. -/
def Sorted (branding : Branding) : Prop := branding.Pairwise fun a b => a.1 ≤ b.1

/-- `<[T]>::binary_search_by` for the id of a scope: the search finds one of the entries with the
id, if the slice is sorted and there is any. -/
structure BinarySearch where
  run : Branding → Id → Option ScopeBranding
  mem_of_run : ∀ branding scope found, Sorted branding →
    run branding scope = some found → (scope, found) ∈ branding
  not_mem_of_run : ∀ branding scope, Sorted branding →
    run branding scope = none → ∀ entry, (scope, entry) ∉ branding

/-- `Branding::find`. -/
def Branding.find (search : BinarySearch) (branding : Branding) (scope : Id) :
    Option ScopeBranding :=
  search.run branding scope

/-- The search that finds the first entry. -/
def BinarySearch.first : BinarySearch where
  run branding scope := (branding.find? fun entry => entry.1 == scope).map Prod.snd
  mem_of_run branding scope found _ h := by
    obtain ⟨⟨id, entry⟩, hfind, rfl⟩ := Option.map_eq_some_iff.mp h
    have hid : id = scope := by simpa using List.find?_some hfind
    exact hid ▸ List.mem_of_find?_eq_some hfind
  not_mem_of_run branding scope _ h entry hmem := by
    have hnone := List.find?_eq_none.mp (Option.map_eq_none_iff.mp h) _ hmem
    simp at hnone

lemma sorted_resolveBrand {loader : SchemaLoader} {brand : List BrandScope} {branding : Branding}
    (h : loader.resolveBrand brand = .ok branding) : Sorted branding := by
  unfold SchemaLoader.resolveBrand at h
  cases hscopes : loader.resolveScopes brand with
  | error e => simp [hscopes, bind, Except.bind] at h
  | ok scopes =>
    simp only [hscopes, bind, Except.bind, Except.ok.injEq] at h
    subst h
    have hsorted := @List.pairwise_mergeSort _ (fun a b : Id × ScopeBranding => a.1 ≤ b.1)
      (fun a b c hab hbc => by
        rw [decide_eq_true_eq] at hab hbc ⊢
        exact Nat.le_trans hab hbc)
      (fun a b => by
        rw [Bool.or_eq_true, decide_eq_true_eq, decide_eq_true_eq]
        exact Nat.le_total a.1 b.1)
      scopes
    exact hsorted.imp of_decide_eq_true

/-! ## The two walks -/

structure Parameter where
  scope : Id
  index : ℕ
  name : Text
deriving DecidableEq

/-- `VecDeque::push_front`. -/
def pushFront {α : Type} (a : α) : Prog Error (List α) Unit := Prog.modify fun vec => a :: vec

/-- `SchemaLoader::gather_node_parameters`, in so many rounds. -/
def GenericLoader.gatherNodeParameters (loader : GenericLoader) :
    ℕ → GenericNode → Prog Error (List Parameter) Unit
  | 0, _ => Prog.halt .depth
  | fuel + 1, node =>
    if node.isGeneric then do
      Prog.fold (fun _ p => pushFront ⟨node.id, p.2 % 2 ^ 16, p.1⟩) ()
        node.parameters.zipIdx.reverse
      let parent ← Prog.okOr (.schema (.missingNode node.scopeId)) (loader.get node.scopeId)
      loader.gatherNodeParameters fuel parent
    else pure ()

/-- `SchemaLoader::gather_node_bindings`, in so many rounds. -/
def GenericLoader.gatherNodeBindings (loader : GenericLoader) (search : BinarySearch)
    (brand : Branding) : ℕ → GenericNode → Prog Error (List Ty) Unit
  | 0, _ => Prog.halt .depth
  | fuel + 1, node =>
    if node.isGeneric then do
      let params := node.parameters
      match brand.find search node.id with
      | some .inherit =>
        Prog.fold (fun _ p => pushFront (.mk 0 (.scopeBound node.id (p.2 % 2 ^ 16)))) ()
          params.zipIdx.reverse
      | some (.bind bindings) => do
        Prog.assert (bindings.length = params.length)
        Prog.fold (fun _ b => pushFront b) () bindings
      | none => Prog.forRange params.length fun _ => pushFront (.mk 0 .anyPointer)
      let parent ← Prog.okOr (.schema (.missingNode node.scopeId)) (loader.get node.scopeId)
      loader.gatherNodeBindings search brand fuel parent
    else pure ()

/-! ## What the walks gather -/

/-- The generic nodes from a node outwards, up to the first that is not generic. -/
inductive Chain (loader : GenericLoader) : GenericNode → List GenericNode → Prop
  | outermost {node : GenericNode} (h : node.isGeneric = false) : Chain loader node []
  | scope {node parent : GenericNode} {chain : List GenericNode} (h : node.isGeneric = true)
      (hparent : loader.get node.scopeId = some parent) (hchain : Chain loader parent chain) :
      Chain loader node (node :: chain)

/-- Parameters of the nodes of a chain, as they should come out: by their nodes and their places
there, the outermost node first. -/
def places (chain : List GenericNode) : List (GenericNode × ℕ) :=
  chain.reverse.flatMap fun node => (List.range node.parameters.length).map (node, ·)

/-- What a brand binds the j-th parameter of a node to. -/
def bound (search : BinarySearch) (brand : Branding) (node : GenericNode) (j : ℕ) : Option Ty :=
  match brand.find search node.id with
  | some .inherit => some (.mk 0 (.scopeBound node.id j))
  | some (.bind bindings) => bindings[j]?
  | none => some (.mk 0 .anyPointer)

/-- The bindings line up with the parameters: there are as many, and each is what the brand binds
its parameter to. -/
structure LinesUp (search : BinarySearch) (brand : Branding) (chain : List GenericNode)
    (params : List Parameter) (bindings : List Ty) : Prop where
  length : bindings.length = params.length
  name : ∀ (i : ℕ) (node : GenericNode) (j : ℕ), (places chain)[i]? = some (node, j) →
    ∃ name, node.parameters[j]? = some name ∧
      params[i]? = some (Parameter.mk node.id (j % 2 ^ 16) name)
  bound : ∀ (i : ℕ) (node : GenericNode) (j : ℕ), (places chain)[i]? = some (node, j) →
    bindings[i]? = bound search brand node j
  /-- What the search finds is what the brand says. -/
  found : ∀ node ∈ chain, match brand.find search node.id with
    | some entry => (node.id, entry) ∈ brand
    | none => ∀ entry, (node.id, entry) ∉ brand

/-- The bindings of the node come out in the order of its parameters. -/
def InOrder (search : BinarySearch) (brand : Branding) (node : GenericNode) : Prop :=
  match brand.find search node.id with
  | some .inherit => node.parameters.length ≤ 2 ^ 16
  | some (.bind bindings) => bindings.reverse = bindings
  | none => True

/-- The brand has a type for each parameter of the node, if it binds them. -/
def Fits (search : BinarySearch) (brand : Branding) (node : GenericNode) : Prop :=
  ∀ bindings, brand.find search node.id = some (.bind bindings) →
    bindings.length = node.parameters.length

/-- What the walk over the parameters puts in front for a node. -/
def parametersOf (node : GenericNode) : List Parameter :=
  node.parameters.zipIdx.map fun p => ⟨node.id, p.2 % 2 ^ 16, p.1⟩

/-- What the walk over the bindings puts in front for a node. -/
def bindingsOf (search : BinarySearch) (brand : Branding) (node : GenericNode) : List Ty :=
  match brand.find search node.id with
  | some .inherit =>
    node.parameters.zipIdx.map fun p => .mk 0 (.scopeBound node.id (p.2 % 2 ^ 16))
  | some (.bind bindings) => bindings.reverse
  | none => List.replicate node.parameters.length (.mk 0 .anyPointer)

variable {loader : GenericLoader} {search : BinarySearch} {brand : Branding} {node : GenericNode}
  {chain : List GenericNode}

/-- Items pushed one after the other end up in reverse. -/
lemma fold_pushFront {α β : Type} (f : α → β) (as : List α) (vec : List β) :
    Prog.fold (fun _ a => pushFront (f a)) () as vec = .ok () ((as.map f).reverse ++ vec) := by
  induction as generalizing vec with
  | nil => rfl
  | cons a as ih =>
    rw [Prog.fold_cons, Prog.bind_apply]
    simp only [pushFront, Prog.modify_apply] at ih ⊢
    rw [ih]
    simp

lemma forRange_pushFront {β : Type} (b : β) (n : ℕ) (vec : List β) :
    Prog.forRange n (fun _ => pushFront b) vec = .ok () (List.replicate n b ++ vec) := by
  induction n with
  | zero => rfl
  | succ n ih =>
    rw [Prog.forRange, Prog.bind_apply, ih]
    simp [pushFront, List.replicate_succ]

/-- A walk that puts something in front for each generic node that fits, and goes on with its
parent. -/
structure Walks {β : Type} (loader : GenericLoader) (fits : GenericNode → Prop)
    (items : GenericNode → List β) (walk : ℕ → GenericNode → Prog Error (List β) Unit) : Prop where
  zero : ∀ node vec, walk 0 node vec = .halt .depth
  outermost : ∀ fuel node vec, node.isGeneric = false → walk (fuel + 1) node vec = .ok () vec
  misfit : ∀ fuel node vec, node.isGeneric = true → ¬ fits node →
    walk (fuel + 1) node vec = .halt .panic
  missing : ∀ fuel node vec, node.isGeneric = true → fits node → loader.get node.scopeId = none →
    walk (fuel + 1) node vec = .error (.schema (.missingNode node.scopeId)) (items node ++ vec)
  scope : ∀ fuel node vec parent, node.isGeneric = true → fits node →
    loader.get node.scopeId = some parent →
    walk (fuel + 1) node vec = walk fuel parent (items node ++ vec)

lemma Walks.of_chain {β : Type} {fits : GenericNode → Prop} {items : GenericNode → List β}
    {walk : ℕ → GenericNode → Prog Error (List β) Unit} (h : Walks loader fits items walk)
    (hchain : Chain loader node chain) (hfits : ∀ node ∈ chain, fits node) {fuel : ℕ}
    (hfuel : chain.length < fuel) (vec : List β) :
    walk fuel node vec = .ok () (chain.reverse.flatMap items ++ vec) := by
  induction hchain generalizing fuel vec with
  | outermost hnot =>
    obtain ⟨fuel, rfl⟩ : ∃ n, fuel = n + 1 := ⟨fuel - 1, by omega⟩
    simp [h.outermost _ _ _ hnot]
  | @scope node parent chain hgeneric hparent hchain ih =>
    obtain ⟨fuel, rfl⟩ : ∃ n, fuel = n + 1 := ⟨fuel - 1, by omega⟩
    have hlt : chain.length < fuel := by
      simp only [List.length_cons] at hfuel
      omega
    rw [h.scope fuel node vec parent hgeneric (hfits node List.mem_cons_self) hparent,
      ih (fun n hn => hfits n (List.mem_cons_of_mem _ hn)) hlt]
    simp

/-- What one round of a walk does, when it pushes the items of the node and looks for its parent. -/
lemma round_eq {β : Type} {push : Prog Error (List β) Unit} {items vec : List β}
    (hpush : push vec = .ok () (items ++ vec)) (next : GenericNode → Prog Error (List β) Unit) :
    (do
      push
      let parent ← Prog.okOr (.schema (.missingNode node.scopeId)) (loader.get node.scopeId)
      next parent : Prog Error (List β) Unit) vec =
      match loader.get node.scopeId with
      | none => .error (.schema (.missingNode node.scopeId)) (items ++ vec)
      | some parent => next parent (items ++ vec) := by
  rw [Prog.bind_of_ok hpush]
  cases loader.get node.scopeId <;> rfl

lemma walks_gatherNodeParameters (loader : GenericLoader) :
    Walks loader (fun _ => True) parametersOf loader.gatherNodeParameters := by
  have hround (fuel : ℕ) (node : GenericNode) (vec : List Parameter)
      (hgeneric : node.isGeneric = true) : loader.gatherNodeParameters (fuel + 1) node vec =
        match loader.get node.scopeId with
        | none => .error (.schema (.missingNode node.scopeId)) (parametersOf node ++ vec)
        | some parent => loader.gatherNodeParameters fuel parent (parametersOf node ++ vec) := by
    rw [GenericLoader.gatherNodeParameters, Prog.if_pos_apply hgeneric, round_eq]
    simp [fold_pushFront, parametersOf]
  constructor
  · exact fun node vec => rfl
  · intro fuel node vec h
    simp [GenericLoader.gatherNodeParameters, h]
  · exact fun fuel node vec _ hfits => absurd trivial hfits
  · intro fuel node vec hgeneric _ hparent
    rw [hround fuel node vec hgeneric, hparent]
  · intro fuel node vec parent hgeneric _ hparent
    rw [hround fuel node vec hgeneric, hparent]

/-- The types that a node is bound to come out in reverse. -/
lemma walks_gatherNodeBindings (loader : GenericLoader) (search : BinarySearch) (brand : Branding) :
    Walks loader (Fits search brand) (bindingsOf search brand)
      (loader.gatherNodeBindings search brand) := by
  have hround (fuel : ℕ) (node : GenericNode) (vec : List Ty) (hgeneric : node.isGeneric = true)
      (hfits : Fits search brand node) : loader.gatherNodeBindings search brand (fuel + 1) node vec =
        match loader.get node.scopeId with
        | none => .error (.schema (.missingNode node.scopeId)) (bindingsOf search brand node ++ vec)
        | some parent =>
          loader.gatherNodeBindings search brand fuel parent (bindingsOf search brand node ++ vec) := by
    rw [GenericLoader.gatherNodeBindings, Prog.if_pos_apply hgeneric]
    cases hfind : brand.find search node.id with
    | none => exact round_eq (by simp [forRange_pushFront, bindingsOf, hfind]) _
    | some entry =>
      cases entry with
      | inherit => exact round_eq (by simp [fold_pushFront, bindingsOf, hfind]) _
      | bind bindings =>
        have hpush := fold_pushFront (fun b : Ty => b) bindings vec
        simp only [Prog.assert_of (hfits bindings hfind), Prog.pure_bind_eq]
        exact round_eq (by simp [hpush, bindingsOf, hfind]) _
  constructor
  · exact fun node vec => rfl
  · intro fuel node vec h
    simp [GenericLoader.gatherNodeBindings, h]
  · -- only a scope with other than its number of types does not fit
    intro fuel node vec hgeneric hfits
    obtain ⟨bindings, hmisfit⟩ := not_forall.1 hfits
    obtain ⟨hfind, hlength⟩ := Classical.not_imp.1 hmisfit
    simp [GenericLoader.gatherNodeBindings, hgeneric, hfind, Prog.assert, hlength, Prog.bind_apply]
  · intro fuel node vec hgeneric hfits hparent
    rw [hround fuel node vec hgeneric hfits, hparent]
  · intro fuel node vec parent hgeneric hfits hparent
    rw [hround fuel node vec hgeneric hfits, hparent]

/-- The walk over the parameters gathers those of each node in their order. -/
lemma gatherNodeParameters_of_chain (hchain : Chain loader node chain) {fuel : ℕ}
    (hfuel : chain.length < fuel) :
    loader.gatherNodeParameters fuel node [] =
      .ok () (chain.reverse.flatMap parametersOf) := by
  have hwalk := (walks_gatherNodeParameters loader).of_chain hchain (fun _ _ => trivial) hfuel []
  simpa using hwalk

/-- The walk over the bindings gathers those of each node, the types that it is bound to in
reverse. -/
lemma gatherNodeBindings_of_chain (hchain : Chain loader node chain)
    (hfits : ∀ node ∈ chain, Fits search brand node) {fuel : ℕ} (hfuel : chain.length < fuel) :
    loader.gatherNodeBindings search brand fuel node [] =
      .ok () (chain.reverse.flatMap (bindingsOf search brand)) := by
  have hwalk := (walks_gatherNodeBindings loader search brand).of_chain hchain hfits hfuel []
  simpa using hwalk

/-! ## When they line up -/

/-- Two lists made of parts of the same lengths are the same if and only if their parts are. -/
lemma flatMap_eq_flatMap_iff {α β : Type} {f g : α → List β} {as : List α}
    (hlength : ∀ a ∈ as, (f a).length = (g a).length) :
    as.flatMap f = as.flatMap g ↔ ∀ a ∈ as, f a = g a := by
  refine ⟨fun h => ?_, fun h => ?_⟩
  · induction as with
    | nil => simp
    | cons a as ih =>
      obtain ⟨hhead, htail⟩ := List.append_inj h (hlength a (by simp))
      have hrest := ih (fun b hb => hlength b (by simp [hb])) htail
      intro b hb
      rcases List.mem_cons.mp hb with rfl | hb
      · exact hhead
      · exact hrest b hb
  · rw [List.flatMap_def, List.flatMap_def, List.map_congr_left h]

/-- The parameters of a node are gathered by their places. -/
lemma map_parametersOf (node : GenericNode) :
    (parametersOf node).map some = (List.range node.parameters.length).map fun j =>
      node.parameters[j]?.map fun name => Parameter.mk node.id (j % 2 ^ 16) name := by
  refine List.ext_getElem? fun j => ?_
  by_cases hj : j < node.parameters.length
  · simp [parametersOf, hj]
  · simp [parametersOf, hj]

/-- The bindings of a node are as many as its parameters. -/
lemma length_bindingsOf (hfits : Fits search brand node) :
    (bindingsOf search brand node).length = node.parameters.length := by
  unfold bindingsOf
  split
  · simp
  · rename_i bindings hfind
    simpa using hfits bindings hfind
  · simp

/-- The bindings of a node are what the brand binds its parameters to, if they are in order. -/
lemma map_bindingsOf_iff (hfits : Fits search brand node) :
    (bindingsOf search brand node).map some =
        (List.range node.parameters.length).map (bound search brand node) ↔
      InOrder search brand node := by
  cases hfind : brand.find search node.id with
  | none =>
    simp only [bindingsOf, InOrder, hfind, iff_true]
    refine List.ext_getElem? fun j => ?_
    by_cases hj : j < node.parameters.length
    · simp [hj, bound, hfind]
    · simp [hj]
  | some entry =>
    cases entry with
    | inherit =>
      simp only [bindingsOf, InOrder, hfind]
      refine ⟨fun h => ?_, fun h => List.ext_getElem? fun j => ?_⟩
      · -- the parameter with the number 2 ^ 16 is bound like the first
        by_contra hlt
        have hj := congrArg (fun bindings => bindings[2 ^ 16]?) h
        have hlt' : 65536 < node.parameters.length := Nat.not_le.mp hlt
        simp [bound, hfind, hlt'] at hj
      · by_cases hj : j < node.parameters.length
        · simp [hj, bound, hfind, Nat.mod_eq_of_lt (show j < 65536 by omega)]
        · simp [hj]
    | bind bindings =>
      have hlength := hfits bindings hfind
      have hbound : (List.range node.parameters.length).map (bound search brand node) =
          bindings.map some := by
        refine List.ext_getElem? fun j => ?_
        by_cases hj : j < node.parameters.length
        · simp [hj, bound, hfind, hlength]
        · simp [hj, hlength]
      simp only [bindingsOf, InOrder, hfind, hbound]
      exact (List.map_injective_iff.mpr (Option.some_injective _)).eq_iff

lemma length_places (chain : List GenericNode) :
    (places chain).length = (chain.reverse.flatMap parametersOf).length := by
  simp [places, parametersOf, List.length_flatMap]

lemma length_flatMap_bindingsOf (hfits : ∀ node ∈ chain, Fits search brand node) :
    (chain.reverse.flatMap (bindingsOf search brand)).length = (places chain).length := by
  have hmap : chain.reverse.map (fun node => (bindingsOf search brand node).length) =
      chain.reverse.map fun node => node.parameters.length :=
    List.map_congr_left fun node hnode => length_bindingsOf (hfits node (List.mem_reverse.mp hnode))
  simp [places, List.length_flatMap, hmap]

/-- The bindings gathered from a chain are those of its places if and only if those of each of its
nodes are in order. -/
lemma map_flatMap_bindingsOf_iff (hfits : ∀ node ∈ chain, Fits search brand node) :
    (chain.reverse.flatMap (bindingsOf search brand)).map some =
        (places chain).map (fun place => bound search brand place.1 place.2) ↔
      ∀ node ∈ chain, InOrder search brand node := by
  have hplaces : (places chain).map (fun place => bound search brand place.1 place.2) =
      chain.reverse.flatMap fun node =>
        (List.range node.parameters.length).map (bound search brand node) := by
    rw [places, List.map_flatMap]
    simp [Function.comp_def]
  rw [hplaces, List.map_flatMap, flatMap_eq_flatMap_iff]
  · simp only [List.mem_reverse]
    exact forall₂_congr fun node hnode => map_bindingsOf_iff (hfits node hnode)
  · intro node hnode
    simp [length_bindingsOf (hfits node (List.mem_reverse.mp hnode))]

/-- The parameters gathered from a chain are those of its places. -/
lemma flatMap_parametersOf_getElem? {i j : ℕ} {node : GenericNode}
    (h : (places chain)[i]? = some (node, j)) :
    ∃ name, node.parameters[j]? = some name ∧
      (chain.reverse.flatMap parametersOf)[i]? =
        some (Parameter.mk node.id (j % 2 ^ 16) name) := by
  have hmap : (chain.reverse.flatMap parametersOf).map some = (places chain).map fun place =>
      place.1.parameters[place.2]?.map fun name =>
        Parameter.mk place.1.id (place.2 % 2 ^ 16) name := by
    rw [places, List.map_flatMap, List.map_flatMap]
    refine congrArg (fun f => List.flatMap f chain.reverse) (funext fun node => ?_)
    rw [map_parametersOf, List.map_map]
    rfl
  have hi := congrArg (fun params => params[i]?) hmap
  simp only [List.getElem?_map, h, Option.map_some] at hi
  obtain ⟨parameter, hparameter, hsome⟩ := Option.map_eq_some_iff.mp hi
  obtain ⟨name, hname, hmk⟩ := Option.map_eq_some_iff.mp hsome.symm
  exact ⟨name, hname, hmk ▸ hparameter⟩

/-- What is gathered from a chain lines up if and only if it does for each of its nodes. -/
lemma linesUp_iff (hsorted : Sorted brand) (hfits : ∀ node ∈ chain, Fits search brand node) :
    LinesUp search brand chain (chain.reverse.flatMap parametersOf)
        (chain.reverse.flatMap (bindingsOf search brand)) ↔
      ∀ node ∈ chain, InOrder search brand node := by
  have hlength := length_flatMap_bindingsOf hfits
  rw [← map_flatMap_bindingsOf_iff hfits]
  refine ⟨fun h => List.ext_getElem? fun i => ?_, fun h => ⟨?_, ?_, ?_, ?_⟩⟩
  · rw [List.getElem?_map, List.getElem?_map]
    cases hplace : (places chain)[i]? with
    | none =>
      have hle := List.getElem?_eq_none_iff.mp hplace
      simp only [Option.map_none, Option.map_eq_none_iff, List.getElem?_eq_none_iff]
      omega
    | some place =>
      have hlt := (List.getElem?_eq_some_iff.mp hplace).1
      have hbound := h.bound i place.1 place.2 hplace
      rw [List.getElem?_eq_getElem (by omega)] at hbound ⊢
      rw [Option.map_some, Option.map_some, hbound]
  · rw [hlength, length_places]
  · exact fun i node j => flatMap_parametersOf_getElem?
  · intro i node j hplace
    have hi := congrArg (fun bindings => bindings[i]?) h
    simp only [List.getElem?_map, hplace, Option.map_some] at hi
    obtain ⟨ty, hty, hsome⟩ := Option.map_eq_some_iff.mp hi
    rw [hty, hsome]
  · intro node _
    split
    · exact search.mem_of_run _ _ _ hsorted ‹_›
    · exact search.not_mem_of_run _ _ hsorted ‹_›

/-- The walks over the scopes of a node come to the same number of parameters and bindings.  They
line up if and only if the bindings of each scope do: a scope that is bound has a list of types
that is its own reverse, and a scope that is inherited has no more parameters than an index has
numbers. -/
theorem gatherNodeBindings_linesUp_iff (search : BinarySearch) {loader : GenericLoader}
    {node : GenericNode} {chain : List GenericNode} (hchain : Chain loader node chain)
    {scopes : List BrandScope} {brand : Branding}
    (hbrand : loader.toLoader.resolveBrand scopes = .ok brand)
    (hfits : ∀ scope ∈ chain, Fits search brand scope) :
    (∃ params bindings, LinesUp search brand chain params bindings ∧
      ∀ fuel, chain.length < fuel →
        loader.gatherNodeParameters fuel node [] = .ok () params ∧
        loader.gatherNodeBindings search brand fuel node [] = .ok () bindings) ↔
      ∀ scope ∈ chain, InOrder search brand scope := by
  rw [← linesUp_iff (sorted_resolveBrand hbrand) hfits]
  have hrun : ∀ fuel, chain.length < fuel →
      loader.gatherNodeParameters fuel node [] = .ok () (chain.reverse.flatMap parametersOf) ∧
      loader.gatherNodeBindings search brand fuel node [] =
        .ok () (chain.reverse.flatMap (bindingsOf search brand)) := fun fuel hfuel =>
    ⟨gatherNodeParameters_of_chain hchain hfuel, gatherNodeBindings_of_chain hchain hfits hfuel⟩
  constructor
  · rintro ⟨params, bindings, h, hrun'⟩
    obtain ⟨hparams, hbindings⟩ := hrun (chain.length + 1) (by omega)
    obtain ⟨hparams', hbindings'⟩ := hrun' (chain.length + 1) (by omega)
    rw [hparams, Outcome.ok.injEq] at hparams'
    rw [hbindings, Outcome.ok.injEq] at hbindings'
    rw [hparams'.2, hbindings'.2]
    exact h
  · exact fun h => ⟨_, _, h, hrun⟩

/-! ## Two parameters -/

/-- A generic struct with two parameters in a file. -/
def pairFile : GenericNode :=
  { id := 1, displayName := ⟨none⟩, nestedNodes := [], which := .ok .file, isGeneric := false,
    scopeId := 0, parameters := [] }

def pair : GenericNode :=
  { id := 2, displayName := ⟨none⟩, nestedNodes := [], which := .ok .interface, isGeneric := true,
    scopeId := 1, parameters := [⟨some ['A']⟩, ⟨some ['B']⟩] }

def pairLoader : GenericLoader := ⟨[pairFile, pair], by decide⟩

lemma chain_pair : Chain pairLoader pair [pair] := .scope rfl rfl (.outermost rfl)

/-- The brand that binds both parameters to these types. -/
def pairBrand (a b : CapnpType) : List BrandScope := [.bind 2 [.type a, .type b]]

lemma resolveBrand_pair (b : CapnpType) (kind : TypeKind)
    (hb : pairLoader.toLoader.resolveTypeInner b 0 = .ok (.mk 0 kind)) :
    pairLoader.toLoader.resolveBrand (pairBrand .text b) =
      .ok [(2, .bind [.mk 0 .text, .mk 0 kind])] := by
  simp [SchemaLoader.resolveBrand, pairBrand, SchemaLoader.resolveScopes,
    SchemaLoader.resolveBindings, SchemaLoader.resolveTypeInner, hb, bind, Except.bind]

lemma fits_pair (a b : Ty) : ∀ scope ∈ [pair], Fits .first [(2, .bind [a, b])] scope := by
  simp only [List.mem_singleton, forall_eq]
  intro bindings h
  obtain rfl : [a, b] = bindings := by simpa [Branding.find, BinarySearch.first, pair] using h
  rfl

/-- The parameters are bound to `Text` and `Data`: the bindings come out as `Data` and `Text`. -/
theorem gatherNodeBindings_pair_not_linesUp :
    ¬ ∀ (search : BinarySearch) (loader : GenericLoader) (node : GenericNode)
      (chain : List GenericNode) (scopes : List BrandScope) (brand : Branding),
      Chain loader node chain → loader.toLoader.resolveBrand scopes = .ok brand →
      (∀ scope ∈ chain, Fits search brand scope) →
      ∃ params bindings, LinesUp search brand chain params bindings ∧
        ∀ fuel, chain.length < fuel →
          loader.gatherNodeParameters fuel node [] = .ok () params ∧
          loader.gatherNodeBindings search brand fuel node [] = .ok () bindings := by
  intro h
  obtain ⟨params, bindings, hlines, hrun⟩ := h .first pairLoader pair [pair] (pairBrand .text .data)
    _ chain_pair (resolveBrand_pair .data .data (by simp [SchemaLoader.resolveTypeInner]))
    (fits_pair _ _)
  have hbindings : [Ty.mk 0 .data, .mk 0 .text] = bindings := by
    have := (hrun 2 (by decide)).2
    rw [show pairLoader.gatherNodeBindings .first [(2, .bind [.mk 0 .text, .mk 0 .data])] 2 pair [] =
      .ok () [Ty.mk 0 .data, .mk 0 .text] from rfl, Outcome.ok.injEq] at this
    exact this.2
  have hfirst := hlines.bound 0 pair 0 rfl
  rw [← hbindings] at hfirst
  simp [bound, Branding.find, BinarySearch.first, pair] at hfirst

/-- Both parameters are bound to `Text`: the bindings line up. -/
theorem gatherNodeBindings_linesUp_iff_pair :
    ∃ params bindings, LinesUp .first [(2, .bind [.mk 0 .text, .mk 0 .text])] [pair] params bindings ∧
      ∀ fuel, [pair].length < fuel →
        pairLoader.gatherNodeParameters fuel pair [] = .ok () params ∧
        pairLoader.gatherNodeBindings .first [(2, .bind [.mk 0 .text, .mk 0 .text])] fuel pair [] =
          .ok () bindings := by
  refine (gatherNodeBindings_linesUp_iff .first chain_pair
    (resolveBrand_pair .text .text (by simp [SchemaLoader.resolveTypeInner]))
    (fits_pair _ _)).mpr ?_
  simp [InOrder, Branding.find, BinarySearch.first, pair]

end Recapn.Codegen

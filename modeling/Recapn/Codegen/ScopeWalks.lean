/-
# Walks over scopes that end

The walks over the scopes of a node go on for as long as they come to generic nodes.  The loader
refuses a node only when it has another one with the same id, so nothing keeps the scopes of
generic nodes from leading back to themselves, and then a walk does not end.  Otherwise it ends at
a node that is not generic, or at a scope that is missing, unless the brand binds a scope to
another number of types than it has parameters.
-/
import Recapn.Codegen.Bindings
import Recapn.Lib.Forwarding

namespace Recapn.Codegen

open Recapn.Lib

/-- Where a walk goes on from a node. -/
def GenericLoader.outwards (loader : GenericLoader) (node : GenericNode) : Option GenericNode :=
  if node.isGeneric then loader.get node.scopeId else none

/-- The walk comes to this scope. -/
def GenericLoader.ComesTo (loader : GenericLoader) : GenericNode → GenericNode → Prop :=
  Relation.ReflTransGen fun node parent => loader.outwards node = some parent

/-- It is a result or an error. -/
def EndsWell {β : Type} (out : Outcome Error (List β) Unit) : Prop :=
  ∃ vec, out = .ok () vec ∨ ∃ e, out = .error e vec

/-- A walk ends with a result or with an error, the same in however many more rounds. -/
def Settles {β : Type} (walk : ℕ → Prog Error (List β) Unit) : Prop :=
  ∃ n out, EndsWell out ∧ ∀ fuel, n ≤ fuel → walk fuel [] = out

lemma not_endsWell_halt {β : Type} {r : Halt} :
    ¬ EndsWell (.halt r : Outcome Error (List β) Unit) := by
  rintro ⟨vec, hok | ⟨e, herror⟩⟩
  · cases hok
  · cases herror

variable {loader : GenericLoader} {node parent last : GenericNode}

lemma outwards_of_isGeneric (h : node.isGeneric = true) :
    loader.outwards node = loader.get node.scopeId := if_pos h

lemma outwards_eq_some_iff :
    loader.outwards node = some parent ↔ node.isGeneric = true ∧ loader.get node.scopeId = some parent := by
  simp [GenericLoader.outwards]

lemma outwards_eq_none_iff :
    loader.outwards node = none ↔ node.isGeneric = true → loader.get node.scopeId = none := by
  simp [GenericLoader.outwards]

/-- After the first, a walk comes to nodes of the loader. -/
lemma mem_of_comesTo (h : loader.ComesTo node last) : last ∈ node :: loader.nodes := by
  rcases Relation.ReflTransGen.cases_tail_iff _ _ _ |>.1 h with rfl | ⟨before, -, hstep⟩
  · exact List.mem_cons_self
  · obtain ⟨-, hget⟩ := outwards_eq_some_iff.1 hstep
    exact List.mem_cons_of_mem _ (List.mem_of_find?_eq_some hget)

/-- A walk is led to its last scope if and only if it comes to no scope twice. -/
lemma leads_iff_not_revisits_outwards :
    (∃ last, Leads loader.outwards node last) ↔ ¬ Revisits loader.outwards node :=
  leads_iff_not_revisits fun _ h _ => mem_of_comesTo h

section Walks

variable {β : Type} {fits : GenericNode → Prop} {items : GenericNode → List β}
  {walk : ℕ → GenericNode → Prog Error (List β) Unit}

/-- A walk that ends well has been led to its last scope, and every generic one fits. -/
lemma Walks.leads_of_endsWell (h : Walks loader fits items walk) {fuel : ℕ} {vec : List β}
    (hends : EndsWell (walk fuel node vec)) :
    (∃ last, Leads loader.outwards node last) ∧
      ∀ scope, loader.ComesTo node scope → scope.isGeneric = true → fits scope := by
  induction fuel generalizing node vec with
  | zero =>
    rw [h.zero] at hends
    exact (not_endsWell_halt hends).elim
  | succ fuel ih =>
    by_cases hgeneric : node.isGeneric = true
    · have hfits : fits node := by
        by_contra hmisfit
        rw [h.misfit fuel node vec hgeneric hmisfit] at hends
        exact not_endsWell_halt hends
      rcases hget : loader.get node.scopeId with _ | parent
      · have hlast := (outwards_of_isGeneric hgeneric).trans hget
        refine ⟨⟨node, .refl hlast⟩, ?_⟩
        intro scope hscope _
        rcases Relation.ReflTransGen.cases_head hscope with rfl | ⟨next, hstep, -⟩
        · exact hfits
        · rw [hlast] at hstep
          cases hstep
      · have hnext := outwards_eq_some_iff.2 ⟨hgeneric, hget⟩
        rw [h.scope fuel node vec parent hgeneric hfits hget] at hends
        obtain ⟨⟨last, hlast⟩, hrest⟩ := ih hends
        refine ⟨⟨last, .step hnext hlast⟩, ?_⟩
        intro scope hscope hscopeGeneric
        rcases Relation.ReflTransGen.cases_head hscope with rfl | ⟨next, hstep, hscope⟩
        · exact hfits
        · rw [hnext] at hstep
          cases hstep
          exact hrest scope hscope hscopeGeneric
    · have hlast : loader.outwards node = none := if_neg hgeneric
      refine ⟨⟨node, .refl hlast⟩, ?_⟩
      intro scope hscope hscopeGeneric
      rcases Relation.ReflTransGen.cases_head hscope with rfl | ⟨next, hstep, -⟩
      · exact absurd hscopeGeneric hgeneric
      · rw [hlast] at hstep
        cases hstep

/-- A walk that is led to its last scope ends there, when every generic one fits. -/
lemma Walks.ends_of_leadsIn (h : Walks loader fits items walk) {n : ℕ}
    (hleads : LeadsIn loader.outwards n node last)
    (hfits : ∀ scope, loader.ComesTo node scope → scope.isGeneric = true → fits scope) (vec : List β) :
    ∃ out, EndsWell out ∧ ∀ fuel, n + 1 ≤ fuel → walk fuel node vec = out := by
  induction hleads generalizing vec with
  | @refl node hlast =>
    by_cases hgeneric : node.isGeneric = true
    · have hmissing := outwards_eq_none_iff.1 hlast hgeneric
      refine ⟨.error (.schema (.missingNode node.scopeId)) (items node ++ vec),
        ⟨_, .inr ⟨_, rfl⟩⟩, fun fuel hfuel => ?_⟩
      obtain ⟨fuel, rfl⟩ := Nat.exists_eq_add_of_le' hfuel
      exact h.missing fuel node vec hgeneric (hfits node .refl hgeneric) hmissing
    · refine ⟨_, ⟨vec, .inl rfl⟩, fun fuel hfuel => ?_⟩
      obtain ⟨fuel, rfl⟩ := Nat.exists_eq_add_of_le' hfuel
      exact h.outermost fuel node vec (Bool.eq_false_of_not_eq_true hgeneric)
  | @step n node parent last hnext _ ih =>
    obtain ⟨hgeneric, hget⟩ := outwards_eq_some_iff.1 hnext
    have hnode := hfits node .refl hgeneric
    obtain ⟨out, hout, hrun⟩ :=
      ih (fun scope hscope => hfits scope (.head hnext hscope)) (items node ++ vec)
    refine ⟨out, hout, fun fuel hfuel => ?_⟩
    obtain ⟨fuel, rfl⟩ : ∃ m, fuel = m + 1 := ⟨fuel - 1, by omega⟩
    rw [h.scope fuel node vec parent hgeneric hnode hget]
    exact hrun fuel (by omega)

/-- A walk ends with a result or an error if and only if it comes to no scope twice, and every
generic one that it comes to fits. -/
lemma Walks.settles_iff (h : Walks loader fits items walk) :
    Settles (fun fuel => walk fuel node) ↔ ¬ Revisits loader.outwards node ∧
      ∀ scope, loader.ComesTo node scope → scope.isGeneric = true → fits scope := by
  rw [← leads_iff_not_revisits_outwards]
  constructor
  · rintro ⟨n, out, hout, hrun⟩
    rw [← hrun n le_rfl] at hout
    exact h.leads_of_endsWell hout
  · rintro ⟨⟨last, hlast⟩, hfits⟩
    obtain ⟨n, hn⟩ := hlast.leadsIn
    obtain ⟨out, hout, hrun⟩ := h.ends_of_leadsIn hn hfits []
    exact ⟨n + 1, out, hout, hrun⟩

end Walks

/-- **Walks over scopes end** with a result or an error if and only if they come to no generic scope
twice, and for the bindings, each generic scope that they come to has as many parameters as the
brand has types for it, if it has any. -/
theorem walks_settle_iff (loader : GenericLoader) (node : GenericNode) (search : BinarySearch)
    (brand : Branding) :
    (Settles (fun fuel => loader.gatherNodeParameters fuel node) ↔ ¬ Revisits loader.outwards node) ∧
    (Settles (fun fuel => loader.gatherNodeBindings search brand fuel node) ↔
      ¬ Revisits loader.outwards node ∧
        ∀ scope, loader.ComesTo node scope → scope.isGeneric = true → Fits search brand scope) := by
  refine ⟨?_, (walks_gatherNodeBindings loader search brand).settles_iff⟩
  rw [(walks_gatherNodeParameters loader).settles_iff]
  exact and_iff_left fun _ _ _ => trivial

/-! ## A scope of its own -/

/-- A generic node that says it is its own scope. -/
def ownScope : GenericNode :=
  { id := 1, displayName := ⟨none⟩, nestedNodes := [], which := .ok .interface, isGeneric := true,
    scopeId := 1, parameters := [] }

def ownScopeLoader : GenericLoader := ⟨[ownScope], by decide⟩

/-- The walk goes around in it for ever. -/
lemma gatherNodeParameters_ownScope (fuel : ℕ) (vec : List Parameter) :
    ownScopeLoader.gatherNodeParameters fuel ownScope vec = .halt .depth := by
  induction fuel generalizing vec with
  | zero => rfl
  | succ fuel ih => exact ih vec

theorem not_walks_settle :
    ¬ ∀ (loader : GenericLoader) (node : GenericNode),
      Settles (fun fuel => loader.gatherNodeParameters fuel node) ∧
      ∀ (search : BinarySearch) (brand : Branding),
        Settles (fun fuel => loader.gatherNodeBindings search brand fuel node) := by
  intro h
  obtain ⟨n, out, hout, hrun⟩ := (h ownScopeLoader ownScope).1
  have hdepth : out = .halt .depth := (hrun n le_rfl).symm.trans (gatherNodeParameters_ownScope n [])
  rw [hdepth] at hout
  exact not_endsWell_halt hout

end Recapn.Codegen

/-
# Stores and footprints

A store has values at its live places.  It grows when places become live and when only values at
a given set of places change.  Of other worlds, such as what a reader sees of a store, it is
enough to know when two of them agree on a set of places: a statement rests on the set, its
footprint, when it holds in every world that agrees there.
-/
import Mathlib.Data.Set.BooleanAlgebra
import Mathlib.Data.Set.Disjoint
import Mathlib.Data.Set.Insert
import Mathlib.Order.CompletePartialOrder

namespace Recapn.Lib

/-! ## Stores that grow -/

/-- Values at places, of which some are live. -/
structure Store (P V : Type) where
  live : Set P
  get : P → V

namespace Store

variable {P V : Type} {F G : Set P} {s t u : Store P V}

/-- What is live stays live, and values only change at places in `F`. -/
structure Grows (F : Set P) (s t : Store P V) : Prop where
  live_subset : s.live ⊆ t.live
  get_eq : ∀ p ∈ s.live, p ∉ F → t.get p = s.get p

/-- The places that became live. -/
def fresh (s t : Store P V) : Set P := t.live \ s.live

lemma Grows.refl (F : Set P) (s : Store P V) : Grows F s s := ⟨fun _ h => h, fun _ _ _ => rfl⟩

lemma Grows.mono (h : Grows F s t) (hsub : F ⊆ G) : Grows G s t :=
  ⟨h.live_subset, fun p hp hG => h.get_eq p hp fun hF => hG (hsub hF)⟩

/-- A store that grows again may change the fresh places of before. -/
lemma Grows.trans (h : Grows F s t) (h' : Grows G t u) (hsub : ∀ p ∈ s.live, p ∈ G → p ∈ F) :
    Grows F s u := by
  constructor
  · intro p hp
    exact h'.live_subset (h.live_subset hp)
  · intro p hp hF
    rw [h'.get_eq p (h.live_subset hp) fun hG => hF (hsub p hp hG), h.get_eq p hp hF]

lemma fresh_subset_left (h : Grows G t u) : fresh s t ⊆ fresh s u :=
  fun _ hp => ⟨h.live_subset hp.1, hp.2⟩

lemma fresh_subset_right (h : Grows F s t) : fresh t u ⊆ fresh s u :=
  fun _ hp => ⟨hp.1, fun hs => hp.2 (h.live_subset hs)⟩

/-- Sets of live places that do not overlap. -/
structure Apart (s : Store P V) (sets : List (Set P)) : Prop where
  subset_live : ∀ A ∈ sets, A ⊆ s.live
  pairwise : sets.Pairwise Disjoint

lemma Apart.grows {sets : List (Set P)} (h : Apart s sets) (hst : s.live ⊆ t.live) :
    Apart t sets :=
  ⟨fun A hA => (h.subset_live A hA).trans hst, h.pairwise⟩

/-- Fresh places do not overlap what was live before. -/
lemma Apart.snoc {sets : List (Set P)} (h : Apart s sets) (hst : s.live ⊆ t.live) {A : Set P}
    (hA : A ⊆ fresh s t) : Apart t (sets ++ [A]) := by
  constructor
  · intro B hB
    rcases List.mem_append.1 hB with hB | hB
    · exact (h.subset_live B hB).trans hst
    · rw [List.mem_singleton.1 hB]
      exact fun p hp => (hA hp).1
  · rw [List.pairwise_append]
    refine ⟨h.pairwise, List.pairwise_singleton _ _, fun B hB C hC => ?_⟩
    rw [List.mem_singleton.1 hC]
    exact Set.disjoint_left.2 fun p hp hpA => (hA hpA).2 (h.subset_live B hB hp)

end Store

/-! ## Footprints -/

/-- Worlds that can agree on a set of places.  One may have more places than the other. -/
class World (P : outParam Type) (W : Type) where
  Agree : Set P → W → W → Prop
  agree_refl : ∀ F w, Agree F w w
  agree_trans : ∀ {F w w' w''}, Agree F w w' → Agree F w' w'' → Agree F w w''
  agree_mono : ∀ {F G w w'}, F ⊆ G → Agree G w w' → Agree F w w'

open World

variable {P W : Type} [World P W] {F G : Set P} {φ ψ : W → Prop} {w w' : W}

/-- The statement holds in every world that agrees on the set. -/
def Rests (F : Set P) (φ : W → Prop) (w : W) : Prop := ∀ w', Agree F w w' → φ w'

namespace Rests

lemma holds (h : Rests F φ w) : φ w := h w (agree_refl F w)

lemma mono (h : Rests F φ w) (hsub : F ⊆ G) : Rests G φ w :=
  fun w' hw' => h w' (agree_mono hsub hw')

/-- A statement rests on its footprint in every world that agrees there. -/
lemma agree (h : Rests F φ w) (hw : Agree F w w') : Rests F φ w' :=
  fun w'' hw'' => h w'' (agree_trans hw hw'')

lemma imp (h : Rests F φ w) (himp : ∀ w, φ w → ψ w) : Rests F ψ w :=
  fun w' hw' => himp w' (h w' hw')

end Rests

end Recapn.Lib

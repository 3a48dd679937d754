/-
# The tables of a connection

A connection keeps its questions and its exports in tables that hand out ids.  `ExportTable` and
`FreeVec` keep their entries in a vector of slots, and the ids of the empty slots in a heap, from
which the least one is taken first.  They differ in their ids: those of an `ExportTable` are 32
bits wide.

To whoever uses it, such a table is a map from ids to values that picks the least id without a
value for each new one.  `tables_refine` says so for all that was ever called on a table.
-/
import Mathlib.Data.Set.Card
import Mathlib.Order.Bounds.Basic
import Recapn.Lib.Prog

namespace Recapn.Rpc

open Recapn.Lib

variable {α : Type}

/-! ## Heaps -/

/-- `BinaryHeap<Reverse<u32>>`, by the keys in it. -/
abbrev BinaryHeap := List ℕ

namespace BinaryHeap

/-- `BinaryHeap::pop`: the least key, as the keys are reversed. -/
def pop (heap : BinaryHeap) : Option (ℕ × BinaryHeap) :=
  heap.min?.map fun key => (key, heap.erase key)

/-- `BinaryHeap::push`. -/
def push (key : ℕ) (heap : BinaryHeap) : BinaryHeap := key :: heap

@[simp] lemma mem_push {key k : ℕ} {heap : BinaryHeap} : k ∈ heap.push key ↔ k = key ∨ k ∈ heap :=
  List.mem_cons

lemma pop_eq_none {heap : BinaryHeap} (h : heap.pop = none) : heap = [] := by
  simpa [pop] using h

lemma pop_eq_some {heap rest : BinaryHeap} {key : ℕ} (h : heap.pop = some (key, rest)) :
    key ∈ heap ∧ (∀ k ∈ heap, key ≤ k) ∧ rest = heap.erase key := by
  simp only [pop, Option.map_eq_some_iff, Prod.mk.injEq] at h
  obtain ⟨m, hm, rfl, rfl⟩ := h
  obtain ⟨hmem, hle⟩ := List.min?_eq_some_iff.mp hm
  exact ⟨hmem, hle, rfl⟩

end BinaryHeap

/-! ## Maps that pick their keys -/

/-- The keys that a map has no value for. -/
def Absent (map : ℕ → Option α) : Set ℕ := {id | map id = none}

/-- What was done to a table: an id was handed out for a value, given back, or written to. -/
inductive Change (α : Type) where
  | pushed (id : ℕ) (value : α)
  | removed (id : ℕ)
  | written (id : ℕ) (write : α → α)

/-- The value last pushed under each id and not removed since, with what was written to it, by
the changes from the last to the first. -/
def held : List (Change α) → ℕ → Option α
  | [] => fun _ => none
  | .pushed id value :: log => Function.update (held log) id (some value)
  | .removed id :: log => Function.update (held log) id none
  | .written id write :: log => Function.update (held log) id ((held log id).map write)

/-! ## Tables -/

/-- The fields of `ExportTable` and of `FreeVec`. -/
structure SlotTable (α : Type) where
  slots : List (Option α)
  freeSlots : BinaryHeap
deriving DecidableEq

namespace SlotTable

/-- `new`. -/
def new : SlotTable α := ⟨[], []⟩

/-- `get`. -/
def get (table : SlotTable α) (id : ℕ) : Option α := table.slots[id]?.bind fun slot => slot

/-- `get_mut`, and a write to what it gives. -/
def getMut (id : ℕ) (write : α → α) (table : SlotTable α) : Option α × SlotTable α :=
  match table.get id with
  | none => (none, table)
  | some value =>
    (some value, { table with slots := table.slots.set id (some (write value)) })

/-- `push`, when the slots are numbered below `limit`. -/
def push (limit : Option ℕ) (value : α) : Prog Empty (SlotTable α) ℕ := do
  let table ← Prog.get
  let slot ← match table.freeSlots.pop with
    | some (slot, rest) => do
      Prog.modify fun table => { table with freeSlots := rest }
      pure slot
    | none => do
      let slot := table.slots.length
      Prog.assert (∀ bound ∈ limit, slot < bound)
      Prog.modify fun table => { table with slots := table.slots ++ [none] }
      pure slot
  let table ← Prog.get
  Prog.assert (slot < table.slots.length)
  Prog.modify fun table => { table with slots := table.slots.set slot (some value) }
  pure slot

/-- `remove`. -/
def remove (id : ℕ) (table : SlotTable α) : Option α × SlotTable α :=
  match table.get id with
  | none => (none, table)
  | some value => (some value, ⟨table.slots.set id none, table.freeSlots.push id⟩)

/-- `FreeVec::len`. -/
def len (table : SlotTable α) : ℕ := table.slots.length - table.freeSlots.length

/-! ### The free slots -/

/-- The heap has the ids of the empty slots, each once. -/
structure Free (limit : Option ℕ) (table : SlotTable α) : Prop where
  nodup : table.freeSlots.Nodup
  mem_iff : ∀ id, id ∈ table.freeSlots ↔ table.slots[id]? = some none
  length_le : ∀ bound ∈ limit, table.slots.length ≤ bound

variable {limit : Option ℕ} {table : SlotTable α} {id : ℕ} {value : α}

lemma get_eq_some : table.get id = some value ↔ table.slots[id]? = some (some value) := by
  rw [get, Option.bind_eq_some_iff]
  exact ⟨fun ⟨slot, hslot, hvalue⟩ => by rw [hslot, hvalue], fun h => ⟨_, h, rfl⟩⟩

lemma get_eq_none :
    table.get id = none ↔ table.slots.length ≤ id ∨ table.slots[id]? = some none := by
  rw [get, ← List.getElem?_eq_none_iff]
  cases table.slots[id]? with
  | none | some slot => simp

/-- One slot is set: the value of its id is another, and of no other id. -/
lemma get_set {slots : List (Option α)} {heap heap' : BinaryHeap} (slot : Option α)
    (hid : id < slots.length) :
    get ⟨slots.set id slot, heap'⟩ = Function.update (get ⟨slots, heap⟩) id slot := by
  funext x
  by_cases hx : x = id
  · subst hx
    simp [get, hid]
  · simp [get, List.getElem?_set_ne (Ne.symm hx), Function.update_of_ne hx]

/-- One more empty slot gives no id a value. -/
lemma get_append {slots : List (Option α)} {heap : BinaryHeap} :
    get ⟨slots ++ [none], heap⟩ = get ⟨slots, heap⟩ := by
  funext x
  simp only [get, List.getElem?_append]
  split
  · rfl
  · rename_i hx
    rw [List.getElem?_eq_none (not_lt.mp hx)]
    cases x - slots.length with
    | zero => rfl
    | succ n => simp

lemma free_new : Free limit (new : SlotTable α) := ⟨List.nodup_nil, by simp [new], by simp [new]⟩

/-- The least id without a value is the least in the heap. -/
lemma Free.isLeast_pop (h : Free limit table) {rest : BinaryHeap}
    (hpop : table.freeSlots.pop = some (id, rest)) :
    IsLeast (Absent table.get) id ∧ id < table.slots.length := by
  obtain ⟨hmem, hle, -⟩ := BinaryHeap.pop_eq_some hpop
  have hslot := (h.mem_iff id).mp hmem
  have hlt : id < table.slots.length := (List.getElem?_eq_some_iff.mp hslot).1
  refine ⟨⟨get_eq_none.mpr (Or.inr hslot), fun x hx => ?_⟩, hlt⟩
  rcases get_eq_none.mp hx with hx | hx
  · omega
  · exact hle x ((h.mem_iff x).mpr hx)

/-- When the heap is empty, all slots are taken. -/
lemma Free.get_ne_none (h : Free limit table) (hpop : table.freeSlots.pop = none)
    (hid : id < table.slots.length) : table.get id ≠ none := by
  intro hnone
  rcases get_eq_none.mp hnone with hle | hslot
  · omega
  · have := (h.mem_iff id).mpr hslot
    simp [BinaryHeap.pop_eq_none hpop] at this

/-- The first free slot is taken from the heap. -/
lemma Free.take (h : Free limit table) {rest : BinaryHeap}
    (hpop : table.freeSlots.pop = some (id, rest)) :
    Free limit ⟨table.slots.set id (some value), rest⟩ where
  nodup := by
    obtain ⟨-, -, rfl⟩ := BinaryHeap.pop_eq_some hpop
    exact h.nodup.erase id
  mem_iff x := by
    obtain ⟨-, -, rfl⟩ := BinaryHeap.pop_eq_some hpop
    have hlt := (h.isLeast_pop hpop).2
    rw [h.nodup.mem_erase_iff, h.mem_iff]
    by_cases hx : x = id
    · subst hx
      simp [hlt]
    · simp [hx, List.getElem?_set_ne (Ne.symm hx)]
  length_le := by simpa using h.length_le

/-- A slot is put behind the others. -/
lemma Free.snoc (h : Free limit table) (hlimit : ∀ bound ∈ limit, table.slots.length < bound) :
    Free limit ⟨table.slots ++ [some value], table.freeSlots⟩ where
  nodup := h.nodup
  mem_iff x := by
    rw [h.mem_iff]
    simp only [List.getElem?_append]
    split
    · rfl
    · rename_i hx
      rw [List.getElem?_eq_none (not_lt.mp hx)]
      cases x - table.slots.length with
      | zero | succ n => simp
  length_le bound hbound := by
    have := hlimit bound hbound
    simp only [List.length_append, List.length_cons, List.length_nil]
    omega

/-- A slot is emptied. -/
lemma Free.giveBack (h : Free limit table) (hid : table.get id = some value) :
    Free limit ⟨table.slots.set id none, table.freeSlots.push id⟩ where
  nodup := by
    refine List.nodup_cons.mpr ⟨fun hmem => ?_, h.nodup⟩
    have := (h.mem_iff id).mp hmem
    simp [get_eq_some.mp hid] at this
  mem_iff x := by
    have hlt : id < table.slots.length :=
      (List.getElem?_eq_some_iff.mp (get_eq_some.mp hid)).1
    rw [BinaryHeap.mem_push, h.mem_iff]
    by_cases hx : x = id
    · subst hx
      simp [hlt]
    · simp [hx, List.getElem?_set_ne (Ne.symm hx)]
  length_le := by simpa using h.length_le

/-- A value is replaced. -/
lemma Free.replace (h : Free limit table) (hid : table.get id = some value) (value' : α) :
    Free limit ⟨table.slots.set id (some value'), table.freeSlots⟩ where
  nodup := h.nodup
  mem_iff x := by
    have hslot := get_eq_some.mp hid
    have hlt : id < table.slots.length := (List.getElem?_eq_some_iff.mp hslot).1
    rw [h.mem_iff]
    by_cases hx : x = id
    · subst hx
      rw [hslot, List.getElem?_set_self hlt]
      simp
    · rw [List.getElem?_set_ne (Ne.symm hx)]
  length_le := by simpa using h.length_le

/-- The slots that are not in the heap are those of the ids with a value. -/
lemma Free.len_eq (h : Free limit table) : table.len = Set.ncard {id | table.get id ≠ none} := by
  have hsub : table.freeSlots.toFinset ⊆ Finset.range table.slots.length := fun x hx => by
    have hslot := (h.mem_iff x).mp (List.mem_toFinset.mp hx)
    exact Finset.mem_range.mpr (List.getElem?_eq_some_iff.mp hslot).1
  have hlive : {id | table.get id ≠ none} =
      ↑(Finset.range table.slots.length \ table.freeSlots.toFinset) := by
    ext x
    have hnone := @get_eq_none _ table x
    have hmem := h.mem_iff x
    simp only [Set.mem_ofPred_eq, Finset.coe_sdiff, Set.mem_sdiff, Finset.mem_coe,
      Finset.mem_range, List.mem_toFinset, ne_eq, hnone, hmem, not_or, not_le]
  rw [hlive, Set.ncard_coe_finset, Finset.card_sdiff_of_subset hsub, Finset.card_range,
    List.toFinset_card_of_nodup h.nodup, len]

/-! ### What a table does -/

/-- What a table with these ids does when its values are those of the map. -/
structure Refines (limit : Option ℕ) (table : SlotTable α) (map : ℕ → Option α) : Prop where
  get : ∀ id, table.get id = map id
  /-- The least id without a value is picked, unless there is none. -/
  push : ∀ value,
    (∃ id table', push limit value table = .ok id table' ∧ IsLeast (Absent map) id ∧
      (∀ bound ∈ limit, id < bound) ∧ table'.get = Function.update map id (some value)) ∨
    push limit value table = .halt .panic ∧ ∃ bound ∈ limit, ∀ id < bound, map id ≠ none
  remove : ∀ id, (table.remove id).1 = map id ∧
    (table.remove id).2.get = Function.update map id none
  remove_absent : ∀ id, map id = none → table.remove id = (none, table)
  getMut : ∀ id write, (table.getMut id write).1 = map id ∧
    (table.getMut id write).2.get = Function.update map id ((map id).map write)
  nodup : table.freeSlots.Nodup
  mem_freeSlots : ∀ id, id ∈ table.freeSlots ↔ table.slots[id]? = some none
  len : table.len = Set.ncard {id | map id ≠ none}

/-- `push` takes the least id without a value, unless all are taken. -/
lemma Free.push (h : Free limit table) (value : α) :
    (∃ id table', push limit value table = .ok id table' ∧ IsLeast (Absent table.get) id ∧
      (∀ bound ∈ limit, id < bound) ∧ table'.get = Function.update table.get id (some value) ∧
      Free limit table') ∨
    push limit value table = .halt .panic ∧ ∃ bound ∈ limit, ∀ id < bound, table.get id ≠ none := by
  cases hpop : table.freeSlots.pop with
  | some taken =>
    obtain ⟨id, rest⟩ := taken
    obtain ⟨hleast, hlt⟩ := h.isLeast_pop hpop
    refine Or.inl ⟨id, ⟨table.slots.set id (some value), rest⟩, ?_, hleast, fun bound hbound => ?_,
      get_set _ hlt, h.take hpop⟩
    · simp [SlotTable.push, Prog.bind_apply, hpop, Prog.assert_of hlt]
    · exact lt_of_lt_of_le hlt (h.length_le bound hbound)
  | none =>
    have hfull := fun id hid => @Free.get_ne_none _ _ _ id h hpop hid
    by_cases hlimit : ∀ bound ∈ limit, table.slots.length < bound
    · have hfree : table.get table.slots.length = none := get_eq_none.mpr (Or.inl (le_refl _))
      refine Or.inl ⟨table.slots.length, ⟨table.slots ++ [some value], table.freeSlots⟩, ?_,
        ⟨hfree, fun x hx => ?_⟩, hlimit, ?_, h.snoc hlimit⟩
      · have hlt : table.slots.length < (table.slots ++ [none]).length := by simp
        simp only [SlotTable.push, Prog.bind_apply, Prog.get_apply, hpop, Prog.assert_of hlimit,
          Prog.pure_apply, Prog.modify_apply, Prog.assert_of hlt]
        simp
      · exact not_lt.mp fun hlt => hfull x hlt hx
      · have hset : table.slots ++ [some value] =
            (table.slots ++ [none]).set table.slots.length (some value) := by simp
        rw [hset, @get_set _ _ _ table.freeSlots _ (some value) (by simp), get_append]
    · refine Or.inr ⟨?_, ?_⟩
      · simp only [SlotTable.push, Prog.bind_apply, Prog.get_apply, hpop, Prog.assert,
          if_neg hlimit, Prog.halt_apply]
      · push Not at hlimit
        obtain ⟨bound, hbound, hle⟩ := hlimit
        exact ⟨bound, hbound, fun id hid => hfull id (lt_of_lt_of_le hid hle)⟩

/-- `remove` gives the value of the id back, and the id to the heap. -/
lemma Free.remove (h : Free limit table) (id : ℕ) :
    (table.remove id).1 = table.get id ∧
      (table.remove id).2.get = Function.update table.get id none ∧
      Free limit (table.remove id).2 := by
  unfold SlotTable.remove
  cases hget : table.get id with
  | none => exact ⟨rfl, (Function.update_eq_self_iff.mpr hget.symm).symm, h⟩
  | some value =>
    have hlt := (List.getElem?_eq_some_iff.mp (get_eq_some.mp hget)).1
    exact ⟨rfl, get_set none hlt, h.giveBack hget⟩

/-- `get_mut` gives the value of the id to write to. -/
lemma Free.getMut (h : Free limit table) (id : ℕ) (write : α → α) :
    (table.getMut id write).1 = table.get id ∧
      (table.getMut id write).2.get =
        Function.update table.get id ((table.get id).map write) ∧
      Free limit (table.getMut id write).2 := by
  unfold SlotTable.getMut
  cases hget : table.get id with
  | none => exact ⟨rfl, (Function.update_eq_self_iff.mpr hget.symm).symm, h⟩
  | some value =>
    have hlt := (List.getElem?_eq_some_iff.mp (get_eq_some.mp hget)).1
    exact ⟨rfl, get_set _ hlt, h.replace hget _⟩

/-- A table whose heap is in order does what a map does. -/
lemma Free.refines (h : Free limit table) : Refines limit table table.get where
  get _ := rfl
  push value := by
    rcases h.push value with ⟨id, table', hrun, hleast, hlt, hget, -⟩ | hpanic
    · exact Or.inl ⟨id, table', hrun, hleast, hlt, hget⟩
    · exact Or.inr hpanic
  remove id := ⟨(h.remove id).1, (h.remove id).2.1⟩
  remove_absent id hid := by rw [SlotTable.remove, hid]
  getMut id write := ⟨(h.getMut id write).1, (h.getMut id write).2.1⟩
  nodup := h.nodup
  mem_freeSlots := h.mem_iff
  len := h.len_eq

/-! ### All that is called on a table -/

/-- A call on a table. -/
inductive Call (α : Type) where
  | push (value : α)
  | remove (id : ℕ)
  | get (id : ℕ)
  | getMut (id : ℕ) (write : α → α)

/-- Make a call.  What it did is noted. -/
def call (limit : Option ℕ) : Call α → Prog Empty (SlotTable α) (List (Change α))
  | .push value => do
    let id ← SlotTable.push limit value
    pure [.pushed id value]
  | .remove id => do
    Prog.modify fun table => (table.remove id).2
    pure [.removed id]
  | .get _ => pure []
  | .getMut id write => do
    Prog.modify fun table => (table.getMut id write).2
    pure [.written id write]

/-- The tables that calls lead to, with what they did, the last first. -/
inductive Reached (limit : Option ℕ) : SlotTable α → List (Change α) → Prop
  | new : Reached limit new []
  | call {table table' : SlotTable α} {log changes : List (Change α)} (c : Call α)
      (h : Reached limit table log) (hcall : call limit c table = .ok changes table') :
      Reached limit table' (changes ++ log)

/-- A call keeps the heap in order, and the table has the values that the changes say. -/
lemma Free.call (h : Free limit table) {log changes : List (Change α)} {table' : SlotTable α}
    {c : Call α} (hget : table.get = held log) (hcall : call limit c table = .ok changes table') :
    Free limit table' ∧ table'.get = held (changes ++ log) := by
  cases c with
  | push value =>
    simp only [SlotTable.call, Prog.bind_eq_ok, Prog.pure_eq_ok] at hcall
    obtain ⟨id, t, hpush, rfl, rfl⟩ := hcall
    rcases h.push value with ⟨id', t', hrun, -, -, hget', hfree⟩ | ⟨hpanic, -⟩
    · obtain ⟨rfl, rfl⟩ : id' = id ∧ t' = t := by simpa [hrun] using hpush
      exact ⟨hfree, by rw [hget', hget]; rfl⟩
    · simp [hpanic] at hpush
  | remove id =>
    simp only [SlotTable.call, Prog.bind_apply, Prog.modify_apply, Prog.pure_apply,
      Outcome.ok.injEq] at hcall
    obtain ⟨rfl, rfl⟩ := hcall
    obtain ⟨-, hget', hfree⟩ := h.remove id
    exact ⟨hfree, by rw [hget', hget]; rfl⟩
  | get id =>
    simp only [SlotTable.call, Prog.pure_apply, Outcome.ok.injEq] at hcall
    obtain ⟨rfl, rfl⟩ := hcall
    exact ⟨h, hget⟩
  | getMut id write =>
    simp only [SlotTable.call, Prog.bind_apply, Prog.modify_apply, Prog.pure_apply,
      Outcome.ok.injEq] at hcall
    obtain ⟨rfl, rfl⟩ := hcall
    obtain ⟨-, hget', hfree⟩ := h.getMut id write
    exact ⟨hfree, by rw [hget', hget]; rfl⟩

/-- Whatever is called on a table keeps its heap in order. -/
lemma Reached.free {log : List (Change α)} (h : Reached limit table log) :
    Free limit table ∧ table.get = held log := by
  induction h with
  | new => exact ⟨free_new, by funext id; simp [SlotTable.get, SlotTable.new, held]⟩
  | call c _ hcall ih => exact ih.1.call ih.2 hcall

end SlotTable

/-! ## The two kinds of tables -/

namespace ExportTable

/-- The ids of an `ExportTable` are of type `u32`. -/
def limit : Option ℕ := some (2 ^ 32)

/-- `ExportTable::push`. -/
def push (value : α) : Prog Empty (SlotTable α) ℕ := SlotTable.push limit value

end ExportTable

namespace FreeVec

/-- The ids of a `FreeVec` are the indices of a vector. -/
def limit : Option ℕ := none

/-- `FreeVec::push`. -/
def push (value : α) : Prog Empty (SlotTable α) ℕ := SlotTable.push limit value

end FreeVec

/-- Whatever is called on an `ExportTable` or on a `FreeVec`, it is a map from ids to values that
picks the least free id for a new value. -/
theorem tables_refine (table : SlotTable α) (log : List (Change α)) :
    (SlotTable.Reached ExportTable.limit table log →
      SlotTable.Refines ExportTable.limit table (held log)) ∧
    (SlotTable.Reached FreeVec.limit table log →
      SlotTable.Refines FreeVec.limit table (held log)) := by
  constructor <;> intro h
  · exact h.free.2 ▸ h.free.1.refines
  · exact h.free.2 ▸ h.free.1.refines

/-- Two entries, the first taken back: its id is the next one. -/
theorem tables_refine_pushed_removed :
    SlotTable.Refines ExportTable.limit ⟨[none, some 8], [0]⟩
      (held [.removed 0, .pushed 1 8, .pushed 0 7]) ∧
    SlotTable.Refines FreeVec.limit ⟨[none, some 8], [0]⟩
      (held [.removed 0, .pushed 1 8, .pushed 0 7]) := by
  constructor
  · have h₁ := @SlotTable.Reached.call ℕ ExportTable.limit _ ⟨[some 7], []⟩ _ [.pushed 0 7]
      (.push 7) .new rfl
    have h₂ := @SlotTable.Reached.call _ _ _ ⟨[some 7, some 8], []⟩ _ [.pushed 1 8]
      (.push 8) h₁ rfl
    exact (tables_refine _ _).1 (@SlotTable.Reached.call _ _ _ _ _ [.removed 0] (.remove 0) h₂ rfl)
  · have h₁ := @SlotTable.Reached.call ℕ FreeVec.limit _ ⟨[some 7], []⟩ _ [.pushed 0 7]
      (.push 7) .new rfl
    have h₂ := @SlotTable.Reached.call _ _ _ ⟨[some 7, some 8], []⟩ _ [.pushed 1 8]
      (.push 8) h₁ rfl
    exact (tables_refine _ _).2 (@SlotTable.Reached.call _ _ _ _ _ [.removed 0] (.remove 0) h₂ rfl)

end Recapn.Rpc

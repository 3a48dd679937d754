/-
# Sequences of intrusive lists

Any number of lists and guarded lists share their nodes: a node is in one of them, or it guards
one, or it is free.  Every call on a list does to its sequence of nodes what one expects, leaves
the others alone, and a node that is free afterwards has no links.
-/
import Recapn.Channel.LinkedList

namespace Recapn.Channel.Intrusive

open Recapn.Lib Recapn.Lib.Prog

/-- The pointers of all nodes, the lists, and the guarded lists. -/
structure Lists (ι : Type) where
  pointers : ι → Links ι
  lists : ℕ → LinkedList ι
  guarded : ℕ → Option (GuardedLinkedList ι)

/-- A call on a list.  A node is put into a list that is not in any, and a list becomes a guarded one
under a number of its own. -/
inductive Op (ι : Type) where
  | pushFront (i : ℕ) (node : ι)
  | pushBack (i : ℕ) (node : ι)
  | popFront (i : ℕ)
  | popBack (i : ℕ)
  | remove (i : ℕ) (node : ι)
  | appendBack (i j : ℕ)
  | intoGuarded (i : ℕ) (guard : ι) (k : ℕ)
  | popGuarded (k : ℕ)

namespace Lists

variable {ι : Type}

/-- Empty lists of nodes that were not linked yet. -/
def new : Lists ι := ⟨fun _ => .none, fun _ => .new, fun _ => none⟩

def setPointers (w : Lists ι) (h : ι → Links ι) : Lists ι := { w with pointers := h }

def setList (w : Lists ι) (i : ℕ) (l : LinkedList ι) : Lists ι :=
  { w with lists := Function.update w.lists i l }

def setGuarded (w : Lists ι) (k : ℕ) (l : GuardedLinkedList ι) : Lists ι :=
  { w with guarded := Function.update w.guarded k (some l) }

end Lists

/-- Programs on the lists. -/
abbrev ListsM (ι : Type) := Prog Empty (Lists ι)

section Calls

variable {ι : Type}

/-- A program on the pointers. -/
def onPointers {α : Type} (x : PointersM ι α) : ListsM ι α := Prog.zoom Lists.pointers Lists.setPointers x

variable [DecidableEq ι]

/-- A call, and the node that it returns. -/
def Op.run : Op ι → ListsM ι (Option ι)
  | .pushFront i node => do
    let w ← Prog.get
    let self ← onPointers ((w.lists i).pushFront node)
    Prog.modify fun w => w.setList i self
    pure none
  | .pushBack i node => do
    let w ← Prog.get
    let self ← onPointers ((w.lists i).pushBack node)
    Prog.modify fun w => w.setList i self
    pure none
  | .popFront i => do
    let w ← Prog.get
    let (node, self) ← onPointers (w.lists i).popFront
    Prog.modify fun w => w.setList i self
    pure node
  | .popBack i => do
    let w ← Prog.get
    let (node, self) ← onPointers (w.lists i).popBack
    Prog.modify fun w => w.setList i self
    pure node
  | .remove i node => do
    let w ← Prog.get
    let (node, self) ← onPointers ((w.lists i).remove node)
    Prog.modify fun w => w.setList i self
    pure node
  | .appendBack i j => do
    let w ← Prog.get
    let (self, other) ← onPointers ((w.lists i).appendBack (w.lists j))
    Prog.modify fun w => (w.setList i self).setList j other
    pure none
  | .intoGuarded i guard k => do
    let w ← Prog.get
    let guarded ← onPointers ((w.lists i).intoGuarded guard)
    -- the list is moved, and another one is in its place
    Prog.modify fun w => (w.setList i .new).setGuarded k guarded
    pure none
  | .popGuarded k => do
    let w ← Prog.get
    match w.guarded k with
    | none => pure none
    | some guarded => onPointers guarded.popBack

/-- The calls one after the other. -/
def runAll : List (Op ι) → ListsM ι (List (Option ι))
  | [] => pure []
  | op :: ops => do
    let node ← op.run
    let nodes ← runAll ops
    pure (node :: nodes)

end Calls

/-! ## What they are to do -/

/-- The sequences of the lists, and of the guarded lists with their guards. -/
structure Sequences (ι : Type) where
  lists : ℕ → List ι
  guarded : ℕ → Option (ι × List ι)

/-- A list, or a guarded list. -/
abbrev Place := ℕ ⊕ ℕ

namespace Sequences

variable {ι : Type}

def new : Sequences ι := ⟨fun _ => [], fun _ => none⟩

/-- The nodes that are at a place. -/
def nodes (s : Sequences ι) : Place → List ι
  | .inl i => s.lists i
  | .inr k => (s.guarded k).elim [] fun e => e.1 :: e.2

/-- The node is at no place. -/
def Free (s : Sequences ι) (node : ι) : Prop := ∀ p, node ∉ s.nodes p

def setList (s : Sequences ι) (i : ℕ) (xs : List ι) : Sequences ι :=
  { s with lists := Function.update s.lists i xs }

def setGuarded (s : Sequences ι) (k : ℕ) (g : ι) (xs : List ι) : Sequences ι :=
  { s with guarded := Function.update s.guarded k (some (g, xs)) }

@[simp] lemma lists_setList_self (s : Sequences ι) (i : ℕ) (xs : List ι) : (s.setList i xs).lists i = xs :=
  Function.update_self _ _ _

lemma nodes_setList (s : Sequences ι) (i : ℕ) (xs : List ι) :
    (s.setList i xs).nodes = Function.update s.nodes (.inl i) xs := by
  funext p
  rcases p with j | k
  · by_cases hj : j = i
    · subst hj
      simp [nodes, setList]
    · simp [nodes, setList, hj]
  · simp [nodes, setList]

lemma nodes_setGuarded (s : Sequences ι) (k : ℕ) (g : ι) (xs : List ι) :
    (s.setGuarded k g xs).nodes = Function.update s.nodes (.inr k) (g :: xs) := by
  funext p
  rcases p with i | j
  · simp [nodes, setGuarded]
  · by_cases hj : j = k
    · subst hj
      simp [nodes, setGuarded]
    · simp [nodes, setGuarded, hj]

end Sequences

/-- What a call does to the sequences, and the node that it returns.  A node that is put into a list
is free before; one that is to be taken out is in the list, or free, or in a guarded list. -/
inductive Does {ι : Type} (s : Sequences ι) : Op ι → Option ι → Sequences ι → Prop
  | pushFront {i : ℕ} {node : ι} (hfree : s.Free node) :
      Does s (.pushFront i node) none (s.setList i (node :: s.lists i))
  | pushBack {i : ℕ} {node : ι} (hfree : s.Free node) :
      Does s (.pushBack i node) none (s.setList i (s.lists i ++ [node]))
  | popFrontEmpty {i : ℕ} (h : s.lists i = []) : Does s (.popFront i) none s
  | popFront {i : ℕ} {node : ι} {xs : List ι} (h : s.lists i = node :: xs) :
      Does s (.popFront i) (some node) (s.setList i xs)
  | popBackEmpty {i : ℕ} (h : s.lists i = []) : Does s (.popBack i) none s
  | popBack {i : ℕ} {node : ι} {xs : List ι} (h : s.lists i = xs ++ [node]) :
      Does s (.popBack i) (some node) (s.setList i xs)
  | remove {i : ℕ} {node : ι} {xs ys : List ι} (h : s.lists i = xs ++ node :: ys) :
      Does s (.remove i node) (some node) (s.setList i (xs ++ ys))
  | removeFree {i : ℕ} {node : ι} (hfree : s.Free node) : Does s (.remove i node) none s
  | removeGuarded {i k : ℕ} {node g : ι} {xs ys : List ι} (h : s.guarded k = some (g, xs ++ node :: ys)) :
      Does s (.remove i node) (some node) (s.setGuarded k g (xs ++ ys))
  | appendBack {i j : ℕ} (h : i ≠ j) :
      Does s (.appendBack i j) none ((s.setList i (s.lists i ++ s.lists j)).setList j [])
  | intoGuarded {i k : ℕ} {guard : ι} (hfree : s.Free guard) (h : s.guarded k = none) :
      Does s (.intoGuarded i guard k) none ((s.setList i []).setGuarded k guard (s.lists i))
  | popGuardedEmpty {k : ℕ} {g : ι} (h : s.guarded k = some (g, [])) : Does s (.popGuarded k) none s
  | popGuarded {k : ℕ} {node g : ι} {xs : List ι} (h : s.guarded k = some (g, xs ++ [node])) :
      Does s (.popGuarded k) (some node) (s.setGuarded k g xs)

/-- What calls do one after the other. -/
inductive DoesAll {ι : Type} : Sequences ι → List (Op ι) → List (Option ι) → Sequences ι → Prop
  | nil {s : Sequences ι} : DoesAll s [] [] s
  | cons {s s' s'' : Sequences ι} {op : Op ι} {ops : List (Op ι)} {node : Option ι} {nodes : List (Option ι)}
      (h : Does s op node s') (hrest : DoesAll s' ops nodes s'') :
      DoesAll s (op :: ops) (node :: nodes) s''

/-- The contract of a call: a node to be put in is in no list, and one to be taken out is in this list,
in none, or in a guarded one. -/
def Op.Allowed {ι : Type} (s : Sequences ι) : Op ι → Prop
  | .pushFront _ node | .pushBack _ node => s.Free node
  | .popFront _ | .popBack _ => True
  | .remove i node => node ∈ s.lists i ∨ s.Free node ∨ ∃ k, ∃ e ∈ s.guarded k, node ∈ e.2
  | .appendBack i j => i ≠ j
  | .intoGuarded _ guard k => s.Free guard ∧ s.guarded k = none
  | .popGuarded k => (s.guarded k).isSome

/-- Every call whose contract is kept has something to do. -/
lemma Op.Allowed.exists_does {ι : Type} {s : Sequences ι} {op : Op ι} (h : op.Allowed s) :
    ∃ result s', Does s op result s' := by
  cases op with
  | pushFront i node => exact ⟨_, _, .pushFront h⟩
  | pushBack i node => exact ⟨_, _, .pushBack h⟩
  | popFront i =>
    cases hs : s.lists i with
    | nil => exact ⟨_, _, .popFrontEmpty hs⟩
    | cons x xs => exact ⟨_, _, .popFront hs⟩
  | popBack i =>
    rcases List.eq_nil_or_concat' (s.lists i) with hs | ⟨xs, x, hs⟩
    · exact ⟨_, _, .popBackEmpty hs⟩
    · exact ⟨_, _, .popBack hs⟩
  | remove i node =>
    rcases h with hmem | hfree | ⟨k, ⟨g, zs⟩, hk, hmem⟩
    · obtain ⟨xs, ys, hs⟩ := List.append_of_mem hmem
      exact ⟨_, _, .remove hs⟩
    · exact ⟨_, _, .removeFree hfree⟩
    · obtain ⟨xs, ys, rfl⟩ := List.append_of_mem hmem
      exact ⟨_, _, .removeGuarded hk⟩
  | appendBack i j => exact ⟨_, _, .appendBack h⟩
  | intoGuarded i guard k => exact ⟨_, _, .intoGuarded h.1 h.2⟩
  | popGuarded k =>
    obtain ⟨⟨g, zs⟩, hk⟩ := Option.isSome_iff_exists.1 h
    rcases List.eq_nil_or_concat' zs with rfl | ⟨xs, x, rfl⟩
    · exact ⟨_, _, .popGuardedEmpty hk⟩
    · exact ⟨_, _, .popGuarded hk⟩

/-! ## The lists are the sequences -/

section Represents

variable {ι : Type} {w w' : Lists ι} {s s' : Sequences ι} {owner : ι → Option Place}

/-- The list at the place is its sequence. -/
def HoldsAt (w : Lists ι) (s : Sequences ι) : Place → Prop
  | .inl i => LinkedList.Holds w.pointers (w.lists i) (s.lists i)
  | .inr k => w.guarded k = (s.guarded k).map (fun e => ⟨e.1⟩) ∧
      ∀ e ∈ s.guarded k, GuardedLinkedList.Holds w.pointers ⟨e.1⟩ e.2

/-- Every list is its sequence.  A node is at the place of its owner, and has no links without one. -/
structure Represents (w : Lists ι) (s : Sequences ι) (owner : ι → Option Place) : Prop where
  holds : ∀ p, HoldsAt w s p
  owned : ∀ p node, node ∈ s.nodes p ↔ owner node = some p
  free : ∀ node, owner node = none → w.pointers node = .none

lemma represents_new : Represents (.new : Lists ι) .new fun _ => none where
  holds p := by
    rcases p with i | k
    · exact LinkedList.holds_new
    · exact ⟨rfl, nofun⟩
  owned p node := by
    refine iff_of_false ?_ nofun
    rcases p with i | k
    · exact List.not_mem_nil
    · exact List.not_mem_nil
  free _ _ := rfl

lemma Represents.owner_eq_none (hr : Represents w s owner) {node : ι} (hfree : s.Free node) :
    owner node = none := by
  by_contra hsome
  obtain ⟨p, hp⟩ := Option.ne_none_iff_exists'.1 hsome
  exact hfree p ((hr.owned p node).2 hp)

/-- Nodes are at one place only. -/
lemma Represents.eq_of_mem (hr : Represents w s owner) {p q : Place} {node : ι} (hp : node ∈ s.nodes p)
    (hq : node ∈ s.nodes q) : p = q :=
  Option.some.inj (((hr.owned p node).1 hp).symm.trans ((hr.owned q node).1 hq))

/-- A list that was not touched is what it was. -/
lemma HoldsAt.congr {p : Place} (h : HoldsAt w s p)
    (hlists : ∀ i, p = .inl i → w'.lists i = w.lists i ∧ s'.lists i = s.lists i)
    (hguarded : ∀ k, p = .inr k → w'.guarded k = w.guarded k ∧ s'.guarded k = s.guarded k)
    (hframe : ∀ node ∈ s.nodes p, w'.pointers node = w.pointers node) : HoldsAt w' s' p := by
  rcases p with i | k
  · obtain ⟨hw, hs⟩ := hlists i rfl
    show LinkedList.Holds w'.pointers (w'.lists i) (s'.lists i)
    rw [hw, hs]
    exact LinkedList.Holds.congr h hframe
  · obtain ⟨hw, hs⟩ := hguarded k rfl
    refine ⟨?_, fun e he => ?_⟩
    · rw [hw, hs]
      exact h.1
    · rw [hs] at he
      refine (h.2 e he).congr fun node hnode => hframe node ?_
      have hnodes : s.nodes (.inr k) = e.1 :: e.2 := by
        rw [Sequences.nodes, Option.mem_def.1 he]
        rfl
      rw [hnodes]
      exact hnode

/-- One list has another sequence now.  The nodes of the others are left alone. -/
lemma Represents.setList (hr : Represents w s owner) {i : ℕ} {l : LinkedList ι} {h' : ι → Links ι} {xs : List ι}
    {owner' : ι → Option Place} (hl : LinkedList.Holds h' l xs)
    (hframe : ∀ node, owner node ≠ some (.inl i) → owner node ≠ none → h' node = w.pointers node)
    (howner : ∀ node, owner' node = some (.inl i) ↔ node ∈ xs)
    (hother : ∀ node p, p ≠ .inl i → (owner' node = some p ↔ owner node = some p))
    (hfree : ∀ node, owner' node = none → h' node = .none) :
    Represents ((w.setPointers h').setList i l) (s.setList i xs) owner' where
  holds p := by
    by_cases hp : p = .inl i
    · subst hp
      show LinkedList.Holds h' (Function.update w.lists i l i) (Function.update s.lists i xs i)
      rw [Function.update_self, Function.update_self]
      exact hl
    · refine (hr.holds p).congr (fun j hj => ?_) (fun k _ => ⟨rfl, rfl⟩) fun node hnode => ?_
      · subst hj
        have hne : j ≠ i := fun heq => hp (congrArg Sum.inl heq)
        exact ⟨Function.update_of_ne hne _ _, Function.update_of_ne hne _ _⟩
      · have howned := (hr.owned p node).1 hnode
        refine hframe node ?_ ?_
        · rw [howned]
          exact fun heq => hp (Option.some.inj heq)
        · rw [howned]
          nofun
  owned p node := by
    rw [Sequences.nodes_setList]
    by_cases hp : p = .inl i
    · subst hp
      rw [Function.update_self, howner]
    · rw [Function.update_of_ne hp, hr.owned, hother node p hp]
  free := hfree

/-- The same of a guarded list. -/
lemma Represents.setGuarded (hr : Represents w s owner) {k : ℕ} {g : ι} {h' : ι → Links ι} {xs : List ι}
    {owner' : ι → Option Place} (hl : GuardedLinkedList.Holds h' ⟨g⟩ xs)
    (hframe : ∀ node, owner node ≠ some (.inr k) → owner node ≠ none → h' node = w.pointers node)
    (howner : ∀ node, owner' node = some (.inr k) ↔ node ∈ g :: xs)
    (hother : ∀ node p, p ≠ .inr k → (owner' node = some p ↔ owner node = some p))
    (hfree : ∀ node, owner' node = none → h' node = .none) :
    Represents ((w.setPointers h').setGuarded k ⟨g⟩) (s.setGuarded k g xs) owner' where
  holds p := by
    by_cases hp : p = .inr k
    · subst hp
      refine ⟨?_, fun e he => ?_⟩
      · show Function.update w.guarded k _ k = (Function.update s.guarded k _ k).map _
        rw [Function.update_self, Function.update_self]
        rfl
      · have heq : Function.update s.guarded k (some (g, xs)) k = some e := he
        rw [Function.update_self] at heq
        cases heq
        exact hl
    · refine (hr.holds p).congr (fun i _ => ⟨rfl, rfl⟩) (fun j hj => ?_) fun node hnode => ?_
      · subst hj
        have hne : j ≠ k := fun heq => hp (congrArg Sum.inr heq)
        exact ⟨Function.update_of_ne hne _ _, Function.update_of_ne hne _ _⟩
      · have howned := (hr.owned p node).1 hnode
        refine hframe node ?_ ?_
        · rw [howned]
          exact fun heq => hp (Option.some.inj heq)
        · rw [howned]
          nofun
  owned p node := by
    rw [Sequences.nodes_setGuarded]
    by_cases hp : p = .inr k
    · subst hp
      rw [Function.update_self, howner]
    · rw [Function.update_of_ne hp, hr.owned, hother node p hp]
  free := hfree

variable {i : ℕ} {l : LinkedList ι} {h' : ι → Links ι} {node : ι} {xs ys : List ι}

lemma onPointers_of_ok {α : Type} {x : PointersM ι α} {a : α} (h : x w.pointers = .ok a h') :
    onPointers x w = .ok a (w.setPointers h') := by
  simp [onPointers, Prog.zoom, h]

lemma setList_self (w : Lists ι) (i : ℕ) : w.setList i (w.lists i) = w := by
  simp [Lists.setList]

lemma setGuarded_self {k : ℕ} {l : GuardedLinkedList ι} (h : w.guarded k = some l) : w.setGuarded k l = w := by
  rw [Lists.setGuarded, ← h, Function.update_eq_self]

lemma mem_middle {n : ι} : n ∈ xs ++ node :: ys ↔ n = node ∨ n ∈ xs ++ ys := by
  simp only [List.mem_append, List.mem_cons]
  tauto

/-- One list is put behind another. -/
lemma Represents.append (hr : Represents w s owner) {j : ℕ} (hij : i ≠ j)
    (hl : LinkedList.Holds h' l (s.lists i ++ s.lists j))
    (hframe : ∀ n ∉ s.lists i ++ s.lists j, h' n = w.pointers n) :
    ∃ owner', Represents (((w.setPointers h').setList i l).setList j .new)
      ((s.setList i (s.lists i ++ s.lists j)).setList j []) owner' := by
  have howned (k : ℕ) (n : ι) : n ∈ s.lists k ↔ owner n = some (.inl k) := hr.owned (.inl k) n
  have hout {n : ι} (hi : owner n ≠ some (.inl i)) (hj : owner n ≠ some (.inl j)) :
      h' n = w.pointers n := by
    refine hframe n ?_
    rw [List.mem_append, howned, howned]
    exact not_or.2 ⟨hi, hj⟩
  -- the nodes of the second list are in the first one now
  refine ⟨fun n => if owner n = some (.inl j) then some (.inl i) else owner n, ?_, fun p n => ?_, fun n hn => ?_⟩
  · intro p
    by_cases hpj : p = .inl j
    · subst hpj
      show LinkedList.Holds h' (Function.update (Function.update w.lists i l) j LinkedList.new j)
        (Function.update (Function.update s.lists i (s.lists i ++ s.lists j)) j [] j)
      rw [Function.update_self, Function.update_self]
      exact LinkedList.holds_new
    · by_cases hpi : p = .inl i
      · subst hpi
        show LinkedList.Holds h' (Function.update (Function.update w.lists i l) j LinkedList.new i)
          (Function.update (Function.update s.lists i (s.lists i ++ s.lists j)) j [] i)
        rw [Function.update_of_ne hij, Function.update_of_ne hij, Function.update_self, Function.update_self]
        exact hl
      · refine (hr.holds p).congr (fun k hk => ?_) (fun k _ => ⟨rfl, rfl⟩) fun n hn => ?_
        · subst hk
          have hki : k ≠ i := fun heq => hpi (congrArg Sum.inl heq)
          have hkj : k ≠ j := fun heq => hpj (congrArg Sum.inl heq)
          constructor
          · show Function.update (Function.update w.lists i l) j LinkedList.new k = w.lists k
            rw [Function.update_of_ne hkj, Function.update_of_ne hki]
          · show Function.update (Function.update s.lists i _) j [] k = s.lists k
            rw [Function.update_of_ne hkj, Function.update_of_ne hki]
        · have hp := (hr.owned p n).1 hn
          refine hout ?_ ?_
          · rw [hp]
            exact fun heq => hpi (Option.some.inj heq)
          · rw [hp]
            exact fun heq => hpj (Option.some.inj heq)
  · have hne : (.inl j : Place) ≠ .inl i := fun heq => hij (Sum.inl.inj heq).symm
    rw [Sequences.nodes_setList, Sequences.nodes_setList]
    by_cases hpj : p = .inl j
    · subst hpj
      rw [Function.update_self]
      refine iff_of_false List.not_mem_nil ?_
      split
      · exact fun heq => hne (Option.some.inj heq).symm
      · assumption
    · rw [Function.update_of_ne hpj]
      by_cases hpi : p = .inl i
      · subst hpi
        rw [Function.update_self, List.mem_append, howned, howned]
        split
        · next hj => exact iff_of_true (.inr hj) rfl
        · next hj => exact or_iff_left hj
      · rw [Function.update_of_ne hpi, hr.owned]
        split
        · next hj =>
          rw [hj]
          exact iff_of_false (fun heq => hpj (Option.some.inj heq).symm) fun heq => hpi (Option.some.inj heq).symm
        · exact Iff.rfl
  · have hn' : owner n = none := by
      split at hn
      · cases hn
      · exact hn
    exact (hout (by rw [hn']; nofun) (by rw [hn']; nofun)).trans (hr.free n hn')

variable [DecidableEq ι]

/-- A free node is put into a list. -/
lemma Represents.insert (hr : Represents w s owner) (hfree : s.Free node) (hl : LinkedList.Holds h' l xs)
    (hmem : ∀ n, n ∈ xs ↔ n = node ∨ n ∈ s.lists i) (hframe : ∀ n ∉ xs, h' n = w.pointers n) :
    Represents ((w.setPointers h').setList i l) (s.setList i xs) (Function.update owner node (some (.inl i))) := by
  have hnone := hr.owner_eq_none hfree
  have howned (n : ι) : n ∈ s.lists i ↔ owner n = some (.inl i) := hr.owned (.inl i) n
  refine hr.setList hl (fun n hi hsome => hframe n ?_) (fun n => ?_) (fun n p hp => ?_) fun n hn => ?_
  · rw [hmem, howned]
    rintro (rfl | hi')
    · exact hsome hnone
    · exact hi hi'
  · rw [hmem, howned]
    by_cases hn : n = node
    · simp [hn]
    · simp [hn]
  · by_cases hn : n = node
    · subst hn
      simp [hnone, Ne.symm hp]
    · rw [Function.update_of_ne hn]
  · have hne : n ≠ node := by
      rintro rfl
      simp at hn
    rw [Function.update_of_ne hne] at hn
    rw [hframe n, hr.free n hn]
    rw [hmem, howned, hn]
    rintro (heq | hsome)
    · exact hne heq
    · cases hsome

/-- A node is taken out of a list. -/
lemma Represents.takeOut (hr : Represents w s owner) (hl : LinkedList.Holds h' l xs)
    (hmem : ∀ n, n ∈ s.lists i ↔ n = node ∨ n ∈ xs) (hnot : node ∉ xs) (hnone : h' node = .none)
    (hframe : ∀ n ∉ s.lists i, h' n = w.pointers n) :
    Represents ((w.setPointers h').setList i l) (s.setList i xs) (Function.update owner node none) := by
  have howned (n : ι) : owner n = some (.inl i) ↔ n = node ∨ n ∈ xs := by
    rw [← hmem]
    exact (hr.owned (.inl i) n).symm
  refine hr.setList hl (fun n hi _ => hframe n fun hn => hi ((howned n).2 ((hmem n).1 hn))) (fun n => ?_)
    (fun n p hp => ?_) fun n hn => ?_
  · by_cases hn : n = node
    · simp [hn, hnot]
    · rw [Function.update_of_ne hn, howned]
      simp [hn]
  · by_cases hn : n = node
    · subst hn
      simp [(howned n).2 (.inl rfl), Ne.symm hp]
    · rw [Function.update_of_ne hn]
  · by_cases heq : n = node
    · rw [heq, hnone]
    · rw [Function.update_of_ne heq] at hn
      rw [hframe n, hr.free n hn]
      rw [hmem, ← howned, hn]
      nofun

/-- A node is taken out of a guarded list. -/
lemma Represents.takeOutGuarded (hr : Represents w s owner) {k : ℕ} {g : ι}
    (hl : GuardedLinkedList.Holds h' ⟨g⟩ xs) (hk : s.guarded k = some (g, ys))
    (hmem : ∀ n, n ∈ g :: ys ↔ n = node ∨ n ∈ g :: xs) (hnot : node ∉ g :: xs) (hnone : h' node = .none)
    (hframe : ∀ n ∉ g :: ys, h' n = w.pointers n) :
    Represents ((w.setPointers h').setGuarded k ⟨g⟩) (s.setGuarded k g xs) (Function.update owner node none) := by
  have hnodes : s.nodes (.inr k) = g :: ys := by
    rw [Sequences.nodes, hk]
    rfl
  have howned (n : ι) : owner n = some (.inr k) ↔ n = node ∨ n ∈ g :: xs := by
    rw [← hmem, ← hnodes]
    exact (hr.owned (.inr k) n).symm
  refine hr.setGuarded hl (fun n hi _ => hframe n fun hn => hi ((howned n).2 ((hmem n).1 hn))) (fun n => ?_)
    (fun n p hp => ?_) fun n hn => ?_
  · by_cases hn : n = node
    · rw [hn, Function.update_self]
      exact iff_of_false nofun hnot
    · rw [Function.update_of_ne hn, howned]
      exact or_iff_right hn
  · by_cases hn : n = node
    · subst hn
      simp [(howned n).2 (.inl rfl), Ne.symm hp]
    · rw [Function.update_of_ne hn]
  · by_cases heq : n = node
    · rw [heq, hnone]
    · rw [Function.update_of_ne heq] at hn
      rw [hframe n, hr.free n hn]
      rw [hmem, ← howned, hn]
      nofun

/-- A list becomes a guarded one. -/
lemma Represents.guard (hr : Represents w s owner) {g : ι} {k : ℕ} (hfree : s.Free g) (hk : s.guarded k = none)
    (hl : GuardedLinkedList.Holds h' ⟨g⟩ (s.lists i)) (hframe : ∀ n ∉ g :: s.lists i, h' n = w.pointers n) :
    ∃ owner', Represents (((w.setPointers h').setList i .new).setGuarded k ⟨g⟩)
      ((s.setList i []).setGuarded k g (s.lists i)) owner' := by
  have hg := hr.owner_eq_none hfree
  have howned (n : ι) : n ∈ s.lists i ↔ owner n = some (.inl i) := hr.owned (.inl i) n
  have hnone (n : ι) : owner n ≠ some (.inr k) := by
    rw [Ne, ← hr.owned, Sequences.nodes, hk]
    exact List.not_mem_nil
  have hout {n : ι} (hn : n ≠ g) (hi : owner n ≠ some (.inl i)) : h' n = w.pointers n := by
    refine hframe n ?_
    rw [List.mem_cons, howned]
    exact not_or.2 ⟨hn, hi⟩
  -- the guard and the nodes of the list are in the ring now
  refine ⟨fun n => if n = g ∨ owner n = some (.inl i) then some (.inr k) else owner n, ?_, fun p n => ?_,
    fun n hn => ?_⟩
  · intro p
    by_cases hpk : p = .inr k
    · subst hpk
      refine ⟨?_, fun e he => ?_⟩
      · show Function.update w.guarded k _ k = (Function.update s.guarded k _ k).map _
        rw [Function.update_self, Function.update_self]
        rfl
      · have heq : Function.update s.guarded k (some (g, s.lists i)) k = some e := he
        rw [Function.update_self] at heq
        cases heq
        exact hl
    · by_cases hpi : p = .inl i
      · subst hpi
        show LinkedList.Holds h' (Function.update w.lists i LinkedList.new i) (Function.update s.lists i [] i)
        rw [Function.update_self, Function.update_self]
        exact LinkedList.holds_new
      · refine (hr.holds p).congr (fun j hj => ?_) (fun j hj => ?_) fun n hn => ?_
        · subst hj
          have hne : j ≠ i := fun heq => hpi (congrArg Sum.inl heq)
          exact ⟨Function.update_of_ne hne _ _, Function.update_of_ne hne _ _⟩
        · subst hj
          have hne : j ≠ k := fun heq => hpk (congrArg Sum.inr heq)
          exact ⟨Function.update_of_ne hne _ _, Function.update_of_ne hne _ _⟩
        · have hp := (hr.owned p n).1 hn
          refine hout ?_ ?_
          · rintro rfl
            rw [hg] at hp
            cases hp
          · rw [hp]
            exact fun heq => hpi (Option.some.inj heq)
  · rw [Sequences.nodes_setGuarded, Sequences.nodes_setList]
    by_cases hpk : p = .inr k
    · subst hpk
      rw [Function.update_self, List.mem_cons, howned]
      split
      · next h => exact iff_of_true h rfl
      · next h => exact iff_of_false h (hnone n)
    · rw [Function.update_of_ne hpk]
      by_cases hpi : p = .inl i
      · subst hpi
        rw [Function.update_self]
        refine iff_of_false List.not_mem_nil ?_
        split
        · nofun
        · next h => exact (not_or.1 h).2
      · rw [Function.update_of_ne hpi, hr.owned]
        split
        · next h =>
          refine iff_of_false ?_ fun heq => hpk (Option.some.inj heq).symm
          rcases h with rfl | h
          · rw [hg]
            nofun
          · rw [h]
            exact fun heq => hpi (Option.some.inj heq).symm
        · exact Iff.rfl
  · split at hn
    · cases hn
    · next h =>
      obtain ⟨hng, hni⟩ := not_or.1 h
      exact (hout hng hni).trans (hr.free n hn)

/-- A call does what it is to do, and the node that it returns is at no place. -/
lemma Represents.step (hr : Represents w s owner) {op : Op ι} {result : Option ι} (hd : Does s op result s') :
    ∃ w' owner', op.run w = .ok result w' ∧ Represents w' s' owner' ∧
      ∀ node ∈ result, owner' node = none := by
  have hlist (i : ℕ) : LinkedList.Holds w.pointers (w.lists i) (s.lists i) := hr.holds (.inl i)
  cases hd with
  | @pushFront i node hfree =>
    obtain ⟨l, h', hrun, hl, hframe⟩ := (hlist i).pushFront (hfree (.inl i))
    refine ⟨_, _, ?_, hr.insert hfree hl (fun n => List.mem_cons) hframe, nofun⟩
    exact bind_of_ok (onPointers_of_ok hrun)
  | @pushBack i node hfree =>
    obtain ⟨l, h', hrun, hl, hframe⟩ := (hlist i).pushBack (hfree (.inl i))
    refine ⟨_, _, ?_, hr.insert hfree hl (fun n => ?_) hframe, nofun⟩
    · exact bind_of_ok (onPointers_of_ok hrun)
    · rw [List.mem_append, List.mem_singleton, or_comm]
  | @popFrontEmpty i h =>
    have hrun := (h ▸ hlist i).popFront_nil
    refine ⟨w, owner, ?_, hr, nofun⟩
    refine (bind_of_ok (onPointers_of_ok hrun)).trans ?_
    exact congrArg (Outcome.ok none) (setList_self w i)
  | @popFront i node xs h =>
    have hl := hlist i
    have hnodup := hl.nodup
    rw [h] at hl hnodup
    obtain ⟨l, h', hrun, hl', hnone, hframe⟩ := hl.popFront
    refine ⟨_, _, ?_, hr.takeOut hl' (fun n => ?_) (List.nodup_cons.1 hnodup).1 hnone ?_, ?_⟩
    · exact bind_of_ok (onPointers_of_ok hrun)
    · rw [h, List.mem_cons]
    · rw [h]
      exact hframe
    · rintro _ ⟨⟩
      exact Function.update_self _ _ _
  | @popBackEmpty i h =>
    have hrun := (h ▸ hlist i).popBack_nil
    refine ⟨w, owner, ?_, hr, nofun⟩
    refine (bind_of_ok (onPointers_of_ok hrun)).trans ?_
    exact congrArg (Outcome.ok none) (setList_self w i)
  | @popBack i node xs h =>
    have hl := hlist i
    have hnodup := hl.nodup
    rw [h] at hl hnodup
    obtain ⟨l, h', hrun, hl', hnone, hframe⟩ := hl.popBack
    rw [List.nodup_append_comm] at hnodup
    refine ⟨_, _, ?_, hr.takeOut hl' (fun n => ?_) (List.nodup_cons.1 hnodup).1 hnone ?_, ?_⟩
    · exact bind_of_ok (onPointers_of_ok hrun)
    · rw [h, List.mem_append, List.mem_singleton, or_comm]
    · rw [h]
      exact hframe
    · rintro _ ⟨⟩
      exact Function.update_self _ _ _
  | @remove i node xs ys h =>
    have hl := hlist i
    have hnodup := hl.nodup
    rw [h] at hl hnodup
    obtain ⟨l, h', hrun, hl', hnone, hframe⟩ := hl.remove
    refine ⟨_, _, ?_, hr.takeOut hl' (fun n => ?_) (List.nodup_cons.1 (List.nodup_middle.1 hnodup)).1 hnone ?_, ?_⟩
    · exact bind_of_ok (onPointers_of_ok hrun)
    · rw [h, mem_middle]
    · rw [h]
      exact hframe
    · rintro _ ⟨⟩
      exact Function.update_self _ _ _
  | @removeFree i node hfree =>
    have hrun := (hlist i).remove_none (hfree (.inl i)) (hr.free node (hr.owner_eq_none hfree))
    refine ⟨w, owner, ?_, hr, nofun⟩
    refine (bind_of_ok (onPointers_of_ok hrun)).trans ?_
    exact congrArg (Outcome.ok none) (setList_self w i)
  | @removeGuarded i k node g xs ys h =>
    obtain ⟨hk, hring⟩ := hr.holds (.inr k)
    have hl := hring _ h
    obtain ⟨h', hrun, hl', hnone, hframe⟩ := hl.remove (w.lists i)
    have hnodup := List.nodup_middle.1 (show (g :: xs ++ node :: ys).Nodup from hl.nodup)
    have hmem (n : ι) : n ∈ g :: xs ++ node :: ys ↔ n = node ∨ n ∈ g :: xs ++ ys := mem_middle
    have hr' := hr.takeOutGuarded hl' h hmem (List.nodup_cons.1 hnodup).1 hnone hframe
    rw [h] at hk
    have hsame : (w.setPointers h').guarded k = some ⟨g⟩ := hk
    rw [setGuarded_self hsame] at hr'
    refine ⟨_, _, ?_, hr', ?_⟩
    · refine (bind_of_ok (onPointers_of_ok hrun)).trans ?_
      exact congrArg (Outcome.ok (some node)) (setList_self (w.setPointers h') i)
    · rintro _ ⟨⟩
      exact Function.update_self _ _ _
  | @appendBack i j h =>
    have hdisjoint : ∀ z ∈ s.lists i, z ∉ s.lists j := fun z hi hj =>
      h (Sum.inl.inj (hr.eq_of_mem (p := .inl i) (q := .inl j) hi hj))
    obtain ⟨l, h', hrun, hl, hframe⟩ := (hlist i).appendBack (hlist j) hdisjoint
    obtain ⟨owner', hr'⟩ := hr.append h hl hframe
    exact ⟨_, owner', bind_of_ok (onPointers_of_ok hrun), hr', nofun⟩
  | @intoGuarded i k guard hfree h =>
    obtain ⟨h', hrun, hl, hframe⟩ := (hlist i).intoGuarded (hfree (.inl i))
    obtain ⟨owner', hr'⟩ := hr.guard hfree h hl hframe
    exact ⟨_, owner', bind_of_ok (onPointers_of_ok hrun), hr', nofun⟩
  | @popGuardedEmpty k g h =>
    obtain ⟨hk, hring⟩ := hr.holds (.inr k)
    rw [h] at hk
    have hrun := (hring _ h).popBack_nil
    refine ⟨w, owner, ?_, hr, nofun⟩
    simp only [Op.run, bind_apply, get_apply, hk]
    exact onPointers_of_ok hrun
  | @popGuarded k node g xs h =>
    obtain ⟨hk, hring⟩ := hr.holds (.inr k)
    rw [h] at hk
    have hl := hring _ h
    obtain ⟨h', hrun, hl', hnone, hframe⟩ := hl.popBack
    have hnodup := List.nodup_middle.1 (show (g :: xs ++ node :: []).Nodup from hl.nodup)
    rw [List.append_nil] at hnodup
    have hr' := hr.takeOutGuarded hl' h (fun n => ?_) (List.nodup_cons.1 hnodup).1 hnone hframe
    · have hsame : (w.setPointers h').guarded k = some ⟨g⟩ := hk
      rw [setGuarded_self hsame] at hr'
      refine ⟨_, _, ?_, hr', ?_⟩
      · simp only [Op.run, bind_apply, get_apply, hk]
        exact onPointers_of_ok hrun
      · rintro _ ⟨⟩
        exact Function.update_self _ _ _
    · rw [← List.cons_append, List.mem_append, List.mem_singleton, or_comm]

lemma Represents.run (hr : Represents w s owner) {ops : List (Op ι)} {results : List (Option ι)}
    (hd : DoesAll s ops results s') :
    ∃ w' owner', runAll ops w = .ok results w' ∧ Represents w' s' owner' := by
  induction hd generalizing w owner with
  | nil => exact ⟨w, owner, rfl, hr⟩
  | cons h hrest ih =>
    obtain ⟨w₁, owner₁, hrun, hr₁, -⟩ := hr.step h
    obtain ⟨w₂, owner₂, hrun₂, hr₂⟩ := ih hr₁
    refine ⟨w₂, owner₂, ?_, hr₂⟩
    exact (bind_of_ok hrun).trans (bind_of_ok hrun₂)

end Represents

/-! ## Going through the lists -/

section Shows

variable {ι : Type} {w : Lists ι} {s s' : Sequences ι} {owner : ι → Option Place}

/-- Where the links of a node lead. -/
def Lists.next (w : Lists ι) (node : ι) : Option ι := (w.pointers node).next

def Lists.prev (w : Lists ι) (node : ι) : Option ι := (w.pointers node).prev

/-- Going through the lists in either direction one finds the sequences, every node is in one of them
once, and the others have no links. -/
structure Shows (w : Lists ι) (s : Sequences ι) : Prop where
  forwards : ∀ i fuel, (s.lists i).length ≤ fuel → walk w.next fuel (w.lists i).head = s.lists i
  backwards : ∀ i fuel, (s.lists i).length ≤ fuel → walk w.prev fuel (w.lists i).tail = (s.lists i).reverse
  head_eq_none : ∀ i, (w.lists i).head = none ↔ s.lists i = []
  tail_eq_none : ∀ i, (w.lists i).tail = none ↔ s.lists i = []
  guarded_eq : ∀ k, (w.guarded k).map (·.guard) = (s.guarded k).map (·.1)
  around : ∀ k, ∀ e ∈ s.guarded k, walk w.next (e.2.length + 1) (w.next e.1) = e.2 ++ [e.1]
  around_back : ∀ k, ∀ e ∈ s.guarded k, walk w.prev (e.2.length + 1) (w.prev e.1) = e.2.reverse ++ [e.1]
  nodup : ∀ p, (s.nodes p).Nodup
  once : ∀ p q node, node ∈ s.nodes p → node ∈ s.nodes q → p = q
  free : ∀ node, s.Free node → w.pointers node = .none

lemma Represents.nodup (hr : Represents w s owner) (p : Place) : (s.nodes p).Nodup := by
  rcases p with i | k
  · exact LinkedList.Holds.nodup (hr.holds (.inl i))
  · cases hk : s.guarded k with
    | none =>
      rw [Sequences.nodes, hk]
      exact List.nodup_nil
    | some e =>
      rw [Sequences.nodes, hk]
      exact ((hr.holds (.inr k)).2 e hk).nodup

lemma walk_none (step : ι → Option ι) (fuel : ℕ) : walk step fuel none = [] := by
  cases fuel with
  | zero | succ fuel => rfl

lemma Represents.shows (hr : Represents w s owner) : Shows w s := by
  have hlist (i : ℕ) : LinkedList.Holds w.pointers (w.lists i) (s.lists i) := hr.holds (.inl i)
  refine ⟨fun i fuel hfuel => ?_, fun i fuel hfuel => ?_, fun i => ?_, fun i => ?_, fun k => ?_, fun k e he => ?_,
    fun k e he => ?_, hr.nodup, fun p q node hp hq => hr.eq_of_mem hp hq,
    fun node hfree => hr.free node (hr.owner_eq_none hfree)⟩
  · obtain ⟨rest, rfl⟩ := Nat.exists_eq_add_of_le hfuel
    have hwalk := (hlist i).linked.walk_next rest
    rw [Option.or_none, walk_none, List.append_nil] at hwalk
    rw [(hlist i).eq]
    exact hwalk
  · obtain ⟨rest, rfl⟩ := Nat.exists_eq_add_of_le hfuel
    have hwalk := (hlist i).linked.walk_prev rest
    rw [Option.or_none, walk_none, List.append_nil] at hwalk
    rw [(hlist i).eq]
    exact hwalk
  · rw [(hlist i).eq]
    exact List.head?_eq_none_iff
  · rw [(hlist i).eq]
    exact List.getLast?_eq_none_iff
  · rw [(hr.holds (.inr k)).1, Option.map_map]
    rfl
  · obtain ⟨-, hnext, hlinked⟩ := ((hr.holds (.inr k)).2 e he).ring
    have hwalk := hlinked.walk_next 1
    rw [← hnext] at hwalk
    exact hwalk
  · obtain ⟨hprev, -, hlinked⟩ := ((hr.holds (.inr k)).2 e he).ring
    have hwalk := hlinked.walk_prev 1
    rw [← hprev] at hwalk
    exact hwalk

variable [DecidableEq ι]

/-- Whatever is called on new lists, they are the sequences that one expects, and a node that is popped
or removed next is in none of them and has no links. -/
theorem lists_are_sequences {ops : List (Op ι)} {results : List (Option ι)} (h : DoesAll .new ops results s) :
    ∃ w, runAll ops .new = .ok results w ∧ Shows w s ∧ ∀ op node s', Does s op (some node) s' →
      ∃ w', op.run w = .ok (some node) w' ∧ s'.Free node ∧ w'.pointers node = .none := by
  obtain ⟨w, owner, hrun, hr⟩ := represents_new.run h
  refine ⟨w, hrun, hr.shows, fun op node s' hd => ?_⟩
  obtain ⟨w', owner', hrun', hr', hout⟩ := hr.step hd
  have hnone := hout node rfl
  refine ⟨w', hrun', fun p hp => ?_, hr'.free node hnone⟩
  have hsome := (hr'.owned p node).1 hp
  rw [hnone] at hsome
  cases hsome

theorem lists_are_sequences_remove : ∃ w : Lists ℕ,
    runAll [.pushBack 0 1, .pushFront 0 2, .remove 0 1] .new = .ok [none, none, some 1] w ∧
      walk w.next 1 (w.lists 0).head = [2] := by
  have hfirst : Sequences.Free (.new : Sequences ℕ) 1 := by
    rintro (i | k)
    · exact List.not_mem_nil
    · exact List.not_mem_nil
  have hsecond : Sequences.Free (Sequences.setList .new 0 [1]) 2 := by
    intro p
    rw [Sequences.nodes_setList]
    by_cases hp : p = .inl 0
    · rw [hp, Function.update_self]
      decide
    · rw [Function.update_of_ne hp]
      rcases p with i | k
      · exact List.not_mem_nil
      · exact List.not_mem_nil
  have hthird : (Sequences.setList (Sequences.setList .new 0 [1]) 0 [2, 1]).lists 0 = [2] ++ 1 :: [] := by simp
  obtain ⟨w, hrun, hshows, -⟩ :=
    lists_are_sequences (.cons (.pushBack hfirst) (.cons (.pushFront hsecond) (.cons (.remove hthird) .nil)))
  refine ⟨w, hrun, (hshows.forwards 0 1 ?_).trans ?_⟩
  · simp
  · simp

end Shows

end Recapn.Channel.Intrusive

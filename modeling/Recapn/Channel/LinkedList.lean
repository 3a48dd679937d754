/-
# Intrusive lists

The nodes of a list hold its links themselves, and the list knows its first and its last node.  A
guarded list is a ring of its nodes and a guard.  A node is taken out of either by its links alone,
through any list that is not guarded.

The pointers of all nodes are the state here.  Nodes are known by their addresses.
-/
import Recapn.Lib.Linked
import Recapn.Lib.Prog

namespace Recapn.Channel

open Recapn.Lib Recapn.Lib.Prog

/-! ## The lists -/

/-- Programs that use the `Pointers` of the nodes. -/
abbrev PointersM (ι : Type) := Prog Empty (ι → Links ι)

namespace PointersM

variable {ι : Type}

/-- `Pointers::get_prev`. -/
def getPrev (node : ι) : PointersM ι (Option ι) := fun h => .ok (h node).prev h

/-- `Pointers::get_next`. -/
def getNext (node : ι) : PointersM ι (Option ι) := fun h => .ok (h node).next h

variable [DecidableEq ι]

/-- `Pointers::set_prev`. -/
def setPrev (node : ι) (value : Option ι) : PointersM ι Unit :=
  Prog.modify fun h => relinkPrev h (some node) value

/-- `Pointers::set_next`. -/
def setNext (node : ι) (value : Option ι) : PointersM ι Unit :=
  Prog.modify fun h => relinkNext h (some node) value

end PointersM

open PointersM

/-- `LinkedList`. -/
@[ext] structure LinkedList (ι : Type) where
  head : Option ι
  tail : Option ι
deriving DecidableEq

/-- `GuardedLinkedList`. -/
structure GuardedLinkedList (ι : Type) where
  guard : ι

namespace LinkedList

variable {ι : Type}

/-- `LinkedList::new`. -/
def new : LinkedList ι := ⟨none, none⟩

variable [DecidableEq ι]

/-- `LinkedList::push_front`. -/
def pushFront (self : LinkedList ι) (ptr : ι) : PointersM ι (LinkedList ι) := do
  Prog.assert (self.head ≠ some ptr)
  setNext ptr self.head
  setPrev ptr none
  let self ← match self.head with
    | none => pure { self with tail := some ptr }
    | some head => do
      setPrev head (some ptr)
      pure self
  pure { self with head := some ptr }

/-- `LinkedList::push_back`. -/
def pushBack (self : LinkedList ι) (ptr : ι) : PointersM ι (LinkedList ι) := do
  Prog.assert (self.tail ≠ some ptr)
  setNext ptr none
  setPrev ptr self.tail
  let self ← match self.tail with
    | none => pure { self with head := some ptr }
    | some tail => do
      setNext tail (some ptr)
      pure self
  pure { self with tail := some ptr }

/-- `LinkedList::append_back`, which returns both lists. -/
def appendBack (self other : LinkedList ι) : PointersM ι (LinkedList ι × LinkedList ι) :=
  match self.tail with
  | none => pure (other, self)
  | some tail =>
    match other.head with
    | none => pure (self, other)
    | some otherHead => do
      setNext tail (some otherHead)
      setPrev otherHead (some tail)
      pure ({ self with tail := other.tail }, ⟨none, none⟩)

/-- `LinkedList::pop_back`. -/
def popBack (self : LinkedList ι) : PointersM ι (Option ι × LinkedList ι) :=
  match self.tail with
  | none => pure (none, self)
  | some last => do
    let prev ← getPrev last
    let self := { self with tail := prev }
    let prev ← getPrev last
    let self ← match prev with
      | some prev => do
        setNext prev none
        pure self
      | none => pure { self with head := none }
    setPrev last none
    setNext last none
    pure (some last, self)

/-- `LinkedList::pop_front`. -/
def popFront (self : LinkedList ι) : PointersM ι (Option ι × LinkedList ι) :=
  match self.head with
  | none => pure (none, self)
  | some first => do
    let next ← getNext first
    let self := { self with head := next }
    let next ← getNext first
    let self ← match next with
      | some next => do
        setPrev next none
        pure self
      | none => pure { self with tail := none }
    setPrev first none
    setNext first none
    pure (some first, self)

/-- `LinkedList::remove`, where the links of the node are reset. -/
def remove.reset (self : LinkedList ι) (node : ι) : PointersM ι (Option ι × LinkedList ι) := do
  setNext node none
  setPrev node none
  pure (some node, self)

/-- `LinkedList::remove`, where the next node is linked with the previous one. -/
def remove.next (self : LinkedList ι) (node : ι) : PointersM ι (Option ι × LinkedList ι) := do
  let next ← getNext node
  match next with
  | some next => do
    let back ← getPrev next
    Prog.assert (back = some node)
    let prev ← getPrev node
    setPrev next prev
    remove.reset self node
  | none =>
    if self.tail ≠ some node then pure (none, self)
    else do
      let prev ← getPrev node
      remove.reset { self with tail := prev } node

/-- `LinkedList::remove`. -/
def remove (self : LinkedList ι) (node : ι) : PointersM ι (Option ι × LinkedList ι) := do
  let prev ← getPrev node
  match prev with
  | some prev => do
    let back ← getNext prev
    Prog.assert (back = some node)
    let next ← getNext node
    setNext prev next
    remove.next self node
  | none =>
    if self.head ≠ some node then pure (none, self)
    else do
      let next ← getNext node
      remove.next { self with head := next } node

/-- `LinkedList::into_guarded`. -/
def intoGuarded (self : LinkedList ι) (guard : ι) : PointersM ι (GuardedLinkedList ι) := do
  match self.head with
  | some head => do
    let back ← getPrev head
    Prog.assert (back = none)
    setPrev head (some guard)
    setNext guard (some head)
    let tail ← Prog.unwrap self.tail
    let forth ← getNext tail
    Prog.assert (forth = none)
    setNext tail (some guard)
    setPrev guard (some tail)
  | none => do
    setPrev guard (some guard)
    setNext guard (some guard)
  pure ⟨guard⟩

end LinkedList

namespace GuardedLinkedList

variable {ι : Type} [DecidableEq ι]

/-- `GuardedLinkedList::tail`. -/
def tail (self : GuardedLinkedList ι) : PointersM ι (Option ι) := do
  let prev ← getPrev self.guard
  let tailPtr ← Prog.unwrap prev
  if tailPtr ≠ self.guard then pure (some tailPtr) else pure none

/-- `GuardedLinkedList::pop_back`. -/
def popBack (self : GuardedLinkedList ι) : PointersM ι (Option ι) := do
  let tail ← self.tail
  match tail with
  | none => pure none
  | some last => do
    let prev ← getPrev last
    let beforeLast ← Prog.unwrap prev
    setPrev self.guard (some beforeLast)
    setNext beforeLast (some self.guard)
    setPrev last none
    setNext last none
    pure (some last)

end GuardedLinkedList

/-! ## The sequences that they are -/

section Holds

variable {ι : Type} {h h' : ι → Links ι} {x : ι} {xs ys pre post : List ι}

/-- The list is this sequence of nodes. -/
structure LinkedList.Holds (h : ι → Links ι) (l : LinkedList ι) (xs : List ι) : Prop where
  eq : l = ⟨xs.head?, xs.getLast?⟩
  linked : Linked h none xs none
  nodup : xs.Nodup

/-- The guarded list is this sequence of nodes. -/
structure GuardedLinkedList.Holds (h : ι → Links ι) (l : GuardedLinkedList ι) (xs : List ι) : Prop where
  ring : Ring h l.guard xs
  nodup : (l.guard :: xs).Nodup

lemma LinkedList.holds_new : Holds h (LinkedList.new : LinkedList ι) [] := ⟨rfl, trivial, List.nodup_nil⟩

lemma LinkedList.Holds.congr {self : LinkedList ι} (hl : Holds h self xs) (heq : ∀ y ∈ xs, h' y = h y) :
    Holds h' self xs :=
  ⟨hl.eq, hl.linked.congr heq, hl.nodup⟩

lemma GuardedLinkedList.Holds.congr {self : GuardedLinkedList ι} (hl : Holds h self xs)
    (heq : ∀ y ∈ self.guard :: xs, h' y = h y) : Holds h' self xs :=
  ⟨hl.ring.congr heq, hl.nodup⟩

variable [DecidableEq ι]

/-- A node whose links are both reset has none. -/
lemma relinkNext_relinkPrev_none (h : ι → Links ι) (x : ι) :
    relinkNext (relinkPrev h (some x) none) (some x) none = Function.update h x .none := by
  rw [relinkNext_relinkPrev, relinkPrev_relinkNext_self]
  rfl

namespace LinkedList.Holds

variable {self other : LinkedList ι}

lemma pushFront (hl : Holds h self xs) (hx : x ∉ xs) : ∃ self' h', self.pushFront x h = .ok self' h' ∧
    Holds h' self' (x :: xs) ∧ ∀ y ∉ x :: xs, h' y = h y := by
  obtain ⟨rfl, hlinked, hnodup⟩ := hl
  have hhead : xs.head? ≠ some x := fun heq => hx (List.mem_of_head? heq)
  refine ⟨⟨some x, (x :: xs).getLast?⟩, relinkPrev (Function.update h x ⟨none, xs.head?⟩) xs.head? (some x),
    ?_, ⟨rfl, hlinked.pushFront hnodup hx, List.nodup_cons.2 ⟨hx, hnodup⟩⟩, fun y hy => ?_⟩
  · rw [← relinkPrev_relinkNext_self]
    have hrun : Prog.assert (xs.head? ≠ some x) h = (.ok () h : Outcome Empty (ι → Links ι) Unit) := by
      rw [assert_of hhead]
      rfl
    refine (bind_of_ok hrun).trans ?_
    cases xs with
    | nil | cons y ys => rfl
  · have hne : y ≠ x := fun heq => hy (heq ▸ List.mem_cons_self)
    rw [relinkPrev_of_ne fun heq => hy (List.mem_cons_of_mem _ (List.mem_of_head? heq)),
      Function.update_of_ne hne]

lemma pushBack (hl : Holds h self xs) (hx : x ∉ xs) : ∃ self' h', self.pushBack x h = .ok self' h' ∧
    Holds h' self' (xs ++ [x]) ∧ ∀ y ∉ xs ++ [x], h' y = h y := by
  obtain ⟨rfl, hlinked, hnodup⟩ := hl
  have hlast : xs.getLast? ≠ some x := fun heq => hx (List.mem_of_getLast? heq)
  have hnodup' : (xs ++ [x]).Nodup := by
    rw [List.nodup_append_comm]
    exact List.nodup_cons.2 ⟨hx, hnodup⟩
  refine ⟨⟨(xs ++ [x]).head?, some x⟩, relinkNext (Function.update h x ⟨xs.getLast?, none⟩) xs.getLast? (some x),
    ?_, ⟨by simp, hlinked.pushBack hnodup hx, hnodup'⟩, fun y hy => ?_⟩
  · rw [← relinkPrev_relinkNext_self]
    have hrun : Prog.assert (xs.getLast? ≠ some x) h = (.ok () h : Outcome Empty (ι → Links ι) Unit) := by
      rw [assert_of hlast]
      rfl
    refine (bind_of_ok hrun).trans ?_
    rcases hcase : xs.getLast? with _ | y
    · rw [List.getLast?_eq_none_iff] at hcase
      subst hcase
      rfl
    · have hhead : (xs ++ [x]).head? = xs.head? := by
        cases xs with
        | nil => cases hcase
        | cons z zs => rfl
      rw [hhead]
      rfl
  · have hne : y ≠ x := fun heq => hy (by simp [heq])
    rw [relinkNext_of_ne fun heq => hy (List.mem_append_left _ (List.mem_of_getLast? heq)),
      Function.update_of_ne hne]

/-- A list from which a node was taken out. -/
lemma unlink (hl : Holds h self (pre ++ x :: post)) :
    Holds (unlink h x pre.getLast? post.head?) ⟨(pre ++ post).head?, (pre ++ post).getLast?⟩ (pre ++ post) := by
  have hset := hl.linked.unlink hl.nodup nofun nofun
  rw [Option.or_none, Option.or_none] at hset
  have hsub : (pre ++ post).Sublist (pre ++ x :: post) := (List.sublist_cons_self x post).append_left pre
  exact ⟨rfl, hset, hl.nodup.sublist hsub⟩

/-- Only nodes of the list change when one is taken out. -/
lemma unlink_eq {y : ι} (hy : y ∉ pre ++ x :: post) : Lib.unlink h x pre.getLast? post.head? y = h y := by
  refine unlink_of_ne ?_ (fun heq => ?_) fun heq => ?_
  · rintro rfl
    simp at hy
  · exact hy (List.mem_append_left _ (List.mem_of_getLast? heq))
  · exact hy (List.mem_append_right _ (List.mem_cons_of_mem _ (List.mem_of_head? heq)))

lemma popFront_nil (hl : Holds h self []) : self.popFront h = .ok (none, self) h := by
  obtain ⟨rfl, -, -⟩ := hl
  rfl

lemma popFront (hl : Holds h self (x :: xs)) : ∃ self' h', self.popFront h = .ok (some x, self') h' ∧
    Holds h' self' xs ∧ h' x = .none ∧ ∀ y ∉ x :: xs, h' y = h y := by
  have hnext : (h x).next = xs.head? := by
    rw [hl.linked.2.1, Option.or_none]
  have hpop := @unlink _ _ x [] xs _ self hl
  refine ⟨_, _, ?_, hpop, unlink_self _ _, fun y hy => @unlink_eq _ h x [] xs _ y hy⟩
  obtain ⟨rfl, -, -⟩ := hl
  cases xs with
  | nil =>
    have hrun : LinkedList.popFront ⟨some x, some x⟩ h =
        .ok (some x, ⟨none, none⟩) (relinkNext (relinkPrev h (some x) none) (some x) none) := by
      simp [LinkedList.popFront, getNext, bind_apply, hnext, setPrev, setNext]
    rw [relinkNext_relinkPrev_none] at hrun
    exact hrun
  | cons y ys =>
    have hrun : LinkedList.popFront ⟨some x, (x :: y :: ys).getLast?⟩ h =
        .ok (some x, ⟨some y, (y :: ys).getLast?⟩)
          (relinkNext (relinkPrev (relinkPrev h (some y) none) (some x) none) (some x) none) := by
      simp [LinkedList.popFront, getNext, bind_apply, hnext, setPrev, setNext]
    rw [relinkNext_relinkPrev_none] at hrun
    exact hrun

lemma popBack_nil (hl : Holds h self []) : self.popBack h = .ok (none, self) h := by
  obtain ⟨rfl, -, -⟩ := hl
  rfl

lemma popBack (hl : Holds h self (xs ++ [x])) : ∃ self' h', self.popBack h = .ok (some x, self') h' ∧
    Holds h' self' xs ∧ h' x = .none ∧ ∀ y ∉ xs ++ [x], h' y = h y := by
  have hprev : (h x).prev = xs.getLast? := by
    rw [hl.linked.of_mem.1, Option.or_none]
  have hpop := hl.unlink
  rw [List.append_nil] at hpop
  refine ⟨_, _, ?_, hpop, unlink_self _ _, fun y hy => unlink_eq hy⟩
  obtain ⟨rfl, -, -⟩ := hl
  rcases hlast : xs.getLast? with _ | y
  · rw [List.getLast?_eq_none_iff] at hlast
    subst hlast
    have hrun : LinkedList.popBack ⟨some x, some x⟩ h =
        .ok (some x, ⟨none, none⟩) (relinkNext (relinkPrev h (some x) none) (some x) none) := by
      simp [LinkedList.popBack, getPrev, bind_apply, hprev, setPrev, setNext]
    rw [relinkNext_relinkPrev_none] at hrun
    exact hrun
  · have hhead : (xs ++ [x]).head? = xs.head? := by
      cases xs with
      | nil => cases hlast
      | cons z zs => rfl
    rw [hlast] at hprev
    have hrun : LinkedList.popBack ⟨xs.head?, some x⟩ h =
        .ok (some x, ⟨xs.head?, some y⟩)
          (relinkNext (relinkPrev (relinkNext h (some y) none) (some x) none) (some x) none) := by
      simp [LinkedList.popBack, getPrev, bind_apply, hprev, setPrev, setNext]
    rw [relinkNext_relinkPrev_none] at hrun
    rw [hhead, List.getLast?_append, List.getLast?_singleton, Option.some_or]
    exact hrun

lemma appendBack (hl : Holds h self xs) (ho : Holds h other ys) (hdisjoint : ∀ z ∈ xs, z ∉ ys) :
    ∃ self' h', self.appendBack other h = .ok (self', .new) h' ∧ Holds h' self' (xs ++ ys) ∧
      ∀ y ∉ xs ++ ys, h' y = h y := by
  cases xs with
  | nil =>
    obtain ⟨rfl, -, -⟩ := hl
    exact ⟨other, h, rfl, ho, fun _ _ => rfl⟩
  | cons x xs =>
    cases ys with
    | nil =>
      have hsame : Holds h self (x :: xs ++ []) := by rwa [List.append_nil]
      obtain ⟨rfl, -, -⟩ := hl
      obtain ⟨rfl, -, -⟩ := ho
      refine ⟨_, h, ?_, hsame, fun _ _ => rfl⟩
      simp only [LinkedList.appendBack, List.getLast?_cons]
      rfl
    | cons y ys =>
      have hjoin := hl.linked.join ho.linked hl.nodup ho.nodup hdisjoint
      have hnodup : (x :: xs ++ y :: ys).Nodup :=
        List.nodup_append.2 ⟨hl.nodup, ho.nodup, fun a ha b hb heq => hdisjoint a ha (heq ▸ hb)⟩
      obtain ⟨rfl, -, -⟩ := hl
      obtain ⟨rfl, -, -⟩ := ho
      obtain ⟨last, hlast⟩ : ∃ last, (x :: xs).getLast? = some last := ⟨_, List.getLast?_cons⟩
      refine ⟨⟨some x, (y :: ys).getLast?⟩, _, ?_, ⟨?_, hjoin, hnodup⟩, fun z hz => ?_⟩
      · simp only [LinkedList.appendBack, hlast]
        rfl
      · rw [List.getLast?_append, List.getLast?_cons, Option.some_or]
        rfl
      · rw [relinkPrev_of_ne fun heq => hz (List.mem_append_right _ (List.mem_of_head? heq)),
          relinkNext_of_ne fun heq => hz (List.mem_append_left _ (List.mem_of_getLast? heq))]

end LinkedList.Holds

/-! ### Taking out a node -/

/-- The neighbours of the node know it, and where it has none, it is at the end of the list. -/
structure Beside (h : ι → Links ι) (l : LinkedList ι) (x : ι) (before after : Option ι) : Prop where
  prev : (h x).prev = before
  next : (h x).next = after
  before_next : ∀ y, before = some y → (h y).next = some x ∧ y ≠ x
  after_prev : ∀ y, after = some y → (h y).prev = some x ∧ y ≠ x
  head : before = none → l.head = some x
  tail : after = none → l.tail = some x

/-- A node is taken out by its links. -/
lemma remove_of_beside {self : LinkedList ι} {before after : Option ι} (hb : Beside h self x before after) :
    self.remove x h = .ok (some x, ⟨before.elim after fun _ => self.head, after.elim before fun _ => self.tail⟩)
      (unlink h x before after) := by
  have hreset : ∀ (l : LinkedList ι) (h' : ι → Links ι),
      LinkedList.remove.reset l x h' = .ok (some x, l) (Function.update h' x .none) := by
    intro l h'
    rw [← relinkPrev_relinkNext_self]
    rfl
  have hrest : ∀ (l : LinkedList ι), l.tail = self.tail →
      LinkedList.remove.next l x (relinkNext h before after) =
        .ok (some x, ⟨l.head, after.elim before fun _ => l.tail⟩) (unlink h x before after) := by
    intro l hl
    have hne : before ≠ some x := fun heq => (hb.before_next x heq).2 rfl
    have hnext : (relinkNext h before after x).next = after := by rw [relinkNext_of_ne hne, hb.next]
    cases hafter : after with
    | none =>
      have htail : l.tail = some x := hl.trans (hb.tail hafter)
      rw [hafter] at hnext
      simp [LinkedList.remove.next, getNext, getPrev, bind_apply, hnext, hb.prev, htail, hreset, unlink,
        relinkPrev]
    | some y =>
      have hback := (hb.after_prev y hafter).1
      rw [hafter] at hnext
      simp [LinkedList.remove.next, getNext, getPrev, bind_apply, hnext, hb.prev, hback, hreset, unlink,
        setPrev, Prog.assert]
  cases hbefore : before with
  | none =>
    have hprev := hb.prev
    have hhead := hb.head hbefore
    have hrun := hrest { self with head := after } rfl
    rw [hbefore] at hprev hrun
    simp [LinkedList.remove, getNext, getPrev, bind_apply, hprev, hhead, hb.next]
    exact hrun
  | some y =>
    have hprev := hb.prev
    have hback := (hb.before_next y hbefore).1
    have hrun := hrest self rfl
    rw [hbefore] at hprev hrun
    simp [LinkedList.remove, getNext, getPrev, bind_apply, hprev, hback, hb.next, Prog.assert, setNext]
    exact hrun

lemma LinkedList.Holds.remove {self : LinkedList ι} (hl : Holds h self (pre ++ x :: post)) :
    ∃ self' h', self.remove x h = .ok (some x, self') h' ∧ Holds h' self' (pre ++ post) ∧ h' x = .none ∧
      ∀ y ∉ pre ++ x :: post, h' y = h y := by
  obtain ⟨hpre, -, -, hpost⟩ := linked_append.1 hl.linked
  obtain ⟨hprev, hnext⟩ := hl.linked.of_mem
  have hparts := List.nodup_append.1 hl.nodup
  have hunlinked := hl.unlink
  have hbeside : Beside h self x pre.getLast? post.head? := by
    rw [hl.eq]
    refine ⟨?_, ?_, fun y hy => ⟨hpre.next_getLast hy, ?_⟩, fun y hy => ⟨hpost.prev_head hy, ?_⟩,
      fun hnone => ?_, fun hnone => ?_⟩
    · rw [hprev, Option.or_none]
    · rw [hnext, Option.or_none]
    · exact hparts.2.2 y (List.mem_of_getLast? hy) x List.mem_cons_self
    · rintro rfl
      exact (List.nodup_cons.1 hparts.2.1).1 (List.mem_of_head? hy)
    · rw [List.getLast?_eq_none_iff] at hnone
      subst hnone
      rfl
    · rw [List.head?_eq_none_iff] at hnone
      subst hnone
      simp
  have hrun := remove_of_beside hbeside
  refine ⟨_, _, ?_, hunlinked, unlink_self _ _, fun y hy => unlink_eq hy⟩
  obtain ⟨rfl, -, -⟩ := hl
  rw [hrun]
  refine congrArg (fun l => Outcome.ok (some x, l) _) (LinkedList.ext ?_ ?_)
  · cases pre with
    | nil => rfl
    | cons y pre => simp [List.getLast?_cons]
  · cases post with
    | nil => simp
    | cons y post => simp [List.getLast?_append, List.getLast?_cons]

/-- A node without links that is not the first is left alone. -/
lemma LinkedList.Holds.remove_none {self : LinkedList ι} (hl : Holds h self xs) (hx : x ∉ xs)
    (hnone : h x = .none) : self.remove x h = .ok (none, self) h := by
  have hhead : self.head ≠ some x := by
    rw [hl.eq]
    exact fun heq => hx (List.mem_of_head? heq)
  simp [LinkedList.remove, getPrev, bind_apply, hnone, Links.none, hhead]

namespace GuardedLinkedList.Holds

variable {self : GuardedLinkedList ι}

/-- Only nodes of the ring change when one is taken out. -/
lemma unlink_eq {y : ι} (hy : y ∉ self.guard :: (pre ++ x :: post)) :
    unlink h x (pre.getLast?.or (some self.guard)) (post.head?.or (some self.guard)) y = h y := by
  have hguard : some self.guard ≠ some y := by
    rintro ⟨⟩
    exact hy List.mem_cons_self
  refine unlink_of_ne ?_ (fun heq => ?_) fun heq => ?_
  · rintro rfl
    simp at hy
  · rcases Option.or_eq_some_iff.1 heq with hlast | ⟨-, hout⟩
    · exact hy (List.mem_cons_of_mem _ (List.mem_append_left _ (List.mem_of_getLast? hlast)))
    · exact hguard hout
  · rcases Option.or_eq_some_iff.1 heq with hhead | ⟨-, hout⟩
    · exact hy (List.mem_cons_of_mem _ (List.mem_append_right _ (List.mem_cons_of_mem _ (List.mem_of_head? hhead))))
    · exact hguard hout

lemma unlink (hl : Holds h self (pre ++ x :: post)) :
    Holds (unlink h x (pre.getLast?.or (some self.guard)) (post.head?.or (some self.guard))) self (pre ++ post) := by
  have hsub : (pre ++ post).Sublist (pre ++ x :: post) := (List.sublist_cons_self x post).append_left pre
  exact ⟨hl.ring.unlink hl.nodup, hl.nodup.sublist (hsub.cons_cons _)⟩

/-- A node of a guarded list is taken out through another list, which stays as it is. -/
lemma remove (hl : Holds h self (pre ++ x :: post)) (other : LinkedList ι) :
    ∃ h', other.remove x h = .ok (some x, other) h' ∧ Holds h' self (pre ++ post) ∧ h' x = .none ∧
      ∀ y ∉ self.guard :: (pre ++ x :: post), h' y = h y := by
  obtain ⟨hback, hforth, hlinked⟩ := hl.ring
  obtain ⟨hguard, hnodup⟩ := List.nodup_cons.1 hl.nodup
  obtain ⟨hpre, -, -, hpost⟩ := linked_append.1 hlinked
  obtain ⟨hprev, hnext⟩ := hlinked.of_mem
  have hparts := List.nodup_append.1 hnodup
  have hne : self.guard ≠ x := by
    intro heq
    exact hguard (heq ▸ List.mem_append_right _ List.mem_cons_self)
  have hbeside : Beside h other x (pre.getLast?.or (some self.guard)) (post.head?.or (some self.guard)) := by
    refine ⟨hprev, hnext, fun y hy => ?_, fun y hy => ?_, fun hnone => ?_, fun hnone => ?_⟩
    · rcases Option.or_eq_some_iff.1 hy with hlast | ⟨hnone, ⟨⟩⟩
      · exact ⟨hpre.next_getLast hlast, hparts.2.2 y (List.mem_of_getLast? hlast) x List.mem_cons_self⟩
      · rw [List.getLast?_eq_none_iff] at hnone
        subst hnone
        exact ⟨hforth, hne⟩
    · rcases Option.or_eq_some_iff.1 hy with hhead | ⟨hnone, ⟨⟩⟩
      · refine ⟨hpost.prev_head hhead, ?_⟩
        rintro rfl
        exact (List.nodup_cons.1 hparts.2.1).1 (List.mem_of_head? hhead)
      · rw [List.head?_eq_none_iff] at hnone
        subst hnone
        refine ⟨?_, hne⟩
        rw [hback, List.getLast?_append, List.getLast?_singleton]
        rfl
    · rw [Option.or_eq_none_iff] at hnone
      cases hnone.2
    · rw [Option.or_eq_none_iff] at hnone
      cases hnone.2
  refine ⟨_, (remove_of_beside hbeside).trans ?_, hl.unlink, unlink_self _ _, fun y hy => unlink_eq hy⟩
  refine congrArg (fun l => Outcome.ok (some x, l) _) (LinkedList.ext ?_ ?_)
  · cases pre.getLast? <;> rfl
  · cases post.head? <;> rfl

lemma popBack_nil (hl : Holds h self []) : self.popBack h = .ok none h := by
  have hprev : (h self.guard).prev = some self.guard := hl.ring.1
  simp [GuardedLinkedList.popBack, tail, getPrev, bind_apply, hprev]

lemma popBack (hl : Holds h self (xs ++ [x])) : ∃ h', self.popBack h = .ok (some x) h' ∧
    Holds h' self xs ∧ h' x = .none ∧ ∀ y ∉ self.guard :: (xs ++ [x]), h' y = h y := by
  obtain ⟨hback, -, hlinked⟩ := hl.ring
  have hne : x ≠ self.guard := by
    rintro rfl
    simpa using (List.nodup_cons.1 hl.nodup).1
  have hguard : (h self.guard).prev = some x := by
    rw [hback, List.getLast?_append, List.getLast?_singleton]
    rfl
  obtain ⟨before, hbefore⟩ : ∃ before, xs.getLast?.or (some self.guard) = some before := by
    cases xs.getLast? with
    | none | some y => exact ⟨_, rfl⟩
  have hprev : (h x).prev = some before := hlinked.of_mem.1.trans hbefore
  have hpop := hl.unlink
  rw [List.append_nil] at hpop
  refine ⟨_, ?_, hpop, unlink_self _ _, fun y hy => unlink_eq hy⟩
  have hrun : self.popBack h = .ok (some x) (relinkNext (relinkPrev
      (relinkNext (relinkPrev h (some self.guard) (some before)) (some before) (some self.guard))
      (some x) none) (some x) none) := by
    simp [GuardedLinkedList.popBack, tail, getPrev, bind_apply, hguard, hne, hprev, setPrev, setNext]
  rw [hrun, relinkNext_relinkPrev_none, relinkNext_relinkPrev, Lib.unlink, hbefore]
  rfl

end GuardedLinkedList.Holds

/-- A list becomes a ring around the guard. -/
lemma LinkedList.Holds.intoGuarded {self : LinkedList ι} {g : ι} (hl : Holds h self xs) (hg : g ∉ xs) :
    ∃ h', self.intoGuarded g h = .ok ⟨g⟩ h' ∧ GuardedLinkedList.Holds h' ⟨g⟩ xs ∧
      ∀ y ∉ g :: xs, h' y = h y := by
  obtain ⟨rfl, hlinked, hnodup⟩ := hl
  cases xs with
  | nil =>
    refine ⟨Function.update h g ⟨some g, some g⟩, ?_, ⟨?_, List.nodup_singleton g⟩, fun y hy => ?_⟩
    · rw [← relinkPrev_relinkNext_self, ← relinkNext_relinkPrev]
      rfl
    · refine ring_iff.2 ⟨?_, ?_, trivial⟩
      · rw [Function.update_self]
        rfl
      · rw [Function.update_self]
        rfl
    · have hne : y ≠ g := by
        rintro rfl
        exact hy List.mem_cons_self
      exact Function.update_of_ne hne _ _
  | cons x xs =>
    obtain ⟨last, hlast⟩ : ∃ last, (x :: xs).getLast? = some last := ⟨_, List.getLast?_cons⟩
    have hprev : (h x).prev = none := hlinked.1
    have hnext : (h last).next = none := hlinked.next_getLast hlast
    have hlg : some g ≠ some last := by
      rintro ⟨⟩
      exact hg (List.mem_of_getLast? hlast)
    have hforth : (relinkNext (relinkPrev h (some x) (some g)) (some g) (some x) last).next = none := by
      rw [relinkNext_of_ne hlg, next_relinkPrev, hnext]
    refine ⟨relinkPrev (relinkNext (relinkNext (relinkPrev h (some x) (some g)) (some g) (some x))
      (some last) (some g)) (some g) (some last), ?_, ⟨?_, List.nodup_cons.2 ⟨hg, hnodup⟩⟩, fun y hy => ?_⟩
    · simp [LinkedList.intoGuarded, getPrev, getNext, bind_apply, hlast, hprev, hforth, setPrev, setNext,
        Prog.assert]
    · have hfirst : Linked (relinkPrev h (some x) (some g)) (some g) (x :: xs) none :=
        hlinked.relinkPrev hnodup (by rintro _ ⟨⟩) (some g)
      have hout : ∀ y ∈ some g, y ∉ x :: xs := by
        rintro y ⟨⟩
        exact hg
      have hring := hfirst.relinkNext hnodup hout (some g)
      rw [hlast, Option.some_or] at hring
      refine ring_iff.2 ⟨?_, ?_, hring.congr fun y hy => ?_⟩
      · rw [hlast, Option.some_or, prev_relinkPrev]
      · rw [next_relinkPrev, relinkNext_of_ne hlg.symm, next_relinkNext]
        rfl
      · -- the links of the guard do not matter to the nodes
        have hgy : some g ≠ some y := by
          rintro ⟨⟩
          exact hg hy
        rw [relinkPrev_of_ne hgy]
        by_cases heq : last = y
        · subst heq
          refine Links.ext ?_ ?_
          · rw [prev_relinkNext, prev_relinkNext, prev_relinkNext]
          · rw [next_relinkNext, next_relinkNext]
        · have hly : some last ≠ some y := fun h => heq (Option.some.inj h)
          rw [relinkNext_of_ne hly, relinkNext_of_ne hly, relinkNext_of_ne hgy]
    · have hgy : some g ≠ some y := by
        rintro ⟨⟩
        exact hy List.mem_cons_self
      have hxy : some x ≠ some y := by
        rintro ⟨⟩
        exact hy (List.mem_cons_of_mem _ List.mem_cons_self)
      have hly : some last ≠ some y := by
        rintro ⟨⟩
        exact hy (List.mem_cons_of_mem _ (List.mem_of_getLast? hlast))
      rw [relinkPrev_of_ne hgy, relinkNext_of_ne hly, relinkNext_of_ne hgy, relinkPrev_of_ne hxy]

end Holds

end Recapn.Channel

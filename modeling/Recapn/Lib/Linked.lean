/-
# Doubly linked nodes

Nodes have a link to the one before and a link to the one after.  A sequence of nodes is linked
when these are its neighbours, up to what comes before the first node and after the last one.
Sequences are cut and joined by setting the two links at the seam, and what is not a node of a
sequence does not matter to it.
-/
import Mathlib.Data.List.Nodup
import Mathlib.Logic.Function.Basic
import Mathlib.Tactic.Common

namespace Recapn.Lib

/-- The links of a node. -/
@[ext] structure Links (ι : Type) where
  prev : Option ι
  next : Option ι

/-- A node without links. -/
def Links.none {ι : Type} : Links ι := ⟨Option.none, Option.none⟩

variable {ι : Type}

/-- The nodes are linked one after the other, with `p` before and `q` after them. -/
def Linked (h : ι → Links ι) : Option ι → List ι → Option ι → Prop
  | _, [], _ => True
  | p, x :: xs, q => (h x).prev = p ∧ (h x).next = xs.head?.or q ∧ Linked h (some x) xs q

/-- The nodes that one comes to, so many at most. -/
def walk (step : ι → Option ι) : ℕ → Option ι → List ι
  | 0, _ => []
  | _ + 1, none => []
  | fuel + 1, some x => x :: walk step fuel (step x)

/-- Forwards is backwards. -/
def flip (h : ι → Links ι) : ι → Links ι := fun x => ⟨(h x).next, (h x).prev⟩

lemma flip_flip (h : ι → Links ι) : flip (flip h) = h := rfl

section Linked

variable {h h' : ι → Links ι} {p q : Option ι} {x : ι} {xs ys : List ι}

@[simp] lemma linked_nil : Linked h p [] q := trivial

lemma linked_cons : Linked h p (x :: xs) q ↔
    (h x).prev = p ∧ (h x).next = xs.head?.or q ∧ Linked h (some x) xs q := Iff.rfl

/-- Other nodes do not matter. -/
lemma Linked.congr (hl : Linked h p xs q) (heq : ∀ x ∈ xs, h' x = h x) : Linked h' p xs q := by
  induction xs generalizing p with
  | nil => trivial
  | cons x xs ih =>
    obtain ⟨hprev, hnext, hrest⟩ := hl
    have hx := heq x List.mem_cons_self
    refine ⟨?_, ?_, ih hrest fun y hy => heq y (List.mem_cons_of_mem _ hy)⟩
    · rw [hx]
      exact hprev
    · rw [hx]
      exact hnext

lemma linked_append : Linked h p (xs ++ ys) q ↔
    Linked h p xs (ys.head?.or q) ∧ Linked h (xs.getLast?.or p) ys q := by
  induction xs generalizing p with
  | nil => simp
  | cons x xs ih =>
    have hhead : (xs ++ ys).head?.or q = xs.head?.or (ys.head?.or q) := by
      rw [List.head?_append, Option.or_assoc]
    have hlast : (x :: xs).getLast?.or p = xs.getLast?.or (some x) := by
      cases xs with
      | nil => rfl
      | cons y ys => simp [List.getLast?_cons]
    rw [List.cons_append, linked_cons, linked_cons, ih, hhead, hlast, and_assoc, and_assoc]

lemma Linked.flip (hl : Linked h p xs q) : Linked (flip h) q xs.reverse p := by
  induction xs generalizing p with
  | nil => trivial
  | cons x xs ih =>
    obtain ⟨hprev, hnext, hrest⟩ := hl
    rw [List.reverse_cons, linked_append]
    refine ⟨ih hrest, ?_, ?_, trivial⟩
    · rw [List.getLast?_reverse]
      exact hnext
    · exact hprev

/-- Going forwards one comes to the nodes, and then to what is after them. -/
lemma Linked.walk_next (hl : Linked h p xs q) (fuel : ℕ) :
    walk (fun x => (h x).next) (xs.length + fuel) (xs.head?.or q) =
      xs ++ walk (fun x => (h x).next) fuel q := by
  induction xs generalizing p with
  | nil => simp
  | cons x xs ih =>
    obtain ⟨-, hnext, hrest⟩ := hl
    rw [List.length_cons, Nat.add_right_comm]
    show x :: walk _ _ (h x).next = x :: (xs ++ _)
    rw [hnext, ih hrest]

lemma Linked.walk_prev (hl : Linked h p xs q) (fuel : ℕ) :
    walk (fun x => (h x).prev) (xs.length + fuel) (xs.getLast?.or p) =
      xs.reverse ++ walk (fun x => (h x).prev) fuel p := by
  have hback := hl.flip.walk_next fuel
  rw [List.length_reverse, List.head?_reverse] at hback
  exact hback

lemma Linked.prev_head (hl : Linked h p xs q) (hx : xs.head? = some x) : (h x).prev = p := by
  cases xs with
  | nil => cases hx
  | cons y xs =>
    cases hx
    exact hl.1

lemma Linked.next_getLast (hl : Linked h p xs q) (hx : xs.getLast? = some x) : (h x).next = q :=
  hl.flip.prev_head (by rw [List.head?_reverse, hx])

/-- The neighbours of a node. -/
lemma Linked.of_mem {pre post : List ι} (hl : Linked h p (pre ++ x :: post) q) :
    (h x).prev = pre.getLast?.or p ∧ (h x).next = post.head?.or q :=
  let ⟨_, hprev, hnext, _⟩ := linked_append.1 hl
  ⟨hprev, hnext⟩

end Linked

/-! ## Setting links -/

section Relink

variable [DecidableEq ι] {h : ι → Links ι} {p q v : Option ι} {x : ι} {xs ys pre post : List ι}

/-- The link forwards of a node, if there is one, is set. -/
def relinkNext (h : ι → Links ι) (o v : Option ι) : ι → Links ι :=
  match o with
  | none => h
  | some x => Function.update h x { h x with next := v }

/-- The link backwards of a node, if there is one, is set. -/
def relinkPrev (h : ι → Links ι) (o v : Option ι) : ι → Links ι :=
  match o with
  | none => h
  | some x => Function.update h x { h x with prev := v }

lemma relinkNext_of_ne {o : Option ι} (hne : o ≠ some x) : relinkNext h o v x = h x := by
  cases o with
  | none => rfl
  | some y => exact Function.update_of_ne (fun heq => hne (congrArg some heq.symm)) _ _

lemma relinkPrev_of_ne {o : Option ι} (hne : o ≠ some x) : relinkPrev h o v x = h x := by
  cases o with
  | none => rfl
  | some y => exact Function.update_of_ne (fun heq => hne (congrArg some heq.symm)) _ _

@[simp] lemma prev_relinkNext (o : Option ι) : (relinkNext h o v x).prev = (h x).prev := by
  by_cases heq : o = some x
  · rw [heq]
    simp [relinkNext]
  · rw [relinkNext_of_ne heq]

@[simp] lemma next_relinkPrev (o : Option ι) : (relinkPrev h o v x).next = (h x).next := by
  by_cases heq : o = some x
  · rw [heq]
    simp [relinkPrev]
  · rw [relinkPrev_of_ne heq]

@[simp] lemma next_relinkNext : (relinkNext h (some x) v x).next = v := by simp [relinkNext]

@[simp] lemma prev_relinkPrev : (relinkPrev h (some x) v x).prev = v := by simp [relinkPrev]

lemma flip_relinkNext (o : Option ι) : flip (relinkNext h o v) = relinkPrev (flip h) o v := by
  funext x
  by_cases heq : o = some x
  · rw [heq]
    simp [flip, relinkNext, relinkPrev]
  · rw [relinkPrev_of_ne heq]
    simp only [flip, relinkNext_of_ne heq]

/-- A sequence gets something else before it. -/
lemma Linked.relinkPrev (hl : Linked h p xs q) (hnodup : xs.Nodup) (hq : ∀ x ∈ q, x ∉ xs) (v : Option ι) :
    Linked (relinkPrev h (xs.head?.or q) v) v xs q := by
  cases xs with
  | nil => trivial
  | cons x xs =>
    obtain ⟨-, hnext, hrest⟩ := hl
    refine ⟨prev_relinkPrev, ?_, hrest.congr fun y hy => ?_⟩
    · rw [next_relinkPrev]
      exact hnext
    · refine relinkPrev_of_ne fun heq => ?_
      cases heq
      exact (List.nodup_cons.1 hnodup).1 hy

/-- A sequence gets something else after it. -/
lemma Linked.relinkNext (hl : Linked h p xs q) (hnodup : xs.Nodup) (hp : ∀ x ∈ p, x ∉ xs) (v : Option ι) :
    Linked (relinkNext h (xs.getLast?.or p) v) p xs v := by
  have hback := hl.flip.relinkPrev (List.nodup_reverse.2 hnodup)
    (fun x hx hmem => hp x hx (List.mem_reverse.1 hmem)) v
  rw [List.head?_reverse, ← flip_relinkNext] at hback
  simpa [flip_flip] using hback.flip

/-- A node is taken out: the nodes beside it get each other, and it keeps no links. -/
def unlink (h : ι → Links ι) (x : ι) (before after : Option ι) : ι → Links ι :=
  Function.update (relinkPrev (relinkNext h before after) after before) x .none

@[simp] lemma unlink_self (before after : Option ι) : unlink h x before after x = .none :=
  Function.update_self _ _ _

/-- Only the nodes beside it change. -/
lemma unlink_of_ne {y : ι} {before after : Option ι} (hne : y ≠ x) (hbefore : before ≠ some y)
    (hafter : after ≠ some y) : unlink h x before after y = h y := by
  rw [unlink, Function.update_of_ne hne, relinkPrev_of_ne hafter, relinkNext_of_ne hbefore]

lemma Linked.unlink (hl : Linked h p (pre ++ x :: post) q) (hnodup : (pre ++ x :: post).Nodup)
    (hp : ∀ y ∈ p, y ∉ pre ++ x :: post) (hq : ∀ y ∈ q, y ∉ pre ++ x :: post) :
    Linked (unlink h x (pre.getLast?.or p) (post.head?.or q)) p (pre ++ post) q := by
  obtain ⟨hpre, -, -, hpost⟩ := linked_append.1 hl
  have hparts := List.nodup_append.1 hnodup
  have hx : x ∉ pre := fun hmem => hparts.2.2 x hmem x List.mem_cons_self rfl
  have hx' : x ∉ post := (List.nodup_cons.1 hparts.2.1).1
  have hdisjoint {y : ι} (hy : y ∈ pre) (hy' : y ∈ post) : False :=
    hparts.2.2 y hy y (List.mem_cons_of_mem _ hy') rfl
  -- what is beside the node is in one part, or outside of the sequence
  have hbefore {y : ι} (hy : y ∈ post) : pre.getLast?.or p ≠ some y := by
    intro heq
    rcases Option.or_eq_some_iff.1 heq with hlast | ⟨-, hout⟩
    · exact hdisjoint (List.mem_of_getLast? hlast) hy
    · exact hp y hout (List.mem_append_right _ (List.mem_cons_of_mem _ hy))
  have hafter {y : ι} (hy : y ∈ pre) : post.head?.or q ≠ some y := by
    intro heq
    rcases Option.or_eq_some_iff.1 heq with hhead | ⟨-, hout⟩
    · exact hdisjoint hy (List.mem_of_head? hhead)
    · exact hq y hout (List.mem_append_left _ hy)
  rw [linked_append]
  constructor
  · have hset := hpre.relinkNext hparts.1 (fun y hy hmem => hp y hy (List.mem_append_left _ hmem))
      (post.head?.or q)
    refine hset.congr fun y hy => ?_
    have hne : y ≠ x := by
      rintro rfl
      exact hx hy
    rw [Lib.unlink, Function.update_of_ne hne, relinkPrev_of_ne (hafter hy)]
  · have hpost' : Linked (Lib.relinkNext h (pre.getLast?.or p) (post.head?.or q)) (some x) post q :=
      hpost.congr fun y hy => relinkNext_of_ne (hbefore hy)
    have hset := hpost'.relinkPrev (List.nodup_cons.1 hparts.2.1).2
      (fun y hy hmem => hq y hy (List.mem_append_right _ (List.mem_cons_of_mem _ hmem)))
      (pre.getLast?.or p)
    refine hset.congr fun y hy => ?_
    have hne : y ≠ x := by
      rintro rfl
      exact hx' hy
    rw [Lib.unlink, Function.update_of_ne hne]

/-- Both links of a node are set. -/
lemma relinkPrev_relinkNext_self (a b : Option ι) :
    relinkPrev (relinkNext h (some x) a) (some x) b = Function.update h x ⟨b, a⟩ := by
  simp [relinkPrev, relinkNext]

lemma relinkNext_relinkPrev (o o' a b : Option ι) :
    relinkNext (relinkPrev h o a) o' b = relinkPrev (relinkNext h o' b) o a := by
  funext x
  refine Links.ext ?_ ?_
  · rw [prev_relinkNext]
    by_cases heq : o = some x
    · rw [heq, prev_relinkPrev, prev_relinkPrev]
    · rw [relinkPrev_of_ne heq, relinkPrev_of_ne heq, prev_relinkNext]
  · rw [next_relinkPrev]
    by_cases heq : o' = some x
    · rw [heq, next_relinkNext, next_relinkNext]
    · rw [relinkNext_of_ne heq, relinkNext_of_ne heq, next_relinkPrev]

/-- A node is put before the first. -/
lemma Linked.pushFront (hl : Linked h none xs none) (hnodup : xs.Nodup) (hx : x ∉ xs) :
    Linked (Lib.relinkPrev (Function.update h x ⟨none, xs.head?⟩) xs.head? (some x)) none (x :: xs) none := by
  have hhead : xs.head? ≠ some x := fun heq => hx (List.mem_of_head? heq)
  have hrest : Linked (Function.update h x ⟨none, xs.head?⟩) none xs none := by
    refine hl.congr fun y hy => Function.update_of_ne ?_ _ _
    rintro rfl
    exact hx hy
  have hset := hrest.relinkPrev hnodup nofun (some x)
  rw [Option.or_none] at hset
  refine ⟨?_, ?_, hset⟩
  · rw [relinkPrev_of_ne hhead, Function.update_self]
  · rw [relinkPrev_of_ne hhead, Function.update_self, Option.or_none]

/-- A node is put after the last. -/
lemma Linked.pushBack (hl : Linked h none xs none) (hnodup : xs.Nodup) (hx : x ∉ xs) :
    Linked (Lib.relinkNext (Function.update h x ⟨xs.getLast?, none⟩) xs.getLast? (some x)) none
      (xs ++ [x]) none := by
  have hback := (hl.flip.pushFront (List.nodup_reverse.2 hnodup) (mt List.mem_reverse.1 hx)).flip
  rw [List.reverse_cons, List.reverse_reverse, List.head?_reverse] at hback
  refine hback.congr fun y _ => ?_
  have hflip : Lib.flip (Function.update h x ⟨xs.getLast?, none⟩) =
      Function.update (Lib.flip h) x ⟨none, xs.getLast?⟩ := by
    funext z
    by_cases hz : z = x
    · rw [hz]
      simp [Lib.flip]
    · simp [Lib.flip, Function.update_of_ne hz]
  rw [← flip_flip (Lib.relinkNext _ _ _), flip_relinkNext, hflip]

/-- Two sequences are joined. -/
lemma Linked.join (hx : Linked h none xs none) (hy : Linked h none ys none) (hxs : xs.Nodup) (hys : ys.Nodup)
    (hdisjoint : ∀ z ∈ xs, z ∉ ys) :
    Linked (Lib.relinkPrev (Lib.relinkNext h xs.getLast? ys.head?) ys.head? xs.getLast?) none
      (xs ++ ys) none := by
  rw [linked_append, Option.or_none, Option.or_none]
  constructor
  · have hset := hx.relinkNext hxs nofun ys.head?
    rw [Option.or_none] at hset
    refine hset.congr fun z hz => relinkPrev_of_ne fun heq => ?_
    exact hdisjoint z hz (List.mem_of_head? heq)
  · have hrest : Linked (Lib.relinkNext h xs.getLast? ys.head?) none ys none := by
      refine hy.congr fun z hz => relinkNext_of_ne fun heq => ?_
      exact hdisjoint z (List.mem_of_getLast? heq) hz
    have hset := hrest.relinkPrev hys nofun xs.getLast?
    rwa [Option.or_none] at hset

end Relink

/-! ## Rings -/

/-- The nodes are linked in a ring, with a guard between the last and the first. -/
def Ring (h : ι → Links ι) (g : ι) (xs : List ι) : Prop :=
  Linked h (xs.getLast?.or (some g)) (g :: xs) (some g)

section Ring

variable {h : ι → Links ι} {g x : ι} {xs pre post : List ι}

lemma ring_iff : Ring h g xs ↔ (h g).prev = xs.getLast?.or (some g) ∧
    (h g).next = xs.head?.or (some g) ∧ Linked h (some g) xs (some g) := Iff.rfl

lemma Ring.congr {h' : ι → Links ι} (hr : Ring h g xs) (heq : ∀ y ∈ g :: xs, h' y = h y) : Ring h' g xs :=
  Linked.congr hr heq

variable [DecidableEq ι]

/-- A node is taken out of a ring. -/
lemma Ring.unlink (hr : Ring h g (pre ++ x :: post)) (hnodup : (g :: (pre ++ x :: post)).Nodup) :
    Ring (unlink h x (pre.getLast?.or (some g)) (post.head?.or (some g))) g (pre ++ post) := by
  obtain ⟨hprev, hnext, hl⟩ := hr
  obtain ⟨hg, hnodup⟩ := List.nodup_cons.1 hnodup
  have hgx : g ≠ x := by
    rintro rfl
    simp at hg
  have hout : ∀ y ∈ some g, y ∉ pre ++ x :: post := by
    rintro y ⟨⟩
    exact hg
  refine ⟨?_, ?_, hl.unlink hnodup hout hout⟩
  · rw [Lib.unlink, Function.update_of_ne hgx]
    cases post with
    | nil => simp
    | cons y post =>
      have hgy : some y ≠ some g := by
        rintro ⟨⟩
        simp at hg
      rw [List.head?_cons, Option.some_or, relinkPrev_of_ne hgy, prev_relinkNext, hprev]
      simp [List.getLast?_append, List.getLast?_cons]
  · rw [Lib.unlink, Function.update_of_ne hgx, next_relinkPrev]
    cases pre with
    | nil => simp
    | cons y pre =>
      have hlast : (y :: pre).getLast?.or (some g) ≠ some g := by
        intro heq
        rcases Option.or_eq_some_iff.1 heq with hmem | ⟨hnone, -⟩
        · exact hg (List.mem_append_left _ (List.mem_of_getLast? hmem))
        · simp at hnone
      rw [relinkNext_of_ne hlast, hnext]
      rfl

end Ring

end Recapn.Lib

/-
# Queues that are handed on

Sources put items into the queues of places.  A place that forwards hands its queue on: the items
go to the end of the queue where its chain ends, and so does what its sources put in from then on.
Nothing is lost or doubled, and the items of one source stay in their order.
-/
import Recapn.Lib.Forwarding

namespace Recapn.Lib

/-- Places `ι` with their queues, the sources `κ` and what they sent, and what has arrived. -/
structure Relay (ι κ α : Type) where
  next : ι → Option ι
  /-- Where a source puts its items in. -/
  place : κ → ι
  queue : ι → List (κ × α)
  arrived : List (κ × α)
  sent : κ → List α

namespace Relay

variable {ι κ α : Type} [DecidableEq ι] [DecidableEq κ]

/-- The items of one source. -/
def ofSource (k : κ) (items : List (κ × α)) : List α :=
  (items.filter fun item => item.1 = k).map Prod.snd

@[simp] lemma ofSource_append (k : κ) (items items' : List (κ × α)) :
    ofSource k (items ++ items') = ofSource k items ++ ofSource k items' := by
  simp [ofSource]

lemma ofSource_singleton (k k' : κ) (a : α) :
    ofSource k [(k', a)] = if k' = k then [a] else [] := by
  by_cases h : k' = k <;> simp [ofSource, h]

lemma ofSource_eq_nil {k : κ} {items : List (κ × α)} (h : ∀ item ∈ items, item.1 ≠ k) :
    ofSource k items = [] := by
  rw [ofSource, List.map_eq_nil_iff, List.filter_eq_nil_iff]
  intro item hitem
  simpa using h item hitem

/-- One more item of a source. -/
lemma ofSource_concat (k : κ) (a : α) (items : List (κ × α)) :
    (fun k' => ofSource k' (items ++ [(k, a)]))
      = Function.update (fun k' => ofSource k' items) k (ofSource k items ++ [a]) := by
  funext k'
  by_cases h : k' = k
  · rw [h, Function.update_self, ofSource_append, ofSource_singleton, if_pos rfl]
  · rw [Function.update_of_ne h, ofSource_append, ofSource_singleton, if_neg (Ne.symm h),
      List.append_nil]

/-- All chains end, items wait where their source leads to, and for every source what it sent is
what has arrived of it and then what waits. -/
structure Kept (s : Relay ι κ α) : Prop where
  ends : ∀ i, ∃ r, Leads s.next i r
  queued : ∀ {i : ι} {item : κ × α}, item ∈ s.queue i → Leads s.next (s.place item.1) i
  order : ∀ {k : κ} {r : ι}, Leads s.next (s.place k) r →
    ofSource k (s.arrived ++ s.queue r) = s.sent k

/-! ## Steps -/

/-- A source sends an item, which is queued at `r`. -/
def send (s : Relay ι κ α) (k : κ) (a : α) (r : ι) : Relay ι κ α :=
  { s with
    queue := Function.update s.queue r (s.queue r ++ [(k, a)])
    sent := Function.update s.sent k (s.sent k ++ [a]) }

/-- The first item of a queue arrives. -/
def arrive (s : Relay ι κ α) (r : ι) (item : κ × α) (rest : List (κ × α)) : Relay ι κ α :=
  { s with
    queue := Function.update s.queue r rest
    arrived := s.arrived ++ [item] }

/-- A place forwards to `j`, and its queue goes to `r`. -/
def handOn (s : Relay ι κ α) (i j r : ι) : Relay ι κ α :=
  { s with
    next := Function.update s.next i (some j)
    queue := Function.update (Function.update s.queue r (s.queue r ++ s.queue i)) i [] }

/-- A source sends from another place. -/
def move (s : Relay ι κ α) (k : κ) (i : ι) : Relay ι κ α :=
  { s with place := Function.update s.place k i }

variable {s : Relay ι κ α} {i j r : ι} {k : κ}

omit [DecidableEq ι] in
/-- Nothing of a source waits where it does not lead to. -/
lemma Kept.ofSource_queue (h : s.Kept) (hk : Leads s.next (s.place k) i) (hne : i ≠ r) :
    ofSource k (s.queue r) = [] := by
  refine ofSource_eq_nil fun item hitem => ?_
  rintro rfl
  exact hne (hk.unique (h.queued hitem))

theorem Kept.send (h : s.Kept) {a : α} (hk : Leads s.next (s.place k) r) :
    (s.send k a r).Kept where
  ends := h.ends
  queued {i item} hitem := by
    show Leads s.next (s.place item.1) i
    change item ∈ Function.update s.queue r (s.queue r ++ [(k, a)]) i at hitem
    by_cases hi : i = r
    · subst hi
      rw [Function.update_self, List.mem_append, List.mem_singleton] at hitem
      rcases hitem with hitem | rfl
      · exact h.queued hitem
      · exact hk
    · rw [Function.update_of_ne hi] at hitem
      exact h.queued hitem
  order {k' r'} hk' := by
    change Leads s.next (s.place k') r' at hk'
    show ofSource k' (s.arrived ++ Function.update s.queue r (s.queue r ++ [(k, a)]) r')
      = Function.update s.sent k (s.sent k ++ [a]) k'
    have hold := h.order hk'
    by_cases hkk : k' = k
    · subst hkk
      obtain rfl := hk.unique hk'
      rw [Function.update_self, Function.update_self, ← List.append_assoc, ofSource_append, hold,
        ofSource_singleton, if_pos rfl]
    · rw [Function.update_of_ne hkk, ← hold]
      by_cases hr : r' = r
      · subst hr
        rw [Function.update_self, ← List.append_assoc, ofSource_append _ (_ ++ _),
          ofSource_singleton, if_neg (Ne.symm hkk), List.append_nil]
      · rw [Function.update_of_ne hr]

theorem Kept.arrive (h : s.Kept) {item : κ × α} {rest : List (κ × α)}
    (hqueue : s.queue r = item :: rest) : (s.arrive r item rest).Kept where
  ends := h.ends
  queued {i item'} hitem := by
    show Leads s.next (s.place item'.1) i
    change item' ∈ Function.update s.queue r rest i at hitem
    by_cases hi : i = r
    · subst hi
      rw [Function.update_self] at hitem
      exact h.queued (hqueue ▸ List.mem_cons_of_mem _ hitem)
    · rw [Function.update_of_ne hi] at hitem
      exact h.queued hitem
  order {k r'} hk := by
    change Leads s.next (s.place k) r' at hk
    show ofSource k (s.arrived ++ [item] ++ Function.update s.queue r rest r') = s.sent k
    have hold := h.order hk
    by_cases hr : r' = r
    · subst hr
      rw [Function.update_self, List.append_assoc, List.singleton_append, ← hqueue, hold]
    · -- the item that arrives is of another source
      have hne : item.1 ≠ k := by
        rintro rfl
        have hitem : item ∈ s.queue r := by
          rw [hqueue]
          exact List.mem_cons_self
        exact hr (hk.unique (h.queued hitem))
      have hitem : ofSource k [item] = [] := by
        obtain ⟨k', a⟩ := item
        rw [ofSource_singleton, if_neg hne]
      rw [Function.update_of_ne hr, ofSource_append, ofSource_append, hitem, List.append_nil,
        ← ofSource_append, hold]

theorem Kept.handOn (h : s.Kept) (hi : s.next i = none) (hj : Leads s.next j r) (hne : r ≠ i) :
    (s.handOn i j r).Kept where
  ends := leads_update h.ends hi hj hne
  queued {i' item} hitem := by
    show Leads (Function.update s.next i (some j)) (s.place item.1) i'
    change item ∈ Function.update (Function.update s.queue r (s.queue r ++ s.queue i)) i [] i'
      at hitem
    by_cases hi' : i' = i
    · subst hi'
      rw [Function.update_self] at hitem
      cases hitem
    · rw [Function.update_of_ne hi'] at hitem
      by_cases hr : i' = r
      · subst hr
        rw [Function.update_self, List.mem_append] at hitem
        rcases hitem with hitem | hitem
        · exact (h.queued hitem).update_of_ne hi hne
        · exact (h.queued hitem).update_of_eq hj hne
      · rw [Function.update_of_ne hr] at hitem
        exact (h.queued hitem).update_of_ne hi hi'
  order {k r'} hk := by
    change Leads (Function.update s.next i (some j)) (s.place k) r' at hk
    show ofSource k (s.arrived ++
      Function.update (Function.update s.queue r (s.queue r ++ s.queue i)) i [] r') = s.sent k
    obtain ⟨end', hend⟩ := h.ends (s.place k)
    have hold := h.order hend
    by_cases hendi : end' = i
    · -- the chain of the source ended at `i`, and all that waits of it is handed on
      subst hendi
      obtain rfl := (hend.update_of_eq hj hne).unique hk
      rw [Function.update_of_ne hne, Function.update_self, ofSource_append, ofSource_append,
        h.ofSource_queue hend (Ne.symm hne), List.nil_append, ← ofSource_append, hold]
    · obtain rfl := (hend.update_of_ne hi hendi).unique hk
      rw [Function.update_of_ne hendi]
      by_cases hr : end' = r
      · subst hr
        rw [Function.update_self, ← List.append_assoc, ofSource_append,
          h.ofSource_queue hend hendi, List.append_nil, hold]
      · rw [Function.update_of_ne hr, hold]

/-- A source may send from another place when its chain ends where it did, or before it has sent
anything. -/
theorem Kept.move (h : s.Kept) (hk : s.sent k = [] ∨ Leads s.next i r ∧ Leads s.next (s.place k) r) :
    (s.move k i).Kept := by
  -- where a source leads to does not change, if it has sent anything
  have hplace : ∀ {k' r'}, s.sent k' ≠ [] →
      (Leads s.next (Function.update s.place k i k') r' ↔ Leads s.next (s.place k') r') := by
    intro k' r' hsent
    by_cases hkk : k' = k
    · subst hkk
      rw [Function.update_self]
      obtain ⟨hi, hplace⟩ := hk.resolve_left hsent
      constructor
      · intro hr'
        rw [hr'.unique hi]
        exact hplace
      · intro hr'
        rw [hr'.unique hplace]
        exact hi
    · rw [Function.update_of_ne hkk]
  have hnil : ∀ {k'}, s.sent k' = [] → ofSource k' s.arrived = [] ∧
      ∀ r', ofSource k' (s.queue r') = [] := by
    intro k' hsent
    obtain ⟨end', hend⟩ := h.ends (s.place k')
    have hold := h.order hend
    rw [hsent, ofSource_append, List.append_eq_nil_iff] at hold
    refine ⟨hold.1, fun r' => ?_⟩
    by_cases hr : end' = r'
    · exact hr ▸ hold.2
    · exact h.ofSource_queue hend hr
  refine ⟨h.ends, ?_, ?_⟩
  · intro i' item hitem
    refine (hplace fun hsent => ?_).2 (h.queued hitem)
    have hmem : item.2 ∈ ofSource item.1 (s.queue i') :=
      List.mem_map_of_mem (List.mem_filter.2 ⟨hitem, by simp⟩)
    rw [(hnil hsent).2] at hmem
    cases hmem
  · intro k' r' hk'
    by_cases hsent : s.sent k' = []
    · show ofSource k' (s.arrived ++ s.queue r') = s.sent k'
      rw [ofSource_append, (hnil hsent).1, (hnil hsent).2, hsent, List.nil_append]
    · exact h.order ((hplace hsent).1 hk')

end Relay

end Recapn.Lib

/-
# Two parsers of a slice

`TableSegmentSet` is a segment set that keeps the stream table as it is, and adds up lengths
whenever a segment is asked for.  It takes the same slices for messages as `read_from_slice` and
leaves the same rest, and the two give the same segments, but for one: where the last segment is
empty, `TableSegmentSet::segment` indexes the data with its length and panics.
-/
import Recapn.Io.Framing

namespace Recapn.Io

open Recapn.Lib.Slices

/-- `TableSegmentSet`. -/
structure TableSegmentSet where
  table : StreamTableRef
  data : List Word
deriving DecidableEq

namespace TableSegmentSet

/-- The loop of `TableSegmentSet::new`, which validates the table and finds the end. -/
def newLoop : List ℕ → SegmentId → ℕ → Except ReadError ℕ
  | [], _, totalLen => .ok totalLen
  | len :: lens, id, totalLen =>
    match U29.new len with
    | none => .error (.segmentTooLarge id)
    | some len =>
      match checkedAdd 64 totalLen len.get with
      | none => .error .incomplete
      | some newTotal => newLoop lens (id + 1) newTotal

/-- `TableSegmentSet::new`: the set and the rest of the slice. -/
def new (words : List Word) : Option (Except ReadError (TableSegmentSet × List Word)) :=
  (StreamTableRef.tryRead words).map fun
    | .error err => .error (.table err)
    | .ok (table, data) =>
      match newLoop table.table 0 0 with
      | .error err => .error err
      | .ok totalLen =>
        if data.length < totalLen then .error .incomplete
        else .ok (⟨table, data.take totalLen⟩, data.drop totalLen)

/-- `TableSegmentSet::segment`: the words of a segment. -/
def segment (self : TableSegmentSet) (id : SegmentId) : Option (Option (List Word)) :=
  if id < self.table.count then
    let segments := self.table.table.take (id + 1)
    -- `split_last`, and `unwrap`
    segments.getLast?.bind fun segment =>
      let start := segments.dropLast.sum
      -- the index of `&self.data[start]`
      if start < self.data.length then
        (U29.new segment).map fun len => some ((self.data.drop start).take len.get)
      else none
  else some none

/-! ## The table -/

/-- The lengths of a table that belong to a message in the content. -/
def Complete (lens : List ℕ) (content : List Word) : Prop :=
  (∀ len ∈ lens, len < 2 ^ 29) ∧ lens.sum ≤ content.length

instance (lens : List ℕ) (content : List Word) : Decidable (Complete lens content) :=
  inferInstanceAs (Decidable (_ ∧ _))

lemma newLoop_of_lt {lens : List ℕ} (id : SegmentId) {total : ℕ}
    (hlt : ∀ len ∈ lens, len < 2 ^ 29) (husize : total + lens.sum < 2 ^ 64) :
    newLoop lens id total = .ok (total + lens.sum) := by
  induction lens generalizing id total with
  | nil => rfl
  | cons len lens ih =>
    rw [List.sum_cons, ← Nat.add_assoc] at husize
    rw [newLoop, U29.new_of_lt (hlt len List.mem_cons_self)]
    simp only
    rw [checkedAdd_of_lt (by omega)]
    simp only
    rw [ih _ (fun len h => hlt len (List.mem_cons_of_mem _ h)) husize, List.sum_cons, Nat.add_assoc]

/-- What the loop accepts are lengths. -/
lemma newLoop_eq_ok {lens : List ℕ} {id : SegmentId} {total totalLen : ℕ}
    (h : newLoop lens id total = .ok totalLen) :
    (∀ len ∈ lens, len < 2 ^ 29) ∧ totalLen = total + lens.sum := by
  induction lens generalizing id total with
  | nil =>
    cases h
    exact ⟨fun _ hmem => absurd hmem List.not_mem_nil, rfl⟩
  | cons len lens ih =>
    rw [newLoop] at h
    rcases hlen : U29.new len with _ | n
    · rw [hlen] at h
      cases h
    · rw [hlen] at h
      simp only at h
      have hget := U29.new_eq_some.1 hlen
      unfold checkedAdd at h
      split at h
      · cases h
      · next hadd =>
        split at hadd
        · cases hadd
          obtain ⟨hlt, htotal⟩ := ih h
          refine ⟨List.forall_mem_cons.2 ⟨hget ▸ n.get_lt, hlt⟩, ?_⟩
          rw [htotal, List.sum_cons, hget, Nat.add_assoc]
        · cases hadd

end TableSegmentSet

namespace SegmentSetTable

/-- A length is taken when it is one. -/
lemma segmentLenToUsize_eq_ok {len n : ℕ} {id : SegmentId}
    (h : segmentLenToUsize len id = .ok n) : n = len ∧ len < 2 ^ 29 := by
  unfold segmentLenToUsize at h
  split at h
  · next u hu =>
    cases h
    have hget := U29.new_eq_some.1 hu
    exact ⟨hget, hget ▸ u.get_lt⟩
  · cases h

/-- What the loop of `from_stream` accepts are lengths within the limit. -/
lemma fromStreamLoop_eq_ok {limit : ℕ} {lens startIdxs startIdxs' : List ℕ} {id : SegmentId}
    {pos pos' : ℕ} (h : fromStreamLoop limit lens id startIdxs pos = .ok (startIdxs', pos'))
    (hpos : pos ≤ limit) :
    (∀ len ∈ lens, len < 2 ^ 29) ∧ pos + lens.sum ≤ limit := by
  induction lens generalizing id startIdxs pos with
  | nil => exact ⟨fun _ hmem => absurd hmem List.not_mem_nil, hpos⟩
  | cons len lens ih =>
    rw [fromStreamLoop] at h
    split at h
    · cases h
    · next n hlen =>
      obtain ⟨rfl, hlt⟩ := segmentLenToUsize_eq_ok hlen
      split at h
      · cases h
      · next newPos hadd =>
        obtain ⟨hadd, hle⟩ := Option.filter_eq_some_iff.1 hadd
        obtain rfl : pos + n = newPos := by
          unfold checkedAdd at hadd
          split at hadd
          · exact Option.some.inj hadd
          · cases hadd
        obtain ⟨hall, hsum⟩ := ih h (of_decide_eq_true hle)
        refine ⟨List.forall_mem_cons.2 ⟨hlt, hall⟩, ?_⟩
        rw [List.sum_cons]
        omega

/-- What `from_stream` accepts are lengths within the limit. -/
lemma fromStream_eq_ok {table : StreamTableRef} {limit len : ℕ} {set : SegmentSetTable}
    (h : fromStream table limit = .ok (set, len)) :
    (∀ len ∈ table.table, len < 2 ^ 29) ∧ table.table.sum ≤ limit := by
  obtain ⟨first, remainder, hlens⟩ := List.exists_cons_of_ne_nil table.nonempty
  have hsplit : table.splitFirst = (first, remainder) := by
    simp only [StreamTableRef.splitFirst, hlens, List.head_cons, List.tail_cons]
  rw [fromStream, hsplit] at h
  rw [hlens]
  simp only at h
  split at h
  · cases h
  · next n hlen =>
    obtain ⟨rfl, hlt⟩ := segmentLenToUsize_eq_ok hlen
    split at h
    · cases h
    · next hle =>
      rcases hloop : fromStreamLoop limit remainder 1 [] n with err | ⟨startIdxs, pos⟩
      · rw [hloop] at h
        cases h
      · obtain ⟨hall, hsum⟩ := fromStreamLoop_eq_ok hloop (Nat.not_lt.1 hle)
        exact ⟨List.forall_mem_cons.2 ⟨hlt, hall⟩, by rw [List.sum_cons]; exact hsum⟩

end SegmentSetTable

/-! ## The message in a slice -/

/-- The table of a slice is read, or is found not to be there. -/
lemma StreamTableRef.tryRead_cases (slice : List Word) :
    (∃ err, tryRead slice = some (.error err)) ∨
      ∃ table content, tryRead slice = some (.ok (table, content)) ∧ table.count < 2 ^ 32 := by
  have hlen := length_u32s slice
  rcases hslice : u32s slice with _ | ⟨count, values⟩
  · exact Or.inl ⟨.empty, by rw [tryRead, hslice]⟩
  rw [hslice, List.length_cons] at hlen
  by_cases hcount : count + 1 < 2 ^ 32
  · rw [tryRead_eq hslice hcount]
    by_cases hsize : tableSizeFromCount (count + 1) ≤ slice.length
    · have hle : count + 1 ≤ values.length := by
        unfold tableSizeFromCount at hsize
        omega
      have hne : values.take (count + 1) ≠ [] := by
        rw [← List.length_pos_iff, List.length_take]
        omega
      rw [if_pos hsize, if_pos hle, StreamTableRef.new, dif_neg hne]
      refine Or.inr ⟨⟨values.take (count + 1), hne⟩, _, rfl, ?_⟩
      rw [StreamTableRef.count, List.length_take]
      omega
    · rw [if_neg hsize]
      exact Or.inl ⟨_, rfl⟩
  · refine Or.inl ⟨.tooManySegments, ?_⟩
    rw [tryRead, hslice]
    simp only [checkedAdd, if_neg hcount]

/-- Lengths that are complete are those of a message, which the content starts with. -/
lemma exists_message {table : StreamTableRef} {content : List Word} (hcount : table.count < 2 ^ 32)
    (h : TableSegmentSet.Complete table.table content) :
    ∃ (segments : MessageSegments) (rest : List Word), refOf segments = table ∧
      content = segments.words.flatten ++ rest := by
  obtain ⟨hlt, hsum⟩ := h
  have hlens := map_length_cut table.table content hsum
  have hpieces : ∀ piece ∈ cut table.table content, piece.length < 2 ^ 29 := fun piece hmem =>
    hlt _ (hlens ▸ List.mem_map_of_mem hmem)
  have hlength : (cut table.table content).length = table.table.length := by
    rw [← List.length_map List.length, hlens]
  let segments : MessageSegments := {
    segments := (cut table.table content).pmap MessageSegment.mk hpieces
    nonempty := by
      rw [← List.length_pos_iff, List.length_pmap, hlength]
      exact List.length_pos_of_ne_nil table.nonempty
    length_lt := by
      rw [List.length_pmap, hlength]
      exact hcount }
  have hwords : segments.words = cut table.table content := by
    show ((cut table.table content).pmap MessageSegment.mk hpieces).map MessageSegment.asWords = _
    rw [List.map_pmap, List.pmap_eq_map, List.map_id']
  refine ⟨segments, content.drop table.table.sum, ?_, ?_⟩
  · obtain ⟨lens, hne⟩ := table
    have heq : segments.lens = lens := by
      rw [MessageSegments.lens, hwords]
      exact hlens
    simp only [refOf, heq]
  · rw [hwords, flatten_cut, List.take_append_drop]

namespace TableSegmentSet

/-- The set that holds the segments of a message. -/
def ofSegments (segments : MessageSegments) : TableSegmentSet :=
  ⟨refOf segments, segments.words.flatten⟩

/-- The parser on the table of a message, with the segments and something behind it. -/
lemma new_of_tryRead {segments : MessageSegments} {slice rest : List Word}
    (h : StreamTableRef.tryRead slice
      = some (.ok (refOf segments, segments.words.flatten ++ rest))) :
    new slice = some (.ok (ofSegments segments, rest)) := by
  have hloop : newLoop (refOf segments).table 0 0 = .ok segments.totalWords := by
    have husize : 0 + segments.lens.sum < 2 ^ 64 := by
      rw [Nat.zero_add]
      exact SegmentSetTable.totalWords_lt segments
    show newLoop segments.lens 0 0 = .ok segments.lens.sum
    rw [newLoop_of_lt 0 (fun _ hmem => MessageSegments.lt_of_mem_lens hmem) husize, Nat.zero_add]
  have hle : segments.totalWords ≤ (segments.words.flatten ++ rest).length := by
    rw [List.length_append, segments.totalWords_eq]
    exact Nat.le_add_right _ _
  rw [new, h, Option.map_some]
  simp only [hloop]
  rw [if_neg (Nat.not_lt.2 hle), segments.totalWords_eq, List.take_left, List.drop_left]
  rfl

/-- What the parser accepts is complete. -/
lemma complete_of_new {table : StreamTableRef} {slice content rest : List Word}
    {set : TableSegmentSet} (hread : StreamTableRef.tryRead slice = some (.ok (table, content)))
    (h : new slice = some (.ok (set, rest))) : Complete table.table content := by
  rw [new, hread, Option.map_some, Option.some.injEq] at h
  rcases hloop : newLoop table.table 0 0 with err | totalLen
  · simp only [hloop] at h
    cases h
  · simp only [hloop] at h
    obtain ⟨hlt, htotal⟩ := newLoop_eq_ok hloop
    rw [Nat.zero_add] at htotal
    split at h
    · cases h
    · next hle => exact ⟨hlt, htotal ▸ Nat.not_lt.1 hle⟩

/-- The leading segments of a segment, and the segment. -/
lemma take_lens {segments : MessageSegments} {id : SegmentId} (h : id < segments.words.length) :
    segments.lens.take (id + 1) = segments.lens.take id ++ [segments.words[id].length] := by
  have hlens : id < segments.lens.length := by
    rw [segments.length_lens, ← segments.length_words]
    exact h
  rw [List.take_succ_eq_append_getElem hlens]
  simp only [MessageSegments.lens, List.getElem_map]

/-- The data from the start of a segment on. -/
lemma sum_take_lens (segments : MessageSegments) (id : SegmentId) :
    (segments.lens.take id).sum = (segments.words.take id).flatten.length :=
  (length_flatten_take segments.words id).symm

/-- A segment of a message, when there is a word at its start. -/
lemma segment_ofSegments {segments : MessageSegments} {id : SegmentId}
    (h : id < segments.words.length) :
    (ofSegments segments).segment id =
      if (segments.words.take id).flatten.length < segments.words.flatten.length then
        some (some segments.words[id])
      else none := by
  have hcount : id < (ofSegments segments).table.count := by
    show id < segments.lens.length
    rw [segments.length_lens, ← segments.length_words]
    exact h
  have hlt : segments.words[id].length < 2 ^ 29 :=
    MessageSegments.lt_of_mem_lens (List.mem_map_of_mem (List.getElem_mem h))
  rw [segment, if_pos hcount]
  simp only [show (ofSegments segments).table.table = segments.lens from rfl, take_lens h,
    List.getLast?_concat, List.dropLast_concat, Option.bind_some, sum_take_lens, U29.new_of_lt hlt,
    Option.map_some, show (ofSegments segments).data = segments.words.flatten from rfl,
    take_drop_flatten segments.words h]

lemma segment_ofSegments_ge {segments : MessageSegments} {id : SegmentId}
    (h : segments.words.length ≤ id) : (ofSegments segments).segment id = some none := by
  refine if_neg ?_
  show ¬ id < segments.lens.length
  rw [segments.length_lens, ← segments.length_words]
  exact Nat.not_lt.2 h

end TableSegmentSet

/-! ## Both parsers -/

/-- Both parsers turn the slice down, or both accept it, leave the same rest and give the same
segments, without a panic. -/
def ParsersAgree (slice : List Word) : Prop :=
  (∃ err err', TableSegmentSet.new slice = some (.error err) ∧
    readFromSlice slice = some (.error err')) ∨
  ∃ set set' rest, TableSegmentSet.new slice = some (.ok (set, rest)) ∧
    readFromSlice slice = some (.ok (set', rest)) ∧
    ∀ id, ∃ words, set.segment id = some words ∧ set'.segment id = some words

/-- The slice starts with a complete message, and the last segment of it is empty. -/
def EndsEmpty (slice : List Word) : Prop :=
  ∃ table content, StreamTableRef.tryRead slice = some (.ok (table, content)) ∧
    TableSegmentSet.Complete table.table content ∧ table.table.getLast? = some 0

/-- A slice with no complete message is turned down by both. -/
lemma parsersAgree_of_not_complete {slice content : List Word} {table : StreamTableRef}
    (hread : StreamTableRef.tryRead slice = some (.ok (table, content)))
    (h : ¬ TableSegmentSet.Complete table.table content) : ParsersAgree slice := by
  refine Or.inl ?_
  obtain ⟨err, hnew⟩ : ∃ err, TableSegmentSet.new slice = some (.error err) := by
    rcases hnew : TableSegmentSet.new slice with _ | ⟨err | ⟨set, rest⟩⟩
    · rw [TableSegmentSet.new, hread] at hnew
      cases hnew
    · exact ⟨err, rfl⟩
    · exact absurd (TableSegmentSet.complete_of_new hread hnew) h
  obtain ⟨err', hfrom⟩ : ∃ err', SegmentSetTable.fromStream table content.length = .error err' := by
    rcases hfrom : SegmentSetTable.fromStream table content.length with err' | ⟨set, len⟩
    · exact ⟨err', rfl⟩
    · exact absurd (SegmentSetTable.fromStream_eq_ok hfrom) h
  refine ⟨err, err', hnew, ?_⟩
  rw [readFromSlice, hread, Option.map_some]
  simp only [hfrom]

/-- The words before a segment are fewer than all words when a later segment is not empty. -/
lemma length_take_flatten_lt {pieces : List (List Word)} {id : ℕ} {last : List Word}
    (h : id < pieces.length) (hlast : pieces.getLast? = some last) (hne : last ≠ []) :
    (pieces.take id).flatten.length < pieces.flatten.length := by
  obtain ⟨init, rfl⟩ := List.getLast?_eq_some_iff.1 hlast
  have hpos := List.length_pos_of_ne_nil hne
  rw [List.length_append, List.length_singleton] at h
  rw [List.take_append_of_le_length (by omega), List.flatten_append, List.length_append,
    List.flatten_singleton]
  have hinit : init.flatten.length
      = (init.take id).flatten.length + (init.drop id).flatten.length := by
    rw [← List.length_append, ← List.flatten_append, List.take_append_drop]
  omega

/-- On a message, the parsers agree when the last segment is not empty. -/
lemma parsersAgree_iff_of_message {segments : MessageSegments} {slice rest : List Word}
    (hread : StreamTableRef.tryRead slice
      = some (.ok (refOf segments, segments.words.flatten ++ rest))) :
    ParsersAgree slice ↔ segments.lens.getLast? ≠ some 0 := by
  have hnew := TableSegmentSet.new_of_tryRead hread
  have hslice := readFromSlice_of_tryRead hread
  have hne : segments.words ≠ [] := by
    rw [← List.length_pos_iff, segments.length_words]
    exact segments.len_pos
  obtain ⟨init, last, hwords⟩ : ∃ init last, segments.words = init ++ [last] :=
    ⟨_, _, (List.dropLast_concat_getLast hne).symm⟩
  have hlast : segments.lens.getLast? = some last.length := by
    rw [MessageSegments.lens, hwords, List.map_append, List.map_singleton, List.getLast?_concat]
  rw [hlast]
  constructor
  · -- the last segment, which is empty, would start at the end of the data
    rintro (⟨err, err', herr, -⟩ | ⟨set, set', rest', hset, -, hall⟩) hzero
    · rw [hnew] at herr
      cases herr
    · rw [hnew] at hset
      cases hset
      obtain ⟨words, hwords', -⟩ := hall init.length
      have hlt : init.length < segments.words.length := by
        rw [hwords, List.length_append]
        exact Nat.lt_succ_self _
      have hempty : last = [] := List.eq_nil_of_length_eq_zero (Option.some.inj hzero)
      have hend : ¬ (segments.words.take init.length).flatten.length
          < segments.words.flatten.length := by
        rw [hwords, List.take_left, List.flatten_append, List.flatten_singleton, hempty,
          List.append_nil]
        exact Nat.lt_irrefl _
      rw [TableSegmentSet.segment_ofSegments hlt, if_neg hend] at hwords'
      cases hwords'
  · intro hnonzero
    have hlast' : last ≠ [] := by
      rintro rfl
      exact hnonzero rfl
    refine Or.inr ⟨_, _, rest, hnew, hslice, fun id => ⟨segments.words[id]?, ?_, ?_⟩⟩
    · by_cases hid : id < segments.words.length
      · rw [TableSegmentSet.segment_ofSegments hid, List.getElem?_eq_getElem hid]
        have hgetLast : segments.words.getLast? = some last := by
          rw [hwords, List.getLast?_concat]
        exact if_pos (length_take_flatten_lt hid hgetLast hlast')
      · rw [TableSegmentSet.segment_ofSegments_ge (Nat.not_lt.1 hid),
          List.getElem?_eq_none (Nat.not_lt.1 hid)]
    · exact SegmentSet.segment_ofSegments segments id

/-- **The parsers of a slice agree** on every slice, except where the slice starts with a complete
message whose last segment is empty. -/
theorem parsersAgree_iff (slice : List Word) : ParsersAgree slice ↔ ¬ EndsEmpty slice := by
  rcases StreamTableRef.tryRead_cases slice with ⟨err, hread⟩ | ⟨table, content, hread, hcount⟩
  · refine iff_of_true (Or.inl ⟨.table err, .table err, ?_, ?_⟩) ?_
    · rw [TableSegmentSet.new, hread, Option.map_some]
    · rw [readFromSlice, hread, Option.map_some]
    · rintro ⟨table, content, hread', -⟩
      rw [hread] at hread'
      cases hread'
  · have hends : EndsEmpty slice ↔
        TableSegmentSet.Complete table.table content ∧ table.table.getLast? = some 0 := by
      constructor
      · rintro ⟨table', content', hread', h⟩
        rw [hread] at hread'
        cases hread'
        exact h
      · exact fun h => ⟨table, content, hread, h⟩
    rw [hends]
    by_cases hcomplete : TableSegmentSet.Complete table.table content
    · obtain ⟨segments, rest, rfl, rfl⟩ := exists_message hcount hcomplete
      rw [parsersAgree_iff_of_message hread]
      exact ⟨fun h hempty => h hempty.2, fun h hlast => h ⟨hcomplete, hlast⟩⟩
    · exact iff_of_true (parsersAgree_of_not_complete hread hcomplete) fun h => hcomplete h.1

/-- The message of one empty segment: its only word says so twice. -/
theorem not_parsersAgree : ¬ ∀ slice, ParsersAgree slice := by
  intro h
  obtain ⟨err, err', herr, -⟩ | ⟨set, set', rest, hset, -, hall⟩ := h [Word.null]
  · have hnew : TableSegmentSet.new [Word.null] = some (.ok (⟨⟨[0], by decide⟩, []⟩, [])) := by
      decide +kernel
    rw [hnew] at herr
    cases herr
  · have hnew : TableSegmentSet.new [Word.null] = some (.ok (⟨⟨[0], by decide⟩, []⟩, [])) := by
      decide +kernel
    rw [hnew] at hset
    cases hset
    obtain ⟨words, hwords, -⟩ := hall 0
    cases hwords

end Recapn.Io

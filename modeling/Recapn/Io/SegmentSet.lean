/-
# Segment sets

A message that was read is a slice of words and the positions where its segments start.  This
is the arena that readers of streams and slices make; the positions are computed from the
lengths in the stream table.
-/
import Recapn.Io.StreamTable
import Recapn.Lib.Slices

namespace Recapn.Io

open Recapn.Lib.Slices

/-- `ReadError`. -/
inductive ReadError where
  | table (err : TableReadError)
  | segmentTooLarge (segment : SegmentId)
  | messageTooLarge
  | incomplete
deriving DecidableEq, Repr

/-- `SegmentSetTable`: the start of every segment but the first. -/
structure SegmentSetTable where
  table : List ℕ
deriving DecidableEq, Repr

/-- `segment_len_to_usize`. -/
def segmentLenToUsize (len : ℕ) (id : SegmentId) : Except ReadError ℕ :=
  match U29.new len with
  | some len => .ok len.get
  | none => .error (.segmentTooLarge id)

namespace SegmentSetTable

/-- The loop of `SegmentSetTable::from_stream` over the lengths after the first. -/
def fromStreamLoop (limit : ℕ) : List ℕ → SegmentId → List ℕ → ℕ → Except ReadError (List ℕ × ℕ)
  | [], _, startIdxs, currentPos => .ok (startIdxs, currentPos)
  | len :: lens, id, startIdxs, currentPos =>
    match segmentLenToUsize len id with
    | .error err => .error err
    | .ok len =>
      match (checkedAdd 64 currentPos len).filter (· ≤ limit) with
      | none => .error .messageTooLarge
      | some newPos => fromStreamLoop limit lens (id + 1) (startIdxs ++ [currentPos]) newPos

/-- `SegmentSetTable::from_stream`: the table and the length of the message. -/
def fromStream (table : StreamTableRef) (limit : ℕ) : Except ReadError (SegmentSetTable × ℕ) :=
  let (first, remainder) := table.splitFirst
  match segmentLenToUsize first 0 with
  | .error err => .error err
  | .ok currentPos =>
    if limit < currentPos then .error .messageTooLarge
    else (fromStreamLoop limit remainder 1 [] currentPos).map fun (startIdxs, currentPos) =>
      (⟨startIdxs⟩, currentPos)

/-- `SegmentSetTable::segment_bounds`: the start, and the end where it is not open. -/
def segmentBounds (self : SegmentSetTable) (id : SegmentId) : Option (ℕ × Option ℕ) :=
  (if id = 0 then some 0 else self.table[id - 1]?).map fun start => (start, self.table[id]?)

/-- `SegmentSetTable::last_start`. -/
def lastStart (self : SegmentSetTable) : ℕ := self.table.getLast?.getD 0

/-- The table of segments with the given lengths. -/
def ofLens (lens : List ℕ) : SegmentSetTable := ⟨(starts 0 lens).tail⟩

/-- Within the limit every segment gets its start. -/
lemma fromStreamLoop_eq {limit : ℕ} {lens : List ℕ} (id : SegmentId) (startIdxs : List ℕ) {pos : ℕ}
    (hlt : ∀ len ∈ lens, len < 2 ^ 29) (hlimit : pos + lens.sum ≤ limit)
    (husize : pos + lens.sum < 2 ^ 64) :
    fromStreamLoop limit lens id startIdxs pos
      = .ok (startIdxs ++ starts pos lens, pos + lens.sum) := by
  induction lens generalizing id startIdxs pos with
  | nil => rw [fromStreamLoop, starts, List.append_nil, List.sum_nil, Nat.add_zero]
  | cons len lens ih =>
    rw [List.sum_cons, ← Nat.add_assoc] at hlimit husize
    have hlen : segmentLenToUsize len id = .ok len := by
      rw [segmentLenToUsize, U29.new_of_lt (hlt len List.mem_cons_self)]
    have hadd : (checkedAdd 64 pos len).filter (· ≤ limit) = some (pos + len) := by
      rw [checkedAdd_of_lt (by omega), Option.filter_some, decide_eq_true (by omega)]
      rfl
    rw [fromStreamLoop, hlen]
    show (match (checkedAdd 64 pos len).filter (· ≤ limit) with | none => _ | some newPos => _) = _
    rw [hadd]
    show fromStreamLoop limit lens (id + 1) (startIdxs ++ [pos]) (pos + len) = _
    rw [ih _ _ (fun len h => hlt len (List.mem_cons_of_mem _ h)) hlimit husize, starts,
      List.append_assoc, List.sum_cons, Nat.add_assoc]
    rfl

lemma sum_le_of_lt {lens : List ℕ} {bound : ℕ} (hlt : ∀ len ∈ lens, len < bound) :
    lens.sum ≤ lens.length * bound := by
  induction lens with
  | nil => exact Nat.zero_le _
  | cons len lens ih =>
    have hlen := hlt len List.mem_cons_self
    have hlens := ih fun len h => hlt len (List.mem_cons_of_mem _ h)
    rw [List.sum_cons, List.length_cons, Nat.succ_mul]
    omega

/-- The words of a message never overflow a `usize`. -/
lemma totalWords_lt (segments : MessageSegments) : segments.totalWords < 2 ^ 64 := by
  have hsum : segments.totalWords ≤ segments.lens.length * 2 ^ 29 :=
    sum_le_of_lt fun _ h => MessageSegments.lt_of_mem_lens h
  have hlen : segments.lens.length < 2 ^ 32 := by
    rw [segments.length_lens]
    exact segments.length_lt
  have hmul : segments.lens.length * 2 ^ 29 < 2 ^ 32 * 2 ^ 29 :=
    Nat.mul_lt_mul_of_pos_right hlen (by decide)
  omega

/-- The table of a message is read segment by segment. -/
lemma fromStream_refOf_eq (segments : MessageSegments) (limit : ℕ) :
    ∃ first remainder, segments.lens = first :: remainder ∧ (∀ len ∈ remainder, len < 2 ^ 29) ∧
      segments.totalWords = first + remainder.sum ∧
      fromStream (refOf segments) limit = if limit < first then .error .messageTooLarge
        else (fromStreamLoop limit remainder 1 [] first).map fun found => (⟨found.1⟩, found.2) := by
  obtain ⟨first, remainder, hlens⟩ := List.exists_cons_of_ne_nil (refOf segments).nonempty
  have hlens' : segments.lens = first :: remainder := hlens
  have hall : ∀ len ∈ first :: remainder, len < 2 ^ 29 := fun len hmem =>
    MessageSegments.lt_of_mem_lens (hlens' ▸ hmem)
  have hfirst : segmentLenToUsize first 0 = .ok first := by
    rw [segmentLenToUsize, U29.new_of_lt (hall first List.mem_cons_self)]
  have hsplit : (refOf segments).splitFirst = (first, remainder) := by
    simp only [StreamTableRef.splitFirst, hlens, List.head_cons, List.tail_cons]
  refine ⟨first, remainder, hlens, fun len hmem => hall len (List.mem_cons_of_mem _ hmem), ?_, ?_⟩
  · rw [MessageSegments.totalWords, hlens', List.sum_cons]
  · rw [fromStream, hsplit]
    simp only [hfirst]

/-- **The table of a message within the limit is accepted.** -/
theorem fromStream_refOf {segments : MessageSegments} {limit : ℕ}
    (h : segments.totalWords ≤ limit) :
    fromStream (refOf segments) limit = .ok (ofLens segments.lens, segments.totalWords) := by
  obtain ⟨first, remainder, hlens, hlt, htotal, heq⟩ := fromStream_refOf_eq segments limit
  have husize := totalWords_lt segments
  rw [htotal] at h husize ⊢
  rw [heq, if_neg (by omega), fromStreamLoop_eq 1 [] hlt h husize, hlens]
  show Except.ok (SegmentSetTable.mk (starts first remainder), first + remainder.sum)
    = Except.ok (SegmentSetTable.mk (starts (0 + first) remainder), first + remainder.sum)
  rw [Nat.zero_add]

/-- Beyond the limit, some segment of the message does not fit. -/
lemma fromStreamLoop_of_lt {limit : ℕ} {lens : List ℕ} (id : SegmentId) (startIdxs : List ℕ)
    {pos : ℕ} (hlt : ∀ len ∈ lens, len < 2 ^ 29) (hpos : pos ≤ limit)
    (hlimit : limit < pos + lens.sum) (husize : pos + lens.sum < 2 ^ 64) :
    fromStreamLoop limit lens id startIdxs pos = .error .messageTooLarge := by
  induction lens generalizing id startIdxs pos with
  | nil =>
    rw [List.sum_nil] at hlimit
    omega
  | cons len lens ih =>
    rw [List.sum_cons, ← Nat.add_assoc] at hlimit husize
    have hlen : segmentLenToUsize len id = .ok len := by
      rw [segmentLenToUsize, U29.new_of_lt (hlt len List.mem_cons_self)]
    rw [fromStreamLoop, hlen]
    simp only [checkedAdd_of_lt (show pos + len < 2 ^ 64 by omega), Option.filter_some]
    by_cases hle : pos + len ≤ limit
    · simp only [decide_eq_true hle, if_true]
      exact ih _ _ (fun len h => hlt len (List.mem_cons_of_mem _ h)) hle hlimit husize
    · simp only [decide_eq_false hle]
      rfl

/-- **The table of a message beyond the limit is rejected.** -/
theorem fromStream_refOf_of_lt {segments : MessageSegments} {limit : ℕ}
    (h : limit < segments.totalWords) :
    fromStream (refOf segments) limit = .error .messageTooLarge := by
  obtain ⟨first, remainder, -, hlt, htotal, heq⟩ := fromStream_refOf_eq segments limit
  have husize := totalWords_lt segments
  rw [htotal] at h husize
  rw [heq]
  split
  · rfl
  · next hle =>
    rw [fromStreamLoop_of_lt 1 [] hlt (Nat.not_lt.1 hle) h husize]
    rfl

lemma lastStart_ofLens_le (lens : List ℕ) : (ofLens lens).lastStart ≤ lens.sum := by
  rcases lens with _ | ⟨len, lens⟩
  · exact Nat.zero_le _
  · have hle := getLast?_starts_le (0 + len) lens
    rw [Nat.zero_add] at hle
    rw [List.sum_cons]
    show ((starts (0 + len) lens).getLast?).getD 0 ≤ len + lens.sum
    rw [Nat.zero_add]
    exact hle

lemma getElem?_ofLens (lens : List ℕ) (i : ℕ) :
    (ofLens lens).table[i]? = if i + 1 < lens.length then some (lens.take (i + 1)).sum else none := by
  rw [ofLens, List.getElem?_tail, getElem?_starts, Nat.zero_add]

/-- The bounds of a segment, from the lengths. -/
lemma segmentBounds_ofLens {lens : List ℕ} (hne : lens ≠ []) (id : SegmentId) :
    (ofLens lens).segmentBounds id =
      if id < lens.length then
        some ((lens.take id).sum,
          if id + 1 < lens.length then some (lens.take (id + 1)).sum else none)
      else none := by
  have hstart : (if id = 0 then some 0 else (ofLens lens).table[id - 1]?)
      = if id < lens.length then some (lens.take id).sum else none := by
    rcases id with _ | id
    · rw [if_pos rfl, if_pos (List.length_pos_iff.2 hne)]
      rfl
    · rw [if_neg (Nat.succ_ne_zero id), Nat.add_sub_cancel, getElem?_ofLens]
  rw [segmentBounds, hstart, getElem?_ofLens]
  by_cases h : id < lens.length
  · rw [if_pos h, if_pos h]
    rfl
  · rw [if_neg h, if_neg h]
    rfl

end SegmentSetTable

/-! ## The segments of a set -/

/-- `SegmentSet`. -/
structure SegmentSet where
  slice : List Word
  table : SegmentSetTable
deriving DecidableEq

/-- `slice[start..end]`, and `slice[start..]` without an end. -/
def sliceBounds (slice : List Word) (start : ℕ) : Option ℕ → Option (List Word)
  | none => if start ≤ slice.length then some (slice.drop start) else none
  | some stop =>
    if start ≤ stop ∧ stop ≤ slice.length then some ((slice.take stop).drop start) else none

namespace SegmentSet

/-- `SegmentSet::new`, which asserts that the data is complete. -/
def new (table : SegmentSetTable) (data : List Word) : Option SegmentSet :=
  if table.lastStart ≤ data.length then some ⟨data, table⟩ else none

/-- `SegmentSet::segment`: the words of a segment. -/
def segment (self : SegmentSet) (id : SegmentId) : Option (Option (List Word)) :=
  match self.table.segmentBounds id with
  | none => some none
  | some (start, stop) =>
    (sliceBounds self.slice start stop).bind fun slice =>
      (U29.new (slice.length % 2 ^ 32)).map fun len => some (slice.take len.get)

/-- How many segments there are. -/
def len (self : SegmentSet) : ℕ := self.table.table.length + 1

/-- The set that holds the segments of a message. -/
def ofSegments (segments : MessageSegments) : SegmentSet :=
  ⟨segments.words.flatten, .ofLens segments.lens⟩

lemma len_ofSegments (segments : MessageSegments) : (ofSegments segments).len = segments.len := by
  have hpos := segments.len_pos
  show (starts 0 segments.lens).tail.length + 1 = segments.len
  rw [List.length_tail, length_starts, segments.length_lens]
  omega

/-- The bounds of a segment cut out the segment. -/
lemma sliceBounds_flatten (pieces : List (List Word)) {id : ℕ} (h : id < pieces.length) :
    sliceBounds pieces.flatten ((pieces.map List.length).take id).sum
      (if id + 1 < pieces.length then some ((pieces.map List.length).take (id + 1)).sum else none)
      = some pieces[id] := by
  have hdrop := drop_flatten pieces h
  have hsum : ((pieces.map List.length).take (id + 1)).sum
      = (pieces.take id).flatten.length + pieces[id].length := by
    rw [← length_flatten_take, List.take_succ_eq_append_getElem h, List.flatten_append,
      List.length_append]
    simp
  have hle : (pieces.take id).flatten.length + pieces[id].length ≤ pieces.flatten.length := by
    conv_rhs => rw [← List.take_append_drop id pieces, List.drop_eq_getElem_cons h]
    rw [List.flatten_append, List.length_append, List.flatten_cons, List.length_append]
    omega
  rw [← length_flatten_take, hsum]
  split
  · rw [sliceBounds, if_pos ⟨Nat.le_add_right _ _, hle⟩, List.drop_take, Nat.add_sub_cancel_left,
      take_drop_flatten pieces h]
  · rw [sliceBounds, if_pos (by omega), drop_flatten_last pieces h (by omega)]

lemma segment_of_bounds {set : SegmentSet} {id : SegmentId} {start : ℕ} {stop : Option ℕ}
    {words : List Word} (hbounds : set.table.segmentBounds id = some (start, stop))
    (hwords : sliceBounds set.slice start stop = some words) (hlt : words.length < 2 ^ 29) :
    set.segment id = some (some words) := by
  have hlen : words.length % 2 ^ 32 = words.length := Nat.mod_eq_of_lt (by omega)
  simp only [segment, hbounds, hwords, Option.bind_some, hlen, U29.new_of_lt hlt, Option.map_some,
    List.take_length]

/-- **The set of a message has the segments of the message**, and no others. -/
theorem segment_ofSegments (segments : MessageSegments) (id : SegmentId) :
    (ofSegments segments).segment id = some segments.words[id]? := by
  have hbounds : (ofSegments segments).table.segmentBounds id = _ :=
    SegmentSetTable.segmentBounds_ofLens (refOf segments).nonempty id
  rw [show (refOf segments).table.length = segments.words.length from List.length_map _] at hbounds
  by_cases h : id < segments.words.length
  · rw [if_pos h] at hbounds
    have hlt : segments.words[id].length < 2 ^ 29 :=
      MessageSegments.lt_of_mem_lens (List.mem_map_of_mem (List.getElem_mem h))
    rw [List.getElem?_eq_getElem h]
    exact segment_of_bounds hbounds (sliceBounds_flatten segments.words h) hlt
  · rw [if_neg h] at hbounds
    rw [List.getElem?_eq_none (Nat.not_lt.1 h)]
    simp only [segment, hbounds]

end SegmentSet

end Recapn.Io

/-
# Stream tables

In front of the segments of a message a stream has a table of their lengths: the number of
segments less one, the length of every segment in words, and padding to a full word.  Table
entries are the `WireValue<u32>`s under a slice of words, two in a word.

A function is `none` where the source panics.
-/
import Mathlib.Order.Bounds.Basic
import Recapn.Num
import Recapn.Word

namespace Recapn.Io

/-! ## The segments of a message -/

/-- `MessageSegment`: the used part of a segment. -/
structure MessageSegment where
  asWords : List Word
  length_lt : asWords.length < 2 ^ 29

lemma MessageSegment.nil_lt : ([] : List Word).length < 2 ^ 29 := by decide

/-- `MessageSegments`: at least one segment, and a number of segments that fits in a `u32`. -/
structure MessageSegments where
  segments : List MessageSegment
  nonempty : segments ≠ []
  length_lt : segments.length < 2 ^ 32

namespace MessageSegments

/-- `MessageSegments::len`. -/
def len (self : MessageSegments) : ℕ := self.segments.length

/-- The segments as slices of words. -/
def words (self : MessageSegments) : List (List Word) := self.segments.map MessageSegment.asWords

/-- The lengths of the segments. -/
def lens (self : MessageSegments) : List ℕ := self.words.map List.length

/-- How many words the segments have together. -/
def totalWords (self : MessageSegments) : ℕ := self.lens.sum

variable (segments : MessageSegments)

lemma len_pos : 0 < segments.len := List.length_pos_iff.2 segments.nonempty

@[simp] lemma length_words : segments.words.length = segments.len := List.length_map _

@[simp] lemma length_lens : segments.lens.length = segments.len := by
  rw [lens, List.length_map, length_words]

lemma lt_of_mem_lens {segments : MessageSegments} {n : ℕ} (h : n ∈ segments.lens) : n < 2 ^ 29 := by
  simp only [lens, words, List.map_map, List.mem_map] at h
  obtain ⟨segment, -, rfl⟩ := h
  exact segment.length_lt

lemma totalWords_eq : segments.totalWords = segments.words.flatten.length :=
  List.length_flatten.symm

end MessageSegments

/-! ## The 32-bit values under a slice of words -/

/-- `WireValue::<u32>::from_word_slice`. -/
def u32s (slice : List Word) : List ℕ := slice.flatMap fun word => [word.lower, word.upper]

/-- The slice of words after the values under it were set. -/
def ofU32s : List ℕ → List Word
  | lo :: up :: values => .ofParts lo up :: ofU32s values
  | _ => []

@[simp] lemma u32s_nil : u32s [] = [] := rfl

@[simp] lemma u32s_cons (word : Word) (slice : List Word) :
    u32s (word :: slice) = word.lower :: word.upper :: u32s slice := rfl

@[simp] lemma length_u32s (slice : List Word) : (u32s slice).length = 2 * slice.length := by
  induction slice with
  | nil => rfl
  | cons word slice ih =>
    simp only [u32s_cons, List.length_cons, ih]
    omega

lemma length_ofU32s {n : ℕ} {values : List ℕ} (h : values.length = 2 * n) :
    (ofU32s values).length = n := by
  induction n generalizing values with
  | zero => rw [List.length_eq_zero_iff.1 h]; rfl
  | succ n ih =>
    match values, h with
    | lo :: up :: values, h =>
      simp only [List.length_cons] at h
      rw [ofU32s, List.length_cons, ih (by omega)]

/-- What is set is read back. -/
lemma u32s_ofU32s {n : ℕ} {values : List ℕ} (h : values.length = 2 * n)
    (hlt : ∀ value ∈ values, value < 2 ^ 32) : u32s (ofU32s values) = values := by
  induction n generalizing values with
  | zero => rw [List.length_eq_zero_iff.1 h]; rfl
  | succ n ih =>
    match values, h with
    | lo :: up :: values, h =>
      have htail : u32s (ofU32s values) = values := by
        refine ih ?_ fun value hv => hlt value (by simp [hv])
        simp only [List.length_cons] at h
        omega
      rw [ofU32s, u32s_cons, htail, Word.lower_ofParts _ (hlt lo (by simp)),
        Word.upper_ofParts _ (hlt up (by simp))]

lemma u32s_append (a b : List Word) : u32s (a ++ b) = u32s a ++ u32s b := by
  simp [u32s]

lemma lt_of_mem_u32s {slice : List Word} {value : ℕ} (h : value ∈ u32s slice) : value < 2 ^ 32 := by
  simp only [u32s, List.mem_flatMap, List.mem_cons, List.not_mem_nil, or_false] at h
  obtain ⟨word, -, rfl | rfl⟩ := h
  · exact word.lower_lt
  · exact word.upper_lt

/-! ## Table sizes -/

/-- `table_size_from_count`. -/
def tableSizeFromCount (count : ℕ) : ℕ := count / 2 + 1

/-- `table_size_of`. -/
def tableSizeOf (segments : MessageSegments) : ℕ := tableSizeFromCount segments.len

/-- `max_table_size_from_len`. -/
def maxTableSizeFromLen (len : ℕ) : ℕ :=
  let maxTable := tableSizeFromCount (2 ^ 32 - 2)
  if 2 ^ 64 ≤ len * 2 then maxTable
  else if len * 2 = 0 then 0
  else if maxTable < len * 2 - 1 then maxTable
  else len * 2 - 1

/-- The number of values that pad a table to full words. -/
def tablePadding (count : ℕ) : ℕ := (count + 1) % 2

/-- A table has room for the number of segments, all their lengths and the padding. -/
lemma two_mul_tableSizeFromCount (count : ℕ) :
    2 * tableSizeFromCount count = 1 + count + tablePadding count := by
  unfold tableSizeFromCount tablePadding
  omega

lemma tableSizeFromCount_pos (count : ℕ) : 0 < tableSizeFromCount count := Nat.succ_pos _

lemma tableSizeFromCount_le_iff {count len : ℕ} (hpos : 1 ≤ count) :
    tableSizeFromCount count ≤ len ↔ count ≤ 2 * len - 1 := by
  unfold tableSizeFromCount
  omega

lemma tableSizeFromCount_lt {count : ℕ} (hcount : count < 2 ^ 32) :
    tableSizeFromCount count < 2 ^ 32 := by
  unfold tableSizeFromCount
  omega

/-- The count of a length is one less than its half words, but never more than `MAX_TABLE`.  That
is the size of the largest table in words, and half of the count it has room for. -/
lemma maxTableSizeFromLen_eq (len : ℕ) :
    maxTableSizeFromLen len = min (2 * len - 1) (2 ^ 31) := by
  unfold maxTableSizeFromLen tableSizeFromCount
  simp only
  split_ifs <;> omega

/-- The counts of segments whose table fits in a number of words. -/
def fittingCounts (len : ℕ) : Set ℕ :=
  {count | 1 ≤ count ∧ count < 2 ^ 32 ∧ tableSizeFromCount count ≤ len}

/-- The lengths of a table from which at least a number of segments is derived. -/
def yieldingLens (count : ℕ) : Set ℕ :=
  {len | len < 2 ^ 64 ∧ count ≤ maxTableSizeFromLen len}

/-- The derived count is at least every count that fits as long as `MAX_TABLE` is no bound. -/
lemma isGreatest_fittingCounts_iff {len : ℕ} (hpos : 1 ≤ len) :
    IsGreatest (fittingCounts len) (maxTableSizeFromLen len) ↔ len ≤ 2 ^ 30 := by
  rw [maxTableSizeFromLen_eq]
  constructor
  · rintro ⟨-, hbound⟩
    by_contra hlen
    -- one more segment than `MAX_TABLE` has a table of one word more than `2 ^ 30`
    have hfits : 2 ^ 31 + 1 ∈ fittingCounts len :=
      ⟨by omega, by omega, (tableSizeFromCount_le_iff (by omega)).2 (by omega)⟩
    have hle := hbound hfits
    omega
  · intro hlen
    refine ⟨⟨by omega, by omega, (tableSizeFromCount_le_iff (by omega)).2 (by omega)⟩, ?_⟩
    rintro count ⟨hcount, -, hfits⟩
    have hle := (tableSizeFromCount_le_iff hcount).1 hfits
    omega

/-- No length yields more than `MAX_TABLE` segments; up to there the size of a count is the
first that yields it. -/
lemma isLeast_yieldingLens_iff {count : ℕ} (hpos : 1 ≤ count) :
    IsLeast (yieldingLens count) (tableSizeFromCount count) ↔ count ≤ 2 ^ 31 := by
  constructor
  · rintro ⟨⟨-, hyields⟩, -⟩
    rw [maxTableSizeFromLen_eq] at hyields
    omega
  · intro hcount
    have hroom := (tableSizeFromCount_le_iff hpos).1 (le_refl (tableSizeFromCount count))
    have hlt : tableSizeFromCount count < 2 ^ 32 := tableSizeFromCount_lt (by omega)
    refine ⟨⟨by omega, by rw [maxTableSizeFromLen_eq]; omega⟩, ?_⟩
    rintro len ⟨-, hyields⟩
    rw [maxTableSizeFromLen_eq] at hyields
    exact (tableSizeFromCount_le_iff hpos).2 (by omega)

/-- The two sizes are adjoint, the count of a length is the largest whose table fits, and the size
of a count the least length that yields it, exactly as far as `MAX_TABLE` cuts no count off.
Neither overflows. -/
theorem tableSizes_adjoint_iff {count len : ℕ} (hpos : 1 ≤ count) (hcount : count < 2 ^ 32) :
    ((tableSizeFromCount count ≤ len ↔ count ≤ maxTableSizeFromLen len) ↔
        count ≤ 2 ^ 31 ∨ len < tableSizeFromCount count) ∧
      ((1 ≤ len → IsGreatest (fittingCounts len) (maxTableSizeFromLen len)) ↔ len ≤ 2 ^ 30) ∧
      (IsLeast (yieldingLens count) (tableSizeFromCount count) ↔ count ≤ 2 ^ 31) ∧
      tableSizeFromCount count < 2 ^ 32 ∧ maxTableSizeFromLen len < 2 ^ 32 := by
  have hadjoint : (tableSizeFromCount count ≤ len ↔ count ≤ maxTableSizeFromLen len) ↔
      count ≤ 2 ^ 31 ∨ len < tableSizeFromCount count := by
    rw [← not_le, tableSizeFromCount_le_iff hpos, maxTableSizeFromLen_eq, Nat.le_min]
    tauto
  have hgreatest : (1 ≤ len → IsGreatest (fittingCounts len) (maxTableSizeFromLen len)) ↔
      len ≤ 2 ^ 30 := by
    rcases Nat.eq_zero_or_pos len with rfl | hlen
    · simp
    · rw [← isGreatest_fittingCounts_iff hlen]
      exact forall_prop_of_true hlen
  have hlt : maxTableSizeFromLen len < 2 ^ 32 := by
    rw [maxTableSizeFromLen_eq]
    omega
  exact ⟨hadjoint, hgreatest, isLeast_yieldingLens_iff hpos, tableSizeFromCount_lt hcount, hlt⟩

theorem tableSizes_adjoint_stackBuffer :
    IsGreatest (fittingCounts 32) (maxTableSizeFromLen 32) ∧
      IsLeast (yieldingLens 63) (tableSizeFromCount 63) :=
  have h := @tableSizes_adjoint_iff 63 32 (by decide) (by decide)
  ⟨h.2.1.2 (by decide) (by decide), h.2.2.1.2 (by decide)⟩

/-- A table of `2 ^ 31` words holds the largest number of segments, and the derived count is about
half of it. -/
theorem not_tableSizes_adjoint_largest :
    ¬ (tableSizeFromCount (2 ^ 32 - 1) ≤ 2 ^ 31 ↔
      2 ^ 32 - 1 ≤ maxTableSizeFromLen (2 ^ 31)) := by
  decide

/-! ## Writing a table -/

/-- `values.iter_mut().zip(news)`, setting each value. -/
def setZip : List ℕ → List ℕ → List ℕ
  | _ :: values, new :: news => new :: setZip values news
  | values, _ => values

lemma setZip_eq (values news : List ℕ) (h : news.length ≤ values.length) :
    setZip values news = news ++ values.drop news.length := by
  induction values generalizing news with
  | nil =>
    rw [List.length_eq_zero_iff.1 (Nat.le_zero.1 h)]
    rfl
  | cons value values ih =>
    rcases news with _ | ⟨new, news⟩
    · rfl
    · rw [setZip, ih news (by simpa using h)]
      rfl

/-- `write_table`: the slice after the call. -/
def writeTable (segments : MessageSegments) (slice : List Word) : Option (List Word) :=
  if slice.length = tableSizeOf segments then
    match u32s (slice.set (slice.length - 1) Word.null) with
    | [] => none
    | _ :: lens => some (ofU32s ((segments.len - 1) :: setZip lens segments.lens))
  else none

/-- The table of a message, as a table in a stream. -/
def tableOf (segments : MessageSegments) : List Word :=
  ofU32s ((segments.len - 1) :: (segments.lens ++ List.replicate (tablePadding segments.len) 0))

lemma length_tableValues (segments : MessageSegments) :
    ((segments.len - 1) :: (segments.lens ++ List.replicate (tablePadding segments.len) 0)).length
      = 2 * tableSizeOf segments := by
  rw [tableSizeOf, two_mul_tableSizeFromCount]
  simp only [List.length_cons, List.length_append, MessageSegments.length_lens,
    List.length_replicate]
  omega

lemma length_tableOf (segments : MessageSegments) : (tableOf segments).length = tableSizeOf segments :=
  length_ofU32s (length_tableValues segments)

lemma u32s_tableOf (segments : MessageSegments) :
    u32s (tableOf segments)
      = (segments.len - 1) :: (segments.lens ++ List.replicate (tablePadding segments.len) 0) := by
  refine u32s_ofU32s (length_tableValues segments) fun value hv => ?_
  simp only [List.mem_cons, List.mem_append, List.mem_replicate] at hv
  rcases hv with rfl | hv | ⟨-, rfl⟩
  · have hlt := segments.length_lt
    unfold MessageSegments.len
    omega
  · have hlt := MessageSegments.lt_of_mem_lens hv
    omega
  · decide

/-- The values behind the lengths, in a slice whose last word was cleared. -/
lemma drop_u32s_set_last (slice : List Word) (count : ℕ)
    (h : slice.length = tableSizeFromCount count) :
    (u32s (slice.set (slice.length - 1) Word.null)).drop (count + 1)
      = List.replicate (tablePadding count) 0 := by
  obtain ⟨init, last, rfl⟩ : ∃ init last, slice = init ++ [last] :=
    ⟨slice.dropLast, _, (List.dropLast_concat_getLast
      (List.ne_nil_of_length_pos (h ▸ tableSizeFromCount_pos count))).symm⟩
  have hsize := two_mul_tableSizeFromCount count
  rw [← h, List.length_append, List.length_singleton] at hsize
  have hset : (init ++ [last]).set ((init ++ [last]).length - 1) Word.null = init ++ [Word.null] := by
    rw [List.length_append, List.length_singleton, Nat.add_sub_cancel,
      List.set_append_right _ _ (Nat.le_refl _), Nat.sub_self]
    rfl
  have hnull : u32s [Word.null] = [0, 0] := rfl
  have hdrop : count + 1 = (u32s init).length + (2 - tablePadding count) := by
    rw [length_u32s]
    unfold tablePadding at hsize ⊢
    omega
  rw [hset, u32s_append, hnull, hdrop, List.drop_append, List.drop_of_length_le (by omega),
    List.nil_append, Nat.add_sub_cancel_left]
  unfold tablePadding
  rcases Nat.mod_two_eq_zero_or_one (count + 1) with h2 | h2 <;> rw [h2] <;> rfl

/-- **A slice of the right size becomes the table**, whatever it held before. -/
theorem writeTable_eq (segments : MessageSegments) (slice : List Word)
    (h : slice.length = tableSizeOf segments) :
    writeTable segments slice = some (tableOf segments) := by
  have hpad := drop_u32s_set_last slice segments.len h
  have hlen : (u32s (slice.set (slice.length - 1) Word.null)).length = 2 * tableSizeOf segments := by
    rw [length_u32s, List.length_set, h]
  have hsize := two_mul_tableSizeFromCount segments.len
  rw [writeTable, if_pos h]
  rcases hvalues : u32s (slice.set (slice.length - 1) Word.null) with _ | ⟨value, lens⟩
  · rw [hvalues, tableSizeOf, hsize] at hlen
    exact absurd hlen (by rw [List.length_nil]; omega)
  · rw [hvalues, List.drop_succ_cons] at hpad
    rw [hvalues, tableSizeOf, hsize, List.length_cons] at hlen
    show some (ofU32s ((segments.len - 1) :: setZip lens segments.lens)) = some (tableOf segments)
    rw [setZip_eq lens segments.lens (by rw [segments.length_lens]; omega), segments.length_lens,
      hpad, tableOf]

/-! ## The table of a stream -/

/-- `Table`: a few words inline, or a vector. -/
inductive Table where
  | inline (len : ℕ) (array : List Word)
  | heap (vec : List Word)
deriving DecidableEq, Repr

namespace Table

/-- `Table::INLINE_TABLE_SIZE`. -/
def inlineTableSize : ℕ := 3

/-- `Table::new`. -/
def new : Table := .inline 1 (List.replicate inlineTableSize Word.null)

/-- `Table::resize_to`. -/
def resizeTo (len : ℕ) : Table → Table
  | .inline current array =>
    if len ≤ inlineTableSize then .inline (if current < len then len else current) array
    else .heap (List.replicate len Word.null)
  | .heap vec =>
    if vec.length < len then .heap (vec ++ List.replicate (len - vec.length) Word.null)
    else .heap vec

/-- `Table::as_slice`. -/
def asSlice : Table → List Word
  | .inline len array => array.take len
  | .heap vec => vec

/-- The table after the words of `as_slice_mut` became `slice`. -/
def withSlice (slice : List Word) : Table → Table
  | .inline len array => .inline len (slice ++ array.drop len)
  | .heap _ => .heap slice

lemma length_asSlice_resizeTo_new {len : ℕ} (h : 0 < len) :
    (new.resizeTo len).asSlice.length = len := by
  show (Table.asSlice (if len ≤ 3 then _ else _)).length = len
  split
  · have hlen : (if 1 < len then len else 1) = len := by
      split <;> omega
    show ((List.replicate 3 Word.null).take _).length = len
    rw [hlen, List.length_take, List.length_replicate]
    omega
  · exact List.length_replicate

lemma asSlice_withSlice {slice : List Word} {table : Table}
    (h : slice.length = table.asSlice.length) : (table.withSlice slice).asSlice = slice := by
  rcases table with ⟨len, array⟩ | vec
  · show (slice ++ array.drop len).take len = slice
    rw [asSlice, List.length_take] at h
    rcases Nat.lt_or_ge array.length len with hlt | hge
    · rw [List.drop_of_length_le (Nat.le_of_lt hlt), List.append_nil,
        List.take_of_length_le (by omega)]
    · have hlen : slice.length = len := by omega
      rw [← hlen, List.take_left]
  · rfl

end Table

/-- `StreamTable`. -/
structure StreamTable where
  table : Table
deriving DecidableEq, Repr

namespace StreamTable

/-- `StreamTable::new`. -/
def new : StreamTable := ⟨Table.new⟩

/-- `StreamTable::write_segments`. -/
def writeSegments (self : StreamTable) (segments : MessageSegments) : Option StreamTable :=
  let table := self.table.resizeTo (tableSizeOf segments)
  (writeTable segments table.asSlice).map fun slice => ⟨table.withSlice slice⟩

/-- `StreamTable::from_segments`. -/
def fromSegments (segments : MessageSegments) : Option StreamTable := new.writeSegments segments

/-- `StreamTable::as_slice`. -/
def asSlice (self : StreamTable) : List Word := self.table.asSlice

/-- `StreamTable::as_bytes`. -/
def asBytes (self : StreamTable) : List Byte := Word.sliceToBytes self.asSlice

/-- **A new stream table holds the table of the message.** -/
theorem exists_fromSegments (segments : MessageSegments) :
    ∃ table, fromSegments segments = some table ∧ table.asSlice = tableOf segments := by
  have hlen : (Table.new.resizeTo (tableSizeOf segments)).asSlice.length = tableSizeOf segments :=
    Table.length_asSlice_resizeTo_new (tableSizeFromCount_pos _)
  refine ⟨⟨(Table.new.resizeTo (tableSizeOf segments)).withSlice (tableOf segments)⟩, ?_, ?_⟩
  · show (writeTable segments (Table.new.resizeTo (tableSizeOf segments)).asSlice).map _ = _
    rw [writeTable_eq segments _ hlen]
    rfl
  · exact Table.asSlice_withSlice (by rw [hlen, length_tableOf])

end StreamTable

/-! ## Reading a table -/

/-- `TableReadError`. -/
inductive TableReadError where
  | tooManySegments
  | empty
  | incomplete (count required : ℕ)
deriving DecidableEq, Repr

/-- `StreamTableRef`: the lengths in a table, which are not none. -/
structure StreamTableRef where
  table : List ℕ
  nonempty : table ≠ []
deriving DecidableEq

namespace StreamTableRef

/-- `StreamTableRef::new`. -/
def new (slice : List ℕ) : Option StreamTableRef :=
  if h : slice = [] then none else some ⟨slice, h⟩

/-- `StreamTableRef::try_read`: the table and the rest of the slice. -/
def tryRead (slice : List Word) : Option (Except TableReadError (StreamTableRef × List Word)) :=
  match u32s slice with
  | [] => some (.error .empty)
  | count :: table =>
    match checkedAdd 32 count 1 with
    | none => some (.error .tooManySegments)
    | some count =>
      let endOfTable := tableSizeFromCount count
      if endOfTable ≤ slice.length then
        if count ≤ table.length then
          (new (table.take count)).map fun ref => .ok (ref, slice.drop endOfTable)
        else none
      else some (.error (.incomplete count (endOfTable - slice.length)))

/-- `StreamTableRef::count`. -/
def count (self : StreamTableRef) : ℕ := self.table.length

/-- `StreamTableRef::split_first`. -/
def splitFirst (self : StreamTableRef) : ℕ × List ℕ := (self.table.head self.nonempty, self.table.tail)

lemma tryRead_eq {slice : List Word} {count : ℕ} {table : List ℕ}
    (hslice : u32s slice = count :: table) (hcount : count + 1 < 2 ^ 32) :
    tryRead slice =
      if tableSizeFromCount (count + 1) ≤ slice.length then
        if count + 1 ≤ table.length then
          (new (table.take (count + 1))).map fun ref =>
            .ok (ref, slice.drop (tableSizeFromCount (count + 1)))
        else none
      else some (.error (.incomplete (count + 1)
        (tableSizeFromCount (count + 1) - slice.length))) := by
  rw [tryRead, hslice]
  show (match checkedAdd 32 count 1 with | none => _ | some count => _) = _
  rw [checkedAdd_of_lt hcount]

end StreamTableRef

/-- The lengths of a message's segments, as a table that was read. -/
def refOf (segments : MessageSegments) : StreamTableRef :=
  ⟨segments.lens, List.ne_nil_of_length_pos (by rw [segments.length_lens]; exact segments.len_pos)⟩

lemma len_sub_add (segments : MessageSegments) : segments.len - 1 + 1 = segments.len :=
  Nat.sub_add_cancel segments.len_pos

/-- **A table is read back**, and what follows it is left. -/
theorem tryRead_tableOf (segments : MessageSegments) (content : List Word) :
    StreamTableRef.tryRead (tableOf segments ++ content) = some (.ok (refOf segments, content)) := by
  have hvalues : u32s (tableOf segments ++ content)
      = (segments.len - 1) ::
        (segments.lens ++ (List.replicate (tablePadding segments.len) 0 ++ u32s content)) := by
    rw [u32s_append, u32s_tableOf, List.cons_append, List.append_assoc]
  have hlt := segments.length_lt
  have htake : (segments.lens ++ (List.replicate (tablePadding segments.len) 0 ++ u32s content)).take
      segments.len = segments.lens := by
    rw [← segments.length_lens, List.take_left]
  have hnew : StreamTableRef.new segments.lens = some (refOf segments) :=
    dif_neg (refOf segments).nonempty
  rw [StreamTableRef.tryRead_eq hvalues (by rw [len_sub_add]; exact hlt), len_sub_add,
    if_pos (by rw [List.length_append, length_tableOf, tableSizeOf]; omega),
    if_pos (by rw [List.length_append, segments.length_lens]; omega), htake,
    hnew]
  show some (Except.ok (refOf segments, (tableOf segments ++ content).drop (tableSizeOf segments))) = _
  rw [← length_tableOf, List.drop_left]

/-- A table has a first word. -/
lemma exists_tableOf (segments : MessageSegments) :
    ∃ first rest, tableOf segments = first :: rest :=
  List.exists_cons_of_ne_nil (List.ne_nil_of_length_pos (by
    rw [length_tableOf]
    exact tableSizeFromCount_pos _))

/-- The first word of a table is the whole table, or says how much is missing. -/
lemma tryRead_first {segments : MessageSegments} {first : Word} {rest : List Word}
    (h : tableOf segments = first :: rest) :
    StreamTableRef.tryRead [first] =
      if segments.len = 1 then some (.ok (refOf segments, []))
      else some (.error (.incomplete segments.len rest.length)) := by
  have hsize : rest.length + 1 = tableSizeFromCount segments.len := by
    rw [← List.length_cons, ← h, length_tableOf, tableSizeOf]
  split
  · next hone =>
    have hrest : rest = [] := by
      rw [hone] at hsize
      exact List.length_eq_zero_iff.1 (Nat.succ.inj hsize)
    rw [← hrest, ← h, ← List.append_nil (tableOf segments), tryRead_tableOf, hrest]
  · next hmore =>
    have hpos := segments.len_pos
    have hlt := segments.length_lt
    have hvalues : first.lower = segments.len - 1 := by
      have hall := u32s_tableOf segments
      rw [h, u32s_cons] at hall
      exact (List.cons.inj hall).1
    have hslice : u32s [first] = (segments.len - 1) :: [first.upper] := by
      rw [← hvalues]
      rfl
    have hbig : ¬ tableSizeFromCount segments.len ≤ [first].length := by
      rw [List.length_singleton, tableSizeFromCount]
      omega
    rw [StreamTableRef.tryRead_eq hslice (by rw [len_sub_add]; exact hlt), len_sub_add,
      if_neg hbig, ← hsize, List.length_singleton, Nat.add_sub_cancel]

end Recapn.Io

/-
# Tables that are used again

A stream table can be written again, and a reference to a table can be cloned into one.  Both keep
the words that are there: the table grows, but it never gets shorter, and a clone does not clear
the padding.  So a table that was used before is like a new one just when no call needs less room
than the one before it, and no clone finds a length in its padding.

A reference that is borrowed from a table is a window on the whole table, the number of segments
and the padding included.
-/
import Recapn.Io.StreamTable

namespace Recapn.Io

/-! ## Clones -/

namespace StreamTable

/-- `Borrow::borrow`: a reference to all the values of the table. -/
def borrow (self : StreamTable) : Option StreamTableRef := StreamTableRef.new (u32s self.asSlice)

end StreamTable

namespace StreamTableRef

/-- There are no more lengths than segments in a message, and each is a `u32`. -/
structure Valid (ref : StreamTableRef) : Prop where
  length_lt : ref.table.length < 2 ^ 32
  lt : ∀ value ∈ ref.table, value < 2 ^ 32

/-- `ToOwned::clone_into`.  The values behind the lengths stay what they were. -/
def cloneInto (self : StreamTableRef) (target : StreamTable) : Option StreamTable :=
  let table := target.table.resizeTo (tableSizeFromCount self.count)
  match u32s table.asSlice with
  | [] => none
  | _ :: lens =>
    if self.table.length ≤ lens.length then
      some ⟨table.withSlice (ofU32s ((self.count - 1) :: (self.table ++ lens.drop self.table.length)))⟩
    else none

/-- `ToOwned::to_owned`. -/
def toOwned (self : StreamTableRef) : Option StreamTable := self.cloneInto .new

end StreamTableRef

/-! ## Tables by their lengths -/

/-- The table of some lengths. -/
def tableWords (lens : List ℕ) : List Word :=
  ofU32s ((lens.length - 1) :: (lens ++ List.replicate (tablePadding lens.length) 0))

section Words

variable {lens : List ℕ} {slice : List Word} {n : ℕ}

lemma tableWords_lens (segments : MessageSegments) : tableWords segments.lens = tableOf segments := by
  rw [tableWords, tableOf, segments.length_lens]

lemma length_values (rest : List ℕ) (hrest : rest.length = tablePadding lens.length) :
    ((lens.length - 1) :: (lens ++ rest)).length = 2 * tableSizeFromCount lens.length := by
  rw [two_mul_tableSizeFromCount, List.length_cons, List.length_append, hrest]
  omega

lemma length_tableWords (lens : List ℕ) : (tableWords lens).length = tableSizeFromCount lens.length :=
  length_ofU32s (length_values _ List.length_replicate)

/-- The values of the table. -/
lemma u32s_tableWords (hlen : lens.length < 2 ^ 32) (hlens : ∀ value ∈ lens, value < 2 ^ 32) :
    u32s (tableWords lens) =
      (lens.length - 1) :: (lens ++ List.replicate (tablePadding lens.length) 0) := by
  refine u32s_ofU32s (length_values _ List.length_replicate) fun value hv => ?_
  simp only [List.mem_cons, List.mem_append, List.mem_replicate] at hv
  rcases hv with rfl | hv | ⟨-, rfl⟩
  · omega
  · exact hlens value hv
  · decide

/-- The last value of a slice that ends in a null word. -/
lemma getLast?_u32s_null (slice : List Word) : (u32s (slice ++ [Word.null])).getLast? = some 0 := by
  rw [u32s_append, List.getLast?_append]
  rfl

/-- The values behind the lengths in a slice of the right size are zero just when the last value is, if
there is padding at all. -/
lemma drop_u32s_eq_iff (hslice : slice.length = tableSizeFromCount n) :
    (u32s slice).drop (n + 1) = List.replicate (tablePadding n) 0 ↔
      (n % 2 = 0 → (u32s slice).getLast? = some 0) := by
  have hlen : (u32s slice).length = n + 1 + tablePadding n := by
    rw [length_u32s, hslice, two_mul_tableSizeFromCount]
    omega
  rcases Nat.mod_two_eq_zero_or_one n with heven | hodd
  · have hpadding : tablePadding n = 1 := by
      rw [tablePadding]
      omega
    rw [hpadding] at hlen ⊢
    have hdrop : (u32s slice).drop (n + 1) = ((u32s slice).getLast?).toList := by
      rw [List.getLast?_eq_getElem?, hlen, Nat.add_sub_cancel, List.drop_eq_getElem_cons (by omega),
        List.drop_of_length_le (by omega), List.getElem?_eq_getElem (by omega)]
      rfl
    rw [hdrop, imp_iff_right heven]
    cases (u32s slice).getLast? with
    | none => exact iff_of_false (fun h => nomatch h) (fun h => nomatch h)
    | some value =>
      show [value] = [0] ↔ some value = some 0
      rw [List.cons_eq_cons, Option.some_inj]
      exact and_iff_left rfl
  · have hpadding : tablePadding n = 0 := by
      rw [tablePadding]
      omega
    rw [hpadding] at hlen ⊢
    refine iff_of_true (List.drop_of_length_le (by omega)) fun heven => ?_
    omega

end Words

/-! ## Tables that grow -/

namespace Table

/-- The words that the table does not use yet are null. -/
def Clean : Table → Prop
  | inline len array => len ≤ inlineTableSize ∧ array.length = inlineTableSize ∧
      array.drop len = List.replicate (inlineTableSize - len) Word.null
  | heap _ => True

lemma clean_new : new.Clean := ⟨by decide, rfl, rfl⟩

variable {table : Table} {n : ℕ}

/-- A table that is long enough stays as it is. -/
lemma asSlice_resizeTo_of_le (h : table.Clean) (hn : n ≤ table.asSlice.length) :
    table.resizeTo n = table := by
  rcases table with ⟨len, array⟩ | vec
  · obtain ⟨hlen, harray, -⟩ := h
    rw [asSlice, List.length_take, harray] at hn
    rw [resizeTo, if_pos (by omega), if_neg (by omega)]
  · exact if_neg (Nat.not_lt.2 hn)

/-- A table that grows ends in a null word, and has the size that is asked for. -/
lemma asSlice_resizeTo_of_lt (h : table.Clean) (hn : table.asSlice.length < n) :
    (table.resizeTo n).Clean ∧ (table.resizeTo n).asSlice.length = n ∧
      ∃ slice, (table.resizeTo n).asSlice = slice ++ [Word.null] := by
  obtain ⟨m, rfl⟩ : ∃ m, n = m + 1 := ⟨n - 1, by omega⟩
  rcases table with ⟨len, array⟩ | vec
  · obtain ⟨hlen, harray, hnull⟩ := h
    rw [asSlice, List.length_take, harray, Nat.min_eq_left hlen] at hn
    rw [resizeTo]
    by_cases hfits : m + 1 ≤ inlineTableSize
    · rw [if_pos hfits, if_pos hn]
      have hrest : ∀ j, len ≤ j → array.drop j = List.replicate (inlineTableSize - j) Word.null := by
        intro j hj
        rw [← Nat.add_sub_of_le hj, ← List.drop_drop, hnull, List.drop_replicate]
        congr 1
        omega
      refine ⟨⟨hfits, harray, hrest _ (Nat.le_of_lt hn)⟩, ?_, array.take m, ?_⟩
      · rw [asSlice, List.length_take, harray]
        omega
      · have hlast : array[m]? = some Word.null := by
          have hget := congrArg (fun l : List Word => l[0]?) (hrest m (by omega))
          simp only [List.getElem?_drop, Nat.add_zero] at hget
          rw [hget, List.getElem?_replicate, if_pos (by omega)]
        rw [asSlice, List.take_add_one, hlast]
        rfl
    · rw [if_neg hfits]
      exact ⟨trivial, List.length_replicate, List.replicate m Word.null, List.replicate_succ'⟩
  · replace hn : vec.length < m + 1 := hn
    rw [resizeTo, if_pos hn]
    refine ⟨trivial, ?_, vec ++ List.replicate (m - vec.length) Word.null, ?_⟩
    · rw [asSlice, List.length_append, List.length_replicate]
      omega
    · rw [asSlice, List.append_assoc, ← List.replicate_succ']
      congr 2
      omega

/-- Writing to the words of a table leaves the others null. -/
lemma Clean.withSlice (h : table.Clean) {slice : List Word} (hslice : slice.length = table.asSlice.length) :
    (table.withSlice slice).Clean := by
  rcases table with ⟨len, array⟩ | vec
  · obtain ⟨hlen, harray, hnull⟩ := h
    rw [asSlice, List.length_take, harray, Nat.min_eq_left hlen] at hslice
    refine ⟨hlen, ?_, ?_⟩
    · rw [List.length_append, List.length_drop, harray, hslice]
      exact Nat.add_sub_of_le hlen
    · rw [List.drop_append, hslice, Nat.sub_self, List.drop_of_length_le (Nat.le_of_eq hslice)]
      exact hnull
  · trivial

end Table

/-! ## Runs -/

/-- The calls that make a table anew. -/
inductive TableCall where
  | writeSegments (segments : MessageSegments)
  | cloneInto (ref : StreamTableRef) (valid : ref.Valid)

namespace TableCall

/-- The lengths that the table is made from. -/
def lens : TableCall → List ℕ
  | writeSegments segments => segments.lens
  | cloneInto ref _ => ref.table

/-- How many words their table has. -/
def size (call : TableCall) : ℕ := tableSizeFromCount call.lens.length

/-- The table after the call. -/
def run (table : StreamTable) : TableCall → Option StreamTable
  | writeSegments segments => table.writeSegments segments
  | cloneInto ref _ => ref.cloneInto table

/-- The call can come after the other one: it needs as much room, and if it is a clone, the length
that would be in its padding is zero. -/
def CanFollow (before call : TableCall) : Prop :=
  before.size ≤ call.size ∧ ∀ ref valid, call = cloneInto ref valid →
    before.lens.length = call.lens.length + 1 → before.lens.getLast? = some 0

/-- The call succeeds, and what is read through the table and through a reference to it is what is
read from a new one. -/
def LikeNew (table : StreamTable) (call : TableCall) (table' : StreamTable) : Prop :=
  ∃ fresh, call.run .new = some fresh ∧ call.run table = some table' ∧ table'.asSlice = fresh.asSlice ∧
    table'.borrow = fresh.borrow

end TableCall

/-- **A table that is used for the calls is always like a new one.** -/
def Reuses : StreamTable → List TableCall → Prop
  | _, [] => True
  | table, call :: calls => ∃ table', call.LikeNew table table' ∧ Reuses table' calls

section Runs

variable {table table' : StreamTable} {call before : TableCall}

lemma TableCall.lens_valid (call : TableCall) :
    call.lens ≠ [] ∧ call.lens.length < 2 ^ 32 ∧ ∀ value ∈ call.lens, value < 2 ^ 32 := by
  cases call with
  | writeSegments segments =>
    refine ⟨(refOf segments).nonempty, ?_, fun value hv => ?_⟩
    · show segments.lens.length < 2 ^ 32
      rw [segments.length_lens]
      exact segments.length_lt
    · exact Nat.lt_trans (MessageSegments.lt_of_mem_lens hv) (by decide)
  | cloneInto ref valid => exact ⟨ref.nonempty, valid.length_lt, valid.lt⟩

lemma TableCall.u32s_words (call : TableCall) : u32s (tableWords call.lens) =
    (call.lens.length - 1) :: (call.lens ++ List.replicate (tablePadding call.lens.length) 0) :=
  u32s_tableWords call.lens_valid.2.1 call.lens_valid.2.2

/-- The last value of a table is padding or the last length. -/
lemma TableCall.getLast?_words (call : TableCall) : (u32s (tableWords call.lens)).getLast? =
    if call.lens.length % 2 = 0 then some 0 else call.lens.getLast? := by
  obtain ⟨hne, -, -⟩ := call.lens_valid
  rw [call.u32s_words, tablePadding]
  rcases Nat.mod_two_eq_zero_or_one call.lens.length with heven | hodd
  · rw [if_pos heven, show (call.lens.length + 1) % 2 = 1 by omega, ← List.cons_append]
    exact List.getLast?_concat
  · rw [if_neg (by omega), show (call.lens.length + 1) % 2 = 0 by omega, List.replicate_zero,
      List.append_nil, List.getLast?_cons_of_ne_nil hne]

/-- What a clone leaves in a slice of the right size. -/
lemma cloneInto_eq {ref : StreamTableRef} {resized : Table}
    (hresized : table.table.resizeTo (tableSizeFromCount ref.count) = resized)
    (hsize : tableSizeFromCount ref.count ≤ resized.asSlice.length) :
    ref.cloneInto table = some ⟨resized.withSlice (ofU32s ((ref.table.length - 1) ::
      (ref.table ++ (u32s resized.asSlice).drop (ref.table.length + 1))))⟩ ∧
      (ofU32s ((ref.table.length - 1) :: (ref.table ++
        (u32s resized.asSlice).drop (ref.table.length + 1)))).length = resized.asSlice.length := by
  have hvalues := length_u32s resized.asSlice
  have htwice := two_mul_tableSizeFromCount ref.count
  have hcount : ref.count = ref.table.length := rfl
  rw [StreamTableRef.cloneInto, hresized]
  rcases hslice : u32s resized.asSlice with _ | ⟨value, lens⟩
  · rw [hslice] at hvalues
    have hzero : 2 * resized.asSlice.length = 0 := hvalues.symm
    omega
  · rw [hslice, List.length_cons] at hvalues
    rw [List.drop_succ_cons]
    constructor
    · show (if ref.table.length ≤ lens.length then _ else none) = _
      rw [if_pos (by omega)]
      rfl
    · refine length_ofU32s ?_
      rw [List.length_cons, List.length_append, List.length_drop]
      omega

/-- A new table that the call makes holds the table of the lengths. -/
lemma TableCall.run_new (call : TableCall) :
    ∃ fresh, call.run .new = some fresh ∧ fresh.asSlice = tableWords call.lens := by
  cases call with
  | writeSegments segments =>
    obtain ⟨fresh, hrun, hslice⟩ := StreamTable.exists_fromSegments segments
    exact ⟨fresh, hrun, hslice.trans (tableWords_lens segments).symm⟩
  | cloneInto ref valid =>
    have hlen : (Table.new.resizeTo (tableSizeFromCount ref.count)).asSlice.length =
        tableSizeFromCount ref.count :=
      Table.length_asSlice_resizeTo_new (tableSizeFromCount_pos _)
    obtain ⟨hrun, hwords⟩ := @cloneInto_eq .new ref _ rfl (Nat.le_of_eq hlen.symm)
    refine ⟨_, hrun, (Table.asSlice_withSlice hwords).trans ?_⟩
    have hpadding : (u32s (Table.new.resizeTo (tableSizeFromCount ref.count)).asSlice).drop (ref.count + 1) =
        List.replicate (tablePadding ref.count) 0 := by
      refine (drop_u32s_eq_iff hlen).2 fun heven => ?_
      have hpos := List.length_pos_iff.2 ref.nonempty
      have hcount : ref.count = ref.table.length := rfl
      have hgrows : Table.new.asSlice.length < tableSizeFromCount ref.count := by
        show 1 < ref.count / 2 + 1
        omega
      obtain ⟨-, -, slice, hslice⟩ := Table.asSlice_resizeTo_of_lt Table.clean_new hgrows
      rw [hslice]
      exact getLast?_u32s_null slice
    show ofU32s ((ref.table.length - 1) :: (ref.table ++ (u32s (Table.new.resizeTo
      (tableSizeFromCount ref.count)).asSlice).drop (ref.count + 1))) = _
    rw [hpadding]
    rfl

/-- A call is like new just when it leaves the table of its lengths. -/
lemma TableCall.likeNew_iff :
    call.LikeNew table table' ↔ call.run table = some table' ∧ table'.asSlice = tableWords call.lens := by
  obtain ⟨fresh, hrun, hslice⟩ := call.run_new
  constructor
  · rintro ⟨fresh', hrun', htable, heq, -⟩
    obtain rfl := Option.mem_unique hrun hrun'
    exact ⟨htable, heq.trans hslice⟩
  · rintro ⟨htable, heq⟩
    refine ⟨fresh, hrun, htable, heq.trans hslice.symm, ?_⟩
    rw [StreamTable.borrow, StreamTable.borrow, heq, hslice]

/-- What a call makes of a table that has the size for it. -/
lemma TableCall.run_of_size {resized : Table} (hclean : resized.Clean)
    (hresized : table.table.resizeTo call.size = resized) (hsize : resized.asSlice.length = call.size) :
    ∃ table', call.run table = some table' ∧ table'.table.Clean ∧
      (table'.asSlice = tableWords call.lens ↔ ∀ ref valid, call = cloneInto ref valid →
        call.lens.length % 2 = 0 → (u32s resized.asSlice).getLast? = some 0) := by
  cases call with
  | writeSegments segments =>
    have hlens : segments.lens.length = segments.len := segments.length_lens
    have hrest : tableSizeOf segments = (writeSegments segments).size := by
      rw [size, lens, hlens]
      rfl
    have hlen : (tableOf segments).length = resized.asSlice.length := by
      rw [length_tableOf, hrest, hsize]
    refine ⟨⟨resized.withSlice (tableOf segments)⟩, ?_, hclean.withSlice hlen, ?_⟩
    · show (writeTable segments (table.table.resizeTo (tableSizeOf segments)).asSlice).map _ = _
      rw [hrest, hresized, writeTable_eq segments _ (hsize.trans hrest.symm)]
      rfl
    · refine iff_of_true ?_ fun _ _ h => nomatch h
      exact (Table.asSlice_withSlice hlen).trans (tableWords_lens segments).symm
  | cloneInto ref valid =>
    obtain ⟨hrun, hwords⟩ := cloneInto_eq hresized (Nat.le_of_eq hsize.symm)
    refine ⟨_, hrun, hclean.withSlice hwords, ?_⟩
    have hslice : StreamTable.asSlice ⟨resized.withSlice (ofU32s ((ref.table.length - 1) ::
        (ref.table ++ (u32s resized.asSlice).drop (ref.table.length + 1))))⟩ = _ :=
      Table.asSlice_withSlice hwords
    have hpadding := @drop_u32s_eq_iff resized.asSlice ref.table.length hsize
    rw [hslice]
    constructor
    · intro heq ref' valid' hcall heven
      refine hpadding.1 ?_ heven
      have hvalues := congrArg u32s heq
      have hlen : ((ref.table.length - 1) :: (ref.table ++
          (u32s resized.asSlice).drop (ref.table.length + 1))).length = 2 * resized.asSlice.length := by
        have htwice := two_mul_tableSizeFromCount ref.table.length
        have hsize' : resized.asSlice.length = tableSizeFromCount ref.table.length := hsize
        rw [List.length_cons, List.length_append, List.length_drop, length_u32s]
        omega
      rw [u32s_ofU32s hlen, TableCall.u32s_words (.cloneInto ref valid)] at hvalues
      · exact List.append_cancel_left (List.cons.inj hvalues).2
      · intro value hv
        simp only [List.mem_cons, List.mem_append] at hv
        have hlt := valid.length_lt
        rcases hv with rfl | hv | hv
        · omega
        · exact valid.lt value hv
        · exact lt_of_mem_u32s (List.mem_of_mem_drop hv)
    · intro h
      rw [hpadding.2 (h ref valid rfl)]
      rfl

/-- **One call** after another one is like new just when it can follow it. -/
lemma TableCall.likeNew_after (hclean : table.table.Clean) (htable : table.asSlice = tableWords before.lens) :
    before.CanFollow call ∧ (∃ table', call.LikeNew table table' ∧ table'.table.Clean) ∨
      ¬ before.CanFollow call ∧ ∀ table', ¬ call.LikeNew table table' := by
  have hslice : table.table.asSlice = tableWords before.lens := htable
  have hlength : table.table.asSlice.length = before.size := by
    rw [hslice, length_tableWords]
    rfl
  have hbefore : before.size = before.lens.length / 2 + 1 := rfl
  have hcall : call.size = call.lens.length / 2 + 1 := rfl
  rcases Nat.lt_trichotomy before.size call.size with hlt | heq | hlt
  · -- the table grows
    obtain ⟨hclean', hsize, slice, hlast⟩ :=
      Table.asSlice_resizeTo_of_lt hclean (hlength.symm ▸ hlt)
    obtain ⟨table', hrun, hcleaned, hwords⟩ := call.run_of_size hclean' rfl hsize
    refine Or.inl ⟨⟨Nat.le_of_lt hlt, fun _ _ _ hmore => by omega⟩, table', likeNew_iff.2 ⟨hrun, ?_⟩,
      hcleaned⟩
    refine hwords.2 fun _ _ _ _ => ?_
    rw [hlast]
    exact getLast?_u32s_null slice
  · -- the table stays as it is
    have hsame : table.table.resizeTo call.size = table.table :=
      Table.asSlice_resizeTo_of_le hclean (by omega)
    obtain ⟨table', hrun, hcleaned, hwords⟩ := call.run_of_size hclean hsame (by omega)
    rw [hslice, before.getLast?_words] at hwords
    have hiff : table'.asSlice = tableWords call.lens ↔ before.CanFollow call := by
      rw [hwords]
      constructor
      · refine fun h => ⟨Nat.le_of_eq heq, fun ref valid hclone hmore => ?_⟩
        have hzero := h ref valid hclone (by omega)
        rwa [if_neg (by omega)] at hzero
      · rintro ⟨-, h⟩ ref valid hclone heven
        by_cases heven' : before.lens.length % 2 = 0
        · exact if_pos heven'
        · rw [if_neg heven']
          exact h ref valid hclone (by omega)
    by_cases hfollow : before.CanFollow call
    · exact Or.inl ⟨hfollow, table', likeNew_iff.2 ⟨hrun, hiff.2 hfollow⟩, hcleaned⟩
    · refine Or.inr ⟨hfollow, fun table'' hlike => hfollow (hiff.1 ?_)⟩
      obtain ⟨hrun', hwords'⟩ := likeNew_iff.1 hlike
      obtain rfl := Option.mem_unique hrun hrun'
      exact hwords'
  · -- the table is too long
    refine Or.inr ⟨fun h => absurd h.1 (Nat.not_le.2 hlt), fun table' hlike => ?_⟩
    obtain ⟨hrun, hwords⟩ := likeNew_iff.1 hlike
    have hsame : table.table.resizeTo call.size = table.table :=
      Table.asSlice_resizeTo_of_le hclean (by omega)
    cases call with
    | writeSegments segments =>
      have hsize : tableSizeOf segments = (writeSegments segments).size := by
        rw [size, lens, segments.length_lens]
        rfl
      have hnone : writeTable segments (table.table.resizeTo (tableSizeOf segments)).asSlice = none := by
        rw [hsize, hsame]
        exact if_neg (by omega)
      replace hrun : (writeTable segments (table.table.resizeTo (tableSizeOf segments)).asSlice).map _ =
        some table' := hrun
      rw [hnone] at hrun
      cases hrun
    | cloneInto ref valid =>
      obtain ⟨hclone, hlen⟩ := cloneInto_eq hsame (by
        show (cloneInto ref valid).size ≤ _
        omega)
      obtain rfl := Option.mem_unique hclone hrun
      have hlong := congrArg List.length ((Table.asSlice_withSlice hlen).symm.trans hwords)
      rw [hlen, length_tableWords] at hlong
      have hsize : (cloneInto ref valid).size = tableSizeFromCount (cloneInto ref valid).lens.length := rfl
      omega

/-- The calls after one of them. -/
lemma reuses_after (hclean : table.table.Clean) (htable : table.asSlice = tableWords before.lens)
    (calls : List TableCall) : Reuses table calls ↔ (before :: calls).IsChain TableCall.CanFollow := by
  induction calls generalizing table before with
  | nil => exact iff_of_true trivial (.singleton _)
  | cons call calls ih =>
    rw [List.isChain_cons_cons, Reuses]
    rcases @TableCall.likeNew_after table call before hclean htable with
      ⟨hfollow, table', hlike, hclean'⟩ | ⟨hnot, hnone⟩
    · have hwords := (TableCall.likeNew_iff.1 hlike).2
      rw [and_iff_right hfollow, ← ih hclean' hwords]
      constructor
      · rintro ⟨table'', hlike', hrest⟩
        have hsame := (TableCall.likeNew_iff.1 hlike).1.symm.trans (TableCall.likeNew_iff.1 hlike').1
        rwa [Option.some.inj hsame]
      · exact fun hrest => ⟨table', hlike, hrest⟩
    · exact iff_of_false (fun ⟨table', hlike, _⟩ => hnone table' hlike) fun h => hnot h.1

/-- A message of one empty segment. -/
def oneEmptySegment : MessageSegments := ⟨[⟨[], MessageSegment.nil_lt⟩], by decide, by decide⟩

/-- **A stream table that is used again is like a new one** just when every call can follow the one
before it. -/
theorem reuses_iff (calls : List TableCall) :
    Reuses .new calls ↔ calls.IsChain TableCall.CanFollow := by
  -- a new table is that of one empty segment, which every call can follow
  have hempty := @reuses_after .new (.writeSegments oneEmptySegment) Table.clean_new (by decide) calls
  rw [hempty]
  cases calls with
  | nil => exact iff_of_true (.singleton _) .nil
  | cons call calls =>
    rw [List.isChain_cons_cons]
    refine and_iff_right ⟨?_, ?_⟩
    · exact Nat.succ_le_succ (Nat.zero_le _)
    · intro ref valid _ hmore
      have hpos := List.length_pos_iff.2 call.lens_valid.1
      have hone : (TableCall.writeSegments oneEmptySegment).lens.length = 1 := rfl
      omega

/-- A message of two empty segments. -/
def twoEmptySegments : MessageSegments := ⟨[⟨[], MessageSegment.nil_lt⟩, ⟨[], MessageSegment.nil_lt⟩], by decide, by decide⟩

/-- A table that was used for two segments is too long for one, and the call panics. -/
theorem not_reuses :
    ¬ Reuses .new [.writeSegments twoEmptySegments, .writeSegments oneEmptySegment] ∧
      ∃ table, (TableCall.writeSegments twoEmptySegments).run .new = some table ∧
        (TableCall.writeSegments oneEmptySegment).run table = none := by
  have hrun : ∃ table, (TableCall.writeSegments twoEmptySegments).run .new = some table ∧
      (TableCall.writeSegments oneEmptySegment).run table = none := by
    refine ⟨_, rfl, ?_⟩
    decide
  refine ⟨?_, hrun⟩
  rintro ⟨table, ⟨_, -, hfirst, -⟩, table', ⟨_, -, hsecond, -⟩, -⟩
  obtain ⟨table₀, hfirst', hsecond'⟩ := hrun
  obtain rfl := Option.some.inj (hfirst.symm.trans hfirst')
  cases hsecond.symm.trans hsecond'

end Runs

/-! ## References that are borrowed back -/

/-- **The owned table is borrowed as what it was made from**: the reference has the lengths of the
first one, and is written as the same bytes. -/
def StreamTableRef.BorrowsBack (ref : StreamTableRef) : Prop :=
  ∃ table back, ref.toOwned = some table ∧ table.borrow = some back ∧ back.count = ref.count ∧
    back.table = ref.table ∧ ∃ table', back.toOwned = some table' ∧ table'.asBytes = table.asBytes

/-- The reference to an owned table begins with the number of segments, and ends with the padding. -/
lemma StreamTableRef.borrow_toOwned {ref : StreamTableRef} (valid : ref.Valid) :
    ∃ table back, ref.toOwned = some table ∧ table.borrow = some back ∧
      back.table = (ref.count - 1) :: (ref.table ++ List.replicate (tablePadding ref.count) 0) := by
  obtain ⟨table, hrun, hwords⟩ := (TableCall.cloneInto ref valid).run_new
  have hvalues := (TableCall.cloneInto ref valid).u32s_words
  rw [← hwords] at hvalues
  refine ⟨table, ⟨_, List.cons_ne_nil _ _⟩, hrun, ?_, rfl⟩
  rw [StreamTable.borrow, hvalues]
  exact dif_neg (List.cons_ne_nil _ _)

/-- A table has twice as many values as words, and more than lengths. -/
lemma StreamTableRef.count_lt_of_borrow {ref back : StreamTableRef} {table : StreamTable}
    (howned : ref.toOwned = some table) (hborrow : table.borrow = some back) : ref.count < back.count := by
  have hlen : (Table.new.resizeTo (tableSizeFromCount ref.count)).asSlice.length =
      tableSizeFromCount ref.count :=
    Table.length_asSlice_resizeTo_new (tableSizeFromCount_pos _)
  obtain ⟨hrun, hwords⟩ := @cloneInto_eq .new ref _ rfl (Nat.le_of_eq hlen.symm)
  obtain rfl := Option.mem_unique hrun howned
  have hslice := congrArg List.length (Table.asSlice_withSlice hwords)
  rw [hwords] at hslice
  have htwice := two_mul_tableSizeFromCount ref.count
  rw [StreamTable.borrow, StreamTableRef.new] at hborrow
  split at hborrow
  · cases hborrow
  · cases hborrow
    show ref.count < (u32s _).length
    rw [length_u32s]
    show ref.count < 2 * (Table.asSlice _).length
    rw [hslice]
    show ref.count < 2 * (Table.new.resizeTo (tableSizeFromCount ref.count)).asSlice.length
    omega

/-- **No reference is borrowed back**: there are more values in the table than lengths. -/
theorem StreamTableRef.not_borrowsBack (ref : StreamTableRef) : ¬ ref.BorrowsBack := by
  rintro ⟨table, back, howned, hborrow, hcount, -⟩
  have hlt := count_lt_of_borrow howned hborrow
  omega

/-- The table of one length of 5 is borrowed as two values. -/
theorem StreamTableRef.not_borrowsBack_five :
    ¬ (⟨[5], by decide⟩ : StreamTableRef).BorrowsBack ∧
      ∃ table back, (⟨[5], by decide⟩ : StreamTableRef).toOwned = some table ∧ table.borrow = some back ∧
        back.table = [0, 5] := by
  obtain ⟨table, back, howned, hborrow, hback⟩ :=
    @borrow_toOwned ⟨[5], by decide⟩ ⟨by decide, by decide⟩
  refine ⟨?_, table, back, howned, hborrow, hback⟩
  rintro ⟨table', back', howned', hborrow', -, hsame, -⟩
  obtain rfl := Option.some.inj (howned.symm.trans howned')
  obtain rfl := Option.some.inj (hborrow.symm.trans hborrow')
  cases hback.symm.trans hsame

end Recapn.Io

/-
# The limits of the readers

`StreamOptions` bounds the segments of a message and its words, and both readers of streams look
at the bounds before they allocate the buffer of the segments.

* The count is compared with the limit by `>=`, and so a message with exactly as many segments as
  the limit is taken for one with too many.
* The count is only looked at when the first word of the table is not the whole table: a message
  of one segment is within every limit, zero included.
* A packed stream that ends in the count of a run of null words can also fail between the table
  and the segments, within all limits.

`limits_iff` says that a reader means what its limits say except in these cases.
-/
import Recapn.Io.PackedFraming

namespace Recapn.Io

open Recapn.Packing

/-! ## The buffer of the segments -/

/-- `vec![Word::NULL; message_len]`: how many words are allocated for the segments with the table
in hand, where the reader gets there. -/
def segmentsAlloc (table : StreamTableRef) (options : StreamOptions) : Option ℕ :=
  match SegmentSetTable.fromStream table options.readLimit with
  | .error _ => none
  | .ok (_, messageLen) => some messageLen

/-- How many words `read_from_stream` allocates for the segments. -/
def streamAlloc (r : Read) (options : StreamOptions) : Option ℕ :=
  match r.readExact 8 with
  | (.error _, _) => none
  | (.ok first, r) =>
    (readTable r (Word.ofBytes first) options).bind fun (table, _) =>
      match table with
      | .error _ => none
      | .ok table => segmentsAlloc table options

/-- How many words `read_from_packed_stream` allocates for the segments. -/
def packedAlloc (stream : BufRead) (options : StreamOptions) : Option ℕ :=
  ((PackedStream.new stream).readExact [Word.null]).bind fun (r, first, stream) =>
    match r, first with
    | .ok (), [first] =>
      (readTablePacked stream first options).bind fun (table, _) =>
        match table with
        | .error _ => none
        | .ok table => segmentsAlloc table options
    | _, _ => none

/-! ## What the limits say -/

namespace StreamOptions

variable (options : StreamOptions) (segments : MessageSegments)

/-- The message has no more segments and no more words than the limits. -/
def Within : Prop :=
  segments.len ≤ options.segmentLimit ∧ segments.totalWords ≤ options.readLimit

/-- The error is that of a limit that the message is beyond. -/
def Exceeded (err : StreamError) : Prop :=
  (err = .table .tooManySegments ∧ options.segmentLimit < segments.len) ∨
    (err = .messageTooLarge ∧ options.readLimit < segments.totalWords)

/-- A reader means what its limits say: it accepts the message exactly when the message is within
them, and else returns the error of a limit, with nothing allocated for the segments. -/
structure Honoured (result : Option (Except StreamError SegmentSet)) (alloc : Option ℕ) :
    Prop where
  accepts : (∃ set, result = some (.ok set) ∧ set.Holds segments) ↔ options.Within segments
  rejects : ¬ options.Within segments →
    alloc = none ∧ ∃ err, result = some (.error err) ∧ options.Exceeded segments err

/-- The message has not exactly as many segments as the limit, unless it is one, and a message of
one segment is not read with a limit of none. -/
def OffBoundary : Prop :=
  ¬ (segments.len = options.segmentLimit ∧ segments.len ≠ 1) ∧
    ¬ (options.segmentLimit = 0 ∧ segments.len = 1 ∧ segments.totalWords ≤ options.readLimit)

/-- What both readers look at, in their order. -/
def verdict : Except StreamError Unit :=
  if segments.len ≠ 1 ∧ options.segmentLimit ≤ segments.len then .error (.table .tooManySegments)
  else if options.readLimit < segments.totalWords then .error .messageTooLarge
  else .ok ()

variable {options segments}

lemma verdict_eq_ok_iff : options.verdict segments = .ok () ↔
    (segments.len ≠ 1 → segments.len < options.segmentLimit) ∧
      segments.totalWords ≤ options.readLimit := by
  rw [verdict]
  split
  · next h => exact iff_of_false (by simp) fun hok => Nat.not_lt.2 h.2 (hok.1 h.1)
  · next h =>
    split
    · next hwords => exact iff_of_false (by simp) fun hok => Nat.not_lt.2 hok.2 hwords
    · next hwords =>
      exact iff_of_true rfl ⟨fun hmore => Nat.not_le.1 fun hle => h ⟨hmore, hle⟩,
        Nat.not_lt.1 hwords⟩

/-- The count is looked at before the words. -/
lemma verdict_eq_error {err : StreamError} (h : options.verdict segments = .error err) :
    (err = .table .tooManySegments ∧ segments.len ≠ 1 ∧ options.segmentLimit ≤ segments.len) ∨
      (err = .messageTooLarge ∧ (segments.len ≠ 1 → segments.len < options.segmentLimit) ∧
        options.readLimit < segments.totalWords) := by
  rw [verdict] at h
  split at h
  · next hmany =>
    cases h
    exact .inl ⟨rfl, hmany⟩
  · next hfew =>
    split at h
    · next hwords =>
      cases h
      exact .inr ⟨rfl, fun hmore => Nat.not_le.1 fun hle => hfew ⟨hmore, hle⟩, hwords⟩
    · cases h

/-- Off the boundary, the message passes when it is within the limits. -/
lemma verdict_eq_ok_iff_within (h : options.OffBoundary segments) :
    options.verdict segments = .ok () ↔ options.Within segments := by
  have hpos := segments.len_pos
  obtain ⟨hboundary, hzero⟩ := h
  rw [verdict_eq_ok_iff, Within]
  constructor
  · rintro ⟨hcount, hwords⟩
    refine ⟨?_, hwords⟩
    by_contra hgt
    rcases eq_or_ne segments.len 1 with hone | hmore
    · exact hzero ⟨by omega, hone, hwords⟩
    · exact hgt (Nat.le_of_lt (hcount hmore))
  · rintro ⟨hcount, hwords⟩
    exact ⟨fun hmore => Nat.lt_of_le_of_ne hcount fun heq => hboundary ⟨heq, hmore⟩, hwords⟩

/-- The error of the verdict is that of a limit, or the message is on the boundary. -/
lemma exceeded_of_verdict {err : StreamError} (h : options.verdict segments = .error err) :
    (segments.len = options.segmentLimit ∧ segments.len ≠ 1) ∨ options.Exceeded segments err := by
  rcases verdict_eq_error h with ⟨rfl, hmore, hle⟩ | ⟨rfl, -, hwords⟩
  · rcases Nat.eq_or_lt_of_le hle with heq | hlt
    · exact .inl ⟨heq.symm, hmore⟩
    · exact .inr (.inl ⟨rfl, hlt⟩)
  · exact .inr (.inr ⟨rfl, hwords⟩)

/-- A reader that does as the verdict says means what its limits say off the boundary, and only
there. -/
lemma honoured_iff {result : Option (Except StreamError SegmentSet)} {alloc : Option ℕ}
    (hok : options.verdict segments = .ok () →
      ∃ set, result = some (.ok set) ∧ set.Holds segments)
    (herr : ∀ err, options.verdict segments = .error err →
      result = some (.error err) ∧ alloc = none) :
    options.Honoured segments result alloc ↔ options.OffBoundary segments := by
  constructor
  · intro h
    refine ⟨?_, ?_⟩
    · -- on the boundary, the error is of a limit that the message is not beyond
      rintro ⟨heq, hmore⟩
      have hverdict : options.verdict segments = .error (.table .tooManySegments) :=
        if_pos ⟨hmore, Nat.le_of_eq heq.symm⟩
      obtain ⟨hresult, -⟩ := herr _ hverdict
      by_cases hwithin : options.Within segments
      · obtain ⟨set, hset, -⟩ := h.accepts.2 hwithin
        rw [hresult] at hset
        cases hset
      · obtain ⟨-, err, herr', hexceeded⟩ := h.rejects hwithin
        rw [hresult] at herr'
        cases herr'
        rcases hexceeded with ⟨-, hlt⟩ | ⟨heq', -⟩
        · omega
        · cases heq'
    · -- with a limit of none, the one segment is accepted
      rintro ⟨hzero, hone, hwords⟩
      have hset := hok (verdict_eq_ok_iff.2 ⟨fun hmore => absurd hone hmore, hwords⟩)
      have hwithin := h.accepts.1 hset
      have hle := hwithin.1
      omega
  · intro hoff
    have hverdict := verdict_eq_ok_iff_within hoff
    refine ⟨⟨?_, fun hwithin => hok (hverdict.2 hwithin)⟩, ?_⟩
    · rintro ⟨set, hset, -⟩
      rcases hcase : options.verdict segments with err | _
      · rw [(herr err hcase).1] at hset
        cases hset
      · exact hverdict.1 hcase
    · intro hbeyond
      rcases hcase : options.verdict segments with err | _
      · obtain ⟨hresult, halloc⟩ := herr err hcase
        refine ⟨halloc, err, hresult, ?_⟩
        exact (exceeded_of_verdict hcase).resolve_left hoff.1
      · exact absurd (hverdict.1 hcase) hbeyond

end StreamOptions

/-! ## The readers do as the verdict says -/

variable {segments : MessageSegments} {options : StreamOptions}

/-- The segments are not read, and nothing is allocated for them. -/
lemma segmentsAlloc_of_lt (h : options.readLimit < segments.totalWords) :
    segmentsAlloc (refOf segments) options = none := by
  rw [segmentsAlloc, SegmentSetTable.fromStream_refOf_of_lt h]

lemma readSegments_of_lt (r : Read) (h : options.readLimit < segments.totalWords) :
    readSegments r (refOf segments) options = some (.error .messageTooLarge, r) := by
  rw [readSegments, SegmentSetTable.fromStream_refOf_of_lt h]
  rfl

lemma readSegmentsPacked_of_lt (stream : PackedStream)
    (h : options.readLimit < segments.totalWords) :
    readSegmentsPacked stream (refOf segments) options
      = some (.error .messageTooLarge, stream) := by
  rw [readSegmentsPacked, SegmentSetTable.fromStream_refOf_of_lt h]
  rfl

lemma readTable_of_le (r : Read) {first : Word} {rest : List Word}
    (htable : tableOf segments = first :: rest) (hmore : segments.len ≠ 1)
    (h : options.segmentLimit ≤ segments.len) :
    readTable r first options = some (.error (.table .tooManySegments), r) := by
  rw [readTable, tryRead_first htable, if_neg hmore, Option.bind_some]
  exact if_pos h

lemma readTablePacked_of_le (stream : PackedStream) {first : Word} {rest : List Word}
    (htable : tableOf segments = first :: rest) (hmore : segments.len ≠ 1)
    (h : options.segmentLimit ≤ segments.len) :
    readTablePacked stream first options = some (.error (.table .tooManySegments), stream) := by
  rw [readTablePacked, tryRead_first htable, if_neg hmore, Option.bind_some]
  exact if_pos h

/-- `read_from_stream` on a message. -/
lemma readFromStream_verdict {r : Read} {trailing : List Byte} (hintr : r.Interruptible)
    (hbytes : r.bytes
      = Word.sliceToBytes (tableOf segments ++ segments.words.flatten) ++ trailing) :
    (options.verdict segments = .ok () →
      ∃ set, (readFromStream r options).map Prod.fst = some (.ok set) ∧ set.Holds segments) ∧
    ∀ err, options.verdict segments = .error err →
      (readFromStream r options).map Prod.fst = some (.error err) ∧
        streamAlloc r options = none := by
  refine ⟨fun hok => ?_, fun err herr => ?_⟩
  · obtain ⟨hcount, hwords⟩ := StreamOptions.verdict_eq_ok_iff.1 hok
    obtain ⟨r', hread, -⟩ := readFromStream_eq hcount hwords hintr hbytes
    exact ⟨_, by rw [hread, Option.map_some], holds_ofSegments segments⟩
  · obtain ⟨first, rest, htable⟩ := exists_tableOf segments
    rw [htable, List.cons_append, Word.sliceToBytes_cons, Word.sliceToBytes_append,
      List.append_assoc, List.append_assoc] at hbytes
    obtain ⟨r₁, hread₁, hintr₁, hbytes₁⟩ := Read.readExact_eq hintr hbytes
    rw [Word.length_bytes] at hread₁
    rw [readFromStream, streamAlloc, hread₁]
    simp only [Word.ofBytes_bytes]
    rcases StreamOptions.verdict_eq_error herr with ⟨rfl, hmore, hle⟩ | ⟨rfl, hcount, hwords⟩
    · rw [readTable_of_le r₁ htable hmore hle]
      exact ⟨rfl, rfl⟩
    · obtain ⟨r₂, hread₂, -, -⟩ := readTable_eq htable hcount hintr₁ hbytes₁
      rw [hread₂]
      simp only [Option.bind_some, readSegments_of_lt r₂ hwords, segmentsAlloc_of_lt hwords,
        Option.map_some, and_self]

/-- `read_from_packed_stream` on a message that is beyond a limit. -/
lemma readFromPackedStream_of_error {chunks : List Chunk} {packed : List Byte} {err : StreamError}
    (hpacked : PackedStream.Packed chunks packed (tableOf segments ++ segments.words.flatten))
    (herr : options.verdict segments = .error err) :
    (readFromPackedStream (chunks.map .ok) options).map Prod.fst = some (.error err) ∧
      packedAlloc (chunks.map .ok) options = none := by
  obtain ⟨first, rest, htable⟩ := exists_tableOf segments
  obtain ⟨stream₁, used₁, left₁, hread₁, hstanding₁⟩ := readFirstPacked_eq hpacked htable
  rw [readFromPackedStream, readWithPackedStream, packedAlloc, hread₁]
  simp only [Option.bind_some]
  rcases StreamOptions.verdict_eq_error herr with ⟨rfl, hmore, hle⟩ | ⟨rfl, hcount, hwords⟩
  · rw [readTablePacked_of_le stream₁ htable hmore hle]
    exact ⟨rfl, rfl⟩
  · obtain ⟨stream₂, used₂, left₂, hread₂, -⟩ := readTablePacked_eq hpacked htable hcount hstanding₁
    rw [hread₂]
    simp only [Option.bind_some, readSegmentsPacked_of_lt stream₂ hwords,
      segmentsAlloc_of_lt hwords, Option.map_some, and_self]

/-- `read_from_packed_stream` at a cut after the table. -/
lemma readFromPackedStream_of_cut {chunks : List Chunk} {packed : List Byte}
    (hpacked : PackedStream.Packed chunks packed (tableOf segments ++ segments.words.flatten))
    (hok : options.verdict segments = .ok ())
    (hcut : PackedStream.EofCut chunks (tableOf segments ++ segments.words.flatten).length
      (tableOf segments).length) :
    (readFromPackedStream (chunks.map .ok) options).map Prod.fst
      = some (.error (.io .unexpectedEof)) := by
  obtain ⟨hcount, hwords⟩ := StreamOptions.verdict_eq_ok_iff.1 hok
  have hlt : (tableOf segments).length < (tableOf segments ++ segments.words.flatten).length := by
    obtain ⟨-, -, -, -, -, hlt⟩ := hcut
    exact hlt
  obtain ⟨first, rest, htable⟩ := exists_tableOf segments
  obtain ⟨stream₁, used₁, left₁, hread₁, hstanding₁⟩ := readFirstPacked_eq hpacked htable
  obtain ⟨stream₂, used₂, left₂, hread₂, hstanding₂⟩ :=
    readTablePacked_eq hpacked htable hcount hstanding₁
  obtain rfl := hstanding₂.rest_eq_nil_of_eofCut hlt hcut
  have hpos : 0 < segments.totalWords := by
    rw [List.length_append, ← segments.totalWords_eq] at hlt
    omega
  have hne : List.replicate segments.totalWords Word.null ≠ [] := by
    rw [← List.length_pos_iff, List.length_replicate]
    exact hpos
  -- the call for the segments finds no input
  have hread₃ : stream₂.readExact (List.replicate segments.totalWords Word.null)
      = some (.error .unexpectedEof, List.replicate segments.totalWords Word.null, stream₂) := by
    have hloop : stream₂.read (List.replicate segments.totalWords Word.null) = _ :=
      (if_neg hne).trans (hstanding₂.readLoop_eof hpacked hlt _)
    rw [PackedStream.readExact, dif_neg hne]
    split
    · next heq => rw [hloop] at heq; cases heq
    · next heq => rw [hloop] at heq; cases heq
    · next heq => rw [hloop] at heq; cases heq; rfl
  rw [readFromPackedStream, readWithPackedStream, hread₁]
  simp only [Option.bind_some, hread₂, readSegmentsPacked,
    SegmentSetTable.fromStream_refOf hwords, hread₃]
  rfl

/-- **When the readers mean what their limits say.**  `read_from_stream` on a message, and
`read_from_packed_stream` on any packing of it, accept it exactly when it is within the limits, and
else return the error of a limit with nothing allocated for the segments, if and only if the
message is off the boundary of the limits; a packed message within the limits must also not be cut
after its table. -/
theorem limits_iff (segments : MessageSegments) (options : StreamOptions) :
    (∀ (r : Read) (trailing : List Byte), r.Interruptible →
      r.bytes = Word.sliceToBytes (tableOf segments ++ segments.words.flatten) ++ trailing →
      (options.Honoured segments ((readFromStream r options).map Prod.fst)
          (streamAlloc r options) ↔
        options.OffBoundary segments)) ∧
    ∀ (chunks : List Chunk) (packed : List Byte),
      PackedStream.Packed chunks packed (tableOf segments ++ segments.words.flatten) →
      (options.Honoured segments ((readFromPackedStream (chunks.map .ok) options).map Prod.fst)
          (packedAlloc (chunks.map .ok) options) ↔
        options.OffBoundary segments ∧
          ¬ (options.Within segments ∧
            PackedStream.EofCut chunks (tableOf segments ++ segments.words.flatten).length
              (tableOf segments).length)) := by
  refine ⟨fun r trailing hintr hbytes => ?_, fun chunks packed hpacked => ?_⟩
  · obtain ⟨hok, herr⟩ := @readFromStream_verdict _ options _ _ hintr hbytes
    exact StreamOptions.honoured_iff hok herr
  have herr := fun err => @readFromPackedStream_of_error _ options _ _ err hpacked
  by_cases hcut : options.verdict segments = .ok () ∧
      PackedStream.EofCut chunks (tableOf segments ++ segments.words.flatten).length
        (tableOf segments).length
  · -- the error at a cut is of no limit
    refine iff_of_false (fun h => ?_) fun h => h.2
      ⟨(StreamOptions.verdict_eq_ok_iff_within h.1).1 hcut.1, hcut.2⟩
    have hresult := readFromPackedStream_of_cut hpacked hcut.1 hcut.2
    by_cases hwithin : options.Within segments
    · obtain ⟨set, hset, -⟩ := h.accepts.2 hwithin
      rw [hresult] at hset
      cases hset
    · obtain ⟨-, err, herr', hexceeded⟩ := h.rejects hwithin
      rw [hresult] at herr'
      cases herr'
      rcases hexceeded with ⟨heq, -⟩ | ⟨heq, -⟩ <;> cases heq
  · have hoff : options.Honoured segments
        ((readFromPackedStream (chunks.map .ok) options).map Prod.fst)
        (packedAlloc (chunks.map .ok) options) ↔ options.OffBoundary segments := by
      refine StreamOptions.honoured_iff (fun hok => ?_) herr
      obtain ⟨hcount, hwords⟩ := StreamOptions.verdict_eq_ok_iff.1 hok
      obtain ⟨trailing, hbytes⟩ := hpacked.bytes
      obtain ⟨left, hread, -⟩ := readFromPackedStream_eq hcount hwords hpacked
        (fun heof => hcut ⟨hok, heof⟩) hbytes
      exact ⟨_, by rw [hread, Option.map_some], holds_ofSegments segments⟩
    rw [hoff]
    refine ⟨fun h => ⟨h, fun hboth => hcut ⟨?_, hboth.2⟩⟩, And.left⟩
    exact (StreamOptions.verdict_eq_ok_iff_within h).2 hboth.1

/-- Input that comes byte by byte. -/
def byteByByte (bytes : List Byte) : List Chunk := bytes.map fun byte => ⟨byte, []⟩

lemma flatMap_byteByByte (bytes : List Byte) :
    (byteByByte bytes).flatMap Chunk.bytes = bytes := by
  induction bytes with
  | nil => rfl
  | cons byte bytes ih =>
    rw [byteByByte, List.map_cons, List.flatMap_cons]
    exact congrArg (byte :: ·) ih

lemma bytes_map_ok (chunks : List Chunk) :
    Read.bytes (chunks.map .ok) = chunks.flatMap Chunk.bytes := by
  induction chunks with
  | nil => rfl
  | cons chunk chunks ih => rw [List.map_cons, Read.bytes_ok, ih, List.flatMap_cons]

lemma interruptible_map_ok (chunks : List Chunk) : Read.Interruptible (chunks.map .ok) := by
  intro kind hmem
  obtain ⟨chunk, -, heq⟩ := List.mem_map.1 hmem
  cases heq

/-- A message of two segments and one word, read with limits of three segments and one word. -/
theorem limits_iff_three :
    (StreamOptions.mk 3 1).Honoured twoSegments
      ((readFromStream ((byteByByte
        (Word.sliceToBytes (tableOf twoSegments ++ twoSegments.words.flatten))).map .ok)
          ⟨3, 1⟩).map Prod.fst)
      (streamAlloc ((byteByByte
        (Word.sliceToBytes (tableOf twoSegments ++ twoSegments.words.flatten))).map .ok) ⟨3, 1⟩) ∧
    (StreamOptions.mk 3 1).Honoured twoSegments
      ((readFromPackedStream ((byteByByte (packedOf twoSegments)).map .ok) ⟨3, 1⟩).map Prod.fst)
      (packedAlloc ((byteByByte (packedOf twoSegments)).map .ok) ⟨3, 1⟩) := by
  have hoff : (StreamOptions.mk 3 1).OffBoundary twoSegments :=
    ⟨fun h => absurd h.1 (by decide), fun h => absurd h.1 (by decide)⟩
  have hbytes : (byteByByte (packedOf twoSegments)).flatMap Chunk.bytes
      = packedOf twoSegments ++ [] := by
    rw [flatMap_byteByByte, List.append_nil]
  obtain ⟨hstream, hpacked⟩ := limits_iff twoSegments ⟨3, 1⟩
  refine ⟨(hstream _ [] (interruptible_map_ok _) ?_).2 hoff,
    (hpacked _ _ (packed_packedOf hbytes)).2
      ⟨hoff, fun hcut => not_eofCut_table hbytes hcut.2⟩⟩
  rw [bytes_map_ok, flatMap_byteByByte, List.append_nil]

/-- Two segments are not accepted with a limit of two. -/
theorem not_limits :
    ¬ ∀ (segments : MessageSegments) (options : StreamOptions) (r : Read), r.Interruptible →
      r.bytes = Word.sliceToBytes (tableOf segments ++ segments.words.flatten) →
      options.Honoured segments ((readFromStream r options).map Prod.fst)
        (streamAlloc r options) := by
  intro h
  have hbytes := bytes_map_ok (byteByByte
    (Word.sliceToBytes (tableOf twoSegments ++ twoSegments.words.flatten)))
  rw [flatMap_byteByByte] at hbytes
  have hhonoured := h twoSegments ⟨2, 1⟩ _ (interruptible_map_ok _) hbytes
  obtain ⟨set, hset, -⟩ := hhonoured.accepts.2 ⟨by decide, by decide⟩
  have hmany := (readFromStream_verdict (interruptible_map_ok _)
    (hbytes.trans (List.append_nil _).symm)).2 _
    (show (StreamOptions.mk 2 1).verdict twoSegments = .error (.table .tooManySegments) from
      by decide)
  rw [hmany.1] at hset
  cases hset

end Recapn.Io

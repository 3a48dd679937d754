/-
# Packed messages

`write_message_packed` packs the stream table and each of the segments with a packer of its own;
`read_from_packed_stream` reads them through one unpacker, first a word of the table, then the
rest of the table, then all segments in one call, and then finishes the stream.

A call of `read_exact` fails at a cut, where null words of a run are still owed and the input has
ended.  The calls for a message never start at a cut: no run goes on from one slice to the next,
and a table of more than one word does not start with a null word.
-/
import Mathlib.Data.List.Forall2
import Recapn.Io.Framing
import Recapn.Packing.RoundTrip
import Recapn.Packing.Streaming

namespace Recapn.Io

open Recapn.Packing

/-! ## Writing -/

/-- `io::Write::write_all`. -/
def writeAll (writer : Write) (buf : List Byte) : Option (Except ErrorKind Unit × Write) :=
  if buf = [] then some (.ok (), writer) else writeLoop writer [buf]

/-- The buffer of `write_message_packed`. -/
structure PackBuffer where
  bytes : List Byte
  length_eq : bytes.length = 256

/-- `[0u8; 256]`. -/
def PackBuffer.zeroed : PackBuffer := ⟨List.replicate 256 0, List.length_replicate⟩

/-- A call of `pack` that does not complete leaves less to write. -/
lemma pending_lt_of_pack {packer packer' : Packer} {buffer : PackBuffer} {result : PackResult}
    {out : OutBuf} (h : packer.pack buffer.bytes = some (result, out, packer'))
    (hresult : ¬ result.completed = true) : packer'.pending.length < packer.pending.length := by
  obtain ⟨_, _, _, hpack, hpacks⟩ := packer.pack_spec buffer.bytes
  rw [h] at hpack
  cases hpack
  obtain ⟨bytes, rfl, hbytes⟩ := hpacks.pushed
  have hmin : minBuf ≤ buffer.bytes.length := by
    rw [buffer.length_eq]
    decide
  have hprogress := hpacks.progress (Bool.eq_false_iff.2 hresult) hmin
  rw [← hbytes, List.length_append]
  simpa using hprogress

/-- The loop of `write_message_packed` over one slice of words: what is returned, the writer and
the buffer after it. -/
def packSlice (writer : Write) (packer : Packer) (buffer : PackBuffer) :
    Option (Except ErrorKind Unit × Write × PackBuffer) :=
  match hpack : packer.pack buffer.bytes with
  | none => none
  | some (result, out, packer') =>
    let buffer' : PackBuffer :=
      ⟨out.written ++ out.rest, by
        rw [List.length_append]
        exact (Packer.size_pack hpack).trans buffer.length_eq⟩
    match writeAll writer (buffer'.bytes.take result.bytesWritten) with
    | none => none
    | some (.error kind, writer') => some (.error kind, writer', buffer')
    | some (.ok (), writer') =>
      if _hcompleted : result.completed = true then some (.ok (), writer', buffer')
      else packSlice writer' packer' buffer'
termination_by packer.pending.length
decreasing_by exact pending_lt_of_pack hpack _hcompleted

/-- The loop of `write_message_packed` over the table and the segments. -/
def packSlices (writer : Write) (buffer : PackBuffer) :
    List (List Word) → Option (Except ErrorKind Unit × Write)
  | [] => some (.ok (), writer)
  | slice :: slices =>
    (packSlice writer (Packer.new slice) buffer).bind fun (r, writer, buffer) =>
      match r with
      | .error kind => some (.error kind, writer)
      | .ok () => packSlices writer buffer slices

/-- `write_message_packed`. -/
def writeMessagePacked (writer : Write) (segments : MessageSegments) :
    Option (Except ErrorKind Unit × Write) :=
  (StreamTable.fromSegments segments).bind fun streamTable =>
    packSlices writer PackBuffer.zeroed (streamTable.asSlice :: segments.words)

/-- The slices of a message: its table and its segments. -/
def slicesOf (segments : MessageSegments) : List (List Word) := tableOf segments :: segments.words

/-- The packed bytes of a message. -/
def packedOf (segments : MessageSegments) : List Byte := (slicesOf segments).flatMap encode

/-- A writer that goes on accepting gets the whole buffer, and goes on accepting. -/
lemma writeAll_eq {writer : Write} (haccepts : Write.Accepts writer.script) (buf : List Byte) :
    ∃ writer', writeAll writer buf = some (.ok (), writer') ∧
      writer'.written = writer.written ++ buf ∧ Write.Accepts writer'.script := by
  unfold writeAll
  split
  · next hnil => exact ⟨writer, rfl, by rw [hnil, List.append_nil], haccepts⟩
  · next hne =>
    obtain ⟨writer', hloop, hwritten, haccepts'⟩ :=
      writeLoop_eq haccepts writer.written [buf] fun _ => by simpa using hne
    refine ⟨writer', hloop, ?_, haccepts'⟩
    rw [hwritten, List.flatten_singleton]

/-- The loop over a slice writes what the packer has still to write. -/
lemma packSlice_eq {writer : Write} (haccepts : Write.Accepts writer.script) (packer : Packer)
    (buffer : PackBuffer) :
    ∃ writer' buffer', packSlice writer packer buffer = some (.ok (), writer', buffer') ∧
      writer'.written = writer.written ++ packer.pending ∧ Write.Accepts writer'.script := by
  induction hn : packer.pending.length using Nat.strongRecOn
    generalizing writer packer buffer with
  | ind n ih =>
  obtain ⟨result, out, packer', hpack, hpacks⟩ := packer.pack_spec buffer.bytes
  have htake := Packer.take_bytesWritten hpacks
  obtain ⟨writer', hwrite, hwritten, haccepts'⟩ := writeAll_eq haccepts out.written
  obtain ⟨bytes, hout, hbytes⟩ := hpacks.pushed
  have hpushed : out.written = bytes := by
    rw [hout]
    exact List.nil_append _
  rw [packSlice]
  split
  · next hnone => rw [hpack] at hnone; cases hnone
  · next hsome =>
    rw [hpack] at hsome
    cases hsome
    simp only [htake, hwrite]
    by_cases hcompleted : result.completed = true
    · rw [dif_pos hcompleted]
      refine ⟨writer', _, rfl, ?_, haccepts'⟩
      rw [hwritten, ← hbytes, hpacks.completed hcompleted, List.append_nil, hpushed]
    · rw [dif_neg hcompleted]
      have hlt := pending_lt_of_pack hpack hcompleted
      obtain ⟨writer'', buffer'', hslice, hwritten', haccepts''⟩ :=
        ih _ (hn ▸ hlt) haccepts' packer' ⟨out.written ++ out.rest, by
          rw [List.length_append]
          exact (Packer.size_pack hpack).trans buffer.length_eq⟩ rfl
      refine ⟨writer'', buffer'', hslice, ?_, haccepts''⟩
      rw [hwritten', hwritten, List.append_assoc, hpushed, hbytes]

/-- All slices are packed, one after the other. -/
lemma packSlices_eq {writer : Write} (haccepts : Write.Accepts writer.script) (buffer : PackBuffer)
    (slices : List (List Word)) :
    ∃ writer', packSlices writer buffer slices = some (.ok (), writer') ∧
      writer'.written = writer.written ++ slices.flatMap encode ∧
      Write.Accepts writer'.script := by
  induction slices generalizing writer buffer with
  | nil => exact ⟨writer, rfl, (List.append_nil _).symm, haccepts⟩
  | cons slice slices ih =>
    obtain ⟨writer₁, buffer₁, hslice, hwritten₁, haccepts₁⟩ :=
      packSlice_eq haccepts (Packer.new slice) buffer
    obtain ⟨writer₂, hslices, hwritten₂, haccepts₂⟩ := ih haccepts₁ buffer₁
    refine ⟨writer₂, ?_, ?_, haccepts₂⟩
    · rw [packSlices, hslice, Option.bind_some]
      exact hslices
    · rw [hwritten₂, hwritten₁, List.flatMap_cons, List.append_assoc]
      rfl

/-- **The packed bytes of a message are written**, whatever the calls of the writer accept. -/
theorem writeMessagePacked_eq (segments : MessageSegments) {writer : Write}
    (haccepts : Write.Accepts writer.script) :
    ∃ writer', writeMessagePacked writer segments = some (.ok (), writer') ∧
      writer'.written = writer.written ++ packedOf segments ∧ Write.Accepts writer'.script := by
  obtain ⟨table, htable, hslice⟩ := StreamTable.exists_fromSegments segments
  rw [writeMessagePacked, htable, Option.bind_some, hslice]
  exact packSlices_eq haccepts PackBuffer.zeroed (slicesOf segments)

/-! ## Reading -/

/-- The rest of a table, after its first word. -/
def readRestPacked (stream : PackedStream) (first : Word) :
    List Word → Option (Except StreamError StreamTableRef × PackedStream)
  | [] => none
  | _ :: rest =>
    (stream.readExact rest).bind fun (r, rest, stream) =>
      match r with
      | .error kind => some (.error (.io kind), stream)
      | .ok () =>
        (StreamTableRef.tryRead (first :: rest)).bind fun
          | .ok (table, _) => some (.ok table, stream)
          | .error _ => none

/-- The part of `read_with_packed_stream` that makes the table, with its first word in hand. -/
def readTablePacked (stream : PackedStream) (first : Word) (options : StreamOptions) :
    Option (Except StreamError StreamTableRef × PackedStream) :=
  (StreamTableRef.tryRead [first]).bind fun
    | .ok (table, _) => some (.ok table, stream)
    | .error .empty => none
    | .error .tooManySegments => some (.error (.table .tooManySegments), stream)
    | .error (.incomplete count required) =>
      if options.segmentLimit ≤ count then some (.error (.table .tooManySegments), stream)
      else (tableBuffer count required).bind (readRestPacked stream first)

/-- The part of `read_with_packed_stream` that reads the segments, with the table in hand. -/
def readSegmentsPacked (stream : PackedStream) (table : StreamTableRef) (options : StreamOptions) :
    Option (Except StreamError SegmentSet × PackedStream) :=
  match SegmentSetTable.fromStream table options.readLimit with
  | .error err => (mapReadErr err).map fun err => (.error err, stream)
  | .ok (table, messageLen) =>
    (stream.readExact (List.replicate messageLen Word.null)).bind fun (r, data, stream) =>
      match r with
      | .error kind => some (.error (.io kind), stream)
      | .ok () => (SegmentSet.new table data).map fun set => (.ok set, stream)

/-- `read_with_packed_stream`: the segments, and the stream after the call. -/
def readWithPackedStream (stream : PackedStream) (options : StreamOptions) :
    Option (Except StreamError SegmentSet × PackedStream) :=
  (stream.readExact [Word.null]).bind fun (r, first, stream) =>
    match r, first with
    | .error kind, _ => some (.error (.io kind), stream)
    | .ok (), [first] =>
      (readTablePacked stream first options).bind fun (table, stream) =>
        match table with
        | .error err => some (.error err, stream)
        | .ok table => readSegmentsPacked stream table options
    | .ok (), _ => none

/-- `read_from_packed_stream`: the segments, and what is left of the input. -/
def readFromPackedStream (stream : BufRead) (options : StreamOptions) :
    Option (Except StreamError SegmentSet × BufRead) :=
  (readWithPackedStream (PackedStream.new stream) options).bind fun (msg, packed) =>
    match msg with
    | .error err => some (.error err, packed.stream)
    | .ok msg =>
      packed.finish.map fun (r, packed) =>
        match r with
        | .error kind => (.error (.io kind), packed.stream)
        | .ok () => (.ok msg, packed.stream)

/-! ## No call starts at a cut -/

lemma feed_flatMap_encode (slices : List (List Word)) :
    Dec.feed .idle (slices.flatMap encode) = (.idle, slices.flatten) := by
  induction slices with
  | nil => rfl
  | cons slice slices ih =>
    rw [List.flatMap_cons, List.flatten_cons]
    exact Dec.feed_append_eq (feed_encode slice) ih

/-- A message at the front of the input. -/
lemma packed_packedOf {segments : MessageSegments} {chunks : List Chunk} {trailing : List Byte}
    (hbytes : chunks.flatMap Chunk.bytes = packedOf segments ++ trailing) :
    PackedStream.Packed chunks (packedOf segments)
      (tableOf segments ++ segments.words.flatten) :=
  ⟨⟨trailing, hbytes.symm⟩, feed_flatMap_encode (slicesOf segments)⟩

variable {segments : MessageSegments} {chunks : List Chunk} {packed trailing : List Byte}

/-- No cut is after the first word of a table of more than one word. -/
lemma not_eofCut_first
    (hpacked : PackedStream.Packed chunks packed (tableOf segments ++ segments.words.flatten))
    (hmore : segments.len ≠ 1) :
    ¬ PackedStream.EofCut chunks (tableOf segments ++ segments.words.flatten).length 1 := by
  intro hcut
  obtain ⟨left, hleft⟩ := hpacked.bytes
  obtain ⟨pre, count, hpre, hdec, hle⟩ := hcut.packed hpacked hleft
  have hfeed : Dec.feed .idle pre = (.nullCount, (Dec.feed .idle pre).2) := Prod.ext hdec rfl
  obtain ⟨init, hout⟩ := Dec.out_of_feed_nullCount hfeed
  have hinit : init = [] := by
    rw [hout, List.length_append, List.length_singleton] at hle
    exact List.eq_nil_of_length_eq_zero (by omega)
  -- the run starts with the first word of the table, which is then null
  obtain ⟨first, rest, htable⟩ := exists_tableOf segments
  have hwords := congrArg Prod.snd hpacked.feed
  rw [hpre, Dec.feed_append] at hwords
  simp only [hout, hinit, htable] at hwords
  have hfirst : Word.null = first := (List.cons.inj hwords).1
  have hvalues := u32s_tableOf segments
  rw [htable, ← hfirst, u32s_cons] at hvalues
  have hcount : 0 = segments.len - 1 := (List.cons.inj hvalues).1
  have hpos := segments.len_pos
  omega

/-- No cut is after the table, where the segments are packed on their own. -/
lemma not_eofCut_table (hbytes : chunks.flatMap Chunk.bytes = packedOf segments ++ trailing) :
    ¬ PackedStream.EofCut chunks (tableOf segments ++ segments.words.flatten).length
      (tableOf segments).length := by
  intro hcut
  have hlt : (tableOf segments).length < (tableOf segments ++ segments.words.flatten).length := by
    obtain ⟨-, -, -, -, -, hlt⟩ := hcut
    exact hlt
  obtain ⟨pre, count, hpre, hdec, hle⟩ := hcut.packed (packed_packedOf hbytes) hbytes.symm
  have hsplit : packedOf segments = encode (tableOf segments) ++ segments.words.flatMap encode :=
    List.flatMap_cons
  -- the run is in the segments, which are packed from the start of a token on
  obtain ⟨pre', hpre'⟩ : ∃ pre', pre = encode (tableOf segments) ++ pre' := by
    rcases List.eq_nil_or_concat (segments.words.flatMap encode) with hnil | ⟨init, last, hlast⟩
    · have hfeed := feed_flatMap_encode segments.words
      rw [hnil] at hfeed
      have hempty : [] = segments.words.flatten := congrArg Prod.snd hfeed
      rw [← hempty, List.append_nil] at hlt
      exact absurd hlt (Nat.lt_irrefl _)
    · rw [hlast, List.concat_eq_append, hpre, ← List.append_assoc] at hsplit
      exact ⟨init, (List.append_inj' hsplit rfl).1⟩
  rw [hpre', Dec.feed_append, feed_encode] at hdec hle
  simp only [List.length_append] at hdec hle
  have hnil : (Dec.feed .idle pre').2 = [] := List.eq_nil_of_length_eq_zero (by omega)
  cases (Dec.eq_nullCount_of_feed (Prod.ext hdec hnil)).1

/-! ## What was packed is read back -/

/-- The rest of the table, and with it the table. -/
lemma readTablePacked_eq {options : StreamOptions} {stream : PackedStream} {first : Word}
    {rest : List Word} {used : List Byte} {left : List Chunk}
    (hpacked : PackedStream.Packed chunks packed (tableOf segments ++ segments.words.flatten))
    (htable : tableOf segments = first :: rest)
    (hcount : segments.len ≠ 1 → segments.len < options.segmentLimit)
    (h : PackedStream.Standing chunks packed (tableOf segments ++ segments.words.flatten)
      stream 1 used left) :
    ∃ stream' used' left', readTablePacked stream first options
        = some (.ok (refOf segments), stream') ∧
      PackedStream.Standing chunks packed (tableOf segments ++ segments.words.flatten)
        stream' (tableOf segments).length used' left' := by
  have hsize : rest.length + 1 = tableSizeFromCount segments.len := by
    rw [← List.length_cons, ← htable, length_tableOf, tableSizeOf]
  rw [readTablePacked, tryRead_first htable]
  by_cases hone : segments.len = 1
  · -- the first word is the whole table
    have hlength : (tableOf segments).length = 1 := by
      rw [length_tableOf, tableSizeOf, hone]
      rfl
    rw [if_pos hone, hlength]
    exact ⟨stream, used, left, rfl, h⟩
  · obtain ⟨stream', used', left', hread, hstanding⟩ :=
      h.readExact_of_not_cut hpacked (m := rest.length)
        (by rw [htable, List.length_append, List.length_cons]; omega)
        (not_eofCut_first hpacked hone)
    have hrest : ((tableOf segments ++ segments.words.flatten).drop 1).take rest.length = rest := by
      rw [htable, List.cons_append, List.drop_one, List.tail_cons, List.take_left]
    have hall : StreamTableRef.tryRead (first :: rest) = some (.ok (refOf segments, [])) := by
      rw [← htable, ← List.append_nil (tableOf segments), tryRead_tableOf]
    rw [hrest] at hread
    refine ⟨stream', used', left', ?_, ?_⟩
    · rw [if_neg hone, Option.bind_some]
      show (if options.segmentLimit ≤ segments.len then _ else _) = _
      rw [if_neg (Nat.not_le.2 (hcount hone)), tableBuffer_eq hsize, Option.bind_some,
        readRestPacked, hread, Option.bind_some]
      simp only [hall, Option.bind_some]
    · rw [htable, List.length_cons, Nat.add_comm]
      rw [htable] at hstanding
      exact hstanding

/-- The segments, where no cut is after the table. -/
lemma readSegmentsPacked_eq {options : StreamOptions} {stream : PackedStream} {used : List Byte}
    {left : List Chunk}
    (hpacked : PackedStream.Packed chunks packed (tableOf segments ++ segments.words.flatten))
    (hwords : segments.totalWords ≤ options.readLimit)
    (hcut : ¬ PackedStream.EofCut chunks (tableOf segments ++ segments.words.flatten).length
      (tableOf segments).length)
    (h : PackedStream.Standing chunks packed (tableOf segments ++ segments.words.flatten)
      stream (tableOf segments).length used left) :
    ∃ stream' used' left', readSegmentsPacked stream (refOf segments) options
        = some (.ok (SegmentSet.ofSegments segments), stream') ∧
      PackedStream.Standing chunks packed (tableOf segments ++ segments.words.flatten)
        stream' (tableOf segments ++ segments.words.flatten).length used' left' := by
  have hlength : (tableOf segments).length + segments.totalWords
      = (tableOf segments ++ segments.words.flatten).length := by
    rw [List.length_append, segments.totalWords_eq]
  obtain ⟨stream', used', left', hread, hstanding⟩ :=
    h.readExact_of_not_cut hpacked (Nat.le_of_eq hlength) hcut
  rw [List.drop_left, segments.totalWords_eq, List.take_length, ← segments.totalWords_eq] at hread
  rw [hlength] at hstanding
  have hcomplete : (SegmentSetTable.ofLens segments.lens).lastStart
      ≤ segments.words.flatten.length := by
    rw [← segments.totalWords_eq]
    exact SegmentSetTable.lastStart_ofLens_le segments.lens
  have hset : SegmentSet.new (SegmentSetTable.ofLens segments.lens) segments.words.flatten
      = some (SegmentSet.ofSegments segments) := if_pos hcomplete
  refine ⟨stream', used', left', ?_, hstanding⟩
  rw [readSegmentsPacked, SegmentSetTable.fromStream_refOf hwords]
  simp only [hread, Option.bind_some, hset, Option.map_some]

/-- The first word of a table. -/
lemma readFirstPacked_eq {first : Word} {rest : List Word}
    (hpacked : PackedStream.Packed chunks packed (tableOf segments ++ segments.words.flatten))
    (htable : tableOf segments = first :: rest) :
    ∃ stream used left, (PackedStream.new (chunks.map .ok)).readExact [Word.null]
        = some (.ok (), [first], stream) ∧
      PackedStream.Standing chunks packed (tableOf segments ++ segments.words.flatten)
        stream 1 used left := by
  -- there is input for the first word
  have hne : chunks ≠ [] := by
    rintro rfl
    have hfeed := hpacked.feed
    rw [List.eq_nil_of_prefix_nil hpacked.bytes, htable] at hfeed
    cases congrArg Prod.snd hfeed
  obtain ⟨stream, used, left, hread, hstanding⟩ :=
    (PackedStream.standing_new chunks _ _).readExact hpacked hne Nat.one_pos
      (by rw [htable, List.length_append, List.length_cons]; omega)
  have hfirst : ((tableOf segments ++ segments.words.flatten).drop 0).take 1 = [first] := by
    rw [htable]
    rfl
  rw [hfirst] at hread
  rw [Nat.zero_add] at hstanding
  exact ⟨stream, used, left, hread, hstanding⟩

/-- The reader on a packed message, where no cut is after its table. -/
lemma readFromPackedStream_eq {options : StreamOptions}
    (hcount : segments.len ≠ 1 → segments.len < options.segmentLimit)
    (hwords : segments.totalWords ≤ options.readLimit)
    (hpacked : PackedStream.Packed chunks packed (tableOf segments ++ segments.words.flatten))
    (hcut : ¬ PackedStream.EofCut chunks (tableOf segments ++ segments.words.flatten).length
      (tableOf segments).length)
    (hbytes : packed ++ trailing = chunks.flatMap Chunk.bytes) :
    ∃ left : List Chunk, readFromPackedStream (chunks.map .ok) options
        = some (.ok (SegmentSet.ofSegments segments), left.map .ok) ∧
      left.flatMap Chunk.bytes = trailing := by
  obtain ⟨first, rest, htable⟩ := exists_tableOf segments
  obtain ⟨stream₁, used₁, left₁, hread₁, hstanding₁⟩ := readFirstPacked_eq hpacked htable
  obtain ⟨stream₂, used₂, left₂, hread₂, hstanding₂⟩ :=
    readTablePacked_eq hpacked htable hcount hstanding₁
  obtain ⟨stream₃, used₃, left₃, hread₃, hstanding₃⟩ :=
    readSegmentsPacked_eq hpacked hwords hcut hstanding₂
  obtain ⟨stream₄, left, hfinish, hstream, hleft⟩ := hstanding₃.finish hpacked hbytes
  have hread : readWithPackedStream (PackedStream.new (chunks.map .ok)) options
      = some (.ok (SegmentSet.ofSegments segments), stream₃) := by
    rw [readWithPackedStream, hread₁, Option.bind_some]
    simp only [hread₂, Option.bind_some, hread₃]
  refine ⟨left, ?_, hleft⟩
  rw [readFromPackedStream, hread, Option.bind_some]
  simp only [hfinish, Option.map_some, hstream]

/-! ## Messages back to back -/

/-- Messages are written one after the other. -/
def writeMessagesPacked (writer : Write) :
    List MessageSegments → Option (Except ErrorKind Unit × Write)
  | [] => some (.ok (), writer)
  | segments :: messages =>
    (writeMessagePacked writer segments).bind fun (r, writer) =>
      match r with
      | .error kind => some (.error kind, writer)
      | .ok () => writeMessagesPacked writer messages

/-- Messages are read one after the other: their segments, and what is left of the input. -/
def readMessagesPacked (stream : BufRead) (options : StreamOptions) :
    ℕ → Option (Except StreamError (List SegmentSet) × BufRead)
  | 0 => some (.ok [], stream)
  | n + 1 =>
    (readFromPackedStream stream options).bind fun (r, stream) =>
      match r with
      | .error err => some (.error err, stream)
      | .ok set => (readMessagesPacked stream options n).map fun (r, stream) =>
        (r.map (set :: ·), stream)

lemma writeMessagesPacked_eq (messages : List MessageSegments) {writer : Write}
    (haccepts : Write.Accepts writer.script) :
    ∃ writer', writeMessagesPacked writer messages = some (.ok (), writer') ∧
      writer'.written = writer.written ++ messages.flatMap packedOf := by
  induction messages generalizing writer with
  | nil => exact ⟨writer, rfl, (List.append_nil _).symm⟩
  | cons segments messages ih =>
    obtain ⟨writer₁, hwrite₁, hwritten₁, haccepts₁⟩ := writeMessagePacked_eq segments haccepts
    obtain ⟨writer₂, hwrite₂, hwritten₂⟩ := ih haccepts₁
    refine ⟨writer₂, ?_, ?_⟩
    · rw [writeMessagesPacked, hwrite₁, Option.bind_some]
      exact hwrite₂
    · rw [hwritten₂, hwritten₁, List.flatMap_cons, List.append_assoc]

lemma readMessagesPacked_eq {options : StreamOptions} {messages : List MessageSegments}
    (hcount : ∀ segments ∈ messages, segments.len < options.segmentLimit)
    (hwords : ∀ segments ∈ messages, segments.totalWords ≤ options.readLimit)
    (hbytes : chunks.flatMap Chunk.bytes = messages.flatMap packedOf ++ trailing) :
    ∃ left : List Chunk, readMessagesPacked (chunks.map .ok) options messages.length
        = some (.ok (messages.map SegmentSet.ofSegments), left.map .ok) ∧
      left.flatMap Chunk.bytes = trailing := by
  induction messages generalizing chunks with
  | nil => exact ⟨chunks, rfl, hbytes⟩
  | cons segments messages ih =>
    rw [List.flatMap_cons, List.append_assoc] at hbytes
    obtain ⟨left₁, hread₁, hleft₁⟩ := readFromPackedStream_eq
      (fun _ => hcount segments List.mem_cons_self) (hwords segments List.mem_cons_self)
      (packed_packedOf hbytes) (not_eofCut_table hbytes) hbytes.symm
    obtain ⟨left₂, hread₂, hleft₂⟩ := ih
      (fun segments hmem => hcount segments (List.mem_cons_of_mem _ hmem))
      (fun segments hmem => hwords segments (List.mem_cons_of_mem _ hmem)) hleft₁
    refine ⟨left₂, ?_, hleft₂⟩
    rw [List.length_cons, readMessagesPacked, hread₁, Option.bind_some]
    simp only [hread₂, Option.map_some]
    rfl

/-- **Packed messages are read back.**  Messages that `write_message_packed` writes one after the
other, with any bytes behind them, are read back one by one by `read_from_packed_stream`, in
whatever buffers the bytes come: each with the same segments, and after the last one exactly the
bytes behind them are left. -/
theorem packed_framing_round_trip (messages : List MessageSegments) (options : StreamOptions)
    (hcount : ∀ segments ∈ messages, segments.len < options.segmentLimit)
    (hwords : ∀ segments ∈ messages, segments.totalWords ≤ options.readLimit)
    (script : List (Except ErrorKind ℕ)) (haccepts : Write.Accepts script)
    (trailing : List Byte) :
    ∃ writer, writeMessagesPacked ⟨script, []⟩ messages = some (.ok (), writer) ∧
      ∀ chunks : List Chunk, chunks.flatMap Chunk.bytes = writer.written ++ trailing →
        ∃ (sets : List SegmentSet) (left : List Chunk),
          readMessagesPacked (chunks.map .ok) options messages.length
            = some (.ok sets, left.map .ok) ∧
          List.Forall₂ SegmentSet.Holds sets messages ∧ left.flatMap Chunk.bytes = trailing := by
  obtain ⟨writer, hwrite, hwritten⟩ :=
    @writeMessagesPacked_eq messages ⟨script, []⟩ haccepts
  rw [List.nil_append] at hwritten
  refine ⟨writer, hwrite, fun chunks hbytes => ?_⟩
  rw [hwritten] at hbytes
  obtain ⟨left, hread, hleft⟩ := readMessagesPacked_eq hcount hwords hbytes
  refine ⟨_, left, hread, ?_, hleft⟩
  exact List.forall₂_map_left_iff.2
    (List.forall₂_same.2 fun segments _ => holds_ofSegments segments)

/-- The message of two segments, twice, and a byte behind it. -/
theorem packed_framing_round_trip_two_messages :
    ∃ writer, writeMessagesPacked ⟨[.error .interrupted, .ok 3], []⟩ [twoSegments, twoSegments]
        = some (.ok (), writer) ∧
      ∀ chunks : List Chunk, chunks.flatMap Chunk.bytes = writer.written ++ [7] →
        ∃ (sets : List SegmentSet) (left : List Chunk),
          readMessagesPacked (chunks.map .ok) .default 2 = some (.ok sets, left.map .ok) ∧
          List.Forall₂ SegmentSet.Holds sets [twoSegments, twoSegments] ∧
          left.flatMap Chunk.bytes = [7] := by
  have haccepts : Write.Accepts [.error .interrupted, .ok 3] := by
    intro call hcall
    simp only [List.mem_cons, List.not_mem_nil, or_false] at hcall
    rcases hcall with rfl | rfl
    · exact Or.inl rfl
    · exact Or.inr ⟨2, rfl⟩
  have hall : ∀ segments ∈ [twoSegments, twoSegments], segments = twoSegments := by
    simp
  refine packed_framing_round_trip [twoSegments, twoSegments] .default ?_ ?_ _ haccepts [7]
  · intro segments hmem
    rw [hall segments hmem]
    decide
  · intro segments hmem
    rw [hall segments hmem]
    decide

end Recapn.Io

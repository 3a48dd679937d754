/-
# Framed messages

`write_message` puts the stream table and the segments into a writer; `read_from_slice` and
`read_from_stream` take a message out of a slice or a reader, whose calls give and take as
many bytes as they like.  What was written is read back, and what follows it is left.

A function is `none` where the source panics.
-/
import Recapn.Io.SegmentSet
import Recapn.Packing.Stream

namespace Recapn.Io

open Recapn.Packing (ErrorKind Chunk BufRead)

/-! ## Readers -/

/-- An `io::Read`: what its calls come to, up to its end.  A call that asks for less than a
chunk leaves the rest of it for the next call. -/
abbrev Read := BufRead

namespace Read

/-- `io::Read::read` into a buffer of the given length: the bytes that were read. -/
def read (self : Read) (len : ℕ) : Except ErrorKind (List Byte) × Read :=
  match self with
  | [] => (.ok [], [])
  | .error kind :: stream => (.error kind, stream)
  | .ok chunk :: stream =>
    (.ok (chunk.bytes.take len), BufRead.consume (.ok chunk :: stream) len)

/-- The bytes that are still to be read. -/
def bytes (self : Read) : List Byte :=
  self.flatMap fun
    | .ok chunk => chunk.bytes
    | .error _ => []

/-- The reader has no errors but interruptions. -/
def Interruptible (self : Read) : Prop := ∀ kind, .error kind ∈ self → kind = .interrupted

@[simp] lemma bytes_nil : bytes [] = [] := rfl

@[simp] lemma bytes_ok (chunk : Chunk) (stream : Read) :
    bytes (.ok chunk :: stream) = chunk.bytes ++ bytes stream := rfl

/-- A call takes its bytes from the front. -/
lemma bytes_consume (chunk : Chunk) (stream : Read) (len : ℕ) :
    bytes (BufRead.consume (.ok chunk :: stream) len)
      = (chunk.bytes ++ bytes stream).drop (chunk.bytes.take len).length := by
  have hbytes : bytes (BufRead.consume (.ok chunk :: stream) len)
      = chunk.bytes.drop len ++ bytes stream := by
    rw [BufRead.consume]
    rcases hdrop : chunk.bytes.drop len with _ | ⟨first, rest⟩ <;> rfl
  rw [hbytes, List.drop_append_of_le_length (by rw [List.length_take]; omega), List.length_take]
  rcases Nat.le_total len chunk.bytes.length with hle | hge
  · rw [Nat.min_eq_left hle]
  · rw [Nat.min_eq_right hge, List.drop_length, List.drop_of_length_le hge]

lemma Interruptible.tail {call : Except ErrorKind Chunk} {stream : Read}
    (h : Interruptible (call :: stream)) : Interruptible stream :=
  fun kind hmem => h kind (List.mem_cons_of_mem _ hmem)

lemma Interruptible.consume {chunk : Chunk} {stream : Read} {len : ℕ}
    (h : Interruptible (.ok chunk :: stream)) :
    Interruptible (BufRead.consume (.ok chunk :: stream) len) := by
  rw [BufRead.consume]
  split
  · exact h.tail
  · intro kind hmem
    rcases List.mem_cons.1 hmem with heq | hmem
    · cases heq
    · exact h.tail kind hmem

/-- What a call says about the reader. -/
lemma length_read {self self' : Read} {len : ℕ} {result : Except ErrorKind (List Byte)}
    (h : self.read len = (result, self')) :
    self'.length + (match result with | .ok _ => 0 | .error _ => 1) ≤ self.length := by
  rcases self with _ | ⟨kind | chunk, stream⟩
  · cases h
    exact Nat.le_refl _
  · cases h
    exact Nat.le_refl _
  · cases h
    exact BufRead.length_consume_le _ _

/-- `io::Read::read_exact` into a buffer of the given length: the bytes in the buffer. -/
def readExact (self : Read) (len : ℕ) : Except ErrorKind (List Byte) × Read :=
  if _hlen : len = 0 then (.ok [], self)
  else
    match _hread : self.read len with
    | (.ok [], self') => (.error .unexpectedEof, self')
    | (.ok (byte :: bytes), self') =>
      match self'.readExact (len - (bytes.length + 1)) with
      | (.ok rest, self') => (.ok (byte :: bytes ++ rest), self')
      | (.error kind, self') => (.error kind, self')
    | (.error .interrupted, self') => self'.readExact len
    | (.error kind, self') => (.error kind, self')
termination_by self.length + len
decreasing_by
  · have hle := length_read _hread
    simp only [Nat.add_zero] at hle
    omega
  · have hle := length_read _hread
    simp only at hle
    omega

lemma readExact_zero (self : Read) : self.readExact 0 = (.ok [], self) := by
  rw [readExact, dif_pos rfl]

lemma readExact_interrupted (stream : Read) {len : ℕ} (h : len ≠ 0) :
    readExact (.error .interrupted :: stream) len = readExact stream len := by
  rw [readExact, dif_neg h]
  rfl

lemma readExact_chunk (chunk : Chunk) (stream : Read) {len : ℕ} (h : len ≠ 0) :
    readExact (.ok chunk :: stream) len =
      match readExact (BufRead.consume (.ok chunk :: stream) len)
          (len - (chunk.bytes.take len).length) with
      | (.ok rest, self') => (.ok (chunk.bytes.take len ++ rest), self')
      | (.error kind, self') => (.error kind, self') := by
  obtain ⟨len, rfl⟩ := Nat.exists_eq_succ_of_ne_zero h
  rw [readExact, dif_neg h]
  rfl

/-- **All bytes asked for are read, in whatever pieces they come.** -/
theorem readExact_eq {self : Read} {a b : List Byte} (hintr : self.Interruptible)
    (hbytes : self.bytes = a ++ b) :
    ∃ self', self.readExact a.length = (.ok a, self') ∧ self'.Interruptible ∧ self'.bytes = b := by
  induction hn : self.length + a.length using Nat.strongRecOn generalizing self a with
  | ind n ih =>
  by_cases ha : a = []
  · rw [ha] at hbytes ⊢
    exact ⟨self, readExact_zero self, hintr, hbytes⟩
  have hpos : 0 < a.length := List.length_pos_iff.2 ha
  have hne : a.length ≠ 0 := Nat.ne_of_gt hpos
  rcases self with _ | ⟨kind | chunk, stream⟩
  · exact absurd (List.append_eq_nil_iff.1 hbytes.symm).1 ha
  · -- an interruption is retried
    cases hintr kind List.mem_cons_self
    rw [List.length_cons] at hn
    rw [readExact_interrupted _ hne]
    exact ih _ (by omega) hintr.tail hbytes rfl
  · -- a call takes `k` bytes, which are the first bytes of `a`; the rest is left to other calls
    have hconsume := bytes_consume chunk stream a.length
    have hlen := BufRead.length_consume_le (.ok chunk :: stream) a.length
    have hchunk := chunk.length_bytes_pos
    have hk : (chunk.bytes.take a.length).length = min a.length chunk.bytes.length :=
      List.length_take
    have hgot : chunk.bytes.take a.length = a.take (chunk.bytes.take a.length).length := by
      have htake := congrArg (List.take (chunk.bytes.take a.length).length) hbytes
      rw [bytes_ok, List.take_append_of_le_length (by omega),
        List.take_append_of_le_length (by omega)] at htake
      rw [← htake, hk, List.take_eq_take_min]
    rw [← bytes_ok, hbytes, List.drop_append_of_le_length (by omega)] at hconsume
    have hlt : (BufRead.consume (.ok chunk :: stream) a.length).length
        + (a.drop (chunk.bytes.take a.length).length).length < n := by
      rw [← hn, List.length_drop]
      omega
    obtain ⟨self', hread, hintr', hb⟩ := ih _ hlt hintr.consume hconsume rfl
    rw [List.length_drop] at hread
    rw [readExact_chunk _ _ hne, hread]
    have hjoin : chunk.bytes.take a.length ++ a.drop (chunk.bytes.take a.length).length = a := by
      conv_rhs => rw [← List.take_append_drop (chunk.bytes.take a.length).length a, ← hgot]
    exact ⟨self', congrArg (fun bytes => (Except.ok bytes, self')) hjoin, hintr', hb⟩

end Read

/-! ## Writers -/

/-- An `io::Write`: what its next calls come to, an error or the number of bytes it is ready to
accept, and the bytes it has accepted.  After these calls it accepts everything. -/
structure Write where
  script : List (Except ErrorKind ℕ)
  written : List Byte
deriving DecidableEq

namespace Write

/-- `io::Write::write_vectored`. -/
def writeVectored (self : Write) (bufs : List (List Byte)) : Except ErrorKind ℕ × Write :=
  match self.script with
  | [] => (.ok bufs.flatten.length, ⟨[], self.written ++ bufs.flatten⟩)
  | .error kind :: script => (.error kind, ⟨script, self.written⟩)
  | .ok n :: script =>
    (.ok (min n bufs.flatten.length), ⟨script, self.written ++ bufs.flatten.take n⟩)

lemma length_script_writeVectored (self : Write) (bufs : List (List Byte)) :
    (self.writeVectored bufs).2.script.length +
        (match (self.writeVectored bufs).1 with | .ok _ => 0 | .error _ => 1)
      ≤ self.script.length := by
  rcases self with ⟨_ | ⟨kind | n, script⟩, written⟩
  · exact Nat.le_refl _
  · exact Nat.le_refl _
  · exact Nat.le_succ _

/-- Every call accepts something, or is interrupted. -/
def Accepts (script : List (Except ErrorKind ℕ)) : Prop :=
  ∀ call ∈ script, call = .error .interrupted ∨ ∃ n, call = .ok (n + 1)

end Write

/-- `IoSlice::advance_slices`, which asserts that there is enough to advance over. -/
def advanceSlices : List (List Byte) → ℕ → Option (List (List Byte))
  | [], n => if n = 0 then some [] else none
  | buf :: bufs, n =>
    if buf.length ≤ n then advanceSlices bufs (n - buf.length) else some (buf.drop n :: bufs)

/-- Advancing drops bytes from the front, and no empty buffer is left in front. -/
lemma advanceSlices_eq (bufs : List (List Byte)) {n : ℕ} (h : n ≤ bufs.flatten.length) :
    ∃ bufs', advanceSlices bufs n = some bufs' ∧ bufs'.flatten = bufs.flatten.drop n ∧
      (bufs' ≠ [] → bufs'.flatten ≠ []) := by
  induction bufs generalizing n with
  | nil =>
    have hn : n = 0 := Nat.le_zero.1 h
    exact ⟨[], by rw [advanceSlices, if_pos hn], by simp, fun hne => absurd rfl hne⟩
  | cons buf bufs ih =>
    rw [List.flatten_cons, List.length_append] at h
    rw [advanceSlices, List.flatten_cons]
    split
    · next hle =>
      obtain ⟨bufs', hadv, hflat, hne⟩ := ih (n := n - buf.length) (by omega)
      refine ⟨bufs', hadv, ?_, hne⟩
      rw [hflat, List.drop_append, List.drop_of_length_le hle, List.nil_append]
    · next hlt =>
      refine ⟨_, rfl, ?_, fun _ hnil => ?_⟩
      · rw [List.flatten_cons, List.drop_append_of_le_length (by omega)]
      · have hlen := congrArg List.length hnil
        rw [List.flatten_cons, List.length_append, List.length_drop, List.length_nil] at hlen
        omega

lemma length_advanceSlices {bufs bufs' : List (List Byte)} {n : ℕ}
    (h : advanceSlices bufs n = some bufs') :
    n + bufs'.flatten.length = bufs.flatten.length := by
  induction bufs generalizing n with
  | nil =>
    rw [advanceSlices] at h
    split at h
    · cases h
      next hn =>
        rw [hn]
        rfl
    · cases h
  | cons buf bufs ih =>
    rw [advanceSlices] at h
    rw [List.flatten_cons, List.length_append]
    split at h
    · have htail := ih h
      omega
    · cases h
      rw [List.flatten_cons, List.length_append, List.length_drop]
      omega

/-- The loop of `write_message` over the buffers that are left. -/
def writeLoop (writer : Write) (bufs : List (List Byte)) : Option (Except ErrorKind Unit × Write) :=
  if bufs = [] then some (.ok (), writer)
  else
    match _hwrite : writer.writeVectored bufs with
    | (.ok 0, writer') => some (.error .writeZero, writer')
    | (.ok (n + 1), writer') =>
      match _hadv : advanceSlices bufs (n + 1) with
      | none => none
      | some bufs' => writeLoop writer' bufs'
    | (.error .interrupted, writer') => writeLoop writer' bufs
    | (.error kind, writer') => some (.error kind, writer')
termination_by writer.script.length + bufs.flatten.length
decreasing_by
  · have hlen := length_advanceSlices _hadv
    have hscript := writer.length_script_writeVectored bufs
    rw [_hwrite] at hscript
    simp only at hscript
    omega
  · have hscript := writer.length_script_writeVectored bufs
    rw [_hwrite] at hscript
    simp only at hscript
    omega

lemma writeLoop_nil (writer : Write) : writeLoop writer [] = some (.ok (), writer) := by
  rw [writeLoop, if_pos rfl]

lemma writeLoop_ok {writer writer' : Write} {bufs bufs' : List (List Byte)} {n : ℕ}
    (hne : bufs ≠ []) (hn : n ≠ 0) (hwrite : writer.writeVectored bufs = (.ok n, writer'))
    (hadv : advanceSlices bufs n = some bufs') : writeLoop writer bufs = writeLoop writer' bufs' := by
  obtain ⟨n, rfl⟩ := Nat.exists_eq_succ_of_ne_zero hn
  rw [writeLoop, if_neg hne]
  split
  · next heq => rw [hwrite] at heq; cases heq
  · next heq =>
    rw [hwrite] at heq
    cases heq
    split
    · next hadv' => rw [hadv] at hadv'; cases hadv'
    · next hadv' => rw [hadv] at hadv'; cases hadv'; rfl
  · next heq => rw [hwrite] at heq; cases heq
  · next heq => rw [hwrite] at heq; cases heq

lemma writeLoop_interrupted {script : List (Except ErrorKind ℕ)} {written : List Byte}
    {bufs : List (List Byte)} (hne : bufs ≠ []) :
    writeLoop ⟨.error .interrupted :: script, written⟩ bufs = writeLoop ⟨script, written⟩ bufs := by
  rw [writeLoop, if_neg hne]
  rfl

/-- A writer that goes on accepting gets all bytes, in order, and goes on accepting. -/
lemma writeLoop_eq {script : List (Except ErrorKind ℕ)} (haccepts : Write.Accepts script)
    (written : List Byte) (bufs : List (List Byte)) (hfull : bufs ≠ [] → bufs.flatten ≠ []) :
    ∃ writer', writeLoop ⟨script, written⟩ bufs = some (.ok (), writer') ∧
      writer'.written = written ++ bufs.flatten ∧ Write.Accepts writer'.script := by
  induction script generalizing written bufs with
  | nil =>
    by_cases hne : bufs = []
    · rw [hne, writeLoop_nil]
      exact ⟨_, rfl, (List.append_nil _).symm, haccepts⟩
    · -- everything is accepted, and the loop ends
      obtain ⟨bufs', hadv, hflat, hfull'⟩ := advanceSlices_eq bufs (Nat.le_refl bufs.flatten.length)
      have hdone : bufs' = [] := by
        by_contra hmore
        exact hfull' hmore (by rw [hflat, List.drop_length])
      have hlen : bufs.flatten.length ≠ 0 := by
        rw [Ne, List.length_eq_zero_iff]
        exact hfull hne
      rw [writeLoop_ok hne hlen rfl hadv, hdone, writeLoop_nil]
      exact ⟨_, rfl, rfl, haccepts⟩
  | cons call script ih =>
    have hrest : Write.Accepts script := fun call hmem => haccepts call (List.mem_cons_of_mem _ hmem)
    by_cases hne : bufs = []
    · rw [hne, writeLoop_nil]
      exact ⟨_, rfl, (List.append_nil _).symm, haccepts⟩
    rcases haccepts call List.mem_cons_self with rfl | ⟨n, rfl⟩
    · rw [writeLoop_interrupted hne]
      exact ih hrest written bufs hfull
    · have hlen : bufs.flatten.length ≠ 0 := by
        rw [Ne, List.length_eq_zero_iff]
        exact hfull hne
      obtain ⟨bufs', hadv, hflat, hfull'⟩ :=
        advanceSlices_eq bufs (Nat.min_le_right (n + 1) bufs.flatten.length)
      obtain ⟨writer', hloop, hwritten, haccepts'⟩ :=
        ih hrest (written ++ bufs.flatten.take (n + 1)) bufs' hfull'
      rw [writeLoop_ok hne (by omega) rfl hadv]
      refine ⟨writer', hloop, ?_, haccepts'⟩
      rw [hwritten, hflat, List.append_assoc, List.take_eq_take_min, List.take_append_drop]

/-- `write_message`. -/
def writeMessage (writer : Write) (segments : MessageSegments) :
    Option (Except ErrorKind Unit × Write) :=
  (StreamTable.fromSegments segments).bind fun streamTable =>
    (advanceSlices (streamTable.asBytes :: segments.words.map Word.sliceToBytes) 0).bind fun bufs =>
      writeLoop writer bufs

lemma flatten_map_sliceToBytes (slices : List (List Word)) :
    (slices.map Word.sliceToBytes).flatten = Word.sliceToBytes slices.flatten := by
  induction slices with
  | nil => rfl
  | cons slice slices ih =>
    rw [List.map_cons, List.flatten_cons, ih, List.flatten_cons, Word.sliceToBytes_append]

/-- **The table and the segments are written**, whatever the calls of the writer accept. -/
theorem writeMessage_eq (segments : MessageSegments) {script : List (Except ErrorKind ℕ)}
    (haccepts : Write.Accepts script) (written : List Byte) :
    ∃ writer', writeMessage ⟨script, written⟩ segments = some (.ok (), writer') ∧
      writer'.written
        = written ++ Word.sliceToBytes (tableOf segments ++ segments.words.flatten) := by
  obtain ⟨table, htable, hslice⟩ := StreamTable.exists_fromSegments segments
  obtain ⟨bufs, hadv, hflat, hfull⟩ :=
    advanceSlices_eq (table.asBytes :: segments.words.map Word.sliceToBytes) (Nat.zero_le _)
  obtain ⟨writer', hloop, hwritten, -⟩ := writeLoop_eq haccepts written bufs hfull
  refine ⟨writer', ?_, ?_⟩
  · rw [writeMessage, htable, Option.bind_some, hadv, Option.bind_some, hloop]
  · rw [hwritten, hflat, List.drop_zero, List.flatten_cons, flatten_map_sliceToBytes,
      StreamTable.asBytes, hslice, Word.sliceToBytes_append]

/-! ## Reading a message -/

/-- `read_from_slice`: the segments and the rest of the slice. -/
def readFromSlice (slice : List Word) : Option (Except ReadError (SegmentSet × List Word)) :=
  (StreamTableRef.tryRead slice).map fun
    | .error err => .error (.table err)
    | .ok (table, content) =>
      match SegmentSetTable.fromStream table content.length with
      | .error err => .error err
      | .ok (table, messageLen) =>
        if content.length < messageLen then .error .incomplete
        else .ok (⟨content.take messageLen, table⟩, content.drop messageLen)

/-- `StreamError`. -/
inductive StreamError where
  | table (err : TableReadError)
  | segmentTooLarge (segment : SegmentId)
  | messageTooLarge
  | io (kind : ErrorKind)
deriving DecidableEq

/-- `map_read_err`. -/
def mapReadErr : ReadError → Option StreamError
  | .table err => some (.table err)
  | .segmentTooLarge segment => some (.segmentTooLarge segment)
  | .messageTooLarge => some .messageTooLarge
  | .incomplete => none

/-- `StreamOptions`. -/
structure StreamOptions where
  segmentLimit : ℕ
  readLimit : ℕ
deriving DecidableEq, Repr

/-- `StreamOptions::DEFAULT`. -/
def StreamOptions.default : StreamOptions := ⟨512, 8 * 1024 * 1024⟩

/-- The buffer for a table: on the stack when it fits, or else on the heap. -/
def tableBuffer (count required : ℕ) : Option (List Word) :=
  let tableStackBufLen := 32
  if maxTableSizeFromLen tableStackBufLen < count then
    some (List.replicate (required + 1) Word.null)
  else if required + 1 ≤ tableStackBufLen then
    some ((List.replicate tableStackBufLen Word.null).take (required + 1))
  else none

/-- The rest of a table, after its first word: `split_first_mut` of the buffer, `read_exact` into
the words after the first, and `try_read` of the buffer, which is expected to succeed. -/
def readRest (r : Read) (first : Word) : List Word → Option (Except StreamError StreamTableRef × Read)
  | [] => none
  | _ :: rest =>
    match r.readExact (8 * rest.length) with
    | (.error kind, r) => some (.error (.io kind), r)
    | (.ok rest, r) =>
      (StreamTableRef.tryRead (first :: Word.ofByteSlice rest)).bind fun
        | .ok (table, _) => some (.ok table, r)
        | .error _ => none

/-- The part of `read_from_stream` that makes the table, with its first word in hand. -/
def readTable (r : Read) (first : Word) (options : StreamOptions) :
    Option (Except StreamError StreamTableRef × Read) :=
  (StreamTableRef.tryRead [first]).bind fun
    | .ok (table, _) => some (.ok table, r)
    | .error (.incomplete count required) =>
      if options.segmentLimit ≤ count then some (.error (.table .tooManySegments), r)
      else (tableBuffer count required).bind (readRest r first)
    | .error .tooManySegments => some (.error (.table .tooManySegments), r)
    | .error .empty => none

/-- The part of `read_from_stream` that reads the segments, with the table in hand. -/
def readSegments (r : Read) (table : StreamTableRef) (options : StreamOptions) :
    Option (Except StreamError SegmentSet × Read) :=
  match SegmentSetTable.fromStream table options.readLimit with
  | .error err => (mapReadErr err).map fun err => (.error err, r)
  | .ok (table, messageLen) =>
    match r.readExact (8 * messageLen) with
    | (.error kind, r) => some (.error (.io kind), r)
    | (.ok data, r) => (SegmentSet.new table (Word.ofByteSlice data)).map fun set => (.ok set, r)

/-- `read_from_stream`: the segments, and the reader after the call. -/
def readFromStream (r : Read) (options : StreamOptions) :
    Option (Except StreamError SegmentSet × Read) :=
  match r.readExact 8 with
  | (.error kind, r) => some (.error (.io kind), r)
  | (.ok first, r) =>
    (readTable r (Word.ofBytes first) options).bind fun (table, r) =>
      match table with
      | .error err => some (.error err, r)
      | .ok table => readSegments r table options

/-! ## What was written is read back -/

/-- The set has the segments of the message, and no others. -/
def SegmentSet.Holds (set : SegmentSet) (segments : MessageSegments) : Prop :=
  set.len = segments.len ∧ ∀ id, set.segment id = some segments.words[id]?

lemma holds_ofSegments (segments : MessageSegments) :
    (SegmentSet.ofSegments segments).Holds segments :=
  ⟨SegmentSet.len_ofSegments segments, SegmentSet.segment_ofSegments segments⟩

/-- The slice reader on the table of a message, with the segments and something behind it. -/
lemma readFromSlice_of_tryRead {segments : MessageSegments} {slice rest : List Word}
    (h : StreamTableRef.tryRead slice
      = some (.ok (refOf segments, segments.words.flatten ++ rest))) :
    readFromSlice slice = some (.ok (SegmentSet.ofSegments segments, rest)) := by
  have hle : segments.totalWords ≤ (segments.words.flatten ++ rest).length := by
    rw [List.length_append, segments.totalWords_eq]
    exact Nat.le_add_right _ _
  rw [readFromSlice, h, Option.map_some]
  simp only [SegmentSetTable.fromStream_refOf hle]
  rw [if_neg (Nat.not_lt.2 hle), segments.totalWords_eq, List.take_left, List.drop_left]
  rfl

/-- The slice reader on a message with something behind it. -/
lemma readFromSlice_eq (segments : MessageSegments) (rest : List Word) :
    readFromSlice (tableOf segments ++ (segments.words.flatten ++ rest))
      = some (.ok (SegmentSet.ofSegments segments, rest)) :=
  readFromSlice_of_tryRead (tryRead_tableOf segments _)

lemma readSegments_eq {segments : MessageSegments} {options : StreamOptions} {r : Read}
    {trailing : List Byte} (hwords : segments.totalWords ≤ options.readLimit)
    (hintr : r.Interruptible)
    (hbytes : r.bytes = Word.sliceToBytes segments.words.flatten ++ trailing) :
    ∃ r', readSegments r (refOf segments) options
        = some (.ok (SegmentSet.ofSegments segments), r') ∧ r'.bytes = trailing := by
  obtain ⟨r', hread, -, hrest⟩ := Read.readExact_eq hintr hbytes
  rw [Word.length_sliceToBytes, ← segments.totalWords_eq] at hread
  have hcomplete : (SegmentSetTable.ofLens segments.lens).lastStart
      ≤ segments.words.flatten.length := by
    rw [← segments.totalWords_eq]
    exact SegmentSetTable.lastStart_ofLens_le segments.lens
  have hset : SegmentSet.new (SegmentSetTable.ofLens segments.lens) segments.words.flatten
      = some (SegmentSet.ofSegments segments) := if_pos hcomplete
  refine ⟨r', ?_, hrest⟩
  rw [readSegments, SegmentSetTable.fromStream_refOf hwords]
  simp only [hread, Word.ofByteSlice_sliceToBytes, hset, Option.map_some]

/-- The buffer for the table of more than one segment has the size of the table. -/
lemma tableBuffer_eq {count required : ℕ} (h : required + 1 = tableSizeFromCount count) :
    tableBuffer count required = some (Word.null :: List.replicate required Word.null) := by
  have hmax : maxTableSizeFromLen 32 = 63 := by decide
  rw [tableBuffer, hmax]
  split
  · rfl
  · next hcount =>
    have hfits : required + 1 ≤ 32 := by
      rw [tableSizeFromCount] at h
      omega
    rw [if_pos hfits, List.take_replicate, Nat.min_eq_left hfits]
    rfl

/-- The limit is only looked at when the first word is not the whole table. -/
lemma readTable_eq {segments : MessageSegments} {options : StreamOptions} {r : Read} {first : Word}
    {rest : List Word} {content : List Byte} (htable : tableOf segments = first :: rest)
    (hcount : segments.len ≠ 1 → segments.len < options.segmentLimit) (hintr : r.Interruptible)
    (hbytes : r.bytes = Word.sliceToBytes rest ++ content) :
    ∃ r', readTable r first options = some (.ok (refOf segments), r') ∧ r'.Interruptible ∧
      r'.bytes = content := by
  have hsize : rest.length + 1 = tableSizeFromCount segments.len := by
    rw [← List.length_cons, ← htable, length_tableOf, tableSizeOf]
  rw [readTable, tryRead_first htable]
  by_cases hone : segments.len = 1
  · -- the first word is the whole table
    have hrest : rest = [] := by
      rw [hone] at hsize
      exact List.length_eq_zero_iff.1 (Nat.succ.inj hsize)
    rw [hrest] at hbytes
    rw [if_pos hone]
    exact ⟨r, rfl, hintr, hbytes⟩
  · -- the buffer has the size of the table
    obtain ⟨r', hread, hintr', hbytes'⟩ := Read.readExact_eq hintr hbytes
    have hall : StreamTableRef.tryRead (first :: rest) = some (.ok (refOf segments, [])) := by
      rw [← htable, ← List.append_nil (tableOf segments), tryRead_tableOf]
    rw [Word.length_sliceToBytes] at hread
    refine ⟨r', ?_, hintr', hbytes'⟩
    rw [if_neg hone, Option.bind_some]
    show (if options.segmentLimit ≤ segments.len then _ else _) = _
    rw [if_neg (Nat.not_le.2 (hcount hone)), tableBuffer_eq hsize, Option.bind_some, readRest,
      List.length_replicate, hread]
    show (StreamTableRef.tryRead (first :: Word.ofByteSlice (Word.sliceToBytes rest))).bind _ = _
    rw [Word.ofByteSlice_sliceToBytes, hall]
    rfl

/-- The stream reader on a message with something behind it. -/
lemma readFromStream_eq {segments : MessageSegments} {options : StreamOptions} {r : Read}
    {trailing : List Byte} (hcount : segments.len ≠ 1 → segments.len < options.segmentLimit)
    (hwords : segments.totalWords ≤ options.readLimit) (hintr : r.Interruptible)
    (hbytes : r.bytes
      = Word.sliceToBytes (tableOf segments ++ segments.words.flatten) ++ trailing) :
    ∃ r', readFromStream r options = some (.ok (SegmentSet.ofSegments segments), r') ∧
      r'.bytes = trailing := by
  obtain ⟨first, rest, htable⟩ := exists_tableOf segments
  rw [htable, List.cons_append, Word.sliceToBytes_cons, Word.sliceToBytes_append,
    List.append_assoc, List.append_assoc] at hbytes
  obtain ⟨r₁, hread₁, hintr₁, hbytes₁⟩ := Read.readExact_eq hintr hbytes
  obtain ⟨r₂, hread₂, hintr₂, hbytes₂⟩ := readTable_eq htable hcount hintr₁ hbytes₁
  obtain ⟨r₃, hread₃, hbytes₃⟩ := readSegments_eq hwords hintr₂ hbytes₂
  refine ⟨r₃, ?_, hbytes₃⟩
  rw [Word.length_bytes] at hread₁
  rw [readFromStream, hread₁]
  simp only [Word.ofBytes_bytes, hread₂, Option.bind_some, hread₃]

/-- **Framing round trip.**  What `write_message` writes, with any bytes behind it, is read back
by `read_from_slice`, and by `read_from_stream` in whatever pieces the bytes come: the same
segments, and exactly the bytes behind them are left. -/
theorem framing_round_trip (segments : MessageSegments) (options : StreamOptions)
    (hcount : segments.len < options.segmentLimit)
    (hwords : segments.totalWords ≤ options.readLimit)
    (script : List (Except ErrorKind ℕ)) (haccepts : Write.Accepts script)
    (trailing : List Byte) :
    ∃ writer, writeMessage ⟨script, []⟩ segments = some (.ok (), writer) ∧
      (∀ slice, Word.sliceToBytes slice = writer.written ++ trailing →
        ∃ set rest, readFromSlice slice = some (.ok (set, rest)) ∧ set.Holds segments ∧
          Word.sliceToBytes rest = trailing) ∧
      ∀ r : Read, r.Interruptible → r.bytes = writer.written ++ trailing →
        ∃ set r', readFromStream r options = some (.ok set, r') ∧ set.Holds segments ∧
          r'.bytes = trailing := by
  obtain ⟨writer, hwrite, hwritten⟩ := writeMessage_eq segments haccepts []
  rw [List.nil_append] at hwritten
  refine ⟨writer, hwrite, ?_, ?_⟩
  · intro slice hslice
    rw [hwritten] at hslice
    obtain ⟨rest, rfl, hrest⟩ := Word.sliceToBytes_eq_append hslice
    rw [List.append_assoc, readFromSlice_eq]
    exact ⟨_, rest, rfl, holds_ofSegments segments, hrest⟩
  · intro r hintr hbytes
    rw [hwritten] at hbytes
    obtain ⟨r', hread, hrest⟩ := readFromStream_eq (fun _ => hcount) hwords hintr hbytes
    exact ⟨_, r', hread, holds_ofSegments segments, hrest⟩

/-- Two segments, the second one empty. -/
def twoSegments : MessageSegments where
  segments := [⟨[Word.null], by decide⟩, ⟨[], MessageSegment.nil_lt⟩]
  nonempty := by decide
  length_lt := by decide

theorem framing_round_trip_two_segments :
    ∃ writer, writeMessage ⟨[.error .interrupted, .ok 3], []⟩ twoSegments = some (.ok (), writer) ∧
      (∀ slice, Word.sliceToBytes slice = writer.written ++ [7] →
        ∃ set rest, readFromSlice slice = some (.ok (set, rest)) ∧ set.Holds twoSegments ∧
          Word.sliceToBytes rest = [7]) ∧
      ∀ r : Read, r.Interruptible → r.bytes = writer.written ++ [7] →
        ∃ set r', readFromStream r .default = some (.ok set, r') ∧ set.Holds twoSegments ∧
          r'.bytes = [7] := by
  have haccepts : Write.Accepts [.error .interrupted, .ok 3] := by
    intro call hcall
    simp only [List.mem_cons, List.not_mem_nil, or_false] at hcall
    rcases hcall with rfl | rfl
    · exact Or.inl rfl
    · exact Or.inr ⟨2, rfl⟩
  exact framing_round_trip twoSegments .default (by decide) (by decide) _ haccepts [7]

end Recapn.Io

/-
# Packed streams

`PackedStream` feeds an unpacker from a `BufRead`, one buffer at a time.  A `BufRead` is
modelled by what its calls of `fill_buf` will come to: buffers that are not empty, and errors.
After these it is at its end, where `fill_buf` returns an empty buffer.

As in the unpacker, a function is `none` where the source panics.
-/
import Recapn.Packing.Unpacking

namespace Recapn.Packing

/-! ## Buffered input -/

/-- `io::ErrorKind`, as far as the streams tell its values apart. -/
inductive ErrorKind where
  | interrupted
  | unexpectedEof
  | writeZero
  | other
deriving DecidableEq, Repr

/-- A buffer that is not empty. -/
structure Chunk where
  first : Byte
  rest : List Byte
deriving DecidableEq

/-- The bytes of a buffer. -/
def Chunk.bytes (chunk : Chunk) : List Byte := chunk.first :: chunk.rest

lemma Chunk.bytes_ne_nil (chunk : Chunk) : chunk.bytes ≠ [] := List.cons_ne_nil _ _

lemma Chunk.length_bytes_pos (chunk : Chunk) : 0 < chunk.bytes.length := Nat.succ_pos _

/-- A `BufRead`: what its calls of `fill_buf` come to, up to its end. -/
abbrev BufRead := List (Except ErrorKind Chunk)

namespace BufRead

/-- `BufRead::fill_buf`. -/
def fillBuf : BufRead → Except ErrorKind (List Byte) × BufRead
  | [] => (.ok [], [])
  | .error kind :: stream => (.error kind, stream)
  | .ok chunk :: stream => (.ok chunk.bytes, .ok chunk :: stream)

/-- `BufRead::consume`. -/
def consume : BufRead → ℕ → BufRead
  | .ok chunk :: stream, amt =>
    match chunk.bytes.drop amt with
    | [] => stream
    | first :: rest => .ok ⟨first, rest⟩ :: stream
  | stream, _ => stream

lemma consume_all (chunk : Chunk) (stream : BufRead) {amt : ℕ} (h : chunk.bytes.length ≤ amt) :
    consume (.ok chunk :: stream) amt = stream := by
  rw [consume, List.drop_of_length_le h]

lemma length_consume_le (stream : BufRead) (amt : ℕ) :
    (stream.consume amt).length ≤ stream.length := by
  unfold consume
  split
  · split
    · exact Nat.le_succ _
    · exact Nat.le_refl _
  · exact Nat.le_refl _

lemma fillBuf_ok {stream stream' : BufRead} {buf : List Byte}
    (h : stream.fillBuf = (.ok buf, stream')) (hne : buf ≠ []) :
    ∃ chunk rest, stream = .ok chunk :: rest ∧ buf = chunk.bytes ∧ stream' = stream := by
  rcases stream with _ | ⟨_ | chunk, stream⟩
  · cases h
    exact absurd rfl hne
  · cases h
  · cases h
    exact ⟨chunk, stream, rfl, rfl, rfl⟩

end BufRead

/-! ## The stream -/

/-- `PackedStream`. -/
structure PackedStream where
  unpacker : Unpacker
  stream : BufRead

/-- A stop for want of input has used up the buffer. -/
lemma length_consume_unpack {stream stream' : BufRead} {buf : List Byte} {unpacker unpacker' : Unpacker}
    {out out' : List Word} {result : UnpackResult} (hfill : stream.fillBuf = (.ok buf, stream'))
    (hne : buf ≠ []) (hunpack : unpacker.unpack buf out = some (result, out', unpacker'))
    (hreason : result.reason = .needInput) :
    (stream'.consume result.bytesRead).length < stream.length := by
  obtain ⟨chunk, rest, rfl, rfl, rfl⟩ := BufRead.fillBuf_ok hfill hne
  rw [(Unpacker.unpack_sound hunpack).2.2 hreason, BufRead.consume_all _ _ (Nat.le_refl _)]
  exact Nat.lt_succ_self _

namespace PackedStream

/-- `PackedStream::new`. -/
def new (stream : BufRead) : PackedStream := ⟨Unpacker.new, stream⟩

/-- The loop of `PackedStream::read`: what it returns, the output and the stream after it. -/
def readLoop (self : PackedStream) (out : List Word) :
    Option (Except ErrorKind ℕ × List Word × PackedStream) :=
  match _hfill : self.stream.fillBuf with
  | (.error kind, stream) => some (.error kind, out, { self with stream := stream })
  | (.ok buf, stream) =>
    if _hbuf : buf = [] then
      match self.unpacker.finish with
      | .ok () => some (.ok 0, out, self)
      | .error _ => some (.error .unexpectedEof, out, self)
    else
      match _hunpack : self.unpacker.unpack buf out with
      | none => none
      | some (result, out, unpacker) =>
        if _hagain : result.reason = .needInput ∧ result.wordsWritten = 0 then
          readLoop ⟨unpacker, stream.consume result.bytesRead⟩ out
        else
          some (.ok result.wordsWritten, out, ⟨unpacker, stream.consume result.bytesRead⟩)
termination_by self.stream.length
decreasing_by exact length_consume_unpack _hfill _hbuf _hunpack _hagain.1

/-- `PackedStream::read`. -/
def read (self : PackedStream) (out : List Word) :
    Option (Except ErrorKind ℕ × List Word × PackedStream) :=
  if out = [] then some (.ok 0, out, self) else self.readLoop out

lemma readLoop_nil (unpacker : Unpacker) (out : List Word) :
    readLoop ⟨unpacker, []⟩ out
      = match unpacker.finish with
        | .ok () => some (.ok 0, out, ⟨unpacker, []⟩)
        | .error _ => some (.error .unexpectedEof, out, ⟨unpacker, []⟩) := by
  rw [readLoop]
  rfl

lemma readLoop_error (unpacker : Unpacker) (kind : ErrorKind) (stream : BufRead) (out : List Word) :
    readLoop ⟨unpacker, .error kind :: stream⟩ out
      = some (.error kind, out, ⟨unpacker, stream⟩) := by
  rw [readLoop]
  rfl

lemma readLoop_chunk (unpacker : Unpacker) (chunk : Chunk) (stream : BufRead) (out : List Word) :
    readLoop ⟨unpacker, .ok chunk :: stream⟩ out
      = (unpacker.unpack chunk.bytes out).bind fun (result, out, unpacker) =>
          if result.reason = .needInput ∧ result.wordsWritten = 0 then
            readLoop ⟨unpacker, stream⟩ out
          else
            some (.ok result.wordsWritten, out,
              ⟨unpacker, BufRead.consume (.ok chunk :: stream) result.bytesRead⟩) := by
  rw [readLoop]
  split
  · rename_i hfill
    cases hfill
  · rename_i hfill
    cases hfill
    rw [dif_neg chunk.bytes_ne_nil]
    split
    · rename_i hunpack
      rw [hunpack]
      rfl
    · rename_i result out' unpacker' hunpack
      rw [hunpack, Option.bind_some]
      simp only
      by_cases hagain : result.reason = .needInput ∧ result.wordsWritten = 0
      · have hread := (Unpacker.unpack_sound hunpack).2.2 hagain.1
        rw [dif_pos hagain, if_pos hagain, BufRead.consume_all _ _ (Nat.le_of_eq hread.symm)]
      · rw [dif_neg hagain, if_neg hagain]

/-- What a read leaves: the output keeps its length, and an interruption has been taken from the
input. -/
lemma readLoop_sound {self self' : PackedStream} {out out' : List Word} {r : Except ErrorKind ℕ}
    (h : self.readLoop out = some (r, out', self')) :
    out'.length = out.length ∧ self'.stream.length ≤ self.stream.length ∧
      (∀ n, r = .ok n → n ≤ out.length) ∧
      (r = .error .interrupted → self'.stream.length < self.stream.length) := by
  obtain ⟨unpacker, stream⟩ := self
  induction stream generalizing unpacker out with
  | nil =>
    rw [readLoop_nil] at h
    split at h <;> cases h <;> simp
  | cons item stream ih =>
    cases item with
    | error kind =>
      rw [readLoop_error] at h
      cases h
      simp
    | ok chunk =>
      rw [readLoop_chunk] at h
      obtain ⟨⟨result, out₁, unpacker₁⟩, hunpack, h⟩ := Option.bind_eq_some_iff.1 h
      obtain ⟨hlen, hle, -⟩ := Unpacker.unpack_sound hunpack
      simp only at h
      split at h
      · obtain ⟨h1, h2, h3, h4⟩ := ih unpacker₁ h
        rw [hlen] at h1 h3
        exact ⟨h1, Nat.le_succ_of_le h2, h3, fun hr => Nat.lt_succ_of_lt (h4 hr)⟩
      · cases h
        exact ⟨hlen, BufRead.length_consume_le (.ok chunk :: stream) _, fun n hn => by cases hn; exact hle,
          fun hr => by cases hr⟩

lemma read_sound {self self' : PackedStream} {out out' : List Word} {r : Except ErrorKind ℕ}
    (h : self.read out = some (r, out', self')) :
    out'.length = out.length ∧ self'.stream.length ≤ self.stream.length ∧
      (∀ n, r = .ok n → n ≤ out.length) ∧
      (r = .error .interrupted → self'.stream.length < self.stream.length) := by
  unfold read at h
  split at h
  · cases h
    simp
  · exact readLoop_sound h

/-- `PackedStream::read_exact`: what it returns, the output and the stream after it. -/
def readExact (self : PackedStream) (out : List Word) :
    Option (Except ErrorKind Unit × List Word × PackedStream) :=
  if _hout : out = [] then some (.ok (), [], self)
  else
    match _hread : self.read out with
    | none => none
    | some (.ok n, out', self') =>
      if _hn : n = 0 then some (.error .unexpectedEof, out', self')
      else if n ≤ out'.length then
        (readExact self' (out'.drop n)).map fun (r, rest, self'') => (r, out'.take n ++ rest, self'')
      else none
    | some (.error kind, out', self') =>
      if _hkind : kind = .interrupted then readExact self' out'
      else some (.error kind, out', self')
termination_by out.length + self.stream.length
decreasing_by
  · obtain ⟨hlen, hstream, -, -⟩ := read_sound _hread
    rw [List.length_drop]
    omega
  · obtain ⟨hlen, -, -, hstream⟩ := read_sound _hread
    have := hstream (by rw [_hkind])
    omega

/-- `PackedStream::finish`. -/
def finish (self : PackedStream) : Option (Except ErrorKind Unit × PackedStream) :=
  match _hfill : self.stream.fillBuf with
  | (.error kind, stream) => some (.error kind, { self with stream := stream })
  | (.ok buf, stream) =>
    if _hbuf : buf = [] then
      match self.unpacker.finish with
      | .ok () => some (.ok (), self)
      | .error _ => some (.error .unexpectedEof, self)
    else
      match _hunpack : self.unpacker.unpack buf [] with
      | none => none
      | some (result, _, unpacker) =>
        match _hreason : result.reason with
        | .needInput => finish ⟨unpacker, stream.consume result.bytesRead⟩
        | .needOutput =>
          match unpacker.finish with
          | .ok () => some (.ok (), ⟨unpacker, stream.consume result.bytesRead⟩)
          | .error _ => some (.error .writeZero, ⟨unpacker, stream.consume result.bytesRead⟩)
termination_by self.stream.length
decreasing_by exact length_consume_unpack _hfill _hbuf _hunpack _hreason

lemma finish_nil (unpacker : Unpacker) :
    finish ⟨unpacker, []⟩
      = match unpacker.finish with
        | .ok () => some (.ok (), ⟨unpacker, []⟩)
        | .error _ => some (.error .unexpectedEof, ⟨unpacker, []⟩) := by
  rw [finish]
  rfl

lemma finish_error (unpacker : Unpacker) (kind : ErrorKind) (stream : BufRead) :
    finish ⟨unpacker, .error kind :: stream⟩ = some (.error kind, ⟨unpacker, stream⟩) := by
  rw [finish]
  rfl

lemma finish_chunk (unpacker : Unpacker) (chunk : Chunk) (stream : BufRead) :
    finish ⟨unpacker, .ok chunk :: stream⟩
      = (unpacker.unpack chunk.bytes []).bind fun (result, _, unpacker) =>
          match result.reason with
          | .needInput => finish ⟨unpacker, stream⟩
          | .needOutput =>
            let self := ⟨unpacker, BufRead.consume (.ok chunk :: stream) result.bytesRead⟩
            match unpacker.finish with
            | .ok () => some (.ok (), self)
            | .error _ => some (.error .writeZero, self) := by
  rw [finish]
  split
  · rename_i hfill
    cases hfill
  · rename_i hfill
    cases hfill
    rw [dif_neg chunk.bytes_ne_nil]
    split
    · rename_i hunpack
      rw [hunpack]
      rfl
    · rename_i result out' unpacker' hunpack
      rw [hunpack, Option.bind_some]
      simp only
      split
      · rename_i hreason
        have hread := (Unpacker.unpack_sound hunpack).2.2 hreason
        rw [hreason, BufRead.consume_all _ _ (Nat.le_of_eq hread.symm)]
      · rename_i hreason
        rw [hreason]

/-! ## Calls that panic -/

/-- A call on a stream, with the output it is given. -/
inductive Call where
  | read (out : List Word)
  | readExact (out : List Word)

/-- The stream after a call, whatever the call returned. -/
def call (self : PackedStream) : Call → Option PackedStream
  | .read out => (self.read out).map fun r => r.2.2
  | .readExact out => (self.readExact out).map fun r => r.2.2

/-- The stream after some calls. -/
def calls (self : PackedStream) : List Call → Option PackedStream
  | [] => some self
  | c :: cs => (self.call c).bind fun self => self.calls cs

/-- A call of the unpacker with output does not panic. -/
lemma unpack_wf {unpacker : Unpacker} (hwf : WfState unpacker.state) {buf : List Byte}
    {out : List Word} (hbuf : buf ≠ []) (hout : out ≠ []) :
    ∃ result out' unpacker', unpacker.unpack buf out = some (result, out', unpacker') ∧
      WfState unpacker'.state := by
  obtain ⟨halt, hhalt, -, hok⟩ := Unpacker.unpackInner_spec unpacker ⟨buf, [], out⟩ hwf hbuf
    (fun hover => hout hover.1)
  exact ⟨_, _, _, by rw [Unpacker.unpack, hhalt]; rfl, hok.wf⟩

lemma readLoop_wf {self : PackedStream} {out : List Word} (hwf : WfState self.unpacker.state)
    (hout : out ≠ []) :
    ∃ r out' self', self.readLoop out = some (r, out', self') ∧ WfState self'.unpacker.state := by
  obtain ⟨unpacker, stream⟩ := self
  induction stream generalizing unpacker out with
  | nil =>
    rw [readLoop_nil]
    split
    · exact ⟨_, _, _, rfl, hwf⟩
    · exact ⟨_, _, _, rfl, hwf⟩
  | cons item stream ih =>
    cases item with
    | error kind => exact ⟨_, _, _, readLoop_error _ _ _ _, hwf⟩
    | ok chunk =>
      obtain ⟨result, out', unpacker', hunpack, hwf'⟩ := unpack_wf hwf chunk.bytes_ne_nil hout
      rw [readLoop_chunk, hunpack, Option.bind_some]
      simp only
      split
      · have hlen := (Unpacker.unpack_sound hunpack).1
        exact ih (by rw [← List.length_pos_iff] at hout ⊢; omega) unpacker' hwf'
      · exact ⟨_, _, _, rfl, hwf'⟩

lemma read_wf {self : PackedStream} (out : List Word) (hwf : WfState self.unpacker.state) :
    ∃ r out' self', self.read out = some (r, out', self') ∧ WfState self'.unpacker.state := by
  unfold read
  split
  · exact ⟨_, _, _, rfl, hwf⟩
  · exact readLoop_wf hwf ‹_›

lemma readExact_wf {self : PackedStream} (out : List Word) (hwf : WfState self.unpacker.state) :
    ∃ r out' self', self.readExact out = some (r, out', self') ∧ WfState self'.unpacker.state := by
  induction hlen : out.length + self.stream.length using Nat.strongRecOn generalizing self out with
  | ind n ih =>
    rw [readExact]
    split
    · exact ⟨_, _, _, rfl, hwf⟩
    · obtain ⟨r, out', self', hread, hwf'⟩ := read_wf out hwf
      obtain ⟨hlen', hstream, hle, hint⟩ := read_sound hread
      split
      · rename_i hread'
        rw [hread] at hread'
        cases hread'
      · rename_i k out'' self'' hread'
        rw [hread] at hread'
        cases hread'
        split
        · exact ⟨_, _, _, rfl, hwf'⟩
        · have hk := hle k rfl
          rw [if_pos (by omega)]
          obtain ⟨r, rest, self'', hrest, hwf''⟩ :=
            ih _ (by rw [List.length_drop]; omega) (out'.drop k) hwf' rfl
          rw [hrest]
          exact ⟨_, _, _, rfl, hwf''⟩
      · rename_i kind out'' self'' hread'
        rw [hread] at hread'
        cases hread'
        split
        · rename_i hkind
          have := hint (by rw [hkind])
          exact ih _ (by omega) out' hwf' rfl
        · exact ⟨_, _, _, rfl, hwf'⟩

/-- No call but the last one panics. -/
lemma calls_wf {self : PackedStream} (cs : List Call) (hwf : WfState self.unpacker.state) :
    ∃ self', self.calls cs = some self' ∧ WfState self'.unpacker.state := by
  induction cs generalizing self with
  | nil => exact ⟨self, rfl, hwf⟩
  | cons c cs ih =>
    cases c with
    | read out =>
      obtain ⟨r, out', self', hread, hwf'⟩ := read_wf out hwf
      obtain ⟨self'', hcalls, hwf''⟩ := ih hwf'
      exact ⟨self'', by rw [calls, call, hread]; exact hcalls, hwf''⟩
    | readExact out =>
      obtain ⟨r, out', self', hread, hwf'⟩ := readExact_wf out hwf
      obtain ⟨self'', hcalls, hwf''⟩ := ih hwf'
      exact ⟨self'', by rw [calls, call, hread]; exact hcalls, hwf''⟩

/-! ## Finishing

`finish` gives the unpacker what is left of the input and no output.  It can only get away with
that when the input that is left does not finish a word. -/

/-- The number of bytes in some buffers. -/
def total (chunks : List Chunk) : ℕ := (chunks.map fun chunk => chunk.bytes.length).sum

@[simp] lemma total_nil : total [] = 0 := rfl

@[simp] lemma total_cons (chunk : Chunk) (chunks : List Chunk) :
    total (chunk :: chunks) = chunk.bytes.length + total chunks := rfl

/-- The buffers before the first error. -/
def readable : BufRead → List Chunk
  | .ok chunk :: stream => chunk :: readable stream
  | _ => []

/-- The buffers after one byte has been consumed. -/
def dropByte : List Chunk → List Chunk
  | ⟨_, first :: rest⟩ :: chunks => ⟨first, rest⟩ :: chunks
  | _ :: chunks => chunks
  | [] => []

/-- The first eight bytes are all there, but not all in the first buffer. -/
def SplitsWord : List Chunk → Prop
  | [] => False
  | chunk :: chunks => chunk.bytes.length < 8 ∧ 8 ≤ total (chunk :: chunks)

/-- The states in which the input that is left finishes a word for which there is no output. -/
def FinishOverruns : Option IncompleteState → List Chunk → Prop
  | some (.partialWord word), chunks => word.neededBytes ≤ total chunks
  | some (.partialUncompressed word), chunks => word.neededBytes ≤ total chunks
  | some (.writingUncompressed _ (some word)), chunks => word.neededBytes ≤ total chunks
  | some (.writingUncompressed _ none), chunks => SplitsWord chunks
  | some .needUncompressedCount, chunks =>
    (∃ chunk ∈ chunks.head?, chunk.first ≠ 0) ∧ SplitsWord (dropByte chunks)
  | _, _ => False

/-- A call of the unpacker without output, on a buffer, comes to the stop `halt`: the buffers
after it decide whether a later call overruns. -/
def Drains (state : Option IncompleteState) (chunk : Chunk) (halt : Halt) : Prop :=
  match halt.reason with
  | .needInput =>
    ∀ chunks, FinishOverruns state (chunk :: chunks) ↔ FinishOverruns halt.state chunks
  | .needOutput => ∀ chunks, ¬ FinishOverruns state (chunk :: chunks)

/-- Between two tokens, the loop only looks whether there is input. -/
lemma unpackLoop_no_output (src : List Byte) (done : List Word) :
    unpackLoop ⟨src, done, []⟩
      = some ⟨if src = [] then .needInput else .needOutput, none, ⟨src, done, []⟩⟩ := by
  rw [unpackLoop]
  split <;> rfl

lemma PartialWord.neededBytes_eq (word : PartialWord) :
    word.neededBytes = 8 - word.acc.length := by
  rw [PartialWord.length_acc]
  rfl

/-- A run of uncompressed words without output. -/
lemma writeUncompressed_drains (state : Option IncompleteState) (chunk : Chunk) (src : List Byte)
    {count : ℕ} (hcount : 0 < count)
    (hlong : 8 ≤ src.length → ∀ chunks, ¬ FinishOverruns state (chunk :: chunks))
    (hshort : 0 < src.length → src.length < 8 → ∀ chunks,
      FinishOverruns state (chunk :: chunks) ↔ 8 ≤ src.length + total chunks)
    (hnone : src.length = 0 → ∀ chunks,
      FinishOverruns state (chunk :: chunks) ↔ SplitsWord chunks) :
    ∃ halt, writeUncompressed ⟨src, [], []⟩ count = some (.stop halt) ∧
      Drains state chunk halt := by
  by_cases hlen : 8 ≤ src.length
  · exact ⟨_, writeUncompressed_output _ _ (by simp only [List.length_nil]; omega) hcount, hlong hlen⟩
  · by_cases hzero : src.length = 0
    · exact ⟨_, writeUncompressed_input _ _ (by simp only; omega) (by simp only; omega)
        (by simp only; omega), hnone hzero⟩
    · obtain ⟨word, hacc, hword⟩ := writeUncompressed_partial ⟨src, [], []⟩ count
        (by simp only; omega) (by simp only; omega) (by simp only; omega)
      refine ⟨_, hword, fun chunks => ?_⟩
      have hneeded : word.neededBytes = 8 - src.length := by
        rw [PartialWord.neededBytes_eq, hacc, List.length_drop]
        simp only
        omega
      rw [hshort (by omega) (by omega), FinishOverruns, hneeded]
      omega

/-- Finishing the bytes of a partial word, with no output. -/
lemma resume_drains {state : IncompleteState} (hwf : state.Wf) {chunk : Chunk}
    (hover : ¬ state.Completes chunk.bytes.length) :
    ∃ halt, (Unpacker.mk (some state)).unpackInner ⟨chunk.bytes, [], []⟩ = some halt ∧
      Drains (some state) chunk halt := by
  have hpos := chunk.length_bytes_pos
  have hstop : ∀ {halt : Halt}, resume (some state) ⟨chunk.bytes, [], []⟩ = some (.stop halt) →
      (Unpacker.mk (some state)).unpackInner ⟨chunk.bytes, [], []⟩ = some halt := by
    intro halt hflow
    rw [Unpacker.unpackInner, if_neg chunk.bytes_ne_nil, hflow]
    rfl
  have hgo : ∀ {io : Io}, resume (some state) ⟨chunk.bytes, [], []⟩ = some (.go io) →
      (Unpacker.mk (some state)).unpackInner ⟨chunk.bytes, [], []⟩ = unpackLoop io := by
    intro io hflow
    rw [Unpacker.unpackInner, if_neg chunk.bytes_ne_nil, hflow]
    rfl
  cases state with
  | partialWord word =>
    obtain ⟨word', hfinish, -, hneeded, -⟩ :=
      PartialTaggedWord.Wf.finish_short hwf ⟨chunk.bytes, [], []⟩ (Nat.not_le.1 hover)
    refine ⟨⟨.needInput, some (.partialWord word'), ⟨[], [], []⟩⟩,
      hstop (by rw [resume, hfinish]; rfl), fun chunks => ?_⟩
    simp only [FinishOverruns, hneeded, total_cons]
    omega
  | partialUncompressed word =>
    obtain ⟨word', hfinish, hacc⟩ :=
      word.finish_short ⟨chunk.bytes, [], []⟩ (Nat.not_le.1 hover)
    refine ⟨⟨.needInput, some (.partialUncompressed word'), ⟨[], [], []⟩⟩,
      hstop (by rw [resume, hfinish]; rfl), fun chunks => ?_⟩
    simp only [FinishOverruns, PartialWord.neededBytes_eq, hacc, total_cons, List.length_append]
    have hlt := word.writtenBytes.isLt
    rw [PartialWord.length_acc]
    omega
  | needNullCount =>
    have hresume : resume (some .needNullCount) ⟨chunk.bytes, [], []⟩
        = some (writeNulls ⟨chunk.rest, [], []⟩ chunk.first.toNat) := rfl
    by_cases hcount : chunk.first.toNat = 0
    · refine ⟨_, (hgo (hresume.trans (by rw [hcount]; rfl))).trans (unpackLoop_no_output _ _), ?_⟩
      unfold Drains
      split <;> simp [FinishOverruns]
    · refine ⟨_, hstop (hresume.trans (congrArg some (if_neg (by simpa using hcount)))), ?_⟩
      simp [Drains, FinishOverruns]
  | needUncompressedCount =>
    have hresume : resume (some .needUncompressedCount) ⟨chunk.bytes, [], []⟩
        = writeUncompressed ⟨chunk.rest, [], []⟩ chunk.first.toNat := rfl
    by_cases hcount : chunk.first.toNat = 0
    · have hfirst : chunk.first = 0 := UInt8.toNat_inj.1 hcount
      refine ⟨_, (hgo (hresume.trans ?_)).trans (unpackLoop_no_output chunk.rest []), ?_⟩
      · rw [hcount, writeUncompressed_go _ _ (Nat.zero_le _) (Nat.zero_le _)]
        simp
      · unfold Drains
        split <;> simp [FinishOverruns, hfirst]
    · have hfirst : chunk.first ≠ 0 := fun h => hcount (by rw [h]; rfl)
      obtain ⟨b, rest⟩ := chunk
      obtain ⟨halt, hhalt, hdrains⟩ := writeUncompressed_drains (some .needUncompressedCount)
        ⟨b, rest⟩ rest (Nat.pos_of_ne_zero hcount)
        (fun hlen chunks => by
          cases rest with
          | nil => simp at hlen
          | cons c rest =>
            simp only [FinishOverruns, dropByte, SplitsWord, Chunk.bytes]
            omega)
        (fun hpos hlen chunks => by
          cases rest with
          | nil => simp at hpos
          | cons c rest =>
            simp only [FinishOverruns, dropByte, SplitsWord, Chunk.bytes, total_cons]
            simpa [hfirst] using fun _ => hlen)
        (fun hzero chunks => by
          obtain rfl := List.eq_nil_of_length_eq_zero hzero
          simpa [FinishOverruns, dropByte] using fun _ => hfirst)
      exact ⟨halt, hstop (hresume.trans hhalt), hdrains⟩
  | writingNulls count =>
    have hcount : ¬ ([] : List Word).length ≥ count := by
      have h : 0 < count := hwf
      simp only [List.length_nil]
      omega
    have hresume : resume (some (.writingNulls count)) ⟨chunk.bytes, [], []⟩ = some _ :=
      congrArg some (if_neg hcount)
    exact ⟨_, hstop hresume, by simp [Drains, FinishOverruns]⟩
  | writingUncompressed remaining word =>
    cases word with
    | none =>
      obtain ⟨halt, hhalt, hdrains⟩ := writeUncompressed_drains
        (some (.writingUncompressed remaining none)) chunk chunk.bytes hwf
        (fun hlen chunks => by simp only [FinishOverruns, SplitsWord]; omega)
        (fun _ hlen chunks => by simp only [FinishOverruns, SplitsWord, total_cons]; omega)
        (fun hzero => absurd hzero (by omega))
      exact ⟨halt, hstop hhalt, hdrains⟩
    | some word =>
      obtain ⟨word', hfinish, hacc⟩ :=
        word.finish_short ⟨chunk.bytes, [], []⟩ (Nat.not_le.1 hover)
      refine ⟨⟨.needInput, some (.writingUncompressed remaining (some word')), ⟨[], [], []⟩⟩,
        hstop (by rw [resume, hfinish]; rfl), fun chunks => ?_⟩
      simp only [FinishOverruns, PartialWord.neededBytes_eq, hacc, total_cons, List.length_append]
      have hlt := word.writtenBytes.isLt
      rw [PartialWord.length_acc]
      omega

/-- A state whose word is finished by the first buffer. -/
lemma finishOverruns_of_completes {state : IncompleteState} {chunk : Chunk}
    (h : state.Completes chunk.bytes.length) (chunks : List Chunk) :
    FinishOverruns (some state) (chunk :: chunks) := by
  unfold IncompleteState.Completes at h
  split at h
  · exact Nat.le_trans h (Nat.le_add_right _ _)
  · exact Nat.le_trans h (Nat.le_add_right _ _)
  · exact Nat.le_trans h (Nat.le_add_right _ _)
  · exact h.elim

/-- Without input, nothing is finished. -/
lemma not_finishOverruns_nil {state : Option IncompleteState} (hwf : WfState state) :
    ¬ FinishOverruns state [] := by
  intro h
  unfold FinishOverruns at h
  split at h
  · have hneeded := PartialTaggedWord.Wf.neededBytes_eq (wfState_some.1 hwf)
    rw [PartialTaggedWord.Wf.pat_eq (wfState_some.1 hwf), List.count_cons_self] at hneeded
    rw [total_nil] at h
    omega
  · rename_i word
    have hlt := word.writtenBytes.isLt
    simp only [total_nil, PartialWord.neededBytes, WrittenBytes.neededForFull] at h
    omega
  · rename_i word
    have hlt := word.writtenBytes.isLt
    simp only [total_nil, PartialWord.neededBytes, WrittenBytes.neededForFull] at h
    omega
  · exact h
  · exact h.2
  · exact h

/-- A call of the unpacker without output that does not panic. -/
lemma unpackInner_drains {state : Option IncompleteState} (hwf : WfState state) {chunk : Chunk}
    (hover : ¬ Overrun state ⟨chunk.bytes, [], []⟩) :
    ∃ halt, (Unpacker.mk state).unpackInner ⟨chunk.bytes, [], []⟩ = some halt ∧
      WfState halt.state ∧ Drains state chunk halt := by
  obtain ⟨halt, hhalt, -, hok⟩ := Unpacker.unpackInner_spec ⟨state⟩
    ⟨chunk.bytes, [], []⟩ hwf chunk.bytes_ne_nil hover
  refine ⟨halt, hhalt, hok.wf, ?_⟩
  cases state with
  | none =>
    have hinner : (Unpacker.mk none).unpackInner ⟨chunk.bytes, [], []⟩
        = unpackLoop ⟨chunk.bytes, [], []⟩ := by
      rw [Unpacker.unpackInner, if_neg chunk.bytes_ne_nil]
      rfl
    rw [hinner, unpackLoop_no_output] at hhalt
    cases hhalt
    unfold Drains
    split <;> simp [FinishOverruns]
  | some state =>
    obtain ⟨halt', hhalt', hdrains⟩ := resume_drains (wfState_some.1 hwf)
      (fun h => hover ⟨rfl, state, rfl, h⟩)
    rw [hhalt] at hhalt'
    cases hhalt'
    exact hdrains

/-- **`finish` panics** exactly when the input that is left finishes a word. -/
theorem finish_eq_none_iff {self : PackedStream} (hwf : WfState self.unpacker.state) :
    self.finish = none ↔ FinishOverruns self.unpacker.state (readable self.stream) := by
  obtain ⟨⟨state⟩, stream⟩ := self
  induction stream generalizing state with
  | nil =>
    rw [finish_nil, readable]
    · split <;> simpa using not_finishOverruns_nil hwf
    · simp
  | cons item stream ih =>
    cases item with
    | error kind =>
      rw [finish_error, readable]
      · simpa using not_finishOverruns_nil hwf
      · simp
    | ok chunk =>
      rw [finish_chunk, readable]
      by_cases hover : Overrun state ⟨chunk.bytes, [], []⟩
      · obtain ⟨-, s, hs, hcompletes⟩ := hover
        obtain rfl := Option.mem_def.1 hs
        have hnone := (Unpacker.unpackInner_eq_none_iff ⟨some s⟩
          ⟨chunk.bytes, [], []⟩ hwf).2 ⟨chunk.bytes_ne_nil, rfl, s, rfl, hcompletes⟩
        rw [Unpacker.unpack, hnone]
        simpa using finishOverruns_of_completes hcompletes _
      · obtain ⟨⟨reason, state', io⟩, hhalt, hwf', hdrains⟩ := unpackInner_drains hwf hover
        rw [Unpacker.unpack, hhalt]
        cases reason with
        | needInput => exact (ih state' hwf').trans (hdrains _).symm
        | needOutput =>
          simp only [Option.bind_eq_bind, Option.bind_some]
          split <;> simpa using hdrains _

/-- **Panics of a packed stream.** Whatever the input, its buffers and its errors, no sequence of
`read` and `read_exact` calls panics, and the `finish` after it panics exactly when the state of
the unpacker holds part of a word that the input that is left finishes. -/
theorem calls_finish_panics_iff (stream : BufRead) (cs : List Call) :
    ∃ self, (new stream).calls cs = some self ∧
      (self.finish ≠ none ↔ ¬ FinishOverruns self.unpacker.state (readable self.stream)) := by
  have hwf : WfState (new stream).unpacker.state := wfState_none
  obtain ⟨self, hcalls, hwf'⟩ := calls_wf cs hwf
  exact ⟨self, hcalls, not_congr (finish_eq_none_iff hwf')⟩

/-- A tag whose byte is in the next buffer: the first two words of output are one null word and
the start of the next, and `finish` has no output for the end of it. -/
theorem finish_panics :
    ¬ ∀ (stream : BufRead) (cs : List Call),
      ((new stream).calls cs).bind PackedStream.finish ≠ none := by
  intro h
  refine h [.ok ⟨0, [0, 1]⟩, .ok ⟨5, []⟩] [.read [Word.null, Word.null]] ?_
  decide +kernel

end PackedStream

end Recapn.Packing

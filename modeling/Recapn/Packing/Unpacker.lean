/-
# The unpacker

`Unpacker::unpack` reads packed bytes into a slice of words and may stop anywhere: in the
middle of a word, of a run of null words or of a run of uncompressed words, because the input
or because the output has run out.  Its state says where it stopped.

A function of this file is `none` where the source panics: where a slice is split past its
end, where a byte is taken from an empty slice, where the lengths of a copy differ.
-/
import Recapn.Packing.Format

namespace Recapn.Packing

/-! ## Slices -/

/-- `take_first` on the input. -/
def takeFirst {α : Type*} : List α → Option (α × List α)
  | [] => none
  | a :: src => some (a, src)

/-- `take_at` on the input. -/
def takeAt {α : Type*} (src : List α) (idx : ℕ) : Option (List α × List α) :=
  if idx ≤ src.length then some (src.take idx, src.drop idx) else none

/-- The input and the output of a call: the bytes not read yet, the words of the output that
are behind it, and the words of the output ahead. -/
structure Io where
  src : List Byte
  done : List Word
  dst : List Word

namespace Io

/-- `*take_first_mut(dst) = word`. -/
def put (io : Io) (word : Word) : Option Io :=
  match io.dst with
  | [] => none
  | _ :: dst => some { io with done := io.done ++ [word], dst := dst }

/-- `take_at_mut(dst, n)`, with the bytes under the `n` words copied from `bytes`. -/
def putBytes (io : Io) (n : ℕ) (bytes : List Byte) : Option Io :=
  if n ≤ io.dst.length ∧ bytes.length = 8 * n then
    some { io with done := io.done ++ Word.ofByteSlice bytes, dst := io.dst.drop n }
  else none

end Io

/-- `buf[start..stop].copy_from_slice(src)`. -/
def copyInto (buf : Word) (start stop : ℕ) (src : List Byte) : Option Word :=
  if start ≤ stop ∧ stop ≤ 8 ∧ src.length = stop - start then
    some (Word.ofBytes (buf.bytes.take start ++ src ++ buf.bytes.drop stop))
  else none

/-! ## States -/

/-- `StopReason`. -/
inductive StopReason where
  | needInput
  | needOutput
deriving DecidableEq, Repr

/-- `WrittenBytes`. -/
abbrev WrittenBytes := Fin 8

/-- `WrittenBytes::needed_for_full`. -/
def WrittenBytes.neededForFull (w : WrittenBytes) : ℕ := 8 - w.val

/-- `WrittenBytes::from_bytes`. -/
def WrittenBytes.fromBytes (bytes : ℕ) : Option WrittenBytes :=
  if h : bytes < 8 then some ⟨bytes, h⟩ else none

/-- `PartialWord`. -/
structure PartialWord where
  buf : Word
  writtenBytes : WrittenBytes
deriving DecidableEq

namespace PartialWord

/-- `PartialWord::needed_bytes`. -/
def neededBytes (self : PartialWord) : ℕ := self.writtenBytes.neededForFull

/-- `PartialWord::start`. -/
def start (src : List Byte) : Option PartialWord := do
  let writtenBytes ← WrittenBytes.fromBytes src.length
  let buf ← copyInto Word.null 0 src.length src
  some ⟨buf, writtenBytes⟩

/-- `PartialWord::finish`.  The first component is `none` when the word is finished. -/
def finish (self : PartialWord) (io : Io) : Option (Option PartialWord × Io) :=
  let needed := self.writtenBytes.neededForFull
  let bufStart := self.writtenBytes.val
  if needed ≤ io.src.length then do
    let (toCopy, src) ← takeAt io.src needed
    let buf ← copyInto self.buf bufStart 8 toCopy
    let io ← { io with src := src }.put buf
    some (none, io)
  else do
    let bufEnd := bufStart + io.src.length
    let buf ← copyInto self.buf bufStart bufEnd io.src
    let writtenBytes ← WrittenBytes.fromBytes bufEnd
    some (some ⟨buf, writtenBytes⟩, { io with src := [] })

end PartialWord

/-- `PartialTaggedWord`. -/
structure PartialTaggedWord where
  buf : Word
  tag : ℕ
  writtenBytes : WrittenBytes
deriving DecidableEq

/-- The loop of `PartialTaggedWord::start` and of `PartialTaggedWord::finish`: the tag, the
index, the buffer and the input that it ends with. -/
def fillTagged (tag dstIdx : ℕ) (buf : Word) (src : List Byte) :
    Option (ℕ × ℕ × Word × List Byte) :=
  if tag = 0 then some (tag, dstIdx, buf, src)
  else if tag % 2 = 1 then
    match src with
    | [] => some (tag, dstIdx, buf, [])
    | byte :: src => do
      let buf ← copyInto buf dstIdx (dstIdx + 1) [byte]
      fillTagged (tag / 2) (dstIdx + 1) buf src
  else fillTagged (tag / 2) (dstIdx + 1) buf src
termination_by tag

namespace PartialTaggedWord

/-- `PartialTaggedWord::needed_bytes`. -/
def neededBytes (self : PartialTaggedWord) : ℕ := countOnes self.tag

/-- `PartialTaggedWord::start`. -/
def start (tag : ℕ) (src : List Byte) : Option PartialTaggedWord := do
  let (tag, dstIdx, buf, _) ← fillTagged tag 0 Word.null src
  let writtenBytes ← WrittenBytes.fromBytes dstIdx
  some ⟨buf, tag, writtenBytes⟩

/-- `PartialTaggedWord::finish`.  The first component is `none` when the word is finished. -/
def finish (self : PartialTaggedWord) (io : Io) : Option (Option PartialTaggedWord × Io) := do
  let (tag, dstIdx, buf, src) ← fillTagged self.tag self.writtenBytes.val self.buf io.src
  let io := { io with src := src }
  if tag = 0 then do
    let io ← io.put buf
    some (none, io)
  else do
    let writtenBytes ← WrittenBytes.fromBytes dstIdx
    some (some ⟨buf, tag, writtenBytes⟩, io)

end PartialTaggedWord

/-- `IncompleteState`. -/
inductive IncompleteState where
  /-- The unpacker is reading a word. -/
  | partialWord (word : PartialTaggedWord)
  /-- The unpacker is reading the word after a tag `0xff`. -/
  | partialUncompressed (word : PartialWord)
  /-- The unpacker is expecting one byte for a null word count. -/
  | needNullCount
  /-- The unpacker is expecting one byte for an uncompressed word count. -/
  | needUncompressedCount
  /-- The unpacker is writing null words to the output. -/
  | writingNulls (count : ℕ)
  /-- The unpacker is writing uncompressed words to the output. -/
  | writingUncompressed (remaining : ℕ) (word : Option PartialWord)
deriving DecidableEq

/-! ## Unpacking -/

/-- A stop of the unpacker: the reason, the state it leaves and what is left of the slices. -/
structure Halt where
  reason : StopReason
  state : Option IncompleteState
  io : Io

/-- What a part of `unpack_inner` comes to: it goes on with what is left of the slices, or it
stops. -/
inductive Flow where
  | go (io : Io)
  | stop (halt : Halt)

/-- `Unpacker::write_nulls`.  Nothing is written: the output is taken to be null already. -/
def writeNulls (io : Io) (count : ℕ) : Flow :=
  if io.dst.length ≥ count then
    .go { io with done := io.done ++ io.dst.take count, dst := io.dst.drop count }
  else
    let remaining := count - io.dst.length
    .stop ⟨.needOutput, some (.writingNulls remaining),
      { io with done := io.done ++ io.dst, dst := [] }⟩

/-- `Unpacker::write_uncompressed`. -/
def writeUncompressed (io : Io) (count : ℕ) : Option Flow :=
  let fullWords := io.src.length / 8
  let partialBytes := io.src.length % 8
  let enoughInput : Bool := fullWords ≥ count
  let wordsToRead := if enoughInput then count else fullWords
  let enoughOutput : Bool := wordsToRead ≤ io.dst.length
  if !enoughOutput then do
    let remaining := count - io.dst.length
    let (inBytes, src) ← takeAt io.src (8 * io.dst.length)
    let io ← { io with src := src }.putBytes io.dst.length inBytes
    some (.stop ⟨.needOutput, some (.writingUncompressed remaining none), io⟩)
  else if !enoughInput then do
    let hasPartial : Bool := partialBytes ≠ 0
    let consumedWords := fullWords + hasPartial.toNat
    let remaining := count - consumedWords
    let (fullWordBytes, src) ← takeAt io.src (fullWords * 8)
    let io ← { io with src := src }.putBytes wordsToRead fullWordBytes
    if hasPartial then do
      let word ← PartialWord.start src
      some (.stop ⟨.needInput, some (.writingUncompressed remaining (some word)),
        { io with src := [] }⟩)
    else
      some (.stop ⟨.needInput, some (.writingUncompressed remaining none), io⟩)
  else do
    let (fullWordBytes, src) ← takeAt io.src (wordsToRead * 8)
    let io ← { io with src := src }.putBytes wordsToRead fullWordBytes
    some (.go io)

/-- The first part of `unpack_inner`: an attempt to finish the previous call. -/
def resume (state : Option IncompleteState) (io : Io) : Option Flow :=
  match state with
  | none => some (.go io)
  | some (.partialWord word) => do
    match ← word.finish io with
    | (some word, io) => some (.stop ⟨.needInput, some (.partialWord word), io⟩)
    | (none, io) => some (.go io)
  | some (.partialUncompressed word) => do
    match ← word.finish io with
    | (some word, io) => some (.stop ⟨.needInput, some (.partialUncompressed word), io⟩)
    | (none, io) =>
      match io.src with
      | [] => some (.stop ⟨.needInput, some .needUncompressedCount, io⟩)
      | count :: src => writeUncompressed { io with src := src } count.toNat
  | some .needNullCount => do
    let (count, src) ← takeFirst io.src
    some (writeNulls { io with src := src } count.toNat)
  | some .needUncompressedCount => do
    let (count, src) ← takeFirst io.src
    writeUncompressed { io with src := src } count.toNat
  | some (.writingNulls count) => some (writeNulls io count)
  | some (.writingUncompressed remaining none) => writeUncompressed io remaining
  | some (.writingUncompressed remaining (some word)) => do
    match ← word.finish io with
    | (some word, io) =>
      some (.stop ⟨.needInput, some (.writingUncompressed remaining (some word)), io⟩)
    | (none, io) => writeUncompressed io remaining

/-- The bytes of an output word after those that the tag names are taken from the input. -/
def spread : ℕ → List Byte → List Byte → Option (List Byte)
  | _, [], _ => some []
  | tag, wordByte :: wordBytes, input => do
    let (wordByte, input) ← if tag % 2 = 1 then takeFirst input else some (wordByte, input)
    if tag / 2 = 0 then some (wordByte :: wordBytes)
    else (spread (tag / 2) wordBytes input).map (wordByte :: ·)

/-- The loop body of `unpack_inner` for the tag `0x00`. -/
def unpackNulls (io : Io) : Option Flow := do
  let word ← io.dst.head?
  let io ← io.put word
  match io.src with
  | [] => some (.stop ⟨.needInput, some .needNullCount, io⟩)
  | count :: src =>
    let io := { io with src := src }
    if count.toNat ≠ 0 then some (writeNulls io count.toNat) else some (.go io)

/-- The loop body of `unpack_inner` for the tag `0xff`. -/
def unpackFull (io : Io) : Option Flow :=
  if io.src.length < 8 then do
    let word ← PartialWord.start io.src
    some (.stop ⟨.needInput, some (.partialUncompressed word), { io with src := [] }⟩)
  else do
    let (srcBytes, src) ← takeAt io.src 8
    let io ← { io with src := src }.putBytes 1 srcBytes
    match io.src with
    | [] => some (.stop ⟨.needInput, some .needUncompressedCount, io⟩)
    | count :: src =>
      let io := { io with src := src }
      if count.toNat ≠ 0 then writeUncompressed io count.toNat else some (.go io)

/-- The loop body of `unpack_inner` for every other tag. -/
def unpackTagged (tag : ℕ) (io : Io) : Option Flow :=
  let bytesNeeded := countOnes tag
  if io.src.length < bytesNeeded then do
    let word ← PartialTaggedWord.start tag io.src
    some (.stop ⟨.needInput, some (.partialWord word), { io with src := [] }⟩)
  else do
    let (inputToRead, src) ← takeAt io.src bytesNeeded
    let word ← io.dst.head?
    let wordBytes ← spread tag word.bytes inputToRead
    let io ← { io with src := src }.put (Word.ofBytes wordBytes)
    some (.go io)

/-- The loop body of `unpack_inner`, past its two checks. -/
def unpackToken (io : Io) : Option Flow := do
  let (tag, src) ← takeFirst io.src
  let io := { io with src := src }
  if tag.toNat = 0x00 then unpackNulls io
  else if tag.toNat = 0xff then unpackFull io
  else unpackTagged tag.toNat io

/-! ### How the parts end

What a finished and what a suspended call of each part leaves behind.  Every turn of the loop
that does not stop has read a tag. -/

lemma takeAt_eq {α : Type*} {src : List α} {idx : ℕ} (h : idx ≤ src.length) :
    takeAt src idx = some (src.take idx, src.drop idx) := if_pos h

lemma takeAt_eq_some {α : Type*} {src first second : List α} {idx : ℕ}
    (h : takeAt src idx = some (first, second)) :
    idx ≤ src.length ∧ first = src.take idx ∧ second = src.drop idx := by
  unfold takeAt at h
  split at h
  · cases h
    exact ⟨‹_›, rfl, rfl⟩
  · cases h

lemma Io.putBytes_eq {io : Io} {n : ℕ} {bytes : List Byte} (hn : n ≤ io.dst.length)
    (hbytes : bytes.length = 8 * n) :
    io.putBytes n bytes
      = some ⟨io.src, io.done ++ Word.ofByteSlice bytes, io.dst.drop n⟩ := if_pos ⟨hn, hbytes⟩

lemma Io.put_eq {io : Io} (h : io.dst ≠ []) (word : Word) :
    io.put word = some ⟨io.src, io.done ++ [word], io.dst.tail⟩ := by
  obtain ⟨src, done, dst⟩ := io
  cases dst with
  | nil => exact absurd rfl h
  | cons d dst => rfl

lemma Io.src_put {io io' : Io} {word : Word} (h : io.put word = some io') : io'.src = io.src := by
  unfold Io.put at h
  split at h
  · cases h
  · cases h
    rfl

lemma Io.src_putBytes {io io' : Io} {n : ℕ} {bytes : List Byte}
    (h : io.putBytes n bytes = some io') : io'.src = io.src := by
  unfold Io.putBytes at h
  split at h
  · cases h
    rfl
  · cases h

lemma Io.put_eq_none_iff {io : Io} {word : Word} : io.put word = none ↔ io.dst = [] := by
  obtain ⟨src, done, dst⟩ := io
  cases dst <;> simp [put]

namespace PartialWord

/-- The bytes of a partial word that are in place. -/
def acc (self : PartialWord) : List Byte := self.buf.bytes.take self.writtenBytes.val

@[simp] lemma length_acc (self : PartialWord) : self.acc.length = self.writtenBytes.val := by
  simp only [acc, List.length_take, Word.length_bytes]
  omega

end PartialWord

lemma copyInto_eq (buf : Word) {start stop : ℕ} {src : List Byte} (h1 : start ≤ stop)
    (h2 : stop ≤ 8) (h3 : src.length = stop - start) :
    copyInto buf start stop src
      = some (Word.ofBytes (buf.bytes.take start ++ src ++ buf.bytes.drop stop)) :=
  if_pos ⟨h1, h2, h3⟩

/-- The bytes up to the end of a copy. -/
lemma take_bytes_copyInto (buf : Word) {start stop : ℕ} {src : List Byte} (h1 : start ≤ stop)
    (h2 : stop ≤ 8) (h3 : src.length = stop - start) :
    (Word.ofBytes (buf.bytes.take start ++ src ++ buf.bytes.drop stop)).bytes.take stop
      = buf.bytes.take start ++ src := by
  have hlen : (buf.bytes.take start ++ src).length = stop := by
    simp only [List.length_append, List.length_take, Word.length_bytes]
    omega
  rw [Word.bytes_ofBytes (by rw [List.length_append, hlen, List.length_drop, Word.length_bytes]
                             omega)]
  exact List.take_left' hlen

lemma PartialWord.start_eq (src : List Byte) (h : src.length < 8) :
    ∃ word, PartialWord.start src = some word ∧ word.acc = src := by
  have hcopy := copyInto_eq Word.null (Nat.zero_le src.length) (by omega)
    (Nat.sub_zero src.length).symm
  refine ⟨⟨Word.ofBytes _, ⟨src.length, h⟩⟩, ?_,
    take_bytes_copyInto Word.null (Nat.zero_le _) (by omega) (Nat.sub_zero _).symm⟩
  rw [PartialWord.start, WrittenBytes.fromBytes, dif_pos h, hcopy]
  rfl

/-- A partial word is finished when the input has the bytes it needs and the output a word. -/
lemma PartialWord.finish_full (self : PartialWord) {io : Io}
    (hneeded : self.neededBytes ≤ io.src.length) (hdst : io.dst ≠ []) :
    self.finish io = some (none, ⟨io.src.drop self.neededBytes,
      io.done ++ [Word.ofBytes (self.acc ++ io.src.take self.neededBytes)], io.dst.tail⟩) := by
  have hlt := self.writtenBytes.isLt
  unfold neededBytes WrittenBytes.neededForFull at *
  rw [finish, WrittenBytes.neededForFull, if_pos hneeded, takeAt_eq hneeded]
  simp only [Option.bind_eq_bind, Option.bind_some]
  rw [copyInto_eq _ (by omega) (by omega) (by rw [List.length_take]; omega), Option.bind_some,
    Io.put_eq (by exact hdst), Option.bind_some]
  have hdrop : self.buf.bytes.drop 8 = [] := rfl
  simp [acc, hdrop]

/-- It panics when the output has none. -/
lemma PartialWord.finish_panic (self : PartialWord) {io : Io}
    (hneeded : self.neededBytes ≤ io.src.length) (hdst : io.dst = []) :
    self.finish io = none := by
  have hlt := self.writtenBytes.isLt
  unfold neededBytes WrittenBytes.neededForFull at *
  rw [finish, WrittenBytes.neededForFull, if_pos hneeded, takeAt_eq hneeded]
  simp only [Option.bind_eq_bind, Option.bind_some]
  rw [copyInto_eq _ (by omega) (by omega) (by rw [List.length_take]; omega), Option.bind_some,
    Io.put_eq_none_iff.2 (by exact hdst)]
  rfl

/-- Otherwise it takes all the bytes there are. -/
lemma PartialWord.finish_short (self : PartialWord) (io : Io)
    (hneeded : io.src.length < self.neededBytes) :
    ∃ word, self.finish io = some (some word, { io with src := [] }) ∧
      word.acc = self.acc ++ io.src := by
  have hlt := self.writtenBytes.isLt
  unfold neededBytes WrittenBytes.neededForFull at hneeded
  have h8 : self.writtenBytes.val + io.src.length < 8 := by omega
  have hlen : io.src.length = self.writtenBytes.val + io.src.length - self.writtenBytes.val := by
    omega
  have hcopy := copyInto_eq self.buf (Nat.le_add_right self.writtenBytes.val io.src.length)
    (by omega) hlen
  refine ⟨⟨Word.ofBytes _, ⟨_, h8⟩⟩, ?_,
    take_bytes_copyInto self.buf (Nat.le_add_right _ _) (by omega) hlen⟩
  rw [finish, WrittenBytes.neededForFull, if_neg (by omega)]
  simp only [hcopy, WrittenBytes.fromBytes, dif_pos h8, Option.bind_eq_bind, Option.bind_some]

/-- A run of uncompressed words that the input and the output have room for. -/
lemma writeUncompressed_go (io : Io) (count : ℕ) (hsrc : count ≤ io.src.length / 8)
    (hdst : count ≤ io.dst.length) :
    writeUncompressed io count = some (.go ⟨io.src.drop (8 * count),
      io.done ++ Word.ofByteSlice (io.src.take (8 * count)), io.dst.drop count⟩) := by
  have hin : decide (io.src.length / 8 ≥ count) = true := decide_eq_true hsrc
  have hout : decide (count ≤ io.dst.length) = true := decide_eq_true hdst
  simp only [writeUncompressed, hin, if_true, hout, Bool.not_true, Bool.false_eq_true, if_false,
    Option.bind_eq_bind]
  rw [takeAt_eq (by omega), Option.bind_some, Io.putBytes_eq (by exact hdst)
    (by rw [List.length_take]; omega), Option.bind_some, Nat.mul_comm count]

/-- A run of uncompressed words that the output ends. -/
lemma writeUncompressed_output (io : Io) (count : ℕ) (hsrc : io.dst.length < io.src.length / 8)
    (hcount : io.dst.length < count) :
    writeUncompressed io count = some (.stop ⟨.needOutput,
      some (.writingUncompressed (count - io.dst.length) none),
      ⟨io.src.drop (8 * io.dst.length),
        io.done ++ Word.ofByteSlice (io.src.take (8 * io.dst.length)), []⟩⟩) := by
  have hout : decide ((if decide (io.src.length / 8 ≥ count) = true then count
      else io.src.length / 8) ≤ io.dst.length) = false := by
    apply decide_eq_false
    by_cases hin : io.src.length / 8 ≥ count
    · rw [if_pos (decide_eq_true hin)]
      omega
    · rw [if_neg (by simpa using hin)]
      omega
  simp only [writeUncompressed, hout, Bool.not_false, if_true, Option.bind_eq_bind]
  rw [takeAt_eq (by omega), Option.bind_some, Io.putBytes_eq (Nat.le_refl _)
    (by simp only [List.length_take]; omega), Option.bind_some]
  simp

/-- A run of uncompressed words that the input ends between two words. -/
lemma writeUncompressed_input (io : Io) (count : ℕ) (hsrc : io.src.length / 8 < count)
    (hdst : io.src.length / 8 ≤ io.dst.length) (hmod : io.src.length % 8 = 0) :
    writeUncompressed io count = some (.stop ⟨.needInput,
      some (.writingUncompressed (count - io.src.length / 8) none),
      ⟨[], io.done ++ Word.ofByteSlice io.src, io.dst.drop (io.src.length / 8)⟩⟩) := by
  have hin : decide (io.src.length / 8 ≥ count) = false := decide_eq_false (by omega)
  have hout : decide (io.src.length / 8 ≤ io.dst.length) = true := decide_eq_true hdst
  have hall : io.src.length / 8 * 8 = io.src.length := by omega
  simp only [writeUncompressed, hin, Bool.false_eq_true, if_false, hout, Bool.not_true,
    Bool.not_false, if_true, Option.bind_eq_bind, hmod, ne_eq, not_true_eq_false, decide_false,
    Bool.toNat_false, Nat.add_zero]
  rw [takeAt_eq (by omega), Option.bind_some, hall, Io.putBytes_eq (by exact hdst)
    (by rw [List.length_take]; omega), Option.bind_some]
  simp

/-- A run of uncompressed words that the input ends inside a word. -/
lemma writeUncompressed_partial (io : Io) (count : ℕ) (hsrc : io.src.length / 8 < count)
    (hdst : io.src.length / 8 ≤ io.dst.length) (hmod : io.src.length % 8 ≠ 0) :
    ∃ word, word.acc = io.src.drop (8 * (io.src.length / 8)) ∧
      writeUncompressed io count = some (.stop ⟨.needInput,
        some (.writingUncompressed (count - io.src.length / 8 - 1) (some word)),
        ⟨[], io.done ++ Word.ofByteSlice (io.src.take (8 * (io.src.length / 8))),
          io.dst.drop (io.src.length / 8)⟩⟩) := by
  have hin : decide (io.src.length / 8 ≥ count) = false := decide_eq_false (by omega)
  have hout : decide (io.src.length / 8 ≤ io.dst.length) = true := decide_eq_true hdst
  have hpartial : decide (io.src.length % 8 ≠ 0) = true := decide_eq_true hmod
  obtain ⟨word, hword, hacc⟩ := PartialWord.start_eq
    (io.src.drop (8 * (io.src.length / 8))) (by rw [List.length_drop]; omega)
  refine ⟨word, hacc, ?_⟩
  simp only [writeUncompressed, hin, Bool.false_eq_true, if_false, hout, Bool.not_true,
    Bool.not_false, if_true, Option.bind_eq_bind, hpartial, Bool.toNat_true]
  rw [takeAt_eq (by omega), Option.bind_some, Io.putBytes_eq (by exact hdst)
    (by rw [List.length_take]; omega), Option.bind_some, Nat.mul_comm _ 8, hword,
    Option.bind_some, Nat.sub_sub]

/-- The ways in which a run of uncompressed words ends. -/
lemma writeUncompressed_cases (io : Io) (count : ℕ) :
    (count ≤ io.src.length / 8 ∧ count ≤ io.dst.length) ∨
    (io.dst.length < io.src.length / 8 ∧ io.dst.length < count) ∨
    (io.src.length / 8 < count ∧ io.src.length / 8 ≤ io.dst.length ∧ io.src.length % 8 = 0) ∨
    (io.src.length / 8 < count ∧ io.src.length / 8 ≤ io.dst.length ∧ io.src.length % 8 ≠ 0) := by
  omega

/-! ### What holds of every part

Whatever state it starts in, a part of `unpack_inner` keeps the extent of the output slice, and
when it stops for want of input it has left none.  So a caller that comes back with more input
has made progress. -/

/-- The length of the whole output slice. -/
def Io.size (io : Io) : ℕ := io.done.length + io.dst.length

/-- What a part of `unpack_inner` that starts with `io` may come to. -/
def Flow.Sound (io : Io) : Flow → Prop
  | .go io' => io'.src.length ≤ io.src.length ∧ io'.size = io.size
  | .stop halt => halt.io.size = io.size ∧ (halt.reason = .needInput → halt.io.src = [])

lemma Flow.Sound.mono {io io' : Io} {flow : Flow} (h : flow.Sound io')
    (hsrc : io'.src.length ≤ io.src.length) (hsize : io'.size = io.size) : flow.Sound io := by
  cases flow with
  | go io'' => exact ⟨Nat.le_trans h.1 hsrc, h.2.trans hsize⟩
  | stop halt => exact ⟨h.1.trans hsize, h.2⟩

lemma Io.size_put {io io' : Io} {word : Word} (h : io.put word = some io') : io'.size = io.size := by
  obtain ⟨src, done, dst⟩ := io
  cases dst with
  | nil => cases h
  | cons d dst =>
    cases h
    simp only [size, List.length_append, List.length_cons, List.length_nil]
    omega

lemma Io.size_putBytes {io io' : Io} {n : ℕ} {bytes : List Byte}
    (h : io.putBytes n bytes = some io') : io'.size = io.size := by
  unfold Io.putBytes at h
  split at h
  · rename_i hle
    cases h
    simp only [size, List.length_append, Word.length_ofByteSlice hle.2, List.length_drop]
    omega
  · cases h

lemma PartialWord.finish_sound {self : PartialWord} {word : Option PartialWord} {io io' : Io}
    (h : self.finish io = some (word, io')) :
    io'.src.length ≤ io.src.length ∧ io'.size = io.size ∧ (word.isSome → io'.src = []) := by
  unfold finish at h
  simp only [Option.bind_eq_bind] at h
  split at h
  · obtain ⟨⟨bytes, src⟩, hsrc, h⟩ := Option.bind_eq_some_iff.1 h
    obtain ⟨buf, -, h⟩ := Option.bind_eq_some_iff.1 h
    obtain ⟨io₁, hio, h⟩ := Option.bind_eq_some_iff.1 h
    cases h
    refine ⟨?_, (Io.size_put hio).trans rfl, by simp⟩
    rw [Io.src_put hio, (takeAt_eq_some hsrc).2.2, List.length_drop]
    omega
  · obtain ⟨buf, -, h⟩ := Option.bind_eq_some_iff.1 h
    obtain ⟨writtenBytes, -, h⟩ := Option.bind_eq_some_iff.1 h
    cases h
    exact ⟨Nat.zero_le _, rfl, fun _ => rfl⟩

lemma fillTagged_sound {tag idx tag' idx' : ℕ} {buf buf' : Word} {src src' : List Byte}
    (h : fillTagged tag idx buf src = some (tag', idx', buf', src')) :
    src'.length ≤ src.length ∧ (tag' ≠ 0 → src' = []) := by
  induction tag using Nat.strongRecOn generalizing idx buf src with
  | ind tag ih =>
    rw [fillTagged.eq_def] at h
    split at h
    · cases h
      exact ⟨Nat.le_refl _, fun hne => absurd ‹_› hne⟩
    · split at h
      · split at h
        · cases h
          exact ⟨Nat.le_refl _, fun _ => rfl⟩
        · obtain ⟨buf₁, -, h⟩ := Option.bind_eq_some_iff.1 h
          obtain ⟨hlen, hnil⟩ := ih (tag / 2) (by omega) h
          exact ⟨Nat.le_succ_of_le hlen, hnil⟩
      · exact ih (tag / 2) (by omega) h

lemma PartialTaggedWord.finish_sound {self : PartialTaggedWord} {word : Option PartialTaggedWord}
    {io io' : Io} (h : self.finish io = some (word, io')) :
    io'.src.length ≤ io.src.length ∧ io'.size = io.size ∧ (word.isSome → io'.src = []) := by
  obtain ⟨⟨tag, idx, buf, src⟩, hrun, h⟩ := Option.bind_eq_some_iff.1 h
  obtain ⟨hlen, hnil⟩ := fillTagged_sound hrun
  simp only [Option.bind_eq_bind] at h
  split at h
  · obtain ⟨io₁, hio, h⟩ := Option.bind_eq_some_iff.1 h
    cases h
    exact ⟨by rw [Io.src_put hio]; exact hlen, (Io.size_put hio).trans rfl, by simp⟩
  · rename_i hne
    obtain ⟨writtenBytes, -, h⟩ := Option.bind_eq_some_iff.1 h
    cases h
    exact ⟨hlen, rfl, fun _ => hnil hne⟩

lemma writeNulls_sound (io : Io) (count : ℕ) : (writeNulls io count).Sound io := by
  unfold writeNulls
  split
  · refine ⟨Nat.le_refl _, ?_⟩
    simp only [Io.size, List.length_append, List.length_take, List.length_drop]
    omega
  · exact ⟨by simp [Io.size], fun h => by cases h⟩

lemma writeUncompressed_sound {io : Io} {count : ℕ} {flow : Flow}
    (h : writeUncompressed io count = some flow) : flow.Sound io := by
  have hsize : ∀ n, n ≤ io.dst.length → 8 * n ≤ io.src.length →
      (io.done ++ Word.ofByteSlice (io.src.take (8 * n))).length + (io.dst.drop n).length
        = io.size := by
    intro n hdst hsrc
    rw [List.length_append, Word.length_ofByteSlice (n := n) (by rw [List.length_take]; omega),
      List.length_drop, Io.size]
    omega
  rcases writeUncompressed_cases io count with ⟨h1, h2⟩ | ⟨h1, h2⟩ | ⟨h1, h2, h3⟩ | ⟨h1, h2, h3⟩
  · rw [writeUncompressed_go _ _ h1 h2] at h
    cases h
    refine ⟨?_, hsize count h2 (by omega)⟩
    rw [List.length_drop]
    omega
  · rw [writeUncompressed_output _ _ h1 h2] at h
    cases h
    have hsize := hsize io.dst.length (Nat.le_refl _) (by omega)
    rw [List.drop_length] at hsize
    exact ⟨hsize, fun h => by cases h⟩
  · rw [writeUncompressed_input _ _ h1 h2 h3] at h
    cases h
    have hsize := hsize (io.src.length / 8) h2 (by omega)
    rw [show 8 * (io.src.length / 8) = io.src.length by omega, List.take_length] at hsize
    exact ⟨hsize, fun _ => rfl⟩
  · obtain ⟨word, -, hword⟩ := writeUncompressed_partial _ _ h1 h2 h3
    rw [hword] at h
    cases h
    exact ⟨hsize (io.src.length / 8) h2 (by omega), fun _ => rfl⟩

lemma resume_sound {state : Option IncompleteState} {io : Io} {flow : Flow}
    (h : resume state io = some flow) : flow.Sound io := by
  have hfirst : ∀ {count : Byte} {src : List Byte}, takeFirst io.src = some (count, src) →
      src.length ≤ io.src.length := by
    intro count src hsrc
    cases hio : io.src with
    | nil => rw [hio] at hsrc; cases hsrc
    | cons b l => rw [hio] at hsrc; cases hsrc; exact Nat.le_succ _
  unfold resume at h
  split at h
  · cases h
    exact ⟨Nat.le_refl _, rfl⟩
  · obtain ⟨⟨word, io'⟩, hfinish, h⟩ := Option.bind_eq_some_iff.1 h
    obtain ⟨hlen, hsize, hnil⟩ := PartialTaggedWord.finish_sound hfinish
    cases word with
    | none => cases h; exact ⟨hlen, hsize⟩
    | some word => cases h; exact ⟨hsize, fun _ => hnil rfl⟩
  · obtain ⟨⟨word, io'⟩, hfinish, h⟩ := Option.bind_eq_some_iff.1 h
    obtain ⟨hlen, hsize, hnil⟩ := PartialWord.finish_sound hfinish
    cases word with
    | none =>
      simp only at h
      split at h
      · rename_i hsrc
        cases h
        exact ⟨hsize, fun _ => hsrc⟩
      · rename_i count src hsrc
        rw [hsrc] at hlen
        exact (writeUncompressed_sound h).mono (Nat.le_of_succ_le hlen) hsize
    | some word => cases h; exact ⟨hsize, fun _ => hnil rfl⟩
  · obtain ⟨⟨count, src⟩, hsrc, h⟩ := Option.bind_eq_some_iff.1 h
    cases h
    exact (writeNulls_sound _ _).mono (hfirst hsrc) rfl
  · obtain ⟨⟨count, src⟩, hsrc, h⟩ := Option.bind_eq_some_iff.1 h
    exact (writeUncompressed_sound h).mono (hfirst hsrc) rfl
  · cases h
    exact writeNulls_sound _ _
  · exact writeUncompressed_sound h
  · obtain ⟨⟨word, io'⟩, hfinish, h⟩ := Option.bind_eq_some_iff.1 h
    obtain ⟨hlen, hsize, hnil⟩ := PartialWord.finish_sound hfinish
    cases word with
    | none => exact (writeUncompressed_sound h).mono hlen hsize
    | some word => cases h; exact ⟨hsize, fun _ => hnil rfl⟩

lemma unpackNulls_sound {io : Io} {flow : Flow} (h : unpackNulls io = some flow) :
    flow.Sound io := by
  obtain ⟨word, -, h⟩ := Option.bind_eq_some_iff.1 h
  obtain ⟨io₁, hio, h⟩ := Option.bind_eq_some_iff.1 h
  have hsrc := congrArg List.length (Io.src_put hio)
  have hsize := Io.size_put hio
  split at h
  · rename_i hnil
    cases h
    exact ⟨hsize, fun _ => hnil⟩
  · rename_i count src heq
    rw [heq, List.length_cons] at hsrc
    simp only at h
    split at h
    · cases h
      exact (writeNulls_sound _ _).mono (by simp only; omega) hsize
    · cases h
      exact ⟨by simp only; omega, hsize⟩

lemma unpackFull_sound {io : Io} {flow : Flow} (h : unpackFull io = some flow) :
    flow.Sound io := by
  unfold unpackFull at h
  split at h
  · obtain ⟨word, -, h⟩ := Option.bind_eq_some_iff.1 h
    cases h
    exact ⟨rfl, fun _ => rfl⟩
  · obtain ⟨⟨bytes, src⟩, hsrc, h⟩ := Option.bind_eq_some_iff.1 h
    obtain ⟨io₁, hio, h⟩ := Option.bind_eq_some_iff.1 h
    have hsize := Io.size_putBytes hio
    have hlen : io₁.src.length ≤ io.src.length := by
      rw [Io.src_putBytes hio, (takeAt_eq_some hsrc).2.2, List.length_drop]
      omega
    split at h
    · rename_i hnil
      cases h
      exact ⟨hsize, fun _ => hnil⟩
    · rename_i count src heq
      rw [heq, List.length_cons] at hlen
      simp only at h
      split at h
      · exact (writeUncompressed_sound h).mono (Nat.le_of_succ_le hlen) hsize
      · cases h
        exact ⟨Nat.le_of_succ_le hlen, hsize⟩

lemma unpackTagged_sound {tag : ℕ} {io : Io} {flow : Flow} (h : unpackTagged tag io = some flow) :
    flow.Sound io := by
  unfold unpackTagged at h
  simp only at h
  split at h
  · obtain ⟨word, -, h⟩ := Option.bind_eq_some_iff.1 h
    cases h
    exact ⟨rfl, fun _ => rfl⟩
  · obtain ⟨⟨bytes, src⟩, hsrc, h⟩ := Option.bind_eq_some_iff.1 h
    obtain ⟨word, -, h⟩ := Option.bind_eq_some_iff.1 h
    obtain ⟨wordBytes, -, h⟩ := Option.bind_eq_some_iff.1 h
    obtain ⟨io₁, hio, h⟩ := Option.bind_eq_some_iff.1 h
    cases h
    refine ⟨?_, (Io.size_put hio).trans rfl⟩
    rw [Io.src_put hio, (takeAt_eq_some hsrc).2.2, List.length_drop]
    omega

/-- A turn of the loop has read a tag. -/
lemma unpackToken_sound {io : Io} {flow : Flow} (h : unpackToken io = some flow) :
    io.src ≠ [] ∧ flow.Sound { io with src := io.src.tail } := by
  obtain ⟨⟨tag, src⟩, hsrc, h⟩ := Option.bind_eq_some_iff.1 h
  obtain ⟨src', done, dst⟩ := io
  cases src' with
  | nil => cases hsrc
  | cons b l =>
    cases hsrc
    refine ⟨by simp, ?_⟩
    simp only at h
    split at h
    · exact unpackNulls_sound h
    · split at h
      · exact unpackFull_sound h
      · exact unpackTagged_sound h

lemma length_src_unpackToken {io io' : Io} (h : unpackToken io = some (.go io')) :
    io'.src.length < io.src.length := by
  obtain ⟨hne, hlen, -⟩ := unpackToken_sound h
  have hpos := List.length_pos_of_ne_nil hne
  rw [List.length_tail] at hlen
  omega

/-- The loop of `unpack_inner`. -/
def unpackLoop (io : Io) : Option Halt :=
  if io.src = [] then some ⟨.needInput, none, io⟩
  else if io.dst = [] then some ⟨.needOutput, none, io⟩
  else
    match _h : unpackToken io with
    | none => none
    | some (.stop halt) => some halt
    | some (.go io) => unpackLoop io
termination_by io.src.length
decreasing_by exact length_src_unpackToken _h

lemma unpackLoop_sound {io : Io} {halt : Halt} (h : unpackLoop io = some halt) :
    (Flow.stop halt).Sound io := by
  induction hlen : io.src.length using Nat.strongRecOn generalizing io with
  | ind n ih =>
    rw [unpackLoop] at h
    split at h
    · rename_i hnil
      cases h
      exact ⟨rfl, fun _ => hnil⟩
    · split at h
      · cases h
        exact ⟨rfl, fun h => by cases h⟩
      · split at h
        · cases h
        · rename_i halt' htoken
          cases h
          exact (unpackToken_sound htoken).2.mono (by simp) rfl
        · rename_i io' htoken
          have hshort := length_src_unpackToken htoken
          have hsound := ih io'.src.length (by omega) h rfl
          exact hsound.mono (Nat.le_of_lt hshort) (unpackToken_sound htoken).2.2

/-- `Unpacker`. -/
structure Unpacker where
  state : Option IncompleteState
deriving DecidableEq

/-- `UnpackResult`. -/
structure UnpackResult where
  bytesRead : ℕ
  wordsWritten : ℕ
  reason : StopReason
deriving DecidableEq

/-- `IncompleteError`. -/
structure IncompleteError where
  bytesNeeded : ℕ
deriving DecidableEq

namespace Unpacker

/-- `Unpacker::new`. -/
def new : Unpacker := ⟨none⟩

/-- `Unpacker::unpack_inner`. -/
def unpackInner (self : Unpacker) (io : Io) : Option Halt :=
  if io.src = [] then some ⟨.needInput, self.state, io⟩
  else do
    match ← resume self.state io with
    | .stop halt => some halt
    | .go io => unpackLoop io

lemma unpackInner_sound {self : Unpacker} {io : Io} {halt : Halt}
    (h : self.unpackInner io = some halt) : (Flow.stop halt).Sound io := by
  unfold unpackInner at h
  split at h
  · rename_i hnil
    cases h
    exact ⟨rfl, fun _ => hnil⟩
  · obtain ⟨flow, hflow, h⟩ := Option.bind_eq_some_iff.1 h
    have hsound := resume_sound hflow
    cases flow with
    | go io' => exact (unpackLoop_sound h).mono hsound.1 hsound.2
    | stop halt' =>
      cases h
      exact hsound

/-- `Unpacker::unpack`: the result, the whole output slice and the unpacker after the call. -/
def unpack (self : Unpacker) (src : List Byte) (dst : List Word) :
    Option (UnpackResult × List Word × Unpacker) := do
  let halt ← self.unpackInner ⟨src, [], dst⟩
  some (⟨src.length - halt.io.src.length, dst.length - halt.io.dst.length, halt.reason⟩,
    halt.io.done ++ halt.io.dst, ⟨halt.state⟩)

lemma unpack_sound {self unpacker : Unpacker} {src : List Byte} {dst out : List Word}
    {result : UnpackResult} (h : self.unpack src dst = some (result, out, unpacker)) :
    out.length = dst.length ∧ result.wordsWritten ≤ dst.length ∧
      (result.reason = .needInput → result.bytesRead = src.length) := by
  obtain ⟨halt, hhalt, h⟩ := Option.bind_eq_some_iff.1 h
  obtain ⟨hsize, hnil⟩ := unpackInner_sound hhalt
  cases h
  refine ⟨?_, Nat.sub_le _ _, fun hreason => ?_⟩
  · simpa [Io.size] using hsize
  · simp [hnil hreason]

/-- `Unpacker::finish`. -/
def finish (self : Unpacker) : Except IncompleteError Unit :=
  match self.state with
  | some (.partialWord word) => .error ⟨word.neededBytes⟩
  | some (.partialUncompressed word) => .error ⟨word.neededBytes + 1⟩
  | some .needNullCount => .error ⟨1⟩
  | some .needUncompressedCount => .error ⟨1⟩
  | some (.writingNulls _) => .error ⟨0⟩
  | some (.writingUncompressed remaining word) =>
    let remainingWordBytes := remaining * 8
    .error ⟨remainingWordBytes + (word.map PartialWord.neededBytes).getD 0⟩
  | none => .ok ()

lemma finish_eq_ok_iff {self : Unpacker} : self.finish = .ok () ↔ self.state = none := by
  obtain ⟨state⟩ := self
  rcases state with _ | state
  · simp [finish]
  · cases state <;> simp [finish]

end Unpacker

end Recapn.Packing

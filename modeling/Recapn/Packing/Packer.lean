/-
# The packer

`Packer::pack` writes the packing of a list of words into whatever buffer it is given, and
keeps what it needs to go on with the next one: the words it has not looked at and the bytes
of an uncompressed run that did not fit.  Whatever the buffers, the bytes that have been
written and the bytes that are pending make up `encode`.
-/
import Recapn.Packing.Format

namespace Recapn.Packing

/-! ## The output buffer -/

/-- An output buffer: what has been written to it, and the bytes after that. -/
structure OutBuf where
  written : List Byte
  rest : List Byte

/-- `write_byte`: it panics when the buffer is full. -/
def writeByte (out : OutBuf) (value : Byte) : Option OutBuf :=
  match out.rest with
  | [] => none
  | _ :: rest => some ⟨out.written ++ [value], rest⟩

/-- `take_byte`: the buffer past a byte that is filled in later. -/
def takeByte (out : OutBuf) : Option OutBuf :=
  match out.rest with
  | [] => none
  | _ :: rest => some ⟨[], rest⟩

/-- `copy_and_advance_slices`.  The error carries what was not copied and the full buffer. -/
def copyAndAdvanceSlices (src : List Byte) (out : OutBuf) : Except (List Byte × OutBuf) OutBuf :=
  if src.length ≤ out.rest.length then
    .ok ⟨out.written ++ src, out.rest.drop src.length⟩
  else
    .error (src.drop out.rest.length, ⟨out.written ++ src.take out.rest.length, []⟩)

namespace OutBuf

/-- The length of the buffer. -/
def size (out : OutBuf) : ℕ := out.written.length + out.rest.length

/-- The buffer after some bytes were written to it. -/
def push (out : OutBuf) (l : List Byte) : OutBuf := ⟨out.written ++ l, out.rest.drop l.length⟩

@[simp] lemma push_nil (out : OutBuf) : out.push [] = out := by simp [push]

lemma push_push (out : OutBuf) (l m : List Byte) : (out.push l).push m = out.push (l ++ m) := by
  simp [push]

@[simp] lemma written_push (out : OutBuf) (l : List Byte) :
    (out.push l).written = out.written ++ l := rfl

@[simp] lemma length_rest_push (out : OutBuf) (l : List Byte) :
    (out.push l).rest.length = out.rest.length - l.length := by simp [push]

end OutBuf

lemma writeByte_eq {out : OutBuf} (h : 0 < out.rest.length) (value : Byte) :
    writeByte out value = some (out.push [value]) := by
  obtain ⟨written, rest⟩ := out
  cases rest with
  | nil => simp at h
  | cons b rest => simp [writeByte, OutBuf.push]

lemma takeByte_eq {out : OutBuf} (h : 0 < out.rest.length) :
    takeByte out = some ⟨[], out.rest.drop 1⟩ := by
  obtain ⟨written, rest⟩ := out
  cases rest with
  | nil => simp at h
  | cons b rest => simp [takeByte]

/-! ## The packer -/

/-- The `handle_byte!` lines from byte `idx` on: the bits that go into the tag and the bytes
that go after it. -/
def handleBytes : ℕ → List Byte → ℕ → OutBuf → Option (ℕ × OutBuf)
  | _, [], tag, out => some (tag, out)
  | idx, b :: bytes, tag, out =>
    let bit := if b ≠ 0 then 1 else 0
    if b ≠ 0 then
      (writeByte out b).bind (handleBytes (idx + 1) bytes (tag ||| bit <<< idx))
    else
      handleBytes (idx + 1) bytes (tag ||| bit <<< idx) out

/-- `Packer`. -/
structure Packer where
  input : List Word
  activeCopy : Option (List Byte)

/-- `PackResult`. -/
structure PackResult where
  completed : Bool
  bytesWritten : ℕ

/-- `MIN_BUF`. -/
def minBuf : ℕ := 10

namespace Packer

/-- `Packer::new`. -/
def new (input : List Word) : Packer := ⟨input, none⟩

/-- The loop of `Packer::pack`: its result, the output buffer and the packer it leaves.
It is `none` when an assertion fails. -/
def packLoop (inOutputLen : ℕ) (input : List Word) (out : OutBuf) :
    Option (PackResult × OutBuf × Packer) :=
  match input with
  | [] => some (⟨true, inOutputLen - out.rest.length⟩, out, ⟨[], none⟩)
  | word :: remainder =>
    if out.rest.length < minBuf then
      some (⟨false, inOutputLen - out.rest.length⟩, out, ⟨word :: remainder, none⟩)
    else if word = Word.null then do
      let zeros := splitAtFilter remainder (· != Word.null)
      let out ← writeByte out 0
      let out ← writeByte out (UInt8.ofNat zeros.1.length)
      packLoop inOutputLen zeros.2 out
    else do
      let body ← takeByte out
      let (tag, body) ← handleBytes 0 word.bytes 0 body
      let out : OutBuf := ⟨out.written ++ UInt8.ofNat tag :: body.written, body.rest⟩
      if tag = 0xff then
        let uncompressed := splitAtFilter remainder endsUncompressed
        let out ← writeByte out (UInt8.ofNat uncompressed.1.length)
        match copyAndAdvanceSlices (Word.sliceToBytes uncompressed.1) out with
        | .ok out => packLoop inOutputLen uncompressed.2 out
        | .error (left, out) => some (⟨false, inOutputLen⟩, out, ⟨uncompressed.2, some left⟩)
      else
        packLoop inOutputLen remainder out
termination_by input.length
decreasing_by
  · have := length_splitAtFilter_snd_le remainder (· != Word.null)
    simp only [List.length_cons]; omega
  · have := length_splitAtFilter_snd_le remainder endsUncompressed
    simp only [List.length_cons]; omega
  · simp

/-- `Packer::pack` on an output buffer. -/
def pack (self : Packer) (outputBuf : List Byte) : Option (PackResult × OutBuf × Packer) :=
  let inOutputLen := outputBuf.length
  match self.activeCopy with
  | none => packLoop inOutputLen self.input ⟨[], outputBuf⟩
  | some activeCopy =>
    match copyAndAdvanceSlices activeCopy ⟨[], outputBuf⟩ with
    | .ok out => packLoop inOutputLen self.input out
    | .error (remainder, out) => some (⟨false, inOutputLen⟩, out, ⟨self.input, some remainder⟩)

/-- Calls of `pack` with the given buffers, one after the other, until one of them completes:
the first `bytes_written` bytes of each buffer.  It is `none` when a call panics, or when none
of the first `n` calls completes. -/
def packAll (self : Packer) (bufs : ℕ → List Byte) : ℕ → Option (List Byte)
  | 0 => none
  | n + 1 => do
    let (result, out, packer) ← self.pack (bufs 0)
    let chunk := (out.written ++ out.rest).take result.bytesWritten
    if result.completed then some chunk
    else (packer.packAll (fun i => bufs (i + 1)) n).map (chunk ++ ·)

/-! ## What a call writes -/

/-- The bytes that a packer has still to write. -/
def pending (self : Packer) : List Byte := self.activeCopy.getD [] ++ encode self.input

end Packer

lemma lor_shiftLeft {tag idx bit : ℕ} (h : tag < 2 ^ idx) :
    tag ||| bit <<< idx = tag + 2 ^ idx * bit := by
  rw [Nat.or_comm, Nat.shiftLeft_eq, Nat.mul_comm bit, ← Nat.two_pow_add_eq_or_of_lt h,
    Nat.add_comm]

/-- The `handle_byte!` lines write the bytes that are not zero and collect the tag. -/
lemma handleBytes_eq {idx tag : ℕ} {bytes : List Byte} {out : OutBuf} (htag : tag < 2 ^ idx)
    (hroom : (Dec.kept bytes).length ≤ out.rest.length) :
    handleBytes idx bytes tag out
      = some (tag + 2 ^ idx * tagOf bytes, out.push (Dec.kept bytes)) := by
  induction bytes generalizing idx tag out with
  | nil => simp [handleBytes, tagOf, Dec.kept]
  | cons b bytes ih =>
    rw [handleBytes]
    by_cases hb : b = 0
    · have hkept : Dec.kept (b :: bytes) = Dec.kept bytes := by simp [Dec.kept, hb]
      rw [hkept] at hroom ⊢
      have htag' : tag < 2 ^ (idx + 1) := by rw [Nat.pow_succ]; omega
      simp only [hb, ne_eq, not_true_eq_false, if_false, Nat.zero_shiftLeft, Nat.or_zero]
      rw [ih htag' hroom, tagOf, if_pos rfl, Nat.zero_add, Nat.pow_succ, Nat.mul_assoc]
    · have hkept : Dec.kept (b :: bytes) = b :: Dec.kept bytes := by simp [Dec.kept, hb]
      rw [hkept] at hroom ⊢
      simp only [List.length_cons] at hroom
      have hbit : tag ||| 1 <<< idx = tag + 2 ^ idx := by rw [lor_shiftLeft htag, Nat.mul_one]
      have htag' : tag + 2 ^ idx < 2 ^ (idx + 1) := by rw [Nat.pow_succ]; omega
      simp only [ne_eq, hb, not_false_eq_true, if_true]
      rw [writeByte_eq (by omega), Option.bind_some, hbit,
        ih htag' (by rw [OutBuf.length_rest_push, List.length_singleton]; omega),
        OutBuf.push_push, tagOf, if_neg hb, Nat.mul_add, Nat.mul_one, ← Nat.add_assoc,
        Nat.pow_succ, Nat.mul_assoc]
      rfl

/-- Every byte of a word with all tag bits set is kept. -/
lemma kept_of_tagOf {w : Word} (h : tagOf w.bytes = 0xff) : Dec.kept w.bytes = w.bytes := by
  have hbits := tagBits_tagOf w.bytes
  rw [h, Word.length_bytes] at hbits
  apply List.filter_eq_self.2
  intro b hb
  have hmem : decide (b ≠ 0) ∈ w.bytes.map (fun b => decide (b ≠ 0)) :=
    List.mem_map_of_mem hb
  rw [← hbits] at hmem
  simpa [tagBits] using hmem

lemma length_kept_le (w : Word) : (Dec.kept w.bytes).length ≤ 8 :=
  List.length_filter_le _ _

/-- A packer whose pending bytes were `todo` has written to `out` up to `out'` and left the
packer `packer`. -/
structure Packs (todo : List Byte) (out : OutBuf) (result : PackResult) (out' : OutBuf)
    (packer : Packer) : Prop where
  pushed : ∃ bytes, out' = out.push bytes ∧ bytes ++ packer.pending = todo
  bytesWritten : result.bytesWritten = out'.written.length
  completed : result.completed = true → packer.pending = []
  progress : result.completed = false → minBuf ≤ out.rest.length →
    out.written.length < out'.written.length

namespace Packs

/-- Some bytes written before. -/
lemma push {todo bytes : List Byte} {out out' : OutBuf} {result : PackResult} {packer : Packer}
    (h : Packs todo (out.push bytes) result out' packer) (hne : bytes ≠ []) :
    Packs (bytes ++ todo) out result out' packer := by
  obtain ⟨⟨l, rfl, hl⟩, hwritten, hcompleted, -⟩ := h
  have hpos := List.length_pos_of_ne_nil hne
  refine ⟨⟨bytes ++ l, OutBuf.push_push _ _ _, by rw [List.append_assoc, hl]⟩, hwritten,
    hcompleted, fun _ _ => ?_⟩
  simp only [OutBuf.written_push, List.length_append]
  omega

/-- A copy that does not fit fills the buffer. -/
lemma suspend {src : List Byte} (input : List Word) {out out' : OutBuf} {left : List Byte}
    (h : copyAndAdvanceSlices src out = .error (left, out')) :
    Packs (src ++ encode input) out ⟨false, out.written.length + out.rest.length⟩ out'
      ⟨input, some left⟩ := by
  unfold copyAndAdvanceSlices at h
  split at h
  · cases h
  · rename_i hlen
    cases h
    have htake : (src.take out.rest.length).length = out.rest.length := by
      rw [List.length_take]; omega
    refine ⟨⟨src.take out.rest.length, ?_, ?_⟩, ?_, ?_, fun _ hmin => ?_⟩
    · simp [OutBuf.push, htake]
    · simp [Packer.pending, ← List.append_assoc]
    · simp [htake]
    · simp
    · simp only [List.length_append, htake, minBuf] at hmin ⊢
      omega

end Packs

lemma copyAndAdvanceSlices_eq {src : List Byte} {out : OutBuf} (h : src.length ≤ out.rest.length) :
    copyAndAdvanceSlices src out = .ok (out.push src) := if_pos h

namespace Packer

/-- With less than `MIN_BUF` bytes left, the loop stops. -/
lemma packLoop_short {inOutputLen : ℕ} {word : Word} {remainder : List Word} {out : OutBuf}
    (hlen : out.written.length + out.rest.length = inOutputLen)
    (hmin : out.rest.length < minBuf) :
    ∃ result out' packer,
      packLoop inOutputLen (word :: remainder) out = some (result, out', packer) ∧
      Packs (encode (word :: remainder)) out result out' packer := by
  refine ⟨_, _, _, by rw [packLoop, if_pos hmin], ⟨[], by simp, by simp [pending]⟩, ?_, by simp,
    fun _ h => absurd h (by omega)⟩
  simp only
  omega

/-- The loop on a word that is not null, after its tag and its bytes are written. -/
lemma packLoop_word {inOutputLen : ℕ} {word : Word} {remainder : List Word} {out : OutBuf}
    (hmin : ¬ out.rest.length < minBuf) (hw : word ≠ Word.null) :
    packLoop inOutputLen (word :: remainder) out
      = let out₁ := out.push (UInt8.ofNat (tagOf word.bytes) :: Dec.kept word.bytes)
        if tagOf word.bytes = 0xff then
          let uncompressed := splitAtFilter remainder endsUncompressed
          (writeByte out₁ (UInt8.ofNat uncompressed.1.length)).bind fun out =>
            match copyAndAdvanceSlices (Word.sliceToBytes uncompressed.1) out with
            | .ok out => packLoop inOutputLen uncompressed.2 out
            | .error (left, out) =>
              some (⟨false, inOutputLen⟩, out, ⟨uncompressed.2, some left⟩)
        else
          packLoop inOutputLen remainder out₁ := by
  have hroom : 10 ≤ out.rest.length := by simp only [minBuf] at hmin; omega
  have hkept := length_kept_le word
  rw [packLoop, if_neg hmin, if_neg hw]
  simp only [Option.bind_eq_bind]
  rw [takeByte_eq (by omega), Option.bind_some,
    handleBytes_eq (by simp) (by simp only [List.length_drop]; omega), Option.bind_some]
  simp only [OutBuf.push, Nat.pow_zero, Nat.one_mul, Nat.zero_add, List.nil_append,
    List.drop_drop, List.length_cons, Nat.add_comm 1]

/-- The loop on a word with no byte zero, after its count is written. -/
lemma packLoop_full {inOutputLen : ℕ} {word : Word} {remainder : List Word} {out : OutBuf}
    {uncompressed : List Word × List Word} (hmin : ¬ out.rest.length < minBuf)
    (hw : word ≠ Word.null) (hff : tagOf word.bytes = 0xff)
    (hrun : splitAtFilter remainder endsUncompressed = uncompressed) :
    packLoop inOutputLen (word :: remainder) out
      = match copyAndAdvanceSlices (Word.sliceToBytes uncompressed.1)
          (out.push (0xff :: word.bytes ++ [UInt8.ofNat uncompressed.1.length])) with
        | .ok out => packLoop inOutputLen uncompressed.2 out
        | .error (left, out) =>
          some (⟨false, inOutputLen⟩, out, ⟨uncompressed.2, some left⟩) := by
  have hroom : 10 ≤ out.rest.length := by simp only [minBuf] at hmin; omega
  rw [packLoop_word hmin hw, if_pos hff, kept_of_tagOf hff, hff, hrun]
  simp only
  rw [writeByte_eq (by simp only [OutBuf.length_rest_push, List.length_cons,
    Word.length_bytes]; omega), Option.bind_some, OutBuf.push_push]
  rfl

/-- The loop of `pack` does not panic, and what it writes is the packing of what it reads. -/
lemma packLoop_spec (inOutputLen : ℕ) (input : List Word) (out : OutBuf)
    (hlen : out.written.length + out.rest.length = inOutputLen) :
    ∃ result out' packer, packLoop inOutputLen input out = some (result, out', packer) ∧
      Packs (encode input) out result out' packer := by
  induction input using encode.induct generalizing out with
  | case1 =>
    refine ⟨_, _, _, by rw [packLoop], ⟨[], by simp, by simp [pending]⟩, ?_, ?_, by simp⟩
    · simp only; omega
    · simp [pending, encode]
  | case2 ws ih =>
    by_cases hmin : out.rest.length < minBuf
    · exact packLoop_short hlen hmin
    have hroom : 10 ≤ out.rest.length := by simp only [minBuf] at hmin; omega
    let zeros := splitAtFilter ws (· != Word.null)
    obtain ⟨result, out', packer, hloop, hpacks⟩ := ih (out.push [0, UInt8.ofNat zeros.1.length])
      (by simp only [OutBuf.written_push, OutBuf.length_rest_push, List.length_append,
            List.length_cons, List.length_nil]; omega)
    refine ⟨result, out', packer, ?_, ?_⟩
    · rw [packLoop, if_neg hmin, if_pos rfl]
      simp only [Option.bind_eq_bind]
      rw [writeByte_eq (by omega), Option.bind_some,
        writeByte_eq (by rw [OutBuf.length_rest_push, List.length_singleton]; omega),
        Option.bind_some, OutBuf.push_push]
      exact hloop
    · rw [encode, if_pos rfl]
      exact hpacks.push (by simp)
  | case3 w ws hw hff ih =>
    by_cases hmin : out.rest.length < minBuf
    · exact packLoop_short hlen hmin
    have hroom : 10 ≤ out.rest.length := by simp only [minBuf] at hmin; omega
    have hencode : encode (w :: ws) = encode (w :: ws) := rfl
    conv_rhs at hencode => rw [encode, if_neg hw, if_pos hff]
    generalize hrun : splitAtFilter ws endsUncompressed = uncompressed at ih hencode
    obtain ⟨out₁, hout₁⟩ : ∃ out₁,
      out₁ = out.push (0xff :: w.bytes ++ [UInt8.ofNat uncompressed.1.length]) := ⟨_, rfl⟩
    have hlen₁ : out₁.written.length + out₁.rest.length = inOutputLen := by
      simp only [hout₁, OutBuf.written_push, OutBuf.length_rest_push, List.length_append,
        List.length_cons, List.length_nil, Word.length_bytes]
      omega
    have htodo : encode (w :: ws) = (0xff :: w.bytes ++ [UInt8.ofNat uncompressed.1.length])
        ++ (Word.sliceToBytes uncompressed.1 ++ encode uncompressed.2) := by
      rw [hencode]
      simp
    rw [packLoop_full hmin hw hff hrun, htodo, ← hout₁]
    by_cases hfits : (Word.sliceToBytes uncompressed.1).length ≤ out₁.rest.length
    · obtain ⟨result, out', packer, hloop, hpacks⟩ :=
        ih (out₁.push (Word.sliceToBytes uncompressed.1))
          (by simp only [OutBuf.written_push, OutBuf.length_rest_push, List.length_append]; omega)
      refine ⟨result, out', packer, ?_, ?_⟩
      · rw [copyAndAdvanceSlices_eq hfits]
        exact hloop
      · rw [hout₁, OutBuf.push_push] at hpacks
        rw [← List.append_assoc]
        exact hpacks.push (by simp)
    · have hcopy : copyAndAdvanceSlices (Word.sliceToBytes uncompressed.1) out₁ = .error _ :=
        if_neg hfits
      have hpacks := Packs.suspend uncompressed.2 hcopy
      rw [hcopy, ← hlen₁]
      refine ⟨_, _, _, rfl, Packs.push ?_ (by simp)⟩
      rw [← hout₁]
      exact hpacks
  | case4 w ws hw hff ih =>
    by_cases hmin : out.rest.length < minBuf
    · exact packLoop_short hlen hmin
    have hroom : 10 ≤ out.rest.length := by simp only [minBuf] at hmin; omega
    have hkept := length_kept_le w
    obtain ⟨result, out', packer, hloop, hpacks⟩ :=
      ih (out.push (UInt8.ofNat (tagOf w.bytes) :: Dec.kept w.bytes))
        (by simp only [OutBuf.written_push, OutBuf.length_rest_push, List.length_append,
              List.length_cons]; omega)
    refine ⟨result, out', packer, ?_, ?_⟩
    · rw [packLoop_word hmin hw, if_neg hff]
      exact hloop
    · rw [encode, if_neg hw, if_neg hff]
      exact hpacks.push (by simp)

/-- A call of `pack` does not panic.  What it writes, followed by what is pending after it, is
what was pending before, and a buffer of `MIN_BUF` bytes makes it write something. -/
lemma pack_spec (self : Packer) (outputBuf : List Byte) :
    ∃ result out packer, self.pack outputBuf = some (result, out, packer) ∧
      Packs self.pending ⟨[], outputBuf⟩ result out packer := by
  obtain ⟨input, activeCopy⟩ := self
  cases activeCopy with
  | none => exact packLoop_spec _ input ⟨[], outputBuf⟩ (by simp)
  | some activeCopy =>
    by_cases hfits : activeCopy.length ≤ outputBuf.length
    · have hcopy : copyAndAdvanceSlices activeCopy ⟨[], outputBuf⟩ = .ok _ :=
        copyAndAdvanceSlices_eq hfits
      obtain ⟨result, out, packer, hrun, hpacks⟩ :=
        packLoop_spec outputBuf.length input (OutBuf.push ⟨[], outputBuf⟩ activeCopy)
          (by simp only [OutBuf.written_push, OutBuf.length_rest_push, List.length_append,
                List.length_nil]; omega)
      refine ⟨result, out, packer, by rw [pack]; simp only [hcopy]; exact hrun, ?_⟩
      by_cases hnil : activeCopy = []
      · subst hnil
        rw [OutBuf.push_nil] at hpacks
        exact hpacks
      · exact hpacks.push hnil
    · have hcopy : copyAndAdvanceSlices activeCopy ⟨[], outputBuf⟩ = .error _ := if_neg hfits
      have hpacks := Packs.suspend input hcopy
      rw [List.length_nil, Nat.zero_add] at hpacks
      exact ⟨_, _, _, by rw [pack]; simp only [hcopy], hpacks⟩

/-! ## The length of a buffer -/

end Packer

lemma size_writeByte {out out' : OutBuf} {value : Byte} (h : writeByte out value = some out') :
    out'.size = out.size := by
  obtain ⟨written, rest⟩ := out
  cases rest with
  | nil => cases h
  | cons b rest =>
    cases h
    simp only [OutBuf.size, List.length_append, List.length_cons, List.length_nil]
    omega

lemma size_takeByte {out out' : OutBuf} (h : takeByte out = some out') :
    out'.size + 1 + out.written.length = out.size := by
  obtain ⟨written, rest⟩ := out
  cases rest with
  | nil => cases h
  | cons b rest =>
    cases h
    simp only [OutBuf.size, List.length_cons, List.length_nil]
    omega

lemma size_handleBytes {idx tag tag' : ℕ} {bytes : List Byte} {out out' : OutBuf}
    (h : handleBytes idx bytes tag out = some (tag', out')) : out'.size = out.size := by
  induction bytes generalizing idx tag out with
  | nil =>
    cases h
    rfl
  | cons b bytes ih =>
    rw [handleBytes] at h
    split at h
    · obtain ⟨out₁, hwrite, h⟩ := Option.bind_eq_some_iff.1 h
      rw [ih h, size_writeByte hwrite]
    · exact ih h

lemma size_copyAndAdvanceSlices {src left : List Byte} {out out' : OutBuf}
    (h : copyAndAdvanceSlices src out = .ok out' ∨ copyAndAdvanceSlices src out = .error (left, out')) :
    out'.size = out.size := by
  unfold copyAndAdvanceSlices at h
  split at h
  · rcases h with h | h
    · cases h
      simp only [OutBuf.size, List.length_append, List.length_drop]
      omega
    · cases h
  · rcases h with h | h
    · cases h
    · cases h
      simp only [OutBuf.size, List.length_append, List.length_take, List.length_nil]
      omega

namespace Packer

lemma size_packLoop {inOutputLen : ℕ} {input : List Word} {out out' : OutBuf} {result : PackResult}
    {packer : Packer} (h : packLoop inOutputLen input out = some (result, out', packer)) :
    out'.size = out.size := by
  induction hn : input.length using Nat.strongRecOn generalizing input out with
  | ind n ih =>
  cases input with
  | nil =>
    rw [packLoop] at h
    cases h
    rfl
  | cons word remainder =>
    rw [List.length_cons] at hn
    rw [packLoop] at h
    split at h
    · cases h
      rfl
    split at h
    · -- a run of null words
      have hle := length_splitAtFilter_snd_le remainder (· != Word.null)
      obtain ⟨out₁, h₁, h⟩ := Option.bind_eq_some_iff.1 h
      obtain ⟨out₂, h₂, h⟩ := Option.bind_eq_some_iff.1 h
      rw [ih _ (by omega) h rfl, size_writeByte h₂, size_writeByte h₁]
    · obtain ⟨body, hbody, h⟩ := Option.bind_eq_some_iff.1 h
      obtain ⟨⟨tag, body'⟩, hbytes, h⟩ := Option.bind_eq_some_iff.1 h
      have hsize : (OutBuf.mk (out.written ++ UInt8.ofNat tag :: body'.written) body'.rest).size
          = out.size := by
        have htake := size_takeByte hbody
        have hhandle := size_handleBytes hbytes
        simp only [OutBuf.size, List.length_append, List.length_cons] at htake hhandle ⊢
        omega
      simp only at h
      split at h
      · -- a run of uncompressed words
        have hle := length_splitAtFilter_snd_le remainder endsUncompressed
        obtain ⟨out₁, h₁, h⟩ := Option.bind_eq_some_iff.1 h
        split at h
        · next out₂ hcopy =>
          rw [ih _ (by omega) h rfl, @size_copyAndAdvanceSlices _ [] _ _ (Or.inl hcopy),
            size_writeByte h₁, hsize]
        · next left out₂ hcopy =>
          cases h
          rw [size_copyAndAdvanceSlices (Or.inr hcopy), size_writeByte h₁, hsize]
      · rw [ih _ (by omega) h rfl, hsize]

/-- A call of `pack` leaves the length of the buffer as it is. -/
lemma size_pack {self packer : Packer} {outputBuf : List Byte} {result : PackResult} {out : OutBuf}
    (h : self.pack outputBuf = some (result, out, packer)) : out.size = outputBuf.length := by
  have hsize : (OutBuf.mk [] outputBuf).size = outputBuf.length := by simp [OutBuf.size]
  unfold pack at h
  split at h
  · rw [size_packLoop h, hsize]
  · split at h
    · next hcopy => rw [size_packLoop h, @size_copyAndAdvanceSlices _ [] _ _ (Or.inl hcopy), hsize]
    · next hcopy =>
      cases h
      rw [size_copyAndAdvanceSlices (Or.inr hcopy), hsize]

/-! ## Packing into a sequence of buffers -/

/-- The first `bytes_written` bytes of the buffer are those that were written. -/
lemma take_bytesWritten {todo : List Byte} {out out' : OutBuf} {result : PackResult}
    {packer : Packer} (h : Packs todo out result out' packer) :
    (out'.written ++ out'.rest).take result.bytesWritten = out'.written := by
  rw [h.bytesWritten, List.take_left]

/-- The calls after a first one. -/
lemma packAll_succ {self packer : Packer} {bufs : ℕ → List Byte} {result : PackResult}
    {out : OutBuf} (n : ℕ) (hpack : self.pack (bufs 0) = some (result, out, packer))
    (hpacks : Packs self.pending ⟨[], bufs 0⟩ result out packer) :
    self.packAll bufs (n + 1)
      = if result.completed then some out.written
        else (packer.packAll (fun i => bufs (i + 1)) n).map (out.written ++ ·) := by
  rw [packAll, hpack]
  simp only [Option.bind_eq_bind, Option.bind_some, take_bytesWritten hpacks]

/-- Whenever the calls complete, they have written what was pending. -/
lemma packAll_eq {self : Packer} {bufs : ℕ → List Byte} {n : ℕ} {packed : List Byte}
    (h : self.packAll bufs n = some packed) : packed = self.pending := by
  induction n generalizing self bufs packed with
  | zero => cases h
  | succ n ih =>
    obtain ⟨result, out, packer, hpack, hpacks⟩ := self.pack_spec (bufs 0)
    rw [packAll_succ n hpack hpacks] at h
    obtain ⟨bytes, rfl, htodo⟩ := hpacks.pushed
    simp only [OutBuf.written_push, List.nil_append] at h
    split at h
    · rename_i hcompleted
      rw [← htodo, hpacks.completed hcompleted, List.append_nil]
      exact (Option.some.inj h).symm
    · obtain ⟨rest, hrest, rfl⟩ := Option.map_eq_some_iff.1 h
      rw [ih hrest, htodo]

lemma shift_bufs {bufs : ℕ → List Byte} (h : ∀ m, ∃ i, m ≤ i ∧ minBuf ≤ (bufs i).length) :
    ∀ m, ∃ i, m ≤ i ∧ minBuf ≤ (bufs (i + 1)).length := by
  intro m
  obtain ⟨i, hm, hi⟩ := h (m + 1)
  obtain ⟨j, rfl⟩ : ∃ j, i = j + 1 := ⟨i - 1, by omega⟩
  exact ⟨j, by omega, hi⟩

/-- With a buffer of `MIN_BUF` bytes now and then, some call completes.  The induction is on
the number of pending bytes, and for that number on the place of the next such buffer. -/
lemma exists_packAll (self : Packer) {bufs : ℕ → List Byte}
    (hbufs : ∀ m, ∃ i, m ≤ i ∧ minBuf ≤ (bufs i).length) :
    ∃ n packed, self.packAll bufs n = some packed := by
  induction hlen : self.pending.length using Nat.strongRecOn generalizing self bufs with
  | ind len ih =>
    obtain ⟨i, -, hi⟩ := hbufs 0
    induction i generalizing self bufs with
    | zero =>
      obtain ⟨result, out, packer, hpack, hpacks⟩ := self.pack_spec (bufs 0)
      cases hcompleted : result.completed with
      | true => exact ⟨1, _, by rw [packAll_succ 0 hpack hpacks, hcompleted, if_pos rfl]⟩
      | false =>
        have hprogress := hpacks.progress hcompleted hi
        obtain ⟨bytes, rfl, htodo⟩ := hpacks.pushed
        have hshort := congrArg List.length htodo
        simp only [List.length_append, OutBuf.written_push, List.length_nil] at hshort hprogress
        obtain ⟨n, packed, hrest⟩ := ih packer.pending.length (by omega) packer
          (shift_bufs hbufs) rfl
        exact ⟨n + 1, _, by rw [packAll_succ n hpack hpacks, hcompleted, hrest]; rfl⟩
    | succ i ihi =>
      obtain ⟨result, out, packer, hpack, hpacks⟩ := self.pack_spec (bufs 0)
      cases hcompleted : result.completed with
      | true => exact ⟨1, _, by rw [packAll_succ 0 hpack hpacks, hcompleted, if_pos rfl]⟩
      | false =>
        obtain ⟨bytes, -, htodo⟩ := hpacks.pushed
        have hshort := congrArg List.length htodo
        rw [List.length_append] at hshort
        obtain ⟨n, packed, hrest⟩ :
            ∃ n packed, packer.packAll (fun i => bufs (i + 1)) n = some packed := by
          by_cases heq : packer.pending.length = len
          · exact ihi packer (shift_bufs hbufs) heq hi
          · exact ih packer.pending.length (by omega) packer (shift_bufs hbufs) rfl
        exact ⟨n + 1, _, by rw [packAll_succ n hpack hpacks, hcompleted, hrest]; rfl⟩

end Packer

end Recapn.Packing

/-
# What the unpacker reads

The state of an unpacker is a position in the packed format: a state of the decoder and a
number of null words that it owes the output.  A call that starts at a position reads some of
its input and writes some words, and the position it ends at is the one that the decoder
reaches on what was read.  `unpackInner_spec` states this for a whole call, together with
the only way a call can panic: a word is finished and there is no output to put it in.
-/
import Recapn.Packing.Unpacker

namespace Recapn.Packing

/-! ## Positions -/

/-- A position in packed input: where the decoder stands, and how many null words that it has
written are still to go to the output. -/
structure Pos where
  dec : Dec
  owed : ℕ

/-- The position between two tokens. -/
def Pos.idle : Pos := ⟨.idle, 0⟩

namespace PartialTaggedWord

/-- The bytes of a partial word that are in place. -/
def acc (self : PartialTaggedWord) : List Byte := self.buf.bytes.take self.writtenBytes.val

/-- The bits of its tag for the other bytes. -/
def pat (self : PartialTaggedWord) : List Bool := tagBits (8 - self.writtenBytes.val) self.tag

/-- What a partial word satisfies: it waits for a byte, its tag is about the bytes not in place,
and these are zero. -/
structure Wf (word : PartialTaggedWord) : Prop where
  odd : word.tag % 2 = 1
  lt : word.tag < 2 ^ (8 - word.writtenBytes.val)
  zero : word.buf.bytes.drop word.writtenBytes.val
    = List.replicate (8 - word.writtenBytes.val) 0

end PartialTaggedWord

namespace IncompleteState

/-- The position of a state. -/
def pos : IncompleteState → Pos
  | partialWord word => ⟨.tagged word.acc word.pat, 0⟩
  | partialUncompressed word => ⟨.full word.acc, 0⟩
  | needNullCount => ⟨.nullCount, 0⟩
  | needUncompressedCount => ⟨.rawCount, 0⟩
  | writingNulls count => ⟨.idle, count⟩
  | writingUncompressed remaining none => ⟨.rawFrom remaining, 0⟩
  | writingUncompressed remaining (some word) => ⟨.raw (remaining + 1) word.acc, 0⟩

/-- What the states that the unpacker saves satisfy. -/
def Wf : IncompleteState → Prop
  | partialWord word => word.Wf
  | writingNulls count => 0 < count
  | writingUncompressed remaining none => 0 < remaining
  | _ => True

end IncompleteState

/-- The position of an unpacker. -/
def posOf (state : Option IncompleteState) : Pos := (state.map IncompleteState.pos).getD .idle

@[simp] lemma posOf_none : posOf none = .idle := rfl

@[simp] lemma posOf_some (state : IncompleteState) : posOf (some state) = state.pos := rfl

/-- The states of an unpacker. -/
def WfState (state : Option IncompleteState) : Prop := ∀ s ∈ state, s.Wf

@[simp] lemma wfState_none : WfState none := by simp [WfState]

@[simp] lemma wfState_some {state : IncompleteState} : WfState (some state) ↔ state.Wf := by
  simp [WfState]

/-! ## Reading from one position to another -/

/-- From `pos` and the slices of `io`, the unpacker has read the bytes `used` and written the
words `new`, and has come to `pos'` and the slices of `io'`. -/
structure Reading (pos : Pos) (io : Io) (pos' : Pos) (io' : Io) (used : List Byte)
    (new : List Word) : Prop where
  src : io.src = used ++ io'.src
  done : io'.done = io.done ++ new
  dst : io'.dst = io.dst.drop new.length
  room : new.length ≤ io.dst.length
  dec : (pos.dec.feed used).1 = pos'.dec
  count : pos.owed + (pos.dec.feed used).2.length = new.length + pos'.owed
  /-- What is owed are words of the last run of null words. -/
  owed : pos'.owed ≤ pos.dec.lastRun pos.owed used
  /-- A token is only opened when there is output for its first word. -/
  frugal : ∀ u v, used = u ++ v → v ≠ [] → (pos.dec.feed u).1 = .idle →
    pos.owed + (pos.dec.feed u).2.length < io.dst.length
  /-- In an output of null words, the words are those of the decoder. -/
  out : (∀ w ∈ io.dst, w = Word.null) →
    List.replicate pos.owed Word.null ++ (pos.dec.feed used).2
      = new ++ List.replicate pos'.owed Word.null

/-- From `pos` and the slices of `io`, the unpacker has come to `pos'` and the slices of `io'`. -/
def Reads (pos : Pos) (io : Io) (pos' : Pos) (io' : Io) : Prop :=
  ∃ used new, Reading pos io pos' io' used new

/-- Proper prefixes of the rest of a token end inside it. -/
lemma feed_prefix_ne_idle {d : Dec} {used u v : List Byte} (h : used.length ≤ d.needs)
    (huv : used = u ++ v) (hv : v ≠ []) : (d.feed u).1 ≠ .idle := by
  have hpos := List.length_pos_of_ne_nil hv
  rw [huv, List.length_append] at h
  exact Dec.feed_ne_idle (by omega)

lemma Reading.trans {pos pos' pos'' : Pos} {io io' io'' : Io} {used used' : List Byte}
    {new new' : List Word} (h : Reading pos io pos' io' used new)
    (h' : Reading pos' io' pos'' io'' used' new') :
    Reading pos io pos'' io'' (used ++ used') (new ++ new') where
  src := by rw [h.src, h'.src, List.append_assoc]
  done := by rw [h'.done, h.done, List.append_assoc]
  dst := by rw [h'.dst, h.dst, List.drop_drop, List.length_append]
  room := by
    have hroom := h.room
    have hroom' := h'.room
    rw [h.dst, List.length_drop] at hroom'
    rw [List.length_append]
    omega
  dec := by rw [Dec.feed_append, h.dec, h'.dec]
  count := by
    have hcount := h.count
    have hcount' := h'.count
    simp only [Dec.feed_append, h.dec, List.length_append]
    omega
  owed := by
    rw [Dec.lastRun_append, h.dec]
    exact Nat.le_trans h'.owed (Dec.lastRun_mono h.owed _ _)
  frugal := by
    intro u v huv hv hidle
    rcases List.append_eq_append_iff.1 huv with ⟨w, hw, hw'⟩ | ⟨w, hw, hw'⟩
    · -- the first piece ends before the prefix does
      rw [hw, Dec.feed_append, h.dec] at hidle
      have hfrugal := h'.frugal w v hw' hv hidle
      have hcount := h.count
      have hroom := h.room
      rw [h.dst, List.length_drop] at hfrugal
      simp only [hw, Dec.feed_append, h.dec, List.length_append]
      omega
    · by_cases hw0 : w = []
      · subst hw0
        rw [List.append_nil] at hw
        rw [← hw, h.dec] at hidle
        have hfrugal := h'.frugal [] v (by simpa using hw'.symm) hv hidle
        have hcount := h.count
        have hroom := h.room
        rw [h.dst, List.length_drop, Dec.feed_nil, List.length_nil] at hfrugal
        rw [← hw]
        omega
      · exact h.frugal u w hw hw0 hidle
  out := by
    intro hnull
    have hnull' : ∀ w ∈ io'.dst, w = Word.null := by
      rw [h.dst]
      exact fun w hw => hnull w (List.mem_of_mem_drop hw)
    rw [Dec.feed_append, h.dec, ← List.append_assoc, h.out hnull, List.append_assoc,
      h'.out hnull', List.append_assoc]

namespace Reads

lemma refl (pos : Pos) (io : Io) : Reads pos io pos io :=
  ⟨[], [], by simp, by simp, by simp, by simp, by simp, by simp, Nat.le_refl _,
    fun _ _ huv hv => absurd (List.append_eq_nil_iff.1 huv.symm).2 hv, by simp⟩

lemma trans {pos pos' pos'' : Pos} {io io' io'' : Io} (h : Reads pos io pos' io')
    (h' : Reads pos' io' pos'' io'') : Reads pos io pos'' io'' := by
  obtain ⟨used, new, h⟩ := h
  obtain ⟨used', new', h'⟩ := h'
  exact ⟨_, _, h.trans h'⟩

/-- The unpacker reads bytes of a token, for which the decoder writes words that go to the
output. -/
lemma words {d d' : Dec} {used : List Byte} {new : List Word} (src : List Byte)
    (done dst : List Word) (hfeed : d.feed used = (d', new)) (hneeds : used.length ≤ d.needs)
    (hle : new.length ≤ dst.length) :
    Reads ⟨d, 0⟩ ⟨used ++ src, done, dst⟩ ⟨d', 0⟩
      ⟨src, done ++ new, dst.drop new.length⟩ :=
  ⟨used, new, rfl, rfl, rfl, hle, by rw [hfeed], by rw [hfeed]; simp, Nat.zero_le _,
    fun _ _ huv hv hidle => absurd hidle (feed_prefix_ne_idle hneeds huv hv),
    fun _ => by rw [hfeed]; simp⟩

/-- The unpacker reads bytes of a token, for which the decoder writes nothing. -/
lemma bytes {d d' : Dec} (used src : List Byte) (done dst : List Word)
    (hfeed : d.feed used = (d', [])) (hneeds : used.length ≤ d.needs) :
    Reads ⟨d, 0⟩ ⟨used ++ src, done, dst⟩ ⟨d', 0⟩ ⟨src, done, dst⟩ := by
  have h := words src done dst hfeed hneeds (Nat.zero_le _)
  rwa [List.append_nil] at h

/-- The unpacker reads the count of a run of null words. -/
lemma nullCount (count : Byte) (src : List Byte) (done dst : List Word) :
    Reads ⟨.nullCount, 0⟩ ⟨count :: src, done, dst⟩ ⟨.idle, count.toNat⟩ ⟨src, done, dst⟩ :=
  ⟨[count], [], rfl, by simp, rfl, by simp, by simp [Dec.step], by simp [Dec.step],
    by simp [Dec.lastRun],
    fun _ _ huv hv hidle => absurd hidle
      (feed_prefix_ne_idle (show [count].length ≤ Dec.nullCount.needs from Nat.le_refl 1) huv hv),
    fun _ => by simp [Dec.step]⟩

/-- The unpacker writes null words that it owes. -/
lemma nulls (d : Dec) {n : ℕ} (k : ℕ) (src : List Byte) (done : List Word) {dst : List Word} (hle : n ≤ dst.length) :
    Reads ⟨d, n + k⟩ ⟨src, done, dst⟩ ⟨d, k⟩ ⟨src, done ++ dst.take n, dst.drop n⟩ := by
  have hlen : (dst.take n).length = n := by rw [List.length_take]; omega
  refine ⟨[], dst.take n, rfl, rfl, by rw [hlen], by rw [hlen]; exact hle, rfl, by simp [hlen],
    Nat.le_add_left k n, fun _ _ huv hv => absurd (List.append_eq_nil_iff.1 huv.symm).2 hv,
    fun hnull => ?_⟩
  have htake : dst.take n = List.replicate n Word.null := by
    rw [List.eq_replicate_of_mem fun w hw => hnull w (List.mem_of_mem_take hw), hlen]
  rw [htake, Dec.feed_nil, List.append_nil, List.replicate_append_replicate]

/-- The unpacker reads a tag and the bytes of its token that it asks for. -/
lemma tag {d : Dec} {b : Byte} {used : List Byte} {word dst : List Word} (src : List Byte)
    (done new : List Word) (hfeed : Dec.feed .idle (b :: used) = (d, word)) (hdst : dst ≠ [])
    (hneeds : used.length ≤ (Dec.step .idle b).1.needs) (hlen : word.length = new.length)
    (hle : new.length ≤ dst.length) (hout : (∀ w ∈ dst, w = Word.null) → word = new) :
    Reads .idle ⟨b :: (used ++ src), done, dst⟩ ⟨d, 0⟩ ⟨src, done ++ new, dst.drop new.length⟩ := by
  have hpos := List.length_pos_of_ne_nil hdst
  refine ⟨b :: used, new, rfl, rfl, rfl, hle, ?_, ?_, Nat.zero_le _, fun u v huv hv hidle => ?_,
    fun hnull => ?_⟩
  · rw [Pos.idle, hfeed]
  · rw [Pos.idle, hfeed]
    simp [hlen]
  · cases u with
    | nil => simpa [Pos.idle] using hpos
    | cons c u =>
      rw [List.cons_append, List.cons.injEq] at huv
      rw [← huv.1] at hidle
      exact absurd hidle (feed_prefix_ne_idle (u := u) hneeds huv.2 hv)
  · rw [Pos.idle, hfeed, hout hnull]
    simp

end Reads

/-- The states that the unpacker saves for want of output. -/
def IncompleteState.BetweenWords : IncompleteState → Prop
  | writingNulls _ => True
  | writingUncompressed _ none => True
  | _ => False

/-- What a stop of the unpacker satisfies. -/
structure Halt.Ok (halt : Halt) : Prop where
  needInput : halt.reason = .needInput → halt.io.src = [] ∧ (posOf halt.state).owed = 0
  needOutput : halt.reason = .needOutput →
    halt.io.dst = [] ∧ ∀ s ∈ halt.state, s.BetweenWords
  wf : WfState halt.state

/-- A part of `unpack_inner` that starts at `pos` comes to `flow`. -/
def Follows (pos : Pos) (io : Io) : Flow → Prop
  | .go io' => Reads pos io .idle io'
  | .stop halt => Reads pos io (posOf halt.state) halt.io ∧ halt.Ok

lemma Follows.trans {pos pos' : Pos} {io io' : Io} {flow : Flow} (h : Reads pos io pos' io')
    (h' : Follows pos' io' flow) : Follows pos io flow := by
  cases flow with
  | go io'' => exact h.trans h'
  | stop halt => exact ⟨h.trans h'.1, h'.2⟩

/-- A stop for want of input. -/
lemma Follows.needInput {pos : Pos} {io io' : Io} {state : IncompleteState}
    (h : Reads pos io state.pos io') (hsrc : io'.src = []) (howed : state.pos.owed = 0)
    (hwf : state.Wf) : Follows pos io (.stop ⟨.needInput, some state, io'⟩) :=
  ⟨h, fun _ => ⟨hsrc, howed⟩, by simp, wfState_some.2 hwf⟩

/-- A stop for want of output. -/
lemma Follows.needOutput {pos : Pos} {io io' : Io} {state : IncompleteState}
    (h : Reads pos io state.pos io') (hdst : io'.dst = []) (hbetween : state.BetweenWords)
    (hwf : state.Wf) : Follows pos io (.stop ⟨.needOutput, some state, io'⟩) :=
  ⟨h, by simp, fun _ => ⟨hdst, by simpa using hbetween⟩, wfState_some.2 hwf⟩

/-! ## Runs of null and of uncompressed words -/

lemma writeNulls_follows (io : Io) (count : ℕ) : Follows ⟨.idle, count⟩ io (writeNulls io count) := by
  obtain ⟨src, done, dst⟩ := io
  unfold writeNulls
  split
  · rename_i hle
    exact Reads.nulls .idle 0 src done hle
  · rename_i hlt
    simp only at hlt
    obtain ⟨k, rfl⟩ : ∃ k, count = dst.length + k := ⟨count - dst.length, by omega⟩
    have hreads := Reads.nulls .idle k src done (Nat.le_refl dst.length)
    rw [List.take_length, List.drop_length] at hreads
    refine .needOutput ?_ rfl trivial ?_
    · simpa [IncompleteState.pos] using hreads
    · simp only [IncompleteState.Wf]
      omega

/-- A run of uncompressed words reads whole words. -/
lemma reads_uncompressed (n count : ℕ) (src : List Byte) (done dst : List Word)
    (hcount : n ≤ count) (hsrc : 8 * n ≤ src.length) (hdst : n ≤ dst.length) :
    Reads ⟨.rawFrom count, 0⟩ ⟨src, done, dst⟩ ⟨.rawFrom (count - n), 0⟩
      ⟨src.drop (8 * n), done ++ Word.ofByteSlice (src.take (8 * n)), dst.drop n⟩ := by
  obtain ⟨ws, hlen, hws⟩ := Word.exists_sliceToBytes (n := n) (l := src.take (8 * n))
    (by rw [List.length_take]; omega)
  have hsplit : src = Word.sliceToBytes ws ++ src.drop (8 * n) := by
    rw [← hws, List.take_append_drop]
  have hfeed : (Dec.rawFrom count).feed (Word.sliceToBytes ws) = (.rawFrom (count - ws.length), ws) :=
    Dec.feed_rawFrom_words (by omega)
  have hreads := Reads.words (src.drop (8 * n)) done dst hfeed
    (by rw [Word.length_sliceToBytes, Dec.needs_rawFrom]; omega) (by omega)
  rw [← hsplit, hlen] at hreads
  rwa [hws, Word.ofByteSlice_sliceToBytes]

lemma writeUncompressed_follows (io : Io) (count : ℕ) :
    ∃ flow, writeUncompressed io count = some flow ∧ Follows ⟨.rawFrom count, 0⟩ io flow := by
  obtain ⟨src, done, dst⟩ := io
  rcases writeUncompressed_cases ⟨src, done, dst⟩ count with
    ⟨h1, h2⟩ | ⟨h1, h2⟩ | ⟨h1, h2, h3⟩ | ⟨h1, h2, h3⟩
  · refine ⟨_, writeUncompressed_go _ _ h1 h2, ?_⟩
    have hreads := reads_uncompressed count count src done dst (Nat.le_refl count) (by simp only at h1; omega) h2
    rwa [Nat.sub_self] at hreads
  · refine ⟨_, writeUncompressed_output _ _ h1 h2, .needOutput ?_ rfl trivial ?_⟩
    · have hreads := reads_uncompressed dst.length count src done dst (by simp only at h2; omega)
        (by simp only at h1; omega) (Nat.le_refl _)
      rwa [List.drop_length] at hreads
    · simp only [IncompleteState.Wf] at h2 ⊢
      omega
  · refine ⟨_, writeUncompressed_input _ _ h1 h2 h3, .needInput ?_ rfl rfl ?_⟩
    · have hreads := reads_uncompressed (src.length / 8) count src done dst
        (by simp only at h1; omega) (by omega) h2
      have hall : 8 * (src.length / 8) = src.length := by simp only at h3; omega
      rwa [hall, List.drop_length, List.take_length] at hreads
    · simp only [IncompleteState.Wf] at h1 ⊢
      omega
  · obtain ⟨word, hacc, hword⟩ := writeUncompressed_partial _ _ h1 h2 h3
    refine ⟨_, hword, .needInput ?_ rfl rfl trivial⟩
    simp only at h1 h2 h3 hacc
    have hraw : Dec.rawFrom (count - src.length / 8) = .raw (count - src.length / 8 - 1 + 1) [] := by
      rw [Dec.rawFrom, if_neg (by omega)]
      congr 1
      omega
    have hshort : (src.drop (8 * (src.length / 8))).length < 8 := by
      rw [List.length_drop]
      omega
    have hfeed : (Dec.raw (count - src.length / 8 - 1 + 1) []).feed
        (src.drop (8 * (src.length / 8))) = (.raw (count - src.length / 8 - 1 + 1) word.acc, []) := by
      rw [hacc]
      exact Dec.feed_raw_short (by simpa using hshort)
    have hrest := Reads.bytes _ [] (done ++ Word.ofByteSlice (src.take (8 * (src.length / 8))))
      (dst.drop (src.length / 8)) hfeed (by simp only [Dec.needs, List.length_nil]; omega)
    rw [← hraw, List.append_nil] at hrest
    have hwords := reads_uncompressed (src.length / 8) count src done dst (by omega) (by omega) h2
    exact hwords.trans hrest

/-! ## Partial words -/

/-- A partial word after a tag `0xff` that is finished. -/
lemma finish_full_reads (word : PartialWord) {io : Io} (hneeded : word.neededBytes ≤ io.src.length)
    (hdst : io.dst ≠ []) :
    ∃ io', word.finish io = some (none, io') ∧
      Reads ⟨.full word.acc, 0⟩ io ⟨.rawCount, 0⟩ io' ∧
      ∀ n, Reads ⟨.raw (n + 1) word.acc, 0⟩ io ⟨.rawFrom n, 0⟩ io' := by
  have hlt := word.writtenBytes.isLt
  have hlen : word.acc.length + (io.src.take word.neededBytes).length = 8 := by
    rw [PartialWord.length_acc, List.length_take]
    simp only [PartialWord.neededBytes, WrittenBytes.neededForFull] at hneeded ⊢
    omega
  have hne : io.src.take word.neededBytes ≠ [] := by
    intro h
    rw [h, PartialWord.length_acc, List.length_nil] at hlen
    omega
  have hpos := List.length_pos_of_ne_nil hdst
  refine ⟨_, word.finish_full hneeded hdst, ?_, fun n => ?_⟩
  · have hreads := Reads.words (io.src.drop word.neededBytes) io.done io.dst
      (Dec.feed_full_word hlen hne) (by simp only [Dec.needs]; omega) hpos
    rwa [List.take_append_drop, List.length_singleton, List.drop_one] at hreads
  · have hreads := Reads.words (io.src.drop word.neededBytes) io.done io.dst
      (Dec.feed_raw_word (n := n + 1) hlen hne) (by simp only [Dec.needs]; omega) hpos
    rwa [List.take_append_drop, List.length_singleton, List.drop_one, Nat.add_sub_cancel] at hreads

/-- A partial word after a tag `0xff` that is not finished. -/
lemma finish_short_reads (word : PartialWord) {io : Io} (hneeded : io.src.length < word.neededBytes) :
    ∃ word' io', word.finish io = some (some word', io') ∧ io'.src = [] ∧
      Reads ⟨.full word.acc, 0⟩ io ⟨.full word'.acc, 0⟩ io' ∧
      ∀ n, Reads ⟨.raw (n + 1) word.acc, 0⟩ io ⟨.raw (n + 1) word'.acc, 0⟩ io' := by
  obtain ⟨word', hfinish, hacc⟩ := word.finish_short io hneeded
  have hlen : word.acc.length + io.src.length < 8 := by
    rw [PartialWord.length_acc]
    simp only [PartialWord.neededBytes, WrittenBytes.neededForFull] at hneeded
    omega
  refine ⟨word', _, hfinish, rfl, ?_, fun n => ?_⟩
  · have hreads := Reads.bytes io.src [] io.done io.dst (Dec.feed_full_short hlen)
      (by simp only [Dec.needs]; omega)
    rwa [List.append_nil, ← hacc] at hreads
  · have hreads := Reads.bytes io.src [] io.done io.dst (Dec.feed_raw_short (n := n + 1) hlen)
      (by simp only [Dec.needs]; omega)
    rwa [List.append_nil, ← hacc] at hreads

/-! ## Tagged words -/

namespace Dec

/-- The decoder in a tagged word, fed with some bytes. -/
def fill (acc : List Byte) (pat : List Bool) (l : List Byte) : Dec × List Word :=
  ((feed (settle acc pat).1 l).1, (settle acc pat).2 ++ (feed (settle acc pat).1 l).2)

lemma fill_false (acc : List Byte) (pat : List Bool) (l : List Byte) :
    fill acc (false :: pat) l = fill (acc ++ [0]) pat l := rfl

lemma fill_true_cons (acc : List Byte) (pat : List Bool) (b : Byte) (l : List Byte) :
    fill acc (true :: pat) (b :: l) = fill (acc ++ [b]) pat l := rfl

lemma fill_true_nil (acc : List Byte) (pat : List Bool) :
    fill acc (true :: pat) [] = (.tagged acc (true :: pat), []) := rfl

/-- No byte of the word is left to be read. -/
lemma fill_replicate_false (acc : List Byte) (n : ℕ) :
    fill acc (List.replicate n false) [] = (.idle, [Word.ofBytes (acc ++ List.replicate n 0)]) := by
  induction n generalizing acc with
  | zero => simp [fill, settle]
  | succ n ih => rw [List.replicate_succ, fill_false, ih, List.replicate_succ]; simp

/-- The decoder after the tag of a tagged word. -/
lemma feed_idle_tagged {tag : Byte} (h0 : tag ≠ 0) (hff : tag ≠ 0xff) (l : List Byte) :
    feed .idle (tag :: l) = fill [] (tagBits 8 tag.toNat) l := by
  have hlt := tag.toNat_lt
  have hne : tag.toNat ≠ 0 := fun h => h0 (UInt8.toNat_inj.1 h)
  have hstep : step .idle tag = settle [] (tagBits 8 tag.toNat) := by
    rw [step, if_neg h0, if_neg hff, enter_eq_settle (true_mem_tagBits hne (by omega))]
  rw [feed_cons, hstep, fill]

/-- The decoder inside a tagged word. -/
lemma feed_tagged_eq_fill {acc : List Byte} {pat : List Bool} (l : List Byte) :
    feed (.tagged acc (true :: pat)) l = fill acc (true :: pat) l := by
  simp [fill, settle]

end Dec

/-- The bits of a tag that is not zero start with those of its lowest bit. -/
lemma tagBits_odd {n tag : ℕ} (h : tag % 2 = 1) :
    tagBits (n + 1) tag = true :: tagBits n (tag / 2) := by
  simp [tagBits, h]

lemma tagBits_even {n tag : ℕ} (h : tag % 2 ≠ 1) :
    tagBits (n + 1) tag = false :: tagBits n (tag / 2) := by
  simp [tagBits, h]

/-- The number of bits of a tag does not depend on the number of positions. -/
lemma count_tagBits {n tag : ℕ} (h : tag < 2 ^ n) (k : ℕ) :
    (tagBits (n + k) tag).count true = (tagBits n tag).count true := by
  induction n generalizing tag with
  | zero =>
    obtain rfl : tag = 0 := by simpa using h
    simp [tagBits_zero, tagBits, List.count_replicate]
  | succ n ih =>
    rw [Nat.pow_succ] at h
    rw [Nat.add_right_comm, tagBits, tagBits, List.count_cons, List.count_cons, ih (by omega)]

/-- What the loop over a partial word comes to: the word is finished, or the input is used up
before that. -/
inductive Filled (idx : ℕ) (buf : Word) (tag : ℕ) (src : List Byte) : ℕ → ℕ → Word → List Byte → Prop
  | done (idx' : ℕ) (buf' : Word) (used src' : List Byte) (hsrc : src = used ++ src')
      (hfill : Dec.fill (buf.bytes.take idx) (tagBits (8 - idx) tag) used = (.idle, [buf']))
      (hcount : (tagBits (8 - idx) tag).count true = used.length) :
      Filled idx buf tag src 0 idx' buf' src'
  | short (tag' idx' : ℕ) (buf' : Word) (hidx : idx' < 8) (hodd : tag' % 2 = 1)
      (hlt : tag' < 2 ^ (8 - idx'))
      (hzero : buf'.bytes.drop idx' = List.replicate (8 - idx') 0)
      (hfill : Dec.fill (buf.bytes.take idx) (tagBits (8 - idx) tag) src
        = (.tagged (buf'.bytes.take idx') (tagBits (8 - idx') tag'), []))
      (hcount : (tagBits (8 - idx) tag).count true
        = src.length + (tagBits (8 - idx') tag').count true) :
      Filled idx buf tag src tag' idx' buf' []

/-- Whether the word is finished depends on the number of bytes. -/
lemma Filled.eq_zero_iff {idx idx' tag tag' : ℕ} {buf buf' : Word} {src src' : List Byte}
    (h : Filled idx buf tag src tag' idx' buf' src') :
    tag' = 0 ↔ (tagBits (8 - idx) tag).count true ≤ src.length := by
  cases h with
  | done _ _ used _ hsrc hfill hcount =>
    rw [hcount, hsrc, List.length_append]
    simp
  | short _ _ _ hidx hodd hlt hzero hfill hcount =>
    have hn : 8 - idx' = 7 - idx' + 1 := by omega
    rw [hn, tagBits_odd hodd, List.count_cons_self] at hcount
    omega

lemma bytes_copyInto_one (buf : Word) {idx : ℕ} (h : idx < 8) (b : Byte) :
    ∃ buf', copyInto buf idx (idx + 1) [b] = some buf' ∧
      buf'.bytes.take (idx + 1) = buf.bytes.take idx ++ [b] ∧
      buf'.bytes.drop (idx + 1) = buf.bytes.drop (idx + 1) := by
  have hb : [b].length = idx + 1 - idx := by simp
  have hlen : (buf.bytes.take idx ++ [b]).length = idx + 1 := by
    simp only [List.length_append, List.length_take, Word.length_bytes, List.length_singleton]
    omega
  refine ⟨_, copyInto_eq buf (Nat.le_succ idx) h hb,
    take_bytes_copyInto buf (Nat.le_succ idx) h hb, ?_⟩
  rw [Word.bytes_ofBytes (by rw [List.length_append, hlen, List.length_drop, Word.length_bytes]
                             omega)]
  exact List.drop_left' hlen

/-- One turn of the loop, which reads the bytes `pre`. -/
lemma Filled.turn {idx idx' tag tag' tag'' : ℕ} {buf buf' buf'' : Word} {src src' : List Byte}
    (pre : List Byte) (h : Filled (idx + 1) buf' tag' src tag'' idx' buf'' src')
    (hturn : ∀ l, Dec.fill (buf.bytes.take idx) (tagBits (8 - idx) tag) (pre ++ l)
      = Dec.fill (buf'.bytes.take (idx + 1)) (tagBits (8 - (idx + 1)) tag') l)
    (hpre : (tagBits (8 - idx) tag).count true
      = pre.length + (tagBits (8 - (idx + 1)) tag').count true) :
    Filled idx buf tag (pre ++ src) tag'' idx' buf'' src' := by
  cases h with
  | done _ _ used _ hsrc hfill hcount =>
    exact .done idx' buf'' (pre ++ used) src' (by rw [hsrc, List.append_assoc])
      (by rw [hturn, hfill]) (by rw [hpre, hcount, List.length_append])
  | short _ _ _ hidx hodd hlt hzero hfill hcount =>
    exact .short tag'' idx' buf'' hidx hodd hlt hzero (by rw [hturn, hfill])
      (by rw [hpre, hcount, List.length_append, Nat.add_assoc])

/-- The loop on a tag that is zero. -/
lemma fillTagged_zero {n idx : ℕ} {buf : Word} (src : List Byte) (hidx : idx + n = 8)
    (hzero : buf.bytes.drop idx = List.replicate n 0) :
    fillTagged 0 idx buf src = some (0, idx, buf, src) ∧ Filled idx buf 0 src 0 idx buf src := by
  refine ⟨by rw [fillTagged.eq_def, if_pos rfl], .done idx buf [] src rfl ?_ ?_⟩
  · rw [tagBits_zero, Dec.fill_replicate_false, show 8 - idx = n by omega, ← hzero,
      List.take_append_drop, Word.ofBytes_bytes]
  · simp [tagBits_zero, List.count_replicate]

/-- The loop over a partial word fills it in as the decoder does. -/
lemma fillTagged_spec (n : ℕ) {tag idx : ℕ} {buf : Word} (src : List Byte) (hidx : idx + n = 8)
    (htag : tag < 2 ^ n) (hzero : buf.bytes.drop idx = List.replicate n 0) :
    ∃ tag' idx' buf' src', fillTagged tag idx buf src = some (tag', idx', buf', src') ∧
      Filled idx buf tag src tag' idx' buf' src' := by
  induction n generalizing tag idx buf src with
  | zero =>
    obtain rfl : tag = 0 := by simpa using htag
    exact ⟨_, _, _, _, fillTagged_zero src hidx hzero⟩
  | succ n ih =>
    by_cases h0 : tag = 0
    · subst h0
      exact ⟨_, _, _, _, fillTagged_zero src hidx hzero⟩
    have hn : 8 - idx = n + 1 := by omega
    have hn' : 8 - (idx + 1) = n := by omega
    have hzero' : buf.bytes.drop (idx + 1) = List.replicate n 0 := by
      rw [← List.drop_drop, hzero]
      rfl
    rw [Nat.pow_succ] at htag
    by_cases hodd : tag % 2 = 1
    · cases src with
      | nil =>
        -- the input is used up at a byte that the tag names
        refine ⟨tag, idx, buf, [], by rw [fillTagged.eq_def, if_neg h0, if_pos hodd],
          .short tag idx buf (by omega) hodd (by rw [hn, Nat.pow_succ]; exact htag)
            (by rw [hn, hzero]) ?_ (by simp)⟩
        rw [hn, tagBits_odd hodd, Dec.fill_true_nil]
      | cons b src =>
        obtain ⟨buf₁, hcopy, htake, hdrop⟩ := bytes_copyInto_one buf (by omega : idx < 8) b
        obtain ⟨tag', idx', buf', src', hrun, hfilled⟩ :=
          @ih (tag / 2) (idx + 1) buf₁ src (by omega) (by omega) (by rw [hdrop, hzero'])
        refine ⟨tag', idx', buf', src', ?_, hfilled.turn [b] (fun l => ?_) ?_⟩
        · rw [fillTagged.eq_def, if_neg h0, if_pos hodd]
          simp only [hcopy, Option.bind_eq_bind, Option.bind_some, hrun]
        · rw [hn, tagBits_odd hodd, List.singleton_append, Dec.fill_true_cons, htake, hn']
        · rw [hn, hn', tagBits_odd hodd, List.count_cons_self, List.length_singleton, Nat.add_comm]
    · obtain ⟨tag', idx', buf', src', hrun, hfilled⟩ :=
        @ih (tag / 2) (idx + 1) buf src (by omega) (by omega) hzero'
      refine ⟨tag', idx', buf', src', ?_, hfilled.turn [] (fun l => ?_) ?_⟩
      · rw [fillTagged.eq_def, if_neg h0, if_neg hodd, hrun]
      · have htake : buf.bytes.take (idx + 1) = buf.bytes.take idx ++ [0] := by
          rw [List.take_add, hzero]
          rfl
        rw [hn, tagBits_even hodd, List.nil_append, Dec.fill_false, htake, hn']
      · rw [hn, hn', tagBits_even hodd, List.count_cons_of_ne (by simp), List.length_nil,
          Nat.zero_add]

/-- The bytes of a tagged word that is all in the input. -/
lemma spread_spec {n tag : ℕ} {wordBytes input : List Byte} (acc : List Byte)
    (hn : wordBytes.length = n) (h0 : tag ≠ 0) (htag : tag < 2 ^ n)
    (hinput : input.length = (tagBits n tag).count true) :
    ∃ out word, spread tag wordBytes input = some out ∧ out.length = n ∧
      Dec.fill acc (tagBits n tag) input = (.idle, [word]) ∧
      (wordBytes = List.replicate n 0 → word = Word.ofBytes (acc ++ out)) := by
  induction n generalizing tag wordBytes input acc with
  | zero => exact absurd (by simpa using htag) h0
  | succ n ih =>
    rw [Nat.pow_succ] at htag
    obtain ⟨w, wordBytes, rfl⟩ := List.exists_cons_of_length_eq_add_one hn
    simp only [List.length_cons, Nat.add_right_cancel_iff] at hn
    by_cases hodd : tag % 2 = 1
    · rw [tagBits_odd hodd, List.count_cons_self] at hinput
      obtain ⟨b, input, rfl⟩ := List.exists_cons_of_length_eq_add_one hinput
      simp only [List.length_cons, Nat.add_right_cancel_iff] at hinput
      rw [tagBits_odd hodd, Dec.fill_true_cons, spread]
      simp only [hodd, if_true, takeFirst, Option.bind_eq_bind, Option.bind_some]
      by_cases hlast : tag / 2 = 0
      · rw [hlast, tagBits_zero, List.count_replicate] at hinput
        obtain rfl : input = [] := by simpa using hinput
        rw [if_pos hlast, hlast, tagBits_zero, Dec.fill_replicate_false]
        refine ⟨_, _, rfl, by simp [hn], rfl, fun hnull => ?_⟩
        rw [List.replicate_succ] at hnull
        rw [(List.cons.inj hnull).2]
        simp
      · obtain ⟨out, word, hout, hlen, hfill, hword⟩ :=
          @ih (tag / 2) wordBytes input (acc ++ [b]) hn hlast (by omega) hinput
        rw [if_neg hlast, hout]
        refine ⟨_, _, rfl, by simp [hlen], hfill, fun hnull => ?_⟩
        rw [List.replicate_succ] at hnull
        rw [hword (List.cons.inj hnull).2]
        simp
    · rw [tagBits_even hodd, List.count_cons_of_ne (by simp)] at hinput
      obtain ⟨out, word, hout, hlen, hfill, hword⟩ :=
        @ih (tag / 2) wordBytes input (acc ++ [0]) hn (by omega) (by omega) hinput
      rw [tagBits_even hodd, Dec.fill_false, spread]
      simp only [hodd, if_false, Option.bind_eq_bind, Option.bind_some]
      rw [if_neg (by omega), hout]
      refine ⟨_, _, rfl, by simp [hlen], hfill, fun hnull => ?_⟩
      rw [List.replicate_succ] at hnull
      rw [hword (List.cons.inj hnull).2, (List.cons.inj hnull).1]
      simp

namespace PartialTaggedWord

variable {self : PartialTaggedWord}

lemma Wf.pat_eq (h : self.Wf) :
    self.pat = true :: tagBits (7 - self.writtenBytes.val) (self.tag / 2) := by
  have hlt := self.writtenBytes.isLt
  rw [pat, show 8 - self.writtenBytes.val = 7 - self.writtenBytes.val + 1 by omega,
    tagBits_odd h.odd]

/-- The bits of the tag of a partial word are the bytes that it needs. -/
lemma Wf.neededBytes_eq (h : self.Wf) : self.neededBytes = self.pat.count true := by
  have hlt := self.writtenBytes.isLt
  have hcount := count_tagBits h.lt self.writtenBytes.val
  rw [Nat.sub_add_cancel (by omega)] at hcount
  exact hcount

/-- A partial word is finished when the input has the bytes it needs and the output a word. -/
lemma Wf.finish_full (h : self.Wf) {io : Io} (hneeded : self.neededBytes ≤ io.src.length)
    (hdst : io.dst ≠ []) :
    ∃ io', self.finish io = some (none, io') ∧ Reads ⟨.tagged self.acc self.pat, 0⟩ io .idle io' := by
  have hlt := self.writtenBytes.isLt
  obtain ⟨src, done, dst⟩ := io
  obtain ⟨tag', idx', buf', src', hrun, hfilled⟩ := fillTagged_spec _ src (by omega) h.lt h.zero
  rw [h.neededBytes_eq] at hneeded
  obtain rfl := hfilled.eq_zero_iff.2 hneeded
  refine ⟨⟨src', done ++ [buf'], dst.tail⟩, ?_, ?_⟩
  · rw [finish]
    simp only [hrun, Option.bind_eq_bind, Option.bind_some, if_true]
    rw [Io.put_eq (by exact hdst), Option.bind_some]
  · cases hfilled with
    | done _ _ used _ hsrc hfill hcount =>
      change Dec.fill self.acc self.pat used = _ at hfill
      change self.pat.count true = _ at hcount
      rw [hsrc]
      rw [h.pat_eq] at hfill hcount ⊢
      rw [← Dec.feed_tagged_eq_fill] at hfill
      have hreads := Reads.words src' done dst hfill (Nat.le_of_eq hcount.symm) (List.length_pos_of_ne_nil hdst)
      rwa [List.length_singleton, List.drop_one] at hreads
    | short _ _ _ _ hodd => exact absurd hodd (by simp)

/-- It panics when the output has none. -/
lemma Wf.finish_panic (h : self.Wf) {io : Io} (hneeded : self.neededBytes ≤ io.src.length)
    (hdst : io.dst = []) : self.finish io = none := by
  have hlt := self.writtenBytes.isLt
  obtain ⟨tag', idx', buf', src', hrun, hfilled⟩ := fillTagged_spec _ io.src (by omega) h.lt h.zero
  rw [h.neededBytes_eq] at hneeded
  obtain rfl := hfilled.eq_zero_iff.2 hneeded
  rw [finish]
  simp only [hrun, Option.bind_eq_bind, Option.bind_some, if_true]
  rw [Io.put_eq_none_iff.2 (by exact hdst)]
  rfl

/-- Otherwise it takes all the bytes there are. -/
lemma Wf.finish_short (h : self.Wf) (io : Io) (hneeded : io.src.length < self.neededBytes) :
    ∃ word, self.finish io = some (some word, { io with src := [] }) ∧ word.Wf ∧
      self.neededBytes = io.src.length + word.neededBytes ∧
      Reads ⟨.tagged self.acc self.pat, 0⟩ io ⟨.tagged word.acc word.pat, 0⟩
        { io with src := [] } := by
  have hlt := self.writtenBytes.isLt
  obtain ⟨src, done, dst⟩ := io
  obtain ⟨tag', idx', buf', src', hrun, hfilled⟩ := fillTagged_spec _ src (by omega) h.lt h.zero
  rw [h.neededBytes_eq] at hneeded
  have hne : tag' ≠ 0 := fun h0 =>
    absurd (hfilled.eq_zero_iff.1 h0) (by simpa [pat] using hneeded)
  cases hfilled with
  | done => exact absurd rfl hne
  | short _ _ _ hidx hodd hlt' hzero hfill hcount =>
    have hwf : Wf ⟨buf', tag', ⟨idx', hidx⟩⟩ := ⟨hodd, hlt', hzero⟩
    refine ⟨⟨buf', tag', ⟨idx', hidx⟩⟩, ?_, hwf, ?_, ?_⟩
    · rw [finish]
      simp only [hrun, Option.bind_eq_bind, Option.bind_some, if_neg hne, WrittenBytes.fromBytes,
        dif_pos hidx]
    · rw [h.neededBytes_eq, hwf.neededBytes_eq]
      exact hcount
    · change Dec.fill self.acc self.pat src = _ at hfill
      rw [h.pat_eq] at hfill hneeded ⊢
      rw [← Dec.feed_tagged_eq_fill] at hfill
      have hreads := Reads.bytes src [] done dst hfill (Nat.le_of_lt hneeded)
      rwa [List.append_nil] at hreads

end PartialTaggedWord

/-! ## Whole calls -/

/-- Whether `n` bytes of input finish a word that the state holds. -/
def IncompleteState.Completes : IncompleteState → ℕ → Prop
  | partialWord word, n => word.neededBytes ≤ n
  | partialUncompressed word, n => word.neededBytes ≤ n
  | writingUncompressed _ (some word), n => word.neededBytes ≤ n
  | _, _ => False

instance (state : IncompleteState) (n : ℕ) : Decidable (state.Completes n) := by
  unfold IncompleteState.Completes
  split <;> infer_instance

/-- A call with no output for the word that it finishes. -/
def Overrun (state : Option IncompleteState) (io : Io) : Prop :=
  io.dst = [] ∧ ∃ s ∈ state, s.Completes io.src.length

/-- Where there is no output for the word that is finished, the call panics. -/
lemma resume_eq_none {state : Option IncompleteState} {io : Io} (hwf : WfState state)
    (hover : Overrun state io) : resume state io = none := by
  obtain ⟨hdst, s, hs, hcompletes⟩ := hover
  obtain rfl := Option.mem_def.1 hs
  rw [wfState_some] at hwf
  unfold IncompleteState.Completes at hcompletes
  split at hcompletes
  · rename_i word
    rw [resume, PartialTaggedWord.Wf.finish_panic hwf hcompletes hdst]
    rfl
  · rename_i word
    rw [resume, word.finish_panic hcompletes hdst]
    rfl
  · rename_i word
    rw [resume, word.finish_panic hcompletes hdst]
    rfl
  · exact hcompletes.elim

/-- The words that a call holds on to when it starts. -/
lemma resume_spec {state : Option IncompleteState} {io : Io} (hwf : WfState state)
    (hsrc : io.src ≠ []) (hover : ¬ Overrun state io) :
    ∃ flow, resume state io = some flow ∧ Follows (posOf state) io flow := by
  have hdst : ∀ s ∈ state, s.Completes io.src.length → io.dst ≠ [] :=
    fun s hs hcompletes hdst => hover ⟨hdst, s, hs, hcompletes⟩
  cases state with
  | none => exact ⟨_, rfl, Reads.refl _ _⟩
  | some state =>
    rw [wfState_some] at hwf
    have hdst := hdst state rfl
    rw [posOf_some]
    cases state with
    | partialWord word =>
      by_cases hneeded : word.neededBytes ≤ io.src.length
      · obtain ⟨io', hfinish, hreads⟩ := PartialTaggedWord.Wf.finish_full hwf hneeded (hdst hneeded)
        exact ⟨.go io', by rw [resume, hfinish]; rfl, hreads⟩
      · obtain ⟨word', hfinish, hwf', -, hreads⟩ :=
          PartialTaggedWord.Wf.finish_short hwf io (by omega : io.src.length < word.neededBytes)
        refine ⟨.stop ⟨.needInput, some (.partialWord word'), { io with src := [] }⟩, ?_,
          .needInput hreads rfl rfl hwf'⟩
        rw [resume, hfinish]
        rfl
    | partialUncompressed word =>
      by_cases hneeded : word.neededBytes ≤ io.src.length
      · obtain ⟨⟨src, done, dst⟩, hfinish, hreads, -⟩ :=
          finish_full_reads word hneeded (hdst hneeded)
        cases src with
        | nil =>
          refine ⟨.stop ⟨.needInput, some .needUncompressedCount, ⟨[], done, dst⟩⟩, ?_,
            .needInput hreads rfl rfl trivial⟩
          rw [resume, hfinish]
          rfl
        | cons count src =>
          obtain ⟨flow, hflow, hfollows⟩ := writeUncompressed_follows ⟨src, done, dst⟩ count.toNat
          refine ⟨flow, by rw [resume, hfinish]; exact hflow, Follows.trans hreads ?_⟩
          exact Follows.trans (Reads.bytes [count] src done dst (by simp [Dec.step]) (Nat.le_refl 1))
            hfollows
      · obtain ⟨word', ⟨src, done, dst⟩, hfinish, hnil, hreads, -⟩ :=
          finish_short_reads word (by omega : io.src.length < word.neededBytes)
        refine ⟨.stop ⟨.needInput, some (.partialUncompressed word'), ⟨src, done, dst⟩⟩, ?_,
          .needInput hreads hnil rfl trivial⟩
        rw [resume, hfinish]
        rfl
    | needNullCount =>
      obtain ⟨src, done, dst⟩ := io
      obtain ⟨count, src, rfl⟩ := List.exists_cons_of_ne_nil hsrc
      exact ⟨_, rfl, Follows.trans (Reads.nullCount count src done dst) (writeNulls_follows _ _)⟩
    | needUncompressedCount =>
      obtain ⟨src, done, dst⟩ := io
      obtain ⟨count, src, rfl⟩ := List.exists_cons_of_ne_nil hsrc
      obtain ⟨flow, hflow, hfollows⟩ := writeUncompressed_follows ⟨src, done, dst⟩ count.toNat
      exact ⟨flow, hflow, Follows.trans
        (Reads.bytes [count] src done dst (by simp [Dec.step]) (Nat.le_refl 1)) hfollows⟩
    | writingNulls count => exact ⟨_, rfl, writeNulls_follows io count⟩
    | writingUncompressed remaining word =>
      cases word with
      | none => exact writeUncompressed_follows io remaining
      | some word =>
        by_cases hneeded : word.neededBytes ≤ io.src.length
        · obtain ⟨io', hfinish, -, hreads⟩ := finish_full_reads word hneeded (hdst hneeded)
          obtain ⟨flow, hflow, hfollows⟩ := writeUncompressed_follows io' remaining
          exact ⟨flow, by rw [resume, hfinish]; exact hflow, Follows.trans (hreads remaining) hfollows⟩
        · obtain ⟨word', ⟨src, done, dst⟩, hfinish, hnil, -, hreads⟩ :=
            finish_short_reads word (by omega : io.src.length < word.neededBytes)
          refine ⟨.stop ⟨.needInput, some (.writingUncompressed remaining (some word')),
            ⟨src, done, dst⟩⟩, ?_, .needInput (hreads remaining) hnil rfl trivial⟩
          rw [resume, hfinish]
          rfl

/-- After a tag `0x00`. -/
lemma unpackNulls_spec (io : Io) (hdst : io.dst ≠ []) :
    ∃ flow, unpackNulls io = some flow ∧ Follows .idle ⟨0 :: io.src, io.done, io.dst⟩ flow := by
  obtain ⟨src, done, dst⟩ := io
  obtain ⟨d, dst, rfl⟩ := List.exists_cons_of_ne_nil hdst
  have htag : Reads .idle ⟨0 :: src, done, d :: dst⟩ ⟨.nullCount, 0⟩ ⟨src, done ++ [d], dst⟩ :=
    Reads.tag src done [d] (Dec.feed_singleton .idle 0) (by simp) (Nat.zero_le _) rfl (by simp)
      (fun hnull => by rw [hnull d (by simp)])
  cases src with
  | nil => exact ⟨.stop ⟨.needInput, some .needNullCount, _⟩, rfl, .needInput htag rfl rfl trivial⟩
  | cons count src =>
    have hcount := htag.trans (Reads.nullCount count src (done ++ [d]) dst)
    by_cases h0 : count.toNat = 0
    · rw [h0] at hcount
      refine ⟨.go ⟨src, done ++ [d], dst⟩, ?_, hcount⟩
      simp [unpackNulls, Io.put, h0]
    · refine ⟨writeNulls ⟨src, done ++ [d], dst⟩ count.toNat, ?_,
        Follows.trans hcount (writeNulls_follows _ _)⟩
      simp [unpackNulls, Io.put, h0]

/-- After a tag `0xff`. -/
lemma unpackFull_spec (io : Io) (hdst : io.dst ≠ []) :
    ∃ flow, unpackFull io = some flow ∧ Follows .idle ⟨0xff :: io.src, io.done, io.dst⟩ flow := by
  obtain ⟨src, done, dst⟩ := io
  have htag : Reads .idle ⟨0xff :: src, done, dst⟩ ⟨.full [], 0⟩ ⟨src, done, dst⟩ := by
    have h := Reads.tag src done [] (Dec.feed_singleton .idle 0xff) hdst (Nat.zero_le _) rfl
      (Nat.zero_le _) (fun _ => rfl)
    rwa [List.append_nil] at h
  unfold unpackFull
  by_cases hshort : src.length < 8
  · obtain ⟨word, hword, hacc⟩ := PartialWord.start_eq src hshort
    have hfeed : (Dec.full []).feed src = (.full src, []) :=
      Dec.feed_full_short (by simpa using hshort)
    have hrest := Reads.bytes src [] done dst hfeed
      (by simp only [Dec.needs, List.length_nil]; omega)
    rw [List.append_nil] at hrest
    rw [if_pos hshort]
    refine ⟨.stop ⟨.needInput, some (.partialUncompressed word), ⟨[], done, dst⟩⟩, ?_,
      .needInput (htag.trans ?_) rfl rfl trivial⟩
    · rw [hword]
      rfl
    · rw [IncompleteState.pos, hacc]
      exact hrest
  · have h8 : (src.take 8).length = 8 := by rw [List.length_take]; omega
    have hpos := List.length_pos_of_ne_nil hdst
    have hfeed : (Dec.full []).feed (src.take 8) = (.rawCount, [Word.ofBytes (src.take 8)]) :=
      Dec.feed_full_word (by simp [h8]) (by intro h; simp [h] at h8)
    have hword := Reads.words (src.drop 8) done dst hfeed (Nat.le_of_eq h8) hpos
    rw [List.take_append_drop, List.length_singleton] at hword
    have hread := htag.trans hword
    rw [if_neg hshort, takeAt_eq (by simp only; omega)]
    simp only [Option.bind_eq_bind, Option.bind_some]
    rw [Io.putBytes_eq (by exact hpos) h8, Option.bind_some, ← List.append_nil (src.take 8),
      Word.ofByteSlice_append h8]
    simp only [Word.ofByteSlice_nil]
    cases hrest : src.drop 8 with
    | nil =>
      rw [hrest] at hread
      exact ⟨.stop ⟨.needInput, some .needUncompressedCount, _⟩, rfl, .needInput hread rfl rfl trivial⟩
    | cons count rest =>
      rw [hrest] at hread
      have hcount := hread.trans (Reads.bytes [count] rest _ _ (Dec.feed_singleton .rawCount count)
        (Nat.le_refl 1))
      change Reads _ _ ⟨.rawFrom count.toNat, 0⟩ _ at hcount
      by_cases h0 : count.toNat = 0
      · simp only [h0, ne_eq, not_true_eq_false, if_false]
        rw [h0] at hcount
        exact ⟨_, rfl, hcount⟩
      · simp only [ne_eq, h0, not_false_eq_true, if_true]
        obtain ⟨flow, hflow, hfollows⟩ :=
          writeUncompressed_follows ⟨rest, done ++ [Word.ofBytes (src.take 8)], dst.drop 1⟩ count.toNat
        exact ⟨flow, hflow, Follows.trans hcount hfollows⟩

/-- After any other tag. -/
lemma unpackTagged_spec {tag : Byte} (io : Io) (h0 : tag ≠ 0) (hff : tag ≠ 0xff)
    (hdst : io.dst ≠ []) :
    ∃ flow, unpackTagged tag.toNat io = some flow ∧
      Follows .idle ⟨tag :: io.src, io.done, io.dst⟩ flow := by
  obtain ⟨src, done, dst⟩ := io
  have hlt : tag.toNat < 2 ^ 8 := tag.toNat_lt
  have hne : tag.toNat ≠ 0 := fun h => h0 (UInt8.toNat_inj.1 h)
  have hneeds : (Dec.step .idle tag).1.needs = countOnes tag.toNat := by
    rw [Dec.step, if_neg h0, if_neg hff, Dec.needs_enter]
    rfl
  unfold unpackTagged
  simp only
  by_cases hshort : src.length < countOnes tag.toNat
  · obtain ⟨tag', idx', buf', src', hrun, hfilled⟩ :=
      fillTagged_spec 8 src rfl hlt (show Word.null.bytes.drop 0 = List.replicate 8 0 from rfl)
    have hne' : tag' ≠ 0 := fun h => absurd (hfilled.eq_zero_iff.1 h) (Nat.not_le.2 hshort)
    rw [if_pos hshort, PartialTaggedWord.start, hrun]
    cases hfilled with
    | done => exact absurd rfl hne'
    | short _ _ _ hidx hodd hlt' hzero hfill hcount =>
      have hfeed := Dec.feed_idle_tagged h0 hff src
      have hreads := Reads.tag [] done [] (hfeed.trans hfill) hdst (by rw [hneeds]; omega) rfl (Nat.zero_le _) (fun _ => rfl)
      rw [List.append_nil, List.append_nil] at hreads
      refine ⟨.stop ⟨.needInput, some (.partialWord ⟨buf', tag', ⟨idx', hidx⟩⟩), ⟨[], done, dst⟩⟩,
        ?_, .needInput hreads rfl rfl ⟨hodd, hlt', hzero⟩⟩
      simp [WrittenBytes.fromBytes, hidx]
  · obtain ⟨d, dst, rfl⟩ := List.exists_cons_of_ne_nil hdst
    have hinput : (src.take (countOnes tag.toNat)).length = (tagBits 8 tag.toNat).count true := by
      rw [List.length_take, countOnes]
      exact Nat.min_eq_left (Nat.not_lt.1 hshort)
    obtain ⟨out, word, hout, hlen, hfill, hword⟩ := spread_spec [] d.length_bytes hne hlt hinput
    have hfeed := Dec.feed_idle_tagged h0 hff (src.take (countOnes tag.toNat))
    have hreads := Reads.tag (src.drop (countOnes tag.toNat)) done [Word.ofBytes out]
      (hfeed.trans hfill) hdst (by rw [hneeds, hinput]; exact Nat.le_refl _) rfl (by simp)
      (fun hnull => by rw [hword (by rw [hnull d (by simp)]; rfl)]; rfl)
    rw [List.take_append_drop] at hreads
    rw [if_neg hshort, takeAt_eq (by omega)]
    simp only [Option.bind_eq_bind, Option.bind_some, List.head?_cons, hout, Io.put]
    exact ⟨_, rfl, hreads⟩

/-- A turn of the loop. -/
lemma unpackToken_spec {io : Io} (hsrc : io.src ≠ []) (hdst : io.dst ≠ []) :
    ∃ flow, unpackToken io = some flow ∧ Follows .idle io flow := by
  obtain ⟨src, done, dst⟩ := io
  obtain ⟨tag, src, rfl⟩ := List.exists_cons_of_ne_nil hsrc
  unfold unpackToken
  simp only [takeFirst, Option.bind_eq_bind, Option.bind_some]
  by_cases h0 : tag = 0
  · rw [if_pos (by rw [h0]; rfl), h0]
    exact unpackNulls_spec ⟨src, done, dst⟩ hdst
  · have hne0 : tag.toNat ≠ 0x00 := fun h => h0 (UInt8.toNat_inj.1 h)
    rw [if_neg hne0]
    by_cases hff : tag = 0xff
    · rw [if_pos (by rw [hff]; rfl), hff]
      exact unpackFull_spec ⟨src, done, dst⟩ hdst
    · have hneff : tag.toNat ≠ 0xff := fun h => hff (UInt8.toNat_inj.1 h)
      rw [if_neg hneff]
      exact unpackTagged_spec ⟨src, done, dst⟩ h0 hff hdst

/-- The loop does not panic and stops at the position of what it has read. -/
lemma unpackLoop_spec (io : Io) :
    ∃ halt, unpackLoop io = some halt ∧ Reads .idle io (posOf halt.state) halt.io ∧ halt.Ok := by
  induction hlen : io.src.length using Nat.strongRecOn generalizing io with
  | ind n ih =>
    rw [unpackLoop]
    by_cases hsrc : io.src = []
    · rw [if_pos hsrc]
      exact ⟨_, rfl, Reads.refl _ _, fun _ => ⟨hsrc, rfl⟩, by simp, wfState_none⟩
    · rw [if_neg hsrc]
      by_cases hdst : io.dst = []
      · rw [if_pos hdst]
        exact ⟨_, rfl, Reads.refl _ _, by simp, fun _ => ⟨hdst, by simp⟩, wfState_none⟩
      · obtain ⟨flow, hflow, hfollows⟩ := unpackToken_spec hsrc hdst
        rw [if_neg hdst]
        split
        · rename_i h
          rw [hflow] at h
          cases h
        · rename_i halt h
          obtain rfl := Option.mem_unique hflow h
          exact ⟨halt, rfl, hfollows⟩
        · rename_i io' h
          obtain rfl := Option.mem_unique hflow h
          have hshort := length_src_unpackToken h
          obtain ⟨halt, hloop, hreads, hok⟩ := ih io'.src.length (by omega) io' rfl
          exact ⟨halt, hloop, Reads.trans hfollows hreads, hok⟩

namespace Unpacker

/-- Without input, a call does nothing. -/
lemma unpackInner_nil (self : Unpacker) {io : Io} (hsrc : io.src = []) :
    self.unpackInner io = some ⟨.needInput, self.state, io⟩ := if_pos hsrc

/-- **A call of the unpacker** that does not overrun the output does not panic, and stops at the
position of what it has read. -/
theorem unpackInner_spec (self : Unpacker) (io : Io) (hwf : WfState self.state)
    (hsrc : io.src ≠ []) (hover : ¬ Overrun self.state io) :
    ∃ halt, self.unpackInner io = some halt ∧
      Reads (posOf self.state) io (posOf halt.state) halt.io ∧ halt.Ok := by
  obtain ⟨flow, hflow, hfollows⟩ := resume_spec hwf hsrc hover
  rw [unpackInner, if_neg hsrc, hflow]
  cases flow with
  | stop halt => exact ⟨halt, rfl, hfollows⟩
  | go io' =>
    obtain ⟨halt, hloop, hreads, hok⟩ := unpackLoop_spec io'
    exact ⟨halt, hloop, Reads.trans hfollows hreads, hok⟩

/-- A call panics exactly when it finishes a word and there is no output to put it in. -/
theorem unpackInner_eq_none_iff (self : Unpacker) (io : Io) (hwf : WfState self.state) :
    self.unpackInner io = none ↔ io.src ≠ [] ∧ Overrun self.state io := by
  constructor
  · intro h
    have hsrc : io.src ≠ [] := by
      intro hsrc
      rw [unpackInner_nil self hsrc] at h
      cases h
    refine ⟨hsrc, ?_⟩
    by_contra hover
    obtain ⟨halt, hhalt, -⟩ := unpackInner_spec self io hwf hsrc hover
    rw [h] at hhalt
    cases hhalt
  · rintro ⟨hsrc, hover⟩
    rw [unpackInner, if_neg hsrc, resume_eq_none hwf hover]
    rfl

end Unpacker

/-! ### Calls that end between two tokens -/

/-- A state at the position between two tokens is no state. -/
lemma eq_none_of_posOf {state : Option IncompleteState} (hwf : WfState state)
    (hdec : (posOf state).dec = .idle) (howed : (posOf state).owed = 0) : state = none := by
  cases state with
  | none => rfl
  | some state =>
    rw [wfState_some] at hwf
    rw [posOf_some] at hdec howed
    cases state with
    | writingNulls count => exact absurd howed (Nat.pos_iff_ne_zero.1 hwf)
    | writingUncompressed remaining word =>
      cases word with
      | none =>
        rw [IncompleteState.pos, Dec.rawFrom, if_neg (Nat.pos_iff_ne_zero.1 hwf)] at hdec
        cases hdec
      | some word => cases hdec
    | _ => cases hdec

/-- A stop for want of output is not at a count. -/
lemma dec_of_betweenWords {state : Option IncompleteState} {l : List Byte} (hwf : WfState state)
    (hbetween : ∀ s ∈ state, s.BetweenWords) (hsilent : Dec.Silent (posOf state).dec l) :
    (posOf state).dec = .idle ∧ l = [] := by
  generalize hd : (posOf state).dec = d at hsilent
  cases hsilent with
  | idle => exact ⟨rfl, rfl⟩
  | _ =>
    cases state with
    | none => cases hd
    | some state =>
      have hb := hbetween state rfl
      rw [wfState_some] at hwf
      rw [posOf_some] at hd
      cases state with
      | writingNulls count => cases hd
      | writingUncompressed remaining word =>
        cases word with
        | none =>
          rw [IncompleteState.pos, Dec.rawFrom, if_neg (Nat.pos_iff_ne_zero.1 hwf)] at hd
          cases hd
        | some word => exact hb.elim
      | _ => exact hb.elim

/-- A call whose input ends between two tokens, with room for exactly its words, reads and
writes all of them. -/
lemma halt_of_feed_idle {pos : Pos} {io : Io} {halt : Halt} {out : List Word}
    (hreads : Reads pos io (posOf halt.state) halt.io) (hok : halt.Ok)
    (hnull : ∀ w ∈ io.dst, w = Word.null) (hfeed : pos.dec.feed io.src = (.idle, out))
    (hlen : pos.owed + out.length = io.dst.length) :
    halt.state = none ∧
      halt.io = ⟨[], io.done ++ (List.replicate pos.owed Word.null ++ out), []⟩ := by
  obtain ⟨used, new, hreads⟩ := hreads
  have hsrc := hreads.src
  have hdst := hreads.dst
  have hdec := hreads.dec
  have hle := hreads.room
  have hout := hreads.out hnull
  rw [hsrc, Dec.feed_append, hdec] at hfeed
  obtain ⟨hfeed1, hfeed2⟩ := Prod.mk.inj hfeed
  -- all that is to be written: what has been written, what is owed, what is still to be read
  have hall : List.replicate pos.owed Word.null ++ out
      = new ++ (List.replicate (posOf halt.state).owed Word.null
          ++ ((posOf halt.state).dec.feed halt.io.src).2) := by
    rw [← hfeed2, ← List.append_assoc, hout, List.append_assoc]
  have hcount := congrArg List.length hall
  simp only [List.length_append, List.length_replicate] at hcount
  obtain ⟨hsrc', hidle, howed, hnew⟩ : halt.io.src = [] ∧ (posOf halt.state).dec = .idle ∧
      (posOf halt.state).owed = 0 ∧ new.length = io.dst.length := by
    cases hreason : halt.reason with
    | needInput =>
      obtain ⟨hnil, howed⟩ := hok.needInput hreason
      rw [hnil, Dec.feed_nil] at hfeed1 hcount
      simp only [List.length_nil] at hcount
      exact ⟨hnil, hfeed1, howed, by omega⟩
    | needOutput =>
      obtain ⟨hnil, hbetween⟩ := hok.needOutput hreason
      have hnew : new.length = io.dst.length := by
        rw [hnil] at hdst
        have := congrArg List.length hdst
        simp only [List.length_nil, List.length_drop] at this
        omega
      have hnone : ((posOf halt.state).dec.feed halt.io.src).2 = [] :=
        List.eq_nil_of_length_eq_zero (by omega)
      obtain ⟨hidle, hsrc'⟩ := dec_of_betweenWords hok.wf hbetween
        (Dec.silent_of_feed (Prod.ext hfeed1 hnone))
      exact ⟨hsrc', hidle, by omega, hnew⟩
  refine ⟨eq_none_of_posOf hok.wf hidle howed, ?_⟩
  rw [hsrc', Dec.feed_nil, howed] at hall
  simp only [List.replicate_zero, List.append_nil] at hall
  have hio : halt.io = ⟨halt.io.src, halt.io.done, halt.io.dst⟩ := rfl
  rw [hio, hsrc', hreads.done, hdst, hall, hnew, List.drop_length]

end Recapn.Packing

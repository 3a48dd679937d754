/-
# Reading a packed stream in pieces

A packed stream is read with successive calls of `read_exact`.  Between two of them the stream
stands at some point of the packed bytes, having delivered some of the words; `Standing` says
what is known there.  A call can only fail when all bytes have been read and null words are
still owed: `unpack` is not called on an empty buffer, so `read` takes this for a truncated
stream.
-/
import Recapn.Packing.Stream

namespace Recapn.Packing

namespace PackedStream

/-! ## Reading in pieces -/

/-- Successive calls of `read_exact` with buffers of null words of the given lengths: the
contents of the buffers, or the first error. -/
def readAll (self : PackedStream) : List ℕ → Option (Except ErrorKind (List Word) × PackedStream)
  | [] => some (.ok [], self)
  | len :: lens =>
    (self.readExact (List.replicate len Word.null)).bind fun (r, out, self) =>
      match r with
      | .error kind => some (.error kind, self)
      | .ok () => (self.readAll lens).map fun (r, self) => (r.map (out ++ ·), self)

/-- All calls of `read_exact` succeed, together they read `words`, and `finish` succeeds. -/
def Delivers (chunks : List Chunk) (lens : List ℕ) (words : List Word) : Prop :=
  ∃ self self', (new (chunks.map .ok)).readAll lens = some (.ok words, self) ∧
    self.finish = some (.ok (), self')

/-- After `b` of `n` words, the last byte of the input has been read: it is the count of a run of
null words and `b` words end in that run.  When the byte is alone in its buffer, it is only
read for the sake of a word of the run. -/
def EofCut (chunks : List Chunk) (n b : ℕ) : Prop :=
  ∃ pre count, chunks.flatMap Chunk.bytes = pre ++ [count] ∧
    (Dec.feed .idle pre).1 = .nullCount ∧
    (Dec.feed .idle pre).2.length + (if chunks.getLast? = some ⟨count, []⟩ then 1 else 0) ≤ b ∧
    b < n

/-! ## Between two calls -/

/-- A stream over `chunks`, whose first bytes are `packed` and stand for `words`, has delivered
`n` words: `used` are the bytes it has read and `rest` are the buffers that are left. -/
structure Standing (chunks : List Chunk) (packed : List Byte) (words : List Word)
    (reader : PackedStream) (n : ℕ) (used : List Byte) (rest : List Chunk) : Prop where
  wf : WfState reader.unpacker.state
  stream : reader.stream = rest.map .ok
  bytes : chunks.flatMap Chunk.bytes = used ++ rest.flatMap Chunk.bytes
  /-- What has been read are bytes of the words. -/
  prefix_packed : used <+: packed
  dec : (Dec.feed .idle used).1 = (posOf reader.unpacker.state).dec
  out : (Dec.feed .idle used).2
    = words.take n ++ List.replicate (posOf reader.unpacker.state).owed Word.null
  owed : (posOf reader.unpacker.state).owed ≤ Dec.lastRun .idle 0 used
  /-- The first buffer left is the rest of a buffer, and the others are buffers. -/
  aligned : ∀ chunk tail, rest = chunk :: tail →
    ∃ orig, orig :: tail <:+ chunks ∧ chunk.bytes <:+ orig.bytes
  /-- A count is only waited for at the start of a buffer. -/
  count : (posOf reader.unpacker.state).dec = .nullCount → rest <:+ chunks
  /-- A count that is alone in its buffer is read for the sake of a word of its run. -/
  alone : rest = [] → 0 < (posOf reader.unpacker.state).owed →
    ∀ pre last, chunks = pre ++ [⟨last, []⟩] →
      (Dec.feed .idle (pre.flatMap Chunk.bytes)).2.length < n

/-- The bytes in the buffers start with the packing of some words, which one call of the unpacker
reads and writes. -/
structure Packed (chunks : List Chunk) (packed : List Byte) (words : List Word) : Prop where
  bytes : packed <+: chunks.flatMap Chunk.bytes
  feed : Dec.feed .idle packed = (.idle, words)

/-- At a count, nothing is owed. -/
lemma owed_of_nullCount {state : Option IncompleteState} (h : (posOf state).dec = .nullCount) :
    (posOf state).owed = 0 := by
  cases state with
  | none => rfl
  | some state =>
    rw [posOf_some] at h ⊢
    cases state with
    | writingNulls count => cases h
    | writingUncompressed remaining word => cases word <;> rfl
    | _ => rfl

/-- For want of output, the unpacker does not stop at a count. -/
lemma dec_ne_nullCount {halt : Halt} (hok : halt.Ok) (hreason : halt.reason = .needOutput) :
    (posOf halt.state).dec ≠ .nullCount := by
  intro h
  obtain ⟨hidle, -⟩ := dec_of_betweenWords (l := [0]) hok.wf (hok.needOutput hreason).2
    (by rw [h]; exact .nullCount)
  rw [hidle] at h
  cases h

/-- The start of a stream. -/
lemma standing_new (chunks : List Chunk) (packed : List Byte) (words : List Word) :
    Standing chunks packed words (new (chunks.map .ok)) 0 [] chunks where
  wf := wfState_none
  stream := rfl
  bytes := rfl
  prefix_packed := List.nil_prefix
  dec := rfl
  out := by simp [new, Unpacker.new, Pos.idle]
  owed := Nat.le_refl _
  aligned := fun chunk tail h => ⟨chunk, h ▸ List.suffix_refl _, List.suffix_refl _⟩
  count := fun _ => List.suffix_refl _
  alone := fun _ h => absurd h (by simp [new, Unpacker.new, Pos.idle])

namespace Standing

variable {chunks : List Chunk} {packed : List Byte} {words : List Word} {self : PackedStream}
  {n : ℕ} {used : List Byte} {rest : List Chunk}

/-- The rest of the packed bytes brings the decoder to the rest of the words. -/
lemma feed_rest (h : Standing chunks packed words self n used rest)
    (hpacked : Packed chunks packed words) {q : List Byte} (hq : packed = used ++ q) :
    ((posOf self.unpacker.state).dec.feed q).1 = .idle ∧
      words = words.take n ++ List.replicate (posOf self.unpacker.state).owed Word.null
        ++ ((posOf self.unpacker.state).dec.feed q).2 := by
  have hfeed := hpacked.feed
  rw [hq, Dec.feed_append, h.dec, h.out] at hfeed
  obtain ⟨hdec, hout⟩ := Prod.mk.inj hfeed
  exact ⟨hdec, hout.symm⟩

/-- What a call reads are bytes of the words. -/
lemma prefix_of_reading (h : Standing chunks packed words self n used rest)
    (hpacked : Packed chunks packed words) {m : ℕ} (hle : n + m ≤ words.length) {chunk : Chunk}
    {tail : List Chunk} (hrest : rest = chunk :: tail) {pos' : Pos} {io' : Io} {used' : List Byte}
    {new : List Word} (hreading : Reading (posOf self.unpacker.state)
      ⟨chunk.bytes, [], List.replicate m Word.null⟩ pos' io' used' new) :
    used ++ used' <+: packed := by
  obtain ⟨q, hq⟩ := h.prefix_packed
  obtain ⟨left, hleft⟩ := hpacked.bytes
  obtain ⟨hidle, hwords⟩ := h.feed_rest hpacked hq.symm
  have hbytes := h.bytes
  have hsrc : chunk.bytes = used' ++ io'.src := hreading.src
  rw [← hleft, ← hq, hrest, List.flatMap_cons, hsrc, List.append_assoc, List.append_assoc,
    List.append_cancel_left_eq] at hbytes
  rw [← hq, List.prefix_append_right_inj]
  rcases List.append_eq_append_iff.1 hbytes with ⟨v, hv, -⟩ | ⟨v, hv, -⟩
  · -- past the last of these bytes, the unpacker would have opened a token for one more word
    by_cases hnil : v = []
    · exact ⟨[], by rw [hv, hnil]; simp⟩
    · exfalso
      have hfrugal := hreading.frugal q v hv hnil hidle
      have hlen := congrArg List.length hwords
      simp only [List.length_append, List.length_take, List.length_replicate] at hlen hfrugal
      omega
  · exact ⟨v, hv.symm⟩

/-- What a call writes are the next words. -/
lemma words_of_reading (h : Standing chunks packed words self n used rest)
    (hpacked : Packed chunks packed words) (hn : n ≤ words.length) {io io' : Io} {pos' : Pos}
    {used' : List Byte} {new : List Word} (hnull : ∀ w ∈ io.dst, w = Word.null)
    (hreading : Reading (posOf self.unpacker.state) io pos' io' used' new)
    (hpre : used ++ used' <+: packed) :
    new = (words.drop n).take new.length ∧
      (Dec.feed .idle (used ++ used')).2
        = words.take (n + new.length) ++ List.replicate pos'.owed Word.null := by
  obtain ⟨q, hq⟩ := hpre
  have hout : (Dec.feed .idle (used ++ used')).2
      = words.take n ++ new ++ List.replicate pos'.owed Word.null := by
    rw [Dec.feed_append, h.dec, h.out, List.append_assoc, hreading.out hnull, List.append_assoc]
  have hwords : words = words.take n ++ (new ++ (List.replicate pos'.owed Word.null
      ++ (Dec.feed (Dec.feed .idle (used ++ used')).1 q).2)) := by
    have hfeed := congrArg Prod.snd hpacked.feed
    rw [← hq, Dec.feed_append, hout] at hfeed
    simpa using hfeed.symm
  have hlen : (words.take n).length = n := by
    rw [List.length_take]
    omega
  have hnew : new = (words.drop n).take new.length := by
    conv_rhs => rw [hwords, List.drop_left' hlen, List.take_left]
  refine ⟨hnew, ?_⟩
  rw [hout, List.take_add, ← hnew]

/-- The rest of the buffers after a call. -/
lemma consume_reading {chunk : Chunk} (tail : List Chunk) {used' src' : List Byte}
    (hsrc : chunk.bytes = used' ++ src') :
    ∃ rest', BufRead.consume (.ok chunk :: tail.map .ok) (chunk.bytes.length - src'.length)
        = rest'.map .ok ∧
      rest'.flatMap Chunk.bytes = src' ++ tail.flatMap Chunk.bytes ∧
      (src' = [] → rest' = tail) ∧
      ∀ chunk' tail', rest' = chunk' :: tail' →
        (src' = [] ∧ chunk' :: tail' = tail) ∨ (tail' = tail ∧ chunk'.bytes = src') := by
  have hdrop : chunk.bytes.drop (chunk.bytes.length - src'.length) = src' := by
    rw [hsrc, List.length_append, Nat.add_sub_cancel, List.drop_left]
  cases src' with
  | nil =>
    refine ⟨tail, ?_, rfl, fun _ => rfl, fun chunk' tail' h => Or.inl ⟨rfl, h.symm⟩⟩
    exact BufRead.consume_all chunk _ (Nat.le_refl _)
  | cons first src' =>
    refine ⟨⟨first, src'⟩ :: tail, ?_, rfl, fun h => absurd h (List.cons_ne_nil _ _),
      fun chunk' tail' h => ?_⟩
    · rw [BufRead.consume, hdrop]
      rfl
    · cases h
      exact Or.inr ⟨rfl, rfl⟩

/-- The buffers left after a call are still those of the stream. -/
lemma aligned_of_reading {chunk : Chunk} {tail rest' : List Chunk} {used' src' : List Byte}
    (h : Standing chunks packed words self n used (chunk :: tail))
    (hsrc : chunk.bytes = used' ++ src')
    (hcases : ∀ chunk' tail', rest' = chunk' :: tail' →
      (src' = [] ∧ chunk' :: tail' = tail) ∨ (tail' = tail ∧ chunk'.bytes = src')) :
    ∀ chunk' tail', rest' = chunk' :: tail' →
      ∃ orig, orig :: tail' <:+ chunks ∧ chunk'.bytes <:+ orig.bytes := by
  intro chunk' tail' heq
  obtain ⟨orig, hsuffix, hbytes⟩ := h.aligned chunk tail rfl
  rcases hcases chunk' tail' heq with ⟨-, rfl⟩ | ⟨rfl, hchunk'⟩
  · exact ⟨chunk', (List.suffix_cons orig _).trans hsuffix, List.suffix_refl _⟩
  · refine ⟨orig, hsuffix, ?_⟩
    rw [hchunk']
    exact (hsrc ▸ List.suffix_append used' src').trans hbytes

/-- A last buffer of one byte, the count of a run, is read for the sake of a word of the run. -/
lemma alone_of_reading {chunk : Chunk}
    (h : Standing chunks packed words self n used [chunk]) {io io' : Io} {pos' : Pos}
    {new : List Word} (hnew : new ≠ []) (hreading : Reading (posOf self.unpacker.state) io pos' io'
      chunk.bytes new) (howed : 0 < pos'.owed) {pre : List Chunk} {last : Byte}
    (hlast : chunks = pre ++ [⟨last, []⟩]) :
    (Dec.feed .idle (pre.flatMap Chunk.bytes)).2.length < n + new.length := by
  have hpos := List.length_pos_of_ne_nil hnew
  -- the buffer is the last byte
  obtain ⟨orig, hsuffix, hbytes⟩ := h.aligned chunk [] rfl
  obtain rfl : orig = ⟨last, []⟩ := by
    obtain ⟨l, hl⟩ := hsuffix
    rw [hlast] at hl
    exact List.singleton_inj.1 (List.append_inj' hl rfl).2
  have hchunk : chunk.bytes = [last] := by
    obtain ⟨l, hl⟩ := hbytes
    have hlen := congrArg List.length hl
    have hpos := chunk.length_bytes_pos
    simp only [List.length_append, Chunk.bytes, List.length_cons, List.length_nil] at hlen hpos
    obtain rfl : l = [] := List.eq_nil_of_length_eq_zero (by omega)
    exact hl
  -- it is a count, and nothing is owed before it
  have hrun := hreading.owed
  rw [hchunk] at hrun
  have hcount : (posOf self.unpacker.state).dec = .nullCount := by
    by_contra hne
    simp only [Dec.lastRun, if_neg hne] at hrun
    omega
  have hused : used = pre.flatMap Chunk.bytes := by
    have hall := h.bytes
    rw [hlast] at hall
    simp only [List.flatMap_append, List.flatMap_cons, List.flatMap_nil, List.append_nil,
      hchunk] at hall
    exact (List.append_left_injective _ hall).symm
  rw [← hused, h.out, owed_of_nullCount hcount]
  simp only [List.replicate_zero, List.append_nil, List.length_take]
  omega

/-- One call of the unpacker. -/
lemma unpack {chunk : Chunk} {tail : List Chunk}
    (h : Standing chunks packed words self n used (chunk :: tail))
    (hpacked : Packed chunks packed words) {m : ℕ} (hm : 0 < m) (hle : n + m ≤ words.length) :
    ∃ result k unpacker' used' rest',
      self.unpacker.unpack chunk.bytes (List.replicate m Word.null)
        = some (result, (words.drop n).take k ++ List.replicate (m - k) Word.null, unpacker') ∧
      result.wordsWritten = k ∧ k ≤ m ∧
      BufRead.consume self.stream result.bytesRead = rest'.map .ok ∧
      Standing chunks packed words ⟨unpacker', rest'.map .ok⟩ (n + k) used' rest' ∧
      (result.reason = .needInput → rest' = tail ∧ (posOf unpacker'.state).owed = 0) ∧
      (result.reason = .needOutput → k = m) := by
  have hnull : ∀ w ∈ List.replicate m Word.null, w = Word.null :=
    fun w hw => List.eq_of_mem_replicate hw
  have hne : List.replicate m Word.null ≠ [] := by
    intro h
    have := congrArg List.length h
    simp only [List.length_replicate, List.length_nil] at this
    omega
  obtain ⟨halt, hhalt, ⟨used', new, hreading⟩, hok⟩ := Unpacker.unpackInner_spec
    self.unpacker ⟨chunk.bytes, [], List.replicate m Word.null⟩ h.wf chunk.bytes_ne_nil
    (fun hover => hne hover.1)
  have hpre := h.prefix_of_reading hpacked hle rfl hreading
  obtain ⟨hnew, hout⟩ := h.words_of_reading hpacked (by omega) hnull hreading hpre
  have hsrc : chunk.bytes = used' ++ halt.io.src := hreading.src
  have hdone : halt.io.done = new := by simpa using hreading.done
  have hdst : halt.io.dst = List.replicate (m - new.length) Word.null := by
    simpa using hreading.dst
  have hroom : new.length ≤ m := by simpa using hreading.room
  have hfull : halt.reason = .needOutput → new.length = m := by
    intro hreason
    have hnil := congrArg List.length (hok.needOutput hreason).1
    rw [hdst, List.length_replicate, List.length_nil] at hnil
    omega
  obtain ⟨rest', hconsume, hrest', hnil, hcases⟩ := consume_reading tail hsrc
  refine ⟨⟨chunk.bytes.length - halt.io.src.length, new.length, halt.reason⟩, new.length,
    ⟨halt.state⟩, used ++ used', rest', ?_, rfl, hroom, ?_, ?_, ?_, hfull⟩
  · rw [Unpacker.unpack, hhalt, ← hnew]
    simp only [Option.bind_eq_bind, Option.bind_some, hdone, hdst, List.length_replicate,
      Nat.sub_sub_self hroom]
  · rw [h.stream, List.map_cons, hconsume]
  · refine ⟨hok.wf, rfl, ?_, hpre, ?_, hout, ?_, h.aligned_of_reading hsrc hcases,
      fun hdec => ?_, fun hempty howed pre last hlast => ?_⟩
    · rw [h.bytes, List.flatMap_cons, hsrc, hrest', List.append_assoc, List.append_assoc]
    · rw [Dec.feed_append, h.dec, hreading.dec]
    · rw [Dec.lastRun_append, h.dec]
      exact Nat.le_trans hreading.owed (Dec.lastRun_mono h.owed _ _)
    · obtain ⟨orig, hsuffix, -⟩ := h.aligned chunk tail rfl
      cases hreason : halt.reason with
      | needInput =>
        rw [hnil (hok.needInput hreason).1]
        exact (List.suffix_cons orig _).trans hsuffix
      | needOutput => exact absurd hdec (dec_ne_nullCount hok hreason)
    · have hreason : halt.reason = .needOutput := by
        cases hreason : halt.reason with
        | needInput => exact absurd howed (by rw [(hok.needInput hreason).2]; simp)
        | needOutput => rfl
      have hsrc' : halt.io.src = [] := by
        rw [hempty, List.flatMap_nil] at hrest'
        exact (List.append_eq_nil_iff.1 hrest'.symm).1
      rw [hnil hsrc'] at hempty
      subst hempty
      rw [hsrc', List.append_nil] at hsrc
      rw [← hsrc] at hreading
      exact h.alone_of_reading (fun hnil => by
        rw [← hfull hreason, hnil] at hm
        cases hm) hreading howed hlast
  · exact fun hreason => ⟨hnil (hok.needInput hreason).1, (hok.needInput hreason).2⟩

/-- Where no null word is owed, words that have not been delivered are still to be read. -/
lemma rest_ne_nil (h : Standing chunks packed words self n used rest)
    (hpacked : Packed chunks packed words) (hn : n < words.length)
    (howed : (posOf self.unpacker.state).owed = 0) : rest ≠ [] := by
  rintro rfl
  obtain ⟨q, hq⟩ := h.prefix_packed
  obtain ⟨left, hleft⟩ := hpacked.bytes
  have hbytes := h.bytes
  rw [← hleft, ← hq, List.flatMap_nil, List.append_assoc] at hbytes
  obtain rfl := (List.append_eq_nil_iff.1 (List.append_cancel_left hbytes)).1
  have hlen := congrArg List.length (h.feed_rest hpacked hq.symm).2
  simp only [howed, Dec.feed_nil, List.append_nil, List.replicate_zero, List.length_take] at hlen
  omega

/-- A read, with input left. -/
lemma readLoop (h : Standing chunks packed words self n used rest)
    (hpacked : Packed chunks packed words) (hrest : rest ≠ []) {m : ℕ} (hm : 0 < m)
    (hle : n + m ≤ words.length) :
    ∃ k self' used' rest', 0 < k ∧ k ≤ m ∧
      self.readLoop (List.replicate m Word.null)
        = some (.ok k, (words.drop n).take k ++ List.replicate (m - k) Word.null, self') ∧
      Standing chunks packed words self' (n + k) used' rest' ∧
      (k < m → (posOf self'.unpacker.state).owed = 0) := by
  induction rest generalizing self used with
  | nil => exact absurd rfl hrest
  | cons chunk tail ih =>
    obtain ⟨result, k, unpacker', used', rest', hunpack, hk, hkm, hconsume, hstanding, hinput,
      houtput⟩ := h.unpack hpacked hm hle
    obtain ⟨unpacker, stream⟩ := self
    obtain rfl : stream = _ := h.stream
    rw [List.map_cons, readLoop_chunk, hunpack, Option.bind_some]
    simp only
    by_cases hagain : result.reason = .needInput ∧ result.wordsWritten = 0
    · -- nothing was written, and the next buffer is looked at
      obtain ⟨rfl, howed⟩ := hinput hagain.1
      obtain rfl : k = 0 := hk.symm.trans hagain.2
      rw [if_pos hagain]
      exact ih hstanding (hstanding.rest_ne_nil hpacked (by omega) howed)
    · rw [if_neg hagain, hk]
      refine ⟨k, _, used', rest', ?_, hkm, ?_, hstanding, fun hlt => ?_⟩
      · cases hreason : result.reason with
        | needInput =>
          rw [hk] at hagain
          exact Nat.pos_of_ne_zero fun h0 => hagain ⟨hreason, h0⟩
        | needOutput => rw [houtput hreason]; exact hm
      · rw [List.map_cons] at hconsume
        rw [hconsume]
      · cases hreason : result.reason with
        | needInput => exact (hinput hreason).2
        | needOutput => exact absurd (houtput hreason) (Nat.ne_of_lt hlt)

/-- A read at the end of the input, with null words owed. -/
lemma readLoop_eof (h : Standing chunks packed words self n used [])
    (hpacked : Packed chunks packed words) (hn : n < words.length) (out : List Word) :
    self.readLoop out = some (.error .unexpectedEof, out, self) := by
  have hstate : self.unpacker.state ≠ none := by
    intro hstate
    exact h.rest_ne_nil hpacked hn (by rw [hstate]; rfl) rfl
  obtain ⟨unpacker, stream⟩ := self
  obtain rfl : stream = _ := h.stream
  rw [List.map_nil, readLoop_nil]
  split
  · rename_i hfinish
    exact absurd (Unpacker.finish_eq_ok_iff.1 hfinish) hstate
  · rfl

/-- A call of `read_exact`, with input left. -/
lemma readExact (h : Standing chunks packed words self n used rest)
    (hpacked : Packed chunks packed words) (hrest : rest ≠ []) {m : ℕ} (hm : 0 < m)
    (hle : n + m ≤ words.length) :
    ∃ self' used' rest', self.readExact (List.replicate m Word.null)
        = some (.ok (), (words.drop n).take m, self') ∧
      Standing chunks packed words self' (n + m) used' rest' := by
  induction m using Nat.strongRecOn generalizing self n used rest with
  | ind m ih =>
    obtain ⟨k, self', used', rest', hk, hkm, hread, hstanding, howed⟩ :=
      h.readLoop hpacked hrest hm hle
    have hne : List.replicate m Word.null ≠ [] := by
      rw [← List.length_pos_iff, List.length_replicate]
      exact hm
    have htake : ((words.drop n).take k).length = k := by
      rw [List.length_take, List.length_drop]
      omega
    have hfirst : self.readExact (List.replicate m Word.null)
        = (self'.readExact (List.replicate (m - k) Word.null)).map
            fun (r, rest, self'') => (r, (words.drop n).take k ++ rest, self'') := by
      rw [PackedStream.readExact, dif_neg hne]
      have hread' : self.read (List.replicate m Word.null) = _ := (if_neg hne).trans hread
      split
      · rename_i heq
        rw [hread'] at heq
        cases heq
      · rename_i heq
        rw [hread'] at heq
        cases heq
        rw [dif_neg (by omega), if_pos (by rw [List.length_append, htake]; omega),
          List.drop_left' htake, List.take_left' htake]
      · rename_i heq
        rw [hread'] at heq
        cases heq
    by_cases hfull : k = m
    · subst hfull
      refine ⟨self', used', rest', ?_, hstanding⟩
      rw [hfirst, Nat.sub_self, List.replicate_zero, PackedStream.readExact, dif_pos rfl]
      simp
    · obtain ⟨self'', used'', rest'', hmore, hstanding'⟩ := ih (m - k) (by omega) hstanding
        (hstanding.rest_ne_nil hpacked (by omega) (howed (by omega))) (by omega) (by omega)
      refine ⟨self'', used'', rest'', ?_, ?_⟩
      · rw [hfirst, hmore, Option.map_some]
        have hsplit : (words.drop n).take m
            = (words.drop n).take k ++ (words.drop (n + k)).take (m - k) := by
          rw [← List.drop_drop, ← List.take_add, Nat.add_sub_cancel' hkm]
        rw [hsplit]
      · rwa [Nat.add_assoc, Nat.add_sub_cancel' hkm] at hstanding'

/-- Where the input has been read to its end, a cut is. -/
lemma eofCut_of_rest_eq_nil (h : Standing chunks packed words self n used [])
    (hpacked : Packed chunks packed words) (hn : n < words.length) :
    EofCut chunks words.length n := by
  have howed : 0 < (posOf self.unpacker.state).owed :=
    Nat.pos_of_ne_zero fun h0 => h.rest_ne_nil hpacked hn h0 rfl
  have hbytes := h.bytes
  rw [List.flatMap_nil, List.append_nil] at hbytes
  obtain ⟨pre, count, rfl⟩ : ∃ pre count, used = pre ++ [count] := by
    rcases List.eq_nil_or_concat used with rfl | ⟨pre, count, rfl⟩
    · exact absurd (Nat.lt_of_lt_of_le howed h.owed) (Nat.lt_irrefl 0)
    · exact ⟨pre, count, by simp⟩
  have hrun := h.owed
  rw [Dec.lastRun_append] at hrun
  have hdec : (Dec.feed .idle pre).1 = .nullCount := by
    by_contra hne
    simp only [Dec.lastRun, if_neg hne] at hrun
    omega
  simp only [Dec.lastRun, if_pos hdec] at hrun
  have hout := congrArg List.length h.out
  rw [Dec.feed_append, hdec] at hout
  simp only [Dec.feed_singleton, Dec.step, List.length_append, List.length_replicate,
    List.length_take] at hout
  refine ⟨pre, count, hbytes, hdec, ?_, hn⟩
  split
  · rename_i hlast
    obtain ⟨chunks', rfl⟩ := List.getLast?_eq_some_iff.1 hlast
    have halone := h.alone rfl howed chunks' count rfl
    simp only [List.flatMap_append, List.flatMap_cons, List.flatMap_nil, List.append_nil] at hbytes
    have hpre : chunks'.flatMap Chunk.bytes = pre := List.append_left_injective [count] hbytes
    rw [hpre] at halone
    exact halone
  · omega

/-- At a cut, the input has been read to its end. -/
lemma rest_eq_nil_of_eofCut (h : Standing chunks packed words self n used rest)
    (hn : n < words.length) (hcut : EofCut chunks words.length n) : rest = [] := by
  by_contra hrest
  obtain ⟨pre, count, hbytes, hdec, hle, -⟩ := hcut
  -- the count has not been read
  obtain ⟨x, hx⟩ : ∃ x, rest.flatMap Chunk.bytes = x ++ [count] := by
    have hne : rest.flatMap Chunk.bytes ≠ [] := by
      obtain ⟨chunk, tail, rfl⟩ := List.exists_cons_of_ne_nil hrest
      simp [Chunk.bytes]
    obtain ⟨x, c, hx⟩ := (List.eq_nil_or_concat _).resolve_left hne
    rw [List.concat_eq_append] at hx
    have hall := h.bytes
    rw [hbytes, hx, ← List.append_assoc] at hall
    have hc := List.singleton_inj.1 (List.append_inj' hall rfl).2
    exact ⟨x, by rw [hx, hc]⟩
  have hpre : pre = used ++ x := by
    have hall := h.bytes
    rw [hbytes, hx, ← List.append_assoc] at hall
    exact (List.append_inj' hall rfl).1
  rw [hpre, Dec.feed_append, h.dec, h.out] at hdec hle
  simp only [List.length_append, List.length_take, List.length_replicate] at hdec hle
  -- so no word has been written for what is left before it
  have hnil : ((posOf self.unpacker.state).dec.feed x).2 = [] :=
    List.eq_nil_of_length_eq_zero (by omega)
  obtain ⟨hcount, rfl⟩ := Dec.eq_nullCount_of_feed (Prod.ext hdec hnil)
  -- and the unpacker waits for it at the start of a buffer
  have hsuffix := h.count hcount
  obtain ⟨⟨first, l⟩, tail, rfl⟩ := List.exists_cons_of_ne_nil hrest
  rw [List.flatMap_cons, List.nil_append, Chunk.bytes, List.cons_append, List.cons.injEq,
    List.append_eq_nil_iff] at hx
  obtain ⟨rfl, rfl, htail⟩ := hx
  obtain rfl : tail = [] := by
    cases tail with
    | nil => rfl
    | cons c tail => simp [Chunk.bytes] at htail
  obtain ⟨chunks', rfl⟩ := hsuffix
  rw [if_pos (by simp)] at hle
  omega

/-- A call of `read_exact` that does not start at a cut. -/
lemma readExact_of_not_cut (h : Standing chunks packed words self n used rest)
    (hpacked : Packed chunks packed words) {m : ℕ} (hle : n + m ≤ words.length)
    (hcut : ¬ EofCut chunks words.length n) :
    ∃ self' used' rest', self.readExact (List.replicate m Word.null)
        = some (.ok (), (words.drop n).take m, self') ∧
      Standing chunks packed words self' (n + m) used' rest' := by
  rcases Nat.eq_zero_or_pos m with rfl | hm
  · refine ⟨self, used, rest, ?_, h⟩
    rw [List.replicate_zero, PackedStream.readExact, dif_pos rfl, List.take_zero]
  · refine h.readExact hpacked ?_ hm hle
    rintro rfl
    exact hcut (h.eofCut_of_rest_eq_nil hpacked (by omega))

end Standing

/-- Before a cut, all packed bytes but a last count have been read. -/
lemma EofCut.packed {chunks : List Chunk} {packed left : List Byte} {words : List Word} {b : ℕ}
    (hcut : EofCut chunks words.length b) (hpacked : Packed chunks packed words)
    (hleft : packed ++ left = chunks.flatMap Chunk.bytes) :
    ∃ pre count, packed = pre ++ [count] ∧ (Dec.feed .idle pre).1 = .nullCount ∧
      (Dec.feed .idle pre).2.length ≤ b := by
  obtain ⟨pre, count, hbytes, hdec, hle, hlt⟩ := hcut
  rcases List.eq_nil_or_concat left with rfl | ⟨init, last, rfl⟩
  · rw [List.append_nil] at hleft
    exact ⟨pre, count, hleft.trans hbytes, hdec, Nat.le_of_add_right_le hle⟩
  · -- with more input behind the packed bytes, all words would have been written
    exfalso
    rw [hbytes, List.concat_eq_append, ← List.append_assoc] at hleft
    rw [← (List.append_inj' hleft rfl).1, Dec.feed_append, hpacked.feed, List.length_append] at hle
    exact absurd (Nat.le_of_add_right_le (Nat.le_of_add_right_le hle)) (Nat.not_le.2 hlt)

/-! ## At the end of the words -/

/-- Between two tokens, `finish` has nothing to complain about. -/
lemma finish_idle (chunks : List Chunk) :
    finish ⟨⟨none⟩, chunks.map .ok⟩ = some (.ok (), ⟨⟨none⟩, chunks.map .ok⟩) := by
  cases chunks with
  | nil => exact finish_nil ⟨none⟩
  | cons chunk chunks =>
    have hunpack : (Unpacker.mk none).unpackInner ⟨chunk.bytes, [], []⟩
        = some ⟨.needOutput, none, ⟨chunk.bytes, [], []⟩⟩ := by
      rw [Unpacker.unpackInner, if_neg chunk.bytes_ne_nil]
      exact (unpackLoop_no_output _ _).trans (by rw [if_neg chunk.bytes_ne_nil])
    rw [List.map_cons, finish_chunk, Unpacker.unpack, hunpack]
    simp only [Option.bind_eq_bind, Option.bind_some, Nat.sub_self]
    rfl

/-- Nor does it at a count that is zero, which it takes from the input. -/
lemma finish_count {state : IncompleteState} {chunk : Chunk} {chunks : List Chunk}
    (hresume : resume (some state) ⟨chunk.bytes, [], []⟩ = some (.go ⟨chunk.rest, [], []⟩)) :
    ∃ (self' : PackedStream) (rest' : List Chunk), finish ⟨⟨some state⟩, (chunk :: chunks).map .ok⟩ = some (.ok (), self') ∧
      self'.stream = rest'.map .ok ∧
      rest'.flatMap Chunk.bytes = chunk.rest ++ chunks.flatMap Chunk.bytes := by
  have hunpack : (Unpacker.mk (some state)).unpackInner ⟨chunk.bytes, [], []⟩
      = some ⟨if chunk.rest = [] then .needInput else .needOutput, none, ⟨chunk.rest, [], []⟩⟩ := by
    rw [Unpacker.unpackInner, if_neg chunk.bytes_ne_nil, hresume]
    exact unpackLoop_no_output _ _
  rw [List.map_cons, finish_chunk, Unpacker.unpack, hunpack]
  by_cases hrest : chunk.rest = []
  · simp only [Option.bind_eq_bind, Option.bind_some, if_pos hrest]
    exact ⟨_, chunks, finish_idle chunks, rfl, by rw [hrest, List.nil_append]⟩
  · simp only [Option.bind_eq_bind, Option.bind_some, if_neg hrest]
    have hfirst : chunk.bytes = [chunk.first] ++ chunk.rest := rfl
    obtain ⟨rest', hconsume, hbytes, -, -⟩ := Standing.consume_reading chunks hfirst
    exact ⟨_, rest', rfl, hconsume, hbytes⟩

/-- When all words have been delivered, `finish` succeeds and leaves what follows the packed
bytes. -/
lemma Standing.finish {chunks : List Chunk} {packed left : List Byte} {words : List Word}
    {self : PackedStream} {used : List Byte} {rest : List Chunk}
    (h : Standing chunks packed words self words.length used rest)
    (hpacked : Packed chunks packed words) (hleft : packed ++ left = chunks.flatMap Chunk.bytes) :
    ∃ (self' : PackedStream) (rest' : List Chunk), self.finish = some (.ok (), self') ∧
      self'.stream = rest'.map .ok ∧ rest'.flatMap Chunk.bytes = left := by
  obtain ⟨q, hq⟩ := h.prefix_packed
  obtain ⟨hidle, hwords⟩ := h.feed_rest hpacked hq.symm
  have hlen := congrArg List.length hwords
  simp only [List.take_length, List.length_append, List.length_replicate] at hlen
  have howed : (posOf self.unpacker.state).owed = 0 := by omega
  have hnil : ((posOf self.unpacker.state).dec.feed q).2 = [] :=
    List.eq_nil_of_length_eq_zero (by omega)
  have hrest : rest.flatMap Chunk.bytes = q ++ left := by
    have hbytes := h.bytes
    rw [← hleft, ← hq, List.append_assoc] at hbytes
    exact (List.append_cancel_left hbytes).symm
  have hwf := h.wf
  have hsilent := Dec.silent_of_feed (Prod.ext hidle hnil)
  obtain ⟨⟨state⟩, stream⟩ := self
  obtain rfl : stream = _ := h.stream
  simp only at hsilent howed hwf
  generalize hd : (posOf state).dec = d at hsilent
  cases hsilent with
  | idle =>
    obtain rfl := eq_none_of_posOf hwf hd howed
    exact ⟨_, rest, finish_idle rest, rfl, hrest⟩
  | nullCount =>
    obtain ⟨⟨first, l⟩, tail, rfl⟩ := List.exists_cons_of_ne_nil
      (by rintro rfl; simp at hrest : rest ≠ [])
    rw [List.flatMap_cons, Chunk.bytes, List.cons_append, List.cons_append, List.cons.injEq] at hrest
    obtain ⟨rfl, hrest⟩ := hrest
    obtain rfl : state = some .needNullCount := by
      rcases state with _ | state
      · cases hd
      · cases state with
        | writingUncompressed remaining word =>
          cases word with
          | none =>
            rw [posOf_some, IncompleteState.pos, Dec.rawFrom] at hd
            split at hd <;> cases hd
          | some word => cases hd
        | needNullCount => rfl
        | _ => cases hd
    obtain ⟨self', rest', hfinish, hstream, hbytes⟩ :=
      @finish_count .needNullCount ⟨0, l⟩ tail rfl
    exact ⟨self', rest', hfinish, hstream, hbytes.trans hrest⟩
  | rawCount =>
    obtain ⟨⟨first, l⟩, tail, rfl⟩ := List.exists_cons_of_ne_nil
      (by rintro rfl; simp at hrest : rest ≠ [])
    rw [List.flatMap_cons, Chunk.bytes, List.cons_append, List.cons_append, List.cons.injEq] at hrest
    obtain ⟨rfl, hrest⟩ := hrest
    obtain rfl : state = some .needUncompressedCount := by
      rcases state with _ | state
      · cases hd
      · cases state with
        | writingUncompressed remaining word =>
          cases word with
          | none =>
            rw [posOf_some, IncompleteState.pos, Dec.rawFrom] at hd
            split at hd <;> cases hd
          | some word => cases hd
        | needUncompressedCount => rfl
        | _ => cases hd
    have hresume : resume (some .needUncompressedCount) ⟨Chunk.bytes ⟨0, l⟩, [], []⟩
        = some (.go ⟨l, [], []⟩) := by
      have hgo := writeUncompressed_go ⟨l, [], []⟩ 0 (Nat.zero_le _) (Nat.zero_le _)
      simpa [resume, takeFirst, Chunk.bytes] using hgo
    obtain ⟨self', rest', hfinish, hstream, hbytes⟩ :=
      @finish_count .needUncompressedCount ⟨0, l⟩ tail hresume
    exact ⟨self', rest', hfinish, hstream, hbytes.trans hrest⟩

/-! ## Reading all words -/

/-- A call starts at the beginning or after the first length. -/
lemma exists_split_cons {len : ℕ} {lens : List ℕ} {p : ℕ → Prop} :
    (∃ ls ms, len :: lens = ls ++ ms ∧ p ls.sum) ↔
      p 0 ∨ ∃ ls ms, lens = ls ++ ms ∧ p (len + ls.sum) := by
  constructor
  · rintro ⟨ls, ms, heq, hp⟩
    cases ls with
    | nil => exact Or.inl hp
    | cons l ls =>
      rw [List.cons_append, List.cons.injEq] at heq
      obtain ⟨rfl, rfl⟩ := heq
      exact Or.inr ⟨ls, ms, rfl, by simpa using hp⟩
  · rintro (hp | ⟨ls, ms, rfl, hp⟩)
    · exact ⟨[], _, rfl, hp⟩
    · exact ⟨len :: ls, ms, rfl, by simpa using hp⟩

/-- The calls after one that succeeds. -/
lemma readAll_cons_ok {self self' : PackedStream} {len : ℕ} {out : List Word} (lens : List ℕ)
    (h : self.readExact (List.replicate len Word.null) = some (.ok (), out, self')) :
    self.readAll (len :: lens)
      = (self'.readAll lens).map fun (r, self) => (r.map (out ++ ·), self) := by
  rw [readAll, h]
  rfl

/-- The calls that follow read the words that follow. -/
lemma readAll_cons_iff {self self' : PackedStream} {len : ℕ} {out words : List Word}
    (lens : List ℕ)
    (h : self.readExact (List.replicate len Word.null) = some (.ok (), out, self')) :
    (∃ s s', self.readAll (len :: lens) = some (.ok (out ++ words), s) ∧
      s.finish = some (.ok (), s')) ↔
    ∃ s s', self'.readAll lens = some (.ok words, s) ∧ s.finish = some (.ok (), s') := by
  rw [readAll_cons_ok lens h]
  constructor
  · rintro ⟨s, s', hread, hfinish⟩
    obtain ⟨⟨r, s₁⟩, hr, heq⟩ := Option.map_eq_some_iff.1 hread
    obtain ⟨hr', rfl⟩ := Prod.mk.inj heq
    cases r with
    | error kind => cases hr'
    | ok rest =>
      have hwords : rest = words := List.append_cancel_left (Except.ok.inj hr')
      rw [hwords] at hr
      exact ⟨s₁, s', hr, hfinish⟩
  · rintro ⟨s, s', hread, hfinish⟩
    exact ⟨s, s', by rw [hread]; rfl, hfinish⟩

/-- From where the stream stands, the calls deliver the rest of the words exactly when none of
them starts at a cut. -/
lemma readAll_standing {chunks : List Chunk} {packed : List Byte} {words : List Word}
    (hpacked : Packed chunks packed words) (lens : List ℕ) {self : PackedStream} {n : ℕ}
    {used : List Byte} {rest : List Chunk} (h : Standing chunks packed words self n used rest)
    (hlens : n + lens.sum = words.length) :
    (∃ s s', self.readAll lens = some (.ok (words.drop n), s) ∧ s.finish = some (.ok (), s')) ↔
      ¬ ∃ ls ms, lens = ls ++ ms ∧ EofCut chunks words.length (n + ls.sum) := by
  induction lens generalizing self n used rest with
  | nil =>
    obtain rfl : n = words.length := by simpa using hlens
    obtain ⟨left, hleft⟩ := hpacked.bytes
    obtain ⟨self', -, hfinish, -⟩ := h.finish hpacked hleft
    have hcut : ¬ EofCut chunks words.length words.length := by
      rintro ⟨pre, count, -, -, -, hlt⟩
      exact absurd hlt (Nat.lt_irrefl _)
    refine iff_of_true ⟨self, self', by rw [readAll, List.drop_length], hfinish⟩ ?_
    rintro ⟨ls, ms, heq, hc⟩
    obtain ⟨rfl, -⟩ := List.append_eq_nil_iff.1 heq.symm
    exact hcut hc
  | cons len lens ih =>
    rw [List.sum_cons] at hlens
    rw [exists_split_cons (p := fun k => EofCut chunks words.length (n + k))]
    simp only [← Nat.add_assoc, Nat.add_zero]
    by_cases hzero : len = 0
    · subst hzero
      have hread : self.readExact (List.replicate 0 Word.null) = some (.ok (), [], self) := by
        rw [List.replicate_zero, readExact, dif_pos rfl]
      have hiff := ih h (by omega)
      rw [← List.nil_append (words.drop n), readAll_cons_iff lens hread, hiff]
      refine not_congr ⟨Or.inr, ?_⟩
      rintro (hcut | hlater)
      · exact ⟨[], lens, rfl, hcut⟩
      · exact hlater
    · have hn : n < words.length := by omega
      have hne : List.replicate len Word.null ≠ [] := by
        rw [← List.length_pos_iff, List.length_replicate]
        omega
      by_cases hrest : rest = []
      · subst hrest
        refine iff_of_false ?_ fun hnot => hnot (Or.inl (h.eofCut_of_rest_eq_nil hpacked hn))
        rintro ⟨s, s', hread, -⟩
        have heof : self.read (List.replicate len Word.null)
            = some (.error .unexpectedEof, List.replicate len Word.null, self) :=
          (if_neg hne).trans (h.readLoop_eof hpacked hn _)
        have hexact : self.readExact (List.replicate len Word.null)
            = some (.error .unexpectedEof, List.replicate len Word.null, self) := by
          rw [readExact, dif_neg hne]
          split
          · rename_i heq
            rw [heof] at heq
            cases heq
          · rename_i heq
            rw [heof] at heq
            cases heq
          · rename_i heq
            rw [heof] at heq
            cases heq
            rfl
        rw [readAll, hexact] at hread
        cases hread
      · obtain ⟨self', used', rest', hread, hstanding⟩ :=
          h.readExact hpacked hrest (Nat.pos_of_ne_zero hzero) (by omega : n + len ≤ words.length)
        have hcut : ¬ EofCut chunks words.length n :=
          fun hcut => hrest (h.rest_eq_nil_of_eofCut hn hcut)
        have hsplit : words.drop n = (words.drop n).take len ++ words.drop (n + len) := by
          rw [← List.drop_drop, List.take_append_drop]
        rw [hsplit, readAll_cons_iff lens hread, ih hstanding (by omega)]
        refine not_congr ⟨Or.inr, ?_⟩
        rintro (hc | hlater)
        · exact absurd hc hcut
        · exact hlater

/-- One call of the unpacker that fills its output and leaves nothing unfinished. -/
lemma packed_of_unpack {chunks : List Chunk} {n : ℕ} {words : List Word} {result : UnpackResult}
    {unpacker : Unpacker} (hunpack : Unpacker.new.unpack (chunks.flatMap Chunk.bytes)
      (List.replicate n Word.null) = some (result, words, unpacker))
    (hwords : result.wordsWritten = n) (hfinish : unpacker.finish = .ok ()) :
    words.length = n ∧ ∃ packed, Packed chunks packed words := by
  have hlen : words.length = n := by
    rw [(Unpacker.unpack_sound hunpack).1, List.length_replicate]
  refine ⟨hlen, ?_⟩
  by_cases hsrc : chunks.flatMap Chunk.bytes = []
  · rw [Unpacker.unpack, Unpacker.unpackInner_nil _ hsrc] at hunpack
    cases hunpack
    have hn : n = 0 := by simpa using hwords.symm
    subst hn
    exact ⟨[], List.nil_prefix, rfl⟩
  · have hnull : ∀ w ∈ List.replicate n Word.null, w = Word.null :=
      fun w hw => List.eq_of_mem_replicate hw
    obtain ⟨halt, hhalt, ⟨used, new, hreading⟩, hok⟩ := Unpacker.unpackInner_spec
      Unpacker.new ⟨chunks.flatMap Chunk.bytes, [], List.replicate n Word.null⟩
      wfState_none hsrc (by simp [Overrun, Unpacker.new])
    rw [Unpacker.unpack, hhalt] at hunpack
    cases hunpack
    have hstate : halt.state = none := Unpacker.finish_eq_ok_iff.1 hfinish
    have hdst : halt.io.dst = [] := by
      have hdst := congrArg List.length hreading.dst
      have hroom := hreading.room
      simp only [List.length_replicate, List.length_drop] at hwords hdst hroom
      exact List.eq_nil_of_length_eq_zero (by omega)
    have hdone : halt.io.done = new := by simpa using hreading.done
    have hout := hreading.out hnull
    have hdec := hreading.dec
    rw [hstate] at hout hdec
    refine ⟨used, ⟨halt.io.src, hreading.src.symm⟩, Prod.ext hdec ?_⟩
    rw [hdst, hdone]
    simpa [Unpacker.new, Pos.idle] using hout

/-- **Streaming and one-shot unpacking.** Take packed bytes of which one call of the unpacker
makes `n` words, with nothing left to finish.  In whatever buffers the bytes come and in whatever
lengths the words are read, all calls of `read_exact` succeed, they read these words and
`finish` succeeds, unless one of the calls starts at a cut: the last byte is the count of a null
run in which the words before the call end. -/
theorem delivers_iff {chunks : List Chunk} {lens : List ℕ} {n : ℕ} {words : List Word}
    {result : UnpackResult} {unpacker : Unpacker}
    (hunpack : Unpacker.new.unpack (chunks.flatMap Chunk.bytes) (List.replicate n Word.null)
      = some (result, words, unpacker))
    (hwords : result.wordsWritten = n) (hfinish : unpacker.finish = .ok ())
    (hlens : lens.sum = n) :
    Delivers chunks lens words ↔ ¬ ∃ ls ms, lens = ls ++ ms ∧ EofCut chunks n ls.sum := by
  obtain ⟨hlen, packed, hpacked⟩ := packed_of_unpack hunpack hwords hfinish
  have hiff := readAll_standing hpacked lens (standing_new chunks packed words) (by omega)
  rw [List.drop_zero, hlen] at hiff
  simp only [Nat.zero_add] at hiff
  exact hiff

/-- Of a run of four null words, the first two cannot be read alone. -/
theorem delivers_iff_four_nulls :
    ¬ Delivers [⟨0, [3]⟩] [2, 2] (List.replicate 4 Word.null) := by
  have hunpack : Unpacker.new.unpack (List.flatMap Chunk.bytes [⟨0, [3]⟩])
      (List.replicate 4 Word.null)
        = some (⟨2, 4, .needInput⟩, List.replicate 4 Word.null, Unpacker.new) := by
    decide +kernel
  intro h
  refine (delivers_iff hunpack rfl rfl rfl).1 h ⟨[2], [2], rfl, [0], 3, rfl, ?_, ?_, ?_⟩
  · decide +kernel
  · decide +kernel
  · decide

/-- Not every split of the words can be read: after the first two of four null words, the stream
is taken for a truncated one. -/
theorem not_delivers :
    ¬ ∀ (chunks : List Chunk) (lens : List ℕ) (n : ℕ) (words : List Word) (result : UnpackResult)
        (unpacker : Unpacker),
      Unpacker.new.unpack (chunks.flatMap Chunk.bytes) (List.replicate n Word.null)
          = some (result, words, unpacker) →
        result.wordsWritten = n → unpacker.finish = .ok () → lens.sum = n →
          Delivers chunks lens words := by
  intro h
  have hunpack : Unpacker.new.unpack (List.flatMap Chunk.bytes [⟨0, [3]⟩])
      (List.replicate 4 Word.null)
        = some (⟨2, 4, .needInput⟩, List.replicate 4 Word.null, Unpacker.new) := by
    decide +kernel
  obtain ⟨self, self', hread, -⟩ := h [⟨0, [3]⟩] [2, 2] 4 _ _ _ hunpack rfl rfl rfl
  have heof : ((new [.ok ⟨0, [3]⟩]).readAll [2, 2]).map Prod.fst
      = some (.error .unexpectedEof) := by
    decide +kernel
  have hok := congrArg (Option.map Prod.fst) hread
  rw [List.map_singleton, heof] at hok
  cases hok

end PackedStream

end Recapn.Packing

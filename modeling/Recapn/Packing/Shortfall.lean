/-
# What an unpacker still needs

`Unpacker::finish` of an unpacker that stopped inside a token says how many more bytes it needs.
`Dec.shortfall` is this number for a state of the decoder: it goes down by at most one with every
byte (`Dec.shortfall_step`), and by one with every zero byte (`Dec.open_step`).  So the decoder is
between two tokens after that many zero bytes, and not before (`Dec.feed_zeros`,
`Dec.feed_ne_idle_of_shortfall`), and `finish_exact` says it of the unpacker, whatever its calls.
-/
import Recapn.Packing.Unpacking

namespace Recapn.Packing

/-! ## The decoder -/

namespace Dec

/-- How many bytes the decoder has to read before it is between two tokens.  Behind the word
after a tag `0xff` there is a count. -/
def shortfall : Dec → ℕ
  | full acc => 8 - acc.length + 1
  | d => needs d

/-- The states inside a token that a decoder can be in. -/
def Open : Dec → Prop
  | tagged _ pat => ∃ pat', pat = true :: pat'
  | full acc => acc.length < 8
  | raw n acc => 0 < n ∧ acc.length < 8
  | _ => True

lemma shortfall_settle (acc : List Byte) (pat : List Bool) :
    (settle acc pat).1.shortfall = pat.count true := by
  rw [← needs_settle acc pat]
  rcases settle_cases acc pat with ⟨word, h⟩ | ⟨acc', pat', h⟩ <;> rw [h] <;> rfl

lemma shortfall_rawFrom (n : ℕ) : (rawFrom n).shortfall = 8 * n := by
  rw [← needs_rawFrom n, rawFrom]
  split <;> rfl

/-- A byte is at most one of those that are missing. -/
lemma shortfall_step (d : Dec) (b : Byte) : d.shortfall ≤ (d.step b).1.shortfall + 1 := by
  cases d with
  | idle => exact Nat.zero_le _
  | nullCount | rawCount => exact Nat.le_add_left 1 _
  | tagged acc pat =>
    rw [step, shortfall_settle]
    cases pat with
    | nil => exact Nat.zero_le _
    | cons p pat => cases p <;> simp [shortfall, needs]
  | full acc =>
    rw [step]
    split
    · next hlast =>
      simp only [shortfall, needs]
      omega
    · simp only [shortfall, List.length_append, List.length_singleton]
      omega
  | raw n acc =>
    rw [step]
    split
    · rw [shortfall_rawFrom]
      simp only [shortfall, needs]
      omega
    · simp only [shortfall, needs, List.length_append, List.length_singleton]
      omega

/-- With fewer bytes than are missing, the decoder stays inside the token. -/
lemma feed_ne_idle_of_shortfall {d : Dec} {l : List Byte} (h : l.length < d.shortfall) :
    (d.feed l).1 ≠ idle := by
  induction l generalizing d with
  | nil =>
    rintro rfl
    cases h
  | cons b l ih =>
    have hstep := shortfall_step d b
    rw [List.length_cons] at h
    exact ih (by omega)

lemma open_rawFrom (n : ℕ) : (rawFrom n).Open := by
  rw [rawFrom]
  split
  · trivial
  · next h => exact ⟨Nat.pos_of_ne_zero h, Nat.zero_lt_succ 7⟩

lemma open_settle (acc : List Byte) (pat : List Bool) : (settle acc pat).1.Open := by
  induction pat generalizing acc with
  | nil => trivial
  | cons p pat ih =>
    cases p with
    | false => exact ih _
    | true => exact ⟨pat, rfl⟩

/-- A zero byte is one of those that are missing. -/
lemma open_step {d : Dec} (h : d.Open) (hidle : d ≠ idle) :
    (d.step 0).1.Open ∧ (d.step 0).1.shortfall + 1 = d.shortfall := by
  cases d with
  | idle => exact absurd rfl hidle
  | nullCount => exact ⟨trivial, rfl⟩
  | rawCount =>
    refine ⟨open_rawFrom (UInt8.toNat 0), ?_⟩
    rw [step, shortfall_rawFrom]
    rfl
  | tagged acc pat =>
    obtain ⟨pat', rfl⟩ := h
    rw [step, shortfall_settle]
    exact ⟨open_settle _ _, by simp [shortfall, needs]⟩
  | full acc =>
    have hlt : acc.length < 8 := h
    rw [step]
    split
    · next hlast =>
      refine ⟨trivial, ?_⟩
      simp only [shortfall, needs]
      omega
    · simp only [Open, shortfall, List.length_append, List.length_singleton]
      omega
  | raw n acc =>
    obtain ⟨hpos, hlt⟩ := h
    rw [step]
    split
    · refine ⟨open_rawFrom _, ?_⟩
      rw [shortfall_rawFrom]
      simp only [shortfall, needs]
      omega
    · simp only [Open, shortfall, needs, List.length_append, List.length_singleton]
      omega

lemma Open.eq_idle {d : Dec} (h : d.Open) (hzero : d.shortfall = 0) : d = idle := by
  by_contra hidle
  have hstep := (open_step h hidle).2
  omega

/-- With as many zero bytes as are missing, the decoder comes to the end of the token. -/
lemma feed_zeros {d : Dec} (h : d.Open) : (d.feed (List.replicate d.shortfall 0)).1 = idle := by
  induction hn : d.shortfall generalizing d with
  | zero => exact h.eq_idle hn
  | succ n ih =>
    have hidle : d ≠ idle := by
      rintro rfl
      cases hn
    obtain ⟨hopen, hstep⟩ := open_step h hidle
    rw [List.replicate_succ, feed_cons]
    exact ih hopen (by omega)

/-! ### What a byte may stand for -/

/-- What is set aside at a count, for the words that it may add. -/
def credit (d : Dec) : ℕ := if d = nullCount then 127 else 0

lemma credit_step (d : Dec) (b : Byte) :
    (d.step b).2.length + (d.step b).1.credit ≤ d.credit + 128 := by
  by_cases hnext : (d.step b).1 = nullCount
  · rw [out_of_step_nullCount hnext, hnext]
    exact Nat.le_add_left 128 _
  rw [credit, if_neg hnext]
  cases d with
  | nullCount =>
    have hb := b.toNat_lt
    simp only [step, credit, List.length_replicate, if_true]
    omega
  | tagged acc pat =>
    rcases settle_cases (acc ++ [b]) pat.tail with ⟨_, h⟩ | ⟨_, _, h⟩ <;> simp [step, h]
  | _ => grind [step]

lemma credit_feed (d : Dec) (l : List Byte) :
    (d.feed l).2.length + (d.feed l).1.credit ≤ d.credit + 128 * l.length := by
  induction l generalizing d with
  | nil => simp
  | cons b l ih =>
    have hstep := d.credit_step b
    have hrest := ih (d.step b).1
    simp only [feed_cons, List.length_append, List.length_cons]
    omega

end Dec

/-! ## The unpacker -/

/-- The position of an unpacker is not in the middle of nothing. -/
lemma open_posOf {state : Option IncompleteState} (hwf : WfState state) :
    (posOf state).dec.Open := by
  cases state with
  | none => trivial
  | some state =>
    rw [wfState_some] at hwf
    cases state with
    | partialWord word => exact ⟨_, PartialTaggedWord.Wf.pat_eq hwf⟩
    | partialUncompressed word =>
      have hlen := word.length_acc
      show word.acc.length < 8
      omega
    | writingUncompressed remaining word =>
      cases word with
      | none => exact Dec.open_rawFrom remaining
      | some word =>
        have hlen := word.length_acc
        refine ⟨Nat.succ_pos remaining, ?_⟩
        omega
    | _ => trivial

namespace Unpacker

/-- The number of bytes that `finish` gives are those missing at the position of the unpacker. -/
lemma bytesNeeded_eq {self : Unpacker} {k : ℕ} (hwf : WfState self.state)
    (hnulls : ∀ count, self.state ≠ some (.writingNulls count))
    (h : self.finish = .error ⟨k⟩) :
    (posOf self.state).dec.shortfall = k ∧ (posOf self.state).owed = 0 := by
  obtain ⟨state⟩ := self
  rcases state with _ | state
  · cases h
  rw [wfState_some] at hwf
  cases state with
  | partialWord word =>
    cases h
    exact ⟨(PartialTaggedWord.Wf.neededBytes_eq hwf).symm, rfl⟩
  | partialUncompressed word =>
    cases h
    refine ⟨?_, rfl⟩
    show 8 - word.acc.length + 1 = 8 - word.writtenBytes.val + 1
    rw [PartialWord.length_acc]
  | needNullCount | needUncompressedCount =>
    cases h
    exact ⟨rfl, rfl⟩
  | writingNulls count => exact absurd rfl (hnulls count)
  | writingUncompressed remaining word =>
    cases h
    cases word with
    | none => exact ⟨(Dec.shortfall_rawFrom remaining).trans (Nat.mul_comm 8 remaining), rfl⟩
    | some word =>
      refine ⟨?_, rfl⟩
      have hlt := word.writtenBytes.isLt
      show 8 * (remaining + 1) - word.acc.length = remaining * 8 + (8 - word.writtenBytes.val)
      rw [PartialWord.length_acc]
      omega

/-- Calls of `unpack`, one after the other, with any input and any output: the unpacker after
them, and the bytes they have read. -/
inductive Runs : Unpacker → List Byte → Unpacker → Prop
  | nil (self : Unpacker) : Runs self [] self
  | call {self mid self' : Unpacker} {src rest : List Byte} {dst out : List Word}
      {result : UnpackResult} (h : self.unpack src dst = some (result, out, mid))
      (hrest : Runs mid rest self') : Runs self (src.take result.bytesRead ++ rest) self'

/-- A call takes the decoder over the bytes that it reads, and writes its words or owes them. -/
lemma feed_of_unpack {self mid : Unpacker} {src : List Byte} {dst out : List Word}
    {result : UnpackResult} (hwf : WfState self.state)
    (h : self.unpack src dst = some (result, out, mid)) :
    WfState mid.state ∧
      ((posOf self.state).dec.feed (src.take result.bytesRead)).1 = (posOf mid.state).dec ∧
      (posOf self.state).owed + ((posOf self.state).dec.feed (src.take result.bytesRead)).2.length
        = result.wordsWritten + (posOf mid.state).owed := by
  obtain ⟨halt, hhalt, h⟩ := Option.bind_eq_some_iff.1 h
  cases h
  by_cases hsrc : src = []
  · rw [unpackInner_nil self hsrc] at hhalt
    cases hhalt
    simp [hwf, hsrc]
  · have hover : ¬ Overrun self.state ⟨src, [], dst⟩ := fun hover => by
      rw [(unpackInner_eq_none_iff self _ hwf).2 ⟨hsrc, hover⟩] at hhalt
      cases hhalt
    obtain ⟨halt', hhalt', ⟨used, new, hreads⟩, hok⟩ := unpackInner_spec self _ hwf hsrc hover
    rw [hhalt] at hhalt'
    cases hhalt'
    have hsplit : src = used ++ halt.io.src := hreads.src
    have hused : src.take (src.length - halt.io.src.length) = used := by
      rw [hsplit, List.length_append, Nat.add_sub_cancel, List.take_left]
    have hwritten : dst.length - halt.io.dst.length = new.length := by
      rw [hreads.dst, List.length_drop, Nat.sub_sub_self hreads.room]
    simp only [hused, hwritten]
    exact ⟨hok.wf, hreads.dec, hreads.count⟩

/-- Calls take the decoder over the bytes that they read. -/
lemma Runs.feed {self self' : Unpacker} {used : List Byte} (h : Runs self used self')
    (hwf : WfState self.state) :
    WfState self'.state ∧ ((posOf self.state).dec.feed used).1 = (posOf self'.state).dec := by
  induction h with
  | nil self => exact ⟨hwf, rfl⟩
  | call h hrest ih =>
    obtain ⟨hmid, hdec, -⟩ := feed_of_unpack hwf h
    obtain ⟨hself', hdec'⟩ := ih hmid
    refine ⟨hself', ?_⟩
    rw [Dec.feed_append, hdec]
    exact hdec'

/-- A call whose input ends between two tokens and whose output does not run out reads all of its
input. -/
lemma finish_of_unpack {self : Unpacker} {src : List Byte} {dst : List Word}
    (hwf : WfState self.state) (howed : (posOf self.state).owed = 0)
    (hfeed : ((posOf self.state).dec.feed src).1 = .idle)
    (hroom : ((posOf self.state).dec.feed src).2.length < dst.length) :
    ∃ result out self', self.unpack src dst = some (result, out, self') ∧
      self'.finish = .ok () := by
  by_cases hsrc : src = []
  · -- without input, nothing is missing
    rw [hsrc] at hfeed
    have hcall : self.unpack src dst = some (⟨0, 0, .needInput⟩, dst, self) := by
      rw [unpack, unpackInner_nil self hsrc]
      simp
    exact ⟨_, _, self, hcall, finish_eq_ok_iff.2 (eq_none_of_posOf hwf hfeed howed)⟩
  · have hover : ¬ Overrun self.state ⟨src, [], dst⟩ := fun hover => by
      rw [show dst = [] from hover.1] at hroom
      exact absurd hroom (Nat.not_lt_zero _)
    obtain ⟨halt, hhalt, ⟨used, new, hreads⟩, hok⟩ := unpackInner_spec self _ hwf hsrc hover
    have hcall : self.unpack src dst
        = some (⟨src.length - halt.io.src.length, dst.length - halt.io.dst.length, halt.reason⟩,
          halt.io.done ++ halt.io.dst, ⟨halt.state⟩) := by
      rw [unpack, hhalt]
      rfl
    refine ⟨_, _, _, hcall, finish_eq_ok_iff.2 ?_⟩
    show halt.state = none
    have hsplit : src = used ++ halt.io.src := hreads.src
    rw [hsplit, Dec.feed_append, hreads.dec] at hfeed hroom
    cases hreason : halt.reason with
    | needInput =>
      obtain ⟨hnil, howed'⟩ := hok.needInput hreason
      rw [hnil, Dec.feed_nil] at hfeed
      exact eq_none_of_posOf hok.wf hfeed howed'
    | needOutput =>
      -- the words of the input do not fill the output
      exfalso
      have hdst : halt.io.dst = dst.drop new.length := hreads.dst
      have hlen := congrArg List.length hdst
      rw [(hok.needOutput hreason).1, List.length_nil, List.length_drop] at hlen
      have hcount := hreads.count
      rw [howed] at hcount
      rw [List.length_append] at hroom
      omega

/-- **The need of an unpacker is exact.**  After any calls, unless null words are still to be
written, when `finish` says that `k` bytes are needed then with enough output some `k` more bytes
make it succeed, and after any calls that read fewer bytes it fails. -/
theorem finish_exact {packed : List Byte} {self : Unpacker} (hruns : Runs .new packed self)
    (hnulls : ∀ count, self.state ≠ some (.writingNulls count)) {k : ℕ}
    (hfinish : self.finish = .error ⟨k⟩) :
    (∃ more : List Byte, more.length = k ∧
      ∃ room, ∀ dst : List Word, room ≤ dst.length →
        ∃ result out self', self.unpack more dst = some (result, out, self') ∧
          self'.finish = .ok ()) ∧
    ∀ (more : List Byte) (self' : Unpacker), Runs self more self' → more.length < k →
      self'.finish ≠ .ok () := by
  have hwf := (hruns.feed wfState_none).1
  obtain ⟨hshort, howed⟩ := bytesNeeded_eq hwf hnulls hfinish
  subst hshort
  have hzeros := Dec.feed_zeros (open_posOf hwf)
  generalize hd : (posOf self.state).dec = d at hzeros ⊢
  refine ⟨⟨List.replicate d.shortfall 0, List.length_replicate,
    (d.feed (List.replicate d.shortfall 0)).2.length + 1, fun dst hroom => ?_⟩,
    fun more self' hmore hlt hok => ?_⟩
  · subst hd
    exact finish_of_unpack hwf howed hzeros hroom
  · have hfeed := (hmore.feed hwf).2
    rw [finish_eq_ok_iff.1 hok, hd] at hfeed
    exact Dec.feed_ne_idle_of_shortfall hlt hfeed

/-- An unpacker that has read a tag `0xff` and a byte of its word. -/
def inUncompressed : Unpacker :=
  ⟨some (.partialUncompressed ⟨Word.ofBytes [7, 0, 0, 0, 0, 0, 0, 0], 1⟩)⟩

lemma runs_inUncompressed : Runs .new [0xff, 7] inUncompressed := by
  have hcall : Unpacker.new.unpack [0xff, 7] [Word.null]
      = some (⟨2, 0, .needInput⟩, [Word.null], inUncompressed) := by
    rw [unpack, unpackInner, if_neg (by decide)]
    simp only [new, resume, Option.bind_eq_bind, Option.bind_some]
    rw [unpackLoop]
    rfl
  exact .call hcall (.nil _)

/-- Seven bytes of the word and a count are missing. -/
theorem finish_exact_inUncompressed :
    (∃ more : List Byte, more.length = 8 ∧
      ∃ room, ∀ dst : List Word, room ≤ dst.length →
        ∃ result out self', inUncompressed.unpack more dst = some (result, out, self') ∧
          self'.finish = .ok ()) ∧
    ∀ (more : List Byte) (self' : Unpacker), Runs inUncompressed more self' → more.length < 8 →
      self'.finish ≠ .ok () :=
  finish_exact runs_inUncompressed (by simp [inUncompressed]) rfl

/-! ### What calls write -/

/-- Calls of `unpack` that read `k` bytes and write `n` words in all. -/
inductive Fed : Unpacker → ℕ → ℕ → Unpacker → Prop
  | nil (self : Unpacker) : Fed self 0 0 self
  | call {self mid self' : Unpacker} {src : List Byte} {dst out : List Word}
      {result : UnpackResult} {k n : ℕ} (h : self.unpack src dst = some (result, out, mid))
      (hrest : Fed mid k n self') : Fed self (result.bytesRead + k) (result.wordsWritten + n) self'

lemma Fed.credit {self self' : Unpacker} {k n : ℕ} (h : Fed self k n self')
    (hwf : WfState self.state) :
    n + (posOf self'.state).owed + (posOf self'.state).dec.credit
      ≤ (posOf self.state).owed + (posOf self.state).dec.credit + 128 * k := by
  induction h with
  | nil self => exact Nat.le_of_eq (by omega)
  | @call self mid self' src dst out result k n h hrest ih =>
    obtain ⟨hmid, hdec, hcount⟩ := feed_of_unpack hwf h
    have hrest := ih hmid
    have hcall := (posOf self.state).dec.credit_feed (src.take result.bytesRead)
    have hread := List.length_take_le result.bytesRead src
    rw [hdec] at hcall
    omega

/-- **No byte stands for more than 128 words.**  Whatever a new unpacker reads, in whatever
calls, it writes at most 128 words for every byte, so 1024 bytes. -/
theorem Fed.amplification {self : Unpacker} {k n : ℕ} (h : Fed .new k n self) : n ≤ 128 * k := by
  have hcredit := h.credit wfState_none
  have hnew : (posOf new.state).owed + (posOf new.state).dec.credit = 0 := rfl
  omega

/-- A tag `0x00` and the largest count come close: 256 null words for two bytes, of which the
output takes three. -/
theorem Fed.amplification_nulls : ∃ self, Fed .new 2 3 self ∧ 3 ≤ 128 * 2 := by
  have hcall : Unpacker.new.unpack [0, 255] [Word.null, Word.null, Word.null]
      = some (⟨2, 3, .needOutput⟩, [Word.null, Word.null, Word.null], ⟨some (.writingNulls 253)⟩) := by
    rw [unpack, unpackInner, if_neg (by decide)]
    simp only [new, resume, Option.bind_eq_bind, Option.bind_some]
    rw [unpackLoop]
    rfl
  exact ⟨_, .call hcall (.nil _), Fed.amplification (.call hcall (.nil _))⟩

end Unpacker

end Recapn.Packing

/-
# The packed format

The packing of a message is a sequence of tokens, each opened by a tag byte:

* `0x00` and a count `c`: a null word and `c` more null words;
* `0xff`, the eight bytes of a word, a count `c` and the `8 * c` bytes of `c` more words;
* any other tag `t` and one byte for each bit of `t`: a word whose byte `i` is the next of
  these bytes when bit `i` of `t` is set, and zero otherwise.

This file says what a string of packed bytes stands for.  `Dec.step` reads it byte by byte,
with no bound on the words it may write at once: it is what `Unpacker::unpack` computes under
all its buffering.  `encode` is the string `Packer::pack` writes when its output never runs out.
-/
import Recapn.Word
import Recapn.Lib.Transducer

namespace Recapn.Packing

open Transducer (run)

/-! ## Tags -/

/-- The bits of a tag, the lowest first, for the `n` positions it speaks about. -/
def tagBits : ℕ → ℕ → List Bool
  | 0, _ => []
  | n + 1, tag => decide (tag % 2 = 1) :: tagBits n (tag / 2)

lemma tagBits_zero (n : ℕ) : tagBits n 0 = List.replicate n false := by
  induction n with
  | zero => rfl
  | succ n ih => simp [tagBits, ih, List.replicate_succ]

lemma true_mem_tagBits {n tag : ℕ} (h0 : tag ≠ 0) (hlt : tag < 2 ^ n) : true ∈ tagBits n tag := by
  induction n generalizing tag with
  | zero => omega
  | succ n ih =>
    simp only [tagBits, List.mem_cons]
    by_cases hodd : tag % 2 = 1
    · left; simp [hodd]
    · right
      rw [Nat.pow_succ] at hlt
      exact ih (by omega) (by omega)

/-- `u8::count_ones`. -/
def countOnes (tag : ℕ) : ℕ := (tagBits 8 tag).count true

/-- The tag of a word: bit `i` is set when byte `i` is not zero. -/
def tagOf : List Byte → ℕ
  | [] => 0
  | b :: l => (if b = 0 then 0 else 1) + 2 * tagOf l

lemma tagOf_lt (l : List Byte) : tagOf l < 2 ^ l.length := by
  induction l with
  | nil => simp [tagOf]
  | cons b l ih =>
    simp only [tagOf, List.length_cons, Nat.pow_succ]
    split <;> omega

lemma tagBits_tagOf (l : List Byte) : tagBits l.length (tagOf l) = l.map (fun b => decide (b ≠ 0)) := by
  induction l with
  | nil => rfl
  | cons b l ih =>
    by_cases hb : b = 0
    · simp [tagOf, tagBits, hb, ih]
    · have h2 : (1 + 2 * tagOf l) / 2 = tagOf l := by omega
      have h1 : (1 + 2 * tagOf l) % 2 = 1 := by omega
      simp [tagOf, tagBits, hb, ih, h1, h2]

lemma tagOf_eq_zero_iff {l : List Byte} : tagOf l = 0 ↔ ∀ b ∈ l, b = 0 := by
  induction l with
  | nil => simp [tagOf]
  | cons b l ih =>
    by_cases hb : b = 0
    · have h2 : 2 * tagOf l = 0 ↔ tagOf l = 0 := by omega
      simp [tagOf, hb, h2, ih]
    · simp [tagOf, hb]

/-! ## Decoding -/

/-- Where a decoder stands in the token it is reading. -/
inductive Dec where
  /-- Between two tokens. -/
  | idle
  /-- After the tag `0x00`. -/
  | nullCount
  /-- In a tagged word: its first bytes, and for each other byte whether it is in the input. -/
  | tagged (acc : List Byte) (pat : List Bool)
  /-- In the word after the tag `0xff`: its first bytes. -/
  | full (acc : List Byte)
  /-- After the word of a tag `0xff`. -/
  | rawCount
  /-- In a run of `n` uncompressed words: the first bytes of the next one. -/
  | raw (n : ℕ) (acc : List Byte)
deriving DecidableEq, Repr

namespace Dec

/-- The decoder in a tagged word, past the bytes that are zero. -/
def enter : List Byte → List Bool → Dec
  | acc, false :: pat => enter (acc ++ [0]) pat
  | acc, pat => tagged acc pat

/-- The decoder after a byte of a tagged word: it moves past the bytes that are zero and
leaves the word when there is no other byte to come. -/
def settle : List Byte → List Bool → Dec × List Word
  | acc, [] => (idle, [Word.ofBytes acc])
  | acc, false :: pat => settle (acc ++ [0]) pat
  | acc, true :: pat => (tagged acc (true :: pat), [])

/-- The decoder before the next uncompressed word of a run. -/
def rawFrom (n : ℕ) : Dec := if n = 0 then idle else raw n []

/-- One byte of packed input. -/
def step : Dec → Byte → Dec × List Word
  | idle, b =>
    if b = 0 then (nullCount, [Word.null])
    else if b = 0xff then (full [], [])
    else (enter [] (tagBits 8 b.toNat), [])
  | nullCount, b => (idle, List.replicate b.toNat Word.null)
  | tagged acc pat, b => settle (acc ++ [b]) pat.tail
  | full acc, b =>
    if acc.length = 7 then (rawCount, [Word.ofBytes (acc ++ [b])]) else (full (acc ++ [b]), [])
  | rawCount, b => (rawFrom b.toNat, [])
  | raw n acc, b =>
    if acc.length = 7 then (rawFrom (n - 1), [Word.ofBytes (acc ++ [b])])
    else (raw n (acc ++ [b]), [])

/-- The run of the decoder on a string of packed bytes. -/
def feed : Dec → List Byte → Dec × List Word := run step

@[simp] lemma feed_nil (s : Dec) : feed s [] = (s, []) := rfl

lemma feed_cons (s : Dec) (b : Byte) (l : List Byte) :
    feed s (b :: l) = ((feed (step s b).1 l).1, (step s b).2 ++ (feed (step s b).1 l).2) := rfl

@[simp] lemma feed_singleton (s : Dec) (b : Byte) : feed s [b] = step s b :=
  Transducer.run_singleton step s b

lemma feed_append (s : Dec) (l m : List Byte) :
    feed s (l ++ m) = ((feed (feed s l).1 m).1, (feed s l).2 ++ (feed (feed s l).1 m).2) :=
  Transducer.run_append step s l m

/-- The two runs that make up the run on a concatenation. -/
lemma feed_append_eq {s t u : Dec} {l m : List Byte} {v w : List Word} (hl : feed s l = (t, v))
    (hm : feed t m = (u, w)) : feed s (l ++ m) = (u, v ++ w) :=
  Transducer.run_append_eq step hl hm

/-! ### Reading whole pieces of a token -/

/-- Bytes that do not finish the word after `0xff` are kept. -/
lemma feed_full_short {acc l : List Byte} (h : acc.length + l.length < 8) :
    feed (full acc) l = (full (acc ++ l), []) := by
  induction l generalizing acc with
  | nil => simp
  | cons b l ih =>
    have hne : acc.length ≠ 7 := by simp only [List.length_cons] at h; omega
    have hlen : (acc ++ [b]).length + l.length < 8 := by
      simp only [List.length_append, List.length_cons, List.length_nil] at h ⊢; omega
    simp [feed_cons, step, hne, ih hlen]

lemma feed_full_word {acc l : List Byte} (h : acc.length + l.length = 8) (hl : l ≠ []) :
    feed (full acc) l = (rawCount, [Word.ofBytes (acc ++ l)]) := by
  obtain ⟨l, b, rfl⟩ : ∃ l' b, l = l' ++ [b] := ⟨_, _, (List.dropLast_append_getLast hl).symm⟩
  have hlen : acc.length + l.length = 7 := by
    simp only [List.length_append, List.length_cons, List.length_nil] at h; omega
  have hb : feed (full (acc ++ l)) [b] = (rawCount, [Word.ofBytes (acc ++ l ++ [b])]) := by
    simp [step, hlen]
  simpa using feed_append_eq (feed_full_short (by omega)) hb

/-- Bytes that do not finish an uncompressed word are kept. -/
lemma feed_raw_short {n : ℕ} {acc l : List Byte} (h : acc.length + l.length < 8) :
    feed (raw n acc) l = (raw n (acc ++ l), []) := by
  induction l generalizing acc with
  | nil => simp
  | cons b l ih =>
    have hne : acc.length ≠ 7 := by simp only [List.length_cons] at h; omega
    have hlen : (acc ++ [b]).length + l.length < 8 := by
      simp only [List.length_append, List.length_cons, List.length_nil] at h ⊢; omega
    simp [feed_cons, step, hne, ih hlen]

lemma feed_raw_word {n : ℕ} {acc l : List Byte} (h : acc.length + l.length = 8) (hl : l ≠ []) :
    feed (raw n acc) l = (rawFrom (n - 1), [Word.ofBytes (acc ++ l)]) := by
  obtain ⟨l, b, rfl⟩ : ∃ l' b, l = l' ++ [b] := ⟨_, _, (List.dropLast_append_getLast hl).symm⟩
  have hlen : acc.length + l.length = 7 := by
    simp only [List.length_append, List.length_cons, List.length_nil] at h; omega
  have hb : feed (raw n (acc ++ l)) [b] = (rawFrom (n - 1), [Word.ofBytes (acc ++ l ++ [b])]) := by
    simp [step, hlen]
  simpa using feed_append_eq (feed_raw_short (by omega)) hb

/-- The bytes of whole words in a run of uncompressed words are these words. -/
lemma feed_rawFrom_words {n : ℕ} {ws : List Word} (h : ws.length ≤ n) :
    feed (rawFrom n) (Word.sliceToBytes ws) = (rawFrom (n - ws.length), ws) := by
  induction ws generalizing n with
  | nil => simp
  | cons w ws ih =>
    simp only [List.length_cons] at h
    have hraw : rawFrom n = raw n [] := if_neg (by omega)
    have hw : feed (raw n []) w.bytes = (rawFrom (n - 1), [w]) := by
      rw [feed_raw_word (by simp) (by simp [Word.bytes])]
      simp
    have hws := ih (n := n - 1) (by omega)
    rw [hraw, Word.sliceToBytes_cons, feed_append_eq hw hws]
    simp only [List.singleton_append, List.length_cons, Prod.mk.injEq, and_true]
    congr 1
    omega

/-! ### Reading a tagged word -/

/-- The bytes of a word that its tag says are in the input. -/
def kept (l : List Byte) : List Byte := l.filter (· ≠ 0)

lemma feed_settle_kept (acc l : List Byte) :
    feed (settle acc (l.map (fun b => decide (b ≠ 0)))).1 (kept l)
      = (idle, if (∀ b ∈ l, b = 0) then [] else [Word.ofBytes (acc ++ l)]) ∧
    (settle acc (l.map (fun b => decide (b ≠ 0)))).2
      = if (∀ b ∈ l, b = 0) then [Word.ofBytes (acc ++ l)] else [] := by
  induction l generalizing acc with
  | nil => simp [settle, kept]
  | cons b l ih =>
    by_cases hb : b = 0
    · obtain ⟨h1, h2⟩ := ih (acc ++ [0])
      subst hb
      simp only [kept, ne_eq, decide_not] at h1 h2 ⊢
      constructor
      · simpa [settle] using h1
      · simpa [settle] using h2
    · obtain ⟨h1, h2⟩ := ih (acc ++ [b])
      have hall : ¬ ∀ c ∈ b :: l, c = 0 := fun h => hb (h b (by simp))
      have hkept : kept (b :: l) = b :: kept l := by simp [kept, hb]
      have hmap : (b :: l).map (fun b => decide (b ≠ 0))
          = true :: l.map (fun b => decide (b ≠ 0)) := by simp [hb]
      rw [if_neg hall, if_neg hall, hkept, hmap]
      refine ⟨?_, rfl⟩
      rw [settle, feed_cons]
      simp only [step, List.tail_cons]
      rw [h1, h2, List.append_assoc, List.singleton_append]
      by_cases hl : ∀ c ∈ l, c = 0
      · rw [if_pos hl, if_pos hl]; rfl
      · rw [if_neg hl, if_neg hl]; rfl

lemma enter_eq_settle {acc : List Byte} {pat : List Bool} (h : true ∈ pat) :
    (enter acc pat, []) = settle acc pat := by
  induction pat generalizing acc with
  | nil => simp at h
  | cons p pat ih =>
    cases p with
    | false => simpa [enter, settle] using @ih (acc ++ [0]) (by simpa using h)
    | true => rfl

/-! ### Inside a token -/

/-- How many bytes at least the decoder reads before it is between two tokens. -/
def needs : Dec → ℕ
  | idle => 0
  | nullCount => 1
  | tagged _ pat => pat.count true
  | full acc => 8 - acc.length
  | rawCount => 1
  | raw n acc => 8 * n - acc.length

lemma needs_enter (acc : List Byte) (pat : List Bool) : needs (enter acc pat) = pat.count true := by
  induction pat generalizing acc with
  | nil => rfl
  | cons p pat ih =>
    cases p with
    | false => rw [enter, ih, List.count_cons_of_ne (by simp)]
    | true => rfl

lemma needs_settle (acc : List Byte) (pat : List Bool) :
    needs (settle acc pat).1 = pat.count true := by
  induction pat generalizing acc with
  | nil => rfl
  | cons p pat ih =>
    cases p with
    | false => rw [settle, ih, List.count_cons_of_ne (by simp)]
    | true => rfl

lemma needs_rawFrom (n : ℕ) : needs (rawFrom n) = 8 * n := by
  unfold rawFrom
  split
  · rename_i h
    rw [h]
    rfl
  · rfl

lemma needs_step (d : Dec) (b : Byte) : needs d ≤ needs (step d b).1 + 1 := by
  cases d with
  | idle | nullCount | rawCount => simp [needs]
  | tagged acc pat =>
    rw [step, needs_settle]
    cases pat with
    | nil => simp [needs]
    | cons p pat => cases p <;> simp [needs]
  | full acc =>
    rw [step]
    split
    · simp only [needs]
      omega
    · simp only [needs, List.length_append, List.length_singleton]
      omega
  | raw n acc =>
    rw [step]
    split
    · rw [needs_rawFrom]
      simp only [needs]
      omega
    · simp only [needs, List.length_append, List.length_singleton]
      omega

/-- Before it has read that many bytes, the decoder is inside the token. -/
lemma feed_ne_idle {d : Dec} {l : List Byte} (h : l.length < needs d) : (feed d l).1 ≠ idle := by
  induction l generalizing d with
  | nil =>
    rintro rfl
    cases h
  | cons b l ih =>
    have hstep := needs_step d b
    rw [List.length_cons] at h
    exact ih (by omega)

/-- The length of the null run that ends a string of packed bytes, where `n` is that of a run
that ends before it. -/
def lastRun : Dec → ℕ → List Byte → ℕ
  | _, n, [] => n
  | d, _, b :: l => lastRun (step d b).1 (if d = nullCount then b.toNat else 0) l

lemma lastRun_append (d : Dec) (n : ℕ) (l m : List Byte) :
    lastRun d n (l ++ m) = lastRun (feed d l).1 (lastRun d n l) m := by
  induction l generalizing d n with
  | nil => rfl
  | cons b l ih => exact ih _ _

lemma lastRun_mono {n k : ℕ} (h : n ≤ k) (d : Dec) (l : List Byte) :
    lastRun d n l ≤ lastRun d k l := by
  cases l with
  | nil => exact h
  | cons b l => exact Nat.le_refl _

/-! ### Ends of packed input -/

lemma enter_eq_tagged (acc : List Byte) (pat : List Bool) :
    ∃ acc' pat', enter acc pat = tagged acc' pat' := by
  induction pat generalizing acc with
  | nil => exact ⟨_, _, rfl⟩
  | cons p pat ih =>
    cases p with
    | false => exact ih _
    | true => exact ⟨_, _, rfl⟩

lemma settle_cases (acc : List Byte) (pat : List Bool) :
    (∃ word, settle acc pat = (idle, [word])) ∨ ∃ acc' pat', settle acc pat = (tagged acc' pat', []) := by
  induction pat generalizing acc with
  | nil => exact Or.inl ⟨_, rfl⟩
  | cons p pat ih =>
    cases p with
    | false => exact ih _
    | true => exact Or.inr ⟨_, _, rfl⟩

/-- The bytes that end a token without any word. -/
inductive Silent : Dec → List Byte → Prop
  | idle : Silent idle []
  | nullCount : Silent nullCount [0]
  | rawCount : Silent rawCount [0]

lemma silent_of_step {d : Dec} {b : Byte} {l : List Byte} (hout : (step d b).2 = [])
    (h : Silent (step d b).1 l) : Silent d (b :: l) := by
  cases d with
  | idle =>
    rw [step] at hout h
    split at hout
    · cases hout
    · rename_i h0
      rw [if_neg h0] at h
      split at h
      · cases h
      · obtain ⟨acc', pat', heq⟩ := enter_eq_tagged [] (tagBits 8 b.toNat)
        rw [heq] at h
        cases h
  | nullCount =>
    have hb : b = 0 := UInt8.toNat_inj.1 (by simpa [step] using hout)
    subst hb
    cases h with
    | idle => exact .nullCount
  | tagged acc pat =>
    rw [step] at hout h
    rcases settle_cases (acc ++ [b]) pat.tail with ⟨word, heq⟩ | ⟨acc', pat', heq⟩
    · rw [heq] at hout
      cases hout
    · rw [heq] at h
      cases h
  | full acc =>
    rw [step] at hout h
    split at hout
    · cases hout
    · rename_i h7
      rw [if_neg h7] at h
      cases h
  | rawCount =>
    by_cases hb : b.toNat = 0
    · obtain rfl : b = 0 := UInt8.toNat_inj.1 hb
      cases h with
      | idle => exact .rawCount
    · rw [step, rawFrom, if_neg hb] at h
      cases h
  | raw n acc =>
    rw [step] at hout h
    split at hout
    · cases hout
    · rename_i h7
      rw [if_neg h7] at h
      cases h

/-- Input that brings the decoder to the end of a token without writing a word. -/
lemma silent_of_feed {d : Dec} {l : List Byte} (h : feed d l = (idle, [])) : Silent d l := by
  induction l generalizing d with
  | nil =>
    obtain rfl : d = idle := congrArg Prod.fst h
    exact .idle
  | cons b l ih =>
    rw [feed_cons] at h
    obtain ⟨hdec, hout⟩ := Prod.mk.inj h
    obtain ⟨hstep, hrest⟩ := List.append_eq_nil_iff.1 hout
    exact silent_of_step hstep (ih (Prod.ext hdec hrest))

/-- A step to a count has read the tag of its run, and written the first word of it. -/
lemma out_of_step_nullCount {d : Dec} {b : Byte} (h : (step d b).1 = nullCount) :
    (step d b).2 = [Word.null] := by
  cases d with
  | idle =>
    rw [step] at h ⊢
    split
    · rfl
    · rename_i h0
      rw [if_neg h0] at h
      split at h
      · cases h
      · obtain ⟨acc', pat', heq⟩ := enter_eq_tagged [] (tagBits 8 b.toNat)
        rw [heq] at h
        cases h
  | nullCount => cases h
  | tagged acc pat =>
    rw [step] at h
    rcases settle_cases (acc ++ [b]) pat.tail with ⟨word, heq⟩ | ⟨acc', pat', heq⟩
    · rw [heq] at h
      cases h
    · rw [heq] at h
      cases h
  | full acc =>
    rw [step] at h
    split at h <;> cases h
  | rawCount =>
    rw [step, rawFrom] at h
    simp only at h
    split at h <;> cases h
  | raw n acc =>
    rw [step, rawFrom] at h
    split at h
    · simp only at h
      split at h <;> cases h
    · cases h

/-- At a count, the last word that was written is null. -/
lemma out_of_feed_nullCount {l : List Byte} {out : List Word}
    (h : feed idle l = (nullCount, out)) : ∃ init, out = init ++ [Word.null] := by
  rcases List.eq_nil_or_concat l with rfl | ⟨init, b, rfl⟩
  · cases h
  · rw [List.concat_eq_append, feed_append, feed_singleton] at h
    obtain ⟨hdec, rfl⟩ := Prod.mk.inj h
    exact ⟨_, by rw [out_of_step_nullCount hdec]⟩

/-- Only a count is waited for at a count. -/
lemma eq_nullCount_of_feed {d : Dec} {l : List Byte} (h : feed d l = (nullCount, [])) :
    d = nullCount ∧ l = [] := by
  induction l generalizing d with
  | nil => exact ⟨congrArg Prod.fst h, rfl⟩
  | cons b l ih =>
    rw [feed_cons] at h
    obtain ⟨hdec, hout⟩ := Prod.mk.inj h
    obtain ⟨hstep, hrest⟩ := List.append_eq_nil_iff.1 hout
    obtain ⟨hcount, -⟩ := ih (Prod.ext hdec hrest)
    rw [out_of_step_nullCount hcount] at hstep
    cases hstep

end Dec

/-! ## Encoding -/

/-- `split_at_filter`: the words before the first one that satisfies `p`, at most 255. -/
def splitAtFilter (input : List Word) (p : Word → Bool) : List Word × List Word :=
  let toRead := min input.length 255
  input.splitAt (((input.take toRead).findIdx? p).getD toRead)

/-- Whether a word ends a run of uncompressed words: two of its bytes are zero. -/
def endsUncompressed (w : Word) : Bool := 2 ≤ (w.bytes.filter (· == 0)).length

lemma splitAtFilter_append (input : List Word) (p : Word → Bool) :
    (splitAtFilter input p).1 ++ (splitAtFilter input p).2 = input := by
  simp [splitAtFilter]

lemma length_splitAtFilter_le (input : List Word) (p : Word → Bool) :
    (splitAtFilter input p).1.length ≤ 255 := by
  simp only [splitAtFilter, List.splitAt_eq, List.length_take]
  rcases h : (input.take (min input.length 255)).findIdx? p with _ | i
  · simp only [Option.getD_none]
    omega
  · have := (List.findIdx?_eq_some_iff_getElem.1 h).1
    simp only [List.length_take] at this
    simp only [Option.getD_some]
    omega

lemma length_splitAtFilter_snd_le (input : List Word) (p : Word → Bool) :
    (splitAtFilter input p).2.length ≤ input.length := by
  have h := congrArg List.length (splitAtFilter_append input p)
  simp only [List.length_append] at h
  omega

/-- No word before the index that `position` finds satisfies the predicate. -/
lemma not_of_mem_take_findIdx (input : List Word) {p : Word → Bool} (n : ℕ) {w : Word}
    (hw : w ∈ (input.take n).take (((input.take n).findIdx? p).getD n)) : p w = false := by
  rcases h : (input.take n).findIdx? p with _ | i
  · exact List.findIdx?_eq_none_iff.1 h w (List.mem_of_mem_take hw)
  · rw [h, Option.getD_some] at hw
    obtain ⟨hi, -, hlt⟩ := List.findIdx?_eq_some_iff_getElem.1 h
    obtain ⟨j, hj, rfl⟩ := List.mem_take_iff_getElem.1 hw
    simpa using hlt j (by omega)

lemma not_of_mem_splitAtFilter {input : List Word} {p : Word → Bool} {w : Word}
    (hw : w ∈ (splitAtFilter input p).1) : p w = false := by
  apply not_of_mem_take_findIdx input (min input.length 255)
  rw [List.take_take, Nat.min_eq_left]
  · simpa [splitAtFilter] using hw
  · rcases h : (input.take (min input.length 255)).findIdx? p with _ | i
    · exact Nat.le_refl _
    · have := (List.findIdx?_eq_some_iff_getElem.1 h).1
      simp only [List.length_take] at this
      simp only [Option.getD_some]
      omega

/-- The packing of a list of words. -/
def encode : List Word → List Byte
  | [] => []
  | w :: ws =>
    if w = Word.null then
      0 :: UInt8.ofNat (splitAtFilter ws (· != Word.null)).1.length ::
        encode (splitAtFilter ws (· != Word.null)).2
    else if tagOf w.bytes = 0xff then
      0xff :: w.bytes ++
        UInt8.ofNat (splitAtFilter ws endsUncompressed).1.length ::
          Word.sliceToBytes (splitAtFilter ws endsUncompressed).1 ++
        encode (splitAtFilter ws endsUncompressed).2
    else
      UInt8.ofNat (tagOf w.bytes) :: Dec.kept w.bytes ++ encode ws
termination_by ws => ws.length
decreasing_by
  · have := length_splitAtFilter_snd_le ws (· != Word.null)
    simp only [List.length_cons]; omega
  · have := length_splitAtFilter_snd_le ws endsUncompressed
    simp only [List.length_cons]; omega
  · simp

/-! ### Decoding what was encoded -/

/-- The words before the first that is not null are null. -/
lemma splitAtFilter_nulls (ws : List Word) :
    (splitAtFilter ws (· != Word.null)).1
      = List.replicate (splitAtFilter ws (· != Word.null)).1.length Word.null :=
  List.eq_replicate_of_mem fun w hw => by simpa using not_of_mem_splitAtFilter hw

lemma toNat_ofNat {n : ℕ} (h : n < 2 ^ 8) : (UInt8.ofNat n).toNat = n := by
  rw [UInt8.toNat_ofNat']
  omega

/-- The two bytes of a run of null words are read back as the run. -/
lemma feed_nulls {n : ℕ} (h : n < 2 ^ 8) :
    Dec.feed .idle [0, UInt8.ofNat n] = (.idle, Word.null :: List.replicate n Word.null) := by
  rw [Dec.feed_cons, Dec.feed_singleton]
  simp only [Dec.step, if_true, toNat_ofNat h]
  rfl

lemma tagOf_bytes_lt (w : Word) : tagOf w.bytes < 2 ^ 8 := tagOf_lt w.bytes

/-- The first byte of a word with some byte zero and some byte not zero. -/
lemma ofNat_tagOf_ne {w : Word} (hw : w ≠ Word.null) (hff : tagOf w.bytes ≠ 0xff) :
    UInt8.ofNat (tagOf w.bytes) ≠ 0 ∧ UInt8.ofNat (tagOf w.bytes) ≠ 0xff := by
  have hlt := tagOf_bytes_lt w
  have hto : (UInt8.ofNat (tagOf w.bytes)).toNat = tagOf w.bytes := toNat_ofNat hlt
  constructor
  · intro h
    rw [h] at hto
    have h0 : ∀ b ∈ w.bytes, b = 0 := tagOf_eq_zero_iff.1 hto.symm
    exact hw (by cases w; simp_all [Word.bytes, Word.null])
  · intro h
    rw [h] at hto
    exact hff hto.symm

/-- The bytes of a tagged word are read back as this word. -/
lemma feed_tagged {w : Word} (hw : w ≠ Word.null) (hff : tagOf w.bytes ≠ 0xff) :
    Dec.feed .idle (UInt8.ofNat (tagOf w.bytes) :: Dec.kept w.bytes) = (.idle, [w]) := by
  obtain ⟨h0, h1⟩ := ofNat_tagOf_ne hw hff
  have hlt := tagOf_bytes_lt w
  have hto : (UInt8.ofNat (tagOf w.bytes)).toNat = tagOf w.bytes := toNat_ofNat hlt
  have hne : tagOf w.bytes ≠ 0 := fun h => h0 (by rw [h]; rfl)
  have hall : ¬ ∀ b ∈ w.bytes, b = 0 := fun h => hne (tagOf_eq_zero_iff.2 h)
  have hbits := tagBits_tagOf w.bytes
  rw [Word.length_bytes] at hbits
  have hstep : Dec.step .idle (UInt8.ofNat (tagOf w.bytes))
      = Dec.settle [] (w.bytes.map (fun b => decide (b ≠ 0))) := by
    rw [Dec.step, if_neg h0, if_neg h1, hto, Dec.enter_eq_settle (true_mem_tagBits hne hlt), hbits]
  obtain ⟨hfeed, hout⟩ := Dec.feed_settle_kept [] w.bytes
  rw [Dec.feed_cons, hstep, hfeed, hout, if_neg hall, if_neg hall]
  simp

/-- The bytes of an uncompressed run are read back as its words. -/
lemma feed_uncompressed (w : Word) {ws : List Word} (h : ws.length < 2 ^ 8) :
    Dec.feed .idle (0xff :: w.bytes ++ UInt8.ofNat ws.length :: Word.sliceToBytes ws)
      = (.idle, w :: ws) := by
  have htag : Dec.feed .idle [0xff] = (.full [], []) := by simp [Dec.step]
  have hword : Dec.feed (.full []) w.bytes = (.rawCount, [w]) := by
    rw [Dec.feed_full_word (by simp) (by simp [Word.bytes])]
    simp
  have hcount : Dec.feed .rawCount [UInt8.ofNat ws.length] = (Dec.rawFrom ws.length, []) := by
    rw [Dec.feed_singleton, Dec.step, toNat_ofNat h]
  have hraw : Dec.feed (Dec.rawFrom ws.length) (Word.sliceToBytes ws) = (.idle, ws) := by
    rw [Dec.feed_rawFrom_words (Nat.le_refl _)]
    simp [Dec.rawFrom]
  have h := Dec.feed_append_eq (Dec.feed_append_eq htag hword) (Dec.feed_append_eq hcount hraw)
  simpa using h

/-- Decoding the packing of a list of words gives these words. -/
theorem feed_encode (ws : List Word) : Dec.feed .idle (encode ws) = (.idle, ws) := by
  induction ws using encode.induct with
  | case1 => simp [encode]
  | case2 ws ih =>
    have hlt : (splitAtFilter ws (· != Word.null)).1.length < 2 ^ 8 := by
      have := length_splitAtFilter_le ws (· != Word.null)
      omega
    have hrun := feed_nulls hlt
    rw [← splitAtFilter_nulls ws] at hrun
    rw [encode, if_pos rfl]
    simpa [splitAtFilter_append] using Dec.feed_append_eq hrun ih
  | case3 w ws hw hff ih =>
    have hlt : (splitAtFilter ws endsUncompressed).1.length < 2 ^ 8 := by
      have := length_splitAtFilter_le ws endsUncompressed
      omega
    rw [encode, if_neg hw, if_pos hff, Dec.feed_append_eq (feed_uncompressed w hlt) ih]
    simp [splitAtFilter_append]
  | case4 w ws hw hff ih =>
    rw [encode, if_neg hw, if_neg hff, Dec.feed_append_eq (feed_tagged hw hff) ih]
    rfl

end Recapn.Packing

/-
# Packing and unpacking

The packer writes `encode` and the unpacker reads what the decoder reads, so what has been
packed is unpacked to the same words, whatever buffers the packer was given.
-/
import Recapn.Packing.Packer
import Recapn.Packing.Shortfall

namespace Recapn.Packing

/-- One call of the unpacker on the packing of some words. -/
lemma unpack_encode (ws : List Word) :
    ∃ reason, Unpacker.new.unpack (encode ws) (List.replicate ws.length Word.null)
      = some (⟨(encode ws).length, ws.length, reason⟩, ws, Unpacker.new) := by
  have hfeed := feed_encode ws
  by_cases hsrc : encode ws = []
  · rw [hsrc, Dec.feed_nil] at hfeed
    obtain rfl : [] = ws := congrArg Prod.snd hfeed
    refine ⟨.needInput, ?_⟩
    rw [Unpacker.unpack, Unpacker.unpackInner_nil _ hsrc, hsrc]
    rfl
  · obtain ⟨halt, hhalt, hreads, hok⟩ := Unpacker.unpackInner_spec Unpacker.new
      ⟨encode ws, [], List.replicate ws.length Word.null⟩ wfState_none hsrc
      (by simp [Overrun, Unpacker.new])
    obtain ⟨hstate, hio⟩ := halt_of_feed_idle hreads hok
      (fun w hw => List.eq_of_mem_replicate hw) hfeed (by simp [Unpacker.new, Pos.idle])
    refine ⟨halt.reason, ?_⟩
    rw [Unpacker.unpack, hhalt]
    simp [hstate, hio, Unpacker.new, Pos.idle]

/-- **Packing round trip.** The calls of `Packer::pack` complete when buffers of at least ten
bytes keep coming.  They write the same bytes whatever the buffers are, and one call of
`Unpacker::unpack` turns these bytes into the words, with nothing left over. -/
theorem packing_round_trip (ws : List Word) (bufs : ℕ → List Byte)
    (hbufs : ∀ m, ∃ i, m ≤ i ∧ 10 ≤ (bufs i).length) :
    (∃ n, (Packer.new ws).packAll bufs n = some (encode ws)) ∧
    (∀ n out, (Packer.new ws).packAll bufs n = some out → out = encode ws) ∧
    ∃ result unpacker,
      Unpacker.new.unpack (encode ws) (List.replicate ws.length Word.null)
        = some (result, ws, unpacker) ∧
      result.bytesRead = (encode ws).length ∧ result.wordsWritten = ws.length ∧
      unpacker.finish = .ok () := by
  have hpending : (Packer.new ws).pending = encode ws := rfl
  obtain ⟨reason, hunpack⟩ := unpack_encode ws
  refine ⟨?_, fun n out h => ?_, _, _, hunpack, rfl, rfl, rfl⟩
  · obtain ⟨n, out, hout⟩ := Packer.exists_packAll (Packer.new ws) hbufs
    exact ⟨n, by rw [hout, Packer.packAll_eq hout, hpending]⟩
  · rw [Packer.packAll_eq h, hpending]

/-- Two null words and two uncompressed ones, through buffers of ten bytes. -/
theorem packing_round_trip_four_words :
    let ws := [Word.null, Word.null, ⟨1, 2, 3, 4, 5, 6, 7, 8⟩, ⟨1, 0, 3, 4, 5, 6, 7, 8⟩]
    let packed := [0, 1, 0xff, 1, 2, 3, 4, 5, 6, 7, 8, 1, 1, 0, 3, 4, 5, 6, 7, 8]
    (∃ n, (Packer.new ws).packAll (fun _ => List.replicate 10 0xde) n = some packed) ∧
    (∀ n out, (Packer.new ws).packAll (fun _ => List.replicate 10 0xde) n = some out →
      out = packed) ∧
    ∃ result unpacker,
      Unpacker.new.unpack packed (List.replicate 4 Word.null) = some (result, ws, unpacker) ∧
      result.bytesRead = 20 ∧ result.wordsWritten = 4 ∧ unpacker.finish = .ok () := by
  intro ws packed
  have hpacked : encode ws = packed := by decide +kernel
  have h := packing_round_trip ws (fun _ => List.replicate 10 0xde)
    (fun m => ⟨m, Nat.le_refl m, by simp⟩)
  rw [hpacked] at h
  exact h

/-! ## Sizes -/

lemma length_encode_le (ws : List Word) : (encode ws).length ≤ 10 * ws.length := by
  induction ws using encode.induct with
  | case1 => simp [encode]
  | case2 ws ih =>
    have hrest := length_splitAtFilter_snd_le ws (· != Word.null)
    rw [encode, if_pos rfl]
    simp only [List.length_cons]
    omega
  | case3 w ws hw hff ih =>
    have hsplit := congrArg List.length (splitAtFilter_append ws endsUncompressed)
    rw [List.length_append] at hsplit
    rw [encode, if_neg hw, if_pos hff]
    simp only [List.length_append, List.length_cons, Word.length_sliceToBytes, Word.length_bytes]
    omega
  | case4 w ws hw hff ih =>
    have hkept := length_kept_le w
    rw [encode, if_neg hw, if_neg hff]
    simp only [List.length_append, List.length_cons]
    omega

/-- **Packing grows a message by a quarter at most**, as ten bytes stand for a word at worst, and
shrinks it to 1/1024 at best. -/
theorem Packer.length_packAll {ws : List Word} {bufs : ℕ → List Byte} {n : ℕ} {packed : List Byte}
    (h : (Packer.new ws).packAll bufs n = some packed) :
    packed.length ≤ 10 * ws.length ∧ ws.length ≤ 128 * packed.length := by
  have hpacked : packed = encode ws := Packer.packAll_eq h
  have hcredit := Dec.idle.credit_feed (encode ws)
  have hidle : Dec.idle.credit = 0 := rfl
  rw [feed_encode, hidle, Nat.zero_add, Nat.add_zero] at hcredit
  rw [hpacked]
  exact ⟨length_encode_le ws, hcredit⟩

/-- Ten bytes for a word without zeros. -/
theorem Packer.length_packAll_full : 10 ≤ 10 * 1 ∧ 1 ≤ 128 * 10 :=
  @Packer.length_packAll [⟨1, 2, 3, 4, 5, 6, 7, 8⟩] (fun _ => List.replicate 10 0) 2
    [0xff, 1, 2, 3, 4, 5, 6, 7, 8, 0] (by decide +kernel)

end Recapn.Packing

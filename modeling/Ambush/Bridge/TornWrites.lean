import Ambush.Bridge.RecordStream
/-!
# A record behind a torn one

What is read of a record that was written behind the front of another one. A record is read
of its own bytes only, so of two records that differ in a flag one at least stays hidden
behind the same torn front.
-/
open Lib Lib.Frames

namespace Ambush.Bridge

theorem from_le_lt_u32 {bytes : Bytes} (h : bytes.length = 4) : from_le bytes < 4294967296 := by
  have hlt := from_le_lt bytes
  rw [h] at hlt
  norm_num at hlt
  exact hlt

theorem from_le_lt_u64 {bytes : Bytes} (h : bytes.length = 8) : from_le bytes < 18446744073709551616 := by
  have hlt := from_le_lt bytes
  rw [h] at hlt
  norm_num at hlt
  exact hlt

theorem u64_toNat {n : Nat} (h : n < 18446744073709551616) : ((n : Int) % 18446744073709551616).toNat = n := by
  omega

theorem bmod_emod_u64 (n : Int) : Int.bmod n 18446744073709551616 % 18446744073709551616 = n % 18446744073709551616 := by
  have hsame := @Int.bmod_emod n 18446744073709551616
  push_cast at hsame
  exact hsame

theorem i64_to_le_from_le {bytes : Bytes} (h : bytes.length = 8) : i64_to_le (i64_from_le bytes) = bytes := by
  have hall := to_le_from_le bytes
  rw [h] at hall
  unfold i64_to_le i64_from_le
  rw [bmod_emod_u64, u64_toNat (from_le_lt_u64 h), hall]

theorem slice_one {start : Nat} {bytes : Bytes} (h : start + 1 ≤ bytes.length) :
    slice start 1 bytes = [(slice start 1 bytes).headD 0] := by
  obtain ⟨b, hb⟩ := List.length_eq_one_iff.1 (slice_length h)
  rw [hb]
  rfl

theorem to_le_slice {start count : Nat} {bytes : Bytes} (h : start + count ≤ bytes.length) :
    to_le count (from_le (slice start count bytes)) = slice start count bytes := by
  have hlen := slice_length h
  have hall := to_le_from_le (slice start count bytes)
  rw [hlen] at hall
  exact hall

/-- The bytes of a record that decodes are those it is written as. -/
theorem encode_of_decode {bytes : Bytes} {record : Record} {n : Nat} (h : decode_record bytes = .ok (some (record, n))) :
    bytes.take n = encode_record record := by
  obtain ⟨p, hp, rfl, hlen, hcrc, rfl⟩ := decode_record_ok h
  obtain ⟨-, hfields⟩ := decode_prefix_spec hp
  unfold RECORD_PREFIX_BYTES at hlen hcrc ⊢
  have hpayload : (slice 26 p.len bytes).length = p.len := slice_length hlen
  have hlength : p.len = from_le (slice 0 4 bytes) := congrArg RecordPrefix.len hfields
  have hsmall : p.len < 4294967296 := hlength ▸ from_le_lt_u32 (slice_length (by omega))
  have hbody : record_body ⟨p.seq, p.emitted_at_ms, p.issuer, p.flags, slice 26 p.len bytes⟩ = slice 8 (18 + p.len) bytes := by
    have hseq : to_le 8 p.seq = slice 8 8 bytes := by
      rw [show p.seq = from_le (slice 8 8 bytes) from congrArg RecordPrefix.seq hfields, to_le_slice (by omega)]
    have hemitted : i64_to_le p.emitted_at_ms = slice 16 8 bytes := by
      have hfield := congrArg RecordPrefix.emitted_at_ms hfields
      have hback := i64_to_le_from_le (slice_length (show 16 + 8 ≤ bytes.length by omega))
      simp only at hfield
      rw [hfield, hback]
    have hissuer : [p.issuer] = slice 24 1 bytes := by
      rw [show p.issuer = (slice 24 1 bytes).headD 0 from congrArg RecordPrefix.issuer hfields, ← slice_one (by omega)]
    have hflags : [p.flags] = slice 25 1 bytes := by
      rw [show p.flags = (slice 25 1 bytes).headD 0 from congrArg RecordPrefix.flags hfields, ← slice_one (by omega)]
    rw [record_body, hseq, hemitted, show 18 + p.len = 8 + (8 + (1 + (1 + p.len))) by omega, slice_add, slice_add, slice_add,
      slice_add, ← hissuer, ← hflags]
    rfl
  have hlen' : to_le 4 p.len = slice 0 4 bytes := by
    rw [hlength, to_le_slice (by omega)]
  have hcrc' : to_le 4 p.crc = slice 4 4 bytes := by
    rw [show p.crc = from_le (slice 4 4 bytes) from congrArg RecordPrefix.crc hfields, to_le_slice (by omega)]
  rw [encode_record, hbody, hpayload, Nat.mod_eq_of_lt hsmall, hlen', show 18 + p.len = 26 + p.len - 8 by omega, hcrc, hcrc',
    show 26 + p.len - 8 = 18 + p.len by omega]
  calc bytes.take (26 + p.len) = slice 0 (4 + (4 + (18 + p.len))) bytes := by
        rw [slice, List.drop_zero]
        congr 1
        omega
    _ = _ := by
        rw [slice_add, slice_add]

/-! ## Behind a torn front -/

/-- A word that goes on behind a front as itself is determined by it. -/
theorem take_periodic {front e e' : Bytes} (hpos : 0 < front.length) {n : Nat} (h : (front ++ e).take n = e)
    (h' : (front ++ e').take n = e') : e = e' := by
  have htake : ∀ k, e.take k = e'.take k := by
    intro k
    induction k using Nat.strong_induction_on with
    | _ k ih =>
      rcases Nat.eq_zero_or_pos k with rfl | hk
      · rfl
      · have hshort := ih (min k n - front.length) (by omega)
        calc e.take k = ((front ++ e).take n).take k := by rw [h]
          _ = front.take (min k n) ++ e.take (min k n - front.length) := by rw [List.take_take, List.take_append]
          _ = front.take (min k n) ++ e'.take (min k n - front.length) := by rw [hshort]
          _ = ((front ++ e').take n).take k := by rw [List.take_take, List.take_append]
          _ = e'.take k := by rw [h']
  have hall := htake (max e.length e'.length)
  rw [List.take_of_length_le (Nat.le_max_left _ _), List.take_of_length_le (Nat.le_max_right _ _)] at hall
  exact hall

theorem Reads.short {bytes rest : Bytes} {records : List Record} (h : Reads bytes records rest)
    (hshort : bytes.length < RECORD_PREFIX_BYTES) : records = [] := by
  cases h with
  | stop => rfl
  | step h _ =>
    obtain ⟨p, -, rfl, hlen, -⟩ := decode_record_ok h
    exact absurd ((Nat.le_add_right _ _).trans hlen) (Nat.not_le.2 hshort)

/-- A record without a payload is read behind a torn front only where the front goes on as the record itself. -/
theorem torn_front_shows {r : Record} (hr : r.Fits) {w : Nat} (hlt : w < (encode_record r).length) {r' : Record}
    (hempty : r'.payload = []) {records : List Record} {rest : Bytes}
    (h : Reads ((encode_record r).take w ++ encode_record r') records rest) (hmem : r' ∈ records) :
    ((encode_record r).take w ++ encode_record r').take RECORD_PREFIX_BYTES = encode_record r' := by
  have hlong : (encode_record r').length = 26 := by rw [encode_record_length, hempty, List.length_nil, RECORD_PREFIX_BYTES]
  have hfront : ((encode_record r).take w).length = w := by rw [List.length_take, Nat.min_eq_left (Nat.le_of_lt hlt)]
  have hall : ((encode_record r).take w ++ encode_record r').length = w + 26 := by rw [List.length_append, hfront, hlong]
  cases h with
  | stop => cases hmem
  | @step _ _ record n records hd hrest =>
    obtain ⟨p, hp, hn, hle, -, hrecord⟩ := decode_record_ok hd
    -- A whole prefix in the front is that of the torn record, which goes past the front.
    have hpast : 26 ≤ w → p.len = r.payload.length ∧ w < n := by
      intro hw
      have hsame : decode_prefix ((encode_record r).take w ++ encode_record r') = decode_prefix (encode_record r ++ []) := by
        rw [← decode_prefix_take (le_refl RECORD_PREFIX_BYTES) (by rw [hall, RECORD_PREFIX_BYTES]; omega),
          List.take_append_of_le_length (by rw [hfront]; exact hw), List.take_take, Nat.min_eq_left (show RECORD_PREFIX_BYTES ≤ w from hw), List.append_nil,
          decode_prefix_take (le_refl RECORD_PREFIX_BYTES) (encode_record_pos r)]
      rw [hsame, decode_prefix_encode hr.seq hr.payload] at hp
      have hlen : p.len = r.payload.length := (congrArg RecordPrefix.len (Option.some.inj hp)).symm
      rw [encode_record_length] at hlt
      exact ⟨hlen, by rw [hn, hlen]; exact hlt⟩
    have hnone : records = [] := by
      refine Reads.short hrest ?_
      rw [List.length_drop, hall, RECORD_PREFIX_BYTES]
      rw [RECORD_PREFIX_BYTES] at hn
      by_cases hw : 26 ≤ w
      · have := (hpast hw).2
        omega
      · omega
    rw [hnone, List.mem_singleton] at hmem
    have hlen : p.len = 0 := by
      have hpayload := congrArg (fun x => x.payload.length) hrecord
      rw [← hmem] at hpayload
      simp only [hempty, List.length_nil] at hpayload
      rw [slice_length (by rw [← hn]; exact hle)] at hpayload
      exact hpayload.symm
    rw [hlen, Nat.add_zero] at hn
    rw [← hn, encode_of_decode hd, hmem]

/-- Behind a torn front a record stays hidden, with one flag or with another. -/
theorem torn_front_hides {r : Record} (hr : r.Fits) {w : Nat} (hpos : 0 < w) (hlt : w < (encode_record r).length) (issuer : IssuerIdx)
    {seq : Seq} (hseq : seq < 18446744073709551616) :
    ∃ flags, ∀ records rest, Reads ((encode_record r).take w ++ encode_record ⟨seq, 0, issuer, flags, []⟩) records rest →
      (⟨seq, 0, issuer, flags, []⟩ : Record) ∉ records := by
  by_contra hall
  push Not at hall
  obtain ⟨records, rest, hreads, hmem⟩ := hall 0
  obtain ⟨records', rest', hreads', hmem'⟩ := hall 1
  have hfront : 0 < ((encode_record r).take w).length := by rw [List.length_take, Nat.min_eq_left (Nat.le_of_lt hlt)]; exact hpos
  have hsame := take_periodic hfront (torn_front_shows hr hlt rfl hreads hmem) (torn_front_shows hr hlt rfl hreads' hmem')
  have hfits : ∀ flags, (⟨seq, 0, issuer, flags, []⟩ : Record).Fits := fun flags => ⟨hseq, by norm_num, by norm_num⟩
  have hdecode := (hfits 0).decode []
  rw [hsame, (hfits 1).decode []] at hdecode
  simp at hdecode

end Ambush.Bridge

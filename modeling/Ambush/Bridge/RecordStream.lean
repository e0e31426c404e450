import Ambush.Lib.Frames
import Ambush.Bridge.Segment
/-!
# The record stream

What the readers of a segment make of a header with records behind it, cut anywhere: the
loop of `read_records_from` returns the whole records where they start, and a scan says
whether the cut is behind one of them. A scan whose cut goes through a record's prefix
counts on from the last number of the greatest issuer, which is an overflow at the last
number there is.
-/
open Lib Lib.Frames

namespace Ambush.Bridge

/-! ## The loop with its offsets -/

/-- The loop of `read_records_from`, at `offset`; `bytes` are those from there on. -/
def read_located : Nat → Bytes → Nat → List (Record × Nat)
  | 0, _, _ => []
  | fuel + 1, bytes, offset =>
    match decode_record bytes with
    | .ok (some (record, consumed)) => (record, offset) :: read_located fuel (bytes.drop consumed) (offset + consumed)
    | _ => []

/-- `read_records_from` with all it returns. -/
def read_located_from (bytes : Bytes) (offset : Nat) : List (Record × Nat) :=
  read_located bytes.length (bytes.drop offset) offset

theorem read_located_step {bytes : Bytes} {record : Record} {n : Nat} (h : decode_record bytes = .ok (some (record, n)))
    (fuel offset : Nat) :
    read_located (fuel + 1) bytes offset = (record, offset) :: read_located fuel (bytes.drop n) (offset + n) := by
  rw [read_located, h]

theorem read_located_stop {bytes : Bytes} (h : ∀ record n, decode_record bytes ≠ .ok (some (record, n))) (fuel offset : Nat) :
    read_located fuel bytes offset = [] := by
  cases fuel with
  | zero => rfl
  | succ fuel =>
    rw [read_located]
    split
    · next record n heq => exact absurd heq (h record n)
    · rfl

/-! ## Fields in their widths -/

/-- The fields are in the widths that the format has for them. -/
structure Record.Fits (record : Record) : Prop where
  seq : record.seq < 18446744073709551616
  emitted_at_ms : -9223372036854775808 ≤ record.emitted_at_ms ∧ record.emitted_at_ms < 9223372036854775808
  payload : record.payload.length < 4294967296

structure SegmentHeader.Fits (h : SegmentHeader) : Prop where
  ordinal : h.ordinal < 18446744073709551616
  created_at_ms : -9223372036854775808 ≤ h.created_at_ms ∧ h.created_at_ms < 9223372036854775808
  colony_hash : h.colony_hash.length = 16

theorem from_le_i64_to_le (n : Int) : (from_le (i64_to_le n) : Int) = n % 18446744073709551616 := by
  have hmod : 0 ≤ n % 18446744073709551616 := Int.emod_nonneg n (by omega)
  have hlt : n % 18446744073709551616 < 18446744073709551616 := Int.emod_lt_of_pos n (by omega)
  have hread : from_le (i64_to_le n) = (n % 18446744073709551616).toNat := from_le_to_le (by norm_num; exact hlt)
  rw [hread]
  exact Int.toNat_of_nonneg hmod

theorem bmod_emod_i64 {n : Int} (h : -9223372036854775808 ≤ n ∧ n < 9223372036854775808) :
    Int.bmod (n % 18446744073709551616) 18446744073709551616 = n := by
  rw [Int.bmod_def]
  split
  · omega
  · omega

theorem i64_from_le_to_le {n : Int} (h : -9223372036854775808 ≤ n ∧ n < 9223372036854775808) :
    i64_from_le (i64_to_le n) = n := by
  unfold i64_from_le
  rw [from_le_i64_to_le]
  exact bmod_emod_i64 h

theorem Record.Fits.stored {record : Record} (h : record.Fits) : record.stored = record := by
  rw [Record.stored, i64_from_le_to_le h.emitted_at_ms]

theorem Record.Fits.decode {record : Record} (h : record.Fits) (more : Bytes) :
    decode_record (encode_record record ++ more) = .ok (some (record, (encode_record record).length)) := by
  rw [decode_encode h.seq h.payload more, h.stored]

theorem encode_record_pos (record : Record) : 26 ≤ (encode_record record).length := by
  rw [encode_record_length, RECORD_PREFIX_BYTES]
  omega

/-! ## The header -/

theorem encode_header_length {h : SegmentHeader} (hc : h.colony_hash.length = 16) : h.encode.length = HEADER_BYTES := by
  simp [SegmentHeader.encode, MAGIC, HEADER_BYTES, hc]

/-- A written header with what follows it, cut into its fields. -/
theorem encode_header_fields (h : SegmentHeader) (more : Bytes) : ∃ crc, crc < 4294967296 ∧
    h.encode ++ more = MAGIC ++ (to_le 2 h.format_version ++ ([h.stream] ++ ([0] ++ (to_le 8 h.ordinal ++
      (i64_to_le h.created_at_ms ++ (h.colony_hash ++ (to_le 4 crc ++ more))))))) ∧
    crc = (crc32c (MAGIC ++ to_le 2 h.format_version ++ [h.stream, 0] ++ to_le 8 h.ordinal ++ i64_to_le h.created_at_ms ++
      h.colony_hash)).toNat := by
  refine ⟨_, UInt32.toNat_lt _, ?_, rfl⟩
  simp only [SegmentHeader.encode, List.append_assoc, List.cons_append, List.nil_append]

/-- What a header reads back to, whatever the time it was made. -/
def SegmentHeader.stored (h : SegmentHeader) : SegmentHeader :=
  { h with created_at_ms := i64_from_le (i64_to_le h.created_at_ms) }

theorem decode_header {h : SegmentHeader} (hv : h.format_version = FORMAT_VERSION) (ho : h.ordinal < 18446744073709551616)
    (hc : h.colony_hash.length = 16) (more : Bytes) (path : Nat) :
    SegmentHeader.decode (h.encode ++ more) h.colony_hash path = .ok h.stored := by
  obtain ⟨crc, hcrc, hfields, hsum⟩ := encode_header_fields h more
  have hversion : from_le (to_le 2 h.format_version) = h.format_version := by
    rw [hv]
    decide
  have hordinal : from_le (to_le 8 h.ordinal) = h.ordinal := from_le_to_le (by norm_num; exact ho)
  have hsum' : from_le (to_le 4 crc) = crc := from_le_to_le (by norm_num; exact hcrc)
  have hlen : ¬ ((h.encode ++ more).length < HEADER_BYTES) := by
    rw [List.length_append, encode_header_length hc]
    omega
  have hbody : slice 0 44 (h.encode ++ more) =
      MAGIC ++ to_le 2 h.format_version ++ [h.stream, 0] ++ to_le 8 h.ordinal ++ i64_to_le h.created_at_ms ++ h.colony_hash := by
    have hlong : (MAGIC ++ to_le 2 h.format_version ++ [h.stream, 0] ++ to_le 8 h.ordinal ++ i64_to_le h.created_at_ms ++
        h.colony_hash).length = 44 := by simp [MAGIC, hc]
    rw [SegmentHeader.encode, List.append_assoc, slice, List.drop_zero, List.take_left' hlong]
  have hmagic : slice 0 8 (h.encode ++ more) = MAGIC := by
    rw [hfields]
    simp [slice, MAGIC]
  have hcheck : slice 44 4 (h.encode ++ more) = to_le 4 crc := by
    rw [hfields]
    simp [slice, MAGIC, List.drop_append, drop_to_le, drop_i64_to_le, hc]
  have hfound : slice 8 2 (h.encode ++ more) = to_le 2 h.format_version := by
    rw [hfields]
    simp [slice, MAGIC]
  have hcolony : slice 28 16 (h.encode ++ more) = h.colony_hash := by
    rw [hfields]
    simp [slice, MAGIC, List.drop_append, drop_to_le, hc]
  have hstream : (h.encode ++ more).getD 10 0 = h.stream := by
    rw [hfields]
    simp [MAGIC, List.getD]
  have hname : slice 12 8 (h.encode ++ more) = to_le 8 h.ordinal := by
    rw [hfields]
    simp [slice, MAGIC, List.drop_append, drop_to_le]
  have hcreated : slice 20 8 (h.encode ++ more) = i64_to_le h.created_at_ms := by
    rw [hfields]
    simp [slice, MAGIC, List.drop_append, drop_to_le]
  rw [SegmentHeader.decode, if_neg (not_or.2 ⟨hlen, not_not.2 hmagic⟩), hbody, hcheck, hsum', if_neg (not_not.2 hsum.symm),
    hfound, hversion, if_neg (not_not.2 hv), hcolony, if_neg (fun hne => hne rfl), hstream, hname, hordinal, hcreated,
    SegmentHeader.stored]

theorem SegmentHeader.Fits.stored {h : SegmentHeader} (hf : h.Fits) : h.stored = h := by
  rw [SegmentHeader.stored, i64_from_le_to_le hf.created_at_ms]

/-! ## Reading a row -/

theorem decode_record_nil (record : Record) (n : Nat) : decode_record [] ≠ .ok (some (record, n)) := by
  intro h
  cases h

/-- A record that ends behind the cut does not decode. -/
theorem decode_record_torn {record : Record} (hr : record.Fits) {n : Nat} (hn : n < (encode_record record).length)
    (found : Record) (m : Nat) : decode_record ((encode_record record).take n) ≠ .ok (some (found, m)) := by
  intro h
  obtain ⟨p, hp, rfl, hlen, -⟩ := decode_record_ok h
  rw [List.length_take] at hlen
  have hwhole := decode_prefix_encode hr.seq hr.payload []
  rw [List.append_nil] at hwhole
  rw [decode_prefix_take (by omega) (by omega), hwhole] at hp
  have hplen : record.payload.length = p.len := congrArg RecordPrefix.len (Option.some.inj hp)
  rw [encode_record_length] at hn hlen
  omega

/-- Nothing decodes of what a cut leaves of a record. -/
theorem torn_stops {records : List Record} (hr : ∀ r ∈ records, r.Fits) (cut : Nat) (found : Record) (n : Nat) :
    decode_record (torn encode_record cut records) ≠ .ok (some (found, n)) := by
  cases hrest : rest encode_record cut records with
  | nil =>
    rw [torn, hrest]
    exact decode_record_nil found n
  | cons r more =>
    have hmem : r ∈ records := mem_of_mem_rest encode_record (hrest ▸ List.mem_cons_self)
    have hlt := lt_of_rest encode_record (hrest ▸ List.head?_cons : (rest encode_record cut records).head? = some r)
    have hle := boundary_le encode_record cut records
    rw [torn_of_rest encode_record hrest]
    exact decode_record_torn (hr r hmem) (by omega) found n

/-- The readers of a row of records that ends in something else. -/
theorem reads_stream {records : List Record} (hr : ∀ r ∈ records, r.Fits) {tail : Bytes}
    (htail : ∀ record n, decode_record tail ≠ .ok (some (record, n))) :
    Reads (stream encode_record records ++ tail) records tail := by
  induction records with
  | nil => exact .stop htail
  | cons r records ih =>
    rw [stream_cons, List.append_assoc]
    refine .step ((hr r List.mem_cons_self).decode _) ?_
    rw [List.drop_left' rfl]
    exact ih (fun r' hr' => hr r' (List.mem_cons_of_mem _ hr'))

theorem read_located_stream {records : List Record} (hr : ∀ r ∈ records, r.Fits) {tail : Bytes}
    (htail : ∀ record n, decode_record tail ≠ .ok (some (record, n))) (offset : Nat) {fuel : Nat}
    (hf : (stream encode_record records ++ tail).length ≤ fuel) :
    read_located fuel (stream encode_record records ++ tail) offset = located encode_record offset records := by
  induction records generalizing offset fuel with
  | nil => exact read_located_stop htail fuel offset
  | cons r records ih =>
    have hpos := encode_record_pos r
    rw [stream_cons, List.append_assoc] at hf ⊢
    rw [List.length_append] at hf
    obtain ⟨fuel, rfl⟩ : ∃ k, fuel = k + 1 := ⟨fuel - 1, by omega⟩
    rw [read_located_step ((hr r List.mem_cons_self).decode _), located, List.drop_left' rfl]
    rw [ih (fun r' hr' => hr r' (List.mem_cons_of_mem _ hr')) _ (by omega)]

/-- Behind anything, cut anywhere: the whole records, where they start. -/
theorem read_located_cut {records : List Record} (hr : ∀ r ∈ records, r.Fits) (front : Bytes) (cut : Nat) :
    read_located_from (front ++ (stream encode_record records).take cut) front.length =
      located encode_record front.length (whole encode_record cut records) := by
  rw [read_located_from, List.drop_left' rfl, take_stream]
  refine read_located_stream (fun r hmem => hr r (mem_of_mem_whole encode_record hmem)) (torn_stops hr cut) front.length ?_
  exact (List.suffix_append front _).length_le

/-! ## Scanning a row -/

/-- The last number of each issuer. -/
def last_numbers (last : Map IssuerIdx Seq) (records : List Record) : Map IssuerIdx Seq :=
  records.foldl (fun last r => last.insert r.issuer r.seq) last

/-- The greatest issuer of the records, with its last number. -/
def greatest_issuer (records : List Record) : Option (IssuerIdx × Seq) := (entries (last_numbers .empty records)).getLast?

/-- What a scan says of a row of records behind a header. -/
def cut_verdict (records : List Record) (cut : Nat) : Except SpoolError TailVerdict :=
  let offset := HEADER_BYTES + boundary encode_record cut records
  match rest encode_record cut records with
  | [] => .ok (.Clean offset)
  | r :: _ =>
    if boundary encode_record cut records = cut then .ok (.Clean offset)
    else if cut < boundary encode_record cut records + RECORD_PREFIX_BYTES then
      match greatest_issuer (whole encode_record cut records) with
      | some (issuer, seq) => (after seq).map (fun burned => .TornTail offset (burned, burned) (some issuer))
      | none => .ok (.TornTail offset (1, 1) none)
    else .ok (.TornTail offset (r.seq, r.seq) (some r.issuer))

theorem scan_loop_stream {records : List Record} (hr : ∀ r ∈ records, r.Fits) (tail : Bytes) {fuel : Nat}
    (hf : (stream encode_record records ++ tail).length < fuel) (offset : Nat) (ranges : SeqRanges) (last : Map IssuerIdx Seq) :
    ∃ more, scan_loop fuel (stream encode_record records ++ tail) offset ranges last =
      scan_loop (more + 1) tail (offset + (stream encode_record records).length) (ranges.noted records)
        (last_numbers last records) := by
  induction records generalizing fuel offset ranges last with
  | nil =>
    obtain ⟨more, rfl⟩ : ∃ k, fuel = k + 1 := ⟨fuel - 1, by omega⟩
    exact ⟨more, rfl⟩
  | cons r records ih =>
    have hpos := encode_record_pos r
    rw [stream_cons, List.append_assoc] at hf ⊢
    rw [List.length_append] at hf
    obtain ⟨fuel, rfl⟩ : ∃ k, fuel = k + 1 := ⟨fuel - 1, by omega⟩
    rw [scan_loop, (hr r List.mem_cons_self).decode]
    simp only [List.drop_left' rfl]
    obtain ⟨more, hmore⟩ := @ih (fun r' hr' => hr r' (List.mem_cons_of_mem _ hr')) fuel (by omega)
      (offset + (encode_record r).length) (ranges.note r.issuer r.seq) (last.insert r.issuer r.seq)
    refine ⟨more, hmore.trans ?_⟩
    rw [List.length_append, Nat.add_assoc]
    rfl

/-- A record cut in its first 26 bytes. -/
theorem decode_record_prefix {record : Record} {n : Nat} (hpos : 0 < n) (hn : n < RECORD_PREFIX_BYTES) :
    decode_record ((encode_record record).take n) = .error .TruncatedPrefix := by
  have hlong := encode_record_pos record
  have hlen : ((encode_record record).take n).length = n := by
    rw [List.length_take, Nat.min_eq_left]
    exact (Nat.le_of_lt hn).trans hlong
  have hne : (encode_record record).take n ≠ [] := by
    intro h
    rw [h, List.length_nil] at hlen
    omega
  rw [decode_record, if_neg hne, decode_prefix, if_pos (by rw [hlen]; exact hn)]

/-- A record cut behind them. -/
theorem decode_record_payload {record : Record} (hr : record.Fits) {n : Nat} (hn : RECORD_PREFIX_BYTES ≤ n)
    (hlt : n < (encode_record record).length) :
    ∃ p, decode_record ((encode_record record).take n) = .error (.TruncatedPayload p) ∧ p.seq = record.seq ∧
      p.issuer = record.issuer := by
  have hlen : ((encode_record record).take n).length = n := by
    rw [List.length_take, Nat.min_eq_left (Nat.le_of_lt hlt)]
  have hne : (encode_record record).take n ≠ [] := by
    intro h
    rw [h, List.length_nil] at hlen
    rw [RECORD_PREFIX_BYTES] at hn
    omega
  obtain ⟨p, hp, hplen, hseq, hissuer⟩ : ∃ p, decode_prefix (encode_record record ++ []) = some p ∧
      p.len = record.payload.length ∧ p.seq = record.seq ∧ p.issuer = record.issuer :=
    ⟨_, decode_prefix_encode hr.seq hr.payload [], rfl, rfl, rfl⟩
  rw [List.append_nil] at hp
  refine ⟨p, ?_, hseq, hissuer⟩
  rw [decode_record, if_neg hne, decode_prefix_take hn (Nat.le_of_lt hlt), hp]
  simp only
  rw [if_pos (by rw [hlen, hplen, ← encode_record_length]; exact hlt)]

theorem scan_loop_torn {records : List Record} (hr : ∀ r ∈ records, r.Fits) (cut fuel : Nat) (ranges : SeqRanges) :
    scan_loop (fuel + 1) (torn encode_record cut records) (HEADER_BYTES + boundary encode_record cut records) ranges
        (last_numbers .empty (whole encode_record cut records)) =
      (cut_verdict records cut).map (fun verdict => (verdict, ranges)) := by
  have hle := boundary_le encode_record cut records
  cases hrest : rest encode_record cut records with
  | nil =>
    rw [torn, cut_verdict, hrest]
    rfl
  | cons r more =>
    have hlt := lt_of_rest encode_record (hrest ▸ List.head?_cons : (rest encode_record cut records).head? = some r)
    have hfits := hr r (mem_of_mem_rest encode_record (hrest ▸ List.mem_cons_self))
    rw [cut_verdict, hrest]
    simp only
    by_cases hb : boundary encode_record cut records = cut
    · rw [torn_nil_of_boundary encode_record hb, if_pos hb]
      rfl
    · rw [torn_of_rest encode_record hrest, if_neg hb]
      by_cases hp : cut < boundary encode_record cut records + RECORD_PREFIX_BYTES
      · rw [if_pos hp, scan_loop, decode_record_prefix (by omega) (by omega), ← greatest_issuer]
        simp only
        cases greatest_issuer (whole encode_record cut records) with
        | none => rfl
        | some last =>
          simp only
          cases after last.2 with
          | error e => rfl
          | ok burned => rfl
      · rw [if_neg hp]
        obtain ⟨p, hd, hseq, hissuer⟩ := decode_record_payload hfits (n := cut - boundary encode_record cut records)
          (by omega) (by omega)
        rw [scan_loop, hd]
        simp only [hseq, hissuer]
        rfl

/-- A scan of a segment cut anywhere behind its header. -/
theorem scan_cut {h : SegmentHeader} (hv : h.format_version = FORMAT_VERSION) (ho : h.ordinal < 18446744073709551616)
    (hc : h.colony_hash.length = 16) {records : List Record} (hr : ∀ r ∈ records, r.Fits) (cut path : Nat) :
    scan (h.encode ++ (stream encode_record records).take cut) h.colony_hash path = (cut_verdict records cut).map
      (fun verdict => ⟨h.stored, verdict, SeqRanges.noted .empty (whole encode_record cut records)⟩) := by
  have hkept : ∀ r ∈ whole encode_record cut records, r.Fits := fun r hmem => hr r (mem_of_mem_whole encode_record hmem)
  obtain ⟨more, hloop⟩ := @scan_loop_stream _ hkept (torn encode_record cut records)
    ((h.encode ++ (stream encode_record records).take cut).length + 1)
    (by rw [← take_stream]; exact Nat.lt_succ_of_le (List.suffix_append h.encode _).length_le) HEADER_BYTES .empty .empty
  rw [scan, decode_header hv ho hc, List.drop_left' (encode_header_length hc), take_stream]
  rw [take_stream] at hloop
  rw [hloop, ← boundary, scan_loop_torn hr]
  cases cut_verdict records cut with
  | error e => rfl
  | ok verdict => rfl

/-! ## The codec -/

/-- Every reader undoes the writing of these records, whole or cut short. -/
structure StreamCodec (records : List Record) : Prop where
  read : ∀ front : Bytes, read_located_from (front ++ stream encode_record records) front.length =
    located encode_record front.length records
  cut : ∀ (front : Bytes) (cut : Nat), cut < (stream encode_record records).length →
    read_located_from (front ++ (stream encode_record records).take cut) front.length =
      located encode_record front.length (whole encode_record cut records)
  scanned : ∀ (h : SegmentHeader) (path cut : Nat), h.format_version = FORMAT_VERSION → h.Fits →
    cut < (stream encode_record records).length →
    ∃ report, scan (h.encode ++ (stream encode_record records).take cut) h.colony_hash path = .ok report ∧
      (boundary encode_record cut records = cut → report.verdict = .Clean (HEADER_BYTES + cut)) ∧
      (boundary encode_record cut records ≠ cut → ∃ burned burned_issuer,
        report.verdict = .TornTail (HEADER_BYTES + boundary encode_record cut records) burned burned_issuer)
  header : ∀ (h : SegmentHeader) (path : Nat), h.format_version = FORMAT_VERSION → h.Fits →
    SegmentHeader.decode h.encode h.colony_hash path = .ok h

/-- Wherever another record follows, the greatest issuer so far has a number left to count on to. -/
def Continues (records : List Record) : Prop := ∀ before r after, records = before ++ r :: after →
  ∀ issuer seq, greatest_issuer before = some (issuer, seq) → seq + 1 < 18446744073709551616

theorem after_of_lt {seq : Seq} (h : seq + 1 < 18446744073709551616) : after seq = .ok (seq + 1) := by
  rw [after, if_pos h]

/-- The verdict on a cut, unless the count overflows. -/
theorem cut_verdict_of_continues {records : List Record} (hc : Continues records) {cut : Nat}
    (hcut : cut ≤ (stream encode_record records).length) :
    ∃ verdict, cut_verdict records cut = .ok verdict ∧
      (boundary encode_record cut records = cut → verdict = .Clean (HEADER_BYTES + cut)) ∧
      (boundary encode_record cut records ≠ cut → ∃ burned burned_issuer,
        verdict = .TornTail (HEADER_BYTES + boundary encode_record cut records) burned burned_issuer) := by
  rw [cut_verdict]
  by_cases hb : boundary encode_record cut records = cut
  · refine ⟨.Clean (HEADER_BYTES + cut), ?_, fun _ => rfl, fun hne => absurd hb hne⟩
    cases rest encode_record cut records with
    | nil => rw [hb]
    | cons r more =>
      simp only
      rw [if_pos hb, hb]
  · obtain ⟨r, more, hrest⟩ := exists_torn encode_record hcut hb
    rw [hrest]
    simp only
    rw [if_neg hb]
    split
    · have hsplit := whole_append_rest encode_record cut records
      rw [hrest] at hsplit
      cases hg : greatest_issuer (whole encode_record cut records) with
      | none => exact ⟨_, rfl, fun heq => absurd heq hb, fun _ => ⟨_, _, rfl⟩⟩
      | some last =>
        have hlast := hc _ _ _ hsplit.symm last.1 last.2 hg
        simp only [after_of_lt hlast]
        exact ⟨_, rfl, fun heq => absurd heq hb, fun _ => ⟨_, _, rfl⟩⟩
    · exact ⟨_, rfl, fun heq => absurd heq hb, fun _ => ⟨_, _, rfl⟩⟩

/-- A cut one byte into the record behind `before`. -/
theorem cut_verdict_overflows {before after : List Record} {r : Record} {issuer : IssuerIdx} {seq : Seq}
    (hg : greatest_issuer before = some (issuer, seq)) (hlast : ¬ seq + 1 < 18446744073709551616) :
    cut_verdict (before ++ r :: after) ((stream encode_record before).length + 1) = .error .Overflow := by
  have hlong := encode_record_pos r
  have hone : 1 < (encode_record r).length := by omega
  rw [cut_verdict, rest_append, rest_cons_of_lt hone, boundary_append, boundary_cons_of_lt hone]
  simp only
  rw [if_neg (by omega), if_pos (by rw [RECORD_PREFIX_BYTES]; omega), whole_append, whole_cons_of_lt hone, List.append_nil, hg]
  simp only [Bridge.after, if_neg hlast]
  rfl

/-- The scan of that cut returns no report. -/
theorem not_stream_codec {before after : List Record} {r : Record} (hr : ∀ r' ∈ before ++ r :: after, r'.Fits)
    {issuer : IssuerIdx} {seq : Seq} (hg : greatest_issuer before = some (issuer, seq))
    (hlast : ¬ seq + 1 < 18446744073709551616) : ¬ StreamCodec (before ++ r :: after) := by
  intro h
  have hverdict := @cut_verdict_overflows before after r issuer seq hg hlast
  let header : SegmentHeader := ⟨FORMAT_VERSION, 0, 0, 0, List.replicate 16 0⟩
  have hfits : header.Fits := ⟨by decide, by decide, rfl⟩
  have hlong := encode_record_pos r
  have hcut : (stream encode_record before).length + 1 < (stream encode_record (before ++ r :: after)).length := by
    rw [stream_append, stream_cons, List.length_append, List.length_append]
    omega
  obtain ⟨report, hscan, -⟩ := h.scanned header 0 _ rfl hfits hcut
  rw [scan_cut rfl hfits.ordinal hfits.colony_hash hr, hverdict] at hscan
  cases hscan

/-- Records read back whole and cut, and a scan says which, exactly when no cut finds the greatest issuer at its last
number. -/
theorem stream_codec_iff {records : List Record} (hr : ∀ r ∈ records, r.Fits) : StreamCodec records ↔ Continues records := by
  constructor
  · intro h before r after hsplit issuer seq hg
    by_contra hlast
    subst hsplit
    exact not_stream_codec hr hg hlast h
  · intro hc
    refine ⟨fun front => ?_, fun front cut _ => read_located_cut hr front cut, fun h path cut hv hf hcut => ?_,
      fun h path hv hf => ?_⟩
    · have hread := read_located_cut hr front (stream encode_record records).length
      rw [List.take_length, whole_length] at hread
      exact hread
    · obtain ⟨verdict, hverdict, hclean, htorn⟩ := cut_verdict_of_continues hc (Nat.le_of_lt hcut)
      rw [scan_cut hv hf.ordinal hf.colony_hash hr, hverdict]
      exact ⟨_, rfl, hclean, htorn⟩
    · have hdecode := decode_header hv hf.ordinal hf.colony_hash [] path
      rw [List.append_nil, hf.stored] at hdecode
      exact hdecode

namespace Small

/-- Records of two issuers, the greater of them first. -/
def row : List Record := [⟨5, 0, 1, 0, [7, 8]⟩, ⟨9, 0, 0, 0, []⟩, ⟨6, -1, 1, 1, [9]⟩]

/-- A record with the last number there is, and another. -/
def exhausted : List Record := [⟨18446744073709551615, 0, 0, 0, []⟩, ⟨1, 0, 0, 0, []⟩]

theorem row_fits : ∀ r ∈ row, r.Fits := by
  intro r hr
  simp only [row, List.mem_cons, List.not_mem_nil, or_false] at hr
  rcases hr with rfl | rfl | rfl
  · exact ⟨by norm_num, by norm_num, by norm_num⟩
  · exact ⟨by norm_num, by norm_num, by norm_num⟩
  · exact ⟨by norm_num, by norm_num, by norm_num⟩

theorem row_continues : Continues row := by
  rintro before r after hsplit issuer seq hg
  have hbefore : before = [] ∨ before = row.take 1 ∨ before = row.take 2 := by
    rcases before with _ | ⟨a, _ | ⟨b, _ | ⟨c, before⟩⟩⟩
    · exact .inl rfl
    · obtain ⟨rfl, -⟩ := by simpa [row] using hsplit
      exact .inr (.inl rfl)
    · obtain ⟨rfl, rfl, -⟩ := by simpa [row] using hsplit
      exact .inr (.inr rfl)
    · simp [row] at hsplit
  rcases hbefore with rfl | rfl | rfl
  · have hnone : greatest_issuer [] = none := by decide +kernel
    rw [hnone] at hg
    cases hg
  · have hone : greatest_issuer (row.take 1) = some (1, 5) := by decide +kernel
    obtain ⟨-, rfl⟩ := Prod.mk.inj (Option.some.inj (hone.symm.trans hg))
    norm_num
  · have htwo : greatest_issuer (row.take 2) = some (1, 5) := by decide +kernel
    obtain ⟨-, rfl⟩ := Prod.mk.inj (Option.some.inj (htwo.symm.trans hg))
    norm_num

end Small

theorem stream_codec_row : StreamCodec Small.row := (stream_codec_iff Small.row_fits).2 Small.row_continues

/-- Cut in the prefix of the second record, a scan ends in an overflow. -/
theorem stream_codec_overflows : (∀ r ∈ Small.exhausted, r.Fits) ∧ ¬ StreamCodec Small.exhausted := by
  have hfits : ∀ r ∈ Small.exhausted, r.Fits := by
    intro r hr
    simp only [Small.exhausted, List.mem_cons, List.not_mem_nil, or_false] at hr
    rcases hr with rfl | rfl
    · exact ⟨by norm_num, by norm_num, by norm_num⟩
    · exact ⟨by norm_num, by norm_num, by norm_num⟩
  have hlast : greatest_issuer [⟨18446744073709551615, 0, 0, 0, []⟩] = some (0, 18446744073709551615) := by decide +kernel
  exact ⟨hfits, @not_stream_codec [⟨18446744073709551615, 0, 0, 0, []⟩] [] ⟨1, 0, 0, 0, []⟩ hfits _ _ hlast (by norm_num)⟩

end Ambush.Bridge

import Ambush.Lib.LittleEndian
import Ambush.Bridge.Spool
/-!
# Segment files

A segment is a header of 48 bytes and records one after the other, each with its length
and a checksum. A scan reads records until one does not decode and says what it found
there: the end of the file, a record the file ends in, or a damaged one with others
behind it. What a scan reads depends on the bytes it has read only.
-/
open Lib

namespace Ambush.Bridge

/-! ## CRC-32C -/

def POLY : UInt32 := 0x82F63B78

/-- One bit of a table entry. -/
def crc_bit (crc : UInt32) : UInt32 := if crc &&& 1 ≠ 0 then (crc >>> 1) ^^^ POLY else crc >>> 1

/-- `table()[i]`: eight bits. -/
def crc_table (i : UInt32) : UInt32 := crc_bit (crc_bit (crc_bit (crc_bit (crc_bit (crc_bit (crc_bit (crc_bit i)))))))

def crc32c (bytes : Bytes) : UInt32 :=
  ~~~ bytes.foldl (fun crc byte => (crc >>> 8) ^^^ crc_table ((crc ^^^ byte.toUInt32) &&& 0xFF)) 0xFFFFFFFF

/-! ## Errors -/

/-- What a spool operation ends with: an error of the bridge, on a segment named by its ordinal, or an overflow of a
checked counter. -/
inductive SpoolError where
  | SpoolIo
  | SpoolBadMagic (ordinal : Nat)
  | SpoolUnknownFormat (ordinal found expected : Nat)
  | SpoolColonyMismatch (ordinal : Nat)
  | AlarmSpoolFull (bytes max_bytes : Nat)
  | Overflow
  deriving DecidableEq

/-- `seq + 1`. -/
def after (seq : Seq) : Except SpoolError Seq :=
  if seq + 1 < 18446744073709551616 then .ok (seq + 1) else .error .Overflow

/-- The bytes of an `i64`, and back. -/
def i64_to_le (n : Int) : Bytes := to_le 8 (n % 18446744073709551616).toNat

def i64_from_le (bytes : Bytes) : Int := Int.bmod (from_le bytes) 18446744073709551616

/-! ## The header -/

def MAGIC : Bytes := [80, 69, 82, 67, 72, 83, 80, 76]

def FORMAT_VERSION : Nat := 1

def HEADER_BYTES : Nat := 48

def RECORD_PREFIX_BYTES : Nat := 26

structure SegmentHeader where
  format_version : Nat
  stream : UInt8
  ordinal : Nat
  created_at_ms : Int
  colony_hash : Bytes

def SegmentHeader.encode (h : SegmentHeader) : Bytes :=
  let out := MAGIC ++ to_le 2 h.format_version ++ [h.stream, 0] ++ to_le 8 h.ordinal ++ i64_to_le h.created_at_ms ++ h.colony_hash
  out ++ to_le 4 (crc32c out).toNat

def SegmentHeader.decode (bytes expect_colony_hash : Bytes) (path : Nat) : Except SpoolError SegmentHeader :=
  if bytes.length < HEADER_BYTES ∨ slice 0 8 bytes ≠ MAGIC then .error (.SpoolBadMagic path)
  else if (crc32c (slice 0 44 bytes)).toNat ≠ from_le (slice 44 4 bytes) then .error (.SpoolBadMagic path)
  else if from_le (slice 8 2 bytes) ≠ FORMAT_VERSION then
    .error (.SpoolUnknownFormat path (from_le (slice 8 2 bytes)) FORMAT_VERSION)
  else if slice 28 16 bytes ≠ expect_colony_hash then .error (.SpoolColonyMismatch path)
  else .ok {
    format_version := from_le (slice 8 2 bytes)
    stream := bytes.getD 10 0
    ordinal := from_le (slice 12 8 bytes)
    created_at_ms := i64_from_le (slice 20 8 bytes)
    colony_hash := slice 28 16 bytes }

/-! ## Records -/

/-- What the checksum covers. -/
def record_body (record : Record) : Bytes :=
  to_le 8 record.seq ++ (i64_to_le record.emitted_at_ms ++ ([record.issuer, record.flags] ++ record.payload))

def encode_record (record : Record) : Bytes :=
  to_le 4 (record.payload.length % 4294967296) ++ (to_le 4 (crc32c (record_body record)).toNat ++ record_body record)

structure RecordPrefix where
  len : Nat
  crc : Nat
  seq : Seq
  emitted_at_ms : Int
  issuer : IssuerIdx
  flags : UInt8
  deriving DecidableEq

def decode_prefix (bytes : Bytes) : Option RecordPrefix :=
  if bytes.length < RECORD_PREFIX_BYTES then none
  else some {
    len := from_le (slice 0 4 bytes)
    crc := from_le (slice 4 4 bytes)
    seq := from_le (slice 8 8 bytes)
    emitted_at_ms := i64_from_le (slice 16 8 bytes)
    issuer := (slice 24 1 bytes).headD 0
    flags := (slice 25 1 bytes).headD 0 }

inductive RecordDecodeError where
  | TruncatedPrefix
  | TruncatedPayload (p : RecordPrefix)
  | ChecksumMismatch (p : RecordPrefix)
  deriving DecidableEq

/-- A record and the bytes it takes, nothing at a clean end. -/
def decode_record (bytes : Bytes) : Except RecordDecodeError (Option (Record × Nat)) :=
  if bytes = [] then .ok none
  else
    match decode_prefix bytes with
    | none => .error .TruncatedPrefix
    | some p =>
      let total := RECORD_PREFIX_BYTES + p.len
      if bytes.length < total then .error (.TruncatedPayload p)
      else if (crc32c (slice 8 (total - 8) bytes)).toNat ≠ p.crc then .error (.ChecksumMismatch p)
      else .ok (some (⟨p.seq, p.emitted_at_ms, p.issuer, p.flags, slice RECORD_PREFIX_BYTES p.len bytes⟩, total))

/-- `while let Ok(Some(..)) = decode_record(..)`: the records in a row, and what is left. -/
def read_records : Nat → Bytes → List Record × Bytes
  | 0, bytes => ([], bytes)
  | fuel + 1, bytes =>
    match decode_record bytes with
    | .ok (some (record, consumed)) =>
      let (records, rest) := read_records fuel (bytes.drop consumed)
      (record :: records, rest)
    | _ => ([], bytes)

/-- `read_records_from`; a record takes a byte at least. -/
def read_records_from (bytes : Bytes) (offset : Nat) : List Record := (read_records bytes.length (bytes.drop offset)).1

/-- What no record is read of. -/
def unread (bytes : Bytes) (offset : Nat) : Bytes := (read_records bytes.length (bytes.drop offset)).2

/-! ## The scan -/

inductive TailVerdict where
  | Clean (end_offset : Nat)
  | TornTail (truncate_at : Nat) (burned : Seq × Seq) (burned_issuer : Option IssuerIdx)
  | Corrupt (at_offset : Nat) (range : Seq × Seq)
  deriving DecidableEq

abbrev SeqRanges := Map IssuerIdx (Seq × Seq)

def SeqRanges.note (ranges : SeqRanges) (issuer : IssuerIdx) (seq : Seq) : SeqRanges :=
  match ranges issuer with
  | some (lo, hi) => ranges.insert issuer (min lo seq, max hi seq)
  | none => ranges.insert issuer (seq, seq)

def SeqRanges.noted (ranges : SeqRanges) (records : List Record) : SeqRanges :=
  records.foldl (fun ranges r => ranges.note r.issuer r.seq) ranges

/-- The entries of a `BTreeMap` over issuers, in order. -/
def entries {α : Type} (m : Map IssuerIdx α) : List (IssuerIdx × α) :=
  (List.range 256).filterMap (fun i => (m (UInt8.ofNat i)).map (fun a => (UInt8.ofNat i, a)))

structure ScanReport where
  header : SegmentHeader
  verdict : TailVerdict
  seq_ranges : SeqRanges

/-- The loop of a scan, at `offset`; `bytes` are those from there on. -/
def scan_loop : Nat → Bytes → Nat → SeqRanges → Map IssuerIdx Seq → Except SpoolError (TailVerdict × SeqRanges)
  | 0, _, offset, seq_ranges, _ => .ok (.Clean offset, seq_ranges)
  | fuel + 1, bytes, offset, seq_ranges, last_by_issuer =>
    match decode_record bytes with
    | .ok none => .ok (.Clean offset, seq_ranges)
    | .ok (some (record, consumed)) =>
      scan_loop fuel (bytes.drop consumed) (offset + consumed) (seq_ranges.note record.issuer record.seq)
        (last_by_issuer.insert record.issuer record.seq)
    | .error .TruncatedPrefix =>
      -- `next_back` of the map: the greatest issuer, not the last one read.
      match (entries last_by_issuer).getLast? with
      | some (issuer, seq) => do
        let burned ← after seq
        .ok (.TornTail offset (burned, burned) (some issuer), seq_ranges)
      | none => .ok (.TornTail offset (1, 1) none, seq_ranges)
    | .error (.TruncatedPayload p) => .ok (.TornTail offset (p.seq, p.seq) (some p.issuer), seq_ranges)
    | .error (.ChecksumMismatch p) =>
      let rest := bytes.drop (RECORD_PREFIX_BYTES + p.len)
      match decode_record rest with
      | .ok (some _) =>
        let behind := (read_records rest.length rest).1
        let ranges := (entries ((seq_ranges.note p.issuer p.seq).noted behind)).map (·.2)
        .ok (.Corrupt offset (((ranges.map (·.1)).min?).getD p.seq, ((ranges.map (·.2)).max?).getD p.seq), seq_ranges)
      | _ => .ok (.TornTail offset (p.seq, p.seq) (some p.issuer), seq_ranges)

def scan (bytes expect_colony_hash : Bytes) (path : Nat) : Except SpoolError ScanReport := do
  let header ← SegmentHeader.decode bytes expect_colony_hash path
  let (verdict, seq_ranges) ← scan_loop (bytes.length + 1) (bytes.drop HEADER_BYTES) HEADER_BYTES .empty .empty
  .ok ⟨header, verdict, seq_ranges⟩

/-! ## What a record is read of -/

theorem decode_prefix_spec {bytes : Bytes} {p : RecordPrefix} (h : decode_prefix bytes = some p) :
    RECORD_PREFIX_BYTES ≤ bytes.length ∧ p = {
      len := from_le (slice 0 4 bytes), crc := from_le (slice 4 4 bytes), seq := from_le (slice 8 8 bytes),
      emitted_at_ms := i64_from_le (slice 16 8 bytes), issuer := (slice 24 1 bytes).headD 0,
      flags := (slice 25 1 bytes).headD 0 } := by
  rw [ decode_prefix] at h
  split at h
  · cases h
  · next hlen => exact ⟨Nat.le_of_not_lt hlen, (Option.some.inj h).symm⟩

/-- A prefix is read of the first 26 bytes. -/
theorem decode_prefix_take {bytes : Bytes} {n : Nat} (hn : RECORD_PREFIX_BYTES ≤ n) (hlen : n ≤ bytes.length) :
    decode_prefix (bytes.take n) = decode_prefix bytes := by
  unfold RECORD_PREFIX_BYTES at hn
  have hle : ∀ start count, start + count ≤ 26 → slice start count (bytes.take n) = slice start count bytes :=
    fun start count h => slice_take (h.trans hn) bytes
  have hlen' : (bytes.take n).length = n := by rw [List.length_take]; omega
  rw [ decode_prefix, decode_prefix, hlen', hle 0 4 (by omega), hle 4 4 (by omega), hle 8 8 (by omega), hle 16 8 (by omega),
    hle 24 1 (by omega), hle 25 1 (by omega)]
  unfold RECORD_PREFIX_BYTES
  rw [if_neg (by omega), if_neg (by omega)]

/-- What it takes for a record to decode. -/
theorem decode_record_ok {bytes : Bytes} {record : Record} {n : Nat} (h : decode_record bytes = .ok (some (record, n))) :
    ∃ p, decode_prefix bytes = some p ∧ n = RECORD_PREFIX_BYTES + p.len ∧ n ≤ bytes.length ∧
      (crc32c (slice 8 (n - 8) bytes)).toNat = p.crc ∧
      record = ⟨p.seq, p.emitted_at_ms, p.issuer, p.flags, slice RECORD_PREFIX_BYTES p.len bytes⟩ := by
  rw [decode_record] at h
  split at h
  · cases h
  · split at h
    · cases h
    · next p hp =>
      simp only at h
      split at h
      · cases h
      · next hlen =>
        split at h
        · cases h
        · next hcrc =>
          obtain ⟨rfl, rfl⟩ := Prod.mk.inj (Option.some.inj (Except.ok.inj h))
          exact ⟨p, hp, rfl, Nat.le_of_not_lt hlen, not_not.1 hcrc, rfl⟩

theorem decode_record_of {bytes : Bytes} {p : RecordPrefix} (hp : decode_prefix bytes = some p)
    (hlen : RECORD_PREFIX_BYTES + p.len ≤ bytes.length)
    (hcrc : (crc32c (slice 8 (RECORD_PREFIX_BYTES + p.len - 8) bytes)).toNat = p.crc) :
    decode_record bytes = .ok (some (⟨p.seq, p.emitted_at_ms, p.issuer, p.flags, slice RECORD_PREFIX_BYTES p.len bytes⟩,
      RECORD_PREFIX_BYTES + p.len)) := by
  have hne : bytes ≠ [] := by
    rintro rfl
    rw [List.length_nil, RECORD_PREFIX_BYTES] at hlen
    omega
  rw [decode_record, if_neg hne, hp]
  simp only
  rw [if_neg (Nat.not_lt.2 hlen), if_neg (not_not.2 hcrc)]

theorem decode_record_le {bytes : Bytes} {record : Record} {n : Nat} (h : decode_record bytes = .ok (some (record, n))) :
    0 < n ∧ n ≤ bytes.length := by
  obtain ⟨p, -, rfl, hlen, -⟩ := decode_record_ok h
  exact ⟨by rw [RECORD_PREFIX_BYTES]; omega, hlen⟩

/-- A record is read of its own bytes. -/
theorem decode_record_take {bytes bytes' : Bytes} {record : Record} {n : Nat} (h : decode_record bytes = .ok (some (record, n)))
    (hlen' : n ≤ bytes'.length) (hsame : bytes'.take n = bytes.take n) : decode_record bytes' = .ok (some (record, n)) := by
  obtain ⟨p, hp, rfl, hlen, hcrc, rfl⟩ := decode_record_ok h
  have hslice : ∀ start count, start + count ≤ RECORD_PREFIX_BYTES + p.len →
      slice start count bytes' = slice start count bytes := by
    intro start count hle
    rw [← slice_take hle bytes', hsame, slice_take hle]
  have hp' : decode_prefix bytes' = some p := by
    rw [← decode_prefix_take (Nat.le_add_right _ p.len) hlen', hsame, decode_prefix_take (Nat.le_add_right _ p.len) hlen, hp]
  rw [decode_record_of hp' hlen', hslice _ _ (le_refl _)]
  rw [hslice _ _ (by rw [RECORD_PREFIX_BYTES]; omega)]
  exact hcrc

/-! ## Reading what was written -/

/-- A record as it reads back: its time stamp is an `i64`. -/
def Record.stored (record : Record) : Record :=
  { record with emitted_at_ms := i64_from_le (i64_to_le record.emitted_at_ms) }

@[simp] theorem Record.stored_issuer (record : Record) : record.stored.issuer = record.issuer := by rw [Record.stored]

@[simp] theorem Record.stored_seq (record : Record) : record.stored.seq = record.seq := by rw [Record.stored]

@[simp] theorem i64_to_le_length (n : Int) : (i64_to_le n).length = 8 := to_le_length 8 _

theorem drop_i64_to_le {start : Nat} (h : 8 ≤ start) (n : Int) : (i64_to_le n).drop start = [] := drop_to_le h _

theorem record_body_length (record : Record) : (record_body record).length = 18 + record.payload.length := by
  simp only [record_body, List.length_append, to_le_length, i64_to_le_length, List.length_cons, List.length_nil]
  omega

theorem encode_record_length (record : Record) : (encode_record record).length = RECORD_PREFIX_BYTES + record.payload.length := by
  rw [encode_record, List.length_append, List.length_append, to_le_length, to_le_length, record_body_length, RECORD_PREFIX_BYTES]
  omega

/-- A written record with what follows it, cut into its fields. -/
theorem encode_record_fields {record : Record} (hlen : record.payload.length < 4294967296) (more : Bytes) :
    encode_record record ++ more = to_le 4 record.payload.length ++ (to_le 4 (crc32c (record_body record)).toNat ++
      (to_le 8 record.seq ++ (i64_to_le record.emitted_at_ms ++ ([record.issuer] ++ ([record.flags] ++
        (record.payload ++ more)))))) := by
  rw [encode_record, Nat.mod_eq_of_lt hlen]
  simp only [record_body, List.append_assoc, List.cons_append, List.nil_append]

/-- The prefix of a written record, field by field. -/
theorem decode_prefix_encode {record : Record} (hseq : record.seq < 18446744073709551616)
    (hlen : record.payload.length < 4294967296) (more : Bytes) :
    decode_prefix (encode_record record ++ more) = some {
      len := record.payload.length, crc := (crc32c (record_body record)).toNat, seq := record.seq,
      emitted_at_ms := record.stored.emitted_at_ms, issuer := record.issuer, flags := record.flags } := by
  have hlong : ¬ (encode_record record ++ more).length < RECORD_PREFIX_BYTES := by
    rw [List.length_append, encode_record_length]
    omega
  rw [ decode_prefix, if_neg hlong, encode_record_fields hlen]
  have hseq' : from_le (to_le 8 record.seq) = record.seq := from_le_to_le (by norm_num; exact hseq)
  have hlen' : from_le (to_le 4 record.payload.length) = record.payload.length := from_le_to_le (by norm_num; exact hlen)
  have hcrc : from_le (to_le 4 (crc32c (record_body record)).toNat) = (crc32c (record_body record)).toNat :=
    from_le_to_le (by norm_num; exact UInt32.toNat_lt _)
  simp [slice, List.drop_append, List.take_append, drop_to_le, drop_i64_to_le, hseq', hlen', hcrc, Record.stored]

theorem decode_encode {record : Record} (hseq : record.seq < 18446744073709551616) (hlen : record.payload.length < 4294967296)
    (more : Bytes) : decode_record (encode_record record ++ more) = .ok (some (record.stored, (encode_record record).length)) := by
  have hp := decode_prefix_encode hseq hlen more
  have hbody : slice 8 (RECORD_PREFIX_BYTES + record.payload.length - 8) (encode_record record ++ more) = record_body record := by
    rw [encode_record, List.append_assoc, List.append_assoc, ← List.append_assoc]
    refine slice_at ?_ ?_
    · rw [List.length_append, to_le_length, to_le_length]
    · rw [record_body_length, RECORD_PREFIX_BYTES]
      omega
  have hpayload : slice RECORD_PREFIX_BYTES record.payload.length (encode_record record ++ more) = record.payload := by
    rw [encode_record_fields hlen]
    simp [slice, RECORD_PREFIX_BYTES, List.drop_append, drop_to_le, drop_i64_to_le]
  have htotal : RECORD_PREFIX_BYTES + record.payload.length ≤ (encode_record record ++ more).length := by
    rw [List.length_append, encode_record_length]
    omega
  rw [decode_record_of hp htotal (by rw [hbody]), hpayload, encode_record_length, Record.stored]

/-! ## Records in a row -/

/-- The records read of `bytes`, and what is left when one does not decode. -/
inductive Reads : Bytes → List Record → Bytes → Prop
  | stop {bytes : Bytes} (h : ∀ record n, decode_record bytes ≠ .ok (some (record, n))) : Reads bytes [] bytes
  | step {bytes rest : Bytes} {record : Record} {n : Nat} {records : List Record} (h : decode_record bytes = .ok (some (record, n)))
    (hr : Reads (bytes.drop n) records rest) : Reads bytes (record :: records) rest

theorem read_records_step {bytes : Bytes} {record : Record} {n : Nat} (h : decode_record bytes = .ok (some (record, n))) (fuel : Nat) :
    read_records (fuel + 1) bytes =
      (record :: (read_records fuel (bytes.drop n)).1, (read_records fuel (bytes.drop n)).2) := by
  rw [read_records, h]

theorem read_records_stop {bytes : Bytes} (h : ∀ record n, decode_record bytes ≠ .ok (some (record, n))) (fuel : Nat) :
    read_records fuel bytes = ([], bytes) := by
  cases fuel with
  | zero => rfl
  | succ fuel =>
    rw [read_records]
    split
    · next record n heq => exact absurd heq (h record n)
    · rfl

theorem reads_records {fuel : Nat} {bytes : Bytes} (hf : bytes.length ≤ fuel) :
    Reads bytes (read_records fuel bytes).1 (read_records fuel bytes).2 := by
  induction fuel generalizing bytes with
  | zero =>
    have hnil : bytes = [] := List.length_eq_zero_iff.1 (Nat.le_zero.1 hf)
    subst hnil
    exact .stop (fun record n h => by cases h)
  | succ fuel ih =>
    by_cases h : ∃ record n, decode_record bytes = .ok (some (record, n))
    · obtain ⟨record, n, h⟩ := h
      have hn := decode_record_le h
      rw [read_records_step h]
      exact .step h (ih (by rw [List.length_drop]; omega))
    · have hstop : ∀ record n, decode_record bytes ≠ .ok (some (record, n)) := fun record n heq => h ⟨record, n, heq⟩
      rw [read_records_stop hstop]
      exact .stop hstop

theorem Reads.length_le {bytes rest : Bytes} {records : List Record} (h : Reads bytes records rest) : rest.length ≤ bytes.length := by
  induction h with
  | stop _ => exact le_refl _
  | step _ _ ih => exact ih.trans (by rw [List.length_drop]; omega)

theorem Reads.eq_read {bytes rest : Bytes} {records : List Record} (h : Reads bytes records rest) {fuel : Nat}
    (hf : bytes.length ≤ fuel) : read_records fuel bytes = (records, rest) := by
  induction h generalizing fuel with
  | stop h => exact read_records_stop h fuel
  | step h _ ih =>
    have hn := decode_record_le h
    obtain ⟨fuel, rfl⟩ : ∃ k, fuel = k + 1 := ⟨fuel - 1, by omega⟩
    rw [read_records_step h, ih (by rw [List.length_drop]; omega)]

/-- Whole records, and then more. -/
theorem Reads.append {bytes more rest : Bytes} {records records' : List Record} (h : Reads bytes records [])
    (hmore : Reads more records' rest) : Reads (bytes ++ more) (records ++ records') rest := by
  generalize hnil : ([] : Bytes) = left at h
  induction h with
  | stop _ =>
    subst hnil
    exact hmore
  | step h _ ih =>
    have hn := decode_record_le h
    refine .step (decode_record_take h (by rw [List.length_append]; omega) (List.take_append_of_le_length hn.2)) ?_
    rw [List.drop_append_of_le_length hn.2]
    exact ih hnil

/-- Cut where the reading stopped. -/
theorem Reads.take {bytes rest : Bytes} {records : List Record} (h : Reads bytes records rest) :
    Reads (bytes.take (bytes.length - rest.length)) records [] := by
  induction h with
  | stop _ =>
    rw [Nat.sub_self, List.take_zero]
    exact .stop (fun record n h => by cases h)
  | @step bytes rest record n records h hr ih =>
    have hn := decode_record_le h
    have hle := hr.length_le
    rw [List.length_drop] at hle ih
    refine .step (decode_record_take h ?_ ?_) ?_
    · rw [List.length_take]
      omega
    · rw [List.take_take, Nat.min_eq_left (by omega)]
    · rw [List.drop_take]
      have hcount : bytes.length - rest.length - n = bytes.length - n - rest.length := by omega
      rw [hcount]
      exact ih

/-! ## What a scan says -/

/-- A record whose checksum fails with one that decodes behind it. -/
def damaged (rest : Bytes) : Bool :=
  match decode_record rest with
  | .error (.ChecksumMismatch p) =>
    match decode_record (rest.drop (RECORD_PREFIX_BYTES + p.len)) with
    | .ok (some _) => true
    | _ => false
  | _ => false

/-- The verdict on what is left at `offset`. -/
def Judged (rest : Bytes) (offset : Nat) : TailVerdict → Prop
  | .Clean end_offset => rest = [] ∧ end_offset = offset
  | .TornTail truncate_at burned burned_issuer => damaged rest = false ∧ truncate_at = offset ∧
    ∀ p, decode_prefix rest = some p → burned = (p.seq, p.seq) ∧ burned_issuer = some p.issuer
  | .Corrupt _ _ => damaged rest = true

/-- A record that does not decode has its prefix to tell of it, unless that is torn too. -/
theorem decode_record_error {bytes : Bytes} {e : RecordDecodeError} (h : decode_record bytes = .error e) :
    (e = .TruncatedPrefix ∧ decode_prefix bytes = none) ∨
      ∃ p, decode_prefix bytes = some p ∧ (e = .TruncatedPayload p ∨ e = .ChecksumMismatch p) := by
  rw [decode_record] at h
  split at h
  · cases h
  · split at h
    · next hp => exact .inl ⟨(Except.error.inj h).symm, hp⟩
    · next p hp =>
      simp only at h
      split at h
      · exact .inr ⟨p, hp, .inl (Except.error.inj h).symm⟩
      · split at h
        · exact .inr ⟨p, hp, .inr (Except.error.inj h).symm⟩
        · cases h

theorem decode_record_none {bytes : Bytes} (h : decode_record bytes = .ok none) : bytes = [] := by
  rw [decode_record] at h
  split at h
  · assumption
  · split at h
    · cases h
    · simp only at h
      split at h
      · cases h
      · split at h
        · cases h
        · cases h

theorem scan_loop_spec {bytes rest : Bytes} {records : List Record} (h : Reads bytes records rest) {fuel offset : Nat}
    (hf : bytes.length < fuel) {ranges ranges' : SeqRanges} {last : Map IssuerIdx Seq} {verdict : TailVerdict}
    (hs : scan_loop fuel bytes offset ranges last = .ok (verdict, ranges')) :
    ranges' = ranges.noted records ∧ Judged rest (offset + (bytes.length - rest.length)) verdict := by
  induction h generalizing fuel offset ranges last with
  | @stop bytes h =>
    obtain ⟨fuel, rfl⟩ : ∃ k, fuel = k + 1 := ⟨fuel - 1, by omega⟩
    rw [scan_loop] at hs
    rw [Nat.sub_self, Nat.add_zero]
    cases hd : decode_record bytes with
    | ok found =>
      cases found with
      | none =>
        rw [hd] at hs
        obtain ⟨rfl, rfl⟩ := Prod.mk.inj (Except.ok.inj hs)
        exact ⟨rfl, decode_record_none hd, rfl⟩
      | some made => exact absurd hd (h made.1 made.2)
    | error e =>
      rw [hd] at hs
      rcases decode_record_error hd with ⟨rfl, hp⟩ | ⟨p, hp, rfl | rfl⟩
      · have hdam : damaged bytes = false := by rw [damaged, hd]
        simp only at hs
        split at hs
        · rw [ok_bind_iff] at hs
          obtain ⟨burned, -, hs⟩ := hs
          obtain ⟨rfl, rfl⟩ := Prod.mk.inj (Except.ok.inj hs)
          exact ⟨rfl, hdam, rfl, fun p hp' => by cases hp.symm.trans hp'⟩
        · obtain ⟨rfl, rfl⟩ := Prod.mk.inj (Except.ok.inj hs)
          exact ⟨rfl, hdam, rfl, fun p hp' => by cases hp.symm.trans hp'⟩
      · have hdam : damaged bytes = false := by rw [damaged, hd]
        obtain ⟨rfl, rfl⟩ := Prod.mk.inj (Except.ok.inj hs)
        refine ⟨rfl, hdam, rfl, fun q hq => ?_⟩
        obtain rfl := Option.some.inj (hp.symm.trans hq)
        exact ⟨rfl, rfl⟩
      · simp only at hs
        split at hs
        · next found hbehind =>
          obtain ⟨rfl, rfl⟩ := Prod.mk.inj (Except.ok.inj hs)
          refine ⟨rfl, ?_⟩
          show damaged bytes = true
          rw [damaged, hd]
          simp only [hbehind]
        · next hbehind =>
          obtain ⟨rfl, rfl⟩ := Prod.mk.inj (Except.ok.inj hs)
          refine ⟨rfl, ?_, rfl, fun q hq => ?_⟩
          · rw [damaged, hd]
            simp only
          · obtain rfl := Option.some.inj (hp.symm.trans hq)
            exact ⟨rfl, rfl⟩
  | @step bytes rest record n records h hr ih =>
    have hn := decode_record_le h
    have hle := hr.length_le
    obtain ⟨fuel, rfl⟩ : ∃ k, fuel = k + 1 := ⟨fuel - 1, by omega⟩
    rw [scan_loop, h] at hs
    obtain ⟨hranges, hjudged⟩ := ih (by rw [List.length_drop]; omega) hs
    refine ⟨hranges, ?_⟩
    rw [List.length_drop] at hle hjudged
    have hoffset : offset + (bytes.length - rest.length) = offset + n + (bytes.length - n - rest.length) := by omega
    rw [hoffset]
    exact hjudged

/-! ## Ranges -/

theorem SeqRanges.note_le (ranges : SeqRanges) (issuer : IssuerIdx) (seq : Seq) :
    ∃ lo hi, ranges.note issuer seq issuer = some (lo, hi) ∧ seq ≤ hi := by
  rw [SeqRanges.note]
  cases ranges issuer with
  | none => exact ⟨seq, seq, Map.insert_self _ _ _, le_refl seq⟩
  | some range => exact ⟨min range.1 seq, max range.2 seq, Map.insert_self _ _ _, Nat.le_max_right range.2 seq⟩

theorem SeqRanges.note_mono (ranges : SeqRanges) (issuer : IssuerIdx) (seq : Seq) {i : IssuerIdx} {lo hi : Seq}
    (h : ranges i = some (lo, hi)) : ∃ lo' hi', ranges.note issuer seq i = some (lo', hi') ∧ hi ≤ hi' := by
  by_cases hi' : i = issuer
  · subst hi'
    rw [SeqRanges.note, h]
    exact ⟨_, _, Map.insert_self _ _ _, Nat.le_max_left hi seq⟩
  · refine ⟨lo, hi, ?_, le_refl hi⟩
    rw [SeqRanges.note]
    cases ranges issuer with
    | none => exact (Map.insert_ne _ _ _ _ hi').trans h
    | some range => exact (Map.insert_ne _ _ _ _ hi').trans h

theorem SeqRanges.noted_mono (records : List Record) (ranges : SeqRanges) {i : IssuerIdx} {lo hi : Seq}
    (h : ranges i = some (lo, hi)) : ∃ lo' hi', ranges.noted records i = some (lo', hi') ∧ hi ≤ hi' := by
  induction records generalizing ranges lo hi with
  | nil => exact ⟨lo, hi, h, le_refl hi⟩
  | cons r records ih =>
    obtain ⟨lo', hi', h', hle⟩ := ranges.note_mono r.issuer r.seq h
    obtain ⟨lo'', hi'', h'', hle'⟩ := ih _ h'
    exact ⟨lo'', hi'', h'', hle.trans hle'⟩

/-- Every record is within the range of its issuer. -/
theorem SeqRanges.le_noted {records : List Record} {r : Record} (hr : r ∈ records) (ranges : SeqRanges) :
    ∃ lo hi, ranges.noted records r.issuer = some (lo, hi) ∧ r.seq ≤ hi := by
  induction records generalizing ranges with
  | nil => cases hr
  | cons r' records ih =>
    rcases List.mem_cons.1 hr with rfl | hr
    · obtain ⟨lo, hi, h, hle⟩ := ranges.note_le r.issuer r.seq
      obtain ⟨lo', hi', h', hle'⟩ := SeqRanges.noted_mono records _ h
      exact ⟨lo', hi', h', hle.trans hle'⟩
    · exact ih hr _

end Ambush.Bridge

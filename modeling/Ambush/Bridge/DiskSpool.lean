import Mathlib.Data.List.Sort
import Ambush.Bridge.Segment
/-!
# The spool on disk

A directory of segments and a cursor file, and the `DiskSpool` that is open over it. Each
operation returns the directory and the spool it leaves, also when it fails. Which file
calls fail, and after how many bytes, are arguments.
-/
open Lib

namespace Ambush.Bridge

/-! ## The directory -/

/-- A file `{ordinal:020}.seg`; its first `synced` bytes are on the disk for good. -/
structure SegmentFile where
  ordinal : Nat
  bytes : Bytes
  synced : Nat := 0
  deriving DecidableEq

/-- The segments in the order of their names, and the cursor file. -/
structure Disk where
  segments : List SegmentFile := []
  cursor : Cursor := {}

namespace Disk

def segment (d : Disk) (ordinal : Nat) : Option SegmentFile := d.segments.find? (fun f => f.ordinal = ordinal)

def update (d : Disk) (ordinal : Nat) (change : SegmentFile → SegmentFile) : Disk :=
  { d with segments := d.segments.map (fun f => if f.ordinal = ordinal then change f else f) }

def write (d : Disk) (ordinal : Nat) (bytes : Bytes) : Disk := d.update ordinal (fun f => { f with bytes := f.bytes ++ bytes })

def sync (d : Disk) (ordinal : Nat) : Disk := d.update ordinal (fun f => { f with synced := f.bytes.length })

def unlink (d : Disk) (ordinal : Nat) : Disk := { d with segments := d.segments.filter (fun f => f.ordinal ≠ ordinal) }

def add (d : Disk) (f : SegmentFile) : Disk :=
  { d with segments := d.segments.orderedInsert (fun a b => a.ordinal ≤ b.ordinal) f }

end Disk

structure SpoolConfig where
  colony_hash : Bytes
  stream : Stream
  segment_bytes : Nat
  max_bytes : Nat

def Stream.disk_code : Stream → UInt8
  | .Evidence => 1
  | .Telemetry => 2
  | .Alarm => 3
  | .DroppedAtSource => 0

/-- How the creation of a segment goes: whole, stopped in the header, or refused. -/
inductive Created where
  | Whole
  | Torn (written : Nat)
  | Refused
  deriving DecidableEq

/-- `Segment::create`, and whether it succeeded. -/
def create_segment (config : SpoolConfig) (d : Disk) (ordinal : Nat) (now_ms : Int) (created : Created) : Disk × Bool :=
  let header : SegmentHeader := ⟨FORMAT_VERSION, config.stream.disk_code, ordinal, now_ms, config.colony_hash⟩
  if (d.segment ordinal).isSome then (d, false)
  else
    match created with
    | .Whole => (d.add { ordinal, bytes := header.encode }, true)
    | .Torn written => (d.add { ordinal, bytes := header.encode.take written }, false)
    | .Refused => (d, false)

/-! ## The open spool -/

structure DiskSpool where
  /-- The active segment, and where its records end. -/
  active : Nat
  end_offset : Nat
  sealed : List Nat
  cursor : Cursor
  bytes : Nat
  next_ordinal : Nat

def DiskSpool.next_seq (s : DiskSpool) (issuer : IssuerIdx) : Seq := (s.cursor.next_seq issuer).getD 1

/-! ## Opening -/

/-- An issuer's next number is at least `seq`. -/
def raise (next_seq : Map IssuerIdx Seq) (issuer : IssuerIdx) (seq : Seq) : Map IssuerIdx Seq :=
  next_seq.insert issuer (max ((next_seq issuer).getD 1) seq)

/-- Past the highest number of each range. -/
def raise_ranges (next_seq : Map IssuerIdx Seq) : List (IssuerIdx × (Seq × Seq)) → Except SpoolError (Map IssuerIdx Seq)
  | [] => .ok next_seq
  | (issuer, _, hi) :: ranges => do
    let next ← after hi
    raise_ranges (raise next_seq issuer next) ranges

structure Recovery where
  cursor : Cursor
  sealed : List Nat := []
  bytes : Nat := 0
  next_ordinal : Nat := 0
  recovered_next_seq : Map IssuerIdx Seq := .empty
  last_clean : Option (Nat × Nat) := none

/-- The newest segment so far may be appended to; the one before is sealed. -/
def Recovery.keep (r : Recovery) (ordinal end_offset : Nat) : Recovery :=
  { r with
    bytes := r.bytes + end_offset
    sealed := r.sealed ++ (r.last_clean.map (·.1)).toList
    last_clean := some (ordinal, end_offset) }

def Recovery.mark_gap (r : Recovery) (cause : GapCause) : Recovery := { r with cursor := r.cursor.mark_gap cause }

/-- What a scan of a segment adds to the recovery. -/
def Recovery.scanned (r : Recovery) (config : SpoolConfig) (f : SegmentFile) : Except SpoolError (ScanReport × Recovery) := do
  let report ← scan f.bytes config.colony_hash f.ordinal
  let next_ordinal ← after report.header.ordinal
  let recovered_next_seq ← raise_ranges r.recovered_next_seq (entries report.seq_ranges)
  .ok (report, { r with next_ordinal := max r.next_ordinal next_ordinal, recovered_next_seq })

/-- The number of a torn record is not given out again. -/
def Recovery.burn (r : Recovery) (burned : Seq × Seq) : Option IssuerIdx → Except SpoolError Recovery
  | some issuer => do
    let next ← after burned.2
    .ok { r with recovered_next_seq := raise r.recovered_next_seq issuer next }
  | none => .ok r

/-- One segment: what is left of its file, and the recovery after it. -/
def recover_segment (config : SpoolConfig) (r : Recovery) (f : SegmentFile) : Option SegmentFile × Except SpoolError Recovery :=
  match r.scanned config f with
  | .error e => (some f, .error e)
  | .ok (report, r) =>
    match report.verdict with
    | .Clean end_offset => (some f, .ok (r.keep f.ordinal end_offset))
    | .TornTail truncate_at burned burned_issuer =>
      let cut := { f with bytes := f.bytes.take truncate_at, synced := min f.synced truncate_at }
      match r.burn burned burned_issuer with
      | .error e => (some cut, .error e)
      | .ok r => (some cut, .ok ((r.mark_gap (.SpoolTornTail burned.1 burned.2)).keep f.ordinal truncate_at))
    | .Corrupt _ range => (none, .ok (r.mark_gap (.SpoolEvicted range.1 range.2)))

/-- All segments; the file calls on the `n`-th succeed when `ok n`. -/
def recover (config : SpoolConfig) (ok : Nat → Bool) : Nat → Recovery → List SegmentFile →
    List SegmentFile × Except SpoolError Recovery
  | _, r, [] => ([], .ok r)
  | n, r, f :: files =>
    if ok n then
      match recover_segment config r f with
      | (left, .error e) => (left.toList ++ files, .error e)
      | (left, .ok r) => (left.toList ++ (recover config ok (n + 1) r files).1, (recover config ok (n + 1) r files).2)
    else (f :: files, .error .SpoolIo)

/-- The scan's numbers, or the cursor's where they are higher. -/
def honoured (recovered next_seq : Map IssuerIdx Seq) : Map IssuerIdx Seq := fun issuer =>
  match next_seq issuer with
  | some seq => some (max ((recovered issuer).getD 1) seq)
  | none => recovered issuer

/-- The last clean segment is scanned again before it is opened to append. -/
def open_for_append (config : SpoolConfig) (d : Disk) (ordinal : Nat) : Except SpoolError Unit :=
  match d.segment ordinal with
  | some f => (scan f.bytes config.colony_hash ordinal).map (fun _ => ())
  | none => .error .SpoolIo

/-- The active segment of an opened spool, or the error that ends the open. -/
def open_active (config : SpoolConfig) (d : Disk) (r : Recovery) (cursor : Cursor) (now_ms : Int) (created : Created) :
    Disk × Except SpoolError DiskSpool :=
  match r.last_clean with
  | some (ordinal, end_offset) =>
    (d, (open_for_append config d ordinal).map (fun _ => ⟨ordinal, end_offset, r.sealed, cursor, r.bytes, r.next_ordinal⟩))
  | none =>
    match create_segment config d r.next_ordinal now_ms created with
    | (d, true) => (d, .ok ⟨r.next_ordinal, HEADER_BYTES, r.sealed, cursor, r.bytes + HEADER_BYTES, r.next_ordinal + 1⟩)
    | (d, false) => (d, .error .SpoolIo)

/-- `DiskSpool::open`; `stored` is whether the cursor file is written at the end. -/
def open_spool (config : SpoolConfig) (d : Disk) (now_ms : Int) (ok : Nat → Bool) (created : Created) (stored : Bool) :
    Disk × Except SpoolError DiskSpool :=
  let found := recover config ok 0 { cursor := d.cursor } d.segments
  let d := { d with segments := found.1 }
  match found.2 with
  | .error e => (d, .error e)
  | .ok r =>
    let cursor := { r.cursor with next_seq := honoured r.recovered_next_seq r.cursor.next_seq }
    match open_active config d r cursor now_ms created with
    | (d, .error e) => (d, .error e)
    | (d, .ok s) => if stored then ({ d with cursor }, .ok s) else (d, .error .SpoolIo)

/-! ## Appending -/

/-- The file calls of an append: the bytes written when the write stops, the sync and the new segment of a roll, the
cursor's write after it, the unlinks of an eviction, and the cursor's write at its end. -/
structure Faults where
  written : Option Nat := none
  synced : Bool := true
  created : Created := .Whole
  stored : Bool := true
  unlinked : Nat → Bool := fun _ => true
  restored : Bool := true

def roll (config : SpoolConfig) (d : Disk) (s : DiskSpool) (now_ms : Int) (faults : Faults) :
    Disk × DiskSpool × Except SpoolError Unit :=
  if faults.synced then
    let ordinal := s.next_ordinal
    let s := { s with sealed := s.sealed ++ [s.active], next_ordinal := ordinal + 1 }
    match create_segment config (d.sync s.active) ordinal now_ms faults.created with
    | (d, false) => (d, s, .error .SpoolIo)
    | (d, true) =>
      let s := { s with active := ordinal, end_offset := HEADER_BYTES, bytes := s.bytes + HEADER_BYTES }
      if faults.stored then ({ d with cursor := s.cursor }, s, .ok ()) else (d, s, .error .SpoolIo)
  else (d, s, .error .SpoolIo)

/-- The loss of a segment, over all issuers. -/
def evicted_range (ranges : SeqRanges) : Option GapCause :=
  match ((entries ranges).map (·.2.1)).min?, ((entries ranges).map (·.2.2)).max? with
  | some from_seq, some to_seq => some (.SpoolEvicted from_seq to_seq)
  | _, _ => none

/-- The loop of `evict_to_budget` over the sealed segments. -/
def evict_loop (config : SpoolConfig) (unlinked : Nat → Bool) : Nat → List Nat → Disk → DiskSpool →
    Disk × DiskSpool × Except SpoolError Unit
  | _, [], d, s => (d, s, .ok ())
  | n, path :: sealed, d, s =>
    if config.max_bytes < s.bytes then
      let s := { s with sealed }
      match d.segment path with
      | none => (d, s, .error .SpoolIo)
      | some f =>
        match scan f.bytes config.colony_hash path with
        | .error e => (d, s, .error e)
        | .ok report =>
          if unlinked n then
            let cursor := ((evicted_range report.seq_ranges).map s.cursor.mark_gap).getD s.cursor
            evict_loop config unlinked (n + 1) sealed (d.unlink path) { s with bytes := s.bytes - f.bytes.length, cursor }
          else (d, s, .error .SpoolIo)
    else (d, s, .ok ())

def evict_to_budget (config : SpoolConfig) (d : Disk) (s : DiskSpool) (faults : Faults) :
    Disk × DiskSpool × Except SpoolError Unit :=
  match evict_loop config faults.unlinked 0 s.sealed d s with
  | (d, s, .error e) => (d, s, .error e)
  | (d, s, .ok ()) => if faults.restored then ({ d with cursor := s.cursor }, s, .ok ()) else (d, s, .error .SpoolIo)

/-- The end of an append: a full segment is rolled, and the budget kept. -/
def settle (config : SpoolConfig) (d : Disk) (s : DiskSpool) (now_ms : Int) (faults : Faults) :
    Disk × DiskSpool × Except SpoolError Unit :=
  if config.segment_bytes ≤ s.end_offset then
    match roll config d s now_ms faults with
    | (d, s, .error e) => (d, s, .error e)
    | (d, s, .ok ()) => if config.stream = .Alarm then (d, s, .ok ()) else evict_to_budget config d s faults
  else (d, s, .ok ())

/-- The record goes to the active segment under its issuer's next number, which is the result. -/
def append_record (config : SpoolConfig) (d : Disk) (s : DiskSpool) (record : Record) (now_ms : Int) (faults : Faults) :
    Disk × DiskSpool × Except SpoolError Seq :=
  if config.stream = .Alarm ∧ config.max_bytes ≤ s.bytes then (d, s, .error (.AlarmSpoolFull s.bytes config.max_bytes))
  else
    let seq := s.next_seq record.issuer
    let bytes := encode_record { record with seq }
    match faults.written with
    | some written => (d.write s.active (bytes.take written), s, .error .SpoolIo)
    | none =>
      let d := d.write s.active bytes
      let s := { s with
        end_offset := s.end_offset + bytes.length
        bytes := s.bytes + (RECORD_PREFIX_BYTES + record.payload.length) }
      match after seq with
      | .error e => (d, s, .error e)
      | .ok next =>
        let s := { s with cursor := { s.cursor with next_seq := s.cursor.next_seq.insert record.issuer next } }
        match settle config d s now_ms faults with
        | (d, s, .error e) => (d, s, .error e)
        | (d, s, .ok ()) => (d, s, .ok seq)

/-! ## The cursor -/

/-- `Cursor::store`: a write that fails leaves the file as it was. -/
def store_cursor (d : Disk) (s : DiskSpool) (ok : Bool) : Disk := if ok then { d with cursor := s.cursor } else d

def commit_seq (d : Disk) (s : DiskSpool) (issuer : IssuerIdx) (seq : Seq) (ok : Bool) : Disk × DiskSpool :=
  let committed := s.cursor.committed.insert issuer (max ((s.cursor.committed issuer).getD 0) seq)
  let s := { s with cursor := { s.cursor with committed } }
  (store_cursor d s ok, s)

def mark_gap_cause (d : Disk) (s : DiskSpool) (cause : GapCause) (ok : Bool) : Disk × DiskSpool :=
  let s := { s with cursor := s.cursor.mark_gap cause }
  (store_cursor d s ok, s)

def take_gap_causes (d : Disk) (s : DiskSpool) (ok : Bool) : Disk × DiskSpool :=
  let taken := { s with cursor := { s.cursor with pending := [] } }
  (if s.cursor.pending = [] then d else store_cursor d taken ok, taken)

/-- `DiskSpool::seal`. -/
def seal_spool (d : Disk) (s : DiskSpool) (synced ok : Bool) : Disk := if synced then store_cursor (d.sync s.active) s ok else d

end Ambush.Bridge

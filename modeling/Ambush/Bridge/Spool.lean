import Ambush.Bridge.Cards
/-!
# The evidence spool

A `DiskSpool` as its drain sees it: the records its segments read back to, oldest first,
the cursor in memory and the cursor on disk. Whether a write of the cursor file succeeds
is an argument of each operation.
-/
open Lib

namespace Ambush.Bridge

structure Cursor where
  committed : Map IssuerIdx Seq := .empty
  next_seq : Map IssuerIdx Seq := .empty
  pending : List GapCause := []

def Cursor.mark_gap (c : Cursor) (cause : GapCause) : Cursor := { c with pending := c.pending ++ [cause] }

structure EvidenceSpool where
  records : List Record := []
  cursor : Cursor := {}
  stored : Cursor := {}

namespace EvidenceSpool

/-- `Cursor::store`: a write that fails leaves the file as it was. -/
def store (s : EvidenceSpool) (ok : Bool) : EvidenceSpool := if ok then { s with stored := s.cursor } else s

@[simp] theorem store_cursor (s : EvidenceSpool) (ok : Bool) : (s.store ok).cursor = s.cursor := by
  rw [store]
  split <;> rfl

def next_seq (s : EvidenceSpool) (issuer : IssuerIdx) : Seq := (s.cursor.next_seq issuer).getD 1

def is_committed (s : EvidenceSpool) (record : Record) : Bool :=
  (s.cursor.committed record.issuer).any (fun committed => record.seq ≤ committed)

/-- The record under the issuer's next number; the counter is checked for overflow. -/
def append (s : EvidenceSpool) (record : Record) : Option EvidenceSpool :=
  let seq := s.next_seq record.issuer
  if seq + 1 < 18446744073709551616 then
    some { s with
      records := s.records ++ [{ record with seq }]
      cursor := { s.cursor with next_seq := s.cursor.next_seq.insert record.issuer (seq + 1) } }
  else none

/-- The loop of `peek`: at least one record, and no more than fit. -/
def peek_loop (s : EvidenceSpool) (max_bytes : Nat) (any : Bool) (budget : Nat) : List Record → List Record
  | [] => []
  | record :: records =>
    if s.is_committed record then s.peek_loop max_bytes any budget records
    else if any && decide (max_bytes < budget + record.payload.length) then []
    else record :: s.peek_loop max_bytes true (budget + record.payload.length) records

def peek (s : EvidenceSpool) (max_bytes : Nat) : List Record := s.peek_loop max_bytes false 0 s.records

/-- The cursor advances in memory even when its write fails. -/
def commit (s : EvidenceSpool) (issuer : IssuerIdx) (seq : Seq) (ok : Bool) : EvidenceSpool :=
  store { s with
    cursor := { s.cursor with
      committed := s.cursor.committed.insert issuer (max ((s.cursor.committed issuer).getD 0) seq) } } ok

def mark_gap (s : EvidenceSpool) (cause : GapCause) (ok : Bool) : EvidenceSpool :=
  store { s with cursor := s.cursor.mark_gap cause } ok

/-- The pending causes, and the spool without them. -/
def take_gaps (s : EvidenceSpool) (ok : Bool) : List GapCause × EvidenceSpool :=
  let taken := s.cursor.pending
  let s := { s with cursor := { s.cursor with pending := [] } }
  (taken, if taken = [] then s else s.store ok)

/-- Mark the causes in turn, the `n`-th write of the cursor being `ok n`. -/
def mark_gaps (ok : Nat → Bool) : Nat → EvidenceSpool → List GapCause → EvidenceSpool
  | _, s, [] => s
  | n, s, cause :: gaps => mark_gaps ok (n + 1) (s.mark_gap cause (ok n)) gaps

/-- The loss of the oldest `count` records, a sealed segment, over all issuers. -/
def evicted (s : EvidenceSpool) (count : Nat) : Option GapCause :=
  let gone := (s.records.take count).map (·.seq)
  match gone.min?, gone.max? with
  | some from_seq, some to_seq => some (.SpoolEvicted from_seq to_seq)
  | _, _ => none

/-- Unlink them. -/
def evict (s : EvidenceSpool) (count : Nat) (ok : Bool) : EvidenceSpool :=
  let rest := { s with records := s.records.drop count }
  match s.evicted count with
  | some cause => rest.mark_gap cause ok
  | none => rest.store ok

/-- The next numbers after a scan of the segments, or the cursor file's when they are higher. -/
def recovered (s : EvidenceSpool) : Map IssuerIdx Seq := fun issuer =>
  let seqs := (s.records.filter (fun r => r.issuer = issuer)).map (·.seq + 1) ++ (s.stored.next_seq issuer).toList
  if seqs = [] then none else some (seqs.foldl max 1)

/-- `DiskSpool::open` over the segments and the cursor file, which it writes again. -/
def reopen (s : EvidenceSpool) : EvidenceSpool :=
  store { s with cursor := { s.stored with next_seq := s.recovered } } true

end EvidenceSpool
end Ambush.Bridge

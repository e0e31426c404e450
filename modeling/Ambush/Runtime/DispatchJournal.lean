import Ambush.Lib.Files
import Ambush.Lib.Tables
import Ambush.Core.Canonical
import Ambush.Policy.Gate
/-!
# The dispatch journal

The record, in one directory, of every dispatch permission that was ever consumed. What
the journal takes from outside is in `Host`: `serde_json`, SHA-256, `ryu` and the device
the directory is on. A call checks what it is asked first (`prepare`), then that the
files are still what the journal left (`validate_files`), and only then writes
(`append_calls`); any error after the first byte poisons the journal.
-/
open Lib

namespace Ambush.Runtime
open Policy (ActionRequest)

def VERSION : Nat := 1
def MAX_CHECKPOINT_BYTES : Nat := 1024
def MAX_DISPATCH_ENTRIES : Nat := 100000
def MAX_DISPATCH_RECORD_BYTES : Nat := 65536
def MAX_DISPATCH_JOURNAL_BYTES : Nat := 134217728
def MAX_JSON_DEPTH : Nat := 96

/-- The byte that ends a line. -/
def newline : UInt8 := 10

/-! ## Data -/

structure CapabilityLease where
  capability_id : String
  expires_at_ms : Int
  action : String
  scope : Option String
  deriving DecidableEq

inductive ExecutionMode where
  | DryRun | Enforced
  deriving DecidableEq

inductive ResponseStatus where
  | Simulated | Executed | Timeout | Failed
  deriving DecidableEq

inductive PolicyVerdict where
  | Deny | Allow | RequireHuman
  deriving DecidableEq

structure ResponsePolicyAudit where
  verdict : PolicyVerdict
  rule_name : String
  reason : String
  deriving DecidableEq

structure ResponseGovernanceAudit where
  governing_agent_id : AgentId
  reason : String
  receipt : Option Value
  deriving DecidableEq

structure OperatorApproval where
  operator_id : String
  voter_id : String
  hold_id : String
  decided_at_ms : Int
  signature : DetachedSignature
  rationale : Option String
  rationale_sha256 : Option String
  nostr_intent_event_id : Option String
  deriving DecidableEq

structure ResponseReceiptAudit where
  policy : Option ResponsePolicyAudit := none
  governance : Option ResponseGovernanceAudit := none
  approved_by : Option OperatorApproval := none
  deriving DecidableEq

structure ResponseReceipt where
  receipt_id : String
  action : String
  mode : ExecutionMode
  status : ResponseStatus
  summary : String
  details : Value
  audit : ResponseReceiptAudit
  deriving DecidableEq

structure ResponseFailure where
  receipt_id : String
  action : String
  mode : ExecutionMode
  message : String
  details : Value
  deriving DecidableEq

structure ResponseError where
  failure : ResponseFailure
  deriving DecidableEq

/-- `Result<ResponseReceipt, ResponseError>`. -/
abbrev ResponseResult := Except ResponseError ResponseReceipt

structure DispatchRecord where
  dispatch_id : String
  request : ActionRequest
  lease : CapabilityLease
  reserved_at_ms : Int
  completion : Option ResponseResult
  deriving DecidableEq

inductive JournalEvent where
  | Header (version : Nat)
  | Intent (dispatch_id : String) (request : ActionRequest) (lease : CapabilityLease) (reserved_at_ms : Int)
  | Completion (dispatch_id : String) (result : ResponseResult)
  deriving DecidableEq

structure Checkpoint where
  version : Nat
  bytes : Nat
  digest : String
  writer_identity : String
  deriving DecidableEq

/-- What a request's identity is taken over. -/
structure Identity where
  hunt_id : HuntId
  requested_by : AgentId
  action : ResponseAction
  deriving DecidableEq

def Identity.serialize (i : Identity) : Value :=
  .object [("action", i.action.serialize), ("hunt_id", .string i.hunt_id), ("requested_by", .string i.requested_by)]

/-- The files of a journal's directory. -/
inductive FileName where
  | lock | journal | manifest | temporary
  deriving DecidableEq

inductive DispatchJournalError where
  | Io (file : FileName)
  | AlreadyOpen
  | Corrupt (message : String)
  | AlreadyReserved (dispatch_id : String)
  | LimitExceeded (limit : String)
  | Poisoned
  | UnknownDispatch (dispatch_id : String)
  | AlreadyCompleted (dispatch_id : String)
  | Serialization (message : String)
  deriving DecidableEq

/-- What the journal takes from outside. -/
structure Host where
  /-- `serde_json::to_writer`, as far as it is called. -/
  to_vec : JournalEvent → Except String Bytes
  request_to_vec : ActionRequest → Except String Bytes
  lease_to_vec : CapabilityLease → Except String Bytes
  result_to_vec : ResponseResult → Except String Bytes
  identity_to_vec : Identity → Except String Bytes
  checkpoint_to_vec : Checkpoint → Except String Bytes
  /-- `serde_json::from_slice`. -/
  from_slice : Bytes → Except String JournalEvent
  checkpoint_from_slice : Bytes → Except String Checkpoint
  /-- The double that is read from the text that a double is written as. -/
  parse_f64 : Rat → Rat
  ryu : Rat → String
  /-- The digest in hex. -/
  sha256_hex : Bytes → String
  /-- `MetadataExt::dev` of the directory's files, and `MetadataExt::ino` of each. -/
  dev : Nat
  ino : Nat → Nat

section
variable (h : Host)

/-! ## Identities and limits -/

def text_bytes (s : String) : Bytes := s.toByteArray.data.toList

def serialize_bounded (written : Except String Bytes) : Except DispatchJournalError Bytes :=
  match written with
  | .error e => .error (.Serialization e)
  | .ok bytes => if bytes.length < MAX_DISPATCH_RECORD_BYTES then .ok bytes else .error (.LimitExceeded "record byte count")

/-- The same for every request that differs in evidence and severity only. -/
def request_id (request : ActionRequest) : Except DispatchJournalError String := do
  let identity : Identity := ⟨request.hunt_id, request.requested_by, request.action⟩
  let _ ← serialize_bounded (h.identity_to_vec identity)
  match Canonical.canonicalize h.ryu identity.serialize with
  | .error (.JsonError e) => .error (.Serialization e)
  | .ok body => .ok ("dispatch:" ++ h.sha256_hex (text_bytes "ambush.dispatch-intent.v1" ++ 0 :: text_bytes body))

def children : Value → List Value
  | .array values => values
  | .object fields => fields.map (·.2)
  | _ => []

/-- The loop of `validate_json_depth`; its stack has the value popped next in front. -/
def depth_loop : Nat → Nat → List (Nat × Value) → Except DispatchJournalError Unit
  | 0, _, _ => .ok ()
  | _, _, [] => .ok ()
  | fuel + 1, visited, (depth, value) :: pending =>
    if depth > MAX_JSON_DEPTH then .error (.Serialization "JSON nesting exceeds recoverable depth")
    else if visited + 1 + pending.length + (children value).length > MAX_DISPATCH_RECORD_BYTES then
      .error (.LimitExceeded "JSON node count")
    else depth_loop fuel (visited + 1) ((children value).reverse.map (fun v => (depth + 1, v)) ++ pending)

/-- Each turn of the loop counts one more node, so the node limit bounds the turns. -/
def validate_json_depth (value : Value) : Except DispatchJournalError Unit :=
  depth_loop (MAX_DISPATCH_RECORD_BYTES + 1) 0 [(0, value)]

def serialize_event (event : JournalEvent) : Except DispatchJournalError Bytes := do
  let bytes ← serialize_bounded (h.to_vec event)
  let bytes := bytes ++ [newline]
  if bytes.length > MAX_DISPATCH_RECORD_BYTES then .error (.LimitExceeded "record byte count") else
  -- deeper values can be written than read: what is written must be readable
  match h.from_slice bytes with
  | .error e => .error (.Serialization ("event cannot be recovered: " ++ e))
  | .ok _ => .ok bytes

/-! ## Reading -/

/-- `read_until` the end of a line. -/
def up_to_newline : Bytes → Bytes
  | [] => []
  | b :: bs => if b = newline then [b] else b :: up_to_newline bs

structure Loaded where
  records : List DispatchRecord := []
  read_bytes : Nat := 0
  hashed : Bytes := []
  line_number : Nat := 0
  deriving DecidableEq

/-- What an event after the header does to the records. -/
def replay_event (records : List DispatchRecord) : JournalEvent → Except DispatchJournalError (List DispatchRecord)
  | .Header _ => .error (.Corrupt "duplicate journal header")
  | .Intent dispatch_id request lease reserved_at_ms => do
    let id ← request_id h request
    if id ≠ dispatch_id ∨ (lookupBy DispatchRecord.dispatch_id dispatch_id records).isSome then
      .error (.Corrupt "mismatched or duplicate intent identity")
    else if lease.action ≠ request.action.kind ∨ lease.expires_at_ms ≤ reserved_at_ms then
      .error (.Corrupt "intent has invalid action authorization")
    else if records.length ≥ MAX_DISPATCH_ENTRIES then .error (.LimitExceeded "dispatch entry count")
    else .ok (insertBy DispatchRecord.dispatch_id ⟨dispatch_id, request, lease, reserved_at_ms, none⟩ records)
  | .Completion dispatch_id result =>
    match lookupBy DispatchRecord.dispatch_id dispatch_id records with
    | none => .error (.Corrupt "completion without intent")
    | some record =>
      if record.completion.isSome then .error (.Corrupt "duplicate completion")
      else .ok (updateBy DispatchRecord.dispatch_id dispatch_id (fun r => { r with completion := some result }) records)

def read_line (loaded : Loaded) (line : Bytes) : Except DispatchJournalError Loaded := do
  let line_number := loaded.line_number + 1
  if line.length > MAX_DISPATCH_RECORD_BYTES then .error (.LimitExceeded "record byte count")
  else if line.getLast? ≠ some newline then
    .error (.Corrupt ("truncated record at line " ++ toString line_number))
  else if loaded.read_bytes + line.length > MAX_DISPATCH_JOURNAL_BYTES then .error (.LimitExceeded "journal byte count")
  else
    match h.from_slice line with
    | .error e => .error (.Corrupt ("line " ++ toString line_number ++ ": " ++ e))
    | .ok event =>
      let next := { loaded with
        read_bytes := loaded.read_bytes + line.length, hashed := loaded.hashed ++ line, line_number }
      if line_number = 1 then
        if event = .Header VERSION then .ok next else .error (.Corrupt "missing or unsupported journal header")
      else do
        let records ← replay_event h loaded.records event
        .ok { next with records }

/-- The loop over the lines, each of at least a byte. -/
def read_loop : Nat → Loaded → Bytes → Except DispatchJournalError Loaded
  | 0, loaded, _ => .ok loaded
  | fuel + 1, loaded, bytes =>
    let line := up_to_newline (bytes.take (MAX_DISPATCH_RECORD_BYTES + 1))
    if line = [] then .ok loaded
    else do
      let loaded ← read_line h loaded line
      read_loop fuel loaded (bytes.drop line.length)

def read_records (file : Bytes) : Except DispatchJournalError Loaded := do
  if file.length > MAX_DISPATCH_JOURNAL_BYTES then .error (.LimitExceeded "journal byte count") else
  let loaded ← read_loop h file.length {} file
  if loaded.line_number = 0 ∨ loaded.read_bytes ≠ file.length then
    .error (.Corrupt "empty or concurrently changed journal")
  else .ok loaded

/-! ## Files -/

structure JournalState where
  file : Nat
  records : List DispatchRecord
  bytes : Nat
  poisoned : Bool
  hashed : Bytes
  deriving DecidableEq

structure DispatchJournal where
  writer_lock : Nat
  state : JournalState
  deriving DecidableEq

def file_identity (file : Nat) : String := toString h.dev ++ ":" ++ toString (h.ino file)

def read_checkpoint (fs : Files FileName) : Except DispatchJournalError Checkpoint :=
  if (fs.names .temporary).isSome then .error (.Corrupt "interrupted checkpoint update")
  else
    match fs.names .manifest with
    | none => .error (.Io .manifest)
    | some file =>
      if (fs.data file).length > MAX_CHECKPOINT_BYTES then .error (.Corrupt "oversized checkpoint")
      else
        match h.checkpoint_from_slice (fs.data file) with
        | .error e => .error (.Corrupt ("invalid checkpoint: " ++ e))
        | .ok checkpoint => .ok checkpoint

def validate_checkpoint (checkpoint : Checkpoint) (bytes : Nat) (hashed : Bytes) : Except DispatchJournalError Unit :=
  if checkpoint.version ≠ VERSION ∨ checkpoint.bytes ≠ bytes ∨ checkpoint.digest ≠ h.sha256_hex hashed then
    .error (.Corrupt "journal differs from durable checkpoint")
  else .ok ()

def validate_writer (fs : Files FileName) (writer_lock : Nat) (checkpoint : Checkpoint) :
    Except DispatchJournalError Unit :=
  match fs.names .lock with
  | none => .error (.Io .lock)
  | some named =>
    if checkpoint.writer_identity ≠ file_identity h writer_lock ∨ checkpoint.writer_identity ≠ file_identity h named then
      .error (.Corrupt "writer lock was replaced")
    else .ok ()

def validate_files (fs : Files FileName) (journal : DispatchJournal) : Except DispatchJournalError Unit := do
  let checkpoint ← read_checkpoint h fs
  validate_writer h fs journal.writer_lock checkpoint
  validate_checkpoint h checkpoint journal.state.bytes journal.state.hashed
  match fs.names .journal with
  | none => .error (.Io .journal)
  | some disk =>
    if (fs.data disk).length ≠ journal.state.bytes ∨ (fs.data journal.state.file).length ≠ journal.state.bytes then
      .error (.Corrupt "journal changed outside its writer")
    else if disk ≠ journal.state.file then .error (.Corrupt "journal file was replaced")
    else validate_checkpoint h checkpoint (fs.data disk).length (fs.data disk)

/-- `write_checkpoint`, of a checkpoint already written out, into the file `temporary`. -/
def checkpoint_calls (temporary : Nat) (bytes : Bytes) : List (FileOp FileName) :=
  [.create .temporary, .write temporary bytes, .sync temporary, .rename .temporary .manifest, .syncDir]

/-- Calls, and what they end in even if none of them fails. -/
abbrev Calls := List (FileOp FileName) × Except DispatchJournalError Unit

def write_checkpoint (temporary : Nat) (checkpoint : Checkpoint) : Calls :=
  match serialize_bounded (h.checkpoint_to_vec checkpoint) with
  | .error e => ([], .error e)
  | .ok bytes => (checkpoint_calls temporary bytes, .ok ())

/-- What `open` does to a directory without a lock file: the lock is the file `lock`, the
journal the one after it. -/
def create_calls (fs : Files FileName) (lock : Nat) : Calls :=
  if (fs.names .journal).isSome ∨ (fs.names .manifest).isSome then
    ([.create .lock], .error (.Corrupt "writer lock missing from an existing journal"))
  else
    match serialize_event h (.Header VERSION) with
    | .error e => ([.create .lock], .error e)
    | .ok header =>
      let checkpoint := write_checkpoint h (lock + 2) ⟨VERSION, header.length, h.sha256_hex header, file_identity h lock⟩
      ([.create .lock, .create .journal, .write (lock + 1) header, .sync (lock + 1), .sync lock, .syncDir] ++
        checkpoint.1, checkpoint.2)

/-- The calls of `open` before it reads anything: it syncs the directory first. -/
def open_calls (fs : Files FileName) : Calls :=
  match fs.names .lock with
  | some _ => ([.syncDir], .ok ())
  | none => (.syncDir :: (create_calls h fs fs.next).1, (create_calls h fs fs.next).2)

/-- The journal as `open` finds it on the disk. -/
def load (fs : Files FileName) : Except DispatchJournalError DispatchJournal :=
  match fs.names .lock with
  | none => .error (.Io .lock)
  | some writer_lock => do
    let checkpoint ← read_checkpoint h fs
    validate_writer h fs writer_lock checkpoint
    match fs.names .journal with
    | none => .error (.Io .journal)
    | some file => do
      let loaded ← read_records h (fs.data file)
      validate_checkpoint h checkpoint loaded.read_bytes loaded.hashed
      .ok ⟨writer_lock, ⟨file, loaded.records, loaded.read_bytes, false, loaded.hashed⟩⟩

/-! ## Calls -/

inductive JournalCall where
  | reserve (request : ActionRequest) (lease : CapabilityLease) (now_ms : Int)
  | complete (dispatch_id : String) (result : ResponseResult)

/-- What a call that is not refused writes, and the records and the id it ends with. -/
structure Prepared where
  line : Bytes
  records : List DispatchRecord
  dispatch_id : String
  deriving DecidableEq

/-- `append` up to the point where it reads files. -/
def prepare_append (state : JournalState) (event : JournalEvent) (records : List DispatchRecord)
    (dispatch_id : String) : Except DispatchJournalError Prepared := do
  let line ← serialize_event h event
  if state.bytes + line.length > MAX_DISPATCH_JOURNAL_BYTES then .error (.LimitExceeded "journal byte count")
  else .ok ⟨line, records, dispatch_id⟩

def prepare_reserve (state : JournalState) (request : ActionRequest) (lease : CapabilityLease) (now_ms : Int) :
    Except DispatchJournalError Prepared := do
  validate_json_depth request.evidence
  let dispatch_id ← request_id h request
  let _ ← serialize_bounded (h.request_to_vec request)
  let _ ← serialize_bounded (h.lease_to_vec lease)
  if state.poisoned then .error .Poisoned
  else if (lookupBy DispatchRecord.dispatch_id dispatch_id state.records).isSome then
    .error (.AlreadyReserved dispatch_id)
  else if state.records.length ≥ MAX_DISPATCH_ENTRIES then .error (.LimitExceeded "dispatch entry count")
  else if lease.action ≠ request.action.kind ∨ lease.expires_at_ms ≤ now_ms then
    .error (.Corrupt "reservation requires an active lease for this action")
  else
    prepare_append h state (.Intent dispatch_id request lease now_ms)
      (insertBy DispatchRecord.dispatch_id ⟨dispatch_id, request, lease, now_ms, none⟩ state.records) dispatch_id

/-- The JSON values of a result whose nesting is checked. -/
def checked_values : ResponseResult → List Value
  | .ok receipt => receipt.details :: (receipt.audit.governance.bind (·.receipt)).toList
  | .error error => [error.failure.details]

def prepare_complete (state : JournalState) (dispatch_id : String) (result : ResponseResult) :
    Except DispatchJournalError Prepared := do
  if state.poisoned then .error .Poisoned else
  match lookupBy DispatchRecord.dispatch_id dispatch_id state.records with
  | none => .error (.UnknownDispatch dispatch_id)
  | some record =>
    if record.completion.isSome then .error (.AlreadyCompleted dispatch_id) else do
    (checked_values result).forM validate_json_depth
    let _ ← serialize_bounded (h.result_to_vec result)
    prepare_append h state (.Completion dispatch_id result)
      (updateBy DispatchRecord.dispatch_id dispatch_id (fun r => { r with completion := some result }) state.records)
      dispatch_id

def prepare (state : JournalState) : JournalCall → Except DispatchJournalError Prepared
  | .reserve request lease now_ms => prepare_reserve h state request lease now_ms
  | .complete dispatch_id result => prepare_complete h state dispatch_id result

/-- The calls of `append` once the files are found valid. -/
def append_calls (fs : Files FileName) (journal : DispatchJournal) (line : Bytes) : Calls :=
  let state := journal.state
  let checkpoint := write_checkpoint h fs.next
    ⟨VERSION, state.bytes + line.length, h.sha256_hex (state.hashed ++ line), file_identity h journal.writer_lock⟩
  ([.write state.file line, .sync state.file] ++ checkpoint.1, checkpoint.2)

def poison (journal : DispatchJournal) : DispatchJournal :=
  { journal with state := { journal.state with poisoned := true } }

/-- The journal after an append that succeeded. -/
def advance (journal : DispatchJournal) (p : Prepared) : DispatchJournal :=
  { journal with state := { journal.state with
    records := p.records
    bytes := journal.state.bytes + p.line.length
    hashed := journal.state.hashed ++ p.line } }

/-! ## Histories -/

/-- The directory and the journal open on it. -/
structure World where
  fs : Files FileName := Files.empty
  journal : Option DispatchJournal := none

inductive Event where
  | opened (result : Except DispatchJournalError Unit)
  /-- A call and its answer; a completion answers with its own id. -/
  | called (call : JournalCall) (answer : Except DispatchJournalError String)
  | closed
  /-- The process died, inside a call or between two. -/
  | died
  | powerLost

/-- One event of a directory's history. Reading a file can fail too, which is an `Io`
error like any other. -/
inductive Happens : World → Event → World → Prop
  | busy {w : World} {journal : DispatchJournal} {fs : Files FileName} {done : Bool} :
      w.journal = some journal → w.fs.Exec [.syncDir] fs done →
      Happens w (.opened (.error .AlreadyOpen)) { w with fs }
  | open_failed {w : World} {fs : Files FileName} {done : Bool} {file : FileName} :
      w.journal = none → w.fs.Exec (open_calls h w.fs).1 fs done → Happens w (.opened (.error (.Io file))) ⟨fs, none⟩
  | open_refused {w : World} {fs : Files FileName} {e : DispatchJournalError} :
      w.journal = none → w.fs.Exec (open_calls h w.fs).1 fs true →
      ((open_calls h w.fs).2 = .error e ∨ load h fs = .error e) → Happens w (.opened (.error e)) ⟨fs, none⟩
  | open_ok {w : World} {fs : Files FileName} {journal : DispatchJournal} :
      w.journal = none → w.fs.Exec (open_calls h w.fs).1 fs true → (open_calls h w.fs).2 = .ok () →
      load h fs = .ok journal → Happens w (.opened (.ok ())) ⟨fs, some journal⟩
  | open_died {w : World} {fs : Files FileName} {done : Bool} :
      w.journal = none → w.fs.Exec (open_calls h w.fs).1 fs done → Happens w .died ⟨fs, none⟩
  | refused {w : World} {journal : DispatchJournal} {call : JournalCall} {e : DispatchJournalError} :
      w.journal = some journal → prepare h journal.state call = .error e → Happens w (.called call (.error e)) w
  | unread {w : World} {journal : DispatchJournal} {call : JournalCall} {p : Prepared} {file : FileName} :
      w.journal = some journal → prepare h journal.state call = .ok p →
      Happens w (.called call (.error (.Io file))) w
  | invalid {w : World} {journal : DispatchJournal} {call : JournalCall} {p : Prepared} {e : DispatchJournalError} :
      w.journal = some journal → prepare h journal.state call = .ok p → validate_files h w.fs journal = .error e →
      (∀ file, e ≠ .Io file) → Happens w (.called call (.error e)) { w with journal := some (poison journal) }
  | append_failed {w : World} {journal : DispatchJournal} {call : JournalCall} {p : Prepared} {fs : Files FileName}
      {done : Bool} {e : DispatchJournalError} :
      w.journal = some journal → prepare h journal.state call = .ok p → validate_files h w.fs journal = .ok () →
      w.fs.Exec (append_calls h w.fs journal p.line).1 fs done →
      (done = false ∨ (append_calls h w.fs journal p.line).2 = .error e) →
      Happens w (.called call (.error e)) ⟨fs, some (poison journal)⟩
  | append_ok {w : World} {journal : DispatchJournal} {call : JournalCall} {p : Prepared} {fs : Files FileName} :
      w.journal = some journal → prepare h journal.state call = .ok p → validate_files h w.fs journal = .ok () →
      w.fs.Exec (append_calls h w.fs journal p.line).1 fs true → (append_calls h w.fs journal p.line).2 = .ok () →
      Happens w (.called call (.ok p.dispatch_id)) ⟨fs, some (advance journal p)⟩
  | append_died {w : World} {journal : DispatchJournal} {call : JournalCall} {p : Prepared} {fs : Files FileName}
      {done : Bool} :
      w.journal = some journal → prepare h journal.state call = .ok p → validate_files h w.fs journal = .ok () →
      w.fs.Exec (append_calls h w.fs journal p.line).1 fs done → Happens w .died ⟨fs, none⟩
  | closed {w : World} : Happens w .closed { w with journal := none }
  | died {w : World} : Happens w .died { w with journal := none }
  | powerLost {w : World} {fs : Files FileName} : w.fs.Crash fs → Happens w .powerLost ⟨fs, none⟩
end

end Ambush.Runtime

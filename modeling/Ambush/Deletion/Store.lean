import Ambush.Deletion.Manifest
import Ambush.Policy.Gate
/-!
# The deletion store

Each method is one transaction. It reads its own `now()`, the instant it began, which may be
long past when it comes to the front of the lock it waited for. What the server decides
besides, such as a fresh id or a row another transaction has locked, is an argument.
-/
open Lib

namespace Ambush.Deletion
open Relay (CommunityId)

abbrev Tx (A : Type) : Type := Lib.Tx Db DbError A

open Lib.Tx (require ensure read write fail)

/-- SHA-256, and `lower` of the database's collation. -/
structure Env where
  sha256 : ByteArray → List UInt8
  lower : String → String

/-! ## Parts of statements -/

/-- `i64::try_from(seconds).unwrap_or(i64::MAX)`. -/
def lease_seconds (seconds : Nat) : Int := if (seconds : Int) ≤ i64Max then seconds else i64Max

/-- `now() + make_interval(secs => seconds)`. -/
def after_seconds (now : Time) (seconds : Int) : Time := now + 1000000 * seconds

/-- The longest run of leading characters that fits. -/
def bound_chars : Nat → List Char → List Char
  | _, [] => []
  | room, c :: cs => if c.utf8Size ≤ room then c :: bound_chars (room - c.utf8Size) cs else []

def bound_text (input : String) (max : Nat) : String :=
  if input.utf8ByteSize ≤ max then input else String.ofList (bound_chars max input.toList)

/-- `str::trim`. -/
def trim (s : String) : String :=
  String.ofList ((s.toList.dropWhile Policy.is_whitespace).reverse.dropWhile Policy.is_whitespace).reverse

/-- A counter column one higher, as long as its type holds it. -/
def increment (limit : Int) (n : Int) : Tx Int :=
  require (if n < limit then some (n + 1) else none) (.Sqlx "integer out of range")

def i32Max : Int := 0x7FFFFFFF

/-- The join with `community_deletion_approvals`. -/
def Db.approved (db : Db) (r : DeletionRequest) : Bool :=
  (db.approvals.select r.id (fun a => a.community_id = r.community_id && some a.inventory_digest = r.inventory_digest)).isSome

/-- The lease of the request is the token's and has not expired, and the request is at the stage and not blocked. -/
def LeaseToken.holds (token : LeaseToken) (now : Time) (stage : DeletionStage) (r : DeletionRequest) : Bool :=
  r.stage = stage && r.lease_owner = some token.owner && r.lease_generation = token.generation &&
    r.lease_until.any (fun lease_until => decide (now ≤ lease_until)) && r.blocked_at.isNone

def stale_lease_error (token : LeaseToken) : DbError :=
  .AccessDenied ("stale deletion lease " ++ token.request_id.to_string ++ " owner " ++ str_debug token.owner ++
    " generation " ++ toString token.generation)

def require_fence_generation (token : LeaseToken) : Tx Int :=
  require token.fence_generation
    (.DeletionSafety ("deletion " ++ token.request_id.to_string ++ " has no durable fence generation"))

/-- The request of the token, if the token is current for the stage. -/
def verify_lease (now : Time) (token : LeaseToken) (stage : DeletionStage) : Tx Unit := do
  let db ← read
  ensure (db.requests.select token.request_id (fun r =>
    r.community_id = token.community_id && token.holds now stage r && db.approved r)).isSome (stale_lease_error token)

def verify_lease_and_fence (now : Time) (token : LeaseToken) (stage : DeletionStage) (fence_generation : Int) : Tx Unit := do
  let db ← read
  ensure (db.requests.select token.request_id (fun r =>
    r.community_id = token.community_id && token.holds now stage r && db.approved r &&
      r.fence_generation = some fence_generation &&
      (db.communities.select r.community_id (fun c =>
        (c.deletion_state = .fenced || c.deletion_state = .tombstone) && c.deletion_fence_generation = fence_generation)).isSome)).isSome
    (.AccessDenied ("stale lease or fencing generation for deletion " ++ token.request_id.to_string))

def advance_request_tx (now : Time) (token : LeaseToken) (source target : DeletionStage) (fence_generation : Option Int) : Tx Unit := do
  ensure (source.next = some target)
    (.DeletionSafety ("illegal deletion transition " ++ source.to_string ++ " -> " ++ target.to_string))
  let db ← read
  let r ← require (db.requests.select token.request_id (token.holds now source)) (stale_lease_error token)
  let advanced := { r with stage := target, fence_generation := fence_generation.or r.fence_generation, retry_count := 0,
                           retry_stage := none, last_error := none }
  write fun db => { db with requests := db.requests.replace advanced }

/-- The leases of the community that have not expired. -/
def Db.active_serving_writes (db : Db) (now : Time) (community : CommunityId) : List ServingWriteLease :=
  db.leases.rows.filter (fun l => l.community_id = community && decide (now ≤ l.lease_until))

/-! ## Operators -/

def submitted (id : Uuid) (now : Time) (c : CommunityRow) (requested_by : String) (reason : Option String) : DeletionRequest where
  id := id
  community_id := c.id
  community_host := c.host
  stage := .Submitted
  retry_stage := none
  requested_by := requested_by
  reason := reason
  destructive_storage_manifest := none
  destructive_storage_frozen_at := none
  inventory_manifest := none
  inventory_digest := none
  fence_generation := none
  lease_owner := none
  lease_generation := 0
  lease_until := none
  attempts := 0
  retry_count := 0
  last_error := none
  next_attempt_at := now
  blocked_at := none
  blocked_reason := none
  created_at := now
  pre_quiesce_archived_at := none
  quiescing_started_at := none
  aborted_by := none
  abort_reason := none
  aborted_at := none
  completed_at := none

/-- The partial unique index has one row a community whose stage is not `aborted`. -/
def Db.requested (db : Db) (community : CommunityId) : Bool :=
  db.requests.rows.any (fun r => r.community_id = community && r.stage ≠ .Aborted)

def submit (env : Env) (now : Time) (id : Uuid) (community_host requested_by : String) (reason : Option String) : Tx DeletionRequest := do
  let error := DbError.DeletionSafety
    ("community " ++ str_debug community_host ++ " is missing, already requested, fenced, or tombstoned")
  let db ← read
  let target ← require (db.communities.rows.find? (fun c =>
    env.lower c.host = env.lower community_host && c.deletion_state = .active && c.deleted_at.isNone)) error
  if db.requested target.id then
    require (db.requests.rows.find? (fun r =>
      r.community_id = target.id && r.stage = .Submitted && r.requested_by = requested_by)) error
  else
    let r := submitted id now target requested_by reason
    let requests ← require (db.requests.insert r) (.Sqlx "duplicate key value violates unique constraint")
    write fun db => { db with requests := requests }
    return r

def freeze_inventory (env : Env) (request_id : Uuid) (inventory : FrozenInventory) : Tx DeletionRequest := do
  match validate_storage_manifest inventory.storage with
  | .error e => fail e
  | .ok () =>
    let db ← read
    let r ← require (db.requests.select request_id (fun r => r.stage = .Submitted && r.blocked_at.isNone))
      (.DeletionSafety ("deletion " ++ request_id.to_string ++ " is not an unblocked submitted request"))
    let frozen := { r with stage := .Inventoried, inventory_manifest := some inventory,
                           inventory_digest := some (inventory.digest env.sha256), last_error := none }
    write fun db => { db with requests := db.requests.replace frozen }
    return frozen

def approve (env : Env) (now : Time) (request_id : Uuid) (approved_by : String) (note : Option String) : Tx DeletionRequest := do
  let db ← read
  let r ← require (db.requests.select request_id (fun r => r.stage = .Inventoried && r.blocked_at.isNone))
    (.DeletionSafety ("deletion " ++ request_id.to_string ++ " is not an unblocked inventoried request"))
  let digest ← require r.inventory_digest (.Sqlx "unexpected null; try decoding as an `Option`")
  let inventory ← require r.inventory_manifest (.Sqlx "unexpected null; try decoding as an `Option`")
  ensure (digest = inventory.digest env.sha256)
    (.DeletionSafety ("deletion " ++ request_id.to_string ++ " frozen inventory digest does not match its manifest"))
  let approvals ← require (db.approvals.insert ⟨request_id, r.community_id, digest, approved_by, note, now⟩)
    (.Sqlx "duplicate key value violates unique constraint")
  let approved := { r with stage := .Approved, next_attempt_at := now }
  write fun db => { db with approvals := approvals, requests := db.requests.replace approved }
  return approved

def abort (now : Time) (request_id : Uuid) (aborted_by reason : String) : Tx DeletionRequest := do
  let aborted_by := trim aborted_by
  let reason := trim reason
  ensure (aborted_by ≠ "" && reason ≠ "") (.DeletionSafety "abort requires non-empty operator identity and reason")
  let db ← read
  let r ← require (db.requests.get request_id) (.NotFound ("community deletion " ++ request_id.to_string))
  ensure (r.stage = .Approved || r.stage = .Fenced)
    (.DeletionSafety ("deletion " ++ request_id.to_string ++ " at stage " ++ r.stage.to_string ++ " cannot be aborted"))
  let active_writes := (db.active_serving_writes now r.community_id).length
  ensure (active_writes = 0)
    (.DeletionSafety ("deletion " ++ request_id.to_string ++ " cannot abort while " ++ toString active_writes ++
      " serving write lease(s) remain active"))
  let c ← require (db.communities.get r.community_id) (.Sqlx "no rows returned by a query that expected to return at least one row")
  ensure (c.deletion_fence_generation < i64Max) (.DeletionSafety "community deletion fence generation overflow")
  let new_generation := c.deletion_fence_generation + 1
  let restored_archived_at := if r.quiescing_started_at.isSome then r.pre_quiesce_archived_at else c.archived_at
  ensure (c.deletion_state ≠ .tombstone && c.deleted_at.isNone)
    (.DeletionSafety ("community " ++ r.community_id.to_string ++ " cannot be restored during abort"))
  let lease_generation ← increment i64Max r.lease_generation
  let aborted := { r with stage := .Aborted, aborted_by := some (bound_text aborted_by 512),
                          abort_reason := some (bound_text reason 4096), aborted_at := some now, completed_at := some now,
                          fence_generation := some new_generation, lease_owner := none, lease_until := none,
                          lease_generation := lease_generation, blocked_at := none, blocked_reason := none, retry_count := 0,
                          retry_stage := none, next_attempt_at := now }
  let restored := { c with deletion_state := .active, deletion_fence_generation := new_generation,
                           archived_at := restored_archived_at }
  write fun db => { db with communities := db.communities.replace restored, requests := db.requests.replace aborted }
  return aborted

/-- An executor on a host whose clock says `clock` still has the request. -/
def DeletionRequest.leased (r : DeletionRequest) (clock : Time) : Bool :=
  r.lease_owner.isSome && r.lease_until.any (fun lease_until => decide (clock ≤ lease_until))

def unblock (now clock : Time) (request_id : Uuid) (unblocked_by reason : String) : Tx DeletionRequest := do
  ensure (trim unblocked_by ≠ "" && trim reason ≠ "")
    (.InvalidData "unblock requires non-empty operator identity and remediation reason")
  let db ← read
  let r ← require (db.requests.select request_id (fun r => r.blocked_at.isSome))
    (.DeletionSafety ("deletion " ++ request_id.to_string ++ " is missing or is not blocked"))
  ensure (r.stage ≠ .RetentionPending && r.stage ≠ .Aborted)
    (.DeletionSafety ("blocked deletion " ++ request_id.to_string ++ " at terminal stage " ++ r.stage.to_string ++ " cannot resume"))
  ensure (!r.leased clock) (.DeletionSafety ("blocked deletion " ++ request_id.to_string ++ " still has a live executor lease"))
  let unblocked := { r with blocked_at := none, blocked_reason := none, retry_count := 0, retry_stage := none, last_error := none,
                            next_attempt_at := now, lease_owner := none, lease_until := none }
  write fun db => { db with requests := db.requests.replace unblocked }
  return unblocked

def block_preclaim_setup (now clock : Time) (request_id : Uuid) (error : String) : Tx DeletionRequest := do
  let bounded := bound_text error 4096
  let db ← read
  let r ← require (db.requests.get request_id) (.NotFound ("community deletion " ++ request_id.to_string))
  ensure (r.stage ≠ .RetentionPending && r.stage ≠ .Aborted)
    (.DeletionSafety ("deletion " ++ request_id.to_string ++ " at terminal stage " ++ r.stage.to_string ++
      " cannot record a setup failure"))
  ensure (!r.leased clock) (.DeletionSafety ("deletion " ++ request_id.to_string ++ " is leased by another executor"))
  let blocked := { r with blocked_at := some now, blocked_reason := some bounded, last_error := some bounded }
  write fun db => { db with requests := db.requests.replace blocked }
  return blocked

/-! ## Claims -/

/-- `ORDER BY created_at, id`. -/
def older (a b : DeletionRequest) : Bool := a.created_at < b.created_at || (a.created_at = b.created_at && a.id < b.id)

/-- `locked` has the rows that other transactions hold, and `catalog` the error of `validate_catalog_on`. -/
def claim (now : Time) (locked : Uuid → Bool) (catalog : Option String) (request_id : Option Uuid) (owner : String)
    (lease_duration : Nat) : Tx (Option ClaimedDeletion) := do
  let db ← read
  match Table.first older (db.requests.rows.filter (fun r =>
      db.approved r && request_id.all (fun id => r.id = id) && r.stage.runnable && r.blocked_at.isNone &&
        decide (r.next_attempt_at ≤ now) && r.lease_until.all (fun lease_until => decide (lease_until < now)) && !locked r.id)) with
  | none => return none
  | some r =>
    match catalog with
    | some error =>
      let message := bound_text error 4096
      let blocked := { r with blocked_at := some now, blocked_reason := some message, last_error := some message,
                              lease_owner := none, lease_until := none }
      write fun db => { db with requests := db.requests.replace blocked }
      return none
    | none =>
      let lease_generation ← increment i64Max r.lease_generation
      let attempts ← increment i32Max r.attempts
      let request := { r with lease_owner := some owner, lease_generation := lease_generation,
                              lease_until := some (after_seconds now (lease_seconds lease_duration)), attempts := attempts }
      write fun db => { db with requests := db.requests.replace request }
      return some ⟨request, ⟨request.id, owner, request.lease_generation, request.community_id, request.fence_generation⟩⟩

def verify_execution_token (now : Time) (token : LeaseToken) (stage : DeletionStage) : Tx Unit :=
  match token.fence_generation with
  | some generation => verify_lease_and_fence now token stage generation
  | none => verify_lease now token stage

def heartbeat (now : Time) (token : LeaseToken) (lease_duration : Nat) : Tx Unit := do
  let db ← read
  let r ← require (db.requests.select token.request_id (fun r =>
    r.lease_owner = some token.owner && r.lease_generation = token.generation &&
      r.lease_until.any (fun lease_until => decide (now ≤ lease_until)) && r.blocked_at.isNone && r.stage.runnable && db.approved r))
    (stale_lease_error token)
  let renewed := { r with lease_until := some (after_seconds now (lease_seconds lease_duration)) }
  write fun db => { db with requests := db.requests.replace renewed }

/-- Whose lease the request has, expired or not. -/
def LeaseToken.owns (token : LeaseToken) (r : DeletionRequest) : Bool :=
  r.lease_owner = some token.owner && r.lease_generation = token.generation

def stop_executor (token : Option LeaseToken) : Tx Unit := do
  let db ← read
  match token.bind (fun token => db.requests.select token.request_id token.owns) with
  | none => return ()
  | some r =>
    let released := { r with lease_owner := none, lease_until := none }
    write fun db => { db with requests := db.requests.replace released }

/-- The eighth consecutive failure at one stage blocks the request. -/
def record_retry (now : Time) (token : LeaseToken) (stage : DeletionStage) (error : String) (retry_after : Nat) : Tx Unit := do
  let bounded := bound_text error 4096
  verify_lease now token stage
  let db ← read
  let r ← require (db.requests.get token.request_id) (.Sqlx "no rows returned by a query that expected to return at least one row")
  let consecutive_retries := if r.retry_stage = some stage then (if r.retry_count < i32Max then r.retry_count + 1 else i32Max) else 1
  let exhausted := decide (8 ≤ consecutive_retries)
  if token.owns r then
    let retried := { r with retry_count := consecutive_retries, retry_stage := some stage, last_error := some bounded,
                            next_attempt_at := if exhausted then r.next_attempt_at else after_seconds now (lease_seconds retry_after),
                            blocked_at := if exhausted then some now else r.blocked_at,
                            blocked_reason := if exhausted then some bounded else r.blocked_reason,
                            lease_owner := none, lease_until := none }
    write fun db => { db with requests := db.requests.replace retried }

def block (now : Time) (token : LeaseToken) (stage : DeletionStage) (error : String) : Tx Unit := do
  let bounded := bound_text error 4096
  verify_lease now token stage
  let db ← read
  match db.requests.select token.request_id token.owns with
  | none => return ()
  | some r =>
    let blocked := { r with blocked_at := some now, blocked_reason := some bounded, last_error := some bounded,
                            lease_owner := none, lease_until := none }
    write fun db => { db with requests := db.requests.replace blocked }

/-! ## Stages -/

def begin_quiescing (now : Time) (token : LeaseToken) : Tx Unit := do
  verify_lease now token .Approved
  let db ← read
  let c ← require (db.communities.get token.community_id)
    (.Sqlx "no rows returned by a query that expected to return at least one row")
  match db.requests.select token.request_id (fun r => r.quiescing_started_at.isNone) with
  | none => pure ()
  | some r =>
    let captured := { r with pre_quiesce_archived_at := c.archived_at, quiescing_started_at := some now }
    write fun db => { db with requests := db.requests.replace captured }
  ensure ((c.deletion_state = .active || c.deletion_state = .quiescing) && c.deleted_at.isNone)
    (.DeletionSafety ("community " ++ token.community_id.to_string ++ " cannot enter quiescing"))
  let quiesced := { c with deletion_state := .quiescing, archived_at := c.archived_at.or (some now) }
  write fun db => { db with communities := db.communities.replace quiesced }

def fence (now : Time) (token : LeaseToken) : Tx Int := do
  verify_lease now token .Approved
  let db ← read
  let active := db.active_serving_writes now token.community_id
  ensure (active.length = 0)
    (.ServingWritesNotDrained token.community_id active.length (dedup (sort (active.map ServingWriteLease.operation))))
  let c ← require (db.communities.get token.community_id)
    (.Sqlx "no rows returned by a query that expected to return at least one row")
  ensure (c.deletion_fence_generation < i64Max) (.DeletionSafety "community deletion fence generation overflow")
  let generation := c.deletion_fence_generation + 1
  ensure (c.deletion_state = .quiescing)
    (.DeletionSafety ("community " ++ token.community_id.to_string ++ " is no longer quiescing while fencing"))
  let fenced := { c with deletion_state := .fenced, deletion_fence_generation := generation,
                         archived_at := c.archived_at.or (some now) }
  write fun db => { db with communities := db.communities.replace fenced }
  advance_request_tx now token .Approved .Fenced (some generation)
  return generation

/-- The stored chunks of a request in their order, `ORDER BY chunk_no`. -/
def Db.chunks_of (db : Db) (request_id : Uuid) : List ChunkRow :=
  (db.chunks.rows.filter (fun c => c.request_id = request_id)).insertionSort (fun a b => a.chunk_no ≤ b.chunk_no)

def ChunkRow.chunk (c : ChunkRow) : ManifestKeyChunk := ⟨c.chunk_no, c.pre, c.keys⟩

def freeze_destructive_storage_manifest (env : Env) (now : Time) (token : LeaseToken) (manifest : StorageManifest) : Tx Unit := do
  let generation ← require_fence_generation token
  let db ← read
  let _ ← require (db.requests.get token.request_id)
    (.DeletionSafety ("deletion request " ++ token.request_id.to_string ++ " disappeared before manifest freeze"))
  verify_lease_and_fence now token .Fenced generation
  match do validate_storage_manifest manifest
           validate_manifest_key_chunks env.sha256 manifest ((db.chunks_of token.request_id).map ChunkRow.chunk) with
  | .error e => fail e
  | .ok () =>
    let r ← require (db.requests.select token.request_id (fun r =>
      token.owns r && r.stage = .Fenced && r.destructive_storage_manifest.all (fun frozen => frozen = manifest)))
      (.DeletionSafety ("destructive storage manifest changed or deletion lease is stale for request " ++ token.request_id.to_string))
    let frozen := { r with destructive_storage_manifest := r.destructive_storage_manifest.or (some manifest),
                           destructive_storage_frozen_at := r.destructive_storage_frozen_at.or (some now) }
    write fun db => { db with requests := db.requests.replace frozen }

/-- The trigger on inserted chunks. -/
def Db.admits_chunk (db : Db) (request_id : Uuid) : Bool :=
  (db.requests.get request_id).any (fun r => r.destructive_storage_frozen_at.isNone && r.stage = .Fenced)

/-- The trigger on removed chunks. -/
def Db.releases_chunk (db : Db) (request_id : Uuid) : Bool :=
  (db.requests.get request_id).all (fun r =>
    r.destructive_storage_frozen_at.isNone || r.stage = .LogicallyVerified || r.stage = .RetentionPending)

/-- `DELETE FROM community_deletion_manifest_keys WHERE request_id = $1`; the trigger fires for each row. -/
def remove_chunks (request_id : Uuid) : Tx Unit := do
  let db ← read
  ensure (db.releases_chunk request_id || !db.chunks.rows.any (fun c => c.request_id = request_id))
    (.Sqlx "community deletion manifest key chunks cannot be removed mid-execution")
  write fun db => { db with chunks := db.chunks.delete (fun c => c.request_id = request_id) }

def clear_manifest_key_chunks (now : Time) (token : LeaseToken) : Tx Unit := do
  let generation ← require_fence_generation token
  verify_lease_and_fence now token .Fenced generation
  remove_chunks token.request_id

def append_manifest_key_chunk (now : Time) (token : LeaseToken) (chunk_no : Int) (pre : String) (keys : List String) : Tx Unit := do
  ensure (keys ≠ []) (.DeletionSafety "refusing to persist an empty manifest key chunk")
  let generation ← require_fence_generation token
  verify_lease_and_fence now token .Fenced generation
  let db ← read
  ensure (db.admits_chunk token.request_id) (.Sqlx "community deletion manifest key chunks require an unfrozen fenced request")
  ensure (0 ≤ chunk_no) (.Sqlx "new row violates check constraint")
  let chunks ← require (db.chunks.insert ⟨token.request_id, chunk_no, pre, keys, none⟩)
    (.Sqlx "duplicate key value violates unique constraint")
  write fun db => { db with chunks := chunks }

def next_pending_manifest_chunk (token : LeaseToken) : Tx (Option ManifestKeyChunk) := do
  let db ← read
  return (((db.chunks_of token.request_id).filter (fun c => c.deleted_at.isNone)).head?).map ChunkRow.chunk

def mark_manifest_chunk_deleted (now : Time) (token : LeaseToken) (chunk_no : Int) : Tx Unit := do
  let generation ← require_fence_generation token
  verify_lease_and_fence now token .Drained generation
  let db ← read
  let c ← require (db.chunks.select (token.request_id, chunk_no) (fun c => c.deleted_at.isNone))
    (.DeletionSafety ("manifest key chunk " ++ toString chunk_no ++ " is missing or already stamped for request " ++
      token.request_id.to_string))
  let stamped := { c with deleted_at := some now }
  write fun db => { db with chunks := db.chunks.replace stamped }

def serving_writes_drained (now : Time) (community : CommunityId) : Tx Bool := do
  let db ← read
  return (db.active_serving_writes now community).isEmpty

def mark_drained (now : Time) (token : LeaseToken) : Tx Unit := do
  let generation ← require_fence_generation token
  verify_lease_and_fence now token .Fenced generation
  let db ← read
  ensure (db.active_serving_writes now token.community_id).isEmpty (.DeletionSafety "serving writes have not drained")
  advance_request_tx now token .Fenced .Drained (some generation)

def advance_with_checkpoint (now : Time) (token : LeaseToken) (source target : DeletionStage) : Tx Unit := do
  let generation ← require_fence_generation token
  verify_lease_and_fence now token source generation
  advance_request_tx now token source target (some generation)

def mark_bindings_removed (now : Time) (token : LeaseToken) : Tx Unit := advance_with_checkpoint now token .Drained .BindingsRemoved

/-- The rows of the scoped tables are not modelled; `catalog` is as for `claim`. -/
def purge_postgres (now : Time) (catalog : Option String) (token : LeaseToken) : Tx Unit := do
  let generation ← require_fence_generation token
  ensure catalog.isNone (.DeletionSafety (catalog.getD ""))
  verify_lease_and_fence now token .BindingsRemoved generation
  let db ← read
  let c ← require (db.communities.select token.community_id (fun c =>
    c.deletion_state = .fenced && c.deletion_fence_generation = generation))
    (.DeletionSafety ("community " ++ token.community_id.to_string ++ " tombstone update affected 0 rows"))
  let tombstone := { c with deletion_state := .tombstone, deleted_at := c.deleted_at.or (some now),
                            archived_at := c.archived_at.or (some now) }
  write fun db => { db with communities := db.communities.replace tombstone }
  advance_request_tx now token .BindingsRemoved .PostgresPurged (some generation)

def mark_cache_purged (now : Time) (token : LeaseToken) : Tx Unit := advance_with_checkpoint now token .PostgresPurged .CachePurged

def mark_logically_verified (now : Time) (token : LeaseToken) : Tx Unit := do
  advance_with_checkpoint now token .CachePurged .LogicallyVerified
  remove_chunks token.request_id

def mark_retention_pending (now : Time) (token : LeaseToken) : Tx Unit := do
  let generation ← require_fence_generation token
  verify_lease_and_fence now token .LogicallyVerified generation
  let db ← read
  let r ← require (db.requests.select token.request_id (fun r =>
    r.stage = .LogicallyVerified && token.owns r && r.lease_until.any (fun lease_until => decide (now ≤ lease_until)) &&
      r.fence_generation = some generation)) (stale_lease_error token)
  let completed := { r with stage := .RetentionPending, completed_at := some now, lease_owner := none, lease_until := none,
                            retry_count := 0, retry_stage := none, last_error := none }
  write fun db => { db with requests := db.requests.replace completed }

/-! ## Serving writes -/

/-- What `assert_community_write_allowed` admits in a transaction that has set none of its own settings. -/
def Db.write_allowed (db : Db) (community : CommunityId) : Bool :=
  (db.communities.get community).any (fun c => c.deletion_state = .active)

/-- The row of a lease is current: unexpired, and of the generation of a community that still serves. -/
def Db.valid_serving_lease (db : Db) (now : Time) (lease : ServingWriteLease) (row : ServingWriteLease) : Bool :=
  row.community_id = lease.community_id && row.owner = lease.owner && row.generation = lease.generation &&
    row.fence_generation = lease.fence_generation && decide (now ≤ row.lease_until) &&
    (db.communities.select row.community_id (fun c => c.deleted_at.isNone &&
      (c.deletion_state = .active || c.deletion_state = .quiescing) && c.deletion_fence_generation = row.fence_generation)).isSome

def stale_serving_lease (lease : ServingWriteLease) : DbError :=
  .AccessDenied ("stale serving write lease " ++ lease.id.to_string)

def DeletionState.to_string : DeletionState → String
  | .active => "active"
  | .quiescing => "quiescing"
  | .fenced => "fenced"
  | .tombstone => "tombstone"

/-- A transaction that mutates without a lease, up to the mutation. -/
def guard_transaction (community : CommunityId) : Tx Unit := do
  let db ← read
  let c ← require (db.communities.select community (fun c => c.deleted_at.isNone))
    (.AccessDenied ("community " ++ community.to_string ++ " is missing or tombstoned"))
  ensure (c.deletion_state = .active)
    (.AccessDenied ("community " ++ community.to_string ++ " is write-fenced (" ++ c.deletion_state.to_string ++ ")"))

/-- A transaction that mutates under a lease, up to the mutation. -/
def guard_transaction_with_serving_lease (now : Time) (lease : ServingWriteLease) : Tx Unit := do
  let db ← read
  ensure (db.leases.select lease.id (db.valid_serving_lease now lease)).isSome (stale_serving_lease lease)

def acquire_serving_write_lease (now : Time) (id : Uuid) (community : CommunityId) (operation owner : String)
    (lease_duration : Nat) : Tx ServingWriteLease := do
  let denied := DbError.AccessDenied ("community " ++ community.to_string ++ " is write-fenced or missing")
  let db ← read
  ensure (db.write_allowed community) denied
  let c ← require (db.communities.select community (fun c => c.deletion_state = .active && c.deleted_at.isNone)) denied
  let lease : ServingWriteLease :=
    ⟨id, community, operation, owner, 1, c.deletion_fence_generation, after_seconds now (lease_seconds lease_duration)⟩
  let leases ← require (db.leases.insert lease) (.Sqlx "duplicate key value violates unique constraint")
  write fun db => { db with leases := leases }
  return lease

def renew_serving_write_lease (now : Time) (lease : ServingWriteLease) (lease_duration : Nat) : Tx ServingWriteLease := do
  let db ← read
  let row ← require (db.leases.select lease.id (db.valid_serving_lease now lease)) (stale_serving_lease lease)
  let renewed := { row with lease_until := after_seconds now (lease_seconds lease_duration) }
  write fun db => { db with leases := db.leases.replace renewed }
  return { lease with lease_until := renewed.lease_until }

def release_serving_write_lease (lease : ServingWriteLease) : Tx Bool := do
  let own := fun row : ServingWriteLease => row.id = lease.id && row.community_id = lease.community_id && row.owner = lease.owner &&
    row.generation = lease.generation && row.fence_generation = lease.fence_generation
  let db ← read
  write fun db => { db with leases := db.leases.delete own }
  return db.leases.rows.countP own = 1

def verify_serving_write_lease (now : Time) (lease : ServingWriteLease) : Tx Unit := do
  let db ← read
  ensure (db.leases.select lease.id (db.valid_serving_lease now lease)).isSome (stale_serving_lease lease)

/-- `i64::clamp` to what one batch takes. -/
def reap_limit (limit : Int) : Nat := (max 1 (min limit 10000)).toNat

def reap_expired_serving_write_leases (now : Time) (locked : Uuid → Bool) (limit : Int) : Tx Nat := do
  let db ← read
  let expired := ((db.leases.rows.filter (fun l => decide (l.lease_until < now) && !locked l.id)).insertionSort
    (fun a b => a.lease_until ≤ b.lease_until)).take (reap_limit limit)
  write fun db => { db with leases := db.leases.delete (fun l => l.id ∈ expired.map ServingWriteLease.id) }
  return expired.length

end Ambush.Deletion

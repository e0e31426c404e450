import Ambush.Git.Manifest
import Ambush.Lib.Sql
import Ambush.Lib.Texts
/-!
# Requests to delete a community

The rows of the deletion control plane and the tables that hold them. An instant is a number
of microseconds; a `bigint` is an integer, and the columns that only count are checked where
they grow.
-/
open Lib

namespace Ambush.Deletion
open Relay (CommunityId)
open Git (write_str write_seq write_field)

/-- Microseconds, as `timestamptz` keeps them. -/
abbrev Time := Int

/-! ## Stages -/

inductive DeletionStage where
  | Submitted | Inventoried | Approved | Fenced | Drained | BindingsRemoved | PostgresPurged | CachePurged
  | LogicallyVerified | RetentionPending | Aborted
  deriving DecidableEq

namespace DeletionStage

def next : DeletionStage → Option DeletionStage
  | .Submitted => some .Inventoried
  | .Inventoried => some .Approved
  | .Approved => some .Fenced
  | .Fenced => some .Drained
  | .Drained => some .BindingsRemoved
  | .BindingsRemoved => some .PostgresPurged
  | .PostgresPurged => some .CachePurged
  | .CachePurged => some .LogicallyVerified
  | .LogicallyVerified => some .RetentionPending
  | .RetentionPending | .Aborted => none

def runnable : DeletionStage → Bool
  | .Approved | .Fenced | .Drained | .BindingsRemoved | .PostgresPurged | .CachePurged | .LogicallyVerified => true
  | _ => false

def to_string : DeletionStage → String
  | .Submitted => "submitted"
  | .Inventoried => "inventoried"
  | .Approved => "approved"
  | .Fenced => "fenced"
  | .Drained => "drained"
  | .BindingsRemoved => "bindings_removed"
  | .PostgresPurged => "postgres_purged"
  | .CachePurged => "cache_purged"
  | .LogicallyVerified => "logically_verified"
  | .RetentionPending => "retention_pending"
  | .Aborted => "aborted"

/-- The fixed lifecycle order. -/
def order : List DeletionStage :=
  [.Submitted, .Inventoried, .Approved, .Fenced, .Drained, .BindingsRemoved, .PostgresPurged, .CachePurged, .LogicallyVerified,
    .RetentionPending]

/-- The place in the order; an aborted request is past it. -/
def rank : DeletionStage → Nat
  | .Submitted => 0
  | .Inventoried => 1
  | .Approved => 2
  | .Fenced => 3
  | .Drained => 4
  | .BindingsRemoved => 5
  | .PostgresPurged => 6
  | .CachePurged => 7
  | .LogicallyVerified => 8
  | .RetentionPending => 9
  | .Aborted => 10

theorem rank_next {a b : DeletionStage} (h : a.next = some b) : b.rank = a.rank + 1 := by
  cases a <;> cases h <;> rfl

theorem next_ne_aborted {a b : DeletionStage} (h : a.next = some b) : b ≠ .Aborted := by
  cases a <;> cases h <;> decide

end DeletionStage

/-- `communities.deletion_state`. -/
inductive DeletionState where
  | active | quiescing | fenced | tombstone
  deriving DecidableEq

/-! ## Inventories -/

structure SchemaManifest where
  scoped_tables : List String
  row_counts : List (String × Int)
  fenced_tables : List String
  deriving DecidableEq

structure PrefixManifest where
  pre : String
  object_count : Nat
  total_bytes : Nat
  keys_digest : String
  deriving DecidableEq

structure StorageManifest where
  version : Int
  prefixes : List PrefixManifest
  deriving DecidableEq

structure FrozenInventory where
  schema : SchemaManifest
  storage : StorageManifest
  deriving DecidableEq

def write_object (fields : List (List Char)) : List Char := '\x7b' :: ([','].intercalate fields ++ ['\x7d'])

def write_array (items : List (List Char)) : List Char := '[' :: ([','].intercalate items ++ [']'])

def SchemaManifest.to_text (m : SchemaManifest) : List Char :=
  write_object [write_field "scoped_tables" (write_seq m.scoped_tables),
    write_field "row_counts" (write_object (m.row_counts.map (fun e => write_field e.1 (toString e.2).toList))),
    write_field "fenced_tables" (write_seq m.fenced_tables)]

def PrefixManifest.to_text (m : PrefixManifest) : List Char :=
  write_object [write_field "prefix" (write_str m.pre), write_field "object_count" (toString m.object_count).toList,
    write_field "total_bytes" (toString m.total_bytes).toList, write_field "keys_digest" (write_str m.keys_digest)]

def StorageManifest.to_text (m : StorageManifest) : List Char :=
  write_object [write_field "version" (toString m.version).toList,
    write_field "prefixes" (write_array (m.prefixes.map PrefixManifest.to_text))]

/-- `serde_json::to_vec`, as text. -/
def FrozenInventory.to_text (m : FrozenInventory) : List Char :=
  write_object [write_field "schema" m.schema.to_text, write_field "storage" m.storage.to_text]

def FrozenInventory.digest (sha256 : ByteArray → List UInt8) (m : FrozenInventory) : List UInt8 :=
  sha256 (String.ofList m.to_text).toByteArray

/-! ## Rows -/

/-- What deletion reads and writes of a community. -/
structure CommunityRow where
  id : CommunityId
  host : String
  archived_at : Option Time
  deletion_state : DeletionState
  deletion_fence_generation : Int
  deleted_at : Option Time
  deriving DecidableEq

structure DeletionRequest where
  id : Uuid
  community_id : CommunityId
  community_host : String
  stage : DeletionStage
  retry_stage : Option DeletionStage
  requested_by : String
  reason : Option String
  destructive_storage_manifest : Option StorageManifest
  destructive_storage_frozen_at : Option Time
  inventory_manifest : Option FrozenInventory
  inventory_digest : Option (List UInt8)
  fence_generation : Option Int
  lease_owner : Option String
  lease_generation : Int
  lease_until : Option Time
  attempts : Int
  retry_count : Int
  last_error : Option String
  next_attempt_at : Time
  blocked_at : Option Time
  blocked_reason : Option String
  created_at : Time
  pre_quiesce_archived_at : Option Time
  quiescing_started_at : Option Time
  aborted_by : Option String
  abort_reason : Option String
  aborted_at : Option Time
  completed_at : Option Time
  deriving DecidableEq

structure DeletionApproval where
  request_id : Uuid
  community_id : CommunityId
  inventory_digest : List UInt8
  approved_by : String
  note : Option String
  approved_at : Time
  deriving DecidableEq

/-- A row of `community_deletion_manifest_keys`. -/
structure ChunkRow where
  request_id : Uuid
  chunk_no : Int
  pre : String
  keys : List String
  deleted_at : Option Time
  deriving DecidableEq

def ChunkRow.key (c : ChunkRow) : Uuid × Int := (c.request_id, c.chunk_no)

structure ServingWriteLease where
  id : Uuid
  community_id : CommunityId
  operation : String
  owner : String
  generation : Int
  fence_generation : Int
  lease_until : Time
  deriving DecidableEq

structure LeaseToken where
  request_id : Uuid
  owner : String
  generation : Int
  community_id : CommunityId
  fence_generation : Option Int
  deriving DecidableEq

structure ClaimedDeletion where
  request : DeletionRequest
  lease : LeaseToken
  deriving DecidableEq

structure ManifestKeyChunk where
  chunk_no : Int
  pre : String
  keys : List String
  deriving DecidableEq

structure Db where
  communities : Table CommunityRow.id
  requests : Table DeletionRequest.id
  approvals : Table DeletionApproval.request_id
  chunks : Table ChunkRow.key
  leases : Table ServingWriteLease.id

/-! ## Errors -/

/-- `Sqlx` has the text of the server's error. -/
inductive DbError where
  | Sqlx (message : String)
  | NotFound (message : String)
  | InvalidData (message : String)
  | AccessDenied (message : String)
  | DeletionSafety (message : String)
  | ServingWritesNotDrained (community_id : Uuid) (active_count : Int) (operations : List String)
  deriving DecidableEq

/-- The `Debug` text of a string, as far as its characters are printable or ASCII. -/
def str_debug (s : String) : String :=
  let escape := fun c : Char =>
    if c = '"' then ['\\', '"']
    else if c = '\\' then ['\\', '\\']
    else if c = '\n' then ['\\', 'n']
    else if c = '\r' then ['\\', 'r']
    else if c = '\t' then ['\\', 't']
    else if c.toNat = 0 then ['\\', '0']
    else if c.toNat < 0x20 ∨ c.toNat = 0x7f then '\\' :: 'u' :: '\x7b' :: (Nat.toDigits 16 c.toNat ++ ['\x7d'])
    else [c]
  String.ofList ('"' :: (s.toList.flatMap escape ++ ['"']))

end Ambush.Deletion

import Ambush.Deletion.Store
import Ambush.Lib.Runs
/-!
# Operators, executors and servers at one database

Every party is a sequence of calls, and each call is one transaction that commits or leaves no
trace: a run is any interleaving of them. A caller that does not learn of its commit, or that
crashes, or whose lease was taken over, is a caller that goes on in some other way.
-/
open Lib

namespace Ambush.Deletion
open Relay (CommunityId)

/-! ## Calls -/

inductive Op where
  | submit (id : Uuid) (community_host requested_by : String) (reason : Option String)
  | freeze_inventory (request_id : Uuid) (inventory : FrozenInventory)
  | approve (request_id : Uuid) (approved_by : String) (note : Option String)
  | abort (request_id : Uuid) (aborted_by reason : String)
  | unblock (clock : Time) (request_id : Uuid) (unblocked_by reason : String)
  | block_preclaim_setup (clock : Time) (request_id : Uuid) (error : String)
  | claim (locked : Uuid → Bool) (catalog : Option String) (request_id : Option Uuid) (owner : String) (lease_duration : Nat)
  | verify_execution_token (token : LeaseToken) (stage : DeletionStage)
  | heartbeat (token : LeaseToken) (lease_duration : Nat)
  | stop_executor (token : Option LeaseToken)
  | record_retry (token : LeaseToken) (stage : DeletionStage) (error : String) (retry_after : Nat)
  | block (token : LeaseToken) (stage : DeletionStage) (error : String)
  | begin_quiescing (token : LeaseToken)
  | fence (token : LeaseToken)
  | freeze_destructive_storage_manifest (token : LeaseToken) (manifest : StorageManifest)
  | clear_manifest_key_chunks (token : LeaseToken)
  | append_manifest_key_chunk (token : LeaseToken) (chunk_no : Int) (pre : String) (keys : List String)
  | next_pending_manifest_chunk (token : LeaseToken)
  | mark_manifest_chunk_deleted (token : LeaseToken) (chunk_no : Int)
  | serving_writes_drained (community : CommunityId)
  | mark_drained (token : LeaseToken)
  | mark_bindings_removed (token : LeaseToken)
  | purge_postgres (catalog : Option String) (token : LeaseToken)
  | mark_cache_purged (token : LeaseToken)
  | mark_logically_verified (token : LeaseToken)
  | mark_retention_pending (token : LeaseToken)
  | guard_transaction (community : CommunityId)
  | guard_transaction_with_serving_lease (lease : ServingWriteLease)
  | acquire_serving_write_lease (id : Uuid) (community : CommunityId) (operation owner : String) (lease_duration : Nat)
  | renew_serving_write_lease (lease : ServingWriteLease) (lease_duration : Nat)
  | release_serving_write_lease (lease : ServingWriteLease)
  | verify_serving_write_lease (lease : ServingWriteLease)
  | reap_expired_serving_write_leases (locked : Uuid → Bool) (limit : Int)

inductive Reply where
  | done
  | request (r : DeletionRequest)
  | claimed (claim : Option ClaimedDeletion)
  | generation (n : Int)
  | chunk (c : Option ManifestKeyChunk)
  | answer (b : Bool)
  | lease (l : ServingWriteLease)
  | reaped (n : Nat)

/-- The call begun at `now`. -/
def exec (env : Env) (now : Time) : Op → Tx Reply
  | .submit id community_host requested_by reason => do return .request (← submit env now id community_host requested_by reason)
  | .freeze_inventory request_id inventory => do return .request (← freeze_inventory env request_id inventory)
  | .approve request_id approved_by note => do return .request (← approve env now request_id approved_by note)
  | .abort request_id aborted_by reason => do return .request (← abort now request_id aborted_by reason)
  | .unblock clock request_id unblocked_by reason => do return .request (← unblock now clock request_id unblocked_by reason)
  | .block_preclaim_setup clock request_id error => do return .request (← block_preclaim_setup now clock request_id error)
  | .claim locked catalog request_id owner lease_duration => do
    return .claimed (← claim now locked catalog request_id owner lease_duration)
  | .verify_execution_token token stage => do verify_execution_token now token stage; return .done
  | .heartbeat token lease_duration => do heartbeat now token lease_duration; return .done
  | .stop_executor token => do stop_executor token; return .done
  | .record_retry token stage error retry_after => do record_retry now token stage error retry_after; return .done
  | .block token stage error => do block now token stage error; return .done
  | .begin_quiescing token => do begin_quiescing now token; return .done
  | .fence token => do return .generation (← fence now token)
  | .freeze_destructive_storage_manifest token manifest => do
    freeze_destructive_storage_manifest env now token manifest
    return .done
  | .clear_manifest_key_chunks token => do clear_manifest_key_chunks now token; return .done
  | .append_manifest_key_chunk token chunk_no pre keys => do append_manifest_key_chunk now token chunk_no pre keys; return .done
  | .next_pending_manifest_chunk token => do return .chunk (← next_pending_manifest_chunk token)
  | .mark_manifest_chunk_deleted token chunk_no => do mark_manifest_chunk_deleted now token chunk_no; return .done
  | .serving_writes_drained community => do return .answer (← serving_writes_drained now community)
  | .mark_drained token => do mark_drained now token; return .done
  | .mark_bindings_removed token => do mark_bindings_removed now token; return .done
  | .purge_postgres catalog token => do purge_postgres now catalog token; return .done
  | .mark_cache_purged token => do mark_cache_purged now token; return .done
  | .mark_logically_verified token => do mark_logically_verified now token; return .done
  | .mark_retention_pending token => do mark_retention_pending now token; return .done
  | .guard_transaction community => do guard_transaction community; return .done
  | .guard_transaction_with_serving_lease lease => do guard_transaction_with_serving_lease now lease; return .done
  | .acquire_serving_write_lease id community operation owner lease_duration => do
    return .lease (← acquire_serving_write_lease now id community operation owner lease_duration)
  | .renew_serving_write_lease lease lease_duration => do return .lease (← renew_serving_write_lease now lease lease_duration)
  | .release_serving_write_lease lease => do return .answer (← release_serving_write_lease lease)
  | .verify_serving_write_lease lease => do verify_serving_write_lease now lease; return .done
  | .reap_expired_serving_write_leases locked limit => do return .reaped (← reap_expired_serving_write_leases now locked limit)

/-! ## Runs -/

/-- The database, with what the run has done that no table keeps: the tokens claims gave out, the tokens that were
verified for a stage, and each stage a request has entered, oldest first. -/
structure World where
  db : Db
  claims : List LeaseToken
  cleared : List (LeaseToken × DeletionStage)
  entered : List (Uuid × DeletionStage)

/-- The requests whose stage is new. -/
def entries (before after : Db) : List (Uuid × DeletionStage) :=
  (after.requests.rows.filter (fun r => (before.requests.get r.id).map DeletionRequest.stage ≠ some r.stage)).map
    (fun r => (r.id, r.stage))

def Reply.tokens : Reply → List LeaseToken
  | .claimed (some claim) => [claim.lease]
  | _ => []

def Op.cleared : Op → List (LeaseToken × DeletionStage)
  | .verify_execution_token token stage => [(token, stage)]
  | _ => []

/-- The world after a call that committed. -/
def World.commit (w : World) (op : Op) (reply : Reply) (db : Db) : World where
  db := db
  claims := w.claims ++ reply.tokens
  cleared := w.cleared ++ op.cleared
  entered := w.entered ++ entries w.db db

/-- What an executor may do outside the database with a token it has verified for a stage. -/
inductive Act where
  | call (op : Op) (now : Time) (committed : Bool)
  | external (token : LeaseToken) (stage : DeletionStage)

def step (env : Env) (w : World) (a : Act) (w' : World) : Prop :=
  match a with
  | .call op now true => ∃ reply db, (exec env now op).run w.db = .ok (reply, db) ∧ w' = w.commit op reply db
  | .call _ _ false => w' = w
  | .external token stage => (token, stage) ∈ w.cleared ∧ w' = w

/-- A deployment that nobody has asked to delete from yet. -/
structure World.Initial (w : World) : Prop where
  requests : w.db.requests.rows = []
  approvals : w.db.approvals.rows = []
  chunks : w.db.chunks.rows = []
  leases : w.db.leases.rows = []
  claims : w.claims = []
  cleared : w.cleared = []
  entered : w.entered = []

/-! ## Runs that are computed -/

/-- The world after a call, if it succeeds. -/
def World.call (env : Env) (w : World) (c : Op × Time) : Option World :=
  match (exec env c.2 c.1).run w.db with
  | .ok (reply, db) => some (w.commit c.1 reply db)
  | .error _ => none

theorem World.step_of_call {env : Env} {w w' : World} {c : Op × Time} (h : w.call env c = some w') :
    step env w (.call c.1 c.2 true) w' := by
  unfold World.call at h
  split at h
  case h_1 reply db hexec => exact ⟨reply, db, hexec, (Option.some.inj h).symm⟩
  case h_2 => cases h

theorem World.run_of_calls {env : Env} {w w' : World} {cs : List (Op × Time)} (h : cs.foldlM (World.call env) w = some w') :
    Run (step env) w (cs.map (fun c => .call c.1 c.2 true)) w' := by
  induction cs generalizing w with
  | nil =>
    obtain rfl := Option.some.inj h
    exact .nil
  | cons c cs ih =>
    rw [List.foldlM_cons] at h
    obtain ⟨u, hu, h⟩ := Option.bind_eq_some_iff.1 h
    exact .cons (World.step_of_call hu) (ih h)

/-- One community, and a request for it up to its executor's first step. -/
def deployed : World :=
  ⟨⟨⟨[⟨1, "h", none, .active, 0, none⟩], by decide⟩, .empty, .empty, .empty, .empty⟩, [], [], []⟩

def Env.plain : Env := ⟨fun _ => List.replicate 32 0, id⟩

def some_inventory : FrozenInventory := ⟨⟨[], [], []⟩, ⟨5, [⟨"p", 0, 0, String.ofList (List.replicate 64 '0')⟩]⟩⟩

def first_token : LeaseToken := ⟨2, "e", 1, 1, none⟩

def quiescing_calls : List (Op × Time) :=
  [(.submit 2 "h" "o" none, 1), (.freeze_inventory 2 some_inventory, 2), (.approve 2 "o" none, 3),
    (.claim (fun _ => false) none none "e" 60, 4), (.begin_quiescing first_token, 5)]

end Ambush.Deletion

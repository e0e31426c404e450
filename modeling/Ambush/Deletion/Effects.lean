import Ambush.Deletion.System
import Ambush.Lib.Results
/-!
# What a committed call does

`Effect` has the shapes of change a call can make, with what it checked before. The theorems
about runs are case analyses over it, so none of them opens a method.
-/
open Lib

namespace Ambush.Deletion
open Relay (CommunityId)
open Lib.Tx (bind_ok pure_ok read_ok write_ok require_ok ensure_ok fail_ok)

/-! ## Verified tokens -/

/-- The token is the current one of a request that is at the stage, approved and not blocked. -/
structure Held (s : Db) (now : Time) (token : LeaseToken) (stage : DeletionStage) (r : DeletionRequest) : Prop where
  get : s.requests.get token.request_id = some r
  community : r.community_id = token.community_id
  holds : token.holds now stage r = true
  approved : s.approved r = true

/-- The community of the request is fenced for it. -/
structure Fences (s : Db) (r : DeletionRequest) (generation : Int) (c : CommunityRow) : Prop where
  fence : r.fence_generation = some generation
  get : s.communities.get r.community_id = some c
  state : c.deletion_state = .fenced ∨ c.deletion_state = .tombstone
  generation : c.deletion_fence_generation = generation

theorem LeaseToken.holds_iff {token : LeaseToken} {now : Time} {stage : DeletionStage} {r : DeletionRequest} :
    token.holds now stage r = true ↔ r.stage = stage ∧ r.lease_owner = some token.owner ∧ r.lease_generation = token.generation ∧
      (∃ lease_until, r.lease_until = some lease_until ∧ now ≤ lease_until) ∧ r.blocked_at = none := by
  simp only [holds, Bool.and_eq_true, decide_eq_true_eq, Option.any_eq_true, Option.isNone_iff_eq_none, and_assoc]

namespace Held
variable {s : Db} {now : Time} {token : LeaseToken} {stage : DeletionStage} {r : DeletionRequest}

theorem id_eq (h : Held s now token stage r) : r.id = token.request_id := Table.key_of_get h.get

theorem get_id (h : Held s now token stage r) : s.requests.get r.id = some r := h.id_eq ▸ h.get

theorem stage_eq (h : Held s now token stage r) : r.stage = stage := (LeaseToken.holds_iff.1 h.holds).1

theorem generation_eq (h : Held s now token stage r) : r.lease_generation = token.generation :=
  (LeaseToken.holds_iff.1 h.holds).2.2.1

theorem unique {stage' : DeletionStage} {r' : DeletionRequest} (h : Held s now token stage r) (h' : Held s now token stage' r') :
    r = r' := Option.some.inj (h.get.symm.trans h'.get)

end Held

theorem verify_lease_ok {s t : Db} {now : Time} {token : LeaseToken} {stage : DeletionStage} {u : Unit}
    (h : (verify_lease now token stage).run s = .ok (u, t)) : t = s ∧ ∃ r, Held s now token stage r := by
  simp only [verify_lease, bind_ok, read_ok, ensure_ok] at h
  obtain ⟨_, _, ⟨rfl, rfl⟩, hsome, rfl⟩ := h
  obtain ⟨r, hr⟩ := Option.isSome_iff_exists.1 hsome
  obtain ⟨hget, hp⟩ := Table.select_eq_some.1 hr
  simp only [Bool.and_eq_true, decide_eq_true_eq] at hp
  exact ⟨rfl, r, hget, hp.1.1, hp.1.2, hp.2⟩

theorem verify_lease_and_fence_ok {s t : Db} {now : Time} {token : LeaseToken} {stage : DeletionStage} {generation : Int} {u : Unit}
    (h : (verify_lease_and_fence now token stage generation).run s = .ok (u, t)) :
    t = s ∧ ∃ r c, Held s now token stage r ∧ Fences s r generation c := by
  simp only [verify_lease_and_fence, bind_ok, read_ok, ensure_ok] at h
  obtain ⟨_, _, ⟨rfl, rfl⟩, hsome, rfl⟩ := h
  obtain ⟨r, hr⟩ := Option.isSome_iff_exists.1 hsome
  obtain ⟨hget, hp⟩ := Table.select_eq_some.1 hr
  simp only [Bool.and_eq_true, decide_eq_true_eq] at hp
  obtain ⟨⟨⟨⟨hcommunity, hholds⟩, happroved⟩, hfence⟩, hc⟩ := hp
  obtain ⟨c, hc⟩ := Option.isSome_iff_exists.1 hc
  obtain ⟨hcget, hcp⟩ := Table.select_eq_some.1 hc
  simp only [Bool.and_eq_true, Bool.or_eq_true, decide_eq_true_eq] at hcp
  exact ⟨rfl, r, c, ⟨hget, hcommunity, hholds, happroved⟩, hfence, hcget, hcp.1, hcp.2⟩

theorem verify_execution_token_ok {s t : Db} {now : Time} {token : LeaseToken} {stage : DeletionStage} {u : Unit}
    (h : (verify_execution_token now token stage).run s = .ok (u, t)) : t = s ∧ ∃ r, Held s now token stage r := by
  unfold verify_execution_token at h
  split at h
  · obtain ⟨ht, r, _, hr, _⟩ := verify_lease_and_fence_ok h
    exact ⟨ht, r, hr⟩
  · exact verify_lease_ok h

/-- The row an advance leaves. -/
def DeletionRequest.advanced (r : DeletionRequest) (target : DeletionStage) (fence_generation : Option Int) : DeletionRequest :=
  { r with stage := target, fence_generation := fence_generation.or r.fence_generation, retry_count := 0,
           retry_stage := none, last_error := none }

theorem advance_request_tx_ok {s t : Db} {now : Time} {token : LeaseToken} {source target : DeletionStage} {fence_generation : Option Int}
    {u : Unit} (h : (advance_request_tx now token source target fence_generation).run s = .ok (u, t)) :
    source.next = some target ∧ ∃ r, s.requests.get token.request_id = some r ∧ token.holds now source r = true ∧
      t = { s with requests := s.requests.replace (r.advanced target fence_generation) } := by
  simp only [advance_request_tx, bind_ok, read_ok, ensure_ok, require_ok, write_ok, decide_eq_true_eq] at h
  obtain ⟨_, _, ⟨hnext, rfl⟩, _, _, ⟨rfl, rfl⟩, r, _, ⟨hr, rfl⟩, rfl⟩ := h
  obtain ⟨hget, hholds⟩ := Table.select_eq_some.1 hr
  exact ⟨hnext, r, hget, hholds, rfl⟩

/-! ## Effects -/

/-- A row and the one a statement leaves are of the same request: the same target and inventory, and no older lease. -/
structure DeletionRequest.Same (r r' : DeletionRequest) : Prop where
  id : r'.id = r.id
  community_id : r'.community_id = r.community_id
  inventory_manifest : r'.inventory_manifest = r.inventory_manifest
  inventory_digest : r'.inventory_digest = r.inventory_digest
  lease_generation : r.lease_generation ≤ r'.lease_generation

/-- Besides, the stage, the fence and what is frozen are the same: the lease, the retries and the block may differ. -/
structure DeletionRequest.Keeps (r r' : DeletionRequest) : Prop extends r.Same r' where
  stage : r'.stage = r.stage
  fence_generation : r'.fence_generation = r.fence_generation
  destructive_storage_manifest : r'.destructive_storage_manifest = r.destructive_storage_manifest
  destructive_storage_frozen_at : r'.destructive_storage_frozen_at = r.destructive_storage_frozen_at

def DeletionRequest.inventoried (r : DeletionRequest) (env : Env) (inventory : FrozenInventory) : DeletionRequest :=
  { r with stage := .Inventoried, inventory_manifest := some inventory, inventory_digest := some (inventory.digest env.sha256),
           last_error := none }

def DeletionRequest.approved (r : DeletionRequest) (now : Time) : DeletionRequest :=
  { r with stage := .Approved, next_attempt_at := now }

def DeletionRequest.frozen (r : DeletionRequest) (now : Time) (manifest : StorageManifest) : DeletionRequest :=
  { r with destructive_storage_manifest := some manifest,
           destructive_storage_frozen_at := r.destructive_storage_frozen_at.or (some now) }

def CommunityRow.quiesced (c : CommunityRow) (now : Time) : CommunityRow :=
  { c with deletion_state := .quiescing, archived_at := c.archived_at.or (some now) }

def CommunityRow.fenced (c : CommunityRow) (now : Time) : CommunityRow :=
  { c with deletion_state := .fenced, deletion_fence_generation := c.deletion_fence_generation + 1,
           archived_at := c.archived_at.or (some now) }

def CommunityRow.tombstone (c : CommunityRow) (now : Time) : CommunityRow :=
  { c with deletion_state := .tombstone, deleted_at := c.deleted_at.or (some now), archived_at := c.archived_at.or (some now) }

def CommunityRow.restored (c : CommunityRow) (archived_at : Option Time) : CommunityRow :=
  { c with deletion_state := .active, deletion_fence_generation := c.deletion_fence_generation + 1, archived_at := archived_at }

/-- The token a call of an executor presents. -/
def Op.token : Op → Option LeaseToken
  | .heartbeat token _ | .record_retry token _ _ _ | .block token _ _ | .begin_quiescing token | .fence token
  | .freeze_destructive_storage_manifest token _ | .clear_manifest_key_chunks token | .append_manifest_key_chunk token _ _ _
  | .next_pending_manifest_chunk token | .mark_manifest_chunk_deleted token _ | .mark_drained token | .mark_bindings_removed token
  | .purge_postgres _ token | .mark_cache_purged token | .mark_logically_verified token | .mark_retention_pending token
  | .verify_execution_token token _ => some token
  | .stop_executor token => token
  | _ => none

inductive Effect (env : Env) (now : Time) (s : Db) : Op → Db → Prop
  /-- A read, or a write that matched no row. -/
  | unchanged {op : Op} : Effect env now s op s
  | bookkept {op : Op} {r r' : DeletionRequest} : s.requests.get r.id = some r → r.Keeps r' →
      Effect env now s op { s with requests := s.requests.replace r' }
  | submitted {id : Uuid} {host requested_by : String} {reason : Option String} {c : CommunityRow} {requests} :
      c ∈ s.communities.rows → c.deletion_state = .active → s.requested c.id = false →
      s.requests.insert (submitted id now c requested_by reason) = some requests →
      Effect env now s (.submit id host requested_by reason) { s with requests := requests }
  | inventoried {r : DeletionRequest} {inventory : FrozenInventory} : s.requests.get r.id = some r → r.stage = .Submitted →
      Effect env now s (.freeze_inventory r.id inventory)
        { s with requests := s.requests.replace (r.inventoried env inventory) }
  | approved {r : DeletionRequest} {inventory : FrozenInventory} {approved_by : String} {note : Option String} {approvals} :
      s.requests.get r.id = some r → r.stage = .Inventoried → r.inventory_manifest = some inventory →
      r.inventory_digest = some (inventory.digest env.sha256) →
      s.approvals.insert ⟨r.id, r.community_id, inventory.digest env.sha256, approved_by, note, now⟩ = some approvals →
      Effect env now s (.approve r.id approved_by note)
        { s with approvals := approvals, requests := s.requests.replace (r.approved now) }
  | quiesced {token : LeaseToken} {r r' : DeletionRequest} {c : CommunityRow} : Held s now token .Approved r → r.Keeps r' →
      s.communities.get r.community_id = some c → c.deletion_state = .active ∨ c.deletion_state = .quiescing →
      Effect env now s (.begin_quiescing token)
        { s with requests := s.requests.replace r', communities := s.communities.replace (c.quiesced now) }
  | fenced {token : LeaseToken} {r : DeletionRequest} {c : CommunityRow} : Held s now token .Approved r →
      s.active_serving_writes now r.community_id = [] → s.communities.get r.community_id = some c → c.deletion_state = .quiescing →
      Effect env now s (.fence token)
        { s with requests := s.requests.replace (r.advanced .Fenced (some (c.deletion_fence_generation + 1))),
                 communities := s.communities.replace (c.fenced now) }
  | frozen {token : LeaseToken} {r : DeletionRequest} {manifest : StorageManifest} {generation : Int} {c : CommunityRow} :
      Held s now token .Fenced r → Fences s r generation c → validate_storage_manifest manifest = .ok () →
      validate_manifest_key_chunks env.sha256 manifest ((s.chunks_of r.id).map ChunkRow.chunk) = .ok () →
      (∀ m, r.destructive_storage_manifest = some m → m = manifest) →
      Effect env now s (.freeze_destructive_storage_manifest token manifest)
        { s with requests := s.requests.replace (r.frozen now manifest) }
  | chunked {op : Op} {token : LeaseToken} {r : DeletionRequest} {stage : DeletionStage} {chunks} : op.token = some token →
      Held s now token stage r → Effect env now s op { s with chunks := chunks }
  /-- An executor moves a request on behind its fence. -/
  | advanced {op : Op} {token : LeaseToken} {r r' : DeletionRequest} {source target : DeletionStage} {generation : Int}
      {c : CommunityRow} {chunks} : op.token = some token → Held s now token source r → Fences s r generation c →
      source.next = some target → 2 < source.rank → source ≠ .BindingsRemoved → r.Same r' → r'.stage = target →
      r'.fence_generation = some generation → r'.destructive_storage_manifest = r.destructive_storage_manifest →
      r'.destructive_storage_frozen_at = r.destructive_storage_frozen_at →
      chunks = s.chunks ∨ op = .mark_logically_verified token →
      Effect env now s op { s with requests := s.requests.replace r', chunks := chunks }
  | purged {catalog : Option String} {token : LeaseToken} {r : DeletionRequest} {generation : Int} {c : CommunityRow} :
      Held s now token .BindingsRemoved r → Fences s r generation c → c.deletion_state = .fenced →
      Effect env now s (.purge_postgres catalog token)
        { s with requests := s.requests.replace (r.advanced .PostgresPurged (some generation)),
                 communities := s.communities.replace (c.tombstone now) }
  | aborted {r r' : DeletionRequest} {c : CommunityRow} {archived_at : Option Time} {aborted_by reason : String} :
      s.requests.get r.id = some r → r.stage = .Approved ∨ r.stage = .Fenced →
      s.active_serving_writes now r.community_id = [] → s.communities.get r.community_id = some c →
      c.deletion_state ≠ .tombstone → r.Same r' → r.lease_generation < r'.lease_generation → r'.stage = .Aborted →
      Effect env now s (.abort r.id aborted_by reason)
        { s with requests := s.requests.replace r', communities := s.communities.replace (c.restored archived_at) }
  | leased {lease : ServingWriteLease} {duration : Nat} {c : CommunityRow} {leases} : s.communities.get lease.community_id = some c →
      c.deletion_state = .active → c.deletion_fence_generation = lease.fence_generation → s.leases.insert lease = some leases →
      Effect env now s (.acquire_serving_write_lease lease.id lease.community_id lease.operation lease.owner duration)
        { s with leases := leases }
  | renewed {lease row : ServingWriteLease} {duration : Nat} {lease_until : Time} : s.leases.get lease.id = some row →
      s.valid_serving_lease now lease row = true →
      Effect env now s (.renew_serving_write_lease lease duration)
        { s with leases := s.leases.replace { row with lease_until := lease_until } }
  | released {op : Op} {p : ServingWriteLease → Bool} : Effect env now s op { s with leases := s.leases.delete p }

/-! ## One effect for each method -/

section
variable {env : Env} {now : Time} {s t : Db}

theorem increment_ok {limit n m : Int} (h : (increment limit n).run s = .ok (m, t)) : m = n + 1 ∧ t = s := by
  simp only [increment, require_ok] at h
  obtain ⟨h, rfl⟩ := h
  split at h
  · exact ⟨(Option.some.inj h).symm, rfl⟩
  · cases h

theorem submit_effect {id : Uuid} {host requested_by : String} {reason : Option String} {r : DeletionRequest}
    (h : (submit env now id host requested_by reason).run s = .ok (r, t)) :
    Effect env now s (.submit id host requested_by reason) t := by
  simp only [submit, bind_ok, read_ok, require_ok] at h
  obtain ⟨_, _, ⟨rfl, rfl⟩, c, _, ⟨hc, rfl⟩, h⟩ := h
  have hactive := List.find?_some hc
  simp only [Bool.and_eq_true, decide_eq_true_eq] at hactive
  split at h
  case isTrue =>
    simp only [require_ok] at h
    obtain ⟨-, rfl⟩ := h
    exact .unchanged
  case isFalse hrequested =>
    simp only [bind_ok, require_ok, write_ok, pure_ok] at h
    obtain ⟨requests, _, ⟨hinsert, rfl⟩, _, _, rfl, -, rfl⟩ := h
    exact .submitted (List.mem_of_find?_eq_some hc) hactive.1.2 (by simpa using hrequested) hinsert

theorem freeze_inventory_effect {request_id : Uuid} {inventory : FrozenInventory} {r' : DeletionRequest}
    (h : (freeze_inventory env request_id inventory).run s = .ok (r', t)) :
    Effect env now s (.freeze_inventory request_id inventory) t := by
  unfold freeze_inventory at h
  split at h
  case h_1 => exact absurd h fail_ok
  case h_2 =>
    simp only [bind_ok, read_ok, require_ok, write_ok, pure_ok] at h
    obtain ⟨_, _, ⟨rfl, rfl⟩, r, _, ⟨hr, rfl⟩, _, _, rfl, -, rfl⟩ := h
    obtain ⟨hget, hp⟩ := Table.select_eq_some.1 hr
    simp only [Bool.and_eq_true, decide_eq_true_eq] at hp
    obtain rfl := Table.key_of_get hget
    exact .inventoried hget hp.1

theorem approve_effect {request_id : Uuid} {approved_by : String} {note : Option String} {r' : DeletionRequest}
    (h : (approve env now request_id approved_by note).run s = .ok (r', t)) :
    Effect env now s (.approve request_id approved_by note) t := by
  simp only [approve, bind_ok, read_ok, require_ok, ensure_ok, write_ok, pure_ok, decide_eq_true_eq] at h
  obtain ⟨_, _, ⟨rfl, rfl⟩, r, _, ⟨hr, rfl⟩, digest, _, ⟨hdigest, rfl⟩, inventory, _, ⟨hinventory, rfl⟩, _, _, ⟨rfl, rfl⟩,
    approvals, _, ⟨hinsert, rfl⟩, _, _, rfl, -, rfl⟩ := h
  obtain ⟨hget, hp⟩ := Table.select_eq_some.1 hr
  simp only [Bool.and_eq_true, decide_eq_true_eq] at hp
  obtain rfl := Table.key_of_get hget
  exact .approved hget hp.1 hinventory hdigest hinsert

theorem abort_ok {request_id : Uuid} {aborted_by reason : String} {r' : DeletionRequest}
    (h : (abort now request_id aborted_by reason).run s = .ok (r', t)) :
    ∃ r c archived_at, r.id = request_id ∧ s.requests.get r.id = some r ∧ (r.stage = .Approved ∨ r.stage = .Fenced) ∧
      s.active_serving_writes now r.community_id = [] ∧ s.communities.get r.community_id = some c ∧ c.deletion_state ≠ .tombstone ∧
      r.Same r' ∧ r.lease_generation < r'.lease_generation ∧ r'.stage = .Aborted ∧
      t = { s with requests := s.requests.replace r', communities := s.communities.replace (c.restored archived_at) } := by
  simp only [abort, bind_ok, read_ok, require_ok, ensure_ok, write_ok, pure_ok] at h
  obtain ⟨_, _, ⟨-, rfl⟩, _, _, ⟨rfl, rfl⟩, r, _, ⟨hget, rfl⟩, _, _, ⟨hstage, rfl⟩, _, _, ⟨hactive, rfl⟩, c, _, ⟨hc, rfl⟩,
    _, _, ⟨-, rfl⟩, _, _, ⟨hstate, rfl⟩, lease_generation, _, hinc, _, _, rfl, rfl, rfl⟩ := h
  obtain ⟨rfl, rfl⟩ := increment_ok hinc
  simp only [Bool.or_eq_true, decide_eq_true_eq] at hstage
  simp only [Bool.and_eq_true, decide_eq_true_eq, ne_eq] at hstate
  have hid := Table.key_of_get hget
  have hless : r.lease_generation < r.lease_generation + 1 := by omega
  have hdrained : _ = [] := List.length_eq_zero_iff.1 (by simpa using hactive)
  exact ⟨r, c, _, hid, hid ▸ hget, hstage, hdrained, hc, hstate.1, ⟨rfl, rfl, rfl, rfl, hless.le⟩, hless, rfl, rfl⟩

theorem abort_effect {request_id : Uuid} {aborted_by reason : String} {r' : DeletionRequest}
    (h : (abort now request_id aborted_by reason).run s = .ok (r', t)) :
    Effect env now s (.abort request_id aborted_by reason) t := by
  obtain ⟨r, c, archived_at, rfl, hget, hstage, hdrained, hc, hstate, hsame, hless, hstage', rfl⟩ := abort_ok h
  exact .aborted hget hstage hdrained hc hstate hsame hless hstage'

theorem unblock_effect {clock : Time} {request_id : Uuid} {unblocked_by reason : String} {r' : DeletionRequest} {op : Op}
    (h : (unblock now clock request_id unblocked_by reason).run s = .ok (r', t)) : Effect env now s op t := by
  simp only [unblock, bind_ok, read_ok, require_ok, ensure_ok, write_ok, pure_ok] at h
  obtain ⟨_, _, ⟨-, rfl⟩, _, _, ⟨rfl, rfl⟩, r, _, ⟨hr, rfl⟩, _, _, ⟨-, rfl⟩, _, _, ⟨-, rfl⟩, _, _, rfl, -, rfl⟩ := h
  have hget := (Table.select_eq_some.1 hr).1
  obtain rfl := Table.key_of_get hget
  exact .bookkept hget ⟨⟨rfl, rfl, rfl, rfl, le_rfl⟩, rfl, rfl, rfl, rfl⟩

theorem block_preclaim_setup_effect {clock : Time} {request_id : Uuid} {error : String} {r' : DeletionRequest} {op : Op}
    (h : (block_preclaim_setup now clock request_id error).run s = .ok (r', t)) : Effect env now s op t := by
  simp only [block_preclaim_setup, bind_ok, read_ok, require_ok, ensure_ok, write_ok, pure_ok] at h
  obtain ⟨_, _, ⟨rfl, rfl⟩, r, _, ⟨hget, rfl⟩, _, _, ⟨-, rfl⟩, _, _, ⟨-, rfl⟩, _, _, rfl, -, rfl⟩ := h
  obtain rfl := Table.key_of_get hget
  exact .bookkept hget ⟨⟨rfl, rfl, rfl, rfl, le_rfl⟩, rfl, rfl, rfl, rfl⟩

/-- A claim gives out a token of the next generation, or none. -/
theorem claim_ok {locked : Uuid → Bool} {catalog : Option String} {request_id : Option Uuid} {owner : String} {duration : Nat}
    {claimed : Option ClaimedDeletion} (h : (claim now locked catalog request_id owner duration).run s = .ok (claimed, t)) :
    t = s ∧ claimed = none ∨ ∃ r r', s.requests.get r.id = some r ∧ r.Keeps r' ∧ t = { s with requests := s.requests.replace r' } ∧
      (claimed = none ∨ r.lease_generation < r'.lease_generation ∧ claimed = some ⟨r', ⟨r.id, owner, r'.lease_generation, r.community_id,
        r.fence_generation⟩⟩) := by
  simp only [claim, bind_ok, read_ok] at h
  obtain ⟨_, _, ⟨rfl, rfl⟩, h⟩ := h
  split at h
  case h_1 =>
    obtain ⟨rfl, rfl⟩ := pure_ok.1 h
    exact .inl ⟨rfl, rfl⟩
  case h_2 r hr =>
    have hget := Table.get_of_mem (List.mem_of_mem_filter (Table.first_mem hr))
    refine .inr ?_
    split at h
    · simp only [bind_ok, write_ok, pure_ok] at h
      obtain ⟨_, _, rfl, rfl, rfl⟩ := h
      refine ⟨r, _, hget, ?_, rfl, .inl rfl⟩
      exact ⟨⟨rfl, rfl, rfl, rfl, le_rfl⟩, rfl, rfl, rfl, rfl⟩
    · simp only [bind_ok, write_ok, pure_ok] at h
      obtain ⟨lease_generation, _, hinc, attempts, _, hattempts, _, _, rfl, rfl, rfl⟩ := h
      obtain ⟨rfl, rfl⟩ := increment_ok hinc
      obtain ⟨rfl, rfl⟩ := increment_ok hattempts
      have hless : r.lease_generation < r.lease_generation + 1 := by omega
      refine ⟨r, _, hget, ?_, rfl, .inr ⟨hless, rfl⟩⟩
      exact ⟨⟨rfl, rfl, rfl, rfl, hless.le⟩, rfl, rfl, rfl, rfl⟩

theorem claim_effect {locked : Uuid → Bool} {catalog : Option String} {request_id : Option Uuid} {owner : String} {duration : Nat}
    {claimed : Option ClaimedDeletion} {op : Op}
    (h : (claim now locked catalog request_id owner duration).run s = .ok (claimed, t)) : Effect env now s op t := by
  obtain ⟨rfl, -⟩ | ⟨r, r', hget, hkeeps, rfl, -⟩ := claim_ok h
  · exact .unchanged
  · exact .bookkept hget hkeeps

theorem heartbeat_effect {token : LeaseToken} {duration : Nat} {u : Unit} {op : Op}
    (h : (heartbeat now token duration).run s = .ok (u, t)) : Effect env now s op t := by
  simp only [heartbeat, bind_ok, read_ok, require_ok, write_ok] at h
  obtain ⟨_, _, ⟨rfl, rfl⟩, r, _, ⟨hr, rfl⟩, rfl⟩ := h
  have hget := (Table.select_eq_some.1 hr).1
  rw [← Table.key_of_get hget] at hget
  exact .bookkept hget ⟨⟨rfl, rfl, rfl, rfl, le_rfl⟩, rfl, rfl, rfl, rfl⟩

theorem stop_executor_effect {token : Option LeaseToken} {u : Unit} {op : Op} (h : (stop_executor token).run s = .ok (u, t)) :
    Effect env now s op t := by
  simp only [stop_executor, bind_ok, read_ok] at h
  obtain ⟨_, _, ⟨rfl, rfl⟩, h⟩ := h
  split at h
  case h_1 =>
    obtain ⟨-, rfl⟩ := pure_ok.1 h
    exact .unchanged
  case h_2 r hr =>
    obtain rfl := write_ok.1 h
    obtain ⟨token, -, hr⟩ := Option.bind_eq_some_iff.1 hr
    have hget := (Table.select_eq_some.1 hr).1
    rw [← Table.key_of_get hget] at hget
    exact .bookkept hget ⟨⟨rfl, rfl, rfl, rfl, le_rfl⟩, rfl, rfl, rfl, rfl⟩

theorem record_retry_effect {token : LeaseToken} {stage : DeletionStage} {error : String} {retry_after : Nat} {u : Unit} {op : Op}
    (h : (record_retry now token stage error retry_after).run s = .ok (u, t)) : Effect env now s op t := by
  simp only [record_retry, bind_ok, read_ok, require_ok] at h
  obtain ⟨_, _, hverify, _, _, ⟨rfl, rfl⟩, r, _, ⟨hget, rfl⟩, h⟩ := h
  obtain ⟨rfl, -⟩ := verify_lease_ok hverify
  split at h
  case isTrue =>
    obtain rfl := write_ok.1 h
    rw [← Table.key_of_get hget] at hget
    exact .bookkept hget ⟨⟨rfl, rfl, rfl, rfl, le_rfl⟩, rfl, rfl, rfl, rfl⟩
  case isFalse =>
    obtain ⟨-, rfl⟩ := pure_ok.1 h
    exact .unchanged

theorem block_effect {token : LeaseToken} {stage : DeletionStage} {error : String} {u : Unit} {op : Op}
    (h : (block now token stage error).run s = .ok (u, t)) : Effect env now s op t := by
  simp only [block, bind_ok, read_ok] at h
  obtain ⟨_, _, hverify, _, _, ⟨rfl, rfl⟩, h⟩ := h
  obtain ⟨rfl, -⟩ := verify_lease_ok hverify
  split at h
  case h_1 =>
    obtain ⟨-, rfl⟩ := pure_ok.1 h
    exact .unchanged
  case h_2 r hr =>
    obtain rfl := write_ok.1 h
    have hget := (Table.select_eq_some.1 hr).1
    rw [← Table.key_of_get hget] at hget
    exact .bookkept hget ⟨⟨rfl, rfl, rfl, rfl, le_rfl⟩, rfl, rfl, rfl, rfl⟩

theorem begin_quiescing_effect {token : LeaseToken} {u : Unit} (h : (begin_quiescing now token).run s = .ok (u, t)) :
    Effect env now s (.begin_quiescing token) t := by
  simp only [begin_quiescing, bind_ok, read_ok, require_ok] at h
  obtain ⟨_, _, hverify, _, _, ⟨rfl, rfl⟩, c, _, ⟨hc, rfl⟩, h⟩ := h
  obtain ⟨rfl, r, hr⟩ := verify_lease_ok hverify
  rw [← hr.community] at hc
  split at h
  case h_1 =>
    simp only [bind_ok, ensure_ok, write_ok, Bool.and_eq_true, Bool.or_eq_true, decide_eq_true_eq] at h
    obtain ⟨_, _, ⟨hstate, rfl⟩, rfl⟩ := h
    have hsame : r.Keeps r := ⟨⟨rfl, rfl, rfl, rfl, le_rfl⟩, rfl, rfl, rfl, rfl⟩
    have heffect : Effect env now _ (.begin_quiescing token) _ := .quiesced hr hsame hc hstate.1
    rwa [Table.replace_self hr.get_id] at heffect
  case h_2 q hq =>
    simp only [bind_ok, ensure_ok, write_ok, Bool.and_eq_true, Bool.or_eq_true, decide_eq_true_eq] at h
    obtain ⟨_, _, rfl, _, _, ⟨hstate, rfl⟩, rfl⟩ := h
    obtain rfl := Option.some.inj (hr.get.symm.trans (Table.select_eq_some.1 hq).1)
    exact .quiesced hr ⟨⟨rfl, rfl, rfl, rfl, le_rfl⟩, rfl, rfl, rfl, rfl⟩ hc hstate.1

theorem fence_ok {token : LeaseToken} {generation : Int} (h : (fence now token).run s = .ok (generation, t)) :
    ∃ r c, Held s now token .Approved r ∧ s.active_serving_writes now r.community_id = [] ∧
      s.communities.get r.community_id = some c ∧ c.deletion_state = .quiescing ∧
      t = { s with requests := s.requests.replace (r.advanced .Fenced (some (c.deletion_fence_generation + 1))),
                   communities := s.communities.replace (c.fenced now) } := by
  simp only [fence, bind_ok, read_ok, require_ok, ensure_ok, write_ok, pure_ok, decide_eq_true_eq] at h
  obtain ⟨_, _, hverify, _, _, ⟨rfl, rfl⟩, _, _, ⟨hactive, rfl⟩, c, _, ⟨hc, rfl⟩, _, _, ⟨-, rfl⟩, _, _, ⟨hstate, rfl⟩, _, _, rfl,
    _, _, hadvance, -, rfl⟩ := h
  obtain ⟨rfl, r, hr⟩ := verify_lease_ok hverify
  obtain ⟨-, q, hq, -, rfl⟩ := advance_request_tx_ok hadvance
  obtain rfl := Option.some.inj (hr.get.symm.trans hq)
  rw [← hr.community] at hc hactive
  exact ⟨r, c, hr, List.length_eq_zero_iff.1 hactive, hc, hstate, rfl⟩

theorem fence_effect {token : LeaseToken} {generation : Int} (h : (fence now token).run s = .ok (generation, t)) :
    Effect env now s (.fence token) t := by
  obtain ⟨r, c, hr, hactive, hc, hstate, rfl⟩ := fence_ok h
  exact .fenced hr hactive hc hstate

theorem freeze_destructive_effect {token : LeaseToken} {manifest : StorageManifest} {u : Unit}
    (h : (freeze_destructive_storage_manifest env now token manifest).run s = .ok (u, t)) :
    Effect env now s (.freeze_destructive_storage_manifest token manifest) t := by
  simp only [freeze_destructive_storage_manifest, require_fence_generation, bind_ok, read_ok, require_ok] at h
  obtain ⟨generation, _, ⟨hgeneration, rfl⟩, _, _, ⟨rfl, rfl⟩, _, _, ⟨-, rfl⟩, _, _, hverify, h⟩ := h
  obtain ⟨rfl, r, c, hr, hc⟩ := verify_lease_and_fence_ok hverify
  split at h
  case h_1 => exact absurd h fail_ok
  case h_2 hvalid =>
    simp only [bind_ok, require_ok, write_ok] at h
    obtain ⟨q, _, ⟨hq, rfl⟩, rfl⟩ := h
    obtain ⟨hget, hp⟩ := Table.select_eq_some.1 hq
    obtain rfl := Option.some.inj (hr.get.symm.trans hget)
    simp only [Bool.and_eq_true, decide_eq_true_eq, Option.all_eq_true] at hp
    obtain ⟨_, hmanifest, hchunks⟩ := (ok_bind_iff _ _ _).1 hvalid
    rw [← hr.id_eq] at hchunks
    have hfrozen : r.destructive_storage_manifest.or (some manifest) = some manifest := by
      rcases hm : r.destructive_storage_manifest with _ | m
      · rfl
      · rw [Option.some_or, hp.2 m hm]
    have heffect : Effect env now _ (.freeze_destructive_storage_manifest token manifest) _ := .frozen hr hc hmanifest hchunks hp.2
    rwa [DeletionRequest.frozen, ← hfrozen] at heffect

theorem remove_chunks_ok {request_id : Uuid} {u : Unit} (h : (remove_chunks request_id).run s = .ok (u, t)) :
    (s.releases_chunk request_id = true ∨ ∀ c ∈ s.chunks.rows, c.request_id ≠ request_id) ∧
      t = { s with chunks := s.chunks.delete (fun c => c.request_id = request_id) } := by
  simp only [remove_chunks, bind_ok, read_ok, ensure_ok, write_ok, Bool.or_eq_true, Bool.not_eq_true', List.any_eq_false,
    decide_eq_true_eq] at h
  obtain ⟨_, _, ⟨rfl, rfl⟩, _, _, ⟨hrelease, rfl⟩, rfl⟩ := h
  exact ⟨hrelease, rfl⟩

theorem clear_manifest_key_chunks_ok {token : LeaseToken} {u : Unit} (h : (clear_manifest_key_chunks now token).run s = .ok (u, t)) :
    ∃ r generation c, Held s now token .Fenced r ∧ Fences s r generation c ∧
      (s.releases_chunk r.id = true ∨ ∀ c ∈ s.chunks.rows, c.request_id ≠ r.id) ∧
      t = { s with chunks := s.chunks.delete (fun c => c.request_id = r.id) } := by
  simp only [clear_manifest_key_chunks, require_fence_generation, bind_ok, require_ok] at h
  obtain ⟨generation, _, ⟨-, rfl⟩, _, _, hverify, h⟩ := h
  obtain ⟨rfl, r, c, hr, hc⟩ := verify_lease_and_fence_ok hverify
  obtain ⟨hrelease, rfl⟩ := remove_chunks_ok h
  rw [← hr.id_eq] at hrelease ⊢
  exact ⟨r, generation, c, hr, hc, hrelease, rfl⟩

theorem append_manifest_key_chunk_ok {token : LeaseToken} {chunk_no : Int} {pre : String} {keys : List String} {u : Unit}
    (h : (append_manifest_key_chunk now token chunk_no pre keys).run s = .ok (u, t)) :
    ∃ r chunks, Held s now token .Fenced r ∧ r.destructive_storage_frozen_at = none ∧
      s.chunks.insert ⟨r.id, chunk_no, pre, keys, none⟩ = some chunks ∧ t = { s with chunks := chunks } := by
  simp only [append_manifest_key_chunk, require_fence_generation, bind_ok, read_ok, require_ok, ensure_ok, write_ok] at h
  obtain ⟨_, _, ⟨-, rfl⟩, generation, _, ⟨-, rfl⟩, _, _, hverify, _, _, ⟨rfl, rfl⟩, _, _, ⟨hadmits, rfl⟩, _, _, ⟨-, rfl⟩, chunks, _,
    ⟨hinsert, rfl⟩, rfl⟩ := h
  obtain ⟨rfl, r, c, hr, -⟩ := verify_lease_and_fence_ok hverify
  rw [← hr.id_eq] at hinsert
  simp only [Db.admits_chunk, hr.get, Option.any_some, Bool.and_eq_true, Option.isNone_iff_eq_none] at hadmits
  exact ⟨r, chunks, hr, hadmits.1, hinsert, rfl⟩

theorem next_pending_ok {token : LeaseToken} {chunk : Option ManifestKeyChunk}
    (h : (next_pending_manifest_chunk token).run s = .ok (chunk, t)) :
    t = s ∧ chunk = (((s.chunks_of token.request_id).filter (fun c => c.deleted_at.isNone)).head?).map ChunkRow.chunk := by
  simp only [next_pending_manifest_chunk, bind_ok, read_ok, pure_ok] at h
  obtain ⟨_, _, ⟨rfl, rfl⟩, rfl, rfl⟩ := h
  exact ⟨rfl, rfl⟩

theorem mark_manifest_chunk_deleted_ok {token : LeaseToken} {chunk_no : Int} {u : Unit}
    (h : (mark_manifest_chunk_deleted now token chunk_no).run s = .ok (u, t)) :
    ∃ r c, Held s now token .Drained r ∧ s.chunks.get (r.id, chunk_no) = some c ∧ c.deleted_at = none ∧
      t = { s with chunks := s.chunks.replace { c with deleted_at := some now } } := by
  simp only [mark_manifest_chunk_deleted, require_fence_generation, bind_ok, read_ok, require_ok, write_ok] at h
  obtain ⟨generation, _, ⟨-, rfl⟩, _, _, hverify, _, _, ⟨rfl, rfl⟩, c, _, ⟨hc, rfl⟩, rfl⟩ := h
  obtain ⟨rfl, r, _, hr, -⟩ := verify_lease_and_fence_ok hverify
  obtain ⟨hget, hp⟩ := Table.select_eq_some.1 hc
  rw [← hr.id_eq] at hget
  exact ⟨r, c, hr, hget, by simpa using hp, rfl⟩

theorem serving_writes_drained_ok {community : CommunityId} {b : Bool} (h : (serving_writes_drained now community).run s = .ok (b, t)) :
    t = s ∧ b = (s.active_serving_writes now community).isEmpty := by
  simp only [serving_writes_drained, bind_ok, read_ok, pure_ok] at h
  obtain ⟨_, _, ⟨rfl, rfl⟩, rfl, rfl⟩ := h
  exact ⟨rfl, rfl⟩

/-- What an advance behind the fence leaves of the database. -/
theorem advance_with_checkpoint_ok {token : LeaseToken} {source target : DeletionStage} {u : Unit}
    (h : (advance_with_checkpoint now token source target).run s = .ok (u, t)) :
    ∃ r generation c, Held s now token source r ∧ Fences s r generation c ∧ source.next = some target ∧
      t = { s with requests := s.requests.replace (r.advanced target (some generation)) } := by
  simp only [advance_with_checkpoint, require_fence_generation, bind_ok, require_ok] at h
  obtain ⟨generation, _, ⟨-, rfl⟩, _, _, hverify, hadvance⟩ := h
  obtain ⟨rfl, r, c, hr, hc⟩ := verify_lease_and_fence_ok hverify
  obtain ⟨hnext, q, hq, -, rfl⟩ := advance_request_tx_ok hadvance
  obtain rfl := Option.some.inj (hr.get.symm.trans hq)
  exact ⟨r, generation, c, hr, hc, hnext, rfl⟩

theorem Effect.of_advance {token : LeaseToken} {source target : DeletionStage} {u : Unit} {op : Op} (hop : op.token = some token)
    (hsource : 2 < source.rank ∧ source ≠ .BindingsRemoved)
    (h : (advance_with_checkpoint now token source target).run s = .ok (u, t)) : Effect env now s op t := by
  obtain ⟨r, generation, c, hr, hc, hnext, rfl⟩ := advance_with_checkpoint_ok h
  exact .advanced hop hr hc hnext hsource.1 hsource.2 ⟨rfl, rfl, rfl, rfl, le_rfl⟩ rfl rfl rfl rfl (.inl rfl)

theorem mark_drained_ok {token : LeaseToken} {u : Unit} (h : (mark_drained now token).run s = .ok (u, t)) :
    s.active_serving_writes now token.community_id = [] ∧ (advance_with_checkpoint now token .Fenced .Drained).run s = .ok (u, t) := by
  simp only [mark_drained, advance_with_checkpoint, bind_ok, read_ok, ensure_ok] at h ⊢
  obtain ⟨generation, _, hgeneration, _, _, hverify, _, _, ⟨rfl, rfl⟩, _, _, ⟨hdrained, rfl⟩, hadvance⟩ := h
  have hs : _ = s := (require_ok.1 hgeneration).2
  have ht := (verify_lease_and_fence_ok hverify).1
  refine ⟨?_, generation, _, hgeneration, _, _, hverify, hadvance⟩
  rw [ht, hs, List.isEmpty_iff] at hdrained
  exact hdrained

theorem mark_logically_verified_effect {token : LeaseToken} {u : Unit} (h : (mark_logically_verified now token).run s = .ok (u, t)) :
    Effect env now s (.mark_logically_verified token) t := by
  simp only [mark_logically_verified, bind_ok] at h
  obtain ⟨_, _, hadvance, hremove⟩ := h
  obtain ⟨r, generation, c, hr, hc, hnext, rfl⟩ := advance_with_checkpoint_ok hadvance
  obtain ⟨-, rfl⟩ := remove_chunks_ok hremove
  exact .advanced rfl hr hc hnext (by decide) (by decide) ⟨rfl, rfl, rfl, rfl, le_rfl⟩ rfl rfl rfl rfl (.inr rfl)

theorem mark_retention_pending_effect {token : LeaseToken} {u : Unit} (h : (mark_retention_pending now token).run s = .ok (u, t)) :
    Effect env now s (.mark_retention_pending token) t := by
  simp only [mark_retention_pending, require_fence_generation, bind_ok, read_ok, require_ok, write_ok] at h
  obtain ⟨generation, _, ⟨-, rfl⟩, _, _, hverify, _, _, ⟨rfl, rfl⟩, q, _, ⟨hq, rfl⟩, rfl⟩ := h
  obtain ⟨rfl, r, c, hr, hc⟩ := verify_lease_and_fence_ok hverify
  obtain rfl := Option.some.inj (hr.get.symm.trans (Table.select_eq_some.1 hq).1)
  exact .advanced rfl hr hc rfl (by decide) (by decide) ⟨rfl, rfl, rfl, rfl, le_rfl⟩ rfl hc.fence rfl rfl (.inl rfl)

theorem purge_postgres_held {catalog : Option String} {token : LeaseToken} {u : Unit}
    (h : (purge_postgres now catalog token).run s = .ok (u, t)) : ∃ r, Held s now token .BindingsRemoved r := by
  simp only [purge_postgres, require_fence_generation, bind_ok, require_ok, ensure_ok] at h
  obtain ⟨generation, _, ⟨-, rfl⟩, _, _, ⟨-, rfl⟩, _, _, hverify, -⟩ := h
  obtain ⟨-, r, -, hr, -⟩ := verify_lease_and_fence_ok hverify
  exact ⟨r, hr⟩

theorem purge_postgres_effect {catalog : Option String} {token : LeaseToken} {u : Unit}
    (h : (purge_postgres now catalog token).run s = .ok (u, t)) : Effect env now s (.purge_postgres catalog token) t := by
  simp only [purge_postgres, require_fence_generation, bind_ok, read_ok, require_ok, ensure_ok, write_ok] at h
  obtain ⟨generation, _, ⟨-, rfl⟩, _, _, ⟨-, rfl⟩, _, _, hverify, _, _, ⟨rfl, rfl⟩, c, _, ⟨hc, rfl⟩, _, _, rfl, hadvance⟩ := h
  obtain ⟨rfl, r, c', hr, hc'⟩ := verify_lease_and_fence_ok hverify
  obtain ⟨-, q, hq, -, rfl⟩ := advance_request_tx_ok hadvance
  obtain rfl := Option.some.inj (hr.get.symm.trans hq)
  obtain ⟨hget, hp⟩ := Table.select_eq_some.1 hc
  rw [← hr.community] at hget
  obtain rfl := Option.some.inj (hc'.get.symm.trans hget)
  simp only [Bool.and_eq_true, decide_eq_true_eq] at hp
  exact .purged hr hc' hp.1

/-! ## Serving writes -/

/-- The community still serves under the generation. -/
structure Serves (s : Db) (community : CommunityId) (generation : Int) (c : CommunityRow) : Prop where
  get : s.communities.get community = some c
  state : c.deletion_state = .active ∨ c.deletion_state = .quiescing
  generation : c.deletion_fence_generation = generation

/-- A row passes the validity test only for its own lease, unexpired, while its community serves. -/
theorem valid_serving_lease_iff {lease row : ServingWriteLease} (h : s.valid_serving_lease now lease row = true) :
    row.community_id = lease.community_id ∧ row.fence_generation = lease.fence_generation ∧ now ≤ row.lease_until ∧
      ∃ c, Serves s lease.community_id lease.fence_generation c := by
  simp only [Db.valid_serving_lease, Bool.and_eq_true, decide_eq_true_eq] at h
  obtain ⟨⟨⟨⟨⟨hcommunity, -⟩, -⟩, hfence⟩, huntil⟩, hc⟩ := h
  obtain ⟨c, hc⟩ := Option.isSome_iff_exists.1 hc
  obtain ⟨hget, hp⟩ := Table.select_eq_some.1 hc
  simp only [Bool.and_eq_true, Bool.or_eq_true, decide_eq_true_eq] at hp
  exact ⟨hcommunity, hfence, huntil, c, hcommunity ▸ hget, hp.1.2, hfence ▸ hp.2⟩

theorem select_valid {lease : ServingWriteLease} (h : (s.leases.select lease.id (s.valid_serving_lease now lease)).isSome = true) :
    ∃ c, Serves s lease.community_id lease.fence_generation c := by
  obtain ⟨row, hrow⟩ := Option.isSome_iff_exists.1 h
  exact (valid_serving_lease_iff (Table.select_eq_some.1 hrow).2).2.2.2

theorem guard_transaction_ok {community : CommunityId} {u : Unit} (h : (guard_transaction community).run s = .ok (u, t)) :
    t = s ∧ ∃ c, Serves s community c.deletion_fence_generation c := by
  simp only [guard_transaction, bind_ok, read_ok, require_ok, ensure_ok, decide_eq_true_eq] at h
  obtain ⟨_, _, ⟨rfl, rfl⟩, c, _, ⟨hc, rfl⟩, hactive, rfl⟩ := h
  exact ⟨rfl, c, (Table.select_eq_some.1 hc).1, .inl hactive, rfl⟩

theorem guard_transaction_with_serving_lease_ok {lease : ServingWriteLease} {u : Unit}
    (h : (guard_transaction_with_serving_lease now lease).run s = .ok (u, t)) :
    t = s ∧ ∃ c, Serves s lease.community_id lease.fence_generation c := by
  simp only [guard_transaction_with_serving_lease, bind_ok, read_ok, ensure_ok] at h
  obtain ⟨_, _, ⟨rfl, rfl⟩, hvalid, rfl⟩ := h
  exact ⟨rfl, select_valid hvalid⟩

theorem verify_serving_write_lease_ok {lease : ServingWriteLease} {u : Unit}
    (h : (verify_serving_write_lease now lease).run s = .ok (u, t)) :
    t = s ∧ ∃ c, Serves s lease.community_id lease.fence_generation c := by
  simp only [verify_serving_write_lease, bind_ok, read_ok, ensure_ok] at h
  obtain ⟨_, _, ⟨rfl, rfl⟩, hvalid, rfl⟩ := h
  exact ⟨rfl, select_valid hvalid⟩

theorem acquire_serving_write_lease_ok {id : Uuid} {community : CommunityId} {operation owner : String} {duration : Nat}
    {lease : ServingWriteLease} (h : (acquire_serving_write_lease now id community operation owner duration).run s = .ok (lease, t)) :
    lease.id = id ∧ lease.community_id = community ∧ lease.operation = operation ∧ lease.owner = owner ∧
      ∃ c leases, s.communities.get community = some c ∧ c.deletion_state = .active ∧
        c.deletion_fence_generation = lease.fence_generation ∧ s.leases.insert lease = some leases ∧
        t = { s with leases := leases } := by
  simp only [acquire_serving_write_lease, bind_ok, read_ok, require_ok, ensure_ok, write_ok, pure_ok] at h
  obtain ⟨_, _, ⟨rfl, rfl⟩, _, _, ⟨-, rfl⟩, c, _, ⟨hc, rfl⟩, leases, _, ⟨hinsert, rfl⟩, _, _, rfl, rfl, rfl⟩ := h
  obtain ⟨hget, hp⟩ := Table.select_eq_some.1 hc
  simp only [Bool.and_eq_true, decide_eq_true_eq] at hp
  exact ⟨rfl, rfl, rfl, rfl, c, leases, hget, hp.1, rfl, hinsert, rfl⟩

theorem acquire_effect {id : Uuid} {community : CommunityId} {operation owner : String} {duration : Nat} {lease : ServingWriteLease}
    (h : (acquire_serving_write_lease now id community operation owner duration).run s = .ok (lease, t)) :
    Effect env now s (.acquire_serving_write_lease id community operation owner duration) t := by
  obtain ⟨rfl, rfl, rfl, rfl, c, leases, hget, hactive, hfence, hinsert, rfl⟩ := acquire_serving_write_lease_ok h
  exact .leased hget hactive hfence hinsert

theorem renew_serving_write_lease_ok {lease renewed : ServingWriteLease} {duration : Nat}
    (h : (renew_serving_write_lease now lease duration).run s = .ok (renewed, t)) :
    ∃ row, s.leases.get lease.id = some row ∧ s.valid_serving_lease now lease row = true ∧
      t = { s with leases := s.leases.replace { row with lease_until := after_seconds now (lease_seconds duration) } } := by
  simp only [renew_serving_write_lease, bind_ok, read_ok, require_ok, write_ok, pure_ok] at h
  obtain ⟨_, _, ⟨rfl, rfl⟩, row, _, ⟨hrow, rfl⟩, _, _, rfl, -, rfl⟩ := h
  obtain ⟨hget, hvalid⟩ := Table.select_eq_some.1 hrow
  exact ⟨row, hget, hvalid, rfl⟩

theorem renew_effect {lease renewed : ServingWriteLease} {duration : Nat}
    (h : (renew_serving_write_lease now lease duration).run s = .ok (renewed, t)) :
    Effect env now s (.renew_serving_write_lease lease duration) t := by
  obtain ⟨row, hget, hvalid, rfl⟩ := renew_serving_write_lease_ok h
  exact .renewed hget hvalid

theorem release_effect {lease : ServingWriteLease} {b : Bool} {op : Op} (h : (release_serving_write_lease lease).run s = .ok (b, t)) :
    Effect env now s op t := by
  simp only [release_serving_write_lease, bind_ok, read_ok, write_ok, pure_ok] at h
  obtain ⟨_, _, ⟨rfl, rfl⟩, _, _, rfl, -, rfl⟩ := h
  exact .released

theorem reap_effect {locked : Uuid → Bool} {limit : Int} {n : Nat} {op : Op}
    (h : (reap_expired_serving_write_leases now locked limit).run s = .ok (n, t)) : Effect env now s op t := by
  simp only [reap_expired_serving_write_leases, bind_ok, read_ok, write_ok, pure_ok] at h
  obtain ⟨_, _, ⟨rfl, rfl⟩, _, _, rfl, -, rfl⟩ := h
  exact .released

/-! ## Every call -/

theorem exec_effect {op : Op} {reply : Reply} (h : (exec env now op).run s = .ok (reply, t)) : Effect env now s op t := by
  cases op <;> simp only [exec, bind_ok, pure_ok] at h <;> obtain ⟨x, _, h, -, rfl⟩ := h
  case submit => exact submit_effect h
  case freeze_inventory => exact freeze_inventory_effect h
  case approve => exact approve_effect h
  case abort => exact abort_effect h
  case unblock => exact unblock_effect h
  case block_preclaim_setup => exact block_preclaim_setup_effect h
  case claim => exact claim_effect h
  case verify_execution_token => exact (verify_execution_token_ok h).1 ▸ .unchanged
  case heartbeat => exact heartbeat_effect h
  case stop_executor => exact stop_executor_effect h
  case record_retry => exact record_retry_effect h
  case block => exact block_effect h
  case begin_quiescing => exact begin_quiescing_effect h
  case fence => exact fence_effect h
  case freeze_destructive_storage_manifest => exact freeze_destructive_effect h
  case clear_manifest_key_chunks =>
    obtain ⟨r, _, _, hr, -, -, rfl⟩ := clear_manifest_key_chunks_ok h
    exact .chunked rfl hr
  case append_manifest_key_chunk =>
    obtain ⟨r, _, hr, -, -, rfl⟩ := append_manifest_key_chunk_ok h
    exact .chunked rfl hr
  case next_pending_manifest_chunk => exact (next_pending_ok h).1 ▸ .unchanged
  case mark_manifest_chunk_deleted =>
    obtain ⟨r, _, hr, -, -, rfl⟩ := mark_manifest_chunk_deleted_ok h
    exact .chunked rfl hr
  case serving_writes_drained => exact (serving_writes_drained_ok h).1 ▸ .unchanged
  case mark_drained => exact .of_advance rfl (by decide) (mark_drained_ok h).2
  case mark_bindings_removed => exact .of_advance rfl (by decide) h
  case purge_postgres => exact purge_postgres_effect h
  case mark_cache_purged => exact .of_advance rfl (by decide) h
  case mark_logically_verified => exact mark_logically_verified_effect h
  case mark_retention_pending => exact mark_retention_pending_effect h
  case guard_transaction => exact (guard_transaction_ok h).1 ▸ .unchanged
  case guard_transaction_with_serving_lease => exact (guard_transaction_with_serving_lease_ok h).1 ▸ .unchanged
  case acquire_serving_write_lease => exact acquire_effect h
  case renew_serving_write_lease => exact renew_effect h
  case release_serving_write_lease => exact release_effect h
  case verify_serving_write_lease => exact (verify_serving_write_lease_ok h).1 ▸ .unchanged
  case reap_expired_serving_write_leases => exact reap_effect h

end

end Ambush.Deletion

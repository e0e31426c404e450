import Ambush.Lib.Ints
import Ambush.Lib.Logs
import Ambush.Runtime.DispatchJournal
import Mathlib.Data.List.Sort
import Mathlib.Data.String.Basic
/-!
# Containment leases and their stores

A containment is held open by a lease and undone by a rollback, whose receipt says what each
step of the inverse did. A store keeps the leases that are open and the receipts of those
that were closed, in memory or in one file. What it has to do is said once for both.
-/
open Lib

namespace Ambush.Response
open Ambush.Runtime (ExecutionMode ResponseStatus)

inductive RollbackTrigger where
  | Manual | Expiry
  deriving DecidableEq

def RollbackTrigger.as_str : RollbackTrigger → String
  | .Manual => "manual"
  | .Expiry => "expiry"

inductive ResponseRollbackStepKind where
  | RemoveNetworkBlock | RestoreHostConnectivity | RestoreCredential | RemoveDnsSinkhole | ReauthenticateUserSession
  | CancelHostScan | RemoveFirewallRule | ReleaseQuarantinedFile | RestartProcess | ResumeProcess | ReenableUserAccount
  | ClearPasswordResetRequirement | RestoreScheduledTask | WithdrawDecoy
  deriving DecidableEq

inductive RollbackStepStatus where
  | Reversed | Simulated | Irreversible | Unsupported | Failed
  deriving DecidableEq

def RollbackStepStatus.restored (status : RollbackStepStatus) : Bool := status = .Reversed

structure RollbackStepOutcome where
  kind : ResponseRollbackStepKind
  status : RollbackStepStatus
  detail : String
  deriving DecidableEq

/-- A lease ends after it was issued: every way to make one checks that. `scope_value` is the one field of the blast radius that a
receipt shows. -/
structure ContainmentLease where
  lease_id : String
  action : ResponseAction
  origin_receipt_id : String
  governance_receipt_id : Option String
  scope_value : String
  issued_at_ms : Int
  expires_at_ms : Int
  bounded : issued_at_ms < expires_at_ms
  deriving DecidableEq

def ContainmentLease.is_expired (lease : ContainmentLease) (now_ms : Int) : Bool := lease.expires_at_ms ≤ now_ms

/-- `ContainmentLease::open`, with a positive TTL. -/
def ContainmentLease.opened (lease_id : String) (action : ResponseAction) (origin_receipt_id : String)
    (governance_receipt_id : Option String) (scope_value : String) (issued_at_ms ttl_ms : Int) : Except String ContainmentLease :=
  if h : issued_at_ms < satAddI issued_at_ms ttl_ms then
    .ok ⟨lease_id, action, origin_receipt_id, governance_receipt_id, scope_value, issued_at_ms, satAddI issued_at_ms ttl_ms, h⟩
  else .error (s!"containment lease `{lease_id}` would expire at {satAddI issued_at_ms ttl_ms} but was issued at " ++
    s!"{issued_at_ms}; a containment must be bounded")

structure RollbackReceipt where
  rollback_id : String
  lease_id : String
  origin_receipt_id : String
  governance_receipt_id : Option String
  trigger : RollbackTrigger
  mode : ExecutionMode
  status : ResponseStatus
  steps : List RollbackStepOutcome
  completed_at_ms : Int
  summary : String
  governance_attestation : Option Value

namespace RollbackReceipt

def derive_status (steps : List RollbackStepOutcome) (mode : ExecutionMode) : ResponseStatus :=
  if steps.isEmpty then .Failed
  else if steps.all (·.status.restored) then .Executed
  else if steps.all (·.status = .Simulated) && mode = .DryRun then .Simulated
  else .Failed

/-- The receipt of an executor, which every executor builds from what its steps did. -/
def from_steps (lease : ContainmentLease) (trigger : RollbackTrigger) (mode : ExecutionMode) (completed_at_ms : Int)
    (steps : List RollbackStepOutcome) : RollbackReceipt where
  rollback_id := s!"rollback:{lease.lease_id}:{completed_at_ms}"
  lease_id := lease.lease_id
  origin_receipt_id := lease.origin_receipt_id
  governance_receipt_id := lease.governance_receipt_id
  trigger := trigger
  mode := mode
  status := derive_status steps mode
  steps := steps
  completed_at_ms := completed_at_ms
  summary :=
    let reversed := (steps.filter (·.status.restored)).length
    s!"{trigger.as_str} trigger on `{lease.action.kind}` ({lease.scope_value}): {reversed}/{steps.length} step(s) restored"
  governance_attestation := none

/-- The inverse was tried and did not land. -/
def attempt_failed (r : RollbackReceipt) : Bool := r.steps.any (·.status = .Failed)

end RollbackReceipt

/-! ## The stores -/

/-- The state in memory; `open_lease` refuses an id that is open. -/
structure ContainmentState where
  leases : List ContainmentLease
  closed : List RollbackReceipt
  distinct : (leases.map (·.lease_id)).Nodup

/-- The file: a map from lease ids to leases, in key order. -/
structure PersistedContainmentState where
  leases : List ContainmentLease
  closed : List RollbackReceipt
  sorted : Ordered (·.lease_id) leases

/-- `none` is `AlreadyOpen`. -/
def ContainmentState.open_lease (s : ContainmentState) (lease : ContainmentLease) : Option ContainmentState :=
  if h : lease.lease_id ∈ s.leases.map (·.lease_id) then none
  else some {
    leases := s.leases ++ [lease]
    closed := s.closed
    distinct := by
      rw [List.map_append]
      exact s.distinct.append (List.nodup_singleton _) (List.disjoint_singleton.2 h) }

def PersistedContainmentState.open_lease (s : PersistedContainmentState) (lease : ContainmentLease) :
    Option PersistedContainmentState :=
  if lease.lease_id ∈ s.leases.map (·.lease_id) then none
  else some ⟨put (·.lease_id) lease s.leases, s.closed, ordered_put lease s.sorted⟩

/-- `position` and `remove`. -/
def ContainmentState.close (s : ContainmentState) (receipt : RollbackReceipt) : Option ContainmentState :=
  if s.leases.any (·.lease_id = receipt.lease_id) then
    some {
      leases := s.leases.eraseP (·.lease_id = receipt.lease_id)
      closed := s.closed ++ [receipt]
      distinct := s.distinct.sublist (List.eraseP_sublist.map _) }
  else none

/-- `BTreeMap::remove`. -/
def PersistedContainmentState.close (s : PersistedContainmentState) (receipt : RollbackReceipt) : Option PersistedContainmentState :=
  if s.leases.any (·.lease_id = receipt.lease_id) then
    some {
      leases := s.leases.filter (·.lease_id ≠ receipt.lease_id)
      closed := s.closed ++ [receipt]
      sorted := s.sorted.filter _ }
  else none

inductive ContainmentLeaseStore where
  | Memory (state : ContainmentState)
  | File (state : PersistedContainmentState)

namespace ContainmentLeaseStore

def open_leases : ContainmentLeaseStore → List ContainmentLease
  | .Memory s => s.leases
  | .File s => s.leases

/-- `store_error` is the text of what went wrong with the file, if anything did. -/
def open_lease (s : ContainmentLeaseStore) (lease : ContainmentLease) (store_error : Option String) :
    Except String ContainmentLeaseStore :=
  let already_open := s!"containment lease `{lease.lease_id}` is already open"
  match s with
  | .Memory state =>
    match state.open_lease lease with
    | none => .error already_open
    | some state => .ok (.Memory state)
  | .File state =>
    match store_error with
    | some text => .error text
    | none =>
      match state.open_lease lease with
      | none => .error already_open
      | some state => .ok (.File state)

def closed_receipts : ContainmentLeaseStore → List RollbackReceipt
  | .Memory s => s.closed
  | .File s => s.closed

def get (s : ContainmentLeaseStore) (lease_id : String) : Option ContainmentLease := s.open_leases.find? (·.lease_id = lease_id)

/-- `none` is `NotOpen`. -/
def close (s : ContainmentLeaseStore) (receipt : RollbackReceipt) : Option ContainmentLeaseStore :=
  match s with
  | .Memory state => (state.close receipt).map .Memory
  | .File state => (state.close receipt).map .File

def expired (s : ContainmentLeaseStore) (now_ms : Int) : List ContainmentLease :=
  (s.open_leases.filter (·.is_expired now_ms)).mergeSort (fun a b => a.issued_at_ms ≤ b.issued_at_ms)

/-- A read or a write of the file can fail, and leaves it as it was. -/
def io_fails (s : ContainmentLeaseStore) (io_ok : Bool) : Bool :=
  match s with
  | .Memory _ => false
  | .File _ => !io_ok

def open_ids (s : ContainmentLeaseStore) : List String := s.open_leases.map (·.lease_id)

def closed_ids (s : ContainmentLeaseStore) : List String := s.closed_receipts.map (·.lease_id)

variable {s s' : ContainmentLeaseStore} {receipt : RollbackReceipt} {lease_id : String} {lease : ContainmentLease}

theorem mem_ids_eraseP {leases : List ContainmentLease} (h : (leases.map (·.lease_id)).Nodup) (id : String) :
    id ∈ (leases.eraseP (·.lease_id = lease_id)).map (·.lease_id) ↔ id ∈ leases.map (·.lease_id) ∧ id ≠ lease_id := by
  induction leases with
  | nil => simp
  | cons lease leases ih =>
    obtain ⟨hnew, hnodup⟩ := List.nodup_cons.1 h
    by_cases hid : lease.lease_id = lease_id
    · rw [List.eraseP_cons_of_pos (by simpa using hid), List.map_cons, List.mem_cons]
      constructor
      · intro hmem
        refine ⟨.inr hmem, fun he => hnew ?_⟩
        show lease.lease_id ∈ _
        rw [hid, ← he]
        exact hmem
      · rintro ⟨rfl | hmem, hne⟩
        · exact absurd hid hne
        · exact hmem
    · rw [List.eraseP_cons_of_neg (by simpa using hid), List.map_cons, List.map_cons, List.mem_cons, List.mem_cons, ih hnodup]
      constructor
      · rintro (rfl | ⟨hmem, hne⟩)
        · exact ⟨.inl rfl, hid⟩
        · exact ⟨.inr hmem, hne⟩
      · rintro ⟨rfl | hmem, hne⟩
        · exact .inl rfl
        · exact .inr ⟨hmem, hne⟩

/-- A lease that closes was open, is not any more, and leaves its receipt. -/
theorem close_spec (h : s.close receipt = some s') :
    receipt.lease_id ∈ s.open_ids ∧ (∀ id, id ∈ s'.open_ids ↔ id ∈ s.open_ids ∧ id ≠ receipt.lease_id) ∧
      s'.closed_receipts = s.closed_receipts ++ [receipt] := by
  cases s with
  | Memory state =>
    obtain ⟨state', hstate, rfl⟩ := Option.map_eq_some_iff.1 h
    rw [ContainmentState.close] at hstate
    split at hstate
    · next hany =>
      obtain rfl := Option.some.inj hstate
      exact ⟨by simpa [open_ids, open_leases] using hany, mem_ids_eraseP state.distinct, rfl⟩
    · cases hstate
  | File state =>
    obtain ⟨state', hstate, rfl⟩ := Option.map_eq_some_iff.1 h
    rw [PersistedContainmentState.close] at hstate
    split at hstate
    · next hany =>
      obtain rfl := Option.some.inj hstate
      refine ⟨by simpa [open_ids, open_leases] using hany, fun id => ?_, rfl⟩
      simp only [open_ids, open_leases, List.mem_map, List.mem_filter, decide_eq_true_eq]
      constructor
      · rintro ⟨lease, ⟨hmem, hne⟩, rfl⟩
        exact ⟨⟨lease, hmem, rfl⟩, hne⟩
      · rintro ⟨⟨lease, hmem, rfl⟩, hne⟩
        exact ⟨lease, ⟨hmem, hne⟩, rfl⟩
    · cases hstate

/-- A lease that is open closes. -/
theorem close_of_open (h : receipt.lease_id ∈ s.open_ids) : ∃ s', s.close receipt = some s' := by
  cases s with
  | Memory state =>
    have hany : state.leases.any (·.lease_id = receipt.lease_id) = true := by simpa [open_ids, open_leases] using h
    exact ⟨_, by rw [close, ContainmentState.close, if_pos hany]; rfl⟩
  | File state =>
    have hany : state.leases.any (·.lease_id = receipt.lease_id) = true := by simpa [open_ids, open_leases] using h
    exact ⟨_, by rw [close, PersistedContainmentState.close, if_pos hany]; rfl⟩

end ContainmentLeaseStore
end Ambush.Response

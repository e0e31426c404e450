import Mathlib.Data.List.Sort
import Mathlib.Data.String.Basic
import Ambush.Consensus.Transport
import Ambush.Governance.Lease
/-!
# The state a governance policy holds

`GovernanceState`, what of it a file keeps, and the policy around it. A policy has its
file with it: `GovernancePersistence` is the path together with what is stored there.
-/
open Lib

namespace Ambush.Governance

open Consensus Policy

inductive PartitionState where
  | Healthy | Degraded | Partitioned | Healing
  deriving DecidableEq

structure PartitionActionRecord where
  recorded_at_ms : Int
  hunt_id : String
  requested_by : String
  action_kind : String
  scope : Option String
  authorized : Bool
  reason : String
  lease_id : Option String
  deriving DecidableEq

/-- The key the recorded action is redeemed under. -/
def PartitionActionRecord.scope_key (r : PartitionActionRecord) : String := r.scope.getD ("unscoped:" ++ r.action_kind)

structure PartitionReconciliationReport where
  report_id : String
  created_at_ms : Int
  partition_started_at_ms : Option Int
  healed_at_ms : Int
  authorized_actions : List PartitionActionRecord
  unauthorized_actions : List PartitionActionRecord
  deriving DecidableEq

inductive GovernanceRuntimeEvent where
  | PartitionStateTransition (emitted_at_ms : Int) (governing_agent_id : AgentId)
      (previous next : PartitionState) -- the source's `from` and `to`
      (healthy_governors total_governors quorum_threshold : Nat) (reason : String)
  | PartitionReconciliation (emitted_at_ms : Int) (governing_agent_id : AgentId)
      (report : PartitionReconciliationReport)
  deriving DecidableEq

inductive GovernanceDecision where
  | Allow (receipt : Option ConsensusGovernanceReceipt) (contingency_lease : Option ContingencyLease)
  | Veto (governing_agent_id : AgentId) (reason : String) (receipt : Option ConsensusGovernanceReceipt)
  deriving DecidableEq

structure LocalGovernorKey where
  consensus_agent_id : AgentId
  signing_key : SigningKey
  deriving DecidableEq

def LocalGovernorKey.new (c : Crypto) (signing_key : SigningKey) : LocalGovernorKey :=
  ⟨AgentId.from_verifying_key (c.verifying_key signing_key), signing_key⟩

inductive GovernanceKeyError where
  | SecondSigningKey (existing offered : AgentId)
  deriving DecidableEq

/-- A `BTreeMap` is the list of its entries and a `BTreeSet` the list of its elements. -/
structure GovernanceState where
  governing_agent_id : Option AgentId := none
  display_governors : List (AgentId × AgentId) := []
  local_governor : Option LocalGovernorKey := none
  peer_governors : List AgentId := []
  unhealthy_agents : List AgentHealthEntry := []
  previous_commit_hash : String := "governance-bootstrap"
  receipt_counter : Nat := 0
  partition_state : PartitionState := .Healthy
  partition_started_at_ms : Option Int := none
  last_transition_at_ms : Option Int := none
  last_healthy_governors : Nat := 0
  last_quorum_threshold : Nat := 0
  active_contingency_leases : List ContingencyLease := []
  partition_activity : List PartitionActionRecord := []
  reconciliation_reports : List PartitionReconciliationReport := []
  pending_events : List GovernanceRuntimeEvent := []
  deriving DecidableEq

namespace GovernanceState

def governor_count (s : GovernanceState) : Nat :=
  satAdd s.peer_governors.length (if s.local_governor.isSome then 1 else 0)

def committee (c : Crypto) (s : GovernanceState) : Except ConsensusError ConsensusCommittee :=
  let members := s.peer_governors ++ (s.local_governor.map (·.consensus_agent_id)).toList
  ConsensusCommittee.new c members (recommended_max_faulty members.length)

end GovernanceState

/-- `BTreeMap::insert`. -/
def insert_entry (k v : AgentId) (m : List (AgentId × AgentId)) : List (AgentId × AgentId) :=
  (m.filter (·.1 ≠ k)) ++ [(k, v)]

/-- `BTreeSet::insert`. -/
def insert_element (a : AgentId) (s : List AgentId) : List AgentId :=
  if a ∈ s then s else s.orderedInsert (· ≤ ·) a

structure GovernancePolicyConfig where
  contingency_lease_ttl_ms : Int := 300000
  contingency_blast_radius_cap : Nat := 1
  deriving DecidableEq

/-! ## What a file keeps -/

structure PersistedGovernanceState where
  governing_agent_id : Option AgentId := none
  peer_governors : List AgentId := []
  previous_commit_hash : String := "governance-bootstrap"
  receipt_counter : Nat := 0
  partition_state : PartitionState := .Healthy
  partition_started_at_ms : Option Int := none
  last_transition_at_ms : Option Int := none
  active_contingency_leases : List ContingencyLease := []
  partition_activity : List PartitionActionRecord := []
  reconciliation_reports : List PartitionReconciliationReport := []
  deriving DecidableEq

/-- What `save` writes of a state. -/
def GovernanceState.persisted (s : GovernanceState) : PersistedGovernanceState where
  governing_agent_id := s.governing_agent_id
  peer_governors := s.peer_governors
  previous_commit_hash := s.previous_commit_hash
  receipt_counter := s.receipt_counter
  partition_state := s.partition_state
  partition_started_at_ms := s.partition_started_at_ms
  last_transition_at_ms := s.last_transition_at_ms
  active_contingency_leases := s.active_contingency_leases
  partition_activity := s.partition_activity
  reconciliation_reports := s.reconciliation_reports

/-- The state `with_persistence` starts from; it holds no key. -/
def PersistedGovernanceState.restored (f : PersistedGovernanceState) : GovernanceState where
  governing_agent_id := f.governing_agent_id
  peer_governors := f.peer_governors
  previous_commit_hash := f.previous_commit_hash
  receipt_counter := f.receipt_counter
  partition_state := f.partition_state
  partition_started_at_ms := f.partition_started_at_ms
  last_transition_at_ms := f.last_transition_at_ms
  active_contingency_leases := f.active_contingency_leases
  partition_activity := f.partition_activity
  reconciliation_reports := f.reconciliation_reports

structure GovernancePersistence where
  /-- What the path holds, if there is a file. -/
  file : Option PersistedGovernanceState
  deriving DecidableEq

/-- A missing file loads as the default state. -/
def GovernancePersistence.load (p : GovernancePersistence) : PersistedGovernanceState := p.file.getD {}

/-- The file is replaced as a whole, by a rename, or left as it was. -/
def GovernancePersistence.save (p : GovernancePersistence) (succeeds : Bool) (s : GovernanceState) :
    GovernancePersistence :=
  if succeeds then ⟨some s.persisted⟩ else p

structure GovernancePolicy (T : ConsensusTransport) where
  state : GovernanceState
  config : GovernancePolicyConfig
  persistence : Option GovernancePersistence
  transport : T.State

namespace GovernancePolicy

variable {T : ConsensusTransport}

def new (config : GovernancePolicyConfig) (transport : T.State) : GovernancePolicy T :=
  ⟨{}, config, none, transport⟩

def with_persistence (config : GovernancePolicyConfig) (persistence : GovernancePersistence) (transport : T.State) :
    GovernancePolicy T :=
  ⟨persistence.load.restored, config, some persistence, transport⟩

end GovernancePolicy
end Ambush.Governance

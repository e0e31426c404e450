import Ambush.Core.Types
import Ambush.Governance.State
import Ambush.Lib.Files
/-!
# What the bridge carries

The runtime's events as the bridge reads them, the records they are spooled as, and the
losses it reports. A field that no part of the bridge reads is left out.
-/
namespace Ambush.Bridge
open Lib (Bytes)

/-! ## Runtime events -/

inductive SwarmMode where
  | Normal | Alert | Incident
  deriving DecidableEq

inductive ThreatClass where
  | LateralMovement | DataExfiltration | PrivilegeEscalation | CommandAndControl | InitialAccess | Persistence
  | SupplyChain | DefenseEvasion | CredentialAccess | Discovery | Execution | Impact
  | Custom (name : String)
  deriving DecidableEq

structure ThreatConcentration where
  threat_class : ThreatClass
  total_strength : Rat
  distinct_sources : Nat
  peak_confidence : Rat
  deriving DecidableEq

structure SwarmFindingEnvelope where
  finding_id : String
  event_id : String
  strategy_id : String
  threat_class : ThreatClass
  severity : Severity
  confidence : Rat
  evidence : Value
  deriving DecidableEq

/-- The reading a `GovernanceStatus` event carries, which is what its frame carries too. -/
structure GovernanceReading where
  partition_state : Governance.PartitionState
  total_governors : Nat
  healthy_governors : Nat
  quorum_threshold : Nat
  unauthorized_partition_actions : Nat
  active_contingency_leases : Nat
  last_transition_at_ms : Option Int
  last_reconciliation_report_id : Option String
  contingency_lease_ttl_ms : Int
  deriving DecidableEq

inductive RuntimeEvent where
  | Ingest (emitted_at_ms : Int) (source : String) (accepted : Bool)
  | Finding (emitted_at_ms : Int) (host_id : Option String) (finding : SwarmFindingEnvelope)
  | Replay
  | AgentAction (emitted_at_ms : Int) (agent_id : String) (role : AgentRole) (action_kind : String)
  | TamperAlert
  | EvolutionStatus
  | ResponseExecution
  | AgentHealth (emitted_at_ms : Int) (agent_id : String) (role : AgentRole) (was : Option AgentHealth) (now : AgentHealth)
  | ConcentrationSnapshot (emitted_at_ms : Int) (current_mode : SwarmMode) (concentrations : List ThreatConcentration)
  | Escalation
  | ModeTransition (emitted_at_ms : Int) (source target : SwarmMode) (triggering_threat_class : Option ThreatClass)
      (reason : String)
  | CasePromoted
  | ResponseHeld
  | ContainmentReleased
  | GovernanceStatus (emitted_at_ms : Int) (reading : GovernanceReading)
  deriving DecidableEq

/-! ## Streams and records -/

inductive Stream where
  | Evidence | Telemetry | Alarm | DroppedAtSource
  deriving DecidableEq

def classify : RuntimeEvent → Stream
  | .CasePromoted | .ResponseHeld | .ModeTransition .. | .TamperAlert => .Alarm
  | .ContainmentReleased | .Escalation | .Finding .. | .ResponseExecution => .Evidence
  | .ConcentrationSnapshot .. | .AgentHealth .. | .AgentAction .. | .GovernanceStatus .. => .Telemetry
  | .Ingest .. | .Replay | .EvolutionStatus => .DroppedAtSource

abbrev Seq := Nat

abbrev IssuerIdx := UInt8

structure Record where
  seq : Seq
  emitted_at_ms : Int
  issuer : IssuerIdx
  flags : UInt8
  payload : Bytes
  deriving DecidableEq

/-- Why content is missing. -/
inductive GapCause where
  | BroadcastLagged (count : Nat)
  | SpoolEvicted (from_seq to_seq : Seq)
  | SpoolTornTail (from_seq to_seq : Seq)
  | PublishWindowExpired (from_seq to_seq : Seq)
  deriving DecidableEq

end Ambush.Bridge

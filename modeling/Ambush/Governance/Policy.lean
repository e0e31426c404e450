import Ambush.Governance.State
/-!
# The governance policy

The methods of `GovernancePolicy`. A method returns the policy it leaves and its answer;
`none` is a round that has not returned (see `drive_round`). `saves` says whether the
write of the file succeeds, `decode` is `serde_json::from_value` for a lease, and the
clock a method reads for itself is an argument.
-/
open Lib

namespace Ambush.Governance

open Consensus Policy

def MAX_RECONCILIATION_REPORTS : Nat := 16

def is_destructive_action : ResponseAction → Bool
  | .BlockEgress .. | .IsolateHost .. | .RevokeCredential .. | .SinkholeDns .. | .TerminateUserSession ..
  | .InjectFirewallRule .. | .QuarantineFile .. | .KillProcess .. | .SuspendProcess .. | .DisableUserAccount ..
  | .ForcePasswordReset .. | .RemoveScheduledTask .. => true
  | .TriggerEdrScan .. | .DeployDecoy .. | .Escalate .. => false

def destructive_action_kinds : List String :=
  ["block_egress", "isolate_host", "revoke_credential", "sinkhole_dns", "terminate_user_session",
    "inject_firewall_rule", "quarantine_file", "kill_process", "suspend_process", "disable_user_account",
    "force_password_reset", "remove_scheduled_task"]

def partition_transition_reason : PartitionState → String
  | .Healthy => "quorum restored and no unhealthy agents remain"
  | .Degraded => "quorum intact but unhealthy agents remain"
  | .Partitioned => "quorum lost across admitted governors"
  | .Healing => "quorum restored; reconciling partition-era actions"

/-! ## Rounds and leases -/

section Rounds
variable (c : Crypto) {T : ConsensusTransport} (fuel : Nat)

def run_governance_round (state : GovernanceState) (transport : T.State) (proposal : ConsensusProposal)
    (decision : GovernanceReceiptDecision) (issued_at_ms : Int) :
    Option (GovernanceState × T.State × Except ConsensusError ConsensusGovernanceReceipt) :=
  match state.local_governor with
  | none =>
    some (state, transport, .error (.InvalidCommittee "governance policy holds no local governor signing key"))
  | some localKey =>
    match state.committee c with
    | .error x => some (state, transport, .error x)
    | .ok committee =>
      match ConsensusNode.new_with_signing_key localKey.consensus_agent_id localKey.signing_key committee {}
          state.previous_commit_hash issued_at_ms with
      | .error x => some (state, transport, .error x)
      | .ok node =>
        match drive_round c T fuel node transport proposal issued_at_ms with
        | none => none
        | some (transport, .error x) => some (state, transport, .error x)
        | some (transport, .ok commit) =>
          let receipt := ConsensusGovernanceReceipt.issue c commit state.previous_commit_hash committee decision
            localKey.consensus_agent_id localKey.signing_key issued_at_ms
          some ({ state with
            previous_commit_hash := commit.commit_hash
            receipt_counter := satAdd state.receipt_counter 1 }, transport, .ok receipt)

def build_governance_proposal (receipt_counter : Nat) (action : ResponseAction) (decision : GovernanceReceiptDecision)
    (unhealthy_agents : List AgentHealthEntry) (previous_commit_hash : String) : ConsensusProposal :=
  let payload : Value := .object [("action", action.serialize), ("decision", .string decision.name),
    ("previous_commit_hash", .string previous_commit_hash), ("receipt_counter", .integer receipt_counter),
    ("unhealthy_agents", .array (unhealthy_agents.map (·.serialize)))]
  ⟨c.digest payload, payload⟩

def issue_governance_receipt (state : GovernanceState) (transport : T.State) (action : ResponseAction)
    (decision : GovernanceReceiptDecision) (issued_at_ms : Int) :
    Option (GovernanceState × T.State × Except ConsensusError ConsensusGovernanceReceipt) :=
  run_governance_round c fuel state transport
    (build_governance_proposal c state.receipt_counter action decision state.unhealthy_agents
      state.previous_commit_hash) decision issued_at_ms

def issue_contingency_lease (state : GovernanceState) (transport : T.State) (action_kind : String)
    (scope : Option String) (blast_radius_cap : Nat) (ttl_ms issued_at_ms : Int) :
    Option (GovernanceState × T.State × Option ContingencyLease) :=
  if state.local_governor.isNone || blast_radius_cap = 0 || ttl_ms ≤ 0 then some (state, transport, none)
  else
    let expires_at_ms := satAddI issued_at_ms ttl_ms
    let lease_id := contingency_lease_id c action_kind scope blast_radius_cap issued_at_ms expires_at_ms
    let proposal := build_contingency_lease_proposal c lease_id action_kind scope blast_radius_cap ttl_ms
      issued_at_ms expires_at_ms
    match run_governance_round c fuel state transport proposal .Approve issued_at_ms with
    | none => none
    | some (state, transport, .error _) => some (state, transport, none)
    | some (state, transport, .ok governance_receipt) =>
      some (state, transport, some {
        schema_version := CONTINGENCY_LEASE_SCHEMA_VERSION
        lease_id, action_kind, scope, blast_radius_cap
        max_duration_ms := ttl_ms
        issued_at_ms, expires_at_ms
        redeemed_scopes := []
        governance_receipt })

/-- A lease of this kind for any scope, unexpired and with budget left. -/
def already_active (state : GovernanceState) (action_kind : String) (now_ms : Int) : Bool :=
  state.active_contingency_leases.any (fun lease => lease.action_kind == action_kind && lease.scope.isNone &&
    now_ms < lease.expires_at_ms && lease.redeemed_scopes.length < lease.blast_radius_cap)

/-- The source's loop over `destructive_action_kinds`. -/
def ensure_contingency_leases_locked (config : GovernancePolicyConfig) (now_ms : Int) :
    List String → GovernanceState → T.State → Option (GovernanceState × T.State)
  | [], state, transport => some (state, transport)
  | action_kind :: kinds, state, transport =>
    if already_active state action_kind now_ms then
      ensure_contingency_leases_locked config now_ms kinds state transport
    else
      match issue_contingency_lease c fuel state transport action_kind none config.contingency_blast_radius_cap
          config.contingency_lease_ttl_ms now_ms with
      | none => none
      | some (state, transport, none) => ensure_contingency_leases_locked config now_ms kinds state transport
      | some (state, transport, some lease) =>
        ensure_contingency_leases_locked config now_ms kinds
          { state with active_contingency_leases := state.active_contingency_leases ++ [lease] } transport

end Rounds

def prune_expired_contingency_leases (state : GovernanceState) (now_ms : Int) : GovernanceState :=
  { state with
    active_contingency_leases := state.active_contingency_leases.filter (now_ms < ·.expires_at_ms) }

def preview_matching_contingency_lease (state : GovernanceState) (action : ResponseAction) (now_ms : Int) :
    Option ContingencyLease :=
  state.active_contingency_leases.find? (·.can_redeem action now_ms)

/-! ## Partition records -/

def partition_action_record (request : ActionRequest) (authorized : Bool) (reason : String) (lease_id : Option String)
    (now_ms : Int) : PartitionActionRecord := {
  recorded_at_ms := now_ms
  hunt_id := request.hunt_id
  requested_by := request.requested_by
  action_kind := request.action.kind
  scope := scope_for_response_action request.action
  authorized, reason, lease_id }

def record_partition_activity_locked (state : GovernanceState) (request : ActionRequest) (authorized : Bool)
    (reason : String) (lease_id : Option String) (now_ms : Int) : GovernanceState :=
  { state with
    partition_activity :=
      state.partition_activity ++ [partition_action_record request authorized reason lease_id now_ms] }

def reconcile_partition_activity_locked (state : GovernanceState) (healed_at_ms : Int) :
    GovernanceState × PartitionReconciliationReport :=
  let report : PartitionReconciliationReport := {
    report_id := "partition-reconciliation:" ++ toString healed_at_ms ++ ":" ++ toString state.receipt_counter
    created_at_ms := healed_at_ms
    partition_started_at_ms := state.partition_started_at_ms
    healed_at_ms
    authorized_actions := state.partition_activity.filter (·.authorized)
    unauthorized_actions := state.partition_activity.filter (!·.authorized) }
  let reports := state.reconciliation_reports ++ [report]
  ({ state with
    partition_activity := []
    reconciliation_reports := reports.drop (reports.length - MAX_RECONCILIATION_REPORTS) }, report)

/-! ## Observing health -/

/-- What `observe_health` counts. -/
structure HealthCount where
  total_governors : Nat
  healthy_governors : Nat
  quorum_threshold : Nat

def total_governors (state : GovernanceState) : Nat := max state.display_governors.length state.governor_count

/-- An entry counts against the quorum when it is unhealthy and its id is a registered governor's. -/
def count_health (state : GovernanceState) (entries : List AgentHealthEntry) : HealthCount :=
  let total := total_governors state
  let unhealthy_governors :=
    entries.countP (fun entry => entry.health ≠ .Healthy ∧ entry.id ∈ state.display_governors.map (·.1))
  ⟨total, total - unhealthy_governors, governance_quorum_threshold total (recommended_max_faulty total)⟩

def base_state (count : HealthCount) (unhealthy_agents : List AgentHealthEntry) : PartitionState :=
  if count.healthy_governors < count.quorum_threshold then .Partitioned
  else if unhealthy_agents.isEmpty then .Healthy
  else .Degraded

/-- The state with the counts noted, before any transition. -/
def note_health (state : GovernanceState) (governing_agent_id : AgentId) (entries : List AgentHealthEntry) :
    GovernanceState :=
  let count := count_health state entries
  { state with
    governing_agent_id := some governing_agent_id
    unhealthy_agents := entries.filter (·.health ≠ .Healthy)
    last_healthy_governors := count.healthy_governors
    last_quorum_threshold := count.quorum_threshold }

/-- Leaving a partition reconciles its records and passes through `Healing`. -/
def next_state (state : GovernanceState) (base : PartitionState) (governing_agent_id : AgentId) (observed_at_ms : Int) :
    GovernanceState × PartitionState :=
  match state.partition_state, base with
  | .Partitioned, .Healthy | .Partitioned, .Degraded =>
    let reconciled := reconcile_partition_activity_locked state observed_at_ms
    ({ reconciled.1 with
      pending_events := reconciled.1.pending_events ++
        [.PartitionReconciliation observed_at_ms governing_agent_id reconciled.2] }, .Healing)
  | _, settled => (state, settled)

def enter_state (state : GovernanceState) (next : PartitionState) (count : HealthCount) (governing_agent_id : AgentId)
    (observed_at_ms : Int) : GovernanceState :=
  if state.partition_state = next then state
  else { state with
    partition_started_at_ms :=
      match next with
      | .Partitioned => some observed_at_ms
      | .Healthy => none
      | _ => state.partition_started_at_ms
    last_transition_at_ms := some observed_at_ms
    pending_events := state.pending_events ++ [.PartitionStateTransition observed_at_ms governing_agent_id
      state.partition_state next count.healthy_governors count.total_governors count.quorum_threshold
      (partition_transition_reason next)]
    partition_state := next }

/-- The state after the counts, the transition and the pruning. -/
def observe (state : GovernanceState) (governing_agent_id : AgentId) (entries : List AgentHealthEntry)
    (observed_at_ms : Int) : GovernanceState :=
  let count := count_health state entries
  let noted := note_health state governing_agent_id entries
  let next := next_state noted (base_state count noted.unhealthy_agents) governing_agent_id observed_at_ms
  prune_expired_contingency_leases (enter_state next.1 next.2 count governing_agent_id observed_at_ms) observed_at_ms

/-! ## The methods -/

namespace GovernancePolicy

variable {T : ConsensusTransport}

def persist_locked (p : GovernancePolicy T) (saves : Bool) (state : GovernanceState) : GovernancePolicy T :=
  { p with state, persistence := p.persistence.map (·.save saves state) }

def register_governor (c : Crypto) (p : GovernancePolicy T) (saves : Bool) (governing_agent_id : AgentId)
    (signing_key : SigningKey) : GovernancePolicy T × Except GovernanceKeyError Unit :=
  let offered := LocalGovernorKey.new c signing_key
  let install :=
    (p.persist_locked saves { p.state with
      governing_agent_id := some (p.state.governing_agent_id.getD governing_agent_id)
      display_governors := insert_entry governing_agent_id offered.consensus_agent_id p.state.display_governors
      peer_governors := p.state.peer_governors.filter (· ≠ offered.consensus_agent_id)
      local_governor := some offered }, Except.ok ())
  match p.state.local_governor with
  | some existing =>
    if c.verifying_key existing.signing_key ≠ c.verifying_key offered.signing_key then
      (p, .error (.SecondSigningKey existing.consensus_agent_id offered.consensus_agent_id))
    else install
  | none => install

def register_peer_governor (p : GovernancePolicy T) (saves : Bool) (peer : VerifyingKey) : GovernancePolicy T :=
  let consensus_agent_id := AgentId.from_verifying_key peer
  if p.state.local_governor.map (·.consensus_agent_id) = some consensus_agent_id then p
  else p.persist_locked saves { p.state with
    peer_governors := insert_element consensus_agent_id p.state.peer_governors }

def observe_health (c : Crypto) (fuel : Nat) (p : GovernancePolicy T) (saves : Bool) (governing_agent_id : AgentId)
    (entries : List AgentHealthEntry) (observed_at_ms : Int) : Option (GovernancePolicy T) :=
  let state := observe p.state governing_agent_id entries observed_at_ms
  if state.partition_state = .Healthy then
    match ensure_contingency_leases_locked c fuel p.config observed_at_ms destructive_action_kinds state p.transport with
    | none => none
    | some (state, transport) => some ({ p with transport }.persist_locked saves state)
  else some (p.persist_locked saves state)

/-- `can_act` reads the clock twice: for the lease preview, and for the receipt. -/
def can_act (c : Crypto) (fuel : Nat) (p : GovernancePolicy T) (action : ResponseAction) (now_ms issued_at_ms : Int) :
    Option (GovernancePolicy T × GovernanceDecision) :=
  let state := p.state
  if !is_destructive_action action then some (p, .Allow none none)
  else if state.local_governor.isNone then
    some (p, .Veto (state.governing_agent_id.getD (AgentId.new "tom" "unconfigured"))
      "blocked destructive action because no governor signing key is registered" none)
  else if state.partition_state = .Partitioned then
    match preview_matching_contingency_lease state action now_ms with
    | some lease => some (p, .Allow (some lease.governance_receipt) (some lease))
    | none => some (p, .Veto (state.governing_agent_id.getD (AgentId.new "tom" "partition"))
        "blocked destructive action during partition without active contingency lease" none)
  else
    let unhealthy_agents := ", ".intercalate (state.unhealthy_agents.map (fun e => e.id ++ ":" ++ e.health.debug))
    let decision := if state.unhealthy_agents.isEmpty then GovernanceReceiptDecision.Approve else .Veto
    match issue_governance_receipt c fuel state p.transport action decision issued_at_ms with
    | none => none
    | some (state, transport, .error error) =>
      some ({ p with state, transport }, .Veto (state.governing_agent_id.getD (AgentId.new "tom" "unconfigured"))
        ("blocked destructive action because the governance round produced no receipt: " ++ error.text) none)
    | some (state, transport, .ok receipt) =>
      some ({ p with state, transport },
        match decision with
        | .Veto => .Veto (state.governing_agent_id.getD receipt.payload.issued_by)
            ("blocked destructive action while swarm unhealthy: " ++ unhealthy_agents) (some receipt)
        | .Approve => .Allow (some receipt) none)

/-- A refusal is recorded, saved and returned. -/
def refuse (p : GovernancePolicy T) (saves : Bool) (request : ActionRequest) (reason : String)
    (lease_id : Option String) (now_ms : Int) : GovernancePolicy T × Except String (Option ContingencyLease) :=
  (p.persist_locked saves (record_partition_activity_locked p.state request false reason lease_id now_ms),
    .error reason)

/-- The lease that evidence carries, if it is one that the policy holds; otherwise why
not, with the lease id a refusal is recorded under. -/
def presented_lease (c : Crypto) (decode : Value → Except String ContingencyLease) (state : GovernanceState)
    (evidence : Value) : Except (String × Option String) (Nat × ContingencyLease) :=
  match evidence.get "contingency_lease" with
  | none => .error ("missing contingency lease during partition", none)
  | some value =>
    match decode value with
    | .error error => .error ("invalid contingency lease: " ++ error, none)
    | .ok lease =>
      match lease.verify c with
      | .error reason => .error (reason, some lease.lease_id)
      | .ok () =>
        match state.active_contingency_leases.findIdx? (·.lease_id == lease.lease_id) with
        | none => .error ("unknown contingency lease `" ++ lease.lease_id ++ "`", none)
        | some index =>
          if state.active_contingency_leases[index]? ≠ some lease then
            .error ("contingency lease `" ++ lease.lease_id ++ "` did not match persisted lease", none)
          else .ok (index, lease)

def authorize_partition_request (c : Crypto) (decode : Value → Except String ContingencyLease) (p : GovernancePolicy T)
    (saves : Bool) (request : ActionRequest) (now_ms : Int) :
    GovernancePolicy T × Except String (Option ContingencyLease) :=
  if !is_destructive_action request.action then (p, .ok none)
  else if p.state.partition_state ≠ .Partitioned then (p, .ok none)
  else
    match presented_lease c decode p.state request.evidence with
    | .error (reason, lease_id) => p.refuse saves request reason lease_id now_ms
    | .ok (index, lease) =>
      match lease.redeem request.action now_ms with
      | .error reason => p.refuse saves request reason (some lease.lease_id) now_ms
      | .ok redeemed =>
        let state := { p.state with active_contingency_leases := p.state.active_contingency_leases.set index redeemed }
        (p.persist_locked saves (record_partition_activity_locked state request true "authorized by contingency lease"
          (some redeemed.lease_id) now_ms), .ok (some redeemed))

/-- The advanced head stays in memory: nothing is saved. -/
def attest_release (c : Crypto) (fuel : Nat) (p : GovernancePolicy T) (subject : Value) (now_ms : Int) :
    Option (GovernancePolicy T × Option ConsensusGovernanceReceipt) :=
  if p.state.local_governor.isNone then some (p, none)
  else
    match run_governance_round c fuel p.state p.transport ⟨c.digest subject, subject⟩ .Approve now_ms with
    | none => none
    | some (state, transport, .error _) => some ({ p with state, transport }, none)
    | some (state, transport, .ok receipt) => some ({ p with state, transport }, some receipt)

def note_partition_veto (p : GovernancePolicy T) (saves : Bool) (request : ActionRequest) (reason : String)
    (now_ms : Int) : GovernancePolicy T :=
  if p.state.partition_state ≠ .Partitioned then p
  else
    let lease_id := ((request.evidence.get "contingency_lease").bind (·.get "lease_id")).bind Value.as_str
    p.persist_locked saves (record_partition_activity_locked p.state request false reason lease_id now_ms)

end GovernancePolicy

/-! ## Calls as data -/

/-- A call of a policy. `reload` drops it and builds a new one over the same file, with
the transport that one is given. -/
inductive Op (T : ConsensusTransport) where
  | register_governor (governing_agent_id : AgentId) (signing_key : SigningKey)
  | register_peer_governor (peer : VerifyingKey)
  | observe_health (governing_agent_id : AgentId) (entries : List AgentHealthEntry) (observed_at_ms : Int)
  | can_act (action : ResponseAction) (now_ms issued_at_ms : Int)
  | authorize_partition_request (request : ActionRequest) (now_ms : Int)
  | attest_release (subject : Value) (now_ms : Int)
  | note_partition_veto (request : ActionRequest) (reason : String) (now_ms : Int)
  | reload (config : GovernancePolicyConfig) (transport : T.State)

inductive Reply where
  | done
  | registered (result : Except GovernanceKeyError Unit)
  | decided (decision : GovernanceDecision)
  | authorized (result : Except String (Option ContingencyLease))
  | attested (receipt : Option ConsensusGovernanceReceipt)

def perform {T : ConsensusTransport} (c : Crypto) (fuel : Nat) (decode : Value → Except String ContingencyLease)
    (p : GovernancePolicy T) (saves : Bool) : Op T → Option (GovernancePolicy T × Reply)
  | .register_governor governing_agent_id signing_key =>
    let out := p.register_governor c saves governing_agent_id signing_key
    some (out.1, .registered out.2)
  | .register_peer_governor peer => some (p.register_peer_governor saves peer, .done)
  | .observe_health governing_agent_id entries observed_at_ms =>
    (p.observe_health c fuel saves governing_agent_id entries observed_at_ms).map (·, .done)
  | .can_act action now_ms issued_at_ms => (p.can_act c fuel action now_ms issued_at_ms).map fun out => (out.1, .decided out.2)
  | .authorize_partition_request request now_ms =>
    let out := p.authorize_partition_request c decode saves request now_ms
    some (out.1, .authorized out.2)
  | .attest_release subject now_ms => (p.attest_release c fuel subject now_ms).map fun out => (out.1, .attested out.2)
  | .note_partition_veto request reason now_ms => some (p.note_partition_veto saves request reason now_ms, .done)
  | .reload config transport => p.persistence.map fun file => (.with_persistence config file transport, .done)

end Ambush.Governance

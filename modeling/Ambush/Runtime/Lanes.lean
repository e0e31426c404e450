import Ambush.Response.Containment
/-!
# The two execution lanes

`authorize_and_execute` returns early at each refusal; `audit_authorize_and_execute` makes
the same decision in one expression and puts every outcome into an audit trail. The policy
gate, the guards, the dispatch journal and the adapter are whatever they are: each has a
state of its own and answers from it.
-/
open Lib

namespace Ambush.Runtime
open Policy (ActionRequest ApprovalError)
open Ambush.Response (ContainmentLease ContainmentLeaseStore)

/-! ## Receipts and failures as JSON -/

def ExecutionMode.name : ExecutionMode → String
  | .DryRun => "dry_run"
  | .Enforced => "enforced"

def ResponseStatus.name : ResponseStatus → String
  | .Simulated => "simulated"
  | .Executed => "executed"
  | .Timeout => "timeout"
  | .Failed => "failed"

def PolicyVerdict.name : PolicyVerdict → String
  | .Deny => "deny"
  | .Allow => "allow"
  | .RequireHuman => "require_human"

/-- A field that is left out when there is nothing in it. -/
def present (key : String) (value : Option Value) : List (String × Value) := (value.map (key, ·)).toList

def ResponsePolicyAudit.serialize (a : ResponsePolicyAudit) : Value :=
  .object [("reason", .string a.reason), ("rule_name", .string a.rule_name), ("verdict", .string a.verdict.name)]

def ResponseGovernanceAudit.serialize (a : ResponseGovernanceAudit) : Value :=
  .object ([("governing_agent_id", .string a.governing_agent_id), ("reason", .string a.reason)] ++ present "receipt" a.receipt)

def OperatorApproval.serialize (a : OperatorApproval) : Value :=
  .object ([("decided_at_ms", .integer a.decided_at_ms), ("hold_id", .string a.hold_id)] ++
    present "nostr_intent_event_id" (a.nostr_intent_event_id.map .string) ++ [("operator_id", .string a.operator_id)] ++
    present "rationale" (a.rationale.map .string) ++ present "rationale_sha256" (a.rationale_sha256.map .string) ++
    [("signature", a.signature.serialize), ("voter_id", .string a.voter_id)])

def ResponseReceiptAudit.serialize (a : ResponseReceiptAudit) : Value :=
  .object (present "approved_by" (a.approved_by.map OperatorApproval.serialize) ++
    present "governance" (a.governance.map ResponseGovernanceAudit.serialize) ++
    present "policy" (a.policy.map ResponsePolicyAudit.serialize))

def ResponseReceipt.fields (r : ResponseReceipt) : List (String × Value) :=
  [("action", .string r.action), ("audit", r.audit.serialize), ("details", r.details), ("mode", .string r.mode.name),
    ("receipt_id", .string r.receipt_id), ("status", .string r.status.name), ("summary", .string r.summary)]

def ResponseFailure.fields (f : ResponseFailure) : List (String × Value) :=
  [("action", .string f.action), ("details", f.details), ("message", .string f.message), ("mode", .string f.mode.name),
    ("receipt_id", .string f.receipt_id)]

def serialize_result : ResponseResult → Value
  | .ok receipt => .object [("Ok", .object receipt.fields)]
  | .error error => .object [("Err", .object [("failure", .object error.failure.fields)])]

namespace ResponseReceipt

def with_policy_audit (r : ResponseReceipt) (verdict : PolicyVerdict) (rule_name reason : String) : ResponseReceipt :=
  { r with audit.policy := some ⟨verdict, rule_name, reason⟩ }

def with_operator_approval (r : ResponseReceipt) (approval : OperatorApproval) : ResponseReceipt :=
  { r with audit.approved_by := some approval }

def with_governance_audit (r : ResponseReceipt) (governing_agent_id : AgentId) (reason : String) (receipt : Option Value) :
    ResponseReceipt :=
  { r with audit.governance := some ⟨governing_agent_id, reason, receipt⟩ }

def into_failure (r : ResponseReceipt) : ResponseFailure where
  receipt_id := r.receipt_id
  action := r.action
  mode := r.mode
  message := r.summary
  details := .object [("audit", r.audit.serialize), ("details", r.details), ("status", .string r.status.name)]

end ResponseReceipt

def ResponseStatus.indicates_success (s : ResponseStatus) : Bool := s = .Simulated || s = .Executed

/-! ## What the runtime is made of -/

inductive RuntimeMode where
  | DetectOnly | LiveResponse
  deriving DecidableEq

structure ApprovalContext where
  live_mode : Bool
  receipt_chain : List String
  correlation_id : Option String
  now_ms : Int

structure PolicyDecision where
  verdict : PolicyVerdict
  rule_name : String
  reason : String

structure ApprovalGate (G : Type) where
  evaluate : G → ActionRequest → ApprovalContext → G × Except ApprovalError PolicyDecision
  issue_lease : G → ActionRequest → ApprovalContext → G × Except ApprovalError CapabilityLease

structure GuardResult where
  allowed : Bool
  guard : String
  message : String

/-- The guards see the action, the agent, the hunt and the severity of a request. -/
structure GuardPipeline (Q : Type) where
  evaluate : Q → ActionRequest → Q × GuardResult

structure Journal (J : Type) where
  reserve : J → ActionRequest → CapabilityLease → Int → J × Except DispatchJournalError String
  complete : J → String → ResponseResult → J × Except DispatchJournalError Unit
  /-- The `Display` text of an error. -/
  error_text : DispatchJournalError → String

structure ResponseExecutor (A : Type) where
  execute : A → ActionRequest → CapabilityLease → ExecutionMode → A × ResponseResult

/-- A governance receipt in the evidence of a request that parses and verifies. -/
structure VerifiedReceipt where
  issued_by : AgentId
  receipt_id : String
  value : Value

/-- `verified_governance_receipt` reads the receipt with `serde_json` and checks its signature; `build_rehearsal_preview` gives the
scope of the blast radius, or the text of why it cannot derive the inverse plan. -/
structure SwarmRuntime (G Q J A : Type) where
  policy : ApprovalGate G
  guard_pipeline : Option (GuardPipeline Q)
  containment_ttl_ms : Option Int
  dispatch_journal : Option (Journal J)
  response : ResponseExecutor A
  mode : RuntimeMode
  verified_governance_receipt : ActionRequest → Option VerifiedReceipt
  build_rehearsal_preview : ActionRequest → String → Int → Except String String

structure AdapterCall where
  request : ActionRequest
  lease : CapabilityLease
  mode : ExecutionMode
  deriving DecidableEq

/-- The states of the parts; `calls` are the calls of the adapter so far, and `store_error` is what is wrong with the file of the lease
store, if anything is. -/
structure RuntimeState (G Q J A : Type) where
  gate : G
  guards : Q
  journal : J
  adapter : A
  leases : ContainmentLeaseStore
  store_error : Option String
  calls : List AdapterCall

inductive RuntimeError where
  | Approval (error : ApprovalError)
  | GuardRejected (guard_name reason : String)
  | Response (error : ResponseError)
  | ContainmentRefused (action reason : String)
  | ContainmentLeaseNotRecorded (action receipt_id reason : String)

def ApprovalError.text : ApprovalError → String
  | .Denied reason => "policy denied action: " ++ reason
  | .InvalidRequest text => "invalid request: " ++ text

/-- The `Display` text. -/
def RuntimeError.text : RuntimeError → String
  | .Approval error => ApprovalError.text error
  | .GuardRejected guard_name reason => s!"guard rejected: {guard_name}: {reason}"
  | .Response error => error.failure.message
  | .ContainmentRefused action reason => s!"containment `{action}` refused: {reason}"
  | .ContainmentLeaseNotRecorded action receipt_id reason =>
    s!"containment `{action}` EXECUTED (receipt `{receipt_id}`) but its lease could not be recorded: {reason}. " ++
      "The containment is now unbounded and must be released manually."

def is_containment_action : ResponseAction → Bool
  | .QuarantineFile .. | .SuspendProcess .. | .IsolateHost .. | .TerminateUserSession .. => true
  | _ => false

def has_prior_reservation : DispatchJournalError → Bool
  | .AlreadyReserved _ | .AlreadyCompleted _ => true
  | _ => false

def ensure_active_lease (lease : CapabilityLease) (now_ms : Int) : Except ApprovalError Unit :=
  if lease.expires_at_ms ≤ now_ms then .error (.Denied "capability lease expired") else .ok ()

/-- What `prepare_containment` keeps for the lease. -/
structure PreparedContainment where
  ttl_ms : Int
  scope_value : String
  issued_at_ms : Int

structure DispatchOutcome where
  result : ResponseResult
  attempted : Bool
  completion_error : Option ResponseError

def refused (request : ActionRequest) (mode : ExecutionMode) (reason : String) (prior_reservation : Bool) : DispatchOutcome where
  result := .error ⟨{
    receipt_id := s!"dispatch-refused:{request.hunt_id}:{request.action.kind}"
    action := request.action.kind
    mode := mode
    message := s!"dispatch refused: {reason}"
    details := .object [("prior_reservation", .bool prior_reservation), ("reason", .string reason),
      ("response_attempted", .bool false), ("retry_permitted", .bool false), ("status", .string "dispatch_refused")] }⟩
  attempted := false
  completion_error := none

namespace SwarmRuntime
variable {G Q J A D : Type} (rt : SwarmRuntime G Q J A)

def execution_mode : ExecutionMode :=
  match rt.mode with
  | .DetectOnly => .DryRun
  | .LiveResponse => .Enforced

/-! ## The parts that both lanes use -/

def evaluate_guard_rejection (s : RuntimeState G Q J A) (request : ActionRequest) :
    RuntimeState G Q J A × Option (String × String) :=
  match rt.guard_pipeline with
  | none => (s, none)
  | some pipeline =>
    let (guards, result) := pipeline.evaluate s.guards request
    ({ s with guards := guards }, if result.allowed then none else some (result.guard, result.message))

def prepare_containment (request : ActionRequest) (context : ApprovalContext) (execution_mode : ExecutionMode) :
    Except RuntimeError (Option PreparedContainment) :=
  if !is_containment_action request.action then .ok none
  else if execution_mode = .DryRun then .ok none
  else
    match rt.containment_ttl_ms with
    | none => .error (.ContainmentRefused request.action.kind
        ("no containment lease store is configured, so this containment could not be bounded or undone; attach one with " ++
          "`SwarmRuntime::with_containment_store`"))
    | some ttl_ms =>
      match rt.build_rehearsal_preview request s!"containment-lease:{request.hunt_id}" context.now_ms with
      | .error text => .error (.ContainmentRefused request.action.kind s!"its inverse plan could not be derived: {text}")
      | .ok scope_value => .ok (some ⟨ttl_ms, scope_value, context.now_ms⟩)

def record_containment_lease (s : RuntimeState G Q J A) (prepared : PreparedContainment) (request : ActionRequest)
    (receipt : ResponseReceipt) : RuntimeState G Q J A × Except RuntimeError Unit :=
  let lease_id := s!"containment:{request.hunt_id}:{request.action.kind}:{receipt.receipt_id}"
  let governance_receipt_id := (rt.verified_governance_receipt request).map (·.receipt_id)
  let not_recorded := RuntimeError.ContainmentLeaseNotRecorded request.action.kind receipt.receipt_id
  match ContainmentLease.opened lease_id request.action receipt.receipt_id governance_receipt_id prepared.scope_value
      prepared.issued_at_ms prepared.ttl_ms with
  | .error text => (s, .error (not_recorded text))
  | .ok lease =>
    match s.leases.open_lease lease s.store_error with
    | .error text => (s, .error (not_recorded text))
    | .ok leases => ({ s with leases := leases }, .ok ())

def decorate_receipt_with_governance (receipt : ResponseReceipt) (request : ActionRequest) (reason : String) : ResponseReceipt :=
  match rt.verified_governance_receipt request with
  | none => receipt
  | some governance => receipt.with_governance_audit governance.issued_by reason (some governance.value)

/-- The adapter is called, and the call is noted. -/
def execute (s : RuntimeState G Q J A) (request : ActionRequest) (lease : CapabilityLease) (mode : ExecutionMode) :
    RuntimeState G Q J A × ResponseResult :=
  let (adapter, result) := rt.response.execute s.adapter request lease mode
  ({ s with adapter := adapter, calls := s.calls ++ [⟨request, lease, mode⟩] }, result)

def dispatch_once (s : RuntimeState G Q J A) (request : ActionRequest) (lease : CapabilityLease) (mode : ExecutionMode) (now_ms : Int) :
    RuntimeState G Q J A × DispatchOutcome :=
  if mode = .DryRun then
    let (s, result) := rt.execute s request lease mode
    (s, ⟨result, true, none⟩)
  else
    match rt.dispatch_journal with
    | none => (s, refused request mode "durable dispatch journal is not configured" false)
    | some journal =>
      match journal.reserve s.journal request lease now_ms with
      | (state, .error error) =>
        ({ s with journal := state }, refused request mode (journal.error_text error) (has_prior_reservation error))
      | (state, .ok dispatch_id) =>
        let (s, result) := rt.execute { s with journal := state } request lease mode
        match journal.complete s.journal dispatch_id result with
        | (state, .ok ()) => ({ s with journal := state }, ⟨result, true, none⟩)
        | (state, .error error) =>
          ({ s with journal := state }, {
            result := result
            attempted := true
            completion_error := some ⟨{
              receipt_id := s!"dispatch-unrecorded:{dispatch_id}"
              action := request.action.kind
              mode := mode
              message := s!"response attempted but completion was not durably recorded: {journal.error_text error}"
              details := .object [("adapter_result", serialize_result result), ("dispatch_intent_id", .string dispatch_id),
                ("response_attempted", .bool true), ("retry_permitted", .bool false), ("status", .string "dispatch_outcome_unknown")] }⟩ })

/-! ## Early returns -/

def CONSENSUS_APPROVED : String := "consensus approved response action"

/-- The end of `authorize_and_execute`, after the dispatch. -/
def conclude (s : RuntimeState G Q J A) (decision : PolicyDecision) (prepared_containment : Option PreparedContainment)
    (request : ActionRequest) (dispatch : DispatchOutcome) : RuntimeState G Q J A × Except RuntimeError ResponseReceipt :=
  match dispatch.result with
  | .error error => (s, .error (.Response (dispatch.completion_error.getD error)))
  | .ok receipt =>
    let receipt := receipt.with_policy_audit decision.verdict decision.rule_name decision.reason
    let receipt := rt.decorate_receipt_with_governance receipt request CONSENSUS_APPROVED
    if !receipt.status.indicates_success then
      (s, .error (.Response (dispatch.completion_error.getD ⟨receipt.into_failure⟩)))
    else
      let (s, recorded) :=
        match prepared_containment with
        | some prepared => rt.record_containment_lease s prepared request receipt
        | none => (s, .ok ())
      match recorded with
      | .error error => (s, .error error)
      | .ok () =>
        match dispatch.completion_error with
        | some error => (s, .error (.Response error))
        | none => (s, .ok receipt)

def authorize_and_execute (s : RuntimeState G Q J A) (request : ActionRequest) (context : ApprovalContext) :
    RuntimeState G Q J A × Except RuntimeError ResponseReceipt :=
  match rt.policy.evaluate s.gate request context with
  | (gate, .error error) => ({ s with gate := gate }, .error (.Approval error))
  | (gate, .ok decision) =>
    let s := { s with gate := gate }
    if decision.verdict = .Deny then (s, .error (.Approval (.Denied decision.reason)))
    else if decision.verdict = .RequireHuman && rt.mode = .LiveResponse then
      (s, .error (.Approval (.Denied decision.reason)))
    else
      match rt.evaluate_guard_rejection s request with
      | (s, some (guard_name, reason)) => (s, .error (.GuardRejected guard_name reason))
      | (s, none) =>
        match rt.prepare_containment request context rt.execution_mode with
        | .error error => (s, .error error)
        | .ok prepared_containment =>
          match rt.policy.issue_lease s.gate request context with
          | (gate, .error error) => ({ s with gate := gate }, .error (.Approval error))
          | (gate, .ok lease) =>
            let s := { s with gate := gate }
            match ensure_active_lease lease context.now_ms with
            | .error error => (s, .error (.Approval error))
            | .ok () =>
              let (s, dispatch) := rt.dispatch_once s request lease rt.execution_mode context.now_ms
              rt.conclude s decision prepared_containment request dispatch

/-! ## Audit trails -/

inductive AuditResponseRecord where
  | Success (receipt : ResponseReceipt)
  | Failure (failure : ResponseFailure)
  | Skipped (reason : String)
  | GuardRejected (guard_name reason : String)

/-- A record, tagged by `kind`. -/
def AuditResponseRecord.serialize : AuditResponseRecord → Value
  | .Success receipt => .object (insertBy Prod.fst ("kind", .string "success") receipt.fields)
  | .Failure failure => .object (insertBy Prod.fst ("kind", .string "failure") failure.fields)
  | .Skipped reason => .object [("kind", .string "skipped"), ("reason", .string reason)]
  | .GuardRejected guard_name reason =>
    .object [("guard_name", .string guard_name), ("kind", .string "guard_rejected"), ("reason", .string reason)]

structure PolicyRecord where
  verdict : PolicyVerdict
  rule_name : String
  reason : String
  lease : Option CapabilityLease

/-- `D` is the detection finding that the trail is for. -/
structure AuditTrail (D : Type) where
  trail_id : String
  hunt_id : String
  related_receipt_ids : List String
  detection : D
  policy : PolicyRecord
  response : AuditResponseRecord
  created_at_ms : Int

/-- The report without its stage timings. -/
structure RuntimeExecutionReport (D : Type) where
  audit : AuditTrail D
  response_attempted : Bool
  response_succeeded : Bool

def with_approval (receipt : ResponseReceipt) : Option OperatorApproval → ResponseReceipt
  | some approval => receipt.with_operator_approval approval
  | none => receipt

/-- What the adapter's result becomes in the trail. -/
def audit_result (s : RuntimeState G Q J A) (decision : PolicyDecision) (approved_by : Option OperatorApproval)
    (prepared_containment : Option PreparedContainment) (request : ActionRequest) (result : ResponseResult) :
    RuntimeState G Q J A × AuditResponseRecord :=
  match result with
  | .error error => (s, .Failure error.failure)
  | .ok receipt =>
    if receipt.status.indicates_success then
      let receipt := with_approval (receipt.with_policy_audit decision.verdict decision.rule_name decision.reason) approved_by
      let receipt := rt.decorate_receipt_with_governance receipt request CONSENSUS_APPROVED
      match prepared_containment.map (fun prepared => rt.record_containment_lease s prepared request receipt) with
      | none => (s, .Success receipt)
      | some (s, .ok ()) => (s, .Success receipt)
      | some (s, .error error) =>
        (s, .Failure {
          receipt_id := receipt.receipt_id
          action := receipt.action
          mode := receipt.mode
          message := error.text
          details := .object [("containment_executed", .bool true), ("response_receipt", receipt.details),
            ("status", .string "containment_lease_not_recorded")] })
    else
      let receipt := with_approval (receipt.with_policy_audit decision.verdict decision.rule_name decision.reason) approved_by
      (s, .Failure (rt.decorate_receipt_with_governance receipt request CONSENSUS_APPROVED).into_failure)

/-- `details["runtime_response"] = response`, for details that are an object. -/
def set_runtime_response (response : AuditResponseRecord) : Value → Value
  | .object fields => .object (upsert "runtime_response" .null (fun _ => response.serialize) fields)
  | other => other

/-- A completion that was not recorded is a failure, with what there was of a response inside. -/
def audit_completion (response : AuditResponseRecord) : Option ResponseError → AuditResponseRecord
  | none => response
  | some error => .Failure { error.failure with details := set_runtime_response response error.failure.details }

/-- The failure of a lease that is expired when it is issued. -/
def lease_denied (decision : PolicyDecision) (request : ActionRequest) (context : ApprovalContext) (execution_mode : ExecutionMode)
    (lease : CapabilityLease) (reason : String) : ResponseFailure :=
  let receipt : ResponseReceipt := {
    receipt_id := s!"lease-denied:{request.hunt_id}:{request.action.kind}:{context.now_ms}"
    action := request.action.kind
    mode := execution_mode
    status := .Failed
    summary := reason
    details := .object [("evidence", request.evidence),
      ("lease", .object [("capability_id", .string lease.capability_id), ("expires_at_ms", .integer lease.expires_at_ms),
        ("scope", (lease.scope.map .string).getD .null)]),
      ("lineage", (request.evidence.get "lineage").getD .null), ("reason", .string reason),
      ("requested_by", .string request.requested_by), ("status", .string "lease_expired")]
    audit := {} }
  let receipt := receipt.with_policy_audit decision.verdict decision.rule_name decision.reason
  (rt.decorate_receipt_with_governance receipt request CONSENSUS_APPROVED).into_failure

/-- The decision of the audit lane: the lease, the response, and whether the adapter was called. -/
def audit_response (s : RuntimeState G Q J A) (decision : PolicyDecision) (request : ActionRequest) (context : ApprovalContext)
    (allow_human_approved_execution : Bool) (execution_mode : ExecutionMode) (approved_by : Option OperatorApproval) :
    RuntimeState G Q J A × Except RuntimeError (Option CapabilityLease × AuditResponseRecord × Bool) :=
  if decision.verdict = .Deny then (s, .ok (none, .Skipped decision.reason, false))
  else if decision.verdict = .RequireHuman && rt.mode = .LiveResponse && !allow_human_approved_execution then
    (s, .ok (none, .Skipped decision.reason, false))
  else
    let (s, guard_rejection) := rt.evaluate_guard_rejection s request
    let containment : Except RuntimeError (Option PreparedContainment) :=
      match guard_rejection with
      | some _ => .ok none
      | none => rt.prepare_containment request context execution_mode
    match guard_rejection, containment with
    | some (guard_name, reason), _ => (s, .ok (none, .GuardRejected guard_name reason, false))
    | none, .error error => (s, .ok (none, .Skipped error.text, false))
    | none, .ok prepared_containment =>
      match rt.policy.issue_lease s.gate request context with
      | (gate, .error error) => ({ s with gate := gate }, .error (.Approval error))
      | (gate, .ok lease) =>
        let s := { s with gate := gate }
        match ensure_active_lease lease context.now_ms with
        | .ok () =>
          let (s, dispatch) := rt.dispatch_once s request lease execution_mode context.now_ms
          let (s, response) := rt.audit_result s decision approved_by prepared_containment request dispatch.result
          (s, .ok (some lease, audit_completion response dispatch.completion_error, dispatch.attempted))
        | .error (.Denied reason) =>
          (s, .ok (some lease, .Failure (rt.lease_denied decision request context execution_mode lease reason), false))
        | .error error => (s, .error (.Approval error))

def AuditResponseRecord.is_success : AuditResponseRecord → Bool
  | .Success _ => true
  | _ => false

def audit_authorize_and_execute_instrumented_internal (s : RuntimeState G Q J A) (detection : D) (request : ActionRequest)
    (context : ApprovalContext) (allow_human_approved_execution : Bool) (execution_mode_override : Option ExecutionMode)
    (approved_by : Option OperatorApproval) : RuntimeState G Q J A × Except RuntimeError (RuntimeExecutionReport D) :=
  match rt.policy.evaluate s.gate request context with
  | (gate, .error error) => ({ s with gate := gate }, .error (.Approval error))
  | (gate, .ok decision) =>
    match rt.audit_response { s with gate := gate } decision request context allow_human_approved_execution
        (execution_mode_override.getD rt.execution_mode) approved_by with
    | (s, .error error) => (s, .error error)
    | (s, .ok (lease, response, response_attempted)) =>
      (s, .ok {
        audit := {
          trail_id := s!"trail:{request.hunt_id}:{context.now_ms}"
          hunt_id := request.hunt_id
          related_receipt_ids := context.receipt_chain
          detection := detection
          policy := ⟨decision.verdict, decision.rule_name, decision.reason, lease⟩
          response := response
          created_at_ms := context.now_ms }
        response_attempted := response_attempted
        response_succeeded := AuditResponseRecord.is_success response })

def audit_authorize_and_execute (s : RuntimeState G Q J A) (detection : D) (request : ActionRequest) (context : ApprovalContext) :
    RuntimeState G Q J A × Except RuntimeError (AuditTrail D) :=
  let (s, report) := rt.audit_authorize_and_execute_instrumented_internal s detection request context false none none
  (s, report.map (·.audit))

end SwarmRuntime
end Ambush.Runtime

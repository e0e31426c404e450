import Ambush.Bridge.Events
import Ambush.Policy.RateLimit
/-!
# The configurable gate

The first rule that selects a request decides it. A rule with a limit keeps one window for each agent, under the rule's name and
the agent joined by a colon; `run_alone` says when the decisions of one rule and agent are those of their own calls.
-/
open Lib

namespace Ambush.Policy
open Bridge (ThreatClass)

/-! ## Decisions -/

inductive PolicyVerdict where
  | Deny | Allow | RequireHuman
  deriving DecidableEq

/-- `PolicyDecision` with its verdict. -/
structure GateDecision extends PolicyDecision where
  verdict : PolicyVerdict
  deriving DecidableEq

def deny_with_rule (rule_name reason : String) : GateDecision := ⟨⟨rule_name, reason⟩, .Deny⟩

def allow_with_rule (rule_name reason : String) : GateDecision := ⟨⟨rule_name, reason⟩, .Allow⟩

def require_human_with_rule (rule_name reason : String) : GateDecision := ⟨⟨rule_name, reason⟩, .RequireHuman⟩

/-- The order of severities. -/
def severity_rank : Severity → Nat
  | .Low => 0
  | .Medium => 1
  | .High => 2
  | .Critical => 3

/-! ## The static gate -/

def destructive_action : ResponseAction → Bool
  | .BlockEgress _ | .IsolateHost _ | .RevokeCredential _ | .SinkholeDns _ | .TerminateUserSession _ _ | .InjectFirewallRule _ _ _ _ _
  | .QuarantineFile _ _ | .KillProcess _ _ | .SuspendProcess _ _ | .DisableUserAccount _ | .ForcePasswordReset _
  | .RemoveScheduledTask _ _ => true
  | .TriggerEdrScan _ _ | .DeployDecoy _ _ | .Escalate _ _ => false

def is_deploy_decoy : ResponseAction → Bool
  | .DeployDecoy _ _ => true
  | _ => false

def severity_floor_denial (action : ResponseAction) (severity : Severity) : Option GateDecision :=
  if destructive_action action ∧ severity = .Low then
    some (deny_with_rule "static.minimum_severity" "destructive actions require at least medium severity")
  else if is_deploy_decoy action ∧ severity = .Low then
    some (deny_with_rule "static.deploy_decoy_min_severity" "deploy_decoy requires at least medium severity")
  else none

def human_gate_decision (action : ResponseAction) (severity human_gate_severity : Severity) : Option GateDecision :=
  if destructive_action action ∧ severity_rank human_gate_severity ≤ severity_rank severity then
    some (require_human_with_rule "static.human_gate" "authorized but held for human approval")
  else none

structure StaticApprovalGate where
  human_gate_severity : Severity
  max_actions_per_scope_per_minute : Nat
  scope_windows : Windows := .empty

/-- A request and the time of its context. -/
abbrev Call := ActionRequest × Int

def StaticApprovalGate.evaluate (gate : StaticApprovalGate) (call : Call) : Except ApprovalError GateDecision × StaticApprovalGate :=
  match validate_request call.1 with
  | .error err => (.error err, gate)
  | .ok () =>
    match severity_floor_denial call.1.action call.1.severity with
    | some decision => (.ok decision, gate)
    | none =>
      match scope_rate_limit_decision gate.max_actions_per_scope_per_minute gate.scope_windows call.1 call.2 with
      | (some denial, scope_windows) => (.ok ⟨denial, .Deny⟩, { gate with scope_windows })
      | (none, scope_windows) =>
        (.ok ((human_gate_decision call.1.action call.1.severity gate.human_gate_severity).getD
          (allow_with_rule "static.default_allow" "authorized for immediate execution")), { gate with scope_windows })

/-! ## Rules -/

inductive PolicyRuleDecision where
  | Allow | Deny
  deriving DecidableEq

inductive PolicyActionSelector where
  | BlockEgress | IsolateHost | RevokeCredential | SinkholeDns | TerminateUserSession | TriggerEdrScan | InjectFirewallRule
  | QuarantineFile | KillProcess | SuspendProcess | DisableUserAccount | ForcePasswordReset | RemoveScheduledTask | DeployDecoy
  | Escalate
  deriving DecidableEq

/-- The selector of an action. -/
def PolicyActionSelector.of : ResponseAction → PolicyActionSelector
  | .BlockEgress _ => .BlockEgress
  | .IsolateHost _ => .IsolateHost
  | .RevokeCredential _ => .RevokeCredential
  | .SinkholeDns _ => .SinkholeDns
  | .TerminateUserSession _ _ => .TerminateUserSession
  | .TriggerEdrScan _ _ => .TriggerEdrScan
  | .InjectFirewallRule _ _ _ _ _ => .InjectFirewallRule
  | .QuarantineFile _ _ => .QuarantineFile
  | .KillProcess _ _ => .KillProcess
  | .SuspendProcess _ _ => .SuspendProcess
  | .DisableUserAccount _ => .DisableUserAccount
  | .ForcePasswordReset _ => .ForcePasswordReset
  | .RemoveScheduledTask _ _ => .RemoveScheduledTask
  | .DeployDecoy _ _ => .DeployDecoy
  | .Escalate _ _ => .Escalate

def PolicyActionSelector.isMatch (selector : PolicyActionSelector) (action : ResponseAction) : Bool := selector = .of action

structure PolicyTimeWindowConfig where
  start_hour_utc : Nat
  end_hour_utc : Nat
  deriving DecidableEq

def PolicyTimeWindowConfig.contains_hour (window : PolicyTimeWindowConfig) (hour_utc : Nat) : Bool :=
  if window.start_hour_utc < window.end_hour_utc then window.start_hour_utc ≤ hour_utc && hour_utc < window.end_hour_utc
  else window.start_hour_utc ≤ hour_utc || hour_utc < window.end_hour_utc

structure PolicyRuleConfig where
  name : String
  decision : PolicyRuleDecision
  threat_class : ThreatClass
  actions : List PolicyActionSelector := []
  min_severity : Severity := .Low
  max_severity : Severity := .Critical
  time_window_utc : Option PolicyTimeWindowConfig := none
  max_actions_per_agent_per_minute : Option Nat := none
  reason : Option String := none
  deriving DecidableEq

/-- A threat class by the name it has in JSON. -/
def unit_variant (variant : String) : Option ThreatClass :=
  if variant = "lateral_movement" then some .LateralMovement
  else if variant = "data_exfiltration" then some .DataExfiltration
  else if variant = "privilege_escalation" then some .PrivilegeEscalation
  else if variant = "command_and_control" then some .CommandAndControl
  else if variant = "initial_access" then some .InitialAccess
  else if variant = "persistence" then some .Persistence
  else if variant = "supply_chain" then some .SupplyChain
  else if variant = "defense_evasion" then some .DefenseEvasion
  else if variant = "credential_access" then some .CredentialAccess
  else if variant = "discovery" then some .Discovery
  else if variant = "execution" then some .Execution
  else if variant = "impact" then some .Impact
  else none

/-- `serde_json::from_value`: a name, or an object with the name as its one key. -/
def threat_class_from_value : Value → Option ThreatClass
  | .string variant => unit_variant variant
  | .object [(variant, .null)] => unit_variant variant
  | .object [(variant, .string name)] => if variant = "custom" then some (.Custom name) else none
  | _ => none

def threat_class_from_request (request : ActionRequest) : Option ThreatClass :=
  (((request.evidence.get "escalation").bind (·.get "threat_class")).or (request.evidence.get "threat_class")).bind threat_class_from_value

def selector_matches (rule : PolicyRuleConfig) (request : ActionRequest) (threat_class : ThreatClass) : Bool :=
  rule.threat_class = threat_class && severity_rank rule.min_severity ≤ severity_rank request.severity &&
    severity_rank request.severity ≤ severity_rank rule.max_severity &&
    (rule.actions.isEmpty || rule.actions.any (·.isMatch request.action))

def current_hour_utc (now_ms : Int) : Nat := (now_ms / 1000 / 3600 % 24).toNat

def allow_reason (rule : PolicyRuleConfig) : String := rule.reason.getD ("authorized by policy rule `" ++ rule.name ++ "`")

def deny_reason (rule : PolicyRuleConfig) : String := rule.reason.getD ("denied by policy rule `" ++ rule.name ++ "`")

/-! ## The gate -/

/-- The first rule that selects a request. -/
def selected (rules : List PolicyRuleConfig) (request : ActionRequest) : Option PolicyRuleConfig :=
  (threat_class_from_request request).bind (fun threat_class => rules.find? (selector_matches · request threat_class))

/-- `\x7b:02\x7d`. -/
def two_digits (n : Nat) : String := if n < 10 then "0" ++ toString n else toString n

def in_hours (rule : PolicyRuleConfig) (now_ms : Int) : Bool := rule.time_window_utc.all (·.contains_hour (current_hour_utc now_ms))

/-- The denial of a rule outside its hours. -/
def hours_denial (rule : PolicyRuleConfig) (now_ms : Int) : GateDecision :=
  deny_with_rule rule.name ("rule `" ++ rule.name ++ "` is inactive at " ++ two_digits (current_hour_utc now_ms) ++ ":00 UTC")

/-- The denial of an agent that has no budget left. -/
def limit_denial (rule : PolicyRuleConfig) (requested_by : AgentId) (limit : Nat) : GateDecision :=
  deny_with_rule rule.name ("agent `" ++ requested_by ++ "` exceeded rule limit of " ++ toString limit ++ " actions per minute")

/-- The decision of a rule whose constraints pass. -/
def rule_decision (rule : PolicyRuleConfig) : GateDecision :=
  match rule.decision with
  | .Allow => allow_with_rule rule.name (allow_reason rule)
  | .Deny => deny_with_rule rule.name (deny_reason rule)

structure ConfigurableApprovalGate where
  static_gate : StaticApprovalGate
  rules : List PolicyRuleConfig
  agent_windows : Windows := .empty

namespace ConfigurableApprovalGate

/-- What a rule does with a request that it is the first to select. -/
def apply_rule (gate : ConfigurableApprovalGate) (rule : PolicyRuleConfig) (call : Call) : GateDecision × ConfigurableApprovalGate :=
  if in_hours rule call.2 then
    match rule.max_actions_per_agent_per_minute with
    | some limit =>
      let (exceeded, agent_windows) := agent_limit_exceeded gate.agent_windows rule.name call.1 call.2 limit
      (if exceeded then limit_denial rule call.1.requested_by limit else rule_decision rule, { gate with agent_windows })
    | none => (rule_decision rule, gate)
  else (hours_denial rule call.2, gate)

def evaluate (gate : ConfigurableApprovalGate) (call : Call) : Except ApprovalError GateDecision × ConfigurableApprovalGate :=
  match validate_request call.1 with
  | .error err => (.error err, gate)
  | .ok () =>
    if gate.rules.isEmpty then
      (.ok (deny_with_rule "configurable.fail_closed.empty_ruleset" "no configurable policy rules loaded; failing closed"), gate)
    else
      match selected gate.rules call.1 with
      | some rule => ((gate.apply_rule rule call).1 |> .ok, (gate.apply_rule rule call).2)
      | none => ((gate.static_gate.evaluate call).1, { gate with static_gate := (gate.static_gate.evaluate call).2 })

/-- The calls of a gate, each with its decision. -/
def decisions : ConfigurableApprovalGate → List Call → List (Call × Except ApprovalError GateDecision)
  | _, [] => []
  | gate, call :: calls => (call, (gate.evaluate call).1) :: decisions (gate.evaluate call).2 calls

end ConfigurableApprovalGate

/-! ## The budget of a rule and an agent -/

/-- The rule is the first to select the request of this agent. -/
def own (rules : List PolicyRuleConfig) (r : PolicyRuleConfig) (a : AgentId) (call : Call) : Bool :=
  selected rules call.1 = some r && call.1.requested_by = a

/-- The rule that a call is counted under, with its limit. -/
def charged (rules : List PolicyRuleConfig) (call : Call) : Option (PolicyRuleConfig × Nat) :=
  match validate_request call.1 with
  | .error _ => none
  | .ok () => (selected rules call.1).bind (fun rule =>
      if in_hours rule call.2 then rule.max_actions_per_agent_per_minute.map (Prod.mk rule) else none)

/-- A denial for the limit can be told from what the rule decides otherwise. -/
def Budgeted (r : PolicyRuleConfig) (a : AgentId) (limit : Nat) : Prop := 0 < limit ∧ limit_denial r a limit ≠ rule_decision r

/-- No call of another rule or agent is counted in the window of this rule and agent. -/
def Separate (rules : List PolicyRuleConfig) (r : PolicyRuleConfig) (a : AgentId) : Prop :=
  ∀ (c d : Call) (limit : Nat) (other : PolicyRuleConfig) (m : Nat),
    c.1.requested_by = a → charged rules c = some (r, limit) → Budgeted r a limit →
    charged rules d = some (other, m) → (other ≠ r ∨ d.1.requested_by ≠ a) →
    agent_window_key other.name d.1 ≠ agent_window_key r.name c.1

section
variable {rules : List PolicyRuleConfig} {r rule : PolicyRuleConfig} {a : AgentId} {call : Call} {limit : Nat}

theorem own_iff : own rules r a call = true ↔ selected rules call.1 = some r ∧ call.1.requested_by = a := by
  simp only [own, Bool.and_eq_true, decide_eq_true_eq]

theorem charged_iff : charged rules call = some (rule, limit) ↔
    validate_request call.1 = .ok () ∧ selected rules call.1 = some rule ∧ in_hours rule call.2 = true ∧
      rule.max_actions_per_agent_per_minute = some limit := by
  unfold charged
  cases validate_request call.1 with
  | error e =>
    constructor
    · intro h
      cases h
    · rintro ⟨hvalid, -⟩
      cases hvalid
  | ok u =>
    dsimp only
    constructor
    · intro h
      obtain ⟨found, hfound, h⟩ := Option.bind_eq_some_iff.1 h
      split at h
      · next hhours =>
        obtain ⟨n, hn, heq⟩ := Option.map_eq_some_iff.1 h
        cases heq
        exact ⟨rfl, hfound, hhours, hn⟩
      · cases h
    · rintro ⟨-, hselected, hhours, hlimit⟩
      refine Option.bind_eq_some_iff.2 ⟨rule, hselected, ?_⟩
      rw [if_pos hhours, hlimit]
      rfl

namespace ConfigurableApprovalGate

variable {gate : ConfigurableApprovalGate}

/-- Whether a call is over its budget, and the windows after it. -/
theorem agent_limit_exceeded_eq (windows : Windows) (rule_name : String) (call : Call) (limit : Nat) :
    agent_limit_exceeded windows rule_name call.1 call.2 limit =
      (decide (limit ≤ (prune_stale_window ((windows (agent_window_key rule_name call.1)).getD []) call.2).length),
        windows.insert (agent_window_key rule_name call.1)
          (evaluate_rate_limit ((windows (agent_window_key rule_name call.1)).getD []) call.2 limit).2) := by
  unfold agent_limit_exceeded Windows.evaluate evaluate_rate_limit
  dsimp only
  split
  · next h => simp [h]
  · next h => simp [h]

theorem evaluate_rules (gate : ConfigurableApprovalGate) (call : Call) : (gate.evaluate call).2.rules = gate.rules := by
  unfold evaluate
  split
  · rfl
  · split
    · rfl
    · split
      · next rule _ =>
        unfold apply_rule
        split
        · split
          · rfl
          · rfl
        · rfl
      · rfl

/-- A call that a rule selects is decided by it, unless it is not valid. -/
theorem evaluate_selected (h : selected gate.rules call.1 = some rule) :
    gate.evaluate call =
      match validate_request call.1 with
      | .error err => (.error err, gate)
      | .ok () => (.ok (gate.apply_rule rule call).1, (gate.apply_rule rule call).2) := by
  have hrules : gate.rules.isEmpty = false := by
    cases hempty : gate.rules with
    | nil =>
      rw [hempty, selected] at h
      obtain ⟨threat_class, -, hfind⟩ := Option.bind_eq_some_iff.1 h
      cases hfind
    | cons first rest => rfl
  unfold evaluate
  split
  · rfl
  · rw [hrules, h]
    rfl

/-- A call that counts under a rule. -/
theorem evaluate_charged (h : charged gate.rules call = some (rule, limit)) :
    gate.evaluate call =
      (.ok (if (agent_limit_exceeded gate.agent_windows rule.name call.1 call.2 limit).1 then limit_denial rule call.1.requested_by limit
        else rule_decision rule),
        { gate with agent_windows := (agent_limit_exceeded gate.agent_windows rule.name call.1 call.2 limit).2 }) := by
  obtain ⟨hvalid, hselected, hhours, hlimit⟩ := charged_iff.1 h
  rw [evaluate_selected hselected, hvalid]
  dsimp only
  rw [apply_rule, if_pos hhours, hlimit]

/-- A call that counts under no rule leaves the windows, and what it is told does not depend on them. -/
theorem evaluate_uncharged (h : charged gate.rules call = none) : (gate.evaluate call).2.agent_windows = gate.agent_windows := by
  cases hselected : selected gate.rules call.1 with
  | some rule =>
    rw [evaluate_selected hselected]
    cases hvalid : validate_request call.1 with
    | error err => rfl
    | ok u =>
      dsimp only
      unfold apply_rule
      split
      · next hhours =>
        cases hlimit : rule.max_actions_per_agent_per_minute with
        | none => rfl
        | some limit =>
          rw [charged_iff.2 ⟨hvalid, hselected, hhours, hlimit⟩] at h
          cases h
      · rfl
  | none =>
    unfold evaluate
    split
    · rfl
    · split
      · rfl
      · rw [hselected]

theorem evaluate_uncharged_own {gate' : ConfigurableApprovalGate} (hrules : gate'.rules = gate.rules)
    (hselected : selected gate.rules call.1 = some rule) (h : charged gate.rules call = none) :
    (gate.evaluate call).1 = (gate'.evaluate call).1 := by
  rw [evaluate_selected hselected, evaluate_selected (hrules ▸ hselected)]
  cases hvalid : validate_request call.1 with
  | error err => rfl
  | ok u =>
    dsimp only
    unfold apply_rule
    split
    · next hhours =>
      cases hlimit : rule.max_actions_per_agent_per_minute with
      | none => rfl
      | some limit =>
        rw [charged_iff.2 ⟨hvalid, hselected, hhours, hlimit⟩] at h
        cases h
    · rfl

/-! ## Calls run alone -/

/-- Where a call of the rule and agent can be denied for its limit, the two gates have one window for them. -/
def Alike (rules : List PolicyRuleConfig) (r : PolicyRuleConfig) (a : AgentId) (gate gate' : ConfigurableApprovalGate) : Prop :=
  ∀ (c : Call) (limit : Nat), c.1.requested_by = a → charged rules c = some (r, limit) → Budgeted r a limit →
    gate.agent_windows (agent_window_key r.name c.1) = gate'.agent_windows (agent_window_key r.name c.1)

theorem Alike.of_other {gate gate' : ConfigurableApprovalGate} (hseparate : Separate rules r a) (hrules : gate.rules = rules)
    (h : Alike rules r a gate gate') (hother : own rules r a call = false) : Alike rules r a (gate.evaluate call).2 gate' := by
  intro c limit hc hcharged hbudget
  refine Eq.trans ?_ (h c limit hc hcharged hbudget)
  cases hcall : charged gate.rules call with
  | none => rw [evaluate_uncharged hcall]
  | some found =>
    obtain ⟨rule, m⟩ := found
    rw [evaluate_charged hcall, agent_limit_exceeded_eq]
    dsimp only
    refine Map.insert_ne _ _ _ _ (Ne.symm ?_)
    rw [hrules] at hcall
    refine hseparate c call limit rule m hc hcharged hbudget hcall ?_
    -- a call of this rule and agent is their own
    by_contra hboth
    rw [not_or, not_not, not_not] at hboth
    obtain ⟨rfl, hagent⟩ := hboth
    rw [own_iff.2 ⟨(charged_iff.1 hcall).2.1, hagent⟩] at hother
    cases hother

theorem Alike.of_own {gate gate' : ConfigurableApprovalGate} (hrules : gate.rules = rules) (hrules' : gate'.rules = rules)
    (h : Alike rules r a gate gate') (hown : own rules r a call = true) :
    (gate.evaluate call).1 = (gate'.evaluate call).1 ∧ Alike rules r a (gate.evaluate call).2 (gate'.evaluate call).2 := by
  obtain ⟨hselected, hagent⟩ := own_iff.1 hown
  cases hcall : charged rules call with
  | none =>
    refine ⟨evaluate_uncharged_own (hrules'.trans hrules.symm) (hrules ▸ hselected) (hrules ▸ hcall), fun c limit hc hcharged hbudget => ?_⟩
    rw [evaluate_uncharged (hrules ▸ hcall), evaluate_uncharged (hrules' ▸ hcall)]
    exact h c limit hc hcharged hbudget
  | some found =>
    obtain ⟨rule, limit⟩ := found
    obtain ⟨hvalid, hrule, hhours, hlimit⟩ := charged_iff.1 hcall
    rw [hselected] at hrule
    cases hrule
    rw [evaluate_charged (hrules ▸ hcall), evaluate_charged (hrules' ▸ hcall), agent_limit_exceeded_eq, agent_limit_exceeded_eq]
    dsimp only
    by_cases hbudget : Budgeted r a limit
    · have hwindow := h call limit hagent hcall hbudget
      rw [hwindow]
      refine ⟨rfl, fun c limit' hc hcharged' hbudget' => ?_⟩
      have hkey : agent_window_key r.name c.1 = agent_window_key r.name call.1 := by
        rw [agent_window_key, agent_window_key, hc, hagent]
      rw [hkey]
      exact (Map.insert_self _ _ _).trans (Map.insert_self _ _ _).symm
    · refine ⟨?_, fun c limit' hc hcharged' hbudget' => ?_⟩
      · -- with no budget at all every call is over it
        by_cases hzero : limit = 0
        · subst hzero
          rfl
        · have hsame : limit_denial r a limit = rule_decision r := by
            by_contra hne
            exact hbudget ⟨Nat.pos_of_ne_zero hzero, hne⟩
          rw [hagent, hsame, ite_self, ite_self]
      · have hlimit' := (charged_iff.1 hcharged').2.2.2
        rw [hlimit] at hlimit'
        cases hlimit'
        exact absurd hbudget' hbudget

/-- Among any other calls the decisions of a rule and agent are those of their calls alone. -/
theorem Alike.run_alone (hseparate : Separate rules r a) (calls : List Call) {gate gate' : ConfigurableApprovalGate}
    (hrules : gate.rules = rules) (hrules' : gate'.rules = rules) (h : Alike rules r a gate gate') :
    (gate.decisions calls).filter (fun d => own rules r a d.1) = gate'.decisions (calls.filter (own rules r a)) := by
  induction calls generalizing gate gate' with
  | nil => rfl
  | cons call calls ih =>
    have hnext := (evaluate_rules gate call).trans hrules
    cases hown : own rules r a call with
    | true =>
      obtain ⟨hsame, hafter⟩ := Alike.of_own hrules hrules' h hown
      simp only [decisions, List.filter_cons, hown, if_true]
      rw [hsame, ih hnext ((evaluate_rules gate' call).trans hrules') hafter]
    | false =>
      simp only [decisions, List.filter_cons, hown, Bool.false_eq_true, if_false]
      exact ih hnext hrules' (Alike.of_other hseparate hrules h hown)

/-! ## A window that is shared -/

/-- The gate after these calls. -/
def after (gate : ConfigurableApprovalGate) (calls : List Call) : ConfigurableApprovalGate :=
  calls.foldl (fun gate call => (gate.evaluate call).2) gate

theorem after_append (gate : ConfigurableApprovalGate) (xs ys : List Call) : gate.after (xs ++ ys) = (gate.after xs).after ys :=
  List.foldl_append

theorem after_rules (calls : List Call) (gate : ConfigurableApprovalGate) : (gate.after calls).rules = gate.rules := by
  induction calls generalizing gate with
  | nil => rfl
  | cons call calls ih => exact (ih (gate.evaluate call).2).trans (evaluate_rules gate call)

theorem decisions_append (xs ys : List Call) (gate : ConfigurableApprovalGate) :
    gate.decisions (xs ++ ys) = gate.decisions xs ++ (gate.after xs).decisions ys := by
  induction xs generalizing gate with
  | nil => rfl
  | cons call xs ih => exact congrArg _ (ih (gate.evaluate call).2)

theorem decisions_calls (calls : List Call) (gate : ConfigurableApprovalGate) : (gate.decisions calls).map Prod.fst = calls := by
  induction calls generalizing gate with
  | nil => rfl
  | cons call calls ih => exact congrArg _ (ih (gate.evaluate call).2)

/-- Only own calls have own decisions. -/
theorem filter_decisions {calls : List Call} (h : ∀ call ∈ calls, own rules r a call = true) (gate : ConfigurableApprovalGate) :
    (gate.decisions calls).filter (fun d => own rules r a d.1) = gate.decisions calls := by
  refine List.filter_eq_self.2 (fun d hd => h d.1 ?_)
  rw [← decisions_calls calls gate]
  exact List.mem_map_of_mem hd

/-- What a counted call is told, and the window after it. -/
theorem evaluate_window {window : List Int} (h : charged gate.rules call = some (rule, limit))
    (hwindow : (gate.agent_windows (agent_window_key rule.name call.1)).getD [] = window) :
    (gate.evaluate call).1 = .ok (if limit ≤ (prune_stale_window window call.2).length then
      limit_denial rule call.1.requested_by limit else rule_decision rule) ∧
    ((gate.evaluate call).2.agent_windows (agent_window_key rule.name call.1)).getD [] = (evaluate_rate_limit window call.2 limit).2 := by
  rw [evaluate_charged h, agent_limit_exceeded_eq, hwindow]
  refine ⟨?_, ?_⟩
  · simp only [decide_eq_true_eq]
  · dsimp only
    rw [Map.insert_self]
    rfl

theorem prune_fresh {window : List Int} {now_ms : Int} (h : ∀ t ∈ window, satSubI now_ms RATE_LIMIT_WINDOW_MS < t) :
    prune_stale_window window now_ms = window := by
  cases window with
  | nil => rfl
  | cons first rest =>
    have hfirst := h first List.mem_cons_self
    exact List.dropWhile_cons_of_neg (by simpa using hfirst)

/-- Calls at one time fill the window up to the limit. -/
theorem window_of_replicate {window : List Int} (h : charged gate.rules call = some (rule, limit))
    (hwindow : (gate.agent_windows (agent_window_key rule.name call.1)).getD [] = window)
    (hfresh : ∀ t ∈ window, satSubI call.2 RATE_LIMIT_WINDOW_MS < t) (hself : satSubI call.2 RATE_LIMIT_WINDOW_MS < call.2)
    {n : Nat} (hn : window.length + n ≤ limit) :
    ((gate.after (List.replicate n call)).agent_windows (agent_window_key rule.name call.1)).getD [] =
      window ++ List.replicate n call.2 := by
  induction n with
  | zero =>
    rw [List.replicate_zero, List.replicate_zero, List.append_nil]
    exact hwindow
  | succ n ih =>
    have hlast := ih (by omega)
    have hpruned : prune_stale_window (window ++ List.replicate n call.2) call.2 = window ++ List.replicate n call.2 := by
      refine prune_fresh (fun t ht => ?_)
      rcases List.mem_append.1 ht with ht | ht
      · exact hfresh t ht
      · rw [List.eq_of_mem_replicate ht]
        exact hself
    have hcharged : charged (gate.after (List.replicate n call)).rules call = some (rule, limit) := by
      rw [after_rules]
      exact h
    have hlength : (window ++ List.replicate n call.2).length = window.length + n := by
      rw [List.length_append, List.length_replicate]
    rw [List.replicate_succ', after_append]
    refine (evaluate_window hcharged hlast).2.trans ?_
    rw [evaluate_rate_limit, hpruned, if_neg (by omega), List.replicate_succ', List.append_assoc]

/-! ## The same hour of another day -/

def DAY_MS : Int := 86400000

/-- The call at the same time of another day. -/
def at_day (call : Call) (day : Int) : Call := (call.1, call.2 % DAY_MS + DAY_MS * day)

theorem hour_at_day (call : Call) (day : Int) : current_hour_utc (at_day call day).2 = current_hour_utc call.2 := by
  unfold current_hour_utc at_day DAY_MS
  congr 1
  omega

theorem charged_at_day (rules : List PolicyRuleConfig) (call : Call) (day : Int) :
    charged rules (at_day call day) = charged rules call := by
  have hhours : ∀ rule, in_hours rule (at_day call day).2 = in_hours rule call.2 := by
    intro rule
    rw [in_hours, in_hours, hour_at_day]
  unfold charged
  simp only [hhours]
  rfl

theorem day_range (call : Call) (day : Int) : DAY_MS * day ≤ (at_day call day).2 ∧ (at_day call day).2 < DAY_MS * (day + 1) := by
  unfold at_day DAY_MS
  omega

theorem fresh_at_day {call : Call} {day : Int} {t : Int} (hday : 0 ≤ day) (hmax : day < 1000) (ht : (at_day call day).2 ≤ t) :
    satSubI (at_day call day).2 RATE_LIMIT_WINDOW_MS < t := by
  have hrange := day_range call day
  simp only [DAY_MS] at hrange
  simp only [satSubI, i64Min, i64Max, RATE_LIMIT_WINDOW_MS]
  omega

/-! ## Interference -/

/-- Whatever other calls there are, the calls of the rule and agent are decided alike. -/
def NonInterfering (rules : List PolicyRuleConfig) (r : PolicyRuleConfig) (a : AgentId) : Prop :=
  ∀ gate : ConfigurableApprovalGate, gate.rules = rules → ∀ calls calls' : List Call,
    calls.filter (own rules r a) = calls'.filter (own rules r a) →
    (gate.decisions calls).filter (fun d => own rules r a d.1) = (gate.decisions calls').filter (fun d => own rules r a d.1)

theorem nonInterfering_of_separate (h : Separate rules r a) : NonInterfering rules r a := by
  intro gate hrules calls calls' hsame
  have halike : Alike rules r a gate gate := fun _ _ _ _ _ => rfl
  rw [Alike.run_alone h calls hrules hrules halike, Alike.run_alone h calls' hrules hrules halike, hsame]

theorem filter_decisions_other (hother : own rules r a call = false) (calls : List Call) (gate : ConfigurableApprovalGate) :
    (gate.decisions (call :: calls)).filter (fun d => own rules r a d.1) =
      ((gate.evaluate call).2.decisions calls).filter (fun d => own rules r a d.1) := by
  simp only [decisions, List.filter_cons, hother, Bool.false_eq_true, if_false]

/-- What the last of some own calls is told, with the calls that are told the same in front. -/
theorem last_told {gate gate' : ConfigurableApprovalGate} {xs ys : List (Call × Except ApprovalError GateDecision)} {call : Call}
    (h : xs ++ gate.decisions [call] = ys ++ gate'.decisions [call]) : (gate.evaluate call).1 = (gate'.evaluate call).1 := by
  have hlast := (List.append_inj' h rfl).2
  exact (Prod.mk.inj (List.cons.inj hlast).1).2

/-- Another call with the same window makes a difference to the last of a row of own calls. -/
theorem shared_window (h : NonInterfering rules r a) {c d : Call} {other : PolicyRuleConfig} {m : Nat} (hown : own rules r a c = true)
    (hnot : own rules r a d = false) (hagent : c.1.requested_by = a) (hcharged : charged rules c = some (r, limit))
    (hcharged' : charged rules d = some (other, m)) (hpos : 0 < limit)
    (hkey : agent_window_key other.name d.1 = agent_window_key r.name c.1)
    (hself : satSubI c.2 RATE_LIMIT_WINDOW_MS < c.2) (hlate : c.2 ≤ satSubI d.2 RATE_LIMIT_WINDOW_MS ∧ c.2 < d.2) :
    Except.ok (ε := ApprovalError) (limit_denial r a limit) = .ok (rule_decision r) := by
  have hall : ∀ n, ∀ call ∈ List.replicate n c, own rules r a call = true := by
    intro n call hcall
    rw [List.eq_of_mem_replicate hcall]
    exact hown
  generalize hgate : (⟨⟨.High, 0, .empty⟩, rules, .empty⟩ : ConfigurableApprovalGate) = gate
  have hrules : gate.rules = rules := hgate ▸ rfl
  have hempty : ∀ key, (gate.agent_windows key).getD [] = [] := fun key => hgate ▸ rfl
  have hfull : ∀ n, prune_stale_window (List.replicate n c.2) c.2 = List.replicate n c.2 := by
    intro n
    refine prune_fresh (fun t ht => ?_)
    rw [List.eq_of_mem_replicate ht]
    exact hself
  have hafter : ∀ n, n ≤ limit →
      ((gate.after (List.replicate n c)).agent_windows (agent_window_key r.name c.1)).getD [] = List.replicate n c.2 := by
    intro n hn
    have hcalled : charged gate.rules c = some (r, limit) := hrules ▸ hcharged
    have hroom : ([] : List Int).length + n ≤ limit := by
      rw [List.length_nil]
      omega
    exact window_of_replicate hcalled (hempty _) (List.forall_mem_nil _) hself hroom
  have hlast : ∀ {g : ConfigurableApprovalGate} (window : List Int), g.rules = rules →
      (g.agent_windows (agent_window_key r.name c.1)).getD [] = window → (g.evaluate c).1 =
        .ok (if limit ≤ (prune_stale_window window c.2).length then limit_denial r a limit else rule_decision r) := by
    intro g window hg hwindow
    rw [(evaluate_window (hg ▸ hcharged) hwindow).1, hagent]
  have htaken : (gate.evaluate d).2.rules = rules ∧
      ((gate.evaluate d).2.agent_windows (agent_window_key r.name c.1)).getD [] = (evaluate_rate_limit [] d.2 m).2 := by
    refine ⟨(evaluate_rules gate d).trans hrules, ?_⟩
    rw [← hkey]
    exact (evaluate_window (hrules ▸ hcharged') (hempty _)).2
  by_cases hm : 0 < m
  · -- its call before them takes one of their places
    obtain ⟨n, rfl⟩ : ∃ n, limit = n + 1 := ⟨limit - 1, by omega⟩
    have hsame := h gate hrules (d :: List.replicate (n + 1) c) (List.replicate (n + 1) c)
      (List.filter_cons_of_neg (by rw [hnot]; exact Bool.false_ne_true))
    rw [filter_decisions_other hnot, filter_decisions (hall (n + 1)), filter_decisions (hall (n + 1)), List.replicate_succ',
      decisions_append, decisions_append] at hsame
    have htold := last_told hsame
    have hone : (evaluate_rate_limit [] d.2 m).2 = [d.2] := by
      rw [evaluate_rate_limit, if_neg (by exact Nat.not_le.2 hm)]
      rfl
    rw [hone] at htaken
    have hfresh : ∀ t ∈ [d.2], satSubI c.2 RATE_LIMIT_WINDOW_MS < t := by
      intro t ht
      rw [List.mem_singleton.1 ht]
      exact hself.trans hlate.2
    have hcalled : charged (gate.evaluate d).2.rules c = some (r, n + 1) := htaken.1 ▸ hcharged
    have hroom : [d.2].length + n ≤ n + 1 := by
      rw [List.length_singleton]
      omega
    have hwindow := window_of_replicate hcalled htaken.2 hfresh hself hroom
    have hmore : n + 1 ≤ (prune_stale_window ([d.2] ++ List.replicate n c.2) c.2).length := by
      rw [prune_fresh]
      · rw [List.length_append, List.length_singleton, List.length_replicate]
        omega
      · intro t ht
        rcases List.mem_append.1 ht with ht | ht
        · exact hfresh t ht
        · rw [List.eq_of_mem_replicate ht]
          exact hself
    rw [hlast _ ((after_rules _ _).trans htaken.1) hwindow, if_pos hmore, hlast _ ((after_rules _ _).trans hrules) (hafter n (by omega)),
      hfull, List.length_replicate, if_neg (by omega)] at htold
    exact htold
  · -- its call between them clears the window
    have hm : m = 0 := by omega
    subst hm
    have hfilter : (List.replicate limit c ++ d :: [c]).filter (own rules r a) = (List.replicate limit c ++ [c]).filter (own rules r a) := by
      rw [List.filter_append, List.filter_append, List.filter_cons_of_neg (by rw [hnot]; exact Bool.false_ne_true)]
    have hsingle : ∀ call ∈ [c], own rules r a call = true := hall 1
    have hsame := h gate hrules _ _ hfilter
    rw [decisions_append, decisions_append, List.filter_append, List.filter_append, filter_decisions_other hnot,
      filter_decisions (hall limit), filter_decisions hsingle, filter_decisions hsingle] at hsame
    have htold := last_told hsame
    have hfilled := hafter limit (Nat.le_refl _)
    have hcleared : (((gate.after (List.replicate limit c)).evaluate d).2.agent_windows (agent_window_key r.name c.1)).getD [] = [] := by
      rw [← hkey] at hfilled ⊢
      rw [(evaluate_window ((after_rules _ gate).trans hrules ▸ hcharged') hfilled).2, evaluate_rate_limit, if_pos (Nat.zero_le _),
        prune_stale_window, List.dropWhile_replicate]
      exact if_pos (decide_eq_true hlate.1)
    rw [hlast _ ((evaluate_rules _ d).trans ((after_rules _ _).trans hrules)) hcleared,
      if_neg (by exact Nat.not_le.2 hpos), hlast _ ((after_rules _ _).trans hrules) hfilled, hfull, List.length_replicate,
      if_pos (Nat.le_refl _)] at htold
    exact htold.symm

theorem separate_of_nonInterfering (h : NonInterfering rules r a) : Separate rules r a := by
  intro c d limit other m hc hcharged ⟨hpos, hshows⟩ hcharged' hother hkey
  have hc₀ := (charged_at_day rules c 0).trans hcharged
  have hd₀ := (charged_at_day rules d 2).trans hcharged'
  have hown : own rules r a (at_day c 0) = true := own_iff.2 ⟨(charged_iff.1 hcharged).2.1, hc⟩
  have hnot : own rules r a (at_day d 2) = false := by
    cases hd : own rules r a (at_day d 2) with
    | false => rfl
    | true =>
      obtain ⟨hselected, hagent⟩ := own_iff.1 hd
      have hrule := (charged_iff.1 hcharged').2.1
      rw [show selected rules d.1 = some r from hselected] at hrule
      rcases hother with hne | hne
      · exact absurd (Option.some.inj hrule).symm hne
      · exact absurd hagent hne
  have hagent : (at_day c 0).1.requested_by = a := hc
  have hshared : agent_window_key other.name (at_day d 2).1 = agent_window_key r.name (at_day c 0).1 := hkey
  have hself : satSubI (at_day c 0).2 RATE_LIMIT_WINDOW_MS < (at_day c 0).2 :=
    fresh_at_day (Int.le_refl 0) (by decide) (Int.le_refl _)
  have hlate : (at_day c 0).2 ≤ satSubI (at_day d 2).2 RATE_LIMIT_WINDOW_MS ∧ (at_day c 0).2 < (at_day d 2).2 := by
    have hrange := day_range c 0
    have hrange' := day_range d 2
    simp only [DAY_MS] at hrange hrange'
    simp only [satSubI, i64Min, i64Max, RATE_LIMIT_WINDOW_MS]
    omega
  generalize at_day c 0 = c₀ at *
  generalize at_day d 2 = d₀ at *
  exact hshows (Except.ok.inj (shared_window h hown hnot hagent hc₀ hd₀ hpos hshared hself hlate))

/-- The decisions of a rule and agent depend on no other call exactly when no call of another rule or agent is counted in their
window. -/
theorem budgets_separate_iff (rules : List PolicyRuleConfig) (r : PolicyRuleConfig) (a : AgentId) :
    NonInterfering rules r a ↔ Separate rules r a :=
  ⟨separate_of_nonInterfering, nonInterfering_of_separate⟩

end ConfigurableApprovalGate
end

/-! ## Two names with a colon -/

def execution_rule : PolicyRuleConfig :=
  { name := "contain", decision := .Allow, threat_class := .Execution, max_actions_per_agent_per_minute := some 1 }

def discovery_rule : PolicyRuleConfig :=
  { name := "contain:ops", decision := .Allow, threat_class := .Discovery, max_actions_per_agent_per_minute := some 1 }

def decoy_request (requested_by : AgentId) (threat_class : String) : ActionRequest :=
  ⟨"hunt-1", requested_by, .DeployDecoy "honeypot" "dmz", .High, .object [("threat_class", .string threat_class)]⟩

/-- An agent of one rule uses up what an agent of the other has. -/
theorem joined_names_share_window :
    ¬ ConfigurableApprovalGate.NonInterfering [execution_rule, discovery_rule] execution_rule "ops:pounce-1" := by
  intro h
  let gate : ConfigurableApprovalGate := ⟨⟨.High, 1, .empty⟩, [execution_rule, discovery_rule], .empty⟩
  have hsame := h gate rfl [(decoy_request "pounce-1" "discovery", 0), (decoy_request "ops:pounce-1" "execution", 100)]
    [(decoy_request "ops:pounce-1" "execution", 100)] (by decide +kernel)
  have hverdicts := congrArg (List.map (fun d => d.2.toOption.map GateDecision.verdict)) hsame
  exact absurd hverdicts (by decide +kernel)

end Ambush.Policy

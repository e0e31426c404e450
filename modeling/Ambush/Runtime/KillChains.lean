import Ambush.Bridge.ChainHeads
import Ambush.Policy.Gate
import Ambush.Runtime.EventWindow
import Mathlib.Algebra.Order.Ring.Unbundled.Rat
/-!
# Kill chains

A sequence rule lists steps. When an event arrives that matches a step, the detector asks
the window whether the steps up to that one match events of its host, ending at it, and
reports the longest prefix that does. Rules are checked when they are read. The window has
limits of its own on the span and on the number of predicates, and a query it refuses
counts as one that found nothing. `F` stands for `f64`.
-/
open Lib

namespace Ambush.Runtime
open Ambush.Bridge (ThreatClass ascii_lowercase)
open Ambush.Policy (blank)

def MIN_PARTIAL_PREFIX_LEN : Nat := 2

/-! ## Steps -/

inductive KillChainStepKind where
  | ProcessStart | NetworkConnect | RegistryPersistence | FilePersistence | AuthenticationEvent
  deriving DecidableEq

structure KillChainSequenceStep where
  kind : KillChainStepKind
  source_in : List String := []
  process_name_in : List String := []
  parent_process_in : List String := []
  command_line_contains_any : List String := []
  destination_port_in : List Nat := []
  destination_ip_in : List String := []
  registry_path_contains_any : List String := []
  access_type_in : List String := []
  file_path_contains_any : List String := []
  auth_type_in : List String := []
  target_service_in : List String := []
  success : Option Bool := none
  deriving DecidableEq

def eq_ignore_ascii_case (a b : String) : Bool := ascii_lowercase a == ascii_lowercase b

def matches_string_list (expected : List String) (actual : String) : Bool :=
  expected.isEmpty || expected.any (fun value => eq_ignore_ascii_case actual value)

def match_optional_string_list (expected : List String) (actual : Option String) : Bool :=
  expected.isEmpty || actual.any (matches_string_list expected)

def matches_contains_any (expected : List String) (actual : String) : Bool :=
  expected.isEmpty || expected.any (fun value => (ascii_lowercase value).toList <:+: (ascii_lowercase actual).toList)

def matches_u16_list (expected : List Nat) (actual : Nat) : Bool := expected.isEmpty || expected.contains actual

namespace KillChainSequenceStep

def has_matcher (step : KillChainSequenceStep) : Bool :=
  !step.source_in.isEmpty || !step.process_name_in.isEmpty || !step.parent_process_in.isEmpty ||
    !step.command_line_contains_any.isEmpty || !step.destination_port_in.isEmpty || !step.destination_ip_in.isEmpty ||
    !step.registry_path_contains_any.isEmpty || !step.access_type_in.isEmpty || !step.file_path_contains_any.isEmpty ||
    !step.auth_type_in.isEmpty || !step.target_service_in.isEmpty || step.success.isSome

def matches_payload (step : KillChainSequenceStep) : TelemetryPayload → Bool
  | .ProcessStart process => step.kind = .ProcessStart && matches_string_list step.parent_process_in process.parent_process &&
      matches_string_list step.process_name_in process.process_name &&
      matches_contains_any step.command_line_contains_any process.command_line
  | .NetworkConnect network => step.kind = .NetworkConnect && matches_string_list step.process_name_in network.process_name &&
      matches_u16_list step.destination_port_in network.destination_port &&
      matches_string_list step.destination_ip_in network.destination_ip
  | .RegistryPersistence registry => step.kind = .RegistryPersistence && matches_string_list step.process_name_in registry.process_name &&
      matches_contains_any step.registry_path_contains_any registry.registry_path &&
      matches_string_list step.access_type_in registry.access_type
  | .FilePersistence file => step.kind = .FilePersistence && matches_string_list step.process_name_in file.process_name &&
      matches_contains_any step.file_path_contains_any file.file_path
  | .AuthenticationEvent auth => step.kind = .AuthenticationEvent && matches_string_list step.auth_type_in auth.auth_type &&
      (step.success.map (fun expected => auth.success == expected)).getD true &&
      match_optional_string_list step.process_name_in auth.process_name &&
      match_optional_string_list step.target_service_in auth.target_service
  | _ => false

def «matches» (step : KillChainSequenceStep) (event : TelemetryEvent) : Bool :=
  (step.source_in.isEmpty || step.source_in.any (fun expected => eq_ignore_ascii_case event.source expected)) &&
    step.matches_payload event.payload

end KillChainSequenceStep

/-! ## Rules -/

structure KillChainTechnique where
  technique_id : String
  name : String
  kill_chain_stage : String
  deriving DecidableEq

structure KillChainSequenceRule (F : Type) where
  id : String
  name : String
  description : String
  threat_class : ThreatClass
  severity : Severity
  confidence : F
  max_span_ms : Int
  tags : List String := []
  attack_chain : List KillChainTechnique
  steps : List KillChainSequenceStep

structure KillChainSequenceRuleSet (F : Type) where
  rules : List (KillChainSequenceRule F)

structure InvalidRules where
  path : String
  reason : String
  deriving DecidableEq

/-- The arithmetic of confidences: whether one is finite and between 0 and 1, and what a part of the steps leaves of it. -/
structure Confidences (F : Type) where
  in_unit : F → Bool
  partial_confidence : F → Nat → Nat → F

section
variable {F : Type} (confidences : Confidences F)

/-- The first complaint about a rule. -/
def rule_problem (rule : KillChainSequenceRule F) : Option String :=
  if blank rule.id then some "rule id must not be empty"
  else if blank rule.name then some s!"rule `{rule.id}` name must not be empty"
  else if rule.steps.length < MIN_PARTIAL_PREFIX_LEN then some s!"rule `{rule.id}` must define at least two steps"
  else if rule.attack_chain.length ≠ rule.steps.length then some s!"rule `{rule.id}` attack_chain length must match steps length"
  else if !confidences.in_unit rule.confidence then some s!"rule `{rule.id}` confidence must be between 0.0 and 1.0"
  else if rule.max_span_ms ≤ 0 then some s!"rule `{rule.id}` max_span_ms must be greater than zero"
  else
    match rule.steps.findIdx? (fun step => !step.has_matcher) with
    | some index => some s!"rule `{rule.id}` step {index} must define at least one matcher"
    | none =>
      if rule.attack_chain.any (fun technique => blank technique.technique_id || blank technique.name || blank technique.kill_chain_stage) then
        some s!"rule `{rule.id}` attack_chain entries must define technique_id, name, and kill_chain_stage"
      else none

def validate_rule_set (rule_set : KillChainSequenceRuleSet F) (path : String) : Except InvalidRules Unit :=
  if rule_set.rules.isEmpty then .error ⟨path, "must define at least one sequence rule"⟩
  else
    match rule_set.rules.findSome? (rule_problem confidences) with
    | some reason => .error ⟨path, reason⟩
    | none => .ok ()

/-! ## Findings -/

def host_matches (expected actual : Option String) : Bool :=
  match expected with
  | some expected => actual.any (· == expected)
  | none => true

def downgrade_severity : Severity → Severity
  | .Critical => .High
  | .High => .Medium
  | .Medium => .Low
  | .Low => .Low

structure EventSummary where
  event_id : String
  timestamp : Int64
  host_id : Option String
  payload_kind : String
  deriving DecidableEq

def payload_kind : TelemetryPayload → String
  | .ProcessStart _ => "process_start"
  | .ProcessMemoryAccess => "process_memory_access"
  | .NetworkConnect _ => "network_connect"
  | .DnsQuery => "dns_query"
  | .CloudTrail => "cloudtrail"
  | .KubernetesAudit => "kubernetes_audit"
  | .RegistryAccess => "registry_access"
  | .RegistryPersistence _ => "registry_persistence"
  | .FilePersistence _ => "file_persistence"
  | .AuthenticationEvent _ => "authentication_event"
  | .InfrastructureHealth => "infrastructure_health"
  | .ThermalAnomaly => "thermal_anomaly"
  | .ResourceExhaustion => "resource_exhaustion"

def render_event_summary (event : TelemetryEvent) : EventSummary :=
  ⟨event.event_id, event.timestamp, event.host_id, payload_kind event.payload⟩

structure SequenceEvidence where
  rule_id : String
  rule_name : String
  rule_description : String
  match_kind : String
  matched_prefix_len : Nat
  expected_steps : Nat
  matched_event_ids : List String
  matched_events : List EventSummary
  attack_techniques : List KillChainTechnique
  kill_chain_stages : List String
  tags : List String
  time_span_ms : Int
  max_span_ms : Int

structure DetectionFinding (F : Type) where
  finding_id : String
  event_id : String
  threat_class : ThreatClass
  severity : Severity
  confidence : F
  evidence : SequenceEvidence
  strategy_id : String

/-- A prefix's predicate for one step. That of its last step asks for the current event. -/
def step_predicate (host_id current_event_id : String) (is_last : Bool) (step : KillChainSequenceStep) : TelemetryEventPredicate :=
  fun event => host_matches (some host_id) event.host_id && step.matches event && !(is_last && event.event_id != current_event_id)

def prefix_predicates (rule : KillChainSequenceRule F) (host_id current_event_id : String) (prefix_len : Nat) : List TelemetryEventPredicate :=
  (rule.steps.take prefix_len).zipIdx.map fun (step, step_index) =>
    step_predicate host_id current_event_id (step_index = prefix_len - 1) step

def match_prefix (rule : KillChainSequenceRule F) (config : TemporalEventWindowConfig) (window : TemporalEventWindowState)
    (current_event : TelemetryEvent) (host_id : String) (step : KillChainSequenceStep) (index : Nat) : Option (Nat × OrderedTemporalEventMatch) :=
  if !step.matches current_event then none
  else if index + 1 < MIN_PARTIAL_PREFIX_LEN then none
  else
    match match_ordered config window (prefix_predicates rule host_id current_event.event_id (index + 1)) (some rule.max_span_ms) with
    | .ok (some found) => some (index + 1, found)
    | _ => none

def render_finding (rule : KillChainSequenceRule F) (strategy_id : String) (current_event : TelemetryEvent) (prefix_len : Nat)
    (found : OrderedTemporalEventMatch) : DetectionFinding F :=
  let full := prefix_len = rule.steps.length
  let match_kind := if full then "full" else "partial"
  { finding_id := s!"{strategy_id}:{rule.id}:{match_kind}:{current_event.event_id}"
    event_id := current_event.event_id
    threat_class := rule.threat_class
    severity := if full then rule.severity else downgrade_severity rule.severity
    confidence := if full then rule.confidence else confidences.partial_confidence rule.confidence prefix_len rule.steps.length
    evidence := {
      rule_id := rule.id
      rule_name := rule.name
      rule_description := rule.description
      match_kind
      matched_prefix_len := prefix_len
      expected_steps := rule.steps.length
      matched_event_ids := found.matched_events.map (·.event_id)
      matched_events := found.matched_events.map render_event_summary
      attack_techniques := rule.attack_chain.take prefix_len
      kill_chain_stages := (rule.attack_chain.take prefix_len).map (·.kill_chain_stage)
      tags := rule.tags
      time_span_ms := found.span_ms
      max_span_ms := rule.max_span_ms }
    strategy_id }

/-- The prefixes are tried from the longest on. -/
def evaluate_rule (rule : KillChainSequenceRule F) (strategy_id : String) (config : TemporalEventWindowConfig)
    (window : TemporalEventWindowState) (current_event : TelemetryEvent) : Option (DetectionFinding F) := do
  let host_id ← current_event.host_id
  let (prefix_len, found) ← rule.steps.zipIdx.reverse.findSome? fun (step, index) =>
    match_prefix rule config window current_event host_id step index
  some (render_finding confidences rule strategy_id current_event prefix_len found)

/-! ## The longest prefix -/

/-- A step asked of the events of one host. -/
def on_host (host_id : String) (step : KillChainSequenceStep) : TelemetryEventPredicate :=
  fun event => event.host_id == some host_id && step.matches event

/-- The current event is at this position, and no other event has its id. -/
structure At (events : List BufferedTelemetryEvent) (position : Nat) (current_event : TelemetryEvent) : Prop where
  here : ∃ b, events[position]? = some b ∧ b.event = current_event
  only : ∀ i b, events[i]? = some b → b.event.event_id = current_event.event_id → i = position

/-- The first `k` steps match events of the host, in window order and within the span, the last of them the event at `position`. -/
def Completes (rule : KillChainSequenceRule F) (host_id : String) (events : List BufferedTelemetryEvent) (position k : Nat) : Prop :=
  MIN_PARTIAL_PREFIX_LEN ≤ k ∧ k ≤ rule.steps.length ∧ ∃ positions chosen,
    Occurs ((rule.steps.take k).map (on_host host_id)) rule.max_span_ms events positions chosen ∧ positions.getLast? = some position

theorem host_matches_iff (host_id : String) (actual : Option String) : host_matches (some host_id) actual = (actual == some host_id) := by
  cases actual with
  | none => rfl
  | some actual => rfl

variable {rule : KillChainSequenceRule F} {host_id : String} {events : List BufferedTelemetryEvent} {position : Nat}
  {current_event : TelemetryEvent} {step : KillChainSequenceStep} {index : Nat}

/-- The predicates of a prefix: its steps on the host, and at its end the current event. -/
theorem prefix_predicates_eq (current_event_id : String) (hstep : rule.steps[index]? = some step) :
    prefix_predicates rule host_id current_event_id (index + 1) =
      (rule.steps.take index).map (on_host host_id) ++ [fun event => on_host host_id step event && event.event_id == current_event_id] := by
  obtain ⟨hlt, hget⟩ := List.getElem?_eq_some_iff.1 hstep
  have htake : rule.steps.take (index + 1) = rule.steps.take index ++ [step] := by
    rw [List.take_succ_eq_append_getElem hlt, hget]
  have hearlier : (rule.steps.take index).zipIdx.map (fun x => step_predicate host_id current_event_id (x.2 = index + 1 - 1) x.1) =
      (rule.steps.take index).map (on_host host_id) := by
    refine List.ext_getElem (by simp) fun i hi hi' => ?_
    rw [List.getElem_map, List.getElem_map, List.getElem_zipIdx]
    rw [List.length_map, List.length_take_of_le hlt.le] at hi'
    funext event
    have hne : decide (0 + i = index + 1 - 1) = false := decide_eq_false (by omega)
    show step_predicate host_id current_event_id (decide (0 + i = index + 1 - 1)) _ event = _
    rw [hne, step_predicate, host_matches_iff, on_host, Bool.false_and, Bool.not_false, Bool.and_true]
  rw [prefix_predicates, htake, List.zipIdx_append, List.map_append, hearlier]
  congr 1
  rw [List.length_take_of_le hlt.le]
  refine congrArg (fun p => [p]) (funext fun event => ?_)
  have heq : decide (0 + index = index + 1 - 1) = true := decide_eq_true (by omega)
  show step_predicate host_id current_event_id (decide (0 + index = index + 1 - 1)) step event = _
  rw [heq, step_predicate, host_matches_iff, on_host, Bool.true_and, bne, Bool.not_not]

/-- Asking the last predicate for the current event's id is asking for its position. -/
theorem occurs_anchored_iff {predicates : List TelemetryEventPredicate} {last : TelemetryEventPredicate} {span_ms : Int}
    (hat : At events position current_event) :
    (∃ positions chosen, Occurs (predicates ++ [fun event => last event && event.event_id == current_event.event_id]) span_ms events
      positions chosen) ↔
    ∃ positions chosen, Occurs (predicates ++ [last]) span_ms events positions chosen ∧ positions.getLast? = some position := by
  constructor
  · rintro ⟨positions, chosen, h⟩
    obtain ⟨front, b, rfl, hfront, hb⟩ := forall₂_concat_left_iff.1 h.satisfied
    obtain ⟨hlast, hid⟩ := Bool.and_eq_true_iff.1 hb
    obtain ⟨before, i, rfl, -, hi⟩ := forall₂_concat_left_iff.1 h.found.flip
    refine ⟨_, _, { h with satisfied := forall₂_concat_left_iff.2 ⟨front, b, rfl, hfront, hlast⟩ }, ?_⟩
    rw [List.getLast?_concat, hat.only i b hi (beq_iff_eq.1 hid)]
  · rintro ⟨positions, chosen, h, hend⟩
    obtain ⟨front, b, rfl, hfront, hlast⟩ := forall₂_concat_left_iff.1 h.satisfied
    obtain ⟨before, i, rfl, -, hi⟩ := forall₂_concat_left_iff.1 h.found.flip
    rw [List.getLast?_concat] at hend
    cases hend
    obtain ⟨b', hb', hevent⟩ := hat.here
    cases hi.symm.trans hb'
    refine ⟨_, _, { h with satisfied := forall₂_concat_left_iff.2 ⟨front, b, rfl, hfront, ?_⟩ }⟩
    rw [hevent] at hlast ⊢
    exact Bool.and_eq_true_iff.2 ⟨hlast, beq_self_eq_true _⟩

/-- A prefix that is complete ends with a step that the current event matches. -/
theorem Completes.step_matches {k : Nat} (h : Completes rule host_id events position k) (hat : At events position current_event)
    (hstep : rule.steps[k - 1]? = some step) : step.matches current_event = true := by
  obtain ⟨hmin, hlen, positions, chosen, hoccurs, hend⟩ := h
  obtain ⟨n, rfl⟩ : ∃ n, k = n + 1 := ⟨k - 1, by unfold MIN_PARTIAL_PREFIX_LEN at hmin; omega⟩
  obtain ⟨hlt, hget⟩ := List.getElem?_eq_some_iff.1 hstep
  have hsatisfied := hoccurs.satisfied
  rw [List.take_succ_eq_append_getElem (Nat.lt_of_succ_le hlen), List.map_append] at hsatisfied
  obtain ⟨front, b, rfl, -, hb⟩ := forall₂_concat_left_iff.1 hsatisfied
  obtain ⟨before, i, rfl, -, hi⟩ := forall₂_concat_left_iff.1 hoccurs.found.flip
  rw [List.getLast?_concat] at hend
  cases hend
  obtain ⟨b', hb', hevent⟩ := hat.here
  cases hi.symm.trans hb'
  rw [← hevent, ← hget]
  exact (Bool.and_eq_true_iff.1 hb).2

/-- What the window's limits leave of the prefixes. -/
structure Allowed (config : TemporalEventWindowConfig) (rule : KillChainSequenceRule F) (k : Nat) : Prop where
  count : k ≤ config.max_predicates_per_match
  span : rule.max_span_ms ≤ config.max_match_span_ms.toInt

section
variable {config : TemporalEventWindowConfig} {arrived : List TelemetryEvent} {window : TemporalEventWindowState}

/-- A prefix is found when and only when it is complete and the window allows the query. -/
theorem match_prefix_isSome_iff (hholds : Carries config arrived window) (hat : At window.events position current_event)
    (hspan : 0 < rule.max_span_ms) (hstep : rule.steps[index]? = some step) :
    (∃ r, match_prefix rule config window current_event host_id step index = some r) ↔
      Completes rule host_id window.events position (index + 1) ∧ Allowed config rule (index + 1) := by
  obtain ⟨hlt, hget⟩ := List.getElem?_eq_some_iff.1 hstep
  have htake : (rule.steps.take (index + 1)).map (on_host host_id) = (rule.steps.take index).map (on_host host_id) ++ [on_host host_id step] := by
    rw [List.take_succ_eq_append_getElem hlt, hget, List.map_append]
    rfl
  have hpredicates : prefix_predicates rule host_id current_event.event_id (index + 1) = _ :=
    prefix_predicates_eq current_event.event_id hstep
  have hlen : (prefix_predicates rule host_id current_event.event_id (index + 1)).length = index + 1 := by
    rw [hpredicates, List.length_append, List.length_map, List.length_take_of_le hlt.le]
    rfl
  have hadmissible : Admissible config (prefix_predicates rule host_id current_event.event_id (index + 1)) rule.max_span_ms ↔
      Allowed config rule (index + 1) := by
    constructor
    · rintro ⟨-, hcount, -, hlimit⟩
      exact ⟨hlen ▸ hcount, hlimit⟩
    · rintro ⟨hcount, hlimit⟩
      exact ⟨List.ne_nil_of_length_eq_add_one hlen, hlen.trans_le hcount, hspan, hlimit⟩
  have hcomplete : Completes rule host_id window.events position (index + 1) ↔ MIN_PARTIAL_PREFIX_LEN ≤ index + 1 ∧
      ∃ positions chosen, Occurs (prefix_predicates rule host_id current_event.event_id (index + 1)) rule.max_span_ms window.events
        positions chosen := by
    rw [hpredicates, occurs_anchored_iff hat, Completes, htake]
    exact ⟨fun h => ⟨h.1, h.2.2⟩, fun h => ⟨h.1, hlt, h.2⟩⟩
  by_cases hmatches : step.matches current_event = true
  · by_cases hmin : MIN_PARTIAL_PREFIX_LEN ≤ index + 1
    · rw [ match_prefix, hmatches, if_neg (by decide), if_neg (not_lt.2 hmin)]
      by_cases hallowed : Allowed config rule (index + 1)
      · have ha := hadmissible.2 hallowed
        have hanswers := hholds.answers ha
        rw [ha.match_ordered window rfl]
        constructor
        · intro h
          cases hm : matched window rule.max_span_ms (prefix_predicates rule host_id current_event.event_id (index + 1)) with
          | none =>
            rw [hm] at h
            obtain ⟨r, hr⟩ := h
            cases hr
          | some m => exact ⟨hcomplete.2 ⟨hmin, hanswers.isSome_iff.1 (by rw [hm]; rfl)⟩, hallowed⟩
        · rintro ⟨hc, -⟩
          obtain ⟨m, hm⟩ := Option.isSome_iff_exists.1 (hanswers.isSome_iff.2 (hcomplete.1 hc).2)
          rw [hm]
          exact ⟨_, rfl⟩
      · obtain ⟨e, he⟩ := @match_ordered_refused config rule.max_span_ms _ window (some rule.max_span_ms) rfl (mt hadmissible.1 hallowed)
        rw [he]
        constructor
        · rintro ⟨r, hr⟩
          cases hr
        · exact fun h => absurd h.2 hallowed
    · rw [ match_prefix, hmatches, if_neg (by decide), if_pos (not_le.1 hmin)]
      constructor
      · rintro ⟨r, hr⟩
        cases hr
      · exact fun h => absurd h.1.1 hmin
  · rw [ match_prefix, Bool.eq_false_iff.2 hmatches]
    constructor
    · rintro ⟨r, hr⟩
      cases hr
    · exact fun h => absurd (h.1.step_matches hat hstep) hmatches

theorem match_prefix_len {r : Nat × OrderedTemporalEventMatch}
    (h : match_prefix rule config window current_event host_id step index = some r) : r.1 = index + 1 := by
  unfold match_prefix at h
  split at h
  · cases h
  · split at h
    · cases h
    · split at h
      · cases h
        rfl
      · cases h

end

/-- The rules that are read have a span. -/
theorem span_of_validate {rule_set : KillChainSequenceRuleSet F} {path : String} (hvalid : validate_rule_set confidences rule_set path = .ok ())
    (hrule : rule ∈ rule_set.rules) : 0 < rule.max_span_ms := by
  unfold validate_rule_set at hvalid
  split at hvalid
  · cases hvalid
  · split at hvalid
    · cases hvalid
    · next hnone =>
      have hproblem := List.findSome?_eq_none_iff.1 hnone rule hrule
      by_contra hspan
      unfold rule_problem at hproblem
      rw [if_pos (not_lt.1 hspan)] at hproblem
      repeat' split at hproblem
      all_goals cases hproblem

section
variable {config : TemporalEventWindowConfig} {arrived : List TelemetryEvent} {window : TemporalEventWindowState}

/-- What is reported is the longest of the complete prefixes that the window allows. -/
theorem evaluate_rule_cases (hholds : Carries config arrived window) (hat : At window.events position current_event)
    (hspan : 0 < rule.max_span_ms) (hhost : current_event.host_id = some host_id) (strategy_id : String) :
    (evaluate_rule confidences rule strategy_id config window current_event = none ∧
      ∀ k, Completes rule host_id window.events position k → ¬ Allowed config rule k) ∨
    ∃ finding k, evaluate_rule confidences rule strategy_id config window current_event = some finding ∧
      finding.evidence.matched_prefix_len = k ∧ Completes rule host_id window.events position k ∧ Allowed config rule k ∧
      ∀ k', k < k' → Completes rule host_id window.events position k' → ¬ Allowed config rule k' := by
  have htried : ∀ k, Completes rule host_id window.events position k → Allowed config rule k → ∃ step index,
      rule.steps[index]? = some step ∧ index + 1 = k ∧ ∃ r, match_prefix rule config window current_event host_id step index = some r := by
    intro k hk hallowed
    have hmin : 2 ≤ k := hk.1
    have hlen := hk.2.1
    obtain ⟨index, rfl⟩ : ∃ index, k = index + 1 := ⟨k - 1, by omega⟩
    have hstep : rule.steps[index]? = some rule.steps[index] := List.getElem?_eq_getElem hlen
    exact ⟨_, index, hstep, rfl, (match_prefix_isSome_iff hholds hat hspan hstep).2 ⟨hk, hallowed⟩⟩
  have hevaluate : evaluate_rule confidences rule strategy_id config window current_event =
      (rule.steps.zipIdx.reverse.findSome? fun x => match_prefix rule config window current_event host_id x.1 x.2).map
        fun r => render_finding confidences rule strategy_id current_event r.1 r.2 := by
    unfold evaluate_rule
    rw [hhost]
    show Option.bind _ _ = _
    rw [Option.map_eq_bind]
    rfl
  rw [hevaluate]
  cases hsearch : rule.steps.zipIdx.reverse.findSome? fun x => match_prefix rule config window current_event host_id x.1 x.2 with
  | none =>
    refine .inl ⟨rfl, fun k hk hallowed => ?_⟩
    obtain ⟨step, index, hstep, -, r, hr⟩ := htried k hk hallowed
    rw [findSome?_zipIdx_reverse_none hsearch hstep] at hr
    cases hr
  | some r =>
    obtain ⟨step, index, hstep, hr, hlater⟩ := findSome?_zipIdx_reverse hsearch
    obtain ⟨hcomplete, hallowed⟩ := (match_prefix_isSome_iff hholds hat hspan hstep).1 ⟨r, hr⟩
    refine .inr ⟨_, index + 1, rfl, match_prefix_len hr, hcomplete, hallowed, fun k' hlt hk' hallowed' => ?_⟩
    obtain ⟨step', index', hstep', rfl, r', hr'⟩ := htried k' hk' hallowed'
    rw [hlater step' index' (Nat.lt_of_succ_lt_succ hlt) hstep'] at hr'
    cases hr'

end

/-- A report of the longest complete prefix, or of nothing where none is complete. -/
def ReportsLongest (complete : Nat → Prop) : Option (DetectionFinding F) → Prop
  | none => ∀ k, ¬ complete k
  | some finding => complete finding.evidence.matched_prefix_len ∧ ∀ k, complete k → k ≤ finding.evidence.matched_prefix_len

/-- An accepted rule reports the longest complete prefix exactly when the window allows every complete prefix. -/
theorem evaluate_rule_longest_iff {rule_set : KillChainSequenceRuleSet F} {path : String}
    (hvalid : validate_rule_set confidences rule_set path = .ok ()) (hrule : rule ∈ rule_set.rules) (strategy_id : String)
    (config : TemporalEventWindowConfig) {arrived : List TelemetryEvent} {window : TemporalEventWindowState}
    (hrun : TemporalEventWindowState.record_all config arrived = some window) (hhost : current_event.host_id = some host_id)
    (hat : At window.events position current_event) :
    ReportsLongest (Completes rule host_id window.events position) (evaluate_rule confidences rule strategy_id config window current_event) ↔
      ∀ k, Completes rule host_id window.events position k → Allowed config rule k := by
  have hcases := evaluate_rule_cases confidences (holds_of_record_all hrun) hat (span_of_validate confidences hvalid hrule) hhost strategy_id
  rcases hcases with ⟨heq, hnone⟩ | ⟨finding, k, heq, rfl, hcomplete, hallowed, hlonger⟩
  · rw [heq]
    exact ⟨fun h k hk => absurd hk (h k), fun h k hk => hnone k hk (h k hk)⟩
  · rw [heq]
    constructor
    · rintro ⟨-, hlongest⟩ k hk
      exact ⟨(hlongest k hk).trans hallowed.count, hallowed.span⟩
    · exact fun h => ⟨hcomplete, fun k hk => not_lt.1 fun hlt => hlonger k hlt hk (h k hk)⟩

end

/-! ## A rule with a longer span than the window's -/

namespace Small

def confidences : Confidences Rat where
  in_unit c := 0 ≤ c && c ≤ 1
  partial_confidence c matched_steps total_steps := max 0.35 (min (c * (matched_steps / total_steps) * 0.8) (max (c - 0.05) 0.35))

/-- A failed login, then one that succeeds. -/
def break_in (max_span_ms : Int) : KillChainSequenceRule Rat where
  id := "break_in"
  name := "Break-in"
  description := "A login that fails, then one that succeeds"
  threat_class := .CredentialAccess
  severity := .High
  confidence := 0.9
  max_span_ms
  attack_chain := [⟨"T1110", "Brute Force", "credential_access"⟩, ⟨"T1078", "Valid Accounts", "initial_access"⟩]
  steps := [
    { kind := .AuthenticationEvent, success := some false },
    { kind := .AuthenticationEvent, success := some true }]

theorem at_last : At window.events 2 (login "c" 1700000060 true) where
  here := ⟨_, rfl, rfl⟩
  only i b hi hid := by
    match i with
    | 0 =>
      cases hi
      exact absurd hid (by decide +kernel)
    | 1 =>
      cases hi
      exact absurd hid (by decide +kernel)
    | 2 => rfl
    | i + 3 => cases hi

end Small

theorem evaluate_break_in_iff :
    ReportsLongest (Completes (Small.break_in 300000) "host-1" Small.window.events 2)
        (evaluate_rule Small.confidences (Small.break_in 300000) "kill_chain_sequence" Small.window_config Small.window
          (Small.login "c" 1700000060 true)) ↔
      ∀ k, Completes (Small.break_in 300000) "host-1" Small.window.events 2 k → Allowed Small.window_config (Small.break_in 300000) k := by
  have hvalid : validate_rule_set Small.confidences ⟨[Small.break_in 300000]⟩ "rules.yaml" = .ok () := by decide +kernel
  exact evaluate_rule_longest_iff Small.confidences hvalid (List.mem_singleton.2 rfl) "kill_chain_sequence" Small.window_config
    Small.recorded rfl Small.at_last

/-- The rule is accepted and its two steps happened within a minute, but nothing is reported. -/
theorem accepted_rule_cannot_fire :
    validate_rule_set Small.confidences ⟨[Small.break_in 600000]⟩ "rules.yaml" = .ok () ∧
      ¬ ReportsLongest (Completes (Small.break_in 600000) "host-1" Small.window.events 2)
        (evaluate_rule Small.confidences (Small.break_in 600000) "kill_chain_sequence" Small.window_config Small.window
          (Small.login "c" 1700000060 true)) := by
  refine ⟨by decide +kernel, fun h => ?_⟩
  have hnone : evaluate_rule Small.confidences (Small.break_in 600000) "kill_chain_sequence" Small.window_config Small.window
      (Small.login "c" 1700000060 true) = none := Option.isNone_iff_eq_none.1 (by decide +kernel)
  rw [hnone] at h
  refine h 2 ⟨by decide, by decide, [0, 2], [⟨1, 1700000000000, Small.login "a" 1700000000 false⟩,
    ⟨2, 1700000060000, Small.login "c" 1700000060 true⟩], ?_, rfl⟩
  constructor
  · decide
  · exact .cons rfl (.cons rfl .nil)
  · exact .cons (by decide +kernel) (.cons (by decide +kernel) .nil)
  · rintro _ ⟨⟩ _ ⟨⟩
    decide

end Ambush.Runtime

import Ambush.Lib.Ints
import Ambush.Lib.Runs
import Ambush.Pheromone.Journal
/-!
# The concentration monitor

`evaluate_all` asks the substrate about every threat class, raises the swarm mode or, after
a quiet time, takes it back to normal, and at its end stores the mode where the rest of the
runtime reads it. Each of its calls of the substrate can fail and ends it there, with the
changes it has made so far.
-/
open Lib

namespace Ambush.Runtime
open Ambush.Bridge (ThreatClass SwarmMode)
open Ambush.Pheromone (PheromoneConfig PheromoneConcentration ThreatClassConfig EscalationRecord)

/-! ## Swarm modes -/

/-- The derived order is the order of the variants. -/
def mode_rank : SwarmMode → Nat
  | .Normal => 0
  | .Alert => 1
  | .Incident => 2

structure SwarmModeState where
  current : SwarmMode
  last_transition_at : Option Int
  triggering_threat_class : Option ThreatClass
  deriving DecidableEq

namespace SwarmModeState

def new : SwarmModeState := ⟨.Normal, none, none⟩

def transition_to (s : SwarmModeState) (mode : SwarmMode) (threat_class : ThreatClass) (now : Int) : SwarmModeState × Bool :=
  if mode_rank mode ≤ mode_rank s.current then (s, false) else (⟨mode, some now, some threat_class⟩, true)

def transition_down (s : SwarmModeState) (mode : SwarmMode) (now : Int) : SwarmModeState × Bool :=
  if mode_rank s.current ≤ mode_rank mode then (s, false) else (⟨mode, some now, none⟩, true)

end SwarmModeState

/-! ## Events -/

section
variable {F : Type}

inductive EscalationEvent (F : Type) where
  | Alert (threat_class : ThreatClass) (total_strength : F) (distinct_sources : Nat) (peak_confidence : F) (timestamp : Int)
  | Incident (threat_class : ThreatClass) (total_strength : F) (distinct_sources : Nat) (peak_confidence : F) (timestamp : Int)

def event_mode : EscalationEvent F → SwarmMode
  | .Alert .. => .Alert
  | .Incident .. => .Incident

def event_threat_class : EscalationEvent F → ThreatClass
  | .Alert threat_class .. | .Incident threat_class .. => threat_class

def escalation_record : EscalationEvent F → EscalationRecord F
  | .Alert threat_class total_strength distinct_sources peak_confidence timestamp =>
    ⟨.Alert, threat_class, total_strength, distinct_sources, peak_confidence, timestamp⟩
  | .Incident threat_class total_strength distinct_sources peak_confidence timestamp =>
    ⟨.Incident, threat_class, total_strength, distinct_sources, peak_confidence, timestamp⟩

/-- What the monitor publishes of `RuntimeEvent`. -/
inductive MonitorEvent (F : Type) where
  | Escalation (emitted_at_ms : Int) (event : EscalationEvent F) (mode_changed : Bool) (current_mode : SwarmMode)
  | ModeTransition (emitted_at_ms : Int) (source target : SwarmMode) (triggering_threat_class : Option ThreatClass)
      (reason : String)
  | ConcentrationSnapshot (emitted_at_ms : Int) (current_mode : SwarmMode) (concentrations : List (PheromoneConcentration F))

/-- The modes of a published transition. -/
def MonitorEvent.transition : MonitorEvent F → Option (SwarmMode × SwarmMode)
  | .ModeTransition _ source target _ _ => some (source, target)
  | _ => none

/-! ## The substrate and the monitor -/

/-- What the substrate answers during one evaluation, which asks for each class once where it evaluates and once where it takes the
snapshot, once for the class that is resolved, and records each mode at most once. `now_ms` is the clock at each publication. -/
structure SubstrateAnswers (E F : Type) where
  query_threat_class_config : ThreatClass → Except E (Option (ThreatClassConfig F))
  query_concentration : ThreatClass → Except E (PheromoneConcentration F)
  resolved_concentration : ThreatClass → Except E (PheromoneConcentration F)
  snapshot_concentration : ThreatClass → Except E (PheromoneConcentration F)
  record_escalation : EscalationRecord F → Except E Unit
  now_ms : Nat → Int

/-- A change of `mode_state.current`, with the class that triggered the higher mode. -/
structure ModeChange where
  source : SwarmMode
  target : SwarmMode
  threat_class : Option ThreatClass
  changed_at : Option Int
  deriving DecidableEq

/-- `accepted` are the records the substrate has accepted; `changes` is the history of `mode_state.current`, which the source does not
keep. -/
structure ConcentrationMonitor (F : Type) where
  config : PheromoneConfig F
  mode_state : SwarmModeState
  below_threshold_since : Option Int
  shared_mode_state : Option SwarmModeState
  runtime_events : Option (List (MonitorEvent F))
  escalated_classes : List ThreatClass
  accepted : List (EscalationRecord F)
  changes : List ModeChange

structure EscalationOutcome (F : Type) where
  events : List (EscalationEvent F)
  mode_changed : Bool
  current_mode : SwarmMode

def standard_threat_classes : List ThreatClass :=
  [.LateralMovement, .DataExfiltration, .PrivilegeEscalation, .CommandAndControl, .InitialAccess, .Persistence,
    .SupplyChain, .DefenseEvasion, .CredentialAccess, .Discovery, .Execution, .Impact]

namespace ConcentrationMonitor

def new (config : PheromoneConfig F) : ConcentrationMonitor F := ⟨config, .new, none, none, none, [], [], []⟩

def with_shared_mode_state (m : ConcentrationMonitor F) : ConcentrationMonitor F := { m with shared_mode_state := some m.mode_state }

def with_runtime_events (m : ConcentrationMonitor F) : ConcentrationMonitor F := { m with runtime_events := some [] }

def sync_shared_mode_state (m : ConcentrationMonitor F) : ConcentrationMonitor F :=
  { m with shared_mode_state := m.shared_mode_state.map (fun _ => m.mode_state) }

def publish (m : ConcentrationMonitor F) (now_ms : Nat → Int) (event : Int → MonitorEvent F) : ConcentrationMonitor F :=
  { m with runtime_events := m.runtime_events.map (fun events => events ++ [event (now_ms events.length)]) }

def set_mode_state (m : ConcentrationMonitor F) (state : SwarmModeState) : ConcentrationMonitor F :=
  { m with
    mode_state := state
    changes :=
      if state.current = m.mode_state.current then m.changes
      else m.changes ++ [⟨m.mode_state.current, state.current,
        state.triggering_threat_class.or m.mode_state.triggering_threat_class, state.last_transition_at⟩] }

def accept (m : ConcentrationMonitor F) (record : EscalationRecord F) : ConcentrationMonitor F :=
  { m with accepted := m.accepted ++ [record] }

end ConcentrationMonitor

variable {E : Type} [LE F] [DecidableLE F]

def exceeds_threshold (c : PheromoneConcentration F) (strength_threshold : F) (min_sources : Nat) : Bool :=
  strength_threshold ≤ c.total_strength && min_sources ≤ c.distinct_sources

def evaluate_threat_class (config : PheromoneConfig F) (answers : SubstrateAnswers E F) (threat_class : ThreatClass) (now : Int) :
    Except E (Option (EscalationEvent F)) := do
  let threat_class_config ← answers.query_threat_class_config threat_class
  let policy := config.resolve_threat_class_policy threat_class_config
  let c ← answers.query_concentration threat_class
  if exceeds_threshold c policy.incident_threshold policy.min_sources_for_escalation then
    return some (.Incident c.threat_class c.total_strength c.distinct_sources c.peak_confidence now)
  if exceeds_threshold c policy.alert_threshold policy.min_sources_for_escalation then
    return some (.Alert c.threat_class c.total_strength c.distinct_sources c.peak_confidence now)
  return none

/-- The local variables of `evaluate_all` in its loop. -/
structure Evaluation (F : Type) where
  monitor : ConcentrationMonitor F
  events : List (EscalationEvent F) := []
  mode_changed : Bool := false
  now_escalated : List ThreatClass := []

/-- An event above the current mode: the record, the mode, and the publication of the transition. -/
def raise_mode (m : ConcentrationMonitor F) (answers : SubstrateAnswers E F) (event : EscalationEvent F) (now : Int) :
    ConcentrationMonitor F × Except E Bool :=
  if mode_rank m.mode_state.current < mode_rank (event_mode event) then
    match answers.record_escalation (escalation_record event) with
    | .error e => (m, .error e)
    | .ok () =>
      let raised := (m.accept (escalation_record event)).set_mode_state
        (m.mode_state.transition_to (event_mode event) (event_threat_class event) now).1
      (raised.publish answers.now_ms (fun at_ms =>
        .ModeTransition at_ms m.mode_state.current (event_mode event) (some (event_threat_class event)) "threshold_crossed"), .ok true)
  else (m, .ok false)

/-- The loop over the threat classes. -/
def evaluate_classes (answers : SubstrateAnswers E F) (now : Int) (previously_escalated : List ThreatClass) :
    Evaluation F → List ThreatClass → Evaluation F × Except E Unit
  | l, [] => (l, .ok ())
  | l, threat_class :: rest =>
    match evaluate_threat_class l.monitor.config answers threat_class now with
    | .error e => (l, .error e)
    | .ok none => evaluate_classes answers now previously_escalated l rest
    | .ok (some event) =>
      let held_above := previously_escalated.contains (event_threat_class event)
      match raise_mode l.monitor answers event now with
      | (m, .error e) => ({ l with monitor := m }, .error e)
      | (m, .ok event_mode_changed) =>
        let m := if !held_above || event_mode_changed then
          m.publish answers.now_ms (fun at_ms => .Escalation at_ms event event_mode_changed m.mode_state.current)
        else m
        evaluate_classes answers now previously_escalated
          { monitor := m
            events := l.events ++ [event]
            mode_changed := l.mode_changed || event_mode_changed
            now_escalated := l.now_escalated.insert (event_threat_class event) } rest

/-- The record of a return to normal, when a class is resolved by it. -/
def record_resolution (m : ConcentrationMonitor F) (answers : SubstrateAnswers E F) (resolved : Option ThreatClass) (now : Int) :
    ConcentrationMonitor F × Except E Unit :=
  match resolved with
  | none => (m, .ok ())
  | some threat_class =>
    match answers.resolved_concentration threat_class with
    | .error e => (m, .error e)
    | .ok c =>
      let record : EscalationRecord F := ⟨.Normal, threat_class, c.total_strength, c.distinct_sources, c.peak_confidence, now⟩
      match answers.record_escalation record with
      | .error e => (m, .error e)
      | .ok () => (m.accept record, .ok ())

/-- The mode goes back to normal before the return is recorded and published. -/
def lower_mode (m : ConcentrationMonitor F) (answers : SubstrateAnswers E F) (state : SwarmModeState) (now : Int) :
    ConcentrationMonitor F × Except E Bool :=
  match record_resolution (m.set_mode_state state) answers m.mode_state.triggering_threat_class now with
  | (lowered, .error e) => (lowered, .error e)
  | (lowered, .ok ()) =>
    let published := lowered.publish answers.now_ms (fun at_ms =>
      .ModeTransition at_ms m.mode_state.current .Normal none "deescalation_cooldown_elapsed")
    ({ published with below_threshold_since := none }, .ok true)

/-- No class is above its threshold. `none` is the panic of an overflowing subtraction. -/
def settle (m : ConcentrationMonitor F) (answers : SubstrateAnswers E F) (now : Int) :
    Option (ConcentrationMonitor F × Except E Bool) :=
  if m.mode_state.current = .Normal then some ({ m with below_threshold_since := none }, .ok false)
  else
    let quiet_since := m.below_threshold_since.getD now
    let quiet := { m with below_threshold_since := some quiet_since }
    match checkedSubI now quiet_since with
    | none => none
    | some elapsed =>
      let (state, moved) := m.mode_state.transition_down .Normal now
      if m.config.deescalation_cooldown_secs ≤ elapsed && moved then some (lower_mode quiet answers state now)
      else some (quiet, .ok false)

def snapshot_concentrations (answers : SubstrateAnswers E F) : Except E (List (PheromoneConcentration F)) :=
  standard_threat_classes.mapM answers.snapshot_concentration

/-- The snapshot and the store of the mode. -/
def finish (m : ConcentrationMonitor F) (answers : SubstrateAnswers E F) (events : List (EscalationEvent F)) (mode_changed : Bool) :
    ConcentrationMonitor F × Except E (EscalationOutcome F) :=
  match snapshot_concentrations answers with
  | .error e => (m, .error e)
  | .ok concentrations =>
    let m := (m.publish answers.now_ms (fun at_ms => .ConcentrationSnapshot at_ms m.mode_state.current concentrations)).sync_shared_mode_state
    (m, .ok ⟨events, mode_changed, m.mode_state.current⟩)

def evaluate_all (m : ConcentrationMonitor F) (answers : SubstrateAnswers E F) (now : Int) :
    Option (ConcentrationMonitor F × Except E (EscalationOutcome F)) :=
  match evaluate_classes answers now m.escalated_classes { monitor := { m with escalated_classes := [] } } standard_threat_classes with
  | (l, .error e) => some (l.monitor, .error e)
  | (l, .ok ()) =>
    let m := { l.monitor with escalated_classes := l.now_escalated }
    if l.events.isEmpty then
      match settle m answers now with
      | none => none
      | some (m, .error e) => some (m, .error e)
      | some (m, .ok lowered) => some (finish m answers l.events (l.mode_changed || lowered))
    else some (finish { m with below_threshold_since := none } answers l.events l.mode_changed)

end
end Ambush.Runtime

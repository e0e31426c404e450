import Ambush.Lib.Maps
import Ambush.Lib.Tables
import Ambush.Policy.Gate
import Ambush.Bridge.Events
import Mathlib
/-!
# Pheromone deposits

The deposits of the substrate, the concentration of a threat class and the slice the
operator console reads. A deposit's strength decays; a `dismiss` marker, itself a deposit,
takes the deposits of its event out of both. `F` stands for `f64`, and of a deposit's
strength only that it does not grow is used.
-/
open Lib

namespace Ambush.Pheromone
open Ambush.Bridge (ThreatClass)

structure PheromoneDeposit (F : Type) where
  schema_version : Nat := 2
  indicator : Value
  threat_class : ThreatClass
  severity : Severity
  confidence : F
  timestamp : Int
  decay_half_life : F
  agent_id : String
  deriving DecidableEq

structure ThreatClassConfig (F : Type) where
  threat_class : ThreatClass
  half_life_secs : F
  evaporation_threshold : F
  alert_threshold : F
  incident_threshold : F
  deriving DecidableEq

structure ThreatClassPolicy (F : Type) where
  half_life_secs : F
  evaporation_threshold : F
  min_sources_for_escalation : Nat
  alert_threshold : F
  incident_threshold : F
  deriving DecidableEq

structure PheromoneConfig (F : Type) where
  default_half_life_secs : F
  evaporation_threshold : F
  min_sources_for_escalation : Nat
  alert_threshold : F
  incident_threshold : F
  deescalation_cooldown_secs : Int := 300

structure PheromoneConcentration (F : Type) where
  threat_class : ThreatClass
  total_strength : F
  distinct_sources : Nat
  peak_confidence : F
  deriving DecidableEq

def PheromoneConfig.resolve_threat_class_policy {F : Type} (config : PheromoneConfig F)
    (override_config : Option (ThreatClassConfig F)) : ThreatClassPolicy F where
  half_life_secs := (override_config.map (·.half_life_secs)).getD config.default_half_life_secs
  evaporation_threshold := (override_config.map (·.evaporation_threshold)).getD config.evaporation_threshold
  min_sources_for_escalation := config.min_sources_for_escalation
  alert_threshold := (override_config.map (·.alert_threshold)).getD config.alert_threshold
  incident_threshold := (override_config.map (·.incident_threshold)).getD config.incident_threshold

/-- `strength_at`, which does not grow with time. -/
structure Decay (F : Type) [Preorder F] where
  strength_at : PheromoneDeposit F → Int → F
  antitone : ∀ deposit, Antitone (strength_at deposit)

/-- `Iterator::max_by_key`: the last of the greatest. -/
def max_by_key {α : Type} (key : α → Int) (l : List α) : Option α :=
  l.foldl (fun best x => if best.all (fun b => key b ≤ key x) then some x else best) none

/-! ## Feedback markers -/

structure FeedbackSuppressionKey where
  threat_class : ThreatClass
  event_id : String
  deriving DecidableEq

inductive FeedbackSuppressionState where
  | Confirm | Dismiss
  deriving DecidableEq

def SWARM_PROVIDENCE_FEEDBACK_SCHEMA : String := "swarm_providence_feedback"

/-- `str::trim`. -/
def trim (s : String) : String :=
  String.ofList ((s.toList.dropWhile Policy.is_whitespace).reverse.dropWhile Policy.is_whitespace).reverse

/-- A text field of an indicator. -/
def text (indicator : Value) (key : String) : Option String := (indicator.get key).bind Value.as_str

section
variable {F : Type}

def is_providence_feedback_deposit (deposit : PheromoneDeposit F) : Bool :=
  text deposit.indicator "schema" == some SWARM_PROVIDENCE_FEEDBACK_SCHEMA

def feedback_suppression_marker (deposit : PheromoneDeposit F) :
    Option (FeedbackSuppressionKey × FeedbackSuppressionState) :=
  if is_providence_feedback_deposit deposit then do
    let event_id ← text deposit.indicator "event_id"
    let action ← text deposit.indicator "action"
    let state ←
      if trim action == "confirm" then some FeedbackSuppressionState.Confirm
      else if trim action == "dismiss" then some .Dismiss
      else none
    some (⟨deposit.threat_class, event_id⟩, state)
  else none

def deposit_suppression_key (deposit : PheromoneDeposit F) : Option FeedbackSuppressionKey :=
  (text deposit.indicator "event_id").map (⟨deposit.threat_class, ·⟩)

abbrev Suppression := Map FeedbackSuppressionKey (FeedbackSuppressionState × Int)

def latest_feedback_suppression_states (deposits : List (PheromoneDeposit F)) : Suppression :=
  deposits.foldl (fun states deposit =>
    match feedback_suppression_marker deposit with
    | none => states
    | some (key, state) =>
      if (states key).all (fun s => s.2 ≤ deposit.timestamp) then states.insert key (state, deposit.timestamp) else states)
    Map.empty

def is_suppressed_by_feedback (deposit : PheromoneDeposit F) (suppression : Suppression) : Bool :=
  if is_providence_feedback_deposit deposit then false
  else
    match deposit_suppression_key deposit with
    | none => false
    | some key => (suppression key).any (fun s => s.1 = .Dismiss && deposit.timestamp ≤ s.2)

def analyst_id_for_marker (deposits : List (PheromoneDeposit F)) (key : FeedbackSuppressionKey) : Option String :=
  (max_by_key (·.timestamp)
    (deposits.filter (fun deposit => (feedback_suppression_marker deposit).any (·.1 = key)))).bind
      (fun deposit => text deposit.indicator "analyst_id")

/-! ## The concentration and the slice -/

variable [LinearOrder F] (decay : Decay F)

def is_evaporated (deposit : PheromoneDeposit F) (now : Int) (threshold : F) : Bool := decay.strength_at deposit now < threshold

/-- The sum, the sources and the peak so far. -/
structure Summed (F : Type) where
  total_strength : F
  sources : List String
  peak_confidence : F

variable [Zero F] [Add F]

/-- A deposit that has not evaporated, in the loop of `concentration_for`. -/
def sum_row (suppressed : PheromoneDeposit F → Bool) (now : Int) (acc : Summed F) (deposit : PheromoneDeposit F) : Summed F :=
  if suppressed deposit then acc
  else if decay.strength_at deposit now ≤ 0 then acc
  else {
    total_strength := acc.total_strength + decay.strength_at deposit now
    peak_confidence := max acc.peak_confidence deposit.confidence
    sources := acc.sources.insert deposit.agent_id }

def concentration_for (deposits : List (PheromoneDeposit F)) (threat_class : ThreatClass) (now : Int)
    (policy : ThreatClassPolicy F) : PheromoneConcentration F :=
  let suppression := latest_feedback_suppression_states deposits
  let summed : Summed F := (deposits.filter (·.threat_class = threat_class)).foldl (fun acc deposit =>
    if is_evaporated decay deposit now policy.evaporation_threshold then acc
    else sum_row decay (is_suppressed_by_feedback · suppression) now acc deposit) ⟨0, [], 0⟩
  ⟨threat_class, summed.total_strength, summed.sources.length, summed.peak_confidence⟩

structure PerchSuppressionRecord where
  event_id : String
  threat_class : ThreatClass
  marker_timestamp : Int
  removed_deposit_count : Nat
  analyst_id : Option String
  deriving DecidableEq

structure PerchDepositSlice (F : Type) where
  kept : List (PheromoneDeposit F)
  suppressed : List PerchSuppressionRecord
  source_ids : List String
  deriving DecidableEq

/-- The rows, the sources and how many rows each event's marker removed, so far. -/
structure Sliced (F : Type) where
  kept : List (PheromoneDeposit F)
  sources : List (String × Unit)
  removed : List (String × Nat)

/-- A deposit that has not evaporated, in the loop of `perch_deposit_slice`. -/
def slice_row (suppressed : PheromoneDeposit F → Bool) (now : Int) (acc : Sliced F) (deposit : PheromoneDeposit F) : Sliced F :=
  if suppressed deposit then
    match text deposit.indicator "event_id" with
    | some event_id => { acc with removed := upsert event_id 0 (· + 1) acc.removed }
    | none => acc
  else if decay.strength_at deposit now ≤ 0 then acc
  else { acc with
    sources := upsert deposit.agent_id () id acc.sources
    kept := acc.kept ++ [deposit] }

/-- One record for each marker that removed something; all of one class. -/
def suppression_records (deposits : List (PheromoneDeposit F)) (threat_class : ThreatClass) (suppression : Suppression)
    (removed : List (String × Nat)) : List PerchSuppressionRecord :=
  removed.filterMap (fun entry =>
    (suppression ⟨threat_class, entry.1⟩).map (fun s =>
      ⟨entry.1, threat_class, s.2, entry.2, analyst_id_for_marker deposits ⟨threat_class, entry.1⟩⟩))

def perch_deposit_slice (deposits : List (PheromoneDeposit F)) (threat_class : ThreatClass) (now : Int)
    (policy : ThreatClassPolicy F) : PerchDepositSlice F :=
  let suppression := latest_feedback_suppression_states deposits
  let sliced : Sliced F := (deposits.filter (·.threat_class = threat_class)).foldl (fun acc deposit =>
    if is_evaporated decay deposit now policy.evaporation_threshold then acc
    else slice_row decay (is_suppressed_by_feedback · suppression) now acc deposit) ⟨[], [], []⟩
  { kept := sliced.kept.mergeSort (fun a b => b.timestamp ≤ a.timestamp)
    suppressed := (suppression_records deposits threat_class suppression sliced.removed).mergeSort (fun a b =>
      b.marker_timestamp < a.marker_timestamp || (a.marker_timestamp = b.marker_timestamp && ¬ b.event_id < a.event_id))
    source_ids := sliced.sources.map (·.1) }

/-! ## The substrate -/

structure InMemoryPheromoneSubstrate (F : Type) where
  config : PheromoneConfig F
  threat_class_configs : Map ThreatClass (ThreatClassConfig F)
  deposits : List (PheromoneDeposit F)

namespace InMemoryPheromoneSubstrate

def resolved_policy (s : InMemoryPheromoneSubstrate F) (threat_class : ThreatClass) : ThreatClassPolicy F :=
  s.config.resolve_threat_class_policy (s.threat_class_configs threat_class)

def query_concentration (s : InMemoryPheromoneSubstrate F) (threat_class : ThreatClass) (now : Int) : PheromoneConcentration F :=
  concentration_for decay s.deposits threat_class now (s.resolved_policy threat_class)

/-- `perch_deposit_slice` over the substrate's deposits, under the policy of the class. -/
def slice (s : InMemoryPheromoneSubstrate F) (threat_class : ThreatClass) (now : Int) : PerchDepositSlice F :=
  perch_deposit_slice decay s.deposits threat_class now (s.resolved_policy threat_class)

def gc_evaporated (s : InMemoryPheromoneSubstrate F) (now : Int) : InMemoryPheromoneSubstrate F :=
  { s with deposits := s.deposits.filter (fun deposit =>
    !is_evaporated decay deposit now (s.resolved_policy deposit.threat_class).evaporation_threshold) }

end InMemoryPheromoneSubstrate
end
end Ambush.Pheromone

import Ambush.Runtime.SharedMode
/-!
# Rising edges and the cooldown

What the monitor has seen of the threat classes, evaluation by evaluation, beside what it
remembers of it. It publishes an escalation when a class rises above its threshold, for
which it keeps the classes that were above at the last evaluation, and it goes back to
normal after a quiet time, for which it keeps the time since when nothing was above. An
evaluation that fails in its loop keeps neither what it has seen nor what it had kept.
-/
open Lib

namespace Ambush.Runtime
open Ambush.Bridge (ThreatClass SwarmMode)
open Ambush.Pheromone (PheromoneConfig PheromoneConcentration ThreatClassConfig EscalationRecord)

variable {E F : Type}

/-! ## Sightings -/

/-- One look at a class: whether it was above its threshold, and whether that raised the mode and was published. -/
structure Sighting where
  threat_class : ThreatClass
  seen_at : Int
  above : Bool
  raised : Bool
  published : Bool
  deriving DecidableEq

/-- The last sighting of the class was above its threshold. -/
def SeenAbove (log : List Sighting) (threat_class : ThreatClass) : Prop :=
  ∃ s, (log.filter (·.threat_class = threat_class)).getLast? = some s ∧ s.above = true

section
variable [LE F] [DecidableLE F]

/-- What one evaluation sees, up to where it fails. -/
def sightings (config : PheromoneConfig F) (answers : SubstrateAnswers E F) (now : Int) (previously_escalated : List ThreatClass) :
    SwarmMode → List ThreatClass → List Sighting
  | _, [] => []
  | mode, threat_class :: rest =>
    match evaluate_threat_class config answers threat_class now with
    | .error _ => []
    | .ok none => ⟨threat_class, now, false, false, false⟩ :: sightings config answers now previously_escalated mode rest
    | .ok (some event) =>
      if mode_rank mode < mode_rank (event_mode event) then
        match answers.record_escalation (escalation_record event) with
        | .error _ => [⟨event_threat_class event, now, true, false, false⟩]
        | .ok () =>
          ⟨event_threat_class event, now, true, true, true⟩ ::
            sightings config answers now previously_escalated (event_mode event) rest
      else
        ⟨event_threat_class event, now, true, false, !previously_escalated.contains (event_threat_class event)⟩ ::
          sightings config answers now previously_escalated mode rest

def sees (m : ConcentrationMonitor F) (answers : SubstrateAnswers E F) (now : Int) : List Sighting :=
  sightings m.config answers now m.escalated_classes m.mode_state.current standard_threat_classes

end

/-- The substrate answers for the class it is asked about. -/
def Faithful (answers : SubstrateAnswers E F) : Prop :=
  ∀ threat_class c, answers.query_concentration threat_class = .ok c → c.threat_class = threat_class

/-! ## Escalations that are published -/

def MonitorEvent.escalated : MonitorEvent F → Option ThreatClass
  | .Escalation _ event _ _ => some (event_threat_class event)
  | _ => none

def escalations (m : ConcentrationMonitor F) : Option (List ThreatClass) := m.runtime_events.map (·.filterMap MonitorEvent.escalated)

theorem escalations_publish (m : ConcentrationMonitor F) (now_ms : Nat → Int) {event : Int → MonitorEvent F} {c : Option ThreatClass}
    (h : ∀ at_ms, (event at_ms).escalated = c) : escalations (m.publish now_ms event) = (escalations m).map (· ++ c.toList) := by
  unfold escalations ConcentrationMonitor.publish
  rw [Option.map_map, Option.map_map]
  refine congrArg (fun f => Option.map f m.runtime_events) (funext fun events => ?_)
  show (events ++ [_]).filterMap MonitorEvent.escalated = _
  rw [List.filterMap_append, List.filterMap_cons, h]
  cases c with
  | none => rfl
  | some c => rfl

/-- Nothing of this module's concern is different. -/
structure Unchanged (m m' : ConcentrationMonitor F) : Prop where
  config : m'.config = m.config
  escalated_classes : m'.escalated_classes = m.escalated_classes
  escalations : escalations m' = escalations m

theorem Unchanged.refl (m : ConcentrationMonitor F) : Unchanged m m := ⟨rfl, rfl, rfl⟩

theorem Unchanged.trans {m₁ m₂ m₃ : ConcentrationMonitor F} (h : Unchanged m₁ m₂) (h' : Unchanged m₂ m₃) : Unchanged m₁ m₃ :=
  ⟨h'.config.trans h.config, h'.escalated_classes.trans h.escalated_classes, h'.escalations.trans h.escalations⟩

theorem unchanged_publish (m : ConcentrationMonitor F) (now_ms : Nat → Int) {event : Int → MonitorEvent F}
    (h : ∀ at_ms, (event at_ms).escalated = none) : Unchanged m (m.publish now_ms event) := by
  refine ⟨rfl, rfl, (escalations_publish m now_ms h).trans ?_⟩
  cases escalations m with
  | none => rfl
  | some events => exact congrArg some (List.append_nil events)

section
variable {m m' : ConcentrationMonitor F} {answers : SubstrateAnswers E F} {now : Int}

theorem unchanged_raise_mode (m : ConcentrationMonitor F) (answers : SubstrateAnswers E F) (event : EscalationEvent F) (now : Int) :
    Unchanged m (raise_mode m answers event now).1 := by
  unfold raise_mode
  split
  · split
    · exact .refl m
    · have hset : Unchanged m ((m.accept (escalation_record event)).set_mode_state
          (m.mode_state.transition_to (event_mode event) (event_threat_class event) now).1) := ⟨rfl, rfl, rfl⟩
      exact hset.trans <| @unchanged_publish F ((m.accept (escalation_record event)).set_mode_state
        (m.mode_state.transition_to (event_mode event) (event_threat_class event) now).1) answers.now_ms
        (fun at_ms => .ModeTransition at_ms m.mode_state.current (event_mode event) (some (event_threat_class event)) "threshold_crossed")
        (fun _ => rfl)
  · exact .refl m

theorem unchanged_record_resolution (m : ConcentrationMonitor F) (answers : SubstrateAnswers E F) (resolved : Option ThreatClass)
    (now : Int) : Unchanged m (record_resolution m answers resolved now).1 ∧
      (record_resolution m answers resolved now).1.mode_state = m.mode_state ∧
      (record_resolution m answers resolved now).1.below_threshold_since = m.below_threshold_since := by
  unfold record_resolution
  split
  · exact ⟨.refl m, rfl, rfl⟩
  · split
    · exact ⟨.refl m, rfl, rfl⟩
    · dsimp only
      split
      · exact ⟨.refl m, rfl, rfl⟩
      · exact ⟨⟨rfl, rfl, rfl⟩, rfl, rfl⟩

theorem lower_mode_spec (m : ConcentrationMonitor F) (answers : SubstrateAnswers E F) (state : SwarmModeState) (now : Int) :
    Unchanged m (lower_mode m answers state now).1 ∧
      ((lower_mode m answers state now).1.below_threshold_since = none ∨
        (lower_mode m answers state now).1.below_threshold_since = m.below_threshold_since) := by
  have hset : Unchanged m (m.set_mode_state state) := ⟨rfl, rfl, rfl⟩
  obtain ⟨hrecord, -, hsince⟩ := unchanged_record_resolution (m.set_mode_state state) answers m.mode_state.triggering_threat_class now
  unfold lower_mode
  split
  · next lowered e heq =>
    rw [heq] at hrecord hsince
    exact ⟨hset.trans hrecord, .inr hsince⟩
  · next lowered heq =>
    rw [heq] at hrecord
    have hpublish := @unchanged_publish F lowered answers.now_ms
      (fun at_ms => .ModeTransition at_ms m.mode_state.current .Normal none "deescalation_cooldown_elapsed") (fun _ => rfl)
    exact ⟨(hset.trans hrecord).trans ⟨hpublish.config, hpublish.escalated_classes, hpublish.escalations⟩, .inl rfl⟩

/-- The quiet time starts at the first quiet evaluation, and the mode goes back to normal only when it has lasted. -/
structure Settles (m : ConcentrationMonitor F) (now : Int) (m' : ConcentrationMonitor F) : Prop extends Unchanged m m' where
  since : m'.below_threshold_since = none ∨ m'.below_threshold_since = some (m.below_threshold_since.getD now)
  lowered : m.mode_state.current ≠ .Normal → m'.mode_state.current = .Normal →
    m.config.deescalation_cooldown_secs ≤ now - m.below_threshold_since.getD now

theorem settle_spec {r : ConcentrationMonitor F × Except E Bool} (h : settle m answers now = some r) : Settles m now r.1 := by
  unfold settle at h
  split at h
  · next hnormal =>
    cases h
    exact { config := rfl, escalated_classes := rfl, escalations := rfl, since := .inl rfl, lowered := fun hne => absurd hnormal hne }
  · dsimp only at h
    split at h
    · cases h
    · next elapsed helapsed =>
      have hdistance := checkedSubI_eq_some helapsed
      split at h
      · next hcool =>
        obtain ⟨hle, -⟩ := Bool.and_eq_true_iff.1 hcool
        cases h
        have hquiet : Unchanged m { m with below_threshold_since := some (m.below_threshold_since.getD now) } := ⟨rfl, rfl, rfl⟩
        obtain ⟨hlower, hsince⟩ := lower_mode_spec { m with below_threshold_since := some (m.below_threshold_since.getD now) } answers
          (m.mode_state.transition_down .Normal now).1 now
        exact { hquiet.trans hlower with since := hsince, lowered := fun _ _ => hdistance ▸ of_decide_eq_true hle }
      · cases h
        exact { config := rfl, escalated_classes := rfl, escalations := rfl, since := .inr rfl, lowered := fun hne heq => absurd heq hne }

theorem finish_spec (m : ConcentrationMonitor F) (answers : SubstrateAnswers E F) (events : List (EscalationEvent F)) (mode_changed : Bool) :
    Unchanged m (finish m answers events mode_changed).1 ∧ (finish m answers events mode_changed).1.mode_state = m.mode_state ∧
      (finish m answers events mode_changed).1.below_threshold_since = m.below_threshold_since := by
  unfold finish
  split
  · exact ⟨.refl m, rfl, rfl⟩
  · next concentrations _ =>
    have hpublish := @unchanged_publish F m answers.now_ms
      (fun at_ms => .ConcentrationSnapshot at_ms m.mode_state.current concentrations) (fun _ => rfl)
    exact ⟨⟨hpublish.config, hpublish.escalated_classes, hpublish.escalations⟩, rfl, rfl⟩

end

section
variable [LE F] [DecidableLE F] {config : PheromoneConfig F} {answers : SubstrateAnswers E F} {now : Int} {previously : List ThreatClass}

/-! ## What a loop sees -/

theorem event_class_of_evaluate (hfaithful : Faithful answers) {threat_class : ThreatClass} {event : EscalationEvent F}
    (h : evaluate_threat_class config answers threat_class now = .ok (some event)) : event_threat_class event = threat_class := by
  obtain ⟨found, -, h⟩ := (ok_bind_iff _ _ _).1 h
  obtain ⟨c, hc, h⟩ := (ok_bind_iff _ _ _).1 h
  have hclass := hfaithful threat_class c hc
  split at h
  · cases h
    exact hclass
  · split at h
    · cases h
      exact hclass
    · cases h

/-- What is true of every sighting of an evaluation. -/
structure Noticed (now : Int) (previously : List ThreatClass) (s : Sighting) : Prop where
  seen_at : s.seen_at = now
  published : s.published = true → s.above = true ∧ (s.raised = true ∨ s.threat_class ∉ previously)

theorem sightings_noticed (mode : SwarmMode) (classes : List ThreatClass) :
    ∀ s ∈ sightings config answers now previously mode classes, Noticed now previously s := by
  induction classes generalizing mode with
  | nil => exact fun s hs => nomatch hs
  | cons threat_class rest ih =>
    unfold sightings
    split
    · exact fun s hs => nomatch hs
    · exact List.forall_mem_cons.2 ⟨⟨rfl, fun h => nomatch h⟩, ih mode⟩
    · next event _ =>
      split
      · split
        · exact List.forall_mem_singleton.2 ⟨rfl, fun h => nomatch h⟩
        · exact List.forall_mem_cons.2 ⟨⟨rfl, fun _ => ⟨rfl, .inl rfl⟩⟩, ih (event_mode event)⟩
      · refine List.forall_mem_cons.2 ⟨⟨rfl, fun h => ⟨rfl, .inr fun hmem => ?_⟩⟩, ih mode⟩
        rw [show List.contains previously (event_threat_class event) = true from List.contains_iff_mem.2 hmem] at h
        cases h

/-- The classes are seen in the order in which they are asked about, each once. -/
theorem sightings_classes (hfaithful : Faithful answers) (mode : SwarmMode) (classes : List ThreatClass) :
    (sightings config answers now previously mode classes).map (·.threat_class) <+: classes := by
  induction classes generalizing mode with
  | nil => exact List.prefix_rfl
  | cons threat_class rest ih =>
    unfold sightings
    split
    · exact List.nil_prefix
    · exact List.cons_prefix_cons.2 ⟨rfl, ih mode⟩
    · next event hanswer =>
      have hclass := event_class_of_evaluate hfaithful hanswer
      split
      · split
        · exact List.cons_prefix_cons.2 ⟨hclass, List.nil_prefix⟩
        · exact List.cons_prefix_cons.2 ⟨hclass, ih (event_mode event)⟩
      · exact List.cons_prefix_cons.2 ⟨hclass, ih mode⟩

/-- A loop that goes through sees every class. -/
theorem sightings_all (hfaithful : Faithful answers) {mode : SwarmMode} {classes : List ThreatClass}
    (h : GoesThrough config answers now mode classes) :
    (sightings config answers now previously mode classes).map (·.threat_class) = classes := by
  induction classes generalizing mode with
  | nil => rfl
  | cons threat_class rest ih =>
    cases hanswer : evaluate_threat_class config answers threat_class now with
    | error e =>
      simp only [GoesThrough, hanswer] at h
    | ok answer =>
      cases answer with
      | none =>
        simp only [GoesThrough, hanswer] at h
        simp only [sightings, hanswer, List.map_cons, ih h]
      | some event =>
        have hclass := event_class_of_evaluate hfaithful hanswer
        simp only [GoesThrough, hanswer] at h
        simp only [sightings, hanswer]
        split at h
        · next hlt => rw [if_pos hlt, h.1, List.map_cons, ih h.2, hclass]
        · next hle => rw [if_neg hle, List.map_cons, ih h, hclass]

/-- What the loop does, as far as it has seen. -/
structure LoopSees (l : Evaluation F) (sights : List Sighting) (r : Evaluation F × Except E Unit) : Prop where
  escalated_classes : r.1.monitor.escalated_classes = l.monitor.escalated_classes
  escalations : escalations r.1.monitor =
    (escalations l.monitor).map (· ++ (sights.filter (·.published)).map (·.threat_class))
  events : r.2 = .ok () → (r.1.events = [] ↔ l.events = [] ∧ ∀ s ∈ sights, s.above = false)
  now_escalated : r.2 = .ok () → ∀ c, c ∈ r.1.now_escalated ↔ c ∈ l.now_escalated ∨ ∃ s ∈ sights, s.threat_class = c ∧ s.above = true

omit [LE F] [DecidableLE F] in
/-- The loop goes on after a class that was above. -/
theorem LoopSees.above {l next : Evaluation F} {sights : List Sighting} {r : Evaluation F × Except E Unit} (h : LoopSees next sights r)
    {event : EscalationEvent F} {raised published : Bool} (hmonitor : next.monitor.escalated_classes = l.monitor.escalated_classes)
    (hpublished : Runtime.escalations next.monitor =
      (Runtime.escalations l.monitor).map (· ++ (if published then [event_threat_class event] else [])))
    (hevents : next.events = l.events ++ [event]) (hnow : next.now_escalated = l.now_escalated.insert (event_threat_class event)) :
    LoopSees l (⟨event_threat_class event, now, true, raised, published⟩ :: sights) r where
  escalated_classes := h.escalated_classes.trans hmonitor
  escalations := by
    rw [h.escalations, hpublished, Option.map_map]
    refine congrArg (fun f => Option.map f (Runtime.escalations l.monitor)) (funext fun classes => ?_)
    cases published with
    | false => exact congrArg (· ++ _) (List.append_nil classes)
    | true => exact List.append_assoc _ _ _
  events hok := by
    rw [h.events hok, hevents]
    refine ⟨fun h => absurd h.1 (by simp), fun h => nomatch (h.2 _ List.mem_cons_self)⟩
  now_escalated hok c := by
    rw [h.now_escalated hok c, hnow, List.mem_insert_iff, List.exists_mem_cons_iff]
    constructor
    · rintro ((rfl | hc) | hc)
      · exact .inr (.inl ⟨rfl, rfl⟩)
      · exact .inl hc
      · exact .inr (.inr hc)
    · rintro (hc | ⟨rfl, -⟩ | hc)
      · exact .inl (.inr hc)
      · exact .inl (.inl rfl)
      · exact .inr hc

omit [LE F] [DecidableLE F] in
/-- The publication of an event on its rising edge. -/
theorem edge_spec (m : ConcentrationMonitor F) (now_ms : Nat → Int) (edge changed : Bool) (event : EscalationEvent F) {next : ConcentrationMonitor F}
    (h : (if edge then m.publish now_ms (fun at_ms => .Escalation at_ms event changed m.mode_state.current) else m) = next) :
    next.config = m.config ∧ next.mode_state = m.mode_state ∧ next.escalated_classes = m.escalated_classes ∧
      escalations next = (escalations m).map (· ++ (if edge then [event_threat_class event] else [])) := by
  cases edge with
  | false =>
    cases h
    refine ⟨rfl, rfl, rfl, ?_⟩
    show escalations m = (escalations m).map (· ++ [])
    cases escalations m with
    | none => rfl
    | some classes => exact congrArg some (List.append_nil classes).symm
  | true =>
    cases h
    exact ⟨rfl, rfl, rfl, @escalations_publish F m now_ms (fun at_ms => .Escalation at_ms event changed m.mode_state.current)
      (some (event_threat_class event)) (fun _ => rfl)⟩

theorem evaluate_classes_sees (l : Evaluation F) (classes : List ThreatClass) :
    LoopSees l (sightings l.monitor.config answers now previously l.monitor.mode_state.current classes)
      (evaluate_classes answers now previously l classes) := by
  have hnothing : ∀ m : ConcentrationMonitor F, escalations m = (escalations m).map (· ++ []) := fun m => by
    cases escalations m with
    | none => rfl
    | some classes => exact congrArg some (List.append_nil classes).symm
  induction classes generalizing l with
  | nil =>
    refine ⟨rfl, hnothing _, fun _ => ⟨fun h => ⟨h, fun s hs => ?_⟩, fun h => h.1⟩, fun _ c => ?_⟩
    · cases hs
    · simp [sightings, evaluate_classes]
  | cons threat_class rest ih =>
    cases hanswer : evaluate_threat_class l.monitor.config answers threat_class now with
    | error e =>
      simp only [evaluate_classes, sightings, hanswer]
      exact ⟨rfl, hnothing _, (fun h => by cases h), (fun h => by cases h)⟩
    | ok found =>
      cases found with
      | none =>
        simp only [evaluate_classes, sightings, hanswer]
        have hrest := ih l
        refine ⟨hrest.escalated_classes, hrest.escalations, fun hok => ?_, fun hok c => ?_⟩
        · rw [hrest.events hok, List.forall_mem_cons]
          exact ⟨fun h => ⟨h.1, rfl, h.2⟩, fun h => ⟨h.1, h.2.2⟩⟩
        · rw [hrest.now_escalated hok c, List.exists_mem_cons_iff]
          simp
      | some event =>
        simp only [evaluate_classes, sightings, hanswer]
        have hunchanged := unchanged_raise_mode l.monitor answers event now
        by_cases hlt : mode_rank l.monitor.mode_state.current < mode_rank (event_mode event)
        · cases hrecord : answers.record_escalation (escalation_record event) with
          | error e =>
            rw [raise_mode_refused hlt hrecord, if_pos hlt]
            exact ⟨rfl, hnothing _, (fun h => by cases h), (fun h => by cases h)⟩
          | ok _ =>
            obtain ⟨m, hm, hmode, hf⟩ := raise_mode_accepted hlt hrecord (event_timestamp_of_evaluate hanswer)
            rw [hm] at hunchanged ⊢
            rw [if_pos hlt]
            dsimp only
            generalize hX : (if (!previously.contains (event_threat_class event) || true) = true then
              m.publish answers.now_ms (fun at_ms => .Escalation at_ms event true m.mode_state.current) else m) = next
            obtain ⟨hconfig, hstate, hclasses, hpublished⟩ := edge_spec m answers.now_ms _ true event hX
            have hnext := ih ⟨next, l.events ++ [event], l.mode_changed || true, l.now_escalated.insert (event_threat_class event)⟩
            dsimp only at hnext
            rw [hstate, hmode, hconfig, hf.config] at hnext
            rw [hunchanged.escalations, Bool.or_true] at hpublished
            exact hnext.above (hclasses.trans hunchanged.escalated_classes) hpublished rfl rfl
        · rw [raise_mode_below (not_lt.1 hlt), if_neg hlt]
          dsimp only
          generalize hX : (if (!previously.contains (event_threat_class event) || false) = true then
            l.monitor.publish answers.now_ms (fun at_ms => .Escalation at_ms event false l.monitor.mode_state.current) else l.monitor) = next
          obtain ⟨hconfig, hstate, hclasses, hpublished⟩ := edge_spec l.monitor answers.now_ms _ false event hX
          have hnext := ih ⟨next, l.events ++ [event], l.mode_changed || false, l.now_escalated.insert (event_threat_class event)⟩
          dsimp only at hnext
          rw [hstate, hconfig] at hnext
          rw [Bool.or_false] at hpublished
          exact hnext.above hclasses hpublished rfl rfl

/-! ## What an evaluation leaves -/

structure EvaluationSees (m : ConcentrationMonitor F) (answers : SubstrateAnswers E F) (now : Int) (m' : ConcentrationMonitor F) : Prop where
  config : m'.config = m.config
  escalations : escalations m' =
    (escalations m).map (· ++ ((sees m answers now).filter (·.published)).map (·.threat_class))
  failed : ¬ GoesThrough m.config answers now m.mode_state.current standard_threat_classes →
    m'.escalated_classes = [] ∧ m'.below_threshold_since = m.below_threshold_since
  held : GoesThrough m.config answers now m.mode_state.current standard_threat_classes →
    ∀ c, c ∈ m'.escalated_classes ↔ ∃ s ∈ sees m answers now, s.threat_class = c ∧ s.above = true
  since : GoesThrough m.config answers now m.mode_state.current standard_threat_classes → m'.below_threshold_since = none ∨
    m'.below_threshold_since = some (m.below_threshold_since.getD now) ∧ ∀ s ∈ sees m answers now, s.above = false
  lowered : m.mode_state.current ≠ .Normal → m'.mode_state.current = .Normal →
    m.config.deescalation_cooldown_secs ≤ now - m.below_threshold_since.getD now ∧ ∀ s ∈ sees m answers now, s.above = false

omit [LE F] [DecidableLE F] in
/-- The loop does not lower the mode. -/
theorem Follows.above_normal {m m' : ConcentrationMonitor F} (h : Follows m m') (hne : m.mode_state.current ≠ .Normal) :
    m'.mode_state.current ≠ .Normal := by
  intro heq
  rcases h.mode with hsame | hlt
  · rw [hsame] at heq
    exact hne heq
  · rw [heq] at hlt
    exact absurd hlt (Nat.not_lt_zero _)

theorem evaluate_all_sees {m m' : ConcentrationMonitor F} {outcome : Except E (EscalationOutcome F)}
    (h : evaluate_all m answers now = some (m', outcome)) : EvaluationSees m answers now m' := by
  obtain ⟨l, r, hloop, hends⟩ := evaluate_all_cases h
  have hspec := @evaluate_classes_spec E F _ _ answers now m.escalated_classes { monitor := { m with escalated_classes := [] } }
    standard_threat_classes
  have hsees := @evaluate_classes_sees E F _ _ answers now m.escalated_classes { monitor := { m with escalated_classes := [] } }
    standard_threat_classes
  rw [hloop] at hspec hsees
  have hescalations : Runtime.escalations l.monitor =
      (Runtime.escalations m).map (· ++ ((sees m answers now).filter (·.published)).map (·.threat_class)) := hsees.escalations
  rcases hends with ⟨hfailed, rfl⟩ | ⟨hok, hevents, rfl⟩ | ⟨hok, hquiet, settled, ended, hsettle, hends⟩
  · have hnot : ¬ GoesThrough m.config answers now m.mode_state.current standard_threat_classes := fun hthrough =>
      hfailed (hspec.ended.2 hthrough)
    exact {
      config := hspec.follows.config
      escalations := hescalations
      failed := fun _ => ⟨hsees.escalated_classes, hspec.follows.since⟩
      held := fun hthrough => absurd hthrough hnot
      since := fun hthrough => absurd hthrough hnot
      lowered := fun hne heq => absurd heq (hspec.follows.above_normal hne) }
  · obtain ⟨hfinish, hmode, hsince⟩ := finish_spec { l.monitor with escalated_classes := l.now_escalated, below_threshold_since := none }
      answers l.events l.mode_changed
    exact {
      config := hfinish.config.trans hspec.follows.config
      escalations := hfinish.escalations.trans hescalations
      failed := fun hnot => absurd (hspec.ended.1 hok) hnot
      held := fun _ c => by
        rw [hfinish.escalated_classes]
        exact (hsees.now_escalated hok c).trans ⟨fun h => h.resolve_left List.not_mem_nil, .inr⟩
      since := fun _ => .inl hsince
      lowered := fun hne heq => by
        rw [hmode] at heq
        exact absurd heq (hspec.follows.above_normal hne) }
  · have hbelow : ∀ s ∈ sees m answers now, s.above = false := ((hsees.events hok).1 hquiet).2
    have hsettled := settle_spec hsettle
    have hsinceEq : l.monitor.below_threshold_since = m.below_threshold_since := hspec.follows.since
    have hconfigEq : l.monitor.config = m.config := hspec.follows.config
    have hend : Unchanged settled m' ∧ m'.mode_state = settled.mode_state ∧ m'.below_threshold_since = settled.below_threshold_since := by
      rcases hends with ⟨e, -, rfl⟩ | ⟨lowered, -, rfl⟩
      · exact ⟨.refl m', rfl, rfl⟩
      · exact finish_spec settled answers l.events (l.mode_changed || lowered)
    obtain ⟨hunchanged, hmode, hsince⟩ := hend
    exact {
      config := (hunchanged.config.trans hsettled.config).trans hconfigEq
      escalations := (hunchanged.escalations.trans hsettled.escalations).trans hescalations
      failed := fun hnot => absurd (hspec.ended.1 hok) hnot
      held := fun _ c => by
        rw [hunchanged.escalated_classes, hsettled.escalated_classes]
        exact (hsees.now_escalated hok c).trans ⟨fun h => h.resolve_left List.not_mem_nil, .inr⟩
      since := fun _ => by
        rw [hsince]
        rcases hsettled.since with hnone | hsome
        · exact .inl hnone
        · exact .inr ⟨hsome.trans (by dsimp only; rw [hsinceEq]), hbelow⟩
      lowered := fun hne heq => by
        rw [hmode] at heq
        have hcool := hsettled.lowered (hspec.follows.above_normal hne) heq
        dsimp only at hcool
        rw [hconfigEq, hsinceEq] at hcool
        exact ⟨hcool, hbelow⟩ }

/-! ## Runs -/

/-- A monitor and all it has seen. -/
structure Watch (F : Type) where
  monitor : ConcentrationMonitor F
  log : List Sighting := []

def Watches (w : Watch F) (call : EvaluateCall E F) (w' : Watch F) : Prop :=
  Evaluates w.monitor call w'.monitor ∧ w'.log = w.log ++ sees w.monitor call.answers call.now

/-- The loop goes through, or there was nothing to keep: what the evaluation saw was below, and it saw every class that was held. -/
def Heeded (m : ConcentrationMonitor F) (answers : SubstrateAnswers E F) (now : Int) : Prop :=
  GoesThrough m.config answers now m.mode_state.current standard_threat_classes ∨
    (∀ s ∈ sees m answers now, s.above = false) ∧ ∀ c ∈ m.escalated_classes, ∃ s ∈ sees m answers now, s.threat_class = c

/-- A class that was above when it was last seen is published again only when it raises the mode. -/
def OnRisingEdges (log : List Sighting) : Prop :=
  ∀ before s after, log = before ++ s :: after → SeenAbove before s.threat_class → s.published = true → s.raised = true

omit [LE F] [DecidableLE F] in
theorem seenAbove_append {log sights : List Sighting} {c : ThreatClass} (h : SeenAbove (log ++ sights) c) :
    (∃ s ∈ sights, s.threat_class = c ∧ s.above = true) ∨ (∀ s ∈ sights, s.threat_class ≠ c) ∧ SeenAbove log c := by
  obtain ⟨s, hlast, habove⟩ := h
  rw [List.filter_append, List.getLast?_append] at hlast
  cases hnew : (sights.filter (·.threat_class = c)).getLast? with
  | none =>
    rw [hnew] at hlast
    refine .inr ⟨fun s' hs' heq => ?_, s, hlast, habove⟩
    have hmem : s' ∈ sights.filter (·.threat_class = c) := List.mem_filter.2 ⟨hs', decide_eq_true heq⟩
    rw [List.getLast?_eq_none_iff.1 hnew] at hmem
    cases hmem
  | some s' =>
    rw [hnew] at hlast
    obtain rfl := Option.some.inj hlast
    obtain ⟨hs, hclass⟩ := List.mem_filter.1 (List.mem_of_getLast? hnew)
    exact .inl ⟨s', hs, of_decide_eq_true hclass, habove⟩

/-- What the monitor keeps agrees with what it has seen. -/
structure Minded (w : Watch F) : Prop where
  standard : ∀ s ∈ w.log, s.threat_class ∈ standard_threat_classes
  held : ∀ c, SeenAbove w.log c → c ∈ w.monitor.escalated_classes
  quiet : ∀ q, w.monitor.below_threshold_since = some q → ∀ s ∈ w.log, q < s.seen_at → s.above = false
  rising : OnRisingEdges w.log
  published : escalations w.monitor = some ((w.log.filter (·.published)).map (·.threat_class))

omit [LE F] [DecidableLE F] in
theorem minded_attached (config : PheromoneConfig F) : Minded ⟨.attached config, []⟩ where
  standard _ hs := nomatch hs
  held c hc := by
    obtain ⟨s, hlast, -⟩ := hc
    cases hlast
  quiet _ hq := nomatch hq
  rising before s after hsplit := by
    cases before with
    | nil => cases hsplit
    | cons => cases hsplit
  published := rfl

theorem standard_nodup : standard_threat_classes.Nodup := by decide

theorem sees_noticed (m : ConcentrationMonitor F) : ∀ s ∈ sees m answers now, Noticed now m.escalated_classes s :=
  sightings_noticed m.mode_state.current standard_threat_classes

theorem sees_all (hfaithful : Faithful answers) {m : ConcentrationMonitor F}
    (h : GoesThrough m.config answers now m.mode_state.current standard_threat_classes) :
    (sees m answers now).map (·.threat_class) = standard_threat_classes := sightings_all hfaithful h

/-- An evaluation sees each class once. -/
theorem sees_once (hfaithful : Faithful answers) (m : ConcentrationMonitor F) : ((sees m answers now).map (·.threat_class)).Nodup :=
  standard_nodup.sublist (sightings_classes hfaithful m.mode_state.current standard_threat_classes).sublist

theorem sees_standard (hfaithful : Faithful answers) (m : ConcentrationMonitor F) :
    ∀ s ∈ sees m answers now, s.threat_class ∈ standard_threat_classes := fun _ hs =>
  (sightings_classes hfaithful m.mode_state.current standard_threat_classes).subset (List.mem_map_of_mem hs)

/-- The escalations of one evaluation are on rising edges. -/
theorem Minded.rising_step {w : Watch F} (hw : Minded w) (hfaithful : Faithful answers) :
    OnRisingEdges (w.log ++ sees w.monitor answers now) := by
  intro before s after hsplit hseen hpublished
  have hfresh : ∀ earlier, sees w.monitor answers now = earlier ++ s :: after → before = w.log ++ earlier → s.raised = true := by
    rintro earlier hsees rfl
    have hs : s ∈ sees w.monitor answers now := by
      rw [hsees]
      exact List.mem_append_right earlier List.mem_cons_self
    have hnoticed := sees_noticed w.monitor s hs
    have honce : ((sees w.monitor answers now).map (·.threat_class)).Nodup := sees_once hfaithful w.monitor
    rw [hsees, List.map_append, List.map_cons] at honce
    have hearlier : ∀ s' ∈ earlier, s'.threat_class ≠ s.threat_class := fun s' hs' =>
      (List.nodup_append.1 honce).2.2 _ (List.mem_map_of_mem hs') _ List.mem_cons_self
    rcases seenAbove_append hseen with ⟨s', hs', hsame, -⟩ | ⟨-, hseen⟩
    · exact absurd hsame (hearlier s' hs')
    · exact (hnoticed.published hpublished).2.resolve_right fun hnew => hnew (hw.held _ hseen)
  rcases List.append_eq_append_iff.1 hsplit with ⟨earlier, rfl, hsees⟩ | ⟨rest, hlog, hrest⟩
  · exact hfresh earlier hsees rfl
  · cases rest with
    | nil => exact hfresh [] hrest.symm (by rw [hlog, List.append_nil, List.append_nil])
    | cons s' rest =>
      obtain ⟨rfl, -⟩ := List.cons.inj hrest
      exact hw.rising before s rest hlog hseen hpublished

/-- An evaluation that is heeded keeps the monitor minded, and lowers the mode only after a quiet time. -/
theorem Minded.step {w w' : Watch F} {call : EvaluateCall E F} (hw : Minded w) (hfaithful : Faithful call.answers)
    (hclock : ∀ s ∈ w.log, s.seen_at ≤ call.now) (hheeded : Heeded w.monitor call.answers call.now) (hwatches : Watches w call w') :
    Minded w' ∧ (w.monitor.mode_state.current ≠ .Normal → w'.monitor.mode_state.current = .Normal →
      ∀ s ∈ w'.log, call.now - w.monitor.config.deescalation_cooldown_secs < s.seen_at → s.above = false) := by
  obtain ⟨⟨outcome, hcall⟩, hlog⟩ := hwatches
  have hsees := evaluate_all_sees hcall
  have hstandard : ∀ s ∈ sees w.monitor call.answers call.now, s.threat_class ∈ standard_threat_classes := sees_standard hfaithful w.monitor
  constructor
  · refine ⟨?_, ?_, ?_, ?_, ?_⟩
    · intro s hs
      rw [hlog] at hs
      exact (List.mem_append.1 hs).elim (hw.standard s) (hstandard s)
    · intro c hc
      rw [hlog] at hc
      by_cases hthrough : GoesThrough w.monitor.config call.answers call.now w.monitor.mode_state.current standard_threat_classes
      · refine (hsees.held hthrough c).2 ((seenAbove_append hc).resolve_right ?_)
        rintro ⟨hunseen, s, hlast, -⟩
        -- The class is one of those asked about, so it was seen again.
        obtain ⟨hs, hclass⟩ := List.mem_filter.1 (List.mem_of_getLast? hlast)
        have hc' : c ∈ (sees w.monitor call.answers call.now).map (·.threat_class) := by
          rw [sees_all hfaithful hthrough, ← of_decide_eq_true hclass]
          exact hw.standard s hs
        obtain ⟨s', hs', rfl⟩ := List.mem_map.1 hc'
        exact hunseen s' hs' rfl
      · obtain ⟨hbelow, hseen⟩ := hheeded.resolve_left hthrough
        rcases seenAbove_append hc with ⟨s, hs, -, habove⟩ | ⟨hunseen, hc⟩
        · rw [hbelow s hs] at habove
          cases habove
        · obtain ⟨s, hs, hclass⟩ := hseen c (hw.held c hc)
          exact absurd hclass (hunseen s hs)
    · intro q hq s hs hlt
      rw [hlog] at hs
      by_cases hthrough : GoesThrough w.monitor.config call.answers call.now w.monitor.mode_state.current standard_threat_classes
      · rcases hsees.since hthrough with hnone | ⟨hsince, hbelow⟩
        · rw [hnone] at hq
          cases hq
        · rcases List.mem_append.1 hs with hs | hs
          · rw [hsince] at hq
            cases hold : w.monitor.below_threshold_since with
            | none =>
              rw [hold] at hq
              cases hq
              exact absurd hlt (not_lt.2 (hclock s hs))
            | some q₀ =>
              rw [hold] at hq
              cases hq
              exact hw.quiet _ hold s hs hlt
          · exact hbelow s hs
      · rw [(hsees.failed hthrough).2] at hq
        rcases List.mem_append.1 hs with hs | hs
        · exact hw.quiet q hq s hs hlt
        · exact (hheeded.resolve_left hthrough).1 s hs
    · rw [hlog]
      exact hw.rising_step hfaithful
    · rw [hsees.escalations, hw.published, hlog, List.filter_append, List.map_append]
      rfl
  · intro hne hnormal s hs hlt
    obtain ⟨hcool, hbelow⟩ := hsees.lowered hne hnormal
    rw [hlog] at hs
    rcases List.mem_append.1 hs with hs | hs
    · cases hold : w.monitor.below_threshold_since with
      | none =>
        rw [hold] at hcool
        have hle := hclock s hs
        dsimp only [Option.getD] at hcool
        omega
      | some q =>
        rw [hold] at hcool
        dsimp only [Option.getD] at hcool
        exact hw.quiet q hold s hs (by omega)
    · exact hbelow s hs

end

/-! ## Evaluations that fail -/

theorem lateral_movement_faithful (strength : Int) (resolved snapshots : Bool) : Faithful (lateral_movement strength resolved snapshots) := by
  rintro threat_class c ⟨⟩
  rfl

/-- The class after lateral movement is not answered for. -/
def cut_short (strength : Int) : SubstrateAnswers Unit Int :=
  { lateral_movement strength true true with
    query_concentration := fun c =>
      if c = .DataExfiltration then .error () else (lateral_movement strength true true).query_concentration c }

/-- Lateral movement holds above its threshold, and is published when an evaluation has failed. -/
def held_above : List (EvaluateCall Unit Int) :=
  [⟨lateral_movement 3000 true true, 1000⟩, ⟨cut_short 3000, 1100⟩, ⟨lateral_movement 3000 true true, 1200⟩]

/-- It rises again while the mode cools down, in an evaluation that fails. -/
def risen_again : List (EvaluateCall Unit Int) :=
  [⟨lateral_movement 3000 true true, 1000⟩, ⟨lateral_movement 0 true true, 1100⟩, ⟨cut_short 3000, 1350⟩]

def watch (w : Watch Int) (call : EvaluateCall Unit Int) : Option (Watch Int) :=
  (evaluate_all w.monitor call.answers call.now).map fun r => ⟨r.1, w.log ++ sees w.monitor call.answers call.now⟩

theorem watches_of_watch {w w' : Watch Int} {call : EvaluateCall Unit Int} (h : watch w call = some w') : Watches w call w' := by
  obtain ⟨r, hr, rfl⟩ := Option.map_eq_some_iff.1 h
  exact ⟨⟨r.2, hr⟩, rfl⟩

theorem run_of_watch {calls : List (EvaluateCall Unit Int)} {P : Watch Int → Bool}
    (h : ((calls.foldlM watch ⟨.attached monitor_config, []⟩).any P) = true) :
    ∃ w, Run Watches ⟨.attached monitor_config, []⟩ calls w ∧ P w = true := by
  cases hw : calls.foldlM watch ⟨.attached monitor_config, []⟩ with
  | none =>
    rw [hw] at h
    cases h
  | some w =>
    rw [hw] at h
    exact ⟨w, (Run.of_foldlM hw).mono fun _ _ _ => watches_of_watch, h⟩

end Ambush.Runtime

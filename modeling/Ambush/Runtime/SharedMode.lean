import Ambush.Runtime.Escalation
import Ambush.Lib.Results
/-!
# The mode that everybody reads

A mode that is raised is recorded first, and published and stored afterwards; a mode that is
lowered is recorded afterwards too. So a call of the substrate that fails in between leaves
the monitor in a mode that nobody else is in. An evaluation in which nothing fails once the
mode has moved leaves the two in step.
-/
open Lib

namespace Ambush.Runtime
open Ambush.Bridge (ThreatClass SwarmMode)
open Ambush.Pheromone (PheromoneConfig PheromoneConcentration ThreatClassConfig EscalationRecord)

variable {E F : Type}

/-! ## Modes that were told of -/

/-- The mode, class and time of a change that is recorded. -/
def ModeChange.record (c : ModeChange) : Option (SwarmMode × ThreatClass × Option Int) :=
  c.threat_class.map (fun threat_class => (c.target, threat_class, c.changed_at))

/-- Each change of the mode has one published transition and, when there is a class for it, one accepted record. -/
structure Told (m : ConcentrationMonitor F) : Prop where
  published : m.runtime_events.map (List.filterMap MonitorEvent.transition) = some (m.changes.map (fun c => (c.source, c.target)))
  recorded : m.accepted.map (fun r => (r.mode, r.threat_class, some r.timestamp)) = m.changes.filterMap ModeChange.record

structure InStep (m : ConcentrationMonitor F) : Prop where
  shared : m.shared_mode_state = some m.mode_state
  told : Told m

theorem transitions_publish (m : ConcentrationMonitor F) (now_ms : Nat → Int) (event : Int → MonitorEvent F)
    (transition : Option (SwarmMode × SwarmMode)) (h : ∀ at_ms, (event at_ms).transition = transition) :
    (m.publish now_ms event).runtime_events.map (List.filterMap MonitorEvent.transition) =
      (m.runtime_events.map (List.filterMap MonitorEvent.transition)).map (· ++ transition.toList) := by
  rw [ConcentrationMonitor.publish, Option.map_map, Option.map_map]
  congr 1
  funext events
  cases transition <;> simp [List.filterMap_append, h]

theorem Told.publish {m : ConcentrationMonitor F} (ht : Told m) (now_ms : Nat → Int) (event : Int → MonitorEvent F)
    (h : ∀ at_ms, (event at_ms).transition = none) : Told (m.publish now_ms event) where
  published := by
    rw [transitions_publish m now_ms event none h, ht.published]
    exact congrArg some (List.append_nil _)
  recorded := ht.recorded

/-- A change with its record and its transition. -/
theorem Told.change {m m' : ConcentrationMonitor F} (ht : Told m) {c : ModeChange} {records : List (EscalationRecord F)}
    (hchanges : m'.changes = m.changes ++ [c]) (haccepted : m'.accepted = m.accepted ++ records)
    (hrecords : records.map (fun r => (r.mode, r.threat_class, some r.timestamp)) = c.record.toList)
    (hpublished : m'.runtime_events.map (List.filterMap MonitorEvent.transition) =
      (m.runtime_events.map (List.filterMap MonitorEvent.transition)).map (· ++ [(c.source, c.target)])) : Told m' where
  published := by
    rw [hpublished, ht.published, hchanges, List.map_append]
    rfl
  recorded := by
    rw [haccepted, hchanges, List.map_append, List.filterMap_append, ht.recorded, hrecords]
    cases hrecord : c.record <;> simp [hrecord]

/-! ## The loop over the classes -/

/-- What the loop can do to the monitor. -/
structure Follows (m m' : ConcentrationMonitor F) : Prop where
  config : m'.config = m.config
  shared : m'.shared_mode_state = m.shared_mode_state
  since : m'.below_threshold_since = m.below_threshold_since
  told : Told m → Told m'
  mode : m'.mode_state = m.mode_state ∨ mode_rank m.mode_state.current < mode_rank m'.mode_state.current

theorem Follows.refl (m : ConcentrationMonitor F) : Follows m m := ⟨rfl, rfl, rfl, id, .inl rfl⟩

theorem Follows.trans {m₁ m₂ m₃ : ConcentrationMonitor F} (h : Follows m₁ m₂) (h' : Follows m₂ m₃) : Follows m₁ m₃ where
  config := h'.config.trans h.config
  shared := h'.shared.trans h.shared
  since := h'.since.trans h.since
  told := fun ht => h'.told (h.told ht)
  mode := by
    rcases h.mode with he | hlt
    · rw [← he]
      exact h'.mode
    · rcases h'.mode with he' | hlt'
      · rw [he']
        exact .inr hlt
      · exact .inr (hlt.trans hlt')

theorem follows_publish (m : ConcentrationMonitor F) (now_ms : Nat → Int) {event : Int → MonitorEvent F}
    (h : ∀ at_ms, (event at_ms).transition = none) : Follows m (m.publish now_ms event) :=
  ⟨rfl, rfl, rfl, fun ht => ht.publish now_ms event h, .inl rfl⟩

theorem escalation_record_of_event (event : EscalationEvent F) :
    (escalation_record event).mode = event_mode event ∧ (escalation_record event).threat_class = event_threat_class event := by
  cases event <;> exact ⟨rfl, rfl⟩

/-- The timestamp of an event. -/
def event_timestamp (event : EscalationEvent F) : Int := (escalation_record event).timestamp

section
variable {m : ConcentrationMonitor F} {answers : SubstrateAnswers E F} {event : EscalationEvent F} {now : Int}

theorem raise_mode_below (h : mode_rank (event_mode event) ≤ mode_rank m.mode_state.current) :
    raise_mode m answers event now = (m, .ok false) := if_neg (by omega)

theorem raise_mode_refused {e : E} (hlt : mode_rank m.mode_state.current < mode_rank (event_mode event))
    (h : answers.record_escalation (escalation_record event) = .error e) : raise_mode m answers event now = (m, .error e) := by
  rw [raise_mode, if_pos hlt, h]

/-- A mode that is raised is recorded and published. -/
theorem raise_mode_accepted (hlt : mode_rank m.mode_state.current < mode_rank (event_mode event))
    (h : answers.record_escalation (escalation_record event) = .ok ()) (hnow : event_timestamp event = now) :
    ∃ m', raise_mode m answers event now = (m', .ok true) ∧ m'.mode_state.current = event_mode event ∧ Follows m m' := by
  rw [raise_mode, if_pos hlt, h]
  have hstate : (m.mode_state.transition_to (event_mode event) (event_threat_class event) now).1 =
      ⟨event_mode event, some now, some (event_threat_class event)⟩ := by
    rw [SwarmModeState.transition_to, if_neg (by omega)]
  have hne : event_mode event ≠ m.mode_state.current := fun he => by
    rw [he] at hlt
    exact lt_irrefl _ hlt
  simp only [hstate]
  refine ⟨_, rfl, rfl, rfl, rfl, rfl, fun ht => ?_, .inr hlt⟩
  refine ht.change (c := ⟨m.mode_state.current, event_mode event, some (event_threat_class event), some now⟩)
    (if_neg hne) rfl ?_
    (transitions_publish _ _ _ (some (m.mode_state.current, event_mode event)) (fun _ => rfl))
  obtain ⟨hmode, hclass⟩ := escalation_record_of_event event
  simp only [List.map_singleton, hmode, hclass, ModeChange.record, Option.map_some, Option.toList_some]
  rw [← hnow]
  rfl

end

variable [LE F] [DecidableLE F]

theorem event_timestamp_of_evaluate {config : PheromoneConfig F} {answers : SubstrateAnswers E F} {threat_class : ThreatClass}
    {now : Int} {event : EscalationEvent F} (h : evaluate_threat_class config answers threat_class now = .ok (some event)) :
    event_timestamp event = now := by
  obtain ⟨found, -, h⟩ := (ok_bind_iff _ _ _).1 h
  obtain ⟨c, -, h⟩ := (ok_bind_iff _ _ _).1 h
  split at h
  · obtain rfl := Option.some.inj (Except.ok.inj h)
    rfl
  · split at h
    · obtain rfl := Option.some.inj (Except.ok.inj h)
      rfl
    · cases h

/-- The loop, from `mode`, raises the mode. -/
def Rises (config : PheromoneConfig F) (answers : SubstrateAnswers E F) (now : Int) (mode : SwarmMode) : List ThreatClass → Prop
  | [] => False
  | threat_class :: rest =>
    match evaluate_threat_class config answers threat_class now with
    | .error _ => False
    | .ok none => Rises config answers now mode rest
    | .ok (some event) =>
      if mode_rank mode < mode_rank (event_mode event) then answers.record_escalation (escalation_record event) = .ok ()
      else Rises config answers now mode rest

/-- No answer that the loop asks for, from `mode`, is a failure. -/
def GoesThrough (config : PheromoneConfig F) (answers : SubstrateAnswers E F) (now : Int) : SwarmMode → List ThreatClass → Prop
  | _, [] => True
  | mode, threat_class :: rest =>
    match evaluate_threat_class config answers threat_class now with
    | .error _ => False
    | .ok none => GoesThrough config answers now mode rest
    | .ok (some event) =>
      if mode_rank mode < mode_rank (event_mode event) then
        answers.record_escalation (escalation_record event) = .ok () ∧ GoesThrough config answers now (event_mode event) rest
      else GoesThrough config answers now mode rest

section
variable {answers : SubstrateAnswers E F} {now : Int} {previously : List ThreatClass}

/-- What the loop does from `l`: it keeps to `Follows`, moves the mode when the answers raise it, and ends when they go through. -/
structure LoopSpec (answers : SubstrateAnswers E F) (now : Int) (l : Evaluation F) (classes : List ThreatClass)
    (r : Evaluation F × Except E Unit) : Prop where
  follows : Follows l.monitor r.1.monitor
  unmoved : r.1.monitor.mode_state = l.monitor.mode_state ↔
    ¬ Rises l.monitor.config answers now l.monitor.mode_state.current classes
  ended : r.2 = .ok () ↔ GoesThrough l.monitor.config answers now l.monitor.mode_state.current classes
  quiet : r.2 = .ok () → (r.1.events = [] ↔ l.events = [] ∧
    ∀ threat_class ∈ classes, evaluate_threat_class l.monitor.config answers threat_class now = .ok none)

omit [LE F] [DecidableLE F] in
/-- The publication of an event on its rising edge. -/
theorem follows_edge (m : ConcentrationMonitor F) (now_ms : Nat → Int) (edge : Bool) (event : EscalationEvent F) (changed : Bool) :
    Follows m (if edge then m.publish now_ms (fun at_ms => .Escalation at_ms event changed m.mode_state.current) else m) ∧
      (if edge then m.publish now_ms (fun at_ms => .Escalation at_ms event changed m.mode_state.current) else m).mode_state =
        m.mode_state := by
  cases edge with
  | false => exact ⟨.refl m, rfl⟩
  | true =>
    rw [if_pos rfl]
    exact ⟨follows_publish m now_ms (fun _ => rfl), rfl⟩

/-- The loop goes on from `next` after an event that is not above the mode. -/
theorem LoopSpec.below {l next : Evaluation F} {threat_class : ThreatClass} {rest : List ThreatClass} {event : EscalationEvent F}
    {r : Evaluation F × Except E Unit} (h : LoopSpec answers now next rest r) (hf : Follows l.monitor next.monitor)
    (hstate : next.monitor.mode_state = l.monitor.mode_state) (hevents : next.events ≠ [])
    (hanswer : evaluate_threat_class l.monitor.config answers threat_class now = .ok (some event))
    (hle : ¬ mode_rank l.monitor.mode_state.current < mode_rank (event_mode event)) :
    LoopSpec answers now l (threat_class :: rest) r where
  follows := hf.trans h.follows
  unmoved := by
    simp only [Rises, hanswer, if_neg hle]
    rw [← hstate, ← hf.config]
    exact h.unmoved
  ended := by
    simp only [GoesThrough, hanswer, if_neg hle]
    rw [← hstate, ← hf.config]
    exact h.ended
  quiet := fun hok => by simp [h.quiet hok, hevents, hanswer]

/-- The loop goes on from `next` after an event that raised the mode. -/
theorem LoopSpec.raised {l next : Evaluation F} {threat_class : ThreatClass} {rest : List ThreatClass} {event : EscalationEvent F}
    {r : Evaluation F × Except E Unit} (h : LoopSpec answers now next rest r) (hf : Follows l.monitor next.monitor)
    (hmode : next.monitor.mode_state.current = event_mode event) (hevents : next.events ≠ [])
    (hanswer : evaluate_threat_class l.monitor.config answers threat_class now = .ok (some event))
    (hlt : mode_rank l.monitor.mode_state.current < mode_rank (event_mode event))
    (hrecord : answers.record_escalation (escalation_record event) = .ok ()) :
    LoopSpec answers now l (threat_class :: rest) r where
  follows := hf.trans h.follows
  unmoved := by
    simp only [Rises, hanswer, if_pos hlt, hrecord, not_true_eq_false, iff_false]
    intro hsame
    rw [← hmode] at hlt
    -- The mode has risen before the rest of the loop, which does not lower it.
    rcases h.follows.mode with he | hlt'
    · rw [← he, hsame] at hlt
      exact lt_irrefl _ hlt
    · rw [hsame] at hlt'
      exact lt_irrefl _ (hlt.trans hlt')
  ended := by
    simp only [GoesThrough, hanswer, if_pos hlt, hrecord, true_and]
    rw [← hmode, ← hf.config]
    exact h.ended
  quiet := fun hok => by simp [h.quiet hok, hevents, hanswer]

theorem evaluate_classes_spec (l : Evaluation F) (classes : List ThreatClass) :
    LoopSpec answers now l classes (evaluate_classes answers now previously l classes) := by
  induction classes generalizing l with
  | nil => exact ⟨.refl _, by simp [evaluate_classes, Rises], by simp [evaluate_classes, GoesThrough], by simp [evaluate_classes]⟩
  | cons threat_class rest ih =>
    cases hanswer : evaluate_threat_class l.monitor.config answers threat_class now with
    | error e =>
      simp only [evaluate_classes, hanswer]
      exact ⟨.refl _, by simp [Rises, hanswer], by simp [GoesThrough, hanswer], fun h => by cases h⟩
    | ok found =>
      cases found with
      | none =>
        simp only [evaluate_classes, hanswer]
        refine ⟨(ih l).follows, by simpa [Rises, hanswer] using (ih l).unmoved, by simpa [GoesThrough, hanswer] using (ih l).ended,
          fun hok => by simp [(ih l).quiet hok, hanswer]⟩
      | some event =>
        simp only [evaluate_classes, hanswer]
        by_cases hlt : mode_rank l.monitor.mode_state.current < mode_rank (event_mode event)
        · cases hrecord : answers.record_escalation (escalation_record event) with
          | error e =>
            rw [raise_mode_refused hlt hrecord]
            exact ⟨.refl _, by simp [Rises, hanswer, hlt, hrecord], by simp [GoesThrough, hanswer, hlt, hrecord],
              fun h => by cases h⟩
          | ok _ =>
            obtain ⟨m, hm, hmode, hf⟩ := raise_mode_accepted hlt hrecord (event_timestamp_of_evaluate hanswer)
            rw [hm]
            obtain ⟨hedge, hstate⟩ := follows_edge m answers.now_ms
              (!previously.contains (event_threat_class event) || true) event true
            exact (ih _).raised (hf.trans hedge) ((congrArg (·.current) hstate).trans hmode) (by simp) hanswer hlt hrecord
        · rw [raise_mode_below (not_lt.1 hlt)]
          obtain ⟨hedge, hstate⟩ := follows_edge l.monitor answers.now_ms
            (!previously.contains (event_threat_class event) || false) event false
          exact (ih _).below hedge hstate (by simp) hanswer hlt

end

/-- Quiet answers go through and leave the mode. -/
theorem quiet_loop {config : PheromoneConfig F} {answers : SubstrateAnswers E F} {now : Int}
    {classes : List ThreatClass}
    (h : ∀ threat_class ∈ classes, evaluate_threat_class config answers threat_class now = .ok none) (mode : SwarmMode) :
    GoesThrough config answers now mode classes ∧ ¬ Rises config answers now mode classes := by
  induction classes with
  | nil => exact ⟨trivial, id⟩
  | cons threat_class rest ih =>
    obtain ⟨hquiet, hrest⟩ := List.forall_mem_cons.1 h
    rw [GoesThrough, Rises, hquiet]
    exact ih hrest

/-! ## The return to normal -/

/-- The mode is lowered when no class is above its threshold. -/
def Cools (m : ConcentrationMonitor F) (now : Int) : Prop :=
  m.mode_state.current ≠ .Normal ∧
    ∃ elapsed, checkedSubI now (m.below_threshold_since.getD now) = some elapsed ∧ m.config.deescalation_cooldown_secs ≤ elapsed

/-- A class that is resolved is answered for and its record is accepted. -/
def Answered (answers : SubstrateAnswers E F) (now : Int) (threat_class : ThreatClass) : Prop :=
  ∃ c, answers.resolved_concentration threat_class = .ok c ∧ answers.record_escalation
    ⟨.Normal, threat_class, c.total_strength, c.distinct_sources, c.peak_confidence, now⟩ = .ok ()

/-- The class that triggered the mode is resolved. -/
def Resolves (m : ConcentrationMonitor F) (answers : SubstrateAnswers E F) (now : Int) : Prop :=
  ∀ threat_class, m.mode_state.triggering_threat_class = some threat_class → Answered answers now threat_class

section
variable {m : ConcentrationMonitor F} {answers : SubstrateAnswers E F} {resolved : Option ThreatClass} {now : Int}

omit [LE F] [DecidableLE F]

theorem record_resolution_ok (h : ∀ threat_class, resolved = some threat_class → Answered answers now threat_class) :
    ∃ records : List (EscalationRecord F),
      record_resolution m answers resolved now = ({ m with accepted := m.accepted ++ records }, .ok ()) ∧
      records.map (fun r => (r.mode, r.threat_class, some r.timestamp)) =
        (resolved.map (fun threat_class => (SwarmMode.Normal, threat_class, some now))).toList := by
  cases resolved with
  | none => exact ⟨[], by rw [List.append_nil]; rfl, rfl⟩
  | some threat_class =>
    obtain ⟨c, hc, hrecord⟩ := h threat_class rfl
    simp only [record_resolution, hc, hrecord]
    exact ⟨[_], rfl, rfl⟩

theorem record_resolution_failed (h : ¬ ∀ threat_class, resolved = some threat_class → Answered answers now threat_class) :
    ∃ e, record_resolution m answers resolved now = (m, .error e) := by
  cases resolved with
  | none => exact absurd (fun _ hnone => by cases hnone) h
  | some threat_class =>
    cases hc : answers.resolved_concentration threat_class with
    | error e => exact ⟨e, by simp only [record_resolution, hc]⟩
    | ok c =>
      cases hrecord : answers.record_escalation
          ⟨.Normal, threat_class, c.total_strength, c.distinct_sources, c.peak_confidence, now⟩ with
      | error e => exact ⟨e, by simp only [record_resolution, hc, hrecord]⟩
      | ok _ =>
        refine absurd (fun _ hsome => ?_) h
        obtain rfl := Option.some.inj hsome
        exact ⟨c, hc, hrecord⟩

/-- The mode once it is lowered. -/
def calm (now : Int) : SwarmModeState := ⟨.Normal, some now, none⟩

/-- A return to normal that is recorded is published. -/
theorem lower_mode_ok (hmode : m.mode_state.current ≠ .Normal) (h : Resolves m answers now) :
    ∃ m', lower_mode m answers (calm now) now = (m', .ok true) ∧ m'.mode_state = calm now ∧
      m'.shared_mode_state = m.shared_mode_state ∧ (Told m → Told m') := by
  obtain ⟨records, hrecords, htold⟩ := record_resolution_ok (m := m.set_mode_state (calm now)) h
  rw [lower_mode, hrecords]
  refine ⟨_, rfl, rfl, rfl, fun ht => ?_⟩
  refine ht.change (c := ⟨m.mode_state.current, .Normal, m.mode_state.triggering_threat_class, some now⟩)
    (if_neg (Ne.symm hmode)) rfl ?_ (transitions_publish m answers.now_ms
      (fun at_ms => .ModeTransition at_ms m.mode_state.current .Normal none "deescalation_cooldown_elapsed")
      (some (m.mode_state.current, .Normal)) (fun _ => rfl))
  rw [htold]
  rfl

theorem lower_mode_failed (h : ¬ Resolves m answers now) :
    ∃ m' e, lower_mode m answers (calm now) now = (m', .error e) ∧ m'.mode_state = calm now ∧
      m'.shared_mode_state = m.shared_mode_state := by
  obtain ⟨e, he⟩ := record_resolution_failed (m := m.set_mode_state (calm now)) h
  rw [lower_mode, he]
  exact ⟨_, e, rfl, rfl, rfl⟩

theorem settle_cools (h : Cools m now) :
    settle m answers now =
      some (lower_mode { m with below_threshold_since := some (m.below_threshold_since.getD now) } answers (calm now) now) := by
  obtain ⟨hmode, elapsed, helapsed, hcooldown⟩ := h
  have hdown : m.mode_state.transition_down .Normal now = (calm now, true) := by
    rw [SwarmModeState.transition_down, if_neg]
    · rfl
    · cases hcurrent : m.mode_state.current with
      | Normal => exact absurd hcurrent hmode
      | Alert => decide
      | Incident => decide
  simp only [settle, if_neg hmode, helapsed, hdown]
  rw [if_pos (by simpa using hcooldown)]

theorem settle_warm (h : ¬ Cools m now) {r : ConcentrationMonitor F × Except E Bool} (hr : settle m answers now = some r) :
    r.2 = .ok false ∧ r.1.mode_state = m.mode_state ∧ r.1.shared_mode_state = m.shared_mode_state ∧ (Told m → Told r.1) := by
  rw [settle] at hr
  split at hr
  · obtain rfl := Option.some.inj hr
    exact ⟨rfl, rfl, rfl, fun ht => ⟨ht.published, ht.recorded⟩⟩
  · next hmode =>
    dsimp only at hr
    split at hr
    · cases hr
    · next elapsed helapsed =>
      have hcooldown : ¬ m.config.deescalation_cooldown_secs ≤ elapsed := fun hle => h ⟨hmode, elapsed, helapsed, hle⟩
      rw [if_neg (by simp [hcooldown])] at hr
      obtain rfl := Option.some.inj hr
      exact ⟨rfl, rfl, rfl, fun ht => ⟨ht.published, ht.recorded⟩⟩

/-! ## The end of an evaluation -/

/-- Every class is answered for the snapshot. -/
def Snapshots (answers : SubstrateAnswers E F) : Prop :=
  ∀ threat_class ∈ standard_threat_classes, ∃ c, answers.snapshot_concentration threat_class = .ok c

theorem mapM_ok_iff {A B : Type} (f : A → Except E B) (l : List A) : (∃ bs, l.mapM f = .ok bs) ↔ ∀ a ∈ l, ∃ b, f a = .ok b := by
  induction l with
  | nil =>
    refine ⟨fun _ a ha => ?_, fun _ => ⟨[], rfl⟩⟩
    cases ha
  | cons a l ih =>
    simp only [List.mapM_cons, ok_bind_iff, List.forall_mem_cons, ← ih]
    constructor
    · rintro ⟨_, b, hb, bs, hbs, -⟩
      exact ⟨⟨b, hb⟩, bs, hbs⟩
    · rintro ⟨⟨b, hb⟩, bs, hbs⟩
      exact ⟨b :: bs, b, hb, bs, hbs, rfl⟩

/-- The shared mode is brought up to date when the snapshot is taken, and only then. -/
theorem inStep_finish {shared : SwarmModeState} (ht : Told m) (hs : m.shared_mode_state = some shared)
    (events : List (EscalationEvent F)) (mode_changed : Bool) :
    InStep (finish m answers events mode_changed).1 ↔ Snapshots answers ∨ shared = m.mode_state := by
  rw [show Snapshots answers ↔ ∃ cs, snapshot_concentrations answers = .ok cs from (mapM_ok_iff _ _).symm]
  cases hsnapshot : snapshot_concentrations answers with
  | error e =>
    simp only [finish, hsnapshot, reduceCtorEq, exists_false, false_or]
    exact ⟨fun h => Option.some.inj (hs.symm.trans h.shared), fun h => ⟨hs.trans (congrArg some h), ht⟩⟩
  | ok cs =>
    simp only [finish, hsnapshot]
    have htold := ht.publish answers.now_ms (fun at_ms => .ConcentrationSnapshot at_ms m.mode_state.current cs) (fun _ => rfl)
    refine ⟨fun _ => .inl ⟨cs, rfl⟩, fun _ => ⟨?_, htold.published, htold.recorded⟩⟩
    show m.shared_mode_state.map (fun _ => m.mode_state) = some m.mode_state
    rw [hs]
    rfl

end

/-! ## Evaluations -/

/-- Nothing that an evaluation asks of the substrate fails after it has moved the mode. -/
structure Smooth (m : ConcentrationMonitor F) (answers : SubstrateAnswers E F) (now : Int) : Prop where
  raised : Rises m.config answers now m.mode_state.current standard_threat_classes →
    GoesThrough m.config answers now m.mode_state.current standard_threat_classes ∧ Snapshots answers
  lowered : (∀ threat_class ∈ standard_threat_classes, evaluate_threat_class m.config answers threat_class now = .ok none) →
    Cools m now → Resolves m answers now ∧ Snapshots answers

section
variable {m m' : ConcentrationMonitor F} {answers : SubstrateAnswers E F} {now : Int}

/-- The three ways an evaluation ends. -/
theorem evaluate_all_cases {outcome : Except E (EscalationOutcome F)} (h : evaluate_all m answers now = some (m', outcome)) :
    ∃ l r, evaluate_classes answers now m.escalated_classes { monitor := { m with escalated_classes := [] } }
        standard_threat_classes = (l, r) ∧
      ((r ≠ .ok () ∧ m' = l.monitor) ∨
      (r = .ok () ∧ l.events ≠ [] ∧ m' = (finish { l.monitor with
        escalated_classes := l.now_escalated, below_threshold_since := none } answers l.events l.mode_changed).1) ∨
      (r = .ok () ∧ l.events = [] ∧ ∃ settled ended, settle { l.monitor with escalated_classes := l.now_escalated } answers now =
        some (settled, ended) ∧
        ((∃ e, ended = .error e ∧ m' = settled) ∨
          ∃ lowered, ended = .ok lowered ∧ m' = (finish settled answers l.events (l.mode_changed || lowered)).1))) := by
  rw [evaluate_all] at h
  obtain ⟨l, r, hloop⟩ : ∃ l r, evaluate_classes answers now m.escalated_classes
      { monitor := { m with escalated_classes := [] } } standard_threat_classes = (l, r) := ⟨_, _, rfl⟩
  refine ⟨l, r, hloop, ?_⟩
  rw [hloop] at h
  cases r with
  | error e => exact .inl ⟨by simp, (congrArg Prod.fst (Option.some.inj h)).symm⟩
  | ok _ =>
    dsimp only at h
    split at h
    · next hevents =>
      refine .inr (.inr ⟨rfl, List.isEmpty_iff.1 hevents, ?_⟩)
      split at h
      · cases h
      · next settled e hsettle => exact ⟨settled, _, hsettle, .inl ⟨e, rfl, (congrArg Prod.fst (Option.some.inj h)).symm⟩⟩
      · next settled lowered hsettle =>
        exact ⟨settled, _, hsettle, .inr ⟨lowered, rfl, (congrArg Prod.fst (Option.some.inj h)).symm⟩⟩
    · next hevents =>
      exact .inr (.inl ⟨rfl, fun hnil => hevents (List.isEmpty_iff.2 hnil), (congrArg Prod.fst (Option.some.inj h)).symm⟩)

omit [LE F] [DecidableLE F] in
/-- A quiet evaluation that starts in step. -/
theorem inStep_settled (hm : InStep m) {settled : ConcentrationMonitor F} {ended : Except E Bool}
    (h : settle m answers now = some (settled, ended)) {events : List (EscalationEvent F)} {mode_changed : Bool}
    (hend : (∃ e, ended = .error e ∧ m' = settled) ∨
      ∃ lowered, ended = .ok lowered ∧ m' = (finish settled answers events (mode_changed || lowered)).1) :
    InStep m' ↔ (Cools m now → Resolves m answers now ∧ Snapshots answers) := by
  by_cases hcools : Cools m now
  · have hmoved : m.mode_state ≠ calm now := fun he => hcools.1 (congrArg (·.current) he)
    rw [settle_cools hcools] at h
    by_cases hresolves : Resolves m answers now
    · obtain ⟨lowered, hlowered, hstate, hshared, htold⟩ :=
        lower_mode_ok (m := { m with below_threshold_since := some (m.below_threshold_since.getD now) }) hcools.1 hresolves
      rw [hlowered] at h
      obtain ⟨rfl, rfl⟩ := Prod.mk.inj (Option.some.inj h)
      rcases hend with ⟨e, he, -⟩ | ⟨_, -, rfl⟩
      · cases he
      · rw [inStep_finish (htold ⟨hm.told.published, hm.told.recorded⟩) (hshared.trans hm.shared), hstate]
        simp [hcools, hresolves, hmoved]
    · obtain ⟨lowered, e, hlowered, hstate, hshared⟩ :=
        lower_mode_failed (m := { m with below_threshold_since := some (m.below_threshold_since.getD now) }) hresolves
      rw [hlowered] at h
      obtain ⟨rfl, rfl⟩ := Prod.mk.inj (Option.some.inj h)
      rcases hend with ⟨_, -, rfl⟩ | ⟨_, he, -⟩
      · refine ⟨fun hin => absurd ?_ hmoved, fun hall => absurd (hall hcools).1 hresolves⟩
        rw [← hstate]
        exact Option.some.inj (hm.shared.symm.trans (hshared.symm.trans hin.shared))
      · cases he
  · obtain ⟨hok, hstate, hshared, htold⟩ := settle_warm hcools h
    refine iff_of_true ?_ (fun hc => absurd hc hcools)
    rcases hend with ⟨e, he, -⟩ | ⟨_, -, rfl⟩
    · rw [he] at hok
      cases hok
    · exact (inStep_finish (htold hm.told) (hshared.trans hm.shared) _ _).2 (.inr hstate.symm)

/-- An evaluation that starts in step ends in step when it is smooth, and only then. -/
theorem inStep_iff_smooth (hm : InStep m) {outcome : Except E (EscalationOutcome F)}
    (h : evaluate_all m answers now = some (m', outcome)) : InStep m' ↔ Smooth m answers now := by
  obtain ⟨l, r, hloop, hcases⟩ := evaluate_all_cases h
  have hspec : LoopSpec answers now { monitor := { m with escalated_classes := [] } } standard_threat_classes (l, r) :=
    hloop ▸ evaluate_classes_spec _ _
  have htold : Told l.monitor := hspec.follows.told ⟨hm.told.published, hm.told.recorded⟩
  have hshared : l.monitor.shared_mode_state = some m.mode_state := hspec.follows.shared.trans hm.shared
  have hunmoved : l.monitor.mode_state = m.mode_state ↔ ¬ Rises m.config answers now m.mode_state.current standard_threat_classes :=
    hspec.unmoved
  have hended : r = .ok () ↔ GoesThrough m.config answers now m.mode_state.current standard_threat_classes := hspec.ended
  rcases hcases with ⟨hr, rfl⟩ | ⟨hr, hevents, rfl⟩ | ⟨hr, hevents, settled, ended, hsettle, hend⟩
  · -- The loop failed: in step if it had not raised the mode.
    have hstops := fun hgoes => hr (hended.2 hgoes)
    have hin : InStep l.monitor ↔ l.monitor.mode_state = m.mode_state :=
      ⟨fun hin => (Option.some.inj (hshared.symm.trans hin.shared)).symm, fun he => ⟨hshared.trans (congrArg some he.symm), htold⟩⟩
    rw [hin, hunmoved]
    refine ⟨fun hrises => ⟨fun hr => absurd hr hrises, fun hquiet => absurd (quiet_loop hquiet _).1 hstops⟩, fun hsmooth hrises => ?_⟩
    exact hstops (hsmooth.raised hrises).1
  · -- Some class is above its threshold.
    have hgoes := hended.1 hr
    have hloud : ¬ ∀ threat_class ∈ standard_threat_classes, evaluate_threat_class m.config answers threat_class now = .ok none :=
      fun hquiet => hevents (((hspec.quiet hr).2 ⟨rfl, hquiet⟩))
    have hkept : Told { l.monitor with escalated_classes := l.now_escalated, below_threshold_since := none } :=
      ⟨htold.published, htold.recorded⟩
    rw [inStep_finish hkept hshared]
    constructor
    · rintro (hsnapshots | hsame)
      · exact ⟨fun _ => ⟨hgoes, hsnapshots⟩, fun hquiet => absurd hquiet hloud⟩
      · exact ⟨fun hrises => absurd hrises (hunmoved.1 hsame.symm), fun hquiet => absurd hquiet hloud⟩
    · intro hsmooth
      by_cases hrises : Rises m.config answers now m.mode_state.current standard_threat_classes
      · exact .inl (hsmooth.raised hrises).2
      · exact .inr (hunmoved.2 hrises).symm
  · -- Every class is below its threshold.
    have hquiet := ((hspec.quiet hr).1 hevents).2
    have hrises := (quiet_loop hquiet m.mode_state.current).2
    have hstate := hunmoved.2 hrises
    have hin : InStep { l.monitor with escalated_classes := l.now_escalated } :=
      ⟨hshared.trans (congrArg some hstate.symm), htold.published, htold.recorded⟩
    have hcools : Cools { l.monitor with escalated_classes := l.now_escalated } now ↔ Cools m now := by
      rw [Cools, Cools, hstate, hspec.follows.since, hspec.follows.config]
    have hresolves : Resolves { l.monitor with escalated_classes := l.now_escalated } answers now ↔ Resolves m answers now := by
      rw [Resolves, Resolves, hstate]
    rw [inStep_settled hin hsettle hend, hcools, hresolves]
    exact ⟨fun h => ⟨fun hr => absurd hr hrises, fun _ => h⟩, fun hsmooth => hsmooth.lowered hquiet⟩

end

/-! ## Runs -/

/-- A call of `evaluate_all`: what the substrate answers and the clock. -/
structure EvaluateCall (E F : Type) where
  answers : SubstrateAnswers E F
  now : Int

/-- A call that returns, with `Ok` or with `Err`. -/
def Evaluates (m : ConcentrationMonitor F) (call : EvaluateCall E F) (m' : ConcentrationMonitor F) : Prop :=
  ∃ outcome, evaluate_all m call.answers call.now = some (m', outcome)

/-- A monitor with the mode it shares and the events it publishes. -/
def ConcentrationMonitor.attached (config : PheromoneConfig F) : ConcentrationMonitor F :=
  (ConcentrationMonitor.new config).with_shared_mode_state.with_runtime_events

omit [LE F] [DecidableLE F] in
theorem inStep_attached (config : PheromoneConfig F) : InStep (.attached config) := ⟨rfl, rfl, rfl⟩

/-- Over any calls, the monitor is in step after each that returns exactly when each of them is smooth: nothing it asks of the
substrate fails after it has moved the mode. -/
theorem in_step_throughout_iff_smooth (config : PheromoneConfig F) (calls : List (EvaluateCall E F)) :
    (∀ past m, past <+: calls → Run Evaluates (.attached config) past m → InStep m) ↔
      ∀ past call m m', past ++ [call] <+: calls → Run Evaluates (.attached config) past m → Evaluates m call m' →
        Smooth m call.answers call.now := by
  refine Run.throughout_iff (inStep_attached config) ?_ calls
  rintro m call m' hm ⟨outcome, hcall⟩
  exact inStep_iff_smooth hm hcall

/-! ## Modes that nobody else is in -/

/-- A substrate where lateral movement is at `strength` and nothing else is seen; `resolved` and `snapshots` say which queries it
answers. -/
def lateral_movement (strength : Int) (resolved snapshots : Bool) : SubstrateAnswers Unit Int :=
  let level : ThreatClass → PheromoneConcentration Int := fun c => ⟨c, if c = .LateralMovement then strength else 0, 2, 0⟩
  { query_threat_class_config := fun _ => .ok none
    query_concentration := fun c => .ok (level c)
    resolved_concentration := fun c => if resolved then .ok (level c) else .error ()
    snapshot_concentration := fun c => if snapshots then .ok (level c) else .error ()
    record_escalation := fun _ => .ok ()
    now_ms := fun _ => 0 }

def monitor_config : PheromoneConfig Int := ⟨3600, 10, 2, 2000, 5000, 300⟩

/-- The mode is raised and the snapshot fails. -/
def raised_unseen : List (EvaluateCall Unit Int) := [⟨lateral_movement 3000 true false, 1000⟩]

/-- The mode is raised, then lowered in a call whose query for the record fails; the next call stores the mode. -/
def lowered_untold : List (EvaluateCall Unit Int) :=
  [⟨lateral_movement 3000 true true, 1000⟩, ⟨lateral_movement 0 true true, 1100⟩, ⟨lateral_movement 0 false true, 1400⟩,
    ⟨lateral_movement 0 true true, 1401⟩]

theorem shared_mode_lags_behind :
    (¬ ∀ (config : PheromoneConfig Int) (calls : List (EvaluateCall Unit Int)) (m : ConcentrationMonitor Int),
      Run Evaluates (.attached config) calls m → m.shared_mode_state = some m.mode_state) ∧
    ¬ ∀ (config : PheromoneConfig Int) (calls : List (EvaluateCall Unit Int)) (m : ConcentrationMonitor Int),
      Run Evaluates (.attached config) calls m → Told m := by
  constructor
  · intro hall
    have hrun : Run Evaluates (.attached monitor_config) raised_unseen _ := .single ⟨_, rfl⟩
    exact absurd (hall _ _ _ hrun) (by decide +kernel)
  · intro hall
    have hrun : Run Evaluates (.attached monitor_config) lowered_untold _ :=
      .cons ⟨_, rfl⟩ (.cons ⟨_, rfl⟩ (.cons ⟨_, rfl⟩ (.single ⟨_, rfl⟩)))
    exact absurd (hall _ _ _ hrun).published (by decide +kernel)

end Ambush.Runtime

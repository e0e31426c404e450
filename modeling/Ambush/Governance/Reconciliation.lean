import Ambush.Governance.BlastRadius
/-!
# Partition records are reconciled once

In a partition every decision is recorded; the observation that ends it moves the records
into one report and announces the report. The records of a whole run are therefore cut into
consecutive pieces, one for each report announced, and what the state still holds.
-/
open Lib

namespace Ambush.Governance

open Consensus Policy

/-- The queue is emptied, and what it held returned. -/
def GovernancePolicy.drain_runtime_events {T : ConsensusTransport} (p : GovernancePolicy T) :
    GovernancePolicy T × List GovernanceRuntimeEvent :=
  ({ p with state := { p.state with pending_events := [] } }, p.state.pending_events)

def GovernanceRuntimeEvent.report : GovernanceRuntimeEvent → Option PartitionReconciliationReport
  | .PartitionReconciliation _ _ report => some report
  | .PartitionStateTransition .. => none

/-- The report has the records, each on the side of its flag and in the order they were made in. -/
structure Reconciles (report : PartitionReconciliationReport) (records : List PartitionActionRecord) : Prop where
  authorized : report.authorized_actions = records.filter (·.authorized)
  unauthorized : report.unauthorized_actions = records.filter (!·.authorized)

/-- What a call does to records and events. A partition that ends hands all its records to
one report; otherwise records and events are only added, and no report is among the events. -/
inductive Passage (s : GovernanceState) :
    List PartitionActionRecord → List GovernanceRuntimeEvent → GovernanceState → Prop
  | stays {records events s'} (hstate : s.partition_state = .Partitioned → s'.partition_state = .Partitioned)
      (hactivity : s'.partition_activity = s.partition_activity ++ records)
      (hevents : s'.pending_events = s.pending_events ++ events) (hnone : events.filterMap (·.report) = []) :
      Passage s records events s'
  | heals {report events s'} (hpart : s.partition_state = .Partitioned) (hstate : s'.partition_state = .Healing)
      (hactivity : s'.partition_activity = []) (hevents : s'.pending_events = s.pending_events ++ events)
      (hone : events.filterMap (·.report) = [report]) (hreport : Reconciles report s.partition_activity) :
      Passage s [] events s'

/-! ## Observing health -/

section Observe
variable (s : GovernanceState) (g : AgentId) (at_ms : Int)

theorem reconcile_reconciles :
    Reconciles (reconcile_partition_activity_locked s at_ms).2 s.partition_activity := ⟨rfl, rfl⟩

/-- The transition that is announced is no report. -/
theorem enter_state_events (next : PartitionState) (count : HealthCount) :
    ∃ events, (enter_state s next count g at_ms).pending_events = s.pending_events ++ events ∧
      events.filterMap (·.report) = [] := by
  unfold enter_state
  split
  · exact ⟨[], by simp, rfl⟩
  · exact ⟨_, rfl, rfl⟩

theorem enter_state_activity (next : PartitionState) (count : HealthCount) :
    (enter_state s next count g at_ms).partition_activity = s.partition_activity := by
  unfold enter_state
  split <;> rfl

/-- A partition ends where the quorum is back. -/
theorem next_state_heals {base : PartitionState} (hpart : s.partition_state = .Partitioned)
    (hbase : base = .Healthy ∨ base = .Degraded) :
    next_state s base g at_ms = ({ (reconcile_partition_activity_locked s at_ms).1 with
      pending_events := s.pending_events ++
        [.PartitionReconciliation at_ms g (reconcile_partition_activity_locked s at_ms).2] }, .Healing) := by
  rcases hbase with rfl | rfl
  · simp only [next_state, hpart]
    rfl
  · simp only [next_state, hpart]
    rfl

theorem next_state_stays {base : PartitionState} (h : ¬ (s.partition_state = .Partitioned ∧ base ≠ .Partitioned)) :
    next_state s base g at_ms = (s, base) := by
  unfold next_state
  split
  · rename_i hpart
    exact absurd ⟨hpart, by decide⟩ h
  · rename_i hpart
    exact absurd ⟨hpart, by decide⟩ h
  · rfl

theorem base_state_cases {count : HealthCount} {unhealthy : List AgentHealthEntry}
    (h : base_state count unhealthy ≠ .Partitioned) :
    base_state count unhealthy = .Healthy ∨ base_state count unhealthy = .Degraded := by
  revert h
  unfold base_state
  split
  · exact fun h => absurd rfl h
  · split
    · exact fun _ => .inl rfl
    · exact fun _ => .inr rfl

theorem transitioned_passage (es : List AgentHealthEntry) :
    ∃ events, Passage s [] events (transitioned s g es at_ms) := by
  let noted := note_health s g es
  let base := base_state (count_health s es) noted.unhealthy_agents
  let next := next_state noted base g at_ms
  obtain ⟨events, hevents, hnone⟩ := enter_state_events next.1 g at_ms next.2 (count_health s es)
  have hactivity := enter_state_activity next.1 g at_ms next.2 (count_health s es)
  have hstate := enter_state_partition_state next.1 g at_ms next.2 (count_health s es)
  by_cases hheal : s.partition_state = .Partitioned ∧ base ≠ .Partitioned
  · have hnext : next = _ := next_state_heals noted g at_ms hheal.1 (base_state_cases hheal.2)
    have hout : transitioned s g es at_ms = enter_state next.1 next.2 (count_health s es) g at_ms := rfl
    rw [hnext] at hevents hactivity hstate hout
    rw [hout]
    refine ⟨.PartitionReconciliation at_ms g (reconcile_partition_activity_locked noted at_ms).2 :: events, .heals hheal.1 hstate hactivity ?_ ?_ (reconcile_reconciles noted at_ms)⟩
    · refine hevents.trans ?_
      rw [List.append_assoc]
      rfl
    · rw [List.filterMap_cons, hnone]
      rfl
  · have hnext : next = (noted, base) := next_state_stays noted g at_ms hheal
    have hout : transitioned s g es at_ms = enter_state next.1 next.2 (count_health s es) g at_ms := rfl
    rw [hnext] at hevents hactivity hstate hout
    rw [hout]
    refine ⟨events, .stays ?_ (hactivity.trans (List.append_nil _).symm) hevents hnone⟩
    intro hpart
    refine hstate.trans ?_
    by_contra hne
    exact hheal ⟨hpart, hne⟩

/-- Pruning and staging leases touches neither records nor events. -/
theorem observed_passage {c : Crypto} {es : List AgentHealthEntry} {new : List ContingencyLease} {s' : GovernanceState}
    (h : Stages c at_ms (observe s g es at_ms) new s') : ∃ events, Passage s [] events s' := by
  obtain ⟨events, hpassage⟩ := transitioned_passage s g at_ms es
  refine ⟨events, ?_⟩
  rw [h.state]
  cases hpassage with
  | stays hstate hactivity hevents hnone => exact .stays hstate hactivity hevents hnone
  | heals hpart hstate hactivity hevents hone hreport => exact .heals hpart hstate hactivity hevents hone hreport

end Observe

/-! ## One call -/

section Step
variable {c : Crypto} {decode : Value → Except String ContingencyLease} {T : ConsensusTransport} {p p' : GovernancePolicy T}
  {a : Call T}

/-- The call was answered `Ok`. -/
def Reply.granted : Reply → Bool
  | .authorized (.ok _) => true
  | _ => false

/-- The events a call announces. -/
def Call.events (a : Call T) : List GovernanceRuntimeEvent :=
  a.after.state.pending_events.drop a.before.state.pending_events.length

/-- What is recorded of a call: one record, made in a partition, of a request for a
destructive action or of a veto, with the flag that says whether it was granted. -/
def Call.Recorded (a : Call T) : Prop :=
  match a.op with
  | .authorize_partition_request request now_ms =>
    if is_destructive_action request.action ∧ a.before.state.partition_state = .Partitioned then
      ∃ reason lease_id, a.records = [partition_action_record request a.reply.granted reason lease_id now_ms]
    else a.records = []
  | .note_partition_veto request reason now_ms =>
    if a.before.state.partition_state = .Partitioned then
      ∃ lease_id, a.records = [partition_action_record request false reason lease_id now_ms]
    else a.records = []
  | _ => a.records = []

theorem Passage.idle {s s' : GovernanceState} (hstate : s'.partition_state = s.partition_state)
    (hactivity : s'.partition_activity = s.partition_activity) (hevents : s'.pending_events = s.pending_events) :
    Passage s [] [] s' :=
  .stays (fun h => hstate.trans h) (by simp [hactivity]) (by simp [hevents]) rfl

theorem record_passage {s s' : GovernanceState} {request : ActionRequest} {authorized : Bool} {reason : String}
    {lease_id : Option String} {now_ms : Int} (hstate : s'.partition_state = s.partition_state)
    (hactivity : s'.partition_activity = s.partition_activity) (hevents : s'.pending_events = s.pending_events) :
    Passage s [partition_action_record request authorized reason lease_id now_ms] []
      (record_partition_activity_locked s' request authorized reason lease_id now_ms) :=
  .stays (fun h => hstate.trans h) (by simp [record_partition_activity_locked, hactivity])
    (by simp [record_partition_activity_locked, hevents]) rfl

/-- Only a call that presents a request is recorded. -/
theorem performed_passage {op : Op T} {saves : Bool} {reply : Reply} (hop : ∀ config t, op ≠ .reload config t)
    (h : Performed c decode p saves op p' reply) : ∃ records events, Passage p.state records events p'.state ∧
      ((∀ request now_ms, ¬ op.Presents request now_ms) → records = []) := by
  cases h with
  | idle t _ _ _ => exact ⟨[], [], .idle rfl rfl rfl, fun _ => rfl⟩
  | keys hkeys _ =>
    refine ⟨[], [], ?_, fun _ => rfl⟩
    rw [GovernancePolicy.persist_locked, hkeys]
    exact .idle rfl rfl rfl
  | observed t hstages =>
    obtain ⟨events, hpassage⟩ := observed_passage _ _ _ hstages
    exact ⟨[], events, hpassage, fun _ => rfl⟩
  | issued t _ hadv _ =>
    refine ⟨[], [], ?_, fun _ => rfl⟩
    rw [hadv.state]
    exact .idle rfl rfl rfl
  | refused hpresents _ _ => exact ⟨_, [], record_passage rfl rfl rfl, fun h => absurd hpresents (h _ _)⟩
  | redeemed _ _ _ _ => exact ⟨_, [], record_passage rfl rfl rfl, fun h => absurd (.inl rfl) (h _ _)⟩
  | reloaded t _ => exact absurd rfl (hop _ t)

/-- The records and events of a passage are what the state holds more than before. -/
theorem Passage.eq {s s' : GovernanceState} {records : List PartitionActionRecord} {events : List GovernanceRuntimeEvent}
    (h : Passage s records events s') : s'.partition_activity.drop s.partition_activity.length = records ∧
      s'.pending_events.drop s.pending_events.length = events := by
  cases h with
  | stays _ hactivity hevents _ => rw [hactivity, hevents, List.drop_left, List.drop_left]; exact ⟨rfl, rfl⟩
  | heals _ _ hactivity hevents _ _ => rw [hactivity, hevents, List.drop_left]; exact ⟨List.drop_nil, rfl⟩

theorem Passage.exits {s s' : GovernanceState} {records : List PartitionActionRecord} {events : List GovernanceRuntimeEvent}
    (h : Passage s records events s') (hpart : s.partition_state = .Partitioned) (hleft : s'.partition_state ≠ .Partitioned) :
    s'.partition_state = .Healing ∧ ∃ report, events.filterMap (·.report) = [report] := by
  cases h with
  | stays hstate _ _ _ => exact absurd (hstate hpart) hleft
  | heals _ hstate _ _ hone _ => exact ⟨hstate, _, hone⟩

theorem Passage.otherwise {s s' : GovernanceState} {records : List PartitionActionRecord}
    {events : List GovernanceRuntimeEvent} (h : Passage s records events s')
    (hnot : ¬ (s.partition_state = .Partitioned ∧ s'.partition_state ≠ .Partitioned)) :
    events.filterMap (·.report) = [] := by
  cases h with
  | stays _ _ _ hnone => exact hnone
  | heals hpart hstate _ _ _ _ =>
    refine absurd ⟨hpart, ?_⟩ hnot
    rw [hstate]
    decide

theorem Call.records_eq (hop : ∀ config t, a.op ≠ .reload config t) :
    a.records = a.after.state.partition_activity.drop a.before.state.partition_activity.length := by
  unfold Call.records
  split
  · rename_i config t hreload
    exact absurd hreload (hop config t)
  · rfl

/-- A call other than a restart is a passage with its own records and events. -/
theorem step_passage (h : Step c decode p a p') (hop : ∀ config t, a.op ≠ .reload config t) :
    Passage p.state a.records a.events p'.state ∧ ((∀ request now_ms, ¬ a.op.Presents request now_ms) → a.records = []) := by
  obtain ⟨records, events, hpassage, hnone⟩ := performed_passage hop h.performed
  obtain ⟨hrecords, hevents⟩ := hpassage.eq
  have hown : a.records = records := by rw [Call.records_eq hop, h.1, h.2.1, hrecords]
  have hsent : a.events = events := by rw [← hevents, ← h.1, ← h.2.1]; rfl
  rw [hown, hsent]
  exact ⟨hpassage, hnone⟩

/-- The record of an authorization, where one is made, has the flag of the answer. -/
theorem authorize_partition_request_activity (saves : Bool) (request : ActionRequest) (now_ms : Int) :
    let out := p.authorize_partition_request c decode saves request now_ms
    if is_destructive_action request.action ∧ p.state.partition_state = .Partitioned then
      ∃ reason lease_id, out.1.state.partition_activity = p.state.partition_activity ++
        [partition_action_record request (Reply.authorized out.2).granted reason lease_id now_ms]
    else out.1.state.partition_activity = p.state.partition_activity := by
  unfold GovernancePolicy.authorize_partition_request
  by_cases hdestructive : is_destructive_action request.action
  · by_cases hpart : p.state.partition_state = .Partitioned
    · simp only [hdestructive, hpart, Bool.not_true, Bool.false_eq_true, ne_eq, not_true_eq_false, if_false, and_self, if_true]
      split
      · exact ⟨_, _, rfl⟩
      · split
        · exact ⟨_, _, rfl⟩
        · exact ⟨_, _, rfl⟩
    · simp [hdestructive, hpart]
  · simp [hdestructive]

theorem note_partition_veto_activity (saves : Bool) (request : ActionRequest) (reason : String) (now_ms : Int) :
    if p.state.partition_state = .Partitioned then
      ∃ lease_id, (p.note_partition_veto saves request reason now_ms).state.partition_activity =
        p.state.partition_activity ++ [partition_action_record request false reason lease_id now_ms]
    else (p.note_partition_veto saves request reason now_ms).state.partition_activity = p.state.partition_activity := by
  unfold GovernancePolicy.note_partition_veto
  by_cases hpart : p.state.partition_state = .Partitioned
  · simp only [hpart, ne_eq, not_true_eq_false, if_false, if_true]
    exact ⟨_, rfl⟩
  · simp [hpart]

theorem step_recorded (h : Step c decode p a p') (hop : ∀ config t, a.op ≠ .reload config t) : a.Recorded := by
  have hnone := (step_passage h hop).2
  have hrecords := Call.records_eq hop
  obtain ⟨op, fuel, saves, reply, before, after⟩ := a
  obtain ⟨rfl, rfl, hperform⟩ := h
  dsimp only at hperform hrecords
  cases op with
  | authorize_partition_request request now_ms =>
    obtain ⟨rfl, rfl⟩ := Prod.mk.inj (Option.some.inj hperform)
    have hactivity := @authorize_partition_request_activity c decode T before saves request now_ms
    simp only [Call.Recorded]
    split at hactivity
    · rename_i hcond
      obtain ⟨reason, lease_id, hactivity⟩ := hactivity
      rw [if_pos hcond]
      exact ⟨reason, lease_id, by rw [hrecords, hactivity, List.drop_left]⟩
    · rename_i hcond
      rw [if_neg hcond, hrecords, hactivity, List.drop_length]
  | note_partition_veto request reason now_ms =>
    obtain ⟨rfl, rfl⟩ := Prod.mk.inj (Option.some.inj hperform)
    have hactivity := @note_partition_veto_activity T before saves request reason now_ms
    simp only [Call.Recorded]
    split at hactivity
    · rename_i hcond
      obtain ⟨lease_id, hactivity⟩ := hactivity
      rw [if_pos hcond]
      exact ⟨lease_id, by rw [hrecords, hactivity, List.drop_left]⟩
    · rename_i hcond
      rw [if_neg hcond, hrecords, hactivity, List.drop_length]
  | reload config t => exact absurd rfl (hop config t)
  | register_governor g key => exact hnone fun _ _ h => by rcases h with h | ⟨_, h⟩ <;> cases h
  | register_peer_governor peer => exact hnone fun _ _ h => by rcases h with h | ⟨_, h⟩ <;> cases h
  | observe_health g es at_ms => exact hnone fun _ _ h => by rcases h with h | ⟨_, h⟩ <;> cases h
  | can_act action now_ms issued_at_ms => exact hnone fun _ _ h => by rcases h with h | ⟨_, h⟩ <;> cases h
  | attest_release subject now_ms => exact hnone fun _ _ h => by rcases h with h | ⟨_, h⟩ <;> cases h

end Step

/-! ## Every run -/

section Runs
variable {c : Crypto} {decode : Value → Except String ContingencyLease} {T : ConsensusTransport} {p p' : GovernancePolicy T}

/-- A call of the policy, or its queue read out. -/
inductive Move (T : ConsensusTransport) where
  | call (a : Call T)
  | drain (events : List GovernanceRuntimeEvent)

/-- The policy goes on without a restart. -/
inductive Watched (c : Crypto) (decode : Value → Except String ContingencyLease) :
    GovernancePolicy T → Move T → GovernancePolicy T → Prop
  | call {p p' : GovernancePolicy T} {a : Call T} (hop : ∀ config t, a.op ≠ .reload config t) (h : Step c decode p a p') :
      Watched c decode p (.call a) p'
  | drain {p : GovernancePolicy T} : Watched c decode p (.drain p.drain_runtime_events.2) p.drain_runtime_events.1

def Move.called : Move T → Option (Call T)
  | .call a => some a
  | .drain _ => none

def Move.drained : Move T → List GovernanceRuntimeEvent
  | .call _ => []
  | .drain events => events

/-- The records made in a run, oldest first. -/
def recorded (moves : List (Move T)) : List PartitionActionRecord := (moves.filterMap Move.called).flatMap Call.records

/-- The events announced in a run, oldest first. -/
def announced (moves : List (Move T)) : List GovernanceRuntimeEvent := (moves.filterMap Move.called).flatMap Call.events

/-- The call ends a partition. -/
def Call.Exits (a : Call T) : Prop :=
  a.before.state.partition_state = .Partitioned ∧ a.after.state.partition_state ≠ .Partitioned

/-- A partition is only left for `Healing`, with one report. -/
structure Call.Orderly (a : Call T) : Prop where
  exits : a.Exits → a.after.state.partition_state = .Healing ∧ ∃ report, a.events.filterMap (·.report) = [report]
  otherwise : ¬ a.Exits → a.events.filterMap (·.report) = []

/-- The records so far are cut into those of the reports announced and those still held,
and the events so far into those read out and those still queued. -/
structure Balanced (p : GovernancePolicy T) (moves : List (Move T)) (p' : GovernancePolicy T) : Prop where
  events : p.state.pending_events ++ announced moves = moves.flatMap Move.drained ++ p'.state.pending_events
  records : ∃ pieces, List.Forall₂ Reconciles ((announced moves).filterMap (·.report)) pieces ∧
    p.state.partition_activity ++ recorded moves = pieces.flatten ++ p'.state.partition_activity

theorem step_orderly {a : Call T} (h : Step c decode p a p') (hop : ∀ config t, a.op ≠ .reload config t) : a.Orderly := by
  have hpassage := (step_passage h hop).1
  rw [← h.1, ← h.2.1] at hpassage
  exact ⟨fun hexit => hpassage.exits hexit.1 hexit.2, hpassage.otherwise⟩

theorem Balanced.call {q : GovernancePolicy T} {moves : List (Move T)} {a : Call T} (h : Balanced p moves q)
    (hpassage : Passage q.state a.records a.events p'.state) : Balanced p (moves ++ [.call a]) p' := by
  obtain ⟨pieces, hpieces, hrecords⟩ := h.records
  have hannounced : announced (moves ++ [.call a]) = announced moves ++ a.events := by simp [announced, Move.called]
  have hrecorded : recorded (moves ++ [.call a]) = recorded moves ++ a.records := by simp [recorded, Move.called]
  have hdrained : (moves ++ [Move.call a]).flatMap Move.drained = moves.flatMap Move.drained := by simp [Move.drained]
  generalize a.records = records, a.events = events at hpassage hannounced hrecorded
  cases hpassage with
  | stays _ hactivity hevents hnone =>
    refine ⟨?_, pieces, ?_, ?_⟩
    · rw [hannounced, hdrained, hevents, ← List.append_assoc, h.events, List.append_assoc]
    · rw [hannounced, List.filterMap_append, hnone, List.append_nil]
      exact hpieces
    · rw [hrecorded, hactivity, ← List.append_assoc, hrecords, List.append_assoc]
  | @heals report _ _ _ _ hactivity hevents hone hreport =>
    refine ⟨?_, pieces ++ [q.state.partition_activity], ?_, ?_⟩
    · rw [hannounced, hdrained, hevents, ← List.append_assoc, h.events, List.append_assoc]
    · rw [hannounced, List.filterMap_append, hone]
      exact List.rel_append hpieces (.cons hreport .nil)
    · rw [hrecorded, hactivity, ← List.append_assoc, hrecords]
      simp

theorem Balanced.drain {q : GovernancePolicy T} {moves : List (Move T)} (h : Balanced p moves q) :
    Balanced p (moves ++ [.drain q.drain_runtime_events.2]) q.drain_runtime_events.1 := by
  have hannounced : announced (moves ++ [.drain q.drain_runtime_events.2]) = announced moves := by
    simp [announced, Move.called]
  have hrecorded : recorded (moves ++ [.drain q.drain_runtime_events.2]) = recorded moves := by
    simp [recorded, Move.called]
  refine ⟨?_, ?_⟩
  · rw [hannounced, h.events]
    simp [Move.drained, GovernancePolicy.drain_runtime_events]
  · rw [hannounced, hrecorded]
    exact h.records

/-- Over every run that is not restarted, a partition is left for `Healing` only and with
exactly one report, every decision made in a partition is recorded, and every record is
still held or in exactly one report announced, in order and on its side. -/
theorem partition_records_reconciled_once {moves : List (Move T)} (hrun : Run (Watched c decode) p moves p') :
    (∀ a ∈ moves.filterMap Move.called, a.Orderly ∧ a.Recorded) ∧ Balanced p moves p' := by
  constructor
  · have hmoves := hrun.labels (I := fun _ => True) (Q := fun m => ∀ a, m.called = some a → a.Orderly ∧ a.Recorded)
      (fun q m q' _ _ hstep => by
        refine ⟨trivial, fun a ha => ?_⟩
        cases hstep with
        | call hop h =>
          cases ha
          exact ⟨step_orderly h hop, step_recorded h hop⟩
        | drain => cases ha) trivial
    intro a ha
    obtain ⟨m, hm, hcalled⟩ := List.mem_filterMap.1 ha
    exact hmoves m hm a hcalled
  · have hstep : ∀ q past m q', m ∈ moves → Balanced p past q → Watched c decode q m q' → Balanced p (past ++ [m]) q' := by
      intro q past m q' _ hq hstep
      cases hstep with
      | call hop h => exact hq.call (step_passage h hop).1
      | drain => exact hq.drain
    exact hrun.inv_past [] hstep ⟨by simp [announced], [], by simp [announced], by simp [recorded]⟩

/-- Calls without a restart are a run of the policy that goes on. -/
theorem watched_of_steps {calls : List (Call T)} (h : Run (Step c decode) p calls p')
    (hops : ∀ a ∈ calls, ∀ config t, a.op ≠ .reload config t) : Run (Watched c decode) p (calls.map .call) p' := by
  induction h with
  | nil => exact .nil
  | cons hstep _ ih =>
    exact .cons (.call (hops _ (by simp)) hstep) (ih fun a ha => hops a (List.mem_cons_of_mem _ ha))

end Runs

/-- The call is no restart. -/
def Op.goesOn {T : ConsensusTransport} : Op T → Bool
  | .reload _ _ => false
  | _ => true

/-- A session is ended in a partition and a second one refused, then the quorum comes back. -/
def healed : List (Caller flaky) :=
  registers :: ending "c" true ++ [presents "d" true, observes .Healthy 3]

theorem partition_records_reconciled_once_healed :
    ∃ calls p', Run (Step .plain (decodeAmong (staged .plain healed))) flakyPolicy calls p' ∧
      ((announced (calls.map Move.call)).filterMap (·.report)).map
        (fun r => (r.authorized_actions.length, r.unauthorized_actions.length)) = [(1, 1)] ∧
      Balanced flakyPolicy (calls.map .call) p' := by
  have hdrill : (drill .plain healed).map (fun calls => (calls.all (·.op.goesOn),
      ((announced (calls.map Move.call)).filterMap (·.report)).map
        (fun r => (r.authorized_actions.length, r.unauthorized_actions.length)))) = some (true, [(1, 1)]) := by
    decide +kernel
  obtain ⟨calls, hcalls, hout⟩ := Option.map_eq_some_iff.1 hdrill
  obtain ⟨hgoes, hreports⟩ := Prod.mk.inj hout
  obtain ⟨p', hrun⟩ := replay_run hcalls
  have hops : ∀ a ∈ calls, ∀ config t, a.op ≠ .reload config t := by
    intro a ha config t hop
    have := List.all_eq_true.1 hgoes a ha
    rw [hop] at this
    cases this
  exact ⟨calls, p', hrun, hreports, (partition_records_reconciled_once (watched_of_steps hrun hops)).2⟩

end Ambush.Governance

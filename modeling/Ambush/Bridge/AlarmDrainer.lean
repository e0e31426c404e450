import Ambush.Bridge.HoldPlans
import Ambush.Bridge.Parked
/-!
# The alarm drainer

One task drains the alarm spool, a record a tick: the record at the head, or on an idle tick one that is parked. A record is planned
from the routing, the hold store and the event its payload reads back to; its steps are published in turn, and how that ends decides
between a commit of the spool's cursor, a move to the dead-letter and another tick. The spool's cursor, the dead-letter and the routing
are three files: a process may end between any two of their writes.
-/
open Lib

namespace Ambush.Bridge

deriving instance DecidableEq for HoldEvent

/-- What the payload of an alarm record says. -/
inductive AlarmEvent where
  | CasePromoted (hunt_id case_id : String) (clause : PromotionClause)
  | ResponseHeld (event : HoldEvent)
  /-- A mode transition or a tamper alert. -/
  | Unpublished
  deriving DecidableEq

def subject_of : AlarmEvent → ParkSubject
  | .ResponseHeld event => .Hold event.hold_id
  | .CasePromoted _ case_id _ => .Case case_id
  | .Unpublished => .Unknown

/-! ## Refusals -/

def OkOutcome.reason : OkOutcome → String
  | .Accepted => "accepted"
  | .ChannelAlreadyExists => "channel_already_exists"
  | .AdmissionUnavailable => "admission_unavailable"
  | .RateLimited _ => "rate_limited"
  | .RelayForkAbsent => "relay_fork_absent"
  | .NotAChannelMember => "not_a_channel_member"
  | .ClockSkew => "clock_skew"
  | .Rejected _ => "rejected"

def refusal_label (message : String) : String :=
  (["admission_unavailable", "rate_limited", "relay_fork_absent", "not_a_channel_member", "clock_skew"].find?
    (fun label => label = message)).getD "rejected"

def HEAD_REFUSAL_BUDGET : Nat := 30

/-- The refusals of the record at the head. -/
structure HeadBudget where
  key : ParkKey
  refusals : Nat
  first_refused_at_ms : Int

def HeadBudget.new (key : ParkKey) (now_ms : Int) : HeadBudget := ⟨key, 0, now_ms⟩

/-- One refusal more; those of another record do not count. -/
def HeadBudget.refused (budget : Option HeadBudget) (key : ParkKey) (now_ms : Int) : HeadBudget :=
  let budget := budget.getD (.new key now_ms)
  let budget := if budget.key ≠ key then .new key now_ms else budget
  { budget with refusals := min (budget.refusals + 1) 4294967295 }

/-! ## Planning a record -/

/-- Why there is nothing to publish. -/
inductive Discard where
  | PlanEmpty
  | Undeliverable (hold_id reason : String)
  | CaseChannelConflict
  | Unpublished
  deriving DecidableEq

inductive Drained where
  | Landed
  | Refused (reason : String)
  | Stalled
  | Discarded (why : Discard)
  deriving DecidableEq

inductive DrainPlan where
  | Publish (steps : List PublishStep)
  | Discard (why : Discard)

section
variable {Uuid : Type} [DecidableEq Uuid] (u : Uuids Uuid)

/-- The first half of `drain_one`. -/
def HoldPlanner.plan_record (p : HoldPlanner) (event : AlarmEvent) (minted : Uuid) (faults : StoreFaults) (writes : Bool) :
    HoldPlanner × Except HoldError DrainPlan :=
  match event with
  | .CasePromoted hunt_id case_id clause =>
    match u.parse_str case_id with
    | none => (p, .error (.InvalidConfig ("daemon minted a non-uuid case_id " ++ case_id)))
    | some case =>
      match p.routing.ensure_case_channel u (.Promoted hunt_id case clause) p.approve_pubkeys minted writes with
      | (routing, .ok (_, steps)) => ({ p with routing }, .ok (.Publish steps))
      | (routing, .error (.CaseChannelConflict ..)) => ({ p with routing }, .ok (.Discard .CaseChannelConflict))
      | (routing, .error e) => ({ p with routing }, .error (.Routing e))
  | .ResponseHeld event =>
    match p.plan u event minted faults writes with
    | (p, .ok (.Undeliverable hold_id reason)) => (p, .ok (.Discard (.Undeliverable hold_id reason)))
    | (p, .ok (.Steps [])) => (p, .ok (.Discard .PlanEmpty))
    | (p, .ok (.Steps (step :: steps))) => (p, .ok (.Publish (step :: steps)))
    | (p, .error e) => (p, .error e)
  | .Unpublished => (p, .ok (.Discard .Unpublished))

end

/-! ## The drainer and its files -/

def Record.key (r : Record) : ParkKey := (r.issuer, r.seq)

inductive Origin where
  | Head | DeadLetter
  deriving DecidableEq

/-- The record that is being drained. -/
structure Job where
  origin : Origin
  key : ParkKey
  payload : Bytes
  event : AlarmEvent
  now_ms : Int
  deriving DecidableEq

inductive Stage where
  | Between
  /-- `rest` is what is left of the steps. -/
  | Publishing (job : Job) (planned rest : List PublishStep)
  | Settling (job : Job) (drained : Drained)
  /-- The record is in the dead-letter; the cursor is next. -/
  | Committing (job : Job)
  /-- The drainer ended with an error: there is none until the bridge starts again. -/
  | Stopped
  deriving DecidableEq

inductive AlarmEffect where
  | Planned (job : Job) (steps : List PublishStep)
  /-- The relay took the step. -/
  | Accepted (job : Job) (step : PublishStep)
  | Discarded (job : Job) (why : Discard)
  /-- What `park` wrote, and what it returned. -/
  | Parked (record : ParkedRecord) (evicted : Option ParkedRecord)
  deriving DecidableEq

/-- The alarm spool and the routing are in the drainer's memory and in their files, as is the dead-letter. -/
structure AlarmLane where
  spool : EvidenceSpool := {}
  parked : ParkedLedger := []
  parked_file : ParkedLedger := []
  planner : HoldPlanner
  head_budget : Option HeadBudget := none
  stalled : Finset ParkKey := ∅
  stage : Stage := .Between
  log : List AlarmEffect := []

/-- What comes of submitting a step: it cannot be built, no answer comes though the relay may have taken it, or the relay answers. -/
inductive Submitted where
  | Unbuilt
  | Unanswered (taken : Bool)
  | Answered (outcome : OkOutcome) (event_id : String)

inductive AlarmMove (Uuid : Type) where
  /-- The bridge spools a record. -/
  | Append (record : Record)
  /-- The daemon moves its holds. -/
  | Daemon (holds : Runtime.Holds)
  | Tick (now_ms : Int) (minted : Uuid) (faults : StoreFaults) (writes : Bool)
  | Publish (submitted : Submitted) (faults : StoreFaults) (writes : Bool)
  /-- The last step was accepted. -/
  | Land (writes : Bool)
  | Settle (writes : Bool)
  | Commit (writes : Bool)
  /-- A read or a build fails, or the drainer is shut down. -/
  | Stop
  /-- The process ends, and another opens the files. -/
  | Reopen (store : Option HoldStore) (approve_pubkeys : List String)

namespace AlarmLane

/-- An empty spool, and no other file. -/
def start (store : Option HoldStore) (approve_pubkeys : List String) : AlarmLane :=
  { planner := ⟨.open_file none, store, approve_pubkeys⟩ }

def head (w : AlarmLane) : Option Record := (w.spool.peek PERCH_FRAME_MAX_BYTES).head?

def with_routing (w : AlarmLane) (routing : CaseRouting) (stage : Stage) : AlarmLane :=
  { w with planner := { w.planner with routing }, stage }

/-- The dead-letter is changed, and its file after it, when there is something to change. -/
def persist (w : AlarmLane) (parked : ParkedLedger) (there writes : Bool) : AlarmLane :=
  if there then
    if writes then { w with parked, parked_file := parked, stage := .Between } else { w with parked, stage := .Stopped }
  else { w with stage := .Between }

/-- `commit`, after which the head has no refusals. -/
def commit (w : AlarmLane) (job : Job) (writes : Bool) : AlarmLane :=
  let spool := w.spool.commit job.key.1 job.key.2 writes
  if writes then { w with spool, head_budget := none, stage := .Between } else { w with spool, stage := .Stopped }

section
variable {Uuid : Type} [DecidableEq Uuid] (u : Uuids Uuid)

def plan (w : AlarmLane) (job : Job) (minted : Uuid) (faults : StoreFaults) (writes : Bool) : AlarmLane :=
  match w.planner.plan_record u job.event minted faults writes with
  | (planner, .ok (.Publish steps)) => { w with planner, stage := .Publishing job steps steps, log := w.log ++ [.Planned job steps] }
  | (planner, .ok (.Discard why)) => { w with planner, stage := .Settling job (.Discarded why), log := w.log ++ [.Discarded job why] }
  | (planner, .error _) => { w with planner, stage := .Stopped }

/-! ## Publishing -/

/-- The relay took the step and says so. -/
def accept (w : AlarmLane) (job : Job) (planned : List PublishStep) (step : PublishStep) (rest : List PublishStep) (event_id : String)
    (faults : StoreFaults) (writes : Bool) : AlarmLane :=
  let w := { w with log := w.log ++ [AlarmEffect.Accepted job step] }
  match job.event with
  | .ResponseHeld _ =>
    match w.planner.on_ok u step event_id job.now_ms faults writes with
    | (planner, .ok ()) => { w with planner, stage := .Publishing job planned rest }
    | (planner, .error _) => { w with planner, stage := .Stopped }
  | _ => { w with stage := .Publishing job planned rest }

/-- Whether a refusal of this record's step says that the relay does not have its channel. -/
def forgets (event : AlarmEvent) (outcome : OkOutcome) : Bool :=
  match event with
  | .ResponseHeld _ => channel_state_refusal outcome
  | _ => outcome.reason = OkOutcome.reason .NotAChannelMember || outcome.reason.contains "channel not found"

def refusal (event : AlarmEvent) (outcome : OkOutcome) : String :=
  match event with
  | .ResponseHeld _ => outcome.reason
  | _ => refusal_label outcome.reason

def refuse (w : AlarmLane) (job : Job) (step : PublishStep) (outcome : OkOutcome) (writes : Bool) : AlarmLane :=
  let settled := Stage.Settling job (.Refused (refusal job.event outcome))
  match step.channel.bind u.parse_str with
  | some case =>
    if forgets job.event outcome then
      match w.planner.routing.forget_channel_created u case writes with
      | (routing, .ok ()) => w.with_routing routing settled
      | (routing, .error _) => w.with_routing routing .Stopped
    else { w with stage := settled }
  | none => { w with stage := settled }

def publish (w : AlarmLane) (job : Job) (planned : List PublishStep) (step : PublishStep) (rest : List PublishStep)
    (submitted : Submitted) (faults : StoreFaults) (writes : Bool) : AlarmLane :=
  match submitted with
  | .Unbuilt =>
    match job.event with
    | .ResponseHeld _ => { w with stage := .Stopped }
    | _ => { w with stage := .Settling job .Stalled }
  | .Unanswered taken =>
    { w with stage := .Settling job .Stalled, log := w.log ++ (if taken then [AlarmEffect.Accepted job step] else []) }
  | .Answered outcome event_id =>
    if outcome.is_success then w.accept u job planned step rest event_id faults writes else w.refuse u job step outcome writes

/-- A promoted case's channel is recorded once its last step is accepted. -/
def land (w : AlarmLane) (job : Job) (writes : Bool) : AlarmLane :=
  match job.event with
  | .CasePromoted _ case_id _ =>
    match u.parse_str case_id with
    | some case =>
      match w.planner.routing.record_channel_created u case writes with
      | (routing, .ok ()) => w.with_routing routing (.Settling job .Landed)
      | (routing, .error _) => w.with_routing routing .Stopped
    | none => { w with stage := .Stopped }
  | _ => { w with stage := .Settling job .Landed }

end

/-! ## The bookkeeping of an outcome -/

def parked_record (job : Job) (reason : String) : ParkedRecord where
  issuer := job.key.1
  seq := job.key.2
  payload := job.payload
  parked_at_ms := job.now_ms
  retries := 0
  reason := .RefusalBudgetExhausted reason
  subject := subject_of job.event
  unreadable := false

/-- A park that is not written is followed by no commit. -/
def park_head (w : AlarmLane) (job : Job) (reason : String) (writes : Bool) : AlarmLane :=
  let record := parked_record job reason
  let (parked, evicted) := w.parked.park record
  if writes then { w with parked, parked_file := parked, stage := .Committing job, log := w.log ++ [.Parked record evicted] }
  else { w with parked, stage := .Stopped }

def settle_head (w : AlarmLane) (job : Job) (drained : Drained) (writes : Bool) : AlarmLane :=
  match drained with
  | .Landed | .Discarded _ => w.commit job writes
  | .Stalled => { w with stage := .Between }
  | .Refused reason =>
    let budget := HeadBudget.refused w.head_budget job.key job.now_ms
    let w := { w with head_budget := some budget }
    if HEAD_REFUSAL_BUDGET ≤ budget.refusals then w.park_head job reason writes else { w with stage := .Between }

def settle_parked (w : AlarmLane) (job : Job) (drained : Drained) (writes : Bool) : AlarmLane :=
  let there := w.parked.any (fun record => record.key = job.key)
  match drained with
  | .Landed | .Discarded _ => w.persist (w.parked.remove job.key) there writes
  | .Refused _ => w.persist (w.parked.touch job.key job.now_ms) there writes
  | .Stalled => { w with stalled := insert job.key w.stalled, stage := .Between }

/-! ## The loop -/

section
variable {Uuid : Type} [DecidableEq Uuid] (u : Uuids Uuid) (read : Bytes → Option AlarmEvent)

def retry_parked (w : AlarmLane) (now_ms : Int) (minted : Uuid) (faults : StoreFaults) (writes : Bool) : AlarmLane :=
  match w.parked.next_due now_ms PARKED_RETRY_INTERVAL_MS w.stalled with
  | none => { w with stalled := ∅ }
  | some due =>
    match read due.payload with
    | some event => w.plan u ⟨.DeadLetter, due.key, due.payload, event, now_ms⟩ minted faults writes
    | none =>
      w.persist (w.parked.mark_unreadable due.key) (w.parked.any (fun record => record.key = due.key && !record.unreadable)) writes

def tick (w : AlarmLane) (now_ms : Int) (minted : Uuid) (faults : StoreFaults) (writes : Bool) : AlarmLane :=
  match w.head with
  | some record =>
    match read record.payload with
    | some event => w.plan u ⟨.Head, record.key, record.payload, event, now_ms⟩ minted faults writes
    | none => { w with stage := .Stopped }
  | none => { w with head_budget := none }.retry_parked u read now_ms minted faults writes

def reopen (w : AlarmLane) (store : Option HoldStore) (approve_pubkeys : List String) : AlarmLane :=
  { w with
    spool := w.spool.reopen
    parked := w.parked_file
    planner := ⟨.open_file w.planner.routing.file, store, approve_pubkeys⟩
    head_budget := none
    stalled := ∅
    stage := .Between }

def move (w : AlarmLane) : AlarmMove Uuid → Option AlarmLane
  | .Append record => (w.spool.append record).map (fun spool => { w with spool })
  | .Daemon holds => some { w with planner := { w.planner with store := w.planner.store.map ({ · with holds }) } }
  | .Tick now_ms minted faults writes =>
    match w.stage with
    | .Between => some (w.tick u read now_ms minted faults writes)
    | _ => none
  | .Publish submitted faults writes =>
    match w.stage with
    | .Publishing job planned (step :: rest) => some (w.publish u job planned step rest submitted faults writes)
    | _ => none
  | .Land writes =>
    match w.stage with
    | .Publishing job _ [] => some (w.land u job writes)
    | _ => none
  | .Settle writes =>
    match w.stage with
    | .Settling job drained =>
      some (match job.origin with
        | .Head => w.settle_head job drained writes
        | .DeadLetter => w.settle_parked job drained writes)
    | _ => none
  | .Commit writes =>
    match w.stage with
    | .Committing job => some (w.commit job writes)
    | _ => none
  | .Stop => some { w with stage := .Stopped }
  | .Reopen store approve_pubkeys => some (w.reopen store approve_pubkeys)

def Drains (w : AlarmLane) (m : AlarmMove Uuid) (w' : AlarmLane) : Prop := w.move u read m = some w'

end

/-! ## What a commit says -/

section
variable {Uuid : Type} [DecidableEq Uuid] {u : Uuids Uuid} {read : Bytes → Option AlarmEvent} {w w' : AlarmLane} {job : Job}

/-- The relay took every step that was planned for the record. -/
def Delivered (w : AlarmLane) (job : Job) : Prop :=
  ∃ steps, .Planned job steps ∈ w.log ∧ ∀ step ∈ steps, .Accepted job step ∈ w.log

/-- The record was written to the dead-letter, and is there unless writing it evicted it. -/
def DeadLettered (w : AlarmLane) (job : Job) : Prop :=
  ∃ reason evicted, .Parked (parked_record job reason) evicted ∈ w.log ∧
    (parked_record job reason ∈ w.parked_file ∨ evicted = some (parked_record job reason))

/-- The record of the head was delivered, or there was nothing to publish, or it is parked. -/
def Settled (w : AlarmLane) (job : Job) : Prop :=
  job.origin = .Head ∧ (w.Delivered job ∨ (∃ why, .Discarded job why ∈ w.log) ∨ w.DeadLettered job)

/-- What the drainer has done by the time it is at a stage. -/
def Traced (w : AlarmLane) : Prop :=
  match w.stage with
  | .Between | .Stopped => True
  | .Publishing job planned rest =>
    .Planned job planned ∈ w.log ∧ ∃ done, planned = done ++ rest ∧ ∀ step ∈ done, .Accepted job step ∈ w.log
  | .Settling job .Landed => w.Delivered job
  | .Settling job (.Discarded why) => .Discarded job why ∈ w.log
  | .Settling _ _ => True
  | .Committing job => job.origin = .Head ∧ w.DeadLettered job

/-- The spool is left alone, or the record that is committed is settled. -/
def CommitsSettled (w w' : AlarmLane) : Prop :=
  w'.spool = w.spool ∨ ∃ job writes, w.Settled job ∧ w'.spool = w.spool.commit job.key.1 job.key.2 writes

/-- What a step of the drainer itself does. -/
def Proceeds (w w' : AlarmLane) : Prop := w'.Traced ∧ w.CommitsSettled w'

theorem plan_proceeds (minted : Uuid) (faults : StoreFaults) (writes : Bool) : w.Proceeds (w.plan u job minted faults writes) := by
  unfold plan
  split
  · exact ⟨⟨List.mem_append_right _ List.mem_cons_self, [], rfl, fun step h => absurd h List.not_mem_nil⟩, .inl rfl⟩
  · exact ⟨List.mem_append_right _ List.mem_cons_self, .inl rfl⟩
  · exact ⟨trivial, .inl rfl⟩

theorem persist_proceeds (parked : ParkedLedger) (there writes : Bool) : w.Proceeds (w.persist parked there writes) := by
  unfold persist
  repeat' split
  all_goals exact ⟨trivial, .inl rfl⟩

theorem tick_proceeds (now_ms : Int) (minted : Uuid) (faults : StoreFaults) (writes : Bool) (h : w.stage = .Between) :
    w.Proceeds (w.tick u read now_ms minted faults writes) := by
  unfold tick retry_parked
  split
  · split
    · exact plan_proceeds minted faults writes
    · exact ⟨trivial, .inl rfl⟩
  · split
    · exact ⟨by simp [Traced, h], .inl rfl⟩
    · split
      · exact plan_proceeds minted faults writes
      · exact persist_proceeds ..

theorem publish_proceeds {planned rest : List PublishStep} {step : PublishStep} (submitted : Submitted) (faults : StoreFaults)
    (writes : Bool) (h : w.Traced) (hstage : w.stage = .Publishing job planned (step :: rest)) :
    w.Proceeds (w.publish u job planned step rest submitted faults writes) := by
  rw [Traced, hstage] at h
  obtain ⟨hplanned, done, rfl, hdone⟩ := h
  have hnext : .Planned job (done ++ step :: rest) ∈ w.log ++ [.Accepted job step] ∧
      ∃ done', done ++ step :: rest = done' ++ rest ∧ ∀ x ∈ done', .Accepted job x ∈ w.log ++ [.Accepted job step] := by
    refine ⟨List.mem_append_left _ hplanned, done ++ [step], List.append_cons .., fun x hx => ?_⟩
    rcases List.mem_append.1 hx with hx | hx
    · exact List.mem_append_left _ (hdone x hx)
    · exact List.mem_append_right _ (by rw [List.mem_singleton.1 hx]; exact List.mem_cons_self)
  unfold publish
  split
  · split <;> exact ⟨trivial, .inl rfl⟩
  · exact ⟨trivial, .inl rfl⟩
  · split
    · unfold accept
      dsimp only
      repeat' split
      all_goals first | exact ⟨hnext, .inl rfl⟩ | exact ⟨trivial, .inl rfl⟩
    · unfold refuse
      dsimp only
      repeat' split
      all_goals exact ⟨trivial, .inl rfl⟩

omit [DecidableEq Uuid] in
theorem land_proceeds (writes : Bool) {planned : List PublishStep} (h : w.Traced) (hstage : w.stage = .Publishing job planned []) :
    w.Proceeds (w.land u job writes) := by
  rw [Traced, hstage] at h
  obtain ⟨hplanned, done, rfl, hdone⟩ := h
  have hdelivered : w.Delivered job := ⟨_, hplanned, by simpa using hdone⟩
  unfold land
  repeat' split
  all_goals first | exact ⟨hdelivered, .inl rfl⟩ | exact ⟨trivial, .inl rfl⟩

theorem commit_proceeds (writes : Bool) (h : w.Settled job) : w.Proceeds (w.commit job writes) := by
  unfold commit
  dsimp only
  split <;> exact ⟨trivial, .inr ⟨job, writes, h, rfl⟩⟩

theorem park_head_proceeds (reason : String) (writes : Bool) (horigin : job.origin = .Head) :
    w.Proceeds (w.park_head job reason writes) := by
  unfold park_head
  dsimp only
  split
  · refine ⟨⟨horigin, reason, _, List.mem_append_right _ List.mem_cons_self, ?_⟩, .inl rfl⟩
    rcases w.parked.park_eq (parked_record job reason) with ⟨heq, -⟩ | ⟨evicted, -, heq⟩
    · rw [heq]
      exact .inl (List.mem_append_right _ List.mem_cons_self)
    · rw [heq]
      by_cases hself : evicted = parked_record job reason
      · exact .inr (congrArg some hself)
      · exact .inl ((List.mem_erase_of_ne (Ne.symm hself)).2 (List.mem_append_right _ List.mem_cons_self))
  · exact ⟨trivial, .inl rfl⟩

theorem settle_head_proceeds {drained : Drained} (writes : Bool) (horigin : job.origin = .Head) (h : w.Traced)
    (hstage : w.stage = .Settling job drained) : w.Proceeds (w.settle_head job drained writes) := by
  rw [Traced, hstage] at h
  unfold settle_head
  split
  · exact commit_proceeds writes ⟨horigin, .inl h⟩
  · exact commit_proceeds writes ⟨horigin, .inr (.inl ⟨_, h⟩)⟩
  · exact ⟨trivial, .inl rfl⟩
  · dsimp only
    split
    · exact park_head_proceeds _ writes horigin
    · exact ⟨trivial, .inl rfl⟩

theorem settle_parked_proceeds (drained : Drained) (writes : Bool) : w.Proceeds (w.settle_parked job drained writes) := by
  unfold settle_parked
  split
  all_goals first | exact persist_proceeds .. | exact ⟨trivial, .inl rfl⟩

/-- Spooling a record and opening the files are the only other things that happen to the spool. -/
theorem move_traced {m : AlarmMove Uuid} (h : w.Traced) (hstep : Drains u read w m w') :
    w'.Traced ∧ (w.CommitsSettled w' ∨ (∃ record, m = .Append record) ∨ ∃ store keys, m = .Reopen store keys) := by
  unfold Drains at hstep
  cases m with
  | Append record =>
    obtain ⟨spool, -, rfl⟩ := Option.map_eq_some_iff.1 hstep
    exact ⟨h, .inr (.inl ⟨record, rfl⟩)⟩
  | Daemon holds =>
    cases hstep
    exact ⟨h, .inl (.inl rfl)⟩
  | Stop =>
    cases hstep
    exact ⟨trivial, .inl (.inl rfl)⟩
  | Reopen store keys =>
    cases hstep
    exact ⟨trivial, .inr (.inr ⟨store, keys, rfl⟩)⟩
  | Tick now_ms minted faults writes =>
    simp only [move] at hstep
    split at hstep <;> cases hstep
    exact (tick_proceeds now_ms minted faults writes ‹_›).imp_right .inl
  | Publish submitted faults writes =>
    simp only [move] at hstep
    split at hstep <;> cases hstep
    exact (publish_proceeds submitted faults writes h ‹_›).imp_right .inl
  | Land writes =>
    simp only [move] at hstep
    split at hstep <;> cases hstep
    exact (land_proceeds writes h ‹_›).imp_right .inl
  | Settle writes =>
    simp only [move] at hstep
    split at hstep <;> cases hstep
    split
    · exact (settle_head_proceeds writes ‹_› h ‹_›).imp_right .inl
    · exact (settle_parked_proceeds _ writes).imp_right .inl
  | Commit writes =>
    simp only [move] at hstep
    split at hstep <;> cases hstep
    next hstage =>
      rw [Traced, hstage] at h
      exact (commit_proceeds writes ⟨h.1, .inr (.inr h.2)⟩).imp_right .inl

/-- In every run, wherever processes end in it, the cursor moves only past a record of the head that is settled. -/
theorem only_settled_committed {store : Option HoldStore} {keys : List String} {moves : List (AlarmMove Uuid)} {m : AlarmMove Uuid}
    (hrun : Run (Drains u read) (start store keys) moves w) (hstep : Drains u read w m w') :
    w.CommitsSettled w' ∨ (∃ record, m = .Append record) ∨ ∃ store keys, m = .Reopen store keys :=
  (move_traced (hrun.inv (fun _ _ _ _ hs hm => (move_traced hs hm).1) trivial) hstep).2

/-- A record that gives nothing to publish is settled on its first tick. -/
theorem only_settled_committed_unpublished : ∃ w w' : AlarmLane,
    Run (Drains .plain fun _ => some .Unpublished) (start none []) [.Append ⟨1, 0, 0, 0, []⟩, .Tick 0 "" {} true] w ∧
      Drains .plain (fun _ => some .Unpublished) w (.Settle true) w' ∧ w.CommitsSettled w' := by
  have hrun : Run (Drains .plain fun _ => some .Unpublished) (start none [])
      [.Append ⟨1, 0, 0, 0, []⟩, .Tick 0 "" {} true] _ :=
    .cons (show move .plain _ _ _ = some _ from rfl) (.single (show move .plain _ _ _ = some _ from rfl))
  refine ⟨_, _, hrun, (show move .plain _ _ (.Settle true) = some _ from rfl), ?_⟩
  refine (only_settled_committed hrun (show move .plain _ _ (.Settle true) = some _ from rfl)).resolve_right ?_
  rintro (⟨_, ⟨⟩⟩ | ⟨_, _, ⟨⟩⟩)

end
end AlarmLane
end Ambush.Bridge

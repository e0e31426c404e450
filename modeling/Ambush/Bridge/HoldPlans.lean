import Ambush.Bridge.CaseChannels
import Ambush.Runtime.HeldAction
/-!
# The hold sequence

A `ResponseHeld` is planned into steps from the hold store and the routing ledger, and each
step the relay accepts is recorded before the next one is published. A terminal event plans
one card, a reply to the open card; which of the two ledger entries an accepted card fills
is read off that reply.
-/
open Lib

namespace Ambush.Bridge
open Ambush.Runtime (HoldState HeldAction)

/-- The daemon's hold store: its holds, and the hunt each was requested for. -/
structure HoldStore where
  holds : Runtime.Holds := []
  hunt_of : String → String

/-- What of the store's calls works. -/
structure StoreFaults where
  reads : Bool := true
  lists : Bool := true
  persists : HeldAction → Bool := fun _ => true

/-- The fields of a `RuntimeEvent::ResponseHeld` that the plan reads. -/
structure HoldEvent where
  hold_id : String
  hunt_id : String
  state : HoldState

inductive HoldPlan where
  | Steps (steps : List PublishStep)
  | Undeliverable (hold_id reason : String)
  deriving DecidableEq

inductive HoldError where
  | MalformedHoldId (value : String)
  | Routing (error : RoutingError)
  | InvalidConfig (reason : String)
  deriving DecidableEq

/-- The routing, the store and the Approve set of a `HoldPublisher`. -/
structure HoldPlanner where
  routing : CaseRouting
  store : Option HoldStore
  approve_pubkeys : List String

/-- `HoldId::parse` accepts it. -/
def is_opaque_hold_id (value : String) : Bool :=
  let cs := value.toList
  8 ≤ cs.length && cs.length ≤ 64 && cs.head?.any Char.isAlphanum &&
    cs.all (fun c => c.isAlphanum || c == '_' || c == '-')

namespace HoldPlanner
variable {Uuid : Type} [DecidableEq Uuid] (u : Uuids Uuid)

/-! ## Planning -/

def record (p : HoldPlanner) (hold_id : String) (faults : StoreFaults) : Except HoldError (Option HeldAction) :=
  match p.store with
  | none => .ok none
  | some store =>
    if faults.reads then .ok (store.holds.get hold_id) else .error (.InvalidConfig "hold store read failed")

/-- Every open hold that the channel is the case of learns it. -/
def mark_case_channel (p : HoldPlanner) (channel : Uuid) (faults : StoreFaults) : HoldPlanner :=
  match p.store with
  | none => p
  | some store =>
    if faults.lists then
      let told := store.holds.filter (fun hold =>
        !hold.state.is_terminal && p.routing.state.case_for_hunt u (store.hunt_of hold.hold_id) = some channel)
      { p with store := some { store with
        holds := told.foldl (fun holds hold =>
          (Runtime.mark_case_channel faults.persists holds hold.hold_id (u.to_string channel)).1) store.holds } }
    else p

def plan_open (p : HoldPlanner) (hold_id hunt_id : String) (record : HeldAction) (minted : Uuid) (faults : StoreFaults)
    (writes : Bool) : HoldPlanner × Except HoldError HoldPlan :=
  if record.state.is_terminal then (p, .ok (.Steps []))
  else if p.approve_pubkeys.isEmpty then (p, .ok (.Undeliverable hold_id "no_operator_pubkey"))
  else
    match p.routing.ensure_case_channel u (.Held hunt_id hold_id) p.approve_pubkeys minted writes with
    | (routing, .error e) => ({ p with routing }, .error (.Routing e))
    | (routing, .ok (case, steps)) =>
      let channel := u.to_string case
      let created := routing.state.channel_is_created u case
      let open_card := routing.state.open_card_for_hold hold_id
      let provision :=
        if steps.isEmpty && record.notice_event_id.isNone then
          (if created then [] else [.CreateChannel channel]) ++ p.approve_pubkeys.map (.AddMember channel)
        else steps
      let told := { p with routing }
      (if record.case_channel.isNone && created then told.mark_case_channel u case faults else told,
        .ok (.Steps (provision ++
          (if open_card.isNone then [.PublishHoldCard channel hold_id none] else []) ++
          (if record.notice_event_id.isNone then [.PublishHoldNotice channel hold_id open_card] else []) ++
          (if routing.state.alarm_published_for_hold hold_id then [] else [.PublishAlarm hold_id]))))

def plan_terminal (p : HoldPlanner) (hold_id hunt_id : String) (record : HeldAction) : HoldPlan :=
  match (record.case_channel.bind u.parse_str).or (p.routing.state.case_for_hunt u hunt_id) with
  | none => .Undeliverable hold_id "no_case_channel"
  | some case =>
    .Steps [.PublishHoldCard (u.to_string case) hold_id ((p.routing.state.open_card_for_hold hold_id).or record.card_event_id)]

def plan (p : HoldPlanner) (event : HoldEvent) (minted : Uuid) (faults : StoreFaults) (writes : Bool) :
    HoldPlanner × Except HoldError HoldPlan :=
  if is_opaque_hold_id event.hold_id then
    if p.store.isNone then (p, .ok (.Undeliverable event.hold_id "no_hold_store"))
    else
      match p.record event.hold_id faults with
      | .error e => (p, .error e)
      | .ok none => (p, .ok (.Undeliverable event.hold_id "hold_not_found"))
      | .ok (some record) =>
        if (p.routing.state.terminal_card_for_hold event.hold_id).isSome then (p, .ok (.Steps []))
        else
          match event.state with
          | .Created => p.plan_open u event.hold_id event.hunt_id record minted faults writes
          | .Notified | .Armed | .Deciding => (p, .ok (.Steps []))
          | .Granted | .Refused | .Expired | .Executed | .Failed =>
            (p, .ok (p.plan_terminal u event.hold_id event.hunt_id record))
  else (p, .error (.MalformedHoldId event.hold_id))

/-! ## An accepted step -/

/-- A call on the routing, inside one on the publisher. -/
def routed (p : HoldPlanner) (out : CaseRouting × Except RoutingError Unit) : HoldPlanner × Except HoldError Unit :=
  ({ p with routing := out.1 }, out.2.mapError .Routing)

def on_ok (p : HoldPlanner) (step : PublishStep) (event_id : String) (now_ms : Int) (faults : StoreFaults) (writes : Bool) :
    HoldPlanner × Except HoldError Unit :=
  match step with
  | .CreateChannel channel =>
    -- The step carries the text of an id.
    match u.parse_str channel with
    | none => (p, .ok ())
    | some case =>
      match p.routed (p.routing.record_channel_created u case writes) with
      | (p, .error e) => (p, .error e)
      | (p, .ok ()) => (p.mark_case_channel u case faults, .ok ())
  | .PublishHoldCard _ hold_id none => p.routed (p.routing.record_open_card hold_id event_id writes)
  | .PublishHoldCard _ hold_id (some _) => p.routed (p.routing.record_terminal_card hold_id event_id writes)
  | .PublishHoldNotice _ hold_id card_event_id =>
    match p.store with
    | none => (p, .ok ())
    | some store =>
      let card := (p.routing.state.open_card_for_hold hold_id).or card_event_id
      ({ p with store := some { store with
        holds := (Runtime.mark_notified faults.persists store.holds hold_id now_ms event_id card).1 } }, .ok ())
  | .PublishAlarm hold_id => p.routed (p.routing.record_alarm_published hold_id writes)
  | .AddMember _ _ => (p, .ok ())

end HoldPlanner

/-- The channel a step writes into. -/
def PublishStep.channel : PublishStep → Option String
  | .CreateChannel channel | .AddMember channel _ | .PublishHoldCard channel _ _ | .PublishHoldNotice channel _ _ => some channel
  | .PublishAlarm _ => none

/-- The hold and the reply of a card step. -/
def PublishStep.card? : PublishStep → Option (String × Option String)
  | .PublishHoldCard _ hold_id reply_to => some (hold_id, reply_to)
  | _ => none

def channel_state_refusal : OkOutcome → Bool
  | .NotAChannelMember => true
  | .Rejected message => message.contains "channel not found"
  | _ => false

/-! ## The drained records -/

/-- A card the relay accepted, with the state of the event it was planned for. -/
structure PostedCard where
  hold_id : String
  state : HoldState
  reply_to : Option String
  event_id : String
  deriving DecidableEq

/-- A terminal card is one that `plan_terminal` planned. -/
def PostedCard.is_terminal (card : PostedCard) : Bool := card.state.is_terminal

/-- The alarm drainer: what is left of the sequence it publishes, and the hold cards on the relay. -/
structure HoldLane where
  planner : HoldPlanner
  pending : Option (HoldState × List PublishStep) := none
  relay : List PostedCard := []

/-- What comes of submitting one step: it cannot be built, nothing is answered, or the relay answers. -/
inductive Submission where
  | Unbuilt
  | Unanswered
  | Answered (outcome : OkOutcome) (event_id : String)

inductive LaneMove (Uuid : Type) where
  /-- The daemon moves its holds. -/
  | Daemon (holds : Runtime.Holds)
  /-- A record is drained: at the head of the spool, from the dead-letter, or once more. -/
  | Plan (event : HoldEvent) (minted : Uuid) (faults : StoreFaults)
  | Publish (submission : Submission) (now_ms : Int) (faults : StoreFaults)
  /-- A case promotion uses the routing between two records. -/
  | Promote (trigger : CasePromotionTrigger Uuid) (minted : Uuid)
  | PromoteCreated (channel : Uuid)
  | PromoteRefused (channel : Uuid)
  /-- The process ends and another opens the routing file, with its own store and Approve set. -/
  | Restart (store : Option HoldStore) (approve_pubkeys : List String)

section
variable {Uuid : Type} [DecidableEq Uuid] (u : Uuids Uuid)

/-- The relay accepted the step at the head. -/
def HoldLane.accept (s : HoldLane) (state : HoldState) (step : PublishStep) (rest : List PublishStep) (event_id : String)
    (now_ms : Int) (faults : StoreFaults) : HoldLane :=
  let done := s.planner.on_ok u step event_id now_ms faults true
  { planner := done.1
    pending := if done.2.isOk then some (state, rest) else none
    relay := s.relay ++ (step.card?.map (fun card => ⟨card.1, state, card.2, event_id⟩)).toList }

/-- The relay refused the step at the head. -/
def HoldLane.refuse (s : HoldLane) (step : PublishStep) (outcome : OkOutcome) : HoldLane :=
  match step.channel.bind u.parse_str with
  | some case =>
    if channel_state_refusal outcome then
      { s with
        planner := { s.planner with routing := (s.planner.routing.forget_channel_created u case true).1 }
        pending := none }
    else { s with pending := none }
  | none => { s with pending := none }

def HoldLane.publish (s : HoldLane) (submission : Submission) (now_ms : Int) (faults : StoreFaults) : Option HoldLane :=
  match s.pending with
  | some (state, step :: rest) =>
    match submission with
    | .Unbuilt | .Unanswered => some { s with pending := none }
    | .Answered outcome event_id =>
      if outcome.is_success then some (s.accept u state step rest event_id now_ms faults) else some (s.refuse u step outcome)
  | _ => none

/-- No sequence is being published. -/
def HoldLane.idle (s : HoldLane) : Bool :=
  match s.pending with
  | some (_, _ :: _) => false
  | _ => true

def HoldLane.move (s : HoldLane) : LaneMove Uuid → Option HoldLane
  | .Daemon holds => some { s with planner := { s.planner with store := s.planner.store.map ({ · with holds }) } }
  | .Plan event minted faults =>
    if s.idle then
      match s.planner.plan u event minted faults true with
      | (planner, .ok (.Steps steps)) => some ⟨planner, some (event.state, steps), s.relay⟩
      | (planner, _) => some ⟨planner, none, s.relay⟩
    else none
  | .Publish submission now_ms faults => s.publish u submission now_ms faults
  | .Promote trigger minted =>
    if s.idle then
      some { s with planner := { s.planner with
        routing := (s.planner.routing.ensure_case_channel u trigger s.planner.approve_pubkeys minted true).1 } }
    else none
  | .PromoteCreated channel =>
    if s.idle then
      some { s with planner := { s.planner with routing := (s.planner.routing.record_channel_created u channel true).1 } }
    else none
  | .PromoteRefused channel =>
    if s.idle then
      some { s with planner := { s.planner with routing := (s.planner.routing.forget_channel_created u channel true).1 } }
    else none
  | .Restart store approve_pubkeys => some ⟨⟨.open_file s.planner.routing.file, store, approve_pubkeys⟩, none, s.relay⟩

def LaneMoves (s : HoldLane) (m : LaneMove Uuid) (s' : HoldLane) : Prop := s.move u m = some s'

/-- No card is accepted that a terminal event planned without an open card to reply to. -/
def Answers (s : HoldLane) : LaneMove Uuid → Prop
  | .Publish (.Answered outcome _) _ _ =>
    ∀ state channel hold_id rest, s.pending = some (state, .PublishHoldCard channel hold_id none :: rest) →
      outcome.is_success = true → state.is_terminal = false
  | _ => True

def LaneAnswers (s : HoldLane) (m : LaneMove Uuid) (s' : HoldLane) : Prop := LaneMoves u s m s' ∧ Answers s m

end
end Ambush.Bridge

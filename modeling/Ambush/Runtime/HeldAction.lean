import Ambush.Lib.Ints
import Ambush.Lib.Runs
import Ambush.Lib.Tables
import Ambush.Governance.State
/-!
# Held actions

A destructive action that a policy holds for an operator, the store of such holds and
the claim under which one is decided. `MemoryHeldActionStore` and `FileHeldActionStore`
run the same transitions; the file store also writes a document after each, and
`persists` is what comes of those writes. Of a hold's fields the ones its transitions
read or write are here.
-/
open Lib

namespace Ambush.Runtime

inductive HoldState where
  | Created | Notified | Armed | Deciding | Granted | Refused | Expired | Executed | Failed
  deriving DecidableEq, Repr

def HoldState.is_open : HoldState → Bool
  | .Created | .Notified | .Armed => true
  | _ => false

def HoldState.is_terminal : HoldState → Bool
  | .Granted | .Refused | .Expired | .Executed | .Failed => true
  | _ => false

inductive HoldDecision where
  | Grant | Refuse
  deriving DecidableEq, Repr

inductive HoldOutcome where
  | GrantedExecuted | GrantedSimulated | GrantedFailed | RefusedByOperator | RefusedLate | GuardRejected
  deriving DecidableEq, Repr

inductive GovernanceClearance where
  | NotRequired | PartitionAuthorized | ReceiptSignatureOk | ReceiptSubjectBound
  deriving DecidableEq, Repr

structure HoldRefusal where
  rule : String
  reason : String
  deriving DecidableEq

structure HoldDecisionRecord where
  decision : HoldDecision
  operator_id : String
  voter_id : String
  rationale_sha256 : Option String := none
  hold_notice_published : Bool
  governance_clearance : GovernanceClearance
  decided_at_ms : Int
  nostr_intent_event_id : String
  signature : Option DetachedSignature := none
  rationale : Option String := none
  outcome : HoldOutcome
  dispatched : Bool
  receipt_id : Option String := none
  audit_trail_id : Option String := none
  refusal : Option HoldRefusal := none
  partition_state_at_execution : Option Governance.PartitionState := none
  deriving DecidableEq

structure HeldAction where
  hold_id : String
  state : HoldState
  held_at_ms : Int
  expires_at_ms : Int
  case_channel : Option String := none
  notified_at_ms : Option Int := none
  notice_event_id : Option String := none
  card_event_id : Option String := none
  decision : Option HoldDecisionRecord := none
  deciding_intent_event_id : Option String := none
  cas_instant_ms : Option Int := none
  prior_state : Option HoldState := none
  deriving DecidableEq

inductive NotDecidable where
  | Expired | Deciding | Terminal
  deriving DecidableEq, Repr

/-- `HeldAction::new`. -/
def HeldAction.new (hold_id : String) (held_at_ms expires_at_ms : Int) : HeldAction :=
  { hold_id, state := .Created, held_at_ms, expires_at_ms }

def HeldAction.assert_decidable (hold : HeldAction) (now_ms : Int) : Except NotDecidable Unit :=
  if hold.state = .Deciding then .error .Deciding
  else if hold.state = .Expired then .error .Expired
  else if hold.state.is_terminal then .error .Terminal
  else if now_ms ≥ hold.expires_at_ms then .error .Expired
  else .ok ()

def STALLED_DECISION_REASON : String := "the decision stalled; whether the action ran is unknown"

def stalled_refusal : HoldRefusal := ⟨"runtime.capability_lease_expired", STALLED_DECISION_REASON⟩

/-! ## Transitions -/

namespace transitions

/-- The hold claimed, when it is decidable at the instant of the compare-and-set. -/
def begin (hold : HeldAction) (intent_event_id : String) (cas_instant_ms : Int) : Option HeldAction :=
  match hold.assert_decidable cas_instant_ms with
  | .error _ => none
  | .ok () => some { hold with
      prior_state := some hold.state
      state := .Deciding
      deciding_intent_event_id := some intent_event_id
      cas_instant_ms := some cas_instant_ms }

def abandon (hold : HeldAction) (intent_event_id : String) : HeldAction × Bool :=
  if hold.state ≠ .Deciding ∨ hold.deciding_intent_event_id ≠ some intent_event_id then (hold, false)
  else ({ hold with
      state := hold.prior_state.getD .Created
      prior_state := none
      deciding_intent_event_id := none
      cas_instant_ms := none }, true)

/-- Write the terminal record. -/
def complete (hold : HeldAction) (decision : HoldDecisionRecord) (state : HoldState) : HeldAction :=
  { hold with
    state
    decision := some decision
    prior_state := none }

def expire (hold : HeldAction) (now_ms : Int) : HeldAction × Bool :=
  if hold.state.is_open ∧ now_ms ≥ hold.expires_at_ms then ({ hold with state := .Expired }, true) else (hold, false)

/-- `i64::saturating_sub` of the claim's instant, against the bound cast to `i64`. -/
def is_stalled (hold : HeldAction) (now_ms : Int) (stall_ms : Nat) : Bool :=
  hold.state == .Deciding && hold.cas_instant_ms.any (fun cas => satAddI now_ms (-cas) ≥ castI64 stall_ms)

def fail_stalled (hold : HeldAction) (now_ms : Int) (stall_ms : Nat) : HeldAction × Bool :=
  if is_stalled hold now_ms stall_ms then
    ({ hold with
      decision := some {
        decision := .Grant
        operator_id := ""
        voter_id := ""
        hold_notice_published := hold.notified_at_ms.isSome
        governance_clearance := .NotRequired
        decided_at_ms := hold.cas_instant_ms.getD now_ms
        nostr_intent_event_id := hold.deciding_intent_event_id.getD ""
        outcome := .GrantedFailed
        dispatched := false
        refusal := some stalled_refusal }
      state := .Failed
      prior_state := none }, true)
  else (hold, false)

end transitions

/-! ## The store -/

inductive HeldActionStoreError where
  | NotFound (hold_id : String)
  | NotDecidable (hold_id : String) (current : HeldAction)
  | Duplicate (hold_id : String)
  | Io (hold_id : String)
  deriving DecidableEq

/-- The holds in order of their ids. -/
abbrev Holds := List HeldAction

def Holds.get (holds : Holds) (hold_id : String) : Option HeldAction := lookupBy HeldAction.hold_id hold_id holds

def Holds.insert (holds : Holds) (hold : HeldAction) : Holds := insertBy HeldAction.hold_id hold holds

def Holds.update (holds : Holds) (hold_id : String) (apply : HeldAction → HeldAction) : Holds :=
  updateBy HeldAction.hold_id hold_id apply holds

section
variable (persists : HeldAction → Bool)

/-- A hold becomes visible only once its document is written. -/
def create (holds : Holds) (hold : HeldAction) : Holds × Except HeldActionStoreError Unit :=
  if (holds.get hold.hold_id).isSome then (holds, .error (.Duplicate hold.hold_id))
  else if persists hold then (holds.insert hold, .ok ())
  else (holds, .error (.Io hold.hold_id))

/-- `with_hold` and `mutate`: the map is changed first, then the document. -/
def mutate (holds : Holds) (hold_id : String) (apply : HeldAction → HeldAction) :
    Holds × Except HeldActionStoreError Unit :=
  match holds.get hold_id with
  | none => (holds, .error (.NotFound hold_id))
  | some hold =>
    (holds.update hold_id apply, if persists (apply hold) then .ok () else .error (.Io hold_id))

def mark_case_channel (holds : Holds) (hold_id case_channel : String) : Holds × Except HeldActionStoreError Unit :=
  mutate persists holds hold_id (fun hold => { hold with case_channel := some case_channel })

def mark_notified (holds : Holds) (hold_id : String) (at_ms : Int) (notice_event_id : String)
    (card_event_id : Option String) : Holds × Except HeldActionStoreError Unit :=
  mutate persists holds hold_id (fun hold => { hold with
    notified_at_ms := some at_ms
    notice_event_id := some notice_event_id
    card_event_id
    state := if hold.state = .Created then .Notified else hold.state })

def mark_armed (holds : Holds) (hold_id : String) : Holds × Except HeldActionStoreError Unit :=
  mutate persists holds hold_id (fun hold => { hold with
    state := if hold.state = .Notified then .Armed else hold.state })

def begin_decision (holds : Holds) (hold_id intent_event_id : String) (cas_instant_ms : Int) :
    Holds × Except HeldActionStoreError HeldAction :=
  match holds.get hold_id with
  | none => (holds, .error (.NotFound hold_id))
  | some hold =>
    match transitions.begin hold intent_event_id cas_instant_ms with
    | none => (holds, .error (.NotDecidable hold_id hold))
    | some claimed =>
      (holds.update hold_id (fun h => (transitions.begin h intent_event_id cas_instant_ms).getD h),
        if persists claimed then .ok claimed else .error (.Io hold_id))

def abandon_decision (holds : Holds) (hold_id intent_event_id : String) : Holds × Except HeldActionStoreError Unit :=
  match holds.get hold_id with
  | none => (holds, .ok ())
  | some hold =>
    (holds.update hold_id (fun h => (transitions.abandon h intent_event_id).1),
      if (transitions.abandon hold intent_event_id).2 ∧ ¬ persists (transitions.abandon hold intent_event_id).1 then
        .error (.Io hold_id) else .ok ())

def complete_decision (holds : Holds) (hold_id : String) (decision : HoldDecisionRecord) (state : HoldState) :
    Holds × Except HeldActionStoreError Unit :=
  mutate persists holds hold_id (fun hold => transitions.complete hold decision state)

/-- A pass over all holds: it returns those it changed, and ends at the first document
it cannot write. -/
def sweep (apply : HeldAction → HeldAction × Bool) : Holds → Holds × Except HeldActionStoreError (List HeldAction)
  | [] => ([], .ok [])
  | h :: hs =>
    if (apply h).2 then
      if persists (apply h).1 then
        ((apply h).1 :: (sweep apply hs).1, (sweep apply hs).2.map ((apply h).1 :: ·))
      else ((apply h).1 :: hs, .error (.Io h.hold_id))
    else (h :: (sweep apply hs).1, (sweep apply hs).2)

def expire_due (holds : Holds) (now_ms : Int) : Holds × Except HeldActionStoreError (List HeldAction) :=
  sweep persists (fun hold => transitions.expire hold now_ms) holds

def fail_stalled_decisions (holds : Holds) (now_ms : Int) (stall_ms : Nat) :
    Holds × Except HeldActionStoreError (List HeldAction) :=
  sweep persists (fun hold => transitions.fail_stalled hold now_ms stall_ms) holds
end

/-! ## Claims -/

structure DecisionClaim where
  hold_id : String
  intent_event_id : String
  claimed : HeldAction
  deriving DecidableEq

/-- The states that the decide route completes a claim with. -/
inductive Resolution where
  | Refused | Executed | Failed
  deriving DecidableEq

def Resolution.state : Resolution → HoldState
  | .Refused => .Refused
  | .Executed => .Executed
  | .Failed => .Failed

/-- The store, and the claims whose holders have neither completed nor dropped them. -/
structure Desk where
  holds : Holds := []
  claims : List DecisionClaim := []
  deriving DecidableEq

inductive Op where
  | create (hold_id : String) (held_at_ms expires_at_ms : Int)
  | mark_case_channel (hold_id case_channel : String)
  | mark_notified (hold_id : String) (at_ms : Int) (notice_event_id : String) (card_event_id : Option String)
  | mark_armed (hold_id : String)
  | begin (hold_id intent_event_id : String) (cas_instant_ms : Int)
  | abandon_decision (hold_id intent_event_id : String)
  | drop (claim : DecisionClaim)
  | complete (claim : DecisionClaim) (decision : HoldDecisionRecord) (resolution : Resolution)
  | expire_due (now_ms : Int)
  | fail_stalled_decisions (now_ms : Int) (stall_ms : Nat)

/-- One call. A claim is completed or dropped by its holder only, and once. -/
def step (persists : HeldAction → Bool) (desk : Desk) : Op → Option Desk
  | .create hold_id held_at_ms expires_at_ms =>
    some { desk with holds := (create persists desk.holds (HeldAction.new hold_id held_at_ms expires_at_ms)).1 }
  | .mark_case_channel hold_id case_channel =>
    some { desk with holds := (mark_case_channel persists desk.holds hold_id case_channel).1 }
  | .mark_notified hold_id at_ms notice_event_id card_event_id =>
    some { desk with holds := (mark_notified persists desk.holds hold_id at_ms notice_event_id card_event_id).1 }
  | .mark_armed hold_id => some { desk with holds := (mark_armed persists desk.holds hold_id).1 }
  | .begin hold_id intent_event_id cas_instant_ms =>
    match begin_decision persists desk.holds hold_id intent_event_id cas_instant_ms with
    | (holds, .ok claimed) => some ⟨holds, ⟨hold_id, intent_event_id, claimed⟩ :: desk.claims⟩
    | (holds, .error _) => some { desk with holds }
  | .abandon_decision hold_id intent_event_id =>
    some { desk with holds := (abandon_decision persists desk.holds hold_id intent_event_id).1 }
  | .drop claim =>
    if claim ∈ desk.claims then
      some ⟨(abandon_decision persists desk.holds claim.hold_id claim.intent_event_id).1, desk.claims.erase claim⟩
    else none
  | .complete claim decision resolution =>
    if claim ∈ desk.claims then
      some ⟨(complete_decision persists desk.holds claim.hold_id decision resolution.state).1, desk.claims.erase claim⟩
    else none
  | .expire_due now_ms => some { desk with holds := (expire_due persists desk.holds now_ms).1 }
  | .fail_stalled_decisions now_ms stall_ms =>
    some { desk with holds := (fail_stalled_decisions persists desk.holds now_ms stall_ms).1 }

/-- A call with what comes of its writes. -/
abbrev Call := (HeldAction → Bool) × Op

def Step (desk : Desk) (call : Call) (desk' : Desk) : Prop := step call.1 desk call.2 = some desk'

end Ambush.Runtime

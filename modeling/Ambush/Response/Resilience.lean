import Ambush.Bridge.ChainHeads
import Ambush.Lib.Runs
import Ambush.Runtime.Lanes
/-!
# The resilient executor

`ResilientExecutor` puts a circuit breaker around an adapter, retries what may be sent twice, and writes what it gives up to a
dead-letter journal. Its calls share the breaker: they read and write it one access at a time, each between any of the others', and the
time of an access is whatever it is. A system of calls is run here, one access a step, and what becomes of each call is told.
-/
open Lib

namespace Ambush.Response
open Ambush.Policy (ActionRequest)
open Ambush.Runtime (ExecutionMode ResponseStatus ResponseReceipt ResponseError ResponseResult)
open Ambush.Bridge (as_u64 ascii_lowercase)

/-! ## The executor -/

structure RetryConfig where
  max_retries : Nat
  deriving DecidableEq

structure CircuitBreakerConfig where
  threshold : Nat
  cooldown_ms : Nat
  deriving DecidableEq

/-- In nanoseconds. -/
abbrev Instant := Nat

structure CircuitBreakerState where
  consecutive_failures : Nat := 0
  last_failure_time : Option Instant := none
  deriving DecidableEq

structure DeadLetterEntry where
  timestamp_ms : Int
  receipt_id : String
  action : String
  mode : ExecutionMode
  adapter : String
  attempts : Nat
  last_error : String
  details : Value
  deriving DecidableEq

/-- What an executor is built of and keeps. -/
structure ResilientExecutor where
  adapter : String
  retry : RetryConfig
  retries_enabled : Bool
  circuit_breaker : CircuitBreakerConfig
  deriving DecidableEq

namespace ResilientExecutor

def new (adapter : String) (retry : RetryConfig) (circuit_breaker : CircuitBreakerConfig) : ResilientExecutor where
  adapter := adapter
  retry := retry
  retries_enabled := false
  circuit_breaker := circuit_breaker

def with_retries (adapter : String) (retry : RetryConfig) (circuit_breaker : CircuitBreakerConfig) : ResilientExecutor where
  adapter := adapter
  retry := retry
  retries_enabled := true
  circuit_breaker := circuit_breaker

def circuit_open_receipt (e : ResilientExecutor) (request : ActionRequest) (mode : ExecutionMode) (consecutive_failures : Nat) :
    ResponseReceipt where
  receipt_id := "resp-circuit-open:" ++ request.hunt_id ++ ":" ++ request.action.kind
  action := request.action.kind
  mode := mode
  status := .Failed
  summary := e.adapter ++ " circuit breaker open"
  details := .object [("adapter", .string e.adapter), ("consecutive_failures", .integer consecutive_failures),
    ("cooldown_ms", .integer e.circuit_breaker.cooldown_ms)]
  audit := {}

def receipt_is_retryable (receipt : ResponseReceipt) : Bool :=
  match receipt.status with
  | .Timeout => true
  | .Failed =>
    match (receipt.details.get "status_code").bind as_u64 with
    | some status_code => status_code ≥ 500 || status_code = 429
    | none => ((receipt.details.get "error").bind Value.as_str).isSome
  | .Simulated | .Executed => false

def error_is_retryable (error : ResponseError) : Bool :=
  if (error.failure.details.get "status").bind Value.as_str = some "timeout" then true
  else
    match (error.failure.details.get "status_code").bind as_u64 with
    | some status_code => status_code ≥ 500 || status_code = 429
    | none =>
      if ((error.failure.details.get "error").bind Value.as_str).isSome then true
      else
        let message := (ascii_lowercase error.failure.message).toList
        "timeout".toList <:+: message || "connection".toList <:+: message

def is_retryable : ResponseResult → Bool
  | .ok receipt => receipt_is_retryable receipt
  | .error error => error_is_retryable error

def dead_letter_entry_from_receipt (e : ResilientExecutor) (receipt : ResponseReceipt) (attempts : Nat) (now_ms : Int) : DeadLetterEntry where
  timestamp_ms := now_ms
  receipt_id := receipt.receipt_id
  action := receipt.action
  mode := receipt.mode
  adapter := e.adapter
  attempts := attempts
  last_error := receipt.summary
  details := receipt.details

def dead_letter_entry_from_error (e : ResilientExecutor) (error : ResponseError) (attempts : Nat) (now_ms : Int) : DeadLetterEntry where
  timestamp_ms := now_ms
  receipt_id := error.failure.receipt_id
  action := error.failure.action
  mode := error.failure.mode
  adapter := e.adapter
  attempts := attempts
  last_error := error.failure.message
  details := error.failure.details

def dead_letter_entry (e : ResilientExecutor) (attempts : Nat) (now_ms : Int) : ResponseResult → DeadLetterEntry
  | .ok receipt => e.dead_letter_entry_from_receipt receipt attempts now_ms
  | .error error => e.dead_letter_entry_from_error error attempts now_ms

/-- The turns of the loop. Without retries there is no loop, and one turn. -/
def total_attempts (e : ResilientExecutor) : Nat := if e.retries_enabled then min (e.retry.max_retries + 1) (2 ^ 32 - 1) else 1

/-- `elapsed` of the last failure is below the cooldown. -/
def cooling (e : ResilientExecutor) (state : CircuitBreakerState) (now : Instant) : Bool :=
  state.last_failure_time.any (fun last_failure => now - last_failure < e.circuit_breaker.cooldown_ms * 1000000)

end ResilientExecutor

/-! ## One call -/

/-- Where a call stands, with the index of its turn. -/
inductive Phase where
  /-- `circuit_is_open` is about to load the count, or to read the time of the last failure. -/
  | checking (attempt : Nat)
  | timing (attempt : Nat)
  /-- The circuit was found open. -/
  | refusing (attempt : Nat)
  /-- Its adapter runs. -/
  | invoking (attempt : Nat)
  /-- The two writes of `reset_after_success`. -/
  | resetting (receipt : ResponseReceipt)
  | clearing (receipt : ResponseReceipt)
  /-- The two writes of `record_failure`. -/
  | counting (attempt : Nat) (outcome : ResponseResult)
  | stamping (attempt : Nat) (outcome : ResponseResult)
  /-- The failure is recorded. -/
  | settling (attempt : Nat) (outcome : ResponseResult)
  | sleeping (attempt : Nat)
  /-- Its adapter runs dry. -/
  | passing
  | returned (result : ResponseResult)
  deriving DecidableEq

/-- A call of `execute`, with the times it has invoked the adapter. -/
structure Call where
  request : ActionRequest
  mode : ExecutionMode
  phase : Phase
  invocations : Nat
  deriving DecidableEq

namespace Call

def invoke (call : Call) (attempt : Nat) : Call := { call with phase := .invoking attempt, invocations := call.invocations + 1 }

def goes (call : Call) (phase : Phase) : Call := { call with phase := phase }

end Call

/-- The receipt of an outcome that is a success. -/
def success : ResponseResult → Option ResponseReceipt
  | .ok receipt => if receipt.status.indicates_success then some receipt else none
  | .error _ => none

namespace ResilientExecutor

/-- `execute` up to its first shared access. -/
def enter (e : ResilientExecutor) (request : ActionRequest) (mode : ExecutionMode) : Call :=
  if mode = .DryRun then ⟨request, mode, .passing, 1⟩
  else if 0 < e.total_attempts then ⟨request, mode, .checking 0, 0⟩
  else ⟨request, mode, .refusing 0, 0⟩

/-- The adapter answers. -/
def receive (call : Call) (outcome : ResponseResult) : Option Call :=
  match call.phase with
  | .invoking attempt =>
    match success outcome with
    | some receipt => some (call.goes (.resetting receipt))
    | none => some (call.goes (.counting attempt outcome))
  | .passing => some (call.goes (.returned outcome))
  | _ => none

/-- The call's next access: the breaker and the call after it, and what it writes to the journal. -/
def advance (e : ResilientExecutor) (state : CircuitBreakerState) (call : Call) (now : Instant) (now_ms : Int) :
    Option (CircuitBreakerState × Call × Option DeadLetterEntry) :=
  match call.phase with
  | .checking attempt =>
    if state.consecutive_failures < e.circuit_breaker.threshold then some (state, call.invoke attempt, none)
    else some (state, call.goes (.timing attempt), none)
  | .timing attempt =>
    if e.cooling state now then some (state, call.goes (.refusing attempt), none) else some (state, call.invoke attempt, none)
  | .refusing _ =>
    some (state, call.goes (.returned (.ok (e.circuit_open_receipt call.request call.mode state.consecutive_failures))), none)
  | .resetting receipt => some ({ state with consecutive_failures := 0 }, call.goes (.clearing receipt), none)
  | .clearing receipt => some ({ state with last_failure_time := none }, call.goes (.returned (.ok receipt)), none)
  | .counting attempt outcome =>
    -- an atomic addition wraps
    some ({ state with consecutive_failures := (state.consecutive_failures + 1) % 2 ^ 32 }, call.goes (.stamping attempt outcome), none)
  | .stamping attempt outcome => some ({ state with last_failure_time := some now }, call.goes (.settling attempt outcome), none)
  | .settling attempt outcome =>
    if e.retries_enabled && is_retryable outcome && attempt + 1 < e.total_attempts then some (state, call.goes (.sleeping attempt), none)
    else some (state, call.goes (.returned outcome), some (e.dead_letter_entry (attempt + 1) now_ms outcome))
  | .sleeping attempt =>
    if attempt + 1 < e.total_attempts then some (state, call.goes (.checking (attempt + 1)), none)
    else some (state, call.goes (.refusing (attempt + 1)), none)
  | .invoking _ | .passing | .returned _ => none

end ResilientExecutor

/-! ## The system of calls -/

/-- The executor's state, its calls, and its journal, each entry with the call that wrote it. -/
structure Desk where
  state : CircuitBreakerState
  calls : Map Nat Call
  dead_letter : Option (List (Nat × DeadLetterEntry))

inductive Act where
  | execute (id : Nat) (request : ActionRequest) (mode : ExecutionMode)
  | answer (id : Nat) (outcome : ResponseResult)
  /-- A call goes on at a time of the monotonic clock and of the wall clock. -/
  | go (id : Nat) (now : Instant) (now_ms : Int)

namespace Desk

/-- What `build` makes, with a journal to write to. -/
def start : Desk := ⟨{}, Map.empty, some []⟩

/-- A write that succeeds. -/
def write_dead_letter (d : Desk) (id : Nat) (entry : DeadLetterEntry) : Desk :=
  { d with dead_letter := d.dead_letter.map (· ++ [(id, entry)]) }

/-- What a call has written to the journal. -/
def written (d : Desk) (id : Nat) : List DeadLetterEntry := ((d.dead_letter.getD []).filter (·.1 = id)).map (·.2)

def act (e : ResilientExecutor) (d : Desk) : Act → Option Desk
  | .execute id request mode =>
    if (d.calls id).isSome then none else some { d with calls := d.calls.insert id (e.enter request mode) }
  | .answer id outcome =>
    ((d.calls id).bind (ResilientExecutor.receive · outcome)).map (fun call => { d with calls := d.calls.insert id call })
  | .go id now now_ms =>
    ((d.calls id).bind (e.advance d.state · now now_ms)).map fun (state, call, entry) =>
      let d := { d with state := state, calls := d.calls.insert id call }
      match entry with
      | some entry => d.write_dead_letter id entry
      | none => d

def Acts (e : ResilientExecutor) (d : Desk) (a : Act) (d' : Desk) : Prop := d.act e a = some d'

end Desk

/-! ## What becomes of a call -/

/-- What a call that is over comes to: a success and no entry, or one entry with the number of its invocations, or a refusal before any
invocation. A call that found the circuit open has its refusal left to return. -/
def AccountedFor (e : ResilientExecutor) (call : Call) (written : List DeadLetterEntry) : Prop :=
  match call.phase with
  | .refusing _ => call.invocations = 0 ∧ written = []
  | .returned result =>
    ((success result).isSome ∧ written = []) ∨ (∃ entry, written = [entry] ∧ entry.attempts = call.invocations) ∨
      (call.invocations = 0 ∧ written = [] ∧ ∃ failures, result = .ok (e.circuit_open_receipt call.request call.mode failures))
  | _ => True

/-- What a call has done to stand where it stands. -/
def Upheld (e : ResilientExecutor) (call : Call) (written : List DeadLetterEntry) : Prop :=
  call.invocations ≤ e.total_attempts ∧
  match call.phase with
  | .checking attempt | .timing attempt | .refusing attempt => call.invocations = attempt ∧ attempt < e.total_attempts ∧ written = []
  | .invoking attempt => call.invocations = attempt + 1 ∧ written = []
  | .resetting receipt | .clearing receipt => (success (.ok receipt)).isSome ∧ written = []
  | .counting attempt _ | .stamping attempt _ | .settling attempt _ => call.invocations = attempt + 1 ∧ written = []
  | .sleeping attempt => call.invocations = attempt + 1 ∧ attempt + 1 < e.total_attempts ∧ written = []
  | .passing => call.mode = .DryRun
  | .returned _ => True

namespace ResilientExecutor

variable {e : ResilientExecutor} {call call' : Call} {written : List DeadLetterEntry}

theorem total_attempts_pos (e : ResilientExecutor) : 0 < e.total_attempts := by
  unfold total_attempts
  split
  · omega
  · exact Nat.one_pos

theorem total_attempts_le (e : ResilientExecutor) : e.total_attempts ≤ if e.retries_enabled then e.retry.max_retries + 1 else 1 := by
  unfold total_attempts
  split
  · exact Nat.min_le_left _ _
  · exact Nat.le_refl 1

theorem sound_enter (e : ResilientExecutor) (request : ActionRequest) (mode : ExecutionMode) :
    Upheld e (e.enter request mode) [] ∧ ((e.enter request mode).mode ≠ .DryRun → AccountedFor e (e.enter request mode) []) := by
  have hpos := e.total_attempts_pos
  unfold enter
  split
  · next hdry => exact ⟨⟨hpos, hdry⟩, fun hmode => absurd hdry hmode⟩
  · exact ⟨⟨Nat.zero_le _, rfl, hpos, rfl⟩, fun _ => trivial⟩

theorem sound_receive {outcome : ResponseResult} (hsound : Upheld e call written) (hreceive : receive call outcome = some call') :
    Upheld e call' written ∧ (call'.mode ≠ .DryRun → AccountedFor e call' written) := by
  obtain ⟨request, mode, phase, invocations⟩ := call
  unfold receive at hreceive
  cases phase with
  | invoking attempt =>
    obtain ⟨hbound, hcount, hnone⟩ := hsound
    cases hsuccess : success outcome with
    | some receipt =>
      have hreceipt : outcome = .ok receipt := by
        cases outcome with
        | error error => cases hsuccess
        | ok answered =>
          unfold success at hsuccess
          dsimp only at hsuccess
          split at hsuccess
          · cases hsuccess
            rfl
          · cases hsuccess
      simp only [hsuccess] at hreceive
      cases hreceive
      exact ⟨⟨hbound, by rw [← hreceipt, hsuccess]; rfl, hnone⟩, fun _ => trivial⟩
    | none =>
      simp only [hsuccess] at hreceive
      cases hreceive
      exact ⟨⟨hbound, hcount, hnone⟩, fun _ => trivial⟩
  | passing =>
    obtain ⟨hbound, hdry⟩ := hsound
    cases hreceive
    exact ⟨⟨hbound, trivial⟩, fun hmode => absurd hdry hmode⟩
  | _ => cases hreceive

/-- An access that is not a check before a retry that finds the circuit open leaves a call accounted for, and such a check does not. -/
theorem sound_advance {state state' : CircuitBreakerState} {now : Instant} {now_ms : Int} {entry : Option DeadLetterEntry}
    (hsound : Upheld e call written) (hadvance : e.advance state call now now_ms = some (state', call', entry)) :
    Upheld e call' (written ++ entry.toList) ∧ call'.mode = call.mode ∧
      (AccountedFor e call written → (AccountedFor e call' (written ++ entry.toList) ↔
        ∀ attempt, call.phase = .timing (attempt + 1) → e.cooling state now = false)) := by
  obtain ⟨request, mode, phase, invocations⟩ := call
  unfold advance at hadvance
  cases phase with
  | checking attempt =>
    obtain ⟨hbound, hcount, hturn, rfl⟩ := hsound
    obtain rfl : invocations = attempt := hcount
    dsimp only at hadvance
    split at hadvance
    · cases hadvance
      exact ⟨⟨hturn, rfl, rfl⟩, rfl, fun _ => ⟨(fun _ _ h => nomatch h), fun _ => trivial⟩⟩
    · cases hadvance
      exact ⟨⟨hbound, rfl, hturn, rfl⟩, rfl, fun _ => ⟨(fun _ _ h => nomatch h), fun _ => trivial⟩⟩
  | timing attempt =>
    obtain ⟨hbound, hcount, hturn, rfl⟩ := hsound
    obtain rfl : invocations = attempt := hcount
    dsimp only at hadvance
    split at hadvance
    · next hopen =>
      cases hadvance
      refine ⟨⟨hbound, rfl, hturn, rfl⟩, rfl, fun _ => ?_⟩
      constructor
      · rintro ⟨hzero, -⟩ attempt hphase
        cases hphase
        cases hzero
      · intro hclosed
        cases invocations with
        | zero => exact ⟨rfl, rfl⟩
        | succ attempt =>
          rw [hclosed attempt rfl] at hopen
          cases hopen
    · next hclosed =>
      cases hadvance
      exact ⟨⟨hturn, rfl, rfl⟩, rfl, fun _ => ⟨fun _ _ _ => Bool.eq_false_iff.2 hclosed, fun _ => trivial⟩⟩
  | refusing attempt =>
    obtain ⟨hbound, -, -, rfl⟩ := hsound
    cases hadvance
    refine ⟨⟨hbound, trivial⟩, rfl, fun ⟨hzero, _⟩ => ⟨(fun _ _ h => nomatch h), fun _ => ?_⟩⟩
    exact .inr (.inr ⟨hzero, rfl, _, rfl⟩)
  | resetting receipt =>
    obtain ⟨hbound, hsuccess, rfl⟩ := hsound
    cases hadvance
    exact ⟨⟨hbound, hsuccess, rfl⟩, rfl, fun _ => ⟨(fun _ _ h => nomatch h), fun _ => trivial⟩⟩
  | clearing receipt =>
    obtain ⟨hbound, hsuccess, rfl⟩ := hsound
    cases hadvance
    exact ⟨⟨hbound, trivial⟩, rfl, fun _ => ⟨(fun _ _ h => nomatch h), fun _ => .inl ⟨hsuccess, rfl⟩⟩⟩
  | counting attempt outcome =>
    obtain ⟨hbound, hcount, rfl⟩ := hsound
    cases hadvance
    exact ⟨⟨hbound, hcount, rfl⟩, rfl, fun _ => ⟨(fun _ _ h => nomatch h), fun _ => trivial⟩⟩
  | stamping attempt outcome =>
    obtain ⟨hbound, hcount, rfl⟩ := hsound
    cases hadvance
    exact ⟨⟨hbound, hcount, rfl⟩, rfl, fun _ => ⟨(fun _ _ h => nomatch h), fun _ => trivial⟩⟩
  | settling attempt outcome =>
    obtain ⟨hbound, hcount, rfl⟩ := hsound
    dsimp only at hadvance
    split at hadvance
    · next hretry =>
      simp only [Bool.and_eq_true, decide_eq_true_eq] at hretry
      cases hadvance
      exact ⟨⟨hbound, hcount, hretry.2, rfl⟩, rfl, fun _ => ⟨(fun _ _ h => nomatch h), fun _ => trivial⟩⟩
    · cases hadvance
      refine ⟨⟨hbound, trivial⟩, rfl, fun _ => ⟨(fun _ _ h => nomatch h), fun _ => .inr (.inl ⟨_, rfl, ?_⟩)⟩⟩
      cases outcome with
      | ok receipt => exact hcount.symm
      | error error => exact hcount.symm
  | sleeping attempt =>
    obtain ⟨hbound, hcount, hturn, rfl⟩ := hsound
    dsimp only at hadvance
    rw [if_pos hturn] at hadvance
    cases hadvance
    exact ⟨⟨hbound, hcount, hturn, rfl⟩, rfl, fun _ => ⟨(fun _ _ h => nomatch h), fun _ => trivial⟩⟩
  | invoking attempt => cases hadvance
  | passing => cases hadvance
  | returned result => cases hadvance

end ResilientExecutor

namespace Desk

variable {e : ResilientExecutor} {d d' : Desk} {a : Act}

/-- Every enforced call is accounted for. -/
def accounted (e : ResilientExecutor) (d : Desk) : Prop :=
  ∀ id call, d.calls id = some call → call.mode ≠ .DryRun → AccountedFor e call (d.written id)

/-- The step is a check before a retry, and the last failure is too near for it. -/
def cut (e : ResilientExecutor) (d : Desk) : Act → Prop
  | .go id now _ => ∃ call attempt, d.calls id = some call ∧ call.mode ≠ .DryRun ∧ call.phase = .timing (attempt + 1) ∧
      e.cooling d.state now = true
  | _ => False

theorem written_write_self {id : Nat} (hjournal : d.dead_letter.isSome) (entry : DeadLetterEntry) :
    (d.write_dead_letter id entry).written id = d.written id ++ [entry] := by
  obtain ⟨entries, hentries⟩ := Option.isSome_iff_exists.1 hjournal
  simp [written, write_dead_letter, hentries]

theorem written_write_ne {id id' : Nat} (hne : id' ≠ id) (entry : DeadLetterEntry) :
    (d.write_dead_letter id entry).written id' = d.written id' := by
  unfold written write_dead_letter
  cases d.dead_letter with
  | none => rfl
  | some entries => simp [Ne.symm hne]

/-- What a step does to the call it is of, and to no other. -/
theorem act_cases (hjournal : d.dead_letter.isSome) (hact : d.act e a = some d') :
    ∃ id call', d'.calls = d.calls.insert id call' ∧ (∀ id', id' ≠ id → d'.written id' = d.written id') ∧ d'.dead_letter.isSome ∧
      ((∃ request mode, a = .execute id request mode ∧ d.calls id = none ∧ call' = e.enter request mode ∧ d'.written id = d.written id) ∨
       (∃ outcome call, a = .answer id outcome ∧ d.calls id = some call ∧ ResilientExecutor.receive call outcome = some call' ∧
          d'.written id = d.written id) ∨
       (∃ now now_ms call entry, a = .go id now now_ms ∧ d.calls id = some call ∧
          e.advance d.state call now now_ms = some (d'.state, call', entry) ∧ d'.written id = d.written id ++ entry.toList)) := by
  cases a with
  | execute id request mode =>
    unfold act at hact
    dsimp only at hact
    split at hact
    · cases hact
    · next hnew =>
      cases hact
      exact ⟨id, _, rfl, fun _ _ => rfl, hjournal, .inl ⟨request, mode, rfl, Option.not_isSome_iff_eq_none.1 hnew, rfl, rfl⟩⟩
  | answer id outcome =>
    obtain ⟨call', hreceive, rfl⟩ := Option.map_eq_some_iff.1 hact
    obtain ⟨call, hcall, hreceive⟩ := Option.bind_eq_some_iff.1 hreceive
    exact ⟨id, call', rfl, fun _ _ => rfl, hjournal, .inr (.inl ⟨outcome, call, rfl, hcall, hreceive, rfl⟩)⟩
  | go id now now_ms =>
    obtain ⟨⟨state, call', entry⟩, hadvance, rfl⟩ := Option.map_eq_some_iff.1 hact
    obtain ⟨call, hcall, hadvance⟩ := Option.bind_eq_some_iff.1 hadvance
    cases entry with
    | none =>
      exact ⟨id, call', rfl, fun _ _ => rfl, hjournal,
        .inr (.inr ⟨now, now_ms, call, none, rfl, hcall, hadvance, (List.append_nil _).symm⟩)⟩
    | some entry =>
      refine ⟨id, call', rfl, fun id' hne => ?_, ?_, .inr (.inr ⟨now, now_ms, call, some entry, rfl, hcall, hadvance, ?_⟩)⟩
      · exact written_write_ne hne entry
      · exact (Option.isSome_map).trans hjournal
      · exact written_write_self hjournal entry

/-- The calls did what they must have done to stand where they stand. -/
structure Kept (e : ResilientExecutor) (d : Desk) : Prop where
  journal : d.dead_letter.isSome
  sound : ∀ id call, d.calls id = some call → Upheld e call (d.written id)
  fresh : ∀ id, d.calls id = none → d.written id = []

theorem kept_start (e : ResilientExecutor) : Kept e start := ⟨rfl, fun _ _ h => (nomatch h), fun _ _ => rfl⟩

theorem kept_act (h : Kept e d) (hact : Acts e d a d') : Kept e d' ∧ (d.accounted e → (d'.accounted e ↔ ¬ d.cut e a)) := by
  obtain ⟨id, call', hcalls, hothers, hjournal, hkind⟩ := act_cases h.journal hact
  have hself : d'.calls id = some call' := by rw [hcalls, Map.insert_self]
  have hne : ∀ id', id' ≠ id → d'.calls id' = d.calls id' := fun id' hid => by rw [hcalls, Map.insert_ne _ _ _ _ hid]
  suffices hcall : Upheld e call' (d'.written id) ∧
      (d.accounted e → ((call'.mode ≠ .DryRun → AccountedFor e call' (d'.written id)) ↔ ¬ d.cut e a)) by
    refine ⟨⟨hjournal, fun id' call hid' => ?_, fun id' hid' => ?_⟩, fun haccounted => ?_⟩
    · by_cases hid : id' = id
      · subst hid
        obtain rfl := Option.some.inj (hself.symm.trans hid')
        exact hcall.1
      · rw [hothers id' hid]
        exact h.sound id' call ((hne id' hid).symm.trans hid')
    · by_cases hid : id' = id
      · subst hid
        rw [hself] at hid'
        cases hid'
      · rw [hothers id' hid]
        exact h.fresh id' ((hne id' hid).symm.trans hid')
    · refine Iff.trans ⟨fun hall => hall id call' hself, fun hthis id' call hid' hmode => ?_⟩ (hcall.2 haccounted)
      by_cases hid : id' = id
      · subst hid
        obtain rfl := Option.some.inj (hself.symm.trans hid')
        exact hthis hmode
      · rw [hothers id' hid]
        exact haccounted id' call ((hne id' hid).symm.trans hid') hmode
  rcases hkind with ⟨request, mode, rfl, hnone, rfl, hwritten⟩ | ⟨outcome, call, rfl, hsome, hreceive, hwritten⟩ |
      ⟨now, now_ms, call, entry, rfl, hsome, hadvance, hwritten⟩
  · rw [hwritten, h.fresh id hnone]
    obtain ⟨hsound, hdone⟩ := ResilientExecutor.sound_enter e request mode
    exact ⟨hsound, fun _ => ⟨fun _ hcut => hcut, fun _ => hdone⟩⟩
  · rw [hwritten]
    obtain ⟨hsound, hdone⟩ := ResilientExecutor.sound_receive (h.sound id call hsome) hreceive
    exact ⟨hsound, fun _ => ⟨fun _ hcut => hcut, fun _ => hdone⟩⟩
  · rw [hwritten]
    obtain ⟨hsound, hmode, hdone⟩ := ResilientExecutor.sound_advance (h.sound id call hsome) hadvance
    refine ⟨hsound, fun haccounted => ?_⟩
    rw [hmode]
    by_cases hdry : call.mode = .DryRun
    · refine ⟨?_, fun _ hnot => absurd hdry hnot⟩
      rintro - ⟨other, attempt, hother, hnot, -⟩
      obtain rfl := Option.some.inj (hsome.symm.trans hother)
      exact hnot hdry
    · refine Iff.trans ⟨fun hthis => hthis hdry, fun hthis _ => hthis⟩ ((hdone (haccounted id call hsome hdry)).trans ?_)
      constructor
      · rintro hclosed ⟨other, attempt, hother, -, hphase, hopen⟩
        obtain rfl := Option.some.inj (hsome.symm.trans hother)
        rw [hclosed attempt hphase] at hopen
        cases hopen
      · intro huncut attempt hphase
        exact Bool.eq_false_iff.2 fun hopen => huncut ⟨call, attempt, hsome, hdry, hphase, hopen⟩

theorem kept_run {past : List Act} (hrun : Run (Acts e) start past d) : Kept e d :=
  hrun.inv (fun _ _ _ _ h hact => (kept_act h hact).1) (kept_start e)

theorem accounted_iff (e : ResilientExecutor) (acts : List Act) :
    (∀ past d, past <+: acts → Run (Acts e) start past d → d.accounted e) ↔
      ∀ past a d d', past ++ [a] <+: acts → Run (Acts e) start past d → Acts e d a d' → ¬ d.cut e a := by
  have hstart : Kept e start ∧ start.accounted e := ⟨kept_start e, fun _ _ h => (nomatch h)⟩
  have hiff := Run.throughout_iff (I := fun d => Kept e d ∧ d.accounted e) (P := fun d a => ¬ d.cut e a) hstart
    (fun d a d' h hact => by
      obtain ⟨hkept, hdone⟩ := kept_act h.1 hact
      exact (and_iff_right hkept).trans (hdone h.2)) acts
  refine Iff.trans ⟨fun hall past d hpast hrun => ?_, fun hall past d hpast hrun => ?_⟩ hiff
  · exact ⟨kept_run hrun, hall past d hpast hrun⟩
  · exact (hall past d hpast hrun).2

/-- In every run the calls are accounted for just as long as no check before a retry finds the circuit open. A call invokes its adapter once,
or with retries at most once more than there are retries. -/
theorem calls_accounted (e : ResilientExecutor) (acts : List Act) :
    ((∀ past d, past <+: acts → Run (Acts e) start past d → d.accounted e) ↔
      ∀ past a d d', past ++ [a] <+: acts → Run (Acts e) start past d → Acts e d a d' → ¬ d.cut e a) ∧
    ∀ past d, past <+: acts → Run (Acts e) start past d → ∀ id call, d.calls id = some call →
      call.invocations ≤ if e.retries_enabled then e.retry.max_retries + 1 else 1 := by
  refine ⟨accounted_iff e acts, fun past d _ hrun id call hcall => ?_⟩
  exact ((kept_run hrun).sound id call hcall).1.trans e.total_attempts_le

def blocked : ActionRequest := ⟨"hunt-1", "agent-1", .BlockEgress "203.0.113.10", .High, .null⟩

def timed_out : ResponseReceipt := ⟨"receipt", "block_egress", .Enforced, .Timeout, "adapter timed out", .null, {}⟩

/-- One failure opens the circuit, and a retry was allowed. -/
def impatient : ResilientExecutor := .with_retries "siem" ⟨1⟩ ⟨1, 60000⟩

/-- The adapter times out, and the call goes to its second check. -/
def timeout_acts : List Act :=
  [.execute 0 blocked .Enforced, .go 0 0 0, .answer 0 (.ok timed_out), .go 0 0 0, .go 0 0 0, .go 0 0 0, .go 0 100000000 100,
    .go 0 100000000 100, .go 0 100000000 100, .go 0 100000000 100]

/-- The call returns that the circuit is open. Its adapter was invoked, and nothing was written. -/
theorem finding_lost_to_own_failure : ∃ d, Run (Acts impatient) start timeout_acts d ∧ ¬ d.accounted impatient ∧
    d.calls 0 = some ⟨blocked, .Enforced, .returned (.ok (impatient.circuit_open_receipt blocked .Enforced 1)), 1⟩ ∧ d.written 0 = [] := by
  have hlost : ((timeout_acts.foldlM (act impatient) start).any fun d =>
      d.calls 0 = some ⟨blocked, .Enforced, .returned (.ok (impatient.circuit_open_receipt blocked .Enforced 1)), 1⟩ &&
        d.written 0 = []) = true := by decide +kernel
  cases hrun : timeout_acts.foldlM (act impatient) start with
  | none =>
    rw [hrun] at hlost
    cases hlost
  | some d =>
    rw [hrun] at hlost
    simp only [Option.any_some, Bool.and_eq_true, decide_eq_true_eq] at hlost
    obtain ⟨hcall, hwritten⟩ := hlost
    refine ⟨d, Run.of_foldlM hrun, fun haccounted => ?_, hcall, hwritten⟩
    have hreturned := haccounted 0 _ hcall (by decide)
    rw [hwritten] at hreturned
    rcases hreturned with ⟨hsuccess, -⟩ | ⟨entry, hentry, -⟩ | ⟨hinvoked, -⟩
    · cases hsuccess
    · cases hentry
    · cases hinvoked

end Desk

end Ambush.Response

import Ambush.Runtime.Lanes
/-!
# Both lanes do the same

From one state, on one request, the lanes end in the same state, make the same calls of the
adapter, and the one returns a receipt exactly when the other puts it into its trail as a
success. What leads up to a call is read off the lane of the early returns.
-/
open Lib

namespace Ambush.Runtime.SwarmRuntime
open Policy (ActionRequest ApprovalError)

variable {G Q J A D : Type} (rt : SwarmRuntime G Q J A) (s : RuntimeState G Q J A)

/-! ## What the parts leave alone -/

@[simp] theorem decorate_status (receipt : ResponseReceipt) (request : ActionRequest) (reason : String) :
    (rt.decorate_receipt_with_governance receipt request reason).status = receipt.status := by
  unfold decorate_receipt_with_governance
  cases rt.verified_governance_receipt request <;> rfl

theorem guard_keeps (request : ActionRequest) :
    (rt.evaluate_guard_rejection s request).1.gate = s.gate ∧ (rt.evaluate_guard_rejection s request).1.calls = s.calls := by
  unfold evaluate_guard_rejection
  cases rt.guard_pipeline <;> exact ⟨rfl, rfl⟩

theorem record_calls (prepared : PreparedContainment) (request : ActionRequest) (receipt : ResponseReceipt) :
    (rt.record_containment_lease s prepared request receipt).1.calls = s.calls := by
  unfold record_containment_lease
  dsimp only
  split
  · rfl
  · split <;> rfl

theorem conclude_calls (decision : PolicyDecision) (prepared : Option PreparedContainment) (request : ActionRequest)
    (dispatch : DispatchOutcome) : (rt.conclude s decision prepared request dispatch).1.calls = s.calls := by
  unfold conclude
  cases dispatch.result with
  | error error => rfl
  | ok receipt =>
    dsimp only
    split
    · rfl
    · cases prepared with
      | none => cases dispatch.completion_error <;> rfl
      | some prepared =>
        dsimp only
        rw [← rt.record_calls s prepared request]
        split
        · rfl
        · cases dispatch.completion_error <;> rfl

/-- A dispatch calls the adapter once, with what it is given, or not at all. -/
theorem dispatch_once_calls (request : ActionRequest) (lease : CapabilityLease) (mode : ExecutionMode) (now_ms : Int) :
    (rt.dispatch_once s request lease mode now_ms).1.calls = s.calls ∨
      (rt.dispatch_once s request lease mode now_ms).1.calls = s.calls ++ [⟨request, lease, mode⟩] := by
  unfold dispatch_once
  split
  · exact Or.inr rfl
  · cases rt.dispatch_journal with
    | none => exact Or.inl rfl
    | some journal =>
      dsimp only
      rcases journal.reserve s.journal request lease now_ms with ⟨state, error | dispatch_id⟩
      · exact Or.inl rfl
      · refine Or.inr ?_
        dsimp only
        split <;> rfl

/-! ## After the dispatch -/

/-- One lane returns what the other records as a success. -/
def Agree (returned : RuntimeState G Q J A × Except RuntimeError ResponseReceipt)
    (audited : RuntimeState G Q J A × Except RuntimeError (Option CapabilityLease × AuditResponseRecord × Bool)) : Prop :=
  returned.1 = audited.1 ∧
    ∀ receipt, returned.2 = .ok receipt ↔ ∃ lease attempted, audited.2 = .ok (lease, .Success receipt, attempted)

/-- Neither an error here nor a record there that is not a success is a receipt. -/
theorem agree_failed (error : RuntimeError) (lease : Option CapabilityLease) {record : AuditResponseRecord} (attempted : Bool)
    (h : AuditResponseRecord.is_success record = false) : Agree (s, .error error) (s, .ok (lease, record, attempted)) := by
  refine ⟨rfl, fun receipt => ⟨fun h => (by cases h), ?_⟩⟩
  rintro ⟨_, _, h'⟩
  cases h'
  cases h

theorem agree_error (error error' : RuntimeError) :
    Agree (s, .error error) ((s, .error error') : _ × Except RuntimeError (Option CapabilityLease × AuditResponseRecord × Bool)) := by
  refine ⟨rfl, fun receipt => ⟨fun h => (by cases h), ?_⟩⟩
  rintro ⟨_, _, h⟩
  cases h

theorem agree_receipt (receipt : ResponseReceipt) (lease : Option CapabilityLease) (attempted : Bool) :
    Agree (s, .ok receipt) (s, .ok (lease, .Success receipt, attempted)) := by
  refine ⟨rfl, fun receipt' => ⟨fun h => ?_, ?_⟩⟩
  · cases h
    exact ⟨lease, attempted, rfl⟩
  · rintro ⟨_, _, h⟩
    cases h
    rfl

theorem tails_agree (decision : PolicyDecision) (prepared : Option PreparedContainment) (request : ActionRequest)
    (dispatch : DispatchOutcome) (lease : Option CapabilityLease) :
    Agree (rt.conclude s decision prepared request dispatch)
      ((rt.audit_result s decision none prepared request dispatch.result).1,
        .ok (lease, audit_completion (rt.audit_result s decision none prepared request dispatch.result).2 dispatch.completion_error,
          dispatch.attempted)) := by
  obtain ⟨result, attempted, completion_error⟩ := dispatch
  cases result with
  | error error => cases completion_error <;> exact agree_failed s _ _ _ rfl
  | ok receipt =>
    unfold conclude audit_result with_approval
    simp only [decorate_status]
    change Agree (if (!receipt.status.indicates_success) = true then _ else _) _
    cases hstatus : receipt.status.indicates_success with
    | false => cases completion_error <;> exact agree_failed s _ _ _ rfl
    | true =>
      cases prepared with
      | none =>
        cases completion_error with
        | none => exact agree_receipt s _ _ _
        | some error => exact agree_failed s _ _ _ rfl
      | some prepared =>
        -- the lease is recorded first in both lanes, and only then does the completion count
        simp only [Option.map_some, Bool.not_true, Bool.false_eq_true, if_false, if_true]
        rcases rt.record_containment_lease s prepared request _ with ⟨s', error | ⟨⟩⟩
        · cases completion_error <;> exact agree_failed s' _ _ _ rfl
        · cases completion_error with
          | none => exact agree_receipt s' _ _ _
          | some error => exact agree_failed s' _ _ _ rfl

/-! ## Before the dispatch -/

/-- What the policy, the guards and the lease said of a request for which the adapter may be called with `lease`. -/
structure Cleared (request : ActionRequest) (context : ApprovalContext) (lease : CapabilityLease) : Prop where
  decided : ∃ decision, (rt.policy.evaluate s.gate request context).2 = .ok decision ∧ decision.verdict ≠ .Deny ∧
    ¬(decision.verdict = .RequireHuman ∧ rt.mode = .LiveResponse)
  guarded : (rt.evaluate_guard_rejection { s with gate := (rt.policy.evaluate s.gate request context).1 } request).2 = none
  issued : (rt.policy.issue_lease (rt.policy.evaluate s.gate request context).1 request context).2 = .ok lease
  active : context.now_ms < lease.expires_at_ms
  bounded : is_containment_action request.action → rt.execution_mode = .Enforced → rt.containment_ttl_ms ≠ none

/-- An enforced containment is prepared only if there is a lease store. -/
theorem prepare_bounded {request : ActionRequest} {context : ApprovalContext} {prepared : Option PreparedContainment}
    (h : rt.prepare_containment request context rt.execution_mode = .ok prepared) :
    is_containment_action request.action → rt.execution_mode = .Enforced → rt.containment_ttl_ms ≠ none := by
  intro hcontains henforced hnone
  unfold prepare_containment at h
  rw [hcontains, henforced, hnone] at h
  cases h

theorem ensure_active_iff {lease : CapabilityLease} {now_ms : Int} {u : Unit} :
    ensure_active_lease lease now_ms = .ok u ↔ now_ms < lease.expires_at_ms := by
  unfold ensure_active_lease
  split
  · exact ⟨fun h => (by cases h), fun h => by omega⟩
  · exact ⟨fun _ => by omega, fun _ => rfl⟩

theorem ensure_active_denied {lease : CapabilityLease} {now_ms : Int} {error : ApprovalError}
    (h : ensure_active_lease lease now_ms = .error error) : error = .Denied "capability lease expired" := by
  unfold ensure_active_lease at h
  split at h
  · cases h
    rfl
  · cases h

/-- One pass through both lanes, one refusal after the other. -/
theorem decisions_agree (request : ActionRequest) (context : ApprovalContext) {gate : G} {decision : PolicyDecision}
    (hdecided : rt.policy.evaluate s.gate request context = (gate, .ok decision)) :
    Agree (rt.authorize_and_execute s request context)
      (rt.audit_response { s with gate := gate } decision request context false rt.execution_mode none) := by
  unfold authorize_and_execute audit_response
  rw [hdecided]
  dsimp only
  rw [Bool.not_false, Bool.and_true]
  split
  · exact agree_failed _ _ _ _ rfl
  · split
    · exact agree_failed _ _ _ _ rfl
    · rcases rt.evaluate_guard_rejection { s with gate := gate } request with ⟨s', _ | ⟨guard_name, reason⟩⟩
      · dsimp only
        cases rt.prepare_containment request context rt.execution_mode with
        | error error => exact agree_failed _ _ _ _ rfl
        | ok prepared =>
          dsimp only
          rcases rt.policy.issue_lease s'.gate request context with ⟨gate', error | lease⟩
          · exact agree_error _ _ _
          · dsimp only
            cases hactive : ensure_active_lease lease context.now_ms with
            | error error =>
              rw [ensure_active_denied hactive]
              exact agree_failed _ _ _ _ rfl
            | ok u => exact rt.tails_agree _ decision prepared request _ _
      · exact agree_failed _ _ _ _ rfl

/-- The adapter is called at most once, with the lease that was issued, after everything that could refuse has not. -/
theorem called_when_cleared (request : ActionRequest) (context : ApprovalContext) :
    (rt.authorize_and_execute s request context).1.calls = s.calls ∨
      ∃ lease, (rt.authorize_and_execute s request context).1.calls = s.calls ++ [⟨request, lease, rt.execution_mode⟩] ∧
        rt.Cleared s request context lease := by
  unfold authorize_and_execute
  rcases hdecided : rt.policy.evaluate s.gate request context with ⟨gate, error | decision⟩
  · exact Or.inl rfl
  · dsimp only
    split
    · exact Or.inl rfl
    next hdeny =>
    split
    · exact Or.inl rfl
    next hhuman =>
    obtain ⟨hgate, hcalls⟩ := rt.guard_keeps { s with gate := gate } request
    rcases hguard : rt.evaluate_guard_rejection { s with gate := gate } request with ⟨s', _ | ⟨guard_name, reason⟩⟩
    · rw [hguard] at hgate hcalls
      dsimp only at hgate hcalls ⊢
      cases hprepared : rt.prepare_containment request context rt.execution_mode with
      | error error => exact Or.inl hcalls
      | ok prepared =>
        dsimp only
        rw [hgate]
        rcases hissued : rt.policy.issue_lease gate request context with ⟨gate', error | lease⟩
        · exact Or.inl hcalls
        · dsimp only
          cases hactive : ensure_active_lease lease context.now_ms with
          | error error => exact Or.inl hcalls
          | ok u =>
            dsimp only
            rw [conclude_calls, ← hcalls]
            refine (rt.dispatch_once_calls { s' with gate := gate' } request lease rt.execution_mode context.now_ms).imp id
              fun h => ⟨lease, h, ?_⟩
            exact {
              decided := ⟨decision, by rw [hdecided], hdeny, by simpa using hhuman⟩
              guarded := by rw [hdecided, hguard]
              issued := by rw [hdecided, hissued]
              active := ensure_active_iff.mp hactive
              bounded := rt.prepare_bounded hprepared }
    · rw [hguard] at hcalls
      exact Or.inl hcalls

/-- For every gate, guards, containment, journal, adapter and mode. -/
theorem lanes_agree (rt : SwarmRuntime G Q J A) (s : RuntimeState G Q J A) (detection : D) (request : ActionRequest)
    (context : ApprovalContext) :
    (rt.authorize_and_execute s request context).1 = (rt.audit_authorize_and_execute s detection request context).1 ∧
      (∀ receipt, (rt.authorize_and_execute s request context).2 = .ok receipt ↔
        ∃ trail, (rt.audit_authorize_and_execute s detection request context).2 = .ok trail ∧ trail.response = .Success receipt) ∧
      ((rt.authorize_and_execute s request context).1.calls = s.calls ∨
        ∃ lease, (rt.authorize_and_execute s request context).1.calls = s.calls ++ [⟨request, lease, rt.execution_mode⟩] ∧
          rt.Cleared s request context lease) := by
  refine and_assoc.mp ⟨?_, rt.called_when_cleared s request context⟩
  unfold audit_authorize_and_execute audit_authorize_and_execute_instrumented_internal
  rcases hdecided : rt.policy.evaluate s.gate request context with ⟨gate, error | decision⟩
  · unfold authorize_and_execute
    rw [hdecided]
    refine ⟨rfl, fun receipt => ⟨fun h => (by cases h), ?_⟩⟩
    rintro ⟨_, h, _⟩
    cases h
  · obtain ⟨hstate, hreceipt⟩ := rt.decisions_agree s request context hdecided
    rw [hstate]
    simp only [hreceipt, Option.getD_none]
    rcases rt.audit_response { s with gate := gate } decision request context false rt.execution_mode none with
      ⟨s', error | ⟨lease, response, attempted⟩⟩
    · refine ⟨rfl, fun receipt => ⟨?_, ?_⟩⟩
      · rintro ⟨_, _, h⟩
        cases h
      · rintro ⟨_, h, _⟩
        cases h
    · refine ⟨rfl, fun receipt => ⟨?_, ?_⟩⟩
      · rintro ⟨_, _, h⟩
        cases h
        exact ⟨_, rfl, rfl⟩
      · rintro ⟨trail, h, hresponse⟩
        cases h
        cases hresponse
        exact ⟨_, _, rfl⟩

end Ambush.Runtime.SwarmRuntime

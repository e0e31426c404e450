import Ambush.Lib.Ints
import Ambush.Policy.Gate
/-!
# The lease decisions of the pure policy core

The governance predicates of `formal_core`: a lease is judged from its terms, an action
and the caller's clock.
-/
open Lib

namespace Ambush.Policy

def governance_quorum_threshold (total_governors max_faulty : Nat) : Nat :=
  if total_governors = 0 then 0 else satAdd (satMul max_faulty 2) 1

structure LeaseTerms where
  lease_id : String
  action_kind : String
  scope : Option String
  blast_radius_cap : Nat
  expires_at_ms : Int
  redeemed_scopes : List String

inductive LeaseRedeemOutcome where
  | AlreadyRedeemed
  | Recorded (scope : String)
  deriving DecidableEq

def lease_matches_action (terms : LeaseTerms) (action : ResponseAction) : Bool :=
  terms.action_kind == action.kind &&
    match terms.scope with
    | none => true
    | some scope => scope_for_response_action action == some scope

def action_scope_key (action : ResponseAction) : String :=
  (scope_for_response_action action).getD ("unscoped:" ++ action.kind)

def lease_can_redeem (terms : LeaseTerms) (action : ResponseAction) (now_ms : Int) : Bool :=
  if !lease_matches_action terms action || terms.expires_at_ms ≤ now_ms then false
  else
    action_scope_key action ∈ terms.redeemed_scopes || terms.redeemed_scopes.length < terms.blast_radius_cap

def lease_redeem (terms : LeaseTerms) (action : ResponseAction) (now_ms : Int) : Except String LeaseRedeemOutcome :=
  if !lease_matches_action terms action then
    .error ("contingency lease `" ++ terms.lease_id ++ "` does not cover action `" ++ action.kind ++ "`")
  else if terms.expires_at_ms ≤ now_ms then .error "contingency lease expired"
  else if action_scope_key action ∈ terms.redeemed_scopes then .ok .AlreadyRedeemed
  else if terms.blast_radius_cap ≤ terms.redeemed_scopes.length then
    .error ("contingency lease `" ++ terms.lease_id ++ "` exceeded blast radius cap " ++
      toString terms.blast_radius_cap)
  else .ok (.Recorded (action_scope_key action))

def validate_lease_terms (schema_version expected_schema_version blast_radius_cap : Nat)
    (max_duration_ms issued_at_ms expires_at_ms : Int) : Except String Unit :=
  if schema_version ≠ expected_schema_version then
    .error ("unsupported contingency lease schema_version `" ++ toString schema_version ++ "`")
  else if blast_radius_cap = 0 then .error "contingency lease blast radius cap must be positive"
  else if max_duration_ms ≤ 0 then .error "contingency lease duration must be positive"
  else if expires_at_ms ≤ issued_at_ms then .error "contingency lease expiry must be after issuance"
  else .ok ()

/-! ## When a lease can be redeemed -/

section Redeem
variable {terms : LeaseTerms} {action : ResponseAction} {now_ms : Int}

theorem lease_can_redeem_iff : lease_can_redeem terms action now_ms = true ↔
    lease_matches_action terms action = true ∧ now_ms < terms.expires_at_ms ∧
      (action_scope_key action ∈ terms.redeemed_scopes ∨ terms.redeemed_scopes.length < terms.blast_radius_cap) := by
  unfold lease_can_redeem
  by_cases hm : lease_matches_action terms action = true
  · by_cases he : now_ms < terms.expires_at_ms
    · simp [hm, he, Int.not_le.2 he]
    · simp [hm, he, Int.not_lt.1 he]
  · simp [hm]

/-- A redemption happens before expiry, of a scope that is redeemed already or while
there is budget. -/
theorem lease_redeem_eq_ok {out : LeaseRedeemOutcome} : lease_redeem terms action now_ms = .ok out ↔
    lease_matches_action terms action = true ∧ now_ms < terms.expires_at_ms ∧
      ((action_scope_key action ∈ terms.redeemed_scopes ∧ out = .AlreadyRedeemed) ∨
        (action_scope_key action ∉ terms.redeemed_scopes ∧ terms.redeemed_scopes.length < terms.blast_radius_cap ∧
          out = .Recorded (action_scope_key action))) := by
  unfold lease_redeem
  by_cases hm : lease_matches_action terms action = true
  · by_cases he : now_ms < terms.expires_at_ms
    · by_cases ha : action_scope_key action ∈ terms.redeemed_scopes
      · simp [hm, he, Int.not_le.2 he, ha, eq_comm]
      · by_cases hc : terms.redeemed_scopes.length < terms.blast_radius_cap
        · simp [hm, he, Int.not_le.2 he, ha, hc, Nat.not_le.2 hc, eq_comm]
        · simp [hm, he, Int.not_le.2 he, ha, hc, Nat.not_lt.1 hc]
    · simp [hm, he, Int.not_lt.1 he]
  · simp [hm]

/-- The redemption succeeds where the preview says so. -/
theorem lease_redeem_of_can_redeem (h : lease_can_redeem terms action now_ms = true) :
    ∃ out, lease_redeem terms action now_ms = .ok out := by
  obtain ⟨hm, he, hb⟩ := lease_can_redeem_iff.1 h
  by_cases ha : action_scope_key action ∈ terms.redeemed_scopes
  · exact ⟨_, lease_redeem_eq_ok.2 ⟨hm, he, .inl ⟨ha, rfl⟩⟩⟩
  · exact ⟨_, lease_redeem_eq_ok.2 ⟨hm, he, .inr ⟨ha, hb.resolve_left ha, rfl⟩⟩⟩

end Redeem
end Ambush.Policy

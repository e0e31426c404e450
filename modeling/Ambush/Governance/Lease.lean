import Ambush.Core.Coding
import Ambush.Consensus.Receipts
import Ambush.Policy.Lease
/-!
# Contingency leases

A `ContingencyLease` lets a governor that has lost its quorum redeem a bounded number
of scopes. Its terms are judged by the pure policy core, its receipt by the signature.
-/
open Lib

namespace Ambush.Governance

open Consensus Policy

def CONTINGENCY_LEASE_SCHEMA_VERSION : Nat := 1

structure ContingencyLease where
  schema_version : Nat
  lease_id : String
  action_kind : String
  scope : Option String
  blast_radius_cap : Nat
  max_duration_ms : Int
  issued_at_ms : Int
  expires_at_ms : Int
  redeemed_scopes : List String
  governance_receipt : ConsensusGovernanceReceipt
  deriving DecidableEq

/-- The digest that names a lease. -/
def contingency_lease_id (c : Crypto) (action_kind : String) (scope : Option String) (blast_radius_cap : Nat)
    (issued_at_ms expires_at_ms : Int) : String :=
  c.digest (.object [("action_kind", .string action_kind), ("blast_radius_cap", .integer blast_radius_cap),
    ("expires_at_ms", .integer expires_at_ms), ("issued_at_ms", .integer issued_at_ms),
    ("kind", .string "contingency_lease"), ("scope", .optional scope)])

def build_contingency_lease_proposal (c : Crypto) (lease_id action_kind : String) (scope : Option String)
    (blast_radius_cap : Nat) (max_duration_ms issued_at_ms expires_at_ms : Int) : ConsensusProposal :=
  let payload : Value := .object [("action_kind", .string action_kind), ("blast_radius_cap", .integer blast_radius_cap),
    ("expires_at_ms", .integer expires_at_ms), ("issued_at_ms", .integer issued_at_ms),
    ("kind", .string "contingency_lease"), ("lease_id", .string lease_id),
    ("max_duration_ms", .integer max_duration_ms), ("scope", .optional scope)]
  ⟨c.digest payload, payload⟩

namespace ContingencyLease

/-- The JSON evidence carries a lease as; a missing scope is left out. -/
def serialize (l : ContingencyLease) : Value :=
  .object ([("action_kind", .string l.action_kind), ("blast_radius_cap", .integer l.blast_radius_cap),
    ("expires_at_ms", .integer l.expires_at_ms),
    ("governance_receipt", .object [("payload", l.governance_receipt.payload.serialize),
      ("signature", l.governance_receipt.signature.serialize)]),
    ("issued_at_ms", .integer l.issued_at_ms), ("lease_id", .string l.lease_id),
    ("max_duration_ms", .integer l.max_duration_ms), ("redeemed_scopes", .array (l.redeemed_scopes.map .string)),
    ("schema_version", .integer l.schema_version)] ++
    match l.scope with
    | some scope => [("scope", .string scope)]
    | none => [])

/-- Whether the terms are in order and some key approved them. -/
def verify (c : Crypto) (l : ContingencyLease) : Except String Unit :=
  match validate_lease_terms l.schema_version CONTINGENCY_LEASE_SCHEMA_VERSION l.blast_radius_cap l.max_duration_ms
      l.issued_at_ms l.expires_at_ms with
  | .error reason => .error reason
  | .ok () =>
    match l.governance_receipt.verify c with
    | .error error => .error ("invalid contingency lease receipt: " ++ error.text)
    | .ok _ =>
      if l.governance_receipt.payload.decision ≠ .Approve then
        .error "contingency lease receipt must be an approval"
      else if l.governance_receipt.payload.proposal_id ≠
          (build_contingency_lease_proposal c l.lease_id l.action_kind l.scope l.blast_radius_cap l.max_duration_ms
            l.issued_at_ms l.expires_at_ms).proposal_id then
        .error "contingency lease proposal hash did not match receipt"
      else .ok ()

def terms (l : ContingencyLease) : LeaseTerms where
  lease_id := l.lease_id
  action_kind := l.action_kind
  scope := l.scope
  blast_radius_cap := l.blast_radius_cap
  expires_at_ms := l.expires_at_ms
  redeemed_scopes := l.redeemed_scopes

def can_redeem (l : ContingencyLease) (action : ResponseAction) (now_ms : Int) : Bool :=
  lease_can_redeem l.terms action now_ms

/-- The lease with one more scope redeemed. -/
def push (l : ContingencyLease) (scope : String) : ContingencyLease :=
  { l with redeemed_scopes := l.redeemed_scopes ++ [scope] }

def redeem (l : ContingencyLease) (action : ResponseAction) (now_ms : Int) : Except String ContingencyLease :=
  match lease_redeem l.terms action now_ms with
  | .error reason => .error reason
  | .ok .AlreadyRedeemed => .ok l
  | .ok (.Recorded scope) => .ok (l.push scope)

/-! ## What redeeming does -/

/-- A redemption happens before expiry and leaves the lease as it was, its scope being
redeemed already, or with the scope added while there is budget. -/
theorem redeem_cases {l l' : ContingencyLease} {action : ResponseAction} {now_ms : Int}
    (h : l.redeem action now_ms = .ok l') :
    lease_matches_action l.terms action = true ∧ now_ms < l.expires_at_ms ∧
      ((action_scope_key action ∈ l.redeemed_scopes ∧ l' = l) ∨
        (action_scope_key action ∉ l.redeemed_scopes ∧ l.redeemed_scopes.length < l.blast_radius_cap ∧
          l' = l.push (action_scope_key action))) := by
  unfold redeem at h
  split at h
  · cases h
  · rename_i hout
    obtain ⟨hm, he, ⟨ha, -⟩ | ⟨-, -, hx⟩⟩ := lease_redeem_eq_ok.1 hout
    · cases h
      exact ⟨hm, he, .inl ⟨ha, rfl⟩⟩
    · cases hx
  · rename_i scope hout
    obtain ⟨hm, he, ⟨-, hx⟩ | ⟨ha, hlt, hx⟩⟩ := lease_redeem_eq_ok.1 hout
    · cases hx
    · cases hx
      cases h
      exact ⟨hm, he, .inr ⟨ha, hlt, rfl⟩⟩

/-- The redemption succeeds exactly where the preview says so. -/
theorem redeem_iff_can_redeem {l : ContingencyLease} {action : ResponseAction} {now_ms : Int} :
    (∃ l', l.redeem action now_ms = .ok l') ↔ l.can_redeem action now_ms = true := by
  constructor
  · rintro ⟨l', h⟩
    obtain ⟨hm, he, ⟨ha, -⟩ | ⟨-, hlt, -⟩⟩ := redeem_cases h
    · exact lease_can_redeem_iff.2 ⟨hm, he, .inl ha⟩
    · exact lease_can_redeem_iff.2 ⟨hm, he, .inr hlt⟩
  · intro h
    obtain ⟨out, hout⟩ := lease_redeem_of_can_redeem h
    unfold redeem
    rw [hout]
    cases out with
    | AlreadyRedeemed => exact ⟨l, rfl⟩
    | Recorded scope => exact ⟨l.push scope, rfl⟩

/-- The scope redeemed is among the lease's scopes afterwards. -/
theorem mem_redeemed_of_redeem {l l' : ContingencyLease} {action : ResponseAction} {now_ms : Int}
    (h : l.redeem action now_ms = .ok l') : action_scope_key action ∈ l'.redeemed_scopes := by
  obtain ⟨-, -, ⟨hmem, rfl⟩ | ⟨-, -, rfl⟩⟩ := redeem_cases h
  · exact hmem
  · simp [push]

/-- Redeemed scopes only grow. -/
theorem redeemed_subset_of_redeem {l l' : ContingencyLease} {action : ResponseAction} {now_ms : Int}
    (h : l.redeem action now_ms = .ok l') : l.redeemed_scopes ⊆ l'.redeemed_scopes := by
  obtain ⟨-, -, ⟨-, rfl⟩ | ⟨-, -, rfl⟩⟩ := redeem_cases h
  · exact fun _ h => h
  · exact fun _ h => List.mem_append_left _ h

/-- A redemption changes the redeemed scopes only. -/
theorem redeem_eq {l l' : ContingencyLease} {action : ResponseAction} {now_ms : Int}
    (h : l.redeem action now_ms = .ok l') : l' = { l with redeemed_scopes := l'.redeemed_scopes } := by
  obtain ⟨-, -, ⟨-, rfl⟩ | ⟨-, -, rfl⟩⟩ := redeem_cases h
  · rfl
  · rfl

/-- Within budget: no scope twice, and no more scopes than the cap. -/
structure InBudget (l : ContingencyLease) : Prop where
  nodup : l.redeemed_scopes.Nodup
  length_le : l.redeemed_scopes.length ≤ l.blast_radius_cap

theorem InBudget.redeem {l l' : ContingencyLease} {action : ResponseAction} {now_ms : Int} (hl : l.InBudget)
    (h : l.redeem action now_ms = .ok l') : l'.InBudget := by
  obtain ⟨-, -, ⟨-, rfl⟩ | ⟨hnot, hlt, rfl⟩⟩ := redeem_cases h
  · exact hl
  · refine ⟨?_, by simpa [push, Nat.succ_le_iff] using hlt⟩
    simp only [push, List.nodup_append, List.nodup_cons, List.not_mem_nil, not_false_eq_true, List.nodup_nil, and_self,
      List.mem_cons, or_false, forall_eq, true_and]
    exact ⟨hl.nodup, fun a ha hax => hnot (hax ▸ ha)⟩

/-! ## What names and verification say -/

/-- The id is the digest of the lease's own terms. -/
def Named (c : Crypto) (l : ContingencyLease) : Prop :=
  l.lease_id = contingency_lease_id c l.action_kind l.scope l.blast_radius_cap l.issued_at_ms l.expires_at_ms

/-- Leases under one id have one budget and one lifetime. -/
theorem Named.same_terms {c : Crypto} (hc : c.CollisionFree) {l k : ContingencyLease} (hl : l.Named c) (hk : k.Named c)
    (h : l.lease_id = k.lease_id) :
    l.blast_radius_cap = k.blast_radius_cap ∧ l.issued_at_ms = k.issued_at_ms ∧ l.expires_at_ms = k.expires_at_ms := by
  rw [hl, hk] at h
  have halike := hc _ _ h
  simp only [Value.Alike, Value.AlikeFields, Int.natCast_inj] at halike
  exact ⟨halike.2.2.2.1, halike.2.2.2.2.2.2.2.1, halike.2.2.2.2.2.1⟩

theorem issued_lt_of_verify {c : Crypto} {l : ContingencyLease} (h : l.verify c = .ok ()) : l.issued_at_ms < l.expires_at_ms := by
  unfold verify at h
  split at h
  · cases h
  rename_i hterms
  unfold validate_lease_terms at hterms
  by_contra hle
  simp only [Int.not_lt.1 hle, if_true] at hterms
  split_ifs at hterms

end ContingencyLease

/-! ## Leases to compute with -/

/-- The request that presents a lease for an action. -/
def presenting (l : ContingencyLease) (action : ResponseAction) : ActionRequest :=
  ⟨"hunt", "pouncer-1", action, .High, .object [("contingency_lease", l.serialize)]⟩

/-- `serde_json::from_value` where only these leases are ever read. -/
def decodeAmong (ls : List ContingencyLease) (v : Value) : Except String ContingencyLease :=
  match ls.find? (·.serialize = v) with
  | some l => .ok l
  | none => .error "missing field"

/-- A lease to end one user session, signed by `key` under `Crypto.plain`. -/
def sessionLease (key : SigningKey) : ContingencyLease :=
  let lease_id := contingency_lease_id .plain "terminate_user_session" none 1 0 1000
  let proposal := build_contingency_lease_proposal .plain lease_id "terminate_user_session" none 1 1000 0 1000
  let payload : ConsensusGovernanceReceiptPayload := {
    schema_version := CONSENSUS_RECEIPT_SCHEMA_VERSION, receipt_id := "receipt", decision := .Approve
    committee_id := "committee", committee_members := [AgentId.from_verifying_key key], threshold := 1
    height := 1, round := 0, previous_commit_hash := "governance-bootstrap"
    commit_hash := commit_hash .plain 1 0 "governance-bootstrap" proposal, proposal_id := proposal.proposal_id
    prevote_tally := 1, precommit_tally := 1, issued_by := AgentId.from_verifying_key key, issued_at_ms := 0 }
  { schema_version := CONTINGENCY_LEASE_SCHEMA_VERSION, lease_id, action_kind := "terminate_user_session"
    scope := none, blast_radius_cap := 1, max_duration_ms := 1000, issued_at_ms := 0, expires_at_ms := 1000
    redeemed_scopes := [], governance_receipt := ⟨payload, detached_signature .plain key payload.serialize⟩ }

end Ambush.Governance

import Ambush.Consensus.Messages
/-!
# Governance receipts

`ConsensusGovernanceReceipt`: what a commit decided, on top of which commit, under the
signature of the governor that issued it.
-/
namespace Ambush.Consensus

inductive GovernanceReceiptDecision where
  | Approve | Veto
  deriving DecidableEq

def GovernanceReceiptDecision.name : GovernanceReceiptDecision → String
  | .Approve => "approve"
  | .Veto => "veto"

structure ConsensusGovernanceReceiptPayload where
  schema_version : Nat
  receipt_id : String
  decision : GovernanceReceiptDecision
  committee_id : String
  committee_members : List AgentId
  threshold : Nat
  height : Nat
  round : Nat
  previous_commit_hash : String
  commit_hash : String
  proposal_id : String
  prevote_tally : Nat
  precommit_tally : Nat
  issued_by : AgentId
  issued_at_ms : Int
  deriving DecidableEq

def ConsensusGovernanceReceiptPayload.serialize (p : ConsensusGovernanceReceiptPayload) : Value :=
  .object [("commit_hash", .string p.commit_hash), ("committee_id", .string p.committee_id),
    ("committee_members", .array (p.committee_members.map .string)), ("decision", .string p.decision.name),
    ("height", .integer p.height), ("issued_at_ms", .integer p.issued_at_ms), ("issued_by", .string p.issued_by),
    ("precommit_tally", .integer p.precommit_tally), ("previous_commit_hash", .string p.previous_commit_hash),
    ("prevote_tally", .integer p.prevote_tally), ("proposal_id", .string p.proposal_id),
    ("receipt_id", .string p.receipt_id), ("round", .integer p.round), ("schema_version", .integer p.schema_version),
    ("threshold", .integer p.threshold)]

structure ConsensusGovernanceReceipt where
  payload : ConsensusGovernanceReceiptPayload
  signature : DetachedSignature
  deriving DecidableEq

namespace ConsensusGovernanceReceipt

/-- The canonical JSON of these values always exists, so issuing cannot fail. -/
def issue (c : Crypto) (commit : ConsensusCommit) (previous_commit_hash : String) (committee : ConsensusCommittee)
    (decision : GovernanceReceiptDecision) (issued_by : AgentId) (signing_key : SigningKey) (issued_at_ms : Int) :
    ConsensusGovernanceReceipt :=
  let payload : ConsensusGovernanceReceiptPayload := {
    schema_version := CONSENSUS_RECEIPT_SCHEMA_VERSION
    receipt_id := c.digest (.object [("commit_hash", .string commit.commit_hash), ("decision", .string decision.name),
      ("height", .integer commit.height), ("issued_at_ms", .integer issued_at_ms), ("issued_by", .string issued_by),
      ("round", .integer commit.round)])
    decision
    committee_id := committee.committee_id
    committee_members := committee.members
    threshold := committee.threshold
    height := commit.height
    round := commit.round
    previous_commit_hash
    commit_hash := commit.commit_hash
    proposal_id := commit.proposal.proposal_id
    prevote_tally := commit.prevote_tally
    precommit_tally := commit.precommit_tally
    issued_by, issued_at_ms }
  ⟨payload, detached_signature c signing_key payload.serialize⟩

/-- Any key verifies whose identity is the one the payload names. -/
def verify (c : Crypto) (r : ConsensusGovernanceReceipt) : Except ConsensusError VerifyingKey :=
  match verify_detached_signature c r.payload.serialize r.signature with
  | .error text => .error (.Crypto text)
  | .ok () =>
    match c.verifying_key_from_hex r.signature.public_key_hex with
    | .error text => .error (.InvalidMessage text)
    | .ok verifying_key =>
      let derived_id := AgentId.from_verifying_key verifying_key
      if derived_id ≠ r.payload.issued_by then
        .error (.InvalidMessage ("receipt signer mismatch: payload issued_by `" ++ r.payload.issued_by ++
          "` but signature key derives `" ++ derived_id ++ "`"))
      else .ok verifying_key

end ConsensusGovernanceReceipt
end Ambush.Consensus

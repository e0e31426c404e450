import Ambush.Consensus.Committee
/-!
# Messages, envelopes and what a call returns

The data a node exchanges, with the JSON each signed or hashed structure has.
-/
namespace Ambush.Consensus

inductive ConsensusStep where
  | Propose | Prevote | Precommit | Commit
  deriving DecidableEq

structure ConsensusProposal where
  proposal_id : String
  payload : Value
  deriving DecidableEq

def ConsensusProposal.serialize (p : ConsensusProposal) : Value :=
  .object [("payload", p.payload), ("proposal_id", .string p.proposal_id)]

inductive SignedMessageKind where
  | Proposal | Prevote | Precommit
  deriving DecidableEq

def SignedMessageKind.name : SignedMessageKind → String
  | .Proposal => "proposal"
  | .Prevote => "prevote"
  | .Precommit => "precommit"

inductive ConsensusMessageBody where
  | Proposal (proposal : ConsensusProposal)
  | Prevote (proposal_id : Option String)
  | Precommit (proposal_id : Option String)
  deriving DecidableEq

def ConsensusMessageBody.kind : ConsensusMessageBody → SignedMessageKind
  | .Proposal _ => .Proposal
  | .Prevote _ => .Prevote
  | .Precommit _ => .Precommit

structure ConsensusMessage where
  height : Nat
  round : Nat
  previous_commit_hash : String
  sender : AgentId -- the source's `from`
  sent_at_ms : Int
  body : ConsensusMessageBody
  deriving DecidableEq

/-- The body is flattened into the message, tagged by `kind`. -/
def ConsensusMessage.serialize (m : ConsensusMessage) : Value :=
  let common := [("from", Value.string m.sender), ("height", .integer m.height),
    ("kind", .string m.body.kind.name), ("previous_commit_hash", .string m.previous_commit_hash)]
  let tail := [("round", Value.integer m.round), ("sent_at_ms", .integer m.sent_at_ms)]
  match m.body with
  | .Proposal proposal => .object (common ++ [("proposal", proposal.serialize)] ++ tail)
  | .Prevote proposal_id | .Precommit proposal_id =>
    .object (common ++ [("proposal_id", .optional proposal_id)] ++ tail)

structure ConsensusEnvelope where
  subject : String
  message : ConsensusMessage

/-- Messages first: most envelopes of a round share their subject. -/
instance : DecidableEq ConsensusEnvelope := fun a b =>
  decidable_of_iff (a.message = b.message ∧ a.subject = b.subject) (by cases a; cases b; simp [and_comm])

def ConsensusEnvelope.serialize (e : ConsensusEnvelope) : Value :=
  .object [("message", e.message.serialize), ("subject", .string e.subject)]

structure ConsensusSignedEnvelope where
  envelope : ConsensusEnvelope
  signature : DetachedSignature
  deriving DecidableEq

namespace ConsensusSignedEnvelope

def sign (c : Crypto) (envelope : ConsensusEnvelope) (signing_key : SigningKey) : ConsensusSignedEnvelope :=
  ⟨envelope, detached_signature c signing_key envelope.serialize⟩

/-- The signature is valid and its key is the declared sender's. -/
def verify (c : Crypto) (e : ConsensusSignedEnvelope) : Except ConsensusError VerifyingKey :=
  match verify_detached_signature c e.envelope.serialize e.signature with
  | .error text => .error (.Crypto text)
  | .ok () =>
    match c.verifying_key_from_hex e.signature.public_key_hex with
    | .error text => .error (.InvalidMessage text)
    | .ok verifying_key =>
      let derived_id := AgentId.from_verifying_key verifying_key
      if derived_id ≠ e.envelope.message.sender then
        .error (.InvalidMessage ("signer identity mismatch: message declared `" ++ e.envelope.message.sender ++
          "` but signature key derives `" ++ derived_id ++ "`"))
      else .ok verifying_key

/-- `verify().is_ok()`: the signature verifies as the declared sender. -/
def verifies (c : Crypto) (e : ConsensusSignedEnvelope) : Bool := (e.verify c).isOk

def message_hash (c : Crypto) (e : ConsensusSignedEnvelope) : String :=
  c.digest (.object [("envelope", e.envelope.serialize), ("signature", e.signature.serialize)])

end ConsensusSignedEnvelope

structure ConsensusCommit where
  height : Nat
  round : Nat
  committee_id : String
  proposal : ConsensusProposal
  prevote_tally : Nat
  precommit_tally : Nat
  commit_hash : String
  deriving DecidableEq

/-- The hash `commit` gives a proposal committed at a height and round on top of a commit. -/
def commit_hash (c : Crypto) (height round : Nat) (previous_commit_hash : String) (p : ConsensusProposal) : String :=
  c.digest (.object [("height", .integer height), ("payload", p.payload),
    ("previous_commit_hash", .string previous_commit_hash), ("proposal_id", .string p.proposal_id),
    ("round", .integer round)])

inductive ConsensusExclusionReason where
  | InvalidSignature | Equivocation
  deriving DecidableEq

def ConsensusExclusionReason.name : ConsensusExclusionReason → String
  | .InvalidSignature => "invalid_signature"
  | .Equivocation => "equivocation"

def CONSENSUS_RECEIPT_SCHEMA_VERSION : Nat := 1

structure ConsensusExclusionReceiptPayload where
  schema_version : Nat
  receipt_id : String
  committee_id : String
  height : Nat
  round : Nat
  excluded_agent_id : AgentId
  message_kind : SignedMessageKind
  reason : ConsensusExclusionReason
  evidence_hashes : List String
  issued_by : AgentId
  issued_at_ms : Int
  deriving DecidableEq

def ConsensusExclusionReceiptPayload.serialize (p : ConsensusExclusionReceiptPayload) : Value :=
  .object [("committee_id", .string p.committee_id),
    ("evidence_hashes", .array (p.evidence_hashes.map .string)),
    ("excluded_agent_id", .string p.excluded_agent_id), ("height", .integer p.height),
    ("issued_at_ms", .integer p.issued_at_ms), ("issued_by", .string p.issued_by),
    ("message_kind", .string p.message_kind.name), ("reason", .string p.reason.name),
    ("receipt_id", .string p.receipt_id), ("round", .integer p.round),
    ("schema_version", .integer p.schema_version)]

structure ConsensusExclusionReceipt where
  payload : ConsensusExclusionReceiptPayload
  signature : DetachedSignature
  deriving DecidableEq

/-- `JetStreamSubjectLayout`; its one field is the subject's leading part. -/
structure JetStreamSubjectLayout where
  leading : String := "swarm.consensus"
  deriving DecidableEq

def JetStreamSubjectLayout.round_subject (l : JetStreamSubjectLayout) (k : ConsensusCommittee) (height round : Nat) :
    String :=
  l.leading ++ "." ++ k.committee_id ++ ".height." ++ toString height ++ ".round." ++ toString round

structure ConsensusConfig where
  round_timeout_ms : Int := 1000
  subject_layout : JetStreamSubjectLayout := {}
  deriving DecidableEq

structure ConsensusProgress where
  outbound : List ConsensusEnvelope := []
  commits : List ConsensusCommit := []
  exclusions : List ConsensusExclusionReceipt := []
  round_advanced : Bool := false
  deriving DecidableEq

namespace ConsensusProgress

def extend (p other : ConsensusProgress) : ConsensusProgress where
  outbound := p.outbound ++ other.outbound
  commits := p.commits ++ other.commits
  exclusions := p.exclusions ++ other.exclusions
  round_advanced := p.round_advanced || other.round_advanced

def push_outbound (p : ConsensusProgress) (envelope : ConsensusEnvelope) : ConsensusProgress :=
  { p with outbound := p.outbound ++ [envelope] }

end ConsensusProgress

structure SignedMessageKey where
  height : Nat
  round : Nat
  sender : AgentId
  kind : SignedMessageKind
  deriving DecidableEq

def SignedMessageKey.from_message (m : ConsensusMessage) : SignedMessageKey :=
  ⟨m.height, m.round, m.sender, m.body.kind⟩

end Ambush.Consensus

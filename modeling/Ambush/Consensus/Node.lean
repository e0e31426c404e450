import Ambush.Consensus.Ledger
/-!
# The consensus node

`ConsensusNode` as explicit state passing. A call returns the state it leaves and its
result, because an early `?` in the source keeps what was already changed. The only
panic is in `tick`: the workspace builds with `overflow-checks = true`, so an
overflowing subtraction or increment aborts the process and the call has no result.
-/
open Lib

namespace Ambush.Consensus

/-- `new` refuses a local agent outside the committee and a timeout that is not positive. -/
structure ConsensusNode where
  local_agent_id : AgentId
  local_signing_key : Option SigningKey
  committee : ConsensusCommittee
  config : ConsensusConfig
  height : Nat
  round : Nat
  step : ConsensusStep
  previous_commit_hash : String
  round_started_at_ms : Int
  proposals : Map Nat ConsensusProposal
  prevotes : Map Nat VoteLedger
  precommits : Map Nat VoteLedger
  emitted_prevotes : Finset Nat
  emitted_precommits : Finset Nat
  pending_local_proposal : Option ConsensusProposal
  seen_signed_messages : Map SignedMessageKey ConsensusSignedEnvelope
  excluded_members : Map (Nat × Nat) (Finset AgentId)
  is_member : local_agent_id ∈ committee.members
  timeout_pos : 0 < config.round_timeout_ms

/-- The state a call leaves, and what it returns. -/
abbrev Outcome := ConsensusNode × Except ConsensusError ConsensusProgress

/-- `progress.extend(call?)`: an error passes through, with the state the call left. -/
def ConsensusProgress.then (progress : ConsensusProgress) (call : Outcome) : Outcome :=
  (call.1, call.2.map progress.extend)

namespace ConsensusNode

def new_internal (local_agent_id : AgentId) (local_signing_key : Option SigningKey) (committee : ConsensusCommittee)
    (config : ConsensusConfig) (previous_commit_hash : String) (started_at_ms : Int) :
    Except ConsensusError ConsensusNode :=
  if hm : local_agent_id ∈ committee.members then
    if ht : 0 < config.round_timeout_ms then
      .ok {
        local_agent_id, local_signing_key, committee, config
        height := 1
        round := 0
        step := .Propose
        previous_commit_hash
        round_started_at_ms := started_at_ms
        proposals := .empty
        prevotes := .empty
        precommits := .empty
        emitted_prevotes := ∅
        emitted_precommits := ∅
        pending_local_proposal := none
        seen_signed_messages := .empty
        excluded_members := .empty
        is_member := hm
        timeout_pos := ht }
    else .error (.InvalidCommittee "round timeout must be greater than zero")
  else .error (.InvalidCommittee ("local node `" ++ local_agent_id ++ "` is not in the committee"))

def new_with_signing_key (local_agent_id : AgentId) (signing_key : SigningKey) (committee : ConsensusCommittee)
    (config : ConsensusConfig) (previous_commit_hash : String) (started_at_ms : Int) :
    Except ConsensusError ConsensusNode :=
  new_internal local_agent_id (some signing_key) committee config previous_commit_hash started_at_ms

def proposer_for_current_round (c : Crypto) (n : ConsensusNode) : Except ConsensusError AgentId :=
  n.committee.proposer_for c n.previous_commit_hash n.round

def sign_outbound (c : Crypto) (n : ConsensusNode) (envelope : ConsensusEnvelope) :
    Except ConsensusError ConsensusSignedEnvelope :=
  match n.local_signing_key with
  | none => .error (.SigningUnavailable n.local_agent_id)
  | some signing_key => .ok (.sign c envelope signing_key)

def build_envelope (n : ConsensusNode) (round : Nat) (body : ConsensusMessageBody) (now_ms : Int) :
    ConsensusEnvelope where
  subject := n.config.subject_layout.round_subject n.committee n.height round
  message := {
    height := n.height
    round
    previous_commit_hash := n.previous_commit_hash
    sender := n.local_agent_id
    sent_at_ms := now_ms
    body }

/-- `map.entry(round).or_default()`. -/
def ledger (m : Map Nat VoteLedger) (round : Nat) : VoteLedger := (m round).getD {}

/-! ## Committing -/

/-- `ledgers.get(&round).map(|ledger| ledger.count(..)).unwrap_or_default()`. -/
def tally (m : Map Nat VoteLedger) (round : Nat) (proposal_id : String) : Nat :=
  match m round with
  | some ledger => ledger.count (some proposal_id)
  | none => 0

/-- The state `commit` leaves: the next height, on top of the new hash, with the round data cleared. -/
def after_commit (c : Crypto) (n : ConsensusNode) (round : Nat) (proposal : ConsensusProposal) (now_ms : Int) :
    ConsensusNode :=
  { n with
    pending_local_proposal :=
      if n.pending_local_proposal.map (·.proposal_id) = some proposal.proposal_id then none
      else n.pending_local_proposal
    height := satAdd n.height 1
    round := 0
    step := .Propose
    previous_commit_hash := commit_hash c n.height round n.previous_commit_hash proposal
    round_started_at_ms := now_ms
    proposals := .empty
    prevotes := .empty
    precommits := .empty
    emitted_prevotes := ∅
    emitted_precommits := ∅ }

def commit (c : Crypto) (n : ConsensusNode) (round : Nat) (proposal_id : Option String) (now_ms : Int) : Outcome :=
  match proposal_id with
  | none => (n, .ok {})
  | some proposal_id =>
    match n.proposals round with
    | none => (n, .ok {})
    | some proposal =>
      if proposal.proposal_id ≠ proposal_id then (n, .ok {})
      else
        let prevote_tally := tally n.prevotes round proposal_id
        let precommit_tally := tally n.precommits round proposal_id
        if prevote_tally < n.committee.threshold ∨ precommit_tally < n.committee.threshold then (n, .ok {})
        else
          (n.after_commit c round proposal now_ms, .ok { commits := [{
            height := n.height
            round
            committee_id := n.committee.committee_id
            proposal
            prevote_tally, precommit_tally
            commit_hash := commit_hash c n.height round n.previous_commit_hash proposal }] })

/-! ## Casting the node's own votes -/

def emit_precommit (c : Crypto) (n : ConsensusNode) (round : Nat) (proposal_id : Option String) (now_ms : Int) :
    Outcome :=
  if round ∈ n.emitted_precommits then (n, .ok {})
  else
    let n := { n with emitted_precommits := insert round n.emitted_precommits, step := .Precommit }
    let recorded := (ledger n.precommits round).record_vote n.local_agent_id proposal_id
    let n := { n with precommits := n.precommits.insert round recorded.1 }
    match recorded.2 with
    | .error e => (n, .error e)
    | .ok count =>
      let progress := ({} : ConsensusProgress).push_outbound (n.build_envelope round (.Precommit proposal_id) now_ms)
      if n.committee.threshold ≤ count then progress.then (n.commit c round proposal_id now_ms)
      else (n, .ok progress)

def emit_prevote (c : Crypto) (n : ConsensusNode) (round : Nat) (proposal_id : Option String) (now_ms : Int) :
    Outcome :=
  if round ∈ n.emitted_prevotes then (n, .ok {})
  else
    let n := { n with emitted_prevotes := insert round n.emitted_prevotes, step := .Prevote }
    let recorded := (ledger n.prevotes round).record_vote n.local_agent_id proposal_id
    let n := { n with prevotes := n.prevotes.insert round recorded.1 }
    match recorded.2 with
    | .error e => (n, .error e)
    | .ok count =>
      let progress := ({} : ConsensusProgress).push_outbound (n.build_envelope round (.Prevote proposal_id) now_ms)
      if n.committee.threshold ≤ count ∧ round ∉ n.emitted_precommits then
        progress.then (n.emit_precommit c round proposal_id now_ms)
      else (n, .ok progress)

/-! ## Proposals -/

def record_proposal (c : Crypto) (n : ConsensusNode) (sender : AgentId) (round : Nat) (proposal : ConsensusProposal) :
    ConsensusNode × Except ConsensusError Unit :=
  match n.committee.proposer_for c n.previous_commit_hash round with
  | .error e => (n, .error e)
  | .ok expected =>
    if sender ≠ expected then
      (n, .error (.InvalidMessage ("proposal for round " ++ toString round ++ " came from `" ++ sender ++
        "` but proposer is `" ++ expected ++ "`")))
    else
      match n.proposals round with
      | some existing =>
        if existing = proposal then (n, .ok ())
        else (n, .error (.InvalidMessage ("round " ++ toString round ++ " already recorded proposal `" ++
          existing.proposal_id ++ "`")))
      | none => ({ n with proposals := n.proposals.insert round proposal }, .ok ())

def observe_local_proposal (c : Crypto) (n : ConsensusNode) (round : Nat) (proposal : ConsensusProposal)
    (now_ms : Int) : Outcome :=
  match n.record_proposal c n.local_agent_id round proposal with
  | (n, .error e) => (n, .error e)
  | (n, .ok ()) =>
    let progress := ({} : ConsensusProgress).push_outbound (n.build_envelope round (.Proposal proposal) now_ms)
    progress.then (n.emit_prevote c round (some proposal.proposal_id) now_ms)

def emit_proposal_if_leader (c : Crypto) (n : ConsensusNode) (now_ms : Int) : Outcome :=
  match n.proposer_for_current_round c with
  | .error e => (n, .error e)
  | .ok proposer =>
    if proposer ≠ n.local_agent_id then (n, .ok {})
    else if (n.proposals n.round).isSome then (n, .ok {})
    else
      match n.pending_local_proposal with
      | none => (n, .ok {})
      | some proposal => n.observe_local_proposal c n.round proposal now_ms

def observe_proposal (c : Crypto) (n : ConsensusNode) (sender : AgentId) (round : Nat) (proposal : ConsensusProposal)
    (now_ms : Int) : Outcome :=
  match n.record_proposal c sender round proposal with
  | (n, .error e) => (n, .error e)
  | (n, .ok ()) =>
    if round ∈ n.emitted_prevotes then (n, .ok {})
    else n.emit_prevote c round (some proposal.proposal_id) now_ms

/-! ## Votes of others -/

def observe_prevote (c : Crypto) (n : ConsensusNode) (sender : AgentId) (round : Nat) (proposal_id : Option String)
    (now_ms : Int) : Outcome :=
  let recorded := (ledger n.prevotes round).record_vote sender proposal_id
  let n := { n with prevotes := n.prevotes.insert round recorded.1 }
  match recorded.2 with
  | .error e => (n, .error e)
  | .ok count =>
    if n.committee.threshold ≤ count ∧ round ∉ n.emitted_precommits then
      n.emit_precommit c round proposal_id now_ms
    else (n, .ok {})

def observe_precommit (c : Crypto) (n : ConsensusNode) (sender : AgentId) (round : Nat) (proposal_id : Option String)
    (now_ms : Int) : Outcome :=
  let recorded := (ledger n.precommits round).record_vote sender proposal_id
  let n := { n with precommits := n.precommits.insert round recorded.1 }
  match recorded.2 with
  | .error e => (n, .error e)
  | .ok count =>
    if n.committee.threshold ≤ count then n.commit c round proposal_id now_ms
    else (n, .ok {})

/-! ## Rounds -/

def advance_round (c : Crypto) (n : ConsensusNode) (target_round : Nat) (now_ms : Int) : Outcome :=
  if target_round ≤ n.round then (n, .ok {})
  else
    let n := { n with round := target_round, step := .Propose, round_started_at_ms := now_ms }
    ConsensusProgress.then { round_advanced := true } (n.emit_proposal_if_leader c now_ms)

def queue_proposal (c : Crypto) (n : ConsensusNode) (proposal : ConsensusProposal) (now_ms : Int) : Outcome :=
  { n with pending_local_proposal := some proposal }.emit_proposal_if_leader c now_ms

/-- `none` is the abort of an overflow check. -/
def tick (c : Crypto) (n : ConsensusNode) (now_ms : Int) : Option Outcome :=
  match checkedSubI now_ms n.round_started_at_ms with
  | none => none
  | some elapsed =>
    if elapsed < n.config.round_timeout_ms then some (n, .ok {})
    else
      match checkedAdd n.round 1 with
      | none => none
      | some target_round => some (n.advance_round c target_round now_ms)

/-! ## Receiving -/

/-- The body of a message accepted for the node's height, in round `message.round`. -/
def observe_body (c : Crypto) (n : ConsensusNode) (message : ConsensusMessage) (now_ms : Int) : Outcome :=
  match message.body with
  | .Proposal proposal => n.observe_proposal c message.sender message.round proposal now_ms
  | .Prevote proposal_id => n.observe_prevote c message.sender message.round proposal_id now_ms
  | .Precommit proposal_id => n.observe_precommit c message.sender message.round proposal_id now_ms

/-- What a later-round message makes the node emit while it catches up is dropped
(`let _ = self.advance_round(..)?`). -/
def observe_message (c : Crypto) (n : ConsensusNode) (message : ConsensusMessage) (now_ms : Int) : Outcome :=
  if !n.committee.contains message.sender then
    (n, .error (.InvalidMessage ("message sender `" ++ message.sender ++ "` is not a committee member")))
  else if message.height < n.height then (n, .ok {})
  else if n.height < message.height then
    (n, .error (.InvalidMessage ("message height " ++ toString message.height ++ " is ahead of local height " ++
      toString n.height)))
  else if message.previous_commit_hash ≠ n.previous_commit_hash then (n, .ok {})
  else if message.round < n.round then (n, .ok {})
  else if n.round < message.round then
    match n.advance_round c message.round now_ms with
    | (n, .error e) => (n, .error e)
    | (n, .ok _) => n.observe_body c message now_ms
  else n.observe_body c message now_ms

def handle_envelope (c : Crypto) (n : ConsensusNode) (envelope : ConsensusEnvelope) (now_ms : Int) : Outcome :=
  let expected_subject :=
    n.config.subject_layout.round_subject n.committee envelope.message.height envelope.message.round
  if envelope.subject ≠ expected_subject then
    (n, .error (.InvalidMessage ("message subject `" ++ envelope.subject ++
      "` did not match expected round subject `" ++ expected_subject ++ "`")))
  else n.observe_message c envelope.message now_ms

/-! ## Excluding -/

def is_excluded (n : ConsensusNode) (height round : Nat) (agent_id : AgentId) : Bool :=
  decide (agent_id ∈ (n.excluded_members (height, round)).getD ∅)

/-- `if let Some(ledger) = ledgers.get_mut(&round) { ledger.remove_voter(agent_id) }`. -/
def drop_votes (m : Map Nat VoteLedger) (round : Nat) (agent_id : AgentId) : Map Nat VoteLedger :=
  match m round with
  | none => m
  | some ledger => m.insert round (ledger.remove_voter agent_id)

/-- The round is taken in the node's current height, whatever height the offence was for. -/
def drop_sender_round_contributions (c : Crypto) (n : ConsensusNode) (round : Nat) (agent_id : AgentId) :
    ConsensusNode :=
  { n with
    proposals :=
      if n.committee.proposer_for c n.previous_commit_hash round = .ok agent_id then n.proposals.remove round
      else n.proposals
    prevotes := drop_votes n.prevotes round agent_id
    precommits := drop_votes n.precommits round agent_id
    seen_signed_messages := n.seen_signed_messages.retain (fun key =>
      !(key.height == n.height && key.round == round && key.sender == agent_id)) }

def issue_exclusion_receipt (c : Crypto) (n : ConsensusNode) (height round : Nat) (message_kind : SignedMessageKind)
    (excluded_agent_id : AgentId) (reason : ConsensusExclusionReason) (evidence_hashes : List String)
    (signing_key : SigningKey) (issued_at_ms : Int) : ConsensusExclusionReceipt :=
  let payload : ConsensusExclusionReceiptPayload := {
    schema_version := CONSENSUS_RECEIPT_SCHEMA_VERSION
    receipt_id := c.digest (.object [("evidence_hashes", .array (evidence_hashes.map .string)),
      ("excluded_agent_id", .string excluded_agent_id), ("height", .integer height),
      ("issued_at_ms", .integer issued_at_ms), ("issued_by", .string n.local_agent_id),
      ("reason", .string reason.name), ("round", .integer round)])
    committee_id := n.committee.committee_id
    height, round, excluded_agent_id, message_kind, reason, evidence_hashes
    issued_by := n.local_agent_id
    issued_at_ms }
  ⟨payload, detached_signature c signing_key payload.serialize⟩

def exclude_sender (c : Crypto) (n : ConsensusNode) (height round : Nat) (message_kind : SignedMessageKind)
    (agent_id : AgentId) (reason : ConsensusExclusionReason) (evidence_hashes : List String) (now_ms : Int) : Outcome :=
  let members := insert agent_id ((n.excluded_members (height, round)).getD ∅)
  let n := { n with excluded_members := n.excluded_members.insert (height, round) members }
  let n := n.drop_sender_round_contributions c round agent_id
  match n.local_signing_key with
  | none => (n, .ok {})
  | some signing_key =>
    (n, .ok { exclusions := [n.issue_exclusion_receipt c height round message_kind agent_id reason evidence_hashes
      signing_key now_ms] })

/-- An envelope that differs from the one seen under its key counts as equivocation
before its signature is looked at. -/
def handle_signed_envelope (c : Crypto) (n : ConsensusNode) (envelope : ConsensusSignedEnvelope) (now_ms : Int) :
    Outcome :=
  let key := SignedMessageKey.from_message envelope.envelope.message
  if n.is_excluded key.height key.round key.sender then (n, .ok {})
  else
    match n.seen_signed_messages key with
    | some previous =>
      if previous = envelope then (n, .ok {})
      else
        n.exclude_sender c key.height key.round key.kind key.sender .Equivocation
          [previous.message_hash c, envelope.message_hash c] now_ms
    | none =>
      if !envelope.verifies c then
        n.exclude_sender c key.height key.round key.kind key.sender .InvalidSignature
          [envelope.message_hash c] now_ms
      else
        { n with seen_signed_messages := n.seen_signed_messages.insert key envelope }.handle_envelope c
          envelope.envelope now_ms

/-- The calls that drive a node. -/
inductive Input where
  | queue (proposal : ConsensusProposal) (now_ms : Int)
  | tick (now_ms : Int)
  | deliver (envelope : ConsensusSignedEnvelope) (now_ms : Int)
  deriving DecidableEq

def call (c : Crypto) (n : ConsensusNode) : Input → Option Outcome
  | .queue proposal now_ms => some (n.queue_proposal c proposal now_ms)
  | .tick now_ms => n.tick c now_ms
  | .deliver envelope now_ms => some (n.handle_signed_envelope c envelope now_ms)

end ConsensusNode
end Ambush.Consensus

import Ambush.Lib.Runs
import Ambush.Consensus.Node
/-!
# What a node does, one effect at a time

Every call of a node is a run of elementary effects (`Does`): it stores a proposal,
casts or hears a vote, commits, enters a round, excludes a member. The theorems about
whole executions look at effects and not at the code again.
-/
open Lib

namespace Ambush.Consensus

inductive VoteKind where
  | prevote | precommit
  deriving DecidableEq

def VoteKind.body : VoteKind → Option String → ConsensusMessageBody
  | .prevote => .Prevote
  | .precommit => .Precommit

theorem VoteKind.body_inj {k k' : VoteKind} {v v' : Option String} (h : k.body v = k'.body v') : k = k' ∧ v = v' := by
  cases k <;> cases k' <;> simp_all [VoteKind.body]

/-- The label of an effect. A commit carries the hash it was built on. -/
inductive Effect where
  | pend
  | enter (round : Nat)
  | store (round : Nat) (sender : AgentId) (proposal : ConsensusProposal)
  | send (envelope : ConsensusEnvelope)
  | spoil (kind : VoteKind) (round : Nat)
  | hear (kind : VoteKind) (round : Nat) (sender : AgentId) (value : Option String)
  | commit (previous_commit_hash : String) (commit : ConsensusCommit)
  | exclude (height round : Nat) (agent : AgentId)
  | see (envelope : ConsensusSignedEnvelope)

namespace ConsensusNode

def votes (n : ConsensusNode) : VoteKind → Map Nat VoteLedger
  | .prevote => n.prevotes
  | .precommit => n.precommits

def emitted (n : ConsensusNode) : VoteKind → Finset Nat
  | .prevote => n.emitted_prevotes
  | .precommit => n.emitted_precommits

/-- The votes of one kind and round replaced by `l`. -/
def setVotes (n : ConsensusNode) : VoteKind → Nat → VoteLedger → ConsensusNode
  | .prevote, r, l => { n with prevotes := n.prevotes.insert r l }
  | .precommit, r, l => { n with precommits := n.precommits.insert r l }

/-- The round marked as voted in. -/
def mark (n : ConsensusNode) : VoteKind → Nat → ConsensusNode
  | .prevote, r => { n with emitted_prevotes := insert r n.emitted_prevotes, step := .Prevote }
  | .precommit, r => { n with emitted_precommits := insert r n.emitted_precommits, step := .Precommit }

/-- The vote of `a` recorded in the ledger of one kind and round. -/
def hears (n : ConsensusNode) (k : VoteKind) (r : Nat) (a : AgentId) (v : Option String) : ConsensusNode :=
  n.setVotes k r ((ledger (n.votes k) r).record_vote a v).1

/-- The state `exclude_sender` leaves. -/
def excluding (c : Crypto) (n : ConsensusNode) (height round : Nat) (a : AgentId) : ConsensusNode :=
  let members := insert a ((n.excluded_members (height, round)).getD ∅)
  { n with excluded_members := n.excluded_members.insert (height, round) members }.drop_sender_round_contributions
    c round a

/-- The envelope kept under its key. -/
def seeing (n : ConsensusNode) (e : ConsensusSignedEnvelope) : ConsensusNode :=
  { n with seen_signed_messages := n.seen_signed_messages.insert (.from_message e.envelope.message) e }

/-- The choice of `a` recorded for a kind and round. -/
def choice (n : ConsensusNode) (k : VoteKind) (r : Nat) (a : AgentId) : Option (Option String) :=
  (ledger (n.votes k) r).by_agent a

/-! ## Votes after each operation -/

theorem ledger_insert (m : Map Nat VoteLedger) (r r' : Nat) (l : VoteLedger) :
    ledger (m.insert r l) r' = if r' = r then l else ledger m r' := by
  unfold ledger
  rw [Map.insert_apply]
  split <;> rfl

theorem ledger_drop_votes (m : Map Nat VoteLedger) (r r' : Nat) (a : AgentId) :
    ledger (drop_votes m r a) r' = if r' = r then (ledger m r).remove_voter a else ledger m r' := by
  unfold drop_votes
  split
  · rename_i hnone
    split
    · rename_i heq
      subst heq
      unfold ledger
      rw [hnone]; rfl
    · rfl
  · rename_i l hl
    rw [ledger_insert]
    split
    · unfold ledger; rw [hl]; rfl
    · rfl

theorem tally_eq (m : Map Nat VoteLedger) (r : Nat) (id : String) :
    tally m r id = ((ledger m r).voters (some id)).card := by
  unfold tally ledger
  cases m r with
  | none => rfl
  | some l => exact l.count_eq _

theorem ledger_hears (n : ConsensusNode) (k k' : VoteKind) (r r' : Nat) (a : AgentId) (v : Option String) :
    ledger ((n.hears k r a v).votes k') r' =
      if k' = k ∧ r' = r then ((ledger (n.votes k) r).record_vote a v).1 else ledger (n.votes k') r' := by
  cases k <;> cases k' <;> simp [hears, setVotes, votes, ledger_insert]

@[simp] theorem votes_mark (n : ConsensusNode) (k k' : VoteKind) (r : Nat) : (n.mark k r).votes k' = n.votes k' := by
  cases k <;> rfl

theorem emitted_mark (n : ConsensusNode) (k k' : VoteKind) (r : Nat) :
    (n.mark k r).emitted k' = if k' = k then insert r (n.emitted k) else n.emitted k' := by
  cases k <;> cases k' <;> rfl

@[simp] theorem emitted_hears (n : ConsensusNode) (k k' : VoteKind) (r : Nat) (a : AgentId) (v : Option String) :
    (n.hears k r a v).emitted k' = n.emitted k' := by
  cases k <;> cases k' <;> rfl

/-- The first vote of an agent stands; every other choice is as before. -/
theorem choice_hears (n : ConsensusNode) (k k' : VoteKind) (r r' : Nat) (a a' : AgentId) (v : Option String) :
    (n.hears k r a v).choice k' r' a' =
      if k' = k ∧ r' = r ∧ a' = a ∧ n.choice k r a = none then some v else n.choice k' r' a' := by
  unfold choice
  rw [ledger_hears]
  by_cases h : k' = k ∧ r' = r
  · obtain ⟨rfl, rfl⟩ := h
    simp [VoteLedger.record_vote_by_agent]
  · rw [if_neg h, if_neg (fun h' => h ⟨h'.1, h'.2.1⟩)]

@[simp] theorem choice_mark (n : ConsensusNode) (k k' : VoteKind) (r r' : Nat) (a : AgentId) :
    (n.mark k r).choice k' r' a = n.choice k' r' a := by
  unfold choice; rw [votes_mark]

theorem ledger_excluding (c : Crypto) (n : ConsensusNode) (h r r' : Nat) (a : AgentId) (k : VoteKind) :
    ledger ((n.excluding c h r a).votes k) r' =
      if r' = r then (ledger (n.votes k) r).remove_voter a else ledger (n.votes k) r' := by
  cases k <;> exact ledger_drop_votes _ _ _ _

theorem choice_excluding (c : Crypto) (n : ConsensusNode) (h r r' : Nat) (a a' : AgentId) (k : VoteKind) :
    (n.excluding c h r a).choice k r' a' = if r' = r ∧ a' = a then none else n.choice k r' a' := by
  unfold choice
  rw [ledger_excluding]
  by_cases hr : r' = r
  · subst hr
    rw [if_pos rfl, VoteLedger.remove_voter_by_agent]
    simp
  · rw [if_neg hr, if_neg (fun h' => hr h'.1)]

@[simp] theorem choice_after_commit (c : Crypto) (n : ConsensusNode) (r r' : Nat) (p : ConsensusProposal) (t : Int)
    (k : VoteKind) (a : AgentId) : (n.after_commit c r p t).choice k r' a = none := by
  cases k <;> rfl

end ConsensusNode

open ConsensusNode

/-- One effect, with everything the code has checked before it. -/
inductive Does (c : Crypto) : ConsensusNode → Effect → ConsensusNode → Prop
  | pend {n : ConsensusNode} (p : ConsensusProposal) : Does c n .pend { n with pending_local_proposal := some p }
  | enter {n : ConsensusNode} {r : Nat} (t : Int) (hr : n.round < r) :
      Does c n (.enter r) { n with round := r, step := .Propose, round_started_at_ms := t }
  | propose {n : ConsensusNode} {r : Nat} {p : ConsensusProposal} (t : Int) (hr : n.round ≤ r)
      (hp : n.committee.proposer_for c n.previous_commit_hash r = .ok n.local_agent_id) (hn : n.proposals r = none)
      (hq : n.pending_local_proposal = some p) :
      Does c n (.send (n.build_envelope r (.Proposal p) t)) { n with proposals := n.proposals.insert r p }
  | store {n : ConsensusNode} {r : Nat} {a : AgentId} {p : ConsensusProposal} (hr : n.round ≤ r)
      (hp : n.committee.proposer_for c n.previous_commit_hash r = .ok a) (hn : n.proposals r = none) :
      Does c n (.store r a p) { n with proposals := n.proposals.insert r p }
  | cast {n : ConsensusNode} {k : VoteKind} {r : Nat} {v : Option String} (t : Int) (hr : n.round ≤ r)
      (hn : r ∉ n.emitted k) (hv : ∀ w, n.choice k r n.local_agent_id = some w → w = v) :
      Does c n (.send (n.build_envelope r (k.body v) t)) ((n.mark k r).hears k r n.local_agent_id v)
  | spoil {n : ConsensusNode} {k : VoteKind} {r : Nat} {v : Option String} (hr : n.round ≤ r)
      (hn : r ∉ n.emitted k) (hv : ∃ w, n.choice k r n.local_agent_id = some w ∧ w ≠ v) :
      Does c n (.spoil k r) ((n.mark k r).hears k r n.local_agent_id v)
  | hear {n : ConsensusNode} {k : VoteKind} {r : Nat} {a : AgentId} {v : Option String} (hr : n.round ≤ r)
      (ha : a ∈ n.committee.members) : Does c n (.hear k r a v) (n.hears k r a v)
  | commit {n : ConsensusNode} {r : Nat} {p : ConsensusProposal} (t : Int) (hr : n.round ≤ r)
      (hp : n.proposals r = some p) (hv : n.committee.threshold ≤ tally n.prevotes r p.proposal_id)
      (hc : n.committee.threshold ≤ tally n.precommits r p.proposal_id) :
      Does c n (.commit n.previous_commit_hash {
        height := n.height, round := r, committee_id := n.committee.committee_id, proposal := p
        prevote_tally := tally n.prevotes r p.proposal_id, precommit_tally := tally n.precommits r p.proposal_id
        commit_hash := commit_hash c n.height r n.previous_commit_hash p }) (n.after_commit c r p t)
  | exclude {n : ConsensusNode} {h r : Nat} {a : AgentId} :
      Does c n (.exclude h r a) (n.excluding c h r a)
  | see {n : ConsensusNode} {e : ConsensusSignedEnvelope}
      (hn : n.seen_signed_messages (.from_message e.envelope.message) = none) (hv : e.verifies c = true) :
      Does c n (.see e) (n.seeing e)

/-! ## Ledgers stay well formed -/

/-- Every ledger of the node is well formed. -/
def ConsensusNode.WfVotes (n : ConsensusNode) : Prop := ∀ k r, (ledger (n.votes k) r).Wf

theorem ConsensusNode.WfVotes.hears {n : ConsensusNode} (h : n.WfVotes) (k : VoteKind) (r : Nat) (a : AgentId)
    (v : Option String) : (n.hears k r a v).WfVotes := by
  intro k' r'
  rw [ledger_hears]
  split
  · exact VoteLedger.wf_record_vote (h k r) a v
  · exact h k' r'

theorem Does.wfVotes {c : Crypto} {n n' : ConsensusNode} {e : Effect} (hd : Does c n e n') (h : n.WfVotes) :
    n'.WfVotes := by
  have hmark : ∀ k r, (n.mark k r).WfVotes := fun k r k' r' => by rw [votes_mark]; exact h k' r'
  cases hd with
  | pend => exact h
  | enter => exact h
  | propose => exact h
  | store => exact h
  | cast => exact (hmark _ _).hears _ _ _ _
  | spoil => exact (hmark _ _).hears _ _ _ _
  | hear => exact h.hears _ _ _ _
  | commit => intro k r; cases k <;> exact VoteLedger.wf_empty
  | exclude =>
    intro k r
    rw [ledger_excluding]
    split
    · exact VoteLedger.wf_remove_voter (h k _) _
    · exact h k r
  | see => exact h

/-- The voters of a value are the agents whose choice it is. -/
theorem ConsensusNode.WfVotes.mem_voters {n : ConsensusNode} (h : n.WfVotes) {k : VoteKind} {r : Nat} {v : Option String}
    {a : AgentId} : a ∈ (ledger (n.votes k) r).voters v ↔ n.choice k r a = some v :=
  (h k r).agree a v

/-- The progress a call returns; an error returns none. -/
def returned : Except ConsensusError ConsensusProgress → ConsensusProgress
  | .ok progress => progress
  | .error _ => {}

/-- A call that returns neither envelopes nor commits. -/
def silent (res : Except ConsensusError ConsensusProgress) : Prop :=
  (returned res).outbound = [] ∧ (returned res).commits = []

theorem silent_error (e : ConsensusError) : silent (.error e) := ⟨rfl, rfl⟩

theorem silent_empty : silent (.ok {}) := ⟨rfl, rfl⟩

end Ambush.Consensus

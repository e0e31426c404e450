import Ambush.Consensus.Exclusion
/-!
# Commit readiness

A node is ready when it holds a proposal with a quorum of prevotes and a quorum of
precommits for it. It commits then, unless what completed the three is the proposal or a
prevote and the node can no longer cast its own precommit for it: only casting a
precommit, or hearing one, leads to `commit`. `late` is that situation, read off the
state before the call.
-/
open Lib Relation

namespace Ambush.Consensus

open ConsensusNode

/-- The votes recorded for a value. -/
def ConsensusNode.count (n : ConsensusNode) (k : VoteKind) (r : Nat) (v : Option String) : Nat :=
  ((ledger (n.votes k) r).voters v).card

/-- In round `r` the node holds a proposal with this id and both quorums for it. -/
structure ReadyFor (n : ConsensusNode) (r : Nat) (id : String) : Prop where
  proposal : ∃ p, n.proposals r = some p ∧ p.proposal_id = id
  prevotes : n.committee.threshold ≤ n.count .prevote r (some id)
  precommits : n.committee.threshold ≤ n.count .precommit r (some id)

/-- The node's own precommit in round `r` can no longer become one for this id. -/
def stuck (n : ConsensusNode) (r : Nat) (id : String) : Bool :=
  r ∈ n.emitted_precommits || (n.choice .precommit r n.local_agent_id).any (fun w => w ≠ some id)

/-- The node holds a quorum of precommits for this id, its own beyond reach. -/
def short (n : ConsensusNode) (r : Nat) (id : String) : Bool :=
  n.committee.threshold ≤ n.count .precommit r (some id) && stuck n r id

/-- The prevotes for `id` once `a` has cast its own for it, unless it has voted before. -/
def prevotesWith (n : ConsensusNode) (a : AgentId) (r : Nat) (id : String) : Nat :=
  n.count .prevote r (some id) + if n.choice .prevote r a = none then 1 else 0

/-- The prevotes for `id` once the node has answered a proposal with its own. -/
def prevotesAnswered (n : ConsensusNode) (r : Nat) (id : String) : Nat :=
  if r ∈ n.emitted_prevotes then n.count .prevote r (some id) else prevotesWith n n.local_agent_id r id

/-- The proposal comes when all else for it is there, too late for the node's precommit. -/
def lateProposal (n : ConsensusNode) (r : Nat) (p : ConsensusProposal) : Bool :=
  (n.proposals r).isNone && short n r p.proposal_id && n.committee.threshold ≤ prevotesAnswered n r p.proposal_id

/-- The prevote of `a` is its first or says the same again. -/
def admitsVote (n : ConsensusNode) (a : AgentId) (r : Nat) (v : Option String) : Bool :=
  (n.choice .prevote r a).all (· = v)

/-- The prevote completes the quorum of a proposal the node holds, too late for its precommit. -/
def latePrevote (n : ConsensusNode) (a : AgentId) (r : Nat) (id : String) : Bool :=
  short n r id && admitsVote n a r (some id) && (n.proposals r).any (·.proposal_id = id) &&
    n.committee.threshold ≤ prevotesWith n a r id

/-- The call brings the last of the three too late. When a prevote takes the node to a
later round, the proposal can be its own there. -/
def late (c : Crypto) (n : ConsensusNode) (input : Input) : Bool :=
  (offers c n input).any (fun x => lateProposal n x.1 x.2) ||
  match input with
  | .deliver e _ =>
    match e.envelope.message.body with
    | .Prevote (some id) =>
      Reads c n e && (latePrevote n e.envelope.message.sender e.envelope.message.round id ||
        short n e.envelope.message.round id &&
          admitsVote n e.envelope.message.sender e.envelope.message.round (some id) &&
          (offers c n input).any (fun x => x.2.proposal_id = id))
    | _ => false
  | _ => false

/-! ## Counting -/

theorem count_hears {n : ConsensusNode} (h : n.WfVotes) (k k' : VoteKind) (r r' : Nat) (a : AgentId) (v v' : Option String) :
    (n.hears k r a v).count k' r' v' =
      n.count k' r' v' + if k' = k ∧ r' = r ∧ v' = v ∧ n.choice k r a = none then 1 else 0 := by
  unfold count
  rw [ledger_hears]
  by_cases hkr : k' = k ∧ r' = r
  · obtain ⟨rfl, rfl⟩ := hkr
    rw [if_pos ⟨rfl, rfl⟩, VoteLedger.record_vote_voters]
    by_cases hv : v' = v ∧ n.choice k' r' a = none
    · obtain ⟨rfl, hnone⟩ := hv
      have hnot : a ∉ (ledger (n.votes k') r').voters v' := by
        rw [h.mem_voters, hnone]; simp
      rw [if_pos ⟨rfl, hnone⟩, Finset.card_insert_of_notMem hnot, if_pos ⟨rfl, rfl, rfl, hnone⟩]
    · rw [if_neg (show ¬ (v' = v ∧ (ledger (n.votes k') r').by_agent a = none) from hv),
        if_neg (fun h' => hv h'.2.2), Nat.add_zero]
  · rw [if_neg hkr, if_neg (fun h' => hkr ⟨h'.1, h'.2.1⟩), Nat.add_zero]

theorem count_mark (n : ConsensusNode) (k k' : VoteKind) (r r' : Nat) (v : Option String) :
    (n.mark k r).count k' r' v = n.count k' r' v := by
  unfold count; rw [votes_mark]

theorem wfVotes_mark {n : ConsensusNode} (h : n.WfVotes) (k : VoteKind) (r : Nat) : (n.mark k r).WfVotes := by
  intro k' r'
  rw [votes_mark]; exact h k' r'

/-- What `record_vote` answers about a ledger of the node. -/
theorem record_vote_answer (n : ConsensusNode) (k : VoteKind) (r : Nat) (a : AgentId) (v : Option String) :
    (∃ e w, ((ledger (n.votes k) r).record_vote a v).2 = .error e ∧ n.choice k r a = some w ∧ w ≠ v) ∨
    (((ledger (n.votes k) r).record_vote a v).2 = .ok ((n.hears k r a v).count k r v) ∧
      ∀ w, n.choice k r a = some w → w = v) := by
  cases hans : ((ledger (n.votes k) r).record_vote a v).2 with
  | error e =>
    obtain ⟨w, hw, hne, -⟩ := VoteLedger.record_vote_error hans
    exact .inl ⟨e, w, rfl, hw, hne⟩
  | ok x =>
    obtain ⟨hslot, hx⟩ := VoteLedger.record_vote_ok hans
    refine .inr ⟨?_, fun w hw => ?_⟩
    · rw [hx, VoteLedger.count_eq, count, ledger_hears, if_pos ⟨rfl, rfl⟩]
    · rw [VoteLedger.record_vote_by_agent] at hslot
      unfold choice at hw
      simpa [hw] using hslot

/-- A refused vote changes no count. -/
theorem count_hears_refused {n : ConsensusNode} (h : n.WfVotes) {k : VoteKind} {r : Nat} {a : AgentId} {v w : Option String}
    (hw : n.choice k r a = some w) (k' : VoteKind) (r' : Nat) (v' : Option String) :
    (n.hears k r a v).count k' r' v' = n.count k' r' v' := by
  rw [count_hears h, if_neg (by rw [hw]; simp), Nat.add_zero]

/-! ## The invariant -/

/-- Every quorum of prevotes has been answered with a precommit, every proposal with a
prevote, and no round is ready. -/
structure Settled (n : ConsensusNode) : Prop where
  wf : n.WfVotes
  answered : ∀ r, n.proposals r ≠ none → r ∈ n.emitted_prevotes
  quorum : ∀ r v, n.committee.threshold ≤ n.count .prevote r v → r ∈ n.emitted_precommits
  notReady : ∀ r id, ¬ ReadyFor n r id

theorem count_empty {n : ConsensusNode} {k : VoteKind} (h : n.votes k = .empty) (r : Nat) (v : Option String) :
    n.count k r v = 0 := by
  unfold count; rw [h]; rfl

/-- A node that holds nothing is settled. -/
theorem settled_empty {n : ConsensusNode} (hprop : n.proposals = .empty) (hpre : n.prevotes = .empty)
    (hcom : n.precommits = .empty) : Settled n := by
  have hvotes : ∀ k, n.votes k = .empty := fun k => by cases k <;> assumption
  refine ⟨fun k r => ?_, fun r hr => ?_, fun r v hle => ?_, fun r id hr => ?_⟩
  · rw [hvotes k]; exact VoteLedger.wf_empty
  · rw [hprop] at hr; exact absurd rfl hr
  · rw [count_empty (hvotes .prevote)] at hle
    exact absurd hle (not_le.2 n.committee.threshold_pos)
  · obtain ⟨p, hp, -⟩ := hr.proposal
    rw [hprop] at hp; cases hp

/-- A node where only `v` in round `r` may be ready becomes settled by trying to commit it. -/
theorem commit_settled {c : Crypto} {n : ConsensusNode} {r : Nat} {v : Option String} (t : Int) (hwf : n.WfVotes)
    (hans : ∀ r, n.proposals r ≠ none → r ∈ n.emitted_prevotes)
    (hq : ∀ r v, n.committee.threshold ≤ n.count .prevote r v → r ∈ n.emitted_precommits)
    (hready : ∀ r' id, ReadyFor n r' id → r' = r ∧ v = some id) : Settled (n.commit c r v t).1 := by
  -- every branch but the last leaves the node, and then nothing was ready
  have hstay : (∀ id, v = some id → ¬ ReadyFor n r id) → Settled n := by
    refine fun hno => ⟨hwf, hans, hq, fun r' id hr => ?_⟩
    obtain ⟨rfl, hv⟩ := hready r' id hr
    exact hno id hv hr
  unfold commit
  split
  · exact hstay (fun id hv => by cases hv)
  · rename_i id
    split
    · rename_i hnone
      refine hstay (fun id' _ hr => ?_)
      obtain ⟨p, hp, -⟩ := hr.proposal
      rw [hnone] at hp; cases hp
    · rename_i p hp
      split
      · rename_i hne
        refine hstay (fun id' hid hr => ?_)
        cases hid
        obtain ⟨p', hp', hid'⟩ := hr.proposal
        rw [hp] at hp'; cases hp'
        exact hne hid'
      · dsimp only
        split
        · rename_i hlow
          refine hstay (fun id' hid hr => ?_)
          cases hid
          rw [tally_eq, tally_eq] at hlow
          rcases hlow with hlow | hlow
          · exact absurd hr.prevotes (not_le.2 hlow)
          · exact absurd hr.precommits (not_le.2 hlow)
        · exact settled_empty rfl rfl rfl

/-- The node's own vote of a kind, with its round marked. -/
def ConsensusNode.ownVote (n : ConsensusNode) (k : VoteKind) (r : Nat) (v : Option String) : ConsensusNode :=
  (n.mark k r).hears k r n.local_agent_id v

theorem count_ownVote {n : ConsensusNode} (h : n.WfVotes) (k k' : VoteKind) (r r' : Nat) (v v' : Option String) :
    (n.ownVote k r v).count k' r' v' =
      n.count k' r' v' + if k' = k ∧ r' = r ∧ v' = v ∧ n.choice k r n.local_agent_id = none then 1 else 0 := by
  unfold ownVote
  rw [count_hears (wfVotes_mark h k r), count_mark, choice_mark]

theorem kin_ownVote (n : ConsensusNode) (k : VoteKind) (r : Nat) (v : Option String) : Kin n (n.ownVote k r v) :=
  (kin_mark n k r).trans (kin_hears _ k r _ v)

theorem emitted_ownVote (n : ConsensusNode) (k k' : VoteKind) (r : Nat) (v : Option String) :
    (n.ownVote k r v).emitted k' = if k' = k then insert r (n.emitted k) else n.emitted k' := by
  unfold ownVote
  rw [emitted_hears, emitted_mark]

theorem wfVotes_ownVote {n : ConsensusNode} (h : n.WfVotes) (k : VoteKind) (r : Nat) (v : Option String) :
    (n.ownVote k r v).WfVotes := (wfVotes_mark h k r).hears k r _ v

/-- Casting a precommit that has not been cast: the node's slot refuses it, or it counts,
and with a quorum the node tries to commit. -/
theorem emit_precommit_cases (c : Crypto) {n : ConsensusNode} {r : Nat} (v : Option String) (t : Int)
    (hem : r ∉ n.emitted_precommits) :
    (∃ e w, n.choice .precommit r n.local_agent_id = some w ∧ w ≠ v ∧
      n.emit_precommit c r v t = (n.ownVote .precommit r v, .error e)) ∨
    (∃ progress : ConsensusProgress, n.committee.threshold ≤ (n.ownVote .precommit r v).count .precommit r v ∧
      n.emit_precommit c r v t = progress.then ((n.ownVote .precommit r v).commit c r v t)) ∨
    (∃ progress, (n.ownVote .precommit r v).count .precommit r v < n.committee.threshold ∧
      n.emit_precommit c r v t = (n.ownVote .precommit r v, .ok progress)) := by
  unfold emit_precommit
  rw [if_neg hem]
  rcases record_vote_answer n .precommit r n.local_agent_id v with ⟨e, w, hans, hw, hne⟩ | ⟨hans, -⟩
  · refine .inl ⟨e, w, hw, hne, ?_⟩
    simp only
    split
    · rename_i x hx
      cases hans.symm.trans hx
      rfl
    · rename_i x hx
      cases hans.symm.trans hx
  · refine .inr ?_
    simp only
    split
    · rename_i x hx
      cases hans.symm.trans hx
    · rename_i x hx
      cases hans.symm.trans hx
      split
      · rename_i hthr
        exact .inl ⟨_, hthr, rfl⟩
      · rename_i hthr
        exact .inr ⟨_, not_le.1 hthr, rfl⟩

/-- Casting a prevote that has not been cast: likewise, and with a quorum the node casts
its precommit if it has not. -/
theorem emit_prevote_cases (c : Crypto) {n : ConsensusNode} {r : Nat} (v : Option String) (t : Int)
    (hem : r ∉ n.emitted_prevotes) :
    (∃ e w, n.choice .prevote r n.local_agent_id = some w ∧ w ≠ v ∧
      n.emit_prevote c r v t = (n.ownVote .prevote r v, .error e)) ∨
    (∃ progress : ConsensusProgress, n.committee.threshold ≤ (n.ownVote .prevote r v).count .prevote r v ∧
      r ∉ n.emitted_precommits ∧
      n.emit_prevote c r v t = progress.then ((n.ownVote .prevote r v).emit_precommit c r v t)) ∨
    (∃ progress, (n.committee.threshold ≤ (n.ownVote .prevote r v).count .prevote r v → r ∈ n.emitted_precommits) ∧
      n.emit_prevote c r v t = (n.ownVote .prevote r v, .ok progress)) := by
  unfold emit_prevote
  rw [if_neg hem]
  rcases record_vote_answer n .prevote r n.local_agent_id v with ⟨e, w, hans, hw, hne⟩ | ⟨hans, -⟩
  · refine .inl ⟨e, w, hw, hne, ?_⟩
    simp only
    split
    · rename_i x hx
      cases hans.symm.trans hx
      rfl
    · rename_i x hx
      cases hans.symm.trans hx
  · refine .inr ?_
    simp only
    split
    · rename_i x hx
      cases hans.symm.trans hx
    · rename_i x hx
      cases hans.symm.trans hx
      split
      · rename_i hthr
        exact .inl ⟨_, hthr.1, hthr.2, rfl⟩
      · rename_i hthr
        refine .inr ⟨_, fun hle => ?_, rfl⟩
        by_contra hout
        exact hthr ⟨hle, hout⟩

/-- Before `emit_precommit`: only `v` in round `r` may be ready, and then the node's
precommit for it is still to be cast. -/
structure Brink (n : ConsensusNode) (r : Nat) (v : Option String) : Prop where
  wf : n.WfVotes
  answered : ∀ r, n.proposals r ≠ none → r ∈ n.emitted_prevotes
  quorum : ∀ r' v', r' ≠ r → n.committee.threshold ≤ n.count .prevote r' v' → r' ∈ n.emitted_precommits
  ready : ∀ r' id, ReadyFor n r' id → r' = r ∧ v = some id ∧ stuck n r id = false

theorem emit_precommit_settled {c : Crypto} {n : ConsensusNode} {r : Nat} {v : Option String} (h : Brink n r v) (t : Int) :
    Settled (n.emit_precommit c r v t).1 := by
  by_cases hem : r ∈ n.emitted_precommits
  · -- the precommit was cast before, so nothing can be ready
    rw [show n.emit_precommit c r v t = (n, .ok {}) from if_pos hem]
    refine ⟨h.wf, h.answered, fun r' v' hle => ?_, fun r' id hr => ?_⟩
    · by_cases hr' : r' = r
      · exact hr' ▸ hem
      · exact h.quorum r' v' hr' hle
    · obtain ⟨rfl, -, hstuck⟩ := h.ready r' id hr
      simp [stuck, hem] at hstuck
  · have hkin := kin_ownVote n .precommit r v
    have hwf := wfVotes_ownVote h.wf .precommit r v
    have hcount := count_ownVote h.wf .precommit (r := r) (v := v)
    have hans : ∀ r', (n.ownVote .precommit r v).proposals r' ≠ none →
        r' ∈ (n.ownVote .precommit r v).emitted_prevotes := h.answered
    have hq : ∀ r' v', (n.ownVote .precommit r v).committee.threshold ≤ (n.ownVote .precommit r v).count .prevote r' v' →
        r' ∈ (n.ownVote .precommit r v).emitted_precommits := by
      intro r' v' hle
      have hem' := emitted_ownVote n .precommit .precommit r v
      simp only [if_true] at hem'
      change r' ∈ (n.ownVote .precommit r v).emitted .precommit
      rw [hem']
      by_cases hr' : r' = r
      · simp [hr']
      · refine Finset.mem_insert_of_mem (h.quorum r' v' hr' ?_)
        rw [hkin.committee, hcount] at hle
        simpa using hle
    -- readiness afterwards: of `v` in round `r`, or as before
    have hback : ∀ r' id, ReadyFor (n.ownVote .precommit r v) r' id → (r' = r ∧ v = some id) ∨ ReadyFor n r' id := by
      intro r' id hr
      by_cases hrv : r' = r ∧ v = some id
      · exact .inl hrv
      · refine .inr ⟨hr.proposal, ?_, ?_⟩
        · have := hr.prevotes
          rw [hkin.committee, hcount] at this
          simpa using this
        · have := hr.precommits
          rw [hkin.committee, hcount, if_neg (fun h' => hrv ⟨h'.2.1, h'.2.2.1.symm⟩)] at this
          exact this
    have hready : ∀ r' id, ReadyFor (n.ownVote .precommit r v) r' id → r' = r ∧ v = some id := by
      intro r' id hr
      rcases hback r' id hr with hr | hr
      · exact hr
      · exact ⟨(h.ready r' id hr).1, (h.ready r' id hr).2.1⟩
    rcases emit_precommit_cases c v t hem with ⟨e, w, hw, hne, hout⟩ | ⟨progress, -, hout⟩ | ⟨progress, hlow, hout⟩ <;>
      rw [hout]
    · -- the node's slot holds another vote, so counts are as before
      refine ⟨hwf, hans, hq, fun r' id hr => ?_⟩
      obtain ⟨rfl, rfl⟩ := hready r' id hr
      have hr₀ : ReadyFor n r' id := by
        refine ⟨hr.proposal, ?_, ?_⟩
        · have := hr.prevotes
          rw [hkin.committee, hcount] at this
          simpa using this
        · have := hr.precommits
          rw [hkin.committee, hcount, hw] at this
          simpa using this
      have := (h.ready r' id hr₀).2.2
      simp [stuck, hw, hne] at this
    · exact commit_settled t hwf hans hq hready
    · refine ⟨hwf, hans, hq, fun r' id hr => ?_⟩
      obtain ⟨rfl, rfl⟩ := hready r' id hr
      exact absurd (hkin.committee ▸ hr.precommits) (not_le.2 hlow)

/-! ## Each operation -/

theorem short_eq_true {n : ConsensusNode} {r : Nat} {id : String} :
    short n r id = true ↔ n.committee.threshold ≤ n.count .precommit r (some id) ∧ stuck n r id = true := by
  simp [short]

/-- Before the node answers a proposal `id` of round `r` with its prevote. -/
structure Answering (n : ConsensusNode) (r : Nat) (id : String) : Prop where
  wf : n.WfVotes
  answered : ∀ r', r' ≠ r → n.proposals r' ≠ none → r' ∈ n.emitted_prevotes
  quorum : ∀ r v, n.committee.threshold ≤ n.count .prevote r v → r ∈ n.emitted_precommits
  ready : ∀ r' id', ReadyFor n r' id' → r' = r ∧ id' = id
  onTime : short n r id = true → prevotesAnswered n r id < n.committee.threshold

/-- Where the count of prevotes does not change, being ready means being late. -/
theorem Answering.not_ready {n : ConsensusNode} {r : Nat} {id : String} (h : Answering n r id) (r' : Nat) (id' : String) :
    ¬ ReadyFor n r' id' := by
  intro hr
  obtain ⟨rfl, rfl⟩ := h.ready r' id' hr
  have hem := h.quorum _ _ hr.prevotes
  have hlow := h.onTime (short_eq_true.2 ⟨hr.precommits, by simp [stuck, hem]⟩)
  have hpre := hr.prevotes
  unfold prevotesAnswered prevotesWith at hlow
  split at hlow <;> omega

theorem emit_prevote_of_emitted {c : Crypto} {n : ConsensusNode} {r : Nat} (h : r ∈ n.emitted_prevotes) (v : Option String)
    (t : Int) : n.emit_prevote c r v t = (n, .ok {}) := if_pos h

theorem emit_prevote_settled {c : Crypto} {n : ConsensusNode} {r : Nat} {id : String} (h : Answering n r id) (t : Int) :
    Settled (n.emit_prevote c r (some id) t).1 := by
  by_cases hem : r ∈ n.emitted_prevotes
  · rw [emit_prevote_of_emitted hem]
    refine ⟨h.wf, fun r' hr' => ?_, h.quorum, h.not_ready⟩
    by_cases heq : r' = r
    · exact heq ▸ hem
    · exact h.answered r' heq hr'
  · have hkin := kin_ownVote n .prevote r (some id)
    have hwf := wfVotes_ownVote h.wf .prevote r (some id)
    have hcount := count_ownVote h.wf .prevote (r := r) (v := some id)
    have hans : ∀ r', (n.ownVote .prevote r (some id)).proposals r' ≠ none →
        r' ∈ (n.ownVote .prevote r (some id)).emitted_prevotes := by
      intro r' hr'
      change r' ∈ insert r n.emitted_prevotes
      by_cases heq : r' = r
      · simp [heq]
      · exact Finset.mem_insert_of_mem (h.answered r' heq hr')
    have hq : ∀ r' v', (r' ≠ r ∨ v' ≠ some id) → (n.ownVote .prevote r (some id)).committee.threshold ≤
        (n.ownVote .prevote r (some id)).count .prevote r' v' →
        r' ∈ (n.ownVote .prevote r (some id)).emitted_precommits := by
      intro r' v' hne hle
      rw [hkin.committee, hcount, if_neg (by rintro ⟨-, hr', hv', -⟩; exact hne.elim (· hr') (· hv'))] at hle
      exact h.quorum r' v' hle
    -- being ready now would be late if the precommit were out of reach
    have hready : ∀ r' id', ReadyFor (n.ownVote .prevote r (some id)) r' id' →
        r' = r ∧ id' = id ∧ stuck n r id = false := by
      intro r' id' hr
      have hprec := hr.precommits
      rw [hkin.committee, hcount, if_neg (by simp), Nat.add_zero] at hprec
      by_cases hrv : r' = r ∧ id' = id
      · obtain ⟨rfl, rfl⟩ := hrv
        refine ⟨rfl, rfl, ?_⟩
        by_contra hstuck
        have hlow := h.onTime (short_eq_true.2 ⟨hprec, by simpa using hstuck⟩)
        have hpre := hr.prevotes
        rw [hkin.committee, hcount] at hpre
        unfold prevotesAnswered prevotesWith at hlow
        rw [if_neg hem] at hlow
        simp only [true_and] at hpre
        omega
      · have hpre := hr.prevotes
        rw [hkin.committee, hcount, if_neg (by
          rintro ⟨-, hr', hid', -⟩
          exact hrv ⟨hr', by simpa using hid'⟩), Nat.add_zero] at hpre
        obtain ⟨rfl, rfl⟩ := h.ready r' id' ⟨hr.proposal, hpre, hprec⟩
        exact absurd ⟨rfl, rfl⟩ hrv
    rcases emit_prevote_cases c (some id) t hem with ⟨e, w, hw, hne, hout⟩ | ⟨progress, -, hnot, hout⟩ |
      ⟨progress, hans', hout⟩ <;> rw [hout]
    · have hsame : ∀ k' r' v', (n.ownVote .prevote r (some id)).count k' r' v' = n.count k' r' v' := by
        intro k' r' v'
        rw [hcount, hw]; simp
      refine ⟨hwf, hans, fun r' v' hle => ?_, fun r' id' hr => ?_⟩
      · rw [hkin.committee, hsame] at hle
        exact h.quorum r' v' hle
      · refine h.not_ready r' id' ⟨hr.proposal, ?_, ?_⟩
        · have := hr.prevotes
          rwa [hkin.committee, hsame] at this
        · have := hr.precommits
          rwa [hkin.committee, hsame] at this
    · refine emit_precommit_settled ⟨hwf, hans, fun r' v' hne hle => hq r' v' (.inl hne) hle, fun r' id' hr => ?_⟩ t
      obtain ⟨hr', hid', hstuck⟩ := hready r' id' hr
      exact ⟨hr', by rw [hid'], by subst hr'; subst hid'; exact hstuck⟩
    · have hcases : ∀ r' v', (n.ownVote .prevote r (some id)).committee.threshold ≤
          (n.ownVote .prevote r (some id)).count .prevote r' v' → r' ∈ n.emitted_precommits := by
        intro r' v' hle
        by_cases hrv : r' = r ∧ v' = some id
        · obtain ⟨rfl, rfl⟩ := hrv
          exact hans' (hkin.committee ▸ hle)
        · refine hq r' v' ?_ hle
          by_contra hboth
          simp only [not_or, not_not] at hboth
          exact hrv hboth
      refine ⟨hwf, hans, hcases, fun r' id' hr => ?_⟩
      obtain ⟨rfl, rfl, hstuck⟩ := hready r' id' hr
      have := hcases _ _ hr.prevotes
      simp [stuck, this] at hstuck

/-- A proposal stored in time, and answered. -/
theorem Settled.answering {n : ConsensusNode} (h : Settled n) {r : Nat} {p : ConsensusProposal} (hnone : n.proposals r = none)
    (hlate : lateProposal n r p = false) :
    Answering { n with proposals := n.proposals.insert r p } r p.proposal_id where
  wf := h.wf
  answered r' hr' hne := h.answered r' (by simpa [Map.insert_ne _ _ _ _ hr'] using hne)
  quorum := h.quorum
  ready r' id' hr := by
    obtain ⟨q, hq, hid⟩ := hr.proposal
    simp only [Map.insert_apply] at hq
    split at hq
    · rename_i heq
      cases hq
      exact ⟨heq, hid.symm⟩
    · exact absurd ⟨⟨q, hq, hid⟩, hr.prevotes, hr.precommits⟩ (h.notReady r' id')
  onTime hshort := by
    by_contra hge
    have hshort' : short n r p.proposal_id = true := hshort
    have hge' : n.committee.threshold ≤ prevotesAnswered n r p.proposal_id := not_lt.1 hge
    simp [lateProposal, hnone, hshort', hge'] at hlate

theorem observe_proposal_settled {c : Crypto} {n : ConsensusNode} (h : Settled n) {a : AgentId} {r : Nat}
    {p : ConsensusProposal} (t : Int) (hlate : n.committee.proposer_for c n.previous_commit_hash r = .ok a →
      lateProposal n r p = false) : Settled (n.observe_proposal c a r p t).1 := by
  unfold observe_proposal
  rcases record_proposal_cases c n a r p with ⟨e, he⟩ | ⟨he, hsome⟩ | ⟨hlead, hnone, he⟩ <;> rw [he] <;> dsimp only
  · exact h
  · rw [if_pos (h.answered r (by simp [hsome]))]
    exact h
  · have hset := emit_prevote_settled (c := c) (h.answering hnone (hlate hlead)) t
    split
    · rename_i hem
      have hsame := emit_prevote_of_emitted (c := c) (n := { n with proposals := n.proposals.insert r p }) hem
        (some p.proposal_id) t
      exact hsame ▸ hset
    · exact hset

theorem observe_local_proposal_settled {c : Crypto} {n : ConsensusNode} (h : Settled n) {r : Nat} {p : ConsensusProposal}
    (t : Int) (hnone : n.proposals r = none) (hlate : lateProposal n r p = false) :
    Settled (n.observe_local_proposal c r p t).1 := by
  unfold observe_local_proposal
  rcases record_proposal_cases c n n.local_agent_id r p with ⟨e, he⟩ | ⟨-, hsome⟩ | ⟨-, -, he⟩
  · rw [he]; exact h
  · rw [hnone] at hsome; cases hsome
  · rw [he]
    exact emit_prevote_settled (h.answering hnone hlate) t

theorem emit_proposal_if_leader_settled {c : Crypto} {n : ConsensusNode} (h : Settled n) (t : Int)
    (hlate : ∀ p, n.pending_local_proposal = some p → leads c n n.round = true → lateProposal n n.round p = false) :
    Settled (n.emit_proposal_if_leader c t).1 := by
  unfold emit_proposal_if_leader
  split
  · exact h
  · rename_i proposer hproposer
    split
    · exact h
    · rename_i hme
      split
      · exact h
      · rename_i hnone
        split
        · exact h
        · rename_i p hp
          refine observe_local_proposal_settled h t (by simpa using hnone) (hlate p hp ?_)
          rw [leads, show n.committee.proposer_for c n.previous_commit_hash n.round = .ok proposer from hproposer,
            not_not.1 hme]
          simp

/-- Hearing a vote leaves proposals and what the node has emitted. -/
theorem Settled.hears {n : ConsensusNode} (h : Settled n) (k : VoteKind) (r : Nat) (a : AgentId) (v : Option String) :
    (n.hears k r a v).WfVotes ∧ (∀ r', (n.hears k r a v).proposals r' ≠ none → r' ∈ (n.hears k r a v).emitted_prevotes) ∧
    (∀ r' v', (k ≠ .prevote ∨ r' ≠ r ∨ v' ≠ v) → (n.hears k r a v).committee.threshold ≤ (n.hears k r a v).count .prevote r' v' →
      r' ∈ (n.hears k r a v).emitted_precommits) ∧
    ∀ r' id, ReadyFor (n.hears k r a v) r' id → r' = r ∧ v = some id := by
  have hkin := kin_hears n k r a v
  have hprop : (n.hears k r a v).proposals = n.proposals := by cases k <;> rfl
  have hpre : (n.hears k r a v).emitted_prevotes = n.emitted_prevotes := emitted_hears n k .prevote r a v
  have hcom : (n.hears k r a v).emitted_precommits = n.emitted_precommits := emitted_hears n k .precommit r a v
  refine ⟨h.wf.hears k r a v, fun r' hr' => ?_, fun r' v' hne hle => ?_, fun r' id hr => ?_⟩
  · rw [hpre]; exact h.answered r' (hprop ▸ hr')
  · rw [hkin.committee, count_hears h.wf, if_neg (by
      rintro ⟨hk, hr', hv', -⟩
      rcases hne with hne | hne | hne
      · exact hne hk.symm
      · exact hne hr'
      · exact hne hv')] at hle
    rw [hcom]; exact h.quorum r' v' hle
  · by_contra hrv
    refine h.notReady r' id ⟨hprop ▸ hr.proposal, ?_, ?_⟩
    · have := hr.prevotes
      rw [hkin.committee, count_hears h.wf, if_neg (fun h' => hrv ⟨h'.2.1, h'.2.2.1.symm⟩)] at this
      exact this
    · have := hr.precommits
      rw [hkin.committee, count_hears h.wf, if_neg (fun h' => hrv ⟨h'.2.1, h'.2.2.1.symm⟩)] at this
      exact this

/-- A vote the ledger refuses. -/
theorem Settled.refused {n : ConsensusNode} (h : Settled n) {k : VoteKind} {r : Nat} {a : AgentId} {v w : Option String}
    (hw : n.choice k r a = some w) : Settled (n.hears k r a v) := by
  obtain ⟨hwf, hans, -, -⟩ := h.hears k r a v
  have hkin := kin_hears n k r a v
  have hsame := count_hears_refused h.wf (v := v) hw
  have hcom : (n.hears k r a v).emitted_precommits = n.emitted_precommits := emitted_hears n k .precommit r a v
  have hprop : (n.hears k r a v).proposals = n.proposals := by cases k <;> rfl
  refine ⟨hwf, hans, fun r' v' hle => ?_, fun r' id hr => ?_⟩
  · rw [hkin.committee, hsame] at hle
    rw [hcom]; exact h.quorum r' v' hle
  · refine h.notReady r' id ⟨hprop ▸ hr.proposal, ?_, ?_⟩
    · have := hr.prevotes
      rwa [hkin.committee, hsame] at this
    · have := hr.precommits
      rwa [hkin.committee, hsame] at this

theorem observe_precommit_settled {c : Crypto} {n : ConsensusNode} (h : Settled n) (a : AgentId) (r : Nat)
    (v : Option String) (t : Int) : Settled (n.observe_precommit c a r v t).1 := by
  obtain ⟨hwf, hans, hq, hready⟩ := h.hears .precommit r a v
  unfold observe_precommit
  rcases record_vote_answer n .precommit r a v with ⟨e, w, hans', hw, -⟩ | ⟨hans', -⟩
  · dsimp only
    split
    · exact h.refused (k := .precommit) hw
    · rename_i x hx
      cases hans'.symm.trans hx
  · dsimp only
    split
    · rename_i x hx
      cases hans'.symm.trans hx
    · rename_i x hx
      cases hans'.symm.trans hx
      split
      · exact commit_settled (n := n.hears .precommit r a v) t hwf hans (fun r' v' => hq r' v' (.inl (by simp))) hready
      · rename_i hlow
        refine ⟨hwf, hans, fun r' v' => hq r' v' (.inl (by simp)), fun r' id hr => hlow ?_⟩
        obtain ⟨rfl, rfl⟩ := hready r' id hr
        exact hr.precommits

theorem observe_prevote_settled {c : Crypto} {n : ConsensusNode} (h : Settled n) {a : AgentId} {r : Nat}
    {v : Option String} (t : Int) (hlate : ∀ id, v = some id → latePrevote n a r id = false) :
    Settled (n.observe_prevote c a r v t).1 := by
  obtain ⟨hwf, hans, hq, hready⟩ := h.hears .prevote r a v
  have hkin := kin_hears n .prevote r a v
  unfold observe_prevote
  rcases record_vote_answer n .prevote r a v with ⟨e, w, hans', hw, -⟩ | ⟨hans', hslot⟩
  · dsimp only
    split
    · exact h.refused (k := .prevote) hw
    · rename_i x hx
      cases hans'.symm.trans hx
  · -- being ready now would be late if the precommit were out of reach
    have hstuck : ∀ id, ReadyFor (n.hears .prevote r a v) r id → stuck n r id = false := by
      intro id hr
      by_contra hst
      obtain ⟨-, rfl⟩ := hready r id hr
      have hprec := hr.precommits
      rw [hkin.committee, count_hears h.wf, if_neg (by simp), Nat.add_zero] at hprec
      have hpre := hr.prevotes
      rw [hkin.committee, count_hears h.wf] at hpre
      simp only [true_and] at hpre
      have hadm : admitsVote n a r (some id) = true := by
        unfold admitsVote
        cases hc : n.choice .prevote r a with
        | none => rfl
        | some w => simp [hslot w hc]
      obtain ⟨p, hp, hid⟩ := hr.proposal
      have hp' : n.proposals r = some p := hp
      have hshort := short_eq_true.2 ⟨hprec, by simpa using hst⟩
      have hno := hlate id rfl
      simp [latePrevote, hshort, hadm, hp', hid, prevotesWith, hpre] at hno
    dsimp only
    split
    · rename_i x hx
      cases hans'.symm.trans hx
    · rename_i x hx
      cases hans'.symm.trans hx
      split
      · refine emit_precommit_settled (n := n.hears .prevote r a v) ⟨hwf, hans, fun r' v' hne => hq r' v' (.inr (.inl hne)),
          fun r' id hr => ?_⟩ t
        obtain ⟨rfl, rfl⟩ := hready r' id hr
        exact ⟨rfl, rfl, hstuck id hr⟩
      · rename_i hno
        have hcases : ∀ r' v', (n.hears .prevote r a v).committee.threshold ≤ (n.hears .prevote r a v).count .prevote r' v' →
            r' ∈ (n.hears .prevote r a v).emitted_precommits := by
          intro r' v' hle
          by_cases hrv : r' = r ∧ v' = v
          · obtain ⟨rfl, rfl⟩ := hrv
            by_contra hout
            exact hno ⟨hle, hout⟩
          · refine hq r' v' (.inr ?_) hle
            by_contra hboth
            simp only [not_or, not_not] at hboth
            exact hrv hboth
        refine ⟨hwf, hans, hcases, fun r' id hr => ?_⟩
        obtain ⟨rfl, rfl⟩ := hready r' id hr
        have hin : r' ∈ n.emitted_precommits := hcases _ _ hr.prevotes
        have := hstuck id hr
        simp [stuck, hin] at this

/-! ## Catching up with a later round -/

/-- The node has just committed and holds nothing. -/
def Cleared (n : ConsensusNode) : Prop := n.proposals = .empty ∧ n.prevotes = .empty ∧ n.precommits = .empty

/-- What answering the proposal `id` in round `r` leaves for a message that follows: an
error, a fresh height, or a node no shorter of `id` than before. -/
def Leaves (n : ConsensusNode) (r : Nat) (id : String) (out : Outcome) : Prop :=
  (∃ e, out.2 = .error e) ∨ Cleared out.1 ∨
    (out.1.proposals = n.proposals ∧ (short out.1 r id = true → short n r id = true) ∧
      ∀ a w, n.choice .prevote r a = some w → out.1.choice .prevote r a = some w)

/-- A commit with both quorums and the proposal in hand succeeds. -/
theorem commit_cleared {c : Crypto} {n : ConsensusNode} {r : Nat} {id : String} (h : ReadyFor n r id) (t : Int) :
    Cleared (n.commit c r (some id) t).1 := by
  obtain ⟨⟨p, hp, hid⟩, hpre, hcom⟩ := h
  unfold commit
  simp only [hp, hid, ne_eq, not_true_eq_false, if_false]
  rw [if_neg]
  · exact ⟨rfl, rfl, rfl⟩
  · rw [tally_eq, tally_eq, not_or]
    exact ⟨not_lt.2 hpre, not_lt.2 hcom⟩

theorem choice_ownVote_mono (n : ConsensusNode) (k k' : VoteKind) (r r' : Nat) (v w : Option String) (a : AgentId)
    (h : n.choice k' r' a = some w) : (n.ownVote k r v).choice k' r' a = some w :=
  choice_hears_mono _ _ _ _ _ _ _ _ _ (by rw [choice_mark]; exact h)

theorem short_ownVote_prevote {n : ConsensusNode} (h : n.WfVotes) (r : Nat) (v : Option String) (id : String) :
    short (n.ownVote .prevote r v) r id = short n r id := by
  have hcount : (n.ownVote .prevote r v).count .precommit r (some id) = n.count .precommit r (some id) := by
    rw [count_ownVote h]; simp
  have hstuck : stuck (n.ownVote .prevote r v) r id = stuck n r id := rfl
  unfold short
  rw [hcount, hstuck, (kin_ownVote n .prevote r v).committee]

theorem emit_prevote_leaves (c : Crypto) {n : ConsensusNode} {r : Nat} {p : ConsensusProposal} (hwf : n.WfVotes)
    (hp : n.proposals r = some p) (t : Int) :
    Leaves n r p.proposal_id (n.emit_prevote c r (some p.proposal_id) t) := by
  by_cases hem : r ∈ n.emitted_prevotes
  · rw [emit_prevote_of_emitted hem]
    exact .inr (.inr ⟨rfl, id, fun _ _ h => h⟩)
  have hkin := kin_ownVote n .prevote r (some p.proposal_id)
  have hwf' := wfVotes_ownVote hwf .prevote r (some p.proposal_id)
  rcases emit_prevote_cases c (some p.proposal_id) t hem with ⟨e, w, -, -, hout⟩ | ⟨progress, hpre, hnot, hout⟩ |
    ⟨progress, -, hout⟩ <;> rw [hout]
  · exact .inl ⟨e, rfl⟩
  · -- the precommit follows; with a quorum it commits, and without one the node is not short
    rcases emit_precommit_cases c (n := n.ownVote .prevote r (some p.proposal_id)) (some p.proposal_id) t hnot with
      ⟨e, w, -, -, hout'⟩ | ⟨progress', hcom, hout'⟩ | ⟨progress', hlow, hout'⟩ <;> rw [hout']
    · exact .inl ⟨e, rfl⟩
    · have hready : ReadyFor ((n.ownVote .prevote r (some p.proposal_id)).ownVote .precommit r (some p.proposal_id)) r
          p.proposal_id := by
        refine ⟨⟨p, hp, rfl⟩, ?_, ?_⟩
        · rw [(kin_ownVote _ .precommit r _).committee, count_ownVote hwf']
          exact (hkin.committee ▸ hpre).trans (Nat.le_add_right _ _)
        · rw [(kin_ownVote _ .precommit r _).committee]
          exact hcom
      exact .inr (.inl (commit_cleared hready t))
    · refine .inr (.inr ⟨rfl, fun hshort => ?_, fun a w h => ?_⟩)
      · have hle := (short_eq_true.1 hshort).1
        exact absurd ((kin_ownVote _ .precommit r _).committee ▸ hle) (not_le.2 hlow)
      · exact choice_ownVote_mono _ _ _ _ _ _ _ _ (choice_ownVote_mono _ _ _ _ _ _ _ _ h)
  · refine .inr (.inr ⟨rfl, fun hshort => ?_, fun a w h => choice_ownVote_mono _ _ _ _ _ _ _ _ h⟩)
    rw [← short_ownVote_prevote hwf r (some p.proposal_id)]
    exact hshort

/-- Proposing on entering a round: nothing, or the pending proposal put where none was. -/
theorem emit_proposal_if_leader_leaves (c : Crypto) {n : ConsensusNode} (hwf : n.WfVotes) (t : Int) :
    (n.emit_proposal_if_leader c t).1 = n ∨
    ∃ p, n.pending_local_proposal = some p ∧ leads c n n.round = true ∧ n.proposals n.round = none ∧
      Leaves { n with proposals := n.proposals.insert n.round p } n.round p.proposal_id (n.emit_proposal_if_leader c t) := by
  unfold emit_proposal_if_leader
  split
  · exact .inl rfl
  · rename_i proposer hproposer
    split
    · exact .inl rfl
    · rename_i hme
      split
      · exact .inl rfl
      · rename_i hnone
        split
        · exact .inl rfl
        · rename_i p hp
          have hleads : leads c n n.round = true := by
            rw [leads, show n.committee.proposer_for c n.previous_commit_hash n.round = .ok proposer from hproposer,
              not_not.1 hme]
            simp
          have hnone' : n.proposals n.round = none := by simpa using hnone
          unfold observe_local_proposal
          rcases record_proposal_cases c n n.local_agent_id n.round p with ⟨e, he⟩ | ⟨-, hsome⟩ | ⟨-, -, he⟩
          · rw [he]; exact .inl rfl
          · rw [hnone'] at hsome; cases hsome
          · refine .inr ⟨p, hp, hleads, hnone', ?_⟩
            rw [he]
            have hleaves := emit_prevote_leaves c (n := { n with proposals := n.proposals.insert n.round p })
              (r := n.round) (p := p) hwf (by simp) t
            rcases hleaves with ⟨e, he'⟩ | hrest
            · exact .inl ⟨e, by simp [ConsensusProgress.then, he', Except.map]⟩
            · exact .inr hrest

theorem short_cleared {n : ConsensusNode} (h : Cleared n) (r : Nat) (id : String) : short n r id = false := by
  have hcount : n.count .precommit r (some id) = 0 := count_empty (k := .precommit) h.2.2 r (some id)
  have := n.committee.threshold_pos
  unfold short
  rw [hcount, decide_eq_false (by omega)]
  rfl

/-! ## Each call -/

theorem Settled.seeing {n : ConsensusNode} (h : Settled n) (e : ConsensusSignedEnvelope) : Settled (n.seeing e) :=
  ⟨h.wf, h.answered, h.quorum, fun r id hr => h.notReady r id ⟨hr.proposal, hr.prevotes, hr.precommits⟩⟩

theorem Settled.entering {n : ConsensusNode} (h : Settled n) (r : Nat) (t : Int) :
    Settled { n with round := r, step := .Propose, round_started_at_ms := t } :=
  ⟨h.wf, h.answered, h.quorum, fun r id hr => h.notReady r id ⟨hr.proposal, hr.prevotes, hr.precommits⟩⟩

theorem count_excluding_le {n : ConsensusNode} (h : n.WfVotes) (c : Crypto) (ht r r' : Nat) (a : AgentId) (k : VoteKind)
    (v : Option String) : (n.excluding c ht r a).count k r' v ≤ n.count k r' v := by
  unfold count
  rw [ledger_excluding]
  split
  · rename_i heq
    subst heq
    rw [VoteLedger.remove_voter_voters (h k r')]
    exact Finset.card_le_card (Finset.erase_subset _ _)
  · exact le_rfl

theorem proposals_excluding {c : Crypto} {n : ConsensusNode} {ht r r' : Nat} {a : AgentId} {p : ConsensusProposal}
    (h : (n.excluding c ht r a).proposals r' = some p) : n.proposals r' = some p := by
  simp only [excluding, drop_sender_round_contributions] at h
  split at h
  · rw [Map.remove_apply] at h
    split at h
    · cases h
    · exact h
  · exact h

theorem Settled.excluding {n : ConsensusNode} (h : Settled n) (c : Crypto) (ht r : Nat) (a : AgentId) :
    Settled (n.excluding c ht r a) := by
  refine ⟨(Does.exclude (c := c) (h := ht) (r := r) (a := a)).wfVotes h.wf, fun r' hr' => ?_, fun r' v hle => ?_,
    fun r' id hr => ?_⟩
  · obtain ⟨p, hp⟩ := Option.ne_none_iff_exists'.1 hr'
    exact h.answered r' (by rw [proposals_excluding hp]; simp)
  · exact h.quorum r' v (hle.trans (count_excluding_le h.wf c ht r r' a .prevote v))
  · obtain ⟨p, hp, hid⟩ := hr.proposal
    exact h.notReady r' id ⟨⟨p, proposals_excluding hp, hid⟩,
      hr.prevotes.trans (count_excluding_le h.wf c ht r r' a .prevote _),
      hr.precommits.trans (count_excluding_le h.wf c ht r r' a .precommit _)⟩

/-- What the body of a message must not be. -/
def bodyLate (n : ConsensusNode) (c : Crypto) (m : ConsensusMessage) : Prop :=
  match m.body with
  | .Proposal p => n.committee.proposer_for c n.previous_commit_hash m.round = .ok m.sender ∧
      lateProposal n m.round p = true
  | .Prevote (some id) => latePrevote n m.sender m.round id = true
  | _ => False

theorem observe_body_settled {c : Crypto} {n : ConsensusNode} (h : Settled n) (m : ConsensusMessage) (t : Int)
    (hlate : ¬ bodyLate n c m) : Settled (n.observe_body c m t).1 := by
  unfold observe_body
  unfold bodyLate at hlate
  split
  · rename_i p hb
    refine observe_proposal_settled h t (fun hlead => ?_)
    rw [hb] at hlate
    simpa [hlead] using hlate
  · rename_i v hb
    refine observe_prevote_settled h t (fun id hv => ?_)
    rw [hb, hv] at hlate
    simpa using hlate
  · exact observe_precommit_settled h _ _ _ t

theorem admitsVote_of_mono {n n' : ConsensusNode} {a : AgentId} {r : Nat} {v : Option String}
    (hmono : ∀ a w, n.choice .prevote r a = some w → n'.choice .prevote r a = some w) (h : admitsVote n' a r v = true) :
    admitsVote n a r v = true := by
  unfold admitsVote at h ⊢
  cases hc : n.choice .prevote r a with
  | none => rfl
  | some w => rw [hmono a w hc] at h; exact h

section Call
variable {c : Crypto} {n n' : ConsensusNode} {e : ConsensusSignedEnvelope} {t : Int} {r : Nat} {p : ConsensusProposal}

/-- The node's own proposal is among the offers of a call that lets it lead. -/
theorem own_mem_offers {input : Input} (hr : proposesIn c n input = some r) (hp : pendingIn n input = some p)
    (hlead : leads c n r = true) : (r, p) ∈ offers c n input := by
  unfold offers
  rw [hr, hp]
  simp [hlead]

theorem not_lateProposal_of_mem {input : Input} (hlate : late c n input = false) (hmem : (r, p) ∈ offers c n input) :
    lateProposal n r p = false := by
  simpa using List.any_eq_false.1 (Bool.or_eq_false_iff.1 hlate).1 (r, p) hmem

/-- A message the node reads without catching up. -/
theorem not_bodyLate (hlate : late c n (.deliver e t) = false) (hreads : Reads c n e) : ¬ bodyLate n c e.envelope.message := by
  unfold bodyLate
  split
  · rename_i p hb
    rintro ⟨hlead, hl⟩
    have hmem : (e.envelope.message.round, p) ∈ offers c n (.deliver e t) := by
      refine List.mem_append_right _ ?_
      simp only [hb]
      rw [if_pos ⟨hreads, hlead⟩]
      simp
    rw [not_lateProposal_of_mem hlate hmem] at hl
    cases hl
  · rename_i id hb
    intro hl
    have := (Bool.or_eq_false_iff.1 hlate).2
    simp [hb, hreads, hl] at this
  · exact id

/-- A message the node reads after it has proposed in a later round. -/
theorem not_bodyLate_after (hlate : late c n (.deliver e t) = false) (hreads : Reads c n e)
    (hprop : n'.proposals = n.proposals.insert e.envelope.message.round p)
    (hshort : short n' e.envelope.message.round p.proposal_id = true → short n e.envelope.message.round p.proposal_id = true)
    (hmono : ∀ a w, n.choice .prevote e.envelope.message.round a = some w →
      n'.choice .prevote e.envelope.message.round a = some w)
    (hmem : (e.envelope.message.round, p) ∈ offers c n (.deliver e t)) : ¬ bodyLate n' c e.envelope.message := by
  have hsome : n'.proposals e.envelope.message.round = some p := by rw [hprop]; simp
  unfold bodyLate
  split
  · rintro ⟨-, hl⟩
    simp [lateProposal, hsome] at hl
  · rename_i id hb
    intro hl
    simp only [latePrevote, hsome, Option.any_some, Bool.and_eq_true, decide_eq_true_eq] at hl
    obtain ⟨⟨⟨hs, hadm⟩, rfl⟩, -⟩ := hl
    have hno := (Bool.or_eq_false_iff.1 hlate).2
    have hany : (offers c n (.deliver e t)).any (fun x => x.2.proposal_id = p.proposal_id) = true :=
      List.any_eq_true.2 ⟨_, hmem, by simp⟩
    simp [hb, hreads, hshort hs, admitsVote_of_mono hmono hadm, hany] at hno
  · exact id

theorem not_bodyLate_cleared (h : Cleared n') (m : ConsensusMessage) : ¬ bodyLate n' c m := by
  unfold bodyLate
  split
  · rintro ⟨-, hl⟩
    simp [lateProposal, short_cleared h] at hl
  · intro hl
    simp [latePrevote, short_cleared h] at hl
  · exact id

/-- Reading a message that is not late. -/
theorem readOn_settled (h : Settled n) (hreads : Reads c n e) (hlate : late c n (.deliver e t) = false) :
    Settled ((n.seeing e).readOn c e.envelope.message t).1 := by
  have hread : ¬ bodyLate n c e.envelope.message := not_bodyLate hlate hreads
  unfold readOn
  split
  · rename_i hlt
    -- a later round: the node enters it and may propose there first
    have hleaves : leavesFor c n (.deliver e t) = some e.envelope.message.round := if_pos ⟨hreads, hlt⟩
    have hent := (h.seeing e).entering e.envelope.message.round t
    have hadv : (n.seeing e).advance_round c e.envelope.message.round t = ConsensusProgress.then { round_advanced := true }
        (emit_proposal_if_leader c { n.seeing e with
          round := e.envelope.message.round, step := .Propose, round_started_at_ms := t } t) := if_neg (not_le.2 hlt)
    have hmem : ∀ q, n.pending_local_proposal = some q → leads c n e.envelope.message.round = true →
        (e.envelope.message.round, q) ∈ offers c n (.deliver e t) := fun q hq hlead => own_mem_offers hleaves hq hlead
    have hown : ∀ q, n.pending_local_proposal = some q → leads c n e.envelope.message.round = true →
        lateProposal n e.envelope.message.round q = false := fun q hq hlead => not_lateProposal_of_mem hlate (hmem q hq hlead)
    have hset := emit_proposal_if_leader_settled (c := c) hent t hown
    have hcases := emit_proposal_if_leader_leaves c hent.wf t
    rw [hadv]
    generalize emit_proposal_if_leader c { n.seeing e with
      round := e.envelope.message.round, step := .Propose, round_started_at_ms := t } t = out at hset hcases
    obtain ⟨n₂, res⟩ := out
    cases res with
    | error x => exact hset
    | ok progress =>
      refine observe_body_settled hset _ t ?_
      rcases hcases with heq | ⟨q, hq, hlead, hnone, ⟨x, hx⟩ | hclear | ⟨hprop, hshort, hmono⟩⟩
      · simp only at heq
        subst heq
        exact hread
      · cases hx
      · exact not_bodyLate_cleared hclear _
      · exact not_bodyLate_after hlate hreads hprop hshort hmono (hmem q hq hlead)
  · exact observe_body_settled (h.seeing e) _ t hread

/-- A call that is not late leaves a settled node settled. -/
theorem Settled.call {input : Input} (h : Settled n) (hs : Calls c n input n') (hlate : late c n input = false) :
    Settled n' := by
  obtain ⟨res, hcall⟩ := hs
  cases input with
  | queue p t =>
    have hpend : Settled { n with pending_local_proposal := some p } :=
      ⟨h.wf, h.answered, h.quorum, fun r id hr => h.notReady r id ⟨hr.proposal, hr.prevotes, hr.precommits⟩⟩
    have hown : ∀ q, some p = some q → leads c n n.round = true → lateProposal n n.round q = false :=
      fun q hq hlead => not_lateProposal_of_mem hlate (own_mem_offers rfl hq hlead)
    have hset := emit_proposal_if_leader_settled (c := c) hpend t hown
    have heq : emit_proposal_if_leader c { n with pending_local_proposal := some p } t = (n', res) := by
      simpa only [ConsensusNode.call, queue_proposal, Option.some.injEq] using hcall
    rw [heq] at hset
    exact hset
  | tick t =>
    simp only [ConsensusNode.call, tick] at hcall
    split at hcall
    · cases hcall
    rename_i elapsed helapsed
    split at hcall
    · cases hcall; exact h
    rename_i htime
    split at hcall
    · cases hcall
    rename_i target htarget
    have htgt := checkedAdd_eq_some htarget
    subst htgt
    have hleaves : leavesFor c n (.tick t) = some (n.round + 1) := by
      refine if_pos ?_
      rw [← checkedSubI_eq_some helapsed]
      exact not_lt.1 htime
    have hown : ∀ q, n.pending_local_proposal = some q → leads c n (n.round + 1) = true →
        lateProposal n (n.round + 1) q = false :=
      fun q hq hlead => not_lateProposal_of_mem hlate (own_mem_offers hleaves hq hlead)
    have hset := emit_proposal_if_leader_settled (c := c) (h.entering (n.round + 1) t) t hown
    rw [advance_round, if_neg (by omega), Option.some.injEq] at hcall
    have heq := congrArg Prod.fst hcall
    simp only [ConsensusProgress.then] at heq
    rw [← heq]
    exact hset
  | deliver e t =>
    have heq : n.handle_signed_envelope c e t = (n', res) := by
      simpa only [ConsensusNode.call, Option.some.injEq] using hcall
    have hhandled := handle_signed_envelope_handled c n e t
    rw [show n' = (n.handle_signed_envelope c e t).1 by rw [heq]]
    generalize n.handle_signed_envelope c e t = out at hhandled
    cases hhandled with
    | ignored => exact h
    | excluded => exact h.excluding c _ _ _
    | unread => exact h.seeing e
    | read hreads => exact readOn_settled h hreads hlate

end Call

/-! ## Whole runs -/

/-- In its current round the node holds a proposal and both quorums for it. -/
def Ready (n : ConsensusNode) : Prop :=
  ∃ p, n.proposals n.round = some p ∧ n.committee.threshold ≤ tally n.prevotes n.round p.proposal_id ∧
    n.committee.threshold ≤ tally n.precommits n.round p.proposal_id

theorem Settled.not_ready {n : ConsensusNode} (h : Settled n) : ¬ Ready n := by
  rintro ⟨p, hp, hpre, hcom⟩
  rw [tally_eq] at hpre hcom
  exact h.notReady n.round p.proposal_id ⟨⟨p, hp, rfl⟩, hpre, hcom⟩

/-- Over calls none of which brings the proposal or a prevote too late, the node never
holds a proposal and both quorums for it: it has committed. -/
theorem never_ready (c : Crypto) (n₀ n : ConsensusNode) (inputs : List Input)
    (hnew : ∃ id key k config previous t, new_internal id key k config previous t = .ok n₀)
    (hrun : Run (fun s input s' => Calls c s input s' ∧ late c s input = false) n₀ inputs n) : ¬ Ready n := by
  obtain ⟨_, _, _, _, _, _, hnew⟩ := hnew
  obtain ⟨-, -, -, -, hpre, hcom, hprop, -⟩ := new_internal_ok hnew
  have hset : Settled n := hrun.inv (fun s _ s' _ hI hs => hI.call hs.1 hs.2) (settled_empty hprop hpre hcom)
  exact hset.not_ready

/-- The node after a sequence of envelopes. -/
def hearAll : ConsensusNode → List ConsensusSignedEnvelope → ConsensusNode
  | n, [] => n
  | n, e :: es => hearAll (n.handle_signed_envelope .plain e 0).1 es

def neverLate : ConsensusNode → List ConsensusSignedEnvelope → Bool
  | _, [] => true
  | n, e :: es => !late .plain n (.deliver e 0) && neverLate (n.handle_signed_envelope .plain e 0).1 es

theorem run_hearAll (n : ConsensusNode) (es : List ConsensusSignedEnvelope) :
    Run (Calls .plain) n (es.map (.deliver · 0)) (hearAll n es) := by
  induction es generalizing n with
  | nil => exact .nil
  | cons e es ih => exact .cons (calls_deliver ..) (ih _)

theorem run_neverLate (n : ConsensusNode) (es : List ConsensusSignedEnvelope) (h : neverLate n es = true) :
    Run (fun s input s' => Calls .plain s input s' ∧ late .plain s input = false) n (es.map (.deliver · 0))
      (hearAll n es) := by
  induction es generalizing n with
  | nil => exact .nil
  | cons e es ih =>
    simp only [neverLate, Bool.and_eq_true, Bool.not_eq_true'] at h
    exact .cons ⟨calls_deliver .., h.1⟩ (ih _ h.2)

/-- The proposal first, then prevotes, then precommits. -/
def inOrder : List ConsensusSignedEnvelope := [
  signs "d" 0 0 (.Proposal ⟨"x", .null⟩),
  signs "b" 0 0 (.Prevote (some "x")),
  signs "d" 0 0 (.Prevote (some "x")),
  signs "b" 0 0 (.Precommit (some "x")),
  signs "d" 0 0 (.Precommit (some "x"))]

theorem never_ready_in_order : neverLate listener inOrder = true ∧ ¬ Ready (hearAll listener inOrder) := by
  have hlate : neverLate listener inOrder = true := by decide +kernel
  exact ⟨hlate, never_ready .plain listener _ _ ⟨_, _, _, _, _, _, new_seated (by decide)⟩ (run_neverLate _ _ hlate)⟩

/-- The votes of three members first, then the proposal. -/
def proposalLast : List ConsensusSignedEnvelope := [
  signs "b" 0 0 (.Prevote (some "x")),
  signs "c" 0 0 (.Prevote (some "x")),
  signs "d" 0 0 (.Prevote (some "x")),
  signs "b" 0 0 (.Precommit (some "x")),
  signs "c" 0 0 (.Precommit (some "x")),
  signs "d" 0 0 (.Proposal ⟨"x", .null⟩)]

/-- A node that precommitted on the prevotes of others and then receives the proposal has
all it needs to commit and does not. -/
theorem ready_when_proposal_last :
    new_with_signing_key (seat "a") "a" four {} "genesis" 0 = .ok listener ∧
    Run (Calls .plain) listener (proposalLast.map (.deliver · 0)) (hearAll listener proposalLast) ∧
    Ready (hearAll listener proposalLast) := by
  refine ⟨new_seated (by decide), run_hearAll _ _, ⟨"x", .null⟩, ?_⟩
  decide +kernel

end Ambush.Consensus

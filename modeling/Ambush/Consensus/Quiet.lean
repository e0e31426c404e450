import Ambush.Consensus.Account
/-!
# Calls that do not commit

A call that returns no commit leaves the node in its round, or takes it on to a later one
at the clock of the call (`Onward`). For a message of a later round this needs that the
node cannot commit while it catches up: it holds no votes of that round yet (`Blank`), and
its own vote alone is below a threshold greater than one.
-/
open Lib

namespace Ambush.Consensus

open ConsensusNode

/-- The node holds no ledger of a round it has not reached. -/
def Blank (n : ConsensusNode) : Prop := ∀ r, n.round < r → n.prevotes r = none ∧ n.precommits r = none

/-- The node stays in its height and round, whose clock is as it was. -/
structure Quiet (n n' : ConsensusNode) : Prop where
  kin : Kin n n'
  height : n'.height = n.height
  round : n'.round = n.round
  clock : n'.round_started_at_ms = n.round_started_at_ms
  blank : Blank n → Blank n'

/-- The call has returned, without a commit. -/
def Uncommitted (out : Outcome) : Prop := ∃ progress, out.2 = .ok progress ∧ progress.commits = []

section Calls
variable {c : Crypto} {n n' : ConsensusNode} {r : Nat} {t : Int}

theorem Quiet.refl (n : ConsensusNode) : Quiet n n := ⟨.refl n, rfl, rfl, rfl, id⟩

theorem Quiet.trans {n₁ n₂ : ConsensusNode} (h : Quiet n n₁) (h' : Quiet n₁ n₂) : Quiet n n₂ :=
  ⟨h.kin.trans h'.kin, h'.height.trans h.height, h'.round.trans h.round, h'.clock.trans h.clock, fun hc => h'.blank (h.blank hc)⟩

/-- A ledger of a round that is reached may be replaced. -/
theorem quiet_hears (k : VoteKind) (hr : r ≤ n.round) (a : AgentId) (v : Option String) : Quiet n (n.hears k r a v) := by
  refine ⟨kin_hears n k r a v, (still_hears n k r a v).height, (still_hears n k r a v).round, by cases k <;> rfl, fun hblank r' hr' => ?_⟩
  rw [(still_hears n k r a v).round] at hr'
  have hne : r' ≠ r := Nat.ne_of_gt (lt_of_le_of_lt hr hr')
  obtain ⟨hpre, hcom⟩ := hblank r' hr'
  cases k <;> simp [hears, setVotes, votes, Map.insert_ne, hne, hpre, hcom]

theorem quiet_mark (k : VoteKind) (r : Nat) : Quiet n (n.mark k r) := by
  cases k <;> exact ⟨⟨rfl, rfl, rfl, rfl⟩, rfl, rfl, rfl, id⟩

theorem uncommitted_then {progress : ConsensusProgress} {out : Outcome} (h : Uncommitted (progress.then out)) :
    Uncommitted out := by
  obtain ⟨q, hq, hnone⟩ := h
  obtain ⟨n₁, res⟩ := out
  cases res with
  | error x => cases hq
  | ok p =>
    obtain rfl := Except.ok.inj hq
    exact ⟨p, rfl, (List.append_eq_nil_iff.1 hnone).2⟩

theorem Uncommitted.then {out : Outcome} (h : Uncommitted out) {progress : ConsensusProgress} (hnone : progress.commits = []) :
    Uncommitted (progress.then out) := by
  obtain ⟨q, hq, hcommits⟩ := h
  refine ⟨progress.extend q, ?_, ?_⟩
  · rw [ConsensusProgress.then, hq]
    rfl
  · simp [ConsensusProgress.extend, hnone, hcommits]

theorem commit_quiet {v : Option String} (h : Uncommitted (n.commit c r v t)) : Quiet n (n.commit c r v t).1 := by
  revert h
  unfold commit
  split
  · exact fun _ => .refl n
  split
  · exact fun _ => .refl n
  split
  · exact fun _ => .refl n
  dsimp only
  split
  · exact fun _ => .refl n
  · rintro ⟨p, hp, hnone⟩
    obtain rfl := Except.ok.inj hp
    cases hnone

/-- The node's own vote, cast in a round it has reached. -/
theorem quiet_cast (k : VoteKind) (hr : r ≤ n.round) (v : Option String) :
    Quiet n ((n.mark k r).hears k r n.local_agent_id v) := by
  refine (quiet_mark k r).trans (quiet_hears k ?_ _ v)
  cases k <;> exact hr

theorem emit_precommit_quiet (hr : r ≤ n.round) {v : Option String} (h : Uncommitted (n.emit_precommit c r v t)) :
    Quiet n (n.emit_precommit c r v t).1 := by
  have hcast := quiet_cast (n := n) .precommit hr v
  revert h
  unfold emit_precommit
  split
  · exact fun _ => .refl n
  dsimp only
  split
  · exact fun _ => hcast
  · split
    · intro h
      exact hcast.trans (commit_quiet (uncommitted_then h))
    · exact fun _ => hcast

theorem emit_prevote_quiet (hr : r ≤ n.round) {v : Option String} (h : Uncommitted (n.emit_prevote c r v t)) :
    Quiet n (n.emit_prevote c r v t).1 := by
  have hcast := quiet_cast (n := n) .prevote hr v
  revert h
  unfold emit_prevote
  split
  · exact fun _ => .refl n
  dsimp only
  split
  · exact fun _ => hcast
  · split
    · intro h
      exact hcast.trans (emit_precommit_quiet (by exact hr) (uncommitted_then h))
    · exact fun _ => hcast

/-! ## Proposals and votes of others -/

theorem record_proposal_quiet (a : AgentId) (r : Nat) (p : ConsensusProposal) : Quiet n (n.record_proposal c a r p).1 := by
  rcases record_proposal_cases c n a r p with ⟨x, hx⟩ | ⟨hx, -⟩ | ⟨-, -, hx⟩
  · rw [hx]
    exact .refl n
  · rw [hx]
    exact .refl n
  · rw [hx]
    exact ⟨⟨rfl, rfl, rfl, rfl⟩, rfl, rfl, rfl, id⟩

theorem observe_local_proposal_quiet {p : ConsensusProposal} (hr : r ≤ n.round)
    (h : Uncommitted (n.observe_local_proposal c r p t)) : Quiet n (n.observe_local_proposal c r p t).1 := by
  have hrecord := record_proposal_quiet (c := c) (n := n) n.local_agent_id r p
  revert h
  unfold observe_local_proposal
  cases hout : n.record_proposal c n.local_agent_id r p with
  | mk n₁ res =>
    rw [hout] at hrecord
    cases res with
    | error x => exact fun _ => hrecord
    | ok u =>
      intro h
      exact hrecord.trans (emit_prevote_quiet (hrecord.round ▸ hr) (uncommitted_then h))

theorem emit_proposal_quiet (h : Uncommitted (n.emit_proposal_if_leader c t)) : Quiet n (n.emit_proposal_if_leader c t).1 := by
  revert h
  unfold emit_proposal_if_leader
  split
  · exact fun _ => .refl n
  split
  · exact fun _ => .refl n
  split
  · exact fun _ => .refl n
  split
  · exact fun _ => .refl n
  · exact fun h => observe_local_proposal_quiet (le_refl _) h

theorem observe_proposal_quiet {a : AgentId} {p : ConsensusProposal} (hr : r ≤ n.round)
    (h : Uncommitted (n.observe_proposal c a r p t)) : Quiet n (n.observe_proposal c a r p t).1 := by
  have hrecord := record_proposal_quiet (c := c) (n := n) a r p
  revert h
  unfold observe_proposal
  cases hout : n.record_proposal c a r p with
  | mk n₁ res =>
    rw [hout] at hrecord
    cases res with
    | error x => exact fun _ => hrecord
    | ok u =>
      dsimp only
      split
      · exact fun _ => hrecord
      · exact fun h => hrecord.trans (emit_prevote_quiet (hrecord.round ▸ hr) h)

theorem observe_prevote_quiet {a : AgentId} {v : Option String} (hr : r ≤ n.round)
    (h : Uncommitted (n.observe_prevote c a r v t)) : Quiet n (n.observe_prevote c a r v t).1 := by
  have hheard := quiet_hears (n := n) .prevote hr a v
  revert h
  unfold observe_prevote
  dsimp only
  split
  · exact fun _ => hheard
  · split
    · exact fun h => hheard.trans (emit_precommit_quiet (by exact hr) h)
    · exact fun _ => hheard

theorem observe_precommit_quiet {a : AgentId} {v : Option String} (hr : r ≤ n.round)
    (h : Uncommitted (n.observe_precommit c a r v t)) : Quiet n (n.observe_precommit c a r v t).1 := by
  have hheard := quiet_hears (n := n) .precommit hr a v
  revert h
  unfold observe_precommit
  dsimp only
  split
  · exact fun _ => hheard
  · split
    · exact fun h => hheard.trans (commit_quiet h)
    · exact fun _ => hheard

theorem observe_body_quiet {m : ConsensusMessage} (hr : m.round ≤ n.round) (h : Uncommitted (n.observe_body c m t)) :
    Quiet n (n.observe_body c m t).1 := by
  revert h
  unfold observe_body
  cases m.body with
  | Proposal p => exact observe_proposal_quiet hr
  | Prevote v => exact observe_prevote_quiet hr
  | Precommit v => exact observe_precommit_quiet hr

/-! ## Alone in a round -/

/-- The first vote in an empty ledger is accepted and is one vote. -/
theorem record_vote_first (a : AgentId) (v : Option String) : (VoteLedger.record_vote {} a v).2 = .ok 1 := by
  simp [VoteLedger.record_vote, VoteLedger.count]

/-- The node's own prevote is not enough for more. -/
theorem emit_prevote_alone {v : Option String} (hnone : n.prevotes r = none) (hthr : 1 < n.committee.threshold) :
    Uncommitted (n.emit_prevote c r v t) := by
  have hfirst : ((ledger n.prevotes r).record_vote n.local_agent_id v).2 = .ok 1 := by
    unfold ledger
    rw [hnone]
    exact record_vote_first _ v
  unfold emit_prevote
  split
  · exact ⟨{}, rfl, rfl⟩
  dsimp only
  rw [hfirst]
  dsimp only
  rw [if_neg fun h => absurd h.1 (Nat.not_le.2 hthr)]
  exact ⟨_, rfl, rfl⟩

/-- A leader stores its proposal and casts its prevote for it. -/
theorem emit_proposal_leads (h : Leads c n n.round) : ∃ p, n.pending_local_proposal = some p ∧
    n.emit_proposal_if_leader c t =
      (({} : ConsensusProgress).push_outbound (n.build_envelope n.round (.Proposal p) t)).then
        ({ n with proposals := n.proposals.insert n.round p }.emit_prevote c n.round (some p.proposal_id) t) := by
  obtain ⟨p, hp⟩ := Option.ne_none_iff_exists'.1 h.pending
  refine ⟨p, hp, ?_⟩
  have hrecord : n.record_proposal c n.local_agent_id n.round p =
      ({ n with proposals := n.proposals.insert n.round p }, .ok ()) := by
    simp only [record_proposal, h.proposer, h.open_round, ne_eq, not_true_eq_false, if_false]
  have hproposer : n.proposer_for_current_round c = .ok n.local_agent_id := h.proposer
  simp only [emit_proposal_if_leader, hproposer, h.open_round, hp, Option.isSome_none, Bool.false_eq_true, ne_eq,
    not_true_eq_false, if_false, observe_local_proposal, hrecord]
  rfl

/-- A node alone in its round makes its proposal, if it has one to make, and goes on. -/
theorem emit_proposal_alone (hnone : n.prevotes n.round = none) (hthr : 1 < n.committee.threshold) :
    Uncommitted (n.emit_proposal_if_leader c t) := by
  by_cases hleads : Leads c n n.round
  · obtain ⟨p, -, hout⟩ := emit_proposal_leads (t := t) hleads
    have hvote : Uncommitted ({ n with proposals := n.proposals.insert n.round p }.emit_prevote c n.round
        (some p.proposal_id) t) := emit_prevote_alone hnone hthr
    rw [hout]
    exact hvote.then rfl
  · rw [emit_proposal_idle hleads]
    exact ⟨{}, rfl, rfl⟩

/-! ## Going on -/

/-- The node is where it was or in a later round, which began at the clock of the call. -/
structure Onward (n n' : ConsensusNode) (t : Int) : Prop where
  kin : Kin n n'
  round : n.round ≤ n'.round
  clock : n'.round_started_at_ms = n.round_started_at_ms ∨ n'.round_started_at_ms = t
  blank : Blank n'

theorem Quiet.onward (h : Quiet n n') (hblank : Blank n) : Onward n n' t :=
  ⟨h.kin, Nat.le_of_eq h.round.symm, .inl h.clock, h.blank hblank⟩

/-- Entering a later round, alone in it. -/
theorem advance_round_onward (hblank : Blank n) (hthr : 1 < n.committee.threshold) (hr : n.round < r) :
    Uncommitted (n.advance_round c r t) ∧ (n.advance_round c r t).1.round = r ∧
      (n.advance_round c r t).1.round_started_at_ms = t ∧ Kin n (n.advance_round c r t).1 ∧
      Blank (n.advance_round c r t).1 := by
  let n₁ : ConsensusNode := { n with round := r, step := .Propose, round_started_at_ms := t }
  have hout : n.advance_round c r t = ConsensusProgress.then { round_advanced := true } (n₁.emit_proposal_if_leader c t) :=
    if_neg (not_le.2 hr)
  have hblank₁ : Blank n₁ := fun r' hr' => hblank r' (hr.trans hr')
  have halone : Uncommitted (n₁.emit_proposal_if_leader c t) := emit_proposal_alone (hblank r hr).1 hthr
  have hquiet := emit_proposal_quiet halone
  rw [hout]
  refine ⟨halone.then rfl, hquiet.round, hquiet.clock, ?_, hquiet.blank hblank₁⟩
  exact ⟨hquiet.kin.id, hquiet.kin.key, hquiet.kin.committee, hquiet.kin.config⟩

theorem readOn_onward {m : ConsensusMessage} (hblank : Blank n) (hthr : 1 < n.committee.threshold)
    (h : Uncommitted (n.readOn c m t)) : Onward n (n.readOn c m t).1 t := by
  unfold readOn at h ⊢
  by_cases hlt : n.round < m.round
  · obtain ⟨⟨q, hq, -⟩, hround, hclock, hkin, hblank'⟩ := @advance_round_onward c n m.round t hblank hthr hlt
    rw [if_pos hlt] at h ⊢
    cases hadv : n.advance_round c m.round t with
    | mk n₁ res =>
      rw [hadv] at h hq hround hclock hkin hblank'
      obtain rfl : res = .ok q := hq
      have hquiet := observe_body_quiet (Nat.le_of_eq hround.symm) h
      refine ⟨hkin.trans hquiet.kin, ?_, .inr (hquiet.clock.trans hclock), hquiet.blank hblank'⟩
      rw [hquiet.round, hround]
      exact Nat.le_of_lt hlt
  · rw [if_neg hlt] at h ⊢
    exact (observe_body_quiet (not_lt.1 hlt) h).onward hblank

theorem handle_envelope_onward {e : ConsensusEnvelope} (hblank : Blank n) (hthr : 1 < n.committee.threshold)
    (h : Uncommitted (n.handle_envelope c e t)) : Onward n (n.handle_envelope c e t).1 t := by
  revert h
  unfold handle_envelope
  dsimp only
  split
  · exact fun _ => (Quiet.refl n).onward hblank
  · rcases observe_message_cases c n e.message t with ⟨res, -, heq⟩ | ⟨-, heq⟩
    · rw [heq]
      exact fun _ => (Quiet.refl n).onward hblank
    · rw [heq]
      exact readOn_onward hblank hthr

theorem excluding_quiet (h r : Nat) (a : AgentId) : Quiet n (n.excluding c h r a) := by
  refine ⟨⟨rfl, rfl, rfl, rfl⟩, rfl, rfl, rfl, fun hblank r' hr' => ?_⟩
  obtain ⟨hpre, hcom⟩ := hblank r' hr'
  have hdrop : ∀ m : Map Nat VoteLedger, m r' = none → drop_votes m r a r' = none := by
    intro m hm
    cases hl : m r with
    | none => simpa only [drop_votes, hl] using hm
    | some l =>
      have hne : r' ≠ r := by
        rintro rfl
        rw [hm] at hl
        cases hl
      simp only [drop_votes, hl, Map.insert_ne _ _ _ _ hne, hm]
  exact ⟨hdrop _ hpre, hdrop _ hcom⟩

/-- A signed envelope that brings no commit leaves the node where it was or takes it on. -/
theorem handle_signed_envelope_onward {e : ConsensusSignedEnvelope} (hblank : Blank n) (hthr : 1 < n.committee.threshold)
    (h : Uncommitted (n.handle_signed_envelope c e t)) : Onward n (n.handle_signed_envelope c e t).1 t := by
  rcases handle_signed_envelope_account_cases c n e t with ⟨-, heq⟩ | ⟨-, heq⟩ | ⟨-, -, -, -, heq⟩
  · rw [heq]
    exact (Quiet.refl n).onward hblank
  · rw [heq]
    exact (excluding_quiet _ _ _).onward hblank
  · rw [heq] at h ⊢
    have hseeing : Quiet n (n.seeing e) := ⟨⟨rfl, rfl, rfl, rfl⟩, rfl, rfl, rfl, id⟩
    have hrest := handle_envelope_onward (hseeing.blank hblank) hthr h
    exact ⟨hseeing.kin.trans hrest.kin, hrest.round, hrest.clock, hrest.blank⟩

end Calls
end Ambush.Consensus

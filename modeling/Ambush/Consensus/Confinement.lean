import Ambush.Consensus.Exclusion
/-!
# What an exclusion costs

Members are excluded for a height and a round, and what a node holds of a round it holds
for its current height only. `drop_sender_round_contributions` is given the round alone, so an
offence at another height takes the offender's votes of that round at the current one.
-/
open Lib

namespace Ambush.Consensus

open ConsensusNode

/-- `handle_signed_envelope` calls `exclude_sender` for the envelope's height, round and sender. -/
structure Triggers (c : Crypto) (n : ConsensusNode) (e : ConsensusSignedEnvelope) : Prop where
  admitted : n.is_excluded e.envelope.message.height e.envelope.message.round e.envelope.message.sender = false
  offends : Offends c n e

theorem exclude_sender_fst (c : Crypto) (n : ConsensusNode) (h r : Nat) (kind : SignedMessageKind) (a : AgentId)
    (reason : ConsensusExclusionReason) (hashes : List String) (t : Int) :
    (n.exclude_sender c h r kind a reason hashes t).1 = n.excluding c h r a := by
  unfold exclude_sender
  dsimp only
  split
  · rfl
  · rfl

theorem Triggers.handled {c : Crypto} {n : ConsensusNode} {e : ConsensusSignedEnvelope} (h : Triggers c n e) (t : Int) :
    (n.handle_signed_envelope c e t).1 =
      n.excluding c e.envelope.message.height e.envelope.message.round e.envelope.message.sender := by
  have hoffends := h.offends
  unfold Offends at hoffends
  unfold handle_signed_envelope
  dsimp only
  split
  · rename_i hex
    exact absurd hex (by simp only [SignedMessageKey.from_message, h.admitted]; decide)
  · split
    · rename_i previous hseen
      rw [hseen] at hoffends
      rw [if_neg hoffends]
      exact exclude_sender_fst ..
    · rename_i hseen
      rw [hseen] at hoffends
      have hbad : e.verifies c = false := hoffends
      rw [hbad]
      exact exclude_sender_fst ..

/-- The node holds nothing of `a` in round `r` of its current height. -/
structure Absent (c : Crypto) (n : ConsensusNode) (r : Nat) (a : AgentId) : Prop where
  proposal : n.committee.proposer_for c n.previous_commit_hash r = .ok a → n.proposals r = none
  votes : ∀ k, n.choice k r a = none

/-- From `n` to `n'` the proposals and votes change for an exclusion at the node's height only, and
then by what `a` itself had in round `r`. -/
structure Confined (c : Crypto) (n n' : ConsensusNode) (h r : Nat) (a : AgentId) : Prop where
  other_height : h ≠ n.height →
    n'.proposals = n.proposals ∧ n'.prevotes = n.prevotes ∧ n'.precommits = n.precommits
  other_rounds : ∀ r', r' ≠ r →
    n'.proposals r' = n.proposals r' ∧ n'.prevotes r' = n.prevotes r' ∧ n'.precommits r' = n.precommits r'
  proposal : n'.proposals r =
    if n.committee.proposer_for c n.previous_commit_hash r = .ok a then none else n.proposals r
  others : ∀ k b, b ≠ a → n'.choice k r b = n.choice k r b ∧
    ∀ v, b ∈ (ledger (n'.votes k) r).voters v ↔ b ∈ (ledger (n.votes k) r).voters v
  own : ∀ k, n'.choice k r a = none

/-- Of the sets of voters, a removal touches the voter's entry only. -/
theorem VoteLedger.mem_remove_voter_ne (l : VoteLedger) {a b : AgentId} (hb : b ≠ a) (v : Option String) :
    b ∈ (l.remove_voter a).voters v ↔ b ∈ l.voters v := by
  unfold remove_voter
  cases l.by_agent a with
  | none => rfl
  | some choice =>
    simp only
    cases hc : l.by_value choice with
    | none => rfl
    | some held =>
      by_cases hv : v = choice
      · subst hv
        have hmem : b ∈ held ↔ b ∈ held.erase a := by simp [hb]
        by_cases hempty : held.erase a = ∅
        · simp [voters, hempty, hc, hmem]
        · simp [voters, hempty, hc, hb]
      · by_cases hempty : held.erase a = ∅
        · simp [voters, hempty, Map.remove_apply, hv]
        · simp [voters, hempty, Map.insert_apply, hv]

theorem drop_votes_ne (m : Map Nat VoteLedger) {r r' : Nat} (hr : r' ≠ r) (a : AgentId) : drop_votes m r a r' = m r' := by
  unfold drop_votes
  cases m r with
  | none => rfl
  | some l => exact Map.insert_ne _ _ _ _ hr

/-- Nothing is dropped of a voter without a vote. -/
theorem drop_votes_absent {m : Map Nat VoteLedger} {r : Nat} {a : AgentId} (h : (ledger m r).by_agent a = none) :
    drop_votes m r a = m := by
  unfold drop_votes
  cases hl : m r with
  | none => rfl
  | some l =>
    have hnone : l.by_agent a = none := by simpa [ledger, hl] using h
    funext r'
    simp only [VoteLedger.remove_voter, hnone, Map.insert_apply]
    split
    case isTrue hr => rw [hr, hl]
    case isFalse => rfl

theorem excluding_of_absent {c : Crypto} {n : ConsensusNode} {r : Nat} {a : AgentId} (habs : Absent c n r a) (h : Nat) :
    (n.excluding c h r a).proposals = n.proposals ∧ (n.excluding c h r a).prevotes = n.prevotes ∧
      (n.excluding c h r a).precommits = n.precommits := by
  refine ⟨?_, drop_votes_absent (habs.votes .prevote), drop_votes_absent (habs.votes .precommit)⟩
  simp only [excluding, drop_sender_round_contributions]
  split
  case isTrue hlead =>
    funext r'
    rw [Map.remove_apply]
    split
    case isTrue hr => rw [hr, habs.proposal hlead]
    case isFalse => rfl
  case isFalse => rfl

/-- An exclusion that leaves proposals and votes as they were found nothing to drop. -/
theorem absent_of_excluding {c : Crypto} {n : ConsensusNode} {h r : Nat} {a : AgentId}
    (hp : (n.excluding c h r a).proposals = n.proposals) (hv : (n.excluding c h r a).prevotes = n.prevotes)
    (hc : (n.excluding c h r a).precommits = n.precommits) : Absent c n r a := by
  refine ⟨fun hlead => ?_, fun k => ?_⟩
  · rw [← hp]
    simp [excluding, drop_sender_round_contributions, hlead]
  · have hvotes : (n.excluding c h r a).votes k = n.votes k := by
      cases k with
      | prevote => exact hv
      | precommit => exact hc
    have hchoice := choice_excluding c n h r r a a k
    rw [if_pos ⟨rfl, rfl⟩] at hchoice
    unfold choice at hchoice ⊢
    rwa [hvotes] at hchoice

theorem confined_excluding_iff (c : Crypto) (n : ConsensusNode) (h r : Nat) (a : AgentId) :
    Confined c n (n.excluding c h r a) h r a ↔ h = n.height ∨ Absent c n r a := by
  constructor
  · intro hconfined
    by_cases hh : h = n.height
    · exact .inl hh
    · obtain ⟨hp, hv, hc⟩ := hconfined.other_height hh
      exact .inr (absent_of_excluding hp hv hc)
  · intro hor
    refine ⟨fun hne => ?_, fun r' hr => ?_, ?_, fun k b hb => ⟨?_, fun v => ?_⟩, fun k => ?_⟩
    · rcases hor with hh | habs
      · exact absurd hh hne
      · exact excluding_of_absent habs h
    · refine ⟨?_, drop_votes_ne _ hr a, drop_votes_ne _ hr a⟩
      simp only [excluding, drop_sender_round_contributions]
      split
      · exact Map.remove_ne _ _ _ hr
      · rfl
    · simp only [excluding, drop_sender_round_contributions]
      split
      · exact Map.remove_self _ _
      · rfl
    · rw [choice_excluding, if_neg fun hba => hb hba.2]
    · rw [ledger_excluding, if_pos rfl]
      exact VoteLedger.mem_remove_voter_ne _ hb v
    · rw [choice_excluding, if_pos ⟨rfl, rfl⟩]

/-- An envelope that excludes its sender changes the node's proposals and votes within the
bounds of the exclusion exactly when it is of the node's height, or the node holds nothing of
its sender in that round. -/
theorem exclusion_confined_iff (c : Crypto) (n : ConsensusNode) (e : ConsensusSignedEnvelope) (t : Int)
    (h : Triggers c n e) :
    Confined c n (n.handle_signed_envelope c e t).1 e.envelope.message.height e.envelope.message.round
        e.envelope.message.sender ↔
      e.envelope.message.height = n.height ∨ Absent c n e.envelope.message.round e.envelope.message.sender := by
  rw [h.handled t]
  exact confined_excluding_iff c n _ _ _

/-- An envelope that does not verify, the first under its key. -/
theorem triggers_of_unverified {c : Crypto} {n : ConsensusNode} {e : ConsensusSignedEnvelope}
    (hadmitted : n.is_excluded e.envelope.message.height e.envelope.message.round e.envelope.message.sender = false)
    (hunseen : (n.seen_signed_messages (.from_message e.envelope.message)).isNone = true) (hbad : e.verifies c = false) :
    Triggers c n e := by
  refine ⟨hadmitted, ?_⟩
  unfold Offends
  rw [Option.isNone_iff_eq_none.1 hunseen]
  exact hbad

theorem forged_triggers : Triggers .plain heardPrevote forged :=
  triggers_of_unverified (by decide +kernel) (by decide +kernel) forged_unverified

theorem exclusion_confined_four :
    Confined .plain heardPrevote (heardPrevote.handle_signed_envelope .plain forged 0).1 1 0 (seat "b") :=
  (exclusion_confined_iff .plain heardPrevote forged 0 forged_triggers).2 (.inl (by decide +kernel))

/-- An unsigned word of `"b"` for round 0 of a height the node is not at. -/
def misplaced : ConsensusSignedEnvelope :=
  let signed := signs "b" 0 0 (.Precommit (some "y"))
  .sign .plain { signed.envelope with message := { signed.envelope.message with height := 7 } } "c"

/-- A node at height 1 gives up the prevote it has from a member over an envelope that names the
member at height 7. -/
theorem misplaced_exclusion_drops_vote :
    Triggers .plain heardPrevote misplaced ∧ heardPrevote.height = 1 ∧ misplaced.envelope.message.height = 7 ∧
      heardPrevote.choice .prevote 0 (seat "b") = some (some "x") ∧
      (heardPrevote.handle_signed_envelope .plain misplaced 0).1.choice .prevote 0 (seat "b") = none ∧
      ¬ Confined .plain heardPrevote (heardPrevote.handle_signed_envelope .plain misplaced 0).1
        misplaced.envelope.message.height misplaced.envelope.message.round misplaced.envelope.message.sender := by
  have hcomputed : heardPrevote.choice .prevote 0 (seat "b") = some (some "x") ∧
      (heardPrevote.handle_signed_envelope .plain misplaced 0).1.choice .prevote 0 (seat "b") = none ∧
      heardPrevote.height = 1 := by
    decide +kernel
  obtain ⟨hheld, hgone, hheight⟩ := hcomputed
  have htriggers : Triggers .plain heardPrevote misplaced :=
    triggers_of_unverified (by decide +kernel) (by decide +kernel) (by decide +kernel)
  refine ⟨htriggers, hheight, rfl, hheld, hgone, fun hconfined => ?_⟩
  have hsame := (hconfined.other_height (by rw [hheight]; decide)).2.1
  have hchoice : (heardPrevote.handle_signed_envelope .plain misplaced 0).1.choice .prevote 0 (seat "b") =
      heardPrevote.choice .prevote 0 (seat "b") := by
    unfold choice
    rw [show (heardPrevote.handle_signed_envelope .plain misplaced 0).1.votes .prevote = heardPrevote.votes .prevote from
      hsame]
  rw [hheld, hgone] at hchoice
  cases hchoice

end Ambush.Consensus

import Ambush.Consensus.Effects
/-!
# Every call is a run of effects

One lemma per function of the node: the effects that account for it. Acting by itself
a node speaks in one round, and a commit ends it (`Acts`). Taking in a message it
first catches up with the message's round, then stores or hears what the message says,
then acts on it (`Delivered`).
-/
open Lib

namespace Ambush.Consensus

open ConsensusNode

/-- Something the node says, or fails to say, in round `r`; a proposal only if it may propose. -/
def Effect.Speaks (r : Nat) (mayPropose : Prop) : Effect → Prop
  | .send env => env.message.round = r ∧ (env.message.body.kind = .Proposal → mayPropose)
  | .spoil _ r' => r' = r
  | _ => False

/-! ## What effects leave alone -/

/-- The parts of a node that no call changes. -/
structure Kin (n n' : ConsensusNode) : Prop where
  id : n'.local_agent_id = n.local_agent_id
  key : n'.local_signing_key = n.local_signing_key
  committee : n'.committee = n.committee
  config : n'.config = n.config

theorem Kin.refl (n : ConsensusNode) : Kin n n := ⟨rfl, rfl, rfl, rfl⟩

theorem Kin.trans {n n₁ n₂ : ConsensusNode} (h : Kin n n₁) (h' : Kin n₁ n₂) : Kin n n₂ :=
  ⟨h'.id.trans h.id, h'.key.trans h.key, h'.committee.trans h.committee, h'.config.trans h.config⟩

/-- The parts of a node that speaking leaves alone. -/
structure Still (n n' : ConsensusNode) : Prop where
  height : n'.height = n.height
  previous : n'.previous_commit_hash = n.previous_commit_hash
  round : n'.round = n.round
  pending : n'.pending_local_proposal = n.pending_local_proposal
  seen : n'.seen_signed_messages = n.seen_signed_messages
  excluded : n'.excluded_members = n.excluded_members

theorem Still.refl (n : ConsensusNode) : Still n n := ⟨rfl, rfl, rfl, rfl, rfl, rfl⟩

theorem Still.trans {n n₁ n₂ : ConsensusNode} (h : Still n n₁) (h' : Still n₁ n₂) : Still n n₂ :=
  ⟨h'.height.trans h.height, h'.previous.trans h.previous, h'.round.trans h.round, h'.pending.trans h.pending,
    h'.seen.trans h.seen, h'.excluded.trans h.excluded⟩

theorem kin_hears (n : ConsensusNode) (k : VoteKind) (r : Nat) (a : AgentId) (v : Option String) :
    Kin n (n.hears k r a v) := by
  cases k <;> exact ⟨rfl, rfl, rfl, rfl⟩

theorem kin_mark (n : ConsensusNode) (k : VoteKind) (r : Nat) : Kin n (n.mark k r) := by
  cases k <;> exact ⟨rfl, rfl, rfl, rfl⟩

theorem still_hears (n : ConsensusNode) (k : VoteKind) (r : Nat) (a : AgentId) (v : Option String) :
    Still n (n.hears k r a v) := by
  cases k <;> exact ⟨rfl, rfl, rfl, rfl, rfl, rfl⟩

theorem still_mark (n : ConsensusNode) (k : VoteKind) (r : Nat) : Still n (n.mark k r) := by
  cases k <;> exact ⟨rfl, rfl, rfl, rfl, rfl, rfl⟩

theorem Does.kin {c : Crypto} {n n' : ConsensusNode} {e : Effect} (h : Does c n e n') : Kin n n' := by
  cases h with
  | pend => exact ⟨rfl, rfl, rfl, rfl⟩
  | enter => exact ⟨rfl, rfl, rfl, rfl⟩
  | propose => exact ⟨rfl, rfl, rfl, rfl⟩
  | store => exact ⟨rfl, rfl, rfl, rfl⟩
  | cast => exact (kin_mark n _ _).trans (kin_hears _ _ _ _ _)
  | spoil => exact (kin_mark n _ _).trans (kin_hears _ _ _ _ _)
  | hear => exact kin_hears n _ _ _ _
  | commit => exact ⟨rfl, rfl, rfl, rfl⟩
  | exclude => exact ⟨rfl, rfl, rfl, rfl⟩
  | see => exact ⟨rfl, rfl, rfl, rfl⟩

theorem run_kin {c : Crypto} {n n' : ConsensusNode} {es : List Effect} (h : Run (Does c) n es n') : Kin n n' := by
  induction h with
  | nil => exact .refl _
  | cons hs _ ih => exact hs.kin.trans ih

theorem Does.still {c : Crypto} {n n' : ConsensusNode} {e : Effect} {r : Nat} {mp : Prop} (h : Does c n e n')
    (he : e.Speaks r mp) : Still n n' := by
  cases h with
  | propose => exact ⟨rfl, rfl, rfl, rfl, rfl, rfl⟩
  | cast => exact (still_mark n _ _).trans (still_hears _ _ _ _ _)
  | spoil => exact (still_mark n _ _).trans (still_hears _ _ _ _ _)
  | _ => exact he.elim

theorem run_still {c : Crypto} {n n' : ConsensusNode} {es : List Effect} {r : Nat} {mp : Prop}
    (h : Run (Does c) n es n') (he : ∀ e ∈ es, e.Speaks r mp) : Still n n' := by
  induction h with
  | nil => exact .refl _
  | cons hs _ ih => exact (hs.still (he _ (by simp))).trans (ih (fun e h => he e (List.mem_cons_of_mem _ h)))

/-! ## The node's own acts -/

/-- The end of an act: after all it says the node stops, or commits. -/
def Ends (c : Crypto) (n : ConsensusNode) (out : Outcome) (r : Nat) : Prop :=
  (out.1 = n ∧ (returned out.2).commits = []) ∨
    ∃ p cm, Does c n (.commit p cm) out.1 ∧ cm.round = r ∧ ∀ cm' ∈ (returned out.2).commits, cm' = cm

/-- What a node does by itself in round `r`: it speaks, and a commit is the last thing.
Everything the call returns was said or committed by it. -/
def Acts (c : Crypto) (n : ConsensusNode) (out : Outcome) (r : Nat) (mayPropose : Prop) : Prop :=
  ∃ es n₁, Run (Does c) n es n₁ ∧ (∀ e ∈ es, e.Speaks r mayPropose) ∧ (∀ env ∈ (returned out.2).outbound, .send env ∈ es) ∧
    Ends c n₁ out r

theorem Acts.mono {c : Crypto} {n : ConsensusNode} {out : Outcome} {r : Nat} {mp mp' : Prop} (h : Acts c n out r mp)
    (hmp : mp → mp') : Acts c n out r mp' := by
  obtain ⟨es, n₁, hrun, hsp, hrest⟩ := h
  refine ⟨es, n₁, hrun, fun e he => ?_, hrest⟩
  have := hsp e he
  cases e with
  | send env => exact ⟨this.1, fun hk => hmp (this.2 hk)⟩
  | spoil => exact this
  | _ => exact this.elim

theorem acts_nothing (c : Crypto) (n : ConsensusNode) (r : Nat) (mp : Prop)
    {res : Except ConsensusError ConsensusProgress} (h : silent res) : Acts c n (n, res) r mp :=
  ⟨[], n, .nil, by simp, by simp [h.1], .inl ⟨rfl, h.2⟩⟩

/-- A vote the node's own slot refuses. -/
theorem Acts.spoiled {c : Crypto} {n n₁ : ConsensusNode} {k : VoteKind} {r : Nat} (h : Does c n (.spoil k r) n₁)
    (mp : Prop) (x : ConsensusError) : Acts c n (n₁, .error x) r mp :=
  ⟨[.spoil k r], n₁, .single h, by simp [Effect.Speaks], by simp [returned], .inl ⟨rfl, rfl⟩⟩

/-- One envelope sent, and then a call whose progress follows it. -/
theorem Acts.sent {c : Crypto} {n n₁ : ConsensusNode} {env : ConsensusEnvelope} {out : Outcome} {r : Nat}
    {mp : Prop} (h₁ : Does c n (.send env) n₁) (he : (Effect.send env).Speaks r mp) (h : Acts c n₁ out r mp) :
    Acts c n ((({} : ConsensusProgress).push_outbound env).then out) r mp := by
  obtain ⟨es, n₂, hrun, hsp, hout, hend⟩ := h
  refine ⟨.send env :: es, n₂, .cons h₁ hrun, by simpa [he] using hsp, ?_, ?_⟩
  all_goals
    obtain ⟨n', res⟩ := out
    cases res <;> simp_all [ConsensusProgress.then, Except.map, returned, ConsensusProgress.extend,
      ConsensusProgress.push_outbound, Ends]

/-- The last envelope a call sends. -/
theorem Acts.sent_last {c : Crypto} {n n₁ : ConsensusNode} {env : ConsensusEnvelope} {r : Nat}
    {mp : Prop} (h₁ : Does c n (.send env) n₁) (he : (Effect.send env).Speaks r mp) :
    Acts c n (n₁, .ok (({} : ConsensusProgress).push_outbound env)) r mp := by
  have := Acts.sent h₁ he (acts_nothing c n₁ r mp silent_empty)
  simpa [ConsensusProgress.then, Except.map, ConsensusProgress.extend, ConsensusProgress.push_outbound] using this

/-- Progress without envelopes or commits put in front of a call's. -/
theorem Acts.then_plain {c : Crypto} {n : ConsensusNode} {progress : ConsensusProgress} {out : Outcome}
    {r : Nat} {mp : Prop} (h : Acts c n out r mp) (ho : progress.outbound = []) (hc : progress.commits = []) :
    Acts c n (progress.then out) r mp := by
  obtain ⟨es, n₁, hrun, hsp, hout, hend⟩ := h
  refine ⟨es, n₁, hrun, hsp, ?_, ?_⟩
  all_goals
    obtain ⟨n', res⟩ := out
    cases res <;> simp_all [ConsensusProgress.then, Except.map, returned, ConsensusProgress.extend, Ends]

theorem commit_acts (c : Crypto) (n : ConsensusNode) {r : Nat} (hr : n.round ≤ r) (v : Option String) (t : Int) :
    Acts c n (n.commit c r v t) r False := by
  unfold commit
  split
  · exact acts_nothing c n r _ silent_empty
  · split
    · exact acts_nothing c n r _ silent_empty
    · rename_i id p hp
      split
      · exact acts_nothing c n r _ silent_empty
      · rename_i hid
        simp only [ne_eq, Decidable.not_not] at hid
        subst hid
        dsimp only
        split
        · exact acts_nothing c n r _ silent_empty
        · rename_i hq
          simp only [not_or, not_lt] at hq
          have hdo := Does.commit (c := c) t hr hp hq.1 hq.2
          exact ⟨[], n, .nil, by simp, by simp [returned], .inr ⟨_, _, hdo, rfl, by simp [returned]⟩⟩

/-- Casting a vote, whichever kind: it is sent, or refused because the node's own slot
already holds another vote. -/
theorem cast_cases (c : Crypto) (n : ConsensusNode) (k : VoteKind) {r : Nat} (hr : n.round ≤ r)
    (hn : r ∉ n.emitted k) (v : Option String) (t : Int) :
    (∀ x, ((ledger (n.votes k) r).record_vote n.local_agent_id v).2 = .error x →
      Does c n (.spoil k r) ((n.mark k r).hears k r n.local_agent_id v)) ∧
    (∀ x, ((ledger (n.votes k) r).record_vote n.local_agent_id v).2 = .ok x →
      Does c n (.send (n.build_envelope r (k.body v) t)) ((n.mark k r).hears k r n.local_agent_id v)) := by
  constructor
  · intro x hx
    obtain ⟨w, hw, hne, -⟩ := VoteLedger.record_vote_error hx
    exact .spoil hr hn ⟨w, hw, hne⟩
  · intro x hx
    refine .cast t hr hn (fun w hw => ?_)
    have hrec := (VoteLedger.record_vote_ok hx).1
    rw [VoteLedger.record_vote_by_agent] at hrec
    simp only [choice] at hw
    simpa [hw] using hrec

theorem emit_precommit_acts (c : Crypto) (n : ConsensusNode) {r : Nat} (hr : n.round ≤ r) (v : Option String)
    (t : Int) : Acts c n (n.emit_precommit c r v t) r False := by
  unfold emit_precommit
  split
  · exact acts_nothing c n r _ silent_empty
  · rename_i hn
    obtain ⟨herr, hok⟩ := cast_cases c n .precommit hr hn v t
    simp only
    split
    · rename_i x hx
      exact .spoiled (herr x hx) _ x
    · rename_i x hx
      have hsend := hok x hx
      split
      · refine .sent hsend ⟨rfl, by simp [build_envelope, ConsensusMessageBody.kind]⟩ (commit_acts c _ ?_ v t)
        exact hr
      · exact .sent_last hsend ⟨rfl, by simp [build_envelope, ConsensusMessageBody.kind]⟩

theorem emit_prevote_acts (c : Crypto) (n : ConsensusNode) {r : Nat} (hr : n.round ≤ r) (v : Option String)
    (t : Int) : Acts c n (n.emit_prevote c r v t) r False := by
  unfold emit_prevote
  split
  · exact acts_nothing c n r _ silent_empty
  · rename_i hn
    obtain ⟨herr, hok⟩ := cast_cases c n .prevote hr hn v t
    simp only
    split
    · rename_i x hx
      exact .spoiled (herr x hx) _ x
    · rename_i x hx
      have hsend := hok x hx
      split
      · refine .sent hsend ⟨rfl, by simp [build_envelope, ConsensusMessageBody.kind]⟩ (emit_precommit_acts c _ ?_ v t)
        exact hr
      · exact .sent_last hsend ⟨rfl, by simp [build_envelope, ConsensusMessageBody.kind]⟩

/-- What recording a proposal does: nothing, or it stores the round's first proposal,
which its proposer sent. -/
theorem record_proposal_cases (c : Crypto) (n : ConsensusNode) (a : AgentId) (r : Nat) (p : ConsensusProposal) :
    (∃ e, n.record_proposal c a r p = (n, .error e)) ∨
    (n.record_proposal c a r p = (n, .ok ()) ∧ n.proposals r = some p) ∨
    (n.committee.proposer_for c n.previous_commit_hash r = .ok a ∧ n.proposals r = none ∧
      n.record_proposal c a r p = ({ n with proposals := n.proposals.insert r p }, .ok ())) := by
  unfold record_proposal
  split
  · exact .inl ⟨_, rfl⟩
  · rename_i expected hexp
    split
    · exact .inl ⟨_, rfl⟩
    · rename_i ha
      simp only [ne_eq, Decidable.not_not] at ha
      subst ha
      split
      · rename_i existing hex
        split
        · rename_i heq
          exact .inr (.inl ⟨rfl, heq ▸ hex⟩)
        · exact .inl ⟨_, rfl⟩
      · rename_i hnone
        exact .inr (.inr ⟨hexp, hnone, rfl⟩)

theorem observe_local_proposal_acts (c : Crypto) (n : ConsensusNode) {r : Nat} (hr : n.round ≤ r)
    (hn : n.proposals r = none) {p : ConsensusProposal} (hq : n.pending_local_proposal = some p) (t : Int) :
    Acts c n (n.observe_local_proposal c r p t) r True := by
  unfold observe_local_proposal
  rcases record_proposal_cases c n n.local_agent_id r p with ⟨e, he⟩ | ⟨-, hp⟩ | ⟨hp, -, he⟩
  · rw [he]
    exact acts_nothing c n r _ (silent_error e)
  · rw [hn] at hp; cases hp
  · rw [he]
    refine .sent (.propose t hr hp hn hq) ⟨rfl, fun _ => trivial⟩ ((emit_prevote_acts c _ ?_ _ t).mono (fun h => h.elim))
    exact hr

theorem emit_proposal_if_leader_acts (c : Crypto) (n : ConsensusNode) (t : Int) :
    Acts c n (n.emit_proposal_if_leader c t) n.round True := by
  unfold emit_proposal_if_leader
  split
  · rename_i e _
    exact acts_nothing c n _ _ (silent_error e)
  · split
    · exact acts_nothing c n _ _ silent_empty
    · split
      · exact acts_nothing c n _ _ silent_empty
      · rename_i hnone
        split
        · exact acts_nothing c n _ _ silent_empty
        · rename_i p hq
          exact observe_local_proposal_acts c n le_rfl (by simpa using hnone) hq t

/-! ## Entering a round -/

/-- The state a node is in once it has caught up with round `r`. -/
def Reaches (c : Crypto) (n : ConsensusNode) (r : Nat) (out : Outcome) : Prop :=
  (r ≤ n.round ∧ out = (n, .ok {})) ∨ (n.round < r ∧ ∃ n₁, Does c n (.enter r) n₁ ∧ Acts c n₁ out r True)

theorem advance_round_reaches (c : Crypto) (n : ConsensusNode) (r : Nat) (t : Int) :
    Reaches c n r (n.advance_round c r t) := by
  unfold advance_round
  split
  · rename_i hr
    exact .inl ⟨hr, rfl⟩
  · rename_i hr
    exact .inr ⟨not_le.1 hr, _, .enter t (not_le.1 hr), (emit_proposal_if_leader_acts c _ t).then_plain rfl rfl⟩

/-! ## Taking in a message -/

/-- What message `m` adds to a node. -/
def Effect.From (m : ConsensusMessage) : Effect → Prop
  | .hear k r a v => r = m.round ∧ a = m.sender ∧ m.body = k.body v
  | .store r a p => r = m.round ∧ a = m.sender ∧ m.body = .Proposal p
  | _ => False

/-- The node has taken in `m`, unless it refused it. -/
def Takes (c : Crypto) (n : ConsensusNode) (m : ConsensusMessage) (n₁ : ConsensusNode) : Prop :=
  n₁ = n ∨ ∃ e : Effect, e.From m ∧ Does c n e n₁

theorem Does.taken {c : Crypto} {n n' : ConsensusNode} {e : Effect} {m : ConsensusMessage} (h : Does c n e n')
    (he : e.From m) : Still n n' := by
  cases h with
  | store => exact ⟨rfl, rfl, rfl, rfl, rfl, rfl⟩
  | hear => exact still_hears n _ _ _ _
  | _ => exact he.elim

theorem observe_body_takes (c : Crypto) (n : ConsensusNode) (m : ConsensusMessage) (t : Int)
    (hr : n.round ≤ m.round) (ha : m.sender ∈ n.committee.members) :
    ∃ n₁, Takes c n m n₁ ∧ Acts c n₁ (n.observe_body c m t) m.round False := by
  unfold observe_body
  split
  · rename_i p hb
    unfold observe_proposal
    rcases record_proposal_cases c n m.sender m.round p with ⟨e, he⟩ | ⟨he, -⟩ | ⟨hp, hnone, he⟩ <;> rw [he] <;>
      simp only
    · exact ⟨n, .inl rfl, acts_nothing c n _ _ (silent_error e)⟩
    · refine ⟨n, .inl rfl, ?_⟩
      split
      · exact acts_nothing c n _ _ silent_empty
      · exact emit_prevote_acts c n hr _ t
    · refine ⟨_, .inr ⟨.store m.round m.sender p, ⟨rfl, rfl, hb⟩, .store hr hp hnone⟩, ?_⟩
      split
      · exact acts_nothing c _ _ _ silent_empty
      · refine emit_prevote_acts c _ ?_ _ t
        exact hr
  · rename_i v hb
    refine ⟨n.hears .prevote m.round m.sender v, .inr ⟨.hear .prevote m.round m.sender v,
      ⟨rfl, rfl, hb⟩, .hear hr ha⟩, ?_⟩
    unfold observe_prevote
    simp only
    split
    · rename_i e _
      exact acts_nothing c _ _ _ (silent_error e)
    · split
      · refine emit_precommit_acts c _ ?_ v t
        exact hr
      · exact acts_nothing c _ _ _ silent_empty
  · rename_i v hb
    refine ⟨n.hears .precommit m.round m.sender v, .inr ⟨.hear .precommit m.round m.sender v,
      ⟨rfl, rfl, hb⟩, .hear hr ha⟩, ?_⟩
    unfold observe_precommit
    simp only
    split
    · rename_i e _
      exact acts_nothing c _ _ _ (silent_error e)
    · split
      · refine commit_acts c _ ?_ v t
        exact hr
      · exact acts_nothing c _ _ _ silent_empty

/-- A node that has caught up with a round is not past it. -/
theorem Reaches.round_le {c : Crypto} {n : ConsensusNode} {r : Nat} {out : Outcome} (h : Reaches c n r out)
    (hr : n.round ≤ r) : out.1.round ≤ r := by
  rcases h with ⟨-, rfl⟩ | ⟨-, n₁, hdo, es, n₂, hrun, hsp, -, hend⟩
  · exact hr
  · have hround : n₂.round = r := by
      rw [(run_still hrun hsp).round]
      cases hdo; rfl
    rcases hend with ⟨heq, -⟩ | ⟨p, cm, hdo, -⟩
    · rw [heq, hround]
    · generalize out.1 = n' at hdo
      cases hdo
      exact Nat.zero_le r

theorem Acts.kin {c : Crypto} {n : ConsensusNode} {r : Nat} {mp : Prop} {out : Outcome} (h : Acts c n out r mp) : Kin n out.1 := by
  obtain ⟨es, n₁, hrun, -, -, ⟨heq, -⟩ | ⟨p, cm, hdo, -⟩⟩ := h
  · rw [heq]; exact run_kin hrun
  · exact (run_kin hrun).trans hdo.kin

theorem Reaches.kin {c : Crypto} {n : ConsensusNode} {r : Nat} {out : Outcome} (h : Reaches c n r out) :
    Kin n out.1 := by
  rcases h with ⟨-, rfl⟩ | ⟨-, n₁, hdo, hact⟩
  · exact .refl n
  · exact hdo.kin.trans hact.kin

/-! ## A whole call -/

/-- The message belongs to what the node is deciding now, or to a later round of it. -/
structure Accepts (n : ConsensusNode) (m : ConsensusMessage) : Prop where
  member : m.sender ∈ n.committee.members
  height : m.height = n.height
  previous : m.previous_commit_hash = n.previous_commit_hash
  round : n.round ≤ m.round

/-- The envelope passes every check on the way to its body. -/
structure Reads (c : Crypto) (n : ConsensusNode) (e : ConsensusSignedEnvelope) : Prop where
  admitted : n.is_excluded e.envelope.message.height e.envelope.message.round e.envelope.message.sender = false
  unseen : n.seen_signed_messages (.from_message e.envelope.message) = none
  verifies : e.verifies c = true
  subject : e.envelope.subject = n.config.subject_layout.round_subject n.committee e.envelope.message.height
    e.envelope.message.round
  accepts : Accepts n e.envelope.message

instance (n : ConsensusNode) (m : ConsensusMessage) : Decidable (Accepts n m) :=
  decidable_of_iff (m.sender ∈ n.committee.members ∧ m.height = n.height ∧
    m.previous_commit_hash = n.previous_commit_hash ∧ n.round ≤ m.round)
    ⟨fun ⟨h₁, h₂, h₃, h₄⟩ => ⟨h₁, h₂, h₃, h₄⟩, fun ⟨h₁, h₂, h₃, h₄⟩ => ⟨h₁, h₂, h₃, h₄⟩⟩

instance (c : Crypto) (n : ConsensusNode) (e : ConsensusSignedEnvelope) : Decidable (Reads c n e) :=
  decidable_of_iff (n.is_excluded e.envelope.message.height e.envelope.message.round e.envelope.message.sender = false ∧
    (n.seen_signed_messages (.from_message e.envelope.message)).isNone = true ∧ e.verifies c = true ∧
    e.envelope.subject = n.config.subject_layout.round_subject n.committee e.envelope.message.height
      e.envelope.message.round ∧ Accepts n e.envelope.message)
    ⟨fun ⟨h₁, h₂, h₃, h₄, h₅⟩ => ⟨h₁, Option.isNone_iff_eq_none.1 h₂, h₃, h₄, h₅⟩,
      fun ⟨h₁, h₂, h₃, h₄, h₅⟩ => ⟨h₁, Option.isNone_iff_eq_none.2 h₂, h₃, h₄, h₅⟩⟩

/-- The envelope counts against its sender: it differs from the one seen under its key,
or it is the first under its key and does not verify. -/
def Offends (c : Crypto) (n : ConsensusNode) (e : ConsensusSignedEnvelope) : Prop :=
  match n.seen_signed_messages (.from_message e.envelope.message) with
  | some previous => previous ≠ e
  | none => e.verifies c = false

/-- The rest of `observe_message` once the message is accepted: catch up with its round,
where an error ends the call, and observe its body. -/
def ConsensusNode.readOn (c : Crypto) (n : ConsensusNode) (m : ConsensusMessage) (t : Int) : Outcome :=
  if n.round < m.round then
    match n.advance_round c m.round t with
    | (n, .error e) => (n, .error e)
    | (n, .ok _) => n.observe_body c m t
  else n.observe_body c m t

/-- An accepted message: the node catches up with its round, takes it in, and acts on it. -/
theorem readOn_takes (c : Crypto) {n : ConsensusNode} {m : ConsensusMessage} (t : Int) (hacc : Accepts n m) :
    ∃ adv n₃, Reaches c n m.round adv ∧ Takes c adv.1 m n₃ ∧ Acts c n₃ (n.readOn c m t) m.round False := by
  unfold readOn
  split
  · -- a later round: the node catches up first, and an error there ends the call
    have hreach := advance_round_reaches c n m.round t
    split
    · rename_i n₂ x hadv
      rw [hadv] at hreach
      exact ⟨_, n₂, hreach, .inl rfl, acts_nothing c n₂ _ _ (silent_error x)⟩
    · rename_i n₂ p hadv
      rw [hadv] at hreach
      obtain ⟨n₃, htake, hact⟩ := observe_body_takes c n₂ m t (hreach.round_le hacc.round)
        (by rw [hreach.kin.committee]; exact hacc.member)
      exact ⟨_, n₃, hreach, htake, hact⟩
  · rename_i hlt
    obtain ⟨n₃, htake, hact⟩ := observe_body_takes c n m t hacc.round hacc.member
    exact ⟨(n, .ok {}), n₃, .inl ⟨not_lt.1 hlt, rfl⟩, htake, hact⟩

/-- A message is refused or ignored as it stands, or it is accepted. -/
theorem observe_message_cases (c : Crypto) (n : ConsensusNode) (m : ConsensusMessage) (t : Int) :
    (∃ res, silent res ∧ n.observe_message c m t = (n, res)) ∨
      Accepts n m ∧ n.observe_message c m t = n.readOn c m t := by
  unfold observe_message
  split
  · exact .inl ⟨_, silent_error _, rfl⟩
  rename_i hmem
  split
  · exact .inl ⟨_, silent_empty, rfl⟩
  split
  · exact .inl ⟨_, silent_error _, rfl⟩
  split
  · exact .inl ⟨_, silent_empty, rfl⟩
  split
  · exact .inl ⟨_, silent_empty, rfl⟩
  rename_i hle hge hprev hround
  simp only [ConsensusCommittee.contains, Bool.not_eq_true', decide_eq_false_iff_not, Decidable.not_not] at hmem
  simp only [ne_eq, Decidable.not_not] at hprev
  exact .inr ⟨⟨hmem, le_antisymm (not_lt.1 hge) (not_lt.1 hle), hprev, not_lt.1 hround⟩, rfl⟩

/-- The ways through `handle_signed_envelope`. -/
inductive Handled (c : Crypto) (n : ConsensusNode) (e : ConsensusSignedEnvelope) (t : Int) : Outcome → Prop
  | ignored {res} (hres : silent res) : Handled c n e t (n, res)
  | excluded {res} (hres : silent res) (he : Offends c n e) :
      Handled c n e t (n.excluding c e.envelope.message.height e.envelope.message.round e.envelope.message.sender, res)
  | unread {res} (hsee : Does c n (.see e) (n.seeing e)) (hres : silent res) : Handled c n e t (n.seeing e, res)
  | read (hreads : Reads c n e) : Handled c n e t ((n.seeing e).readOn c e.envelope.message t)

theorem exclude_sender_handled (c : Crypto) (n : ConsensusNode) {e : ConsensusSignedEnvelope} (he : Offends c n e)
    (kind : SignedMessageKind) (reason : ConsensusExclusionReason) (hashes : List String) (t t' : Int) :
    Handled c n e t' (n.exclude_sender c e.envelope.message.height e.envelope.message.round kind
      e.envelope.message.sender reason hashes t) := by
  unfold exclude_sender
  dsimp only
  split
  · exact .excluded silent_empty he
  · exact .excluded ⟨rfl, rfl⟩ he

theorem observe_message_handled {c : Crypto} {n : ConsensusNode} {e : ConsensusSignedEnvelope}
    (hsee : Does c n (.see e) (n.seeing e)) (hreads : Accepts n e.envelope.message → Reads c n e) (t : Int) :
    Handled c n e t ((n.seeing e).observe_message c e.envelope.message t) := by
  rcases observe_message_cases c (n.seeing e) e.envelope.message t with ⟨res, hres, heq⟩ | ⟨hacc, heq⟩
  · rw [heq]
    exact .unread hsee hres
  · rw [heq]
    exact .read (hreads ⟨hacc.member, hacc.height, hacc.previous, hacc.round⟩)

theorem handle_signed_envelope_handled (c : Crypto) (n : ConsensusNode) (e : ConsensusSignedEnvelope) (t : Int) :
    Handled c n e t (n.handle_signed_envelope c e t) := by
  unfold handle_signed_envelope
  dsimp only
  split
  · exact .ignored silent_empty
  rename_i hadmitted
  split
  · rename_i previous hseen
    split
    · exact .ignored silent_empty
    · rename_i hne
      exact exclude_sender_handled c n (by simpa only [Offends, hseen] using hne) _ _ _ t t
  · rename_i hseen
    split
    · rename_i hbad
      exact exclude_sender_handled c n (by simpa only [Offends, hseen, Bool.not_eq_true'] using hbad) _ _ _ t t
    · rename_i hver
      have hsee : Does c n (.see e) (n.seeing e) := .see hseen (by simpa using hver)
      unfold handle_envelope
      dsimp only
      split
      · exact .unread hsee (silent_error _)
      · rename_i hsubject
        refine observe_message_handled hsee (fun hacc => ?_) t
        exact ⟨Bool.eq_false_iff.2 hadmitted, hseen, by simpa using hver, not_not.1 hsubject, hacc⟩

/-- What becomes of a delivered envelope. -/
inductive Delivered (c : Crypto) (n : ConsensusNode) (e : ConsensusSignedEnvelope) : Outcome → Prop
  | ignored {res} (hres : silent res) : Delivered c n e (n, res)
  | excluded {res} (hres : silent res) (he : Offends c n e) :
      Delivered c n e (n.excluding c e.envelope.message.height e.envelope.message.round e.envelope.message.sender, res)
  | unread {res} (hsee : Does c n (.see e) (n.seeing e)) (hres : silent res) : Delivered c n e (n.seeing e, res)
  | read {n₃ adv out} (hsee : Does c n (.see e) (n.seeing e)) (hreads : Reads c n e)
      (hreach : Reaches c (n.seeing e) e.envelope.message.round adv) (htake : Takes c adv.1 e.envelope.message n₃)
      (hact : Acts c n₃ out e.envelope.message.round False) : Delivered c n e out

theorem Handled.delivered {c : Crypto} {n : ConsensusNode} {e : ConsensusSignedEnvelope} {t : Int} {out : Outcome}
    (h : Handled c n e t out) : Delivered c n e out := by
  cases h with
  | ignored hres => exact .ignored hres
  | excluded hres he => exact .excluded hres he
  | unread hsee hres => exact .unread hsee hres
  | read hreads =>
    have hsee : Does c n (.see e) (n.seeing e) := .see hreads.unseen hreads.verifies
    have hacc := hreads.accepts
    have hacc' : Accepts (n.seeing e) e.envelope.message := ⟨hacc.member, hacc.height, hacc.previous, hacc.round⟩
    obtain ⟨adv, n₃, hreach, htake, hact⟩ := readOn_takes c t hacc'
    exact .read hsee hreads hreach htake hact

/-- What becomes of a call. -/
inductive Called (c : Crypto) (n : ConsensusNode) : Input → Outcome → Prop
  | queue {p t n₁ out} (hpend : Does c n .pend n₁) (hq : n₁.pending_local_proposal = some p)
      (hact : Acts c n₁ out n.round True) : Called c n (.queue p t) out
  | wait {t} : Called c n (.tick t) (n, .ok {})
  | timeout {t out} (ht : n.config.round_timeout_ms ≤ t - n.round_started_at_ms)
      (hreach : Reaches c n (n.round + 1) out) : Called c n (.tick t) out
  | deliver {e t out} (h : Delivered c n e out) : Called c n (.deliver e t) out

theorem call_called {c : Crypto} {n : ConsensusNode} {input : Input} {out : Outcome} (h : n.call c input = some out) :
    Called c n input out := by
  cases input with
  | queue p t =>
    simp only [call, Option.some.injEq] at h
    subst h
    exact .queue (.pend p) rfl (emit_proposal_if_leader_acts c _ t)
  | tick t =>
    simp only [call, tick] at h
    split at h
    · cases h
    rename_i elapsed helapsed
    split at h
    · simp only [Option.some.injEq] at h
      subst h; exact .wait
    rename_i htime
    split at h
    · cases h
    rename_i target htarget
    simp only [Option.some.injEq] at h
    subst h
    rw [checkedAdd_eq_some htarget]
    refine .timeout ?_ (advance_round_reaches c n _ t)
    rw [← checkedSubI_eq_some helapsed]
    exact not_lt.1 htime
  | deliver e t =>
    simp only [call, Option.some.injEq] at h
    subst h
    exact .deliver (handle_signed_envelope_handled c n e t).delivered

end Ambush.Consensus

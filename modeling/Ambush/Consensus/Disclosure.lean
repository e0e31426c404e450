import Ambush.Consensus.Account
import Ambush.Consensus.Heads
/-!
# What a node says to itself

A node records its proposals and votes in its own ledgers and returns them for the others. What
it records while it joins the round of a later message is not returned: `observe_message` drops
the progress of `advance_round`. A run in which no node joins a round it is to propose in, and in
which nobody else speaks in the node's name, returns everything.
-/
open Lib Relation

namespace Ambush.Consensus

open ConsensusNode

/-- The message a call takes in: the one it brings, when it passes every check. -/
def taken (c : Crypto) (n : ConsensusNode) : Invocation → Option ConsensusMessage
  | .call (.deliver e _) => if Reads c n e then some e.envelope.message else none
  | .envelope envelope _ =>
    if envelope.subject = n.config.subject_layout.round_subject n.committee envelope.message.height
        envelope.message.round ∧ Accepts n envelope.message then some envelope.message
    else none
  | _ => none

/-- The node has a vote or a proposal where the message would record one. -/
def Recorded (n : ConsensusNode) (m : ConsensusMessage) : Prop :=
  (∀ k v, m.body = VoteKind.body k v → n.choice k m.round m.sender ≠ none) ∧
    ∀ p, m.body = .Proposal p → n.proposals m.round ≠ none

/-- A call before which nothing will be kept back: the node does not join a round that it is to
propose in, what it takes in under its own name it holds already or has returned, and its own
slots hold only votes it has cast. -/
structure Candid (c : Crypto) (n : ConsensusNode) (log : List ConsensusEnvelope) (invocation : Invocation) : Prop where
  joins : ∀ m, taken c n invocation = some m → n.round < m.round → ¬ Leads c n m.round
  echoes : ∀ m, taken c n invocation = some m → m.sender = n.local_agent_id →
    Recorded n m ∨ ∃ env ∈ log, Says env n.local_agent_id n.epoch m.round m.body
  slots : ∀ k r v, n.choice k r n.local_agent_id = some v → r ∈ n.emitted k

/-! ## No vote is refused -/

/-- Said, refused or committed. -/
def Effect.Uttered : Effect → Prop
  | .send _ | .spoil _ _ | .commit _ _ => True
  | _ => False

theorem commit_account_uttered (c : Crypto) (n : ConsensusNode) (r : Nat) (v : Option String) (t : Int) :
    ∀ e ∈ n.commit_account c r v t, e.Uttered ∧ ∀ k r, e ≠ .spoil k r := by
  intro e he
  obtain ⟨cm, -, rfl⟩ := List.mem_map.1 he
  exact ⟨trivial, by simp⟩

theorem emit_precommit_account_uttered (c : Crypto) (n : ConsensusNode) (r : Nat) (v : Option String) (t : Int) :
    ∀ e ∈ n.emit_precommit_account c r v t, e.Uttered ∧
      ((∀ w, n.choice .precommit r n.local_agent_id = some w → r ∈ n.emitted .precommit) → ∀ k r, e ≠ .spoil k r) := by
  intro e he
  unfold emit_precommit_account at he
  split at he
  · cases he
  · rename_i hn
    dsimp only at he
    cases hx : ((ledger n.precommits r).record_vote n.local_agent_id v).2 with
    | error x =>
      rw [hx] at he
      rw [List.mem_singleton.1 he]
      refine ⟨trivial, fun hslot => ?_⟩
      obtain ⟨w, hw, -⟩ := VoteLedger.record_vote_error hx
      exact absurd (hslot w hw) hn
    | ok count =>
      rw [hx] at he
      rcases List.mem_cons.1 he with rfl | he
      · exact ⟨trivial, fun _ => by simp⟩
      · split at he
        · obtain ⟨hu, hs⟩ := commit_account_uttered c _ r v t e he
          exact ⟨hu, fun _ => hs⟩
        · cases he

theorem emit_prevote_account_uttered (c : Crypto) (n : ConsensusNode) (r : Nat) (v : Option String) (t : Int) :
    ∀ e ∈ n.emit_prevote_account c r v t, e.Uttered ∧
      ((∀ k w, n.choice k r n.local_agent_id = some w → r ∈ n.emitted k) → ∀ k r, e ≠ .spoil k r) := by
  intro e he
  unfold emit_prevote_account at he
  split at he
  · cases he
  · rename_i hn
    dsimp only at he
    cases hx : ((ledger n.prevotes r).record_vote n.local_agent_id v).2 with
    | error x =>
      rw [hx] at he
      rw [List.mem_singleton.1 he]
      refine ⟨trivial, fun hslot => ?_⟩
      obtain ⟨w, hw, -⟩ := VoteLedger.record_vote_error hx
      exact absurd (hslot .prevote w hw) hn
    | ok count =>
      rw [hx] at he
      rcases List.mem_cons.1 he with rfl | he
      · exact ⟨trivial, fun _ => by simp⟩
      · split at he
        · obtain ⟨hu, hs⟩ := emit_precommit_account_uttered c _ r v t e he
          refine ⟨hu, fun hslot => hs fun w hw => ?_⟩
          -- the prevote just cast is not in the precommits
          exact hslot .precommit w hw
        · cases he

theorem emit_proposal_account_uttered (c : Crypto) (n : ConsensusNode) (t : Int) :
    ∀ e ∈ n.emit_proposal_account c t, e.Uttered ∧
      ((∀ k w, n.choice k n.round n.local_agent_id = some w → n.round ∈ n.emitted k) → ∀ k r, e ≠ .spoil k r) := by
  intro e he
  unfold emit_proposal_account at he
  split at he
  · cases he
  · split at he
    · rcases List.mem_cons.1 he with rfl | he
      · exact ⟨trivial, fun _ => by simp⟩
      · obtain ⟨hu, hs⟩ := emit_prevote_account_uttered c _ n.round _ t e he
        exact ⟨hu, hs⟩
    · cases he

/-- Joining a round, and then speaking in it. -/
theorem advance_account_uttered (c : Crypto) (n : ConsensusNode) (r : Nat) (t : Int) :
    ∀ e ∈ n.advance_account c r t, (e = .enter r ∨ e.Uttered) ∧
      ((∀ k w, n.choice k r n.local_agent_id = some w → r ∈ n.emitted k) → ∀ k r, e ≠ .spoil k r) := by
  intro e he
  unfold advance_account at he
  split at he
  · cases he
  · rcases List.mem_cons.1 he with rfl | he
    · exact ⟨.inl rfl, fun _ => by simp⟩
    · obtain ⟨hu, hs⟩ := emit_proposal_account_uttered c _ t e he
      exact ⟨.inr hu, hs⟩

/-- What a message brings is stored or heard first, under its sender's name; the rest is said. -/
theorem observe_body_account_eq (c : Crypto) (n : ConsensusNode) (m : ConsensusMessage) (t : Int)
    (hslot : ∀ k w, n.choice k m.round n.local_agent_id = some w → m.round ∈ n.emitted k) :
    ∃ head rest, n.observe_body_account c m t = head ++ rest ∧
      (head = [] ∨ ∃ e, head = [e] ∧ e.From m ∧ ∀ r a p, e = .store r a p → n.proposals m.round = none) ∧
      ∀ e ∈ rest, e.Uttered ∧ ∀ k r, e ≠ .spoil k r := by
  unfold observe_body_account
  cases hb : m.body with
  | Proposal p =>
    dsimp only
    rcases record_proposal_cases c n m.sender m.round p with ⟨x, hx⟩ | ⟨hx, hsome⟩ | ⟨hp, hnone, hx⟩
    · rw [hx]
      exact ⟨[], [], rfl, .inl rfl, by simp⟩
    · rw [hx, hsome]
      refine ⟨[], _, rfl, .inl rfl, fun e he => ?_⟩
      obtain ⟨hu, hs⟩ := emit_prevote_account_uttered c n m.round _ t e he
      exact ⟨hu, hs hslot⟩
    · rw [hx, hnone]
      refine ⟨_, _, rfl, .inr ⟨_, rfl, ⟨rfl, rfl, hb⟩, fun _ _ _ _ => rfl⟩, fun e he => ?_⟩
      obtain ⟨hu, hs⟩ := emit_prevote_account_uttered c _ m.round _ t e he
      exact ⟨hu, hs hslot⟩
  | Prevote v =>
    refine ⟨[.hear .prevote m.round m.sender v], _, rfl, .inr ⟨_, rfl, ⟨rfl, rfl, hb⟩, by simp⟩, fun e he => ?_⟩
    cases hx : ((ledger n.prevotes m.round).record_vote m.sender v).2 with
    | error x =>
      rw [hx] at he
      cases he
    | ok count =>
      rw [hx] at he
      dsimp only at he
      split at he
      · obtain ⟨hu, hs⟩ := emit_precommit_account_uttered c _ m.round _ t e he
        exact ⟨hu, hs fun w hw => hslot .precommit w hw⟩
      · cases he
  | Precommit v =>
    refine ⟨[.hear .precommit m.round m.sender v], _, rfl, .inr ⟨_, rfl, ⟨rfl, rfl, hb⟩, by simp⟩, fun e he => ?_⟩
    cases hx : ((ledger n.precommits m.round).record_vote m.sender v).2 with
    | error x =>
      rw [hx] at he
      cases he
    | ok count =>
      rw [hx] at he
      dsimp only at he
      split at he
      · exact commit_account_uttered c _ m.round _ t e he
      · cases he

/-! ## One call -/

theorem advance_account_idle {c : Crypto} {n : ConsensusNode} {r : Nat} (h : n.round < r → ¬ Leads c n r) (t : Int) :
    ∀ e ∈ n.advance_account c r t, e = .enter r := by
  intro e he
  unfold advance_account at he
  split at he
  · cases he
  · rename_i hr
    have hidle := h (not_le.1 hr)
    rcases List.mem_cons.1 he with rfl | he
    · rfl
    · unfold emit_proposal_account at he
      split at he
      · cases he
      · rename_i p hp
        split at he
        · rename_i hlead
          exact absurd ⟨hlead.1, Option.isNone_iff_eq_none.1 hlead.2, by simp [show n.pending_local_proposal = some p from hp]⟩ hidle
        · cases he

/-- The node as it takes an accepted message in, when it says nothing on joining the round. -/
def ConsensusNode.joined (n : ConsensusNode) (r : Nat) (t : Int) : ConsensusNode :=
  if n.round < r then { n with round := r, step := .Propose, round_started_at_ms := t } else n

theorem read_idle {c : Crypto} {n : ConsensusNode} {m : ConsensusMessage} (h : n.round < m.round → ¬ Leads c n m.round)
    (t : Int) : n.readOn c m t = (n.joined m.round t).observe_body c m t ∧
      n.read_account c m t = n.advance_account c m.round t ++ (n.joined m.round t).observe_body_account c m t := by
  unfold readOn read_account joined
  by_cases hlt : n.round < m.round
  · rw [if_pos hlt, if_pos hlt, advance_round_idle hlt (h hlt) t]
    exact ⟨rfl, rfl⟩
  · have hstay : n.advance_round c m.round t = (n, .ok {}) := if_pos (not_lt.1 hlt)
    rw [if_neg hlt, if_neg hlt, hstay]
    exact ⟨rfl, rfl⟩

/-- The parts of a node that joining a round leaves alone. -/
structure Joins (n n' : ConsensusNode) : Prop where
  kin : Kin n n'
  epoch : n'.epoch = n.epoch
  choice : ∀ k r a, n'.choice k r a = n.choice k r a
  emitted : ∀ k, n'.emitted k = n.emitted k
  proposals : n'.proposals = n.proposals

theorem joins_joined (n : ConsensusNode) (r : Nat) (t : Int) : Joins n (n.joined r t) := by
  unfold joined
  split
  · exact ⟨⟨rfl, rfl, rfl, rfl⟩, rfl, fun k _ _ => by cases k <;> rfl, fun k => by cases k <;> rfl, rfl⟩
  · exact ⟨.refl n, rfl, fun _ _ _ => rfl, fun _ => rfl, rfl⟩

/-! ## Everything under the node's own name is in the log -/

/-- Every vote and proposal the node holds in its own name is in an envelope of the log. -/
structure Voiced (c : Crypto) (log : List ConsensusEnvelope) (n : ConsensusNode) : Prop where
  votes : ∀ k r v, n.choice k r n.local_agent_id = some v →
    ∃ env ∈ log, Says env n.local_agent_id n.epoch r (k.body v)
  proposals : ∀ r p, n.proposals r = some p →
    n.committee.proposer_for c n.previous_commit_hash r = .ok n.local_agent_id →
    ∃ env ∈ log, Says env n.local_agent_id n.epoch r (.Proposal p)

theorem Voiced.mono {c : Crypto} {log log' : List ConsensusEnvelope} {n : ConsensusNode} (h : Voiced c log n)
    (hsub : ∀ env ∈ log, env ∈ log') : Voiced c log' n := by
  refine ⟨fun k r v hv => ?_, fun r p hp hlead => ?_⟩
  · obtain ⟨env, henv, hs⟩ := h.votes k r v hv
    exact ⟨env, hsub env henv, hs⟩
  · obtain ⟨env, henv, hs⟩ := h.proposals r p hp hlead
    exact ⟨env, hsub env henv, hs⟩

/-- A node that differs in nothing a log has to account for. -/
theorem Voiced.congr {c : Crypto} {log : List ConsensusEnvelope} {n n' : ConsensusNode} (h : Voiced c log n)
    (hid : n'.local_agent_id = n.local_agent_id) (hcommittee : n'.committee = n.committee) (hepoch : n'.epoch = n.epoch)
    (hchoice : ∀ k r v, n'.choice k r n.local_agent_id = some v → n.choice k r n.local_agent_id = some v)
    (hproposals : ∀ r p, n'.proposals r = some p → n.proposals r = some p) : Voiced c log n' := by
  have hprevious : n'.previous_commit_hash = n.previous_commit_hash := congrArg Prod.snd hepoch
  refine ⟨fun k r v hv => ?_, fun r p hp hlead => ?_⟩
  · rw [hid] at hv ⊢
    rw [hepoch]
    exact h.votes k r v (hchoice k r v hv)
  · rw [hid, hcommittee, hprevious] at hlead
    rw [hid, hepoch]
    exact h.proposals r p (hproposals r p hp) hlead

/-- An effect whose own words are in the log. -/
def Effect.Backed (log : List ConsensusEnvelope) (n : ConsensusNode) : Effect → Prop
  | .send env => env ∈ log
  | .hear k r a v => a = n.local_agent_id → n.choice k r a = none → ∃ env ∈ log, Says env a n.epoch r (k.body v)
  | .store r a p => a = n.local_agent_id → ∃ env ∈ log, Says env a n.epoch r (.Proposal p)
  | _ => True

theorem Effect.Backed.mono {log log' : List ConsensusEnvelope} {n : ConsensusNode} {e : Effect} (h : e.Backed log n)
    (hsub : ∀ env ∈ log, env ∈ log') : e.Backed log' n := by
  cases e with
  | send env => exact hsub env h
  | hear k r a v =>
    intro hlocal hnone
    obtain ⟨env, henv, hs⟩ := h hlocal hnone
    exact ⟨env, hsub env henv, hs⟩
  | store r a p =>
    intro hlocal
    obtain ⟨env, henv, hs⟩ := h hlocal
    exact ⟨env, hsub env henv, hs⟩
  | _ => trivial

/-- A vote heard or cast, given that it is in the log if it is new and the node's own. -/
theorem Voiced.hears {c : Crypto} {log : List ConsensusEnvelope} {n n' : ConsensusNode} (h : Voiced c log n) {k : VoteKind}
    {r : Nat} {a : AgentId} {v : Option String} (hstill : Still n n') (hkin : Kin n n')
    (hchoice : ∀ k' r' b, n'.choice k' r' b =
      if k' = k ∧ r' = r ∧ b = a ∧ n.choice k r a = none then some v else n.choice k' r' b)
    (hproposals : n'.proposals = n.proposals)
    (hlog : a = n.local_agent_id → n.choice k r a = none → ∃ env ∈ log, Says env a n.epoch r (k.body v)) :
    Voiced c log n' := by
  refine ⟨fun k' r' w hw => ?_, fun r' p hp hlead => ?_⟩
  · rw [hkin.id] at hw ⊢
    rw [hstill.epoch]
    rw [hchoice] at hw
    split at hw
    · rename_i hnew
      obtain ⟨rfl, rfl, hlocal, hnone⟩ := hnew
      obtain rfl := Option.some.inj hw
      obtain ⟨env, henv, hs⟩ := hlog hlocal.symm hnone
      exact ⟨env, henv, hlocal ▸ hs⟩
    · exact h.votes k' r' w hw
  · rw [hkin.id, hkin.committee, hstill.previous] at hlead
    rw [hkin.id, hstill.epoch]
    exact h.proposals r' p (hproposals ▸ hp) hlead

theorem proposals_hears (n : ConsensusNode) (k : VoteKind) (r : Nat) (a : AgentId) (v : Option String) :
    (n.hears k r a v).proposals = n.proposals := by
  cases k with
  | prevote => rfl
  | precommit => rfl

theorem proposals_mark (n : ConsensusNode) (k : VoteKind) (r : Nat) : (n.mark k r).proposals = n.proposals := by
  cases k with
  | prevote => rfl
  | precommit => rfl

theorem Does.voiced {c : Crypto} {log : List ConsensusEnvelope} {n n' : ConsensusNode} {e : Effect} (hd : Does c n e n')
    (h : Voiced c log n) (hb : e.Backed log n) : Voiced c log n' := by
  have hvoted : ∀ k r v, (n.choice k r n.local_agent_id = none →
      ∃ env ∈ log, Says env n.local_agent_id n.epoch r (k.body v)) →
      Voiced c log ((n.mark k r).hears k r n.local_agent_id v) := by
    intro k r v hlog
    refine h.hears ((still_mark n k r).trans (still_hears _ k r _ v)) ((kin_mark n k r).trans (kin_hears _ k r _ v))
      (fun k' r' b => ?_) ?_ (fun _ => hlog)
    · rw [choice_hears]
      simp only [choice_mark]
    · rw [proposals_hears, proposals_mark]
  have hplaced : ∀ r p a, n.committee.proposer_for c n.previous_commit_hash r = .ok a →
      (a = n.local_agent_id → ∃ env ∈ log, Says env n.local_agent_id n.epoch r (.Proposal p)) →
      Voiced c log { n with proposals := n.proposals.insert r p } := by
    intro r p a hlead hlog
    refine ⟨fun k r' v hv => h.votes k r' v hv, fun r' q hq hlocal => ?_⟩
    simp only [Map.insert_apply] at hq
    split at hq
    · rename_i hr
      obtain rfl := Option.some.inj hq
      subst hr
      exact hlog (Except.ok.inj (hlead.symm.trans hlocal))
    · exact h.proposals r' q hq hlocal
  cases hd with
  | pend p => exact h.congr rfl rfl rfl (fun k _ _ hv => hv) (fun _ _ hp => hp)
  | enter t hr => exact h.congr rfl rfl rfl (fun k _ _ hv => hv) (fun _ _ hp => hp)
  | propose t hr hp hn hq => exact hplaced _ _ _ hp fun _ => ⟨_, hb, says_build_envelope n _ _ t⟩
  | store hr hp hn =>
    refine hplaced _ _ _ hp fun ha => ?_
    obtain ⟨env, henv, hs⟩ := hb ha
    exact ⟨env, henv, ha ▸ hs⟩
  | cast t hr hn hv => exact hvoted _ _ _ fun _ => ⟨_, hb, says_build_envelope n _ _ t⟩
  | spoil hr hn hv =>
    obtain ⟨w, hw, -⟩ := hv
    exact hvoted _ _ _ fun hnone => by rw [hw] at hnone; cases hnone
  | @hear k r a v hr ha =>
    exact h.hears (still_hears n k r a v) (kin_hears n k r a v) (fun k' r' b => choice_hears n k k' r r' a b v)
      (proposals_hears n k r a v) hb
  | commit t hr hp hv hc =>
    refine ⟨fun k r v hv => ?_, fun r p hp => ?_⟩
    · rw [choice_after_commit] at hv
      cases hv
    · cases hp
  | @exclude h' r a =>
    refine h.congr rfl rfl rfl (fun k r' v hv => ?_) (fun r' p hp => ?_)
    · rw [choice_excluding] at hv
      split at hv
      · cases hv
      · exact hv
    · simp only [excluding, drop_sender_round_contributions] at hp
      split at hp
      · rw [Map.remove_apply] at hp
        split at hp
        · cases hp
        · exact hp
      · exact hp
  | see hn hv => exact h.congr rfl rfl rfl (fun k _ _ hv => hv) (fun _ _ hp => hp)

/-- Effects that hear nobody. -/
theorem run_voiced {c : Crypto} {log : List ConsensusEnvelope} {n n' : ConsensusNode} {es : List Effect}
    (hrun : Run (Does c) n es n') (h : Voiced c log n) (hback : ∀ e ∈ es, ∀ s, e.Backed log s) : Voiced c log n' :=
  hrun.inv (fun s e _ he hs hd => hd.voiced hs (hback e he s)) h

/-- Nothing a call records in the node's own name is kept back: what it says and commits it
returns, and what it takes in under that name is in the log. -/
structure Disclosed (c : Crypto) (n : ConsensusNode) (log : List ConsensusEnvelope) (es : List Effect) (out : Outcome) :
    Prop where
  whole : Whole es out.2
  voiced : Voiced c (log ++ (returned out.2).outbound) out.1
  heard : ∀ k r v, .hear k r n.local_agent_id v ∈ es → n.choice k r n.local_agent_id = none →
    ∃ env ∈ log, Says env n.local_agent_id n.epoch r (k.body v)
  stored : ∀ r p, .store r n.local_agent_id p ∈ es → ∃ env ∈ log, Says env n.local_agent_id n.epoch r (.Proposal p)

/-- Effects that bring nothing in from outside. -/
def Effect.Inward : Effect → Prop
  | .hear .. | .store .. => False
  | _ => True

theorem Effect.Uttered.inward {e : Effect} (h : e.Uttered) : e.Inward := by
  cases e with
  | hear => exact h
  | store => exact h
  | _ => trivial

theorem Whole.backed {es : List Effect} {res : Except ConsensusError ConsensusProgress} (h : Whole es res)
    (log : List ConsensusEnvelope) {e : Effect} (he : e ∈ es) (hinward : e.Inward) (s : ConsensusNode) :
    e.Backed (log ++ (returned res).outbound) s := by
  cases e with
  | send env => exact List.mem_append_right _ (h.1 env he)
  | hear => exact hinward.elim
  | store => exact hinward.elim
  | _ => trivial

theorem disclosed_inward {c : Crypto} {n : ConsensusNode} {log : List ConsensusEnvelope} {es : List Effect} {out : Outcome}
    (hrun : Run (Does c) n es out.1) (hwhole : Whole es out.2) (hinward : ∀ e ∈ es, e.Inward) (h : Voiced c log n) :
    Disclosed c n log es out := by
  refine ⟨hwhole, ?_, fun k r v hmem => (hinward _ hmem).elim, fun r p hmem => (hinward _ hmem).elim⟩
  exact run_voiced hrun (h.mono fun env henv => List.mem_append_left _ henv)
    fun e he s => hwhole.backed log he (hinward e he) s

theorem disclosed_silent {c : Crypto} {n : ConsensusNode} {log : List ConsensusEnvelope}
    (res : Except ConsensusError ConsensusProgress) (h : Voiced c log n) : Disclosed c n log [] (n, res) :=
  disclosed_inward .nil ⟨by simp, by simp⟩ (by simp) h

/-- What a message brings under the node's own name is new only if the log has it. -/
theorem backed_from {n n' : ConsensusNode} {log : List ConsensusEnvelope} {m : ConsensusMessage} (hj : Joins n n')
    (hecho : m.sender = n.local_agent_id → Recorded n m ∨ ∃ env ∈ log, Says env n.local_agent_id n.epoch m.round m.body)
    {e : Effect} (hfrom : e.From m) (hstore : ∀ r a p, e = .store r a p → n'.proposals m.round = none) :
    e.Backed log n' := by
  cases e with
  | hear k r a v =>
    obtain ⟨rfl, rfl, hbody⟩ := hfrom
    intro hlocal hnone
    rw [hj.kin.id] at hlocal
    rw [hj.choice] at hnone
    rcases hecho hlocal with hrec | ⟨env, henv, hs⟩
    · exact absurd hnone (hrec.1 k v hbody)
    · rw [hj.epoch, ← hbody, hlocal]
      exact ⟨env, henv, hs⟩
  | store r a p =>
    obtain ⟨rfl, rfl, hbody⟩ := hfrom
    intro hlocal
    rw [hj.kin.id] at hlocal
    rcases hecho hlocal with hrec | ⟨env, henv, hs⟩
    · have hnone := hstore _ _ _ rfl
      rw [hj.proposals] at hnone
      exact absurd hnone (hrec.2 p hbody)
    · rw [hj.epoch, ← hbody, hlocal]
      exact ⟨env, henv, hs⟩
  | _ => exact hfrom.elim

/-- An accepted message, when the node does not propose on joining its round. -/
theorem disclosed_read {c : Crypto} {n : ConsensusNode} {log : List ConsensusEnvelope} {m : ConsensusMessage} (t : Int)
    (hacc : Accepts n m) (hjoin : n.round < m.round → ¬ Leads c n m.round)
    (hecho : m.sender = n.local_agent_id → Recorded n m ∨ ∃ env ∈ log, Says env n.local_agent_id n.epoch m.round m.body)
    (hslots : ∀ k r v, n.choice k r n.local_agent_id = some v → r ∈ n.emitted k) (h : Voiced c log n) :
    Disclosed c n log (n.read_account c m t) (n.readOn c m t) := by
  have hj := joins_joined n m.round t
  have hround : (n.joined m.round t).round ≤ m.round := by
    unfold joined
    split
    · exact le_rfl
    · exact hacc.round
  have hmember : m.sender ∈ (n.joined m.round t).committee.members := by
    rw [hj.kin.committee]
    exact hacc.member
  have hslot : ∀ k w, (n.joined m.round t).choice k m.round (n.joined m.round t).local_agent_id = some w →
      m.round ∈ (n.joined m.round t).emitted k := by
    intro k w hw
    rw [hj.choice, hj.kin.id] at hw
    rw [hj.emitted]
    exact hslots k m.round w hw
  obtain ⟨head, rest, heq, hhead, hrest⟩ := observe_body_account_eq c (n.joined m.round t) m t hslot
  have haccounts := observe_body_accounts c (n.joined m.round t) m t hround hmember
  obtain ⟨hread, haccount⟩ := read_idle hjoin t
  rw [hread, haccount]
  rw [heq] at haccounts ⊢
  have hown : ∀ e : Effect, e.From m → (∀ r a p, e = .store r a p → (n.joined m.round t).proposals m.round = none) →
      e.Backed log (n.joined m.round t) := fun e hfrom hstore => backed_from hj hecho hfrom hstore
  have hadv := advance_account_idle hjoin t
  have hhead' : ∀ e ∈ head, e.From m ∧ ∀ r a p, e = .store r a p → (n.joined m.round t).proposals m.round = none := by
    intro e he
    rcases hhead with rfl | ⟨e', rfl, hfrom, hstore⟩
    · cases he
    · rw [List.mem_singleton.1 he]
      exact ⟨hfrom, hstore⟩
  have hwhole : Whole (head ++ rest) ((n.joined m.round t).observe_body c m t).2 := by
    refine haccounts.whole (.inr fun k r hmem => ?_)
    rcases List.mem_append.1 hmem with hmem | hmem
    · exact (hhead' _ hmem).1
    · exact (hrest _ hmem).2 k r rfl
  -- an effect from outside stands in `head`
  have hinside : ∀ e ∈ n.advance_account c m.round t ++ (head ++ rest), ¬ e.Inward → e ∈ head := by
    intro e he hnot
    rcases List.mem_append.1 he with he | he
    · rw [hadv e he] at hnot
      exact absurd trivial hnot
    · rcases List.mem_append.1 he with he | he
      · exact he
      · exact absurd (hrest e he).1.inward hnot
  refine ⟨⟨fun env hmem => ?_, fun previous cm hmem => ?_⟩, ?_, fun k r v hmem hnone => ?_, fun r p hmem => ?_⟩
  · rcases List.mem_append.1 hmem with hmem | hmem
    · cases hadv _ hmem
    · exact hwhole.1 env hmem
  · rcases List.mem_append.1 hmem with hmem | hmem
    · cases hadv _ hmem
    · exact hwhole.2 previous cm hmem
  · have hvoiced : Voiced c (log ++ (returned ((n.joined m.round t).observe_body c m t).2).outbound) (n.joined m.round t) := by
      refine (h.congr hj.kin.id hj.kin.committee hj.epoch (fun k r v hv => ?_) (fun r p hp => ?_)).mono
        fun env henv => List.mem_append_left _ henv
      · rw [← hj.choice]
        exact hv
      · rw [← hj.proposals]
        exact hp
    obtain ⟨s, hfirst, hlast⟩ := haccounts.run.split
    have hs : Voiced c (log ++ (returned ((n.joined m.round t).observe_body c m t).2).outbound) s := by
      rcases hhead with rfl | ⟨e, rfl, hfrom, hstore⟩
      · cases hfirst
        exact hvoiced
      · cases hfirst with
        | cons hd hnil =>
          cases hnil
          exact hd.voiced hvoiced ((hown e hfrom hstore).mono fun env henv => List.mem_append_left _ henv)
    exact run_voiced hlast hs fun e he s' =>
      hwhole.backed log (List.mem_append_right _ he) (hrest e he).1.inward s'
  · have hmem := hinside _ hmem (fun hin => hin)
    obtain ⟨hfrom, hstore⟩ := hhead' _ hmem
    have hback := hown _ hfrom hstore hj.kin.id.symm (by rw [hj.choice]; exact hnone)
    rwa [hj.epoch] at hback
  · have hmem := hinside _ hmem (fun hin => hin)
    obtain ⟨hfrom, hstore⟩ := hhead' _ hmem
    have hback := hown _ hfrom hstore hj.kin.id.symm
    rwa [hj.epoch] at hback

theorem disclosed_envelope {c : Crypto} {n : ConsensusNode} {log : List ConsensusEnvelope} {envelope : ConsensusEnvelope} (t : Int)
    (hjoin : envelope.subject = n.config.subject_layout.round_subject n.committee envelope.message.height
      envelope.message.round → Accepts n envelope.message → n.round < envelope.message.round →
      ¬ Leads c n envelope.message.round)
    (hecho : envelope.subject = n.config.subject_layout.round_subject n.committee envelope.message.height
      envelope.message.round → Accepts n envelope.message → envelope.message.sender = n.local_agent_id →
      Recorded n envelope.message ∨
        ∃ env ∈ log, Says env n.local_agent_id n.epoch envelope.message.round envelope.message.body)
    (hslots : ∀ k r v, n.choice k r n.local_agent_id = some v → r ∈ n.emitted k) (h : Voiced c log n) :
    Disclosed c n log (n.handle_envelope_account c envelope t) (n.handle_envelope c envelope t) := by
  unfold handle_envelope_account handle_envelope
  dsimp only
  by_cases hsubject : envelope.subject = n.config.subject_layout.round_subject n.committee envelope.message.height
      envelope.message.round
  · rw [if_neg (not_not.2 hsubject)]
    by_cases hacc : Accepts n envelope.message
    · rw [if_pos ⟨hsubject, hacc⟩, hacc.observed]
      exact disclosed_read t hacc (hjoin hsubject hacc) (hecho hsubject hacc) hslots h
    · rw [if_neg fun hboth => hacc hboth.2]
      rcases observe_message_cases c n envelope.message t with ⟨res, -, heq⟩ | ⟨hyes, -⟩
      · rw [heq]
        exact disclosed_silent res h
      · exact absurd hyes hacc
  · rw [if_pos hsubject, if_neg fun hboth => hsubject hboth.1]
    exact disclosed_silent _ h

/-- A call that starts with a step of no words. -/
theorem Disclosed.cons {c : Crypto} {n n₁ : ConsensusNode} {log : List ConsensusEnvelope} {e : Effect} {es : List Effect}
    {out : Outcome} (hj : Joins n n₁) (hinward : e.Inward) (hquiet : ¬ e.Uttered) (h : Disclosed c n₁ log es out) :
    Disclosed c n log (e :: es) out := by
  refine ⟨⟨fun env hmem => ?_, fun previous cm hmem => ?_⟩, h.voiced, fun k r v hmem hnone => ?_, fun r p hmem => ?_⟩
  · rcases List.mem_cons.1 hmem with rfl | hmem
    · exact absurd trivial hquiet
    · exact h.whole.1 env hmem
  · rcases List.mem_cons.1 hmem with rfl | hmem
    · exact absurd trivial hquiet
    · exact h.whole.2 previous cm hmem
  · rcases List.mem_cons.1 hmem with rfl | hmem
    · exact hinward.elim
    · have hheard := h.heard k r v (hj.kin.id.symm ▸ hmem) (by rw [hj.choice, hj.kin.id]; exact hnone)
      rwa [hj.kin.id, hj.epoch] at hheard
  · rcases List.mem_cons.1 hmem with rfl | hmem
    · exact hinward.elim
    · have hstored := h.stored r p (hj.kin.id.symm ▸ hmem)
      rwa [hj.kin.id, hj.epoch] at hstored

theorem joins_seeing (n : ConsensusNode) (e : ConsensusSignedEnvelope) : Joins n (n.seeing e) :=
  ⟨⟨rfl, rfl, rfl, rfl⟩, rfl, fun k _ _ => by cases k <;> rfl, fun k => by cases k <;> rfl, rfl⟩

theorem Candid.disclosed {c : Crypto} {n : ConsensusNode} {log : List ConsensusEnvelope} {invocation : Invocation}
    {out : Outcome} (hc : Candid c n log invocation) (hout : n.invoke c invocation = some out) (h : Voiced c log n) :
    Disclosed c n log (n.account c invocation) out := by
  have hrun := account_run hout
  cases invocation with
  | envelope envelope t =>
    obtain rfl := Option.some.inj hout
    have htaken : envelope.subject = n.config.subject_layout.round_subject n.committee envelope.message.height
        envelope.message.round → Accepts n envelope.message → taken c n (.envelope envelope t) = some envelope.message :=
      fun hsubject hacc => if_pos ⟨hsubject, hacc⟩
    exact disclosed_envelope t (fun hs ha => hc.joins _ (htaken hs ha)) (fun hs ha => hc.echoes _ (htaken hs ha)) hc.slots h
  | call input =>
    cases input with
    | queue p t =>
      have hinward : ∀ e ∈ n.account c (.call (.queue p t)), e.Inward ∧ ∀ k r, e ≠ .spoil k r := by
        intro e he
        rcases List.mem_cons.1 he with rfl | he
        · exact ⟨trivial, by simp⟩
        · obtain ⟨hu, hs⟩ := emit_proposal_account_uttered c _ t e he
          exact ⟨hu.inward, hs fun k w hw => hc.slots k _ w hw⟩
      obtain rfl := Option.some.inj hout
      refine disclosed_inward hrun ?_ (fun e he => (hinward e he).1) h
      obtain ⟨hsends, hcommits⟩ := (emit_proposal_speaks c { n with pending_local_proposal := some p } t).whole
        (.inr fun k r hmem => (hinward _ (List.mem_cons_of_mem _ hmem)).2 k r rfl)
      refine ⟨fun env hmem => hsends env ((List.mem_cons.1 hmem).resolve_left (by simp)), fun previous cm hmem => ?_⟩
      exact hcommits previous cm ((List.mem_cons.1 hmem).resolve_left (by simp))
    | tick t =>
      rcases tick_cases hout with ⟨hlt, rfl⟩ | ⟨hnlt, rfl⟩
      · rw [account, if_pos hlt]
        exact disclosed_silent _ h
      · have haccount : n.account c (.call (.tick t)) = n.advance_account c (n.round + 1) t := if_neg hnlt
        rw [haccount] at hrun ⊢
        have hadv := advance_account_uttered c n (n.round + 1) t
        refine disclosed_inward hrun ((advance_speaks c n _ t).whole (.inr fun k r hmem => ?_)) (fun e he => ?_) h
        · exact (hadv _ hmem).2 (fun k w hw => hc.slots k _ w hw) k r rfl
        · rcases (hadv e he).1 with rfl | hu
          · trivial
          · exact hu.inward
    | deliver e t =>
      obtain rfl := Option.some.inj hout
      have haccount : n.account c (.call (.deliver e t)) = n.handle_signed_envelope_account c e t := rfl
      rw [haccount] at hrun ⊢
      rcases handle_signed_envelope_account_cases c n e t with ⟨hes, hn⟩ | ⟨hes, -⟩ | ⟨hadm, hseen, hver, hes, hn⟩
      · rw [hes, hn]
        exact disclosed_silent _ h
      · rw [hes] at hrun ⊢
        exact disclosed_inward hrun ⟨by simp, by simp⟩ (by simp [Effect.Inward]) h
      · rw [hes, hn]
        have hj := joins_seeing n e
        have htaken : e.envelope.subject = n.config.subject_layout.round_subject n.committee e.envelope.message.height
            e.envelope.message.round → Accepts (n.seeing e) e.envelope.message →
            taken c n (.call (.deliver e t)) = some e.envelope.message := fun hsubject hacc =>
          if_pos ⟨hadm, hseen, hver, hsubject, hacc.member, hacc.height, hacc.previous, hacc.round⟩
        refine Disclosed.cons hj trivial (fun hu => hu) (disclosed_envelope t (fun hs ha hlt hlead => ?_)
          (fun hs ha hlocal => ?_) (fun k r v hv => ?_) ?_)
        · exact hc.joins _ (htaken hs ha) hlt ⟨hlead.proposer, hlead.open_round, hlead.pending⟩
        · exact hc.echoes _ (htaken hs ha) hlocal
        · rw [hj.emitted]
          rw [hj.choice] at hv
          exact hc.slots k r v hv
        · exact h.congr rfl rfl rfl (fun k r v hv => by rw [← hj.choice]; exact hv) (fun _ _ hp => hp)

/-! ## Runs -/

/-- A node with all it has returned. -/
structure Reported where
  node : ConsensusNode
  outbound : List ConsensusEnvelope := []
  commits : List ConsensusCommit := []

def Reported.Invokes (c : Crypto) (w : Reported) (invocation : Invocation) (w' : Reported) : Prop :=
  ∃ out, w.node.invoke c invocation = some out ∧
    w' = ⟨out.1, w.outbound ++ (returned out.2).outbound, w.commits ++ (returned out.2).commits⟩

/-- A run of candid calls. -/
def Reported.Speaks (c : Crypto) (w : Reported) (invocation : Invocation) (w' : Reported) : Prop :=
  w.Invokes c invocation w' ∧ Candid c w.node w.outbound invocation

theorem voiced_new (c : Crypto) {a : AgentId} {key : Option SigningKey} {k : ConsensusCommittee} {config : ConsensusConfig}
    {previous : String} {t : Int} {n : ConsensusNode} (h : new_internal a key k config previous t = .ok n) :
    Voiced c [] n := by
  obtain ⟨-, -, -, -, hpre, hcom, hproposals, -⟩ := new_internal_ok h
  refine ⟨fun k r v hv => ?_, fun r p hp => ?_⟩
  · cases k with
    | prevote =>
      simp only [choice, votes, hpre] at hv
      cases hv
    | precommit =>
      simp only [choice, votes, hcom] at hv
      cases hv
  · rw [hproposals] at hp
    cases hp

/-- In a run of candid calls every proposal, prevote and precommit that the node holds in its own
name has been returned, and each call returns all that it says and all that it commits. -/
theorem own_words_returned (c : Crypto) (n₀ : ConsensusNode)
    (hnew : ∃ id key k config previous t, new_internal id key k config previous t = .ok n₀)
    (invocations : List Invocation) (w : Reported) (hrun : Run (Reported.Speaks c) ⟨n₀, [], []⟩ invocations w) :
    Voiced c w.outbound w.node ∧ ∀ invocation w', w.Speaks c invocation w' →
      (∀ env, .send env ∈ w.node.account c invocation → env ∈ w'.outbound) ∧
      (∀ previous cm, .commit previous cm ∈ w.node.account c invocation → cm ∈ w'.commits) ∧
      (∀ k r v, .hear k r w.node.local_agent_id v ∈ w.node.account c invocation →
        w.node.choice k r w.node.local_agent_id = none →
        ∃ env ∈ w.outbound, Says env w.node.local_agent_id w.node.epoch r (k.body v)) ∧
      ∀ r p, .store r w.node.local_agent_id p ∈ w.node.account c invocation →
        ∃ env ∈ w.outbound, Says env w.node.local_agent_id w.node.epoch r (.Proposal p) := by
  obtain ⟨_, _, _, _, _, _, hnew⟩ := hnew
  have hvoiced : Voiced c w.outbound w.node := by
    refine hrun.inv (I := fun w => Voiced c w.outbound w.node) (fun s i s' _ hs hstep => ?_) (voiced_new c hnew)
    obtain ⟨⟨out, hout, rfl⟩, hcandid⟩ := hstep
    exact (hcandid.disclosed hout hs).voiced
  refine ⟨hvoiced, fun invocation w' hstep => ?_⟩
  obtain ⟨⟨out, hout, rfl⟩, hcandid⟩ := hstep
  have hd := hcandid.disclosed hout hvoiced
  refine ⟨fun env hmem => ?_, fun previous cm hmem => ?_, hd.heard, hd.stored⟩
  · exact List.mem_append_right _ (hd.whole.1 env hmem)
  · exact List.mem_append_right _ (hd.whole.2 previous cm hmem)

theorem last_seat : seat "d" ∈ four.members := by decide

/-- The member of `four` that leads every round, at the start. -/
def leader : ConsensusNode := seated "d" last_seat

theorem leader_new : ∃ id key k config previous t, new_internal id key k config previous t = .ok leader :=
  ⟨_, _, _, _, _, _, new_seated (by decide)⟩

def leaderQueued : Outcome := leader.queue_proposal .plain ⟨"x", .null⟩ 0

theorem own_words_returned_leader : ∃ w, Run (Reported.Speaks .plain) ⟨leader, [], []⟩ [.call (.queue ⟨"x", .null⟩ 0)] w ∧
    Voiced .plain w.outbound w.node ∧ w.node.proposals 0 = some ⟨"x", .null⟩ := by
  have hcandid : Candid .plain leader [] (.call (.queue ⟨"x", .null⟩ 0)) := by
    refine ⟨fun m hm => (by cases hm), fun m hm => (by cases hm), fun k r v hv => ?_⟩
    cases k with
    | prevote => cases hv
    | precommit => cases hv
  have hrun : Run (Reported.Speaks .plain) ⟨leader, [], []⟩ [.call (.queue ⟨"x", .null⟩ 0)]
      ⟨leaderQueued.1, [] ++ (returned leaderQueued.2).outbound, [] ++ (returned leaderQueued.2).commits⟩ :=
    .single ⟨⟨leaderQueued, rfl, rfl⟩, hcandid⟩
  exact ⟨_, hrun, (own_words_returned .plain leader leader_new _ _ hrun).1, by decide +kernel⟩

/-- The leader hears of round 1 before its own timeout. -/
def leaderJoined : Outcome := leaderQueued.1.handle_signed_envelope .plain (signs "a" 1 0 (.Prevote (some "y"))) 0

/-- Joining round 1 the leader proposes in it and votes for the proposal, and returns neither. -/
theorem joining_leader_keeps_silent :
    (leaderJoined.1.height, leaderJoined.1.round) = (1, 1) ∧
      leaderJoined.1.proposals 1 = some ⟨"x", .null⟩ ∧
      leaderJoined.1.choice .prevote 1 (seat "d") = some (some "x") ∧
      leaderJoined.1.local_agent_id = seat "d" ∧
      (∀ env ∈ (returned leaderQueued.2).outbound, env.message.round = 0) ∧
      leaderQueued.2.isOk = true ∧ leaderJoined.2.isOk = true ∧
      (returned leaderJoined.2).outbound = [] := by
  decide +kernel

/-! ## The commits it returns -/

section
variable {c : Crypto} {n n' : ConsensusNode} {out : Outcome}

/-- A commit that is returned is the last the node made. -/
def Tip (out : Outcome) : Prop := ∀ cm ∈ (returned out.2).commits, cm.commit_hash = out.1.previous_commit_hash

theorem tip_silent (h : silent out.2) : Tip out := fun _ hcm => absurd (h.2 ▸ hcm) List.not_mem_nil

theorem Acts.tip {r : Nat} {mp : Prop} (h : Acts c n out r mp) : Tip out := by
  obtain ⟨-, n₁, -, -, -, ⟨-, hcom⟩ | ⟨p, cm, hdo, -, hcom⟩⟩ := h
  · exact fun _ hcm => absurd (hcom ▸ hcm) List.not_mem_nil
  · intro cm' hcm'
    rw [hcom cm' hcm']
    rcases hdo.head with ⟨-, hne⟩ | ⟨_, _, heq, hhash, -⟩
    · exact absurd rfl (hne p cm)
    · cases heq
      exact hhash

theorem Called.tip {input : ConsensusNode.Input} (h : Called c n input out) : Tip out := by
  cases h with
  | queue _ _ hact => exact hact.tip
  | wait => exact tip_silent silent_empty
  | timeout _ hreach =>
    rcases hreach with ⟨-, rfl⟩ | ⟨-, n₁, -, hact⟩
    · exact tip_silent silent_empty
    · exact hact.tip
  | deliver hdel =>
    cases hdel with
    | ignored hres => exact tip_silent hres
    | excluded hres => exact tip_silent hres
    | unread _ hres => exact tip_silent hres
    | read _ _ _ _ hact => exact hact.tip

/-- A call with what it returns. -/
def Answers (c : Crypto) (n : ConsensusNode) (call : ConsensusNode.Input × Except ConsensusError ConsensusProgress)
    (n' : ConsensusNode) : Prop :=
  n.call c call.1 = some (n', call.2)

end

end Ambush.Consensus

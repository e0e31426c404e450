import Mathlib.Logic.Relation
import Ambush.Consensus.Moves
import Ambush.Consensus.Quorums
/-!
# Votes of honest nodes

`cast` is everything honest nodes have ever said, also what a failing call or a catch-up
dropped before it was sent. An `Upright` node holds an honest member's vote only if that
member cast it in the node's epoch, and remembers all it cast itself there. So an honest
node votes once per epoch, round and kind (`Orderly`), and the precommits behind a commit
are votes that were cast (`Certified`).
-/
open Lib Relation

namespace Ambush.Consensus

open ConsensusNode

/-- Committing in epoch `e` can lead to `e'`. -/
def Builds (c : Crypto) (e e' : Epoch) : Prop := ∃ r p, e' = (satAdd e.1 1, commit_hash c e.1 r e.2 p)

/-- No chain of commits leads back to the epoch it starts from. Below the maximal height
this is plain; there it says that hashing commits has no cycle. -/
def NoCommitCycle (c : Crypto) : Prop := ∀ e, ¬ TransGen (Builds c) e e

theorem builds_height_lt {c : Crypto} {e e' : Epoch} (h : TransGen (Builds c) e e') (hmax : e'.1 < u64Max) : e.1 < e'.1 := by
  induction h with
  | single hb =>
    obtain ⟨r, p, rfl⟩ := hb
    simp only [satAdd] at hmax ⊢
    omega
  | tail _ hb ih =>
    obtain ⟨r, p, rfl⟩ := hb
    simp only [satAdd] at hmax ⊢
    have := ih (by omega)
    omega

/-- The envelope says `body` for `a` in a round of an epoch. -/
structure Says (env : ConsensusEnvelope) (a : AgentId) (ep : Epoch) (r : Nat) (body : ConsensusMessageBody) : Prop where
  sender : env.message.sender = a
  epoch : env.message.epoch = ep
  round : env.message.round = r
  body : env.message.body = body

theorem says_build_envelope (n : ConsensusNode) (r : Nat) (body : ConsensusMessageBody) (t : Int) :
    Says (n.build_envelope r body t) n.local_agent_id n.epoch r body := ⟨rfl, rfl, rfl, rfl⟩

/-- `cast`, and what the effects `es` say. -/
def said (cast : Set ConsensusEnvelope) (es : List Effect) : Set ConsensusEnvelope := {env | env ∈ cast ∨ .send env ∈ es}

theorem said_append (cast : Set ConsensusEnvelope) (es es' : List Effect) : said (said cast es) es' = said cast (es ++ es') := by
  ext env; simp [said, or_assoc]

theorem said_nil (cast : Set ConsensusEnvelope) : said cast [] = cast := by ext env; simp [said]

theorem subset_said (cast : Set ConsensusEnvelope) (es : List Effect) : cast ⊆ said cast es := fun _ h => .inl h

theorem said_single_of_not_send (cast : Set ConsensusEnvelope) {e : Effect} (h : ∀ env, e ≠ .send env) :
    said cast [e] = cast := by
  ext env; simp [said, (h env).symm]

/-- What holds of an honest node, given all that honest members have cast. -/
structure Upright (c : Crypto) (good : Finset AgentId) (cast : Set ConsensusEnvelope) (n : ConsensusNode) : Prop where
  wf : n.WfVotes
  ahead : Ahead n
  members : ∀ k r a v, n.choice k r a = some v → a ∈ n.committee.members
  heard : ∀ k r a v, n.choice k r a = some v → a ∈ good → ∃ env ∈ cast, Says env a n.epoch r (k.body v)
  mine : ∀ env ∈ cast, env.message.sender = n.local_agent_id →
    (env.message.epoch = n.epoch ∧ env.message.round ≤ n.round ∧
      ∀ k v, env.message.body = k.body v → env.message.round ∈ n.emitted k) ∨
    TransGen (Builds c) env.message.epoch n.epoch

/-- What others say does not disturb a node. -/
theorem Upright.mono {c : Crypto} {good : Finset AgentId} {cast cast' : Set ConsensusEnvelope} {n : ConsensusNode}
    (h : Upright c good cast n) (hsub : cast ⊆ cast')
    (hnew : ∀ env ∈ cast', env.message.sender = n.local_agent_id → env ∈ cast) : Upright c good cast' n where
  wf := h.wf
  ahead := h.ahead
  members := h.members
  heard k r a v hc ha := by
    obtain ⟨env, henv, hs⟩ := h.heard k r a v hc ha
    exact ⟨env, hsub henv, hs⟩
  mine env henv hs := h.mine env (hnew env henv hs) hs

/-- A node that has cast nothing yet and holds no votes. -/
theorem upright_new {c : Crypto} {good : Finset AgentId} {cast : Set ConsensusEnvelope} {n : ConsensusNode}
    (hpre : n.prevotes = .empty) (hcom : n.precommits = .empty)
    (hnone : ∀ env ∈ cast, env.message.sender ≠ n.local_agent_id) : Upright c good cast n := by
  have hchoice : ∀ k r a, n.choice k r a = none := by
    intro k r a
    cases k
    · simp only [choice, votes, hpre]; rfl
    · simp only [choice, votes, hcom]; rfl
  refine ⟨?_, fun k r a _ => hchoice k r a, fun k r a v hc => ?_, fun k r a v hc => ?_,
    fun env henv hs => absurd hs (hnone env henv)⟩
  · intro k r
    cases k
    · simp only [votes, hpre]; exact VoteLedger.wf_empty
    · simp only [votes, hcom]; exact VoteLedger.wf_empty
  · rw [hchoice] at hc; cases hc
  · rw [hchoice] at hc; cases hc

/-! ## One move -/

section Move
variable {c : Crypto} {good : Finset AgentId} {cast : Set ConsensusEnvelope} {n n₀ n' : ConsensusNode} {input : Input}
  {e : Effect}

/-- What recording a vote in the node's own round needs. -/
theorem Upright.hears (h : Upright c good cast n) {k : VoteKind} {r : Nat} {a : AgentId} {v : Option String}
    (hr : r = n.round) (ha : a ∈ n.committee.members) (hsaid : a ∈ good → ∃ env ∈ cast, Says env a n.epoch r (k.body v)) :
    Upright c good cast (n.hears k r a v) := by
  have hstill := still_hears n k r a v
  have hkin := kin_hears n k r a v
  refine ⟨h.wf.hears k r a v, fun k' r' a' hlt => ?_, fun k' r' a' v' hc => ?_, fun k' r' a' v' hc hg => ?_, ?_⟩
  · rw [hstill.round] at hlt
    rw [choice_hears, if_neg (by rintro ⟨-, rfl, -⟩; omega)]
    exact h.ahead k' r' a' hlt
  · rw [hkin.committee]
    rw [choice_hears] at hc
    split at hc
    · rename_i heq; rw [heq.2.2.1]; exact ha
    · exact h.members k' r' a' v' hc
  · rw [hstill.epoch]
    rw [choice_hears] at hc
    split at hc
    · rename_i heq
      obtain ⟨rfl, rfl, rfl, -⟩ := heq
      cases hc
      exact hsaid hg
    · exact h.heard k' r' a' v' hc hg
  · intro env henv hs
    rw [hstill.epoch, hstill.round]
    simp only [emitted_hears]
    exact h.mine env henv (hkin.id ▸ hs)

/-- A round marked as voted in. -/
theorem Upright.mark (h : Upright c good cast n) (k : VoteKind) (r : Nat) : Upright c good cast (n.mark k r) := by
  have hstill := still_mark n k r
  have hkin := kin_mark n k r
  refine ⟨fun k' r' => by rw [votes_mark]; exact h.wf k' r', ?_, ?_, ?_, ?_⟩
  · intro k' r' a' hlt
    rw [choice_mark]; exact h.ahead k' r' a' (hstill.round ▸ hlt)
  · intro k' r' a' v' hc
    rw [choice_mark] at hc; rw [hkin.committee]; exact h.members k' r' a' v' hc
  · intro k' r' a' v' hc hg
    rw [choice_mark] at hc; rw [hstill.epoch]; exact h.heard k' r' a' v' hc hg
  · intro env henv hs
    rw [hstill.epoch, hstill.round]
    rcases h.mine env henv (hkin.id ▸ hs) with ⟨he, hr, hem⟩ | hpast
    · refine .inl ⟨he, hr, fun k' v' hb => ?_⟩
      rw [emitted_mark]
      split
      · rename_i heq; subst heq
        exact Finset.mem_insert_of_mem (hem _ _ hb)
      · exact hem _ _ hb
    · exact .inr hpast

/-- Saying something in the node's own round: a vote only if its round is marked. -/
theorem Upright.saying (h : Upright c good cast n) {env : ConsensusEnvelope} {r : Nat} {body : ConsensusMessageBody}
    (hs : Says env n.local_agent_id n.epoch r body) (hr : r = n.round) (hem : ∀ k v, body = k.body v → r ∈ n.emitted k) :
    Upright c good (said cast [.send env]) n where
  wf := h.wf
  ahead := h.ahead
  members := h.members
  heard k r a v hc ha := by
    obtain ⟨env', henv, hs'⟩ := h.heard k r a v hc ha
    exact ⟨env', subset_said _ _ henv, hs'⟩
  mine env' henv' hs' := by
    rcases henv' with henv' | henv'
    · exact h.mine env' henv' hs'
    · simp only [List.mem_singleton, Effect.send.injEq] at henv'
      subst henv'
      refine .inl ⟨hs.epoch, ?_, fun k v hb => ?_⟩
      · rw [hs.round, hr]
      · rw [hs.round]; exact hem k v (hs.body.symm.trans hb)

/-- Committing starts the next epoch with nothing held, and what was cast is past. -/
theorem Upright.after_commit (h : Upright c good cast n) (r : Nat) (p : ConsensusProposal) (t : Int) :
    Upright c good cast (n.after_commit c r p t) := by
  have hb : Builds c n.epoch (n.after_commit c r p t).epoch := ⟨r, p, rfl⟩
  refine ⟨?_, ?_, ?_, ?_, ?_⟩
  · intro k' r'; cases k' <;> exact VoteLedger.wf_empty
  · intro k' r' a' _; exact choice_after_commit ..
  · intro k' r' a' v' hc; rw [choice_after_commit] at hc; cases hc
  · intro k' r' a' v' hc; rw [choice_after_commit] at hc; cases hc
  · intro env henv hs
    refine .inr ?_
    rcases h.mine env henv hs with ⟨he, -⟩ | hpast
    · rw [he]; exact .single hb
    · exact .tail hpast hb

theorem Upright.excluding (h : Upright c good cast n) (ht r : Nat) (a : AgentId) :
    Upright c good cast (n.excluding c ht r a) := by
  have hle : ∀ k' r' a' v', (n.excluding c ht r a).choice k' r' a' = some v' → n.choice k' r' a' = some v' := by
    intro k' r' a' v' hc
    rw [choice_excluding] at hc
    split at hc
    · cases hc
    · exact hc
  refine ⟨(Does.exclude (c := c) (h := ht) (r := r) (a := a)).wfVotes h.wf, ?_, ?_, ?_, ?_⟩
  · intro k' r' a' hlt
    rw [choice_excluding, h.ahead k' r' a' hlt]
    simp
  · exact fun k' r' a' v' hc => h.members k' r' a' v' (hle _ _ _ _ hc)
  · exact fun k' r' a' v' hc hg => h.heard k' r' a' v' (hle _ _ _ _ hc) hg
  · intro env henv hs
    rcases h.mine env henv hs with ⟨he, hr, hem⟩ | hpast
    · exact .inl ⟨he, hr, fun k v hb => by cases k <;> exact hem _ v hb⟩
    · exact .inr hpast

/-- An honest node stays upright in every move, when the messages of honest members that
reach it were cast. -/
theorem Upright.moves (h : Upright c good cast n) (hm : Moves c n₀ input n e n')
    (hfair : ∀ m, Brings c n₀ input m → m.sender ∈ good → ∃ env ∈ cast, env.message = m) :
    Upright c good (said cast [e]) n' := by
  obtain ⟨hd, hsame, hall⟩ := hm
  cases hd with
  | pend => rw [said_single_of_not_send _ (by simp)]; exact ⟨h.wf, h.ahead, h.members, h.heard, h.mine⟩
  | @enter r t hr =>
    rw [said_single_of_not_send _ (by simp)]
    refine ⟨h.wf, fun k r' a hlt => h.ahead k r' a (lt_trans hr hlt), h.members, h.heard, fun env henv hs => ?_⟩
    rcases h.mine env henv hs with ⟨he, hle, hem⟩ | hpast
    · exact .inl ⟨he, hle.trans hr.le, hem⟩
    · exact .inr hpast
  | @propose r p t hr hp hn hq =>
    have hs := h.saying (says_build_envelope n r (.Proposal p) t) hall.1 (fun k v hb => by cases k <;> cases hb)
    exact ⟨hs.wf, hs.ahead, hs.members, hs.heard, hs.mine⟩
  | store => rw [said_single_of_not_send _ (by simp)]; exact ⟨h.wf, h.ahead, h.members, h.heard, h.mine⟩
  | @cast k r v t hr hn hv =>
    have hstill := still_mark n k r
    have hkin := kin_mark n k r
    have hsays := says_build_envelope n r (k.body v) t
    rw [← hkin.id, ← hstill.epoch] at hsays
    have hround : r = (n.mark k r).round := hall.1.trans hstill.round.symm
    have hmarked := (h.mark k r).saying hsays hround (fun k' v' hb => by
      obtain ⟨rfl, -⟩ := VoteKind.body_inj hb
      simp [emitted_mark])
    rw [← hkin.id]
    exact hmarked.hears hround (hkin.id ▸ hkin.committee ▸ n.is_member) (fun _ => ⟨_, .inr (by simp), hsays⟩)
  | @spoil k r v hr hn hv =>
    rw [said_single_of_not_send _ (by simp)]
    -- the refused vote leaves the ledgers as they were
    obtain ⟨w, hw, -⟩ := hv
    have hsame : ∀ k' r' a', ((n.mark k r).hears k r n.local_agent_id v).choice k' r' a' = (n.mark k r).choice k' r' a' := by
      intro k' r' a'
      rw [choice_hears, if_neg]
      rintro ⟨-, -, -, hnone⟩
      rw [choice_mark, hw] at hnone
      cases hnone
    have hmk := h.mark k r
    have hstill := still_hears (n.mark k r) k r n.local_agent_id v
    have hkin := kin_hears (n.mark k r) k r n.local_agent_id v
    refine ⟨hmk.wf.hears k r _ v, ?_, ?_, ?_, ?_⟩
    · intro k' r' a' hlt; rw [hsame]; exact hmk.ahead k' r' a' (hstill.round ▸ hlt)
    · intro k' r' a' v' hc; rw [hsame] at hc; rw [hkin.committee]; exact hmk.members k' r' a' v' hc
    · intro k' r' a' v' hc hg; rw [hsame] at hc; rw [hstill.epoch]; exact hmk.heard k' r' a' v' hc hg
    · intro env henv hs
      rw [hstill.epoch, hstill.round]
      simp only [emitted_hears]
      exact hmk.mine env henv (hkin.id ▸ hs)
  | @hear k r a v hr ha =>
    rw [said_single_of_not_send _ (by simp)]
    obtain ⟨hround, m, hbr, hmr, hms, hmb⟩ := hall
    refine h.hears hround ha (fun hg => ?_)
    obtain ⟨env, henv, rfl⟩ := hfair m hbr (hms ▸ hg)
    exact ⟨env, henv, hms, hbr.accepts.epoch.trans hsame.symm, hmr, hmb⟩
  | @commit r p t hr hp hv hc =>
    rw [said_single_of_not_send _ (by simp)]
    exact h.after_commit r p t
  | @exclude ht r a =>
    rw [said_single_of_not_send _ (by simp)]
    exact h.excluding ht r a
  | see => rw [said_single_of_not_send _ (by simp)]; exact ⟨h.wf, h.ahead, h.members, h.heard, h.mine⟩

/-- Everything honest nodes have cast, taken together: one envelope per epoch, round and
kind of vote, and epochs one after the other. -/
structure Orderly (c : Crypto) (cast : Set ConsensusEnvelope) : Prop where
  unique : ∀ env ∈ cast, ∀ env' ∈ cast, ∀ a ep r k v v', Says env a ep r (VoteKind.body k v) →
    Says env' a ep r (VoteKind.body k v') → env = env'
  comparable : ∀ env ∈ cast, ∀ env' ∈ cast, env.message.sender = env'.message.sender →
    env.message.epoch = env'.message.epoch ∨ TransGen (Builds c) env.message.epoch env'.message.epoch ∨
      TransGen (Builds c) env'.message.epoch env.message.epoch

/-- What a node said before is in its epoch or a past one. -/
theorem Upright.past_or_now (h : Upright c good cast n) {env : ConsensusEnvelope} (henv : env ∈ cast)
    (hs : env.message.sender = n.local_agent_id) :
    env.message.epoch = n.epoch ∨ TransGen (Builds c) env.message.epoch n.epoch :=
  (h.mine env henv hs).imp_left And.left

/-- A vote that is about to be cast has not been cast before. -/
theorem Upright.not_yet (h : Upright c good cast n) (hfresh : ¬ TransGen (Builds c) n.epoch n.epoch)
    {env : ConsensusEnvelope} (henv : env ∈ cast) {k : VoteKind} {r : Nat} {v : Option String}
    (hs : Says env n.local_agent_id n.epoch r (k.body v)) : r ∈ n.emitted k := by
  rcases h.mine env henv hs.sender with ⟨-, -, hem⟩ | hpast
  · rw [← hs.round]; exact hem k v hs.body
  · rw [hs.epoch] at hpast; exact absurd hpast hfresh

theorem Orderly.moves (ho : Orderly c cast) (h : Upright c good cast n) (hfresh : ¬ TransGen (Builds c) n.epoch n.epoch)
    (hd : Does c n e n') : Orderly c (said cast [e]) := by
  by_cases hsend : ∃ env, e = .send env
  · obtain ⟨env, rfl⟩ := hsend
    obtain ⟨r, body, t, rfl, hnew⟩ : ∃ r body t, env = n.build_envelope r body t ∧
        ∀ k v, body = VoteKind.body k v → r ∉ n.emitted k := by
      cases hd with
      | propose => exact ⟨_, _, _, rfl, fun k v hb => by cases k <;> cases hb⟩
      | cast t hr hn hv =>
        refine ⟨_, _, _, rfl, fun k v hb => ?_⟩
        obtain ⟨rfl, -⟩ := VoteKind.body_inj hb
        exact hn
    have hsays := says_build_envelope n r body t
    -- an earlier vote with the same key would have marked its round
    have hclash : ∀ env ∈ cast, ∀ a ep r' k v v', Says (n.build_envelope r body t) a ep r' (VoteKind.body k v) →
        Says env a ep r' (k.body v') → False := by
      intro env henv a ep r' k v v' h₁ h₂
      have hb : body = k.body v := hsays.body.symm.trans h₁.body
      refine hnew k v hb (h.not_yet hfresh henv (k := k) (v := v') ⟨?_, ?_, ?_, h₂.body⟩)
      · exact h₂.sender.trans (h₁.sender.symm.trans hsays.sender)
      · exact h₂.epoch.trans (h₁.epoch.symm.trans hsays.epoch)
      · exact h₂.round.trans (h₁.round.symm.trans hsays.round)
    refine ⟨?_, ?_⟩
    · rintro x (hx | hx) y (hy | hy) a ep r' k v v' h₁ h₂
      · exact ho.unique x hx y hy a ep r' k v v' h₁ h₂
      · simp only [List.mem_singleton, Effect.send.injEq] at hy
        subst hy
        exact (hclash x hx a ep r' k v' v h₂ h₁).elim
      · simp only [List.mem_singleton, Effect.send.injEq] at hx
        subst hx
        exact (hclash y hy a ep r' k v v' h₁ h₂).elim
      · simp only [List.mem_singleton, Effect.send.injEq] at hx hy
        exact hx.trans hy.symm
    · rintro x (hx | hx) y (hy | hy) hs
      · exact ho.comparable x hx y hy hs
      · simp only [List.mem_singleton, Effect.send.injEq] at hy
        subst hy
        exact (h.past_or_now hx hs).imp_right .inl
      · simp only [List.mem_singleton, Effect.send.injEq] at hx
        subst hx
        rcases h.past_or_now hy hs.symm with heq | hpast
        · exact .inl heq.symm
        · exact .inr (.inr hpast)
      · simp only [List.mem_singleton, Effect.send.injEq] at hx hy
        rw [hx, hy]; exact .inl rfl
  · rw [said_single_of_not_send _ (fun env he => hsend ⟨env, he⟩)]
    exact ho

end Move

/-! ## A whole call -/

/-- A quorum of precommits in a round of an epoch: every honest voter cast it. -/
def Certified (k : ConsensusCommittee) (good : Finset AgentId) (cast : Set ConsensusEnvelope) (ep : Epoch) (r : Nat)
    (id : String) : Prop :=
  ∃ Q ⊆ k.roster, k.threshold ≤ Q.card ∧ ∀ a ∈ Q, a ∈ good → ∃ env ∈ cast, Says env a ep r (.Precommit (some id))

theorem Certified.mono {k : ConsensusCommittee} {good : Finset AgentId} {cast cast' : Set ConsensusEnvelope} {ep : Epoch}
    {r : Nat} {id : String} (h : Certified k good cast ep r id) (hsub : cast ⊆ cast') : Certified k good cast' ep r id := by
  obtain ⟨Q, hQ, ht, hall⟩ := h
  refine ⟨Q, hQ, ht, fun a ha hg => ?_⟩
  obtain ⟨env, henv, hs⟩ := hall a ha hg
  exact ⟨env, hsub henv, hs⟩

section Call
variable {c : Crypto} {good : Finset AgentId} {cast : Set ConsensusEnvelope} {n n' : ConsensusNode} {input : Input}
  {out : Outcome}

/-- A node that counts a quorum of precommits holds a certificate. -/
theorem Upright.certified (h : Upright c good cast n) {r : Nat} {id : String}
    (hc : n.committee.threshold ≤ tally n.precommits r id) : Certified n.committee good cast n.epoch r id := by
  rw [tally_eq] at hc
  refine ⟨_, fun a ha => ?_, hc, fun a ha hg => ?_⟩
  · have hchoice := (h.wf.mem_voters (k := .precommit)).1 ha
    exact ConsensusCommittee.mem_roster.2 (h.members .precommit r a _ hchoice)
  · have hchoice := (h.wf.mem_voters (k := .precommit)).1 ha
    exact h.heard .precommit r a _ hchoice hg

/-- A node speaks for itself only. -/
theorem run_moves_sender {n₀ : ConsensusNode} {es : List Effect} (hrun : Run (Moves c n₀ input) n es n')
    {env : ConsensusEnvelope} (henv : .send env ∈ es) : env.message.sender = n.local_agent_id := by
  induction hrun with
  | nil => cases henv
  | cons hs _ ih =>
    rcases List.mem_cons.1 henv with rfl | henv
    · generalize hx : Effect.send env = x at hs
      cases hs.1 <;> cases hx <;> rfl
    · rw [ih henv, hs.1.kin.id]

/-- In a committee of `3f + 1` a message that takes an honest node to a later round is
another member's, so the threshold is more than one vote. -/
theorem Upright.later_threshold (h : Upright c good cast n) (hfresh : ¬ TransGen (Builds c) n.epoch n.epoch)
    (hk : n.committee.FullSize) (hme : n.local_agent_id ∈ good) {m : ConsensusMessage}
    (hcast : m.sender ∈ good → ∃ env ∈ cast, env.message = m) (hacc : Accepts n m) (hlt : n.round < m.round) :
    1 < n.committee.threshold := by
  by_contra hthr
  have hlen : n.committee.members.length = 1 := by
    have := n.committee.threshold_eq
    rw [hk]; omega
  obtain ⟨a, ha⟩ := List.length_eq_one_iff.1 hlen
  have hsender : m.sender = n.local_agent_id := by
    have h₁ := hacc.member
    have h₂ := n.is_member
    rw [ha, List.mem_singleton] at h₁ h₂
    rw [h₁, h₂]
  obtain ⟨env, henv, rfl⟩ := hcast (hsender ▸ hme)
  rcases h.mine env henv hsender with ⟨-, hle, -⟩ | hpast
  · omega
  · exact hfresh (hacc.epoch ▸ hpast)

/-- What a call on an honest node adds: its own words, and commits with a certificate. -/
theorem Called.upright (h : Called c n input out) (hu : Upright c good cast n) (ho : Orderly c cast)
    (hfresh : ¬ TransGen (Builds c) n.epoch n.epoch) (hk : n.committee.FullSize) (hme : n.local_agent_id ∈ good)
    (hfair : ∀ m, Brings c n input m → m.sender ∈ good → ∃ env ∈ cast, env.message = m) :
    ∃ es, Run (Moves c n input) n es out.1 ∧ (∀ env ∈ (returned out.2).outbound, .send env ∈ es) ∧
      (∀ cm ∈ (returned out.2).commits, .commit n.previous_commit_hash cm ∈ es) ∧
      Upright c good (said cast es) out.1 ∧ Orderly c (said cast es) ∧
      ∀ p cm, .commit p cm ∈ es → Certified n.committee good (said cast es) (cm.height, p) cm.round cm.proposal.proposal_id := by
  obtain ⟨es, hrun, hout, hcom⟩ := h.moves hu.ahead hu.wf
    (fun m hbr hlt => hu.later_threshold hfresh hk hme (hfair m hbr) hbr.accepts hlt)
  refine ⟨es, hrun, hout, hcom, ?_⟩
  have key := hrun.inv_past []
    (I := fun s past => Upright c good (said cast past) s ∧ Orderly c (said cast past) ∧ s.committee = n.committee ∧
      ∀ p cm, .commit p cm ∈ past →
        Certified n.committee good (said cast past) (cm.height, p) cm.round cm.proposal.proposal_id)
    (fun s past e t _ hI hm => ?_) ⟨by rw [said_nil]; exact hu, by rw [said_nil]; exact ho, rfl, by simp⟩
  · exact ⟨key.1, key.2.1, key.2.2.2⟩
  · obtain ⟨hu', ho', hcomm, hcert⟩ := hI
    have hfair' : ∀ m, Brings c n input m → m.sender ∈ good → ∃ env ∈ said cast past, env.message = m := by
      intro m hbr hg
      obtain ⟨env, henv, hm⟩ := hfair m hbr hg
      exact ⟨env, subset_said _ _ henv, hm⟩
    rw [← said_append]
    refine ⟨hu'.moves hm hfair', ho'.moves hu' (by rw [hm.2.1]; exact hfresh) hm.1, hm.1.kin.committee.trans hcomm, ?_⟩
    intro p cm hmem
    rcases List.mem_append.1 hmem with hmem | hmem
    · exact (hcert p cm hmem).mono (subset_said _ _)
    · rw [List.mem_singleton] at hmem
      subst hmem
      have hd := hm.1
      cases hd with
      | commit _ _ _ _ hc =>
        rw [← hcomm]
        exact (hu'.certified hc).mono (subset_said _ _)

end Call

end Ambush.Consensus

import Ambush.Consensus.Agreement
/-!
# Agreement across rounds

A committee whose members all run the code, and deliver nothing but what they signed.
A node that has precommitted in a round is free to vote for something else in a later
round of the same height, so two nodes can commit differently. As long as no node leaves
a round it has precommitted in, and none reaches the maximal height, all commits of one
height are the same.
-/
open Lib Relation

namespace Ambush.Consensus

open ConsensusNode

/-- The envelope was sent, and signed by the node that sent it. -/
def Genuine (c : Crypto) (net : Net) (e : ConsensusSignedEnvelope) : Prop :=
  e.envelope ∈ net.sent ∧ (net.nodes e.envelope.message.sender).sign_outbound c e.envelope = .ok e

instance (c : Crypto) (net : Net) (e : ConsensusSignedEnvelope) : Decidable (Genuine c net e) :=
  inferInstanceAs (Decidable (_ ∧ _))

/-- Ed25519 and its encodings: a key pair's own signature verifies. -/
def SignaturesVerify (c : Crypto) : Prop :=
  ∀ key v, c.public_key_from_hex (c.verifying_key key) = .ok (c.verifying_key key) ∧
    c.verifying_key_from_hex (c.verifying_key key) = .ok (c.verifying_key key) ∧
    c.verify (c.verifying_key key) v (c.sign key v) = .ok true

/-- Every member of `k` has just been created under its own key, on top of `previous`. -/
structure Convened (c : Crypto) (k : ConsensusCommittee) (keys : AgentId → SigningKey) (previous : String) (net : Net) :
    Prop where
  nodes : ∀ a ∈ k.roster, a = .from_verifying_key (c.verifying_key (keys a)) ∧
    ∃ config t, new_with_signing_key a (keys a) k config previous t = .ok (net.nodes a)
  sent : net.sent = []
  log : net.log = []

theorem Convened.started {c : Crypto} {k : ConsensusCommittee} {keys : AgentId → SigningKey} {previous : String} {net : Net}
    (h : Convened c k keys previous net) : Started k k.roster net where
  nodes a ha := by
    obtain ⟨-, config, t, hn⟩ := h.nodes a ha
    exact ⟨some (keys a), config, previous, t, hn⟩
  sent := h.sent
  log := h.log

/-- The call does not take its node out of a round it has precommitted in, nor is the
node at the maximal height. -/
def Stays (c : Crypto) (net : Net) (act : Act) : Prop :=
  ((net.nodes act.1).round ∈ (net.nodes act.1).emitted_precommits → leavesFor c (net.nodes act.1) act.2 = none) ∧
    (net.nodes act.1).height < u64Max

instance (c : Crypto) (net : Net) (act : Act) : Decidable (Stays c net act) :=
  inferInstanceAs (Decidable ((_ → _ = none) ∧ _))

/-- The envelope carries the signature of its sender's key. -/
def SignedBy (c : Crypto) (keys : AgentId → SigningKey) (e : ConsensusSignedEnvelope) : Prop :=
  e = .sign c e.envelope (keys e.envelope.message.sender)

theorem verifies_sign {c : Crypto} (hc : SignaturesVerify c) {env : ConsensusEnvelope} {key : SigningKey}
    (hid : env.message.sender = .from_verifying_key (c.verifying_key key)) :
    (ConsensusSignedEnvelope.sign c env key).verifies c = true := by
  obtain ⟨hpub, hver, hsig⟩ := hc key env.serialize
  have hdet : verify_detached_signature c env.serialize (detached_signature c key env.serialize) = .ok () := by
    simp [verify_detached_signature, detached_signature, hpub, hsig]
  have hok : (ConsensusSignedEnvelope.sign c env key).verify c = .ok (c.verifying_key key) := by
    unfold ConsensusSignedEnvelope.verify
    split
    · rename_i x hx
      cases hdet.symm.trans hx
    · split
      · rename_i x hx
        cases hver.symm.trans hx
      · rename_i vk hx
        cases hver.symm.trans hx
        exact if_neg (not_not.2 hid.symm)
  rw [ConsensusSignedEnvelope.verifies, hok]
  rfl

/-! ## The invariant -/

/-- What honest nodes have cast when none of them misbehaves and none leaves a round it
has precommitted in. -/
structure Calm (k : ConsensusCommittee) (cast : Set ConsensusEnvelope) : Prop where
  sender : ∀ env ∈ cast, env.message.sender ∈ k.roster
  height : ∀ env ∈ cast, env.message.height < u64Max
  one_proposal : ∀ env ∈ cast, ∀ env' ∈ cast, ∀ a ep r p p', Says env a ep r (.Proposal p) →
    Says env' a ep r (.Proposal p') → env = env'
  one_round : ∀ env ∈ cast, ∀ env' ∈ cast, ∀ a ep r r' v v', Says env a ep r (.Precommit v) →
    Says env' a ep r' (.Precommit v') → r = r'

/-- A node of such a committee. -/
structure Peaceful (c : Crypto) (keys : AgentId → SigningKey) (cast : Set ConsensusEnvelope) (n : ConsensusNode) : Prop where
  stored : ∀ r p, n.proposals r = some p → ∃ a, ∃ env ∈ cast,
    n.committee.proposer_for c n.previous_commit_hash r = .ok a ∧ Says env a n.epoch r (.Proposal p)
  proposed : ∀ env ∈ cast, ∀ r p, Says env n.local_agent_id n.epoch r (.Proposal p) → n.proposals r = some p
  seen : ∀ key e, n.seen_signed_messages key = some e →
    e.envelope ∈ cast ∧ SignedBy c keys e ∧ key = .from_message e.envelope.message
  stays : ∀ r ∈ n.emitted_precommits, r = n.round

theorem Peaceful.mono {c : Crypto} {keys : AgentId → SigningKey} {cast cast' : Set ConsensusEnvelope} {n : ConsensusNode}
    (h : Peaceful c keys cast n) (hsub : cast ⊆ cast')
    (hnew : ∀ env ∈ cast', env.message.sender = n.local_agent_id → env ∈ cast) : Peaceful c keys cast' n where
  stored r p hp := by
    obtain ⟨a, env, henv, hrest⟩ := h.stored r p hp
    exact ⟨a, env, hsub henv, hrest⟩
  proposed env henv r p hs := h.proposed env (hnew env henv hs.sender) r p hs
  seen key e he := ⟨hsub (h.seen key e he).1, (h.seen key e he).2⟩
  stays := h.stays

/-- Epochs of one member at one height are one epoch. -/
theorem Calm.epoch_eq {c : Crypto} {k : ConsensusCommittee} {cast : Set ConsensusEnvelope} (h : Calm k cast)
    (ho : Orderly c cast) {env env' : ConsensusEnvelope} (henv : env ∈ cast) (henv' : env' ∈ cast)
    (hs : env.message.sender = env'.message.sender) (hheight : env.message.height = env'.message.height) :
    env.message.epoch = env'.message.epoch := by
  rcases ho.comparable env henv env' henv' hs with heq | hlt | hlt
  · exact heq
  · exact absurd hheight (ne_of_lt (builds_height_lt hlt (h.height env' henv')))
  · exact absurd hheight.symm (ne_of_lt (builds_height_lt hlt (h.height env henv)))

theorem kind_eq_proposal {b : ConsensusMessageBody} (h : b.kind = .Proposal) : ∃ p, b = .Proposal p := by
  cases b with
  | Proposal p => exact ⟨p, rfl⟩
  | Prevote v => cases h
  | Precommit v => cases h

theorem kind_eq_vote {b : ConsensusMessageBody} (h : b.kind ≠ .Proposal) : ∃ k v, b = VoteKind.body k v := by
  cases b with
  | Proposal p => exact absurd rfl h
  | Prevote v => exact ⟨.prevote, v, rfl⟩
  | Precommit v => exact ⟨.precommit, v, rfl⟩

/-- Two envelopes under one key are one envelope. -/
theorem Calm.key_inj {c : Crypto} {k : ConsensusCommittee} {cast : Set ConsensusEnvelope} (h : Calm k cast)
    (ho : Orderly c cast) {env env' : ConsensusEnvelope} (henv : env ∈ cast) (henv' : env' ∈ cast)
    (hkey : SignedMessageKey.from_message env.message = .from_message env'.message) : env = env' := by
  simp only [SignedMessageKey.from_message, SignedMessageKey.mk.injEq] at hkey
  obtain ⟨hheight, hround, hsender, hkind⟩ := hkey
  have hepoch := h.epoch_eq ho henv henv' hsender hheight
  by_cases hprop : env.message.body.kind = .Proposal
  · obtain ⟨p, hp⟩ := kind_eq_proposal hprop
    obtain ⟨p', hp'⟩ := kind_eq_proposal (hkind ▸ hprop)
    exact h.one_proposal env henv env' henv' _ _ _ p p' ⟨hsender, hepoch, hround, hp⟩ ⟨rfl, rfl, rfl, hp'⟩
  · obtain ⟨vk, v, hv⟩ := kind_eq_vote hprop
    obtain ⟨vk', v', hv'⟩ := kind_eq_vote (hkind ▸ hprop)
    have : vk = vk' := by
      rw [hv, hv'] at hkind
      cases vk <;> cases vk' <;> first | rfl | cases hkind
    subst this
    exact ho.unique env henv env' henv' _ _ _ vk v v' ⟨hsender, hepoch, hround, hv⟩ ⟨rfl, rfl, rfl, hv'⟩

/-- Something new said: no second proposal, and no precommit outside the round of the others. -/
theorem Calm.saying {k : ConsensusCommittee} {cast : Set ConsensusEnvelope} (h : Calm k cast) {env : ConsensusEnvelope}
    (hsender : env.message.sender ∈ k.roster) (hheight : env.message.height < u64Max)
    (hprop : ∀ env' ∈ cast, ∀ a ep r p p', Says env a ep r (.Proposal p) → ¬ Says env' a ep r (.Proposal p'))
    (hround : ∀ env' ∈ cast, ∀ a ep r r' v v', Says env a ep r (.Precommit v) → Says env' a ep r' (.Precommit v') → r' = r) :
    Calm k (said cast [.send env]) := by
  have hmem : ∀ x ∈ said cast [.send env], x ∈ cast ∨ x = env := by
    rintro x (hx | hx)
    · exact .inl hx
    · exact .inr (by simpa using hx)
  refine ⟨fun x hx => ?_, fun x hx => ?_, fun x hx y hy a ep r p p' h₁ h₂ => ?_, fun x hx y hy a ep r r' v v' h₁ h₂ => ?_⟩
  · rcases hmem x hx with hx | rfl
    · exact h.sender x hx
    · exact hsender
  · rcases hmem x hx with hx | rfl
    · exact h.height x hx
    · exact hheight
  · rcases hmem x hx with hx' | hx' <;> rcases hmem y hy with hy' | hy'
    · exact h.one_proposal x hx' y hy' a ep r p p' h₁ h₂
    · exact absurd h₁ (hprop x hx' a ep r p' p (hy' ▸ h₂))
    · exact absurd h₂ (hprop y hy' a ep r p p' (hx' ▸ h₁))
    · exact hx'.trans hy'.symm
  · rcases hmem x hx with hx' | hx' <;> rcases hmem y hy with hy' | hy'
    · exact h.one_round x hx' y hy' a ep r r' v v' h₁ h₂
    · exact hround x hx' a ep r' r v' v (hy' ▸ h₂) h₁
    · exact (hround y hy' a ep r r' v v' (hx' ▸ h₁) h₂).symm
    · exact h₁.round.symm.trans ((hx'.trans hy'.symm) ▸ h₂.round)

section Move
variable {c : Crypto} {k : ConsensusCommittee} {keys : AgentId → SigningKey} {cast : Set ConsensusEnvelope}
  {n n₀ n' : ConsensusNode} {input : Input} {e : Effect}

/-- A node that only voted or heard votes. -/
theorem Peaceful.voted (h : Peaceful c keys cast n) (hkin : Kin n n') (hstill : Still n n')
    (hprop : n'.proposals = n.proposals) (hem : ∀ r ∈ n'.emitted_precommits, r ∈ n.emitted_precommits ∨ r = n.round) :
    Peaceful c keys cast n' := by
  refine ⟨fun r p hp => ?_, fun env henv r p hs => ?_, fun key e he => ?_, fun r hr => ?_⟩
  · rw [hkin.committee, hstill.previous, hstill.epoch]
    exact h.stored r p (hprop ▸ hp)
  · rw [hkin.id, hstill.epoch] at hs
    rw [hprop]; exact h.proposed env henv r p hs
  · exact h.seen key e (hstill.seen ▸ he)
  · rw [hstill.round]
    rcases hem r hr with hr | hr
    · exact h.stays r hr
    · exact hr

/-- A proposal for a round that has none yet, cast by the round's proposer. -/
theorem Peaceful.insert (h : Peaceful c keys cast n) {r : Nat} {p : ConsensusProposal} (hnone : n.proposals r = none)
    {a : AgentId} {env : ConsensusEnvelope} (henv : env ∈ cast)
    (hlead : n.committee.proposer_for c n.previous_commit_hash r = .ok a) (hs : Says env a n.epoch r (.Proposal p)) :
    Peaceful c keys cast { n with proposals := n.proposals.insert r p } := by
  refine ⟨fun r' p' hp' => ?_, fun env' henv' r' p' hs' => ?_, h.seen, h.stays⟩
  · simp only [Map.insert_apply] at hp'
    split at hp'
    · rename_i heq
      subst heq
      cases hp'
      exact ⟨a, env, henv, hlead, hs⟩
    · exact h.stored r' p' hp'
  · have hold := h.proposed env' henv' r' p' hs'
    simp only [Map.insert_apply]
    split
    · rename_i heq
      rw [heq, hnone] at hold
      cases hold
    · exact hold

/-- What the committee relies on for a call: its envelope is genuine, it keeps the node
in a round it has precommitted in, and the height can grow. -/
structure Orderliness (c : Crypto) (keys : AgentId → SigningKey) (cast : Set ConsensusEnvelope) (n₀ : ConsensusNode)
    (input : Input) : Prop where
  genuine : ∀ e t, input = .deliver e t → e.envelope ∈ cast ∧ SignedBy c keys e ∧ e.verifies c = true
  stays : n₀.round ∈ n₀.emitted_precommits → leavesFor c n₀ input = none
  height : n₀.height < u64Max

theorem Orderliness.brings (h : Orderliness c keys cast n₀ input) {m : ConsensusMessage} (hbr : Brings c n₀ input m) :
    ∃ env ∈ cast, env.message = m := by
  cases input with
  | deliver e t => exact ⟨e.envelope, (h.genuine e t rfl).1, hbr.1⟩
  | _ => exact hbr.elim

/-- A genuine envelope never counts against its sender. -/
theorem Orderliness.not_offends (h : Orderliness c keys cast n₀ input) (ho : Orderly c cast) (hcalm : Calm k cast)
    (hp : Peaceful c keys cast n) {e : ConsensusSignedEnvelope} {t : Int} (hin : input = .deliver e t) :
    ¬ Offends c n e := by
  obtain ⟨henv, hsig, hver⟩ := h.genuine e t hin
  unfold Offends
  split
  · rename_i previous hseen
    obtain ⟨henv', hsig', hkey⟩ := hp.seen _ _ hseen
    have heq : e.envelope = previous.envelope := hcalm.key_inj ho henv henv' hkey
    have hpe : previous = e := by
      rw [hsig, hsig', heq]
    exact not_not.2 hpe
  · rw [hver]; simp

/-- The new epoch of a commit has never been spoken in. -/
theorem Upright.epoch_new {good : Finset AgentId} (h : Upright c good cast n) (hmax : n.height < u64Max)
    {env : ConsensusEnvelope} (henv : env ∈ cast) (hs : env.message.sender = n.local_agent_id) (r : Nat)
    (p : ConsensusProposal) (t : Int) : env.message.epoch ≠ (n.after_commit c r p t).epoch := by
  intro heq
  have hheight : env.message.epoch.1 = n.height + 1 := by
    rw [heq]; exact satAdd_one_of_lt hmax
  rcases h.past_or_now henv hs with hnow | hpast
  · rw [hnow] at hheight
    simp [ConsensusNode.epoch] at hheight
  · have := builds_height_lt hpast hmax
    rw [hheight] at this
    simp [ConsensusNode.epoch] at this

theorem Peaceful.moves (hp : Peaceful c keys cast n) (hu : Upright c k.roster cast n) (ho : Orderly c cast)
    (hcalm : Calm k cast) (hk : n.committee = k) (hord : Orderliness c keys cast n₀ input) (hm : Moves c n₀ input n e n') :
    Peaceful c keys (said cast [e]) n' ∧ Calm k (said cast [e]) := by
  obtain ⟨hd, hepoch, hall⟩ := hm
  have hheight : n.height < u64Max := by
    have := congrArg Prod.fst hepoch
    simp only [ConsensusNode.epoch] at this
    rw [this]; exact hord.height
  have hfresh : ¬ TransGen (Builds c) n.epoch n.epoch := fun h => lt_irrefl _ (builds_height_lt h hheight)
  have hme : n.local_agent_id ∈ k.roster := ConsensusCommittee.mem_roster.2 (hk ▸ n.is_member)
  cases hd with
  | pend =>
    rw [said_single_of_not_send _ (by simp)]
    exact ⟨⟨hp.stored, hp.proposed, hp.seen, hp.stays⟩, hcalm⟩
  | @enter r t hr =>
    rw [said_single_of_not_send _ (by simp)]
    refine ⟨⟨hp.stored, hp.proposed, hp.seen, fun r' hr' => ?_⟩, hcalm⟩
    -- the node would leave a round it has precommitted in
    obtain ⟨hleaves, hround, hem⟩ := hall
    have hin : n₀.round ∈ n₀.emitted_precommits := by
      have hem' : n.emitted_precommits = n₀.emitted_precommits := congrFun hem .precommit
      rw [← hem', ← hround, ← hp.stays r' hr']
      exact hr'
    rw [hord.stays hin] at hleaves
    cases hleaves
  | @propose r p t hr hlead hn hq =>
    have hs := says_build_envelope n r (.Proposal p) t
    have hcalm' : Calm k (said cast [.send (n.build_envelope r (.Proposal p) t)]) := by
      refine hcalm.saying hme hheight (fun env' henv' a ep r' p₁ p₂ h₁ h₂ => ?_) (fun env' henv' a ep r' r'' v v' h₁ _ => ?_)
      · have := hp.proposed env' henv' r p₂ ⟨h₂.sender.trans (h₁.sender.symm.trans hs.sender),
          h₂.epoch.trans (h₁.epoch.symm.trans hs.epoch), h₂.round.trans (h₁.round.symm.trans hs.round), h₂.body⟩
        rw [hn] at this
        cases this
      · cases h₁.body
    refine ⟨?_, hcalm'⟩
    have hins : ∀ env ∈ said cast [.send (n.build_envelope r (.Proposal p) t)], env ∈ cast ∨
        env = n.build_envelope r (.Proposal p) t := by
      rintro env (henv | henv)
      · exact .inl henv
      · exact .inr (by simpa using henv)
    refine ⟨fun r' p' hp' => ?_, fun env henv r' p' hs' => ?_, fun key e he => ?_, hp.stays⟩
    · simp only [Map.insert_apply] at hp'
      split at hp'
      · rename_i heq
        subst heq
        cases hp'
        exact ⟨_, _, .inr (by simp), hlead, hs⟩
      · obtain ⟨a, env, henv, hrest⟩ := hp.stored r' p' hp'
        exact ⟨a, env, subset_said _ _ henv, hrest⟩
    · simp only [Map.insert_apply]
      rcases hins env henv with henv | rfl
      · have hold := hp.proposed env henv r' p' hs'
        split
        · rename_i heq
          rw [heq, hn] at hold
          cases hold
        · exact hold
      · rw [if_pos (hs'.round.symm.trans hs.round)]
        have := hs.body.symm.trans hs'.body
        simpa using this
    · exact ⟨subset_said _ _ (hp.seen key e he).1, (hp.seen key e he).2⟩
  | @store r a p hr hlead hn =>
    rw [said_single_of_not_send _ (by simp)]
    obtain ⟨-, m, hbr, hmr, hms, hmb⟩ := hall
    obtain ⟨env, henv, rfl⟩ := hord.brings hbr
    exact ⟨hp.insert hn henv hlead ⟨hms, hbr.accepts.epoch.trans hepoch.symm, hmr, hmb⟩, hcalm⟩
  | @cast vk r v t hr hn hv =>
    have hs := says_build_envelope n r (vk.body v) t
    refine ⟨?_, hcalm.saying hme hheight (fun env' henv' a ep r' p₁ p₂ h₁ _ => ?_)
      (fun env' henv' a ep r' r'' v₁ v₂ h₁ h₂ => ?_)⟩
    · have hvoted : Peaceful c keys cast ((n.mark vk r).hears vk r n.local_agent_id v) := by
        refine hp.voted ((kin_mark n vk r).trans (kin_hears _ vk r _ v)) ((still_mark n vk r).trans (still_hears _ vk r _ v))
          (by cases vk <;> rfl) (fun r' hr' => ?_)
        cases vk with
        | prevote => exact .inl hr'
        | precommit =>
          rcases Finset.mem_insert.1 hr' with rfl | hr'
          · exact .inr hall.1
          · exact .inl hr'
      refine ⟨fun r' p' hp' => ?_, fun env henv r' p' hs' => ?_, fun key e he => ?_, hvoted.stays⟩
      · obtain ⟨a, env, henv, hrest⟩ := hvoted.stored r' p' hp'
        exact ⟨a, env, subset_said _ _ henv, hrest⟩
      · rcases henv with henv | henv
        · exact hvoted.proposed env henv r' p' hs'
        · simp only [List.mem_singleton, Effect.send.injEq] at henv
          subst henv
          have := hs.body.symm.trans hs'.body
          cases vk <;> cases this
      · exact ⟨subset_said _ _ (hvoted.seen key e he).1, (hvoted.seen key e he).2⟩
    · have := hs.body.symm.trans h₁.body
      cases vk <;> cases this
    · -- the earlier precommit's round is marked, so it is the node's round
      have hin : r'' ∈ n.emitted .precommit := hu.not_yet hfresh henv' (v := v₂)
        ⟨h₂.sender.trans (h₁.sender.symm.trans hs.sender), h₂.epoch.trans (h₁.epoch.symm.trans hs.epoch), h₂.round, h₂.body⟩
      rw [hp.stays r'' hin, ← h₁.round, hs.round]
      exact hall.1.symm
  | @spoil vk r v hr hn hv =>
    rw [said_single_of_not_send _ (by simp)]
    refine ⟨hp.voted ((kin_mark n vk r).trans (kin_hears _ vk r _ v)) ((still_mark n vk r).trans (still_hears _ vk r _ v))
      (by cases vk <;> rfl) (fun r' hr' => ?_), hcalm⟩
    cases vk with
    | prevote => exact .inl hr'
    | precommit =>
      rcases Finset.mem_insert.1 hr' with rfl | hr'
      · exact .inr hall
      · exact .inl hr'
  | @hear vk r a v hr ha =>
    rw [said_single_of_not_send _ (by simp)]
    refine ⟨hp.voted (kin_hears n vk r a v) (still_hears n vk r a v) (by cases vk <;> rfl) (fun r' hr' => ?_), hcalm⟩
    cases vk <;> exact .inl hr'
  | @commit r p t hr hpr hv hc =>
    rw [said_single_of_not_send _ (by simp)]
    refine ⟨⟨fun r' p' hp' => ?_, fun env henv r' p' hs' => ?_, hp.seen, fun r' hr' => ?_⟩, hcalm⟩
    · cases hp'
    · exact absurd hs'.epoch (hu.epoch_new hheight henv hs'.sender r p t)
    · exact absurd hr' (Finset.notMem_empty r')
  | exclude =>
    obtain ⟨rfl, ev, t, hin, hoff, -⟩ := hall
    exact absurd hoff (hord.not_offends ho hcalm hp hin)
  | @see ev hn hv =>
    rw [said_single_of_not_send _ (by simp)]
    refine ⟨⟨hp.stored, hp.proposed, fun key x hx => ?_, hp.stays⟩, hcalm⟩
    obtain ⟨t, hin⟩ := hall
    simp only [seeing, Map.insert_apply] at hx
    split at hx
    · rename_i hkey
      cases hx
      exact ⟨(hord.genuine ev t hin).1, (hord.genuine ev t hin).2.1, hkey⟩
    · exact hp.seen key x hx

end Move

/-! ## The committee -/

/-- The committee's invariant when nobody misbehaves. -/
structure PeaceInv (c : Crypto) (k : ConsensusCommittee) (keys : AgentId → SigningKey) (cast : Set ConsensusEnvelope)
    (net : Net) : Prop where
  base : NetInv c k k.roster cast net
  keyed : ∀ a ∈ k.roster, (net.nodes a).local_signing_key = some (keys a)
  peaceful : ∀ a ∈ k.roster, Peaceful c keys cast (net.nodes a)
  calm : Calm k cast
  log : ∀ x ∈ net.log, (∃ a, ∃ env ∈ cast, k.proposer_for c x.previous_commit_hash x.commit.round = .ok a ∧
    Says env a x.epoch x.commit.round (.Proposal x.commit.proposal)) ∧
    x.commit.commit_hash = commit_hash c x.commit.height x.commit.round x.previous_commit_hash x.commit.proposal

/-- Along a call: the node stays peaceful, and what it commits was proposed. -/
theorem Behind.peaceful {c : Crypto} {k : ConsensusCommittee} {keys : AgentId → SigningKey} {cast : Set ConsensusEnvelope}
    {net net' : Net} {act : Act} {es : List Effect} (hb : Behind c net act es net') (h : PeaceInv c k keys cast net)
    (ha : act.1 ∈ k.roster) (hord : Orderliness c keys cast (net.nodes act.1) act.2) :
    Peaceful c keys (said cast es) (net'.nodes act.1) ∧ Calm k (said cast es) ∧
      ∀ p cm, .commit p cm ∈ es → (∃ a, ∃ env ∈ said cast es, k.proposer_for c p cm.round = .ok a ∧
        Says env a (cm.height, p) cm.round (.Proposal cm.proposal)) ∧
        cm.commit_hash = commit_hash c cm.height cm.round p cm.proposal := by
  have hfresh : ¬ TransGen (Builds c) (net.nodes act.1).epoch (net.nodes act.1).epoch :=
    fun h => lt_irrefl _ (builds_height_lt h hord.height)
  have key := hb.run.inv_past []
    (I := fun s past => s.committee = k ∧ Upright c k.roster (said cast past) s ∧ Orderly c (said cast past) ∧
      Peaceful c keys (said cast past) s ∧ Calm k (said cast past) ∧
      ∀ p cm, .commit p cm ∈ past → (∃ a, ∃ env ∈ said cast past, k.proposer_for c p cm.round = .ok a ∧
        Says env a (cm.height, p) cm.round (.Proposal cm.proposal)) ∧
        cm.commit_hash = commit_hash c cm.height cm.round p cm.proposal)
    (fun s past e t _ hI hm => ?_)
    ⟨h.base.committee _ ha, by rw [said_nil]; exact h.base.upright _ ha, by rw [said_nil]; exact h.base.orderly,
      by rw [said_nil]; exact h.peaceful _ ha, by rw [said_nil]; exact h.calm, by simp⟩
  · exact ⟨key.2.2.2.1, key.2.2.2.2.1, key.2.2.2.2.2⟩
  · obtain ⟨hk, hu, ho, hp, hcalm, hcm⟩ := hI
    have hord' : Orderliness c keys (said cast past) (net.nodes act.1) act.2 :=
      ⟨fun ev t hin => ⟨subset_said _ _ (hord.genuine ev t hin).1, (hord.genuine ev t hin).2⟩, hord.stays, hord.height⟩
    obtain ⟨hp', hcalm'⟩ := hp.moves hu ho hcalm hk hord' hm
    rw [← said_append]
    refine ⟨hm.1.kin.committee.trans hk, hu.moves hm (fun m hbr _ => hord'.brings hbr),
      ho.moves hu (by rw [hm.2.1]; exact hfresh) hm.1, hp', hcalm', fun p cm hmem => ?_⟩
    rcases List.mem_append.1 hmem with hmem | hmem
    · obtain ⟨⟨a, env, henv, hrest⟩, hhash⟩ := hcm p cm hmem
      exact ⟨⟨a, env, subset_said _ _ henv, hrest⟩, hhash⟩
    · rw [List.mem_singleton] at hmem
      subst hmem
      have hd := hm.1
      cases hd with
      | commit t hr hpr hv hc =>
        obtain ⟨a, env, henv, hlead, hs⟩ := hp.stored _ _ hpr
        exact ⟨⟨a, env, subset_said _ _ henv, hk ▸ hlead, hs⟩, rfl⟩

theorem PeaceInv.step {c : Crypto} {k : ConsensusCommittee} {keys : AgentId → SigningKey} {cast : Set ConsensusEnvelope}
    {net net' : Net} {act : Act} (h : PeaceInv c k keys cast net) (hc : SignaturesVerify c) (hk : k.FullSize)
    (hids : ∀ a ∈ k.roster, a = .from_verifying_key (c.verifying_key (keys a)))
    (hs : NetStep c k.roster (Genuine c) net act net') (hstays : Stays c net act) :
    ∃ cast', PeaceInv c k keys cast' net' := by
  have ha := hs.1.1
  have hord : Orderliness c keys cast (net.nodes act.1) act.2 := by
    refine ⟨fun ev t hin => ?_, hstays.1, hstays.2⟩
    have hgen : Genuine c net ev := by
      have := hs.1.2
      rw [hin] at this
      exact this
    have henv := h.base.sent _ hgen.1
    have hmem := h.calm.sender _ henv
    have hsig : SignedBy c keys ev := by
      have := hgen.2
      rw [sign_outbound, h.keyed _ hmem] at this
      simpa [SignedBy] using this.symm
    refine ⟨henv, hsig, ?_⟩
    rw [hsig]
    exact verifies_sign hc (hids _ hmem)
  obtain ⟨es, hbehind, hbase⟩ := h.base.step hk (fun h => lt_irrefl _ (builds_height_lt h hstays.2))
    (fun e (hg : Genuine c net e) _ _ => hg.1) hs
  obtain ⟨hp, hcalm, hcm⟩ := hbehind.peaceful h ha hord
  refine ⟨said cast es, hbase, fun a hmem => ?_, fun a hmem => ?_, hcalm, fun x hx => ?_⟩
  · by_cases haa : a = act.1
    · rw [haa, (run_kin (hbehind.run.mono (fun _ _ _ hm => hm.1))).key]
      exact h.keyed _ ha
    · rw [hbehind.others a haa]; exact h.keyed a hmem
  · by_cases haa : a = act.1
    · exact haa ▸ hp
    · rw [hbehind.others a haa]
      refine (h.peaceful a hmem).mono (subset_said _ _) ?_
      rintro env (henv | henv) hsender
      · exact henv
      · rw [run_moves_sender hbehind.run henv, h.base.id _ ha, h.base.id _ hmem] at hsender
        exact absurd hsender.symm haa
  · rcases hbehind.log x hx with hx | ⟨-, -, hx⟩
    · obtain ⟨⟨a, env, henv, hrest⟩, hhash⟩ := h.log x hx
      exact ⟨⟨a, env, subset_said _ _ henv, hrest⟩, hhash⟩
    · exact hcm _ _ hx

theorem peaceInv_convened {c : Crypto} {k : ConsensusCommittee} {keys : AgentId → SigningKey} {previous : String} {net : Net}
    (h : Convened c k keys previous net) : PeaceInv c k keys ∅ net where
  base := netInv_started h.started
  keyed a ha := by
    obtain ⟨-, config, t, hn⟩ := h.nodes a ha
    exact (new_internal_ok hn).2.1
  peaceful a ha := by
    obtain ⟨-, config, t, hn⟩ := h.nodes a ha
    obtain ⟨-, -, -, -, -, -, hprop, hseen, -, hem⟩ := new_internal_ok hn
    refine ⟨fun r p hp => ?_, by simp, fun key e he => ?_, fun r hr => ?_⟩
    · rw [hprop] at hp; cases hp
    · rw [hseen] at he; cases he
    · rw [hem] at hr; exact absurd hr (Finset.notMem_empty r)
  calm := ⟨by simp, by simp, by simp, by simp⟩
  log := by simp [h.log]

/-- Two commits of one height are the same when the invariant holds. -/
theorem PeaceInv.agree {c : Crypto} {k : ConsensusCommittee} {keys : AgentId → SigningKey} {cast : Set ConsensusEnvelope}
    {net : Net} (h : PeaceInv c k keys cast net) (hk : k.FullSize) {x y : Committed} (hx : x ∈ net.log) (hy : y ∈ net.log)
    (hheight : x.commit.height = y.commit.height) :
    x.commit.proposal = y.commit.proposal ∧ x.commit.commit_hash = y.commit.commit_hash := by
  obtain ⟨Q, hQ, ht, hvotes⟩ := h.base.log x hx
  obtain ⟨Q', hQ', ht', hvotes'⟩ := h.base.log y hy
  obtain ⟨a, haQ, haQ', -⟩ := hk.exists_common hQ hQ' ht ht' (F := ∅) (by simp)
  obtain ⟨env, henv, hs⟩ := hvotes a haQ (hQ haQ)
  obtain ⟨env', henv', hs'⟩ := hvotes' a haQ' (hQ haQ)
  -- a common voter: one epoch for the height, and one round for the epoch
  have hepoch : x.epoch = y.epoch := by
    rw [← hs.epoch, ← hs'.epoch]
    refine h.calm.epoch_eq h.base.orderly henv henv' (hs.sender.trans hs'.sender.symm) ?_
    have h₁ := congrArg Prod.fst hs.epoch
    have h₂ := congrArg Prod.fst hs'.epoch
    exact h₁.trans (hheight.trans h₂.symm)
  have hround : x.commit.round = y.commit.round :=
    h.calm.one_round env henv env' henv' a x.epoch _ _ _ _ hs (hepoch ▸ hs')
  have hprevious : x.previous_commit_hash = y.previous_commit_hash := congrArg Prod.snd hepoch
  obtain ⟨⟨b, prop, hprop, hlead, hsays⟩, hhash⟩ := h.log x hx
  obtain ⟨⟨b', prop', hprop', hlead', hsays'⟩, hhash'⟩ := h.log y hy
  have hb : b = b' := by
    rw [hprevious, hround, hlead'] at hlead
    cases hlead; rfl
  have heq : prop = prop' := h.calm.one_proposal prop hprop prop' hprop' b x.epoch x.commit.round _ _ hsays
    (by rw [hb, hepoch, hround]; exact hsays')
  have hproposal : x.commit.proposal = y.commit.proposal := by
    subst heq
    simpa using hsays.body.symm.trans hsays'.body
  exact ⟨hproposal, by rw [hhash, hhash', hheight, hround, hprevious, hproposal]⟩

/-- In a committee of `3f + 1` members that all run the code, when no call takes a node
out of a round it has precommitted in and none is made at the maximal height, all commits
of one height carry the same proposal and the same hash. -/
theorem one_commit_per_height (c : Crypto) (hc : SignaturesVerify c) (k : ConsensusCommittee) (hk : k.FullSize)
    (keys : AgentId → SigningKey) (previous : String) (net₀ net : Net) (acts : List Act)
    (hstart : Convened c k keys previous net₀)
    (hrun : Run (fun s act t => NetStep c k.roster (Genuine c) s act t ∧ Stays c s act) net₀ acts net)
    (x y : Committed) (hx : x ∈ net.log) (hy : y ∈ net.log) (hheight : x.commit.height = y.commit.height) :
    x.commit.proposal = y.commit.proposal ∧ x.commit.commit_hash = y.commit.commit_hash := by
  have hinv : ∃ cast, PeaceInv c k keys cast net := by
    refine hrun.inv (I := fun net => ∃ cast, PeaceInv c k keys cast net) ?_ ⟨∅, peaceInv_convened hstart⟩
    rintro s act t - ⟨cast, hI⟩ ⟨hs, hstays⟩
    exact hI.step hc hk (fun a ha => (hstart.nodes a ha).1) hs hstays
  obtain ⟨cast, hinv⟩ := hinv
  exact hinv.agree hk hx hy hheight

/-! ## Two rounds of one height -/

/-- The members of `four` under their keys. -/
def fourKeys (a : AgentId) : SigningKey :=
  if a = seat "a" then "a" else if a = seat "b" then "b" else if a = seat "c" then "c" else "d"

theorem plain_signaturesVerify : SignaturesVerify .plain := fun _ _ => ⟨rfl, rfl, by simp [Crypto.plain]⟩

theorem table_convened : Convened .plain four fourKeys "genesis" table where
  nodes a ha := by
    obtain ⟨key, hkey, hmem, rfl, hn⟩ := table_nodes (ConsensusCommittee.mem_roster.1 ha)
    have hk : fourKeys (seat key) = key := by
      simp only [List.mem_cons, List.not_mem_nil, or_false] at hmem
      rcases hmem with rfl | rfl | rfl | rfl <;> decide
    rw [hk, hn]
    exact ⟨rfl, {}, 0, new_seated hkey⟩
  sent := rfl
  log := rfl

/-- Round 0: three members vote for the leader's proposal, and one of them commits it. -/
def firstRound : List Act := [
  (seat "d", .queue ⟨"x", .null⟩ 0),
  (seat "a", .deliver (signs "d" 0 0 (.Proposal ⟨"x", .null⟩)) 0),
  (seat "b", .deliver (signs "d" 0 0 (.Proposal ⟨"x", .null⟩)) 0),
  (seat "a", .deliver (signs "d" 0 0 (.Prevote (some "x"))) 0),
  (seat "a", .deliver (signs "b" 0 0 (.Prevote (some "x"))) 0),
  (seat "b", .deliver (signs "d" 0 0 (.Prevote (some "x"))) 0),
  (seat "b", .deliver (signs "a" 0 0 (.Prevote (some "x"))) 0),
  (seat "d", .deliver (signs "a" 0 0 (.Prevote (some "x"))) 0),
  (seat "d", .deliver (signs "b" 0 0 (.Prevote (some "x"))) 0),
  (seat "a", .deliver (signs "b" 0 0 (.Precommit (some "x"))) 0),
  (seat "a", .deliver (signs "d" 0 0 (.Precommit (some "x"))) 0)]

/-- Round 1: the leader times out and proposes something else, and the others follow. -/
def secondRound : List Act := [
  (seat "d", .queue ⟨"y", .null⟩ 0),
  (seat "d", .tick 1000),
  (seat "b", .deliver (signs "d" 1 1000 (.Proposal ⟨"y", .null⟩)) 0),
  (seat "c", .deliver (signs "d" 1 1000 (.Proposal ⟨"y", .null⟩)) 0),
  (seat "b", .deliver (signs "d" 1 1000 (.Prevote (some "y"))) 0),
  (seat "b", .deliver (signs "c" 1 0 (.Prevote (some "y"))) 0),
  (seat "c", .deliver (signs "d" 1 1000 (.Prevote (some "y"))) 0),
  (seat "c", .deliver (signs "b" 1 0 (.Prevote (some "y"))) 0),
  (seat "d", .deliver (signs "b" 1 0 (.Prevote (some "y"))) 0),
  (seat "d", .deliver (signs "c" 1 0 (.Prevote (some "y"))) 0),
  (seat "b", .deliver (signs "c" 1 0 (.Precommit (some "y"))) 0),
  (seat "b", .deliver (signs "d" 1 0 (.Precommit (some "y"))) 0)]

/-- In round 0 a second member hears the precommits too. -/
def secondCommit : List Act := [
  (seat "b", .deliver (signs "a" 0 0 (.Precommit (some "x"))) 0),
  (seat "b", .deliver (signs "d" 0 0 (.Precommit (some "x"))) 0)]

/-- The two runs, computed. -/
theorem rounds_logs :
    (table.play .plain
      (fun net act => Lawful four.roster (Genuine .plain) net act ∧ Stays .plain net act)
      (firstRound ++ secondCommit)).map (·.log) =
    some [⟨seat "a", "genesis", commitIn 0 ⟨"x", .null⟩⟩, ⟨seat "b", "genesis", commitIn 0 ⟨"x", .null⟩⟩] ∧
    (table.play .plain (fun net act => Lawful four.roster (Genuine .plain) net act)
      (firstRound ++ secondRound)).map (·.log) =
    some [⟨seat "a", "genesis", commitIn 0 ⟨"x", .null⟩⟩, ⟨seat "b", "genesis", commitIn 1 ⟨"y", .null⟩⟩] := by
  decide +kernel

theorem one_round_log : (table.play .plain
      (fun net act => Lawful four.roster (Genuine .plain) net act ∧ Stays .plain net act)
      (firstRound ++ secondCommit)).map (·.log) =
    some [⟨seat "a", "genesis", commitIn 0 ⟨"x", .null⟩⟩, ⟨seat "b", "genesis", commitIn 0 ⟨"x", .null⟩⟩] := by
  exact rounds_logs.1

theorem one_commit_per_height_four : ∃ net x y, x ∈ net.log ∧ y ∈ net.log ∧ x.node ≠ y.node ∧
    Run (fun s act t => NetStep .plain four.roster (Genuine .plain) s act t ∧ Stays .plain s act) table
      (firstRound ++ secondCommit) net ∧
    x.commit.proposal = y.commit.proposal ∧ x.commit.commit_hash = y.commit.commit_hash := by
  obtain ⟨net, hplay, hlog⟩ := Option.map_eq_some_iff.1 one_round_log
  have hrun : Run (fun s act t => NetStep .plain four.roster (Genuine .plain) s act t ∧ Stays .plain s act) table
      (firstRound ++ secondCommit) net := by
    refine (run_of_play hplay).mono (fun s act t h => ?_)
    have hboth := of_decide_eq_true h.1
    exact ⟨⟨hboth.1, h.2⟩, hboth.2⟩
  refine ⟨net, ⟨seat "a", "genesis", commitIn 0 ⟨"x", .null⟩⟩, ⟨seat "b", "genesis", commitIn 0 ⟨"x", .null⟩⟩,
    by simp [hlog], by simp [hlog], by decide, hrun, ?_⟩
  exact one_commit_per_height .plain plain_signaturesVerify four (by decide) fourKeys "genesis" table net _
    table_convened hrun _ _ (by simp [hlog]) (by simp [hlog]) rfl

theorem two_rounds_log : (table.play .plain (fun net act => Lawful four.roster (Genuine .plain) net act)
      (firstRound ++ secondRound)).map (·.log) =
    some [⟨seat "a", "genesis", commitIn 0 ⟨"x", .null⟩⟩, ⟨seat "b", "genesis", commitIn 1 ⟨"y", .null⟩⟩] := by
  exact rounds_logs.2

/-- Four members that all run the code commit two proposals at height 1: three have
precommitted the first, and after a timeout two of them vote for the second. -/
theorem two_commits_at_height_one : ∃ net x y, four.FullSize ∧ Convened .plain four fourKeys "genesis" table ∧
    Run (NetStep .plain four.roster (Genuine .plain)) table (firstRound ++ secondRound) net ∧
    x ∈ net.log ∧ y ∈ net.log ∧ x.commit.height = y.commit.height ∧
    x.commit.proposal ≠ y.commit.proposal ∧ x.commit.commit_hash ≠ y.commit.commit_hash := by
  obtain ⟨net, hplay, hlog⟩ := Option.map_eq_some_iff.1 two_rounds_log
  refine ⟨net, ⟨seat "a", "genesis", commitIn 0 ⟨"x", .null⟩⟩, ⟨seat "b", "genesis", commitIn 1 ⟨"y", .null⟩⟩, by decide,
    table_convened, (run_of_play hplay).mono (fun s act t h => ⟨of_decide_eq_true h.1, h.2⟩), by simp [hlog],
    by simp [hlog], rfl, ?_, ?_⟩
  · exact (by decide : (⟨"x", .null⟩ : ConsensusProposal) ≠ ⟨"y", .null⟩)
  · decide +kernel

end Ambush.Consensus

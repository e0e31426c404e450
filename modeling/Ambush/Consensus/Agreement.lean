import Ambush.Consensus.Network
/-!
# Agreement within a round

With at most `f` of `3f + 1` members dishonest, the commits of honest nodes in one round
of one epoch carry one proposal id. They carry one proposal only if no two proposals with
the same id are offered there: votes name the id alone.
-/
open Lib Relation

namespace Ambush.Consensus

open ConsensusNode

/-- An honest majority of a committee of `3f + 1`. -/
structure Honest (k : ConsensusCommittee) (good : Finset AgentId) : Prop where
  size : k.FullSize
  members : good ⊆ k.roster
  faulty : (k.roster \ good).card ≤ k.max_faulty

/-- Two certificates of one round of one epoch are for one proposal id. -/
theorem Certified.agree {c : Crypto} {k : ConsensusCommittee} {good : Finset AgentId} {cast : Set ConsensusEnvelope}
    (hk : Honest k good) (ho : Orderly c cast) {ep : Epoch} {r : Nat} {id id' : String}
    (h : Certified k good cast ep r id) (h' : Certified k good cast ep r id') : id = id' := by
  obtain ⟨Q, hQ, ht, hall⟩ := h
  obtain ⟨Q', hQ', ht', hall'⟩ := h'
  obtain ⟨a, haQ, haQ', hnot⟩ := hk.size.exists_common hQ hQ' ht ht' hk.faulty
  have hgood : a ∈ good := by
    by_contra hbad
    exact hnot (Finset.mem_sdiff.2 ⟨hQ haQ, hbad⟩)
  obtain ⟨env, henv, hs⟩ := hall a haQ hgood
  obtain ⟨env', henv', hs'⟩ := hall' a haQ' hgood
  have heq := ho.unique env henv env' henv' a ep r .precommit (some id) (some id') hs hs'
  subst heq
  have := hs.body.symm.trans hs'.body
  simpa using this

theorem run_netInv {c : Crypto} {k : ConsensusCommittee} {good : Finset AgentId} {net₀ net : Net} {acts : List Act}
    (hk : Honest k good) (hcycle : NoCommitCycle c) (hstart : Started k good net₀)
    (hrun : Run (NetStep c good (Unforged c good)) net₀ acts net) : ∃ cast, NetInv c k good cast net := by
  refine hrun.inv (I := fun net => ∃ cast, NetInv c k good cast net) ?_ ⟨∅, netInv_started hstart⟩
  rintro net act net' - ⟨cast, hinv⟩ hs
  obtain ⟨es, -, hinv'⟩ := hinv.step hk.size (hcycle _) (fun _ h => h) hs
  exact ⟨_, hinv'⟩

/-- The member with a key. -/
def seat (key : SigningKey) : AgentId := .from_verifying_key (Crypto.plain.verifying_key key)

/-- The committee `ConsensusCommittee::new` builds from four members and `f = 1`. -/
def four : ConsensusCommittee where
  members := ["a", "b", "c", "d"].map seat
  max_faulty := 1
  threshold := 3
  committee_id := Crypto.plain.digest (.object [("max_faulty", .integer 1),
    ("members", .array (["a", "b", "c", "d"].map (fun key => .string (seat key))))])
  sorted := by decide
  threshold_eq := by decide
  threshold_le := by decide

example :
    ConsensusCommittee.new .plain (["a", "b", "c", "d"].map seat) (recommended_max_faulty 4) = .ok four := by
  decide +kernel

/-- What `new_with_signing_key` makes of a member of `four`. -/
def seated (key : SigningKey) (h : seat key ∈ four.members) : ConsensusNode where
  local_agent_id := seat key
  local_signing_key := some key
  committee := four
  config := {}
  height := 1
  round := 0
  step := .Propose
  previous_commit_hash := "genesis"
  round_started_at_ms := 0
  proposals := .empty
  prevotes := .empty
  precommits := .empty
  emitted_prevotes := ∅
  emitted_precommits := ∅
  pending_local_proposal := none
  seen_signed_messages := .empty
  excluded_members := .empty
  is_member := h
  timeout_pos := by decide

theorem new_seated {key : SigningKey} (h : seat key ∈ four.members) :
    new_with_signing_key (seat key) key four {} "genesis" 0 = .ok (seated key h) := by
  unfold new_with_signing_key new_internal
  rw [dif_pos h, dif_pos (by decide)]
  rfl

/-- The four members at the start. -/
def table : Net where
  nodes a :=
    if a = seat "a" then seated "a" (by decide)
    else if a = seat "b" then seated "b" (by decide)
    else if a = seat "c" then seated "c" (by decide)
    else seated "d" (by decide)
  sent := []
  log := []

theorem table_nodes {a : AgentId} (ha : a ∈ four.members) :
    ∃ key h, key ∈ ["a", "b", "c", "d"] ∧ a = seat key ∧ table.nodes a = seated key h := by
  simp only [four, List.map_cons, List.map_nil, List.mem_cons, List.not_mem_nil, or_false] at ha
  rcases ha with rfl | rfl | rfl | rfl
  · exact ⟨"a", by decide, by simp, rfl, by simp [table]⟩
  · exact ⟨"b", by decide, by simp, rfl, by simp [table, show seat "b" ≠ seat "a" by decide]⟩
  · exact ⟨"c", by decide, by simp, rfl, by
      simp [table, show seat "c" ≠ seat "a" by decide, show seat "c" ≠ seat "b" by decide]⟩
  · exact ⟨"d", by decide, by simp, rfl, by
      simp [table, show seat "d" ≠ seat "a" by decide, show seat "d" ≠ seat "b" by decide,
        show seat "d" ≠ seat "c" by decide]⟩

theorem table_started {good : Finset AgentId} (h : good ⊆ four.roster) : Started four good table where
  nodes a ha := by
    obtain ⟨key, hkey, -, rfl, hn⟩ := table_nodes (ConsensusCommittee.mem_roster.1 (h ha))
    rw [hn]
    exact ⟨some key, {}, "genesis", 0, new_seated hkey⟩
  sent := rfl
  log := rfl

/-- The members of `four` but the one whose key is `"d"`, who leads every round. -/
def trio : Finset AgentId := {seat "a", seat "b", seat "c"}

theorem honest_trio : Honest four trio where
  size := by decide
  members := by decide
  faulty := by decide

/-- What a member of `four` signs at height 1. -/
def signs (key : SigningKey) (round : Nat) (sent_at_ms : Int) (body : ConsensusMessageBody) : ConsensusSignedEnvelope :=
  .sign .plain {
    subject := ({} : JetStreamSubjectLayout).round_subject four 1 round
    message := { height := 1, round, previous_commit_hash := "genesis", sender := seat key, sent_at_ms, body } } key

/-- The leader sends `p` to one node and `q` to another and votes for their id; the two
nodes hear each other and the leader. -/
def duel (p q : ConsensusProposal) : List Act := [
  (seat "a", .deliver (signs "d" 0 0 (.Proposal p)) 0),
  (seat "b", .deliver (signs "d" 0 0 (.Proposal q)) 0),
  (seat "a", .deliver (signs "b" 0 0 (.Prevote (some q.proposal_id))) 0),
  (seat "a", .deliver (signs "d" 0 0 (.Prevote (some p.proposal_id))) 0),
  (seat "b", .deliver (signs "a" 0 0 (.Prevote (some p.proposal_id))) 0),
  (seat "b", .deliver (signs "d" 0 0 (.Prevote (some q.proposal_id))) 0),
  (seat "a", .deliver (signs "b" 0 0 (.Precommit (some q.proposal_id))) 0),
  (seat "a", .deliver (signs "d" 0 0 (.Precommit (some p.proposal_id))) 0),
  (seat "b", .deliver (signs "a" 0 0 (.Precommit (some p.proposal_id))) 0),
  (seat "b", .deliver (signs "d" 0 0 (.Precommit (some q.proposal_id))) 0)]

/-- The commit of `p` in a round of height 1. -/
def commitIn (round : Nat) (p : ConsensusProposal) : ConsensusCommit where
  height := 1
  round
  committee_id := four.committee_id
  proposal := p
  prevote_tally := 3
  precommit_tally := 3
  commit_hash := commit_hash .plain 1 round "genesis" p

theorem duel_log : (table.play .plain (fun net act => Lawful trio (Unforged .plain trio) net act)
      (duel ⟨"x", .null⟩ ⟨"x", .bool true⟩)).map (·.log) =
    some [⟨seat "a", "genesis", commitIn 0 ⟨"x", .null⟩⟩, ⟨seat "b", "genesis", commitIn 0 ⟨"x", .bool true⟩⟩] := by
  decide +kernel

/-- Both nodes commit, each the proposal it was sent. -/
theorem duel_run : ∃ net, Run (NetStep .plain trio (Unforged .plain trio)) table (duel ⟨"x", .null⟩ ⟨"x", .bool true⟩) net ∧
    net.log = [⟨seat "a", "genesis", commitIn 0 ⟨"x", .null⟩⟩, ⟨seat "b", "genesis", commitIn 0 ⟨"x", .bool true⟩⟩] := by
  obtain ⟨net, hplay, hlog⟩ := Option.map_eq_some_iff.1 duel_log
  exact ⟨net, (run_of_play hplay).mono (fun s act t h => ⟨of_decide_eq_true h.1, h.2⟩), hlog⟩

/-- The node leads a round of its epoch. -/
def leads (c : Crypto) (n : ConsensusNode) (r : Nat) : Bool :=
  n.committee.proposer_for c n.previous_commit_hash r == .ok n.local_agent_id

/-- The proposals a call puts before a node, with their rounds: its own where the call
lets it lead, and the one it reads from a round's proposer. -/
def offers (c : Crypto) (n : ConsensusNode) (input : Input) : List (Nat × ConsensusProposal) :=
  (match proposesIn c n input, pendingIn n input with
    | some r, some p => if leads c n r then [(r, p)] else []
    | _, _ => []) ++
  match input with
  | .deliver e _ =>
    match e.envelope.message.body with
    | .Proposal p =>
      if Reads c n e ∧ n.committee.proposer_for c n.previous_commit_hash e.envelope.message.round =
          .ok e.envelope.message.sender then [(e.envelope.message.round, p)]
      else []
    | _ => []
  | _ => []

/-- Every proposal the call offers has the payload `body` gives its epoch, round and id. -/
def OffersAgree (c : Crypto) (body : Epoch → Nat → String → Value) (net : Net) (act : Act) : Prop :=
  ∀ x ∈ offers c (net.nodes act.1) act.2, x.2.payload = body (net.nodes act.1).epoch x.1 x.2.proposal_id

instance (c : Crypto) (body : Epoch → Nat → String → Value) (net : Net) (act : Act) :
    Decidable (OffersAgree c body net act) :=
  inferInstanceAs (Decidable (∀ x ∈ offers c (net.nodes act.1) act.2, _))

/-- The proposals a node holds have the payload `body` gives them. -/
def HoldsBodies (body : Epoch → Nat → String → Value) (n : ConsensusNode) : Prop :=
  ∀ r p, n.proposals r = some p → p.payload = body n.epoch r p.proposal_id

/-- A commit made in epoch `ep` has the payload and the hash its round and id determine. -/
def Bound (c : Crypto) (body : Epoch → Nat → String → Value) (ep : Epoch) (cm : ConsensusCommit) : Prop :=
  cm.proposal.payload = body ep cm.round cm.proposal.proposal_id ∧
    cm.commit_hash = commit_hash c ep.1 cm.round ep.2 cm.proposal

theorem HoldsBodies.insert {body : Epoch → Nat → String → Value} {n : ConsensusNode} (h : HoldsBodies body n) {r : Nat}
    {p : ConsensusProposal} (hp : p.payload = body n.epoch r p.proposal_id) :
    HoldsBodies body { n with proposals := n.proposals.insert r p } := by
  intro r' p' hr'
  simp only [Map.insert_apply] at hr'
  split at hr'
  · rename_i heq
    cases hr'
    rw [heq]; exact hp
  · exact h r' p' hr'

/-- Own proposals and those read from others are among the offers of the call. -/
theorem Moves.offered {c : Crypto} {n₀ n n' : ConsensusNode} {input : Input} {e : Effect} (hm : Moves c n₀ input n e n')
    (hkin : Kin n₀ n) {r : Nat} {p : ConsensusProposal}
    (he : (∃ t, e = .send (n.build_envelope r (.Proposal p) t)) ∨ ∃ a, e = .store r a p) : (r, p) ∈ offers c n₀ input := by
  obtain ⟨hd, hepoch, hall⟩ := hm
  have hprev : n.previous_commit_hash = n₀.previous_commit_hash := congrArg Prod.snd hepoch
  rcases he with ⟨t, rfl⟩ | ⟨a, rfl⟩
  · have hprop : proposesIn c n₀ input = some r := by
      rw [show r = n.round from hall.1]
      exact (hall.2 rfl).2
    have hpend : n.pending_local_proposal = pendingIn n₀ input := (hall.2 rfl).1
    generalize hx : Effect.send (n.build_envelope r (.Proposal p) t) = x at hd
    cases hd with
    | @propose r' p' t' hr hp hn hq =>
      simp only [build_envelope, Effect.send.injEq, ConsensusEnvelope.mk.injEq, ConsensusMessage.mk.injEq,
        ConsensusMessageBody.Proposal.injEq] at hx
      obtain ⟨-, -, rfl, -, -, -, rfl⟩ := hx
      rw [hq] at hpend
      rw [hkin.committee, hprev, hkin.id] at hp
      unfold offers
      rw [hprop, ← hpend]
      simp [leads, hp]
    | @cast k r' v t' hr hn hv =>
      simp only [build_envelope, Effect.send.injEq, ConsensusEnvelope.mk.injEq, ConsensusMessage.mk.injEq] at hx
      obtain ⟨-, -, -, -, -, -, hb⟩ := hx
      cases k <;> cases hb
    | _ => cases hx
  · obtain ⟨-, m, hbr, hmr, hms, hmb⟩ := hall
    cases hd with
    | store hr hp hn =>
      cases input with
      | deliver ev t =>
        obtain ⟨rfl, hreads⟩ := hbr
        rw [hkin.committee, hprev] at hp
        refine List.mem_append_right _ ?_
        simp only [hmb]
        rw [if_pos ⟨hreads, by rw [hmr, hms]; exact hp⟩, hmr]
        simp
      | _ => exact hbr.elim

theorem HoldsBodies.moves {c : Crypto} {body : Epoch → Nat → String → Value} {n₀ n n' : ConsensusNode} {input : Input}
    {e : Effect} (h : HoldsBodies body n) (hm : Moves c n₀ input n e n') (hkin : Kin n₀ n)
    (hoff : ∀ x ∈ offers c n₀ input, x.2.payload = body n₀.epoch x.1 x.2.proposal_id) : HoldsBodies body n' := by
  have hoffered := fun {r p} => hm.offered hkin (r := r) (p := p)
  obtain ⟨hd, hepoch, -⟩ := hm
  cases hd with
  | @propose r p t hr hp hn hq => exact h.insert (hepoch ▸ hoff _ (hoffered (.inl ⟨t, rfl⟩)))
  | @store r a p hr hp hn => exact h.insert (hepoch ▸ hoff _ (hoffered (.inr ⟨a, rfl⟩)))
  | commit => intro r p hr; cases hr
  | exclude =>
    intro r p hr
    refine h r p ?_
    simp only [excluding, drop_sender_round_contributions] at hr
    split at hr
    · rw [Map.remove_apply] at hr
      split at hr
      · cases hr
      · exact hr
    · exact hr
  | pend => exact h
  | enter => exact h
  | see => exact h
  | @cast k => cases k <;> exact h
  | @spoil k => cases k <;> exact h
  | @hear k => cases k <;> exact h

/-- Along the call behind a step, bodies stay bound and so are the commits. -/
theorem Behind.bound {c : Crypto} {body : Epoch → Nat → String → Value} {net net' : Net} {act : Act} {es : List Effect}
    (hb : Behind c net act es net') (hoff : OffersAgree c body net act) (h : HoldsBodies body (net.nodes act.1)) :
    HoldsBodies body (net'.nodes act.1) ∧ ∀ p cm, .commit p cm ∈ es → Bound c body (cm.height, p) cm := by
  have key := hb.run.inv_past []
    (I := fun s past => Kin (net.nodes act.1) s ∧ HoldsBodies body s ∧
      ∀ p cm, .commit p cm ∈ past → Bound c body (cm.height, p) cm)
    (fun s past e t _ hI hm => ?_) ⟨.refl _, h, by simp⟩
  · exact key.2
  · obtain ⟨hkin, hh, hcm⟩ := hI
    refine ⟨hkin.trans hm.1.kin, hh.moves hm hkin hoff, fun p cm hmem => ?_⟩
    rcases List.mem_append.1 hmem with hmem | hmem
    · exact hcm p cm hmem
    · rw [List.mem_singleton] at hmem
      subst hmem
      have hd := hm.1
      cases hd with
      | commit t hr hp hv hc => exact ⟨hh _ _ hp, rfl⟩

theorem duel_one_body_log : (table.play .plain
      (fun net act => Lawful trio (Unforged .plain trio) net act ∧ OffersAgree .plain (fun _ _ _ => .null) net act)
      (duel ⟨"x", .null⟩ ⟨"x", .null⟩)).map (·.log) =
    some [⟨seat "a", "genesis", commitIn 0 ⟨"x", .null⟩⟩, ⟨seat "b", "genesis", commitIn 0 ⟨"x", .null⟩⟩] := by
  decide +kernel

end Ambush.Consensus

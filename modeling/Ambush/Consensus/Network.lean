import Ambush.Consensus.Voting
/-!
# A committee at work

Honest members run `ConsensusNode`; everything else is the adversary's. It chooses who
is called next and with what, and may deliver any signed envelope to any node, as long
as it does not forge: an envelope that verifies as an honest member's was sent by that
member.
-/
open Lib Relation

namespace Ambush.Consensus

open ConsensusNode

/-- A commit a node has returned, with the hash the node was building on. -/
structure Committed where
  node : AgentId
  previous_commit_hash : String
  commit : ConsensusCommit
  deriving DecidableEq

def Committed.epoch (x : Committed) : Epoch := (x.commit.height, x.previous_commit_hash)

/-- The honest nodes, what their calls have returned for sending, and their commits. -/
structure Net where
  nodes : AgentId → ConsensusNode
  sent : List ConsensusEnvelope
  log : List Committed

/-- A call, and the node it is made on. -/
abbrev Act := AgentId × Input

/-- The network after node `a`'s call came out as `out`. -/
def Net.after (net : Net) (a : AgentId) (out : Outcome) : Net where
  nodes := Function.update net.nodes a out.1
  sent := net.sent ++ (returned out.2).outbound
  log := net.log ++ (returned out.2).commits.map (fun commit => ⟨a, (net.nodes a).previous_commit_hash, commit⟩)

def Net.step (c : Crypto) (net : Net) (act : Act) : Option Net := ((net.nodes act.1).call c act.2).map (net.after act.1)

/-- The call is one of an honest node, and delivers only what `admits` lets through. -/
def Lawful (good : Finset AgentId) (admits : Net → ConsensusSignedEnvelope → Prop) (net : Net) (act : Act) : Prop :=
  act.1 ∈ good ∧
  match act.2 with
  | .deliver e _ => admits net e
  | _ => True

def NetStep (c : Crypto) (good : Finset AgentId) (admits : Net → ConsensusSignedEnvelope → Prop) (net : Net) (act : Act)
    (net' : Net) : Prop :=
  Lawful good admits net act ∧ net.step c act = some net'

/-- An envelope that verifies as an honest member's was sent by that member. -/
def Unforged (c : Crypto) (good : Finset AgentId) (net : Net) (e : ConsensusSignedEnvelope) : Prop :=
  e.verifies c = true → e.envelope.message.sender ∈ good → e.envelope ∈ net.sent

/-- Every honest member has just been created as a member of `k`. -/
structure Started (k : ConsensusCommittee) (good : Finset AgentId) (net : Net) : Prop where
  nodes : ∀ a ∈ good, ∃ key config previous t, new_internal a key k config previous t = .ok (net.nodes a)
  sent : net.sent = []
  log : net.log = []

instance (c : Crypto) (good : Finset AgentId) (net : Net) (e : ConsensusSignedEnvelope) :
    Decidable (Unforged c good net e) := inferInstanceAs (Decidable (_ → _ → _))

instance (good : Finset AgentId) (admits : Net → ConsensusSignedEnvelope → Prop) [∀ net e, Decidable (admits net e)]
    (net : Net) (act : Act) : Decidable (Lawful good admits net act) :=
  match act with
  | (_, .deliver _ _) => inferInstanceAs (Decidable (_ ∧ _))
  | (_, .tick _) => inferInstanceAs (Decidable (_ ∧ True))
  | (_, .queue _ _) => inferInstanceAs (Decidable (_ ∧ True))

/-- The network after a sequence of calls, if each is allowed when its turn comes. -/
def Net.play (c : Crypto) (allowed : Net → Act → Bool) : Net → List Act → Option Net
  | net, [] => some net
  | net, act :: acts => if allowed net act then (net.step c act).bind (play c allowed · acts) else none

theorem run_of_play {c : Crypto} {allowed : Net → Act → Bool} {net net' : Net} {acts : List Act}
    (h : net.play c allowed acts = some net') :
    Run (fun s act t => allowed s act = true ∧ s.step c act = some t) net acts net' := by
  induction acts generalizing net with
  | nil => cases h; exact .nil
  | cons act acts ih =>
    rw [Net.play] at h
    split at h
    · rename_i hall
      obtain ⟨net₁, hstep, hrest⟩ := Option.bind_eq_some_iff.1 h
      exact .cons ⟨hall, hstep⟩ (ih hrest)
    · cases h

/-! ## The invariant -/

/-- The honest nodes are upright and orderly, and every commit is certified. -/
structure NetInv (c : Crypto) (k : ConsensusCommittee) (good : Finset AgentId) (cast : Set ConsensusEnvelope) (net : Net) :
    Prop where
  id : ∀ a ∈ good, (net.nodes a).local_agent_id = a
  committee : ∀ a ∈ good, (net.nodes a).committee = k
  upright : ∀ a ∈ good, Upright c good cast (net.nodes a)
  orderly : Orderly c cast
  sent : ∀ env ∈ net.sent, env ∈ cast
  log : ∀ x ∈ net.log, Certified k good cast x.epoch x.commit.round x.commit.proposal.proposal_id

/-- A freshly created node: what it is, and that it holds nothing. -/
theorem new_internal_ok {a : AgentId} {key : Option SigningKey} {k : ConsensusCommittee} {config : ConsensusConfig}
    {previous : String} {t : Int} {n : ConsensusNode} (h : new_internal a key k config previous t = .ok n) :
    n.local_agent_id = a ∧ n.local_signing_key = key ∧ n.committee = k ∧ n.epoch = (1, previous) ∧
      n.prevotes = .empty ∧ n.precommits = .empty ∧ n.proposals = .empty ∧ n.seen_signed_messages = .empty ∧
      n.excluded_members = .empty ∧ n.emitted_precommits = ∅ := by
  unfold new_internal at h
  split at h
  · split at h
    · cases h; exact ⟨rfl, rfl, rfl, rfl, rfl, rfl, rfl, rfl, rfl, rfl⟩
    · cases h
  · cases h

theorem netInv_started {c : Crypto} {k : ConsensusCommittee} {good : Finset AgentId} {net : Net}
    (h : Started k good net) : NetInv c k good ∅ net where
  id a ha := by
    obtain ⟨_, _, _, _, hn⟩ := h.nodes a ha
    exact (new_internal_ok hn).1
  committee a ha := by
    obtain ⟨_, _, _, _, hn⟩ := h.nodes a ha
    exact (new_internal_ok hn).2.2.1
  upright a ha := by
    obtain ⟨_, _, _, _, hn⟩ := h.nodes a ha
    obtain ⟨-, -, -, -, hpre, hcom, -⟩ := new_internal_ok hn
    exact upright_new hpre hcom (by simp)
  orderly := ⟨by simp, by simp⟩
  sent := by simp [h.sent]
  log := by simp [h.log]

/-- The call behind a step, as a run of moves. -/
structure Behind (c : Crypto) (net : Net) (act : Act) (es : List Effect) (net' : Net) : Prop where
  run : Run (Moves c (net.nodes act.1) act.2) (net.nodes act.1) es (net'.nodes act.1)
  others : ∀ b, b ≠ act.1 → net'.nodes b = net.nodes b
  sent : ∀ env ∈ net'.sent, env ∈ net.sent ∨ .send env ∈ es
  log : ∀ x ∈ net'.log, x ∈ net.log ∨
    x.node = act.1 ∧ x.previous_commit_hash = (net.nodes act.1).previous_commit_hash ∧
      .commit x.previous_commit_hash x.commit ∈ es

/-- A step keeps the invariant; what has been cast grows by what the call says. -/
theorem NetInv.step {c : Crypto} {k : ConsensusCommittee} {good : Finset AgentId} {cast : Set ConsensusEnvelope}
    {admits : Net → ConsensusSignedEnvelope → Prop} {net net' : Net} {act : Act} (h : NetInv c k good cast net)
    (hk : k.FullSize) (hfresh : ¬ TransGen (Builds c) (net.nodes act.1).epoch (net.nodes act.1).epoch)
    (hadm : ∀ e, admits net e → Unforged c good net e) (hs : NetStep c good admits net act net') :
    ∃ es, Behind c net act es net' ∧ NetInv c k good (said cast es) net' := by
  obtain ⟨⟨hgood, hdel⟩, hstep⟩ := hs
  obtain ⟨out, hcall, rfl⟩ := Option.map_eq_some_iff.1 hstep
  have hu := h.upright _ hgood
  have hfair : ∀ m, Brings c (net.nodes act.1) act.2 m → m.sender ∈ good → ∃ env ∈ cast, env.message = m := by
    intro m hbr hg
    rcases act with ⟨a, input⟩
    cases input with
    | queue => exact hbr.elim
    | tick => exact hbr.elim
    | deliver e t =>
      obtain ⟨rfl, hreads⟩ := hbr
      exact ⟨e.envelope, h.sent _ (hadm e hdel hreads.verifies hg), rfl⟩
  obtain ⟨es, hrun, hout, hcom, hu', ho', hcert⟩ := (call_called hcall).upright hu h.orderly hfresh
    (by rw [h.committee _ hgood]; exact hk) (by rw [h.id _ hgood]; exact hgood) hfair
  have hkin := run_kin (hrun.mono (fun _ _ _ hm => hm.1))
  refine ⟨es, ⟨?_, ?_, ?_, ?_⟩, ⟨?_, ?_, ?_, ho', ?_, ?_⟩⟩
  · simpa [Net.after] using hrun
  · intro b hb
    simp [Net.after, Function.update_of_ne hb]
  · intro env henv
    exact (List.mem_append.1 henv).imp_right (hout env)
  · intro x hx
    refine (List.mem_append.1 hx).imp_right (fun hx => ?_)
    obtain ⟨cm, hcm, rfl⟩ := List.mem_map.1 hx
    exact ⟨rfl, rfl, hcom cm hcm⟩
  · intro b hb
    by_cases hba : b = act.1
    · subst hba
      simp only [Net.after, Function.update_self]
      rw [hkin.id]; exact h.id _ hb
    · simp only [Net.after, Function.update_of_ne hba]
      exact h.id b hb
  · intro b hb
    by_cases hba : b = act.1
    · subst hba
      simp only [Net.after, Function.update_self]
      rw [hkin.committee]; exact h.committee _ hb
    · simp only [Net.after, Function.update_of_ne hba]
      exact h.committee b hb
  · intro b hb
    by_cases hba : b = act.1
    · subst hba
      simpa only [Net.after, Function.update_self] using hu'
    · simp only [Net.after, Function.update_of_ne hba]
      refine (h.upright b hb).mono (subset_said _ _) ?_
      rintro env (henv | henv) hsender
      · exact henv
      · rw [run_moves_sender hrun henv, h.id _ hgood, h.id _ hb] at hsender
        exact absurd hsender.symm hba
  · intro env henv
    rcases List.mem_append.1 henv with henv | henv
    · exact subset_said _ _ (h.sent env henv)
    · exact .inr (hout env henv)
  · intro x hx
    rcases List.mem_append.1 hx with hx | hx
    · exact (h.log x hx).mono (subset_said _ _)
    · obtain ⟨cm, hcm, rfl⟩ := List.mem_map.1 hx
      rw [← h.committee _ hgood]
      exact hcert _ cm (hcom cm hcm)

/-! ## Hashes that grow -/

/-- Under `Crypto.plain` a commit's hash contains the hash it is built on. -/
theorem plain_commit_hash_length (h r : Nat) (previous : String) (p : ConsensusProposal) :
    previous.length < (commit_hash .plain h r previous p).length := by
  simp only [commit_hash, Crypto.plain, Value.text, Value.textFields, String.length_append]
  have : "(".length = 1 := by decide
  omega

theorem plain_noCommitCycle : NoCommitCycle .plain := by
  have hgrow : ∀ e e', TransGen (Builds .plain) e e' → e.2.length < e'.2.length := by
    intro e e' h
    induction h with
    | single hb =>
      obtain ⟨r, p, rfl⟩ := hb
      exact plain_commit_hash_length _ _ _ _
    | tail _ hb ih =>
      obtain ⟨r, p, rfl⟩ := hb
      exact ih.trans (plain_commit_hash_length _ _ _ _)
  exact fun e h => lt_irrefl _ (hgrow e e h)

end Ambush.Consensus

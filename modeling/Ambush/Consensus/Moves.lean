import Ambush.Consensus.Calls
/-!
# A call as one run of effects

A node decides one epoch after the other: a height on top of a commit. `Moves` is an
effect together with what the call it belongs to says about it. A call is a run of
such moves, all in the epoch it starts in, as long as catching up with a later round
does not commit by itself.
-/
open Lib

namespace Ambush.Consensus

/-- A height, and the hash it is built on. -/
abbrev Epoch := Nat × String

def ConsensusNode.epoch (n : ConsensusNode) : Epoch := (n.height, n.previous_commit_hash)

def ConsensusMessage.epoch (m : ConsensusMessage) : Epoch := (m.height, m.previous_commit_hash)

open ConsensusNode

/-- The proposal pending when the call on `n` comes to propose. -/
def pendingIn (n : ConsensusNode) : Input → Option ConsensusProposal
  | .queue p _ => some p
  | _ => n.pending_local_proposal

/-- The later round the call on `n` makes it enter. -/
def leavesFor (c : Crypto) (n : ConsensusNode) : Input → Option Nat
  | .queue _ _ => none
  | .tick t => if n.config.round_timeout_ms ≤ t - n.round_started_at_ms then some (n.round + 1) else none
  | .deliver e _ =>
    if Reads c n e ∧ n.round < e.envelope.message.round then some e.envelope.message.round else none

/-- The round the call on `n` may propose in. -/
def proposesIn (c : Crypto) (n : ConsensusNode) : Input → Option Nat
  | .queue _ _ => some n.round
  | input => leavesFor c n input

/-- The call brings message `m` to a node that reads it. -/
def Brings (c : Crypto) (n : ConsensusNode) (input : Input) (m : ConsensusMessage) : Prop :=
  match input with
  | .deliver e _ => e.envelope.message = m ∧ Reads c n e
  | _ => False

theorem Brings.accepts {c : Crypto} {n : ConsensusNode} {input : Input} {m : ConsensusMessage}
    (h : Brings c n input m) : Accepts n m := by
  cases input with
  | deliver e t => exact h.1 ▸ h.2.accepts
  | _ => exact h.elim

/-- What the call `input` on `n₀` says about an effect it has in state `n`. -/
def Allowed (c : Crypto) (n₀ : ConsensusNode) (input : Input) (n : ConsensusNode) : Effect → Prop
  | .send env => env.message.round = n.round ∧ (env.message.body.kind = .Proposal →
      n.pending_local_proposal = pendingIn n₀ input ∧ proposesIn c n₀ input = some n.round)
  | .enter r => leavesFor c n₀ input = some r ∧ n.round = n₀.round ∧ n.emitted = n₀.emitted
  | .hear k r a v => r = n.round ∧
      ∃ m, Brings c n₀ input m ∧ m.round = r ∧ m.sender = a ∧ m.body = k.body v
  | .store r a p => r = n.round ∧
      ∃ m, Brings c n₀ input m ∧ m.round = r ∧ m.sender = a ∧ m.body = .Proposal p
  | .commit _ cm => cm.round = n.round
  | .exclude h r a => n = n₀ ∧ ∃ e t, input = .deliver e t ∧ Offends c n e ∧ e.envelope.message.height = h ∧
      e.envelope.message.round = r ∧ e.envelope.message.sender = a
  | .see e => ∃ t, input = .deliver e t
  | .spoil _ r => r = n.round
  | .pend => True

/-- An effect of the call `input` on `n₀`, in the epoch the call starts in. -/
def Moves (c : Crypto) (n₀ : ConsensusNode) (input : Input) (n : ConsensusNode) (e : Effect) (n' : ConsensusNode) : Prop :=
  Does c n e n' ∧ n.epoch = n₀.epoch ∧ Allowed c n₀ input n e

theorem Accepts.epoch {n : ConsensusNode} {m : ConsensusMessage} (h : Accepts n m) : m.epoch = n.epoch :=
  Prod.ext h.height h.previous

theorem Still.epoch {n n' : ConsensusNode} (h : Still n n') : n'.epoch = n.epoch := by
  unfold ConsensusNode.epoch; rw [h.height, h.previous]

/-- Acting in the node's own round, in the epoch of the call. -/
theorem Acts.moves {c : Crypto} {n : ConsensusNode} {out : Outcome} {r : Nat} {mp : Prop}
    (h : Acts c n out r mp) (n₀ : ConsensusNode) (input : Input) (hepoch : n.epoch = n₀.epoch) (hr : n.round = r)
    (hp : mp → n.pending_local_proposal = pendingIn n₀ input ∧ proposesIn c n₀ input = some r) :
    ∃ es, Run (Moves c n₀ input) n es out.1 ∧ (∀ env ∈ (returned out.2).outbound, .send env ∈ es) ∧
      ∀ cm ∈ (returned out.2).commits, .commit n₀.previous_commit_hash cm ∈ es := by
  obtain ⟨es, n₁, hrun, hsp, hout, hend⟩ := h
  have hstill := run_still hrun hsp
  have hmoves : Run (Moves c n₀ input) n es n₁ := by
    clear hout hend hstill
    induction hrun with
    | nil => exact .nil
    | @cons s t u e es hs _ ih =>
      have hst := hs.still (hsp e (by simp))
      refine .cons ⟨hs, hepoch, ?_⟩ (ih (hst.epoch.trans hepoch) (hst.round.trans hr)
        (by rw [hst.pending]; exact hp) (fun e he => hsp e (List.mem_cons_of_mem _ he)))
      have hspe := hsp e (by simp)
      cases e with
      | send env => exact ⟨hspe.1.trans hr.symm, fun hk => hr ▸ hp (hspe.2 hk)⟩
      | spoil => exact hspe.trans hr.symm
      | _ => exact hspe.elim
  rcases hend with ⟨heq, hno⟩ | ⟨p, cm, hdo, hcr, honly⟩
  · exact ⟨es, heq ▸ hmoves, hout, by simp [hno]⟩
  · have hepoch₁ : n₁.epoch = n₀.epoch := hstill.epoch.trans hepoch
    have hprev : p = n₀.previous_commit_hash := by
      have := congrArg Prod.snd hepoch₁
      simp only [ConsensusNode.epoch] at this
      generalize out.1 = n' at hdo
      cases hdo
      exact this
    refine ⟨es ++ [.commit p cm], hmoves.append (.single ⟨hdo, hepoch₁, ?_⟩), ?_, ?_⟩
    · rw [Allowed, hcr, hstill.round, hr]
    · exact fun env henv => List.mem_append_left _ (hout env henv)
    · intro cm' hcm'
      rw [honly cm' hcm', hprev]
      simp

/-! ## Catching up -/

/-- The node holds no vote for a round it has not reached. -/
def Ahead (n : ConsensusNode) : Prop := ∀ k r a, n.round < r → n.choice k r a = none

/-- In round `r` the node holds no vote but its own. -/
def Alone (n : ConsensusNode) (r : Nat) : Prop := ∀ k a v, n.choice k r a = some v → a = n.local_agent_id

/-- Recording the node's own vote leaves it alone in the round. -/
theorem Alone.hears {n : ConsensusNode} {r : Nat} (h : Alone n r) (k : VoteKind) (r' : Nat) (v : Option String) :
    Alone ((n.mark k r').hears k r' n.local_agent_id v) r := by
  intro k' a v' hc
  have hid := ((kin_mark n k r').trans (kin_hears _ k r' n.local_agent_id v)).id
  rw [choice_hears] at hc
  simp only [choice_mark] at hc
  rw [hid]
  split at hc
  · rename_i heq; exact heq.2.2.1
  · exact h k' a v' hc

theorem Does.alone {c : Crypto} {n n' : ConsensusNode} {e : Effect} {r r' : Nat} {mp : Prop} (hd : Does c n e n')
    (he : e.Speaks r' mp) (h : Alone n r) : Alone n' r := by
  cases hd with
  | propose => exact h
  | cast => exact h.hears _ _ _
  | spoil => exact h.hears _ _ _
  | _ => exact he.elim

/-- A node alone in a round of a committee with a larger threshold does not commit in it. -/
theorem Acts.still {c : Crypto} {n : ConsensusNode} {out : Outcome} {r : Nat} {mp : Prop} (h : Acts c n out r mp)
    (hwf : n.WfVotes) (halone : Alone n r) (hthr : 1 < n.committee.threshold) : Still n out.1 := by
  obtain ⟨es, n₁, hrun, hsp, -, hend⟩ := h
  have hinv : n₁.WfVotes ∧ Alone n₁ r :=
    hrun.inv (I := fun s => s.WfVotes ∧ Alone s r)
      (fun s e t he hI hd => ⟨hd.wfVotes hI.1, hd.alone (hsp e he) hI.2⟩) ⟨hwf, halone⟩
  rcases hend with ⟨heq, -⟩ | ⟨p, cm, hdo, hcr, -⟩
  · rw [heq]; exact run_still hrun hsp
  · exfalso
    generalize out.1 = n' at hdo
    cases hdo with
    | @commit _ pr t hr hp hv hc =>
      -- the precommits counted are all the node's own
      have hsub : (ledger n₁.precommits r).voters (some pr.proposal_id) ⊆ {n₁.local_agent_id} := by
        intro a ha
        exact Finset.mem_singleton.2 (hinv.2 .precommit a _ (hinv.1.mem_voters (k := .precommit).1 ha))
      have hcard := Finset.card_le_card hsub
      simp only at hcr
      rw [hcr, tally_eq, (run_kin hrun).committee] at hc
      simp only [Finset.card_singleton] at hcard
      omega

/-- Catching up with a later round moves the node there and leaves its epoch. -/
theorem Reaches.moves {c : Crypto} {n : ConsensusNode} {r : Nat} {adv : Outcome} (h : Reaches c n r adv)
    (n₀ : ConsensusNode) (input : Input) (hle : n.round ≤ r) (hst : n.epoch = n₀.epoch ∧ n.round = n₀.round ∧ n.emitted = n₀.emitted ∧
      n.pending_local_proposal = pendingIn n₀ input) (hahead : Ahead n) (hwf : n.WfVotes)
    (hleave : n.round < r → leavesFor c n₀ input = some r ∧ 1 < n.committee.threshold) :
    ∃ es, Run (Moves c n₀ input) n es adv.1 ∧ adv.1.epoch = n₀.epoch ∧ adv.1.round = r := by
  obtain ⟨hepoch, hround, hem, hp⟩ := hst
  rcases h with ⟨hge, rfl⟩ | ⟨hlt, n₁, hdo, hact⟩
  · exact ⟨[], .nil, hepoch, le_antisymm hle hge⟩
  · obtain ⟨hleaves, hthr⟩ := hleave hlt
    have hprop : proposesIn c n₀ input = some r := by
      cases input with
      | queue => cases hleaves
      | tick => exact hleaves
      | deliver => exact hleaves
    have henter : Moves c n₀ input n (.enter r) n₁ := ⟨hdo, hepoch, hleaves, hround, hem⟩
    cases hdo with
    | enter t _ =>
      have halone : Alone { n with round := r, step := .Propose, round_started_at_ms := t } r := by
        intro k a v hc
        have : n.choice k r a = some v := by cases k <;> exact hc
        rw [hahead k r a hlt] at this
        cases this
      have hwf₁ : ConsensusNode.WfVotes { n with round := r, step := .Propose, round_started_at_ms := t } := hwf
      have hstill := hact.still hwf₁ halone hthr
      obtain ⟨es, hrun, -, -⟩ := hact.moves n₀ input hepoch rfl (fun _ => ⟨hp, hprop⟩)
      exact ⟨.enter r :: es, .cons henter hrun, hstill.epoch.trans hepoch, hstill.round⟩

/-! ## The run of a call -/

/-- A call on a node without votes for later rounds is a run of moves in one epoch,
unless it is the message of a later round in a committee whose threshold is one. -/
theorem Called.moves {c : Crypto} {n : ConsensusNode} {input : Input} {out : Outcome} (h : Called c n input out)
    (hahead : Ahead n) (hwf : n.WfVotes)
    (hthr : ∀ m, Brings c n input m → n.round < m.round → 1 < n.committee.threshold) :
    ∃ es, Run (Moves c n input) n es out.1 ∧ (∀ env ∈ (returned out.2).outbound, .send env ∈ es) ∧
      ∀ cm ∈ (returned out.2).commits, .commit n.previous_commit_hash cm ∈ es := by
  cases h with
  | @queue p t n₁ _ hpend hq hact =>
    have hmove : Moves c n (.queue p t) n .pend n₁ := ⟨hpend, rfl, trivial⟩
    cases hpend with
    | pend p' =>
      obtain ⟨es, hrun, hout, hcom⟩ := hact.moves n (.queue p t) rfl rfl (fun _ => ⟨hq, rfl⟩)
      exact ⟨.pend :: es, .cons hmove hrun, fun env he => List.mem_cons_of_mem _ (hout env he),
        fun cm hcm => List.mem_cons_of_mem _ (hcom cm hcm)⟩
  | wait => exact ⟨[], .nil, by simp [returned], by simp [returned]⟩
  | @timeout t _ ht hreach =>
    rcases hreach with ⟨hge, rfl⟩ | ⟨hlt, n₁, hdo, hact⟩
    · exact ⟨[], .nil, by simp [returned], by simp [returned]⟩
    · have hleaves : leavesFor c n (.tick t) = some (n.round + 1) := if_pos ht
      have hmove : Moves c n (.tick t) n (.enter (n.round + 1)) n₁ := ⟨hdo, rfl, hleaves, rfl, rfl⟩
      cases hdo with
      | enter t' _ =>
        obtain ⟨es, hrun, hout, hcom⟩ := hact.moves n (.tick t) rfl rfl
          (fun _ => ⟨rfl, hleaves⟩)
        exact ⟨.enter _ :: es, .cons hmove hrun, fun env he => List.mem_cons_of_mem _ (hout env he),
          fun cm hcm => List.mem_cons_of_mem _ (hcom cm hcm)⟩
  | @deliver e t _ hdel =>
    cases hdel with
    | ignored hres => exact ⟨[], .nil, by simp [hres.1], by simp [hres.2]⟩
    | excluded hres he =>
      refine ⟨[.exclude _ _ _], .single ⟨.exclude, rfl, ?_⟩, by simp [hres.1], by simp [hres.2]⟩
      exact ⟨rfl, e, t, rfl, he, rfl, rfl, rfl⟩
    | unread hsee hres => exact ⟨[.see e], .single ⟨hsee, rfl, t, rfl⟩, by simp [hres.1], by simp [hres.2]⟩
    | @read n₃ adv _ hsee hreads hreach htake hact =>
      have hmove : Moves c n (.deliver e t) n (.see e) (n.seeing e) := ⟨hsee, rfl, t, rfl⟩
      cases hsee with
      | see hn hv =>
        have hbr : Brings c n (.deliver e t) e.envelope.message := ⟨rfl, hreads⟩
        obtain ⟨es₁, hrun₁, hepoch, hround⟩ := hreach.moves n (.deliver e t)
          hreads.accepts.round ⟨rfl, rfl, rfl, rfl⟩ hahead hwf (fun hlt => ⟨if_pos ⟨hreads, hlt⟩, hthr _ hbr hlt⟩)
        rcases htake with rfl | ⟨x, hx, hdo⟩
        · obtain ⟨es₂, hrun₂, hout, hcom⟩ := hact.moves n (.deliver e t) hepoch hround False.elim
          exact ⟨.see e :: (es₁ ++ es₂), .cons hmove (hrun₁.append hrun₂),
            fun env he => by simp [hout env he], fun cm hcm => by simp [hcom cm hcm]⟩
        · have htaken : Moves c n (.deliver e t) adv.1 x n₃ := by
            refine ⟨hdo, hepoch, ?_⟩
            cases x with
            | hear k r a v =>
              obtain ⟨hr, ha, hb⟩ := hx
              exact ⟨hr.trans hround.symm, _, hbr, hr.symm, ha.symm, hb⟩
            | store r a p =>
              obtain ⟨hr, ha, hb⟩ := hx
              exact ⟨hr.trans hround.symm, _, hbr, hr.symm, ha.symm, hb⟩
            | _ => exact hx.elim
          have hst := hdo.taken hx
          obtain ⟨es₂, hrun₂, hout, hcom⟩ := hact.moves n (.deliver e t)
            (hst.epoch.trans hepoch) (hst.round.trans hround) False.elim
          exact ⟨.see e :: (es₁ ++ x :: es₂), .cons hmove (hrun₁.append (.cons htaken hrun₂)),
            fun env he => by simp [hout env he], fun cm hcm => by simp [hcom cm hcm]⟩

end Ambush.Consensus

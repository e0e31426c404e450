import Ambush.Consensus.Confinement
/-!
# What a refused envelope leaves behind

`handle_signed_envelope` keeps an envelope as seen before it looks at what it says, and
`observe_message` joins the round of a message before it takes the body in. So a call that
returns an error has changed the node, and the envelope it refused counts as a repetition from
then on.
-/
open Lib

namespace Ambush.Consensus

open ConsensusNode

/-- The calls that change a node. `handle_envelope` takes an envelope nobody signed. -/
inductive Invocation where
  | call (input : Input)
  | envelope (envelope : ConsensusEnvelope) (now_ms : Int)
  deriving DecidableEq

def ConsensusNode.invoke (c : Crypto) (n : ConsensusNode) : Invocation → Option Outcome
  | .call input => n.call c input
  | .envelope envelope now_ms => some (n.handle_envelope c envelope now_ms)

/-! ## Envelopes seen -/

theorem Acts.seen {c : Crypto} {n : ConsensusNode} {out : Outcome} {r : Nat} {mp : Prop} (h : Acts c n out r mp) :
    out.1.seen_signed_messages = n.seen_signed_messages := by
  obtain ⟨es, n₁, hrun, hsp, -, ⟨heq, -⟩ | ⟨p, cm, hdo, -⟩⟩ := h
  · rw [heq]
    exact (run_still hrun hsp).seen
  · have hcommit : out.1.seen_signed_messages = n₁.seen_signed_messages := by
      generalize out.1 = n' at hdo
      cases hdo
      rfl
    rw [hcommit]
    exact (run_still hrun hsp).seen

theorem Reaches.seen {c : Crypto} {n : ConsensusNode} {r : Nat} {out : Outcome} (h : Reaches c n r out) :
    out.1.seen_signed_messages = n.seen_signed_messages := by
  rcases h with ⟨-, rfl⟩ | ⟨-, n₁, hdo, hact⟩
  · rfl
  · cases hdo
    exact hact.seen

theorem Takes.seen {c : Crypto} {n n₁ : ConsensusNode} {m : ConsensusMessage} (h : Takes c n m n₁) :
    n₁.seen_signed_messages = n.seen_signed_messages := by
  rcases h with rfl | ⟨e, hfrom, hdo⟩
  · rfl
  · exact (hdo.taken hfrom).seen

theorem handle_envelope_seen (c : Crypto) (n : ConsensusNode) (envelope : ConsensusEnvelope) (t : Int) :
    (n.handle_envelope c envelope t).1.seen_signed_messages = n.seen_signed_messages := by
  unfold handle_envelope
  dsimp only
  split
  · rfl
  · rcases observe_message_cases c n envelope.message t with ⟨res, -, heq⟩ | ⟨hacc, heq⟩
    · rw [heq]
    · obtain ⟨adv, n₃, hreach, htake, hact⟩ := readOn_takes c t hacc
      rw [heq, hact.seen, htake.seen, hreach.seen]

/-- What becomes of a signed envelope: it is ignored, it excludes its sender, or it is kept as
seen and handled. Only the last can fail. -/
theorem handle_signed_envelope_cases (c : Crypto) (n : ConsensusNode) (e : ConsensusSignedEnvelope) (t : Int) :
    n.handle_signed_envelope c e t = (n, .ok {}) ∨
    (Triggers c n e ∧ ∃ progress, n.handle_signed_envelope c e t =
      (n.excluding c e.envelope.message.height e.envelope.message.round e.envelope.message.sender, .ok progress)) ∨
    (n.seen_signed_messages (.from_message e.envelope.message) = none ∧ e.verifies c = true ∧
      n.handle_signed_envelope c e t = (n.seeing e).handle_envelope c e.envelope t) := by
  have hexclude : ∀ kind reason hashes, ∃ progress, n.exclude_sender c e.envelope.message.height
      e.envelope.message.round kind e.envelope.message.sender reason hashes t =
      (n.excluding c e.envelope.message.height e.envelope.message.round e.envelope.message.sender, .ok progress) := by
    intro kind reason hashes
    unfold exclude_sender
    dsimp only
    split
    · exact ⟨_, rfl⟩
    · exact ⟨_, rfl⟩
  unfold handle_signed_envelope
  dsimp only
  split
  · exact .inl rfl
  rename_i hadmitted
  have hadmitted : n.is_excluded e.envelope.message.height e.envelope.message.round e.envelope.message.sender = false :=
    Bool.eq_false_iff.2 hadmitted
  split
  · rename_i previous hseen
    split
    · exact .inl rfl
    · rename_i hne
      exact .inr (.inl ⟨⟨hadmitted, by simpa only [Offends, hseen] using hne⟩, hexclude _ _ _⟩)
  · rename_i hseen
    split
    · rename_i hbad
      have hoffends : Offends c n e := by simpa only [Offends, hseen, Bool.not_eq_true'] using hbad
      exact .inr (.inl ⟨⟨hadmitted, hoffends⟩, hexclude _ _ _⟩)
    · rename_i hver
      exact .inr (.inr ⟨hseen, by simpa using hver, rfl⟩)

/-- A call that returns an error has kept its envelope as seen, and it was not seen before. -/
theorem rejected_seen {c : Crypto} {n : ConsensusNode} {e : ConsensusSignedEnvelope} {t : Int} {x : ConsensusError}
    (h : (n.handle_signed_envelope c e t).2 = .error x) :
    n.seen_signed_messages (.from_message e.envelope.message) = none ∧
      (n.handle_signed_envelope c e t).1.seen_signed_messages (.from_message e.envelope.message) = some e := by
  rcases handle_signed_envelope_cases c n e t with heq | ⟨-, progress, heq⟩ | ⟨hseen, -, heq⟩
  · rw [heq] at h
    cases h
  · rw [heq] at h
    cases h
  · refine ⟨hseen, ?_⟩
    rw [heq, handle_envelope_seen]
    exact Map.insert_self _ _ _

/-! ## Delivered once more -/

/-- The call makes the node forget what it has seen of a sender in a round of its height. -/
def Forgets (c : Crypto) (n : ConsensusNode) (key : SignedMessageKey) : Invocation → Prop
  | .call (.deliver e _) => Triggers c n e ∧ n.height = key.height ∧ e.envelope.message.round = key.round ∧
      e.envelope.message.sender = key.sender
  | _ => False

/-- A call that forgets nothing of the kind. -/
def Remembers (c : Crypto) (key : SignedMessageKey) (n : ConsensusNode) (invocation : Invocation) (n' : ConsensusNode) : Prop :=
  (∃ res, n.invoke c invocation = some (n', res)) ∧ ¬ Forgets c n key invocation

theorem Remembers.seen {c : Crypto} {key : SignedMessageKey} {n n' : ConsensusNode} {invocation : Invocation}
    {e : ConsensusSignedEnvelope} (h : Remembers c key n invocation n') (hseen : n.seen_signed_messages key = some e) :
    n'.seen_signed_messages key = some e := by
  obtain ⟨⟨res, hinvoke⟩, hkeep⟩ := h
  cases invocation with
  | envelope envelope t =>
    have hout := Option.some.inj hinvoke
    have := handle_envelope_seen c n envelope t
    rw [hout] at this
    rw [this]
    exact hseen
  | call input =>
    cases input with
    | queue p t =>
      have hout : { n with pending_local_proposal := some p }.emit_proposal_if_leader c t = (n', res) :=
        Option.some.inj hinvoke
      have := (emit_proposal_if_leader_acts c { n with pending_local_proposal := some p } t).seen
      rw [hout] at this
      rw [this]
      exact hseen
    | tick t =>
      have hcall : n.call c (.tick t) = some (n', res) := hinvoke
      cases call_called hcall with
      | wait => exact hseen
      | timeout _ hreach =>
        rw [hreach.seen]
        exact hseen
    | deliver e' t =>
      have hout := Option.some.inj hinvoke
      rcases handle_signed_envelope_cases c n e' t with heq | ⟨htriggers, progress, heq⟩ | ⟨hnone, -, heq⟩
      · obtain rfl : n = n' := congrArg Prod.fst (heq.symm.trans hout)
        exact hseen
      · obtain rfl : n.excluding c e'.envelope.message.height e'.envelope.message.round e'.envelope.message.sender = n' :=
          congrArg Prod.fst (heq.symm.trans hout)
        simp only [excluding, drop_sender_round_contributions]
        refine Map.retain_eq_some.2 ⟨?_, hseen⟩
        simp only [Bool.not_eq_true', Bool.and_eq_false_imp, Bool.and_eq_true, beq_iff_eq, and_imp, beq_eq_false_iff_ne]
        intro hheight hround hsender
        exact hkeep ⟨htriggers, hheight.symm, hround.symm, hsender.symm⟩
      · have hne : key ≠ .from_message e'.envelope.message := by
          rintro rfl
          rw [hnone] at hseen
          cases hseen
        obtain rfl : ((n.seeing e').handle_envelope c e'.envelope t).1 = n' := congrArg Prod.fst (heq.symm.trans hout)
        rw [handle_envelope_seen]
        exact (Map.insert_ne _ _ _ _ hne).trans hseen

theorem seen_ignored {c : Crypto} {n : ConsensusNode} {e : ConsensusSignedEnvelope}
    (h : n.seen_signed_messages (.from_message e.envelope.message) = some e) (t : Int) :
    n.handle_signed_envelope c e t = (n, .ok {}) := by
  unfold handle_signed_envelope
  dsimp only
  split
  · rfl
  · simp [h]

/-! ## Joining a round -/

/-- The node is to propose in round `r`: it leads it, holds no proposal for it, and has one pending. -/
structure Leads (c : Crypto) (n : ConsensusNode) (r : Nat) : Prop where
  proposer : n.committee.proposer_for c n.previous_commit_hash r = .ok n.local_agent_id
  open_round : n.proposals r = none
  pending : n.pending_local_proposal ≠ none

theorem foldl_better_isSome (c : Crypto) (p : String) (r : Nat) (l : List AgentId) (best : Option (AgentId × String))
    (h : best.isSome ∨ l ≠ []) : (l.foldl (ConsensusCommittee.better c p r) best).isSome := by
  induction l generalizing best with
  | nil => simpa using h
  | cons a l ih =>
    refine ih _ (.inl ?_)
    unfold ConsensusCommittee.better
    cases best with
    | none => rfl
    | some held =>
      dsimp only
      split
      · rfl
      · rfl

/-- A node's committee has a member, so every round has a proposer. -/
theorem proposer_for_ok (c : Crypto) (n : ConsensusNode) (previous : String) (r : Nat) :
    ∃ a, n.committee.proposer_for c previous r = .ok a := by
  have hsome := foldl_better_isSome c previous r n.committee.members none (.inr (List.ne_nil_of_mem n.is_member))
  obtain ⟨⟨a, score⟩, ha⟩ := Option.isSome_iff_exists.1 hsome
  exact ⟨a, by rw [ConsensusCommittee.proposer_for, ha]⟩

theorem emit_proposal_idle {c : Crypto} {n : ConsensusNode} (h : ¬ Leads c n n.round) (t : Int) :
    n.emit_proposal_if_leader c t = (n, .ok {}) := by
  obtain ⟨a, ha⟩ := proposer_for_ok c n n.previous_commit_hash n.round
  unfold emit_proposal_if_leader proposer_for_current_round
  rw [ha]
  dsimp only
  split
  · rfl
  · rename_i hlocal
    split
    · rfl
    · rename_i hopen
      cases hpending : n.pending_local_proposal with
      | none => rfl
      | some p =>
        refine absurd ⟨?_, ?_, by simp [hpending]⟩ h
        · rw [ha, not_not.1 hlocal]
        · simpa using hopen

/-- A node that is not to propose joins a later round and says nothing. -/
theorem advance_round_idle {c : Crypto} {n : ConsensusNode} {r : Nat} (hr : n.round < r) (h : ¬ Leads c n r) (t : Int) :
    n.advance_round c r t =
      ({ n with round := r, step := .Propose, round_started_at_ms := t }, .ok { round_advanced := true }) := by
  have hidle : ¬ Leads c { n with round := r, step := .Propose, round_started_at_ms := t } r :=
    fun hl => h ⟨hl.proposer, hl.open_round, hl.pending⟩
  unfold advance_round
  rw [if_neg (not_le.2 hr)]
  dsimp only
  rw [emit_proposal_idle hidle]
  rfl

theorem observe_proposal_wrong {c : Crypto} {n : ConsensusNode} {a : AgentId} {r : Nat}
    (h : n.committee.proposer_for c n.previous_commit_hash r ≠ .ok a) (p : ConsensusProposal) (t : Int) :
    ∃ x, n.observe_proposal c a r p t = (n, .error x) := by
  unfold observe_proposal
  rcases record_proposal_cases c n a r p with ⟨x, hx⟩ | ⟨hx, -⟩ | ⟨hp, -, -⟩
  · rw [hx]
    exact ⟨x, rfl⟩
  · obtain ⟨b, hb⟩ := proposer_for_ok c n n.previous_commit_hash r
    have hne : a ≠ b := by
      rintro rfl
      exact h hb
    unfold record_proposal at hx
    rw [hb] at hx
    simp [hne] at hx
  · exact absurd hp h

theorem Accepts.observed {c : Crypto} {n : ConsensusNode} {m : ConsensusMessage} (h : Accepts n m) (t : Int) :
    n.observe_message c m t = n.readOn c m t := by
  unfold observe_message
  rw [if_neg (by simp [ConsensusCommittee.contains, h.member]), if_neg (by rw [h.height]; exact lt_irrefl _),
    if_neg (by rw [h.height]; exact lt_irrefl _), if_neg (not_not.2 h.previous), if_neg (not_lt.2 h.round)]
  rfl

theorem Reads.handled {c : Crypto} {n : ConsensusNode} {e : ConsensusSignedEnvelope} (h : Reads c n e) (t : Int) :
    n.handle_signed_envelope c e t = (n.seeing e).readOn c e.envelope.message t := by
  have hacc : Accepts (n.seeing e) e.envelope.message :=
    ⟨h.accepts.member, h.accepts.height, h.accepts.previous, h.accepts.round⟩
  have hadmitted := h.admitted
  unfold handle_signed_envelope
  dsimp only [SignedMessageKey.from_message]
  rw [if_neg (by rw [hadmitted]; decide)]
  have hunseen := h.unseen
  dsimp only [SignedMessageKey.from_message] at hunseen
  rw [hunseen]
  dsimp only
  rw [h.verifies]
  refine Eq.trans ?_ (hacc.observed t)
  unfold handle_envelope
  exact if_neg (not_not.2 h.subject)

/-- A proposal of a member that does not lead its round is refused, and the node joins its round. -/
theorem wrong_proposer_moves {c : Crypto} {n : ConsensusNode} {e : ConsensusSignedEnvelope} {p : ConsensusProposal}
    (hreads : Reads c n e) (hbody : e.envelope.message.body = .Proposal p)
    (hwrong : n.committee.proposer_for c n.previous_commit_hash e.envelope.message.round ≠
      .ok e.envelope.message.sender)
    (hlead : ¬ Leads c n e.envelope.message.round) (t : Int) :
    (∃ x, (n.handle_signed_envelope c e t).2 = .error x) ∧
      (n.handle_signed_envelope c e t).1.round = e.envelope.message.round := by
  have hbodyOf : ∀ m : ConsensusNode, m.observe_body c e.envelope.message t =
      m.observe_proposal c e.envelope.message.sender e.envelope.message.round p t := by
    intro m
    unfold observe_body
    rw [hbody]
  rw [hreads.handled]
  unfold readOn
  split
  · rename_i hlt
    have hlead' : ¬ Leads c (n.seeing e) e.envelope.message.round :=
      fun hl => hlead ⟨hl.proposer, hl.open_round, hl.pending⟩
    rw [advance_round_idle hlt hlead' t]
    dsimp only
    rw [hbodyOf]
    obtain ⟨x, hx⟩ := observe_proposal_wrong
      (n := { n.seeing e with round := e.envelope.message.round, step := .Propose, round_started_at_ms := t }) hwrong p t
    rw [hx]
    exact ⟨⟨x, rfl⟩, rfl⟩
  · rename_i hnlt
    rw [hbodyOf]
    obtain ⟨x, hx⟩ := observe_proposal_wrong (n := n.seeing e) hwrong p t
    rw [hx]
    exact ⟨⟨x, rfl⟩, le_antisymm hreads.accepts.round (not_lt.1 hnlt)⟩

/-- No refused envelope leaves the node as it was: it was not seen before and is seen from then
on. Until the node excludes its sender in that round, at that height, it is then ignored
whenever it is delivered again. A refused proposal of a member that does not lead its round
leaves the node in that round. -/
theorem rejection_never_atomic (c : Crypto) :
    (∀ (n : ConsensusNode) e t x, (n.handle_signed_envelope c e t).2 = .error x → (n.handle_signed_envelope c e t).1 ≠ n ∧
      ∀ invocations m, Run (Remembers c (.from_message e.envelope.message)) (n.handle_signed_envelope c e t).1
        invocations m → ∀ t', m.handle_signed_envelope c e t' = (m, .ok {})) ∧
    ∀ (n : ConsensusNode) e t p, Reads c n e → e.envelope.message.body = .Proposal p →
      n.committee.proposer_for c n.previous_commit_hash e.envelope.message.round ≠ .ok e.envelope.message.sender →
      ¬ Leads c n e.envelope.message.round →
      (∃ x, (n.handle_signed_envelope c e t).2 = .error x) ∧
        ((n.handle_signed_envelope c e t).1.round = n.round ↔ e.envelope.message.round = n.round) := by
  refine ⟨fun n e t x hx => ?_, fun n e t p hreads hbody hwrong hlead => ?_⟩
  · obtain ⟨hunseen, hseen⟩ := rejected_seen hx
    refine ⟨fun hsame => ?_, fun invocations m hrun t' => ?_⟩
    · rw [hsame, hunseen] at hseen
      cases hseen
    · have hkept := hrun.inv (I := fun s => s.seen_signed_messages (.from_message e.envelope.message) = some e)
        (fun s a s' _ h hs => hs.seen h) hseen
      exact seen_ignored hkept t'
  · obtain ⟨herror, hround⟩ := wrong_proposer_moves hreads hbody hwrong hlead t
    exact ⟨herror, by rw [hround]⟩

/-- A prevote for the height after the commit of `x`. -/
def ahead : ConsensusSignedEnvelope :=
  .sign .plain {
    subject := ({} : JetStreamSubjectLayout).round_subject four 2 0
    message := { height := 2, round := 0, previous_commit_hash := (commitIn 0 ⟨"x", .null⟩).commit_hash, sender := seat "b",
                 sent_at_ms := 0, body := .Prevote (some "y") } } "b"

/-- What member `"a"` hears until it has committed `x`. -/
def commitsX (n : ConsensusNode) : ConsensusNode :=
  [signs "d" 0 0 (.Proposal ⟨"x", .null⟩), signs "d" 0 0 (.Prevote (some "x")), signs "b" 0 0 (.Prevote (some "x")),
    signs "b" 0 0 (.Precommit (some "x")), signs "d" 0 0 (.Precommit (some "x"))].foldl
      (fun n e => (n.handle_signed_envelope .plain e 0).1) n

/-- A proposal for a later round by a member that does not lead it. -/
def pretender : ConsensusSignedEnvelope := signs "b" 5 0 (.Proposal ⟨"z", .null⟩)

theorem error_of_not_ok {α : Type} {res : Except ConsensusError α} (h : res.isOk = false) : ∃ x, res = .error x := by
  cases res with
  | ok a => cases h
  | error x => exact ⟨x, rfl⟩

theorem ahead_refused : ∃ x, (listener.handle_signed_envelope .plain ahead 0).2 = .error x :=
  error_of_not_ok (by decide +kernel)

theorem rejection_never_atomic_ahead :
    (listener.handle_signed_envelope .plain ahead 0).1 ≠ listener ∧
      (listener.handle_signed_envelope .plain ahead 0).1.handle_signed_envelope .plain ahead 1 =
        ((listener.handle_signed_envelope .plain ahead 0).1, .ok {}) := by
  obtain ⟨x, hx⟩ := ahead_refused
  obtain ⟨hne, hagain⟩ := (rejection_never_atomic .plain).1 listener ahead 0 x hx
  exact ⟨hne, hagain [] _ .nil 1⟩

/-- A prevote that comes one commit early is refused, and does not count once the node is there;
without the early delivery it counts. A proposal by the wrong member takes the node to round 5. -/
theorem early_prevote_is_lost :
    (∃ x, (listener.handle_signed_envelope .plain ahead 0).2 = .error x) ∧
      (listener.handle_signed_envelope .plain ahead 0).1 ≠ listener ∧
      (commitsX listener).height = 2 ∧
      ((commitsX listener).handle_signed_envelope .plain ahead 0).1.choice .prevote 0 (seat "b") = some (some "y") ∧
      (commitsX (listener.handle_signed_envelope .plain ahead 0).1).height = 2 ∧
      ((commitsX (listener.handle_signed_envelope .plain ahead 0).1).handle_signed_envelope .plain ahead 0).1.choice
        .prevote 0 (seat "b") = none ∧
      (∃ x, (listener.handle_signed_envelope .plain pretender 0).2 = .error x) ∧ listener.round = 0 ∧
      (listener.handle_signed_envelope .plain pretender 0).1.round = 5 := by
  have hcomputed : (commitsX listener).height = 2 ∧
      ((commitsX listener).handle_signed_envelope .plain ahead 0).1.choice .prevote 0 (seat "b") = some (some "y") ∧
      (commitsX (listener.handle_signed_envelope .plain ahead 0).1).height = 2 ∧
      ((commitsX (listener.handle_signed_envelope .plain ahead 0).1).handle_signed_envelope .plain ahead 0).1.choice
        .prevote 0 (seat "b") = none ∧
      (listener.handle_signed_envelope .plain pretender 0).2.isOk = false ∧ listener.round = 0 ∧
      (listener.handle_signed_envelope .plain pretender 0).1.round = 5 := by
    decide +kernel
  obtain ⟨hcommits, hcounted, hlate, hlost, hrefused, hround, hmoved⟩ := hcomputed
  refine ⟨ahead_refused, fun hsame => ?_, hcommits, hcounted, hlate, hlost, error_of_not_ok hrefused, hround, hmoved⟩
  obtain ⟨x, hx⟩ := ahead_refused
  obtain ⟨hunseen, hseen⟩ := rejected_seen hx
  rw [hsame, hunseen] at hseen
  cases hseen

end Ambush.Consensus

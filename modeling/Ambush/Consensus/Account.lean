import Ambush.Consensus.Rejection
/-!
# The account of a call

The effects of each call in the order the code has them, whatever the call returns: what it
returns can leave some out, because `observe_message` drops the progress of joining a round and
an error drops what was said before it. `account_run` says that they lead from the node before
the call to the node after it.
-/
open Lib

namespace Ambush.Consensus

namespace ConsensusNode

/-- A commit is all that `commit` does. -/
def commit_account (c : Crypto) (n : ConsensusNode) (round : Nat) (proposal_id : Option String) (now_ms : Int) :
    List Effect :=
  (returned (n.commit c round proposal_id now_ms).2).commits.map (.commit n.previous_commit_hash)

def emit_precommit_account (c : Crypto) (n : ConsensusNode) (round : Nat) (proposal_id : Option String) (now_ms : Int) :
    List Effect :=
  if round ∈ n.emitted_precommits then []
  else
    let voted := (n.mark .precommit round).hears .precommit round n.local_agent_id proposal_id
    match ((ledger n.precommits round).record_vote n.local_agent_id proposal_id).2 with
    | .error _ => [.spoil .precommit round]
    | .ok count =>
      .send (n.build_envelope round (.Precommit proposal_id) now_ms) ::
        if n.committee.threshold ≤ count then voted.commit_account c round proposal_id now_ms else []

def emit_prevote_account (c : Crypto) (n : ConsensusNode) (round : Nat) (proposal_id : Option String) (now_ms : Int) :
    List Effect :=
  if round ∈ n.emitted_prevotes then []
  else
    let voted := (n.mark .prevote round).hears .prevote round n.local_agent_id proposal_id
    match ((ledger n.prevotes round).record_vote n.local_agent_id proposal_id).2 with
    | .error _ => [.spoil .prevote round]
    | .ok count =>
      .send (n.build_envelope round (.Prevote proposal_id) now_ms) ::
        if n.committee.threshold ≤ count ∧ round ∉ n.emitted_precommits then
          voted.emit_precommit_account c round proposal_id now_ms
        else []

/-- The node's own proposal, when it leads the round it is in. -/
def emit_proposal_account (c : Crypto) (n : ConsensusNode) (now_ms : Int) : List Effect :=
  match n.pending_local_proposal with
  | none => []
  | some proposal =>
    if n.committee.proposer_for c n.previous_commit_hash n.round = .ok n.local_agent_id ∧
        (n.proposals n.round).isNone then
      .send (n.build_envelope n.round (.Proposal proposal) now_ms) ::
        { n with proposals := n.proposals.insert n.round proposal }.emit_prevote_account c n.round
          (some proposal.proposal_id) now_ms
    else []

def advance_account (c : Crypto) (n : ConsensusNode) (target_round : Nat) (now_ms : Int) : List Effect :=
  if target_round ≤ n.round then []
  else
    .enter target_round ::
      { n with round := target_round, step := .Propose, round_started_at_ms := now_ms }.emit_proposal_account c now_ms

def observe_body_account (c : Crypto) (n : ConsensusNode) (message : ConsensusMessage) (now_ms : Int) : List Effect :=
  match message.body with
  | .Proposal proposal =>
    match n.record_proposal c message.sender message.round proposal with
    | (_, .error _) => []
    | (stored, .ok ()) =>
      (if (n.proposals message.round).isNone then [.store message.round message.sender proposal] else []) ++
        stored.emit_prevote_account c message.round (some proposal.proposal_id) now_ms
  | .Prevote proposal_id =>
    let recorded := (ledger n.prevotes message.round).record_vote message.sender proposal_id
    let heard := n.hears .prevote message.round message.sender proposal_id
    .hear .prevote message.round message.sender proposal_id ::
      match recorded.2 with
      | .error _ => []
      | .ok count =>
        if n.committee.threshold ≤ count then heard.emit_precommit_account c message.round proposal_id now_ms else []
  | .Precommit proposal_id =>
    let recorded := (ledger n.precommits message.round).record_vote message.sender proposal_id
    let heard := n.hears .precommit message.round message.sender proposal_id
    .hear .precommit message.round message.sender proposal_id ::
      match recorded.2 with
      | .error _ => []
      | .ok count =>
        if n.committee.threshold ≤ count then heard.commit_account c message.round proposal_id now_ms else []

/-- An accepted message, after the node has caught up with its round. -/
def read_account (c : Crypto) (n : ConsensusNode) (message : ConsensusMessage) (now_ms : Int) : List Effect :=
  n.advance_account c message.round now_ms ++
    match n.advance_round c message.round now_ms with
    | (_, .error _) => []
    | (n, .ok _) => n.observe_body_account c message now_ms

def handle_envelope_account (c : Crypto) (n : ConsensusNode) (envelope : ConsensusEnvelope) (now_ms : Int) : List Effect :=
  if envelope.subject = n.config.subject_layout.round_subject n.committee envelope.message.height envelope.message.round ∧
      Accepts n envelope.message then
    n.read_account c envelope.message now_ms
  else []

def handle_signed_envelope_account (c : Crypto) (n : ConsensusNode) (e : ConsensusSignedEnvelope) (now_ms : Int) :
    List Effect :=
  if n.is_excluded e.envelope.message.height e.envelope.message.round e.envelope.message.sender then []
  else
    match n.seen_signed_messages (.from_message e.envelope.message) with
    | some previous =>
      if previous = e then []
      else [.exclude e.envelope.message.height e.envelope.message.round e.envelope.message.sender]
    | none =>
      if !e.verifies c then [.exclude e.envelope.message.height e.envelope.message.round e.envelope.message.sender]
      else .see e :: (n.seeing e).handle_envelope_account c e.envelope now_ms

def account (c : Crypto) (n : ConsensusNode) : Invocation → List Effect
  | .call (.queue proposal now_ms) =>
    .pend :: { n with pending_local_proposal := some proposal }.emit_proposal_account c now_ms
  | .call (.tick now_ms) =>
    if now_ms - n.round_started_at_ms < n.config.round_timeout_ms then [] else n.advance_account c (n.round + 1) now_ms
  | .call (.deliver e now_ms) => n.handle_signed_envelope_account c e now_ms
  | .envelope envelope now_ms => n.handle_envelope_account c envelope now_ms

end ConsensusNode

open ConsensusNode

/-! ## The account leads to what the call leaves -/

/-- Everything said and committed is in what the call returns. -/
def Whole (es : List Effect) (res : Except ConsensusError ConsensusProgress) : Prop :=
  (∀ env, .send env ∈ es → env ∈ (returned res).outbound) ∧
    ∀ previous cm, .commit previous cm ∈ es → cm ∈ (returned res).commits

/-- The effects account for the call, and what it returns is whole unless it fails because the
node's own slot refused a vote. -/
structure Accounts (c : Crypto) (n : ConsensusNode) (es : List Effect) (out : Outcome) : Prop where
  run : Run (Does c) n es out.1
  whole : out.2.isOk = true ∨ (∀ k r, .spoil k r ∉ es) → Whole es out.2

/-- An account of a function that only speaks: it fails only where a vote is refused. -/
structure Speaks (c : Crypto) (n : ConsensusNode) (es : List Effect) (out : Outcome) : Prop extends Accounts c n es out where
  fails : out.2.isOk = true ∨ ∃ k r, .spoil k r ∈ es

theorem accounts_nil (c : Crypto) (n : ConsensusNode) (res : Except ConsensusError ConsensusProgress) :
    Accounts c n [] (n, res) :=
  ⟨.nil, fun _ => ⟨by simp, by simp⟩⟩

theorem speaks_nil (c : Crypto) (n : ConsensusNode) (progress : ConsensusProgress) : Speaks c n [] (n, .ok progress) :=
  ⟨accounts_nil c n _, .inl rfl⟩

theorem speaks_spoil {c : Crypto} {n n₁ : ConsensusNode} {k : VoteKind} {r : Nat} (h : Does c n (.spoil k r) n₁)
    (x : ConsensusError) : Speaks c n [.spoil k r] (n₁, .error x) :=
  ⟨⟨.single h, fun _ => ⟨by simp, by simp⟩⟩, .inr ⟨k, r, List.mem_singleton.2 rfl⟩⟩

theorem isOk_then (progress : ConsensusProgress) (out : Outcome) : (progress.then out).2.isOk = out.2.isOk := by
  obtain ⟨n', res⟩ := out
  cases res with
  | ok p => rfl
  | error x => rfl

/-- What is in a call's progress is in it once other progress is put in front. -/
theorem mem_then (progress : ConsensusProgress) {out : Outcome} (hok : out.2.isOk = true) :
    (∀ env ∈ progress.outbound, env ∈ (returned (progress.then out).2).outbound) ∧
    (∀ env ∈ (returned out.2).outbound, env ∈ (returned (progress.then out).2).outbound) ∧
    ∀ cm ∈ (returned out.2).commits, cm ∈ (returned (progress.then out).2).commits := by
  obtain ⟨n', res⟩ := out
  cases res with
  | error x => cases hok
  | ok p =>
    exact ⟨fun env h => List.mem_append_left _ h, fun env h => List.mem_append_right _ h,
      fun cm h => List.mem_append_right _ h⟩

/-- Progress in front of a call's, with the envelopes that were sent before it. -/
theorem Speaks.then {c : Crypto} {n n₁ : ConsensusNode} {es es₁ : List Effect} {progress : ConsensusProgress} {out : Outcome}
    (hrun : Run (Does c) n es₁ n₁) (hsent : ∀ env, .send env ∈ es₁ → env ∈ progress.outbound)
    (hcommit : ∀ previous cm, .commit previous cm ∉ es₁) (h : Speaks c n₁ es out) :
    Speaks c n (es₁ ++ es) (progress.then out) := by
  refine ⟨⟨hrun.append h.run, fun hor => ?_⟩, ?_⟩
  · have hok : out.2.isOk = true := by
      rcases hor with hok | hno
      · exact (isOk_then progress out).symm.trans hok
      · exact h.fails.resolve_right fun ⟨k, r, hmem⟩ => hno k r (List.mem_append_right _ hmem)
    obtain ⟨hsends, hcommits⟩ := h.whole (.inl hok)
    obtain ⟨hfront, hback, hcms⟩ := mem_then progress hok
    refine ⟨fun env hmem => ?_, fun previous cm hmem => ?_⟩
    · rcases List.mem_append.1 hmem with hmem | hmem
      · exact hfront env (hsent env hmem)
      · exact hback env (hsends env hmem)
    · rcases List.mem_append.1 hmem with hmem | hmem
      · exact absurd hmem (hcommit previous cm)
      · exact hcms cm (hcommits previous cm hmem)
  · rcases h.fails with hok | ⟨k, r, hmem⟩
    · exact .inl ((isOk_then progress out).trans hok)
    · exact .inr ⟨k, r, List.mem_append_right _ hmem⟩

/-- An envelope sent, and then a call whose progress follows it. -/
theorem Speaks.sent {c : Crypto} {n n₁ : ConsensusNode} {env : ConsensusEnvelope} {es : List Effect} {out : Outcome}
    (hsend : Does c n (.send env) n₁) (h : Speaks c n₁ es out) :
    Speaks c n (.send env :: es) ((({} : ConsensusProgress).push_outbound env).then out) := by
  refine Speaks.then (.single hsend) (fun env' hmem => ?_) (fun previous cm hmem => ?_) h
  · cases List.mem_singleton.1 hmem
    simp [ConsensusProgress.push_outbound]
  · cases List.mem_singleton.1 hmem

theorem speaks_sent_last {c : Crypto} {n n₁ : ConsensusNode} {env : ConsensusEnvelope} (hsend : Does c n (.send env) n₁) :
    Speaks c n [.send env] (n₁, .ok (({} : ConsensusProgress).push_outbound env)) := by
  refine ⟨⟨.single hsend, fun _ => ⟨fun env' hmem => ?_, fun previous cm hmem => ?_⟩⟩, .inl rfl⟩
  · cases List.mem_singleton.1 hmem
    simp [returned, ConsensusProgress.push_outbound]
  · cases List.mem_singleton.1 hmem

theorem commit_speaks (c : Crypto) (n : ConsensusNode) {r : Nat} (hr : n.round ≤ r) (v : Option String) (t : Int) :
    Speaks c n (n.commit_account c r v t) (n.commit c r v t) := by
  unfold commit_account commit
  split
  · exact speaks_nil c n _
  · split
    · exact speaks_nil c n _
    · rename_i id p hp
      split
      · exact speaks_nil c n _
      · rename_i hid
        simp only [ne_eq, Decidable.not_not] at hid
        subst hid
        dsimp only
        split
        · exact speaks_nil c n _
        · rename_i hq
          simp only [not_or, not_lt] at hq
          have hdo := Does.commit (c := c) t hr hp hq.1 hq.2
          refine ⟨⟨.single hdo, fun _ => ⟨by simp [returned], fun previous cm hmem => ?_⟩⟩, .inl rfl⟩
          simp only [returned, List.map_cons, List.map_nil, List.mem_singleton, Effect.commit.injEq] at hmem ⊢
          exact hmem.2

theorem emit_precommit_speaks (c : Crypto) (n : ConsensusNode) {r : Nat} (hr : n.round ≤ r) (v : Option String)
    (t : Int) : Speaks c n (n.emit_precommit_account c r v t) (n.emit_precommit c r v t) := by
  unfold emit_precommit_account emit_precommit
  split
  · exact speaks_nil c n _
  · rename_i hn
    obtain ⟨herr, hok⟩ := cast_cases c n .precommit hr hn v t
    dsimp only
    cases hx : ((ledger n.precommits r).record_vote n.local_agent_id v).2 with
    | error x => exact speaks_spoil (herr x hx) _
    | ok count =>
      have hsend := hok count hx
      dsimp only
      split
      · refine .sent hsend (commit_speaks c _ ?_ v t)
        exact hr
      · exact speaks_sent_last hsend

theorem emit_prevote_speaks (c : Crypto) (n : ConsensusNode) {r : Nat} (hr : n.round ≤ r) (v : Option String)
    (t : Int) : Speaks c n (n.emit_prevote_account c r v t) (n.emit_prevote c r v t) := by
  unfold emit_prevote_account emit_prevote
  split
  · exact speaks_nil c n _
  · rename_i hn
    obtain ⟨herr, hok⟩ := cast_cases c n .prevote hr hn v t
    dsimp only
    cases hx : ((ledger n.prevotes r).record_vote n.local_agent_id v).2 with
    | error x => exact speaks_spoil (herr x hx) _
    | ok count =>
      have hsend := hok count hx
      dsimp only
      split
      · refine .sent hsend (emit_precommit_speaks c _ ?_ v t)
        exact hr
      · exact speaks_sent_last hsend

theorem emit_proposal_speaks (c : Crypto) (n : ConsensusNode) (t : Int) :
    Speaks c n (n.emit_proposal_account c t) (n.emit_proposal_if_leader c t) := by
  by_cases hlead : Leads c n n.round
  · obtain ⟨p, hp⟩ := Option.ne_none_iff_exists'.1 hlead.pending
    have hrecord : n.record_proposal c n.local_agent_id n.round p =
        ({ n with proposals := n.proposals.insert n.round p }, .ok ()) := by
      unfold record_proposal
      rw [hlead.proposer]
      simp [hlead.open_round]
    have hemit : n.emit_proposal_if_leader c t =
        (({} : ConsensusProgress).push_outbound (n.build_envelope n.round (.Proposal p) t)).then
          ({ n with proposals := n.proposals.insert n.round p }.emit_prevote c n.round (some p.proposal_id) t) := by
      unfold emit_proposal_if_leader proposer_for_current_round observe_local_proposal
      rw [hlead.proposer]
      simp only [ne_eq, not_true_eq_false, if_false, hlead.open_round, Option.isSome_none, Bool.false_eq_true, hp, hrecord]
      rfl
    have haccount : n.emit_proposal_account c t =
        .send (n.build_envelope n.round (.Proposal p) t) ::
          { n with proposals := n.proposals.insert n.round p }.emit_prevote_account c n.round (some p.proposal_id) t := by
      unfold emit_proposal_account
      simp only [hp]
      rw [if_pos ⟨hlead.proposer, by rw [hlead.open_round]; rfl⟩]
    rw [hemit, haccount]
    exact .sent (.propose t le_rfl hlead.proposer hlead.open_round hp) (emit_prevote_speaks c _ le_rfl _ t)
  · have haccount : n.emit_proposal_account c t = [] := by
      unfold emit_proposal_account
      split
      · rfl
      · rename_i p hp
        refine if_neg fun h => hlead ⟨h.1, Option.isNone_iff_eq_none.1 h.2, by simp [hp]⟩
    rw [emit_proposal_idle hlead, haccount]
    exact speaks_nil c n _

theorem advance_speaks (c : Crypto) (n : ConsensusNode) (r : Nat) (t : Int) :
    Speaks c n (n.advance_account c r t) (n.advance_round c r t) := by
  unfold advance_account advance_round
  split
  · exact speaks_nil c n _
  · rename_i hr
    have henter : Run (Does c) n [.enter r] { n with round := r, step := .Propose, round_started_at_ms := t } :=
      .single (.enter t (not_le.1 hr))
    exact Speaks.then henter (by simp) (by simp) (emit_proposal_speaks c _ t)

/-! ## Messages -/

theorem Accounts.cons {c : Crypto} {n n₁ : ConsensusNode} {e : Effect} {es : List Effect} {out : Outcome}
    (h : Does c n e n₁) (hsend : ∀ env, e ≠ .send env) (hcommit : ∀ previous cm, e ≠ .commit previous cm)
    (hrest : Accounts c n₁ es out) : Accounts c n (e :: es) out := by
  refine ⟨.cons h hrest.run, fun hor => ?_⟩
  obtain ⟨hsends, hcommits⟩ := hrest.whole (hor.imp_right fun hno k r hmem => hno k r (List.mem_cons_of_mem _ hmem))
  refine ⟨fun env hmem => ?_, fun previous cm hmem => ?_⟩
  · exact hsends env ((List.mem_cons.1 hmem).resolve_left fun heq => hsend env heq.symm)
  · exact hcommits previous cm ((List.mem_cons.1 hmem).resolve_left fun heq => hcommit previous cm heq.symm)

theorem observe_body_accounts (c : Crypto) (n : ConsensusNode) (m : ConsensusMessage) (t : Int)
    (hr : n.round ≤ m.round) (ha : m.sender ∈ n.committee.members) :
    Accounts c n (n.observe_body_account c m t) (n.observe_body c m t) := by
  have hemit : ∀ s : ConsensusNode, s.round ≤ m.round → ∀ v, Accounts c s (s.emit_prevote_account c m.round v t)
      (if m.round ∈ s.emitted_prevotes then (s, .ok {}) else s.emit_prevote c m.round v t) := by
    intro s hs v
    split
    · rename_i hin
      have hnil : s.emit_prevote_account c m.round v t = [] := if_pos hin
      rw [hnil]
      exact accounts_nil c s _
    · exact (emit_prevote_speaks c s hs v t).toAccounts
  unfold observe_body_account observe_body
  cases m.body with
  | Proposal p =>
    dsimp only
    unfold observe_proposal
    rcases record_proposal_cases c n m.sender m.round p with ⟨x, hx⟩ | ⟨hx, hsome⟩ | ⟨hp, hnone, hx⟩
    · rw [hx]
      exact accounts_nil c n _
    · rw [hx, hsome]
      exact hemit n hr _
    · rw [hx, hnone]
      refine .cons (.store hr hp hnone) (by simp) (by simp)
        (hemit { n with proposals := n.proposals.insert m.round p } ?_ _)
      exact hr
  | Prevote v =>
    have hhear : Does c n (.hear .prevote m.round m.sender v) (n.hears .prevote m.round m.sender v) := .hear hr ha
    refine .cons hhear (by simp) (by simp) ?_
    dsimp only
    unfold observe_prevote
    dsimp only
    cases ((ledger n.prevotes m.round).record_vote m.sender v).2 with
    | error x => exact accounts_nil c _ _
    | ok count =>
      dsimp only
      by_cases hq : n.committee.threshold ≤ count
      · rw [if_pos hq]
        split
        · refine (emit_precommit_speaks c _ ?_ v t).toAccounts
          exact hr
        · rename_i hin
          have hnil : (n.hears .prevote m.round m.sender v).emit_precommit_account c m.round v t = [] :=
            if_pos (not_not.1 fun hnot => hin ⟨hq, hnot⟩)
          rw [hnil]
          exact accounts_nil c _ _
      · rw [if_neg hq, if_neg fun h => hq h.1]
        exact accounts_nil c _ _
  | Precommit v =>
    have hhear : Does c n (.hear .precommit m.round m.sender v) (n.hears .precommit m.round m.sender v) := .hear hr ha
    refine .cons hhear (by simp) (by simp) ?_
    dsimp only
    unfold observe_precommit
    dsimp only
    cases ((ledger n.precommits m.round).record_vote m.sender v).2 with
    | error x => exact accounts_nil c _ _
    | ok count =>
      dsimp only
      split
      · refine (commit_speaks c _ ?_ v t).toAccounts
        exact hr
      · exact accounts_nil c _ _

theorem read_account_run {c : Crypto} {n : ConsensusNode} {m : ConsensusMessage} (hacc : Accepts n m) (t : Int) :
    Run (Does c) n (n.read_account c m t) (n.readOn c m t).1 := by
  have hadv := (advance_speaks c n m.round t).run
  have hreach := advance_round_reaches c n m.round t
  have hround := hreach.round_le hacc.round
  have hmember : m.sender ∈ (n.advance_round c m.round t).1.committee.members := by
    rw [hreach.kin.committee]
    exact hacc.member
  unfold read_account readOn
  by_cases hlt : n.round < m.round
  · rw [if_pos hlt]
    cases hout : n.advance_round c m.round t with
    | mk n₁ res =>
      rw [hout] at hadv hround hmember
      cases res with
      | error x => exact (List.append_nil (n.advance_account c m.round t)).symm ▸ hadv
      | ok progress => exact hadv.append (observe_body_accounts c n₁ m t hround hmember).run
  · have hnil : n.advance_account c m.round t = [] := if_pos (not_lt.1 hlt)
    have hstay : n.advance_round c m.round t = (n, .ok {}) := if_pos (not_lt.1 hlt)
    rw [if_neg hlt, hnil, hstay]
    exact (observe_body_accounts c n m t hacc.round hacc.member).run

theorem handle_envelope_account_run (c : Crypto) (n : ConsensusNode) (envelope : ConsensusEnvelope) (t : Int) :
    Run (Does c) n (n.handle_envelope_account c envelope t) (n.handle_envelope c envelope t).1 := by
  unfold handle_envelope_account handle_envelope
  dsimp only
  by_cases hsubject : envelope.subject = n.config.subject_layout.round_subject n.committee envelope.message.height
      envelope.message.round
  · rw [if_neg (not_not.2 hsubject)]
    by_cases hacc : Accepts n envelope.message
    · rw [if_pos ⟨hsubject, hacc⟩, hacc.observed]
      exact read_account_run hacc t
    · rw [if_neg fun h => hacc h.2]
      rcases observe_message_cases c n envelope.message t with ⟨res, -, heq⟩ | ⟨h, -⟩
      · rw [heq]
        exact .nil
      · exact absurd h hacc
  · rw [if_pos hsubject, if_neg fun h => hsubject h.1]
    exact .nil

/-- What becomes of a signed envelope, with its account. -/
theorem handle_signed_envelope_account_cases (c : Crypto) (n : ConsensusNode) (e : ConsensusSignedEnvelope) (t : Int) :
    (n.handle_signed_envelope_account c e t = [] ∧ n.handle_signed_envelope c e t = (n, .ok {})) ∨
    (n.handle_signed_envelope_account c e t =
        [.exclude e.envelope.message.height e.envelope.message.round e.envelope.message.sender] ∧
      (n.handle_signed_envelope c e t).1 =
        n.excluding c e.envelope.message.height e.envelope.message.round e.envelope.message.sender) ∨
    (n.is_excluded e.envelope.message.height e.envelope.message.round e.envelope.message.sender = false ∧
      n.seen_signed_messages (.from_message e.envelope.message) = none ∧ e.verifies c = true ∧
      n.handle_signed_envelope_account c e t = .see e :: (n.seeing e).handle_envelope_account c e.envelope t ∧
      n.handle_signed_envelope c e t = (n.seeing e).handle_envelope c e.envelope t) := by
  unfold handle_signed_envelope_account handle_signed_envelope
  dsimp only [SignedMessageKey.from_message]
  split
  · exact .inl ⟨rfl, rfl⟩
  · rename_i hadmitted
    cases hseen : n.seen_signed_messages (.from_message e.envelope.message) with
    | some previous =>
      dsimp only [SignedMessageKey.from_message] at hseen
      rw [hseen]
      dsimp only
      split
      · exact .inl ⟨rfl, rfl⟩
      · exact .inr (.inl ⟨rfl, exclude_sender_fst ..⟩)
    | none =>
      dsimp only [SignedMessageKey.from_message] at hseen
      rw [hseen]
      dsimp only
      split
      · exact .inr (.inl ⟨rfl, exclude_sender_fst ..⟩)
      · rename_i hver
        exact .inr (.inr ⟨Bool.eq_false_iff.2 hadmitted, rfl, by simpa using hver, rfl, rfl⟩)

/-- A tick is too early, or it starts the next round. -/
theorem tick_cases {c : Crypto} {n : ConsensusNode} {t : Int} {out : Outcome} (h : n.tick c t = some out) :
    (t - n.round_started_at_ms < n.config.round_timeout_ms ∧ out = (n, .ok {})) ∨
      (¬ t - n.round_started_at_ms < n.config.round_timeout_ms ∧ out = n.advance_round c (n.round + 1) t) := by
  unfold tick at h
  split at h
  · cases h
  · rename_i elapsed helapsed
    rw [← checkedSubI_eq_some helapsed]
    split at h
    · rename_i hlt
      exact .inl ⟨hlt, (Option.some.inj h).symm⟩
    · rename_i hnlt
      split at h
      · cases h
      · rename_i target htarget
        rw [← checkedAdd_eq_some htarget]
        exact .inr ⟨hnlt, (Option.some.inj h).symm⟩

/-- The effects of a call lead to the node it leaves. -/
theorem account_run {c : Crypto} {n : ConsensusNode} {invocation : Invocation} {out : Outcome}
    (h : n.invoke c invocation = some out) : Run (Does c) n (n.account c invocation) out.1 := by
  cases invocation with
  | envelope envelope t =>
    obtain rfl := Option.some.inj h
    exact handle_envelope_account_run c n envelope t
  | call input =>
    cases input with
    | queue p t =>
      obtain rfl := Option.some.inj h
      exact .cons (.pend p) (emit_proposal_speaks c _ t).run
    | tick t =>
      rcases tick_cases h with ⟨hlt, rfl⟩ | ⟨hnlt, rfl⟩
      · rw [account, if_pos hlt]
        exact .nil
      · rw [account, if_neg hnlt]
        exact (advance_speaks c n _ t).run
    | deliver e t =>
      obtain rfl := Option.some.inj h
      have haccount : n.account c (.call (.deliver e t)) = n.handle_signed_envelope_account c e t := rfl
      rw [haccount]
      rcases handle_signed_envelope_account_cases c n e t with ⟨hes, hn⟩ | ⟨hes, hn⟩ | ⟨-, hseen, hver, hes, hn⟩
      · rw [hes, hn]
        exact .nil
      · rw [hes, hn]
        exact .single .exclude
      · rw [hes, hn]
        exact .cons (.see hseen hver) (handle_envelope_account_run c (n.seeing e) e.envelope t)

end Ambush.Consensus

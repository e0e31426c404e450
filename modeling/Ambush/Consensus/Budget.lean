import Ambush.Consensus.DriveCalls
import Ambush.Consensus.Exclusion
/-!
# The budget of a driven round

`drive_round` hands its node a bounded number of envelopes and ticks it through the rounds
up to `max_faulty`. Whether it returns over every transport depends on the start of its
clock and on the size of the committee: `drive_round_bounded_iff` says when it does. The
clock saturates, and a tick that no longer reaches the timeout is repeated forever; so is
the delivery of a message when the bound on deliveries is the largest number there is.
-/
open Lib

namespace Ambush.Consensus

open ConsensusNode

/-! ## Loops that return, and loops that do not -/

section Loop
variable {c : Crypto} {T : ConsensusTransport} {bound : Nat}

/-- A loop whose passes all return or lower a measure returns. -/
theorem drive_loop_returns {I : Nat → Drive T → Prop}
    (hpass : ∀ m d, I m d → (∃ t res, pass c T bound d = some (.done t res)) ∨
      ∃ m' d', pass c T bound d = some (.go d') ∧ m' < m ∧ I m' d') (m : Nat) {d : Drive T} (h : I m d) :
    ∃ fuel, (drive_loop c T bound fuel d).isSome = true := by
  induction m using Nat.strongRecOn generalizing d with
  | ind m ih =>
    rcases hpass m d h with ⟨t, res, hdone⟩ | ⟨m', d', hgo, hlt, h'⟩
    · exact ⟨1, by simp [drive_loop, hdone]⟩
    · obtain ⟨fuel, hfuel⟩ := ih m' hlt h'
      exact ⟨fuel + 1, by simpa [drive_loop, hgo] using hfuel⟩

/-- A loop that keeps an invariant under which every pass goes on never returns. -/
theorem drive_loop_stuck {I : Drive T → Prop} (hpass : ∀ d, I d → ∃ d', pass c T bound d = some (.go d') ∧ I d')
    (fuel : Nat) {d : Drive T} (h : I d) : drive_loop c T bound fuel d = none := by
  induction fuel generalizing d with
  | zero => rfl
  | succ fuel ih =>
    obtain ⟨d', hgo, h'⟩ := hpass d h
    simp only [drive_loop, hgo]
    exact ih h'

end Loop

/-! ## Nodes that keep pace -/

/-- The node's round began at the clock `t`, after at least `j` others. -/
structure Paced (k : ConsensusCommittee) (g : ConsensusConfig) (j : Nat) (t : Int) (n : ConsensusNode) : Prop where
  committee : n.committee = k
  config : n.config = g
  clock : n.round_started_at_ms = t
  round : j ≤ n.round
  blank : Blank n

section Pace
variable {c : Crypto} {k : ConsensusCommittee} {g : ConsensusConfig} {j : Nat} {t : Int} {n : ConsensusNode}

theorem Paced.quiet {n' : ConsensusNode} (h : Paced k g j t n) (hquiet : Quiet n n') : Paced k g j t n' where
  committee := hquiet.kin.committee.trans h.committee
  config := hquiet.kin.config.trans h.config
  clock := hquiet.clock.trans h.clock
  round := hquiet.round ▸ h.round
  blank := hquiet.blank h.blank

theorem Paced.deliver {e : ConsensusSignedEnvelope} (h : Paced k g j t n) (hthr : 1 < k.threshold)
    (hout : Uncommitted (n.handle_signed_envelope c e t)) : Paced k g j t (n.handle_signed_envelope c e t).1 := by
  have honward := handle_signed_envelope_onward h.blank (h.committee ▸ hthr) hout
  refine ⟨honward.kin.committee.trans h.committee, honward.kin.config.trans h.config, ?_, h.round.trans honward.round,
    honward.blank⟩
  rcases honward.clock with heq | heq
  · exact heq.trans h.clock
  · exact heq

/-- A timeout later the node enters the next round, alone in it. -/
theorem Paced.tick (h : Paced k g j t n) (hthr : 1 < k.threshold) (hround : n.round < u64Max)
    (hwidth : g.round_timeout_ms ≤ i64Max) :
    ∃ out, n.tick c (t + g.round_timeout_ms) = some out ∧ Uncommitted out ∧ out.1.round = n.round + 1 ∧
      Kin n out.1 ∧ Paced k g (j + 1) (t + g.round_timeout_ms) out.1 := by
  have hpos := n.timeout_pos
  rw [h.config] at hpos
  have helapsed : t + g.round_timeout_ms - n.round_started_at_ms = g.round_timeout_ms := by
    rw [h.clock]
    omega
  have hsub : checkedSubI (t + g.round_timeout_ms) n.round_started_at_ms = some g.round_timeout_ms := by
    unfold checkedSubI
    rw [helapsed, if_pos ⟨by unfold i64Min; omega, hwidth⟩]
  have hadd : checkedAdd n.round 1 = some (n.round + 1) := if_pos (Nat.succ_le_of_lt hround)
  obtain ⟨hout, hnext, hclock, hkin, hblank⟩ := @advance_round_onward c n (n.round + 1) (t + g.round_timeout_ms) h.blank
    (h.committee ▸ hthr) (Nat.lt_succ_self _)
  refine ⟨_, ?_, hout, hnext, hkin, hkin.committee.trans h.committee, hkin.config.trans h.config, hclock, ?_, hblank⟩
  · simp only [ConsensusNode.tick, hsub, hadd, h.config, lt_irrefl, if_false]
  · rw [hnext]
    exact Nat.succ_le_succ h.round

/-- Too early, a tick does nothing. -/
theorem tick_early {now_ms : Int} (hlt : now_ms - n.round_started_at_ms < n.config.round_timeout_ms)
    (hle : n.round_started_at_ms ≤ now_ms) (hwidth : n.config.round_timeout_ms ≤ i64Max) :
    n.tick c now_ms = some (n, .ok {}) := by
  have hsub : checkedSubI now_ms n.round_started_at_ms = some (now_ms - n.round_started_at_ms) := by
    unfold checkedSubI
    rw [if_pos ⟨by unfold i64Min; omega, by omega⟩]
  simp only [ConsensusNode.tick, hsub, hlt, if_true]

end Pace

/-! ## Returning -/

section Returns
variable {c : Crypto} {T : ConsensusTransport} {bound : Nat} {k : ConsensusCommittee} {g : ConsensusConfig} {st : Int}

/-- Where a drive that is on time stands after `j` ticks. -/
structure OnTime (k : ConsensusCommittee) (g : ConsensusConfig) (st : Int) (bound j : Nat) (d : Drive T) : Prop where
  handled : d.handled_inbound ≤ bound
  now : d.now_ms = st + j * g.round_timeout_ms
  paced : Paced k g j d.now_ms d.node

/-- A clock that counts timeouts has not saturated while there is room. -/
theorem satAddI_count {a b : Int} {i f : Nat} (ha : i64Min ≤ a) (hb : 0 < b) (hi : i < f) (hroom : a + f * b ≤ i64Max) :
    satAddI (a + i * b) b = a + (i + 1 : Nat) * b := by
  have hle : ((i : Int) + 1) * b ≤ f * b := Int.mul_le_mul_of_nonneg_right (by omega) (Int.le_of_lt hb)
  have hnonneg : 0 ≤ ((i : Int) + 1) * b := Int.mul_nonneg (by omega) (Int.le_of_lt hb)
  have hsplit : ((i : Int) + 1) * b = i * b + b := by rw [Int.add_mul, Int.one_mul]
  unfold satAddI
  push_cast
  omega

/-- With a bound that can be passed and a clock that does not saturate within the budget,
every pass of a drive that is on time returns or brings it nearer to its end. -/
theorem OnTime.pass (hbound : bound < u64Max) (hthr : 1 < k.threshold) (hfaulty : k.max_faulty < u64Max)
    (hstart : i64Min ≤ st) (hwidth : g.round_timeout_ms ≤ i64Max) (hroom : st + k.max_faulty * g.round_timeout_ms ≤ i64Max)
    {j : Nat} {d : Drive T} (h : OnTime k g st bound j d) :
    (∃ t res, pass c T bound d = some (.done t res)) ∨
      ∃ j' d', pass c T bound d = some (.go d') ∧
        bound - d'.handled_inbound + (k.max_faulty - j') < bound - d.handled_inbound + (k.max_faulty - j) ∧
        OnTime k g st bound j' d' := by
  rcases pass_cases (c := c) (T := T) d with hdone | ⟨t, inbound, d', hne, hreceive, hpass⟩ | ⟨t, hround, hpass⟩
  · exact .inl hdone
  · -- every envelope counts against the bound
    obtain ⟨hpaced, hnow, hcount⟩ := receive_go (d := { d with transport := t, outbound := [] })
      (fun n e hn hout => Paced.deliver hn hthr hout) rfl h.paced hreceive
    obtain ⟨hhandled, hle⟩ := hcount hbound h.handled
    have hlen := List.length_pos_iff.2 hne
    dsimp only at hhandled hnow
    refine .inr ⟨j, d', hpass, by omega, hle, hnow.trans h.now, ?_⟩
    rw [hnow]
    exact hpaced
  · -- the next round is within the budget, so the clock has room for its timeout
    rw [h.paced.committee] at hround
    have hj : j < k.max_faulty := lt_of_le_of_lt h.paced.round hround
    have hpos := d.node.timeout_pos
    rw [h.paced.config] at hpos
    have hnow : satAddI d.now_ms g.round_timeout_ms = d.now_ms + g.round_timeout_ms := by
      rw [h.now, satAddI_count hstart hpos hj hroom]
      push_cast
      rw [Int.add_mul, Int.one_mul, Int.add_assoc]
    obtain ⟨out, htick, hout, -, -, hpaced⟩ := h.paced.tick (c := c) hthr (hround.trans hfaulty) hwidth
    rw [h.paced.config, hnow, htick] at hpass
    obtain ⟨outbound, hsettle⟩ := settle_go (c := c) (T := T)
      (d := { d with transport := t, outbound := [], now_ms := d.now_ms + g.round_timeout_ms }) hout
    rw [Option.map_some, hsettle] at hpass
    refine .inr ⟨j + 1, _, hpass, by dsimp only; omega, h.handled, ?_, hpaced⟩
    rw [← hnow, h.now, satAddI_count hstart hpos hj hroom]

/-- Where no member may be faulty there is no round to tick into. -/
theorem pass_faultless (hbound : bound < u64Max) (hzero : k.max_faulty = 0) {d : Drive T} (hk : d.node.committee = k)
    (hhandled : d.handled_inbound ≤ bound) :
    (∃ t res, pass c T bound d = some (.done t res)) ∨
      ∃ d', pass c T bound d = some (.go d') ∧ bound - d'.handled_inbound < bound - d.handled_inbound ∧
        d'.node.committee = k ∧ d'.handled_inbound ≤ bound := by
  rcases pass_cases (c := c) (T := T) d with hdone | ⟨t, inbound, d', hne, hreceive, hpass⟩ | ⟨t, hround, hpass⟩
  · exact .inl hdone
  · obtain ⟨hk', -, hcount⟩ := receive_go (P := fun n => n.committee = k) (d := { d with transport := t, outbound := [] })
      (fun n e hn _ => (deliver_kin c n e d.now_ms).committee.trans hn) rfl hk hreceive
    obtain ⟨heq, hle⟩ := hcount hbound hhandled
    have hlen := List.length_pos_iff.2 hne
    dsimp only at heq
    exact .inr ⟨d', hpass, by omega, hk', hle⟩
  · rw [hk, hzero] at hround
    exact absurd hround (Nat.not_lt_zero _)

end Returns

/-! ## The first call -/

/-- A node as `new_with_signing_key` makes it. -/
structure Created (a : AgentId) (key : SigningKey) (k : ConsensusCommittee) (g : ConsensusConfig) (previous : String)
    (st : Int) (n : ConsensusNode) : Prop where
  id : n.local_agent_id = a
  key : n.local_signing_key = some key
  committee : n.committee = k
  config : n.config = g
  height : n.height = 1
  round : n.round = 0
  previous : n.previous_commit_hash = previous
  clock : n.round_started_at_ms = st
  proposals : n.proposals = .empty
  prevotes : n.prevotes = .empty
  precommits : n.precommits = .empty
  emitted_prevotes : n.emitted_prevotes = ∅
  emitted_precommits : n.emitted_precommits = ∅

section First
variable {c : Crypto} {a : AgentId} {key : SigningKey} {k : ConsensusCommittee} {g : ConsensusConfig} {previous : String}
  {st : Int} {n : ConsensusNode}

theorem created_of_new (h : new_with_signing_key a key k g previous st = .ok n) : Created a key k g previous st n := by
  unfold new_with_signing_key new_internal at h
  split at h
  · split at h
    · cases h
      exact ⟨rfl, rfl, rfl, rfl, rfl, rfl, rfl, rfl, rfl, rfl, rfl, rfl, rfl⟩
    · cases h
  · cases h

theorem Created.paced (h : Created a key k g previous st n) : Paced k g 0 st n := by
  refine ⟨h.committee, h.config, h.clock, Nat.zero_le _, fun r _ => ?_⟩
  rw [h.prevotes, h.precommits]
  exact ⟨rfl, rfl⟩

/-- The local member makes the proposal of the first round. -/
def Opens (c : Crypto) (a : AgentId) (k : ConsensusCommittee) (previous : String) : Prop :=
  k.proposer_for c previous 0 = .ok a

/-- A first vote is counted once. -/
theorem tally_first {m : Map Nat VoteLedger} {r : Nat} (hnone : m r = none) (b : AgentId) (id : String) :
    tally (m.insert r ((ledger m r).record_vote b (some id)).1) r id = 1 := by
  have hempty : ledger m r = {} := by
    unfold ledger
    rw [hnone]
    rfl
  rw [tally_eq, ledger_insert, if_pos rfl, hempty, VoteLedger.record_vote_voters]
  simp [VoteLedger.voters]

/-- Where one vote is enough, a leader alone commits its proposal. -/
theorem emit_proposal_commits (hleads : Leads c n n.round) (hthr : n.committee.threshold = 1)
    (hpre : n.prevotes n.round = none) (hcom : n.precommits n.round = none) (hnot : n.round ∉ n.emitted_prevotes)
    (hnot' : n.round ∉ n.emitted_precommits) (t : Int) : ¬ Uncommitted (n.emit_proposal_if_leader c t) := by
  obtain ⟨p, -, hout⟩ := emit_proposal_leads (t := t) hleads
  rw [hout]
  intro h
  have hprevote := uncommitted_then h
  have hfirst : ∀ m : Map Nat VoteLedger, m n.round = none → ∀ v,
      ((ledger m n.round).record_vote n.local_agent_id v).2 = .ok 1 := by
    intro m hm v
    unfold ledger
    rw [hm]
    exact record_vote_first _ v
  simp only [emit_prevote, hnot, hnot', hfirst _ hpre, hthr, le_refl, not_false_eq_true, and_self, if_true, if_false] at hprevote
  have hprecommit := uncommitted_then hprevote
  simp only [emit_precommit, hnot', hfirst _ hcom, hthr, le_refl, if_true, if_false] at hprecommit
  obtain ⟨q, hq, hnone⟩ := uncommitted_then hprecommit
  simp only [commit, Map.insert_self, ne_eq, not_true_eq_false, if_false, tally_first hpre, tally_first hcom, hthr,
    lt_irrefl, or_self] at hq
  obtain rfl := Except.ok.inj hq
  cases hnone

/-- The drive goes into its loop, with the node on pace, unless the first call commits; and
that it does exactly where the node leads the first round and one vote is enough. -/
theorem queue_proposal_uncommitted_iff (h : Created a key k g previous st n) (p : ConsensusProposal) (t : Int) :
    Uncommitted (n.queue_proposal c p t) ↔ ¬ (k.max_faulty = 0 ∧ Opens c a k previous) := by
  let n₁ : ConsensusNode := { n with pending_local_proposal := some p }
  have hleads : Leads c n₁ n₁.round ↔ Opens c a k previous := by
    unfold Opens
    rw [← h.committee, ← h.previous, ← h.id, ← h.round]
    refine ⟨fun hl => hl.proposer, fun hp => ⟨hp, ?_, by simp [n₁]⟩⟩
    show n.proposals n.round = none
    rw [h.proposals]
    rfl
  have hpre : n₁.prevotes n₁.round = none := by
    show n.prevotes n.round = none
    rw [h.prevotes]
    rfl
  have hcom : n₁.precommits n₁.round = none := by
    show n.precommits n.round = none
    rw [h.precommits]
    rfl
  have hthreshold : n₁.committee.threshold = 2 * k.max_faulty + 1 := by
    rw [← h.committee]
    exact n.committee.threshold_eq
  show Uncommitted (n₁.emit_proposal_if_leader c t) ↔ _
  constructor
  · rintro hout ⟨hzero, hopens⟩
    refine emit_proposal_commits (hleads.2 hopens) (by omega) hpre hcom ?_ ?_ t hout
    · show n.round ∉ n.emitted_prevotes
      simp [h.emitted_prevotes]
    · show n.round ∉ n.emitted_precommits
      simp [h.emitted_precommits]
  · intro hnot
    by_cases hzero : k.max_faulty = 0
    · rw [emit_proposal_idle fun hl => hnot ⟨hzero, hleads.1 hl⟩]
      exact ⟨{}, rfl, rfl⟩
    · exact emit_proposal_alone hpre (by omega)

theorem queue_proposal_quiet {p : ConsensusProposal} {t : Int} (h : Uncommitted (n.queue_proposal c p t)) :
    Quiet n (n.queue_proposal c p t).1 := by
  have hpend : Quiet n { n with pending_local_proposal := some p } := ⟨⟨rfl, rfl, rfl, rfl⟩, rfl, rfl, rfl, id⟩
  exact hpend.trans (emit_proposal_quiet h)

end First

/-! ## Transports that never let it return -/

/-- A transport that takes everything and delivers the same envelopes again and again. -/
def repeating (inbound : List ConsensusSignedEnvelope) : ConsensusTransport where
  State := Unit
  accept_committee t _ := (t, .ok ())
  publish t _ := (t, .ok ())
  drain t := (t, .ok inbound)

/-- A message of height zero: every node of the committee is past it. -/
def stale (k : ConsensusCommittee) (g : ConsensusConfig) (a : AgentId) : ConsensusSignedEnvelope where
  envelope := {
    subject := g.subject_layout.round_subject k 0 0
    message := {
      height := 0, round := 0, previous_commit_hash := "", sender := a, sent_at_ms := 0, body := .Prevote none } }
  signature := ⟨"", "", "", ""⟩

section Stuck
variable {c : Crypto} {key : SigningKey} {k : ConsensusCommittee} {g : ConsensusConfig} {a : AgentId} {st t : Int}
  {n : ConsensusNode} {inbound : List ConsensusSignedEnvelope} {bound : Nat}

theorem publish_all_repeating (hkey : n.local_signing_key = some key) (u : (repeating inbound).State)
    (es : List ConsensusEnvelope) : publish_all c (repeating inbound) n u es = (u, .ok ()) := by
  induction es with
  | nil => rfl
  | cons e es ih =>
    simp only [publish_all, sign_outbound, hkey]
    exact ih

/-- Whatever it is taken for, a stale message changes neither round nor height. -/
theorem handle_stale (hk : n.committee = k) (hg : n.config = g) (ha : a ∈ k.members) (hheight : 0 < n.height) :
    Uncommitted (n.handle_signed_envelope c (stale k g a) t) ∧
      (n.handle_signed_envelope c (stale k g a) t).1.height = n.height := by
  have hexclude : ∀ kind reason hashes, Uncommitted (n.exclude_sender c 0 0 kind a reason hashes t) ∧
      (n.exclude_sender c 0 0 kind a reason hashes t).1.height = n.height := by
    intro kind reason hashes
    refine ⟨?_, by rw [exclude_sender_fst]; rfl⟩
    unfold exclude_sender
    dsimp only
    split
    · exact ⟨_, rfl, rfl⟩
    · exact ⟨_, rfl, rfl⟩
  unfold handle_signed_envelope
  dsimp only
  split
  · exact ⟨⟨{}, rfl, rfl⟩, rfl⟩
  split
  · split
    · exact ⟨⟨{}, rfl, rfl⟩, rfl⟩
    · exact hexclude _ _ _
  · split
    · exact hexclude _ _ _
    · have hmember : k.contains a = true := by simpa [ConsensusCommittee.contains] using ha
      subst hk hg
      simp only [handle_envelope, stale, observe_message, hmember, hheight, ne_eq, not_true_eq_false, if_false, if_true,
        Bool.not_true, Bool.false_eq_true]
      exact ⟨⟨{}, rfl, rfl⟩, trivial⟩

/-- Where the bound is the largest number, a transport that repeats a stale message is
listened to forever. -/
theorem repeated_stuck (hbound : bound = u64Max) (ha : a ∈ k.members) (fuel : Nat) {d : Drive (repeating [stale k g a])}
    (hkey : d.node.local_signing_key = some key) (hk : d.node.committee = k) (hg : d.node.config = g)
    (hheight : 0 < d.node.height) : drive_loop c _ bound fuel d = none := by
  refine drive_loop_stuck (I := fun d => d.node.local_signing_key = some key ∧ d.node.committee = k ∧
    d.node.config = g ∧ 0 < d.node.height) ?_ fuel ⟨hkey, hk, hg, hheight⟩
  rintro d ⟨hkey, hk, hg, hheight⟩
  obtain ⟨hout, hheight'⟩ := handle_stale (c := c) (t := d.now_ms) hk hg ha hheight
  have hcap : ¬ bound < satAdd d.handled_inbound 1 := by
    rw [hbound]
    unfold satAdd
    omega
  obtain ⟨outbound, hsettle⟩ := settle_go (c := c) (T := repeating [stale k g a])
    (d := { d with outbound := [], handled_inbound := satAdd d.handled_inbound 1 }) hout
  have hkin := deliver_kin c d.node (stale k g a) d.now_ms
  have hdrain : (repeating [stale k g a]).drain d.transport = (d.transport, .ok [stale k g a]) := rfl
  have hpass : pass c (repeating [stale k g a]) bound d = some (.go { d with
      node := (d.node.handle_signed_envelope c (stale k g a) d.now_ms).1
      outbound, handled_inbound := satAdd d.handled_inbound 1 }) := by
    simp only [pass, publish_all_repeating hkey, hdrain, receive, hcap, if_false, hsettle]
    rfl
  exact ⟨_, hpass, hkin.key.trans hkey, hkin.committee.trans hk, hkin.config.trans hg, hheight' ▸ hheight⟩

/-- Without envelopes a pass before the last round is a tick. -/
theorem pass_repeating_nil {d : Drive (repeating [])} (hkey : d.node.local_signing_key = some key)
    (hround : d.node.round < d.node.committee.max_faulty) :
    pass c (repeating []) bound d = (d.node.tick c (satAddI d.now_ms d.node.config.round_timeout_ms)).map
      (settle c (repeating []) { d with
        outbound := [], now_ms := satAddI d.now_ms d.node.config.round_timeout_ms }) := by
  have hdrain : (repeating []).drain d.transport = (d.transport, .ok []) := rfl
  simp only [pass, publish_all_repeating hkey, hdrain, receive, List.isEmpty_nil, Bool.not_true, Bool.false_eq_true,
    if_false, not_le.2 hround]

/-- Where a drive stands that hears nothing and has no room for all its timeouts: still on
time, or with its clock at the end and a timeout that it will not reach. -/
structure Stalling (key : SigningKey) (k : ConsensusCommittee) (g : ConsensusConfig) (st : Int) (d : Drive (repeating [])) :
    Prop where
  key : d.node.local_signing_key = some key
  committee : d.node.committee = k
  config : d.node.config = g
  round : d.node.round < k.max_faulty
  clock : (Blank d.node ∧ d.node.round_started_at_ms = d.now_ms ∧ d.now_ms = st + d.node.round * g.round_timeout_ms ∧
      d.now_ms ≤ i64Max) ∨
    (d.now_ms = i64Max ∧ d.node.round_started_at_ms ≤ i64Max ∧ i64Max - d.node.round_started_at_ms < g.round_timeout_ms)

theorem Stalling.pass (hthr : 1 < k.threshold) (hstart : i64Min ≤ st) (hwidth : g.round_timeout_ms ≤ i64Max)
    (hroom : i64Max < st + k.max_faulty * g.round_timeout_ms) {d : Drive (repeating [])} (h : Stalling key k g st d) :
    ∃ d', pass c (repeating []) bound d = some (.go d') ∧ Stalling key k g st d' := by
  have hpass := @pass_repeating_nil c key bound d h.key (h.committee ▸ h.round)
  have hpos := d.node.timeout_pos
  rw [h.config] at hpass hpos
  rcases h.clock with ⟨hblank, hstarted, hnow, hle⟩ | ⟨hnow, hstarted, hshort⟩
  · by_cases hnext : d.now_ms + g.round_timeout_ms ≤ i64Max
    · -- the clock still counts this timeout, but it cannot be the last
      have hsum : st + ((d.node.round : Int) + 1) * g.round_timeout_ms ≤ i64Max := by
        rw [Int.add_mul, Int.one_mul]
        omega
      have hrounds : ((d.node.round : Int) + 1) * 1 ≤ ((d.node.round : Int) + 1) * g.round_timeout_ms :=
        Int.mul_le_mul_of_nonneg_left (by omega) (by omega)
      have hnonneg : 0 ≤ (d.node.round : Int) * g.round_timeout_ms := Int.mul_nonneg (by omega) (Int.le_of_lt hpos)
      have hbig : d.node.round < u64Max := by
        unfold i64Min i64Max at *
        unfold u64Max
        omega
      have hsat : satAddI d.now_ms g.round_timeout_ms = d.now_ms + g.round_timeout_ms := by
        unfold satAddI
        omega
      obtain ⟨out, htick, hout, hround, hkin, hpaced⟩ :=
        Paced.tick (c := c) ⟨h.committee, h.config, hstarted, Nat.zero_le _, hblank⟩ hthr hbig hwidth
      obtain ⟨outbound, hsettle⟩ := settle_go (c := c) (T := repeating [])
        (d := { d with outbound := [], now_ms := d.now_ms + g.round_timeout_ms }) hout
      rw [hsat, htick, Option.map_some, hsettle] at hpass
      have hlast : d.node.round + 1 ≠ k.max_faulty := by
        intro heq
        rw [← heq] at hroom
        push_cast at hroom
        omega
      have hround' := h.round
      refine ⟨_, hpass, hkin.key.trans h.key, hpaced.committee, hpaced.config, ?_, .inl ⟨hpaced.blank, hpaced.clock, ?_, hnext⟩⟩
      · rw [hround]
        omega
      · rw [hround, hnow]
        push_cast
        rw [Int.add_mul, Int.one_mul, Int.add_assoc]
    · -- the clock reaches its end before the timeout
      have hsat : satAddI d.now_ms g.round_timeout_ms = i64Max := by
        unfold satAddI i64Min i64Max at *
        omega
      have htick := @tick_early c d.node i64Max (by rw [hstarted, h.config]; omega) (by rw [hstarted]; exact hle)
        (by rw [h.config]; exact hwidth)
      rw [hsat, htick] at hpass
      refine ⟨_, hpass, h.key, h.committee, h.config, h.round, .inr ⟨rfl, hstarted ▸ hle, ?_⟩⟩
      rw [hstarted]
      omega
  · have hsat : satAddI d.now_ms g.round_timeout_ms = i64Max := by
      rw [hnow]
      unfold satAddI i64Min i64Max at *
      omega
    have htick := @tick_early c d.node i64Max (by rw [h.config]; exact hshort) hstarted (by rw [h.config]; exact hwidth)
    rw [hsat, htick] at hpass
    exact ⟨_, hpass, h.key, h.committee, h.config, h.round, .inr ⟨rfl, hstarted, hshort⟩⟩

end Stuck

/-! ## Driving a round -/

/-- The drive returns; it ticks its node into no round after `max_faulty`; and a commit it
returns was emitted by the node in the drive, with both tallies at the threshold. -/
structure Bounded (c : Crypto) (T : ConsensusTransport) (node : ConsensusNode) (transport : T.State)
    (proposal : ConsensusProposal) (started_at_ms : Int) : Prop where
  returns : ∃ fuel, (drive_round c T fuel node transport proposal started_at_ms).isSome = true
  sound : ∀ fuel, ∀ x ∈ drive_calls c T fuel node transport proposal started_at_ms, x.Sound c node.committee
  emitted : ∀ fuel t commit, drive_round c T fuel node transport proposal started_at_ms = some (t, .ok commit) →
    ∃ x ∈ drive_calls c T fuel node transport proposal started_at_ms, commit ∈ (returned x.out.2).commits

/-- The first call commits; or the bound on deliveries can be passed, and the clock has room
for as many timeouts as members may be faulty. -/
def Budgeted (c : Crypto) (n : ConsensusNode) (started_at_ms : Int) : Prop :=
  (n.committee.max_faulty = 0 ∧ Opens c n.local_agent_id n.committee n.previous_commit_hash) ∨
    (max_inbound n < u64Max ∧ (n.committee.max_faulty = 0 ∨
      started_at_ms + n.committee.max_faulty * n.config.round_timeout_ms ≤ i64Max))

section Rounds
variable {c : Crypto} {a : AgentId} {key : SigningKey} {k : ConsensusCommittee} {g : ConsensusConfig} {previous : String}
  {st : Int} {n : ConsensusNode}

theorem max_inbound_le (n : ConsensusNode) : max_inbound n ≤ u64Max := Nat.min_le_right _ _

/-- A bound below the largest number is greater than the number of rounds. -/
theorem max_faulty_lt_of_max_inbound (h : max_inbound n < u64Max) : n.committee.max_faulty < u64Max := by
  by_contra hge
  have hge := not_lt.1 hge
  have hlen := List.length_pos_of_mem n.is_member
  have hmul : ∀ x, x = u64Max → ∀ y, 0 < y → satMul x y = u64Max := by
    rintro x rfl y hy
    exact Nat.min_eq_right (Nat.le_mul_of_pos_right _ hy)
  have hadd : satAdd n.committee.max_faulty 1 = u64Max := Nat.min_eq_right (by omega)
  have hall : max_inbound n = u64Max := by
    unfold max_inbound
    rw [hmul _ (hmul _ hadd 3 (by decide)) _ hlen]
    exact Nat.min_eq_right (Nat.le_add_right _ _)
  omega

theorem drive_round_returns (h : Created a key k g previous st n) (hstart : i64Min ≤ st)
    (hwidth : g.round_timeout_ms ≤ i64Max) (hbudget : Budgeted c n st) {T : ConsensusTransport} (transport : T.State)
    (proposal : ConsensusProposal) : ∃ fuel, (drive_round c T fuel n transport proposal st).isSome = true := by
  unfold drive_round
  cases haccept : T.accept_committee transport n.committee with
  | mk t res =>
    cases res with
    | error x => exact ⟨0, rfl⟩
    | ok u =>
      dsimp only
      cases hturn : settle c T ⟨n, t, st, [], 0⟩ (n.queue_proposal c proposal st) with
      | done t' res => exact ⟨0, rfl⟩
      | go d =>
        dsimp only
        obtain ⟨progress, hok, hnone, rfl⟩ := settle_go_iff.1 hturn
        have hout : Uncommitted (n.queue_proposal c proposal st) := ⟨progress, hok, hnone⟩
        have hquiet := queue_proposal_quiet hout
        unfold Budgeted at hbudget
        rw [h.committee, h.config, h.id, h.previous] at hbudget
        rcases hbudget with hfirst | ⟨hbound, hroom⟩
        · exact absurd hfirst ((queue_proposal_uncommitted_iff h proposal st).1 hout)
        by_cases hzero : k.max_faulty = 0
        · exact drive_loop_returns (I := fun m (d : Drive T) => m = max_inbound n - d.handled_inbound ∧
              d.node.committee = k ∧ d.handled_inbound ≤ max_inbound n)
            (fun m d hd => (pass_faultless hbound hzero hd.2.1 hd.2.2).imp_right fun ⟨d', hgo, hlt, hk, hle⟩ =>
              ⟨_, d', hgo, hd.1 ▸ hlt, rfl, hk, hle⟩)
            (max_inbound n) ⟨rfl, hquiet.kin.committee.trans h.committee, Nat.zero_le _⟩
        · have hthr : 1 < k.threshold := by
            have := k.threshold_eq
            omega
          have hfaulty : k.max_faulty < u64Max := by
            rw [← h.committee]
            exact max_faulty_lt_of_max_inbound hbound
          exact drive_loop_returns (I := fun m (d : Drive T) => ∃ j,
              m = max_inbound n - d.handled_inbound + (k.max_faulty - j) ∧ OnTime k g st (max_inbound n) j d)
            (fun m d ⟨j, hm, hd⟩ => (OnTime.pass hbound hthr hfaulty hstart hwidth (hroom.resolve_left hzero) hd).imp_right
              fun ⟨j', d', hgo, hlt, hd'⟩ => ⟨_, d', hgo, hm ▸ hlt, j', rfl, hd'⟩)
            (max_inbound n + k.max_faulty) ⟨0, rfl, Nat.zero_le _, by simp, h.paced.quiet hquiet⟩

/-- A drive whose first call does not commit goes into its loop. -/
theorem drive_round_repeating {inbound : List ConsensusSignedEnvelope} {proposal : ConsensusProposal}
    (hout : Uncommitted (n.queue_proposal c proposal st)) :
    ∃ outbound, ∀ fuel, drive_round c (repeating inbound) fuel n () proposal st =
      drive_loop c (repeating inbound) (max_inbound n) fuel ⟨(n.queue_proposal c proposal st).1, (), st, outbound, 0⟩ := by
  obtain ⟨outbound, hsettle⟩ := settle_go (c := c) (T := repeating inbound) (d := ⟨n, (), st, [], 0⟩) hout
  refine ⟨outbound, fun fuel => ?_⟩
  have haccept : (repeating inbound).accept_committee () n.committee = ((), .ok ()) := rfl
  simp only [drive_round, haccept, hsettle]

/-- In silence, a clock without room for every timeout keeps the drive from returning. -/
theorem drive_round_silent (h : Created a key k g previous st n) (hstart : i64Min ≤ st) (hend : st ≤ i64Max)
    (hwidth : g.round_timeout_ms ≤ i64Max) (hfaulty : k.max_faulty ≠ 0)
    (hroom : i64Max < st + k.max_faulty * g.round_timeout_ms) (proposal : ConsensusProposal) (fuel : Nat) :
    drive_round c (repeating []) fuel n () proposal st = none := by
  have hout := (queue_proposal_uncommitted_iff (c := c) h proposal st).2 fun hfirst => hfaulty hfirst.1
  have hquiet := queue_proposal_quiet hout
  have hthr : 1 < k.threshold := by
    have := k.threshold_eq
    omega
  obtain ⟨outbound, hloop⟩ := @drive_round_repeating c st n [] proposal hout
  refine (hloop fuel).trans (drive_loop_stuck (I := Stalling key k g st)
    (fun d hd => hd.pass hthr hstart hwidth hroom) fuel ?_)
  refine ⟨hquiet.kin.key.trans h.key, hquiet.kin.committee.trans h.committee, hquiet.kin.config.trans h.config, ?_,
    .inl ⟨?_, ?_, ?_, hend⟩⟩
  · rw [hquiet.round, h.round]
    exact Nat.pos_of_ne_zero hfaulty
  · exact hquiet.blank h.paced.blank
  · exact hquiet.clock.trans h.clock
  · rw [hquiet.round, h.round]
    simp

/-- Under a bound that cannot be passed, a message repeated keeps the drive from returning. -/
theorem drive_round_repeated (h : Created a key k g previous st n) (hbound : max_inbound n = u64Max)
    {proposal : ConsensusProposal} (hout : Uncommitted (n.queue_proposal c proposal st)) (fuel : Nat) :
    drive_round c (repeating [stale k g a]) fuel n () proposal st = none := by
  have hquiet := queue_proposal_quiet hout
  have hmember : a ∈ k.members := by
    rw [← h.id, ← h.committee]
    exact n.is_member
  obtain ⟨outbound, hloop⟩ := @drive_round_repeating c st n [stale k g a] proposal hout
  refine (hloop fuel).trans (repeated_stuck hbound hmember fuel (hquiet.kin.key.trans h.key)
    (hquiet.kin.committee.trans h.committee) (hquiet.kin.config.trans h.config) ?_)
  rw [hquiet.height, h.height]
  exact Nat.one_pos

/-- Without the budget some transport keeps the drive from returning. -/
theorem drive_round_stuck (h : Created a key k g previous st n) (hstart : i64Min ≤ st) (hend : st ≤ i64Max)
    (hwidth : g.round_timeout_ms ≤ i64Max) (hbudget : ¬ Budgeted c n st) (proposal : ConsensusProposal) :
    ∃ inbound, ∀ fuel, drive_round c (repeating inbound) fuel n () proposal st = none := by
  unfold Budgeted at hbudget
  rw [h.committee, h.config, h.id, h.previous] at hbudget
  obtain ⟨hfirst, hrest⟩ := not_or.1 hbudget
  by_cases hbound : max_inbound n < u64Max
  · obtain ⟨hfaulty, hroom⟩ := not_or.1 fun hroom => hrest ⟨hbound, hroom⟩
    exact ⟨[], drive_round_silent h hstart hend hwidth hfaulty (not_le.1 hroom) proposal⟩
  · have hall : max_inbound n = u64Max := le_antisymm (max_inbound_le n) (not_lt.1 hbound)
    exact ⟨[stale k g a], drive_round_repeated h hall ((queue_proposal_uncommitted_iff h proposal st).2 hfirst)⟩

/-- A node driven from the clock it was created at is bounded over every transport and with
every proposal exactly when it is budgeted. -/
theorem drive_round_bounded_iff (hnode : new_with_signing_key a key k g previous st = .ok n) (hstart : i64Min ≤ st)
    (hend : st ≤ i64Max) (hwidth : g.round_timeout_ms ≤ i64Max) :
    (∀ (T : ConsensusTransport) (transport : T.State) (proposal : ConsensusProposal), Bounded c T n transport proposal st) ↔
      Budgeted c n st := by
  have h := created_of_new hnode
  constructor
  · intro hall
    by_contra hbudget
    obtain ⟨inbound, hstuck⟩ := drive_round_stuck h hstart hend hwidth hbudget ⟨"", .null⟩
    obtain ⟨fuel, hfuel⟩ := (hall (repeating inbound) () ⟨"", .null⟩).returns
    rw [hstuck fuel] at hfuel
    cases hfuel
  · intro hbudget T transport proposal
    refine ⟨drive_round_returns h hstart hwidth hbudget transport proposal, fun fuel => ?_, fun fuel => ?_⟩
    · exact (drive_accounted fuel n transport proposal st).1
    · exact (drive_accounted fuel n transport proposal st).2

theorem drive_round_bounded_four : Budgeted .plain (seated "a" first_seat) 0 ∧
    ∀ (T : ConsensusTransport) (transport : T.State) (proposal : ConsensusProposal),
      Bounded .plain T (seated "a" first_seat) transport proposal 0 := by
  have hbudget : Budgeted .plain (seated "a" first_seat) 0 := .inr ⟨by decide +kernel, .inr (by decide +kernel)⟩
  exact ⟨hbudget, (drive_round_bounded_iff (new_seated first_seat) (by decide) (by decide) (by decide +kernel)).2 hbudget⟩

/-- At the end of the clock no tick reaches the timeout, and a silent transport is polled
forever. -/
theorem drive_round_unbounded : ∃ n, new_with_signing_key (seat "a") "a" four {} "genesis" i64Max = .ok n ∧
    ∀ proposal, (∀ fuel, drive_round .plain (repeating []) fuel n () proposal i64Max = none) ∧
      ¬ Bounded .plain (repeating []) n () proposal i64Max := by
  have hok : (new_with_signing_key (seat "a") "a" four {} "genesis" i64Max).isOk = true := by decide +kernel
  cases hnode : new_with_signing_key (seat "a") "a" four {} "genesis" i64Max with
  | error x => rw [hnode] at hok; cases hok
  | ok n =>
    refine ⟨n, rfl, fun proposal => ?_⟩
    have hstuck : ∀ fuel, drive_round .plain (repeating []) fuel n () proposal i64Max = none :=
      drive_round_silent (created_of_new hnode) (by decide) (by decide) (by decide +kernel) (by decide)
        (by decide +kernel) proposal
    refine ⟨hstuck, fun hbounded => ?_⟩
    obtain ⟨fuel, hfuel⟩ := hbounded.returns
    rw [hstuck fuel] at hfuel
    cases hfuel

end Rounds
end Ambush.Consensus

import Ambush.Consensus.Heads
import Ambush.Consensus.Quiet
/-!
# The calls of a driven round

What `drive_round` does to its node is the list `drive_calls`. Every tick in it is made
before the last round of the budget and goes no further than that round, and a commit the
drive returns was emitted by one of the calls, with both tallies at the threshold.
-/
open Lib

namespace Ambush.Consensus

open ConsensusNode

/-! ## The calls of a drive -/

/-- A call of the node, with the node before it and what it returned. -/
structure NodeCall where
  before : ConsensusNode
  input : Input
  out : Outcome

section Calls
variable (c : Crypto) (T : ConsensusTransport)

/-- The calls `receive` makes. -/
def receive_calls (bound : Nat) (d : Drive T) : List ConsensusSignedEnvelope → List NodeCall
  | [] => []
  | e :: es =>
    let d := { d with handled_inbound := satAdd d.handled_inbound 1 }
    if bound < d.handled_inbound then []
    else
      let out := d.node.handle_signed_envelope c e d.now_ms
      ⟨d.node, .deliver e d.now_ms, out⟩ ::
        match settle c T d out with
        | .done _ _ => []
        | .go d => receive_calls bound d es

/-- The calls `pass` makes. -/
def pass_calls (bound : Nat) (d : Drive T) : List NodeCall :=
  match publish_all c T d.node d.transport d.outbound with
  | (_, .error _) => []
  | (t, .ok ()) =>
    match T.drain t with
    | (_, .error _) => []
    | (t, .ok inbound) =>
      receive_calls c T bound { d with transport := t, outbound := [] } inbound ++
        match receive c T bound { d with transport := t, outbound := [] } inbound with
        | .done _ _ => []
        | .go d =>
          if !inbound.isEmpty then []
          else if d.node.committee.max_faulty ≤ d.node.round then []
          else
            let now_ms := satAddI d.now_ms d.node.config.round_timeout_ms
            ((d.node.tick c now_ms).map fun out => (⟨d.node, .tick now_ms, out⟩ : NodeCall)).toList

def loop_calls (bound : Nat) : Nat → Drive T → List NodeCall
  | 0, _ => []
  | fuel + 1, d =>
    pass_calls c T bound d ++
      match pass c T bound d with
      | some (.go d) => loop_calls bound fuel d
      | _ => []

/-- The calls of the node that `drive_round` makes in its first `fuel` passes, in order. -/
def drive_calls (fuel : Nat) (node : ConsensusNode) (transport : T.State) (proposal : ConsensusProposal)
    (started_at_ms : Int) : List NodeCall :=
  match T.accept_committee transport node.committee with
  | (_, .error _) => []
  | (t, .ok ()) =>
    let out := node.queue_proposal c proposal started_at_ms
    ⟨node, .queue proposal started_at_ms, out⟩ ::
      match settle c T ⟨node, t, started_at_ms, [], 0⟩ out with
      | .done _ _ => []
      | .go d => loop_calls c T (max_inbound node) fuel d

end Calls

/-- The call is one the node answers so, keeps its committee, ticks it only before the last
round and into no later one, and commits only with both tallies at the threshold. -/
structure NodeCall.Sound (c : Crypto) (k : ConsensusCommittee) (x : NodeCall) : Prop where
  answered : x.before.call c x.input = some x.out
  committee : x.before.committee = k
  ticks : ∀ t, x.input = .tick t → x.before.round < k.max_faulty ∧ x.out.1.round ≤ k.max_faulty
  commits : ∀ cm ∈ (returned x.out.2).commits, k.threshold ≤ cm.prevote_tally ∧ k.threshold ≤ cm.precommit_tally

/-! ## Commits are quorate -/

section Quorate
variable {c : Crypto} {n : ConsensusNode} {out : Outcome}

def Quorate (n : ConsensusNode) (out : Outcome) : Prop :=
  ∀ cm ∈ (returned out.2).commits, n.committee.threshold ≤ cm.prevote_tally ∧ n.committee.threshold ≤ cm.precommit_tally

theorem quorate_silent {n' : ConsensusNode} {res : Except ConsensusError ConsensusProgress} (h : silent res) :
    Quorate n (n', res) := by
  intro cm hcm
  rw [h.2] at hcm
  cases hcm

theorem Acts.quorate {r : Nat} {mp : Prop} (h : Acts c n out r mp) : Quorate n out := by
  obtain ⟨es, n₁, hrun, -, -, ⟨-, hnone⟩ | ⟨p, cm, hdo, -, honly⟩⟩ := h
  · intro cm hcm
    rw [hnone] at hcm
    cases hcm
  · intro cm' hcm'
    rw [honly cm' hcm', ← (run_kin hrun).committee]
    generalize out.1 = n' at hdo
    cases hdo with
    | commit t hr hp hv hc => exact ⟨hv, hc⟩

theorem Called.quorate {input : Input} (h : Called c n input out) : Quorate n out := by
  cases h with
  | queue hpend _ hact =>
    intro cm hcm
    rw [← hpend.kin.committee]
    exact hact.quorate cm hcm
  | wait => exact quorate_silent silent_empty
  | timeout _ hreach =>
    rcases hreach with ⟨-, rfl⟩ | ⟨-, n₁, hdo, hact⟩
    · exact quorate_silent silent_empty
    · intro cm hcm
      rw [← hdo.kin.committee]
      exact hact.quorate cm hcm
  | deliver hdel =>
    cases hdel with
    | ignored hres => exact quorate_silent hres
    | excluded hres => exact quorate_silent hres
    | unread hsee hres => exact quorate_silent hres
    | @read n₃ adv _ hsee _ hreach htake hact =>
      intro cm hcm
      have hkin : Kin n n₃ := by
        refine (hsee.kin.trans hreach.kin).trans ?_
        rcases htake with rfl | ⟨e, -, hdo⟩
        · exact .refl _
        · exact hdo.kin
      rw [← hkin.committee]
      exact hact.quorate cm hcm

end Quorate

/-! ## What the parts of the drive do -/

section Drive
variable {c : Crypto} {T : ConsensusTransport} {bound : Nat} {k : ConsensusCommittee}

/-- The drive goes on exactly when the call brought no commit. -/
theorem settle_go_iff {d d' : Drive T} {out : Outcome} : settle c T d out = .go d' ↔
    ∃ progress, out.2 = .ok progress ∧ progress.commits = [] ∧
      d' = { d with node := out.1, outbound := d.outbound ++ progress.outbound } := by
  obtain ⟨n, res⟩ := out
  cases res with
  | error x => simp [settle]
  | ok progress =>
    simp only [settle]
    cases hcommits : progress.commits with
    | nil =>
      simp only [Turn.go.injEq, Except.ok.injEq]
      constructor
      · rintro rfl
        exact ⟨progress, rfl, hcommits, rfl⟩
      · rintro ⟨q, rfl, -, rfl⟩
        rfl
    | cons commit commits =>
      simp only [Except.ok.injEq]
      refine iff_of_false ?_ ?_
      · split <;> simp
      · rintro ⟨q, rfl, hnone, -⟩
        rw [hcommits] at hnone
        cases hnone

theorem settle_go {d : Drive T} {out : Outcome} (h : Uncommitted out) :
    ∃ outbound, settle c T d out = .go { d with node := out.1, outbound } := by
  obtain ⟨progress, hok, hnone⟩ := h
  exact ⟨_, settle_go_iff.2 ⟨progress, hok, hnone, rfl⟩⟩

/-- A commit the drive returns at a call is one of the call's. -/
theorem settle_done {d : Drive T} {out : Outcome} {t : T.State} {commit : ConsensusCommit}
    (h : settle c T d out = .done t (.ok commit)) : commit ∈ (returned out.2).commits := by
  obtain ⟨n, res⟩ := out
  cases res with
  | error x =>
    simp only [settle] at h
    cases h
  | ok progress =>
    simp only [settle] at h
    cases hcommits : progress.commits with
    | nil =>
      rw [hcommits] at h
      cases h
    | cons cm commits =>
      rw [hcommits] at h
      dsimp only at h
      split at h
      · cases h
      · cases h
        simp [returned, hcommits]

/-- The ways through a pass that goes on: envelopes were handled, or the node ticked. -/
theorem pass_cases (d : Drive T) : (∃ t res, pass c T bound d = some (.done t res)) ∨
    (∃ t inbound d', inbound ≠ [] ∧ receive c T bound { d with transport := t, outbound := [] } inbound = .go d' ∧
      pass c T bound d = some (.go d')) ∨
    ∃ t, d.node.round < d.node.committee.max_faulty ∧
      pass c T bound d = (d.node.tick c (satAddI d.now_ms d.node.config.round_timeout_ms)).map
        (settle c T { d with
          transport := t, outbound := [], now_ms := satAddI d.now_ms d.node.config.round_timeout_ms }) := by
  unfold pass
  split
  · exact .inl ⟨_, _, rfl⟩
  split
  · exact .inl ⟨_, _, rfl⟩
  rename_i t₁ _ t inbound _
  cases inbound with
  | nil =>
    simp only [receive, List.isEmpty_nil, Bool.not_true, Bool.false_eq_true, if_false]
    split
    · exact .inl ⟨_, _, rfl⟩
    · rename_i hround
      exact .inr (.inr ⟨t, not_le.1 hround, rfl⟩)
  | cons e es =>
    cases hreceive : receive c T bound { d with transport := t, outbound := [] } (e :: es) with
    | done t' res => exact .inl ⟨_, _, rfl⟩
    | go d' => exact .inr (.inl ⟨t, e :: es, d', by simp, hreceive, rfl⟩)

/-- What a node keeps over every envelope that brings no commit, the drive keeps over a
drain; the envelopes are counted, and are within the bound. -/
theorem receive_go {P : ConsensusNode → Prop} {now_ms : Int}
    (keep : ∀ n e, P n → Uncommitted (n.handle_signed_envelope c e now_ms) → P (n.handle_signed_envelope c e now_ms).1)
    {inbound : List ConsensusSignedEnvelope} {d d' : Drive T} (hnow : d.now_ms = now_ms) (hd : P d.node)
    (h : receive c T bound d inbound = .go d') :
    P d'.node ∧ d'.now_ms = now_ms ∧ (bound < u64Max → d.handled_inbound ≤ bound →
      d'.handled_inbound = d.handled_inbound + inbound.length ∧ d'.handled_inbound ≤ bound) := by
  induction inbound generalizing d with
  | nil =>
    cases h
    exact ⟨hd, hnow, fun _ hle => ⟨rfl, hle⟩⟩
  | cons e es ih =>
    simp only [receive] at h
    split at h
    · cases h
    rename_i hcap
    split at h
    · cases h
    · rename_i d₁ hsettle
      obtain ⟨progress, hok, hnone, rfl⟩ := settle_go_iff.1 hsettle
      simp only [hnow] at hok h
      obtain ⟨hP, hnow', hcount⟩ := ih rfl (keep d.node e hd ⟨progress, hok, hnone⟩) h
      refine ⟨hP, hnow', fun hbound hle => ?_⟩
      have hstep : satAdd d.handled_inbound 1 = d.handled_inbound + 1 :=
        satAdd_one_of_lt (lt_of_le_of_lt hle hbound)
      simp only [hstep] at hcap hcount
      obtain ⟨heq, hle'⟩ := hcount hbound (not_lt.1 hcap)
      exact ⟨by rw [heq, List.length_cons]; omega, hle'⟩

/-! ## Every call of the drive is sound -/

theorem call_kin {n : ConsensusNode} {input : Input} {out : Outcome} (h : n.call c input = some out) : Kin n out.1 :=
  run_kin (@account_run c n (.call input) out h)

theorem deliver_kin (c : Crypto) (n : ConsensusNode) (e : ConsensusSignedEnvelope) (t : Int) :
    Kin n (n.handle_signed_envelope c e t).1 :=
  @call_kin c n (.deliver e t) _ rfl

theorem sound_of_call {n : ConsensusNode} {input : Input} {out : Outcome} (h : n.call c input = some out)
    (hk : n.committee = k) (htick : ∀ t, input = .tick t → n.round < k.max_faulty ∧ out.1.round ≤ k.max_faulty) :
    NodeCall.Sound c k ⟨n, input, out⟩ where
  answered := h
  committee := hk
  ticks := htick
  commits cm hcm := hk ▸ (call_called h).quorate cm hcm

/-- The calls are sound, a commit that is returned comes from one of them, and the node goes
on with its committee. -/
structure Accounted (c : Crypto) (k : ConsensusCommittee) (calls : List NodeCall) (turn : Turn T) : Prop where
  sound : ∀ x ∈ calls, x.Sound c k
  emitted : ∀ t commit, turn = .done t (.ok commit) → ∃ x ∈ calls, commit ∈ (returned x.out.2).commits
  goes : ∀ d, turn = .go d → d.node.committee = k

/-- One call, and what the drive does with its outcome. -/
theorem settle_accounted {d : Drive T} {x : NodeCall} (hx : x.Sound c k) :
    Accounted c k [x] (settle c T d x.out) := by
  refine ⟨by simpa using hx, fun t commit h => ⟨x, by simp, settle_done h⟩, fun d' h => ?_⟩
  obtain ⟨progress, -, -, rfl⟩ := settle_go_iff.1 h
  exact (call_kin hx.answered).committee.trans hx.committee

theorem Accounted.cons {x : NodeCall} {calls : List NodeCall} {turn : Turn T} (hx : x.Sound c k)
    (h : Accounted c k calls turn) : Accounted c k (x :: calls) turn := by
  refine ⟨List.forall_mem_cons.2 ⟨hx, h.sound⟩, fun t commit hdone => ?_, h.goes⟩
  obtain ⟨y, hy, hcommit⟩ := h.emitted t commit hdone
  exact ⟨y, List.mem_cons_of_mem _ hy, hcommit⟩

theorem accounted_error (t : T.State) (x : ConsensusError) : Accounted c k [] (.done t (.error x)) :=
  ⟨by simp, (fun _ _ h => by cases h), (fun _ h => by cases h)⟩

theorem receive_accounted {d : Drive T} (hk : d.node.committee = k) (inbound : List ConsensusSignedEnvelope) :
    Accounted c k (receive_calls c T bound d inbound) (receive c T bound d inbound) := by
  induction inbound generalizing d with
  | nil =>
    refine ⟨by simp [receive_calls], fun _ _ h => ?_, fun d' h => ?_⟩
    · cases h
    · cases h
      exact hk
  | cons e es ih =>
    simp only [receive_calls, receive]
    split
    · exact accounted_error _ _
    · have hx : NodeCall.Sound c k ⟨d.node, .deliver e d.now_ms, d.node.handle_signed_envelope c e d.now_ms⟩ :=
        sound_of_call rfl hk (fun _ h => by cases h)
      have hsettle := settle_accounted (T := T) (d := { d with handled_inbound := satAdd d.handled_inbound 1 }) hx
      dsimp only at hsettle
      cases hturn : settle c T { d with handled_inbound := satAdd d.handled_inbound 1 }
          (d.node.handle_signed_envelope c e d.now_ms) with
      | done t res =>
        rw [hturn] at hsettle
        exact hsettle
      | go d' =>
        rw [hturn] at hsettle
        exact .cons hx (ih (hsettle.goes d' rfl))

/-- A tick before the last round goes no further than the next. -/
theorem tick_sound {n : ConsensusNode} {now_ms : Int} {out : Outcome} (hk : n.committee = k) (hround : n.round < k.max_faulty)
    (h : n.tick c now_ms = some out) : NodeCall.Sound c k ⟨n, .tick now_ms, out⟩ := by
  refine sound_of_call h hk (fun _ _ => ⟨hround, ?_⟩)
  rcases tick_cases h with ⟨-, rfl⟩ | ⟨-, rfl⟩
  · exact Nat.le_of_lt hround
  · exact ((advance_round_reaches c n (n.round + 1) now_ms).round_le (Nat.le_succ _)).trans hround

theorem pass_accounted {d : Drive T} (hk : d.node.committee = k) {turn : Turn T} (h : pass c T bound d = some turn) :
    Accounted c k (pass_calls c T bound d) turn := by
  unfold pass at h
  unfold pass_calls
  cases hpublish : publish_all c T d.node d.transport d.outbound with
  | mk t₁ res =>
    rw [hpublish] at h
    cases res with
    | error x =>
      cases h
      exact accounted_error _ _
    | ok u =>
      dsimp only at h ⊢
      cases hdrain : T.drain t₁ with
      | mk t res =>
        rw [hdrain] at h
        cases res with
        | error x =>
          cases h
          exact accounted_error _ _
        | ok inbound =>
          dsimp only at h ⊢
          have hreceive := @receive_accounted c T bound k { d with transport := t, outbound := [] } hk inbound
          cases hout : receive c T bound { d with transport := t, outbound := [] } inbound with
          | done t' res =>
            rw [hout] at h hreceive
            cases h
            simpa using hreceive
          | go d' =>
            rw [hout] at h hreceive
            dsimp only at h ⊢
            have hk' := hreceive.goes d' rfl
            cases inbound with
            | cons e es =>
              cases h
              simpa using hreceive
            | nil =>
              -- nothing came in: the round budget is spent, or the node ticks
              simp only [List.isEmpty_nil, Bool.not_true, Bool.false_eq_true, if_false, receive_calls, List.nil_append] at h ⊢
              by_cases hround : d'.node.committee.max_faulty ≤ d'.node.round
              · rw [if_pos hround] at h ⊢
                cases h
                exact accounted_error _ _
              · rw [if_neg hround] at h ⊢
                obtain ⟨out, htick, rfl⟩ := Option.map_eq_some_iff.1 h
                rw [htick]
                exact settle_accounted (tick_sound hk' (hk' ▸ not_le.1 hround) htick)

/-- A pass that the abort ends has called nothing. -/
theorem pass_calls_of_none {d : Drive T} (h : pass c T bound d = none) : pass_calls c T bound d = [] := by
  unfold pass at h
  unfold pass_calls
  cases hpublish : publish_all c T d.node d.transport d.outbound with
  | mk t₁ res =>
    rw [hpublish] at h
    cases res with
    | error x => cases h
    | ok u =>
      dsimp only at h ⊢
      cases hdrain : T.drain t₁ with
      | mk t res =>
        rw [hdrain] at h
        cases res with
        | error x => cases h
        | ok inbound =>
          cases inbound with
          | nil =>
            simp only [receive, receive_calls, List.isEmpty_nil, Bool.not_true, Bool.false_eq_true, if_false,
              List.nil_append] at h ⊢
            split at h
            · cases h
            · rename_i hround
              rw [if_neg hround, Option.map_eq_none_iff.1 h]
              rfl
          | cons e es =>
            dsimp only at h
            split at h <;> cases h

/-- The calls of a drive, and where a commit it returns comes from. -/
theorem loop_accounted {fuel : Nat} {d : Drive T} (hk : d.node.committee = k) :
    (∀ x ∈ loop_calls c T bound fuel d, x.Sound c k) ∧ ∀ t commit, drive_loop c T bound fuel d = some (t, .ok commit) →
      ∃ x ∈ loop_calls c T bound fuel d, commit ∈ (returned x.out.2).commits := by
  induction fuel generalizing d with
  | zero =>
    refine ⟨by simp [loop_calls], fun _ _ h => ?_⟩
    cases h
  | succ fuel ih =>
    simp only [loop_calls, drive_loop]
    cases hpass : pass c T bound d with
    | none =>
      refine ⟨by simp [pass_calls_of_none hpass], fun _ _ h => ?_⟩
      cases h
    | some turn =>
      have hturn := pass_accounted hk hpass
      cases turn with
      | done t res =>
        refine ⟨by simpa using hturn.sound, fun t' commit h => ?_⟩
        cases h
        simpa using hturn.emitted t commit rfl
      | go d' =>
        obtain ⟨hsound, hcommit⟩ := ih (hturn.goes d' rfl)
        refine ⟨fun x hx => ?_, fun t commit h => ?_⟩
        · rcases List.mem_append.1 hx with hx | hx
          · exact hturn.sound x hx
          · exact hsound x hx
        · obtain ⟨x, hx, hmem⟩ := hcommit t commit h
          exact ⟨x, List.mem_append_right _ hx, hmem⟩

theorem drive_accounted (fuel : Nat) (node : ConsensusNode) (transport : T.State) (proposal : ConsensusProposal) (st : Int) :
    (∀ x ∈ drive_calls c T fuel node transport proposal st, x.Sound c node.committee) ∧
    ∀ t commit, drive_round c T fuel node transport proposal st = some (t, .ok commit) →
      ∃ x ∈ drive_calls c T fuel node transport proposal st, commit ∈ (returned x.out.2).commits := by
  unfold drive_calls drive_round
  cases haccept : T.accept_committee transport node.committee with
  | mk t res =>
    cases res with
    | error x => exact ⟨by simp, (fun _ _ h => nomatch h)⟩
    | ok u =>
      have hx : NodeCall.Sound c node.committee ⟨node, .queue proposal st, node.queue_proposal c proposal st⟩ :=
        sound_of_call rfl rfl (fun _ h => nomatch h)
      have hsettle := settle_accounted (T := T) (d := ⟨node, t, st, [], 0⟩) hx
      dsimp only at hsettle ⊢
      cases hturn : settle c T ⟨node, t, st, [], 0⟩ (node.queue_proposal c proposal st) with
      | done t' res =>
        rw [hturn] at hsettle
        refine ⟨hsettle.sound, fun t'' commit h => ?_⟩
        cases h
        exact hsettle.emitted t' commit rfl
      | go d =>
        rw [hturn] at hsettle
        obtain ⟨hsound, hcommit⟩ := @loop_accounted c T (max_inbound node) node.committee fuel d (hsettle.goes d rfl)
        refine ⟨List.forall_mem_cons.2 ⟨hx, hsound⟩, fun t' commit h => ?_⟩
        obtain ⟨x, hx, hmem⟩ := hcommit t' commit h
        exact ⟨x, List.mem_cons_of_mem _ hx, hmem⟩

end Drive
end Ambush.Consensus

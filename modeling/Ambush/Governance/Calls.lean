import Ambush.Lib.Chains
import Ambush.Lib.Runs
import Ambush.Consensus.Heads
import Ambush.Governance.Policy
/-!
# What a call of the policy does

Every call has one of a few shapes (`Performed`): it leaves the state alone, changes the
registered keys, observes health and stages leases, issues one receipt, records a refusal,
redeems a lease, or starts over from the file. The theorems about whole runs look at these
shapes and not at the code again.
-/
open Lib Relation

namespace Ambush.Governance

open Consensus Policy

/-! ## Rounds -/

/-- A round that commits: the receipt is built on the head, and its hash is the new head. -/
structure Advances (c : Crypto) (s : GovernanceState) (r : ConsensusGovernanceReceipt) (s' : GovernanceState) : Prop where
  key : s.local_governor.isSome = true
  previous : r.payload.previous_commit_hash = s.previous_commit_hash
  head : TransGen (Extends c) s.previous_commit_hash r.payload.commit_hash
  state : s' = { s with
    previous_commit_hash := r.payload.commit_hash, receipt_counter := satAdd s.receipt_counter 1 }

/-- Receipts, each built on the one before, that lead from one head to another. -/
abbrev Chained (c : Crypto) : String → List ConsensusGovernanceReceipt → String → Prop :=
  Linked (Extends c) (·.payload.previous_commit_hash) (·.payload.commit_hash)

section Rounds
variable {c : Crypto} {T : ConsensusTransport} {fuel : Nat} {s s' : GovernanceState} {t t' : T.State}

theorem Advances.linked {r : ConsensusGovernanceReceipt} (h : Advances c s r s') :
    Chained c s.previous_commit_hash [r] s'.previous_commit_hash := by
  rw [h.state]
  exact .cons h.previous h.head .nil

theorem new_with_signing_key_head {a : AgentId} {key : SigningKey} {k : ConsensusCommittee} {g : ConsensusConfig}
    {h : String} {at_ms : Int} {n : ConsensusNode} (hn : ConsensusNode.new_with_signing_key a key k g h at_ms = .ok n) :
    n.previous_commit_hash = h := by
  unfold ConsensusNode.new_with_signing_key ConsensusNode.new_internal at hn
  split at hn
  · split at hn
    · cases hn; rfl
    · cases hn
  · cases hn

theorem run_governance_round_cases {proposal : ConsensusProposal} {d : GovernanceReceiptDecision} {at_ms : Int}
    {res : Except ConsensusError ConsensusGovernanceReceipt}
    (h : run_governance_round c fuel s t proposal d at_ms = some (s', t', res)) :
    (s' = s ∧ ∃ x, res = .error x) ∨ ∃ r, res = .ok r ∧ Advances c s r s' := by
  unfold run_governance_round at h
  split at h
  · cases h; exact .inl ⟨rfl, _, rfl⟩
  rename_i key hkey
  split at h
  · cases h; exact .inl ⟨rfl, _, rfl⟩
  split at h
  · cases h; exact .inl ⟨rfl, _, rfl⟩
  rename_i node hnode
  split at h
  · cases h
  · cases h; exact .inl ⟨rfl, _, rfl⟩
  · rename_i t₁ commit hdrive
    cases h
    have hext := drive_round_extends hdrive
    rw [new_with_signing_key_head hnode] at hext
    exact .inr ⟨_, rfl, by simp [hkey], rfl, hext, rfl⟩

/-! ## Leases -/

/-- A lease as it is staged at a clock: named by its terms, with nothing redeemed. -/
structure Staged (c : Crypto) (now_ms : Int) (l : ContingencyLease) : Prop where
  named : l.Named c
  issued : l.issued_at_ms = now_ms
  unused : l.redeemed_scopes = []

theorem issue_contingency_lease_cases {kind : String} {scope : Option String} {cap : Nat} {ttl_ms now_ms : Int}
    {lease : Option ContingencyLease}
    (h : issue_contingency_lease c fuel s t kind scope cap ttl_ms now_ms = some (s', t', lease)) :
    (s' = s ∧ lease = none) ∨ ∃ l, lease = some l ∧ Staged c now_ms l ∧ Advances c s l.governance_receipt s' := by
  unfold issue_contingency_lease at h
  split at h
  · cases h; exact .inl ⟨rfl, rfl⟩
  dsimp only at h
  split at h
  · cases h
  · rename_i s₁ t₁ x hround
    cases h
    rcases run_governance_round_cases hround with ⟨rfl, -⟩ | ⟨r, hr, -⟩
    · exact .inl ⟨rfl, rfl⟩
    · cases hr
  · rename_i s₁ t₁ r hround
    cases h
    rcases run_governance_round_cases hround with ⟨-, x, hx⟩ | ⟨r', hr, hadv⟩
    · cases hx
    · cases hr
      exact .inr ⟨_, rfl, ⟨rfl, rfl, rfl⟩, hadv⟩

/-- The leases `new` added to a state, and the head moved on by their receipts. -/
structure Stages (c : Crypto) (now_ms : Int) (s : GovernanceState) (new : List ContingencyLease)
    (s' : GovernanceState) : Prop where
  key : new ≠ [] → s.local_governor.isSome = true
  staged : ∀ l ∈ new, Staged c now_ms l
  linked : Chained c s.previous_commit_hash (new.map (·.governance_receipt)) s'.previous_commit_hash
  state : s' = { s with
    active_contingency_leases := s.active_contingency_leases ++ new
    previous_commit_hash := s'.previous_commit_hash, receipt_counter := s'.receipt_counter }

theorem stages_nothing (c : Crypto) (now_ms : Int) (s : GovernanceState) : Stages c now_ms s [] s :=
  ⟨by simp, by simp, .nil, by simp⟩

theorem ensure_contingency_leases_locked_stages {g : GovernancePolicyConfig} {now_ms : Int} {kinds : List String}
    (h : ensure_contingency_leases_locked c fuel g now_ms kinds s t = some (s', t')) :
    ∃ new, Stages c now_ms s new s' := by
  induction kinds generalizing s t with
  | nil =>
    cases h
    exact ⟨[], stages_nothing c now_ms _⟩
  | cons kind kinds ih =>
    simp only [ensure_contingency_leases_locked] at h
    split at h
    · exact ih h
    split at h
    · cases h
    · rename_i s₁ t₁ hissue
      rcases issue_contingency_lease_cases hissue with ⟨rfl, -⟩ | ⟨l, hl, -⟩
      · exact ih h
      · cases hl
    · rename_i s₁ t₁ lease hissue
      rcases issue_contingency_lease_cases hissue with ⟨-, hl⟩ | ⟨l, hl, hstaged, hadv⟩
      · cases hl
      cases hl
      obtain ⟨new, hnew⟩ := ih h
      -- the first lease, then those of the remaining kinds
      refine ⟨lease :: new, fun _ => hadv.key, ?_, ?_, ?_⟩
      · intro l hl
        rcases List.mem_cons.1 hl with rfl | hl
        · exact hstaged
        · exact hnew.staged l hl
      · exact hadv.linked.append hnew.linked
      · rw [hnew.state, hadv.state]
        simp

end Rounds

/-! ## Observing health -/

/-- What counting and changing the partition state leaves alone. The records stay, or are
all moved into a report. -/
structure Undisturbed (s s' : GovernanceState) : Prop where
  leases : s'.active_contingency_leases = s.active_contingency_leases
  head : s'.previous_commit_hash = s.previous_commit_hash
  key : s'.local_governor = s.local_governor
  display : s'.display_governors = s.display_governors
  activity : s'.partition_activity = s.partition_activity ∨ s'.partition_activity = []

section Observe
variable (s : GovernanceState) (g : AgentId) (es : List AgentHealthEntry) (at_ms : Int)

theorem next_state_undisturbed (base : PartitionState) : Undisturbed s (next_state s base g at_ms).1 := by
  unfold next_state
  split
  · exact ⟨rfl, rfl, rfl, rfl, .inr rfl⟩
  · exact ⟨rfl, rfl, rfl, rfl, .inr rfl⟩
  · exact ⟨rfl, rfl, rfl, rfl, .inl rfl⟩

theorem enter_state_undisturbed (next : PartitionState) (count : HealthCount) :
    Undisturbed s (enter_state s next count g at_ms) := by
  unfold enter_state
  split <;> exact ⟨rfl, rfl, rfl, rfl, .inl rfl⟩

@[simp] theorem enter_state_partition_state (next : PartitionState) (count : HealthCount) :
    (enter_state s next count g at_ms).partition_state = next := by
  unfold enter_state
  split
  · assumption
  · rfl

/-- The state after an observation, before the expired leases are pruned. -/
def transitioned : GovernanceState :=
  let next := next_state (note_health s g es) (base_state (count_health s es) (note_health s g es).unhealthy_agents) g at_ms
  enter_state next.1 next.2 (count_health s es) g at_ms

theorem transitioned_undisturbed : Undisturbed s (transitioned s g es at_ms) := by
  have hnext := next_state_undisturbed (note_health s g es) g at_ms
    (base_state (count_health s es) (note_health s g es).unhealthy_agents)
  have henter := enter_state_undisturbed
    (next_state (note_health s g es) (base_state (count_health s es) (note_health s g es).unhealthy_agents) g at_ms).1
    g at_ms
    (next_state (note_health s g es) (base_state (count_health s es) (note_health s g es).unhealthy_agents) g at_ms).2
    (count_health s es)
  refine ⟨henter.leases.trans hnext.leases, henter.head.trans hnext.head, henter.key.trans hnext.key,
    henter.display.trans hnext.display, ?_⟩
  rcases henter.activity with h | h
  · rcases hnext.activity with h' | h'
    · exact .inl (h.trans h')
    · exact .inr (h.trans h')
  · exact .inr h

@[simp] theorem observe_leases : (observe s g es at_ms).active_contingency_leases =
    s.active_contingency_leases.filter (at_ms < ·.expires_at_ms) := by
  rw [← (transitioned_undisturbed s g es at_ms).leases]
  rfl

@[simp] theorem observe_head : (observe s g es at_ms).previous_commit_hash = s.previous_commit_hash :=
  (transitioned_undisturbed s g es at_ms).head

@[simp] theorem observe_local : (observe s g es at_ms).local_governor = s.local_governor :=
  (transitioned_undisturbed s g es at_ms).key

@[simp] theorem observe_display : (observe s g es at_ms).display_governors = s.display_governors :=
  (transitioned_undisturbed s g es at_ms).display

theorem observe_activity : (observe s g es at_ms).partition_activity = s.partition_activity ∨
    (observe s g es at_ms).partition_activity = [] :=
  (transitioned_undisturbed s g es at_ms).activity

/-- The state is partitioned afterwards exactly when the quorum is lost. -/
theorem observe_partitioned_iff : (observe s g es at_ms).partition_state = .Partitioned ↔
    (count_health s es).healthy_governors < (count_health s es).quorum_threshold := by
  have hbase : ∀ us, base_state (count_health s es) us = .Partitioned ↔
      (count_health s es).healthy_governors < (count_health s es).quorum_threshold := by
    intro us
    unfold base_state
    split
    · rename_i hlt
      simp [hlt]
    · rename_i hge
      split <;> exact iff_of_false (by simp) hge
  have hnext : ∀ s₁ base, (next_state s₁ base g at_ms).2 = .Partitioned ↔ base = .Partitioned := by
    intro s₁ base
    unfold next_state
    split <;> simp_all
  have hstate : (observe s g es at_ms).partition_state = (next_state (note_health s g es)
      (base_state (count_health s es) (note_health s g es).unhealthy_agents) g at_ms).2 :=
    enter_state_partition_state _ _ _ _ _
  rw [hstate, hnext, hbase]

end Observe

/-! ## The shapes of a call -/

section Shapes
variable {T : ConsensusTransport}

def GovernanceDecision.receipt : GovernanceDecision → Option ConsensusGovernanceReceipt
  | .Allow receipt _ => receipt
  | .Veto _ _ receipt => receipt

/-- The receipts a call issues, in order. In a partition `can_act` only shows the receipt
of a lease it has; the receipts of an observation are those of the leases it stages. -/
def issued (p : GovernancePolicy T) (op : Op T) (reply : Reply) (p' : GovernancePolicy T) :
    List ConsensusGovernanceReceipt :=
  match op, reply with
  | .can_act .., .decided d => if p.state.partition_state = .Partitioned then [] else d.receipt.toList
  | .attest_release .., .attested receipt => receipt.toList
  | .observe_health _ _ at_ms, _ =>
    let kept := p.state.active_contingency_leases.filter (at_ms < ·.expires_at_ms)
    (p'.state.active_contingency_leases.drop kept.length).map (·.governance_receipt)
  | _, _ => []

/-- The call was answered with authority for a destructive action. -/
def Grants (op : Op T) (reply : Reply) : Prop :=
  match op, reply with
  | .can_act action _ _, .decided (.Allow _ _) => is_destructive_action action = true
  | .authorize_partition_request _ _, .authorized (.ok (some _)) => True
  | _, _ => False

/-- What a call does to the leases: it leaves them, renews the list, or redeems a scope. -/
inductive LeaseEffect where
  | keep
  | renew (at_ms : Int)
  | redeem (lease_id key : String)
  deriving DecidableEq

def effect (op : Op T) (reply : Reply) : LeaseEffect :=
  match op, reply with
  | .observe_health _ _ at_ms, _ => .renew at_ms
  | .authorize_partition_request request _, .authorized (.ok (some lease)) =>
    .redeem lease.lease_id (action_scope_key request.action)
  | _, _ => .keep

/-- The call presents a request: it asks for authority, or notes a veto. -/
def Op.Presents (op : Op T) (request : ActionRequest) (now_ms : Int) : Prop :=
  op = .authorize_partition_request request now_ms ∨ ∃ reason, op = .note_partition_veto request reason now_ms

/-- Only the registered keys and names differ. -/
def KeysOnly (s s' : GovernanceState) : Prop :=
  s' = { s with
    governing_agent_id := s'.governing_agent_id, display_governors := s'.display_governors
    local_governor := s'.local_governor, peer_governors := s'.peer_governors }

inductive Performed (c : Crypto) (decode : Value → Except String ContingencyLease) (p : GovernancePolicy T) (saves : Bool) :
    Op T → GovernancePolicy T → Reply → Prop
  | idle {op reply} (t : T.State) (heffect : effect op reply = .keep)
      (hissued : issued p op reply { p with transport := t } = [])
      (hgrants : Grants op reply → p.state.local_governor.isSome = true) :
      Performed c decode p saves op { p with transport := t } reply
  | keys {op reply s'} (hkeys : KeysOnly p.state s')
      (hown : (∃ g key, op = .register_governor g key) ∨
        (∃ peer, op = .register_peer_governor peer) ∧ s'.local_governor = p.state.local_governor ∧
          s'.display_governors = p.state.display_governors) :
      Performed c decode p saves op (p.persist_locked saves s') reply
  | observed {g es at_ms new s'} (t : T.State) (hstages : Stages c at_ms (observe p.state g es at_ms) new s') :
      Performed c decode p saves (.observe_health g es at_ms) ({ p with transport := t }.persist_locked saves s') .done
  | issued {op reply r s'} (t : T.State) (heffect : effect op reply = .keep) (hadv : Advances c p.state r s')
      (hissued : issued p op reply { p with state := s', transport := t } = [r]) :
      Performed c decode p saves op { p with state := s', transport := t } reply
  | refused {op reply request reason lease_id now_ms} (hop : op.Presents request now_ms)
      (hpart : p.state.partition_state = .Partitioned) (hgrants : ¬ Grants op reply) :
      Performed c decode p saves op
        (p.persist_locked saves (record_partition_activity_locked p.state request false reason lease_id now_ms)) reply
  | redeemed {request now_ms index lease lease'} (hdestructive : is_destructive_action request.action = true)
      (hpart : p.state.partition_state = .Partitioned)
      (hlease : GovernancePolicy.presented_lease c decode p.state request.evidence = .ok (index, lease))
      (hredeem : lease.redeem request.action now_ms = .ok lease') :
      Performed c decode p saves (.authorize_partition_request request now_ms)
        (p.persist_locked saves (record_partition_activity_locked
          { p.state with active_contingency_leases := p.state.active_contingency_leases.set index lease' }
          request true "authorized by contingency lease" (some lease'.lease_id) now_ms))
        (.authorized (.ok (some lease')))
  | reloaded {config file} (t : T.State) (hfile : p.persistence = some file) :
      Performed c decode p saves (.reload config t) (.with_persistence config file t) .done

/-! ## Every call has a shape -/

variable {c : Crypto} {fuel : Nat} {decode : Value → Except String ContingencyLease} {p p' : GovernancePolicy T}
  {saves : Bool} {reply : Reply}

theorem register_governor_performed (g : AgentId) (key : SigningKey) :
    Performed c decode p saves (.register_governor g key) (p.register_governor c saves g key).1
      (.registered (p.register_governor c saves g key).2) := by
  unfold GovernancePolicy.register_governor
  dsimp only
  split
  · split
    · exact .idle p.transport rfl rfl (fun h => h.elim)
    · exact .keys rfl (.inl ⟨g, key, rfl⟩)
  · exact .keys rfl (.inl ⟨g, key, rfl⟩)

theorem register_peer_governor_performed (peer : VerifyingKey) :
    Performed c decode p saves (.register_peer_governor peer) (p.register_peer_governor saves peer) .done := by
  unfold GovernancePolicy.register_peer_governor
  dsimp only
  split
  · exact .idle p.transport rfl rfl (fun h => h.elim)
  · exact .keys rfl (.inr ⟨⟨peer, rfl⟩, rfl, rfl⟩)

theorem observe_health_performed {g : AgentId} {es : List AgentHealthEntry} {at_ms : Int}
    (h : p.observe_health c fuel saves g es at_ms = some p') :
    Performed c decode p saves (.observe_health g es at_ms) p' .done := by
  unfold GovernancePolicy.observe_health at h
  dsimp only at h
  split at h
  · split at h
    · cases h
    · rename_i s' t' hensure
      cases h
      obtain ⟨new, hnew⟩ := ensure_contingency_leases_locked_stages hensure
      exact .observed t' hnew
  · cases h
    exact .observed p.transport (stages_nothing c at_ms _)

theorem can_act_performed {action : ResponseAction} {now_ms issued_at_ms : Int} {d : GovernanceDecision}
    (h : p.can_act c fuel action now_ms issued_at_ms = some (p', d)) :
    Performed c decode p saves (.can_act action now_ms issued_at_ms) p' (.decided d) := by
  unfold GovernancePolicy.can_act issue_governance_receipt at h
  dsimp only at h
  split at h
  · rename_i hharmless
    cases h
    refine .idle p.transport rfl ?_ ?_
    · simp [issued, GovernanceDecision.receipt]
    · intro hgrants
      simp_all [Grants]
  split at h
  · cases h
    refine .idle p.transport rfl ?_ (fun h => h.elim)
    simp [issued, GovernanceDecision.receipt]
  rename_i hkey
  have hlocal : p.state.local_governor.isSome = true := by
    simpa [Option.isNone_iff_eq_none, Option.isSome_iff_ne_none] using hkey
  split at h
  · rename_i hpart
    split at h
    · cases h
      exact .idle p.transport rfl (by simp [issued, hpart]) (fun _ => hlocal)
    · cases h
      exact .idle p.transport rfl (by simp [issued, hpart]) (fun h => h.elim)
  rename_i hpart
  -- only here is a round driven: a receipt is issued exactly when it commits
  split at h
  · cases h
  · rename_i s' t' x hround
    cases h
    rcases run_governance_round_cases hround with ⟨rfl, -⟩ | ⟨r, hr, -⟩
    · exact .idle t' rfl (by simp [issued, GovernanceDecision.receipt]) (fun h => h.elim)
    · cases hr
  · rename_i s' t' r hround
    cases h
    rcases run_governance_round_cases hround with ⟨-, x, hx⟩ | ⟨r', hr, hadv⟩
    · cases hx
    · cases hr
      refine .issued t' rfl hadv ?_
      simp only [issued, hpart, if_false]
      split <;> rfl

theorem attest_release_performed {subject : Value} {now_ms : Int} {receipt : Option ConsensusGovernanceReceipt}
    (h : p.attest_release c fuel subject now_ms = some (p', receipt)) :
    Performed c decode p saves (.attest_release subject now_ms) p' (.attested receipt) := by
  unfold GovernancePolicy.attest_release at h
  split at h
  · cases h
    exact .idle p.transport rfl rfl (fun h => h.elim)
  split at h
  · cases h
  · rename_i s' t' x hround
    cases h
    rcases run_governance_round_cases hround with ⟨rfl, -⟩ | ⟨r, hr, -⟩
    · exact .idle t' rfl rfl (fun h => h.elim)
    · cases hr
  · rename_i s' t' r hround
    cases h
    rcases run_governance_round_cases hround with ⟨-, x, hx⟩ | ⟨r', hr, hadv⟩
    · cases hx
    · cases hr
      exact .issued t' rfl hadv rfl

theorem authorize_partition_request_performed (request : ActionRequest) (now_ms : Int) :
    Performed c decode p saves (.authorize_partition_request request now_ms)
      (p.authorize_partition_request c decode saves request now_ms).1
      (.authorized (p.authorize_partition_request c decode saves request now_ms).2) := by
  unfold GovernancePolicy.authorize_partition_request
  split
  · exact .idle p.transport rfl rfl (fun h => h.elim)
  rename_i hdestructive
  split
  · exact .idle p.transport rfl rfl (fun h => h.elim)
  rename_i hpart
  have hpart := Decidable.not_not.1 hpart
  split
  · exact .refused (.inl rfl) hpart (fun h => h.elim)
  · rename_i index lease hlease
    split
    · exact .refused (.inl rfl) hpart (fun h => h.elim)
    · rename_i lease' hredeem
      exact .redeemed (by simpa using hdestructive) hpart hlease hredeem

theorem note_partition_veto_performed (request : ActionRequest) (reason : String) (now_ms : Int) :
    Performed c decode p saves (.note_partition_veto request reason now_ms)
      (p.note_partition_veto saves request reason now_ms) .done := by
  unfold GovernancePolicy.note_partition_veto
  split
  · exact .idle p.transport rfl rfl (fun h => h.elim)
  · rename_i hpart
    exact .refused (.inr ⟨reason, rfl⟩) (Decidable.not_not.1 hpart) (fun h => h.elim)

/-- A call that returns has one of the shapes. -/
theorem perform_performed {op : Op T} (h : perform c fuel decode p saves op = some (p', reply)) :
    Performed c decode p saves op p' reply := by
  cases op with
  | register_governor g key =>
    cases h
    exact register_governor_performed g key
  | register_peer_governor peer =>
    cases h
    exact register_peer_governor_performed peer
  | observe_health g es at_ms =>
    obtain ⟨q, hq, hout⟩ := Option.map_eq_some_iff.1 h
    cases hout
    exact observe_health_performed hq
  | can_act action now_ms issued_at_ms =>
    obtain ⟨⟨q, d⟩, hq, hout⟩ := Option.map_eq_some_iff.1 h
    cases hout
    exact can_act_performed hq
  | authorize_partition_request request now_ms =>
    cases h
    exact authorize_partition_request_performed request now_ms
  | attest_release subject now_ms =>
    obtain ⟨⟨q, r⟩, hq, hout⟩ := Option.map_eq_some_iff.1 h
    cases hout
    exact attest_release_performed hq
  | note_partition_veto request reason now_ms =>
    cases h
    exact note_partition_veto_performed request reason now_ms
  | reload config t =>
    obtain ⟨file, hfile, hout⟩ := Option.map_eq_some_iff.1 h
    cases hout
    exact .reloaded t hfile

/-- The receipts of an observation are those of the leases it stages. -/
theorem issued_observed {g : AgentId} {es : List AgentHealthEntry} {at_ms : Int} {new : List ContingencyLease}
    {s' : GovernanceState} {t : T.State} (h : Stages c at_ms (observe p.state g es at_ms) new s') :
    issued p (.observe_health g es at_ms) .done ({ p with transport := t }.persist_locked saves s') =
      new.map (·.governance_receipt) := by
  have hleases : s'.active_contingency_leases =
      p.state.active_contingency_leases.filter (at_ms < ·.expires_at_ms) ++ new := by
    rw [h.state, observe_leases]
  simp only [issued, GovernancePolicy.persist_locked, hleases]
  rw [List.drop_left]

/-- Evidence that is accepted carries a verified lease that the policy holds, the first
under its id. -/
theorem presented_lease_eq_ok {s : GovernanceState} {evidence : Value} {index : Nat} {lease : ContingencyLease}
    (h : GovernancePolicy.presented_lease c decode s evidence = .ok (index, lease)) :
    lease.verify c = .ok () ∧ ∃ before after, s.active_contingency_leases = before ++ lease :: after ∧
      index = before.length ∧ ∀ l ∈ before, l.lease_id ≠ lease.lease_id := by
  unfold GovernancePolicy.presented_lease at h
  split at h
  · cases h
  split at h
  · cases h
  split at h
  · cases h
  rename_i lease' _ hverify
  split at h
  · cases h
  rename_i index' hindex
  split at h
  · cases h
  rename_i hheld
  cases h
  obtain ⟨hlt, hget⟩ := List.getElem?_eq_some_iff.1 (Decidable.not_not.1 hheld)
  obtain ⟨_, _, hfirst⟩ := List.findIdx?_eq_some_iff_getElem.1 hindex
  refine ⟨hverify, s.active_contingency_leases.take index, s.active_contingency_leases.drop (index + 1), ?_, ?_, ?_⟩
  · rw [← hget, List.getElem_cons_drop, List.take_append_drop]
  · rw [List.length_take, Nat.min_eq_left (Nat.le_of_lt hlt)]
  · intro l hl
    obtain ⟨i, hi, rfl⟩ := List.mem_take_iff_getElem.1 hl
    simpa using hfirst i (by omega)

end Shapes

/-! ## Runs -/

/-- A call and how it went: the passes its rounds may take, whether its write succeeds,
the answer, and the policy before and after. -/
structure Call (T : ConsensusTransport) where
  op : Op T
  fuel : Nat
  saves : Bool
  reply : Reply
  before : GovernancePolicy T
  after : GovernancePolicy T

section Runs
variable {T : ConsensusTransport} {c : Crypto} {decode : Value → Except String ContingencyLease}
  {p p' : GovernancePolicy T} {a : Call T}

/-- The property holds of what the state would be saved as, and of the file. -/
structure Kept (P : PersistedGovernanceState → Prop) (p : GovernancePolicy T) : Prop where
  state : P p.state.persisted
  file : ∀ file, p.persistence = some file → P file.load

theorem Kept.persist {P : PersistedGovernanceState → Prop} (h : Kept P p) (saves : Bool) {s' : GovernanceState}
    (hs : P s'.persisted) : Kept P (p.persist_locked saves s') := by
  refine ⟨hs, fun file hfile => ?_⟩
  obtain ⟨old, hold, rfl⟩ := Option.map_eq_some_iff.1 hfile
  unfold GovernancePersistence.save
  split
  · exact hs
  · exact h.file old hold

theorem Kept.reload {P : PersistedGovernanceState → Prop} (h : Kept P p) (config : GovernancePolicyConfig)
    {file : GovernancePersistence} (hfile : p.persistence = some file) (t : T.State) :
    Kept P (.with_persistence config file t : GovernancePolicy T) := by
  refine ⟨h.file file hfile, fun file' hfile' => ?_⟩
  cases hfile'
  exact h.file file hfile

/-- The call returns, with that answer and that policy. -/
def Step (c : Crypto) (decode : Value → Except String ContingencyLease) (p : GovernancePolicy T) (a : Call T)
    (p' : GovernancePolicy T) : Prop :=
  a.before = p ∧ a.after = p' ∧ perform c a.fuel decode p a.saves a.op = some (p', a.reply)

theorem Step.performed (h : Step c decode p a p') : Performed c decode p a.saves a.op p' a.reply :=
  perform_performed h.2.2

/-- A caller: the call it makes of the policy it sees, with its fuel and whether its
write succeeds. -/
abbrev Caller (T : ConsensusTransport) := GovernancePolicy T → Op T × Nat × Bool

/-- The calls the callers make one after another. -/
def replay (c : Crypto) (decode : Value → Except String ContingencyLease) (p : GovernancePolicy T) :
    List (Caller T) → Option (List (Call T))
  | [] => some []
  | caller :: callers =>
    let (op, fuel, saves) := caller p
    match perform c fuel decode p saves op with
    | none => none
    | some (p', reply) => (replay c decode p' callers).map (⟨op, fuel, saves, reply, p, p'⟩ :: ·)

theorem replay_run {callers : List (Caller T)} {calls : List (Call T)} (h : replay c decode p callers = some calls) :
    ∃ p', Run (Step c decode) p calls p' := by
  induction callers generalizing p calls with
  | nil =>
    cases h
    exact ⟨p, .nil⟩
  | cons caller callers ih =>
    simp only [replay] at h
    split at h
    · cases h
    · rename_i p₁ reply hperform
      obtain ⟨calls, hcalls, rfl⟩ := Option.map_eq_some_iff.1 h
      obtain ⟨p', hrun⟩ := ih hcalls
      exact ⟨p', .cons ⟨rfl, rfl, hperform⟩ hrun⟩

/-- The receipts issued in a run, in order. -/
def receipts (calls : List (Call T)) : List ConsensusGovernanceReceipt :=
  calls.flatMap fun a => issued a.before a.op a.reply a.after

end Runs
end Ambush.Governance

import Ambush.Governance.Calls
/-!
# Authority without a key

`can_act` refuses every destructive action until a key is registered, so that a state file
alone authorizes nothing. `authorize_partition_request` has no such check: what it accepts
depends on the file only, and `keyless_grants_nothing_iff` says on which files that is
nothing.
-/
open Lib

namespace Ambush.Governance

open Consensus Policy

/-- No call registers a key. -/
def Keyless {T : ConsensusTransport} (calls : List (Call T)) : Prop :=
  ∀ a ∈ calls, ∀ g key, a.op ≠ .register_governor g key

/-- The file was written in a partition, and a lease in it, the first under its id,
verifies and can be redeemed for a destructive action. -/
def Empowers (c : Crypto) (f : PersistedGovernanceState) : Prop :=
  f.partition_state = .Partitioned ∧ ∃ l action now_ms,
    f.active_contingency_leases.find? (·.lease_id == l.lease_id) = some l ∧ l.verify c = .ok () ∧
      is_destructive_action action = true ∧ l.can_redeem action now_ms = true

/-! ## A partition needs a registered name -/

theorem quorum_threshold_le (total : Nat) : governance_quorum_threshold total (recommended_max_faulty total) ≤ total := by
  unfold governance_quorum_threshold
  split
  · omega
  · unfold recommended_max_faulty satAdd satMul
    split <;> omega

/-- Without a registered name no entry counts against the quorum. -/
theorem observe_not_partitioned {s : GovernanceState} (hs : s.display_governors = []) (g : AgentId)
    (es : List AgentHealthEntry) (at_ms : Int) : (observe s g es at_ms).partition_state ≠ .Partitioned := by
  intro hpart
  have hlost := (observe_partitioned_iff s g es at_ms).1 hpart
  have hall : (count_health s es).healthy_governors = total_governors s := by simp [count_health, hs]
  rw [hall] at hlost
  exact absurd (quorum_threshold_le (total_governors s)) (Nat.not_le.2 hlost)

/-! ## One call -/

section Step
variable {c : Crypto} {decode : Value → Except String ContingencyLease} {T : ConsensusTransport}
  {f : PersistedGovernanceState} {p p' : GovernancePolicy T}

/-- In a partition, the one the file was written in and the leases of the file. -/
def Held (f g : PersistedGovernanceState) : Prop :=
  g.partition_state = .Partitioned →
    f.partition_state = .Partitioned ∧ g.active_contingency_leases = f.active_contingency_leases

/-- No key and no name is registered, and state and file hold what the first file held. -/
structure Unarmed (f : PersistedGovernanceState) (p : GovernancePolicy T) : Prop where
  key : p.state.local_governor = none
  names : p.state.display_governors = []
  kept : Kept (Held f) p

/-- Evidence is accepted without a key only where the file empowers. -/
theorem Unarmed.empowers {request : ActionRequest} {now_ms : Int} {index : Nat} {lease lease' : ContingencyLease}
    (h : Unarmed f p) (hdestructive : is_destructive_action request.action = true)
    (hpart : p.state.partition_state = .Partitioned)
    (hlease : GovernancePolicy.presented_lease c decode p.state request.evidence = .ok (index, lease))
    (hredeem : lease.redeem request.action now_ms = .ok lease') : Empowers c f := by
  obtain ⟨hf, hleases⟩ := h.kept.state hpart
  obtain ⟨hverify, before, after, hactive, -, hfirst⟩ := presented_lease_eq_ok hlease
  refine ⟨hf, lease, request.action, now_ms, ?_, hverify, hdestructive,
    ContingencyLease.redeem_iff_can_redeem.1 ⟨lease', hredeem⟩⟩
  rw [← hleases]
  exact List.find?_eq_some_iff_append.2 ⟨by simp, before, after, hactive, by simpa using hfirst⟩

theorem Unarmed.step (h : Unarmed f p) (hf : ¬ Empowers c f) {a : Call T} (hop : ∀ g key, a.op ≠ .register_governor g key)
    (hstep : Step c decode p a p') : Unarmed f p' ∧ ¬ Grants a.op a.reply := by
  obtain ⟨op, fuel, saves, reply, _, _⟩ := a
  cases hstep.performed with
  | idle t _ _ hgrants =>
    refine ⟨⟨h.key, h.names, h.kept.state, h.kept.file⟩, fun hg => ?_⟩
    have := hgrants hg
    rw [h.key] at this
    cases this
  | keys hkeys hown =>
    rcases hown with ⟨g, key, rfl⟩ | ⟨⟨peer, rfl⟩, hlocal, hdisplay⟩
    · exact absurd rfl (hop g key)
    · refine ⟨⟨hlocal.trans h.key, hdisplay.trans h.names, h.kept.persist saves ?_⟩, fun hg => hg.elim⟩
      rw [hkeys]
      exact h.kept.state
  | @observed g es at_ms new s' t hstages =>
    have hnew : new = [] := by
      by_contra hne
      have := hstages.key hne
      rw [observe_local, h.key] at this
      cases this
    have hkey : s'.local_governor = none := by rw [hstages.state, observe_local, h.key]
    have hnames : s'.display_governors = [] := by rw [hstages.state, observe_display, h.names]
    have hstate : Held f s'.persisted := by
      intro hpart
      rw [hstages.state] at hpart
      exact absurd hpart (observe_not_partitioned h.names g es at_ms)
    have ht : Kept (Held f) { p with transport := t } := ⟨h.kept.state, h.kept.file⟩
    exact ⟨⟨hkey, hnames, ht.persist saves hstate⟩, fun hg => hg.elim⟩
  | issued t _ hadv _ =>
    have := hadv.key
    rw [h.key] at this
    cases this
  | refused hop' _ hgrants => exact ⟨⟨h.key, h.names, h.kept.persist saves h.kept.state⟩, hgrants⟩
  | redeemed hdestructive hpart hlease hredeem => exact absurd (h.empowers hdestructive hpart hlease hredeem) hf
  | reloaded t hfile => exact ⟨⟨rfl, rfl, h.kept.reload _ hfile t⟩, fun hg => hg.elim⟩

end Step

/-! ## Every run -/

section Runs
variable {c : Crypto} {decode : Value → Except String ContingencyLease} {T : ConsensusTransport}

/-- The call for authority that is answered with `result`. -/
def authorizing (c : Crypto) (decode : Value → Except String ContingencyLease) (p : GovernancePolicy T)
    (request : ActionRequest) (now_ms : Int) (result : Except String (Option ContingencyLease)) : Call T where
  op := .authorize_partition_request request now_ms
  fuel := 0
  saves := true
  reply := .authorized result
  before := p
  after := (p.authorize_partition_request c decode true request now_ms).1

theorem authorizing_step {p : GovernancePolicy T} {request : ActionRequest} {now_ms : Int}
    {result : Except String (Option ContingencyLease)}
    (h : (p.authorize_partition_request c decode true request now_ms).2 = result) :
    Step c decode p (authorizing c decode p request now_ms result)
      (p.authorize_partition_request c decode true request now_ms).1 := by
  refine ⟨rfl, rfl, ?_⟩
  simp only [authorizing, perform, h]

/-- A lease the file empowers with is accepted by the first call. -/
theorem granted_of_empowers {f : PersistedGovernanceState} (hdecode : ∀ l ∈ f.active_contingency_leases, decode l.serialize = .ok l)
    (config : GovernancePolicyConfig) (t : T.State) (hf : Empowers c f) :
    ∃ (a : Call T) (p' : GovernancePolicy T), Step c decode (.with_persistence config ⟨some f⟩ t) a p' ∧
      (∀ g key, a.op ≠ .register_governor g key) ∧ Grants a.op a.reply := by
  obtain ⟨hpart, l, action, now_ms, hfind, hverify, hdestructive, hcan⟩ := hf
  obtain ⟨l', hredeem⟩ := ContingencyLease.redeem_iff_can_redeem.2 hcan
  obtain ⟨-, before, after, hactive, hfirst⟩ := List.find?_eq_some_iff_append.1 hfind
  have hindex : f.active_contingency_leases.findIdx? (·.lease_id == l.lease_id) = some before.length := by
    rw [hactive, List.findIdx?_append, List.findIdx?_eq_none_iff.2 (by simpa using hfirst)]
    simp [List.findIdx?_cons]
  have hlease : GovernancePolicy.presented_lease c decode f.restored (presenting l action).evidence =
      .ok (before.length, l) := by
    have hget : (presenting l action).evidence.get "contingency_lease" = some l.serialize := rfl
    have hheld : f.active_contingency_leases[before.length]? = some l := by simp [hactive]
    simp only [GovernancePolicy.presented_lease, hget, hdecode l (List.mem_of_find?_eq_some hfind), hverify,
      PersistedGovernanceState.restored, hindex, hheld, ne_eq, not_true_eq_false, if_false]
  let p : GovernancePolicy T := .with_persistence config ⟨some f⟩ t
  have hout : (p.authorize_partition_request c decode true (presenting l action) now_ms).2 = .ok (some l') := by
    have hpart' : f.restored.partition_state = .Partitioned := hpart
    have hredeem' : l.redeem (presenting l action).action now_ms = .ok l' := hredeem
    have hdestructive' : is_destructive_action (presenting l action).action = true := hdestructive
    simp only [p, GovernancePolicy.authorize_partition_request, GovernancePolicy.with_persistence,
      GovernancePersistence.load, Option.getD_some, hlease, hredeem', hpart', hdestructive', Bool.not_true, ne_eq,
      not_true_eq_false, if_false, Bool.false_eq_true]
  exact ⟨_, _, authorizing_step hout, (fun _ _ h => nomatch h), trivial⟩

/-- A policy that holds no key grants nothing, over every run, exactly when its file does
not empower. -/
theorem keyless_grants_nothing_iff (f : PersistedGovernanceState)
    (hdecode : ∀ l ∈ f.active_contingency_leases, decode l.serialize = .ok l) (config : GovernancePolicyConfig) (t : T.State) :
    (∀ calls p', Run (Step c decode) (.with_persistence config ⟨some f⟩ t) calls p' → Keyless calls →
      ∀ a ∈ calls, ¬ Grants a.op a.reply) ↔ ¬ Empowers c f := by
  constructor
  · intro hnone hf
    obtain ⟨a, p', hstep, hop, hgrants⟩ := granted_of_empowers hdecode config t hf
    refine hnone [a] p' (.single hstep) ?_ a (by simp) hgrants
    intro b hb
    rw [List.mem_singleton.1 hb]
    exact hop
  · intro hf calls p' hrun hkeyless
    have hstart : Unarmed f (.with_persistence config ⟨some f⟩ t : GovernancePolicy T) := by
      refine ⟨rfl, rfl, fun hpart => ⟨hpart, rfl⟩, fun file hfile => ?_⟩
      cases hfile
      exact fun hpart => ⟨hpart, rfl⟩
    exact hrun.labels (fun p a q ha (h : Unarmed f p) hstep => h.step hf (hkeyless a ha) hstep) hstart

end Runs

/-- A file with a lease that key `k` signed. -/
def leaseFile (partition_state : PartitionState) : PersistedGovernanceState :=
  { partition_state, active_contingency_leases := [sessionLease "k"] }

/-- A policy over the file, before any call. -/
def leasePolicy (partition_state : PartitionState) : GovernancePolicy solo :=
  .with_persistence {} ⟨some (leaseFile partition_state)⟩ ⟨[], 0⟩

theorem keyless_grants_nothing_healthy :
    ¬ Empowers .plain (leaseFile .Healthy) ∧
      ((∀ calls p', Run (Step .plain (decodeAmong [sessionLease "k"])) (leasePolicy .Healthy) calls p' → Keyless calls →
        ∀ a ∈ calls, ¬ Grants a.op a.reply) ↔ ¬ Empowers .plain (leaseFile .Healthy)) := by
  refine ⟨(fun h => nomatch h.1), keyless_grants_nothing_iff (leaseFile .Healthy) ?_ {} _⟩
  intro l hl
  cases List.mem_singleton.1 hl
  decide +kernel

/-- The call that presents the lease, answered with authority to end a session. -/
def sessionCall : Call solo :=
  authorizing .plain (decodeAmong [sessionLease "k"]) (leasePolicy .Partitioned)
    (presenting (sessionLease "k") (.TerminateUserSession "a" "c")) 1 (.ok (some ((sessionLease "k").push "a:c")))

/-- Whoever writes the file needs no key of the policy: a lease signed by `k`, and the
policy that registered nothing lets a session be ended. -/
theorem state_file_grants :
    ∃ p', Run (Step .plain (decodeAmong [sessionLease "k"])) (leasePolicy .Partitioned) [sessionCall] p' ∧
      Keyless [sessionCall] ∧ Grants sessionCall.op sessionCall.reply := by
  refine ⟨_, .single (authorizing_step ?_), ?_, trivial⟩
  · decide +kernel
  · intro a ha
    cases List.mem_singleton.1 ha
    exact fun _ _ h => nomatch h

end Ambush.Governance

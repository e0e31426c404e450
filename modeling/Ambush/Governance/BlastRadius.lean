import Ambush.Governance.LeaseBook
/-!
# Blast radius over whole runs

The policy keeps its leases as `LeaseBook` says, as long as its writes succeed. So in every
run every lease is within its budget and every authorization is recorded in a partition
before expiry; and while the clock of `observe_health` never goes back and no write is
lost, the records that name a lease cover no more scopes than its cap.
-/
open Lib

namespace Ambush.Governance

open Consensus Policy

section Calls
variable {T : ConsensusTransport}

/-- The partition records a call adds. A restart adds none. -/
def Call.records (a : Call T) : List PartitionActionRecord :=
  match a.op with
  | .reload _ _ => []
  | _ => a.after.state.partition_activity.drop a.before.state.partition_activity.length

/-- The leases that are active around a call. -/
def Call.leases (a : Call T) : List ContingencyLease :=
  a.before.state.active_contingency_leases ++ a.after.state.active_contingency_leases

/-- The clock a call renews the leases at. -/
def Call.renewal (a : Call T) : Option Int := Governance.renewal (effect a.op a.reply)

/-- The scope keys that the authorized records naming a lease cover, each counted once. -/
def scopeKeys (lease_id : String) (calls : List (Call T)) : Finset String :=
  (((calls.flatMap Call.records).filter fun r => r.authorized ∧ r.lease_id = some lease_id).map (·.scope_key)).toFinset

/-- A policy without a file, or over a path where there is none yet. -/
def GovernancePolicy.fresh (config : GovernancePolicyConfig) (persistent : Bool) (t : T.State) : GovernancePolicy T :=
  if persistent then .with_persistence config ⟨none⟩ t else .new config t

end Calls

/-! ## The policy keeps the book -/

section Step
variable {c : Crypto} {decode : Value → Except String ContingencyLease} {T : ConsensusTransport} {p p' : GovernancePolicy T}
  {a : Call T}

/-- The file has the leases of the state. -/
def Saved (p : GovernancePolicy T) : Prop :=
  ∀ file, p.persistence = some file → file.load.active_contingency_leases = p.state.active_contingency_leases

theorem saved_persist (p : GovernancePolicy T) (s' : GovernanceState) : Saved (p.persist_locked true s') := by
  intro file hfile
  obtain ⟨old, -, rfl⟩ := Option.map_eq_some_iff.1 hfile
  rfl

theorem Stages.leases {at_ms : Int} {g : AgentId} {es : List AgentHealthEntry} {s s' : GovernanceState}
    {new : List ContingencyLease} (h : Stages c at_ms (observe s g es at_ms) new s') :
    s'.active_contingency_leases = s.active_contingency_leases.filter (at_ms < ·.expires_at_ms) ++ new := by
  rw [h.state, observe_leases]

/-- A call whose write succeeds does to the leases what its effect says. -/
theorem step_books (h : Step c decode p a p') (hsaves : a.saves = true) (hsaved : Saved p) :
    Books c p.state.active_contingency_leases (effect a.op a.reply) p'.state.active_contingency_leases ∧ Saved p' := by
  have hperformed := h.performed
  rw [hsaves] at hperformed
  generalize a.op = op, a.reply = reply at hperformed ⊢
  cases hperformed with
  | idle t heffect _ _ =>
    rw [heffect]
    exact ⟨.keep, hsaved⟩
  | keys hkeys hown =>
    refine ⟨?_, saved_persist _ _⟩
    rw [hkeys]
    rcases hown with ⟨g, key, rfl⟩ | ⟨⟨peer, rfl⟩, -⟩
    · exact .keep
    · exact .keep
  | @observed g es at_ms new s' t hstages =>
    refine ⟨?_, saved_persist _ _⟩
    show Books c _ (.renew at_ms) s'.active_contingency_leases
    rw [hstages.leases]
    exact .renew hstages.staged
  | issued t heffect hadv _ =>
    rw [heffect, hadv.state]
    exact ⟨.keep, hsaved⟩
  | @refused op reply request reason lease_id now_ms hop _ hgrants =>
    refine ⟨?_, saved_persist _ _⟩
    have heffect : effect op reply = .keep := by
      rcases hop with rfl | ⟨_, rfl⟩
      · unfold effect
        split
        · rename_i heq
          cases heq
        · exact absurd trivial hgrants
        · rfl
      · rfl
    rw [heffect]
    exact .keep
  | @redeemed request now_ms index lease lease' _ _ hlease hredeem =>
    refine ⟨?_, saved_persist _ _⟩
    obtain ⟨hverify, before, after, hactive, rfl, hfirst⟩ := presented_lease_eq_ok hlease
    have hid : lease'.lease_id = lease.lease_id := by rw [ContingencyLease.redeem_eq hredeem]
    have hbooks : Books c (before ++ lease :: after) (.redeem lease.lease_id (action_scope_key request.action))
        (before ++ lease' :: after) := .redeem (ContingencyLease.issued_lt_of_verify hverify) hfirst hredeem
    simpa [effect, GovernancePolicy.persist_locked, record_partition_activity_locked, hactive, hid] using hbooks
  | reloaded t hfile =>
    refine ⟨?_, fun file hf => by cases hf; rfl⟩
    have hleases := hsaved _ hfile
    simp only [GovernancePolicy.with_persistence, PersistedGovernanceState.restored, hleases]
    exact .keep

/-! ## Every lease is sound -/

/-- Every lease is named by its terms and within budget. -/
def Sound (c : Crypto) (f : PersistedGovernanceState) : Prop :=
  ∀ l ∈ f.active_contingency_leases, l.Named c ∧ l.InBudget

/-- No call breaks a lease, whether or not its write succeeds. -/
theorem step_sound (h : Step c decode p a p') (hsound : Kept (Sound c) p) : Kept (Sound c) p' := by
  have hperformed := h.performed
  generalize a.op = op, a.reply = reply, a.saves = saves at hperformed
  cases hperformed with
  | idle t _ _ _ => exact ⟨hsound.state, hsound.file⟩
  | keys hkeys _ =>
    refine hsound.persist saves ?_
    rw [hkeys]
    exact hsound.state
  | @observed g es at_ms new s' t hstages =>
    have ht : Kept (Sound c) { p with transport := t } := ⟨hsound.state, hsound.file⟩
    refine ht.persist saves ?_
    intro l hl
    rw [show s'.persisted.active_contingency_leases = _ from hstages.leases] at hl
    rcases List.mem_append.1 hl with hl | hl
    · exact hsound.state l (List.mem_filter.1 hl).1
    · exact ⟨(hstages.staged l hl).named, (hstages.staged l hl).inBudget⟩
  | issued t _ hadv _ =>
    refine ⟨?_, hsound.file⟩
    rw [hadv.state]
    exact hsound.state
  | refused _ _ _ => exact hsound.persist saves hsound.state
  | @redeemed request now_ms index lease lease' _ _ hlease hredeem =>
    refine hsound.persist saves ?_
    obtain ⟨-, before, after, hactive, -, -⟩ := presented_lease_eq_ok hlease
    obtain ⟨hnamed, hbudget⟩ := hsound.state lease (by simp [GovernanceState.persisted, hactive])
    intro l hl
    rcases List.mem_or_eq_of_mem_set hl with hl | rfl
    · exact hsound.state l hl
    · refine ⟨?_, hbudget.redeem hredeem⟩
      rw [ContingencyLease.redeem_eq hredeem]
      exact hnamed
  | reloaded t hfile => exact hsound.reload _ hfile t

/-! ## Every authorization is recorded in a partition -/

/-- The record was made in a partition, at the clock of the call and before the expiry of
an active lease that it names. -/
def Authorized (a : Call T) (r : PartitionActionRecord) : Prop :=
  ∃ request now_ms l, a.op = .authorize_partition_request request now_ms ∧
    a.before.state.partition_state = .Partitioned ∧ l ∈ a.before.state.active_contingency_leases ∧
    r.lease_id = some l.lease_id ∧ r.recorded_at_ms = now_ms ∧ now_ms < l.expires_at_ms

theorem mem_of_mem_records {r : PartitionActionRecord} (h : r ∈ a.records) :
    r ∈ a.after.state.partition_activity.drop a.before.state.partition_activity.length := by
  unfold Call.records at h
  split at h
  · cases h
  · exact h

/-- A record that authorizes comes with a redemption of its scope. -/
theorem step_authorized (h : Step c decode p a p') {r : PartitionActionRecord} (hr : r ∈ a.records)
    (hauthorized : r.authorized = true) :
    Authorized a r ∧ ∀ lease_id, r.lease_id = some lease_id → effect a.op a.reply = .redeem lease_id r.scope_key := by
  have hperformed := h.performed
  have hnew := mem_of_mem_records hr
  obtain ⟨op, fuel, saves, reply, before, after⟩ := a
  obtain ⟨rfl, rfl, -⟩ := h
  dsimp only at hperformed hnew
  cases hperformed with
  | idle t _ _ _ => simp at hnew
  | keys hkeys _ =>
    rw [hkeys] at hnew
    simp [GovernancePolicy.persist_locked] at hnew
  | @observed g es at_ms new s' t hstages =>
    rw [hstages.state] at hnew
    rcases observe_activity before.state g es at_ms with hsame | hnone
    · simp [GovernancePolicy.persist_locked, hsame] at hnew
    · simp [GovernancePolicy.persist_locked, hnone] at hnew
  | issued t _ hadv _ =>
    rw [hadv.state] at hnew
    simp at hnew
  | refused _ _ _ =>
    -- the record of a refusal does not authorize
    simp only [GovernancePolicy.persist_locked, record_partition_activity_locked, List.drop_left,
      List.mem_singleton] at hnew
    rw [hnew] at hauthorized
    cases hauthorized
  | @redeemed request now_ms index lease lease' _ hpart hlease hredeem =>
    simp only [GovernancePolicy.persist_locked, record_partition_activity_locked, List.drop_left,
      List.mem_singleton] at hnew
    subst hnew
    obtain ⟨-, front, back, hactive, -, -⟩ := presented_lease_eq_ok hlease
    have hid : lease'.lease_id = lease.lease_id := by rw [ContingencyLease.redeem_eq hredeem]
    obtain ⟨-, hexpiry, -⟩ := ContingencyLease.redeem_cases hredeem
    refine ⟨⟨request, now_ms, lease, rfl, hpart, ?_, ?_, rfl, hexpiry⟩, ?_⟩
    · simp [hactive]
    · simp [partition_action_record, hid]
    · rintro lease_id hname
      cases hname
      rfl
  | reloaded t hfile => cases hr

end Step

/-! ## Every run -/

section Runs
variable {c : Crypto} {decode : Value → Except String ContingencyLease} {T : ConsensusTransport}
  {p p' : GovernancePolicy T} {calls : List (Call T)}

/-- A run whose writes succeed is a history of its leases. -/
theorem run_books (h : Run (Step c decode) p calls p') (hsaves : ∀ a ∈ calls, a.saves = true) (hsaved : Saved p) :
    Run (Books c) p.state.active_contingency_leases (calls.map fun a => effect a.op a.reply)
      p'.state.active_contingency_leases := by
  induction h with
  | nil => exact .nil
  | cons hstep _ ih =>
    obtain ⟨hbooks, hsaved'⟩ := step_books hstep (hsaves _ (by simp)) hsaved
    exact .cons hbooks (ih (fun a ha => hsaves a (List.mem_cons_of_mem _ ha)) hsaved')

theorem run_sound (h : Run (Step c decode) p calls p') (hsound : Kept (Sound c) p) :
    ∀ a ∈ calls, ∀ l ∈ a.leases, l.Named c ∧ l.InBudget := by
  refine h.labels (fun p a q _ (hp : Kept (Sound c) p) hstep => ⟨step_sound hstep hp, ?_⟩) hsound
  intro l hl
  rcases List.mem_append.1 hl with hl | hl
  · rw [hstep.1] at hl
    exact hp.state l hl
  · rw [hstep.2.1] at hl
    exact (step_sound hstep hp).state l hl

theorem run_authorized (h : Run (Step c decode) p calls p') : ∀ a ∈ calls, ∀ r ∈ a.records, r.authorized = true →
    Authorized a r ∧ ∀ lease_id, r.lease_id = some lease_id → effect a.op a.reply = .redeem lease_id r.scope_key := by
  refine h.labels (fun p a q _ _ hstep => ⟨trivial, ?_⟩) trivial
  intro r hr hauthorized
  exact step_authorized hstep hr hauthorized

/-- What the records of a lease cover was redeemed under its id. -/
theorem scopeKeys_subset (h : Run (Step c decode) p calls p') (lease_id : String) :
    scopeKeys lease_id calls ⊆ redeemed lease_id (calls.map fun a => effect a.op a.reply) := by
  intro key hkey
  simp only [scopeKeys, List.mem_toFinset, List.mem_map, List.mem_filter, List.mem_flatMap, decide_eq_true_eq] at hkey
  obtain ⟨r, ⟨⟨a, ha, hr⟩, hauthorized, hname⟩, rfl⟩ := hkey
  have heffect := (run_authorized h a ha r hr hauthorized).2 lease_id hname
  exact mem_redeemed.2 (List.mem_map.2 ⟨a, ha, heffect⟩)

theorem fresh_leases (config : GovernancePolicyConfig) (persistent : Bool) (t : T.State) :
    (GovernancePolicy.fresh config persistent t).state.active_contingency_leases = [] := by
  cases persistent <;> rfl

theorem fresh_kept {P : PersistedGovernanceState → Prop} (h : P {}) (config : GovernancePolicyConfig) (persistent : Bool)
    (t : T.State) : Kept P (GovernancePolicy.fresh config persistent t) := by
  cases persistent with
  | false => exact ⟨h, fun _ hfile => nomatch hfile⟩
  | true =>
    refine ⟨h, fun file hfile => ?_⟩
    cases hfile
    exact h

/-- Over every run, every lease is within its budget and every authorization is recorded
in a partition, at the clock of the call and before expiry. Where no write is lost and the
clock of `observe_health` never goes back, the authorized records that name a lease cover
no more scope keys than its cap. -/
theorem blast_radius_conserved (config : GovernancePolicyConfig) (persistent : Bool) (t : T.State)
    (hrun : Run (Step c decode) (.fresh config persistent t) calls p') :
    (∀ a ∈ calls, ∀ l ∈ a.leases, l.redeemed_scopes.Nodup ∧ l.redeemed_scopes.length ≤ l.blast_radius_cap) ∧
    (∀ a ∈ calls, ∀ r ∈ a.records, r.authorized = true → Authorized a r) ∧
    (c.CollisionFree → (∀ a ∈ calls, a.saves = true) → (calls.filterMap Call.renewal).Pairwise (· ≤ ·) →
      ∀ a ∈ calls, ∀ l ∈ a.leases, (scopeKeys l.lease_id calls).card ≤ l.blast_radius_cap) := by
  have hsound := run_sound hrun (fresh_kept (fun l hl => nomatch hl) config persistent t)
  refine ⟨?_, ?_, ?_⟩
  · intro a ha l hl
    obtain ⟨-, hbudget⟩ := hsound a ha l hl
    exact ⟨hbudget.nodup, hbudget.length_le⟩
  · intro a ha r hr hauthorized
    exact (run_authorized hrun a ha r hr hauthorized).1
  · intro hc hsaves hclock a ha l hl
    have hsaved : Saved (GovernancePolicy.fresh config persistent t) := by
      cases persistent with
      | false => exact fun _ hfile => nomatch hfile
      | true => exact fun file hfile => by cases hfile; rfl
    have hbooks := run_books hrun hsaves hsaved
    rw [fresh_leases] at hbooks
    have hforward : Forward (calls.map fun a => effect a.op a.reply) := by
      unfold Forward
      rw [List.filterMap_map]
      exact hclock
    have haccounted := books_accounted hc hbooks hforward
    calc (scopeKeys l.lease_id calls).card
        ≤ (redeemed l.lease_id (calls.map fun a => effect a.op a.reply)).card :=
          Finset.card_le_card (scopeKeys_subset hrun l.lease_id)
      _ ≤ l.blast_radius_cap := haccounted.card_redeemed_le hc (hsound a ha l hl).1

end Runs

/-! ## Runs to compute -/

/-- A transport that is down but for one round in twelve, the one for ending sessions. -/
def flaky : ConsensusTransport where
  State := Nat
  accept_committee n _ := (n + 1, if n % 12 = 4 then .ok () else .error (.Transport "down"))
  publish n _ := (n, .ok ())
  drain n := (n, .ok [])

def flakyPolicy : GovernancePolicy flaky := .fresh {} true (0 : Nat)

def registers : Caller flaky := fun _ => (.register_governor "tom-1" "k", 0, true)

/-- The governor observes itself, well or not. -/
def observes (health : AgentHealth) (at_ms : Int) : Caller flaky :=
  fun _ => (.observe_health "tom-1" [⟨"tom-1", .Tom, health⟩] at_ms, 3, true)

def restarts : Caller flaky := fun _ => (.reload {} (0 : Nat), 0, true)

/-- The first active lease is presented to end a session at clock 2. -/
def presents (session_id : String) (saves : Bool) : Caller flaky := fun p =>
  match p.state.active_contingency_leases with
  | l :: _ => (.authorize_partition_request (presenting l (.TerminateUserSession "a" session_id)) 2, 0, saves)
  | [] => restarts p

/-- A lease is staged, the quorum is lost, and a session is ended. -/
def ending (session_id : String) (saves : Bool) : List (Caller flaky) :=
  [observes .Healthy 0, observes .Degraded 1, presents session_id saves]

/-- The leases that are staged where no evidence is read. -/
def staged (c : Crypto) (callers : List (Caller flaky)) : List ContingencyLease :=
  ((replay c (decodeAmong []) flakyPolicy callers).getD []).flatMap Call.leases

/-- The calls made where the evidence carries one of those leases. -/
def drill (c : Crypto) (callers : List (Caller flaky)) : Option (List (Call flaky)) :=
  replay c (decodeAmong (staged c callers)) flakyPolicy callers

theorem blast_radius_conserved_one :
    ∃ calls p', Run (Step .coded (decodeAmong (staged .coded (registers :: ending "c" true)))) flakyPolicy calls p' ∧
      (∃ a ∈ calls, ∃ r ∈ a.records, r.authorized = true ∧ Authorized a r) ∧
      ∃ a ∈ calls, ∃ l ∈ a.leases, (scopeKeys l.lease_id calls).card = 1 ∧ (scopeKeys l.lease_id calls).card ≤ l.blast_radius_cap := by
  have hdrill : (drill .coded (registers :: ending "c" true)).map (fun calls =>
      (calls.all (·.saves), calls.filterMap Call.renewal, calls.any (·.records.any (·.authorized)),
        calls.any fun a => a.leases.any fun l => (scopeKeys l.lease_id calls).card = 1)) = some (true, [0, 1], true, true) := by
    decide +kernel
  obtain ⟨calls, hcalls, hout⟩ := Option.map_eq_some_iff.1 hdrill
  simp only [Prod.mk.injEq, List.any_eq_true, List.all_eq_true, decide_eq_true_eq] at hout
  obtain ⟨hsaves, hclock, ⟨a, ha, r, hr, hauthorized⟩, ⟨b, hb, l, hl, hone⟩⟩ := hout
  obtain ⟨p', hrun⟩ := replay_run hcalls
  obtain ⟨-, hrecorded, hcap⟩ := blast_radius_conserved {} true _ hrun
  refine ⟨calls, p', hrun, ⟨a, ha, r, hr, hauthorized, hrecorded a ha r hr hauthorized⟩, b, hb, l, hl, hone, ?_⟩
  exact hcap Crypto.coded_collisionFree hsaves (by rw [hclock]; decide) b hb l hl

/-- The records that name some lease cover more scopes than its cap. -/
def exceeds (calls : List (Call flaky)) : Bool :=
  calls.any fun a => a.leases.any fun l => l.blast_radius_cap < (scopeKeys l.lease_id calls).card

/-- The lease expires, the clock goes back, and the same lease is staged again. -/
def clockBack : List (Caller flaky) :=
  registers :: ending "c" true ++ [observes .Healthy 300000] ++ ending "d" true

/-- The write of the first redemption is lost, and a restart finds the lease unused. -/
def lostWrite : List (Caller flaky) :=
  registers :: ending "c" false ++ [restarts, registers, presents "d" true]

/-- A lease for one scope is redeemed for two, where all writes succeed but the clock goes
back, and where the clock never goes back but a write fails. -/
theorem records_exceed_cap :
    (∃ calls p', Run (Step .plain (decodeAmong (staged .plain clockBack))) flakyPolicy calls p' ∧
      (∀ a ∈ calls, a.saves = true) ∧ exceeds calls = true) ∧
    ∃ calls p', Run (Step .plain (decodeAmong (staged .plain lostWrite))) flakyPolicy calls p' ∧
      (calls.filterMap Call.renewal).Pairwise (· ≤ ·) ∧ exceeds calls = true := by
  have hback : (drill .plain clockBack).map (fun calls => (calls.all (·.saves), exceeds calls)) = some (true, true) := by
    decide +kernel
  have hlost : (drill .plain lostWrite).map (fun calls => (calls.filterMap Call.renewal, exceeds calls)) =
      some ([0, 1], true) := by
    decide +kernel
  constructor
  · obtain ⟨calls, hcalls, hout⟩ := Option.map_eq_some_iff.1 hback
    obtain ⟨hsaves, hexceeds⟩ := Prod.mk.inj hout
    obtain ⟨p', hrun⟩ := replay_run hcalls
    exact ⟨calls, p', hrun, List.all_eq_true.1 hsaves, hexceeds⟩
  · obtain ⟨calls, hcalls, hout⟩ := Option.map_eq_some_iff.1 hlost
    obtain ⟨hclock, hexceeds⟩ := Prod.mk.inj hout
    obtain ⟨p', hrun⟩ := replay_run hcalls
    exact ⟨calls, p', hrun, by rw [hclock]; decide, hexceeds⟩

end Ambush.Governance

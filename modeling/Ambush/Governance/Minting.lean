import Ambush.Consensus.Safety
import Ambush.Governance.BlastRadius
/-!
# Leases of the policy's own making

What `ensure_contingency_leases_locked` stages: leases that verify but for two things, that
they are not over when they are issued and that their receipt is for their own proposal. A
property of the lease list that renewing and redeeming keep holds in every state and every
file of a run (`step_kept`); `Sorted` is one, where the observations are prudent.
-/
open Lib

namespace Ambush.Governance

open Consensus Policy

/-- The receipt was issued for the proposal that the lease's own terms make. -/
def ContingencyLease.OwnReceipt (c : Crypto) (l : ContingencyLease) : Prop :=
  l.governance_receipt.payload.proposal_id = (build_contingency_lease_proposal c l.lease_id l.action_kind l.scope
    l.blast_radius_cap l.max_duration_ms l.issued_at_ms l.expires_at_ms).proposal_id

instance (c : Crypto) (l : ContingencyLease) : Decidable (l.OwnReceipt c) := inferInstanceAs (Decidable (_ = _))

/-! ## Leases as they are minted -/

/-- What every lease of the policy's own making has, whatever its clock and its rounds were. -/
structure Minted (c : Crypto) (l : ContingencyLease) : Prop where
  schema : l.schema_version = CONTINGENCY_LEASE_SCHEMA_VERSION
  named : l.Named c
  cap : 0 < l.blast_radius_cap
  duration : 0 < l.max_duration_ms
  receipt : ∃ key, l.governance_receipt.verify c = .ok key
  approved : l.governance_receipt.payload.decision = .Approve

section Leases
variable {c : Crypto} {l l' : ContingencyLease}

/-- What remains for a minted lease to verify. -/
theorem Minted.verify_iff (h : Minted c l) : l.verify c = .ok () ↔ l.issued_at_ms < l.expires_at_ms ∧ l.OwnReceipt c := by
  obtain ⟨key, hkey⟩ := h.receipt
  have hcap := Nat.ne_of_gt h.cap
  have hduration := Int.not_le.2 h.duration
  unfold ContingencyLease.verify validate_lease_terms ContingencyLease.OwnReceipt
  by_cases hlife : l.issued_at_ms < l.expires_at_ms
  · simp only [h.schema, hcap, hduration, Int.not_le.2 hlife, hkey, h.approved, ne_eq, not_true_eq_false, if_false]
    split
    · rename_i hne
      exact iff_of_false (by simp) (fun h => hne h.2)
    · rename_i heq
      exact iff_of_true rfl ⟨hlife, Decidable.not_not.1 heq⟩
  · simp only [h.schema, hcap, hduration, Int.not_lt.1 hlife, ne_eq, not_true_eq_false, if_false, if_true]
    exact iff_of_false (by simp) (fun h => hlife h.1)

/-- Leases that differ in their redeemed scopes are minted alike. -/
theorem Minted.redeem (h : Minted c l) (hsame : l' = { l with redeemed_scopes := l'.redeemed_scopes }) : Minted c l' := by
  rw [hsame]
  exact ⟨h.schema, h.named, h.cap, h.duration, h.receipt, h.approved⟩

/-- Leases under one id are for one kind of action and one scope. -/
theorem same_kind (hc : c.CollisionFree) {k : ContingencyLease} (hl : l.Named c) (hk : k.Named c) (h : l.lease_id = k.lease_id) :
    l.action_kind = k.action_kind ∧ l.scope = k.scope := by
  rw [hl, hk] at h
  have halike := hc _ _ h
  simp only [Value.Alike, Value.AlikeFields] at halike
  refine ⟨halike.2.1, ?_⟩
  have hscope := halike.2.2.2.2.2.2.2.2.2.2.2.1
  cases hs : l.scope <;> cases hs' : k.scope <;> simp_all [Value.optional, Value.Alike]

end Leases

/-! ## What an observation stages -/

/-- The id of the local governor is that of its key. -/
def Keyed (c : Crypto) (s : GovernanceState) : Prop :=
  ∀ k, s.local_governor = some k → k.consensus_agent_id = .from_verifying_key (c.verifying_key k.signing_key)

/-- A lease newly staged at a clock, for every scope. -/
structure Coined (c : Crypto) (now_ms : Int) (l : ContingencyLease) : Prop where
  minted : Minted c l
  scope : l.scope = none
  issued : l.issued_at_ms = now_ms
  life : now_ms < i64Max → l.issued_at_ms < l.expires_at_ms

/-- The leases staged in a state: one for each of some kinds, none of which it has an
active lease for. -/
structure Stocks (c : Crypto) (s : GovernanceState) (now_ms : Int) (new : List ContingencyLease) : Prop where
  coined : ∀ l ∈ new, Coined c now_ms l
  idle : ∀ l ∈ new, already_active s l.action_kind now_ms = false
  kinds : (new.map (·.action_kind)).Nodup

section Stage
variable {c : Crypto} {T : ConsensusTransport} {fuel : Nat} {s s' : GovernanceState} {t t' : T.State} {now_ms : Int}

theorem issue_verifies (hs : SignaturesVerify c) {commit : ConsensusCommit} {previous : String} {k : ConsensusCommittee}
    {d : GovernanceReceiptDecision} {issued_by : AgentId} {key : SigningKey}
    (hid : issued_by = .from_verifying_key (c.verifying_key key)) :
    (ConsensusGovernanceReceipt.issue c commit previous k d issued_by key now_ms).verify c = .ok (c.verifying_key key) := by
  generalize hr : ConsensusGovernanceReceipt.issue c commit previous k d issued_by key now_ms = r
  have hby : r.payload.issued_by = issued_by := by rw [← hr]; rfl
  have hsig : r.signature = detached_signature c key r.payload.serialize := by rw [← hr]; rfl
  obtain ⟨hpub, hver, hverify⟩ := hs key r.payload.serialize
  have hdet : verify_detached_signature c r.payload.serialize r.signature = .ok () := by
    simp [hsig, verify_detached_signature, detached_signature, hpub, hverify]
  have hhex : c.verifying_key_from_hex r.signature.public_key_hex = .ok (c.verifying_key key) := by
    rw [hsig]
    exact hver
  simp only [ConsensusGovernanceReceipt.verify, hdet, hhex, hby, hid, ne_eq, not_true_eq_false, if_false]

theorem run_governance_round_receipt (hs : SignaturesVerify c) (hkeyed : Keyed c s) {proposal : ConsensusProposal}
    {d : GovernanceReceiptDecision} {r : ConsensusGovernanceReceipt}
    (h : run_governance_round c fuel s t proposal d now_ms = some (s', t', .ok r)) :
    (∃ key, r.verify c = .ok key) ∧ r.payload.decision = d := by
  unfold run_governance_round at h
  split at h
  · cases h
  rename_i key hkey
  split at h
  · cases h
  split at h
  · cases h
  split at h
  · cases h
  · cases h
  · cases h
    exact ⟨⟨_, issue_verifies hs (hkeyed key hkey)⟩, rfl⟩

theorem satAddI_gt {a b : Int} (hb : 0 < b) (ha : a < i64Max) : a < satAddI a b := by
  unfold satAddI
  omega

theorem issue_contingency_lease_coined (hs : SignaturesVerify c) (hkeyed : Keyed c s) {kind : String} {cap : Nat}
    {ttl_ms : Int} {l : ContingencyLease}
    (h : issue_contingency_lease c fuel s t kind none cap ttl_ms now_ms = some (s', t', some l)) :
    Coined c now_ms l ∧ l.action_kind = kind := by
  unfold issue_contingency_lease at h
  split at h
  · cases h
  rename_i hguard
  simp only [Bool.or_eq_true, decide_eq_true_eq, not_or, Int.not_le] at hguard
  dsimp only at h
  split at h
  · cases h
  · cases h
  · rename_i s₁ t₁ r hround
    cases h
    obtain ⟨hreceipt, happroved⟩ := run_governance_round_receipt hs hkeyed hround
    refine ⟨⟨⟨rfl, rfl, Nat.pos_of_ne_zero hguard.1.2, hguard.2, hreceipt, happroved⟩, rfl, rfl, ?_⟩, rfl⟩
    exact satAddI_gt hguard.2

/-- Issuing a lease leaves the keys and the leases alone. -/
theorem issue_contingency_lease_keeps {kind : String} {scope : Option String} {cap : Nat} {ttl_ms : Int}
    {lease : Option ContingencyLease}
    (h : issue_contingency_lease c fuel s t kind scope cap ttl_ms now_ms = some (s', t', lease)) :
    s'.local_governor = s.local_governor ∧ s'.active_contingency_leases = s.active_contingency_leases := by
  rcases issue_contingency_lease_cases h with ⟨rfl, -⟩ | ⟨l, -, -, hadv⟩
  · exact ⟨rfl, rfl⟩
  · rw [hadv.state]
    exact ⟨rfl, rfl⟩

/-- A kind that has no active lease among more leases has none among fewer. -/
theorem already_active_of_append {kind : String} {more : List ContingencyLease}
    (hleases : s'.active_contingency_leases = s.active_contingency_leases ++ more)
    (h : already_active s' kind now_ms = false) : already_active s kind now_ms = false := by
  unfold already_active at h
  rw [hleases, List.any_append, Bool.or_eq_false_iff] at h
  exact h.1

theorem ensure_contingency_leases_locked_stocks (hs : SignaturesVerify c) {g : GovernancePolicyConfig} {kinds : List String}
    (hkeyed : Keyed c s) (hkinds : kinds.Nodup)
    (h : ensure_contingency_leases_locked c fuel g now_ms kinds s t = some (s', t')) :
    ∃ new, s'.active_contingency_leases = s.active_contingency_leases ++ new ∧ Stocks c s now_ms new ∧
      ∀ l ∈ new, l.action_kind ∈ kinds := by
  induction kinds generalizing s t with
  | nil =>
    cases h
    exact ⟨[], by simp, ⟨by simp, by simp, by simp⟩, by simp⟩
  | cons kind kinds ih =>
    obtain ⟨hnot, hkinds⟩ := List.nodup_cons.1 hkinds
    simp only [ensure_contingency_leases_locked] at h
    split at h
    · obtain ⟨new, hleases, hstocks, hmem⟩ := ih hkeyed hkinds h
      exact ⟨new, hleases, hstocks, fun l hl => List.mem_cons_of_mem _ (hmem l hl)⟩
    rename_i hidle
    split at h
    · cases h
    · rename_i s₁ t₁ hissue
      rcases issue_contingency_lease_cases hissue with ⟨rfl, -⟩ | ⟨l, hl, -⟩
      · obtain ⟨new, hleases, hstocks, hmem⟩ := ih hkeyed hkinds h
        exact ⟨new, hleases, hstocks, fun l hl => List.mem_cons_of_mem _ (hmem l hl)⟩
      · cases hl
    · rename_i s₁ t₁ lease hissue
      obtain ⟨hkey, hsame⟩ := issue_contingency_lease_keeps hissue
      obtain ⟨hcoined, hkind⟩ := issue_contingency_lease_coined hs hkeyed hissue
      have hkeyed₁ : Keyed c { s₁ with active_contingency_leases := s₁.active_contingency_leases ++ [lease] } := by
        intro k hk
        exact hkeyed k (hkey ▸ hk)
      obtain ⟨new, hleases, hstocks, hmem⟩ := ih hkeyed₁ hkinds h
      -- the lease of this kind, then those of the remaining kinds
      refine ⟨lease :: new, by rw [hleases, hsame, List.append_assoc]; rfl, ⟨?_, ?_, ?_⟩, ?_⟩
      · exact List.forall_mem_cons.2 ⟨hcoined, hstocks.coined⟩
      · refine List.forall_mem_cons.2 ⟨by simpa [hkind] using hidle, fun l hl => ?_⟩
        exact already_active_of_append (by rw [hsame]) (hstocks.idle l hl)
      · rw [List.map_cons, List.nodup_cons]
        refine ⟨?_, hstocks.kinds⟩
        rw [hkind]
        intro hmem'
        obtain ⟨l, hl, hl'⟩ := List.mem_map.1 hmem'
        exact hnot (hl' ▸ hmem l hl)
      · exact List.forall_mem_cons.2 ⟨by simp [hkind], fun l hl => List.mem_cons_of_mem _ (hmem l hl)⟩

/-- What an observation makes of the leases. -/
theorem observe_health_stocks (hs : SignaturesVerify c) {p p' : GovernancePolicy T} (hkeyed : Keyed c p.state) {saves : Bool}
    {g : AgentId} {es : List AgentHealthEntry} (h : p.observe_health c fuel saves g es now_ms = some p') :
    ∃ new, p'.state.active_contingency_leases =
        p.state.active_contingency_leases.filter (now_ms < ·.expires_at_ms) ++ new ∧
      Stocks c (observe p.state g es now_ms) now_ms new ∧
      (new ≠ [] → (observe p.state g es now_ms).partition_state = .Healthy) := by
  unfold GovernancePolicy.observe_health at h
  dsimp only at h
  split at h
  · rename_i hhealthy
    split at h
    · cases h
    · rename_i s' t' hensure
      cases h
      have hkeyed' : Keyed c (observe p.state g es now_ms) := by
        intro k hk
        exact hkeyed k (by simpa using hk)
      obtain ⟨new, hleases, hstocks, -⟩ :=
        ensure_contingency_leases_locked_stocks hs hkeyed' (by decide) hensure
      rw [observe_leases] at hleases
      exact ⟨new, hleases, hstocks, fun _ => hhealthy⟩
  · cases h
    exact ⟨[], by simp [GovernancePolicy.persist_locked], ⟨by simp, by simp, by simp⟩, fun hne => absurd rfl hne⟩

end Stage

/-! ## One call -/

section Step
variable {c : Crypto} {decode : Value → Except String ContingencyLease} {T : ConsensusTransport} {p p' : GovernancePolicy T}
  {a : Call T}

theorem register_governor_keyed (saves : Bool) (g : AgentId) (key : SigningKey) (hkeyed : Keyed c p.state) :
    Keyed c (p.register_governor c saves g key).1.state := by
  have hnew : Keyed c { p.state with local_governor := some (LocalGovernorKey.new c key) } := by
    intro k hk
    cases hk
    rfl
  unfold GovernancePolicy.register_governor
  dsimp only
  split
  · split
    · exact hkeyed
    · exact hnew
  · exact hnew

theorem step_keyed (h : Step c decode p a p') (hkeyed : Keyed c p.state) : Keyed c p'.state := by
  have hperformed := h.performed
  obtain ⟨op, fuel, saves, reply, before, after⟩ := a
  obtain ⟨-, -, hperform⟩ := h
  dsimp only at hperform hperformed
  cases hperformed with
  | idle t _ _ _ => exact hkeyed
  | keys hkeys hown =>
    rcases hown with ⟨g, key, rfl⟩ | ⟨-, hlocal, -⟩
    · obtain ⟨hout, -⟩ := Prod.mk.inj (Option.some.inj hperform)
      rw [← hout]
      exact register_governor_keyed saves g key hkeyed
    · intro k hk
      exact hkeyed k (hlocal ▸ hk)
  | observed t hstages =>
    intro k hk
    refine hkeyed k ?_
    rw [← observe_local p.state]
    rw [GovernancePolicy.persist_locked, hstages.state] at hk
    exact hk
  | issued t _ hadv _ =>
    rw [hadv.state]
    exact hkeyed
  | refused _ _ _ => exact hkeyed
  | redeemed _ _ _ _ => exact hkeyed
  | reloaded t _ =>
    intro k hk
    cases hk

/-- A property of the leases is kept, in the state and in the file, when renewing the list
and redeeming a scope keep it. -/
theorem step_kept {P : List ContingencyLease → Prop} (hs : SignaturesVerify c) (h : Step c decode p a p')
    (hkeyed : Keyed c p.state)
    (renew : ∀ g es at_ms new, a.op = .observe_health g es at_ms → Stocks c (observe p.state g es at_ms) at_ms new →
      (new ≠ [] → (observe p.state g es at_ms).partition_state = .Healthy) →
      p'.state.active_contingency_leases = p.state.active_contingency_leases.filter (at_ms < ·.expires_at_ms) ++ new →
      P p.state.active_contingency_leases → P (p.state.active_contingency_leases.filter (at_ms < ·.expires_at_ms) ++ new))
    (redeem : ∀ before after l l', l' = { l with redeemed_scopes := l'.redeemed_scopes } →
      P (before ++ l :: after) → P (before ++ l' :: after))
    (hp : Kept (fun f => P f.active_contingency_leases) p) : Kept (fun f => P f.active_contingency_leases) p' := by
  have hperformed := h.performed
  obtain ⟨op, fuel, saves, reply, before, after⟩ := a
  obtain ⟨-, -, hperform⟩ := h
  dsimp only at hperform hperformed renew
  cases hperformed with
  | idle t _ _ _ => exact ⟨hp.state, hp.file⟩
  | keys hkeys _ =>
    refine hp.persist saves ?_
    rw [hkeys]
    exact hp.state
  | @observed g es at_ms _ s' t _ =>
    obtain ⟨q, hobserve, hq⟩ := Option.map_eq_some_iff.1 hperform
    obtain ⟨rfl, -⟩ := Prod.mk.inj hq
    obtain ⟨new, hleases, hstocks, hhealthy⟩ := observe_health_stocks hs hkeyed hobserve
    have ht : Kept (fun f => P f.active_contingency_leases) { p with transport := t } := ⟨hp.state, hp.file⟩
    refine ht.persist saves ?_
    have hnew := renew g es at_ms new rfl hstocks hhealthy hleases hp.state
    rw [← hleases] at hnew
    exact hnew
  | issued t _ hadv _ =>
    refine ⟨?_, hp.file⟩
    rw [hadv.state]
    exact hp.state
  | refused _ _ _ => exact hp.persist saves hp.state
  | @redeemed request now_ms index lease lease' _ _ hlease hredeem =>
    refine hp.persist saves ?_
    obtain ⟨-, front, back, hactive, rfl, -⟩ := presented_lease_eq_ok hlease
    have hstate : P (front ++ lease :: back) := hactive ▸ hp.state
    have hset : (front ++ lease :: back).set front.length lease' = front ++ lease' :: back := by simp
    show P (p.state.active_contingency_leases.set front.length lease')
    rw [hactive, hset]
    exact redeem front back lease lease' (ContingencyLease.redeem_eq hredeem) hstate
  | reloaded t hfile => exact hp.reload _ hfile t

theorem step_minted (hs : SignaturesVerify c) (h : Step c decode p a p')
    (hkeyed : Keyed c p.state) (hp : Kept (fun f => ∀ l ∈ f.active_contingency_leases, Minted c l) p) :
    Kept (fun f => ∀ l ∈ f.active_contingency_leases, Minted c l) p' := by
  refine @step_kept c decode T p p' a (fun ls => ∀ l ∈ ls, Minted c l) hs h hkeyed ?_ ?_ hp
  · intro g es at_ms new _ hstocks _ _ hminted l hl
    rcases List.mem_append.1 hl with hl | hl
    · exact hminted l (List.mem_filter.1 hl).1
    · exact (hstocks.coined l hl).minted
  · intro before after l l' hsame hminted k hk
    rcases List.mem_append.1 hk with hk | hk
    · exact hminted k (by simp [hk])
    · rcases List.mem_cons.1 hk with rfl | hk
      · exact (hminted l (by simp)).redeem hsame
      · exact hminted k (by simp [hk])

/-- The call renews the leases before the end of time, while no lease issued at its clock
is used up, and every lease it stages comes with its own receipt. -/
def Op.Prudent (c : Crypto) (p p' : GovernancePolicy T) : Op T → Prop
  | .observe_health g es at_ms => (observe p.state g es at_ms).partition_state = .Healthy →
      at_ms < i64Max ∧
      (∀ l ∈ p.state.active_contingency_leases, at_ms < l.expires_at_ms → l.issued_at_ms = at_ms →
        l.redeemed_scopes.length < l.blast_radius_cap) ∧
      ∀ l ∈ p'.state.active_contingency_leases, l ∉ p.state.active_contingency_leases → l.OwnReceipt c
  | _ => True

instance (c : Crypto) (p p' : GovernancePolicy T) : (op : Op T) → Decidable (op.Prudent c p p')
  | .observe_health _ _ _ => inferInstanceAs (Decidable (_ → _ ∧ _ ∧ _))
  | .register_governor _ _ | .register_peer_governor _ | .can_act _ _ _ | .authorize_partition_request _ _
  | .attest_release _ _ | .note_partition_veto _ _ _ | .reload _ _ => .isTrue trivial

/-- Every lease verifies, and no two have one id. -/
structure Sorted (c : Crypto) (ls : List ContingencyLease) : Prop where
  minted : ∀ l ∈ ls, Minted c l
  life : ∀ l ∈ ls, l.issued_at_ms < l.expires_at_ms
  receipt : ∀ l ∈ ls, l.OwnReceipt c
  ids : (ls.map (·.lease_id)).Nodup

theorem Sorted.filter {ls : List ContingencyLease} (h : Sorted c ls) (q : ContingencyLease → Bool) : Sorted c (ls.filter q) where
  minted l hl := h.minted l (List.mem_filter.1 hl).1
  life l hl := h.life l (List.mem_filter.1 hl).1
  receipt l hl := h.receipt l (List.mem_filter.1 hl).1
  ids := h.ids.sublist (List.filter_sublist.map _)

theorem Sorted.redeem {before after : List ContingencyLease} {l l' : ContingencyLease}
    (hsame : l' = { l with redeemed_scopes := l'.redeemed_scopes }) (h : Sorted c (before ++ l :: after)) :
    Sorted c (before ++ l' :: after) := by
  have hall : ∀ {Q : ContingencyLease → Prop}, (∀ k ∈ before ++ l :: after, Q k) → (Q l → Q l') →
      ∀ k ∈ before ++ l' :: after, Q k := by
    intro Q hQ hl k hk
    rcases List.mem_append.1 hk with hk | hk
    · exact hQ k (by simp [hk])
    · rcases List.mem_cons.1 hk with rfl | hk
      · exact hl (hQ l (by simp))
      · exact hQ k (by simp [hk])
  refine ⟨hall h.minted fun hl => hl.redeem hsame, hall h.life fun hl => ?_, hall h.receipt fun hl => ?_, ?_⟩
  · rw [hsame]
    exact hl
  · rw [hsame]
    exact hl
  · have hid : l'.lease_id = l.lease_id := by rw [hsame]
    have hids := h.ids
    simp only [List.map_append, List.map_cons, hid] at hids ⊢
    exact hids

/-- Leases of different kinds have different ids. -/
theorem Stocks.ids (hc : c.CollisionFree) {s : GovernanceState} {now_ms : Int} {new : List ContingencyLease}
    (h : Stocks c s now_ms new) : (new.map (·.lease_id)).Nodup := by
  have hkinds := List.pairwise_map.1 h.kinds
  refine List.pairwise_map.2 (hkinds.imp_of_mem fun {l k} hl hk hne hid => hne ?_)
  exact (same_kind hc (h.coined l hl).minted.named (h.coined k hk).minted.named hid).1

/-- A lease staged while no lease issued now is used up is the only one under its id. -/
theorem Stocks.not_held (hc : c.CollisionFree) {s : GovernanceState} {now_ms : Int} {new : List ContingencyLease}
    (h : Stocks c s now_ms new) {k l : ContingencyLease} (hk : k ∈ s.active_contingency_leases) (hnamed : k.Named c)
    (hlive : now_ms < k.expires_at_ms)
    (hunused : k.issued_at_ms = now_ms → k.redeemed_scopes.length < k.blast_radius_cap) (hl : l ∈ new) :
    k.lease_id ≠ l.lease_id := by
  intro hid
  have hcoined := h.coined l hl
  obtain ⟨hkind, hscope⟩ := same_kind hc hnamed hcoined.minted.named hid
  obtain ⟨-, hissued, -⟩ := hnamed.same_terms hc hcoined.minted.named hid
  have hidle := h.idle l hl
  unfold already_active at hidle
  have hnot := List.any_eq_false.1 hidle k hk
  refine hnot ?_
  simp only [hkind, hscope, hcoined.scope, hlive, hunused (hissued.trans hcoined.issued), beq_self_eq_true, Option.isNone_none,
    decide_true, Bool.and_self]

theorem step_sorted (hc : c.CollisionFree) (hs : SignaturesVerify c) (h : Step c decode p a p') (hkeyed : Keyed c p.state)
    (hprudent : a.op.Prudent c a.before a.after) (hp : Kept (fun f => Sorted c f.active_contingency_leases) p) :
    Kept (fun f => Sorted c f.active_contingency_leases) p' := by
  refine step_kept hs h hkeyed ?_ (fun _ _ _ _ hsame hl => hl.redeem hsame) hp
  intro g es at_ms new hop hstocks hhealthy hleases hsorted
  rw [hop, h.1, h.2.1] at hprudent
  have hkept := hsorted.filter (at_ms < ·.expires_at_ms)
  by_cases hnew : new = []
  · simpa [hnew] using hkept
  obtain ⟨hclock, hunused, hown⟩ := hprudent (hhealthy hnew)
  have hall : ∀ {Q : ContingencyLease → Prop}, (∀ l ∈ p.state.active_contingency_leases, Q l) → (∀ l ∈ new, Q l) →
      ∀ l ∈ p.state.active_contingency_leases.filter (at_ms < ·.expires_at_ms) ++ new, Q l := by
    intro Q hold hnew l hl
    rcases List.mem_append.1 hl with hl | hl
    · exact hold l (List.mem_filter.1 hl).1
    · exact hnew l hl
  refine ⟨hall hsorted.minted fun l hl => (hstocks.coined l hl).minted,
    hall hsorted.life fun l hl => (hstocks.coined l hl).life hclock, hall hsorted.receipt fun l hl => ?_, ?_⟩
  · by_cases hold : l ∈ p.state.active_contingency_leases
    · exact hsorted.receipt l hold
    · exact hown l (by rw [hleases]; exact List.mem_append_right _ hl) hold
  · rw [List.map_append, List.nodup_append]
    refine ⟨hkept.ids, hstocks.ids hc, ?_⟩
    intro i hi j hj
    obtain ⟨k, hk, rfl⟩ := List.mem_map.1 hi
    obtain ⟨l, hl, rfl⟩ := List.mem_map.1 hj
    obtain ⟨hkmem, hlive⟩ := List.mem_filter.1 hk
    simp only [decide_eq_true_eq] at hlive
    refine hstocks.not_held hc ?_ (hsorted.minted k hkmem).named hlive (hunused k hkmem hlive) hl
    rw [observe_leases]
    exact hk

end Step

end Ambush.Governance

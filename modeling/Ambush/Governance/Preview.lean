import Ambush.Governance.Minting
/-!
# Preview and redemption

In a partition `can_act` shows the first lease that can be redeemed for an action, and
`authorize_partition_request` redeems the lease it is shown. The preview looks at the terms
only; the redemption also verifies the lease and looks it up by its id. `Agrees` says that
the two go together, and `preview_agrees` when they do.
-/
open Lib

namespace Ambush.Governance

open Consensus Policy

section Policies
variable {T : ConsensusTransport}

/-- What the preview says of an action at a clock is what the redemption does. -/
structure Agrees (c : Crypto) (decode : Value → Except String ContingencyLease) (p : GovernancePolicy T)
    (action : ResponseAction) (now_ms : Int) : Prop where
  allowed : ∀ fuel issued_at_ms p' receipt l,
    p.can_act c fuel action now_ms issued_at_ms = some (p', .Allow receipt (some l)) →
      ∀ saves request, request.action = action → request.evidence.get "contingency_lease" = some l.serialize →
        ∃ l', (p'.authorize_partition_request c decode saves request now_ms).2 = .ok (some l')
  vetoed : ∀ fuel issued_at_ms p' g reason receipt,
    p.can_act c fuel action now_ms issued_at_ms = some (p', .Veto g reason receipt) →
      ∀ l ∈ p.state.active_contingency_leases, ∀ l', l.redeem action now_ms ≠ .ok l'

/-- No other lease stands before it under its id, it is not over when it is issued, and
its receipt is its own. -/
structure Presentable (c : Crypto) (ls : List ContingencyLease) (l : ContingencyLease) : Prop where
  first : current ls l.lease_id = some l
  life : l.issued_at_ms < l.expires_at_ms
  receipt : l.OwnReceipt c

/-- With a key, the first lease that can be redeemed for the action is presentable; without
one, no lease can be redeemed for it. -/
def Ready (c : Crypto) (s : GovernanceState) (action : ResponseAction) (now_ms : Int) : Prop :=
  if s.local_governor.isSome then
    ∀ l, s.active_contingency_leases.find? (·.can_redeem action now_ms) = some l →
      Presentable c s.active_contingency_leases l
  else ∀ l ∈ s.active_contingency_leases, l.can_redeem action now_ms = false

end Policies

/-! ## The redemption of a lease that is shown -/

section Present
variable {T : ConsensusTransport} {c : Crypto} {decode : Value → Except String ContingencyLease} {p : GovernancePolicy T}
  {action : ResponseAction} {now_ms : Int} {l : ContingencyLease}

/-- Evidence with a lease that is read back is accepted exactly when the lease verifies and
is the first under its id. -/
theorem presented_lease_isOk_iff {s : GovernanceState} {evidence : Value}
    (hget : evidence.get "contingency_lease" = some l.serialize) (hdecode : decode l.serialize = .ok l) :
    (∃ index, GovernancePolicy.presented_lease c decode s evidence = .ok (index, l)) ↔
      l.verify c = .ok () ∧ current s.active_contingency_leases l.lease_id = some l := by
  constructor
  · rintro ⟨index, hok⟩
    obtain ⟨hverify, before, after, hactive, -, hfirst⟩ := presented_lease_eq_ok hok
    refine ⟨hverify, ?_⟩
    rw [hactive]
    exact current_first hfirst
  · rintro ⟨hverify, hcurrent⟩
    obtain ⟨-, before, after, hactive, hfirst⟩ := List.find?_eq_some_iff_append.1 hcurrent
    have hindex : s.active_contingency_leases.findIdx? (·.lease_id == l.lease_id) = some before.length := by
      rw [hactive, List.findIdx?_append, List.findIdx?_eq_none_iff.2 (by simpa using hfirst)]
      simp [List.findIdx?_cons]
    have hheld : s.active_contingency_leases[before.length]? = some l := by simp [hactive]
    refine ⟨before.length, ?_⟩
    simp only [GovernancePolicy.presented_lease, hget, hdecode, hverify, hindex, hheld, ne_eq, not_true_eq_false, if_false]

/-- In a partition the preview shows the first lease that can be redeemed. -/
theorem can_act_partitioned (fuel : Nat) (issued_at_ms : Int) (hdestructive : is_destructive_action action = true)
    (hpart : p.state.partition_state = .Partitioned) :
    p.can_act c fuel action now_ms issued_at_ms = some (p,
      if p.state.local_governor.isNone then
        .Veto (p.state.governing_agent_id.getD (AgentId.new "tom" "unconfigured"))
          "blocked destructive action because no governor signing key is registered" none
      else
        match preview_matching_contingency_lease p.state action now_ms with
        | some lease => .Allow (some lease.governance_receipt) (some lease)
        | none => .Veto (p.state.governing_agent_id.getD (AgentId.new "tom" "partition"))
            "blocked destructive action during partition without active contingency lease" none) := by
  unfold GovernancePolicy.can_act
  by_cases hkey : p.state.local_governor.isNone
  · simp only [hdestructive, hkey, Bool.not_true, Bool.false_eq_true, if_false, if_true]
  · simp only [hdestructive, hkey, hpart, Bool.not_true, Bool.false_eq_true, if_false, if_true]
    cases preview_matching_contingency_lease p.state action now_ms <;> rfl

/-- In a partition a lease that is shown and can be redeemed is redeemed exactly when it is
accepted as evidence. -/
theorem authorize_shown_iff (hdestructive : is_destructive_action action = true)
    (hpart : p.state.partition_state = .Partitioned) (hcan : l.can_redeem action now_ms = true)
    (hdecode : decode l.serialize = .ok l) (saves : Bool) {request : ActionRequest} (haction : request.action = action)
    (hget : request.evidence.get "contingency_lease" = some l.serialize) :
    (∃ l', (p.authorize_partition_request c decode saves request now_ms).2 = .ok (some l')) ↔
      l.verify c = .ok () ∧ current p.state.active_contingency_leases l.lease_id = some l := by
  rw [← presented_lease_isOk_iff hget hdecode]
  subst haction
  unfold GovernancePolicy.authorize_partition_request
  rw [if_neg (by simp [hdestructive]), if_neg (by simp [hpart])]
  constructor
  · rintro ⟨l', hl'⟩
    split at hl'
    · cases hl'
    · rename_i index lease hlease
      -- what evidence is read as is the lease it carries
      have hsame : lease = l := by
        unfold GovernancePolicy.presented_lease at hlease
        simp only [hget, hdecode] at hlease
        split at hlease
        · cases hlease
        · split at hlease
          · cases hlease
          · split at hlease
            · cases hlease
            · cases hlease
              rfl
      exact ⟨index, hsame ▸ hlease⟩
  · rintro ⟨index, hlease⟩
    obtain ⟨l', hredeem⟩ := ContingencyLease.redeem_iff_can_redeem.2 hcan
    rw [hlease]
    simp only [hredeem]
    exact ⟨l', rfl⟩

/-- Without a key every preview is a veto. -/
theorem agrees_keyless_iff (hkey : p.state.local_governor = none) (hpart : p.state.partition_state = .Partitioned)
    (hdestructive : is_destructive_action action = true) :
    Agrees c decode p action now_ms ↔ ∀ l ∈ p.state.active_contingency_leases, l.can_redeem action now_ms = false := by
  have hact := fun fuel issued_at_ms =>
    @can_act_partitioned T c p action now_ms fuel issued_at_ms hdestructive hpart
  simp only [hkey, Option.isNone_none, if_true] at hact
  constructor
  · intro h l hl
    by_contra hcan
    obtain ⟨l', hredeem⟩ := ContingencyLease.redeem_iff_can_redeem.2 (Bool.not_eq_false _ ▸ hcan)
    exact h.vetoed 0 0 _ _ _ _ (hact 0 0) l hl l' hredeem
  · intro h
    refine ⟨?_, ?_⟩
    · intro fuel issued_at_ms p' receipt l hallow
      rw [hact] at hallow
      cases hallow
    · intro fuel issued_at_ms p' g reason receipt _ l hl l' hredeem
      have hcan := ContingencyLease.redeem_iff_can_redeem.1 ⟨l', hredeem⟩
      rw [h l hl] at hcan
      cases hcan

/-- A veto with a key is right: the preview has looked at every lease. -/
theorem agrees_of_unmatched (hkey : p.state.local_governor.isSome = true) (hpart : p.state.partition_state = .Partitioned)
    (hdestructive : is_destructive_action action = true)
    (hnone : p.state.active_contingency_leases.find? (·.can_redeem action now_ms) = none) :
    Agrees c decode p action now_ms := by
  have hact := fun fuel issued_at_ms =>
    @can_act_partitioned T c p action now_ms fuel issued_at_ms hdestructive hpart
  have hpreview : preview_matching_contingency_lease p.state action now_ms = none := hnone
  simp only [hpreview, Option.isNone_eq_false_iff.2 hkey, Bool.false_eq_true, if_false] at hact
  refine ⟨?_, ?_⟩
  · intro fuel issued_at_ms p' receipt l hallow
    rw [hact] at hallow
    cases hallow
  · intro fuel issued_at_ms p' g reason receipt _ l hl l' hredeem
    exact List.find?_eq_none.1 hnone l hl (ContingencyLease.redeem_iff_can_redeem.1 ⟨l', hredeem⟩)

theorem agrees_shown_iff (hkey : p.state.local_governor.isSome = true) (hpart : p.state.partition_state = .Partitioned)
    (hdestructive : is_destructive_action action = true)
    (hshown : p.state.active_contingency_leases.find? (·.can_redeem action now_ms) = some l) (hminted : Minted c l)
    (hdecode : decode l.serialize = .ok l) :
    Agrees c decode p action now_ms ↔ Presentable c p.state.active_contingency_leases l := by
  have hact := fun fuel issued_at_ms =>
    @can_act_partitioned T c p action now_ms fuel issued_at_ms hdestructive hpart
  have hpreview : preview_matching_contingency_lease p.state action now_ms = some l := hshown
  simp only [hpreview, Option.isNone_eq_false_iff.2 hkey, Bool.false_eq_true, if_false] at hact
  have hcan : l.can_redeem action now_ms = true := by simpa using List.find?_some hshown
  have hredeemed := fun saves request => @authorize_shown_iff T c decode p action now_ms l hdestructive hpart hcan hdecode
    saves request
  constructor
  · intro h
    obtain ⟨hverify, hfirst⟩ := (hredeemed true (presenting l action) rfl rfl).1
      (h.allowed 0 0 _ _ _ (hact 0 0) true (presenting l action) rfl rfl)
    obtain ⟨hlife, hreceipt⟩ := hminted.verify_iff.1 hverify
    exact ⟨hfirst, hlife, hreceipt⟩
  · intro h
    refine ⟨?_, ?_⟩
    · intro fuel issued_at_ms p' receipt k hallow saves request haction hget
      rw [hact] at hallow
      cases hallow
      exact (hredeemed saves request haction hget).2 ⟨hminted.verify_iff.2 ⟨h.life, h.receipt⟩, h.first⟩
    · intro fuel issued_at_ms p' g reason receipt hveto
      rw [hact] at hveto
      cases hveto

/-- Over leases of the policy's own making, preview and redemption agree exactly where the
state is ready. -/
theorem agrees_iff_ready (hminted : ∀ l ∈ p.state.active_contingency_leases, Minted c l)
    (hdecode : ∀ l ∈ p.state.active_contingency_leases, decode l.serialize = .ok l)
    (hpart : p.state.partition_state = .Partitioned) (hdestructive : is_destructive_action action = true) :
    Agrees c decode p action now_ms ↔ Ready c p.state action now_ms := by
  by_cases hkey : p.state.local_governor.isSome = true
  · simp only [Ready, hkey, if_true]
    cases hshown : p.state.active_contingency_leases.find? (·.can_redeem action now_ms) with
    | none => exact iff_of_true (agrees_of_unmatched hkey hpart hdestructive hshown) (fun l hl => nomatch hl)
    | some l =>
      have hl := List.mem_of_find?_eq_some hshown
      rw [agrees_shown_iff hkey hpart hdestructive hshown (hminted l hl) (hdecode l hl)]
      simp
  · simp only [Ready, hkey, Bool.false_eq_true, if_false]
    exact agrees_keyless_iff (by simpa using hkey) hpart hdestructive

/-- An action that destroys nothing needs no lease. -/
theorem agrees_of_harmless (h : is_destructive_action action = false) : Agrees c decode p action now_ms := by
  have hact : ∀ fuel issued_at_ms, p.can_act c fuel action now_ms issued_at_ms = some (p, .Allow none none) := by
    intro fuel issued_at_ms
    simp [GovernancePolicy.can_act, h]
  refine ⟨?_, ?_⟩
  · intro fuel issued_at_ms p' receipt l hallow
    rw [hact] at hallow
    cases hallow
  · intro fuel issued_at_ms p' g reason receipt hveto
    rw [hact] at hveto
    cases hveto

end Present

/-! ## Every run -/

section Runs
variable {c : Crypto} {decode : Value → Except String ContingencyLease} {T : ConsensusTransport} {p : GovernancePolicy T}
  {calls : List (Call T)}

/-- A sorted state with a key is ready for every action at every clock. -/
theorem Sorted.ready {s : GovernanceState} (h : Sorted c s.active_contingency_leases) (hkey : s.local_governor.isSome = true)
    (action : ResponseAction) (now_ms : Int) : Ready c s action now_ms := by
  simp only [Ready, hkey, if_true]
  intro l hl
  have hmem := List.mem_of_find?_eq_some hl
  refine ⟨?_, h.life l hmem, h.receipt l hmem⟩
  obtain ⟨before, after, hsplit⟩ := List.append_of_mem hmem
  have hids := h.ids
  rw [hsplit, List.map_append, List.map_cons] at hids
  rw [hsplit]
  refine current_first fun k hk heq => ?_
  exact (List.nodup_append.1 hids).2.2 _ (List.mem_map_of_mem hk) _ (by simp) heq

/-- In every state a run reaches in a partition, preview and redemption agree on an action
exactly where the state is ready for it. In the runs whose observations are all prudent, a
state with a key is ready for every action at every clock. -/
theorem preview_agrees (hc : c.CollisionFree) (hs : SignaturesVerify c) (config : GovernancePolicyConfig) (persistent : Bool)
    (t : T.State) (hrun : Run (Step c decode) (.fresh config persistent t) calls p)
    (hdecode : ∀ l ∈ p.state.active_contingency_leases, decode l.serialize = .ok l)
    (hpart : p.state.partition_state = .Partitioned) :
    (∀ action now_ms, is_destructive_action action = true →
      (Agrees c decode p action now_ms ↔ Ready c p.state action now_ms)) ∧
    ((∀ a ∈ calls, a.op.Prudent c a.before a.after) → p.state.local_governor.isSome = true →
      ∀ action now_ms, Agrees c decode p action now_ms) := by
  have hkeyed₀ : Keyed c (GovernancePolicy.fresh config persistent t).state := by
    cases persistent <;> exact fun k hk => nomatch hk
  have hminted : Keyed c p.state ∧ Kept (fun f => ∀ l ∈ f.active_contingency_leases, Minted c l) p :=
    hrun.inv (I := fun q => Keyed c q.state ∧ Kept (fun f => ∀ l ∈ f.active_contingency_leases, Minted c l) q)
      (fun q a q' _ hq hstep => ⟨step_keyed hstep hq.1, step_minted hs hstep hq.1 hq.2⟩)
      ⟨hkeyed₀, fresh_kept (fun l hl => nomatch hl) config persistent t⟩
  have hready := fun action now_ms hdestructive =>
    @agrees_iff_ready T c decode p action now_ms hminted.2.state hdecode hpart hdestructive
  refine ⟨hready, ?_⟩
  intro hprudent hkey action now_ms
  have hsorted : Keyed c p.state ∧ Kept (fun f => Sorted c f.active_contingency_leases) p :=
    hrun.inv (I := fun q => Keyed c q.state ∧ Kept (fun f => Sorted c f.active_contingency_leases) q)
      (fun q a q' ha hq hstep => ⟨step_keyed hstep hq.1, step_sorted hc hs hstep hq.1 (hprudent a ha) hq.2⟩)
      ⟨hkeyed₀, fresh_kept ⟨by simp, by simp, by simp, by simp⟩ config persistent t⟩
  cases hdestructive : is_destructive_action action with
  | false => exact agrees_of_harmless hdestructive
  | true => exact (hready action now_ms hdestructive).2 (Sorted.ready hsorted.2.state hkey action now_ms)

/-- The policy the last call leaves. -/
def left (p : GovernancePolicy T) (calls : List (Call T)) : GovernancePolicy T := (calls.getLast?.map (·.after)).getD p

theorem run_left {p' : GovernancePolicy T} (h : Run (Step c decode) p calls p') : left p calls = p' := by
  induction h with
  | nil => rfl
  | @cons s t u a as hstep _ ih =>
    rw [← ih, ← hstep.2.1]
    cases as with
    | nil => rfl
    | cons b bs => simp [left, List.getLast?_cons]

/-- The preview and the redemption that follows it, tried out. -/
def agreed (c : Crypto) (decode : Value → Except String ContingencyLease) (p : GovernancePolicy T) (action : ResponseAction)
    (now_ms : Int) : Bool :=
  match p.can_act c 0 action now_ms now_ms with
  | some (p', .Allow _ (some l)) =>
    match (p'.authorize_partition_request c decode true (presenting l action) now_ms).2 with
    | .ok (some _) => true
    | _ => false
  | some (_, .Veto ..) => p.state.active_contingency_leases.all (!·.can_redeem action now_ms)
  | _ => true

theorem Agrees.agreed {action : ResponseAction} {now_ms : Int} (h : Agrees c decode p action now_ms) :
    agreed c decode p action now_ms = true := by
  unfold Governance.agreed
  split
  · rename_i p' receipt l hact
    obtain ⟨l', hl'⟩ := h.allowed 0 now_ms p' receipt l hact true (presenting l action) rfl rfl
    rw [hl']
  · rename_i p' g reason receipt hact
    refine List.all_eq_true.2 fun l hl => ?_
    by_contra hcan
    obtain ⟨l', hredeem⟩ := ContingencyLease.redeem_iff_can_redeem.2
      (by simpa using hcan : l.can_redeem action now_ms = true)
    exact h.vetoed 0 now_ms p' g reason receipt hact l hl l' hredeem
  · rfl

end Runs

theorem coded_signaturesVerify : SignaturesVerify .coded := fun _ _ => ⟨rfl, rfl, by simp [Crypto.coded, Crypto.plain]⟩

def endSession (session_id : String) : ResponseAction := .TerminateUserSession "a" session_id

/-- A lease is staged and the quorum is lost. -/
def isolated : List (Caller flaky) := [registers, observes .Healthy 0, observes .Degraded 1]

/-- The lease of session `c` is used up, and a second one staged, within one millisecond. -/
def hasty : List (Caller flaky) :=
  [registers, observes .Healthy 0, observes .Degraded 0,
    fun p => match p.state.active_contingency_leases with
      | l :: _ => (.authorize_partition_request (presenting l (endSession "c")) 0, 0, true)
      | [] => restarts p,
    observes .Healthy 0, observes .Healthy 0, observes .Degraded 0]

theorem preview_agrees_isolated :
    ∃ calls p, Run (Step .coded (decodeAmong (staged .coded isolated))) flakyPolicy calls p ∧
      p.state.active_contingency_leases.any (·.can_redeem (endSession "c") 2) = true ∧
      Agrees .coded (decodeAmong (staged .coded isolated)) p (endSession "c") 2 := by
  have hdrill : (drill .coded isolated).map (fun calls =>
      let p := left flakyPolicy calls
      (calls.all (fun a => a.op.Prudent .coded a.before a.after),
        p.state.local_governor.isSome && p.state.partition_state = .Partitioned,
        p.state.active_contingency_leases.all (fun l => (decodeAmong (staged .coded isolated) l.serialize).toOption = some l),
        p.state.active_contingency_leases.any (·.can_redeem (endSession "c") 2))) = some (true, true, true, true) := by
    decide +kernel
  obtain ⟨calls, hcalls, hout⟩ := Option.map_eq_some_iff.1 hdrill
  obtain ⟨p, hrun⟩ := replay_run hcalls
  rw [run_left hrun] at hout
  simp only [Prod.mk.injEq, List.all_eq_true, decide_eq_true_eq, Bool.and_eq_true] at hout
  obtain ⟨hprudent, ⟨hkey, hpart⟩, hread, hcan⟩ := hout
  have hdecode : ∀ l ∈ p.state.active_contingency_leases, decodeAmong (staged .coded isolated) l.serialize = .ok l := by
    intro l hl
    have hl := hread l hl
    cases hd : decodeAmong (staged .coded isolated) l.serialize with
    | error x => simp [hd, Except.toOption] at hl
    | ok k =>
      simp only [hd, Except.toOption, Option.some.injEq] at hl
      rw [hl]
  refine ⟨calls, p, hrun, hcan, ?_⟩
  exact (preview_agrees Crypto.coded_collisionFree coded_signaturesVerify {} true _ hrun hdecode hpart).2 hprudent hkey _ _

/-- A lease the preview shows is refused, in a policy that has a key, all of whose writes
succeeded and whose clock never went back; and a lease is redeemed that the preview of a
policy without a key refuses to show. -/
theorem preview_disagrees :
    (∃ calls p, Run (Step .plain (decodeAmong (staged .plain hasty))) flakyPolicy calls p ∧
      p.state.partition_state = .Partitioned ∧ p.state.local_governor.isSome = true ∧ (∀ a ∈ calls, a.saves = true) ∧
      (calls.filterMap Call.renewal).Pairwise (· ≤ ·) ∧
      ¬ Agrees .plain (decodeAmong (staged .plain hasty)) p (endSession "d") 0) ∧
    ∃ calls p, Run (Step .plain (decodeAmong (staged .plain isolated))) flakyPolicy calls p ∧
      p.state.partition_state = .Partitioned ∧ p.state.local_governor.isSome = false ∧
      ¬ Agrees .plain (decodeAmong (staged .plain isolated)) p (endSession "c") 2 := by
  have hhasty : (drill .plain hasty).map (fun calls =>
      let p := left flakyPolicy calls
      (p.state.partition_state, p.state.local_governor.isSome, calls.all (·.saves), calls.filterMap Call.renewal,
        agreed .plain (decodeAmong (staged .plain hasty)) p (endSession "d") 0)) =
      some (.Partitioned, true, true, [0, 0, 0, 0, 0], false) := by
    decide +kernel
  have hkeyless : (replay .plain (decodeAmong (staged .plain isolated)) flakyPolicy (isolated ++ [restarts])).map (fun calls =>
      let p := left flakyPolicy calls
      (p.state.partition_state, p.state.local_governor.isSome,
        agreed .plain (decodeAmong (staged .plain isolated)) p (endSession "c") 2)) = some (.Partitioned, false, false) := by
    decide +kernel
  constructor
  · obtain ⟨calls, hcalls, hout⟩ := Option.map_eq_some_iff.1 hhasty
    obtain ⟨p, hrun⟩ := replay_run hcalls
    rw [run_left hrun] at hout
    simp only [Prod.mk.injEq] at hout
    obtain ⟨hpart, hkey, hsaves, hclock, hagreed⟩ := hout
    refine ⟨calls, p, hrun, hpart, hkey, List.all_eq_true.1 hsaves, by rw [hclock]; decide, fun h => ?_⟩
    cases hagreed.symm.trans h.agreed
  · obtain ⟨calls, hcalls, hout⟩ := Option.map_eq_some_iff.1 hkeyless
    obtain ⟨p, hrun⟩ := replay_run hcalls
    rw [run_left hrun] at hout
    simp only [Prod.mk.injEq] at hout
    obtain ⟨hpart, hkey, hagreed⟩ := hout
    refine ⟨calls, p, hrun, hpart, hkey, fun h => ?_⟩
    cases hagreed.symm.trans h.agreed

end Ambush.Governance

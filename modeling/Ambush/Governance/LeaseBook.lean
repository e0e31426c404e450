import Mathlib.Data.Finset.Card
import Ambush.Governance.Calls
/-!
# The leases as a book of budgets

What a policy does to its leases, without the policy around them: it renews the list
(expired leases go, new ones come), or redeems a scope of the first lease under an id.
In every history whose renewals never go back in time, the scopes redeemed under one id
stay within the budget of that id, also when the lease is pruned and an id comes again.
-/
open Lib

namespace Ambush.Governance

open Policy

/-- What an effect makes of the leases. -/
inductive Books (c : Crypto) : List ContingencyLease → LeaseEffect → List ContingencyLease → Prop
  | keep {ls : List ContingencyLease} : Books c ls .keep ls
  | renew {ls new : List ContingencyLease} {at_ms : Int} (hnew : ∀ l ∈ new, Staged c at_ms l) :
      Books c ls (.renew at_ms) (ls.filter (at_ms < ·.expires_at_ms) ++ new)
  | redeem {before after : List ContingencyLease} {l l' : ContingencyLease} {action : ResponseAction} {now_ms : Int}
      (hlife : l.issued_at_ms < l.expires_at_ms) (hfirst : ∀ k ∈ before, k.lease_id ≠ l.lease_id)
      (hredeem : l.redeem action now_ms = .ok l') :
      Books c (before ++ l :: after) (.redeem l.lease_id (action_scope_key action)) (before ++ l' :: after)

/-- The lease that evidence with this id is compared with. -/
def current (ls : List ContingencyLease) (id : String) : Option ContingencyLease := ls.find? (·.lease_id == id)

theorem current_eq_none {ls : List ContingencyLease} {id : String} : current ls id = none ↔ ∀ l ∈ ls, l.lease_id ≠ id := by
  simp [current]

theorem current_append {ls ls' : List ContingencyLease} {id : String} :
    current (ls ++ ls') id = (current ls id).or (current ls' id) := List.find?_append

/-- The first lease under its id is the current one. -/
theorem current_first {before after : List ContingencyLease} {l : ContingencyLease}
    (h : ∀ k ∈ before, k.lease_id ≠ l.lease_id) : current (before ++ l :: after) l.lease_id = some l := by
  rw [current_append, current_eq_none.2 h]
  simp [current]

/-- A lease in the middle does not matter for the other ids. -/
theorem current_other {before after : List ContingencyLease} {l : ContingencyLease} {id : String} (h : l.lease_id ≠ id) :
    current (before ++ l :: after) id = current (before ++ after) id := by
  rw [current_append, current_append]
  simp [current, h]

/-- Pruning keeps a current lease that has not expired. -/
theorem current_filter {ls : List ContingencyLease} {id : String} {l : ContingencyLease} {at_ms : Int}
    (h : current ls id = some l) (hlive : at_ms < l.expires_at_ms) :
    current (ls.filter (at_ms < ·.expires_at_ms)) id = some l := by
  obtain ⟨hid, before, after, rfl, hfirst⟩ := List.find?_eq_some_iff_append.1 h
  have hid : l.lease_id = id := by simpa using hid
  subst hid
  rw [List.filter_append, List.filter_cons_of_pos (by simpa using hlive)]
  apply current_first
  intro k hk
  simpa using hfirst k (List.mem_filter.1 hk).1

/-! ## Accounts -/

/-- The account of an id: the last version of its lease. It has all the scopes redeemed,
within its budget, and is current or has expired at some renewal. -/
structure Account (c : Crypto) (ls : List ContingencyLease) (past : List LeaseEffect) (id : String)
    (l : ContingencyLease) : Prop where
  own : l.lease_id = id
  named : l.Named c
  life : l.issued_at_ms < l.expires_at_ms
  budget : l.InBudget
  keys : ∀ key, .redeem id key ∈ past → key ∈ l.redeemed_scopes
  standing : current ls id = some l ∨ current ls id = none ∧ ∃ at_ms, .renew at_ms ∈ past ∧ l.expires_at_ms ≤ at_ms

/-- Every lease is named by its terms and within budget, and every id redeemed has an account. -/
structure Accounted (c : Crypto) (ls : List ContingencyLease) (past : List LeaseEffect) : Prop where
  named : ∀ l ∈ ls, l.Named c
  budget : ∀ l ∈ ls, l.InBudget
  accounts : ∀ id key, .redeem id key ∈ past → ∃ l, Account c ls past id l

section Step
variable {c : Crypto} {ls new before after : List ContingencyLease} {past : List LeaseEffect} {l l' : ContingencyLease}
  {at_ms now_ms : Int} {action : ResponseAction} {id : String}

theorem Staged.inBudget (h : Staged c at_ms l) : l.InBudget := by
  refine ⟨?_, ?_⟩
  · rw [h.unused]
    exact .nil
  · simp [h.unused]

/-- No lease issued now has the id of one that is over. -/
theorem Account.not_staged (hc : c.CollisionFree) (h : Account c ls past id l) (hover : l.expires_at_ms ≤ at_ms)
    (hnew : ∀ k ∈ new, Staged c at_ms k) : current new id = none := by
  apply current_eq_none.2
  intro k hk heq
  obtain ⟨-, hissued, -⟩ := h.named.same_terms hc (hnew k hk).named (h.own.trans heq.symm)
  have := (hnew k hk).issued
  have := h.life
  omega

theorem Account.renew (hc : c.CollisionFree) (hnamed : ∀ k ∈ ls, k.Named c) (h : Account c ls past id l)
    (hnew : ∀ k ∈ new, Staged c at_ms k) (hclock : ∀ t, .renew t ∈ past → t ≤ at_ms) :
    Account c (ls.filter (at_ms < ·.expires_at_ms) ++ new) (past ++ [.renew at_ms]) id l := by
  refine ⟨h.own, h.named, h.life, h.budget, fun key hkey => h.keys key (by simpa using hkey), ?_⟩
  rw [current_append]
  by_cases hlive : at_ms < l.expires_at_ms
  · -- a lease that is over had expired at an earlier renewal already
    have hcurrent : current ls id = some l := by
      rcases h.standing with hcur | ⟨-, t, ht, hexp⟩
      · exact hcur
      · have := hclock t ht
        omega
    exact .inl (by simp [current_filter hcurrent hlive])
  · -- whatever has the id has its expiry, so pruning leaves none
    have hgone : current (ls.filter (at_ms < ·.expires_at_ms)) id = none := by
      apply current_eq_none.2
      intro k hk heq
      obtain ⟨hk, hkexp⟩ := List.mem_filter.1 hk
      obtain ⟨-, -, hexp⟩ := h.named.same_terms hc (hnamed k hk) (h.own.trans heq.symm)
      simp only [decide_eq_true_eq] at hkexp
      omega
    refine .inr ⟨?_, at_ms, by simp, Int.not_lt.1 hlive⟩
    rw [hgone, h.not_staged hc (Int.not_lt.1 hlive) hnew]
    rfl

theorem Accounted.renew (hc : c.CollisionFree) (h : Accounted c ls past) (hnew : ∀ k ∈ new, Staged c at_ms k)
    (hclock : ∀ t, .renew t ∈ past → t ≤ at_ms) :
    Accounted c (ls.filter (at_ms < ·.expires_at_ms) ++ new) (past ++ [.renew at_ms]) := by
  refine ⟨?_, ?_, ?_⟩
  · intro k hk
    rcases List.mem_append.1 hk with hk | hk
    · exact h.named k (List.mem_filter.1 hk).1
    · exact (hnew k hk).named
  · intro k hk
    rcases List.mem_append.1 hk with hk | hk
    · exact h.budget k (List.mem_filter.1 hk).1
    · exact (hnew k hk).inBudget
  · intro id key hkey
    obtain ⟨l, hl⟩ := h.accounts id key (by simpa using hkey)
    exact ⟨l, hl.renew hc h.named hnew hclock⟩

/-- The account of another id is not touched by a redemption. -/
theorem Account.redeem_other {key : String} (h : Account c (before ++ l :: after) past id l') (hne : l.lease_id ≠ id)
    {k : ContingencyLease} (hk : k.lease_id = l.lease_id) :
    Account c (before ++ k :: after) (past ++ [.redeem l.lease_id key]) id l' := by
  refine ⟨h.own, h.named, h.life, h.budget, ?_, ?_⟩
  · intro key' hkey
    have hmem : LeaseEffect.redeem id key' ∈ past := by simpa [Ne.symm hne] using hkey
    exact h.keys key' hmem
  · rw [current_other (hk ▸ hne), ← current_other hne]
    rcases h.standing with hcur | ⟨hnone, t, ht, hexp⟩
    · exact .inl hcur
    · exact .inr ⟨hnone, t, by simp [ht], hexp⟩

/-- The current lease, with its redemption, is the account of its id. -/
theorem Accounted.redeem_own (h : Accounted c (before ++ l :: after) past) (hlife : l.issued_at_ms < l.expires_at_ms)
    (hfirst : ∀ k ∈ before, k.lease_id ≠ l.lease_id) (hredeem : l.redeem action now_ms = .ok l') :
    Account c (before ++ l' :: after) (past ++ [.redeem l.lease_id (action_scope_key action)]) l.lease_id l' := by
  have hsame := ContingencyLease.redeem_eq hredeem
  have hid : l'.lease_id = l.lease_id := by rw [hsame]
  have hl : l ∈ before ++ l :: after := by simp
  refine ⟨hid, ?_, ?_, (h.budget l hl).redeem hredeem, ?_, .inl (hid ▸ current_first (hid ▸ hfirst))⟩
  · rw [hsame]
    exact h.named l hl
  · rw [hsame]
    exact hlife
  · intro key hkey
    rcases List.mem_append.1 hkey with hkey | hkey
    · -- the account so far is the current lease, whose scopes stay
      obtain ⟨k, hk⟩ := h.accounts _ key hkey
      have hcur : current (before ++ l :: after) l.lease_id = some l := current_first hfirst
      rcases hk.standing with hk' | ⟨hnone, -⟩
      · cases hk'.symm.trans hcur
        exact ContingencyLease.redeemed_subset_of_redeem hredeem (hk.keys key hkey)
      · cases hnone.symm.trans hcur
    · obtain ⟨-, rfl⟩ := LeaseEffect.redeem.inj (List.mem_singleton.1 hkey)
      exact ContingencyLease.mem_redeemed_of_redeem hredeem

theorem Accounted.redeem (h : Accounted c (before ++ l :: after) past) (hlife : l.issued_at_ms < l.expires_at_ms)
    (hfirst : ∀ k ∈ before, k.lease_id ≠ l.lease_id) (hredeem : l.redeem action now_ms = .ok l') :
    Accounted c (before ++ l' :: after) (past ++ [.redeem l.lease_id (action_scope_key action)]) := by
  have hown := h.redeem_own hlife hfirst hredeem
  have hmem : ∀ k ∈ before ++ l' :: after, k ∈ before ++ l :: after ∨ k = l' := by
    intro k hk
    rcases List.mem_append.1 hk with hk | hk
    · exact .inl (List.mem_append_left _ hk)
    · rcases List.mem_cons.1 hk with rfl | hk
      · exact .inr rfl
      · exact .inl (List.mem_append_right _ (List.mem_cons_of_mem _ hk))
  refine ⟨?_, ?_, ?_⟩
  · intro k hk
    rcases hmem k hk with hk | rfl
    · exact h.named k hk
    · exact hown.named
  · intro k hk
    rcases hmem k hk with hk | rfl
    · exact h.budget k hk
    · exact hown.budget
  · intro id key hkey
    by_cases hid : l.lease_id = id
    · exact ⟨l', hid ▸ hown⟩
    · obtain ⟨k, hk⟩ := h.accounts id key (by simpa [Ne.symm hid] using hkey)
      exact ⟨k, hk.redeem_other hid hown.own⟩

theorem Accounted.keep (h : Accounted c ls past) : Accounted c ls (past ++ [.keep]) := by
  refine ⟨h.named, h.budget, ?_⟩
  intro id key hkey
  obtain ⟨l, hl⟩ := h.accounts id key (by simpa using hkey)
  refine ⟨l, hl.own, hl.named, hl.life, hl.budget, fun key hkey => hl.keys key (by simpa using hkey), ?_⟩
  rcases hl.standing with hcur | ⟨hnone, t, ht, hexp⟩
  · exact .inl hcur
  · exact .inr ⟨hnone, t, by simp [ht], hexp⟩

end Step

/-! ## Histories -/

section Runs
variable {c : Crypto} {ls : List ContingencyLease} {past effects : List LeaseEffect}

def renewal : LeaseEffect → Option Int
  | .renew at_ms => some at_ms
  | _ => none

/-- The history never goes back in time. -/
def Forward (effects : List LeaseEffect) : Prop := (effects.filterMap renewal).Pairwise (· ≤ ·)

def redemption (id : String) : LeaseEffect → Option String
  | .redeem lease_id key => if lease_id = id then some key else none
  | _ => none

/-- The scopes redeemed under an id, each counted once. -/
def redeemed (id : String) (effects : List LeaseEffect) : Finset String := (effects.filterMap (redemption id)).toFinset

@[simp] theorem mem_redeemed {id key : String} : key ∈ redeemed id effects ↔ .redeem id key ∈ effects := by
  simp only [redeemed, List.mem_toFinset, List.mem_filterMap]
  constructor
  · rintro ⟨e, he, hkey⟩
    cases e with
    | keep => cases hkey
    | renew at_ms => cases hkey
    | redeem lease_id key' =>
      simp only [redemption, Option.ite_none_right_eq_some, Option.some.injEq] at hkey
      obtain ⟨rfl, rfl⟩ := hkey
      exact he
  · intro he
    exact ⟨_, he, by simp [redemption]⟩

theorem Forward.of_append {e : LeaseEffect} (h : Forward (past ++ [e])) : Forward past := by
  unfold Forward at h
  rw [List.filterMap_append] at h
  exact (List.pairwise_append.1 h).1

theorem Forward.le {at_ms t : Int} (h : Forward (past ++ [.renew at_ms])) (ht : .renew t ∈ past) : t ≤ at_ms := by
  unfold Forward at h
  rw [List.filterMap_append] at h
  exact (List.pairwise_append.1 h).2.2 t (List.mem_filterMap.2 ⟨_, ht, rfl⟩) at_ms (by simp [renewal])

/-- Every history that never goes back in time is accounted for. -/
theorem books_accounted (hc : c.CollisionFree) (hrun : Run (Books c) [] effects ls) (hforward : Forward effects) :
    Accounted c ls effects := by
  have hstep : ∀ ls past e ls', e ∈ effects → (Forward past → Accounted c ls past) → Books c ls e ls' →
      Forward (past ++ [e]) → Accounted c ls' (past ++ [e]) := by
    intro ls past e ls' _ hprev hbooks hforward
    have h := hprev hforward.of_append
    cases hbooks with
    | keep => exact h.keep
    | renew hnew => exact h.renew hc hnew fun t ht => hforward.le ht
    | redeem hlife hfirst hredeem => exact h.redeem hlife hfirst hredeem
  have h := Run.inv_past hrun [] hstep fun _ => ⟨by simp, by simp, by simp⟩
  exact h hforward

/-- Under one id no more scopes are redeemed than the budget of its leases. -/
theorem Accounted.card_redeemed_le (hc : c.CollisionFree) (h : Accounted c ls effects) {l : ContingencyLease}
    (hl : l.Named c) : (redeemed l.lease_id effects).card ≤ l.blast_radius_cap := by
  rcases (redeemed l.lease_id effects).eq_empty_or_nonempty with hempty | ⟨key, hkey⟩
  · simp [hempty]
  obtain ⟨k, hk⟩ := h.accounts _ key (mem_redeemed.1 hkey)
  have hsub : redeemed l.lease_id effects ⊆ k.redeemed_scopes.toFinset := by
    intro key hkey
    exact List.mem_toFinset.2 (hk.keys key (mem_redeemed.1 hkey))
  calc (redeemed l.lease_id effects).card
      ≤ k.redeemed_scopes.toFinset.card := Finset.card_le_card hsub
    _ ≤ k.redeemed_scopes.length := List.toFinset_card_le _
    _ ≤ k.blast_radius_cap := hk.budget.length_le
    _ = l.blast_radius_cap := (hk.named.same_terms hc hl hk.own).1

end Runs
end Ambush.Governance

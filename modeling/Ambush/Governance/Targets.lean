import Mathlib.Data.Finset.Card
import Ambush.Lib.Coding
import Ambush.Lib.Runs
import Ambush.Governance.Lease
/-!
# Scope keys and real targets

The blast-radius cap counts scope keys. For the kinds that act on something on a host
the key joins the host and the identifier with a colon, so keys count targets only as
long as no two actions split one key at different colons.
-/
open Lib

namespace Ambush.Governance

open Policy

/-- What an action acts on: the host and the identifier as separate fields, or the one
field its kind has. -/
def target : ResponseAction → List String
  | .BlockEgress target => [target]
  | .IsolateHost host_id => [host_id]
  | .RevokeCredential credential_id => [credential_id]
  | .SinkholeDns domain => [domain]
  | .TerminateUserSession host_id session_id => [host_id, session_id]
  | .TriggerEdrScan host_id _ => [host_id]
  | .InjectFirewallRule host_id rule_name _ _ _ => [host_id, rule_name]
  | .QuarantineFile host_id file_path => [host_id, file_path]
  | .KillProcess host_id process_name | .SuspendProcess host_id process_name => [host_id, process_name]
  | .DisableUserAccount user_id | .ForcePasswordReset user_id => [user_id]
  | .RemoveScheduledTask host_id task_name => [host_id, task_name]
  | .DeployDecoy _ target_zone => [target_zone]
  | .Escalate _ _ => []

/-- One host is the other one, a colon and a text that the other identifier starts with,
up to a colon: `("a:b", "c")` and `("a", "b:c")`. -/
def Collide (a b : ResponseAction) : Prop :=
  ∃ h i h' i', target a = [h, i] ∧ target b = [h', i'] ∧ (Straddles ":" h i h' i' ∨ Straddles ":" h' i' h i)

/-- The key of an action is its target's fields, joined by a colon. -/
theorem action_scope_key_eq (a : ResponseAction) : action_scope_key a =
    match target a with
    | [h, i] => h ++ ":" ++ i
    | [x] => x
    | _ => "unscoped:escalate" := by
  cases a <;> rfl

theorem target_length_of_kind {a b : ResponseAction} (h : a.kind = b.kind) : (target a).length = (target b).length := by
  cases a <;> cases b <;> first | rfl | (exact absurd h (by simp [ResponseAction.kind]))

/-- For actions of one kind, equal keys mean equal targets unless the two collide. -/
theorem key_eq_iff {a b : ResponseAction} (hk : a.kind = b.kind) :
    action_scope_key a = action_scope_key b ↔ target a = target b ∨ Collide a b := by
  have hlen := target_length_of_kind hk
  rw [action_scope_key_eq, action_scope_key_eq]
  rcases ha : target a with _ | ⟨x, _ | ⟨y, _ | ⟨z, l⟩⟩⟩ <;> rcases hb : target b with _ | ⟨x', _ | ⟨y', _ | ⟨z', l'⟩⟩⟩ <;>
    simp only [ha, hb, List.length_cons, List.length_nil] at hlen <;> try omega
  · simp
  · simp [Collide, ha]
  · rw [show (":" : String) = String.singleton ':' from rfl, joined_eq_iff]
    simp [Collide, ha, hb]
  · cases a <;> simp [target] at ha

/-- Colliding actions have different targets. -/
theorem Collide.target_ne {a b : ResponseAction} (h : Collide a b) : target a ≠ target b := by
  obtain ⟨h, i, h', i', ha, hb, hs⟩ := h
  rw [ha, hb]
  intro heq
  simp only [List.cons.injEq, and_true] at heq
  obtain ⟨rfl, rfl⟩ := heq
  rcases hs with ⟨w, hw, -⟩ | ⟨w, hw, -⟩ <;>
  · have := congrArg String.utf8ByteSize hw
    simp only [String.utf8ByteSize_append] at this
    have h1 : (":" : String).utf8ByteSize = 1 := by decide
    omega

/-! ## Sequences of redemptions -/

/-- A successful `redeem` call at a clock. -/
def Redeems (l : ContingencyLease) (call : ResponseAction × Int) (l' : ContingencyLease) : Prop :=
  l.redeem call.1 call.2 = .ok l'

/-- What holds of a lease after the redemptions `past`, of the terms it started with: it
is within its cap, and every key used is one of its scopes. -/
structure Spent (l₀ l : ContingencyLease) (past : List (ResponseAction × Int)) : Prop where
  kind : l.action_kind = l₀.action_kind
  cap : l.blast_radius_cap = l₀.blast_radius_cap
  length_le : l.redeemed_scopes.length ≤ l₀.blast_radius_cap
  kinds : ∀ call ∈ past, call.1.kind = l₀.action_kind
  keys : ∀ call ∈ past, action_scope_key call.1 ∈ l.redeemed_scopes

theorem Spent.redeem {l₀ l l' : ContingencyLease} {past : List (ResponseAction × Int)} {call : ResponseAction × Int}
    (h : Spent l₀ l past) (hr : Redeems l call l') : Spent l₀ l' (past ++ [call]) := by
  have hsub := ContingencyLease.redeemed_subset_of_redeem hr
  have hmem := ContingencyLease.mem_redeemed_of_redeem hr
  obtain ⟨hm, -, hcase⟩ := ContingencyLease.redeem_cases hr
  have hkind : call.1.kind = l₀.action_kind := by
    simp only [lease_matches_action, Bool.and_eq_true, beq_iff_eq] at hm
    exact hm.1.symm.trans h.kind
  refine ⟨?_, ?_, ?_, ?_, ?_⟩
  · rcases hcase with ⟨-, rfl⟩ | ⟨-, -, rfl⟩ <;> exact h.kind
  · rcases hcase with ⟨-, rfl⟩ | ⟨-, -, rfl⟩ <;> exact h.cap
  · rcases hcase with ⟨-, rfl⟩ | ⟨-, hlt, rfl⟩
    · exact h.length_le
    · rw [h.cap] at hlt
      simpa [ContingencyLease.push, Nat.succ_le_iff] using hlt
  · intro x hx
    rcases List.mem_append.1 hx with hx | hx
    · exact h.kinds x hx
    · rw [List.mem_singleton.1 hx]
      exact hkind
  · intro x hx
    rcases List.mem_append.1 hx with hx | hx
    · exact hsub (h.keys x hx)
    · rw [List.mem_singleton.1 hx]
      exact hmem

theorem run_spent {l l' : ContingencyLease} {calls : List (ResponseAction × Int)} (hrun : Run Redeems l calls l')
    (hl : l.redeemed_scopes.length ≤ l.blast_radius_cap) : Spent l l' calls := by
  have h0 : Spent l l [] := ⟨rfl, rfl, hl, by simp, by simp⟩
  simpa using hrun.inv_past [] (fun _ _ _ _ _ h hr => h.redeem hr) h0

/-- Where one value determines another, there are no more of the second. -/
theorem card_image_le_card_image {α β γ : Type} [DecidableEq β] [DecidableEq γ] {s : Finset α} {f : α → β} {g : α → γ}
    (h : ∀ a ∈ s, ∀ b ∈ s, g a = g b → f a = f b) : (s.image f).card ≤ (s.image g).card := by
  let pairs := s.image fun a => (g a, f a)
  have hfst : pairs.image Prod.fst = s.image g := by simp [pairs, Finset.image_image, Function.comp_def]
  have hsnd : pairs.image Prod.snd = s.image f := by simp [pairs, Finset.image_image, Function.comp_def]
  have hinj : Set.InjOn Prod.fst (pairs : Set (γ × β)) := by
    intro x hx y hy hxy
    obtain ⟨a, ha, rfl⟩ := Finset.mem_image.1 (Finset.mem_coe.1 hx)
    obtain ⟨b, hb, rfl⟩ := Finset.mem_image.1 (Finset.mem_coe.1 hy)
    exact Prod.ext hxy (h a ha b hb hxy)
  calc (s.image f).card = (pairs.image Prod.snd).card := by rw [hsnd]
    _ ≤ pairs.card := Finset.card_image_le
    _ = (pairs.image Prod.fst).card := (Finset.card_image_of_injOn hinj).symm
    _ = (s.image g).card := by rw [hfst]

/-- The targets acted on, each counted once. -/
def targets (calls : List (ResponseAction × Int)) : Finset (List String) := (calls.map (fun call => target call.1)).toFinset

/-- Redemptions without a collision act on at most as many targets as the cap allows. -/
theorem card_targets_le {l l' : ContingencyLease} {calls : List (ResponseAction × Int)}
    (hl : l.redeemed_scopes.length ≤ l.blast_radius_cap) (hrun : Run Redeems l calls l')
    (hcalls : ∀ x ∈ calls, ∀ y ∈ calls, x.1.kind = y.1.kind → ¬ Collide x.1 y.1) :
    (targets calls).card ≤ l.blast_radius_cap := by
  have hs := run_spent hrun hl
  have hdet : ∀ x ∈ calls.toFinset, ∀ y ∈ calls.toFinset,
      action_scope_key x.1 = action_scope_key y.1 → target x.1 = target y.1 := by
    intro x hx y hy heq
    rw [List.mem_toFinset] at hx hy
    have hkind : x.1.kind = y.1.kind := (hs.kinds x hx).trans (hs.kinds y hy).symm
    exact ((key_eq_iff hkind).1 heq).resolve_right (hcalls x hx y hy hkind)
  have hkeys : calls.toFinset.image (fun call => action_scope_key call.1) ⊆ l'.redeemed_scopes.toFinset := by
    intro k hk
    obtain ⟨call, hcall, rfl⟩ := Finset.mem_image.1 hk
    exact List.mem_toFinset.2 (hs.keys call (List.mem_toFinset.1 hcall))
  calc (targets calls).card = (calls.toFinset.image fun call => target call.1).card := by
        rw [targets]; congr 1; ext x; simp
    _ ≤ (calls.toFinset.image fun call => action_scope_key call.1).card := card_image_le_card_image hdet
    _ ≤ l'.redeemed_scopes.toFinset.card := Finset.card_le_card hkeys
    _ ≤ l'.redeemed_scopes.length := List.toFinset_card_le _
    _ ≤ l.blast_radius_cap := hs.length_le

/-- A lease for one scope of any kind. -/
def oneScope (kind : String) : ContingencyLease := { sessionLease "k" with action_kind := kind }

/-- Two colliding actions are both redeemed under a lease for one scope. -/
theorem redeem_collide {a b : ResponseAction} (hk : a.kind = b.kind) (h : Collide a b) :
    Run Redeems (oneScope a.kind) [(a, 0), (b, 0)] ((oneScope a.kind).push (action_scope_key a)) := by
  have hkey : action_scope_key b = action_scope_key a := ((key_eq_iff hk).2 (.inr h)).symm
  have hfirst : Redeems (oneScope a.kind) (a, 0) ((oneScope a.kind).push (action_scope_key a)) := by
    have hcan : (oneScope a.kind).can_redeem a 0 = true := by
      apply lease_can_redeem_iff.2
      refine ⟨?_, ?_, .inr ?_⟩ <;> simp [lease_matches_action, ContingencyLease.terms, oneScope, sessionLease]
    obtain ⟨l', hredeem⟩ := ContingencyLease.redeem_iff_can_redeem.2 hcan
    obtain ⟨-, -, ⟨hmem, -⟩ | ⟨-, -, rfl⟩⟩ := ContingencyLease.redeem_cases hredeem
    · cases hmem
    · exact hredeem
  have hsecond : Redeems ((oneScope a.kind).push (action_scope_key a)) (b, 0)
      ((oneScope a.kind).push (action_scope_key a)) := by
    have hmem : action_scope_key b ∈ ((oneScope a.kind).push (action_scope_key a)).redeemed_scopes := by
      rw [hkey]
      simp [ContingencyLease.push]
    have hcan : ((oneScope a.kind).push (action_scope_key a)).can_redeem b 0 = true := by
      apply lease_can_redeem_iff.2
      refine ⟨?_, by simp [ContingencyLease.terms, ContingencyLease.push, oneScope, sessionLease], .inl hmem⟩
      simp [lease_matches_action, ContingencyLease.terms, ContingencyLease.push, oneScope, sessionLease, hk]
    obtain ⟨l', hredeem⟩ := ContingencyLease.redeem_iff_can_redeem.2 hcan
    obtain ⟨-, -, ⟨-, rfl⟩ | ⟨hnot, -, -⟩⟩ := ContingencyLease.redeem_cases hredeem
    · exact hredeem
    · exact absurd hmem hnot
  exact .cons hfirst (.single hsecond)

/-- For every set of actions: the cap counts targets, and a key stands for one target,
exactly when no two actions of the set collide. -/
theorem keys_count_targets_iff (actions : Set ResponseAction) :
    ((∀ (l l' : ContingencyLease) (calls : List (ResponseAction × Int)),
      l.redeemed_scopes.length ≤ l.blast_radius_cap → Run Redeems l calls l' → (∀ call ∈ calls, call.1 ∈ actions) →
      (targets calls).card ≤ l.blast_radius_cap) ↔
        ∀ a ∈ actions, ∀ b ∈ actions, a.kind = b.kind → ¬ Collide a b) ∧
    ((∀ a ∈ actions, ∀ b ∈ actions, a.kind = b.kind → action_scope_key a = action_scope_key b → target a = target b) ↔
      ∀ a ∈ actions, ∀ b ∈ actions, a.kind = b.kind → ¬ Collide a b) := by
  refine ⟨⟨?_, ?_⟩, ⟨?_, ?_⟩⟩
  · intro hcap a ha b hb hk hcollide
    have hle := hcap _ _ _ (by simp [oneScope, sessionLease]) (redeem_collide hk hcollide) (by simp [ha, hb])
    have htwo : (targets [(a, 0), (b, 0)]).card = 2 := by simp [targets, hcollide.target_ne]
    simp [htwo, oneScope, sessionLease] at hle
  · intro hnone l l' calls hl hrun hcalls
    exact card_targets_le hl hrun fun x hx y hy => hnone x.1 (hcalls x hx) y.1 (hcalls y hy)
  · intro hkeys a ha b hb hk hcollide
    exact hcollide.target_ne (hkeys a ha b hb hk ((key_eq_iff hk).2 (.inr hcollide)))
  · intro hnone a ha b hb hk heq
    exact ((key_eq_iff hk).1 heq).resolve_right (hnone a ha b hb hk)

/-- A request to end a session. -/
def sessionRequest (host_id session_id : String) : ActionRequest :=
  ⟨"hunt", "pouncer-1", .TerminateUserSession host_id session_id, .High, .object []⟩

/-- One key for session `c` on host `a:b` and session `b:c` on host `a`: both requests
are valid, and a lease for one scope is redeemed for both. -/
theorem one_scope_two_targets :
    validate_request (sessionRequest "a:b" "c") = .ok () ∧ validate_request (sessionRequest "a" "b:c") = .ok () ∧
    (sessionLease "k").redeem (.TerminateUserSession "a:b" "c") 1 = .ok ((sessionLease "k").push "a:b:c") ∧
    ((sessionLease "k").push "a:b:c").redeem (.TerminateUserSession "a" "b:c") 2 = .ok ((sessionLease "k").push "a:b:c") ∧
    (sessionLease "k").blast_radius_cap <
      (targets [(.TerminateUserSession "a:b" "c", 1), (.TerminateUserSession "a" "b:c", 2)]).card := by
  decide +kernel

end Ambush.Governance

import Ambush.Core.Coding
import Ambush.Governance.Calls
/-!
# One chain of receipts

A round builds its receipt on the head the state holds and moves the head. `can_act` and
`attest_release` leave the moved head in memory, so a restart can find an older one in the
file and build on it again. While every restart finds the head it left, all receipts ever
issued are one chain (`one_receipt_chain`).
-/
open Lib Relation

namespace Ambush.Governance

open Consensus Policy

/-! ## Hashes -/

/-- A commit hash is built on one hash only. -/
theorem extends_leftUnique {c : Crypto} (hc : c.CollisionFree) : Relator.LeftUnique (Extends c) := by
  rintro h h' _ ⟨height, round, p, rfl⟩ ⟨height', round', p', heq⟩
  have halike := hc _ _ heq
  simp only [Value.Alike, Value.AlikeFields] at halike
  exact halike.2.2.2.2.2.1

/-! ## Every call, every run -/

section Runs
variable {T : ConsensusTransport} {c : Crypto} {decode : Value → Except String ContingencyLease}
  {p p' : GovernancePolicy T}

/-- The call is no restart, or a restart that finds in the file the head it leaves. -/
def Call.resumes (a : Call T) : Bool :=
  match a.op with
  | .reload _ _ =>
    a.before.persistence.all fun file => file.load.previous_commit_hash == a.before.state.previous_commit_hash
  | _ => true

/-- The receipts of a call lead from the head before it to the head after it. -/
theorem step_linked {a : Call T} (h : Step c decode p a p') (hresumes : a.resumes = true) :
    Chained c p.state.previous_commit_hash (issued a.before a.op a.reply a.after) p'.state.previous_commit_hash := by
  have hperformed := h.performed
  obtain ⟨op, fuel, saves, reply, before, after⟩ := a
  obtain ⟨rfl, rfl, -⟩ := h
  dsimp only at hperformed ⊢
  cases hperformed with
  | idle t _ hissued _ =>
    rw [hissued]
    exact .nil
  | keys hkeys hown =>
    rw [hkeys]
    rcases hown with ⟨g, key, rfl⟩ | ⟨⟨peer, rfl⟩, -⟩
    · exact .nil
    · exact .nil
  | observed t hstages =>
    rw [issued_observed hstages, ← observe_head]
    exact hstages.linked
  | issued t _ hadv hissued =>
    rw [hissued]
    exact hadv.linked
  | refused hop _ _ =>
    rcases hop with rfl | ⟨reason, rfl⟩
    · exact .nil
    · exact .nil
  | redeemed => exact .nil
  | @reloaded config file t hfile =>
    -- nothing is issued, and the head read back is the head left
    have hhead : file.load.previous_commit_hash = before.state.previous_commit_hash := by simpa [Call.resumes, hfile] using hresumes
    rw [← hhead]
    exact .nil

theorem run_linked {calls : List (Call T)} (h : Run (Step c decode) p calls p') (hresumes : ∀ a ∈ calls, a.resumes = true) :
    Chained c p.state.previous_commit_hash (receipts calls) p'.state.previous_commit_hash := by
  induction h with
  | nil => exact .nil
  | cons hstep _ ih =>
    have hrest := ih fun a ha => hresumes a (List.mem_cons_of_mem _ ha)
    exact (step_linked hstep (hresumes _ (by simp))).append hrest

/-- In every run whose restarts find the head they left, no two receipts are built on the
same hash, and each is built on the one issued before it. -/
theorem one_receipt_chain (hc : c.CollisionFree) (config : GovernancePolicyConfig) (file : GovernancePersistence) (t : T.State)
    (hfile : ¬ TransGen (Extends c) file.load.previous_commit_hash file.load.previous_commit_hash)
    {calls : List (Call T)} (hrun : Run (Step c decode) (.with_persistence config file t) calls p')
    (hresumes : ∀ a ∈ calls, a.resumes = true) :
    ((receipts calls).map (·.payload.previous_commit_hash)).Nodup ∧
      (receipts calls).IsChain fun r r' => r'.payload.previous_commit_hash = r.payload.commit_hash := by
  have hlinked := run_linked hrun hresumes
  refine ⟨hlinked.nodup ?_, hlinked.isChain⟩
  intro h hreached
  exact not_transGen_of_reachable (extends_leftUnique hc) hfile hreached

end Runs

/-! ## A restart between two receipts -/

/-- A policy over a path where there is no file yet. -/
def freshPolicy : GovernancePolicy solo := .with_persistence {} ⟨none⟩ ⟨[], 0⟩

/-- Register key `k`, and ask for an action. -/
def asking (at_ms : Int) : List (Caller solo) :=
  [fun _ => (.register_governor "tom-1" "k", 0, true),
    fun _ => (.can_act (.TerminateUserSession "a" "c") at_ms at_ms, 3, true)]

/-- Ask, restart over the same file, ask again. `between` is done before the restart. -/
def askingTwice (between : List (Caller solo)) : List (Caller solo) :=
  asking 0 ++ between ++ [fun _ => (.reload {} ⟨[], 0⟩, 0, true)] ++ asking 1

/-- The name of the first head is no digest. -/
theorem coded_bootstrap : ¬ TransGen (Extends .coded) "governance-bootstrap" "governance-bootstrap" := by
  intro h
  obtain ⟨_, -, height, round, p, heq⟩ := TransGen.tail'_iff.1 h
  have hstart : "governance-bootstrap" = String.singleton 'g' ++ "overnance-bootstrap" := by decide
  rw [hstart, commit_hash, Crypto.coded] at heq
  unfold Value.code at heq
  exact absurd (singleton_append_inj heq).1 (by simp [Value.tag])

/-- Registering the key again saves the head, and the restart finds it. -/
theorem one_receipt_chain_saved :
    ∃ calls p', Run (Step .coded (decodeAmong [])) freshPolicy calls p' ∧ (receipts calls).length = 2 ∧
      ((receipts calls).map (·.payload.previous_commit_hash)).Nodup ∧
      (receipts calls).IsChain fun r r' => r'.payload.previous_commit_hash = r.payload.commit_hash := by
  have hreplay : (replay .coded (decodeAmong []) freshPolicy (askingTwice [fun _ => (.register_governor "tom-1" "k", 0, true)])).map
      (fun calls => ((receipts calls).length, calls.all (·.resumes))) = some (2, true) := by decide +kernel
  obtain ⟨calls, hcalls, hout⟩ := Option.map_eq_some_iff.1 hreplay
  obtain ⟨hlength, hresumes⟩ := Prod.mk.inj hout
  obtain ⟨p', hrun⟩ := replay_run hcalls
  have hchain := one_receipt_chain Crypto.coded_collisionFree {} ⟨none⟩ _ coded_bootstrap hrun (List.all_eq_true.1 hresumes)
  exact ⟨calls, p', hrun, hlength, hchain⟩

/-- Every save succeeds, and two receipts are built on the same hash. -/
theorem restart_forks_receipts :
    ∃ calls p', Run (Step .plain (decodeAmong [])) freshPolicy calls p' ∧ (∀ a ∈ calls, a.saves = true) ∧
      (receipts calls).map (·.payload.previous_commit_hash) = ["governance-bootstrap", "governance-bootstrap"] := by
  have hreplay : (replay .plain (decodeAmong []) freshPolicy (askingTwice [])).map
      (fun calls => (calls.all (·.saves), (receipts calls).map (·.payload.previous_commit_hash))) =
        some (true, ["governance-bootstrap", "governance-bootstrap"]) := by decide +kernel
  obtain ⟨calls, hcalls, hout⟩ := Option.map_eq_some_iff.1 hreplay
  obtain ⟨hsaves, hforked⟩ := Prod.mk.inj hout
  obtain ⟨p', hrun⟩ := replay_run hcalls
  exact ⟨calls, p', hrun, List.all_eq_true.1 hsaves, hforked⟩

end Ambush.Governance

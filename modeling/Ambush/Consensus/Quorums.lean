import Ambush.Lib.Quorum
import Ambush.Consensus.Committee
/-!
# The committees the code builds, and their quorums

`recommended_max_faulty` sizes `f` as `(n - 1) / 3` and the threshold is `2f + 1`. Two
quorums share more than `f` members exactly when `n = 3f + 1`.
-/
open Lib

namespace Ambush.Consensus
namespace ConsensusCommittee

/-- The members as a set. -/
def roster (k : ConsensusCommittee) : Finset AgentId := k.members.toFinset

theorem mem_roster {k : ConsensusCommittee} {a : AgentId} : a ∈ k.roster ↔ a ∈ k.members := List.mem_toFinset

theorem card_roster (k : ConsensusCommittee) : k.roster.card = k.members.length := List.toFinset_card_of_nodup k.nodup

/-- A committee of `3f + 1` members. -/
def FullSize (k : ConsensusCommittee) : Prop := k.members.length = 3 * k.max_faulty + 1

instance (k : ConsensusCommittee) : Decidable k.FullSize := inferInstanceAs (Decidable (_ = _))

/-- Two quorums of a committee of `3f + 1` share a member outside any `f` of them. -/
theorem FullSize.exists_common {k : ConsensusCommittee} (hk : k.FullSize) {A B F : Finset AgentId}
    (hA : A ⊆ k.roster) (hB : B ⊆ k.roster) (htA : k.threshold ≤ A.card) (htB : k.threshold ≤ B.card)
    (hF : F.card ≤ k.max_faulty) : ∃ x, x ∈ A ∧ x ∈ B ∧ x ∉ F := by
  refine exists_mem_quorums_not_mem hA hB htA htB ?_ hF
  rw [card_roster, hk, k.threshold_eq]
  omega

theorem deduped_perm {members : List AgentId} (h : members.Nodup) : (deduped members).Perm members :=
  (List.perm_ext_iff_of_nodup ((sorted_deduped members).imp (fun h => ne_of_lt h)) h).2 (fun _ => mem_deduped)

/-- Distinct members of any number a `usize` can count make a committee of their own size. -/
theorem new_recommended (c : Crypto) (members : List AgentId) (hne : members ≠ []) (hd : members.Nodup)
    (hlen : members.length ≤ u64Max) :
    ∃ k, new c members (recommended_max_faulty members.length) = .ok k ∧ k.members.length = members.length ∧
      k.max_faulty = (members.length - 1) / 3 := by
  have hf : recommended_max_faulty members.length = (members.length - 1) / 3 := by
    unfold recommended_max_faulty
    split <;> omega
  have hpos : 0 < members.length := List.length_pos_iff.2 hne
  have ht : threshold_for ((members.length - 1) / 3) = some (2 * ((members.length - 1) / 3) + 1) := by
    unfold threshold_for checkedMul checkedAdd
    rw [if_pos (by omega), Option.bind_some, if_pos (by omega)]
    congr 1; omega
  have hl := (deduped_perm hd).length_eq
  unfold new
  rw [hf, if_neg (by simpa using hne)]
  split
  · rename_i hnone
    rw [ht] at hnone; cases hnone
  · rename_i t hsome
    rw [ht] at hsome
    cases hsome
    rw [dif_neg (by omega)]
    exact ⟨_, rfl, hl, rfl⟩

/-- Two quorums share more than `max_faulty` members, and a quorum is left when
`max_faulty` are excluded. -/
def Tolerates (k : ConsensusCommittee) : Prop :=
  QuorumsMeet k.roster k.threshold k.max_faulty ∧
    ∀ X, X ⊆ k.roster → X.card = k.max_faulty → k.threshold ≤ (k.roster \ X).card

theorem tolerates_iff (k : ConsensusCommittee) (hf : k.max_faulty = (k.members.length - 1) / 3) :
    k.Tolerates ↔ k.members.length % 3 = 1 := by
  have hle : k.threshold ≤ k.roster.card := by rw [card_roster]; exact k.threshold_le
  have ht := k.threshold_eq
  unfold Tolerates
  rw [quorumsMeet_iff _ hle, card_roster]
  rw [card_roster] at hle
  constructor
  · rintro ⟨h, -⟩
    omega
  · intro h
    refine ⟨by omega, fun X hX hcard => ?_⟩
    rw [Finset.card_sdiff_of_subset hX, card_roster, hcard]
    omega

/-- Of the committees sized by `recommended_max_faulty`, those of `3f + 1` members
tolerate `f` faults and no others do. -/
theorem recommended_tolerates_iff (c : Crypto) (members : List AgentId) (hne : members ≠ []) (hd : members.Nodup)
    (hlen : members.length ≤ u64Max) :
    ∃ k, new c members (recommended_max_faulty members.length) = .ok k ∧
      (k.Tolerates ↔ members.length % 3 = 1) := by
  obtain ⟨k, hk, hl, hf⟩ := new_recommended c _ hne hd hlen
  refine ⟨k, hk, ?_⟩
  rw [← hl]
  exact tolerates_iff k (by rw [hf, hl])

theorem recommended_tolerates_iff_four :
    ∃ k, new .plain ["a", "b", "c", "d"] (recommended_max_faulty 4) = .ok k ∧ (k.Tolerates ↔ 4 % 3 = 1) :=
  recommended_tolerates_iff .plain ["a", "b", "c", "d"] (by decide) (by decide) (by decide)

/-- Five members get `f = 1` and a threshold of 3, and two quorums may share one member only. -/
theorem five_members_not_tolerates :
    ∃ k, new .plain ["a", "b", "c", "d", "e"] (recommended_max_faulty 5) = .ok k ∧ ¬ k.Tolerates := by
  obtain ⟨k, hk, hl, hf⟩ := new_recommended .plain ["a", "b", "c", "d", "e"] (by decide) (by decide)
    (by decide)
  refine ⟨k, hk, ?_⟩
  rw [tolerates_iff k (by rw [hf, hl]), hl]
  decide

end ConsensusCommittee
end Ambush.Consensus

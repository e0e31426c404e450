import Mathlib.Data.Finset.Card
import Mathlib.Tactic.Common
/-!
# Quorums

Sets of at least `t` out of a finite population. When twice the quorum size exceeds the
population by more than `k`, two quorums share more than `k` elements, so `k` traitors
cannot cover what they share. The bound is exact.
-/
namespace Lib

variable {α : Type} [DecidableEq α]

/-- Any two subsets of `U` with `t` elements share more than `k`. -/
def QuorumsMeet (U : Finset α) (t k : Nat) : Prop :=
  ∀ A B, A ⊆ U → B ⊆ U → A.card = t → B.card = t → k < (A ∩ B).card

theorem card_inter_of_quorums {U A B : Finset α} {t k : Nat} (hA : A ⊆ U) (hB : B ⊆ U) (htA : t ≤ A.card)
    (htB : t ≤ B.card) (h : U.card + k < 2 * t) : k < (A ∩ B).card := by
  have hunion := Finset.card_le_card (Finset.union_subset hA hB)
  have hsum := Finset.card_union_add_card_inter A B
  omega

/-- Two quorums share an element outside any set of at most `k`. -/
theorem exists_mem_quorums_not_mem {U A B F : Finset α} {t k : Nat} (hA : A ⊆ U) (hB : B ⊆ U) (htA : t ≤ A.card)
    (htB : t ≤ B.card) (h : U.card + k < 2 * t) (hF : F.card ≤ k) : ∃ x, x ∈ A ∧ x ∈ B ∧ x ∉ F := by
  have hk := card_inter_of_quorums hA hB htA htB h
  obtain ⟨x, hx, hxF⟩ := Finset.exists_mem_notMem_of_card_lt_card (lt_of_le_of_lt hF hk)
  exact ⟨x, (Finset.mem_inter.1 hx).1, (Finset.mem_inter.1 hx).2, hxF⟩

/-- Two subsets with `t` elements can be chosen to share as little as counting allows. -/
theorem exists_quorums_card_inter (U : Finset α) {t : Nat} (ht : t ≤ U.card) :
    ∃ A B, A ⊆ U ∧ B ⊆ U ∧ A.card = t ∧ B.card = t ∧ (A ∩ B).card = 2 * t - U.card := by
  obtain ⟨A, hA, hAt⟩ := Finset.exists_subset_card_eq ht
  have hrest : (U \ A).card = U.card - t := by rw [Finset.card_sdiff_of_subset hA, hAt]
  rcases Nat.le_total t (U.card - t) with hle | hle
  · -- a second quorum fits outside the first
    obtain ⟨B, hB, hBt⟩ := Finset.exists_subset_card_eq (hrest ▸ hle)
    refine ⟨A, B, hA, hB.trans Finset.sdiff_subset, hAt, hBt, ?_⟩
    have hdisj : A ∩ B = ∅ :=
      Finset.disjoint_iff_inter_eq_empty.1 (Finset.disjoint_of_subset_right hB Finset.disjoint_sdiff)
    rw [hdisj, Finset.card_empty]
    omega
  · -- the second quorum takes everything outside the first and the rest from it
    obtain ⟨A', hA', hAt'⟩ := Finset.exists_subset_card_eq (s := A) (n := t - (U.card - t)) (by omega)
    have hdisj : Disjoint (U \ A) A' := Finset.disjoint_of_subset_right hA' Finset.sdiff_disjoint
    refine ⟨A, (U \ A) ∪ A', hA, Finset.union_subset Finset.sdiff_subset (hA'.trans hA), hAt, ?_, ?_⟩
    · rw [Finset.card_union_of_disjoint hdisj, hrest, hAt']
      omega
    · rw [Finset.inter_union_distrib_left, Finset.inter_sdiff_self, Finset.empty_union,
        Finset.inter_eq_right.2 hA', hAt']
      omega

theorem quorumsMeet_iff (U : Finset α) {t k : Nat} (ht : t ≤ U.card) : QuorumsMeet U t k ↔ U.card + k < 2 * t := by
  constructor
  · intro h
    obtain ⟨A, B, hA, hB, hAt, hBt, hAB⟩ := exists_quorums_card_inter U ht
    have := h A B hA hB hAt hBt
    omega
  · intro h A B hA hB hAt hBt
    exact card_inter_of_quorums hA hB hAt.ge hBt.ge h

end Lib

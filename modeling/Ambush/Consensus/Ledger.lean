import Mathlib.Data.Finset.Card
import Ambush.Lib.Maps
import Ambush.Consensus.Messages
/-!
# Vote ledgers

`VoteLedger` keeps each round's votes twice, by voter and by value. `Wf` says the two
maps describe one relation; `record_vote` and `remove_voter` keep it, and under it
`count` is the number of voters whose recorded choice is the value.
-/
open Lib

namespace Ambush.Consensus

structure VoteLedger where
  by_agent : Map AgentId (Option String) := .empty
  by_value : Map (Option String) (Finset AgentId) := .empty

namespace VoteLedger

def count (l : VoteLedger) (proposal_id : Option String) : Nat :=
  match l.by_value proposal_id with
  | some voters => voters.card
  | none => 0

def record_vote (l : VoteLedger) (voter : AgentId) (proposal_id : Option String) :
    VoteLedger × Except ConsensusError Nat :=
  match l.by_agent voter with
  | some existing =>
    if existing = proposal_id then (l, .ok (l.count proposal_id))
    else (l, .error (.InvalidMessage ("agent `" ++ voter ++ "` cast conflicting votes in the same round")))
  | none =>
    let l' : VoteLedger := {
      by_agent := l.by_agent.insert voter proposal_id
      by_value := l.by_value.insert proposal_id (insert voter ((l.by_value proposal_id).getD ∅)) }
    (l', .ok (l'.count proposal_id))

def remove_voter (l : VoteLedger) (voter : AgentId) : VoteLedger :=
  match l.by_agent voter with
  | none => l
  | some choice =>
    let by_agent := l.by_agent.remove voter
    match l.by_value choice with
    | none => { l with by_agent }
    | some voters =>
      if voters.erase voter = ∅ then { by_agent, by_value := l.by_value.remove choice }
      else { by_agent, by_value := l.by_value.insert choice (voters.erase voter) }

/-! ## The two maps agree -/

/-- The voters recorded for a value. -/
def voters (l : VoteLedger) (proposal_id : Option String) : Finset AgentId := (l.by_value proposal_id).getD ∅

/-- A voter stands under a value exactly when that is its recorded choice, and no
value keeps an empty set. -/
structure Wf (l : VoteLedger) : Prop where
  agree : ∀ a v, a ∈ l.voters v ↔ l.by_agent a = some v
  nonempty : ∀ v, l.by_value v ≠ some ∅

theorem count_eq (l : VoteLedger) (v : Option String) : l.count v = (l.voters v).card := by
  unfold count voters
  cases l.by_value v <;> simp

theorem wf_empty : Wf {} where
  agree := by simp [voters]
  nonempty := by simp

/-- The voters under each value after a vote. -/
theorem record_vote_voters (l : VoteLedger) (a : AgentId) (v w : Option String) :
    (l.record_vote a v).1.voters w =
      if w = v ∧ l.by_agent a = none then insert a (l.voters v) else l.voters w := by
  unfold record_vote
  cases ha : l.by_agent a with
  | some x => simp only; split <;> simp
  | none => by_cases hw : w = v <;> simp [voters, Map.insert_apply, hw]

/-- What `record_vote` leaves at each voter: the first vote stands. -/
theorem record_vote_by_agent (l : VoteLedger) (a b : AgentId) (v : Option String) :
    (l.record_vote a v).1.by_agent b =
      if b = a ∧ l.by_agent a = none then some v else l.by_agent b := by
  unfold record_vote
  split
  · split <;> simp_all
  · by_cases hb : b = a
    · subst hb; simp_all
    · simp [Map.insert_ne _ _ _ _ hb, hb]

theorem record_vote_error {l : VoteLedger} {a : AgentId} {v : Option String} {e : ConsensusError}
    (h : (l.record_vote a v).2 = .error e) : ∃ w, l.by_agent a = some w ∧ w ≠ v ∧ (l.record_vote a v).1 = l := by
  unfold record_vote at h ⊢
  cases ha : l.by_agent a with
  | none => simp [ha] at h
  | some w =>
    simp only [ha] at h ⊢
    by_cases hw : w = v
    · simp [hw] at h
    · exact ⟨w, rfl, hw, by simp [hw]⟩

/-- An accepted vote is the voter's recorded choice, and the returned number is the tally. -/
theorem record_vote_ok {l : VoteLedger} {a : AgentId} {v : Option String} {n : Nat}
    (h : (l.record_vote a v).2 = .ok n) :
    (l.record_vote a v).1.by_agent a = some v ∧ n = (l.record_vote a v).1.count v := by
  unfold record_vote at h ⊢
  cases ha : l.by_agent a with
  | none =>
    simp only [ha, Except.ok.injEq] at h ⊢
    exact ⟨by simp, h.symm⟩
  | some w =>
    simp only [ha] at h ⊢
    by_cases hw : w = v
    · simp only [hw, if_true, Except.ok.injEq] at h ⊢
      exact ⟨by rw [ha, hw], h.symm⟩
    · simp [hw] at h

theorem wf_record_vote {l : VoteLedger} (h : l.Wf) (a : AgentId) (v : Option String) : (l.record_vote a v).1.Wf := by
  refine ⟨fun b w => ?_, fun w => ?_⟩
  · rw [record_vote_voters, record_vote_by_agent]
    by_cases ha : l.by_agent a = none
    · -- a first vote: only `a`'s entry and `v`'s set change
      have hbw := h.agree b w
      by_cases hba : b = a
      · subst hba
        rw [ha] at hbw
        by_cases hwv : w = v
        · simp [hwv, ha]
        · simp [hwv, Ne.symm hwv, ha, hbw]
      · by_cases hwv : w = v
        · subst hwv; simp [ha, hba, hbw]
        · simp [hwv, hba, hbw]
    · simp [ha, h.agree b w]
  · unfold record_vote
    cases ha : l.by_agent a with
    | some x => simp only; split <;> exact h.nonempty w
    | none =>
      simp only [Map.insert_apply]
      split
      · simp
      · exact h.nonempty w

theorem remove_voter_by_agent (l : VoteLedger) (a b : AgentId) :
    (l.remove_voter a).by_agent b = if b = a then none else l.by_agent b := by
  unfold remove_voter
  cases ha : l.by_agent a with
  | none =>
    by_cases hb : b = a
    · rw [if_pos hb, hb]; exact ha
    · simp [hb]
  | some v =>
    simp only
    split
    · simp [Map.remove_apply]
    · split <;> simp [Map.remove_apply]

/-- Removing a voter takes it out of every value's set and leaves the rest. -/
theorem remove_voter_voters {l : VoteLedger} (h : l.Wf) (a : AgentId) (w : Option String) :
    (l.remove_voter a).voters w = (l.voters w).erase a := by
  unfold remove_voter
  cases ha : l.by_agent a with
  | none =>
    have : a ∉ l.voters w := by rw [h.agree, ha]; simp
    exact (Finset.erase_eq_of_notMem this).symm
  | some v =>
    have hother : w ≠ v → a ∉ l.voters w := by
      intro hw; rw [h.agree, ha]; simpa using hw.symm
    simp only
    split
    · rename_i hv
      have hmem := (h.agree a v).2 ha
      simp [voters, hv] at hmem
    · rename_i held hv
      by_cases hw : w = v
      · subst hw
        split
        · rename_i hempty; simp [voters, hv, hempty]
        · simp [voters, hv]
      · rw [Finset.erase_eq_of_notMem (hother hw)]
        split
        · simp [voters, Map.remove_apply, hw]
        · simp [voters, Map.insert_apply, hw]

theorem wf_remove_voter {l : VoteLedger} (h : l.Wf) (a : AgentId) : (l.remove_voter a).Wf := by
  refine ⟨fun b w => ?_, fun w => ?_⟩
  · rw [remove_voter_voters h, remove_voter_by_agent, Finset.mem_erase, h.agree]
    by_cases hb : b = a <;> simp [hb]
  · unfold remove_voter
    cases ha : l.by_agent a with
    | none => exact h.nonempty w
    | some v =>
      simp only
      split
      · exact h.nonempty w
      · split
        · simp only [Map.remove_apply]
          split
          · simp
          · exact h.nonempty w
        · rename_i hne
          simp only [Map.insert_apply]
          split
          · simpa using hne
          · exact h.nonempty w

/-! ## Any sequence of calls -/

/-- A call of the ledger. -/
inductive Call where
  | record_vote (voter : AgentId) (proposal_id : Option String)
  | remove_voter (voter : AgentId)

def call (l : VoteLedger) : Call → VoteLedger
  | .record_vote voter proposal_id => (l.record_vote voter proposal_id).1
  | .remove_voter voter => l.remove_voter voter

/-- The ledger after these calls. -/
def after (calls : List Call) : VoteLedger := calls.foldl call {}

theorem Wf.call {l : VoteLedger} (h : l.Wf) (c : Call) : (l.call c).Wf := by
  cases c with
  | record_vote voter proposal_id => exact wf_record_vote h voter proposal_id
  | remove_voter voter => exact wf_remove_voter h voter

theorem wf_after (calls : List Call) : (after calls).Wf := by
  have hfold : ∀ (calls : List Call) (l : VoteLedger), l.Wf → (calls.foldl VoteLedger.call l).Wf := by
    intro calls
    induction calls with
    | nil => exact fun l h => h
    | cons c calls ih => exact fun l h => ih (l.call c) (h.call c)
  exact hfold calls {} wf_empty

theorem mem_voters_iff {l : VoteLedger} {a : AgentId} {v : Option String} :
    a ∈ l.voters v ↔ ∃ voters, l.by_value v = some voters ∧ a ∈ voters := by
  unfold voters
  cases l.by_value v with
  | none => simp
  | some held => simp

theorem record_vote_error_iff {l : VoteLedger} {a : AgentId} {v : Option String} :
    (∃ e, (l.record_vote a v).2 = .error e) ↔ ∃ w, l.by_agent a = some w ∧ w ≠ v := by
  constructor
  · rintro ⟨e, he⟩
    obtain ⟨w, hw, hne, -⟩ := record_vote_error he
    exact ⟨w, hw, hne⟩
  · rintro ⟨w, hw, hne⟩
    unfold record_vote
    rw [hw]
    dsimp only
    rw [if_neg hne]
    exact ⟨_, rfl⟩

/-- After any calls the two maps are one relation, in which a voter has at most one choice, and `count` counts it. A vote is refused
when the voter has another choice, and then both maps stay as they are. -/
theorem ledger_one_relation (calls : List Call) :
    (∀ a v, (∃ voters, (after calls).by_value v = some voters ∧ a ∈ voters) ↔ (after calls).by_agent a = some v) ∧
    (∀ v voters, (after calls).by_value v = some voters → voters.Nonempty) ∧
    (∀ a v w s t, (after calls).by_value v = some s → a ∈ s → (after calls).by_value w = some t → a ∈ t → v = w) ∧
    (∀ v, ∃ s : Finset AgentId, (∀ a, a ∈ s ↔ (after calls).by_agent a = some v) ∧ (after calls).count v = s.card) ∧
    (∀ a v, (∃ e, ((after calls).record_vote a v).2 = .error e) ↔ ∃ w, (after calls).by_agent a = some w ∧ w ≠ v) ∧
    ∀ a v e, ((after calls).record_vote a v).2 = .error e → ((after calls).record_vote a v).1 = after calls := by
  have hwf := wf_after calls
  have hagree : ∀ a v, (∃ voters, (after calls).by_value v = some voters ∧ a ∈ voters) ↔ (after calls).by_agent a = some v :=
    fun a v => mem_voters_iff.symm.trans (hwf.agree a v)
  refine ⟨hagree, fun v voters hv => ?_, fun a v w s t hv hs hw ht => ?_, fun v => ?_, fun a v => record_vote_error_iff,
    fun a v e he => ?_⟩
  · rw [Finset.nonempty_iff_ne_empty]
    rintro rfl
    exact hwf.nonempty v hv
  · have hchoice := (hagree a v).1 ⟨s, hv, hs⟩
    rw [(hagree a w).1 ⟨t, hw, ht⟩] at hchoice
    exact (Option.some.inj hchoice).symm
  · exact ⟨(after calls).voters v, fun a => hwf.agree a v, count_eq _ v⟩
  · obtain ⟨-, -, -, hsame⟩ := record_vote_error he
    exact hsame

end VoteLedger
end Ambush.Consensus

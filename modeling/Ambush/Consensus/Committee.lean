import Mathlib.Data.List.Sort
import Mathlib.Data.String.Basic
import Ambush.Core.Signing
import Ambush.Lib.Ints
/-!
# Committees

`ConsensusCommittee::new` sorts and deduplicates its members and fixes the threshold
at `2f + 1`. Its fields are private and nothing else builds one, so the facts it
establishes are fields of the structure.
-/
open Lib

namespace Ambush.Consensus

inductive ConsensusError where
  | InvalidCommittee (text : String)
  | InvalidMessage (text : String)
  | Encode (text : String)
  | Crypto (text : String)
  | SigningUnavailable (agent : AgentId)
  | Transport (text : String)
  deriving DecidableEq

/-- The `Display` text of an error. -/
def ConsensusError.text : ConsensusError → String
  | .InvalidCommittee t => "invalid consensus committee: " ++ t
  | .InvalidMessage t => "invalid consensus message: " ++ t
  | .Encode t => "failed to encode consensus payload: " ++ t
  | .Crypto t => "failed to canonicalize consensus payload: " ++ t
  | .SigningUnavailable a => "local node `" ++ a ++ "` cannot issue signed receipts without a signing key"
  | .Transport t => "consensus transport failed: " ++ t

def recommended_max_faulty (committee_size : Nat) : Nat :=
  if committee_size ≤ 1 then 0 else (committee_size - 1) / 3

/-- `Vec::dedup`: drop each element equal to the one after it. -/
def dedup : List AgentId → List AgentId
  | [] => []
  | [a] => [a]
  | a :: b :: l => if a = b then dedup (b :: l) else a :: dedup (b :: l)

structure ConsensusCommittee where
  members : List AgentId
  max_faulty : Nat
  threshold : Nat
  committee_id : String
  sorted : members.Pairwise (· < ·)
  threshold_eq : threshold = 2 * max_faulty + 1
  threshold_le : threshold ≤ members.length
  deriving DecidableEq

/-! ## Sorting and deduplication -/

theorem mem_dedup {a : AgentId} {l : List AgentId} : a ∈ dedup l ↔ a ∈ l := by
  induction l using dedup.induct with
  | case1 => simp [dedup]
  | case2 b => simp [dedup]
  | case3 b l ih => simp [dedup, ih]
  | case4 b c l hne ih => simp [dedup, hne, ih]

/-- Deduplicating a sorted list leaves it strictly increasing. -/
theorem sorted_dedup {l : List AgentId} (h : l.Pairwise (· ≤ ·)) : (dedup l).Pairwise (· < ·) := by
  induction l using dedup.induct with
  | case1 => simp [dedup]
  | case2 b => simp [dedup]
  | case3 b l ih =>
    simp only [dedup, if_true]
    exact ih (List.pairwise_cons.1 h).2
  | case4 b c l hne ih =>
    obtain ⟨hb, hl⟩ := List.pairwise_cons.1 h
    simp only [dedup, if_neg hne, List.pairwise_cons]
    refine ⟨fun x hx => ?_, ih hl⟩
    -- everything after `b` is at least `c`, and `b` is strictly below `c`
    have hbc : b < c := lt_of_le_of_ne (hb c (by simp)) hne
    rcases List.mem_cons.1 (mem_dedup.1 hx) with rfl | hx
    · exact hbc
    · exact lt_of_lt_of_le hbc ((List.pairwise_cons.1 hl).1 x hx)

/-! ## The committee -/

namespace ConsensusCommittee

/-- The members in `ConsensusCommittee::new`, sorted and without repetition. -/
def deduped (members : List AgentId) : List AgentId := dedup (members.insertionSort (· ≤ ·))

theorem sorted_deduped (members : List AgentId) : (deduped members).Pairwise (· < ·) :=
  sorted_dedup (members.pairwise_insertionSort (· ≤ ·))

theorem mem_deduped {a : AgentId} {members : List AgentId} : a ∈ deduped members ↔ a ∈ members := by
  unfold deduped
  rw [mem_dedup, List.mem_insertionSort]

/-- `max_faulty.checked_mul(2).and_then(|value| value.checked_add(1))`. -/
def threshold_for (max_faulty : Nat) : Option Nat := (checkedMul max_faulty 2).bind (checkedAdd · 1)

theorem threshold_for_eq_some {f t : Nat} (h : threshold_for f = some t) : t = 2 * f + 1 := by
  obtain ⟨m, hm, ht⟩ := Option.bind_eq_some_iff.1 h
  rw [checkedAdd_eq_some ht, checkedMul_eq_some hm]
  omega

def new (c : Crypto) (members : List AgentId) (max_faulty : Nat) : Except ConsensusError ConsensusCommittee :=
  if members.isEmpty then .error (.InvalidCommittee "committee must contain at least one member")
  else
    match h : threshold_for max_faulty with
    | none => .error (.InvalidCommittee "fault tolerance threshold overflowed usize")
    | some threshold =>
      if hlen : (deduped members).length < threshold then
        .error (.InvalidCommittee ("committee size " ++ toString (deduped members).length ++
          " cannot satisfy 2f+1 threshold " ++ toString threshold))
      else .ok {
        members := deduped members
        max_faulty, threshold
        committee_id := c.digest (.object [("max_faulty", .integer max_faulty),
          ("members", .array ((deduped members).map .string))])
        sorted := sorted_deduped members
        threshold_eq := threshold_for_eq_some h
        threshold_le := not_lt.1 hlen }

/-- `members` is sorted, so the source's binary search is membership. -/
def contains (k : ConsensusCommittee) (agent_id : AgentId) : Bool := decide (agent_id ∈ k.members)

/-- The score `proposer_for` ranks a member by. -/
def score (c : Crypto) (previous_commit_hash : String) (round : Nat) (agent_id : AgentId) : String :=
  c.digest (.object [("agent_id", .string agent_id), ("previous_commit_hash", .string previous_commit_hash),
    ("round", .integer round)])

/-- One pass of the source's loop: the first member with the highest score wins. -/
def better (c : Crypto) (previous_commit_hash : String) (round : Nat) (best : Option (AgentId × String))
    (agent_id : AgentId) : Option (AgentId × String) :=
  let score := score c previous_commit_hash round agent_id
  match best with
  | none => some (agent_id, score)
  | some (held, current) => if current < score then some (agent_id, score) else some (held, current)

def proposer_for (c : Crypto) (k : ConsensusCommittee) (previous_commit_hash : String) (round : Nat) :
    Except ConsensusError AgentId :=
  match k.members.foldl (better c previous_commit_hash round) none with
  | some (agent_id, _) => .ok agent_id
  | none => .error (.InvalidCommittee "committee must contain at least one member")

theorem nodup (k : ConsensusCommittee) : k.members.Nodup := k.sorted.imp (fun h => ne_of_lt h)

theorem threshold_pos (k : ConsensusCommittee) : 0 < k.threshold := by rw [k.threshold_eq]; omega

end ConsensusCommittee
end Ambush.Consensus

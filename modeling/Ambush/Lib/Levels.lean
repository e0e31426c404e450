import Mathlib.Algebra.Group.Nat.Defs
import Mathlib.Data.List.Induction
import Mathlib.Tactic.SplitIfs
/-!
# Pairing level by level

A list is brought to one value by pairing neighbours until one is left; an odd last value is
carried up as it is. This is the same as splitting the list at the largest power of two below
its length and combining what the two parts come to.
-/
namespace Lib

section
variable {α : Type} (node : α → α → α)

/-- One level up. -/
def pair_up : List α → List α
  | [] => []
  | [a] => [a]
  | a :: b :: rest => node a b :: pair_up rest

theorem length_pair_up : ∀ l : List α, (pair_up node l).length = (l.length + 1) / 2
  | [] => by simp [pair_up]
  | [_] => by simp [pair_up]
  | a :: b :: rest => by
    rw [pair_up, List.length_cons, length_pair_up rest, List.length_cons, List.length_cons]
    omega

/-- A value of the level above is made of the two below it, or of the last one alone. -/
theorem getElem?_pair_up : ∀ (l : List α) (i : Nat), (pair_up node l)[i]? =
    match l[2 * i]?, l[2 * i + 1]? with
    | some a, some b => some (node a b)
    | some a, none => some a
    | none, _ => none
  | [], i => by simp [pair_up]
  | [a], 0 => rfl
  | [a], i + 1 => by simp [pair_up, Nat.mul_add]
  | a :: b :: rest, 0 => rfl
  | a :: b :: rest, i + 1 => by
    rw [pair_up, List.getElem?_cons_succ, getElem?_pair_up rest i, Nat.mul_add, Nat.mul_one]
    rfl

/-- Pairing an even part does not look at what follows. -/
theorem pair_up_append {l : List α} (r : List α) (h : l.length % 2 = 0) :
    pair_up node (l ++ r) = pair_up node l ++ pair_up node r := by
  match l with
  | [] => rfl
  | [a] => simp at h
  | a :: b :: rest =>
    have hrest : rest.length % 2 = 0 := by
      rw [List.length_cons, List.length_cons] at h
      omega
    rw [List.cons_append, List.cons_append, pair_up, pair_up, List.cons_append, pair_up_append r hrest]

/-- The levels above a list, from the next to the last. -/
def climb (l : List α) : List (List α) :=
  if 1 < l.length then pair_up node l :: climb (pair_up node l) else []
termination_by l.length
decreasing_by
  rw [length_pair_up]
  omega

/-- What is left at the last level. -/
def top (l : List α) : Option α := ((l :: climb node l).getLast?).bind List.head?

theorem top_of_one_lt {l : List α} (h : 1 < l.length) : top node l = top node (pair_up node l) := by
  unfold top
  rw [climb, if_pos h, List.getLast?_cons_cons]

theorem top_singleton (a : α) : top node [a] = some a := by
  unfold top
  rw [climb, if_neg (by simp)]
  rfl

/-- Induction from a level to the one below it. -/
theorem level_induction {P : List α → Prop} (one : ∀ a, P [a]) (up : ∀ l, 1 < l.length → P (pair_up node l) → P l)
    (l : List α) (h : l ≠ []) : P l := by
  induction hn : l.length using Nat.strongRecOn generalizing l with
  | _ n ih =>
    by_cases hone : 1 < l.length
    · refine up l hone (ih _ ?_ _ ?_ rfl)
      · rw [length_pair_up]
        omega
      · intro hnil
        have hlen := length_pair_up node l
        rw [hnil, List.length_nil] at hlen
        omega
    · match l with
      | [] => exact absurd rfl h
      | [a] => exact one a
      | _ :: _ :: _ => simp at hone

/-! ## Splitting at a power of two -/

/-- The doublings of a power below a bound. -/
def double_below (n power : Nat) : Nat :=
  if 0 < power ∧ 2 * power < n then double_below n (2 * power) else power
termination_by n - power

/-- A power of two that is below `n`, and whose double is not. -/
def IsSplit (n k : Nat) : Prop := (∃ e, k = 2 ^ e) ∧ k < n ∧ n ≤ 2 * k

theorem double_below_isSplit {n power : Nat} (hpow : ∃ e, power = 2 ^ e) (hlt : power < n) : IsSplit n (double_below n power) := by
  fun_induction double_below n power with
  | case1 power h ih =>
    obtain ⟨e, rfl⟩ := hpow
    exact ih ⟨e + 1, by rw [Nat.pow_succ, Nat.mul_comm]⟩ h.2
  | case2 power h =>
    obtain ⟨e, rfl⟩ := hpow
    have hpos : 0 < 2 ^ e := Nat.two_pow_pos e
    exact ⟨⟨e, rfl⟩, hlt, by omega⟩

theorem IsSplit.unique {n k k' : Nat} (h : IsSplit n k) (h' : IsSplit n k') : k = k' := by
  obtain ⟨⟨e, rfl⟩, hlt, hle⟩ := h
  obtain ⟨⟨e', rfl⟩, hlt', hle'⟩ := h'
  have hee : e < e' + 1 := (Nat.pow_lt_pow_iff_right (a := 2) (by decide)).1 (by rw [Nat.pow_succ]; omega)
  have hee' : e' < e + 1 := (Nat.pow_lt_pow_iff_right (a := 2) (by decide)).1 (by rw [Nat.pow_succ]; omega)
  rw [show e = e' by omega]

/-- The split of the level above is half of the split. -/
theorem IsSplit.half {n k : Nat} (h : IsSplit n k) (hn : 2 < n) : IsSplit ((n + 1) / 2) (k / 2) ∧ k % 2 = 0 := by
  obtain ⟨⟨e, rfl⟩, hlt, hle⟩ := h
  cases e with
  | zero => omega
  | succ e =>
    rw [Nat.pow_succ] at *
    exact ⟨⟨⟨e, by omega⟩, by omega, by omega⟩, by omega⟩

/-- The largest power of two below a number. -/
def largest_power_of_two_less_than (n : Nat) : Nat := double_below n 1

theorem largest_isSplit {n : Nat} (h : 1 < n) : IsSplit n (largest_power_of_two_less_than n) :=
  double_below_isSplit ⟨0, rfl⟩ h

variable (zero : α)

/-- The list split at the largest power of two below its length, and so on down. -/
def split_fold (l : List α) : α :=
  match l with
  | [] => zero
  | [a] => a
  | a :: b :: rest =>
    let split := largest_power_of_two_less_than (a :: b :: rest).length
    node (split_fold ((a :: b :: rest).take split)) (split_fold ((a :: b :: rest).drop split))
termination_by l.length
decreasing_by
  all_goals
    have hsplit : IsSplit (a :: b :: rest).length (largest_power_of_two_less_than (a :: b :: rest).length) :=
      largest_isSplit (by simp)
    obtain ⟨⟨e, he⟩, hlt, -⟩ := hsplit
    have hpos : 0 < 2 ^ e := Nat.two_pow_pos e
    rw [← he] at hpos
    simp only [List.length_take, List.length_drop] at *
    omega

theorem split_fold_eq {l : List α} {k : Nat} (h : IsSplit l.length k) :
    split_fold node zero l =
      node (split_fold node zero (l.take k)) (split_fold node zero (l.drop k)) := by
  match l with
  | [] => exact absurd h.2.1 (Nat.not_lt_zero _)
  | [a] =>
    obtain ⟨⟨e, rfl⟩, hlt, -⟩ := h
    have hpos : 0 < 2 ^ e := Nat.two_pow_pos e
    simp at hlt
  | a :: b :: rest =>
    have hsplit : IsSplit (a :: b :: rest).length (largest_power_of_two_less_than (a :: b :: rest).length) :=
      largest_isSplit (by simp)
    rw [split_fold, hsplit.unique h]

/-- Pairing the level up changes nothing of the value of the list. -/
theorem split_fold_pair_up (l : List α) : split_fold node zero (pair_up node l) = split_fold node zero l := by
  induction hn : l.length using Nat.strongRecOn generalizing l with
  | _ n ih =>
    match l with
    | [] => rfl
    | [a] => rfl
    | [a, b] =>
      have hsplit : IsSplit [a, b].length 1 := ⟨⟨0, rfl⟩, by simp, by simp⟩
      rw [split_fold_eq node zero hsplit]
      simp [pair_up, split_fold]
    | a :: b :: d :: rest =>
      -- the two parts are even and not empty, so each is paired by itself
      generalize hl : a :: b :: d :: rest = l at hn ⊢
      have hlen : 2 < l.length := by rw [← hl]; simp
      have hsplit := largest_isSplit (n := l.length) (by omega)
      generalize largest_power_of_two_less_than l.length = k at hsplit
      obtain ⟨hhalf, heven⟩ := hsplit.half hlen
      have htake : (l.take k).length = k := List.length_take_of_le (Nat.le_of_lt hsplit.2.1)
      have hparts : pair_up node l = pair_up node (l.take k) ++ pair_up node (l.drop k) := by
        rw [← pair_up_append node _ (by omega), List.take_append_drop]
      have hfirst : (pair_up node (l.take k)).length = k / 2 := by
        rw [length_pair_up, htake]
        omega
      have hsplit' : IsSplit (pair_up node l).length (k / 2) := by
        rw [length_pair_up]
        exact hhalf
      have hdrop : (l.drop k).length = l.length - k := List.length_drop
      have hpos : 0 < k := by
        obtain ⟨⟨e, rfl⟩, -⟩ := hsplit
        exact Nat.two_pow_pos e
      have hbound := hsplit.2.1
      have hleft := ih _ (by omega) (l.take k) rfl
      have hright := ih _ (by omega) (l.drop k) rfl
      rw [split_fold_eq node zero hsplit', split_fold_eq node zero hsplit, hparts, List.take_left' hfirst,
        List.drop_left' hfirst, hleft, hright]

theorem top_eq_split_fold {l : List α} (h : l ≠ []) : top node l = some (split_fold node zero l) := by
  refine level_induction node (P := fun l => top node l = some (split_fold node zero l)) (fun a => ?_)
    (fun l hone ih => ?_) l h
  · rw [top_singleton, split_fold]
  · rw [top_of_one_lt node hone, ih, split_fold_pair_up]

end
end Lib

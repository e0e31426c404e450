import Mathlib.Data.List.Sort
import Mathlib.Data.String.Basic
/-!
# Sorted texts without repetition

`sort` and then `dedup` of a vector of texts, as Rust does them: `dedup` takes out repeated
neighbours only, which on a sorted list is every repetition.
-/
namespace Lib

/-- The order a text sorts in. -/
def TextLE (a b : String) : Prop := ¬ b < a

instance : DecidableRel TextLE := fun a b => inferInstanceAs (Decidable (¬ b < a))

instance : Std.Total TextLE := ⟨fun a b => by
  rw [TextLE, TextLE, not_lt, not_lt]
  exact le_total _ _⟩

instance : IsTrans String TextLE := ⟨fun a b c hab hbc => by
  rw [TextLE, not_lt] at *
  exact hab.trans hbc⟩

def sort (l : List String) : List String := l.insertionSort TextLE

/-- `Vec::dedup`. -/
def dedup : List String → List String
  | [] => []
  | [a] => [a]
  | a :: b :: l => if a = b then dedup (b :: l) else a :: dedup (b :: l)

theorem mem_dedup {x : String} (l : List String) : x ∈ dedup l ↔ x ∈ l := by
  fun_induction dedup l with
  | case1 => simp
  | case2 a => simp
  | case3 a l ih => simp [ih]
  | case4 a b l hne ih => simp only [List.mem_cons, ih]

theorem sorted_dedup {l : List String} (h : l.Pairwise TextLE) : (dedup l).Pairwise (· < ·) := by
  fun_induction dedup l with
  | case1 => exact .nil
  | case2 a => exact List.pairwise_singleton _ _
  | case3 a l ih => exact ih (List.pairwise_cons.1 h).2
  | case4 a b l hne ih =>
    obtain ⟨hhead, htail⟩ := List.pairwise_cons.1 h
    refine List.pairwise_cons.2 ⟨fun x hx => ?_, ih htail⟩
    have hab : a < b := lt_of_le_of_ne (not_lt.1 (hhead b (by simp))) hne
    rcases List.mem_cons.1 ((mem_dedup _).1 hx) with rfl | hx
    · exact hab
    · exact lt_of_lt_of_le hab (not_lt.1 ((List.pairwise_cons.1 htail).1 x hx))

theorem mem_sort_dedup {x : String} {l : List String} : x ∈ dedup (sort l) ↔ x ∈ l := by
  rw [mem_dedup, sort, List.mem_insertionSort]

theorem sorted_sort_dedup (l : List String) : (dedup (sort l)).Pairwise (· < ·) :=
  sorted_dedup (List.pairwise_insertionSort _ l)

/-- What is sorted without repetition already stays as it is. -/
theorem sort_dedup_of_sorted {l : List String} (h : l.Pairwise (· < ·)) : dedup (sort l) = l := by
  have hle : l.Pairwise TextLE := h.imp (fun hlt => not_lt.2 hlt.le)
  rw [sort, List.Pairwise.insertionSort_eq hle]
  clear hle
  fun_induction dedup l with
  | case1 => rfl
  | case2 a => rfl
  | case3 a l ih => exact absurd ((List.pairwise_cons.1 h).1 a (by simp)) (lt_irrefl a)
  | case4 a b l hne ih => rw [ih (List.pairwise_cons.1 h).2]

theorem nodup_of_sorted {l : List String} (h : l.Pairwise (· < ·)) : l.Nodup := h.imp (fun hlt => hlt.ne)

end Lib

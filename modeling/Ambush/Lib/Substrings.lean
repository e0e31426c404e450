import Mathlib.Data.List.DropRight
import Mathlib.Data.List.Infix
/-!
# Substrings

`str_find` is the offset of the first occurrence of a pattern. A pattern whose first element comes nowhere else in it is found where it
was put, unless it was there before: no occurrence can start in what stands in front and end in the pattern.
-/
namespace Lib

variable {α : Type} [DecidableEq α]

/-- `str::find`: where the pattern occurs first. -/
def str_find (pattern : List α) : List α → Option Nat
  | [] => if pattern = [] then some 0 else none
  | c :: s => if pattern <+: c :: s then some 0 else (str_find pattern s).map (· + 1)

theorem str_find_self (pattern post : List α) : str_find pattern (pattern ++ post) = some 0 := by
  cases hs : pattern ++ post with
  | nil =>
    obtain ⟨rfl, -⟩ := List.append_eq_nil_iff.1 hs
    rfl
  | cons c s => rw [str_find, if_pos (hs ▸ List.prefix_append pattern post)]

/-- Past a first element that starts no occurrence. -/
theorem str_find_cons_of_ne {c d : α} {q : List α} (h : d ≠ c) (s : List α) :
    str_find (c :: q) (d :: s) = (str_find (c :: q) s).map (· + 1) := by
  rw [str_find, if_neg]
  intro hprefix
  exact h (List.cons_prefix_cons.1 hprefix).1.symm

omit [DecidableEq α] in
/-- What has no stop in it ends in front of one. -/
theorem prefix_of_prefix_append_stop {c : α} {q w post : List α} (hq : c ∉ q) (h : q <+: w ++ c :: post) : q <+: w := by
  induction w generalizing q with
  | nil =>
    cases q with
    | nil => exact List.nil_prefix
    | cons e q =>
      have hec : e = c := (List.cons_prefix_cons.1 h).1
      exact absurd (hec ▸ List.mem_cons_self) hq
  | cons d w ih =>
    cases q with
    | nil => exact List.nil_prefix
    | cons e q =>
      have ⟨hed, htail⟩ := List.cons_prefix_cons.1 h
      exact List.cons_prefix_cons.2 ⟨hed, ih (fun hmem => hq (List.mem_cons_of_mem _ hmem)) htail⟩

theorem str_find_of_not_infix {c : α} {q pre : List α} (hq : c ∉ q) (h : ¬ (c :: q) <:+: pre) (post : List α) :
    str_find (c :: q) (pre ++ (c :: q ++ post)) = some pre.length := by
  induction pre with
  | nil => exact str_find_self (c :: q) post
  | cons d pre ih =>
    rw [List.cons_append, str_find, if_neg, ih (fun hin => h (hin.trans (List.suffix_cons d pre).isInfix))]
    · rfl
    · intro hprefix
      obtain ⟨hcd, hprefix⟩ := List.cons_prefix_cons.1 hprefix
      exact h (List.cons_prefix_cons.2 ⟨hcd, prefix_of_prefix_append_stop hq hprefix⟩).isInfix

omit [DecidableEq α] in
/-- Both ends without what satisfies `p`. -/
def trim (p : α → Bool) (l : List α) : List α := (l.dropWhile p).rdropWhile p

omit [DecidableEq α] in
theorem infix_trim (p : α → Bool) (l : List α) : trim p l <:+: l :=
  (List.rdropWhile_prefix p _).isInfix.trans (List.dropWhile_suffix p).isInfix

omit [DecidableEq α] in
theorem trim_trim (p : α → Bool) (l : List α) : trim p (trim p l) = trim p l := by
  have hfront : (trim p l).dropWhile p = trim p l := by
    refine List.dropWhile_eq_self_iff.2 fun hl => ?_
    have hpre : trim p l <+: l.dropWhile p := List.rdropWhile_prefix p _
    rw [hpre.getElem hl]
    exact List.dropWhile_get_zero_not _ _ _
  have hback : (trim p l).rdropWhile p = trim p l := List.rdropWhile_idempotent _ _
  calc trim p (trim p l) = ((trim p l).dropWhile p).rdropWhile p := rfl
    _ = trim p l := by rw [hfront, hback]

end Lib

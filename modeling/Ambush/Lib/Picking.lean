import Mathlib.Data.List.Basic
import Mathlib.Data.List.Forall2
import Mathlib.Data.List.MinMax
/-!
# Picking elements in order

A list of predicates is picked from a list when the list has one element for each of them,
in their order. The first-fit search takes for each predicate the first element left that
satisfies it, and gives up at an element beyond the bound. Where every element before one
within the bound is within it too, it finds a pick whenever there is one.
-/
namespace Lib

variable {α : Type}

/-- `picked` are elements of `xs`, in its order, one for each predicate. -/
structure Picks (ps : List (α → Bool)) (xs picked : List α) : Prop where
  sublist : picked.Sublist xs
  satisfied : List.Forall₂ (fun p x => p x = true) ps picked

/-- The first element that satisfies `p`, before any that is not within the bound, and what follows it. -/
def seek (within p : α → Bool) : List α → Option (α × List α)
  | [] => none
  | x :: xs => if !within x then none else if p x then some (x, xs) else seek within p xs

/-- The elements found for the predicates, up to the first one that finds none. -/
def pick (within : α → Bool) : List (α → Bool) → List α → List α
  | [], _ => []
  | p :: ps, xs =>
    match seek within p xs with
    | none => []
    | some (x, rest) => x :: pick within ps rest

section
variable {within p : α → Bool} {ps : List (α → Bool)} {x : α} {xs rest picked : List α}

/-! ## Positions -/

theorem sublist_of_positions {n : Nat} {is : List Nat} (hincreasing : is.Pairwise (· < ·)) (hfrom : ∀ i ∈ is, n ≤ i)
    (hfound : List.Forall₂ (fun i x => xs[i]? = some x) is picked) : picked.Sublist (xs.drop n) := by
  induction is generalizing n picked with
  | nil =>
    cases hfound
    exact List.nil_sublist _
  | cons i is ih =>
    cases hfound with
    | cons hi hfound =>
      obtain ⟨hlt, hget⟩ := List.getElem?_eq_some_iff.1 hi
      obtain ⟨hfirst, hincreasing⟩ := List.pairwise_cons.1 hincreasing
      have hrest := ih hincreasing hfirst hfound
      have hdrop : xs.drop i = xs[i] :: xs.drop (i + 1) := List.drop_eq_getElem_cons hlt
      have hhere := hrest.cons_cons xs[i]
      rw [← hdrop, hget] at hhere
      exact hhere.trans (List.drop_sublist_drop_left xs (hfrom i List.mem_cons_self))

theorem positions_of_sublist (hsub : picked.Sublist xs) :
    ∃ is : List Nat, is.Pairwise (· < ·) ∧ List.Forall₂ (fun i x => xs[i]? = some x) is picked := by
  induction hsub with
  | slnil => exact ⟨[], .nil, .nil⟩
  | cons y _ ih =>
    obtain ⟨is, hincreasing, hfound⟩ := ih
    exact ⟨is.map (· + 1), List.pairwise_map.2 (hincreasing.imp Nat.succ_lt_succ), List.forall₂_map_left_iff.2 hfound⟩
  | cons_cons y _ ih =>
    obtain ⟨is, hincreasing, hfound⟩ := ih
    refine ⟨0 :: is.map (· + 1), List.pairwise_cons.2 ⟨fun j hj => ?_, List.pairwise_map.2 (hincreasing.imp Nat.succ_lt_succ)⟩,
      .cons rfl (List.forall₂_map_left_iff.2 hfound)⟩
    obtain ⟨i, -, rfl⟩ := List.mem_map.1 hj
    exact Nat.succ_pos i

/-! ## One search -/

theorem seek_found (h : seek within p xs = some (x, rest)) : p x = true ∧ within x = true ∧ (x :: rest).Sublist xs := by
  induction xs with
  | nil => cases h
  | cons y ys ih =>
    unfold seek at h
    split at h
    · cases h
    · next hwithin =>
      split at h
      · next hp =>
        cases h
        exact ⟨hp, by simpa using hwithin, .refl _⟩
      · obtain ⟨hp, hw, hsub⟩ := ih h
        exact ⟨hp, hw, hsub.cons _⟩

/-- An element that can be picked is not passed by: what is found leaves at least what followed it. -/
theorem seek_complete (hbound : xs.Pairwise (fun a b => within b = true → within a = true)) (hsub : (x :: picked).Sublist xs)
    (hp : p x = true) (hw : within x = true) : ∃ y rest, seek within p xs = some (y, rest) ∧ picked.Sublist rest := by
  induction xs with
  | nil => cases hsub
  | cons y ys ih =>
    obtain ⟨hfirst, hrest⟩ := List.pairwise_cons.1 hbound
    have hy : within y = true := by
      rcases List.mem_cons.1 (hsub.subset List.mem_cons_self) with rfl | hx
      · exact hw
      · exact hfirst x hx hw
    unfold seek
    rw [if_neg (by rw [hy]; decide)]
    cases hpy : p y with
    | true => exact ⟨y, ys, if_pos rfl, hsub.tail⟩
    | false =>
      -- The element at the head does not satisfy `p`, so it is not the one that is picked.
      cases hsub with
      | cons _ hsub => exact ih hrest hsub
      | cons_cons => rw [hp] at hpy; cases hpy

/-! ## A whole pick -/

theorem pick_sublist (within : α → Bool) (ps : List (α → Bool)) (xs : List α) : (pick within ps xs).Sublist xs := by
  induction ps generalizing xs with
  | nil => exact List.nil_sublist xs
  | cons p ps ih =>
    unfold pick
    split
    · exact List.nil_sublist xs
    · next y rest hseek => exact ((ih rest).cons_cons y).trans (seek_found hseek).2.2

theorem pick_within (within : α → Bool) (ps : List (α → Bool)) (xs : List α) : ∀ y ∈ pick within ps xs, within y = true := by
  induction ps generalizing xs with
  | nil => exact fun y hy => nomatch hy
  | cons p ps ih =>
    unfold pick
    split
    · exact fun y hy => nomatch hy
    · next z rest hseek =>
      intro y hy
      rcases List.mem_cons.1 hy with rfl | hy
      · exact (seek_found hseek).2.1
      · exact ih rest y hy

theorem pick_satisfied (hlen : (pick within ps xs).length = ps.length) : List.Forall₂ (fun p x => p x = true) ps (pick within ps xs) := by
  induction ps generalizing xs with
  | nil => exact .nil
  | cons p ps ih =>
    unfold pick at hlen ⊢
    split at hlen
    · cases hlen
    · next y rest hseek =>
      exact .cons (seek_found hseek).1 (ih (Nat.succ.inj hlen))

/-- The search is exact: it finds an element for every predicate when and only when they can be picked within the bound. -/
theorem pick_length_iff (hbound : xs.Pairwise (fun a b => within b = true → within a = true)) :
    (pick within ps xs).length = ps.length ↔ ∃ picked, Picks ps xs picked ∧ ∀ y ∈ picked, within y = true := by
  constructor
  · intro hlen
    exact ⟨pick within ps xs, ⟨pick_sublist within ps xs, pick_satisfied hlen⟩, pick_within within ps xs⟩
  · rintro ⟨picked, ⟨hsub, hall⟩, hwithin⟩
    induction ps generalizing xs picked with
    | nil => rfl
    | cons p ps ih =>
      cases hall with
      | cons hp hall =>
        obtain ⟨y, rest, hseek, hleft⟩ := seek_complete hbound hsub hp (hwithin _ List.mem_cons_self)
        have hrest : rest.Sublist xs := (List.sublist_cons_self y rest).trans (seek_found hseek).2.2
        have hnext := ih (hbound.sublist hrest) _ (fun z hz => hwithin z (List.mem_cons_of_mem _ hz)) hleft hall
        unfold pick
        rw [hseek]
        exact congrArg Nat.succ hnext

end

/-! ## The last one -/

theorem forall₂_concat_left_iff {β : Type} {R : α → β → Prop} {l : List α} {a : α} {m : List β} :
    List.Forall₂ R (l ++ [a]) m ↔ ∃ m' b, m = m' ++ [b] ∧ List.Forall₂ R l m' ∧ R a b := by
  constructor
  · intro h
    induction l generalizing m with
    | nil =>
      obtain ⟨b, m', hab, hnil, rfl⟩ := List.forall₂_cons_left_iff.1 h
      cases hnil
      exact ⟨[], b, rfl, .nil, hab⟩
    | cons x l ih =>
      obtain ⟨y, m', hxy, hrest, rfl⟩ := List.forall₂_cons_left_iff.1 h
      obtain ⟨m'', b, rfl, hl, hab⟩ := ih hrest
      exact ⟨y :: m'', b, rfl, .cons hxy hl, hab⟩
  · rintro ⟨m', b, rfl, hl, hab⟩
    exact List.rel_append hl (.cons hab .nil)

/-- The first answer from the end is that of the last element that has one. -/
theorem findSome?_zipIdx_reverse {β : Type} {l : List α} {f : α × Nat → Option β} {b : β} (h : l.zipIdx.reverse.findSome? f = some b) :
    ∃ a i, l[i]? = some a ∧ f (a, i) = some b ∧ ∀ a' j, i < j → l[j]? = some a' → f (a', j) = none := by
  obtain ⟨later, ⟨a, i⟩, earlier, hsplit, hf, hlater⟩ := List.findSome?_eq_some_iff.1 h
  have hzip : l.zipIdx = earlier.reverse ++ (a, i) :: later.reverse := by
    rw [← List.reverse_reverse l.zipIdx, hsplit, List.reverse_append, List.reverse_cons, List.append_assoc]
    rfl
  have hmem : (a, i) ∈ l.zipIdx := by
    rw [hzip]
    exact List.mem_append_right _ List.mem_cons_self
  have hincreasing : l.zipIdx.Pairwise (fun x y => x.2 < y.2) := by
    refine List.pairwise_map.1 ?_
    rw [List.zipIdx_map_snd]
    exact List.pairwise_lt_range'
  refine ⟨a, i, List.mk_mem_zipIdx_iff_getElem?.1 hmem, hf, fun a' j hlt hj => ?_⟩
  have hmem' : (a', j) ∈ l.zipIdx := List.mk_mem_zipIdx_iff_getElem?.2 hj
  rw [hzip] at hmem' hincreasing
  rcases List.mem_append.1 hmem' with hearly | hlate
  · exact absurd ((List.pairwise_append.1 hincreasing).2.2 _ hearly _ List.mem_cons_self) (Nat.lt_asymm hlt)
  · rcases List.mem_cons.1 hlate with heq | hlate
    · cases heq
      exact absurd hlt (Nat.lt_irrefl i)
    · exact hlater _ (List.mem_reverse.1 hlate)

theorem findSome?_zipIdx_reverse_none {β : Type} {l : List α} {f : α × Nat → Option β} (h : l.zipIdx.reverse.findSome? f = none)
    {a : α} {i : Nat} (hi : l[i]? = some a) : f (a, i) = none :=
  List.findSome?_eq_none_iff.1 h _ (List.mem_reverse.2 (List.mk_mem_zipIdx_iff_getElem?.2 hi))

/-- A least element is below every one before it: the first of equal ones is found. -/
theorem argmin_split {β : Type} [LinearOrder β] {f : α → β} {l : List α} {m : α} (h : l.argmin f = some m) :
    ∃ front back, l = front ++ m :: back ∧ (∀ x ∈ front, f m < f x) ∧ ∀ x ∈ back, f m ≤ f x := by
  induction l generalizing m with
  | nil => cases h
  | cons a l ih =>
    rw [List.argmin_cons] at h
    cases hl : l.argmin f with
    | none =>
      rw [hl] at h
      obtain rfl := Option.some.inj h
      obtain rfl := List.argmin_eq_none.1 hl
      exact ⟨[], [], rfl, fun x hx => (nomatch hx), fun x hx => (nomatch hx)⟩
    | some c =>
      rw [hl] at h
      obtain ⟨front, back, rfl, hfront, hback⟩ := ih hl
      dsimp only at h
      split at h
      · next hlt =>
        obtain rfl := Option.some.inj h
        refine ⟨a :: front, back, rfl, fun x hx => ?_, hback⟩
        rcases List.mem_cons.1 hx with rfl | hx
        · exact hlt
        · exact hfront x hx
      · next hge =>
        obtain rfl := Option.some.inj h
        have hle : f a ≤ f c := not_lt.1 hge
        refine ⟨[], front ++ c :: back, rfl, fun x hx => (nomatch hx), fun x hx => ?_⟩
        rcases List.mem_append.1 hx with hx | hx
        · exact hle.trans (hfront x hx).le
        · rcases List.mem_cons.1 hx with rfl | hx
          · exact hle
          · exact hle.trans (hback x hx)

/-- Two elements of a list without repeats stand in one order. -/
theorem not_sublist_swap {l : List α} (h : l.Nodup) {x y : α} (hxy : [x, y].Sublist l) : ¬ [y, x].Sublist l := by
  induction l with
  | nil => cases hxy
  | cons z l ih =>
    obtain ⟨hz, hl⟩ := List.nodup_cons.1 h
    intro hyx
    cases hxy with
    | cons _ hxy =>
      cases hyx with
      | cons _ hyx => exact ih hl hxy hyx
      | cons_cons _ _ => exact hz (hxy.subset (by simp))
    | cons_cons _ hxy =>
      cases hyx with
      | cons _ hyx => exact hz (hyx.subset (by simp))
      | cons_cons _ _ => exact hz (hxy.subset (by simp))

end Lib

import Mathlib.Data.List.Basic
import Ambush.Lib.Results
/-!
# Typed stores

A store of named values in which a value keeps its type: setting a name again replaces a value of the same type and fails for one of
another. A list of assignments goes through exactly as far as no name in it changes its type, and a name has the value last given to it.
-/
namespace Lib

structure TypedStore (C K V E T : Type) where
  get : C → K → Option V
  set : C → K → V → Except E C
  type_of : V → T
  set_ok : ∀ c k v, (∀ old ∈ get c k, type_of old = type_of v) →
    ∃ c', set c k v = .ok c' ∧ get c' k = some v ∧ ∀ k', k' ≠ k → get c' k' = get c k'
  set_err : ∀ c k v, ∀ old ∈ get c k, type_of old ≠ type_of v → ∃ e, set c k v = .error e

variable {C K V E T : Type} [DecidableEq K]

/-- The value last given to a name. -/
def latest (k : K) : List (K × V) → Option V
  | [] => none
  | p :: l => (latest k l).or (if p.1 = k then some p.2 else none)

theorem latest_append (k : K) (l m : List (K × V)) : latest k (l ++ m) = (latest k m).or (latest k l) := by
  induction l with
  | nil => rw [List.nil_append, latest, Option.or_none]
  | cons p l ih => rw [List.cons_append, latest, ih, latest, Option.or_assoc]

theorem latest_eq_none {k : K} {l : List (K × V)} : latest k l = none ↔ ∀ p ∈ l, p.1 ≠ k := by
  induction l with
  | nil => simp [latest]
  | cons p l ih => simp [latest, ih, Option.or_eq_none_iff, and_comm]

theorem mem_of_latest {k : K} {v : V} {l : List (K × V)} (h : latest k l = some v) : (k, v) ∈ l := by
  induction l with
  | nil => cases h
  | cons p l ih =>
    rw [latest, Option.or_eq_some_iff] at h
    rcases h with h | ⟨-, h⟩
    · exact List.mem_cons_of_mem _ (ih h)
    · split at h
      · next hk =>
        obtain rfl := Option.some.inj h
        exact List.mem_cons.2 (.inl (Prod.ext hk.symm rfl))
      · cases h

/-- A name that is given one value has it. -/
theorem latest_of_mem {k : K} {v : V} {l : List (K × V)} (h : (k, v) ∈ l) (hone : ∀ p ∈ l, p.1 = k → p.2 = v) :
    latest k l = some v := by
  cases hlatest : latest k l with
  | none => exact absurd rfl (latest_eq_none.1 hlatest (k, v) h)
  | some w => exact congrArg some (hone (k, w) (mem_of_latest hlatest) rfl)

namespace TypedStore
variable (s : TypedStore C K V E T)

/-- The assignments, one after another. -/
def assign (c : C) (l : List (K × V)) : Except E C := l.foldlM (fun c p => s.set c p.1 p.2) c

omit [DecidableEq K] in
theorem assign_append (c : C) (l m : List (K × V)) : s.assign c (l ++ m) = s.assign c l >>= fun c => s.assign c m :=
  List.foldlM_append

variable {s}

/-- Assignments of which no two give one name different types go through, and each name has the value last given to it. -/
theorem assign_ok {l : List (K × V)} {c : C} (hl : ∀ p ∈ l, ∀ q ∈ l, p.1 = q.1 → s.type_of p.2 = s.type_of q.2)
    (hc : ∀ p ∈ l, ∀ old ∈ s.get c p.1, s.type_of old = s.type_of p.2) :
    ∃ c', s.assign c l = .ok c' ∧ ∀ k, s.get c' k = (latest k l).or (s.get c k) := by
  induction l generalizing c with
  | nil => exact ⟨c, rfl, fun k => rfl⟩
  | cons p l ih =>
    obtain ⟨d, hset, hself, hother⟩ := s.set_ok c p.1 p.2 (hc p List.mem_cons_self)
    obtain ⟨c', hassign, hget⟩ := ih (c := d) (fun q hq r hr => hl q (List.mem_cons_of_mem _ hq) r (List.mem_cons_of_mem _ hr))
      (fun q hq old hold => by
        by_cases hk : q.1 = p.1
        · rw [hk, hself] at hold
          rw [← Option.some.inj hold]
          exact hl p List.mem_cons_self q (List.mem_cons_of_mem _ hq) hk.symm
        · rw [hother q.1 hk] at hold
          exact hc q (List.mem_cons_of_mem _ hq) old hold)
    refine ⟨c', ?_, fun k => ?_⟩
    · rw [assign, List.foldlM_cons, hset]
      exact hassign
    · rw [hget k, latest, Option.or_assoc]
      by_cases hk : p.1 = k
      · subst hk
        rw [if_pos rfl, hself]
        rfl
      · rw [if_neg hk, hother k (Ne.symm hk)]
        rfl

/-- From a store without names, each name has the value last given to it. -/
theorem assign_new {l : List (K × V)} {c : C} (hl : ∀ p ∈ l, ∀ q ∈ l, p.1 = q.1 → s.type_of p.2 = s.type_of q.2)
    (hc : ∀ k, s.get c k = none) : ∃ c', s.assign c l = .ok c' ∧ ∀ k, s.get c' k = latest k l := by
  obtain ⟨c', hassign, hget⟩ := assign_ok (s := s) (c := c) hl (fun p _ old hold => by
    rw [hc p.1] at hold
    cases hold)
  exact ⟨c', hassign, fun k => by rw [hget k, hc k, Option.or_none]⟩

omit [DecidableEq K] in
/-- A name that has a value cannot be given one of another type. -/
theorem assign_err {c : C} {p : K × V} {l : List (K × V)} {old : V} (hold : s.get c p.1 = some old)
    (htype : s.type_of old ≠ s.type_of p.2) : ∃ e, s.assign c (p :: l) = .error e := by
  obtain ⟨e, he⟩ := s.set_err c p.1 p.2 old hold htype
  exact ⟨e, by rw [assign, List.foldlM_cons, he]; rfl⟩

end TypedStore
end Lib

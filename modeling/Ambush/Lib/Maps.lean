import Mathlib.Logic.Basic
/-!
# Finite maps read by key

A `BTreeMap` or `HashMap` that a program only reads by key, writes by key and
filters by key is the partial function it denotes. The lemmas say what each
operation leaves at each key, so that no proof unfolds an operation.
-/
namespace Lib

/-- What a map holds at each key. -/
abbrev Map (K V : Type) := K → Option V

namespace Map

variable {K V : Type}

def empty : Map K V := fun _ => none

def insert [DecidableEq K] (m : Map K V) (k : K) (v : V) : Map K V :=
  fun k' => if k' = k then some v else m k'

def remove [DecidableEq K] (m : Map K V) (k : K) : Map K V :=
  fun k' => if k' = k then none else m k'

/-- Keep the entries whose key passes `p`. -/
def retain (m : Map K V) (p : K → Bool) : Map K V := fun k => if p k then m k else none

@[simp] theorem empty_apply (k : K) : (empty : Map K V) k = none := rfl

section Keys
variable [DecidableEq K] (m : Map K V) (k k' : K) (v : V)

@[simp] theorem insert_self : m.insert k v k = some v := by simp [insert]

theorem insert_apply : m.insert k v k' = if k' = k then some v else m k' := rfl

theorem insert_ne (h : k' ≠ k) : m.insert k v k' = m k' := by simp [insert, h]

@[simp] theorem remove_self : m.remove k k = none := by simp [remove]

theorem remove_apply : m.remove k k' = if k' = k then none else m k' := rfl

theorem remove_ne (h : k' ≠ k) : m.remove k k' = m k' := by simp [remove, h]

end Keys

theorem retain_apply (m : Map K V) (p : K → Bool) (k : K) : m.retain p k = if p k then m k else none := rfl

/-- An entry that survives a filter was there before, under a kept key. -/
theorem retain_eq_some {m : Map K V} {p : K → Bool} {k : K} {v : V} :
    m.retain p k = some v ↔ p k = true ∧ m k = some v := by
  unfold retain
  split <;> simp_all

end Map
end Lib

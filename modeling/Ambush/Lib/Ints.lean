import Mathlib.Tactic.Common
/-!
# Fixed-width integers as bounded numbers

`u64`/`usize` values are natural numbers and `i64` values integers; the
operations below are the ones whose result depends on the width.
-/
namespace Lib

/-- `u64::MAX`, which is also `usize::MAX` on a 64-bit target. -/
def u64Max : Nat := 0xFFFFFFFFFFFFFFFF

def i64Max : Int := 0x7FFFFFFFFFFFFFFF

def i64Min : Int := -0x8000000000000000

/-- `u64::saturating_add`. -/
def satAdd (a b : Nat) : Nat := min (a + b) u64Max

/-- `u64::saturating_mul`. -/
def satMul (a b : Nat) : Nat := min (a * b) u64Max

/-- `u64::checked_add`. -/
def checkedAdd (a b : Nat) : Option Nat := if a + b ≤ u64Max then some (a + b) else none

/-- `u64::checked_mul`. -/
def checkedMul (a b : Nat) : Option Nat := if a * b ≤ u64Max then some (a * b) else none

/-- `i64::checked_sub`. -/
def checkedSubI (a b : Int) : Option Int := if i64Min ≤ a - b ∧ a - b ≤ i64Max then some (a - b) else none

/-- `i64::saturating_add`. -/
def satAddI (a b : Int) : Int := max i64Min (min (a + b) i64Max)

/-- `i64::saturating_sub`. -/
def satSubI (a b : Int) : Int := max i64Min (min (a - b) i64Max)

/-- `i64::saturating_mul`. -/
def satMulI (a b : Int) : Int := max i64Min (min (a * b) i64Max)

/-- A `u64` cast to `i64`: the upper half wraps to the negatives. -/
def castI64 (n : Nat) : Int := if (n : Int) ≤ i64Max then n else (n : Int) - 0x10000000000000000

theorem checkedAdd_eq_some {a b n : Nat} (h : checkedAdd a b = some n) : n = a + b := by
  unfold checkedAdd at h
  split at h <;> simp_all

theorem checkedMul_eq_some {a b n : Nat} (h : checkedMul a b = some n) : n = a * b := by
  unfold checkedMul at h
  split at h <;> simp_all

theorem checkedSubI_eq_some {a b n : Int} (h : checkedSubI a b = some n) : n = a - b := by
  unfold checkedSubI at h
  split at h <;> simp_all

/-- Below the maximum, a saturating increment is an increment. -/
theorem satAdd_one_of_lt {a : Nat} (h : a < u64Max) : satAdd a 1 = a + 1 := by
  unfold satAdd; omega

end Lib

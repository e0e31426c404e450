import Mathlib.Logic.Basic
/-!
# Results

Taking apart a computation that can fail.
-/
namespace Lib

/-- A sequence of two succeeds through a value of its first part. -/
theorem ok_bind_iff {E A B : Type} (first : Except E A) (next : A → Except E B) (b : B) :
    (first >>= next) = Except.ok b ↔ ∃ a, first = Except.ok a ∧ next a = Except.ok b := by
  rcases first with e | a
  · exact ⟨fun h => (nomatch h), fun ⟨_, h, _⟩ => (nomatch h)⟩
  · exact ⟨fun h => ⟨a, rfl, h⟩, fun ⟨_, ha, h⟩ => (Except.ok.inj ha) ▸ h⟩

/-- A check that comes before the rest. -/
theorem ok_guard_iff {E A : Type} {c : Prop} [Decidable c] {e : E} {x : Except E A} {a : A} :
    (if c then Except.error e else x) = Except.ok a ↔ ¬ c ∧ x = Except.ok a := by
  split
  · next hc => exact ⟨fun h => (nomatch h), fun h => absurd hc h.1⟩
  · next hc => exact ⟨fun h => ⟨hc, h⟩, And.right⟩

end Lib

import Mathlib.Order.Defs.LinearOrder
import Mathlib.Data.List.Lex
/-!
# UTF-16 code units

The code units of a text, and texts compared by them. A character above the basic
plane is a surrogate pair, so this order is not the order of the characters.
-/
namespace Lib

/-- The code units of one character. -/
def utf16Char (c : Char) : List Nat :=
  if c.toNat < 0x10000 then [c.toNat]
  else [0xD800 + (c.toNat - 0x10000) / 0x400, 0xDC00 + (c.toNat - 0x10000) % 0x400]

def utf16 (l : List Char) : List Nat := l.flatMap utf16Char

theorem char_toNat_valid (c : Char) : c.toNat < 0xD800 ∨ 0xDFFF < c.toNat ∧ c.toNat < 0x110000 := c.valid

theorem char_eq_of_toNat {c d : Char} (h : c.toNat = d.toNat) : c = d := Char.ext (UInt32.toNat_inj.1 h)

/-- No character's units start another's: a surrogate is no character of its own. -/
theorem utf16Char_append_inj {c d : Char} {x y : List Nat} (h : utf16Char c ++ x = utf16Char d ++ y) :
    c = d ∧ x = y := by
  have hc := char_toNat_valid c
  have hd := char_toNat_valid d
  unfold utf16Char at h
  split at h <;> split at h <;> simp only [List.cons_append, List.nil_append, List.cons.injEq] at h
  · exact ⟨char_eq_of_toNat h.1, h.2⟩
  · exact absurd h.1 (by omega)
  · exact absurd h.1 (by omega)
  · exact ⟨char_eq_of_toNat (by omega), h.2.2⟩

theorem utf16Char_ne_nil (c : Char) : utf16Char c ≠ [] := by
  unfold utf16Char
  split <;> simp

theorem utf16_injective : ∀ {l m : List Char}, utf16 l = utf16 m → l = m
  | [], [], _ => rfl
  | [], d :: m, h => by
    simp only [utf16, List.flatMap_nil, List.flatMap_cons, List.nil_eq, List.append_eq_nil_iff] at h
    exact absurd h.1 (utf16Char_ne_nil d)
  | c :: l, [], h => by
    simp only [utf16, List.flatMap_nil, List.flatMap_cons, List.append_eq_nil_iff] at h
    exact absurd h.1 (utf16Char_ne_nil c)
  | c :: l, d :: m, h => by
    simp only [utf16, List.flatMap_cons] at h
    obtain ⟨rfl, hlm⟩ := utf16Char_append_inj h
    rw [utf16_injective hlm]

/-- Two lists of units compared from the front; a list comes before those it starts. -/
def compareUnits : List Nat → List Nat → Ordering
  | [], [] => .eq
  | [], _ :: _ => .lt
  | _ :: _, [] => .gt
  | a :: l, b :: m => if a < b then .lt else if b < a then .gt else compareUnits l m

theorem compareUnits_eq_gt_iff (l m : List Nat) : compareUnits l m = .gt ↔ m < l := by
  induction l generalizing m with
  | nil => cases m <;> simp [compareUnits]
  | cons a l ih =>
    cases m with
    | nil => simp [compareUnits]
    | cons b m =>
      rw [compareUnits, List.cons_lt_cons_iff]
      split
      · simp only [reduceCtorEq, false_iff]
        omega
      · split
        · simp [*]
        · have hab : a = b := by omega
          simp [hab, ih]

end Lib

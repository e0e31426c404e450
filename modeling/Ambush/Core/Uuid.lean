import Mathlib.Data.List.Basic
/-!
# UUIDs
-/
namespace Ambush

abbrev Uuid := BitVec 128

/-- The digit of sixteen that is `i`-th from the left. -/
def Uuid.hex_digit (u : Uuid) (i : Nat) : Char :=
  let digit := (u.toNat >>> (4 * (31 - i))) % 16
  if digit < 10 then Char.ofNat (48 + digit) else Char.ofNat (87 + digit)

/-- The hyphenated text: groups of 8, 4, 4, 4 and 12 digits. -/
def Uuid.to_string (u : Uuid) : String :=
  let digits := fun start count => (List.range' start count).map (Uuid.hex_digit u)
  String.ofList (digits 0 8 ++ '-' :: digits 8 4 ++ '-' :: digits 12 4 ++ '-' :: digits 16 4 ++ '-' :: digits 20 12)

end Ambush

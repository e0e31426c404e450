import Ambush.Lib.Ints
import Mathlib.Data.List.Basic
/-!
# Numbers and bytes as texts

The decimal text of a number and the hex text of bytes, read back as they were written.
-/
namespace Lib

/-! ## Decimal -/

/-- A `u64`: a plus sign at will, then digits. -/
def parse_u64 (text : List Char) : Option Nat :=
  let digits := if text.head? = some '+' then text.tail else text
  if digits = [] ∨ ¬ digits.all Char.isDigit then none
  else if Nat.ofDigitChars 10 digits 0 ≤ u64Max then some (Nat.ofDigitChars 10 digits 0) else none

theorem isDigit_of_mem_toString {n : Nat} {c : Char} (h : c ∈ (toString n).toList) : c.isDigit := by
  rw [Nat.toString_eq_repr, Nat.toList_repr] at h
  exact Nat.isDigit_of_mem_toDigits (by decide) (by decide) h

theorem notMem_toString {c : Char} (hc : c.isDigit = false) (n : Nat) : c ∉ (toString n).toList := by
  intro h
  rw [isDigit_of_mem_toString h] at hc
  cases hc

theorem toString_ne_nil (n : Nat) : (toString n).toList ≠ [] := by
  rw [Nat.toString_eq_repr, Nat.toList_repr]
  exact Nat.toDigits_ne_nil

theorem parse_u64_toString {n : Nat} (h : n ≤ u64Max) : parse_u64 (toString n).toList = some n := by
  have hplus : (toString n).toList.head? ≠ some '+' := by
    intro hhead
    exact notMem_toString (by decide) n (List.mem_of_head? hhead)
  have hall : (toString n).toList.all Char.isDigit = true := List.all_eq_true.2 fun c hc => isDigit_of_mem_toString hc
  have hvalue : Nat.ofDigitChars 10 (toString n).toList 0 = n := by
    rw [Nat.toString_eq_repr, Nat.toList_repr, Nat.ofDigitChars_ten_toDigits]
  simp only [parse_u64, hplus, ↓reduceIte, toString_ne_nil, hall, not_true_eq_false, or_self, hvalue, h]

/-! ## Hex -/

/-- Two lower-case digits a byte. -/
def hex (bytes : List UInt8) : List Char := bytes.flatMap fun b => [Nat.digitChar (b.toNat / 16), Nat.digitChar (b.toNat % 16)]

/-- A digit of either case. -/
def hex_value (c : Char) : Option Nat :=
  if '0' ≤ c ∧ c ≤ '9' then some (c.toNat - 48)
  else if 'a' ≤ c ∧ c ≤ 'f' then some (c.toNat - 87)
  else if 'A' ≤ c ∧ c ≤ 'F' then some (c.toNat - 55)
  else none

def unhex : List Char → Option (List UInt8)
  | [] => some []
  | [_] => none
  | a :: b :: rest => do
    let high ← hex_value a
    let low ← hex_value b
    let bytes ← unhex rest
    some (UInt8.ofNat (16 * high + low) :: bytes)

theorem hex_value_digitChar : ∀ d < 16, hex_value (Nat.digitChar d) = some d := by decide

@[simp] theorem hex_nil : hex [] = [] := rfl

theorem hex_cons (b : UInt8) (bytes : List UInt8) :
    hex (b :: bytes) = Nat.digitChar (b.toNat / 16) :: Nat.digitChar (b.toNat % 16) :: hex bytes := rfl

theorem length_hex (bytes : List UInt8) : (hex bytes).length = 2 * bytes.length := by
  induction bytes with
  | nil => rfl
  | cons b bytes ih =>
    rw [hex_cons, List.length_cons, List.length_cons, ih, List.length_cons]
    omega

theorem byte_halves (b : UInt8) : UInt8.ofNat (16 * (b.toNat / 16) + b.toNat % 16) = b := by
  rw [Nat.div_add_mod]
  exact UInt8.ofNat_toNat

theorem unhex_hex (bytes : List UInt8) : unhex (hex bytes) = some bytes := by
  induction bytes with
  | nil => rfl
  | cons b bytes ih =>
    have hb := b.toNat_lt
    have hhigh := hex_value_digitChar (b.toNat / 16) (by omega)
    have hlow := hex_value_digitChar (b.toNat % 16) (by omega)
    simp only [hex_cons, unhex, hhigh, hlow, ih, Option.bind_eq_bind, Option.bind_some, byte_halves]

theorem hex_inj {a b : List UInt8} (h : hex a = hex b) : a = b := by
  have ha := unhex_hex a
  rw [h, unhex_hex] at ha
  exact (Option.some.inj ha).symm

theorem digit_of_mem_hex {bytes : List UInt8} {c : Char} (h : c ∈ hex bytes) : ∃ d < 16, c = Nat.digitChar d := by
  obtain ⟨b, -, hc⟩ := List.mem_flatMap.1 h
  have hb := b.toNat_lt
  rcases List.mem_cons.1 hc with rfl | hc
  · exact ⟨b.toNat / 16, by omega, rfl⟩
  · rw [List.mem_singleton] at hc
    exact ⟨b.toNat % 16, by omega, hc⟩

/-! ## Bytes -/

/-- A text of ASCII characters has a byte for each. -/
theorem utf8ByteSize_of_ascii {s : String} (h : ∀ c ∈ s.toList, c.toNat < 128) : s.utf8ByteSize = s.toList.length := by
  have key : ∀ l : List Char, (∀ c ∈ l, c.toNat < 128) → l.utf8Encode.size = l.length := by
    intro l hl
    induction l with
    | nil => rfl
    | cons c l ih =>
      have hc : c.utf8Size = 1 := Char.utf8Size_eq_one_iff.2 (UInt32.le_iff_toNat_le.2 (Nat.le_of_lt_succ (hl c (by simp))))
      rw [List.utf8Encode_cons, ByteArray.size_append, ih (fun d hd => hl d (List.mem_cons_of_mem _ hd)),
        List.utf8Encode_singleton, List.size_toByteArray, String.length_utf8EncodeChar, hc, List.length_cons]
      omega
  rw [← key s.toList h, ← String.toByteArray_ofList, String.ofList_toList]
  rfl

/-- The bytes of a text. -/
def utf8 (s : String) : List UInt8 := s.toByteArray.data.toList

theorem length_utf8 (s : String) : (utf8 s).length = s.utf8ByteSize := Array.length_toList

/-- `String::from_utf8`. -/
def from_utf8 (bytes : List UInt8) : Option String := String.fromUTF8? bytes.toByteArray

theorem toByteArray_utf8 (s : String) : (utf8 s).toByteArray = s.toByteArray := by
  unfold utf8
  ext1
  rw [List.data_toByteArray]

theorem utf8_inj {s t : String} (h : utf8 s = utf8 t) : s = t := by
  rw [← String.toByteArray_inj, ← toByteArray_utf8, h, toByteArray_utf8]

theorem from_utf8_eq_some {bytes : List UInt8} {s : String} : from_utf8 bytes = some s ↔ bytes = utf8 s := by
  unfold from_utf8 String.fromUTF8?
  constructor
  · intro h
    split at h
    · rw [← Option.some.inj h]
      exact List.toList_data_toByteArray.symm
    · cases h
  · rintro rfl
    rw [dif_pos (toByteArray_utf8 s ▸ s.isValidUTF8)]
    exact congrArg some (String.toByteArray_inj.1 (toByteArray_utf8 s))

theorem from_utf8_utf8 (s : String) : from_utf8 (utf8 s) = some s := from_utf8_eq_some.2 rfl

/-- The front of a text's bytes, where it is a text, is the text's front. -/
theorem toList_prefix_of_utf8 {s t : String} (h : utf8 s <+: utf8 t) : s.toList <+: t.toList := by
  obtain ⟨rest, hrest⟩ := h
  refine List.isPrefix_of_utf8Encode_append_eq_utf8Encode rest.toByteArray ?_
  rw [String.utf8Encode_toList, String.utf8Encode_toList, ← toByteArray_utf8 s, ← toByteArray_utf8 t, ← hrest,
    List.toByteArray_append]

theorem utf8_ofList (l : List Char) : utf8 (String.ofList l) = l.flatMap String.utf8EncodeChar := by
  rw [utf8, String.toByteArray_ofList, List.utf8Encode, List.data_toByteArray]

theorem utf8_eq_flatMap (s : String) : utf8 s = s.toList.flatMap String.utf8EncodeChar := by
  rw [← utf8_ofList, String.ofList_toList]

/-- An ASCII character is its own byte. No byte of another character is one of ASCII. -/
theorem utf8EncodeChar_cases (c : Char) : (c.toNat < 128 ∧ String.utf8EncodeChar c = [UInt8.ofNat c.toNat]) ∨
    (128 ≤ c.toNat ∧ ∀ b ∈ String.utf8EncodeChar c, 128 ≤ b.toNat) := by
  have hcont : ∀ n, 128 ≤ (UInt8.ofNat (n % 64 + 128)).toNat := by
    intro n
    rw [UInt8.toNat_ofNat']
    omega
  by_cases hascii : c.val.toNat ≤ 127
  · refine .inl ⟨Nat.lt_succ_of_le hascii, ?_⟩
    rw [String.utf8EncodeChar, if_pos hascii]
    rfl
  refine .inr ⟨Nat.lt_of_not_le hascii, fun b hb => ?_⟩
  rw [String.utf8EncodeChar, if_neg hascii] at hb
  split at hb
  · rcases List.mem_cons.1 hb with rfl | hb
    · rw [UInt8.toNat_ofNat']
      omega
    · rw [List.mem_singleton.1 hb]
      exact hcont _
  split at hb
  · rcases List.mem_cons.1 hb with rfl | hb
    · rw [UInt8.toNat_ofNat']
      omega
    rcases List.mem_cons.1 hb with rfl | hb
    · exact hcont _
    · rw [List.mem_singleton.1 hb]
      exact hcont _
  · rcases List.mem_cons.1 hb with rfl | hb
    · rw [UInt8.toNat_ofNat']
      omega
    rcases List.mem_cons.1 hb with rfl | hb
    · exact hcont _
    rcases List.mem_cons.1 hb with rfl | hb
    · exact hcont _
    · rw [List.mem_singleton.1 hb]
      exact hcont _

/-- A text can be cut at an ASCII byte. -/
theorem cut_at_ascii {chars : List Char} {a rest : List UInt8} {b : UInt8} (hb : b.toNat < 128)
    (h : chars.flatMap String.utf8EncodeChar = a ++ b :: rest) : ∃ l c l', chars = l ++ c :: l' ∧ c.toNat = b.toNat ∧
      l.flatMap String.utf8EncodeChar = a ∧ l'.flatMap String.utf8EncodeChar = rest := by
  induction chars generalizing a with
  | nil => exact absurd h.symm (by simp)
  | cons c chars ih =>
    rw [List.flatMap_cons, List.append_eq_append_iff] at h
    rcases h with ⟨front, rfl, hfront⟩ | ⟨back, hback, hrest⟩
    · -- the byte lies behind this character
      obtain ⟨l, d, l', rfl, hd, rfl, rfl⟩ := ih hfront
      exact ⟨c :: l, d, l', rfl, hd, rfl, rfl⟩
    · cases back with
      | nil =>
        obtain ⟨l, d, l', rfl, hd, hl, rfl⟩ := ih (a := []) hrest.symm
        rw [List.append_nil] at hback
        exact ⟨c :: l, d, l', rfl, hd, by rw [List.flatMap_cons, hl, List.append_nil, hback], rfl⟩
      | cons b' back =>
        obtain ⟨rfl, rfl⟩ := List.cons.inj hrest
        rcases utf8EncodeChar_cases c with ⟨hc, hone⟩ | ⟨-, hmany⟩
        · rw [hone, List.singleton_eq_append_iff] at hback
          rcases hback with ⟨rfl, hbyte⟩ | ⟨-, hnil⟩
          · obtain ⟨rfl, rfl⟩ := List.cons.inj hbyte
            refine ⟨[], c, chars, rfl, ?_, rfl, rfl⟩
            rw [UInt8.toNat_ofNat']
            omega
          · cases hnil
        · exact absurd (hmany b (by rw [hback]; simp)) (Nat.not_le.2 hb)

theorem mem_utf8 {s : String} {c : Char} (hc : c ∈ s.toList) (h : c.toNat < 128) : UInt8.ofNat c.toNat ∈ utf8 s := by
  rw [utf8_eq_flatMap, List.mem_flatMap]
  rcases utf8EncodeChar_cases c with ⟨-, hone⟩ | ⟨hlarge, -⟩
  · exact ⟨c, hc, by rw [hone]; exact List.mem_singleton_self _⟩
  · exact absurd hlarge (Nat.not_le.2 h)

end Lib

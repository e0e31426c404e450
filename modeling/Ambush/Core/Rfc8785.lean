import Ambush.Lib.Coding
import Ambush.Core.Canonical
/-!
# RFC 8785

`Rfc8785.serialize` is the serialization as the RFC has it, and `canonicalize` writes it
but for one class of characters: the controls from U+007F to U+009F, which the code
escapes and the RFC does not.
-/
open Lib

namespace Ambush

/-! ## Values without doubles -/

namespace Value

mutual
/-- No doubles, integers within the bounds, and no key twice in an object. -/
def within (lo hi : Int) : Value → Bool
  | .null | .bool _ | .string _ => true
  | .integer n => lo ≤ n ∧ n ≤ hi
  | .float _ => false
  | .array items => withinItems lo hi items
  | .object fields => (fields.map (·.1)).Nodup ∧ withinFields lo hi fields

def withinItems (lo hi : Int) : List Value → Bool
  | [] => true
  | v :: vs => within lo hi v && withinItems lo hi vs

def withinFields (lo hi : Int) : List (String × Value) → Bool
  | [] => true
  | (_, v) :: fs => within lo hi v && withinFields lo hi fs
end

@[simp]
theorem within_array {lo hi : Int} {items : List Value} :
    within lo hi (.array items) = true ↔ ∀ v ∈ items, within lo hi v = true := by
  rw [within]
  induction items with
  | nil => simp [withinItems]
  | cons v vs ih => simp [withinItems, ih]

@[simp]
theorem within_object {lo hi : Int} {fields : List (String × Value)} :
    within lo hi (.object fields) = true ↔
      (fields.map (·.1)).Nodup ∧ ∀ f ∈ fields, within lo hi f.2 = true := by
  have hf : withinFields lo hi fields = true ↔ ∀ f ∈ fields, within lo hi f.2 = true := by
    induction fields with
    | nil => simp [withinFields]
    | cons f fs ih => simp [withinFields, ih]
  simp [within, hf]

mutual
/-- Every character of every string and key. -/
def chars : Value → List Char
  | .null | .bool _ | .integer _ | .float _ => []
  | .string s => s.toList
  | .array items => charsItems items
  | .object fields => charsFields fields

def charsItems : List Value → List Char
  | [] => []
  | v :: vs => chars v ++ charsItems vs

def charsFields : List (String × Value) → List Char
  | [] => []
  | (k, v) :: fs => k.toList ++ chars v ++ charsFields fs
end

theorem mem_chars_array {items : List Value} {c : Char} : c ∈ (Value.array items).chars ↔ ∃ v ∈ items, c ∈ v.chars := by
  rw [chars]
  induction items with
  | nil => simp [charsItems]
  | cons v vs ih => simp [charsItems, ih]

theorem mem_chars_object {fields : List (String × Value)} {c : Char} :
    c ∈ (Value.object fields).chars ↔ ∃ f ∈ fields, c ∈ f.1.toList ∨ c ∈ f.2.chars := by
  rw [chars]
  induction fields with
  | nil => simp [charsFields]
  | cons f fs ih => simp [charsFields, ih, or_assoc]

end Value

namespace Canonical

/-! ## The layout of the text -/

/-- Keys in the order of their UTF-16 code units. -/
abbrev keyLE {α : Type} (a b : String × α) : Prop := ¬ utf16 b.1.toList < utf16 a.1.toList

/-- An object's entry. -/
def entry (esc : Char → String) (f : String × String) : String :=
  "\"" ++ escapeWith esc f.1.toList ++ "\":" ++ f.2

mutual
/-- A value with its keys in order and no whitespace; `esc` writes a character of a
string and `number` a double. -/
def write (esc : Char → String) (number : Rat → String) : Value → String
  | .null => "null"
  | .bool b => if b then "true" else "false"
  | .integer n => toString n
  | .float q => number q
  | .string s => "\"" ++ escapeWith esc s.toList ++ "\""
  | .array items => "[" ++ ",".intercalate (writeItems esc number items) ++ "]"
  | .object fields =>
    "\x7b" ++ ",".intercalate (((writeFields esc number fields).insertionSort keyLE).map (entry esc)) ++ "\x7d"

def writeItems (esc : Char → String) (number : Rat → String) : List Value → List String
  | [] => []
  | v :: vs => write esc number v :: writeItems esc number vs

def writeFields (esc : Char → String) (number : Rat → String) : List (String × Value) → List (String × String)
  | [] => []
  | (k, v) :: fs => (k, write esc number v) :: writeFields esc number fs
end

/-- The fields of an object in the order they are written. -/
def sortedFields {α : Type} (fields : List (String × α)) : List (String × α) := fields.insertionSort keyLE

theorem mem_sortedFields {α : Type} {fields : List (String × α)} {f : String × α} : f ∈ sortedFields fields ↔ f ∈ fields :=
  List.mem_insertionSort _

section
variable (esc : Char → String) (number : Rat → String)

theorem writeItems_eq (items : List Value) : writeItems esc number items = items.map (write esc number) := by
  induction items with
  | nil => rfl
  | cons v vs ih => rw [writeItems, ih, List.map_cons]

theorem writeFields_eq (fields : List (String × Value)) :
    writeFields esc number fields = fields.map (fun f => (f.1, write esc number f.2)) := by
  induction fields with
  | nil => rfl
  | cons f fs ih => rw [writeFields, ih, List.map_cons]

theorem write_array (items : List Value) :
    write esc number (.array items) = "[" ++ ",".intercalate (items.map (write esc number)) ++ "]" := by
  rw [write, writeItems_eq]

theorem write_object (fields : List (String × Value)) :
    write esc number (.object fields) =
      "\x7b" ++ ",".intercalate ((sortedFields fields).map (fun f => entry esc (f.1, write esc number f.2))) ++ "\x7d" := by
  have hsort := List.map_insertionSort keyLE keyLE (fun f : String × Value => (f.1, write esc number f.2)) fields
    (fun a _ b _ => Iff.rfl)
  rw [write, writeFields_eq, ← hsort, List.map_map]
  rfl
end

/-- Where both write every character of it alike, two escapes write a value alike. -/
theorem write_congr {esc esc' : Char → String} (number : Rat → String) (v : Value) (h : ∀ c ∈ v.chars, esc c = esc' c) :
    write esc number v = write esc' number v := by
  have hstr : ∀ l : List Char, (∀ c ∈ l, esc c = esc' c) → escapeWith esc l = escapeWith esc' l := by
    intro l hl
    induction l with
    | nil => rfl
    | cons c l ih =>
      rw [escapeWith, escapeWith, hl c List.mem_cons_self, ih (fun d hd => hl d (List.mem_cons_of_mem _ hd))]
  induction v using Value.induction with
  | null | bool _ | integer _ | float _ => rfl
  | string s => rw [write, write, hstr s.toList h]
  | array items ih =>
    rw [write_array, write_array]
    congr 3
    refine List.map_congr_left (fun v hv => ih v hv (fun c hc => h c ?_))
    exact Value.mem_chars_array.2 ⟨v, hv, hc⟩
  | object fields ih =>
    rw [write_object, write_object]
    congr 3
    refine List.map_congr_left (fun f hf => ?_)
    have hf := mem_sortedFields.1 hf
    have hc : ∀ c, c ∈ f.1.toList ∨ c ∈ f.2.chars → esc c = esc' c :=
      fun c hc => h c (Value.mem_chars_object.2 ⟨f, hf, hc⟩)
    rw [entry, entry, ih f hf (fun c h => hc c (.inr h)), hstr f.1.toList (fun c h => hc c (.inl h))]

/-! ## The code's text -/

theorem push_all_false_ok (ts : List String) :
    push_all false (ts.map Except.ok) = .ok (String.join (ts.map ("," ++ ·))) := by
  induction ts with
  | nil => rfl
  | cons t ts ih => simp [push_all, ih, bind, Except.bind]

theorem push_all_ok (ts : List String) : push_all true (ts.map Except.ok) = .ok (",".intercalate ts) := by
  cases ts with
  | nil => rfl
  | cons t ts =>
    simp only [List.map_cons, push_all, push_all_false_ok, bind, Except.bind]
    congr 1
    induction ts generalizing t with
    | nil => simp
    | cons u ts ih =>
      have hu := ih u
      simp only [↓reduceIte, String.empty_append] at hu
      rw [String.intercalate_cons_cons, ← hu]
      simp [String.append_assoc]

theorem canonicalizeItems_eq (ryu : Rat → String) (items : List Value) :
    canonicalizeItems ryu items = items.map (canonicalize ryu) := by
  induction items with
  | nil => rfl
  | cons v vs ih => rw [canonicalizeItems, ih, List.map_cons]

theorem canonicalizeFields_eq (ryu : Rat → String) (fields : List (String × Value)) :
    canonicalizeFields ryu fields = fields.map (fun f => (f.1, canonicalize ryu f.2)) := by
  induction fields with
  | nil => rfl
  | cons f fs ih => rw [canonicalizeFields, ih, List.map_cons]

/-- Bounds within which every integer is a `serde_json::Number`. -/
def NumberBounds (lo hi : Int) : Prop := -9223372036854775808 ≤ lo ∧ hi ≤ 18446744073709551615

/-- Without doubles `canonicalize` does not fail, and writes the characters with its own escape. -/
theorem canonicalize_eq_write (ryu number : Rat → String) {lo hi : Int} (hb : NumberBounds lo hi) (v : Value)
    (h : v.within lo hi = true) : canonicalize ryu v = .ok (write escape_char number v) := by
  induction v using Value.induction with
  | null | bool _ | string _ => rfl
  | integer n =>
    have hn : lo ≤ n ∧ n ≤ hi := by simpa [Value.within] using h
    obtain ⟨hlo, hhi⟩ := hb
    rw [canonicalize, canonicalize_integer, write]
    split
    · rfl
    · rw [if_pos (by omega)]
  | float q => simp [Value.within] at h
  | array items ih =>
    have hitems : canonicalizeItems ryu items = (items.map (write escape_char number)).map Except.ok := by
      rw [canonicalizeItems_eq, List.map_map]
      exact List.map_congr_left (fun v hv => ih v hv (Value.within_array.1 h v hv))
    rw [canonicalize, hitems, push_all_ok, write_array]
    rfl
  | object fields ih =>
    have hfields : ∀ f ∈ fields, canonicalize ryu f.2 = .ok (write escape_char number f.2) :=
      fun f hf => ih f hf ((Value.within_object.1 h).2 f hf)
    have hsort := List.map_insertionSort keyLE (fun a b => cmp_utf16_code_units a.1 b.1 ≠ .gt)
      (fun f : String × Value => (f.1, canonicalize ryu f.2)) fields
      (fun a _ b _ => by simp [cmp_utf16_code_units, compareUnits_eq_gt_iff])
    have hentries : (((canonicalizeFields ryu fields).insertionSort
        (fun a b => cmp_utf16_code_units a.1 b.1 ≠ .gt)).map (fun p => p.2.map (quotedKey p.1 ++ ·))) =
        ((sortedFields fields).map (fun f => entry escape_char (f.1, write escape_char number f.2))).map Except.ok := by
      rw [canonicalizeFields_eq, ← hsort, List.map_map, List.map_map]
      refine List.map_congr_left (fun f hf => ?_)
      simp only [Function.comp_apply, hfields f (mem_sortedFields.1 hf), Except.map]
      rfl
    rw [canonicalize, write_object]
    simp only [hentries, push_all_ok, bind, Except.bind]

/-! ## The length of the text -/

section
variable {esc esc' : Char → String} (hle : ∀ c, (esc c).length ≤ (esc' c).length)
include hle

theorem length_escapeWith_le (l : List Char) : (escapeWith esc l).length ≤ (escapeWith esc' l).length := by
  induction l with
  | nil => exact Nat.le_refl _
  | cons c l ih =>
    have hc := hle c
    simp only [escapeWith, String.length_append]
    omega

theorem length_escapeWith_lt {l : List Char} {c : Char} (hc : c ∈ l) (hlt : (esc c).length < (esc' c).length) :
    (escapeWith esc l).length < (escapeWith esc' l).length := by
  induction l with
  | nil => exact absurd hc List.not_mem_nil
  | cons d l ih =>
    have hd := hle d
    have hl := length_escapeWith_le hle l
    simp only [escapeWith, String.length_append]
    rcases List.mem_cons.1 hc with rfl | hc
    · omega
    · have := ih hc
      omega

theorem length_write_le (number : Rat → String) (v : Value) :
    (write esc number v).length ≤ (write esc' number v).length := by
  induction v using Value.induction with
  | null | bool _ | integer _ | float _ => exact Nat.le_refl _
  | string s =>
    have := length_escapeWith_le hle s.toList
    simp only [write, String.length_append]
    omega
  | array items ih =>
    have := @length_intercalate_map_le _ "," _ _ items ih
    simp only [write_array, String.length_append]
    omega
  | object fields ih =>
    have hentry : ∀ f ∈ sortedFields fields, (entry esc (f.1, write esc number f.2)).length ≤
        (entry esc' (f.1, write esc' number f.2)).length := by
      intro f hf
      have hk := length_escapeWith_le hle f.1.toList
      have hv := ih f (mem_sortedFields.1 hf)
      simp only [entry, String.length_append]
      omega
    have := @length_intercalate_map_le _ "," _ _ _ hentry
    simp only [write_object, String.length_append]
    omega

/-- One character that the other escape writes longer makes the whole text longer. -/
theorem length_write_lt (number : Rat → String) (v : Value) {c : Char} (hc : c ∈ v.chars)
    (hlt : (esc c).length < (esc' c).length) : (write esc number v).length < (write esc' number v).length := by
  induction v using Value.induction with
  | null | bool _ | integer _ | float _ => exact absurd hc List.not_mem_nil
  | string s =>
    have := length_escapeWith_lt hle (l := s.toList) hc hlt
    simp only [write, String.length_append]
    omega
  | array items ih =>
    obtain ⟨v, hv, hc⟩ := Value.mem_chars_array.1 hc
    have := @length_intercalate_map_lt _ "," _ _ items (fun w _ => length_write_le hle number w) v hv (ih v hv hc)
    simp only [write_array, String.length_append]
    omega
  | object fields ih =>
    obtain ⟨f, hf, hc⟩ := Value.mem_chars_object.1 hc
    have hentry : ∀ f ∈ sortedFields fields, (entry esc (f.1, write esc number f.2)).length ≤
        (entry esc' (f.1, write esc' number f.2)).length := by
      intro f _
      have hk := length_escapeWith_le hle f.1.toList
      have hv := length_write_le hle number f.2
      simp only [entry, String.length_append]
      omega
    have hstrict : (entry esc (f.1, write esc number f.2)).length < (entry esc' (f.1, write esc' number f.2)).length := by
      have hk := length_escapeWith_le hle f.1.toList
      have hv := length_write_le hle number f.2
      simp only [entry, String.length_append]
      rcases hc with hc | hc
      · have := length_escapeWith_lt hle hc hlt
        omega
      · have := ih f hf hc
        omega
    have := @length_intercalate_map_lt _ "," _ _ _ hentry f (mem_sortedFields.2 hf) hstrict
    simp only [write_object, String.length_append]
    omega
end

end Canonical

/-! ## The RFC -/

namespace Rfc8785

/-- Section 3.2.2.2: how a character of a string is written. -/
def escapeChar (c : Char) : String :=
  if c.toNat < 0x20 then
    if c.toNat = 0x08 then "\\b"
    else if c.toNat = 0x09 then "\\t"
    else if c.toNat = 0x0a then "\\n"
    else if c.toNat = 0x0c then "\\f"
    else if c.toNat = 0x0d then "\\r"
    else "\\u00" ++ String.ofList [Nat.digitChar (c.toNat / 16), Nat.digitChar (c.toNat % 16)]
  else if c = '"' then "\\\""
  else if c = '\\' then "\\\\"
  else String.singleton c

/-- The serialization: `number` is how ECMAScript writes a double. -/
def serialize (number : Rat → String) (v : Value) : String := Canonical.write escapeChar number v

end Rfc8785

namespace Canonical
open Rfc8785 (escapeChar)

/-- The controls that the code escapes and the RFC does not. -/
def HighControl (c : Char) : Prop := 0x7f ≤ c.toNat ∧ c.toNat ≤ 0x9f

instance : DecidablePred HighControl := fun c => inferInstanceAs (Decidable (0x7f ≤ c.toNat ∧ c.toNat ≤ 0x9f))

theorem escapes_below (n : Nat) (h : n < 0xa0) :
    if HighControl (Char.ofNat n) then (escapeChar (Char.ofNat n)).length < (escape_char (Char.ofNat n)).length
    else escapeChar (Char.ofNat n) = escape_char (Char.ofNat n) := by
  have : ∀ n : Fin 0xa0, if HighControl (Char.ofNat n) then
      (escapeChar (Char.ofNat n)).length < (escape_char (Char.ofNat n)).length
      else escapeChar (Char.ofNat n) = escape_char (Char.ofNat n) := by decide +kernel
  exact this ⟨n, h⟩

theorem escapes_above {c : Char} (h : 0xa0 ≤ c.toNat) : escapeChar c = String.singleton c ∧ escape_char c = String.singleton c := by
  have hne : ∀ d : Char, d.toNat < 0xa0 → c ≠ d := by
    rintro d hd rfl
    omega
  have hctl : is_control c = false := by
    simp only [is_control, Bool.or_eq_false_iff, Bool.and_eq_false_iff, decide_eq_false_iff_not]
    omega
  constructor
  · rw [escapeChar, if_neg (by omega), if_neg (hne _ (by decide)), if_neg (hne _ (by decide))]
  · simp [escape_char, hctl, hne _ (show '"'.toNat < 0xa0 by decide), hne _ (show '\\'.toNat < 0xa0 by decide),
      hne _ (show '\x08'.toNat < 0xa0 by decide), hne _ (show '\x0c'.toNat < 0xa0 by decide),
      hne _ (show '\n'.toNat < 0xa0 by decide), hne _ (show '\r'.toNat < 0xa0 by decide),
      hne _ (show '\t'.toNat < 0xa0 by decide)]

theorem escapeChar_eq {c : Char} (h : ¬ HighControl c) : escapeChar c = escape_char c := by
  rcases Nat.lt_or_ge c.toNat 0xa0 with hc | hc
  · have := escapes_below c.toNat hc
    rwa [Char.ofNat_toNat, if_neg h] at this
  · rw [(escapes_above hc).1, (escapes_above hc).2]

theorem length_escapeChar_lt {c : Char} (h : HighControl c) : (escapeChar c).length < (escape_char c).length := by
  have := escapes_below c.toNat (Nat.lt_succ_of_le h.2)
  rwa [Char.ofNat_toNat, if_pos h] at this

theorem length_escapeChar_le (c : Char) : (escapeChar c).length ≤ (escape_char c).length := by
  by_cases h : HighControl c
  · exact (length_escapeChar_lt h).le
  · rw [escapeChar_eq h]

/-- The code writes the RFC's text exactly when no string and no key has a character from
U+007F to U+009F. -/
theorem canonicalize_is_rfc8785_iff (ryu number : Rat → String) (v : Value)
    (h : v.within (-9007199254740992) 9007199254740992 = true) :
    canonicalize ryu v = .ok (Rfc8785.serialize number v) ↔ ∀ c ∈ v.chars, ¬ HighControl c := by
  rw [canonicalize_eq_write ryu number ⟨by decide, by decide⟩ v h, Except.ok.injEq]
  constructor
  · intro heq c hc hhigh
    have hlt := length_write_lt length_escapeChar_le number v hc (length_escapeChar_lt hhigh)
    rw [heq] at hlt
    exact Nat.lt_irrefl _ hlt
  · intro hclean
    exact (write_congr number v (fun c hc => escapeChar_eq (hclean c hc))).symm

theorem canonicalize_is_rfc8785_vector :
    canonicalize (fun _ => "") (.object [("b", .integer 1), ("a", .string "\x0f\"")]) =
      .ok (Rfc8785.serialize (fun _ => "") (.object [("b", .integer 1), ("a", .string "\x0f\"")])) ↔
      ∀ c ∈ (Value.object [("b", .integer 1), ("a", .string "\x0f\"")]).chars, ¬ HighControl c :=
  canonicalize_is_rfc8785_iff _ _ _ (by decide)

/-- DEL is escaped where the RFC has it as it is. -/
theorem delete_is_escaped :
    Value.within (-9007199254740992) 9007199254740992 (.string "\x7f") = true ∧
      canonicalize (fun _ => "") (.string "\x7f") = .ok "\"\\u007f\"" ∧
      Rfc8785.serialize (fun _ => "") (.string "\x7f") = "\"\x7f\"" ∧
      canonicalize (fun _ => "") (.string "\x7f") ≠ .ok (Rfc8785.serialize (fun _ => "") (.string "\x7f")) := by
  refine ⟨?_, ?_, ?_, ?_⟩ <;> decide +kernel

end Canonical
end Ambush

import Ambush.Core.Rfc8785
import Ambush.Core.Unambiguous
import Ambush.Lib.PrefixCodes
import Mathlib.Data.String.Basic
/-!
# The audit log's JSON

`canonical_json` writes a value with the keys of every object sorted; scalars and keys are written as `serde_json` writes them. Two
values with the same text are the same value, doubles among them: no text is the start of another where a value can end.
-/
open Lib

namespace Ambush

/-! ## Values as `serde_json` holds them -/

mutual
/-- The fields of every object are in key order, no key twice. -/
def Value.ordered : Value → Bool
  | .array items => orderedItems items
  | .object fields => decide (fields.Pairwise (fun f g => f.1 < g.1)) && orderedFields fields
  | _ => true

def Value.orderedItems : List Value → Bool
  | [] => true
  | v :: vs => v.ordered && orderedItems vs

def Value.orderedFields : List (String × Value) → Bool
  | [] => true
  | (_, v) :: fs => v.ordered && orderedFields fs
end

theorem Value.ordered_array {items : List Value} : (Value.array items).ordered = true ↔ ∀ v ∈ items, v.ordered = true := by
  rw [Value.ordered]
  induction items with
  | nil => simp [Value.orderedItems]
  | cons v items ih => simp [Value.orderedItems, ih]

theorem Value.ordered_object {fields : List (String × Value)} :
    (Value.object fields).ordered = true ↔ Json.Ordered fields ∧ ∀ f ∈ fields, f.2.ordered = true := by
  rw [Value.ordered, Bool.and_eq_true, decide_eq_true_eq]
  refine and_congr_right' ?_
  induction fields with
  | nil => simp [Value.orderedFields]
  | cons f fields ih =>
    obtain ⟨k, v⟩ := f
    rw [Value.orderedFields, Bool.and_eq_true, ih, List.forall_mem_cons]

namespace Audit
open Rfc8785 (escapeChar)

/-! ## The text -/

/-- A string as `serde_json` writes it: it escapes what RFC 8785 has escaped. -/
def quoted (s : String) : List Char := '"' :: (s.toList.flatMap (fun c => (escapeChar c).toList) ++ ['"'])

def joined : List (List Char) → List Char := [','].intercalate

/-- The entries of a `BTreeMap`. -/
def sorted {α : Type} (fields : List (String × α)) : List (String × α) := fields.insertionSort (fun a b => a.1 ≤ b.1)

/-- An entry of an object. -/
def field_text (f : String × List Char) : List Char := quoted f.1 ++ ':' :: f.2

section
variable (number : Rat → String)

mutual
/-- `number` is the text of a finite double. -/
def canonical_json : Value → List Char
  | .null => "null".toList
  | .bool b => (if b then "true" else "false").toList
  | .integer n => (toString n).toList
  | .float q => (number q).toList
  | .string s => quoted s
  | .array items => '[' :: (joined (canonicalItems items) ++ [']'])
  | .object fields => '\x7b' :: (joined ((sorted (canonicalFields fields)).map field_text) ++ ['\x7d'])

def canonicalItems : List Value → List (List Char)
  | [] => []
  | v :: vs => canonical_json v :: canonicalItems vs

def canonicalFields : List (String × Value) → List (String × List Char)
  | [] => []
  | (k, v) :: fs => (k, canonical_json v) :: canonicalFields fs
end

theorem canonical_array (items : List Value) :
    canonical_json number (.array items) = '[' :: (joined (items.map (canonical_json number)) ++ [']']) := by
  have hitems : canonicalItems number items = items.map (canonical_json number) := by
    induction items with
    | nil => rfl
    | cons v items ih => rw [canonicalItems, ih, List.map_cons]
  rw [canonical_json, hitems]

theorem canonical_object (fields : List (String × Value)) :
    canonical_json number (.object fields) =
      '\x7b' :: (joined ((sorted fields).map (fun f => field_text (f.1, canonical_json number f.2))) ++ ['\x7d']) := by
  have hfields : canonicalFields number fields = fields.map (fun f => (f.1, canonical_json number f.2)) := by
    induction fields with
    | nil => rfl
    | cons f fields ih => rw [canonicalFields, ih, List.map_cons]
  have hsort := List.map_insertionSort (fun a b : String × Value => a.1 ≤ b.1) (fun a b : String × List Char => a.1 ≤ b.1)
    (fun f => (f.1, canonical_json number f.2)) fields (fun a _ b _ => Iff.rfl)
  rw [canonical_json, hfields, sorted, ← hsort, List.map_map]
  rfl

end

/-! ## Strings -/

/-- The characters that are written with a backslash. -/
def special : List Char := (List.range 32).map Char.ofNat ++ ['"', '\\']

theorem escape_special : ∀ c ∈ special, (escapeChar c).toList.head? = some '\\' := by
  have hall : special.all (fun c => (escapeChar c).toList.head? = some '\\') = true := by decide +kernel
  exact fun c hc => of_decide_eq_true (List.all_eq_true.1 hall c hc)

theorem escape_special_inj : ∀ c ∈ special, ∀ d ∈ special, (escapeChar c).toList <+: (escapeChar d).toList → c = d := by
  have hall : special.all (fun c => special.all (fun d => !(escapeChar c).toList.isPrefixOf (escapeChar d).toList || c = d)) = true := by
    decide +kernel
  intro c hc d hd h
  have hor := List.all_eq_true.1 (List.all_eq_true.1 hall c hc) d hd
  rw [List.isPrefixOf_iff_prefix.2 h, Bool.not_true, Bool.false_or] at hor
  exact of_decide_eq_true hor

theorem escape_plain {c : Char} (h : c ∉ special) : (escapeChar c).toList = [c] ∧ c ≠ '"' ∧ c ≠ '\\' := by
  have hquote : c ≠ '"' := fun hc => h (by rw [hc]; decide)
  have hback : c ≠ '\\' := fun hc => h (by rw [hc]; decide)
  have hcontrol : ¬ c.toNat < 0x20 := fun hc => h (by
    refine List.mem_append_left _ (List.mem_map.2 ⟨c.toNat, List.mem_range.2 hc, Char.ofNat_toNat c⟩))
  refine ⟨?_, hquote, hback⟩
  rw [escapeChar, if_neg hcontrol, if_neg hquote, if_neg hback, String.toList_singleton]

theorem escape_prefixFree : PrefixFree (fun c => (escapeChar c).toList) := by
  intro c d h
  by_cases hc : c ∈ special
  · by_cases hd : d ∈ special
    · exact escape_special_inj c hc d hd h
    · have hhead := escape_special c hc
      have hplain := escape_plain hd
      dsimp only at h
      rw [hplain.1] at h
      cases htext : (escapeChar c).toList with
      | nil =>
        rw [htext] at hhead
        cases hhead
      | cons e rest =>
        rw [htext] at hhead h
        obtain rfl := Option.some.inj hhead
        exact absurd (List.cons_prefix_cons.1 h).1.symm hplain.2.2
  · have hplain := escape_plain hc
    dsimp only at h
    rw [hplain.1] at h
    by_cases hd : d ∈ special
    · have hhead := escape_special d hd
      cases htext : (escapeChar d).toList with
      | nil =>
        rw [htext] at hhead
        cases hhead
      | cons e rest =>
        rw [htext] at hhead h
        obtain rfl := Option.some.inj hhead
        exact absurd (List.cons_prefix_cons.1 h).1 hplain.2.2
    · rw [(escape_plain hd).1] at h
      exact (List.cons_prefix_cons.1 h).1

theorem escape_head (c : Char) : ∃ d rest, (escapeChar c).toList = d :: rest ∧ d ≠ '"' := by
  by_cases hc : c ∈ special
  · have hhead := escape_special c hc
    cases htext : (escapeChar c).toList with
    | nil =>
      rw [htext] at hhead
      cases hhead
    | cons d rest =>
      rw [htext] at hhead
      obtain rfl := Option.some.inj hhead
      exact ⟨'\\', rest, rfl, by decide⟩
  · exact ⟨c, [], (escape_plain hc).1, (escape_plain hc).2.1⟩

/-- A string ends at its closing quote. -/
theorem quoted_append_inj {s t : String} {r r' : List Char} (h : quoted s ++ r = quoted t ++ r') : s = t ∧ r = r' := by
  simp only [quoted, List.cons_append, List.append_assoc, List.nil_append] at h
  obtain ⟨hchars, hr⟩ := escape_prefixFree.flatMap_stop_inj escape_head (List.cons.inj h).2
  exact ⟨String.toList_inj.1 hchars, hr⟩

theorem field_text_append_inj {f g : String × List Char} {r r' : List Char} (h : field_text f ++ r = field_text g ++ r') :
    f.1 = g.1 ∧ f.2 ++ r = g.2 ++ r' := by
  rw [field_text, field_text, List.append_assoc, List.append_assoc] at h
  obtain ⟨hkey, hrest⟩ := quoted_append_inj h
  exact ⟨hkey, (List.cons.inj hrest).2⟩

/-! ## Numbers -/

def number_char (c : Char) : Bool := c.isDigit || c = '-' || c = '+' || c = '.' || c = 'e'

/-- What is relied on of the text of a double: it is read as a number, no two doubles share it, and no integer has it. -/
structure NumberText (number : Rat → String) : Prop where
  chars : ∀ q, ∀ c ∈ (number q).toList, number_char c = true
  nonempty : ∀ q, (number q).toList ≠ []
  injective : Function.Injective number
  fractional : ∀ q (n : Int), number q ≠ toString n

theorem toString_int_chars (n : Int) : ∀ c ∈ (toString n).toList, number_char c = true := by
  have hdigits : ∀ m : Nat, ∀ c ∈ (toString m).toList, number_char c = true := fun m c hc => by
    simp only [number_char, isDigit_of_mem_toString hc, Bool.true_or]
  rw [Int.toString_eq_repr, Int.repr_eq_if]
  split
  · exact hdigits _
  · intro c hc
    rw [String.toList_append] at hc
    rcases List.mem_append.1 hc with hc | hc
    · obtain rfl := List.mem_singleton.1 hc
      decide
    · exact hdigits _ c hc

theorem toString_int_inj {m n : Int} (h : toString m = toString n) : m = n := by
  have hsign : ∀ {m : Nat} {s : String}, toString m = "-" ++ s → False := by
    intro m s hm
    have hmem : '-' ∈ (toString m).toList := by
      rw [hm, String.toList_append]
      exact List.mem_append_left _ (by decide)
    exact notMem_toString (by decide) m hmem
  rw [Int.toString_eq_repr, Int.toString_eq_repr, Int.repr_eq_if, Int.repr_eq_if] at h
  split at h <;> split at h
  · have := toString_nat_inj h
    omega
  · exact (hsign h).elim
  · exact (hsign h.symm).elim
  · have := toString_nat_inj ((String.append_right_inj _).1 h)
    omega

theorem toString_int_ne_nil (n : Int) : (toString n).toList ≠ [] := by
  obtain ⟨c, cs, htext, -⟩ := Json.toString_int_head n
  rw [htext]
  exact List.cons_ne_nil _ _

/-! ## What a text starts with -/

inductive Kind where
  | null
  | bool (b : Bool)
  | number
  | string
  | array
  | object
deriving DecidableEq

def kind : Value → Kind
  | .null => .null
  | .bool b => .bool b
  | .integer _ | .float _ => .number
  | .string _ => .string
  | .array _ => .array
  | .object _ => .object

/-- The kind of a value, told from the first character of its text. -/
def kind_of (c : Char) : Option Kind :=
  if c = 'n' then some .null
  else if c = 't' then some (.bool true)
  else if c = 'f' then some (.bool false)
  else if c = '"' then some .string
  else if c = '[' then some .array
  else if c = '\x7b' then some .object
  else if number_char c = true then some .number
  else none

theorem kind_of_number {c : Char} (h : number_char c = true) : kind_of c = some .number := by
  have hne : ∀ d : Char, number_char d = false → c ≠ d := by
    rintro d hd rfl
    rw [h] at hd
    cases hd
  rw [kind_of, if_neg (hne _ (by decide)), if_neg (hne _ (by decide)), if_neg (hne _ (by decide)), if_neg (hne _ (by decide)),
    if_neg (hne _ (by decide)), if_neg (hne _ (by decide)), if_pos h]

theorem kind_of_numeral {l : List Char} (hne : l ≠ []) (h : ∀ c ∈ l, number_char c = true) :
    ∃ c rest, l = c :: rest ∧ kind_of c = some .number := by
  cases l with
  | nil => exact absurd rfl hne
  | cons c rest => exact ⟨c, rest, rfl, kind_of_number (h c List.mem_cons_self)⟩

theorem sorted_of_ordered {fields : List (String × Value)} (h : Json.Ordered fields) : sorted fields = fields :=
  List.Pairwise.insertionSort_eq (h.imp (fun hlt => hlt.le))

theorem stops_number {r : List Char} (h : Json.Stops r) : ∀ c ∈ r.head?, number_char c = false := by
  intro c hc
  rcases h c hc with rfl | rfl | rfl <;> decide

theorem stops_of_head {r : List Char} {close : Char} (hclose : close = ']' ∨ close = '\x7d')
    (h : r.head? = some ',' ∨ r.head? = some close) : Json.Stops r := by
  intro c hc
  rcases h with h | h <;> rw [h] at hc <;> obtain rfl := Option.some.inj hc
  · exact .inl rfl
  · exact .inr hclose

section
variable {number : Rat → String} (hn : NumberText number)
include hn

theorem canonical_head (v : Value) : ∃ c rest, canonical_json number v = c :: rest ∧ kind_of c = some (kind v) := by
  cases v with
  | null => exact ⟨'n', ['u', 'l', 'l'], by rw [canonical_json]; rfl, rfl⟩
  | bool b =>
    cases b with
    | true => exact ⟨'t', ['r', 'u', 'e'], by rw [canonical_json]; rfl, rfl⟩
    | false => exact ⟨'f', ['a', 'l', 's', 'e'], by rw [canonical_json]; rfl, rfl⟩
  | integer n =>
    rw [canonical_json]
    exact kind_of_numeral (toString_int_ne_nil n) (toString_int_chars n)
  | float q =>
    rw [canonical_json]
    exact kind_of_numeral (hn.nonempty q) (hn.chars q)
  | string s => exact ⟨'"', _, by rw [canonical_json, quoted], rfl⟩
  | array items => exact ⟨'[', _, by rw [canonical_json], rfl⟩
  | object fields => exact ⟨'\x7b', _, by rw [canonical_json], rfl⟩

theorem kind_eq_of_append {v w : Value} {r r' : List Char} (h : canonical_json number v ++ r = canonical_json number w ++ r') :
    kind v = kind w := by
  obtain ⟨c, rest, hv, hc⟩ := canonical_head hn v
  obtain ⟨d, rest', hw, hd⟩ := canonical_head hn w
  rw [hv, hw] at h
  rw [(List.cons.inj h).1, hd] at hc
  exact (Option.some.inj hc).symm

theorem canonical_opens (v : Value) : ∃ c rest, canonical_json number v = c :: rest ∧ c ≠ ']' := by
  obtain ⟨c, rest, hc, hkind⟩ := canonical_head hn v
  refine ⟨c, rest, hc, ?_⟩
  rintro rfl
  have hnone : kind_of ']' = none := by decide
  rw [hnone] at hkind
  cases hkind

/-! ## One value for one text -/

theorem canonical_append_inj (v w : Value) {r r' : List Char} (hv : v.ordered = true) (hw : w.ordered = true) (hr : Json.Stops r)
    (hr' : Json.Stops r') (h : canonical_json number v ++ r = canonical_json number w ++ r') : v = w ∧ r = r' := by
  induction v using Value.induction generalizing w r r' with
  | null =>
    have hkind := kind_eq_of_append hn h
    cases w <;> cases hkind
    exact ⟨rfl, List.append_cancel_left h⟩
  | bool b =>
    have hkind := kind_eq_of_append hn h
    cases w <;> cases hkind
    exact ⟨rfl, List.append_cancel_left h⟩
  | integer n =>
    have hkind := kind_eq_of_append hn h
    cases w <;> cases hkind
    case integer.integer.refl m =>
      rw [canonical_json, canonical_json] at h
      obtain ⟨htext, hrest⟩ := run_append_inj (toString_int_chars n) (toString_int_chars m) (stops_number hr) (stops_number hr') h
      exact ⟨congrArg Value.integer (toString_int_inj (String.toList_inj.1 htext)), hrest⟩
    case integer.float.refl q =>
      rw [canonical_json, canonical_json] at h
      have htext := (run_append_inj (toString_int_chars n) (hn.chars q) (stops_number hr) (stops_number hr') h).1
      exact absurd (String.toList_inj.1 htext).symm (hn.fractional q n)
  | float p =>
    have hkind := kind_eq_of_append hn h
    cases w <;> cases hkind
    case float.integer.refl m =>
      rw [canonical_json, canonical_json] at h
      have htext := (run_append_inj (hn.chars p) (toString_int_chars m) (stops_number hr) (stops_number hr') h).1
      exact absurd (String.toList_inj.1 htext) (hn.fractional p m)
    case float.float.refl q =>
      rw [canonical_json, canonical_json] at h
      obtain ⟨htext, hrest⟩ := run_append_inj (hn.chars p) (hn.chars q) (stops_number hr) (stops_number hr') h
      exact ⟨congrArg Value.float (hn.injective (String.toList_inj.1 htext)), hrest⟩
  | string s =>
    have hkind := kind_eq_of_append hn h
    cases w <;> cases hkind
    rw [canonical_json, canonical_json] at h
    obtain ⟨htext, hrest⟩ := quoted_append_inj h
    exact ⟨congrArg Value.string htext, hrest⟩
  | array items ih =>
    have hkind := kind_eq_of_append hn h
    cases w <;> cases hkind
    case array.array.refl items' =>
      rw [canonical_array, canonical_array] at h
      simp only [List.cons_append, List.append_assoc, List.nil_append, List.cons.injEq, true_and] at h
      rw [Value.ordered_array] at hv hw
      obtain ⟨hall, hrest⟩ := separated_inj (R := Eq) (by decide) (fun v _ => canonical_opens hn v)
        (fun v hv' w hw' s s' hs hs' heq => ih v hv' w (hv v hv') (hw w hw') (stops_of_head (.inl rfl) hs)
          (stops_of_head (.inl rfl) hs') heq) h
      exact ⟨congrArg Value.array (List.forall₂_eq_eq_eq ▸ hall), hrest⟩
  | object fields ih =>
    have hkind := kind_eq_of_append hn h
    cases w <;> cases hkind
    case object.object.refl fields' =>
      rw [canonical_object, canonical_object] at h
      simp only [List.cons_append, List.append_assoc, List.nil_append, List.cons.injEq, true_and] at h
      rw [Value.ordered_object] at hv hw
      rw [sorted_of_ordered hv.1, sorted_of_ordered hw.1] at h
      obtain ⟨hall, hrest⟩ := separated_inj (R := Eq) (by decide)
        (fun f _ => ⟨'"', _, rfl, by decide⟩)
        (fun f hf g hg s s' hs hs' heq => by
          obtain ⟨hkey, heq⟩ := field_text_append_inj heq
          obtain ⟨hvalue, hrest⟩ := ih f hf g.2 (hv.2 f hf) (hw.2 g hg) (stops_of_head (.inr rfl) hs) (stops_of_head (.inr rfl) hs')
            heq
          exact ⟨Prod.ext hkey hvalue, hrest⟩) h
      exact ⟨congrArg Value.object (List.forall₂_eq_eq_eq ▸ hall), hrest⟩

/-- Equal texts are texts of one value. -/
theorem canonical_json_inj {v w : Value} (hv : v.ordered = true) (hw : w.ordered = true)
    (h : canonical_json number v = canonical_json number w) : v = w := by
  have hstops : Json.Stops [] := fun c hc => by cases hc
  have happend : canonical_json number v ++ [] = canonical_json number w ++ [] := congrArg (· ++ []) h
  exact (canonical_append_inj hn v w hv hw hstops hstops happend).1
end

end Audit
end Ambush

import Ambush.Lib.Utf16
import Ambush.Core.Value
import Mathlib.Data.List.Sort
import Mathlib.Algebra.Order.Ring.Abs
import Mathlib.Algebra.Order.Field.Rat
/-!
# Canonical JSON

The text that signatures and digests are taken over, as `swarm-crypto` writes it.
A double is rendered by the `ryu` crate, which is a parameter here: `ryu q` is the
shortest text of a positive finite double. RFC 8785's own rules follow, and the one
class of characters on which the two texts differ.
-/
open Lib

namespace Ambush
namespace Canonical

/-- The error of the crate that writing JSON can end in. -/
inductive Error where
  | JsonError (message : String)
deriving DecidableEq, Repr

/-! ## Strings -/

/-- `char::is_control`: the Unicode category Cc. -/
def is_control (c : Char) : Bool := c.toNat < 0x20 || (0x7f ≤ c.toNat && c.toNat < 0xa0)

/-- The format `04x`. -/
def hex4 (n : Nat) : String := String.ofList ((Nat.toDigits 16 n).leftpad 4 '0')

/-- One step of the loop over a string's characters. -/
def escape_char (ch : Char) : String :=
  if ch = '"' then "\\\""
  else if ch = '\\' then "\\\\"
  else if ch = '\x08' then "\\b"
  else if ch = '\x0c' then "\\f"
  else if ch = '\n' then "\\n"
  else if ch = '\r' then "\\r"
  else if ch = '\t' then "\\t"
  else if is_control ch then "\\u" ++ hex4 ch.toNat
  else String.singleton ch

/-- What a character-wise escape makes of a string. -/
def escapeWith (esc : Char → String) : List Char → String
  | [] => ""
  | c :: cs => esc c ++ escapeWith esc cs

def escape_json_string (value : String) : String := escapeWith escape_char value.toList

def cmp_utf16_code_units (left right : String) : Ordering := compareUnits (utf16 left.toList) (utf16 right.toList)

/-! ## Doubles -/

/-- `str::split_once`. -/
def split_once (sep : Char) (s : List Char) : Option (List Char × List Char) :=
  if sep ∈ s then some (s.takeWhile (· ≠ sep), (s.dropWhile (· ≠ sep)).drop 1) else none

def trim_start_zeros (s : List Char) : List Char := s.dropWhile (· == '0')

def trim_end_zeros (s : List Char) : List Char := (s.reverse.dropWhile (· == '0')).reverse

/-- `str::parse::<i32>`. -/
def parse_i32 (s : List Char) : Option Int :=
  let magnitude (digits : List Char) : Option Nat :=
    if digits ≠ [] ∧ digits.all Char.isDigit then some (Nat.ofDigitChars 10 digits 0) else none
  let signed : Option Int := match s with
    | '-' :: digits => (magnitude digits).map (fun n => -(n : Int))
    | '+' :: digits => (magnitude digits).map Int.ofNat
    | digits => (magnitude digits).map Int.ofNat
  signed.filter (fun n => -2147483648 ≤ n ∧ n ≤ 2147483647)

def parse_to_scientific_parts (rendered : List Char) : Except Error (List Char × Int) :=
  let rendered := ((rendered.dropWhile Char.isWhitespace).reverse.dropWhile Char.isWhitespace).reverse
  if rendered = [] then .error (.JsonError "Empty number string") else
  let (mantissa, exp_opt) := match split_once 'e' rendered with
    | some (m, e) => (m, some e)
    | none => match split_once 'E' rendered with
      | some (m, e) => (m, some e)
      | none => (rendered, none)
  let (digits_before_dot, digits) := match split_once '.' mantissa with
    | some (left, right) => ((left.length : Int), left ++ trim_end_zeros right)
    | none => ((mantissa.length : Int), mantissa)
  let digits := trim_start_zeros digits
  let digits := if digits = [] then ['0'] else digits
  let digits := trim_end_zeros digits
  let digits := if digits = [] then ['0'] else digits
  match exp_opt with
  | some exp_str =>
    match parse_i32 exp_str with
    | some exp => .ok (digits, exp + (digits_before_dot - 1))
    | none => .error (.JsonError ("Invalid exponent: " ++ String.ofList exp_str))
  | none =>
    match split_once '.' mantissa with
    | some (int_part, frac_part_raw) =>
      let frac_part := trim_end_zeros frac_part_raw
      let int_stripped := trim_start_zeros int_part
      if int_stripped ≠ [] then .ok (digits, (int_stripped.length : Int) - 1)
      else .ok (digits, -(((frac_part.takeWhile (· == '0')).length : Int) + 1))
    | none => .ok (digits, ((trim_start_zeros mantissa).length : Int) - 1)

/-- Zeros after the point, and a point with nothing after it, are taken off. -/
def trim_decimal (rendered : List Char) : List Char :=
  if '.' ∈ rendered then
    let trimmed := trim_end_zeros rendered
    if trimmed.getLast? = some '.' then trimmed.dropLast else trimmed
  else rendered

def render_decimal (digits : List Char) (sci_exp : Int) : List Char :=
  let digits_len : Int := digits.length
  let shift := sci_exp - (digits_len - 1)
  if 0 ≤ shift then digits ++ List.replicate shift.toNat '0'
  else
    let pos := digits_len + shift
    if 0 < pos then trim_decimal (digits.take pos.toNat ++ '.' :: digits.drop pos.toNat)
    else trim_decimal ('0' :: '.' :: (List.replicate (-pos).toNat '0' ++ digits))

/-- `canonicalize_f64` of a finite double; the bounds are the doubles `1e-6` and `1e21`. -/
def canonicalize_f64 (ryu : Rat → String) (value : Rat) : Except Error String :=
  if value = 0 then .ok "0" else
  let sign := if value < 0 then "-" else ""
  let abs := |value|
  let use_exponential := ¬ ((4722366482869645 / 4722366482869645213696 : Rat) ≤ abs ∧ abs < 1000000000000000000000)
  match parse_to_scientific_parts (ryu abs).toList with
  | .error e => .error e
  | .ok (digits, sci_exp) =>
    if use_exponential then
      let mantissa := if digits.length = 1 then digits else digits.take 1 ++ '.' :: digits.drop 1
      let exp_sign := if 0 ≤ sci_exp then "+" else ""
      .ok (sign ++ String.ofList mantissa ++ "e" ++ exp_sign ++ toString sci_exp)
    else .ok (sign ++ String.ofList (render_decimal digits sci_exp))

/-- `canonicalize_number` of an integer: `as_i64`, then `as_u64`. No other integer is a
`serde_json::Number`. -/
def canonicalize_integer (n : Int) : Except Error String :=
  if -9223372036854775808 ≤ n ∧ n ≤ 9223372036854775807 then .ok (toString n)
  else if 0 ≤ n ∧ n ≤ 18446744073709551615 then .ok (toString n)
  else .error (.JsonError "Unsupported JSON number")

/-! ## Values -/

/-- The loop over the entries, with a comma before each but the first. -/
def push_all (first : Bool) : List (Except Error String) → Except Error String
  | [] => .ok ""
  | r :: rs => do
    let t ← r
    let ts ← push_all false rs
    .ok ((if first then "" else ",") ++ t ++ ts)

/-- A key as an object's entry starts with it. -/
def quotedKey (key : String) : String := "\"" ++ escape_json_string key ++ "\":"

mutual
def canonicalize (ryu : Rat → String) : Value → Except Error String
  | .object map => do
    let pairs := (canonicalizeFields ryu map).insertionSort (fun a b => cmp_utf16_code_units a.1 b.1 ≠ .gt)
    let out ← push_all true (pairs.map (fun p => p.2.map (quotedKey p.1 ++ ·)))
    .ok ("\x7b" ++ out ++ "\x7d")
  | .array values => do
    let out ← push_all true (canonicalizeItems ryu values)
    .ok ("[" ++ out ++ "]")
  | .string value => .ok ("\"" ++ escape_json_string value ++ "\"")
  | .integer n => canonicalize_integer n
  | .float q => canonicalize_f64 ryu q
  | .bool value => .ok (if value then "true" else "false")
  | .null => .ok "null"

def canonicalizeItems (ryu : Rat → String) : List Value → List (Except Error String)
  | [] => []
  | v :: vs => canonicalize ryu v :: canonicalizeItems ryu vs

/-- The entries of an object before they are sorted. A value's text does not depend on
where its entry goes, so it may be taken first. -/
def canonicalizeFields (ryu : Rat → String) : List (String × Value) → List (String × Except Error String)
  | [] => []
  | (k, v) :: fs => (k, canonicalize ryu v) :: canonicalizeFields ryu fs
end

end Canonical
end Ambush

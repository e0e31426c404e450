import Ambush.Core.Value
/-!
# Reading JSON

`serde_json::from_str` into a `Value`: the grammar of RFC 8259, an object's fields kept
in key order with a later one replacing an earlier one of the same key, and no deeper
nesting than the reader's limit. A number with a fraction or an exponent, or beyond
64 bits, becomes a double; `parse_f64` is how the reader rounds its text.
-/
namespace Ambush
namespace Json

def is_ws (c : Char) : Bool := c == ' ' || c == '\n' || c == '\t' || c == '\r'

def skip_ws (cs : List Char) : List Char := cs.dropWhile is_ws

/-! ## Strings -/

def hex_digit (c : Char) : Option Nat :=
  if 48 ≤ c.toNat ∧ c.toNat ≤ 57 then some (c.toNat - 48)
  else if 97 ≤ c.toNat ∧ c.toNat ≤ 102 then some (c.toNat - 87)
  else if 65 ≤ c.toNat ∧ c.toNat ≤ 70 then some (c.toNat - 55)
  else none

def decode_four_hex_digits (a b c d : Char) : Option Nat := do
  let a ← hex_digit a
  let b ← hex_digit b
  let c ← hex_digit c
  let d ← hex_digit d
  some (((a * 16 + b) * 16 + c) * 16 + d)

def simple_escape (c : Char) : Option Char :=
  if c = '"' ∨ c = '\\' ∨ c = '/' then some c
  else if c = 'b' then some '\x08'
  else if c = 'f' then some '\x0c'
  else if c = 'n' then some '\n'
  else if c = 'r' then some '\r'
  else if c = 't' then some '\t'
  else none

/-- A string after its opening quote: its characters, and as numbers the code units it
has escaped, up to the closing quote. -/
def parse_units : List Char → Option (List (Char ⊕ Nat) × List Char)
  | [] => none
  | c :: cs =>
    if c = '"' then some ([], cs)
    else if c = '\\' then
      match cs with
      | [] => none
      | 'u' :: a :: b :: c :: d :: rest => do
        let unit ← decode_four_hex_digits a b c d
        let (units, rest) ← parse_units rest
        some (.inr unit :: units, rest)
      | e :: rest => do
        let ch ← simple_escape e
        let (units, rest) ← parse_units rest
        some (.inl ch :: units, rest)
    else if c.toNat < 0x20 then none
    else do
      let (units, rest) ← parse_units cs
      some (.inl c :: units, rest)

/-- Code units become characters; a high surrogate needs its low one right after it. -/
def join_units : List (Char ⊕ Nat) → Option (List Char)
  | [] => some []
  | .inl c :: units => (join_units units).map (c :: ·)
  | .inr n :: units =>
    if n < 0xD800 ∨ 0xDFFF < n then (join_units units).map (Char.ofNat n :: ·)
    else
      match units with
      | .inr m :: units =>
        if n < 0xDC00 ∧ 0xDC00 ≤ m ∧ m ≤ 0xDFFF then
          (join_units units).map (Char.ofNat (0x10000 + (n - 0xD800) * 0x400 + (m - 0xDC00)) :: ·)
        else none
      | _ => none

def parse_str (cs : List Char) : Option (String × List Char) := do
  let (units, rest) ← parse_units cs
  let chars ← join_units units
  some (String.ofList chars, rest)

/-! ## Numbers -/

section
variable (parse_f64 : List Char → Option Rat)

/-- The digits after a point, or after the letter of an exponent and its sign: at least one. -/
def parse_digits (cs : List Char) : Option (List Char × List Char) :=
  if cs.takeWhile Char.isDigit = [] then none
  else some (cs.takeWhile Char.isDigit, cs.dropWhile Char.isDigit)

def parse_fraction : List Char → Option (List Char × List Char)
  | '.' :: cs => (parse_digits cs).map (fun p => ('.' :: p.1, p.2))
  | cs => some ([], cs)

def parse_exponent (cs : List Char) : Option (List Char × List Char) :=
  match cs with
  | e :: rest =>
    if e = 'e' ∨ e = 'E' then
      match rest with
      | '+' :: rest => (parse_digits rest).map (fun p => (e :: '+' :: p.1, p.2))
      | '-' :: rest => (parse_digits rest).map (fun p => (e :: '-' :: p.1, p.2))
      | rest => (parse_digits rest).map (fun p => (e :: p.1, p.2))
    else some ([], cs)
  | [] => some ([], [])

/-- A number after its sign. An integer that fits 64 bits stays one; `-0` is a double. -/
def parse_magnitude (negative : Bool) (cs : List Char) : Option (Value × List Char) := do
  let (digits, rest) ← parse_digits cs
  if 1 < digits.length ∧ digits.head? = some '0' then none
  let (fraction, rest) ← parse_fraction rest
  let (exponent, rest) ← parse_exponent rest
  let float : Option Value :=
    (parse_f64 ((if negative then ['-'] else []) ++ digits ++ fraction ++ exponent)).map Value.float
  let n := Nat.ofDigitChars 10 digits 0
  let value ←
    if fraction = [] ∧ exponent = [] then
      if negative then
        if n = 0 then some (.float 0) else if n ≤ 9223372036854775808 then some (.integer (-(n : Int))) else float
      else if n ≤ 18446744073709551615 then some (.integer n) else float
    else float
  some (value, rest)

def parse_number : List Char → Option (Value × List Char)
  | '-' :: cs => parse_magnitude parse_f64 true cs
  | cs => parse_magnitude parse_f64 false cs

/-! ## Values -/

/-- `BTreeMap::insert`. -/
def insert_field (key : String) (value : Value) : List (String × Value) → List (String × Value)
  | [] => [(key, value)]
  | (k, v) :: fields =>
    if key < k then (key, value) :: (k, v) :: fields
    else if key = k then (key, value) :: fields
    else (k, v) :: insert_field key value fields

/-- The map that entries read in this order leave. -/
def collect (fields : List (String × Value)) : List (String × Value) :=
  fields.foldl (fun map f => insert_field f.1 f.2 map) []

/-- A word of the grammar. -/
def parse_ident (ident : List Char) (value : Value) (cs : List Char) : Option (Value × List Char) :=
  if ident <+: cs then some (value, cs.drop ident.length) else none

/-- After an entry: a comma and `more` entries, or the closing bracket. -/
def parse_more {β : Type} (close : Char) (more : List Char → Option (List β × List Char)) (entry : β)
    (cs : List Char) : Option (List β × List Char) :=
  match skip_ws cs with
  | [] => none
  | c :: rest =>
    if c = ',' then (more rest).map (fun p => (entry :: p.1, p.2))
    else if c = close then some ([entry], rest)
    else none

mutual
/-- A value and what follows it. `depth` more levels may be opened; the fuel is twice
the text's length, of which every two steps read at least a character. -/
def parse_value : Nat → Nat → List Char → Option (Value × List Char)
  | 0, _, _ => none
  | fuel + 1, depth, cs =>
    match skip_ws cs with
    | [] => none
    | c :: rest =>
      if c = 'n' then parse_ident ['u', 'l', 'l'] .null rest
      else if c = 't' then parse_ident ['r', 'u', 'e'] (.bool true) rest
      else if c = 'f' then parse_ident ['a', 'l', 's', 'e'] (.bool false) rest
      else if c = '"' then (parse_str rest).map (fun p => (.string p.1, p.2))
      else if c = '[' then
        match depth with
        | 0 => none
        | depth + 1 =>
          if (skip_ws rest).head? = some ']' then some (.array [], (skip_ws rest).drop 1)
          else (parse_items fuel depth rest).map (fun p => (.array p.1, p.2))
      else if c = '\x7b' then
        match depth with
        | 0 => none
        | depth + 1 =>
          if (skip_ws rest).head? = some '\x7d' then some (.object [], (skip_ws rest).drop 1)
          else (parse_fields fuel depth rest).map (fun p => (.object (collect p.1), p.2))
      else if c = '-' ∨ c.isDigit then parse_number parse_f64 (c :: rest)
      else none

/-- The items of an array up to its closing bracket. -/
def parse_items : Nat → Nat → List Char → Option (List Value × List Char)
  | 0, _, _ => none
  | fuel + 1, depth, cs =>
    (parse_value fuel depth cs).bind (fun p => parse_more ']' (parse_items fuel depth) p.1 p.2)

/-- The entries of an object up to its closing brace. -/
def parse_fields : Nat → Nat → List Char → Option (List (String × Value) × List Char)
  | 0, _, _ => none
  | fuel + 1, depth, cs =>
    match skip_ws cs with
    | '"' :: rest =>
      (parse_str rest).bind (fun key =>
        match skip_ws key.2 with
        | ':' :: rest =>
          (parse_value fuel depth rest).bind (fun p => parse_more '\x7d' (parse_fields fuel depth) (key.1, p.1) p.2)
        | _ => none)
    | _ => none
end

/-- `serde_json::from_str`, with at most `limit` levels of nesting. -/
def from_str (limit : Nat) (text : String) : Option Value :=
  match parse_value parse_f64 (2 * text.toList.length) limit text.toList with
  | some (v, rest) => if skip_ws rest = [] then some v else none
  | none => none
end

end Json
end Ambush

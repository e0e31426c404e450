import Mathlib.Data.Rat.Defs
/-!
# JSON values

`serde_json::Value`. A number is an integer or a finite double, and `serde_json`
never calls an integer equal to a double; doubles are their exact values, so that
`0.0` and `-0.0` are one value here as they are under the code's `==`. An object's
fields stand in key order, as its `BTreeMap` yields them.
-/
namespace Ambush

inductive Value where
  | null
  | bool (b : Bool)
  | integer (n : Int)
  | float (q : Rat)
  | string (s : String)
  | array (items : List Value)
  | object (fields : List (String × Value))

namespace Value

mutual
def decEq : (a b : Value) → Decidable (a = b)
  | .null, .null => isTrue rfl
  | .bool a, .bool b => if h : a = b then isTrue (by rw [h]) else isFalse (by simp [h])
  | .integer a, .integer b => if h : a = b then isTrue (by rw [h]) else isFalse (by simp [h])
  | .float a, .float b => if h : a = b then isTrue (by rw [h]) else isFalse (by simp [h])
  | .string a, .string b => if h : a = b then isTrue (by rw [h]) else isFalse (by simp [h])
  | .array a, .array b =>
    match decEqItems a b with
    | isTrue h => isTrue (by rw [h])
    | isFalse h => isFalse (by simp [h])
  | .object a, .object b =>
    match decEqFields a b with
    | isTrue h => isTrue (by rw [h])
    | isFalse h => isFalse (by simp [h])
  | .null, .bool _ | .null, .integer _ | .null, .float _ | .null, .string _ | .null, .array _ | .null, .object _
  | .bool _, .null | .bool _, .integer _ | .bool _, .float _ | .bool _, .string _ | .bool _, .array _
  | .bool _, .object _ | .integer _, .null | .integer _, .bool _ | .integer _, .float _ | .integer _, .string _
  | .integer _, .array _ | .integer _, .object _ | .float _, .null | .float _, .bool _ | .float _, .integer _
  | .float _, .string _ | .float _, .array _ | .float _, .object _ | .string _, .null | .string _, .bool _
  | .string _, .integer _ | .string _, .float _ | .string _, .array _ | .string _, .object _ | .array _, .null
  | .array _, .bool _ | .array _, .integer _ | .array _, .float _ | .array _, .string _ | .array _, .object _
  | .object _, .null | .object _, .bool _ | .object _, .integer _ | .object _, .float _ | .object _, .string _
  | .object _, .array _ => isFalse (by simp)

def decEqItems : (a b : List Value) → Decidable (a = b)
  | [], [] => isTrue rfl
  | x :: xs, y :: ys =>
    match decEq x y, decEqItems xs ys with
    | isTrue h, isTrue k => isTrue (by rw [h, k])
    | isFalse h, _ => isFalse (by simp [h])
    | _, isFalse k => isFalse (by simp [k])
  | [], _ :: _ | _ :: _, [] => isFalse (by simp)

def decEqFields : (a b : List (String × Value)) → Decidable (a = b)
  | [], [] => isTrue rfl
  | (k, x) :: xs, (l, y) :: ys =>
    if hk : k = l then
      match decEq x y, decEqFields xs ys with
      | isTrue h, isTrue t => isTrue (by rw [hk, h, t])
      | isFalse h, _ => isFalse (by simp [h])
      | _, isFalse t => isFalse (by simp [t])
    else isFalse (by simp [hk])
  | [], _ :: _ | _ :: _, [] => isFalse (by simp)
end

instance : DecidableEq Value := decEq

/-- `Value::is_null`. -/
def is_null : Value → Bool
  | .null => true
  | _ => false

/-- `Value::get` by field name: nothing on a value that is not an object. -/
def get (v : Value) (key : String) : Option Value :=
  match v with
  | .object fields => (fields.find? (fun f => f.1 == key)).map (·.2)
  | _ => none

/-- `Value::as_str`. -/
def as_str : Value → Option String
  | .string s => some s
  | _ => none

/-- An optional text, as `serde` writes an `Option<String>`. -/
def optional : Option String → Value
  | some s => .string s
  | none => .null

/-! ## A readable form -/

mutual
/-- The value written out; an object is the list of its fields' values. -/
def text : Value → String
  | .null => "-"
  | .bool b => if b then "+" else "~"
  | .integer n => toString n
  | .float q => toString q.num ++ "/" ++ toString q.den
  | .string s => s
  | .array items => "[" ++ textItems items ++ "]"
  | .object fields => "(" ++ textFields fields ++ ")"

def textItems : List Value → String
  | [] => ""
  | v :: vs => text v ++ "," ++ textItems vs

def textFields : List (String × Value) → String
  | [] => ""
  | (_, v) :: fs => text v ++ "," ++ textFields fs
end

/-! ## Doubles -/

mutual
/-- The value with its doubles replaced. -/
def mapFloats (f : Rat → Rat) : Value → Value
  | .null => .null
  | .bool b => .bool b
  | .integer n => .integer n
  | .float q => .float (f q)
  | .string s => .string s
  | .array items => .array (mapFloatsItems f items)
  | .object fields => .object (mapFloatsFields f fields)

def mapFloatsItems (f : Rat → Rat) : List Value → List Value
  | [] => []
  | v :: vs => mapFloats f v :: mapFloatsItems f vs

def mapFloatsFields (f : Rat → Rat) : List (String × Value) → List (String × Value)
  | [] => []
  | (k, v) :: fs => (k, mapFloats f v) :: mapFloatsFields f fs
end

/-! ## Induction over values -/

/-- Induction with the hypothesis for every item of an array and every field of an object. -/
theorem induction {P : Value → Prop} (null : P .null) (bool : ∀ b, P (.bool b)) (integer : ∀ n, P (.integer n))
    (float : ∀ q, P (.float q)) (string : ∀ s, P (.string s))
    (array : ∀ items : List Value, (∀ v ∈ items, P v) → P (.array items))
    (object : ∀ fields : List (String × Value), (∀ f ∈ fields, P f.2) → P (.object fields)) (v : Value) : P v := by
  refine @Value.rec P (fun items => ∀ v ∈ items, P v) (fun fields => ∀ f ∈ fields, P f.2) (fun f => P f.2)
    null bool integer float string array object ?_ ?_ ?_ ?_ ?_ v
  · exact fun v h => absurd h List.not_mem_nil
  · intro w items hw hitems v hv
    rcases List.mem_cons.1 hv with rfl | hv
    · exact hw
    · exact hitems v hv
  · exact fun f h => absurd h List.not_mem_nil
  · intro g fields hg hfields f hf
    rcases List.mem_cons.1 hf with rfl | hf
    · exact hg
    · exact hfields f hf
  · exact fun k v hv => hv

end Value
end Ambush

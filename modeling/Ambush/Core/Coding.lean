import Ambush.Lib.Coding
import Ambush.Core.Signing
/-!
# A code for values

`Value.code` writes a value so that no two values read alike, and `Crypto.coded` takes
it for a digest: a hash function without collisions that a run can be computed with.
-/
open Lib

namespace Ambush

namespace Value

/-- The sign and the size of an integer. -/
def codeInt (n : Int) : String := String.singleton (if n < 0 then '-' else '+') ++ (toString n.natAbs ++ ":")

/-- What the code of a value starts with. -/
def tag : Value → Char
  | .null => '0'
  | .bool b => if b then '1' else '2'
  | .integer _ => 'i'
  | .float _ => 'q'
  | .string _ => 's'
  | .array _ => 'a'
  | .object _ => 'o'

mutual
/-- The value written out so that no two values read alike. -/
def code (v : Value) : String :=
  String.singleton v.tag ++ match v with
    | .null | .bool _ => ""
    | .integer n => codeInt n
    | .float q => codeInt q.num ++ (toString q.den ++ ":")
    | .string s => sized s
    | .array items => codeItems items
    | .object fields => codeFields fields

def codeItems : List Value → String
  | [] => String.singleton '.'
  | v :: vs => String.singleton ',' ++ (code v ++ codeItems vs)

def codeFields : List (String × Value) → String
  | [] => String.singleton '.'
  | (k, v) :: fs => String.singleton ',' ++ (sized k ++ (code v ++ codeFields fs))
end

theorem codeInt_append_inj {m n : Int} {r r' : String} (h : codeInt m ++ r = codeInt n ++ r') : m = n ∧ r = r' := by
  simp only [codeInt, String.append_assoc] at h
  obtain ⟨hs, h⟩ := singleton_append_inj h
  obtain ⟨hn, hr⟩ := number_append_inj (by simpa only [String.append_assoc] using h)
  refine ⟨?_, hr⟩
  split at hs <;> split at hs
  · omega
  · exact absurd hs (by decide)
  · exact absurd hs (by decide)
  · omega

theorem tag_eq_of_code_append {v w : Value} {r r' : String} (h : code v ++ r = code w ++ r') : v.tag = w.tag := by
  unfold code at h
  rw [String.append_assoc, String.append_assoc] at h
  exact (singleton_append_inj h).1

mutual
theorem code_append_inj (v w : Value) {r r' : String} (h : code v ++ r = code w ++ r') : v = w ∧ r = r' := by
  have ht := tag_eq_of_code_append h
  cases v <;> cases w <;> simp only [tag] at ht <;> try (first | contradiction | (split at ht <;> contradiction))
  case null.null => exact ⟨rfl, (String.append_right_inj _).1 h⟩
  case bool.bool a b =>
    have hab : a = b := by cases a <;> cases b <;> simp_all
    subst hab
    exact ⟨rfl, (String.append_right_inj _).1 h⟩
  case integer.integer m n =>
    simp only [code, String.append_assoc] at h
    obtain ⟨rfl, hr⟩ := codeInt_append_inj (singleton_append_inj h).2
    exact ⟨rfl, hr⟩
  case float.float p q =>
    simp only [code, String.append_assoc] at h
    obtain ⟨hn, h⟩ := codeInt_append_inj (singleton_append_inj h).2
    obtain ⟨hd, hr⟩ := number_append_inj (by simpa only [String.append_assoc] using h)
    exact ⟨by rw [Rat.ext hn hd], hr⟩
  case string.string s t =>
    simp only [code, String.append_assoc] at h
    obtain ⟨rfl, hr⟩ := sized_append_inj (singleton_append_inj h).2
    exact ⟨rfl, hr⟩
  case array.array l l' =>
    simp only [code, String.append_assoc] at h
    obtain ⟨rfl, hr⟩ := codeItems_append_inj l l' (singleton_append_inj h).2
    exact ⟨rfl, hr⟩
  case object.object l l' =>
    simp only [code, String.append_assoc] at h
    obtain ⟨rfl, hr⟩ := codeFields_append_inj l l' (singleton_append_inj h).2
    exact ⟨rfl, hr⟩

theorem codeItems_append_inj (l l' : List Value) {r r' : String} (h : codeItems l ++ r = codeItems l' ++ r') :
    l = l' ∧ r = r' := by
  match l, l' with
  | [], [] => exact ⟨rfl, (String.append_right_inj _).1 h⟩
  | v :: l, w :: l' =>
    simp only [codeItems, String.append_assoc] at h
    obtain ⟨hv, hl⟩ := code_append_inj v w (singleton_append_inj h).2
    obtain ⟨hl, hr⟩ := codeItems_append_inj l l' hl
    exact ⟨by rw [hv, hl], hr⟩
  | [], _ :: _ | _ :: _, [] =>
    simp only [codeItems, String.append_assoc] at h
    exact absurd (singleton_append_inj h).1 (by decide)

theorem codeFields_append_inj (l l' : List (String × Value)) {r r' : String}
    (h : codeFields l ++ r = codeFields l' ++ r') : l = l' ∧ r = r' := by
  match l, l' with
  | [], [] => exact ⟨rfl, (String.append_right_inj _).1 h⟩
  | (k, v) :: l, (k', w) :: l' =>
    simp only [codeFields, String.append_assoc] at h
    obtain ⟨hk, hv⟩ := sized_append_inj (singleton_append_inj h).2
    obtain ⟨hv, hl⟩ := code_append_inj v w hv
    obtain ⟨hl, hr⟩ := codeFields_append_inj l l' hl
    exact ⟨by rw [hk, hv, hl], hr⟩
  | [], _ :: _ | _ :: _, [] =>
    simp only [codeFields, String.append_assoc] at h
    exact absurd (singleton_append_inj h).1 (by decide)
end

theorem code_injective {v w : Value} (h : code v = code w) : v = w :=
  (code_append_inj v w (congrArg (· ++ "") h)).1

/-! ## Digests without collisions -/

mutual
/-- Equal but for doubles: canonical JSON writes `1.0` and `1` alike. -/
def Alike : Value → Value → Prop
  | .null, .null => True
  | .bool a, .bool b => a = b
  | .integer m, .integer n => m = n
  | .float _, .float _ | .float _, .integer _ | .integer _, .float _ => True
  | .string s, .string t => s = t
  | .array l, .array l' => AlikeItems l l'
  | .object l, .object l' => AlikeFields l l'
  | _, _ => False

def AlikeItems : List Value → List Value → Prop
  | [], [] => True
  | v :: vs, w :: ws => Alike v w ∧ AlikeItems vs ws
  | _, _ => False

def AlikeFields : List (String × Value) → List (String × Value) → Prop
  | [], [] => True
  | (k, v) :: fs, (k', w) :: fs' => k = k' ∧ Alike v w ∧ AlikeFields fs fs'
  | _, _ => False
end

mutual
theorem alike_refl (v : Value) : Alike v v := by
  cases v with
  | array l => simpa only [Alike] using alikeItems_refl l
  | object l => simpa only [Alike] using alikeFields_refl l
  | _ => simp only [Alike]

theorem alikeItems_refl (l : List Value) : AlikeItems l l := by
  match l with
  | [] => simp only [AlikeItems]
  | v :: l =>
    simp only [AlikeItems]
    exact ⟨alike_refl v, alikeItems_refl l⟩

theorem alikeFields_refl (l : List (String × Value)) : AlikeFields l l := by
  match l with
  | [] => simp only [AlikeFields]
  | (k, v) :: l =>
    simp only [AlikeFields]
    exact ⟨trivial, alike_refl v, alikeFields_refl l⟩
end

end Value

/-- What the code relies on SHA-256 for: content with the same digest is the same. -/
def Crypto.CollisionFree (c : Crypto) : Prop := ∀ v w, c.digest v = c.digest w → v.Alike w

/-- `Crypto.plain` with a digest that tells all values apart. -/
def Crypto.coded : Crypto := { Crypto.plain with digest := Value.code }

theorem Crypto.coded_collisionFree : Crypto.coded.CollisionFree := by
  intro v w h
  rw [Value.code_injective h]
  exact Value.alike_refl w

end Ambush

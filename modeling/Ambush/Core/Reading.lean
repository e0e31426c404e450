import Ambush.Core.Rfc8785
import Ambush.Core.Json
import Mathlib.Data.String.Basic
import Mathlib.Tactic.IntervalCases
/-!
# Reading back what was written

The reader returns every string, number and value that `canonicalize` writes. What
follows a value in the text never continues it, so the reader stops at its end.
-/
open Lib

namespace Ambush
namespace Json
open Canonical

theorem skip_ws_cons {c : Char} (h : is_ws c = false) (cs : List Char) : skip_ws (c :: cs) = c :: cs :=
  List.dropWhile_cons_of_neg (by simp [h])

/-! ## Strings -/

/-- The hex digits the code writes are read back to the character. -/
theorem hex4_read (n : Nat) (h : n < 0xa0) :
    ∃ a b c d, (hex4 n).toList = [a, b, c, d] ∧ decode_four_hex_digits a b c d = some n := by
  have key : ∀ n : Fin 0xa0, (hex4 n).toList.length = 4 ∧
      decode_four_hex_digits ((hex4 n).toList.getD 0 ' ') ((hex4 n).toList.getD 1 ' ') ((hex4 n).toList.getD 2 ' ')
        ((hex4 n).toList.getD 3 ' ') = some n.1 := by decide +kernel
  obtain ⟨hlen, hread⟩ := key ⟨n, h⟩
  generalize (hex4 n).toList = digits at hlen hread ⊢
  rcases digits with _ | ⟨a, _ | ⟨b, _ | ⟨c, _ | ⟨d, _ | ⟨e, rest⟩⟩⟩⟩⟩ <;> simp at hlen
  exact ⟨a, b, c, d, rfl, hread⟩

/-- Reading one written character, whatever follows it. -/
def ReadsChar (c : Char) (text : List Char) : Prop :=
  ∃ u : Char ⊕ Nat, (∀ units, join_units (u :: units) = (join_units units).map (c :: ·)) ∧
    ∀ rest, parse_units (text ++ rest) = (parse_units rest).map (fun p => (u :: p.1, p.2))

theorem readsChar_simple {c e : Char} (he : simple_escape e = some c) (hu : e ≠ 'u') : ReadsChar c ['\\', e] := by
  refine ⟨.inl c, fun units => rfl, fun rest => ?_⟩
  rw [List.cons_append, List.cons_append, List.nil_append, parse_units.eq_def]
  simp only [Char.reduceEq, ↓reduceIte]
  split
  · simp_all
  · simp_all
  · next h => 
    obtain ⟨rfl, rfl⟩ := List.cons.inj h
    cases parse_units rest <;> simp [he]

theorem readsChar_control {c : Char} (hc : c.toNat < 0xa0) : ReadsChar c ('\\' :: 'u' :: (hex4 c.toNat).toList) := by
  obtain ⟨x, y, z, w, htext, hread⟩ := hex4_read c.toNat hc
  refine ⟨.inr c.toNat, fun units => ?_, fun rest => ?_⟩
  · rw [join_units.eq_def]
    simp only [if_pos (show c.toNat < 0xD800 ∨ 0xDFFF < c.toNat from .inl (by omega)), Char.ofNat_toNat]
  · rw [htext, parse_units.eq_def]
    simp only [List.cons_append, List.nil_append, Char.reduceEq, ↓reduceIte, hread]
    cases parse_units rest <;> rfl

theorem readsChar_plain {c : Char} (hq : c ≠ '"') (hb : c ≠ '\\') (hc : 0x20 ≤ c.toNat) : ReadsChar c [c] := by
  refine ⟨.inl c, fun units => rfl, fun rest => ?_⟩
  rw [List.singleton_append, parse_units.eq_def]
  simp only [hq, hb, ↓reduceIte, Nat.not_lt.2 hc]
  cases parse_units rest <;> rfl

theorem readsChar_escape_char (c : Char) : ReadsChar c (escape_char c).toList := by
  unfold escape_char
  split
  · next h => subst h; exact readsChar_simple (e := '"') (by decide) (by decide)
  split
  · next h => subst h; exact readsChar_simple (e := '\\') (by decide) (by decide)
  split
  · next h => subst h; exact readsChar_simple (e := 'b') (by decide) (by decide)
  split
  · next h => subst h; exact readsChar_simple (e := 'f') (by decide) (by decide)
  split
  · next h => subst h; exact readsChar_simple (e := 'n') (by decide) (by decide)
  split
  · next h => subst h; exact readsChar_simple (e := 'r') (by decide) (by decide)
  split
  · next h => subst h; exact readsChar_simple (e := 't') (by decide) (by decide)
  split
  · next h =>
    rw [String.toList_append]
    refine readsChar_control ?_
    simp only [is_control, Bool.or_eq_true, Bool.and_eq_true, decide_eq_true_eq] at h
    omega
  · next hq hb _ _ _ _ _ h =>
    rw [String.toList_singleton]
    refine readsChar_plain hq hb ?_
    simp only [is_control, Bool.or_eq_true, Bool.and_eq_true, decide_eq_true_eq] at h
    omega

theorem parse_units_escaped (l rest : List Char) :
    ∃ units, join_units units = some l ∧
      parse_units ((escapeWith escape_char l).toList ++ '"' :: rest) = some (units, rest) := by
  induction l with
  | nil => exact ⟨[], rfl, by simp [escapeWith, parse_units.eq_def]⟩
  | cons c l ih =>
    obtain ⟨units, hjoin, hread⟩ := ih
    obtain ⟨u, hu, hparse⟩ := readsChar_escape_char c
    refine ⟨u :: units, by rw [hu, hjoin]; rfl, ?_⟩
    rw [escapeWith, String.toList_append, List.append_assoc, hparse, hread]
    rfl

theorem parse_str_escaped (s : String) (rest : List Char) :
    parse_str ((escape_json_string s).toList ++ '"' :: rest) = some (s, rest) := by
  obtain ⟨units, hjoin, hread⟩ := parse_units_escaped s.toList rest
  simp [parse_str, escape_json_string, hread, hjoin]

/-! ## Numbers -/

/-- What can follow a value inside a text. -/
def Stops (rest : List Char) : Prop := ∀ c ∈ rest.head?, c = ',' ∨ c = ']' ∨ c = '\x7d'

theorem Stops.not_digit {rest : List Char} (h : Stops rest) : ∀ c ∈ rest.head?, c.isDigit = false := by
  intro c hc
  rcases h c hc with rfl | rfl | rfl <;> decide

theorem parse_digits_toDigits (n : Nat) {rest : List Char} (h : Stops rest) :
    parse_digits (Nat.toDigits 10 n ++ rest) = some (Nat.toDigits 10 n, rest) := by
  have hall : ∀ c ∈ Nat.toDigits 10 n, c.isDigit = true :=
    fun c hc => Nat.isDigit_of_mem_toDigits (by decide) (by decide) hc
  have hrest : rest.takeWhile Char.isDigit = [] ∧ rest.dropWhile Char.isDigit = rest := by
    cases rest with
    | nil => exact ⟨rfl, rfl⟩
    | cons c rest =>
      have hc := h.not_digit c rfl
      exact ⟨List.takeWhile_cons_of_neg (by simp [hc]), List.dropWhile_cons_of_neg (by simp [hc])⟩
  rw [parse_digits, List.takeWhile_append_of_pos hall, List.dropWhile_append_of_pos hall, hrest.1, hrest.2,
    List.append_nil, if_neg Nat.toDigits_ne_nil]

/-- A number is written without leading zeros. -/
theorem toDigits_head_ne_zero (n : Nat) (h : 0 < n) : (Nat.toDigits 10 n).head? ≠ some '0' := by
  induction n using Nat.strong_induction_on with
  | _ n ih =>
    rcases Nat.lt_or_ge n 10 with hn | hn
    · rw [Nat.toDigits_of_lt_base hn]
      interval_cases n <;> decide
    · rw [Nat.toDigits_of_base_le (by decide) hn, List.head?_append_of_ne_nil _ Nat.toDigits_ne_nil]
      exact ih (n / 10) (by omega) (by omega)

theorem toDigits_no_leading_zero (n : Nat) : ¬ (1 < (Nat.toDigits 10 n).length ∧ (Nat.toDigits 10 n).head? = some '0') := by
  rintro ⟨hlen, hhead⟩
  rcases Nat.eq_zero_or_pos n with rfl | hn
  · simp at hlen
  · exact toDigits_head_ne_zero n hn hhead

theorem parse_magnitude_toDigits (parse_f64 : List Char → Option Rat) (negative : Bool) (n : Nat) {rest : List Char}
    (h : Stops rest) (hn : if negative then 0 < n ∧ n ≤ 9223372036854775808 else n ≤ 18446744073709551615) :
    parse_magnitude parse_f64 negative (Nat.toDigits 10 n ++ rest) =
      some (.integer (if negative then -(n : Int) else n), rest) := by
  have hfraction : parse_fraction rest = some ([], rest) := by
    unfold parse_fraction
    split
    · rcases h '.' rfl with h | h | h <;> exact absurd h (by decide)
    · rfl
  have hexponent : parse_exponent rest = some ([], rest) := by
    unfold parse_exponent
    split
    · next e rest =>
      rw [if_neg]
      rintro (rfl | rfl)
      · rcases h 'e' rfl with h | h | h <;> exact absurd h (by decide)
      · rcases h 'E' rfl with h | h | h <;> exact absurd h (by decide)
    · rfl
  simp only [parse_magnitude, parse_digits_toDigits n h, toDigits_no_leading_zero, ↓reduceIte, hfraction, hexponent,
    Nat.ofDigitChars_ten_toDigits, and_self, Option.bind_eq_bind, Option.bind_some]
  cases negative with
  | true =>
    have : n ≠ 0 ∧ n ≤ 9223372036854775808 := ⟨by simp at hn; omega, by simp at hn; omega⟩
    simp [this.1, this.2]
  | false =>
    simp only [Bool.false_eq_true, ↓reduceIte] at hn
    simp [hn]

theorem parse_number_toString (parse_f64 : List Char → Option Rat) {n : Int}
    (hlo : -9223372036854775808 ≤ n) (hhi : n ≤ 18446744073709551615) {rest : List Char} (h : Stops rest) :
    parse_number parse_f64 ((toString n).toList ++ rest) = some (.integer n, rest) := by
  rw [Int.toString_eq_repr, Int.repr_eq_if]
  split
  · next hpos =>
    rw [Nat.toList_repr]
    have hmag := parse_magnitude_toDigits parse_f64 false n.toNat h (by simp only [Bool.false_eq_true, ↓reduceIte]; omega)
    unfold parse_number
    split
    · next cs heq =>
      -- a sign is no digit
      exfalso
      cases hd : Nat.toDigits 10 n.toNat with
      | nil => exact Nat.toDigits_ne_nil hd
      | cons d ds =>
        rw [hd, List.cons_append, List.cons.injEq] at heq
        have := Nat.isDigit_of_mem_toDigits (b := 10) (n := n.toNat) (c := d) (by decide) (by decide) (by simp [hd])
        rw [heq.1] at this
        exact absurd this (by decide)
    · rw [hmag]
      simp only [Bool.false_eq_true, ↓reduceIte]
      congr 3
      omega
  · next hneg =>
    rw [String.toList_append, Nat.toList_repr]
    refine (parse_magnitude_toDigits parse_f64 true (-n).toNat h ?_).trans ?_
    · simp only [↓reduceIte]
      omega
    · simp only [↓reduceIte]
      congr 3
      omega

/-! ## Maps -/

/-- Fields in key order, no key twice. -/
def Ordered (fields : List (String × Value)) : Prop := fields.Pairwise (fun f g => f.1 < g.1)

theorem mem_insert_field {key : String} {value : Value} {fields : List (String × Value)} (h : Ordered fields)
    {f : String × Value} : f ∈ insert_field key value fields ↔ f = (key, value) ∨ (f ∈ fields ∧ f.1 ≠ key) := by
  induction fields with
  | nil => simp [insert_field]
  | cons g fields ih =>
    obtain ⟨hg, hf⟩ := List.pairwise_cons.1 h
    rw [insert_field]
    split
    · next hlt =>
      have hne : ∀ e ∈ g :: fields, e.1 ≠ key := by
        intro e he
        rcases List.mem_cons.1 he with rfl | he
        · exact hlt.ne'
        · exact (hlt.trans (hg e he)).ne'
      rw [List.mem_cons]
      exact or_congr_right ⟨fun he => ⟨he, hne f he⟩, fun he => he.1⟩
    · split
      · next hnlt heq =>
        have hne : ∀ e ∈ fields, e.1 ≠ key := fun e he => heq ▸ (hg e he).ne'
        rw [List.mem_cons, List.mem_cons]
        refine or_congr_right ⟨fun he => ⟨.inr he, hne f he⟩, ?_⟩
        rintro ⟨rfl | he, hk⟩
        · exact absurd heq.symm hk
        · exact he
      · next hne =>
        rw [List.mem_cons, List.mem_cons, ih hf]
        constructor
        · rintro (rfl | rfl | ⟨he, hk⟩)
          · exact .inr ⟨.inl rfl, fun hk => hne hk.symm⟩
          · exact .inl rfl
          · exact .inr ⟨.inr he, hk⟩
        · rintro (rfl | ⟨rfl | he, hk⟩)
          · exact .inr (.inl rfl)
          · exact .inl rfl
          · exact .inr (.inr ⟨he, hk⟩)

theorem ordered_insert_field (key : String) (value : Value) {fields : List (String × Value)} (h : Ordered fields) :
    Ordered (insert_field key value fields) := by
  induction fields with
  | nil => exact List.pairwise_singleton _ _
  | cons g fields ih =>
    obtain ⟨hg, hf⟩ := List.pairwise_cons.1 h
    rw [insert_field]
    split
    · next hlt =>
      refine List.pairwise_cons.2 ⟨fun e he => ?_, h⟩
      rcases List.mem_cons.1 he with rfl | he
      · exact hlt
      · exact hlt.trans (hg e he)
    · split
      · next hnlt heq => exact List.pairwise_cons.2 ⟨fun e he => heq ▸ hg e he, hf⟩
      · next hnlt hne =>
        refine List.pairwise_cons.2 ⟨fun e he => ?_, ih hf⟩
        rcases (mem_insert_field hf).1 he with rfl | ⟨he, -⟩
        · exact lt_of_le_of_ne (not_lt.1 hnlt) (fun h => hne h.symm)
        · exact hg e he

/-- Entries with distinct keys leave a map of exactly these entries. -/
theorem collect_spec {fields : List (String × Value)} (h : (fields.map (·.1)).Nodup) :
    Ordered (collect fields) ∧ ∀ f, f ∈ collect fields ↔ f ∈ fields := by
  suffices hsuff : ∀ map, Ordered map → (∀ f ∈ fields, ∀ g ∈ map, f.1 ≠ g.1) →
      Ordered (fields.foldl (fun map f => insert_field f.1 f.2 map) map) ∧
        ∀ f, f ∈ fields.foldl (fun map f => insert_field f.1 f.2 map) map ↔ f ∈ map ∨ f ∈ fields by
    obtain ⟨h1, h2⟩ := hsuff [] List.Pairwise.nil (fun _ _ _ hg => absurd hg List.not_mem_nil)
    exact ⟨h1, fun f => (h2 f).trans (by simp)⟩
  induction fields with
  | nil => exact fun map hmap _ => ⟨hmap, fun f => by simp⟩
  | cons g fields ih =>
    intro map hmap hdisjoint
    rw [List.map_cons, List.nodup_cons] at h
    obtain ⟨h1, h2⟩ := ih h.2 (insert_field g.1 g.2 map) (ordered_insert_field _ _ hmap) (by
      intro f hf e he
      rcases (mem_insert_field hmap).1 he with rfl | ⟨he, -⟩
      · exact fun hk => h.1 (hk ▸ List.mem_map_of_mem hf)
      · exact hdisjoint f (List.mem_cons_of_mem _ hf) e he)
    refine ⟨h1, fun f => ?_⟩
    rw [List.foldl_cons, h2 f, mem_insert_field hmap, List.mem_cons]
    constructor
    · rintro ((rfl | ⟨hf, -⟩) | hf)
      · exact .inr (.inl rfl)
      · exact .inl hf
      · exact .inr (.inr hf)
    · rintro (hf | rfl | hf)
      · exact .inl (.inr ⟨hf, fun hk => hdisjoint g List.mem_cons_self f hf hk.symm⟩)
      · exact .inl (.inl rfl)
      · exact .inr hf

theorem Ordered.nodup {fields : List (String × Value)} (h : Ordered fields) : (fields.map (·.1)).Nodup :=
  List.pairwise_map.2 (h.imp (fun hlt => hlt.ne))

end Json
end Ambush

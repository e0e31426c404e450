import Mathlib.Logic.Basic
/-!
# Texts that tell where they end

A number followed by a colon, and a text after the number of its bytes, can be read
back from the front of any longer text. The cancellation lemmas say so. Two texts merely
joined by a separator cannot be told apart where a part contains it (`joined_eq_iff`).
-/
namespace Lib

/-- A text after the number of its bytes. -/
def sized (s : String) : String := toString s.utf8ByteSize ++ ":" ++ s

theorem toString_nat_inj {m n : Nat} (h : toString m = toString n) : m = n := by
  have := congrArg (fun s : String => Nat.ofDigitChars 10 s.toList 0) h
  simpa [Nat.toString_eq_repr, Nat.toList_repr, Nat.ofDigitChars_ten_toDigits] using this

theorem colon_notMem_toString (n : Nat) : ':' ∉ (toString n).toList := by
  intro h
  rw [Nat.toString_eq_repr, Nat.toList_repr] at h
  exact absurd (Nat.isDigit_of_mem_toDigits (by decide) (by decide) h) (by decide)

/-- Two lists that agree after different colon-free beginnings have the same beginning. -/
theorem colon_append_inj {a b x y : List Char} (ha : ':' ∉ a) (hb : ':' ∉ b) (h : a ++ ':' :: x = b ++ ':' :: y) :
    a = b ∧ x = y := by
  induction a generalizing b with
  | nil =>
    cases b with
    | nil => simpa using h
    | cons d b =>
      simp only [List.nil_append, List.cons_append, List.cons.injEq] at h
      exact absurd (List.mem_cons.2 (.inl h.1)) hb
  | cons c a ih =>
    cases b with
    | nil =>
      simp only [List.nil_append, List.cons_append, List.cons.injEq] at h
      exact absurd (List.mem_cons.2 (.inl h.1.symm)) ha
    | cons d b =>
      simp only [List.cons_append, List.cons.injEq, List.mem_cons, not_or] at h ha hb
      obtain ⟨hax, rfl⟩ := ih ha.2 hb.2 h.2
      exact ⟨by rw [h.1, hax], rfl⟩

theorem number_append_inj {m n : Nat} {r r' : String} (h : toString m ++ ":" ++ r = toString n ++ ":" ++ r') :
    m = n ∧ r = r' := by
  have hl := congrArg String.toList h
  simp only [String.toList_append, List.append_assoc] at hl
  obtain ⟨h1, h2⟩ := colon_append_inj (colon_notMem_toString m) (colon_notMem_toString n) hl
  exact ⟨toString_nat_inj (String.toList_inj.1 h1), String.toList_inj.1 h2⟩

theorem sized_append_inj {s t r r' : String} (h : sized s ++ r = sized t ++ r') : s = t ∧ r = r' := by
  simp only [sized, String.append_assoc] at h
  obtain ⟨hsize, h⟩ := number_append_inj (by simpa only [String.append_assoc] using h)
  have hb := congrArg String.toByteArray h
  simp only [String.toByteArray_append] at hb
  have hs : s = t := String.toByteArray_inj.1 (ByteArray.append_inj_left hb hsize)
  subst hs
  exact ⟨rfl, (String.append_right_inj s).1 h⟩

theorem singleton_append_inj {a b : Char} {r r' : String} (h : String.singleton a ++ r = String.singleton b ++ r') :
    a = b ∧ r = r' := by
  have hl := congrArg String.toList h
  simp only [String.toList_append, String.toList_singleton, List.singleton_append, List.cons.injEq] at hl
  exact ⟨hl.1, String.toList_inj.1 hl.2⟩

/-! ## Joined texts -/

/-- The separator stands inside one left part, with the other left part before it and
the rest at the front of the other right part. -/
def Straddles (sep x y x' y' : String) : Prop := ∃ w, x = x' ++ sep ++ w ∧ y' = w ++ sep ++ y

/-- Two joined texts are equal when their parts are, or when one straddles the other. -/
theorem joined_eq_iff (sep : Char) (x y x' y' : String) :
    x ++ String.singleton sep ++ y = x' ++ String.singleton sep ++ y' ↔
      (x = x' ∧ y = y') ∨ Straddles (String.singleton sep) x y x' y' ∨ Straddles (String.singleton sep) x' y' x y := by
  have key : ∀ (a b a' b' : List Char), (∃ l, a' = a ++ l ∧ sep :: b = l ++ sep :: b') →
      (a = a' ∧ b = b') ∨ ∃ w, a' = a ++ sep :: w ∧ b = w ++ sep :: b' := by
    rintro a b a' b' ⟨l, rfl, hl⟩
    cases l with
    | nil => exact .inl ⟨by simp, by simpa using hl⟩
    | cons d l =>
      simp only [List.cons_append, List.cons.injEq] at hl
      exact .inr ⟨l, by rw [← hl.1], hl.2⟩
  -- back from lists of characters to texts
  have text : ∀ {p q p' q' : String}, (∃ w, p'.toList = p.toList ++ sep :: w ∧ q.toList = w ++ sep :: q'.toList) →
      Straddles (String.singleton sep) p' q' p q := by
    rintro p q p' q' ⟨w, h1, h2⟩
    exact ⟨String.ofList w, String.toList_inj.1 (by simp [h1]), String.toList_inj.1 (by simp [h2])⟩
  constructor
  · intro h
    have hl := congrArg String.toList h
    simp only [String.toList_append, String.toList_singleton, List.append_assoc, List.singleton_append] at hl
    rcases List.append_eq_append_iff.1 hl with hl | ⟨l, h1, h2⟩
    · rcases key _ _ _ _ hl with ⟨h1, h2⟩ | hw
      · exact .inl ⟨String.toList_inj.1 h1, String.toList_inj.1 h2⟩
      · exact .inr (.inr (text hw))
    · rcases key _ _ _ _ ⟨l, h1, h2⟩ with ⟨h1, h2⟩ | hw
      · exact .inl ⟨(String.toList_inj.1 h1).symm, (String.toList_inj.1 h2).symm⟩
      · exact .inr (.inl (text hw))
  · rintro (⟨rfl, rfl⟩ | ⟨w, rfl, rfl⟩ | ⟨w, rfl, rfl⟩) <;> simp only [String.append_assoc]

/-! ## Texts with a separator between them -/

section
variable {α : Type} {sep : String} {f g : α → String} {l : List α}

theorem length_intercalate_map_le (h : ∀ x ∈ l, (f x).length ≤ (g x).length) :
    (sep.intercalate (l.map f)).length ≤ (sep.intercalate (l.map g)).length := by
  induction l with
  | nil => simp
  | cons x l ih =>
    have hx := h x List.mem_cons_self
    have hl := ih (fun y hy => h y (List.mem_cons_of_mem _ hy))
    cases l with
    | nil => simpa using hx
    | cons y l =>
      simp only [List.map_cons, String.intercalate_cons_cons, String.length_append] at hl ⊢
      omega

theorem length_intercalate_map_lt (h : ∀ x ∈ l, (f x).length ≤ (g x).length) {x : α} (hx : x ∈ l)
    (hlt : (f x).length < (g x).length) :
    (sep.intercalate (l.map f)).length < (sep.intercalate (l.map g)).length := by
  induction l with
  | nil => exact absurd hx List.not_mem_nil
  | cons y l ih =>
    have hy := h y List.mem_cons_self
    have htail : ∀ z ∈ l, (f z).length ≤ (g z).length := fun z hz => h z (List.mem_cons_of_mem _ hz)
    cases l with
    | nil =>
      obtain rfl := List.mem_singleton.1 hx
      simpa using hlt
    | cons z l =>
      have hle := @length_intercalate_map_le α sep f g (z :: l) htail
      simp only [List.map_cons, String.intercalate_cons_cons, String.length_append] at hle ih ⊢
      rcases List.mem_cons.1 hx with rfl | hx
      · omega
      · have := ih htail hx
        omega
end

end Lib

import Ambush.Lib.Texts
import Mathlib.Algebra.GroupWithZero.Nat
import Mathlib.Data.List.Infix
import Mathlib.Logic.Function.Basic
/-!
# Prefix codes

A code of which no word is the start of another word: read from the front of anything longer, a word ends where it was made to end.
Words of one length are such a code, and so are words closed by what none of them contains; one word after another is one again.
-/
namespace Lib

variable {α β γ : Type}

/-- No word is the start of another. -/
def PrefixFree (enc : α → List β) : Prop := ∀ a b, enc a <+: enc b → a = b

namespace PrefixFree
variable {enc : α → List β}

/-- What follows a word is cut off from it in one way. -/
theorem split (h : PrefixFree enc) {a b : α} {r r' : List β} (heq : enc a ++ r = enc b ++ r') : a = b ∧ r = r' := by
  have hab : a = b := by
    have ha : enc a <+: enc b ++ r' := heq ▸ List.prefix_append (enc a) r
    rcases List.prefix_or_prefix_of_prefix ha (List.prefix_append (enc b) r') with hab | hba
    · exact h a b hab
    · exact (h b a hba).symm
  subst hab
  exact ⟨rfl, List.append_cancel_left heq⟩

theorem of_split (h : ∀ (a b : α) (r r' : List β), enc a ++ r = enc b ++ r' → a = b) : PrefixFree enc := fun a b hab => by
  obtain ⟨r, hr⟩ := hab
  exact h a b r [] (by rw [hr, List.append_nil])

theorem injective (h : PrefixFree enc) : Function.Injective enc := fun a b hab => h a b (hab ▸ List.prefix_rfl)

theorem of_length (hlength : ∀ a b, (enc a).length = (enc b).length) (hinj : Function.Injective enc) : PrefixFree enc :=
  fun a b hab => hinj (hab.eq_of_length (hlength a b))

/-- The texts of a prefix code are one in bytes. -/
theorem utf8 {text : α → String} (h : PrefixFree (fun a => (text a).toList)) : PrefixFree (fun a => Lib.utf8 (text a)) :=
  fun a b hab => h a b (toList_prefix_of_utf8 hab)

end PrefixFree

/-! ## Closed words -/

/-- What a stop closes is told from what follows. -/
theorem stop_append_inj {stop : β} {a b x y : List β} (ha : stop ∉ a) (hb : stop ∉ b) (h : a ++ stop :: x = b ++ stop :: y) :
    a = b ∧ x = y := by
  induction a generalizing b with
  | nil =>
    cases b with
    | nil => exact ⟨rfl, (List.cons.inj h).2⟩
    | cons d b => exact absurd (List.mem_cons.2 (.inl (List.cons.inj h).1)) hb
  | cons c a ih =>
    cases b with
    | nil => exact absurd (List.mem_cons.2 (.inl (List.cons.inj h).1.symm)) ha
    | cons d b =>
      obtain ⟨hhead, htail⟩ := List.cons.inj h
      obtain ⟨hrest, hxy⟩ := ih (fun hmem => ha (List.mem_cons_of_mem _ hmem)) (fun hmem => hb (List.mem_cons_of_mem _ hmem)) htail
      exact ⟨by rw [hhead, hrest], hxy⟩

/-- Words of a prefix code one after another, up to a stop that no word starts with. -/
theorem PrefixFree.flatMap_stop_inj {enc : α → List β} (h : PrefixFree enc) {stop : β}
    (hhead : ∀ a, ∃ c rest, enc a = c :: rest ∧ c ≠ stop) {l l' : List α} {r r' : List β}
    (heq : l.flatMap enc ++ stop :: r = l'.flatMap enc ++ stop :: r') : l = l' ∧ r = r' := by
  induction l generalizing l' with
  | nil =>
    cases l' with
    | nil => exact ⟨rfl, (List.cons.inj heq).2⟩
    | cons b l' =>
      obtain ⟨c, rest, hb, hc⟩ := hhead b
      rw [List.flatMap_nil, List.flatMap_cons, hb] at heq
      exact absurd (List.cons.inj heq).1.symm hc
  | cons a l ih =>
    cases l' with
    | nil =>
      obtain ⟨c, rest, ha, hc⟩ := hhead a
      rw [List.flatMap_nil, List.flatMap_cons, ha] at heq
      exact absurd (List.cons.inj heq).1 hc
    | cons b l' =>
      rw [List.flatMap_cons, List.flatMap_cons, List.append_assoc, List.append_assoc] at heq
      obtain ⟨rfl, hrest⟩ := h.split heq
      obtain ⟨rfl, hr⟩ := ih hrest
      exact ⟨rfl, hr⟩

/-- Words one after another, each with the stop behind it. -/
def closed_words (stop : β) (l : List (List β)) : List β := l.flatMap fun w => w ++ [stop]

@[simp] theorem closed_words_cons (stop : β) (w : List β) (l : List (List β)) :
    closed_words stop (w :: l) = w ++ stop :: closed_words stop l := by
  rw [closed_words, List.flatMap_cons, List.append_assoc]
  rfl

theorem count_closed_words [DecidableEq β] (stop : β) (l : List (List β)) :
    (closed_words stop l).count stop = (l.map (List.count stop)).sum + l.length := by
  induction l with
  | nil => rfl
  | cons w l ih =>
    rw [closed_words_cons, List.count_append, List.count_cons_self, ih, List.map_cons, List.sum_cons, List.length_cons]
    omega

/-- Where no word has the stop inside, the words can be cut apart in one way into as many. -/
theorem closed_words_inj [DecidableEq β] {stop : β} {l l' : List (List β)} (hl : ∀ w ∈ l, stop ∉ w)
    (hlen : l'.length = l.length) (h : closed_words stop l' = closed_words stop l) : l' = l := by
  have hnone : ∀ w ∈ l', stop ∉ w := by
    have hcount := congrArg (List.count stop) h
    have hzero : (l.map (List.count stop)).sum = 0 := by
      rw [List.sum_eq_zero_iff_forall_eq_nat]
      intro n hn
      obtain ⟨w, hw, rfl⟩ := List.mem_map.1 hn
      exact List.count_eq_zero_of_not_mem (hl w hw)
    rw [count_closed_words, count_closed_words, hzero, hlen] at hcount
    have hzero' : (l'.map (List.count stop)).sum = 0 := by omega
    intro w hw
    exact List.count_eq_zero.1 (List.sum_eq_zero_iff_forall_eq_nat.1 hzero' _ (List.mem_map_of_mem hw))
  clear hlen
  induction l' generalizing l with
  | nil =>
    cases l with
    | nil => rfl
    | cons w l => exact absurd h.symm (by rw [closed_words_cons]; exact List.append_ne_nil_of_right_ne_nil _ (List.cons_ne_nil _ _))
  | cons w l' ih =>
    cases l with
    | nil => exact absurd h (by rw [closed_words_cons]; exact List.append_ne_nil_of_right_ne_nil _ (List.cons_ne_nil _ _))
    | cons v l =>
      rw [closed_words_cons, closed_words_cons] at h
      obtain ⟨rfl, hrest⟩ := stop_append_inj (hnone w List.mem_cons_self) (hl v List.mem_cons_self) h
      rw [ih (fun u hu => hl u (List.mem_cons_of_mem _ hu)) hrest (fun u hu => hnone u (List.mem_cons_of_mem _ hu))]

/-- A run of what satisfies `p` ends at what does not. -/
theorem run_append_inj {p : β → Bool} {a b x y : List β} (ha : ∀ c ∈ a, p c = true) (hb : ∀ c ∈ b, p c = true)
    (hx : ∀ c ∈ x.head?, p c = false) (hy : ∀ c ∈ y.head?, p c = false) (h : a ++ x = b ++ y) : a = b ∧ x = y := by
  have hstop : ∀ {r : List β}, (∀ c ∈ r.head?, p c = false) → r.takeWhile p = [] := by
    intro r hr
    cases r with
    | nil => rfl
    | cons c r => exact List.takeWhile_cons_of_neg (by rw [hr c rfl]; exact Bool.false_ne_true)
  have hrun := congrArg (List.takeWhile p) h
  rw [List.takeWhile_append_of_pos ha, List.takeWhile_append_of_pos hb, hstop hx, hstop hy, List.append_nil,
    List.append_nil] at hrun
  subst hrun
  exact ⟨rfl, List.append_cancel_left h⟩

/-! ## Separated words -/

section
variable {enc : α → List β} {R : α → α → Prop} {sep close : β}

theorem intercalate_cons_cons (a b : α) (l : List α) (r : List β) :
    [sep].intercalate ((a :: b :: l).map enc) ++ r = enc a ++ sep :: ([sep].intercalate ((b :: l).map enc) ++ r) := by
  simp [List.intercalate]

/-- Words with a separator between them, up to a close: `R` is what a word tells of where it came from. -/
theorem separated_inj (hne : sep ≠ close) {l l' : List α} {r r' : List β}
    (hhead : ∀ a, a ∈ l ∨ a ∈ l' → ∃ c rest, enc a = c :: rest ∧ c ≠ close)
    (hword : ∀ a ∈ l, ∀ b ∈ l', ∀ s s', (s.head? = some sep ∨ s.head? = some close) → (s'.head? = some sep ∨ s'.head? = some close) →
      enc a ++ s = enc b ++ s' → R a b ∧ s = s')
    (heq : [sep].intercalate (l.map enc) ++ close :: r = [sep].intercalate (l'.map enc) ++ close :: r') :
    List.Forall₂ R l l' ∧ r = r' := by
  induction l generalizing l' with
  | nil =>
    cases l' with
    | nil => exact ⟨.nil, (List.cons.inj heq).2⟩
    | cons b l' =>
      obtain ⟨c, rest, hb, hc⟩ := hhead b (.inr List.mem_cons_self)
      cases l' <;> simp [List.intercalate, hb] at heq <;> exact absurd heq.1.symm hc
  | cons a l ih =>
    cases l' with
    | nil =>
      obtain ⟨c, rest, ha, hc⟩ := hhead a (.inl List.mem_cons_self)
      cases l <;> simp [List.intercalate, ha] at heq <;> exact absurd heq.1 hc
    | cons b l' =>
      have hwords := hword a List.mem_cons_self b List.mem_cons_self
      have hone : ∀ a : α, [sep].intercalate ([a].map enc) = enc a := fun a => by simp [List.intercalate]
      cases l with
      | nil =>
        cases l' with
        | nil =>
          rw [hone, hone] at heq
          obtain ⟨hR, hrest⟩ := hwords _ _ (.inr rfl) (.inr rfl) heq
          exact ⟨.cons hR .nil, (List.cons.inj hrest).2⟩
        | cons d l' =>
          rw [hone, intercalate_cons_cons] at heq
          exact absurd (List.cons.inj (hwords _ _ (.inr rfl) (.inl rfl) heq).2).1.symm hne
      | cons c l =>
        cases l' with
        | nil =>
          rw [hone, intercalate_cons_cons] at heq
          exact absurd (List.cons.inj (hwords _ _ (.inl rfl) (.inr rfl) heq).2).1 hne
        | cons d l' =>
          rw [intercalate_cons_cons, intercalate_cons_cons] at heq
          obtain ⟨hR, hrest⟩ := hwords _ _ (.inl rfl) (.inl rfl) heq
          obtain ⟨hall, hr⟩ := ih (fun e he => hhead e (he.imp (List.mem_cons_of_mem _) (List.mem_cons_of_mem _)))
            (fun e he f hf => hword e (List.mem_cons_of_mem _ he) f (List.mem_cons_of_mem _ hf)) (List.cons.inj hrest).2
          exact ⟨.cons hR hall, hr⟩
end

/-! ## Decimal digits -/

/-- The last `width` decimal digits of a number, with zeros in front. -/
def digits : Nat → Nat → List Char
  | 0, _ => []
  | width + 1, n => digits width (n / 10) ++ [Nat.digitChar (n % 10)]

@[simp] theorem length_digits (width n : Nat) : (digits width n).length = width := by
  induction width generalizing n with
  | zero => rfl
  | succ width ih => rw [digits, List.length_append, ih, List.length_singleton]

theorem isDigit_of_mem_digits {width n : Nat} {c : Char} (h : c ∈ digits width n) : c.isDigit = true := by
  induction width generalizing n with
  | zero => cases h
  | succ width ih =>
    rw [digits] at h
    rcases List.mem_append.1 h with h | h
    · exact ih h
    · have hdigit : ∀ d < 10, (Nat.digitChar d).isDigit = true := by decide
      rw [List.mem_singleton.1 h]
      exact hdigit _ (Nat.mod_lt n (by decide))

theorem digitChar_inj : ∀ m < 10, ∀ n < 10, Nat.digitChar m = Nat.digitChar n → m = n := by decide

theorem digits_inj {width m n : Nat} (hm : m < 10 ^ width) (hn : n < 10 ^ width) (h : digits width m = digits width n) : m = n := by
  induction width generalizing m n with
  | zero => omega
  | succ width ih =>
    rw [digits, digits] at h
    obtain ⟨hfront, hlast⟩ := List.append_inj' h rfl
    rw [Nat.pow_succ] at hm hn
    have hdiv : m / 10 = n / 10 := ih (Nat.div_lt_of_lt_mul (by omega)) (Nat.div_lt_of_lt_mul (by omega)) hfront
    have hmod := digitChar_inj _ (Nat.mod_lt m (by decide)) _ (Nat.mod_lt n (by decide)) (List.cons.inj hlast).1
    omega

/-- Digits of one width, and what follows them. -/
theorem digits_append_inj {width m n : Nat} {r r' : List Char} (hm : m < 10 ^ width) (hn : n < 10 ^ width)
    (h : digits width m ++ r = digits width n ++ r') : m = n ∧ r = r' := by
  obtain ⟨hdigits, hrest⟩ := List.append_inj h (by rw [length_digits, length_digits])
  exact ⟨digits_inj hm hn hdigits, hrest⟩

end Lib

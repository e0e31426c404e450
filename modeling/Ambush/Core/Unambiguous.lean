import Ambush.Core.Reading
/-!
# Canonical JSON is unambiguous

Two values without doubles have the same text exactly when they are the same JSON value,
objects being maps from keys to values; and the text, read back within the reader's
nesting limit, is a value with that text again.
-/
open Lib

namespace Ambush

namespace Value

/-! ## Equality of JSON values -/

mutual
/-- The same JSON value: the order of an object's fields does not matter. -/
def Same : Value → Value → Prop
  | .null, .null => True
  | .bool a, .bool b => a = b
  | .integer m, .integer n => m = n
  | .float p, .float q => p = q
  | .string s, .string t => s = t
  | .array l, .array l' => SameItems l l'
  | .object l, .object l' => (∀ k, k ∈ l.map (·.1) ↔ k ∈ l'.map (·.1)) ∧ SameFields l l'
  | _, _ => False

def SameItems : List Value → List Value → Prop
  | [], [] => True
  | v :: vs, w :: ws => Same v w ∧ SameItems vs ws
  | _, _ => False

/-- Every field has the same value wherever its key is a key of the other object. -/
def SameFields : List (String × Value) → List (String × Value) → Prop
  | [], _ => True
  | (k, v) :: fs, l' => (∀ w, (k, w) ∈ l' → Same v w) ∧ SameFields fs l'
end

theorem same_array {l l' : List Value} : Same (.array l) (.array l') ↔ List.Forall₂ Same l l' := by
  rw [Same]
  induction l generalizing l' with
  | nil => cases l' <;> simp [SameItems]
  | cons v l ih => cases l' <;> simp [SameItems, ih]

theorem same_object {l l' : List (String × Value)} : Same (.object l) (.object l') ↔
    (∀ k, k ∈ l.map (·.1) ↔ k ∈ l'.map (·.1)) ∧ ∀ k v w, (k, v) ∈ l → (k, w) ∈ l' → Same v w := by
  rw [Same]
  refine and_congr_right' ?_
  induction l with
  | nil => simp [SameFields]
  | cons f l ih =>
    rw [SameFields, ih]
    constructor
    · rintro ⟨h1, h2⟩ k v w hv hw
      rcases List.mem_cons.1 hv with rfl | hv
      · exact h1 w hw
      · exact h2 k v w hv hw
    · exact fun h => ⟨fun w hw => h _ _ w List.mem_cons_self hw,
        fun k v w hv hw => h k v w (List.mem_cons_of_mem _ hv) hw⟩

/-- Only values of one kind are the same. -/
theorem Same.array_left {l : List Value} {w : Value} (h : Same (.array l) w) : ∃ l', w = .array l' := by
  cases w with
  | array l' => exact ⟨l', rfl⟩
  | _ => simp [Same] at h

theorem Same.object_left {l : List (String × Value)} {w : Value} (h : Same (.object l) w) : ∃ l', w = .object l' := by
  cases w with
  | object l' => exact ⟨l', rfl⟩
  | _ => simp [Same] at h

theorem Same.symm {v w : Value} (h : Same v w) : Same w v := by
  induction v using Value.induction generalizing w with
  | null | bool _ | integer _ | float _ | string _ => cases w <;> simp_all [Same]
  | array l ih =>
    obtain ⟨l', rfl⟩ := h.array_left
    rw [same_array] at h ⊢
    induction h with
    | nil => exact .nil
    | cons hvw _ iht =>
      exact .cons (ih _ List.mem_cons_self hvw) (iht (fun v hv => ih v (List.mem_cons_of_mem _ hv)))
  | object l ih =>
    obtain ⟨l', rfl⟩ := h.object_left
    rw [same_object] at h ⊢
    exact ⟨fun k => (h.1 k).symm, fun k w v hw hv => ih (k, v) hv (h.2 k v w hv hw)⟩

theorem Same.trans {u v w : Value} (h : Same u v) (h' : Same v w) : Same u w := by
  induction u using Value.induction generalizing v w with
  | null | bool _ | integer _ | float _ | string _ => cases v <;> cases w <;> simp_all [Same]
  | array l ih =>
    obtain ⟨l', rfl⟩ := h.array_left
    obtain ⟨l'', rfl⟩ := h'.array_left
    rw [same_array] at h h' ⊢
    induction h generalizing l'' with
    | nil => exact h'
    | cons huv _ iht =>
      cases h' with
      | cons hvw ht =>
        exact .cons (ih _ List.mem_cons_self huv hvw) (iht (fun v hv => ih v (List.mem_cons_of_mem _ hv)) _ ht)
  | object l ih =>
    obtain ⟨l', rfl⟩ := h.object_left
    obtain ⟨l'', rfl⟩ := h'.object_left
    rw [same_object] at h h' ⊢
    refine ⟨fun k => (h.1 k).trans (h'.1 k), fun k u w hu hw => ?_⟩
    obtain ⟨⟨k', v⟩, hv, rfl⟩ := List.mem_map.1 ((h.1 k).1 (List.mem_map_of_mem hu))
    exact ih _ hu (h.2 _ u v hu hv) (h'.2 _ v w hv hw)

/-! ## Nesting -/

mutual
/-- How many levels of arrays and objects a value opens. -/
def depth : Value → Nat
  | .null | .bool _ | .integer _ | .float _ | .string _ => 0
  | .array items => depthItems items + 1
  | .object fields => depthFields fields + 1

def depthItems : List Value → Nat
  | [] => 0
  | v :: vs => max (depth v) (depthItems vs)

def depthFields : List (String × Value) → Nat
  | [] => 0
  | (_, v) :: fs => max (depth v) (depthFields fs)
end

theorem depth_array_le {items : List Value} {d : Nat} : (Value.array items).depth ≤ d + 1 ↔ ∀ v ∈ items, v.depth ≤ d := by
  rw [depth, Nat.succ_le_succ_iff]
  induction items with
  | nil => simp [depthItems]
  | cons v vs ih => simp [depthItems, ih]

theorem depth_object_le {fields : List (String × Value)} {d : Nat} :
    (Value.object fields).depth ≤ d + 1 ↔ ∀ f ∈ fields, f.2.depth ≤ d := by
  rw [depth, Nat.succ_le_succ_iff]
  induction fields with
  | nil => simp [depthFields]
  | cons f fs ih => simp [depthFields, ih]

end Value

/-! ## One text for one value -/

namespace Canonical

instance {α : Type} : Std.Total (@keyLE α) := ⟨fun a b => by
  rw [keyLE, keyLE, not_lt, not_lt]
  exact le_total _ _⟩

instance {α : Type} : IsTrans (String × α) keyLE := ⟨fun a b c hab hbc => by
  rw [keyLE, not_lt] at *
  exact hab.trans hbc⟩

/-- Entries with distinct keys are written in one order. -/
theorem sortedFields_eq_of_perm {α : Type} {l l' : List (String × α)} (h : l.Perm l') (hl : (l.map (·.1)).Nodup) :
    sortedFields l = sortedFields l' := by
  have hperm : (sortedFields l).Perm (sortedFields l') :=
    (List.perm_insertionSort _ l).trans (h.trans (List.perm_insertionSort _ l').symm)
  refine hperm.eq_of_pairwise ?_ (List.pairwise_insertionSort _ l) (List.pairwise_insertionSort _ l')
  intro a b ha hb hab hba
  have hkey : a.1 = b.1 := by
    rw [keyLE, not_lt] at hab hba
    exact String.toList_inj.1 (utf16_injective (le_antisymm hab hba))
  have ha := mem_sortedFields.1 ha
  have hb := h.mem_iff.2 (mem_sortedFields.1 hb)
  exact List.inj_on_of_nodup_map hl ha hb hkey

theorem write_eq_of_same (esc : Char → String) (number : Rat → String) {lo hi : Int} {v w : Value}
    (hv : v.within lo hi = true) (hw : w.within lo hi = true) (h : v.Same w) :
    write esc number v = write esc number w := by
  induction v using Value.induction generalizing w with
  | null | bool _ | integer _ | float _ | string _ => cases w <;> simp_all [Value.Same]
  | array l ih =>
    obtain ⟨l', rfl⟩ := h.array_left
    rw [Value.within_array] at hv hw
    rw [Value.same_array] at h
    rw [write_array, write_array]
    congr 3
    induction h with
    | nil => rfl
    | cons hvw _ iht =>
      rw [List.map_cons, List.map_cons]
      congr 1
      · exact ih _ List.mem_cons_self (hv _ List.mem_cons_self) (hw _ List.mem_cons_self) hvw
      · exact iht (fun v hv => ih v (List.mem_cons_of_mem _ hv)) (fun v h => hv v (List.mem_cons_of_mem _ h))
          (fun v h => hw v (List.mem_cons_of_mem _ h))
  | object l ih =>
    obtain ⟨l', rfl⟩ := h.object_left
    rw [Value.within_object] at hv hw
    rw [Value.same_object] at h
    have hmap : ∀ l : List (String × Value),
        (l.map (fun f => (f.1, write esc number f.2))).map (·.1) = l.map (·.1) := fun l => by simp
    have hnodup : ∀ {l : List (String × Value)}, (l.map (·.1)).Nodup →
        (l.map (fun f => (f.1, write esc number f.2))).Nodup :=
      fun {l} hl => List.Nodup.of_map (·.1) (by rw [hmap]; exact hl)
    have hperm : (l.map (fun f => (f.1, write esc number f.2))).Perm (l'.map (fun f => (f.1, write esc number f.2))) := by
      refine (List.perm_ext_iff_of_nodup (hnodup hv.1) (hnodup hw.1)).2 (fun e => ?_)
      rw [List.mem_map, List.mem_map]
      constructor
      · rintro ⟨⟨k, a⟩, ha, rfl⟩
        obtain ⟨⟨_, b⟩, hb, rfl⟩ := List.mem_map.1 ((h.1 k).1 (List.mem_map_of_mem ha))
        exact ⟨_, hb, by rw [ih _ ha (hv.2 _ ha) (hw.2 _ hb) (h.2 _ a b ha hb)]⟩
      · rintro ⟨⟨k, b⟩, hb, rfl⟩
        obtain ⟨⟨_, a⟩, ha, rfl⟩ := List.mem_map.1 ((h.1 k).2 (List.mem_map_of_mem hb))
        exact ⟨_, ha, by rw [ih _ ha (hv.2 _ ha) (hw.2 _ hb) (h.2 _ a b ha hb)]⟩
    have hsort := sortedFields_eq_of_perm hperm (by rw [hmap]; exact hv.1)
    rw [write, write, writeFields_eq, writeFields_eq]
    exact congrArg (fun fields => "\x7b" ++ ",".intercalate (fields.map (entry esc)) ++ "\x7d") hsort

end Canonical

/-! ## One value for one text -/

/-- A value without doubles: what every receipt, envelope and identity is. -/
def Value.plain (v : Value) : Bool := v.within (-9223372036854775808) 18446744073709551615

namespace Json
open Canonical

section
variable (parse_f64 : List Char → Option Rat) (number : Rat → String)

/-- The text of a value. -/
def textOf (v : Value) : List Char := (write escape_char number v).toList

theorem digit_is_no_ws {c : Char} (h : c = '-' ∨ c.isDigit = true) : is_ws c = false ∧ c ≠ 'n' ∧ c ≠ 't' ∧ c ≠ 'f' ∧
    c ≠ '"' ∧ c ≠ '[' ∧ c ≠ '\x7b' ∧ c ≠ ']' := by
  have hne : ∀ d : Char, d ≠ '-' → d.isDigit = false → c ≠ d := by
    rintro d hd hdigit rfl
    rcases h with h | h
    · exact hd h
    · rw [h] at hdigit
      exact absurd hdigit (by decide)
  refine ⟨?_, hne _ (by decide) (by decide), hne _ (by decide) (by decide), hne _ (by decide) (by decide),
    hne _ (by decide) (by decide), hne _ (by decide) (by decide), hne _ (by decide) (by decide),
    hne _ (by decide) (by decide)⟩
  simp [is_ws, hne ' ' (by decide) (by decide), hne '\n' (by decide) (by decide), hne '\t' (by decide) (by decide),
    hne '\r' (by decide) (by decide)]

theorem toString_int_head (n : Int) : ∃ c cs, (toString n).toList = c :: cs ∧ (c = '-' ∨ c.isDigit = true) := by
  rw [Int.toString_eq_repr, Int.repr_eq_if]
  split
  · rw [Nat.toList_repr]
    cases hd : Nat.toDigits 10 n.toNat with
    | nil => exact absurd hd Nat.toDigits_ne_nil
    | cons c cs =>
      exact ⟨c, cs, rfl, .inr (Nat.isDigit_of_mem_toDigits (b := 10) (n := n.toNat) (by decide) (by decide) (by simp [hd]))⟩
  · exact ⟨'-', _, by rw [String.toList_append]; rfl, .inl rfl⟩

/-- A value's text starts with neither whitespace nor a closing bracket. -/
theorem textOf_head {v : Value} (h : v.plain = true) :
    ∃ c cs, textOf number v = c :: cs ∧ is_ws c = false ∧ c ≠ ']' := by
  cases v with
  | null => exact ⟨'n', ['u', 'l', 'l'], by simp [textOf, write], by decide, by decide⟩
  | bool b =>
    cases b with
    | true => exact ⟨'t', ['r', 'u', 'e'], by simp [textOf, write], by decide, by decide⟩
    | false => exact ⟨'f', ['a', 'l', 's', 'e'], by simp [textOf, write], by decide, by decide⟩
  | integer n =>
    obtain ⟨c, cs, htext, hc⟩ := toString_int_head n
    obtain ⟨hws, -, -, -, -, -, -, hne⟩ := digit_is_no_ws hc
    exact ⟨c, cs, htext, hws, hne⟩
  | float q => simp [Value.plain, Value.within] at h
  | string s => exact ⟨'"', _, by simp [textOf, write]; rfl, by decide, by decide⟩
  | array items => exact ⟨'[', _, by simp [textOf, write]; rfl, by decide, by decide⟩
  | object fields => exact ⟨'\x7b', _, by simp [textOf, write]; rfl, by decide, by decide⟩

/-- The text of `v` is read back as `v`, unless it nests deeper than the reader goes. -/
def Reads (v : Value) : Prop :=
  ∀ (fuel depth : Nat) (rest : List Char), Stops rest → 2 * (textOf number v).length ≤ fuel →
    (v.depth ≤ depth → ∃ w, parse_value parse_f64 fuel depth (textOf number v ++ rest) = some (w, rest) ∧
      v.Same w ∧ w.plain = true) ∧
    (depth < v.depth → parse_value parse_f64 fuel depth (textOf number v ++ rest) = none)

/-- The items of an array with commas between them. -/
def itemsText (items : List Value) : List Char := [','].intercalate (items.map (textOf number))

theorem reads_items {items : List Value} (hne : items ≠ []) (h : ∀ v ∈ items, Reads parse_f64 number v)
    (fuel depth : Nat) (rest : List Char) (hfuel : 2 * (itemsText number items).length + 1 ≤ fuel) :
    ((∀ v ∈ items, v.depth ≤ depth) → ∃ ws,
      parse_items parse_f64 fuel depth (itemsText number items ++ ']' :: rest) = some (ws, rest) ∧
        List.Forall₂ Value.Same items ws ∧ ∀ w ∈ ws, w.plain = true) ∧
    ((∃ v ∈ items, depth < v.depth) →
      parse_items parse_f64 fuel depth (itemsText number items ++ ']' :: rest) = none) := by
  have hclose : Stops (']' :: rest) := fun c hc => .inr (.inl (Option.some.inj hc).symm)
  induction items generalizing fuel with
  | nil => exact absurd rfl hne
  | cons v items ih =>
    obtain ⟨fuel, rfl⟩ := Nat.exists_eq_succ_of_ne_zero (show fuel ≠ 0 by omega)
    rw [parse_items]
    cases items with
    | nil =>
      have htext : itemsText number [v] = textOf number v := by simp [itemsText]
      rw [htext] at hfuel ⊢
      obtain ⟨hok, hdeep⟩ := h v List.mem_cons_self fuel depth _ hclose (by omega)
      constructor
      · intro hd
        obtain ⟨w, hread, hsame, hplain⟩ := hok (hd v List.mem_cons_self)
        refine ⟨[w], ?_, .cons hsame .nil, by simpa using hplain⟩
        simp [hread, parse_more, skip_ws_cons, is_ws]
      · rintro ⟨u, hu, hd⟩
        obtain rfl := List.mem_singleton.1 hu
        rw [hdeep hd]
        rfl
    | cons v' items =>
      have htext : itemsText number (v :: v' :: items) = textOf number v ++ ',' :: itemsText number (v' :: items) := by
        simp [itemsText]
      rw [htext] at hfuel ⊢
      simp only [List.length_append, List.length_cons] at hfuel
      have hcomma : Stops (',' :: (itemsText number (v' :: items) ++ ']' :: rest)) :=
        fun c hc => .inl (Option.some.inj hc).symm
      obtain ⟨hok, hdeep⟩ := h v List.mem_cons_self fuel depth _ hcomma (by omega)
      obtain ⟨hok', hdeep'⟩ := ih (by simp) (fun u hu => h u (List.mem_cons_of_mem _ hu)) fuel (by omega)
      rw [List.append_assoc, List.cons_append]
      constructor
      · intro hd
        obtain ⟨w, hread, hsame, hplain⟩ := hok (hd v List.mem_cons_self)
        obtain ⟨ws, hreads, hsames, hplains⟩ := hok' (fun u hu => hd u (List.mem_cons_of_mem _ hu))
        refine ⟨w :: ws, ?_, .cons hsame hsames, List.forall_mem_cons.2 ⟨hplain, hplains⟩⟩
        simp [hread, parse_more, skip_ws_cons, is_ws, hreads]
      · rintro ⟨u, hu, hd⟩
        rcases Nat.lt_or_ge depth v.depth with hv | hv
        · rw [hdeep hv]
          rfl
        · obtain ⟨w, hread, -⟩ := hok hv
          have hu' : u ∈ v' :: items := by
            rcases List.mem_cons.1 hu with rfl | hu
            · omega
            · exact hu
          simp [hread, parse_more, skip_ws_cons, is_ws, hdeep' ⟨u, hu', hd⟩]
/-- The entries of an object with commas between them. -/
def fieldsText (fields : List (String × Value)) : List Char :=
  [','].intercalate (fields.map (fun f => '"' :: ((escape_json_string f.1).toList ++ '"' :: ':' :: textOf number f.2)))

/-- What reading gives for an entry. -/
def SameField (f g : String × Value) : Prop := f.1 = g.1 ∧ f.2.Same g.2 ∧ g.2.plain = true

theorem reads_fields {fields : List (String × Value)} (hne : fields ≠ [])
    (h : ∀ f ∈ fields, Reads parse_f64 number f.2) (fuel depth : Nat) (rest : List Char)
    (hfuel : 2 * (fieldsText number fields).length + 1 ≤ fuel) :
    ((∀ f ∈ fields, f.2.depth ≤ depth) → ∃ gs,
      parse_fields parse_f64 fuel depth (fieldsText number fields ++ '\x7d' :: rest) = some (gs, rest) ∧
        List.Forall₂ SameField fields gs) ∧
    ((∃ f ∈ fields, depth < f.2.depth) →
      parse_fields parse_f64 fuel depth (fieldsText number fields ++ '\x7d' :: rest) = none) := by
  have hclose : Stops ('\x7d' :: rest) := fun c hc => .inr (.inr (Option.some.inj hc).symm)
  induction fields generalizing fuel with
  | nil => exact absurd rfl hne
  | cons f fields ih =>
    obtain ⟨fuel, rfl⟩ := Nat.exists_eq_succ_of_ne_zero (show fuel ≠ 0 by omega)
    -- the key and the colon are read the same way in every case
    have hkey : ∀ tail, parse_fields parse_f64 (fuel + 1) depth
        ('"' :: ((escape_json_string f.1).toList ++ '"' :: ':' :: (textOf number f.2 ++ tail))) =
        (parse_value parse_f64 fuel depth (textOf number f.2 ++ tail)).bind
          (fun p => parse_more '\x7d' (parse_fields parse_f64 fuel depth) (f.1, p.1) p.2) := by
      intro tail
      rw [parse_fields, skip_ws_cons (by decide)]
      simp only [parse_str_escaped, Option.bind_some, skip_ws_cons (show is_ws ':' = false by decide)]
    cases fields with
    | nil =>
      have htext : fieldsText number [f] ++ '\x7d' :: rest =
          '"' :: ((escape_json_string f.1).toList ++ '"' :: ':' :: (textOf number f.2 ++ '\x7d' :: rest)) := by
        simp [fieldsText]
      have hlen : (textOf number f.2).length ≤ (fieldsText number [f]).length := by
        simp [fieldsText]
        omega
      rw [htext, hkey]
      obtain ⟨hok, hdeep⟩ := h f List.mem_cons_self fuel depth _ hclose (by omega)
      constructor
      · intro hd
        obtain ⟨w, hread, hsame, hplain⟩ := hok (hd f List.mem_cons_self)
        refine ⟨[(f.1, w)], ?_, .cons ⟨rfl, hsame, hplain⟩ .nil⟩
        simp [hread, parse_more, skip_ws_cons, is_ws]
      · rintro ⟨u, hu, hd⟩
        obtain rfl := List.mem_singleton.1 hu
        rw [hdeep hd]
        rfl
    | cons f' fields =>
      have htext : fieldsText number (f :: f' :: fields) ++ '\x7d' :: rest =
          '"' :: ((escape_json_string f.1).toList ++ '"' :: ':' :: (textOf number f.2 ++
            ',' :: (fieldsText number (f' :: fields) ++ '\x7d' :: rest))) := by
        simp [fieldsText]
      have hlen : (textOf number f.2).length + (fieldsText number (f' :: fields)).length + 1 ≤
          (fieldsText number (f :: f' :: fields)).length := by
        simp [fieldsText]
        omega
      rw [htext, hkey]
      have hcomma : Stops (',' :: (fieldsText number (f' :: fields) ++ '\x7d' :: rest)) :=
        fun c hc => .inl (Option.some.inj hc).symm
      obtain ⟨hok, hdeep⟩ := h f List.mem_cons_self fuel depth _ hcomma (by omega)
      obtain ⟨hok', hdeep'⟩ := ih (by simp) (fun u hu => h u (List.mem_cons_of_mem _ hu)) fuel (by omega)
      constructor
      · intro hd
        obtain ⟨w, hread, hsame, hplain⟩ := hok (hd f List.mem_cons_self)
        obtain ⟨gs, hreads, hsames⟩ := hok' (fun u hu => hd u (List.mem_cons_of_mem _ hu))
        refine ⟨(f.1, w) :: gs, ?_, .cons ⟨rfl, hsame, hplain⟩ hsames⟩
        simp [hread, parse_more, skip_ws_cons, is_ws, hreads]
      · rintro ⟨u, hu, hd⟩
        rcases Nat.lt_or_ge depth f.2.depth with hv | hv
        · rw [hdeep hv]
          rfl
        · obtain ⟨w, hread, -⟩ := hok hv
          have hu' : u ∈ f' :: fields := by
            rcases List.mem_cons.1 hu with rfl | hu
            · omega
            · exact hu
          simp [hread, parse_more, skip_ws_cons, is_ws, hdeep' ⟨u, hu', hd⟩]
theorem textOf_array (items : List Value) : textOf number (.array items) = '[' :: (itemsText number items ++ [']']) := by
  simp [textOf, write_array, itemsText, Function.comp_def]
  rfl

theorem textOf_object (fields : List (String × Value)) :
    textOf number (.object fields) = '\x7b' :: (fieldsText number (sortedFields fields) ++ ['\x7d']) := by
  simp [textOf, write_object, fieldsText, Function.comp_def, entry, escape_json_string]

theorem itemsText_head {v : Value} {items : List Value} (h : v.plain = true) :
    ∃ c cs, itemsText number (v :: items) = c :: cs ∧ is_ws c = false ∧ c ≠ ']' := by
  obtain ⟨c, cs, htext, hws, hne⟩ := textOf_head number h
  cases items with
  | nil => exact ⟨c, cs, by simp [itemsText, htext], hws, hne⟩
  | cons w items => exact ⟨c, _, by simp [itemsText, htext]; rfl, hws, hne⟩

theorem SameField.keys {fs gs : List (String × Value)} (h : List.Forall₂ SameField fs gs) : gs.map (·.1) = fs.map (·.1) := by
  induction h with
  | nil => rfl
  | cons hfg _ ih => rw [List.map_cons, List.map_cons, ih, hfg.1]

theorem SameField.source {fs gs : List (String × Value)} (h : List.Forall₂ SameField fs gs) {g : String × Value}
    (hg : g ∈ gs) : ∃ f ∈ fs, SameField f g := by
  induction h with
  | nil => exact absurd hg List.not_mem_nil
  | @cons f _ fs _ hfg _ ih =>
    rcases List.mem_cons.1 hg with rfl | hg
    · exact ⟨f, List.mem_cons_self, hfg⟩
    · obtain ⟨f', hf', h'⟩ := ih hg
      exact ⟨f', List.mem_cons_of_mem _ hf', h'⟩

/-- Read entries with distinct keys are the fields of the same object. -/
theorem same_collect {fields gs : List (String × Value)} (hkeys : (fields.map (·.1)).Nodup)
    (h : List.Forall₂ SameField (sortedFields fields) gs) :
    (Value.object fields).Same (.object (collect gs)) ∧ (Value.object (collect gs)).plain = true := by
  have hperm : (sortedFields fields).Perm fields := List.perm_insertionSort _ _
  have hmap := SameField.keys h
  have hnodup : (gs.map (·.1)).Nodup := by
    rw [hmap]
    exact (hperm.map _).nodup_iff.2 hkeys
  obtain ⟨hordered, hmem⟩ := collect_spec hnodup
  have hfrom : ∀ g ∈ gs, ∃ f ∈ fields, SameField f g := by
    intro g hg
    obtain ⟨f, hf, hfg⟩ := SameField.source h hg
    exact ⟨f, hperm.mem_iff.1 hf, hfg⟩
  constructor
  · refine Value.same_object.2 ⟨fun k => ?_, fun k v w hv hw => ?_⟩
    · have hcollect : k ∈ (collect gs).map (·.1) ↔ k ∈ gs.map (·.1) := by
        simp only [List.mem_map, hmem]
      rw [hcollect, hmap]
      exact ((hperm.map _).mem_iff).symm
    · obtain ⟨f, hf, hkey, hsame, -⟩ := hfrom _ ((hmem _).1 hw)
      have : f = (k, v) := List.inj_on_of_nodup_map hkeys hf hv hkey
      rw [this] at hsame
      exact hsame
  · refine Value.within_object.2 ⟨hordered.nodup, fun g hg => ?_⟩
    obtain ⟨f, -, -, -, hplain⟩ := hfrom g ((hmem g).1 hg)
    exact hplain

theorem reads_plain {v : Value} (h : v.plain = true) : Reads parse_f64 number v := by
  induction v using Value.induction with
  | null =>
    intro fuel depth rest _ hfuel
    obtain ⟨fuel, rfl⟩ := Nat.exists_eq_succ_of_ne_zero (show fuel ≠ 0 by simp [textOf, write] at hfuel; omega)
    refine ⟨fun _ => ⟨.null, ?_, trivial, rfl⟩, fun hd => absurd hd (Nat.not_lt_zero _)⟩
    simp [parse_value, textOf, write, skip_ws_cons, is_ws, parse_ident]
  | bool b =>
    intro fuel depth rest _ hfuel
    obtain ⟨fuel, rfl⟩ := Nat.exists_eq_succ_of_ne_zero
      (show fuel ≠ 0 by cases b <;> simp [textOf, write] at hfuel <;> omega)
    refine ⟨fun _ => ⟨.bool b, ?_, rfl, rfl⟩, fun hd => absurd hd (Nat.not_lt_zero _)⟩
    cases b <;> simp [parse_value, textOf, write, skip_ws_cons, is_ws, parse_ident]
  | integer n =>
    intro fuel depth rest hstop hfuel
    have hn : -9223372036854775808 ≤ n ∧ n ≤ 18446744073709551615 := by simpa [Value.plain, Value.within] using h
    obtain ⟨c, cs, htext, hc⟩ := toString_int_head n
    obtain ⟨hws, h1, h2, h3, h4, h5, h6, -⟩ := digit_is_no_ws hc
    have hnum := parse_number_toString parse_f64 hn.1 hn.2 hstop
    simp only [textOf, write] at hfuel ⊢
    rw [htext] at hfuel hnum ⊢
    obtain ⟨fuel, rfl⟩ := Nat.exists_eq_succ_of_ne_zero (show fuel ≠ 0 by simp at hfuel; omega)
    refine ⟨fun _ => ⟨.integer n, ?_, rfl, h⟩, fun hd => absurd hd (Nat.not_lt_zero _)⟩
    rw [List.cons_append] at hnum ⊢
    simp only [parse_value, skip_ws_cons hws, h1, h2, h3, h4, h5, h6, hc, ↓reduceIte, hnum]
  | float q => simp [Value.plain, Value.within] at h
  | string s =>
    intro fuel depth rest _ hfuel
    have htext : textOf number (.string s) ++ rest = '"' :: ((escape_json_string s).toList ++ '"' :: rest) := by
      simp [textOf, write, escape_json_string]
    obtain ⟨fuel, rfl⟩ := Nat.exists_eq_succ_of_ne_zero (show fuel ≠ 0 by simp [textOf, write] at hfuel; omega)
    refine ⟨fun _ => ⟨.string s, ?_, rfl, rfl⟩, fun hd => absurd hd (Nat.not_lt_zero _)⟩
    rw [htext]
    simp [parse_value, skip_ws_cons, is_ws, parse_str_escaped]
  | array items ih =>
    intro fuel depth rest _ hfuel
    have hplain : ∀ v ∈ items, v.plain = true := Value.within_array.1 h
    rw [textOf_array] at hfuel ⊢
    simp only [List.length_cons, List.length_append] at hfuel
    obtain ⟨fuel, rfl⟩ := Nat.exists_eq_succ_of_ne_zero (show fuel ≠ 0 by omega)
    cases depth with
    | zero =>
      refine ⟨fun hd => absurd hd (by simp [Value.depth]), fun _ => ?_⟩
      simp [parse_value, skip_ws_cons, is_ws]
    | succ depth =>
      rw [Value.depth_array_le, ← not_le, Value.depth_array_le]
      cases items with
      | nil =>
        refine ⟨fun _ => ⟨.array [], ?_, by simp [Value.Same, Value.SameItems], rfl⟩, fun hd => absurd (by simp) hd⟩
        simp [parse_value, itemsText, skip_ws_cons, is_ws]
      | cons v items =>
        obtain ⟨c, cs, hhead, hws, hne⟩ := @itemsText_head number v items (hplain v List.mem_cons_self)
        obtain ⟨hok, hdeep⟩ := reads_items parse_f64 number (by simp) (fun w hw => ih w hw (hplain w hw)) fuel depth rest
          (by omega)
        have hstep : parse_value parse_f64 (fuel + 1) (depth + 1)
            ('[' :: (itemsText number (v :: items) ++ [']']) ++ rest) =
            (parse_items parse_f64 fuel depth (itemsText number (v :: items) ++ ']' :: rest)).map
              (fun p => (.array p.1, p.2)) := by
          rw [hhead]
          simp [parse_value, skip_ws_cons (show is_ws '[' = false by decide), skip_ws_cons hws, hne]
        rw [hstep]
        constructor
        · intro hd
          obtain ⟨ws, hread, hsame, hall⟩ := hok hd
          exact ⟨.array ws, by rw [hread]; rfl, Value.same_array.2 hsame, Value.within_array.2 hall⟩
        · intro hd
          simp only [not_forall, not_le] at hd
          obtain ⟨w, hw, hd⟩ := hd
          rw [hdeep ⟨w, hw, hd⟩]
          rfl
  | object fields ih =>
    intro fuel depth rest _ hfuel
    obtain ⟨hkeys, hplain⟩ := Value.within_object.1 h
    rw [textOf_object] at hfuel ⊢
    simp only [List.length_cons, List.length_append] at hfuel
    obtain ⟨fuel, rfl⟩ := Nat.exists_eq_succ_of_ne_zero (show fuel ≠ 0 by omega)
    cases depth with
    | zero =>
      refine ⟨fun hd => absurd hd (by simp [Value.depth]), fun _ => ?_⟩
      simp [parse_value, skip_ws_cons, is_ws]
    | succ depth =>
      rw [Value.depth_object_le, ← not_le, Value.depth_object_le]
      by_cases hempty : sortedFields fields = []
      · obtain rfl : fields = [] := by
          cases fields with
          | nil => rfl
          | cons f fields => exact absurd (mem_sortedFields.2 List.mem_cons_self) (by rw [hempty]; simp)
        refine ⟨fun _ => ⟨.object [], ?_, by simp [Value.Same, Value.SameFields], rfl⟩, fun hd => absurd (by simp) hd⟩
        simp [parse_value, hempty, fieldsText, skip_ws_cons, is_ws]
      · obtain ⟨hok, hdeep⟩ := reads_fields parse_f64 number hempty
          (fun f hf => ih f (mem_sortedFields.1 hf) (hplain f (mem_sortedFields.1 hf))) fuel depth rest (by omega)
        have hstep : parse_value parse_f64 (fuel + 1) (depth + 1)
            ('\x7b' :: (fieldsText number (sortedFields fields) ++ ['\x7d']) ++ rest) =
            (parse_fields parse_f64 fuel depth (fieldsText number (sortedFields fields) ++ '\x7d' :: rest)).map
              (fun p => (.object (collect p.1), p.2)) := by
          have hhead : ∃ cs, fieldsText number (sortedFields fields) = '"' :: cs := by
            cases hs : sortedFields fields with
            | nil => exact absurd hs hempty
            | cons f fs => cases fs <;> exact ⟨_, by simp [fieldsText]; rfl⟩
          obtain ⟨cs, hhead⟩ := hhead
          simp [parse_value, skip_ws_cons, is_ws, hhead]
        rw [hstep]
        constructor
        · intro hd
          obtain ⟨gs, hread, hsame⟩ := hok (fun f hf => hd f (mem_sortedFields.1 hf))
          obtain ⟨h1, h2⟩ := same_collect hkeys hsame
          exact ⟨.object (collect gs), by rw [hread]; rfl, h1, h2⟩
        · intro hd
          simp only [not_forall, not_le] at hd
          obtain ⟨f, hf, hd⟩ := hd
          rw [hdeep ⟨f, mem_sortedFields.2 hf, hd⟩]
          rfl
/-- The whole text of a value, read by `from_str`. -/
theorem from_str_write {v : Value} (h : v.plain = true) (limit : Nat) :
    (v.depth ≤ limit → ∃ w, from_str parse_f64 limit (write escape_char number v) = some w ∧ v.Same w ∧ w.plain = true) ∧
      (limit < v.depth → from_str parse_f64 limit (write escape_char number v) = none) := by
  obtain ⟨hok, hdeep⟩ := reads_plain parse_f64 number h (2 * (textOf number v).length) limit []
    (fun c hc => by simp at hc) (Nat.le_refl _)
  rw [List.append_nil] at hok hdeep
  constructor
  · intro hd
    obtain ⟨w, hread, hsame, hplain⟩ := hok hd
    refine ⟨w, ?_, hsame, hplain⟩
    simp only [textOf] at hread
    simp [from_str, hread, skip_ws]
  · intro hd
    have hread := hdeep hd
    simp only [textOf] at hread
    simp [from_str, hread]
end

end Json

namespace Canonical
open Json

/-- A value without doubles, as it is signed. -/
def PlainValue := { v : Value // v.plain = true }

theorem canonicalize_plain (ryu : Rat → String) {v : Value} (h : v.plain = true) :
    canonicalize ryu v = .ok (write escape_char ryu v) :=
  canonicalize_eq_write ryu ryu ⟨Int.le_refl _, Int.le_refl _⟩ v h

/-- Equal texts are texts of one JSON value, and reading a text and writing it again
changes nothing. The reader refuses the text only for nesting deeper than its limit. -/
theorem canonicalize_unambiguous (ryu : Rat → String) (parse_f64 : List Char → Option Rat) :
    (∀ v w : PlainValue, canonicalize ryu v.1 = canonicalize ryu w.1 ↔ v.1.Same w.1) ∧
      ∀ (v : PlainValue) (limit : Nat), ∃ t, canonicalize ryu v.1 = .ok t ∧
        ((∃ w, from_str parse_f64 limit t = some w) ↔ v.1.depth ≤ limit) ∧
        ∀ w, from_str parse_f64 limit t = some w → v.1.Same w ∧ canonicalize ryu w = .ok t := by
  constructor
  · rintro ⟨v, hv⟩ ⟨w, hw⟩
    rw [canonicalize_plain ryu hv, canonicalize_plain ryu hw, Except.ok.injEq]
    constructor
    · intro heq
      -- one text, read once, is the same value as both
      obtain ⟨a, ha, hva, -⟩ := (from_str_write parse_f64 ryu hv (max v.depth w.depth)).1 (Nat.le_max_left _ _)
      obtain ⟨b, hb, hwb, -⟩ := (from_str_write parse_f64 ryu hw (max v.depth w.depth)).1 (Nat.le_max_right _ _)
      rw [heq, hb, Option.some.injEq] at ha
      rw [ha] at hwb
      exact hva.trans hwb.symm
    · exact write_eq_of_same escape_char ryu hv hw
  · rintro ⟨v, hv⟩ limit
    obtain ⟨hok, hdeep⟩ := from_str_write parse_f64 ryu hv limit
    refine ⟨_, canonicalize_plain ryu hv, ⟨?_, ?_⟩, ?_⟩
    · rintro ⟨w, hw⟩
      by_contra hd
      rw [hdeep (Nat.lt_of_not_le hd)] at hw
      exact absurd hw (by simp)
    · intro hd
      obtain ⟨w, hw, -⟩ := hok hd
      exact ⟨w, hw⟩
    · intro w hw
      have hd : v.depth ≤ limit := by
        by_contra hd
        rw [hdeep (Nat.lt_of_not_le hd)] at hw
        exact absurd hw (by simp)
      obtain ⟨w', hw', hsame, hplain⟩ := hok hd
      rw [hw', Option.some.injEq] at hw
      subst hw
      exact ⟨hsame, by rw [canonicalize_plain ryu hplain, write_eq_of_same escape_char ryu hplain hv hsame.symm]⟩

end Canonical
end Ambush

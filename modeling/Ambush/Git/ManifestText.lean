import Ambush.Core.Reading
import Ambush.Git.Manifest
/-!
# Manifests are read back

`from_bytes` returns what `canonical_bytes` wrote, the packs sorted and without repetition,
so two manifests with sorted packs and the same bytes are the same. The number of bytes of a
valid manifest follows from the lengths of its parts.
-/
open Lib

namespace Ambush.Git
open Json

/-! ## Strings and numbers -/

theorem readsChar_format_escaped_char (c : Char) : ReadsChar c (format_escaped_char c) := by
  unfold format_escaped_char
  split
  · next h => subst h; exact readsChar_simple (e := '"') (by decide) (by decide)
  split
  · next h => subst h; exact readsChar_simple (e := '\\') (by decide) (by decide)
  split
  · next h => subst h; exact readsChar_simple (e := 'b') (by decide) (by decide)
  split
  · next h => subst h; exact readsChar_simple (e := 'f') (by decide) (by decide)
  split
  · next h => subst h; exact readsChar_simple (e := 'n') (by decide) (by decide)
  split
  · next h => subst h; exact readsChar_simple (e := 'r') (by decide) (by decide)
  split
  · next h => subst h; exact readsChar_simple (e := 't') (by decide) (by decide)
  split
  · next h => exact readsChar_control (by omega)
  · next hq hb _ _ _ _ _ h => exact readsChar_plain hq hb (Nat.not_lt.1 h)

theorem parse_units_format (l rest : List Char) : ∃ units, join_units units = some l ∧
    parse_units (l.flatMap format_escaped_char ++ '"' :: rest) = some (units, rest) := by
  induction l with
  | nil => exact ⟨[], rfl, by simp [parse_units.eq_def]⟩
  | cons c l ih =>
    obtain ⟨units, hjoin, hread⟩ := ih
    obtain ⟨u, hu, hparse⟩ := readsChar_format_escaped_char c
    refine ⟨u :: units, by rw [hu, hjoin]; rfl, ?_⟩
    rw [List.flatMap_cons, List.append_assoc, hparse, hread]
    rfl

@[simp] theorem read_str_write (s : String) (rest : List Char) : read_str (write_str s ++ rest) = some (s, rest) := by
  obtain ⟨units, hjoin, hread⟩ := parse_units_format s.toList rest
  rw [read_str, write_str, List.cons_append, skip_ws_cons (by decide)]
  simp [parse_str, hread, hjoin]

@[simp] theorem read_colon_cons (rest : List Char) : read_colon (':' :: rest) = some rest := by
  rw [read_colon, skip_ws_cons (by decide)]
  rfl

theorem skip_ws_toString (n : Nat) (rest : List Char) :
    skip_ws ((toString n).toList ++ rest) = (toString n).toList ++ rest := by
  rw [Nat.toString_eq_repr, Nat.toList_repr]
  cases hd : Nat.toDigits 10 n with
  | nil => exact absurd hd Nat.toDigits_ne_nil
  | cons d ds =>
    have hdigit : d.isDigit := Nat.isDigit_of_mem_toDigits (b := 10) (n := n) (by decide) (by decide) (by simp [hd])
    refine skip_ws_cons ?_ _
    rw [is_ws, Bool.or_eq_false_iff, Bool.or_eq_false_iff, Bool.or_eq_false_iff]
    refine ⟨⟨⟨?_, ?_⟩, ?_⟩, ?_⟩ <;>
    · rw [beq_eq_false_iff_ne]
      rintro rfl
      exact absurd hdigit (by decide)

theorem read_u32_toString {n : Nat} (hn : n < 4294967296) {rest : List Char} (h : Stops rest) :
    read_u32 ((toString n).toList ++ rest) = some (n, rest) := by
  have hread := parse_number_toString (fun _ => none) (n := (n : Int)) (by omega) (by omega) h
  rw [read_u32, skip_ws_toString]
  rw [show (toString n) = toString (n : Int) from rfl, hread]
  simp only [Int.natCast_nonneg, true_and, Int.toNat_natCast]
  rw [if_pos (by omega)]

theorem read_option_write (p : Option String) (rest : List Char) :
    read_option (write_option p ++ rest) = some (p, rest) := by
  cases p with
  | none =>
    rw [read_option, write_option, List.cons_append, skip_ws_cons (by decide)]
    simp [parse_ident]
  | some s =>
    have hread := read_str_write s rest
    rw [write_option]
    rw [read_option]
    rw [write_str, List.cons_append] at hread ⊢
    rw [skip_ws_cons (by decide)]
    exact congrArg (Option.map (fun p => (some p.1, p.2))) hread

/-! ## Maps and sequences -/

/-- After an entry stands a comma or the end. -/
theorem parse_more_comma {β : Type} {close : Char} (more : List Char → Option (List β × List Char))
    (entry : β) (rest : List Char) :
    parse_more close more entry (',' :: rest) = (more rest).map (fun p => (entry :: p.1, p.2)) := by
  rw [parse_more, skip_ws_cons (by decide)]
  simp

theorem parse_more_close {β : Type} {close : Char} (hc : close ≠ ',') (hws : is_ws close = false)
    (more : List Char → Option (List β × List Char)) (entry : β) (rest : List Char) :
    parse_more close more entry (close :: rest) = some ([entry], rest) := by
  rw [parse_more, skip_ws_cons hws]
  simp [hc]

/-- Entries written with commas between them are read back, when each is. -/
theorem read_entries {α β : Type} (close : Char) (read : Nat → List Char → Option (List β × List Char))
    (write : α → List Char) (val : α → β) (hc : close ≠ ',') (hws : is_ws close = false)
    (hclose : ∀ rest, Stops (close :: rest)) {l : List α} (hread : ∀ a ∈ l, ∀ fuel rest, Stops rest →
      read (fuel + 1) (write a ++ rest) = parse_more close (read fuel) (val a) rest) (hne : l ≠ []) (fuel : Nat)
    (hfuel : l.length ≤ fuel) (rest : List Char) :
    read fuel ([','].intercalate (l.map write) ++ close :: rest) = some (l.map val, rest) := by
  induction l generalizing fuel with
  | nil => exact absurd rfl hne
  | cons a l ih =>
    obtain ⟨fuel, rfl⟩ := Nat.exists_eq_succ_of_ne_zero (show fuel ≠ 0 by rintro rfl; simp at hfuel)
    cases l with
    | nil =>
      rw [show [','].intercalate ([a].map write) = write a by simp, hread a (by simp) _ _ (hclose rest), parse_more_close hc hws]
      rfl
    | cons b l =>
      have htext : [','].intercalate ((a :: b :: l).map write) = write a ++ ',' :: [','].intercalate ((b :: l).map write) := by
        simp
      have hcomma : ∀ tail, Stops (',' :: tail) := fun tail c hc => .inl (Option.some.inj hc).symm
      rw [htext, List.append_assoc, List.cons_append, hread a (by simp) _ _ (hcomma _), parse_more_comma,
        ih (fun b hb => hread b (List.mem_cons_of_mem _ hb)) (by simp) fuel (by simpa using hfuel)]
      rfl

theorem stops_brace (rest : List Char) : Stops ('\x7d' :: rest) := fun _ hc => .inr (.inr (Option.some.inj hc).symm)

theorem stops_bracket (rest : List Char) : Stops (']' :: rest) := fun _ hc => .inr (.inl (Option.some.inj hc).symm)

/-- Every entry takes at least a character. -/
theorem length_le_intercalate {α : Type} (write : α → List Char) (hw : ∀ a, write a ≠ []) (l : List α) (c : Char)
    (rest : List Char) : l.length ≤ ([','].intercalate (l.map write) ++ c :: rest).length := by
  induction l with
  | nil => simp
  | cons a l ih =>
    have := List.length_pos_iff.2 (hw a)
    cases l with
    | nil =>
      simp only [List.map_cons, List.map_nil, List.intercalate_singleton, List.length_append, List.length_cons,
        List.length_nil]
      omega
    | cons b l =>
      simp only [List.map_cons, List.intercalate_cons_cons, List.length_append, List.length_cons, List.length_nil] at ih ⊢
      omega

namespace Refs

theorem upsert_last {β : Type} {k : String} {v : β} {f : β → β} {l : List (String × β)} (h : ∀ e ∈ l, e.1 < k) :
    upsert k v f l = l ++ [(k, f v)] := by
  induction l with
  | nil => rfl
  | cons e l ih =>
    obtain ⟨q, w⟩ := e
    have hlt : q < k := h _ List.mem_cons_self
    rw [upsert, if_neg hlt.ne', if_neg (not_lt.2 hlt.le), ih (fun e he => h e (List.mem_cons_of_mem _ he))]
    rfl

/-- Filled in key order the map has the entries as they came. -/
theorem collect_entries (r : Refs) : collect r.entries = r := by
  have key : ∀ (l : List (String × String)) (r : Refs), Sorted (r.entries ++ l) →
      (l.foldl (fun r e => r.insert e.1 e.2) r).entries = r.entries ++ l := by
    intro l
    induction l with
    | nil => simp
    | cons e l ih =>
      intro r hr
      have hlt : ∀ f ∈ r.entries, f.1 < e.1 := by
        intro f hf
        rw [Sorted, List.map_append, List.pairwise_append] at hr
        exact hr.2.2 f.1 (List.mem_map_of_mem hf) e.1 (by simp)
      have hins : (r.insert e.1 e.2).entries = r.entries ++ [e] := upsert_last hlt
      rw [List.foldl_cons, ih _ (by rw [hins, List.append_assoc]; exact hr), hins, List.append_assoc]
      rfl
  have h := key r.entries .new r.sorted
  obtain ⟨entries, sorted⟩ := r
  rw [collect]
  generalize List.foldl _ _ _ = r' at h ⊢
  obtain ⟨entries', sorted'⟩ := r'
  simp only [new, List.nil_append] at h
  subst h
  rfl

end Refs

theorem write_str_ne_nil (s : String) : write_str s ≠ [] := by simp [write_str]

/-- The first character of a list of written strings is a quote. -/
theorem head_intercalate {α : Type} (write : α → List Char) (hw : ∀ a, (write a).head? = some '"') {l : List α}
    (hne : l ≠ []) (tail : List Char) : ∃ cs, [','].intercalate (l.map write) ++ tail = '"' :: cs := by
  cases l with
  | nil => exact absurd rfl hne
  | cons a l =>
    obtain ⟨cs, hcs⟩ : ∃ cs, write a = '"' :: cs := by
      have h := hw a
      cases hwa : write a with
      | nil => rw [hwa] at h; cases h
      | cons c cs =>
        rw [hwa] at h
        exact ⟨cs, by rw [Option.some.inj h]⟩
    cases l with
    | nil => exact ⟨cs ++ tail, by simp [hcs]⟩
    | cons b l => exact ⟨cs ++ (',' :: [','].intercalate ((b :: l).map write)) ++ tail, by simp [hcs]⟩

theorem read_map_write (r : Refs) (rest : List Char) : read_map (write_map r.entries ++ rest) = some (r, rest) := by
  rw [read_map, write_map, List.cons_append, List.append_assoc, skip_ws_cons (by decide), List.singleton_append]
  simp only
  cases hl : r.entries with
  | nil =>
    rw [List.map_nil, List.intercalate_nil, List.nil_append, skip_ws_cons (by decide)]
    have hr : r = Refs.new := by
      obtain ⟨entries, sorted⟩ := r
      cases hl
      rfl
    simp [hr]
  | cons e l =>
    have hne : e :: l ≠ [] := by simp
    obtain ⟨cs, hcs⟩ := head_intercalate (fun e : String × String => write_str e.1 ++ ':' :: write_str e.2)
      (fun e => rfl) hne ('\x7d' :: rest)
    have hfuel := length_le_intercalate (fun e : String × String => write_str e.1 ++ ':' :: write_str e.2)
      (fun e => by simp [write_str]) (e :: l) '\x7d' rest
    have hread := read_entries '\x7d' read_pairs
      (fun e : String × String => write_str e.1 ++ ':' :: write_str e.2) id (by decide) (by decide) stops_brace
      (fun e _ fuel rest _ => by simp [read_pairs]) hne _ hfuel rest
    rw [hread, hcs, skip_ws_cons (by decide), List.head?_cons, if_neg (by decide), Option.map_some, List.map_id, ← hl,
      Refs.collect_entries]

theorem read_seq_write (l : List String) (rest : List Char) : read_seq (write_seq l ++ rest) = some (l, rest) := by
  rw [read_seq, write_seq, List.cons_append, List.append_assoc, skip_ws_cons (by decide), List.singleton_append]
  simp only
  cases l with
  | nil =>
    rw [List.map_nil, List.intercalate_nil, List.nil_append, skip_ws_cons (by decide)]
    simp
  | cons s l =>
    have hne : s :: l ≠ [] := by simp
    obtain ⟨cs, hcs⟩ := head_intercalate write_str (fun s => rfl) hne (']' :: rest)
    have hfuel := length_le_intercalate write_str write_str_ne_nil (s :: l) ']' rest
    have hread := read_entries ']' read_items write_str id (by decide) (by decide) stops_bracket
      (fun s _ fuel rest _ => by simp [read_items]) hne _ hfuel rest
    rw [hread, hcs, skip_ws_cons (by decide), List.head?_cons, if_neg (by decide), List.map_id]

/-! ## Fields -/

namespace Field

def name : Field → String
  | .version _ => "version"
  | .head _ => "head"
  | .refs _ => "refs"
  | .packs _ => "packs"
  | .parent _ => "parent"
  | .ignored => ""

def text : Field → List Char
  | .version n => (toString n).toList
  | .head s => write_str s
  | .refs r => write_map r.entries
  | .packs l => write_seq l
  | .parent p => write_option p
  | .ignored => []

/-- A field the struct has, with a value that fits. -/
def Known : Field → Prop
  | .version n => n < 4294967296
  | .ignored => False
  | _ => True

theorem read_value_text {f : Field} (h : f.Known) {rest : List Char} (hrest : Stops rest) :
    read_value f.name (f.text ++ rest) = some (f, rest) := by
  cases f with
  | version n => simp only [read_value, name, text, ↓reduceIte, read_u32_toString h hrest, Option.map_some]
  | head s => simp only [read_value, name, text, String.reduceEq, ↓reduceIte, read_str_write, Option.map_some]
  | refs r => simp only [read_value, name, text, String.reduceEq, ↓reduceIte, read_map_write, Option.map_some]
  | packs l => simp only [read_value, name, text, String.reduceEq, ↓reduceIte, read_seq_write, Option.map_some]
  | parent p => simp only [read_value, name, text, String.reduceEq, ↓reduceIte, read_option_write, Option.map_some]
  | ignored => exact h.elim

end Field

/-- The fields of a manifest in the order they are written in. -/
def Manifest.fields (m : Manifest) : List Field :=
  [.version m.version, .head m.head, .refs m.refs, .packs m.packs, .parent m.parent]

theorem read_fields_write {l : List Field} (hne : l ≠ []) (h : ∀ f ∈ l, f.Known) (rest : List Char) (fuel : Nat)
    (hfuel : l.length ≤ fuel) :
    read_fields fuel ([','].intercalate (l.map (fun f => write_field f.name f.text)) ++ '\x7d' :: rest) =
      some (l, rest) := by
  have hread := read_entries '\x7d' read_fields (fun f : Field => write_field f.name f.text) id (by decide)
    (by decide) stops_brace
    (fun f hf fuel rest hrest => by
      rw [read_fields, write_field, List.append_assoc, read_str_write]
      simp only [Option.bind_eq_bind, Option.bind_some, List.cons_append, read_colon_cons,
        Field.read_value_text (h f hf) hrest, id])
    hne fuel hfuel rest
  rw [hread, List.map_id]

theorem fromUTF8_toByteArray (s : String) : String.fromUTF8? s.toByteArray = some s := by
  rw [String.fromUTF8?, dif_pos s.isValidUTF8]
  rfl

namespace Manifest

theorem to_text_eq (m : Manifest) : m.to_text =
    '\x7b' :: ([','].intercalate (m.fields.map (fun f => write_field f.name f.text)) ++ ['\x7d']) := rfl

theorem of_fields_fields (m : Manifest) : of_fields m.fields = some m := rfl

theorem from_slice_to_text {m : Manifest} (h : m.version < 4294967296) :
    from_slice (String.ofList m.to_text).toByteArray = some m := by
  have hknown : ∀ f ∈ m.fields, f.Known := by
    intro f hf
    simp only [fields, List.mem_cons, List.not_mem_nil, or_false] at hf
    rcases hf with rfl | rfl | rfl | rfl | rfl
    · exact h
    all_goals trivial
  have hfuel := length_le_intercalate (fun f : Field => write_field f.name f.text)
    (fun f => by simp [write_field, write_str]) m.fields '\x7d' []
  have hread := read_fields_write (by simp [fields]) hknown [] _ hfuel
  rw [from_slice, fromUTF8_toByteArray, to_text_eq]
  generalize [','].intercalate _ = text at hread
  simp only [Option.bind_eq_bind, Option.bind_some, String.toList_ofList, skip_ws_cons (show is_ws '\x7b' = false by decide),
    hread]
  rw [if_pos (show skip_ws [] = [] from rfl), of_fields_fields]

/-- What was written is read back, the packs sorted and without repetition. -/
theorem from_bytes_canonical_bytes {m : Manifest} (h : m.version = MANIFEST_VERSION) :
    from_bytes m.canonical_bytes = .ok { m with packs := dedup (sort m.packs) } := by
  rw [from_bytes, canonical_bytes, from_slice_to_text (by rw [h]; decide)]
  simp [h]
  rfl

theorem canonical_bytes_inj {m m' : Manifest} (h : m.version = MANIFEST_VERSION) (h' : m'.version = MANIFEST_VERSION)
    (hs : m.packs.Pairwise (· < ·)) (hs' : m'.packs.Pairwise (· < ·)) (heq : m.canonical_bytes = m'.canonical_bytes) :
    m = m' := by
  have hread := from_bytes_canonical_bytes h
  rw [heq, from_bytes_canonical_bytes h', sort_dedup_of_sorted hs, sort_dedup_of_sorted hs'] at hread
  exact (Except.ok.inj hread).symm

end Manifest
end Ambush.Git

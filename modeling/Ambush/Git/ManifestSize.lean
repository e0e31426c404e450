import Ambush.Git.ManifestText
import Ambush.Lib.Results
/-!
# The size of a manifest

What validation asks for, and the bytes that a valid manifest takes: nothing in it needs an
escape, so they follow from the lengths of its parts.
-/
open Lib

namespace Ambush.Git

/-! ## Sizes -/

/-- The size of items with commas between them. -/
def joined_size : List Nat → Nat
  | [] => 0
  | [n] => n
  | n :: m :: l => n + 1 + joined_size (m :: l)

def option_size : Option String → Nat
  | none => 4
  | some s => s.utf8ByteSize + 2

/-- The size of the JSON text of a manifest with this head, these refs, so many packs and this
parent. A pack's key is 70 bytes. -/
def manifest_size (head : String) (refs : Refs) (packs : Nat) (parent : Option String) : Nat :=
  48 + (head.utf8ByteSize + 2) + (2 + joined_size (refs.entries.map (fun e => e.1.utf8ByteSize + e.2.utf8ByteSize + 5))) +
    (2 + joined_size (List.replicate packs 72)) + option_size parent

/-- The bytes a text takes. -/
def text_size (cs : List Char) : Nat := (String.ofList cs).utf8ByteSize

@[simp] theorem text_size_append (a b : List Char) : text_size (a ++ b) = text_size a + text_size b := by
  simp [text_size, String.ofList_append]

@[simp] theorem text_size_nil : text_size [] = 0 := rfl

theorem text_size_cons (c : Char) (cs : List Char) : text_size (c :: cs) = text_size [c] + text_size cs :=
  text_size_append [c] cs

@[simp] theorem text_size_toList (s : String) : text_size s.toList = s.utf8ByteSize := by
  simp [text_size]

theorem text_size_intercalate (l : List (List Char)) :
    text_size ([','].intercalate l) = joined_size (l.map text_size) := by
  induction l with
  | nil => rfl
  | cons a l ih =>
    cases l with
    | nil => simp [joined_size]
    | cons b l =>
      rw [List.intercalate_cons_cons, text_size_append, text_size_append, ih]
      rfl

/-- A text that JSON writes as it is. -/
def Unescaped (s : String) : Prop := ∀ c ∈ s.toList, format_escaped_char c = [c]

theorem flatMap_eq_self {α : Type} {f : α → List α} {l : List α} (h : ∀ a ∈ l, f a = [a]) : l.flatMap f = l := by
  induction l with
  | nil => rfl
  | cons a l ih =>
    rw [List.flatMap_cons, h a List.mem_cons_self, ih (fun b hb => h b (List.mem_cons_of_mem _ hb))]
    rfl

theorem text_size_write_str {s : String} (h : Unescaped s) : text_size (write_str s) = s.utf8ByteSize + 2 := by
  rw [write_str, flatMap_eq_self h, text_size_cons, text_size_append, text_size_toList]
  have hquote : text_size ['"'] = 1 := rfl
  omega

theorem text_size_write_field (name : String) (value : List Char) :
    text_size (write_field name value) = text_size (write_str name) + 1 + text_size value := by
  rw [write_field, text_size_append, text_size_cons, Nat.add_assoc]
  rfl

/-- Characters of a class that has no quote, no backslash and no control character. -/
theorem format_escaped_char_of {p : Char → Bool} (hquote : p '"' = false) (hback : p '\\' = false)
    (hcontrol : ∀ n < 0x20, p (Char.ofNat n) = false) {c : Char} (h : p c = true) : format_escaped_char c = [c] := by
  have hge : ¬ c.toNat < 0x20 := by
    intro hlt
    have hc := hcontrol c.toNat hlt
    rw [Char.ofNat_toNat, h] at hc
    cases hc
  have hne : ∀ d : Char, d.toNat < 0x20 → c ≠ d := by
    rintro d hd rfl
    exact hge hd
  have hq : c ≠ '"' := by
    rintro rfl
    rw [h] at hquote
    cases hquote
  have hb : c ≠ '\\' := by
    rintro rfl
    rw [h] at hback
    cases hback
  rw [format_escaped_char, if_neg hq, if_neg hb, if_neg (hne _ (by decide)), if_neg (hne _ (by decide)),
    if_neg (hne _ (by decide)), if_neg (hne _ (by decide)), if_neg (hne _ (by decide)), if_neg hge]

theorem unescaped_of_ref_char {s : String} (h : s.toList.all is_ref_char = true) : Unescaped s := fun c hc =>
  format_escaped_char_of (by decide) (by decide) (by decide) (List.all_eq_true.1 h c hc)

theorem unescaped_of_hexdigit {s : String} (h : s.toList.all is_ascii_hexdigit = true) : Unescaped s := fun c hc =>
  format_escaped_char_of (by decide) (by decide) (by decide) (List.all_eq_true.1 h c hc)

/-! ## Valid manifests -/

theorem unescaped_of_refname {s : String} (h : is_safe_refname s = true) : Unescaped s := by
  rw [is_safe_refname, Bool.and_eq_true] at h
  exact unescaped_of_ref_char h.2

theorem unescaped_of_oid {s : String} (h : is_hex_oid s = true) : Unescaped s := by
  rw [is_hex_oid, Bool.and_eq_true] at h
  exact unescaped_of_hexdigit h.2

theorem unescaped_of_digest {s : String} (h : is_manifest_digest s = true) : Unescaped s := by
  rw [is_manifest_digest, Bool.and_eq_true] at h
  refine unescaped_of_hexdigit (List.all_eq_true.2 (fun c hc => ?_))
  have hdigit := List.all_eq_true.1 h.2 c hc
  rw [is_ascii_hexdigit, hdigit, Bool.true_or]

theorem eq_of_strip_prefix {start s d : String} (h : strip_prefix start s = some d) : s = start ++ d := by
  rw [ strip_prefix] at h
  split at h
  · next hpre =>
    obtain ⟨rest, hrest⟩ := List.isPrefixOf_iff_prefix.1 hpre
    cases h
    refine String.toList_inj.1 ?_
    rw [String.toList_append, String.toList_ofList, ← hrest, List.drop_left]
  · cases h

theorem pack_key_facts {s : String} (h : is_pack_key s = true) : Unescaped s ∧ s.utf8ByteSize = 70 := by
  rw [is_pack_key, Option.any_eq_true] at h
  obtain ⟨d, hd, hdigest⟩ := h
  rw [ eq_of_strip_prefix hd]
  refine ⟨fun c hc => ?_, ?_⟩
  · rw [String.toList_append, List.mem_append] at hc
    rcases hc with hc | hc
    · exact unescaped_of_ref_char (s := "packs/") (by decide) c hc
    · exact unescaped_of_digest hdigest c hc
  · rw [is_manifest_digest, Bool.and_eq_true, beq_iff_eq] at hdigest
    rw [String.utf8ByteSize_append, hdigest.1]
    rfl

namespace Manifest

theorem validate_refs_ok {l : List (String × String)} :
    validate_refs l = .ok () ↔ ∀ e ∈ l, is_safe_refname e.1 = true ∧ is_hex_oid e.2 = true := by
  induction l with
  | nil => simp [validate_refs]
  | cons e l ih =>
    obtain ⟨name, oid⟩ := e
    rw [validate_refs, List.forall_mem_cons]
    cases hn : is_safe_refname name with
    | false => simp
    | true =>
      cases ho : is_hex_oid oid with
      | false => simp
      | true => simp [ih]

theorem validate_packs_ok {l : List String} : validate_packs l = .ok () ↔ ∀ p ∈ l, is_pack_key p = true := by
  induction l with
  | nil => simp [validate_packs]
  | cons p l ih =>
    rw [validate_packs, List.forall_mem_cons]
    cases hp : is_pack_key p with
    | false => simp
    | true => simp [ih]

theorem validate_parent_ok {p : Option String} : validate_parent p = .ok () ↔ ∀ d ∈ p, is_manifest_digest d = true := by
  cases p with
  | none => simp [validate_parent]
  | some d =>
    rw [validate_parent]
    cases hd : is_manifest_digest d with
    | false => simp [hd]
    | true => simp [hd]

theorem guard_ok {c : Prop} [Decidable c] {e : ManifestError} {x : Except ManifestError Unit} :
    (if c then (throw e >>= fun _ : PUnit => x) else x) = .ok () ↔ ¬ c ∧ x = .ok () := by
  split
  · next h => exact ⟨fun heq => (by cases heq), fun hn => absurd h hn.1⟩
  · next h => exact ⟨fun hx => ⟨h, hx⟩, fun hx => hx.2⟩

theorem then_ok {x y : Except ManifestError Unit} : (x >>= fun _ => y) = .ok () ↔ x = .ok () ∧ y = .ok () := by
  rw [ok_bind_iff]
  exact ⟨fun h => ⟨h.choose_spec.1, h.choose_spec.2⟩, fun h => ⟨(), h⟩⟩

/-- What validation asks for. -/
theorem validate_ok {m : Manifest} : m.validate = .ok () ↔
    m.packs.length ≤ MAX_MANIFEST_PACKS ∧ m.refs.len ≤ MAX_MANIFEST_REFS ∧ is_safe_refname m.head = true ∧
      (∀ e ∈ m.refs.entries, is_safe_refname e.1 = true ∧ is_hex_oid e.2 = true) ∧
      (∀ p ∈ m.packs, is_pack_key p = true) ∧ ∀ d ∈ m.parent, is_manifest_digest d = true := by
  have hempty : is_safe_refname "" = false := by decide
  rw [validate]
  simp only [guard_ok, then_ok, Nat.not_lt, Bool.not_eq_true', Bool.not_eq_false, validate_refs_ok, validate_packs_ok,
    validate_parent_ok]
  constructor
  · rintro ⟨hp, hr, -, hh, rest⟩
    exact ⟨hp, hr, hh, rest⟩
  · rintro ⟨hp, hr, hh, rest⟩
    refine ⟨hp, hr, fun heq => ?_, hh, rest⟩
    rw [heq, hempty] at hh
    cases hh

/-- The bytes of a valid manifest, from the lengths of its parts. -/
theorem size_canonical_bytes {m : Manifest} (hversion : m.version = MANIFEST_VERSION) (hpacks : m.packs.Pairwise (· < ·))
    (h : m.validate = .ok ()) : m.canonical_bytes.size = manifest_size m.head m.refs m.packs.length m.parent := by
  obtain ⟨-, -, hhead, hrefs, hkeys, hparent⟩ := validate_ok.1 h
  have hmap : text_size (write_map m.refs.entries) =
      2 + joined_size (m.refs.entries.map (fun e => e.1.utf8ByteSize + e.2.utf8ByteSize + 5)) := by
    have hsizes : (m.refs.entries.map (fun e => write_str e.1 ++ ':' :: write_str e.2)).map text_size =
        m.refs.entries.map (fun e => e.1.utf8ByteSize + e.2.utf8ByteSize + 5) := by
      rw [List.map_map]
      refine List.map_congr_left (fun e he => ?_)
      have hcolon : text_size [':'] = 1 := rfl
      rw [Function.comp_apply, text_size_append, text_size_cons, text_size_write_str (unescaped_of_refname (hrefs e he).1),
        text_size_write_str (unescaped_of_oid (hrefs e he).2)]
      omega
    have hopen : text_size ['\x7b'] = 1 := rfl
    have hclose : text_size ['\x7d'] = 1 := rfl
    rw [write_map, text_size_cons, text_size_append, text_size_intercalate, hsizes]
    omega
  have hseq : text_size (write_seq m.packs) = 2 + joined_size (List.replicate m.packs.length 72) := by
    have hsizes : (m.packs.map write_str).map text_size = List.replicate m.packs.length 72 := by
      rw [List.map_map, List.eq_replicate_iff]
      refine ⟨List.length_map _, fun n hn => ?_⟩
      obtain ⟨p, hp, rfl⟩ := List.mem_map.1 hn
      rw [Function.comp_apply, text_size_write_str (pack_key_facts (hkeys p hp)).1, (pack_key_facts (hkeys p hp)).2]
    have hopen : text_size ['['] = 1 := rfl
    have hclose : text_size [']'] = 1 := rfl
    rw [write_seq, text_size_cons, text_size_append, text_size_intercalate, hsizes]
    omega
  have hopt : text_size (write_option m.parent) = option_size m.parent := by
    cases hp : m.parent with
    | none => rfl
    | some d => exact text_size_write_str (unescaped_of_digest (hparent d hp))
  have hsize : m.canonical_bytes.size = text_size m.to_text := by
    rw [canonical_bytes, sort_dedup_of_sorted hpacks]
    rfl
  rw [hsize, to_text, text_size_cons, text_size_append, text_size_intercalate]
  simp only [List.map_cons, List.map_nil, joined_size, text_size_write_field, hmap, hseq, hopt,
    text_size_write_str (unescaped_of_refname hhead), hversion]
  have h1 : text_size ['\x7b'] = 1 := rfl
  have h2 : text_size ['\x7d'] = 1 := rfl
  have hv : text_size (write_str "version") = 9 := by decide
  have hn : text_size (toString MANIFEST_VERSION).toList = 1 := by decide
  have hh : text_size (write_str "head") = 6 := by decide
  have hr : text_size (write_str "refs") = 6 := by decide
  have hp : text_size (write_str "packs") = 7 := by decide
  have hpar : text_size (write_str "parent") = 8 := by decide
  rw [manifest_size]
  omega

end Manifest
end Ambush.Git

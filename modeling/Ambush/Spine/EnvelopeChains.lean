import Ambush.Audit.CanonicalJson
import Ambush.Bridge.ChainHeads
import Ambush.Lib.Results
import Ambush.Lib.Runs
/-!
# Chains of envelopes

A reader takes the envelopes of an issuer one after another: each must be signed, hash to what it claims and continue the head that
the one before it left. The claimed hash of the last one then fixes all of them, but for their signatures.
-/
open Lib

namespace Ambush.Spine
open Bridge (IssuerChainHead SpineError ChainLinkVerdict missing as_u64 is_ascii_hexdigit parse_issuer_pubkey_hex ascii_lowercase
  normalize_issuer_for_compare verify_chain_link starts_with)

/-! ## Envelopes -/

/-- `serde_json::Value`, with the fields of its objects in key order. -/
abbrev Envelope := { v : Value // v.ordered = true }

/-- `object.remove` of these keys. -/
def without (keys : List String) : Value → Value
  | .object fields => .object (fields.filter (fun f => f.1 ∉ keys))
  | v => v

def unsigned (envelope : Value) : Value := without ["envelope_hash", "signature"] envelope

/-- What comes from outside: `ryu`, SHA-256 and Ed25519. -/
structure Suite where
  ryu : Rat → String
  /-- `sha256_hex` of the bytes of a text, with its prefix. -/
  sha256_hex : String → String
  /-- `VerifyingKey::from_bytes`. -/
  is_key : List UInt8 → Bool
  /-- `Signature::from_hex`. -/
  signature_from_hex : String → Option (List UInt8)
  /-- `PublicKey::verify` of the bytes of a text. -/
  verify : List UInt8 → String → List UInt8 → Bool

inductive EnvelopeError where
  | Missing (error : SpineError)
  | InvalidIssuer (issuer : String)
  | Crypto
  | Canonical (error : Canonical.Error)
  | HashMismatch (expected computed : String)

def require {α : Type} (error : EnvelopeError) : Option α → Except EnvelopeError α
  | some a => .ok a
  | none => .error error

/-- A field that must be there and be a text. -/
def text_field (envelope : Value) (field : String) : Except EnvelopeError String :=
  require (.Missing (.MissingField field)) ((envelope.get field).bind Value.as_str)

def public_key_from_hex (s : Suite) (hex_str : String) : Option (List UInt8) :=
  (unhex (if starts_with hex_str "0x" then hex_str.toList.drop 2 else hex_str.toList)).filter
    (fun bytes => bytes.length = 32 && s.is_key bytes)

def signing_text (s : Suite) (envelope : Value) : Except EnvelopeError String :=
  (Canonical.canonicalize s.ryu (unsigned envelope)).mapError .Canonical

def verify_envelope (s : Suite) (envelope : Value) : Except EnvelopeError Bool := do
  let issuer ← text_field envelope "issuer"
  let signature_hex ← text_field envelope "signature"
  let claimed_hash ← text_field envelope "envelope_hash"
  let pubkey_hex ← require (.InvalidIssuer issuer) (parse_issuer_pubkey_hex issuer)
  let public_key ← require .Crypto (public_key_from_hex s pubkey_hex)
  let signature ← require .Crypto (s.signature_from_hex signature_hex)
  let bytes ← signing_text s envelope
  if s.sha256_hex bytes ≠ claimed_hash then .error (.HashMismatch claimed_hash (s.sha256_hex bytes))
  else .ok (s.verify public_key bytes signature)

def chain_head_from_envelope (envelope : Value) : Except SpineError IssuerChainHead := do
  let issuer ← missing "issuer" ((envelope.get "issuer").bind Value.as_str)
  let seq ← missing "seq" ((envelope.get "seq").bind as_u64)
  let envelope_hash ← missing "envelope_hash" ((envelope.get "envelope_hash").bind Value.as_str)
  .ok ⟨issuer, seq, envelope_hash⟩

/-- A reader that knows this head takes the envelope. -/
def accept (s : Suite) (head : Option IssuerChainHead) (envelope : Value) : Option (Option IssuerChainHead) :=
  match verify_envelope s envelope, verify_chain_link envelope head, chain_head_from_envelope envelope with
  | .ok true, .ok verdict, .ok next => if verdict.is_valid then some (some next) else none
  | _, _, _ => none

/-- A reader that knows no head takes the envelopes one after another. -/
def accepted (s : Suite) (envelopes : List Envelope) : Bool := ((envelopes.map Subtype.val).foldlM (accept s) none).isSome

/-- The hash that the last envelope claims. -/
def end_hash (envelopes : List Envelope) : Option Value := envelopes.getLast?.bind (fun envelope => envelope.1.get "envelope_hash")

def seq_of (envelope : Envelope) : Option Nat := (envelope.1.get "seq").bind as_u64

/-- The key that the issuer names. -/
def issuer_key (s : Suite) (envelope : Envelope) : Option (List UInt8) :=
  (((envelope.1.get "issuer").bind Value.as_str).bind parse_issuer_pubkey_hex).bind (public_key_from_hex s)

/-! ## What an accepted envelope says -/

section
variable {s : Suite} {head next : Option IssuerChainHead} {e : Value}

theorem require_ok {α : Type} {error : EnvelopeError} {o : Option α} {a : α} : require error o = .ok a ↔ o = some a := by
  cases o with
  | none => exact ⟨fun h => (by cases h), fun h => (by cases h)⟩
  | some b => exact ⟨fun h => (by cases h; rfl), fun h => (by cases h; rfl)⟩

theorem missing_ok {α : Type} {field : String} {o : Option α} {a : α} : missing field o = .ok a ↔ o = some a := by
  cases o with
  | none => exact ⟨fun h => (by cases h), fun h => (by cases h)⟩
  | some b => exact ⟨fun h => (by cases h; rfl), fun h => (by cases h; rfl)⟩

/-- A signed envelope names a key, and its hash is that of its text. -/
structure Signed (s : Suite) (e : Value) (issuer envelope_hash : String) : Prop where
  named : (e.get "issuer").bind Value.as_str = some issuer
  claimed : (e.get "envelope_hash").bind Value.as_str = some envelope_hash
  keyed : ∃ hex_text key, parse_issuer_pubkey_hex issuer = some hex_text ∧ public_key_from_hex s hex_text = some key
  text : ∃ t, Canonical.canonicalize s.ryu (unsigned e) = .ok t ∧ s.sha256_hex t = envelope_hash

theorem verify_envelope_ok (h : verify_envelope s e = .ok true) : ∃ issuer envelope_hash, Signed s e issuer envelope_hash := by
  unfold verify_envelope text_field signing_text at h
  simp only [ok_bind_iff, require_ok] at h
  obtain ⟨issuer, hissuer, signature_hex, -, claimed, hclaimed, hex_text, hhex, key, hkey, signature, -, bytes, hbytes, h⟩ := h
  refine ⟨issuer, claimed, hissuer, hclaimed, ⟨hex_text, key, hhex, hkey⟩, bytes, ?_, ?_⟩
  · cases htext : Canonical.canonicalize s.ryu (unsigned e) with
    | error error =>
      rw [htext] at hbytes
      cases hbytes
    | ok t =>
      rw [htext] at hbytes
      cases hbytes
      rfl
  · by_contra hne
    rw [if_pos hne] at h
    cases h

/-- How an envelope stands to the head before it. -/
def Continues (head : Option IssuerChainHead) (issuer prev : String) (seq : Nat) : Prop :=
  match head with
  | none => seq = 1
  | some head => normalize_issuer_for_compare issuer = normalize_issuer_for_compare head.issuer ∧ seq = head.seq + 1 ∧
      prev = head.envelope_hash

/-- The text of the previous hash, empty where there is none. -/
def prev_text (e : Value) : String := ((e.get "prev_envelope_hash").bind Value.as_str).getD ""

theorem verify_chain_link_ok {verdict : ChainLinkVerdict} (h : verify_chain_link e head = .ok verdict) (hvalid : verdict.is_valid = true) :
    ∃ issuer seq, (e.get "issuer").bind Value.as_str = some issuer ∧ (e.get "seq").bind as_u64 = some seq ∧
      Continues head issuer (prev_text e) seq := by
  unfold verify_chain_link at h
  simp only [ok_bind_iff, missing_ok] at h
  obtain ⟨issuer, hissuer, seq, hseq, prev, hprev, h⟩ := h
  have hread : ∀ rest : Option String → Except SpineError ChainLinkVerdict,
      (if prev.is_null = true then Except.ok none >>= rest
        else (missing "prev_envelope_hash" prev.as_str).map some >>= rest) = .ok verdict →
      ∃ prev_str, prev_str.getD "" = prev_text e ∧ rest prev_str = .ok verdict := by
    intro rest hrest
    rw [prev_text, hprev, Option.bind_some]
    split at hrest
    · next hnull =>
      refine ⟨none, ?_, hrest⟩
      cases prev with
      | null => rfl
      | _ => cases hnull
    · cases hstr : prev.as_str with
      | none =>
        rw [hstr] at hrest
        cases hrest
      | some text =>
        rw [hstr] at hrest
        exact ⟨some text, rfl, hrest⟩
  obtain ⟨prev_str, htext, h⟩ := hread _ h
  refine ⟨issuer, seq, hissuer, hseq, ?_⟩
  cases head with
  | none =>
    dsimp only at h
    split at h
    · cases h
      cases hvalid
    · next hone => exact not_not.1 hone
  | some head =>
    dsimp only at h
    split at h
    · cases h
      cases hvalid
    · next hsame =>
      split at h
      · cases h
        cases hvalid
      · split at h
        · cases h
          cases hvalid
        · next hnext =>
          split at h
          · cases h
            cases hvalid
          · next hlink => exact ⟨not_not.1 hsame, not_not.1 hnext, htext ▸ not_not.1 hlink⟩

theorem chain_head_ok {found : IssuerChainHead} (h : chain_head_from_envelope e = .ok found) :
    (e.get "issuer").bind Value.as_str = some found.issuer ∧ (e.get "seq").bind as_u64 = some found.seq ∧
      (e.get "envelope_hash").bind Value.as_str = some found.envelope_hash := by
  unfold chain_head_from_envelope at h
  simp only [ok_bind_iff, missing_ok] at h
  obtain ⟨issuer, hissuer, seq, hseq, envelope_hash, hhash, h⟩ := h
  cases h
  exact ⟨hissuer, hseq, hhash⟩

/-- What a reader that takes an envelope has checked, and the head it is left with. -/
structure Taken (s : Suite) (head : Option IssuerChainHead) (e : Value) (found : IssuerChainHead) : Prop
    extends Signed s e found.issuer found.envelope_hash where
  seq : (e.get "seq").bind as_u64 = some found.seq
  continues : Continues head found.issuer (prev_text e) found.seq

theorem accept_ok (h : accept s head e = some next) : ∃ found, next = some found ∧ Taken s head e found := by
  unfold accept at h
  split at h
  · next verdict found hverify hlink hhead =>
    split at h
    · next hvalid =>
      cases h
      obtain ⟨issuer, claimed, hsigned⟩ := verify_envelope_ok hverify
      obtain ⟨issuer', seq, hissuer', hseq', hcontinues⟩ := verify_chain_link_ok hlink hvalid
      obtain ⟨hissuer, hseq, hhash⟩ := chain_head_ok hhead
      rw [hissuer, Option.some.injEq] at hissuer'
      rw [hseq, Option.some.injEq] at hseq'
      have hsame := hsigned.named
      have hclaim := hsigned.claimed
      rw [hissuer, Option.some.injEq] at hsame
      rw [hhash, Option.some.injEq] at hclaim
      subst hissuer' hseq' hsame hclaim
      exact ⟨found, rfl, hsigned, hseq, hcontinues⟩
    · cases h
  · cases h

end

/-! ## One key -/

theorem hex_value_lower (c : Char) : hex_value (if 'A' ≤ c && c ≤ 'Z' then Char.ofNat (c.toNat + 32) else c) = hex_value c := by
  have hletters : ∀ n < 26, hex_value (Char.ofNat (65 + n + 32)) = hex_value (Char.ofNat (65 + n)) := by decide
  split
  · next hupper =>
    rw [Bool.and_eq_true, decide_eq_true_eq, decide_eq_true_eq] at hupper
    have hlow : 65 ≤ c.toNat := hupper.1
    have hhigh : c.toNat ≤ 90 := hupper.2
    have hletter := hletters (c.toNat - 65) (by omega)
    rw [Nat.add_sub_cancel' hlow, Char.ofNat_toNat] at hletter
    exact hletter
  · rfl

theorem unhex_lower (l : List Char) :
    unhex (l.map (fun c => if 'A' ≤ c && c ≤ 'Z' then Char.ofNat (c.toNat + 32) else c)) = unhex l := by
  induction l using unhex.induct with
  | case1 => rfl
  | case2 => rfl
  | case3 a b rest ih => simp only [List.map_cons, unhex, hex_value_lower, ih]

/-- A text of hexadecimal digits does not start with `0x`. -/
theorem not_prefixed {t : String} (h : ∀ c ∈ t.toList, (hex_value c).isSome) : starts_with t "0x" = false := by
  rw [Bool.eq_false_iff]
  intro hfront
  have hx : 'x' ∈ t.toList := (List.isPrefixOf_iff_prefix.1 hfront).subset (List.mem_cons_of_mem _ (List.mem_singleton_self _))
  cases h 'x' hx

theorem key_of_lower (s : Suite) {t : String} (h : ∀ c ∈ t.toList, (hex_value c).isSome) :
    public_key_from_hex s (ascii_lowercase t) = public_key_from_hex s t := by
  have hlower : ∀ c ∈ (ascii_lowercase t).toList, (hex_value c).isSome := by
    intro c hc
    rw [ascii_lowercase, String.toList_ofList] at hc
    obtain ⟨d, hd, rfl⟩ := List.mem_map.1 hc
    rw [hex_value_lower]
    exact h d hd
  rw [public_key_from_hex, public_key_from_hex, not_prefixed hlower, not_prefixed h, if_neg Bool.false_ne_true,
    if_neg Bool.false_ne_true, ascii_lowercase, String.toList_ofList, unhex_lower]

theorem hex_of_parsed {issuer t : String} (h : parse_issuer_pubkey_hex issuer = some t) : ∀ c ∈ t.toList, (hex_value c).isSome := by
  unfold parse_issuer_pubkey_hex at h
  dsimp only at h
  split at h
  · split at h
    · next hall =>
      cases h
      rw [Bool.and_eq_true, List.all_eq_true] at hall
      intro c hc
      rw [String.toList_ofList] at hc
      have hdigit := hall.2 c hc
      simp only [is_ascii_hexdigit, Bool.or_eq_true, Bool.and_eq_true, decide_eq_true_eq] at hdigit
      unfold hex_value
      rcases hdigit with (hdigit | hdigit) | hdigit
      · rw [if_pos hdigit]
        rfl
      · split
        · rfl
        · rfl
      · split
        · rfl
        · split
          · rfl
          · rfl
    · cases h
  · cases h

/-- Issuers that compare equal name one key. -/
theorem key_of_same (s : Suite) {issuer issuer' t t' : String} (h : parse_issuer_pubkey_hex issuer = some t)
    (h' : parse_issuer_pubkey_hex issuer' = some t')
    (hsame : normalize_issuer_for_compare issuer = normalize_issuer_for_compare issuer') :
    public_key_from_hex s t = public_key_from_hex s t' := by
  rw [normalize_issuer_for_compare, normalize_issuer_for_compare, h, h', Option.getD_some, Option.getD_some] at hsame
  rw [← key_of_lower s (hex_of_parsed h), hsame, key_of_lower s (hex_of_parsed h')]

/-! ## The head after a list -/

/-- What a reader knows of the envelopes it took, the last of which is its head. -/
structure Known (s : Suite) (past : List Envelope) (head : IssuerChainHead) : Prop where
  seqs : past.map seq_of = (List.range' 1 past.length).map some
  length : past.length = head.seq
  last : end_hash past = some (.string head.envelope_hash)
  keyed : ∃ hex_text key, parse_issuer_pubkey_hex head.issuer = some hex_text ∧ public_key_from_hex s hex_text = some key ∧
    ∀ x ∈ past, issuer_key s x = some key

/-- The head that these envelopes leave. -/
def After (s : Suite) (past : List Envelope) : Option IssuerChainHead → Prop
  | none => past = []
  | some head => Known s past head

section
variable {s : Suite} {past : List Envelope} {e : Envelope} {head : Option IssuerChainHead} {found : IssuerChainHead}

theorem end_hash_append (past : List Envelope) (e : Envelope) : end_hash (past ++ [e]) = e.1.get "envelope_hash" := by
  rw [end_hash, List.getLast?_concat, Option.bind_some]

theorem get_of_text {v : Value} {field t : String} (h : (v.get field).bind Value.as_str = some t) : v.get field = some (.string t) := by
  obtain ⟨w, hw, hstr⟩ := Option.bind_eq_some_iff.1 h
  cases w with
  | string a =>
    cases hstr
    exact hw
  | _ => cases hstr

theorem After.seqs (h : After s past head) : past.map seq_of = (List.range' 1 past.length).map some := by
  cases head with
  | none =>
    rw [show past = [] from h]
    rfl
  | some head => exact Known.seqs h

/-- The head after one more envelope. -/
theorem After.append (h : After s past head) (htaken : Taken s head e.1 found) : Known s (past ++ [e]) found := by
  obtain ⟨hex_text, key, hparse, hkey⟩ := htaken.keyed
  have hissuer : issuer_key s e = some key := by
    rw [issuer_key, htaken.named, Option.bind_some, hparse, Option.bind_some, hkey]
  have hcontinues := htaken.continues
  have hlength : past.length + 1 = found.seq := by
    cases head with
    | none => rw [show past = [] from h, show found.seq = 1 from hcontinues, List.length_nil]
    | some before => rw [hcontinues.2.1, Known.length h]
  refine ⟨?_, ?_, ?_, hex_text, key, hparse, hkey, ?_⟩
  · have hseq : seq_of e = some (1 + 1 * past.length) := by
      rw [Nat.one_mul, Nat.add_comm, hlength]
      exact htaken.seq
    rw [List.map_append, h.seqs, List.length_append, List.length_singleton, List.range'_concat, List.map_append, List.map_singleton,
      List.map_singleton, hseq]
  · rw [List.length_append, List.length_singleton, hlength]
  · rw [end_hash_append, get_of_text htaken.claimed]
  · intro x hx
    rcases List.mem_append.1 hx with hx | hx
    · cases head with
      | none =>
        rw [show past = [] from h] at hx
        cases hx
      | some before =>
        obtain ⟨hex_text', key', hparse', hkey', hall⟩ := Known.keyed h
        rw [hall x hx, ← hkey', ← hkey, key_of_same s hparse' hparse hcontinues.1.symm]
    · rw [List.mem_singleton.1 hx, hissuer]

/-- A list with one more envelope. -/
theorem fold_append {next : Option IssuerChainHead} (h : ((past ++ [e]).map Subtype.val).foldlM (accept s) none = some next) :
    ∃ head found, (past.map Subtype.val).foldlM (accept s) none = some head ∧ Taken s head e.1 found ∧ next = some found := by
  rw [List.map_append, List.foldlM_append] at h
  obtain ⟨head, hhead, hstep⟩ := Option.bind_eq_some_iff.1 h
  rw [List.map_singleton, List.foldlM_cons] at hstep
  obtain ⟨next', hnext, hrest⟩ := Option.bind_eq_some_iff.1 hstep
  obtain ⟨found, hfound, htaken⟩ := accept_ok hnext
  rw [List.foldlM_nil] at hrest
  cases hrest
  exact ⟨head, found, hhead, htaken, hfound⟩

theorem after_fold {xs : List Envelope} : ∀ {head}, (xs.map Subtype.val).foldlM (accept s) none = some head → After s xs head := by
  induction xs using List.reverseRecOn with
  | nil =>
    intro head h
    cases h
    rfl
  | append_singleton xs x ih =>
    intro head h
    obtain ⟨before, found, hbefore, htaken, rfl⟩ := fold_append h
    exact (ih hbefore).append htaken

end

/-! ## The list of an end -/

theorem get_without {keys : List String} {field : String} (h : field ∉ keys) (v : Value) : (without keys v).get field = v.get field := by
  cases v with
  | object fields =>
    rw [without, Value.get, Value.get, List.find?_filter]
    congr 2
    funext f
    by_cases hkey : f.1 = field
    · rw [hkey]
      simp [h]
    · simp [hkey]
  | _ => rfl

/-- The fields of one envelope but its signature, where the rest of another is the same. -/
theorem kept_field {fields others : List (String × Value)} {envelope_hash : Value} (ho : Json.Ordered fields)
    (hun : fields.filter (fun f => f.1 ∉ ["envelope_hash", "signature"]) = others.filter (fun f => f.1 ∉ ["envelope_hash", "signature"]))
    (hx : (Value.object fields).get "envelope_hash" = some envelope_hash)
    (hy : (Value.object others).get "envelope_hash" = some envelope_hash) {f : String × Value} (hf : f ∈ fields)
    (hkey : f.1 ≠ "signature") : f ∈ others := by
  by_cases hhash : f.1 = "envelope_hash"
  · obtain ⟨a, ha, hax⟩ := Option.map_eq_some_iff.1 hx
    obtain ⟨b, hb, hby⟩ := Option.map_eq_some_iff.1 hy
    have hnodup : (fields.map Prod.fst).Nodup := List.pairwise_map.2 (ho.imp (fun hlt => hlt.ne))
    have hatest := List.find?_some ha
    have hbtest := List.find?_some hb
    have hakey : a.1 = "envelope_hash" := beq_iff_eq.1 hatest
    have hbkey : b.1 = "envelope_hash" := beq_iff_eq.1 hbtest
    have hfa : f = a := List.inj_on_of_nodup_map hnodup hf (List.mem_of_find?_eq_some ha) (hhash.trans hakey.symm)
    have hab : a = b := Prod.ext (hakey.trans hbkey.symm) (hax.trans hby.symm)
    rw [hfa, hab]
    exact List.mem_of_find?_eq_some hb
  · have hmem : f ∈ fields.filter (fun f => f.1 ∉ ["envelope_hash", "signature"]) := List.mem_filter.2 ⟨hf, by simp [hhash, hkey]⟩
    rw [hun] at hmem
    exact (List.mem_filter.1 hmem).1

theorem bare_of_unsigned {x y : Envelope} {envelope_hash : Value} (hun : unsigned x.1 = unsigned y.1)
    (hx : x.1.get "envelope_hash" = some envelope_hash) (hy : y.1.get "envelope_hash" = some envelope_hash) :
    without ["signature"] x.1 = without ["signature"] y.1 := by
  obtain ⟨v, hv⟩ := x
  obtain ⟨w, hw⟩ := y
  cases v with
  | object fields =>
    cases w with
    | object others =>
      have ho := (Value.ordered_object.1 hv).1
      have ho' := (Value.ordered_object.1 hw).1
      have hun : fields.filter (fun f => f.1 ∉ ["envelope_hash", "signature"]) =
          others.filter (fun f => f.1 ∉ ["envelope_hash", "signature"]) := Value.object.inj hun
      have hbare := ho.filter (fun f => decide (f.1 ∉ ["signature"]))
      have hbare' := ho'.filter (fun f => decide (f.1 ∉ ["signature"]))
      refine congrArg Value.object (List.Perm.eq_of_pairwise (fun a b _ _ hab hba => absurd hab hba.asymm) hbare hbare' ?_)
      refine (List.perm_ext_iff_of_nodup (hbare.imp (fun hlt heq => hlt.ne (congrArg Prod.fst heq)))
        (hbare'.imp (fun hlt heq => hlt.ne (congrArg Prod.fst heq)))).2 (fun f => ?_)
      simp only [List.mem_filter, List.mem_singleton, decide_eq_true_eq]
      exact ⟨fun hf => ⟨kept_field ho hun hx hy hf.1 hf.2, hf.2⟩, fun hf => ⟨kept_field ho' hun.symm hy hx hf.1 hf.2, hf.2⟩⟩
    | _ => cases hy
  | _ => cases hx

section
variable {s : Suite}

/-- Envelopes that end two lists with one hash say the same but for their signatures. -/
theorem ends_agree (hsha : Function.Injective s.sha256_hex) {x y : Envelope} {head head' : Option IssuerChainHead}
    {found found' : IssuerChainHead} (hcanon : ∀ t, Canonical.canonicalize s.ryu (unsigned x.1) = .ok t →
      Canonical.canonicalize s.ryu (unsigned y.1) = .ok t → unsigned x.1 = unsigned y.1)
    (hx : Taken s head x.1 found) (hy : Taken s head' y.1 found') (hend : found.envelope_hash = found'.envelope_hash) :
    unsigned x.1 = unsigned y.1 ∧ without ["signature"] x.1 = without ["signature"] y.1 := by
  obtain ⟨t, ht, hhash⟩ := hx.text
  obtain ⟨t', ht', hhash'⟩ := hy.text
  obtain rfl : t = t' := hsha (hhash.trans (hend.trans hhash'.symm))
  have hun := hcanon t ht ht'
  refine ⟨hun, bare_of_unsigned hun (get_of_text hx.claimed) ?_⟩
  rw [hend]
  exact get_of_text hy.claimed

/-- Two lists that end alike have the same before their ends. -/
theorem starts_end_alike {xs ys : List Envelope} {x y : Envelope} {head head' : Option IssuerChainHead} {found found' : IssuerChainHead}
    (hxs : After s xs head) (hys : After s ys head') (hx : Taken s head x.1 found) (hy : Taken s head' y.1 found')
    (hun : unsigned x.1 = unsigned y.1) : end_hash xs = end_hash ys := by
  have hfield : ∀ field, field ∉ ["envelope_hash", "signature"] → x.1.get field = y.1.get field := by
    intro field hkey
    rw [← get_without hkey x.1, ← get_without hkey y.1]
    exact congrArg (Value.get · field) hun
  have hseq : found.seq = found'.seq := by
    have hfound := hx.seq
    rw [hfield "seq" (by decide), hy.seq] at hfound
    exact (Option.some.inj hfound).symm
  have hprev : prev_text x.1 = prev_text y.1 := by
    rw [prev_text, prev_text, hfield "prev_envelope_hash" (by decide)]
  have hlength := (hxs.append hx).length
  have hlength' := (hys.append hy).length
  rw [List.length_append, List.length_singleton] at hlength hlength'
  have hsame : xs.length = ys.length := Nat.succ.inj (hlength.trans (hseq.trans hlength'.symm))
  cases head with
  | none =>
    rw [show xs = [] from hxs] at hsame ⊢
    rw [List.length_eq_zero_iff.1 hsame.symm]
  | some before =>
    cases head' with
    | none =>
      rw [show ys = [] from hys] at hsame ⊢
      rw [List.length_eq_zero_iff.1 hsame]
    | some before' =>
      rw [Known.last hxs, Known.last hys, ← hx.continues.2.2, ← hy.continues.2.2, hprev]

theorem same_of_end (hsha : Function.Injective s.sha256_hex) (xs : List Envelope) : ∀ {ys : List Envelope} {head head'},
    (∀ x ∈ xs, ∀ y ∈ ys, ∀ t, Canonical.canonicalize s.ryu (unsigned x.1) = .ok t →
      Canonical.canonicalize s.ryu (unsigned y.1) = .ok t → unsigned x.1 = unsigned y.1) →
    (xs.map Subtype.val).foldlM (accept s) none = some head → (ys.map Subtype.val).foldlM (accept s) none = some head' →
    end_hash xs = end_hash ys → xs.map (fun x => without ["signature"] x.1) = ys.map (fun y => without ["signature"] y.1) := by
  induction xs using List.reverseRecOn with
  | nil =>
    intro ys head head' _ _ hys hend
    rcases List.eq_nil_or_concat' ys with rfl | ⟨ys, y, rfl⟩
    · rfl
    · obtain ⟨_, _, _, htaken, -⟩ := fold_append hys
      rw [end_hash_append, get_of_text htaken.claimed] at hend
      cases hend
  | append_singleton xs x ih =>
    intro ys head head' hcanon hxs hys hend
    obtain ⟨before, found, hbefore, hx, -⟩ := fold_append hxs
    rcases List.eq_nil_or_concat' ys with rfl | ⟨ys, y, rfl⟩
    · rw [end_hash_append, get_of_text hx.claimed] at hend
      cases hend
    · obtain ⟨before', found', hbefore', hy, -⟩ := fold_append hys
      rw [end_hash_append, end_hash_append, get_of_text hx.claimed, get_of_text hy.claimed, Option.some.injEq,
        Value.string.injEq] at hend
      obtain ⟨hun, hbare⟩ := ends_agree hsha (hcanon x (by simp) y (by simp)) hx hy hend
      have hstarts := starts_end_alike (after_fold hbefore) (after_fold hbefore') hx hy hun
      have hrest := ih (fun a ha b hb => hcanon a (by simp [ha]) b (by simp [hb])) hbefore hbefore' hstarts
      rw [List.map_append, List.map_append, hrest, List.map_singleton, List.map_singleton, hbare]

end

/-- A world in which a text is its own hash and every signature verifies. -/
def outside : Suite := ⟨fun _ => "0", id, fun _ => true, fun _ => some [], fun _ _ _ => true⟩

def issuer_a : Value := .string (String.ofList ("swarm:ed25519:".toList ++ List.replicate 64 'a'))

def body : Value := .object [("issuer", issuer_a), ("prev_envelope_hash", .null), ("seq", .integer 1)]

def body_text : String := (Canonical.canonicalize outside.ryu body).toOption.getD ""

def signed_as (signature : String) : Envelope :=
  ⟨.object [("envelope_hash", .string body_text), ("issuer", issuer_a), ("prev_envelope_hash", .null), ("seq", .integer 1),
    ("signature", .string signature)],
    Value.ordered_object.2 ⟨List.pairwise_map.1 (by decide :
      ["envelope_hash", "issuer", "prev_envelope_hash", "seq", "signature"].Pairwise (· < ·)), by simp [issuer_a, Value.ordered]⟩⟩

theorem signed_accepted : accepted outside [signed_as "01"] = true ∧ accepted outside [signed_as "02"] = true := by decide +kernel

end Ambush.Spine

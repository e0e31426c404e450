import Ambush.Bridge.Cards
/-!
# Chain heads

The durable head of each issuer's chain, and the check a reader makes of an envelope
against the head it knows.
-/
open Lib

namespace Ambush.Bridge

structure IssuerChainHead where
  issuer : String
  seq : Seq
  envelope_hash : String
  deriving DecidableEq

/-! ## The store -/

/-- The heads in memory and in the file. -/
structure ChainHeadStore where
  heads : Map String IssuerChainHead := .empty
  stored : Map String IssuerChainHead := .empty

/-- `persisted` is whether the file is written. -/
def ChainHeadStore.advance (s : ChainHeadStore) (head : IssuerChainHead) (persisted : Bool) :
    ChainHeadStore × Except BridgeError Unit :=
  let expected := ((s.heads head.issuer).map (fun stored => stored.seq + 1)).getD 1
  if head.seq ≠ expected then (s, .error (.ChainHeadRegression head.issuer expected head.seq))
  else
    let heads := s.heads.insert head.issuer head
    if persisted then (⟨heads, heads⟩, .ok ()) else (⟨heads, s.stored⟩, .error .SpoolIo)

theorem ChainHeadStore.advance_next {s : ChainHeadStore} {head : IssuerChainHead}
    (h : head.seq = ((s.heads head.issuer).map (fun stored => stored.seq + 1)).getD 1) :
    s.advance head true = (⟨s.heads.insert head.issuer head, s.heads.insert head.issuer head⟩, .ok ()) := by
  simp only [ChainHeadStore.advance]
  rw [if_neg (fun hne => hne h)]
  rfl

/-- `ChainHeadStore::open` over the file. -/
def ChainHeadStore.reopen (s : ChainHeadStore) : ChainHeadStore := ⟨s.stored, s.stored⟩

/-! ## The reader's check -/

inductive SpineError where
  | MissingField (field : String)
  deriving DecidableEq

inductive ChainLinkVerdict where
  | NewChain
  | ValidContinuation
  | HashMismatch (expected_prev_hash actual_prev_hash : String)
  | SequenceMismatch (expected_seq actual_seq : Nat)
  | InvalidChainHead (reason : String)
  deriving DecidableEq

def ChainLinkVerdict.is_valid : ChainLinkVerdict → Bool
  | .NewChain | .ValidContinuation => true
  | _ => false

def is_ascii_hexdigit (c : Char) : Bool :=
  ('0' ≤ c && c ≤ '9') || ('a' ≤ c && c ≤ 'f') || ('A' ≤ c && c ≤ 'F')

/-- The 64 hex digits after `swarm:ed25519:`. -/
def parse_issuer_pubkey_hex (issuer : String) : Option String :=
  let front := "swarm:ed25519:"
  if starts_with issuer front then
    let rest := issuer.toList.drop front.length
    if rest.length = 64 && rest.all is_ascii_hexdigit then some (String.ofList rest) else none
  else none

/-- `to_ascii_lowercase`. -/
def ascii_lowercase (s : String) : String :=
  String.ofList (s.toList.map (fun c => if 'A' ≤ c && c ≤ 'Z' then Char.ofNat (c.toNat + 32) else c))

def normalize_issuer_for_compare (issuer : String) : String :=
  ascii_lowercase ((parse_issuer_pubkey_hex issuer).getD issuer)

/-- `Value::as_u64`. -/
def as_u64 : Value → Option Nat
  | .integer n => if 0 ≤ n ∧ n < 18446744073709551616 then some n.toNat else none
  | _ => none

def missing {α : Type} (field : String) : Option α → Except SpineError α
  | some a => .ok a
  | none => .error (.MissingField field)

def verify_chain_link (envelope : Value) (known_head : Option IssuerChainHead) : Except SpineError ChainLinkVerdict := do
  let envelope_issuer ← missing "issuer" ((envelope.get "issuer").bind Value.as_str)
  let seq ← missing "seq" ((envelope.get "seq").bind as_u64)
  let prev_hash ← missing "prev_envelope_hash" (envelope.get "prev_envelope_hash")
  let prev_hash_str ← if prev_hash.is_null then .ok none
    else (missing "prev_envelope_hash" prev_hash.as_str).map some
  match known_head with
  | none =>
    if seq ≠ 1 then .ok (.InvalidChainHead ("first envelope must have seq=1, got seq=" ++ toString seq))
    else if prev_hash_str.isSome then .ok (.InvalidChainHead "first envelope must have null prev_envelope_hash")
    else .ok .NewChain
  | some head =>
    if normalize_issuer_for_compare envelope_issuer ≠ normalize_issuer_for_compare head.issuer then
      .ok (.InvalidChainHead ("issuer mismatch: envelope issuer " ++ envelope_issuer ++
        " does not match head issuer " ++ head.issuer))
    else if ¬ head.seq + 1 < 18446744073709551616 then
      .ok (.InvalidChainHead ("known head sequence overflow for issuer " ++ head.issuer))
    else if seq ≠ head.seq + 1 then .ok (.SequenceMismatch (head.seq + 1) seq)
    else if prev_hash_str.getD "" ≠ head.envelope_hash then
      .ok (.HashMismatch head.envelope_hash (prev_hash_str.getD ""))
    else .ok .ValidContinuation

/-- `chain_head_from_envelope`, of an envelope the bridge sealed. -/
def CardEnvelope.head (e : CardEnvelope) : IssuerChainHead := ⟨e.issuer, e.seq, e.envelope_hash⟩

/-! ## The check of a sealed envelope -/

section
variable (wire : Wire) {e : CardEnvelope}

theorem to_value_fields (e : CardEnvelope) : (e.to_value wire).get "issuer" = some (.string e.issuer) ∧
    (e.to_value wire).get "seq" = some (.integer e.seq) ∧
    (e.to_value wire).get "prev_envelope_hash" = some (.optional e.prev_envelope_hash) := by
  refine ⟨?_, ?_, ?_⟩ <;> simp [CardEnvelope.to_value, Value.get, List.find?]

theorem as_u64_natCast {n : Nat} (h : n < 18446744073709551616) : as_u64 (.integer n) = some n := by
  have hlt : (n : Int) < 18446744073709551616 := by omega
  rw [as_u64, if_pos ⟨Int.natCast_nonneg n, hlt⟩, Int.toNat_natCast]

theorem verify_first (hseq : e.seq = 1) (hprev : e.prev_envelope_hash = none) :
    verify_chain_link (e.to_value wire) none = .ok .NewChain := by
  obtain ⟨hissuer, hs, hp⟩ := to_value_fields wire e
  have hu64 : as_u64 (.integer (1 : Nat)) = some 1 := as_u64_natCast (by omega)
  simp only [verify_chain_link, hissuer, hs, hp, hseq, hprev, Option.bind_some, hu64]
  rfl

theorem verify_next {head : IssuerChainHead} (hissuer : e.issuer = head.issuer) (hseq : e.seq = head.seq + 1)
    (hbound : e.seq < 18446744073709551616) (hprev : e.prev_envelope_hash = some head.envelope_hash) :
    verify_chain_link (e.to_value wire) (some head) = .ok .ValidContinuation := by
  obtain ⟨hi, hs, hp⟩ := to_value_fields wire e
  have hissuer' : missing "issuer" (((e.to_value wire).get "issuer").bind Value.as_str) = .ok head.issuer := by
    rw [hi, hissuer]
    rfl
  have hseq' : missing "seq" (((e.to_value wire).get "seq").bind as_u64) = .ok (head.seq + 1) := by
    rw [hs, Option.bind_some, as_u64_natCast hbound, hseq]
    rfl
  have hprev' : missing "prev_envelope_hash" ((e.to_value wire).get "prev_envelope_hash") = .ok (.string head.envelope_hash) := by
    rw [hp, hprev]
    rfl
  rw [hseq] at hbound
  unfold verify_chain_link
  rw [hissuer', hseq', hprev']
  -- The bound is hidden, so that no step compares against the literal.
  generalize 18446744073709551616 = bound at hbound ⊢
  simp [bind, Except.bind, Except.map, missing, Value.is_null, Value.as_str, hbound]
end

end Ambush.Bridge

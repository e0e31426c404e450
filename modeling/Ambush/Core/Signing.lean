import Ambush.Core.Value
/-!
# Hashes, keys and detached signatures

SHA-256, Ed25519 and hexadecimal decoding come from outside the repository, so the
model takes them as a `Crypto`. A key is written as the hexadecimal text of its 32
bytes. Every byte string the modelled code hashes or signs is the canonical JSON of
some value, so hashing and signing are functions of that value.
-/
namespace Ambush

/-- `AgentId(pub String)`. -/
abbrev AgentId := String

abbrev SigningKey := String

abbrev VerifyingKey := String

structure Crypto where
  /-- `sha256_hex(&canonical_json_bytes(value)?)`. -/
  digest : Value → String
  /-- `SigningKey::verifying_key`. -/
  verifying_key : SigningKey → VerifyingKey
  /-- `sha256(key.as_bytes()).to_hex()`. -/
  key_id : VerifyingKey → String
  /-- `PublicKey::from_hex`, which drops a leading `0x`. -/
  public_key_from_hex : String → Except String VerifyingKey
  /-- `hex::decode`, the 32-byte check and `VerifyingKey::from_bytes`. -/
  verifying_key_from_hex : String → Except String VerifyingKey
  /-- The hexadecimal signature over the canonical JSON of a value. -/
  sign : SigningKey → Value → String
  /-- `Signature::from_hex` and `PublicKey::verify`; an error is a malformed signature. -/
  verify : VerifyingKey → Value → String → Except String Bool

/-- `AgentId::new`. -/
def AgentId.new (role short_id : String) : AgentId := role ++ "-" ++ short_id

/-- `AgentId::from_verifying_key`. -/
def AgentId.from_verifying_key (key : VerifyingKey) : AgentId := "swarm:ed25519:" ++ key

structure DetachedSignature where
  algorithm : String
  key_id : String
  public_key_hex : String
  signature_hex : String
  deriving DecidableEq

def DetachedSignature.serialize (s : DetachedSignature) : Value :=
  .object [("algorithm", .string s.algorithm), ("key_id", .string s.key_id),
    ("public_key_hex", .string s.public_key_hex), ("signature_hex", .string s.signature_hex)]

def detached_signature (c : Crypto) (signing_key : SigningKey) (payload : Value) : DetachedSignature where
  algorithm := "ed25519"
  key_id := c.key_id (c.verifying_key signing_key)
  public_key_hex := c.verifying_key signing_key
  signature_hex := c.sign signing_key payload

def verify_detached_signature (c : Crypto) (payload : Value) (signature : DetachedSignature) : Except String Unit :=
  if signature.algorithm ≠ "ed25519" then
    .error ("Invalid hex encoding: unsupported signature algorithm `" ++ signature.algorithm ++ "`")
  else
    match c.public_key_from_hex signature.public_key_hex with
    | .error text => .error text
    | .ok public_key =>
      if c.key_id public_key ≠ signature.key_id then .error "Invalid signature"
      else
        match c.verify public_key payload signature.signature_hex with
        | .error text => .error text
        | .ok true => .ok ()
        | .ok false => .error "Invalid signature"

/-- A `Crypto` to compute with: a digest is the value written out, a signature the
digest under its key's name. -/
def Crypto.plain : Crypto where
  digest := Value.text
  verifying_key key := key
  key_id key := "key " ++ key
  public_key_from_hex := .ok
  verifying_key_from_hex := .ok
  sign key v := key ++ " signed " ++ v.text
  verify key v signature := .ok (signature = key ++ " signed " ++ v.text)

end Ambush

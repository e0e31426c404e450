import Ambush.Lib.Texts
import Ambush.Lib.Results
/-!
# A device pairing session

One side of a pairing: the source shows a QR code and gives a secret away, the target scans
the code and receives it. A session is a state machine with no input or output of its own:
its methods take the events of the relay and return the events to publish. Keys, NIP-44,
signatures, HKDF and JSON come from outside the repository and are taken as a `Nostr`.
-/
open Lib

namespace Ambush.Pairing

/-! ## Keys and events -/

structure Bytes32 where
  bytes : List UInt8
  size : bytes.length = 32
  deriving DecidableEq

abbrev SecretKey := Bytes32

abbrev PublicKey := Bytes32

def Bytes32.to_hex (b : Bytes32) : String := String.ofList (hex b.bytes)

/-- `hex::decode(s).ok().and_then(|b| <[u8; 32]>::try_from(b).ok())`. -/
def Bytes32.of_hex (s : String) : Option Bytes32 := do
  let b ← unhex s.toList
  if h : b.length = 32 then some ⟨b, h⟩ else none

structure Event where
  id : Bytes32
  pubkey : PublicKey
  created_at : Nat
  kind : Nat
  tags : List (List String)
  content : String
  sig : String
  deriving DecidableEq

structure EventBuilder where
  kind : Nat
  content : String
  tags : List (List String)
  custom_created_at : Option Nat

/-- `Tag::public_key`. -/
def public_key_tag (key : PublicKey) : List String := ["p", key.to_hex]

/-! ## Messages -/

inductive PayloadType where
  | Nsec | Bunker | Connect | Custom
  deriving DecidableEq

inductive AbortReason where
  | SasMismatch | UserDenied | Timeout | ProtocolError | Unknown
  deriving DecidableEq

inductive PairingMessage where
  | Offer (session_id : String) (version : Nat)
  | SasConfirm (transcript_hash : String)
  | Payload (payload_type : PayloadType) (payload : String)
  | Complete (success : Bool)
  | Abort (reason : AbortReason)
  deriving DecidableEq

inductive PairingError where
  | InvalidSessionId
  | SasMismatch
  | TranscriptMismatch
  | UnexpectedMessage (expected got : String)
  | SessionExpired
  | Nip44 (error : String)
  | Json (error : String)
  | InvalidPubkey (error : String)
  | SigningError (error : String)
  deriving DecidableEq

/-- What a call reads of the clocks and draws at random. -/
structure Moment where
  /-- `Instant::now()`, in nanoseconds. -/
  now : Nat
  /-- `Timestamp::now().as_secs()`. -/
  timestamp : Nat
  /-- `rand::random::<u64>()`. -/
  random : Nat
  nonce : Bytes32
  aux : Bytes32

structure Nostr where
  /-- `Keys::public_key`. -/
  public_key : SecretKey → PublicKey
  /-- `nostr::util::generate_shared_key`. -/
  generate_shared_key : SecretKey → PublicKey → Except String Bytes32
  /-- NIP-44 v2 under the conversation key of a shared key. -/
  encrypt_v2 : Bytes32 → Bytes32 → String → Except String String
  decrypt_v2 : Bytes32 → String → Except String String
  /-- `EventBuilder::sign_with_keys`. -/
  sign_with_keys : SecretKey → Moment → EventBuilder → Except String Event
  /-- `Event::verify`: the id and the signature. -/
  verify : Event → Except String Unit
  /-- HKDF-SHA256 with 32 bytes of output, of a salt, the key material and the info. -/
  hkdf32 : List UInt8 → List UInt8 → List UInt8 → Bytes32
  /-- `serde_json::to_string` and `serde_json::from_str` of a message. -/
  to_string : PairingMessage → Except String String
  from_str : String → Except String PairingMessage

variable (c : Nostr)

/-- `nip44::encrypt`. -/
def encrypt (secret_key : SecretKey) (public_key : PublicKey) (nonce : Bytes32) (content : String) : Except String String := do
  c.encrypt_v2 (← c.generate_shared_key secret_key public_key) nonce content

/-- `nip44::decrypt`, which derives the same key. -/
def decrypt (secret_key : SecretKey) (public_key : PublicKey) (payload : String) : Except String String := do
  c.decrypt_v2 (← c.generate_shared_key secret_key public_key) payload

/-! ## Derivations -/

def INFO_SESSION_ID : List UInt8 := "nostr-pair-session-id".toUTF8.toList

def INFO_SAS : List UInt8 := "nostr-pair-sas-v1".toUTF8.toList

def INFO_TRANSCRIPT : List UInt8 := "nostr-pair-transcript-v1".toUTF8.toList

def derive_session_id (session_secret : Bytes32) : Bytes32 := c.hkdf32 [] session_secret.bytes INFO_SESSION_ID

/-- `u32::from_be_bytes` of the first four bytes. -/
def from_be_bytes (bytes : List UInt8) : Nat := (bytes.take 4).foldl (fun n b => 256 * n + b.toNat) 0

def derive_sas (ecdh_shared session_secret : Bytes32) : Nat × Bytes32 :=
  let sas_input := c.hkdf32 session_secret.bytes ecdh_shared.bytes INFO_SAS
  (from_be_bytes sas_input.bytes % 1000000, sas_input)

def derive_transcript_hash (session_id : Bytes32) (source_pubkey target_pubkey : PublicKey) (sas_input session_secret : Bytes32) :
    Bytes32 :=
  c.hkdf32 session_secret.bytes (session_id.bytes ++ source_pubkey.bytes ++ target_pubkey.bytes ++ sas_input.bytes)
    INFO_TRANSCRIPT

/-- Six digits. -/
def format_sas (code : Nat) : String :=
  let digits := toString code
  String.ofList (List.replicate (6 - digits.length) '0') ++ digits

/-! ## Sessions -/

inductive Role where
  | Source | Target
  deriving DecidableEq

def Role.debug : Role → String
  | .Source => "Source"
  | .Target => "Target"

inductive SessionState where
  | Waiting | Confirming | AwaitingConfirmation | Transferring | PayloadExchanged | Completed | Aborted
  deriving DecidableEq

def SessionState.debug : SessionState → String
  | .Waiting => "Waiting"
  | .Confirming => "Confirming"
  | .AwaitingConfirmation => "AwaitingConfirmation"
  | .Transferring => "Transferring"
  | .PayloadExchanged => "PayloadExchanged"
  | .Completed => "Completed"
  | .Aborted => "Aborted"

def SessionState.terminal : SessionState → Bool
  | .Completed | .Aborted => true
  | _ => false

def PAIRING_KIND : Nat := 24134

/-- 120 seconds, in nanoseconds. -/
def DEFAULT_TIMEOUT : Nat := 120 * 1000000000

structure PairingSession where
  role : Role
  state : SessionState
  keys : SecretKey
  session_secret : Bytes32
  relay_urls : List String
  peer_pubkey : Option PublicKey
  session_id : Bytes32
  sas_code : Option Nat
  sas_input : Option Bytes32
  processed_ids : List Bytes32
  created_at : Nat
  timeout : Nat
  deriving DecidableEq

structure QrPayload where
  version : Nat
  source_pubkey : PublicKey
  session_secret : Bytes32
  relays : List String

def unexpected (expected : String) (got : PairingMessage) : PairingError :=
  let got_name := match got with
    | .Offer _ _ => "offer"
    | .SasConfirm _ => "sas-confirm"
    | .Payload _ _ => "payload"
    | .Complete _ => "complete"
    | .Abort _ => "abort"
  .UnexpectedMessage expected got_name

namespace PairingSession

variable (s : PairingSession) (m : Moment)

/-! ## Checks -/

def is_expired : Bool := s.timeout < m.now - s.created_at

def check_expired : Except PairingError Unit :=
  if s.is_expired m then .error .SessionExpired else .ok ()

def expect_state (expected : SessionState) : Except PairingError Unit :=
  if s.state ≠ expected then
    .error (.UnexpectedMessage ("state " ++ expected.debug) ("state " ++ s.state.debug))
  else .ok ()

def expect_role (expected : Role) : Except PairingError Unit :=
  if s.role ≠ expected then
    .error (.UnexpectedMessage ("role " ++ expected.debug) ("role " ++ s.role.debug))
  else .ok ()

def pubkey : PublicKey := c.public_key s.keys

def validate_event_basics (event : Event) : Except PairingError Unit :=
  match c.verify event with
  | .error e => .error (.InvalidPubkey ("event verification failed: " ++ e))
  | .ok () =>
    if event.id ∈ s.processed_ids then .error (.UnexpectedMessage "new event" "duplicate event id")
    else if event.kind ≠ PAIRING_KIND then
      .error (.UnexpectedMessage ("kind " ++ toString PAIRING_KIND) ("kind " ++ toString event.kind))
    else if event.tags.any (fun t => t[0]? == some "p" && t[1]? == some (s.pubkey c).to_hex) then .ok ()
    else .error (.InvalidPubkey "event p-tag does not match our ephemeral pubkey")

def validate_event_from_peer (event : Event) : Except PairingError Unit := do
  s.validate_event_basics c event
  match s.peer_pubkey with
  | none => .ok ()
  | some expected =>
    if event.pubkey ≠ expected then
      .error (.InvalidPubkey ("event from " ++ event.pubkey.to_hex ++ " but expected " ++ expected.to_hex))
    else .ok ()

def decrypt_message (event : Event) : Except PairingError PairingMessage :=
  let content_len := event.content.utf8ByteSize
  if ¬ (132 ≤ content_len ∧ content_len ≤ 87472) then
    .error (.UnexpectedMessage "NIP-44 content (132–87472 chars)" (toString content_len ++ " chars"))
  else
    match decrypt c s.keys event.pubkey event.content with
    | .error e => .error (.Nip44 e)
    | .ok decrypted =>
      if 65535 < decrypted.utf8ByteSize then
        -- the text is zeroized before its length is read for the message
        .error (.UnexpectedMessage "plaintext ≤ 65535 bytes" "0 bytes")
      else
        match c.from_str decrypted with
        | .error e => .error (.Json e)
        | .ok message => .ok message

def record_event (event : Event) : PairingSession := { s with processed_ids := event.id :: s.processed_ids }

def build_event (message : PairingMessage) : Except PairingError Event :=
  match s.peer_pubkey with
  | none => .error (.InvalidPubkey "no peer pubkey set")
  | some peer =>
    match c.to_string message with
    | .error e => .error (.Json e)
    | .ok plaintext =>
      match encrypt c s.keys peer m.nonce plaintext with
      | .error e => .error (.Nip44 e)
      | .ok encrypted =>
        let ts := m.timestamp - m.random % 31
        match c.sign_with_keys s.keys m ⟨PAIRING_KIND, encrypted, [public_key_tag peer], some ts⟩ with
        | .error e => .error (.SigningError e)
        | .ok event => .ok event

/-! ## Creation -/

def new_source (keys : SecretKey) (session_secret : Bytes32) (relay_url : String) : PairingSession × QrPayload :=
  ({ role := .Source, state := .Waiting, keys, session_secret, relay_urls := [relay_url], peer_pubkey := none,
     session_id := derive_session_id c session_secret, sas_code := none, sas_input := none, processed_ids := [],
     created_at := m.now, timeout := DEFAULT_TIMEOUT },
   ⟨1, c.public_key keys, session_secret, [relay_url]⟩)

def new_target (keys : SecretKey) (qr : QrPayload) : Except PairingError (PairingSession × Event) :=
  let session_id := derive_session_id c qr.session_secret
  match c.generate_shared_key keys qr.source_pubkey with
  | .error e => .error (.SigningError e)
  | .ok ecdh =>
    let (code, sas_input) := derive_sas c ecdh qr.session_secret
    let session : PairingSession :=
      { role := .Target, state := .Waiting, keys, session_secret := qr.session_secret, relay_urls := qr.relays,
        peer_pubkey := some qr.source_pubkey, session_id, sas_code := some code, sas_input := some sas_input,
        processed_ids := [], created_at := m.now, timeout := DEFAULT_TIMEOUT }
    match session.build_event c m (.Offer session_id.to_hex 1) with
    | .error e => .error e
    | .ok event => .ok ({ session with state := .Confirming }, event)

/-! ## Sending -/

/-- The methods that publish a message and move on. -/
def send_message (expected : SessionState) (role : Role) (message : Except PairingError PairingMessage) (next : SessionState) :
    PairingSession × Except PairingError Event :=
  let sent : Except PairingError Event := do
    s.check_expired m
    s.expect_state expected
    s.expect_role role
    s.build_event c m (← message)
  match sent with
  | .error e => (s, .error e)
  | .ok event => ({ s with state := next }, .ok event)

def sas_confirmation : Except PairingError PairingMessage :=
  match s.sas_input with
  | none => .error .SasMismatch
  | some sas_input =>
    match s.peer_pubkey with
    | none => .error (.InvalidPubkey "no peer")
    | some peer =>
      .ok (.SasConfirm (derive_transcript_hash c s.session_id (s.pubkey c) peer sas_input s.session_secret).to_hex)

def confirm_sas : PairingSession × Except PairingError Event :=
  s.send_message c m .Confirming .Source (s.sas_confirmation c) .Transferring

def send_source_complete (success : Bool) : PairingSession × Except PairingError Event :=
  s.send_message c m .PayloadExchanged .Source (.ok (.Complete success)) (if success then .Completed else .Aborted)

def send_payload (payload_type : PayloadType) (payload : String) : PairingSession × Except PairingError Event :=
  s.send_message c m .Transferring .Source (.ok (.Payload payload_type payload)) .PayloadExchanged

def send_complete : PairingSession × Except PairingError Event :=
  s.send_message c m .PayloadExchanged .Target (.ok (.Complete true)) .Completed

/-! ## Receiving -/

/-- What `handle_offer` checks before it locks to the peer. -/
def check_offer (event : Event) : Except PairingError Unit := do
  s.check_expired m
  s.expect_state .Waiting
  s.expect_role .Source
  s.validate_event_basics c event
  match ← s.decrypt_message c event with
  | .Offer session_id version =>
    if version ≠ 1 then .error (.UnexpectedMessage "version 1" ("version " ++ toString version))
    else if Bytes32.of_hex session_id = some s.session_id then .ok ()
    else .error .InvalidSessionId
  | other => .error (unexpected "offer" other)

def handle_offer (event : Event) : PairingSession × Except PairingError String :=
  match s.check_offer c m event with
  | .error e => (s, .error e)
  | .ok () =>
    let s := { s with peer_pubkey := some event.pubkey }
    match c.generate_shared_key s.keys event.pubkey with
    | .error e => (s, .error (.SigningError e))
    | .ok ecdh =>
      let (code, sas_input) := derive_sas c ecdh s.session_secret
      let s := { s with sas_code := some code, sas_input := some sas_input, state := .Confirming }
      (s.record_event event, .ok (format_sas code))

/-- The payload in an event, for the side that receives it. -/
def check_payload (role : Role) (event : Event) : Except PairingError (PayloadType × String) := do
  s.check_expired m
  s.expect_state .Transferring
  s.expect_role role
  s.validate_event_from_peer c event
  match ← s.decrypt_message c event with
  | .Payload payload_type payload => .ok (payload_type, payload)
  | other => .error (unexpected "payload" other)

def receive_payload (role : Role) (event : Event) : PairingSession × Except PairingError (PayloadType × String) :=
  match s.check_payload c m role event with
  | .error e => (s, .error e)
  | .ok payload => ({ s with state := .PayloadExchanged }.record_event event, .ok payload)

def handle_return_payload (event : Event) : PairingSession × Except PairingError (PayloadType × String) :=
  s.receive_payload c m .Source event

def handle_payload (event : Event) : PairingSession × Except PairingError (PayloadType × String) :=
  s.receive_payload c m .Target event

def check_complete (event : Event) : Except PairingError Bool := do
  s.check_expired m
  s.expect_state .PayloadExchanged
  s.expect_role .Source
  s.validate_event_from_peer c event
  match ← s.decrypt_message c event with
  | .Complete success => .ok success
  | other => .error (unexpected "complete" other)

def handle_complete (event : Event) : PairingSession × Except PairingError Unit :=
  match s.check_complete c m event with
  | .error e => (s, .error e)
  | .ok true => ({ s with state := .Completed }.record_event event, .ok ())
  | .ok false =>
    ({ s with state := .Aborted }, .error (.UnexpectedMessage "complete(success=true)" "complete(success=false)"))

/-- Whether the received hash is the one the target computes. -/
def check_sas_confirm (event : Event) : Except PairingError Bool := do
  s.check_expired m
  s.expect_state .Confirming
  s.expect_role .Target
  s.validate_event_from_peer c event
  match ← s.decrypt_message c event with
  | .SasConfirm transcript_hash =>
    match s.sas_input with
    | none => .error .SasMismatch
    | some sas_input =>
      match s.peer_pubkey with
      | none => .error (.InvalidPubkey "no peer")
      | some peer =>
        let expected_hash := derive_transcript_hash c s.session_id peer (s.pubkey c) sas_input s.session_secret
        .ok (Bytes32.of_hex transcript_hash = some expected_hash)
  | other => .error (unexpected "sas-confirm" other)

def handle_sas_confirm (event : Event) : PairingSession × Except PairingError String :=
  match s.check_sas_confirm c m event with
  | .error e => (s, .error e)
  | .ok false => ({ s with state := .Aborted }, .error .TranscriptMismatch)
  | .ok true =>
    let s := { s with state := .AwaitingConfirmation }.record_event event
    match s.sas_code with
    | none => (s, .error .SasMismatch)
    | some code => (s, .ok (format_sas code))

def confirm_target_sas : PairingSession × Except PairingError Unit :=
  let checked : Except PairingError Unit := do
    s.check_expired m
    s.expect_state .AwaitingConfirmation
    s.expect_role .Target
  match checked with
  | .error e => (s, .error e)
  | .ok () => ({ s with state := .Transferring }, .ok ())

/-! ## Aborting, and events of the caller's own -/

def check_live : Except PairingError Unit :=
  if s.state.terminal then .error (.UnexpectedMessage "non-terminal state" ("state " ++ s.state.debug)) else .ok ()

def abort (reason : AbortReason) : PairingSession × Except PairingError (Option Event) :=
  match s.check_live with
  | .error e => (s, .error e)
  | .ok () =>
    if s.peer_pubkey.isNone then ({ s with state := .Aborted }, .ok none)
    else
      match s.build_event c m (.Abort reason) with
      | .error e => (s, .error e)
      | .ok event => ({ s with state := .Aborted }, .ok (some event))

/-- An abort before the offer is accepted could come from anybody who watches the relay. -/
def check_peer : Except PairingError Unit :=
  if s.peer_pubkey.isNone then .error (.InvalidPubkey "cannot accept abort before peer is known") else .ok ()

def check_abort (event : Event) : Except PairingError AbortReason := do
  s.check_live
  s.check_peer
  s.validate_event_from_peer c event
  match ← s.decrypt_message c event with
  | .Abort reason => .ok reason
  | other => .error (unexpected "abort" other)

def handle_abort (event : Event) : PairingSession × Except PairingError AbortReason :=
  match s.check_abort c event with
  | .error e => (s, .error e)
  | .ok reason => ({ s with state := .Aborted }.record_event event, .ok reason)

/-- Signs any event with the session's key, for authentication at the relay. -/
def sign_event (builder : EventBuilder) : Except PairingError Event :=
  match c.sign_with_keys s.keys m builder with
  | .error e => .error (.SigningError e)
  | .ok event => .ok event

end PairingSession
end Ambush.Pairing

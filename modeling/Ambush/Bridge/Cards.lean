import Ambush.Lib.Maps
import Ambush.Lib.Results
import Ambush.Bridge.Events
/-!
# Cards

A card is a fact sealed into an envelope that carries the hash of its issuer's previous
envelope. JSON text, hashes, signatures and the wording of a card are the fields of
`Wire`; everything the bridge decides about a card is here.
-/
open Lib

namespace Ambush.Bridge

/-! ## Errors and answers -/

inductive WsClientError where
  | Timeout
  | Other (reason : String)
  deriving DecidableEq

inductive BridgeError where
  | Encode (reason : String)
  | MissingLaneChannel (threat_class : String)
  | UnknownSlot (slot : String)
  | Envelope (reason : String)
  | InvalidConfig (reason : String)
  | SpoolIo
  | Ws (error : WsClientError)
  | RelayUnreachable (attempt : Nat)
  | ChainHeadRegression (issuer : String) (expected found : Nat)
  deriving DecidableEq

/-- The relay's answer to one event. -/
inductive OkOutcome where
  | Accepted | ChannelAlreadyExists | AdmissionUnavailable
  | RateLimited (retry_in_secs : Option Nat)
  | RelayForkAbsent | NotAChannelMember | ClockSkew
  | Rejected (message : String)
  deriving DecidableEq

def OkOutcome.is_success : OkOutcome → Bool
  | .Accepted | .ChannelAlreadyExists => true
  | _ => false

/-! ## Identities -/

inductive Slot where
  | Agent (id : String) | Telemetry | Alarm
  deriving DecidableEq

def Slot.label : Slot → String
  | .Agent id => id
  | .Telemetry => "perch-telemetry"
  | .Alarm => "perch-alarm"

structure Identity where
  slot : Slot
  public_key : String
  deriving DecidableEq

/-- `IdentityTable::get`. -/
def identity_at (identities : List Identity) (idx : IssuerIdx) : Option Identity := identities[idx.toNat]?

def starts_with (s front : String) : Bool := front.toList.isPrefixOf s.toList

def role_from_agent_id (value : String) : Option AgentRole :=
  if starts_with value "whisker-" then some .Whisker
  else if starts_with value "stalker-" then some .Stalker
  else if starts_with value "weaver-" then some .Weaver
  else if starts_with value "pounce-" || starts_with value "pouncer-" then some .Pouncer
  else if starts_with value "tom-" then some .Tom
  else if starts_with value "kitten-" then some .Kitten
  else if starts_with value "sphinx-" then some .Sphinx
  else if starts_with value "calico-" then some .Calico
  else none

def role_of : Slot → Option AgentRole
  | .Agent id => role_from_agent_id id
  | _ => none

/-! ## Facts -/

inductive GapBlockCause where
  | BroadcastLagged | SpoolEvicted | SpoolTornTail | PublishWindowExpired
  deriving DecidableEq

structure GapBlock where
  cause : GapBlockCause
  count : Option Nat
  from_seq : Option Seq
  to_seq : Option Seq
  noticed_at_ms : Int
  deriving DecidableEq

def gap_block (cause : GapCause) (noticed_at_ms : Int) : GapBlock :=
  match cause with
  | .BroadcastLagged count => ⟨.BroadcastLagged, some count, none, none, noticed_at_ms⟩
  | .SpoolEvicted from_seq to_seq => ⟨.SpoolEvicted, none, some from_seq, some to_seq, noticed_at_ms⟩
  | .SpoolTornTail from_seq to_seq => ⟨.SpoolTornTail, none, some from_seq, some to_seq, noticed_at_ms⟩
  | .PublishWindowExpired from_seq to_seq => ⟨.PublishWindowExpired, none, some from_seq, some to_seq, noticed_at_ms⟩

structure FactIssuer where
  swarm_agent_id : String
  role : Option AgentRole
  nostr_pubkey : Option String
  deriving DecidableEq

structure FindingLocator where
  finding_id : String
  event_id : String
  strategy_id : String
  host_id : Option String
  lane_channel : String
  deriving DecidableEq

structure EvidenceTruncated where
  bytes : Nat
  sha256 : String
  deriving DecidableEq

structure FindingCard where
  issuer : FactIssuer
  emitted_at_ms : Int
  locator : FindingLocator
  finding : SwarmFindingEnvelope
  evidence_truncated : Option EvidenceTruncated
  gap : Option GapBlock
  deriving DecidableEq

structure HoldLocator where
  hold_id : String
  case_channel : String
  hunt_id : String
  finding_card_id : Option String
  deriving DecidableEq

/-- `hold` is the wire view of the held action. -/
structure HoldCard where
  issuer : FactIssuer
  emitted_at_ms : Int
  locator : HoldLocator
  hold : Value
  deriving DecidableEq

inductive Card where
  | Finding (card : FindingCard)
  | Hold (card : HoldCard)
  deriving DecidableEq

/-! ## Envelopes -/

def ENVELOPE_SCHEMA_V1 : String := "swarm.spine.envelope.v1"

structure CardEnvelope where
  issuer : String
  seq : Seq
  prev_envelope_hash : Option String
  issued_at : String
  fact : Card
  envelope_hash : String
  signature : Option String
  deriving DecidableEq

/-- A card's three-part body: its text is a marker, the human line and the envelope's JSON. -/
structure CardContent where
  human_line : String
  envelope : CardEnvelope
  deriving DecidableEq

/-- What the bridge calls outside its own code. -/
structure Wire where
  /-- `serde_json::from_slice::<RuntimeEvent>`. -/
  decode : Bytes → Except String RuntimeEvent
  /-- `serde_json::to_value` of a card. -/
  fact_value : Card → Value
  /-- `compute_envelope_hash_hex`. -/
  envelope_hash : Value → Except String String
  /-- The signature of an issuer's key, which it verifies. -/
  signature : String → Value → Except String String
  /-- The length of `serde_json::to_string`. -/
  json_len : CardEnvelope → Nat
  evidence_json : Value → Bytes
  sha256_hex : Bytes → String
  human_line : Card → String
  /-- Why `build_content` refuses a body. -/
  content_refused : CardContent → Option String
  /-- A card's tags with the event it replies to, once `assert_publishable` let them pass. -/
  tags : Card → Option String → Except String (List (List String))
  /-- The id of the signed Nostr event. -/
  sign_event : Identity → Nat → CardContent → List (List String) → Except String String

/-- The slots the signer has a key for, with the issuer each one is. -/
abbrev SpineSigner := Map String String

def SpineSigner.issuer (signer : SpineSigner) (slot : String) : String := (signer slot).getD ""

def unsigned (issuer : String) (seq : Seq) (prev : Option String) (fact : Value) (issued_at : String) : Value :=
  .object [("capability_token", .null), ("fact", fact), ("issued_at", .string issued_at), ("issuer", .string issuer),
    ("prev_envelope_hash", .optional prev), ("schema", .string ENVELOPE_SCHEMA_V1), ("seq", .integer seq)]

/-- `serde_json::to_value` of an envelope. -/
def CardEnvelope.to_value (wire : Wire) (e : CardEnvelope) : Value :=
  .object ([("capability_token", .null), ("envelope_hash", .string e.envelope_hash), ("fact", wire.fact_value e.fact),
    ("issued_at", .string e.issued_at), ("issuer", .string e.issuer),
    ("prev_envelope_hash", .optional e.prev_envelope_hash), ("schema", .string ENVELOPE_SCHEMA_V1),
    ("seq", .integer e.seq)] ++ (e.signature.map (fun s => ("signature", Value.string s))).toList)

/-- An error of the outside, as the bridge reports it. -/
def report {α : Type} (error : String → BridgeError) : Except String α → Except BridgeError α
  | .ok a => .ok a
  | .error reason => .error (error reason)

section
variable (wire : Wire)

/-- `now` is the clock's `now_rfc3339`. -/
def SpineSigner.seal_at (signer : SpineSigner) (slot : String) (seq : Seq) (prev : Option String) (fact : Card)
    (now : String) : Except BridgeError CardEnvelope :=
  match signer slot with
  | none => .error (.UnknownSlot slot)
  | some issuer => do
    let value := unsigned issuer seq prev (wire.fact_value fact) now
    let hash ← report .Envelope (wire.envelope_hash value)
    let signature ← report .Envelope (wire.signature issuer value)
    .ok ⟨issuer, seq, prev, now, fact, hash, some signature⟩

def CardEnvelope.seal_unsigned (issuer : String) (seq : Seq) (prev : Option String) (issued_at : String) (fact : Card) :
    Except BridgeError CardEnvelope := do
  let hash ← report .Encode (wire.envelope_hash (unsigned issuer seq prev (wire.fact_value fact) issued_at))
  .ok ⟨issuer, seq, prev, issued_at, fact, hash, none⟩

/-- `seal`: `issued_at` is of the bridge's clock, `now` of the signer's. -/
def seal_card (spine : Option SpineSigner) (issuer : Identity) (card : Card) (seq : Seq) (prev : Option String)
    (issued_at now : String) : Except BridgeError CardEnvelope :=
  match spine with
  | some signer => signer.seal_at wire issuer.slot.label seq prev card now
  | none => CardEnvelope.seal_unsigned wire ("swarm:ed25519:" ++ issuer.public_key) seq prev issued_at card

/-! ## The finding card -/

structure SeqChain where
  prev_envelope_hash : Option String := none
  deriving DecidableEq

instance : Inhabited SeqChain := ⟨{}⟩

structure CardBody where
  channel : String
  content : CardContent
  tags : List (List String)
  covers : IssuerIdx × Seq
  deriving DecidableEq

def threat_class_slug : ThreatClass → String
  | .LateralMovement => "lateral_movement"
  | .DataExfiltration => "data_exfiltration"
  | .PrivilegeEscalation => "privilege_escalation"
  | .CommandAndControl => "command_and_control"
  | .InitialAccess => "initial_access"
  | .Persistence => "persistence"
  | .SupplyChain => "supply_chain"
  | .DefenseEvasion => "defense_evasion"
  | .CredentialAccess => "credential_access"
  | .Discovery => "discovery"
  | .Execution => "execution"
  | .Impact => "impact"
  | .Custom _ => "custom"

def CARD_CONTENT_MAX_BYTES : Nat := 196608

/-- `build_content`. -/
def build_content (human_line : String) (envelope : CardEnvelope) : Except BridgeError CardContent :=
  match wire.content_refused ⟨human_line, envelope⟩ with
  | some reason => .error (.Encode reason)
  | none => .ok ⟨human_line, envelope⟩

/-- What a tick reads of the clocks: the bridge's own, and the signer's at each seal. -/
structure Clock where
  now_ms : Int
  issued_at : String
  now_rfc3339 : Nat → String

/-- The card of a finding and the chain after it, or nothing for another event. -/
def build_finding_card (lane_channel : ThreatClass → Option String) (spine : Option SpineSigner) (record : Record)
    (event : RuntimeEvent) (issuer : Identity) (chain : SeqChain) (gaps : List GapCause) (clock : Clock) :
    Except BridgeError (Option (CardBody × SeqChain)) :=
  match event with
  | .Finding emitted_at_ms host_id finding =>
    match lane_channel finding.threat_class with
    | none => .error (.MissingLaneChannel (threat_class_slug finding.threat_class))
    | some lane => do
      let card : FindingCard :=
        { issuer := ⟨issuer.slot.label, role_of issuer.slot, some issuer.public_key⟩
          emitted_at_ms
          locator := ⟨finding.finding_id, finding.event_id, finding.strategy_id, host_id, lane⟩
          finding
          evidence_truncated := none
          gap := gaps.head?.map (fun cause => gap_block cause clock.now_ms) }
      let whole ← seal_card wire spine issuer (.Finding card) record.seq chain.prev_envelope_hash clock.issued_at
        (clock.now_rfc3339 0)
      -- Evidence that does not fit is replaced by its size and hash, and the card sealed again.
      let fits := wire.json_len whole + 256 ≤ CARD_CONTENT_MAX_BYTES
      let evidence := wire.evidence_json finding.evidence
      let short : FindingCard :=
        { card with
          evidence_truncated := some ⟨evidence.length, "0x" ++ wire.sha256_hex evidence⟩
          finding := { finding with evidence := .null } }
      let card := if fits then card else short
      let envelope ← (if fits then .ok whole
        else seal_card wire spine issuer (.Finding short) record.seq chain.prev_envelope_hash clock.issued_at
          (clock.now_rfc3339 1))
      let content ← build_content wire (wire.human_line (.Finding card)) envelope
      let tags ← report .Encode (wire.tags (.Finding card) none)
      .ok (some (⟨lane, content, tags, (record.issuer, record.seq)⟩, ⟨some envelope.envelope_hash⟩))
  | _ => .ok none

/-! ## What a card says -/

theorem seal_card_spec {spine : Option SpineSigner} {issuer : Identity} {card : Card} {seq : Seq} {prev : Option String}
    {issued_at now : String} {e : CardEnvelope} (h : seal_card wire spine issuer card seq prev issued_at now = .ok e) :
    e.seq = seq ∧ e.prev_envelope_hash = prev ∧ e.fact = card ∧
      ∀ signer, spine = some signer → signer issuer.slot.label = some e.issuer := by
  cases spine with
  | none =>
    simp only [seal_card, CardEnvelope.seal_unsigned, ok_bind_iff] at h
    obtain ⟨hash, -, he⟩ := h
    obtain rfl := Except.ok.inj he
    exact ⟨rfl, rfl, rfl, fun _ hs => by cases hs⟩
  | some signer =>
    simp only [seal_card, SpineSigner.seal_at] at h
    cases hslot : signer issuer.slot.label with
    | none => rw [hslot] at h; cases h
    | some id =>
      rw [hslot] at h
      simp only [ok_bind_iff] at h
      obtain ⟨hash, -, signature, -, he⟩ := h
      obtain rfl := Except.ok.inj he
      refine ⟨rfl, rfl, rfl, fun s hs => ?_⟩
      obtain rfl := Option.some.inj hs
      exact hslot

theorem build_content_envelope {human_line : String} {envelope : CardEnvelope} {content : CardContent}
    (h : build_content wire human_line envelope = .ok content) : content.envelope = envelope := by
  rw [build_content] at h
  split at h
  · cases h
  · rw [← Except.ok.inj h]

/-- The gap block of a card. -/
def Card.gap : Card → Option GapBlock
  | .Finding card => card.gap
  | .Hold _ => none

theorem build_finding_card_spec {lane_channel : ThreatClass → Option String} {spine : Option SpineSigner} {record : Record}
    {event : RuntimeEvent} {issuer : Identity} {chain chain' : SeqChain} {gaps : List GapCause} {clock : Clock}
    {body : CardBody} (h : build_finding_card wire lane_channel spine record event issuer chain gaps clock =
      .ok (some (body, chain'))) :
    body.covers = (record.issuer, record.seq) ∧ chain'.prev_envelope_hash = some body.content.envelope.envelope_hash ∧
      body.content.envelope.seq = record.seq ∧ body.content.envelope.prev_envelope_hash = chain.prev_envelope_hash ∧
      body.content.envelope.fact.gap = gaps.head?.map (fun cause => gap_block cause clock.now_ms) ∧
      ∀ signer, spine = some signer → signer issuer.slot.label = some body.content.envelope.issuer := by
  cases event with
  | Finding emitted_at_ms host_id finding =>
    rw [build_finding_card] at h
    cases hlane : lane_channel finding.threat_class with
    | none => rw [hlane] at h; cases h
    | some lane =>
      rw [hlane] at h
      simp only [ok_bind_iff] at h
      obtain ⟨whole, hwhole, envelope, henvelope, content, hcontent, tags, -, hbody⟩ := h
      obtain ⟨rfl, rfl⟩ := Prod.mk.inj (Option.some.inj (Except.ok.inj hbody))
      rw [build_content_envelope wire hcontent]
      -- The card that stands is the whole one or the shortened one; both carry the same gap.
      split at henvelope
      · obtain rfl := Except.ok.inj henvelope
        obtain ⟨hseq, hprev, hfact, hissuer⟩ := seal_card_spec wire hwhole
        exact ⟨rfl, rfl, hseq, hprev, by rw [hfact]; rfl, hissuer⟩
      · obtain ⟨hseq, hprev, hfact, hissuer⟩ := seal_card_spec wire henvelope
        exact ⟨rfl, rfl, hseq, hprev, by rw [hfact]; rfl, hissuer⟩
  | _ => cases Except.ok.inj h
end

end Ambush.Bridge

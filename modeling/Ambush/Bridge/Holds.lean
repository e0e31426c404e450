import Ambush.Bridge.Postings
/-!
# An unpublished card chains nothing: the hold side

The hold publisher builds its cards from the hold store and signs them all as one issuer.
Its chain advances when a card is built and never goes back, so that a card is sealed onto
one the relay did not take as soon as two are built without an acknowledgement between.
-/
open Lib

namespace Ambush.Bridge

/-- What a hold card reads of a `HeldAction`; `view` is its projection on the wire. -/
structure HoldRecord where
  hold_id : String
  requested_by : String
  hunt_id : String
  held_at_ms : Int
  case_channel : Option String
  view : Except String Value

inductive PublishStep where
  | CreateChannel (channel : String)
  | AddMember (channel pubkey : String)
  | PublishHoldCard (channel hold_id : String) (reply_to : Option String)
  | PublishHoldNotice (channel hold_id : String) (card_event_id : Option String)
  | PublishAlarm (hold_id : String)

/-- A hold step's content: the card, the notice's line with the card it names, or the alarm frame. -/
inductive HoldContent where
  | Card (content : CardContent)
  | Notice (line : String) (card_event_id : Option String)
  | Alarm (hold_id case_channel : String) (seq : Nat) (emitted_at_ms : Int)
  deriving DecidableEq

structure HoldFrameBody where
  kind : Nat
  content : HoldContent
  channel : Option String
  deriving DecidableEq

/-- What the publisher is built with; `refused` is why a notice or an alarm is not published. -/
structure HoldSetup where
  wire : Wire
  spine : Option SpineSigner
  issuer : Identity
  issuer_idx : IssuerIdx
  refused : HoldContent → Option String

/-- What a build reads around it: the hold store and the routing sidecar. -/
structure Surroundings where
  record : String → Except String (Option HoldRecord)
  open_card_for_hold : String → Option String
  case_for_hunt : String → Option String
  parse_uuid : String → Option String

structure HoldPublisher where
  chain : SeqChain := {}
  alarm_seq : Nat := 0

/-! ## Building -/

section
variable (b : HoldSetup)

def hold_card_fact (hold : HoldRecord) (case_channel : String) (finding_card_id : Option String) :
    Except BridgeError HoldCard := do
  let view ← report .Encode hold.view
  .ok { issuer := ⟨hold.requested_by, role_from_agent_id hold.requested_by, none⟩
        emitted_at_ms := hold.held_at_ms
        locator := ⟨hold.hold_id, case_channel, hold.hunt_id, finding_card_id⟩
        hold := view }

def hold_card (hold : HoldRecord) (case_channel : String) (reply_to : Option String) (seq : Seq) (chain : SeqChain)
    (clock : Clock) : Except BridgeError (CardBody × SeqChain) := do
  let card ← hold_card_fact hold case_channel none
  let envelope ← seal_card b.wire b.spine b.issuer (.Hold card) seq chain.prev_envelope_hash clock.issued_at
    (clock.now_rfc3339 0)
  let content ← build_content b.wire (b.wire.human_line (.Hold card)) envelope
  let tags ← report .Encode (b.wire.tags (.Hold card) reply_to)
  .ok (⟨case_channel, content, tags, (b.issuer_idx, seq)⟩, ⟨some envelope.envelope_hash⟩)

def require_record (near : Surroundings) (hold_id : String) : Except BridgeError HoldRecord := do
  match ← report .InvalidConfig (near.record hold_id) with
  | some hold => .ok hold
  | none => .error (.InvalidConfig ("hold " ++ hold_id ++ " is no longer in the store"))

def KIND_CARD : Nat := 9

def KIND_HOLD_NOTICE : Nat := 46010

def KIND_HOLD_ALARM : Nat := 26006

/-- A notice or an alarm, unless its tags are refused. -/
def publishable (kind : Nat) (content : HoldContent) (channel : Option String) : Except BridgeError (Option HoldFrameBody) :=
  match b.refused content with
  | some reason => .error (.Encode reason)
  | none => .ok (some ⟨kind, content, channel⟩)

/-- `card_body` and the body of a card step: the chain advances with the card. -/
def HoldPublisher.build_card (p : HoldPublisher) (near : Surroundings) (channel hold_id : String) (reply_to : Option String)
    (seq : Seq) (clock : Clock) : HoldPublisher × Except BridgeError (Option HoldFrameBody) :=
  match (do hold_card b (← require_record near hold_id) channel reply_to seq p.chain clock) with
  | .error e => (p, .error e)
  | .ok (body, chain) => ({ p with chain }, .ok (some ⟨KIND_CARD, .Card body.content, some channel⟩))

def HoldPublisher.build_notice (near : Surroundings) (channel hold_id : String) (card_event_id : Option String) :
    Except BridgeError (Option HoldFrameBody) := do
  let hold ← require_record near hold_id
  let card ← hold_card_fact hold channel none
  publishable b KIND_HOLD_NOTICE
    (.Notice (b.wire.human_line (.Hold card)) ((near.open_card_for_hold hold_id).or card_event_id)) (some channel)

def HoldPublisher.build_alarm (p : HoldPublisher) (near : Surroundings) (hold_id : String) (clock : Clock) :
    HoldPublisher × Except BridgeError (Option HoldFrameBody) :=
  match require_record near hold_id with
  | .error e => (p, .error e)
  | .ok hold =>
    match (hold.case_channel.bind near.parse_uuid).or (near.case_for_hunt hold.hunt_id) with
    | none => (p, .error (.InvalidConfig ("hold " ++ hold_id ++ " has no case channel; the alarm would name none")))
    | some case =>
      let alarm_seq := min (p.alarm_seq + 1) 18446744073709551615
      ({ p with alarm_seq }, publishable b KIND_HOLD_ALARM (.Alarm hold_id case alarm_seq clock.now_ms) none)

def HoldPublisher.build (p : HoldPublisher) (near : Surroundings) (step : PublishStep) (seq : Seq) (clock : Clock) :
    HoldPublisher × Except BridgeError (Option HoldFrameBody) :=
  match step with
  | .PublishHoldCard channel hold_id reply_to => p.build_card b near channel hold_id reply_to seq clock
  | .PublishHoldNotice channel hold_id card_event_id =>
    (p, HoldPublisher.build_notice b near channel hold_id card_event_id)
  | .PublishAlarm hold_id => p.build_alarm b near hold_id clock
  | .CreateChannel _ | .AddMember _ _ => (p, .ok none)

def HoldFrameBody.envelope (body : HoldFrameBody) : Option CardEnvelope :=
  match body.content with
  | .Card content => some content.envelope
  | _ => none

/-- The card that a build made. -/
def built_card : Except BridgeError (Option HoldFrameBody) → Option CardEnvelope
  | .ok (some body) => body.envelope
  | _ => none
end

/-! ## The drained sequence -/

/-- The publisher, the body whose answer is awaited, and the cards so far. -/
structure HoldDrain where
  publisher : HoldPublisher := {}
  sent : Option HoldFrameBody := none
  postings : List Posting := []

/-- A step is built and sent; the relay answers, or nothing comes and the next step is built. -/
inductive HoldMove where
  | Build (near : Surroundings) (step : PublishStep) (seq : Seq) (clock : Clock)
  | Answer (answer : Except BridgeError OkOutcome)

def HoldDrain.move (b : HoldSetup) (d : HoldDrain) : HoldMove → HoldDrain
  | .Build near step seq clock =>
    let made := d.publisher.build b near step seq clock
    { publisher := made.1
      sent := made.2.toOption.join
      postings := d.postings ++ ((built_card made.2).map (.Sealed b.issuer_idx)).toList }
  | .Answer answer =>
    { d with
      sent := none
      postings := d.postings ++
        (if accepted answer then (d.sent.bind (·.envelope)).map (.Acknowledged b.issuer_idx) else none).toList }

/-- The last card that was built is one the relay acknowledged. -/
def HoldDrain.acknowledged (d : HoldDrain) : Prop := ∀ issuer envelope, d.postings.getLast? ≠ some (.Sealed issuer envelope)

/-- No card is built while the last one is not acknowledged. -/
def HoldSafe (d : HoldDrain) (m : HoldMove) : Prop :=
  match m with
  | .Build _ (.PublishHoldCard _ _ _) _ _ => d.acknowledged
  | _ => True

def HoldMoves (b : HoldSetup) (d : HoldDrain) (m : HoldMove) (d' : HoldDrain) : Prop := d.move b m = d'

def HoldSafely (b : HoldSetup) (d : HoldDrain) (m : HoldMove) (d' : HoldDrain) : Prop := HoldMoves b d m d' ∧ HoldSafe d m

structure HoldInv (b : HoldSetup) (d : HoldDrain) : Prop where
  linked : Linked d.postings
  settled : d.acknowledged → d.publisher.chain.prev_envelope_hash = last_hash d.postings b.issuer_idx
  unsettled : ∀ issuer envelope, d.postings.getLast? = some (.Sealed issuer envelope) →
    d.publisher.chain.prev_envelope_hash = some envelope.envelope_hash
  sent : ∀ envelope, d.sent.bind (·.envelope) = some envelope → d.postings.getLast? = some (.Sealed b.issuer_idx envelope)

/-- A card is sealed onto the chain and becomes its end; another step leaves the chain alone. -/
theorem build_spec (b : HoldSetup) (p : HoldPublisher) (near : Surroundings) (step : PublishStep) (seq : Seq) (clock : Clock) :
    (built_card (p.build b near step seq clock).2 = none ∧ (p.build b near step seq clock).1.chain = p.chain) ∨
      ∃ channel hold_id reply_to envelope, step = .PublishHoldCard channel hold_id reply_to ∧
        built_card (p.build b near step seq clock).2 = some envelope ∧
        envelope.prev_envelope_hash = p.chain.prev_envelope_hash ∧
        (p.build b near step seq clock).1.chain.prev_envelope_hash = some envelope.envelope_hash := by
  have hother : ∀ kind content channel, (∀ c, content ≠ HoldContent.Card c) →
      built_card (publishable b kind content channel) = none := by
    intro kind content channel hne
    rw [publishable]
    cases b.refused content with
    | some reason => rfl
    | none =>
      cases content with
      | Card c => exact absurd rfl (hne c)
      | Notice line id => rfl
      | Alarm hold_id case seq at_ms => rfl
  cases step with
  | CreateChannel channel => exact .inl ⟨rfl, rfl⟩
  | AddMember channel pubkey => exact .inl ⟨rfl, rfl⟩
  | PublishHoldNotice channel hold_id card_event_id =>
    refine .inl ⟨?_, rfl⟩
    simp only [HoldPublisher.build, HoldPublisher.build_notice, bind, Except.bind]
    split
    · rfl
    · split
      · rfl
      · exact hother _ _ _ (fun c he => by cases he)
  | PublishAlarm hold_id =>
    refine .inl ?_
    simp only [HoldPublisher.build, HoldPublisher.build_alarm]
    split
    · exact ⟨rfl, rfl⟩
    · split
      · exact ⟨rfl, rfl⟩
      · exact ⟨hother _ _ _ (fun c he => by cases he), rfl⟩
  | PublishHoldCard channel hold_id reply_to =>
    simp only [HoldPublisher.build, HoldPublisher.build_card]
    split
    · exact .inl ⟨rfl, rfl⟩
    · next body chain hcard =>
      rw [ok_bind_iff] at hcard
      obtain ⟨hold, -, hcard⟩ := hcard
      simp only [hold_card, ok_bind_iff] at hcard
      obtain ⟨card, -, envelope, hseal, content, hcontent, tags, -, hbody⟩ := hcard
      obtain ⟨rfl, rfl⟩ := Prod.mk.inj (Except.ok.inj hbody)
      obtain ⟨-, hprev, -, -⟩ := seal_card_spec b.wire hseal
      refine .inr ⟨channel, hold_id, reply_to, envelope, rfl, ?_, hprev, rfl⟩
      rw [← build_content_envelope b.wire hcontent]
      rfl

theorem envelope_of_built {r : Except BridgeError (Option HoldFrameBody)} :
    r.toOption.join.bind (·.envelope) = built_card r := by
  rcases r with e | _ | body <;> rfl

theorem HoldInv.build {b : HoldSetup} {d : HoldDrain} (h : HoldInv b d) {near : Surroundings} {step : PublishStep} {seq : Seq}
    {clock : Clock} (hsafe : HoldSafe d (.Build near step seq clock)) : HoldInv b (d.move b (.Build near step seq clock)) := by
  rcases build_spec b d.publisher near step seq clock with ⟨hnone, hchain⟩ | ⟨channel, hold_id, reply_to, envelope, rfl, hcard, hprev, hchain⟩
  · have hsame : (d.move b (.Build near step seq clock)).postings = d.postings := by simp [HoldDrain.move, hnone]
    refine ⟨by rw [hsame]; exact h.linked, ?_, ?_, ?_⟩
    · rw [HoldDrain.acknowledged, hsame]
      intro hack
      show (d.publisher.build b near step seq clock).1.chain.prev_envelope_hash = _
      rw [hchain]
      exact h.settled hack
    · rw [hsame]
      intro issuer envelope hlast
      show (d.publisher.build b near step seq clock).1.chain.prev_envelope_hash = _
      rw [hchain]
      exact h.unsettled issuer envelope hlast
    · intro envelope hsent
      cases (envelope_of_built.symm.trans hsent).symm.trans hnone
  · have hposted : (d.move b (.Build near (.PublishHoldCard channel hold_id reply_to) seq clock)).postings =
        d.postings ++ [.Sealed b.issuer_idx envelope] := by
      simp [HoldDrain.move, hcard]
    refine ⟨?_, ?_, ?_, ?_⟩
    · rw [hposted]
      refine h.linked.append _ (fun issuer e he => ?_)
      obtain ⟨rfl, rfl⟩ := Posting.Sealed.inj he
      rw [hprev, h.settled hsafe]
    · rw [HoldDrain.acknowledged, hposted]
      exact fun hack => absurd List.getLast?_concat (hack b.issuer_idx envelope)
    · rw [hposted, List.getLast?_concat]
      intro issuer e he
      obtain ⟨-, rfl⟩ := Posting.Sealed.inj (Option.some.inj he)
      exact hchain
    · intro e hsent
      rw [hposted, List.getLast?_concat]
      have he : some e = some envelope := (hsent.symm.trans envelope_of_built).trans hcard
      rw [Option.some.inj he]

theorem HoldInv.answer {b : HoldSetup} {d : HoldDrain} (h : HoldInv b d) (answer : Except BridgeError OkOutcome) :
    HoldInv b (d.move b (.Answer answer)) := by
  cases hack : (if accepted answer then d.sent.bind (·.envelope) else none) with
  | none =>
    have hsame : (d.move b (.Answer answer)).postings = d.postings := by
      simp only [HoldDrain.move]
      split at hack
      · next hacc => simp [hacc, hack]
      · next hacc => simp [hacc]
    refine ⟨by rw [hsame]; exact h.linked, ?_, by rw [hsame]; exact h.unsettled, fun e he => by cases he⟩
    rw [HoldDrain.acknowledged, hsame]
    exact h.settled
  | some envelope =>
    -- The card that is acknowledged is the last one that was sealed.
    have hsent : d.sent.bind (·.envelope) = some envelope := by
      split at hack
      · exact hack
      · cases hack
    have hposted : (d.move b (.Answer answer)).postings = d.postings ++ [.Acknowledged b.issuer_idx envelope] := by
      simp only [HoldDrain.move]
      split at hack
      · next hacc => simp [hacc, hack]
      · cases hack
    refine ⟨?_, ?_, ?_, fun e he => by cases he⟩
    · rw [hposted]
      exact h.linked.append _ (fun _ _ he => by cases he)
    · intro _
      rw [hposted, last_hash, last_taken_acknowledged, if_pos rfl]
      exact h.unsettled _ _ (h.sent envelope hsent)
    · rw [hposted, List.getLast?_concat]
      exact fun issuer e he => by cases Option.some.inj he

theorem holdInv_run {b : HoldSetup} {moves : List HoldMove} {d : HoldDrain} (h : Run (HoldSafely b) {} moves d) :
    HoldInv b d := by
  refine h.inv (fun d m d' _ hi hm => ?_) ⟨linked_nil, fun _ => rfl, fun _ _ he => ?_, fun _ he => ?_⟩
  · obtain ⟨hmove, hsafe⟩ := hm
    subst hmove
    cases m with
    | Build near step seq clock => exact hi.build hsafe
    | Answer answer => exact hi.answer answer
  · cases he
  · cases he

/-! ## Both sides -/

namespace Small

/-- The same wire for one hold. -/
def holds : HoldSetup where
  wire := wire
  spine := some (Map.empty.insert "perch-alarm" "swarm:perch-alarm")
  issuer := ⟨.Alarm, "key"⟩
  issuer_idx := 2
  refused _ := none

def near : Surroundings where
  record _ := .ok (some ⟨"hold", "tom-1", "hunt", 0, some "case", .ok .null⟩)
  open_card_for_hold _ := none
  case_for_hunt _ := none
  parse_uuid s := some s

def build_card (seq : Seq) : HoldMove := .Build near (.PublishHoldCard "case" "hold" none) seq ⟨0, "", fun _ => ""⟩

end Small

end Ambush.Bridge

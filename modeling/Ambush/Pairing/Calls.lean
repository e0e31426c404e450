import Ambush.Pairing.Session
import Mathlib.Tactic.SplitIfs
/-!
# The calls on a session

Every method of a session as one function of the call. `Effect` says what a call that
succeeds has done: the theorems about runs are case analyses over it and do not look at the
methods again. A call that fails leaves the session alone, but for the two refusals that
abort it.
-/
open Lib

namespace Ambush.Pairing

open PairingSession

inductive Op where
  | handle_offer (event : Event)
  | confirm_sas
  | handle_return_payload (event : Event)
  | send_source_complete (success : Bool)
  | send_payload (payload_type : PayloadType) (payload : String)
  | handle_complete (event : Event)
  | handle_sas_confirm (event : Event)
  | confirm_target_sas
  | handle_payload (event : Event)
  | send_complete
  | abort (reason : AbortReason)
  | handle_abort (event : Event)
  | sign_event (builder : EventBuilder)

/-- The event a call is given. -/
def Op.event : Op → Option Event
  | .handle_offer e | .handle_return_payload e | .handle_complete e | .handle_sas_confirm e | .handle_payload e
  | .handle_abort e => some e
  | _ => none

inductive Reply where
  | sas (code : String)
  | event (event : Event)
  | payload (payload_type : PayloadType) (payload : String)
  | done
  | aborted (event : Option Event)
  | reason (reason : AbortReason)
  | signed (event : Event)

/-- The event with a message of the session's own. -/
def Reply.published : Reply → Option Event
  | .event e => some e
  | .aborted e => e
  | _ => none

def answer {α : Type} (f : α → Reply) (out : PairingSession × Except PairingError α) :
    PairingSession × Except PairingError Reply :=
  (out.1, out.2.map f)

def call (c : Nostr) (m : Moment) (s : PairingSession) : Op → PairingSession × Except PairingError Reply
  | .handle_offer e => answer .sas (s.handle_offer c m e)
  | .confirm_sas => answer .event (s.confirm_sas c m)
  | .handle_return_payload e => answer (fun p => .payload p.1 p.2) (s.handle_return_payload c m e)
  | .send_source_complete success => answer .event (s.send_source_complete c m success)
  | .send_payload payload_type payload => answer .event (s.send_payload c m payload_type payload)
  | .handle_complete e => answer (fun _ => .done) (s.handle_complete c m e)
  | .handle_sas_confirm e => answer .sas (s.handle_sas_confirm c m e)
  | .confirm_target_sas => answer (fun _ => .done) (s.confirm_target_sas m)
  | .handle_payload e => answer (fun p => .payload p.1 p.2) (s.handle_payload c m e)
  | .send_complete => answer .event (s.send_complete c m)
  | .abort reason => answer .aborted (s.abort c m reason)
  | .handle_abort e => answer .reason (s.handle_abort c e)
  | .sign_event builder => answer .signed (s, s.sign_event c m builder)

/-! ## Checks that pass -/

section Checks
variable {c : Nostr} {m : Moment} {s : PairingSession} {e : Event}

theorem expect_state_ok {expected : SessionState} : s.expect_state expected = .ok () ↔ s.state = expected := by
  unfold expect_state
  split_ifs with h
  · exact ⟨fun h' => (nomatch h'), fun h' => absurd h' h⟩
  · exact ⟨fun _ => not_not.1 h, fun _ => rfl⟩

theorem expect_role_ok {expected : Role} : s.expect_role expected = .ok () ↔ s.role = expected := by
  unfold expect_role
  split_ifs with h
  · exact ⟨fun h' => (nomatch h'), fun h' => absurd h' h⟩
  · exact ⟨fun _ => not_not.1 h, fun _ => rfl⟩

/-- The event verifies, comes from the peer and holds the message. -/
structure Heard (c : Nostr) (s : PairingSession) (e : Event) (message : PairingMessage) : Prop where
  verified : c.verify e = .ok ()
  peer : ∀ p, s.peer_pubkey = some p → e.pubkey = p
  message : s.decrypt_message c e = .ok message

theorem validate_event_basics_verified (h : s.validate_event_basics c e = .ok ()) : c.verify e = .ok () := by
  unfold validate_event_basics at h
  cases hv : c.verify e with
  | error x => rw [hv] at h; cases h
  | ok u => rfl

theorem heard_of_checks {message : PairingMessage} (h : s.validate_event_from_peer c e = .ok ())
    (hm : s.decrypt_message c e = .ok message) : Heard c s e message := by
  unfold validate_event_from_peer at h
  obtain ⟨_, hbasics, hpeer⟩ := (ok_bind_iff _ _ _).1 h
  refine ⟨validate_event_basics_verified hbasics, fun p hp => ?_, hm⟩
  rw [hp] at hpeer
  dsimp only at hpeer
  split_ifs at hpeer with hne
  exact not_not.1 hne

/-- A message that opens was opened under the key shared with the event's author. -/
theorem decrypt_message_ok {message : PairingMessage} (h : s.decrypt_message c e = .ok message) :
    ∃ k text, c.generate_shared_key s.keys e.pubkey = .ok k ∧ c.decrypt_v2 k e.content = .ok text ∧
      c.from_str text = .ok message := by
  unfold decrypt_message at h
  dsimp only at h
  split_ifs at h with hlen
  cases hd : decrypt c s.keys e.pubkey e.content with
  | error x => rw [hd] at h; cases h
  | ok text =>
    rw [hd] at h
    dsimp only at h
    split_ifs at h with hsize
    cases hj : c.from_str text with
    | error x => rw [hj] at h; cases h
    | ok message' =>
      rw [hj] at h
      cases h
      obtain ⟨k, hk, hopen⟩ := (ok_bind_iff _ _ _).1 hd
      exact ⟨k, text, hk, hopen, hj⟩

/-- The content of an event that was built is the message under the key shared with the peer. -/
def Enclosed (c : Nostr) (keys : SecretKey) (peer : PublicKey) (message : PairingMessage) (e : Event) : Prop :=
  ∃ nonce text, c.to_string message = .ok text ∧ encrypt c keys peer nonce text = .ok e.content

/-- What is relied on: an event that is signed has the content given, what was encrypted
decrypts to itself, and a message that was written is read back. -/
structure Nostr.Lawful (c : Nostr) : Prop where
  signed_content : ∀ keys m b e, c.sign_with_keys keys m b = .ok e → e.content = b.content
  decrypt_encrypt : ∀ k nonce text content, c.encrypt_v2 k nonce text = .ok content → c.decrypt_v2 k content = .ok text
  read_written : ∀ message text, c.to_string message = .ok text → c.from_str text = .ok message

theorem build_event_ok (hlaw : c.Lawful) {message : PairingMessage} (h : s.build_event c m message = .ok e) :
    ∃ peer, s.peer_pubkey = some peer ∧ Enclosed c s.keys peer message e := by
  unfold build_event at h
  cases hp : s.peer_pubkey with
  | none => rw [hp] at h; cases h
  | some peer =>
    rw [hp] at h
    dsimp only at h
    cases ht : c.to_string message with
    | error x => rw [ht] at h; cases h
    | ok text =>
      rw [ht] at h
      dsimp only at h
      cases he : encrypt c s.keys peer m.nonce text with
      | error x => rw [he] at h; cases h
      | ok encrypted =>
        rw [he] at h
        dsimp only at h
        split at h
        · cases h
        · next hsign =>
          cases h
          have hcontent := hlaw.signed_content _ _ _ _ hsign
          exact ⟨peer, rfl, m.nonce, text, ht, he.trans (congrArg _ hcontent.symm)⟩

end Checks

/-! ## Calls that succeed -/

/-- The messages the methods publish: in which state, by whom, and the state after. -/
inductive Sends (c : Nostr) (s : PairingSession) : Op → SessionState → Role → PairingMessage → SessionState → Prop
  | confirm_sas {message : PairingMessage} : s.sas_confirmation c = .ok message →
      Sends c s .confirm_sas .Confirming .Source message .Transferring
  | send_payload {payload_type : PayloadType} {payload : String} :
      Sends c s (.send_payload payload_type payload) .Transferring .Source (.Payload payload_type payload) .PayloadExchanged
  | send_source_complete {success : Bool} :
      Sends c s (.send_source_complete success) .PayloadExchanged .Source (.Complete success)
        (if success then .Completed else .Aborted)
  | send_complete : Sends c s .send_complete .PayloadExchanged .Target (.Complete true) .Completed

inductive Effect (c : Nostr) (m : Moment) (s : PairingSession) : Op → Reply → PairingSession → Prop
  | offered {e : Event} {ecdh : Bytes32} : s.state = .Waiting → s.role = .Source →
      c.generate_shared_key s.keys e.pubkey = .ok ecdh →
      Effect c m s (.handle_offer e) (.sas (format_sas (derive_sas c ecdh s.session_secret).1))
        ({ s with
            peer_pubkey := some e.pubkey
            sas_code := some (derive_sas c ecdh s.session_secret).1
            sas_input := some (derive_sas c ecdh s.session_secret).2
            state := .Confirming }.record_event e)
  | sent {op : Op} {expected next : SessionState} {role : Role} {message : PairingMessage} {e : Event} :
      Sends c s op expected role message next → s.state = expected → s.role = role → s.build_event c m message = .ok e →
      Effect c m s op (.event e) { s with state := next }
  | returned {e : Event} {payload_type : PayloadType} {payload : String} : s.state = .Transferring → s.role = .Source →
      Heard c s e (.Payload payload_type payload) →
      Effect c m s (.handle_return_payload e) (.payload payload_type payload)
        ({ s with state := .PayloadExchanged }.record_event e)
  | delivered {e : Event} {payload_type : PayloadType} {payload : String} : s.state = .Transferring → s.role = .Target →
      Heard c s e (.Payload payload_type payload) →
      Effect c m s (.handle_payload e) (.payload payload_type payload)
        ({ s with state := .PayloadExchanged }.record_event e)
  | completed {e : Event} : s.state = .PayloadExchanged → s.role = .Source → Heard c s e (.Complete true) →
      Effect c m s (.handle_complete e) .done ({ s with state := .Completed }.record_event e)
  | matched {e : Event} {code : Nat} : s.state = .Confirming → s.role = .Target → s.sas_code = some code →
      s.check_sas_confirm c m e = .ok true →
      Effect c m s (.handle_sas_confirm e) (.sas (format_sas code)) ({ s with state := .AwaitingConfirmation }.record_event e)
  | approved : s.state = .AwaitingConfirmation → s.role = .Target →
      Effect c m s .confirm_target_sas .done { s with state := .Transferring }
  | abandoned {reason : AbortReason} : s.state.terminal = false → s.peer_pubkey = none →
      Effect c m s (.abort reason) (.aborted none) { s with state := .Aborted }
  | aborts {reason : AbortReason} {e : Event} : s.state.terminal = false → s.build_event c m (.Abort reason) = .ok e →
      Effect c m s (.abort reason) (.aborted (some e)) { s with state := .Aborted }
  | aborted {e : Event} {reason : AbortReason} : s.state.terminal = false → Heard c s e (.Abort reason) →
      Effect c m s (.handle_abort e) (.reason reason) ({ s with state := .Aborted }.record_event e)
  | signed {builder : EventBuilder} {e : Event} : Effect c m s (.sign_event builder) (.signed e) s

/-- The refusals that abort a session: a hash that does not match, and a failure at the peer. -/
def Disowned (c : Nostr) (m : Moment) (s : PairingSession) : Op → Prop
  | .handle_sas_confirm e => s.check_sas_confirm c m e = .ok false
  | .handle_complete e => s.check_complete c m e = .ok false
  | _ => False

/-- A call that fails leaves the session alone, unless it is one of these. -/
def Refused (c : Nostr) (m : Moment) (s : PairingSession) (op : Op) (s' : PairingSession) : Prop :=
  (Disowned c m s op ∧ s' = { s with state := .Aborted }) ∨ (¬ Disowned c m s op ∧ s' = s)

section Calls
variable {c : Nostr} {m : Moment} {s s' : PairingSession} {op : Op}

/-- What a call came to. -/
def Outcome (c : Nostr) (m : Moment) (s : PairingSession) (op : Op) : PairingSession × Except PairingError Reply → Prop
  | (s', .ok r) => Effect c m s op r s'
  | (s', .error _) => Refused c m s op s'

theorem outcome_error {x : PairingError} (h : ¬ Disowned c m s op) : Outcome c m s op (s, .error x) := .inr ⟨h, rfl⟩

theorem send_message_outcome {expected next : SessionState} {role : Role} {message : Except PairingError PairingMessage}
    (hsends : ∀ msg, message = .ok msg → Sends c s op expected role msg next) (hown : ¬ Disowned c m s op) :
    Outcome c m s op (answer .event (s.send_message c m expected role message next)) := by
  unfold send_message
  dsimp only
  split
  · exact outcome_error hown
  · next e hok =>
    obtain ⟨_, -, h⟩ := (ok_bind_iff _ _ _).1 hok
    obtain ⟨_, hstate, h⟩ := (ok_bind_iff _ _ _).1 h
    obtain ⟨_, hrole, h⟩ := (ok_bind_iff _ _ _).1 h
    obtain ⟨msg, hmsg, hbuild⟩ := (ok_bind_iff _ _ _).1 h
    exact .sent (hsends msg hmsg) (expect_state_ok.1 hstate) (expect_role_ok.1 hrole) hbuild

theorem check_offer_ok {e : Event} (h : s.check_offer c m e = .ok ()) :
    s.state = .Waiting ∧ s.role = .Source ∧ ∃ message, s.decrypt_message c e = .ok message := by
  unfold check_offer at h
  obtain ⟨_, -, h⟩ := (ok_bind_iff _ _ _).1 h
  obtain ⟨_, hstate, h⟩ := (ok_bind_iff _ _ _).1 h
  obtain ⟨_, hrole, h⟩ := (ok_bind_iff _ _ _).1 h
  obtain ⟨_, -, h⟩ := (ok_bind_iff _ _ _).1 h
  obtain ⟨message, hmsg, -⟩ := (ok_bind_iff _ _ _).1 h
  exact ⟨expect_state_ok.1 hstate, expect_role_ok.1 hrole, message, hmsg⟩

/-- The shared key exists: the offer was decrypted under it. -/
theorem handle_offer_outcome (e : Event) : Outcome c m s (.handle_offer e) (answer .sas (s.handle_offer c m e)) := by
  unfold handle_offer
  cases h : s.check_offer c m e with
  | error x => exact outcome_error id
  | ok u =>
    obtain ⟨hstate, hrole, message, hmsg⟩ := check_offer_ok h
    obtain ⟨k, -, hk, -, -⟩ := decrypt_message_ok hmsg
    dsimp only
    rw [hk]
    exact .offered hstate hrole hk

theorem check_payload_ok {role : Role} {e : Event} {payload : PayloadType × String}
    (h : s.check_payload c m role e = .ok payload) :
    s.state = .Transferring ∧ s.role = role ∧ Heard c s e (.Payload payload.1 payload.2) := by
  unfold check_payload at h
  obtain ⟨_, -, h⟩ := (ok_bind_iff _ _ _).1 h
  obtain ⟨_, hstate, h⟩ := (ok_bind_iff _ _ _).1 h
  obtain ⟨_, hrole, h⟩ := (ok_bind_iff _ _ _).1 h
  obtain ⟨_, hpeer, h⟩ := (ok_bind_iff _ _ _).1 h
  obtain ⟨message, hmsg, h⟩ := (ok_bind_iff _ _ _).1 h
  cases message with
  | Payload payload_type text =>
    cases h
    exact ⟨expect_state_ok.1 hstate, expect_role_ok.1 hrole, heard_of_checks hpeer hmsg⟩
  | _ => cases h

theorem check_complete_ok {e : Event} {success : Bool} (h : s.check_complete c m e = .ok success) :
    s.state = .PayloadExchanged ∧ s.role = .Source ∧ Heard c s e (.Complete success) := by
  unfold check_complete at h
  obtain ⟨_, -, h⟩ := (ok_bind_iff _ _ _).1 h
  obtain ⟨_, hstate, h⟩ := (ok_bind_iff _ _ _).1 h
  obtain ⟨_, hrole, h⟩ := (ok_bind_iff _ _ _).1 h
  obtain ⟨_, hpeer, h⟩ := (ok_bind_iff _ _ _).1 h
  obtain ⟨message, hmsg, h⟩ := (ok_bind_iff _ _ _).1 h
  cases message with
  | Complete b =>
    cases h
    exact ⟨expect_state_ok.1 hstate, expect_role_ok.1 hrole, heard_of_checks hpeer hmsg⟩
  | _ => cases h

theorem check_sas_confirm_ok {e : Event} {matching : Bool} (h : s.check_sas_confirm c m e = .ok matching) :
    s.state = .Confirming ∧ s.role = .Target := by
  unfold check_sas_confirm at h
  obtain ⟨_, -, h⟩ := (ok_bind_iff _ _ _).1 h
  obtain ⟨_, hstate, h⟩ := (ok_bind_iff _ _ _).1 h
  obtain ⟨_, hrole, -⟩ := (ok_bind_iff _ _ _).1 h
  exact ⟨expect_state_ok.1 hstate, expect_role_ok.1 hrole⟩

theorem check_live_ok (h : s.check_live = .ok ()) : s.state.terminal = false := by
  unfold check_live at h
  split_ifs at h with hterm
  exact Bool.not_eq_true _ ▸ hterm

theorem check_abort_ok {e : Event} {reason : AbortReason} (h : s.check_abort c e = .ok reason) :
    s.state.terminal = false ∧ Heard c s e (.Abort reason) := by
  unfold check_abort at h
  obtain ⟨_, hlive, h⟩ := (ok_bind_iff _ _ _).1 h
  obtain ⟨_, -, h⟩ := (ok_bind_iff _ _ _).1 h
  obtain ⟨_, hpeer, h⟩ := (ok_bind_iff _ _ _).1 h
  obtain ⟨message, hmsg, h⟩ := (ok_bind_iff _ _ _).1 h
  cases message with
  | Abort reason' =>
    cases h
    exact ⟨check_live_ok hlive, heard_of_checks hpeer hmsg⟩
  | _ => cases h

theorem handle_complete_outcome (e : Event) :
    Outcome c m s (.handle_complete e) (answer (fun _ => .done) (s.handle_complete c m e)) := by
  unfold handle_complete
  cases h : s.check_complete c m e with
  | error x => exact outcome_error fun hd => by rw [Disowned, h] at hd; cases hd
  | ok success =>
    obtain ⟨hstate, hrole, hheard⟩ := check_complete_ok h
    cases success with
    | true => exact .completed hstate hrole hheard
    | false => exact .inl ⟨h, rfl⟩

/-- The target has a code from its creation on. -/
theorem handle_sas_confirm_outcome (hcode : s.role = .Target → s.sas_code.isSome = true) (e : Event) :
    Outcome c m s (.handle_sas_confirm e) (answer .sas (s.handle_sas_confirm c m e)) := by
  unfold handle_sas_confirm
  cases h : s.check_sas_confirm c m e with
  | error x => exact outcome_error fun hd => by rw [Disowned, h] at hd; cases hd
  | ok matching =>
    obtain ⟨hstate, hrole⟩ := check_sas_confirm_ok h
    cases matching with
    | false => exact .inl ⟨h, rfl⟩
    | true =>
      obtain ⟨code, hc⟩ := Option.isSome_iff_exists.1 (hcode hrole)
      have hsame : ({ s with state := .AwaitingConfirmation }.record_event e).sas_code = some code := hc
      dsimp only
      rw [hsame]
      exact .matched hstate hrole hc h

theorem confirm_target_sas_outcome :
    Outcome c m s .confirm_target_sas (answer (fun _ => .done) (s.confirm_target_sas m)) := by
  unfold confirm_target_sas
  dsimp only
  split
  · exact outcome_error id
  · next hok =>
    obtain ⟨_, -, h⟩ := (ok_bind_iff _ _ _).1 hok
    obtain ⟨_, hstate, hrole⟩ := (ok_bind_iff _ _ _).1 h
    exact .approved (expect_state_ok.1 hstate) (expect_role_ok.1 hrole)

theorem abort_outcome (reason : AbortReason) : Outcome c m s (.abort reason) (answer .aborted (s.abort c m reason)) := by
  unfold PairingSession.abort
  cases hlive : s.check_live with
  | error x => exact outcome_error id
  | ok u =>
    dsimp only
    split_ifs with hpeer
    · exact .abandoned (check_live_ok hlive) (Option.isNone_iff_eq_none.1 hpeer)
    · cases hbuild : s.build_event c m (.Abort reason) with
      | error x => exact outcome_error id
      | ok e => exact .aborts (check_live_ok hlive) hbuild

theorem receive_payload_outcome {role : Role} {e : Event} (hown : ¬ Disowned c m s op)
    (heffect : ∀ payload_type payload, s.state = .Transferring → s.role = role → Heard c s e (.Payload payload_type payload) →
      Effect c m s op (.payload payload_type payload) ({ s with state := .PayloadExchanged }.record_event e)) :
    Outcome c m s op (answer (fun p => .payload p.1 p.2) (s.receive_payload c m role e)) := by
  unfold receive_payload
  cases h : s.check_payload c m role e with
  | error x => exact outcome_error hown
  | ok payload =>
    obtain ⟨hstate, hrole, hheard⟩ := check_payload_ok h
    exact heffect _ _ hstate hrole hheard

theorem handle_abort_outcome (e : Event) : Outcome c m s (.handle_abort e) (answer .reason (s.handle_abort c e)) := by
  unfold handle_abort
  cases h : s.check_abort c e with
  | error x => exact outcome_error id
  | ok reason =>
    obtain ⟨hlive, hheard⟩ := check_abort_ok h
    exact .aborted hlive hheard

theorem call_outcome (hcode : s.role = .Target → s.sas_code.isSome = true) (op : Op) : Outcome c m s op (call c m s op) := by
  cases op with
  | handle_offer e => exact handle_offer_outcome e
  | confirm_sas => exact send_message_outcome (fun _ => .confirm_sas) id
  | send_source_complete success => exact send_message_outcome (fun _ h => Except.ok.inj h ▸ .send_source_complete) id
  | send_payload payload_type payload => exact send_message_outcome (fun _ h => Except.ok.inj h ▸ .send_payload) id
  | send_complete => exact send_message_outcome (fun _ h => Except.ok.inj h ▸ .send_complete) id
  | handle_complete e => exact handle_complete_outcome e
  | handle_sas_confirm e => exact handle_sas_confirm_outcome hcode e
  | confirm_target_sas => exact confirm_target_sas_outcome
  | abort reason => exact abort_outcome reason
  | handle_return_payload e => exact receive_payload_outcome id fun _ _ => .returned
  | handle_payload e => exact receive_payload_outcome id fun _ _ => .delivered
  | handle_abort e => exact handle_abort_outcome e
  | sign_event builder =>
    change Outcome c m s _ (answer .signed (s, s.sign_event c m builder))
    cases h : s.sign_event c m builder with
    | error x => exact outcome_error id
    | ok e => exact .signed

end Calls
end Ambush.Pairing

import Ambush.Pairing.Calls
import Mathlib.Data.List.Infix
/-!
# A plain `Nostr`

Stand-ins that can be run: a shared key is the sum of the two keys, a ciphertext names its
key and its nonce in front of the text, and the messages are the JSON texts that `serde`
writes when no character of a field needs an escape.
-/
open Lib

namespace Ambush.Pairing

/-! ## Texts of messages -/

/-- What stands before and after the field of a message, and the message with that field. -/
structure Frame where
  before : String
  after : String
  message : String → PairingMessage

def Frame.write (f : Frame) (field : String) : String := f.before ++ field ++ f.after

/-- What follows a text. -/
def strip : List Char → List Char → Option (List Char)
  | [], rest => some rest
  | _ :: _, [] => none
  | a :: as, b :: bs => if a = b then strip as bs else none

theorem strip_eq_some_iff {as text rest : List Char} : strip as text = some rest ↔ text = as ++ rest := by
  induction as generalizing text with
  | nil => simp [strip]
  | cons a as ih =>
    cases text with
    | nil => simp [strip]
    | cons b bs =>
      rw [strip, List.cons_append, List.cons.injEq]
      split_ifs with hab
      · rw [ih, and_iff_right hab.symm]
      · exact ⟨fun h => (nomatch h), fun h => absurd h.1.symm hab⟩

def Frame.read (f : Frame) (text : String) : Option PairingMessage := do
  let rest ← strip f.before.toList text.toList
  some (f.message (String.ofList ((rest.reverse.drop f.after.toList.length).reverse)))

theorem Frame.toList_write (f : Frame) (field : String) :
    (f.write field).toList = f.before.toList ++ (field.toList ++ f.after.toList) := by
  simp [Frame.write, String.toList_append]

theorem Frame.read_write (f : Frame) (field : String) : f.read (f.write field) = some (f.message field) := by
  unfold Frame.read
  rw [strip_eq_some_iff.2 (f.toList_write field)]
  simp

/-- Neither text continues the other. -/
def Frame.Apart (f g : Frame) : Prop := ¬ f.before.toList <+: g.before.toList ∧ ¬ g.before.toList <+: f.before.toList

theorem Frame.Apart.read_none {f g : Frame} (h : f.Apart g) (field : String) : f.read (g.write field) = none := by
  have hstrip : strip f.before.toList (g.write field).toList = none := by
    refine Option.eq_none_iff_forall_ne_some.2 fun rest hrest => ?_
    have hf : f.before.toList <+: (g.write field).toList := ⟨rest, (strip_eq_some_iff.1 hrest).symm⟩
    have hg : g.before.toList <+: (g.write field).toList := ⟨_, (g.toList_write field).symm⟩
    rcases List.prefix_or_prefix_of_prefix hf hg with hfg | hgf
    · exact h.1 hfg
    · exact h.2 hgf
  unfold Frame.read
  rw [hstrip]
  rfl

theorem findSome_read_write {fs : List Frame} (hapart : fs.Pairwise Frame.Apart) {f : Frame} (hf : f ∈ fs) (field : String) :
    fs.findSome? (fun g => g.read (f.write field)) = some (f.message field) := by
  induction hapart with
  | nil => cases hf
  | @cons g fs hg _ ih =>
    rcases List.mem_cons.1 hf with rfl | hf
    · rw [List.findSome?_cons, Frame.read_write]
    · rw [List.findSome?_cons, (hg f hf).read_none]
      exact ih hf

def offerFrame : Frame := ⟨"\x7b\"type\":\"offer\",\"session_id\":\"", "\",\"version\":1\x7d", (.Offer · 1)⟩

def sasConfirmFrame : Frame := ⟨"\x7b\"type\":\"sas-confirm\",\"transcript_hash\":\"", "\"\x7d", .SasConfirm⟩

def payloadFrame (payload_type : PayloadType) : Frame where
  before := "\x7b\"type\":\"payload\",\"payload_type\":\"" ++ (match payload_type with
    | .Nsec => "nsec"
    | .Bunker => "bunker"
    | .Connect => "connect"
    | .Custom => "custom") ++ "\",\"payload\":\""
  after := "\"\x7d"
  message := .Payload payload_type

def completeFrame (success : Bool) : Frame :=
  ⟨"\x7b\"type\":\"complete\",\"success\":" ++ (if success then "true" else "false"), "\x7d", fun _ => .Complete success⟩

def abortFrame (reason : AbortReason) : Frame where
  before := "\x7b\"type\":\"abort\",\"reason\":\"" ++ (match reason with
    | .SasMismatch => "sas_mismatch"
    | .UserDenied => "user_denied"
    | .Timeout => "timeout"
    | .ProtocolError => "protocol_error"
    | .Unknown => "unknown")
  after := "\"\x7d"
  message := fun _ => .Abort reason

def frames : List Frame :=
  [offerFrame, sasConfirmFrame, payloadFrame .Nsec, payloadFrame .Bunker, payloadFrame .Connect, payloadFrame .Custom,
    completeFrame true, completeFrame false, abortFrame .SasMismatch, abortFrame .UserDenied, abortFrame .Timeout,
    abortFrame .ProtocolError, abortFrame .Unknown]

instance (f g : Frame) : Decidable (f.Apart g) := by
  unfold Frame.Apart
  infer_instance

theorem frames_apart : frames.Pairwise Frame.Apart := by decide +kernel

/-- The frame of a message and its field; another version than the first is not written. -/
def framed : PairingMessage → Option (Frame × String)
  | .Offer session_id version => if version = 1 then some (offerFrame, session_id) else none
  | .SasConfirm transcript_hash => some (sasConfirmFrame, transcript_hash)
  | .Payload payload_type payload => some (payloadFrame payload_type, payload)
  | .Complete success => some (completeFrame success, "")
  | .Abort reason => some (abortFrame reason, "")

theorem framed_message {message : PairingMessage} {f : Frame} {field : String} (h : framed message = some (f, field)) :
    f ∈ frames ∧ f.message field = message := by
  cases message with
  | Offer session_id version =>
    simp only [framed] at h
    split_ifs at h with hv
    cases h
    subst hv
    exact ⟨by simp [frames], rfl⟩
  | SasConfirm transcript_hash => cases h; exact ⟨by simp [frames], rfl⟩
  | Payload payload_type payload => cases h; cases payload_type <;> exact ⟨by simp [frames], rfl⟩
  | Complete success => cases h; cases success <;> exact ⟨by simp [frames], rfl⟩
  | Abort reason => cases h; cases reason <;> exact ⟨by simp [frames], rfl⟩

/-! ## Keys -/

/-- The first 32 bytes, and zeros. -/
def Bytes32.of_list (bytes : List UInt8) : Bytes32 :=
  ⟨(bytes ++ List.replicate 32 0).take 32, by
    rw [List.length_take, List.length_append, List.length_replicate]
    exact Nat.min_eq_left (Nat.le_add_left _ _)⟩

def Bytes32.add (a b : Bytes32) : Bytes32 := .of_list (a.bytes.zipWith (· + ·) b.bytes)

theorem Bytes32.length_to_hex (b : Bytes32) : b.to_hex.toList.length = 64 := by
  rw [Bytes32.to_hex, String.toList_ofList, length_hex, b.size]

def Nostr.plain : Nostr where
  public_key key := key
  generate_shared_key a b := .ok (a.add b)
  encrypt_v2 k nonce text := .ok (k.to_hex ++ nonce.to_hex ++ "v2==" ++ text)
  decrypt_v2 k content :=
    (strip k.to_hex.toList content.toList).elim (.error "invalid hmac") fun rest => .ok (String.ofList (rest.drop 68))
  sign_with_keys key m b := .ok ⟨m.nonce, key, b.custom_created_at.getD m.timestamp, b.kind, b.tags, b.content, key.to_hex⟩
  verify e := if e.sig = e.pubkey.to_hex then .ok () else .error "invalid signature"
  hkdf32 _ material _ := .of_list material
  to_string message := (framed message).elim (.error "unsupported version") fun f => .ok (f.1.write f.2)
  from_str text := (frames.findSome? (·.read text)).elim (.error "unknown variant") .ok

theorem Nostr.plain_lawful : Nostr.plain.Lawful where
  signed_content keys m b e h := by
    cases h
    rfl
  decrypt_encrypt k nonce text content h := by
    obtain rfl := Except.ok.inj h
    have htext : (k.to_hex ++ nonce.to_hex ++ "v2==" ++ text).toList =
        k.to_hex.toList ++ ((nonce.to_hex.toList ++ "v2==".toList) ++ text.toList) := by simp [String.toList_append]
    have hlen : (nonce.to_hex.toList ++ "v2==".toList).length = 68 := by
      rw [List.length_append, nonce.length_to_hex]
      rfl
    show Option.elim (strip _ _) _ _ = _
    rw [strip_eq_some_iff.2 htext, Option.elim_some, List.drop_left' hlen, String.ofList_toList]
  read_written message text h := by
    cases hf : framed message with
    | none => simp [Nostr.plain, hf] at h
    | some p =>
      obtain ⟨f, field⟩ := p
      obtain ⟨hmem, hmessage⟩ := framed_message hf
      have htext : text = f.write field := by simpa [Nostr.plain, hf] using h.symm
      subst htext
      show Option.elim (frames.findSome? _) _ _ = _
      rw [findSome_read_write frames_apart hmem, hmessage]
      rfl

end Ambush.Pairing

import Ambush.Pairing.Plain
import Ambush.Lib.Runs
/-!
# Pairing is safe

A source, the target made from its QR code, and a relay that may drop, repeat, reorder and
make up events. The callers of the two sessions may call any method at any time. Of the
relay only this is assumed: what decrypts under the key the two sessions share was
encrypted under it by one of them. Signatures are checked by the sessions, and nothing is
assumed of them.
-/
open Lib

namespace Ambush.Pairing

open PairingSession

/-! ## Two sessions and a relay -/

/-- A call that was made, the session before and after it, and what it returned. -/
structure Entry where
  side : Role
  moment : Moment
  op : Op
  before : PairingSession
  after : PairingSession
  result : Except PairingError Reply

def Entry.published (x : Entry) : Option Event := x.result.toOption.bind Reply.published

/-- The call was made and succeeded. -/
def Entry.did (x : Entry) (side : Role) (op : Op) : Prop := x.side = side ∧ x.op = op ∧ ∃ r, x.result = .ok r

structure World where
  source : PairingSession
  target : PairingSession
  past : List Entry

namespace World

def session (w : World) : Role → PairingSession
  | .Source => w.source
  | .Target => w.target

def put (w : World) (side : Role) (x : Entry) : World :=
  match side with
  | .Source => { w with source := x.after, past := w.past ++ [x] }
  | .Target => { w with target := x.after, past := w.past ++ [x] }

def entry (c : Nostr) (w : World) (side : Role) (m : Moment) (op : Op) : Entry where
  side := side
  moment := m
  op := op
  before := w.session side
  after := (call c m (w.session side) op).1
  result := (call c m (w.session side) op).2

/-- One of the sessions has encrypted this content under the key: in the offer of the
target's creation, or in an event that a call returned. -/
def Wrote (c : Nostr) (offer : Event) (w : World) (k : Bytes32) (content : String) : Prop :=
  (offer.content = content ∧ c.generate_shared_key w.target.keys (w.source.pubkey c) = .ok k) ∨
    ∃ x ∈ w.past, ∃ e peer, x.published = some e ∧ e.content = content ∧ x.before.peer_pubkey = some peer ∧
      c.generate_shared_key x.before.keys peer = .ok k

/-- What the relay can hand over: it has no content of its own for the key of the two sessions. -/
def Deliverable (c : Nostr) (offer : Event) (w : World) (e : Event) : Prop :=
  ∀ k text, c.generate_shared_key w.source.keys (w.target.pubkey c) = .ok k ∨
      c.generate_shared_key w.target.keys (w.source.pubkey c) = .ok k →
    c.decrypt_v2 k e.content = .ok text → w.Wrote c offer k e.content

end World

inductive Step (c : Nostr) (offer : Event) (w : World) : Entry → World → Prop
  | call (side : Role) (m : Moment) (op : Op) : (∀ e, op.event = some e → w.Deliverable c offer e) →
      Step c offer w (w.entry c side m op) (w.put side (w.entry c side m op))

/-! ## The past of a run -/

/-- The source has accepted an offer with this key. -/
def Accepted (peer : PublicKey) (past : List Entry) : Prop :=
  ∃ x ∈ past, ∃ e, x.did .Source (.handle_offer e) ∧ e.pubkey = peer

/-- And its user has confirmed the code after that. -/
def Confirmed (peer : PublicKey) (past : List Entry) : Prop :=
  ∃ early x late, past = early ++ x :: late ∧ x.did .Source .confirm_sas ∧ Accepted peer early

/-- The target has received the hash it computes. -/
def Matched (c : Nostr) (past : List Entry) : Prop :=
  ∃ x ∈ past, ∃ e, x.did .Target (.handle_sas_confirm e) ∧ x.before.check_sas_confirm c x.moment e = .ok true

/-- And its user has confirmed the code after that. -/
def Approved (c : Nostr) (past : List Entry) : Prop :=
  ∃ early x late, past = early ++ x :: late ∧ x.did .Target .confirm_target_sas ∧ Matched c early

/-- The payload a call gave to the source. -/
def Entry.gave (x : Entry) : Option (PayloadType × String) :=
  match x.side, x.op, x.result with
  | .Source, .send_payload payload_type payload, .ok _ => some (payload_type, payload)
  | _, _, _ => none

/-- The payload a call got from the target. -/
def Entry.got (x : Entry) : Option (PayloadType × String) :=
  match x.side, x.op, x.result with
  | .Target, .handle_payload _, .ok (.payload payload_type payload) => some (payload_type, payload)
  | _, _, _ => none

def given (past : List Entry) : List (PayloadType × String) := past.filterMap Entry.gave

def got (past : List Entry) : List (PayloadType × String) := past.filterMap Entry.got

section Past
variable {c : Nostr} {past : List Entry} {x : Entry} {peer : PublicKey}

theorem Accepted.snoc (h : Accepted peer past) (x : Entry) : Accepted peer (past ++ [x]) := by
  obtain ⟨y, hy, hdid⟩ := h
  exact ⟨y, List.mem_append_left _ hy, hdid⟩

theorem accepted_snoc_iff :
    Accepted peer (past ++ [x]) ↔ Accepted peer past ∨ ∃ e, x.did .Source (.handle_offer e) ∧ e.pubkey = peer := by
  simp only [Accepted, List.mem_append, List.mem_singleton, or_and_right, exists_or, exists_eq_left]

theorem Confirmed.snoc (h : Confirmed peer past) (x : Entry) : Confirmed peer (past ++ [x]) := by
  obtain ⟨early, y, late, rfl, hdid, hacc⟩ := h
  exact ⟨early, y, late ++ [x], by simp, hdid, hacc⟩

theorem Confirmed.accepted (h : Confirmed peer past) : Accepted peer past := by
  obtain ⟨early, y, late, rfl, -, z, hz, hdid⟩ := h
  exact ⟨z, List.mem_append_left _ hz, hdid⟩

theorem Matched.snoc (h : Matched c past) (x : Entry) : Matched c (past ++ [x]) := by
  obtain ⟨y, hy, hdid⟩ := h
  exact ⟨y, List.mem_append_left _ hy, hdid⟩

theorem Approved.snoc (h : Approved c past) (x : Entry) : Approved c (past ++ [x]) := by
  obtain ⟨early, y, late, rfl, hdid, hmatched⟩ := h
  exact ⟨early, y, late ++ [x], by simp, hdid, hmatched⟩

theorem gave_iff {p : PayloadType × String} : x.gave = some p ↔ x.did .Source (.send_payload p.1 p.2) := by
  obtain ⟨side, m, op, before, after, result⟩ := x
  cases side <;> cases op <;> cases result <;> simp [Entry.gave, Entry.did, Prod.ext_iff]

theorem got_iff {p : PayloadType × String} :
    x.got = some p ↔ x.side = .Target ∧ (∃ e, x.op = .handle_payload e) ∧ x.result = .ok (.payload p.1 p.2) := by
  obtain ⟨side, m, op, before, after, result⟩ := x
  cases side <;> cases op <;> rcases result with - | r <;> try (simp [Entry.got]; done)
  cases r <;> simp [Entry.got, Prod.ext_iff]

theorem given_snoc (past : List Entry) (x : Entry) : given (past ++ [x]) = given past ++ x.gave.toList := by
  simp [given, List.filterMap_append, List.filterMap_cons]
  cases x.gave <;> rfl

theorem got_snoc (past : List Entry) (x : Entry) : got (past ++ [x]) = got past ++ x.got.toList := by
  simp [got, List.filterMap_append, List.filterMap_cons]
  cases x.got <;> rfl

end Past

/-! ## What every call keeps -/

/-- How far a session has come. -/
def SessionState.rank : SessionState → Nat
  | .Waiting => 0
  | .Confirming => 1
  | .AwaitingConfirmation => 2
  | .Transferring => 3
  | .PayloadExchanged => 4
  | .Completed | .Aborted => 5

theorem SessionState.rank_of_terminal {t : SessionState} (h : t.terminal = true) : t.rank = 5 := by
  cases t <;> first | rfl | cases h

/-- The moves of a session of either side. -/
inductive Moves : SessionState → SessionState → Prop
  | stay {t : SessionState} : Moves t t
  | offer : Moves .Waiting .Confirming
  | confirm : Moves .Confirming .Transferring
  | matching : Moves .Confirming .AwaitingConfirmation
  | approve : Moves .AwaitingConfirmation .Transferring
  | exchange : Moves .Transferring .PayloadExchanged
  | complete : Moves .PayloadExchanged .Completed
  | abort {t : SessionState} : t.terminal = false → Moves t .Aborted

theorem Moves.rank_le {t u : SessionState} (h : Moves t u) : t.rank ≤ u.rank := by
  cases h with
  | stay => exact Nat.le_refl _
  | abort _ => cases t <;> decide
  | _ => decide

theorem Moves.terminal {t u : SessionState} (h : Moves t u) (hend : t.terminal = true) : u = t := by
  cases h with
  | stay => rfl
  | abort hlive => rw [hlive] at hend; cases hend
  | _ => cases hend

/-- What no call changes. -/
structure Kin (s s' : PairingSession) : Prop where
  role : s'.role = s.role
  keys : s'.keys = s.keys
  code : s.sas_code.isSome = true → s'.sas_code.isSome = true
  peer : s.role = .Target → s'.peer_pubkey = s.peer_pubkey

section Steps
variable {c : Nostr} {m : Moment} {s s' : PairingSession} {op : Op} {r : Reply}

theorem Kin.state {t : SessionState} : Kin s { s with state := t } := ⟨rfl, rfl, id, fun _ => rfl⟩

theorem Effect.kin (h : Effect c m s op r s') : Kin s s' := by
  cases h with
  | offered _ hrole _ => exact ⟨rfl, rfl, fun _ => rfl, fun htarget => by rw [hrole] at htarget; cases htarget⟩
  | signed => exact ⟨rfl, rfl, id, fun _ => rfl⟩
  | _ => exact ⟨rfl, rfl, id, fun _ => rfl⟩

theorem Refused.kin (h : Refused c m s op s') : Kin s s' := by
  rcases h with ⟨-, rfl⟩ | ⟨-, rfl⟩
  · exact .state
  · exact .state

theorem Effect.moves (h : Effect c m s op r s') : Moves s.state s'.state := by
  cases h with
  | offered hstate => exact hstate ▸ .offer
  | sent hsends hstate _ _ =>
    rw [hstate]
    cases hsends with
    | confirm_sas _ => exact .confirm
    | send_payload => exact .exchange
    | send_source_complete =>
      cases ‹Bool› with
      | true => exact .complete
      | false => exact .abort rfl
    | send_complete => exact .complete
  | returned hstate => exact hstate ▸ .exchange
  | delivered hstate => exact hstate ▸ .exchange
  | completed hstate => exact hstate ▸ .complete
  | matched hstate => exact hstate ▸ .matching
  | approved hstate => exact hstate ▸ .approve
  | abandoned hlive _ => exact .abort hlive
  | aborts hlive _ => exact .abort hlive
  | aborted hlive _ => exact .abort hlive
  | signed => exact .stay

theorem Disowned.live (h : Disowned c m s op) : s.state.terminal = false := by
  cases op with
  | handle_sas_confirm e => rw [(check_sas_confirm_ok h).1]; rfl
  | handle_complete e => rw [(check_complete_ok h).1]; rfl
  | _ => cases h

theorem Refused.moves (h : Refused c m s op s') : Moves s.state s'.state := by
  rcases h with ⟨hown, rfl⟩ | ⟨-, rfl⟩
  · exact .abort hown.live
  · exact .stay

theorem Outcome.kin {out : PairingSession × Except PairingError Reply} (h : Outcome c m s op out) : Kin s out.1 := by
  obtain ⟨s', x | r⟩ := out
  · exact Refused.kin h
  · exact Effect.kin h

theorem Outcome.moves {out : PairingSession × Except PairingError Reply} (h : Outcome c m s op out) :
    Moves s.state out.1.state := by
  obtain ⟨s', x | r⟩ := out
  · exact Refused.moves h
  · exact Effect.moves h

end Steps

/-! ## The invariant of a run -/

/-- An entry is a call on the session of its side. -/
structure Faithful (c : Nostr) (ks kt : SecretKey) (x : Entry) : Prop where
  outcome : Outcome c x.moment x.before x.op (x.after, x.result)
  role : x.before.role = x.side
  keys : x.before.keys = if x.side = .Source then ks else kt
  peer : x.side = .Target → x.before.peer_pubkey = some (c.public_key ks)

theorem Faithful.effect {c : Nostr} {ks kt : SecretKey} {x : Entry} {r : Reply} (h : Faithful c ks kt x)
    (hr : x.result = .ok r) : Effect c x.moment x.before x.op r x.after := by
  have := h.outcome
  rw [hr] at this
  exact this

/-- What the state of the source says of its past. -/
structure SourceInv (s : PairingSession) (past : List Entry) : Prop where
  confirming : s.state = .Confirming → ∃ peer, s.peer_pubkey = some peer ∧ Accepted peer past
  confirmed : s.state = .Transferring ∨ s.state = .PayloadExchanged → ∃ peer, s.peer_pubkey = some peer ∧ Confirmed peer past
  accepted : ∀ peer, Accepted peer past → s.state ≠ .Waiting ∧ s.peer_pubkey = some peer
  fresh : s.state.rank ≤ 3 → given past = []
  once : (given past).length ≤ 1
  closed : ∀ y ∈ past, ∀ success, y.did .Source (.send_source_complete success) → s.state.terminal = true

/-- What the state of the target says of its past. -/
structure TargetInv (c : Nostr) (s : PairingSession) (past : List Entry) : Prop where
  awaiting : s.state = .AwaitingConfirmation → Matched c past
  approved : s.state = .Transferring → Approved c past
  fresh : s.state.rank ≤ 3 → got past = []

section Sides
variable {c : Nostr} {ks kt : SecretKey} {s : PairingSession} {past : List Entry} {x : Entry}

theorem not_did_of_side {side side' : Role} {op : Op} (h : x.side = side') (hne : side' ≠ side) : ¬ x.did side op :=
  fun hdid => hne (h.symm.trans hdid.1)

theorem gave_none (h : ∀ payload_type payload, ¬ x.did .Source (.send_payload payload_type payload)) : x.gave = none :=
  Option.eq_none_iff_forall_ne_some.2 fun _ hp => h _ _ (gave_iff.1 hp)

theorem got_none (h : x.side ≠ .Target) : x.got = none :=
  Option.eq_none_iff_forall_ne_some.2 fun _ hp => h (got_iff.1 hp).1

/-- A call on the target says nothing of the source. -/
theorem SourceInv.other (h : SourceInv s past) (hside : x.side = .Target) : SourceInv s (past ++ [x]) where
  confirming hs := (h.confirming hs).imp fun _ hp => ⟨hp.1, hp.2.snoc x⟩
  confirmed hs := (h.confirmed hs).imp fun _ hp => ⟨hp.1, hp.2.snoc x⟩
  accepted peer hacc := by
    rcases accepted_snoc_iff.1 hacc with hacc | ⟨e, hdid, -⟩
    · exact h.accepted peer hacc
    · exact absurd hdid (not_did_of_side hside (by decide))
  fresh hs := by
    rw [given_snoc, gave_none fun _ _ => not_did_of_side hside (by decide), h.fresh hs]
    rfl
  once := by
    rw [given_snoc, gave_none fun _ _ => not_did_of_side hside (by decide)]
    simpa using h.once
  closed y hy success hdid := by
    rcases List.mem_append.1 hy with hy | hy
    · exact h.closed y hy success hdid
    · rw [List.mem_singleton.1 hy] at hdid
      exact absurd hdid (not_did_of_side hside (by decide))

theorem TargetInv.other (h : TargetInv c s past) (hside : x.side = .Source) : TargetInv c s (past ++ [x]) where
  awaiting hs := (h.awaiting hs).snoc x
  approved hs := (h.approved hs).snoc x
  fresh hs := by
    rw [got_snoc, got_none (by rw [hside]; decide), h.fresh hs]
    rfl

/-- A call that accepts no offer and sends no payload, at the end of a session. -/
theorem SourceInv.finish {s' : PairingSession} (h : SourceInv s past) (hoffer : ∀ e, ¬ x.did .Source (.handle_offer e))
    (hgave : ∀ payload_type payload, ¬ x.did .Source (.send_payload payload_type payload)) (hpeer : s'.peer_pubkey = s.peer_pubkey)
    (hend : s'.state.terminal = true) : SourceInv s' (past ++ [x]) where
  confirming hs := by rw [hs] at hend; cases hend
  confirmed hs := by rcases hs with hs | hs <;> (rw [hs] at hend; cases hend)
  accepted peer hacc := by
    rcases accepted_snoc_iff.1 hacc with hacc | ⟨e, hdid, -⟩
    · refine ⟨fun hs => ?_, hpeer.trans (h.accepted peer hacc).2⟩
      rw [hs] at hend
      cases hend
    · exact absurd hdid (hoffer e)
  fresh hs := by
    rw [SessionState.rank_of_terminal hend] at hs
    exact absurd hs (by decide)
  once := by
    rw [given_snoc, gave_none hgave]
    simpa using h.once
  closed _ _ _ _ := hend

/-- A call that leaves the source as it is. -/
theorem SourceInv.still (h : SourceInv s past) (hoffer : ∀ e, ¬ x.did .Source (.handle_offer e))
    (hgave : ∀ payload_type payload, ¬ x.did .Source (.send_payload payload_type payload)) (hclose : ∀ b, ¬ x.did .Source (.send_source_complete b)) :
    SourceInv s (past ++ [x]) := by
  have hnone := gave_none hgave
  refine ⟨fun hs => ?_, fun hs => ?_, fun peer hacc => ?_, fun hs => ?_, ?_, fun y hy success hdid => ?_⟩
  · exact (h.confirming hs).imp fun _ hp => ⟨hp.1, hp.2.snoc x⟩
  · exact (h.confirmed hs).imp fun _ hp => ⟨hp.1, hp.2.snoc x⟩
  · rcases accepted_snoc_iff.1 hacc with hacc | ⟨e, hdid, -⟩
    · exact h.accepted peer hacc
    · exact absurd hdid (hoffer e)
  · rw [given_snoc, hnone, h.fresh hs]
    rfl
  · rw [given_snoc, hnone]
    simpa using h.once
  · rcases List.mem_append.1 hy with hy | hy
    · exact h.closed y hy success hdid
    · rw [List.mem_singleton.1 hy] at hdid
      exact absurd hdid (hclose success)

/-- The source takes an offer when it has taken none. -/
theorem SourceInv.offers {s' : PairingSession} {e : Event} (h : SourceInv s past) (hdid : x.did .Source (.handle_offer e))
    (hstate : s.state = .Waiting) (hpeer : s'.peer_pubkey = some e.pubkey) (hnext : s'.state = .Confirming) :
    SourceInv s' (past ++ [x]) := by
  have hnone : given (past ++ [x]) = [] := by
    rw [given_snoc, h.fresh (by rw [hstate]; decide), gave_none fun _ _ hgave => nomatch hdid.2.1.symm.trans hgave.2.1]
    rfl
  refine ⟨fun _ => ⟨e.pubkey, hpeer, accepted_snoc_iff.2 (.inr ⟨e, hdid, rfl⟩)⟩, fun hs => ?_, fun peer hacc => ?_,
    fun _ => hnone, ?_, fun y hy success hdid' => ?_⟩
  · rw [hnext] at hs
    rcases hs with hs | hs <;> cases hs
  · rcases accepted_snoc_iff.1 hacc with hacc | ⟨e', hdid', rfl⟩
    · exact absurd hstate (h.accepted peer hacc).1
    · cases hdid.2.1.symm.trans hdid'.2.1
      refine ⟨fun hs => ?_, hpeer⟩
      rw [hnext] at hs
      cases hs
  · rw [hnone]
    decide
  · rcases List.mem_append.1 hy with hy | hy
    · have hend := h.closed y hy success hdid'
      rw [hstate] at hend
      cases hend
    · rw [List.mem_singleton.1 hy] at hdid'
      cases hdid.2.1.symm.trans hdid'.2.1

/-- A source that has confirmed moves on to the exchange. -/
theorem SourceInv.onward {s' : PairingSession} (h : SourceInv s past) (hpeer : s'.peer_pubkey = s.peer_pubkey)
    (hlive : s.state.terminal = false)
    (hnext : s'.state = .Transferring ∧ s.state.rank ≤ 3 ∨ s'.state = .PayloadExchanged)
    (hconf : ∃ peer, s.peer_pubkey = some peer ∧ Confirmed peer past) : SourceInv s' past := by
  refine ⟨fun hs => ?_, fun _ => hconf.imp fun _ hp => ⟨hpeer.trans hp.1, hp.2⟩, fun peer hacc => ⟨fun hs => ?_, ?_⟩,
    fun hs => ?_, h.once, fun y hy success hdid => ?_⟩
  · rcases hnext with ⟨ht, -⟩ | ht <;> rw [ht] at hs <;> cases hs
  · rcases hnext with ⟨ht, -⟩ | ht <;> rw [ht] at hs <;> cases hs
  · exact hpeer.trans (h.accepted peer hacc).2
  · rcases hnext with ⟨-, hle⟩ | ht
    · exact h.fresh hle
    · rw [ht] at hs
      exact absurd hs (by decide)
  · have hend := h.closed y hy success hdid
    rw [hlive] at hend
    cases hend

/-- A call on the source. -/
theorem SourceInv.own (h : SourceInv x.before past) (hf : Faithful c ks kt x) (hside : x.side = .Source) :
    SourceInv x.after (past ++ [x]) := by
  have hrole : x.before.role = .Source := hf.role.trans hside
  have hout := hf.outcome
  obtain ⟨side, m, op, before, after, y | r⟩ := x
  · have hnot : ∀ side' op', ¬ Entry.did ⟨side, m, op, before, after, .error y⟩ side' op' := fun _ _ ⟨_, _, r, hr⟩ => nomatch hr
    have hrefused : Refused c m before op after := hout
    rcases hrefused with ⟨-, rfl⟩ | ⟨-, rfl⟩
    · exact h.finish (fun _ => hnot _ _) (fun _ _ => hnot _ _) rfl rfl
    · exact h.still (fun _ => hnot _ _) (fun _ _ => hnot _ _) fun _ => hnot _ _
  have heffect : Effect c m before op r after := hout
  dsimp only at hrole hside h
  cases heffect with
  | offered hstate _ _ => exact h.offers ⟨hside, rfl, _, rfl⟩ hstate rfl rfl
  | sent hsends hstate hrole' hbuild =>
    cases hsends with
    | confirm_sas _ =>
      obtain ⟨peer, hpeer, hacc⟩ := h.confirming hstate
      refine SourceInv.onward (h.still ?_ ?_ ?_) rfl (by rw [hstate]; rfl) (.inl ⟨rfl, by rw [hstate]; decide⟩)
        ⟨peer, hpeer, past, _, [], rfl, ⟨hside, rfl, _, rfl⟩, hacc⟩
      · exact fun _ hd => nomatch hd.2.1
      · exact fun _ _ hd => nomatch hd.2.1
      · exact fun _ hd => nomatch hd.2.1
    | send_payload =>
      refine ⟨fun hs => (nomatch hs), fun _ => ?_, fun peer hacc => ⟨fun hs => (nomatch hs), ?_⟩, 
        fun hs => absurd (show 4 ≤ 3 from hs) (by decide), ?_, fun y hy success hdid => ?_⟩
      · exact (h.confirmed (.inl hstate)).imp fun _ hp => ⟨hp.1, hp.2.snoc _⟩
      · rcases accepted_snoc_iff.1 hacc with hacc | ⟨e, hdid, -⟩
        · exact (h.accepted peer hacc).2
        · cases hdid.2.1
      · rw [given_snoc, h.fresh (by rw [hstate]; decide)]
        exact Option.length_toList_le
      · rcases List.mem_append.1 hy with hy | hy
        · have hend := h.closed y hy success hdid
          rw [hstate] at hend
          cases hend
        · rw [List.mem_singleton.1 hy] at hdid
          cases hdid.2.1
    | send_source_complete =>
      exact h.finish (fun _ hd => nomatch hd.2.1) (fun _ _ hd => nomatch hd.2.1) rfl (by cases ‹Bool› <;> rfl)
    | send_complete => cases hrole.symm.trans hrole'
  | returned hstate _ _ =>
    refine SourceInv.onward (h.still ?_ ?_ ?_) rfl (by rw [hstate]; rfl) (.inr rfl)
      ((h.confirmed (.inl hstate)).imp fun _ hp => ⟨hp.1, hp.2.snoc _⟩)
    · exact fun _ hd => nomatch hd.2.1
    · exact fun _ _ hd => nomatch hd.2.1
    · exact fun _ hd => nomatch hd.2.1
  | delivered _ hrole' _ => cases hrole.symm.trans hrole'
  | completed _ _ _ => exact h.finish (fun _ hd => nomatch hd.2.1) (fun _ _ hd => nomatch hd.2.1) rfl rfl
  | matched _ hrole' _ _ => cases hrole.symm.trans hrole'
  | approved _ hrole' => cases hrole.symm.trans hrole'
  | abandoned _ _ => exact h.finish (fun _ hd => nomatch hd.2.1) (fun _ _ hd => nomatch hd.2.1) rfl rfl
  | aborts _ _ => exact h.finish (fun _ hd => nomatch hd.2.1) (fun _ _ hd => nomatch hd.2.1) rfl rfl
  | aborted _ _ => exact h.finish (fun _ hd => nomatch hd.2.1) (fun _ _ hd => nomatch hd.2.1) rfl rfl
  | signed =>
    exact h.still (fun _ hd => nomatch hd.2.1) (fun _ _ hd => nomatch hd.2.1) fun _ hd => nomatch hd.2.1

/-- A call on the target. -/
theorem TargetInv.own (h : TargetInv c x.before past) (hf : Faithful c ks kt x) (hside : x.side = .Target) :
    TargetInv c x.after (past ++ [x]) := by
  have hrole : x.before.role = .Target := hf.role.trans hside
  have hrank := hf.outcome.moves.rank_le
  have hout := hf.outcome
  -- a payload is returned in `Transferring` only, and what is returned is past it
  have hfresh : x.after.state.rank ≤ 3 → got (past ++ [x]) = [] := by
    intro hle
    have hnone : x.got = none := by
      refine Option.eq_none_iff_forall_ne_some.2 fun p hp => ?_
      obtain ⟨-, ⟨e, hop⟩, hres⟩ := got_iff.1 hp
      have heffect := hf.effect hres
      rw [hop] at heffect
      generalize x.after = after at heffect hle
      cases heffect with
      | delivered _ _ _ => exact absurd (show 4 ≤ 3 from hle) (by decide)
    rw [got_snoc, h.fresh (Nat.le_trans hrank hle), hnone]
    rfl
  obtain ⟨side, m, op, before, after, y | r⟩ := x
  · have hrefused : Refused c m before op after := hout
    rcases hrefused with ⟨-, rfl⟩ | ⟨-, rfl⟩
    · exact ⟨fun hs => (nomatch hs), fun hs => (nomatch hs), hfresh⟩
    · exact ⟨fun hs => (h.awaiting hs).snoc _, fun hs => (h.approved hs).snoc _, hfresh⟩
  have heffect : Effect c m before op r after := hout
  dsimp only at hrole hside h hfresh
  cases heffect with
  | offered _ hrole' _ => cases hrole.symm.trans hrole'
  | sent hsends hstate hrole' hbuild =>
    cases hsends with
    | send_complete => exact ⟨fun hs => (nomatch hs), fun hs => (nomatch hs), hfresh⟩
    | _ => cases hrole.symm.trans hrole'
  | returned _ hrole' _ => cases hrole.symm.trans hrole'
  | delivered _ _ _ => exact ⟨fun hs => (nomatch hs), fun hs => (nomatch hs), hfresh⟩
  | completed _ hrole' _ => cases hrole.symm.trans hrole'
  | matched hstate _ hcode hcheck =>
    exact ⟨fun _ => ⟨_, List.mem_append_right _ (List.mem_singleton.2 rfl), _, ⟨hside, rfl, _, rfl⟩, hcheck⟩,
      fun hs => (nomatch hs), hfresh⟩
  | approved hstate _ =>
    exact ⟨fun hs => (nomatch hs), fun _ => ⟨past, _, [], rfl, ⟨hside, rfl, _, rfl⟩, h.awaiting hstate⟩, hfresh⟩
  | abandoned _ _ => exact ⟨fun hs => (nomatch hs), fun hs => (nomatch hs), hfresh⟩
  | aborts _ _ => exact ⟨fun hs => (nomatch hs), fun hs => (nomatch hs), hfresh⟩
  | aborted _ _ => exact ⟨fun hs => (nomatch hs), fun hs => (nomatch hs), hfresh⟩
  | signed => exact ⟨fun hs => (h.awaiting hs).snoc _, fun hs => (h.approved hs).snoc _, hfresh⟩

end Sides

structure WorldInv (c : Nostr) (ks kt : SecretKey) (w : World) : Prop where
  role : ∀ side, (w.session side).role = side
  keys : ∀ side, (w.session side).keys = if side = .Source then ks else kt
  peer : w.target.peer_pubkey = some (c.public_key ks)
  code : w.target.sas_code.isSome = true
  source : SourceInv w.source w.past
  target : TargetInv c w.target w.past
  calls : ∀ x ∈ w.past, Faithful c ks kt x

section Worlds
variable {c : Nostr} {ks kt : SecretKey} {offer : Event} {w w' : World} {x : Entry} {side : Role} {m : Moment} {op : Op}

theorem WorldInv.faithful (h : WorldInv c ks kt w) (side : Role) (m : Moment) (op : Op) :
    Faithful c ks kt (w.entry c side m op) where
  outcome := by
    refine call_outcome (fun hrole => ?_) op
    cases side with
    | Source => cases (h.role .Source).symm.trans hrole
    | Target => exact h.code
  role := h.role side
  keys := h.keys side
  peer htarget := by
    cases side with
    | Source => cases htarget
    | Target => exact h.peer

theorem WorldInv.put (h : WorldInv c ks kt w) (side : Role) (m : Moment) (op : Op) :
    WorldInv c ks kt (w.put side (w.entry c side m op)) := by
  have hf := h.faithful side m op
  have hkin := hf.outcome.kin
  have hcalls : ∀ x ∈ w.past ++ [w.entry c side m op], Faithful c ks kt x := by
    intro x hx
    rcases List.mem_append.1 hx with hx | hx
    · exact h.calls x hx
    · exact List.mem_singleton.1 hx ▸ hf
  cases side with
  | Source =>
    refine ⟨fun side => ?_, fun side => ?_, h.peer, h.code, h.source.own hf rfl, h.target.other rfl, hcalls⟩
    · cases side with
      | Source => exact hkin.role.trans (h.role .Source)
      | Target => exact h.role .Target
    · cases side with
      | Source => exact hkin.keys.trans (h.keys .Source)
      | Target => exact h.keys .Target
  | Target =>
    refine ⟨fun side => ?_, fun side => ?_, (hkin.peer (h.role .Target)).trans h.peer, hkin.code h.code, h.source.other rfl,
      h.target.own hf rfl, hcalls⟩
    · cases side with
      | Source => exact h.role .Source
      | Target => exact hkin.role.trans (h.role .Target)
    · cases side with
      | Source => exact h.keys .Source
      | Target => exact hkin.keys.trans (h.keys .Target)

theorem WorldInv.step (h : WorldInv c ks kt w) (hstep : Step c offer w x w') : WorldInv c ks kt w' := by
  cases hstep with
  | call side m op _ => exact h.put side m op

theorem Step.past (h : Step c offer w x w') : w'.past = w.past ++ [x] := by
  cases h with
  | call side m op _ => cases side <;> rfl

theorem run_past {xs : List Entry} (h : Run (Step c offer) w xs w') : w'.past = w.past ++ xs := by
  induction h with
  | nil => simp
  | cons hs _ ih => rw [ih, hs.past, List.append_assoc, List.singleton_append]

/-! ## What was written -/

/-- The message in an event that a call returned, and the method that wrote it. -/
theorem published_enclosed (hlaw : c.Lawful) (hf : Faithful c ks kt x) {e : Event} (h : x.published = some e) :
    ∃ peer message, x.before.peer_pubkey = some peer ∧ Enclosed c x.before.keys peer message e ∧
      ((∃ expected next, Sends c x.before x.op expected x.side message next ∧ x.did x.side x.op ∧ x.result = .ok (.event e)) ∨
        ∃ reason, message = .Abort reason) := by
  have hrole := hf.role
  unfold Entry.published at h
  obtain ⟨r, hr, hpub⟩ := Option.bind_eq_some_iff.1 h
  have hres : x.result = .ok r := by
    cases hx : x.result with
    | error y => rw [hx] at hr; cases hr
    | ok r' => rw [hx] at hr; cases hr; rfl
  have heffect := hf.effect hres
  have hdid : x.did x.side x.op := ⟨rfl, rfl, r, hres⟩
  generalize x.after = after at heffect
  generalize x.op = op at heffect hdid
  cases heffect with
  | sent hsends _ hrole' hbuild =>
    cases hpub
    obtain ⟨peer, hpeer, hin⟩ := build_event_ok hlaw hbuild
    have hsends' := hrole'.symm.trans hrole ▸ hsends
    exact ⟨peer, _, hpeer, hin, .inl ⟨_, _, hsends', hdid, hres⟩⟩
  | aborts _ hbuild =>
    cases hpub
    obtain ⟨peer, hpeer, hin⟩ := build_event_ok hlaw hbuild
    exact ⟨peer, _, hpeer, hin, .inr ⟨_, rfl⟩⟩
  | _ => cases hpub

/-- What opens under a key is what was written under it. -/
theorem Enclosed.opened (hlaw : c.Lawful) {keys : SecretKey} {peer : PublicKey} {message : PairingMessage} {e : Event}
    {k : Bytes32} {text : String} (h : Enclosed c keys peer message e) (hk : c.generate_shared_key keys peer = .ok k)
    (hopen : c.decrypt_v2 k e.content = .ok text) : c.from_str text = .ok message := by
  obtain ⟨nonce, written, hwritten, henc⟩ := h
  obtain ⟨k', hk', hseal⟩ := (ok_bind_iff _ _ _).1 henc
  cases hk.symm.trans hk'
  cases hopen.symm.trans (hlaw.decrypt_encrypt _ _ _ _ hseal)
  exact hlaw.read_written _ _ hwritten

/-- A payload or a completion that opens under a key of the two sessions was sent by a call
on one of them. -/
theorem wrote_sent (hlaw : c.Lawful) (h : WorldInv c ks kt w) {session_id : String} {version : Nat}
    (hoffer : Enclosed c kt (c.public_key ks) (.Offer session_id version) offer) {k : Bytes32} {content text : String}
    {message : PairingMessage} (hwrote : w.Wrote c offer k content) (hopen : c.decrypt_v2 k content = .ok text)
    (hread : c.from_str text = .ok message) (hne : ∀ i v, message ≠ .Offer i v) (hne' : ∀ reason, message ≠ .Abort reason) :
    ∃ y ∈ w.past, ∃ e expected next, Sends c y.before y.op expected y.side message next ∧ y.did y.side y.op ∧
      y.result = .ok (.event e) ∧ e.content = content := by
  rcases hwrote with ⟨rfl, hk⟩ | ⟨y, hy, e, peer, hpub, rfl, hpeer, hk⟩
  · have hkeys : w.target.keys = kt := h.keys .Target
    have hsource : w.source.keys = ks := h.keys .Source
    rw [hkeys, PairingSession.pubkey, hsource] at hk
    cases hread.symm.trans (hoffer.opened hlaw hk hopen)
    exact absurd rfl (hne _ _)
  · obtain ⟨peer', message', hpeer', hin, hsent⟩ := published_enclosed hlaw (h.calls y hy) hpub
    cases hpeer.symm.trans hpeer'
    cases hread.symm.trans (hin.opened hlaw hk hopen)
    rcases hsent with ⟨expected, next, hsends, hdid, hres⟩ | ⟨reason, rfl⟩
    · exact ⟨y, hy, e, expected, next, hsends, hdid, hres, rfl⟩
    · exact absurd rfl (hne' reason)

/-! ## Safety -/

/-- What a call may do, given the calls before it: `kt` is the key of the target. -/
structure Allowed (c : Nostr) (kt : SecretKey) (past : List Entry) (x : Entry) : Prop where
  /-- The source sends a payload after it has accepted an offer and its user has confirmed,
  encrypted to the key of that offer. -/
  sends : ∀ payload_type payload, x.did .Source (.send_payload payload_type payload) →
    ∃ e peer, x.result = .ok (.event e) ∧ Confirmed peer past ∧ (∀ other, Accepted other past → other = peer) ∧
      Enclosed c x.before.keys peer (.Payload payload_type payload) e
  /-- The target returns a payload after its user has confirmed a hash that matched, once,
  and the one payload that was given to the source. -/
  receives : ∀ e r, x.side = .Target → x.op = .handle_payload e → x.result = .ok r →
    ∃ payload_type payload, r = .payload payload_type payload ∧ Approved c past ∧ got past = [] ∧
      given past = [(payload_type, payload)]
  /-- The source completes on an event that verifies with the key of its peer and holds the
  completion; if that peer is the target, then `send_complete` has written it. -/
  completes : ∀ e, x.did .Source (.handle_complete e) →
    c.verify e = .ok () ∧ x.before.decrypt_message c e = .ok (.Complete true) ∧
      Accepted e.pubkey past ∧ (∀ other, Accepted other past → other = e.pubkey) ∧
      (e.pubkey = c.public_key kt →
        ∃ y ∈ past, y.did .Target .send_complete ∧ ∃ e', y.result = .ok (.event e') ∧ e'.content = e.content)
  /-- An error leaves the session as it was, but for the two refusals that abort it. -/
  errors : ∀ y, x.result = .error y →
    (Disowned c x.moment x.before x.op ∧ x.after = { x.before with state := .Aborted }) ∨
      (¬ Disowned c x.moment x.before x.op ∧ x.after = x.before)

theorem entry_sends (hlaw : c.Lawful) (h : WorldInv c ks kt w) {payload_type : PayloadType} {payload : String}
    (hdid : (w.entry c side m op).did .Source (.send_payload payload_type payload)) :
    ∃ e peer, (w.entry c side m op).result = .ok (.event e) ∧ Confirmed peer w.past ∧
      (∀ other, Accepted other w.past → other = peer) ∧
      Enclosed c (w.entry c side m op).before.keys peer (.Payload payload_type payload) e := by
  obtain ⟨hside, hop, r, hr⟩ := hdid
  have heffect := (h.faithful side m op).effect hr
  have hbefore : (w.entry c side m op).before = w.source := by
    cases hside
    rfl
  rw [hop, hbefore] at heffect
  rw [hbefore, hr]
  generalize (w.entry c side m op).after = after at heffect
  cases heffect with
  | sent hsends hstate _ hbuild =>
    cases hsends
    obtain ⟨peer, hpeer, hin⟩ := build_event_ok hlaw hbuild
    obtain ⟨peer', hpeer', hconf⟩ := h.source.confirmed (.inl hstate)
    cases hpeer.symm.trans hpeer'
    refine ⟨_, peer, rfl, hconf, fun other hother => ?_, hin⟩
    exact Option.some.inj ((h.source.accepted other hother).2.symm.trans hpeer)

theorem entry_receives (hlaw : c.Lawful) (h : WorldInv c ks kt w) {session_id : String} {version : Nat}
    (hoffer : Enclosed c kt (c.public_key ks) (.Offer session_id version) offer)
    (hdeliver : ∀ e, op.event = some e → w.Deliverable c offer e) {e : Event} {r : Reply} (hside : side = .Target)
    (hop : op = .handle_payload e) (hr : (w.entry c side m op).result = .ok r) :
    ∃ payload_type payload, r = .payload payload_type payload ∧ Approved c w.past ∧ got w.past = [] ∧
      given w.past = [(payload_type, payload)] := by
  subst hside hop
  have heffect : Effect c m w.target (.handle_payload e) r (w.entry c .Target m (.handle_payload e)).after :=
    (h.faithful .Target m (.handle_payload e)).effect hr
  generalize (w.entry c .Target m (.handle_payload e)).after = after at heffect
  cases heffect with
  | sent hsends => cases hsends
  | @delivered _ payload_type payload hstate _ hheard =>
    refine ⟨payload_type, payload, rfl, h.target.approved hstate, h.target.fresh (by rw [hstate]; decide), ?_⟩
    obtain ⟨k, text, hk, hopen, hread⟩ := decrypt_message_ok hheard.message
    have hsource : w.source.keys = ks := h.keys .Source
    have hauthor : e.pubkey = w.source.pubkey c := by
      rw [PairingSession.pubkey, hsource]
      exact hheard.peer _ h.peer
    rw [hauthor] at hk
    have hwrote := hdeliver e rfl k text (.inr hk) hopen
    obtain ⟨y, hy, e', expected, next, hsends, hdid, -, -⟩ := wrote_sent hlaw h hoffer hwrote hopen hread
      (fun _ _ => PairingMessage.noConfusion) fun _ => PairingMessage.noConfusion
    -- of what the sessions write, only `send_payload` of the source holds a payload
    have hgave : y.gave = some (payload_type, payload) := by
      refine gave_iff.2 ?_
      generalize hs : y.side = side at hsends hdid
      generalize ho : y.op = op at hsends hdid
      cases hsends with
      | confirm_sas hconf =>
        unfold sas_confirmation at hconf
        split at hconf
        · cases hconf
        · split at hconf <;> cases hconf
      | send_payload => exact hdid
    have hmem : (payload_type, payload) ∈ given w.past := List.mem_filterMap.2 ⟨y, hy, hgave⟩
    have honce := h.source.once
    obtain ⟨p, hp⟩ := List.length_eq_one_iff.1 (Nat.le_antisymm honce (List.length_pos_of_mem hmem))
    rw [hp] at hmem ⊢
    rw [List.mem_singleton.1 hmem]

theorem entry_completes (hlaw : c.Lawful) (h : WorldInv c ks kt w) {session_id : String} {version : Nat}
    (hoffer : Enclosed c kt (c.public_key ks) (.Offer session_id version) offer)
    (hdeliver : ∀ e, op.event = some e → w.Deliverable c offer e) {e : Event}
    (hdid : (w.entry c side m op).did .Source (.handle_complete e)) :
    c.verify e = .ok () ∧ (w.entry c side m op).before.decrypt_message c e = .ok (.Complete true) ∧
      Accepted e.pubkey w.past ∧ (∀ other, Accepted other w.past → other = e.pubkey) ∧
      (e.pubkey = c.public_key kt →
        ∃ y ∈ w.past, y.did .Target .send_complete ∧ ∃ e', y.result = .ok (.event e') ∧ e'.content = e.content) := by
  obtain ⟨hside, hop, r, hr⟩ := hdid
  have heffect := (h.faithful side m op).effect hr
  have hbefore : (w.entry c side m op).before = w.source := by
    cases hside
    rfl
  rw [hop, hbefore] at heffect
  rw [hbefore]
  generalize (w.entry c side m op).after = after at heffect
  cases heffect with
  | sent hsends => cases hsends
  | completed hstate _ hheard =>
    obtain ⟨peer, hpeer, hconf⟩ := h.source.confirmed (.inr hstate)
    obtain rfl := hheard.peer _ hpeer
    refine ⟨hheard.verified, hheard.message, hconf.accepted, fun other hother => ?_, fun htarget => ?_⟩
    · exact Option.some.inj ((h.source.accepted other hother).2.symm.trans hpeer)
    obtain ⟨k, text, hk, hopen, hread⟩ := decrypt_message_ok hheard.message
    have hkeys : w.target.keys = kt := h.keys .Target
    rw [htarget, ← hkeys] at hk
    have hevent : op.event = some e := (congrArg Op.event hop :)
    have hwrote := hdeliver e hevent k text (.inl hk) hopen
    obtain ⟨y, hy, e', expected, next, hsends, hdid, hres, hcontent⟩ := wrote_sent hlaw h hoffer hwrote hopen hread
      (fun _ _ => PairingMessage.noConfusion) fun _ => PairingMessage.noConfusion
    refine ⟨y, hy, ?_, e', hres, hcontent⟩
    generalize hs : y.side = side at hsends hdid
    generalize ho : y.op = op at hsends hdid
    cases hsends with
    | confirm_sas hconf =>
      unfold sas_confirmation at hconf
      split at hconf
      · cases hconf
      · split at hconf <;> cases hconf
    | send_source_complete =>
      -- the source writes a completion when it ends, and it has not ended
      have hend := h.source.closed y hy _ hdid
      rw [hstate] at hend
      cases hend
    | send_complete => exact hdid

theorem step_allowed (hlaw : c.Lawful) (h : WorldInv c ks kt w) {session_id : String} {version : Nat}
    (hoffer : Enclosed c kt (c.public_key ks) (.Offer session_id version) offer) (hstep : Step c offer w x w') :
    Allowed c kt w.past x := by
  cases hstep with
  | call side m op hdeliver =>
    refine ⟨fun _ _ => entry_sends hlaw h, fun _ _ => entry_receives hlaw h hoffer hdeliver,
      fun _ => entry_completes hlaw h hoffer hdeliver, fun y hy => ?_⟩
    have hout := (h.faithful side m op).outcome
    rw [hy] at hout
    exact hout

theorem new_target_ok {qr : QrPayload} {target : PairingSession} (hlaw : c.Lawful)
    (h : new_target c m kt qr = .ok (target, offer)) :
    target.role = .Target ∧ target.state = .Confirming ∧ target.keys = kt ∧ target.peer_pubkey = some qr.source_pubkey ∧
      target.sas_code.isSome = true ∧
      Enclosed c kt qr.source_pubkey (.Offer (derive_session_id c qr.session_secret).to_hex 1) offer := by
  unfold new_target at h
  dsimp only at h
  cases hk : c.generate_shared_key kt qr.source_pubkey with
  | error y => rw [hk] at h; cases h
  | ok ecdh =>
    rw [hk] at h
    dsimp only at h
    split at h
    · cases h
    · next hbuild =>
      cases h
      obtain ⟨peer, hpeer, hin⟩ := build_event_ok hlaw hbuild
      cases hpeer
      exact ⟨rfl, rfl, rfl, rfl, rfl, hin⟩

theorem start_inv {secret : Bytes32} {relay_url : String} {m' : Moment} {target : PairingSession} (hlaw : c.Lawful)
    (h : new_target c m' kt (new_source c m ks secret relay_url).2 = .ok (target, offer)) :
    WorldInv c ks kt ⟨(new_source c m ks secret relay_url).1, target, []⟩ := by
  obtain ⟨hrole, hstate, hkeys, hpeer, hcode, -⟩ := new_target_ok hlaw h
  refine ⟨fun side => ?_, fun side => ?_, hpeer, hcode, ?_, ?_, fun x hx => nomatch hx⟩
  · cases side with
    | Source => rfl
    | Target => exact hrole
  · cases side with
    | Source => rfl
    | Target => exact hkeys
  · exact ⟨fun hs => (nomatch hs), fun hs => hs.elim (nomatch ·) (nomatch ·), fun _ ⟨_, hy, _⟩ => (nomatch hy), fun _ => rfl,
      Nat.zero_le _, fun y hy => (nomatch hy)⟩
  · exact ⟨fun hs => (nomatch hstate.symm.trans hs), fun hs => (nomatch hstate.symm.trans hs), fun _ => rfl⟩

/-- A session that has ended stays as it ended. -/
theorem run_ended {ys : List Entry} (h : WorldInv c ks kt w) (hrun : Run (Step c offer) w ys w') (side : Role)
    (hend : (w.session side).state.terminal = true) : (w'.session side).state = (w.session side).state := by
  refine (hrun.inv (I := fun v => WorldInv c ks kt v ∧ (v.session side).state = (w.session side).state)
    (fun v x v' _ ⟨hv, hstate⟩ hstep => ⟨hv.step hstep, ?_⟩) ⟨h, rfl⟩).2
  cases hstep with
  | call side' m op _ =>
    have hmoves := (hv.faithful side' m op).outcome.moves
    by_cases hside : side' = side
    · subst hside
      have hput : (v.put side' (v.entry c side' m op)).session side' = (v.entry c side' m op).after := by cases side' <;> rfl
      rw [hput]
      exact (hmoves.terminal ((congrArg _ hstate).trans hend)).trans hstate
    · have hput : (v.put side' (v.entry c side' m op)).session side = v.session side := by
        cases side' <;> cases side <;> first | rfl | exact absurd rfl hside
      rw [hput]
      exact hstate

/-- In every run of the two sessions every call is allowed by the calls before it, and a
session that has ended stays so. -/
theorem pairing_safe {secret : Bytes32} {relay_url : String} {m' : Moment} {target : PairingSession} {xs : List Entry}
    (hlaw : c.Lawful) (htarget : new_target c m' kt (new_source c m ks secret relay_url).2 = .ok (target, offer))
    (hrun : Run (Step c offer) ⟨(new_source c m ks secret relay_url).1, target, []⟩ xs w) :
    (∀ past x rest, xs = past ++ x :: rest → Allowed c kt past x) ∧
      ∀ side ys w', Run (Step c offer) w ys w' → (w.session side).state.terminal = true →
        (w'.session side).state = (w.session side).state := by
  have hstart := start_inv hlaw htarget
  obtain ⟨-, -, -, -, -, hoffer⟩ := new_target_ok hlaw htarget
  refine ⟨fun past x rest hxs => ?_, fun side ys w' hrun' => ?_⟩
  · subst hxs
    obtain ⟨v, hpast, hrest⟩ := hrun.split
    have hv : WorldInv c ks kt v := hpast.inv (fun _ _ _ _ hv hstep => hv.step hstep) hstart
    have hpasts : v.past = past := run_past hpast
    cases hrest with
    | cons hstep _ => exact hpasts ▸ step_allowed hlaw hv hoffer hstep
  · have hw : WorldInv c ks kt w := hrun.inv (fun _ _ _ _ hv hstep => hv.step hstep) hstart
    exact run_ended hw hrun' side

end Worlds

/-! ## A whole pairing -/

def fill (n : Nat) : Bytes32 := .of_list (List.replicate 32 (UInt8.ofNat n))

def momentAt (n : Nat) : Moment := ⟨n, n, 0, fill n, fill 0⟩

/-- The session of the source and its code. -/
def shown : PairingSession × QrPayload := new_source .plain (momentAt 0) (fill 1) (fill 3) "wss://relay"

/-- The session of the target and its offer. -/
def scanned : Except PairingError (PairingSession × Event) := new_target .plain (momentAt 1) (fill 2) shown.2

/-- The last event a session published. -/
def World.last (offer : Event) (w : World) : Event := (w.past.filterMap Entry.published).getLast?.getD offer

/-- A session has written this content under the key of the two. -/
def World.wrote (offer : Event) (w : World) (content : String) : Bool :=
  offer.content = content || w.past.any fun x => (x.published.any fun e => e.content = content) &&
    x.before.peer_pubkey.any fun peer => x.before.keys.add peer = w.target.keys.add w.source.keys

/-- Calls on the two sessions, each given the event that was published last. -/
def perform (offer : Event) (w : World) : List (Role × (Event → Op)) → Option (World × List Entry)
  | [] => some (w, [])
  | (side, f) :: rest =>
    let op := f (w.last offer)
    if op.event.all (fun e => w.wrote offer e.content) then
      let x := w.entry .plain side (momentAt (w.past.length + 2)) op
      (perform offer (w.put side x) rest).map fun out => (out.1, x :: out.2)
    else none

theorem Bytes32.add_comm (a b : Bytes32) : a.add b = b.add a := by
  unfold Bytes32.add
  rw [List.zipWith_comm_of_comm UInt8.add_comm]

theorem World.deliverable_of_wrote {offer e : Event} {w : World} (h : w.wrote offer e.content = true) :
    w.Deliverable .plain offer e := by
  intro k text hk _
  have hk : w.target.keys.add w.source.keys = k := by
    rcases hk with hk | hk
    · rw [Bytes32.add_comm]
      exact Except.ok.inj hk
    · exact Except.ok.inj hk
  simp only [World.wrote, Bool.or_eq_true, decide_eq_true_eq, List.any_eq_true, Bool.and_eq_true, Option.any_eq_true] at h
  rcases h with hoffer | ⟨x, hx, ⟨e', he', hcontent⟩, peer, hpeer, hadd⟩
  · exact .inl ⟨hoffer, congrArg _ hk⟩
  · exact .inr ⟨x, hx, e', peer, he', hcontent, hpeer, congrArg _ (hadd.trans hk)⟩

theorem run_perform {offer : Event} (acts : List (Role × (Event → Op))) :
    ∀ {w w' : World} {xs : List Entry}, perform offer w acts = some (w', xs) → Run (Step .plain offer) w xs w' := by
  induction acts with
  | nil =>
    intro w w' xs h
    cases h
    exact .nil
  | cons act acts ih =>
    obtain ⟨side, f⟩ := act
    intro w w' xs h
    simp only [perform] at h
    split_ifs at h with hwrote
    obtain ⟨out, hout, hxs⟩ := Option.map_eq_some_iff.1 h
    cases hxs
    refine .cons (.call side _ _ fun e he => ?_) (ih hout)
    rw [he] at hwrote
    exact World.deliverable_of_wrote hwrote

/-- The source takes the offer, its user confirms, and the payload goes out. -/
def pairing : List (Role × (Event → Op)) :=
  [(.Source, .handle_offer), (.Source, fun _ => .confirm_sas), (.Source, fun _ => .send_payload .Nsec "nsec1")]

def paired : Option (World × List Entry) :=
  match scanned with
  | .error _ => none
  | .ok (target, offer) => perform offer ⟨shown.1, target, []⟩ pairing

theorem paired_gives : paired.map (fun p => given p.2) = some [(.Nsec, "nsec1")] := by decide +kernel

theorem pairing_safe_plain : ∃ target offer xs w, scanned = .ok (target, offer) ∧
    Run (Step .plain offer) ⟨shown.1, target, []⟩ xs w ∧ given xs = [(.Nsec, "nsec1")] ∧
    ((∀ past x rest, xs = past ++ x :: rest → Allowed .plain (fill 2) past x) ∧
      ∀ side ys w', Run (Step .plain offer) w ys w' → (w.session side).state.terminal = true →
        (w'.session side).state = (w.session side).state) := by
  have hends := paired_gives
  unfold paired at hends
  cases hscan : scanned with
  | error y => rw [hscan] at hends; cases hends
  | ok p =>
    obtain ⟨target, offer⟩ := p
    rw [hscan] at hends
    dsimp only at hends
    cases hperform : perform offer ⟨shown.1, target, []⟩ pairing with
    | none => rw [hperform] at hends; cases hends
    | some out =>
      obtain ⟨w, xs⟩ := out
      rw [hperform] at hends
      have hgiven : given xs = [(.Nsec, "nsec1")] := Option.some.inj hends
      have hrun := run_perform pairing hperform
      exact ⟨target, offer, xs, w, rfl, hrun, hgiven, pairing_safe Nostr.plain_lawful hscan hrun⟩

end Ambush.Pairing

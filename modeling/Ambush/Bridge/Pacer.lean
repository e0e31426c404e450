import Ambush.Lib.Runs
import Ambush.Bridge.Spool
import Ambush.Bridge.ChainHeads
/-!
# The pacer

`Pacer::tick` drains the evidence spool, one frame a tick. The spool is shared with the
receive loop and locked for one operation at a time, so a tick is cut here where it takes
the lock or waits for the relay: `Tick` is where it stands with what it holds, and a
`Move` is one of its pieces or something another task does in between. Reads, writes of
the cursor file, the clocks and the relay's answers are what the moves carry.
-/
open Lib

namespace Ambush.Bridge

def PERCH_FRAME_MAX_BYTES : Nat := 65536

def PACER_SKIP_BUDGET : Nat := 4096

def PERCH_PUBLISH_WINDOW_MARGIN_SECS : Int := 120

def RELAY_TIMESTAMP_DRIFT_SECS : Int := 900

/-- A signed frame; `content` is what its event carries. -/
structure Frame where
  identity : IssuerIdx
  channel : Option String
  event_id : String
  content : CardContent
  covers : IssuerIdx × Seq
  created_at_secs : Int
  deriving DecidableEq

inductive RetryDecision where
  | ResendIdentical | RestampFromSpool
  deriving DecidableEq

def retry_decision (frame : Frame) (now_secs : Int) : RetryDecision :=
  if now_secs - frame.created_at_secs < RELAY_TIMESTAMP_DRIFT_SECS - PERCH_PUBLISH_WINDOW_MARGIN_SECS then .ResendIdentical
  else .RestampFromSpool

/-- Where a tick stands. -/
inductive Tick where
  | Between
  /-- The frame in flight is given up and its loss marked; it is still to be rewound. -/
  | Restamping (now_ms : Int) (issuer : IssuerIdx)
  | Draining (now_ms : Int) (skipped : Nat)
  /-- In the loop over a batch, with the gaps taken for it. -/
  | Batch (now_ms : Int) (skipped : Nat) (records : List Record) (gaps : List GapCause)
  /-- Waiting for the answer to a frame of an earlier tick, or to one of this tick. -/
  | Resending (frame : Frame)
  | Sending (frame : Frame)

structure Pacer where
  chains : Map IssuerIdx SeqChain := .empty
  chain_before : Map IssuerIdx SeqChain := .empty
  inflight : Option Frame := none
  inflight_gaps : List GapCause := []
  tick : Tick := .Between

/-- What happened, in order. -/
inductive Effect where
  | Marked (cause : GapCause)
  | Sealed (frame : Frame)
  | Acknowledged (frame : Frame)
  | Advanced (head : IssuerChainHead) (result : Except BridgeError Unit)
  /-- A resend failed, so that nothing waits for its frame any more. -/
  | Stranded (frame : Frame)
  | Skipped (record : Record)
  | Evicted (record : Record)
  | Restarted

structure World where
  spool : EvidenceSpool := {}
  heads : ChainHeadStore := {}
  pacer : Pacer := {}
  log : List Effect := []

/-- What a pacer is built with. -/
structure Setup where
  wire : Wire
  identities : List Identity
  lane_channel : ThreatClass → Option String
  spine : Option SpineSigner

namespace World

def note (w : World) (e : Effect) : World := { w with log := w.log ++ [e] }

def stand (w : World) (tick : Tick) : World := { w with pacer := { w.pacer with tick } }

section
variable (w : World) (e : Effect) (tick : Tick)

@[simp] theorem note_spool : (w.note e).spool = w.spool := rfl
@[simp] theorem note_heads : (w.note e).heads = w.heads := rfl
@[simp] theorem note_pacer : (w.note e).pacer = w.pacer := rfl
@[simp] theorem note_log : (w.note e).log = w.log ++ [e] := rfl
@[simp] theorem stand_spool : (w.stand tick).spool = w.spool := rfl
@[simp] theorem stand_heads : (w.stand tick).heads = w.heads := rfl
@[simp] theorem stand_log : (w.stand tick).log = w.log := rfl
@[simp] theorem stand_pacer : (w.stand tick).pacer = { w.pacer with tick } := rfl
end

/-! ## Putting back -/

/-- The `n`-th write of the cursor file succeeds when `ok n`. -/
def restore_gaps (w : World) (ok : Nat → Bool) (n : Nat) (gaps : List GapCause) : World :=
  { w with spool := EvidenceSpool.mark_gaps ok n w.spool gaps }

def rewind (w : World) (issuer : IssuerIdx) (ok : Nat → Bool) (n : Nat) : World :=
  let chains :=
    match w.pacer.chain_before issuer with
    | some before => w.pacer.chains.insert issuer before
    | none => w.pacer.chains
  let pacer := { w.pacer with chains, chain_before := w.pacer.chain_before.remove issuer, inflight_gaps := [] }
  { w with pacer }.restore_gaps ok n w.pacer.inflight_gaps

section
variable (w : World) (issuer : IssuerIdx) (ok : Nat → Bool) (n : Nat) (gaps : List GapCause)

@[simp] theorem restore_gaps_spool : (w.restore_gaps ok n gaps).spool = EvidenceSpool.mark_gaps ok n w.spool gaps := rfl
@[simp] theorem restore_gaps_heads : (w.restore_gaps ok n gaps).heads = w.heads := rfl
@[simp] theorem restore_gaps_pacer : (w.restore_gaps ok n gaps).pacer = w.pacer := rfl
@[simp] theorem restore_gaps_log : (w.restore_gaps ok n gaps).log = w.log := rfl
@[simp] theorem rewind_spool :
    (w.rewind issuer ok n).spool = EvidenceSpool.mark_gaps ok n w.spool w.pacer.inflight_gaps := rfl
@[simp] theorem rewind_heads : (w.rewind issuer ok n).heads = w.heads := rfl
@[simp] theorem rewind_log : (w.rewind issuer ok n).log = w.log := rfl
@[simp] theorem rewind_tick : (w.rewind issuer ok n).pacer.tick = w.pacer.tick := rfl
@[simp] theorem rewind_inflight : (w.rewind issuer ok n).pacer.inflight = w.pacer.inflight := rfl
@[simp] theorem rewind_inflight_gaps : (w.rewind issuer ok n).pacer.inflight_gaps = [] := rfl
end

/-! ## The tick -/

/-- The frame in flight is sent again, or given up when its time stamp is too old. -/
def retry (w : World) (now_ms : Int) (ok : Bool) : World :=
  match w.pacer.inflight with
  | none => w.stand (.Draining now_ms 0)
  | some frame =>
    let w := { w with pacer := { w.pacer with inflight := none } }
    match retry_decision frame (now_ms.tdiv 1000) with
    | .ResendIdentical => w.stand (.Resending frame)
    | .RestampFromSpool =>
      let cause := GapCause.PublishWindowExpired frame.covers.2 frame.covers.2
      ({ w with spool := w.spool.mark_gap cause ok }.note (.Marked cause)).stand (.Restamping now_ms frame.covers.1)

/-- A batch of head records and the pending gaps. -/
def take_batch (w : World) (now_ms : Int) (skipped : Nat) (readable ok : Bool) : World :=
  if readable then
    let records := w.spool.peek PERCH_FRAME_MAX_BYTES
    if records = [] then w.stand .Between
    else { w with spool := (w.spool.take_gaps ok).2 }.stand (.Batch now_ms skipped records (w.spool.take_gaps ok).1)
  else w.stand .Between

/-- A record's frame with the chain after it, or nothing when no card is made of it. -/
def examine (b : Setup) (w : World) (record : Record) (gaps : List GapCause) (clock : Clock) :
    Except BridgeError (Option (Frame × SeqChain)) := do
  let event ← report .Encode (b.wire.decode record.payload)
  match identity_at b.identities record.issuer with
  | none => .ok none
  | some identity =>
    let before := (w.pacer.chains record.issuer).getD default
    match ← build_finding_card b.wire b.lane_channel b.spine record event identity before gaps clock with
    | none => .ok none
    | some (body, chain) =>
      let now_secs := clock.now_ms.tdiv 1000
      let event_id ← report .Encode (b.wire.sign_event identity (max now_secs 0).toNat body.content body.tags)
      .ok (some (⟨record.issuer, some body.channel, event_id, body.content, body.covers, now_secs⟩, chain))

/-- The frame of a record carries its number, the chain's last hash and the first of the gaps. -/
theorem examine_spec {b : Setup} {w : World} {record : Record} {gaps : List GapCause} {clock : Clock} {frame : Frame}
    {chain : SeqChain} (h : w.examine b record gaps clock = .ok (some (frame, chain))) :
    frame.identity = record.issuer ∧ frame.covers = (record.issuer, record.seq) ∧
      chain.prev_envelope_hash = some frame.content.envelope.envelope_hash ∧ frame.content.envelope.seq = record.seq ∧
      frame.content.envelope.prev_envelope_hash = ((w.pacer.chains record.issuer).getD default).prev_envelope_hash ∧
      frame.content.envelope.fact.gap = gaps.head?.map (fun cause => gap_block cause clock.now_ms) ∧
      ∃ identity, identity_at b.identities record.issuer = some identity ∧
        ∀ signer, b.spine = some signer → signer identity.slot.label = some frame.content.envelope.issuer := by
  rw [examine, ok_bind_iff] at h
  obtain ⟨event, -, h⟩ := h
  cases hid : identity_at b.identities record.issuer with
  | none => rw [hid] at h; cases Except.ok.inj h
  | some identity =>
    rw [hid, ok_bind_iff] at h
    obtain ⟨built, hbuilt, h⟩ := h
    cases built with
    | none => cases Except.ok.inj h
    | some made =>
      obtain ⟨body, chain'⟩ := made
      rw [ok_bind_iff] at h
      obtain ⟨event_id, -, h⟩ := h
      obtain ⟨rfl, rfl⟩ := Prod.mk.inj (Option.some.inj (Except.ok.inj h))
      obtain ⟨hcovers, hchain, hseq, hprev, hgap, hissuer⟩ := build_finding_card_spec b.wire hbuilt
      exact ⟨rfl, hcovers, hchain, hseq, hprev, hgap, identity, rfl, hissuer⟩

/-- A frame just built goes out; the chain before it and the gaps are kept for a rewind. -/
def launch (w : World) (frame : Frame) (chain : SeqChain) (gaps : List GapCause) : World :=
  let before := (w.pacer.chains frame.identity).getD default
  let pacer := { w.pacer with
    chain_before := w.pacer.chain_before.insert frame.identity before
    chains := w.pacer.chains.insert frame.identity chain
    inflight_gaps := gaps
    tick := .Sending frame }
  { w with pacer }.note (.Sealed frame)

/-- A record no card is made of is committed; when that fails the tick ends. -/
def skip (w : World) (now_ms : Int) (skipped : Nat) (record : Record) (rest : List Record) (gaps : List GapCause)
    (ok : Bool) : World :=
  ({ w with spool := w.spool.commit record.issuer record.seq ok }.note (.Skipped record)).stand
    (if ok then .Batch now_ms (skipped + 1) rest gaps else .Between)

/-- The next record of the batch. -/
def drain (b : Setup) (w : World) (clock : Clock) (skipped : Nat) (records : List Record) (gaps : List GapCause)
    (ok : Nat → Bool) : World :=
  match records with
  | [] => (w.restore_gaps ok 0 gaps).stand (.Draining clock.now_ms skipped)
  | record :: rest =>
    if PACER_SKIP_BUDGET ≤ skipped then (w.restore_gaps ok 0 gaps).stand .Between
    else
      match w.examine b record gaps clock with
      | .error _ => w.stand .Between
      | .ok none => w.skip clock.now_ms skipped record rest gaps (ok 0)
      | .ok (some (frame, chain)) => w.launch frame chain gaps

/-! ## The answer -/

/-- The head of an issuer's chain as it stands in memory, under the number that was signed. -/
def chain_head (b : Setup) (w : World) (issuer : IssuerIdx) (seq : Seq) : Option IssuerChainHead :=
  match b.spine, identity_at b.identities issuer, (w.pacer.chains issuer).bind (·.prev_envelope_hash) with
  | some signer, some identity, some envelope_hash => some ⟨signer.issuer identity.slot.label, seq, envelope_hash⟩
  | _, _, _ => none

def commit_chain_head (b : Setup) (w : World) (issuer : IssuerIdx) (seq : Seq) (persisted : Bool) : World :=
  match w.chain_head b issuer seq with
  | some head =>
    { w with heads := (w.heads.advance head persisted).1 }.note (.Advanced head (w.heads.advance head persisted).2)
  | none => w

section
variable (b : Setup) (w : World) (issuer : IssuerIdx) (seq : Seq) (persisted : Bool)

@[simp] theorem commit_chain_head_spool : (w.commit_chain_head b issuer seq persisted).spool = w.spool := by
  unfold commit_chain_head
  split <;> rfl

@[simp] theorem commit_chain_head_pacer : (w.commit_chain_head b issuer seq persisted).pacer = w.pacer := by
  unfold commit_chain_head
  split <;> rfl

theorem commit_chain_head_log : ∃ advanced : List (IssuerChainHead × Except BridgeError Unit),
    (w.commit_chain_head b issuer seq persisted).log = w.log ++ advanced.map (fun a => .Advanced a.1 a.2) := by
  unfold commit_chain_head
  cases w.chain_head b issuer seq with
  | none => exact ⟨[], by simp⟩
  | some head => exact ⟨[(head, (w.heads.advance head persisted).2)], rfl⟩
end

/-- The relay took the frame: commit what it covers, and nothing else when that fails. -/
def acknowledge (b : Setup) (w : World) (frame : Frame) (persisted : Bool) (ok : Bool) : World :=
  let w := { w with spool := w.spool.commit frame.covers.1 frame.covers.2 ok }.note (.Acknowledged frame)
  if ok then
    let w := w.commit_chain_head b frame.covers.1 frame.covers.2 persisted
    { w with pacer := { w.pacer with chain_before := w.pacer.chain_before.remove frame.covers.1, inflight_gaps := [] } }
  else w

def hold (w : World) (frame : Frame) : World := { w with pacer := { w.pacer with inflight := some frame } }

/-- The end of a tick that sent a frame of its own. -/
def answered (b : Setup) (w : World) (frame : Frame) (answer : Except BridgeError OkOutcome) (persisted : Bool)
    (ok : Nat → Bool) : World :=
  match answer with
  | .ok outcome =>
    if outcome.is_success then
      let w := w.acknowledge b frame persisted (ok 0)
      if ok 0 then w else w.rewind frame.covers.1 ok 1
    else w.rewind frame.covers.1 ok 0
  | .error (.Ws .Timeout) => w.hold frame
  | .error _ => w.rewind frame.covers.1 ok 0

/-- The end of a tick that sent an earlier tick's frame: an error returns at once. -/
def reanswered (b : Setup) (w : World) (frame : Frame) (answer : Except BridgeError OkOutcome) (persisted : Bool)
    (ok : Nat → Bool) : World :=
  match answer with
  | .ok outcome => if outcome.is_success then w.acknowledge b frame persisted (ok 0) else w.rewind frame.covers.1 ok 0
  | .error (.Ws .Timeout) => w.hold frame
  | .error _ => w.note (.Stranded frame)

end World

/-! ## Moves -/

inductive Move where
  | Append (record : Record)
  | Mark (cause : GapCause) (ok : Bool)
  | Evict (count : Nat) (ok : Bool)
  | Start (now_ms : Int) (ok : Bool)
  | Rewind (ok : Nat → Bool)
  | Peek (readable ok : Bool)
  | Examine (issued_at : String) (now_rfc3339 : Nat → String) (ok : Nat → Bool)
  | Answer (answer : Except BridgeError OkOutcome) (persisted : Bool) (ok : Nat → Bool)

/-- What a move leads to, where it can be made. -/
def World.move (b : Setup) (w : World) : Move → Option World
  | .Append record => (w.spool.append record).map (fun spool => { w with spool })
  | .Mark cause ok => some ({ w with spool := w.spool.mark_gap cause ok }.note (.Marked cause))
  | .Evict count ok =>
    let gone := (w.spool.records.take count).filter (fun r => ¬ w.spool.is_committed r)
    some { w with
      spool := w.spool.evict count ok
      log := w.log ++ gone.map .Evicted ++ (w.spool.evicted count).toList.map .Marked }
  | .Start now_ms ok =>
    match w.pacer.tick with
    | .Between => some (w.retry now_ms ok)
    | _ => none
  | .Rewind ok =>
    match w.pacer.tick with
    | .Restamping now_ms issuer => some ((w.rewind issuer ok 0).stand (.Draining now_ms 0))
    | _ => none
  | .Peek readable ok =>
    match w.pacer.tick with
    | .Draining now_ms skipped => some (w.take_batch now_ms skipped readable ok)
    | _ => none
  | .Examine issued_at now_rfc3339 ok =>
    match w.pacer.tick with
    | .Batch now_ms skipped records gaps => some (w.drain b ⟨now_ms, issued_at, now_rfc3339⟩ skipped records gaps ok)
    | _ => none
  | .Answer answer persisted ok =>
    match w.pacer.tick with
    | .Sending frame => some ((w.answered b frame answer persisted ok).stand .Between)
    | .Resending frame => some ((w.reanswered b frame answer persisted ok).stand .Between)
    | _ => none

/-- The steps of one pacer and of the tasks around it. -/
def Moves (b : Setup) (w : World) (m : Move) (w' : World) : Prop := w.move b m = some w'

/-- A move as the piece of the tick it is. -/
inductive Moved (b : Setup) (w : World) : Move → World → Prop
  | append {record : Record} {spool : EvidenceSpool} (h : w.spool.append record = some spool) :
    Moved b w (.Append record) { w with spool }
  | mark {cause : GapCause} {ok : Bool} :
    Moved b w (.Mark cause ok) ({ w with spool := w.spool.mark_gap cause ok }.note (.Marked cause))
  | evict {count : Nat} {ok : Bool} : Moved b w (.Evict count ok) { w with
      spool := w.spool.evict count ok
      log := w.log ++ ((w.spool.records.take count).filter (fun r => ¬ w.spool.is_committed r)).map .Evicted ++
        (w.spool.evicted count).toList.map .Marked }
  | start {now_ms : Int} {ok : Bool} (ht : w.pacer.tick = .Between) : Moved b w (.Start now_ms ok) (w.retry now_ms ok)
  | rewind {now_ms : Int} {issuer : IssuerIdx} {ok : Nat → Bool} (ht : w.pacer.tick = .Restamping now_ms issuer) :
    Moved b w (.Rewind ok) ((w.rewind issuer ok 0).stand (.Draining now_ms 0))
  | peek {now_ms : Int} {skipped : Nat} {readable ok : Bool} (ht : w.pacer.tick = .Draining now_ms skipped) :
    Moved b w (.Peek readable ok) (w.take_batch now_ms skipped readable ok)
  | examine {clock : Clock} {skipped : Nat} {records : List Record} {gaps : List GapCause} {ok : Nat → Bool}
    (ht : w.pacer.tick = .Batch clock.now_ms skipped records gaps) :
    Moved b w (.Examine clock.issued_at clock.now_rfc3339 ok) (w.drain b clock skipped records gaps ok)
  | answered {frame : Frame} {answer : Except BridgeError OkOutcome} {persisted : Bool} {ok : Nat → Bool}
    (ht : w.pacer.tick = .Sending frame) :
    Moved b w (.Answer answer persisted ok) ((w.answered b frame answer persisted ok).stand .Between)
  | reanswered {frame : Frame} {answer : Except BridgeError OkOutcome} {persisted : Bool} {ok : Nat → Bool}
    (ht : w.pacer.tick = .Resending frame) :
    Moved b w (.Answer answer persisted ok) ((w.reanswered b frame answer persisted ok).stand .Between)

theorem Moves.moved {b : Setup} {w w' : World} {m : Move} (h : Moves b w m w') : Moved b w m w' := by
  unfold Moves at h
  cases m with
  | Append record =>
    simp only [World.move, Option.map_eq_some_iff] at h
    obtain ⟨spool, hs, rfl⟩ := h
    exact .append hs
  | Mark cause ok =>
    obtain rfl := Option.some.inj h
    exact .mark
  | Evict count ok =>
    obtain rfl := Option.some.inj h
    exact .evict
  | Start now_ms ok =>
    simp only [World.move] at h
    split at h
    · next ht =>
      obtain rfl := Option.some.inj h
      exact .start ht
    · cases h
  | Rewind ok =>
    simp only [World.move] at h
    split at h
    · next now_ms issuer ht =>
      obtain rfl := Option.some.inj h
      exact .rewind ht
    · cases h
  | Peek readable ok =>
    simp only [World.move] at h
    split at h
    · next now_ms skipped ht =>
      obtain rfl := Option.some.inj h
      exact .peek ht
    · cases h
  | Examine issued_at now_rfc3339 ok =>
    simp only [World.move] at h
    split at h
    · next now_ms skipped records gaps ht =>
      obtain rfl := Option.some.inj h
      exact @Moved.examine b w ⟨now_ms, issued_at, now_rfc3339⟩ skipped records gaps ok ht
    · cases h
  | Answer answer persisted ok =>
    simp only [World.move] at h
    split at h
    · next frame ht =>
      obtain rfl := Option.some.inj h
      exact .answered ht
    · next frame ht =>
      obtain rfl := Option.some.inj h
      exact .reanswered ht
    · cases h

/-! ## Answers -/

def accepted : Except BridgeError OkOutcome → Bool
  | .ok outcome => outcome.is_success
  | .error _ => false

/-- An error other than the missing answer. -/
def failed : Except BridgeError OkOutcome → Bool
  | .ok _ => false
  | .error (.Ws .Timeout) => false
  | .error _ => true

theorem failed_of_ne {e : BridgeError} (h : e ≠ .Ws .Timeout) : failed (.error e) = true := by
  unfold failed
  split
  · next heq => cases heq
  · next heq => exact absurd (Except.error.inj heq) h
  · rfl

theorem World.reanswered_error {b : Setup} {w : World} {frame : Frame} {e : BridgeError} {persisted : Bool} {ok : Nat → Bool}
    (h : e ≠ .Ws .Timeout) : w.reanswered b frame (.error e) persisted ok = w.note (.Stranded frame) := by
  unfold World.reanswered
  split
  · next heq => cases heq
  · next heq => exact absurd (Except.error.inj heq) h
  · rfl

theorem World.answered_error {b : Setup} {w : World} {frame : Frame} {e : BridgeError} {persisted : Bool} {ok : Nat → Bool}
    (h : e ≠ .Ws .Timeout) : w.answered b frame (.error e) persisted ok = w.rewind frame.covers.1 ok 0 := by
  unfold World.answered
  split
  · next heq => cases heq
  · next heq => exact absurd (Except.error.inj heq) h
  · rfl

/-! ## Frames in flight -/

/-- The frame whose answer is awaited, by this tick or by the next. -/
def World.flying (w : World) : Option Frame :=
  match w.pacer.tick with
  | .Between => w.pacer.inflight
  | .Resending frame | .Sending frame => some frame
  | _ => none

/-- During a tick the pacer keeps no frame of an earlier one. -/
def World.Alone (w : World) : Prop := w.pacer.inflight ≠ none → w.pacer.tick = .Between

theorem World.Alone.inflight_none {w : World} (h : w.Alone) (ht : w.pacer.tick ≠ .Between) : w.pacer.inflight = none := by
  by_contra hne
  exact ht (h hne)

theorem World.drain_inflight (b : Setup) (w : World) (clock : Clock) (skipped : Nat) (records : List Record)
    (gaps : List GapCause) (ok : Nat → Bool) :
    (w.drain b clock skipped records gaps ok).pacer.inflight = w.pacer.inflight := by
  unfold World.drain
  split
  · rfl
  · split
    · rfl
    · split <;> rfl

theorem World.Alone.move {b : Setup} {w w' : World} {m : Move} (h : w.Alone) (hm : Moves b w m w') : w'.Alone := by
  cases hm.moved with
  | append hs => exact h
  | mark => exact h
  | evict => exact h
  | start ht =>
    intro hne
    refine absurd ?_ hne
    unfold World.retry
    split
    · next hnone => exact hnone
    · simp only
      split <;> rfl
  | rewind ht => exact fun hne => absurd (h.inflight_none (by rw [ht]; exact fun he => by cases he)) hne
  | peek ht =>
    have hnone := h.inflight_none (by rw [ht]; exact fun he => by cases he)
    intro hne
    refine absurd ?_ hne
    unfold World.take_batch
    split
    · simp only
      split <;> exact hnone
    · exact hnone
  | examine ht =>
    intro hne
    rw [World.drain_inflight] at hne
    exact absurd (h.inflight_none (by rw [ht]; exact fun he => by cases he)) hne
  | answered ht => exact fun _ => rfl
  | reanswered ht => exact fun _ => rfl

/-- A new process over what the old one left on disk. -/
def World.restart (w : World) : World :=
  { w with spool := w.spool.reopen, heads := w.heads.reopen, pacer := {} }.note .Restarted

/-! A bridge for one agent, to run by hand: a record's payload says what it is, and a hash is the number of the
envelope with the hash before it. -/

namespace Small

def finding : RuntimeEvent := .Finding 0 none ⟨"f", "e", "s", .Impact, .High, 1, .null⟩

def wire : Wire where
  decode payload := if payload = [] then .error "end of file" else .ok (if payload = [1] then finding else .Escalation)
  fact_value _ := .null
  envelope_hash v := .ok ((((v.get "prev_envelope_hash").bind Value.as_str).getD "") ++ (if v.get "seq" = some (.integer 1) then "a" else "b"))
  signature issuer _ := .ok issuer
  json_len _ := 0
  evidence_json _ := []
  sha256_hex _ := ""
  human_line _ := "card"
  content_refused _ := none
  tags _ _ := .ok []
  sign_event _ _ content _ := .ok content.envelope.envelope_hash

def bridge : Setup where
  wire := wire
  identities := [⟨.Agent "whisker-1", "key"⟩]
  lane_channel _ := some "lane"
  spine := some (Map.empty.insert "whisker-1" "swarm:whisker-1")

/-- A record of the agent, before it has a number. -/
def record (payload : Bytes) : Record := ⟨0, 0, 0, 0, payload⟩

/-- Moves whose writes all succeed. -/
def look : Move := .Examine "" (fun _ => "") (fun _ => true)

def answer (a : Except BridgeError OkOutcome) : Move := .Answer a true (fun _ => true)

end Small

end Ambush.Bridge

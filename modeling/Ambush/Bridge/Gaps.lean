import Ambush.Bridge.Pacer
/-!
# No reported loss is lost

Every loss ever marked is still pending, carried by the frame in flight, or written in a
card the relay acknowledged. A card has room for one loss while a frame takes all that are
pending, and a tick that ends with an error drops the ones it took; where neither happens,
each mark is in exactly one of the three places.
-/
open Lib

namespace Ambush.Bridge

/-! ## Where a loss is -/

/-- The loss a gap block writes. -/
def GapBlock.names (b : GapBlock) : Option GapCause :=
  match b.cause, b.count, b.from_seq, b.to_seq with
  | .BroadcastLagged, some count, _, _ => some (.BroadcastLagged count)
  | .SpoolEvicted, _, some from_seq, some to_seq => some (.SpoolEvicted from_seq to_seq)
  | .SpoolTornTail, _, some from_seq, some to_seq => some (.SpoolTornTail from_seq to_seq)
  | .PublishWindowExpired, _, some from_seq, some to_seq => some (.PublishWindowExpired from_seq to_seq)
  | _, _, _, _ => none

theorem names_gap_block (cause : GapCause) (noticed_at_ms : Int) : (gap_block cause noticed_at_ms).names = some cause := by
  cases cause <;> rfl

/-- The loss written in a frame's card. -/
def Frame.gap (f : Frame) : Option GapCause := f.content.envelope.fact.gap.bind GapBlock.names

def Effect.marked : Effect → Option GapCause
  | .Marked cause => some cause
  | _ => none

def Effect.written : Effect → Option GapCause
  | .Acknowledged frame => frame.gap
  | _ => none

/-- Every loss that was marked, and every loss written in an acknowledged card. -/
def marked (log : List Effect) : List GapCause := log.filterMap Effect.marked

def written (log : List Effect) : List GapCause := log.filterMap Effect.written

/-- The losses on their way: of the frame in flight, of the one being given up, or taken for the next card. -/
def World.carried (w : World) : List GapCause :=
  match w.pacer.tick with
  | .Between => if w.pacer.inflight.isSome then w.pacer.inflight_gaps else []
  | .Restamping _ _ | .Resending _ | .Sending _ => w.pacer.inflight_gaps
  | .Draining _ _ => []
  | .Batch _ _ _ gaps => gaps

/-- Each loss is as often pending, carried or written as it was marked. -/
def Accounted (initial : List GapCause) (w : World) : Prop :=
  ∀ cause, (initial ++ marked w.log).count cause =
    w.spool.cursor.pending.count cause + w.carried.count cause + (written w.log).count cause

/-! ## When a move keeps the account -/

/-- A record that is looked at while losses wait for a card does not end the tick with an
error; a card that is acknowledged carries at most one, and its commit is written when it
was sent in this tick; a resend that carries one does not fail. -/
def GapSafe (b : Setup) (w : World) (m : Move) : Prop :=
  match w.pacer.tick, m with
  | .Batch now_ms skipped (record :: _) gaps, .Examine issued_at now_rfc3339 ok =>
    gaps = [] ∨ PACER_SKIP_BUDGET ≤ skipped ∨
      ∃ built, w.examine b record gaps ⟨now_ms, issued_at, now_rfc3339⟩ = .ok built ∧ (built = none → ok 0 = true)
  | .Sending _, .Answer answer _ ok =>
    accepted answer → w.pacer.inflight_gaps = [] ∨ (w.pacer.inflight_gaps.length = 1 ∧ ok 0 = true)
  | .Resending _, .Answer answer _ _ =>
    (accepted answer → w.pacer.inflight_gaps.length ≤ 1) ∧ (failed answer → w.pacer.inflight_gaps = [])
  | _, _ => True

/-! ## The spool's pending losses -/

namespace EvidenceSpool

variable (s : EvidenceSpool)

@[simp] theorem mark_gap_pending (cause : GapCause) (ok : Bool) :
    (s.mark_gap cause ok).cursor.pending = s.cursor.pending ++ [cause] := by
  rw [mark_gap, store_cursor]
  rfl

@[simp] theorem mark_gaps_pending (ok : Nat → Bool) (n : Nat) (gaps : List GapCause) :
    (mark_gaps ok n s gaps).cursor.pending = s.cursor.pending ++ gaps := by
  induction gaps generalizing n s with
  | nil => rw [mark_gaps, List.append_nil]
  | cons cause gaps ih => rw [mark_gaps, ih, mark_gap_pending, List.append_assoc, List.singleton_append]

@[simp] theorem commit_pending (issuer : IssuerIdx) (seq : Seq) (ok : Bool) :
    (s.commit issuer seq ok).cursor.pending = s.cursor.pending := by
  rw [commit, store_cursor]

@[simp] theorem take_gaps_taken (ok : Bool) : (s.take_gaps ok).1 = s.cursor.pending := rfl

@[simp] theorem take_gaps_pending (ok : Bool) : (s.take_gaps ok).2.cursor.pending = [] := by
  simp only [take_gaps]
  split
  · rfl
  · rw [store_cursor]

@[simp] theorem evict_pending (count : Nat) (ok : Bool) :
    (s.evict count ok).cursor.pending = s.cursor.pending ++ (s.evicted count).toList := by
  rw [evict]
  cases s.evicted count with
  | none => simp
  | some cause => simp

theorem append_pending {record : Record} {s' : EvidenceSpool} (h : s.append record = some s') :
    s'.cursor.pending = s.cursor.pending := by
  simp only [append] at h
  split at h
  · rw [← Option.some.inj h]
  · cases h

end EvidenceSpool

/-! ## The log's losses -/

theorem marked_append (log log' : List Effect) : marked (log ++ log') = marked log ++ marked log' := List.filterMap_append

theorem written_append (log log' : List Effect) : written (log ++ log') = written log ++ written log' := List.filterMap_append

@[simp] theorem marked_note (log : List Effect) (e : Effect) : marked (log ++ [e]) = marked log ++ e.marked.toList := by
  rw [marked_append]
  cases h : e.marked <;> simp [marked, h]

@[simp] theorem written_note (log : List Effect) (e : Effect) : written (log ++ [e]) = written log ++ e.written.toList := by
  rw [written_append]
  cases h : e.written <;> simp [written, h]

/-- Moved heads are no losses. -/
theorem silent_advanced (advanced : List (IssuerChainHead × Except BridgeError Unit)) :
    marked (advanced.map (fun a => .Advanced a.1 a.2)) = [] ∧ written (advanced.map (fun a => .Advanced a.1 a.2)) = [] := by
  constructor
  · refine List.filterMap_eq_nil_iff.2 (fun e he => ?_)
    obtain ⟨a, -, rfl⟩ := List.mem_map.1 he
    rfl
  · refine List.filterMap_eq_nil_iff.2 (fun e he => ?_)
    obtain ⟨a, -, rfl⟩ := List.mem_map.1 he
    rfl

theorem silent_evicted (records : List Record) :
    marked (records.map .Evicted) = [] ∧ written (records.map .Evicted) = [] := by
  constructor
  · exact List.filterMap_eq_nil_iff.2 (by simp [Effect.marked])
  · exact List.filterMap_eq_nil_iff.2 (by simp [Effect.written])

theorem marked_marks (causes : List GapCause) : marked (causes.map .Marked) = causes := by
  rw [marked, List.filterMap_map]
  exact List.filterMap_some

theorem written_marks (causes : List GapCause) : written (causes.map .Marked) = [] :=
  List.filterMap_eq_nil_iff.2 (by simp [Effect.written])

theorem acknowledge_spec (b : Setup) (w : World) (frame : Frame) (persisted ok : Bool) :
    (w.acknowledge b frame persisted ok).spool.cursor.pending = w.spool.cursor.pending ∧
      (w.acknowledge b frame persisted ok).pacer.inflight = w.pacer.inflight ∧
      (w.acknowledge b frame persisted ok).pacer.inflight_gaps = (if ok then [] else w.pacer.inflight_gaps) ∧
      marked (w.acknowledge b frame persisted ok).log = marked w.log ∧
      written (w.acknowledge b frame persisted ok).log = written w.log ++ frame.gap.toList := by
  have hnote : marked (w.log ++ [.Acknowledged frame]) = marked w.log ∧
      written (w.log ++ [.Acknowledged frame]) = written w.log ++ frame.gap.toList := by
    simp [Effect.marked, Effect.written]
  cases ok with
  | false => exact ⟨by simp [World.acknowledge], rfl, rfl, hnote.1, hnote.2⟩
  | true =>
    obtain ⟨advanced, hadv⟩ := World.commit_chain_head_log b
      ({ w with spool := w.spool.commit frame.covers.1 frame.covers.2 true }.note (.Acknowledged frame))
      frame.covers.1 frame.covers.2 persisted
    refine ⟨by simp [World.acknowledge], by simp [World.acknowledge], by simp [World.acknowledge], ?_, ?_⟩
    · simp only [World.acknowledge, if_true, hadv, marked_append, (silent_advanced advanced).1, List.append_nil]
      exact hnote.1
    · simp only [World.acknowledge, if_true, hadv, written_append, (silent_advanced advanced).2, List.append_nil]
      exact hnote.2

/-! ## The invariant -/

/-- The account, and what a frame in flight says of its losses. -/
structure GapInv (initial : List GapCause) (w : World) : Prop where
  accounted : Accounted initial w
  flight : ∀ frame, w.flying = some frame → frame.gap = w.pacer.inflight_gaps.head?

/-- A world whose parts add up as those of another. -/
theorem Accounted.of_count {initial : List GapCause} {w w' : World} (h : Accounted initial w)
    (heq : ∀ cause, w'.spool.cursor.pending.count cause + w'.carried.count cause + (written w'.log).count cause +
        (marked w.log).count cause =
      w.spool.cursor.pending.count cause + w.carried.count cause + (written w.log).count cause +
        (marked w'.log).count cause) : Accounted initial w' := by
  intro cause
  have hw := h cause
  have he := heq cause
  rw [List.count_append] at hw ⊢
  omega


/-! ## One move -/

section
variable {initial : List GapCause} {w : World}

/-- A mark by another task. -/
theorem GapInv.mark (h : GapInv initial w) (spool : EvidenceSpool) (causes : List GapCause) (log : List Effect)
    (hp : spool.cursor.pending = w.spool.cursor.pending ++ causes) (hm : marked log = marked w.log ++ causes)
    (hw : written log = written w.log) : GapInv initial { w with spool, log } := by
  refine ⟨h.accounted.of_count (fun cause => ?_), h.flight⟩
  show spool.cursor.pending.count cause + w.carried.count cause + (written log).count cause + _ =
    _ + (marked log).count cause
  rw [hp, hm, hw, List.count_append, List.count_append]
  omega

theorem GapInv.retry (h : GapInv initial w) (ht : w.pacer.tick = .Between) (now_ms : Int) (ok : Bool) :
    GapInv initial (w.retry now_ms ok) := by
  cases hf : w.pacer.inflight with
  | none =>
    refine ⟨h.accounted.of_count (fun cause => ?_), ?_⟩
    · simp [World.retry, hf, World.carried, ht]
    · simp [World.retry, hf, World.flying]
  | some frame =>
    have hgap : frame.gap = w.pacer.inflight_gaps.head? := h.flight frame (by rw [World.flying, ht]; exact hf)
    cases hd : retry_decision frame (now_ms.tdiv 1000) with
    | ResendIdentical =>
      refine ⟨h.accounted.of_count (fun cause => ?_), ?_⟩
      · simp [World.retry, hf, hd, World.carried, ht]
      · simpa [World.retry, hf, hd, World.flying] using hgap
    | RestampFromSpool =>
      refine ⟨h.accounted.of_count (fun cause => ?_), ?_⟩
      · simp only [World.retry, hf, hd, World.carried, ht, World.stand_spool, World.note_spool, World.stand_pacer,
          World.stand_log, World.note_pacer, World.note_log, EvidenceSpool.mark_gap_pending, marked_note, written_note,
          Effect.marked, Effect.written, List.count_append, Option.toList_some, Option.toList_none, List.count_nil,
          Option.isSome_some, if_true]
        omega
      · simp [World.retry, hf, hd, World.flying]

theorem GapInv.rewind (h : GapInv initial w) {now_ms : Int} {issuer : IssuerIdx} (ht : w.pacer.tick = .Restamping now_ms issuer)
    (ok : Nat → Bool) : GapInv initial ((w.rewind issuer ok 0).stand (.Draining now_ms 0)) := by
  refine ⟨h.accounted.of_count (fun cause => ?_), ?_⟩
  · simp [World.carried, ht]
  · simp [World.flying]

/-- A tick that holds nothing ends. -/
theorem GapInv.stop (h : GapInv initial w) (hnone : w.pacer.inflight = none) (hc : w.carried = []) :
    GapInv initial (w.stand .Between) := by
  refine ⟨h.accounted.of_count (fun cause => ?_), ?_⟩
  · rw [hc]
    simp [World.carried, hnone]
  · simp [World.flying, hnone]

theorem GapInv.take_batch (h : GapInv initial w) (ha : w.Alone) {now_ms : Int} {skipped : Nat}
    (ht : w.pacer.tick = .Draining now_ms skipped) (readable ok : Bool) :
    GapInv initial (w.take_batch now_ms skipped readable ok) := by
  have hstop := h.stop (ha.inflight_none (by rw [ht]; exact fun he => by cases he)) (by rw [World.carried, ht])
  rw [World.take_batch]
  split
  · simp only
    split
    · exact hstop
    · refine ⟨h.accounted.of_count (fun cause => ?_), ?_⟩
      · simp [World.carried, ht]
      · simp [World.flying]
  · exact hstop

/-! ## A record of the batch -/

section
variable {now_ms : Int} {skipped : Nat} {record : Record} {records rest : List Record} {gaps : List GapCause}

/-- The gaps of a batch are put back. -/
theorem GapInv.put_back (h : GapInv initial w) (hnone : w.pacer.inflight = none)
    (ht : w.pacer.tick = .Batch now_ms skipped records gaps) (ok : Nat → Bool) (tick : Tick)
    (htick : tick = .Between ∨ tick = .Draining now_ms skipped) : GapInv initial ((w.restore_gaps ok 0 gaps).stand tick) := by
  refine ⟨h.accounted.of_count (fun cause => ?_), ?_⟩
  · rcases htick with rfl | rfl <;> simp [World.carried, ht, hnone]
  · rcases htick with rfl | rfl <;> simp [World.flying, hnone]

theorem GapInv.skip (h : GapInv initial w) (hnone : w.pacer.inflight = none)
    (ht : w.pacer.tick = .Batch now_ms skipped (record :: rest) gaps) (ok : Bool) (hsafe : gaps = [] ∨ ok = true) :
    GapInv initial (w.skip now_ms skipped record rest gaps ok) := by
  cases ok with
  | true =>
    refine ⟨h.accounted.of_count (fun cause => ?_), ?_⟩
    · simp [World.skip, World.carried, ht, Effect.marked, Effect.written]
    · simp [World.skip, World.flying]
  | false =>
    have hgaps : gaps = [] := by simpa using hsafe
    refine ⟨h.accounted.of_count (fun cause => ?_), ?_⟩
    · simp [World.skip, World.carried, ht, hgaps, hnone, Effect.marked, Effect.written]
    · simp [World.skip, World.flying, hnone]

theorem GapInv.launch (h : GapInv initial w) (ht : w.pacer.tick = .Batch now_ms skipped records gaps) {frame : Frame}
    (chain : SeqChain) (hgap : frame.gap = gaps.head?) : GapInv initial (w.launch frame chain gaps) := by
  refine ⟨h.accounted.of_count (fun cause => ?_), ?_⟩
  · simp [World.launch, World.carried, ht, Effect.marked, Effect.written]
  · simpa [World.launch, World.flying] using hgap
end

theorem GapInv.drain (h : GapInv initial w) (ha : w.Alone) {b : Setup} {clock : Clock} {skipped : Nat}
    {records : List Record} {gaps : List GapCause} (ht : w.pacer.tick = .Batch clock.now_ms skipped records gaps)
    (ok : Nat → Bool) (hsafe : GapSafe b w (.Examine clock.issued_at clock.now_rfc3339 ok)) :
    GapInv initial (w.drain b clock skipped records gaps ok) := by
  have hnone := ha.inflight_none (by rw [ht]; exact fun he => by cases he)
  cases records with
  | nil => exact h.put_back hnone ht ok _ (.inr rfl)
  | cons record rest =>
    simp only [GapSafe, ht] at hsafe
    rw [World.drain]
    split
    · exact h.put_back hnone ht ok _ (.inl rfl)
    · next hbudget =>
      have hgood : gaps = [] ∨ ∃ built, w.examine b record gaps clock = .ok built ∧ (built = none → ok 0 = true) := by
        rcases hsafe with hnil | hspent | hbuilt
        · exact .inl hnil
        · exact absurd hspent hbudget
        · exact .inr hbuilt
      cases hex : w.examine b record gaps clock with
      | error e =>
        -- Nothing was taken, so that nothing is dropped.
        obtain rfl : gaps = [] := by
          rcases hgood with hnil | ⟨built, hbuilt, -⟩
          · exact hnil
          · cases hex.symm.trans hbuilt
        exact h.stop hnone (by rw [World.carried, ht])
      | ok built =>
        cases built with
        | none =>
          refine h.skip hnone ht (ok 0) ?_
          rcases hgood with hnil | ⟨built, hbuilt, hok⟩
          · exact .inl hnil
          · exact .inr (hok (Except.ok.inj (hbuilt.symm.trans hex)))
        | some made =>
          obtain ⟨frame, chain⟩ := made
          obtain ⟨-, -, -, -, -, hgap, -⟩ := World.examine_spec hex
          refine h.launch ht chain ?_
          rw [Frame.gap, hgap]
          cases gaps with
          | nil => rfl
          | cons cause rest => exact names_gap_block cause clock.now_ms

/-! ## The answer -/

section
variable {frame : Frame}

/-- While a frame waits for its answer, its losses are carried and its card writes the first of them. -/
theorem GapInv.awaited (h : GapInv initial w) (ht : w.pacer.tick = .Resending frame ∨ w.pacer.tick = .Sending frame) :
    w.carried = w.pacer.inflight_gaps ∧ frame.gap = w.pacer.inflight_gaps.head? := by
  rcases ht with ht | ht
  · exact ⟨by rw [World.carried, ht], h.flight frame (by rw [World.flying, ht])⟩
  · exact ⟨by rw [World.carried, ht], h.flight frame (by rw [World.flying, ht])⟩

/-- A rewind puts back what the frame in flight carries. -/
theorem GapInv.rewound (h : GapInv initial w) (hnone : w.pacer.inflight = none)
    (ht : w.pacer.tick = .Resending frame ∨ w.pacer.tick = .Sending frame) (issuer : IssuerIdx) (ok : Nat → Bool) :
    GapInv initial ((w.rewind issuer ok 0).stand .Between) := by
  refine ⟨h.accounted.of_count (fun cause => ?_), ?_⟩
  · rw [(h.awaited ht).1]
    simp [World.carried, hnone]
  · simp [World.flying, hnone]

theorem GapInv.held (h : GapInv initial w) (ht : w.pacer.tick = .Resending frame ∨ w.pacer.tick = .Sending frame) :
    GapInv initial ((w.hold frame).stand .Between) := by
  obtain ⟨hcarried, hgap⟩ := h.awaited ht
  refine ⟨h.accounted.of_count (fun cause => ?_), ?_⟩
  · rw [hcarried]
    simp [World.hold, World.carried]
  · simpa [World.hold, World.flying] using hgap

/-- A card with at most one loss writes what its frame carries. -/
theorem count_gap {gaps : List GapCause} (hgap : frame.gap = gaps.head?) (hlen : gaps.length ≤ 1) (cause : GapCause) :
    frame.gap.toList.count cause = gaps.count cause := by
  rcases gaps with _ | ⟨c, _ | ⟨d, rest⟩⟩
  · rw [hgap]; rfl
  · rw [hgap]; rfl
  · exact absurd hlen (by simp)

/-- An acknowledged card with at most one loss: what was carried is written. -/
theorem GapInv.acknowledged (h : GapInv initial w) (b : Setup) (hnone : w.pacer.inflight = none)
    (ht : w.pacer.tick = .Resending frame ∨ w.pacer.tick = .Sending frame) (persisted ok : Bool)
    (hlen : w.pacer.inflight_gaps.length ≤ 1) : GapInv initial ((w.acknowledge b frame persisted ok).stand .Between) := by
  obtain ⟨hcarried, hgap⟩ := h.awaited ht
  obtain ⟨hpending, hinflight, -, hmarked, hwritten⟩ := acknowledge_spec b w frame persisted ok
  refine ⟨h.accounted.of_count (fun cause => ?_), ?_⟩
  · have hcount := count_gap hgap hlen cause
    simp only [World.stand_spool, World.stand_log, hpending, hmarked, hwritten, hcarried, List.count_append]
    simp only [World.carried, World.stand_pacer, hinflight, hnone, Option.isSome_none, Bool.false_eq_true, if_false,
      List.count_nil]
    omega
  · simp [World.flying, hinflight, hnone]

theorem GapInv.reanswered (h : GapInv initial w) (b : Setup) (hnone : w.pacer.inflight = none)
    (ht : w.pacer.tick = .Resending frame) (answer : Except BridgeError OkOutcome) (persisted : Bool) (ok : Nat → Bool)
    (hsafe : GapSafe b w (.Answer answer persisted ok)) :
    GapInv initial ((w.reanswered b frame answer persisted ok).stand .Between) := by
  simp only [GapSafe, ht] at hsafe
  obtain ⟨hlen, hfail⟩ := hsafe
  cases answer with
  | ok outcome =>
    cases hs : outcome.is_success with
    | true =>
      simp only [World.reanswered, hs, if_true]
      exact h.acknowledged b hnone (.inl ht) persisted (ok 0) (hlen hs)
    | false =>
      simp only [World.reanswered, hs, Bool.false_eq_true, if_false]
      exact h.rewound hnone (.inl ht) frame.covers.1 ok
  | error e =>
    by_cases hto : e = .Ws .Timeout
    · subst hto
      exact h.held (.inl ht)
    · have hnil := hfail (failed_of_ne hto)
      rw [World.reanswered_error hto]
      refine ⟨h.accounted.of_count (fun cause => ?_), ?_⟩
      · simp [World.carried, ht, hnil, hnone, Effect.marked, Effect.written]
      · simp [World.flying, hnone]

theorem GapInv.answered (h : GapInv initial w) (b : Setup) (hnone : w.pacer.inflight = none)
    (ht : w.pacer.tick = .Sending frame) (answer : Except BridgeError OkOutcome) (persisted : Bool) (ok : Nat → Bool)
    (hsafe : GapSafe b w (.Answer answer persisted ok)) :
    GapInv initial ((w.answered b frame answer persisted ok).stand .Between) := by
  simp only [GapSafe, ht] at hsafe
  cases answer with
  | ok outcome =>
    cases hs : outcome.is_success with
    | true =>
      simp only [World.answered, hs, if_true]
      have hlen : w.pacer.inflight_gaps.length ≤ 1 := by
        rcases hsafe hs with hnil | ⟨hone, -⟩
        · rw [hnil]; exact Nat.zero_le 1
        · exact Nat.le_of_eq hone
      have hack := h.acknowledged b hnone (.inr ht) persisted (ok 0) hlen
      cases hok : ok 0 with
      | true => simpa [hok] using hack
      | false =>
        -- The commit failed and the frame is rewound: nothing comes back, for it carries nothing.
        have hnil : w.pacer.inflight_gaps = [] := by simpa [hok] using hsafe hs
        obtain ⟨-, hinflight, hgaps, -, -⟩ := acknowledge_spec b w frame persisted false
        rw [hok] at hack
        refine ⟨hack.accounted.of_count (fun cause => ?_), ?_⟩
        · simp [World.carried, hgaps, hnil]
        · simp [World.flying, hinflight, hnone]
    | false =>
      simp only [World.answered, hs, Bool.false_eq_true, if_false]
      exact h.rewound hnone (.inr ht) frame.covers.1 ok
  | error e =>
    by_cases hto : e = .Ws .Timeout
    · subst hto
      exact h.held (.inr ht)
    · rw [World.answered_error hto]
      exact h.rewound hnone (.inr ht) frame.covers.1 ok
end

/-! ## Runs -/

theorem GapInv.move (h : GapInv initial w) (ha : w.Alone) {b : Setup} {m : Move} {w' : World} (hm : Moves b w m w')
    (hsafe : GapSafe b w m) : GapInv initial w' := by
  cases hm.moved with
  | append hs =>
    exact h.mark _ [] w.log (by rw [w.spool.append_pending hs, List.append_nil]) (List.append_nil _).symm rfl
  | mark =>
    exact h.mark _ [_] _ (w.spool.mark_gap_pending _ _) (by simp [Effect.marked]) (by simp [Effect.written])
  | evict =>
    refine h.mark _ (w.spool.evicted _).toList _ (w.spool.evict_pending _ _) ?_ ?_
    · rw [marked_append, marked_append, (silent_evicted _).1, marked_marks, List.append_nil]
    · rw [written_append, written_append, (silent_evicted _).2, written_marks, List.append_nil, List.append_nil]
  | start ht => exact h.retry ht _ _
  | rewind ht => exact h.rewind ht _
  | peek ht => exact h.take_batch ha ht _ _
  | examine ht => exact h.drain ha ht _ hsafe
  | answered ht => exact h.answered b (ha.inflight_none (by rw [ht]; exact fun he => by cases he)) ht _ _ _ hsafe
  | reanswered ht => exact h.reanswered b (ha.inflight_none (by rw [ht]; exact fun he => by cases he)) ht _ _ _ hsafe
end

/-- A move that keeps the account. -/
def GapSafely (b : Setup) (w : World) (m : Move) (w' : World) : Prop := Moves b w m w' ∧ GapSafe b w m

/-- In every run whose moves are safe, a loss is at every moment as often pending, carried or written as it was
marked, whatever was pending at the start. -/
theorem no_loss_is_lost (b : Setup) (spool : EvidenceSpool) (heads : ChainHeadStore) {moves : List Move} {w : World}
    (h : Run (GapSafely b) { spool, heads } moves w) : Accounted spool.cursor.pending w := by
  have hinv : GapInv spool.cursor.pending w ∧ w.Alone := by
    refine h.inv (I := fun w => GapInv spool.cursor.pending w ∧ w.Alone)
      (fun w m w' _ hi hm => ⟨hi.1.move hi.2 hm.1 hm.2, hi.2.move hm.1⟩) ⟨⟨fun cause => ?_, ?_⟩, fun _ => rfl⟩
    · simp [marked, written, World.carried]
    · exact fun frame hf => by cases hf
  exact hinv.1.accounted

/-- One loss and one finding: the loss is written in the acknowledged card. -/
theorem no_loss_is_lost_written : ∃ w, Run (GapSafely Small.bridge) {}
    [.Mark (.BroadcastLagged 3) true, .Append (Small.record [1]), .Start 1000 true, .Peek true true, Small.look,
      Small.answer (.ok .Accepted)] w ∧
      written w.log = [.BroadcastLagged 3] ∧ w.spool.cursor.pending = [] ∧ Accounted [] w := by
  have hrun : ∃ w, Run (GapSafely Small.bridge) {}
      [.Mark (.BroadcastLagged 3) true, .Append (Small.record [1]), .Start 1000 true, .Peek true true, Small.look,
        Small.answer (.ok .Accepted)] w ∧ written w.log = [.BroadcastLagged 3] ∧ w.spool.cursor.pending = [] := by
    refine ⟨_, .cons ⟨rfl, trivial⟩ (.cons ⟨rfl, trivial⟩ (.cons ⟨rfl, trivial⟩ (.cons ⟨rfl, trivial⟩
      (.cons ⟨rfl, Or.inr (Or.inr ⟨_, rfl, fun h => by cases h⟩)⟩ (.cons ⟨rfl, fun _ => Or.inr ⟨rfl, rfl⟩⟩ .nil))))), ?_, ?_⟩
    · rfl
    · rfl
  obtain ⟨w, hw, hwritten, hpending⟩ := hrun
  exact ⟨w, hw, hwritten, hpending, no_loss_is_lost Small.bridge {} {} hw⟩

/-- Two losses and one finding: the second loss is neither pending nor carried nor written. -/
theorem second_loss_is_lost : ∃ w, Run (Moves Small.bridge) {}
    [.Mark (.BroadcastLagged 3) true, .Mark (.BroadcastLagged 5) true, .Append (Small.record [1]), .Start 1000 true,
      .Peek true true, Small.look, Small.answer (.ok .Accepted)] w ∧
      (marked w.log).count (.BroadcastLagged 5) = 1 ∧
      (w.spool.cursor.pending ++ w.carried ++ written w.log).count (.BroadcastLagged 5) = 0 ∧ ¬ Accounted [] w := by
  refine ⟨_, .cons rfl (.cons rfl (.cons rfl (.cons rfl (.cons rfl (.cons rfl (.cons rfl .nil)))))), ?_, ?_, fun h => ?_⟩
  · rfl
  · rfl
  · exact absurd (h (.BroadcastLagged 5)) (by decide)

end Ambush.Bridge

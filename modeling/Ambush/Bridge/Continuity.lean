import Ambush.Bridge.Numbering
import Ambush.Bridge.Postings
/-!
# Acknowledged cards across restarts

Three counters move together: the spool's number of a record, the chain in memory and the
head on disk. A card the relay acknowledged verifies against the one before it, and its
head is stored, while every number so far went out in a card, no resend of the issuer's
card failed, and the process started before the issuer's first card was acknowledged.
-/
open Lib

namespace Ambush.Bridge

/-- What becomes of the bridge: a move, or a new process in its place. -/
inductive Life where
  | Do (m : Move)
  | Restart

def Lives (b : Setup) (w : World) (l : Life) (w' : World) : Prop :=
  match l with
  | .Do m => Moves b w m w'
  | .Restart => w' = w.restart

/-! ## What a reader of the relay sees -/

def Effect.acknowledged : Effect → Option CardEnvelope
  | .Acknowledged frame => some frame.content.envelope
  | _ => none

/-- The last envelope acknowledged under an issuer's name. -/
def taken_as (issuer : String) (log : List Effect) : Option CardEnvelope :=
  ((log.filterMap Effect.acknowledged).filter (fun e => e.issuer = issuer)).getLast?

/-- Every acknowledged envelope continues the one before it, its head is accepted, and the file holds the last one. -/
structure Continuous (b : Setup) (w : World) : Prop where
  verified : ∀ before frame after, w.log = before ++ .Acknowledged frame :: after →
    ∃ verdict, verify_chain_link (frame.content.envelope.to_value b.wire)
      ((taken_as frame.content.envelope.issuer before).map CardEnvelope.head) = .ok verdict ∧ verdict.is_valid = true
  advanced : ∀ before frame after, w.log = before ++ .Acknowledged frame :: after →
    ∃ rest, after = .Advanced frame.content.envelope.head (.ok ()) :: rest
  stored : ∀ issuer, w.heads.stored issuer = (taken_as issuer w.log).map CardEnvelope.head

/-! ## When a card may be made -/

/-- No number of the issuer went anywhere but into a card, and no process started after its first card was taken. -/
structure Numbered (log : List Effect) (issuer : IssuerIdx) : Prop where
  skipped : ∀ r, .Skipped r ∈ log → r.issuer ≠ issuer
  evicted : ∀ r, .Evicted r ∈ log → r.issuer ≠ issuer
  restarted : ∀ before after, log = before ++ .Restarted :: after → last_taken (postings before) issuer = none

/-- No resend of the issuer's card failed in this process either. -/
structure Clean (log : List Effect) (issuer : IssuerIdx) : Prop extends Numbered log issuer where
  stranded : ∀ before frame after, log = before ++ .Stranded frame :: after → frame.identity = issuer → .Restarted ∈ after

/-- A card is made of an issuer with a clean past only, and an accepted answer has its commit and its head written. -/
def HeadSafe (b : Setup) (w : World) : Life → Prop
  | .Do m => (∀ issuer, Makes b w m issuer → Clean w.log issuer) ∧
    ∀ answer persisted ok, m = .Answer answer persisted ok → accepted answer → ok 0 = true ∧ persisted = true
  | .Restart => True

/-- A step that keeps the heads. -/
def HeadSafely (b : Setup) (w : World) (l : Life) (w' : World) : Prop := Lives b w l w' ∧ HeadSafe b w l

/-! ## Clean pasts -/

section
variable {log new : List Effect} {issuer : IssuerIdx}

theorem Numbered.of_append (h : Numbered (log ++ new) issuer) : Numbered log issuer := by
  refine ⟨fun r hr => h.skipped r (List.mem_append_left _ hr), fun r hr => h.evicted r (List.mem_append_left _ hr), ?_⟩
  rintro before after rfl
  exact h.restarted before (after ++ new) (by rw [List.append_assoc, List.cons_append])

/-- Within one process. -/
theorem Clean.of_append (h : Clean (log ++ new) issuer) (hnew : Effect.Restarted ∉ new) : Clean log issuer := by
  refine ⟨h.toNumbered.of_append, ?_⟩
  rintro before frame after rfl hid
  have hmem := h.stranded before frame (after ++ new) (by rw [List.append_assoc, List.cons_append]) hid
  exact (List.mem_append.1 hmem).resolve_right hnew
end

/-- The number of the last envelope acknowledged for an issuer. -/
def done (log : List Effect) (issuer : IssuerIdx) : Seq := ((last_taken (postings log) issuer).map (·.seq)).getD 0

/-! ## Issuers by name -/

/-- The name an identity signs envelopes under. -/
def Setup.issuer_of (b : Setup) (i : IssuerIdx) : Option String :=
  b.spine.bind (fun signer => (identity_at b.identities i).bind (fun identity => signer identity.slot.label))

/-- No two identities share a key. -/
def Setup.Distinct (b : Setup) : Prop := ∀ i j issuer, b.issuer_of i = some issuer → b.issuer_of j = some issuer → i = j

def Named (b : Setup) (frame : Frame) : Prop := b.issuer_of frame.identity = some frame.content.envelope.issuer

/-- What was acknowledged under a name is what was acknowledged for its identity. -/
theorem taken_as_eq {b : Setup} (hb : b.Distinct) {log : List Effect} (hnamed : ∀ frame, .Acknowledged frame ∈ log → Named b frame)
    {i : IssuerIdx} {issuer : String} (hi : b.issuer_of i = some issuer) : taken_as issuer log = last_taken (postings log) i := by
  rw [taken_as, last_taken, postings, List.filterMap_filterMap, List.filter_filterMap]
  refine congrArg List.getLast? (List.filterMap_congr (fun e he => ?_))
  cases e with
  | Acknowledged frame =>
    have hn := hnamed frame he
    simp only [Effect.acknowledged, Effect.posting, Option.bind_some, Posting.taken]
    by_cases hf : frame.identity = i
    · subst hf
      have hsame : frame.content.envelope.issuer = issuer := Option.some.inj (hn.symm.trans hi)
      rw [if_pos rfl, Option.filter_some, if_pos (decide_eq_true hsame)]
    · have hother : frame.content.envelope.issuer ≠ issuer := fun h => hf (hb _ _ _ (h ▸ hn) hi)
      rw [if_neg hf, Option.filter_some, if_neg (by simpa using hother)]
  | _ => rfl

/-! ## The invariant -/

/-- What is known of a frame that waits for its answer: it is the issuer's next. -/
structure Flight (b : Setup) (w : World) (frame : Frame) : Prop where
  named : Named b frame
  covers : frame.covers.2 = frame.content.envelope.seq
  next : frame.content.envelope.seq = done w.log frame.identity + 1
  issued : frame.content.envelope.seq < w.spool.next_seq frame.identity
  bounded : frame.content.envelope.seq < 18446744073709551616

/-- The first record of an issuer in a batch is its next. -/
def Ready (w : World) (records : List Record) : Prop := ∀ i, Numbered w.log i → ∀ r,
  records.find? (fun r => r.issuer = i) = some r → r.seq = done w.log i + 1 ∧ done w.log i + 1 < w.spool.next_seq i

structure HeadInv (b : Setup) (w : World) : Prop where
  alone : w.Alone
  chains : ChainInv (Clean w.log) w
  rows : ∀ i, Numbered w.log i → w.spool.Contiguous i (done w.log i)
  batch : ∀ now_ms skipped records gaps, w.pacer.tick = .Batch now_ms skipped records gaps → Ready w records
  flight : ∀ frame, w.flying = some frame → Flight b w frame
  named : ∀ frame, .Acknowledged frame ∈ w.log → Named b frame
  heads : ∀ issuer, w.heads.heads issuer = (taken_as issuer w.log).map CardEnvelope.head
  continuous : Continuous b w

theorem headInv_start (b : Setup) : HeadInv b {} where
  alone := fun _ => rfl
  chains := ⟨linked_nil, fun _ _ _ => rfl, fun _ h => (by cases h), fun _ h => (by cases h)⟩
  rows := fun i _ => ⟨⟨0, rfl, rfl⟩, (by omega : 1 < 18446744073709551616), fun r hr => (by cases hr), rfl, rfl, le_refl _⟩
  batch := fun _ _ _ _ h => by cases h
  flight := fun _ h => by cases h
  named := fun _ h => by cases h
  heads := fun _ => rfl
  continuous := ⟨fun _ _ _ h => by simp at h, fun _ _ _ h => by simp at h, fun _ => rfl⟩

/-! ## Moves without an acknowledged card -/

/-- An effect of one process that is no acknowledged card. -/
def Effect.plain : Effect → Bool
  | .Acknowledged _ | .Restarted => false
  | _ => true

/-- What such a move does to the log, the heads and the numbers. -/
structure Quiet (w w' : World) (new : List Effect) : Prop where
  log : w'.log = w.log ++ new
  plain : ∀ e ∈ new, e.plain = true
  heads : w'.heads = w.heads
  next : ∀ i, w.spool.next_seq i ≤ w'.spool.next_seq i
  rows : ∀ i d, Numbered w'.log i → w.spool.Contiguous i d → w'.spool.Contiguous i d

section
variable {w w' : World} {new : List Effect}

theorem Quiet.numbered (h : Quiet w w' new) {i : IssuerIdx} (hi : Numbered w'.log i) : Numbered w.log i :=
  (h.log ▸ hi : Numbered (w.log ++ new) i).of_append

theorem plain_last_taken {log new : List Effect} (h : ∀ e ∈ new, e.plain = true) (i : IssuerIdx) :
    last_taken (postings (log ++ new)) i = last_taken (postings log) i := by
  have hnil : (postings new).filterMap (Posting.taken i) = [] := by
    refine List.filterMap_eq_nil_iff.2 (fun p hp => ?_)
    obtain ⟨e, he, hep⟩ := List.mem_filterMap.1 hp
    have hplain := h e he
    cases e with
    | Sealed frame =>
      obtain rfl := Option.some.inj hep
      rfl
    | Acknowledged frame => cases hplain
    | _ => cases hep
  rw [last_taken, postings_append, List.filterMap_append, hnil, List.append_nil, last_taken]

theorem plain_taken_as {log new : List Effect} (h : ∀ e ∈ new, e.plain = true) (issuer : String) :
    taken_as issuer (log ++ new) = taken_as issuer log := by
  have hnil : new.filterMap Effect.acknowledged = [] := by
    refine List.filterMap_eq_nil_iff.2 (fun e he => ?_)
    have hplain := h e he
    cases e with
    | Acknowledged frame => cases hplain
    | _ => rfl
  rw [taken_as, List.filterMap_append, hnil, List.append_nil, taken_as]

theorem Quiet.done (h : Quiet w w' new) (i : IssuerIdx) : done w'.log i = done w.log i := by
  rw [Bridge.done, Bridge.done, h.log, plain_last_taken h.plain]

/-- An acknowledged card of the longer log is one of the shorter. -/
theorem Quiet.split (h : Quiet w w' new) {before after : List Effect} {frame : Frame}
    (heq : w'.log = before ++ .Acknowledged frame :: after) :
    ∃ after', w.log = before ++ .Acknowledged frame :: after' ∧ after = after' ++ new := by
  rw [h.log] at heq
  rcases List.append_eq_append_iff.1 heq with ⟨front, hbefore, hnew⟩ | ⟨front, hlog, hafter⟩
  · refine absurd (h.plain (.Acknowledged frame) ?_) (by simp [Effect.plain])
    rw [hnew]
    simp
  · cases front with
    | nil =>
      refine absurd (h.plain (.Acknowledged frame) ?_) (by simp [Effect.plain])
      rw [List.nil_append] at hafter
      rw [← hafter]
      simp
    | cons e front =>
      obtain ⟨rfl, rfl⟩ := List.cons.inj hafter
      exact ⟨front, hlog, rfl⟩

theorem Quiet.continuous {b : Setup} (h : Quiet w w' new) (hc : Continuous b w) : Continuous b w' where
  verified := by
    intro before frame after heq
    obtain ⟨after', hlog, -⟩ := h.split heq
    exact hc.verified before frame after' hlog
  advanced := by
    intro before frame after heq
    obtain ⟨after', hlog, rfl⟩ := h.split heq
    obtain ⟨rest, rfl⟩ := hc.advanced before frame after' hlog
    exact ⟨rest ++ new, rfl⟩
  stored := by
    intro issuer
    rw [h.heads, h.log, plain_taken_as h.plain]
    exact hc.stored issuer

theorem HeadInv.quiet {b : Setup} (h : HeadInv b w) (hq : Quiet w w' new) (ha : w'.Alone) (hc : ChainInv (Clean w'.log) w')
    (hb : ∀ now_ms skipped records gaps, w'.pacer.tick = .Batch now_ms skipped records gaps →
      ∀ i, Numbered w'.log i → ∀ r, records.find? (fun r => r.issuer = i) = some r →
        r.seq = done w.log i + 1 ∧ done w.log i + 1 < w.spool.next_seq i)
    (hf : ∀ frame, w'.flying = some frame → Flight b w frame) : HeadInv b w' where
  alone := ha
  chains := hc
  rows := fun i hi => by
    rw [hq.done]
    exact hq.rows i _ hi (h.rows i (hq.numbered hi))
  batch := fun now_ms skipped records gaps ht i hi r hr => by
    obtain ⟨hseq, hlt⟩ := hb now_ms skipped records gaps ht i hi r hr
    rw [hq.done]
    exact ⟨hseq, hlt.trans_le (hq.next i)⟩
  flight := fun frame hfr => by
    obtain ⟨hn, hcov, hnext, hissued, hbound⟩ := hf frame hfr
    exact ⟨hn, hcov, by rw [hq.done]; exact hnext, hissued.trans_le (hq.next _), hbound⟩
  named := fun frame hfr => by
    rw [hq.log] at hfr
    rcases List.mem_append.1 hfr with hfr | hfr
    · exact h.named frame hfr
    · cases hq.plain _ hfr
  heads := fun issuer => by
    rw [hq.heads, hq.log, plain_taken_as hq.plain]
    exact h.heads issuer
  continuous := hq.continuous h.continuous
end

/-! ## One move -/

section
variable {b : Setup} {w w' : World}

theorem Quiet.of_steady {new : List Effect} (hl : w'.log = w.log ++ new) (hp : ∀ e ∈ new, e.plain = true)
    (hh : w'.heads = w.heads) (hs : w.spool.Steady w'.spool) : Quiet w w' new :=
  ⟨hl, hp, hh, fun i => (hs.next i).ge, fun i d _ => hs.rows i d⟩

/-- A tick that holds no batch and no frame after the move. -/
theorem HeadInv.idle {new : List Effect} (h : HeadInv b w) (hq : Quiet w w' new) (ha : w'.Alone)
    (hc : ChainInv (Clean w'.log) w') (hb : ∀ now_ms skipped records gaps, w'.pacer.tick ≠ .Batch now_ms skipped records gaps)
    (hf : ∀ frame, w'.flying = some frame → w.flying = some frame) : HeadInv b w' :=
  h.quiet hq ha hc (fun _ _ _ _ ht => absurd ht (hb _ _ _ _)) (fun frame hfr => h.flight frame (hf frame hfr))

/-- Another task's move. -/
theorem HeadInv.aside {new : List Effect} (h : HeadInv b w) (hq : Quiet w w' new) (ha : w'.Alone)
    (hc : ChainInv (Clean w'.log) w') (hp : w'.pacer = w.pacer) : HeadInv b w' := by
  refine h.quiet hq ha hc (fun now_ms skipped records gaps ht i hi => ?_) (fun frame hfr => h.flight frame ?_)
  · rw [hp] at ht
    exact h.batch now_ms skipped records gaps ht i (hq.numbered hi)
  · rw [World.flying, hp] at hfr
    exact hfr

theorem HeadInv.evict (h : HeadInv b w) {count : Nat} {ok : Bool} (hm : Moves b w (.Evict count ok) w')
    (hw : w' = { w with
      spool := w.spool.evict count ok
      log := w.log ++ ((w.spool.records.take count).filter (fun r => ¬ w.spool.is_committed r)).map .Evicted ++
        (w.spool.evicted count).toList.map .Marked }) (hc : ChainInv (Clean w'.log) w') : HeadInv b w' := by
  have hq : Quiet w w' (((w.spool.records.take count).filter (fun r => ¬ w.spool.is_committed r)).map .Evicted ++
      (w.spool.evicted count).toList.map .Marked) := by
    subst hw
    refine ⟨List.append_assoc _ _ _, fun e he => ?_, rfl, fun i => (w.spool.evict_next_seq count ok i).ge, fun i d hi hr => ?_⟩
    · rcases List.mem_append.1 he with he | he
      · obtain ⟨r, -, rfl⟩ := List.mem_map.1 he
        rfl
      · obtain ⟨c, -, rfl⟩ := List.mem_map.1 he
        rfl
    · refine hr.evict (fun r hmem hcom => hi.evicted r ?_) ok
      refine List.mem_append_left _ (List.mem_append_right _ (List.mem_map_of_mem (List.mem_filter.2 ⟨hmem, ?_⟩)))
      simp [hcom]
  exact h.aside hq (h.alone.move hm) hc (by rw [hw])

theorem HeadInv.retry (h : HeadInv b w) (ht : w.pacer.tick = .Between) (now_ms : Int) (ok : Bool)
    (ha : (w.retry now_ms ok).Alone) (hc : ChainInv (Clean (w.retry now_ms ok).log) (w.retry now_ms ok)) :
    HeadInv b (w.retry now_ms ok) := by
  cases hf : w.pacer.inflight with
  | none =>
    have hq : Quiet w (w.retry now_ms ok) [] := by
      refine .of_steady ?_ (fun e he => by cases he) ?_ ?_ <;> simp [World.retry, hf, EvidenceSpool.Steady.refl]
    refine h.idle hq ha hc ?_ ?_ <;> simp [World.retry, hf, World.flying]
  | some frame =>
    cases hd : retry_decision frame (now_ms.tdiv 1000) with
    | ResendIdentical =>
      have hq : Quiet w (w.retry now_ms ok) [] := by
        refine .of_steady ?_ (fun e he => by cases he) ?_ ?_ <;> simp [World.retry, hf, hd, EvidenceSpool.Steady.refl]
      refine h.idle hq ha hc ?_ ?_ <;> simp [World.retry, hf, hd, World.flying, ht]
    | RestampFromSpool =>
      have hq : Quiet w (w.retry now_ms ok) [.Marked (.PublishWindowExpired frame.covers.2 frame.covers.2)] := by
        refine .of_steady ?_ ?_ ?_ ?_ <;>
          simp [World.retry, hf, hd, Effect.plain, EvidenceSpool.steady_mark_gap]
      refine h.idle hq ha hc ?_ ?_ <;> simp [World.retry, hf, hd, World.flying]

theorem HeadInv.take_batch (h : HeadInv b w) {now_ms : Int} {skipped : Nat} (ht : w.pacer.tick = .Draining now_ms skipped)
    (readable ok : Bool) (ha : (w.take_batch now_ms skipped readable ok).Alone)
    (hc : ChainInv (Clean (w.take_batch now_ms skipped readable ok).log) (w.take_batch now_ms skipped readable ok)) :
    HeadInv b (w.take_batch now_ms skipped readable ok) := by
  have hnone := h.alone.inflight_none (by rw [ht]; exact fun he => by cases he)
  have hstop : ChainInv (Clean (w.stand .Between).log) (w.stand .Between) → HeadInv b (w.stand .Between) := by
    intro hc
    refine h.idle (.of_steady (List.append_nil _).symm (fun e he => by cases he) rfl (.refl _)) (fun _ => rfl) hc ?_ ?_ <;>
      simp [World.flying, hnone]
  by_cases hr : readable = true
  · by_cases hrec : w.spool.peek PERCH_FRAME_MAX_BYTES = []
    · simp only [World.take_batch, hr, if_true, hrec] at hc ⊢
      exact hstop hc
    · have hq : Quiet w (w.take_batch now_ms skipped readable ok) [] := by
        refine .of_steady ?_ (fun e he => by cases he) ?_ ?_ <;>
          simp [World.take_batch, hr, hrec, EvidenceSpool.steady_take_gaps]
      refine h.quiet hq ha hc (fun now skip records gaps htick i hi r hfind => ?_) ?_
      · simp only [World.take_batch, hr, if_true, hrec, if_false, World.stand_pacer, Tick.Batch.injEq] at htick
        obtain ⟨-, -, rfl, -⟩ := htick
        exact (h.rows i (hq.numbered hi)).peek hfind
      · simp [World.take_batch, hr, hrec, World.flying]
  · simp only [World.take_batch, hr] at hc ⊢
    exact hstop hc

/-- The head of a batch, when a card is made of it. -/
theorem HeadInv.launch (h : HeadInv b w) (hspine : b.spine.isSome) {clock : Clock} {skipped : Nat} {record : Record}
    {rest : List Record} {gaps : List GapCause} (ht : w.pacer.tick = .Batch clock.now_ms skipped (record :: rest) gaps)
    {frame : Frame} {chain : SeqChain} (hex : w.examine b record gaps clock = .ok (some (frame, chain)))
    (hi : Clean w.log record.issuer) (ha : (w.launch frame chain gaps).Alone)
    (hc : ChainInv (Clean (w.launch frame chain gaps).log) (w.launch frame chain gaps)) :
    HeadInv b (w.launch frame chain gaps) := by
  obtain ⟨hid, hcovers, -, hseq, -, -, identity, hidentity, hsigner⟩ := World.examine_spec hex
  obtain ⟨hnext, hissued⟩ := h.batch _ _ _ _ ht record.issuer hi.toNumbered record (List.find?_cons_of_pos (by simp))
  have hq : Quiet w (w.launch frame chain gaps) [.Sealed frame] := by
    refine .of_steady rfl ?_ rfl (.refl _)
    simp [Effect.plain]
  refine h.quiet hq ha hc ?_ (fun f hf => ?_)
  · simp [World.launch]
  · obtain rfl : frame = f := Option.some.inj hf
    refine ⟨?_, by rw [hcovers, hseq], by rw [hseq, hid]; exact hnext, by rw [hseq, hid, hnext]; exact hissued, ?_⟩
    · obtain ⟨signer, hs⟩ := Option.isSome_iff_exists.1 hspine
      rw [Named, Setup.issuer_of, hs, hid, Option.bind_some, hidentity, Option.bind_some]
      exact hsigner signer hs
    · rw [hseq, hnext]
      exact hissued.trans (h.rows _ hi.toNumbered).bounded

/-- A record no card is made of: its issuer's numbers are broken from here on. -/
theorem HeadInv.skip (h : HeadInv b w) {now_ms : Int} {skipped : Nat} {record : Record} {rest : List Record}
    {gaps : List GapCause} (ht : w.pacer.tick = .Batch now_ms skipped (record :: rest) gaps) (ok : Bool)
    (ha : (w.skip now_ms skipped record rest gaps ok).Alone)
    (hc : ChainInv (Clean (w.skip now_ms skipped record rest gaps ok).log) (w.skip now_ms skipped record rest gaps ok)) :
    HeadInv b (w.skip now_ms skipped record rest gaps ok) := by
  have hnone := h.alone.inflight_none (by rw [ht]; exact fun he => by cases he)
  have hother : ∀ i, Numbered (w.skip now_ms skipped record rest gaps ok).log i → record.issuer ≠ i :=
    fun i hi => hi.skipped record (List.mem_append_right _ (List.mem_singleton.2 rfl))
  have hq : Quiet w (w.skip now_ms skipped record rest gaps ok) [.Skipped record] := by
    refine ⟨rfl, ?_, rfl, fun i => (w.spool.commit_next_seq _ _ _ i).ge, fun i d hi hr => ?_⟩
    · simp [Effect.plain]
    · exact hr.commit_other (Ne.symm (hother i hi)) record.seq ok
  refine h.quiet hq ha hc (fun now skip records gaps' htick i hi r hfind => ?_) (fun frame hf => ?_)
  · cases ok with
    | false => cases htick
    | true =>
      simp only [World.skip, if_true, World.stand_pacer, Tick.Batch.injEq] at htick
      obtain ⟨-, -, rfl, -⟩ := htick
      refine h.batch _ _ _ _ ht i (hq.numbered hi) r ?_
      rw [List.find?_cons_of_neg (by simpa using hother i hi)]
      exact hfind
  · cases ok with
    | false => simp [World.skip, World.flying, hnone] at hf
    | true => cases hf

theorem HeadInv.drain (h : HeadInv b w) (hspine : b.spine.isSome) {clock : Clock} {skipped : Nat} {records : List Record}
    {gaps : List GapCause} (ht : w.pacer.tick = .Batch clock.now_ms skipped records gaps) (ok : Nat → Bool)
    (hs : ∀ issuer, Makes b w (.Examine clock.issued_at clock.now_rfc3339 ok) issuer → Clean w.log issuer)
    (ha : (w.drain b clock skipped records gaps ok).Alone)
    (hc : ChainInv (Clean (w.drain b clock skipped records gaps ok).log) (w.drain b clock skipped records gaps ok)) :
    HeadInv b (w.drain b clock skipped records gaps ok) := by
  have hnone := h.alone.inflight_none (by rw [ht]; exact fun he => by cases he)
  have hrestore : ∀ tick, Quiet w ((w.restore_gaps ok 0 gaps).stand tick) [] := fun tick =>
    .of_steady (List.append_nil _).symm (fun e he => by cases he) rfl (w.spool.steady_mark_gaps ok 0 gaps)
  cases records with
  | nil => refine h.idle (hrestore _) ha hc ?_ ?_ <;> simp [World.drain, World.flying]
  | cons record rest =>
    rw [World.drain] at ha hc ⊢
    split at ha
    · next hbudget =>
      rw [if_pos hbudget] at hc ⊢
      refine h.idle (hrestore _) ha hc ?_ ?_ <;> simp [World.flying, hnone]
    · next hbudget =>
      rw [if_neg hbudget] at hc ⊢
      cases hex : w.examine b record gaps clock with
      | error e =>
        rw [hex] at ha hc
        have hq : Quiet w (w.stand .Between) [] :=
          .of_steady (List.append_nil _).symm (fun e he => by cases he) rfl (.refl _)
        refine h.idle hq ha hc ?_ ?_ <;> simp [World.flying, hnone]
      | ok built =>
        rw [hex] at ha hc
        cases built with
        | none => exact h.skip ht (ok 0) ha hc
        | some made =>
          refine h.launch hspine ht hex (hs record.issuer ?_) ha hc
          simp only [Makes, ht]
          exact ⟨hbudget, ⟨made, hex⟩, trivial⟩

/-! ## The answer -/

section
variable {frame : Frame}

theorem HeadInv.put_back (h : HeadInv b w) (hnone : w.pacer.inflight = none) (ok : Nat → Bool) (n : Nat) (tick : Tick)
    (htick : tick = .Between ∨ ∃ now_ms skipped, tick = .Draining now_ms skipped) (issuer : IssuerIdx)
    (ha : ((w.rewind issuer ok n).stand tick).Alone)
    (hc : ChainInv (Clean ((w.rewind issuer ok n).stand tick).log) ((w.rewind issuer ok n).stand tick)) :
    HeadInv b ((w.rewind issuer ok n).stand tick) := by
  have hq : Quiet w ((w.rewind issuer ok n).stand tick) [] :=
    .of_steady (List.append_nil _).symm (fun e he => by cases he) rfl (w.spool.steady_mark_gaps ok n _)
  rcases htick with rfl | ⟨now_ms, skipped, rfl⟩
  · refine h.idle hq ha hc ?_ ?_ <;> simp [World.flying, hnone]
  · refine h.idle hq ha hc ?_ ?_ <;> simp [World.flying]

theorem HeadInv.held (h : HeadInv b w) (hf : w.flying = some frame) (ha : ((w.hold frame).stand .Between).Alone)
    (hc : ChainInv (Clean ((w.hold frame).stand .Between).log) ((w.hold frame).stand .Between)) :
    HeadInv b ((w.hold frame).stand .Between) := by
  have hq : Quiet w ((w.hold frame).stand .Between) [] :=
    .of_steady (List.append_nil _).symm (fun e he => by cases he) rfl (.refl _)
  refine h.idle hq ha hc (fun _ _ _ _ he => by cases he) (fun f hfr => ?_)
  rw [hf]
  exact hfr

theorem HeadInv.stranded (h : HeadInv b w) (hnone : w.pacer.inflight = none)
    (ha : ((w.note (.Stranded frame)).stand .Between).Alone)
    (hc : ChainInv (Clean ((w.note (.Stranded frame)).stand .Between).log) ((w.note (.Stranded frame)).stand .Between)) :
    HeadInv b ((w.note (.Stranded frame)).stand .Between) := by
  have hq : Quiet w ((w.note (.Stranded frame)).stand .Between) [.Stranded frame] := by
    refine .of_steady rfl ?_ rfl (.refl _)
    simp [Effect.plain]
  refine h.idle hq ha hc ?_ ?_ <;> simp [World.flying, hnone]

/-- The head of the frame in flight. -/
theorem HeadInv.chain_head (h : HeadInv b w) (hf : w.flying = some frame) (spool : EvidenceSpool) (e : Effect) :
    ({ w with spool }.note e).chain_head b frame.covers.1 frame.covers.2 = some frame.content.envelope.head := by
  obtain ⟨hn, hcovers, -, -, -⟩ := h.flight frame hf
  obtain ⟨hid, hchain, -⟩ := h.chains.flight frame hf
  rw [Named, Setup.issuer_of] at hn
  obtain ⟨signer, hs, hn⟩ := Option.bind_eq_some_iff.1 hn
  obtain ⟨identity, hidentity, hissuer⟩ := Option.bind_eq_some_iff.1 hn
  have hhash : (w.pacer.chains frame.identity).bind (·.prev_envelope_hash) = some frame.content.envelope.envelope_hash := by
    rw [World.chain] at hchain
    cases hch : w.pacer.chains frame.identity with
    | none => rw [hch] at hchain; cases hchain
    | some chain => rw [hch] at hchain; exact hchain
  rw [World.chain_head, hid, hs, hidentity, World.note_pacer, hhash, hcovers]
  simp [SpineSigner.issuer, hissuer, CardEnvelope.head]

/-- The number after the last one acknowledged is the one the store expects. -/
theorem HeadInv.expected (h : HeadInv b w) (hb : b.Distinct) (hf : w.flying = some frame) :
    frame.content.envelope.head.seq =
      ((w.heads.heads frame.content.envelope.head.issuer).map (fun stored => stored.seq + 1)).getD 1 := by
  obtain ⟨hn, -, hnext, -, -⟩ := h.flight frame hf
  show frame.content.envelope.seq = _
  rw [hnext, done, h.heads, CardEnvelope.head, taken_as_eq hb h.named hn]
  cases last_taken (postings w.log) frame.identity with
  | none => rfl
  | some e => rfl

/-- The frame in flight continues the last envelope acknowledged under its issuer's name. -/
theorem HeadInv.verifies (h : HeadInv b w) (hb : b.Distinct) (hf : w.flying = some frame) :
    ∃ verdict, verify_chain_link (frame.content.envelope.to_value b.wire)
      ((taken_as frame.content.envelope.issuer w.log).map CardEnvelope.head) = .ok verdict ∧ verdict.is_valid = true := by
  obtain ⟨hn, -, hnext, -, hbound⟩ := h.flight frame hf
  obtain ⟨-, -, hprev⟩ := h.chains.flight frame hf
  have heq := taken_as_eq hb h.named hn
  rw [last_hash] at hprev
  rw [done] at hnext
  cases hlast : last_taken (postings w.log) frame.identity with
  | none =>
    rw [hlast] at hprev hnext
    rw [heq, hlast]
    exact ⟨_, verify_first b.wire hnext hprev, rfl⟩
  | some e =>
    rw [hlast] at hprev hnext
    have hissuer : e.issuer = frame.content.envelope.issuer := by
      rw [hlast, taken_as] at heq
      exact of_decide_eq_true (List.mem_filter.1 (List.mem_of_getLast? heq)).2
    rw [heq, hlast]
    exact ⟨_, verify_next b.wire hissuer.symm hnext hbound hprev, rfl⟩

theorem split_acknowledged {log before after : List Effect} {f : Frame} {e : Effect} (he : e.plain = true)
    (h : log ++ [.Acknowledged frame, e] = before ++ .Acknowledged f :: after) :
    (∃ after', log = before ++ .Acknowledged f :: after' ∧ after = after' ++ [.Acknowledged frame, e]) ∨
      (before = log ∧ f = frame ∧ after = [e]) := by
  rcases List.append_eq_append_iff.1 h with ⟨front, hbefore, hnew⟩ | ⟨front, hlog, hafter⟩
  · rcases front with _ | ⟨x, _ | ⟨y, front⟩⟩
    · obtain ⟨hf, rfl⟩ := List.cons.inj hnew
      rw [List.append_nil] at hbefore
      exact .inr ⟨hbefore, (Effect.Acknowledged.inj hf).symm, rfl⟩
    · obtain ⟨-, hnew⟩ := List.cons.inj hnew
      obtain ⟨rfl, -⟩ := List.cons.inj hnew
      cases he
    · obtain ⟨-, hnew⟩ := List.cons.inj hnew
      obtain ⟨-, hnew⟩ := List.cons.inj hnew
      simp at hnew
  · rcases front with _ | ⟨x, front⟩
    · obtain ⟨hf, rfl⟩ := List.cons.inj hafter
      rw [List.append_nil] at hlog
      exact .inr ⟨hlog.symm, Effect.Acknowledged.inj hf, rfl⟩
    · obtain ⟨rfl, rfl⟩ := List.cons.inj hafter
      exact .inl ⟨front, hlog, rfl⟩

/-- Commit and head of the frame in flight are written. -/
theorem HeadInv.acknowledge (h : HeadInv b w) (hb : b.Distinct) (hf : w.flying = some frame) :
    (w.acknowledge b frame true true).log =
        w.log ++ [.Acknowledged frame, .Advanced frame.content.envelope.head (.ok ())] ∧
      (∀ issuer, (w.acknowledge b frame true true).heads.heads issuer =
        if issuer = frame.content.envelope.issuer then some frame.content.envelope.head else w.heads.heads issuer) ∧
      (w.acknowledge b frame true true).heads.stored = (w.acknowledge b frame true true).heads.heads ∧
      (w.acknowledge b frame true true).spool = w.spool.commit frame.identity frame.content.envelope.seq true := by
  have hcovers := (h.flight frame hf).covers
  obtain ⟨hid, -, -⟩ := h.chains.flight frame hf
  have hhead := h.chain_head hf (w.spool.commit frame.covers.1 frame.covers.2 true) (.Acknowledged frame)
  have hadvance := ChainHeadStore.advance_next (h.expected hb hf)
  refine ⟨?_, fun issuer => ?_, ?_, ?_⟩
  · simp [World.acknowledge, World.commit_chain_head, hhead, hadvance]
  · simp only [World.acknowledge, World.commit_chain_head, hhead, World.note_heads, hadvance, if_true, Map.insert_apply]
    rfl
  · simp [World.acknowledge, World.commit_chain_head, hhead, hadvance]
  · simp [World.acknowledge, hid, hcovers]

/-- A card more under its issuer's name. -/
theorem taken_as_acknowledged (log : List Effect) (frame : Frame) (head : IssuerChainHead) (result : Except BridgeError Unit)
    (issuer : String) : taken_as issuer (log ++ [.Acknowledged frame, .Advanced head result]) =
      if issuer = frame.content.envelope.issuer then some frame.content.envelope else taken_as issuer log := by
  have hnew : List.filterMap Effect.acknowledged [.Acknowledged frame, .Advanced head result] = [frame.content.envelope] := rfl
  rw [taken_as, List.filterMap_append, hnew, List.filter_append]
  by_cases hi : issuer = frame.content.envelope.issuer
  · simp [hi]
  · simp [hi, Ne.symm hi, taken_as]

/-- The relay took the frame in flight. -/
theorem HeadInv.taken (h : HeadInv b w) (hb : b.Distinct) (hf : w.flying = some frame) (hnone : w.pacer.inflight = none)
    (hc : ChainInv (Clean ((w.acknowledge b frame true true).stand .Between).log)
      ((w.acknowledge b frame true true).stand .Between)) :
    HeadInv b ((w.acknowledge b frame true true).stand .Between) := by
  obtain ⟨hn, hcovers, hnext, hissued, hbound⟩ := h.flight frame hf
  have hinflight : (w.acknowledge b frame true true).pacer.inflight = none := by
    simp [World.acknowledge, hnone]
  have hposted := acknowledge_postings b w frame true true
  obtain ⟨hlog, hheads, hfile, hspool⟩ := h.acknowledge hb hf
  generalize w.acknowledge b frame true true = w' at *
  have hdone : ∀ i, done w'.log i = if frame.identity = i then frame.content.envelope.seq else done w.log i := by
    intro i
    rw [done, hposted, last_taken_acknowledged]
    split <;> rfl
  have hstored : ∀ issuer, w'.heads.heads issuer = (taken_as issuer w'.log).map CardEnvelope.head := by
    intro issuer
    rw [hheads, hlog, taken_as_acknowledged]
    split
    · rfl
    · exact h.heads issuer
  refine ⟨fun _ => rfl, hc, fun i hi => ?_, fun _ _ _ _ ht => (by cases ht), fun f hfr => ?_, fun f hfr => ?_, hstored,
    ?_, ?_, ?_⟩
  · have hi' : Numbered w.log i := (hlog ▸ hi : Numbered (w.log ++ _) i).of_append
    have hrow := h.rows i hi'
    rw [World.stand_log, World.stand_spool, hdone, hspool]
    by_cases heq : frame.identity = i
    · subst heq
      rw [if_pos rfl, hnext]
      exact hrow.commit (hnext ▸ hissued)
    · rw [if_neg heq]
      exact hrow.commit_other (Ne.symm heq) _ _
  · rw [World.flying] at hfr
    cases hinflight.symm.trans hfr
  · rw [World.stand_log, hlog] at hfr
    rcases List.mem_append.1 hfr with hfr | hfr
    · exact h.named f hfr
    · simp only [List.mem_cons, Effect.Acknowledged.injEq, reduceCtorEq, List.not_mem_nil, or_false] at hfr
      exact hfr ▸ hn
  · intro before f after heq
    rw [World.stand_log, hlog] at heq
    rcases split_acknowledged rfl heq with ⟨after', hold, -⟩ | ⟨rfl, rfl, -⟩
    · exact h.continuous.verified before f after' hold
    · exact h.verifies hb hf
  · intro before f after heq
    rw [World.stand_log, hlog] at heq
    rcases split_acknowledged rfl heq with ⟨after', hold, rfl⟩ | ⟨-, rfl, rfl⟩
    · obtain ⟨rest, rfl⟩ := h.continuous.advanced before f after' hold
      exact ⟨_, rfl⟩
    · exact ⟨[], rfl⟩
  · intro issuer
    rw [World.stand_heads, World.stand_log, hfile]
    exact hstored issuer
end

/-- A resend that fails leaves its mark in the log. -/
theorem Strands.log {m : Move} {i : IssuerIdx} (hs : Strands w m i) (hm : Moves b w m w') :
    ∃ frame, frame.identity = i ∧ w'.log = w.log ++ [.Stranded frame] := by
  obtain ⟨frame, answer, persisted, ok, ht, rfl, hfailed, hid⟩ := hs.cases
  refine ⟨frame, hid, ?_⟩
  have hw : (w.reanswered b frame answer persisted ok).stand .Between = w' := by
    rw [Moves, World.move, ht] at hm
    exact Option.some.inj hm
  cases answer with
  | ok outcome => cases hfailed
  | error e =>
    have hne : e ≠ .Ws .Timeout := by
      rintro rfl
      cases hfailed
    rw [← hw, World.reanswered_error hne]
    rfl

/-- Within one process a log only grows. -/
def Grows (w w' : World) : Prop := ∃ new, w'.log = w.log ++ new ∧ Effect.Restarted ∉ new

theorem Grows.same (h : w'.log = w.log) : Grows w w' := ⟨[], by rw [h, List.append_nil], fun he => by cases he⟩

theorem Grows.one {e : Effect} (h : w'.log = w.log ++ [e]) (he : e ≠ .Restarted) : Grows w w' :=
  ⟨[e], h, fun hmem => he (List.mem_singleton.1 hmem).symm⟩

theorem grows_acknowledge (b : Setup) (w : World) (frame : Frame) (persisted ok : Bool) :
    Grows w (w.acknowledge b frame persisted ok) := by
  cases ok with
  | false => exact .one rfl (fun he => by cases he)
  | true =>
    obtain ⟨advanced, hadv⟩ := World.commit_chain_head_log b
      ({ w with spool := w.spool.commit frame.covers.1 frame.covers.2 true }.note (.Acknowledged frame))
      frame.covers.1 frame.covers.2 persisted
    refine ⟨.Acknowledged frame :: advanced.map (fun a => .Advanced a.1 a.2), ?_, ?_⟩
    · simp only [World.acknowledge, if_true, hadv]
      simp
    · simp

theorem grows_drain (b : Setup) (w : World) (clock : Clock) (skipped : Nat) (records : List Record) (gaps : List GapCause)
    (ok : Nat → Bool) : Grows w (w.drain b clock skipped records gaps ok) := by
  unfold World.drain
  split
  · exact .same rfl
  · split
    · exact .same rfl
    · split
      · exact .same rfl
      · exact .one rfl (fun he => by cases he)
      · exact .one rfl (fun he => by cases he)

theorem grows_move {m : Move} (hm : Moves b w m w') : Grows w w' := by
  cases hm.moved with
  | append _ => exact .same rfl
  | mark => exact .one rfl (fun he => by cases he)
  | evict =>
    refine ⟨_, List.append_assoc _ _ _, fun he => ?_⟩
    rcases List.mem_append.1 he with he | he
    · obtain ⟨r, -, hr⟩ := List.mem_map.1 he
      cases hr
    · obtain ⟨c, -, hc⟩ := List.mem_map.1 he
      cases hc
  | start _ =>
    unfold World.retry
    split
    · exact .same rfl
    · simp only
      split
      · exact .same rfl
      · exact .one rfl (fun he => by cases he)
  | rewind _ => exact .same rfl
  | peek _ =>
    unfold World.take_batch
    split
    · simp only
      split
      · exact .same rfl
      · exact .same rfl
    · exact .same rfl
  | examine _ => exact grows_drain b w _ _ _ _ _
  | @answered frame answer persisted ok _ =>
    obtain ⟨new, hnew⟩ := grows_acknowledge b w frame persisted (ok 0)
    cases answer with
    | ok outcome =>
      cases hsucc : outcome.is_success with
      | true =>
        refine ⟨new, ?_, hnew.2⟩
        cases hok : ok 0 <;> rw [hok] at hnew <;> simp [World.answered, hsucc, hok, hnew.1]
      | false => exact .same (by simp [World.answered, hsucc])
    | error e =>
      by_cases hto : e = .Ws .Timeout
      · subst hto
        exact .same rfl
      · rw [World.answered_error hto]
        exact .same rfl
  | @reanswered frame answer persisted ok _ =>
    obtain ⟨new, hnew⟩ := grows_acknowledge b w frame persisted (ok 0)
    cases answer with
    | ok outcome =>
      cases hsucc : outcome.is_success with
      | true => exact ⟨new, by simp [World.reanswered, hsucc, hnew.1], hnew.2⟩
      | false => exact .same (by simp [World.reanswered, hsucc])
    | error e =>
      by_cases hto : e = .Ws .Timeout
      · subst hto
        exact .same rfl
      · rw [World.reanswered_error hto]
        exact .one rfl (fun he => by cases he)

theorem HeadInv.chains_move (h : HeadInv b w) {m : Move} (hm : Moves b w m w') (hs : HeadSafe b w (.Do m)) :
    ChainInv (Clean w'.log) w' := by
  refine (h.chains.move h.alone hm hs.1 ?_).mono (fun i hi => ?_)
  · rintro frame answer persisted ok - rfl hacc
    exact (hs.2 answer persisted ok rfl hacc).1
  · obtain ⟨new, hlog, hnew⟩ := grows_move hm
    refine ⟨(hlog ▸ hi : Clean (w.log ++ new) i).of_append hnew, fun hstr => ?_⟩
    obtain ⟨frame, hid, hlog⟩ := hstr.log hm
    cases hi.stranded w.log frame [] hlog hid

theorem HeadInv.move (h : HeadInv b w) (hb : b.Distinct) (hspine : b.spine.isSome) {m : Move} (hm : Moves b w m w')
    (hs : HeadSafe b w (.Do m)) : HeadInv b w' := by
  have ha := h.alone.move hm
  have hc := h.chains_move hm hs
  cases hm.moved with
  | @append record spool happ =>
    obtain ⟨-, -, -, -, hnext⟩ := EvidenceSpool.append_spec happ
    have hq : Quiet w { w with spool } [] := by
      refine ⟨(List.append_nil _).symm, fun e he => (by cases he), rfl, fun i => ?_, fun i d _ hr => hr.append happ⟩
      rw [hnext]
      split
      · next hi => rw [hi]; exact Nat.le_succ _
      · exact le_refl _
    exact h.aside hq ha hc rfl
  | @mark cause ok =>
    have hq : Quiet w ({ w with spool := w.spool.mark_gap cause ok }.note (.Marked cause)) [.Marked cause] := by
      refine .of_steady rfl ?_ rfl (w.spool.steady_mark_gap cause ok)
      simp [Effect.plain]
    exact h.aside hq ha hc rfl
  | evict => exact h.evict hm rfl hc
  | start ht => exact h.retry ht _ _ ha hc
  | @rewind now_ms issuer ok ht =>
    have hnone := h.alone.inflight_none (by rw [ht]; exact fun he => by cases he)
    exact h.put_back hnone ok 0 _ (.inr ⟨_, _, rfl⟩) issuer ha hc
  | peek ht => exact h.take_batch ht _ _ ha hc
  | examine ht => exact h.drain hspine ht _ hs.1 ha hc
  | @answered frame answer persisted ok ht =>
    have hnone := h.alone.inflight_none (by rw [ht]; exact fun he => by cases he)
    obtain ⟨hf, -, -⟩ := h.chains.awaited (.inr ht)
    cases answer with
    | ok outcome =>
      cases hsucc : outcome.is_success with
      | true =>
        obtain ⟨hok, rfl⟩ := hs.2 _ persisted ok rfl hsucc
        simp only [World.answered, hsucc, if_true, hok] at hc ⊢
        exact h.taken hb hf hnone hc
      | false =>
        simp only [World.answered, hsucc, Bool.false_eq_true, if_false] at ha hc ⊢
        exact h.put_back hnone ok 0 _ (.inl rfl) frame.covers.1 ha hc
    | error e =>
      by_cases hto : e = .Ws .Timeout
      · subst hto
        exact h.held hf ha hc
      · rw [World.answered_error hto] at ha hc ⊢
        exact h.put_back hnone ok 0 _ (.inl rfl) frame.covers.1 ha hc
  | @reanswered frame answer persisted ok ht =>
    have hnone := h.alone.inflight_none (by rw [ht]; exact fun he => by cases he)
    obtain ⟨hf, -, -⟩ := h.chains.awaited (.inl ht)
    cases answer with
    | ok outcome =>
      cases hsucc : outcome.is_success with
      | true =>
        obtain ⟨hok, rfl⟩ := hs.2 _ persisted ok rfl hsucc
        simp only [World.reanswered, hsucc, if_true, hok] at hc ⊢
        exact h.taken hb hf hnone hc
      | false =>
        simp only [World.reanswered, hsucc, Bool.false_eq_true, if_false] at ha hc ⊢
        exact h.put_back hnone ok 0 _ (.inl rfl) frame.covers.1 ha hc
    | error e =>
      by_cases hto : e = .Ws .Timeout
      · subst hto
        exact h.held hf ha hc
      · rw [World.reanswered_error hto] at ha hc ⊢
        exact h.stranded hnone ha hc

/-! ## Restarts -/

theorem taken_as_restarted (log : List Effect) (issuer : String) : taken_as issuer (log ++ [.Restarted]) = taken_as issuer log := by
  have hnew : List.filterMap Effect.acknowledged [.Restarted] = [] := rfl
  rw [taken_as, List.filterMap_append, hnew, List.append_nil, taken_as]

/-- An acknowledged card of a log that ends with a restart. -/
theorem split_restarted {log before after : List Effect} {frame : Frame}
    (h : log ++ [.Restarted] = before ++ .Acknowledged frame :: after) :
    ∃ after', log = before ++ .Acknowledged frame :: after' ∧ after = after' ++ [.Restarted] := by
  rcases List.eq_nil_or_concat after with rfl | ⟨after', e, rfl⟩
  · cases (List.append_inj' h rfl).2
  · rw [List.concat_eq_append, ← List.cons_append, ← List.append_assoc] at h
    obtain ⟨hlog, he⟩ := List.append_inj' h rfl
    exact ⟨after', hlog, by rw [List.concat_eq_append, he]⟩

/-- A new process finds the numbers of the issuers nothing was taken of, the heads, and no chain. -/
theorem HeadInv.restart (h : HeadInv b w) : HeadInv b w.restart := by
  have hlog : w.restart.log = w.log ++ [.Restarted] := rfl
  have hposted : postings w.restart.log = postings w.log := by rw [hlog]; simp [Effect.posting]
  have hnone : ∀ i, Numbered w.restart.log i → last_taken (postings w.restart.log) i = none := by
    intro i hi
    rw [hposted]
    exact hi.restarted w.log [] hlog
  have hstored : ∀ issuer, w.heads.stored issuer = (taken_as issuer w.restart.log).map CardEnvelope.head := by
    intro issuer
    rw [hlog, taken_as_restarted]
    exact h.continuous.stored issuer
  refine ⟨fun _ => rfl, ⟨?_, fun i hi _ => ?_, fun i hu => (by cases hu), fun f hf => (by cases hf)⟩, fun i hi => ?_,
    fun _ _ _ _ ht => (by cases ht), fun f hf => (by cases hf), fun f hf => ?_, hstored, ?_, ?_, hstored⟩
  · rw [hposted]
    exact h.chains.linked
  · rw [last_hash, hnone i hi.toNumbered]
    rfl
  · have hwas : Numbered w.log i := (hlog ▸ hi : Numbered (w.log ++ [.Restarted]) i).of_append
    have hzero : done w.restart.log i = 0 := by rw [done, hnone i hi]; rfl
    have hzero' : done w.log i = 0 := by rw [done, ← hposted]; exact hzero
    have hrow := h.rows i hwas
    rw [hzero'] at hrow
    rw [hzero]
    exact hrow.reopen
  · rw [hlog] at hf
    rcases List.mem_append.1 hf with hf | hf
    · exact h.named f hf
    · cases List.mem_singleton.1 hf
  · intro before f after heq
    obtain ⟨after', hold, -⟩ := split_restarted (hlog ▸ heq)
    exact h.continuous.verified before f after' hold
  · intro before f after heq
    obtain ⟨after', hold, rfl⟩ := split_restarted (hlog ▸ heq)
    obtain ⟨rest, rfl⟩ := h.continuous.advanced before f after' hold
    exact ⟨_, rfl⟩
end

/-! ## Runs -/

theorem Small.distinct : Small.bridge.Distinct := by
  -- There is one identity, so an index that has a name is the first.
  have hzero : ∀ i issuer, Small.bridge.issuer_of i = some issuer → i.toNat = 0 := by
    intro i issuer h
    by_contra hne
    have hnone : identity_at Small.bridge.identities i = none :=
      List.getElem?_eq_none (Nat.one_le_iff_ne_zero.2 hne)
    rw [Setup.issuer_of, hnone] at h
    cases h
  intro i j issuer hi hj
  exact UInt8.toNat_inj.1 ((hzero i issuer hi).trans (hzero j issuer hj).symm)

theorem clean_restarted (i : IssuerIdx) : Clean [.Restarted] i := by
  refine ⟨⟨fun r hr => (by cases List.mem_singleton.1 hr), fun r hr => (by cases List.mem_singleton.1 hr), ?_⟩, ?_⟩
  · intro before after h
    cases before with
    | nil => rfl
    | cons e before => simp at h
  · intro before frame after h
    cases before with
    | nil => cases h
    | cons e before => simp at h

end Ambush.Bridge

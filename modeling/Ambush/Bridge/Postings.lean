import Ambush.Bridge.Pacer
/-!
# An unpublished card chains nothing: the evidence side

Each card carries the hash of the last card of its issuer that the relay acknowledged
before it. The chain advances when a card is built and goes back when the relay does not
take it; a resend that fails, and a commit that is not written, are the ways around that.
-/
open Lib

namespace Ambush.Bridge

/-! ## Sealed and acknowledged cards -/

inductive Posting where
  | Sealed (issuer : IssuerIdx) (envelope : CardEnvelope)
  | Acknowledged (issuer : IssuerIdx) (envelope : CardEnvelope)
  deriving DecidableEq

/-- The envelope the relay acknowledged for this issuer, if the posting is one. -/
def Posting.taken (issuer : IssuerIdx) : Posting → Option CardEnvelope
  | .Acknowledged i envelope => if i = issuer then some envelope else none
  | .Sealed _ _ => none

/-- The last envelope of the issuer that the relay acknowledged. -/
def last_taken (postings : List Posting) (issuer : IssuerIdx) : Option CardEnvelope :=
  (postings.filterMap (Posting.taken issuer)).getLast?

def last_hash (postings : List Posting) (issuer : IssuerIdx) : Option String :=
  (last_taken postings issuer).map (·.envelope_hash)

/-- Every card was sealed onto the last one acknowledged before it. -/
def Linked (postings : List Posting) : Prop := ∀ before issuer envelope after,
  postings = before ++ .Sealed issuer envelope :: after → envelope.prev_envelope_hash = last_hash before issuer

@[simp] theorem last_taken_sealed (postings : List Posting) (i issuer : IssuerIdx) (envelope : CardEnvelope) :
    last_taken (postings ++ [.Sealed i envelope]) issuer = last_taken postings issuer := by
  rw [last_taken, List.filterMap_append]
  simp [Posting.taken, last_taken]

@[simp] theorem last_taken_acknowledged (postings : List Posting) (i issuer : IssuerIdx) (envelope : CardEnvelope) :
    last_taken (postings ++ [.Acknowledged i envelope]) issuer =
      if i = issuer then some envelope else last_taken postings issuer := by
  rw [last_taken, List.filterMap_append]
  by_cases h : i = issuer <;> simp [Posting.taken, last_taken, h]

theorem linked_nil : Linked [] := fun before _ _ _ h => absurd h (by simp)

/-- A posting at the end is the only new one to link. -/
theorem Linked.append {postings : List Posting} (h : Linked postings) (p : Posting)
    (hp : ∀ issuer envelope, p = .Sealed issuer envelope → envelope.prev_envelope_hash = last_hash postings issuer) :
    Linked (postings ++ [p]) := by
  intro before issuer envelope after heq
  rcases List.eq_nil_or_concat after with rfl | ⟨front, last, rfl⟩
  · obtain ⟨rfl, hlast⟩ := List.append_inj' heq rfl
    exact hp issuer envelope (List.singleton_inj.1 hlast)
  · rw [List.concat_eq_append, ← List.cons_append, ← List.append_assoc] at heq
    exact h before issuer envelope front (List.append_inj' heq rfl).1

/-! ## The pacer's postings -/

def Effect.posting : Effect → Option Posting
  | .Sealed frame => some (.Sealed frame.identity frame.content.envelope)
  | .Acknowledged frame => some (.Acknowledged frame.identity frame.content.envelope)
  | _ => none

def postings (log : List Effect) : List Posting := log.filterMap Effect.posting

theorem postings_append (log log' : List Effect) : postings (log ++ log') = postings log ++ postings log' :=
  List.filterMap_append

@[simp] theorem postings_note (log : List Effect) (e : Effect) :
    postings (log ++ [e]) = postings log ++ e.posting.toList := by
  rw [postings_append]
  cases h : e.posting <;> simp [postings, h]

/-- Effects that post nothing. -/
theorem postings_silent {log log' : List Effect} (h : ∀ e ∈ log', e.posting = none) : postings (log ++ log') = postings log := by
  have hnil : postings log' = [] := List.filterMap_eq_nil_iff.2 h
  rw [postings_append, hnil, List.append_nil]

theorem acknowledge_postings (b : Setup) (w : World) (frame : Frame) (persisted ok : Bool) :
    postings (w.acknowledge b frame persisted ok).log =
      postings w.log ++ [.Acknowledged frame.identity frame.content.envelope] := by
  cases ok with
  | false => simp [World.acknowledge, Effect.posting]
  | true =>
    obtain ⟨advanced, hadv⟩ := World.commit_chain_head_log b
      ({ w with spool := w.spool.commit frame.covers.1 frame.covers.2 true }.note (.Acknowledged frame))
      frame.covers.1 frame.covers.2 persisted
    simp only [World.acknowledge, if_true, hadv]
    rw [postings_silent (fun e he => ?_)]
    · simp [Effect.posting]
    · obtain ⟨a, -, rfl⟩ := List.mem_map.1 he
      rfl

/-! ## The chain in memory -/

/-- The hash an issuer's next card is sealed onto. -/
def World.chain (w : World) (issuer : IssuerIdx) : Option String :=
  ((w.pacer.chains issuer).getD default).prev_envelope_hash

/-- The issuer of the card that was built and neither acknowledged nor rewound. -/
def World.unsettled (w : World) : Option IssuerIdx :=
  match w.pacer.tick with
  | .Restamping _ issuer => some issuer
  | _ => w.flying.map (·.identity)

/-- A card of this issuer is made. -/
def Makes (b : Setup) (w : World) (m : Move) (issuer : IssuerIdx) : Prop :=
  match w.pacer.tick, m with
  | .Batch now_ms skipped (record :: _) gaps, .Examine issued_at now_rfc3339 _ =>
    ¬ PACER_SKIP_BUDGET ≤ skipped ∧ (∃ made, w.examine b record gaps ⟨now_ms, issued_at, now_rfc3339⟩ = .ok (some made)) ∧
      record.issuer = issuer
  | _, _ => False

/-- A resend of this issuer's card fails with an error other than the missing answer. -/
def Strands (w : World) (m : Move) (issuer : IssuerIdx) : Prop :=
  match w.pacer.tick, m with
  | .Resending frame, .Answer answer _ _ => failed answer = true ∧ frame.identity = issuer
  | _, _ => False

theorem Strands.cases {w : World} {m : Move} {issuer : IssuerIdx} (h : Strands w m issuer) :
    ∃ frame answer persisted ok, w.pacer.tick = .Resending frame ∧ m = .Answer answer persisted ok ∧
      failed answer = true ∧ frame.identity = issuer := by
  cases ht : w.pacer.tick with
  | Resending frame =>
    cases m with
    | Answer answer persisted ok =>
      simp only [Strands, ht] at h
      exact ⟨frame, answer, persisted, ok, rfl, rfl, h.1, h.2⟩
    | _ => simp [Strands, ht] at h
  | _ => cases m <;> simp [Strands, ht] at h

/-- A card acknowledged in the tick that sent it has its commit written, and a resend does
not fail with an error other than the missing answer. -/
def ChainSafe (w : World) (m : Move) : Prop :=
  match w.pacer.tick, m with
  | .Sending _, .Answer answer _ ok => accepted answer → ok 0 = true
  | .Resending _, .Answer answer _ _ => failed answer = false
  | _, _ => True

/-- The chains of the issuers that are `sound`: each is that of the last card acknowledged, or kept for a rewind while
a card is unsettled. -/
structure ChainInv (sound : IssuerIdx → Prop) (w : World) : Prop where
  linked : Linked (postings w.log)
  settled : ∀ issuer, sound issuer → w.unsettled ≠ some issuer → w.chain issuer = last_hash (postings w.log) issuer
  before : ∀ issuer, w.unsettled = some issuer → ∃ chain, w.pacer.chain_before issuer = some chain ∧
    chain.prev_envelope_hash = last_hash (postings w.log) issuer
  flight : ∀ frame, w.flying = some frame → frame.covers.1 = frame.identity ∧
    w.chain frame.identity = some frame.content.envelope.envelope_hash ∧
    frame.content.envelope.prev_envelope_hash = last_hash (postings w.log) frame.identity

/-! ## One move -/

section
variable {sound : IssuerIdx → Prop} {w w' : World}

theorem ChainInv.mono {sound' : IssuerIdx → Prop} (h : ChainInv sound w) (hle : ∀ i, sound' i → sound i) : ChainInv sound' w :=
  { h with settled := fun i hi => h.settled i (hle i hi) }

/-- Nothing of the chains changes. -/
theorem ChainInv.keep (h : ChainInv sound w) (hl : postings w'.log = postings w.log) (hc : w'.pacer.chains = w.pacer.chains)
    (hb : w'.pacer.chain_before = w.pacer.chain_before) (hu : w'.unsettled = w.unsettled)
    (hf : ∀ frame, w'.flying = some frame → w.flying = some frame) : ChainInv sound w' := by
  have hchain : w'.chain = w.chain := by
    funext issuer
    rw [World.chain, World.chain, hc]
  refine ⟨by rw [hl]; exact h.linked, fun issuer hs hne => ?_, fun issuer heq => ?_, fun frame hfr => ?_⟩
  · rw [hchain, hl]
    exact h.settled issuer hs (hu ▸ hne)
  · rw [hb, hl]
    exact h.before issuer (hu ▸ heq)
  · rw [hchain, hl]
    exact h.flight frame (hf frame hfr)

/-- The unsettled card goes away and the chain goes back. -/
theorem ChainInv.rewound (h : ChainInv sound w) {issuer : IssuerIdx} (hu : w.unsettled = some issuer) (ok : Nat → Bool) (n : Nat)
    (hl : postings w'.log = postings w.log) (hc : w'.pacer.chains = (w.rewind issuer ok n).pacer.chains)
    (hu' : w'.unsettled = none) (hf' : w'.flying = none) : ChainInv sound w' := by
  obtain ⟨before, hbefore, hprev⟩ := h.before issuer hu
  have hchains : w'.pacer.chains = w.pacer.chains.insert issuer before := by
    rw [hc, World.rewind, hbefore]
    rfl
  refine ⟨by rw [hl]; exact h.linked, fun i hs _ => ?_, fun i heq => ?_, fun frame hfr => ?_⟩
  · rw [hl, World.chain, hchains, Map.insert_apply]
    by_cases hi : i = issuer
    · rw [if_pos hi, Option.getD_some, hprev, hi]
    · rw [if_neg hi]
      exact h.settled i hs (fun he => hi (Option.some.inj (hu.symm.trans he)).symm)
  · cases hu'.symm.trans heq
  · cases hf'.symm.trans hfr

/-- The relay took the card that was unsettled. -/
theorem ChainInv.acknowledged (h : ChainInv sound w) {frame : Frame} (hf : w.flying = some frame)
    (hu : w.unsettled = some frame.identity) (hc : w'.pacer.chains = w.pacer.chains)
    (hl : postings w'.log = postings w.log ++ [.Acknowledged frame.identity frame.content.envelope])
    (hu' : w'.unsettled = none) (hf' : w'.flying = none) : ChainInv sound w' := by
  obtain ⟨-, hchain, -⟩ := h.flight frame hf
  refine ⟨?_, fun i hs _ => ?_, fun i heq => ?_, fun frame hfr => ?_⟩
  · rw [hl]
    exact h.linked.append _ (fun _ _ he => by cases he)
  · rw [hl, last_hash, last_taken_acknowledged, World.chain, hc]
    by_cases hi : frame.identity = i
    · rw [if_pos hi, ← hi]
      exact hchain
    · rw [if_neg hi]
      exact h.settled i hs (fun he => hi (Option.some.inj (hu.symm.trans he)))
  · cases hu'.symm.trans heq
  · cases hf'.symm.trans hfr

theorem ChainInv.launch (h : ChainInv sound w) (hu : w.unsettled = none) {b : Setup} {record : Record} {gaps : List GapCause}
    {clock : Clock} {frame : Frame} {chain : SeqChain} (hex : w.examine b record gaps clock = .ok (some (frame, chain)))
    (hs : sound record.issuer) : ChainInv sound (w.launch frame chain gaps) := by
  obtain ⟨hid, hcovers, hhash, -, hprev, -, -⟩ := World.examine_spec hex
  have hposted : postings (w.launch frame chain gaps).log =
      postings w.log ++ [.Sealed frame.identity frame.content.envelope] := by
    simp [World.launch, Effect.posting]
  have hlast : ∀ i, last_hash (postings (w.launch frame chain gaps).log) i = last_hash (postings w.log) i := by
    intro i
    rw [hposted, last_hash, last_taken_sealed]
    rfl
  have hsettled : w.chain frame.identity = last_hash (postings w.log) frame.identity :=
    h.settled _ (by rw [hid]; exact hs) (by rw [hu]; exact fun he => by cases he)
  have honto : frame.content.envelope.prev_envelope_hash = last_hash (postings w.log) frame.identity := by
    rw [hprev, ← hsettled, hid]
    rfl
  refine ⟨?_, fun i hs hne => ?_, fun i heq => ?_, fun f hfr => ?_⟩
  · rw [hposted]
    refine h.linked.append _ (fun issuer envelope he => ?_)
    obtain ⟨rfl, rfl⟩ := Posting.Sealed.inj he
    exact honto
  · have hi : i ≠ frame.identity := fun he => hne (by rw [he]; rfl)
    rw [hlast, World.chain]
    show ((w.pacer.chains.insert frame.identity chain i).getD default).prev_envelope_hash = _
    rw [Map.insert_ne _ _ _ _ hi]
    exact h.settled i hs (by rw [hu]; exact fun he => by cases he)
  · obtain rfl : frame.identity = i := Option.some.inj heq
    exact ⟨_, Map.insert_self _ _ _, by rw [hlast]; exact hsettled⟩
  · obtain rfl : frame = f := Option.some.inj hfr
    refine ⟨by rw [hcovers, hid], ?_, by rw [hlast]; exact honto⟩
    show ((w.pacer.chains.insert frame.identity chain frame.identity).getD default).prev_envelope_hash = _
    rw [Map.insert_self]
    exact hhash

/-- A move of another task, or of the tick where it holds no card. -/
theorem ChainInv.silent (h : ChainInv sound w) (hl : postings w'.log = postings w.log) (hp : w'.pacer = w.pacer) : ChainInv sound w' := by
  have hf : w'.flying = w.flying := by rw [World.flying, World.flying, hp]
  refine h.keep hl (by rw [hp]) (by rw [hp]) ?_ (fun frame hfr => hf ▸ hfr)
  rw [World.unsettled, World.unsettled, hf, hp]

/-- A tick without a card moves on. -/
theorem ChainInv.stand (h : ChainInv sound w) (hl : postings w'.log = postings w.log) (hc : w'.pacer.chains = w.pacer.chains)
    (hb : w'.pacer.chain_before = w.pacer.chain_before) (hu : w.unsettled = none) (hu' : w'.unsettled = none)
    (hf' : w'.flying = none) : ChainInv sound w' :=
  h.keep hl hc hb (hu'.trans hu.symm) (fun _ hfr => by cases hf'.symm.trans hfr)

theorem ChainInv.retry (h : ChainInv sound w) (ht : w.pacer.tick = .Between) (now_ms : Int) (ok : Bool) :
    ChainInv sound (w.retry now_ms ok) := by
  cases hf : w.pacer.inflight with
  | none =>
    refine h.stand ?_ ?_ ?_ ?_ ?_ ?_ <;> simp [World.retry, hf, World.unsettled, World.flying, ht]
  | some frame =>
    have hflying : w.flying = some frame := by rw [World.flying, ht]; exact hf
    have hcovers := (h.flight frame hflying).1
    cases hd : retry_decision frame (now_ms.tdiv 1000) with
    | ResendIdentical =>
      refine h.keep ?_ ?_ ?_ ?_ ?_ <;> simp [World.retry, hf, hd, World.unsettled, World.flying, ht]
    | RestampFromSpool =>
      refine h.keep ?_ ?_ ?_ ?_ ?_ <;>
        simp [World.retry, hf, hd, World.unsettled, World.flying, ht, hcovers, Effect.posting]

theorem ChainInv.take_batch (h : ChainInv sound w) (ha : w.Alone) {now_ms : Int} {skipped : Nat}
    (ht : w.pacer.tick = .Draining now_ms skipped) (readable ok : Bool) :
    ChainInv sound (w.take_batch now_ms skipped readable ok) := by
  have hnone := ha.inflight_none (by rw [ht]; exact fun he => by cases he)
  have hstop : ChainInv sound (w.stand .Between) := by
    refine h.stand ?_ ?_ ?_ ?_ ?_ ?_ <;> simp [World.unsettled, World.flying, ht, hnone]
  rw [World.take_batch]
  split
  · simp only
    split
    · exact hstop
    · refine h.stand ?_ ?_ ?_ ?_ ?_ ?_ <;> simp [World.unsettled, World.flying, ht]
  · exact hstop

theorem ChainInv.drain (h : ChainInv sound w) (ha : w.Alone) {b : Setup} {clock : Clock} {skipped : Nat} {records : List Record}
    {gaps : List GapCause} (ht : w.pacer.tick = .Batch clock.now_ms skipped records gaps) (ok : Nat → Bool)
    (hs : ∀ issuer, Makes b w (.Examine clock.issued_at clock.now_rfc3339 ok) issuer → sound issuer) :
    ChainInv sound (w.drain b clock skipped records gaps ok) := by
  have hnone := ha.inflight_none (by rw [ht]; exact fun he => by cases he)
  have hu : w.unsettled = none := by simp [World.unsettled, World.flying, ht]
  cases records with
  | nil => refine h.stand ?_ ?_ ?_ hu ?_ ?_ <;> simp [World.drain, World.unsettled, World.flying]
  | cons record rest =>
    rw [World.drain]
    split
    · refine h.stand ?_ ?_ ?_ hu ?_ ?_ <;> simp [World.unsettled, World.flying, hnone]
    · next hbudget =>
      cases hex : w.examine b record gaps clock with
      | error e => refine h.stand ?_ ?_ ?_ hu ?_ ?_ <;> simp [World.unsettled, World.flying, hnone]
      | ok built =>
        cases built with
        | none =>
          cases hok : ok 0 <;> refine h.stand ?_ ?_ ?_ hu ?_ ?_ <;>
            simp [World.skip, World.unsettled, World.flying, hnone, Effect.posting]
        | some made =>
          refine h.launch hu hex (hs record.issuer ?_)
          simp only [Makes, ht]
          exact ⟨hbudget, ⟨made, hex⟩, trivial⟩

section
variable {frame : Frame}

/-- What is known while a frame waits for its answer. -/
theorem ChainInv.awaited (h : ChainInv sound w) (ht : w.pacer.tick = .Resending frame ∨ w.pacer.tick = .Sending frame) :
    w.flying = some frame ∧ w.unsettled = some frame.identity ∧ frame.covers.1 = frame.identity := by
  have hf : w.flying = some frame := by rcases ht with ht | ht <;> rw [World.flying, ht]
  refine ⟨hf, ?_, (h.flight frame hf).1⟩
  rcases ht with ht | ht <;> simp [World.unsettled, World.flying, ht]

theorem ChainInv.put_back (h : ChainInv sound w) (hnone : w.pacer.inflight = none)
    (ht : w.pacer.tick = .Resending frame ∨ w.pacer.tick = .Sending frame) (ok : Nat → Bool) :
    ChainInv sound ((w.rewind frame.covers.1 ok 0).stand .Between) := by
  obtain ⟨-, hu, hcovers⟩ := h.awaited ht
  refine h.rewound (by rw [hcovers]; exact hu) ok 0 ?_ rfl ?_ ?_ <;> simp [World.unsettled, World.flying, hnone]

theorem ChainInv.held (h : ChainInv sound w) (ht : w.pacer.tick = .Resending frame ∨ w.pacer.tick = .Sending frame) :
    ChainInv sound ((w.hold frame).stand .Between) := by
  obtain ⟨hf, hu, -⟩ := h.awaited ht
  refine h.keep rfl rfl rfl ?_ (fun f hfr => ?_)
  · rw [hu]
    rfl
  · rw [hf]
    exact hfr

theorem ChainInv.taken (h : ChainInv sound w) (b : Setup) (hnone : w.pacer.inflight = none)
    (ht : w.pacer.tick = .Resending frame ∨ w.pacer.tick = .Sending frame) (persisted ok : Bool) :
    ChainInv sound ((w.acknowledge b frame persisted ok).stand .Between) := by
  obtain ⟨hf, hu, -⟩ := h.awaited ht
  have hpacer : (w.acknowledge b frame persisted ok).pacer.chains = w.pacer.chains ∧
      (w.acknowledge b frame persisted ok).pacer.inflight = none := by
    cases ok <;> simp [World.acknowledge, hnone]
  refine h.acknowledged hf hu hpacer.1 (acknowledge_postings b w frame persisted ok) ?_ ?_
  · simp [World.unsettled, World.flying, hpacer.2]
  · simp [World.flying, hpacer.2]
end

/-- A resend failed: its issuer's chain stays where nobody can follow it. -/
theorem ChainInv.stranded (h : ChainInv sound w) (hnone : w.pacer.inflight = none) {frame : Frame}
    (ht : w.pacer.tick = .Resending frame) :
    ChainInv (fun i => sound i ∧ i ≠ frame.identity) ((w.note (.Stranded frame)).stand .Between) := by
  obtain ⟨-, hu, -⟩ := h.awaited (.inl ht)
  have hlog : postings (w.log ++ [.Stranded frame]) = postings w.log := by simp [Effect.posting]
  refine ⟨by rw [World.stand_log, World.note_log, hlog]; exact h.linked, fun i hi _ => ?_, fun i heq => ?_, fun f hf => ?_⟩
  · rw [World.stand_log, World.note_log, hlog]
    exact h.settled i hi.1 (fun he => hi.2 (Option.some.inj (hu.symm.trans he)).symm)
  · simp [World.unsettled, World.flying, hnone] at heq
  · simp [World.flying, hnone] at hf

/-! ## Runs -/

/-- What a move does to the chains: the commit of a card acknowledged in its own tick is written. -/
theorem ChainInv.move (h : ChainInv sound w) (ha : w.Alone) {b : Setup} {m : Move} (hm : Moves b w m w')
    (hs : ∀ issuer, Makes b w m issuer → sound issuer) (hsent : ∀ frame answer persisted ok, w.pacer.tick = .Sending frame →
      m = .Answer answer persisted ok → accepted answer → ok 0 = true) :
    ChainInv (fun i => sound i ∧ ¬ Strands w m i) w' := by
  have hle : ∀ i, sound i ∧ ¬ Strands w m i → sound i := fun i hi => hi.1
  cases hm.moved with
  | append _ =>
    refine ChainInv.mono ?_ hle
    exact h.silent rfl rfl
  | mark =>
    refine ChainInv.mono ?_ hle
    exact h.silent (by simp [Effect.posting]) rfl
  | evict =>
    refine ChainInv.mono ?_ hle
    refine h.silent ?_ rfl
    rw [List.append_assoc]
    refine postings_silent (fun e he => ?_)
    rcases List.mem_append.1 he with he | he
    · obtain ⟨r, -, rfl⟩ := List.mem_map.1 he
      rfl
    · obtain ⟨c, -, rfl⟩ := List.mem_map.1 he
      rfl
  | start ht => exact (h.retry ht _ _).mono hle
  | @rewind now_ms issuer ok ht =>
    refine ChainInv.mono ?_ hle
    refine h.rewound (by rw [World.unsettled, ht]) ok 0 rfl rfl ?_ ?_ <;> simp [World.unsettled, World.flying]
  | peek ht => exact (h.take_batch ha ht _ _).mono hle
  | examine ht => exact (h.drain ha ht _ hs).mono hle
  | @answered frame answer persisted ok ht =>
    refine ChainInv.mono ?_ hle
    have hnone := ha.inflight_none (by rw [ht]; exact fun he => by cases he)
    cases answer with
    | ok outcome =>
      cases hsucc : outcome.is_success with
      | true =>
        simp only [World.answered, hsucc, if_true, hsent frame _ persisted ok ht rfl hsucc]
        exact h.taken b hnone (.inr ht) persisted true
      | false =>
        simp only [World.answered, hsucc, Bool.false_eq_true, if_false]
        exact h.put_back hnone (.inr ht) ok
    | error e =>
      by_cases hto : e = .Ws .Timeout
      · subst hto
        exact h.held (.inr ht)
      · rw [World.answered_error hto]
        exact h.put_back hnone (.inr ht) ok
  | @reanswered frame answer persisted ok ht =>
    have hnone := ha.inflight_none (by rw [ht]; exact fun he => by cases he)
    cases answer with
    | ok outcome =>
      refine ChainInv.mono ?_ hle
      cases hsucc : outcome.is_success with
      | true =>
        simp only [World.reanswered, hsucc, if_true]
        exact h.taken b hnone (.inl ht) persisted (ok 0)
      | false =>
        simp only [World.reanswered, hsucc, Bool.false_eq_true, if_false]
        exact h.put_back hnone (.inl ht) ok
    | error e =>
      by_cases hto : e = .Ws .Timeout
      · subst hto
        exact (h.held (.inl ht)).mono hle
      · rw [World.reanswered_error hto]
        refine (h.stranded hnone ht).mono (fun i hi => ⟨hi.1, fun he => hi.2 ?_⟩)
        simp only [Strands, ht]
        exact ⟨failed_of_ne hto, he.symm⟩
end

/-- A move that keeps the chains. -/
def ChainSafely (b : Setup) (w : World) (m : Move) (w' : World) : Prop := Moves b w m w' ∧ ChainSafe w m

theorem chainInv_run {b : Setup} {spool : EvidenceSpool} {heads : ChainHeadStore} {moves : List Move} {w : World}
    (h : Run (ChainSafely b) { spool, heads } moves w) : ChainInv (fun _ => True) w := by
  have hinv : ChainInv (fun _ => True) w ∧ w.Alone := by
    refine h.inv (I := fun w => ChainInv (fun _ => True) w ∧ w.Alone) (fun w m w' _ hi hm => ⟨?_, hi.2.move hm.1⟩)
      ⟨⟨linked_nil, fun _ _ _ => rfl, ?_, ?_⟩, fun _ => rfl⟩
    · have hsafe := hm.2
      refine (hi.1.move hi.2 hm.1 (fun _ _ => trivial) ?_).mono (fun i _ => ⟨trivial, ?_⟩)
      · rintro frame answer persisted ok ht rfl
        simpa only [ChainSafe, ht] using hsafe
      · intro hstrands
        obtain ⟨frame, answer, persisted, ok, ht, rfl, hfailed, -⟩ := hstrands.cases
        simp only [ChainSafe, ht] at hsafe
        exact Bool.false_ne_true (hsafe.symm.trans hfailed)
    · exact fun issuer hu => by cases hu
    · exact fun frame hf => by cases hf
  exact hinv.1

end Ambush.Bridge

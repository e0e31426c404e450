import Ambush.Lib.Runs
import Ambush.Lib.Results
import Ambush.Runtime.DispatchJournal
/-!
# The journal replays to itself

Whatever a journal that is not poisoned has accepted, `read_records` reads its file
without an error and finds the same records: the same ids, leases, times and outcomes,
with the JSON values inside them as their text reads back.
-/
open Lib

namespace Ambush.Runtime
open Policy (ActionRequest)

/-! ## What reading changes -/

/-- A receipt that is there but `null` is read as absent. -/
def ResponseGovernanceAudit.reread (f : Rat → Rat) (a : ResponseGovernanceAudit) : ResponseGovernanceAudit :=
  { a with receipt := (a.receipt.filter (fun v => !v.is_null)).map (Value.mapFloats f) }

def ResponseReceipt.reread (f : Rat → Rat) (r : ResponseReceipt) : ResponseReceipt :=
  { r with
    details := r.details.mapFloats f
    audit := { r.audit with governance := r.audit.governance.map (ResponseGovernanceAudit.reread f) } }

def ResponseError.reread (f : Rat → Rat) (e : ResponseError) : ResponseError :=
  ⟨{ e.failure with details := e.failure.details.mapFloats f }⟩

def rereadResult (f : Rat → Rat) : ResponseResult → ResponseResult
  | .ok receipt => .ok (receipt.reread f)
  | .error error => .error (error.reread f)

def rereadRequest (f : Rat → Rat) (r : ActionRequest) : ActionRequest :=
  { r with evidence := r.evidence.mapFloats f }

def JournalEvent.reread (f : Rat → Rat) : JournalEvent → JournalEvent
  | .Header version => .Header version
  | .Intent dispatch_id request lease reserved_at_ms => .Intent dispatch_id (rereadRequest f request) lease reserved_at_ms
  | .Completion dispatch_id result => .Completion dispatch_id (rereadResult f result)

def DispatchRecord.reread (f : Rat → Rat) (r : DispatchRecord) : DispatchRecord :=
  { r with
    request := rereadRequest f r.request
    completion := r.completion.map (rereadResult f) }

/-- What the journal relies on `serde_json` for: a line break is always escaped, and a
written event that can be read is read as that event. Without its `float_roundtrip`
feature a double need not survive, and `null` is always a missing option. A checkpoint is
read as it was written; a digest in hex and two 64-bit numbers keep it short. -/
structure Host.Faithful (h : Host) : Prop where
  line : ∀ event bytes, h.to_vec event = .ok bytes → newline ∉ bytes
  event : ∀ event bytes, h.to_vec event = .ok bytes → ∀ read, h.from_slice (bytes ++ [newline]) = .ok read →
    read = event.reread h.parse_f64
  checkpoint : ∀ count hashed lock bytes, count ≤ MAX_DISPATCH_JOURNAL_BYTES →
    h.checkpoint_to_vec ⟨VERSION, count, h.sha256_hex hashed, file_identity h lock⟩ = .ok bytes →
    bytes.length ≤ MAX_CHECKPOINT_BYTES ∧
      h.checkpoint_from_slice bytes = .ok ⟨VERSION, count, h.sha256_hex hashed, file_identity h lock⟩

/-! ## Lines -/

/-- A record as it is written: no line break but the last byte, within the size limit. -/
def IsLine (line : Bytes) : Prop :=
  ∃ body, line = body ++ [newline] ∧ newline ∉ body ∧ body.length < MAX_DISPATCH_RECORD_BYTES

theorem up_to_newline_append {body : Bytes} (h : newline ∉ body) (rest : Bytes) :
    up_to_newline (body ++ newline :: rest) = body ++ [newline] := by
  induction body with
  | nil => simp [up_to_newline]
  | cons b body ih =>
    obtain ⟨hb, hbody⟩ := not_or.1 (List.mem_cons.not.1 h)
    rw [List.cons_append, up_to_newline, if_neg (fun he => hb he.symm), ih hbody, List.cons_append]

/-- What `up_to_newline` returns: a line, or everything when there is no line break. -/
theorem up_to_newline_spec (bytes : Bytes) :
    (∃ body rest, newline ∉ body ∧ bytes = body ++ newline :: rest ∧ up_to_newline bytes = body ++ [newline]) ∨
      (newline ∉ bytes ∧ up_to_newline bytes = bytes) := by
  induction bytes with
  | nil => exact .inr ⟨List.not_mem_nil, rfl⟩
  | cons b bytes ih =>
    by_cases hb : b = newline
    · exact .inl ⟨[], bytes, List.not_mem_nil, by simp [hb], by simp [up_to_newline, hb]⟩
    · rcases ih with ⟨body, rest, hbody, hbytes, hup⟩ | ⟨hno, hup⟩
      · refine .inl ⟨b :: body, rest, ?_, by rw [hbytes, List.cons_append], ?_⟩
        · exact List.mem_cons.not.2 (not_or.2 ⟨fun he => hb he.symm, hbody⟩)
        · rw [up_to_newline, if_neg hb, hup, List.cons_append]
      · refine .inr ⟨List.mem_cons.not.2 (not_or.2 ⟨fun he => hb he.symm, hno⟩), ?_⟩
        rw [up_to_newline, if_neg hb, hup]

theorem IsLine.first {line : Bytes} (h : IsLine line) (rest : Bytes) :
    up_to_newline ((line ++ rest).take (MAX_DISPATCH_RECORD_BYTES + 1)) = line := by
  obtain ⟨body, rfl, hno, hlen⟩ := h
  have hlen' : (body ++ [newline]).length ≤ MAX_DISPATCH_RECORD_BYTES + 1 := by
    rw [List.length_append, List.length_singleton]
    omega
  rw [List.take_append, List.take_of_length_le hlen', List.append_assoc, List.singleton_append]
  exact up_to_newline_append hno _

theorem IsLine.ne_nil {line : Bytes} (h : IsLine line) : line ≠ [] := by
  obtain ⟨body, rfl, -⟩ := h
  simp

theorem IsLine.length_le {line : Bytes} (h : IsLine line) : line.length ≤ MAX_DISPATCH_RECORD_BYTES := by
  obtain ⟨body, rfl, -, hlen⟩ := h
  rw [List.length_append, List.length_singleton]
  omega

theorem IsLine.getLast {line : Bytes} (h : IsLine line) : line.getLast? = some newline := by
  obtain ⟨body, rfl, -⟩ := h
  simp

/-! ## The loop -/

section
variable {h : Host}

theorem read_line_ok {ld ld' : Loaded} {line : Bytes} (hr : read_line h ld line = .ok ld') :
    line.length ≤ MAX_DISPATCH_RECORD_BYTES ∧ line.getLast? = some newline ∧
      ld'.read_bytes = ld.read_bytes + line.length ∧ ld'.hashed = ld.hashed ++ line ∧
      ld'.line_number = ld.line_number + 1 ∧
      (ld'.records = ld.records ∨ ∃ event, replay_event h ld.records event = .ok ld'.records) := by
  simp only [read_line] at hr
  split at hr
  · exact absurd hr (by simp)
  next hlen =>
  split at hr
  · exact absurd hr (by simp)
  next hlast =>
  split at hr
  · exact absurd hr (by simp)
  split at hr
  · exact absurd hr (by simp)
  refine ⟨Nat.le_of_not_lt hlen, not_not.1 hlast, ?_⟩
  split at hr
  · split at hr
    · obtain rfl := Except.ok.inj hr
      exact ⟨rfl, rfl, rfl, .inl rfl⟩
    · exact absurd hr (by simp)
  · next event _ _ =>
    obtain ⟨records, hreplay, hr⟩ := (ok_bind_iff _ _ _).1 hr
    obtain rfl := Except.ok.inj hr
    exact ⟨rfl, rfl, rfl, .inr ⟨event, hreplay⟩⟩

/-- More fuel than bytes changes nothing. -/
theorem read_loop_fuel (ld : Loaded) (bytes : Bytes) (fuel : Nat) (hfuel : bytes.length ≤ fuel) :
    read_loop h fuel ld bytes = read_loop h bytes.length ld bytes := by
  induction fuel using Nat.strong_induction_on generalizing ld bytes with
  | _ fuel ih =>
    cases bytes with
    | nil => cases fuel <;> rfl
    | cons b bytes =>
      obtain ⟨fuel, rfl⟩ := Nat.exists_eq_succ_of_ne_zero (show fuel ≠ 0 by rw [List.length_cons] at hfuel; omega)
      rw [List.length_cons, read_loop, read_loop]
      generalize up_to_newline ((b :: bytes).take (MAX_DISPATCH_RECORD_BYTES + 1)) = line
      by_cases hne : line = []
      · simp [hne]
      · simp only [hne, ↓reduceIte]
        congr 1
        funext ld'
        have hpos : 0 < line.length := by
          rcases Nat.eq_zero_or_pos line.length with h0 | h0
          · exact absurd (List.length_eq_zero_iff.1 h0) hne
          · exact h0
        have hdrop : ((b :: bytes).drop line.length).length ≤ bytes.length := by
          rw [List.length_drop, List.length_cons]
          omega
        rw [List.length_cons] at hfuel
        rw [ih fuel (by omega) ld' _ (by omega)]
        rcases Nat.lt_or_ge bytes.length (fuel + 1) with hlt | hge
        · rw [ih bytes.length hlt ld' _ hdrop]
        · omega

/-- A line in front is read first. -/
theorem read_loop_line {line : Bytes} (hl : IsLine line) (ld : Loaded) (rest : Bytes) :
    read_loop h (line ++ rest).length ld (line ++ rest) =
      (read_line h ld line).bind (fun ld' => read_loop h rest.length ld' rest) := by
  have hpos : 0 < line.length := List.length_pos_iff.2 hl.ne_nil
  obtain ⟨n, hn⟩ := Nat.exists_eq_succ_of_ne_zero (show (line ++ rest).length ≠ 0 by rw [List.length_append]; omega)
  have hlen : rest.length ≤ n := by
    rw [List.length_append] at hn
    omega
  rw [hn, read_loop]
  simp only [hl.first, if_neg hl.ne_nil, List.drop_left]
  show (read_line h ld line).bind _ = _
  congr 1
  funext ld'
  exact read_loop_fuel ld' rest n hlen

theorem read_loop_lines {lines : List Bytes} (hl : ∀ line ∈ lines, IsLine line) (ld : Loaded) (rest : Bytes) :
    read_loop h (lines.flatten ++ rest).length ld (lines.flatten ++ rest) =
      (lines.foldlM (read_line h) ld).bind (fun ld' => read_loop h rest.length ld' rest) := by
  induction lines generalizing ld with
  | nil => rfl
  | cons line lines ih =>
    rw [List.flatten_cons, List.append_assoc, read_loop_line (hl line List.mem_cons_self), List.foldlM_cons]
    cases read_line h ld line with
    | error e => rfl
    | ok ld' => exact ih (fun l hm => hl l (List.mem_cons_of_mem _ hm)) ld'

/-- A file that is read to its end is a sequence of lines. -/
theorem lines_of_read_loop {fuel : Nat} {ld ld' : Loaded} {bytes : Bytes} (hfuel : bytes.length ≤ fuel)
    (hr : read_loop h fuel ld bytes = .ok ld') :
    ∃ lines : List Bytes, (∀ line ∈ lines, IsLine line) ∧ bytes = lines.flatten ∧
      lines.foldlM (read_line h) ld = .ok ld' := by
  induction fuel generalizing ld bytes with
  | zero =>
    obtain rfl := List.length_eq_zero_iff.1 (Nat.le_zero.1 hfuel)
    exact ⟨[], by simp, rfl, hr⟩
  | succ fuel ih =>
    rw [read_loop] at hr
    generalize heq : up_to_newline (bytes.take (MAX_DISPATCH_RECORD_BYTES + 1)) = line at hr
    by_cases hne : line = []
    · rw [hne] at heq hr
      cases bytes with
      | nil => exact ⟨[], by simp, rfl, hr⟩
      | cons b bytes =>
        rw [List.take_succ_cons, up_to_newline] at heq
        split at heq <;> simp at heq
    · simp only [hne, ↓reduceIte] at hr
      obtain ⟨ld1, hline, hr⟩ := (ok_bind_iff _ _ _).1 hr
      obtain ⟨hlen, hlast, -⟩ := read_line_ok hline
      -- it ends in a line break, so it is a line and the file goes on after it
      rcases up_to_newline_spec (bytes.take (MAX_DISPATCH_RECORD_BYTES + 1)) with
        ⟨body, rest, hno, htake, hup⟩ | ⟨hno, hup⟩
      · rw [hup] at heq
        subst heq
        have hisline : IsLine (body ++ [newline]) := by
          refine ⟨body, rfl, hno, ?_⟩
          rw [List.length_append, List.length_singleton] at hlen
          omega
        have hbytes : bytes = (body ++ [newline]) ++ (rest ++ bytes.drop (MAX_DISPATCH_RECORD_BYTES + 1)) := by
          have := List.take_append_drop (MAX_DISPATCH_RECORD_BYTES + 1) bytes
          rw [htake] at this
          simpa using this.symm
        have hdrop : bytes.drop (body ++ [newline]).length = rest ++ bytes.drop (MAX_DISPATCH_RECORD_BYTES + 1) := by
          conv_lhs => rw [hbytes]
          exact List.drop_left
        have hr' : read_loop h fuel ld1 (bytes.drop (body ++ [newline]).length) = .ok ld' := hr
        obtain ⟨lines, hlines, hflat, hfold⟩ := ih (by
          rw [List.length_drop, List.length_append, List.length_singleton]
          omega) hr'
        refine ⟨(body ++ [newline]) :: lines, List.forall_mem_cons.2 ⟨hisline, hlines⟩, ?_, ?_⟩
        · rw [List.flatten_cons, ← hflat, hdrop]
          exact hbytes
        · rw [List.foldlM_cons, hline]
          exact hfold
      · rw [hup] at heq
        rw [← heq] at hlast
        exact absurd (List.mem_of_getLast? hlast) hno

/-- What reading lines counts. -/
theorem fold_lines {lines : List Bytes} {ld ld' : Loaded} (hr : lines.foldlM (read_line h) ld = .ok ld') :
    ld'.read_bytes = ld.read_bytes + lines.flatten.length ∧ ld'.hashed = ld.hashed ++ lines.flatten ∧
      ld'.line_number = ld.line_number + lines.length := by
  induction lines generalizing ld with
  | nil =>
    obtain rfl := Except.ok.inj hr
    simp
  | cons line lines ih =>
    rw [List.foldlM_cons] at hr
    obtain ⟨ld1, hline, hr⟩ := (ok_bind_iff _ _ _).1 hr
    obtain ⟨-, -, h1, h2, h3, -⟩ := read_line_ok hline
    obtain ⟨k1, k2, k3⟩ := ih hr
    rw [k1, k2, k3, h1, h2, h3, List.flatten_cons, List.length_append, List.length_cons, List.append_assoc]
    exact ⟨by omega, rfl, by omega⟩

/-! ## Memory and file -/

/-- A record in memory and the same record as the file has it. -/
structure Rereads (f : Rat → Rat) (r r' : DispatchRecord) : Prop where
  dispatch_id : r'.dispatch_id = r.dispatch_id
  request : r'.request = r.request ∨ r'.request = rereadRequest f r.request
  lease : r'.lease = r.lease
  reserved_at_ms : r'.reserved_at_ms = r.reserved_at_ms
  completion : r'.completion = r.completion ∨ r'.completion = r.completion.map (rereadResult f)

theorem Rereads.refl (f : Rat → Rat) (r : DispatchRecord) : Rereads f r r := ⟨rfl, .inl rfl, rfl, rfl, .inl rfl⟩

theorem Rereads.eq_of_stable {f : Rat → Rat} {r r' : DispatchRecord} (h : Rereads f r r') (hs : r.reread f = r) :
    r' = r := by
  have hreq : rereadRequest f r.request = r.request := congrArg DispatchRecord.request hs
  have hcomp : r.completion.map (rereadResult f) = r.completion := congrArg DispatchRecord.completion hs
  obtain ⟨hid, hrequest, hlease, hat, hcompletion⟩ := h
  rw [hreq, or_self] at hrequest
  rw [hcomp, or_self] at hcompletion
  cases r
  cases r'
  simp_all

theorem eq_of_stable {f : Rat → Rat} {l l' : List DispatchRecord} (h : List.Forall₂ (Rereads f) l l')
    (hs : ∀ r ∈ l, r.reread f = r) : l' = l := by
  induction h with
  | nil => rfl
  | cons hab _ ih =>
    rw [hab.eq_of_stable (hs _ List.mem_cons_self), ih (fun r hr => hs r (List.mem_cons_of_mem _ hr))]

/-- The lines written so far, read from the start, are the state of the journal. -/
def Mirrors (h : Host) (state : JournalState) : Prop :=
  state.bytes = state.hashed.length ∧ state.hashed.length ≤ MAX_DISPATCH_JOURNAL_BYTES ∧
    ∃ lines : List Bytes, (∀ line ∈ lines, IsLine line) ∧ state.hashed = lines.flatten ∧ lines ≠ [] ∧
      ∃ ld, lines.foldlM (read_line h) {} = .ok ld ∧ List.Forall₂ (Rereads h.parse_f64) state.records ld.records

theorem Mirrors.read_records {state : JournalState} (hm : Mirrors h state) :
    ∃ ld, read_records h state.hashed = .ok ld ∧ ld.read_bytes = state.bytes ∧
      List.Forall₂ (Rereads h.parse_f64) state.records ld.records := by
  obtain ⟨hbytes, hmax, lines, hlines, hflat, hne, ld, hfold, hrecords⟩ := hm
  obtain ⟨h1, h2, h3⟩ := fold_lines hfold
  have hloop : read_loop h state.hashed.length {} state.hashed = .ok ld := by
    have := @read_loop_lines h lines hlines {} []
    rw [List.append_nil, ← hflat, hfold] at this
    exact this
  have hcount : ¬ (ld.line_number = 0 ∨ ld.read_bytes ≠ state.hashed.length) := by
    have hpos : 0 < lines.length := List.length_pos_iff.2 hne
    rw [h1, h3, hflat]
    simp only [Nat.zero_add, ne_eq, not_true_eq_false, or_false]
    omega
  refine ⟨ld, ?_, ?_, hrecords⟩
  · simp only [Runtime.read_records, Nat.not_lt.2 hmax, ↓reduceIte, hloop]
    show (if _ then _ else _) = _
    rw [if_neg hcount]
  · rw [h1, hbytes, hflat, Nat.zero_add]

/-- Opening a file gives a state that mirrors it. -/
theorem mirrors_of_read_records {bytes : Bytes} {ld : Loaded} (hr : read_records h bytes = .ok ld) (file : Nat) :
    ld.hashed = bytes ∧ Mirrors h ⟨file, ld.records, ld.read_bytes, false, ld.hashed⟩ := by
  simp only [Runtime.read_records] at hr
  split at hr
  · exact absurd hr (by simp)
  next hmax =>
  obtain ⟨ld1, hloop, hr⟩ := (ok_bind_iff _ _ _).1 hr
  split at hr
  · exact absurd hr (by simp)
  next hcount =>
  obtain rfl := Except.ok.inj hr
  obtain ⟨lines, hlines, hflat, hfold⟩ := lines_of_read_loop (Nat.le_refl _) hloop
  obtain ⟨h1, h2, h3⟩ := fold_lines hfold
  have hhashed : ld1.hashed = bytes := by rw [h2, hflat, List.nil_append]
  have hread : ld1.read_bytes = bytes.length := by rw [h1, hflat, Nat.zero_add]
  refine ⟨hhashed, ?_, ?_, lines, hlines, ?_, ?_, ld1, hfold, ?_⟩
  · rw [hread, hhashed]
  · rw [hhashed]
    exact Nat.le_of_not_lt hmax
  · rw [hhashed, hflat]
  · rintro rfl
    exact hcount (.inl (by rw [h3]; rfl))
  · exact List.forall₂_same.2 (fun r _ => Rereads.refl _ r)

/-! ## Appending -/

theorem serialize_event_line (hf : h.Faithful) {event : JournalEvent} {line : Bytes}
    (hs : serialize_event h event = .ok line) : IsLine line ∧ h.from_slice line = .ok (event.reread h.parse_f64) := by
  simp only [serialize_event] at hs
  cases hv : h.to_vec event with
  | error e => rw [hv] at hs; exact absurd hs (by simp [serialize_bounded, bind, Except.bind])
  | ok body =>
    rw [hv] at hs
    simp only [serialize_bounded] at hs
    by_cases hlen : body.length < MAX_DISPATCH_RECORD_BYTES
    · simp only [hlen, ↓reduceIte, bind, Except.bind] at hs
      split at hs
      · exact absurd hs (by simp)
      split at hs
      · exact absurd hs (by simp)
      · next read hread =>
        obtain rfl := Except.ok.inj hs
        exact ⟨⟨body, rfl, hf.line _ _ hv, hlen⟩, by rw [hread, hf.event _ _ hv _ hread]⟩
    · simp only [hlen, ↓reduceIte, bind, Except.bind] at hs
      exact absurd hs (by simp)

/-- An appended line that its reader takes as it was meant. -/
theorem mirrors_append {state : JournalState} {line : Bytes} {event : JournalEvent}
    {records : List DispatchRecord} (hm : Mirrors h state) (hline : IsLine line) (hread : h.from_slice line = .ok event)
    (hmax : state.bytes + line.length ≤ MAX_DISPATCH_JOURNAL_BYTES)
    (hreplay : ∀ old, List.Forall₂ (Rereads h.parse_f64) state.records old → ∃ new, replay_event h old event = .ok new ∧
      List.Forall₂ (Rereads h.parse_f64) records new) (poisoned : Bool) :
    Mirrors h ⟨state.file, records, state.bytes + line.length, poisoned, state.hashed ++ line⟩ := by
  obtain ⟨hbytes, -, lines, hlines, hflat, hne, ld, hfold, hrecords⟩ := hm
  obtain ⟨h1, h2, h3⟩ := fold_lines hfold
  obtain ⟨new, hnew, hsame⟩ := hreplay ld.records hrecords
  have hcount : ld.line_number + 1 ≠ 1 := by
    have hpos : 0 < lines.length := List.length_pos_iff.2 hne
    rw [h3]
    simp only [Nat.zero_add]
    omega
  have hroom : ¬ ld.read_bytes + line.length > MAX_DISPATCH_JOURNAL_BYTES := by
    rw [h1, Nat.zero_add, ← hflat, ← hbytes]
    omega
  have hstep : read_line h ld line =
      .ok ⟨new, ld.read_bytes + line.length, ld.hashed ++ line, ld.line_number + 1⟩ := by
    simp only [read_line, Nat.not_lt.2 hline.length_le, hline.getLast, hroom, hread, hcount, hnew, bind, Except.bind,
      ↓reduceIte, ne_eq, not_true_eq_false]
  refine ⟨by rw [List.length_append, hbytes], by rw [List.length_append, ← hbytes]; exact hmax, lines ++ [line], ?_, ?_,
    by simp, ⟨new, ld.read_bytes + line.length, ld.hashed ++ line, ld.line_number + 1⟩, ?_, hsame⟩
  · intro l hl
    rcases List.mem_append.1 hl with hl | hl
    · exact hlines l hl
    · rw [List.mem_singleton.1 hl]
      exact hline
  · rw [List.flatten_append, hflat]
    simp
  · rw [List.foldlM_append, hfold]
    show (read_line h ld line).bind _ = _
    rw [hstep]
    rfl

/-! ## What a call is asked for -/

/-- What `append` checks before it reads a file. -/
theorem prepare_append_ok {state : JournalState} {event : JournalEvent} {records : List DispatchRecord} {id : String}
    {p : Prepared} (hp : prepare_append h state event records id = .ok p) :
    serialize_event h event = .ok p.line ∧ state.bytes + p.line.length ≤ MAX_DISPATCH_JOURNAL_BYTES ∧
      p.records = records ∧ p.dispatch_id = id := by
  simp only [prepare_append] at hp
  obtain ⟨line, hs, hp⟩ := (ok_bind_iff _ _ _).1 hp
  split at hp
  · exact absurd hp (by simp)
  next hmax =>
  obtain rfl := Except.ok.inj hp
  exact ⟨hs, Nat.le_of_not_lt hmax, rfl, rfl⟩

/-- A reservation that is not refused is for a new id. -/
theorem prepare_reserve_ok {state : JournalState} {request : ActionRequest} {lease : CapabilityLease} {now_ms : Int}
    {p : Prepared} (hp : prepare_reserve h state request lease now_ms = .ok p) :
    state.poisoned = false ∧ request_id h request = .ok p.dispatch_id ∧
      p.dispatch_id ∉ state.records.map DispatchRecord.dispatch_id ∧ state.records.length < MAX_DISPATCH_ENTRIES ∧
      lease.action = request.action.kind ∧ now_ms < lease.expires_at_ms ∧
      prepare_append h state (.Intent p.dispatch_id request lease now_ms)
        (insertBy DispatchRecord.dispatch_id ⟨p.dispatch_id, request, lease, now_ms, none⟩ state.records)
        p.dispatch_id = .ok p := by
  simp only [prepare_reserve] at hp
  obtain ⟨-, -, hp⟩ := (ok_bind_iff _ _ _).1 hp
  obtain ⟨id, hid, hp⟩ := (ok_bind_iff _ _ _).1 hp
  obtain ⟨-, -, hp⟩ := (ok_bind_iff _ _ _).1 hp
  obtain ⟨-, -, hp⟩ := (ok_bind_iff _ _ _).1 hp
  split at hp
  · exact absurd hp (by simp)
  next hpoison =>
  split at hp
  · exact absurd hp (by simp)
  next hnew =>
  split at hp
  · exact absurd hp (by simp)
  next hroom =>
  split at hp
  · exact absurd hp (by simp)
  next hlease =>
  obtain ⟨-, -, -, hpid⟩ := prepare_append_ok hp
  subst hpid
  obtain ⟨haction, hexpires⟩ := not_or.1 hlease
  exact ⟨by simpa using hpoison, hid, fun hm => hnew (lookupBy_isSome.2 hm), Nat.lt_of_not_le hroom,
    not_not.1 haction, Int.not_le.1 hexpires, hp⟩

/-- A completion that is not refused is for a reservation without one. -/
theorem prepare_complete_ok {state : JournalState} {id : String} {result : ResponseResult} {p : Prepared}
    (hp : prepare_complete h state id result = .ok p) :
    state.poisoned = false ∧
      (∃ record, lookupBy DispatchRecord.dispatch_id id state.records = some record ∧ record.completion = none) ∧
      prepare_append h state (.Completion id result)
        (updateBy DispatchRecord.dispatch_id id (fun r => { r with completion := some result }) state.records)
        id = .ok p := by
  simp only [prepare_complete] at hp
  split at hp
  · exact absurd hp (by simp)
  next hpoison =>
  split at hp
  · exact absurd hp (by simp)
  next record hrecord =>
  split at hp
  · exact absurd hp (by simp)
  next hopen =>
  obtain ⟨-, -, hp⟩ := (ok_bind_iff _ _ _).1 hp
  obtain ⟨-, -, hp⟩ := (ok_bind_iff _ _ _).1 hp
  exact ⟨by simpa using hpoison, ⟨record, hrecord, by simpa using hopen⟩, hp⟩

theorem Rereads.key {f : Rat → Rat} : ∀ r r' : DispatchRecord, Rereads f r r' → r'.dispatch_id = r.dispatch_id :=
  fun _ _ hr => hr.dispatch_id

/-- What a reservation writes is replayed as what it adds to memory. -/
theorem replay_reserve {state : JournalState} {request : ActionRequest} {lease : CapabilityLease} {now_ms : Int}
    {p : Prepared} (hp : prepare_reserve h state request lease now_ms = .ok p) (old : List DispatchRecord)
    (hold : List.Forall₂ (Rereads h.parse_f64) state.records old) :
    ∃ new, replay_event h old ((JournalEvent.Intent p.dispatch_id request lease now_ms).reread h.parse_f64) = .ok new ∧
      List.Forall₂ (Rereads h.parse_f64) p.records new := by
  obtain ⟨-, hid, hnew, hroom, haction, hexpires, happend⟩ := prepare_reserve_ok hp
  obtain ⟨-, -, hrecords, -⟩ := prepare_append_ok happend
  have hid' : request_id h (rereadRequest h.parse_f64 request) = .ok p.dispatch_id := hid
  have hkeys : ¬ (lookupBy DispatchRecord.dispatch_id p.dispatch_id old).isSome := by
    rw [lookupBy_isSome, forall₂_keys Rereads.key hold]
    exact hnew
  have hlease : ¬ (lease.action ≠ (rereadRequest h.parse_f64 request).action.kind ∨ lease.expires_at_ms ≤ now_ms) :=
    not_or.2 ⟨not_not.2 haction, Int.not_le.2 hexpires⟩
  refine ⟨insertBy DispatchRecord.dispatch_id
    ⟨p.dispatch_id, rereadRequest h.parse_f64 request, lease, now_ms, none⟩ old, ?_, ?_⟩
  · simp only [JournalEvent.reread, replay_event, hid', bind, Except.bind, ne_eq, not_true_eq_false, false_or, hkeys,
      Bool.false_eq_true, ↓reduceIte, hold.length_eq ▸ Nat.not_le.2 hroom, if_neg hlease]
  · rw [hrecords]
    exact forall₂_insertBy Rereads.key ⟨rfl, .inr rfl, rfl, rfl, .inl rfl⟩ hold

theorem replay_complete {state : JournalState} {id : String} {result : ResponseResult} {p : Prepared}
    (hp : prepare_complete h state id result = .ok p) (old : List DispatchRecord)
    (hold : List.Forall₂ (Rereads h.parse_f64) state.records old) :
    ∃ new, replay_event h old ((JournalEvent.Completion id result).reread h.parse_f64) = .ok new ∧
      List.Forall₂ (Rereads h.parse_f64) p.records new := by
  obtain ⟨-, ⟨record, hrecord, hnone⟩, happend⟩ := prepare_complete_ok hp
  obtain ⟨-, -, hrecords, -⟩ := prepare_append_ok happend
  rcases forall₂_lookupBy Rereads.key hold id with ⟨habsent, -⟩ | ⟨x, y, hx, hy, hxy⟩
  · exact absurd (habsent.symm.trans hrecord) (by simp)
  · have hy' : y.completion = none := by
      obtain rfl := Option.some.inj (hx.symm.trans hrecord)
      rcases hxy.completion with hc | hc
      · rw [hc, hnone]
      · rw [hc, hnone]
        rfl
    refine ⟨updateBy DispatchRecord.dispatch_id id
      (fun r => { r with completion := some (rereadResult h.parse_f64 result) }) old, ?_, ?_⟩
    · simp only [JournalEvent.reread, replay_event, hy, hy', Option.isSome_none, Bool.false_eq_true, ↓reduceIte]
    · rw [hrecords]
      refine forall₂_updateBy Rereads.key hold (fun a _ b _ hab => ?_)
      exact ⟨hab.dispatch_id, hab.request, hab.lease, hab.reserved_at_ms, .inr rfl⟩

/-- Every accepted call leaves a history that mirrors memory. -/
theorem mirrors_advance (hf : h.Faithful) {journal : DispatchJournal} {call : JournalCall} {p : Prepared}
    (hm : Mirrors h journal.state) (hp : prepare h journal.state call = .ok p) : Mirrors h (advance journal p).state := by
  cases call with
  | reserve request lease now_ms =>
    obtain ⟨-, -, -, -, -, -, happend⟩ := prepare_reserve_ok hp
    obtain ⟨hs, hmax, -, -⟩ := prepare_append_ok happend
    obtain ⟨hline, hread⟩ := serialize_event_line hf hs
    exact mirrors_append hm hline hread hmax (replay_reserve hp) _
  | complete id result =>
    obtain ⟨-, -, happend⟩ := prepare_complete_ok hp
    obtain ⟨hs, hmax, -, -⟩ := prepare_append_ok happend
    obtain ⟨hline, hread⟩ := serialize_event_line hf hs
    exact mirrors_append hm hline hread hmax (replay_complete hp) _

/-- A poisoned journal takes nothing. -/
theorem not_poisoned_of_prepare {state : JournalState} {call : JournalCall} {p : Prepared} (hp : prepare h state call = .ok p) :
    state.poisoned = false := by
  cases call with
  | reserve request lease now_ms => exact (prepare_reserve_ok hp).1
  | complete id result => exact (prepare_complete_ok hp).1
end

end Ambush.Runtime

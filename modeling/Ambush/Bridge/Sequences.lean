import Ambush.Lib.Runs
import Ambush.Bridge.DiskSpool
/-!
# No number is handed out twice

A history of one spool directory: opens, appends, writes of the cursor, processes that end,
crashes that cut unsynced bytes, and damage to the records of a segment. A number that was
handed out stays behind on disk: in the cursor file, in a record that is read, or in the
prefix of the record a file ends in. Appends, rolls and evictions keep it there, and an
open starts behind all of them.
-/
open Lib

namespace Ambush.Bridge

/-! ## Histories -/

structure History where
  disk : Disk := {}
  spool : Option DiskSpool := none
  /-- What the successful appends returned, oldest first. -/
  handed : List (IssuerIdx × Seq) := []

inductive Act where
  | Open (now_ms : Int) (ok : Nat → Bool) (created : Created) (stored : Bool)
  | Append (record : Record) (now_ms : Int) (faults : Faults)
  | Commit (issuer : IssuerIdx) (seq : Seq) (ok : Bool)
  | MarkGap (cause : GapCause) (ok : Bool)
  | TakeGaps (ok : Bool)
  | Seal (synced ok : Bool)
  /-- The process ends. -/
  | Drop
  /-- The machine goes down: of a segment's unsynced bytes a part is left. -/
  | Crash (kept : Nat → Nat)
  /-- Bytes behind a segment's header change. -/
  | Corrupt (ordinal offset : Nat) (patch : Bytes)

def Disk.crash (d : Disk) (kept : Nat → Nat) : Disk :=
  { d with segments := d.segments.map (fun f =>
      let bytes := f.bytes.take (max f.synced (kept f.ordinal))
      { f with bytes, synced := bytes.length }) }

def overwrite (bytes : Bytes) (offset : Nat) (patch : Bytes) : Bytes :=
  if HEADER_BYTES ≤ offset ∧ offset + patch.length ≤ bytes.length then
    bytes.take offset ++ patch ++ bytes.drop (offset + patch.length)
  else bytes

def Disk.corrupt (d : Disk) (ordinal offset : Nat) (patch : Bytes) : Disk :=
  d.update ordinal (fun f => { f with bytes := overwrite f.bytes offset patch })

namespace History

/-- What an act leads to; the spool's operations need it open, and an open needs it closed. -/
def act (config : SpoolConfig) (h : History) : Act → Option History
  | .Open now_ms ok created stored =>
    match h.spool with
    | none =>
      let opened := open_spool config h.disk now_ms ok created stored
      some { h with disk := opened.1, spool := opened.2.toOption }
    | some _ => none
  | .Append record now_ms faults =>
    h.spool.map (fun s =>
      let appended := append_record config h.disk s record now_ms faults
      { disk := appended.1
        spool := some appended.2.1
        handed := h.handed ++ (appended.2.2.toOption.map (fun seq => (record.issuer, seq))).toList })
  | .Commit issuer seq ok =>
    h.spool.map (fun s => { h with disk := (commit_seq h.disk s issuer seq ok).1, spool := some (commit_seq h.disk s issuer seq ok).2 })
  | .MarkGap cause ok =>
    h.spool.map (fun s => { h with disk := (mark_gap_cause h.disk s cause ok).1, spool := some (mark_gap_cause h.disk s cause ok).2 })
  | .TakeGaps ok =>
    h.spool.map (fun s => { h with disk := (take_gap_causes h.disk s ok).1, spool := some (take_gap_causes h.disk s ok).2 })
  | .Seal synced ok => h.spool.map (fun s => { h with disk := seal_spool h.disk s synced ok })
  | .Drop => some { h with spool := none }
  | .Crash kept => some { h with disk := h.disk.crash kept, spool := none }
  | .Corrupt ordinal offset patch => some { h with disk := h.disk.corrupt ordinal offset patch }

end History

def Acts (config : SpoolConfig) (h : History) (a : Act) (h' : History) : Prop := h.act config a = some h'

/-- Pairwise different, and increasing for each issuer. -/
def Increasing (handed : List (IssuerIdx × Seq)) : Prop := handed.Pairwise (fun a b => a.1 = b.1 → a.2 < b.2)

/-! ## What is left of a number -/

/-- A record of the segment that is read bears this number of the issuer or a later one, or the last one does, which
does not decode but has its prefix. -/
def Bears (bytes : Bytes) (issuer : IssuerIdx) (seq : Seq) : Prop :=
  (∃ r ∈ read_records_from bytes HEADER_BYTES, r.issuer = issuer ∧ seq ≤ r.seq) ∨
    (damaged (unread bytes HEADER_BYTES) = false ∧
      ( decode_prefix (unread bytes HEADER_BYTES)).any (fun p => p.issuer = issuer && decide (seq ≤ p.seq)) = true)

/-- The number is on disk: below the cursor file's next, or in a segment. -/
def Covered (d : Disk) (issuer : IssuerIdx) (seq : Seq) : Prop :=
  seq < (d.cursor.next_seq issuer).getD 1 ∨ ∃ f ∈ d.segments, Bears f.bytes issuer seq

/-- It is there for good: in the cursor file, or in a record that is read of a segment that is not damaged. -/
def Firm (d : Disk) (issuer : IssuerIdx) (seq : Seq) : Prop :=
  seq < (d.cursor.next_seq issuer).getD 1 ∨ ∃ f ∈ d.segments, damaged (unread f.bytes HEADER_BYTES) = false ∧
    ∃ r ∈ read_records_from f.bytes HEADER_BYTES, r.issuer = issuer ∧ seq ≤ r.seq

/-- The segment of this name is there, its header and whole records. -/
def Whole (d : Disk) (ordinal : Nat) : Prop :=
  (∃ f ∈ d.segments, f.ordinal = ordinal) ∧
    ∀ f ∈ d.segments, f.ordinal = ordinal → HEADER_BYTES ≤ f.bytes.length ∧ unread f.bytes HEADER_BYTES = []

/-- An append finds the active segment whole; a crash and a damaged segment leave every number that was handed out on
disk, and an open that fails finds it there for good. -/
def SeqSafe (config : SpoolConfig) (h : History) : Act → Prop
  | .Open now_ms ok created stored =>
    (open_spool config h.disk now_ms ok created stored).2.toOption = none → ∀ p ∈ h.handed, Firm h.disk p.1 p.2
  | .Append record _ _ => record.payload.length < 4294967296 ∧ ∀ s ∈ h.spool, Whole h.disk s.active
  | .Crash kept => ∀ p ∈ h.handed, Covered (h.disk.crash kept) p.1 p.2
  | .Corrupt ordinal offset patch => ∀ p ∈ h.handed, Covered (h.disk.corrupt ordinal offset patch) p.1 p.2
  | _ => True

instance (bytes : Bytes) (issuer : IssuerIdx) (seq : Seq) : Decidable (Bears bytes issuer seq) := inferInstanceAs (Decidable (_ ∨ _))

instance (d : Disk) (issuer : IssuerIdx) (seq : Seq) : Decidable (Covered d issuer seq) := inferInstanceAs (Decidable (_ ∨ _))

instance (d : Disk) (issuer : IssuerIdx) (seq : Seq) : Decidable (Firm d issuer seq) := inferInstanceAs (Decidable (_ ∨ _))

instance (d : Disk) (ordinal : Nat) : Decidable (Whole d ordinal) := inferInstanceAs (Decidable (_ ∧ _))

instance (config : SpoolConfig) (h : History) : (a : Act) → Decidable (SeqSafe config h a)
  | .Open now_ms ok created stored => inferInstanceAs (Decidable
      ((open_spool config h.disk now_ms ok created stored).2.toOption = none → ∀ p ∈ h.handed, Firm h.disk p.1 p.2))
  | .Append .. => inferInstanceAs (Decidable (_ ∧ _))
  | .Crash kept => inferInstanceAs (Decidable (∀ p ∈ h.handed, Covered (h.disk.crash kept) p.1 p.2))
  | .Corrupt ordinal offset patch =>
    inferInstanceAs (Decidable (∀ p ∈ h.handed, Covered (h.disk.corrupt ordinal offset patch) p.1 p.2))
  | .Commit .. | .MarkGap .. | .TakeGaps .. | .Seal .. | .Drop => .isTrue trivial

/-- An act that keeps the numbers, as a partial function. -/
def History.act_safely (config : SpoolConfig) (h : History) (a : Act) : Option History :=
  if SeqSafe config h a then h.act config a else none

def SeqSafely (config : SpoolConfig) (h : History) (a : Act) (h' : History) : Prop := Acts config h a h' ∧ SeqSafe config h a

/-! ## Reading segments -/

theorem reads_segment (bytes : Bytes) :
    Reads (bytes.drop HEADER_BYTES) (read_records_from bytes HEADER_BYTES) (unread bytes HEADER_BYTES) :=
  reads_records (by rw [List.length_drop]; omega)

theorem segment_reads {bytes rest : Bytes} {records : List Record} (h : Reads (bytes.drop HEADER_BYTES) records rest) :
    read_records_from bytes HEADER_BYTES = records ∧ unread bytes HEADER_BYTES = rest := by
  have heq : read_records bytes.length (bytes.drop HEADER_BYTES) = (records, rest) :=
    h.eq_read (by rw [List.length_drop]; omega)
  rw [read_records_from, unread, heq]
  exact ⟨rfl, rfl⟩

/-- More bytes behind whole records: what was read still is. -/
theorem bears_append {bytes : Bytes} (hlen : HEADER_BYTES ≤ bytes.length) (hwhole : unread bytes HEADER_BYTES = [])
    (more : Bytes) {issuer : IssuerIdx} {seq : Seq} (h : Bears bytes issuer seq) : Bears (bytes ++ more) issuer seq := by
  rcases h with ⟨r, hr, hi⟩ | ⟨-, hp⟩
  · have hread := reads_segment bytes
    rw [hwhole] at hread
    have hall := hread.append (reads_records (le_refl more.length))
    rw [← List.drop_append_of_le_length hlen] at hall
    refine .inl ⟨r, ?_, hi⟩
    rw [(segment_reads hall).1]
    exact List.mem_append_left _ hr
  · rw [hwhole] at hp
    cases hp

/-- A record written behind whole records is read. -/
theorem bears_written {bytes : Bytes} (hlen : HEADER_BYTES ≤ bytes.length) (hwhole : unread bytes HEADER_BYTES = [])
    {record : Record} (hseq : record.seq < 18446744073709551616) (hpayload : record.payload.length < 4294967296) :
    Bears (bytes ++ encode_record record) record.issuer record.seq := by
  have hread := reads_segment bytes
  rw [hwhole] at hread
  have hdecode := decode_encode hseq hpayload []
  rw [List.append_nil] at hdecode
  have hend : Reads ((encode_record record).drop (encode_record record).length) [] [] := by
    rw [List.drop_length]
    exact .stop (fun r n h => by cases h)
  have hall := hread.append (.step hdecode hend)
  rw [← List.drop_append_of_le_length hlen] at hall
  refine .inl ⟨record.stored, ?_, record.stored_issuer, record.stored_seq.ge⟩
  rw [(segment_reads hall).1]
  exact List.mem_append_right _ (List.mem_singleton.2 rfl)

/-- Cut where the reading stopped, a segment has its records and is whole. -/
theorem segment_cut (bytes : Bytes) :
    read_records_from (bytes.take (HEADER_BYTES + ((bytes.drop HEADER_BYTES).length - (unread bytes HEADER_BYTES).length)))
        HEADER_BYTES = read_records_from bytes HEADER_BYTES ∧
      unread (bytes.take (HEADER_BYTES + ((bytes.drop HEADER_BYTES).length - (unread bytes HEADER_BYTES).length)))
        HEADER_BYTES = [] := by
  refine segment_reads ?_
  rw [List.drop_take, Nat.add_sub_cancel_left]
  exact (reads_segment bytes).take

/-! ## What keeps the numbers -/

/-- The numbers are on disk and behind the open spool's next, and no counter is past 64 bits. -/
structure Kept (handed : List (IssuerIdx × Seq)) (d : Disk) (s : DiskSpool) : Prop where
  covered : ∀ p ∈ handed, Covered d p.1 p.2
  ahead : ∀ p ∈ handed, p.2 < s.next_seq p.1
  bounded : ∀ i, (d.cursor.next_seq i).getD 1 < 18446744073709551616 ∧ s.next_seq i < 18446744073709551616

section
variable {handed : List (IssuerIdx × Seq)} {d d' : Disk} {s s' : DiskSpool}

theorem Covered.mono {i : IssuerIdx} {n : Seq} (h : Covered d i n) (hc : d'.cursor = d.cursor)
    (hs : ∀ f ∈ d.segments, Bears f.bytes i n → ∃ f' ∈ d'.segments, Bears f'.bytes i n) : Covered d' i n := by
  rcases h with h | ⟨f, hf, hb⟩
  · exact .inl (by rw [hc]; exact h)
  · exact .inr (hs f hf hb)

/-- A change of files that loses nothing. -/
theorem Kept.files (h : Kept handed d s) (hc : d'.cursor = d.cursor) (hn : s'.cursor.next_seq = s.cursor.next_seq)
    (hs : ∀ p ∈ handed, ∀ f ∈ d.segments, Bears f.bytes p.1 p.2 → ∃ f' ∈ d'.segments, Bears f'.bytes p.1 p.2) :
    Kept handed d' s' := by
  have hnext : s'.next_seq = s.next_seq := by
    funext i
    rw [DiskSpool.next_seq, DiskSpool.next_seq, hn]
  refine ⟨fun p hp => (h.covered p hp).mono hc (hs p hp), fun p hp => ?_, fun i => ?_⟩
  · rw [hnext]
    exact h.ahead p hp
  · rw [hc, hnext]
    exact h.bounded i

/-- The cursor file has the spool's numbers, whatever becomes of the segments. -/
theorem Kept.stored (h : Kept handed d s) (hc : d'.cursor.next_seq = s.cursor.next_seq) (hn : s'.cursor.next_seq = s.cursor.next_seq) :
    Kept handed d' s' := by
  have hnext : s'.next_seq = s.next_seq := by
    funext i
    rw [DiskSpool.next_seq, DiskSpool.next_seq, hn]
  refine ⟨fun p hp => .inl ?_, fun p hp => ?_, fun i => ⟨?_, ?_⟩⟩
  · rw [hc]
    exact h.ahead p hp
  · rw [hnext]
    exact h.ahead p hp
  · rw [hc]
    exact (h.bounded i).2
  · rw [hnext]
    exact (h.bounded i).2

theorem Kept.sync (h : Kept handed d s) (ordinal : Nat) : Kept handed (d.sync ordinal) s := by
  refine h.files rfl rfl (fun p _ f hf hb => ?_)
  refine ⟨_, List.mem_map_of_mem hf, ?_⟩
  simp only
  split
  · exact hb
  · exact hb

theorem Kept.add (h : Kept handed d s) (f : SegmentFile) : Kept handed (d.add f) s := by
  refine h.files rfl rfl (fun p _ g hg hb => ⟨g, ?_, hb⟩)
  exact (List.mem_orderedInsert _).2 (.inr hg)

theorem Kept.create (h : Kept handed d s) (config : SpoolConfig) (ordinal : Nat) (now_ms : Int) (created : Created) :
    Kept handed (create_segment config d ordinal now_ms created).1 s := by
  unfold create_segment
  simp only
  split
  · exact h
  · cases created with
    | Whole => exact h.add _
    | Torn written => exact h.add _
    | Refused => exact h

theorem Kept.store_cursor (h : Kept handed d s) (hn : s'.cursor.next_seq = s.cursor.next_seq) (ok : Bool) :
    Kept handed (store_cursor d s' ok) s' := by
  unfold Bridge.store_cursor
  split
  · exact h.stored hn hn
  · exact h.files rfl hn (fun _ _ f hf hb => ⟨f, hf, hb⟩)

/-! ## Append -/

theorem Kept.roll (h : Kept handed d s) (config : SpoolConfig) (now_ms : Int) (faults : Faults) :
    Kept handed (roll config d s now_ms faults).1 (roll config d s now_ms faults).2.1 ∧
      (roll config d s now_ms faults).2.1.cursor = s.cursor ∧
      ((roll config d s now_ms faults).2.2 = .ok () → (roll config d s now_ms faults).1.cursor = s.cursor) := by
  unfold Bridge.roll
  split
  · simp only
    have hcreated := (h.sync s.active).create config s.next_ordinal now_ms faults.created
    split
    · next d' heq =>
      rw [heq] at hcreated
      exact ⟨hcreated.files rfl rfl (fun _ _ f hf hb => ⟨f, hf, hb⟩), rfl, fun he => by cases he⟩
    · next d' heq =>
      rw [heq] at hcreated
      split
      · exact ⟨hcreated.stored rfl rfl, rfl, fun _ => rfl⟩
      · exact ⟨hcreated.files rfl rfl (fun _ _ f hf hb => ⟨f, hf, hb⟩), rfl, fun he => by cases he⟩
  · exact ⟨h, rfl, fun he => by cases he⟩

/-- An eviction finds the numbers in the cursor file. -/
theorem Kept.evict_loop (h : Kept handed d s) (hc : d.cursor.next_seq = s.cursor.next_seq) (config : SpoolConfig)
    (unlinked : Nat → Bool) (n : Nat) (sealed : List Nat) :
    Kept handed (evict_loop config unlinked n sealed d s).1 (evict_loop config unlinked n sealed d s).2.1 ∧
      (evict_loop config unlinked n sealed d s).2.1.cursor.next_seq = s.cursor.next_seq := by
  induction sealed generalizing n d s with
  | nil => exact ⟨h, rfl⟩
  | cons path sealed ih =>
    unfold Bridge.evict_loop
    split
    · simp only
      split
      · exact ⟨h.stored hc rfl, rfl⟩
      · split
        · exact ⟨h.stored hc rfl, rfl⟩
        · next report _ =>
          split
          · have hn : (((evicted_range report.seq_ranges).map s.cursor.mark_gap).getD s.cursor).next_seq = s.cursor.next_seq := by
              cases evicted_range report.seq_ranges with
              | none => rfl
              | some cause => rfl
            have hstep : ∀ bytes, Kept handed (d.unlink path) { s with
                sealed, bytes, cursor := ((evicted_range report.seq_ranges).map s.cursor.mark_gap).getD s.cursor } :=
              fun _ => h.stored hc hn
            obtain ⟨hkept, hnext⟩ := ih (hstep _) (hc.trans hn.symm) (n + 1)
            exact ⟨hkept, hnext.trans hn⟩
          · exact ⟨h.stored hc rfl, rfl⟩
    · exact ⟨h, rfl⟩

theorem Kept.settle (h : Kept handed d s) (config : SpoolConfig) (now_ms : Int) (faults : Faults) :
    Kept handed (settle config d s now_ms faults).1 (settle config d s now_ms faults).2.1 := by
  unfold Bridge.settle
  split
  · obtain ⟨hrolled, hcursor, hstored⟩ := h.roll config now_ms faults
    split
    · next d' s' e heq =>
      rw [heq] at hrolled
      exact hrolled
    · next d' s' heq =>
      rw [heq] at hrolled hcursor hstored
      split
      · exact hrolled
      · -- The roll wrote the cursor file, so nothing depends on the segments that go.
        have hfile : d'.cursor.next_seq = s'.cursor.next_seq := by
          rw [show d'.cursor = s.cursor from hstored rfl, show s'.cursor = s.cursor from hcursor]
        have hloop := hrolled.evict_loop hfile config faults.unlinked 0 s'.sealed
        unfold Bridge.evict_to_budget
        split
        · next d'' s'' e heq' =>
          rw [heq'] at hloop
          exact hloop.1
        · next d'' s'' heq' =>
          rw [heq'] at hloop
          split
          · exact hloop.1.stored rfl rfl
          · exact hloop.1
  · exact h

/-- Bytes written to a whole active segment. -/
theorem Covered.write {i : IssuerIdx} {n : Seq} (h : Covered d i n) {ordinal : Nat} (hwhole : Whole d ordinal) (bytes : Bytes) : Covered (d.write ordinal bytes) i n := by
  refine h.mono rfl (fun f hf hb => ⟨_, List.mem_map_of_mem hf, ?_⟩)
  simp only
  split
  · next ho => exact bears_append (hwhole.2 f hf ho).1 (hwhole.2 f hf ho).2 bytes hb
  · exact hb

theorem Kept.write (h : Kept handed d s) {ordinal : Nat} (hwhole : Whole d ordinal) (bytes : Bytes)
    (hn : s'.cursor.next_seq = s.cursor.next_seq) : Kept handed (d.write ordinal bytes) s' := by
  refine ⟨fun p hp => (h.covered p hp).write hwhole bytes, fun p hp => ?_, fun i => ⟨(h.bounded i).1, ?_⟩⟩
  · rw [DiskSpool.next_seq, hn]
    exact h.ahead p hp
  · rw [DiskSpool.next_seq, hn]
    exact (h.bounded i).2

theorem Kept.sublist (h : Kept handed d s) {handed' : List (IssuerIdx × Seq)} (hle : ∀ p ∈ handed', p ∈ handed) :
    Kept handed' d s :=
  ⟨fun p hp => h.covered p (hle p hp), fun p hp => h.ahead p (hle p hp), h.bounded⟩

/-- An append that fails hands out nothing. -/
theorem Kept.failed (h : Kept handed d s) : Kept (handed ++ []) d s := by
  rw [List.append_nil]
  exact h

/-- The number just handed out is in the record just written. -/
theorem Kept.hand_out (h : Kept handed d s) {record : Record} (hwhole : Whole d s.active)
    (hpayload : record.payload.length < 4294967296) (hseq : record.seq = s.next_seq record.issuer) {next : Seq}
    (hnext : after record.seq = .ok next) (hn : s'.cursor.next_seq = s.cursor.next_seq.insert record.issuer next) :
    Kept (handed ++ [(record.issuer, record.seq)]) (d.write s.active (encode_record record)) s' := by
  have hbound : record.seq + 1 < 18446744073709551616 ∧ next = record.seq + 1 := by
    rw [after] at hnext
    split at hnext
    · next hlt => exact ⟨hlt, (Except.ok.inj hnext).symm⟩
    · cases hnext
  have hmono : ∀ i, s'.next_seq i = if i = record.issuer then record.seq + 1 else s.next_seq i := by
    intro i
    rw [DiskSpool.next_seq, hn, Map.insert_apply, hbound.2]
    split
    · rfl
    · rfl
  refine ⟨fun p hp => ?_, fun p hp => ?_, fun i => ⟨(h.bounded i).1, ?_⟩⟩
  · rcases List.mem_append.1 hp with hp | hp
    · exact (h.covered p hp).write hwhole _
    · rw [List.mem_singleton.1 hp]
      obtain ⟨⟨f, hf, ho⟩, hall⟩ := hwhole
      refine .inr ⟨_, List.mem_map_of_mem hf, ?_⟩
      rw [if_pos ho]
      exact bears_written (hall f hf ho).1 (hall f hf ho).2 (Nat.lt_of_succ_lt hbound.1) hpayload
  · rw [hmono]
    rcases List.mem_append.1 hp with hp | hp
    · have hahead := h.ahead p hp
      split
      · next hi => rw [hseq, ← hi]; exact Nat.lt_succ_of_lt hahead
      · exact hahead
    · rw [List.mem_singleton.1 hp, if_pos rfl]
      exact Nat.lt_succ_self _
  · rw [hmono]
    split
    · exact hbound.1
    · exact (h.bounded i).2

theorem Kept.append_record (h : Kept handed d s) (config : SpoolConfig) {record : Record} (hwhole : Whole d s.active)
    (hpayload : record.payload.length < 4294967296) (now_ms : Int) (faults : Faults) :
    Kept (handed ++ ((append_record config d s record now_ms faults).2.2.toOption.map (fun seq => (record.issuer, seq))).toList)
        (append_record config d s record now_ms faults).1 (append_record config d s record now_ms faults).2.1 ∧
      ∀ seq, (append_record config d s record now_ms faults).2.2 = .ok seq → seq = s.next_seq record.issuer := by
  unfold Bridge.append_record
  split
  · exact ⟨h.failed, fun seq he => by cases he⟩
  · simp only
    split
    · exact ⟨(h.write hwhole _ rfl).failed, fun seq he => by cases he⟩
    · split
      · refine ⟨Kept.failed (h.write hwhole _ ?_), fun seq he => by cases he⟩
        rfl
      · next next hnext =>
        have hkept : ∀ end_offset bytes, Kept (handed ++ [(record.issuer, s.next_seq record.issuer)])
            (d.write s.active (encode_record { record with seq := s.next_seq record.issuer }))
            { s with
              end_offset, bytes
              cursor := { s.cursor with next_seq := s.cursor.next_seq.insert record.issuer next } } :=
          fun _ _ => @Kept.hand_out _ _ _ _ h { record with seq := s.next_seq record.issuer } hwhole hpayload rfl _ hnext rfl
        have hsettled := (hkept (s.end_offset + (encode_record { record with seq := s.next_seq record.issuer }).length)
          (s.bytes + (RECORD_PREFIX_BYTES + record.payload.length))).settle config now_ms faults
        split
        · next d' s' e heq =>
          rw [heq] at hsettled
          exact ⟨(hsettled.sublist (fun p hp => List.mem_append_left _ hp)).failed, fun seq he => by cases he⟩
        · next d' s' heq =>
          rw [heq] at hsettled
          exact ⟨hsettled, fun seq he => (Except.ok.inj he).symm⟩
end

/-! ## What an open recovers -/

/-- The issuer's next number in a map of a recovery. -/
def next_in (next_seq : Map IssuerIdx Seq) (i : IssuerIdx) : Seq := (next_seq i).getD 1

theorem next_in_raise (m : Map IssuerIdx Seq) (issuer : IssuerIdx) (seq : Seq) (i : IssuerIdx) :
    next_in (raise m issuer seq) i = if i = issuer then max (next_in m issuer) seq else next_in m i := by
  rw [next_in, raise, Map.insert_apply]
  split
  · rfl
  · rfl

theorem after_ok {seq next : Seq} (h : after seq = .ok next) : next = seq + 1 ∧ seq + 1 < 18446744073709551616 := by
  rw [after] at h
  split at h
  · next hlt => exact ⟨(Except.ok.inj h).symm, hlt⟩
  · cases h

/-- A step of a recovery: counters only go up, and stay in 64 bits. -/
structure Climbs (m m' : Map IssuerIdx Seq) : Prop where
  mono : ∀ i, next_in m i ≤ next_in m' i
  bounded : (∀ i, next_in m i < 18446744073709551616) → ∀ i, next_in m' i < 18446744073709551616

theorem Climbs.refl (m : Map IssuerIdx Seq) : Climbs m m := ⟨fun _ => le_refl _, fun h => h⟩

theorem Climbs.trans {m m' m'' : Map IssuerIdx Seq} (h : Climbs m m') (h' : Climbs m' m'') : Climbs m m'' :=
  ⟨fun i => (h.mono i).trans (h'.mono i), fun hb => h'.bounded (h.bounded hb)⟩

theorem climbs_raise (m : Map IssuerIdx Seq) (issuer : IssuerIdx) {seq : Seq} (h : seq < 18446744073709551616) :
    Climbs m (raise m issuer seq) := by
  refine ⟨fun i => ?_, fun hb i => ?_⟩
  · rw [next_in_raise]
    split
    · next hi => rw [hi]; exact Nat.le_max_left _ _
    · exact le_refl _
  · rw [next_in_raise]
    split
    · exact Nat.max_lt.2 ⟨hb issuer, h⟩
    · exact hb i

theorem climbs_raise_ranges {ranges : List (IssuerIdx × (Seq × Seq))} {m m' : Map IssuerIdx Seq}
    (h : raise_ranges m ranges = .ok m') :
    Climbs m m' ∧ ∀ i lo hi, (i, lo, hi) ∈ ranges → hi < next_in m' i := by
  induction ranges generalizing m with
  | nil =>
    obtain rfl := Except.ok.inj h
    exact ⟨.refl _, fun i lo hi hmem => by cases hmem⟩
  | cons range ranges ih =>
    obtain ⟨issuer, lo, hi⟩ := range
    rw [raise_ranges, ok_bind_iff] at h
    obtain ⟨next, hnext, h⟩ := h
    obtain ⟨rfl, hbound⟩ := after_ok hnext
    obtain ⟨hclimbs, hranges⟩ := ih h
    refine ⟨(climbs_raise m issuer hbound).trans hclimbs, fun i lo' hi' hmem => ?_⟩
    rcases List.mem_cons.1 hmem with heq | hmem
    · obtain ⟨rfl, rfl, rfl⟩ := by simpa only [Prod.mk.injEq] using heq
      refine lt_of_lt_of_le ?_ (hclimbs.mono i)
      rw [next_in_raise, if_pos rfl]
      exact (Nat.lt_succ_self hi').trans_le (Nat.le_max_right _ _)
    · exact hranges i lo' hi' hmem

theorem mem_entries {α : Type} {m : Map IssuerIdx α} {i : IssuerIdx} {a : α} (h : m i = some a) : (i, a) ∈ entries m := by
  refine List.mem_filterMap.2 ⟨i.toNat, List.mem_range.2 (UInt8.toNat_lt i), ?_⟩
  rw [UInt8.ofNat_toNat, h]
  rfl

/-! ## One segment -/

theorem scan_spec {bytes hash : Bytes} {path : Nat} {report : ScanReport} (h : scan bytes hash path = .ok report) :
    report.seq_ranges = SeqRanges.noted .empty (read_records_from bytes HEADER_BYTES) ∧
      Judged (unread bytes HEADER_BYTES)
        (HEADER_BYTES + ((bytes.drop HEADER_BYTES).length - (unread bytes HEADER_BYTES).length)) report.verdict := by
  rw [scan, ok_bind_iff] at h
  obtain ⟨header, -, h⟩ := h
  rw [ok_bind_iff] at h
  obtain ⟨⟨verdict, ranges⟩, hloop, h⟩ := h
  obtain rfl := Except.ok.inj h
  exact scan_loop_spec (reads_segment bytes) (by rw [List.length_drop]; omega) hloop

/-- A number a segment bears is in a range of the scan, or in its verdict. -/
theorem Bears.scanned {bytes hash : Bytes} {path : Nat} {report : ScanReport} (h : scan bytes hash path = .ok report)
    {i : IssuerIdx} {n : Seq} (hb : Bears bytes i n) :
    (∃ lo hi, report.seq_ranges i = some (lo, hi) ∧ n ≤ hi) ∨
      ∃ truncate_at burned, report.verdict = .TornTail truncate_at burned (some i) ∧ n ≤ burned.2 := by
  obtain ⟨hranges, hjudged⟩ := scan_spec h
  rcases hb with ⟨r, hr, rfl, hle⟩ | ⟨hdam, htail⟩
  · obtain ⟨lo, hi, hrange, hle'⟩ := SeqRanges.le_noted hr .empty
    exact .inl ⟨lo, hi, by rw [hranges]; exact hrange, hle.trans hle'⟩
  · obtain ⟨p, hp, hi⟩ := (Option.any_eq_true _ _).1 htail
    simp only [Bool.and_eq_true, decide_eq_true_eq] at hi
    obtain ⟨rfl, hle⟩ := hi
    cases hv : report.verdict with
    | Clean end_offset =>
      rw [hv] at hjudged
      rw [hjudged.1] at hp
      cases hp
    | TornTail truncate_at burned burned_issuer =>
      rw [hv] at hjudged
      obtain ⟨rfl, rfl⟩ := hjudged.2.2 p hp
      exact .inr ⟨truncate_at, (p.seq, p.seq), rfl, hle⟩
    | Corrupt at_offset range =>
      rw [hv] at hjudged
      exact absurd (hdam.symm.trans hjudged) Bool.false_ne_true

theorem scanned_spec {r r' : Recovery} {config : SpoolConfig} {f : SegmentFile} {report : ScanReport}
    (h : r.scanned config f = .ok (report, r')) :
    scan f.bytes config.colony_hash f.ordinal = .ok report ∧ r'.cursor = r.cursor ∧
      Climbs r.recovered_next_seq r'.recovered_next_seq ∧
      ∀ i lo hi, report.seq_ranges i = some (lo, hi) → hi < next_in r'.recovered_next_seq i := by
  rw [Recovery.scanned, ok_bind_iff] at h
  obtain ⟨report', hscan, h⟩ := h
  rw [ok_bind_iff] at h
  obtain ⟨next_ordinal, -, h⟩ := h
  rw [ok_bind_iff] at h
  obtain ⟨recovered, hraise, h⟩ := h
  obtain ⟨rfl, rfl⟩ := Prod.mk.inj (Except.ok.inj h)
  obtain ⟨hclimbs, hranges⟩ := climbs_raise_ranges hraise
  exact ⟨hscan, rfl, hclimbs, fun i lo hi hmem => hranges i lo hi (mem_entries hmem)⟩

theorem burn_spec {r r' : Recovery} {burned : Seq × Seq} {burned_issuer : Option IssuerIdx}
    (h : r.burn burned burned_issuer = .ok r') :
    r'.cursor = r.cursor ∧ Climbs r.recovered_next_seq r'.recovered_next_seq ∧
      ∀ i, burned_issuer = some i → burned.2 < next_in r'.recovered_next_seq i := by
  cases burned_issuer with
  | none =>
    obtain rfl := Except.ok.inj h
    exact ⟨rfl, .refl _, fun i hi => by cases hi⟩
  | some issuer =>
    rw [Recovery.burn, ok_bind_iff] at h
    obtain ⟨next, hnext, h⟩ := h
    obtain rfl := Except.ok.inj h
    obtain ⟨rfl, hbound⟩ := after_ok hnext
    refine ⟨rfl, climbs_raise _ _ hbound, fun i hi => ?_⟩
    obtain rfl := Option.some.inj hi
    rw [next_in_raise, if_pos rfl]
    exact (Nat.lt_succ_self burned.2).trans_le (Nat.le_max_right _ _)

/-- A segment that is recovered raises its issuers' numbers past those it bears. -/
theorem recover_segment_ok {config : SpoolConfig} {r r' : Recovery} {f : SegmentFile} {left : Option SegmentFile}
    (h : recover_segment config r f = (left, .ok r')) :
    r'.cursor.next_seq = r.cursor.next_seq ∧ Climbs r.recovered_next_seq r'.recovered_next_seq ∧
      ∀ i n, Bears f.bytes i n → n < next_in r'.recovered_next_seq i := by
  rw [recover_segment] at h
  split at h
  · cases (Prod.mk.inj h).2
  · next report r1 hscanned =>
    obtain ⟨hscan, hcursor, hclimbs, hranges⟩ := scanned_spec hscanned
    have hborne : ∀ i n, Bears f.bytes i n → n < next_in r1.recovered_next_seq i ∨
        ∃ truncate_at burned, report.verdict = .TornTail truncate_at burned (some i) ∧ n ≤ burned.2 := by
      intro i n hb
      rcases hb.scanned hscan with ⟨lo, hi, hrange, hle⟩ | htorn
      · exact .inl (hle.trans_lt (hranges i lo hi hrange))
      · exact .inr htorn
    split at h
    · next hv =>
      obtain rfl := Except.ok.inj (Prod.mk.inj h).2
      refine ⟨by rw [← hcursor]; rfl, hclimbs, fun i n hb => (hborne i n hb).resolve_right ?_⟩
      rintro ⟨truncate_at, burned, htorn, -⟩
      cases hv.symm.trans htorn
    · next truncate_at burned burned_issuer hv =>
      simp only at h
      split at h
      · cases (Prod.mk.inj h).2
      · next r2 hburn =>
        obtain rfl := Except.ok.inj (Prod.mk.inj h).2
        obtain ⟨hcursor', hclimbs', hburned⟩ := burn_spec hburn
        refine ⟨by rw [← hcursor, ← hcursor']; rfl, hclimbs.trans hclimbs', fun i n hb => ?_⟩
        rcases hborne i n hb with hlt | ⟨truncate_at', burned', htorn, hle⟩
        · exact hlt.trans_le (hclimbs'.mono i)
        · rw [hv] at htorn
          obtain ⟨-, rfl, hissuer⟩ := TailVerdict.TornTail.inj htorn
          exact hle.trans_lt (hburned i hissuer)
    · next hv =>
      obtain rfl := Except.ok.inj (Prod.mk.inj h).2
      refine ⟨by rw [← hcursor]; rfl, hclimbs, fun i n hb => (hborne i n hb).resolve_right ?_⟩
      rintro ⟨truncate_at, burned, htorn, -⟩
      cases hv.symm.trans htorn

/-- A record that is read of a segment without damage. -/
def Reads.Firmly (bytes : Bytes) (i : IssuerIdx) (n : Seq) : Prop := damaged (unread bytes HEADER_BYTES) = false ∧
  ∃ r ∈ read_records_from bytes HEADER_BYTES, r.issuer = i ∧ n ≤ r.seq

/-- What is left of a segment's file has its records, unless the segment is damaged. -/
theorem recover_segment_left (config : SpoolConfig) (r : Recovery) (f : SegmentFile) {i : IssuerIdx} {n : Seq}
    (h : Reads.Firmly f.bytes i n) : ∃ f' ∈ (recover_segment config r f).1, Reads.Firmly f'.bytes i n := by
  rw [recover_segment]
  split
  · exact ⟨f, rfl, h⟩
  · next report r1 hscanned =>
    obtain ⟨hscan, -, -, -⟩ := scanned_spec hscanned
    obtain ⟨-, hjudged⟩ := scan_spec hscan
    split
    · exact ⟨f, rfl, h⟩
    · next truncate_at burned burned_issuer hv =>
      rw [hv] at hjudged
      have hcut : Reads.Firmly (f.bytes.take truncate_at) i n := by
        obtain ⟨-, htr, -⟩ := hjudged
        obtain ⟨hreads, hrest⟩ := segment_cut f.bytes
        rw [htr, Reads.Firmly, hreads, hrest]
        exact ⟨rfl, h.2⟩
      simp only
      split
      · exact ⟨_, rfl, hcut⟩
      · exact ⟨_, rfl, hcut⟩
    · next hv =>
      rw [hv] at hjudged
      exact absurd (h.1.symm.trans hjudged) Bool.false_ne_true

/-! ## All segments -/

theorem recover_ok {config : SpoolConfig} {ok : Nat → Bool} {files left : List SegmentFile} {n : Nat} {r r' : Recovery}
    (h : recover config ok n r files = (left, .ok r')) :
    r'.cursor.next_seq = r.cursor.next_seq ∧ Climbs r.recovered_next_seq r'.recovered_next_seq ∧
      ∀ i seq, (∃ f ∈ files, Bears f.bytes i seq) → seq < next_in r'.recovered_next_seq i := by
  induction files generalizing n r left with
  | nil =>
    obtain rfl := Except.ok.inj (Prod.mk.inj h).2
    exact ⟨rfl, .refl _, fun i seq ⟨f, hf, _⟩ => by cases hf⟩
  | cons f files ih =>
    rw [recover] at h
    split at h
    · split at h
      · cases (Prod.mk.inj h).2
      · next left' r1 hone =>
        obtain ⟨hcursor, hclimbs, hborne⟩ := recover_segment_ok hone
        obtain ⟨hcursor', hclimbs', hborne'⟩ := ih (Prod.ext rfl (Prod.mk.inj h).2)
        refine ⟨hcursor'.trans hcursor, hclimbs.trans hclimbs', fun i seq ⟨g, hg, hb⟩ => ?_⟩
        rcases List.mem_cons.1 hg with rfl | hg
        · exact (hborne i seq hb).trans_le (hclimbs'.mono i)
        · exact hborne' i seq ⟨g, hg, hb⟩
    · cases (Prod.mk.inj h).2

theorem recover_left (config : SpoolConfig) (ok : Nat → Bool) {i : IssuerIdx} {seq : Seq} {f : SegmentFile}
    (h : Reads.Firmly f.bytes i seq) {files : List SegmentFile} (hf : f ∈ files) (n : Nat) (r : Recovery) :
    ∃ f' ∈ (recover config ok n r files).1, Reads.Firmly f'.bytes i seq := by
  induction files generalizing n r with
  | nil => cases hf
  | cons g files ih =>
    rw [recover]
    split
    · rcases List.mem_cons.1 hf with rfl | hf
      · obtain ⟨f', hf', hfirm⟩ := recover_segment_left config r f h
        split
        · next left e heq =>
          rw [heq] at hf'
          exact ⟨f', List.mem_append_left _ (Option.mem_toList.2 hf'), hfirm⟩
        · next left r1 heq =>
          rw [heq] at hf'
          exact ⟨f', List.mem_append_left _ (Option.mem_toList.2 hf'), hfirm⟩
      · split
        · exact ⟨f, List.mem_append_right _ hf, h⟩
        · next left r1 _ =>
          obtain ⟨f', hf', hfirm⟩ := ih hf (n + 1) r1
          exact ⟨f', List.mem_append_right _ hf', hfirm⟩
    · exact ⟨f, hf, h⟩

/-! ## Open -/

theorem next_in_honoured (recovered next_seq : Map IssuerIdx Seq) (i : IssuerIdx) :
    next_in recovered i ≤ next_in (honoured recovered next_seq) i ∧
      (∀ seq, next_seq i = some seq → seq ≤ next_in (honoured recovered next_seq) i) ∧
      ((∀ i, next_in recovered i < 18446744073709551616) → (∀ i, next_in next_seq i < 18446744073709551616) →
        next_in (honoured recovered next_seq) i < 18446744073709551616) := by
  unfold next_in honoured
  cases hn : next_seq i with
  | none => exact ⟨le_refl _, fun seq hs => (by cases hs), fun hr _ => hr i⟩
  | some seq =>
    refine ⟨Nat.le_max_left _ _, fun seq' hs => ?_, fun hr hs => Nat.max_lt.2 ⟨hr i, ?_⟩⟩
    · rw [← Option.some.inj hs]
      exact Nat.le_max_right _ _
    · have := hs i
      rw [hn] at this
      exact this

theorem create_segment_mem (config : SpoolConfig) (d : Disk) (ordinal : Nat) (now_ms : Int) (created : Created) :
    (create_segment config d ordinal now_ms created).1.cursor = d.cursor ∧
      ∀ f ∈ d.segments, f ∈ (create_segment config d ordinal now_ms created).1.segments := by
  unfold create_segment
  simp only
  split
  · exact ⟨rfl, fun f hf => hf⟩
  · cases created with
    | Whole => exact ⟨rfl, fun f hf => (List.mem_orderedInsert _).2 (.inr hf)⟩
    | Torn written => exact ⟨rfl, fun f hf => (List.mem_orderedInsert _).2 (.inr hf)⟩
    | Refused => exact ⟨rfl, fun f hf => hf⟩

theorem open_active_spec (config : SpoolConfig) (d : Disk) (r : Recovery) (cursor : Cursor) (now_ms : Int) (created : Created) :
    ((open_active config d r cursor now_ms created).1.cursor = d.cursor ∧
      ∀ f ∈ d.segments, f ∈ (open_active config d r cursor now_ms created).1.segments) ∧
      ∀ s, (open_active config d r cursor now_ms created).2 = .ok s → s.cursor = cursor := by
  unfold open_active
  split
  · next ordinal end_offset _ =>
    refine ⟨⟨rfl, fun f hf => hf⟩, fun s hs => ?_⟩
    simp only at hs
    cases ho : open_for_append config d ordinal with
    | error e => rw [ho] at hs; cases hs
    | ok u =>
      rw [ho] at hs
      rw [← Except.ok.inj hs]
  · have hcreate := create_segment_mem config d r.next_ordinal now_ms created
    split
    · next d' heq =>
      rw [heq] at hcreate
      refine ⟨hcreate, fun s hs => ?_⟩
      rw [← Except.ok.inj hs]
    · next d' heq =>
      rw [heq] at hcreate
      exact ⟨hcreate, fun s hs => by cases hs⟩

/-- An open that succeeds is behind every number on disk, and writes its own down. -/
theorem open_spool_ok {config : SpoolConfig} {d : Disk} {now_ms : Int} {ok : Nat → Bool} {created : Created} {stored : Bool}
    {s : DiskSpool} (hs : (open_spool config d now_ms ok created stored).2 = .ok s) {handed : List (IssuerIdx × Seq)}
    (hc : ∀ p ∈ handed, Covered d p.1 p.2) (hb : ∀ i, (d.cursor.next_seq i).getD 1 < 18446744073709551616) :
    Kept handed (open_spool config d now_ms ok created stored).1 s := by
  unfold open_spool at hs ⊢
  simp only at hs ⊢
  cases hrec : recover config ok 0 { cursor := d.cursor } d.segments with
  | mk left result =>
    rw [hrec] at hs
    cases result with
    | error e => cases hs
    | ok r =>
      simp only at hs ⊢
      obtain ⟨hcursor, hclimbs, hborne⟩ := recover_ok hrec
      have hactive := open_active_spec config { d with segments := left } r
        { r.cursor with next_seq := honoured r.recovered_next_seq r.cursor.next_seq } now_ms created
      have hnext : ∀ i, next_in (honoured r.recovered_next_seq r.cursor.next_seq) i < 18446744073709551616 := by
        intro i
        refine (next_in_honoured _ _ i).2.2 (hclimbs.bounded ?_) ?_
        · exact fun i => (by omega : 1 < 18446744073709551616)
        · rw [hcursor]
          exact hb
      have hahead : ∀ p ∈ handed, p.2 < next_in (honoured r.recovered_next_seq r.cursor.next_seq) p.1 := by
        intro p hp
        have hhonoured := next_in_honoured r.recovered_next_seq r.cursor.next_seq p.1
        rcases hc p hp with hlt | hbears
        · refine hlt.trans_le ?_
          rw [hcursor] at hhonoured ⊢
          cases hn : d.cursor.next_seq p.1 with
          | none => exact (hclimbs.mono p.1).trans hhonoured.1
          | some seq => exact hhonoured.2.1 seq hn
        · exact (hborne p.1 p.2 hbears).trans_le hhonoured.1
      split at hs
      · cases hs
      · next d' s' heq =>
        rw [heq] at hactive
        split at hs
        · next hstored =>
          rw [if_pos hstored]
          obtain rfl := Except.ok.inj hs
          have hcur : s'.cursor = { r.cursor with next_seq := honoured r.recovered_next_seq r.cursor.next_seq } := hactive.2 s' rfl
          refine ⟨fun p hp => .inl (hahead p hp), fun p hp => ?_, fun i => ⟨hnext i, ?_⟩⟩
          · rw [DiskSpool.next_seq, hcur]
            exact hahead p hp
          · rw [DiskSpool.next_seq, hcur]
            exact hnext i
        · cases hs

/-- An open that fails leaves the cursor file, and what the recovery left of the segments. -/
theorem open_spool_failed {config : SpoolConfig} {d : Disk} {now_ms : Int} {ok : Nat → Bool} {created : Created} {stored : Bool}
    (hs : (open_spool config d now_ms ok created stored).2.toOption = none) :
    (open_spool config d now_ms ok created stored).1.cursor = d.cursor ∧
      ∀ f ∈ (recover config ok 0 { cursor := d.cursor } d.segments).1,
        f ∈ (open_spool config d now_ms ok created stored).1.segments := by
  unfold open_spool at hs ⊢
  simp only at hs ⊢
  cases hrec : recover config ok 0 { cursor := d.cursor } d.segments with
  | mk left result =>
    rw [hrec] at hs
    cases result with
    | error e => exact ⟨rfl, fun f hf => hf⟩
    | ok r =>
      simp only at hs ⊢
      have hactive := (open_active_spec config { d with segments := left } r
        { r.cursor with next_seq := honoured r.recovered_next_seq r.cursor.next_seq } now_ms created).1
      split at hs
      · next d' e heq =>
        rw [heq] at hactive
        exact hactive
      · next d' s' heq =>
        rw [heq] at hactive
        split at hs
        · cases hs
        · next hstored =>
          rw [if_neg hstored]
          exact hactive

/-- What was there for good is still there. -/
theorem Firm.open_failed {config : SpoolConfig} {d : Disk} {now_ms : Int} {ok : Nat → Bool} {created : Created} {stored : Bool}
    (hs : (open_spool config d now_ms ok created stored).2.toOption = none) {i : IssuerIdx} {n : Seq} (h : Firm d i n) :
    Covered (open_spool config d now_ms ok created stored).1 i n := by
  obtain ⟨hcursor, hfiles⟩ := open_spool_failed hs
  rcases h with hlt | ⟨f, hf, hfirm⟩
  · exact .inl (by rw [hcursor]; exact hlt)
  · obtain ⟨f', hf', -, hread⟩ := recover_left config ok hfirm hf 0 { cursor := d.cursor }
    exact .inr ⟨f', hfiles f' hf', .inl hread⟩

/-! ## Runs -/

/-- The numbers handed out so far increase, are on disk, and are behind the open spool. -/
structure Counted (h : History) : Prop where
  increasing : Increasing h.handed
  covered : ∀ p ∈ h.handed, Covered h.disk p.1 p.2
  bounded : ∀ i, (h.disk.cursor.next_seq i).getD 1 < 18446744073709551616
  kept : ∀ s, h.spool = some s → Kept h.handed h.disk s

theorem counted_start : Counted {} := by
  refine ⟨List.Pairwise.nil, fun p hp => (by cases hp), fun i => ?_, fun s hs => (by cases hs)⟩
  exact (by omega : 1 < 18446744073709551616)

/-- A spool that is open and keeps the numbers. -/
theorem Counted.of_kept {h : History} {s : DiskSpool} (hinc : Increasing h.handed) (hspool : h.spool = some s)
    (hkept : Kept h.handed h.disk s) : Counted h := by
  refine ⟨hinc, hkept.covered, fun i => (hkept.bounded i).1, fun s' hs' => ?_⟩
  obtain rfl := Option.some.inj (hspool.symm.trans hs')
  exact hkept

theorem Counted.append {h : History} {s : DiskSpool} (hh : Counted h) (hspool : h.spool = some s) (config : SpoolConfig)
    {record : Record} (hwhole : Whole h.disk s.active) (hpayload : record.payload.length < 4294967296) (now_ms : Int)
    (faults : Faults) {h' : History} (hact : h.act config (.Append record now_ms faults) = some h') : Counted h' := by
  obtain ⟨hkept, hseq⟩ := (hh.kept s hspool).append_record config hwhole hpayload now_ms faults
  simp only [History.act, hspool, Option.map_some] at hact
  obtain rfl := Option.some.inj hact
  refine Counted.of_kept ?_ rfl hkept
  show Increasing (h.handed ++ _)
  cases hres : (append_record config h.disk s record now_ms faults).2.2 with
  | error e => exact (List.append_nil h.handed).symm ▸ hh.increasing
  | ok seq =>
    obtain rfl := hseq seq hres
    refine List.pairwise_append.2 ⟨hh.increasing, List.pairwise_singleton _ _, fun p hp q hq => ?_⟩
    obtain rfl := List.mem_singleton.1 hq
    intro hi
    have hahead := (hh.kept s hspool).ahead p hp
    rw [hi] at hahead
    exact hahead

theorem Counted.act {config : SpoolConfig} {h h' : History} {a : Act} (hh : Counted h) (ha : Acts config h a h')
    (hsafe : SeqSafe config h a) : Counted h' := by
  unfold Acts at ha
  cases a with
  | Open now_ms ok created stored =>
    cases hspool : h.spool with
    | some s => simp only [History.act, hspool] at ha; cases ha
    | none =>
      simp only [History.act, hspool] at ha
      obtain rfl := Option.some.inj ha
      cases hres : (open_spool config h.disk now_ms ok created stored).2 with
      | ok s =>
        exact Counted.of_kept hh.increasing rfl (open_spool_ok hres hh.covered hh.bounded)
      | error e =>
        have hnone : (open_spool config h.disk now_ms ok created stored).2.toOption = none := congrArg Except.toOption hres
        refine ⟨hh.increasing, fun p hp => (hsafe hnone p hp).open_failed hnone, fun i => ?_, fun s hs => (by cases hs)⟩
        rw [(open_spool_failed hnone).1]
        exact hh.bounded i
  | Append record now_ms faults =>
    cases hspool : h.spool with
    | none => simp only [History.act, hspool] at ha; cases ha
    | some s => exact hh.append hspool config (hsafe.2 s hspool) hsafe.1 now_ms faults ha
  | Commit issuer seq ok =>
    cases hspool : h.spool with
    | none => simp only [History.act, hspool] at ha; cases ha
    | some s =>
      simp only [History.act, hspool, Option.map_some] at ha
      obtain rfl := Option.some.inj ha
      refine Counted.of_kept hh.increasing rfl ((hh.kept s hspool).store_cursor ?_ ok)
      rfl
  | MarkGap cause ok =>
    cases hspool : h.spool with
    | none => simp only [History.act, hspool] at ha; cases ha
    | some s =>
      simp only [History.act, hspool, Option.map_some] at ha
      obtain rfl := Option.some.inj ha
      refine Counted.of_kept hh.increasing rfl ((hh.kept s hspool).store_cursor ?_ ok)
      rfl
  | TakeGaps ok =>
    cases hspool : h.spool with
    | none => simp only [History.act, hspool] at ha; cases ha
    | some s =>
      simp only [History.act, hspool, Option.map_some] at ha
      obtain rfl := Option.some.inj ha
      refine Counted.of_kept hh.increasing rfl ?_
      show Kept h.handed (take_gap_causes h.disk s ok).1 (take_gap_causes h.disk s ok).2
      unfold take_gap_causes
      simp only
      split
      · exact (hh.kept s hspool).files rfl rfl (fun _ _ f hf hb => ⟨f, hf, hb⟩)
      · refine (hh.kept s hspool).store_cursor ?_ ok
        rfl
  | Seal synced ok =>
    cases hspool : h.spool with
    | none => simp only [History.act, hspool] at ha; cases ha
    | some s =>
      simp only [History.act, hspool, Option.map_some] at ha
      obtain rfl := Option.some.inj ha
      refine Counted.of_kept hh.increasing rfl ?_
      show Kept h.handed (seal_spool h.disk s synced ok) s
      unfold seal_spool
      split
      · exact ((hh.kept s hspool).sync s.active).store_cursor rfl ok
      · exact hh.kept s hspool
  | Drop =>
    obtain rfl := Option.some.inj ha
    exact ⟨hh.increasing, hh.covered, hh.bounded, fun s hs => (by cases hs)⟩
  | Crash kept =>
    obtain rfl := Option.some.inj ha
    exact ⟨hh.increasing, hsafe, hh.bounded, fun s hs => (by cases hs)⟩
  | Corrupt ordinal offset patch =>
    obtain rfl := Option.some.inj ha
    refine ⟨hh.increasing, hsafe, hh.bounded, fun s hs => ?_⟩
    have hkept := hh.kept s hs
    exact ⟨hsafe, hkept.ahead, hkept.bounded⟩

/-- In every history whose steps keep the numbers on disk, no number is handed out twice. -/
theorem numbers_are_handed_out_once (config : SpoolConfig) {acts : List Act} {h : History}
    (hrun : Run (SeqSafely config) {} acts h) : Increasing h.handed := by
  have hcounted : Counted h := hrun.inv (fun _ _ _ _ hh ha => hh.act ha.1 ha.2) counted_start
  exact hcounted.increasing

/-! A spool to run by hand: one segment holds it all. -/

namespace Small

def config : SpoolConfig := ⟨List.replicate 16 0, .Evidence, 1000, 10000⟩

def record_of (issuer : IssuerIdx) : Record := ⟨0, 0, issuer, 0, [7]⟩

/-- File calls that all succeed. -/
def reopen : Act := .Open 0 (fun _ => true) .Whole true

def append (issuer : IssuerIdx) : Act := .Append (record_of issuer) 0 {}

/-- Two issuers, and a crash that keeps the records. -/
def kept : List Act := [reopen, append 0, append 1, .Crash (fun _ => 102), reopen, append 0, append 1]

/-- A crash that leaves the header. -/
def lost : List Act := [reopen, append 0, .Crash (fun _ => 48), reopen, append 0]

/-- A crash within the prefix of the second issuer's record: the number of the other one is burned. -/
def torn : List Act := [reopen, append 1, append 0, .Crash (fun _ => 85), reopen, append 0]

/-- A byte of the first record changes, with another record behind it. -/
def damaged : List Act := [reopen, append 0, append 0, .Corrupt 0 74 [8], .Drop, reopen, append 0]

end Small

theorem run_of_handed (config : SpoolConfig) (acts : List Act) (handed : List (IssuerIdx × Seq))
    (h : (acts.foldlM (History.act config) {}).map (·.handed) = some handed) :
    ∃ h, Run (Acts config) {} acts h ∧ h.handed = handed := by
  obtain ⟨t, ht, hhanded⟩ := Option.map_eq_some_iff.1 h
  exact ⟨t, Run.of_foldlM ht, hhanded⟩

theorem numbers_are_handed_out_once_kept : ∃ h, Run (SeqSafely Small.config) {} Small.kept h ∧
    h.handed = [(0, 1), (1, 1), (0, 2), (1, 2)] ∧ Increasing h.handed := by
  have hrun : (Small.kept.foldlM (History.act_safely Small.config) {}).map (·.handed) = some [(0, 1), (1, 1), (0, 2), (1, 2)] := by
    decide +kernel
  obtain ⟨t, ht, hhanded⟩ := Option.map_eq_some_iff.1 hrun
  have hsafe : Run (SeqSafely Small.config) {} Small.kept t := by
    refine (Run.of_foldlM ht).mono (fun h a h' hact => ?_)
    rw [History.act_safely] at hact
    split at hact
    · next hs => exact ⟨hact, hs⟩
    · cases hact
  exact ⟨t, hsafe, hhanded, numbers_are_handed_out_once Small.config hsafe⟩

/-- An unsynced record lost, a prefix torn, a record damaged: the number is handed out again. -/
theorem numbers_are_handed_out_again :
    (∃ h, Run (Acts Small.config) {} Small.lost h ∧ h.handed = [(0, 1), (0, 1)] ∧ ¬ Increasing h.handed) ∧
    (∃ h, Run (Acts Small.config) {} Small.torn h ∧ h.handed = [(1, 1), (0, 1), (0, 1)] ∧ ¬ Increasing h.handed) ∧
    ∃ h, Run (Acts Small.config) {} Small.damaged h ∧ h.handed = [(0, 1), (0, 2), (0, 1)] ∧ ¬ Increasing h.handed := by
  refine ⟨?_, ?_, ?_⟩
  · obtain ⟨h, hrun, hhanded⟩ := run_of_handed Small.config Small.lost [(0, 1), (0, 1)] (by decide +kernel)
    refine ⟨h, hrun, hhanded, ?_⟩
    rw [hhanded, Increasing]
    decide
  · obtain ⟨h, hrun, hhanded⟩ := run_of_handed Small.config Small.torn [(1, 1), (0, 1), (0, 1)] (by decide +kernel)
    refine ⟨h, hrun, hhanded, ?_⟩
    rw [hhanded, Increasing]
    decide
  · obtain ⟨h, hrun, hhanded⟩ := run_of_handed Small.config Small.damaged [(0, 1), (0, 2), (0, 1)] (by decide +kernel)
    refine ⟨h, hrun, hhanded, ?_⟩
    rw [hhanded, Increasing]
    decide

end Ambush.Bridge

import Ambush.Bridge.Histories
/-!
# A crash in the last segment

What an open makes of a directory whose last segment file is cut. Behind the header it
keeps the whole records and marks a gap for the one that is cut in two. Behind the first 26
bytes of that one it knows the number; within them it takes the number after the last of the
greatest issuer that the segment still shows. A file cut within its header ends the open.
-/
open Lib Lib.Frames

namespace Ambush.Bridge

/-- What is left when the file of a segment is cut. -/
def Disk.cut (d : Disk) (ordinal cut : Nat) : Disk :=
  d.update ordinal (fun f => { f with bytes := f.bytes.take cut, synced := min f.synced cut })

/-- The record that a cut goes through. -/
def cut_in_two (cut : Nat) (records : List Record) : Option Record :=
  if boundary encode_record cut records = cut then none else (rest encode_record cut records).head?

/-- The number that stands for a record whose prefix is not whole. -/
def estimate (records : List Record) : Seq := ((greatest_issuer records).map (·.2 + 1)).getD 1

/-- The number that a scan finds for the record a cut goes through. -/
def torn_number (records : List Record) (cut : Nat) (r : Record) : Seq :=
  if cut < boundary encode_record cut records + RECORD_PREFIX_BYTES then estimate (whole encode_record cut records) else r.seq

/-- The last segment file is cut, and an open recovers the records in front of the cut, marks the one it goes through, and
goes on. -/
def Recovers (config : SpoolConfig) (d : Disk) (ordinal : Nat) (earlier last : List Record) (cut : Nat) (now_ms : Int) : Prop :=
  ∃ d' s', open_spool config (d.cut ordinal cut) now_ms (fun _ => true) .Whole true = (d', .ok s') ∧
    s'.cursor.committed = d.cursor.committed ∧
    (∀ max_bytes, s'.peek d' max_bytes =
      .ok (fitting max_bytes false 0 (s'.uncommitted (earlier ++ whole encode_record (cut - HEADER_BYTES) last)))) ∧
    s'.cursor.pending = d.cursor.pending ++
      ((cut_in_two (cut - HEADER_BYTES) last).map (fun r => GapCause.SpoolTornTail r.seq r.seq)).toList ∧
    Readable config d' s'

/-- The number that the scan finds is that of the record. -/
def Tells (last : List Record) (cut : Nat) : Prop := ∀ r ∈ cut_in_two cut last, torn_number last cut r = r.seq

/-! ## The scan of a cut segment -/

theorem last_numbers_mem (records : List Record) (m : Map IssuerIdx Seq) {i : IssuerIdx} {n : Seq}
    (h : last_numbers m records i = some n) : (∃ r ∈ records, r.issuer = i ∧ r.seq = n) ∨ m i = some n := by
  induction records generalizing m with
  | nil => exact .inr h
  | cons r records ih =>
    rcases ih (m.insert r.issuer r.seq) h with ⟨r', hr', hfound⟩ | hm
    · exact .inl ⟨r', List.mem_cons_of_mem _ hr', hfound⟩
    · rw [Map.insert_apply] at hm
      split at hm
      · next hi => exact .inl ⟨r, List.mem_cons_self, hi.symm, Option.some.inj hm⟩
      · exact .inr hm

theorem greatest_issuer_mem {records : List Record} {i : IssuerIdx} {n : Seq} (h : greatest_issuer records = some (i, n)) :
    ∃ r ∈ records, r.issuer = i ∧ r.seq = n := by
  have hlast := mem_entries_iff.1 (List.mem_of_getLast? h)
  rcases last_numbers_mem records _ hlast with hfound | hnone
  · exact hfound
  · cases hnone

/-- A cut within the records: behind a whole one, or through the next. -/
theorem cut_verdict_cases {records : List Record} (hr : ∀ r ∈ records, r.seq + 1 < 18446744073709551616) {cut : Nat}
    (hcut : cut ≤ (stream encode_record records).length) :
    (cut_in_two cut records = none ∧ boundary encode_record cut records = cut ∧
        cut_verdict records cut = .ok (.Clean (HEADER_BYTES + cut))) ∨
      ∃ r issuer, r ∈ records ∧ cut_in_two cut records = some r ∧ cut_verdict records cut = .ok (.TornTail
        (HEADER_BYTES + boundary encode_record cut records) (torn_number records cut r, torn_number records cut r) issuer) := by
  by_cases hb : boundary encode_record cut records = cut
  · refine .inl ⟨if_pos hb, hb, ?_⟩
    rw [cut_verdict]
    cases rest encode_record cut records with
    | nil => simp only [hb]
    | cons r more => simp only [hb, if_true]
  · obtain ⟨r, more, hrest⟩ := exists_torn encode_record hcut hb
    have hmem : r ∈ records := mem_of_mem_rest encode_record (hrest ▸ List.mem_cons_self)
    have htwo : cut_in_two cut records = some r := by
      rw [cut_in_two, if_neg hb, hrest]
      rfl
    refine .inr ?_
    rw [cut_verdict, hrest]
    simp only
    rw [if_neg hb]
    by_cases hp : cut < boundary encode_record cut records + RECORD_PREFIX_BYTES
    · rw [if_pos hp]
      cases hg : greatest_issuer (whole encode_record cut records) with
      | none =>
        refine ⟨r, none, hmem, htwo, ?_⟩
        rw [torn_number, if_pos hp, estimate, hg]
        rfl
      | some last =>
        obtain ⟨i, n⟩ := last
        obtain ⟨r', hr', -, rfl⟩ := greatest_issuer_mem hg
        refine ⟨r, some i, hmem, htwo, ?_⟩
        simp only
        rw [after_of_lt (hr r' (mem_of_mem_whole encode_record hr')), torn_number, if_pos hp, estimate, hg]
        rfl
    · rw [if_neg hp]
      refine ⟨r, some r.issuer, hmem, htwo, ?_⟩
      rw [torn_number, if_neg hp]

namespace Shelf

/-- The whole records in front of a cut. -/
def cut (sh : Shelf) (cut : Nat) : Shelf := { sh with records := whole encode_record cut sh.records }

end Shelf

section
variable {config : SpoolConfig}

theorem Shelf.cut_size (sh : Shelf) (cut : Nat) : (sh.cut cut).size = HEADER_BYTES + boundary encode_record cut sh.records := rfl

/-- The file of a shelf, cut behind its header. -/
theorem Shelf.take_bytes (hcolony : config.colony_hash.length = 16) (sh : Shelf) (cut : Nat) :
    (sh.bytes config).take (HEADER_BYTES + cut) = (sh.header config).encode ++ (stream encode_record sh.records).take cut := by
  have hlen : (sh.header config).encode.length = HEADER_BYTES := encode_header_length hcolony
  rw [Shelf.bytes, List.take_append, hlen, Nat.add_sub_cancel_left, List.take_of_length_le (by rw [hlen]; exact Nat.le_add_right _ _)]

/-- Cut once more behind the last whole record, it is the file of the shelf that is left. -/
theorem Shelf.cut_bytes (hcolony : config.colony_hash.length = 16) (sh : Shelf) (cut : Nat) :
    ((sh.bytes config).take (HEADER_BYTES + cut)).take (HEADER_BYTES + boundary encode_record cut sh.records) =
      (sh.cut cut).bytes config := by
  have hlen : ((sh.header config).encode ++ stream encode_record (whole encode_record cut sh.records)).length =
      HEADER_BYTES + boundary encode_record cut sh.records := by
    rw [List.length_append, encode_header_length hcolony, boundary]
  rw [Shelf.take_bytes hcolony, take_stream, ← List.append_assoc, List.take_left' hlen]
  rfl

theorem Shelf.scan_cut (hcolony : config.colony_hash.length = 16) {sh : Shelf} (ho : sh.ordinal < 18446744073709551616)
    (hr : ∀ r ∈ sh.records, r.Fits) (cut path : Nat) :
    Bridge.scan ((sh.bytes config).take (HEADER_BYTES + cut)) config.colony_hash path = (cut_verdict sh.records cut).map
      (fun verdict => ⟨((sh.cut cut).header config).stored, verdict, SeqRanges.noted .empty (sh.cut cut).records⟩) := by
  rw [Shelf.take_bytes hcolony]
  exact @Bridge.scan_cut (sh.header config) rfl ho hcolony sh.records hr cut path

/-- What the recovery of the last segment adds, with the gaps it marks. -/
structure Recounted (r r' : Recovery) (sh : Shelf) (gaps : List GapCause) : Prop where
  cursor : r'.cursor = { r.cursor with pending := r.cursor.pending ++ gaps }
  sealed : r'.sealed = r.sealed ++ (r.last_clean.map (·.1)).toList
  last : r'.last_clean = some (sh.ordinal, sh.size)
  next_ordinal : sh.ordinal < r'.next_ordinal
  ahead : ∀ i, next_in r.recovered_next_seq i ≤ next_in r'.recovered_next_seq i ∧
    ∀ record ∈ sh.records, record.issuer = i → record.seq + 1 ≤ next_in r'.recovered_next_seq i
  bounded : (∀ i, next_in r.recovered_next_seq i < 18446744073709551616) →
    ∀ i, next_in r'.recovered_next_seq i < 18446744073709551616

def torn_gaps (records : List Record) (cut : Nat) : List GapCause :=
  ((cut_in_two cut records).map (fun r => .SpoolTornTail (torn_number records cut r) (torn_number records cut r))).toList

/-- The numbers are raised past those of a shelf. -/
theorem raised_bounds {m recovered : Map IssuerIdx Seq} {records : List Record}
    (hiff : ∀ i n, next_in recovered i ≤ n ↔ next_in m i ≤ n ∧ ∀ r ∈ records, r.issuer = i → r.seq + 1 ≤ n)
    (hr : ∀ r ∈ records, r.seq + 1 < 18446744073709551616) :
    (∀ i, next_in m i ≤ next_in recovered i ∧ ∀ r ∈ records, r.issuer = i → r.seq + 1 ≤ next_in recovered i) ∧
      ((∀ i, next_in m i < 18446744073709551616) → ∀ i, next_in recovered i < 18446744073709551616) := by
  refine ⟨fun i => (hiff i _).1 (le_refl _), fun hm i => ?_⟩
  exact Nat.lt_of_le_pred (by norm_num) ((hiff i _).2 ⟨Nat.le_pred_of_lt (hm i), fun r hmem _ => Nat.le_pred_of_lt (hr r hmem)⟩)

/-- The recovery of a shelf's file cut behind its header; it ends in an overflow only when the number it finds is not that of
the record. -/
theorem recover_cut (hcolony : config.colony_hash.length = 16) {f : SegmentFile} {sh : Shelf} (hf : Shelf.Filed config f sh)
    (ho : sh.ordinal + 1 < 18446744073709551616) (hr : ∀ r ∈ sh.records, r.Fits ∧ r.seq + 1 < 18446744073709551616)
    {cut : Nat} (hcut : cut ≤ (stream encode_record sh.records).length) (synced : Nat) (r : Recovery) :
    (∃ left, recover_segment config r ⟨f.ordinal, f.bytes.take (HEADER_BYTES + cut), synced⟩ = (left, .error .Overflow) ∧
        ¬ Tells sh.records cut) ∨
      ∃ f' r', recover_segment config r ⟨f.ordinal, f.bytes.take (HEADER_BYTES + cut), synced⟩ = (some f', .ok r') ∧
        Shelf.Filed config f' (sh.cut cut) ∧ Recounted r r' (sh.cut cut) (torn_gaps sh.records cut) := by
  have hkept : ∀ r' ∈ (sh.cut cut).records, r'.seq + 1 < 18446744073709551616 := fun r' hr' =>
    (hr r' (mem_of_mem_whole encode_record hr')).2
  have hseqs : ∀ r' ∈ sh.records, r'.seq + 1 < 18446744073709551616 := fun r' hr' => (hr r' hr').2
  have hscan := Shelf.scan_cut hcolony (Nat.lt_of_succ_lt ho) (fun r' hr' => (hr r' hr').1) cut f.ordinal
  rw [← hf.bytes] at hscan
  rcases cut_verdict_cases hseqs hcut with ⟨hnone, hb, hverdict⟩ | ⟨record, issuer, hmem, htwo, hverdict⟩
  · rw [hverdict] at hscan
    obtain ⟨recovered, hiff, hscanned⟩ := @scanned_shelf config ⟨f.ordinal, f.bytes.take (HEADER_BYTES + cut), synced⟩
      (sh.cut cut) _ hscan ho hkept r
    obtain ⟨hahead, hbounded⟩ := raised_bounds hiff hkept
    have hbytes := Shelf.cut_bytes hcolony sh cut
    rw [hb, List.take_take, Nat.min_self, ← hf.bytes] at hbytes
    have hsize : (sh.cut cut).size = HEADER_BYTES + cut := by rw [Shelf.cut_size, hb]
    rw [recover_segment, hscanned]
    refine .inr ⟨_, _, rfl, ⟨hf.ordinal, hbytes⟩, ?_⟩
    refine ⟨?_, rfl, ?_, ?_, hahead, hbounded⟩
    · rw [torn_gaps, hnone]
      exact congrArg (fun pending => { r.cursor with pending }) (List.append_nil _).symm
    · rw [hsize, Recovery.keep, hf.ordinal]
      rfl
    · exact Nat.lt_of_lt_of_le (Nat.lt_succ_self _) (Nat.le_max_right _ _)
  · rw [hverdict] at hscan
    obtain ⟨recovered, hiff, hscanned⟩ := @scanned_shelf config ⟨f.ordinal, f.bytes.take (HEADER_BYTES + cut), synced⟩
      (sh.cut cut) _ hscan ho hkept r
    obtain ⟨hahead, hbounded⟩ := raised_bounds hiff hkept
    have hbytes := Shelf.cut_bytes hcolony sh cut
    rw [← hf.bytes] at hbytes
    have hgaps : torn_gaps sh.records cut =
        [.SpoolTornTail (torn_number sh.records cut record) (torn_number sh.records cut record)] := by
      rw [torn_gaps, htwo]
      rfl
    rw [recover_segment, hscanned]
    simp only
    cases issuer with
    | none =>
      refine .inr ⟨_, _, rfl, ⟨hf.ordinal, hbytes⟩, ?_⟩
      refine ⟨by rw [hgaps]; rfl, rfl, ?_, ?_, hahead, hbounded⟩
      · rw [Recovery.keep, hf.ordinal, Shelf.cut_size]
        rfl
      · exact Nat.lt_of_lt_of_le (Nat.lt_succ_self _) (Nat.le_max_right _ _)
    | some issuer =>
      by_cases hroom : torn_number sh.records cut record + 1 < 18446744073709551616
      · rw [Recovery.burn, after_of_lt hroom]
        refine .inr ⟨_, _, rfl, ⟨hf.ordinal, hbytes⟩, ?_⟩
        refine ⟨by rw [hgaps]; rfl, rfl, ?_, ?_, fun i => ?_, fun hm i => ?_⟩
        · rw [Recovery.keep, hf.ordinal, Shelf.cut_size]
          rfl
        · exact Nat.lt_of_lt_of_le (Nat.lt_succ_self _) (Nat.le_max_right _ _)
        · have hmono : next_in recovered i ≤ next_in (raise recovered issuer (torn_number sh.records cut record + 1)) i := by
            rw [next_in_raise]
            split
            · next hi =>
              rw [hi]
              exact Nat.le_max_left _ _
            · exact le_refl _
          exact ⟨(hahead i).1.trans hmono, fun record' hr' hi => ((hahead i).2 record' hr' hi).trans hmono⟩
        · show next_in (raise recovered issuer (torn_number sh.records cut record + 1)) i < _
          rw [next_in_raise]
          split
          · exact Nat.max_lt.2 ⟨hbounded hm _, hroom⟩
          · exact hbounded hm i
      · rw [Recovery.burn, Bridge.after, if_neg hroom]
        refine .inl ⟨_, rfl, fun htells => hroom ?_⟩
        rw [htells record htwo]
        exact hseqs record hmem

/-! ## The open -/

/-- The cut changes the last file only. -/
theorem cut_segments {files : List SegmentFile} {f : SegmentFile} {older : List Shelf} {active : Shelf}
    (hfiles : Stocked config files older) (hf : Shelf.Filed config f active) (holder : ∀ sh ∈ older, sh.ordinal < active.ordinal)
    {d : Disk} (hd : d.segments = files ++ [f]) (cut : Nat) :
    (d.cut active.ordinal cut).segments = files ++ [⟨f.ordinal, f.bytes.take cut, min f.synced cut⟩] :=
  update_last hfiles hf.ordinal holder hd _

/-- The recovery of a directory whose last file is cut comes to that file. -/
theorem open_cut {d : Disk} {files : List SegmentFile} {older : List Shelf} (hcolony : config.colony_hash.length = 16)
    (hfiles : Stocked config files older) {f : SegmentFile} (hd : d.segments = files ++ [f]) :
    ∃ r, Recovered { cursor := d.cursor } r older ∧ ∀ now_ms, open_spool config d now_ms (fun _ => true) .Whole true =
      match recover_segment config r f with
      | (left, .error e) => ({ d with segments := files ++ left.toList }, .error e)
      | (left, .ok r) => finish config { d with segments := files ++ left.toList } r now_ms .Whole true := by
  rcases recover_shelves hcolony hfiles (fun _ => true) 0 { cursor := d.cursor } [f] with ⟨⟨k, hk⟩, -⟩ | ⟨r, hr, hrun⟩
  · cases hk
  · refine ⟨r, hr, fun now_ms => ?_⟩
    rw [open_spool, hd, hrun, recover]
    simp only [if_true]
    cases hsegment : recover_segment config r f with
    | mk left result =>
      cases result with
      | error e => simp only [List.append_nil]
      | ok r' =>
        simp only [recover, List.append_nil]
        rfl

theorem Shelf.cut_sublist (older : List Shelf) (active : Shelf) (cut : Nat) :
    (on_shelves (older ++ [active.cut cut])).Sublist (on_shelves (older ++ [active])) := by
  have hsub : (active.cut cut).records.Sublist active.records := by
    have hsplit := List.sublist_append_left (whole encode_record cut active.records) (rest encode_record cut active.records)
    rw [whole_append_rest] at hsplit
    exact hsplit
  simp only [on_shelves_append, on_shelves_single]
  exact List.Sublist.append (List.Sublist.refl _) hsub

/-- The shelves and the last one cut. -/
theorem Stocked.cut {segments files : List SegmentFile} {older : List Shelf} {active : Shelf}
    (h : Stocked config segments (older ++ [active])) (hfiles : Stocked config files older) {cut : Nat} {f : SegmentFile}
    (hf : Shelf.Filed config f (active.cut cut)) : Stocked config (files ++ [f]) (older ++ [active.cut cut]) := by
  have hsub := Shelf.cut_sublist older active cut
  refine ⟨List.rel_append hfiles.files (.cons hf .nil), ?_, fun sh hsh => ?_, fun r hr => h.fits r (hsub.subset hr),
    h.ascending.sublist hsub⟩
  · have hsorted := List.pairwise_append.1 h.sorted
    refine List.pairwise_append.2 ⟨hsorted.1, List.pairwise_singleton _ _, fun a ha b hb => ?_⟩
    rw [List.mem_singleton.1 hb]
    exact hsorted.2.2 a ha active (List.mem_singleton.2 rfl)
  · rcases List.mem_append.1 hsh with hsh | hsh
    · exact h.ordinals sh (List.mem_append_left _ hsh)
    · rw [List.mem_singleton.1 hsh]
      exact h.ordinals active (List.mem_append_right _ (List.mem_singleton.2 rfl))

/-- The numbers after an open are those of the recovery and those of the cursor file, whichever are higher. -/
theorem honoured_bounds {recovered next_seq : Map IssuerIdx Seq} {i : IssuerIdx} (hone : 1 ≤ next_in recovered i)
    (hrecovered : next_in recovered i < 18446744073709551616) (hfile : next_in next_seq i < 18446744073709551616) :
    next_in recovered i ≤ next_in (honoured recovered next_seq) i ∧ next_in next_seq i ≤ next_in (honoured recovered next_seq) i ∧
      next_in (honoured recovered next_seq) i < 18446744073709551616 := by
  have hiff := @next_in_honoured_le_iff _ next_seq _ hone
  obtain ⟨hle, hle'⟩ := (hiff _).1 (le_refl _)
  refine ⟨hle, hle', Nat.lt_of_le_pred (by norm_num) ((hiff _).2 ⟨?_, ?_⟩)⟩
  · exact Nat.le_pred_of_lt hrecovered
  · exact Nat.le_pred_of_lt hfile

variable {d : Disk} {s : DiskSpool} {older sealed : List Shelf} {active : Shelf}

/-- A recovery over shelves that counts past them gives a housed spool. -/
theorem Rested.finish_recounted (h : Rested config d (older ++ [active])) (hcolony : config.colony_hash.length = 16)
    {cut : Nat} {d' : Disk} (hstocked : Stocked config d'.segments (older ++ [active.cut cut])) {r r' : Recovery}
    (hr : Recovered { cursor := d.cursor } r older) {gaps : List GapCause} (hrecounted : Recounted r r' (active.cut cut) gaps)
    (now_ms : Int) : ∃ d'' s', finish config d' r' now_ms .Whole true = (d'', .ok s') ∧
      Housed config d'' s' older older (active.cut cut) ∧ s'.cursor.committed = d.cursor.committed ∧
      s'.cursor.pending = d.cursor.pending ++ gaps := by
  have hsub := Shelf.cut_sublist older active cut
  have hnext : r'.cursor.next_seq = d.cursor.next_seq := by rw [hrecounted.cursor, hr.cursor]
  have hcommitted : r'.cursor.committed = d.cursor.committed := by rw [hrecounted.cursor, hr.cursor]
  have hpending : r'.cursor.pending = d.cursor.pending ++ gaps := by rw [hrecounted.cursor, hr.cursor]
  have hsealed : r'.sealed = older.map (·.ordinal) := by
    have hlisted := hr.listed
    rw [hrecounted.sealed, hlisted]
    rfl
  have hroom : ∀ i, next_in r.recovered_next_seq i < 18446744073709551616 := by
    intro i
    refine Nat.lt_of_le_pred (by norm_num) ((hr.next_seq i _).2 ⟨by norm_num [next_in, Map.empty], fun record hmem _ => ?_⟩)
    rw [on_shelves_append] at hsub
    exact Nat.le_pred_of_lt (h.stocked.fits record (by rw [on_shelves_append]; exact List.mem_append_left _ hmem)).2
  have hone : ∀ i, 1 ≤ next_in r.recovered_next_seq i := fun i => ((hr.next_seq i _).1 (le_refl _)).1
  have hfile : ∀ i, next_in r'.cursor.next_seq i < 18446744073709551616 := by
    intro i
    rw [hnext]
    exact (next_in_le_resumed _ _ _).trans_lt (h.counters i)
  have hbounds := fun i => honoured_bounds ((hone i).trans (hrecounted.ahead i).1) (hrecounted.bounded hroom i) (hfile i)
  refine ⟨{ d' with cursor := (r'.opened (active.cut cut)).cursor }, r'.opened (active.cut cut), ?_, ?_, hcommitted, hpending⟩
  · rw [finish_opened hstocked hcolony hrecounted.last]
    rfl
  · refine housed_stored hstocked rfl (List.Sublist.refl _) hsealed rfl rfl hrecounted.next_ordinal (fun i => ?_) (fun i => (hbounds i).2.2)
      (fun record hmem => ?_) (fun i c hc => ?_)
    · exact ((hone i).trans (hrecounted.ahead i).1).trans (hbounds i).1
    · refine Nat.lt_of_succ_le (Nat.le_trans ?_ (hbounds record.issuer).1)
      rw [on_shelves_append, on_shelves_single] at hmem
      rcases List.mem_append.1 hmem with hmem | hmem
      · exact (((hr.next_seq record.issuer _).1 (le_refl _)).2 record hmem rfl).trans (hrecounted.ahead record.issuer).1
      · exact (hrecounted.ahead record.issuer).2 record hmem rfl
    · have hc' : r'.cursor.committed i = some c := hc
      rw [hcommitted] at hc'
      have hlt := h.committed i c hc'
      rw [← hnext] at hlt
      exact hlt.trans_le (hbounds i).2.1

/-- Cut behind its header: an open, unless the number it finds overflows, gives a housed spool. -/
theorem Housed.open_cut (h : Housed config d s older sealed active) (hcolony : config.colony_hash.length = 16) {cut : Nat}
    (hcut : cut ≤ (stream encode_record active.records).length) (now_ms : Int) :
    (∃ d', open_spool config (d.cut active.ordinal (HEADER_BYTES + cut)) now_ms (fun _ => true) .Whole true =
        (d', .error .Overflow) ∧ ¬ Tells active.records cut) ∨
      ∃ d' s', open_spool config (d.cut active.ordinal (HEADER_BYTES + cut)) now_ms (fun _ => true) .Whole true = (d', .ok s') ∧
        Housed config d' s' older older (active.cut cut) ∧ s'.cursor.committed = d.cursor.committed ∧
        s'.cursor.pending = d.cursor.pending ++ torn_gaps active.records cut := by
  have hmem : active ∈ older ++ [active] := List.mem_append_right _ (List.mem_singleton.2 rfl)
  obtain ⟨files, f, hd, hfiles, hf⟩ := h.stocked.split
  have hsegments := cut_segments hfiles hf (fun sh hsh => h.older_lt hsh) hd (HEADER_BYTES + cut)
  obtain ⟨r, hr, hopen⟩ := Bridge.open_cut hcolony hfiles hsegments
  have hfits : ∀ r ∈ active.records, r.Fits ∧ r.seq + 1 < 18446744073709551616 := fun r hr =>
    h.stocked.fits r (mem_on_shelves hmem hr)
  rw [hopen]
  rcases recover_cut hcolony hf (h.stocked.ordinals active hmem) hfits hcut (min f.synced (HEADER_BYTES + cut)) r with
    ⟨left, hfails, hnot⟩ | ⟨f', r', hrun, hfiled, hrecounted⟩
  · rw [hfails]
    exact .inl ⟨_, rfl, hnot⟩
  · rw [hrun]
    have hstocked := h.stocked.cut hfiles hfiled
    obtain ⟨d', s', hfinish, hthen⟩ := @Rested.finish_recounted _ _ _ _ h.toRested hcolony cut
      { d.cut active.ordinal (HEADER_BYTES + cut) with segments := files ++ [f'] } hstocked _ _ hr _ hrecounted now_ms
    exact .inr ⟨d', s', hfinish, hthen⟩

/-- Cut within its header. -/
theorem Housed.open_cut_header (h : Housed config d s older sealed active) (hcolony : config.colony_hash.length = 16) {cut : Nat}
    (hcut : cut < HEADER_BYTES) (now_ms : Int) :
    ∃ d', open_spool config (d.cut active.ordinal cut) now_ms (fun _ => true) .Whole true =
      (d', .error (.SpoolBadMagic active.ordinal)) := by
  obtain ⟨files, f, hd, hfiles, hf⟩ := h.stocked.split
  have hsegments := cut_segments hfiles hf (fun sh hsh => h.older_lt hsh) hd cut
  obtain ⟨r, -, hopen⟩ := Bridge.open_cut hcolony hfiles hsegments
  have hshort : (f.bytes.take cut).length < HEADER_BYTES := (List.length_take_le cut f.bytes).trans_lt hcut
  rw [hopen, recover_segment, Recovery.scanned, scan, SegmentHeader.decode, if_pos (.inl hshort), hf.ordinal]
  exact ⟨_, rfl⟩

/-- Of a housed spool's directory, cut in its last segment, an open recovers what is whole exactly when the header is and the
scan finds the number of the torn record. -/
theorem Housed.recovers_iff (h : Housed config d s older sealed active) (hcolony : config.colony_hash.length = 16) {cut : Nat}
    (hcut : cut ≤ active.size) (now_ms : Int) :
    Recovers config d active.ordinal (on_shelves older) active.records cut now_ms ↔
      HEADER_BYTES ≤ cut ∧ Tells active.records (cut - HEADER_BYTES) := by
  rcases Nat.lt_or_ge cut HEADER_BYTES with hheader | hheader
  · obtain ⟨d', hfails⟩ := h.open_cut_header hcolony hheader now_ms
    refine ⟨fun ⟨d'', s', hopen, _⟩ => ?_, fun hle => absurd hle.1 (Nat.not_le.2 hheader)⟩
    rw [hfails] at hopen
    cases (Prod.mk.inj hopen).2
  · obtain ⟨k, rfl⟩ := Nat.exists_eq_add_of_le hheader
    have hk : k ≤ (stream encode_record active.records).length := Nat.le_of_add_le_add_left hcut
    rw [Recovers, Nat.add_sub_cancel_left]
    rcases h.open_cut hcolony hk now_ms with ⟨d', hfails, hnot⟩ | ⟨d', s', hopened, hhoused, hcommitted, hpending⟩
    · refine ⟨fun ⟨d'', s', hopen, _⟩ => ?_, fun hle => absurd hle.2 hnot⟩
      rw [hfails] at hopen
      cases (Prod.mk.inj hopen).2
    · constructor
      · rintro ⟨d'', s'', hopen, -, -, hgaps, -⟩
        obtain ⟨rfl, hs⟩ := Prod.mk.inj (hopened.symm.trans hopen)
        obtain rfl := Except.ok.inj hs
        refine ⟨hheader, fun r hr => ?_⟩
        have hsame := List.append_cancel_left (hpending.symm.trans hgaps)
        rw [torn_gaps, Option.mem_def.1 hr] at hsame
        have hgap := (List.cons.inj hsame).1
        exact (GapCause.SpoolTornTail.inj hgap).1
      · rintro ⟨-, htells⟩
        have hgaps : torn_gaps active.records k =
            ((cut_in_two k active.records).map (fun r => GapCause.SpoolTornTail r.seq r.seq)).toList := by
          rw [torn_gaps]
          congr 1
          refine Option.map_congr (fun r hr => ?_)
          rw [htells r hr]
        refine ⟨d', s', hopened, hcommitted, fun max_bytes => ?_, hgaps ▸ hpending, hhoused.readable hcolony⟩
        rw [hhoused.peek hcolony, on_shelves_append, on_shelves_single]
        rfl

end

/-! ## A crash of a healthy spool -/

/-- In every healthy history the directory is a row of segments with records that were appended, and when a crash cuts the
last one, an open recovers all that is whole exactly when the cut leaves the header and the number of the torn record. -/
theorem crash_recovers_iff (config : SpoolConfig) (hcolony : config.colony_hash.length = 16) {acts : List Act} {l : Ledger}
    (hrun : Run (Keeps config) {} acts l) {s : DiskSpool} (hspool : l.history.spool = some s) :
    ∃ older active, Stocked config l.history.disk.segments (older ++ [active]) ∧ s.active = active.ordinal ∧
      (on_shelves (older ++ [active])).Sublist l.appended ∧ ∀ cut ≤ active.size, ∀ now_ms,
        (Recovers config l.history.disk active.ordinal (on_shelves older) active.records cut now_ms ↔
          HEADER_BYTES ≤ cut ∧ Tells active.records (cut - HEADER_BYTES)) := by
  obtain ⟨older, sealed, active, hhoused, hsub, -⟩ := (run_orderly hcolony hrun).housed hspool
  exact ⟨older, active, hhoused.stocked, hhoused.active_path, hsub, fun cut hcut now_ms => hhoused.recovers_iff hcolony hcut now_ms⟩

namespace Small

/-- The greater of two issuers first. -/
def two : List Act := [reopen, append 1, append 0]

def shelf : Shelf := ⟨0, 0, [{ record_of 1 with seq := 1 }, { record_of 0 with seq := 1 }]⟩

def gaps_after (d : Disk) (cut : Nat) : Option (List GapCause) :=
  (open_spool config (d.cut 0 cut) 0 (fun _ => true) .Whole true).2.toOption.map (·.cursor.pending)

theorem run_two : ∃ l s, Run (Keeps config) {} two l ∧ l.history.spool = some s ∧ l.history.disk.segments.map (·.bytes) = [shelf.bytes config] ∧
    l.history.disk.cursor.pending = [] ∧ gaps_after l.history.disk 10 = none ∧
    gaps_after l.history.disk 85 = some [.SpoolTornTail 2 2] := by
  have hrun : (two.foldlM (Ledger.act config) {}).map (fun l => (l.history.spool.isSome, l.history.disk.segments.map (·.bytes),
      l.history.disk.cursor.pending)) = some (true, [shelf.bytes config], []) := by decide +kernel
  have hgaps : (two.foldlM (Ledger.act config) {}).map (fun l => (gaps_after l.history.disk 10, gaps_after l.history.disk 85)) =
      some (none, some [.SpoolTornTail 2 2]) := by decide +kernel
  obtain ⟨l, hl, heq⟩ := Option.map_eq_some_iff.1 hrun
  obtain ⟨hspool, hfiles⟩ := Prod.mk.inj heq
  obtain ⟨hbytes, hpending⟩ := Prod.mk.inj hfiles
  obtain ⟨s, hs⟩ := Option.isSome_iff_exists.1 hspool
  rw [hl] at hgaps
  obtain ⟨hten, hlater⟩ := Prod.mk.inj (Option.some.inj hgaps)
  exact ⟨l, s, run_of_ledger hl, hs, hbytes, hpending, hten, hlater⟩

end Small

theorem crash_recovers_two : ∃ l, Run (Keeps Small.config) {} Small.two l ∧ ∃ older active,
    Stocked Small.config l.history.disk.segments (older ++ [active]) ∧ ∀ cut ≤ active.size, ∀ now_ms,
      (Recovers Small.config l.history.disk active.ordinal (on_shelves older) active.records cut now_ms ↔
        HEADER_BYTES ≤ cut ∧ Tells active.records (cut - HEADER_BYTES)) := by
  obtain ⟨l, s, hrun, hspool, -⟩ := Small.run_two
  obtain ⟨older, active, hstocked, -, -, hall⟩ := crash_recovers_iff Small.config rfl hrun hspool
  exact ⟨l, hrun, older, active, hstocked, hall⟩

/-- Cut within its header, the file ends the open; cut in the prefix of its second record, the gap has another number. -/
theorem crash_loses_more : ∃ l, Run (Keeps Small.config) {} Small.two l ∧
    l.history.disk.segments.map (·.bytes) = [Small.shelf.bytes Small.config] ∧
    ¬ Recovers Small.config l.history.disk 0 [] Small.shelf.records 10 0 ∧
    ¬ Recovers Small.config l.history.disk 0 [] Small.shelf.records 85 0 := by
  obtain ⟨l, s, hrun, -, hbytes, hpending, hten, hlater⟩ := Small.run_two
  refine ⟨l, hrun, hbytes, ?_, ?_⟩
  · rintro ⟨d', s', hopen, -⟩
    rw [Small.gaps_after, hopen] at hten
    cases hten
  · rintro ⟨d', s', hopen, -, -, hgaps, -⟩
    rw [Small.gaps_after, hopen] at hlater
    have hfound : s'.cursor.pending = [.SpoolTornTail 2 2] := Option.some.inj hlater
    have htorn : (cut_in_two (85 - HEADER_BYTES) Small.shelf.records).map (fun r => GapCause.SpoolTornTail r.seq r.seq) =
        some (.SpoolTornTail 1 1) := by decide +kernel
    rw [hfound, hpending, htorn] at hgaps
    cases hgaps

end Ambush.Bridge

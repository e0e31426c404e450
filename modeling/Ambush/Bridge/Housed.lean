import Ambush.Bridge.Shelves
/-!
# An open spool and its directory

A spool is housed when its directory is in order and it agrees with it. Writing a record,
rolling, unlinking the oldest listed segment and writing the cursor keep a spool housed,
and so an append does, whichever of its file calls fail, unless the record was written in
part or a new segment was not created.
-/
open Lib Lib.Frames

namespace Ambush.Bridge

/-- A directory in order, whose counters are in 64 bits and ahead of what is committed. -/
structure Rested (config : SpoolConfig) (d : Disk) (shelves : List Shelf) : Prop where
  stocked : Stocked config d.segments shelves
  positive : ∀ i, 1 ≤ next_in d.cursor.next_seq i
  counters : ∀ i, resumed d.cursor.next_seq (on_shelves shelves) i < 18446744073709551616
  committed : ∀ i c, d.cursor.committed i = some c → c < next_in d.cursor.next_seq i

/-- The shelves on disk are `older` and the active one; of the older ones the spool lists those that are `sealed`. -/
structure Housed (config : SpoolConfig) (d : Disk) (s : DiskSpool) (older sealed : List Shelf) (active : Shelf) : Prop
    extends Rested config d (older ++ [active]) where
  listed : sealed.Sublist older
  sealed_paths : s.sealed = sealed.map (·.ordinal)
  active_path : s.active = active.ordinal
  end_offset : s.end_offset = active.size
  next_ordinal : active.ordinal < s.next_ordinal
  next_seq : ∀ i, s.next_seq i = resumed d.cursor.next_seq (on_shelves (older ++ [active])) i
  behind : ∀ i c, s.cursor.committed i = some c → c < s.next_seq i

/-- Each shelf with the records added that belong to its ordinal. -/
def Shelf.add (ordinal : Nat) (record : Record) (sh : Shelf) : Shelf :=
  if sh.ordinal = ordinal then { sh with records := sh.records ++ [record] } else sh

section
variable {config : SpoolConfig} {d : Disk} {s s' : DiskSpool} {older sealed : List Shelf} {active : Shelf}

/-! ## What a housed spool shows -/

theorem Housed.paths (h : Housed config d s older sealed active) : s.sealed ++ [s.active] = (sealed ++ [active]).map (·.ordinal) := by
  rw [h.sealed_paths, h.active_path, List.map_append]
  rfl

theorem Housed.on_disk (h : Housed config d s older sealed active) : ∀ sh ∈ sealed ++ [active], sh ∈ older ++ [active] :=
  (List.Sublist.append h.listed (List.Sublist.refl [active])).subset

theorem Housed.older_lt (h : Housed config d s older sealed active) {sh : Shelf} (hsh : sh ∈ older) : sh.ordinal < active.ordinal :=
  (List.pairwise_append.1 h.stocked.sorted).2.2 sh hsh active (List.mem_singleton.2 rfl)

/-- What the spool reads: the records on the listed shelves. -/
theorem Housed.records (h : Housed config d s older sealed active) (hcolony : config.colony_hash.length = 16) :
    records_at d (s.sealed ++ [s.active]) = on_shelves (sealed ++ [active]) := by
  rw [h.paths]
  exact h.stocked.records_at hcolony h.on_disk

theorem Housed.peek (h : Housed config d s older sealed active) (hcolony : config.colony_hash.length = 16) (max_bytes : Nat) :
    s.peek d max_bytes = .ok (fitting max_bytes false 0 (s.uncommitted (on_shelves (sealed ++ [active])))) := by
  rw [peek_spec _ max_bytes, h.records hcolony]
  intro path hpath
  rw [h.paths] at hpath
  obtain ⟨sh, hsh, rfl⟩ := List.mem_map.1 hpath
  obtain ⟨f, -, -, hfind⟩ := h.stocked.file (h.on_disk sh hsh)
  exact Option.isSome_iff_exists.2 ⟨f, hfind⟩

theorem Housed.listed_records (h : Housed config d s older sealed active) :
    (on_shelves (sealed ++ [active])).Sublist (on_shelves (older ++ [active])) :=
  on_shelves_sublist (List.Sublist.append h.listed (List.Sublist.refl _))

/-- No record is on disk twice. -/
theorem Ascending.nodup {records : List Record} (h : Ascending records) : records.Nodup :=
  List.Pairwise.imp (fun hlt heq => absurd (hlt (congrArg Record.issuer heq)) (by rw [heq]; exact Nat.lt_irrefl _)) h

theorem Housed.lt_next (h : Housed config d s older sealed active) {r : Record} (hr : r ∈ on_shelves (older ++ [active])) :
    r.seq < s.next_seq r.issuer := by
  rw [h.next_seq]
  exact lt_resumed hr

/-- What the cursor file has committed was given out. -/
theorem Housed.file_behind (h : Housed config d s older sealed active) {i : IssuerIdx} {c : Seq} (hc : d.cursor.committed i = some c) :
    c < s.next_seq i := by
  rw [h.next_seq]
  exact (h.committed i c hc).trans_le (next_in_le_resumed _ _ _)

/-! ## Writing a record -/

theorem filed_add {f : SegmentFile} {sh : Shelf} (hf : Shelf.Filed config f sh) (ordinal : Nat) (record : Record) :
    Shelf.Filed config (if f.ordinal = ordinal then { f with bytes := f.bytes ++ encode_record record } else f)
      (sh.add ordinal record) := by
  rw [Shelf.add, hf.ordinal]
  split
  · refine ⟨rfl, ?_⟩
    show f.bytes ++ _ = _
    rw [hf.bytes, Shelf.bytes, Shelf.bytes, stream_append, stream_cons, stream_nil, List.append_nil, List.append_assoc]
    rfl
  · exact hf

theorem Housed.map_add (h : Housed config d s older sealed active) (record : Record) :
    (older ++ [active]).map (Shelf.add s.active record) = older ++ [{ active with records := active.records ++ [record] }] := by
  have holder : older.map (Shelf.add s.active record) = older := by
    refine (List.map_congr_left (fun sh hsh => ?_)).trans (List.map_id older)
    rw [Shelf.add, h.active_path, if_neg (Nat.ne_of_lt (h.older_lt hsh)), id]
  rw [List.map_append, holder, List.map_singleton, Shelf.add, if_pos h.active_path.symm]

theorem resumed_append (next_seq : Map IssuerIdx Seq) (records : List Record) (record : Record) (i : IssuerIdx) :
    resumed next_seq (records ++ [record]) i =
      if record.issuer = i then max (resumed next_seq records i) (record.seq + 1) else resumed next_seq records i := by
  rw [resumed, List.filter_append, List.foldl_append, ← resumed]
  by_cases hi : record.issuer = i
  · rw [if_pos hi, List.filter_cons_of_pos (by simpa using hi)]
    rfl
  · rw [if_neg hi, List.filter_cons_of_neg (by simpa using hi)]
    rfl

theorem next_in_insert (next_seq : Map IssuerIdx Seq) (issuer : IssuerIdx) (seq : Seq) (i : IssuerIdx) :
    next_in (next_seq.insert issuer seq) i = if i = issuer then seq else next_in next_seq i := by
  rw [next_in, Map.insert_apply]
  split
  · rfl
  · rfl

/-- The record is on the active shelf, under its issuer's next number. -/
theorem Housed.write (h : Housed config d s older sealed active) {record : Record} (hr : record.Fits)
    (hseq : record.seq = s.next_seq record.issuer) (hroom : record.seq + 1 < 18446744073709551616) (bytes : Nat) :
    Housed config (d.write s.active (encode_record record))
      { s with
        end_offset := s.end_offset + (encode_record record).length
        bytes
        cursor := { s.cursor with next_seq := s.cursor.next_seq.insert record.issuer (record.seq + 1) } }
      older sealed { active with records := active.records ++ [record] } := by
  have hrecords : on_shelves (older ++ [{ active with records := active.records ++ [record] }]) =
      on_shelves (older ++ [active]) ++ [record] := by
    simp only [on_shelves_append, on_shelves_single, List.append_assoc]
  have hnext : ∀ i, resumed d.cursor.next_seq (on_shelves (older ++ [active]) ++ [record]) i =
      if i = record.issuer then record.seq + 1 else s.next_seq i := by
    intro i
    rw [resumed_append]
    by_cases hi : record.issuer = i
    · rw [if_pos hi, if_pos hi.symm, ← h.next_seq, ← hi, ← hseq]
      exact Nat.max_eq_right (Nat.le_succ _)
    · rw [if_neg hi, if_neg (Ne.symm hi), h.next_seq]
  have hown : ∀ i, next_in (s.cursor.next_seq.insert record.issuer (record.seq + 1)) i =
      if i = record.issuer then record.seq + 1 else s.next_seq i := next_in_insert _ _ _
  have hmono : ∀ i, s.next_seq i ≤ if i = record.issuer then record.seq + 1 else s.next_seq i := by
    intro i
    split
    · next hi => rw [hi, ← hseq]; exact Nat.le_succ _
    · exact le_refl _
  refine { stocked := ⟨?_, ?_, ?_, ?_, ?_⟩, positive := h.positive, counters := fun i => ?_, committed := h.committed,
           listed := h.listed, sealed_paths := h.sealed_paths, active_path := h.active_path, end_offset := ?_, next_ordinal := h.next_ordinal,
           next_seq := fun i => ?_, behind := fun i c hc => ?_ }
  · rw [← h.map_add record]
    exact List.rel_map (R := Shelf.Filed config) (P := Shelf.Filed config) (fun _ _ hf => filed_add hf s.active record) h.stocked.files
  · have hsorted := List.pairwise_append.1 h.stocked.sorted
    refine List.pairwise_append.2 ⟨hsorted.1, List.pairwise_singleton _ _, fun a ha b hb => ?_⟩
    rw [List.mem_singleton.1 hb]
    exact h.older_lt ha
  · intro sh hsh
    rcases List.mem_append.1 hsh with hsh | hsh
    · exact h.stocked.ordinals sh (List.mem_append_left _ hsh)
    · rw [List.mem_singleton.1 hsh]
      exact h.stocked.ordinals active (List.mem_append_right _ (List.mem_singleton.2 rfl))
  · rw [hrecords]
    intro r hmem
    rcases List.mem_append.1 hmem with hmem | hmem
    · exact h.stocked.fits r hmem
    · rw [List.mem_singleton.1 hmem]
      exact ⟨hr, hroom⟩
  · rw [hrecords]
    refine List.pairwise_append.2 ⟨h.stocked.ascending, List.pairwise_singleton _ _, fun a ha b hb hi => ?_⟩
    obtain rfl := List.mem_singleton.1 hb
    rw [hseq, ← hi]
    exact h.lt_next ha
  · rw [hrecords]
    show resumed d.cursor.next_seq _ i < _
    rw [hnext]
    split
    · exact hroom
    · rw [h.next_seq]
      exact h.counters i
  · show s.end_offset + _ = _
    rw [h.end_offset, Shelf.size, Shelf.size, stream_append, stream_cons, stream_nil, List.append_nil, List.length_append,
      Nat.add_assoc]
  · rw [hrecords]
    show next_in (s.cursor.next_seq.insert _ _) i = resumed d.cursor.next_seq _ i
    rw [hnext, hown]
  · show c < next_in (s.cursor.next_seq.insert _ _) i
    rw [hown]
    exact (h.behind i c hc).trans_le (hmono i)

/-! ## Files and cursor -/

theorem Housed.sync (h : Housed config d s older sealed active) (ordinal : Nat) :
    Housed config (d.sync ordinal) s older sealed active := by
  refine { h with stocked := { h.stocked with files := ?_ } }
  show List.Forall₂ _ (d.segments.map _) _
  refine List.forall₂_map_left_iff.2 (h.stocked.files.imp (fun f sh hf => ?_))
  split
  · exact ⟨hf.ordinal, hf.bytes⟩
  · exact hf

/-- The cursor file is written. -/
theorem Housed.store (h : Housed config d s older sealed active) : Housed config { d with cursor := s.cursor } s older sealed active := by
  have hnext : ∀ i, resumed s.cursor.next_seq (on_shelves (older ++ [active])) i = s.next_seq i := by
    intro i
    refine resumed_eq (fun r hr hi => ?_)
    have hlt := h.lt_next hr
    rw [hi] at hlt
    exact hlt
  refine { h with
    positive := fun i => ?_, counters := fun i => ?_, committed := fun i c hc => ?_, next_seq := fun i => (hnext i).symm }
  · show 1 ≤ s.next_seq i
    rw [h.next_seq]
    exact (h.positive i).trans (next_in_le_resumed _ _ _)
  · show resumed s.cursor.next_seq _ i < _
    rw [hnext, h.next_seq]
    exact h.counters i
  · exact h.behind i c hc

theorem Housed.store_cursor (h : Housed config d s older sealed active) (ok : Bool) :
    Housed config (store_cursor d s ok) s older sealed active := by
  rw [Bridge.store_cursor]
  split
  · exact h.store
  · exact h

/-- Losses are noted in the cursor, and the size is another. -/
theorem Housed.note (h : Housed config d s older sealed active) (pending : List GapCause) (bytes : Nat) :
    Housed config d { s with cursor := { s.cursor with pending }, bytes } older sealed active :=
  { h with
    sealed_paths := h.sealed_paths, active_path := h.active_path, end_offset := h.end_offset, next_ordinal := h.next_ordinal
    next_seq := h.next_seq, behind := h.behind }

/-! ## A new segment -/

theorem orderedInsert_last {segments : List SegmentFile} {f : SegmentFile} (h : ∀ g ∈ segments, g.ordinal < f.ordinal) :
    segments.orderedInsert (fun a b => a.ordinal ≤ b.ordinal) f = segments ++ [f] := by
  induction segments with
  | nil => rfl
  | cons g segments ih =>
    rw [List.orderedInsert, if_neg (Nat.not_le.2 (h g List.mem_cons_self)),
      ih (fun g' hg' => h g' (List.mem_cons_of_mem _ hg')), List.cons_append]

/-- A new segment's file. -/
def header_file (config : SpoolConfig) (ordinal : Nat) (now_ms : Int) : SegmentFile :=
  { ordinal, bytes := (⟨FORMAT_VERSION, config.stream.disk_code, ordinal, now_ms, config.colony_hash⟩ : SegmentHeader).encode }

/-- A segment behind all others is created with its header. -/
theorem create_segment_last (config : SpoolConfig) {d : Disk} {ordinal : Nat} (hlt : ∀ g ∈ d.segments, g.ordinal < ordinal) (now_ms : Int) :
    create_segment config d ordinal now_ms .Whole = ({ d with segments := d.segments ++ [header_file config ordinal now_ms] }, true) := by
  have hnone : d.segment ordinal = none :=
    List.find?_eq_none.2 (fun g hg => by simpa using Nat.ne_of_lt (hlt g hg))
  rw [create_segment, hnone]
  simp only [Option.isSome_none, Bool.false_eq_true, if_false]
  rw [Disk.add, ← orderedInsert_last (f := header_file config ordinal now_ms) hlt]
  rfl

theorem Stocked.create {shelves : List Shelf} (h : Stocked config d.segments shelves) {ordinal : Nat}
    (hnew : ∀ sh ∈ shelves, sh.ordinal < ordinal) (hroom : ordinal + 1 < 18446744073709551616) (now_ms : Int) :
    create_segment config d ordinal now_ms .Whole = ({ d with segments := d.segments ++ [header_file config ordinal now_ms] }, true) ∧
      Stocked config (d.segments ++ [header_file config ordinal now_ms]) (shelves ++ [⟨ordinal, now_ms, []⟩]) := by
  have hlt : ∀ g ∈ d.segments, g.ordinal < ordinal := by
    intro g hg
    obtain ⟨sh, hsh, hfiled⟩ := h.shelf hg
    rw [hfiled.ordinal]
    exact hnew sh hsh
  refine ⟨create_segment_last config hlt now_ms, ?_⟩
  have hrecords : on_shelves (shelves ++ [⟨ordinal, now_ms, []⟩]) = on_shelves shelves := by
    rw [on_shelves_append, on_shelves_single, List.append_nil]
  refine ⟨?_, ?_, ?_, by rw [hrecords]; exact h.fits, by rw [hrecords]; exact h.ascending⟩
  · refine List.rel_append h.files (.cons ⟨rfl, ?_⟩ .nil)
    rw [Shelf.bytes, stream_nil, List.append_nil]
    rfl
  · refine List.pairwise_append.2 ⟨h.sorted, List.pairwise_singleton _ _, fun a ha b hb => ?_⟩
    rw [List.mem_singleton.1 hb]
    exact hnew a ha
  · intro sh hsh
    rcases List.mem_append.1 hsh with hsh | hsh
    · exact h.ordinals sh hsh
    · rw [List.mem_singleton.1 hsh]
      exact hroom

/-- A roll whose new segment is created: the segment so far is sealed, and it fails with the sync or the cursor's write. -/
theorem Housed.roll (h : Housed config d s older sealed active) (hroom : s.next_ordinal + 1 < 18446744073709551616)
    (now_ms : Int) {faults : Faults} (hsynced : faults.synced = true) (hcreated : faults.created = .Whole) :
    ∃ d' s', roll config d s now_ms faults = (d', s', if faults.stored then .ok () else .error .SpoolIo) ∧
      Housed config d' s' (older ++ [active]) (sealed ++ [active]) ⟨s.next_ordinal, now_ms, []⟩ ∧
      s'.cursor = s.cursor ∧ s'.bytes = s.bytes + HEADER_BYTES ∧ s'.next_ordinal = s.next_ordinal + 1 ∧
      (faults.stored = true → d'.cursor = s.cursor) := by
  have hsync := h.sync s.active
  have hlt : ∀ sh ∈ older ++ [active], sh.ordinal < s.next_ordinal := by
    intro sh hsh
    rcases List.mem_append.1 hsh with hsh | hsh
    · exact (h.older_lt hsh).trans h.next_ordinal
    · rw [List.mem_singleton.1 hsh]
      exact h.next_ordinal
  obtain ⟨hcreate, hstocked⟩ := hsync.stocked.create hlt hroom now_ms
  have hrecords : on_shelves (older ++ [active] ++ [⟨s.next_ordinal, now_ms, []⟩]) = on_shelves (older ++ [active]) := by
    rw [on_shelves_append, on_shelves_single, List.append_nil]
  let s' : DiskSpool := { s with
    sealed := s.sealed ++ [s.active]
    next_ordinal := s.next_ordinal + 1
    active := s.next_ordinal
    end_offset := HEADER_BYTES
    bytes := s.bytes + HEADER_BYTES }
  have hnew : Housed config { d.sync s.active with segments := (d.sync s.active).segments ++ [header_file config s.next_ordinal now_ms] } s' (older ++ [active])
      (sealed ++ [active]) ⟨s.next_ordinal, now_ms, []⟩ :=
    { stocked := hstocked
      positive := h.positive
      counters := fun i => by rw [hrecords]; exact h.counters i
      committed := h.committed
      listed := List.Sublist.append h.listed (List.Sublist.refl _)
      sealed_paths := h.paths
      active_path := rfl
      end_offset := rfl
      next_ordinal := Nat.lt_succ_self _
      next_seq := fun i => by rw [hrecords]; exact h.next_seq i
      behind := h.behind }
  rw [Bridge.roll, if_pos hsynced, hcreated]
  simp only [hcreate]
  cases faults.stored with
  | true => exact ⟨_, s', rfl, hnew.store, rfl, rfl, rfl, fun _ => rfl⟩
  | false => exact ⟨_, s', rfl, hnew, rfl, rfl, rfl, fun hs => by cases hs⟩
end

/-! ## Eviction -/

def sizes : List Shelf → Nat
  | [] => 0
  | sh :: shelves => sh.size + sizes shelves

theorem sizes_append (shelves more : List Shelf) : sizes (shelves ++ more) = sizes shelves + sizes more := by
  induction shelves with
  | nil => rw [List.nil_append, sizes, Nat.zero_add]
  | cons sh shelves ih => rw [List.cons_append, sizes, sizes, ih, Nat.add_assoc]

/-- The losses noted for a shelf. -/
def Shelf.losses (sh : Shelf) : List GapCause := (evicted_range (SeqRanges.noted .empty sh.records)).toList

/-- What evicting shelves leaves. -/
structure Evicted (d : Disk) (s : DiskSpool) (gone : List Shelf) (d' : Disk) (s' : DiskSpool) : Prop where
  segments : d'.segments = d.segments.filter (fun f => f.ordinal ∉ gone.map (·.ordinal))
  file : d'.cursor = d.cursor
  active : s'.active = s.active
  end_offset : s'.end_offset = s.end_offset
  next_ordinal : s'.next_ordinal = s.next_ordinal
  bytes : s'.bytes = s.bytes - sizes gone
  next_seq : s'.cursor.next_seq = s.cursor.next_seq
  committed : s'.cursor.committed = s.cursor.committed
  pending : s'.cursor.pending = s.cursor.pending ++ gone.flatMap (·.losses)

/-- How an eviction of `sealed` ends: within the budget, or at the segment behind `gone` whose unlink fails. -/
inductive Ends (config : SpoolConfig) (unlinked : Nat → Bool) (n : Nat) (s : DiskSpool) (gone : List Shelf) :
    List Shelf → DiskSpool → Except SpoolError Unit → Prop
  | within {kept : List Shelf} {s' : DiskSpool} (hpaths : s'.sealed = kept.map (·.ordinal))
    (hbytes : kept ≠ [] → s.bytes - sizes gone ≤ config.max_bytes) : Ends config unlinked n s gone kept s' (.ok ())
  | stuck {sh : Shelf} {kept : List Shelf} {s' : DiskSpool} (hpaths : s'.sealed = kept.map (·.ordinal))
    (hbytes : config.max_bytes < s.bytes - sizes gone) (hunlink : unlinked (n + gone.length) = false) :
    Ends config unlinked n s gone (sh :: kept) s' (.error .SpoolIo)

section
variable {config : SpoolConfig} {d : Disk} {s : DiskSpool}

theorem evicted_nil (d : Disk) (s : DiskSpool) (sealed : List Nat) : Evicted d s [] d { s with sealed } where
  segments := (List.filter_eq_self.2 (fun f _ => by simp)).symm
  file := rfl
  active := rfl
  end_offset := rfl
  next_ordinal := rfl
  bytes := rfl
  next_seq := rfl
  committed := rfl
  pending := (List.append_nil _).symm

/-- One segment, and then more. -/
theorem Evicted.cons {sh : Shelf} {gone : List Shelf} {d' : Disk} {s' : DiskSpool} {sealed : List Nat}
    (h : Evicted (d.unlink sh.ordinal) { s with
      sealed, bytes := s.bytes - sh.size
      cursor := ((evicted_range (SeqRanges.noted .empty sh.records)).map s.cursor.mark_gap).getD s.cursor } gone d' s') :
    Evicted d s (sh :: gone) d' s' := by
  have hmark : ∀ range : Option GapCause, ((range.map s.cursor.mark_gap).getD s.cursor).next_seq = s.cursor.next_seq ∧
      ((range.map s.cursor.mark_gap).getD s.cursor).committed = s.cursor.committed ∧
      ((range.map s.cursor.mark_gap).getD s.cursor).pending = s.cursor.pending ++ range.toList := by
    intro range
    cases range with
    | none => exact ⟨rfl, rfl, (List.append_nil _).symm⟩
    | some cause => exact ⟨rfl, rfl, rfl⟩
  obtain ⟨hnext, hcommitted, hpending⟩ := hmark (evicted_range (SeqRanges.noted .empty sh.records))
  refine ⟨?_, h.file, h.active, h.end_offset, h.next_ordinal, ?_, h.next_seq.trans hnext, h.committed.trans hcommitted, ?_⟩
  · rw [h.segments, Disk.unlink, List.filter_filter]
    refine List.filter_congr (fun f _ => ?_)
    simp only [List.map_cons, List.mem_cons, not_or, Bool.decide_and]
    rw [Bool.and_comm]
  · rw [h.bytes, sizes, Nat.sub_sub]
  · rw [h.pending, hpending, List.flatMap_cons, List.append_assoc]
    rfl

/-- The loop evicts the oldest shelves in turn while the budget is exceeded; it goes on behind them, or stops at one of them
within the budget or because its unlink fails. -/
theorem evict_loop_ends (hcolony : config.colony_hash.length = 16) (unlinked : Nat → Bool) (n : Nat) {sealed : List Shelf}
    (hfiles : ∀ sh ∈ sealed, ∃ f, d.segment sh.ordinal = some f ∧ f.bytes = sh.bytes config)
    (hfits : ∀ sh ∈ sealed, sh.ordinal < 18446744073709551616 ∧ ∀ r ∈ sh.records, r.Fits)
    (hsorted : sealed.Pairwise (fun a b => a.ordinal < b.ordinal)) (more : List Nat)
    (hs : s.sealed = sealed.map (·.ordinal) ++ more) :
    ∃ gone kept d' s', sealed = gone ++ kept ∧ Evicted d s gone d' s' ∧
      (∀ k < gone.length, unlinked (n + k) = true ∧ config.max_bytes < s.bytes - sizes (gone.take k)) ∧
      ((kept = [] ∧ s'.sealed = more ∧ evict_loop config unlinked n (sealed.map (·.ordinal) ++ more) d s =
          evict_loop config unlinked (n + gone.length) more d' s') ∨
        ∃ sh rest, kept = sh :: rest ∧
          ((s.bytes - sizes gone ≤ config.max_bytes ∧ s'.sealed = kept.map (·.ordinal) ++ more ∧
              evict_loop config unlinked n (sealed.map (·.ordinal) ++ more) d s = (d', s', .ok ())) ∨
            (config.max_bytes < s.bytes - sizes gone ∧ unlinked (n + gone.length) = false ∧
              s'.sealed = rest.map (·.ordinal) ++ more ∧
              evict_loop config unlinked n (sealed.map (·.ordinal) ++ more) d s = (d', s', .error .SpoolIo)))) := by
  induction sealed generalizing d s n with
  | nil => exact ⟨[], [], d, s, rfl, evicted_nil d s s.sealed, fun k hk => absurd hk (Nat.not_lt_zero k), .inl ⟨rfl, hs, rfl⟩⟩
  | cons sh sealed ih =>
    obtain ⟨f, hf, hbytes⟩ := hfiles sh List.mem_cons_self
    obtain ⟨hord, hrecords⟩ := hfits sh List.mem_cons_self
    have hscan := Shelf.scan hcolony hord hrecords sh.ordinal
    rw [List.map_cons, List.cons_append, evict_loop]
    by_cases hover : config.max_bytes < s.bytes
    · rw [if_pos hover]
      simp only [hf, hbytes, hscan, Shelf.bytes_length hcolony]
      by_cases hu : unlinked n = true
      · rw [if_pos hu]
        have hothers : ∀ sh' ∈ sealed, ∃ f', (d.unlink sh.ordinal).segment sh'.ordinal = some f' ∧ f'.bytes = sh'.bytes config := by
          intro sh' hsh'
          obtain ⟨f', hf', hbytes'⟩ := hfiles sh' (List.mem_cons_of_mem _ hsh')
          refine ⟨f', ?_, hbytes'⟩
          have hne : sh'.ordinal ≠ sh.ordinal := (Nat.ne_of_lt ((List.pairwise_cons.1 hsorted).1 sh' hsh')).symm
          rw [Disk.segment, Disk.unlink, List.find?_filter, ← hf', Disk.segment]
          refine List.find?_congr (fun g _ => ?_)
          by_cases hg : g.ordinal = sh'.ordinal
          · simp [hg, hne]
          · simp [hg]
        obtain ⟨gone, kept, d', s', hsplit, hev, hover', hend⟩ := @ih _ { s with
          sealed := sealed.map (·.ordinal) ++ more, bytes := s.bytes - sh.size
          cursor := ((evicted_range (SeqRanges.noted .empty sh.records)).map s.cursor.mark_gap).getD s.cursor } (n + 1) hothers
          (fun sh' hsh' => hfits sh' (List.mem_cons_of_mem _ hsh')) (List.pairwise_cons.1 hsorted).2 rfl
        have hcount : n + 1 + gone.length = n + (sh :: gone).length := by rw [List.length_cons]; omega
        have hbytes' : s.bytes - sizes (sh :: gone) = s.bytes - sh.size - sizes gone := by rw [sizes, Nat.sub_sub]
        refine ⟨sh :: gone, kept, d', s', by rw [hsplit]; rfl, hev.cons, ?_, ?_⟩
        · intro k hk
          cases k with
          | zero => exact ⟨hu, hover⟩
          | succ k =>
            obtain ⟨hun, hb⟩ := hover' k (Nat.lt_of_succ_lt_succ hk)
            rw [List.take_succ_cons, sizes, ← Nat.sub_sub]
            refine ⟨?_, hb⟩
            rw [← hun]
            congr 1
            omega
        · rw [hbytes', ← hcount]
          exact hend
      · rw [if_neg hu]
        refine ⟨[], sh :: sealed, d, { s with sealed := sealed.map (·.ordinal) ++ more }, rfl, evicted_nil d s _,
          fun k hk => absurd hk (Nat.not_lt_zero k), .inr ⟨sh, sealed, rfl, .inr ⟨hover, ?_, rfl, rfl⟩⟩⟩
        exact Bool.eq_false_iff.2 hu
    · rw [if_neg hover]
      exact ⟨[], sh :: sealed, d, s, rfl, evicted_nil d s s.sealed, fun k hk => absurd hk (Nat.not_lt_zero k),
        .inr ⟨sh, sealed, rfl, .inl ⟨Nat.le_of_not_lt hover, hs, rfl⟩⟩⟩

/-- The loop over shelves alone. -/
theorem evict_loop_spec (hcolony : config.colony_hash.length = 16) (unlinked : Nat → Bool) (n : Nat) {sealed : List Shelf}
    (hfiles : ∀ sh ∈ sealed, ∃ f, d.segment sh.ordinal = some f ∧ f.bytes = sh.bytes config)
    (hfits : ∀ sh ∈ sealed, sh.ordinal < 18446744073709551616 ∧ ∀ r ∈ sh.records, r.Fits)
    (hsorted : sealed.Pairwise (fun a b => a.ordinal < b.ordinal)) (hs : s.sealed = sealed.map (·.ordinal)) :
    ∃ gone kept d' s' result, evict_loop config unlinked n (sealed.map (·.ordinal)) d s = (d', s', result) ∧
      sealed = gone ++ kept ∧ Evicted d s gone d' s' ∧ Ends config unlinked n s gone kept s' result ∧
      ∀ k < gone.length, unlinked (n + k) = true ∧ config.max_bytes < s.bytes - sizes (gone.take k) := by
  obtain ⟨gone, kept, d', s', hsplit, hev, hover, hend⟩ :=
    evict_loop_ends hcolony unlinked n hfiles hfits hsorted [] (by rw [hs, List.append_nil])
  rw [List.append_nil] at hend
  rcases hend with ⟨rfl, hpaths, hrun⟩ | ⟨sh, rest, rfl, ⟨hle, hpaths, hrun⟩ | ⟨hlt, hunlink, hpaths, hrun⟩⟩
  · exact ⟨gone, [], d', s', _, hrun, hsplit, hev, .within hpaths (fun h => absurd rfl h), hover⟩
  · rw [List.append_nil] at hpaths
    exact ⟨gone, sh :: rest, d', s', _, hrun, hsplit, hev, .within hpaths (fun _ => hle), hover⟩
  · rw [List.append_nil] at hpaths
    exact ⟨gone, sh :: rest, d', s', _, hrun, hsplit, hev, .stuck hpaths hlt hunlink, hover⟩

/-- The shelves that are left of `older`. -/
def left_of (older gone : List Shelf) : List Shelf := older.filter (fun sh => sh.ordinal ∉ gone.map (·.ordinal))

variable {s' : DiskSpool} {d' : Disk} {older sealed gone kept : List Shelf} {active : Shelf}

theorem left_of_append (hsorted : (gone ++ kept).Pairwise (fun a b => a.ordinal < b.ordinal)) : left_of (gone ++ kept) gone = kept := by
  rw [left_of, List.filter_append, List.filter_eq_nil_iff.2 (fun sh hsh => by simpa using ⟨sh, hsh, rfl⟩), List.nil_append]
  refine List.filter_eq_self.2 (fun sh hsh => ?_)
  have hout : sh.ordinal ∉ gone.map (·.ordinal) := by
    intro hmem
    obtain ⟨sh', hsh', heq⟩ := List.mem_map.1 hmem
    exact Nat.ne_of_lt ((List.pairwise_append.1 hsorted).2.2 sh' hsh' sh hsh) heq
  simpa using hout

/-- An eviction whose numbers are in the cursor file, and that does not list what it evicted. -/
theorem Housed.evicted (h : Housed config d s older (gone ++ kept) active) (hc : d.cursor.next_seq = s.cursor.next_seq)
    (hev : Evicted d s gone d' s') {rest : List Shelf} (hrest : rest.Sublist kept) (hpaths : s'.sealed = rest.map (·.ordinal)) :
    Housed config d' s' (left_of older gone) rest active := by
  have holder : ∀ sh ∈ gone ++ kept, sh ∈ older := h.listed.subset
  have hstays : active.ordinal ∉ gone.map (·.ordinal) := by
    intro hmem
    obtain ⟨sh, hsh, heq⟩ := List.mem_map.1 hmem
    exact Nat.ne_of_lt (h.older_lt (holder sh (List.mem_append_left _ hsh))) heq
  have hfilter : (older ++ [active]).filter (fun sh => sh.ordinal ∉ gone.map (·.ordinal)) = left_of older gone ++ [active] := by
    rw [List.filter_append, List.filter_cons_of_pos (by simpa using hstays)]
    rfl
  have hsub : (left_of older gone ++ [active]).Sublist (older ++ [active]) := by
    rw [← hfilter]
    exact List.filter_sublist
  have hrecords : (on_shelves (left_of older gone ++ [active])).Sublist (on_shelves (older ++ [active])) := on_shelves_sublist hsub
  -- The cursor file is ahead of every record, evicted or not.
  have hahead : ∀ i, next_in d.cursor.next_seq i = s.next_seq i := fun i => congrArg (fun m => next_in m i) hc
  have hnext : ∀ i, resumed d.cursor.next_seq (on_shelves (left_of older gone ++ [active])) i = s.next_seq i := by
    intro i
    rw [← hahead]
    refine resumed_eq (fun r hr hi => ?_)
    have hlt := h.lt_next (hrecords.subset hr)
    rw [hi, ← hahead] at hlt
    exact hlt
  have hsame : ∀ i, s'.next_seq i = s.next_seq i := fun i => congrArg (fun m => next_in m i) hev.next_seq
  have hkept : left_of (gone ++ kept) gone = kept :=
    left_of_append ((List.pairwise_append.1 h.stocked.sorted).1.sublist h.listed)
  refine { stocked := ⟨?_, h.stocked.sorted.sublist hsub, fun sh hsh => h.stocked.ordinals sh (hsub.subset hsh),
             fun r hr => h.stocked.fits r (hrecords.subset hr), h.stocked.ascending.sublist hrecords⟩,
           positive := fun i => by rw [hev.file]; exact h.positive i, counters := fun i => ?_, committed := by rw [hev.file]; exact h.committed, listed := ?_, sealed_paths := hpaths,
           active_path := hev.active.trans h.active_path, end_offset := hev.end_offset.trans h.end_offset,
           next_ordinal := ?_, next_seq := fun i => ?_, behind := fun i c hc' => ?_ }
  · rw [hev.segments, ← hfilter]
    refine List.rel_filter (R := Shelf.Filed config) (fun f sh hf => ?_) h.stocked.files
    simp only [decide_eq_true_eq, hf.ordinal]
  · rw [hev.file, hnext, h.next_seq]
    exact h.counters i
  · refine hrest.trans ?_
    have hfiltered := h.listed.filter (fun sh => decide (sh.ordinal ∉ gone.map (·.ordinal)))
    rw [← left_of, hkept] at hfiltered
    exact hfiltered
  · rw [hev.next_ordinal]
    exact h.next_ordinal
  · rw [hsame, hev.file, hnext]
  · rw [hsame]
    rw [hev.committed] at hc'
    exact h.behind i c hc'

/-- What the loop leaves of a housed spool. -/
theorem Housed.evict_loop (h : Housed config d s older sealed active) (hcolony : config.colony_hash.length = 16)
    (hc : d.cursor.next_seq = s.cursor.next_seq) (unlinked : Nat → Bool) :
    ∃ gone kept rest d' s' result, evict_loop config unlinked 0 s.sealed d s = (d', s', result) ∧ sealed = gone ++ kept ∧
      Evicted d s gone d' s' ∧ Ends config unlinked 0 s gone kept s' result ∧
      (∀ k < gone.length, unlinked k = true ∧ config.max_bytes < s.bytes - sizes (gone.take k)) ∧
      rest <:+ kept ∧ ((∀ k, unlinked k = true) → rest = kept) ∧ s'.sealed = rest.map (·.ordinal) ∧
      Housed config d' s' (left_of older gone) rest active := by
  have hmem : ∀ sh ∈ sealed, sh ∈ older ++ [active] := fun sh hsh => h.on_disk sh (List.mem_append_left _ hsh)
  have hfiles : ∀ sh ∈ sealed, ∃ f, d.segment sh.ordinal = some f ∧ f.bytes = sh.bytes config := by
    intro sh hsh
    obtain ⟨f, -, hfiled, hfind⟩ := h.stocked.file (hmem sh hsh)
    exact ⟨f, hfind, hfiled.bytes⟩
  have hfits : ∀ sh ∈ sealed, sh.ordinal < 18446744073709551616 ∧ ∀ r ∈ sh.records, r.Fits := fun sh hsh =>
    ⟨Nat.lt_of_succ_lt (h.stocked.ordinals sh (hmem sh hsh)), h.stocked.shelf_fits (hmem sh hsh)⟩
  have hsorted := (List.pairwise_append.1 h.stocked.sorted).1.sublist h.listed
  obtain ⟨gone, kept, d', s', result, hrun, rfl, hev, hend, hover⟩ :=
    evict_loop_spec hcolony unlinked 0 hfiles hfits hsorted h.sealed_paths
  have hover' : ∀ k < gone.length, unlinked k = true ∧ config.max_bytes < s.bytes - sizes (gone.take k) := by
    intro k hk
    have hk' := hover k hk
    rw [Nat.zero_add] at hk'
    exact hk'
  rw [h.sealed_paths]
  cases hend with
  | within hpaths hb =>
    exact ⟨gone, kept, kept, d', s', _, hrun, rfl, hev, .within hpaths hb, hover', List.suffix_refl _, fun _ => rfl,
      hpaths, h.evicted hc hev (List.Sublist.refl _) hpaths⟩
  | @stuck sh rest _ hpaths hb hun =>
    have hfails : ¬ ∀ k, unlinked k = true := fun hall => Bool.false_ne_true (hun.symm.trans (hall _))
    exact ⟨gone, sh :: rest, rest, d', s', _, hrun, rfl, hev, .stuck hpaths hb hun, hover', List.suffix_cons _ _,
      fun hall => absurd hall hfails, hpaths, h.evicted hc hev (List.sublist_cons_self _ _) hpaths⟩

end

/-! ## Append -/

/-- A record was written to the segment of this ordinal, and is listed while the segment is there. -/
structure Placed (older sealed : List Shelf) (active : Shelf) (ordinal : Nat) (record : Record) : Prop where
  listed : ∀ sh ∈ older ++ [active], sh.ordinal = ordinal → record ∈ sh.records ∧ sh ∈ sealed ++ [active]
  behind : ordinal ≤ active.ordinal

/-- How a step moves the shelves: the records on disk are some of those before and the new ones, the listed ones are the
last of them, and with `unlinks` every shelf that is not listed any more is gone. -/
structure Carries (unlinks : Prop) (older sealed : List Shelf) (active : Shelf) (new : List Record) (older' sealed' : List Shelf)
    (active' : Shelf) : Prop where
  disk : (on_shelves (older' ++ [active'])).Sublist (on_shelves (older ++ [active]) ++ new)
  listed : on_shelves (sealed' ++ [active']) <:+ on_shelves (sealed ++ [active]) ++ new
  plain : unlinks → older = sealed → older' = sealed'
  placed : unlinks → ∀ ordinal record, Placed older sealed active ordinal record → Placed older' sealed' active' ordinal record
  shelves : ∀ sh ∈ older', sh ∈ older ∨ sh.records = active.records ++ new ∨ sh.records = []
  last : active'.records = active.records ++ new ∨ active'.records = []

section
variable {config : SpoolConfig} {d : Disk} {s : DiskSpool} {older sealed : List Shelf} {active : Shelf}

theorem carries_same (unlinks : Prop) (older sealed : List Shelf) (active : Shelf) :
    Carries unlinks older sealed active [] older sealed active :=
  ⟨by rw [List.append_nil], by rw [List.append_nil], fun _ h => h, fun _ _ _ h => h, fun _ hsh => .inl hsh, .inl (List.append_nil _).symm⟩

theorem carries_rolled (unlinks : Prop) (older sealed : List Shelf) {active : Shelf} {ordinal : Nat} (hnew : active.ordinal < ordinal)
    (now_ms : Int) : Carries unlinks older sealed active [] (older ++ [active]) (sealed ++ [active]) ⟨ordinal, now_ms, []⟩ := by
  refine ⟨?_, ?_, fun _ h => by rw [h], fun _ o r h => ⟨fun sh hsh heq => ?_, h.behind.trans (Nat.le_of_lt hnew)⟩, fun sh hsh => ?_, .inr rfl⟩
  · rw [on_shelves_append (older ++ [active]), on_shelves_single]
  · rw [on_shelves_append (sealed ++ [active]), on_shelves_single]
  · rcases List.mem_append.1 hsh with hsh | hsh
    · obtain ⟨hr, hlisted⟩ := h.listed sh hsh heq
      exact ⟨hr, List.mem_append_left _ hlisted⟩
    · rw [List.mem_singleton.1 hsh] at heq
      exact absurd h.behind (Nat.not_le.2 (heq ▸ hnew))
  · rcases List.mem_append.1 hsh with hsh | hsh
    · exact .inl hsh
    · exact .inr (.inl (by rw [List.mem_singleton.1 hsh, List.append_nil]))

theorem Carries.trans {unlinks : Prop} {older sealed older' sealed' older'' sealed'' : List Shelf} {active active' active'' : Shelf}
    {new : List Record} (h : Carries unlinks older sealed active new older' sealed' active')
    (h' : Carries unlinks older' sealed' active' [] older'' sealed'' active'') :
    Carries unlinks older sealed active new older'' sealed'' active'' := by
  refine ⟨?_, ?_, fun hu hp => h'.plain hu (h.plain hu hp), fun hu o r hp => h'.placed hu o r (h.placed hu o r hp), fun sh hsh => ?_, ?_⟩
  · have hdisk := h'.disk
    rw [List.append_nil] at hdisk
    exact hdisk.trans h.disk
  · have hlisted := h'.listed
    rw [List.append_nil] at hlisted
    exact hlisted.trans h.listed
  · rcases h'.shelves sh hsh with hsh | hrecords | hnone
    · exact h.shelves sh hsh
    · rw [hrecords, List.append_nil]
      exact .inr h.last
    · exact .inr (.inr hnone)
  · rcases h'.last with hrecords | hnone
    · rw [hrecords, List.append_nil]
      exact h.last
    · exact .inr hnone

theorem carries_evicted {gone kept rest : List Shelf} {unlinks : Prop} (hsorted : (gone ++ kept).Pairwise (fun a b => a.ordinal < b.ordinal))
    (hrest : rest <:+ kept) (hall : unlinks → rest = kept) (older : List Shelf) (active : Shelf) :
    Carries unlinks older (gone ++ kept) active [] (left_of older gone) rest active := by
  refine ⟨?_, ?_, fun hu hp => ?_, fun hu o r h => ⟨fun sh hsh heq => ?_, h.behind⟩, fun sh hsh => .inl (List.mem_filter.1 hsh).1,
    .inl (List.append_nil _).symm⟩
  · rw [List.append_nil]
    exact on_shelves_sublist (List.Sublist.append List.filter_sublist (List.Sublist.refl _))
  · obtain ⟨front, hfront⟩ := hrest
    rw [List.append_nil, ← hfront]
    refine ⟨on_shelves (gone ++ front), ?_⟩
    simp only [on_shelves_append, List.append_assoc]
  · rw [hp, left_of_append hsorted, hall hu]
  · rw [hall hu]
    rcases List.mem_append.1 hsh with hsh | hsh
    · obtain ⟨holder, hstays⟩ := List.mem_filter.1 hsh
      obtain ⟨hr, hlisted⟩ := h.listed sh (List.mem_append_left _ holder) heq
      refine ⟨hr, ?_⟩
      rw [List.append_assoc] at hlisted
      refine (List.mem_append.1 hlisted).resolve_left (fun hgone => ?_)
      exact (of_decide_eq_true hstays) (List.mem_map.2 ⟨sh, hgone, rfl⟩)
    · obtain ⟨hr, -⟩ := h.listed sh (List.mem_append_right _ hsh) heq
      exact ⟨hr, List.mem_append_right _ hsh⟩

/-- The end of an append whose new segment, if it needs one, is created. -/
theorem Housed.settle (h : Housed config d s older sealed active) (hcolony : config.colony_hash.length = 16)
    (hroom : s.next_ordinal + 1 < 18446744073709551616) (now_ms : Int) {faults : Faults} (hcreated : faults.created = .Whole) :
    ∃ older' sealed' active', Housed config (settle config d s now_ms faults).1 (settle config d s now_ms faults).2.1
        older' sealed' active' ∧ Carries (∀ k, faults.unlinked k = true) older sealed active [] older' sealed' active' := by
  rw [Bridge.settle]
  split
  · cases hsynced : faults.synced with
    | false =>
      rw [Bridge.roll, hsynced]
      simp only [Bool.false_eq_true, if_false]
      exact ⟨older, sealed, active, h, carries_same _ _ _ _⟩
    | true =>
      obtain ⟨d', s', hroll, hrolled, hcursor, -, -, hfile⟩ := h.roll hroom now_ms hsynced hcreated
      rw [hroll]
      have hcarries := carries_rolled (∀ k, faults.unlinked k = true) older sealed h.next_ordinal now_ms
      cases hstored : faults.stored with
      | false =>
        simp only [Bool.false_eq_true, if_false]
        exact ⟨_, _, _, hrolled, hcarries⟩
      | true =>
        simp only [if_true]
        split
        · exact ⟨_, _, _, hrolled, hcarries⟩
        · have hsame : d'.cursor.next_seq = s'.cursor.next_seq := by rw [hfile hstored, hcursor]
          obtain ⟨gone, kept, rest, d'', s'', result, hrun, hsplit, hev, -, -, hrest, hall, hpaths, hhoused⟩ :=
            hrolled.evict_loop hcolony hsame faults.unlinked
          have hsorted := (List.pairwise_append.1 hrolled.stocked.sorted).1.sublist hrolled.listed
          rw [hsplit] at hcarries hsorted
          have hthen := hcarries.trans (carries_evicted hsorted hrest hall (older ++ [active]) _)
          rw [evict_to_budget, hrun]
          cases result with
          | error e => exact ⟨_, _, _, hhoused, hthen⟩
          | ok u =>
            simp only
            split
            · exact ⟨_, _, _, hhoused.store, hthen⟩
            · exact ⟨_, _, _, hhoused, hthen⟩
  · exact ⟨older, sealed, active, h, carries_same _ _ _ _⟩

/-- The record an append writes whole. -/
def numbered (s : DiskSpool) (record : Record) : Record := { record with seq := s.next_seq record.issuer }

abbrev refuses (config : SpoolConfig) (s : DiskSpool) : Prop := config.stream = .Alarm ∧ config.max_bytes ≤ s.bytes

def appended (config : SpoolConfig) (s : DiskSpool) (record : Record) (faults : Faults) : List Record :=
  if refuses config s ∨ faults.written ≠ none then [] else [numbered s record]

/-- The state between the write of a record and the end of the append. -/
def after_write (s : DiskSpool) (record : Record) : DiskSpool := { s with
  end_offset := s.end_offset + (encode_record (numbered s record)).length
  bytes := s.bytes + (RECORD_PREFIX_BYTES + record.payload.length)
  cursor := { s.cursor with next_seq := s.cursor.next_seq.insert record.issuer (s.next_seq record.issuer + 1) } }

/-- An append that is not refused and whose write succeeds. -/
theorem append_record_written (config : SpoolConfig) (d : Disk) {s : DiskSpool} {record : Record} (now_ms : Int) {faults : Faults}
    (hrefuses : ¬ refuses config s) (hwritten : faults.written = none)
    (hseq : s.next_seq record.issuer + 1 < 18446744073709551616) :
    append_record config d s record now_ms faults =
      match settle config (d.write s.active (encode_record (numbered s record))) (after_write s record) now_ms faults with
      | (d, s, .error e) => (d, s, .error e)
      | (d, s', .ok ()) => (d, s', .ok (s.next_seq record.issuer)) := by
  rw [append_record, if_neg hrefuses, hwritten]
  simp only [after_of_lt hseq]
  rfl

theorem numbered_fits {record : Record} (hr : record.Fits) (hseq : s.next_seq record.issuer + 1 < 18446744073709551616) :
    (numbered s record).Fits := ⟨Nat.lt_of_succ_lt hseq, hr.emitted_at_ms, hr.payload⟩

theorem Housed.after_write (h : Housed config d s older sealed active) {record : Record} (hr : record.Fits)
    (hseq : s.next_seq record.issuer + 1 < 18446744073709551616) :
    Housed config (d.write s.active (encode_record (numbered s record))) (after_write s record) older sealed
      { active with records := active.records ++ [numbered s record] } :=
  h.write (numbered_fits hr hseq) rfl hseq _

theorem write_nothing (d : Disk) (ordinal : Nat) : d.write ordinal [] = d := by
  have hsame : d.segments.map (fun f => if f.ordinal = ordinal then { f with bytes := f.bytes ++ [] } else f) = d.segments := by
    refine (List.map_congr_left (fun f _ => ?_)).trans (List.map_id _)
    rw [List.append_nil]
    split
    · rfl
    · rfl
  rw [Disk.write, Disk.update, hsame]

theorem carries_written (unlinks : Prop) {older sealed : List Shelf} {active : Shelf} (holder : ∀ sh ∈ older, sh.ordinal < active.ordinal)
    (record : Record) :
    Carries unlinks older sealed active [record] older sealed { active with records := active.records ++ [record] } := by
  refine ⟨?_, ?_, fun _ h => h, fun _ o r h => ⟨fun sh hsh heq => ?_, h.behind⟩, fun sh hsh => .inl hsh, .inl rfl⟩
  · simp only [on_shelves_append, on_shelves_single, List.append_assoc]
    exact List.Sublist.refl _
  · simp only [on_shelves_append, on_shelves_single, List.append_assoc]
    exact List.suffix_refl _
  · rcases List.mem_append.1 hsh with hsh | hsh
    · obtain ⟨hr, hlisted⟩ := h.listed sh (List.mem_append_left _ hsh) heq
      refine ⟨hr, List.mem_append_left _ ((List.mem_append.1 hlisted).resolve_right (fun hactive => ?_))⟩
      rw [List.mem_singleton.1 hactive] at hsh
      exact Nat.lt_irrefl _ (holder active hsh)
    · obtain rfl := List.mem_singleton.1 hsh
      obtain ⟨hr, -⟩ := h.listed active (List.mem_append_right _ (List.mem_singleton.2 rfl)) heq
      exact ⟨List.mem_append_left _ hr, List.mem_append_right _ (List.mem_singleton.2 rfl)⟩

/-- An append, unless it writes a part of the record or has no new segment. -/
theorem Housed.append (h : Housed config d s older sealed active) (hcolony : config.colony_hash.length = 16) {record : Record}
    (hr : record.Fits) (hseq : s.next_seq record.issuer + 1 < 18446744073709551616)
    (hroom : s.next_ordinal + 1 < 18446744073709551616) (now_ms : Int) {faults : Faults}
    (hwritten : faults.written = none ∨ faults.written = some 0) (hcreated : faults.created = .Whole) :
    ∃ older' sealed' active', Housed config (append_record config d s record now_ms faults).1
        (append_record config d s record now_ms faults).2.1 older' sealed' active' ∧
      Carries (∀ k, faults.unlinked k = true) older sealed active (appended config s record faults) older' sealed' active' := by
  by_cases hrefuses : refuses config s
  · rw [append_record, if_pos hrefuses, appended, if_pos (.inl hrefuses)]
    exact ⟨older, sealed, active, h, carries_same _ _ _ _⟩
  · rcases hwritten with hwritten | hwritten
    · rw [appended, if_neg (not_or.2 ⟨hrefuses, not_not.2 hwritten⟩), append_record_written config d now_ms hrefuses hwritten hseq]
      obtain ⟨older', sealed', active', hhoused, hcarries⟩ := (h.after_write hr hseq).settle hcolony hroom now_ms hcreated
      have hall := (carries_written (∀ k, faults.unlinked k = true) (fun _ => h.older_lt) (numbered s record)).trans hcarries
      split
      · next heq =>
        rw [heq] at hhoused
        exact ⟨older', sealed', active', hhoused, hall⟩
      · next heq =>
        rw [heq] at hhoused
        exact ⟨older', sealed', active', hhoused, hall⟩
    · rw [appended, if_pos (.inr (by rw [hwritten]; exact Option.some_ne_none 0)), append_record, if_neg hrefuses, hwritten]
      simp only [List.take_zero, write_nothing]
      exact ⟨older, sealed, active, h, carries_same _ _ _ _⟩

/-! ## The other operations -/

theorem Housed.commit (h : Housed config d s older sealed active) {issuer : IssuerIdx} {seq : Seq} (hseq : seq < s.next_seq issuer)
    (ok : Bool) : Housed config (commit_seq d s issuer seq ok).1 (commit_seq d s issuer seq ok).2 older sealed active := by
  have hhoused : Housed config d (commit_seq d s issuer seq ok).2 older sealed active := by
    refine { h with sealed_paths := h.sealed_paths, active_path := h.active_path, end_offset := h.end_offset,
                    next_ordinal := h.next_ordinal, next_seq := h.next_seq, behind := fun i c hc => ?_ }
    show c < s.next_seq i
    have hinsert : (s.cursor.committed.insert issuer (max ((s.cursor.committed issuer).getD 0) seq)) i = some c := hc
    rw [Map.insert_apply] at hinsert
    split at hinsert
    · next hi =>
      rw [hi, ← Option.some.inj hinsert]
      refine Nat.max_lt.2 ⟨?_, hseq⟩
      cases hold : s.cursor.committed issuer with
      | none => exact Nat.zero_lt_of_lt hseq
      | some c' => exact h.behind issuer c' hold
    · exact h.behind i c hinsert
  exact hhoused.store_cursor ok

theorem Housed.mark_gap (h : Housed config d s older sealed active) (cause : GapCause) (ok : Bool) :
    Housed config (mark_gap_cause d s cause ok).1 (mark_gap_cause d s cause ok).2 older sealed active :=
  (h.note (s.cursor.pending ++ [cause]) s.bytes).store_cursor ok

theorem Housed.take_gaps (h : Housed config d s older sealed active) (ok : Bool) :
    Housed config (take_gap_causes d s ok).1 (take_gap_causes d s ok).2 older sealed active := by
  have htaken := h.note [] s.bytes
  rw [take_gap_causes]
  simp only
  split
  · exact htaken
  · exact htaken.store_cursor ok

theorem Housed.seal (h : Housed config d s older sealed active) (synced ok : Bool) :
    Housed config (seal_spool d s synced ok) s older sealed active := by
  rw [seal_spool]
  split
  · exact (h.sync s.active).store_cursor ok
  · exact h

end

end Ambush.Bridge

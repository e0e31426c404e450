import Ambush.Bridge.Fouled
/-!
# Appends that fail

What an append that fails leaves of the records, of the ones written before and of those to
come. A record written in part stops the reading of its segment; one that is written whole
stays, though its append failed, unless its segment is evicted at once.
-/
open Lib Lib.Frames

namespace Ambush.Bridge

/-- What the segments of these ordinals take on disk. -/
def stored_bytes (d : Disk) (paths : List Nat) : Nat := (paths.map (file_size d)).sum

/-- Whether an append of `written` more bytes fills the segment, and the budget then leaves none of the segments before the new
one. -/
def Sweeps (config : SpoolConfig) (d : Disk) (s : DiskSpool) (written : Nat) : Prop :=
  config.stream ≠ .Alarm ∧ config.segment_bytes ≤ s.end_offset + written ∧
    config.max_bytes < s.bytes + written + HEADER_BYTES - stored_bytes d s.sealed

/-- `peek` shows the records it showed before, each once, and what is appended later is read back. -/
structure FailsCleanly (config : SpoolConfig) (d : Disk) (s : DiskSpool) (d' : Disk) (s' : DiskSpool) : Prop where
  unchanged : ∃ before after, s.peek d u64Max = .ok before ∧ s'.peek d' u64Max = .ok after ∧ after.Perm before ∧ after.Nodup
  readable : Readable config d' s'

/-- The failures that an append gets over: it is refused; its write leaves no byte, or the next append clears the segment; or
the record is written, all is committed, and an eviction clears every segment and fails only then. -/
def Harmless (config : SpoolConfig) (d : Disk) (s : DiskSpool) (record : Record) (faults : Faults) : Prop :=
  refuses config s ∨
    (∃ n, faults.written = some n ∧ (n = 0 ∨ Sweeps config d s RECORD_PREFIX_BYTES)) ∨
    (faults.written = none ∧ faults.synced = true ∧ faults.created = .Whole ∧ faults.stored = true ∧
      (∀ k < s.sealed.length, faults.unlinked k = true) ∧ Sweeps config d s (encode_record record).length ∧
      s.uncommitted (records_at d (s.sealed ++ [s.active])) = [])

section
variable {config : SpoolConfig} {d : Disk} {s : DiskSpool} {older sealed : List Shelf} {active : Shelf}

theorem Housed.stored_bytes (h : Housed config d s older sealed active) (hcolony : config.colony_hash.length = 16) :
    stored_bytes d s.sealed = sizes sealed := by
  have hall : ∀ shelves : List Shelf, (∀ sh ∈ shelves, sh ∈ older ++ [active]) →
      Bridge.stored_bytes d (shelves.map (·.ordinal)) = sizes shelves := by
    intro shelves
    induction shelves with
    | nil => exact fun _ => rfl
    | cons sh shelves ih =>
      intro hsub
      have hrest := ih (fun sh' hsh' => hsub sh' (List.mem_cons_of_mem _ hsh'))
      rw [Bridge.stored_bytes] at hrest
      rw [Bridge.stored_bytes, List.map_cons, List.map_cons, List.sum_cons, hrest, sizes,
        h.stocked.file_size hcolony (hsub sh List.mem_cons_self)]
  rw [h.sealed_paths]
  exact hall sealed (fun sh hsh => h.on_disk sh (List.mem_append_left _ hsh))

theorem Housed.peek_all (h : Housed config d s older sealed active) (hcolony : config.colony_hash.length = 16) :
    s.peek d u64Max = .ok (s.uncommitted (on_shelves (sealed ++ [active]))) := by
  rw [h.peek hcolony, fitting_all]

theorem Housed.nodup (h : Housed config d s older sealed active) : (s.uncommitted (on_shelves (sealed ++ [active]))).Nodup :=
  (Ascending.nodup (h.stocked.ascending.sublist h.listed_records)).sublist List.filter_sublist

/-- Nothing happened. -/
theorem Housed.fails_cleanly (h : Housed config d s older sealed active) (hcolony : config.colony_hash.length = 16) :
    FailsCleanly config d s d s :=
  ⟨⟨_, _, h.peek_all hcolony, h.peek_all hcolony, List.Perm.refl _, h.nodup⟩, h.readable hcolony⟩

/-! ## A record written in part -/

theorem write_write (d : Disk) (ordinal : Nat) (bytes more : Bytes) : (d.write ordinal bytes).write ordinal more = d.write ordinal (bytes ++ more) := by
  rw [Disk.write, Disk.write, Disk.write, Disk.update, Disk.update, Disk.update, List.map_map]
  refine congrArg (fun segments => { d with segments }) (List.map_congr_left (fun f _ => ?_))
  simp only [Function.comp]
  split
  · rw [List.append_assoc]
  · rfl

/-- What is read behind the records of a shelf. -/
theorem Shelf.read_behind (hcolony : config.colony_hash.length = 16) {sh : Shelf} (hr : ∀ r ∈ sh.records, r.Fits) {tail rest : Bytes}
    {records : List Record} (h : Reads tail records rest) :
    read_records_from (sh.bytes config ++ tail) HEADER_BYTES = sh.records ++ records := by
  refine (@segment_reads _ rest _ ?_).1
  have hown := reads_stream hr decode_record_nil
  rw [List.append_nil] at hown
  have hlen : (sh.header config).encode.length = HEADER_BYTES := encode_header_length hcolony
  rw [Shelf.bytes, List.append_assoc, List.drop_left' hlen]
  exact hown.append h

theorem torn_reads {r : Record} (hr : r.Fits) {n : Nat} (hn : n < (encode_record r).length) :
    Reads ((encode_record r).take n) [] ((encode_record r).take n) := .stop (decode_record_torn hr hn)

/-- The segments of a housed spool with more bytes behind the last record. -/
theorem Housed.write_segment (h : Housed config d s older sealed active) (more : Bytes) {path : Nat} (hpath : path ∈ s.sealed ++ [s.active]) :
    ∃ sh ∈ sealed ++ [active], sh.ordinal = path ∧ ∃ f, (d.write s.active more).segment path = some f ∧
      f.bytes = sh.bytes config ++ (if path = s.active then more else []) := by
  rw [h.paths] at hpath
  obtain ⟨sh, hsh, rfl⟩ := List.mem_map.1 hpath
  obtain ⟨f, -, hfiled, hfind⟩ := h.stocked.file (h.on_disk sh hsh)
  refine ⟨sh, hsh, rfl, if f.ordinal = s.active then { f with bytes := f.bytes ++ more } else f, ?_, ?_⟩
  · rw [Disk.segment, Disk.write, Disk.update, List.find?_map]
    have hsame : (fun g : SegmentFile => decide (g.ordinal = sh.ordinal)) ∘
        (fun g => if g.ordinal = s.active then { g with bytes := g.bytes ++ more } else g) =
        fun g => decide (g.ordinal = sh.ordinal) := by
      funext g
      simp only [Function.comp]
      split
      · rfl
      · rfl
    rw [hsame, hfind]
    rfl
  · rw [hfiled.ordinal]
    split
    · rw [hfiled.bytes]
    · rw [hfiled.bytes, List.append_nil]

/-- A part of a record behind the others is not read. -/
theorem Housed.peek_torn (h : Housed config d s older sealed active) (hcolony : config.colony_hash.length = 16) {r : Record}
    (hr : r.Fits) {n : Nat} (hn : n < (encode_record r).length) :
    s.peek (d.write s.active ((encode_record r).take n)) u64Max = .ok (s.uncommitted (on_shelves (sealed ++ [active]))) := by
  have hread : ∀ path ∈ s.sealed ++ [s.active],
      ((d.write s.active ((encode_record r).take n)).segment path).map (fun f => read_records_from f.bytes HEADER_BYTES) =
        (d.segment path).map (fun f => read_records_from f.bytes HEADER_BYTES) := by
    intro path hpath
    obtain ⟨sh, hsh, rfl, f, hf, hbytes⟩ := h.write_segment ((encode_record r).take n) hpath
    obtain ⟨g, -, hfiled, hfind⟩ := h.stocked.file (h.on_disk sh hsh)
    have hg : d.segment sh.ordinal = some g := hfind
    have hfits := h.stocked.shelf_fits (h.on_disk sh hsh)
    rw [hf, hg, Option.map_some, Option.map_some, hbytes, hfiled.bytes, (Shelf.read hcolony hfits).1]
    split
    · rw [Shelf.read_behind hcolony hfits (torn_reads hr hn), List.append_nil]
    · rw [List.append_nil, (Shelf.read hcolony hfits).1]
  have hsame : records_at (d.write s.active ((encode_record r).take n)) (s.sealed ++ [s.active]) =
      records_at d (s.sealed ++ [s.active]) := by
    rw [records_at, records_at]
    exact List.flatMap_congr (fun path hpath => by rw [hread path hpath])
  rw [peek_spec, fitting_all, hsame, h.records hcolony]
  intro path hpath
  obtain ⟨sh, -, -, f, hf, -⟩ := h.write_segment ((encode_record r).take n) hpath
  rw [hf]
  rfl

/-- Where the next append is of a record without a payload, its record is not read. -/
theorem Housed.torn_hides (h : Housed config d s older sealed active) (hcolony : config.colony_hash.length = 16) {r : Record}
    (hr : r.Fits) {n : Nat} (hpos : 0 < n) (hn : n < (encode_record r).length) {issuer : IssuerIdx}
    (hseq : s.next_seq issuer + 1 < 18446744073709551616) :
    ∃ flags, Hidden (d.write s.active ((encode_record r).take n ++ encode_record ⟨s.next_seq issuer, 0, issuer, flags, []⟩))
      ⟨s.next_seq issuer, 0, issuer, flags, []⟩ := by
  obtain ⟨flags, hhides⟩ := torn_front_hides hr hpos hn issuer (Nat.lt_of_succ_lt hseq)
  refine ⟨flags, fun f hf hread => ?_⟩
  have hfresh : ∀ sh ∈ older ++ [active], (⟨s.next_seq issuer, 0, issuer, flags, []⟩ : Record) ∉ sh.records := by
    intro sh hsh hmem
    exact Nat.lt_irrefl _ (h.lt_next (mem_on_shelves hsh hmem))
  obtain ⟨g, hg, rfl⟩ := List.mem_map.1 hf
  obtain ⟨sh, hsh, hfiled⟩ := h.stocked.shelf hg
  have hfits := h.stocked.shelf_fits hsh
  split at hread
  · simp only [hfiled.bytes] at hread
    have hreads := reads_records (le_refl ((encode_record r).take n ++ encode_record ⟨s.next_seq issuer, 0, issuer, flags, []⟩).length)
    rw [Shelf.read_behind hcolony hfits hreads] at hread
    rcases List.mem_append.1 hread with hown | hbehind
    · exact hfresh sh hsh hown
    · exact hhides _ _ hreads hbehind
  · rw [hfiled.bytes, (Shelf.read hcolony hfits).1] at hread
    exact hfresh sh hsh hread

/-- Unless the next append may clear the segment, some later record is never read. -/
theorem Housed.torn_not_readable (h : Housed config d s older sealed active) (hcolony : config.colony_hash.length = 16) {r : Record}
    (hr : r.Fits) {n : Nat} (hpos : 0 < n) (hn : n < (encode_record r).length) (hrefuses : ¬ refuses config s) {issuer : IssuerIdx}
    (hseq : s.next_seq issuer + 1 < 18446744073709551616) (hroom : s.next_ordinal + 1 < 18446744073709551616)
    (hkept : ¬ Sweeps config d s RECORD_PREFIX_BYTES) :
    ¬ Readable config (d.write s.active ((encode_record r).take n)) s := by
  intro hreadable
  obtain ⟨flags, hhidden⟩ := h.torn_hides hcolony hr hpos hn hseq
  let record : Record := ⟨0, 0, issuer, flags, []⟩
  have hfouled := @Fouled.after_write _ _ _ _ _ _ (h.fouled.write ((encode_record r).take n)) record hseq (encode_record (numbered s record))
  have hsweeping : ¬ Sweeping config (Bridge.after_write s record) sealed := by
    rintro ⟨halarm, hfull, hover⟩
    refine hkept ⟨halarm, ?_, ?_⟩
    · have hlen : (encode_record (numbered s record)).length = RECORD_PREFIX_BYTES := by rw [encode_record_length]; rfl
      rw [← hlen]
      exact hfull
    · rw [h.stored_bytes hcolony]
      exact hover
  obtain ⟨d', s', hsettle, hthere⟩ := hfouled.settle_kept hcolony 0 hsweeping
  have happend := @append_record_written config (d.write s.active ((encode_record r).take n)) s record 0 {} hrefuses rfl hseq
  rw [hsettle] at happend
  simp only at happend
  have hfits : record.Fits := ⟨by norm_num [record], by norm_num [record], by norm_num [record]⟩
  let x' : Later := ⟨d', s', [(s.active, numbered s record)]⟩
  have hstep : Appends config { disk := d.write s.active ((encode_record r).take n), spool := s } (record, 0) x' :=
    ⟨hfits, hroom, ⟨_, happend⟩, rfl⟩
  obtain ⟨hshows, -⟩ := hreadable [(record, 0)] x' (.cons hstep .nil) (s.active, numbered s record) List.mem_cons_self hthere
  have hstays := hhidden.settle hcolony (Bridge.after_write s record) 0
  rw [← write_write] at hstays
  have hsame : encode_record ⟨s.next_seq issuer, 0, issuer, flags, []⟩ = encode_record (numbered s record) := rfl
  rw [hsame, hsettle] at hstays
  exact hstays.not_shows s' hshows

/-- When the next append clears the segment, whatever it is, what is appended later is read. -/
theorem Housed.torn_readable (h : Housed config d s older sealed active) (hcolony : config.colony_hash.length = 16) (front : Bytes)
    (hswept : Sweeps config d s RECORD_PREFIX_BYTES) : Readable config (d.write s.active front) s := by
  intro later x hrun p hp hthere
  cases hrun with
  | nil => cases hp
  | @cons _ x₁ _ a _ hstep hrest =>
    obtain ⟨hr, hroom, ⟨seq, happend⟩, hnew⟩ := hstep
    obtain ⟨-, -, hseq, hsettle⟩ := append_ok happend
    obtain ⟨halarm, hfull, hover⟩ := hswept
    have hfouled := @Fouled.after_write _ _ _ _ _ _ (h.fouled.write front) a.1 hseq (encode_record (numbered s a.1))
    have hsweeping : Sweeping config (Bridge.after_write s a.1) sealed := by
      refine ⟨halarm, ?_, ?_⟩
      · have hlen := encode_record_pos (numbered s a.1)
        show _ ≤ s.end_offset + _
        rw [RECORD_PREFIX_BYTES] at hfull
        omega
      · show _ < s.bytes + (RECORD_PREFIX_BYTES + a.1.payload.length) + HEADER_BYTES - sizes sealed
        rw [h.stored_bytes hcolony] at hover
        omega
    have hhoused := hfouled.settle_swept hcolony hroom a.2 hsweeping hsettle
    have hu := uncommitting_settle config ((d.write s.active front).write s.active (encode_record (numbered s a.1)))
      (Bridge.after_write s a.1) a.2 {}
    rw [hsettle] at hu
    have hstart : Accumulates config x₁ := by
      refine .intro hhoused (fun q hq => ?_)
      rw [hnew, List.nil_append] at hq
      obtain rfl := List.mem_singleton.1 hq
      refine ⟨⟨fun sh hsh heq => ?_, Nat.le_of_lt hfouled.next_ordinal⟩, fun c hc => ?_, fun c hc => ?_⟩
      · rcases List.mem_append.1 hsh with hsh | hsh
        · exact absurd heq (Nat.ne_of_lt (h.fouled.older_lt sh (List.mem_filter.1 hsh).1))
        · rw [List.mem_singleton.1 hsh] at heq
          exact absurd heq (Nat.ne_of_gt hfouled.next_ordinal)
      · rw [hu.committed] at hc
        exact h.behind _ c hc
      · rcases hu.file with hf | hf
        · rw [hf] at hc
          exact h.file_behind hc
        · rw [hf] at hc
          exact h.behind _ c hc
    exact (run_accumulates hcolony hrest hstart).reads hcolony hp hthere

/-! ## A record written whole -/

theorem numbered_length (s : DiskSpool) (record : Record) : (encode_record (numbered s record)).length = (encode_record record).length := by
  rw [encode_record_length, encode_record_length, numbered]

/-- The record of an append that failed is shown. -/
theorem Housed.stays (h : Housed config d s older sealed active) (hcolony : config.colony_hash.length = 16) (record : Record)
    {d' : Disk} {s' : DiskSpool} (hshows : Shows d' s' (numbered s record)) : ¬ FailsCleanly config d s d' s' := by
  rintro ⟨⟨before, after, hbefore, hafter, hperm, -⟩, -⟩
  obtain ⟨records, hpeek, hmem⟩ := hshows
  obtain rfl := Except.ok.inj (hafter.symm.trans hpeek)
  obtain rfl := Except.ok.inj (hbefore.symm.trans (h.peek_all hcolony))
  have hold := (List.mem_filter.1 (hperm.mem_iff.1 hmem)).1
  exact Nat.lt_irrefl _ (h.lt_next (h.listed_records.subset hold))

/-- A creation that fails leaves the other segments. -/
theorem create_segment_others (config : SpoolConfig) {ordinal : Nat} (hlt : ∀ g ∈ d.segments, g.ordinal < ordinal) (now_ms : Int)
    (created : Created) {path : Nat} (hpath : (d.segment path).isSome) :
    (create_segment config d ordinal now_ms created).1.segment path = d.segment path := by
  obtain ⟨f, hf⟩ := Option.isSome_iff_exists.1 hpath
  have hbehind : ∀ g : SegmentFile, g.ordinal = ordinal → (d.add g).segment path = d.segment path := by
    intro g hg
    rw [Disk.segment, Disk.add, orderedInsert_last (hg ▸ hlt), List.find?_append, ← Disk.segment, hf]
    rfl
  unfold create_segment
  simp only
  split
  · rfl
  · cases created with
    | Whole => exact hbehind _ rfl
    | Torn n => exact hbehind _ rfl
    | Refused => rfl

theorem create_segment_refused (config : SpoolConfig) (d : Disk) (ordinal : Nat) (now_ms : Int) {created : Created}
    (hcreated : created ≠ .Whole) :
    create_segment config d ordinal now_ms created = ((create_segment config d ordinal now_ms created).1, false) := by
  unfold create_segment
  simp only
  split
  · rfl
  · cases created with
    | Whole => exact absurd rfl hcreated
    | Torn n => rfl
    | Refused => rfl

/-- Without a new segment the active one is listed twice. -/
theorem Housed.roll_refused (h : Housed config d s older sealed active) (hcolony : config.colony_hash.length = 16) (now_ms : Int)
    {created : Created} {r : Record} (hr : r ∈ active.records) (hahead : ∀ c, s.cursor.committed r.issuer = some c → c < r.seq) :
    Shows (create_segment config (d.sync s.active) s.next_ordinal now_ms created).1
      { s with sealed := s.sealed ++ [s.active], next_ordinal := s.next_ordinal + 1 } r := by
  have hsync := h.sync s.active
  have hlt : ∀ g ∈ (d.sync s.active).segments, g.ordinal < s.next_ordinal := fun g hg => hsync.fouled.lt_next hg
  have hthere : ∀ path ∈ s.sealed ++ [s.active], ((d.sync s.active).segment path).isSome := by
    intro path hpath
    rw [hsync.paths] at hpath
    obtain ⟨sh, hsh, rfl⟩ := List.mem_map.1 hpath
    obtain ⟨f, -, -, hfind⟩ := hsync.stocked.file (hsync.on_disk sh hsh)
    exact Option.isSome_iff_exists.2 ⟨f, hfind⟩
  have hsame : ∀ path ∈ s.sealed ++ [s.active], (create_segment config (d.sync s.active) s.next_ordinal now_ms created).1.segment path =
      (d.sync s.active).segment path := fun path hpath => create_segment_others config hlt now_ms created (hthere path hpath)
  have hlisted : ∀ path, path ∈ s.sealed ++ [s.active] ++ [s.active] → path ∈ s.sealed ++ [s.active] := by
    intro path hpath
    rcases List.mem_append.1 hpath with hpath | hpath
    · exact hpath
    · exact List.mem_append_right _ hpath
  refine ⟨_, peek_spec (fun path hpath => ?_) u64Max, ?_⟩
  · have hin := hlisted path hpath
    rw [hsame path hin]
    exact hthere path hin
  · rw [fitting_all, DiskSpool.uncommitted, List.mem_filter]
    constructor
    · have hfirst : r ∈ records_at (d.sync s.active) (s.sealed ++ [s.active]) := by
        rw [hsync.records hcolony]
        exact mem_on_shelves (List.mem_append_right _ (List.mem_singleton.2 rfl)) hr
      have hmoved : records_at (create_segment config (d.sync s.active) s.next_ordinal now_ms created).1 (s.sealed ++ [s.active]) =
          records_at (d.sync s.active) (s.sealed ++ [s.active]) := by
        rw [records_at, records_at]
        exact List.flatMap_congr (fun path hpath => by rw [hsame path hpath])
      rw [records_at, List.flatMap_append, ← records_at, hmoved]
      exact List.mem_append_left _ hfirst
    · rw [DiskSpool.is_committed]
      cases hc : s.cursor.committed r.issuer with
      | none => rfl
      | some c => simpa using hahead c hc

/-- Before the last of a row. -/
theorem prefix_of_concat {gone kept sealed : List Shelf} {last : Shelf} (h : sealed ++ [last] = gone ++ kept) (hkept : kept ≠ []) :
    ∃ front, sealed = gone ++ front ∧ kept = front ++ [last] := by
  rcases List.eq_nil_or_concat kept with rfl | ⟨front, last', rfl⟩
  · exact absurd rfl hkept
  · rw [List.concat_eq_append, ← List.append_assoc] at h
    obtain ⟨hfront, hlast⟩ := List.append_inj' h rfl
    exact ⟨front, hfront, by rw [List.concat_eq_append, hlast]⟩

theorem rest_of_paths {gone rest kept : List Shelf} {unlinked : Nat → Bool} {s' : DiskSpool} {result : Except SpoolError Unit}
    (hend : Ends config unlinked 0 s gone kept s' result) (hpaths : s'.sealed = rest.map (·.ordinal)) (hrest : rest <:+ kept) :
    (kept = rest ∧ (kept ≠ [] → s.bytes - sizes gone ≤ config.max_bytes)) ∨
      ∃ sh, kept = sh :: rest ∧ config.max_bytes < s.bytes - sizes gone ∧ unlinked gone.length = false := by
  cases hend with
  | within hkept hbytes =>
    have hlen := congrArg List.length (hkept.symm.trans hpaths)
    rw [List.length_map, List.length_map] at hlen
    exact .inl ⟨(hrest.eq_of_length hlen.symm).symm, hbytes⟩
  | @stuck sh left _ hkept hbytes hunlink =>
    have hlen := congrArg List.length (hkept.symm.trans hpaths)
    rw [List.length_map, List.length_map] at hlen
    rw [Nat.zero_add] at hunlink
    have hleft : rest <:+ left := by
      rcases List.suffix_cons_iff.1 hrest with heq | hsuffix
      · rw [heq, List.length_cons] at hlen
        omega
      · exact hsuffix
    exact .inr ⟨sh, by rw [hleft.eq_of_length hlen.symm], hbytes, hunlink⟩

/-- An eviction clears the list exactly when the budget leaves none of the segments and every unlink but the last succeeds;
otherwise the newest sealed segment stays. -/
theorem Housed.evict_clears {last : Shelf} (h : Housed config d s older (sealed ++ [last]) active) (hcolony : config.colony_hash.length = 16)
    (hc : d.cursor.next_seq = s.cursor.next_seq) (unlinked : Nat → Bool) :
    ∃ older' rest d' s' result, Bridge.evict_loop config unlinked 0 s.sealed d s = (d', s', result) ∧
      Housed config d' s' older' rest active ∧ s'.cursor.committed = s.cursor.committed ∧
      ((rest = [] ∧ (∀ k < sealed.length, unlinked k = true) ∧ config.max_bytes < s.bytes - sizes sealed) ∨
        (last ∈ rest ∧ ¬ ((∀ k < sealed.length, unlinked k = true) ∧ config.max_bytes < s.bytes - sizes sealed))) := by
  obtain ⟨gone, kept, rest, d', s', result, hrun, hsplit, hev, hend, hover, hrest, -, hpaths, hhoused⟩ :=
    h.evict_loop hcolony hc unlinked
  refine ⟨_, rest, d', s', result, hrun, hhoused, hev.committed, ?_⟩
  rcases rest_of_paths hend hpaths hrest with ⟨rfl, hwithin⟩ | ⟨sh, rfl, hbytes, hunlink⟩
  · by_cases hkept : kept = []
    · subst hkept
      rw [List.append_nil] at hsplit
      subst hsplit
      refine .inl ⟨rfl, fun k hk => ?_, ?_⟩
      · exact (hover k (by rw [List.length_append]; exact Nat.lt_add_right _ hk)).1
      · have hlast := (hover sealed.length (by rw [List.length_append]; exact Nat.lt_succ_self _)).2
        rw [List.take_left' rfl] at hlast
        exact hlast
    · obtain ⟨front, rfl, hkept'⟩ := prefix_of_concat hsplit hkept
      refine .inr ⟨by rw [hkept']; exact List.mem_append_right _ (List.mem_singleton.2 rfl), ?_⟩
      rintro ⟨-, hclears⟩
      have hle := hwithin hkept
      have hsizes := @sizes_of_front gone front
      omega
  · obtain ⟨front, hfront, hkept'⟩ := prefix_of_concat hsplit (List.cons_ne_nil _ _)
    rcases front with _ | ⟨sh', front⟩
    · obtain ⟨-, rfl⟩ := List.cons.inj hkept'
      rw [List.append_nil] at hfront
      rw [hfront]
      exact .inl ⟨rfl, fun k hk => (hover k hk).1, hbytes⟩
    · obtain ⟨-, rfl⟩ := List.cons.inj hkept'
      refine .inr ⟨List.mem_append_right _ (List.mem_singleton.2 rfl), ?_⟩
      rintro ⟨hall, -⟩
      have hlt : gone.length < sealed.length := by
        rw [hfront, List.length_append, List.length_cons]
        omega
      rw [hall _ hlt] at hunlink
      cases hunlink

/-- An append whose record is written whole and that fails behind that. -/
theorem Housed.settle_failed_iff (h : Housed config d s older sealed active) (hcolony : config.colony_hash.length = 16) {record : Record}
    (hr : record.Fits) (hseq : s.next_seq record.issuer + 1 < 18446744073709551616)
    (hroom : s.next_ordinal + 1 < 18446744073709551616) {now_ms : Int} {faults : Faults} {d' : Disk} {s' : DiskSpool} {e : SpoolError}
    (hfails : Bridge.settle config (d.write s.active (encode_record (numbered s record))) (Bridge.after_write s record) now_ms faults =
      (d', s', .error e)) :
    FailsCleanly config d s d' s' ↔ faults.synced = true ∧ faults.created = .Whole ∧ faults.stored = true ∧
      (∀ k < s.sealed.length, faults.unlinked k = true) ∧ Sweeps config d s (encode_record record).length ∧
      s.uncommitted (records_at d (s.sealed ++ [s.active])) = [] := by
  have hw := h.after_write hr hseq
  have hmem : numbered s record ∈ active.records ++ [numbered s record] := List.mem_append_right _ (List.mem_singleton.2 rfl)
  have hahead : ∀ c, s.cursor.committed (numbered s record).issuer = some c → c < (numbered s record).seq := fun c hc => h.behind _ c hc
  have hnot {P : Prop} (hshows : Shows d' s' (numbered s record)) (hP : ¬ P) : FailsCleanly config d s d' s' ↔ P :=
    iff_of_false (h.stays hcolony record hshows) hP
  rw [Bridge.settle] at hfails
  split at hfails
  · next hfull =>
    cases hsynced : faults.synced with
    | false =>
      rw [Bridge.roll, hsynced] at hfails
      simp only [Bool.false_eq_true, if_false] at hfails
      obtain ⟨rfl, hrest⟩ := Prod.mk.inj hfails
      obtain ⟨rfl, -⟩ := Prod.mk.inj hrest
      refine hnot (hw.shows hcolony (mem_on_shelves (List.mem_append_right _ (List.mem_singleton.2 rfl)) hmem) hahead) ?_
      rintro ⟨hs, -⟩
      cases hs
    | true =>
      by_cases hcreated : faults.created = .Whole
      · obtain ⟨d₁, s₁, hroll, hrolled, hcursor, hbytes, -, hfile⟩ := hw.roll hroom now_ms hsynced hcreated
        rw [hroll] at hfails
        have hlisted : numbered s record ∈ on_shelves (sealed ++ [{ active with records := active.records ++ [numbered s record] }] ++
            [⟨(Bridge.after_write s record).next_ordinal, now_ms, []⟩]) :=
          mem_on_shelves (List.mem_append_left _ (List.mem_append_right _ (List.mem_singleton.2 rfl))) hmem
        cases hstored : faults.stored with
        | false =>
          simp only [hstored, Bool.false_eq_true, if_false] at hfails
          obtain ⟨rfl, hrest⟩ := Prod.mk.inj hfails
          obtain ⟨rfl, -⟩ := Prod.mk.inj hrest
          refine hnot (hrolled.shows hcolony hlisted (fun c hc => hahead c (by rw [hcursor] at hc; exact hc))) ?_
          rintro ⟨-, -, hs, -⟩
          cases hs
        | true =>
          simp only [hstored, if_true] at hfails
          split at hfails
          · cases (Prod.mk.inj (Prod.mk.inj hfails).2).2
          · next halarm =>
            have hsame : d₁.cursor.next_seq = s₁.cursor.next_seq := by rw [hfile hstored, hcursor]
            obtain ⟨older', rest, d₂, s₂, result, hrun, hhoused, hcommitted, hends⟩ := hrolled.evict_clears hcolony hsame faults.unlinked
            rw [hcursor] at hcommitted
            -- The eviction fails at an unlink, or its last write of the cursor does.
            have hleft : d' = d₂ ∧ s' = s₂ := by
              rw [evict_to_budget, hrun] at hfails
              cases result with
              | error e' =>
                obtain ⟨rfl, hrest⟩ := Prod.mk.inj hfails
                obtain ⟨rfl, -⟩ := Prod.mk.inj hrest
                exact ⟨rfl, rfl⟩
              | ok u =>
                simp only at hfails
                split at hfails
                · cases (Prod.mk.inj (Prod.mk.inj hfails).2).2
                · obtain ⟨rfl, hrest⟩ := Prod.mk.inj hfails
                  obtain ⟨rfl, -⟩ := Prod.mk.inj hrest
                  exact ⟨rfl, rfl⟩
            obtain ⟨rfl, rfl⟩ := hleft
            have hsweeps : Sweeps config d s (encode_record record).length ↔ config.max_bytes < s₁.bytes - sizes sealed := by
              have hwritten : s₁.bytes = s.bytes + (encode_record record).length + HEADER_BYTES := by
                rw [hbytes, encode_record_length]
                rfl
              rw [Sweeps, h.stored_bytes hcolony, hwritten]
              refine ⟨fun hs => hs.2.2, fun hs => ⟨halarm, ?_, hs⟩⟩
              rw [← numbered_length s record]
              exact hfull
            have hlength : s.sealed.length = sealed.length := by rw [h.sealed_paths, List.length_map]
            rw [hlength, hsweeps]
            rcases hends with ⟨rfl, hall, hover⟩ | ⟨hlast, hkept⟩
            · have hempty : s'.peek d' u64Max = .ok [] := by
                rw [hhoused.peek_all hcolony]
                rfl
              have hbefore := h.peek_all hcolony
              rw [h.records hcolony]
              constructor
              · rintro ⟨⟨before, after, hb, ha, hperm, -⟩, -⟩
                obtain rfl := Except.ok.inj (ha.symm.trans hempty)
                obtain rfl := Except.ok.inj (hb.symm.trans hbefore)
                exact ⟨rfl, hcreated, rfl, hall, hover, hperm.nil_eq.symm⟩
              · rintro ⟨-, -, -, -, -, hnone⟩
                rw [hnone] at hbefore
                exact ⟨⟨_, _, hbefore, hempty, List.Perm.refl _, List.nodup_nil⟩, hhoused.readable hcolony⟩
            · refine hnot (hhoused.shows hcolony (mem_on_shelves (List.mem_append_left _ hlast) hmem)
                (fun c hc => hahead c (by rw [hcommitted] at hc; exact hc))) ?_
              rintro ⟨-, -, -, hall, hover, -⟩
              exact hkept ⟨hall, hover⟩
      · refine hnot ?_ (fun hs => hcreated hs.2.1)
        have hshows := @Housed.roll_refused _ _ _ _ _ _ hw hcolony now_ms faults.created _ hmem hahead
        have hrefused := create_segment_refused config ((d.write s.active (encode_record (numbered s record))).sync
          (Bridge.after_write s record).active) (Bridge.after_write s record).next_ordinal now_ms hcreated
        rw [Bridge.roll, if_pos hsynced] at hfails
        simp only at hfails
        rw [hrefused] at hfails
        obtain ⟨rfl, hrest⟩ := Prod.mk.inj hfails
        obtain ⟨rfl, -⟩ := Prod.mk.inj hrest
        exact hshows
  · cases (Prod.mk.inj (Prod.mk.inj hfails).2).2

/-- An append that fails at a file call keeps what the spool shows, and what it shows later, exactly when the failure is
harmless. -/
theorem Housed.fails_cleanly_iff (h : Housed config d s older sealed active) (hcolony : config.colony_hash.length = 16) {record : Record}
    (hr : record.Fits) (hseq : s.next_seq record.issuer + 1 < 18446744073709551616)
    (hroom : s.next_ordinal + 1 < 18446744073709551616) {now_ms : Int} {faults : Faults}
    (hwritten : ∀ n ∈ faults.written, n < (encode_record record).length) {d' : Disk} {s' : DiskSpool} {e : SpoolError}
    (hfails : append_record config d s record now_ms faults = (d', s', .error e)) :
    FailsCleanly config d s d' s' ↔ Harmless config d s record faults := by
  by_cases hrefuses : refuses config s
  · rw [append_record, if_pos hrefuses] at hfails
    obtain ⟨rfl, hrest⟩ := Prod.mk.inj hfails
    obtain ⟨rfl, -⟩ := Prod.mk.inj hrest
    exact iff_of_true (h.fails_cleanly hcolony) (.inl hrefuses)
  · cases hw : faults.written with
    | none =>
      rw [append_record_written config d now_ms hrefuses hw hseq] at hfails
      split at hfails
      · next d₁ s₁ e₁ heq =>
        obtain ⟨rfl, hrest⟩ := Prod.mk.inj hfails
        obtain ⟨rfl, -⟩ := Prod.mk.inj hrest
        rw [h.settle_failed_iff hcolony hr hseq hroom heq, Harmless, hw]
        refine ⟨fun hall => .inr (.inr ⟨rfl, hall⟩), ?_⟩
        rintro (href | ⟨n, hn, -⟩ | ⟨-, hall⟩)
        · exact absurd href hrefuses
        · cases hn
        · exact hall
      · cases (Prod.mk.inj (Prod.mk.inj hfails).2).2
    | some n =>
      have hfits := numbered_fits hr hseq
      have hn : n < (encode_record (numbered s record)).length := by
        rw [numbered_length]
        exact hwritten n hw
      rw [append_record, if_neg hrefuses, hw] at hfails
      obtain ⟨rfl, hrest⟩ := Prod.mk.inj hfails
      obtain ⟨rfl, -⟩ := Prod.mk.inj hrest
      have htorn := h.peek_torn hcolony hfits hn
      rcases Nat.eq_zero_or_pos n with rfl | hpos
      · refine iff_of_true ?_ (.inr (.inl ⟨0, hw, .inl rfl⟩))
        show FailsCleanly config d s (d.write s.active ((encode_record (numbered s record)).take 0)) s
        rw [List.take_zero, write_nothing]
        exact h.fails_cleanly hcolony
      · constructor
        · intro hclean
          refine .inr (.inl ⟨n, hw, .inr ?_⟩)
          by_contra hkept
          exact h.torn_not_readable hcolony hfits hpos hn hrefuses hseq hroom hkept hclean.readable
        · rintro (href | ⟨n', hn', hzero | hswept⟩ | ⟨hnone, -⟩)
          · exact absurd href hrefuses
          · rw [hw] at hn'
            exact absurd ((Option.some.inj hn').trans hzero) (Nat.ne_of_gt hpos)
          · exact ⟨⟨_, _, h.peek_all hcolony, htorn, List.Perm.refl _, h.nodup⟩, h.torn_readable hcolony _ hswept⟩
          · rw [hw] at hnone
            cases hnone

end

/-- In every healthy history an append that fails keeps what the spool shows, and what it shows later, exactly when the failure
is harmless. -/
theorem failed_append_iff (config : SpoolConfig) (hcolony : config.colony_hash.length = 16) {acts : List Act} {l : Ledger}
    (hrun : Run (Keeps config) {} acts l) {s : DiskSpool} (hspool : l.history.spool = some s) {record : Record} (hr : record.Fits)
    (hseq : s.next_seq record.issuer + 1 < 18446744073709551616) (hroom : s.next_ordinal + 1 < 18446744073709551616)
    {now_ms : Int} {faults : Faults} (hwritten : ∀ n ∈ faults.written, n < (encode_record record).length) {d' : Disk} {s' : DiskSpool}
    {e : SpoolError} (hfails : append_record config l.history.disk s record now_ms faults = (d', s', .error e)) :
    FailsCleanly config l.history.disk s d' s' ↔ Harmless config l.history.disk s record faults := by
  obtain ⟨older, sealed, active, hhoused, -⟩ := (run_orderly hcolony hrun).housed hspool
  exact hhoused.fails_cleanly_iff hcolony hr hseq hroom hwritten hfails

instance (config : SpoolConfig) (d : Disk) (s : DiskSpool) (written : Nat) : Decidable (Sweeps config d s written) :=
  inferInstanceAs (Decidable (_ ∧ _))

namespace Small

/-- Each record fills a segment. -/
def tight : SpoolConfig := ⟨List.replicate 16 0, .Evidence, 60, 10000⟩

/-- The append that has no new segment. -/
def refused (d : Disk) (s : DiskSpool) : Disk × DiskSpool × Except SpoolError Seq :=
  append_record tight d s (record_of 0) 0 { created := .Refused }

/-- A spool that shows nothing, and then a record twice. -/
def Doubles (d : Disk) (s : DiskSpool) : Prop :=
  s.next_seq 0 = 1 ∧ s.next_ordinal = 1 ∧ ¬ Sweeps tight d s RECORD_PREFIX_BYTES ∧ s.peek d u64Max = .ok [] ∧
    (refused d s).2.2 = .error .SpoolIo ∧
    (refused d s).2.1.peek (refused d s).1 u64Max = .ok [⟨1, 0, 0, 0, [7]⟩, ⟨1, 0, 0, 0, [7]⟩]

instance (d : Disk) (s : DiskSpool) : Decidable (Doubles d s) := inferInstanceAs (Decidable (_ ∧ _))

theorem run_tight : ∃ l s, Run (Keeps tight) {} [reopen] l ∧ l.history.spool = some s ∧ Doubles l.history.disk s := by
  have hrun : ([reopen].foldlM (Ledger.act tight) {}).map (fun l => l.history.spool.any (fun s => Doubles l.history.disk s)) =
      some true := by decide +kernel
  obtain ⟨l, hl, hany⟩ := Option.map_eq_some_iff.1 hrun
  cases hs : l.history.spool with
  | none =>
    rw [hs] at hany
    cases hany
  | some s =>
    rw [hs] at hany
    exact ⟨l, s, run_of_ledger hl, hs, of_decide_eq_true hany⟩

/-- The append that stops after five bytes. -/
theorem append_torn (d : Disk) (s : DiskSpool) : append_record tight d s (record_of 0) 0 { written := some 5 } =
    (d.write s.active ((encode_record (numbered s (record_of 0))).take 5), s, .error .SpoolIo) := by
  have hrefuses : ¬ refuses tight s := fun h => by cases h.1
  rw [append_record, if_neg hrefuses]
  rfl

end Small

theorem failed_append_tight : ∃ l s d' s', Run (Keeps Small.tight) {} [Small.reopen] l ∧ l.history.spool = some s ∧
    append_record Small.tight l.history.disk s (Small.record_of 0) 0 { written := some 5 } = (d', s', .error .SpoolIo) ∧
    (FailsCleanly Small.tight l.history.disk s d' s' ↔
      Harmless Small.tight l.history.disk s (Small.record_of 0) { written := some 5 }) := by
  obtain ⟨l, s, hrun, hspool, hnext, hordinal, -⟩ := Small.run_tight
  have hfails := Small.append_torn l.history.disk s
  refine ⟨l, s, _, _, hrun, hspool, hfails, failed_append_iff Small.tight rfl hrun hspool (by decide) ?_ ?_ (fun n hn => ?_) hfails⟩
  · show s.next_seq 0 + 1 < _
    rw [hnext]
    norm_num
  · rw [hordinal]
    norm_num
  · obtain rfl := Option.some.inj hn
    decide

/-- Without a new segment the record of a failed append is shown twice; behind a part of a record some later one is not
shown. -/
theorem failed_append_stores :
    (∃ l s, Run (Keeps Small.tight) {} [Small.reopen] l ∧ l.history.spool = some s ∧
      (Small.refused l.history.disk s).2.2 = .error .SpoolIo ∧
      ¬ FailsCleanly Small.tight l.history.disk s (Small.refused l.history.disk s).1 (Small.refused l.history.disk s).2.1) ∧
    ∃ l s d' s', Run (Keeps Small.tight) {} [Small.reopen] l ∧ l.history.spool = some s ∧
      append_record Small.tight l.history.disk s (Small.record_of 0) 0 { written := some 5 } = (d', s', .error .SpoolIo) ∧
      ¬ FailsCleanly Small.tight l.history.disk s d' s' := by
  obtain ⟨l, s, hrun, hspool, hnext, hordinal, hkept, hbefore, hfails, hafter⟩ := Small.run_tight
  refine ⟨⟨l, s, hrun, hspool, hfails, ?_⟩, l, s, _, _, hrun, hspool, Small.append_torn l.history.disk s, fun hclean => ?_⟩
  · rintro ⟨⟨before, after, hb, ha, hperm, -⟩, -⟩
    obtain rfl := Except.ok.inj (hb.symm.trans hbefore)
    obtain rfl := Except.ok.inj (ha.symm.trans hafter)
    cases hperm.eq_nil
  · obtain ⟨older, sealed, active, hhoused, -⟩ := (run_orderly rfl hrun).housed hspool
    have hseq : s.next_seq 0 + 1 < 18446744073709551616 := by
      rw [hnext]
      norm_num
    have hroom : s.next_ordinal + 1 < 18446744073709551616 := by
      rw [hordinal]
      norm_num
    have hfits : (numbered s (Small.record_of 0)).Fits := @numbered_fits s (Small.record_of 0) (by decide) hseq
    have hrefuses : ¬ refuses Small.tight s := fun h => by cases h.1
    have hlt : 5 < (encode_record (numbered s (Small.record_of 0))).length := by
      rw [numbered_length]
      decide
    exact hhoused.torn_not_readable rfl hfits (by norm_num) hlt hrefuses hseq hroom hkept hclean.readable

end Ambush.Bridge

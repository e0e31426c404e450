import Ambush.Bridge.RecordStream
import Ambush.Bridge.Sequences
/-!
# What a spool directory holds

A directory in order is a row of shelves: each segment file is the header of its shelf and
the records on it, the ordinals go up, and so do the numbers of each issuer. An open spool
agrees with its directory when it lists the shelves it has not evicted, the last one being
the one it appends to, and counts on from what is on disk. Opens, appends and evictions
keep that, and `peek` returns what is on the listed shelves and not committed.
-/
open Lib Lib.Frames

namespace Ambush.Bridge

/-! ## Peek -/

namespace DiskSpool

def is_committed (s : DiskSpool) (record : Record) : Bool :=
  (s.cursor.committed record.issuer).any (fun committed => record.seq ≤ committed)

/-- The records of one segment in `peek`'s loops: what there is so far, its size, and whether the next one is too much. -/
def peek_segment (s : DiskSpool) (max_bytes : Nat) : List Record → Nat → List Record → List Record × Nat × Bool
  | out, budget, [] => (out, budget, false)
  | out, budget, record :: records =>
    if s.is_committed record then s.peek_segment max_bytes out budget records
    else if out ≠ [] ∧ max_bytes < satAdd budget record.payload.length then (out, budget, true)
    else s.peek_segment max_bytes (out ++ [record]) (satAdd budget record.payload.length) records

def peek_paths (d : Disk) (s : DiskSpool) (max_bytes : Nat) : List Record → Nat → List Nat → Except SpoolError (List Record)
  | out, _, [] => .ok out
  | out, budget, path :: paths =>
    match d.segment path with
    | none => .error .SpoolIo
    | some f =>
      match s.peek_segment max_bytes out budget (read_records_from f.bytes HEADER_BYTES) with
      | (out, _, true) => .ok out
      | (out, budget, false) => s.peek_paths d max_bytes out budget paths

def peek (d : Disk) (s : DiskSpool) (max_bytes : Nat) : Except SpoolError (List Record) :=
  s.peek_paths d max_bytes [] 0 (s.sealed ++ [s.active])

end DiskSpool

/-- As many records as fit, the first one whether it fits or not. -/
def fitting (max_bytes : Nat) : Bool → Nat → List Record → List Record
  | _, _, [] => []
  | any, budget, record :: records =>
    if any ∧ max_bytes < satAdd budget record.payload.length then []
    else record :: fitting max_bytes true (satAdd budget record.payload.length) records

/-- The records on these segments, oldest first; a segment that is not there has none. -/
def records_at (d : Disk) (paths : List Nat) : List Record :=
  paths.flatMap (fun path => ((d.segment path).map (fun f => read_records_from f.bytes HEADER_BYTES)).getD [])

/-- What a segment takes on disk. -/
def file_size (d : Disk) (path : Nat) : Nat := ((d.segment path).map (·.bytes.length)).getD 0

def DiskSpool.uncommitted (s : DiskSpool) (records : List Record) : List Record :=
  records.filter (fun record => !s.is_committed record)

theorem peek_segment_spec (s : DiskSpool) (max_bytes : Nat) (out : List Record) (budget : Nat) (records more : List Record) :
    ∃ taken budget' full, s.peek_segment max_bytes out budget records = (out ++ taken, budget', full) ∧
      fitting max_bytes (out ≠ []) budget (s.uncommitted (records ++ more)) = (if full then taken else
        taken ++ fitting max_bytes (out ++ taken ≠ []) budget' (s.uncommitted more)) := by
  induction records generalizing out budget with
  | nil => exact ⟨[], budget, false, by rw [DiskSpool.peek_segment, List.append_nil], by simp⟩
  | cons record records ih =>
    rw [DiskSpool.peek_segment]
    by_cases hc : s.is_committed record = true
    · rw [if_pos hc]
      have hskip : s.uncommitted (record :: records ++ more) = s.uncommitted (records ++ more) := by
        rw [DiskSpool.uncommitted, List.cons_append, List.filter_cons, hc]
        rfl
      rw [hskip]
      exact ih out budget
    · rw [if_neg hc]
      have htake : s.uncommitted (record :: records ++ more) = record :: s.uncommitted (records ++ more) := by
        rw [DiskSpool.uncommitted, List.cons_append, List.filter_cons, Bool.eq_false_iff.2 hc]
        rfl
      rw [htake, fitting]
      by_cases hfull : out ≠ [] ∧ max_bytes < satAdd budget record.payload.length
      · rw [if_pos hfull]
        refine ⟨[], budget, true, by rw [List.append_nil], ?_⟩
        rw [if_pos (by simpa using hfull)]
        rfl
      · rw [if_neg hfull, if_neg (by simpa using hfull)]
        obtain ⟨taken, budget', full, hrun, hfit⟩ := ih (out ++ [record]) (satAdd budget record.payload.length)
        refine ⟨record :: taken, budget', full, ?_, ?_⟩
        · rw [hrun, List.append_assoc, List.cons_append, List.nil_append]
        · have hany : decide (out ++ [record] ≠ []) = true := by simp
          rw [hany, List.append_assoc] at hfit
          rw [hfit]
          cases full <;> simp

/-- `peek` returns the uncommitted records of the listed segments, as many as fit. -/
theorem peek_spec {d : Disk} {s : DiskSpool} (hfiles : ∀ path ∈ s.sealed ++ [s.active], (d.segment path).isSome)
    (max_bytes : Nat) :
    s.peek d max_bytes = .ok (fitting max_bytes false 0 (s.uncommitted (records_at d (s.sealed ++ [s.active])))) := by
  have hloop : ∀ paths, (∀ path ∈ paths, (d.segment path).isSome) → ∀ out budget,
      s.peek_paths d max_bytes out budget paths =
        .ok (out ++ fitting max_bytes (out ≠ []) budget (s.uncommitted (records_at d paths))) := by
    intro paths
    induction paths with
    | nil =>
      intro _ out budget
      rw [DiskSpool.peek_paths]
      simp [records_at, DiskSpool.uncommitted, fitting]
    | cons path paths ih =>
      intro hthere out budget
      obtain ⟨f, hf⟩ := Option.isSome_iff_exists.1 (hthere path List.mem_cons_self)
      have hcons : records_at d (path :: paths) = read_records_from f.bytes HEADER_BYTES ++ records_at d paths := by
        rw [records_at, List.flatMap_cons, hf]
        rfl
      obtain ⟨taken, budget', full, hrun, hfit⟩ :=
        peek_segment_spec s max_bytes out budget (read_records_from f.bytes HEADER_BYTES) (records_at d paths)
      rw [DiskSpool.peek_paths, hf, hcons, hfit]
      simp only [hrun]
      cases full with
      | true => rfl
      | false =>
        simp only
        rw [ih (fun p hp => hthere p (List.mem_cons_of_mem _ hp)), List.append_assoc]
        rfl
  exact hloop _ hfiles [] 0

/-- The largest budget there is holds everything. -/
theorem fitting_all (any : Bool) (budget : Nat) (records : List Record) : fitting u64Max any budget records = records := by
  induction records generalizing any budget with
  | nil => rfl
  | cons record records ih =>
    have hle : satAdd budget record.payload.length ≤ u64Max := Nat.min_le_right _ _
    rw [fitting, if_neg (fun h => Nat.not_lt.2 hle h.2), ih]

/-! ## Shelves -/

/-- A segment in order: the name of its file, the time in its header, and its records. -/
structure Shelf where
  ordinal : Nat
  made_at_ms : Int
  records : List Record

namespace Shelf

def header (config : SpoolConfig) (sh : Shelf) : SegmentHeader :=
  ⟨FORMAT_VERSION, config.stream.disk_code, sh.ordinal, sh.made_at_ms, config.colony_hash⟩

def bytes (config : SpoolConfig) (sh : Shelf) : Bytes := (sh.header config).encode ++ stream encode_record sh.records

def size (sh : Shelf) : Nat := HEADER_BYTES + (stream encode_record sh.records).length

/-- The file of a shelf. -/
structure Filed (config : SpoolConfig) (f : SegmentFile) (sh : Shelf) : Prop where
  ordinal : f.ordinal = sh.ordinal
  bytes : f.bytes = sh.bytes config

end Shelf

def on_shelves (shelves : List Shelf) : List Record := shelves.flatMap (·.records)

@[simp] theorem on_shelves_append (shelves more : List Shelf) :
    on_shelves (shelves ++ more) = on_shelves shelves ++ on_shelves more := List.flatMap_append

@[simp] theorem on_shelves_single (sh : Shelf) : on_shelves [sh] = sh.records := by
  rw [on_shelves, List.flatMap_cons, List.flatMap_nil, List.append_nil]

theorem on_shelves_sublist {shelves more : List Shelf} (h : shelves.Sublist more) :
    (on_shelves shelves).Sublist (on_shelves more) := by
  induction h with
  | slnil => exact .slnil
  | cons sh _ ih => exact ih.trans (List.sublist_append_right _ _)
  | cons_cons sh _ ih => exact List.Sublist.append (List.Sublist.refl _) ih

/-- Numbers of one issuer go up. -/
def Ascending (records : List Record) : Prop := records.Pairwise (fun a b => a.issuer = b.issuer → a.seq < b.seq)

/-- The segments of a directory in order. -/
structure Stocked (config : SpoolConfig) (segments : List SegmentFile) (shelves : List Shelf) : Prop where
  files : List.Forall₂ (Shelf.Filed config) segments shelves
  sorted : shelves.Pairwise (fun a b => a.ordinal < b.ordinal)
  ordinals : ∀ sh ∈ shelves, sh.ordinal + 1 < 18446744073709551616
  fits : ∀ r ∈ on_shelves shelves, r.Fits ∧ r.seq + 1 < 18446744073709551616
  ascending : Ascending (on_shelves shelves)

/-- The next number of an issuer: the cursor file's, or the one after its last record when that is higher. -/
def resumed (next_seq : Map IssuerIdx Seq) (records : List Record) (issuer : IssuerIdx) : Seq :=
  (records.filter (fun r => r.issuer = issuer)).foldl (fun next r => max next (r.seq + 1)) (next_in next_seq issuer)

theorem foldl_max_le_iff (records : List Record) (first bound : Nat) :
    records.foldl (fun next r => max next (r.seq + 1)) first ≤ bound ↔ first ≤ bound ∧ ∀ r ∈ records, r.seq + 1 ≤ bound := by
  induction records generalizing first with
  | nil => simp
  | cons r records ih =>
    rw [List.foldl_cons, ih, Nat.max_le, List.forall_mem_cons, and_assoc]

theorem resumed_le_iff (next_seq : Map IssuerIdx Seq) (records : List Record) (issuer : IssuerIdx) (bound : Nat) :
    resumed next_seq records issuer ≤ bound ↔
      next_in next_seq issuer ≤ bound ∧ ∀ r ∈ records, r.issuer = issuer → r.seq + 1 ≤ bound := by
  rw [resumed, foldl_max_le_iff]
  simp only [List.mem_filter, decide_eq_true_eq, and_imp]

theorem next_in_le_resumed (next_seq : Map IssuerIdx Seq) (records : List Record) (issuer : IssuerIdx) :
    next_in next_seq issuer ≤ resumed next_seq records issuer := ((resumed_le_iff _ _ _ _).1 (le_refl _)).1

theorem lt_resumed {next_seq : Map IssuerIdx Seq} {records : List Record} {r : Record} (hr : r ∈ records) :
    r.seq < resumed next_seq records r.issuer := ((resumed_le_iff _ _ _ _).1 (le_refl _)).2 r hr rfl

/-- A number that no record is behind. -/
theorem resumed_eq {next_seq : Map IssuerIdx Seq} {records : List Record} {issuer : IssuerIdx}
    (h : ∀ r ∈ records, r.issuer = issuer → r.seq + 1 ≤ next_in next_seq issuer) :
    resumed next_seq records issuer = next_in next_seq issuer :=
  Nat.le_antisymm ((resumed_le_iff _ _ _ _).2 ⟨le_refl _, h⟩) (next_in_le_resumed _ _ _)

/-! ## Files of shelves -/

section
variable {config : SpoolConfig} {segments : List SegmentFile} {shelves : List Shelf}

theorem Shelf.bytes_length (hcolony : config.colony_hash.length = 16) (sh : Shelf) : (sh.bytes config).length = sh.size := by
  rw [Shelf.bytes, List.length_append, encode_header_length hcolony, Shelf.size]

/-- The records of a shelf are read of its file. -/
theorem Shelf.read (hcolony : config.colony_hash.length = 16) {sh : Shelf} (hr : ∀ r ∈ sh.records, r.Fits) :
    read_records_from (sh.bytes config) HEADER_BYTES = sh.records ∧ unread (sh.bytes config) HEADER_BYTES = [] := by
  refine segment_reads ?_
  have hreads := reads_stream hr decode_record_nil
  rw [List.append_nil] at hreads
  rw [Shelf.bytes, List.drop_left' (encode_header_length hcolony)]
  exact hreads

theorem Shelf.scan (hcolony : config.colony_hash.length = 16) {sh : Shelf} (ho : sh.ordinal < 18446744073709551616)
    (hr : ∀ r ∈ sh.records, r.Fits) (path : Nat) :
    scan (sh.bytes config) config.colony_hash path =
      .ok ⟨(sh.header config).stored, .Clean sh.size, SeqRanges.noted .empty sh.records⟩ := by
  have hcut := @scan_cut (sh.header config) rfl ho hcolony sh.records hr (stream encode_record sh.records).length path
  rw [List.take_length, whole_length, cut_verdict, rest_length, boundary, whole_length] at hcut
  exact hcut

theorem mem_on_shelves {sh : Shelf} {r : Record} (hsh : sh ∈ shelves) (hr : r ∈ sh.records) : r ∈ on_shelves shelves :=
  List.mem_flatMap.2 ⟨sh, hsh, hr⟩

theorem Stocked.shelf_fits (h : Stocked config segments shelves) {sh : Shelf} (hsh : sh ∈ shelves) :
    ∀ r ∈ sh.records, r.Fits := fun r hr => (h.fits r (mem_on_shelves hsh hr)).1

/-- Each shelf has its file. -/
theorem Stocked.file (h : Stocked config segments shelves) {sh : Shelf} (hsh : sh ∈ shelves) :
    ∃ f ∈ segments, Shelf.Filed config f sh ∧ segments.find? (fun f => f.ordinal = sh.ordinal) = some f := by
  obtain ⟨hfiles, hsorted, -, -, -⟩ := h
  induction hfiles with
  | nil => cases hsh
  | @cons f sh' segments shelves hf hrest ih =>
    rcases List.mem_cons.1 hsh with rfl | hsh
    · exact ⟨f, List.mem_cons_self, hf, by rw [List.find?_cons_of_pos (by simpa using hf.ordinal)]⟩
    · obtain ⟨g, hg, hfiled, hfind⟩ := ih hsh (List.pairwise_cons.1 hsorted).2
      have hne : ¬ f.ordinal = sh.ordinal := by
        rw [hf.ordinal]
        exact Nat.ne_of_lt ((List.pairwise_cons.1 hsorted).1 sh hsh)
      exact ⟨g, List.mem_cons_of_mem _ hg, hfiled, by rw [List.find?_cons_of_neg (by simpa using hne), hfind]⟩

/-- Each file is that of a shelf. -/
theorem Stocked.shelf (h : Stocked config segments shelves) {f : SegmentFile} (hf : f ∈ segments) :
    ∃ sh ∈ shelves, Shelf.Filed config f sh := by
  obtain ⟨hfiles, -, -, -, -⟩ := h
  induction hfiles with
  | nil => cases hf
  | cons hfiled _ ih =>
    rcases List.mem_cons.1 hf with rfl | hf
    · exact ⟨_, List.mem_cons_self, hfiled⟩
    · obtain ⟨sh, hsh, hfiled⟩ := ih hf
      exact ⟨sh, List.mem_cons_of_mem _ hsh, hfiled⟩

/-- The segments that are there. -/
theorem Stocked.segment_iff {d : Disk} (h : Stocked config d.segments shelves) {path : Nat} :
    (d.segment path).isSome ↔ ∃ sh ∈ shelves, sh.ordinal = path := by
  constructor
  · intro hthere
    obtain ⟨f, hf⟩ := Option.isSome_iff_exists.1 hthere
    obtain ⟨sh, hsh, hfiled⟩ := h.shelf (List.mem_of_find?_eq_some hf)
    have hpath : f.ordinal = path := by simpa using List.find?_some hf
    exact ⟨sh, hsh, hfiled.ordinal.symm.trans hpath⟩
  · rintro ⟨sh, hsh, rfl⟩
    obtain ⟨f, -, -, hfind⟩ := h.file hsh
    exact Option.isSome_iff_exists.2 ⟨f, hfind⟩

theorem Stocked.file_size {d : Disk} (h : Stocked config d.segments shelves) (hcolony : config.colony_hash.length = 16) {sh : Shelf}
    (hsh : sh ∈ shelves) : file_size d sh.ordinal = sh.size := by
  obtain ⟨f, -, hfiled, hfind⟩ := h.file hsh
  have hthere : d.segment sh.ordinal = some f := hfind
  rw [Bridge.file_size, hthere, Option.map_some, Option.getD_some, hfiled.bytes, Shelf.bytes_length hcolony]

/-- What is read of listed shelves. -/
theorem Stocked.records_at {d : Disk} (h : Stocked config d.segments shelves) (hcolony : config.colony_hash.length = 16)
    {listed : List Shelf} (hsub : ∀ sh ∈ listed, sh ∈ shelves) :
    records_at d (listed.map (·.ordinal)) = on_shelves listed := by
  induction listed with
  | nil => rfl
  | cons sh listed ih =>
    obtain ⟨f, -, hfiled, hfind⟩ := h.file (hsub sh List.mem_cons_self)
    have hread := Shelf.read hcolony (h.shelf_fits (hsub sh List.mem_cons_self))
    have hthere : d.segment sh.ordinal = some f := hfind
    rw [List.map_cons, Bridge.records_at, List.flatMap_cons, hthere, Option.map_some, Option.getD_some, hfiled.bytes, hread.1,
      on_shelves, List.flatMap_cons]
    rw [Bridge.records_at, on_shelves] at ih
    rw [ih (fun sh' hsh' => hsub sh' (List.mem_cons_of_mem _ hsh'))]

/-- The files in front of the last one. -/
theorem Stocked.split {segments : List SegmentFile} {older : List Shelf} {active : Shelf}
    (h : Stocked config segments (older ++ [active])) :
    ∃ files f, segments = files ++ [f] ∧ Stocked config files older ∧ Shelf.Filed config f active := by
  obtain ⟨hfiles, hsorted, hordinals, hfits, hascending⟩ := h
  rcases List.eq_nil_or_concat segments with rfl | ⟨files, f, rfl⟩
  · have hlen := hfiles.length_eq
    rw [List.length_append] at hlen
    exact absurd hlen.symm (Nat.succ_ne_zero _)
  · rw [List.concat_eq_append] at hfiles ⊢
    have hlen : files.length = older.length := by
      have hlen := hfiles.length_eq
      rw [List.length_append, List.length_append] at hlen
      exact Nat.add_right_cancel hlen
    have hfront := List.forall₂_take_append _ _ _ hfiles
    have hback := List.forall₂_drop_append _ _ _ hfiles
    rw [← hlen, List.take_left' rfl] at hfront
    rw [← hlen, List.drop_left' rfl] at hback
    have hsub : (on_shelves older).Sublist (on_shelves (older ++ [active])) := on_shelves_sublist (List.sublist_append_left _ _)
    refine ⟨files, f, rfl, ⟨hfront, (List.pairwise_append.1 hsorted).1, fun sh hsh => hordinals sh (List.mem_append_left _ hsh),
      fun r hr => hfits r (hsub.subset hr), hascending.sublist hsub⟩, (List.forall₂_cons.1 hback).1⟩

/-- An update of the last segment leaves the others. -/
theorem update_last {d : Disk} {older : List Shelf} {files : List SegmentFile} {f : SegmentFile} (hfiles : Stocked config files older) {ordinal : Nat}
    (hf : f.ordinal = ordinal) (holder : ∀ sh ∈ older, sh.ordinal < ordinal) (hd : d.segments = files ++ [f])
    (change : SegmentFile → SegmentFile) : (d.update ordinal change).segments = files ++ [change f] := by
  rw [Disk.update, hd, List.map_append, List.map_singleton, if_pos hf]
  refine congrArg (· ++ _) ((List.map_congr_left (fun g hg => ?_)).trans (List.map_id files))
  obtain ⟨sh, hsh, hfiled⟩ := hfiles.shelf hg
  rw [hfiled.ordinal, if_neg (Nat.ne_of_lt (holder sh hsh)), id]

end

end Ambush.Bridge

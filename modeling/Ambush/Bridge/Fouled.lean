import Ambush.Bridge.Histories
import Ambush.Bridge.TornWrites
/-!
# A spool whose last segment file holds anything

What appends make of a spool that has written part of a record: they go on behind it, and
nothing of the segment is read any more. Only an eviction of everything up to that segment
puts the spool in order again.
-/
open Lib Lib.Frames

namespace Ambush.Bridge

/-! ## Records that no file shows -/

theorem peek_segment_mem {s : DiskSpool} {max_bytes : Nat} {r : Record} {records out : List Record} {budget : Nat}
    (h : r ∈ (s.peek_segment max_bytes out budget records).1) : r ∈ out ∨ r ∈ records := by
  induction records generalizing out budget with
  | nil => exact .inl h
  | cons record records ih =>
    rw [DiskSpool.peek_segment] at h
    split at h
    · exact (ih h).imp_right (List.mem_cons_of_mem _)
    · split at h
      · exact .inl h
      · rcases ih h with hout | hrest
        · rcases List.mem_append.1 hout with hout | hone
          · exact .inl hout
          · exact .inr (List.mem_singleton.1 hone ▸ List.mem_cons_self)
        · exact .inr (List.mem_cons_of_mem _ hrest)

theorem peek_paths_mem {d : Disk} {s : DiskSpool} {max_bytes : Nat} {r : Record} {paths : List Nat} {out records : List Record}
    {budget : Nat} (h : s.peek_paths d max_bytes out budget paths = .ok records) (hr : r ∈ records) :
    r ∈ out ∨ ∃ f ∈ d.segments, r ∈ read_records_from f.bytes HEADER_BYTES := by
  induction paths generalizing out budget with
  | nil =>
    obtain rfl := Except.ok.inj h
    exact .inl hr
  | cons path paths ih =>
    rw [DiskSpool.peek_paths] at h
    cases hf : d.segment path with
    | none =>
      rw [hf] at h
      cases h
    | some f =>
      rw [hf] at h
      simp only at h
      have hmem : f ∈ d.segments := List.mem_of_find?_eq_some hf
      have hseg {out' : List Record} {budget' : Nat} {full : Bool}
          (heq : s.peek_segment max_bytes out budget (read_records_from f.bytes HEADER_BYTES) = (out', budget', full))
          (hout : r ∈ out') : r ∈ out ∨ ∃ f ∈ d.segments, r ∈ read_records_from f.bytes HEADER_BYTES := by
        have hout' : r ∈ (s.peek_segment max_bytes out budget (read_records_from f.bytes HEADER_BYTES)).1 := by
          rw [heq]
          exact hout
        exact (peek_segment_mem hout').imp_right (fun hread => ⟨f, hmem, hread⟩)
      split at h
      · next out' _ heq =>
        obtain rfl := Except.ok.inj h
        exact hseg heq hr
      · next out' budget' heq =>
        rcases ih h with hout | hfound
        · exact hseg heq hout
        · exact .inr hfound

/-- No segment file shows the record. -/
def Hidden (d : Disk) (r : Record) : Prop := ∀ f ∈ d.segments, r ∉ read_records_from f.bytes HEADER_BYTES

section
variable {config : SpoolConfig} {d : Disk} {s : DiskSpool} {r : Record}

theorem Hidden.not_shows (h : Hidden d r) (s : DiskSpool) : ¬ Shows d s r := by
  rintro ⟨records, hpeek, hr⟩
  rcases peek_paths_mem hpeek hr with hnil | ⟨f, hf, hread⟩
  · cases hnil
  · exact h f hf hread

theorem Hidden.sync (h : Hidden d r) (ordinal : Nat) : Hidden (d.sync ordinal) r := by
  intro f hf
  obtain ⟨g, hg, rfl⟩ := List.mem_map.1 hf
  split
  · exact h g hg
  · exact h g hg

theorem read_header_file (hcolony : config.colony_hash.length = 16) (ordinal : Nat) (now_ms : Int) :
    read_records_from (header_file config ordinal now_ms).bytes HEADER_BYTES = [] := by
  refine (@segment_reads _ [] [] ?_).1
  have hlen : (header_file config ordinal now_ms).bytes.length = HEADER_BYTES := encode_header_length hcolony
  rw [← hlen, List.drop_length]
  exact .stop decode_record_nil

theorem Hidden.create (h : Hidden d r) (hcolony : config.colony_hash.length = 16) (ordinal : Nat) (now_ms : Int) :
    Hidden (create_segment config d ordinal now_ms .Whole).1 r := by
  rw [create_segment]
  split
  · exact h
  · intro f hf
    rcases (List.mem_orderedInsert _).1 hf with rfl | hf
    · intro hread
      have hnone := read_header_file hcolony ordinal now_ms
      rw [header_file] at hnone
      rw [hnone] at hread
      cases hread
    · exact h f hf

theorem Hidden.roll (h : Hidden d r) (hcolony : config.colony_hash.length = 16) (s : DiskSpool) (now_ms : Int) :
    Hidden (roll config d s now_ms {}).1 r := by
  have hcreate := (h.sync s.active).create hcolony s.next_ordinal now_ms
  rw [Bridge.roll]
  simp only [if_true]
  split
  · next heq =>
    rw [heq] at hcreate
    exact hcreate
  · next heq =>
    rw [heq] at hcreate
    exact hcreate

theorem Hidden.evict_loop (h : Hidden d r) (config : SpoolConfig) (unlinked : Nat → Bool) (n : Nat) (sealed : List Nat)
    (s : DiskSpool) : Hidden (evict_loop config unlinked n sealed d s).1 r := by
  induction sealed generalizing n d s with
  | nil => exact h
  | cons path sealed ih =>
    rw [Bridge.evict_loop]
    split
    · simp only
      split
      · exact h
      · split
        · exact h
        · split
          · exact ih (fun f hf => h f (List.mem_filter.1 hf).1) _ _
          · exact h
    · exact h

theorem Hidden.settle (h : Hidden d r) (hcolony : config.colony_hash.length = 16) (s : DiskSpool) (now_ms : Int) :
    Hidden (settle config d s now_ms {}).1 r := by
  rw [Bridge.settle]
  split
  · have hroll := h.roll hcolony s now_ms
    split
    · next heq =>
      rw [heq] at hroll
      exact hroll
    · next d' s' heq =>
      rw [heq] at hroll
      split
      · exact hroll
      · have hloop := hroll.evict_loop config ({} : Faults).unlinked 0 s'.sealed s'
        rw [evict_to_budget]
        split
        · next heq' =>
          rw [heq'] at hloop
          exact hloop
        · next heq' =>
          rw [heq'] at hloop
          exact hloop
  · exact h

/-! ## The spool and its files -/

/-- The listed segments are in order, the last one holds `bytes`, and the spool counts on from the others. -/
structure Fouled (config : SpoolConfig) (d : Disk) (s : DiskSpool) (older sealed : List Shelf) (bytes : Bytes) : Prop where
  files : ∃ files f, d.segments = files ++ [f] ∧ Stocked config files older ∧ f.ordinal = s.active ∧ f.bytes = bytes
  older_lt : ∀ sh ∈ older, sh.ordinal < s.active
  listed : sealed.Sublist older
  sealed_paths : s.sealed = sealed.map (·.ordinal)
  next_ordinal : s.active < s.next_ordinal
  ahead : ∀ r ∈ on_shelves older, r.seq < s.next_seq r.issuer
  bounds : ∀ i, 1 ≤ s.next_seq i ∧ s.next_seq i < 18446744073709551616
  behind : ∀ i c, s.cursor.committed i = some c → c < s.next_seq i

end

section
variable {config : SpoolConfig} {d : Disk} {s : DiskSpool} {older sealed : List Shelf} {active : Shelf} {bytes : Bytes}

theorem segment_of_mem {f : SegmentFile} (h : f ∈ d.segments) : (d.segment f.ordinal).isSome := by
  rw [Disk.segment, List.find?_isSome]
  exact ⟨f, h, by simp⟩

theorem Fouled.write (h : Fouled config d s older sealed bytes) (more : Bytes) :
    Fouled config (d.write s.active more) s older sealed (bytes ++ more) := by
  obtain ⟨files, f, hd, hfiles, hf, rfl⟩ := h.files
  exact { h with files := ⟨files, _, update_last hfiles hf h.older_lt hd _, hfiles, hf, rfl⟩ }

theorem Fouled.after_write (h : Fouled config d s older sealed bytes) {record : Record}
    (hseq : s.next_seq record.issuer + 1 < 18446744073709551616) (more : Bytes) :
    Fouled config (d.write s.active more) (after_write s record) older sealed (bytes ++ more) := by
  have hnext : ∀ i, (Bridge.after_write s record).next_seq i =
      if i = record.issuer then s.next_seq record.issuer + 1 else s.next_seq i := next_in_insert _ _ _
  have hmono : ∀ i, s.next_seq i ≤ (Bridge.after_write s record).next_seq i := by
    intro i
    rw [hnext]
    split
    · next hi =>
      rw [hi]
      exact Nat.le_succ _
    · exact le_refl _
  have hwritten := h.write more
  refine { files := hwritten.files, older_lt := h.older_lt, listed := h.listed, sealed_paths := h.sealed_paths
           next_ordinal := h.next_ordinal, ahead := fun r hr => (h.ahead r hr).trans_le (hmono _),
           bounds := fun i => ⟨(h.bounds i).1.trans (hmono i), ?_⟩, behind := fun i c hc => (h.behind i c hc).trans_le (hmono i) }
  rw [hnext]
  split
  · exact hseq
  · exact (h.bounds i).2

theorem Housed.fouled (h : Housed config d s older sealed active) : Fouled config d s older sealed (active.bytes config) := by
  obtain ⟨files, f, hd, hfiles, hf⟩ := h.stocked.split
  refine { files := ⟨files, f, hd, hfiles, hf.ordinal.trans h.active_path.symm, hf.bytes⟩, older_lt := fun sh hsh => ?_
           listed := h.listed, sealed_paths := h.sealed_paths, next_ordinal := ?_, ahead := fun r hr => ?_
           bounds := fun i => ?_, behind := h.behind }
  · rw [h.active_path]
    exact h.older_lt hsh
  · rw [h.active_path]
    exact h.next_ordinal
  · refine h.lt_next ?_
    rw [on_shelves_append]
    exact List.mem_append_left _ hr
  · rw [h.next_seq]
    exact ⟨(h.positive i).trans (next_in_le_resumed _ _ _), h.counters i⟩

/-! ## Rolling and evicting -/

theorem Fouled.lt_next (h : Fouled config d s older sealed bytes) {f : SegmentFile} (hf : f ∈ d.segments) :
    f.ordinal < s.next_ordinal := by
  obtain ⟨files, g, hd, hfiles, hg, -⟩ := h.files
  rw [hd] at hf
  rcases List.mem_append.1 hf with hf | hf
  · obtain ⟨sh, hsh, hfiled⟩ := hfiles.shelf hf
    rw [hfiled.ordinal]
    exact (h.older_lt sh hsh).trans h.next_ordinal
  · rw [List.mem_singleton.1 hf, hg]
    exact h.next_ordinal

/-- The spool after a roll whose file calls succeed. -/
def rolled (s : DiskSpool) : DiskSpool := { s with
  sealed := s.sealed ++ [s.active]
  active := s.next_ordinal
  end_offset := HEADER_BYTES
  bytes := s.bytes + HEADER_BYTES
  next_ordinal := s.next_ordinal + 1 }

theorem roll_last (config : SpoolConfig) (hlt : ∀ f ∈ d.segments, f.ordinal < s.next_ordinal) (now_ms : Int) :
    roll config d s now_ms {} =
      (⟨(d.sync s.active).segments ++ [header_file config s.next_ordinal now_ms], s.cursor⟩, rolled s, .ok ()) := by
  have hsynced : ∀ f ∈ (d.sync s.active).segments, f.ordinal < s.next_ordinal := by
    intro f hf
    obtain ⟨g, hg, rfl⟩ := List.mem_map.1 hf
    split
    · exact hlt g hg
    · exact hlt g hg
  rw [roll]
  simp only [if_true, create_segment_last config hsynced now_ms]
  rfl

/-- Whether an append that leaves the spool like this evicts every listed segment. -/
def Sweeping (config : SpoolConfig) (s : DiskSpool) (sealed : List Shelf) : Prop :=
  config.stream ≠ .Alarm ∧ config.segment_bytes ≤ s.end_offset ∧ config.max_bytes < s.bytes + HEADER_BYTES - sizes sealed

theorem sizes_of_front {gone kept : List Shelf} : sizes gone ≤ sizes (gone ++ kept) := by
  rw [sizes_append]
  exact Nat.le_add_right _ _

/-- The disk after the roll. -/
theorem Fouled.rolled_segments (h : Fouled config d s older sealed bytes) (now_ms : Int) :
    ∃ files f, Stocked config files older ∧ f.ordinal = s.active ∧ (d.sync s.active).segments ++ [header_file config s.next_ordinal now_ms] =
      files ++ [f] ++ [header_file config s.next_ordinal now_ms] := by
  obtain ⟨files, f, hd, hfiles, hf, -⟩ := h.files
  have hsync : (d.sync s.active).segments = files ++ [{ f with synced := f.bytes.length }] := update_last hfiles hf h.older_lt hd _
  exact ⟨files, { f with synced := f.bytes.length }, hfiles, hf, by rw [hsync]⟩

/-- The loop behind a roll gets to the last segment exactly when all the others are evicted. -/
theorem Fouled.evict_loop (h : Fouled config d s older sealed bytes) (hcolony : config.colony_hash.length = 16)
    {files more : List SegmentFile} (hfiles : Stocked config files older) (d' : Disk) (hd : d'.segments = files ++ more) :
    (¬ config.max_bytes < s.bytes + HEADER_BYTES - sizes sealed ∧ ∃ gone d'' s'', gone.Sublist sealed ∧ Evicted d' (rolled s) gone d'' s'' ∧
        evict_loop config ({} : Faults).unlinked 0 (rolled s).sealed d' (rolled s) = (d'', s'', .ok ())) ∨
      (config.max_bytes < s.bytes + HEADER_BYTES - sizes sealed ∧ ∃ d'' s'', Evicted d' (rolled s) sealed d'' s'' ∧
        evict_loop config ({} : Faults).unlinked 0 (rolled s).sealed d' (rolled s) =
          evict_loop config ({} : Faults).unlinked sealed.length [s.active] d'' s'') := by
  have hmem : ∀ sh ∈ sealed, sh ∈ older := h.listed.subset
  have hthere : ∀ sh ∈ sealed, ∃ f, d'.segment sh.ordinal = some f ∧ f.bytes = sh.bytes config := by
    intro sh hsh
    obtain ⟨f, -, hfiled, hfind⟩ := hfiles.file (hmem sh hsh)
    refine ⟨f, ?_, hfiled.bytes⟩
    rw [Disk.segment, hd, List.find?_append, hfind]
    rfl
  have hfits : ∀ sh ∈ sealed, sh.ordinal < 18446744073709551616 ∧ ∀ r ∈ sh.records, r.Fits := fun sh hsh =>
    ⟨Nat.lt_of_succ_lt (hfiles.ordinals sh (hmem sh hsh)), hfiles.shelf_fits (hmem sh hsh)⟩
  have hpaths : (rolled s).sealed = sealed.map (·.ordinal) ++ [s.active] := by rw [rolled, h.sealed_paths]
  obtain ⟨gone, kept, d'', s'', rfl, hev, -, hend⟩ := evict_loop_ends hcolony ({} : Faults).unlinked 0 hthere hfits
    (hfiles.sorted.sublist h.listed) [s.active] hpaths
  have hbytes : (rolled s).bytes = s.bytes + HEADER_BYTES := rfl
  rw [hpaths]
  rcases hend with ⟨rfl, hsealed, hrun⟩ | ⟨sh, rest, rfl, ⟨hle, hsealed, hrun⟩ | ⟨-, hunlink, -⟩⟩
  · rw [List.append_nil] at hrun ⊢
    by_cases hover : config.max_bytes < s.bytes + HEADER_BYTES - sizes gone
    · refine .inr ⟨hover, d'', s'', hev, ?_⟩
      rw [hrun, Nat.zero_add]
    · refine .inl ⟨hover, gone, d'', s'', List.Sublist.refl _, hev, ?_⟩
      rw [hrun, Bridge.evict_loop, if_neg (by rw [hev.bytes, hbytes]; exact hover)]
  · refine .inl ⟨fun hover => ?_, gone, d'', s'', List.sublist_append_left _ _, hev, hrun⟩
    rw [hbytes] at hle
    have hsizes := @sizes_of_front gone (sh :: rest)
    omega
  · cases hunlink

/-- Unless everything is evicted, the end of an append succeeds, and the segment is still there. -/
theorem Fouled.settle_kept (h : Fouled config d s older sealed bytes) (hcolony : config.colony_hash.length = 16) (now_ms : Int)
    (hkept : ¬ Sweeping config s sealed) :
    ∃ d' s', settle config d s now_ms {} = (d', s', .ok ()) ∧ (d'.segment s.active).isSome := by
  rw [settle]
  split
  · next hfull =>
    obtain ⟨files, f, hfiles, hf, hsegments⟩ := h.rolled_segments now_ms
    have hmem : f ∈ files ++ [f] ++ [header_file config s.next_ordinal now_ms] :=
      List.mem_append_left _ (List.mem_append_right _ (List.mem_singleton.2 rfl))
    rw [roll_last config (fun f hf => h.lt_next hf), hsegments]
    simp only
    split
    · exact ⟨_, _, rfl, hf ▸ segment_of_mem hmem⟩
    · next halarm =>
      rcases h.evict_loop hcolony hfiles ⟨files ++ [f] ++ [header_file config s.next_ordinal now_ms], s.cursor⟩
        (List.append_assoc _ _ _) with ⟨-, gone, d'', s'', hgone, hev, hrun⟩ | ⟨hover, -⟩
      · rw [evict_to_budget, hrun]
        simp only [if_true]
        refine ⟨_, _, rfl, ?_⟩
        rw [← hf]
        refine @segment_of_mem ⟨d''.segments, s''.cursor⟩ f ?_
        show f ∈ d''.segments
        rw [hev.segments]
        refine List.mem_filter.2 ⟨hmem, ?_⟩
        have hout : f.ordinal ∉ gone.map (·.ordinal) := by
          intro hin
          obtain ⟨sh, hsh, heq⟩ := List.mem_map.1 hin
          refine Nat.ne_of_lt (h.older_lt sh (h.listed.subset (hgone.subset hsh))) (heq.trans hf)
        simpa using hout
      · exact absurd ⟨halarm, hfull, hover⟩ hkept
  · next hfull =>
    obtain ⟨files, f, hd, -, hf, -⟩ := h.files
    refine ⟨_, _, rfl, hf ▸ segment_of_mem ?_⟩
    rw [hd]
    exact List.mem_append_right _ (List.mem_singleton.2 rfl)

/-- The eviction of one segment that succeeds. -/
theorem evict_last_ok {unlinked : Nat → Bool} {n path : Nat} {d' : Disk} {s' : DiskSpool} (hover : config.max_bytes < s.bytes)
    (hok : evict_loop config unlinked n [path] d s = (d', s', .ok ())) :
    d' = d.unlink path ∧ ∃ left pending, s' = { s with sealed := [], bytes := left, cursor := { s.cursor with pending } } := by
  rw [Bridge.evict_loop, if_pos hover] at hok
  simp only at hok
  split at hok
  · cases (Prod.mk.inj (Prod.mk.inj hok).2).2
  · split at hok
    · cases (Prod.mk.inj (Prod.mk.inj hok).2).2
    · next report _ =>
      split at hok
      · obtain ⟨rfl, hrest⟩ := Prod.mk.inj hok
        obtain ⟨rfl, -⟩ := Prod.mk.inj hrest
        refine ⟨rfl, ?_⟩
        cases evicted_range report.seq_ranges with
        | none => exact ⟨_, s.cursor.pending, rfl⟩
        | some cause => exact ⟨_, s.cursor.pending ++ [cause], rfl⟩
      · cases (Prod.mk.inj (Prod.mk.inj hok).2).2

theorem evict_to_budget_ok {d' : Disk} {s' : DiskSpool} (hok : evict_to_budget config d s {} = (d', s', .ok ())) :
    ∃ d'', evict_loop config ({} : Faults).unlinked 0 s.sealed d s = (d'', s', .ok ()) ∧ d' = { d'' with cursor := s'.cursor } := by
  rw [evict_to_budget] at hok
  split at hok
  · cases (Prod.mk.inj (Prod.mk.inj hok).2).2
  · next d'' s'' heq =>
    simp only [if_true] at hok
    obtain ⟨rfl, hrest⟩ := Prod.mk.inj hok
    obtain ⟨rfl, -⟩ := Prod.mk.inj hrest
    exact ⟨d'', heq, rfl⟩

/-- When everything is evicted, the end of an append that succeeds puts the spool in order. -/
theorem Fouled.settle_swept (h : Fouled config d s older sealed bytes) (hcolony : config.colony_hash.length = 16)
    (hroom : s.next_ordinal + 1 < 18446744073709551616) (now_ms : Int) (hswept : Sweeping config s sealed) {d' : Disk} {s' : DiskSpool}
    (hok : settle config d s now_ms {} = (d', s', .ok ())) :
    Housed config d' s' (left_of older sealed) [] ⟨s.next_ordinal, now_ms, []⟩ := by
  obtain ⟨halarm, hfull, hover⟩ := hswept
  obtain ⟨files, f, hfiles, hf, hsegments⟩ := h.rolled_segments now_ms
  have hnew : s.next_ordinal ∉ sealed.map (·.ordinal) := by
    intro hin
    obtain ⟨sh, hsh, heq⟩ := List.mem_map.1 hin
    exact Nat.ne_of_lt ((h.older_lt sh (h.listed.subset hsh)).trans h.next_ordinal) heq
  rw [settle, if_pos hfull, roll_last config (fun f hf => h.lt_next hf), hsegments] at hok
  simp only [if_neg halarm] at hok
  obtain ⟨d₁, hloop, rfl⟩ := evict_to_budget_ok hok
  rcases h.evict_loop hcolony hfiles ⟨files ++ [f] ++ [header_file config s.next_ordinal now_ms], s.cursor⟩
    (List.append_assoc _ _ _) with ⟨hunder, -⟩ | ⟨-, d₂, s₂, hev, hrun⟩
  · exact absurd hover hunder
  · have hpast : config.max_bytes < s₂.bytes := by
      rw [hev.bytes]
      exact hover
    rw [hrun] at hloop
    obtain ⟨rfl, left, pending, rfl⟩ := evict_last_ok hpast hloop
    have hsub : (left_of older sealed).Sublist older := List.filter_sublist
    have hrest : Stocked config (files.filter (fun g => g.ordinal ∉ sealed.map (·.ordinal))) (left_of older sealed) := by
      refine ⟨List.rel_filter (R := Shelf.Filed config) (fun g sh hg => ?_) hfiles.files, hfiles.sorted.sublist hsub,
        fun sh hsh => hfiles.ordinals sh (hsub.subset hsh), fun r hr => hfiles.fits r ((on_shelves_sublist hsub).subset hr),
        hfiles.ascending.sublist (on_shelves_sublist hsub)⟩
      simp only [decide_eq_true_eq, hg.ordinal]
    have hleft : (d₂.unlink s.active).segments =
        files.filter (fun g => g.ordinal ∉ sealed.map (·.ordinal)) ++ [header_file config s.next_ordinal now_ms] := by
      have hothers : ∀ g ∈ files, decide (g.ordinal ≠ s.active) = true := by
        intro g hg
        obtain ⟨sh, hsh, hfiled⟩ := hfiles.shelf hg
        rw [decide_eq_true_eq, hfiled.ordinal]
        exact Nat.ne_of_lt (h.older_lt sh hsh)
      have hheader : (header_file config s.next_ordinal now_ms).ordinal = s.next_ordinal := rfl
      rw [Disk.unlink, hev.segments]
      show ((files ++ [f] ++ [header_file config s.next_ordinal now_ms]).filter _).filter _ = _
      rw [List.filter_filter, List.filter_append, List.filter_append,
        List.filter_cons_of_neg (a := f) (by simp [hf]), List.filter_nil, List.append_nil,
        List.filter_cons_of_pos (a := header_file config s.next_ordinal now_ms)
          (by rw [hheader]; simpa using ⟨Nat.ne_of_gt h.next_ordinal, fun sh hsh heq => hnew (List.mem_map.2 ⟨sh, hsh, heq⟩)⟩),
        List.filter_nil]
      refine congrArg (· ++ _) (List.filter_congr (fun g hg => ?_))
      rw [hothers g hg, Bool.true_and]
    have hstocked := (@Stocked.create config ⟨_, s.cursor⟩ _ hrest s.next_ordinal
      (fun sh hsh => (h.older_lt sh (hsub.subset hsh)).trans h.next_ordinal) hroom now_ms).2
    rw [← hleft] at hstocked
    have hnext : s₂.cursor.next_seq = s.cursor.next_seq := hev.next_seq
    have hcommitted : s₂.cursor.committed = s.cursor.committed := hev.committed
    refine housed_stored hstocked rfl (List.nil_sublist _) rfl hev.active hev.end_offset ?_ (fun i => ?_) (fun i => ?_)
      (fun r hr => ?_) (fun i c hc => ?_)
    · show s.next_ordinal < s₂.next_ordinal
      rw [hev.next_ordinal]
      exact Nat.lt_succ_self _
    · show 1 ≤ next_in s₂.cursor.next_seq i
      rw [hnext]
      exact (h.bounds i).1
    · show next_in s₂.cursor.next_seq i < _
      rw [hnext]
      exact (h.bounds i).2
    · show r.seq < next_in s₂.cursor.next_seq r.issuer
      rw [hnext]
      rw [on_shelves_append, on_shelves_single, List.append_nil] at hr
      exact h.ahead r ((on_shelves_sublist hsub).subset hr)
    · have hc' : s₂.cursor.committed i = some c := hc
      show c < next_in s₂.cursor.next_seq i
      rw [hnext]
      rw [hcommitted] at hc'
      exact h.behind i c hc'

end

end Ambush.Bridge

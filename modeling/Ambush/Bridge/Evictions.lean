import Ambush.Bridge.Histories
/-!
# What an eviction reports

An eviction marks one range for each segment it unlinks, from the lowest number in it to
the highest, over all its issuers. Every record that is lost is in the range of its
segment. That a range names nothing else takes more: each of its numbers has to be that of
an issuer, in a segment evicted with it, that is ahead of what the issuer has committed.
-/
open Lib Lib.Frames

namespace Ambush.Bridge

/-- The segments that an eviction unlinks: the oldest ones, while the budget is exceeded and the unlinks succeed. -/
def overdue (config : SpoolConfig) (d : Disk) (unlinked : Nat → Bool) : Nat → Nat → List Nat → List Nat
  | _, _, [] => []
  | n, bytes, path :: paths =>
    if config.max_bytes < bytes ∧ unlinked n = true then
      path :: overdue config d unlinked (n + 1) (bytes - file_size d path) paths
    else []

/-- The ranges that a scan of a segment reports. -/
def ranges_at (d : Disk) (path : Nat) : SeqRanges :=
  ((d.segment path).map (fun f => SeqRanges.noted .empty (read_records_from f.bytes HEADER_BYTES))).getD .empty

/-- The ranges name the uncommitted records that are lost, and nothing else. -/
structure GapsExact (s : DiskSpool) (evicted : List Record) (gaps : List GapCause) : Prop where
  covered : ∀ r ∈ evicted, s.is_committed r = false →
    ∃ from_seq to_seq, .SpoolEvicted from_seq to_seq ∈ gaps ∧ from_seq ≤ r.seq ∧ r.seq ≤ to_seq
  exact : ∀ from_seq to_seq, .SpoolEvicted from_seq to_seq ∈ gaps → ∀ n, from_seq ≤ n → n ≤ to_seq →
    ∃ r ∈ evicted, s.is_committed r = false ∧ r.seq = n

/-- A number of an issuer's range, ahead of what it has committed. -/
def Owed (s : DiskSpool) (ranges : SeqRanges) (n : Seq) : Prop :=
  ∃ i lo hi, ranges i = some (lo, hi) ∧ lo ≤ n ∧ n ≤ hi ∧ ∀ c, s.cursor.committed i = some c → c < n

/-- From the lowest number of each of the segments to its highest, all are owed in one of them. -/
def Solid (d : Disk) (s : DiskSpool) (paths : List Nat) : Prop :=
  ∀ path ∈ paths, ∀ lo hi, evicted_range (ranges_at d path) = some (.SpoolEvicted lo hi) → ∀ n, lo ≤ n → n ≤ hi →
    ∃ path' ∈ paths, Owed s (ranges_at d path') n

/-- The append comes to an eviction. -/
structure Evicts (config : SpoolConfig) (s : DiskSpool) (record : Record) (faults : Faults) : Prop where
  written : faults.written = none
  synced : faults.synced = true
  created : faults.created = .Whole
  stored : faults.stored = true
  full : config.segment_bytes ≤ s.end_offset + (encode_record record).length

/-! ## Ranges -/

/-- The range of a segment with a record goes around it. -/
theorem evicted_range_mem {records : List Record} {r : Record} (hr : r ∈ records) :
    ∃ lo hi, evicted_range (SeqRanges.noted .empty records) = some (.SpoolEvicted lo hi) ∧ lo ≤ r.seq ∧ r.seq ≤ hi := by
  have hranged := noted_ranged records r.issuer
  cases hrange : SeqRanges.noted .empty records r.issuer with
  | none =>
    rw [hrange] at hranged
    exact absurd rfl (hranged r hr)
  | some range =>
    obtain ⟨lo', hi'⟩ := range
    rw [hrange] at hranged
    obtain ⟨hlo, hhi⟩ := hranged.within r hr rfl
    have hentry := mem_entries hrange
    have hlow : lo' ∈ (entries (SeqRanges.noted .empty records)).map (·.2.1) := List.mem_map.2 ⟨_, hentry, rfl⟩
    have hhigh : hi' ∈ (entries (SeqRanges.noted .empty records)).map (·.2.2) := List.mem_map.2 ⟨_, hentry, rfl⟩
    obtain ⟨lo, hmin⟩ := Option.isSome_iff_exists.1 (List.isSome_min?_of_mem hlow)
    obtain ⟨hi, hmax⟩ := Option.isSome_iff_exists.1 (List.isSome_max?_of_mem hhigh)
    refine ⟨lo, hi, by rw [evicted_range, hmin, hmax], ?_, ?_⟩
    · exact ((List.min?_eq_some_iff.1 hmin).2 lo' hlow).trans hlo
    · exact hhi.trans ((List.max?_eq_some_iff.1 hmax).2 hi' hhigh)

theorem not_committed_iff {s : DiskSpool} {r : Record} :
    s.is_committed r = false ↔ ∀ c, s.cursor.committed r.issuer = some c → c < r.seq := by
  rw [DiskSpool.is_committed]
  cases s.cursor.committed r.issuer with
  | none => simp
  | some c => simp

/-- The numbers owed of a dense segment are those of its uncommitted records. -/
theorem owed_iff {s : DiskSpool} {records : List Record} (hdense : Dense records) {n : Seq} :
    Owed s (SeqRanges.noted .empty records) n ↔ ∃ r ∈ records, s.is_committed r = false ∧ r.seq = n := by
  constructor
  · rintro ⟨i, lo, hi, hrange, hlo, hhi, hahead⟩
    obtain ⟨⟨a, ha, hai, rfl⟩, ⟨b, hb, hbi, rfl⟩, -⟩ := noted_range hrange
    obtain ⟨r, hr, hri, rfl⟩ := hdense a ha b hb (hai.trans hbi.symm) n hlo hhi
    refine ⟨r, hr, not_committed_iff.2 (fun c hc => hahead c ?_), rfl⟩
    rw [← hai, ← hri]
    exact hc
  · rintro ⟨r, hr, hahead, rfl⟩
    have hranged := noted_ranged records r.issuer
    cases hrange : SeqRanges.noted .empty records r.issuer with
    | none =>
      rw [hrange] at hranged
      exact absurd rfl (hranged r hr)
    | some range =>
      rw [hrange] at hranged
      obtain ⟨hlo, hhi⟩ := RangeOf.within hranged r hr rfl
      exact ⟨r.issuer, range.1, range.2, hrange, hlo, hhi, not_committed_iff.1 hahead⟩

/-- The losses of shelves name every record on them; they name nothing else exactly when all their numbers are owed. -/
theorem losses_exact_iff (s : DiskSpool) {gone : List Shelf} (hdense : ∀ sh ∈ gone, Dense sh.records) :
    GapsExact s (on_shelves gone) (gone.flatMap (·.losses)) ↔
      ∀ sh ∈ gone, ∀ lo hi, evicted_range (SeqRanges.noted .empty sh.records) = some (.SpoolEvicted lo hi) →
        ∀ n, lo ≤ n → n ≤ hi → ∃ sh' ∈ gone, Owed s (SeqRanges.noted .empty sh'.records) n := by
  constructor
  · intro h sh hsh lo hi hrange n hlo hhi
    have hgap : .SpoolEvicted lo hi ∈ gone.flatMap (·.losses) :=
      List.mem_flatMap.2 ⟨sh, hsh, by rw [Shelf.losses, hrange]; exact List.mem_singleton.2 rfl⟩
    obtain ⟨r, hr, hahead, rfl⟩ := h.exact lo hi hgap n hlo hhi
    obtain ⟨sh', hsh', hr'⟩ := List.mem_flatMap.1 hr
    exact ⟨sh', hsh', (owed_iff (hdense sh' hsh')).2 ⟨r, hr', hahead, rfl⟩⟩
  · intro h
    refine ⟨fun r hr _ => ?_, fun lo hi hgap n hlo hhi => ?_⟩
    · obtain ⟨sh, hsh, hr'⟩ := List.mem_flatMap.1 hr
      obtain ⟨lo, hi, hrange, hlo, hhi⟩ := evicted_range_mem hr'
      exact ⟨lo, hi, List.mem_flatMap.2 ⟨sh, hsh, by rw [Shelf.losses, hrange]; exact List.mem_singleton.2 rfl⟩, hlo, hhi⟩
    · obtain ⟨sh, hsh, hloss⟩ := List.mem_flatMap.1 hgap
      obtain ⟨sh', hsh', howed⟩ := h sh hsh lo hi (Option.mem_toList.1 hloss) n hlo hhi
      obtain ⟨r, hr, hahead, hseq⟩ := (owed_iff (hdense sh' hsh')).1 howed
      exact ⟨r, mem_on_shelves hsh' hr, hahead, hseq⟩

/-! ## The eviction of an append -/

section
variable {config : SpoolConfig} {d : Disk} {s : DiskSpool} {older sealed : List Shelf} {active : Shelf}

/-- What the loop evicts is what is overdue. -/
theorem overdue_shelves (unlinked : Nat → Bool) (n bytes : Nat) {gone kept : List Shelf}
    (hsizes : ∀ sh ∈ gone ++ kept, file_size d sh.ordinal = sh.size)
    (hover : ∀ k < gone.length, unlinked (n + k) = true ∧ config.max_bytes < bytes - sizes (gone.take k))
    (hstop : kept ≠ [] → ¬ (config.max_bytes < bytes - sizes gone ∧ unlinked (n + gone.length) = true)) :
    overdue config d unlinked n bytes ((gone ++ kept).map (·.ordinal)) = gone.map (·.ordinal) := by
  induction gone generalizing n bytes with
  | nil =>
    cases kept with
    | nil => rfl
    | cons sh kept =>
      rw [List.nil_append, List.map_cons, overdue, if_neg]
      · rfl
      · exact hstop (List.cons_ne_nil _ _)
  | cons sh gone ih =>
    obtain ⟨hunlink, hbytes⟩ := hover 0 (Nat.zero_lt_succ _)
    rw [List.cons_append, List.map_cons, overdue, if_pos ⟨hbytes, hunlink⟩, hsizes sh List.mem_cons_self]
    refine congrArg (sh.ordinal :: ·) (ih (n + 1) (bytes - sh.size) (fun sh' hsh' => hsizes sh' (List.mem_cons_of_mem _ hsh')) ?_ ?_)
    · intro k hk
      obtain ⟨hu, hb⟩ := hover (k + 1) (Nat.succ_lt_succ hk)
      rw [List.take_succ_cons, sizes, ← Nat.sub_sub] at hb
      rw [Nat.add_assoc, Nat.add_comm 1]
      exact ⟨hu, hb⟩
    · intro hkept hboth
      refine hstop hkept ?_
      rw [sizes, ← Nat.sub_sub, List.length_cons, Nat.add_comm gone.length, ← Nat.add_assoc]
      exact hboth

theorem Stocked.ranges_at {shelves : List Shelf} (h : Stocked config d.segments shelves) (hcolony : config.colony_hash.length = 16)
    {sh : Shelf} (hsh : sh ∈ shelves) : ranges_at d sh.ordinal = SeqRanges.noted .empty sh.records := by
  obtain ⟨f, -, hfiled, hfind⟩ := h.file hsh
  have hthere : d.segment sh.ordinal = some f := hfind
  rw [Bridge.ranges_at, hthere, Option.map_some, Option.getD_some, hfiled.bytes, (Shelf.read hcolony (h.shelf_fits hsh)).1]

theorem Stocked.solid_iff {shelves gone : List Shelf} (h : Stocked config d.segments shelves) (hcolony : config.colony_hash.length = 16)
    (hsub : ∀ sh ∈ gone, sh ∈ shelves) (s : DiskSpool) : Solid d s (gone.map (·.ordinal)) ↔
      ∀ sh ∈ gone, ∀ lo hi, evicted_range (SeqRanges.noted .empty sh.records) = some (.SpoolEvicted lo hi) →
        ∀ n, lo ≤ n → n ≤ hi → ∃ sh' ∈ gone, Owed s (SeqRanges.noted .empty sh'.records) n := by
  have howed : ∀ n, (∃ path ∈ gone.map (·.ordinal), Owed s (Bridge.ranges_at d path) n) ↔
      ∃ sh ∈ gone, Owed s (SeqRanges.noted .empty sh.records) n := by
    intro n
    constructor
    · rintro ⟨path, hpath, ho⟩
      obtain ⟨sh, hsh, rfl⟩ := List.mem_map.1 hpath
      rw [h.ranges_at hcolony (hsub sh hsh)] at ho
      exact ⟨sh, hsh, ho⟩
    · rintro ⟨sh, hsh, ho⟩
      rw [← h.ranges_at hcolony (hsub sh hsh)] at ho
      exact ⟨sh.ordinal, List.mem_map.2 ⟨sh, hsh, rfl⟩, ho⟩
  constructor
  · intro hsolid sh hsh lo hi hrange n hlo hhi
    rw [← h.ranges_at hcolony (hsub sh hsh)] at hrange
    exact (howed n).1 (hsolid sh.ordinal (List.mem_map.2 ⟨sh, hsh, rfl⟩) lo hi hrange n hlo hhi)
  · intro hall path hpath lo hi hrange n hlo hhi
    obtain ⟨sh, hsh, rfl⟩ := List.mem_map.1 hpath
    rw [h.ranges_at hcolony (hsub sh hsh)] at hrange
    exact (howed n).2 (hall sh hsh lo hi hrange n hlo hhi)

/-- The end of an append that comes to an eviction. -/
theorem settle_evicts {faults : Faults} (now_ms : Int) (hfull : config.segment_bytes ≤ s.end_offset) (halarm : config.stream ≠ .Alarm)
    {d₁ d₂ : Disk} {s₁ s₂ : DiskSpool} {result : Except SpoolError Unit} (hroll : roll config d s now_ms faults = (d₁, s₁, .ok ()))
    (hrun : evict_loop config faults.unlinked 0 s₁.sealed d₁ s₁ = (d₂, s₂, result)) :
    (settle config d s now_ms faults).1.segments = d₂.segments ∧ (settle config d s now_ms faults).2.1 = s₂ := by
  rw [settle, if_pos hfull, hroll]
  simp only [if_neg halarm]
  rw [evict_to_budget, hrun]
  cases result with
  | error e => exact ⟨rfl, rfl⟩
  | ok u =>
    simp only
    split
    · exact ⟨rfl, rfl⟩
    · exact ⟨rfl, rfl⟩

/-- What an append that comes to an eviction unlinks, and what it marks. -/
theorem Housed.append_evicts (h : Housed config d s older sealed active) (hcolony : config.colony_hash.length = 16)
    (hstream : config.stream = .Evidence) {record : Record} (hr : record.Fits)
    (hseq : s.next_seq record.issuer + 1 < 18446744073709551616) (hroom : s.next_ordinal + 1 < 18446744073709551616) (now_ms : Int)
    {faults : Faults} (hevicts : Evicts config s record faults) :
    ∃ gone kept, sealed ++ [{ active with records := active.records ++ [numbered s record] }] = gone ++ kept ∧
      overdue config (d.write s.active (encode_record (numbered s record))) faults.unlinked 0
        (s.bytes + (encode_record record).length + HEADER_BYTES) (s.sealed ++ [s.active]) = gone.map (·.ordinal) ∧
      (append_record config d s record now_ms faults).2.1.cursor.pending = s.cursor.pending ++ gone.flatMap (·.losses) ∧
      ∀ path, (((d.write s.active (encode_record (numbered s record))).segment path).isSome ∧
        (append_record config d s record now_ms faults).1.segment path = none) ↔ path ∈ gone.map (·.ordinal) := by
  have halarm : config.stream ≠ .Alarm := by
    rw [hstream]
    exact Stream.noConfusion
  have hw := h.after_write hr hseq
  have hfull : config.segment_bytes ≤ (Bridge.after_write s record).end_offset := by
    have hlen : (encode_record (numbered s record)).length = (encode_record record).length := by
      rw [encode_record_length, encode_record_length, numbered]
    show _ ≤ s.end_offset + _
    rw [hlen]
    exact hevicts.full
  obtain ⟨d₁, s₁, hroll, hrolled, hcursor, hbytes, -, hfile⟩ := hw.roll hroom now_ms hevicts.synced hevicts.created
  rw [hevicts.stored] at hroll hfile
  simp only [if_true] at hroll
  have hsame : d₁.cursor.next_seq = s₁.cursor.next_seq := by rw [hfile rfl, hcursor]
  obtain ⟨gone, kept, rest, d₂, s₂, result, hrun, hsplit, hev, hend, hover, -, -, -, hhoused⟩ :=
    hrolled.evict_loop hcolony hsame faults.unlinked
  obtain ⟨hsegments, hspool⟩ := settle_evicts now_ms hfull halarm hroll hrun
  have hrefuses : ¬ refuses config s := fun hr => halarm hr.1
  have hresult : (append_record config d s record now_ms faults).1.segments = d₂.segments ∧
      (append_record config d s record now_ms faults).2.1 = s₂ := by
    rw [append_record_written config d now_ms hrefuses hevicts.written hseq]
    split
    · next heq =>
      rw [heq] at hsegments hspool
      exact ⟨hsegments, hspool⟩
    · next heq =>
      rw [heq] at hsegments hspool
      exact ⟨hsegments, hspool⟩
  have hwritten : s₁.bytes = s.bytes + (encode_record record).length + HEADER_BYTES := by
    rw [hbytes, encode_record_length]
    rfl
  refine ⟨gone, kept, hsplit, ?_, ?_, fun path => ?_⟩
  · have hpaths : s.sealed ++ [s.active] = (gone ++ kept).map (·.ordinal) := by
      rw [← hsplit]
      exact hw.paths
    rw [hpaths, ← hwritten]
    refine overdue_shelves faults.unlinked 0 s₁.bytes (fun sh hsh => ?_) (fun k hk => ?_) (fun hkept => ?_)
    · rw [← hsplit] at hsh
      exact hw.stocked.file_size hcolony (hw.on_disk sh hsh)
    · rw [Nat.zero_add]
      exact hover k hk
    · rintro ⟨hbudget, hunlink⟩
      cases hend with
      | within _ hle => exact absurd hbudget (Nat.not_lt.2 (hle hkept))
      | stuck _ _ hfails =>
        rw [hfails] at hunlink
        cases hunlink
  · rw [hresult.2, hev.pending, hcursor]
    rfl
  · have hbefore := @Stocked.segment_iff _ _ _ hw.stocked path
    have hthere : ((append_record config d s record now_ms faults).1.segment path) = d₂.segment path := by
      rw [Disk.segment, Disk.segment, hresult.1]
    have hafter := @Stocked.segment_iff _ _ _ hhoused.stocked path
    rw [hbefore, hthere, ← Option.not_isSome_iff_eq_none, hafter]
    constructor
    · rintro ⟨⟨sh, hsh, rfl⟩, hnone⟩
      by_contra hout
      refine hnone ⟨sh, List.mem_append_left _ (List.mem_filter.2 ⟨hsh, ?_⟩), rfl⟩
      simpa using hout
    · intro hpath
      obtain ⟨sh, hsh, rfl⟩ := List.mem_map.1 hpath
      have hlisted : sh ∈ sealed ++ [{ active with records := active.records ++ [numbered s record] }] := by
        rw [hsplit]
        exact List.mem_append_left _ hsh
      refine ⟨⟨sh, hw.on_disk sh hlisted, rfl⟩, ?_⟩
      rintro ⟨sh', hsh', heq⟩
      rcases List.mem_append.1 hsh' with hleft | hnew
      · have hstays := (List.mem_filter.1 hleft).2
        rw [heq] at hstays
        exact absurd hpath (of_decide_eq_true hstays)
      · rw [List.mem_singleton.1 hnew] at heq
        exact absurd heq (Nat.ne_of_gt (hrolled.older_lt (hw.on_disk sh hlisted)))

end

namespace Small

/-- Two records fill a segment, and the budget has no room for it. -/
def narrow : SpoolConfig := ⟨List.replicate 16 0, .Evidence, 100, 120⟩

/-- A record that is committed. -/
def one_committed : List Act := [reopen, append 0, .Commit 0 1 true]

def last_append (d : Disk) (s : DiskSpool) : Disk × DiskSpool × Except SpoolError Seq :=
  append_record narrow d s (record_of 0) 0 {}

/-- The next append evicts the committed record and its own. -/
def Overstates (d : Disk) (s : DiskSpool) : Prop :=
  s.next_seq 0 = 2 ∧ s.next_ordinal = 1 ∧ 100 ≤ s.end_offset + 27 ∧ s.cursor.pending = [] ∧
    (last_append d s).2.1.cursor.pending = [.SpoolEvicted 1 2] ∧
    overdue narrow (d.write s.active (encode_record (numbered s (record_of 0)))) ({} : Faults).unlinked 0 (s.bytes + 27 + 48)
      (s.sealed ++ [s.active]) = [0] ∧
    (records_at (d.write s.active (encode_record (numbered s (record_of 0)))) [0]).filter (fun r => !s.is_committed r) =
      [⟨2, 0, 0, 0, [7]⟩]

instance (d : Disk) (s : DiskSpool) : Decidable (Overstates d s) := inferInstanceAs (Decidable (_ ∧ _))

theorem run_one_committed : ∃ l s, Run (Keeps narrow) {} one_committed l ∧ l.history.spool = some s ∧ Overstates l.history.disk s := by
  have hrun : (one_committed.foldlM (Ledger.act narrow) {}).map (fun l => l.history.spool.any (fun s => Overstates l.history.disk s)) =
      some true := by decide +kernel
  obtain ⟨l, hl, hany⟩ := Option.map_eq_some_iff.1 hrun
  cases hs : l.history.spool with
  | none =>
    rw [hs] at hany
    cases hany
  | some s =>
    rw [hs] at hany
    exact ⟨l, s, run_of_ledger hl, hs, of_decide_eq_true hany⟩

end Small

end Ambush.Bridge

import Ambush.Bridge.Housed
/-!
# Opening a directory in order

What the recovery makes of shelves, segment by segment: it lists them all and counts on
from the last number of each issuer. An open of a directory in order gives a housed spool,
and one that fails leaves the directory in order.
-/
open Lib Lib.Frames

namespace Ambush.Bridge

/-! ## The ranges of a scan -/

/-- The range of an issuer: its lowest and its highest number. -/
structure RangeOf (records : List Record) (issuer : IssuerIdx) (lo hi : Seq) : Prop where
  low : ∃ r ∈ records, r.issuer = issuer ∧ r.seq = lo
  high : ∃ r ∈ records, r.issuer = issuer ∧ r.seq = hi
  within : ∀ r ∈ records, r.issuer = issuer → lo ≤ r.seq ∧ r.seq ≤ hi

theorem noted_append (records : List Record) (r : Record) :
    SeqRanges.noted .empty (records ++ [r]) = (SeqRanges.noted .empty records).note r.issuer r.seq := by
  rw [SeqRanges.noted, List.foldl_append]
  rfl

theorem note_self (ranges : SeqRanges) (issuer : IssuerIdx) (seq : Seq) : ranges.note issuer seq issuer =
    some (((ranges issuer).map (fun range => (min range.1 seq, max range.2 seq))).getD (seq, seq)) := by
  rw [SeqRanges.note]
  cases ranges issuer with
  | none => exact Map.insert_self _ _ _
  | some range => exact Map.insert_self _ _ _

theorem note_ne (ranges : SeqRanges) {issuer i : IssuerIdx} (h : i ≠ issuer) (seq : Seq) : ranges.note issuer seq i = ranges i := by
  rw [SeqRanges.note]
  cases ranges issuer with
  | none => exact Map.insert_ne _ _ _ _ h
  | some range => exact Map.insert_ne _ _ _ _ h

theorem rangeOf_single (r : Record) : RangeOf [r] r.issuer r.seq r.seq := by
  have hmem : r ∈ [r] := List.mem_singleton.2 rfl
  refine ⟨⟨r, hmem, rfl, rfl⟩, ⟨r, hmem, rfl, rfl⟩, fun r' hr' _ => ?_⟩
  rw [List.mem_singleton.1 hr']
  exact ⟨le_refl _, le_refl _⟩

theorem RangeOf.append {records more : List Record} {i : IssuerIdx} {lo hi lo' hi' : Seq} (h : RangeOf records i lo hi)
    (h' : RangeOf more i lo' hi') : RangeOf (records ++ more) i (min lo lo') (max hi hi') := by
  obtain ⟨⟨a, ha, hai, halo⟩, ⟨b, hb, hbi, hbhi⟩, hwithin⟩ := h
  obtain ⟨⟨a', ha', hai', halo'⟩, ⟨b', hb', hbi', hbhi'⟩, hwithin'⟩ := h'
  refine ⟨?_, ?_, fun r hr hi => ?_⟩
  · rcases Nat.le_total lo lo' with hle | hle
    · exact ⟨a, List.mem_append_left _ ha, hai, by rw [Nat.min_eq_left hle, halo]⟩
    · exact ⟨a', List.mem_append_right _ ha', hai', by rw [Nat.min_eq_right hle, halo']⟩
  · rcases Nat.le_total hi hi' with hle | hle
    · exact ⟨b', List.mem_append_right _ hb', hbi', by rw [Nat.max_eq_right hle, hbhi']⟩
    · exact ⟨b, List.mem_append_left _ hb, hbi, by rw [Nat.max_eq_left hle, hbhi]⟩
  · rcases List.mem_append.1 hr with hr | hr
    · exact ⟨(Nat.min_le_left _ _).trans (hwithin r hr hi).1, (hwithin r hr hi).2.trans (Nat.le_max_left _ _)⟩
    · exact ⟨(Nat.min_le_right _ _).trans (hwithin' r hr hi).1, (hwithin' r hr hi).2.trans (Nat.le_max_right _ _)⟩

/-- The records of other issuers do not matter. -/
theorem RangeOf.of_mem {records more : List Record} {i : IssuerIdx} {lo hi : Seq} (h : RangeOf records i lo hi)
    (hmem : ∀ r, r.issuer = i → (r ∈ more ↔ r ∈ records)) : RangeOf more i lo hi := by
  obtain ⟨⟨a, ha, hai, halo⟩, ⟨b, hb, hbi, hbhi⟩, hwithin⟩ := h
  exact ⟨⟨a, (hmem a hai).2 ha, hai, halo⟩, ⟨b, (hmem b hbi).2 hb, hbi, hbhi⟩, fun r hr hi => hwithin r ((hmem r hi).1 hr) hi⟩

/-- An issuer with records has its range, another has none. -/
def Ranged (records : List Record) (i : IssuerIdx) : Option (Seq × Seq) → Prop
  | none => ∀ r ∈ records, r.issuer ≠ i
  | some (lo, hi) => RangeOf records i lo hi

theorem noted_ranged (records : List Record) (i : IssuerIdx) : Ranged records i (SeqRanges.noted .empty records i) := by
  induction records using List.reverseRecOn with
  | nil => exact fun r hr => by cases hr
  | append_singleton records r ih =>
    rw [noted_append]
    by_cases hi : i = r.issuer
    · subst hi
      rw [note_self]
      have hsingle := rangeOf_single r
      cases hrange : SeqRanges.noted .empty records r.issuer with
      | none =>
        rw [hrange] at ih
        refine hsingle.of_mem (fun r' hr' => ?_)
        rw [List.mem_append]
        exact ⟨fun h => h.resolve_left (fun hmem => ih r' hmem hr'), .inr⟩
      | some range =>
        rw [hrange] at ih
        exact RangeOf.append ih hsingle
    · rw [note_ne _ hi]
      have hother : ∀ r', r'.issuer = i → (r' ∈ records ++ [r] ↔ r' ∈ records) := by
        intro r' hr'
        rw [List.mem_append, List.mem_singleton]
        exact ⟨fun h => h.resolve_right (fun heq => hi (by rw [← hr', heq])), .inl⟩
      cases hrange : SeqRanges.noted .empty records i with
      | none =>
        rw [hrange] at ih
        exact fun r' hr' hi' => ih r' ((hother r' hi').1 hr') hi'
      | some range =>
        rw [hrange] at ih
        exact RangeOf.of_mem ih hother

theorem noted_range {records : List Record} {i : IssuerIdx} {lo hi : Seq} (h : SeqRanges.noted .empty records i = some (lo, hi)) :
    RangeOf records i lo hi := by
  have hranged := noted_ranged records i
  rw [h] at hranged
  exact hranged

theorem mem_entries_iff {α : Type} {m : Map IssuerIdx α} {i : IssuerIdx} {a : α} : (i, a) ∈ entries m ↔ m i = some a := by
  refine ⟨fun h => ?_, mem_entries⟩
  obtain ⟨k, -, hk⟩ := List.mem_filterMap.1 h
  obtain ⟨a', ha', heq⟩ := Option.map_eq_some_iff.1 hk
  obtain ⟨rfl, rfl⟩ := Prod.mk.inj heq
  exact ha'

/-! ## Raising the numbers -/

theorem raise_ranges_ok {ranges : List (IssuerIdx × (Seq × Seq))}
    (h : ∀ range ∈ ranges, range.2.2 + 1 < 18446744073709551616) (m : Map IssuerIdx Seq) :
    ∃ m', raise_ranges m ranges = .ok m' ∧
      ∀ i n, next_in m' i ≤ n ↔ next_in m i ≤ n ∧ ∀ range ∈ ranges, range.1 = i → range.2.2 + 1 ≤ n := by
  induction ranges generalizing m with
  | nil => exact ⟨m, rfl, fun i n => by simp⟩
  | cons range ranges ih =>
    obtain ⟨issuer, lo, hi⟩ := range
    obtain ⟨m', hm', hiff⟩ := ih (fun range hr => h range (List.mem_cons_of_mem _ hr)) (raise m issuer (hi + 1))
    refine ⟨m', ?_, fun i n => ?_⟩
    · rw [raise_ranges, after_of_lt (h _ List.mem_cons_self)]
      exact hm'
    · rw [hiff, next_in_raise, List.forall_mem_cons]
      by_cases hi' : i = issuer
      · subst hi'
        rw [if_pos rfl, Nat.max_le]
        simp only [forall_const, and_assoc]
      · rw [if_neg hi']
        simp only [Ne.symm hi', false_implies, true_and]

/-- The numbers raised by a scan of these records. -/
theorem raise_noted {records : List Record} (h : ∀ r ∈ records, r.seq + 1 < 18446744073709551616) (m : Map IssuerIdx Seq) :
    ∃ m', raise_ranges m (entries (SeqRanges.noted .empty records)) = .ok m' ∧
      ∀ i n, next_in m' i ≤ n ↔ next_in m i ≤ n ∧ ∀ r ∈ records, r.issuer = i → r.seq + 1 ≤ n := by
  obtain ⟨m', hm', hiff⟩ := @raise_ranges_ok (entries (SeqRanges.noted .empty records)) (by
    rintro ⟨i, lo, hi⟩ hmem
    obtain ⟨r, hr, -, rfl⟩ := (noted_range (mem_entries_iff.1 hmem)).high
    exact h r hr) m
  refine ⟨m', hm', fun i n => ?_⟩
  rw [hiff]
  refine and_congr_right (fun _ => ⟨fun hall r hr hi => ?_, ?_⟩)
  · obtain ⟨lo, hi', hrange, hle⟩ := SeqRanges.le_noted hr .empty
    have hbound := hall (r.issuer, lo, hi') (mem_entries hrange) hi
    exact (Nat.succ_le_succ hle).trans hbound
  · rintro hall ⟨i', lo, hi⟩ hmem heq
    obtain ⟨r, hr, hri, rfl⟩ := (noted_range (mem_entries_iff.1 hmem)).high
    exact hall r hr (hri.trans heq)

theorem next_in_honoured_le_iff {recovered next_seq : Map IssuerIdx Seq} {i : IssuerIdx} (h : 1 ≤ next_in recovered i) (n : Seq) :
    next_in (honoured recovered next_seq) i ≤ n ↔ next_in recovered i ≤ n ∧ next_in next_seq i ≤ n := by
  unfold next_in honoured at *
  cases next_seq i with
  | none =>
    simp only [Option.getD_none]
    exact ⟨fun hle => ⟨hle, h.trans hle⟩, fun hle => hle.1⟩
  | some seq =>
    simp only [Option.getD_some]
    exact Nat.max_le

/-! ## Recovering shelves -/

/-- What the recovery of shelves adds to a recovery. -/
structure Recovered (r r' : Recovery) (shelves : List Shelf) : Prop where
  cursor : r'.cursor = r.cursor
  listed : r'.sealed ++ (r'.last_clean.map (·.1)).toList =
    r.sealed ++ (r.last_clean.map (·.1)).toList ++ shelves.map (·.ordinal)
  last : r'.last_clean = (shelves.getLast?.map (fun sh => (sh.ordinal, sh.size))).or r.last_clean
  bytes : r'.bytes = r.bytes + sizes shelves
  next_ordinal : ∀ n, r'.next_ordinal ≤ n ↔ r.next_ordinal ≤ n ∧ ∀ sh ∈ shelves, sh.ordinal + 1 ≤ n
  next_seq : ∀ i n, next_in r'.recovered_next_seq i ≤ n ↔
    next_in r.recovered_next_seq i ≤ n ∧ ∀ record ∈ on_shelves shelves, record.issuer = i → record.seq + 1 ≤ n

theorem recovered_nil (r : Recovery) : Recovered r r [] :=
  ⟨rfl, (List.append_nil _).symm, rfl, rfl, fun n => by simp, fun i n => by simp [on_shelves]⟩

theorem Recovered.append {r r' r'' : Recovery} {shelves more : List Shelf} (h : Recovered r r' shelves)
    (h' : Recovered r' r'' more) : Recovered r r'' (shelves ++ more) where
  cursor := h'.cursor.trans h.cursor
  listed := by rw [h'.listed, h.listed, List.map_append, List.append_assoc]
  last := by
    rw [h'.last, h.last, List.getLast?_append, ← Option.or_assoc]
    cases more.getLast? with
    | none => rfl
    | some sh => rfl
  bytes := by rw [h'.bytes, h.bytes, sizes_append, Nat.add_assoc]
  next_ordinal n := by rw [h'.next_ordinal, h.next_ordinal, List.forall_mem_append, and_assoc]
  next_seq i n := by rw [h'.next_seq, h.next_seq, on_shelves_append, List.forall_mem_append, and_assoc]

section
variable {config : SpoolConfig}

/-- The recovery goes on with the numbers of what a scan reads. -/
theorem scanned_shelf {f : SegmentFile} {sh : Shelf} {verdict : TailVerdict}
    (hscan : scan f.bytes config.colony_hash f.ordinal =
      .ok ⟨(sh.header config).stored, verdict, SeqRanges.noted .empty sh.records⟩)
    (ho : sh.ordinal + 1 < 18446744073709551616) (hr : ∀ r ∈ sh.records, r.seq + 1 < 18446744073709551616)
    (r : Recovery) : ∃ recovered, (∀ i n, next_in recovered i ≤ n ↔ next_in r.recovered_next_seq i ≤ n ∧
        ∀ record ∈ sh.records, record.issuer = i → record.seq + 1 ≤ n) ∧
      r.scanned config f = .ok (⟨(sh.header config).stored, verdict, SeqRanges.noted .empty sh.records⟩,
        { r with next_ordinal := max r.next_ordinal (sh.ordinal + 1), recovered_next_seq := recovered }) := by
  obtain ⟨recovered, hraise, hiff⟩ := raise_noted hr r.recovered_next_seq
  refine ⟨recovered, hiff, ?_⟩
  rw [Recovery.scanned, hscan]
  show (after (sh.header config).stored.ordinal >>= _) = _
  rw [show (sh.header config).stored.ordinal = sh.ordinal from rfl, after_of_lt ho]
  show (raise_ranges r.recovered_next_seq (entries (SeqRanges.noted .empty sh.records)) >>= _) = _
  rw [hraise]
  rfl

theorem recover_shelf (hcolony : config.colony_hash.length = 16) {f : SegmentFile} {sh : Shelf} (hf : Shelf.Filed config f sh)
    (ho : sh.ordinal + 1 < 18446744073709551616) (hr : ∀ r ∈ sh.records, r.Fits ∧ r.seq + 1 < 18446744073709551616)
    (r : Recovery) : ∃ r', recover_segment config r f = (some f, .ok r') ∧ Recovered r r' [sh] := by
  have hscan : scan f.bytes config.colony_hash f.ordinal =
      .ok ⟨(sh.header config).stored, .Clean sh.size, SeqRanges.noted .empty sh.records⟩ := by
    rw [hf.bytes]
    exact Shelf.scan hcolony (Nat.lt_of_succ_lt ho) (fun r' hr' => (hr r' hr').1) f.ordinal
  obtain ⟨recovered, hiff, hscanned⟩ := scanned_shelf hscan ho (fun r' hr' => (hr r' hr').2) r
  rw [recover_segment, hscanned]
  refine ⟨_, rfl, ?_⟩
  refine ⟨rfl, ?_, ?_, ?_, fun n => ?_, fun i n => ?_⟩
  · rw [Recovery.keep, hf.ordinal]
    rfl
  · rw [Recovery.keep, hf.ordinal]
    rfl
  · rw [Recovery.keep, sizes, sizes]
    rfl
  · rw [Recovery.keep, List.forall_mem_singleton]
    exact Nat.max_le
  · rw [on_shelves_single]
    exact hiff i n

/-- The recovery of a directory that starts with shelves: a file call on one of them fails, or it goes on behind them. -/
theorem recover_shelves (hcolony : config.colony_hash.length = 16) {segments : List SegmentFile} {shelves : List Shelf}
    (h : Stocked config segments shelves) (ok : Nat → Bool) (n : Nat) (r : Recovery) (more : List SegmentFile) :
    ((∃ k, ok k = false) ∧ recover config ok n r (segments ++ more) = (segments ++ more, .error .SpoolIo)) ∨
      ∃ r', Recovered r r' shelves ∧ recover config ok n r (segments ++ more) =
        (segments ++ (recover config ok (n + segments.length) r' more).1, (recover config ok (n + segments.length) r' more).2) := by
  obtain ⟨hfiles, -, hordinals, hfits, -⟩ := h
  induction hfiles generalizing n r with
  | nil => exact .inr ⟨r, recovered_nil r, rfl⟩
  | @cons f sh segments shelves hf hrest ih =>
    rw [List.cons_append, recover]
    cases hok : ok n with
    | false => exact .inl ⟨⟨n, hok⟩, rfl⟩
    | true =>
      simp only [if_true]
      have hown : ∀ r' ∈ sh.records, r'.Fits ∧ r'.seq + 1 < 18446744073709551616 := fun r' hr' =>
        hfits r' (mem_on_shelves List.mem_cons_self hr')
      obtain ⟨r', hsegment, hrecovered⟩ := recover_shelf hcolony hf (hordinals sh List.mem_cons_self) hown r
      rw [hsegment]
      simp only [Option.toList_some, List.cons_append, List.nil_append]
      rcases ih (n + 1) r' (fun sh' hsh' => hordinals sh' (List.mem_cons_of_mem _ hsh'))
          (fun r' hr' => hfits r' (List.mem_append_right _ hr')) with ⟨hfails, heq⟩ | ⟨r'', hrecovered', heq⟩
      · exact .inl ⟨hfails, by rw [heq]⟩
      · refine .inr ⟨r'', hrecovered.append hrecovered', ?_⟩
        rw [heq, List.length_cons, Nat.add_assoc, Nat.add_comm 1]

/-! ## Open -/

/-- A spool over the shelves of a directory whose cursor file is the spool's cursor. -/
theorem housed_stored {d : Disk} {s : DiskSpool} {older sealed : List Shelf} {active : Shelf}
    (hstocked : Stocked config d.segments (older ++ [active])) (hfile : d.cursor = s.cursor) (hlisted : sealed.Sublist older)
    (hpaths : s.sealed = sealed.map (·.ordinal)) (hactive : s.active = active.ordinal) (hend : s.end_offset = active.size)
    (hordinal : active.ordinal < s.next_ordinal) (hpositive : ∀ i, 1 ≤ s.next_seq i)
    (hcounters : ∀ i, s.next_seq i < 18446744073709551616)
    (hahead : ∀ r ∈ on_shelves (older ++ [active]), r.seq < s.next_seq r.issuer)
    (hbehind : ∀ i c, s.cursor.committed i = some c → c < s.next_seq i) : Housed config d s older sealed active := by
  have hnext : ∀ i, resumed s.cursor.next_seq (on_shelves (older ++ [active])) i = s.next_seq i := by
    intro i
    refine resumed_eq (fun r hr hi => ?_)
    have hlt := hahead r hr
    rw [hi] at hlt
    exact hlt
  refine { stocked := hstocked, positive := fun i => ?_, counters := fun i => ?_, committed := by rw [hfile]; exact hbehind,
           listed := hlisted, sealed_paths := hpaths, active_path := hactive, end_offset := hend,
           next_ordinal := hordinal, next_seq := fun i => ?_, behind := hbehind }
  · rw [hfile]
    exact hpositive i
  · rw [hfile, hnext]
    exact hcounters i
  · rw [hfile, hnext]

/-- An open whose file calls may fail. -/
structure Opened (config : SpoolConfig) (d : Disk) (shelves : List Shelf) (d' : Disk) (s : DiskSpool) (older : List Shelf)
    (active : Shelf) : Prop where
  housed : Housed config d' s older older active
  records : on_shelves (older ++ [active]) = on_shelves shelves
  same : shelves ≠ [] → older ++ [active] = shelves
  fresh : shelves = [] → older = [] ∧ active.records = []
  next_seq : ∀ i, s.next_seq i = resumed d.cursor.next_seq (on_shelves shelves) i
  committed : s.cursor.committed = d.cursor.committed
  pending : s.cursor.pending = d.cursor.pending
  bytes : s.bytes = sizes (older ++ [active])

/-- The end of an open whose recovery changed no file. -/
def finish (config : SpoolConfig) (d : Disk) (r : Recovery) (now_ms : Int) (created : Created) (stored : Bool) :
    Disk × Except SpoolError DiskSpool :=
  let cursor := { r.cursor with next_seq := honoured r.recovered_next_seq r.cursor.next_seq }
  match open_active config d r cursor now_ms created with
  | (d, .error e) => (d, .error e)
  | (d, .ok s) => if stored then ({ d with cursor }, .ok s) else (d, .error .SpoolIo)

theorem create_refused (d : Disk) (ordinal : Nat) (now_ms : Int) :
    create_segment config d ordinal now_ms .Refused = (d, false) := by
  rw [create_segment]
  split
  · rfl
  · rfl

/-- The numbers an open goes on with. -/
theorem Recovered.next {d : Disk} {shelves : List Shelf} {r : Recovery} (h : Recovered { cursor := d.cursor } r shelves)
    (hpositive : ∀ i, 1 ≤ next_in d.cursor.next_seq i) (i : IssuerIdx) :
    next_in (honoured r.recovered_next_seq r.cursor.next_seq) i = resumed d.cursor.next_seq (on_shelves shelves) i := by
  have hone : 1 ≤ next_in r.recovered_next_seq i := by
    have hle := ((h.next_seq i (next_in r.recovered_next_seq i)).1 (le_refl _)).1
    exact hle
  have hiff : ∀ n, next_in (honoured r.recovered_next_seq r.cursor.next_seq) i ≤ n ↔
      resumed d.cursor.next_seq (on_shelves shelves) i ≤ n := by
    intro n
    rw [next_in_honoured_le_iff hone, h.next_seq, resumed_le_iff, h.cursor]
    refine ⟨fun hle => ⟨hle.2, hle.1.2⟩, fun hle => ⟨⟨?_, hle.2⟩, hle.1⟩⟩
    exact (hpositive i).trans hle.1
  exact Nat.le_antisymm ((hiff _).2 (le_refl _)) ((hiff _).1 (le_refl _))

/-- An empty directory: its first segment is created. -/
theorem Rested.finish_empty {d : Disk} (h : Rested config d []) {r : Recovery} (hr : Recovered { cursor := d.cursor } r [])
    (now_ms : Int) {created : Created} (hcreated : ∀ n, created ≠ .Torn n) (stored : Bool) :
    ((created = .Refused ∨ stored = false) ∧ (∃ e, (finish config d r now_ms created stored).2 = .error e) ∧
        (finish config d r now_ms created stored).1.cursor = d.cursor ∧
        ∃ shelves', Rested config (finish config d r now_ms created stored).1 shelves' ∧ ∀ sh ∈ shelves', sh.records = []) ∨
      ∃ s older active, (finish config d r now_ms created stored).2 = .ok s ∧
        Opened config d [] (finish config d r now_ms created stored).1 s older active := by
  have hlast : r.last_clean = none := hr.last
  have hsealed : r.sealed = [] := by
    have hlisted := hr.listed
    rw [hlast] at hlisted
    simpa using hlisted
  have hzero : r.next_ordinal = 0 := Nat.le_zero.1 ((hr.next_ordinal 0).2 ⟨le_refl _, fun sh hsh => by cases hsh⟩)
  have hbytes : r.bytes = 0 := hr.bytes
  have hnext := hr.next h.positive
  have hcommitted : r.cursor.committed = d.cursor.committed := congrArg Cursor.committed hr.cursor
  have hpending : r.cursor.pending = d.cursor.pending := congrArg Cursor.pending hr.cursor
  obtain ⟨hcreate, hstocked⟩ := @Stocked.create config d [] h.stocked 0 (fun sh hsh => by cases hsh) (by norm_num) now_ms
  rw [finish, open_active, hlast, hzero]
  cases created with
  | Torn n => exact absurd rfl (hcreated n)
  | Refused =>
    rw [create_refused]
    exact .inl ⟨.inl rfl, ⟨_, rfl⟩, rfl, [], h, fun sh hsh => by cases hsh⟩
  | Whole =>
    simp only [hcreate]
    cases stored with
    | false => exact .inl ⟨.inr rfl, ⟨_, rfl⟩, rfl, [⟨0, now_ms, []⟩], ⟨hstocked, h.positive, h.counters, h.committed⟩,
        fun sh hsh => by rw [List.mem_singleton.1 hsh]⟩
    | true =>
      refine .inr ⟨_, [], ⟨0, now_ms, []⟩, rfl, ?_⟩
      refine { housed := housed_stored hstocked rfl (List.Sublist.refl _) hsealed rfl rfl (Nat.zero_lt_one) (fun i => ?_) (fun i => ?_)
                 (fun r hr => by cases hr) (fun i c hc => ?_),
               records := rfl, same := fun hne => absurd rfl hne, fresh := fun _ => ⟨rfl, rfl⟩, next_seq := hnext
               committed := hcommitted, pending := hpending, bytes := ?_ }
      · exact ((h.positive i).trans (next_in_le_resumed _ _ _)).trans_eq (hnext i).symm
      · exact (hnext i).trans_lt (h.counters i)
      · have hc' : r.cursor.committed i = some c := hc
        rw [hr.cursor] at hc'
        exact ((h.committed i c hc').trans_le (next_in_le_resumed _ _ _)).trans_eq (hnext i).symm
      · show r.bytes + HEADER_BYTES = _
        rw [hbytes]
        rfl

/-- The spool that an open ends with when the last segment is `active`. -/
def Recovery.opened (r : Recovery) (active : Shelf) : DiskSpool where
  active := active.ordinal
  end_offset := active.size
  sealed := r.sealed
  cursor := { r.cursor with next_seq := honoured r.recovered_next_seq r.cursor.next_seq }
  bytes := r.bytes
  next_ordinal := r.next_ordinal

/-- A directory with segments: the last one is opened to append. -/
theorem finish_opened {d : Disk} {older : List Shelf} {active : Shelf} (h : Stocked config d.segments (older ++ [active]))
    (hcolony : config.colony_hash.length = 16) {r : Recovery} (hlast : r.last_clean = some (active.ordinal, active.size))
    (now_ms : Int) (created : Created) (stored : Bool) :
    finish config d r now_ms created stored =
      if stored then ({ d with cursor := (r.opened active).cursor }, .ok (r.opened active)) else (d, .error .SpoolIo) := by
  have hmem : active ∈ older ++ [active] := List.mem_append_right _ (List.mem_singleton.2 rfl)
  obtain ⟨f, -, hfiled, hfind⟩ := h.file hmem
  have hscan := Shelf.scan hcolony (Nat.lt_of_succ_lt (h.ordinals active hmem)) (h.shelf_fits hmem) active.ordinal
  have hopen : open_for_append config d active.ordinal = .ok () := by
    rw [open_for_append, Disk.segment, hfind]
    simp only [hfiled.bytes, hscan]
    rfl
  rw [finish, open_active, hlast]
  simp only [hopen]
  cases stored with
  | true => rfl
  | false => rfl

/-- What the recovery of shelves lists. -/
theorem Recovered.lists {d : Disk} {older : List Shelf} {active : Shelf} {r : Recovery}
    (hr : Recovered { cursor := d.cursor } r (older ++ [active])) :
    r.last_clean = some (active.ordinal, active.size) ∧ r.sealed = older.map (·.ordinal) ∧ active.ordinal < r.next_ordinal := by
  have hlast : r.last_clean = some (active.ordinal, active.size) := by
    rw [hr.last, List.getLast?_append]
    rfl
  refine ⟨hlast, ?_, ?_⟩
  · have hlisted := hr.listed
    rw [hlast, List.map_append] at hlisted
    simpa using hlisted
  · exact ((hr.next_ordinal _).1 (le_refl _)).2 active (List.mem_append_right _ (List.mem_singleton.2 rfl))

theorem Rested.finish_append {d : Disk} {older : List Shelf} {active : Shelf} (h : Rested config d (older ++ [active]))
    (hcolony : config.colony_hash.length = 16) {r : Recovery} (hr : Recovered { cursor := d.cursor } r (older ++ [active]))
    (now_ms : Int) (created : Created) (stored : Bool) :
    (stored = false ∧ (∃ e, (finish config d r now_ms created stored).2 = .error e) ∧
        (finish config d r now_ms created stored).1 = d) ∨
      ∃ s, (finish config d r now_ms created stored).2 = .ok s ∧
        Opened config d (older ++ [active]) (finish config d r now_ms created stored).1 s older active := by
  obtain ⟨hlast, hsealed, hordinal⟩ := hr.lists
  have hnext := hr.next h.positive
  have hcommitted : r.cursor.committed = d.cursor.committed := congrArg Cursor.committed hr.cursor
  have hpending : r.cursor.pending = d.cursor.pending := congrArg Cursor.pending hr.cursor
  rw [finish_opened h.stocked hcolony hlast]
  cases stored with
  | false => exact .inl ⟨rfl, ⟨_, rfl⟩, rfl⟩
  | true =>
    refine .inr ⟨r.opened active, rfl, ?_⟩
    refine { housed := housed_stored h.stocked rfl (List.Sublist.refl _) hsealed rfl rfl hordinal (fun i => ?_) (fun i => ?_) (fun r' hr' => ?_)
               (fun i c hc => ?_),
             records := rfl, same := fun _ => rfl, fresh := fun hnil => ?_, next_seq := hnext
             committed := hcommitted, pending := hpending, bytes := ?_ }
    · exact ((h.positive i).trans (next_in_le_resumed _ _ _)).trans_eq (hnext i).symm
    · exact (hnext i).trans_lt (h.counters i)
    · exact (lt_resumed hr').trans_eq (hnext _).symm
    · have hc' : r.cursor.committed i = some c := hc
      rw [hr.cursor] at hc'
      exact ((h.committed i c hc').trans_le (next_in_le_resumed _ _ _)).trans_eq (hnext i).symm
    · exact absurd hnil (List.append_ne_nil_of_right_ne_nil _ (List.cons_ne_nil _ _))
    · exact hr.bytes.trans (Nat.zero_add _)

/-- An open of a directory in order succeeds, or leaves it in order. -/
theorem Rested.open {d : Disk} {shelves : List Shelf} (h : Rested config d shelves) (hcolony : config.colony_hash.length = 16)
    (now_ms : Int) (ok : Nat → Bool) {created : Created} (hcreated : ∀ n, created ≠ .Torn n) (stored : Bool) :
    (((∃ k, ok k = false) ∨ created = .Refused ∨ stored = false) ∧
        (∃ e, (open_spool config d now_ms ok created stored).2 = .error e) ∧
        (open_spool config d now_ms ok created stored).1.cursor = d.cursor ∧
        ∃ shelves', Rested config (open_spool config d now_ms ok created stored).1 shelves' ∧
          (shelves' = shelves ∨ shelves = [] ∧ ∀ sh ∈ shelves', sh.records = [])) ∨
      ∃ s older active, (open_spool config d now_ms ok created stored).2 = .ok s ∧
        Opened config d shelves (open_spool config d now_ms ok created stored).1 s older active := by
  have hrecover := recover_shelves hcolony h.stocked ok 0 { cursor := d.cursor } []
  rw [List.append_nil] at hrecover
  rcases hrecover with ⟨hfails, heq⟩ | ⟨r, hr, heq⟩
  · rw [open_spool, heq]
    exact .inl ⟨.inl hfails, ⟨_, rfl⟩, rfl, shelves, h, .inl rfl⟩
  · have hleft : recover config ok 0 { cursor := d.cursor } d.segments = (d.segments, .ok r) := by
      rw [heq, recover, List.append_nil]
    have hfinish : open_spool config d now_ms ok created stored = finish config d r now_ms created stored := by
      rw [open_spool, hleft]
      rfl
    rw [hfinish]
    rcases List.eq_nil_or_concat shelves with rfl | ⟨older, active, rfl⟩
    · rcases h.finish_empty hr now_ms hcreated stored with ⟨hwhy, herror, hcursor, hrested⟩ | hopened
      · obtain ⟨shelves', hrested, hempty⟩ := hrested
        exact .inl ⟨.inr hwhy, herror, hcursor, shelves', hrested, .inr ⟨rfl, hempty⟩⟩
      · exact .inr hopened
    · rw [List.concat_eq_append] at h hr ⊢
      rcases h.finish_append hcolony hr now_ms created stored with ⟨hwhy, herror, hsame⟩ | ⟨s, hok, hopened⟩
      · exact .inl ⟨.inr (.inr hwhy), herror, by rw [hsame], older ++ [active], by rw [hsame]; exact h, .inl rfl⟩
      · exact .inr ⟨s, older, active, hok, hopened⟩

end

end Ambush.Bridge

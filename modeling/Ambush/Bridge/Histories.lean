import Ambush.Bridge.Reopening
/-!
# Histories of a spool in order

A ledger is a history with the records its appends wrote whole, under the numbers they were
given. While no file call leaves a part of a record or of a header behind, the directory
stays in order and holds records of the ledger. What is appended to a housed spool
afterwards is read back, before and after a reopen, as long as its segment is there.
-/
open Lib Lib.Frames

namespace Ambush.Bridge

structure Ledger where
  history : History := {}
  /-- Oldest first. -/
  appended : List Record := []

/-- What an act writes. -/
def Act.writes (config : SpoolConfig) (h : History) : Act → List Record
  | .Append record _ faults => (h.spool.map (fun s => appended config s record faults)).getD []
  | _ => []

def Enters (config : SpoolConfig) (l : Ledger) (a : Act) (l' : Ledger) : Prop :=
  Acts config l.history a l'.history ∧ l'.appended = l.appended ++ a.writes config l.history

/-- Neither a record nor a header is written in part, a new segment is created, a commit is of a number that was given out,
and no counter overflows. -/
def Healthy (h : History) : Act → Prop
  | .Open _ _ created _ => ∀ n, created ≠ .Torn n
  | .Append record _ faults => record.Fits ∧ (faults.written = none ∨ faults.written = some 0) ∧ faults.created = .Whole ∧
    ∀ s ∈ h.spool, s.next_seq record.issuer + 1 < 18446744073709551616 ∧ s.next_ordinal + 1 < 18446744073709551616
  | .Commit issuer seq _ => ∀ s ∈ h.spool, seq < s.next_seq issuer
  | .Crash _ => False
  | .Corrupt .. => False
  | _ => True

def Keeps (config : SpoolConfig) (l : Ledger) (a : Act) (l' : Ledger) : Prop := Enters config l a l' ∧ Healthy l.history a

instance (r : Record) : Decidable r.Fits :=
  decidable_of_iff (r.seq < 18446744073709551616 ∧
    (-9223372036854775808 ≤ r.emitted_at_ms ∧ r.emitted_at_ms < 9223372036854775808) ∧ r.payload.length < 4294967296)
    ⟨fun h => ⟨h.1, h.2.1, h.2.2⟩, fun h => ⟨h.seq, h.emitted_at_ms, h.payload⟩⟩

theorem not_torn_whole (n : Nat) : Created.Whole ≠ .Torn n := nofun

theorem not_torn_refused (n : Nat) : Created.Refused ≠ .Torn n := nofun

instance (h : History) : (a : Act) → Decidable (Healthy h a)
  | .Open _ _ .Whole _ => .isTrue not_torn_whole
  | .Open _ _ .Refused _ => .isTrue not_torn_refused
  | .Open _ _ (.Torn n) _ => .isFalse (fun hall => hall n rfl)
  | .Append .. => inferInstanceAs (Decidable (_ ∧ _))
  | .Commit issuer seq _ => inferInstanceAs (Decidable (∀ s ∈ h.spool, seq < s.next_seq issuer))
  | .Crash _ | .Corrupt .. => .isFalse id
  | .MarkGap .. | .TakeGaps .. | .Seal .. | .Drop => .isTrue trivial

/-- An act, as a partial function. -/
def Ledger.act (config : SpoolConfig) (l : Ledger) (a : Act) : Option Ledger :=
  if Healthy l.history a then
    (l.history.act config a).map (fun history => { history, appended := l.appended ++ a.writes config l.history })
  else none

theorem run_of_ledger {config : SpoolConfig} {acts : List Act} {l : Ledger} (h : acts.foldlM (Ledger.act config) {} = some l) :
    Run (Keeps config) {} acts l := by
  refine (Run.of_foldlM h).mono (fun l a l' hact => ?_)
  rw [Ledger.act] at hact
  split at hact
  · next hhealthy =>
    obtain ⟨history, hhistory, rfl⟩ := Option.map_eq_some_iff.1 hact
    exact ⟨⟨hhistory, rfl⟩, hhealthy⟩
  · cases hact

/-- No number between two of an issuer is missing. -/
def Dense (records : List Record) : Prop := ∀ a ∈ records, ∀ b ∈ records, a.issuer = b.issuer → ∀ n, a.seq ≤ n → n ≤ b.seq →
  ∃ r ∈ records, r.issuer = a.issuer ∧ r.seq = n

/-- Each segment is dense, and the last one goes up to the next number of each issuer it has a record of. -/
structure Packed (next : IssuerIdx → Seq) (shelves : List Shelf) : Prop where
  dense : ∀ sh ∈ shelves, Dense sh.records
  upto : ∀ sh ∈ shelves.getLast?, ∀ r ∈ sh.records, ∃ r' ∈ sh.records, r'.issuer = r.issuer ∧ r'.seq + 1 = next r.issuer

/-- The directory is in order, and an open spool agrees with it. -/
inductive Orderly (config : SpoolConfig) (l : Ledger) : Prop
  | closed {shelves : List Shelf} (hspool : l.history.spool = none) (h : Rested config l.history.disk shelves)
    (hsub : (on_shelves shelves).Sublist l.appended) (hpacked : Packed (resumed l.history.disk.cursor.next_seq (on_shelves shelves)) shelves)
  | opened {s : DiskSpool} {older sealed : List Shelf} {active : Shelf} (hspool : l.history.spool = some s)
    (h : Housed config l.history.disk s older sealed active) (hsub : (on_shelves (older ++ [active])).Sublist l.appended)
    (hpacked : Packed s.next_seq (older ++ [active]))

theorem packed_empty (next : IssuerIdx → Seq) {shelves : List Shelf} (h : ∀ sh ∈ shelves, sh.records = []) : Packed next shelves := by
  refine ⟨fun sh hsh a ha => ?_, fun sh hsh r hr => ?_⟩
  · rw [h sh hsh] at ha
    cases ha
  · rw [h sh (List.mem_of_getLast? hsh)] at hr
    cases hr

theorem orderly_start (config : SpoolConfig) : Orderly config {} := by
  refine @Orderly.closed config {} [] rfl ?_ (List.Sublist.refl _) (packed_empty _ (fun sh hsh => by cases hsh))
  refine ⟨⟨.nil, .nil, fun sh hsh => (by cases hsh), fun r hr => (by cases hr), .nil⟩, fun i => ?_, fun i => ?_, fun i c hc => ?_⟩
  · exact le_refl 1
  · exact (by norm_num : 1 < 18446744073709551616)
  · cases hc

section
variable {config : SpoolConfig} {l l' : Ledger}

/-! ## What an append leaves alone -/

/-- A change of a spool and its directory that commits nothing and gives out no number. -/
structure Uncommitting (d : Disk) (s : DiskSpool) (d' : Disk) (s' : DiskSpool) : Prop where
  next_seq : s'.cursor.next_seq = s.cursor.next_seq
  committed : s'.cursor.committed = s.cursor.committed
  file : d'.cursor.committed = d.cursor.committed ∨ d'.cursor.committed = s.cursor.committed

theorem Uncommitting.refl (d : Disk) (s : DiskSpool) : Uncommitting d s d s := ⟨rfl, rfl, .inl rfl⟩

theorem Uncommitting.trans {d d' d'' : Disk} {s s' s'' : DiskSpool} (h : Uncommitting d s d' s') (h' : Uncommitting d' s' d'' s'') :
    Uncommitting d s d'' s'' := by
  refine ⟨h'.next_seq.trans h.next_seq, h'.committed.trans h.committed, ?_⟩
  rcases h'.file with hf | hf
  · rw [hf]
    exact h.file
  · exact .inr (hf.trans h.committed)

theorem uncommitting_create (config : SpoolConfig) (d : Disk) (ordinal : Nat) (now_ms : Int) (created : Created) :
    (create_segment config d ordinal now_ms created).1.cursor = d.cursor := (create_segment_mem config d ordinal now_ms created).1

theorem uncommitting_roll (config : SpoolConfig) (d : Disk) (s : DiskSpool) (now_ms : Int) (faults : Faults) :
    Uncommitting d s (roll config d s now_ms faults).1 (roll config d s now_ms faults).2.1 := by
  rw [roll]
  split
  · simp only
    have hcursor := uncommitting_create config (d.sync s.active) s.next_ordinal now_ms faults.created
    split
    · next heq =>
      rw [heq] at hcursor
      exact ⟨rfl, rfl, .inl (congrArg Cursor.committed hcursor)⟩
    · next heq =>
      rw [heq] at hcursor
      split
      · exact ⟨rfl, rfl, .inr rfl⟩
      · exact ⟨rfl, rfl, .inl (congrArg Cursor.committed hcursor)⟩
  · exact .refl d s

theorem uncommitting_evict_loop (config : SpoolConfig) (unlinked : Nat → Bool) (n : Nat) (sealed : List Nat) (d : Disk)
    (s : DiskSpool) : Uncommitting d s (evict_loop config unlinked n sealed d s).1 (evict_loop config unlinked n sealed d s).2.1 := by
  induction sealed generalizing n d s with
  | nil => exact .refl d s
  | cons path sealed ih =>
    rw [evict_loop]
    split
    · simp only
      split
      · exact ⟨rfl, rfl, .inl rfl⟩
      · split
        · exact ⟨rfl, rfl, .inl rfl⟩
        · next report _ =>
          split
          · have hmark (range : Option GapCause) (left : Nat) : Uncommitting d s (d.unlink path)
                { s with sealed, bytes := left, cursor := (range.map s.cursor.mark_gap).getD s.cursor } := by
              cases range with
              | none => exact ⟨rfl, rfl, .inl rfl⟩
              | some cause => exact ⟨rfl, rfl, .inl rfl⟩
            exact (hmark _ _).trans (ih (n + 1) _ _)
          · exact ⟨rfl, rfl, .inl rfl⟩
    · exact .refl d s

theorem uncommitting_settle (config : SpoolConfig) (d : Disk) (s : DiskSpool) (now_ms : Int) (faults : Faults) :
    Uncommitting d s (settle config d s now_ms faults).1 (settle config d s now_ms faults).2.1 := by
  rw [settle]
  split
  · have hroll := uncommitting_roll config d s now_ms faults
    split
    · next heq =>
      rw [heq] at hroll
      exact hroll
    · next d' s' heq =>
      rw [heq] at hroll
      split
      · exact hroll
      · have hloop := uncommitting_evict_loop config faults.unlinked 0 s'.sealed d' s'
        rw [evict_to_budget]
        split
        · next heq' =>
          rw [heq'] at hloop
          exact hroll.trans hloop
        · next heq' =>
          rw [heq'] at hloop
          have hboth := hroll.trans hloop
          split
          · exact ⟨hboth.next_seq, hboth.committed, .inr hboth.committed⟩
          · exact hboth
  · exact .refl d s

/-- An append that succeeds. -/
theorem append_ok {d d' : Disk} {s s' : DiskSpool} {record : Record} {now_ms : Int} {faults : Faults} {seq : Seq}
    (h : append_record config d s record now_ms faults = (d', s', .ok seq)) :
    ¬ refuses config s ∧ faults.written = none ∧ s.next_seq record.issuer + 1 < 18446744073709551616 ∧
      settle config (d.write s.active (encode_record (numbered s record))) (after_write s record) now_ms faults = (d', s', .ok ()) := by
  by_cases hrefuses : refuses config s
  · rw [append_record, if_pos hrefuses] at h
    cases (Prod.mk.inj (Prod.mk.inj h).2).2
  · cases hwritten : faults.written with
    | some n =>
      rw [append_record, if_neg hrefuses, hwritten] at h
      cases (Prod.mk.inj (Prod.mk.inj h).2).2
    | none =>
      by_cases hseq : s.next_seq record.issuer + 1 < 18446744073709551616
      · rw [append_record_written config d now_ms hrefuses hwritten hseq] at h
        refine ⟨hrefuses, rfl, hseq, ?_⟩
        split at h
        · cases (Prod.mk.inj (Prod.mk.inj h).2).2
        · next d'' s'' heq =>
          obtain ⟨rfl, hrest⟩ := Prod.mk.inj h
          obtain ⟨rfl, -⟩ := Prod.mk.inj hrest
          exact heq
      · rw [append_record, if_neg hrefuses, hwritten] at h
        simp only [after, if_neg hseq] at h
        cases (Prod.mk.inj (Prod.mk.inj h).2).2

/-- What an append that writes nothing does to the numbers, and what one does that writes its record. -/
theorem append_next_seq (config : SpoolConfig) (d : Disk) {s : DiskSpool} {record : Record} (now_ms : Int) {faults : Faults}
    (hwritten : faults.written = none ∨ faults.written = some 0) (hseq : s.next_seq record.issuer + 1 < 18446744073709551616) :
    (appended config s record faults = [] ∧ (append_record config d s record now_ms faults).2.1.cursor.next_seq = s.cursor.next_seq) ∨
      (appended config s record faults = [numbered s record] ∧ (append_record config d s record now_ms faults).2.1.cursor.next_seq =
        s.cursor.next_seq.insert record.issuer (s.next_seq record.issuer + 1)) := by
  by_cases hrefuses : refuses config s
  · rw [append_record, if_pos hrefuses, appended, if_pos (.inl hrefuses)]
    exact .inl ⟨rfl, rfl⟩
  · rcases hwritten with hwritten | hwritten
    · rw [appended, if_neg (not_or.2 ⟨hrefuses, not_not.2 hwritten⟩), append_record_written config d now_ms hrefuses hwritten hseq]
      have hu := uncommitting_settle config (d.write s.active (encode_record (numbered s record))) (after_write s record) now_ms faults
      refine .inr ⟨rfl, ?_⟩
      split
      · next heq =>
        rw [heq] at hu
        exact hu.next_seq
      · next heq =>
        rw [heq] at hu
        exact hu.next_seq
    · rw [appended, if_pos (.inr (by rw [hwritten]; exact Option.some_ne_none 0)), append_record, if_neg hrefuses, hwritten]
      exact .inl ⟨rfl, rfl⟩

/-! ## Healthy histories -/

theorem Orderly.shelves (h : Orderly config l) : ∃ shelves, Rested config l.history.disk shelves ∧
    (on_shelves shelves).Sublist l.appended ∧ Packed (resumed l.history.disk.cursor.next_seq (on_shelves shelves)) shelves := by
  cases h with
  | closed _ h hsub hpacked => exact ⟨_, h, hsub, hpacked⟩
  | opened _ h hsub hpacked => exact ⟨_, h.toRested, hsub, (funext h.next_seq : _ = _) ▸ hpacked⟩

theorem Orderly.housed (h : Orderly config l) {s : DiskSpool} (hspool : l.history.spool = some s) :
    ∃ older sealed active, Housed config l.history.disk s older sealed active ∧
      (on_shelves (older ++ [active])).Sublist l.appended ∧ Packed s.next_seq (older ++ [active]) := by
  cases h with
  | closed hnone _ _ => cases hspool.symm.trans hnone
  | opened hsome h hsub hpacked =>
    obtain rfl := Option.some.inj (hspool.symm.trans hsome)
    exact ⟨_, _, _, h, hsub, hpacked⟩

/-- A step of an open spool that writes no record and gives out no number. -/
theorem Orderly.step (h : Orderly config l) {s s' : DiskSpool} {d' : Disk} (hspool : l.history.spool = some s)
    (hl : l' = ⟨{ l.history with disk := d', spool := some s' }, l.appended⟩) (hnext : s'.cursor.next_seq = s.cursor.next_seq)
    (hkeep : ∀ older sealed active, Housed config l.history.disk s older sealed active → Housed config d' s' older sealed active) :
    Orderly config l' := by
  subst hl
  obtain ⟨older, sealed, active, hhoused, hsub, hpacked⟩ := h.housed hspool
  have hsame : s'.next_seq = s.next_seq := funext (fun i => congrArg (fun m => next_in m i) hnext)
  exact .opened rfl (hkeep _ _ _ hhoused) hsub (hsame ▸ hpacked)

/-- The next number of an issuer goes behind those of the segment. -/
theorem Dense.append {records : List Record} (h : Dense records) {r : Record}
    (hbehind : ∀ a ∈ records, a.issuer = r.issuer → a.seq < r.seq)
    (hupto : ∀ a ∈ records, a.issuer = r.issuer → ∃ top ∈ records, top.issuer = r.issuer ∧ top.seq + 1 = r.seq) :
    Dense (records ++ [r]) := by
  have hmem : r ∈ records ++ [r] := List.mem_append_right _ (List.mem_singleton.2 rfl)
  intro a ha b hb hi n hle hle'
  rcases List.mem_append.1 ha with hold | hlast
  · rcases List.mem_append.1 hb with hold' | hlast'
    · obtain ⟨r', hr', hfound⟩ := h a hold b hold' hi n hle hle'
      exact ⟨r', List.mem_append_left _ hr', hfound⟩
    · rw [List.mem_singleton.1 hlast'] at hi hle'
      obtain ⟨top, htop, htopi, hseq⟩ := hupto a hold hi
      rcases Nat.lt_or_ge n r.seq with hlt | hge
      · obtain ⟨r', hr', hfound⟩ := h a hold top htop (hi.trans htopi.symm) n hle (Nat.le_of_lt_succ (hlt.trans_eq hseq.symm))
        exact ⟨r', List.mem_append_left _ hr', hfound⟩
      · exact ⟨r, hmem, hi.symm, Nat.le_antisymm hge hle'⟩
  · rw [List.mem_singleton.1 hlast] at hi hle ⊢
    rcases List.mem_append.1 hb with hold' | hlast'
    · exact absurd (hle.trans hle') (Nat.not_le.2 (hbehind b hold' hi.symm))
    · rw [List.mem_singleton.1 hlast'] at hle'
      exact ⟨r, hmem, rfl, Nat.le_antisymm hle hle'⟩

theorem last_active (older : List Shelf) (active : Shelf) : (older ++ [active]).getLast? = some active := by
  rw [List.getLast?_append]
  rfl

/-- What shelves keep when the records of the active one, and new ones, are where they are. -/
theorem Packed.carry {next next' : IssuerIdx → Seq} {older sealed older' sealed' : List Shelf} {active active' : Shelf}
    {new : List Record} {unlinks : Prop} (h : Packed next (older ++ [active]))
    (hcarries : Carries unlinks older sealed active new older' sealed' active') (hdense : Dense (active.records ++ new))
    (hupto : ∀ r ∈ active.records ++ new, ∃ r' ∈ active.records ++ new, r'.issuer = r.issuer ∧ r'.seq + 1 = next' r.issuer) :
    Packed next' (older' ++ [active']) := by
  have hempty : ∀ sh : Shelf, sh.records = [] → Dense sh.records := fun sh hsh a ha => by rw [hsh] at ha; cases ha
  refine ⟨fun sh hsh => ?_, fun sh hsh r hr => ?_⟩
  · rcases List.mem_append.1 hsh with hsh | hsh
    · rcases hcarries.shelves sh hsh with hold | hnew | hnone
      · exact h.dense sh (List.mem_append_left _ hold)
      · rw [hnew]
        exact hdense
      · exact hempty sh hnone
    · rw [List.mem_singleton.1 hsh]
      rcases hcarries.last with hnew | hnone
      · rw [hnew]
        exact hdense
      · exact hempty active' hnone
  · rw [last_active] at hsh
    obtain rfl := Option.some.inj hsh
    rcases hcarries.last with hnew | hnone
    · rw [hnew] at hr ⊢
      exact hupto r hr
    · rw [hnone] at hr
      cases hr

/-- The active segment stays dense. -/
theorem Housed.dense_written {d : Disk} {s : DiskSpool} {older sealed : List Shelf} {active : Shelf}
    (h : Housed config d s older sealed active) (hpacked : Packed s.next_seq (older ++ [active])) (record : Record) :
    Dense (active.records ++ [numbered s record]) := by
  have hmem : active ∈ older ++ [active] := List.mem_append_right _ (List.mem_singleton.2 rfl)
  refine Dense.append (hpacked.dense active hmem) (fun a ha hi => ?_) (fun a ha hi => ?_)
  · have hlt := h.lt_next (mem_on_shelves hmem ha)
    rw [hi] at hlt
    exact hlt
  · obtain ⟨top, htop, htopi, hseq⟩ := hpacked.upto active (last_active older active) a ha
    rw [hi] at htopi hseq
    exact ⟨top, htop, htopi, hseq⟩

theorem Housed.packed_append {d : Disk} {s : DiskSpool} {older sealed older' sealed' : List Shelf} {active active' : Shelf}
    (h : Housed config d s older sealed active) (hpacked : Packed s.next_seq (older ++ [active])) {record : Record} (now_ms : Int)
    {faults : Faults} (hwritten : faults.written = none ∨ faults.written = some 0)
    (hseq : s.next_seq record.issuer + 1 < 18446744073709551616) {unlinks : Prop}
    (hcarries : Carries unlinks older sealed active (appended config s record faults) older' sealed' active') :
    Packed (append_record config d s record now_ms faults).2.1.next_seq (older' ++ [active']) := by
  have hmem : active ∈ older ++ [active] := List.mem_append_right _ (List.mem_singleton.2 rfl)
  have hupto := hpacked.upto active (last_active older active)
  rcases append_next_seq config d now_ms hwritten hseq with ⟨hnone, hnext⟩ | ⟨hnew, hnext⟩
  · have hsame : (append_record config d s record now_ms faults).2.1.next_seq = s.next_seq :=
      funext (fun i => congrArg (fun m => next_in m i) hnext)
    rw [hnone] at hcarries
    rw [hsame]
    refine hpacked.carry hcarries ?_ ?_
    · rw [List.append_nil]
      exact hpacked.dense active hmem
    · rw [List.append_nil]
      exact hupto
  · have hsame : ∀ i, (append_record config d s record now_ms faults).2.1.next_seq i =
        if i = record.issuer then s.next_seq record.issuer + 1 else s.next_seq i := by
      intro i
      have hinsert := next_in_insert s.cursor.next_seq record.issuer (s.next_seq record.issuer + 1) i
      rw [← hnext] at hinsert
      exact hinsert
    rw [hnew] at hcarries
    have hlast : numbered s record ∈ active.records ++ [numbered s record] := List.mem_append_right _ (List.mem_singleton.2 rfl)
    refine hpacked.carry hcarries (h.dense_written hpacked record) (fun r hr => ?_)
    rw [hsame]
    by_cases hi : r.issuer = record.issuer
    · rw [if_pos hi]
      exact ⟨numbered s record, hlast, hi.symm, rfl⟩
    · rw [if_neg hi]
      rcases List.mem_append.1 hr with hold | hnew'
      · obtain ⟨top, htop, hfound⟩ := hupto r hold
        exact ⟨top, List.mem_append_left _ htop, hfound⟩
      · exact absurd (congrArg Record.issuer (List.mem_singleton.1 hnew')) hi

theorem Orderly.keep (hcolony : config.colony_hash.length = 16) (h : Orderly config l) {a : Act} (hstep : Keeps config l a l') :
    Orderly config l' := by
  obtain ⟨⟨hact, happended⟩, hhealthy⟩ := hstep
  unfold Acts at hact
  obtain ⟨history', appended'⟩ := l'
  simp only at hact happended
  subst happended
  cases a with
  | Open now_ms ok created stored =>
    cases hspool : l.history.spool with
    | some s => simp only [History.act, hspool] at hact; cases hact
    | none =>
      simp only [History.act, hspool] at hact
      obtain rfl := Option.some.inj hact
      obtain ⟨shelves, hrested, hsub, hpacked⟩ := h.shelves
      simp only [Act.writes, List.append_nil]
      rcases hrested.open hcolony now_ms ok hhealthy stored with
        ⟨-, ⟨e, he⟩, hcursor, shelves', hrested', hsame⟩ | ⟨s, older, active, hok, hopened⟩
      · have hkept : on_shelves shelves' = on_shelves shelves ∧
            Packed (resumed l.history.disk.cursor.next_seq (on_shelves shelves)) shelves' := by
          rcases hsame with rfl | ⟨rfl, hempty⟩
          · exact ⟨rfl, hpacked⟩
          · exact ⟨List.flatMap_eq_nil_iff.2 hempty, packed_empty _ hempty⟩
        refine .closed ?_ hrested' (by rw [hkept.1]; exact hsub) ?_
        · simp only [he]
          rfl
        · rw [hkept.1]
          simp only [hcursor]
          exact hkept.2
      · have hnext : s.next_seq = resumed l.history.disk.cursor.next_seq (on_shelves shelves) := funext hopened.next_seq
        have hkept : Packed s.next_seq (older ++ [active]) := by
          by_cases hnil : shelves = []
          · obtain ⟨rfl, hrecords⟩ := hopened.fresh hnil
            exact packed_empty _ (fun sh hsh => by rw [List.mem_singleton.1 hsh, hrecords])
          · rw [hopened.same hnil, hnext]
            exact hpacked
        refine .opened ?_ hopened.housed (by rw [hopened.records]; exact hsub) hkept
        simp only [hok]
        rfl
  | Append record now_ms faults =>
    cases hspool : l.history.spool with
    | none => simp only [History.act, hspool] at hact; cases hact
    | some s =>
      simp only [History.act, hspool, Option.map_some] at hact
      obtain rfl := Option.some.inj hact
      obtain ⟨hr, hwritten, hcreated, hroom⟩ := hhealthy
      obtain ⟨older, sealed, active, hhoused, hsub, hpacked⟩ := h.housed hspool
      obtain ⟨older', sealed', active', hhoused', hcarries⟩ := hhoused.append hcolony hr (hroom s hspool).1 (hroom s hspool).2 now_ms hwritten hcreated
      simp only [Act.writes, hspool, Option.map_some, Option.getD_some]
      refine .opened rfl hhoused' (hcarries.disk.trans (List.Sublist.append hsub (List.Sublist.refl _))) ?_
      exact hhoused.packed_append hpacked now_ms hwritten (hroom s hspool).1 hcarries
  | Commit issuer seq ok =>
    cases hspool : l.history.spool with
    | none => simp only [History.act, hspool] at hact; cases hact
    | some s =>
      simp only [History.act, hspool, Option.map_some] at hact
      obtain rfl := Option.some.inj hact
      simp only [Act.writes, List.append_nil]
      exact h.step hspool rfl rfl (fun _ _ _ hh => hh.commit (hhealthy s hspool) ok)
  | MarkGap cause ok =>
    cases hspool : l.history.spool with
    | none => simp only [History.act, hspool] at hact; cases hact
    | some s =>
      simp only [History.act, hspool, Option.map_some] at hact
      obtain rfl := Option.some.inj hact
      simp only [Act.writes, List.append_nil]
      exact h.step hspool rfl rfl (fun _ _ _ hh => hh.mark_gap cause ok)
  | TakeGaps ok =>
    cases hspool : l.history.spool with
    | none => simp only [History.act, hspool] at hact; cases hact
    | some s =>
      simp only [History.act, hspool, Option.map_some] at hact
      obtain rfl := Option.some.inj hact
      simp only [Act.writes, List.append_nil]
      exact h.step hspool rfl rfl (fun _ _ _ hh => hh.take_gaps ok)
  | Seal synced ok =>
    cases hspool : l.history.spool with
    | none => simp only [History.act, hspool] at hact; cases hact
    | some s =>
      simp only [History.act, hspool, Option.map_some] at hact
      obtain rfl := Option.some.inj hact
      simp only [Act.writes, List.append_nil]
      refine h.step hspool ?_ rfl (fun _ _ _ hh => hh.seal synced ok)
      simp only
  | Drop =>
    obtain rfl := Option.some.inj hact
    obtain ⟨shelves, hrested, hsub, hpacked⟩ := h.shelves
    simp only [Act.writes, List.append_nil]
    exact .closed rfl hrested hsub hpacked
  | Crash kept => exact hhealthy.elim
  | Corrupt ordinal offset patch => exact hhealthy.elim

/-- Every healthy history keeps its directory in order. -/
theorem run_orderly (hcolony : config.colony_hash.length = 16) {acts : List Act} (hrun : Run (Keeps config) {} acts l) :
    Orderly config l :=
  hrun.inv (fun _ _ _ _ h hstep => h.keep hcolony hstep) (orderly_start config)

/-! ## Later appends -/

/-- A spool in use, and what was appended since, each record beside the ordinal of its segment. -/
structure Later where
  disk : Disk
  spool : DiskSpool
  added : List (Nat × Record) := []

/-- An append whose file calls all succeed, and that returns a number. -/
def Appends (config : SpoolConfig) (x : Later) (p : Record × Int) (x' : Later) : Prop :=
  p.1.Fits ∧ x.spool.next_ordinal + 1 < 18446744073709551616 ∧
    (∃ seq, append_record config x.disk x.spool p.1 p.2 {} = (x'.disk, x'.spool, .ok seq)) ∧
    x'.added = x.added ++ [(x.spool.active, numbered x.spool p.1)]

/-- `peek` with the largest budget returns the record. -/
def Shows (d : Disk) (s : DiskSpool) (record : Record) : Prop := ∃ records, s.peek d u64Max = .ok records ∧ record ∈ records

/-- Every record appended from here on is read back, before and after a reopen, unless its segment is gone. -/
def Readable (config : SpoolConfig) (d : Disk) (s : DiskSpool) : Prop :=
  ∀ later x, Run (Appends config) { disk := d, spool := s } later x → ∀ p ∈ x.added, (x.disk.segment p.1).isSome →
    Shows x.disk x.spool p.2 ∧ ∀ now_ms, ∃ d' s', open_spool config x.disk now_ms (fun _ => true) .Whole true = (d', .ok s') ∧
      Shows d' s' p.2

/-- What is known of a record added to a housed spool. -/
structure Added (d : Disk) (s : DiskSpool) (older sealed : List Shelf) (active : Shelf) (p : Nat × Record) : Prop where
  placed : Placed older sealed active p.1 p.2
  behind : ∀ c, s.cursor.committed p.2.issuer = some c → c < p.2.seq
  file : ∀ c, d.cursor.committed p.2.issuer = some c → c < p.2.seq

/-- A housed spool and what was added to it. -/
inductive Accumulates (config : SpoolConfig) (x : Later) : Prop
  | intro {older sealed : List Shelf} {active : Shelf} (h : Housed config x.disk x.spool older sealed active)
    (hadded : ∀ p ∈ x.added, Added x.disk x.spool older sealed active p)

theorem Added.mono {d d' : Disk} {s s' : DiskSpool} {older sealed older' sealed' : List Shelf} {active active' : Shelf} {p : Nat × Record}
    (h : Added d s older sealed active p) (hplaced : Placed older' sealed' active' p.1 p.2)
    (hcommitted : s'.cursor.committed = s.cursor.committed)
    (hfile : d'.cursor.committed = d.cursor.committed ∨ d'.cursor.committed = s.cursor.committed) :
    Added d' s' older' sealed' active' p := by
  refine ⟨hplaced, fun c hc => ?_, fun c hc => ?_⟩
  · rw [hcommitted] at hc
    exact h.behind c hc
  · rcases hfile with hf | hf
    · rw [hf] at hc
      exact h.file c hc
    · rw [hf] at hc
      exact h.behind c hc

theorem Accumulates.step (hcolony : config.colony_hash.length = 16) {x x' : Later} {p : Record × Int} (h : Accumulates config x)
    (hstep : Appends config x p x') : Accumulates config x' := by
  obtain ⟨hhoused, hadded⟩ := h
  obtain ⟨hr, hroom, ⟨seq, happend⟩, hnew⟩ := hstep
  obtain ⟨-, -, hseq, hsettle⟩ := append_ok happend
  rename_i older sealed active
  have hwritten := hhoused.after_write hr hseq
  have hcarries := @carries_written (∀ k, ({} : Faults).unlinked k = true) older sealed active (fun _ => hhoused.older_lt)
    (numbered x.spool p.1)
  obtain ⟨older', sealed', active', hhoused', hcarries'⟩ := @Housed.settle _ _ _ _ _ _ hwritten hcolony hroom p.2 {} rfl
  have hu := uncommitting_settle config (x.disk.write x.spool.active (encode_record (numbered x.spool p.1)))
    (after_write x.spool p.1) p.2 {}
  rw [hsettle] at hhoused' hu
  have hall := hcarries.trans hcarries'
  refine ⟨hhoused', fun q hq => ?_⟩
  rw [hnew] at hq
  rcases List.mem_append.1 hq with hq | hq
  · have hold := hadded q hq
    exact hold.mono (hall.placed (fun _ => rfl) _ _ hold.placed) hu.committed hu.file
  · obtain rfl := List.mem_singleton.1 hq
    have hplaced : Placed older sealed { active with records := active.records ++ [numbered x.spool p.1] } x.spool.active
        (numbered x.spool p.1) := by
      refine ⟨fun sh hsh heq => ?_, Nat.le_of_eq hhoused.active_path⟩
      rcases List.mem_append.1 hsh with hsh | hsh
      · rw [hhoused.active_path] at heq
        exact absurd heq (Nat.ne_of_lt (hhoused.older_lt hsh))
      · obtain rfl := List.mem_singleton.1 hsh
        exact ⟨List.mem_append_right _ (List.mem_singleton.2 rfl), List.mem_append_right _ (List.mem_singleton.2 rfl)⟩
    have hfresh : Added x.disk x.spool older sealed { active with records := active.records ++ [numbered x.spool p.1] }
        (x.spool.active, numbered x.spool p.1) := by
      exact ⟨hplaced, fun c hc => hhoused.behind _ c hc, fun c hc => hhoused.file_behind hc⟩
    exact hfresh.mono (hcarries'.placed (fun _ => rfl) _ _ hplaced) hu.committed hu.file

/-- A listed record ahead of what is committed. -/
theorem Housed.shows {d : Disk} {s : DiskSpool} {older sealed : List Shelf} {active : Shelf} (h : Housed config d s older sealed active)
    (hcolony : config.colony_hash.length = 16) {r : Record} (hr : r ∈ on_shelves (sealed ++ [active]))
    (hahead : ∀ c, s.cursor.committed r.issuer = some c → c < r.seq) : Shows d s r := by
  refine ⟨_, h.peek hcolony u64Max, ?_⟩
  rw [fitting_all, DiskSpool.uncommitted, List.mem_filter]
  refine ⟨hr, ?_⟩
  rw [DiskSpool.is_committed]
  cases hc : s.cursor.committed r.issuer with
  | none => rfl
  | some c => simpa using hahead c hc

/-- An open whose file calls all succeed. -/
theorem Rested.reopens {d : Disk} {shelves : List Shelf} (h : Rested config d shelves) (hcolony : config.colony_hash.length = 16)
    (now_ms : Int) : ∃ d' s' older active, open_spool config d now_ms (fun _ => true) .Whole true = (d', .ok s') ∧
      Opened config d shelves d' s' older active := by
  rcases @Rested.open _ _ _ h hcolony now_ms (fun _ => true) .Whole (fun n hn => by cases hn) true with ⟨hwhy, -⟩ | ⟨s', older, active, hok, hopened⟩
  · rcases hwhy with ⟨k, hk⟩ | hc | hs
    · cases hk
    · cases hc
    · cases hs
  · exact ⟨_, s', older, active, Prod.ext rfl hok, hopened⟩

theorem run_accumulates (hcolony : config.colony_hash.length = 16) {x x' : Later} {later : List (Record × Int)}
    (hrun : Run (Appends config) x later x') (h : Accumulates config x) : Accumulates config x' :=
  hrun.inv (fun _ _ _ _ ha hstep => ha.step hcolony hstep) h

/-- What was added is read back. -/
theorem Accumulates.reads (hcolony : config.colony_hash.length = 16) {x : Later} (h : Accumulates config x) {p : Nat × Record}
    (hp : p ∈ x.added) (hthere : (x.disk.segment p.1).isSome) : Shows x.disk x.spool p.2 ∧ ∀ now_ms, ∃ d' s',
      open_spool config x.disk now_ms (fun _ => true) .Whole true = (d', .ok s') ∧ Shows d' s' p.2 := by
  obtain ⟨hhoused, hadded⟩ := h
  rename_i older' sealed' active'
  obtain ⟨hplaced, hbehind, hfile⟩ := hadded p hp
  obtain ⟨f, hf⟩ := Option.isSome_iff_exists.1 hthere
  obtain ⟨sh, hsh, hfiled⟩ := hhoused.stocked.shelf (List.mem_of_find?_eq_some hf)
  have hordinal : sh.ordinal = p.1 := by
    rw [← hfiled.ordinal]
    simpa using List.find?_some hf
  obtain ⟨hr, hlisted⟩ := hplaced.listed sh hsh hordinal
  refine ⟨hhoused.shows hcolony (mem_on_shelves hlisted hr) hbehind, fun now_ms => ?_⟩
  obtain ⟨d', s', older'', active'', hopen, hopened⟩ := hhoused.toRested.reopens hcolony now_ms
  refine ⟨d', s', hopen, hopened.housed.shows hcolony ?_ (fun c hc => ?_)⟩
  · rw [hopened.records]
    exact mem_on_shelves hsh hr
  · rw [hopened.committed] at hc
    exact hfile c hc

/-- What is appended to a housed spool is read back. -/
theorem Housed.readable {d : Disk} {s : DiskSpool} {older sealed : List Shelf} {active : Shelf} (h : Housed config d s older sealed active)
    (hcolony : config.colony_hash.length = 16) : Readable config d s := by
  intro later x hrun p hp hthere
  have hstart : Accumulates config { disk := d, spool := s } := .intro h (fun q hq => by cases hq)
  exact (run_accumulates hcolony hrun hstart).reads hcolony hp hthere

end

end Ambush.Bridge

import Ambush.Bridge.Parked
import Ambush.Lib.Runs
/-!
# The rotation of the dead-letter

Each idle tick serves the oldest due record of the dead-letter. One that is refused gets a new stamp; one that stalls keeps its stamp and is
held out until a tick finds nothing else due, which ends the pass. A record that is served twice meets every other due one in between,
unless it comes due again before its pass ends.
-/
open Lib

namespace Ambush.Bridge

/-- What came of serving a record. -/
inductive Attempt where
  | Landed | Discarded | Refused | Stalled | Unreadable
  deriving DecidableEq

structure IdleTick where
  now_ms : Int
  attempt : Attempt
  deriving DecidableEq

/-- The dead-letter, what is held out of the pass, and what the clock last said. -/
structure Rotation where
  parked : ParkedLedger
  stalled : Finset ParkKey
  clock : Int

namespace Rotation

def due (s : Rotation) (now_ms : Int) : Option ParkedRecord := s.parked.next_due now_ms PARKED_RETRY_INTERVAL_MS s.stalled

def retry_parked (s : Rotation) (t : IdleTick) : Rotation :=
  match s.due t.now_ms with
  | none => { s with stalled := ∅, clock := t.now_ms }
  | some due =>
    match t.attempt with
    | .Landed | .Discarded => { s with parked := s.parked.remove due.key, clock := t.now_ms }
    | .Refused => { s with parked := s.parked.touch due.key t.now_ms, clock := t.now_ms }
    | .Stalled => { s with stalled := insert due.key s.stalled, clock := t.now_ms }
    | .Unreadable => { s with parked := s.parked.mark_unreadable due.key, clock := t.now_ms }

/-- The state after a run of idle ticks. -/
def after (s : Rotation) (ticks : List IdleTick) : Rotation := ticks.foldl retry_parked s

def serves (s : Rotation) (t : IdleTick) (k : ParkKey) : Prop := (s.due t.now_ms).map ParkedRecord.key = some k

/-- One of the ticks serves the record. -/
def served (k : ParkKey) : Rotation → List IdleTick → Prop
  | _, [] => False
  | s, t :: ts => s.serves t k ∨ served k (s.retry_parked t) ts

/-- One of the ticks ends the pass. -/
def cleared : Rotation → List IdleTick → Prop
  | _, [] => False
  | s, t :: ts => s.due t.now_ms = none ∨ cleared (s.retry_parked t) ts

/-- Between two services of a record every other readable one that was due at the first, and still is there, is served. -/
def Rotates (s : Rotation) (ticks : List IdleTick) : Prop :=
  ∀ past first between second rest, ticks = past ++ first :: (between ++ second :: rest) →
    ∀ a b, b ≠ a → (s.after past).serves first a → (s.after (past ++ first :: between)).serves second a →
      (∃ r ∈ (s.after past).parked, r.key = b ∧ r.unreadable = false ∧ r.is_due first.now_ms PARKED_RETRY_INTERVAL_MS = true) →
      b ∈ (s.after (past ++ first :: between)).parked.map ParkedRecord.key → served b (s.after (past ++ [first])) between

/-- No record is refused while another one of the ledger is held out, and served again before the pass ends. -/
def NoneTwiceInAPass (s : Rotation) (ticks : List IdleTick) : Prop :=
  ∀ past first between second rest, ticks = past ++ first :: (between ++ second :: rest) →
    ∀ a, (s.after past).serves first a → first.attempt = .Refused → (∃ r ∈ (s.after past).parked, r.key ∈ (s.after past).stalled) →
      (s.after (past ++ first :: between)).serves second a → cleared (s.after (past ++ [first])) between

/-! ## Who is served -/

/-- A comes before B in the order of service. -/
def before (l : ParkedLedger) (a b : ParkedRecord) : Prop :=
  a.parked_at_ms < b.parked_at_ms ∨ a.parked_at_ms = b.parked_at_ms ∧ [a, b].Sublist l

variable {s : Rotation} {t : IdleTick} {a b r m : ParkedRecord} {k : ParkKey} {l l' : ParkedLedger}

theorem not_before_swap (h : l.OneEntryEach) (hab : before l a b) : ¬ before l b a := by
  rintro (hba | ⟨heq, hba⟩)
  · rcases hab with hab | ⟨heq, -⟩
    · exact lt_asymm hab hba
    · exact absurd hba (heq ▸ lt_irrefl _)
  · rcases hab with hab | ⟨-, hab⟩
    · exact absurd hab (heq ▸ lt_irrefl _)
    · exact not_sublist_swap (List.Nodup.of_map _ h.keys) hab hba

theorem before_changed (h : l.ChangedAt k l') (ha : a.key ≠ k) (hb : b.key ≠ k) (hab : before l a b) : before l' a b := by
  rcases hab with hlt | ⟨heq, hsub⟩
  · exact .inl hlt
  · refine .inr ⟨heq, h.kept _ hsub (fun x hx => ?_)⟩
    rcases List.mem_cons.1 hx with rfl | hx
    · exact ha
    · rw [List.mem_singleton.1 hx]
      exact hb

theorem mem_candidates {now_ms interval_ms : Int} {skip : Finset ParkKey} :
    r ∈ ParkedLedger.candidates l now_ms interval_ms skip ↔
      r ∈ l ∧ r.unreadable = false ∧ r.key ∉ skip ∧ r.is_due now_ms interval_ms = true := by
  unfold ParkedLedger.candidates
  simp only [List.mem_filter, Bool.and_eq_true, Bool.not_eq_true', decide_eq_true_eq, and_assoc]

/-- The record that is served may be, and comes before every other one that may be. -/
theorem due_spec {now_ms : Int} (h : s.due now_ms = some m) :
    m ∈ ParkedLedger.candidates s.parked now_ms PARKED_RETRY_INTERVAL_MS s.stalled ∧
      ∀ r ∈ ParkedLedger.candidates s.parked now_ms PARKED_RETRY_INTERVAL_MS s.stalled, r.key ≠ m.key → before s.parked m r := by
  obtain ⟨front, back, hsplit, hfront, hback⟩ := argmin_split h
  rw [hsplit]
  refine ⟨by simp, fun r hr hne => ?_⟩
  rcases List.mem_append.1 hr with hr | hr
  · exact .inl (hfront r hr)
  · rcases List.mem_cons.1 hr with rfl | hr
    · exact absurd rfl hne
    · rcases (hback r hr).lt_or_eq with hlt | heq
      · exact .inl hlt
      · refine .inr ⟨heq, ?_⟩
        have hsub : [m, r].Sublist (ParkedLedger.candidates s.parked now_ms PARKED_RETRY_INTERVAL_MS s.stalled) := by
          rw [hsplit]
          exact ((List.singleton_sublist.2 hr).cons_cons m).trans (List.sublist_append_right _ _)
        exact hsub.trans List.filter_sublist

theorem due_none {now_ms : Int} (h : s.due now_ms = none) (hr : r ∈ s.parked) (hread : r.unreadable = false)
    (hdue : r.is_due now_ms PARKED_RETRY_INTERVAL_MS = true) : r.key ∈ s.stalled := by
  by_contra hfree
  have hmem := mem_candidates.2 ⟨hr, hread, hfree, hdue⟩
  rw [List.argmin_eq_none.1 h] at hmem
  cases hmem

theorem is_due_mono {now_ms later interval_ms : Int} (hle : now_ms ≤ later) (h : r.is_due now_ms interval_ms = true) :
    r.is_due later interval_ms = true :=
  decide_eq_true ((of_decide_eq_true h).trans hle)

/-- A record that is due was stamped before now. -/
theorem stamp_of_due {now_ms : Int} (hrange : now_ms < i64Max) (h : r.is_due now_ms PARKED_RETRY_INTERVAL_MS = true) :
    r.parked_at_ms < now_ms := by
  have hle := of_decide_eq_true h
  unfold satAddI PARKED_RETRY_INTERVAL_MS at hle
  omega

theorem stamp_of_not_due {now_ms : Int} (ha : a.is_due now_ms PARKED_RETRY_INTERVAL_MS = true)
    (hb : b.is_due now_ms PARKED_RETRY_INTERVAL_MS = false) : a.parked_at_ms < b.parked_at_ms := by
  have hle := of_decide_eq_true ha
  have hlt := of_decide_eq_false hb
  unfold satAddI PARKED_RETRY_INTERVAL_MS at hle hlt
  omega

/-! ## What a tick changes -/

theorem retry_clock (s : Rotation) (t : IdleTick) : (s.retry_parked t).clock = t.now_ms := by
  unfold retry_parked
  split
  · rfl
  · split <;> rfl

/-- A tick changes the ledger at the record it serves, and holds out no other. -/
theorem retry_served (h : s.due t.now_ms = some m) :
    s.parked.ChangedAt m.key (s.retry_parked t).parked ∧ s.stalled ⊆ (s.retry_parked t).stalled ∧
      ∀ k ∈ (s.retry_parked t).stalled, k ∈ s.stalled ∨ k = m.key := by
  unfold retry_parked
  rw [h]
  dsimp only
  split
  · exact ⟨ParkedLedger.changed_remove _ _, subset_rfl, fun k hk => .inl hk⟩
  · exact ⟨ParkedLedger.changed_remove _ _, subset_rfl, fun k hk => .inl hk⟩
  · exact ⟨ParkedLedger.changed_touch _ _ _, subset_rfl, fun k hk => .inl hk⟩
  · refine ⟨.refl _ _, Finset.subset_insert _ _, fun k hk => ?_⟩
    exact (Finset.mem_insert.1 hk).symm
  · exact ⟨ParkedLedger.changed_mark_unreadable _ _, subset_rfl, fun k hk => .inl hk⟩

theorem retry_idle (h : s.due t.now_ms = none) : s.retry_parked t = { s with stalled := ∅, clock := t.now_ms } := by
  unfold retry_parked
  rw [h]

theorem one_entry_retry (h : s.parked.OneEntryEach) (t : IdleTick) : (s.retry_parked t).parked.OneEntryEach := by
  unfold retry_parked
  split
  · exact h
  · split
    · exact ParkedLedger.one_entry_remove h _
    · exact ParkedLedger.one_entry_remove h _
    · exact ParkedLedger.one_entry_touch h _ _
    · exact h
    · exact ParkedLedger.one_entry_mark_unreadable h _

/-! ## The records that are held out -/

/-- The held out records are readable and due, and come before the others. -/
structure Settled (s : Rotation) : Prop where
  distinct : s.parked.OneEntryEach
  held : ∀ r ∈ s.parked, r.key ∈ s.stalled → r.unreadable = false ∧ r.is_due s.clock PARKED_RETRY_INTERVAL_MS = true
  first : ∀ b ∈ s.parked, ∀ a ∈ s.parked, b.key ∈ s.stalled → a.key ∉ s.stalled → a.unreadable = false → before s.parked b a

theorem settled_fresh (h : l.OneEntryEach) (clock : Int) : Settled ⟨l, ∅, clock⟩ where
  distinct := h
  held _ _ hr := absurd hr (Finset.notMem_empty _)
  first _ _ _ _ hb := absurd hb (Finset.notMem_empty _)

theorem settled_retry (h : Settled s) (hclock : s.clock ≤ t.now_ms) (hrange : t.now_ms < i64Max) : Settled (s.retry_parked t) := by
  cases hdue : s.due t.now_ms with
  | none =>
    rw [retry_idle hdue]
    exact settled_fresh h.distinct t.now_ms
  | some m =>
    obtain ⟨hm, horder⟩ := due_spec hdue
    obtain ⟨hmem, hread, hfree, hnow⟩ := mem_candidates.1 hm
    obtain ⟨hchanged, -, honly⟩ := retry_served hdue
    have hdistinct := one_entry_retry h.distinct t
    -- a record held out before is another one, and as it was
    have hheld : ∀ r ∈ (s.retry_parked t).parked, r.key ∈ s.stalled → r.key ≠ m.key ∧ r ∈ s.parked := fun r hr hout => by
      have hne : r.key ≠ m.key := fun heq => hfree (heq ▸ hout)
      exact ⟨hne, (hchanged.mem_iff hne).1 hr⟩
    by_cases hstall : t.attempt = .Stalled
    · have hstate : s.retry_parked t = { s with stalled := insert m.key s.stalled, clock := t.now_ms } := by
        unfold retry_parked
        rw [hdue, hstall]
      rw [hstate]
      refine ⟨h.distinct, fun r hr hout => ?_, fun b hb a ha hout hin ha' => ?_⟩
      · rcases Finset.mem_insert.1 hout with heq | hout
        · rw [h.distinct.eq_of_key hr hmem heq]
          exact ⟨hread, hnow⟩
        · exact ⟨(h.held r hr hout).1, is_due_mono hclock (h.held r hr hout).2⟩
      · have hne : a.key ≠ m.key := fun heq => hin (heq ▸ Finset.mem_insert_self _ _)
        have hin' : a.key ∉ s.stalled := fun hout => hin (Finset.mem_insert_of_mem hout)
        rcases Finset.mem_insert.1 hout with heq | hout
        · rw [h.distinct.eq_of_key hb hmem heq]
          cases hadue : a.is_due t.now_ms PARKED_RETRY_INTERVAL_MS with
          | true => exact horder a (mem_candidates.2 ⟨ha, ha', hin', hadue⟩) hne
          | false => exact .inl (stamp_of_not_due hnow hadue)
        · exact h.first b hb a ha hout hin' ha'
    · have hsame : (s.retry_parked t).stalled = s.stalled := by
        unfold retry_parked
        rw [hdue]
        dsimp only
        split
        · rfl
        · rfl
        · rfl
        · next hs => exact absurd hs hstall
        · rfl
      refine ⟨hdistinct, fun r hr hout => ?_, fun b hb a ha hout hin ha' => ?_⟩
      · rw [hsame] at hout
        rw [retry_clock]
        have hrs := (hheld r hr hout).2
        exact ⟨(h.held r hrs hout).1, is_due_mono hclock (h.held r hrs hout).2⟩
      · rw [hsame] at hout hin
        obtain ⟨hbne, hbs⟩ := hheld b hb hout
        by_cases hane : a.key = m.key
        · -- the record that is served: it is there still, readable, with the stamp of now
          refine .inl (lt_of_lt_of_eq (stamp_of_due hrange (is_due_mono hclock (h.held b hbs hout).2)) ?_)
          revert ha
          unfold retry_parked
          rw [hdue]
          dsimp only
          split
          · exact fun ha => absurd hane (of_decide_eq_true (List.mem_filter.1 ha).2)
          · exact fun ha => absurd hane (of_decide_eq_true (List.mem_filter.1 ha).2)
          · exact fun ha => (ParkedLedger.stamp_of_touch h.distinct ha hane).symm
          · next hs => exact absurd hs hstall
          · intro ha
            rw [ParkedLedger.unreadable_of_mark h.distinct ha hane] at ha'
            cases ha'
        · have has := (hchanged.mem_iff hane).1 ha
          exact before_changed hchanged hbne hane (h.first b hbs a has hout hin ha')

/-- A record that is parked now is the last to come, behind all that is due. -/
theorem settled_park (h : Settled s) {record : ParkedRecord} (hclock : s.clock ≤ record.parked_at_ms) (hrange : record.parked_at_ms < i64Max)
    (hnew : record.key ∉ s.stalled) : Settled ⟨(s.parked.park record).1, s.stalled, record.parked_at_ms⟩ := by
  have hsub := ParkedLedger.park_sublist s.parked record
  have hold : ∀ r ∈ (s.parked.park record).1, r ∈ s.parked ∨ r = record := fun r hr => by
    rcases List.mem_append.1 (hsub.subset hr) with hr | hr
    · exact .inl ((ParkedLedger.others_sublist _ _).subset hr)
    · exact .inr (List.mem_singleton.1 hr)
  have hheld : ∀ r ∈ (s.parked.park record).1, r.key ∈ s.stalled → r ∈ s.parked := fun r hr hout => by
    rcases hold r hr with hr | rfl
    · exact hr
    · exact absurd hout hnew
  refine ⟨ParkedLedger.one_entry_park h.distinct record, fun r hr hout => ?_, fun b hb a ha hout hin ha' => ?_⟩
  · have hrs := hheld r hr hout
    exact ⟨(h.held r hrs hout).1, is_due_mono hclock (h.held r hrs hout).2⟩
  · have hbs := hheld b hb hout
    by_cases hself : a = record
    · subst hself
      exact .inl (stamp_of_due hrange (is_due_mono hclock (h.held b hbs hout).2))
    · have has := (hold a ha).resolve_right hself
      rcases h.first b hbs a has hout hin ha' with hlt | ⟨heq, horder⟩
      · exact .inl hlt
      · refine .inr ⟨heq, ParkedLedger.sublist_park h.distinct horder (fun x hx => ?_)⟩
        rcases List.mem_cons.1 hx with rfl | hx
        · exact ⟨fun heq => hnew (heq ▸ hout), hb⟩
        · rw [List.mem_singleton.1 hx]
          exact ⟨hself, ha⟩

/-! ## Whose turn it is -/

/-- The clock of a run of ticks does not go back, and is not at its end. -/
structure Forward (s : Rotation) (ticks : List IdleTick) : Prop where
  clock : (s.clock :: ticks.map IdleTick.now_ms).Pairwise (· ≤ ·)
  range : ∀ t ∈ ticks, t.now_ms < i64Max

theorem Forward.head {ticks : List IdleTick} (h : Forward s (t :: ticks)) : s.clock ≤ t.now_ms ∧ t.now_ms < i64Max :=
  ⟨(List.pairwise_cons.1 h.clock).1 _ (by simp), h.range t (by simp)⟩

theorem Forward.tail {ticks : List IdleTick} (h : Forward s (t :: ticks)) : Forward (s.retry_parked t) ticks where
  clock := by
    rw [retry_clock]
    exact (List.pairwise_cons.1 h.clock).2
  range u hu := h.range u (List.mem_cons_of_mem _ hu)

theorem Forward.drop {past ticks : List IdleTick} (h : Forward s (past ++ ticks)) (hs : Settled s) :
    Forward (s.after past) ticks ∧ Settled (s.after past) := by
  induction past generalizing s with
  | nil => exact ⟨h, hs⟩
  | cons t past ih => exact ih h.tail (settled_retry hs h.head.1 h.head.2)

theorem Forward.take {past ticks : List IdleTick} (h : Forward s (past ++ ticks)) : Forward s past where
  clock := by
    have hclock := h.clock
    rw [List.map_append, ← List.cons_append] at hclock
    exact (List.pairwise_append.1 hclock).1
  range t ht := h.range t (List.mem_append_left _ ht)

/-- If A is served now then B was, unless B is held out. -/
def Owed (s : Rotation) (a b : ParkKey) : Prop :=
  ∀ rb ∈ s.parked, rb.key = b → rb.unreadable = false ∧ rb.is_due s.clock PARKED_RETRY_INTERVAL_MS = true ∧
    ∀ ra ∈ s.parked, ra.key = a → ra.unreadable = false → (b ∉ s.stalled ∧ a ∈ s.stalled) ∨ before s.parked rb ra

variable {x y : ParkKey}

theorem serves_iff : s.serves t k ↔ ∃ m, s.due t.now_ms = some m ∧ m.key = k := Option.map_eq_some_iff

/-- A service of A leaves B owed. -/
theorem owed_of_serves (h : Settled s) (hrange : t.now_ms < i64Max) (hserves : s.serves t x) (hne : y ≠ x)
    (hdue : ∀ rb ∈ s.parked, rb.key = y → rb.unreadable = false ∧ rb.is_due t.now_ms PARKED_RETRY_INTERVAL_MS = true) :
    Owed (s.retry_parked t) x y := by
  obtain ⟨m, hm, rfl⟩ := serves_iff.1 hserves
  obtain ⟨hmem, hread, hfree, hnow⟩ := mem_candidates.1 (due_spec hm).1
  obtain ⟨hchanged, -, -⟩ := retry_served hm
  intro rb hrb hrby
  have hrbs : rb ∈ s.parked := (hchanged.mem_iff (hrby ▸ hne)).1 hrb
  rw [retry_clock]
  refine ⟨(hdue rb hrbs hrby).1, (hdue rb hrbs hrby).2, ?_⟩
  unfold retry_parked
  rw [hm]
  dsimp only
  intro ra hra hrax hra'
  cases hattempt : t.attempt with
  | Landed =>
    simp only [hattempt] at hra
    exact absurd hrax (of_decide_eq_true (List.mem_filter.1 hra).2)
  | Discarded =>
    simp only [hattempt] at hra
    exact absurd hrax (of_decide_eq_true (List.mem_filter.1 hra).2)
  | Refused =>
    simp only [hattempt] at hra
    exact .inr (.inl (lt_of_lt_of_eq (stamp_of_due hrange (hdue rb hrbs hrby).2) (ParkedLedger.stamp_of_touch h.distinct hra hrax).symm))
  | Unreadable =>
    simp only [hattempt] at hra
    rw [ParkedLedger.unreadable_of_mark h.distinct hra hrax] at hra'
    cases hra'
  | Stalled =>
    simp only [hattempt] at hra ⊢
    by_cases hout : y ∈ s.stalled
    · refine .inr (h.first rb hrbs ra hra (hrby ▸ hout) ?_ hra')
      rw [hrax]
      exact hfree
    · refine .inl ⟨fun hin => ?_, Finset.mem_insert_self _ _⟩
      rcases Finset.mem_insert.1 hin with heq | hin
      · exact hne heq
      · exact hout hin

/-- A tick that serves neither leaves B owed. -/
theorem owed_retry (hclock : s.clock ≤ t.now_ms) (hx : ¬ s.serves t x) (hy : ¬ s.serves t y) (howed : Owed s x y) :
    Owed (s.retry_parked t) x y := by
  cases hdue : s.due t.now_ms with
  | none =>
    rw [retry_idle hdue]
    intro rb hrb hrby
    obtain ⟨hread, hwas, horder⟩ := howed rb hrb hrby
    have hnow := is_due_mono hclock hwas
    refine ⟨hread, hnow, fun ra hra hrax hra' => .inr ?_⟩
    have hout := due_none hdue hrb hread hnow
    exact (horder ra hra hrax hra').resolve_left fun hin => hin.1 (hrby ▸ hout)
  | some m =>
    have hmx : x ≠ m.key := fun heq => hx (serves_iff.2 ⟨m, hdue, heq.symm⟩)
    have hmy : y ≠ m.key := fun heq => hy (serves_iff.2 ⟨m, hdue, heq.symm⟩)
    obtain ⟨hchanged, hmore, honly⟩ := retry_served hdue
    intro rb hrb hrby
    have hrbs : rb ∈ s.parked := (hchanged.mem_iff (hrby ▸ hmy)).1 hrb
    obtain ⟨hread, hwas, horder⟩ := howed rb hrbs hrby
    rw [retry_clock]
    refine ⟨hread, is_due_mono hclock hwas, fun ra hra hrax hra' => ?_⟩
    have hras : ra ∈ s.parked := (hchanged.mem_iff (hrax ▸ hmx)).1 hra
    rcases horder ra hras hrax hra' with ⟨hin, hout⟩ | hbefore
    · refine .inl ⟨fun hin' => ?_, hmore hout⟩
      rcases honly y hin' with hin' | heq
      · exact hin hin'
      · exact hmy heq
    · exact .inr (before_changed hchanged (hrby ▸ hmy) (hrax ▸ hmx) hbefore)

theorem owed_after {ticks : List IdleTick} (h : Settled s) (hforward : Forward s ticks) (hx : ¬ served x s ticks) (hy : ¬ served y s ticks)
    (howed : Owed s x y) : Owed (s.after ticks) x y := by
  induction ticks generalizing s with
  | nil => exact howed
  | cons t ticks ih =>
    obtain ⟨hclock, hrange⟩ := hforward.head
    refine ih (settled_retry h hclock hrange) hforward.tail (fun hs => hx (.inr hs)) (fun hs => hy (.inr hs)) ?_
    exact owed_retry hclock (fun hs => hx (.inl hs)) (fun hs => hy (.inl hs)) howed

/-- When A is served while B is owed, B is held out. -/
theorem held_of_owed (h : Settled s) (hclock : s.clock ≤ t.now_ms) (howed : Owed s x y) (hne : y ≠ x) (hserves : s.serves t x)
    (hthere : y ∈ s.parked.map ParkedRecord.key) : y ∈ s.stalled := by
  obtain ⟨m, hm, rfl⟩ := serves_iff.1 hserves
  obtain ⟨hcandidate, horder⟩ := due_spec hm
  obtain ⟨hmem, hread, hfree, -⟩ := mem_candidates.1 hcandidate
  obtain ⟨rb, hrb, rfl⟩ := List.mem_map.1 hthere
  obtain ⟨hrb', hwas, hbetween⟩ := howed rb hrb rfl
  by_contra hin
  rcases hbetween m hmem rfl hread with ⟨-, hout⟩ | hbefore
  · exact hfree hout
  · exact not_before_swap h.distinct hbefore (horder rb (mem_candidates.2 ⟨hrb, hrb', hin, is_due_mono hclock hwas⟩) hne)

/-! ## Within a pass -/

variable {ticks more : List IdleTick}

theorem after_append (s : Rotation) (ticks more : List IdleTick) : s.after (ticks ++ more) = (s.after ticks).after more := List.foldl_append

theorem served_append : served k s (ticks ++ more) ↔ served k s ticks ∨ served k (s.after ticks) more := by
  induction ticks generalizing s with
  | nil => exact Iff.of_eq (false_or _).symm
  | cons t ticks ih => exact (or_congr_right ih).trans or_assoc.symm

theorem served_split (h : served k s ticks) :
    ∃ front t back, ticks = front ++ t :: back ∧ (s.after front).serves t k ∧ ¬ served k s front := by
  induction ticks generalizing s with
  | nil => cases h
  | cons t ticks ih =>
    by_cases hnow : s.serves t k
    · exact ⟨[], t, ticks, rfl, hnow, id⟩
    · obtain ⟨front, u, back, rfl, hserves, hnot⟩ := ih (h.resolve_left hnow)
      exact ⟨t :: front, u, back, rfl, hserves, fun hs => hs.elim hnow hnot⟩

/-- What is held out at the end, and was not served, was held out from the start, in one pass. -/
theorem held_after (hheld : k ∈ (s.after ticks).stalled) (hnot : ¬ served k s ticks) : k ∈ s.stalled ∧ ¬ cleared s ticks := by
  induction ticks generalizing s with
  | nil => exact ⟨hheld, id⟩
  | cons t ticks ih =>
    obtain ⟨hin, hpass⟩ := ih hheld (fun hs => hnot (.inr hs))
    cases hdue : s.due t.now_ms with
    | none =>
      rw [retry_idle hdue] at hin
      exact absurd hin (Finset.notMem_empty _)
    | some m =>
      refine ⟨?_, fun hclear => ?_⟩
      · rcases (retry_served hdue).2.2 k hin with hin | heq
        · exact hin
        · exact absurd (.inl (serves_iff.2 ⟨m, hdue, heq.symm⟩)) hnot
      · rcases hclear with hnone | hclear
        · rw [hdue] at hnone
          cases hnone
        · exact hpass hclear

/-- In one pass nothing that is held out is let in. -/
theorem held_in_pass (hheld : k ∈ s.stalled) (hpass : ¬ cleared s ticks) : k ∈ (s.after ticks).stalled ∧ ¬ served k s ticks := by
  induction ticks generalizing s with
  | nil => exact ⟨hheld, id⟩
  | cons t ticks ih =>
    cases hdue : s.due t.now_ms with
    | none => exact absurd (.inl hdue) hpass
    | some m =>
      obtain ⟨hin, hnot⟩ := ih ((retry_served hdue).2.1 hheld) (fun hc => hpass (.inr hc))
      refine ⟨hin, fun hs => hs.elim (fun hserves => ?_) hnot⟩
      obtain ⟨m', hm', rfl⟩ := serves_iff.1 hserves
      exact (mem_candidates.1 (due_spec hm').1).2.2.1 hheld

theorem parked_after (hnot : ¬ served k s ticks) (hr : r.key = k) : r ∈ (s.after ticks).parked ↔ r ∈ s.parked := by
  induction ticks generalizing s with
  | nil => rfl
  | cons t ticks ih =>
    refine (ih (fun hs => hnot (.inr hs))).trans ?_
    cases hdue : s.due t.now_ms with
    | none => rw [retry_idle hdue]
    | some m => exact (retry_served hdue).1.mem_iff fun heq => hnot (.inl (serves_iff.2 ⟨m, hdue, heq.symm.trans hr⟩))

/-- No readable record has the key. -/
def Gone (s : Rotation) (k : ParkKey) : Prop := ∀ r ∈ s.parked, r.key = k → r.unreadable = true

theorem not_serves_of_gone (h : Gone s k) : ¬ s.serves t k := fun hserves => by
  obtain ⟨m, hm, rfl⟩ := serves_iff.1 hserves
  obtain ⟨hmem, hread, -⟩ := mem_candidates.1 (due_spec hm).1
  rw [h m hmem rfl] at hread
  cases hread

theorem gone_after (h : Gone s k) : Gone (s.after ticks) k := by
  induction ticks generalizing s with
  | nil => exact h
  | cons t ticks ih =>
    refine ih fun r hr hrk => ?_
    cases hdue : s.due t.now_ms with
    | none =>
      rw [retry_idle hdue] at hr
      exact h r hr hrk
    | some m =>
      have hne : r.key ≠ m.key := fun heq => not_serves_of_gone h (serves_iff.2 ⟨m, hdue, heq.symm.trans hrk⟩)
      exact h r (((retry_served hdue).1.mem_iff hne).1 hr) hrk

/-- A record that is served and then served again was refused, if it stayed in its pass. -/
theorem refused_of_twice (h : s.parked.OneEntryEach) (hserves : s.serves t k) (hpass : ¬ cleared (s.retry_parked t) ticks) {u : IdleTick}
    (hagain : ((s.retry_parked t).after ticks).serves u k) : t.attempt = .Refused := by
  obtain ⟨m, hm, rfl⟩ := serves_iff.1 hserves
  have hgone : ¬ Gone (s.retry_parked t) m.key := fun hg => not_serves_of_gone (gone_after hg) hagain
  have hremoved : (s.retry_parked t).parked = s.parked.remove m.key → Gone (s.retry_parked t) m.key := fun hstate r hr hrk => by
    rw [hstate] at hr
    exact absurd hrk (of_decide_eq_true (List.mem_filter.1 hr).2)
  cases hattempt : t.attempt with
  | Refused => rfl
  | Landed =>
    refine absurd (hremoved ?_) hgone
    unfold retry_parked
    rw [hm, hattempt]
  | Discarded =>
    refine absurd (hremoved ?_) hgone
    unfold retry_parked
    rw [hm, hattempt]
  | Unreadable =>
    have hstate : (s.retry_parked t).parked = s.parked.mark_unreadable m.key := by
      unfold retry_parked
      rw [hm, hattempt]
    refine absurd (fun r hr hrk => ?_) hgone
    rw [hstate] at hr
    exact ParkedLedger.unreadable_of_mark h hr hrk
  | Stalled =>
    have hin : m.key ∈ (s.retry_parked t).stalled := by
      unfold retry_parked
      rw [hm, hattempt]
      exact Finset.mem_insert_self _ _
    obtain ⟨m', hm', hkey⟩ := serves_iff.1 hagain
    exact absurd (hkey ▸ (held_in_pass hin hpass).1) (mem_candidates.1 (due_spec hm').1).2.2.1

/-- B misses its turn between two services of A only where it is held out, and A was refused in the same pass. -/
theorem missed_turn (h : Settled s) {u : IdleTick} (hforward : Forward s (t :: (ticks ++ [u]))) (hne : y ≠ x) (hserves : s.serves t x)
    (hagain : ((s.retry_parked t).after ticks).serves u x) (hr : r ∈ s.parked) (hry : r.key = y) (hread : r.unreadable = false)
    (hdue : r.is_due t.now_ms PARKED_RETRY_INTERVAL_MS = true) (hx : ¬ served x (s.retry_parked t) ticks)
    (hy : ¬ served y (s.retry_parked t) ticks) :
    t.attempt = .Refused ∧ r.key ∈ s.stalled ∧ ¬ cleared (s.retry_parked t) ticks := by
  obtain ⟨hclock, hrange⟩ := hforward.head
  have hsettled := settled_retry h hclock hrange
  have hry' : r ∈ (s.retry_parked t).parked := by
    obtain ⟨m, hm, hmx⟩ := serves_iff.1 hserves
    exact ((retry_served hm).1.mem_iff fun heq => hne (hry.symm.trans (heq.trans hmx))).2 hr
  have howed : Owed (s.retry_parked t) x y := owed_of_serves h hrange hserves hne fun rb hrb hrby => by
    rw [h.distinct.eq_of_key hrb hr (hrby.trans hry.symm)]
    exact ⟨hread, hdue⟩
  obtain ⟨hlast, hsettled'⟩ := hforward.tail.drop hsettled
  have hheld := held_of_owed hsettled' hlast.head.1 (owed_after hsettled hforward.tail.take hx hy howed) hne hagain
    (List.mem_map.2 ⟨r, (parked_after hy hry).2 hry', hry⟩)
  obtain ⟨hout, hpass⟩ := held_after hheld hy
  refine ⟨refused_of_twice h.distinct hserves hpass hagain, ?_, hpass⟩
  obtain ⟨m, hm, rfl⟩ := serves_iff.1 hserves
  exact hry ▸ ((retry_served hm).2.2 y hout).resolve_right hne

/-! ## Over a run of idle ticks -/

/-- What happens to the dead-letter: an idle tick, or the head of the spool is parked, which this drainer has not parked before. -/
inductive Turn where
  | park (record : ParkedRecord)
  | idle (t : IdleTick)

def Turns (s : Rotation) : Turn → Rotation → Prop
  | .park record, s' => s.clock ≤ record.parked_at_ms ∧ record.parked_at_ms < i64Max ∧ record.key ∉ s.stalled ∧
      s' = ⟨(s.parked.park record).1, s.stalled, record.parked_at_ms⟩
  | .idle t, s' => s.clock ≤ t.now_ms ∧ t.now_ms < i64Max ∧ s' = s.retry_parked t

theorem settled_run {life : List Turn} {clock : Int} (hl : l.OneEntryEach) (h : Run Turns ⟨l, ∅, clock⟩ life s) : Settled s := by
  refine h.inv (fun s turn s' _ hs hturn => ?_) (settled_fresh hl clock)
  cases turn with
  | park record =>
    obtain ⟨hclock, hrange, hnew, rfl⟩ := hturn
    exact settled_park hs hclock hrange hnew
  | idle t =>
    obtain ⟨hclock, hrange, rfl⟩ := hturn
    exact settled_retry hs hclock hrange

theorem rotates_iff (h : Settled s) (hforward : Forward s ticks) : Rotates s ticks ↔ NoneTwiceInAPass s ticks := by
  constructor
  · rintro hrotates past first between second rest rfl a hserves hrefused ⟨r, hr, hheld⟩ hagain
    obtain ⟨hforward, hsettled⟩ := hforward.drop h
    have hturn := hrotates past first between second rest rfl a r.key
    rw [after_append] at hagain hturn ⊢
    rw [after_append] at hturn
    by_contra hpass
    obtain ⟨m, hm, rfl⟩ := serves_iff.1 hserves
    have hne : r.key ≠ m.key := fun heq => (mem_candidates.1 (due_spec hm).1).2.2.1 (heq ▸ hheld)
    obtain ⟨hin, hnot⟩ := held_in_pass ((retry_served hm).2.1 hheld) hpass
    have hthere : r ∈ (((s.after past).retry_parked first).after between).parked :=
      (parked_after hnot rfl).2 (((retry_served hm).1.mem_iff hne).2 hr)
    refine hnot (hturn hne hserves hagain ⟨r, hr, rfl, (hsettled.held r hr hheld).1, ?_⟩ (List.mem_map_of_mem hthere))
    exact is_due_mono hforward.head.1 (hsettled.held r hr hheld).2
  · rintro hnone past first between second rest rfl a b hne hserves hagain ⟨r, hr, hrb, hread, hdue⟩ hthere
    obtain ⟨hforward, hsettled⟩ := hforward.drop h
    rw [after_append] at hagain hthere ⊢
    by_contra hmissed
    have hshort : ∀ {mid : List IdleTick} {u : IdleTick} {back : List IdleTick}, between ++ second :: rest = mid ++ u :: back →
        (((s.after past).retry_parked first).after mid).serves u a → ¬ served a ((s.after past).retry_parked first) mid →
        ¬ served b ((s.after past).retry_parked first) mid → False := by
      intro mid u back hsplit hu ha hb
      have hforward' : Forward (s.after past) ((first :: (mid ++ [u])) ++ back) := by
        rw [hsplit] at hforward
        simpa using hforward
      obtain ⟨hrefused, hheld, hpass⟩ := missed_turn hsettled hforward'.take hne hserves hu hr hrb hread hdue ha hb
      have hcleared := hnone past first mid u back (by rw [hsplit]) a hserves hrefused ⟨r, hr, hheld⟩ (by rw [after_append]; exact hu)
      rw [after_append] at hcleared
      exact hpass hcleared
    by_cases hbefore : served a ((s.after past).retry_parked first) between
    · obtain ⟨front, u, back, rfl, hu, hfront⟩ := served_split hbefore
      exact hshort (List.append_assoc _ _ _) hu hfront (fun hs => hmissed (served_append.2 (.inl hs)))
    · exact hshort rfl hagain hbefore hmissed

def parked_at (seq : Seq) (parked_at_ms : Int) : ParkedRecord :=
  ⟨0, seq, [], parked_at_ms, 0, .RefusalBudgetExhausted "restricted", .Unknown, false⟩

instance decidableServed (k : ParkKey) : ∀ (s : Rotation) (ticks : List IdleTick), Decidable (served k s ticks)
  | _, [] => isFalse id
  | s, t :: ts =>
    haveI : Decidable (s.serves t k) := inferInstanceAs (Decidable (_ = _))
    haveI := decidableServed k (s.retry_parked t) ts
    inferInstanceAs (Decidable (_ ∨ _))

/-- Thirty-one records, each a second after the one before. -/
def crowd : ParkedLedger := (List.range 31).map (fun n => parked_at n n)

/-- A tick a second: the first record stalls, and every other one is refused. -/
def refusing (from_ms : Int) (n : Nat) : List IdleTick := (List.range n).map (fun i => ⟨from_ms + 1000 * i, .Refused⟩)

end Rotation
end Ambush.Bridge

import Ambush.Pheromone.Deposits
/-!
# What garbage collection shows

`gc_evaporated` drops each deposit whose strength is below the floor, markers among them.
A deposit that is live later was kept, so a query after a collection sees the same live
rows; it sees them with the markers that were left.
-/
open Lib

namespace Ambush.Pheromone
open Ambush.Bridge (ThreatClass)

variable {F : Type}

/-! ## The newest marker of an event -/

def newest_marker (deposits : List (PheromoneDeposit F)) (key : FeedbackSuppressionKey) : Option (PheromoneDeposit F) :=
  max_by_key (·.timestamp) (deposits.filter (fun deposit => (feedback_suppression_marker deposit).any (·.1 = key)))

theorem max_by_key_concat {α : Type} (key : α → Int) (l : List α) (x : α) :
    max_by_key key (l ++ [x]) = if (max_by_key key l).all (fun b => key b ≤ key x) then some x else max_by_key key l := by
  rw [max_by_key, List.foldl_concat]
  rfl

theorem mem_of_max_by_key {α : Type} {key : α → Int} {l : List α} {x : α} (h : max_by_key key l = some x) : x ∈ l := by
  induction l using List.reverseRecOn with
  | nil => cases h
  | append_singleton l y ih =>
    rw [max_by_key_concat] at h
    split at h
    · obtain rfl := Option.some.inj h
      exact List.mem_append_right _ (List.mem_singleton.2 rfl)
    · exact List.mem_append_left _ (ih h)

/-- What a marker says of its event, and when it was deposited. -/
def marker_state (marker : PheromoneDeposit F) : Option (FeedbackSuppressionState × Int) :=
  (feedback_suppression_marker marker).map (fun m => (m.2, marker.timestamp))

theorem marker_of_newest {deposits : List (PheromoneDeposit F)} {key : FeedbackSuppressionKey} {marker : PheromoneDeposit F}
    (h : newest_marker deposits key = some marker) : ∃ state, feedback_suppression_marker marker = some (key, state) := by
  have hmem := (List.mem_filter.1 (mem_of_max_by_key h)).2
  cases hm : feedback_suppression_marker marker with
  | none => rw [hm] at hmem; cases hmem
  | some found =>
    rw [hm] at hmem
    obtain ⟨key', state⟩ := found
    obtain rfl : key' = key := by simpa using hmem
    exact ⟨state, rfl⟩

theorem newest_marker_other {deposit : PheromoneDeposit F} {key : FeedbackSuppressionKey}
    (h : (feedback_suppression_marker deposit).any (·.1 = key) = false) (deposits : List (PheromoneDeposit F)) :
    newest_marker (deposits ++ [deposit]) key = newest_marker deposits key := by
  rw [newest_marker, List.filter_append, List.filter_singleton, h]
  exact congrArg _ (List.append_nil _)

theorem newest_marker_concat {deposit : PheromoneDeposit F} {key : FeedbackSuppressionKey}
    (h : (feedback_suppression_marker deposit).any (·.1 = key) = true) (deposits : List (PheromoneDeposit F)) :
    newest_marker (deposits ++ [deposit]) key =
      if (newest_marker deposits key).all (fun marker => marker.timestamp ≤ deposit.timestamp) then some deposit
      else newest_marker deposits key := by
  rw [newest_marker, List.filter_append, List.filter_singleton, h]
  exact max_by_key_concat _ _ _

/-- The table that is built marker by marker has the newest one under each key. -/
theorem latest_eq_newest (deposits : List (PheromoneDeposit F)) (key : FeedbackSuppressionKey) :
    latest_feedback_suppression_states deposits key = (newest_marker deposits key).bind marker_state := by
  induction deposits using List.reverseRecOn with
  | nil => rfl
  | append_singleton deposits deposit ih =>
    rw [latest_feedback_suppression_states, List.foldl_concat, ← latest_feedback_suppression_states]
    cases hm : feedback_suppression_marker deposit with
    | none => rw [newest_marker_other (by rw [hm]; rfl), ← ih]
    | some found =>
      obtain ⟨key', state⟩ := found
      by_cases hkey : key' = key
      · subst hkey
        rw [newest_marker_concat (by rw [hm]; simp)]
        simp only [ih]
        cases hn : newest_marker deposits key' with
        | none => simp [marker_state, hm]
        | some marker =>
          obtain ⟨state', hmarker⟩ := marker_of_newest hn
          rw [hn] at ih
          simp only [Option.bind_some, marker_state, hmarker, Option.map_some, Option.all_some] at ih ⊢
          split
          · simp [marker_state, hm]
          · simp [marker_state, ih, hmarker]
      · rw [newest_marker_other (by rw [hm]; simpa using hkey), ← ih]
        simp only
        split
        · rw [Map.insert_ne _ _ _ _ (Ne.symm hkey)]
        · rfl

theorem analyst_of_newest (deposits : List (PheromoneDeposit F)) (key : FeedbackSuppressionKey) :
    analyst_id_for_marker deposits key = (newest_marker deposits key).bind (fun marker => text marker.indicator "analyst_id") := rfl

/-- When and by whom `deposit` was dismissed, going by the newest of `markers` for its event. -/
def dismissal (markers : List (PheromoneDeposit F)) (deposit : PheromoneDeposit F) : Option (Int × Option String) :=
  if is_providence_feedback_deposit deposit then none
  else
    (deposit_suppression_key deposit).bind (fun key =>
      (newest_marker markers key).bind (fun marker =>
        if (feedback_suppression_marker marker).any (·.2 = .Dismiss) && deposit.timestamp ≤ marker.timestamp then
          some (marker.timestamp, text marker.indicator "analyst_id")
        else none))

/-- A deposit is suppressed where the newest marker dismisses it. -/
theorem suppressed_iff_dismissal (deposits : List (PheromoneDeposit F)) (deposit : PheromoneDeposit F) :
    is_suppressed_by_feedback deposit (latest_feedback_suppression_states deposits) = (dismissal deposits deposit).isSome := by
  unfold is_suppressed_by_feedback dismissal
  split
  · rfl
  · cases hkey : deposit_suppression_key deposit with
    | none => rfl
    | some key =>
      simp only [Option.bind_some, latest_eq_newest]
      cases hn : newest_marker deposits key with
      | none => rfl
      | some marker =>
        obtain ⟨state, hmarker⟩ := marker_of_newest hn
        simp only [Option.bind_some, marker_state, hmarker, Option.map_some, Option.any_some]
        split <;> simp_all

/-! ## The live rows -/

section
variable [LinearOrder F] (decay : Decay F)

/-- The deposits of a class that have not evaporated. -/
def live (deposits : List (PheromoneDeposit F)) (threat_class : ThreatClass) (now : Int) (threshold : F) : List (PheromoneDeposit F) :=
  (deposits.filter (·.threat_class = threat_class)).filter (fun deposit => !is_evaporated decay deposit now threshold)

theorem mem_live {deposits : List (PheromoneDeposit F)} {threat_class : ThreatClass} {now : Int} {threshold : F}
    {deposit : PheromoneDeposit F} :
    deposit ∈ live decay deposits threat_class now threshold ↔
      deposit ∈ deposits ∧ deposit.threat_class = threat_class ∧ is_evaporated decay deposit now threshold = false := by
  simp only [live, List.mem_filter, decide_eq_true_eq, Bool.not_eq_true', and_assoc]

/-- A loop that passes over evaporated deposits is a loop over the live ones. -/
theorem foldl_live {A : Type} (f : A → PheromoneDeposit F → A) (init : A) (deposits : List (PheromoneDeposit F))
    (threat_class : ThreatClass) (now : Int) (threshold : F) :
    (deposits.filter (·.threat_class = threat_class)).foldl
        (fun acc deposit => if is_evaporated decay deposit now threshold then acc else f acc deposit) init =
      (live decay deposits threat_class now threshold).foldl f init := by
  rw [live]
  generalize deposits.filter (·.threat_class = threat_class) = rows
  rw [List.foldl_filter]
  congr 1
  funext acc deposit
  cases is_evaporated decay deposit now threshold <;> rfl

/-- Strength does not grow: what is live at `t` was live at `g`. -/
theorem not_evaporated_before {deposit : PheromoneDeposit F} {g t : Int} (hgt : g ≤ t) {threshold : F}
    (h : is_evaporated decay deposit t threshold = false) : is_evaporated decay deposit g threshold = false := by
  simp only [is_evaporated, decide_eq_false_iff_not, not_lt] at h ⊢
  exact h.trans (decay.antitone deposit hgt)

theorem live_gc (s : InMemoryPheromoneSubstrate F) {g t : Int} (hgt : g ≤ t) (threat_class : ThreatClass) :
    live decay (s.gc_evaporated decay g).deposits threat_class t (s.resolved_policy threat_class).evaporation_threshold =
      live decay s.deposits threat_class t (s.resolved_policy threat_class).evaporation_threshold := by
  simp only [live, InMemoryPheromoneSubstrate.gc_evaporated, List.filter_filter]
  refine List.filter_congr (fun deposit _ => ?_)
  by_cases hclass : deposit.threat_class = threat_class
  · subst hclass
    cases hlive : is_evaporated decay deposit t (s.resolved_policy deposit.threat_class).evaporation_threshold with
    | true => simp
    | false => simp [not_evaporated_before decay hgt hlive]
  · simp [hclass]
end

/-! ## What a live row counts for -/

section
variable [LinearOrder F] [Zero F] [Add F] (decay : Decay F)

theorem concentration_for_eq (deposits : List (PheromoneDeposit F)) (threat_class : ThreatClass) (now : Int)
    (policy : ThreatClassPolicy F) :
    concentration_for decay deposits threat_class now policy =
      let summed := (live decay deposits threat_class now policy.evaporation_threshold).foldl
        (sum_row decay (fun deposit => (dismissal deposits deposit).isSome) now) ⟨0, [], 0⟩
      ⟨threat_class, summed.total_strength, summed.sources.length, summed.peak_confidence⟩ := by
  have hdismissed : (fun deposit => is_suppressed_by_feedback deposit (latest_feedback_suppression_states deposits)) =
      fun deposit => (dismissal deposits deposit).isSome := funext (suppressed_iff_dismissal deposits)
  simp only [concentration_for]
  rw [foldl_live, hdismissed]

/-- What the loop of `perch_deposit_slice` ends with. -/
def sliced (deposits : List (PheromoneDeposit F)) (threat_class : ThreatClass) (now : Int) (policy : ThreatClassPolicy F) : Sliced F :=
  (live decay deposits threat_class now policy.evaporation_threshold).foldl
    (slice_row decay (fun deposit => (dismissal deposits deposit).isSome) now) ⟨[], [], []⟩

omit [Add F] in
theorem perch_deposit_slice_eq (deposits : List (PheromoneDeposit F)) (threat_class : ThreatClass) (now : Int)
    (policy : ThreatClassPolicy F) :
    (perch_deposit_slice decay deposits threat_class now policy).kept =
        (sliced decay deposits threat_class now policy).kept.mergeSort (fun a b => b.timestamp ≤ a.timestamp) ∧
      (perch_deposit_slice decay deposits threat_class now policy).suppressed =
        (suppression_records deposits threat_class (latest_feedback_suppression_states deposits)
          (sliced decay deposits threat_class now policy).removed).mergeSort (fun a b =>
            b.marker_timestamp < a.marker_timestamp || (a.marker_timestamp = b.marker_timestamp && ¬ b.event_id < a.event_id)) := by
  have hdismissed : (fun deposit => is_suppressed_by_feedback deposit (latest_feedback_suppression_states deposits)) =
      fun deposit => (dismissal deposits deposit).isSome := funext (suppressed_iff_dismissal deposits)
  simp only [perch_deposit_slice]
  rw [foldl_live, hdismissed]
  exact ⟨rfl, rfl⟩

/-! ## Dismissed rows and their records -/

omit [Add F] in
/-- The events with a removed row. -/
theorem mem_removed {rows : List (PheromoneDeposit F)} {dismissed : PheromoneDeposit F → Bool} {now : Int} {acc : Sliced F}
    {event_id : String} :
    event_id ∈ (rows.foldl (slice_row decay dismissed now) acc).removed.map Prod.fst ↔
      event_id ∈ acc.removed.map Prod.fst ∨
        ∃ deposit ∈ rows, dismissed deposit = true ∧ text deposit.indicator "event_id" = some event_id := by
  induction rows generalizing acc with
  | nil => simp
  | cons deposit rows ih =>
    rw [List.foldl_cons, ih, slice_row]
    cases hd : dismissed deposit with
    | false =>
      simp only [Bool.false_eq_true, if_false, List.mem_cons, exists_eq_or_imp, hd, false_and, false_or]
      split <;> rfl
    | true =>
      simp only [if_true, List.mem_cons, exists_eq_or_imp, hd, true_and]
      cases hevent : text deposit.indicator "event_id" with
      | none => simp
      | some event =>
        simp only [mem_keys_upsert, Option.some.injEq]
        tauto

omit [LinearOrder F] [Zero F] [Add F] in
/-- A dismissal is that of the newest marker of the deposit's event. -/
theorem dismissal_eq_some {markers : List (PheromoneDeposit F)} {deposit : PheromoneDeposit F} {at_seconds : Int}
    {analyst : Option String} :
    dismissal markers deposit = some (at_seconds, analyst) ↔
      is_providence_feedback_deposit deposit = false ∧ ∃ event_id marker,
        text deposit.indicator "event_id" = some event_id ∧ newest_marker markers ⟨deposit.threat_class, event_id⟩ = some marker ∧
        feedback_suppression_marker marker = some (⟨deposit.threat_class, event_id⟩, .Dismiss) ∧
        deposit.timestamp ≤ marker.timestamp ∧ marker.timestamp = at_seconds ∧ text marker.indicator "analyst_id" = analyst := by
  unfold dismissal
  cases hf : is_providence_feedback_deposit deposit with
  | true => simp
  | false =>
    simp only [Bool.false_eq_true, if_false, true_and, deposit_suppression_key]
    cases hevent : text deposit.indicator "event_id" with
    | none => simp
    | some event_id =>
      simp only [Option.map_some, Option.bind_some, Option.some.injEq, ↓existsAndEq, true_and]
      cases hn : newest_marker markers ⟨deposit.threat_class, event_id⟩ with
      | none => simp
      | some marker =>
        obtain ⟨state, hmarker⟩ := marker_of_newest hn
        simp only [Option.bind_some, hmarker, Option.any_some, Option.some.injEq, exists_eq_left', Prod.mk.injEq, true_and]
        cases state <;> simp

omit [LinearOrder F] [Zero F] [Add F] in
/-- The record of an event whose newest marker is `marker`. -/
theorem mem_records {markers : List (PheromoneDeposit F)} {threat_class : ThreatClass} {removed : List (String × Nat)}
    {r : PerchSuppressionRecord} :
    r ∈ suppression_records markers threat_class (latest_feedback_suppression_states markers) removed ↔
      ∃ entry ∈ removed, ∃ marker, newest_marker markers ⟨threat_class, entry.1⟩ = some marker ∧
        r = ⟨entry.1, threat_class, marker.timestamp, entry.2, text marker.indicator "analyst_id"⟩ := by
  simp only [suppression_records, List.mem_filterMap, latest_eq_newest, analyst_of_newest]
  refine exists_congr (fun entry => and_congr_right (fun _ => ?_))
  cases hn : newest_marker markers ⟨threat_class, entry.1⟩ with
  | none => simp
  | some marker =>
    obtain ⟨state, hmarker⟩ := marker_of_newest hn
    simp [marker_state, hmarker, eq_comm]

omit [Add F] in
theorem mem_suppressed {markers : List (PheromoneDeposit F)} {threat_class : ThreatClass} {now : Int} {policy : ThreatClassPolicy F}
    {r : PerchSuppressionRecord} :
    r ∈ (perch_deposit_slice decay markers threat_class now policy).suppressed ↔
      ∃ entry ∈ (sliced decay markers threat_class now policy).removed, ∃ marker,
        newest_marker markers ⟨threat_class, entry.1⟩ = some marker ∧
        r = ⟨entry.1, threat_class, marker.timestamp, entry.2, text marker.indicator "analyst_id"⟩ := by
  rw [(perch_deposit_slice_eq decay markers threat_class now policy).2, List.mem_mergeSort, mem_records]

omit [Add F] in
/-- A live row that is dismissed has the record of its dismissal in the slice. -/
theorem record_of_dismissal (markers : List (PheromoneDeposit F)) {now : Int} {policy : ThreatClassPolicy F}
    {deposit : PheromoneDeposit F} {at_seconds : Int} {analyst : Option String}
    (hlive : deposit ∈ live decay markers deposit.threat_class now policy.evaporation_threshold)
    (h : dismissal markers deposit = some (at_seconds, analyst)) :
    ∃ event_id count, text deposit.indicator "event_id" = some event_id ∧
      ⟨event_id, deposit.threat_class, at_seconds, count, analyst⟩ ∈
        (perch_deposit_slice decay markers deposit.threat_class now policy).suppressed := by
  obtain ⟨-, event_id, marker, hevent, hn, -, -, rfl, rfl⟩ := dismissal_eq_some.1 h
  have hkey : event_id ∈ (sliced decay markers deposit.threat_class now policy).removed.map Prod.fst :=
    (mem_removed decay).2 (.inr ⟨deposit, hlive, by rw [h]; rfl, hevent⟩)
  obtain ⟨entry, hentry, rfl⟩ := List.mem_map.1 hkey
  exact ⟨entry.1, entry.2, hevent, (mem_suppressed decay).2 ⟨entry, hentry, marker, hn, rfl⟩⟩

omit [Add F] in
/-- A record in the slice dismisses every row of its event up to its time. -/
theorem dismissal_of_record (markers : List (PheromoneDeposit F)) {now : Int} {policy : ThreatClassPolicy F}
    {deposit : PheromoneDeposit F} {event_id : String} {at_seconds : Int} {analyst : Option String} {count : Nat}
    (hr : ⟨event_id, deposit.threat_class, at_seconds, count, analyst⟩ ∈
      (perch_deposit_slice decay markers deposit.threat_class now policy).suppressed)
    (hplain : is_providence_feedback_deposit deposit = false) (hevent : text deposit.indicator "event_id" = some event_id)
    (hat : deposit.timestamp ≤ at_seconds) : dismissal markers deposit = some (at_seconds, analyst) := by
  obtain ⟨entry, hentry, marker, hn, heq⟩ := (mem_suppressed decay).1 hr
  obtain ⟨rfl, -, rfl, -, rfl⟩ := PerchSuppressionRecord.mk.inj heq
  -- Some row of the event is dismissed, so that its newest marker is a dismissal.
  rcases (mem_removed decay).1 (List.mem_map.2 ⟨entry, hentry, rfl⟩) with hnil | ⟨row, hrow, hd, hsame⟩
  · cases hnil
  · obtain ⟨-, hclass, -⟩ := (mem_live decay).1 hrow
    obtain ⟨dismissed, hd⟩ := Option.isSome_iff_exists.1 hd
    obtain ⟨-, event, marker', hevent', hn', hstate, -, -, -⟩ := dismissal_eq_some.1 hd
    obtain rfl := Option.some.inj (hsame.symm.trans hevent')
    rw [hclass] at hn' hstate
    obtain rfl := Option.some.inj (hn.symm.trans hn')
    exact dismissal_eq_some.2 ⟨hplain, entry.1, marker, hevent, hn, hstate, hat, rfl, rfl⟩

/-! ## A collection -/

variable {decay} {s : InMemoryPheromoneSubstrate F} {g t : Int}

/-- The deposits that are above the floor of their class at `now`. -/
def standing (decay : Decay F) (s : InMemoryPheromoneSubstrate F) (now : Int) : List (PheromoneDeposit F) :=
  s.deposits.filter (fun deposit =>
    !is_evaporated decay deposit now (s.resolved_policy deposit.threat_class).evaporation_threshold)

omit [Zero F] [Add F] in
theorem mem_live_of_standing {deposit : PheromoneDeposit F} (h : deposit ∈ standing decay s t) :
    deposit ∈ live decay s.deposits deposit.threat_class t (s.resolved_policy deposit.threat_class).evaporation_threshold := by
  obtain ⟨hmem, hlive⟩ := List.mem_filter.1 h
  exact (mem_live decay).2 ⟨hmem, rfl, by simpa using hlive⟩

omit [Zero F] [Add F] in
theorem standing_of_mem_live {threat_class : ThreatClass} {deposit : PheromoneDeposit F}
    (h : deposit ∈ live decay s.deposits threat_class t (s.resolved_policy threat_class).evaporation_threshold) :
    deposit ∈ standing decay s t ∧ deposit.threat_class = threat_class := by
  obtain ⟨hmem, rfl, hlive⟩ := (mem_live decay).1 h
  exact ⟨List.mem_filter.2 ⟨hmem, by simpa using hlive⟩, rfl⟩

/-- The two slices, with their shared live rows, when those are dismissed alike. -/
theorem slices_agree (hgt : g ≤ t) (threat_class : ThreatClass)
    (h : ∀ deposit ∈ standing decay s t, dismissal (standing decay s g) deposit = dismissal s.deposits deposit) :
    (s.gc_evaporated decay g).query_concentration decay threat_class t = s.query_concentration decay threat_class t ∧
      ((s.gc_evaporated decay g).slice decay threat_class t).kept = (s.slice decay threat_class t).kept ∧
      ((s.gc_evaporated decay g).slice decay threat_class t).suppressed = (s.slice decay threat_class t).suppressed := by
  have hrows := live_gc decay s hgt threat_class
  have halike : ∀ deposit ∈ live decay s.deposits threat_class t (s.resolved_policy threat_class).evaporation_threshold,
      dismissal (s.gc_evaporated decay g).deposits deposit = dismissal s.deposits deposit :=
    fun deposit hd => h deposit (standing_of_mem_live hd).1
  have hsliced : sliced decay (s.gc_evaporated decay g).deposits threat_class t (s.resolved_policy threat_class) =
      sliced decay s.deposits threat_class t (s.resolved_policy threat_class) := by
    rw [sliced, hrows]
    exact List.foldl_ext _ _ _ (fun acc deposit hd => by rw [slice_row, slice_row, halike deposit hd])
  refine ⟨?_, ?_, ?_⟩
  · simp only [InMemoryPheromoneSubstrate.query_concentration, concentration_for_eq]
    rw [show (s.gc_evaporated decay g).resolved_policy threat_class = s.resolved_policy threat_class from rfl, hrows,
      List.foldl_ext _ (sum_row decay (fun deposit => (dismissal s.deposits deposit).isSome) t) _
        (fun acc deposit hd => by rw [sum_row, sum_row, halike deposit hd])]
  · simp only [InMemoryPheromoneSubstrate.slice, (perch_deposit_slice_eq decay _ threat_class t _).1]
    rw [← hsliced]
    rfl
  · simp only [InMemoryPheromoneSubstrate.slice, (perch_deposit_slice_eq decay _ threat_class t _).2]
    rw [show (s.gc_evaporated decay g).resolved_policy threat_class = s.resolved_policy threat_class from rfl, hsliced]
    congr 1
    refine List.filterMap_congr (fun entry hentry => ?_)
    -- A row of the event is dismissed, by a marker with one time and one analyst in both.
    rcases (mem_removed decay).1 (List.mem_map.2 ⟨entry, hentry, rfl⟩) with hnil | ⟨row, hrow, hd, hsame⟩
    · cases hnil
    · obtain ⟨⟨at_seconds, analyst⟩, hd⟩ := Option.isSome_iff_exists.1 hd
      obtain ⟨-, rfl⟩ := standing_of_mem_live hrow
      obtain ⟨-, event, marker, hevent, hn, hstate, -, htime, hanalyst⟩ := dismissal_eq_some.1 hd
      obtain ⟨-, event', marker', hevent', hn', hstate', -, htime', hanalyst'⟩ :=
        dismissal_eq_some.1 ((halike row hrow).trans hd)
      obtain rfl := Option.some.inj (hsame.symm.trans hevent)
      obtain rfl := Option.some.inj (hsame.symm.trans hevent')
      simp only [latest_eq_newest, analyst_of_newest, hn, hn', Option.bind_some, marker_state, hstate, hstate', htime, htime',
        hanalyst, hanalyst', Option.map_some]

/-- A collection at `g` is invisible at `t` exactly when it leaves every row that is live at `t` as dismissed as it was: the newest
marker of its event and the newest that is still standing at `g` dismiss it at one time and by one analyst, or neither does. -/
theorem gc_invisible_iff (hgt : g ≤ t) :
    (∀ threat_class,
      (s.gc_evaporated decay g).query_concentration decay threat_class t = s.query_concentration decay threat_class t ∧
      ((s.gc_evaporated decay g).slice decay threat_class t).kept = (s.slice decay threat_class t).kept ∧
      ((s.gc_evaporated decay g).slice decay threat_class t).suppressed = (s.slice decay threat_class t).suppressed) ↔
    ∀ deposit ∈ standing decay s t, dismissal (standing decay s g) deposit = dismissal s.deposits deposit := by
  refine ⟨fun hsame deposit hd => ?_, fun h threat_class => slices_agree hgt threat_class h⟩
  have hsuppressed := (hsame deposit.threat_class).2.2
  have hlive := mem_live_of_standing hd
  have hlive' : deposit ∈ live decay (s.gc_evaporated decay g).deposits deposit.threat_class t
      ((s.gc_evaporated decay g).resolved_policy deposit.threat_class).evaporation_threshold := by
    rw [show (s.gc_evaporated decay g).resolved_policy deposit.threat_class = s.resolved_policy deposit.threat_class from rfl,
      live_gc decay s hgt]
    exact hlive
  cases hnow : dismissal s.deposits deposit with
  | some found =>
    obtain ⟨at_seconds, analyst⟩ := found
    obtain ⟨hplain, _, _, _, _, _, hat, rfl, -⟩ := dismissal_eq_some.1 hnow
    obtain ⟨event_id, count, hevent, hr⟩ := record_of_dismissal decay s.deposits hlive hnow
    exact dismissal_of_record decay (s.gc_evaporated decay g).deposits (hsuppressed.symm ▸ hr) hplain hevent hat
  | none =>
    cases hthen : dismissal (standing decay s g) deposit with
    | none => rfl
    | some found =>
      obtain ⟨at_seconds, analyst⟩ := found
      obtain ⟨hplain, _, _, _, _, _, hat, rfl, -⟩ := dismissal_eq_some.1 hthen
      obtain ⟨event_id, count, hevent, hr⟩ := record_of_dismissal decay (s.gc_evaporated decay g).deposits hlive' hthen
      have hagain := dismissal_of_record decay s.deposits (hsuppressed ▸ hr) hplain hevent hat
      rw [hnow] at hagain
      cases hagain

end

/-! ## A dismissal that is collected -/

/-- How many whole half-lives have passed. -/
def half_lives (deposit : PheromoneDeposit Int) (now : Int) : Nat :=
  if now ≤ deposit.timestamp then 0 else ((now - deposit.timestamp) / deposit.decay_half_life).toNat

theorem half_lives_mono (deposit : PheromoneDeposit Int) {now later : Int} (h : now ≤ later) :
    half_lives deposit now ≤ half_lives deposit later := by
  unfold half_lives
  split
  · exact Nat.zero_le _
  · next hlt =>
    rw [if_neg (by omega)]
    rcases lt_trichotomy deposit.decay_half_life 0 with hneg | hzero | hpos
    · have hle := Int.ediv_nonpos_of_nonneg_of_nonpos (a := now - deposit.timestamp) (by omega) hneg.le
      rw [Int.toNat_of_nonpos hle]
      exact Nat.zero_le _
    · simp [hzero]
    · exact Int.toNat_le_toNat (Int.ediv_le_ediv hpos (by omega))

/-- Strengths in thousandths, halved with every half-life. -/
def halving : Decay Int where
  strength_at deposit now := (deposit.confidence.toNat / 2 ^ half_lives deposit now : Nat)
  antitone deposit now later h :=
    Int.ofNat_le.2 (Nat.div_le_div_left (Nat.pow_le_pow_right (by decide) (half_lives_mono deposit h)) (Nat.two_pow_pos _))

/-- A deposit of an agent about `event-1`. -/
def seen : PheromoneDeposit Int where
  indicator := .object [("event_id", .string "event-1")]
  threat_class := .Execution
  severity := .High
  confidence := 1000
  timestamp := 100
  decay_half_life := 3600
  agent_id := "whisker"

/-- The analyst's dismissal of `event-1`; a dismissal is deposited with confidence zero. -/
def dismissed (confidence : Int) : PheromoneDeposit Int where
  indicator := .object [("schema", .string SWARM_PROVIDENCE_FEEDBACK_SCHEMA), ("event_id", .string "event-1"),
    ("action", .string "dismiss"), ("analyst_id", .string "analyst-1")]
  threat_class := .Execution
  severity := .High
  confidence := confidence
  timestamp := 150
  decay_half_life := 3600
  agent_id := "ingest"

def watched (deposits : List (PheromoneDeposit Int)) : InMemoryPheromoneSubstrate Int :=
  ⟨⟨3600, 10, 2, 2000, 5000, 300⟩, Map.empty, deposits⟩

theorem gc_invisible_iff_standing :
    ((watched [seen, dismissed 1000]).gc_evaporated halving 3700).query_concentration halving .Execution 3700 =
      (watched [seen, dismissed 1000]).query_concentration halving .Execution 3700 :=
  ((@gc_invisible_iff Int _ _ _ halving (watched [seen, dismissed 1000]) 3700 3700 (le_refl _)).2
    (by decide +kernel) .Execution).1

theorem gc_undoes_a_dismissal :
    ¬ ∀ (decay : Decay Int) (s : InMemoryPheromoneSubstrate Int) (g t : Int), g ≤ t → ∀ threat_class,
      (s.gc_evaporated decay g).query_concentration decay threat_class t = s.query_concentration decay threat_class t ∧
      ((s.gc_evaporated decay g).slice decay threat_class t).kept = (s.slice decay threat_class t).kept ∧
      ((s.gc_evaporated decay g).slice decay threat_class t).suppressed = (s.slice decay threat_class t).suppressed := by
  intro hall
  have hsame := (hall halving (watched [seen, dismissed 0]) 3700 3700 (le_refl _) .Execution).1
  exact absurd hsame (by decide +kernel)

end Ambush.Pheromone

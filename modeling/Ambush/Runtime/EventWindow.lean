import Ambush.Lib.Ints
import Ambush.Lib.Picking
import Mathlib.Algebra.Order.Ring.Int
/-!
# The temporal event window

The runtime keeps the telemetry of the recent past in one list, ordered by time and, at one
time, by arrival: a late event is put where its time belongs. An event leaves when it is
older than the newest time seen by more than the retention, or when there are too many.
`match_ordered` asks the list for events that satisfy given predicates in order within a
span of time.
-/
open Lib

namespace Ambush.Runtime

/-! ## Telemetry -/

structure ProcessStartEvent where
  parent_process : String
  process_name : String
  command_line : String
  deriving DecidableEq

structure NetworkConnectEvent where
  process_name : String
  destination_ip : String
  destination_port : Nat
  deriving DecidableEq

structure RegistryPersistenceEvent where
  process_name : String
  registry_path : String
  access_type : String
  deriving DecidableEq

structure FilePersistenceEvent where
  file_path : String
  process_name : String
  deriving DecidableEq

structure AuthenticationEventData where
  auth_type : String
  target_service : Option String
  process_name : Option String
  success : Bool
  deriving DecidableEq

/-- The kinds of telemetry. Of the five kinds that rules can match it has what they read. -/
inductive TelemetryPayload where
  | ProcessStart (process : ProcessStartEvent)
  | ProcessMemoryAccess
  | NetworkConnect (network : NetworkConnectEvent)
  | DnsQuery
  | CloudTrail
  | KubernetesAudit
  | RegistryAccess
  | RegistryPersistence (registry : RegistryPersistenceEvent)
  | FilePersistence (file : FilePersistenceEvent)
  | AuthenticationEvent (auth : AuthenticationEventData)
  | InfrastructureHealth
  | ThermalAnomaly
  | ResourceExhaustion
  deriving DecidableEq

structure TelemetryEvent where
  source : String
  event_id : String
  timestamp : Int64
  host_id : Option String
  payload : TelemetryPayload
  deriving DecidableEq

/-! ## The window -/

structure TemporalEventWindowConfig where
  retention_ms : Int64
  max_events : Nat
  max_match_span_ms : Int64
  max_predicates_per_match : Nat

def TIMESTAMP_MILLISECOND_THRESHOLD : Int := 100000000000

/-- Seconds become milliseconds. `abs` of the least number overflows, which stops the program before anything is recorded. -/
def normalized_event_timestamp_ms (timestamp : Int64) : Option Int :=
  if timestamp.toInt = i64Min then none
  else if (timestamp.toInt.natAbs : Int) < TIMESTAMP_MILLISECOND_THRESHOLD then some (satMulI timestamp.toInt 1000)
  else some timestamp.toInt

structure BufferedTelemetryEvent where
  sequence : Nat
  timestamp_ms : Int
  event : TelemetryEvent
  deriving DecidableEq

structure TemporalEventWindowState where
  next_sequence : Nat := 0
  watermark_ms : Option Int := none
  events : List BufferedTelemetryEvent := []
  deriving DecidableEq

/-- Where `partition_point` puts an event: after those that are earlier, or as early and numbered below it. -/
def goes_before (timestamp_ms : Int) (sequence : Nat) (candidate : BufferedTelemetryEvent) : Bool :=
  candidate.timestamp_ms < timestamp_ms || (candidate.timestamp_ms = timestamp_ms && candidate.sequence < sequence)

namespace TemporalEventWindowState

def prune (config : TemporalEventWindowConfig) (s : TemporalEventWindowState) : TemporalEventWindowState :=
  match s.watermark_ms with
  | none => s
  | some watermark_ms =>
    let oldest_allowed_ms := satSubI watermark_ms config.retention_ms.toInt
    let events := s.events.filter (fun candidate => oldest_allowed_ms ≤ candidate.timestamp_ms)
    { s with events := if config.max_events < events.length then events.drop (events.length - config.max_events) else events }

def insert (events : List BufferedTelemetryEvent) (b : BufferedTelemetryEvent) : List BufferedTelemetryEvent :=
  let before := goes_before b.timestamp_ms b.sequence
  events.takeWhile before ++ b :: events.dropWhile before

def record (config : TemporalEventWindowConfig) (s : TemporalEventWindowState) (event : TelemetryEvent) : Option TemporalEventWindowState := do
  let timestamp_ms ← normalized_event_timestamp_ms event.timestamp
  some (prune config {
    next_sequence := satAdd s.next_sequence 1
    watermark_ms := some (s.watermark_ms.elim timestamp_ms (max · timestamp_ms))
    events := insert s.events ⟨s.next_sequence, timestamp_ms, event⟩ })

/-- The window after the events arrived in this order. -/
def record_all (config : TemporalEventWindowConfig) (arrived : List TelemetryEvent) : Option TemporalEventWindowState :=
  arrived.foldlM (record config) {}

end TemporalEventWindowState

structure OrderedTemporalEventMatch where
  matched_events : List TelemetryEvent
  started_at_ms : Int
  ended_at_ms : Int
  span_ms : Int
  deriving DecidableEq

inductive TemporalEventWindowError where
  | EmptyPredicateSet
  | RequestedSpanNonPositive (requested_ms : Int)
  | RequestedSpanExceedsConfiguredLimit (requested_ms max_allowed_ms : Int)
  | TooManyPredicates (requested max_allowed : Nat)
  deriving DecidableEq

abbrev TelemetryEventPredicate := TelemetryEvent → Bool

/-- The scan does not go on past the span. -/
def in_span (start_timestamp_ms requested_span_ms : Int) (candidate : BufferedTelemetryEvent) : Bool :=
  satSubI candidate.timestamp_ms start_timestamp_ms ≤ requested_span_ms

def on_event (predicate : TelemetryEventPredicate) (b : BufferedTelemetryEvent) : Bool := predicate b.event

/-- For each event that can be the first, the next ones are searched greedily. -/
def match_from (first : TelemetryEventPredicate) (others : List TelemetryEventPredicate) (requested_span_ms : Int) :
    List BufferedTelemetryEvent → Option (List BufferedTelemetryEvent)
  | [] => none
  | start :: rest =>
    if first start.event then
      let matched := start :: pick (in_span start.timestamp_ms requested_span_ms) (others.map on_event) rest
      if matched.length = others.length + 1 then some matched else match_from first others requested_span_ms rest
    else match_from first others requested_span_ms rest

def ordered_match (matched : List BufferedTelemetryEvent) : OrderedTemporalEventMatch :=
  let started_at_ms := (matched.head?.map (·.timestamp_ms)).getD 0
  let ended_at_ms := (matched.getLast?.map (·.timestamp_ms)).getD started_at_ms
  ⟨matched.map (·.event), started_at_ms, ended_at_ms, satSubI ended_at_ms started_at_ms⟩

def match_ordered (config : TemporalEventWindowConfig) (s : TemporalEventWindowState) (predicates : List TelemetryEventPredicate)
    (requested_span_ms : Option Int) : Except TemporalEventWindowError (Option OrderedTemporalEventMatch) :=
  match predicates with
  | [] => .error .EmptyPredicateSet
  | first :: others =>
    let requested_span_ms := requested_span_ms.getD config.max_match_span_ms.toInt
    if predicates.length > config.max_predicates_per_match then
      .error (.TooManyPredicates predicates.length config.max_predicates_per_match)
    else if requested_span_ms ≤ 0 then .error (.RequestedSpanNonPositive requested_span_ms)
    else if requested_span_ms > config.max_match_span_ms.toInt then
      .error (.RequestedSpanExceedsConfiguredLimit requested_span_ms config.max_match_span_ms.toInt)
    else .ok ((match_from first others requested_span_ms s.events).map ordered_match)

/-! ## What the window keeps -/

/-- The order of the window: by time, then by number. Numbers no longer rise once they are at the top. -/
def InOrder (a b : BufferedTelemetryEvent) : Prop :=
  a.timestamp_ms < b.timestamp_ms ∨
    a.timestamp_ms = b.timestamp_ms ∧ (a.sequence < b.sequence ∨ a.sequence = u64Max ∧ b.sequence = u64Max)

theorem InOrder.timestamp_le {a b : BufferedTelemetryEvent} (h : InOrder a b) : a.timestamp_ms ≤ b.timestamp_ms := by
  rcases h with h | ⟨h, -⟩
  · exact h.le
  · exact h.le

/-- `b` is the event that arrived as number `i`. -/
structure ArrivedAs (arrived : List TelemetryEvent) (b : BufferedTelemetryEvent) (i : Nat) : Prop where
  event : arrived[i]? = some b.event
  sequence : b.sequence = min i u64Max
  timestamp : normalized_event_timestamp_ms b.event.timestamp = some b.timestamp_ms

/-- The window after these events arrived. -/
structure Carries (config : TemporalEventWindowConfig) (arrived : List TelemetryEvent) (s : TemporalEventWindowState) : Prop where
  next_sequence : s.next_sequence = min arrived.length u64Max
  in_order : s.events.Pairwise InOrder
  arrived_as : ∀ b ∈ s.events, ∃ i, ArrivedAs arrived b i
  seen : ∀ e ∈ arrived, ∃ t w, normalized_event_timestamp_ms e.timestamp = some t ∧ s.watermark_ms = some w ∧ t ≤ w
  newest : ∀ w, s.watermark_ms = some w → ∃ e ∈ arrived, normalized_event_timestamp_ms e.timestamp = some w
  retained : ∀ w, s.watermark_ms = some w → ∀ b ∈ s.events, satSubI w config.retention_ms.toInt ≤ b.timestamp_ms
  room : s.events.length ≤ config.max_events

theorem normalized_range {timestamp : Int64} {t : Int} (h : normalized_event_timestamp_ms timestamp = some t) : i64Min ≤ t ∧ t ≤ i64Max := by
  have hlow := Int64.le_toInt timestamp
  have hhigh := Int64.toInt_lt timestamp
  unfold normalized_event_timestamp_ms satMulI at h
  split at h
  · cases h
  · split at h
    · cases h
      exact ⟨le_max_left _ _, max_le (by decide) (min_le_right _ _)⟩
    · cases h
      exact ⟨by unfold i64Min; omega, by unfold i64Max; omega⟩

section
variable {config : TemporalEventWindowConfig} {arrived : List TelemetryEvent} {s s' : TemporalEventWindowState}

/-- Past the place where it goes, no event is before the new one. -/
theorem goes_before_dropWhile (hsorted : s.events.Pairwise InOrder) (timestamp_ms : Int) (sequence : Nat) :
    ∀ b ∈ s.events.dropWhile (goes_before timestamp_ms sequence), goes_before timestamp_ms sequence b = false := by
  generalize s.events = events at hsorted
  induction events with
  | nil => exact fun b hb => nomatch hb
  | cons a rest ih =>
    obtain ⟨hfirst, hrest⟩ := List.pairwise_cons.1 hsorted
    rw [List.dropWhile_cons]
    split
    · exact ih hrest
    · next hgoes =>
      intro b hb
      rcases List.mem_cons.1 hb with rfl | hb
      · simpa using hgoes
      · have hab := hfirst b hb
        simp only [goes_before, Bool.or_eq_true, Bool.and_eq_true, decide_eq_true_eq, not_or, not_and, not_lt] at hgoes
        simp only [goes_before, Bool.or_eq_false_iff, Bool.and_eq_false_iff, decide_eq_false_iff_not, not_lt]
        unfold InOrder at hab
        omega

theorem mem_insert {events : List BufferedTelemetryEvent} {a b : BufferedTelemetryEvent}
    (ha : a ∈ TemporalEventWindowState.insert events b) : a = b ∨ a ∈ events := by
  rcases List.mem_append.1 ha with ha | ha
  · exact .inr ((List.takeWhile_sublist _).subset ha)
  · rcases List.mem_cons.1 ha with rfl | ha
    · exact .inl rfl
    · exact .inr ((List.dropWhile_sublist _).subset ha)

theorem Carries.insert (h : Carries config arrived s) (event : TelemetryEvent) (t : Int) :
    (TemporalEventWindowState.insert s.events ⟨s.next_sequence, t, event⟩).Pairwise InOrder := by
  have hsplit := h.in_order
  rw [← List.takeWhile_append_dropWhile (p := goes_before t s.next_sequence) (l := s.events)] at hsplit
  obtain ⟨hbefore, hafter, hacross⟩ := List.pairwise_append.1 hsplit
  have hup : ∀ b ∈ s.events.takeWhile (goes_before t s.next_sequence), InOrder b ⟨s.next_sequence, t, event⟩ := by
    intro b hb
    have hgoes := List.all_eq_true.1 List.all_takeWhile b hb
    simp only [goes_before, Bool.or_eq_true, Bool.and_eq_true, decide_eq_true_eq] at hgoes
    rcases hgoes with hlt | ⟨heq, hlt⟩
    · exact .inl hlt
    · exact .inr ⟨heq, .inl hlt⟩
  have hdown : ∀ b ∈ s.events.dropWhile (goes_before t s.next_sequence), InOrder ⟨s.next_sequence, t, event⟩ b := by
    intro b hb
    have hgoes := goes_before_dropWhile h.in_order t s.next_sequence b hb
    simp only [goes_before, Bool.or_eq_false_iff, Bool.and_eq_false_iff, decide_eq_false_iff_not, not_lt] at hgoes
    -- A number as large as the new one is the largest there is.
    obtain ⟨i, hi⟩ := h.arrived_as b ((List.dropWhile_sublist _).subset hb)
    have hlt : i < arrived.length := (List.getElem?_eq_some_iff.1 hi.event).1
    have hseq := hi.sequence
    have hnext := h.next_sequence
    unfold InOrder
    dsimp only
    omega
  refine List.pairwise_append.2 ⟨hbefore, List.pairwise_cons.2 ⟨hdown, hafter⟩, ?_⟩
  intro a ha b hb
  rcases List.mem_cons.1 hb with rfl | hb
  · exact hup a ha
  · exact hacross a ha b hb

/-- What is left after pruning: the newest of the events, none of them older than the retention. -/
theorem prune_spec {w : Int} (hw : s.watermark_ms = some w) :
    ∃ events, s.prune config = { s with events } ∧ events.Sublist s.events ∧ events.length ≤ config.max_events ∧
      ∀ b ∈ events, satSubI w config.retention_ms.toInt ≤ b.timestamp_ms := by
  unfold TemporalEventWindowState.prune
  rw [hw]
  have hfresh : ∀ b ∈ s.events.filter (fun b => satSubI w config.retention_ms.toInt ≤ b.timestamp_ms),
      satSubI w config.retention_ms.toInt ≤ b.timestamp_ms := by
    intro b hb
    simpa using (List.mem_filter.1 hb).2
  dsimp only
  split
  · next hover =>
    refine ⟨_, rfl, (List.drop_sublist _ _).trans List.filter_sublist, ?_, fun b hb => hfresh b (List.mem_of_mem_drop hb)⟩
    rw [List.length_drop]
    omega
  · next hroom => exact ⟨_, rfl, List.filter_sublist, not_lt.1 hroom, hfresh⟩

theorem Carries.record (h : Carries config arrived s) {event : TelemetryEvent} (hs : s.record config event = some s') :
    Carries config (arrived ++ [event]) s' := by
  unfold TemporalEventWindowState.record at hs
  obtain ⟨t, ht, hs⟩ := Option.bind_eq_some_iff.1 hs
  have hins := h.insert event t
  have hmem := fun a => @mem_insert s.events a ⟨s.next_sequence, t, event⟩
  generalize TemporalEventWindowState.insert s.events ⟨s.next_sequence, t, event⟩ = inserted at hins hs hmem
  obtain ⟨events, heq, hsub, hroom, hfresh⟩ := @prune_spec config
    ⟨satAdd s.next_sequence 1, some (s.watermark_ms.elim t (max · t)), inserted⟩ _ rfl
  rw [heq] at hs
  cases hs
  constructor
  · show satAdd s.next_sequence 1 = _
    rw [h.next_sequence, List.length_append, List.length_singleton]
    unfold satAdd
    omega
  · exact hins.sublist hsub
  · intro b hb
    rcases hmem b (hsub.subset hb) with rfl | hb
    · exact ⟨arrived.length, List.getElem?_concat_length, h.next_sequence, ht⟩
    · obtain ⟨i, hi⟩ := h.arrived_as b hb
      have hlt : i < arrived.length := (List.getElem?_eq_some_iff.1 hi.event).1
      exact ⟨i, by rw [List.getElem?_append_left hlt]; exact hi.event, hi.sequence, hi.timestamp⟩
  · intro e he
    rcases List.mem_append.1 he with he | he
    · obtain ⟨t', w, ht', hw, hle⟩ := h.seen e he
      exact ⟨t', max w t, ht', by rw [hw]; rfl, hle.trans (le_max_left w t)⟩
    · cases List.mem_singleton.1 he
      cases hw : s.watermark_ms with
      | none => exact ⟨t, t, ht, rfl, le_refl t⟩
      | some w => exact ⟨t, max w t, ht, rfl, le_max_right w t⟩
  · intro w hw
    cases hold : s.watermark_ms with
    | none =>
      rw [hold] at hw
      cases hw
      exact ⟨event, by simp, ht⟩
    | some old =>
      rw [hold] at hw
      cases hw
      obtain ⟨e, he, hte⟩ := h.newest old hold
      dsimp only [Option.elim]
      rcases max_choice old t with hmax | hmax
      · exact ⟨e, List.mem_append_left _ he, by rw [hmax]; exact hte⟩
      · exact ⟨event, by simp, by rw [hmax]; exact ht⟩
  · intro w hw b hb
    cases hw
    exact hfresh b hb
  · exact hroom

theorem holds_empty (config : TemporalEventWindowConfig) : Carries config [] {} where
  next_sequence := rfl
  in_order := .nil
  arrived_as _ hb := nomatch hb
  seen _ he := nomatch he
  newest _ hw := nomatch hw
  retained _ hw := nomatch hw
  room := Nat.zero_le _

theorem holds_of_record_all (h : TemporalEventWindowState.record_all config arrived = some s) : Carries config arrived s := by
  have hfold : ∀ (rest past : List TelemetryEvent) (s₀ : TemporalEventWindowState), Carries config past s₀ →
      rest.foldlM (TemporalEventWindowState.record config) s₀ = some s → Carries config (past ++ rest) s := by
    intro rest
    induction rest with
    | nil =>
      intro past s₀ h₀ heq
      cases heq
      rwa [List.append_nil]
    | cons event rest ih =>
      intro past s₀ h₀ heq
      obtain ⟨s₁, h₁, heq⟩ := Option.bind_eq_some_iff.1 heq
      have := ih (past ++ [event]) s₁ (h₀.record h₁) heq
      rwa [List.append_assoc] at this
  exact hfold arrived [] {} (holds_empty config) h

/-- Two events of the window are no further apart than the retention, so their distance does not saturate. -/
theorem Carries.distance (h : Carries config arrived s) {a b : BufferedTelemetryEvent} (ha : a ∈ s.events) (hb : b ∈ s.events)
    (hle : a.timestamp_ms ≤ b.timestamp_ms) : satSubI b.timestamp_ms a.timestamp_ms = b.timestamp_ms - a.timestamp_ms := by
  obtain ⟨i, hi⟩ := h.arrived_as b hb
  obtain ⟨t, w, ht, hw, htw⟩ := h.seen b.event (List.mem_of_getElem? hi.event)
  cases hi.timestamp.symm.trans ht
  obtain ⟨e, -, hew⟩ := h.newest w hw
  have hrange := normalized_range hew
  have hold := h.retained w hw a ha
  have hhigh := Int64.toInt_lt config.retention_ms
  unfold satSubI i64Max i64Min at *
  omega

/-! ## Ordered matches -/

/-- `chosen` are the events of the window at these positions, rising, and they satisfy the predicates in order within the span. -/
structure Occurs (predicates : List TelemetryEventPredicate) (span_ms : Int) (events : List BufferedTelemetryEvent)
    (positions : List Nat) (chosen : List BufferedTelemetryEvent) : Prop where
  increasing : positions.Pairwise (· < ·)
  found : List.Forall₂ (fun i b => events[i]? = some b) positions chosen
  satisfied : List.Forall₂ (fun predicate b => predicate b.event = true) predicates chosen
  spanned : ∀ first ∈ chosen.head?, ∀ last ∈ chosen.getLast?, last.timestamp_ms - first.timestamp_ms ≤ span_ms

/-- The first event is `start`, and the others follow it. -/
structure Starts (first : TelemetryEventPredicate) (others : List TelemetryEventPredicate) (span_ms : Int)
    (start : BufferedTelemetryEvent) (after rest : List BufferedTelemetryEvent) : Prop where
  first : first start.event = true
  picks : Picks (others.map on_event) after rest
  spanned : ∀ b ∈ rest, b.timestamp_ms - start.timestamp_ms ≤ span_ms

/-- No match starts at one of the first `n` positions. -/
def Unstarted (first : TelemetryEventPredicate) (others : List TelemetryEventPredicate) (span_ms : Int)
    (events : List BufferedTelemetryEvent) (n : Nat) : Prop :=
  ∀ before start after rest, events = before ++ start :: after → before.length < n → ¬ Starts first others span_ms start after rest

/-- The distances the scan computes are the true ones. -/
def Exact (events : List BufferedTelemetryEvent) : Prop :=
  ∀ a ∈ events, ∀ b ∈ events, a.timestamp_ms ≤ b.timestamp_ms → satSubI b.timestamp_ms a.timestamp_ms = b.timestamp_ms - a.timestamp_ms

variable {first : TelemetryEventPredicate} {others : List TelemetryEventPredicate} {span_ms : Int} {start : BufferedTelemetryEvent}
  {events after chosen : List BufferedTelemetryEvent} {positions : List Nat}

theorem in_span_iff (hsorted : (start :: after).Pairwise InOrder) (hexact : Exact (start :: after)) {b : BufferedTelemetryEvent}
    (hb : b ∈ after) : in_span start.timestamp_ms span_ms b = true ↔ b.timestamp_ms - start.timestamp_ms ≤ span_ms := by
  have hle := ((List.pairwise_cons.1 hsorted).1 b hb).timestamp_le
  have hdist := hexact start List.mem_cons_self b (List.mem_cons_of_mem _ hb) hle
  rw [in_span, decide_eq_true_eq, hdist]

/-- The greedy search from an event finds a match when and only when one starts there. -/
theorem starts_iff (hsorted : (start :: after).Pairwise InOrder) (hexact : Exact (start :: after)) :
    (first start.event = true ∧ (pick (in_span start.timestamp_ms span_ms) (others.map on_event) after).length = others.length) ↔
      ∃ rest, Starts first others span_ms start after rest := by
  have hbound : after.Pairwise (fun a b => in_span start.timestamp_ms span_ms b = true → in_span start.timestamp_ms span_ms a = true) := by
    refine (List.pairwise_cons.1 hsorted).2.imp_of_mem fun {a b} ha hb hab hspan => ?_
    rw [in_span_iff hsorted hexact hb] at hspan
    rw [in_span_iff hsorted hexact ha]
    have hle := hab.timestamp_le
    omega
  have hpick := @pick_length_iff _ _ (others.map on_event) _ hbound
  rw [List.length_map] at hpick
  rw [hpick]
  constructor
  · rintro ⟨hfirst, rest, hpicks, hwithin⟩
    exact ⟨rest, hfirst, hpicks, fun b hb => (in_span_iff hsorted hexact (hpicks.sublist.subset hb)).1 (hwithin b hb)⟩
  · rintro ⟨rest, hfirst, hpicks, hspanned⟩
    exact ⟨hfirst, rest, hpicks, fun b hb => (in_span_iff hsorted hexact (hpicks.sublist.subset hb)).2 (hspanned b hb)⟩

/-- What the search finds starts where it says. -/
theorem starts_pick (hsorted : (start :: after).Pairwise InOrder) (hexact : Exact (start :: after)) (hfirst : first start.event = true)
    (hlen : (pick (in_span start.timestamp_ms span_ms) (others.map on_event) after).length = others.length) :
    Starts first others span_ms start after (pick (in_span start.timestamp_ms span_ms) (others.map on_event) after) where
  first := hfirst
  picks := ⟨pick_sublist _ _ _, pick_satisfied (by rw [hlen, List.length_map])⟩
  spanned b hb := (in_span_iff hsorted hexact ((pick_sublist _ _ _).subset hb)).1 (pick_within _ _ _ b hb)

theorem Unstarted.cons {n : Nat} (h : Unstarted first others span_ms after n) (hhere : ¬ ∃ rest, Starts first others span_ms start after rest) :
    Unstarted first others span_ms (start :: after) (n + 1) := by
  intro before start' after' rest heq hlt hstarts
  cases before with
  | nil =>
    cases heq
    exact hhere ⟨rest, hstarts⟩
  | cons b before =>
    cases heq
    exact h before start' after' rest rfl (Nat.lt_of_succ_lt_succ hlt) hstarts

/-- The scan returns a match that starts as early as any does, and nothing only where none starts. -/
theorem match_from_spec (hsorted : events.Pairwise InOrder) (hexact : Exact events) :
    (match_from first others span_ms events = none ∧ Unstarted first others span_ms events events.length) ∨
      ∃ before start after rest, match_from first others span_ms events = some (start :: rest) ∧ events = before ++ start :: after ∧
        Starts first others span_ms start after rest ∧ Unstarted first others span_ms events before.length := by
  induction events with
  | nil => exact .inl ⟨rfl, fun _ _ _ _ _ hlt => absurd hlt (Nat.not_lt_zero _)⟩
  | cons start after ih =>
    have hrest := ih (List.pairwise_cons.1 hsorted).2 (fun a ha b hb => hexact a (List.mem_cons_of_mem _ ha) b (List.mem_cons_of_mem _ hb))
    have hiff := @starts_iff first others span_ms _ _ hsorted hexact
    by_cases hhere : first start.event = true ∧
        (pick (in_span start.timestamp_ms span_ms) (others.map on_event) after).length = others.length
    · refine .inr ⟨[], start, after, _, ?_, rfl, starts_pick hsorted hexact hhere.1 hhere.2,
        fun _ _ _ _ _ hlt => absurd hlt (Nat.not_lt_zero _)⟩
      simp only [match_from, hhere.1, List.length_cons, hhere.2, ↓reduceIte]
    · have hskip : match_from first others span_ms (start :: after) = match_from first others span_ms after := by
        rw [match_from]
        by_cases hfirst : first start.event = true
        · have hlen : ¬ (start :: pick (in_span start.timestamp_ms span_ms) (others.map on_event) after).length = others.length + 1 := by
            intro hlen
            exact hhere ⟨hfirst, Nat.succ.inj hlen⟩
          rw [if_pos hfirst]
          exact if_neg hlen
        · rw [if_neg hfirst]
      rw [hskip]
      have hnone : ¬ ∃ rest, Starts first others span_ms start after rest := fun h => hhere (hiff.2 h)
      rcases hrest with ⟨heq, hun⟩ | ⟨before, start', after', rest, heq, hsplit, hstarts, hun⟩
      · exact .inl ⟨heq, hun.cons hnone⟩
      · exact .inr ⟨start :: before, start', after', rest, heq, by rw [hsplit]; rfl, hstarts, hun.cons hnone⟩

/-- An occurrence is a start at its first position. -/
theorem Occurs.starts (h : Occurs (first :: others) span_ms events positions chosen) (hsorted : events.Pairwise InOrder) :
    ∃ before start after rest is, events = before ++ start :: after ∧ chosen = start :: rest ∧ positions = before.length :: is ∧
      Starts first others span_ms start after rest := by
  obtain ⟨hincreasing, hfound, hsatisfied, hspanned⟩ := h
  cases hsatisfied with
  | @cons _ start _ rest hfirst hothers =>
    cases hfound with
    | @cons i _ is _ hi hfound =>
      obtain ⟨hlt, hget⟩ := List.getElem?_eq_some_iff.1 hi
      obtain ⟨hup, hincreasing⟩ := List.pairwise_cons.1 hincreasing
      have hsplit : events = events.take i ++ start :: events.drop (i + 1) := by
        rw [← hget, ← List.drop_eq_getElem_cons hlt, List.take_append_drop]
      have hsub : rest.Sublist (events.drop (i + 1)) := sublist_of_positions hincreasing hup hfound
      have hafter := hsorted
      rw [hsplit] at hafter
      refine ⟨events.take i, start, events.drop (i + 1), rest, is, hsplit, rfl, by rw [List.length_take_of_le hlt.le], hfirst,
        ⟨hsub, List.forall₂_map_left_iff.2 hothers⟩, fun b hb => ?_⟩
      -- The last of the others is the latest of them.
      obtain ⟨last, hlast⟩ : ∃ last, rest.getLast? = some last := by
        cases hrest : rest.getLast? with
        | none =>
          rw [List.getLast?_eq_none_iff.1 hrest] at hb
          cases hb
        | some last => exact ⟨last, rfl⟩
      have hend : last.timestamp_ms - start.timestamp_ms ≤ span_ms := by
        refine hspanned start rfl last ?_
        rw [List.getLast?_cons, hlast]
        rfl
      have hle : b.timestamp_ms ≤ last.timestamp_ms := by
        have hordered := (List.pairwise_cons.1 (List.pairwise_append.1 hafter).2.1).2.sublist hsub
        obtain ⟨front, rfl⟩ := List.getLast?_eq_some_iff.1 hlast
        rcases List.mem_append.1 hb with hb | hb
        · exact ((List.pairwise_append.1 hordered).2.2 b hb last (List.mem_singleton.2 rfl)).timestamp_le
        · rw [List.mem_singleton.1 hb]
      omega

/-- A start has positions. -/
theorem Starts.occurs {before rest : List BufferedTelemetryEvent} (h : Starts first others span_ms start after rest) (hspan : 0 ≤ span_ms) :
    ∃ is, Occurs (first :: others) span_ms (before ++ start :: after) (before.length :: is) (start :: rest) := by
  obtain ⟨is, hincreasing, hfound⟩ := positions_of_sublist h.picks.sublist
  have hshift : ∀ i, (before ++ start :: after)[i + (before.length + 1)]? = after[i]? := by
    intro i
    rw [List.getElem?_append_right (by omega), show i + (before.length + 1) - before.length = i + 1 by omega]
    rfl
  refine ⟨is.map (· + (before.length + 1)), ?_, .cons ?_ ?_, .cons h.first (List.forall₂_map_left_iff.1 h.picks.satisfied), ?_⟩
  · refine List.pairwise_cons.2 ⟨fun j hj => ?_, List.pairwise_map.2 (hincreasing.imp fun hij => Nat.add_lt_add_right hij _)⟩
    obtain ⟨i, -, rfl⟩ := List.mem_map.1 hj
    omega
  · rw [List.getElem?_append_right (le_refl _), Nat.sub_self]
    rfl
  · refine List.forall₂_map_left_iff.2 (hfound.imp fun i b hi => ?_)
    rw [hshift]
    exact hi
  · rintro _ ⟨⟩ last hlast
    rw [List.getLast?_cons] at hlast
    cases hrest : rest.getLast? with
    | none =>
      rw [hrest] at hlast
      cases hlast
      rw [Option.getD_none, Int.sub_self]
      exact hspan
    | some l =>
      rw [hrest] at hlast
      cases hlast
      exact h.spanned _ (List.mem_of_getLast? hrest)

/-- What is to hold of the window: its events are in order, each under its arrival number, not too many, and none of them older than
the newest time seen less the retention. -/
structure Retains (config : TemporalEventWindowConfig) (arrived : List TelemetryEvent) (s : TemporalEventWindowState) : Prop where
  in_order : s.events.Pairwise InOrder
  arrived_as : ∀ b ∈ s.events, ∃ i, ArrivedAs arrived b i
  room : s.events.length ≤ config.max_events
  retained : 0 ≤ config.retention_ms.toInt → ∀ e ∈ arrived, ∀ t, normalized_event_timestamp_ms e.timestamp = some t →
    ∀ b ∈ s.events, t - config.retention_ms.toInt ≤ b.timestamp_ms

theorem Carries.retains (h : Carries config arrived s) : Retains config arrived s where
  in_order := h.in_order
  arrived_as := h.arrived_as
  room := h.room
  retained hpos e he t ht b hb := by
    obtain ⟨t', w, ht', hw, hle⟩ := h.seen e he
    cases ht.symm.trans ht'
    obtain ⟨e', -, hew⟩ := h.newest w hw
    have hrange := normalized_range hew
    have hold := h.retained w hw b hb
    unfold satSubI i64Max i64Min at *
    omega

/-- A query returns a match when and only when the window has one, and no match starts earlier than the one it returns. -/
structure Answers (predicates : List TelemetryEventPredicate) (span_ms : Int) (events : List BufferedTelemetryEvent)
    (outcome : Option OrderedTemporalEventMatch) : Prop where
  isSome_iff : outcome.isSome ↔ ∃ positions chosen, Occurs predicates span_ms events positions chosen
  returned : ∀ m, outcome = some m → ∃ positions chosen, Occurs predicates span_ms events positions chosen ∧
    m.matched_events = chosen.map (·.event) ∧
    (∀ a ∈ chosen.head?, ∀ z ∈ chosen.getLast?,
      m.started_at_ms = a.timestamp_ms ∧ m.ended_at_ms = z.timestamp_ms ∧ m.span_ms = z.timestamp_ms - a.timestamp_ms) ∧
    ∀ positions' chosen', Occurs predicates span_ms events positions' chosen' →
      ∀ i ∈ positions.head?, ∀ j ∈ positions'.head?, i ≤ j

theorem answers_match_from (hsorted : events.Pairwise InOrder) (hexact : Exact events) (hspan : 0 ≤ span_ms) :
    Answers (first :: others) span_ms events ((match_from first others span_ms events).map ordered_match) := by
  rcases @match_from_spec first others span_ms events hsorted hexact with
    ⟨heq, hnone⟩ | ⟨before, start, after, rest, heq, hsplit, hstarts, hearliest⟩
  · rw [heq]
    refine ⟨⟨fun h => (Bool.false_ne_true h).elim, ?_⟩, fun m hm => nomatch hm⟩
    rintro ⟨positions, chosen, hoccurs⟩
    obtain ⟨before, start, after, rest, is, hsplit, -, -, hstarts⟩ := hoccurs.starts hsorted
    refine (hnone before start after rest hsplit ?_ hstarts).elim
    rw [hsplit, List.length_append, List.length_cons]
    omega
  · obtain ⟨is, hoccurs⟩ : ∃ is, Occurs (first :: others) span_ms (before ++ start :: after) (before.length :: is) (start :: rest) :=
      hstarts.occurs hspan
    rw [← hsplit] at hoccurs
    rw [heq]
    refine ⟨⟨fun _ => ⟨_, _, hoccurs⟩, fun _ => rfl⟩, ?_⟩
    rintro m ⟨⟩
    refine ⟨_, _, hoccurs, rfl, ?_, ?_⟩
    · rintro _ ⟨⟩ z hz
      have hmem : z ∈ start :: rest := List.mem_of_getLast? hz
      have hsub : (start :: rest).Sublist events := by
        rw [hsplit]
        exact (hstarts.picks.sublist.cons_cons start).trans (List.sublist_append_right before _)
      have hle : start.timestamp_ms ≤ z.timestamp_ms := by
        rcases List.mem_cons.1 hmem with rfl | hz
        · exact le_refl _
        · exact ((List.pairwise_cons.1 (hsorted.sublist hsub)).1 z hz).timestamp_le
      have hended : (ordered_match (start :: rest)).ended_at_ms = z.timestamp_ms := by
        have hlast := congrArg (fun o : Option BufferedTelemetryEvent => (o.map (·.timestamp_ms)).getD start.timestamp_ms) hz
        exact hlast
      refine ⟨rfl, hended, ?_⟩
      show satSubI (ordered_match (start :: rest)).ended_at_ms start.timestamp_ms = _
      rw [hended]
      exact hexact start (hsub.subset List.mem_cons_self) z (hsub.subset hmem) hle
    · rintro positions' chosen' hoccurs' _ ⟨⟩ j hj
      obtain ⟨before', start', after', rest', is', hsplit', -, rfl, hstarts'⟩ := hoccurs'.starts hsorted
      cases hj
      exact not_lt.1 fun hlt => hearliest before' start' after' rest' hsplit' hlt hstarts'

/-- The queries that are not refused. -/
structure Admissible (config : TemporalEventWindowConfig) (predicates : List TelemetryEventPredicate) (span_ms : Int) : Prop where
  nonempty : predicates ≠ []
  count : predicates.length ≤ config.max_predicates_per_match
  positive : 0 < span_ms
  limit : span_ms ≤ config.max_match_span_ms.toInt

/-- What an admissible query returns. -/
def matched (s : TemporalEventWindowState) (span_ms : Int) : List TelemetryEventPredicate → Option OrderedTemporalEventMatch
  | [] => none
  | first :: others => (match_from first others span_ms s.events).map ordered_match

theorem Admissible.match_ordered {predicates : List TelemetryEventPredicate} (h : Admissible config predicates span_ms)
    (s : TemporalEventWindowState) {requested_span_ms : Option Int} (hspan : requested_span_ms.getD config.max_match_span_ms.toInt = span_ms) :
    match_ordered config s predicates requested_span_ms = .ok (matched s span_ms predicates) := by
  cases predicates with
  | nil => exact absurd rfl h.nonempty
  | cons first others =>
    unfold Runtime.match_ordered
    rw [hspan]
    exact (if_neg (not_lt.2 h.count)).trans ((if_neg (not_le.2 h.positive)).trans (if_neg (not_lt.2 h.limit)))

/-- The others are refused. -/
theorem match_ordered_refused {predicates : List TelemetryEventPredicate} (s : TemporalEventWindowState) {requested_span_ms : Option Int}
    (hspan : requested_span_ms.getD config.max_match_span_ms.toInt = span_ms) (h : ¬ Admissible config predicates span_ms) :
    ∃ e, match_ordered config s predicates requested_span_ms = .error e := by
  unfold match_ordered
  rw [hspan]
  cases predicates with
  | nil => exact ⟨_, rfl⟩
  | cons first others =>
    by_cases hcount : (first :: others).length > config.max_predicates_per_match
    · exact ⟨_, if_pos hcount⟩
    · by_cases hpos : span_ms ≤ 0
      · exact ⟨_, (if_neg hcount).trans (if_pos hpos)⟩
      · by_cases hlimit : span_ms > config.max_match_span_ms.toInt
        · exact ⟨_, (if_neg hcount).trans ((if_neg hpos).trans (if_pos hlimit))⟩
        · exact (h ⟨List.cons_ne_nil _ _, not_lt.1 hcount, not_le.1 hpos, not_lt.1 hlimit⟩).elim

theorem Carries.answers (h : Carries config arrived s) {predicates : List TelemetryEventPredicate} (ha : Admissible config predicates span_ms) :
    Answers predicates span_ms s.events (matched s span_ms predicates) := by
  cases predicates with
  | nil => exact absurd rfl ha.nonempty
  | cons first others => exact answers_match_from h.in_order (fun a ha b hb => h.distance ha hb) ha.positive.le

/-- Whatever arrived, in whatever order, the window is in order and bounded, and every admissible query of it is answered exactly. -/
theorem match_ordered_exact (config : TemporalEventWindowConfig) {arrived : List TelemetryEvent} {s : TemporalEventWindowState}
    (hrun : TemporalEventWindowState.record_all config arrived = some s) :
    Retains config arrived s ∧
      ∀ (predicates : List TelemetryEventPredicate) (requested_span_ms : Option Int) (span_ms : Int),
        requested_span_ms.getD config.max_match_span_ms.toInt = span_ms → Admissible config predicates span_ms →
          ∃ outcome, match_ordered config s predicates requested_span_ms = .ok outcome ∧ Answers predicates span_ms s.events outcome := by
  have hholds := holds_of_record_all hrun
  refine ⟨hholds.retains, fun predicates requested_span_ms span_ms hspan hadmissible => ?_⟩
  exact ⟨_, hadmissible.match_ordered s hspan, hholds.answers hadmissible⟩

end

namespace Small

def login (event_id : String) (timestamp : Int64) (success : Bool) : TelemetryEvent :=
  ⟨"synthetic", event_id, timestamp, some "host-1", .AuthenticationEvent ⟨"ssh", none, none, success⟩⟩

def window_config : TemporalEventWindowConfig := ⟨900000, 3, 300000, 2⟩

/-- The second event is late. -/
def late_arrival : List TelemetryEvent := [login "b" 1700000030 true, login "a" 1700000000 false, login "c" 1700000060 true]

def window : TemporalEventWindowState where
  next_sequence := 3
  watermark_ms := some 1700000060000
  events := [⟨1, 1700000000000, login "a" 1700000000 false⟩, ⟨0, 1700000030000, login "b" 1700000030 true⟩,
    ⟨2, 1700000060000, login "c" 1700000060 true⟩]

theorem recorded : TemporalEventWindowState.record_all window_config late_arrival = some window := by decide +kernel

end Small

theorem match_ordered_late : Retains Small.window_config Small.late_arrival Small.window ∧
    ∃ outcome, match_ordered Small.window_config Small.window [fun e => e.event_id = "a", fun e => e.event_id ≠ "a"] none = .ok outcome ∧
      Answers [fun e => e.event_id = "a", fun e => e.event_id ≠ "a"] 300000 Small.window.events outcome := by
  obtain ⟨hretains, hanswers⟩ := match_ordered_exact Small.window_config Small.recorded
  exact ⟨hretains, hanswers [fun e => e.event_id = "a", fun e => e.event_id ≠ "a"] none 300000 (by decide)
    ⟨List.cons_ne_nil _ _, by decide, by decide, by decide⟩⟩

end Ambush.Runtime

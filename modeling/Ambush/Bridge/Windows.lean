import Ambush.Bridge.Coalesce
/-!
# What coalescing loses

The frames of a tick against the whole window. Counting ingest events loses nothing. The
slots keep one record per frame kind, so a mode transition survives only alone and an
action is counted only when it is the last record of its slot.
-/
open Lib

namespace Ambush.Bridge

/-! ## Windows -/

section
variable (decode : Bytes → Option RuntimeEvent)

/-- The gauges after these records, from just after a drain. -/
def gauges (items : List (Stream × Record)) : Gauges := items.foldl (fun g p => g.append decode p.1 p.2) {}

def recordsOf (stream : Stream) (items : List (Stream × Record)) : List Record :=
  (items.filter (fun p => p.1 = stream)).map (·.2)

/-- The events of a stream in the window. -/
def eventsOf (stream : Stream) (items : List (Stream × Record)) : List RuntimeEvent :=
  (recordsOf stream items).filterMap (fun r => decode r.payload)
end

def FrameContent.transition : FrameContent → Option ModeTransitionFrame
  | .ModeTransition body => some body
  | _ => none

def FrameContent.agents : FrameContent → List AgentHealthEntry
  | .AgentHealth agents => agents
  | _ => []

def FrameContent.ingest : FrameContent → Option Bridge.IngestRate
  | .IngestRate body => some body
  | _ => none

/-- How often an agent did this, by its row. -/
def tally (agents : List AgentHealthEntry) (agent kind : String) : Nat :=
  ((agents.find? (fun e => e.agent_id = agent)).bind (fun e => lookup kind e.actions)).getD 0

/-- The frames say what the whole window says: every transition in order, every action
counted, and the ingest counts of the reducer. -/
def LosesNothing (decode : Bytes → Option RuntimeEvent) (items : List (Stream × Record)) (frames : List PendingFrame) :
    Prop :=
  frames.filterMap (·.content.transition) = mode_transitions (eventsOf decode .Telemetry items) ∧
    (∀ agent kind, tally (frames.flatMap (·.content.agents)) agent kind =
      tally ((agent_health_frame (eventsOf decode .Telemetry items)).getD []) agent kind) ∧
    frames.filterMap (·.content.ingest) = [ingest_rate (eventsOf decode .DroppedAtSource items)]

def is_transition : RuntimeEvent → Bool
  | .ModeTransition .. => true
  | _ => false

def is_action : RuntimeEvent → Bool
  | .AgentAction .. => true
  | _ => false

/-- The events of one slot. -/
def inSlot (key : String) (events : List RuntimeEvent) : List RuntimeEvent :=
  events.filter (fun e => telemetry_slot_key e = some key)

/-- At most one transition, and no action that another record of its slot follows. -/
def Uncrowded (events : List RuntimeEvent) : Prop :=
  (events.filter is_transition).length ≤ 1 ∧ ∀ e ∈ (inSlot "26002" events).dropLast, is_action e = false

/-! ## Ingest -/

theorem gauges_append (decode : Bytes → Option RuntimeEvent) (items : List (Stream × Record)) (p : Stream × Record) :
    gauges decode (items ++ [p]) = (gauges decode items).append decode p.1 p.2 := by
  rw [gauges, List.foldl_append]
  rfl

/-- The counts of a window as the reducer would have them after these events. -/
theorem ingest_loop_append (events : List RuntimeEvent) (e : RuntimeEvent) (a r : Nat) (s : List (String × Nat)) :
    ingest_loop a r s (events ++ [e]) =
      ingest_loop (ingest_loop a r s events).accepted (ingest_loop a r s events).rejected
        (ingest_loop a r s events).by_source [e] := by
  induction events generalizing a r s with
  | nil => rfl
  | cons x events ih =>
    cases x <;> exact ih _ _ _

theorem ingest_window_eq (decode : Bytes → Option RuntimeEvent) (items : List (Stream × Record)) :
    (gauges decode items).ingest_window.drain.1 = ingest_rate (eventsOf decode .DroppedAtSource items) := by
  induction items using List.reverseRecOn with
  | nil => rfl
  | append_singleton items p ih =>
    obtain ⟨stream, record⟩ := p
    rw [gauges_append]
    have hother : stream ≠ .DroppedAtSource →
        eventsOf decode .DroppedAtSource (items ++ [(stream, record)]) = eventsOf decode .DroppedAtSource items := by
      intro hne
      simp [eventsOf, recordsOf, hne]
    cases stream with
    | Evidence => rw [hother (by decide)]; exact ih
    | Alarm => rw [hother (by decide)]; exact ih
    | Telemetry => rw [hother (by decide)]; exact ih
    | DroppedAtSource =>
      have hevents : eventsOf decode .DroppedAtSource (items ++ [(.DroppedAtSource, record)]) =
          eventsOf decode .DroppedAtSource items ++ (decode record.payload).toList := by
        simp only [eventsOf, recordsOf, List.filter_append, List.map_append, List.filterMap_append]
        cases h : decode record.payload <;> simp [h]
      rw [hevents]
      cases h : decode record.payload with
      | none => simpa [Gauges.append, h] using ih
      | some e =>
        rw [Option.toList_some, ingest_rate, ingest_loop_append]
        rw [← ingest_rate, ← ih]
        cases e <;> simp [Gauges.append, h, ingest_loop, IngestWindow.drain, IngestWindow.record]

/-! ## Slots -/

section
variable (decode : Bytes → Option RuntimeEvent)

/-- The telemetry spool after these records. -/
def slotsOf (records : List Record) : MemorySpool :=
  records.foldl (fun spool r => spool.put (telemetry_slot_key_for decode r) r) []

theorem slotsOf_append (records : List Record) (r : Record) :
    slotsOf decode (records ++ [r]) = (slotsOf decode records).put (telemetry_slot_key_for decode r) r := by
  rw [slotsOf, List.foldl_append]
  rfl

theorem telemetry_eq (items : List (Stream × Record)) :
    (gauges decode items).telemetry = slotsOf decode (recordsOf .Telemetry items) := by
  induction items using List.reverseRecOn with
  | nil => rfl
  | append_singleton items p ih =>
    obtain ⟨stream, record⟩ := p
    have hsplit : recordsOf .Telemetry (items ++ [(stream, record)]) =
        recordsOf .Telemetry items ++ (if stream = .Telemetry then [record] else []) := by
      cases stream <;> simp [recordsOf]
    rw [gauges_append, hsplit]
    cases stream with
    | Telemetry => rw [if_pos rfl, slotsOf_append, ← ih]; rfl
    | Evidence => simpa [Gauges.append] using ih
    | Alarm => simpa [Gauges.append] using ih
    | DroppedAtSource => simpa [Gauges.append] using ih

theorem sorted_slotsOf (records : List Record) : Sorted (slotsOf decode records) := by
  induction records using List.reverseRecOn with
  | nil => exact List.Pairwise.nil
  | append_singleton records r ih =>
    rw [slotsOf_append]
    exact sorted_upsert ih

/-- A slot holds the last record that landed in it. -/
theorem lookup_slotsOf (records : List Record) (k : String) :
    (lookup k (slotsOf decode records)).map (·.1) =
      (records.filter (fun r => telemetry_slot_key_for decode r = k)).getLast? := by
  induction records using List.reverseRecOn with
  | nil => rfl
  | append_singleton records r ih =>
    rw [slotsOf_append, MemorySpool.put, lookup_upsert (sorted_slotsOf decode records), List.filter_append]
    by_cases hk : k = telemetry_slot_key_for decode r
    · subst hk
      simp
    · rw [if_neg hk, ih]
      simp [Ne.symm hk]

theorem mem_slotsOf {records : List Record} {slot : String × (Record × Nat)} (h : slot ∈ slotsOf decode records) :
    telemetry_slot_key_for decode slot.2.1 = slot.1 := by
  have hs := sorted_slotsOf decode records
  have hl : lookup slot.1 (slotsOf decode records) = some slot.2 := by
    obtain ⟨hd, hrest, hsplit⟩ := List.append_of_mem h
    generalize slotsOf decode records = l at hsplit hs
    subst hsplit
    induction hd with
    | nil => rw [List.nil_append, lookup_cons, if_pos rfl]
    | cons p hd ih =>
      obtain ⟨hhead, hrest'⟩ := List.pairwise_cons.1 hs
      have hlt := hhead slot.1 (by simp)
      rw [List.cons_append, lookup_cons, if_neg (fun he => String.lt_irrefl _ (he ▸ hlt))]
      exact ih hrest'
  have hlast := lookup_slotsOf decode records slot.1
  rw [hl] at hlast
  have hmem := List.mem_of_getLast? hlast.symm
  simpa using (List.mem_filter.1 hmem).2

theorem slot_key_of {r : Record} {k : String} (hk : k ≠ "other") :
    telemetry_slot_key_for decode r = k ↔ ∃ e, decode r.payload = some e ∧ telemetry_slot_key e = some k := by
  rw [telemetry_slot_key_for]
  cases hd : decode r.payload with
  | none => simp [Ne.symm hk]
  | some e =>
    cases he : telemetry_slot_key e with
    | none => simp [he, Ne.symm hk]
    | some k' => simp [he]

/-- The last event of a slot is the one its record decodes to. -/
theorem last_in_slot (records : List Record) {k : String} (hk : k ≠ "other") :
    (records.filter (fun r => telemetry_slot_key_for decode r = k)).getLast?.bind (fun r => decode r.payload) =
      (inSlot k (records.filterMap (fun r => decode r.payload))).getLast? := by
  induction records using List.reverseRecOn with
  | nil => rfl
  | append_singleton records r ih =>
    rw [List.filter_append, List.filterMap_append, inSlot, List.filter_append]
    by_cases h : telemetry_slot_key_for decode r = k
    · obtain ⟨e, hd, he⟩ := (slot_key_of decode hk).1 h
      simp [h, hd, he]
    · have hnone : List.filter (fun e => decide (telemetry_slot_key e = some k))
          (List.filterMap (fun r => decode r.payload) [r]) = [] := by
        rw [List.filter_eq_nil_iff]
        intro e hmem he
        refine h ((slot_key_of decode hk).2 ⟨e, ?_, by simpa using he⟩)
        simpa using hmem
      rw [hnone, List.append_nil, List.filter_cons_of_neg (by simpa using h), List.filter_nil, List.append_nil]
      exact ih

/-- What is read of the drained slots through one slot's events. -/
theorem drained_filterMap {β : Type} (records : List Record) {k : String} (hk : k ≠ "other") {g : RuntimeEvent → Option β}
    (hg : ∀ e, telemetry_slot_key e ≠ some k → g e = none) :
    ((slotsOf decode records).filterMap (fun slot => decode slot.2.1.payload)).filterMap g =
      ((inSlot k (records.filterMap (fun r => decode r.payload))).getLast?.bind g).toList := by
  have hvanish : ∀ slot ∈ slotsOf decode records, slot.1 ≠ k →
      (decode slot.2.1.payload).bind g = none := by
    intro slot hslot hne
    cases hd : decode slot.2.1.payload with
    | none => rfl
    | some e =>
      refine hg e (fun he => hne ?_)
      rw [← mem_slotsOf decode hslot]
      exact (slot_key_of decode hk).2 ⟨e, hd, he⟩
  rw [List.filterMap_filterMap, filterMap_lookup (sorted_slotsOf decode records) hvanish,
    ← last_in_slot decode records hk, ← lookup_slotsOf]
  cases lookup k (slotsOf decode records) <;> rfl
end

/-! ## Tallies -/

/-- An action of this agent and kind. -/
def does (agent kind : String) : RuntimeEvent → Bool
  | .AgentAction _ agent_id _ action_kind => agent_id = agent ∧ action_kind = kind
  | _ => false

/-- The rows of the health frame, and the count a row has for an action. -/
def rowTally (rows : List (String × Row)) (agent kind : String) : Nat :=
  ((lookup agent rows).bind (fun row => lookup kind row.actions)).getD 0

/-- Rows in order, each with its actions in order. -/
def RowsSorted (rows : List (String × Row)) : Prop := Sorted rows ∧ ∀ agent row, lookup agent rows = some row → Sorted row.actions

theorem health_step_spec {rows : List (String × Row)} (h : RowsSorted rows) (e : RuntimeEvent) (agent kind : String) :
    RowsSorted (health_step rows e) ∧
      rowTally (health_step rows e) agent kind = rowTally rows agent kind + (if does agent kind e then 1 else 0) := by
  obtain ⟨hs, ha⟩ := h
  cases e with
  | AgentHealth at_ms id role was now =>
    refine ⟨⟨sorted_upsert hs, fun a row hrow => ?_⟩, ?_⟩
    · rw [health_step, lookup_upsert hs] at hrow
      split at hrow
      · obtain rfl := Option.some.inj hrow
        cases hl : lookup id rows with
        | none => exact List.Pairwise.nil
        | some old => exact ha id old hl
      · exact ha a row hrow
    · simp only [health_step, rowTally, lookup_upsert hs, does, Bool.false_eq_true, ↓reduceIte, Nat.add_zero]
      by_cases hid : agent = id
      · subst hid
        cases hl : lookup agent rows <;> simp [lookup, lookupBy]
      · simp [hid]
  | AgentAction at_ms id role action_kind =>
    have hold : Sorted ((lookup id rows).getD { role }).actions := by
      cases hl : lookup id rows with
      | none => exact List.Pairwise.nil
      | some old => exact ha id old hl
    refine ⟨⟨sorted_upsert hs, fun a row hrow => ?_⟩, ?_⟩
    · rw [health_step, lookup_upsert hs] at hrow
      split at hrow
      · obtain rfl := Option.some.inj hrow
        exact sorted_upsert hold
      · exact ha a row hrow
    · simp only [health_step, rowTally, lookup_upsert hs, does]
      by_cases hid : agent = id
      · subst hid
        rw [if_pos rfl, Option.bind_some, lookup_upsert hold]
        by_cases hk : kind = action_kind
        · subst hk
          cases hl : lookup agent rows <;> simp [lookup, lookupBy]
        · cases hl : lookup agent rows <;> simp [hk, Ne.symm hk, lookup, lookupBy]
      · simp [hid, Ne.symm hid]
  | _ => exact ⟨⟨hs, ha⟩, by simp [health_step, does]⟩

theorem rowTally_foldl {rows : List (String × Row)} (h : RowsSorted rows) (events : List RuntimeEvent) (agent kind : String) :
    rowTally (events.foldl health_step rows) agent kind = rowTally rows agent kind + events.countP (does agent kind) := by
  induction events generalizing rows with
  | nil => rfl
  | cons e events ih =>
    obtain ⟨hs, ht⟩ := health_step_spec h e agent kind
    rw [List.foldl_cons, ih hs, ht, List.countP_cons]
    omega

/-- The health frame counts every action of its window. -/
theorem tally_agent_health_frame (events : List RuntimeEvent) (agent kind : String) :
    tally ((agent_health_frame events).getD []) agent kind = events.countP (does agent kind) := by
  have hcount := @rowTally_foldl [] ⟨List.Pairwise.nil, fun a row hrow => absurd hrow (by simp [lookup, lookupBy])⟩
    events agent kind
  have hframe : tally ((agent_health_frame events).getD []) agent kind =
      rowTally (events.foldl health_step []) agent kind := by
    rw [agent_health_frame]
    generalize events.foldl health_step [] = rows
    by_cases hr : rows = []
    · simp [hr, tally, rowTally, lookup, lookupBy]
    · simp only [hr, ↓reduceIte, Option.getD_some, tally, rowTally, lookup, lookupBy, List.find?_map]
      have hpred : ((fun e : AgentHealthEntry => decide (e.agent_id = agent)) ∘ fun p : String × Row =>
          (⟨p.1, p.2.role, p.2.was, p.2.now.getD .Degraded, p.2.changed_at_ms, p.2.actions⟩ : AgentHealthEntry)) =
          fun p => p.1 == agent := by
        funext p
        rfl
      rw [hpred]
      cases rows.find? (fun p => p.1 == agent) <;> rfl
  rw [hframe, hcount]
  simp [rowTally, lookup, lookupBy]

/-! ## Frames -/

theorem map_content_number (issuer : String) (at_ms : Int) (seqs : Map Nat Nat) (bodies : List FrameContent) :
    (number issuer at_ms seqs bodies).map (·.content) = bodies := by
  induction bodies generalizing seqs with
  | nil => rfl
  | cons body bodies ih => rw [number, List.map_cons, ih]

section
variable (decode : Bytes → Option RuntimeEvent) (items : List (Stream × Record)) (issuer : String) (seqs : Map Nat Nat)
  (now_ms : Int)

/-- The events the tick decodes of the drained slots. -/
def drained : List RuntimeEvent :=
  (slotsOf decode (recordsOf .Telemetry items)).filterMap (fun slot => decode slot.2.1.payload)

theorem map_content_publish_tick : ∃ coalesced_from,
    (publish_tick decode (gauges decode items) issuer seqs now_ms).map (·.content) =
      tick_bodies (ingest_rate (eventsOf decode .DroppedAtSource items)) (drained decode items) coalesced_from := by
  refine ⟨((lookup CONCENTRATION_SLOT (gauges decode items).telemetry).map (·.2)).getD 0, ?_⟩
  rw [publish_tick, tick_frames, map_content_number, ingest_window_eq, telemetry_eq]
  rfl

theorem frames_transitions :
    (publish_tick decode (gauges decode items) issuer seqs now_ms).filterMap (·.content.transition) =
      mode_transitions (drained decode items) := by
  obtain ⟨n, hn⟩ := map_content_publish_tick decode items issuer seqs now_ms
  have hmap := congrArg (List.filterMap FrameContent.transition) hn
  rw [List.filterMap_map] at hmap
  refine hmap.trans ?_
  have hself : ∀ l : List ModeTransitionFrame, (l.map FrameContent.ModeTransition).filterMap FrameContent.transition = l := by
    intro l
    rw [List.filterMap_map]
    exact List.filterMap_some
  rw [tick_bodies]
  simp only [List.filterMap_append, List.filterMap_cons, FrameContent.transition, hself]
  cases concentration_frame (drained decode items) n <;> cases agent_health_frame (drained decode items) <;>
    cases governance_status_frame (drained decode items) <;>
    simp [List.filterMap_cons, FrameContent.transition]

theorem frames_agents :
    (publish_tick decode (gauges decode items) issuer seqs now_ms).flatMap (·.content.agents) =
      (agent_health_frame (drained decode items)).getD [] := by
  obtain ⟨n, hn⟩ := map_content_publish_tick decode items issuer seqs now_ms
  have hmap := congrArg (List.flatMap FrameContent.agents) hn
  rw [List.flatMap_map] at hmap
  refine hmap.trans ?_
  have hnone : ∀ l : List ModeTransitionFrame, (l.map FrameContent.ModeTransition).flatMap FrameContent.agents = [] := by
    intro l
    rw [List.flatMap_map]
    exact List.flatMap_eq_nil_iff.2 (fun _ _ => rfl)
  rw [tick_bodies]
  simp only [List.flatMap_append, List.flatMap_cons, FrameContent.agents, hnone]
  cases concentration_frame (drained decode items) n <;> cases agent_health_frame (drained decode items) <;>
    cases governance_status_frame (drained decode items) <;>
    simp [List.flatMap_cons, FrameContent.agents]

theorem frames_ingest :
    (publish_tick decode (gauges decode items) issuer seqs now_ms).filterMap (·.content.ingest) =
      [ingest_rate (eventsOf decode .DroppedAtSource items)] := by
  obtain ⟨n, hn⟩ := map_content_publish_tick decode items issuer seqs now_ms
  have hmap := congrArg (List.filterMap FrameContent.ingest) hn
  rw [List.filterMap_map] at hmap
  refine hmap.trans ?_
  have hnone : ∀ l : List ModeTransitionFrame, (l.map FrameContent.ModeTransition).filterMap FrameContent.ingest = [] := by
    intro l
    rw [List.filterMap_map, List.filterMap_eq_nil_iff]
    exact fun _ _ => rfl
  rw [tick_bodies]
  simp only [List.filterMap_append, List.filterMap_cons, FrameContent.ingest, hnone]
  cases concentration_frame (drained decode items) n <;> cases agent_health_frame (drained decode items) <;>
    cases governance_status_frame (drained decode items) <;>
    simp [List.filterMap_cons, FrameContent.ingest]

/-! ## The window and its frames -/

/-- Only the last transition of the window is left. -/
theorem drained_transitions : mode_transitions (drained decode items) =
    ((inSlot "26003" (eventsOf decode .Telemetry items)).getLast?.bind mode_transition).toList := by
  refine drained_filterMap decode _ (by decide) (fun e he => ?_)
  cases e <;> first | rfl | exact absurd rfl he

/-- Only the last record of the slot is counted. -/
theorem drained_count (agent kind : String) : (drained decode items).countP (does agent kind) =
    (inSlot "26002" (eventsOf decode .Telemetry items)).getLast?.toList.countP (does agent kind) := by
  have hfilter : ∀ l : List RuntimeEvent,
      l.countP (does agent kind) = (l.filterMap (Option.guard (does agent kind))).length := by
    intro l
    rw [List.countP_eq_length_filter, List.filterMap_eq_filter]
  rw [hfilter, hfilter]
  have hslot := drained_filterMap decode (recordsOf .Telemetry items) (k := "26002") (by decide)
    (g := Option.guard (does agent kind)) (fun e he => by
      cases e <;> first | rfl | exact absurd rfl he)
  rw [drained, hslot]
  rw [eventsOf]
  cases (inSlot "26002" _).getLast? with
  | none => rfl
  | some e => cases h : does agent kind e <;> simp [Option.guard, h]
end

/-! ## What is lost -/

theorem is_transition_iff (e : RuntimeEvent) : is_transition e = decide (telemetry_slot_key e = some "26003") := by
  cases e <;> rfl

theorem mode_transition_of_slot {e : RuntimeEvent} (h : is_transition e) : ∃ frame, mode_transition e = some frame := by
  cases e with
  | ModeTransition at_ms source target triggering reason => exact ⟨_, rfl⟩
  | _ => exact absurd h Bool.false_ne_true

/-- The transitions of a window are those of its slot. -/
theorem mode_transitions_inSlot (events : List RuntimeEvent) :
    mode_transitions events = mode_transitions (inSlot "26003" events) := by
  rw [mode_transitions, mode_transitions, inSlot, List.filterMap_filter]
  congr 1
  funext e
  cases e <;> rfl

theorem length_mode_transitions (events : List RuntimeEvent) :
    (mode_transitions events).length = (events.filter is_transition).length := by
  induction events with
  | nil => rfl
  | cons e events ih => cases e <;> simp_all [mode_transitions, List.filterMap_cons, List.filter_cons, mode_transition,
      is_transition]

/-- Keeping the last record of a slot keeps its transitions exactly when it holds at most one. -/
theorem transitions_kept_iff (events : List RuntimeEvent) :
    ((inSlot "26003" events).getLast?.bind mode_transition).toList = mode_transitions events ↔
      (events.filter is_transition).length ≤ 1 := by
  have hslot : inSlot "26003" events = events.filter is_transition := by
    rw [inSlot]
    congr 1
    funext e
    exact (is_transition_iff e).symm
  constructor
  · intro h
    rw [← length_mode_transitions, ← h]
    cases (inSlot "26003" events).getLast?.bind mode_transition <;> simp
  · intro h
    rw [mode_transitions_inSlot, hslot]
    rcases hl : events.filter is_transition with _ | ⟨e, _ | ⟨e', rest⟩⟩
    · rfl
    · have he : is_transition e := (List.mem_filter.1 (by rw [hl]; exact List.mem_singleton_self e)).2
      obtain ⟨frame, hframe⟩ := mode_transition_of_slot he
      simp [mode_transitions, hframe]
    · rw [hl] at h
      exact absurd h (by simp)

/-- The count of a window is that of its slot, of which the last record is one part. -/
theorem count_inSlot (events : List RuntimeEvent) (agent kind : String) :
    events.countP (does agent kind) = (inSlot "26002" events).dropLast.countP (does agent kind) +
      (inSlot "26002" events).getLast?.toList.countP (does agent kind) := by
  have hslot : events.countP (does agent kind) = (inSlot "26002" events).countP (does agent kind) := by
    rw [inSlot, List.countP_filter]
    congr 1
    funext e
    cases e <;> simp [does, telemetry_slot_key]
  rw [hslot, ← List.countP_append]
  congr 1
  cases hl : (inSlot "26002" events).getLast? with
  | none => simp [List.getLast?_eq_none_iff.1 hl]
  | some e => exact (List.dropLast_append_getLast? e hl).symm

theorem count_zero_iff (events : List RuntimeEvent) :
    (∀ agent kind, events.countP (does agent kind) = 0) ↔ ∀ e ∈ events, is_action e = false := by
  constructor
  · intro h e he
    cases e with
    | AgentAction at_ms agent role kind =>
      have hzero := List.countP_eq_zero.1 (h agent kind) _ he
      simp [does] at hzero
    | _ => rfl
  · intro h agent kind
    refine List.countP_eq_zero.2 (fun e he => ?_)
    have haction := h e he
    cases e <;> simp_all [does, is_action]

/-- Keeping the last record of a slot keeps its tallies exactly when no other one is an action. -/
theorem tallies_kept_iff (events : List RuntimeEvent) :
    (∀ agent kind, (inSlot "26002" events).getLast?.toList.countP (does agent kind) = events.countP (does agent kind)) ↔
      ∀ e ∈ (inSlot "26002" events).dropLast, is_action e = false := by
  rw [← count_zero_iff]
  constructor
  · intro h agent kind
    have heq := h agent kind
    have hsplit := count_inSlot events agent kind
    omega
  · intro h agent kind
    rw [count_inSlot events, h agent kind, Nat.zero_add]

/-- The frames of a tick say what the whole window says exactly when no slot of the window
is crowded: the transitions and the tallies of a crowded slot are those of its last record. -/
theorem coalescing_loses_nothing_iff (decode : Bytes → Option RuntimeEvent) (items : List (Stream × Record)) (issuer : String)
    (seqs : Map Nat Nat) (now_ms : Int) :
    LosesNothing decode items (publish_tick decode (gauges decode items) issuer seqs now_ms) ↔
      Uncrowded (eventsOf decode .Telemetry items) := by
  rw [LosesNothing, Uncrowded, frames_transitions, frames_agents, frames_ingest, drained_transitions,
    transitions_kept_iff, ← tallies_kept_iff]
  simp only [tally_agent_health_frame, drained_count, and_true]

/-! A payload of one byte is an action of one agent. -/

def one_action (payload : Bytes) : Option RuntimeEvent :=
  if payload.length = 1 then some (.AgentAction 0 "hunter" .Whisker "probe") else none

/-- Two actions of one agent within a second are published as one. -/
theorem two_actions_are_counted_once :
    let items := [(Stream.Telemetry, (⟨1, 0, 0, 0, [7]⟩ : Record)), (Stream.Telemetry, ⟨2, 5, 0, 0, [8]⟩)]
    (∀ p ∈ items, (one_action p.2.payload).map classify = some p.1) ∧
      tally ((publish_tick one_action (gauges one_action items) "issuer" .empty 1000).flatMap (·.content.agents)) "hunter" "probe" = 1 ∧
      tally ((agent_health_frame (eventsOf one_action .Telemetry items)).getD []) "hunter" "probe" = 2 ∧
      ¬ LosesNothing one_action items (publish_tick one_action (gauges one_action items) "issuer" .empty 1000) := by
  refine ⟨by decide, by decide +kernel, by decide +kernel, fun h => ?_⟩
  exact absurd (h.2.1 "hunter" "probe") (by decide +kernel)

end Ambush.Bridge

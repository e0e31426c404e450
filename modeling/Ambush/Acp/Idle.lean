import Ambush.Acp.Accounting
/-!
# When the pool may sleep

Whether there is work is asked of the queue in three ways, each of which walks the maps by
itself. What they come to is said of the entries of one channel at a time, so the order of a
walk does not matter as long as it leaves no key out.
-/
open Lib

namespace Ambush.Acp
namespace EventQueue

/-! ## The calls -/

/-- What a call makes of the queue, whoever makes it and with whatever batch. -/
def call (q : EventQueue) : Move → EventQueue
  | .push event => (q.push event).1
  | .flush_next now walk => (q.flush_next now walk).1
  | .has_flushable_work now walk => (q.has_flushable_work now walk).1
  | .extend_in_flight_deadline channel_id max_turn_secs now => q.extend_in_flight_deadline channel_id max_turn_secs now
  | .mark_complete channel_id now _ => q.mark_complete channel_id now
  | .requeue batch now jitter => (q.requeue batch now jitter).1
  | .requeue_preserve_timestamps batch => q.requeue_preserve_timestamps batch
  | .requeue_as_cancelled batch reason => q.requeue_as_cancelled batch reason
  | .mark_native_steer_pending channel_id event_id => (q.mark_native_steer_pending channel_id event_id).1
  | .release_native_steer channel_id event_id => q.release_native_steer channel_id event_id
  | .remove_event channel_id event_id => q.remove_event channel_id event_id
  | .drain_channel channel_id => (q.drain_channel channel_id).1
  | .compact_expired_state now => q.compact_expired_state now

def Calls (q : EventQueue) (m : Move) (q' : EventQueue) : Prop := q.call m = q'

/-- The calls of the harness are calls. -/
theorem call_of_move {h h' : Harness} {m : Move} (hmove : h.move m = some h') : h'.queue = h.queue.call m := by
  cases m with
  | mark_complete channel_id now finished =>
    unfold Harness.move at hmove
    dsimp only at hmove
    split at hmove
    · exact (Harness.finish_spec hmove).1
    · cases hmove
  | requeue batch now jitter | requeue_preserve_timestamps batch | requeue_as_cancelled batch reason =>
    obtain ⟨h₁, hgive, rfl⟩ := Option.map_eq_some_iff.1 hmove
    dsimp only [call]
    rw [← (Harness.give_up_spec hgive).1]
  | _ =>
    cases hmove
    rfl

/-! ## One channel -/

/-- What the maps that decide about work have under a channel. -/
structure Slot where
  queued : Option (List QueuedEvent)
  in_flight : Option Unit
  deadline : Option Instant
  batch_size : Option Nat
  retry_after : Option Instant
  cancelled : Option (List BatchEvent)
  withheld : Option (List QueuedEvent)

def slot (q : EventQueue) (c : Uuid) : Slot :=
  ⟨q.queues c, q.in_flight_channels c, q.in_flight_deadlines c, q.in_flight_batch_sizes c, q.retry_after c, q.cancelled_batches c,
    q.withheld_native_steer c⟩

namespace Slot

def listed (s : Slot) : List QueuedEvent := s.queued.getD []

/-- The deadline has passed. -/
def expired (s : Slot) (now : Instant) : Bool := s.deadline.any (· ≤ now)

/-- Out of flight, with what was withheld at the front of the queue again. -/
def expire (s : Slot) : Slot where
  queued := match s.withheld with
    | none => s.queued
    | some entries => some ((entries ++ s.listed).take MAX_PENDING_PER_CHANNEL)
  in_flight := none
  deadline := none
  batch_size := none
  retry_after := s.retry_after
  cancelled := s.cancelled
  withheld := none

/-- As a flush at that instant finds it. -/
def at_flush (s : Slot) (now : Instant) : Slot := if s.expired now then s.expire else s

/-- There are queued events and neither a prompt nor a throttle. -/
def ready (s : Slot) (now : Instant) : Bool := !s.listed.isEmpty && s.in_flight.isNone && s.retry_after.all (· ≤ now)

/-- There are cancelled events and no prompt. -/
def interrupted (s : Slot) : Bool := s.cancelled.isSome && s.in_flight.isNone

/-- The flight maps agree on the channel. -/
structure SameKeys (s : Slot) : Prop where
  deadline : s.deadline.isSome = s.in_flight.isSome
  batch_size : s.batch_size.isSome = s.in_flight.isSome

theorem expire_expire (s : Slot) : s.expire.expire = s.expire := rfl

end Slot

variable {q : EventQueue} {c : Uuid}

theorem slot_expire (q : EventQueue) (id c : Uuid) : (q.expire id).slot c = if c = id then (q.slot c).expire else q.slot c := by
  unfold expire recover_withheld_for_expired_channel
  dsimp only
  by_cases hc : c = id
  · subst hc
    rw [if_pos rfl]
    split
    · next hnone => simp only [slot, Slot.expire, hnone, Map.remove_self]
    · next entries hsome =>
      simp only [slot, Slot.expire, Slot.listed, requeue_front, push_front_all_eq, hsome, Map.remove_self, Map.insert_self, Map.listed]
  · rw [if_neg hc]
    split
    · simp only [slot, Map.remove_ne _ _ _ hc]
    · simp only [slot, requeue_front, Map.remove_ne _ _ _ hc, Map.insert_ne _ _ _ _ hc]

theorem slot_expire_all (ids : List Uuid) (q : EventQueue) (c : Uuid) :
    (ids.foldl expire q).slot c = if c ∈ ids then (q.slot c).expire else q.slot c := by
  induction ids generalizing q with
  | nil => rfl
  | cons id ids ih =>
    rw [List.foldl_cons, ih, slot_expire]
    by_cases hid : c = id
    · simp only [hid, if_true, List.mem_cons_self, Slot.expire_expire, ite_self]
    · simp only [hid, if_false, List.mem_cons, false_or]

/-- What a walk over every deadline leaves, whatever its order. -/
theorem slot_auto_expire {now : Instant} {walk : List Uuid} (hwalk : ∀ c, (q.in_flight_deadlines c).isSome → c ∈ walk) (c : Uuid) :
    (q.auto_expire now walk).slot c = (q.slot c).at_flush now := by
  have hmem : c ∈ walk.filter (fun id => (q.in_flight_deadlines id).any (· ≤ now)) ↔ (q.slot c).expired now = true := by
    rw [List.mem_filter]
    refine ⟨fun h => h.2, fun h => ⟨hwalk c ?_, h⟩⟩
    obtain ⟨d, hd, -⟩ := (Option.any_eq_true _ _).1 h
    exact Option.isSome_iff_exists.2 ⟨d, hd⟩
  rw [auto_expire, slot_expire_all, Slot.at_flush]
  simp only [hmem]

/-! ## Whether there is work -/


/-- The orders in which a flush at that instant walks the maps leave no key out. -/
structure Complete (walk : Walk) (q : EventQueue) (now : Instant) : Prop where
  deadlines : ∀ c, (q.in_flight_deadlines c).isSome → c ∈ walk.deadlines
  queues : ∀ c, ((q.auto_expire now walk.deadlines).queues c).isSome → c ∈ walk.queues
  cancelled : ∀ c, ((q.auto_expire now walk.deadlines).cancelled_batches c).isSome → c ∈ walk.cancelled

/-- There is a batch to flush at that instant. -/
def HasWork (q : EventQueue) (now : Instant) : Prop :=
  ∃ c, ((q.slot c).at_flush now).ready now = true ∨ ((q.slot c).at_flush now).interrupted = true

section
variable {now : Instant} {walk : Walk}

/-- The queue has a first event just where it has one, and the channel is ready. -/
theorem oldest_isSome_iff : (q.oldest now walk.queues).isSome ↔ ∃ c ∈ walk.queues, (q.slot c).ready now = true := by
  have hheads : ∀ heads : List (Uuid × Instant), ((heads.argmin Prod.snd).map Prod.fst).isSome ↔ ∃ x, x ∈ heads := by
    intro heads
    rw [Option.isSome_map, Option.isSome_iff_ne_none, ne_eq, List.argmin_eq_none]
    exact ⟨List.exists_mem_of_ne_nil heads, fun ⟨x, hx⟩ => List.ne_nil_of_mem hx⟩
  rw [oldest, hheads]
  constructor
  · rintro ⟨x, hx⟩
    obtain ⟨c, hc, hfront⟩ := List.mem_filterMap.1 hx
    obtain ⟨queue, hqueue, hfront⟩ := Option.bind_eq_some_iff.1 hfront
    obtain ⟨front, hhead, hready⟩ := Option.bind_eq_some_iff.1 hfront
    split at hready
    · next hfree =>
      refine ⟨c, hc, ?_⟩
      have hne : queue.isEmpty = false := by
        cases queue with
        | nil => cases hhead
        | cons => rfl
      simp only [Slot.ready, Slot.listed, slot, hqueue, Option.getD_some, hne, Bool.not_false, Bool.true_and]
      exact hfree
    · cases hready
  · rintro ⟨c, hc, hready⟩
    simp only [Slot.ready, Slot.listed, slot, Bool.and_assoc, Bool.and_eq_true, Bool.not_eq_true'] at hready
    obtain ⟨hne, hfree⟩ := hready
    cases hqueue : q.queues c with
    | none =>
      rw [hqueue] at hne
      cases hne
    | some queue =>
      cases queue with
      | nil =>
        rw [hqueue] at hne
        cases hne
      | cons front rest =>
        refine ⟨(c, front.received_at), List.mem_filterMap.2 ⟨c, hc, ?_⟩⟩
        simp only [hqueue, Option.bind_some, List.head?_cons, EventQueue.ready, hfree, Bool.and_self, if_true]

/-- A walk that leaves no key out finds what there is under some key. -/
theorem exists_walked {p : Slot → Bool} {keys : List Uuid} (hkeys : ∀ c, p (q.slot c) = true → c ∈ keys) :
    (∃ c ∈ keys, p (q.slot c) = true) ↔ ∃ c, p (q.slot c) = true :=
  ⟨fun ⟨c, _, hc⟩ => ⟨c, hc⟩, fun ⟨c, hc⟩ => ⟨c, hkeys c hc, hc⟩⟩

theorem Complete.ready (h : Complete walk q now) (c : Uuid)
    (hready : ((q.auto_expire now walk.deadlines).slot c).ready now = true) : c ∈ walk.queues := by
  refine h.queues c ?_
  cases hqueue : (q.auto_expire now walk.deadlines).queues c with
  | none =>
    simp only [Slot.ready, Slot.listed, slot, hqueue, Option.getD_none] at hready
    cases hready
  | some queue => rfl

theorem Complete.interrupted (h : Complete walk q now) (c : Uuid)
    (hcancelled : ((q.auto_expire now walk.deadlines).slot c).interrupted = true) : c ∈ walk.cancelled :=
  h.cancelled c (Bool.and_eq_true_iff.1 hcancelled).1

theorem hasWork_iff (h : Complete walk q now) : q.HasWork now ↔
    (∃ c ∈ walk.queues, ((q.auto_expire now walk.deadlines).slot c).ready now = true) ∨
      ∃ c ∈ walk.cancelled, ((q.auto_expire now walk.deadlines).slot c).interrupted = true := by
  rw [exists_walked (p := fun s => s.ready now) h.ready, exists_walked h.interrupted, ← exists_or]
  refine exists_congr (fun c => ?_)
  rw [slot_auto_expire h.deadlines]

/-- The question whether there is work is answered as the flush would. -/
theorem has_flushable_work_iff (h : Complete walk q now) : (q.has_flushable_work now walk).2 = true ↔ q.HasWork now := by
  rw [hasWork_iff h, has_flushable_work, Bool.or_eq_true, List.any_eq_true, List.any_eq_true]
  simp only [Slot.ready, Slot.listed, Slot.interrupted, slot, EventQueue.ready, Map.listed, Bool.and_assoc]

theorem flush_next_isSome_iff (h : Complete walk q now) : (q.flush_next now walk).2.isSome = true ↔ q.HasWork now := by
  rw [hasWork_iff h, ← oldest_isSome_iff, flush_next]
  dsimp only
  cases holdest : (q.auto_expire now walk.deadlines).oldest now walk.queues with
  | some id => exact ⟨fun _ => .inl rfl, fun _ => rfl⟩
  | none =>
    have hfound : (walk.cancelled.find? (fun id => ((q.auto_expire now walk.deadlines).cancelled_batches id).isSome &&
        ((q.auto_expire now walk.deadlines).in_flight_channels id).isNone)).isSome ↔
        ∃ c ∈ walk.cancelled, ((q.auto_expire now walk.deadlines).slot c).interrupted = true := List.find?_isSome
    rw [← hfound, Option.isSome_none]
    cases walk.cancelled.find? (fun id => ((q.auto_expire now walk.deadlines).cancelled_batches id).isSome &&
        ((q.auto_expire now walk.deadlines).in_flight_channels id).isNone) with
    | some id => exact ⟨fun _ => .inr rfl, fun _ => rfl⟩
    | none =>
      refine ⟨nofun, fun hor => ?_⟩
      rcases hor with hsome | hsome
      · cases hsome
      · cases hsome

/-- Without any work, and with nothing in flight, the tables are empty. -/
theorem held_eq_nil {queues cancelled withheld channels : List Uuid} (hqueues : ∀ c, (q.queues c).isSome → c ∈ queues)
    (hcancelled : ∀ c, (q.cancelled_batches c).isSome → c ∈ cancelled)
    (hwithheld : ∀ c, (q.withheld_native_steer c).isSome → c ∈ withheld)
    (hchannels : ∀ c, (q.in_flight_channels c).isSome → c ∈ channels)
    (hidle : q.has_undispatched_work queues cancelled withheld = false) (hflight : q.has_in_flight channels = false) (c : Uuid) :
    q.held c = [] := by
  have hfree : (q.in_flight_channels c).isNone = true := by
    cases hc : q.in_flight_channels c with
    | none => rfl
    | some _ =>
      have hin := List.any_eq_false.1 hflight c (hchannels c (by rw [hc]; rfl))
      exact absurd (by rw [hc]; rfl) hin
  rw [has_undispatched_work, Bool.or_eq_false_iff, Bool.or_eq_false_iff] at hidle
  obtain ⟨⟨hq, hcan⟩, hw⟩ := hidle
  have hempty : ∀ (m : Map Uuid (List QueuedEvent)) (keys : List Uuid), (∀ id, (m id).isSome → id ∈ keys) →
      keys.any (fun id => !(m.listed id).isEmpty && (q.in_flight_channels id).isNone) = false → m.listed c = [] := by
    intro m keys hkeys hnone
    cases hm : m c with
    | none => rw [Map.listed, hm, Option.getD_none]
    | some l =>
      have hnot := List.any_eq_false.1 hnone c (hkeys c (by rw [hm]; rfl))
      simpa [hfree] using hnot
  have hnocancelled : q.cancelled_batches c = none := by
    cases hm : q.cancelled_batches c with
    | none => rfl
    | some l =>
      have hnot := List.any_eq_false.1 hcan c (hcancelled c (by rw [hm]; rfl))
      rw [hm, hfree] at hnot
      exact absurd rfl hnot
  rw [held, hempty _ _ hqueues hq, hempty _ _ hwithheld hw, Map.listed, hnocancelled]
  rfl

end

/-! ## What is in flight -/

/-- The flight maps have the same keys. -/
def SameKeys (q : EventQueue) : Prop := ∀ c, (q.slot c).SameKeys

section
variable {q' : EventQueue} {now : Instant}

/-- The flight maps are untouched. -/
structure SameFlights (q q' : EventQueue) : Prop where
  channels : q'.in_flight_channels = q.in_flight_channels
  deadlines : q'.in_flight_deadlines = q.in_flight_deadlines
  batch_sizes : q'.in_flight_batch_sizes = q.in_flight_batch_sizes

theorem SameKeys.of_flights (hq : q.SameKeys) (h : SameFlights q q') : q'.SameKeys := by
  intro c
  obtain ⟨hdeadline, hsize⟩ := hq c
  refine ⟨?_, ?_⟩
  · simpa only [slot, h.channels, h.deadlines] using hdeadline
  · simpa only [slot, h.channels, h.batch_sizes] using hsize

theorem SameFlights.in_flight (h : SameFlights q q') (hc : (q.in_flight_channels c).isSome) : (q'.in_flight_channels c).isSome := by
  rw [h.channels]
  exact hc

theorem sameFlights_push (q : EventQueue) (event : QueuedEvent) : SameFlights q (q.push event).1 := by
  unfold push
  split <;> exact ⟨rfl, rfl, rfl⟩

theorem sameFlights_requeue (q : EventQueue) (batch : FlushBatch) (now : Instant) (jitter : Nat → Duration) :
    SameFlights q (q.requeue batch now jitter).1 := by
  unfold requeue
  dsimp only
  split <;> exact ⟨rfl, rfl, rfl⟩

theorem in_flight_channels_extend (q : EventQueue) (channel_id : Uuid) (max_turn_secs : Nat) (now : Instant) :
    (q.extend_in_flight_deadline channel_id max_turn_secs now).in_flight_channels = q.in_flight_channels := by
  unfold extend_in_flight_deadline
  dsimp only
  split
  · rfl
  · split
    · rfl
    · rfl

theorem sameFlights_mark_native_steer_pending (q : EventQueue) (channel_id : Uuid) (event_id : String) :
    SameFlights q (q.mark_native_steer_pending channel_id event_id).1 := by
  unfold mark_native_steer_pending
  split <;> exact ⟨rfl, rfl, rfl⟩

theorem sameFlights_release_native_steer (q : EventQueue) (channel_id : Uuid) (event_id : String) :
    SameFlights q (q.release_native_steer channel_id event_id) := by
  unfold release_native_steer
  split <;> exact ⟨rfl, rfl, rfl⟩

theorem sameKeys_auto_expire (hq : q.SameKeys) (now : Instant) (walk : List Uuid) : (q.auto_expire now walk).SameKeys := by
  intro c
  rw [auto_expire, slot_expire_all]
  split
  · exact ⟨rfl, rfl⟩
  · exact hq c

theorem sameKeys_enter_flight (hq : q.SameKeys) (id : Uuid) (now : Instant) (size : Nat) : (q.enter_flight id now size).SameKeys := by
  intro c
  obtain ⟨hdeadline, hsize⟩ := hq c
  by_cases hc : c = id
  · subst hc
    constructor <;> simp only [slot, enter_flight, Map.insert_self, Option.isSome_some]
  · constructor
    · simpa only [slot, enter_flight, Map.insert_ne _ _ _ _ hc] using hdeadline
    · simpa only [slot, enter_flight, Map.insert_ne _ _ _ _ hc] using hsize

theorem in_flight_enter_flight (q : EventQueue) (id : Uuid) (now : Instant) (size : Nat) (c : Uuid) :
    (q.enter_flight id now size).in_flight_channels c = if c = id then some () else q.in_flight_channels c := rfl

/-- A flush releases what has expired and may take one channel into flight. -/
theorem flush_next_cases (q : EventQueue) (now : Instant) (walk : Walk) :
    ((q.flush_next now walk).2 = none ∧ (q.flush_next now walk).1 = q.auto_expire now walk.deadlines) ∨
    ∃ batch size, (q.flush_next now walk).2 = some batch ∧
      ((q.auto_expire now walk.deadlines).in_flight_channels batch.channel_id).isNone = true ∧
      SameFlights ((q.auto_expire now walk.deadlines).enter_flight batch.channel_id now size) (q.flush_next now walk).1 := by
  rw [flush_next]
  dsimp only
  cases holdest : (q.auto_expire now walk.deadlines).oldest now walk.queues with
  | some id =>
    refine .inr ⟨_, _, rfl, ?_, rfl, rfl, rfl⟩
    -- the heads are those of channels that are ready
    obtain ⟨⟨found, received_at⟩, hfound, rfl⟩ := Option.map_eq_some_iff.1 holdest
    obtain ⟨c, -, hfront⟩ := List.mem_filterMap.1 (List.argmin_mem hfound)
    obtain ⟨queue, -, hfront⟩ := Option.bind_eq_some_iff.1 hfront
    obtain ⟨front, -, hready⟩ := Option.bind_eq_some_iff.1 hfront
    split at hready
    · next hfree =>
      cases hready
      exact (Bool.and_eq_true_iff.1 hfree).1
    · cases hready
  | none =>
    dsimp only
    split
    · next id hid =>
      have hfree := List.find?_some hid
      exact .inr ⟨_, _, rfl, (Bool.and_eq_true_iff.1 hfree).2, rfl, rfl, rfl⟩
    · exact .inl ⟨rfl, rfl⟩

theorem sameKeys_call (hq : q.SameKeys) (m : Move) : (q.call m).SameKeys := by
  cases m with
  | push event => exact hq.of_flights (sameFlights_push q event)
  | flush_next now walk =>
    have hexpired := sameKeys_auto_expire hq now walk.deadlines
    rcases flush_next_cases q now walk with ⟨-, hsame⟩ | ⟨batch, size, -, -, hentered⟩
    · rw [call, hsame]
      exact hexpired
    · exact (sameKeys_enter_flight hexpired batch.channel_id now size).of_flights hentered
  | has_flushable_work now walk => exact sameKeys_auto_expire hq now walk.deadlines
  | extend_in_flight_deadline channel_id max_turn_secs now =>
    dsimp only [call]
    unfold extend_in_flight_deadline
    split
    · exact hq
    · next current hcurrent =>
      dsimp only
      split
      · intro c
        obtain ⟨hdeadline, hsize⟩ := hq c
        refine ⟨?_, hsize⟩
        by_cases hc : c = channel_id
        · subst hc
          have hflight : (q.in_flight_deadlines c).isSome = (q.in_flight_channels c).isSome := hdeadline
          rw [hcurrent] at hflight
          simp only [slot, Map.insert_self, Option.isSome_some, ← hflight]
        · simpa only [slot, Map.insert_ne _ _ _ _ hc] using hdeadline
      · exact hq
  | mark_complete channel_id now finished =>
    have hreleased : EventQueue.SameKeys { q with
        in_flight_channels := q.in_flight_channels.remove channel_id
        in_flight_deadlines := q.in_flight_deadlines.remove channel_id
        in_flight_batch_sizes := q.in_flight_batch_sizes.remove channel_id } := by
      intro c
      obtain ⟨hdeadline, hsize⟩ := hq c
      by_cases hc : c = channel_id
      · subst hc
        constructor <;> simp only [slot, Map.remove_self, Option.isSome_none]
      · constructor
        · simpa only [slot, Map.remove_ne _ _ _ hc] using hdeadline
        · simpa only [slot, Map.remove_ne _ _ _ hc] using hsize
    dsimp only [call]
    unfold mark_complete
    dsimp only
    split
    · split
      · exact hreleased
      · exact hreleased.of_flights ⟨rfl, rfl, rfl⟩
    · exact hreleased.of_flights ⟨rfl, rfl, rfl⟩
  | requeue batch now jitter => exact hq.of_flights (sameFlights_requeue q batch now jitter)
  | mark_native_steer_pending channel_id event_id => exact hq.of_flights (sameFlights_mark_native_steer_pending q channel_id event_id)
  | release_native_steer channel_id event_id => exact hq.of_flights (sameFlights_release_native_steer q channel_id event_id)
  | _ => exact hq.of_flights ⟨rfl, rfl, rfl⟩

/-! ## One batch at a time -/

/-- The deadline of the channel, if it has one, is still to come. -/
def BeforeDeadline (q : EventQueue) (c : Uuid) (now : Instant) : Prop := ∀ deadline ∈ q.in_flight_deadlines c, now < deadline

/-- The call does not complete the turn of the channel and is made before its deadline. -/
def Spares (q : EventQueue) (c : Uuid) : Move → Prop
  | .mark_complete channel_id _ _ => channel_id ≠ c
  | .flush_next now _ | .has_flushable_work now _ => q.BeforeDeadline c now
  | _ => True

def SparingCalls (c : Uuid) (q : EventQueue) (m : Move) (q' : EventQueue) : Prop := q.Spares c m ∧ Calls q m q'

theorem in_flight_auto_expire (hc : (q.in_flight_channels c).isSome) (hnow : q.BeforeDeadline c now) (walk : List Uuid) :
    ((q.auto_expire now walk).in_flight_channels c).isSome := by
  have hmem : c ∉ walk.filter (fun id => (q.in_flight_deadlines id).any (· ≤ now)) := by
    intro hmem
    obtain ⟨deadline, hdeadline, hle⟩ := (Option.any_eq_true _ _).1 (List.mem_filter.1 hmem).2
    exact absurd (of_decide_eq_true hle) (not_le.2 (hnow deadline hdeadline))
  have hslot := slot_expire_all (walk.filter (fun id => (q.in_flight_deadlines id).any (· ≤ now))) q c
  rw [if_neg hmem] at hslot
  have hsame : (q.auto_expire now walk).in_flight_channels c = q.in_flight_channels c := congrArg Slot.in_flight hslot
  rw [hsame]
  exact hc

/-- A flush takes no channel that is in flight before its deadline. -/
theorem flush_next_other (hc : (q.in_flight_channels c).isSome) (hnow : q.BeforeDeadline c now) {walk : Walk} {batch : FlushBatch}
    (hflush : (q.flush_next now walk).2 = some batch) : batch.channel_id ≠ c := by
  have hexpired := in_flight_auto_expire hc hnow walk.deadlines
  rcases flush_next_cases q now walk with ⟨hnone, -⟩ | ⟨flushed, size, hsome, hfree, -⟩
  · rw [hnone] at hflush
    cases hflush
  · rw [hsome] at hflush
    cases hflush
    rintro rfl
    rw [Option.isNone_iff_eq_none.1 hfree] at hexpired
    cases hexpired

theorem in_flight_call {m : Move} (hc : (q.in_flight_channels c).isSome) (hspares : q.Spares c m) :
    ((q.call m).in_flight_channels c).isSome := by
  cases m with
  | push event => exact (sameFlights_push q event).in_flight hc
  | flush_next now walk =>
    have hexpired := in_flight_auto_expire hc hspares walk.deadlines
    rcases flush_next_cases q now walk with ⟨-, hsame⟩ | ⟨batch, size, -, -, hentered⟩
    · rw [call, hsame]
      exact hexpired
    · refine hentered.in_flight ?_
      rw [in_flight_enter_flight]
      split
      · rfl
      · exact hexpired
  | has_flushable_work now walk => exact in_flight_auto_expire hc hspares walk.deadlines
  | extend_in_flight_deadline channel_id max_turn_secs now =>
    rw [call, in_flight_channels_extend]
    exact hc
  | mark_complete channel_id now finished =>
    have hreleased : ((q.in_flight_channels.remove channel_id) c).isSome := by
      rw [Map.remove_ne _ _ _ (Ne.symm hspares)]
      exact hc
    dsimp only [call]
    unfold mark_complete
    dsimp only
    split
    · split <;> exact hreleased
    · exact hreleased
  | requeue batch now jitter => exact (sameFlights_requeue q batch now jitter).in_flight hc
  | mark_native_steer_pending channel_id event_id => exact (sameFlights_mark_native_steer_pending q channel_id event_id).in_flight hc
  | release_native_steer channel_id event_id => exact (sameFlights_release_native_steer q channel_id event_id).in_flight hc
  | _ => exact hc

/-- A channel whose batch was flushed is in flight. -/
theorem flush_next_in_flight {walk : Walk} {batch : FlushBatch} (hflush : (q.flush_next now walk).2 = some batch) :
    ((q.flush_next now walk).1.in_flight_channels batch.channel_id).isSome := by
  rcases flush_next_cases q now walk with ⟨hnone, -⟩ | ⟨flushed, size, hsome, -, hentered⟩
  · rw [hnone] at hflush
    cases hflush
  · rw [hsome] at hflush
    cases hflush
    refine hentered.in_flight ?_
    rw [in_flight_enter_flight, if_pos rfl]
    rfl

end

/-! ## Runs -/

/-- The queue before any call. -/
def start (dedup_mode : DedupMode) (max_turn_duration_secs : Nat) : EventQueue :=
  (new dedup_mode).with_in_flight_deadline max_turn_duration_secs

theorem sameKeys_of_run {dedup_mode : DedupMode} {max_turn_duration_secs : Nat} {moves : List Move}
    (hrun : Run Calls (start dedup_mode max_turn_duration_secs) moves q) : q.SameKeys :=
  hrun.inv (fun _ m _ _ hq hcall => hcall ▸ sameKeys_call hq m) (fun _ => ⟨rfl, rfl⟩)

/-- After any calls the flight maps have the same keys, there is said to be work just where a flush returns a batch, an idle queue is
empty, and no second batch of a channel is returned before its turn is completed or past its deadline. -/
theorem idle_decisions {dedup_mode : DedupMode} {max_turn_duration_secs : Nat} {moves : List Move}
    (hrun : Run Calls (start dedup_mode max_turn_duration_secs) moves q) :
    (∀ c, (q.in_flight_deadlines c).isSome = (q.in_flight_channels c).isSome ∧
      (q.in_flight_batch_sizes c).isSome = (q.in_flight_channels c).isSome) ∧
    (∀ now walk walk', Complete walk q now → Complete walk' q now →
      ((q.has_flushable_work now walk).2 = true ↔ (q.flush_next now walk').2.isSome = true)) ∧
    (∀ queues cancelled withheld channels : List Uuid, (∀ c, (q.queues c).isSome → c ∈ queues) →
      (∀ c, (q.cancelled_batches c).isSome → c ∈ cancelled) → (∀ c, (q.withheld_native_steer c).isSome → c ∈ withheld) →
      (∀ c, (q.in_flight_channels c).isSome → c ∈ channels) → q.has_undispatched_work queues cancelled withheld = false →
      q.has_in_flight channels = false → ∀ c, q.held c = []) ∧
    ∀ now walk batch, (q.flush_next now walk).2 = some batch →
      ∀ moves' q', Run (SparingCalls batch.channel_id) (q.flush_next now walk).1 moves' q' →
        ∀ now' walk' other, q'.BeforeDeadline batch.channel_id now' → (q'.flush_next now' walk').2 = some other →
          other.channel_id ≠ batch.channel_id := by
  have hkeys := sameKeys_of_run hrun
  refine ⟨fun c => ⟨(hkeys c).deadline, (hkeys c).batch_size⟩, fun now walk walk' hwalk hwalk' => ?_,
    fun queues cancelled withheld channels hqueues hcancelled hwithheld hchannels hidle hflight =>
      held_eq_nil hqueues hcancelled hwithheld hchannels hidle hflight, fun now walk batch hflush moves' q' hmeanwhile => ?_⟩
  · rw [has_flushable_work_iff hwalk, flush_next_isSome_iff hwalk']
  · have hflight : (q'.in_flight_channels batch.channel_id).isSome :=
      hmeanwhile.inv (fun _ _ _ _ hc hstep => hstep.2 ▸ in_flight_call hc hstep.1) (flush_next_in_flight hflush)
    intro now' walk' other hbefore hother
    exact flush_next_other hflight hbefore hother

/-- A request that is flushed and handed back as cancelled. -/
theorem idle_decisions_interrupted : ∃ q, Run Calls (start .Queue 7200)
      [.push (Harness.asked "first" 10), .flush_next 11 ⟨[], [7], []⟩, .requeue_as_cancelled Harness.first_turn .Interrupt,
        .mark_complete 7 21 []] q ∧
    (∀ c, (q.in_flight_deadlines c).isSome = (q.in_flight_channels c).isSome ∧
      (q.in_flight_batch_sizes c).isSome = (q.in_flight_channels c).isSome) ∧
    (∀ now walk walk', Complete walk q now → Complete walk' q now →
      ((q.has_flushable_work now walk).2 = true ↔ (q.flush_next now walk').2.isSome = true)) ∧
    (∀ queues cancelled withheld channels : List Uuid, (∀ c, (q.queues c).isSome → c ∈ queues) →
      (∀ c, (q.cancelled_batches c).isSome → c ∈ cancelled) → (∀ c, (q.withheld_native_steer c).isSome → c ∈ withheld) →
      (∀ c, (q.in_flight_channels c).isSome → c ∈ channels) → q.has_undispatched_work queues cancelled withheld = false →
      q.has_in_flight channels = false → ∀ c, q.held c = []) ∧
    ∀ now walk batch, (q.flush_next now walk).2 = some batch →
      ∀ moves' q', Run (SparingCalls batch.channel_id) (q.flush_next now walk).1 moves' q' →
        ∀ now' walk' other, q'.BeforeDeadline batch.channel_id now' → (q'.flush_next now' walk').2 = some other →
          other.channel_id ≠ batch.channel_id :=
  have hrun : Run Calls (start .Queue 7200) _ _ := .cons rfl (.cons rfl (.cons rfl (.single rfl)))
  ⟨_, hrun, idle_decisions hrun⟩

end EventQueue
end Ambush.Acp

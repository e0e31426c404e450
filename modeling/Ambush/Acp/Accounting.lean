import Ambush.Lib.Runs
import Ambush.Acp.Queue
/-!
# Where the events are

The harness flushes batches, hands some back and completes the others. Every event that was
accepted is then counted at each place where it can be, and an operation balances if it
takes from one place what it puts into another. Two of the three ways to hand a batch back
do not balance: they put back its events and forget the cancelled events merged into it.
-/
open Lib

namespace Ambush.Acp

/-- Both lists of a batch, as they were queued. -/
def FlushBatch.contents (batch : FlushBatch) : List QueuedEvent :=
  (batch.events ++ batch.cancelled_events).map (BatchEvent.queued batch.channel_id)

/-! ## What one operation exchanges -/

namespace EventQueue

/-- The three tables of the queue at a channel. -/
def held (q : EventQueue) (c : Uuid) : List QueuedEvent :=
  q.queues.listed c ++ q.withheld_native_steer.listed c ++ (q.cancelled_batches.listed c).map (BatchEvent.queued c)

/-- What is held for a channel is of that channel. -/
def AtHome (q : EventQueue) : Prop := ∀ c, ∀ x ∈ q.held c, x.channel_id = c

/-- How often the queue has an event, counting those it has dropped to the cap. -/
def copies (q : EventQueue) (x : QueuedEvent) : Nat := (q.held x.channel_id).count x + q.capped.count x

/-- An operation takes `into` in at a channel and gives `out` away; what else is missing afterwards was dropped to the cap. -/
structure Exchange (q q' : EventQueue) (c : Uuid) (into out : List QueuedEvent) : Prop where
  elsewhere : ∀ c', c' ≠ c → q'.held c' = q.held c'
  here : ∃ dropped, q'.capped = q.capped ++ dropped ∧ (q'.held c ++ dropped ++ out).Perm (q.held c ++ into)

variable {q q' : EventQueue} {c : Uuid} {into out : List QueuedEvent}

theorem Exchange.at_home (h : Exchange q q' c into out) (hq : q.AtHome) (hinto : ∀ x ∈ into, x.channel_id = c) : q'.AtHome := by
  intro c' x hx
  obtain ⟨dropped, -, hperm⟩ := h.here
  by_cases hc : c' = c
  · subst hc
    rcases List.mem_append.1 (hperm.subset (List.mem_append_left _ (List.mem_append_left _ hx))) with hx | hx
    · exact hq c' x hx
    · exact hinto x hx
  · rw [h.elsewhere c' hc] at hx
    exact hq c' x hx

theorem Exchange.balances (h : Exchange q q' c into out) (hq : q.AtHome) (hinto : ∀ x ∈ into, x.channel_id = c) (x : QueuedEvent) :
    q'.copies x + out.count x = q.copies x + into.count x := by
  obtain ⟨dropped, hcapped, hperm⟩ := h.here
  unfold copies
  rw [hcapped, List.count_append]
  by_cases hx : x.channel_id = c
  · have hcount := List.perm_iff_count.1 hperm x
    simp only [List.count_append] at hcount
    rw [hx]
    omega
  · -- nothing that moves is of the channel of `x`
    have hall : ∀ y ∈ q.held c ++ into, y.channel_id = c := by
      intro y hy
      rcases List.mem_append.1 hy with hy | hy
      · exact hq c y hy
      · exact hinto y hy
    have hnone : ∀ l : List QueuedEvent, l ⊆ q.held c ++ into → l.count x = 0 :=
      fun l hl => List.count_eq_zero.2 fun hmem => hx (hall x (hl hmem))
    have hsub := hperm.subset
    have hdropped : dropped ⊆ q.held c ++ into :=
      fun y hy => hsub (List.mem_append_left _ (List.mem_append_right _ hy))
    have hout : out ⊆ q.held c ++ into := fun y hy => hsub (List.mem_append_right _ hy)
    rw [h.elsewhere _ hx, hnone out hout, hnone dropped hdropped, hnone into (List.subset_append_right _ _)]
    rfl

/-- Nothing goes in or out of the tables. -/
def Still (q q' : EventQueue) : Prop := q.AtHome → q'.AtHome ∧ ∀ x, q'.copies x = q.copies x

theorem Exchange.still (h : Exchange q q' c [] []) : Still q q' := by
  intro hq
  have hnil : ∀ x ∈ ([] : List QueuedEvent), x.channel_id = c := fun _ hx => by cases hx
  refine ⟨h.at_home hq hnil, fun x => ?_⟩
  have hx := h.balances hq hnil x
  simpa using hx

theorem Still.refl (q : EventQueue) : Still q q := fun hq => ⟨hq, fun _ => rfl⟩

theorem Still.trans {q'' : EventQueue} (h : Still q q') (h' : Still q' q'') : Still q q'' := by
  intro hq
  obtain ⟨hq', hx⟩ := h hq
  obtain ⟨hq'', hx'⟩ := h' hq'
  exact ⟨hq'', fun x => (hx' x).trans (hx x)⟩

/-- The tables and what the cap has dropped are as before. -/
theorem still_of_tables (hqueues : q'.queues = q.queues) (hwithheld : q'.withheld_native_steer = q.withheld_native_steer)
    (hcancelled : q'.cancelled_batches = q.cancelled_batches) (hcapped : q'.capped = q.capped) : Still q q' := by
  have hheld : q'.held = q.held := by
    unfold held
    rw [hqueues, hwithheld, hcancelled]
  unfold Still AtHome copies
  rw [hheld, hcapped]
  exact fun hq => ⟨hq, fun _ => rfl⟩

/-! ## Each operation -/

theorem push_front_all_eq (entries queue : List QueuedEvent) : push_front_all entries queue = entries ++ queue := by
  induction entries with
  | nil => rfl
  | cons e entries ih =>
    unfold push_front_all at ih ⊢
    rw [List.reverse_cons, List.foldl_append, ih]
    rfl

theorem queued_home (c : Uuid) (events : List BatchEvent) : ∀ e ∈ events.map (BatchEvent.queued c), e.channel_id = c := by
  intro e he
  obtain ⟨be, -, rfl⟩ := List.mem_map.1 he
  rfl

/-- Events of the channel, taken into a batch and out again. -/
theorem map_queued_batched {entries : List QueuedEvent} (hentries : ∀ e ∈ entries, e.channel_id = c) :
    (entries.map QueuedEvent.batched).map (BatchEvent.queued c) = entries := by
  rw [List.map_map]
  refine (List.map_congr_left fun e he => ?_).trans (List.map_id _)
  rw [← hentries e he]
  rfl

theorem count_take_drop (x : QueuedEvent) (n : Nat) (l : List QueuedEvent) : (l.take n).count x + (l.drop n).count x = l.count x := by
  rw [← List.count_append, List.take_append_drop]

theorem push_exchange (q : EventQueue) (e : QueuedEvent) (haccepted : (q.push e).2 = true) :
    Exchange q (q.push e).1 e.channel_id [e] [] := by
  unfold push at haccepted ⊢
  split at haccepted
  · cases haccepted
  next hopen =>
  rw [if_neg hopen]
  refine ⟨fun c' hc' => ?_, _, rfl, List.perm_iff_count.2 fun x => ?_⟩
  · simp only [held, Map.listed_insert, if_neg hc']
  · have hsplit := count_take_drop x (if MAX_PENDING_PER_CHANNEL ≤ (q.queues.listed e.channel_id).length then 1 else 0)
      (q.queues.listed e.channel_id)
    simp only [held, Map.listed_insert, if_true, List.count_append, List.count_nil]
    omega

theorem requeue_front_exchange (q : EventQueue) (c : Uuid) (entries : List QueuedEvent) :
    Exchange q (q.requeue_front c entries) c entries [] := by
  refine ⟨fun c' hc' => ?_, _, rfl, List.perm_iff_count.2 fun x => ?_⟩
  · simp only [requeue_front, held, Map.listed_insert, if_neg hc']
  · have hsplit := count_take_drop x MAX_PENDING_PER_CHANNEL (entries ++ q.queues.listed c)
    rw [List.count_append] at hsplit
    simp only [requeue_front, push_front_all_eq, held, Map.listed_insert, if_true, List.count_append, List.count_nil] at hsplit ⊢
    omega

/-- Entries that go from the withheld table to the front of the queue. -/
theorem released_exchange (entries rest : List QueuedEvent) {m : Map Uuid (List QueuedEvent)}
    (hentries : (rest ++ entries).Perm (q.withheld_native_steer.listed c))
    (hm : ∀ c', m.listed c' = if c' = c then rest else q.withheld_native_steer.listed c') :
    Exchange q ({ q with withheld_native_steer := m }.requeue_front c entries) c [] [] := by
  obtain ⟨helse, dropped, hcapped, hperm⟩ := requeue_front_exchange { q with withheld_native_steer := m } c entries
  refine ⟨fun c' hc' => ?_, dropped, hcapped, ?_⟩
  · rw [helse c' hc']
    simp only [held, hm, if_neg hc']
  · refine List.perm_iff_count.2 fun x => ?_
    have hcount := List.perm_iff_count.1 hperm x
    have hx := List.perm_iff_count.1 hentries x
    simp only [held, hm, if_true, List.count_append, List.count_nil] at hcount hx ⊢
    omega

theorem expire_still (q : EventQueue) (id : Uuid) : Still q (q.expire id) := by
  unfold expire
  generalize hreleased : ({ q with
    in_flight_batch_sizes := q.in_flight_batch_sizes.remove id
    in_flight_channels := q.in_flight_channels.remove id
    in_flight_deadlines := q.in_flight_deadlines.remove id } : EventQueue) = q'
  have hstill : Still q q' := by
    subst hreleased
    exact still_of_tables rfl rfl rfl rfl
  refine hstill.trans ?_
  unfold recover_withheld_for_expired_channel
  split
  · exact .refl _
  next entries hentries =>
  refine (released_exchange entries [] ?_ fun c' => Map.listed_remove _ _ _).still
  rw [List.nil_append, Map.listed, hentries]
  exact .refl _

theorem auto_expire_still (q : EventQueue) (now : Instant) (walk : List Uuid) : Still q (q.auto_expire now walk) := by
  unfold auto_expire
  generalize walk.filter _ = expired
  induction expired generalizing q with
  | nil => exact .refl q
  | cons id expired ih => exact (expire_still q id).trans (ih _)

theorem flush_channel_exchange (hq : q.AtHome) (now : Instant) (c : Uuid) :
    Exchange q (q.flush_channel now c).1 c [] (q.flush_channel now c).2.contents := by
  refine ⟨fun c' hc' => ?_, [], (List.append_nil _).symm, List.perm_iff_count.2 fun x => ?_⟩
  · simp only [flush_channel, enter_flight, held, Map.listed_store, Map.listed_remove, if_neg hc']
  · generalize hn : min MAX_BATCH_EVENTS (q.queues.listed c).length = n
    have hhome : ∀ e ∈ (q.queues.listed c).take n, e.channel_id = c :=
      fun e he => hq c e (List.mem_append_left _ (List.mem_append_left _ (List.mem_of_mem_take he)))
    have hsorted := ((List.perm_insertionSort (fun a b : BatchEvent => a.event.created_at ≤ b.event.created_at)
      (((q.queues.listed c).take n).map QueuedEvent.batched)).map (BatchEvent.queued c)).count_eq x
    rw [map_queued_batched hhome] at hsorted
    have hsplit := count_take_drop x n (q.queues.listed c)
    simp only [flush_channel, enter_flight, FlushBatch.contents, held, Map.listed_store, Map.listed_remove, if_true, hn, sort_by_created_at,
      List.map_append, List.map_nil, List.count_append, List.count_nil] at hsorted ⊢
    omega

theorem flush_cancelled_exchange (q : EventQueue) (now : Instant) (c : Uuid) :
    Exchange q (q.flush_cancelled now c).1 c [] (q.flush_cancelled now c).2.contents := by
  refine ⟨fun c' hc' => ?_, [], (List.append_nil _).symm, List.perm_iff_count.2 fun x => ?_⟩
  · simp only [flush_cancelled, enter_flight, held, Map.listed_remove, if_neg hc']
  · simp only [flush_cancelled, enter_flight, FlushBatch.contents, held, Map.listed_remove, if_true, List.append_nil, List.map_nil,
      List.count_append]

/-- What a flush takes out of the queue is in the batch. -/
theorem flush_next_balances (hq : q.AtHome) (now : Instant) (walk : Walk) :
    (q.flush_next now walk).1.AtHome ∧
      ∀ x, (q.flush_next now walk).1.copies x + ((q.flush_next now walk).2.toList.flatMap FlushBatch.contents).count x = q.copies x := by
  obtain ⟨hhome, hcopies⟩ := auto_expire_still q now walk.deadlines hq
  have hnil : ∀ c, ∀ x ∈ ([] : List QueuedEvent), x.channel_id = c := fun _ _ hx => by cases hx
  unfold flush_next
  dsimp only
  split
  next id _ =>
    have hexchange := flush_channel_exchange hhome now id
    refine ⟨hexchange.at_home hhome (hnil id), fun x => ?_⟩
    have hx := hexchange.balances hhome (hnil id) x
    simpa [hcopies] using hx
  next =>
    split
    next id _ =>
      have hexchange := flush_cancelled_exchange (q.auto_expire now walk.deadlines) now id
      refine ⟨hexchange.at_home hhome (hnil id), fun x => ?_⟩
      have hx := hexchange.balances hhome (hnil id) x
      simpa [hcopies] using hx
    next => exact ⟨hhome, fun x => by simpa using hcopies x⟩

theorem mark_complete_still (q : EventQueue) (c : Uuid) (now : Instant) : Still q (q.mark_complete c now) := by
  unfold mark_complete
  dsimp only
  split
  · split <;> exact still_of_tables rfl rfl rfl rfl
  · exact still_of_tables rfl rfl rfl rfl

theorem extend_still (q : EventQueue) (c : Uuid) (max_turn_secs : Nat) (now : Instant) :
    Still q (q.extend_in_flight_deadline c max_turn_secs now) := by
  unfold extend_in_flight_deadline
  dsimp only
  split
  · exact .refl q
  · split <;> exact still_of_tables rfl rfl rfl rfl

/-- The attempt that would be one too many. -/
def exhausted (q : EventQueue) (c : Uuid) : Bool := MAX_RETRIES ≤ (q.retry_counts c).getD 0

theorem requeue_dead {batch : FlushBatch} (h : q.exhausted batch.channel_id = true) (now : Instant) (jitter : Nat → Duration) :
    (q.requeue batch now jitter).2 = some batch ∧ Still q (q.requeue batch now jitter).1 := by
  unfold requeue
  dsimp only
  rw [if_pos (Nat.lt_succ_of_le (of_decide_eq_true h))]
  exact ⟨rfl, still_of_tables rfl rfl rfl rfl⟩

theorem requeue_exchange {batch : FlushBatch} (h : q.exhausted batch.channel_id = false) (now : Instant) (jitter : Nat → Duration) :
    (q.requeue batch now jitter).2 = none ∧
      Exchange q (q.requeue batch now jitter).1 batch.channel_id (batch.events.map (BatchEvent.queued batch.channel_id)) [] := by
  have hattempt := of_decide_eq_false h
  unfold requeue
  dsimp only
  rw [if_neg (by omega)]
  obtain ⟨helse, hhere⟩ := requeue_front_exchange
    { q with retry_counts := q.retry_counts.insert batch.channel_id ((q.retry_counts batch.channel_id).getD 0 + 1) } batch.channel_id
    (batch.events.map (BatchEvent.queued batch.channel_id))
  exact ⟨rfl, helse, hhere⟩

theorem requeue_as_cancelled_exchange (q : EventQueue) (batch : FlushBatch) (reason : CancelReason) :
    Exchange q (q.requeue_as_cancelled batch reason) batch.channel_id batch.contents [] := by
  refine ⟨fun c' hc' => ?_, [], (List.append_nil _).symm, List.perm_iff_count.2 fun x => ?_⟩
  · simp only [requeue_as_cancelled, held, Map.listed_insert, if_neg hc']
  · simp only [requeue_as_cancelled, FlushBatch.contents, held, Map.listed_insert, if_true, List.map_append, List.count_append,
      List.count_nil]
    omega

theorem take_event_perm {event_id : String} {entries rest : List QueuedEvent} {qe : QueuedEvent}
    (h : take_event event_id entries = some (qe, rest)) : (rest ++ [qe]).Perm entries := by
  obtain ⟨qe', hfind, heq⟩ := Option.map_eq_some_iff.1 h
  cases heq
  obtain ⟨hid, before, after, rfl, hbefore⟩ := List.find?_eq_some_iff_append.1 hfind
  have herase : (before ++ qe :: after).eraseP (·.event.id = event_id) = before ++ after := by
    rw [List.eraseP_append_right _ (fun e he => by simpa using hbefore e he)]
    simp [of_decide_eq_true hid]
  rw [herase, List.append_assoc]
  exact List.Perm.append_left _ List.perm_append_comm

theorem mark_native_steer_pending_still (q : EventQueue) (c : Uuid) (event_id : String) :
    Still q (q.mark_native_steer_pending c event_id).1 := by
  unfold mark_native_steer_pending
  split
  · exact .refl q
  next qe rest htaken =>
  refine Exchange.still (c := c) ⟨fun c' hc' => ?_, [], (List.append_nil _).symm, List.perm_iff_count.2 fun x => ?_⟩
  · simp only [held, Map.listed_store, Map.listed_insert, if_neg hc']
  · have hx := (take_event_perm htaken).count_eq x
    simp only [held, Map.listed_store, Map.listed_insert, if_true, List.count_append, List.count_nil] at hx ⊢
    omega

theorem release_native_steer_still (q : EventQueue) (c : Uuid) (event_id : String) : Still q (q.release_native_steer c event_id) := by
  unfold release_native_steer
  split
  · exact .refl q
  next qe rest htaken => exact (released_exchange [qe] rest (take_event_perm htaken) fun c' => Map.listed_store _ _ _ _).still

/-- What `remove_event` takes away. -/
def named (q : EventQueue) (c : Uuid) (event_id : String) : List QueuedEvent :=
  (q.queues.listed c ++ q.withheld_native_steer.listed c).filter (·.event.id = event_id)

theorem count_filter_not (x : QueuedEvent) (event_id : String) (l : List QueuedEvent) :
    (l.filter (·.event.id ≠ event_id)).count x + (l.filter (·.event.id = event_id)).count x = l.count x := by
  induction l with
  | nil => rfl
  | cons e l ih => by_cases he : e.event.id = event_id <;> simp_all [List.count_cons] <;> omega

theorem remove_event_exchange (q : EventQueue) (c : Uuid) (event_id : String) :
    Exchange q (q.remove_event c event_id) c [] (q.named c event_id) := by
  refine ⟨fun c' hc' => ?_, [], (List.append_nil _).symm, List.perm_iff_count.2 fun x => ?_⟩
  · simp only [remove_event, held, Map.listed_retain, if_neg hc']
  · have hqueued := count_filter_not x event_id (q.queues.listed c)
    have hwithheld := count_filter_not x event_id (q.withheld_native_steer.listed c)
    simp only [remove_event, named, held, Map.listed_retain, if_true, List.filter_append, List.count_append, List.count_nil]
    omega

theorem drain_channel_exchange (q : EventQueue) (c : Uuid) : Exchange q (q.drain_channel c).1 c [] (q.held c) := by
  refine ⟨fun c' hc' => ?_, [], (List.append_nil _).symm, ?_⟩
  · simp only [drain_channel, held, Map.listed_remove, if_neg hc']
  · simp only [drain_channel, held, Map.listed_remove, if_true, List.map_nil, List.nil_append, List.append_nil, List.Perm.refl]

theorem compact_still (q : EventQueue) (now : Instant) : Still q (q.compact_expired_state now) := still_of_tables rfl rfl rfl rfl

end EventQueue

/-! ## The harness -/

/-- The queue, the batches that are out, and what has become of the events that are in neither. -/
structure Harness where
  queue : EventQueue
  accepted : List QueuedEvent := []
  outstanding : List FlushBatch := []
  completed : List QueuedEvent := []
  removed : List QueuedEvent := []
  dead_lettered : List QueuedEvent := []

/-- A call of the queue. `mark_complete` is told the channel only; `finished` are the batches of that channel, if any, whose turn is
over with it. -/
inductive Move where
  | push (event : QueuedEvent)
  | flush_next (now : Instant) (walk : Walk)
  | has_flushable_work (now : Instant) (walk : Walk)
  | extend_in_flight_deadline (channel_id : Uuid) (max_turn_secs : Nat) (now : Instant)
  | mark_complete (channel_id : Uuid) (now : Instant) (finished : List FlushBatch)
  | requeue (batch : FlushBatch) (now : Instant) (jitter : Nat → Duration)
  | requeue_preserve_timestamps (batch : FlushBatch)
  | requeue_as_cancelled (batch : FlushBatch) (reason : CancelReason)
  | mark_native_steer_pending (channel_id : Uuid) (event_id : String)
  | release_native_steer (channel_id : Uuid) (event_id : String)
  | remove_event (channel_id : Uuid) (event_id : String)
  | drain_channel (channel_id : Uuid)
  | compact_expired_state (now : Instant)

namespace Harness

/-- A batch is given up by the harness, which must have it. -/
def give_up (h : Harness) (batch : FlushBatch) : Option Harness :=
  if batch ∈ h.outstanding then some { h with outstanding := h.outstanding.erase batch } else none

def finish (h : Harness) (batch : FlushBatch) : Option Harness :=
  (h.give_up batch).map (fun h => { h with completed := h.completed ++ batch.contents })

def move (h : Harness) : Move → Option Harness
  | .push event =>
    some { h with
      queue := (h.queue.push event).1
      accepted := h.accepted ++ if (h.queue.push event).2 then [event] else [] }
  | .flush_next now walk =>
    some { h with
      queue := (h.queue.flush_next now walk).1
      outstanding := h.outstanding ++ (h.queue.flush_next now walk).2.toList }
  | .has_flushable_work now walk => some { h with queue := (h.queue.has_flushable_work now walk).1 }
  | .extend_in_flight_deadline channel_id max_turn_secs now =>
    some { h with queue := h.queue.extend_in_flight_deadline channel_id max_turn_secs now }
  | .mark_complete channel_id now finished =>
    if finished.all (·.channel_id = channel_id) then
      finished.foldlM finish { h with queue := h.queue.mark_complete channel_id now }
    else none
  | .requeue batch now jitter =>
    (h.give_up batch).map (fun h => { h with
      queue := (h.queue.requeue batch now jitter).1
      dead_lettered := h.dead_lettered ++ (h.queue.requeue batch now jitter).2.toList.flatMap FlushBatch.contents })
  | .requeue_preserve_timestamps batch =>
    (h.give_up batch).map (fun h => { h with queue := h.queue.requeue_preserve_timestamps batch })
  | .requeue_as_cancelled batch reason =>
    (h.give_up batch).map (fun h => { h with queue := h.queue.requeue_as_cancelled batch reason })
  | .mark_native_steer_pending channel_id event_id =>
    some { h with queue := (h.queue.mark_native_steer_pending channel_id event_id).1 }
  | .release_native_steer channel_id event_id => some { h with queue := h.queue.release_native_steer channel_id event_id }
  | .remove_event channel_id event_id =>
    some { h with
      queue := h.queue.remove_event channel_id event_id
      removed := h.removed ++ h.queue.named channel_id event_id }
  | .drain_channel channel_id =>
    some { h with queue := (h.queue.drain_channel channel_id).1, removed := h.removed ++ h.queue.held channel_id }
  | .compact_expired_state now => some { h with queue := h.queue.compact_expired_state now }

/-! ## Places -/

end Harness

inductive Place where
  | queued | withheld | cancelled | outstanding | completed | removed | dead_lettered | capped
  deriving DecidableEq

def Place.all : List Place := [.queued, .withheld, .cancelled, .outstanding, .completed, .removed, .dead_lettered, .capped]

namespace Harness

/-- The events at a place, which in the tables of the queue is the one for the channel of `x`. -/
def at_place (h : Harness) (x : QueuedEvent) : Place → List QueuedEvent
  | .queued => h.queue.queues.listed x.channel_id
  | .withheld => h.queue.withheld_native_steer.listed x.channel_id
  | .cancelled => (h.queue.cancelled_batches.listed x.channel_id).map (BatchEvent.queued x.channel_id)
  | .outstanding => h.outstanding.flatMap FlushBatch.contents
  | .completed => h.completed
  | .removed => h.removed
  | .dead_lettered => h.dead_lettered
  | .capped => h.queue.capped

/-- Each time an event was accepted it is at one place, once; and no channel has an event of another. -/
structure Accounted (h : Harness) : Prop where
  at_home : h.queue.AtHome
  once : ∀ x, h.accepted.count x = Place.all.foldr (fun p total => (h.at_place x p).count x + total) 0

variable {h h' : Harness} {m : Move} {x : QueuedEvent}

/-- How often the harness can say where an event is. -/
def located (h : Harness) (x : QueuedEvent) : Nat :=
  h.queue.copies x + (h.outstanding.flatMap FlushBatch.contents).count x + h.completed.count x + h.removed.count x +
    h.dead_lettered.count x

theorem sum_places (h : Harness) (x : QueuedEvent) : Place.all.foldr (fun p total => (h.at_place x p).count x + total) 0 = h.located x := by
  simp only [Place.all, List.foldr_cons, List.foldr_nil, at_place, located, EventQueue.copies, EventQueue.held,
    List.count_append]
  omega

theorem accounted_iff : h.Accounted ↔ h.queue.AtHome ∧ ∀ x, h.accepted.count x = h.located x := by
  constructor
  · exact fun hacc => ⟨hacc.at_home, fun x => (hacc.once x).trans (sum_places h x)⟩
  · exact fun hacc => ⟨hacc.1, fun x => (hacc.2 x).trans (sum_places h x).symm⟩

/-! ## What a move loses -/

/-- A batch is not handed back with cancelled events in it, except to be kept as cancelled, or to be dead-lettered. -/
def Keeps (h : Harness) : Move → Prop
  | .requeue batch _ _ => batch.cancelled_events = [] ∨ h.queue.exhausted batch.channel_id = true
  | .requeue_preserve_timestamps batch => batch.cancelled_events = []
  | _ => True

/-- The events that are nowhere after a move. -/
def lost (h : Harness) : Move → List QueuedEvent
  | .requeue batch _ _ =>
    if h.queue.exhausted batch.channel_id then [] else batch.cancelled_events.map (BatchEvent.queued batch.channel_id)
  | .requeue_preserve_timestamps batch => batch.cancelled_events.map (BatchEvent.queued batch.channel_id)
  | _ => []

theorem lost_eq_nil_iff : h.lost m = [] ↔ h.Keeps m := by
  cases m with
  | requeue batch now jitter =>
    unfold lost Keeps
    dsimp only
    cases h.queue.exhausted batch.channel_id <;> simp
  | requeue_preserve_timestamps batch => exact List.map_eq_nil_iff
  | _ => exact ⟨fun _ => trivial, fun _ => rfl⟩

theorem give_up_spec {batch : FlushBatch} (hgive : h.give_up batch = some h') :
    h'.queue = h.queue ∧ h'.accepted = h.accepted ∧ ∀ x, h'.located x + batch.contents.count x = h.located x := by
  unfold give_up at hgive
  split at hgive
  next hmem =>
    cases hgive
    refine ⟨rfl, rfl, fun x => ?_⟩
    have hperm := ((List.perm_cons_erase hmem).flatMap_right FlushBatch.contents).count_eq x
    rw [List.flatMap_cons, List.count_append] at hperm
    simp only [located]
    omega
  next => cases hgive

theorem finish_spec {finished : List FlushBatch} (hfinish : finished.foldlM finish h = some h') :
    h'.queue = h.queue ∧ h'.accepted = h.accepted ∧ ∀ x, h'.located x = h.located x := by
  induction finished generalizing h with
  | nil =>
    cases hfinish
    exact ⟨rfl, rfl, fun _ => rfl⟩
  | cons batch finished ih =>
    rw [List.foldlM_cons] at hfinish
    obtain ⟨h₁, hfirst, hrest⟩ := Option.bind_eq_some_iff.1 hfinish
    obtain ⟨h₀, hgive, rfl⟩ := Option.map_eq_some_iff.1 hfirst
    obtain ⟨hqueue, haccepted, hlocated⟩ := give_up_spec hgive
    obtain ⟨hqueue', haccepted', hlocated'⟩ := ih hrest
    refine ⟨hqueue'.trans hqueue, haccepted'.trans haccepted, fun x => ?_⟩
    have hx := hlocated x
    rw [hlocated' x]
    simp only [located, List.count_append] at hx ⊢
    omega

/-- A move balances but for what it loses. -/
def Balanced (h h' : Harness) (lost : List QueuedEvent) : Prop :=
  h'.queue.AtHome ∧ ∀ x, h'.located x + lost.count x + h.accepted.count x = h.located x + h'.accepted.count x

/-- The move only changes the queue, and nothing in its tables. -/
theorem balanced_of_still {queue : EventQueue} (hhome : h.queue.AtHome) (hstill : EventQueue.Still h.queue queue) :
    Balanced h { h with queue := queue } [] := by
  obtain ⟨hhome', hcopies⟩ := hstill hhome
  refine ⟨hhome', fun x => ?_⟩
  simp only [located, hcopies, List.count_nil]
  omega

theorem contents_home (batch : FlushBatch) : ∀ e ∈ batch.contents, e.channel_id = batch.channel_id :=
  EventQueue.queued_home batch.channel_id _

/-- A batch given up comes back to the queue, less what is lost of it. -/
theorem balanced_of_returned {batch : FlushBatch} {h₁ : Harness} {queue : EventQueue} {into lost : List QueuedEvent}
    (hhome : h.queue.AtHome) (hgive : h.give_up batch = some h₁)
    (hexchange : EventQueue.Exchange h₁.queue queue batch.channel_id into []) (hcontents : (into ++ lost).Perm batch.contents) :
    Balanced h { h₁ with queue := queue } lost := by
  obtain ⟨hqueue, haccepted, hlocated⟩ := give_up_spec hgive
  rw [← hqueue] at hhome
  have hinto : ∀ e ∈ into, e.channel_id = batch.channel_id :=
    fun e he => contents_home batch e (hcontents.subset (List.mem_append_left _ he))
  refine ⟨hexchange.at_home hhome hinto, fun x => ?_⟩
  have hcopies := hexchange.balances hhome hinto x
  have hx := hlocated x
  have hcount := hcontents.count_eq x
  rw [List.count_append] at hcount
  simp only [located, List.count_nil] at hx hcopies ⊢
  rw [haccepted]
  omega

theorem balanced_of_removed {queue : EventQueue} {c : Uuid} {out : List QueuedEvent} (hhome : h.queue.AtHome)
    (hexchange : EventQueue.Exchange h.queue queue c [] out) :
    Balanced h { h with queue := queue, removed := h.removed ++ out } [] := by
  have hnil : ∀ e ∈ ([] : List QueuedEvent), e.channel_id = c := fun _ he => by cases he
  refine ⟨hexchange.at_home hhome hnil, fun x => ?_⟩
  have hcopies := hexchange.balances hhome hnil x
  simp only [located, List.count_append, List.count_nil] at hcopies ⊢
  omega

theorem move_balances (hhome : h.queue.AtHome) (hmove : h.move m = some h') : Balanced h h' (h.lost m) := by
  cases m with
  | push event =>
    obtain rfl := Option.some.inj hmove
    cases haccepted : (h.queue.push event).2 with
    | false =>
      have hsame : (h.queue.push event).1 = h.queue := by
        unfold EventQueue.push at haccepted ⊢
        split at haccepted
        next hdrop => rw [if_pos hdrop]
        next => cases haccepted
      refine ⟨hsame.symm ▸ hhome, fun x => ?_⟩
      simp only [located, hsame, lost, Bool.false_eq_true, if_false, List.append_nil, List.count_nil]
      omega
    | true =>
      have hexchange := EventQueue.push_exchange h.queue event haccepted
      have hevent : ∀ e ∈ [event], e.channel_id = event.channel_id := fun e he => List.mem_singleton.1 he ▸ rfl
      refine ⟨hexchange.at_home hhome hevent, fun x => ?_⟩
      have hx := hexchange.balances hhome hevent x
      simp only [located, lost, if_true, List.count_append, List.count_nil] at hx ⊢
      omega
  | flush_next now walk =>
    obtain rfl := Option.some.inj hmove
    obtain ⟨hhome', hcopies⟩ := EventQueue.flush_next_balances hhome now walk
    refine ⟨hhome', fun x => ?_⟩
    have hx := hcopies x
    simp only [located, lost, List.flatMap_append, List.count_append, List.count_nil] at hx ⊢
    omega
  | has_flushable_work now walk =>
    obtain rfl := Option.some.inj hmove
    exact balanced_of_still hhome (EventQueue.auto_expire_still h.queue now walk.deadlines)
  | extend_in_flight_deadline channel_id max_turn_secs now =>
    obtain rfl := Option.some.inj hmove
    exact balanced_of_still hhome (EventQueue.extend_still h.queue channel_id max_turn_secs now)
  | mark_complete channel_id now finished =>
    unfold move at hmove
    dsimp only at hmove
    split at hmove
    · obtain ⟨hqueue, haccepted, hlocated⟩ := finish_spec hmove
      obtain ⟨hhome', hbalanced⟩ := balanced_of_still hhome (EventQueue.mark_complete_still h.queue channel_id now)
      refine ⟨hqueue ▸ hhome', fun x => ?_⟩
      rw [hlocated x, haccepted]
      exact hbalanced x
    · cases hmove
  | requeue batch now jitter =>
    obtain ⟨h₁, hgive, rfl⟩ := Option.map_eq_some_iff.1 hmove
    obtain ⟨hqueue, haccepted, hlocated⟩ := give_up_spec hgive
    cases hexhausted : h.queue.exhausted batch.channel_id with
    | false =>
      rw [← hqueue] at hexhausted
      obtain ⟨hnone, hexchange⟩ := EventQueue.requeue_exchange hexhausted now jitter
      have hcontents : (batch.events.map (BatchEvent.queued batch.channel_id) ++ h.lost (.requeue batch now jitter)).Perm batch.contents := by
        simp only [lost, ← hqueue, hexhausted, FlushBatch.contents, List.map_append]
        exact .refl _
      have hbalanced := balanced_of_returned hhome hgive hexchange hcontents
      simpa only [Balanced, located, hnone, Option.toList_none, List.flatMap_nil, List.append_nil] using hbalanced
    | true =>
      have hlost : h.lost (.requeue batch now jitter) = [] := by simp only [lost, hexhausted, if_true]
      rw [← hqueue] at hexhausted hhome
      obtain ⟨hdead, hstill⟩ := EventQueue.requeue_dead hexhausted now jitter
      obtain ⟨hhome', hcopies⟩ := hstill hhome
      refine ⟨hhome', fun x => ?_⟩
      have hx := hlocated x
      simp only [hlost, located, hcopies, hdead, haccepted, Option.toList_some, List.flatMap_cons, List.flatMap_nil, List.append_nil,
        List.count_append, List.count_nil] at hx ⊢
      omega
  | requeue_preserve_timestamps batch =>
    obtain ⟨h₁, hgive, rfl⟩ := Option.map_eq_some_iff.1 hmove
    refine balanced_of_returned hhome hgive (EventQueue.requeue_front_exchange h₁.queue _ _) ?_
    rw [lost, ← List.map_append]
    exact .refl _
  | requeue_as_cancelled batch reason =>
    obtain ⟨h₁, hgive, rfl⟩ := Option.map_eq_some_iff.1 hmove
    refine balanced_of_returned hhome hgive (EventQueue.requeue_as_cancelled_exchange h₁.queue batch reason) ?_
    exact .of_eq (List.append_nil _)
  | mark_native_steer_pending channel_id event_id =>
    obtain rfl := Option.some.inj hmove
    exact balanced_of_still hhome (EventQueue.mark_native_steer_pending_still h.queue channel_id event_id)
  | release_native_steer channel_id event_id =>
    obtain rfl := Option.some.inj hmove
    exact balanced_of_still hhome (EventQueue.release_native_steer_still h.queue channel_id event_id)
  | remove_event channel_id event_id =>
    obtain rfl := Option.some.inj hmove
    exact balanced_of_removed hhome (EventQueue.remove_event_exchange h.queue channel_id event_id)
  | drain_channel channel_id =>
    obtain rfl := Option.some.inj hmove
    exact balanced_of_removed hhome (EventQueue.drain_channel_exchange h.queue channel_id)
  | compact_expired_state now =>
    obtain rfl := Option.some.inj hmove
    exact balanced_of_still hhome (EventQueue.compact_still h.queue now)

/-- A move that loses nothing keeps the account, and one that loses something breaks it. -/
theorem accounted_iff_keeps (hacc : h.Accounted) (hmove : h.move m = some h') : h'.Accounted ↔ h.Keeps m := by
  obtain ⟨hhome, hlocated⟩ := accounted_iff.1 hacc
  obtain ⟨hhome', hbalanced⟩ := move_balances hhome hmove
  rw [← lost_eq_nil_iff, accounted_iff]
  constructor
  · intro hacc'
    refine List.eq_nil_iff_forall_not_mem.2 fun x => List.count_eq_zero.1 ?_
    have hx := hbalanced x
    have hbefore := hlocated x
    have hafter := hacc'.2 x
    omega
  · intro hlost
    refine ⟨hhome', fun x => ?_⟩
    have hx := hbalanced x
    have hbefore := hlocated x
    rw [hlost, List.count_nil] at hx
    omega

/-! ## Runs -/

/-- The harness with an empty queue. -/
def start (dedup_mode : DedupMode) (max_turn_duration_secs : Nat) : Harness where
  queue := (EventQueue.new dedup_mode).with_in_flight_deadline max_turn_duration_secs

theorem start_accounted (dedup_mode : DedupMode) (max_turn_duration_secs : Nat) : (start dedup_mode max_turn_duration_secs).Accounted :=
  ⟨fun _ _ hx => (by cases hx), fun _ => rfl⟩

def Moves (h : Harness) (m : Move) (h' : Harness) : Prop := h.move m = some h'

/-- Over any calls, every event is accounted for after each exactly when no call hands a merged batch back by `requeue` below the
retry limit or by `requeue_preserve_timestamps`. -/
theorem accounted_throughout_iff_kept (dedup_mode : DedupMode) (max_turn_duration_secs : Nat) (moves : List Move) :
    (∀ past h, past <+: moves → Run Moves (start dedup_mode max_turn_duration_secs) past h → h.Accounted) ↔
      ∀ past m h h', past ++ [m] <+: moves → Run Moves (start dedup_mode max_turn_duration_secs) past h → Moves h m h' → h.Keeps m :=
  Run.throughout_iff (start_accounted dedup_mode max_turn_duration_secs) (fun _ _ _ hacc hmove => accounted_iff_keeps hacc hmove) moves

/-! ## A request that is forgotten -/

def asked (id : String) (received_at : Instant) : QueuedEvent := ⟨7, ⟨id, 1700000000⟩, received_at, "mention"⟩

def first_turn : FlushBatch := ⟨7, [(asked "first" 10).batched], [], none⟩

/-- The second request, with the first one merged into it. -/
def merged_turn : FlushBatch := ⟨7, [(asked "second" 20).batched], [(asked "first" 10).batched], some .Interrupt⟩

/-- The second request interrupts the first, and when the two are flushed together no agent is free. -/
def interrupted : List Move :=
  [.push (asked "first" 10), .flush_next 11 ⟨[], [7], []⟩, .push (asked "second" 20), .requeue_as_cancelled first_turn .Interrupt,
    .mark_complete 7 21 [], .flush_next 22 ⟨[], [7], [7]⟩, .requeue_preserve_timestamps merged_turn]

theorem interrupted_request_forgotten :
    ¬ ∀ (moves : List Move) (h : Harness), Run Moves (start .Queue 7200) moves h → ∀ x ∈ h.accepted, ∃ p, x ∈ h.at_place x p := by
  intro hall
  have hrun : Run Moves (start .Queue 7200) interrupted _ :=
    .cons rfl (.cons rfl (.cons rfl (.cons rfl (.cons rfl (.cons rfl (.single rfl))))))
  obtain ⟨p, hp⟩ := hall _ _ hrun (asked "first" 10) (by decide)
  cases p <;> exact absurd hp (by decide)

end Harness
end Ambush.Acp

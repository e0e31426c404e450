import Ambush.Lib.Multimaps
import Ambush.Core.Uuid
import Mathlib.Data.List.Sort
import Mathlib.Data.List.MinMax
/-!
# The event queue of an agent

Events wait in the queue of their channel until a flush takes them out as a batch. A batch
that fails is handed back; one whose turn is cancelled is kept apart and merged into the
next batch of its channel. Hash maps are read by key, and where the source walks one, the
order is an argument.
-/
open Lib

namespace Ambush.Acp

def MAX_PENDING_PER_CHANNEL : Nat := 500
def MAX_BATCH_EVENTS : Nat := 50
def MAX_RETRIES : Nat := 10
def BASE_RETRY_DELAY_SECS : Nat := 5
def MAX_RETRY_DELAY_SECS : Nat := 300
def IN_FLIGHT_DEADLINE_BUFFER_SECS : Nat := 100
def DEFAULT_IN_FLIGHT_DEADLINE_SECS : Nat := 7300

/-- Nanoseconds of the monotonic clock, and between two of its readings. -/
abbrev Instant := Nat
abbrev Duration := Nat

def from_secs (secs : Nat) : Duration := secs * 1000000000

/-- The id in hex and the second of creation. -/
structure Event where
  id : String
  created_at : Nat
  deriving DecidableEq

structure QueuedEvent where
  channel_id : Uuid
  event : Event
  received_at : Instant
  prompt_tag : String
  deriving DecidableEq

structure BatchEvent where
  event : Event
  prompt_tag : String
  received_at : Instant
  deriving DecidableEq

def QueuedEvent.batched (qe : QueuedEvent) : BatchEvent := ⟨qe.event, qe.prompt_tag, qe.received_at⟩

def BatchEvent.queued (channel_id : Uuid) (be : BatchEvent) : QueuedEvent := ⟨channel_id, be.event, be.received_at, be.prompt_tag⟩

inductive CancelReason where
  | Interrupt | Steer
  deriving DecidableEq

structure FlushBatch where
  channel_id : Uuid
  events : List BatchEvent
  cancelled_events : List BatchEvent
  cancel_reason : Option CancelReason
  deriving DecidableEq

inductive DedupMode where
  | Drop | Queue
  deriving DecidableEq

/-- `capped` is what the cap has dropped so far, of which the source keeps no more than a warning. -/
structure EventQueue where
  queues : Map Uuid (List QueuedEvent)
  in_flight_channels : Map Uuid Unit
  in_flight_deadlines : Map Uuid Instant
  in_flight_batch_sizes : Map Uuid Nat
  retry_after : Map Uuid Instant
  retry_counts : Map Uuid Nat
  dedup_mode : DedupMode
  cancelled_batches : Map Uuid (List BatchEvent)
  cancel_reasons : Map Uuid CancelReason
  withheld_native_steer : Map Uuid (List QueuedEvent)
  in_flight_deadline : Duration
  capped : List QueuedEvent

/-- The orders in which a flush walks the hash maps. -/
structure Walk where
  deadlines : List Uuid
  queues : List Uuid
  cancelled : List Uuid

/-- `push_front` of each entry, the last one first. -/
def push_front_all (entries queue : List QueuedEvent) : List QueuedEvent := entries.reverse.foldl (fun queue qe => qe :: queue) queue

/-- `sort_by_key(created_at)`, which is stable. -/
def sort_by_created_at (events : List BatchEvent) : List BatchEvent :=
  events.insertionSort (fun a b => a.event.created_at ≤ b.event.created_at)

namespace EventQueue

def new (dedup_mode : DedupMode) : EventQueue where
  queues := .empty
  in_flight_channels := .empty
  in_flight_deadlines := .empty
  in_flight_batch_sizes := .empty
  retry_after := .empty
  retry_counts := .empty
  dedup_mode := dedup_mode
  cancelled_batches := .empty
  cancel_reasons := .empty
  withheld_native_steer := .empty
  in_flight_deadline := from_secs DEFAULT_IN_FLIGHT_DEADLINE_SECS
  capped := []

def with_in_flight_deadline (q : EventQueue) (max_turn_duration_secs : Nat) : EventQueue :=
  { q with in_flight_deadline := from_secs (max_turn_duration_secs + IN_FLIGHT_DEADLINE_BUFFER_SECS) }

def extend_in_flight_deadline (q : EventQueue) (channel_id : Uuid) (max_turn_secs : Nat) (now : Instant) : EventQueue :=
  match q.in_flight_deadlines channel_id with
  | none => q
  | some current =>
    let extended := now + from_secs (max_turn_secs + IN_FLIGHT_DEADLINE_BUFFER_SECS)
    if extended > current then { q with in_flight_deadlines := q.in_flight_deadlines.insert channel_id extended } else q

/-- The channel is free of any prompt and any throttle. -/
def ready (q : EventQueue) (now : Instant) (id : Uuid) : Bool :=
  (q.in_flight_channels id).isNone && (q.retry_after id).all (· ≤ now)

/-! ## In and out -/

def push (q : EventQueue) (event : QueuedEvent) : EventQueue × Bool :=
  if q.dedup_mode = .Drop && (q.in_flight_channels event.channel_id).isSome then (q, false)
  else
    let queue := q.queues.listed event.channel_id
    let surplus := if MAX_PENDING_PER_CHANNEL ≤ queue.length then 1 else 0
    ({ q with
        queues := q.queues.insert event.channel_id (queue.drop surplus ++ [event])
        capped := q.capped ++ queue.take surplus }, true)

/-- Entries come to the front of a queue, and what is then beyond the cap goes from its back. -/
def requeue_front (q : EventQueue) (channel_id : Uuid) (entries : List QueuedEvent) : EventQueue :=
  let queue := push_front_all entries (q.queues.listed channel_id)
  { q with
    queues := q.queues.insert channel_id (queue.take MAX_PENDING_PER_CHANNEL)
    capped := q.capped ++ queue.drop MAX_PENDING_PER_CHANNEL }

def recover_withheld_for_expired_channel (q : EventQueue) (channel_id : Uuid) : EventQueue :=
  match q.withheld_native_steer channel_id with
  | none => q
  | some entries =>
    { q with withheld_native_steer := q.withheld_native_steer.remove channel_id }.requeue_front channel_id entries

def expire (q : EventQueue) (id : Uuid) : EventQueue :=
  { q with
    in_flight_batch_sizes := q.in_flight_batch_sizes.remove id
    in_flight_channels := q.in_flight_channels.remove id
    in_flight_deadlines := q.in_flight_deadlines.remove id }.recover_withheld_for_expired_channel id

/-- The channels past their deadline are released, in the order of the walk. -/
def auto_expire (q : EventQueue) (now : Instant) (walk : List Uuid) : EventQueue :=
  let expired := walk.filter (fun id => (q.in_flight_deadlines id).any (· ≤ now))
  expired.foldl expire q

/-- The channel whose first event was received first, among those that are ready. -/
def oldest (q : EventQueue) (now : Instant) (walk : List Uuid) : Option Uuid :=
  let heads := walk.filterMap (fun id =>
    (q.queues id).bind (fun queue => queue.head?.bind (fun front => if q.ready now id then some (id, front.received_at) else none)))
  (heads.argmin Prod.snd).map Prod.fst

def enter_flight (q : EventQueue) (id : Uuid) (now : Instant) (size : Nat) : EventQueue :=
  { q with
    in_flight_channels := q.in_flight_channels.insert id ()
    in_flight_deadlines := q.in_flight_deadlines.insert id (now + q.in_flight_deadline)
    in_flight_batch_sizes := q.in_flight_batch_sizes.insert id size }

/-- Cancelled events with nothing new to merge them into are dispatched again as they were. -/
def flush_cancelled (q : EventQueue) (now : Instant) (id : Uuid) : EventQueue × FlushBatch :=
  let cancelled := q.cancelled_batches.listed id
  let batch := ⟨id, cancelled, [], q.cancel_reasons id⟩
  ({ q with
      cancelled_batches := q.cancelled_batches.remove id
      cancel_reasons := q.cancel_reasons.remove id }.enter_flight id now cancelled.length, batch)

def flush_channel (q : EventQueue) (now : Instant) (channel_id : Uuid) : EventQueue × FlushBatch :=
  let queue := q.queues.listed channel_id
  let drain_count := min MAX_BATCH_EVENTS queue.length
  let events := sort_by_created_at ((queue.take drain_count).map QueuedEvent.batched)
  let cancelled_events := q.cancelled_batches.listed channel_id
  let cancel_reason := if cancelled_events.isEmpty then none else q.cancel_reasons channel_id
  ({ q with
      queues := q.queues.store channel_id (queue.drop drain_count)
      cancelled_batches := q.cancelled_batches.remove channel_id
      cancel_reasons := q.cancel_reasons.remove channel_id }.enter_flight channel_id now events.length,
    ⟨channel_id, events, cancelled_events, cancel_reason⟩)

def flush_next (q : EventQueue) (now : Instant) (walk : Walk) : EventQueue × Option FlushBatch :=
  let q := q.auto_expire now walk.deadlines
  match q.oldest now walk.queues with
  | some id =>
    let (q, batch) := q.flush_channel now id
    (q, some batch)
  | none =>
    match walk.cancelled.find? (fun id => (q.cancelled_batches id).isSome && (q.in_flight_channels id).isNone) with
    | some id =>
      let (q, batch) := q.flush_cancelled now id
      (q, some batch)
    | none => (q, none)

def has_flushable_work (q : EventQueue) (now : Instant) (walk : Walk) : EventQueue × Bool :=
  let q := q.auto_expire now walk.deadlines
  (q, walk.queues.any (fun id => !(q.queues.listed id).isEmpty && q.ready now id) ||
    walk.cancelled.any (fun id => (q.cancelled_batches id).isSome && (q.in_flight_channels id).isNone))

/-- Also what a throttle holds back. The arguments are the orders in which the maps are walked. -/
def has_undispatched_work (q : EventQueue) (queues cancelled withheld : List Uuid) : Bool :=
  queues.any (fun id => !(q.queues.listed id).isEmpty && (q.in_flight_channels id).isNone) ||
    cancelled.any (fun id => (q.cancelled_batches id).isSome && (q.in_flight_channels id).isNone) ||
    withheld.any (fun id => !(q.withheld_native_steer.listed id).isEmpty && (q.in_flight_channels id).isNone)

def has_in_flight (q : EventQueue) (channels : List Uuid) : Bool := channels.any (fun id => (q.in_flight_channels id).isSome)

def mark_complete (q : EventQueue) (channel_id : Uuid) (now : Instant) : EventQueue :=
  let q := { q with
    in_flight_channels := q.in_flight_channels.remove channel_id
    in_flight_deadlines := q.in_flight_deadlines.remove channel_id
    in_flight_batch_sizes := q.in_flight_batch_sizes.remove channel_id }
  match q.retry_after channel_id with
  | some deadline =>
    if deadline > now then q
    else { q with
      retry_after := q.retry_after.remove channel_id
      retry_counts := q.retry_counts.remove channel_id }
  | none => { q with retry_counts := q.retry_counts.remove channel_id }

/-! ## Handing back -/

/-- `jitter` scales the delay in seconds by 0.8 to 1.2, from the nanoseconds of the wall clock. -/
def requeue (q : EventQueue) (batch : FlushBatch) (now : Instant) (jitter : Nat → Duration) : EventQueue × Option FlushBatch :=
  let channel_id := batch.channel_id
  let attempt := (q.retry_counts channel_id).getD 0 + 1
  if attempt > MAX_RETRIES then
    ({ q with
        retry_counts := q.retry_counts.remove channel_id
        retry_after := q.retry_after.remove channel_id }, some batch)
  else
    let base_secs := BASE_RETRY_DELAY_SECS * (1 <<< min (attempt - 1) 6)
    let capped_secs := min base_secs MAX_RETRY_DELAY_SECS
    let q := { q with retry_counts := q.retry_counts.insert channel_id attempt }.requeue_front channel_id
      (batch.events.map (BatchEvent.queued channel_id))
    ({ q with retry_after := q.retry_after.insert channel_id (now + jitter capped_secs) }, none)

def requeue_preserve_timestamps (q : EventQueue) (batch : FlushBatch) : EventQueue :=
  q.requeue_front batch.channel_id (batch.events.map (BatchEvent.queued batch.channel_id))

def requeue_as_cancelled (q : EventQueue) (batch : FlushBatch) (reason : CancelReason) : EventQueue :=
  { q with
    cancelled_batches := q.cancelled_batches.insert batch.channel_id
      (q.cancelled_batches.listed batch.channel_id ++ batch.cancelled_events ++ batch.events)
    cancel_reasons := q.cancel_reasons.insert batch.channel_id reason }

/-! ## Events withheld for a steer -/

/-- The first entry of that id, and the entries without it. -/
def take_event (event_id : String) (entries : List QueuedEvent) : Option (QueuedEvent × List QueuedEvent) :=
  (entries.find? (·.event.id = event_id)).map (fun qe => (qe, entries.eraseP (·.event.id = event_id)))

def mark_native_steer_pending (q : EventQueue) (channel_id : Uuid) (event_id : String) : EventQueue × Bool :=
  match take_event event_id (q.queues.listed channel_id) with
  | none => (q, false)
  | some (qe, rest) =>
    ({ q with
        queues := q.queues.store channel_id rest
        withheld_native_steer := q.withheld_native_steer.insert channel_id (q.withheld_native_steer.listed channel_id ++ [qe]) }, true)

def release_native_steer (q : EventQueue) (channel_id : Uuid) (event_id : String) : EventQueue :=
  match take_event event_id (q.withheld_native_steer.listed channel_id) with
  | none => q
  | some (qe, rest) =>
    { q with withheld_native_steer := q.withheld_native_steer.store channel_id rest }.requeue_front channel_id [qe]

def remove_event (q : EventQueue) (channel_id : Uuid) (event_id : String) : EventQueue :=
  { q with
    withheld_native_steer := q.withheld_native_steer.retain_listed channel_id (·.event.id ≠ event_id)
    queues := q.queues.retain_listed channel_id (·.event.id ≠ event_id) }

/-- The ids are those of the queue only. -/
def drain_channel (q : EventQueue) (channel_id : Uuid) : EventQueue × List String :=
  ({ q with
      queues := q.queues.remove channel_id
      retry_after := q.retry_after.remove channel_id
      retry_counts := q.retry_counts.remove channel_id
      cancelled_batches := q.cancelled_batches.remove channel_id
      cancel_reasons := q.cancel_reasons.remove channel_id
      withheld_native_steer := q.withheld_native_steer.remove channel_id },
    (q.queues.listed channel_id).map (·.event.id))

def compact_expired_state (q : EventQueue) (now : Instant) : EventQueue :=
  let retry_after := q.retry_after.retain (fun id => (q.retry_after id).any (now < ·))
  { q with
    retry_after := retry_after
    retry_counts := q.retry_counts.retain (fun id =>
      (retry_after id).isSome || !(q.queues.listed id).isEmpty || (q.in_flight_channels id).isSome) }

end EventQueue
end Ambush.Acp

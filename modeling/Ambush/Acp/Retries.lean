import Ambush.Acp.Accounting
/-!
# When a failing batch is given up

`requeue` counts the failures of a channel and gives a batch back once there were
`MAX_RETRIES` before it. The count is dropped where a turn is taken to have succeeded:
`mark_complete` sees that in the channel not being throttled, and `compact_expired_state` in
its having no work. Here the count is compared with the failures there were.
-/
open Lib

namespace Ambush.Acp

namespace EventQueue

/-- The failures the queue has on record for a channel. -/
def counted (q : EventQueue) (c : Uuid) : Nat := (q.retry_counts c).getD 0

/-- The backoff of the channel is not over. -/
def throttled (q : EventQueue) (c : Uuid) (now : Instant) : Bool := (q.retry_after c).any (now < ·)

variable {q : EventQueue} {c : Uuid}

/-! ## What the calls do to the count -/

theorem retry_counts_push (q : EventQueue) (event : QueuedEvent) : (q.push event).1.retry_counts = q.retry_counts := by
  unfold push
  split
  · rfl
  · rfl

theorem retry_counts_expire (q : EventQueue) (id : Uuid) : (q.expire id).retry_counts = q.retry_counts := by
  unfold expire recover_withheld_for_expired_channel
  split
  · rfl
  · rfl

theorem retry_counts_auto_expire (q : EventQueue) (now : Instant) (walk : List Uuid) :
    (q.auto_expire now walk).retry_counts = q.retry_counts := by
  unfold auto_expire
  induction walk.filter (fun id => (q.in_flight_deadlines id).any (· ≤ now)) generalizing q with
  | nil => rfl
  | cons id rest ih => rw [List.foldl_cons, ih, retry_counts_expire]

theorem retry_counts_flush_channel (q : EventQueue) (now : Instant) (id : Uuid) : (q.flush_channel now id).1.retry_counts = q.retry_counts :=
  rfl

theorem retry_counts_flush_cancelled (q : EventQueue) (now : Instant) (id : Uuid) :
    (q.flush_cancelled now id).1.retry_counts = q.retry_counts := rfl

theorem retry_counts_flush_next (q : EventQueue) (now : Instant) (walk : Walk) : (q.flush_next now walk).1.retry_counts = q.retry_counts := by
  have hexpired := retry_counts_auto_expire q now walk.deadlines
  unfold flush_next
  generalize q.auto_expire now walk.deadlines = expired at hexpired
  dsimp only
  split
  · next id _ => exact (retry_counts_flush_channel expired now id).trans hexpired
  · split
    · next id _ => exact (retry_counts_flush_cancelled expired now id).trans hexpired
    · exact hexpired

theorem retry_counts_extend (q : EventQueue) (channel_id : Uuid) (max_turn_secs : Nat) (now : Instant) :
    (q.extend_in_flight_deadline channel_id max_turn_secs now).retry_counts = q.retry_counts := by
  unfold extend_in_flight_deadline
  dsimp only
  split
  · rfl
  · split
    · rfl
    · rfl

theorem retry_counts_mark_native_steer_pending (q : EventQueue) (channel_id : Uuid) (event_id : String) :
    (q.mark_native_steer_pending channel_id event_id).1.retry_counts = q.retry_counts := by
  unfold mark_native_steer_pending
  split
  · rfl
  · rfl

theorem retry_counts_release_native_steer (q : EventQueue) (channel_id : Uuid) (event_id : String) :
    (q.release_native_steer channel_id event_id).retry_counts = q.retry_counts := by
  unfold release_native_steer
  split
  · rfl
  · rfl

/-- A completion drops the count of its channel unless the channel is throttled. -/
theorem counted_mark_complete (q : EventQueue) (channel_id : Uuid) (now : Instant) (c : Uuid) :
    (q.mark_complete channel_id now).counted c = if channel_id = c ∧ q.throttled c now = false then 0 else q.counted c := by
  unfold mark_complete counted throttled
  dsimp only
  by_cases hc : channel_id = c
  · subst hc
    cases hthrottle : q.retry_after channel_id with
    | none =>
      rw [if_pos ⟨rfl, rfl⟩]
      dsimp only
      rw [Map.remove_self]
      rfl
    | some deadline =>
      dsimp only
      by_cases hlater : deadline > now
      · rw [if_pos hlater, if_neg]
        rintro ⟨-, hnot⟩
        rw [Option.any_some, decide_eq_true hlater] at hnot
        cases hnot
      · rw [if_neg hlater, if_pos ⟨rfl, by rw [Option.any_some, decide_eq_false hlater]⟩]
        dsimp only
        rw [Map.remove_self]
        rfl
  · rw [if_neg (fun h => hc h.1)]
    split
    · split
      · rfl
      · dsimp only
        rw [Map.remove_ne _ _ _ (Ne.symm hc)]
    · dsimp only
      rw [Map.remove_ne _ _ _ (Ne.symm hc)]

theorem requeue_at_limit {batch : FlushBatch} (h : q.counted batch.channel_id = MAX_RETRIES) (now : Instant) (jitter : Nat → Duration) :
    (q.requeue batch now jitter).2 = some batch ∧ (q.requeue batch now jitter).1.counted batch.channel_id = 0 := by
  unfold counted at h
  unfold requeue counted
  dsimp only
  rw [h, if_pos (Nat.lt_succ_self _)]
  dsimp only
  rw [Map.remove_self]
  exact ⟨rfl, rfl⟩

theorem requeue_below_limit {batch : FlushBatch} (h : q.counted batch.channel_id < MAX_RETRIES) (now : Instant) (jitter : Nat → Duration) :
    (q.requeue batch now jitter).2 = none ∧
      (q.requeue batch now jitter).1.counted batch.channel_id = q.counted batch.channel_id + 1 := by
  unfold counted at h
  unfold requeue counted
  dsimp only
  rw [if_neg (not_lt.2 (Nat.succ_le_of_lt h))]
  dsimp only [requeue_front]
  rw [Map.insert_self]
  exact ⟨rfl, rfl⟩

theorem counted_requeue_ne (q : EventQueue) {batch : FlushBatch} (hc : batch.channel_id ≠ c) (now : Instant) (jitter : Nat → Duration) :
    (q.requeue batch now jitter).1.counted c = q.counted c := by
  unfold requeue counted
  dsimp only
  split
  · dsimp only
    rw [Map.remove_ne _ _ _ (Ne.symm hc)]
  · dsimp only [requeue_front]
    rw [Map.insert_ne _ _ _ _ (Ne.symm hc)]

theorem counted_drain_channel (q : EventQueue) (channel_id c : Uuid) :
    (q.drain_channel channel_id).1.counted c = if channel_id = c then 0 else q.counted c := by
  unfold drain_channel counted
  dsimp only
  rw [Map.remove_apply]
  by_cases hc : channel_id = c
  · rw [if_pos hc.symm, if_pos hc]
    rfl
  · rw [if_neg (Ne.symm hc), if_neg hc]

/-- A channel has work: it is throttled, in flight, or has events waiting. -/
def at_work (q : EventQueue) (c : Uuid) (now : Instant) : Bool :=
  q.throttled c now || !(q.queues.listed c).isEmpty || (q.in_flight_channels c).isSome

theorem counted_compact (q : EventQueue) (c : Uuid) (now : Instant) :
    (q.compact_expired_state now).counted c = if q.at_work c now then q.counted c else 0 := by
  have hkept : (q.retry_after.retain (fun id => (q.retry_after id).any (now < ·)) c).isSome = q.throttled c now := by
    unfold throttled
    rw [Map.retain_apply]
    cases h : q.retry_after c with
    | none => rfl
    | some deadline =>
      by_cases hlater : now < deadline
      · simp [hlater]
      · simp [hlater]
  unfold compact_expired_state counted at_work
  dsimp only
  rw [Map.retain_apply, hkept]
  split
  · rfl
  · rfl

end EventQueue

/-! ## Failures in a run -/

/-- The failures of a channel since its last success, its last draining or its last batch given up. `finished` are the turns that
succeeded. -/
def tally (c : Uuid) (failures : Nat) : Move → Nat
  | .requeue batch _ _ => if batch.channel_id = c then (if failures = MAX_RETRIES then 0 else failures + 1) else failures
  | .mark_complete channel_id _ finished => if channel_id = c ∧ finished ≠ [] then 0 else failures
  | .drain_channel channel_id => if channel_id = c then 0 else failures
  | _ => failures

def failures (c : Uuid) (moves : List Move) : Nat := moves.foldl (tally c) 0

theorem failures_concat (c : Uuid) (moves : List Move) (m : Move) : failures c (moves ++ [m]) = tally c (failures c moves) m :=
  List.foldl_concat _ _ _ _

/-- The call sees of the turns of the channel what there is to see, or there is no failure to forget: a completion is of turns that
succeeded if the channel is not throttled, and of none if it is; and metadata is compacted while the channel has work. -/
def Steady (q : EventQueue) (c : Uuid) : Move → Prop
  | .mark_complete channel_id now finished => channel_id = c → q.counted c = 0 ∨ (q.throttled c now = false ↔ finished ≠ [])
  | .compact_expired_state now => q.counted c = 0 ∨ q.at_work c now = true
  | _ => True

namespace Harness

variable {h h' : Harness} {m : Move} {c : Uuid}

theorem finish_queue {batch : FlushBatch} (hfinish : h.finish batch = some h') : h'.queue = h.queue := by
  unfold finish give_up at hfinish
  split at hfinish
  · cases hfinish
    rfl
  · cases hfinish

theorem finish_all_queue {finished : List FlushBatch} (hfinish : finished.foldlM finish h = some h') : h'.queue = h.queue := by
  induction finished generalizing h with
  | nil =>
    cases hfinish
    rfl
  | cons batch rest ih =>
    obtain ⟨h₁, h₁', hrest⟩ := Option.bind_eq_some_iff.1 hfinish
    exact (ih hrest).trans (finish_queue h₁')

theorem give_up_queue {batch : FlushBatch} (hgive : h.give_up batch = some h') : h'.queue = h.queue := by
  unfold give_up at hgive
  split at hgive
  · cases hgive
    rfl
  · cases hgive

/-- A steady call keeps the count at the failures there were. -/
theorem counted_move (hmove : h.move m = some h') (hlimit : h.queue.counted c ≤ MAX_RETRIES) (hsteady : Steady h.queue c m) :
    h'.queue.counted c = tally c (h.queue.counted c) m ∧ h'.queue.counted c ≤ MAX_RETRIES := by
  have hsame : h'.queue.retry_counts = h.queue.retry_counts → h'.queue.counted c = h.queue.counted c := fun heq => by
    unfold EventQueue.counted
    rw [heq]
  suffices hcounted : h'.queue.counted c = tally c (h.queue.counted c) m by
    refine ⟨hcounted, hcounted ▸ ?_⟩
    unfold tally
    split
    · split
      · split
        · exact Nat.zero_le _
        · omega
      · exact hlimit
    · split
      · exact Nat.zero_le _
      · exact hlimit
    · split
      · exact Nat.zero_le _
      · exact hlimit
    · exact hlimit
  cases m with
  | push event =>
    obtain rfl := Option.some.inj hmove
    exact hsame (EventQueue.retry_counts_push h.queue event)
  | flush_next now walk =>
    obtain rfl := Option.some.inj hmove
    exact hsame (EventQueue.retry_counts_flush_next h.queue now walk)
  | has_flushable_work now walk =>
    obtain rfl := Option.some.inj hmove
    exact hsame (EventQueue.retry_counts_auto_expire h.queue now walk.deadlines)
  | extend_in_flight_deadline channel_id max_turn_secs now =>
    obtain rfl := Option.some.inj hmove
    exact hsame (EventQueue.retry_counts_extend h.queue channel_id max_turn_secs now)
  | mark_complete channel_id now finished =>
    have hguarded : (if finished.all (·.channel_id = channel_id) then
        finished.foldlM finish { h with queue := h.queue.mark_complete channel_id now } else none) = some h' := hmove
    split at hguarded
    · have hqueue := finish_all_queue hguarded
      rw [hqueue]
      dsimp only
      rw [EventQueue.counted_mark_complete, tally]
      by_cases hc : channel_id = c
      · rcases hsteady hc with hzero | hseen
        · rw [hzero, ite_self, ite_self]
        · simp only [hc, true_and, hseen]
      · rw [if_neg (fun h => hc h.1), if_neg (fun h => hc h.1)]
    · cases hguarded
  | requeue batch now jitter =>
    obtain ⟨h₁, hgive, rfl⟩ := Option.map_eq_some_iff.1 hmove
    have hqueue := give_up_queue hgive
    dsimp only
    rw [hqueue, tally]
    by_cases hc : batch.channel_id = c
    · rw [if_pos hc]
      subst hc
      by_cases hmax : h.queue.counted batch.channel_id = MAX_RETRIES
      · rw [if_pos hmax]
        exact (EventQueue.requeue_at_limit hmax now jitter).2
      · rw [if_neg hmax]
        exact (EventQueue.requeue_below_limit (lt_of_le_of_ne hlimit hmax) now jitter).2
    · rw [if_neg hc]
      exact EventQueue.counted_requeue_ne h.queue hc now jitter
  | requeue_preserve_timestamps batch =>
    obtain ⟨h₁, hgive, rfl⟩ := Option.map_eq_some_iff.1 hmove
    have hqueue : h₁.queue.retry_counts = h.queue.retry_counts := congrArg EventQueue.retry_counts (give_up_queue hgive)
    exact hsame hqueue
  | requeue_as_cancelled batch reason =>
    obtain ⟨h₁, hgive, rfl⟩ := Option.map_eq_some_iff.1 hmove
    have hqueue : h₁.queue.retry_counts = h.queue.retry_counts := congrArg EventQueue.retry_counts (give_up_queue hgive)
    exact hsame hqueue
  | mark_native_steer_pending channel_id event_id =>
    obtain rfl := Option.some.inj hmove
    exact hsame (EventQueue.retry_counts_mark_native_steer_pending h.queue channel_id event_id)
  | release_native_steer channel_id event_id =>
    obtain rfl := Option.some.inj hmove
    exact hsame (EventQueue.retry_counts_release_native_steer h.queue channel_id event_id)
  | remove_event channel_id event_id =>
    obtain rfl := Option.some.inj hmove
    exact hsame rfl
  | drain_channel channel_id =>
    obtain rfl := Option.some.inj hmove
    exact EventQueue.counted_drain_channel h.queue channel_id c
  | compact_expired_state now =>
    obtain rfl := Option.some.inj hmove
    refine (EventQueue.counted_compact h.queue c now).trans ?_
    rcases hsteady with hzero | hwork
    · rw [hzero, ite_self]
      rfl
    · rw [hwork, if_pos rfl]
      rfl

/-- While every call is steady, the count is what there was. -/
theorem counted_failures {dedup_mode : DedupMode} {max_turn_duration_secs : Nat} (c : Uuid) (moves : List Move)
    (hsteady : ∀ past m h, past ++ [m] <+: moves → Run Moves (start dedup_mode max_turn_duration_secs) past h → Steady h.queue c m) :
    ∀ past h, past <+: moves → Run Moves (start dedup_mode max_turn_duration_secs) past h →
      h.queue.counted c = failures c past ∧ h.queue.counted c ≤ MAX_RETRIES := by
  refine Run.throughout ⟨rfl, Nat.zero_le _⟩ moves ?_
  intro past m h h' hpast hrun ⟨hcounted, hlimit⟩ hmove
  obtain ⟨hnext, hlimit'⟩ := counted_move hmove hlimit (hsteady past m h hpast hrun)
  exact ⟨by rw [failures_concat, ← hcounted, hnext], hlimit'⟩

/-- A request that fails each time it is tried. -/
def try_at (n : Nat) : Instant := from_secs (400 * n)

def failing_try (n : Nat) : List Move :=
  [.flush_next (try_at n) ⟨[7], [7], []⟩, .requeue first_turn (try_at n + 1) from_secs, .mark_complete 7 (try_at n + 2) []]

/-- No agent is free at the second try. -/
def no_agent_try (n : Nat) : List Move :=
  [.flush_next (try_at n) ⟨[7], [7], []⟩, .requeue_preserve_timestamps first_turn, .mark_complete 7 (try_at n + 2) []]

def unlucky : List Move :=
  .push (asked "first" 10) :: failing_try 1 ++ no_agent_try 2 ++ (List.range 9).flatMap (fun n => failing_try (n + 3)) ++
    [.flush_next (try_at 12) ⟨[7], [7], []⟩]

end Harness
end Ambush.Acp

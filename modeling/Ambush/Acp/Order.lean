import Ambush.Acp.Idle
/-!
# In the order of receipt

A flush looks at the first event of each queue and takes up to fifty from the front. That is the
order of receipt as long as every queue is in it. What comes back to the front of a queue need
not be: a batch was sorted by creation, and an event withheld for a steer may be the latest.
-/
open Lib

namespace Ambush.Acp

/-- Received in this order. -/
def InOrder (l : List QueuedEvent) : Prop := l.Pairwise (fun a b => a.received_at ≤ b.received_at)

namespace EventQueue

variable {q : EventQueue} {c : Uuid}

/-! ## What comes to either end of a queue -/

/-- What a call puts back at the front of the queue of a channel. -/
def returned (q : EventQueue) (c : Uuid) : Move → List QueuedEvent
  | .flush_next now _ | .has_flushable_work now _ => if (q.slot c).expired now then q.withheld_native_steer.listed c else []
  | .requeue batch _ _ =>
    if batch.channel_id = c ∧ q.exhausted batch.channel_id = false then batch.events.map (BatchEvent.queued c) else []
  | .requeue_preserve_timestamps batch => if batch.channel_id = c then batch.events.map (BatchEvent.queued c) else []
  | .release_native_steer channel_id event_id =>
    if channel_id = c then ((take_event event_id (q.withheld_native_steer.listed c)).map Prod.fst).toList else []
  | _ => []

/-- What a call adds at the back. -/
def added (c : Uuid) : Move → List QueuedEvent
  | .push event => if event.channel_id = c then [event] else []
  | _ => []

theorem listed_slot (q : EventQueue) (c : Uuid) : (q.slot c).listed = q.queues.listed c := rfl

theorem listed_auto_expire (q : EventQueue) (now : Instant) (walk : List Uuid) (c : Uuid) :
    ((q.auto_expire now walk).queues.listed c).Sublist
      ((if (q.slot c).expired now then q.withheld_native_steer.listed c else []) ++ q.queues.listed c) := by
  rw [← listed_slot, auto_expire, slot_expire_all]
  split
  · next hmem =>
    have hexpired : (q.slot c).expired now = true := (List.mem_filter.1 hmem).2
    rw [if_pos hexpired, Slot.listed, Slot.expire]
    dsimp only [slot]
    unfold Map.listed
    cases q.withheld_native_steer c with
    | none => exact List.sublist_append_right _ _
    | some entries => exact List.take_sublist _ _
  · exact List.sublist_append_right _ _

theorem listed_requeue_front (q : EventQueue) (channel_id : Uuid) (entries : List QueuedEvent) (c : Uuid) :
    ((q.requeue_front channel_id entries).queues.listed c).Sublist ((if channel_id = c then entries else []) ++ q.queues.listed c) := by
  rw [requeue_front, Map.listed_insert, push_front_all_eq]
  by_cases hc : c = channel_id
  · subst hc
    rw [if_pos rfl, if_pos rfl]
    exact List.take_sublist _ _
  · rw [if_neg hc, if_neg (Ne.symm hc)]
    exact List.Sublist.refl _

theorem listed_flush_next (q : EventQueue) (now : Instant) (walk : Walk) (c : Uuid) :
    ((q.flush_next now walk).1.queues.listed c).Sublist ((q.auto_expire now walk.deadlines).queues.listed c) := by
  rw [flush_next]
  dsimp only
  split
  · next id _ =>
    simp only [flush_channel, enter_flight, Map.listed_store]
    split
    · next hc =>
      rw [hc]
      exact List.drop_sublist _ _
    · exact List.Sublist.refl _
  · split <;> exact List.Sublist.refl _

/-- A queue holds after a call what it held before, with what came to its ends. -/
theorem listed_call (q : EventQueue) (m : Move) (c : Uuid) :
    ((q.call m).queues.listed c).Sublist (q.returned c m ++ q.queues.listed c ++ added c m) := by
  cases m with
  | push event =>
    simp only [returned, added, call, push, List.nil_append]
    split
    · exact List.sublist_append_left _ _
    · rw [Map.listed_insert]
      by_cases hc : c = event.channel_id
      · subst hc
        rw [if_pos rfl, if_pos rfl]
        exact (List.drop_sublist _ _).append_right _
      · rw [if_neg hc]
        exact List.sublist_append_left _ _
  | flush_next now walk =>
    simp only [returned, added, call, List.append_nil]
    exact (listed_flush_next q now walk c).trans (listed_auto_expire q now walk.deadlines c)
  | has_flushable_work now walk =>
    simp only [returned, added, call, List.append_nil]
    exact listed_auto_expire q now walk.deadlines c
  | extend_in_flight_deadline channel_id max_turn_secs now =>
    simp only [returned, added, call, List.append_nil, List.nil_append]
    unfold extend_in_flight_deadline
    dsimp only
    split
    · exact List.Sublist.refl _
    · split
      · exact List.Sublist.refl _
      · exact List.Sublist.refl _
  | mark_complete channel_id now finished =>
    simp only [returned, added, call, List.append_nil, List.nil_append]
    unfold mark_complete
    dsimp only
    split
    · split
      · exact List.Sublist.refl _
      · exact List.Sublist.refl _
    · exact List.Sublist.refl _
  | requeue batch now jitter =>
    simp only [returned, added, call, List.append_nil]
    cases hexhausted : q.exhausted batch.channel_id with
    | true =>
      have hattempt := of_decide_eq_true hexhausted
      rw [if_neg (by simp), requeue]
      dsimp only
      rw [if_pos (by omega)]
      exact List.Sublist.refl _
    | false =>
      have hattempt := of_decide_eq_false hexhausted
      rw [requeue]
      dsimp only
      rw [if_neg (by omega)]
      refine (listed_requeue_front _ _ _ c).trans ?_
      by_cases hc : batch.channel_id = c
      · subst hc
        simp only [and_true, if_true]
        exact List.Sublist.refl _
      · simp only [hc, false_and, if_false]
        exact List.Sublist.refl _
  | requeue_preserve_timestamps batch =>
    simp only [returned, added, call, List.append_nil]
    refine (listed_requeue_front _ _ _ c).trans ?_
    by_cases hc : batch.channel_id = c
    · subst hc
      simp only [if_true]
      exact List.Sublist.refl _
    · simp only [hc, if_false]
      exact List.Sublist.refl _
  | requeue_as_cancelled batch reason =>
    simp only [returned, added, call, List.append_nil, List.nil_append]
    exact List.Sublist.refl _
  | mark_native_steer_pending channel_id event_id =>
    simp only [returned, added, call, List.append_nil, List.nil_append]
    unfold mark_native_steer_pending
    split
    · exact List.Sublist.refl _
    · next qe rest htaken =>
      obtain ⟨found, -, heq⟩ := Option.map_eq_some_iff.1 htaken
      cases heq
      simp only [Map.listed_store]
      split
      · next hc =>
        rw [hc]
        exact List.eraseP_sublist
      · exact List.Sublist.refl _
  | release_native_steer channel_id event_id =>
    simp only [returned, added, call, List.append_nil]
    unfold release_native_steer
    split
    · exact List.sublist_append_right _ _
    · next qe rest htaken =>
      have hfront := listed_requeue_front
        { q with withheld_native_steer := q.withheld_native_steer.store channel_id rest } channel_id [qe] c
      by_cases hc : channel_id = c
      · subst hc
        rw [if_pos rfl] at hfront ⊢
        rw [htaken]
        exact hfront
      · rw [if_neg hc] at hfront ⊢
        exact hfront
  | remove_event channel_id event_id =>
    simp only [returned, added, call, List.append_nil, List.nil_append, remove_event, Map.listed_retain]
    split
    · next hc =>
      rw [hc]
      exact List.filter_sublist
    · exact List.Sublist.refl _
  | drain_channel channel_id =>
    simp only [returned, added, call, List.append_nil, List.nil_append, drain_channel, Map.listed_remove]
    split
    · exact List.nil_sublist _
    · exact List.Sublist.refl _
  | compact_expired_state now =>
    simp only [returned, added, call, List.append_nil, List.nil_append]
    exact List.Sublist.refl _

/-! ## What a flush takes -/

theorem held_auto_expire (hq : q.AtHome) (now : Instant) (walk : List Uuid) : (q.auto_expire now walk).AtHome :=
  (auto_expire_still q now walk hq).1

/-- What a call cancels. -/
def cancels : Move → List QueuedEvent
  | .requeue_as_cancelled batch _ => batch.contents
  | _ => []

/-- The cancelled events of a channel, as they were queued. -/
def interruptions (q : EventQueue) (c : Uuid) : List QueuedEvent := (q.cancelled_batches.listed c).map (BatchEvent.queued c)

theorem cancelled_auto_expire (q : EventQueue) (now : Instant) (walk : List Uuid) :
    (q.auto_expire now walk).cancelled_batches = q.cancelled_batches := by
  funext c
  have hslot := slot_expire_all (walk.filter (fun id => (q.in_flight_deadlines id).any (· ≤ now))) q c
  have hcancelled := congrArg Slot.cancelled hslot
  refine hcancelled.trans ?_
  split <;> rfl

theorem cancelled_flush_next (q : EventQueue) (now : Instant) (walk : Walk) (c : Uuid) :
    (q.flush_next now walk).1.interruptions c ⊆ q.interruptions c := by
  have hremoved : ∀ id : Uuid, ((q.cancelled_batches.remove id).listed c).map (BatchEvent.queued c) ⊆ q.interruptions c := by
    intro id
    rw [Map.listed_remove]
    split
    · exact List.nil_subset _
    · exact List.Subset.refl _
  rw [flush_next]
  dsimp only
  split
  · next id _ =>
    simp only [interruptions, flush_channel, enter_flight, cancelled_auto_expire]
    exact hremoved id
  · split
    · next id _ =>
      simp only [interruptions, flush_cancelled, enter_flight, cancelled_auto_expire]
      exact hremoved id
    · simp only [interruptions, cancelled_auto_expire]
      exact List.Subset.refl _

/-- Only what a call cancels is added to the cancelled events. -/
theorem interruptions_call (q : EventQueue) (m : Move) (c : Uuid) : (q.call m).interruptions c ⊆ q.interruptions c ++ cancels m := by
  have hsame : ∀ q' : EventQueue, q'.cancelled_batches = q.cancelled_batches → q'.interruptions c ⊆ q.interruptions c ++ cancels m := by
    intro q' h
    rw [interruptions, h]
    exact List.subset_append_left _ _
  cases m with
  | flush_next now walk => exact List.Subset.trans (cancelled_flush_next q now walk c) (List.subset_append_left _ _)
  | has_flushable_work now walk => exact hsame _ (cancelled_auto_expire q now walk.deadlines)
  | requeue_as_cancelled batch reason =>
    simp only [call, requeue_as_cancelled, interruptions, Map.listed_insert, cancels]
    split
    · next hc =>
      subst hc
      intro x hx
      simp only [FlushBatch.contents, List.map_append, List.mem_append] at hx ⊢
      rcases hx with (hx | hx) | hx
      · exact .inl hx
      · exact .inr (.inr hx)
      · exact .inr (.inl hx)
    · exact List.subset_append_left _ _
  | drain_channel channel_id =>
    simp only [call, drain_channel, interruptions, Map.listed_remove]
    split
    · exact List.nil_subset _
    · exact List.subset_append_left _ _
  | push event =>
    refine hsame _ ?_
    dsimp only [call, push]
    split <;> rfl
  | extend_in_flight_deadline channel_id max_turn_secs now =>
    refine hsame _ ?_
    dsimp only [call]
    unfold extend_in_flight_deadline
    dsimp only
    split
    · rfl
    · split
      · rfl
      · rfl
  | mark_complete channel_id now finished =>
    refine hsame _ ?_
    dsimp only [call]
    unfold mark_complete
    dsimp only
    split
    · split
      · rfl
      · rfl
    · rfl
  | requeue batch now jitter =>
    refine hsame _ ?_
    dsimp only [call]
    unfold requeue
    dsimp only
    split
    · rfl
    · rfl
  | mark_native_steer_pending channel_id event_id =>
    refine hsame _ ?_
    dsimp only [call]
    unfold mark_native_steer_pending
    split
    · rfl
    · rfl
  | release_native_steer channel_id event_id =>
    refine hsame _ ?_
    dsimp only [call]
    unfold release_native_steer
    split
    · rfl
    · rfl
  | _ => exact hsame _ rfl

/-- A flushed event that was not cancelled comes from the front of its queue, and what is left was behind it. -/
theorem flush_next_takes (hq : q.AtHome) {now : Instant} {walk : Walk} {batch : FlushBatch}
    (hflush : (q.flush_next now walk).2 = some batch) {e : QueuedEvent} (he : e ∈ batch.contents)
    (hfresh : e ∉ q.interruptions batch.channel_id) :
    ∃ front, e ∈ front ∧ (q.auto_expire now walk.deadlines).queues.listed batch.channel_id =
      front ++ (q.flush_next now walk).1.queues.listed batch.channel_id := by
  have hexpired := held_auto_expire hq now walk.deadlines
  have hcancelled : ∀ c, (q.auto_expire now walk.deadlines).cancelled_batches.listed c = q.cancelled_batches.listed c := by
    intro c
    rw [cancelled_auto_expire]
  rw [flush_next] at hflush ⊢
  dsimp only at hflush ⊢
  cases holdest : (q.auto_expire now walk.deadlines).oldest now walk.queues with
  | some id =>
    rw [holdest] at hflush
    cases hflush
    generalize q.auto_expire now walk.deadlines = expired at hexpired hcancelled hfresh he ⊢
    have hid : (expired.flush_channel now id).2.channel_id = id := rfl
    rw [hid] at hfresh ⊢
    generalize hn : min MAX_BATCH_EVENTS (expired.queues.listed id).length = n
    refine ⟨(expired.queues.listed id).take n, ?_, ?_⟩
    · have hhome : ∀ x ∈ (expired.queues.listed id).take n, x.channel_id = id :=
        fun x hx => hexpired id x (List.mem_append_left _ (List.mem_append_left _ (List.mem_of_mem_take hx)))
      have hsorted := (List.perm_insertionSort (fun a b : BatchEvent => a.event.created_at ≤ b.event.created_at)
        (((expired.queues.listed id).take n).map QueuedEvent.batched)).map (BatchEvent.queued id)
      rw [map_queued_batched hhome] at hsorted
      simp only [FlushBatch.contents, flush_channel, hn, List.map_append, List.mem_append] at he
      rcases he with he | he
      · exact hsorted.subset he
      · rw [hcancelled] at he
        exact absurd he hfresh
    · simp only [flush_channel, enter_flight, Map.listed_store, if_true, hn]
      exact (List.take_append_drop n _).symm
  | none =>
    rw [holdest] at hflush
    dsimp only at hflush
    split at hflush
    · next id _ =>
      cases hflush
      -- what was cancelled is dispatched again
      simp only [FlushBatch.contents, flush_cancelled, List.append_nil, hcancelled] at he
      exact absurd he hfresh
    · cases hflush

end EventQueue

/-! ## The harness, watched -/

/-- The harness, the batches that were flushed so far, and the events that were ever cancelled or withheld for a steer. -/
structure Watch where
  harness : Harness
  flushed : List FlushBatch := []
  set_aside : List QueuedEvent := []

namespace Watch

def queue (w : Watch) : EventQueue := w.harness.queue

/-- What a call sets aside. -/
def sets_aside (w : Watch) : Move → List QueuedEvent
  | .mark_native_steer_pending channel_id event_id =>
    ((EventQueue.take_event event_id (w.queue.queues.listed channel_id)).map Prod.fst).toList
  | m => EventQueue.cancels m

def flushes (w : Watch) : Move → List FlushBatch
  | .flush_next now walk => (w.queue.flush_next now walk).2.toList
  | _ => []

def move (w : Watch) (m : Move) : Option Watch :=
  (w.harness.move m).map (fun h => ⟨h, w.flushed ++ w.flushes m, w.set_aside ++ w.sets_aside m⟩)

def Moves (w : Watch) (m : Move) (w' : Watch) : Prop := w.move m = some w'

def start (dedup_mode : DedupMode) (max_turn_duration_secs : Nat) : Watch := ⟨Harness.start dedup_mode max_turn_duration_secs, [], []⟩

/-- Two events of a channel that were neither cancelled nor steered and never flushed in one batch. -/
structure Apart (w : Watch) (e x : QueuedEvent) : Prop where
  channel : e.channel_id = x.channel_id
  first : e ∉ w.set_aside
  second : x ∉ w.set_aside
  batches : ∀ b ∈ w.flushed, ¬ (e ∈ b.contents ∧ x ∈ b.contents)

/-- Events are pushed in the order in which they are received. -/
def Punctual (w : Watch) : Move → Prop
  | .push event => ∀ e ∈ w.harness.accepted, e.received_at ≤ event.received_at
  | _ => True

def PunctualMoves (w : Watch) (m : Move) (w' : Watch) : Prop := w.Punctual m ∧ Moves w m w'

/-- What comes to the front of a queue was received in order and no later than what is there, and no event of other batches overtook
it. -/
structure Timely (w : Watch) (m : Move) : Prop where
  returned : ∀ c, InOrder (w.queue.returned c m)
  ahead : ∀ c, ∀ x ∈ w.queue.returned c m, ∀ a ∈ w.queue.queues.listed c, x.received_at ≤ a.received_at
  overtaken : ∀ c, ∀ x ∈ w.queue.returned c m, ∀ b ∈ w.flushed, ∀ e ∈ b.contents, w.Apart e x → e.received_at ≤ x.received_at
  punctual : w.Punctual m

def TimelyMoves (w : Watch) (m : Move) (w' : Watch) : Prop := w.Timely m ∧ Moves w m w'

/-- Every queue is in order, after the batches that were flushed, which follow one another in order. -/
structure Fifo (w : Watch) : Prop where
  home : w.queue.AtHome
  known : ∀ x, w.harness.located x ≤ w.harness.accepted.count x
  flushed_known : ∀ b ∈ w.flushed, ∀ e ∈ b.contents, e ∈ w.harness.accepted
  cancelled : ∀ c, w.queue.interruptions c ⊆ w.set_aside
  queues : ∀ c, InOrder (w.queue.queues.listed c)
  behind : ∀ b ∈ w.flushed, ∀ e ∈ b.contents, ∀ c, ∀ x ∈ w.queue.queues.listed c, w.Apart e x → e.received_at ≤ x.received_at
  batches : w.flushed.Pairwise (fun b d => ∀ e ∈ b.contents, ∀ x ∈ d.contents, w.Apart e x → e.received_at ≤ x.received_at)

variable {w w' : Watch} {m : Move} {e x : QueuedEvent}

/-- Events that are apart were so before. -/
theorem Apart.of_move (hmove : w.move m = some w') (h : w'.Apart e x) : w.Apart e x := by
  obtain ⟨h', -, rfl⟩ := Option.map_eq_some_iff.1 hmove
  exact ⟨h.channel, fun he => h.first (List.mem_append_left _ he), fun hx => h.second (List.mem_append_left _ hx),
    fun b hb => h.batches b (List.mem_append_left _ hb)⟩

theorem queue_of_move (hmove : w.move m = some w') : w'.queue = w.queue.call m := by
  obtain ⟨h', hh, rfl⟩ := Option.map_eq_some_iff.1 hmove
  exact EventQueue.call_of_move hh

/-- What is in a queue was accepted. -/
theorem Fifo.accepted (h : w.Fifo) {c : Uuid} (hx : x ∈ w.queue.held c) : x ∈ w.harness.accepted := by
  have hc : x.channel_id = c := h.home c x hx
  have hpos : 0 < (w.harness.queue.held x.channel_id).count x := List.count_pos_iff.2 (hc ▸ hx)
  have hknown := h.known x
  refine List.count_pos_iff.1 ?_
  simp only [Harness.located, EventQueue.copies] at hknown
  omega

theorem Fifo.queued_accepted (h : w.Fifo) {c : Uuid} (hx : x ∈ w.queue.queues.listed c) : x ∈ w.harness.accepted :=
  h.accepted (List.mem_append_left _ (List.mem_append_left _ hx))

theorem Fifo.ordered (h : w.Fifo) (htimely : w.Timely m) (c : Uuid) : InOrder (w.queue.returned c m ++ w.queue.queues.listed c) :=
  List.pairwise_append.2 ⟨htimely.returned c, h.queues c, fun x hx a ha => htimely.ahead c x hx a ha⟩

/-- Every queue is in order after a timely call. -/
theorem Fifo.queue_ordered (h : w.Fifo) (htimely : w.Timely m) (c : Uuid) : InOrder ((w.queue.call m).queues.listed c) := by
  refine List.Pairwise.sublist (EventQueue.listed_call w.queue m c) ?_
  cases m with
  | push event =>
    refine List.pairwise_append.2 ⟨h.ordered htimely c, ?_, fun a ha b hb => ?_⟩
    · dsimp only [EventQueue.added]
      split
      · exact List.pairwise_singleton _ _
      · exact List.Pairwise.nil
    · have hb : b = event := by
        dsimp only [EventQueue.added] at hb
        split at hb
        · exact List.mem_singleton.1 hb
        · cases hb
      rw [hb]
      exact htimely.punctual a (h.queued_accepted ha)
  | _ =>
    dsimp only [EventQueue.added]
    rw [List.append_nil]
    exact h.ordered htimely c

/-- After a flush the queues are behind its batch. -/
theorem Fifo.behind_flushed (h : w.Fifo) {now : Instant} {walk : Walk} (htimely : w.Timely (.flush_next now walk)) {batch : FlushBatch}
    (hflush : (w.queue.flush_next now walk).2 = some batch) (he : e ∈ batch.contents)
    (hx : x ∈ (w.queue.flush_next now walk).1.queues.listed batch.channel_id) (hfresh : e ∉ w.set_aside) :
    e.received_at ≤ x.received_at := by
  obtain ⟨front, hfront, hsplit⟩ :=
    EventQueue.flush_next_takes h.home hflush he (fun hmem => hfresh (h.cancelled _ hmem))
  have hordered : InOrder ((w.queue.auto_expire now walk.deadlines).queues.listed batch.channel_id) :=
    (h.ordered htimely batch.channel_id).sublist (EventQueue.listed_auto_expire w.queue now walk.deadlines batch.channel_id)
  rw [hsplit] at hordered
  exact (List.pairwise_append.1 hordered).2.2 e hfront x hx

/-- What a flush takes was queued, or has come back to the front for it. -/
theorem Fifo.flush_taken (h : w.Fifo) {now : Instant} {walk : Walk} {batch : FlushBatch}
    (hflush : (w.queue.flush_next now walk).2 = some batch) (he : e ∈ batch.contents) (hfresh : e ∉ w.set_aside) :
    e ∈ w.queue.returned batch.channel_id (.flush_next now walk) ∨ e ∈ w.queue.queues.listed batch.channel_id := by
  obtain ⟨front, hfront, hsplit⟩ :=
    EventQueue.flush_next_takes h.home hflush he (fun hmem => hfresh (h.cancelled _ hmem))
  have hmem : e ∈ (w.queue.auto_expire now walk.deadlines).queues.listed batch.channel_id := by
    rw [hsplit]
    exact List.mem_append_left _ hfront
  exact List.mem_append.1 ((EventQueue.listed_auto_expire w.queue now walk.deadlines batch.channel_id).subset hmem)

theorem accepted_move {h h' : Harness} (hmove : h.move m = some h') : h.accepted ⊆ h'.accepted := by
  cases m with
  | push event =>
    cases hmove
    exact List.subset_append_left _ _
  | mark_complete channel_id now finished =>
    unfold Harness.move at hmove
    dsimp only at hmove
    split at hmove
    · exact (Harness.finish_spec hmove).2.1 ▸ List.Subset.refl _
    · cases hmove
  | requeue batch now jitter | requeue_preserve_timestamps batch | requeue_as_cancelled batch reason =>
    obtain ⟨h₁, hgive, rfl⟩ := Option.map_eq_some_iff.1 hmove
    exact (Harness.give_up_spec hgive).2.1 ▸ List.Subset.refl _
  | _ =>
    cases hmove
    exact List.Subset.refl _

theorem Fifo.flushes_accepted (h : w.Fifo) {b : FlushBatch} (hb : b ∈ w.flushes m) (he : e ∈ b.contents) : e ∈ w.harness.accepted := by
  cases m with
  | flush_next now walk =>
    have hflush : (w.queue.flush_next now walk).2 = some b := Option.mem_toList.1 hb
    have hcopies := (EventQueue.flush_next_balances h.home now walk).2 e
    have hknown := h.known e
    have hpos : 0 < b.contents.count e := List.count_pos_iff.2 he
    rw [hflush, Option.toList_some, List.flatMap_singleton] at hcopies
    refine List.count_pos_iff.1 ?_
    have hqueue : w.queue.copies e = w.harness.queue.copies e := rfl
    rw [Harness.located] at hknown
    omega
  | _ => cases hb

theorem cancels_subset (w : Watch) (m : Move) : EventQueue.cancels m ⊆ w.sets_aside m := by
  cases m with
  | mark_native_steer_pending channel_id event_id => exact List.nil_subset _
  | _ => exact List.Subset.refl _

/-- A flushed batch is ahead of what is in the queue of its channel after the call. -/
theorem Fifo.behind_move (h : w.Fifo) (htimely : w.Timely m) (hmove : w.move m = some w') (hhome : w'.queue.AtHome) {b : FlushBatch}
    (hb : b ∈ w.flushed ++ w.flushes m) (he : e ∈ b.contents) {c : Uuid} (hx : x ∈ w'.queue.queues.listed c) (hapart : w'.Apart e x) :
    e.received_at ≤ x.received_at := by
  have hbefore := hapart.of_move hmove
  have hchannel : x.channel_id = c := hhome c x (List.mem_append_left _ (List.mem_append_left _ hx))
  rw [queue_of_move hmove] at hx
  rcases List.mem_append.1 hb with hearlier | hnow
  · rcases List.mem_append.1 ((EventQueue.listed_call w.queue m c).subset hx) with hold | hadded
    · rcases List.mem_append.1 hold with hreturned | hqueued
      · exact htimely.overtaken c x hreturned b hearlier e he hbefore
      · exact h.behind b hearlier e he c x hqueued hbefore
    · cases m with
      | push event =>
        have hevent : x = event := by
          dsimp only [EventQueue.added] at hadded
          split at hadded
          · exact List.mem_singleton.1 hadded
          · cases hadded
        rw [hevent]
        exact htimely.punctual e (h.flushed_known b hearlier e he)
      | _ => cases hadded
  · cases m with
    | flush_next now walk =>
      have hbatch : c = b.channel_id := hchannel.symm.trans (hapart.channel.symm.trans (Harness.contents_home b e he))
      rw [hbatch] at hx
      exact h.behind_flushed htimely (Option.mem_toList.1 hnow) he hx hbefore.first
    | _ => cases hnow

theorem Fifo.move (h : w.Fifo) (htimely : w.Timely m) (hmove : w.move m = some w') : w'.Fifo := by
  have hqueue := queue_of_move hmove
  obtain ⟨h', hh, heq⟩ := Option.map_eq_some_iff.1 hmove
  obtain ⟨hhome, hbalanced⟩ := Harness.move_balances h.home hh
  have hhome' : w'.queue.AtHome := heq ▸ hhome
  have hflushed : w'.flushed = w.flushed ++ w.flushes m := heq ▸ rfl
  refine ⟨hhome', fun x => ?_, fun b hb e he => ?_, fun c => ?_, fun c => ?_, fun b hb e he c x hx hapart => ?_, ?_⟩
  · have hx := hbalanced x
    have hknown := h.known x
    rw [← heq]
    dsimp only
    omega
  · have haccepted : w.harness.accepted ⊆ w'.harness.accepted := heq ▸ accepted_move hh
    rw [hflushed] at hb
    rcases List.mem_append.1 hb with hb | hb
    · exact haccepted (h.flushed_known b hb e he)
    · exact haccepted (h.flushes_accepted hb he)
  · have haside : w'.set_aside = w.set_aside ++ w.sets_aside m := heq ▸ rfl
    rw [hqueue, haside]
    intro x hx
    rcases List.mem_append.1 (EventQueue.interruptions_call w.queue m c hx) with hold | hnew
    · exact List.mem_append_left _ (h.cancelled c hold)
    · exact List.mem_append_right _ (cancels_subset w m hnew)
  · rw [hqueue]
    exact h.queue_ordered htimely c
  · rw [hflushed] at hb
    exact h.behind_move htimely hmove hhome' hb he hx hapart
  · rw [hflushed]
    refine List.pairwise_append.2 ⟨h.batches.imp (fun hbd e he x hx hapart => hbd e he x hx (hapart.of_move hmove)), ?_,
      fun b hb d hd e he x hx hapart => ?_⟩
    · cases m with
      | flush_next now walk =>
        dsimp only [flushes]
        cases (w.queue.flush_next now walk).2 with
        | none => exact List.Pairwise.nil
        | some batch => exact List.pairwise_singleton _ _
      | _ => exact List.Pairwise.nil
    · have hbefore := hapart.of_move hmove
      cases m with
      | flush_next now walk =>
        rcases h.flush_taken (Option.mem_toList.1 hd) hx hbefore.second with hreturned | hqueued
        · exact htimely.overtaken _ x hreturned b hb e he hbefore
        · exact h.behind b hb e he _ x hqueued hbefore
      | _ => cases hd

theorem fifo_start (dedup_mode : DedupMode) (max_turn_duration_secs : Nat) : (start dedup_mode max_turn_duration_secs).Fifo := by
  have hstart := Harness.accounted_iff.1 (Harness.start_accounted dedup_mode max_turn_duration_secs)
  refine ⟨hstart.1, fun x => (hstart.2 x).ge, fun b hb => ?_, fun c => ?_, fun c => List.Pairwise.nil, fun b hb => ?_, List.Pairwise.nil⟩
  · cases hb
  · exact List.nil_subset _
  · cases hb

/-! ## The oldest event first -/

/-- Where a queue is ready a flush serves one that holds the event received first. -/
theorem Fifo.serves_oldest (h : w.Fifo) {now : Instant} {walk : Walk} (htimely : w.Timely (.flush_next now walk))
    (hwalk : EventQueue.Complete walk w.queue now) {batch : FlushBatch} (hflush : (w.queue.flush_next now walk).2 = some batch)
    (hready : ∃ c, ((w.queue.slot c).at_flush now).ready now = true) :
    ∃ e ∈ ((w.queue.slot batch.channel_id).at_flush now).listed,
      ∀ c, ((w.queue.slot c).at_flush now).ready now = true → ∀ x ∈ ((w.queue.slot c).at_flush now).listed,
        e.received_at ≤ x.received_at := by
  have hslot : ∀ c, (w.queue.auto_expire now walk.deadlines).slot c = (w.queue.slot c).at_flush now :=
    EventQueue.slot_auto_expire hwalk.deadlines
  have hwalked := hwalk.ready
  have hordered : ∀ c, InOrder ((w.queue.auto_expire now walk.deadlines).slot c).listed := fun c =>
    (h.ordered htimely c).sublist (EventQueue.listed_auto_expire w.queue now walk.deadlines c)
  simp only [← hslot] at hready ⊢
  rw [EventQueue.flush_next] at hflush
  dsimp only at hflush
  generalize w.queue.auto_expire now walk.deadlines = expired at hready hordered hwalked hflush ⊢
  obtain ⟨c₀, hc₀⟩ := hready
  cases holdest : expired.oldest now walk.queues with
  | none =>
    have hsome := EventQueue.oldest_isSome_iff.2 ⟨c₀, hwalked c₀ hc₀, hc₀⟩
    rw [holdest] at hsome
    cases hsome
  | some id =>
    rw [holdest] at hflush
    cases hflush
    obtain ⟨⟨found, received_at⟩, hmin, rfl⟩ := Option.map_eq_some_iff.1 holdest
    -- the least of the heads is that of the channel that is served
    obtain ⟨id, -, hfront⟩ := List.mem_filterMap.1 (List.argmin_mem hmin)
    obtain ⟨queue, hqueue, hfront⟩ := Option.bind_eq_some_iff.1 hfront
    obtain ⟨front, hhead, hfree⟩ := Option.bind_eq_some_iff.1 hfront
    split at hfree
    · cases hfree
      have hlisted : (expired.slot found).listed = queue := by
        rw [EventQueue.Slot.listed, EventQueue.slot, hqueue, Option.getD_some]
      refine ⟨front, ?_, fun c hc x hx => ?_⟩
      · change front ∈ (expired.slot found).listed
        rw [hlisted]
        exact List.mem_of_mem_head? hhead
      · obtain ⟨first, rest, hlist⟩ := List.exists_cons_of_ne_nil (List.ne_nil_of_mem hx)
        have hfirst : first.received_at ≤ x.received_at := by
          have hc' := hordered c
          rw [hlist] at hc' hx
          rcases List.mem_cons.1 hx with rfl | hx
          · exact Nat.le_refl _
          · exact (List.pairwise_cons.1 hc').1 x hx
        refine Nat.le_trans ?_ hfirst
        have hqueued : expired.queues c = some (first :: rest) := by
          have hlist : (expired.queues c).getD [] = first :: rest := hlist
          cases hq : expired.queues c with
          | none =>
            rw [hq] at hlist
            cases hlist
          | some l =>
            rw [hq, Option.getD_some] at hlist
            rw [hlist]
        have hcready : expired.ready now c = true := by
          have hc' := hc
          rw [EventQueue.Slot.ready, Bool.and_assoc] at hc'
          exact (Bool.and_eq_true_iff.1 hc').2
        refine List.le_of_mem_argmin (a := (c, first.received_at)) (f := Prod.snd) (List.mem_filterMap.2 ⟨c, hwalked c hc, ?_⟩) hmin
        simp only [hqueued, Option.bind_some, List.head?_cons, hcready, if_true]
    · cases hfree

/-- While what comes back to the front of a queue is in its order of receipt there, a flush serves the oldest event first, and events
that are never flushed together leave their queue in the order in which they were received. -/
theorem oldest_first {dedup_mode : DedupMode} {max_turn_duration_secs : Nat} {moves : List Move}
    (hrun : Run TimelyMoves (start dedup_mode max_turn_duration_secs) moves w) :
    (∀ now walk batch, EventQueue.Complete walk w.queue now → w.Timely (.flush_next now walk) →
      (w.queue.flush_next now walk).2 = some batch → (∃ c, ((w.queue.slot c).at_flush now).ready now = true) →
      ∃ e ∈ ((w.queue.slot batch.channel_id).at_flush now).listed,
        ∀ c, ((w.queue.slot c).at_flush now).ready now = true → ∀ x ∈ ((w.queue.slot c).at_flush now).listed,
          e.received_at ≤ x.received_at) ∧
    w.flushed.Pairwise (fun b d => ∀ e ∈ b.contents, ∀ x ∈ d.contents, w.Apart e x → e.received_at ≤ x.received_at) := by
  have hfifo : w.Fifo := hrun.inv (fun _ _ _ _ h hstep => h.move hstep.1 hstep.2) (fifo_start dedup_mode max_turn_duration_secs)
  exact ⟨fun now walk batch hwalk htimely hflush hready => hfifo.serves_oldest htimely hwalk hflush hready, hfifo.batches⟩

theorem timely_push {event : QueuedEvent} (h : ∀ e ∈ w.harness.accepted, e.received_at ≤ event.received_at) : w.Timely (.push event) := by
  refine ⟨fun c => List.Pairwise.nil, fun c x hx => ?_, fun c x hx => ?_, h⟩
  · cases hx
  · cases hx

/-- Where no deadline has passed a flush finds nothing come back. -/
theorem timely_flush {now : Instant} {walk : Walk} (h : ∀ c, (w.queue.slot c).expired now = false) : w.Timely (.flush_next now walk) := by
  have hreturned : ∀ c, w.queue.returned c (.flush_next now walk) = [] := by
    intro c
    rw [EventQueue.returned, h c]
    exact if_neg (by simp)
  refine ⟨fun c => ?_, fun c x hx => ?_, fun c x hx => ?_, trivial⟩
  · rw [hreturned]
    exact List.Pairwise.nil
  · rw [hreturned] at hx
    cases hx
  · rw [hreturned] at hx
    cases hx

def request (channel_id : Uuid) (id : String) (created_at : Nat) (received_at : Instant) : QueuedEvent :=
  ⟨channel_id, ⟨id, created_at⟩, received_at, "mention"⟩

/-- The harness after one request in each of two channels. -/
def two_requests : Watch :=
  { harness := { queue := (((EventQueue.start .Queue 7200).push (request 7 "early" 20 10)).1.push (request 8 "late" 10 15)).1
                 accepted := [request 7 "early" 20 10, request 8 "late" 10 15] } }

theorem oldest_first_two_requests :
    ∃ e ∈ ((two_requests.queue.slot 7).at_flush 16).listed, ∀ c, ((two_requests.queue.slot c).at_flush 16).ready 16 = true →
      ∀ x ∈ ((two_requests.queue.slot c).at_flush 16).listed, e.received_at ≤ x.received_at := by
  have hrun : Run TimelyMoves (start .Queue 7200) [.push (request 7 "early" 20 10), .push (request 8 "late" 10 15)] two_requests := by
    refine .cons ⟨timely_push (fun e he => ?_), rfl⟩ (.cons ⟨timely_push (fun e he => ?_), rfl⟩ .nil)
    · cases he
    · cases List.mem_singleton.1 he
      decide
  have hqueues : (two_requests.queue.auto_expire 16 []).queues =
      (Map.empty.insert 7 [request 7 "early" 20 10]).insert 8 [request 8 "late" 10 15] := rfl
  have hcomplete : EventQueue.Complete ⟨[], [7, 8], []⟩ two_requests.queue 16 := by
    refine ⟨fun c hc => ?_, fun c hc => ?_, fun c hc => ?_⟩
    · cases hc
    · rw [hqueues] at hc
      by_cases h8 : c = 8
      · exact h8 ▸ List.mem_cons_of_mem _ List.mem_cons_self
      by_cases h7 : c = 7
      · exact h7 ▸ List.mem_cons_self
      rw [Map.insert_ne _ _ _ _ h8, Map.insert_ne _ _ _ _ h7] at hc
      cases hc
    · cases hc
  have hflush : (two_requests.queue.flush_next 16 ⟨[], [7, 8], []⟩).2 = some ⟨7, [(request 7 "early" 20 10).batched], [], none⟩ := by
    decide +kernel
  exact (oldest_first hrun).1 16 ⟨[], [7, 8], []⟩ _ hcomplete (timely_flush (fun c => rfl)) hflush ⟨7, by decide +kernel⟩

/-! ## A batch that comes back sorted -/

/-- Of the two requests of the first channel the one received last was created first. -/
def replayed_turn : FlushBatch := ⟨7, [(request 7 "older" 10 20).batched, (request 7 "newer" 20 10).batched], [], none⟩

/-- No agent is free for a batch of two replayed events, between which one of another channel came in. -/
def replay : List Move :=
  [.push (request 7 "newer" 20 10), .push (request 8 "other" 15 15), .push (request 7 "older" 10 20), .flush_next 21 ⟨[], [7, 8], []⟩,
    .requeue_preserve_timestamps replayed_turn, .mark_complete 7 22 []]

/-- The queue after these calls. -/
def replayed : EventQueue := ((((((EventQueue.start .Queue 7200).push (request 7 "newer" 20 10)).1.push (request 8 "other" 15 15)).1.push
  (request 7 "older" 10 20)).1.flush_next 21 ⟨[], [7, 8], []⟩).1.requeue_preserve_timestamps replayed_turn).mark_complete 7 22

/-- No key but those of the two channels. -/
theorem replayed_complete : EventQueue.Complete ⟨[7, 8], [7, 8], [7, 8]⟩ replayed 23 := by
  have hdeadlines : replayed.in_flight_deadlines = (Map.empty.insert 7 (21 + from_secs 7300)).remove 7 := rfl
  have hqueues : (replayed.auto_expire 23 [7, 8]).queues = ((((Map.empty.insert 7 [request 7 "newer" 20 10]).insert 8
      [request 8 "other" 15 15]).insert 7 [request 7 "newer" 20 10, request 7 "older" 10 20]).remove 7).insert 7
      [request 7 "older" 10 20, request 7 "newer" 20 10] := rfl
  have hcancelled : (replayed.auto_expire 23 [7, 8]).cancelled_batches = Map.empty.remove 7 := rfl
  refine ⟨fun c hc => ?_, fun c hc => ?_, fun c hc => ?_⟩
  · rw [hdeadlines, Map.remove_apply] at hc
    split at hc
    · cases hc
    · next hne =>
      rw [Map.insert_ne _ _ _ _ hne] at hc
      cases hc
  · rw [hqueues] at hc
    by_cases h7 : c = 7
    · exact h7 ▸ List.mem_cons_self
    by_cases h8 : c = 8
    · exact h8 ▸ List.mem_cons_of_mem _ List.mem_cons_self
    rw [Map.insert_ne _ _ _ _ h7, Map.remove_ne _ _ _ h7, Map.insert_ne _ _ _ _ h7, Map.insert_ne _ _ _ _ h8,
      Map.insert_ne _ _ _ _ h7] at hc
    cases hc
  · rw [hcancelled, Map.remove_apply] at hc
    split at hc <;> cases hc

instance (w : Watch) (m : Move) : Decidable (w.Punctual m) :=
  match m with
  | .push event => inferInstanceAs (Decidable (∀ e ∈ w.harness.accepted, e.received_at ≤ event.received_at))
  | .flush_next .. | .has_flushable_work .. | .extend_in_flight_deadline .. | .mark_complete .. | .requeue .. | .requeue_preserve_timestamps _
  | .requeue_as_cancelled .. | .mark_native_steer_pending .. | .release_native_steer .. | .remove_event .. | .drain_channel _
  | .compact_expired_state _ => isTrue trivial

def punctual_move (w : Watch) (m : Move) : Option Watch := if w.Punctual m then w.move m else none

theorem run_of_punctual {w t : Watch} {moves : List Move} (h : moves.foldlM punctual_move w = some t) : Run PunctualMoves w moves t := by
  refine (Run.of_foldlM h).mono (fun s m t hstep => ?_)
  unfold punctual_move at hstep
  split at hstep
  · next hpunctual => exact ⟨hpunctual, hstep⟩
  · cases hstep

theorem replayed_turn_served_late : ¬ ∀ (moves : List Move) (w : Watch), Run PunctualMoves (start .Queue 7200) moves w →
    ∀ now walk batch, EventQueue.Complete walk w.queue now → (w.queue.flush_next now walk).2 = some batch →
      (∃ c, ((w.queue.slot c).at_flush now).ready now = true) →
      ∃ e ∈ ((w.queue.slot batch.channel_id).at_flush now).listed,
        ∀ c, ((w.queue.slot c).at_flush now).ready now = true → ∀ x ∈ ((w.queue.slot c).at_flush now).listed,
          e.received_at ≤ x.received_at := by
  intro hall
  have hsome : (replay.foldlM punctual_move (start .Queue 7200)).isSome = true := by decide +kernel
  have hqueue : ((replay.foldlM punctual_move (start .Queue 7200)).get hsome).queue = replayed := rfl
  have hflush : (replayed.flush_next 23 ⟨[7, 8], [7, 8], [7, 8]⟩).2 = some ⟨8, [(request 8 "other" 15 15).batched], [], none⟩ := by
    decide +kernel
  have hserved := hall replay _ (run_of_punctual (Option.some_get hsome).symm) 23 ⟨[7, 8], [7, 8], [7, 8]⟩
  rw [hqueue] at hserved
  obtain ⟨e, he, hleast⟩ := hserved _ replayed_complete hflush ⟨7, by decide +kernel⟩
  -- the event of the other channel came in after the first of the replayed ones
  have hlisted : ((replayed.slot 8).at_flush 23).listed = [request 8 "other" 15 15] := by decide +kernel
  have he : e ∈ ((replayed.slot 8).at_flush 23).listed := he
  rw [hlisted, List.mem_singleton] at he
  have hlate := hleast 7 (by decide +kernel) (request 7 "newer" 20 10) (by decide +kernel)
  rw [he] at hlate
  exact absurd hlate (by decide)

end Watch
end Ambush.Acp

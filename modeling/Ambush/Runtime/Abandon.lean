import Ambush.Runtime.Decisions
/-!
# Abandoned claims

A claim saves the state of its hold and `abandon_decision` puts it back. The bridge and the
console go on reporting while a hold is being decided: what they report is written to the
record, but a report moves the state only out of `created` and `notified`, so the moves of
those reports are not made later either. `abandoned_but_for_the_state` says that nothing
else is lost or left behind.
-/
open Lib

namespace Ambush.Runtime

/-- What the bridge and the console report of a hold. -/
inductive Callback where
  | mark_case_channel (case_channel : String)
  | mark_notified (at_ms : Int) (notice_event_id : String) (card_event_id : Option String)
  | mark_armed

def Callback.run (persists : HeldAction → Bool) (holds : Holds) (hold_id : String) : Callback → Holds
  | .mark_case_channel case_channel => (Runtime.mark_case_channel persists holds hold_id case_channel).1
  | .mark_notified at_ms notice_event_id card_event_id =>
    (Runtime.mark_notified persists holds hold_id at_ms notice_event_id card_event_id).1
  | .mark_armed => (Runtime.mark_armed persists holds hold_id).1

/-- Reports in order, each with what comes of its write. -/
def runAll (hold_id : String) (holds : Holds) (callbacks : List ((HeldAction → Bool) × Callback)) : Holds :=
  callbacks.foldl (fun holds c => c.2.run c.1 holds hold_id) holds

/-! ## Reports on one record -/

/-- What a report makes of the record. -/
def Callback.apply : Callback → HeldAction → HeldAction
  | .mark_case_channel case_channel, hold => { hold with case_channel := some case_channel }
  | .mark_notified at_ms notice_event_id card_event_id, hold => { hold with
      notified_at_ms := some at_ms
      notice_event_id := some notice_event_id
      card_event_id
      state := if hold.state = .Created then .Notified else hold.state }
  | .mark_armed, hold => { hold with state := if hold.state = .Notified then .Armed else hold.state }

theorem get_update {holds : Holds} {hold_id : String} {apply : HeldAction → HeldAction} {hold : HeldAction}
    (hid : ∀ h, (apply h).hold_id = h.hold_id) (h : holds.get hold_id = some hold) :
    (holds.update hold_id apply).get hold_id = some (apply hold) := by
  have hkey : ∀ x, (if x.hold_id = hold_id then apply x else x).hold_id = x.hold_id := by
    intro x
    split
    · exact hid x
    · rfl
  have hsame : (fun x : HeldAction => x.hold_id == hold_id) ∘ (fun x => if x.hold_id = hold_id then apply x else x) =
      fun x => x.hold_id == hold_id := funext fun x => congrArg (· == hold_id) (hkey x)
  unfold Holds.get Holds.update lookupBy updateBy
  rw [List.find?_map, hsame]
  exact Option.map_eq_some_iff.2 ⟨hold, h, if_pos (mem_of_lookupBy h).2⟩

theorem mutate_get {persists : HeldAction → Bool} {holds : Holds} {hold_id : String} {apply : HeldAction → HeldAction}
    {hold : HeldAction} (hid : ∀ h, (apply h).hold_id = h.hold_id) (h : holds.get hold_id = some hold) :
    (mutate persists holds hold_id apply).1.get hold_id = some (apply hold) := by
  unfold mutate
  rw [h]
  exact get_update hid h

theorem Callback.run_get {persists : HeldAction → Bool} {holds : Holds} {hold_id : String} {hold : HeldAction}
    (c : Callback) (h : holds.get hold_id = some hold) : (c.run persists holds hold_id).get hold_id = some (c.apply hold) := by
  cases c with
  | mark_case_channel case_channel => exact mutate_get (fun _ => rfl) h
  | mark_notified at_ms notice_event_id card_event_id => exact mutate_get (fun _ => rfl) h
  | mark_armed => exact mutate_get (fun _ => rfl) h

theorem runAll_get {holds : Holds} {hold_id : String} (callbacks : List ((HeldAction → Bool) × Callback)) {hold : HeldAction}
    (h : holds.get hold_id = some hold) :
    (runAll hold_id holds callbacks).get hold_id = some (callbacks.foldl (fun hold c => c.2.apply hold) hold) := by
  induction callbacks generalizing holds hold with
  | nil => exact h
  | cons c callbacks ih => exact ih (c.2.run_get h)

/-! ## Claims on one record -/

/-- A record that carries nothing of a claim. -/
structure HeldAction.Unclaimed (hold : HeldAction) : Prop where
  prior_state : hold.prior_state = none
  intent : hold.deciding_intent_event_id = none
  instant : hold.cas_instant_ms = none

/-- The record with a claim on it that was made in the given state. -/
def HeldAction.claimed (hold : HeldAction) (prior : HoldState) (intent_event_id : String) (cas_instant_ms : Int) : HeldAction :=
  { hold with
    prior_state := some prior
    state := .Deciding
    deciding_intent_event_id := some intent_event_id
    cas_instant_ms := some cas_instant_ms }

theorem begin_ok {hold : HeldAction} {cas_instant_ms : Int} (h : hold.assert_decidable cas_instant_ms = .ok ())
    (intent_event_id : String) :
    transitions.begin hold intent_event_id cas_instant_ms = some (hold.claimed hold.state intent_event_id cas_instant_ms) := by
  unfold transitions.begin
  rw [h]
  rfl

/-- A report on a claimed record is the report on the record, but for the state. -/
theorem Callback.apply_claimed (c : Callback) (hold : HeldAction) (prior : HoldState) (intent_event_id : String)
    (cas_instant_ms : Int) : c.apply (hold.claimed prior intent_event_id cas_instant_ms) =
      (c.apply hold).claimed prior intent_event_id cas_instant_ms := by
  cases c <;> rfl

theorem foldl_apply_claimed (callbacks : List ((HeldAction → Bool) × Callback)) (hold : HeldAction) (prior : HoldState)
    (intent_event_id : String) (cas_instant_ms : Int) :
    callbacks.foldl (fun hold c => c.2.apply hold) (hold.claimed prior intent_event_id cas_instant_ms) =
      (callbacks.foldl (fun hold c => c.2.apply hold) hold).claimed prior intent_event_id cas_instant_ms := by
  induction callbacks generalizing hold with
  | nil => rfl
  | cons c callbacks ih =>
    rw [List.foldl_cons, List.foldl_cons, Callback.apply_claimed]
    exact ih _

theorem Callback.apply_unclaimed (c : Callback) {hold : HeldAction} (h : hold.Unclaimed) : (c.apply hold).Unclaimed := by
  cases c <;> exact ⟨h.prior_state, h.intent, h.instant⟩

theorem foldl_apply_unclaimed (callbacks : List ((HeldAction → Bool) × Callback)) {hold : HeldAction} (h : hold.Unclaimed) :
    (callbacks.foldl (fun hold c => c.2.apply hold) hold).Unclaimed := by
  induction callbacks generalizing hold with
  | nil => exact h
  | cons c callbacks ih => exact ih (c.2.apply_unclaimed h)

theorem abandon_claimed {hold : HeldAction} (h : hold.Unclaimed) (prior : HoldState) (intent_event_id : String)
    (cas_instant_ms : Int) :
    (transitions.abandon (hold.claimed prior intent_event_id cas_instant_ms) intent_event_id).1 = { hold with state := prior } := by
  obtain ⟨hprior, hintent, hinstant⟩ := h
  unfold transitions.abandon
  rw [if_neg (by simp [HeldAction.claimed])]
  obtain ⟨⟩ := hold
  cases hprior
  cases hintent
  cases hinstant
  rfl

/-! ## Open holds carry no claim -/

def HeldAction.Tidy (hold : HeldAction) : Prop := hold.state.is_open = true → hold.Unclaimed

theorem tidy_of_not_open {hold : HeldAction} (h : hold.state.is_open = false) : hold.Tidy :=
  fun hopen => nomatch h.symm.trans hopen

theorem Callback.apply_tidy (c : Callback) {hold : HeldAction} (h : hold.Tidy) : (c.apply hold).Tidy := by
  intro hopen
  refine c.apply_unclaimed (h ?_)
  cases c with
  | mark_case_channel case_channel => exact hopen
  | mark_notified at_ms notice_event_id card_event_id =>
    cases hs : hold.state <;> simp_all [Callback.apply, HoldState.is_open]
  | mark_armed => cases hs : hold.state <;> simp_all [Callback.apply, HoldState.is_open]

theorem begin_tidy {hold hold' : HeldAction} {intent_event_id : String} {cas_instant_ms : Int}
    (h : transitions.begin hold intent_event_id cas_instant_ms = some hold') : hold'.Tidy := by
  unfold transitions.begin at h
  split at h
  · cases h
  · cases h
    exact tidy_of_not_open rfl

theorem abandon_tidy (intent_event_id : String) {hold : HeldAction} (h : hold.Tidy) :
    (transitions.abandon hold intent_event_id).1.Tidy := by
  unfold transitions.abandon
  split
  · exact h
  · exact fun _ => ⟨rfl, rfl, rfl⟩

theorem complete_tidy (decision : HoldDecisionRecord) (resolution : Resolution) (hold : HeldAction) :
    (transitions.complete hold decision resolution.state).Tidy :=
  tidy_of_not_open (by cases resolution <;> rfl)

theorem expire_tidy (now_ms : Int) {hold : HeldAction} (h : hold.Tidy) : (transitions.expire hold now_ms).1.Tidy := by
  unfold transitions.expire
  split
  · exact tidy_of_not_open rfl
  · exact h

theorem fail_stalled_tidy (now_ms : Int) (stall_ms : Nat) {hold : HeldAction} (h : hold.Tidy) :
    (transitions.fail_stalled hold now_ms stall_ms).1.Tidy := by
  unfold transitions.fail_stalled
  split
  · exact tidy_of_not_open rfl
  · exact h

section All
variable {P : HeldAction → Prop} {holds : Holds}

theorem update_all {hold_id : String} {apply : HeldAction → HeldAction} (happly : ∀ h, P h → P (apply h))
    (h : ∀ x ∈ holds, P x) : ∀ x ∈ holds.update hold_id apply, P x := by
  intro x hx
  obtain ⟨y, hy, rfl⟩ := List.mem_map.1 hx
  split
  · exact happly y (h y hy)
  · exact h y hy

theorem mutate_all {persists : HeldAction → Bool} {hold_id : String} {apply : HeldAction → HeldAction}
    (happly : ∀ h, P h → P (apply h)) (h : ∀ x ∈ holds, P x) : ∀ x ∈ (mutate persists holds hold_id apply).1, P x := by
  unfold mutate
  split
  · exact h
  · exact update_all happly h

theorem sweep_all {persists : HeldAction → Bool} {apply : HeldAction → HeldAction × Bool} (happly : ∀ h, P h → P (apply h).1)
    (h : ∀ x ∈ holds, P x) : ∀ x ∈ (sweep persists apply holds).1, P x := by
  induction holds with
  | nil => exact h
  | cons y holds ih =>
    obtain ⟨hy, hrest⟩ := List.forall_mem_cons.1 h
    have htail := ih hrest
    unfold sweep
    split
    · split
      · exact List.forall_mem_cons.2 ⟨happly y hy, htail⟩
      · exact List.forall_mem_cons.2 ⟨happly y hy, hrest⟩
    · exact List.forall_mem_cons.2 ⟨hy, htail⟩

theorem create_all {persists : HeldAction → Bool} {hold : HeldAction} (hnew : P hold) (h : ∀ x ∈ holds, P x) :
    ∀ x ∈ (create persists holds hold).1, P x := by
  unfold create
  split
  · exact h
  · split
    · intro x hx
      rcases mem_insertBy.1 hx with rfl | hx
      · exact hnew
      · exact h x hx
    · exact h

end All

theorem begin_decision_tidy {persists : HeldAction → Bool} {holds : Holds} {hold_id intent_event_id : String}
    {cas_instant_ms : Int} (h : ∀ x ∈ holds, x.Tidy) :
    ∀ x ∈ (begin_decision persists holds hold_id intent_event_id cas_instant_ms).1, x.Tidy := by
  unfold begin_decision
  split
  · exact h
  · split
    · exact h
    · refine update_all (fun y hy => ?_) h
      cases hb : transitions.begin y intent_event_id cas_instant_ms with
      | none => exact hy
      | some z => exact begin_tidy hb

theorem abandon_decision_tidy {persists : HeldAction → Bool} {holds : Holds} {hold_id intent_event_id : String}
    (h : ∀ x ∈ holds, x.Tidy) : ∀ x ∈ (abandon_decision persists holds hold_id intent_event_id).1, x.Tidy := by
  unfold abandon_decision
  split
  · exact h
  · exact update_all (fun y => abandon_tidy intent_event_id) h

theorem step_tidy {desk desk' : Desk} {call : Call} (hstep : Step desk call desk') (h : ∀ x ∈ desk.holds, x.Tidy) :
    ∀ x ∈ desk'.holds, x.Tidy := by
  obtain ⟨persists, op⟩ := call
  unfold Step step at hstep
  cases op with
  | create hold_id held_at_ms expires_at_ms =>
    obtain rfl := Option.some.inj hstep
    exact create_all (fun _ => ⟨rfl, rfl, rfl⟩) h
  | mark_case_channel hold_id case_channel =>
    obtain rfl := Option.some.inj hstep
    exact mutate_all (fun y => (Callback.mark_case_channel case_channel).apply_tidy) h
  | mark_notified hold_id at_ms notice_event_id card_event_id =>
    obtain rfl := Option.some.inj hstep
    exact mutate_all (fun y => (Callback.mark_notified at_ms notice_event_id card_event_id).apply_tidy) h
  | mark_armed hold_id =>
    obtain rfl := Option.some.inj hstep
    exact mutate_all (fun y => Callback.mark_armed.apply_tidy) h
  | begin hold_id intent_event_id cas_instant_ms =>
    have hbegin : ∀ x ∈ (begin_decision persists desk.holds hold_id intent_event_id cas_instant_ms).1, x.Tidy :=
      begin_decision_tidy h
    dsimp only at hstep
    split at hstep <;> (next heq => obtain rfl := Option.some.inj hstep; rw [heq] at hbegin; exact hbegin)
  | abandon_decision hold_id intent_event_id =>
    obtain rfl := Option.some.inj hstep
    exact abandon_decision_tidy h
  | drop claim =>
    dsimp only at hstep
    split at hstep
    · obtain rfl := Option.some.inj hstep
      exact abandon_decision_tidy h
    · cases hstep
  | complete claim decision resolution =>
    dsimp only at hstep
    split at hstep
    · obtain rfl := Option.some.inj hstep
      exact mutate_all (fun y _ => complete_tidy decision resolution y) h
    · cases hstep
  | expire_due now_ms =>
    obtain rfl := Option.some.inj hstep
    exact sweep_all (fun y => expire_tidy now_ms) h
  | fail_stalled_decisions now_ms stall_ms =>
    obtain rfl := Option.some.inj hstep
    exact sweep_all (fun y => fail_stalled_tidy now_ms stall_ms) h

theorem open_of_decidable {hold : HeldAction} {now_ms : Int} (h : hold.assert_decidable now_ms = .ok ()) :
    hold.state.is_open = true := by
  unfold HeldAction.assert_decidable at h
  cases hs : hold.state <;> simp_all [HoldState.is_open, HoldState.is_terminal]

/-! ## The claim and its end -/

/-- A claim that is made and abandoned leaves the record as the reports between alone would
have left it, in the state in which it was claimed. -/
theorem abandoned_but_for_the_state {desk : Desk} {calls : List Call} (hrun : Run Step {} calls desk) {hold_id : String}
    {hold : HeldAction} (hget : desk.holds.get hold_id = some hold) {cas_instant_ms : Int}
    (hdecidable : hold.assert_decidable cas_instant_ms = .ok ()) (intent_event_id : String)
    (persists persists' : HeldAction → Bool) (callbacks : List ((HeldAction → Bool) × Callback)) :
    (abandon_decision persists' (runAll hold_id (begin_decision persists desk.holds hold_id intent_event_id cas_instant_ms).1
        callbacks) hold_id intent_event_id).1.get hold_id =
      ((runAll hold_id desk.holds callbacks).get hold_id).map ({ · with state := hold.state }) := by
  have htidy := hrun.inv (I := fun desk => ∀ x ∈ desk.holds, x.Tidy) (fun _ _ _ _ hi hstep => step_tidy hstep hi)
    (fun x hx => nomatch hx)
  have hun : hold.Unclaimed := htidy hold (mem_of_lookupBy hget).1 (open_of_decidable hdecidable)
  have hbegin := begin_ok hdecidable intent_event_id
  have hclaimed : (begin_decision persists desk.holds hold_id intent_event_id cas_instant_ms).1.get hold_id =
      some (hold.claimed hold.state intent_event_id cas_instant_ms) := by
    unfold begin_decision
    rw [hget]
    dsimp only
    rw [hbegin]
    refine (get_update (fun y => ?_) hget).trans ?_
    · cases hb : transitions.begin y intent_event_id cas_instant_ms with
      | none => rfl
      | some z =>
        unfold transitions.begin at hb
        split at hb <;> cases hb
        rfl
    · rw [hbegin]
      rfl
  have hreports := runAll_get callbacks hclaimed
  rw [foldl_apply_claimed] at hreports
  have habandon : ∀ y, (transitions.abandon y intent_event_id).1.hold_id = y.hold_id := by
    intro y
    unfold transitions.abandon
    split <;> rfl
  unfold abandon_decision
  rw [hreports]
  dsimp only
  rw [get_update habandon hreports, abandon_claimed (foldl_apply_unclaimed callbacks hun), runAll_get callbacks hget]
  rfl

/-- A hold that was just created. -/
def freshDesk : Desk := ⟨[.new "h" 0 100], []⟩

theorem freshDesk_reached : Run Step {} [(fun _ => true, .create "h" 0 100)] freshDesk := .single rfl

/-- The bridge reports the notice while the hold is being decided. -/
def noticed : List ((HeldAction → Bool) × Callback) := [(fun _ => true, .mark_notified 5 "n" none)]

theorem abandoned_but_for_the_state_noticed :
    (HeldAction.new "h" 0 100).assert_decidable 1 = .ok () ∧
      (abandon_decision (fun _ => true) (runAll "h" (begin_decision (fun _ => true) freshDesk.holds "h" "i" 1).1 noticed)
        "h" "i").1.get "h" = ((runAll "h" freshDesk.holds noticed).get "h").map ({ · with state := .Created }) := by
  have hget : freshDesk.holds.get "h" = some (.new "h" 0 100) := by decide
  have hdecidable : (HeldAction.new "h" 0 100).assert_decidable 1 = .ok () := by rfl
  exact ⟨hdecidable, abandoned_but_for_the_state freshDesk_reached hget hdecidable "i" (fun _ => true) (fun _ => true) noticed⟩

/-- The notice was accepted, and the hold is back in `created`. -/
theorem abandoned_unnoticed : ∃ desk calls, Run Step {} calls desk ∧
    (desk.holds.get "h").any (fun hold => hold.state.is_open && (hold.assert_decidable 1).isOk) = true ∧
    (abandon_decision (fun _ => true) (runAll "h" (begin_decision (fun _ => true) desk.holds "h" "i" 1).1 noticed)
      "h" "i").1.get "h" ≠ (runAll "h" desk.holds noticed).get "h" :=
  ⟨freshDesk, _, freshDesk_reached, by decide, by decide⟩

end Ambush.Runtime

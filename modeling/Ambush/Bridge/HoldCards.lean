import Ambush.Bridge.HoldPlans
/-!
# One open card and one terminal card

Every card the relay accepts fills an entry of the routing ledger that was empty, so a hold
gets one open card and one terminal card. The exception is a terminal card that replies to
nothing: it fills the open entry, and the next terminal event plans another.
-/
open Lib

namespace Ambush.Bridge
open Ambush.Runtime (HoldState HeldAction)

section
variable {Uuid : Type} {u : Uuids Uuid}

/-! ## The ledger's card entries -/

/-- Two routings that agree on the cards, the second with all of it in the file when the first was. -/
structure CardsKept (r r' : CaseRouting) : Prop where
  saved : r.saved = r.state → r'.saved = r'.state
  open_card : ∀ hold_id, r'.state.open_card_for_hold hold_id = r.state.open_card_for_hold hold_id
  terminal : ∀ hold_id, r'.state.terminal_card_for_hold hold_id = r.state.terminal_card_for_hold hold_id

theorem CardsKept.refl (r : CaseRouting) : CardsKept r r := ⟨id, fun _ => rfl, fun _ => rfl⟩

theorem CardsKept.of_sets {r : CaseRouting} {s : RoutingState} {k : RoutingKey Uuid} {v : Option String}
    (h : r.state.Sets u s k v) (hopen : ∀ hold_id, k ≠ .OpenCard hold_id) (hterminal : ∀ hold_id, k ≠ .TerminalCard hold_id) :
    CardsKept r ⟨s, some s⟩ :=
  ⟨fun _ => rfl, fun hold_id => h.elsewhere (.OpenCard hold_id) (hopen hold_id).symm,
    fun hold_id => h.elsewhere (.TerminalCard hold_id) (hterminal hold_id).symm⟩

/-- A call on another key leaves the cards alone. -/
theorem CardsKept.of_keyed {α : Type} {r : CaseRouting} {k : RoutingKey Uuid} {out : CaseRouting × Except RoutingError α}
    (h : Keyed u r k true out) (hopen : ∀ hold_id, k ≠ .OpenCard hold_id) (hterminal : ∀ hold_id, k ≠ .TerminalCard hold_id) :
    CardsKept r out.1 := by
  cases h with
  | found here => exact .refl r
  | wrote none_here sets hw => exact .of_sets sets hopen hterminal
  | unsaved none_here sets hw => cases hw

theorem CardsKept.forget (r : CaseRouting) (channel : Uuid) : CardsKept r (r.forget_channel_created u channel true).1 := by
  rcases r.forget_channel_created_spec (u := u) channel true with hsame | ⟨s, hsets, hout⟩
  · rw [hsame]
    exact .refl r
  · rw [hout]
    exact .of_sets hsets (fun _ he => by cases he) (fun _ he => by cases he)

/-! ## The steps of a plan -/

/-- A sequence has at most one card left, for a hold with no terminal card, and an open card only where there is none. -/
def Planned (s : RoutingState) (state : HoldState) (steps : List PublishStep) : Prop :=
  steps.filterMap PublishStep.card? = [] ∨
    ∃ hold_id reply_to, steps.filterMap PublishStep.card? = [(hold_id, reply_to)] ∧ s.terminal_card_for_hold hold_id = none ∧
      (state.is_terminal = false → reply_to = none ∧ s.open_card_for_hold hold_id = none)

theorem Planned.keep {r r' : CaseRouting} {state : HoldState} {steps : List PublishStep} (hk : CardsKept r r')
    (h : Planned r.state state steps) : Planned r'.state state steps := by
  rcases h with h | ⟨hold_id, reply_to, hcard, hterminal, hopen⟩
  · exact .inl h
  · refine .inr ⟨hold_id, reply_to, hcard, (hk.terminal hold_id).trans hterminal, fun hs => ?_⟩
    exact ⟨(hopen hs).1, (hk.open_card hold_id).trans (hopen hs).2⟩

variable [DecidableEq Uuid]

theorem mark_case_channel_routing (p : HoldPlanner) (channel : Uuid) (faults : StoreFaults) :
    (p.mark_case_channel u channel faults).routing = p.routing := by
  unfold HoldPlanner.mark_case_channel
  split
  · rfl
  · split <;> rfl

theorem cards_of_provision (channel : String) (pubkeys : List String) :
    (pubkeys.map (PublishStep.AddMember channel)).filterMap PublishStep.card? = [] := by
  induction pubkeys with
  | nil => rfl
  | cons pubkey pubkeys ih => exact ih

/-- The open sequence has the open card, when the ledger has none, and no other. -/
theorem plan_open_spec (p : HoldPlanner) (hold_id hunt_id : String) (record : HeldAction) (minted : Uuid) (faults : StoreFaults)
    (hterminal : p.routing.state.terminal_card_for_hold hold_id = none) :
    CardsKept p.routing (p.plan_open u hold_id hunt_id record minted faults true).1.routing ∧
      ∀ steps, (p.plan_open u hold_id hunt_id record minted faults true).2 = .ok (.Steps steps) →
        Planned (p.plan_open u hold_id hunt_id record minted faults true).1.routing.state .Created steps := by
  unfold HoldPlanner.plan_open
  split
  · exact ⟨.refl _, fun steps hs => by cases hs; exact .inl rfl⟩
  split
  · exact ⟨.refl _, fun steps hs => by cases hs⟩
  have hkept : CardsKept p.routing
      (p.routing.ensure_case_channel u (.Held hunt_id hold_id) p.approve_pubkeys minted true).1 :=
    .of_keyed (p.routing.ensure_case_channel_spec (.Held hunt_id hold_id) p.approve_pubkeys minted true).1
      (fun _ he => by cases he) (fun _ he => by cases he)
  split
  · next routing e heq =>
    rw [heq] at hkept
    exact ⟨hkept, fun steps hs => by cases hs⟩
  · next routing case provision heq =>
    rw [heq] at hkept
    have hprovision : provision.filterMap PublishStep.card? = [] := by
      rcases CaseRouting.ensure_case_channel_steps p.routing (.Held hunt_id hold_id) p.approve_pubkeys minted true
        (congrArg Prod.snd heq) with rfl | rfl
      · rfl
      · exact cards_of_provision _ _
    have hrouting : (if record.case_channel.isNone && routing.state.channel_is_created u case then
        HoldPlanner.mark_case_channel u { p with routing } case faults else { p with routing }).routing = routing := by
      split
      · exact mark_case_channel_routing _ _ _
      · rfl
    rw [hrouting]
    refine ⟨hkept, fun steps hs => ?_⟩
    obtain rfl := HoldPlan.Steps.inj (Except.ok.inj hs)
    have hfirst : (if provision.isEmpty && record.notice_event_id.isNone then
        (if routing.state.channel_is_created u case then [] else [PublishStep.CreateChannel (u.to_string case)]) ++
          p.approve_pubkeys.map (.AddMember (u.to_string case)) else provision).filterMap PublishStep.card? = [] := by
      split
      · rw [List.filterMap_append, cards_of_provision, List.append_nil]
        split <;> rfl
      · exact hprovision
    have hnotice : ∀ card, (if record.notice_event_id.isNone then [PublishStep.PublishHoldNotice (u.to_string case) hold_id card]
        else []).filterMap PublishStep.card? = [] := by
      intro card
      split <;> rfl
    have halarm : (if routing.state.alarm_published_for_hold hold_id then [] else [PublishStep.PublishAlarm hold_id]).filterMap
        PublishStep.card? = [] := by
      split <;> rfl
    cases hcard : routing.state.open_card_for_hold hold_id with
    | some card =>
      refine .inl ?_
      rw [List.filterMap_append, List.filterMap_append, List.filterMap_append, hfirst, hnotice, halarm]
      rfl
    | none =>
      refine .inr ⟨hold_id, none, ?_, (hkept.terminal hold_id).trans hterminal, fun _ => ⟨rfl, hcard⟩⟩
      rw [List.filterMap_append, List.filterMap_append, List.filterMap_append, hfirst, hnotice, halarm]
      rfl

/-- What a plan does to the ledger, and what it plans. -/
theorem plan_spec (p : HoldPlanner) (event : HoldEvent) (minted : Uuid) (faults : StoreFaults) :
    CardsKept p.routing (p.plan u event minted faults true).1.routing ∧
      ∀ steps, (p.plan u event minted faults true).2 = .ok (.Steps steps) →
        Planned (p.plan u event minted faults true).1.routing.state event.state steps := by
  have hempty : ∀ {state : HoldState} {steps : List PublishStep},
      (Except.ok (HoldPlan.Steps []) : Except HoldError HoldPlan) = .ok (.Steps steps) → Planned p.routing.state state steps := by
    intro state steps hs
    cases hs
    exact .inl rfl
  have hclose : ∀ {state : HoldState} (record : HeldAction), p.routing.state.terminal_card_for_hold event.hold_id = none →
      state.is_terminal = true → ∀ steps,
        (Except.ok (p.plan_terminal u event.hold_id event.hunt_id record) : Except HoldError HoldPlan) = .ok (.Steps steps) →
        Planned p.routing.state state steps := by
    intro state record hnone hterminal steps hs
    unfold HoldPlanner.plan_terminal at hs
    split at hs
    · cases hs
    · cases hs
      exact .inr ⟨event.hold_id, _, rfl, hnone, fun hf => by rw [hterminal] at hf; cases hf⟩
  unfold HoldPlanner.plan
  split
  · split
    · exact ⟨.refl _, fun steps hs => by cases hs⟩
    · split
      · exact ⟨.refl _, fun steps hs => by cases hs⟩
      · exact ⟨.refl _, fun steps hs => by cases hs⟩
      · next record _ =>
        split
        · exact ⟨.refl _, fun steps hs => hempty hs⟩
        · next hnone =>
          have hnone := Option.not_isSome_iff_eq_none.1 hnone
          cases hstate : event.state with
          | Created => exact plan_open_spec p event.hold_id event.hunt_id record minted faults hnone
          | Notified | Armed | Deciding => exact ⟨.refl _, fun steps hs => hempty hs⟩
          | Granted | Refused | Expired | Executed | Failed =>
            exact ⟨.refl _, hclose record hnone rfl⟩
  · exact ⟨.refl _, fun steps hs => by cases hs⟩

/-- After the terminal card there is nothing left to plan. -/
theorem plan_of_terminal {p : HoldPlanner} {event : HoldEvent} (hterminal : p.routing.state.terminal_card_for_hold event.hold_id ≠ none)
    (minted : Uuid) (faults : StoreFaults) (writes : Bool) (step : PublishStep) (steps : List PublishStep) :
    (p.plan u event minted faults writes).2 ≠ .ok (.Steps (step :: steps)) := by
  unfold HoldPlanner.plan
  split
  · split
    · exact fun he => by cases he
    · split
      · exact fun he => by cases he
      · exact fun he => by cases he
      · rw [if_pos (Option.isSome_iff_ne_none.2 hterminal)]
        exact fun he => by cases he
  · exact fun he => by cases he

/-! ## An accepted step -/

/-- A step that is no card leaves the cards alone. -/
theorem on_ok_spec (p : HoldPlanner) (step : PublishStep) (hstep : step.card? = none) (event_id : String) (now_ms : Int)
    (faults : StoreFaults) : CardsKept p.routing (p.on_ok u step event_id now_ms faults true).1.routing := by
  cases step with
  | CreateChannel channel =>
    simp only [HoldPlanner.on_ok]
    split
    · exact .refl _
    · next case _ =>
      have hkept : CardsKept p.routing (p.routed (p.routing.record_channel_created u case true)).1.routing :=
        .of_keyed (p.routing.record_channel_created_spec case true) (fun _ he => by cases he) (fun _ he => by cases he)
      split
      · next p' e heq =>
        rw [heq] at hkept
        exact hkept
      · next p' heq =>
        rw [heq] at hkept
        rw [mark_case_channel_routing]
        exact hkept
  | AddMember channel pubkey => exact .refl _
  | PublishHoldCard channel hold_id reply_to => cases hstep
  | PublishHoldNotice channel hold_id card_event_id =>
    simp only [HoldPlanner.on_ok]
    split <;> exact .refl _
  | PublishAlarm hold_id =>
    exact .of_keyed (u := u) (p.routing.record_alarm_published_spec hold_id true) (fun _ he => by cases he) (fun _ he => by cases he)

/-! ## The lane -/

def HoldLane.opens (s : HoldLane) (hold_id : String) : List PostedCard :=
  s.relay.filter (fun card => card.hold_id = hold_id && !card.is_terminal)

def HoldLane.terminals (s : HoldLane) (hold_id : String) : List PostedCard :=
  s.relay.filter (fun card => card.hold_id = hold_id && card.is_terminal)

/-- At most one open and one terminal card for each hold, and no step for a hold whose terminal card is out. -/
def OneCardEach (u : Uuids Uuid) (s : HoldLane) : Prop :=
  ∀ hold_id, (s.opens hold_id).length ≤ 1 ∧ (s.terminals hold_id).length ≤ 1 ∧
    (s.terminals hold_id ≠ [] → ∀ event : HoldEvent, event.hold_id = hold_id → ∀ minted faults writes step steps,
      (s.planner.plan u event minted faults writes).2 ≠ .ok (.Steps (step :: steps)))

/-- A list whose members need an entry that one may fill once. -/
structure Filled (cards : List PostedCard) (entry : Option String) : Prop where
  one : cards.length ≤ 1
  filled : cards ≠ [] → entry ≠ none

theorem Filled.fill {cards : List PostedCard} (h : Filled cards none) (card : PostedCard) (event_id : String) :
    Filled (cards ++ [card]) (some event_id) := by
  have hnil : cards = [] := by
    by_contra hne
    exact h.filled hne rfl
  subst hnil
  exact ⟨le_refl _, fun _ he => by cases he⟩

structure LaneInv (s : HoldLane) : Prop where
  saved : s.planner.routing.saved = s.planner.routing.state
  opened : ∀ hold_id, Filled (s.opens hold_id) (s.planner.routing.state.open_card_for_hold hold_id)
  closed : ∀ hold_id, Filled (s.terminals hold_id) (s.planner.routing.state.terminal_card_for_hold hold_id)
  planned : ∀ state steps, s.pending = some (state, steps) → Planned s.planner.routing.state state steps

theorem LaneInv.no_card_twice {s : HoldLane} (h : LaneInv s) : OneCardEach u s := by
  intro hold_id
  refine ⟨(h.opened hold_id).one, (h.closed hold_id).one, fun hne event he minted faults writes step steps => ?_⟩
  exact plan_of_terminal (by rw [he]; exact (h.closed hold_id).filled hne) minted faults writes step steps

/-- The ledger keeps its cards, and no card is accepted. -/
theorem LaneInv.quiet {s s' : HoldLane} (h : LaneInv s) (hk : CardsKept s.planner.routing s'.planner.routing)
    (hrelay : s'.relay = s.relay)
    (hplanned : ∀ state steps, s'.pending = some (state, steps) → Planned s'.planner.routing.state state steps) : LaneInv s' where
  saved := hk.saved h.saved
  opened hold_id := by
    rw [hk.open_card, HoldLane.opens, hrelay]
    exact h.opened hold_id
  closed hold_id := by
    rw [hk.terminal, HoldLane.terminals, hrelay]
    exact h.closed hold_id
  planned := hplanned

/-- A list of cards that a card of another kind or hold joins. -/
theorem filter_append_skip {cards : List PostedCard} {card : PostedCard} {q : PostedCard → Bool} (h : q card = false) :
    (cards ++ [card]).filter q = cards.filter q := by
  rw [List.filter_append, List.filter_singleton, h]
  exact List.append_nil _

theorem filter_append_join {cards : List PostedCard} {card : PostedCard} {q : PostedCard → Bool} (h : q card = true) :
    (cards ++ [card]).filter q = cards.filter q ++ [card] := by
  rw [List.filter_append, List.filter_singleton, h]
  rfl

/-- The ledger entry that belongs to a card. -/
def PostedCard.key (Uuid : Type) (card : PostedCard) : RoutingKey Uuid :=
  if card.is_terminal then .TerminalCard card.hold_id else .OpenCard card.hold_id

omit [DecidableEq Uuid] in
/-- A card fills the entry it belongs to, which was empty. -/
theorem LaneInv.post {s s' : HoldLane} (h : LaneInv s) (card : PostedCard) {out : CaseRouting × Except RoutingError Unit}
    (hkeyed : Keyed u s.planner.routing (card.key Uuid) true out) (hnone : s.planner.routing.state.reports u (card.key Uuid) = none)
    (hrouting : s'.planner.routing = out.1) (hrelay : s'.relay = s.relay ++ [card])
    (hplanned : ∀ state steps, s'.pending = some (state, steps) → Planned s'.planner.routing.state state steps) : LaneInv s' := by
  cases hkeyed with
  | found here => rw [hnone] at here; cases here
  | unsaved none_here sets hw => cases hw
  | @wrote v ledger a none_here sets hw =>
    rw [PostedCard.key] at sets hnone
    refine ⟨by rw [hrouting]; rfl, fun hold_id => ?_, fun hold_id => ?_, hplanned⟩
    · rw [HoldLane.opens, hrelay, hrouting]
      show Filled _ (ledger.open_card_for_hold hold_id)
      by_cases hmine : card.hold_id = hold_id ∧ card.is_terminal = false
      · obtain ⟨rfl, hopen⟩ := hmine
        rw [hopen, if_neg Bool.false_ne_true] at sets hnone
        have hempty : s.planner.routing.state.open_card_for_hold card.hold_id = none := hnone
        have hfull : ledger.open_card_for_hold card.hold_id = some v := sets.here
        have hfilled := h.opened card.hold_id
        rw [hempty] at hfilled
        rw [filter_append_join (by simp [hopen]), hfull]
        exact hfilled.fill card v
      · have hne : RoutingKey.OpenCard hold_id ≠ (if card.is_terminal then .TerminalCard card.hold_id else .OpenCard card.hold_id :
            RoutingKey Uuid) := by
          intro he
          cases hterminal : card.is_terminal with
          | true => rw [hterminal] at he; cases he
          | false => rw [hterminal] at he; cases he; exact hmine ⟨rfl, hterminal⟩
        have hsame : ledger.open_card_for_hold hold_id = s.planner.routing.state.open_card_for_hold hold_id := sets.elsewhere _ hne
        rw [filter_append_skip (by simpa using hmine), hsame]
        exact h.opened hold_id
    · rw [HoldLane.terminals, hrelay, hrouting]
      show Filled _ (ledger.terminal_card_for_hold hold_id)
      by_cases hmine : card.hold_id = hold_id ∧ card.is_terminal = true
      · obtain ⟨rfl, hterminal⟩ := hmine
        rw [hterminal, if_pos rfl] at sets hnone
        have hempty : s.planner.routing.state.terminal_card_for_hold card.hold_id = none := hnone
        have hfull : ledger.terminal_card_for_hold card.hold_id = some v := sets.here
        have hfilled := h.closed card.hold_id
        rw [hempty] at hfilled
        rw [filter_append_join (by simp [hterminal]), hfull]
        exact hfilled.fill card v
      · have hne : RoutingKey.TerminalCard hold_id ≠ (if card.is_terminal then .TerminalCard card.hold_id else .OpenCard card.hold_id :
            RoutingKey Uuid) := by
          intro he
          cases hterminal : card.is_terminal with
          | true => rw [hterminal] at he; cases he; exact hmine ⟨rfl, hterminal⟩
          | false => rw [hterminal] at he; cases he
        have hsame : ledger.terminal_card_for_hold hold_id = s.planner.routing.state.terminal_card_for_hold hold_id :=
          sets.elsewhere _ hne
        rw [filter_append_skip (by simpa using hmine), hsame]
        exact h.closed hold_id

/-- Past its card a sequence has none. -/
theorem Planned.cons_card {s : RoutingState} {state : HoldState} {channel hold_id : String} {reply_to : Option String}
    {rest : List PublishStep} (h : Planned s state (.PublishHoldCard channel hold_id reply_to :: rest)) :
    rest.filterMap PublishStep.card? = [] ∧ s.terminal_card_for_hold hold_id = none ∧
      (state.is_terminal = false → reply_to = none ∧ s.open_card_for_hold hold_id = none) := by
  rcases h with h | ⟨hold, reply, hcard, hterminal, hopen⟩
  · cases h
  · obtain ⟨heq, hrest⟩ := List.cons.inj hcard
    obtain ⟨rfl, rfl⟩ := Prod.mk.inj heq
    exact ⟨hrest, hterminal, hopen⟩

theorem Planned.cons_other {s : RoutingState} {state : HoldState} {step : PublishStep} {rest : List PublishStep}
    (h : Planned s state (step :: rest)) (hstep : step.card? = none) : Planned s state rest := by
  unfold Planned at h ⊢
  rw [List.filterMap_cons_none hstep] at h
  exact h

theorem LaneInv.accept {s : HoldLane} (h : LaneInv s) {state : HoldState} {step : PublishStep} {rest : List PublishStep}
    (hpending : s.pending = some (state, step :: rest))
    (hreply : ∀ channel hold_id, step = .PublishHoldCard channel hold_id none → state.is_terminal = false)
    (event_id : String) (now_ms : Int) (faults : StoreFaults) : LaneInv (s.accept u state step rest event_id now_ms faults) := by
  have hplanned := h.planned _ _ hpending
  -- What is left of the sequence is planned as before, whatever the step recorded.
  have hleft : Planned (s.planner.on_ok u step event_id now_ms faults true).1.routing.state state rest →
      ∀ state' steps, (s.accept u state step rest event_id now_ms faults).pending = some (state', steps) →
        Planned (s.accept u state step rest event_id now_ms faults).planner.routing.state state' steps := by
    intro hrest state' steps hs
    simp only [HoldLane.accept] at hs
    split at hs
    · cases hs
      exact hrest
    · cases hs
  cases step with
  | PublishHoldCard channel hold_id reply_to =>
    obtain ⟨hrest, hterminal, hopen⟩ := hplanned.cons_card
    cases reply_to with
    | none =>
      have hstate := hreply channel hold_id rfl
      have hkey : PostedCard.key Uuid ⟨hold_id, state, none, event_id⟩ = .OpenCard hold_id := by
        rw [PostedCard.key, PostedCard.is_terminal, hstate]
        rfl
      refine h.post (u := u) ⟨hold_id, state, none, event_id⟩ ?_ ?_ rfl rfl (hleft (.inl hrest))
      · rw [hkey]
        exact s.planner.routing.record_open_card_spec hold_id event_id true
      · rw [hkey]
        exact (hopen hstate).2
    | some reply =>
      have hstate : state.is_terminal = true := by
        cases hs : state.is_terminal with
        | true => rfl
        | false => cases (hopen hs).1
      have hkey : PostedCard.key Uuid ⟨hold_id, state, some reply, event_id⟩ = .TerminalCard hold_id := by
        rw [PostedCard.key, PostedCard.is_terminal, hstate]
        rfl
      refine h.post (u := u) ⟨hold_id, state, some reply, event_id⟩ ?_ ?_ rfl rfl (hleft (.inl hrest))
      · rw [hkey]
        exact s.planner.routing.record_terminal_card_spec hold_id event_id true
      · rw [hkey]
        exact hterminal
  | CreateChannel channel =>
    have hkept := on_ok_spec (u := u) s.planner (.CreateChannel channel) rfl event_id now_ms faults
    exact h.quiet hkept (List.append_nil _) (hleft ((hplanned.cons_other rfl).keep hkept))
  | AddMember channel pubkey =>
    have hkept := on_ok_spec (u := u) s.planner (.AddMember channel pubkey) rfl event_id now_ms faults
    exact h.quiet hkept (List.append_nil _) (hleft ((hplanned.cons_other rfl).keep hkept))
  | PublishHoldNotice channel hold_id card =>
    have hkept := on_ok_spec (u := u) s.planner (.PublishHoldNotice channel hold_id card) rfl event_id now_ms faults
    exact h.quiet hkept (List.append_nil _) (hleft ((hplanned.cons_other rfl).keep hkept))
  | PublishAlarm hold_id =>
    have hkept := on_ok_spec (u := u) s.planner (.PublishAlarm hold_id) rfl event_id now_ms faults
    exact h.quiet hkept (List.append_nil _) (hleft ((hplanned.cons_other rfl).keep hkept))

omit [DecidableEq Uuid] in
theorem LaneInv.refuse {s : HoldLane} (h : LaneInv s) (step : PublishStep) (outcome : OkOutcome) : LaneInv (s.refuse u step outcome) := by
  unfold HoldLane.refuse
  split
  · split
    · exact h.quiet (.forget _ _) rfl (fun _ _ he => by cases he)
    · exact h.quiet (.refl _) rfl (fun _ _ he => by cases he)
  · exact h.quiet (.refl _) rfl (fun _ _ he => by cases he)

theorem LaneInv.publish {s s' : HoldLane} (h : LaneInv s) {submission : Submission} {now_ms : Int} {faults : StoreFaults}
    (hm : s.publish u submission now_ms faults = some s') (hreply : Answers s (.Publish submission now_ms faults : LaneMove Uuid)) :
    LaneInv s' := by
  unfold HoldLane.publish at hm
  split at hm
  · next state step rest hpending =>
    cases submission with
    | Unbuilt | Unanswered =>
      cases hm
      exact h.quiet (.refl _) rfl (fun _ _ he => by cases he)
    | Answered outcome event_id =>
      simp only at hm
      split at hm
      · next hok =>
        cases hm
        refine h.accept hpending (fun channel hold_id hstep => ?_) event_id now_ms faults
        exact hreply state channel hold_id rest (by rw [hpending, hstep]) hok
      · cases hm
        exact h.refuse step outcome
  · cases hm

theorem LaneInv.move {s s' : HoldLane} {m : LaneMove Uuid} (h : LaneInv s) (hm : LaneAnswers u s m s') : LaneInv s' := by
  obtain ⟨hm, hreply⟩ := hm
  cases m with
  | Daemon holds =>
    cases hm
    exact h.quiet (.refl _) rfl h.planned
  | Plan event minted faults =>
    obtain ⟨hkept, hplanned⟩ := plan_spec (u := u) s.planner event minted faults
    simp only [LaneMoves, HoldLane.move] at hm
    split at hm
    · split at hm
      · next planner steps heq =>
        rw [heq] at hkept hplanned
        cases hm
        exact h.quiet hkept rfl (fun _ _ he => by cases he; exact hplanned _ rfl)
      · next planner out _ heq =>
        rw [heq] at hkept
        cases hm
        exact h.quiet hkept rfl (fun _ _ he => by cases he)
    · cases hm
  | Publish submission now_ms faults => exact h.publish hm hreply
  | Promote trigger minted =>
    simp only [LaneMoves, HoldLane.move] at hm
    split at hm
    · cases hm
      have hkept : CardsKept s.planner.routing _ := .of_keyed
        (s.planner.routing.ensure_case_channel_spec (u := u) trigger s.planner.approve_pubkeys minted true).1
        (fun _ he => by cases he) (fun _ he => by cases he)
      exact h.quiet hkept rfl (fun state steps hs => (h.planned state steps hs).keep hkept)
    · cases hm
  | PromoteCreated channel =>
    simp only [LaneMoves, HoldLane.move] at hm
    split at hm
    · cases hm
      have hkept : CardsKept s.planner.routing _ := .of_keyed
        (s.planner.routing.record_channel_created_spec (u := u) channel true) (fun _ he => by cases he) (fun _ he => by cases he)
      exact h.quiet hkept rfl (fun state steps hs => (h.planned state steps hs).keep hkept)
    · cases hm
  | PromoteRefused channel =>
    simp only [LaneMoves, HoldLane.move] at hm
    split at hm
    · cases hm
      have hkept := CardsKept.forget (u := u) s.planner.routing channel
      exact h.quiet hkept rfl (fun state steps hs => (h.planned state steps hs).keep hkept)
    · cases hm
  | Restart store approve_pubkeys =>
    cases hm
    have hkept : CardsKept s.planner.routing (.open_file s.planner.routing.file) := by
      have hsame : (CaseRouting.open_file s.planner.routing.file).state = s.planner.routing.state := h.saved
      exact ⟨fun _ => rfl, fun _ => by rw [hsame], fun _ => by rw [hsame]⟩
    exact h.quiet hkept rfl (fun _ _ he => by cases he)

/-- Where no card that answers to nothing is accepted for a terminal event, every hold gets one open and one terminal card at most,
whatever the events, the answers of the relay, the moves of the store and the restarts. -/
theorem one_card_each {file : Option RoutingState} {store : Option HoldStore} {approve_pubkeys : List String}
    {moves : List (LaneMove Uuid)} {s : HoldLane}
    (h : Run (LaneAnswers u) ⟨⟨.open_file file, store, approve_pubkeys⟩, none, []⟩ moves s) : OneCardEach u s := by
  have hstart : LaneInv ⟨⟨.open_file file, store, approve_pubkeys⟩, none, []⟩ :=
    ⟨rfl, fun _ => ⟨Nat.zero_le _, fun hne => absurd rfl hne⟩, fun _ => ⟨Nat.zero_le _, fun hne => absurd rfl hne⟩,
      fun _ _ he => by cases he⟩
  exact (h.inv (I := LaneInv) (fun _ _ _ _ hs hm => hs.move hm) hstart).no_card_twice

end

/-! ## Two terminal cards -/

def hunt_case : CasePromotionTrigger String := .Promoted "hunt-1" "1b4e28ba-2fa1-41d2-883f-0016d3cca427" .Manual

/-- A hold of `hunt-1`. -/
def hold_store (state : HoldState) : Option HoldStore :=
  some ⟨[{ Runtime.HeldAction.new "hold-0001" 1000 2000 with state }], fun _ => "hunt-1"⟩

/-- A record of the hold is drained. -/
def hold_drained (state : HoldState) : LaneMove String :=
  .Plan ⟨"hold-0001", "hunt-1", state⟩ "6ecd8c99-4036-403d-bf84-cf8400f67836" {}

/-- The relay takes the step at the head. -/
def hold_taken (event_id : String) : LaneMove String := .Publish (.Answered .Accepted event_id) 3000 {}

/-- A hold on a hunt with a case, opened, then closed, with both records delivered again. -/
def opened_and_closed : List (LaneMove String) :=
  [.Promote hunt_case "", .PromoteCreated "1b4e28ba-2fa1-41d2-883f-0016d3cca427", hold_drained .Created, hold_taken "member-a", hold_taken "card-a",
    .Restart (hold_store .Expired) ["operator"], hold_drained .Expired, hold_taken "card-b", hold_drained .Created, hold_drained .Expired]

theorem one_card_each_opened_and_closed :
    ∃ s, Run (LaneAnswers Uuids.plain) ⟨⟨.open_file none, hold_store .Created, ["operator"]⟩, none, []⟩ opened_and_closed s ∧
      s.relay.length = 2 ∧ OneCardEach Uuids.plain s := by
  have hopen : ∀ {s : HoldLane} {event_id : String} {pending : HoldState × List PublishStep}, s.pending = some pending →
      (∀ channel hold_id rest, pending.2 = .PublishHoldCard channel hold_id none :: rest → pending.1.is_terminal = false) →
      Answers s (hold_taken event_id) := by
    intro s event_id pending hp h state channel hold_id rest he _
    obtain rfl := Option.some.inj (hp.symm.trans he)
    exact h channel hold_id rest rfl
  have hrun : Run (LaneAnswers Uuids.plain) ⟨⟨.open_file none, hold_store .Created, ["operator"]⟩, none, []⟩ opened_and_closed _ :=
    .cons ⟨rfl, trivial⟩ (.cons ⟨rfl, trivial⟩ (.cons ⟨rfl, trivial⟩ (.cons ⟨rfl, hopen rfl (fun _ _ _ _ => rfl)⟩
      (.cons ⟨rfl, hopen rfl (fun _ _ _ _ => rfl)⟩ (.cons ⟨rfl, trivial⟩ (.cons ⟨rfl, trivial⟩
        (.cons ⟨rfl, hopen rfl (fun _ _ _ he => by cases he)⟩ (.cons ⟨rfl, trivial⟩ (.single ⟨rfl, trivial⟩)))))))))
  exact ⟨_, hrun, rfl, one_card_each hrun⟩

/-- The hold expired before its `created` record was drained; its `expired` record is delivered twice. -/
theorem two_terminal_cards :
    ¬ ∀ (file : Option RoutingState) (store : Option HoldStore) (approve_pubkeys : List String) (moves : List (LaneMove String))
      (s : HoldLane), Run (LaneMoves Uuids.plain) ⟨⟨.open_file file, store, approve_pubkeys⟩, none, []⟩ moves s →
        OneCardEach Uuids.plain s := by
  intro hall
  have hrun : Run (LaneMoves Uuids.plain) ⟨⟨.open_file none, hold_store .Expired, ["operator"]⟩, none, []⟩
      [.Promote hunt_case "", hold_drained .Created, hold_drained .Expired, hold_taken "card-a", hold_drained .Expired, hold_taken "card-b"] _ :=
    .cons rfl (.cons rfl (.cons rfl (.cons rfl (.cons rfl (.single rfl)))))
  exact absurd (hall _ _ _ _ _ hrun "hold-0001").2.1 (by decide)

end Ambush.Bridge

import Ambush.Bridge.Routing
/-!
# One hunt, one case channel

A history of the sidecar: calls whose write may fail, and restarts that read the file back.
An entry that is in memory and in the file stays in both; an entry that a failed write left
in memory alone is answered for as if it were saved, and is gone after a restart.
-/
open Lib

namespace Ambush.Bridge

inductive RoutingCall (Uuid : Type) where
  | ensure_case_channel (trigger : CasePromotionTrigger Uuid) (operators : List String) (minted : Uuid)
  | record_channel_created (channel : Uuid)
  | forget_channel_created (channel : Uuid)
  | record_open_card (hold_id event_id : String)
  | record_terminal_card (hold_id event_id : String)
  | record_lease_card (lease_id event_id : String)
  | record_alarm_published (hold_id : String)
  /-- Reopen the file. -/
  | restart

inductive RoutingAnswer (Uuid : Type) where
  | Channel (channel : Uuid) (steps : List PublishStep)
  | Done
  | Failed (error : RoutingError)

namespace RoutingAnswer
variable {Uuid : Type}

def of_channel : Except RoutingError (Uuid × List PublishStep) → RoutingAnswer Uuid
  | .ok (channel, steps) => .Channel channel steps
  | .error e => .Failed e

theorem ok_of_channel {x : Except RoutingError (Uuid × List PublishStep)} {channel : Uuid} {steps : List PublishStep}
    (h : of_channel x = .Channel channel steps) : x = .ok (channel, steps) := by
  cases x with
  | error e => cases h
  | ok routed => cases h; rfl

def of_record : Except RoutingError Unit → RoutingAnswer Uuid
  | .ok () => .Done
  | .error e => .Failed e

def is_ok : RoutingAnswer Uuid → Bool
  | .Failed _ => false
  | _ => true

end RoutingAnswer

/-- A call, whether its write succeeds, and what it answers. -/
structure RoutingEntry (Uuid : Type) where
  call : RoutingCall Uuid
  writes : Bool
  answer : RoutingAnswer Uuid

section
variable {Uuid : Type} [DecidableEq Uuid] (u : Uuids Uuid)

def CaseRouting.call (r : CaseRouting) (writes : Bool) : RoutingCall Uuid → CaseRouting × RoutingAnswer Uuid
  | .ensure_case_channel trigger operators minted =>
    (r.ensure_case_channel u trigger operators minted writes).map id RoutingAnswer.of_channel
  | .record_channel_created channel => (r.record_channel_created u channel writes).map id RoutingAnswer.of_record
  | .forget_channel_created channel => (r.forget_channel_created u channel writes).map id RoutingAnswer.of_record
  | .record_open_card hold_id event_id => (r.record_open_card hold_id event_id writes).map id RoutingAnswer.of_record
  | .record_terminal_card hold_id event_id => (r.record_terminal_card hold_id event_id writes).map id RoutingAnswer.of_record
  | .record_lease_card lease_id event_id => (r.record_lease_card lease_id event_id writes).map id RoutingAnswer.of_record
  | .record_alarm_published hold_id => (r.record_alarm_published hold_id writes).map id RoutingAnswer.of_record
  | .restart => (.open_file r.file, .Done)

def Routes (r : CaseRouting) (e : RoutingEntry Uuid) (r' : CaseRouting) : Prop := r.call u e.writes e.call = (r', e.answer)

/-- The entry that a call finds or makes. -/
def RoutingCall.key : RoutingCall Uuid → Option (RoutingKey Uuid)
  | .ensure_case_channel trigger _ _ => some (.Hunt trigger.hunt_id)
  | .record_channel_created channel => some (.Created channel)
  | .record_open_card hold_id _ => some (.OpenCard hold_id)
  | .record_terminal_card hold_id _ => some (.TerminalCard hold_id)
  | .record_lease_card lease_id _ => some (.Lease lease_id)
  | .record_alarm_published hold_id => some (.Alarm hold_id)
  | .forget_channel_created _ | .restart => none

/-- A promotion that names another case than the one its hunt has. -/
def RoutingCall.conflicts (s : RoutingState) : RoutingCall Uuid → Bool
  | .ensure_case_channel (.Promoted hunt_id case_id _) _ _ => (s.case_for_hunt u hunt_id).any (fun c => decide (case_id ≠ c))
  | _ => false

/-- `forget_channel_created` takes an entry back. -/
def RoutingCall.forgets : RoutingCall Uuid → Option (RoutingKey Uuid)
  | .forget_channel_created channel => some (.Created channel)
  | _ => none

/-- Where a call returns on the entry it finds in memory, the file has that entry too. -/
def Saved (r : CaseRouting) (call : RoutingCall Uuid) : Prop :=
  ∀ k v, call.key = some k → r.state.reports u k = some v → call.conflicts u r.state = false → r.saved.reports u k = some v

def RoutesSaved (r : CaseRouting) (e : RoutingEntry Uuid) (r' : CaseRouting) : Prop := Routes u r e r' ∧ Saved u r e.call

/-- `hunt_id` was given the channel `channel`. -/
def RoutingEntry.ensured (e : RoutingEntry Uuid) (hunt_id : String) (channel : Uuid) : Prop :=
  e.call.key = some (.Hunt hunt_id) ∧ ∃ steps, e.answer = .Channel channel steps

/-- A `record_*` call reported its entry. -/
def RoutingEntry.recorded (e : RoutingEntry Uuid) (k : RoutingKey Uuid) : Prop := e.call.key = some k ∧ e.answer = .Done

/-! ## One call -/

omit [DecidableEq Uuid] in
theorem key_of_forgets {call : RoutingCall Uuid} {k : RoutingKey Uuid} (h : call.forgets = some k) : call.key = none := by
  cases call with
  | forget_channel_created channel => rfl
  | _ => cases h

variable {u} {r r' : CaseRouting} {e : RoutingEntry Uuid} {k : RoutingKey Uuid}

/-- What a call can do to the sidecar. -/
inductive Effected (u : Uuids Uuid) (r : CaseRouting) (e : RoutingEntry Uuid) : CaseRouting → Prop
  | found {k : RoutingKey Uuid} {v : String} (key : e.call.key = some k) (here : r.state.reports u k = some v) : Effected u r e r
  | wrote {k : RoutingKey Uuid} {v : String} {s : RoutingState} (key : e.call.key = some k)
      (none_here : r.state.reports u k = none) (sets : r.state.Sets u s k (some v)) : Effected u r e ⟨s, some s⟩
  | unsaved {k : RoutingKey Uuid} {v : String} {s : RoutingState} (key : e.call.key = some k)
      (none_here : r.state.reports u k = none) (sets : r.state.Sets u s k (some v)) (failed : e.answer = .Failed .SpoolIo) :
      Effected u r e ⟨s, r.file⟩
  | forgot {k : RoutingKey Uuid} {s : RoutingState} (forgets : e.call.forgets = some k) (sets : r.state.Sets u s k none) :
      Effected u r e ⟨s, if e.writes then some s else r.file⟩
  | nothing (key : e.call.key = none) : Effected u r e r
  | reopened (key : e.call.key = none) : Effected u r e (.open_file r.file)

omit [DecidableEq Uuid] in
theorem effected_of_keyed {α : Type} {out : CaseRouting × Except RoutingError α} (hkey : e.call.key = some k)
    (hk : Keyed u r k e.writes out) (hfailed : out.2 = .error .SpoolIo → e.answer = .Failed .SpoolIo) : Effected u r e out.1 := by
  cases hk with
  | found here => exact .found hkey here
  | wrote none_here sets hw => exact .wrote hkey none_here sets
  | unsaved none_here sets hw => exact .unsaved hkey none_here sets (hfailed rfl)

omit [DecidableEq Uuid] in
/-- A call's answer, read off what the function returned. -/
theorem routes_record {out : CaseRouting × Except RoutingError Unit} (h : out.map id RoutingAnswer.of_record = (r', e.answer)) :
    out.1 = r' ∧ (out.2 = .error .SpoolIo → e.answer = .Failed .SpoolIo) := by
  obtain ⟨hr, ha⟩ := Prod.mk.inj h
  exact ⟨hr, fun he => by rw [← ha, he]; rfl⟩

theorem effected (h : Routes u r e r') : Effected u r e r' := by
  obtain ⟨call, writes, answer⟩ := e
  cases call with
  | ensure_case_channel trigger operators minted =>
    have hr : (r.ensure_case_channel u trigger operators minted writes).1 = r' := congrArg Prod.fst h
    have ha : RoutingAnswer.of_channel (r.ensure_case_channel u trigger operators minted writes).2 = answer :=
      congrArg Prod.snd h
    rw [← hr]
    exact effected_of_keyed rfl (r.ensure_case_channel_spec trigger operators minted writes).1
      (fun he => by rw [← ha, he]; rfl)
  | record_channel_created channel =>
    obtain ⟨rfl, hfailed⟩ := routes_record h
    exact effected_of_keyed rfl (r.record_channel_created_spec channel writes) hfailed
  | record_open_card hold_id event_id =>
    obtain ⟨rfl, hfailed⟩ := routes_record h
    exact effected_of_keyed rfl (r.record_open_card_spec hold_id event_id writes) hfailed
  | record_terminal_card hold_id event_id =>
    obtain ⟨rfl, hfailed⟩ := routes_record h
    exact effected_of_keyed rfl (r.record_terminal_card_spec hold_id event_id writes) hfailed
  | record_lease_card lease_id event_id =>
    obtain ⟨rfl, hfailed⟩ := routes_record h
    exact effected_of_keyed rfl (r.record_lease_card_spec lease_id event_id writes) hfailed
  | record_alarm_published hold_id =>
    obtain ⟨rfl, hfailed⟩ := routes_record h
    exact effected_of_keyed rfl (r.record_alarm_published_spec hold_id writes) hfailed
  | forget_channel_created channel =>
    obtain ⟨hr, -⟩ := routes_record h
    rcases r.forget_channel_created_spec (u := u) channel writes with hsame | ⟨s, hsets, hout⟩
    · rw [← show r = r' from hsame.symm.trans hr]
      exact .nothing rfl
    · rw [← show _ = r' from hout.symm.trans hr]
      exact .forgot rfl hsets
  | restart =>
    obtain ⟨rfl, -⟩ := Prod.mk.inj h
    exact .reopened rfl

/-! ## A run -/

/-- An entry is in memory and in the file. -/
def Stands (u : Uuids Uuid) (r : CaseRouting) (k : RoutingKey Uuid) (v : String) : Prop :=
  r.state.reports u k = some v ∧ r.saved.reports u k = some v

/-- No call but `forget_channel_created` moves an entry that stands. -/
theorem Stands.call {v : String} (hs : Stands u r k v) (h : Routes u r e r') (hforget : e.call.forgets ≠ some k) : Stands u r' k v := by
  obtain ⟨hmem, hfile⟩ := hs
  cases effected h with
  | found key here => exact ⟨hmem, hfile⟩
  | @wrote k' v' s key none_here sets =>
    have hne : k ≠ k' := fun he => by rw [← he, hmem] at none_here; cases none_here
    exact ⟨(sets.elsewhere k hne).trans hmem, (sets.elsewhere k hne).trans hmem⟩
  | @unsaved k' v' s key none_here sets failed =>
    have hne : k ≠ k' := fun he => by rw [← he, hmem] at none_here; cases none_here
    exact ⟨(sets.elsewhere k hne).trans hmem, hfile⟩
  | @forgot k' s forgets sets =>
    have hne : k ≠ k' := fun he => hforget (by rw [he]; exact forgets)
    have hkept := (sets.elsewhere k hne).trans hmem
    refine ⟨hkept, ?_⟩
    cases hw : e.writes with
    | true => exact hkept
    | false => exact hfile
  | nothing key => exact ⟨hmem, hfile⟩
  | reopened key => exact ⟨hfile, hfile⟩

/-- After a call that answered for an entry, the entry stands. -/
theorem stands_of_ok (h : Routes u r e r') (hsaved : Saved u r e.call) (hkey : e.call.key = some k)
    (hc : e.call.conflicts u r.state = false) (hok : e.answer.is_ok = true) : ∃ v, Stands u r' k v := by
  cases effected h with
  | @found k' v key here =>
    obtain rfl := Option.some.inj (hkey.symm.trans key)
    exact ⟨v, here, hsaved k v hkey here hc⟩
  | @wrote k' v s key none_here sets =>
    obtain rfl := Option.some.inj (hkey.symm.trans key)
    exact ⟨v, sets.here, sets.here⟩
  | unsaved key none_here sets failed => rw [failed] at hok; cases hok
  | forgot forgets sets => rw [key_of_forgets forgets] at hkey; cases hkey
  | nothing key => rw [key] at hkey; cases hkey
  | reopened key => rw [key] at hkey; cases hkey

/-- A conflicting promotion is refused. -/
theorem conflicts_of_ok (h : Routes u r e r') (hok : e.answer.is_ok = true) : e.call.conflicts u r.state = false := by
  obtain ⟨call, writes, answer⟩ := e
  cases call with
  | ensure_case_channel trigger operators minted =>
    cases trigger with
    | Held hunt_id hold_id => rfl
    | Promoted hunt_id case_id clause =>
      have ha : RoutingAnswer.of_channel (r.ensure_case_channel u (.Promoted hunt_id case_id clause) operators minted writes).2 =
        answer := congrArg Prod.snd h
      simp only [RoutingCall.conflicts]
      cases he : r.state.case_for_hunt u hunt_id with
      | none => rfl
      | some existing =>
        simp only [CaseRouting.ensure_case_channel, CasePromotionTrigger.hunt_id, he] at ha
        split at ha
        · rw [← ha] at hok
          cases hok
        · next hsame => simpa using hsame
  | _ => rfl

/-- The channel that was answered is the one the sidecar reports. -/
theorem reports_of_ensured {hunt_id : String} {channel : Uuid} (h : Routes u r e r') (he : e.ensured hunt_id channel) :
    r'.state.reports u (.Hunt hunt_id) = some (u.to_string channel) := by
  obtain ⟨call, writes, answer⟩ := e
  obtain ⟨hkey, steps, rfl⟩ := he
  cases call with
  | ensure_case_channel trigger operators minted =>
    obtain rfl : trigger.hunt_id = hunt_id := by cases hkey; rfl
    have hr : (r.ensure_case_channel u trigger operators minted writes).1 = r' := congrArg Prod.fst h
    have ha : RoutingAnswer.of_channel (r.ensure_case_channel u trigger operators minted writes).2 = .Channel channel steps :=
      congrArg Prod.snd h
    rw [← hr]
    exact (r.ensure_case_channel_spec trigger operators minted writes).2 channel steps (RoutingAnswer.ok_of_channel ha)
  | _ => cases hkey

theorem Stands.run {v : String} {log : List (RoutingEntry Uuid)} (hs : Stands u r k v) (h : Run (Routes u) r log r')
    (hforget : ∀ e ∈ log, e.call.forgets ≠ some k) : Stands u r' k v :=
  h.inv (I := fun r => Stands u r k v) (fun _ e _ he hs hstep => hs.call hstep (hforget e he)) hs

/-- While no call answers for an entry that the file does not have: two calls that route one hunt give it one channel, and what a
`record_*` call reported is reported in every later state, after a restart too, until `forget_channel_created` takes it back. -/
theorem one_hunt_one_case_channel {file : Option RoutingState} {log : List (RoutingEntry Uuid)} {r : CaseRouting}
    (h : Run (RoutesSaved u) (.open_file file) log r) :
    (∀ before e between e' after hunt_id channel channel', log = before ++ e :: (between ++ e' :: after) →
      e.ensured hunt_id channel → e'.ensured hunt_id channel' → channel = channel') ∧
    (∀ before e after k, log = before ++ e :: after → e.recorded k → (∀ e' ∈ after, e'.call.forgets ≠ some k) →
      ∃ past v, Run (Routes u) (.open_file file) (before ++ [e]) past ∧
        past.state.reports u k = some v ∧ r.state.reports u k = some v) := by
  have hall : ∀ {r r' : CaseRouting} {log : List (RoutingEntry Uuid)}, Run (RoutesSaved u) r log r' → Run (Routes u) r log r' :=
    fun h => h.mono (fun _ _ _ hs => hs.1)
  constructor
  · rintro before e between e' after hunt_id channel channel' rfl he he'
    obtain ⟨r₁, -, hrest⟩ := h.split
    cases hrest with
    | @cons _ r₂ _ _ _ hstep hrest =>
      obtain ⟨r₃, hbetween, hrest⟩ := hrest.split
      cases hrest with
      | @cons _ r₄ _ _ _ hstep' hrest =>
        have hok : e.answer.is_ok = true := by obtain ⟨-, steps, ha⟩ := he; rw [ha]; rfl
        obtain ⟨v, hstands⟩ := stands_of_ok hstep.1 hstep.2 he.1 (conflicts_of_ok hstep.1 hok) hok
        have hnever : ∀ e : RoutingEntry Uuid, e.call.forgets ≠ some (.Hunt hunt_id) := by
          intro e hf
          cases hcall : e.call <;> rw [hcall] at hf <;> cases hf
        have hkept := (hstands.run (hall hbetween) (fun e _ => hnever e)).call hstep'.1 (hnever e')
        have h₂ := reports_of_ensured hstep.1 he
        have h₄ := reports_of_ensured hstep'.1 he'
        exact u.to_string_inj (Option.some.inj (h₂.symm.trans (hstands.1.trans (hkept.1.symm.trans h₄))))
  · rintro before e after k rfl he hforget
    obtain ⟨r₁, hbefore, hrest⟩ := h.split
    cases hrest with
    | @cons _ r₂ _ _ _ hstep hafter =>
      have hok : e.answer.is_ok = true := by rw [he.2]; rfl
      obtain ⟨v, hstands⟩ := stands_of_ok hstep.1 hstep.2 he.1 (conflicts_of_ok hstep.1 hok) hok
      exact ⟨r₂, v, (hall hbefore).append (.single hstep.1), hstands.1, (hstands.run (hall hafter) hforget).1⟩

end

/-! ## Saved and unsaved entries -/

/-- Ids that are their own text. -/
def Uuids.plain : Uuids String := ⟨id, some, fun _ => rfl⟩

/-- Route `hunt-1`, with the id that is minted if one is needed. -/
def hold_routed (minted : String) (writes : Bool) (answer : RoutingAnswer String) : RoutingEntry String :=
  ⟨.ensure_case_channel (.Held "hunt-1" "hold-0001") [] minted, writes, answer⟩

/-- Nothing is in memory that the file does not have. -/
theorem saved_of_eq {Uuid : Type} [DecidableEq Uuid] {u : Uuids Uuid} {r : CaseRouting} (h : r.saved = r.state) (call : RoutingCall Uuid) :
    Saved u r call := fun _ _ _ hv _ => by rw [h]; exact hv

/-- A route and a card whose writes succeed, and a restart after them. -/
def saved_route : List (RoutingEntry String) :=
  [hold_routed "1b4e28ba-2fa1-41d2-883f-0016d3cca427" true
      (.Channel "1b4e28ba-2fa1-41d2-883f-0016d3cca427" [.CreateChannel "1b4e28ba-2fa1-41d2-883f-0016d3cca427"]),
    ⟨.record_open_card "hold-0001" "card-a", true, .Done⟩, ⟨.restart, true, .Done⟩,
    hold_routed "3f333df6-90a4-4fda-8dd3-9485d27cee36" true
      (.Channel "1b4e28ba-2fa1-41d2-883f-0016d3cca427" [.CreateChannel "1b4e28ba-2fa1-41d2-883f-0016d3cca427"])]

theorem one_hunt_one_case_channel_saved :
    ∃ r, Run (RoutesSaved Uuids.plain) (.open_file none) saved_route r ∧
      ∃ past v, Run (Routes Uuids.plain) (.open_file none) (saved_route.take 2) past ∧
        past.state.reports Uuids.plain (.OpenCard "hold-0001") = some v ∧
        r.state.reports Uuids.plain (.OpenCard "hold-0001") = some v := by
  have hrun : Run (RoutesSaved Uuids.plain) (.open_file none) saved_route _ :=
    .cons ⟨rfl, saved_of_eq rfl _⟩ (.cons ⟨rfl, saved_of_eq rfl _⟩ (.cons ⟨rfl, saved_of_eq rfl _⟩ (.single ⟨rfl, saved_of_eq rfl _⟩)))
  refine ⟨_, hrun, (one_hunt_one_case_channel hrun).2 (saved_route.take 1) _ (saved_route.drop 2) (.OpenCard "hold-0001") rfl
    ⟨rfl, rfl⟩ (fun e he => ?_)⟩
  rcases List.mem_cons.1 he with rfl | he
  · decide
  · rw [List.mem_singleton.1 he]
    decide

/-- The write of a new route fails; the next call answers with the route, which a restart forgets. -/
def unsaved_route : List (RoutingEntry String) :=
  [hold_routed "1b4e28ba-2fa1-41d2-883f-0016d3cca427" false (.Failed .SpoolIo),
    hold_routed "6ecd8c99-4036-403d-bf84-cf8400f67836" true
      (.Channel "1b4e28ba-2fa1-41d2-883f-0016d3cca427" [.CreateChannel "1b4e28ba-2fa1-41d2-883f-0016d3cca427"]),
    ⟨.restart, true, .Done⟩,
    hold_routed "3f333df6-90a4-4fda-8dd3-9485d27cee36" true
      (.Channel "3f333df6-90a4-4fda-8dd3-9485d27cee36" [.CreateChannel "3f333df6-90a4-4fda-8dd3-9485d27cee36"])]

/-- The write of an accepted card fails; the card is recorded again without a write, and a restart forgets it. -/
def unsaved_card : List (RoutingEntry String) :=
  [⟨.record_open_card "hold-0001" "card-a", false, .Failed .SpoolIo⟩, ⟨.record_open_card "hold-0001" "card-a", true, .Done⟩,
    ⟨.restart, true, .Done⟩]

theorem two_case_channels_for_one_hunt :
    (¬ ∀ (file : Option RoutingState) (log : List (RoutingEntry String)) (r : CaseRouting),
      Run (Routes Uuids.plain) (.open_file file) log r →
        ∀ before e between e' after hunt_id channel channel', log = before ++ e :: (between ++ e' :: after) →
          e.ensured hunt_id channel → e'.ensured hunt_id channel' → channel = channel') ∧
    ¬ ∀ (file : Option RoutingState) (log : List (RoutingEntry String)) (r : CaseRouting),
      Run (Routes Uuids.plain) (.open_file file) log r →
        ∀ before e after k, log = before ++ e :: after → e.recorded k → (∀ e' ∈ after, e'.call.forgets ≠ some k) →
          ∃ v, r.state.reports Uuids.plain k = some v := by
  constructor
  · intro hall
    have hrun : Run (Routes Uuids.plain) (.open_file none) unsaved_route _ :=
      .cons rfl (.cons rfl (.cons rfl (.single rfl)))
    have hsame := hall none _ _ hrun [hold_routed "1b4e28ba-2fa1-41d2-883f-0016d3cca427" false (.Failed .SpoolIo)] _
      [⟨.restart, true, .Done⟩] _ [] "hunt-1" "1b4e28ba-2fa1-41d2-883f-0016d3cca427" "3f333df6-90a4-4fda-8dd3-9485d27cee36"
      rfl ⟨rfl, _, rfl⟩ ⟨rfl, _, rfl⟩
    exact absurd hsame (by decide)
  · intro hall
    have hrun : Run (Routes Uuids.plain) (.open_file none) unsaved_card _ := .cons rfl (.cons rfl (.single rfl))
    have hreported := hall none _ _ hrun [⟨.record_open_card "hold-0001" "card-a", false, .Failed .SpoolIo⟩] _
      [⟨.restart, true, .Done⟩] (.OpenCard "hold-0001") rfl ⟨rfl, rfl⟩ (fun e he => by rw [List.mem_singleton.1 he]; decide)
    obtain ⟨v, hv⟩ := hreported
    cases hv

end Ambush.Bridge

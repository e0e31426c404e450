import Ambush.Lib.Maps
import Ambush.Lib.Runs
import Ambush.Bridge.Holds
/-!
# Case routing

`CaseRouting` maps a hunt to its case channel and remembers which channels were created,
which cards the relay accepted and which alarms went out. It is a sidecar file with a copy
in memory: a call changes the copy, then writes the whole of it. A call that finds its
entry in the copy returns without a write, whether or not the file has the entry too.
-/
open Lib

namespace Ambush.Bridge

deriving instance DecidableEq for PublishStep

/-- The `uuid` crate: ids and their text. -/
structure Uuids (Uuid : Type) where
  to_string : Uuid → String
  parse_str : String → Option Uuid
  parse_to_string : ∀ id, parse_str (to_string id) = some id

theorem Uuids.to_string_inj {Uuid : Type} (u : Uuids Uuid) {a b : Uuid} (h : u.to_string a = u.to_string b) : a = b := by
  have heq := congrArg u.parse_str h
  rw [u.parse_to_string, u.parse_to_string] at heq
  exact Option.some.inj heq

inductive PromotionClause where
  | HeldAction | CorrelatedIncident | Manual
  deriving DecidableEq

inductive CasePromotionTrigger (Uuid : Type) where
  | Held (hunt_id hold_id : String)
  | Promoted (hunt_id : String) (case_id : Uuid) (clause : PromotionClause)

def CasePromotionTrigger.hunt_id {Uuid : Type} : CasePromotionTrigger Uuid → String
  | .Held hunt_id _ => hunt_id
  | .Promoted hunt_id _ _ => hunt_id

/-- What has been published for one hold. -/
structure HoldCardLedger where
  open_card : Option String := none
  terminal : Option String := none
  alarm : Bool := false

structure RoutingState where
  hunts : Map String String := .empty
  hold_cards : Map String HoldCardLedger := .empty
  lease_cards : Map String String := .empty
  created_channels : Map String Unit := .empty

/-- The sidecar: the copy in memory and the file, when there is one. -/
structure CaseRouting where
  state : RoutingState := {}
  file : Option RoutingState := none

inductive RoutingError where
  | CaseChannelConflict (hunt_id existing incoming : String)
  | SpoolIo
  deriving DecidableEq

section
variable {Uuid : Type} (u : Uuids Uuid)

/-! ## What the sidecar reports -/

namespace RoutingState

def case_for_hunt (s : RoutingState) (hunt_id : String) : Option Uuid := (s.hunts hunt_id).bind u.parse_str

def channel_is_created (s : RoutingState) (channel : Uuid) : Bool := (s.created_channels (u.to_string channel)).isSome

def lease_card_for (s : RoutingState) (lease_id : String) : Option String := s.lease_cards lease_id

def open_card_for_hold (s : RoutingState) (hold_id : String) : Option String := (s.hold_cards hold_id).bind (·.open_card)

def terminal_card_for_hold (s : RoutingState) (hold_id : String) : Option String := (s.hold_cards hold_id).bind (·.terminal)

def alarm_published_for_hold (s : RoutingState) (hold_id : String) : Bool := (s.hold_cards hold_id).any (·.alarm)

/-- `hold_cards.entry(hold_id).or_default()`. -/
def ledger (s : RoutingState) (hold_id : String) : HoldCardLedger := (s.hold_cards hold_id).getD {}

def amend (s : RoutingState) (hold_id : String) (f : HoldCardLedger → HoldCardLedger) : RoutingState :=
  { s with hold_cards := s.hold_cards.insert hold_id (f (s.ledger hold_id)) }

end RoutingState

/-! ## The calls -/

namespace CaseRouting

/-- What the file gives when it is opened. -/
def saved (r : CaseRouting) : RoutingState := r.file.getD {}

/-- `CaseRouting::open` on a file of the sidecar's own, or on none. -/
def open_file (file : Option RoutingState) : CaseRouting := ⟨file.getD {}, file⟩

def persist (r : CaseRouting) (writes : Bool) : CaseRouting × Except RoutingError Unit :=
  if writes then ({ r with file := some r.state }, .ok ()) else (r, .error .SpoolIo)

def case_channel_steps (channel : Uuid) (operators : List String) : List PublishStep :=
  .CreateChannel (u.to_string channel) :: operators.map (.AddMember (u.to_string channel))

/-- `minted` is what `Uuid::new_v4` gives. -/
def ensure_case_channel [DecidableEq Uuid] (r : CaseRouting) (trigger : CasePromotionTrigger Uuid) (operators : List String)
    (minted : Uuid) (writes : Bool) : CaseRouting × Except RoutingError (Uuid × List PublishStep) :=
  let planned (channel : Uuid) := (channel, case_channel_steps u channel operators)
  let routed (channel : Uuid) :=
    let (r, written) := { r with
      state := { r.state with hunts := r.state.hunts.insert trigger.hunt_id (u.to_string channel) } }.persist writes
    (r, written.map (fun _ => planned channel))
  let again (existing : Uuid) :=
    (r, .ok (if r.state.channel_is_created u existing then (existing, []) else planned existing))
  match trigger, r.state.case_for_hunt u trigger.hunt_id with
  | .Promoted hunt_id case_id _, some existing =>
    if case_id ≠ existing then
      (r, .error (.CaseChannelConflict hunt_id (u.to_string existing) (u.to_string case_id)))
    else again existing
  | .Held .., some existing => again existing
  | .Held .., none => routed minted
  | .Promoted _ case_id _, none => routed case_id

def record_lease_card (r : CaseRouting) (lease_id event_id : String) (writes : Bool) :
    CaseRouting × Except RoutingError Unit :=
  if (r.state.lease_cards lease_id).isSome then (r, .ok ())
  else { r with state := { r.state with lease_cards := r.state.lease_cards.insert lease_id event_id } }.persist writes

def record_channel_created (r : CaseRouting) (channel : Uuid) (writes : Bool) : CaseRouting × Except RoutingError Unit :=
  if r.state.channel_is_created u channel then (r, .ok ())
  else { r with state := { r.state with
    created_channels := r.state.created_channels.insert (u.to_string channel) () } }.persist writes

def forget_channel_created (r : CaseRouting) (channel : Uuid) (writes : Bool) : CaseRouting × Except RoutingError Unit :=
  if r.state.channel_is_created u channel then
    { r with state := { r.state with
      created_channels := r.state.created_channels.remove (u.to_string channel) } }.persist writes
  else (r, .ok ())

/-- The three calls on a hold's ledger: an entry that is there stays. -/
def record_ledger (r : CaseRouting) (hold_id : String) (there : HoldCardLedger → Bool)
    (set : HoldCardLedger → HoldCardLedger) (writes : Bool) : CaseRouting × Except RoutingError Unit :=
  if there (r.state.ledger hold_id) then (r, .ok ())
  else { r with state := r.state.amend hold_id set }.persist writes

def record_alarm_published (r : CaseRouting) (hold_id : String) (writes : Bool) : CaseRouting × Except RoutingError Unit :=
  r.record_ledger hold_id (·.alarm) ({ · with alarm := true }) writes

def record_open_card (r : CaseRouting) (hold_id event_id : String) (writes : Bool) : CaseRouting × Except RoutingError Unit :=
  r.record_ledger hold_id (·.open_card.isSome) ({ · with open_card := some event_id }) writes

def record_terminal_card (r : CaseRouting) (hold_id event_id : String) (writes : Bool) :
    CaseRouting × Except RoutingError Unit :=
  r.record_ledger hold_id (·.terminal.isSome) ({ · with terminal := some event_id }) writes

end CaseRouting
end

/-! ## One entry for each key -/

/-- What a call can find or leave in the sidecar. -/
inductive RoutingKey (Uuid : Type) where
  | Hunt (hunt_id : String)
  | Created (channel : Uuid)
  | Lease (lease_id : String)
  | OpenCard (hold_id : String)
  | TerminalCard (hold_id : String)
  | Alarm (hold_id : String)
  deriving DecidableEq

section
variable {Uuid : Type} (u : Uuids Uuid)

/-- What the sidecar reports under a key: a channel, an event id, or that it has the entry. -/
def RoutingState.reports (s : RoutingState) : RoutingKey Uuid → Option String
  | .Hunt hunt_id => (s.case_for_hunt u hunt_id).map u.to_string
  | .Created channel => if s.channel_is_created u channel then some (u.to_string channel) else none
  | .Lease lease_id => s.lease_card_for lease_id
  | .OpenCard hold_id => s.open_card_for_hold hold_id
  | .TerminalCard hold_id => s.terminal_card_for_hold hold_id
  | .Alarm hold_id => if s.alarm_published_for_hold hold_id then some hold_id else none

/-- A state that differs from another under one key only. -/
structure RoutingState.Sets (s s' : RoutingState) (k : RoutingKey Uuid) (v : Option String) : Prop where
  here : s'.reports u k = v
  elsewhere : ∀ k', k' ≠ k → s'.reports u k' = s.reports u k'

namespace RoutingState
variable {u}

theorem sets_hunt (s : RoutingState) (hunt_id : String) (channel : Uuid) :
    s.Sets u { s with hunts := s.hunts.insert hunt_id (u.to_string channel) } (.Hunt hunt_id) (some (u.to_string channel)) where
  here := by simp [reports, case_for_hunt, u.parse_to_string]
  elsewhere := by
    intro k hk
    cases k with
    | Hunt hunt =>
      have hne : hunt ≠ hunt_id := fun he => hk (by rw [he])
      simp only [reports, case_for_hunt, Map.insert_ne _ _ _ _ hne]
    | _ => rfl

theorem sets_lease (s : RoutingState) (lease_id event_id : String) :
    s.Sets u { s with lease_cards := s.lease_cards.insert lease_id event_id } (.Lease lease_id) (some event_id) where
  here := by simp [reports, lease_card_for]
  elsewhere := by
    intro k hk
    cases k with
    | Lease lease =>
      have hne : lease ≠ lease_id := fun he => hk (by rw [he])
      simp only [reports, lease_card_for, Map.insert_ne _ _ _ _ hne]
    | _ => rfl

theorem sets_created (s : RoutingState) (channel : Uuid) :
    s.Sets u { s with created_channels := s.created_channels.insert (u.to_string channel) () } (.Created channel)
      (some (u.to_string channel)) where
  here := by simp [reports, channel_is_created]
  elsewhere := by
    intro k hk
    cases k with
    | Created other =>
      have hne : u.to_string other ≠ u.to_string channel := fun he => hk (by rw [u.to_string_inj he])
      have hsame : channel_is_created u { s with created_channels := s.created_channels.insert (u.to_string channel) () } other = channel_is_created u s other :=
        congrArg Option.isSome (Map.insert_ne _ _ _ _ hne)
      rw [reports, reports, hsame]
    | _ => rfl

theorem sets_forgotten (s : RoutingState) (channel : Uuid) :
    s.Sets u { s with created_channels := s.created_channels.remove (u.to_string channel) } (.Created channel) none where
  here := by simp [reports, channel_is_created]
  elsewhere := by
    intro k hk
    cases k with
    | Created other =>
      have hne : u.to_string other ≠ u.to_string channel := fun he => hk (by rw [u.to_string_inj he])
      have hsame : channel_is_created u { s with created_channels := s.created_channels.remove (u.to_string channel) } other = channel_is_created u s other :=
        congrArg Option.isSome (Map.remove_ne _ _ _ hne)
      rw [reports, reports, hsame]
    | _ => rfl

theorem open_card_for_hold_eq (s : RoutingState) (hold_id : String) : s.open_card_for_hold hold_id = (s.ledger hold_id).open_card := by
  unfold open_card_for_hold ledger
  cases s.hold_cards hold_id <;> rfl

theorem terminal_card_for_hold_eq (s : RoutingState) (hold_id : String) :
    s.terminal_card_for_hold hold_id = (s.ledger hold_id).terminal := by
  unfold terminal_card_for_hold ledger
  cases s.hold_cards hold_id <;> rfl

theorem alarm_published_for_hold_eq (s : RoutingState) (hold_id : String) :
    s.alarm_published_for_hold hold_id = (s.ledger hold_id).alarm := by
  unfold alarm_published_for_hold ledger
  cases s.hold_cards hold_id <;> rfl

@[simp] theorem ledger_amend_self (s : RoutingState) (hold_id : String) (f : HoldCardLedger → HoldCardLedger) :
    (s.amend hold_id f).ledger hold_id = f (s.ledger hold_id) := by
  simp [ledger, amend]

theorem ledger_amend_ne (s : RoutingState) {hold_id hold : String} (f : HoldCardLedger → HoldCardLedger) (h : hold ≠ hold_id) :
    (s.amend hold_id f).ledger hold = s.ledger hold := by
  simp only [ledger, amend, Map.insert_ne _ _ _ _ h]

/-- A call on one field of a hold's ledger. -/
theorem sets_amend (s : RoutingState) (hold_id : String) (f : HoldCardLedger → HoldCardLedger) (k : RoutingKey Uuid)
    (hopen : k = .OpenCard hold_id ∨ ∀ ledger, (f ledger).open_card = ledger.open_card)
    (hterminal : k = .TerminalCard hold_id ∨ ∀ ledger, (f ledger).terminal = ledger.terminal)
    (halarm : k = .Alarm hold_id ∨ ∀ ledger, (f ledger).alarm = ledger.alarm) :
    s.Sets u (s.amend hold_id f) k ((s.amend hold_id f).reports u k) where
  here := rfl
  elsewhere := by
    intro k' hk
    cases k' with
    | OpenCard hold =>
      simp only [reports, open_card_for_hold_eq]
      by_cases he : hold = hold_id
      · subst he
        rw [ledger_amend_self, hopen.resolve_left hk.symm]
      · rw [ledger_amend_ne s f he]
    | TerminalCard hold =>
      simp only [reports, terminal_card_for_hold_eq]
      by_cases he : hold = hold_id
      · subst he
        rw [ledger_amend_self, hterminal.resolve_left hk.symm]
      · rw [ledger_amend_ne s f he]
    | Alarm hold =>
      simp only [reports, alarm_published_for_hold_eq]
      by_cases he : hold = hold_id
      · subst he
        rw [ledger_amend_self, halarm.resolve_left hk.symm]
      · rw [ledger_amend_ne s f he]
    | _ => rfl

theorem sets_open (s : RoutingState) (hold_id event_id : String) :
    s.Sets u (s.amend hold_id ({ · with open_card := some event_id })) (.OpenCard hold_id) (some event_id) := by
  have h := s.sets_amend (u := u) hold_id ({ · with open_card := some event_id }) (.OpenCard hold_id) (.inl rfl)
    (.inr fun _ => rfl) (.inr fun _ => rfl)
  simpa only [reports, open_card_for_hold_eq, ledger_amend_self] using h

theorem sets_terminal (s : RoutingState) (hold_id event_id : String) :
    s.Sets u (s.amend hold_id ({ · with terminal := some event_id })) (.TerminalCard hold_id) (some event_id) := by
  have h := s.sets_amend (u := u) hold_id ({ · with terminal := some event_id }) (.TerminalCard hold_id)
    (.inr fun _ => rfl) (.inl rfl) (.inr fun _ => rfl)
  simpa only [reports, terminal_card_for_hold_eq, ledger_amend_self] using h

theorem sets_alarm (s : RoutingState) (hold_id : String) :
    s.Sets u (s.amend hold_id ({ · with alarm := true })) (.Alarm hold_id) (some hold_id) := by
  have h := s.sets_amend (u := u) hold_id ({ · with alarm := true }) (.Alarm hold_id)
    (.inr fun _ => rfl) (.inr fun _ => rfl) (.inl rfl)
  simpa only [reports, alarm_published_for_hold_eq, ledger_amend_self, if_true] using h

end RoutingState
end

/-! ## What a call does -/

/-- A call on one key: it finds an entry and leaves all as it is, or it has none, makes one in
memory and writes the file. -/
inductive Keyed {Uuid α : Type} (u : Uuids Uuid) (r : CaseRouting) (k : RoutingKey Uuid) (writes : Bool) :
    CaseRouting × Except RoutingError α → Prop
  | found {v : String} {answer : Except RoutingError α} (here : r.state.reports u k = some v) : Keyed u r k writes (r, answer)
  | wrote {v : String} {s : RoutingState} {a : α} (none_here : r.state.reports u k = none) (sets : r.state.Sets u s k (some v))
      (hw : writes = true) : Keyed u r k writes (⟨s, some s⟩, .ok a)
  | unsaved {v : String} {s : RoutingState} (none_here : r.state.reports u k = none) (sets : r.state.Sets u s k (some v))
      (hw : writes = false) : Keyed u r k writes (⟨s, r.file⟩, .error .SpoolIo)

namespace CaseRouting
variable {Uuid : Type} {u : Uuids Uuid} {k : RoutingKey Uuid} {v : String}

theorem keyed_persist {r : CaseRouting} {s : RoutingState} (hnone : r.state.reports u k = none)
    (hsets : r.state.Sets u s k (some v)) (writes : Bool) : Keyed u r k writes ({ r with state := s }.persist writes) := by
  cases writes with
  | true => exact .wrote hnone hsets rfl
  | false => exact .unsaved hnone hsets rfl

theorem record_lease_card_spec (r : CaseRouting) (lease_id event_id : String) (writes : Bool) :
    Keyed u r (.Lease lease_id) writes (r.record_lease_card lease_id event_id writes) := by
  unfold record_lease_card
  split
  · next hin =>
    obtain ⟨v, hv⟩ := Option.isSome_iff_exists.1 hin
    exact .found hv
  · next hout =>
    have hnone : r.state.reports u (.Lease lease_id) = none := Option.not_isSome_iff_eq_none.1 hout
    exact keyed_persist hnone (r.state.sets_lease lease_id event_id) writes

theorem record_channel_created_spec (r : CaseRouting) (channel : Uuid) (writes : Bool) :
    Keyed u r (.Created channel) writes (r.record_channel_created u channel writes) := by
  unfold record_channel_created
  split
  · next hin => exact .found (by rw [RoutingState.reports, if_pos hin])
  · next hout => exact keyed_persist (by rw [RoutingState.reports, if_neg hout]) (r.state.sets_created channel) writes

theorem record_open_card_spec (r : CaseRouting) (hold_id event_id : String) (writes : Bool) :
    Keyed u r (.OpenCard hold_id) writes (r.record_open_card hold_id event_id writes) := by
  have heq : r.state.reports u (.OpenCard hold_id) = (r.state.ledger hold_id).open_card := r.state.open_card_for_hold_eq hold_id
  unfold record_open_card record_ledger
  split
  · next hin =>
    obtain ⟨v, hv⟩ := Option.isSome_iff_exists.1 hin
    exact .found (heq.trans hv)
  · next hout =>
    exact keyed_persist (heq.trans (Option.not_isSome_iff_eq_none.1 hout)) (r.state.sets_open hold_id event_id) writes

theorem record_terminal_card_spec (r : CaseRouting) (hold_id event_id : String) (writes : Bool) :
    Keyed u r (.TerminalCard hold_id) writes (r.record_terminal_card hold_id event_id writes) := by
  have heq : r.state.reports u (.TerminalCard hold_id) = (r.state.ledger hold_id).terminal :=
    r.state.terminal_card_for_hold_eq hold_id
  unfold record_terminal_card record_ledger
  split
  · next hin =>
    obtain ⟨v, hv⟩ := Option.isSome_iff_exists.1 hin
    exact .found (heq.trans hv)
  · next hout =>
    exact keyed_persist (heq.trans (Option.not_isSome_iff_eq_none.1 hout)) (r.state.sets_terminal hold_id event_id) writes

theorem record_alarm_published_spec (r : CaseRouting) (hold_id : String) (writes : Bool) :
    Keyed u r (.Alarm hold_id) writes (r.record_alarm_published hold_id writes) := by
  have heq : r.state.reports u (.Alarm hold_id) = if (r.state.ledger hold_id).alarm then some hold_id else none := by
    rw [RoutingState.reports, r.state.alarm_published_for_hold_eq]
  unfold record_alarm_published record_ledger
  split
  · next hin => exact .found (heq.trans (if_pos hin))
  · next hout => exact keyed_persist (heq.trans (if_neg hout)) (r.state.sets_alarm hold_id) writes

theorem forget_channel_created_spec (r : CaseRouting) (channel : Uuid) (writes : Bool) :
    (r.forget_channel_created u channel writes).1 = r ∨
      ∃ s, r.state.Sets u s (.Created channel) none ∧
        (r.forget_channel_created u channel writes).1 = ⟨s, if writes then some s else r.file⟩ := by
  unfold forget_channel_created
  split
  · refine .inr ⟨_, r.state.sets_forgotten channel, ?_⟩
    cases writes <;> rfl
  · exact .inl rfl

variable [DecidableEq Uuid]

/-- Two callers of one hunt get what the sidecar reports for it. -/
theorem ensure_case_channel_spec (r : CaseRouting) (trigger : CasePromotionTrigger Uuid) (operators : List String) (minted : Uuid)
    (writes : Bool) :
    Keyed u r (.Hunt trigger.hunt_id) writes (r.ensure_case_channel u trigger operators minted writes) ∧
      ∀ channel steps, (r.ensure_case_channel u trigger operators minted writes).2 = .ok (channel, steps) →
        (r.ensure_case_channel u trigger operators minted writes).1.state.reports u (.Hunt trigger.hunt_id) =
          some (u.to_string channel) := by
  have hreports : ∀ {existing : Option Uuid}, r.state.case_for_hunt u trigger.hunt_id = existing →
      r.state.reports u (.Hunt trigger.hunt_id) = existing.map u.to_string := fun he => by rw [RoutingState.reports, he]
  -- An entry is found: the channel that is there is returned, with its steps or without.
  have hagain : ∀ {existing : Uuid} {steps : List PublishStep}, r.state.case_for_hunt u trigger.hunt_id = some existing →
      ∀ channel steps', (Except.ok (existing, steps) : Except RoutingError _) = .ok (channel, steps') →
        r.state.reports u (.Hunt trigger.hunt_id) = some (u.to_string channel) := by
    intro existing steps he channel steps' hok
    obtain ⟨rfl, -⟩ := Prod.mk.inj (Except.ok.inj hok)
    exact hreports he
  have hnew : ∀ (channel : Uuid), r.state.case_for_hunt u trigger.hunt_id = none →
      let written := { r with
        state := { r.state with hunts := r.state.hunts.insert trigger.hunt_id (u.to_string channel) } }.persist writes
      let answer := written.2.map (fun _ => (channel, case_channel_steps u channel operators))
      Keyed u r (.Hunt trigger.hunt_id) writes (written.1, answer) ∧
        ∀ channel' steps, answer = .ok (channel', steps) →
          written.1.state.reports u (.Hunt trigger.hunt_id) = some (u.to_string channel') := by
    intro channel he
    have hsets := r.state.sets_hunt (u := u) trigger.hunt_id channel
    cases writes with
    | true =>
      refine ⟨.wrote (hreports he) hsets rfl, fun channel' steps hok => ?_⟩
      obtain ⟨rfl, -⟩ := Prod.mk.inj (Except.ok.inj hok)
      exact hsets.here
    | false => exact ⟨.unsaved (hreports he) hsets rfl, fun channel' steps hok => by cases hok⟩
  cases trigger with
  | Held hunt_id hold_id =>
    cases he : r.state.case_for_hunt u hunt_id with
    | some existing =>
      simp only [ensure_case_channel, CasePromotionTrigger.hunt_id, he]
      refine ⟨.found (hreports he), fun channel steps hok => ?_⟩
      split at hok <;> exact hagain he channel steps hok
    | none =>
      simp only [ensure_case_channel, CasePromotionTrigger.hunt_id, he]
      exact hnew minted he
  | Promoted hunt_id case_id clause =>
    cases he : r.state.case_for_hunt u hunt_id with
    | some existing =>
      simp only [ensure_case_channel, CasePromotionTrigger.hunt_id, he]
      split
      · exact ⟨.found (hreports he), fun channel steps hok => by cases hok⟩
      · refine ⟨.found (hreports he), fun channel steps hok => ?_⟩
        split at hok <;> exact hagain he channel steps hok
    | none =>
      simp only [ensure_case_channel, CasePromotionTrigger.hunt_id, he]
      exact hnew case_id he

/-- The steps are those that make the channel, or none. -/
theorem ensure_case_channel_steps (r : CaseRouting) (trigger : CasePromotionTrigger Uuid) (operators : List String) (minted : Uuid)
    (writes : Bool) {channel : Uuid} {steps : List PublishStep}
    (h : (r.ensure_case_channel u trigger operators minted writes).2 = .ok (channel, steps)) :
    steps = [] ∨ steps = case_channel_steps u channel operators := by
  have hagain : ∀ {existing : Uuid},
      (Except.ok (if r.state.channel_is_created u existing then (existing, [])
        else (existing, case_channel_steps u existing operators)) : Except RoutingError _) = .ok (channel, steps) →
      steps = [] ∨ steps = case_channel_steps u channel operators := by
    intro existing hok
    split at hok <;> obtain ⟨rfl, rfl⟩ := Prod.mk.inj (Except.ok.inj hok)
    · exact .inl rfl
    · exact .inr rfl
  have hnew : ∀ {new : Uuid} {written : Except RoutingError Unit},
      written.map (fun _ => (new, case_channel_steps u new operators)) = .ok (channel, steps) →
      steps = [] ∨ steps = case_channel_steps u channel operators := by
    intro new written hok
    cases written with
    | error e => cases hok
    | ok _ =>
      obtain ⟨rfl, rfl⟩ := Prod.mk.inj (Except.ok.inj hok)
      exact .inr rfl
  cases trigger with
  | Held hunt_id hold_id =>
    cases he : r.state.case_for_hunt u hunt_id with
    | some existing =>
      simp only [ensure_case_channel, CasePromotionTrigger.hunt_id, he] at h
      exact hagain h
    | none =>
      simp only [ensure_case_channel, CasePromotionTrigger.hunt_id, he] at h
      exact hnew h
  | Promoted hunt_id case_id clause =>
    cases he : r.state.case_for_hunt u hunt_id with
    | some existing =>
      simp only [ensure_case_channel, CasePromotionTrigger.hunt_id, he] at h
      split at h
      · cases h
      · exact hagain h
    | none =>
      simp only [ensure_case_channel, CasePromotionTrigger.hunt_id, he] at h
      exact hnew h

end CaseRouting
end Ambush.Bridge

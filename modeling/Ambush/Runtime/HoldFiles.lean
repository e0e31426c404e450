import Ambush.Lib.Sql
import Ambush.Runtime.HeldAction
/-!
# The hold store's directory

`FileHeldActionStore` keeps a document per hold beside the map it answers from. A write goes
to a temporary file that is then renamed, so that a write which fails leaves the document as it
was. `create` writes before it changes the map; every other operation changes the map first.
-/
open Lib

namespace Ambush.Runtime

/-- The directory of a store: the documents `hold_id.json`, and the ids whose
`hold_id.json.tmp` was left behind. -/
structure Directory where
  documents : Table HeldAction.hold_id
  temps : List String := []

/-- What comes of a write: the temporary file could not be written, or not be renamed. -/
inductive Written where
  | done | write_failed (left : Bool) | rename_failed
  deriving DecidableEq

structure FileHeldActionStore where
  directory : Directory
  holds : Holds

/-- The map as `open` builds it. No two documents have one id. -/
def Directory.load (directory : Directory) : Holds := directory.documents.rows.foldl Holds.insert []

def FileHeldActionStore.open (directory : Directory) : FileHeldActionStore := ⟨directory, directory.load⟩

/-- The store answers from what reopening the directory would load. -/
def FileHeldActionStore.Synced (store : FileHeldActionStore) : Prop := store.holds = store.directory.load

section
variable (writes : HeldAction → Written)

def Directory.persist (directory : Directory) (hold : HeldAction) : Directory × Except HeldActionStoreError Unit :=
  match writes hold with
  | .done => (⟨directory.documents.upsert hold, directory.temps.erase hold.hold_id⟩, .ok ())
  | .write_failed left =>
    ({ directory with temps := if left then directory.temps.insert hold.hold_id else directory.temps },
      .error (.Io hold.hold_id))
  | .rename_failed =>
    ({ directory with temps := directory.temps.insert hold.hold_id }, .error (.Io hold.hold_id))

namespace FileHeldActionStore
variable (store : FileHeldActionStore)

/-- `persist`, with the map as it is by then. -/
def persist (holds : Holds) (hold : HeldAction) : FileHeldActionStore × Except HeldActionStoreError Unit :=
  (⟨(store.directory.persist writes hold).1, holds⟩, (store.directory.persist writes hold).2)

def create (hold : HeldAction) : FileHeldActionStore × Except HeldActionStoreError Unit :=
  if (store.holds.get hold.hold_id).isSome then (store, .error (.Duplicate hold.hold_id))
  else match store.persist writes store.holds hold with
    | (store, .error e) => (store, .error e)
    | (store, .ok ()) => ({ store with holds := store.holds.insert hold }, .ok ())

def mutate (hold_id : String) (apply : HeldAction → HeldAction) :
    FileHeldActionStore × Except HeldActionStoreError Unit :=
  match store.holds.get hold_id with
  | none => (store, .error (.NotFound hold_id))
  | some hold => store.persist writes (store.holds.update hold_id apply) (apply hold)

def mark_case_channel (hold_id case_channel : String) : FileHeldActionStore × Except HeldActionStoreError Unit :=
  store.mutate writes hold_id (fun hold => { hold with case_channel := some case_channel })

def mark_notified (hold_id : String) (at_ms : Int) (notice_event_id : String) (card_event_id : Option String) :
    FileHeldActionStore × Except HeldActionStoreError Unit :=
  store.mutate writes hold_id (fun hold => { hold with
    notified_at_ms := some at_ms
    notice_event_id := some notice_event_id
    card_event_id
    state := if hold.state = .Created then .Notified else hold.state })

def mark_armed (hold_id : String) : FileHeldActionStore × Except HeldActionStoreError Unit :=
  store.mutate writes hold_id (fun hold => { hold with
    state := if hold.state = .Notified then .Armed else hold.state })

def begin_decision (hold_id intent_event_id : String) (cas_instant_ms : Int) :
    FileHeldActionStore × Except HeldActionStoreError HeldAction :=
  match store.holds.get hold_id with
  | none => (store, .error (.NotFound hold_id))
  | some hold =>
    match transitions.begin hold intent_event_id cas_instant_ms with
    | none => (store, .error (.NotDecidable hold_id hold))
    | some claimed =>
      let written := store.persist writes (store.holds.update hold_id (fun _ => claimed)) claimed
      (written.1, written.2.map fun _ => claimed)

def abandon_decision (hold_id intent_event_id : String) : FileHeldActionStore × Except HeldActionStoreError Unit :=
  match store.holds.get hold_id with
  | none => (store, .ok ())
  | some hold =>
    match transitions.abandon hold intent_event_id with
    | (_, false) => (store, .ok ())
    | (abandoned, true) => store.persist writes (store.holds.update hold_id (fun _ => abandoned)) abandoned

def complete_decision (hold_id : String) (decision : HoldDecisionRecord) (state : HoldState) :
    FileHeldActionStore × Except HeldActionStoreError Unit :=
  store.mutate writes hold_id (fun hold => transitions.complete hold decision state)

/-- The loop of `expire_due` and `fail_stalled_decisions` over the holds that are left; what it
changed before a write that fails stays changed. -/
def sweep (apply : HeldAction → HeldAction × Bool) :
    Holds → FileHeldActionStore → FileHeldActionStore × Except HeldActionStoreError (List HeldAction)
  | [], store => (store, .ok [])
  | hold :: rest, store =>
    match apply hold with
    | (_, false) => sweep apply rest store
    | (changed, true) =>
      match store.persist writes (store.holds.update hold.hold_id (fun _ => changed)) changed with
      | (store, .error e) => (store, .error e)
      | (store, .ok ()) => ((sweep apply rest store).1, (sweep apply rest store).2.map (changed :: ·))

def expire_due (now_ms : Int) : FileHeldActionStore × Except HeldActionStoreError (List HeldAction) :=
  sweep writes (fun hold => transitions.expire hold now_ms) store.holds store

def fail_stalled_decisions (now_ms : Int) (stall_ms : Nat) :
    FileHeldActionStore × Except HeldActionStoreError (List HeldAction) :=
  sweep writes (fun hold => transitions.fail_stalled hold now_ms stall_ms) store.holds store

end FileHeldActionStore
end

/-! ## Calls -/

inductive HoldCall where
  | create (hold : HeldAction)
  | mark_case_channel (hold_id case_channel : String)
  | mark_notified (hold_id : String) (at_ms : Int) (notice_event_id : String) (card_event_id : Option String)
  | mark_armed (hold_id : String)
  | begin_decision (hold_id intent_event_id : String) (cas_instant_ms : Int)
  | abandon_decision (hold_id intent_event_id : String)
  | complete_decision (hold_id : String) (decision : HoldDecisionRecord) (state : HoldState)
  | expire_due (now_ms : Int)
  | fail_stalled_decisions (now_ms : Int) (stall_ms : Nat)

/-- What a call leaves, and whether it failed. -/
def FileHeldActionStore.exec (writes : HeldAction → Written) (store : FileHeldActionStore) :
    HoldCall → FileHeldActionStore × Except HeldActionStoreError Unit
  | .create hold => store.create writes hold
  | .mark_case_channel hold_id case_channel => store.mark_case_channel writes hold_id case_channel
  | .mark_notified hold_id at_ms notice_event_id card_event_id =>
    store.mark_notified writes hold_id at_ms notice_event_id card_event_id
  | .mark_armed hold_id => store.mark_armed writes hold_id
  | .begin_decision hold_id intent_event_id cas_instant_ms =>
    let r := store.begin_decision writes hold_id intent_event_id cas_instant_ms
    (r.1, r.2.map fun _ => ())
  | .abandon_decision hold_id intent_event_id => store.abandon_decision writes hold_id intent_event_id
  | .complete_decision hold_id decision state => store.complete_decision writes hold_id decision state
  | .expire_due now_ms =>
    let r := store.expire_due writes now_ms
    (r.1, r.2.map fun _ => ())
  | .fail_stalled_decisions now_ms stall_ms =>
    let r := store.fail_stalled_decisions writes now_ms stall_ms
    (r.1, r.2.map fun _ => ())

/-- The call returns an error because a document could not be persisted. -/
def WriteFailed {α : Type} (r : Except HeldActionStoreError α) : Prop := ∃ hold_id, r = .error (.Io hold_id)

/-- The call asks for nothing that the hold does not have: it creates one, or it marks or
completes one with what is already there. -/
def HoldCall.AsItIs (holds : Holds) : HoldCall → Prop
  | .create _ => True
  | .mark_case_channel hold_id case_channel =>
    ∀ hold, holds.get hold_id = some hold → hold.case_channel = some case_channel
  | .mark_notified hold_id at_ms notice_event_id card_event_id =>
    ∀ hold, holds.get hold_id = some hold → hold.notified_at_ms = some at_ms ∧
      hold.notice_event_id = some notice_event_id ∧ hold.card_event_id = card_event_id ∧ hold.state ≠ .Created
  | .mark_armed hold_id => ∀ hold, holds.get hold_id = some hold → hold.state ≠ .Notified
  | .complete_decision hold_id decision state =>
    ∀ hold, holds.get hold_id = some hold → hold.state = state ∧ hold.decision = some decision ∧ hold.prior_state = none
  | .begin_decision .. | .abandon_decision .. | .expire_due .. | .fail_stalled_decisions .. => False

/-- The same call of the map alone. -/
def Holds.exec (persists : HeldAction → Bool) (holds : Holds) : HoldCall → Holds × Except HeldActionStoreError Unit
  | .create hold => Runtime.create persists holds hold
  | .mark_case_channel hold_id case_channel => Runtime.mark_case_channel persists holds hold_id case_channel
  | .mark_notified hold_id at_ms notice_event_id card_event_id =>
    Runtime.mark_notified persists holds hold_id at_ms notice_event_id card_event_id
  | .mark_armed hold_id => Runtime.mark_armed persists holds hold_id
  | .begin_decision hold_id intent_event_id cas_instant_ms =>
    let r := Runtime.begin_decision persists holds hold_id intent_event_id cas_instant_ms
    (r.1, r.2.map fun _ => ())
  | .abandon_decision hold_id intent_event_id => Runtime.abandon_decision persists holds hold_id intent_event_id
  | .complete_decision hold_id decision state => Runtime.complete_decision persists holds hold_id decision state
  | .expire_due now_ms =>
    let r := Runtime.expire_due persists holds now_ms
    (r.1, r.2.map fun _ => ())
  | .fail_stalled_decisions now_ms stall_ms =>
    let r := Runtime.fail_stalled_decisions persists holds now_ms stall_ms
    (r.1, r.2.map fun _ => ())

/-! ## What a write leaves -/

namespace Directory
variable {directory : Directory} {writes : HeldAction → Written} {hold : HeldAction}

theorem load_perm (directory : Directory) : directory.load.Perm directory.documents.rows := by
  have hperm : (directory.documents.rows.foldl Holds.insert []).Perm (directory.documents.rows ++ []) :=
    foldl_insertBy_perm directory.documents.rows []
  rwa [List.append_nil] at hperm

theorem load_nodup (directory : Directory) : (directory.load.map HeldAction.hold_id).Nodup :=
  (directory.load_perm.map HeldAction.hold_id).nodup_iff.2 directory.documents.nodup

theorem load_get_isSome {hold_id : String} :
    (directory.load.get hold_id).isSome ↔ hold_id ∈ directory.documents.rows.map HeldAction.hold_id :=
  lookupBy_isSome.trans (directory.load_perm.map HeldAction.hold_id).mem_iff

/-- A document that is there is replaced. -/
theorem load_upsert_of_some (h : (directory.load.get hold.hold_id).isSome) (temps : List String) :
    (Directory.mk (directory.documents.upsert hold) temps).load = directory.load.update hold.hold_id (fun _ => hold) := by
  have hmem := load_get_isSome.1 h
  have hrow : directory.documents.upsert hold = directory.documents.replace hold := by
    rw [Table.upsert, Table.insert, dif_pos hmem, Option.getD_none]
  have hkey : ∀ x : HeldAction, (if x.hold_id = hold.hold_id then hold else x).hold_id = x.hold_id := by
    intro x
    split
    case isTrue he => exact he.symm
    case isFalse => rfl
  rw [load, hrow]
  exact foldl_insertBy_map hkey directory.documents.rows []

theorem load_upsert_of_none (h : directory.load.get hold.hold_id = none) (temps : List String) :
    (Directory.mk (directory.documents.upsert hold) temps).load = directory.load.insert hold := by
  have hmem : hold.hold_id ∉ directory.documents.rows.map HeldAction.hold_id := by
    rw [← load_get_isSome, h]
    simp
  have hrow : (directory.documents.upsert hold).rows = directory.documents.rows ++ [hold] := by
    rw [Table.upsert, Table.insert, dif_neg hmem, Option.getD_some]
  rw [load, hrow, List.foldl_append]
  rfl

/-- A write is done, or it fails and no document changes. -/
theorem persist_cases (directory : Directory) (writes : HeldAction → Written) (hold : HeldAction) :
    ((directory.persist writes hold).2 = .ok () ∧
      ∃ temps, (directory.persist writes hold).1 = ⟨directory.documents.upsert hold, temps⟩) ∨
    ((directory.persist writes hold).2 = .error (.Io hold.hold_id) ∧
      (directory.persist writes hold).1.load = directory.load) := by
  rw [persist]
  cases writes hold with
  | done => exact .inl ⟨rfl, _, rfl⟩
  | write_failed left => exact .inr ⟨rfl, rfl⟩
  | rename_failed => exact .inr ⟨rfl, rfl⟩

end Directory

/-! ## What a transition changes -/

theorem begin_changes {hold claimed : HeldAction} {intent_event_id : String} {cas_instant_ms : Int}
    (h : transitions.begin hold intent_event_id cas_instant_ms = some claimed) :
    claimed.hold_id = hold.hold_id ∧ claimed ≠ hold := by
  unfold transitions.begin HeldAction.assert_decidable at h
  split at h
  · cases h
  · next hd =>
    obtain rfl := Option.some.inj h
    refine ⟨rfl, fun he => ?_⟩
    have hstate : HoldState.Deciding = hold.state := congrArg HeldAction.state he
    rw [if_pos hstate.symm] at hd
    cases hd

theorem abandon_changes {hold abandoned : HeldAction} {intent_event_id : String}
    (h : transitions.abandon hold intent_event_id = (abandoned, true)) :
    abandoned.hold_id = hold.hold_id ∧ abandoned ≠ hold := by
  unfold transitions.abandon at h
  split at h
  · cases h
  · next hd =>
    obtain ⟨rfl, -⟩ := Prod.mk.inj h
    refine ⟨rfl, fun he => ?_⟩
    have hintent : (none : Option String) = hold.deciding_intent_event_id :=
      congrArg HeldAction.deciding_intent_event_id he
    simp [← hintent] at hd

theorem expire_changes {hold expired : HeldAction} {now_ms : Int} (h : transitions.expire hold now_ms = (expired, true)) :
    expired.hold_id = hold.hold_id ∧ expired ≠ hold := by
  unfold transitions.expire at h
  split at h
  · next hopen =>
    obtain ⟨rfl, -⟩ := Prod.mk.inj h
    refine ⟨rfl, fun he => ?_⟩
    have hstate : HoldState.Expired = hold.state := congrArg HeldAction.state he
    simp [← hstate, HoldState.is_open] at hopen
  · cases h

theorem fail_stalled_changes {hold failed : HeldAction} {now_ms : Int} {stall_ms : Nat}
    (h : transitions.fail_stalled hold now_ms stall_ms = (failed, true)) :
    failed.hold_id = hold.hold_id ∧ failed ≠ hold := by
  unfold transitions.fail_stalled at h
  split at h
  · next hstalled =>
    obtain ⟨rfl, -⟩ := Prod.mk.inj h
    refine ⟨rfl, fun he => ?_⟩
    have hstate : HoldState.Failed = hold.state := congrArg HeldAction.state he
    simp [transitions.is_stalled, ← hstate] at hstalled
  · cases h

/-! ## What a call leaves -/

namespace FileHeldActionStore
variable {store : FileHeldActionStore} {writes : HeldAction → Written} {α β : Type}

theorem writeFailed_map (f : α → β) (r : Except HeldActionStoreError α) : WriteFailed (r.map f) ↔ WriteFailed r := by
  cases r with
  | ok a => simp [WriteFailed, Except.map]
  | error e => simp [WriteFailed, Except.map]

theorem not_writeFailed_ok (a : α) : ¬ WriteFailed (.ok a) := by
  rintro ⟨_, h⟩
  cases h

/-- What a call does to a store that answers from its directory: it keeps that so, or it fails
to write and keeps it so under a condition only. -/
def Leaves (r : FileHeldActionStore × Except HeldActionStoreError α) (condition : Prop) : Prop :=
  (¬ WriteFailed r.2 ∧ r.1.Synced) ∨ (WriteFailed r.2 ∧ (r.1.Synced ↔ condition))

theorem Leaves.synced_iff {r : FileHeldActionStore × Except HeldActionStoreError α} {condition : Prop}
    (h : Leaves r condition) : r.1.Synced ↔ (WriteFailed r.2 → condition) := by
  rcases h with ⟨hno, hs⟩ | ⟨hf, hiff⟩
  · exact ⟨fun _ hf => absurd hf hno, fun _ => hs⟩
  · exact hiff.trans ⟨fun hc _ => hc, fun hc => hc hf⟩

theorem Leaves.map {r : FileHeldActionStore × Except HeldActionStoreError α} {condition : Prop}
    (h : Leaves r condition) (f : α → β) : Leaves (r.1, r.2.map f) condition := by
  unfold Leaves
  rwa [writeFailed_map]

theorem Leaves.congr {r : FileHeldActionStore × Except HeldActionStoreError α} {p q : Prop} (h : Leaves r p)
    (hpq : p ↔ q) : Leaves r q := by
  unfold Leaves
  rwa [← hpq]

theorem Synced.nodup (h : store.Synced) : (store.holds.map HeldAction.hold_id).Nodup := by
  rw [h]
  exact store.directory.load_nodup

/-- A call that gives up before it writes. -/
theorem Synced.gives_up (h : store.Synced) {e : HeldActionStoreError} (he : ∀ hold_id, e ≠ .Io hold_id)
    (condition : Prop) : @Leaves α (store, .error e) condition := by
  refine .inl ⟨?_, h⟩
  rintro ⟨hold_id, heq⟩
  exact he hold_id (Except.error.inj heq)

/-- A hold is changed and then written: a write that fails is harmless only if nothing changed. -/
theorem Synced.persist (h : store.Synced) {hold changed : HeldAction}
    (hat : store.holds.get changed.hold_id = some hold) :
    Leaves (store.persist writes (store.holds.update changed.hold_id (fun _ => changed)) changed) (changed = hold) := by
  have hdoc : store.directory.load.get changed.hold_id = some hold := h ▸ hat
  rcases store.directory.persist_cases writes changed with ⟨hok, temps, hdir⟩ | ⟨herr, hdir⟩
  · refine .inl ⟨?_, ?_⟩
    · show ¬ WriteFailed (store.directory.persist writes changed).2
      rw [hok]
      exact not_writeFailed_ok ()
    · show store.holds.update _ _ = (store.directory.persist writes changed).1.load
      rw [hdir, Directory.load_upsert_of_some (by rw [hdoc]; rfl), h]
  · refine .inr ⟨⟨_, herr⟩, ?_⟩
    show store.holds.update _ _ = (store.directory.persist writes changed).1.load ↔ changed = hold
    rw [hdir, ← h]
    constructor
    · intro heq
      have hself : (store.holds.update changed.hold_id (fun _ => changed)).get changed.hold_id = some changed :=
        lookupBy_updateBy_self hat rfl
      rw [heq, hat] at hself
      exact (Option.some.inj hself).symm
    · rintro rfl
      have hid : store.holds.update changed.hold_id (fun _ => changed) = store.holds.update changed.hold_id id :=
        updateBy_congr h.nodup hat rfl
      exact hid.trans (updateBy_id _ _)

theorem Synced.create (h : store.Synced) (hold : HeldAction) : Leaves (store.create writes hold) True := by
  rw [FileHeldActionStore.create]
  by_cases hdup : (store.holds.get hold.hold_id).isSome = true
  · rw [if_pos hdup]
    exact h.gives_up (by simp) _
  · rw [if_neg hdup]
    have hnone : store.directory.load.get hold.hold_id = none := by
      rw [← h]
      exact Option.not_isSome_iff_eq_none.1 hdup
    rcases store.directory.persist_cases writes hold with ⟨hok, temps, hdir⟩ | ⟨herr, hdir⟩
    · simp only [FileHeldActionStore.persist, hok, hdir]
      refine .inl ⟨not_writeFailed_ok (), ?_⟩
      show store.holds.insert hold = _
      rw [Directory.load_upsert_of_none hnone, h]
    · simp only [FileHeldActionStore.persist, herr]
      refine .inr ⟨⟨_, rfl⟩, iff_of_true ?_ trivial⟩
      show store.holds = (store.directory.persist writes hold).1.load
      rw [hdir, h]

/-- `mutate`, for a change that keeps the hold's id. -/
theorem Synced.mutate (h : store.Synced) (hold_id : String) {apply : HeldAction → HeldAction}
    (hid : ∀ hold, (apply hold).hold_id = hold.hold_id) :
    Leaves (store.mutate writes hold_id apply) (∀ hold, store.holds.get hold_id = some hold → apply hold = hold) := by
  rw [FileHeldActionStore.mutate]
  cases hat : store.holds.get hold_id with
  | none => exact h.gives_up (by simp) _
  | some hold =>
    obtain rfl : (apply hold).hold_id = hold_id := (hid hold).trans (mem_of_lookupBy hat).2
    have hsame : store.holds.update (apply hold).hold_id apply =
        store.holds.update (apply hold).hold_id (fun _ => apply hold) := updateBy_congr h.nodup hat rfl
    simp only [hsame, Option.some.injEq, forall_eq']
    exact h.persist hat

theorem Synced.begin_decision (h : store.Synced) (hold_id intent_event_id : String) (cas_instant_ms : Int) :
    Leaves (store.begin_decision writes hold_id intent_event_id cas_instant_ms) False := by
  rw [FileHeldActionStore.begin_decision]
  cases hat : store.holds.get hold_id with
  | none => exact h.gives_up (by simp) _
  | some hold =>
    simp only
    cases hb : transitions.begin hold intent_event_id cas_instant_ms with
    | none => exact h.gives_up (by simp) _
    | some claimed =>
      obtain ⟨hid, hne⟩ := begin_changes hb
      obtain rfl : claimed.hold_id = hold_id := hid.trans (mem_of_lookupBy hat).2
      exact ((h.persist hat).congr (iff_of_false hne id)).map _

theorem Synced.abandon_decision (h : store.Synced) (hold_id intent_event_id : String) :
    Leaves (store.abandon_decision writes hold_id intent_event_id) False := by
  rw [FileHeldActionStore.abandon_decision]
  cases hat : store.holds.get hold_id with
  | none => exact .inl ⟨not_writeFailed_ok (), h⟩
  | some hold =>
    simp only
    split
    · exact .inl ⟨not_writeFailed_ok (), h⟩
    · next abandoned ha =>
      obtain ⟨hid, hne⟩ := abandon_changes ha
      obtain rfl : abandoned.hold_id = hold_id := hid.trans (mem_of_lookupBy hat).2
      exact (h.persist hat).congr (iff_of_false hne id)

/-- A sweep over the holds that are left, each of which stands in the map as it was. -/
theorem Synced.sweep {apply : HeldAction → HeldAction × Bool}
    (changes : ∀ hold changed, apply hold = (changed, true) → changed.hold_id = hold.hold_id ∧ changed ≠ hold)
    {rest : Holds} (hrest : (rest.map HeldAction.hold_id).Nodup) {store : FileHeldActionStore} (h : store.Synced)
    (hat : ∀ hold ∈ rest, store.holds.get hold.hold_id = some hold) :
    Leaves (sweep writes apply rest store) False := by
  induction rest generalizing store with
  | nil => exact .inl ⟨not_writeFailed_ok _, h⟩
  | cons hold rest ih =>
    obtain ⟨hfresh, hrest⟩ := List.nodup_cons.1 hrest
    rw [FileHeldActionStore.sweep]
    split
    · exact ih hrest h (fun x hx => hat x (List.mem_cons_of_mem _ hx))
    · next changed hc =>
      obtain ⟨hid, hne⟩ := changes _ _ hc
      have hold_at : store.holds.get changed.hold_id = some hold := hid ▸ hat hold List.mem_cons_self
      have hleaves : Leaves (store.persist writes (store.holds.update changed.hold_id (fun _ => changed)) changed) False :=
        (h.persist hold_at).congr (iff_of_false hne id)
      rw [← hid]
      split
      · next written e hw =>
        rw [hw] at hleaves
        exact hleaves.map (fun _ => [])
      · next written hw =>
        rw [hw] at hleaves
        have hsynced : written.Synced := hleaves.synced_iff.2 (fun hf => absurd hf (not_writeFailed_ok ()))
        have hholds : store.holds.update changed.hold_id (fun _ => changed) = written.holds :=
          congrArg (fun r => r.1.holds) hw
        refine (ih hrest hsynced fun x hx => ?_).map _
        have hxne : x.hold_id ≠ changed.hold_id := by
          rw [hid]
          exact fun he => hfresh (he ▸ List.mem_map_of_mem hx)
        rw [← hholds]
        exact (lookupBy_updateBy_ne _ hxne rfl).trans (hat x (List.mem_cons_of_mem _ hx))

theorem Synced.sweep_all (h : store.Synced) {apply : HeldAction → HeldAction × Bool}
    (changes : ∀ hold changed, apply hold = (changed, true) → changed.hold_id = hold.hold_id ∧ changed ≠ hold) :
    Leaves (FileHeldActionStore.sweep writes apply store.holds store) False :=
  sweep changes h.nodup h (fun _ hx => lookupBy_of_mem h.nodup hx rfl)

/-- What any call leaves of a store that answers from its directory. -/
theorem Synced.exec (h : store.Synced) (writes : HeldAction → Written) (call : HoldCall) :
    Leaves (store.exec writes call) (call.AsItIs store.holds) := by
  cases call with
  | create hold => exact h.create hold
  | mark_case_channel hold_id case_channel =>
    unfold FileHeldActionStore.exec FileHeldActionStore.mark_case_channel
    refine Leaves.congr (h.mutate hold_id ?_) (forall₂_congr fun hold _ => ?_)
    · exact fun _ => rfl
    · cases hold
      simp only [HeldAction.mk.injEq]
      grind
  | mark_notified hold_id at_ms notice_event_id card_event_id =>
    unfold FileHeldActionStore.exec FileHeldActionStore.mark_notified
    refine Leaves.congr (h.mutate hold_id ?_) (forall₂_congr fun hold _ => ?_)
    · exact fun _ => rfl
    · cases hold
      simp only [HeldAction.mk.injEq]
      grind
  | mark_armed hold_id =>
    unfold FileHeldActionStore.exec FileHeldActionStore.mark_armed
    refine Leaves.congr (h.mutate hold_id ?_) (forall₂_congr fun hold _ => ?_)
    · exact fun _ => rfl
    · cases hold
      simp only [HeldAction.mk.injEq]
      grind
  | begin_decision hold_id intent_event_id cas_instant_ms =>
    exact (h.begin_decision hold_id intent_event_id cas_instant_ms).map _
  | abandon_decision hold_id intent_event_id => exact h.abandon_decision hold_id intent_event_id
  | complete_decision hold_id decision state =>
    unfold FileHeldActionStore.exec FileHeldActionStore.complete_decision
    refine Leaves.congr (h.mutate hold_id ?_) (forall₂_congr fun hold _ => ?_)
    · exact fun _ => rfl
    · cases hold
      simp only [transitions.complete, HeldAction.mk.injEq]
      grind
  | expire_due now_ms => exact Leaves.map (sweep_all h fun _ _ => expire_changes) _
  | fail_stalled_decisions now_ms stall_ms => exact Leaves.map (sweep_all h fun _ _ => fail_stalled_changes) _

end FileHeldActionStore

/-! ## The map alone -/

namespace FileHeldActionStore
variable {store : FileHeldActionStore} (writes : HeldAction → Written)

/-- The map of a store and the answer, as a call of the map alone has them. -/
def Shows {α : Type} (r : FileHeldActionStore × Except HeldActionStoreError α)
    (m : Holds × Except HeldActionStoreError α) : Prop := r.1.holds = m.1 ∧ r.2 = m.2

def persisted (hold : HeldAction) : Bool := writes hold == .done

theorem shows_persist (store : FileHeldActionStore) (holds : Holds) (hold : HeldAction) :
    Shows (store.persist writes holds hold)
      (holds, if persisted writes hold then .ok () else .error (.Io hold.hold_id)) := by
  refine ⟨rfl, ?_⟩
  unfold FileHeldActionStore.persist Directory.persist persisted
  cases writes hold with
  | done => rfl
  | write_failed left => rfl
  | rename_failed => rfl

theorem Shows.map {α β : Type} {r : FileHeldActionStore × Except HeldActionStoreError α}
    {m : Holds × Except HeldActionStoreError α} (h : Shows r m) (f : α → β) :
    Shows (r.1, r.2.map f) (m.1, m.2.map f) := ⟨h.1, congrArg (Except.map f) h.2⟩

theorem shows_create (hold : HeldAction) :
    Shows (store.create writes hold) (Runtime.create (persisted writes) store.holds hold) := by
  have hp := shows_persist writes store store.holds hold
  unfold FileHeldActionStore.create Runtime.create
  split
  · exact ⟨rfl, rfl⟩
  · split
    · next written e hw =>
      rw [hw] at hp
      obtain ⟨hholds, hresult⟩ := hp
      cases hd : persisted writes hold with
      | true => simp [hd] at hresult
      | false => exact ⟨hholds, by simpa [hd] using hresult⟩
    · next written hw =>
      rw [hw] at hp
      obtain ⟨hholds, hresult⟩ := hp
      cases hd : persisted writes hold with
      | true => exact ⟨congrArg (Holds.insert · hold) hholds, rfl⟩
      | false => simp [hd] at hresult

theorem shows_mutate (hold_id : String) {apply : HeldAction → HeldAction}
    (hid : ∀ hold, (apply hold).hold_id = hold.hold_id) :
    Shows (store.mutate writes hold_id apply) (Runtime.mutate (persisted writes) store.holds hold_id apply) := by
  unfold FileHeldActionStore.mutate Runtime.mutate
  cases hat : store.holds.get hold_id with
  | none => exact ⟨rfl, rfl⟩
  | some hold =>
    have hkey : (apply hold).hold_id = hold_id := (hid hold).trans (mem_of_lookupBy hat).2
    have hp := shows_persist writes store (store.holds.update hold_id apply) (apply hold)
    rwa [hkey] at hp

theorem shows_begin_decision (hn : (store.holds.map HeldAction.hold_id).Nodup) (hold_id intent_event_id : String)
    (cas_instant_ms : Int) :
    Shows (store.begin_decision writes hold_id intent_event_id cas_instant_ms)
      (Runtime.begin_decision (persisted writes) store.holds hold_id intent_event_id cas_instant_ms) := by
  unfold FileHeldActionStore.begin_decision Runtime.begin_decision
  cases hat : store.holds.get hold_id with
  | none => exact ⟨rfl, rfl⟩
  | some hold =>
    simp only
    cases hb : transitions.begin hold intent_event_id cas_instant_ms with
    | none => exact ⟨rfl, rfl⟩
    | some claimed =>
      have hkey : claimed.hold_id = hold_id := (begin_changes hb).1.trans (mem_of_lookupBy hat).2
      have hp := shows_persist writes store (store.holds.update hold_id (fun _ => claimed)) claimed
      refine ⟨updateBy_congr hn hat (by rw [hb]; rfl), ?_⟩
      simp only [hp.2, hkey]
      split
      · rfl
      · rfl

theorem shows_abandon_decision (hn : (store.holds.map HeldAction.hold_id).Nodup) (hold_id intent_event_id : String) :
    Shows (store.abandon_decision writes hold_id intent_event_id)
      (Runtime.abandon_decision (persisted writes) store.holds hold_id intent_event_id) := by
  unfold FileHeldActionStore.abandon_decision Runtime.abandon_decision
  cases hat : store.holds.get hold_id with
  | none => exact ⟨rfl, rfl⟩
  | some hold =>
    simp only
    split
    · next same ha =>
      have hsame : same = hold := by
        unfold transitions.abandon at ha
        split at ha
        · exact (congrArg Prod.fst ha).symm
        · cases ha
      refine ⟨?_, by rw [ha]; rfl⟩
      refine ((updateBy_id hold_id store.holds).symm.trans (updateBy_congr hn hat ?_))
      rw [ha, hsame]
      rfl
    · next abandoned ha =>
      have hkey : abandoned.hold_id = hold_id := (abandon_changes ha).1.trans (mem_of_lookupBy hat).2
      have hp := shows_persist writes store (store.holds.update hold_id (fun _ => abandoned)) abandoned
      refine ⟨updateBy_congr hn hat (by rw [ha]), ?_⟩
      simp only [hp.2, hkey, ha]
      cases persisted writes abandoned with
      | true => rfl
      | false => rfl

/-- A sweep that has been over `done`. -/
theorem shows_sweep {apply : HeldAction → HeldAction × Bool}
    (changes : ∀ hold changed, apply hold = (changed, true) → changed.hold_id = hold.hold_id ∧ changed ≠ hold)
    {done rest : Holds} {store : FileHeldActionStore} (hholds : store.holds = done ++ rest)
    (hn : (store.holds.map HeldAction.hold_id).Nodup) :
    Shows (sweep writes apply rest store)
      (done ++ (Runtime.sweep (persisted writes) apply rest).1, (Runtime.sweep (persisted writes) apply rest).2) := by
  induction rest generalizing done store with
  | nil => exact ⟨hholds, rfl⟩
  | cons hold rest ih =>
    rw [FileHeldActionStore.sweep, Runtime.sweep]
    rcases hc : apply hold with ⟨changed, _ | _⟩
    · simp only [Bool.false_eq_true, if_false]
      rw [List.append_cons]
      exact ih (by rw [hholds, List.append_cons]) hn
    · obtain ⟨hid, -⟩ := changes _ _ hc
      have hupdate : store.holds.update hold.hold_id (fun _ => changed) = done ++ changed :: rest := by
        rw [hholds] at hn ⊢
        exact updateBy_middle hn _
      have hp := shows_persist writes store (store.holds.update hold.hold_id (fun _ => changed)) changed
      simp only [if_true]
      split
      · next written e hw =>
        rw [hw] at hp
        cases hd : persisted writes changed with
        | true => simp [Shows, hd] at hp
        | false =>
          simp only [Shows, hd, Bool.false_eq_true, if_false] at hp
          exact ⟨hp.1.trans hupdate, (congrArg (Except.map fun _ => []) hp.2).trans (by rw [hid]; rfl)⟩
      · next written hw =>
        rw [hw] at hp
        cases hd : persisted writes changed with
        | true =>
          have hwritten : written.holds = done ++ [changed] ++ rest :=
            hp.1.trans (hupdate.trans (List.append_cons _ _ _))
          have hkeys : (written.holds.map HeldAction.hold_id).Nodup := by
            rw [hwritten, ← List.append_cons]
            rw [hholds] at hn
            simpa [hid] using hn
          have hrest := ih hwritten hkeys
          rw [List.append_assoc] at hrest
          exact hrest.map _
        | false => simp [Shows, hd] at hp

/-- A store's map and answers are those of the map alone, which the decisions' proofs are about. -/
theorem shows_exec (hn : (store.holds.map HeldAction.hold_id).Nodup) (call : HoldCall) :
    Shows (store.exec writes call) (store.holds.exec (persisted writes) call) := by
  cases call with
  | create hold => exact shows_create writes hold
  | mark_case_channel hold_id case_channel => exact shows_mutate writes hold_id fun _ => rfl
  | mark_notified hold_id at_ms notice_event_id card_event_id => exact shows_mutate writes hold_id fun _ => rfl
  | mark_armed hold_id => exact shows_mutate writes hold_id fun _ => rfl
  | begin_decision hold_id intent_event_id cas_instant_ms =>
    exact (shows_begin_decision writes hn hold_id intent_event_id cas_instant_ms).map _
  | abandon_decision hold_id intent_event_id => exact shows_abandon_decision writes hn hold_id intent_event_id
  | complete_decision hold_id decision state => exact shows_mutate writes hold_id fun _ => rfl
  | expire_due now_ms => exact (shows_sweep writes (fun _ _ => expire_changes) (List.nil_append _).symm hn).map _
  | fail_stalled_decisions now_ms stall_ms =>
    exact (shows_sweep writes (fun _ _ => fail_stalled_changes) (List.nil_append _).symm hn).map _

end FileHeldActionStore

/-! ## Runs -/

/-- A call with what comes of its writes. -/
abbrev HoldWrite := (HeldAction → Written) × HoldCall

def FileHeldActionStore.Executes (store : FileHeldActionStore) (write : HoldWrite) (store' : FileHeldActionStore) : Prop :=
  store' = (store.exec write.1 write.2).1

/-- A call that fails to write leaves the map as reopening would load it exactly when it is a
`create` or asks for what is already there; so a store answers from its directory all through a
run exactly when each call of it that fails to write is one of these. -/
theorem failed_write_keeps_directory_iff (directory : Directory) (writes : List HoldWrite) :
    (∀ store : FileHeldActionStore, store.Synced → ∀ writes call, WriteFailed (store.exec writes call).2 →
      ((store.exec writes call).1.Synced ↔ call.AsItIs store.holds)) ∧
    ((∀ past store, past <+: writes → Run FileHeldActionStore.Executes (.open directory) past store → store.Synced) ↔
      ∀ past write store store', past ++ [write] <+: writes →
        Run FileHeldActionStore.Executes (.open directory) past store → store.Executes write store' →
        WriteFailed (store.exec write.1 write.2).2 → write.2.AsItIs store.holds) := by
  refine ⟨fun store h writes call hf => ?_, ?_⟩
  · exact (h.exec writes call).synced_iff.trans ⟨fun hc => hc hf, fun hc _ => hc⟩
  · have hopen : (FileHeldActionStore.open directory).Synced := rfl
    refine Run.throughout_iff hopen (fun store write store' h hx => ?_) writes
    rw [hx]
    exact (h.exec write.1 write.2).synced_iff

/-- A store opened on one hold whose case channel is known. -/
def openedOnOne : FileHeldActionStore :=
  .open ⟨⟨[{ HeldAction.new "hold_a" 0 100 with case_channel := some "case" }], by simp⟩, []⟩

/-- A disk on which a file can be written and not renamed. -/
def noRename (_ : HeldAction) : Written := .rename_failed

theorem shows_exec_armed : FileHeldActionStore.Shows (openedOnOne.exec noRename (.mark_armed "hold_a"))
    (openedOnOne.holds.exec (FileHeldActionStore.persisted noRename) (.mark_armed "hold_a")) :=
  FileHeldActionStore.shows_exec noRename openedOnOne.directory.load_nodup _

theorem failed_write_keeps_directory_same_channel :
    WriteFailed (openedOnOne.exec noRename (.mark_case_channel "hold_a" "case")).2 ∧
      (openedOnOne.exec noRename (.mark_case_channel "hold_a" "case")).1.Synced := by
  have hfailed : WriteFailed (openedOnOne.exec noRename (.mark_case_channel "hold_a" "case")).2 := ⟨"hold_a", by decide⟩
  refine ⟨hfailed, ((failed_write_keeps_directory_iff openedOnOne.directory []).1 openedOnOne rfl noRename _ hfailed).2 ?_⟩
  intro hold hat
  obtain rfl := Option.some.inj hat
  rfl

/-- A claim whose write failed: the hold is being decided by nobody, no operator can decide it,
and its document says that it is open. -/
theorem failed_begin_parks_hold :
    openedOnOne.Synced ∧
      (openedOnOne.begin_decision noRename "hold_a" "intent" 10).2 = .error (.Io "hold_a") ∧
      ¬ (openedOnOne.begin_decision noRename "hold_a" "intent" 10).1.Synced ∧
      ((openedOnOne.begin_decision noRename "hold_a" "intent" 10).1.holds.get "hold_a").map HeldAction.state =
        some .Deciding ∧
      ((openedOnOne.begin_decision noRename "hold_a" "intent" 10).1.directory.load.get "hold_a").map HeldAction.state =
        some .Created ∧
      ∀ writes intent_event_id cas_instant_ms, ∃ current,
        ((openedOnOne.begin_decision noRename "hold_a" "intent" 10).1.begin_decision writes "hold_a" intent_event_id
          cas_instant_ms).2 = .error (.NotDecidable "hold_a" current) := by
  refine ⟨rfl, by decide, ?_, by decide, by decide, fun _ _ _ => ⟨_, rfl⟩⟩
  show ¬ _ = _
  decide

end Ambush.Runtime

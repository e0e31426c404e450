import Ambush.Lib.Runs
import Ambush.Response.Containment
import Mathlib.Data.List.Perm.Basic
/-!
# Releases that run at the same time

`release_lease` reads the lease, runs the inverse, has the receipt attested and closes the
lease against it. Manual releases and sweeps share one store and take these steps in any
order between each other: only the store's own calls exclude each other, so two releases of
one lease can both be past `get` before either closes it.
-/
open Lib

namespace Ambush.Response
open Ambush.Runtime (ExecutionMode)

/-! ## The steps of a release -/

/-- Where a release of the lease at the head of `todo` is. -/
inductive ReleaseStage where
  | get
  | rollback (lease : ContainmentLease)
  | attest (receipt : RollbackReceipt)
  | close (receipt : RollbackReceipt)
  | publish (receipt : RollbackReceipt)

inductive ContainmentReleaseError where
  | UnknownLease | Store | Rollback
  deriving DecidableEq

/-- A `release` call, with the one lease it is for, or a `sweep`, with those it found expired and has not finished. -/
structure Releaser where
  trigger : RollbackTrigger
  now_ms : Int
  todo : List String
  stage : ReleaseStage := .get
  receipts : List RollbackReceipt := []
  failures : List (String × ContainmentReleaseError) := []

structure ContainmentReleased where
  emitted_at_ms : Int
  lease_id : String
  trigger : RollbackTrigger
  receipt : RollbackReceipt
  lease_closed : Bool

/-- The shared sweep, the calls on it, and what left it: the attestations of the governance authority, each with the lease it is for,
and the published events. -/
structure ContainmentSweep where
  store : ContainmentLeaseStore
  mode : ExecutionMode
  governed : Bool
  releasers : List Releaser := []
  issued : List (String × Value) := []
  events : List ContainmentReleased := []

/-- A step of one call; `call` is its place among the calls so far. `io_ok` is whether the file could be read and written, `steps` and
`answer` are what the executor and the governance authority made of it. -/
inductive ReleaseMove where
  | release (lease_id : String) (now_ms : Int)
  | sweep (now_ms : Int) (io_ok : Bool)
  | get (call : Nat) (io_ok : Bool)
  | rollback (call : Nat) (steps : Option (List RollbackStepOutcome))
  | attest (call : Nat) (answer : Option Value)
  | close (call : Nat) (io_ok : Bool)
  | publish (call : Nat) (io_ok : Bool)

namespace Releaser

/-- The release of the lease at the head ends with an error. -/
def failed (r : Releaser) (e : ContainmentReleaseError) : Releaser :=
  { r with todo := r.todo.tail, stage := .get, failures := r.failures ++ (r.todo.head?.map (·, e)).toList }

/-- The release of the lease at the head ends with a receipt. -/
def done (r : Releaser) (receipt : RollbackReceipt) : Releaser :=
  { r with todo := r.todo.tail, stage := .get, receipts := r.receipts ++ [receipt] }

def get (r : Releaser) (store : ContainmentLeaseStore) (lease_id : String) (io_ok : Bool) : Releaser :=
  if store.io_fails io_ok then r.failed .Store
  else
    match store.get lease_id with
    | none => r.failed .UnknownLease
    | some lease => { r with stage := .rollback lease }

/-- A receipt with a failed step is returned as it is, and the lease stays open. -/
def rollback (r : Releaser) (mode : ExecutionMode) (lease : ContainmentLease) (steps : Option (List RollbackStepOutcome)) : Releaser :=
  match steps with
  | none => r.failed .Rollback
  | some steps =>
    let receipt := RollbackReceipt.from_steps lease r.trigger mode r.now_ms steps
    if receipt.attempt_failed then { r with stage := .publish receipt } else { r with stage := .attest receipt }

end Releaser

namespace ContainmentSweep

def replace (s : ContainmentSweep) (call : Nat) (r : Releaser) : ContainmentSweep := { s with releasers := s.releasers.set call r }

/-- An authority answers when there is one. -/
def answered (s : ContainmentSweep) (answer : Option Value) : Option Value := if s.governed then answer else none

/-- `attest_release_receipt`: an authority that is not there or declines leaves the receipt unattested. -/
def attest (s : ContainmentSweep) (call : Nat) (r : Releaser) (receipt : RollbackReceipt) (answer : Option Value) : ContainmentSweep :=
  match s.answered answer with
  | none => s.replace call { r with stage := .close receipt }
  | some attestation =>
    { s.replace call { r with stage := .close { receipt with governance_attestation := some attestation } } with
      issued := s.issued ++ [(receipt.lease_id, attestation)] }

def close (s : ContainmentSweep) (call : Nat) (r : Releaser) (receipt : RollbackReceipt) (io_ok : Bool) : ContainmentSweep :=
  if s.store.io_fails io_ok then s.replace call (r.failed .Store)
  else
    match s.store.close receipt with
    | none => s.replace call (r.failed .Store)
    | some store => { s.replace call { r with stage := .publish receipt } with store := store }

def publish (s : ContainmentSweep) (call : Nat) (r : Releaser) (receipt : RollbackReceipt) (io_ok : Bool) : ContainmentSweep :=
  let lease_closed := !s.store.io_fails io_ok && !s.store.open_leases.any (·.lease_id = receipt.lease_id)
  { s.replace call (r.done receipt) with
    events := s.events ++ [⟨r.now_ms, receipt.lease_id, r.trigger, receipt, lease_closed⟩] }

def move (s : ContainmentSweep) : ReleaseMove → Option ContainmentSweep
  | .release lease_id now_ms => some { s with
      releasers := s.releasers ++ [{ trigger := .Manual, now_ms := now_ms, todo := [lease_id] }] }
  | .sweep now_ms io_ok => some { s with
      releasers := s.releasers ++ [{
        trigger := .Expiry
        now_ms := now_ms
        todo := if s.store.io_fails io_ok then [] else (s.store.expired now_ms).map (·.lease_id) }] }
  | .get call io_ok =>
    match s.releasers[call]? with
    | none => none
    | some r =>
      match r.stage, r.todo with
      | .get, lease_id :: _ => some (s.replace call (r.get s.store lease_id io_ok))
      | _, _ => none
  | .rollback call steps =>
    match s.releasers[call]? with
    | none => none
    | some r =>
      match r.stage with
      | .rollback lease => some (s.replace call (r.rollback s.mode lease steps))
      | _ => none
  | .attest call answer =>
    match s.releasers[call]? with
    | none => none
    | some r =>
      match r.stage with
      | .attest receipt => some (s.attest call r receipt answer)
      | _ => none
  | .close call io_ok =>
    match s.releasers[call]? with
    | none => none
    | some r =>
      match r.stage with
      | .close receipt => some (s.close call r receipt io_ok)
      | _ => none
  | .publish call io_ok =>
    match s.releasers[call]? with
    | none => none
    | some r =>
      match r.stage with
      | .publish receipt => some (s.publish call r receipt io_ok)
      | _ => none

end ContainmentSweep

/-! ## Receipts on their way to the store -/

/-- The receipt that a release is about to close its lease against. -/
def Releaser.closing (r : Releaser) : Option RollbackReceipt :=
  match r.stage with
  | .close receipt => some receipt
  | _ => none

def ContainmentSweep.pending (s : ContainmentSweep) : List RollbackReceipt := s.releasers.filterMap Releaser.closing

/-- A release has its receipt attested only while its lease is open and no other release of the lease is past that point (one that is
declined, only while none of these is attested), and no file error comes between an attestation and its receipt. -/
def Orderly (s : ContainmentSweep) : ReleaseMove → Prop
  | .attest call answer => ∀ r receipt, s.releasers[call]? = some r → r.stage = .attest receipt →
    (s.answered answer ≠ none → receipt.lease_id ∈ s.store.open_ids ∧ ∀ other ∈ s.pending, other.lease_id ≠ receipt.lease_id) ∧
    ∀ other ∈ s.pending, other.lease_id = receipt.lease_id → other.governance_attestation = none
  | .close call io_ok => ∀ r receipt, s.releasers[call]? = some r → r.stage = .close receipt →
    receipt.governance_attestation ≠ none → s.store.io_fails io_ok = false
  | _ => True

def Moves (s : ContainmentSweep) (m : ReleaseMove) (s' : ContainmentSweep) : Prop := s.move m = some s'

def MovesOrderly (s : ContainmentSweep) (m : ReleaseMove) (s' : ContainmentSweep) : Prop := Moves s m s' ∧ Orderly s m

/-- The store, the receipts on their way to it, and the attestations: each lease is closed once, by a receipt that landed, and each
attestation is on the one receipt of its lease. -/
structure Accounted (store : ContainmentLeaseStore) (pending : List RollbackReceipt) (issued : List (String × Value)) : Prop where
  closed_once : store.closed_ids.Nodup
  not_open : ∀ id ∈ store.closed_ids, id ∉ store.open_ids
  landed : ∀ receipt ∈ store.closed_receipts, receipt.attempt_failed = false
  alone : pending.Pairwise (fun a b => a.lease_id = b.lease_id → a.governance_attestation = none ∧ b.governance_attestation = none)
  still_open : ∀ receipt ∈ pending, receipt.governance_attestation ≠ none → receipt.lease_id ∈ store.open_ids
  issued_once : (issued.map Prod.fst).Nodup
  issued_iff : ∀ lease_id attestation, (lease_id, attestation) ∈ issued ↔
    ∃ receipt, (receipt ∈ store.closed_receipts ∨ receipt ∈ pending) ∧ receipt.lease_id = lease_id ∧
      receipt.governance_attestation = some attestation

section
variable {store store' : ContainmentLeaseStore} {pending pending' : List RollbackReceipt} {issued : List (String × Value)}
  {receipt : RollbackReceipt}

theorem Accounted.perm (h : Accounted store pending issued) (hp : pending'.Perm pending) : Accounted store pending' issued where
  closed_once := h.closed_once
  not_open := h.not_open
  landed := h.landed
  alone := by
    refine (hp.pairwise_iff (fun hab he => ?_)).2 h.alone
    exact (hab he.symm).symm
  still_open := fun receipt hmem => h.still_open receipt (hp.mem_iff.1 hmem)
  issued_once := h.issued_once
  issued_iff := by
    intro lease_id attestation
    simp only [hp.mem_iff]
    exact h.issued_iff lease_id attestation

/-- A receipt goes on to `close` unattested. -/
theorem Accounted.declined (h : Accounted store pending issued) (hnone : receipt.governance_attestation = none)
    (hothers : ∀ other ∈ pending, other.lease_id = receipt.lease_id → other.governance_attestation = none) :
    Accounted store (receipt :: pending) issued where
  closed_once := h.closed_once
  not_open := h.not_open
  landed := h.landed
  alone := List.pairwise_cons.2 ⟨fun other hmem he => ⟨hnone, hothers other hmem he.symm⟩, h.alone⟩
  still_open := by
    intro r hr hsome
    rcases List.mem_cons.1 hr with rfl | hr
    · exact absurd hnone hsome
    · exact h.still_open r hr hsome
  issued_once := h.issued_once
  issued_iff := by
    intro lease_id attestation
    rw [h.issued_iff]
    constructor
    · rintro ⟨r, hr, hid, ha⟩
      exact ⟨r, hr.imp_right (List.mem_cons_of_mem _), hid, ha⟩
    · rintro ⟨r, hr, hid, ha⟩
      refine ⟨r, hr.imp_right (fun hr => ?_), hid, ha⟩
      rcases List.mem_cons.1 hr with rfl | hr
      · rw [hnone] at ha
        cases ha
      · exact hr

/-- An attestation is issued for a lease that is open and that no other release is about to close. -/
theorem Accounted.attested (h : Accounted store pending issued) {attestation : Value}
    (hsome : receipt.governance_attestation = some attestation) (hopen : receipt.lease_id ∈ store.open_ids)
    (hothers : ∀ other ∈ pending, other.lease_id ≠ receipt.lease_id) :
    Accounted store (receipt :: pending) (issued ++ [(receipt.lease_id, attestation)]) where
  closed_once := h.closed_once
  not_open := h.not_open
  landed := h.landed
  alone := List.pairwise_cons.2 ⟨fun other hmem he => absurd he.symm (hothers other hmem), h.alone⟩
  still_open := by
    intro r hr ha
    rcases List.mem_cons.1 hr with rfl | hr
    · exact hopen
    · exact h.still_open r hr ha
  issued_once := by
    rw [List.map_append, List.nodup_append]
    refine ⟨h.issued_once, List.nodup_singleton _, ?_⟩
    intro id hid id' hid' he
    obtain rfl := List.mem_singleton.1 hid'
    obtain ⟨⟨id'', earlier⟩, hmem, rfl⟩ := List.mem_map.1 hid
    have he : id'' = receipt.lease_id := he
    -- An earlier attestation is on a stored receipt or on one that is about to be stored.
    obtain ⟨r, hr | hr, hrid, -⟩ := (h.issued_iff _ _).1 hmem
    · exact h.not_open id'' (List.mem_map.2 ⟨r, hr, hrid⟩) (by rw [he]; exact hopen)
    · exact hothers r hr (hrid.trans he)
  issued_iff := by
    intro lease_id a
    rw [List.mem_append, h.issued_iff, List.mem_singleton]
    constructor
    · rintro (⟨r, hr, hid, ha⟩ | he)
      · exact ⟨r, hr.imp_right (List.mem_cons_of_mem _), hid, ha⟩
      · obtain ⟨rfl, rfl⟩ := Prod.mk.inj he
        exact ⟨receipt, .inr List.mem_cons_self, rfl, hsome⟩
    · rintro ⟨r, hr | hr, hid, ha⟩
      · exact .inl ⟨r, .inl hr, hid, ha⟩
      · rcases List.mem_cons.1 hr with rfl | hr
        · obtain rfl := Option.some.inj (hsome.symm.trans ha)
          exact .inr (by rw [hid])
        · exact .inl ⟨r, .inr hr, hid, ha⟩

/-- An unattested receipt is not stored. -/
theorem Accounted.refused (h : Accounted store (receipt :: pending) issued) (hnone : receipt.governance_attestation = none) :
    Accounted store pending issued where
  closed_once := h.closed_once
  not_open := h.not_open
  landed := h.landed
  alone := (List.pairwise_cons.1 h.alone).2
  still_open := fun r hr => h.still_open r (List.mem_cons_of_mem _ hr)
  issued_once := h.issued_once
  issued_iff := by
    intro lease_id attestation
    rw [h.issued_iff]
    constructor
    · rintro ⟨r, hr, hid, ha⟩
      refine ⟨r, hr.imp_right (fun hr => ?_), hid, ha⟩
      rcases List.mem_cons.1 hr with rfl | hr
      · rw [hnone] at ha
        cases ha
      · exact hr
    · rintro ⟨r, hr, hid, ha⟩
      exact ⟨r, hr.imp_right (List.mem_cons_of_mem _), hid, ha⟩

/-- A receipt that landed is stored. -/
theorem Accounted.stored (h : Accounted store (receipt :: pending) issued) (hlanded : receipt.attempt_failed = false)
    (hclose : store.close receipt = some store') : Accounted store' pending issued := by
  obtain ⟨hopen, hids, hclosed⟩ := ContainmentLeaseStore.close_spec hclose
  have hclosed_ids : store'.closed_ids = store.closed_ids ++ [receipt.lease_id] := by
    rw [ContainmentLeaseStore.closed_ids, hclosed, List.map_append]
    rfl
  obtain ⟨hothers, halone⟩ := List.pairwise_cons.1 h.alone
  constructor
  case closed_once =>
    rw [hclosed_ids, List.nodup_append]
    refine ⟨h.closed_once, List.nodup_singleton _, fun id hid id' hid' he => ?_⟩
    rw [List.mem_singleton.1 hid'] at he
    exact h.not_open id hid (he ▸ hopen)
  case not_open =>
    intro id hid
    rw [hids]
    rw [hclosed_ids, List.mem_append, List.mem_singleton] at hid
    rintro ⟨hin, hne⟩
    exact hid.elim (fun hid => h.not_open id hid hin) hne
  case landed =>
    intro r hr
    rw [hclosed, List.mem_append, List.mem_singleton] at hr
    rcases hr with hr | rfl
    · exact h.landed r hr
    · exact hlanded
  case alone => exact halone
  case still_open =>
    intro r hr ha
    rw [hids]
    refine ⟨h.still_open r (List.mem_cons_of_mem _ hr) ha, fun he => ?_⟩
    exact ha (hothers r hr he.symm).2
  case issued_once => exact h.issued_once
  case issued_iff =>
    intro lease_id attestation
    rw [h.issued_iff, hclosed]
    simp only [List.mem_append, List.mem_cons, List.not_mem_nil, or_false]
    constructor
    · rintro ⟨r, hr | rfl | hr, hrest⟩
      · exact ⟨r, .inl (.inl hr), hrest⟩
      · exact ⟨r, .inl (.inr rfl), hrest⟩
      · exact ⟨r, .inr hr, hrest⟩
    · rintro ⟨r, (hr | rfl) | hr, hrest⟩
      · exact ⟨r, .inl hr, hrest⟩
      · exact ⟨r, .inr (.inl rfl), hrest⟩
      · exact ⟨r, .inr (.inr hr), hrest⟩

end

/-! ## Steps -/

/-- A receipt that goes to `close` landed, and one that goes to be attested is not attested. -/
def Releaser.Fit (r : Releaser) : Prop :=
  match r.stage with
  | .attest receipt => receipt.attempt_failed = false ∧ receipt.governance_attestation = none
  | .close receipt => receipt.attempt_failed = false
  | _ => True

structure Sound (s : ContainmentSweep) : Prop where
  accounted : Accounted s.store s.pending s.issued
  fit : ∀ r ∈ s.releasers, r.Fit

theorem closing_toList (r : Releaser) (rest : List Releaser) :
    (r :: rest).filterMap Releaser.closing = r.closing.toList ++ rest.filterMap Releaser.closing := by
  cases h : r.closing <;> simp [h]

section
variable {s s' : ContainmentSweep} {call : Nat} {r r' : Releaser}

/-- The receipts of the other calls. -/
def ContainmentSweep.others (s : ContainmentSweep) (call : Nat) : List RollbackReceipt :=
  (s.releasers.eraseIdx call).filterMap Releaser.closing

theorem pending_perm (h : s.releasers[call]? = some r) : s.pending.Perm (r.closing.toList ++ s.others call) := by
  obtain ⟨hlt, rfl⟩ := List.getElem?_eq_some_iff.1 h
  rw [ContainmentSweep.others, ← closing_toList]
  exact ((List.getElem_cons_eraseIdx_perm hlt).filterMap _).symm

theorem pending_replace (h : s.releasers[call]? = some r) (r' : Releaser) :
    (s.replace call r').pending.Perm (r'.closing.toList ++ s.others call) := by
  obtain ⟨hlt, -⟩ := List.getElem?_eq_some_iff.1 h
  rw [ContainmentSweep.others, ← closing_toList]
  exact (List.set_perm_cons_eraseIdx hlt r').filterMap _

theorem fit_replace (hs : Sound s) (hfit : r'.Fit) : ∀ r ∈ (s.replace call r').releasers, r.Fit := by
  intro r hr
  rcases List.mem_or_eq_of_mem_set hr with hr | rfl
  · exact hs.fit r hr
  · exact hfit

/-- A step of a call that is not about to close its lease before or after it. -/
theorem Sound.elsewhere (hs : Sound s) (h : s.releasers[call]? = some r) (hbefore : r.closing = none) (hafter : r'.closing = none)
    (hfit : r'.Fit) : Sound (s.replace call r') where
  accounted := by
    have hp := pending_perm h
    have hp' := pending_replace h r'
    rw [hbefore] at hp
    rw [hafter] at hp'
    exact hs.accounted.perm (hp'.trans hp.symm)
  fit := fit_replace hs hfit

theorem Sound.attest (hs : Sound s) (h : s.releasers[call]? = some r) {receipt : RollbackReceipt} (hstage : r.stage = .attest receipt)
    {answer : Option Value} (horder : Orderly s (.attest call answer)) : Sound (s.attest call r receipt answer) := by
  obtain ⟨hgiven, hothers⟩ := horder r receipt h hstage
  have hbefore : r.closing = none := by rw [Releaser.closing, hstage]
  have hfit : receipt.attempt_failed = false ∧ receipt.governance_attestation = none := by
    have := hs.fit r (List.mem_of_getElem? h)
    rwa [Releaser.Fit, hstage] at this
  have hp := pending_perm h
  rw [hbefore] at hp
  have haccounted : Accounted s.store (s.others call) s.issued := hs.accounted.perm hp.symm
  rw [ContainmentSweep.attest]
  cases hanswer : s.answered answer with
  | none =>
    refine ⟨?_, fit_replace hs hfit.1⟩
    refine Accounted.perm (haccounted.declined hfit.2 ?_) (pending_replace h _)
    exact fun other hmem => hothers other (hp.mem_iff.2 hmem)
  | some attestation =>
    obtain ⟨hopen, hother⟩ := hgiven (by rw [hanswer]; exact Option.some_ne_none _)
    refine ⟨?_, fit_replace hs hfit.1⟩
    have hreplaced := pending_replace h { r with stage := .close { receipt with governance_attestation := some attestation } }
    have hattested : Accounted s.store ({ receipt with governance_attestation := some attestation } :: s.others call)
        (s.issued ++ [(receipt.lease_id, attestation)]) :=
      haccounted.attested rfl hopen (fun other hmem => hother other (hp.mem_iff.2 hmem))
    exact hattested.perm hreplaced

theorem Sound.close (hs : Sound s) (h : s.releasers[call]? = some r) {receipt : RollbackReceipt} (hstage : r.stage = .close receipt)
    {io_ok : Bool} (horder : Orderly s (.close call io_ok)) : Sound (s.close call r receipt io_ok) := by
  have hbefore : r.closing = some receipt := by rw [Releaser.closing, hstage]
  have hlanded : receipt.attempt_failed = false := by
    have := hs.fit r (List.mem_of_getElem? h)
    rwa [Releaser.Fit, hstage] at this
  have hp := pending_perm h
  rw [hbefore] at hp
  have haccounted : Accounted s.store (receipt :: s.others call) s.issued := hs.accounted.perm hp.symm
  have hfailed : receipt.governance_attestation = none → Sound (s.replace call (r.failed .Store)) := fun hnone =>
    ⟨(haccounted.refused hnone).perm (pending_replace h _), fit_replace hs trivial⟩
  rw [ContainmentSweep.close]
  split
  · next hio =>
    refine hfailed ?_
    by_contra hsome
    rw [horder r receipt h hstage hsome] at hio
    cases hio
  · cases hclose : s.store.close receipt with
    | none =>
      refine hfailed ?_
      by_contra hsome
      -- An attested receipt finds its lease open.
      obtain ⟨store, hstore⟩ := ContainmentLeaseStore.close_of_open (haccounted.still_open receipt List.mem_cons_self hsome)
      rw [hclose] at hstore
      cases hstore
    | some store =>
      have hreplaced := pending_replace h { r with stage := .publish receipt }
      exact ⟨(haccounted.stored hlanded hclose).perm hreplaced, fit_replace hs trivial⟩

theorem get_fit (r : Releaser) (store : ContainmentLeaseStore) (lease_id : String) (io_ok : Bool) :
    (r.get store lease_id io_ok).closing = none ∧ (r.get store lease_id io_ok).Fit := by
  rw [Releaser.get]
  split
  · exact ⟨rfl, trivial⟩
  · split
    · exact ⟨rfl, trivial⟩
    · exact ⟨rfl, trivial⟩

theorem rollback_fit (r : Releaser) (mode : ExecutionMode) (lease : ContainmentLease) (steps : Option (List RollbackStepOutcome)) :
    (r.rollback mode lease steps).closing = none ∧ (r.rollback mode lease steps).Fit := by
  cases steps with
  | none => exact ⟨rfl, trivial⟩
  | some steps =>
    rw [Releaser.rollback]
    split
    · exact ⟨rfl, trivial⟩
    · next hlanded => exact ⟨rfl, by simpa using hlanded, rfl⟩

/-- A call comes in. -/
theorem Sound.start (hs : Sound s) (r : Releaser) (hstage : r.stage = .get) : Sound { s with releasers := s.releasers ++ [r] } where
  accounted := by
    have hnone : [r].filterMap Releaser.closing = [] := by
      rw [closing_toList, Releaser.closing, hstage]
      rfl
    have hsame : (s.releasers ++ [r]).filterMap Releaser.closing = s.pending := by
      rw [List.filterMap_append, hnone, List.append_nil]
      rfl
    exact hs.accounted.perm (List.Perm.of_eq hsame)
  fit := by
    intro r' hr'
    rcases List.mem_append.1 hr' with hr' | hr'
    · exact hs.fit r' hr'
    · rw [List.mem_singleton.1 hr', Releaser.Fit, hstage]
      trivial

theorem Sound.move {m : ReleaseMove} (hs : Sound s) (h : MovesOrderly s m s') : Sound s' := by
  obtain ⟨hmove, horder⟩ := h
  cases m with
  | release lease_id now_ms =>
    obtain rfl := Option.some.inj hmove
    exact hs.start _ rfl
  | sweep now_ms io_ok =>
    obtain rfl := Option.some.inj hmove
    exact hs.start _ rfl
  | get call io_ok =>
    simp only [Moves, ContainmentSweep.move] at hmove
    split at hmove
    · cases hmove
    · next r hr =>
      split at hmove
      · next hstage _ =>
        obtain rfl := Option.some.inj hmove
        obtain ⟨hafter, hfit⟩ := get_fit r s.store _ io_ok
        exact hs.elsewhere hr (by rw [Releaser.closing, hstage]) hafter hfit
      · cases hmove
  | rollback call steps =>
    simp only [Moves, ContainmentSweep.move] at hmove
    split at hmove
    · cases hmove
    · next r hr =>
      split at hmove
      · next lease hstage =>
        obtain rfl := Option.some.inj hmove
        obtain ⟨hafter, hfit⟩ := rollback_fit r s.mode lease steps
        exact hs.elsewhere hr (by rw [Releaser.closing, hstage]) hafter hfit
      · cases hmove
  | attest call answer =>
    simp only [Moves, ContainmentSweep.move] at hmove
    split at hmove
    · cases hmove
    · next r hr =>
      split at hmove
      · next receipt hstage =>
        obtain rfl := Option.some.inj hmove
        exact hs.attest hr hstage horder
      · cases hmove
  | close call io_ok =>
    simp only [Moves, ContainmentSweep.move] at hmove
    split at hmove
    · cases hmove
    · next r hr =>
      split at hmove
      · next receipt hstage =>
        obtain rfl := Option.some.inj hmove
        exact hs.close hr hstage horder
      · cases hmove
  | publish call io_ok =>
    simp only [Moves, ContainmentSweep.move] at hmove
    split at hmove
    · cases hmove
    · next r hr =>
      split at hmove
      · next receipt hstage =>
        obtain rfl := Option.some.inj hmove
        have hdone : Sound (s.replace call (r.done receipt)) :=
          hs.elsewhere hr (by rw [Releaser.closing, hstage]) rfl trivial
        exact ⟨hdone.accounted, hdone.fit⟩
      · cases hmove

end

/-! ## Runs -/

/-- What a store has from before: at most one receipt for a lease, which is not open any more, and none with a failed step. -/
structure ContainmentLeaseStore.Settled (store : ContainmentLeaseStore) : Prop where
  closed_once : store.closed_ids.Nodup
  not_open : ∀ id ∈ store.closed_ids, id ∉ store.open_ids
  landed : ∀ receipt ∈ store.closed_receipts, receipt.attempt_failed = false

/-- A sweep on a store, before any call; what was attested before is on the receipts of the store. -/
def ContainmentSweep.new (store : ContainmentLeaseStore) (mode : ExecutionMode) (governed : Bool) : ContainmentSweep where
  store := store
  mode := mode
  governed := governed
  issued := store.closed_receipts.filterMap (fun receipt => receipt.governance_attestation.map (receipt.lease_id, ·))

theorem attested_ids_sublist (receipts : List RollbackReceipt) :
    ((receipts.filterMap (fun receipt => receipt.governance_attestation.map (receipt.lease_id, ·))).map Prod.fst).Sublist
      (receipts.map (·.lease_id)) := by
  induction receipts with
  | nil => exact List.Sublist.slnil
  | cons receipt receipts ih =>
    cases h : receipt.governance_attestation with
    | none => simpa [h] using ih.cons _
    | some attestation => simpa [h] using ih

theorem sound_new {store : ContainmentLeaseStore} (h : store.Settled) (mode : ExecutionMode) (governed : Bool) :
    Sound (.new store mode governed) where
  accounted := {
    closed_once := h.closed_once
    not_open := h.not_open
    landed := h.landed
    alone := List.Pairwise.nil
    still_open := fun _ hmem => by cases hmem
    issued_once := h.closed_once.sublist (attested_ids_sublist _)
    issued_iff := by
      intro lease_id attestation
      simp only [ContainmentSweep.new, List.mem_filterMap, Option.map_eq_some_iff, Prod.mk.injEq]
      constructor
      · rintro ⟨receipt, hmem, a, ha, hid, rfl⟩
        exact ⟨receipt, .inl hmem, hid, ha⟩
      · rintro ⟨receipt, hmem | hmem, hid, ha⟩
        · exact ⟨receipt, hmem, attestation, ha, hid, rfl⟩
        · cases hmem }
  fit := fun _ hr => by cases hr

/-- In a run whose steps keep to the order each lease is closed at most once and by a receipt without a failed step, at most one
attestation is issued for it, which is on its stored receipt once there is one and until then on the receipt a release is about to
store. -/
theorem one_release_one_attestation {store : ContainmentLeaseStore} {mode : ExecutionMode} {governed : Bool}
    {moves : List ReleaseMove} {s : ContainmentSweep} (hstore : store.Settled)
    (h : Run MovesOrderly (.new store mode governed) moves s) :
    (s.store.closed_receipts.map (·.lease_id)).Nodup ∧
    (∀ receipt ∈ s.store.closed_receipts, ∀ step ∈ receipt.steps, step.status ≠ .Failed) ∧
    (s.issued.map Prod.fst).Nodup ∧
    (∀ lease_id attestation, (lease_id, attestation) ∈ s.issued →
      (∃ receipt ∈ s.store.closed_receipts, receipt.lease_id = lease_id ∧ receipt.governance_attestation = some attestation) ∨
      ∃ receipt ∈ s.pending, receipt.lease_id = lease_id ∧ receipt.governance_attestation = some attestation) ∧
    ∀ receipt ∈ s.store.closed_receipts, ∀ attestation,
      (receipt.lease_id, attestation) ∈ s.issued ↔ receipt.governance_attestation = some attestation := by
  have hs : Accounted s.store s.pending s.issued :=
    (h.inv (I := Sound) (fun _ _ _ _ hs hstep => hs.move hstep) (sound_new hstore mode governed)).accounted
  refine ⟨hs.closed_once, fun receipt hr step hstep hfailed => ?_, hs.issued_once, fun lease_id attestation hi => ?_,
    fun receipt hr attestation => ⟨fun hi => ?_, fun ha => (hs.issued_iff _ _).2 ⟨receipt, .inl hr, rfl, ha⟩⟩⟩
  · have hlanded := hs.landed receipt hr
    rw [RollbackReceipt.attempt_failed, List.any_eq_false] at hlanded
    exact hlanded step hstep (by simpa using hfailed)
  · obtain ⟨receipt, hr | hr, hreceipt⟩ := (hs.issued_iff _ _).1 hi
    · exact .inl ⟨receipt, hr, hreceipt⟩
    · exact .inr ⟨receipt, hr, hreceipt⟩
  · obtain ⟨other, hother | hother, hid, ha⟩ := (hs.issued_iff _ _).1 hi
    · -- Stored receipts of one lease are one receipt.
      rw [List.inj_on_of_nodup_map hs.closed_once hr hother hid.symm]
      exact ha
    · have hopen := hs.still_open other hother (by rw [ha]; exact Option.some_ne_none _)
      exact absurd (hid ▸ hopen) (hs.not_open _ (List.mem_map.2 ⟨receipt, hr, rfl⟩))

/-! ## Two releases of one lease -/

def isolated_host : ContainmentLease where
  lease_id := "lease-1"
  action := .IsolateHost "host-1"
  origin_receipt_id := "receipt-1"
  governance_receipt_id := none
  scope_value := "host-1"
  issued_at_ms := 0
  expires_at_ms := 100
  bounded := by decide

def one_lease : ContainmentLeaseStore := .Memory ⟨[isolated_host], [], List.nodup_singleton _⟩

theorem settled_one_lease : one_lease.Settled := ⟨List.nodup_nil, fun _ h => (by cases h), fun _ h => (by cases h)⟩

def restored : Option (List RollbackStepOutcome) := some [⟨.RestoreHostConnectivity, .Reversed, "restored"⟩]

/-- An early release and, after it, a sweep that finds nothing. -/
def released_once : List ReleaseMove :=
  [.release "lease-1" 50, .get 0 true, .rollback 0 restored, .attest 0 (some (.string "attestation-a")), .close 0 true, .publish 0 true,
    .sweep 200 true]

theorem one_release_one_attestation_released :
    ∃ s, Run MovesOrderly (.new one_lease .Enforced true) released_once s ∧
      s.issued = [("lease-1", .string "attestation-a")] ∧
      ∃ receipt ∈ s.store.closed_receipts, receipt.governance_attestation = some (.string "attestation-a") := by
  have hattest : ∀ s : ContainmentSweep, s.pending = [] → s.store.open_ids = ["lease-1"] →
      (∀ r receipt, s.releasers[0]? = some r → r.stage = .attest receipt → receipt.lease_id = "lease-1") →
      ∀ answer, Orderly s (.attest 0 answer) := by
    intro s hnone hopen hid answer r receipt hr hstage
    rw [hnone, hid r receipt hr hstage, hopen]
    exact ⟨fun _ => ⟨List.mem_cons_self, fun _ h => (by cases h)⟩, fun _ h => (by cases h)⟩
  have hrun : Run MovesOrderly (.new one_lease .Enforced true) released_once _ :=
    .cons ⟨rfl, trivial⟩ (.cons ⟨rfl, trivial⟩ (.cons ⟨rfl, trivial⟩ (.cons ⟨rfl, hattest _ rfl rfl (by rintro _ _ ⟨⟩ ⟨⟩; rfl) _⟩
      (.cons ⟨rfl, fun _ _ _ _ _ => rfl⟩ (.cons ⟨rfl, trivial⟩ (.single ⟨rfl, trivial⟩))))))
  obtain ⟨-, -, -, -, hon⟩ := one_release_one_attestation settled_one_lease hrun
  refine ⟨_, hrun, rfl, _, List.mem_singleton.2 rfl, (hon _ (List.mem_singleton.2 rfl) _).1 ?_⟩
  exact List.mem_singleton.2 rfl

/-- Two manual releases that are both past `get` before either closes the lease. -/
def released_twice : List ReleaseMove :=
  [.release "lease-1" 50, .release "lease-1" 51, .get 0 true, .get 1 true, .rollback 0 restored, .rollback 1 restored,
    .attest 0 (some (.string "attestation-a")), .attest 1 (some (.string "attestation-b")), .close 0 true, .close 1 true]

theorem two_attestations_for_one_lease :
    ¬ ∀ (store : ContainmentLeaseStore) (mode : ExecutionMode) (governed : Bool) (moves : List ReleaseMove) (s : ContainmentSweep),
      store.Settled → Run Moves (.new store mode governed) moves s → (s.issued.map Prod.fst).Nodup := by
  intro hall
  have hrun : Run Moves (.new one_lease .Enforced true) released_twice _ :=
    .cons rfl (.cons rfl (.cons rfl (.cons rfl (.cons rfl (.cons rfl (.cons rfl (.cons rfl (.cons rfl (.single rfl)))))))))
  exact absurd (hall _ _ _ _ _ settled_one_lease hrun) (by decide)

end Ambush.Response

import Ambush.Lib.Texts
import Ambush.Lib.Results
import Ambush.Relay.Filters
/-!
# The directory of session owners

A session has two keys in Redis: the lease, which expires, and a counter of generations,
which does not. Each call is one script on the two, run by itself. Expiry is a step of its
own that may come at any moment, so no clock is kept.
-/
open Lib

namespace Ambush.Tunnel
open Relay (CommunityId)

/-! ## Runtimes, profiles and leases -/

structure RuntimeId where
  bytes : List UInt8
  size : bytes.length = 32

theorem RuntimeId.eq_of_bytes {r t : RuntimeId} (h : r.bytes = t.bytes) : r = t := by
  cases r
  cases h
  rfl

instance : DecidableEq RuntimeId := fun r t => decidable_of_iff (r.bytes = t.bytes) ⟨RuntimeId.eq_of_bytes, congrArg RuntimeId.bytes⟩

def RuntimeId.to_hex (r : RuntimeId) : String := String.ofList (hex r.bytes)

inductive Profile where
  | ReliableStream | RealtimeMedia | HuddleControl
  deriving DecidableEq

def Profile.as_wire_str : Profile → String
  | .ReliableStream => "reliable-stream"
  | .RealtimeMedia => "realtime-media"
  | .HuddleControl => "huddle-control"

def profile_from_wire (value : String) : Option Profile :=
  if value = "reliable-stream" then some .ReliableStream
  else if value = "realtime-media" then some .RealtimeMedia
  else if value = "huddle-control" then some .HuddleControl
  else none

structure SessionLease where
  community_id : CommunityId
  session_id : Uuid
  owner_runtime_id : RuntimeId
  generation : Nat
  profile : Profile
  deriving DecidableEq

structure FencedHeader where
  session_id : Uuid
  generation : Nat
  owner_runtime_id : RuntimeId

def SessionLease.fenced_header (l : SessionLease) : FencedHeader := ⟨l.session_id, l.generation, l.owner_runtime_id⟩

inductive DirectoryError where
  | Pool (message : String)
  | Redis (message : String)
  | MalformedLease (community_id : CommunityId) (session_id : Uuid) (value : String)
  | MalformedGeneration (community_id : CommunityId) (session_id : Uuid) (value : String)
  | UnexpectedScriptStatus (status : String)
  | InvalidLeaseTtl
  | CommunityWriteFenced (message : String)

inductive AcquireResult where
  | Acquired (lease : SessionLease)
  | Exists (lease : SessionLease)

inductive RenewResult where
  | Renewed (lease : SessionLease)
  | Lost (current : Option SessionLease) (known_generation : Option Nat)

inductive ReleaseResult where
  | Released (lease : SessionLease)
  | NotOwner (current : Option SessionLease) (known_generation : Option Nat)

/-- `Transport` has the text of the error. -/
inductive MeshError where
  | StaleGeneration (session_id : Uuid) (frame_generation known_generation : Nat)
  | NoActiveLease (session_id : Uuid) (frame_generation known_generation : Nat) (frame_owner_runtime_id : RuntimeId)
  | FutureGeneration (session_id : Uuid) (frame_generation known_generation : Nat)
  | OwnerMismatch (session_id : Uuid) (generation : Nat) (frame_owner_runtime_id current_owner_runtime_id : RuntimeId)
  | Transport (e : DirectoryError)

/-! ## Scripts -/

/-- What the two keys of a session hold. -/
structure Keys where
  lease : Option String
  generation : Option Nat
  deriving DecidableEq

/-- Before the first call. -/
def Keys.empty : Keys := ⟨none, none⟩

def Keys.count (k : Keys) : Nat := k.generation.getD 0

/-- `GET` of the counter, or else this text. -/
def Keys.known (k : Keys) (otherwise : String) : String := (k.generation.map toString).getD otherwise

structure Reply where
  status : String
  value : String
  known_generation : String

/-- `^([^|]+)|([^|]+)|([^|]+)$` -/
def lua_match (current : String) : Option (String × String × String) :=
  match current.toList.splitOn '|' with
  | [owner, generation, profile] =>
    if owner = [] ∨ generation = [] ∨ profile = [] then none
    else some (String.ofList owner, String.ofList generation, String.ofList profile)
  | _ => none

section
-- `tostring` of Lua
variable (tostring : Nat → String)

def lease_value (owner : String) (generation : Nat) (profile : String) : String :=
  owner ++ "|" ++ tostring generation ++ "|" ++ profile

def acquire_script (k : Keys) (owner profile : String) : Keys × Reply :=
  match k.lease with
  | some current => (k, ⟨"exists", current, k.known ""⟩)
  | none =>
    let generation := k.count + 1
    let value := lease_value tostring owner generation profile
    (⟨some value, some generation⟩, ⟨"acquired", value, tostring generation⟩)

end

def renew_script (k : Keys) (owner generation : String) : Keys × Reply :=
  match k.lease with
  | none => (k, ⟨"missing", "", k.known ""⟩)
  | some current =>
    match lua_match current with
    | some (current_owner, current_generation, _) =>
      if current_owner = owner ∧ current_generation = generation then (k, ⟨"renewed", current, k.known current_generation⟩)
      else (k, ⟨"lost", current, k.known current_generation⟩)
    | none => (k, ⟨"lost", current, k.known ""⟩)

def release_script (k : Keys) (owner generation : String) : Keys × Reply :=
  match k.lease with
  | none => (k, ⟨"missing", "", k.known ""⟩)
  | some current =>
    match lua_match current with
    | some (current_owner, current_generation, _) =>
      if current_owner = owner ∧ current_generation = generation then
        ({ k with lease := none }, ⟨"released", current, k.known current_generation⟩)
      else (k, ⟨"lost", current, k.known current_generation⟩)
    | none => (k, ⟨"lost", current, k.known ""⟩)

/-- The lease and the counter, or empty texts. -/
def validate_script (k : Keys) : String × String := (k.lease.getD "", k.known "")

/-! ## Reading replies -/

section
variable (community_id : CommunityId) (session_id : Uuid)

def parse_lease (value : String) : Except DirectoryError SessionLease :=
  let malformed : DirectoryError := .MalformedLease community_id session_id value
  match value.toList.splitOn '|' with
  | owner_hex :: generation :: rest =>
    match parse_u64 generation with
    | none => .error malformed
    | some generation =>
      if generation = 0 then .error malformed
      else match rest with
        | [profile] =>
          match profile_from_wire (String.ofList profile), unhex owner_hex with
          | some profile, some owner_bytes =>
            if size : owner_bytes.length = 32 then .ok ⟨community_id, session_id, ⟨owner_bytes, size⟩, generation, profile⟩
            else .error malformed
          | _, _ => .error malformed
        | _ => .error malformed
  | _ => .error malformed

def parse_optional_lease (value : String) : Except DirectoryError (Option SessionLease) :=
  if value = "" then .ok none else (parse_lease community_id session_id value).map some

def parse_optional_generation (value : String) : Except DirectoryError (Option Nat) :=
  if value = "" then .ok none
  else match parse_u64 value.toList with
    | none => .error (.MalformedGeneration community_id session_id value)
    | some generation => if generation = 0 then .error (.MalformedGeneration community_id session_id value) else .ok (some generation)

def acquire_result (r : Reply) : Except DirectoryError AcquireResult := do
  let lease ← parse_lease community_id session_id r.value
  if r.status = "acquired" then .ok (.Acquired lease)
  else if r.status = "exists" then .ok (.Exists lease)
  else .error (.UnexpectedScriptStatus r.status)

/-- `renewed` comes with a lease: the source unwraps it. -/
def renew_result (r : Reply) : Except DirectoryError RenewResult := do
  let current ← parse_optional_lease community_id session_id r.value
  match r.status, current with
  | "renewed", some lease => .ok (.Renewed lease)
  | "missing", current | "lost", current => do
    let known_generation ← parse_optional_generation community_id session_id r.known_generation
    .ok (.Lost current known_generation)
  | status, _ => .error (.UnexpectedScriptStatus status)

def release_result (r : Reply) : Except DirectoryError ReleaseResult := do
  let current ← parse_optional_lease community_id session_id r.value
  match r.status, current with
  | "released", some lease => .ok (.Released lease)
  | "missing", current | "lost", current => do
    let known_generation ← parse_optional_generation community_id session_id r.known_generation
    .ok (.NotOwner current known_generation)
  | status, _ => .error (.UnexpectedScriptStatus status)

def validate_fenced_header (k : Keys) (fenced : FencedHeader) : Except MeshError Unit := do
  let (lease_value, known_generation) := validate_script k
  let known_from_counter ←
    ((parse_optional_generation community_id session_id known_generation).mapError .Transport).map (·.getD 0)
  let current ← (parse_optional_lease community_id session_id lease_value).mapError .Transport
  let known := max ((current.map (·.generation)).getD known_from_counter) known_from_counter
  if 0 < known ∧ fenced.generation < known then .error (.StaleGeneration fenced.session_id fenced.generation known)
  else match current with
    | none => .error (.NoActiveLease fenced.session_id fenced.generation known fenced.owner_runtime_id)
    | some current =>
      if fenced.generation ≠ current.generation then
        .error (.FutureGeneration fenced.session_id fenced.generation current.generation)
      else if fenced.owner_runtime_id ≠ current.owner_runtime_id then
        .error (.OwnerMismatch fenced.session_id fenced.generation fenced.owner_runtime_id current.owner_runtime_id)
      else .ok ()

/-! ## Calls -/

/-- How a call goes around its script: it may be refused before the script runs (no
connection, or the community is fenced), and it may fail after the script has run (the
connection or the serving-write lease is lost). -/
inductive Course where
  | refused (e : DirectoryError)
  | ran
  | failed (e : DirectoryError)

/-- A lease time in milliseconds: positive, and an `i64`. -/
def ttl_ms (ttl : Nat) : Except DirectoryError Nat :=
  if 0 < ttl ∧ (ttl : Int) ≤ i64Max then .ok ttl else .error .InvalidLeaseTtl

/-- A call that checks its arguments, runs a script and reads its reply. -/
def call {α : Type} (k : Keys) (course : Course) (checked : Except DirectoryError Nat) (script : Keys × Reply)
    (result : Reply → Except DirectoryError α) : Keys × Except DirectoryError α :=
  match course, checked with
  | .refused e, _ => (k, .error e)
  | _, .error e => (k, .error e)
  | .ran, .ok _ => (script.1, result script.2)
  | .failed e, .ok _ => (script.1, .error e)

variable (tostring : Nat → String) (k : Keys)

def acquire (owner_runtime_id : RuntimeId) (profile : Profile) (lease_ttl : Nat) (course : Course) :
    Keys × Except DirectoryError AcquireResult :=
  call k course (ttl_ms lease_ttl) (acquire_script tostring k owner_runtime_id.to_hex profile.as_wire_str)
    (acquire_result community_id session_id)

def takeover (owner_runtime_id : RuntimeId) (profile : Profile) (lease_ttl : Nat) (course : Course) :
    Keys × Except DirectoryError AcquireResult :=
  acquire community_id session_id tostring k owner_runtime_id profile lease_ttl course

def renew (lease : SessionLease) (lease_ttl : Nat) (course : Course) : Keys × Except DirectoryError RenewResult :=
  call k course (ttl_ms lease_ttl) (renew_script k lease.owner_runtime_id.to_hex (toString lease.generation))
    (renew_result community_id session_id)

def release (lease : SessionLease) (course : Course) : Keys × Except DirectoryError ReleaseResult :=
  call k course (.ok 0) (release_script k lease.owner_runtime_id.to_hex (toString lease.generation))
    (release_result community_id session_id)

end
end Ambush.Tunnel

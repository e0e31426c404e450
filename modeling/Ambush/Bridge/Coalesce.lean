import Ambush.Lib.Tables
import Ambush.Bridge.Events
/-!
# Coalescing

The telemetry stream is reduced to a few frames a tick. One path keeps records, the last
one of each frame kind (`MemorySpool`), and reduces them when the tick drains them; the
other counts ingest events as they come (`IngestWindow`). A wire type that only renames
the engine's is the engine's type here.
-/
open Lib

namespace Ambush.Bridge

def COALESCE_WINDOW_MS : Nat := 1000

/-! ## Host names -/

def to_digit (radix : Nat) (c : Char) : Option Nat :=
  let n := c.toNat
  if 48 ≤ n ∧ n ≤ 57 then some (n - 48)
  else if radix = 16 ∧ 97 ≤ n ∧ n ≤ 102 then some (n - 87)
  else if radix = 16 ∧ 65 ≤ n ∧ n ≤ 70 then some (n - 55)
  else none

/-- A number of at most `max_digits` digits below `bound`, and what follows it. -/
def read_number (radix max_digits bound : Nat) ( allow_zero_prefix : Bool) (cs : List Char) : Option (List Char) :=
  let digits := cs.takeWhile (fun c => (to_digit radix c).isSome)
  let value := digits.foldl (fun acc c => acc * radix + (to_digit radix c).getD 0) 0
  if digits.length = 0 ∨ max_digits < digits.length then none
  else if ¬ allow_zero_prefix ∧ digits.head? = some '0' ∧ 1 < digits.length then none
  else if value < bound then some (cs.drop digits.length)
  else none

/-- `inner` behind a separator, except at the front. -/
def read_separator (sep : Char) (index : Nat) (inner : List Char → Option (List Char)) (cs : List Char) :
    Option (List Char) :=
  if index = 0 then inner cs
  else
    match cs with
    | c :: rest => if c = sep then inner rest else none
    | [] => none

def read_ipv4_addr (cs : List Char) : Option (List Char) :=
  [0, 1, 2, 3].foldlM (fun cs i => read_separator '.' i (read_number 10 3 256 false) cs) cs

/-- Up to `limit` groups: how many, whether the last was an IPv4 address, and what follows. -/
def read_groups (limit : Nat) : Nat → List Char → Nat × Bool × List Char
  | 0, cs => (limit, false, cs)
  | left + 1, cs =>
    let i := limit - (left + 1)
    match (if 0 < left then read_separator ':' i read_ipv4_addr cs else none) with
    | some rest => (i + 2, true, rest)
    | none =>
      match read_separator ':' i (read_number 16 4 65536 true) cs with
      | some rest => read_groups limit left rest
      | none => (i, false, cs)

def read_ipv6_addr (cs : List Char) : Option (List Char) :=
  match read_groups 8 8 cs with
  | (8, _, rest) => some rest
  | (_, true, _) => none
  | (head_size, false, ':' :: ':' :: rest) => some (read_groups (7 - head_size) (7 - head_size) rest).2.2
  | _ => none

/-- `source.parse::<IpAddr>().is_ok()`. -/
def is_ip_addr (source : String) : Bool :=
  read_ipv4_addr source.toList = some [] ∨ read_ipv6_addr source.toList = some []

def SUSPECT_SOURCE : String := "source-name-looks-like-a-host"

def looks_like_a_host (source : String) : Bool :=
  (decide (3 ≤ (source.toList.filter (· = '.')).length + 1) && source.toList.any Char.isDigit) || is_ip_addr source

/-! ## Ingest -/

structure IngestRate where
  window_ms : Nat
  accepted : Nat
  rejected : Nat
  by_source : List (String × Nat)
  deriving DecidableEq

structure IngestWindow where
  accepted : Nat := 0
  rejected : Nat := 0
  by_source : List (String × Nat) := []
  deriving DecidableEq

def IngestWindow.record (w : IngestWindow) (source : String) (accepted : Bool) : IngestWindow :=
  { accepted := if accepted then w.accepted + 1 else w.accepted
    rejected := if accepted then w.rejected else w.rejected + 1
    by_source := upsert (if looks_like_a_host source then SUSPECT_SOURCE else source) 0 (· + 1) w.by_source }

def IngestWindow.drain (w : IngestWindow) : IngestRate × IngestWindow :=
  (⟨COALESCE_WINDOW_MS, w.accepted, w.rejected, w.by_source⟩, {})

/-- The loop of `ingest_rate`. -/
def ingest_loop (accepted rejected : Nat) (by_source : List (String × Nat)) : List RuntimeEvent → IngestRate
  | [] => ⟨COALESCE_WINDOW_MS, accepted, rejected, by_source⟩
  | .Ingest _ source ok :: events =>
    ingest_loop (if ok then accepted + 1 else accepted) (if ok then rejected else rejected + 1)
      (upsert (if looks_like_a_host source then SUSPECT_SOURCE else source) 0 (· + 1) by_source) events
  | _ :: events => ingest_loop accepted rejected by_source events

def ingest_rate (events : List RuntimeEvent) : IngestRate := ingest_loop 0 0 [] events

/-! ## Reducers -/

structure ConcentrationFrame where
  current_mode : SwarmMode
  concentrations : List ThreatConcentration
  coalesced_from : Nat
  observed_at_seconds : Int
  deriving DecidableEq

/-- The last snapshot of the latest time. -/
def latest_snapshot : Option (SwarmMode × List ThreatConcentration × Int) → List RuntimeEvent →
    Option (SwarmMode × List ThreatConcentration × Int)
  | latest, [] => latest
  | latest, .ConcentrationSnapshot at_ms mode concentrations :: events =>
    latest_snapshot
      (if latest.all (fun l => l.2.2 ≤ at_ms) then some (mode, concentrations, at_ms) else latest) events
  | latest, _ :: events => latest_snapshot latest events

def concentration_frame (events : List RuntimeEvent) (coalesced_from : Nat) : Option ConcentrationFrame :=
  (latest_snapshot none events).map (fun l => ⟨l.1, l.2.1, max coalesced_from 1, l.2.2.tdiv 1000⟩)

/-- A row of the health frame while the window is read. -/
structure Row where
  role : AgentRole
  was : Option AgentHealth := none
  now : Option AgentHealth := none
  changed_at_ms : Option Int := none
  actions : List (String × Nat) := []
  deriving DecidableEq

structure AgentHealthEntry where
  agent_id : String
  role : AgentRole
  was : Option AgentHealth
  now : AgentHealth
  changed_at_ms : Option Int
  actions : List (String × Nat)
  deriving DecidableEq

/-- One event of the loop of `agent_health_frame`. -/
def health_step (rows : List (String × Row)) : RuntimeEvent → List (String × Row)
  | .AgentHealth at_ms agent_id role was now =>
    upsert agent_id { role } (fun row => { row with
      role, was := if row.was.isNone then was else row.was, now := some now, changed_at_ms := some at_ms }) rows
  | .AgentAction _ agent_id role action_kind =>
    upsert agent_id { role } (fun row => { row with actions := upsert action_kind 0 (· + 1) row.actions }) rows
  | _ => rows

def agent_health_frame (events : List RuntimeEvent) : Option (List AgentHealthEntry) :=
  let rows := events.foldl health_step []
  if rows = [] then none
  else some (rows.map (fun p => ⟨p.1, p.2.role, p.2.was, p.2.now.getD .Degraded, p.2.changed_at_ms, p.2.actions⟩))

structure ModeTransitionFrame where
  source : SwarmMode
  target : SwarmMode
  triggering_threat_class : Option ThreatClass
  reason : String
  deriving DecidableEq

def is_escalating (source target : SwarmMode) : Bool :=
  source = .Normal ∨ (source = .Alert ∧ target = .Incident)

def mode_transition : RuntimeEvent → Option ModeTransitionFrame
  | .ModeTransition _ source target triggering reason =>
    some ⟨source, target, if is_escalating source target then triggering else none, reason⟩
  | _ => none

def mode_transitions (events : List RuntimeEvent) : List ModeTransitionFrame := events.filterMap mode_transition

def latest_reading : Option (Int × GovernanceReading) → List RuntimeEvent → Option (Int × GovernanceReading)
  | latest, [] => latest
  | latest, .GovernanceStatus at_ms reading :: events =>
    latest_reading (if latest.all (fun l => l.1 ≤ at_ms) then some (at_ms, reading) else latest) events
  | latest, _ :: events => latest_reading latest events

def governance_status_frame (events : List RuntimeEvent) : Option GovernanceReading :=
  (latest_reading none events).map (·.2)

/-! ## The tick's frames -/

inductive FrameContent where
  | IngestRate (body : IngestRate)
  | Concentration (body : ConcentrationFrame)
  | AgentHealth (agents : List AgentHealthEntry)
  | ModeTransition (body : ModeTransitionFrame)
  | GovernanceStatus (body : GovernanceReading)
  deriving DecidableEq

def FrameContent.kind : FrameContent → Nat
  | .IngestRate _ => 26000
  | .Concentration _ => 26001
  | .AgentHealth _ => 26002
  | .ModeTransition _ => 26003
  | .GovernanceStatus _ => 26004

/-- A frame with its header; its JSON is what serde derives from it. -/
structure PendingFrame where
  kind : Nat
  issuer : String
  emitted_at_ms : Int
  seq : Nat
  content : FrameContent
  deriving DecidableEq

/-- The bodies of a tick, in kind order. -/
def tick_bodies (ingest : IngestRate) (events : List RuntimeEvent) (concentration_coalesced_from : Nat) :
    List FrameContent :=
  .IngestRate ingest :: ((concentration_frame events concentration_coalesced_from).map .Concentration).toList ++
    ((agent_health_frame events).map .AgentHealth).toList ++ (mode_transitions events).map .ModeTransition ++
    ((governance_status_frame events).map .GovernanceStatus).toList

/-- Number each frame after the last one of its kind. -/
def number (issuer : String) (emitted_at_ms : Int) (seqs : Map Nat Nat) : List FrameContent → List PendingFrame
  | [] => []
  | body :: bodies =>
    let seq := (seqs body.kind).getD 0 + 1
    ⟨body.kind, issuer, emitted_at_ms, seq, body⟩ :: number issuer emitted_at_ms (seqs.insert body.kind seq) bodies

def tick_frames (ingest : IngestRate) (events : List RuntimeEvent) (concentration_coalesced_from : Nat) (issuer : String)
    (emitted_at_ms : Int) (seqs : Map Nat Nat) : List PendingFrame :=
  number issuer emitted_at_ms seqs (tick_bodies ingest events concentration_coalesced_from)

/-! ## The spool -/

def telemetry_slot_key : RuntimeEvent → Option String
  | .ConcentrationSnapshot .. => some "26001"
  | .AgentHealth .. | .AgentAction .. => some "26002"
  | .ModeTransition .. => some "26003"
  | .GovernanceStatus .. => some "26004"
  | .TamperAlert => some "26005"
  | _ => none

/-- A slot's record and how many landed in it. -/
abbrev MemorySpool := List (String × (Record × Nat))

def MemorySpool.put (spool : MemorySpool) (key : String) (record : Record) : MemorySpool :=
  upsert key (record, 0) (fun slot => (record, slot.2 + 1)) spool

section
variable (decode : Bytes → Option RuntimeEvent)

def telemetry_slot_key_for (record : Record) : String :=
  ((decode record.payload).bind telemetry_slot_key).getD "other"

/-- The parts of a `SpoolSet` that are not on the disk. -/
structure Gauges where
  telemetry : MemorySpool := []
  ingest_window : IngestWindow := {}
  dropped_at_source : Nat := 0
  deriving DecidableEq

/-- `SpoolSet::append`, of which the disk spools are left out. -/
def Gauges.append (g : Gauges) (stream : Stream) (record : Record) : Gauges :=
  match stream with
  | .Evidence | .Alarm => g
  | .Telemetry => { g with telemetry := g.telemetry.put (telemetry_slot_key_for decode record) record }
  | .DroppedAtSource =>
    { g with
      dropped_at_source := g.dropped_at_source + 1
      ingest_window :=
        match decode record.payload with
        | some (.Ingest _ source accepted) => g.ingest_window.record source accepted
        | _ => g.ingest_window }

/-- The slot whose count is the concentration's `coalesced_from`. -/
def CONCENTRATION_SLOT : String := "26001"

/-- The frames `publish_tick` builds from what it drains. -/
def publish_tick (g : Gauges) (issuer : String) (seqs : Map Nat Nat) (now_ms : Int) : List PendingFrame :=
  let events := g.telemetry.filterMap (fun slot => decode slot.2.1.payload)
  let coalesced_from := ((lookup CONCENTRATION_SLOT g.telemetry).map (·.2)).getD 0
  tick_frames g.ingest_window.drain.1 events coalesced_from issuer now_ms seqs
end

end Ambush.Bridge

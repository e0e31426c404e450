import Ambush.Lib.LineFiles
import Ambush.Core.SignedState
import Ambush.Pheromone.Sources
import Mathlib.Logic.Function.Basic
/-!
# The files of the local journal

Five files of JSON lines and one with the sequences of the behavioral baselines, as bytes. A call
that changes a table appends a line to its file, or truncates the file and writes all of the table
again; the table and the bytes agree when it returns. Opening the substrate reads all six files and
fails on the first line that cannot be read.
-/
open Lib

namespace Ambush.Pheromone.OnDisk
open Ambush.Bridge (ThreatClass)

/-! ## Entries and their text -/

inductive LineFile where
  | journal | escalation | threat_class_config | threat_intel | behavioral_baseline
  deriving DecidableEq

inductive JournalPath where
  | lines (file : LineFile)
  | behavioral_baseline_sequence
  deriving DecidableEq

/-- The host, identity and peer-group baselines are read by nothing here. -/
structure BehavioralBaselineSnapshot (B : Type) where
  strategy_id : String
  captured_at : Int
  scopes : B

abbrev BehavioralBaselineEnvelope := SignedStateEnvelope

def BEHAVIORAL_BASELINE_STATE_KIND : String := "behavioral_baseline_snapshot"

/-- What the lines of a file are. -/
abbrev Entry (F : Type) : LineFile → Type
  | .journal => SignedDeposit F
  | .escalation => EscalationRecord F
  | .threat_class_config => ThreatClassConfig F
  | .threat_intel => ThreatIntelEntry F
  | .behavioral_baseline => BehavioralBaselineEnvelope

/-- A location is the path and the line. -/
inductive SubstrateError where
  | Deposit (error : Pheromone.SubstrateError)
  | Read (path : JournalPath)
  | Parse (path : JournalPath) (line : Nat) (source : String)
  | Decode (path : JournalPath) (line : Nat) (source : String)
  | InvalidBehavioralBaseline (strategy_id : String) (source : SignedStateError)

/-- `serde_json` at the types of the files. A deposit is read as a value first. -/
structure Serde (F B : Type) where
  deposit : SignedDeposit F → String
  from_slice : String → Except String Value
  from_value : Value → Except String (SignedDeposit F)
  escalation : Codec (EscalationRecord F)
  threat_class_config : Codec (ThreatClassConfig F)
  threat_intel : Codec (ThreatIntelEntry F)
  behavioral_baseline : Codec BehavioralBaselineEnvelope
  /-- `to_string_pretty`, of a map in key order. -/
  sequences : Codec (List (String × U64))
  snapshot : Codec (BehavioralBaselineSnapshot B)

/-- What the substrate takes from outside. -/
structure Outside (F K B : Type) [LinearOrder F] where
  decay : Decay F
  signatures : Signatures F K
  crypto : Crypto
  json : Serde F B

/-- `line.trim().is_empty()`. -/
def is_blank (line : String) : Bool := trim line = ""

def as_u64 : Value → Option Nat
  | .integer n => if 0 ≤ n ∧ n ≤ u64Max then some n.toNat else none
  | _ => none

section
variable {F B : Type} (json : Serde F B)

def decode_deposit_payload (line : Nat) (payload : String) : Except SubstrateError (SignedDeposit F) := do
  let raw ← (json.from_slice payload).mapError (.Decode (.lines .journal) line)
  let schema_version := ((raw.get "schema_version").bind as_u64).elim PHEROMONE_DEPOSIT_PREVIOUS_SCHEMA_VERSION (· % 2 ^ 32)
  (ensure_supported_deposit_schema_version schema_version).mapError .Deposit
  (json.from_value raw).mapError (.Decode (.lines .journal) line)

/-- The lines of `load_jsonl` and `append_jsonl_line` at one type. -/
def jsonl {T : Type} (file : LineFile) (codec : Codec T) : Format T SubstrateError where
  write := codec.to_string
  read line text := (codec.from_str text).mapError (.Parse (.lines file) line)
  blank := is_blank
  invalid := .Read (.lines file)

/-- `load_deposit_jsonl` decodes a line differently. -/
def format : (file : LineFile) → Format (Entry F file) SubstrateError
  | .journal => ⟨json.deposit, decode_deposit_payload json, is_blank, .Read (.lines .journal)⟩
  | .escalation => jsonl .escalation json.escalation
  | .threat_class_config => jsonl .threat_class_config json.threat_class_config
  | .threat_intel => jsonl .threat_intel json.threat_intel
  | .behavioral_baseline => jsonl .behavioral_baseline json.behavioral_baseline

/-! ## The disk -/

/-- A file that does not exist has no bytes. -/
structure Disk where
  lines : LineFile → Option Bytes
  behavioral_baseline_sequence : Option Bytes

def Disk.empty : Disk := ⟨fun _ => none, none⟩

/-- What one file is written in a call. -/
inductive FileWrite (F : Type) where
  /-- `append_jsonl_line`, or opening the file to append with nothing to write. -/
  | append (file : LineFile) (entries : List (Entry F file))
  /-- `rewrite_jsonl`. -/
  | rewrite (file : LineFile) (entries : List (Entry F file))
  /-- `write_behavioral_baseline_sequences`. -/
  | write_sequences (sequences : List (String × U64))
  /-- The sequence file is created if it is missing. -/
  | create_sequences

def FileWrite.bytes : FileWrite F → Bytes
  | .append file entries | .rewrite file entries => (format json file).text entries
  | .write_sequences sequences => utf8 (json.sequences.to_string sequences)
  | .create_sequences => []

/-- The disk when the front of the write's bytes has reached it: a rewrite and the sequences truncate their file before. -/
def Disk.put (disk : Disk) (write : FileWrite F) (front : Bytes) : Disk :=
  match write with
  | .append file _ => { disk with lines := Function.update disk.lines file (some ((disk.lines file).getD [] ++ front)) }
  | .rewrite file _ => { disk with lines := Function.update disk.lines file (some front) }
  | .write_sequences _ => { disk with behavioral_baseline_sequence := some front }
  | .create_sequences => { disk with behavioral_baseline_sequence := some (disk.behavioral_baseline_sequence.getD []) }

def Disk.write (disk : Disk) (write : FileWrite F) : Disk := disk.put write (write.bytes json)

def load_jsonl (disk : Disk) (file : LineFile) : Except SubstrateError (List (Entry F file)) :=
  match disk.lines file with
  | none => .ok []
  | some bytes => (format json file).load bytes

def load_behavioral_baseline_sequences (disk : Disk) : Except SubstrateError (List (String × U64)) :=
  match disk.behavioral_baseline_sequence with
  | none => .ok []
  | some bytes =>
    match from_utf8 bytes with
    | none => .error (.Read .behavioral_baseline_sequence)
    | some raw => (json.sequences.from_str raw).mapError (.Parse .behavioral_baseline_sequence 0)

end

section
variable {F K B : Type} [LinearOrder F] (o : Outside F K B)

def verify_behavioral_baseline_snapshot (envelope : BehavioralBaselineEnvelope) (strategy_id : String)
    (expected_signer_agent_id : Option AgentId) (accepted_sequence : Option U64) :
    Except SubstrateError (VerifiedSignedState (BehavioralBaselineSnapshot B)) :=
  (envelope.verify o.crypto o.json.snapshot ⟨BEHAVIORAL_BASELINE_STATE_KIND, strategy_id, expected_signer_agent_id, accepted_sequence⟩).mapError
    (.InvalidBehavioralBaseline strategy_id)

/-- The accepted sequence of a strategy. -/
def sequence_of (strategy_id : String) (sequences : List (String × U64)) : Option U64 := (find Prod.fst strategy_id sequences).map (·.2)

/-- One turn of the loop over the lines. -/
def load_snapshot (tables : List BehavioralBaselineEnvelope × List (String × U64)) (entry : BehavioralBaselineEnvelope) :
    Except SubstrateError (List BehavioralBaselineEnvelope × List (String × U64)) := do
  let strategy_id := entry.stream_id
  let accepted_sequence := sequence_of strategy_id tables.2
  let _ ← verify_behavioral_baseline_snapshot o entry strategy_id none accepted_sequence
  .ok (put SignedStateEnvelope.stream_id entry tables.1,
    put Prod.fst (strategy_id, accepted_sequence.elim entry.sequence (fun current => max current entry.sequence)) tables.2)

def load_behavioral_baseline_snapshots (entries : List BehavioralBaselineEnvelope) (sequences : List (String × U64)) :
    Except SubstrateError (List BehavioralBaselineEnvelope × List (String × U64)) :=
  entries.foldlM (load_snapshot o) ([], sequences)

/-! ## The substrate -/

/-- The tables, those of intel and baselines in the order of their keys, and the files. -/
structure LocalJournalPheromoneSubstrate (F : Type) where
  config : PheromoneConfig F
  admitted_identities : Option (List String)
  deposits : List (SignedDeposit F)
  escalations : List (EscalationRecord F)
  threat_class_configs : Map ThreatClass (ThreatClassConfig F)
  threat_intel_entries : List (ThreatIntelEntry F)
  behavioral_baseline_snapshots : List BehavioralBaselineEnvelope
  behavioral_baseline_sequences : List (String × U64)
  disk : Disk

/-- The calls that write. -/
inductive JournalCall (F B : Type) where
  | set_admitted_identities (identities : List String)
  | deposit (deposit : SignedDeposit F)
  | record_escalation (record : EscalationRecord F)
  | store_threat_class_config (config : ThreatClassConfig F)
  | store_threat_intel_entry (entry : ThreatIntelEntry F)
  | store_behavioral_baseline_snapshot (snapshot : BehavioralBaselineSnapshot B) (signer_agent_id : AgentId) (signing_key : SigningKey)
  | gc_evaporated (now : Int)
  | gc_expired_threat_intel (now : Int)
  | health

def next_behavioral_baseline_sequence (current_sequence : Option U64) : U64 :=
  ⟨satAdd (current_sequence.elim 0 (·.1)) 1, Nat.min_le_right _ _⟩

namespace LocalJournalPheromoneSubstrate

/-- `open`. -/
def opened (config : PheromoneConfig F) (disk : Disk) : Except SubstrateError (LocalJournalPheromoneSubstrate F) := do
  let deposits ← load_jsonl o.json disk .journal
  let escalations ← load_jsonl o.json disk .escalation
  let threat_class_configs ← load_jsonl o.json disk .threat_class_config
  let threat_intel_entries ← load_jsonl o.json disk .threat_intel
  let sequences ← load_behavioral_baseline_sequences o.json disk
  let entries ← load_jsonl o.json disk .behavioral_baseline
  let baselines ← load_behavioral_baseline_snapshots o entries sequences
  .ok {
    config := config
    admitted_identities := none
    deposits := deposits
    escalations := escalations
    threat_class_configs := load_threat_class_configs threat_class_configs
    threat_intel_entries := load_threat_intel_entries threat_intel_entries
    behavioral_baseline_snapshots := baselines.1
    behavioral_baseline_sequences := baselines.2
    disk := disk.write o.json (.write_sequences baselines.2 : FileWrite F) }

/-- The tables after a call and what it writes, in order. -/
def call (s : LocalJournalPheromoneSubstrate F) :
    JournalCall F B → Except SubstrateError (LocalJournalPheromoneSubstrate F × List (FileWrite F))
  | .set_admitted_identities identities => .ok ({ s with admitted_identities := some identities }, [])
  | .deposit deposit => do
    (validate_deposit_signature o.signatures deposit).mapError .Deposit
    (validate_deposit_admission s.admitted_identities deposit).mapError .Deposit
    .ok ({ s with deposits := s.deposits ++ [deposit] }, [.append .journal [deposit]])
  | .record_escalation record => .ok ({ s with escalations := s.escalations ++ [record] }, [.append .escalation [record]])
  | .store_threat_class_config config => .ok
      ({ s with threat_class_configs := s.threat_class_configs.insert config.threat_class config },
        [.append .threat_class_config [config]])
  | .store_threat_intel_entry entry =>
    let entry := normalize_threat_intel_entry entry
    .ok ({ s with threat_intel_entries := put threat_intel_key entry s.threat_intel_entries }, [.append .threat_intel [entry]])
  | .store_behavioral_baseline_snapshot snapshot signer_agent_id signing_key => do
    let strategy_id := snapshot.strategy_id
    let sequence := next_behavioral_baseline_sequence ((sequence_of strategy_id s.behavioral_baseline_sequences).or
      ((find SignedStateEnvelope.stream_id strategy_id s.behavioral_baseline_snapshots).map SignedStateEnvelope.sequence))
    let envelope ← (SignedStateEnvelope.sign o.crypto o.json.snapshot BEHAVIORAL_BASELINE_STATE_KIND strategy_id signer_agent_id sequence
      snapshot signing_key).mapError (.InvalidBehavioralBaseline strategy_id)
    let snapshots := put SignedStateEnvelope.stream_id envelope s.behavioral_baseline_snapshots
    let sequences := put Prod.fst (strategy_id, sequence) s.behavioral_baseline_sequences
    .ok ({ s with behavioral_baseline_snapshots := snapshots, behavioral_baseline_sequences := sequences },
      [.rewrite .behavioral_baseline snapshots, .write_sequences sequences])
  | .gc_evaporated now =>
    let kept := s.deposits.filter (fun deposit => !is_evaporated o.decay deposit.toPheromoneDeposit now
      (s.config.resolve_threat_class_policy (s.threat_class_configs deposit.threat_class)).evaporation_threshold)
    .ok ({ s with deposits := kept }, [.rewrite .journal kept])
  | .gc_expired_threat_intel now =>
    let kept := s.threat_intel_entries.filter (fun entry => now < entry.expires_at)
    .ok ({ s with threat_intel_entries := kept }, [.rewrite .threat_intel kept])
  | .health => .ok (s, [.append .journal [], .append .escalation [], .append .threat_class_config [], .append .threat_intel [],
      .append .behavioral_baseline [], .create_sequences])

def writes (s : LocalJournalPheromoneSubstrate F) (next : JournalCall F B) : List (FileWrite F) :=
  match s.call o next with
  | .ok result => result.2
  | .error _ => []

/-- A call that fails has written nothing. -/
def run (s : LocalJournalPheromoneSubstrate F) (next : JournalCall F B) : LocalJournalPheromoneSubstrate F :=
  match s.call o next with
  | .ok result => { result.1 with disk := result.2.foldl (Disk.write o.json) s.disk }
  | .error _ => s

/-- What is on the disk when a call is cut short: what it had written, and the front of what it was writing. -/
def crashed (s : LocalJournalPheromoneSubstrate F) (done : List (FileWrite F)) (write : FileWrite F) (front : Bytes) : Disk :=
  (done.foldl (Disk.write o.json) s.disk).put write front

end LocalJournalPheromoneSubstrate
end

end Ambush.Pheromone.OnDisk

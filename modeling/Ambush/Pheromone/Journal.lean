import Ambush.Lib.Logs
import Ambush.Lib.Runs
import Ambush.Bridge.ChainHeads
import Ambush.Pheromone.Deposits
import Mathlib.Data.Prod.Lex
import Mathlib.Data.String.Basic
/-!
# The local journal

A substrate in memory with a file of JSON lines for each of its tables, read again when it
is opened. `deposit` and both collections write their file under the lock of their table.
`record_escalation` and both `store_*` calls append first and take the lock for the table
afterwards, so other calls can come in between.
-/
open Lib

namespace Ambush.Pheromone
open Ambush.Bridge (ThreatClass SwarmMode ascii_lowercase)

structure EscalationRecord (F : Type) where
  mode : SwarmMode
  threat_class : ThreatClass
  total_strength : F
  distinct_sources : Nat
  peak_confidence : F
  timestamp : Int
  deriving DecidableEq

/-! ## Threat intel -/

inductive ThreatIntelIndicatorType where
  | IpAddress | Domain | FileHash | Url
  deriving DecidableEq

/-- The derived order is the order of the variants. -/
def ThreatIntelIndicatorType.rank : ThreatIntelIndicatorType → Nat
  | .IpAddress => 0
  | .Domain => 1
  | .FileHash => 2
  | .Url => 3

structure ThreatIntelEntry (F : Type) where
  indicator_type : ThreatIntelIndicatorType
  value : String
  source : String := "operator"
  indicator_id : Option String := none
  confidence : F
  expires_at : Int
  deriving DecidableEq

/-- The text through the first `://` and the text after it. -/
def split_scheme : List Char → Option (List Char × List Char)
  | [] => none
  | c :: cs =>
    if "://".toList.isPrefixOf (c :: cs) then some ("://".toList, cs.drop 2)
    else (split_scheme cs).map (fun parts => (c :: parts.1, parts.2))

/-- Scheme and authority in lower case, and one `/` off the end of the path. -/
def normalize_url_value (value : String) : String :=
  let (scheme, after_scheme) := (split_scheme value.toList).getD ([], value.toList)
  let authority := after_scheme.takeWhile (fun c => !(['/', '?', '#'].contains c))
  let remainder := after_scheme.dropWhile (fun c => !(['/', '?', '#'].contains c))
  let path := remainder.takeWhile (fun c => !(['?', '#'].contains c))
  let query_frag := remainder.dropWhile (fun c => !(['?', '#'].contains c))
  let path_normalized := if path.getLast? = some '/' then path.dropLast else path
  ascii_lowercase (String.ofList (scheme ++ authority)) ++ String.ofList (path_normalized ++ query_frag)

/-- `trim_end_matches('.')`. -/
def trim_end_dots (value : String) : String := String.ofList (value.toList.reverse.dropWhile (· == '.')).reverse

def normalize_threat_intel_value (indicator_type : ThreatIntelIndicatorType) (value : String) : String :=
  match indicator_type with
  | .Domain => ascii_lowercase (trim_end_dots (trim value))
  | .Url => normalize_url_value (trim value)
  | .IpAddress | .FileHash => ascii_lowercase (trim value)

abbrev ThreatIntelKey := Nat ×ₗ String

section
variable {F : Type}

def normalize_threat_intel_entry (entry : ThreatIntelEntry F) : ThreatIntelEntry F :=
  { entry with value := normalize_threat_intel_value entry.indicator_type entry.value }

/-- `threat_intel_key`, which normalizes the value of the entry, normalized already, once more. -/
def threat_intel_key (entry : ThreatIntelEntry F) : ThreatIntelKey :=
  toLex (entry.indicator_type.rank, normalize_threat_intel_value entry.indicator_type entry.value)

/-! ## The files and the tables -/

/-- The lines of each file. -/
structure JournalFiles (F : Type) where
  deposits : List (PheromoneDeposit F)
  escalations : List (EscalationRecord F)
  threat_class_configs : List (ThreatClassConfig F)
  threat_intel : List (ThreatIntelEntry F)

/-- `threat_intel_entries` are the values in the order of their keys. -/
structure LocalJournalPheromoneSubstrate (F : Type) where
  config : PheromoneConfig F
  files : JournalFiles F
  deposits : List (PheromoneDeposit F)
  escalations : List (EscalationRecord F)
  threat_class_configs : Map ThreatClass (ThreatClassConfig F)
  threat_intel_entries : List (ThreatIntelEntry F)

def load_threat_class_configs (lines : List (ThreatClassConfig F)) : Map ThreatClass (ThreatClassConfig F) :=
  lines.foldl (fun configs entry => configs.insert entry.threat_class entry) Map.empty

def load_threat_intel_entries (lines : List (ThreatIntelEntry F)) : List (ThreatIntelEntry F) :=
  lines.foldl (fun entries entry => put threat_intel_key (normalize_threat_intel_entry entry) entries) []

/-- `open`: the tables are what the files say. -/
def LocalJournalPheromoneSubstrate.opened (config : PheromoneConfig F) (files : JournalFiles F) :
    LocalJournalPheromoneSubstrate F where
  config := config
  files := files
  deposits := files.deposits
  escalations := files.escalations
  threat_class_configs := load_threat_class_configs files.threat_class_configs
  threat_intel_entries := load_threat_intel_entries files.threat_intel

/-! ## Calls and their steps -/

/-- The substrate and what the calls under way have appended and not yet put into its tables, oldest first. -/
structure JournalCalls (F : Type) where
  journal : LocalJournalPheromoneSubstrate F
  recording : List (EscalationRecord F) := []
  configuring : List (ThreatClassConfig F) := []
  storing : List (ThreatIntelEntry F) := []

/-- A step of a call: all of it where it holds the lock throughout, else its append or its insertion. A call that inserts is named
by its place among those that have appended. -/
inductive JournalMove (F : Type) where
  | deposit (deposit : PheromoneDeposit F)
  | escalation_appended (record : EscalationRecord F)
  | escalation_pushed (call : Nat)
  | config_appended (config : ThreatClassConfig F)
  | config_inserted (call : Nat)
  | intel_appended (entry : ThreatIntelEntry F)
  | intel_inserted (call : Nat)
  | gc_evaporated (now : Int)
  | gc_expired_threat_intel (now : Int)

variable [LinearOrder F] (decay : Decay F)

namespace LocalJournalPheromoneSubstrate

/-- An accepted deposit is appended and pushed under one lock. -/
def deposit (s : LocalJournalPheromoneSubstrate F) (deposit : PheromoneDeposit F) : LocalJournalPheromoneSubstrate F :=
  { s with
    files := { s.files with deposits := s.files.deposits ++ [deposit] }
    deposits := s.deposits ++ [deposit] }

def gc_evaporated (s : LocalJournalPheromoneSubstrate F) (now : Int) : LocalJournalPheromoneSubstrate F :=
  let kept := s.deposits.filter (fun deposit =>
    !is_evaporated decay deposit now
      (s.config.resolve_threat_class_policy (s.threat_class_configs deposit.threat_class)).evaporation_threshold)
  { s with files := { s.files with deposits := kept }, deposits := kept }

def gc_expired_threat_intel (s : LocalJournalPheromoneSubstrate F) (now : Int) : LocalJournalPheromoneSubstrate F :=
  let kept := s.threat_intel_entries.filter (fun entry => now < entry.expires_at)
  { s with files := { s.files with threat_intel := kept }, threat_intel_entries := kept }

end LocalJournalPheromoneSubstrate

def JournalCalls.move (s : JournalCalls F) : JournalMove F → Option (JournalCalls F)
  | .deposit deposit => some { s with journal := s.journal.deposit deposit }
  | .gc_evaporated now => some { s with journal := s.journal.gc_evaporated decay now }
  | .gc_expired_threat_intel now => some { s with journal := s.journal.gc_expired_threat_intel now }
  | .escalation_appended record => some { s with
      journal.files.escalations := s.journal.files.escalations ++ [record]
      recording := s.recording ++ [record] }
  | .escalation_pushed call => do
    let record ← s.recording[call]?
    some { s with
      journal.escalations := s.journal.escalations ++ [record]
      recording := s.recording.eraseIdx call }
  | .config_appended config => some { s with
      journal.files.threat_class_configs := s.journal.files.threat_class_configs ++ [config]
      configuring := s.configuring ++ [config] }
  | .config_inserted call => do
    let config ← s.configuring[call]?
    some { s with
      journal.threat_class_configs := s.journal.threat_class_configs.insert config.threat_class config
      configuring := s.configuring.eraseIdx call }
  | .intel_appended entry =>
    let entry := normalize_threat_intel_entry entry
    some { s with
      journal.files.threat_intel := s.journal.files.threat_intel ++ [entry]
      storing := s.storing ++ [entry] }
  | .intel_inserted call => do
    let entry ← s.storing[call]?
    some { s with
      journal.threat_intel_entries := put threat_intel_key entry s.journal.threat_intel_entries
      storing := s.storing.eraseIdx call }

/-! ## What is read again -/

/-- The substrate as it is when its files are opened again. -/
def LocalJournalPheromoneSubstrate.reopened (s : LocalJournalPheromoneSubstrate F) : LocalJournalPheromoneSubstrate F :=
  .opened s.config s.files

/-- Every call has returned. -/
structure JournalCalls.Returned (s : JournalCalls F) : Prop where
  recording : s.recording = []
  configuring : s.configuring = []
  storing : s.storing = []

/-- No entry overtakes an earlier one of its key on its way into its table, an entry that is stored is normalized as far as it will
be when it is read, and so is one that a collection writes, which waits for the stores under way. -/
def Orderly (s : JournalCalls F) : JournalMove F → Prop
  | .config_inserted call =>
    ∀ config ∈ s.configuring[call]?, ∀ earlier ∈ s.configuring.take call, earlier.threat_class ≠ config.threat_class
  | .intel_appended entry => normalize_threat_intel_entry (normalize_threat_intel_entry entry) = normalize_threat_intel_entry entry
  | .intel_inserted call =>
    ∀ entry ∈ s.storing[call]?, ∀ earlier ∈ s.storing.take call, threat_intel_key earlier ≠ threat_intel_key entry
  | .gc_expired_threat_intel now =>
    s.storing = [] ∧ ∀ entry ∈ s.journal.threat_intel_entries, now < entry.expires_at → normalize_threat_intel_entry entry = entry
  | _ => True

instance (s : JournalCalls F) : (move : JournalMove F) → Decidable (Orderly s move)
  | .config_inserted call => inferInstanceAs (Decidable
    (∀ config ∈ s.configuring[call]?, ∀ earlier ∈ s.configuring.take call, earlier.threat_class ≠ config.threat_class))
  | .intel_appended entry => inferInstanceAs (Decidable
    (normalize_threat_intel_entry (normalize_threat_intel_entry entry) = normalize_threat_intel_entry entry))
  | .intel_inserted call => inferInstanceAs (Decidable
    (∀ entry ∈ s.storing[call]?, ∀ earlier ∈ s.storing.take call, threat_intel_key earlier ≠ threat_intel_key entry))
  | .gc_expired_threat_intel now => inferInstanceAs (Decidable
    (s.storing = [] ∧ ∀ entry ∈ s.journal.threat_intel_entries, now < entry.expires_at → normalize_threat_intel_entry entry = entry))
  | .deposit _ | .escalation_appended _ | .escalation_pushed _ | .config_appended _ | .gc_evaporated _ => inferInstanceAs (Decidable True)

def Moves (s : JournalCalls F) (move : JournalMove F) (s' : JournalCalls F) : Prop := s.move decay move = some s'

/-- A step that keeps to the order. -/
def MovesOrderly (s : JournalCalls F) (move : JournalMove F) (s' : JournalCalls F) : Prop := Moves decay s move s' ∧ Orderly s move

/-- Each file says what its table will be once the calls under way have returned. -/
structure Kept (s : JournalCalls F) : Prop where
  deposits : s.journal.files.deposits = s.journal.deposits
  escalations : s.journal.files.escalations.Perm (s.journal.escalations ++ s.recording)
  configs : Lags (·.threat_class) s.journal.files.threat_class_configs s.configuring s.journal.threat_class_configs
  intel : Lags threat_intel_key (s.journal.files.threat_intel.map normalize_threat_intel_entry) s.storing
    (fun key => find threat_intel_key key s.journal.threat_intel_entries)
  ordered : Ordered threat_intel_key s.journal.threat_intel_entries

omit [LinearOrder F] in
theorem load_threat_class_configs_eq (lines : List (ThreatClassConfig F)) :
    load_threat_class_configs lines = fun threat_class => last (·.threat_class) threat_class lines := by
  induction lines using List.reverseRecOn with
  | nil => rfl
  | append_singleton lines entry ih =>
    rw [load_threat_class_configs, List.foldl_concat, ← load_threat_class_configs, ih]
    funext threat_class
    rw [Map.insert_apply]
    by_cases hclass : entry.threat_class = threat_class
    · rw [if_pos hclass.symm, last_concat_self hclass]
    · rw [if_neg (Ne.symm hclass), last_concat_ne hclass]

omit [LinearOrder F] in
theorem load_threat_intel_entries_eq (lines : List (ThreatIntelEntry F)) :
    load_threat_intel_entries lines =
      (lines.map normalize_threat_intel_entry).foldl (fun entries entry => put threat_intel_key entry entries) [] := by
  rw [List.foldl_map]
  rfl

omit [LinearOrder F] in
theorem find_load (lines : List (ThreatIntelEntry F)) (key : ThreatIntelKey) :
    find threat_intel_key key (load_threat_intel_entries lines) =
      last threat_intel_key key (lines.map normalize_threat_intel_entry) := by
  rw [load_threat_intel_entries_eq, find_foldl_put]
  exact Option.or_none

omit [LinearOrder F] in
theorem ordered_load (lines : List (ThreatIntelEntry F)) : Ordered threat_intel_key (load_threat_intel_entries lines) := by
  rw [load_threat_intel_entries_eq]
  exact ordered_foldl_put _ List.Pairwise.nil

omit [LinearOrder F] in
theorem kept_opened (config : PheromoneConfig F) (files : JournalFiles F) : Kept ⟨.opened config files, [], [], []⟩ where
  deposits := rfl
  escalations := by
    rw [List.append_nil]
    exact List.Perm.refl _
  configs := by
    refine lags_of_eq (fun threat_class => ?_)
    exact (congrFun (load_threat_class_configs_eq files.threat_class_configs) threat_class).symm
  intel := lags_of_eq (fun key => (find_load files.threat_intel key).symm)
  ordered := ordered_load files.threat_intel

variable {decay} {s s' : JournalCalls F} {next : JournalMove F}

omit [LinearOrder F] in
/-- A collection leaves in the file what it leaves in the table. -/
theorem Kept.gc_expired {now : Int} (hs : Kept s) (h : Orderly s (.gc_expired_threat_intel now)) :
    Kept { s with journal := s.journal.gc_expired_threat_intel now } where
  deposits := hs.deposits
  escalations := hs.escalations
  configs := hs.configs
  intel := by
    obtain ⟨hnone, hnormal⟩ := h
    have hordered := hs.ordered.filter (fun entry => now < entry.expires_at)
    have hsame : (s.journal.threat_intel_entries.filter (fun entry => now < entry.expires_at)).map normalize_threat_intel_entry =
        s.journal.threat_intel_entries.filter (fun entry => now < entry.expires_at) := by
      refine (List.map_congr_left (fun entry hentry => ?_)).trans (List.map_id _)
      obtain ⟨hmem, hlive⟩ := List.mem_filter.1 hentry
      exact hnormal entry hmem (by simpa using hlive)
    show Lags threat_intel_key ((s.journal.threat_intel_entries.filter (fun entry => now < entry.expires_at)).map
      normalize_threat_intel_entry) s.storing _
    rw [hsame, hnone]
    exact lags_of_eq (last_eq_find hordered)
  ordered := hs.ordered.filter _

/-- One step of one call. -/
theorem Kept.move (hs : Kept s) (h : MovesOrderly decay s next s') : Kept s' := by
  obtain ⟨hmove, horder⟩ := h
  cases next with
  | deposit deposit =>
    obtain rfl := Option.some.inj hmove
    exact { hs with deposits := congrArg (· ++ [deposit]) hs.deposits }
  | escalation_appended record =>
    obtain rfl := Option.some.inj hmove
    refine { hs with escalations := ?_ }
    rw [← List.append_assoc]
    exact hs.escalations.append_right _
  | escalation_pushed call =>
    obtain ⟨record, hrecord, hmove⟩ := Option.bind_eq_some_iff.1 hmove
    obtain rfl := Option.some.inj hmove
    refine { hs with escalations := hs.escalations.trans ?_ }
    show (s.journal.escalations ++ s.recording).Perm (s.journal.escalations ++ [record] ++ s.recording.eraseIdx call)
    rw [List.append_assoc, List.eraseIdx_eq_take_drop_succ]
    refine List.Perm.append_left _ ?_
    nth_rewrite 1 [eq_take_cons_drop hrecord]
    exact List.perm_middle
  | config_appended config =>
    obtain rfl := Option.some.inj hmove
    exact { hs with configs := hs.configs.write config }
  | config_inserted call =>
    obtain ⟨config, hconfig, hmove⟩ := Option.bind_eq_some_iff.1 hmove
    obtain rfl := Option.some.inj hmove
    exact { hs with configs := hs.configs.enter_at hconfig (horder config hconfig) (fun _ => rfl) }
  | intel_appended entry =>
    obtain rfl := Option.some.inj hmove
    refine { hs with intel := ?_ }
    have hwrite := hs.intel.write (normalize_threat_intel_entry entry)
    rw [List.map_append, List.map_singleton, horder]
    exact hwrite
  | intel_inserted call =>
    obtain ⟨entry, hentry, hmove⟩ := Option.bind_eq_some_iff.1 hmove
    obtain rfl := Option.some.inj hmove
    exact { hs with
      intel := hs.intel.enter_at hentry (horder entry hentry) (find_put entry _)
      ordered := ordered_put entry hs.ordered }
  | gc_evaporated now =>
    obtain rfl := Option.some.inj hmove
    exact { hs with deposits := rfl }
  | gc_expired_threat_intel now =>
    obtain rfl := Option.some.inj hmove
    exact hs.gc_expired horder

omit [LinearOrder F] in
/-- The files of a substrate whose calls have all returned say what its tables are. -/
theorem Kept.reopened (hs : Kept s) (hr : s.Returned) :
    s.journal.reopened.deposits = s.journal.deposits ∧
      s.journal.reopened.threat_class_configs = s.journal.threat_class_configs ∧
      s.journal.reopened.threat_intel_entries = s.journal.threat_intel_entries ∧
      s.journal.reopened.escalations.Perm s.journal.escalations := by
  have hconfigs := hs.configs
  have hintel := hs.intel
  have hescalations := hs.escalations
  rw [hr.configuring] at hconfigs
  rw [hr.storing] at hintel
  rw [hr.recording, List.append_nil] at hescalations
  refine ⟨hs.deposits, ?_, ?_, hescalations⟩
  · exact (load_threat_class_configs_eq _).trans hconfigs.caught_up
  · refine (ordered_load _).ext hs.ordered (fun key => ?_)
    rw [find_load]
    exact congrFun hintel.caught_up key

end

/-! ## Stores that come in order and stores that do not -/

/-- Strengths that stay as deposited. -/
def steady : Decay Int := ⟨fun deposit _ => deposit.confidence, fun _ _ _ _ => le_refl _⟩

def fresh_journal : JournalCalls Int := ⟨.opened ⟨3600, 10, 2, 2000, 5000, 300⟩ ⟨[], [], [], []⟩, [], [], []⟩

def execution_config (half_life_secs : Int) : ThreatClassConfig Int := ⟨.Execution, half_life_secs, 10, 2000, 5000⟩

/-- An indicator of an operator, `Evil.Example.` as typed. -/
def evil_domain : ThreatIntelEntry Int where
  indicator_type := .Domain
  value := "Evil.Example."
  confidence := 900
  expires_at := 1000

/-- Two configs of one class that go in as they were appended, a store between them, and both collections. -/
def stores_in_order : List (JournalMove Int) :=
  [.config_appended (execution_config 60), .intel_appended evil_domain, .config_appended (execution_config 600), .config_inserted 0,
    .intel_inserted 0, .config_inserted 0, .gc_expired_threat_intel 0, .gc_evaporated 0]

/-- The collection writes the file from a table that the stored entry is not in yet. -/
def collected_between : List (JournalMove Int) := [.intel_appended evil_domain, .gc_expired_threat_intel 0, .intel_inserted 0]

/-- The later line of the file goes into the table first. -/
def overtaken : List (JournalMove Int) :=
  [.config_appended (execution_config 60), .config_appended (execution_config 600), .config_inserted 1, .config_inserted 0]

end Ambush.Pheromone

import Ambush.Lib.Runs
import Ambush.Pheromone.DiskLogs
/-!
# A journal that is cut short

A call that the process does not survive leaves the front of what it was writing. An appended line
and a rewrite are read again when what is left ends where a line does; the substrate does not open
on anything else, and a rewrite has lost what was to follow.
-/
open Lib

namespace Ambush.Pheromone.OnDisk
open Ambush.Bridge (ThreatClass)

/-! ## Lines and tables -/

section
variable {F : Type}

theorem load_threat_class_configs_concat (lines : List (ThreatClassConfig F)) (config : ThreatClassConfig F) :
    load_threat_class_configs (lines ++ [config]) = (load_threat_class_configs lines).insert config.threat_class config := by
  rw [load_threat_class_configs, List.foldl_concat]
  rfl

theorem load_threat_intel_entries_concat (lines : List (ThreatIntelEntry F)) {entry : ThreatIntelEntry F}
    (hstable : normalize_threat_intel_entry entry = entry) :
    load_threat_intel_entries (lines ++ [entry]) = put threat_intel_key entry (load_threat_intel_entries lines) := by
  rw [load_threat_intel_entries, List.foldl_concat, hstable]
  rfl

theorem load_threat_intel_entries_table {table : List (ThreatIntelEntry F)} (h : Ordered threat_intel_key table)
    (hstable : ∀ entry ∈ table, normalize_threat_intel_entry entry = entry) : load_threat_intel_entries table = table := by
  rw [load_threat_intel_entries_eq, List.map_congr_left hstable, List.map_id']
  exact foldl_put_of_ordered h
end

section
variable {F K B : Type} [LinearOrder F] (o : Outside F K B)

/-! ## Calls -/

/-- An entry that opening the substrate would change or refuse, read as it was written or not. -/
def Stable : (file : LineFile) → Entry F file → Prop
  | .threat_intel, entry => normalize_threat_intel_entry entry = entry
  | .behavioral_baseline, entry => ∃ snapshot, o.json.snapshot.from_str entry.statement.payload_json = .ok snapshot
  | .journal, _ | .escalation, _ | .threat_class_config, _ => True

def FileWrite.Stable : FileWrite F → Prop
  | .append file entries | .rewrite file entries => ∀ entry ∈ entries, OnDisk.Stable o file entry
  | .write_sequences _ | .create_sequences => True

namespace LocalJournalPheromoneSubstrate

/-- Every entry that the call writes is read again as it was. -/
def Readable (s : LocalJournalPheromoneSubstrate F) (next : JournalCall F B) : Prop :=
  ∀ write ∈ s.writes o next, write.Reads o.json ∧ write.Stable o

/-- A call that writes only what can be read again. -/
def Calls (s : LocalJournalPheromoneSubstrate F) (next : JournalCall F B) (t : LocalJournalPheromoneSubstrate F) : Prop :=
  s.Readable o next ∧ t = s.run o next

/-- The tables are what the files say. -/
structure Kept (s : LocalJournalPheromoneSubstrate F) (logs : Logs F) : Prop where
  stored : Stored o.json s.disk logs
  deposits : s.deposits = logs .journal
  escalations : s.escalations = logs .escalation
  configs : s.threat_class_configs = load_threat_class_configs (logs .threat_class_config)
  intel : s.threat_intel_entries = load_threat_intel_entries (logs .threat_intel)
  snapshots : s.behavioral_baseline_snapshots = (logs .behavioral_baseline).foldl put_snapshot []
  sequences : s.disk.behavioral_baseline_sequence = some (utf8 (o.json.sequences.to_string s.behavioral_baseline_sequences))
  ordered : Ordered Prod.fst s.behavioral_baseline_sequences
  distinct : ((logs .behavioral_baseline).map SignedStateEnvelope.stream_id).Nodup
  genuine : ∀ entry ∈ logs .behavioral_baseline,
    Genuine o entry ∧ sequence_of entry.stream_id s.behavioral_baseline_sequences = some entry.sequence

/-- Files as the substrate leaves them: each ends with its last line, and no strategy has two baselines. -/
structure Tidy (disk : Disk) : Prop where
  ends : ∀ file, Terminated ((disk.lines file).getD [])
  distinct : ∀ entries : List BehavioralBaselineEnvelope, load_jsonl o.json disk .behavioral_baseline = .ok entries →
    (entries.map SignedStateEnvelope.stream_id).Nodup

variable {o} {s t : LocalJournalPheromoneSubstrate F} {logs : Logs F} {next : JournalCall F B}

theorem load_sequences_written (h : o.json.Faithful) {disk : Disk} {sequences : List (String × U64)} (hordered : Ordered Prod.fst sequences)
    (hdisk : disk.behavioral_baseline_sequence = some (utf8 (o.json.sequences.to_string sequences))) :
    load_behavioral_baseline_sequences o.json disk = .ok sequences := by
  unfold load_behavioral_baseline_sequences
  rw [hdisk]
  dsimp only
  rw [from_utf8_utf8]
  exact SignedStateEnvelope.mapError_ok.2 (h.sequences sequences hordered)

theorem ordered_of_load (h : o.json.Faithful) {disk : Disk} {sequences : List (String × U64)}
    (hload : load_behavioral_baseline_sequences o.json disk = .ok sequences) : Ordered Prod.fst sequences := by
  unfold load_behavioral_baseline_sequences at hload
  split at hload
  · rw [← Except.ok.inj hload]
    exact List.Pairwise.nil
  · split at hload
    · cases hload
    · exact h.sequences_ordered _ _ (SignedStateEnvelope.mapError_ok.1 hload)

theorem kept_opened (h : o.json.Faithful) {config : PheromoneConfig F} {disk : Disk} (htidy : Tidy o disk)
    (hopened : opened o config disk = .ok s) : ∃ logs, Kept o s logs := by
  obtain ⟨logs, sequences, baselines, hload, hsequences, hbaselines, rfl⟩ := opened_ok_iff.1 hopened
  have hdistinct := htidy.distinct _ (hload .behavioral_baseline)
  obtain ⟨hall, rfl⟩ := (load_snapshots_ok_iff hdistinct).1 hbaselines
  exact ⟨logs, ⟨hload, htidy.ends⟩, rfl, rfl, rfl, rfl, rfl, rfl, ordered_accepted (ordered_of_load h hsequences), hdistinct,
    fun entry hentry => ⟨(hall entry hentry).1, sequence_of_accepted hdistinct hentry sequences⟩⟩

/-! ## What a call writes -/

/-- The files' entries behind some writes. -/
def logged_all (logs : Logs F) (writes : List (FileWrite F)) : Logs F := writes.foldl (fun logs write => write.logged logs write.count) logs

theorem Kept.ordered_intel (hs : Kept o s logs) : Ordered threat_intel_key s.threat_intel_entries := by
  rw [hs.intel]
  exact ordered_load _

theorem Kept.ordered_snapshots (hs : Kept o s logs) : Ordered SignedStateEnvelope.stream_id s.behavioral_baseline_snapshots := by
  rw [hs.snapshots]
  exact ordered_foldl_put _ List.Pairwise.nil

theorem le_next (current : Option U64) : ∀ sequence ∈ current, sequence ≤ next_behavioral_baseline_sequence current := by
  rintro sequence ⟨⟩
  exact Nat.le_min.2 ⟨Nat.le_succ _, sequence.2⟩

/-- A call that stores a baseline: the envelope it signs, and what it writes. -/
theorem store_baseline_ok (hsigns : ∀ key value, verify_detached_signature o.crypto value (detached_signature o.crypto key value) = .ok ())
    {snapshot : BehavioralBaselineSnapshot B} {signer_agent_id : AgentId} {signing_key : SigningKey}
    {result : LocalJournalPheromoneSubstrate F × List (FileWrite F)}
    (h : s.call o (.store_behavioral_baseline_snapshot snapshot signer_agent_id signing_key) = .ok result) :
    ∃ envelope, ((∃ found, o.json.snapshot.from_str envelope.statement.payload_json = .ok found) →
        Acceptable o s.behavioral_baseline_sequences envelope) ∧
      result = ({ s with
          behavioral_baseline_snapshots := put_snapshot s.behavioral_baseline_snapshots envelope
          behavioral_baseline_sequences := accept s.behavioral_baseline_sequences envelope },
        [.rewrite .behavioral_baseline (put_snapshot s.behavioral_baseline_snapshots envelope),
          .write_sequences (accept s.behavioral_baseline_sequences envelope)]) := by
  obtain ⟨envelope, henvelope, h⟩ := (ok_bind_iff _ _ _).1 h
  have hsigned := SignedStateEnvelope.mapError_ok.1 henvelope
  have hpayload : envelope.statement.payload_json = o.json.snapshot.to_string snapshot := by
    obtain ⟨_, -, hparts⟩ := (ok_bind_iff _ _ _).1 hsigned
    obtain rfl := Except.ok.inj hparts
    rfl
  have hnames : envelope.stream_id = snapshot.strategy_id ∧ envelope.sequence = next_behavioral_baseline_sequence
      ((sequence_of snapshot.strategy_id s.behavioral_baseline_sequences).or
        ((find SignedStateEnvelope.stream_id snapshot.strategy_id s.behavioral_baseline_snapshots).map SignedStateEnvelope.sequence)) := by
    obtain ⟨_, -, hparts⟩ := (ok_bind_iff _ _ _).1 hsigned
    obtain rfl := Except.ok.inj hparts
    exact ⟨rfl, rfl⟩
  refine ⟨envelope, fun hfound => ⟨?_, ?_⟩, ?_⟩
  · exact (SignedStateEnvelope.genuine_of_sign hsigns hsigned (hpayload ▸ hfound)).1
  · intro sequence hsequence
    rw [hnames.1] at hsequence
    rw [hnames.2]
    exact le_next _ sequence (by rw [Option.mem_def.1 hsequence]; rfl)
  · rw [← Except.ok.inj h, accept, hnames.1, hnames.2]
    rfl

theorem mem_put_snapshot {snapshots : List BehavioralBaselineEnvelope} {envelope entry : BehavioralBaselineEnvelope}
    (h : entry ∈ put_snapshot snapshots envelope) : entry = envelope ∨ entry ∈ snapshots := mem_put h

/-- What a baseline is stored among, and what is then accepted of each. -/
theorem Kept.put_snapshot (hs : Kept o s logs) {envelope : BehavioralBaselineEnvelope}
    (henvelope : Acceptable o s.behavioral_baseline_sequences envelope) :
    Ordered SignedStateEnvelope.stream_id (put_snapshot s.behavioral_baseline_snapshots envelope) ∧
      (∀ entry ∈ put_snapshot s.behavioral_baseline_snapshots envelope, Acceptable o s.behavioral_baseline_sequences entry) ∧
      ∀ entry ∈ put_snapshot s.behavioral_baseline_snapshots envelope,
        sequence_of entry.stream_id (accept s.behavioral_baseline_sequences envelope) = some entry.sequence := by
  have hold : ∀ entry ∈ s.behavioral_baseline_snapshots,
      Genuine o entry ∧ sequence_of entry.stream_id s.behavioral_baseline_sequences = some entry.sequence := by
    intro entry hentry
    rw [hs.snapshots] at hentry
    exact hs.genuine entry ((mem_of_mem_foldl_put hentry).resolve_right (fun hnil => nomatch hnil))
  have hordered := ordered_put envelope hs.ordered_snapshots
  refine ⟨hordered, fun entry hentry => ?_, fun entry hentry => ?_⟩
  · rcases mem_put_snapshot hentry with rfl | hentry
    · exact henvelope
    · obtain ⟨hgenuine, hsequence⟩ := hold entry hentry
      exact ⟨hgenuine, fun sequence hmem => (Option.some.inj (hsequence.symm.trans hmem)).ge⟩
  · unfold accept
    rw [sequence_of_put]
    by_cases hsame : entry.stream_id = envelope.stream_id
    · have hfind := (find_eq_some_iff hordered).2 hentry
      rw [find_put, if_pos hsame] at hfind
      rw [if_pos hsame, Option.some.inj hfind]
    · rw [if_neg hsame]
      rcases mem_put_snapshot hentry with rfl | hentry
      · exact absurd rfl hsame
      · exact (hold entry hentry).2

theorem distinct_of_ordered {snapshots : List BehavioralBaselineEnvelope} (h : Ordered SignedStateEnvelope.stream_id snapshots) :
    (snapshots.map SignedStateEnvelope.stream_id).Nodup :=
  List.pairwise_map.2 (h.imp (fun hlt => hlt.ne))

/-- A write that creates a file, if it is missing, and puts nothing in it. -/
inductive Creates : FileWrite F → Prop
  | append (file : LineFile) : Creates (.append file [])
  | create_sequences : Creates .create_sequences

omit [LinearOrder F] in
theorem logged_creates {write : FileWrite F} (hw : Creates write) (n : Nat) : write.logged logs n = logs := by
  cases hw with
  | append file =>
    rw [FileWrite.logged, List.take_nil, List.append_nil]
    exact Function.update_eq_self file logs
  | create_sequences => rfl

theorem Kept.creates (h : o.json.Faithful) (hs : Kept o s logs) {write : FileWrite F} (hw : Creates write) :
    Kept o { s with disk := s.disk.write o.json write } logs := by
  have hreads : write.Reads o.json := by
    cases hw with
    | append file => exact fun entry hentry => nomatch hentry
    | create_sequences => exact True.intro
  have hstored := hs.stored.write h hreads
  rw [logged_creates hw] at hstored
  refine ⟨hstored, hs.deposits, hs.escalations, hs.configs, hs.intel, hs.snapshots, ?_, hs.ordered, hs.distinct, hs.genuine⟩
  cases hw with
  | append file => exact hs.sequences
  | create_sequences => exact congrArg (fun bytes => some (bytes.getD [])) hs.sequences

theorem Kept.creates_all (h : o.json.Faithful) {writes : List (FileWrite F)} (hw : ∀ write ∈ writes, Creates write) (hs : Kept o s logs) :
    Kept o { s with disk := writes.foldl (Disk.write o.json) s.disk } logs ∧ logged_all logs writes = logs := by
  induction writes generalizing s with
  | nil => exact ⟨hs, rfl⟩
  | cons write writes ih =>
    obtain ⟨hkept, hlogs⟩ := ih (fun w hmem => hw w (List.mem_cons_of_mem _ hmem)) (hs.creates h (hw write List.mem_cons_self))
    refine ⟨hkept, ?_⟩
    unfold logged_all at hlogs ⊢
    rw [List.foldl_cons, logged_creates (hw write List.mem_cons_self), hlogs]

theorem creates_of_health : ∀ write ∈ s.writes o (.health : JournalCall F B), Creates write := by
  intro write hmem
  simp only [writes, call, List.mem_cons, List.not_mem_nil, or_false] at hmem
  rcases hmem with rfl | rfl | rfl | rfl | rfl | rfl
  · exact .append _
  · exact .append _
  · exact .append _
  · exact .append _
  · exact .append _
  · exact .create_sequences

/-- A call keeps the tables what the files say. -/
theorem Kept.run (h : o.json.Faithful)
    (hsigns : ∀ key value, verify_detached_signature o.crypto value (detached_signature o.crypto key value) = .ok ())
    (hs : Kept o s logs) (hread : s.Readable o next) : Kept o (s.run o next) (logged_all logs (s.writes o next)) := by
  cases next with
  | set_admitted_identities identities =>
    exact ⟨hs.stored, hs.deposits, hs.escalations, hs.configs, hs.intel, hs.snapshots, hs.sequences, hs.ordered, hs.distinct, hs.genuine⟩
  | deposit deposit =>
    unfold Readable writes at hread
    unfold run writes
    cases hcall : s.call o (.deposit deposit) with
    | error error => exact hs
    | ok result =>
      rw [hcall] at hread
      obtain ⟨_, -, hcall⟩ := (ok_bind_iff _ _ _).1 hcall
      obtain ⟨_, -, hcall⟩ := (ok_bind_iff _ _ _).1 hcall
      obtain rfl := Except.ok.inj hcall
      obtain ⟨hreads, -⟩ := hread _ List.mem_cons_self
      exact ⟨hs.stored.write h hreads, congrArg (· ++ [deposit]) hs.deposits, hs.escalations, hs.configs, hs.intel, hs.snapshots,
        hs.sequences, hs.ordered, hs.distinct, hs.genuine⟩
  | record_escalation record =>
    obtain ⟨hreads, -⟩ := hread _ List.mem_cons_self
    exact ⟨hs.stored.write h hreads, hs.deposits, congrArg (· ++ [record]) hs.escalations, hs.configs, hs.intel, hs.snapshots,
      hs.sequences, hs.ordered, hs.distinct, hs.genuine⟩
  | store_threat_class_config config =>
    obtain ⟨hreads, -⟩ := hread _ List.mem_cons_self
    refine ⟨hs.stored.write h hreads, hs.deposits, hs.escalations, ?_, hs.intel, hs.snapshots, hs.sequences, hs.ordered, hs.distinct,
      hs.genuine⟩
    exact (congrArg (·.insert config.threat_class config) hs.configs).trans (load_threat_class_configs_concat _ config).symm
  | store_threat_intel_entry entry =>
    obtain ⟨hreads, hstable⟩ := hread _ List.mem_cons_self
    refine ⟨hs.stored.write h hreads, hs.deposits, hs.escalations, hs.configs, ?_, hs.snapshots, hs.sequences, hs.ordered, hs.distinct,
      hs.genuine⟩
    have hentry := hstable _ List.mem_cons_self
    exact (congrArg (put threat_intel_key _) hs.intel).trans (load_threat_intel_entries_concat _ hentry).symm
  | gc_evaporated now =>
    obtain ⟨hreads, -⟩ := hread _ List.mem_cons_self
    refine ⟨hs.stored.write h hreads, ?_, hs.escalations, hs.configs, hs.intel, hs.snapshots, hs.sequences, hs.ordered, hs.distinct,
      hs.genuine⟩
    exact List.take_length.symm
  | gc_expired_threat_intel now =>
    obtain ⟨hreads, hstable⟩ := hread _ List.mem_cons_self
    refine ⟨hs.stored.write h hreads, hs.deposits, hs.escalations, hs.configs, ?_, hs.snapshots, hs.sequences, hs.ordered, hs.distinct,
      hs.genuine⟩
    refine (load_threat_intel_entries_table (hs.ordered_intel.sublist List.filter_sublist) hstable).symm.trans ?_
    exact congrArg load_threat_intel_entries List.take_length.symm
  | store_behavioral_baseline_snapshot snapshot signer_agent_id signing_key =>
    unfold Readable writes at hread
    unfold run writes
    cases hcall : s.call o (.store_behavioral_baseline_snapshot snapshot signer_agent_id signing_key) with
    | error error => exact hs
    | ok result =>
      rw [hcall] at hread
      obtain ⟨envelope, haccept, rfl⟩ := store_baseline_ok hsigns hcall
      obtain ⟨hreads, hstable⟩ := hread _ List.mem_cons_self
      have hmem : envelope ∈ OnDisk.put_snapshot s.behavioral_baseline_snapshots envelope := mem_put_self envelope _
      obtain ⟨hordered, hgenuine, hsequence⟩ := hs.put_snapshot (haccept (hstable envelope hmem))
      have hlog : ∀ rest : Logs F, logged_all rest [.rewrite .behavioral_baseline (OnDisk.put_snapshot s.behavioral_baseline_snapshots envelope),
          (.write_sequences (accept s.behavioral_baseline_sequences envelope) : FileWrite F)] .behavioral_baseline =
            OnDisk.put_snapshot s.behavioral_baseline_snapshots envelope := fun _ => List.take_length
      have hlast := (hread _ (List.mem_cons_of_mem _ List.mem_cons_self)).1
      refine ⟨(hs.stored.write h hreads).write h hlast, hs.deposits, hs.escalations, hs.configs, hs.intel, ?_, rfl,
        ordered_put _ hs.ordered, ?_, ?_⟩
      · rw [hlog]
        exact (foldl_put_of_ordered hordered).symm
      · rw [hlog]
        exact distinct_of_ordered hordered
      · rw [hlog]
        exact fun entry hentry => ⟨(hgenuine entry hentry).1, hsequence entry hentry⟩
  | health =>
    obtain ⟨hkept, hlogs⟩ := hs.creates_all h creates_of_health
    rw [hlogs]
    exact hkept

/-! ## What is still there -/

/-- Under each key that has an entry before and after, one of the two is found. -/
def Held {X E : Type} (before after reopened : X → Option E) : Prop :=
  ∀ key old new, before key = some old → after key = some new → reopened key = some old ∨ reopened key = some new

/-- Of a call that was cut short: whatever was stored before it and is not what it removes. -/
structure Present (before after reopened : LocalJournalPheromoneSubstrate F) : Prop where
  deposits : ∀ kept : List (SignedDeposit F), kept.Sublist before.deposits → kept.Sublist after.deposits → kept.Sublist reopened.deposits
  escalations : ∀ kept : List (EscalationRecord F), kept.Sublist before.escalations → kept.Sublist after.escalations → kept.Sublist reopened.escalations
  configs : Held before.threat_class_configs after.threat_class_configs reopened.threat_class_configs
  intel : Held (fun key => find threat_intel_key key before.threat_intel_entries)
    (fun key => find threat_intel_key key after.threat_intel_entries) (fun key => find threat_intel_key key reopened.threat_intel_entries)
  baselines : Held (fun strategy_id => find SignedStateEnvelope.stream_id strategy_id before.behavioral_baseline_snapshots)
    (fun strategy_id => find SignedStateEnvelope.stream_id strategy_id after.behavioral_baseline_snapshots)
    (fun strategy_id => find SignedStateEnvelope.stream_id strategy_id reopened.behavioral_baseline_snapshots)

/-- The substrate opens on the disk and has what the call that was cut short was not to remove. -/
def Survives (o : Outside F K B) (s : LocalJournalPheromoneSubstrate F) (next : JournalCall F B) (disk : Disk) : Prop :=
  ∃ t, opened o s.config disk = .ok t ∧ Present s (s.run o next) t

/-- An entry of a rewrite that a call had returned for. -/
def Owed (s : LocalJournalPheromoneSubstrate F) : (file : LineFile) → Entry F file → Prop
  | .behavioral_baseline, entry => find SignedStateEnvelope.stream_id entry.stream_id s.behavioral_baseline_snapshots ≠ none
  | .journal, _ | .escalation, _ | .threat_class_config, _ | .threat_intel, _ => True

/-- Where a write may stop: at the end of a line, with or without its line feed, and in a rewrite behind all that is owed; the sequences
are to be there as a whole. -/
def Benign (json : Serde F B) (s : LocalJournalPheromoneSubstrate F) : FileWrite F → Bytes → Prop
  | .append file entries, front => ∃ n ≤ entries.length, (format json file).EndsLine entries front n
  | .rewrite file entries, front =>
    ∃ n ≤ entries.length, (format json file).EndsLine entries front n ∧ ∀ entry ∈ entries.drop n, ¬ s.Owed file entry
  | .write_sequences sequences, front => front = utf8 (json.sequences.to_string sequences)
  | .create_sequences, _ => True

/-- The same tables. -/
structure Same (s t : LocalJournalPheromoneSubstrate F) : Prop where
  deposits : t.deposits = s.deposits
  escalations : t.escalations = s.escalations
  configs : t.threat_class_configs = s.threat_class_configs
  intel : t.threat_intel_entries = s.threat_intel_entries
  snapshots : t.behavioral_baseline_snapshots = s.behavioral_baseline_snapshots

omit [LinearOrder F] in
theorem present_of_before {after : LocalJournalPheromoneSubstrate F} (h : Same s t) : Present s after t where
  deposits _ hbefore _ := h.deposits ▸ hbefore
  escalations _ hbefore _ := h.escalations ▸ hbefore
  configs _ _ _ hold _ := .inl (h.configs ▸ hold)
  intel _ _ _ hold _ := .inl (h.intel ▸ hold)
  baselines _ _ _ hold _ := .inl (h.snapshots ▸ hold)

omit [LinearOrder F] in
theorem present_of_after {before : LocalJournalPheromoneSubstrate F} (h : Same s t) : Present before s t where
  deposits _ _ hafter := h.deposits ▸ hafter
  escalations _ _ hafter := h.escalations ▸ hafter
  configs _ _ _ _ hnew := .inr (h.configs ▸ hnew)
  intel _ _ _ _ hnew := .inr (h.intel ▸ hnew)
  baselines _ _ _ _ hnew := .inr (h.snapshots ▸ hnew)

/-- The tables that some entries of the files stand for, whatever the accepted sequences are. -/
abbrev tables (o : Outside F K B) (config : PheromoneConfig F) (logs : Logs F) (sequences : List (String × U64)) (disk : Disk) :
    LocalJournalPheromoneSubstrate F :=
  rebuilt o config logs ((logs .behavioral_baseline).foldl put_snapshot [], sequences) disk

theorem Kept.same (hs : Kept o s logs) (config : PheromoneConfig F) (sequences : List (String × U64)) (disk : Disk) :
    Same s (tables o config logs sequences disk) := ⟨hs.deposits.symm, hs.escalations.symm, hs.configs.symm, hs.intel.symm, hs.snapshots.symm⟩

/-- The substrate opens on what it has left. -/
theorem Kept.opened (h : o.json.Faithful) (hs : Kept o s logs) (config : PheromoneConfig F) :
    ∃ t, opened o config s.disk = .ok t ∧ Same s t := by
  refine ⟨_, opened_ok_iff.2 ⟨logs, s.behavioral_baseline_sequences, _, hs.stored.load,
    load_sequences_written h hs.ordered hs.sequences, (load_snapshots_ok_iff hs.distinct).2 ⟨fun entry hentry => ?_, rfl⟩, rfl⟩, hs.same _ _ _⟩
  obtain ⟨hgenuine, hsequence⟩ := hs.genuine entry hentry
  exact ⟨hgenuine, fun sequence hmem => (Option.some.inj (hsequence.symm.trans hmem)).ge⟩

/-- Opening when the front of a write of lines has reached the disk. -/
theorem opened_put_iff (h : o.json.Faithful) (hs : Kept o s logs) {write : FileWrite F} (hreads : write.Reads o.json) {front : Bytes}
    (hfront : front <+: write.bytes o.json)
    (hsequences : (s.disk.put write front).behavioral_baseline_sequence = s.disk.behavioral_baseline_sequence)
    (hbaselines : ∀ n, ((write.logged logs n .behavioral_baseline).map SignedStateEnvelope.stream_id).Nodup ∧
      ∀ entry ∈ write.logged logs n .behavioral_baseline, Acceptable o s.behavioral_baseline_sequences entry)
    {config : PheromoneConfig F} (P : LocalJournalPheromoneSubstrate F → Prop) :
    (∃ t, LocalJournalPheromoneSubstrate.opened o config (s.disk.put write front) = .ok t ∧ P t) ↔
      ∃ n ≤ write.count, write.EndsLine o.json front n ∧ P (tables o config (write.logged logs n)
        ((write.logged logs n .behavioral_baseline).foldl accept s.behavioral_baseline_sequences) (s.disk.put write front)) := by
  have hloaded : load_behavioral_baseline_sequences o.json (s.disk.put write front) = .ok s.behavioral_baseline_sequences :=
    load_sequences_written h hs.ordered (hsequences.trans hs.sequences)
  constructor
  · rintro ⟨t, hopened, ht⟩
    obtain ⟨found, sequences, baselines, hload, hseq, hsnapshots, rfl⟩ := opened_ok_iff.1 hopened
    obtain ⟨n, hn, hline, rfl⟩ := (loads_put_iff h hs.stored hreads hfront).1 hload
    obtain rfl := Except.ok.inj (hseq.symm.trans hloaded)
    obtain ⟨-, rfl⟩ := (load_snapshots_ok_iff (hbaselines n).1).1 hsnapshots
    exact ⟨n, hn, hline, ht⟩
  · rintro ⟨n, hn, hline, ht⟩
    have hload := (loads_put_iff h hs.stored hreads hfront).2 ⟨n, hn, hline, rfl⟩
    exact ⟨_, opened_ok_iff.2 ⟨_, _, _, hload, hloaded, (load_snapshots_ok_iff (hbaselines n).1).2 ⟨(hbaselines n).2, rfl⟩, rfl⟩, ht⟩

/-! ## Each kind of call -/

/-- The baselines of a write to another file are the ones there are. -/
theorem Kept.acceptable (hs : Kept o s logs) {write : FileWrite F} {n : Nat}
    (hother : write.logged logs n .behavioral_baseline = logs .behavioral_baseline) :
    ((write.logged logs n .behavioral_baseline).map SignedStateEnvelope.stream_id).Nodup ∧
      ∀ entry ∈ write.logged logs n .behavioral_baseline, Acceptable o s.behavioral_baseline_sequences entry := by
  rw [hother]
  refine ⟨hs.distinct, fun entry hentry => ?_⟩
  obtain ⟨hgenuine, hsequence⟩ := hs.genuine entry hentry
  exact ⟨hgenuine, fun sequence hmem => (Option.some.inj (hsequence.symm.trans hmem)).ge⟩

section
variable (h : o.json.Faithful)
  (hsigns : ∀ key value, verify_detached_signature o.crypto value (detached_signature o.crypto key value) = .ok ())
include h hsigns

/-- An appended entry is there, or nothing of the call is. -/
theorem survives_append_iff (hs : Kept o s logs) (hread : s.Readable o next) {file : LineFile} {entry : Entry F file}
    (hother : file ≠ .behavioral_baseline) (hwrites : s.writes o next = [.append file [entry]]) {front : Bytes}
    (hfront : front <+: FileWrite.bytes o.json (.append file [entry])) :
    Survives o s next (s.disk.put (.append file [entry]) front) ↔ Benign o.json s (.append file [entry]) front := by
  have hkept := hs.run h hsigns hread
  rw [hwrites] at hkept
  have hreads := (hread (.append file [entry]) (by rw [hwrites]; exact List.mem_cons_self)).1
  refine (opened_put_iff h hs hreads hfront rfl (fun n => hs.acceptable (Function.update_of_ne hother.symm _ _)) _).trans ?_
  constructor
  · rintro ⟨n, hn, hline, -⟩
    exact ⟨n, hn, hline⟩
  · rintro ⟨n, hn, hline⟩
    refine ⟨n, hn, hline, ?_⟩
    rcases Nat.le_one_iff_eq_zero_or_eq_one.1 hn with rfl | rfl
    · have hnone : FileWrite.logged logs (.append file [entry]) 0 = logs := by
        rw [FileWrite.logged, List.take_zero, List.append_nil]
        exact Function.update_eq_self file logs
      rw [hnone]
      exact present_of_before (hs.same _ _ _)
    · exact present_of_after (hkept.same _ _ _)

/-- The deposits that are kept are all there. -/
theorem survives_gc_evaporated_iff (hs : Kept o s logs) {now : Int} (hread : s.Readable o (.gc_evaporated now : JournalCall F B))
    {kept : List (SignedDeposit F)} (hkeeps : (s.run o (.gc_evaporated now : JournalCall F B)).deposits = kept)
    (hsub : kept.Sublist s.deposits) (hwrites : s.writes o (.gc_evaporated now : JournalCall F B) = [.rewrite .journal kept]) {front : Bytes}
    (hfront : front <+: FileWrite.bytes o.json (.rewrite .journal kept : FileWrite F)) :
    Survives o s (.gc_evaporated now) (s.disk.put (.rewrite .journal kept : FileWrite F) front) ↔
      Benign o.json s (.rewrite .journal kept) front := by
  have hkept := hs.run h hsigns hread
  rw [hwrites] at hkept
  have hreads := (hread (.rewrite .journal kept) (by rw [hwrites]; exact List.mem_cons_self)).1
  refine (opened_put_iff h hs hreads hfront rfl (fun n => hs.acceptable rfl) _).trans ?_
  constructor
  · rintro ⟨n, hn, hline, hpresent⟩
    refine ⟨n, hn, hline, fun entry hentry _ => ?_⟩
    have htake : kept.Sublist (kept.take n) := hpresent.deposits kept hsub (hkeeps ▸ List.Sublist.refl _)
    have hle : kept.length ≤ n := (List.take_eq_self_iff kept).1 ((List.take_sublist n kept).antisymm htake)
    rw [List.drop_eq_nil_of_le hle] at hentry
    cases hentry
  · rintro ⟨n, hn, hline, howed⟩
    have hall : kept.drop n = [] := List.eq_nil_iff_forall_not_mem.2 fun entry hentry => howed entry hentry True.intro
    obtain rfl := Nat.le_antisymm hn (List.drop_eq_nil_iff.1 hall)
    exact ⟨_, hn, hline, present_of_after (hkept.same _ _ _)⟩

/-- The entries that are kept are all there. -/
theorem survives_gc_expired_iff (hs : Kept o s logs) {now : Int} (hread : s.Readable o (.gc_expired_threat_intel now : JournalCall F B))
    {kept : List (ThreatIntelEntry F)} (hkeeps : (s.run o (.gc_expired_threat_intel now : JournalCall F B)).threat_intel_entries = kept)
    (hsub : kept.Sublist s.threat_intel_entries)
    (hwrites : s.writes o (.gc_expired_threat_intel now : JournalCall F B) = [.rewrite .threat_intel kept]) {front : Bytes}
    (hfront : front <+: FileWrite.bytes o.json (.rewrite .threat_intel kept : FileWrite F)) :
    Survives o s (.gc_expired_threat_intel now) (s.disk.put (.rewrite .threat_intel kept : FileWrite F) front) ↔
      Benign o.json s (.rewrite .threat_intel kept) front := by
  have hkept := hs.run h hsigns hread
  rw [hwrites] at hkept
  obtain ⟨hreads, hstable⟩ := hread (.rewrite .threat_intel kept) (by rw [hwrites]; exact List.mem_cons_self)
  have hordered : Ordered threat_intel_key kept := hs.ordered_intel.sublist hsub
  refine (opened_put_iff h hs hreads hfront rfl (fun n => hs.acceptable rfl) _).trans ?_
  constructor
  · rintro ⟨n, hn, hline, hpresent⟩
    refine ⟨n, hn, hline, fun entry hentry _ => ?_⟩
    have hmem := List.mem_of_mem_drop hentry
    have hbefore := (find_eq_some_iff hs.ordered_intel).2 (hsub.subset hmem)
    have hafter := (find_eq_some_iff (hkeeps.symm ▸ hordered)).2 (hkeeps.symm ▸ hmem)
    have hfound : find threat_intel_key (threat_intel_key entry) (load_threat_intel_entries (kept.take n)) = some entry :=
      (hpresent.intel _ entry entry hbefore hafter).elim id id
    rw [load_threat_intel_entries_table (hordered.sublist (List.take_sublist n kept))
      (fun e he => hstable e (List.mem_of_mem_take he)), find_take_of_mem_drop hordered hentry] at hfound
    cases hfound
  · rintro ⟨n, hn, hline, howed⟩
    have hall : kept.drop n = [] := List.eq_nil_iff_forall_not_mem.2 fun entry hentry => howed entry hentry True.intro
    obtain rfl := Nat.le_antisymm hn (List.drop_eq_nil_iff.1 hall)
    exact ⟨_, hn, hline, present_of_after (hkept.same _ _ _)⟩

omit hsigns in
/-- The baselines that were stored before are all there, as they were or as the call stores them. -/
theorem survives_rewrite_baselines_iff (hs : Kept o s logs) (hread : s.Readable o next) {envelope : BehavioralBaselineEnvelope}
    (haccept : Acceptable o s.behavioral_baseline_sequences envelope) {sequences : FileWrite F}
    (hsnapshots : (s.run o next).behavioral_baseline_snapshots = put_snapshot s.behavioral_baseline_snapshots envelope)
    (hwrites : s.writes o next = [.rewrite .behavioral_baseline (put_snapshot s.behavioral_baseline_snapshots envelope), sequences])
    {front : Bytes}
    (hfront : front <+: FileWrite.bytes o.json
      (.rewrite .behavioral_baseline (put_snapshot s.behavioral_baseline_snapshots envelope) : FileWrite F)) :
    Survives o s next (s.disk.put
        (.rewrite .behavioral_baseline (put_snapshot s.behavioral_baseline_snapshots envelope) : FileWrite F) front) ↔
      Benign o.json s (.rewrite .behavioral_baseline (put_snapshot s.behavioral_baseline_snapshots envelope)) front := by
  obtain ⟨hordered, hall, -⟩ := hs.put_snapshot haccept
  have hreads := (hread _ (by rw [hwrites]; exact List.mem_cons_self)).1
  generalize put_snapshot s.behavioral_baseline_snapshots envelope = stored at *
  have htaken : ∀ n, FileWrite.logged logs (.rewrite .behavioral_baseline stored) n .behavioral_baseline = stored.take n := fun n => rfl
  have hsorted : ∀ n, Ordered SignedStateEnvelope.stream_id (stored.take n) := fun n => hordered.sublist (List.take_sublist n stored)
  refine (opened_put_iff h hs hreads hfront rfl (fun n => ?_) _).trans ?_
  · rw [htaken]
    exact ⟨distinct_of_ordered (hsorted n), fun entry hentry => hall entry (List.mem_of_mem_take hentry)⟩
  · refine exists_congr fun n => and_congr_right fun hn => and_congr_right fun hline => ?_
    have hfound : ((stored.take n).foldl OnDisk.put_snapshot []) = stored.take n := foldl_put_of_ordered (hsorted n)
    have hnew : ∀ entry ∈ stored, find SignedStateEnvelope.stream_id entry.stream_id
        (s.run o next).behavioral_baseline_snapshots = some entry := by
      intro entry hentry
      rw [hsnapshots]
      exact (find_eq_some_iff hordered).2 hentry
    constructor
    · intro hpresent entry hentry howed
      obtain ⟨old, hold⟩ := Option.ne_none_iff_exists'.1 howed
      have hthere := hpresent.baselines entry.stream_id old entry hold (hnew entry (List.mem_of_mem_drop hentry))
      dsimp only [tables, rebuilt] at hthere
      rw [htaken, hfound, find_take_of_mem_drop hordered hentry] at hthere
      exact hthere.elim (fun he => nomatch he) (fun he => nomatch he)
    · intro howed
      have hbefore : Present s (s.run o next) _ := present_of_before (hs.same s.config s.behavioral_baseline_sequences s.disk)
      refine ⟨hbefore.deposits, hbefore.escalations, hbefore.configs, hbefore.intel, ?_⟩
      intro strategy_id old new hold hafternew
      dsimp only [tables, rebuilt]
      rw [htaken, hfound]
      rw [hsnapshots] at hafternew
      obtain ⟨hmem, hkey⟩ := find_mem hafternew
      rw [← List.take_append_drop n stored] at hmem
      rcases List.mem_append.1 hmem with hmem | hmem
      · refine .inr ?_
        rw [← hkey]
        exact (find_eq_some_iff (hsorted n)).2 hmem
      · refine absurd ?_ (howed new hmem)
        show find SignedStateEnvelope.stream_id new.stream_id s.behavioral_baseline_snapshots ≠ none
        rw [hkey]
        exact ne_of_eq_of_ne hold (Option.some_ne_none old)

/-- The sequences are there, or the substrate does not open. -/
theorem survives_sequences_iff (hs : Kept o s logs) (hread : s.Readable o next) {written : FileWrite F} {sequences : List (String × U64)}
    {front : Bytes} (hdisk : (s.run o next).disk = (s.disk.write o.json written).write o.json (.write_sequences sequences : FileWrite F))
    (hfront : front <+: FileWrite.bytes o.json (.write_sequences sequences : FileWrite F)) :
    Survives o s next ((s.disk.write o.json written).put (.write_sequences sequences : FileWrite F) front) ↔
      Benign o.json s (.write_sequences sequences) front := by
  have hkept := hs.run h hsigns hread
  constructor
  · rintro ⟨t, hopened, -⟩
    obtain ⟨found, loaded, baselines, -, hload, -⟩ := opened_ok_iff.1 hopened
    change load_behavioral_baseline_sequences o.json { (s.disk.write o.json written) with
      behavioral_baseline_sequence := some front } = .ok loaded at hload
    unfold load_behavioral_baseline_sequences at hload
    dsimp only at hload
    split at hload
    · cases hload
    · next part hpart =>
      obtain rfl := from_utf8_eq_some.1 hpart
      exact congrArg utf8 (h.sequences_part sequences part loaded (toList_prefix_of_utf8 hfront) (SignedStateEnvelope.mapError_ok.1 hload))
  · intro hwhole
    obtain rfl : front = utf8 (o.json.sequences.to_string sequences) := hwhole
    obtain ⟨t, hopened, hsame⟩ := hkept.opened h s.config
    rw [hdisk] at hopened
    exact ⟨t, hopened, present_of_after hsame⟩

/-- What a call that was cut short leaves is opened with all that is owed exactly when the front that is left is benign. -/
theorem survives_iff (hs : Kept o s logs) (hread : s.Readable o next) {done rest : List (FileWrite F)} {write : FileWrite F}
    (hwrites : s.writes o next = done ++ write :: rest) {front : Bytes} (hfront : front <+: write.bytes o.json) :
    Survives o s next (s.crashed o done write front) ↔ Benign o.json s write front := by
  have hsingle : ∀ w : FileWrite F, s.writes o next = [w] → done = [] ∧ write = w := by
    intro w hw
    rw [hwrites] at hw
    obtain ⟨rfl, hw⟩ | ⟨-, hw⟩ := List.append_eq_singleton_iff.1 hw
    · exact ⟨rfl, (List.cons.inj hw).1⟩
    · cases hw
  cases next with
  | set_admitted_identities identities => exact absurd hwrites.symm (List.append_ne_nil_of_right_ne_nil _ (List.cons_ne_nil _ _))
  | deposit deposit =>
    cases hcall : s.call o (.deposit deposit) with
    | error error =>
      rw [writes, hcall] at hwrites
      exact absurd hwrites.symm (List.append_ne_nil_of_right_ne_nil _ (List.cons_ne_nil _ _))
    | ok result =>
      have hw : s.writes o (.deposit deposit : JournalCall F B) = [.append .journal [deposit]] := by
        rw [writes, hcall]
        obtain ⟨_, -, hcall⟩ := (ok_bind_iff _ _ _).1 hcall
        obtain ⟨_, -, hcall⟩ := (ok_bind_iff _ _ _).1 hcall
        rw [← Except.ok.inj hcall]
      obtain ⟨rfl, rfl⟩ := hsingle _ hw
      exact survives_append_iff h hsigns hs hread (by decide) hw hfront
  | record_escalation record =>
    obtain ⟨rfl, rfl⟩ := hsingle _ rfl
    exact survives_append_iff h hsigns hs hread (by decide) rfl hfront
  | store_threat_class_config config =>
    obtain ⟨rfl, rfl⟩ := hsingle _ rfl
    exact survives_append_iff h hsigns hs hread (by decide) rfl hfront
  | store_threat_intel_entry entry =>
    obtain ⟨rfl, rfl⟩ := hsingle _ rfl
    exact survives_append_iff h hsigns hs hread (by decide) rfl hfront
  | gc_evaporated now =>
    obtain ⟨rfl, rfl⟩ := hsingle _ rfl
    exact survives_gc_evaporated_iff h hsigns hs hread rfl List.filter_sublist rfl hfront
  | gc_expired_threat_intel now =>
    obtain ⟨rfl, rfl⟩ := hsingle _ rfl
    exact survives_gc_expired_iff h hsigns hs hread rfl List.filter_sublist rfl hfront
  | store_behavioral_baseline_snapshot snapshot signer_agent_id signing_key =>
    cases hcall : s.call o (.store_behavioral_baseline_snapshot snapshot signer_agent_id signing_key) with
    | error error =>
      rw [writes, hcall] at hwrites
      exact absurd hwrites.symm (List.append_ne_nil_of_right_ne_nil _ (List.cons_ne_nil _ _))
    | ok result =>
      obtain ⟨envelope, haccept, rfl⟩ := store_baseline_ok hsigns hcall
      have hw : s.writes o (.store_behavioral_baseline_snapshot snapshot signer_agent_id signing_key) =
          [.rewrite .behavioral_baseline (put_snapshot s.behavioral_baseline_snapshots envelope),
            .write_sequences (accept s.behavioral_baseline_sequences envelope)] := by rw [writes, hcall]
      have hrun : s.run o (.store_behavioral_baseline_snapshot snapshot signer_agent_id signing_key) = { s with
          behavioral_baseline_snapshots := put_snapshot s.behavioral_baseline_snapshots envelope
          behavioral_baseline_sequences := accept s.behavioral_baseline_sequences envelope
          disk := (s.disk.write o.json (.rewrite .behavioral_baseline (put_snapshot s.behavioral_baseline_snapshots envelope) : FileWrite F)).write
            o.json (.write_sequences (accept s.behavioral_baseline_sequences envelope) : FileWrite F) } := by
        rw [run, hcall]
        rfl
      have hsplit := hwrites.symm.trans hw
      cases done with
      | nil =>
        obtain rfl := (List.cons.inj hsplit).1
        have hstable := (hread _ (by rw [hw]; exact List.mem_cons_self)).2
        exact survives_rewrite_baselines_iff h hs hread (haccept (hstable envelope (mem_put_self envelope _))) (by rw [hrun]) hw hfront
      | cons first done =>
        obtain ⟨rfl, hlast⟩ := List.cons.inj hsplit
        obtain ⟨rfl, hsecond⟩ | ⟨-, hnone⟩ := List.append_eq_singleton_iff.1 hlast
        · obtain rfl := (List.cons.inj hsecond).1
          exact survives_sequences_iff h hsigns hs hread (by rw [hrun]) hfront
        · cases hnone
  | health =>
    have hall : ∀ w ∈ done ++ [write], Creates w := by
      intro w hmem
      refine creates_of_health (o := o) (s := s) w ?_
      rw [hwrites]
      rcases List.mem_append.1 hmem with hmem | hmem
      · exact List.mem_append_left _ hmem
      · exact List.mem_append_right _ (List.mem_singleton.1 hmem ▸ List.mem_cons_self)
    have hempty : front = write.bytes o.json ∧ Benign o.json s write front := by
      cases hall write (List.mem_append_right _ List.mem_cons_self) with
      | append file =>
        obtain rfl := List.prefix_nil.1 hfront
        exact ⟨rfl, 0, Nat.le_refl 0, .inl rfl⟩
      | create_sequences =>
        obtain rfl := List.prefix_nil.1 hfront
        exact ⟨rfl, True.intro⟩
    refine iff_of_true ?_ hempty.2
    obtain ⟨t, hopened, ht⟩ := (hs.creates_all h hall).1.opened h s.config
    rw [List.foldl_append] at hopened
    rw [hempty.1]
    exact ⟨t, hopened, present_of_before ⟨ht.deposits, ht.escalations, ht.configs, ht.intel, ht.snapshots⟩⟩

/-- A substrate on tidy files whose calls write what is read again, and the front of what the next call writes: the substrate opens on it
with everything that is owed exactly when the front is benign. -/
theorem restart_safe_iff {config : PheromoneConfig F} {disk : Disk} {s₀ : LocalJournalPheromoneSubstrate F}
    (hopened : LocalJournalPheromoneSubstrate.opened o config disk = .ok s₀) (htidy : Tidy o disk) {calls : List (JournalCall F B)}
    (hrun : Run (Calls o) s₀ calls s) (hread : s.Readable o next) {done rest : List (FileWrite F)} {write : FileWrite F}
    (hwrites : s.writes o next = done ++ write :: rest) {front : Bytes} (hfront : front <+: write.bytes o.json) :
    Survives o s next (s.crashed o done write front) ↔ Benign o.json s write front := by
  obtain ⟨logs, hs⟩ := hrun.inv (I := fun s => ∃ logs, Kept o s logs)
    (by
      rintro s call t - ⟨logs, hs⟩ ⟨hcall, rfl⟩
      exact ⟨_, hs.run h hsigns hcall⟩)
    (kept_opened h htidy hopened)
  exact survives_iff h hsigns hs hread hwrites hfront

end

end LocalJournalPheromoneSubstrate
end

/-! ## One record, and the next one cut short -/

/-- A text for each number, no one of them a part of another; the first is the text of an empty map. -/
def tally_text (n : Nat) : String := String.ofList ('\x7b' :: (List.replicate n 'x' ++ ['\x7d']))

def tally (sequences : List (String × U64)) : Nat :=
  Encodable.encode (sequences.map (fun entry => (entry.1.toList.map Char.toNat, entry.2.1)))

def untally (raw : List (List Nat × Nat)) : List (String × U64) :=
  raw.map (fun entry => (String.ofList (entry.1.map Char.ofNat), ⟨min entry.2 u64Max, Nat.min_le_right _ _⟩))

instance (sequences : List (String × U64)) : Decidable (Ordered Prod.fst sequences) :=
  inferInstanceAs (Decidable (sequences.Pairwise (fun a b => a.1 < b.1)))

/-- A map of sequences, in tallies. -/
def tallied : Codec (List (String × U64)) where
  to_string sequences := tally_text (tally sequences)
  from_str text :=
    match ((Encodable.decode (text.toList.length - 2) : Option (List (List Nat × Nat))).map untally) with
    | some sequences =>
      if Ordered Prod.fst sequences ∧ tally_text (tally sequences) = text then .ok sequences else .error "expected a map"
    | none => .error "expected a map"

theorem untally_tally (sequences : List (String × U64)) :
    (Encodable.decode (tally sequences) : Option (List (List Nat × Nat))).map untally = some sequences := by
  rw [tally, Encodable.encodek, Option.map_some, untally, List.map_map]
  refine congrArg some ((List.map_congr_left fun entry _ => ?_).trans (List.map_id _))
  obtain ⟨name, sequence, hsequence⟩ := entry
  simp [Function.comp_def, Nat.min_eq_left hsequence]

theorem length_tally_text (n : Nat) : (tally_text n).toList.length = n + 2 := by
  rw [tally_text, String.toList_ofList]
  simp

theorem tallied_ok {text : String} {sequences : List (String × U64)} (h : tallied.from_str text = .ok sequences) :
    Ordered Prod.fst sequences ∧ tally_text (tally sequences) = text := by
  unfold tallied at h
  dsimp only at h
  split at h
  · split at h
    · next hgood => exact Except.ok.inj h ▸ hgood
    · cases h
  · cases h

theorem tallied_to_string {sequences : List (String × U64)} (h : Ordered Prod.fst sequences) :
    tallied.from_str (tallied.to_string sequences) = .ok sequences := by
  unfold tallied
  dsimp only
  rw [length_tally_text, Nat.add_sub_cancel, untally_tally]
  exact if_pos ⟨h, rfl⟩

theorem tally_text_part {m n : Nat} (h : (tally_text m).toList <+: (tally_text n).toList) : m = n := by
  rw [tally_text, tally_text, String.toList_ofList, String.toList_ofList, List.cons_prefix_cons] at h
  induction m generalizing n with
  | zero =>
    cases n with
    | zero => rfl
    | succ n => exact absurd (List.cons_prefix_cons.1 h.2).1 (by decide)
  | succ m ih =>
    cases n with
    | zero => exact absurd (List.cons_prefix_cons.1 h.2).1 (by decide)
    | succ n => exact congrArg (· + 1) (ih ⟨rfl, (List.cons_prefix_cons.1 h.2).2⟩)

/-- One value and its text. -/
def only {T : Type} [DecidableEq T] (value : T) (text : String) : Codec T where
  to_string other := if other = value then text else "\x7b\x7d"
  from_str part := if part = text then .ok value else .error "EOF while parsing an object"

/-- Values that are never read. -/
def unread (T : Type) : Codec T := ⟨fun _ => "\x7b\x7d", fun _ => .error "missing field"⟩

theorem object_unread {T V : Type} : Object (fun _ : T => "\x7b\x7d") (fun _ => (.error "missing field" : Except String V)) where
  braces _ := ⟨[], by decide, List.not_mem_nil⟩
  part _ _ _ _ h := nomatch h

theorem object_only {T : Type} [DecidableEq T] {value : T} {text : String} (body : Bytes) (htext : utf8 text = 123 :: (body ++ [125]))
    (hline : line_feed ∉ body) (hlong : 2 < text.toList.length) : Object (only value text).to_string (only value text).from_str where
  braces other := by
    unfold only
    dsimp only
    split
    · exact ⟨body, htext, hline⟩
    · exact ⟨[], by decide, List.not_mem_nil⟩
  part other part found hpart hfound := by
    unfold only at hpart hfound ⊢
    dsimp only at hpart hfound ⊢
    split at hfound
    · next hsame =>
      split
      · exact hsame
      · next hother =>
        rw [if_neg hother, hsame] at hpart
        exact absurd (hpart.length_le.trans_lt (by decide : ("\x7b\x7d".toList.length < 3))) (by omega)
    · cases hfound

theorem only_reads {T : Type} [DecidableEq T] (value : T) (text : String) :
    (only value text).from_str ((only value text).to_string value) = .ok value := by
  unfold only
  dsimp only
  rw [if_pos rfl, if_pos rfl]

def alert_record : EscalationRecord Int := ⟨.Alert, .Execution, 2, 2, 1, 100⟩

@[irreducible] def alert_text : String :=
  "\x7b\"mode\":\"alert\",\"threat_class\":\"execution\",\"total_strength\":2.0,\"distinct_sources\":2,\"peak_confidence\":1.0,\"timestamp\":100\x7d"

def alert_outside : Outside Int Bytes Unit where
  decay := steady
  signatures := trusting
  crypto := .plain
  json :=
    { deposit := fun _ => "\x7b\x7d"
      from_slice := fun _ => .error "missing field"
      from_value := fun _ => .error "missing field"
      escalation := only alert_record alert_text
      threat_class_config := unread _
      threat_intel := unread _
      behavioral_baseline := unread _
      sequences := tallied
      snapshot := unread _ }

theorem alert_faithful : alert_outside.json.Faithful where
  deposit := object_unread
  escalation := object_only (utf8 alert_text).tail.dropLast (by decide +kernel) (by decide +kernel) (by decide +kernel)
  threat_class_config := object_unread
  threat_intel := object_unread
  behavioral_baseline := object_unread
  sequences _ h := tallied_to_string h
  sequences_ordered _ _ h := (tallied_ok h).1
  sequences_part sequences part found hpart hfound := by
    obtain ⟨-, rfl⟩ := tallied_ok hfound
    exact congrArg tally_text (tally_text_part hpart)

theorem alert_signs (key : SigningKey) (value : Value) :
    verify_detached_signature alert_outside.crypto value (detached_signature alert_outside.crypto key value) = .ok () := by
  simp [verify_detached_signature, detached_signature, alert_outside, Crypto.plain]

/-- The substrate on no files. -/
def fresh : LocalJournalPheromoneSubstrate Int where
  config := ⟨3600, 10, 2, 2000, 5000, 300⟩
  admitted_identities := none
  deposits := []
  escalations := []
  threat_class_configs := Map.empty
  threat_intel_entries := []
  behavioral_baseline_snapshots := []
  behavioral_baseline_sequences := []
  disk := Disk.empty.write alert_outside.json (.write_sequences [] : FileWrite Int)

theorem opened_fresh : LocalJournalPheromoneSubstrate.opened alert_outside fresh.config Disk.empty = .ok fresh := rfl

theorem tidy_empty : LocalJournalPheromoneSubstrate.Tidy alert_outside Disk.empty where
  ends _ := .inl rfl
  distinct entries h := by
    obtain rfl := Except.ok.inj h
    exact List.nodup_nil

/-- The call that records the record. -/
def record_alert : JournalCall Int Unit := .record_escalation alert_record

def recorded : LocalJournalPheromoneSubstrate Int := fresh.run alert_outside record_alert

theorem readable_alert (s : LocalJournalPheromoneSubstrate Int) : s.Readable alert_outside record_alert := by
  intro write hwrite
  obtain rfl := List.mem_singleton.1 hwrite
  refine ⟨fun entry hentry index => ?_, fun _ _ => True.intro⟩
  obtain rfl := List.mem_singleton.1 hentry
  exact SignedStateEnvelope.mapError_ok.2 (only_reads alert_record alert_text)

theorem run_alert : Run (LocalJournalPheromoneSubstrate.Calls alert_outside) fresh [record_alert] recorded := .single ⟨readable_alert fresh, rfl⟩

theorem bytes_alert : FileWrite.bytes alert_outside.json (.append .escalation [alert_record] : FileWrite Int) = utf8 alert_text ++ [line_feed] := by
  show utf8 (if alert_record = alert_record then alert_text else "\x7b\x7d") ++ [line_feed] ++ [] = _
  rw [if_pos rfl, List.append_nil]

/-- The record's line without its line feed: the next record of the same text is there as a whole. -/
theorem restart_safe_alert :
    LocalJournalPheromoneSubstrate.Survives alert_outside recorded record_alert
      (recorded.crashed alert_outside [] (.append .escalation [alert_record]) (utf8 alert_text)) := by
  have hbytes := bytes_alert
  refine (LocalJournalPheromoneSubstrate.restart_safe_iff alert_faithful alert_signs opened_fresh tidy_empty run_alert
    (readable_alert recorded) rfl (hbytes ▸ List.prefix_append _ _)).2 ⟨1, Nat.le_refl 1, .inr ?_⟩
  exact hbytes.symm

/-- A record is acknowledged, and the process dies after the first byte of the next one: the substrate does not open. -/
theorem torn_line_does_not_open :
    let write : FileWrite Int := .append .escalation [alert_record]
    LocalJournalPheromoneSubstrate.opened alert_outside fresh.config Disk.empty = .ok fresh ∧
      Run (LocalJournalPheromoneSubstrate.Calls alert_outside) fresh [record_alert] recorded ∧
      recorded.escalations = [alert_record] ∧ recorded.writes alert_outside record_alert = [write] ∧
      utf8 "\x7b" <+: write.bytes alert_outside.json ∧
      ¬ ∃ t, LocalJournalPheromoneSubstrate.opened alert_outside fresh.config (recorded.crashed alert_outside [] write (utf8 "\x7b")) = .ok t := by
  have hwhole : utf8 alert_text = utf8 "\x7b" ++ (utf8 alert_text).tail := by decide +kernel
  have hfront : utf8 "\x7b" <+: FileWrite.bytes alert_outside.json (.append .escalation [alert_record] : FileWrite Int) := by
    rw [bytes_alert, hwhole, List.append_assoc]
    exact List.prefix_append _ _
  refine ⟨opened_fresh, run_alert, rfl, rfl, hfront, ?_⟩
  rintro ⟨t, hopened⟩
  obtain ⟨logs, hfresh⟩ := LocalJournalPheromoneSubstrate.kept_opened alert_faithful tidy_empty opened_fresh
  have hrecorded := hfresh.run alert_faithful alert_signs (readable_alert fresh)
  have hreads := (readable_alert recorded (.append .escalation [alert_record]) List.mem_cons_self).1
  obtain ⟨n, hn, hline, -⟩ := (LocalJournalPheromoneSubstrate.opened_put_iff alert_faithful hrecorded hreads hfront rfl
    (fun n => hrecorded.acceptable rfl) (fun _ => True)).1 ⟨t, hopened, True.intro⟩
  have hlengths : (utf8 "\x7b").length = 1 ∧ 2 < (utf8 alert_text).length := by decide +kernel
  have hbytes := congrArg List.length bytes_alert
  rw [List.length_append, List.length_singleton] at hbytes
  rcases Nat.le_one_iff_eq_zero_or_eq_one.1 hn with rfl | rfl
  · rcases hline with hline | hline
    · have := congrArg List.length hline
      simp [hlengths.1] at this
    · have := congrArg List.length hline
      simp at this
  · rcases hline with hline | hline
    · have : (utf8 "\x7b").length = (FileWrite.bytes alert_outside.json (.append .escalation [alert_record] : FileWrite Int)).length :=
        congrArg List.length hline
      omega
    · have : (utf8 "\x7b" ++ [line_feed]).length =
          (FileWrite.bytes alert_outside.json (.append .escalation [alert_record] : FileWrite Int)).length := congrArg List.length hline
      rw [List.length_append, List.length_singleton] at this
      omega

end Ambush.Pheromone.OnDisk

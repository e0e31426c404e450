import Ambush.Lib.Runs
import Ambush.Pheromone.Disk
/-!
# What the files say

The entries that the files' lines are read as, how a write changes them, also one of which only
the front has reached the disk, and which files the substrate opens on.
-/
open Lib

namespace Ambush.Pheromone.OnDisk
open Ambush.Bridge (ThreatClass)

/-! ## What the text of an entry is -/

/-- The text of a struct is one line in braces, and no part of it is JSON. -/
structure Object {T V : Type} (to_string : T → String) (from_str : String → Except String V) : Prop where
  braces : ∀ value, ∃ body, utf8 (to_string value) = 123 :: (body ++ [125]) ∧ line_feed ∉ body
  part : ∀ value part found, part.toList <+: (to_string value).toList → from_str part = .ok found → part = to_string value

/-- `serde_json`, at objects and at a map of texts to 64-bit numbers, which it reads as it was written. -/
structure Serde.Faithful {F B : Type} (json : Serde F B) : Prop where
  deposit : Object json.deposit json.from_slice
  escalation : Object json.escalation.to_string json.escalation.from_str
  threat_class_config : Object json.threat_class_config.to_string json.threat_class_config.from_str
  threat_intel : Object json.threat_intel.to_string json.threat_intel.from_str
  behavioral_baseline : Object json.behavioral_baseline.to_string json.behavioral_baseline.from_str
  sequences : ∀ sequences, Ordered Prod.fst sequences → json.sequences.from_str (json.sequences.to_string sequences) = .ok sequences
  sequences_ordered : ∀ text sequences, json.sequences.from_str text = .ok sequences → Ordered Prod.fst sequences
  sequences_part : ∀ sequences part found, part.toList <+: (json.sequences.to_string sequences).toList →
    json.sequences.from_str part = .ok found → part = json.sequences.to_string sequences

theorem not_blank_of_brace {part : String} {rest : Bytes} (h : utf8 part = 123 :: rest) : is_blank part = false := by
  have hopen : utf8 "\x7b" = [123] := by decide
  have hfront : utf8 "\x7b" <+: utf8 part := by
    rw [h, hopen]
    exact ⟨rest, rfl⟩
  obtain ⟨more, hmore⟩ := toList_prefix_of_utf8 hfront
  refine decide_eq_false fun hblank => ?_
  have hnil : ((part.toList.dropWhile Policy.is_whitespace).reverse.dropWhile Policy.is_whitespace).reverse = [] := by
    have htrim := congrArg String.toList hblank
    rwa [trim, String.toList_ofList] at htrim
  rw [← hmore] at hnil
  have hall := List.dropWhile_eq_nil_iff.1 (List.reverse_eq_nil_iff.1 hnil)
  exact absurd (hall '\x7b' (by simp [Policy.is_whitespace])) (by decide)

section
variable {F B : Type} {json : Serde F B}

theorem Object.lawful {T V : Type} {to_string : T → String} {from_str : String → Except String V} (h : Object to_string from_str)
    {f : Format T SubstrateError} (hwrite : f.write = to_string) (hblank : f.blank = is_blank)
    (hread : ∀ index text found, f.read index text = .ok found → ∃ value, from_str text = .ok value) : f.Lawful where
  one_line entry := by
    obtain ⟨body, hbody, hline⟩ := h.braces entry
    rw [hwrite, hbody, List.mem_cons, List.mem_append, List.mem_singleton]
    exact fun hmem => hmem.elim (by decide) (fun hmem => hmem.elim hline (by decide))
  ends entry := by
    obtain ⟨body, hbody, -⟩ := h.braces entry
    exact ⟨123 :: body, 125, by rw [hwrite, hbody, List.cons_append], by decide⟩
  blank entry part hpart hne := by
    obtain ⟨body, hbody, -⟩ := h.braces entry
    rw [hwrite, hbody] at hpart
    obtain ⟨first, rest, hfirst⟩ := List.exists_cons_of_ne_nil hne
    rw [hfirst, List.cons_prefix_cons] at hpart
    rw [hblank]
    exact not_blank_of_brace (hpart.1 ▸ hfirst)
  part entry part index found hpart hfound := by
    rw [hwrite] at hpart ⊢
    obtain ⟨value, hvalue⟩ := hread index part found hfound
    exact h.part entry part value (toList_prefix_of_utf8 hpart) hvalue

theorem jsonl_lawful {T : Type} {file : LineFile} {codec : Codec T} (h : Object codec.to_string codec.from_str) : (jsonl file codec).Lawful :=
  h.lawful rfl rfl fun _ _ found hread => ⟨found, SignedStateEnvelope.mapError_ok.1 hread⟩

theorem format_lawful (h : json.Faithful) (file : LineFile) : (format json file).Lawful := by
  cases file with
  | journal =>
    refine h.deposit.lawful rfl rfl fun index text found hread => ?_
    obtain ⟨raw, hraw, -⟩ := (ok_bind_iff _ _ _).1 hread
    exact ⟨raw, SignedStateEnvelope.mapError_ok.1 hraw⟩
  | escalation => exact jsonl_lawful h.escalation
  | threat_class_config => exact jsonl_lawful h.threat_class_config
  | threat_intel => exact jsonl_lawful h.threat_intel
  | behavioral_baseline => exact jsonl_lawful h.behavioral_baseline

/-! ## The lines on the disk -/

/-- The entries that the lines of each file are read as. -/
abbrev Logs (F : Type) := (file : LineFile) → List (Entry F file)

def Logs.of (deposits : List (SignedDeposit F)) (escalations : List (EscalationRecord F)) (configs : List (ThreatClassConfig F))
    (intel : List (ThreatIntelEntry F)) (baselines : List BehavioralBaselineEnvelope) : Logs F
  | .journal => deposits
  | .escalation => escalations
  | .threat_class_config => configs
  | .threat_intel => intel
  | .behavioral_baseline => baselines

structure Stored (json : Serde F B) (disk : Disk) (logs : Logs F) : Prop where
  load : ∀ file, load_jsonl json disk file = .ok (logs file)
  ends : ∀ file, Terminated ((disk.lines file).getD [])

namespace FileWrite

/-- The entries that a write adds, or writes again. -/
def count : FileWrite F → Nat
  | .append _ entries | .rewrite _ entries => entries.length
  | .write_sequences _ | .create_sequences => 0

/-- The entries of the files when the first `n` of a write's are there. -/
def logged (logs : Logs F) : FileWrite F → Nat → Logs F
  | .append file entries, n => Function.update logs file (logs file ++ entries.take n)
  | .rewrite file entries, n => Function.update logs file (entries.take n)
  | .write_sequences _, _ | .create_sequences, _ => logs

/-- The front ends where the line of the `n`-th entry of the write does. -/
def EndsLine (json : Serde F B) : FileWrite F → Bytes → Nat → Prop
  | .append file entries, front, n | .rewrite file entries, front, n => (format json file).EndsLine entries front n
  | .write_sequences _, _, _ | .create_sequences, _, _ => True

/-- Each line that is written is read as the entry it was written for. -/
def Reads (json : Serde F B) : FileWrite F → Prop
  | .append file entries | .rewrite file entries => ∀ entry ∈ entries, (format json file).Reads entry
  | .write_sequences _ | .create_sequences => True

end FileWrite

theorem load_jsonl_eq (disk : Disk) (file : LineFile) : load_jsonl json disk file = (format json file).load ((disk.lines file).getD []) := by
  unfold load_jsonl
  cases disk.lines file <;> rfl

/-- Which lines are read when the front of a write has reached the disk. -/
theorem loads_put_iff (h : json.Faithful) {disk : Disk} {logs found : Logs F} (hs : Stored json disk logs) {write : FileWrite F}
    (hreads : write.Reads json) {front : Bytes} (hfront : front <+: write.bytes json) :
    (∀ file, load_jsonl json (disk.put write front) file = .ok (found file)) ↔
      ∃ n ≤ write.count, write.EndsLine json front n ∧ found = write.logged logs n := by
  have hone : ∀ (file : LineFile) (base : Bytes) (already entries : List (Entry F file)),
      (format json file).load base = .ok already → Terminated base → (∀ entry ∈ entries, (format json file).Reads entry) →
      front <+: (format json file).text entries →
      ((∀ other, load_jsonl json { disk with lines := Function.update disk.lines file (some (base ++ front)) } other = .ok (found other)) ↔
        ∃ n ≤ entries.length, (format json file).EndsLine entries front n ∧ found = Function.update logs file (already ++ entries.take n)) := by
    intro file base already entries hbase hends hentries hfront
    have hfile : (format json file).load (base ++ front) = .ok (found file) ↔ _ :=
      Format.load_append_iff (format_lawful h file) hbase hends hentries hfront
    constructor
    · intro hload
      have hself := hload file
      rw [load_jsonl_eq] at hself
      simp only [Function.update_self, Option.getD_some] at hself
      obtain ⟨n, hn, hline, hfound⟩ := hfile.1 hself
      refine ⟨n, hn, hline, ?_⟩
      funext other
      by_cases hother : other = file
      · subst hother
        rw [hfound, Function.update_self]
      · have hrest := hload other
        rw [load_jsonl_eq] at hrest
        simp only [Function.update_of_ne hother] at hrest ⊢
        rw [← load_jsonl_eq, hs.load other] at hrest
        exact (Except.ok.inj hrest).symm
    · rintro ⟨n, hn, hline, rfl⟩ other
      by_cases hother : other = file
      · subst hother
        rw [load_jsonl_eq]
        simp only [Function.update_self, Option.getD_some] at hfile ⊢
        exact hfile.2 ⟨n, hn, hline, rfl⟩
      · rw [load_jsonl_eq]
        simp only [Function.update_of_ne hother]
        rw [← load_jsonl_eq]
        exact hs.load other
  have hsame : (∀ file, load_jsonl json disk file = .ok (found file)) ↔ found = logs := by
    constructor
    · intro hload
      funext file
      exact Except.ok.inj ((hload file).symm.trans (hs.load file))
    · rintro rfl
      exact hs.load
  cases write with
  | append file entries => exact hone file _ (logs file) entries (by rw [← load_jsonl_eq, hs.load]) (hs.ends file) hreads hfront
  | rewrite file entries => exact hone file [] [] entries rfl (.inl rfl) hreads hfront
  | write_sequences sequences =>
    refine Iff.trans hsame ⟨fun he => ⟨0, Nat.le_refl 0, True.intro, he⟩, fun ⟨_, _, _, he⟩ => he⟩
  | create_sequences =>
    refine Iff.trans hsame ⟨fun he => ⟨0, Nat.le_refl 0, True.intro, he⟩, fun ⟨_, _, _, he⟩ => he⟩

/-- A write that is not cut. -/
theorem Stored.write (h : json.Faithful) {disk : Disk} {logs : Logs F} (hs : Stored json disk logs) {write : FileWrite F}
    (hreads : write.Reads json) : Stored json (disk.write json write) (write.logged logs write.count) where
  load := by
    refine (loads_put_iff h hs hreads List.prefix_rfl).2 ⟨write.count, Nat.le_refl _, ?_, rfl⟩
    cases write with
    | append file entries => exact .inl (by rw [FileWrite.count, List.take_length]; rfl)
    | rewrite file entries => exact .inl (by rw [FileWrite.count, List.take_length]; rfl)
    | write_sequences sequences => exact True.intro
    | create_sequences => exact True.intro
  ends file := by
    have hone : ∀ (other : LineFile) (base : Bytes) (entries : List (Entry F other)), Terminated base →
        Terminated ((Function.update disk.lines other (some (base ++ (format json other).text entries)) file).getD []) := by
      intro other base entries hbase
      by_cases hfile : file = other
      · subst hfile
        rw [Function.update_self, Option.getD_some]
        by_cases hnil : (format json file).text entries = []
        · rwa [hnil, List.append_nil]
        · exact terminated_append (Format.terminated_text entries) hnil
      · rw [Function.update_of_ne hfile]
        exact hs.ends file
    cases write with
    | append other entries => exact hone other _ entries (hs.ends other)
    | rewrite other entries => exact hone other [] entries (.inl rfl)
    | write_sequences sequences => exact hs.ends file
    | create_sequences => exact hs.ends file

end

section
variable {F K B : Type} [LinearOrder F] (o : Outside F K B)

/-! ## Behavioral baselines -/

abbrev Genuine (entry : BehavioralBaselineEnvelope) : Prop :=
  SignedStateEnvelope.Genuine o.crypto o.json.snapshot BEHAVIORAL_BASELINE_STATE_KIND entry

def accept (sequences : List (String × U64)) (entry : BehavioralBaselineEnvelope) : List (String × U64) :=
  put Prod.fst (entry.stream_id, entry.sequence) sequences

def put_snapshot (snapshots : List BehavioralBaselineEnvelope) (entry : BehavioralBaselineEnvelope) : List BehavioralBaselineEnvelope :=
  put SignedStateEnvelope.stream_id entry snapshots

/-- The entry is genuine and no older than what is accepted. -/
def Acceptable (sequences : List (String × U64)) (entry : BehavioralBaselineEnvelope) : Prop :=
  Genuine o entry ∧ ∀ sequence ∈ sequence_of entry.stream_id sequences, sequence ≤ entry.sequence

variable {o} {entries : List BehavioralBaselineEnvelope} {sequences : List (String × U64)}

theorem sequence_of_put (strategy_id other : String) (sequence : U64) (sequences : List (String × U64)) :
    sequence_of other (put Prod.fst (strategy_id, sequence) sequences) =
      if other = strategy_id then some sequence else sequence_of other sequences := by
  unfold sequence_of
  rw [find_put]
  split <;> rfl

theorem load_snapshot_ok_iff {tables found : List BehavioralBaselineEnvelope × List (String × U64)} {entry : BehavioralBaselineEnvelope} :
    load_snapshot o tables entry = .ok found ↔
      Acceptable o tables.2 entry ∧ found = (put_snapshot tables.1 entry, accept tables.2 entry) := by
  have hsequence : (∀ sequence ∈ sequence_of entry.stream_id tables.2, sequence ≤ entry.sequence) →
      (sequence_of entry.stream_id tables.2).elim entry.sequence (fun current => max current entry.sequence) = entry.sequence := by
    intro hle
    cases haccepted : sequence_of entry.stream_id tables.2 with
    | none => rfl
    | some accepted => exact max_eq_right (hle accepted haccepted)
  unfold load_snapshot
  constructor
  · intro h
    obtain ⟨verified, hverified, h⟩ := (ok_bind_iff _ _ _).1 h
    have haccept : Acceptable o tables.2 entry :=
      SignedStateEnvelope.verify_ok_iff.1 ⟨verified, SignedStateEnvelope.mapError_ok.1 hverified⟩
    refine ⟨haccept, ?_⟩
    rw [← Except.ok.inj h, hsequence haccept.2]
    rfl
  · rintro ⟨haccept, rfl⟩
    obtain ⟨verified, hverified⟩ := SignedStateEnvelope.verify_ok_iff.2 haccept
    refine (ok_bind_iff _ _ _).2 ⟨verified, SignedStateEnvelope.mapError_ok.2 hverified, ?_⟩
    rw [hsequence haccept.2]
    rfl

/-- Entries of distinct strategies are loaded when each of them is acceptable by itself. -/
theorem load_snapshots_ok_iff {tables found : List BehavioralBaselineEnvelope × List (String × U64)}
    (hdistinct : (entries.map SignedStateEnvelope.stream_id).Nodup) :
    entries.foldlM (load_snapshot o) tables = .ok found ↔
      (∀ entry ∈ entries, Acceptable o tables.2 entry) ∧
        found = (entries.foldl put_snapshot tables.1, entries.foldl accept tables.2) := by
  induction entries generalizing tables with
  | nil => exact ⟨fun h => ⟨fun _ h => (nomatch h), (Except.ok.inj h).symm⟩, fun h => congrArg Except.ok h.2.symm⟩
  | cons entry entries ih =>
    obtain ⟨hnew, hrest⟩ := List.nodup_cons.1 hdistinct
    have hothers : ∀ other ∈ entries, Acceptable o (accept tables.2 entry) other ↔ Acceptable o tables.2 other := by
      intro other hother
      have hne : other.stream_id ≠ entry.stream_id := fun he => hnew (he ▸ List.mem_map_of_mem hother)
      unfold Acceptable accept
      rw [sequence_of_put, if_neg hne]
    rw [List.foldlM_cons, ok_bind_iff, List.forall_mem_cons]
    constructor
    · rintro ⟨next, hnext, h⟩
      obtain ⟨haccept, rfl⟩ := load_snapshot_ok_iff.1 hnext
      obtain ⟨hall, hfound⟩ := (ih hrest).1 h
      exact ⟨⟨haccept, fun other hother => (hothers other hother).1 (hall other hother)⟩, hfound⟩
    · rintro ⟨⟨haccept, hall⟩, hfound⟩
      exact ⟨_, load_snapshot_ok_iff.2 ⟨haccept, rfl⟩,
        (ih hrest).2 ⟨fun other hother => (hothers other hother).2 (hall other hother), hfound⟩⟩

theorem sequence_of_accepted (hdistinct : (entries.map SignedStateEnvelope.stream_id).Nodup) {entry : BehavioralBaselineEnvelope}
    (hentry : entry ∈ entries) (sequences : List (String × U64)) :
    sequence_of entry.stream_id (entries.foldl accept sequences) = some entry.sequence := by
  induction entries generalizing sequences with
  | nil => cases hentry
  | cons first entries ih =>
    obtain ⟨hnew, hrest⟩ := List.nodup_cons.1 hdistinct
    rw [List.foldl_cons]
    rcases List.mem_cons.1 hentry with rfl | hentry
    · have hkeep : ∀ (others : List BehavioralBaselineEnvelope) (sequences : List (String × U64)),
          (∀ other ∈ others, entry.stream_id ≠ other.stream_id) →
          sequence_of entry.stream_id (others.foldl accept sequences) = sequence_of entry.stream_id sequences := by
        intro others
        induction others with
        | nil => exact fun _ _ => rfl
        | cons other others ihothers =>
          intro sequences hne
          rw [List.foldl_cons, ihothers _ (fun x hx => hne x (List.mem_cons_of_mem _ hx)), accept, sequence_of_put,
            if_neg (hne other List.mem_cons_self)]
      rw [hkeep entries _ (fun other hother he => hnew (he ▸ List.mem_map_of_mem hother)), accept, sequence_of_put, if_pos rfl]
    · exact ih hrest hentry _

theorem ordered_accepted (h : Ordered Prod.fst sequences) : Ordered Prod.fst (entries.foldl accept sequences) := by
  induction entries generalizing sequences with
  | nil => exact h
  | cons entry entries ih => exact ih (ordered_put _ h)

/-! ## Opening -/

namespace LocalJournalPheromoneSubstrate

variable (o)

/-- The substrate that the entries of the files stand for. -/
def rebuilt (config : PheromoneConfig F) (logs : Logs F) (baselines : List BehavioralBaselineEnvelope × List (String × U64)) (disk : Disk) :
    LocalJournalPheromoneSubstrate F where
  config := config
  admitted_identities := none
  deposits := logs .journal
  escalations := logs .escalation
  threat_class_configs := load_threat_class_configs (logs .threat_class_config)
  threat_intel_entries := load_threat_intel_entries (logs .threat_intel)
  behavioral_baseline_snapshots := baselines.1
  behavioral_baseline_sequences := baselines.2
  disk := disk.write o.json (.write_sequences baselines.2 : FileWrite F)

variable {o}

/-- The substrate opens when every file is read and the baselines verify. -/
theorem opened_ok_iff {config : PheromoneConfig F} {disk : Disk} {t : LocalJournalPheromoneSubstrate F} :
    opened o config disk = .ok t ↔
      ∃ (logs : Logs F) (sequences : List (String × U64)) (baselines : List BehavioralBaselineEnvelope × List (String × U64)),
        (∀ file, load_jsonl o.json disk file = .ok (logs file)) ∧
        load_behavioral_baseline_sequences o.json disk = .ok sequences ∧
        load_behavioral_baseline_snapshots o (logs .behavioral_baseline) sequences = .ok baselines ∧ t = rebuilt o config logs baselines disk := by
  unfold opened
  constructor
  · intro h
    obtain ⟨deposits, hdeposits, h⟩ := (ok_bind_iff _ _ _).1 h
    obtain ⟨escalations, hescalations, h⟩ := (ok_bind_iff _ _ _).1 h
    obtain ⟨configs, hconfigs, h⟩ := (ok_bind_iff _ _ _).1 h
    obtain ⟨intel, hintel, h⟩ := (ok_bind_iff _ _ _).1 h
    obtain ⟨sequences, hsequences, h⟩ := (ok_bind_iff _ _ _).1 h
    obtain ⟨entries, hentries, h⟩ := (ok_bind_iff _ _ _).1 h
    obtain ⟨baselines, hbaselines, h⟩ := (ok_bind_iff _ _ _).1 h
    refine ⟨Logs.of deposits escalations configs intel entries, sequences, baselines, fun file => ?_, hsequences, hbaselines,
      (Except.ok.inj h).symm⟩
    cases file with
    | journal => exact hdeposits
    | escalation => exact hescalations
    | threat_class_config => exact hconfigs
    | threat_intel => exact hintel
    | behavioral_baseline => exact hentries
  · rintro ⟨logs, sequences, baselines, hload, hsequences, hbaselines, rfl⟩
    refine (ok_bind_iff _ _ _).2 ⟨_, hload .journal, (ok_bind_iff _ _ _).2 ⟨_, hload .escalation, ?_⟩⟩
    refine (ok_bind_iff _ _ _).2 ⟨_, hload .threat_class_config, (ok_bind_iff _ _ _).2 ⟨_, hload .threat_intel, ?_⟩⟩
    refine (ok_bind_iff _ _ _).2 ⟨_, hsequences, (ok_bind_iff _ _ _).2 ⟨_, hload .behavioral_baseline, ?_⟩⟩
    exact (ok_bind_iff _ _ _).2 ⟨_, hbaselines, rfl⟩

end LocalJournalPheromoneSubstrate

end

end Ambush.Pheromone.OnDisk

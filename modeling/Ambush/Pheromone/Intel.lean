import Ambush.Pheromone.Journal
import Mathlib.Data.List.DropRight
import Mathlib.Data.List.TakeWhile
/-!
# Finding stored threat intel

A stored entry has its value normalized and goes under the key of that value, which is normalized again; a query looks under the key of
the value it is given; a journal that is opened normalizes each line once more. An entry is found by its own value where normalizing is
done after one pass.
-/
open Lib

namespace Ambush.Pheromone

variable {F : Type}

/-- `threat_intel_key` of a type and a value. -/
def key_of (indicator_type : ThreatIntelIndicatorType) (value : String) : ThreatIntelKey :=
  toLex (indicator_type.rank, normalize_threat_intel_value indicator_type value)

/-! ## The two backends -/

/-- The table of the substrate in memory, in the order of its keys. -/
abbrev ThreatIntelTable (F : Type) := List (ThreatIntelEntry F)

def ThreatIntelTable.store_threat_intel_entry (table : ThreatIntelTable F) (entry : ThreatIntelEntry F) : ThreatIntelTable F :=
  put threat_intel_key (normalize_threat_intel_entry entry) table

def ThreatIntelTable.query_threat_intel_entry (table : ThreatIntelTable F) (indicator_type : ThreatIntelIndicatorType) (value : String)
    (now : Int) : Option (ThreatIntelEntry F) :=
  (find threat_intel_key (key_of indicator_type value) table).filter (fun entry => entry.expires_at > now)

namespace LocalJournalPheromoneSubstrate

/-- One call that nothing comes in between. -/
def store_threat_intel_entry (s : LocalJournalPheromoneSubstrate F) (entry : ThreatIntelEntry F) : LocalJournalPheromoneSubstrate F :=
  { s with
    files := { s.files with threat_intel := s.files.threat_intel ++ [normalize_threat_intel_entry entry] }
    threat_intel_entries := put threat_intel_key (normalize_threat_intel_entry entry) s.threat_intel_entries }

def query_threat_intel_entry (s : LocalJournalPheromoneSubstrate F) (indicator_type : ThreatIntelIndicatorType) (value : String)
    (now : Int) : Option (ThreatIntelEntry F) :=
  ThreatIntelTable.query_threat_intel_entry s.threat_intel_entries indicator_type value now

end LocalJournalPheromoneSubstrate

/-- The substrate in memory after the stores. -/
def stored (history : List (ThreatIntelEntry F)) : ThreatIntelTable F := history.foldl ThreatIntelTable.store_threat_intel_entry []

/-- The journal after the stores, from empty files. -/
def journaled (config : PheromoneConfig F) (history : List (ThreatIntelEntry F)) : LocalJournalPheromoneSubstrate F :=
  history.foldl LocalJournalPheromoneSubstrate.store_threat_intel_entry (.opened config ⟨[], [], [], []⟩)

/-! ## What is found -/

/-- The most recently stored entry whose value normalizes to the key of the value. -/
def newest (history : List (ThreatIntelEntry F)) (indicator_type : ThreatIntelIndicatorType) (value : String) :
    Option (ThreatIntelEntry F) :=
  last threat_intel_key (key_of indicator_type value) history

/-- Both backends, and the journal opened again, answer an entry stored under the value with the newest one of its key, until it
expires. -/
def Found (config : PheromoneConfig F) (history : List (ThreatIntelEntry F)) (indicator_type : ThreatIntelIndicatorType) (value : String) :
    Prop :=
  ∀ entry ∈ history, entry.indicator_type = indicator_type → entry.value = value → ∀ now < entry.expires_at,
    ∃ found, newest history indicator_type value = some found ∧
      (stored history).query_threat_intel_entry indicator_type value now = some (normalize_threat_intel_entry found) ∧
      (journaled config history).query_threat_intel_entry indicator_type value now = some (normalize_threat_intel_entry found) ∧
      (journaled config history).reopened.query_threat_intel_entry indicator_type value now = some (normalize_threat_intel_entry found)

/-- The key of an entry whose value was normalized twice before. -/
def third_key (entry : ThreatIntelEntry F) : ThreatIntelKey :=
  threat_intel_key (normalize_threat_intel_entry (normalize_threat_intel_entry entry))

/-- The value is normalized after one pass; and the last entry that comes to its key within three comes to it in one, and does not expire
before one stored under the value. -/
def Settles (history : List (ThreatIntelEntry F)) (indicator_type : ThreatIntelIndicatorType) (value : String) : Prop :=
  ∀ entry ∈ history, entry.indicator_type = indicator_type → entry.value = value →
    normalize_threat_intel_value indicator_type (normalize_threat_intel_value indicator_type value) =
      normalize_threat_intel_value indicator_type value ∧
    ∃ found, last third_key (key_of indicator_type value) history = some found ∧
      threat_intel_key found = key_of indicator_type value ∧ entry.expires_at ≤ found.expires_at

variable {history : List (ThreatIntelEntry F)} {key : ThreatIntelKey} {indicator_type : ThreatIntelIndicatorType} {value : String}

theorem find_stored (history : List (ThreatIntelEntry F)) (key : ThreatIntelKey) :
    find threat_intel_key key (stored history) =
      (last (fun entry => threat_intel_key (normalize_threat_intel_entry entry)) key history).map normalize_threat_intel_entry := by
  rw [← last_map, ← find_load]
  rfl

/-- The journal has in memory what the other backend has, and a line for each entry. -/
theorem journaled_eq (config : PheromoneConfig F) (history : List (ThreatIntelEntry F)) :
    (journaled config history).threat_intel_entries = stored history ∧
      (journaled config history).files.threat_intel = history.map normalize_threat_intel_entry := by
  induction history using List.reverseRecOn with
  | nil => exact ⟨rfl, rfl⟩
  | append_singleton history entry ih =>
    obtain ⟨htable, hlines⟩ := ih
    unfold journaled stored at *
    rw [List.foldl_concat, List.foldl_concat, List.map_append, ← hlines]
    exact ⟨congrArg (put threat_intel_key (normalize_threat_intel_entry entry)) htable, rfl⟩

theorem find_reopened (config : PheromoneConfig F) (history : List (ThreatIntelEntry F)) (key : ThreatIntelKey) :
    find threat_intel_key key (journaled config history).reopened.threat_intel_entries =
      (last third_key key history).map (fun entry => normalize_threat_intel_entry (normalize_threat_intel_entry entry)) := by
  have hloaded : (journaled config history).reopened.threat_intel_entries =
      load_threat_intel_entries (history.map normalize_threat_intel_entry) := by
    rw [← (journaled_eq config history).2]
    rfl
  rw [hloaded, find_load, last_map, last_map, Option.map_map]
  rfl

/-! ## When normalizing is done after one pass -/

theorem key_of_eq {a b : ThreatIntelIndicatorType} {v w : String} (h : key_of a v = key_of b w) :
    a = b ∧ normalize_threat_intel_value a v = normalize_threat_intel_value b w := by
  obtain ⟨hrank, hvalue⟩ := Prod.mk.inj (toLex_inj.1 h)
  refine ⟨?_, hvalue⟩
  cases a <;> cases b <;> first | rfl | cases hrank

theorem key_of_normalized {a b : ThreatIntelEntry F} (h : normalize_threat_intel_entry a = normalize_threat_intel_entry b) :
    threat_intel_key a = threat_intel_key b :=
  congrArg (fun entry : ThreatIntelEntry F => toLex (entry.indicator_type.rank, entry.value)) h

/-- Normalizing the entry takes its value one pass further. -/
theorem normalized_key {entry : ThreatIntelEntry F} (h : threat_intel_key entry = key_of indicator_type value)
    (hone : normalize_threat_intel_value indicator_type (normalize_threat_intel_value indicator_type value) =
      normalize_threat_intel_value indicator_type value) :
    threat_intel_key (normalize_threat_intel_entry entry) = key_of indicator_type value := by
  obtain ⟨rfl, hvalue⟩ := key_of_eq (a := entry.indicator_type) h
  unfold threat_intel_key normalize_threat_intel_entry key_of
  dsimp only
  rw [hvalue, hone]

theorem found_iff (config : PheromoneConfig F) (history : List (ThreatIntelEntry F)) (indicator_type : ThreatIntelIndicatorType)
    (value : String) : Found config history indicator_type value ↔ Settles history indicator_type value := by
  have hquery : ∀ (table : ThreatIntelTable F) (now : Int), table.query_threat_intel_entry indicator_type value now =
      (find threat_intel_key (key_of indicator_type value) table).filter (fun entry => entry.expires_at > now) := fun _ _ => rfl
  have hjournal : ∀ (s : LocalJournalPheromoneSubstrate F) (now : Int), s.query_threat_intel_entry indicator_type value now =
      (find threat_intel_key (key_of indicator_type value) s.threat_intel_entries).filter (fun entry => entry.expires_at > now) :=
    fun _ _ => rfl
  constructor
  · intro hfound entry hentry htype hvalue
    obtain ⟨found, hnewest, hmemory, -, hreopened⟩ := hfound entry hentry htype hvalue (entry.expires_at - 1) (by omega)
    rw [hquery, find_stored] at hmemory
    rw [hjournal, find_reopened] at hreopened
    obtain ⟨hmemory, hlater⟩ := Option.filter_eq_some_iff.1 hmemory
    obtain ⟨hreopened, -⟩ := Option.filter_eq_some_iff.1 hreopened
    obtain ⟨second, hsecond, hsame⟩ := Option.map_eq_some_iff.1 hmemory
    obtain ⟨third, hthird, hsame'⟩ := Option.map_eq_some_iff.1 hreopened
    obtain ⟨-, hkey⟩ := last_eq_some hnewest
    obtain ⟨htypes, hvalues⟩ := key_of_eq (a := found.indicator_type) hkey
    -- the entry that is found in memory is of the key in one pass and in two
    have hone : normalize_threat_intel_value indicator_type (normalize_threat_intel_value indicator_type value) =
        normalize_threat_intel_value indicator_type value := by
      have hagain := (last_eq_some hsecond).2
      rw [hsame] at hagain
      have hpasses := (key_of_eq (a := found.indicator_type) hagain).2
      unfold normalize_threat_intel_entry at hpasses
      dsimp only at hpasses
      rwa [hvalues, htypes] at hpasses
    -- what is read from the journal again is of the key in two, so it is what is in memory
    have hsecond' : last (fun entry => threat_intel_key (normalize_threat_intel_entry entry)) (key_of indicator_type value) history =
        some third :=
      last_of_last hthird ((key_of_normalized hsame').trans hkey) fun x _ hx => normalized_key hx hone
    obtain rfl := Option.some.inj (hsecond.symm.trans hsecond')
    have hexpires := congrArg ThreatIntelEntry.expires_at hsame
    change second.expires_at = found.expires_at at hexpires
    have hbefore : found.expires_at > entry.expires_at - 1 := of_decide_eq_true hlater
    exact ⟨hone, second, hthird, (key_of_normalized hsame).trans hkey, by omega⟩
  · intro hsettles entry hentry htype hvalue now hnow
    obtain ⟨hone, found, hlast, hkey, hexpires⟩ := hsettles entry hentry htype hvalue
    have hnewest : newest history indicator_type value = some found := by
      refine last_of_last hlast hkey fun x _ hx => ?_
      exact normalized_key (normalized_key hx hone) hone
    have hsecond : last (fun entry => threat_intel_key (normalize_threat_intel_entry entry)) (key_of indicator_type value) history =
        some found := by
      refine last_of_last hlast (normalized_key hkey hone) fun x _ hx => ?_
      exact normalized_key hx hone
    have htwice : normalize_threat_intel_entry (normalize_threat_intel_entry found) = normalize_threat_intel_entry found := by
      obtain ⟨htypes, hvalues⟩ := key_of_eq (a := found.indicator_type) hkey
      unfold normalize_threat_intel_entry
      dsimp only
      rw [htypes] at hvalues ⊢
      rw [hvalues, hone]
    have hlater : (fun entry : ThreatIntelEntry F => decide (entry.expires_at > now)) (normalize_threat_intel_entry found) = true :=
      decide_eq_true (lt_of_lt_of_le hnow hexpires)
    refine ⟨found, hnewest, ?_, ?_, ?_⟩
    · rw [hquery, find_stored, hsecond]
      exact Option.filter_eq_some_iff.2 ⟨rfl, hlater⟩
    · rw [hjournal, (journaled_eq config history).1, find_stored, hsecond]
      exact Option.filter_eq_some_iff.2 ⟨rfl, hlater⟩
    · rw [hjournal, find_reopened, hlast, Option.map_some, htwice]
      exact Option.filter_eq_some_iff.2 ⟨rfl, hlater⟩

/-! ## Addresses and hashes -/

def lower (c : Char) : Char := if 'A' ≤ c && c ≤ 'Z' then Char.ofNat (c.toNat + 32) else c

/-! ## The law -/

def doubly_slashed : ThreatIntelEntry Int where
  indicator_type := .Url
  value := "http://evil.example//"
  confidence := 900
  expires_at := 1000

end Ambush.Pheromone

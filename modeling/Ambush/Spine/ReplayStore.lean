import Ambush.Lib.Maps
import Mathlib.Data.List.Induction
/-!
# Replay stores

The two stores of replay bundles: a list in memory, and a directory with one index of records
and one document for each bundle. The name of a document is made from the bundle's id with
every character but letters, digits, `-` and `_` replaced, so two ids can have one document.
`file_store_agrees_iff` says when the two stores answer alike.
-/
open Lib

namespace Ambush.Spine

/-! ## Bundles and records -/

inductive AuditResponseRecord where
  | Success (receipt_id : String)
  | Failure (receipt_id : String)
  | Skipped (reason : String)
  | GuardRejected (guard_name reason : String)
  deriving DecidableEq

structure AuditTrail where
  trail_id : String
  hunt_id : String
  related_receipt_ids : List String
  response : AuditResponseRecord
  created_at_ms : Int
  deriving DecidableEq

namespace AuditTrail

def response_receipt_id (audit : AuditTrail) : Option String :=
  match audit.response with
  | .Success receipt_id => some receipt_id
  | .Failure receipt_id => some receipt_id
  | .Skipped _ => none
  | .GuardRejected _ _ => none

def response_kind (audit : AuditTrail) : String :=
  match audit.response with
  | .Success _ => "success"
  | .Failure _ => "failure"
  | .Skipped _ => "skipped"
  | .GuardRejected _ _ => "guard_rejected"

def all_receipt_ids (audit : AuditTrail) : List String :=
  match audit.response_receipt_id with
  | some receipt_id =>
    if receipt_id ∈ audit.related_receipt_ids then audit.related_receipt_ids else audit.related_receipt_ids ++ [receipt_id]
  | none => audit.related_receipt_ids

end AuditTrail

structure ReplayBundle where
  bundle_id : String
  /-- `action_request.action.kind()`. -/
  action_kind : String
  /-- The id of the rehearsal preview, when there is one. -/
  rehearsal : Option String
  audit : AuditTrail
  /-- The fields that no function here reads. -/
  rest : String
  deriving DecidableEq

structure ReplayBundleRecord where
  bundle_id : String
  hunt_id : String
  trail_id : String
  action_kind : String
  is_rehearsal : Bool
  rehearsal_id : Option String
  response_kind : String
  response_receipt_id : Option String
  related_receipt_ids : List String
  created_at_ms : Int
  bundle_path : String
  deriving DecidableEq

def ReplayBundleRecord.from_bundle (bundle : ReplayBundle) (bundle_path : String) : ReplayBundleRecord where
  bundle_id := bundle.bundle_id
  hunt_id := bundle.audit.hunt_id
  trail_id := bundle.audit.trail_id
  action_kind := bundle.action_kind
  is_rehearsal := bundle.rehearsal.isSome
  rehearsal_id := bundle.rehearsal
  response_kind := bundle.audit.response_kind
  response_receipt_id := bundle.audit.response_receipt_id
  related_receipt_ids := bundle.audit.all_receipt_ids
  created_at_ms := bundle.audit.created_at_ms
  bundle_path := bundle_path

structure ReplayBundleLookup where
  record : ReplayBundleRecord
  bundle : ReplayBundle
  deriving DecidableEq

inductive ReplayStoreError where
  | Read (path : String)
  | Parse (path : String)
  deriving DecidableEq

/-! ## In memory -/

/-- `MemoryReplayBundleStore`. -/
abbrev Memory := List ReplayBundle

namespace Memory

def persist (bundles : Memory) (bundle : ReplayBundle) : Memory :=
  bundles.filter (fun existing => existing.bundle_id ≠ bundle.bundle_id) ++ [bundle]

def sorted_recent_bundles (bundles : Memory) : List ReplayBundle :=
  bundles.mergeSort (fun a b => b.audit.created_at_ms ≤ a.audit.created_at_ms)

def lookup (bundle : ReplayBundle) : ReplayBundleLookup := ⟨.from_bundle bundle "memory", bundle⟩

def load_by_bundle_id (bundles : Memory) (bundle_id : String) : Option ReplayBundleLookup :=
  (bundles.find? fun bundle => bundle.bundle_id = bundle_id).map lookup

def load_by_hunt_id (bundles : Memory) (hunt_id : String) : Option ReplayBundleLookup :=
  ((sorted_recent_bundles bundles).find? fun bundle => bundle.audit.hunt_id = hunt_id).map lookup

def load_by_receipt_id (bundles : Memory) (receipt_id : String) : Option ReplayBundleLookup :=
  ((sorted_recent_bundles bundles).find? fun bundle => bundle.audit.all_receipt_ids.any (· = receipt_id)).map lookup

def recent (bundles : Memory) (limit : Nat) : List ReplayBundleRecord :=
  ((sorted_recent_bundles bundles).map (ReplayBundleRecord.from_bundle · "memory")).take limit

end Memory

/-! ## In files -/

def sanitize_char (ch : Char) : Char := if ch.isAlphanum || ch = '-' || ch = '_' then ch else '_'

def sanitize_id (id : String) : String := String.ofList (id.toList.map sanitize_char)

/-- The path of a bundle's document in the directory. -/
def bundle_path (bundle_id : String) : String := "bundles/" ++ sanitize_id bundle_id ++ ".json"

/-- `serde_json::to_string_pretty` and `serde_json::from_str` of a bundle. -/
structure Codec where
  to_string_pretty : ReplayBundle → String
  from_str : String → Option ReplayBundle

/-- `FileReplayBundleStore`: `index.json` once it is written, and the documents. -/
structure Directory where
  index : Option (List ReplayBundleRecord)
  documents : Map String String

namespace Directory
variable (c : Codec)

def empty : Directory := ⟨none, .empty⟩

def read_index (dir : Directory) : List ReplayBundleRecord := dir.index.getD []

def persist (dir : Directory) (bundle : ReplayBundle) : Directory where
  index := some (dir.read_index.filter (fun entry => entry.bundle_id ≠ bundle.bundle_id) ++
    [.from_bundle bundle (bundle_path bundle.bundle_id)])
  documents := dir.documents.insert (bundle_path bundle.bundle_id) (c.to_string_pretty bundle)

def read_bundle (dir : Directory) (record : ReplayBundleRecord) : Except ReplayStoreError ReplayBundleLookup :=
  match dir.documents record.bundle_path with
  | none => .error (.Read record.bundle_path)
  | some raw =>
    match c.from_str raw with
    | none => .error (.Parse record.bundle_path)
    | some bundle => .ok ⟨record, bundle⟩

/-- The document of the record that was found. -/
def read_found (dir : Directory) : Option ReplayBundleRecord → Except ReplayStoreError (Option ReplayBundleLookup)
  | none => .ok none
  | some record => (dir.read_bundle c record).map some

def sorted_entries (dir : Directory) : List ReplayBundleRecord :=
  dir.read_index.mergeSort (fun a b => b.created_at_ms ≤ a.created_at_ms)

def load_by_bundle_id (dir : Directory) (bundle_id : String) : Except ReplayStoreError (Option ReplayBundleLookup) :=
  dir.read_found c (dir.read_index.find? fun entry => entry.bundle_id = bundle_id)

def load_by_hunt_id (dir : Directory) (hunt_id : String) : Except ReplayStoreError (Option ReplayBundleLookup) :=
  dir.read_found c (dir.sorted_entries.find? fun entry => entry.hunt_id = hunt_id)

def load_by_receipt_id (dir : Directory) (receipt_id : String) : Except ReplayStoreError (Option ReplayBundleLookup) :=
  dir.read_found c (dir.sorted_entries.find? fun entry => entry.related_receipt_ids.any (· = receipt_id))

def recent (dir : Directory) (limit : Nat) : List ReplayBundleRecord := dir.sorted_entries.take limit

end Directory

/-! ## Agreement -/

/-- The same bundle, or none in both. -/
def Same (found : Except ReplayStoreError (Option ReplayBundleLookup)) (expected : Option ReplayBundleLookup) : Prop :=
  ∃ o, found = .ok o ∧ o.map (·.bundle) = expected.map (·.bundle)

/-- The two stores answer every question alike; a record names another path in each. -/
structure Agree (c : Codec) (dir : Directory) (bundles : Memory) : Prop where
  bundle_id : ∀ id, Same (dir.load_by_bundle_id c id) (bundles.load_by_bundle_id id)
  hunt_id : ∀ id, Same (dir.load_by_hunt_id c id) (bundles.load_by_hunt_id id)
  receipt_id : ∀ id, Same (dir.load_by_receipt_id c id) (bundles.load_by_receipt_id id)
  recent : ∀ limit, (dir.recent limit).map ({ · with bundle_path := "memory" }) = bundles.recent limit

def inMemory (persisted : List ReplayBundle) : Memory := persisted.foldl Memory.persist []

def inFiles (c : Codec) (persisted : List ReplayBundle) : Directory := persisted.foldl (Directory.persist c) .empty

section Stores
variable {c : Codec}

/-- The record of a bundle in the index. -/
def entry (bundle : ReplayBundle) : ReplayBundleRecord := .from_bundle bundle (bundle_path bundle.bundle_id)

/-- The index is the list in memory, record by record. -/
theorem read_index_inFiles (persisted : List ReplayBundle) : (inFiles c persisted).read_index = (inMemory persisted).map entry := by
  induction persisted using List.reverseRecOn with
  | nil => rfl
  | append_singleton persisted bundle ih =>
    unfold inFiles inMemory at *
    rw [List.foldl_append, List.foldl_append]
    show (List.filter _ _ ++ [_]) = List.map entry (List.filter _ _ ++ [bundle])
    rw [ih, List.map_append, List.filter_map]
    rfl

theorem sorted_entries_eq {dir : Directory} {bundles : Memory} (h : dir.read_index = bundles.map entry) :
    dir.sorted_entries = bundles.sorted_recent_bundles.map entry := by
  unfold Directory.sorted_entries Memory.sorted_recent_bundles
  rw [h]
  exact (List.map_mergeSort (f := entry) fun _ _ _ _ => rfl).symm

theorem recent_agrees {dir : Directory} {bundles : Memory} (h : dir.read_index = bundles.map entry) (limit : Nat) :
    (dir.recent limit).map ({ · with bundle_path := "memory" }) = bundles.recent limit := by
  unfold Directory.recent Memory.recent
  rw [sorted_entries_eq h, List.map_take, List.map_map]
  rfl

/-- What was found in memory is read from its document, if that document is its own. -/
theorem same_of_documents {dir : Directory} {o : Option ReplayBundle}
    (h : ∀ b, o = some b → dir.documents (bundle_path b.bundle_id) = some (c.to_string_pretty b) ∧
      c.from_str (c.to_string_pretty b) = some b) :
    Same (dir.read_found c (o.map entry)) (o.map Memory.lookup) := by
  cases o with
  | none => exact ⟨none, rfl, rfl⟩
  | some b =>
    obtain ⟨hdoc, hread⟩ := h b rfl
    refine ⟨some ⟨entry b, b⟩, ?_, rfl⟩
    have hpath : dir.documents (entry b).bundle_path = some (c.to_string_pretty b) := hdoc
    show (dir.read_bundle c (entry b)).map some = _
    unfold Directory.read_bundle
    rw [hpath]
    dsimp only
    rw [hread]
    rfl

/-- A store whose documents are all the bundles' own answers as memory does. -/
theorem agree_of_documents {dir : Directory} {bundles : Memory} (hindex : dir.read_index = bundles.map entry)
    (h : ∀ b ∈ bundles, dir.documents (bundle_path b.bundle_id) = some (c.to_string_pretty b) ∧
      c.from_str (c.to_string_pretty b) = some b) : Agree c dir bundles := by
  have hsorted := sorted_entries_eq hindex
  have hmem : ∀ {p : ReplayBundle → Bool} {b : ReplayBundle}, bundles.sorted_recent_bundles.find? p = some b → b ∈ bundles :=
    fun hb => List.mem_mergeSort.1 (List.mem_of_find?_eq_some hb)
  refine ⟨fun id => ?_, fun id => ?_, fun id => ?_, recent_agrees hindex⟩
  · unfold Directory.load_by_bundle_id
    rw [hindex, List.find?_map]
    exact same_of_documents fun b hb => h b (List.mem_of_find?_eq_some hb)
  · unfold Directory.load_by_hunt_id
    rw [hsorted, List.find?_map]
    exact same_of_documents fun b hb => h b (hmem hb)
  · unfold Directory.load_by_receipt_id
    rw [hsorted, List.find?_map]
    exact same_of_documents fun b hb => h b (hmem hb)

/-! ## Documents -/

theorem inMemory_snoc (persisted : List ReplayBundle) (b : ReplayBundle) :
    inMemory (persisted ++ [b]) = (inMemory persisted).persist b := by
  unfold inMemory
  rw [List.foldl_append]
  rfl

theorem inFiles_snoc (persisted : List ReplayBundle) (b : ReplayBundle) :
    inFiles c (persisted ++ [b]) = (inFiles c persisted).persist c b := by
  unfold inFiles
  rw [List.foldl_append]
  rfl

theorem mem_persist {bundles : Memory} {b x : ReplayBundle} :
    x ∈ bundles.persist b ↔ (x ∈ bundles ∧ x.bundle_id ≠ b.bundle_id) ∨ x = b := by
  simp [Memory.persist]

theorem mem_inMemory {persisted : List ReplayBundle} {x : ReplayBundle} (h : x ∈ inMemory persisted) : x ∈ persisted := by
  induction persisted using List.reverseRecOn with
  | nil => cases h
  | append_singleton persisted b ih =>
    rw [inMemory_snoc] at h
    rcases mem_persist.1 h with ⟨hx, -⟩ | rfl
    · exact List.mem_append_left _ (ih hx)
    · exact List.mem_append_right _ (List.mem_singleton.2 rfl)

/-- An id that was persisted stays. -/
theorem exists_inMemory {persisted : List ReplayBundle} {x : ReplayBundle} (h : x ∈ persisted) :
    ∃ y ∈ inMemory persisted, y.bundle_id = x.bundle_id := by
  induction persisted using List.reverseRecOn with
  | nil => cases h
  | append_singleton persisted b ih =>
    rw [inMemory_snoc]
    by_cases hid : x.bundle_id = b.bundle_id
    · exact ⟨b, mem_persist.2 (.inr rfl), hid.symm⟩
    · rcases List.mem_append.1 h with hx | hx
      · obtain ⟨y, hy, hyx⟩ := ih hx
        exact ⟨y, mem_persist.2 (.inl ⟨hy, hyx ▸ hid⟩), hyx⟩
      · exact absurd (congrArg _ (List.mem_singleton.1 hx)) hid

/-- No two ids of the list have one document. -/
def Distinct (persisted : List ReplayBundle) : Prop :=
  ∀ x ∈ persisted, ∀ y ∈ persisted, sanitize_id x.bundle_id = sanitize_id y.bundle_id → x.bundle_id = y.bundle_id

theorem bundle_path_inj {a b : String} (h : bundle_path a = bundle_path b) : sanitize_id a = sanitize_id b := by
  unfold bundle_path at h
  exact String.append_right_inj _ |>.1 ((String.append_left_inj _).1 h)

theorem documents_inFiles {persisted : List ReplayBundle} (h : Distinct persisted) :
    ∀ b ∈ inMemory persisted, (inFiles c persisted).documents (bundle_path b.bundle_id) = some (c.to_string_pretty b) := by
  induction persisted using List.reverseRecOn with
  | nil => exact fun b hb => nomatch hb
  | append_singleton persisted b ih =>
    intro x hx
    rw [inMemory_snoc] at hx
    rw [inFiles_snoc]
    rcases mem_persist.1 hx with ⟨hx, hne⟩ | rfl
    · have hpath : bundle_path x.bundle_id ≠ bundle_path b.bundle_id := fun hpath =>
        hne (h x (List.mem_append_left _ (mem_inMemory hx)) b (by simp) (bundle_path_inj hpath))
      refine (Map.insert_ne _ _ _ _ hpath).trans ?_
      exact ih (fun y hy z hz => h y (List.mem_append_left _ hy) z (List.mem_append_left _ hz)) x hx
    · exact Map.insert_self _ _ _

/-! ## When the stores agree -/

/-- The bundle of a lookup, or the error. -/
def bundleOf (found : Except ReplayStoreError (Option ReplayBundleLookup)) : Except ReplayStoreError (Option ReplayBundle) :=
  found.map (Option.map (·.bundle))

/-- After each bundle of the list the two stores agree, and it has changed no other lookup. -/
structure Faithful (c : Codec) (persisted : List ReplayBundle) : Prop where
  agree : ∀ early, early <+: persisted → Agree c (inFiles c early) (inMemory early)
  other : ∀ early b id, early ++ [b] <+: persisted → id ≠ b.bundle_id →
    bundleOf ((inFiles c (early ++ [b])).load_by_bundle_id c id) = bundleOf ((inFiles c early).load_by_bundle_id c id)

theorem Same.bundleOf_eq {found : Except ReplayStoreError (Option ReplayBundleLookup)} {expected : Option ReplayBundleLookup}
    (h : Same found expected) : bundleOf found = .ok (expected.map (·.bundle)) := by
  obtain ⟨o, rfl, ho⟩ := h
  exact congrArg Except.ok ho

/-- Persisting a bundle changes no other lookup in memory. -/
theorem load_persist_ne {bundles : Memory} {b : ReplayBundle} {id : String} (hne : id ≠ b.bundle_id) :
    (bundles.persist b).load_by_bundle_id id = bundles.load_by_bundle_id id := by
  unfold Memory.load_by_bundle_id Memory.persist
  have hlast : [b].find? (fun bundle => decide (bundle.bundle_id = id)) = none := by
    simpa using fun h : b.bundle_id = id => hne h.symm
  rw [List.find?_append, hlast, Option.or_none, List.find?_filter]
  congr 2
  funext bundle
  by_cases hid : bundle.bundle_id = id
  · simp [hid, hne]
  · simp [hid]

/-- An id that is in memory finds a bundle with that id. -/
theorem find_of_mem {bundles : Memory} {x : ReplayBundle} (h : x ∈ bundles) :
    ∃ y ∈ bundles, y.bundle_id = x.bundle_id ∧ bundles.find? (fun b => b.bundle_id = x.bundle_id) = some y := by
  cases hfind : bundles.find? (fun b => b.bundle_id = x.bundle_id) with
  | none => simpa using List.find?_eq_none.1 hfind x h
  | some y => exact ⟨y, List.mem_of_find?_eq_some hfind, by simpa using List.find?_some hfind, rfl⟩

/-- A store that agrees reads each bundle it has from the document of its id. -/
theorem Agree.document {dir : Directory} {bundles : Memory} (h : Agree c dir bundles) (hindex : dir.read_index = bundles.map entry)
    {x : ReplayBundle} (hx : x ∈ bundles) :
    ∃ y ∈ bundles, y.bundle_id = x.bundle_id ∧ (dir.documents (bundle_path x.bundle_id)).bind c.from_str = some y := by
  obtain ⟨y, hy, hid, hfind⟩ := find_of_mem hx
  refine ⟨y, hy, hid, ?_⟩
  obtain ⟨o, ho, hsame⟩ := h.bundle_id x.bundle_id
  have hentry : dir.read_index.find? (fun e => e.bundle_id = x.bundle_id) = some (entry y) := by
    rw [hindex, List.find?_map]
    exact congrArg _ hfind
  have hpath : (entry y).bundle_path = bundle_path x.bundle_id := congrArg bundle_path hid
  unfold Directory.load_by_bundle_id at ho
  rw [hentry] at ho
  unfold Memory.load_by_bundle_id at hsame
  rw [hfind] at hsame
  unfold Directory.read_found Directory.read_bundle at ho
  dsimp only at ho
  rw [hpath] at ho
  cases hdoc : dir.documents (bundle_path x.bundle_id) with
  | none => rw [hdoc] at ho; cases ho
  | some raw =>
    rw [hdoc] at ho
    dsimp only at ho
    cases hread : c.from_str raw with
    | none => rw [hread] at ho; cases ho
    | some z =>
      rw [hread] at ho
      obtain rfl := Except.ok.inj ho
      show c.from_str raw = some y
      rw [hread]
      exact hsame

theorem file_store_agrees_iff (c : Codec) (persisted : List ReplayBundle) :
    Faithful c persisted ↔
      Distinct persisted ∧ ∀ b ∈ persisted, c.from_str (c.to_string_pretty b) = some b := by
  constructor
  · intro h
    constructor
    · -- both ids are in the store, and there is one document to read them from
      intro x hx y hy hname
      have hagree := h.agree persisted (List.prefix_refl _)
      have hindex := read_index_inFiles (c := c) persisted
      obtain ⟨x', hx', hxid⟩ := exists_inMemory hx
      obtain ⟨y', hy', hyid⟩ := exists_inMemory hy
      obtain ⟨u, -, hu, hux⟩ := hagree.document hindex hx'
      obtain ⟨v, -, hv, hvy⟩ := hagree.document hindex hy'
      have hpath : bundle_path x'.bundle_id = bundle_path y'.bundle_id := by
        rw [hxid, hyid, bundle_path, bundle_path, hname]
      rw [hpath, hvy] at hux
      rw [← hxid, ← hyid, ← hu, ← hv, Option.some.inj hux]
    · intro b hb
      obtain ⟨early, late, rfl⟩ := List.append_of_mem hb
      have hprefix : early ++ [b] <+: early ++ b :: late := ⟨late, by simp⟩
      have hagree := h.agree _ hprefix
      have hmem : b ∈ inMemory (early ++ [b]) := by
        rw [inMemory_snoc]
        exact mem_persist.2 (.inr rfl)
      obtain ⟨y, hy, hid, hread⟩ := hagree.document (read_index_inFiles _) hmem
      have hyb : y = b := by
        rw [inMemory_snoc] at hy
        rcases mem_persist.1 hy with ⟨-, hne⟩ | rfl
        · exact absurd hid hne
        · rfl
      have hdoc : (inFiles c (early ++ [b])).documents (bundle_path b.bundle_id) = some (c.to_string_pretty b) := by
        rw [inFiles_snoc]
        exact Map.insert_self _ _ _
      rw [hdoc, hyb] at hread
      exact hread
  · rintro ⟨hdistinct, hread⟩
    have hagree : ∀ early, early <+: persisted → Agree c (inFiles c early) (inMemory early) := by
      intro early hearly
      have hsub := hearly.subset
      have hdocs := @documents_inFiles c early fun x hx y hy => hdistinct x (hsub hx) y (hsub hy)
      exact agree_of_documents (read_index_inFiles early) fun b hb => ⟨hdocs b hb, hread b (hsub (mem_inMemory hb))⟩
    refine ⟨hagree, fun early b id hprefix hne => ?_⟩
    have hearly : early <+: persisted := (List.prefix_append early [b]).trans hprefix
    rw [((hagree _ hprefix).bundle_id id).bundleOf_eq, ((hagree _ hearly).bundle_id id).bundleOf_eq, inMemory_snoc,
      load_persist_ne hne]

/-- Bundles that differ in their ids alone, written as their ids. -/
def sample (bundle_id : String) : ReplayBundle where
  bundle_id := bundle_id
  action_kind := "deploy_decoy"
  rehearsal := none
  audit := ⟨"trail:hunt-1:1", "hunt-1", [], .Success "receipt-response-1", 1⟩
  rest := ""

def sampleCodec : Codec := ⟨(·.bundle_id), fun raw => some (sample raw)⟩

def colliding : List ReplayBundle := [sample "bundle:1", sample "bundle_1"]

/-- The second bundle has overwritten the document of the first. -/
theorem file_store_disagrees : (∀ b ∈ colliding, sampleCodec.from_str (sampleCodec.to_string_pretty b) = some b) ∧
    (inMemory colliding).load_by_bundle_id "bundle:1" = some (Memory.lookup (sample "bundle:1")) ∧
    bundleOf ((inFiles sampleCodec colliding).load_by_bundle_id sampleCodec "bundle:1") = .ok (some (sample "bundle_1")) ∧
    ¬ Faithful sampleCodec colliding := by
  have hfile : bundleOf ((inFiles sampleCodec colliding).load_by_bundle_id sampleCodec "bundle:1") =
      .ok (some (sample "bundle_1")) := by rfl
  have hmemory : (inMemory colliding).load_by_bundle_id "bundle:1" = some (Memory.lookup (sample "bundle:1")) := by rfl
  refine ⟨by decide, hmemory, hfile, fun h => ?_⟩
  have hsame := ((h.agree colliding (List.prefix_refl _)).bundle_id "bundle:1").bundleOf_eq
  rw [hfile, hmemory] at hsame
  exact absurd (congrArg ReplayBundle.bundle_id (Option.some.inj (Except.ok.inj hsame))) (by decide)

end Stores
end Ambush.Spine

import Ambush.Deletion.Manifest
import Ambush.Lib.PrefixCodes
import Ambush.Lib.Results
/-!
# The frozen key streams

The persisted chunks are walked beside the summaries of the manifest. They are accepted exactly
when the chunks of each prefix, one after another, hash to its summary; what they are is then as
certain as the text that is hashed can be cut into entries in one way only.
-/
open Lib

namespace Ambush.Deletion

/-! ## Entries -/

/-- A part of an entry. -/
def Component (value : String) : Prop := value ≠ "" ∧ '\n' ∉ value.toList ∧ separator ∉ value.toList

theorem validate_manifest_component_ok {name value : String} :
    validate_manifest_component name value = .ok () ↔ Component value := by
  rw [validate_manifest_component, ok_guard_iff, not_or, not_or, Component]
  exact and_iff_left rfl

namespace StorageManifestEntry

def text (e : StorageManifestEntry) : List Char := e.key.toList ++ separator :: (e.version_id.toList ++ separator :: e.kind.toList)

/-- What can be encoded. -/
structure Valid (e : StorageManifestEntry) : Prop where
  key : Component e.key
  version_id : Component e.version_id
  kind : e.kind = "object" ∨ e.kind = "delete_marker"

theorem component_kind {kind : String} (h : kind = "object" ∨ kind = "delete_marker") : Component kind := by
  rcases h with rfl | rfl
  · exact ⟨by decide, by decide, by decide⟩
  · exact ⟨by decide, by decide, by decide⟩

theorem encode_ok {e : StorageManifestEntry} {value : String} : e.encode = .ok value ↔ e.Valid ∧ value = String.ofList e.text := by
  constructor
  · intro h
    obtain ⟨_, hkey, h⟩ := (ok_bind_iff _ _ _).1 h
    obtain ⟨_, hversion, h⟩ := (ok_bind_iff _ _ _).1 h
    obtain ⟨_, -, h⟩ := (ok_bind_iff _ _ _).1 h
    obtain ⟨hkind, h⟩ := ok_guard_iff.1 h
    rw [not_and_or, not_not, not_not] at hkind
    exact ⟨⟨validate_manifest_component_ok.1 hkey, validate_manifest_component_ok.1 hversion, hkind⟩, (Except.ok.inj h).symm⟩
  · rintro ⟨⟨hkey, hversion, hkind⟩, rfl⟩
    rw [encode, validate_manifest_component_ok.2 hkey, validate_manifest_component_ok.2 hversion,
      validate_manifest_component_ok.2 (component_kind hkind)]
    refine ok_guard_iff.2 ⟨?_, rfl⟩
    rw [not_and_or, not_not, not_not]
    exact hkind

/-- What was encoded is split where it was put together. -/
theorem splitOn_text {e : StorageManifestEntry} (h : e.Valid) :
    e.text.splitOn separator = [e.key.toList, e.version_id.toList, e.kind.toList] := by
  rw [text, List.splitOn_append_cons_self_of_not_mem h.key.2.2, List.splitOn_append_cons_self_of_not_mem h.version_id.2.2,
    List.splitOn_eq_singleton (component_kind h.kind).2.2]

/-- Decoding undoes encoding, and nothing else is decoded. -/
theorem decode_ok {value : String} {e : StorageManifestEntry} : decode value = .ok e ↔ e.encode = .ok value := by
  constructor
  · intro h
    rw [decode] at h
    split at h
    · cases h
    · cases h
    · cases h
    · next key version_id kind hparts =>
      obtain ⟨_, hencode, h⟩ := (ok_bind_iff _ _ _).1 h
      cases h
      obtain ⟨hvalid, rfl⟩ := encode_ok.1 hencode
      rw [encode_ok]
      refine ⟨hvalid, ?_⟩
      have hjoin : [separator].intercalate (value.toList.splitOn separator) = value.toList := List.intercalate_splitOn separator
      rw [hparts] at hjoin
      rw [← String.ofList_toList (s := value), ← hjoin, text, String.toList_ofList, String.toList_ofList, String.toList_ofList]
      simp [List.intercalate]
    · cases h
  · intro h
    obtain ⟨hvalid, rfl⟩ := encode_ok.1 h
    rw [decode, String.toList_ofList, splitOn_text hvalid]
    simp only [String.ofList_toList, h]
    rfl

/-- No entry has a line feed. -/
theorem feed_notMem {e : StorageManifestEntry} {value : String} (h : e.encode = .ok value) : '\n' ∉ value.toList := by
  obtain ⟨hvalid, rfl⟩ := encode_ok.1 h
  have hfeed : '\n' ≠ separator := by decide
  rw [String.toList_ofList, text]
  simp [hvalid.key.2.1, hvalid.version_id.2.1, (component_kind hvalid.kind).2.1, hfeed]

end StorageManifestEntry

/-! ## Streams -/

/-- The key of an entry is under the prefix. -/
def Under (version : Int) (pre entry : String) : Prop :=
  if 5 ≤ version then ∃ e : StorageManifestEntry, e.encode = .ok entry ∧ pre.toList <+: e.key.toList
  else pre.toList <+: entry.toList

/-- Bare keys go up. Versions of a key come as the object store has them. -/
def InOrder (version : Int) (entries : List String) : Prop := 5 ≤ version ∨ entries.Pairwise (· < ·)

/-- The text that is hashed. -/
def stream_text (entries : List String) : List Char := closed_words '\n' (entries.map String.toList)

/-- A whole stream folded as its version has it. -/
def stream_digest (version : Int) (entries : List String) : Except DbError KeyStreamDigest :=
  entries.foldlM (fun d key => if 5 ≤ version then .ok (d.fold_unordered key) else d.fold key) .new

section
variable {version : Int} {pre key : String} {keys : List String} {d d' : KeyStreamDigest}

/-- The digest after some more entries. -/
def KeyStreamDigest.extend (d : KeyStreamDigest) (keys : List String) : KeyStreamDigest := keys.foldl fold_unordered d

theorem extend_hashed (d : KeyStreamDigest) (keys : List String) : (d.extend keys).hashed = d.hashed ++ stream_text keys := by
  induction keys generalizing d with
  | nil => exact (List.append_nil _).symm
  | cons key keys ih =>
    have h := ih (d.fold_unordered key)
    rw [KeyStreamDigest.extend, List.foldl_cons, ← KeyStreamDigest.extend, h, stream_text, stream_text, List.map_cons,
      closed_words_cons, KeyStreamDigest.fold_unordered, List.append_assoc, List.append_assoc]
    rfl

theorem extend_count (d : KeyStreamDigest) (keys : List String) : (d.extend keys).count = d.count + keys.length := by
  induction keys generalizing d with
  | nil => rfl
  | cons key keys ih =>
    have h := ih (d.fold_unordered key)
    have hone : (d.fold_unordered key).count = d.count + 1 := rfl
    rw [KeyStreamDigest.extend, List.foldl_cons, ← KeyStreamDigest.extend, h, hone, List.length_cons]
    omega

theorem fold_ok : d.fold key = .ok d' ↔ (∀ last ∈ d.last, last < key) ∧ d' = d.fold_unordered key := by
  rw [KeyStreamDigest.fold, ok_guard_iff]
  refine and_congr ?_ ⟨fun h => (Except.ok.inj h).symm, fun h => congrArg Except.ok h.symm⟩
  cases d.last with
  | none => simp
  | some last => simp

theorem under_ok ( prefix_key : String) {next : Except DbError KeyStreamDigest} :
    (if !pre.toList.isPrefixOf prefix_key.toList then
        .error (.DeletionSafety ("frozen key " ++ prefix_key ++ " is outside its chunk prefix " ++ pre))
      else next) = .ok d' ↔ pre.toList <+: prefix_key.toList ∧ next = .ok d' := by
  rw [ok_guard_iff, Bool.not_eq_true', Bool.not_eq_false, List.isPrefixOf_iff_prefix]

theorem fold_key_ok : fold_key version pre d key = .ok d' ↔
    Under version pre key ∧ (5 ≤ version ∨ ∀ last ∈ d.last, last < key) ∧ d' = d.fold_unordered key := by
  by_cases hversion : 5 ≤ version
  · simp only [fold_key, Under, hversion, ↓reduceIte, true_or, true_and]
    cases hdecode : StorageManifestEntry.decode key with
    | error e =>
      refine ⟨nofun, ?_⟩
      rintro ⟨⟨e', hencode, -⟩, -⟩
      rw [StorageManifestEntry.decode_ok.2 hencode] at hdecode
      cases hdecode
    | ok e =>
      refine (under_ok e.key).trans ⟨?_, ?_⟩
      · rintro ⟨hunder, h⟩
        exact ⟨⟨e, StorageManifestEntry.decode_ok.1 hdecode, hunder⟩, (Except.ok.inj h).symm⟩
      · rintro ⟨⟨e', hencode, hunder⟩, rfl⟩
        rw [StorageManifestEntry.decode_ok.2 hencode] at hdecode
        cases hdecode
        exact ⟨hunder, rfl⟩
  · simp only [fold_key, Under, hversion, ↓reduceIte, false_or]
    exact (under_ok key).trans (and_congr_right fun _ => fold_ok)

theorem inOrder_cons (last : Option String) (key : String) (keys : List String) :
    InOrder version (last.toList ++ key :: keys) ↔
      (5 ≤ version ∨ ∀ l ∈ last, l < key) ∧ InOrder version ((some key).toList ++ keys) := by
  rw [InOrder, InOrder, ← or_and_left]
  refine or_congr_right ?_
  cases last with
  | none => simp
  | some l =>
    simp only [Option.toList_some, List.singleton_append, List.pairwise_cons, Option.mem_def, Option.some.injEq, forall_eq']
    constructor
    · rintro ⟨hl, hrest⟩
      exact ⟨hl key List.mem_cons_self, hrest⟩
    · rintro ⟨hl, hkey, hrest⟩
      refine ⟨fun k hk => ?_, hkey, hrest⟩
      rcases List.mem_cons.1 hk with rfl | hk
      · exact hl
      · exact lt_trans hl (hkey k hk)

/-- A fold that checks each key and the order. -/
theorem folds_ok {f : KeyStreamDigest → String → Except DbError KeyStreamDigest} {P : String → Prop}
    (hf : ∀ d key d', f d key = .ok d' ↔ P key ∧ (5 ≤ version ∨ ∀ last ∈ d.last, last < key) ∧ d' = d.fold_unordered key) :
    keys.foldlM f d = .ok d' ↔ (∀ key ∈ keys, P key) ∧ InOrder version (d.last.toList ++ keys) ∧ d' = d.extend keys := by
  induction keys generalizing d with
  | nil =>
    have horder : InOrder version (d.last.toList ++ []) := by
      refine .inr ?_
      cases d.last <;> simp
    rw [List.foldlM_nil]
    constructor
    · intro h
      exact ⟨nofun, horder, (Except.ok.inj h).symm⟩
    · rintro ⟨-, -, rfl⟩
      rfl
  | cons key keys ih =>
    rw [List.foldlM_cons, ok_bind_iff, inOrder_cons, List.forall_mem_cons]
    constructor
    · rintro ⟨d₁, hkey, hrest⟩
      obtain ⟨hP, hlast, rfl⟩ := (hf _ _ _).1 hkey
      obtain ⟨hall, horder, rfl⟩ := ih.1 hrest
      exact ⟨⟨hP, hall⟩, ⟨hlast, horder⟩, rfl⟩
    · rintro ⟨⟨hP, hall⟩, ⟨hlast, horder⟩, rfl⟩
      exact ⟨_, (hf _ _ _).2 ⟨hP, hlast, rfl⟩, ih.2 ⟨hall, horder, rfl⟩⟩

/-- The keys of a chunk are folded when they are under its prefix and in order. -/
theorem fold_keys_ok : keys.foldlM (fold_key version pre) d = .ok d' ↔
    (∀ key ∈ keys, Under version pre key) ∧ InOrder version (d.last.toList ++ keys) ∧ d' = d.extend keys :=
  folds_ok (fun _ _ _ => fold_key_ok)

theorem stream_digest_ok : stream_digest version keys = .ok d' ↔ InOrder version keys ∧ d' = KeyStreamDigest.new.extend keys := by
  have hstep : ∀ (d : KeyStreamDigest) key d', (if 5 ≤ version then Except.ok (d.fold_unordered key) else d.fold key) = .ok d' ↔
      True ∧ (5 ≤ version ∨ ∀ last ∈ d.last, last < key) ∧ d' = d.fold_unordered key := by
    intro d key d'
    by_cases hversion : 5 ≤ version
    · rw [if_pos hversion]
      exact ⟨fun h => ⟨trivial, .inl hversion, (Except.ok.inj h).symm⟩, fun h => congrArg Except.ok h.2.2.symm⟩
    · rw [if_neg hversion, fold_ok, true_and, or_iff_right hversion]
  exact (folds_ok hstep).trans ⟨fun h => h.2, fun h => ⟨fun _ _ => trivial, h⟩⟩

end

/-! ## The walk -/

/-- The entries of the chunks of a prefix, one chunk after another. -/
def keys_of (pre : String) (chunks : List ManifestKeyChunk) : List String :=
  chunks.flatMap (fun c => if c.pre = pre then c.keys else [])

section
variable (sha256 : ByteArray → List UInt8) (version : Int)

/-- The entries go on from a digest to what the summary says. -/
def Reaches (summary : PrefixManifest) (d : KeyStreamDigest) (keys : List String) : Prop :=
  ∃ d', keys.foldlM (fold_key version summary.pre) d = .ok d' ∧ d'.finish sha256 = (summary.keys_digest, summary.object_count)

/-- What the walk from the `index`-th chunk on accepts, with the digest of the first summary. -/
structure Walk (index : Nat) (chunks : List ManifestKeyChunk) (summaries : List PrefixManifest) (d : KeyStreamDigest) : Prop where
  numbered : chunks.map ManifestKeyChunk.chunk_no = (List.range' index chunks.length).map (fun n : Nat => min (n : Int) i64Max)
  full : ∀ c ∈ chunks, c.keys ≠ []
  ordered : chunks.Pairwise (fun c c' => c.pre ≤ c'.pre)
  listed : ∀ c ∈ chunks, c.pre ∈ summaries.map PrefixManifest.pre
  first : ∀ s ∈ summaries.head?, Reaches sha256 version s d (keys_of s.pre chunks)
  rest : ∀ s ∈ summaries.tail, Reaches sha256 version s .new (keys_of s.pre chunks)

variable {sha256} {version} {index : Nat} {chunk : ManifestKeyChunk} {chunks : List ManifestKeyChunk}
  {summary : PrefixManifest} {summaries : List PrefixManifest} {d : KeyStreamDigest}

theorem close_ok : close sha256 summary d = .ok () ↔ d.finish sha256 = (summary.keys_digest, summary.object_count) := by
  rw [close, ok_guard_iff, not_not]
  exact and_iff_left rfl

/-- A chunk of the first summary's prefix. -/
theorem validate_here (h : summary.pre = chunk.pre) :
    validate_chunks sha256 version index (chunk :: chunks) (summary :: summaries) d = .ok () ↔
      chunk.chunk_no = min (index : Int) i64Max ∧ chunk.keys ≠ [] ∧ ∃ d', chunk.keys.foldlM (fold_key version chunk.pre) d = .ok d' ∧
        validate_chunks sha256 version (index + 1) chunks (summary :: summaries) d' = .ok () := by
  rw [validate_chunks, skip_to, if_pos h]
  refine ok_guard_iff.trans (and_congr not_not ?_)
  refine (ok_guard_iff (x := chunk.keys.foldlM (fold_key version chunk.pre) d >>= fun digest =>
    validate_chunks sha256 version (index + 1) chunks (summary :: summaries) digest)).trans ?_
  rw [ok_bind_iff]

/-- A chunk of a later prefix closes the first summary. -/
theorem validate_later (h : summary.pre ≠ chunk.pre) :
    validate_chunks sha256 version index (chunk :: chunks) (summary :: summaries) d = .ok () ↔
      close sha256 summary d = .ok () ∧ validate_chunks sha256 version index (chunk :: chunks) summaries .new = .ok () := by
  rw [validate_chunks, validate_chunks, skip_to, if_neg h]
  cases close sha256 summary d with
  | error e =>
    refine ⟨fun hok => ?_, fun hok => by cases hok.1⟩
    cases (ok_guard_iff.1 hok).2
  | ok u => exact ⟨fun hok => ⟨rfl, hok⟩, fun hok => hok.2⟩

theorem keys_of_cons_self (chunk : ManifestKeyChunk) (chunks : List ManifestKeyChunk) :
    keys_of chunk.pre (chunk :: chunks) = chunk.keys ++ keys_of chunk.pre chunks := by
  rw [keys_of, List.flatMap_cons, if_pos rfl, keys_of]

theorem keys_of_cons_ne {pre : String} (h : chunk.pre ≠ pre) : keys_of pre (chunk :: chunks) = keys_of pre chunks := by
  rw [keys_of, List.flatMap_cons, if_neg h, List.nil_append, keys_of]

theorem keys_of_none {pre : String} (h : ∀ c ∈ chunks, c.pre ≠ pre) : keys_of pre chunks = [] := by
  rw [keys_of, List.flatMap_eq_nil_iff]
  exact fun c hc => if_neg (h c hc)

theorem reaches_append {keys keys' : List String} : Reaches sha256 version summary d (keys ++ keys') ↔
    ∃ d', keys.foldlM (fold_key version summary.pre) d = .ok d' ∧ Reaches sha256 version summary d' keys' := by
  simp only [Reaches, List.foldlM_append, ok_bind_iff]
  constructor
  · rintro ⟨d₂, ⟨d₁, h₁, h₂⟩, hfinish⟩
    exact ⟨d₁, h₁, d₂, h₂, hfinish⟩
  · rintro ⟨d₁, h₁, d₂, h₂, hfinish⟩
    exact ⟨d₂, ⟨d₁, h₁, h₂⟩, hfinish⟩

theorem reaches_nil : Reaches sha256 version summary d [] ↔ d.finish sha256 = (summary.keys_digest, summary.object_count) := by
  rw [Reaches]
  constructor
  · rintro ⟨d', h, hfinish⟩
    cases h
    exact hfinish
  · exact fun h => ⟨d, rfl, h⟩

theorem walk_here (hsorted : ((summary :: summaries).map PrefixManifest.pre).Pairwise (· < ·)) (h : summary.pre = chunk.pre) :
    Walk sha256 version index (chunk :: chunks) (summary :: summaries) d ↔
      chunk.chunk_no = min (index : Int) i64Max ∧ chunk.keys ≠ [] ∧ ∃ d', chunk.keys.foldlM (fold_key version chunk.pre) d = .ok d' ∧
        Walk sha256 version (index + 1) chunks (summary :: summaries) d' := by
  rw [List.map_cons, List.pairwise_cons] at hsorted
  have hlater : ∀ s ∈ summaries, chunk.pre ≠ s.pre := fun s hs => h ▸ (hsorted.1 _ (List.mem_map_of_mem hs)).ne
  have hmine : keys_of summary.pre (chunk :: chunks) = chunk.keys ++ keys_of summary.pre chunks := by
    rw [h, keys_of_cons_self]
  constructor
  · rintro ⟨hnumbered, hfull, hordered, hlisted, hfirst, hrest⟩
    rw [List.length_cons, List.range'_succ, List.map_cons, List.map_cons] at hnumbered
    obtain ⟨hno, hnumbered⟩ := List.cons.inj hnumbered
    have hfirst := hfirst summary rfl
    rw [hmine, reaches_append, h] at hfirst
    obtain ⟨d', hd', hreach⟩ := hfirst
    refine ⟨hno, hfull _ List.mem_cons_self, d', hd', hnumbered, fun c hc => hfull c (List.mem_cons_of_mem _ hc),
      (List.pairwise_cons.1 hordered).2, fun c hc => hlisted c (List.mem_cons_of_mem _ hc), fun s hs => ?_, fun s hs => ?_⟩
    · cases hs
      rw [h]
      exact hreach
    · rw [← keys_of_cons_ne (hlater s hs)]
      exact hrest s hs
  · rintro ⟨hno, hkeys, d', hd', hwalk⟩
    refine ⟨?_, List.forall_mem_cons.2 ⟨hkeys, hwalk.full⟩, List.pairwise_cons.2 ⟨fun c hc => ?_, hwalk.ordered⟩,
      List.forall_mem_cons.2 ⟨by rw [← h]; exact List.mem_cons_self, hwalk.listed⟩, fun s hs => ?_, fun s hs => ?_⟩
    · rw [List.length_cons, List.range'_succ, List.map_cons, List.map_cons, hno, hwalk.numbered]
    · rw [← h]
      rcases List.mem_cons.1 (hwalk.listed c hc) with heq | hmem
      · exact heq.ge
      · exact (hsorted.1 _ hmem).le
    · cases hs
      rw [hmine, reaches_append]
      refine ⟨d', ?_, hwalk.first summary rfl⟩
      rw [h]
      exact hd'
    · rw [keys_of_cons_ne (hlater s hs)]
      exact hwalk.rest s hs

theorem forall_mem_head_tail {P : PrefixManifest → Prop} :
    (∀ s ∈ summaries, P s) ↔ (∀ s ∈ summaries.head?, P s) ∧ ∀ s ∈ summaries.tail, P s := by
  cases summaries with
  | nil => simp
  | cons s rest => simp

/-- What is walked with the later summaries is walked with all when the first is closed. -/
theorem Walk.closed (hwalk : Walk sha256 version index chunks summaries .new)
    (hsorted : ((summary :: summaries).map PrefixManifest.pre).Pairwise (· < ·))
    (hfinish : d.finish sha256 = (summary.keys_digest, summary.object_count)) :
    Walk sha256 version index chunks (summary :: summaries) d := by
  rw [List.map_cons, List.pairwise_cons] at hsorted
  refine ⟨hwalk.numbered, hwalk.full, hwalk.ordered, fun c hc => List.mem_cons_of_mem _ (hwalk.listed c hc), fun s hs => ?_,
    forall_mem_head_tail.2 ⟨hwalk.first, hwalk.rest⟩⟩
  cases hs
  rw [keys_of_none (fun c hc => (hsorted.1 _ (hwalk.listed c hc)).ne'), reaches_nil]
  exact hfinish

theorem walk_later (hsorted : ((summary :: summaries).map PrefixManifest.pre).Pairwise (· < ·)) (h : summary.pre ≠ chunk.pre) :
    Walk sha256 version index (chunk :: chunks) (summary :: summaries) d ↔
      d.finish sha256 = (summary.keys_digest, summary.object_count) ∧ Walk sha256 version index (chunk :: chunks) summaries .new := by
  constructor
  · rintro ⟨hnumbered, hfull, hordered, hlisted, hfirst, hrest⟩
    rw [List.map_cons, List.pairwise_cons] at hsorted
    have hchunk : chunk.pre ∈ summaries.map PrefixManifest.pre := by
      rcases List.mem_cons.1 (hlisted chunk List.mem_cons_self) with heq | hmem
      · exact absurd heq.symm h
      · exact hmem
    have hpast : ∀ c ∈ chunk :: chunks, summary.pre < c.pre := by
      intro c hc
      rcases List.mem_cons.1 hc with rfl | hc
      · exact hsorted.1 _ hchunk
      · exact lt_of_lt_of_le (hsorted.1 _ hchunk) ((List.pairwise_cons.1 hordered).1 c hc)
    have hfirst := hfirst summary rfl
    rw [keys_of_none (fun c hc => (hpast c hc).ne'), reaches_nil] at hfirst
    obtain ⟨hhead, htail⟩ := forall_mem_head_tail.1 hrest
    refine ⟨hfirst, hnumbered, hfull, hordered, fun c hc => ?_, hhead, htail⟩
    rcases List.mem_cons.1 (hlisted c hc) with heq | hmem
    · exact absurd heq (hpast c hc).ne'
    · exact hmem
  · rintro ⟨hfinish, hwalk⟩
    exact hwalk.closed hsorted hfinish

theorem walk_end (index : Nat) : Walk sha256 version index [] (summary :: summaries) d ↔
    d.finish sha256 = (summary.keys_digest, summary.object_count) ∧
      ∀ s ∈ summaries, KeyStreamDigest.new.finish sha256 = (s.keys_digest, s.object_count) := by
  constructor
  · intro h
    exact ⟨reaches_nil.1 (h.first summary rfl), fun s hs => reaches_nil.1 (h.rest s hs)⟩
  · rintro ⟨hfirst, hrest⟩
    refine ⟨rfl, nofun, .nil, nofun, fun s hs => ?_, fun s hs => reaches_nil.2 (hrest s hs)⟩
    cases hs
    exact reaches_nil.2 hfirst

theorem forM_close_ok : summaries.forM (fun s => close sha256 s .new) = .ok () ↔
    ∀ s ∈ summaries, KeyStreamDigest.new.finish sha256 = (s.keys_digest, s.object_count) := by
  induction summaries with
  | nil => exact ⟨fun _ => nofun, fun _ => rfl⟩
  | cons s rest ih =>
    rw [List.forM_eq_forM, List.forM_cons, ok_bind_iff, List.forall_mem_cons, ← ih, ← close_ok]
    exact ⟨fun ⟨_, h⟩ => h, fun h => ⟨(), h⟩⟩

/-- The walk accepts exactly what is described. -/
theorem validate_chunks_ok (hsorted : (summaries.map PrefixManifest.pre).Pairwise (· < ·)) :
    validate_chunks sha256 version index chunks summaries d = .ok () ↔ Walk sha256 version index chunks summaries d := by
  induction chunks generalizing index summaries d with
  | nil =>
    cases summaries with
    | nil =>
      refine ⟨fun _ => ⟨rfl, nofun, .nil, nofun, nofun, nofun⟩, fun _ => ?_⟩
      rw [validate_chunks]
    | cons summary rest =>
      rw [validate_chunks, ok_bind_iff, walk_end, ← forM_close_ok, ← close_ok]
      exact ⟨fun ⟨_, h⟩ => h, fun h => ⟨(), h⟩⟩
  | cons chunk chunks ih =>
    -- the summaries before the chunk's are closed one by one
    induction summaries generalizing d with
    | nil =>
      rw [validate_chunks, skip_to]
      refine ⟨fun h => ?_, fun h => absurd (h.listed chunk List.mem_cons_self) List.not_mem_nil⟩
      cases (ok_guard_iff.1 h).2
    | cons summary rest ihs =>
      by_cases h : summary.pre = chunk.pre
      · rw [validate_here h, walk_here hsorted h]
        simp only [ih hsorted]
      · rw [validate_later h, walk_later hsorted h, ihs (List.pairwise_cons.1 hsorted).2, close_ok]

end

/-! ## What the digests bind -/

section
variable (sha256 : ByteArray → List UInt8) (m : StorageManifest) (streams : String → List String)

/-- The streams that were frozen: folded as the version has it they give the digests and counts of
the manifest, and every entry is under its prefix. -/
structure FrozenStreams : Prop where
  digest : ∀ s ∈ m.prefixes, ∃ d, stream_digest m.version (streams s.pre) = .ok d ∧
    d.finish sha256 = (s.keys_digest, s.object_count)
  under : ∀ s ∈ m.prefixes, ∀ entry ∈ streams s.pre, Under m.version s.pre entry

/-- The streams cut into chunks that do not span prefixes, numbered from 0 in prefix order. A chunk
number is an `i64`. -/
structure ChunksOf (chunks : List ManifestKeyChunk) : Prop where
  numbered : chunks.map ManifestKeyChunk.chunk_no = (List.range chunks.length).map (fun n : Nat => (n : Int))
  range : ∀ c ∈ chunks, c.chunk_no ≤ i64Max
  full : ∀ c ∈ chunks, c.keys ≠ []
  ordered : chunks.Pairwise (fun c c' => c.pre ≤ c'.pre)
  listed : ∀ c ∈ chunks, c.pre ∈ m.prefixes.map PrefixManifest.pre
  whole : ∀ s ∈ m.prefixes, keys_of s.pre chunks = streams s.pre

/-- No other keys under the prefix, as many and in order, have the same text. -/
def OneCut (pre : String) (keys : List String) : Prop :=
  ∀ keys' : List String, keys'.length = keys.length → keys'.Pairwise (· < ·) → (∀ key ∈ keys', pre.toList <+: key.toList) →
    stream_text keys' = stream_text keys → keys' = keys

end

/-- Without a line feed inside, entries can be cut apart in one way into as many. -/
theorem stream_text_inj {keys keys' : List String} (h : ∀ key ∈ keys, '\n' ∉ key.toList) (hlen : keys'.length = keys.length)
    (htext : stream_text keys' = stream_text keys) : keys' = keys := by
  have hwords := closed_words_inj (fun w hw => ?_) (by rw [List.length_map, List.length_map]; exact hlen) htext
  · exact List.map_injective_iff.2 (fun _ _ => String.toList_inj.1) hwords
  · obtain ⟨key, hkey, rfl⟩ := List.mem_map.1 hw
    exact h key hkey

theorem ascending_pairwise {l : List String} (h : ascending l = true) : l.Pairwise (· < ·) := by
  rw [← List.isChain_iff_pairwise]
  induction l with
  | nil => exact .nil
  | cons a l ih =>
    cases l with
    | nil => exact .singleton a
    | cons b rest =>
      rw [ascending, Bool.and_eq_true, decide_eq_true_eq] at h
      exact .cons_cons h.1 (ih h.2)

theorem validate_storage_manifest_ok {m : StorageManifest} (h : validate_storage_manifest m = .ok ()) :
    (m.version = 4 ∨ m.version = 5) ∧ (m.prefixes.map PrefixManifest.pre).Pairwise (· < ·) := by
  obtain ⟨hversion, h⟩ := ok_guard_iff.1 h
  obtain ⟨-, h⟩ := ok_guard_iff.1 h
  obtain ⟨hsorted, -⟩ := ok_guard_iff.1 h
  rw [Bool.not_eq_true', Bool.not_eq_false] at hsorted
  refine ⟨?_, ascending_pairwise hsorted⟩
  by_contra hneither
  exact hversion (not_or.1 hneither)

section
variable {sha256 : ByteArray → List UInt8} {m : StorageManifest} {streams : String → List String}

theorem finish_extend (keys : List String) : (KeyStreamDigest.new.extend keys).finish sha256 =
    (String.ofList (hex (sha256 (String.ofList (stream_text keys)).toByteArray)), keys.length) := by
  have hhashed : (KeyStreamDigest.new.extend keys).hashed = stream_text keys := extend_hashed _ _
  have hcount : (KeyStreamDigest.new.extend keys).count = keys.length := (extend_count _ _).trans (Nat.zero_add _)
  rw [KeyStreamDigest.finish, hhashed, hcount]

/-- From the start a summary is reached by what its stream could be. -/
theorem reaches_new {version : Int} {s : PrefixManifest} {keys : List String} : Reaches sha256 version s .new keys ↔
    (∀ key ∈ keys, Under version s.pre key) ∧ InOrder version keys ∧
      (KeyStreamDigest.new.extend keys).finish sha256 = (s.keys_digest, s.object_count) := by
  rw [Reaches]
  constructor
  · rintro ⟨d, hfold, hfinish⟩
    obtain ⟨hunder, horder, rfl⟩ := fold_keys_ok.1 hfold
    exact ⟨hunder, horder, hfinish⟩
  · rintro ⟨hunder, horder, hfinish⟩
    exact ⟨_, fold_keys_ok.2 ⟨hunder, horder, rfl⟩, hfinish⟩

theorem FrozenStreams.reaches (h : FrozenStreams sha256 m streams) {s : PrefixManifest} (hs : s ∈ m.prefixes) :
    Reaches sha256 m.version s .new (streams s.pre) := by
  obtain ⟨d, hd, hfinish⟩ := h.digest s hs
  obtain ⟨horder, rfl⟩ := stream_digest_ok.1 hd
  exact reaches_new.2 ⟨h.under s hs, horder, hfinish⟩

/-- Every prefix has its summary reached from the start. -/
theorem walk_iff (chunks : List ManifestKeyChunk) : Walk sha256 m.version 0 chunks m.prefixes .new ↔
    chunks.map ManifestKeyChunk.chunk_no = (List.range chunks.length).map (fun n : Nat => min (n : Int) i64Max) ∧
      (∀ c ∈ chunks, c.keys ≠ []) ∧ chunks.Pairwise (fun c c' => c.pre ≤ c'.pre) ∧
      (∀ c ∈ chunks, c.pre ∈ m.prefixes.map PrefixManifest.pre) ∧
      ∀ s ∈ m.prefixes, Reaches sha256 m.version s .new (keys_of s.pre chunks) := by
  rw [List.range_eq_range']
  constructor
  · rintro ⟨hnumbered, hfull, hordered, hlisted, hfirst, hrest⟩
    refine ⟨hnumbered, hfull, hordered, hlisted, fun s hs => ?_⟩
    cases hprefixes : m.prefixes with
    | nil =>
      rw [hprefixes] at hs
      cases hs
    | cons first rest =>
      rw [hprefixes] at hs hfirst hrest
      rcases List.mem_cons.1 hs with rfl | hs
      · exact hfirst s rfl
      · exact hrest s hs
  · rintro ⟨hnumbered, hfull, hordered, hlisted, hall⟩
    exact ⟨hnumbered, hfull, hordered, hlisted, fun s hs => hall s (List.mem_of_head? hs), fun s hs => hall s (List.mem_of_mem_tail hs)⟩

/-- Every such cut is accepted. -/
theorem validate_chunksOf (hm : validate_storage_manifest m = .ok ()) (hs : FrozenStreams sha256 m streams)
    {chunks : List ManifestKeyChunk} (h : ChunksOf m streams chunks) : validate_manifest_key_chunks sha256 m chunks = .ok () := by
  refine (validate_chunks_ok (validate_storage_manifest_ok hm).2).2 ((walk_iff chunks).2
    ⟨?_, h.full, h.ordered, h.listed, fun s hmem => ?_⟩)
  · have hno : chunks.map ManifestKeyChunk.chunk_no = (chunks.map ManifestKeyChunk.chunk_no).map (fun n => min n i64Max) := by
      rw [List.map_map]
      exact List.map_congr_left (fun c hc => (min_eq_left (h.range c hc)).symm)
    rw [hno, h.numbered, List.map_map]
    rfl
  · rw [h.whole s hmem]
    exact hs.reaches hmem

/-- Accepted chunks hash to what was frozen. -/
theorem text_of_reaches {s : PrefixManifest} {version : Int} {keys keys' : List String}
    (hfree : ∀ t : List Char, sha256 (String.ofList t).toByteArray = sha256 (String.ofList (stream_text keys)).toByteArray →
      t = stream_text keys)
    (h : Reaches sha256 version s .new keys) (h' : Reaches sha256 version s .new keys') :
    keys'.length = keys.length ∧ stream_text keys' = stream_text keys := by
  have hfinish := (reaches_new.1 h').2.2.trans (reaches_new.1 h).2.2.symm
  rw [finish_extend, finish_extend] at hfinish
  obtain ⟨hdigest, hcount⟩ := Prod.mk.inj hfinish
  exact ⟨hcount, hfree _ (hex_inj (String.ofList_inj.1 hdigest))⟩

/-- One chunk for each prefix that has entries. -/
def one_each (streams : String → List String) : Nat → List PrefixManifest → List ManifestKeyChunk
  | _, [] => []
  | index, s :: rest =>
    if streams s.pre = [] then one_each streams index rest
    else ⟨min index i64Max, s.pre, streams s.pre⟩ :: one_each streams (index + 1) rest

theorem walk_one_each {version : Int} {summaries : List PrefixManifest} (index : Nat)
    (hsorted : (summaries.map PrefixManifest.pre).Pairwise (· < ·))
    (hreach : ∀ s ∈ summaries, Reaches sha256 version s .new (streams s.pre)) :
    Walk sha256 version index (one_each streams index summaries) summaries .new ∧
      ∀ s ∈ summaries, keys_of s.pre (one_each streams index summaries) = streams s.pre := by
  induction summaries generalizing index with
  | nil => exact ⟨⟨rfl, nofun, .nil, nofun, nofun, nofun⟩, nofun⟩
  | cons s rest ih =>
    have hlater := List.pairwise_cons.1 hsorted
    obtain ⟨hs, hrest⟩ := List.forall_mem_cons.1 hreach
    by_cases hempty : streams s.pre = []
    · obtain ⟨hwalk, hkeys⟩ := ih index hlater.2 hrest
      rw [one_each, if_pos hempty]
      rw [hempty, reaches_nil] at hs
      refine ⟨hwalk.closed hsorted hs, List.forall_mem_cons.2 ⟨?_, hkeys⟩⟩
      rw [hempty]
      exact keys_of_none (fun c hc => (hlater.1 _ (hwalk.listed c hc)).ne')
    · obtain ⟨hwalk, hkeys⟩ := ih (index + 1) hlater.2 hrest
      obtain ⟨d, hd, hfinish⟩ := hs
      rw [one_each, if_neg hempty]
      refine ⟨(walk_here hsorted rfl).2 ⟨rfl, hempty, d, hd, hwalk.closed hsorted hfinish⟩, List.forall_mem_cons.2 ⟨?_, ?_⟩⟩
      · refine (keys_of_cons_self _ _).trans ?_
        rw [keys_of_none (fun c hc => (hlater.1 _ (hwalk.listed c hc)).ne'), List.append_nil]
      · intro r hr
        refine (keys_of_cons_ne ?_).trans (hkeys r hr)
        exact (hlater.1 _ (List.mem_map_of_mem hr)).ne

end

section
variable {sha256 : ByteArray → List UInt8} {m : StorageManifest} {streams : String → List String}

theorem distinct_pre (hm : validate_storage_manifest m = .ok ()) {s s' : PrefixManifest} (hs : s ∈ m.prefixes)
    (hs' : s' ∈ m.prefixes) (h : s.pre = s'.pre) : s = s' :=
  List.inj_on_of_nodup_map ((validate_storage_manifest_ok hm).2.imp (fun h => h.ne)) hs hs' h

/-- Another cut of one stream is accepted as well. -/
theorem accepts_cut (hm : validate_storage_manifest m = .ok ()) (hs : FrozenStreams sha256 m streams) (hversion : ¬ 5 ≤ m.version)
    {s : PrefixManifest} (hmem : s ∈ m.prefixes) {keys : List String} (hlen : keys.length = (streams s.pre).length)
    (horder : keys.Pairwise (· < ·)) (hunder : ∀ key ∈ keys, s.pre.toList <+: key.toList)
    (htext : stream_text keys = stream_text (streams s.pre)) :
    ∃ chunks, validate_manifest_key_chunks sha256 m chunks = .ok () ∧ keys_of s.pre chunks = keys := by
  have hreach : ∀ r ∈ m.prefixes, Reaches sha256 m.version r .new (if r.pre = s.pre then keys else streams r.pre) := by
    intro r hr
    by_cases hpre : r.pre = s.pre
    · obtain rfl := distinct_pre hm hr hmem hpre
      rw [if_pos rfl, reaches_new]
      refine ⟨fun key hkey => ?_, .inr horder, ?_⟩
      · rw [Under, if_neg hversion]
        exact hunder key hkey
      · rw [← (reaches_new.1 (hs.reaches hmem)).2.2, finish_extend, finish_extend, htext, hlen]
    · rw [if_neg hpre]
      exact hs.reaches hr
  obtain ⟨hwalk, hkeys⟩ := @walk_one_each sha256 (fun pre => if pre = s.pre then keys else streams pre) _ _ 0
    (validate_storage_manifest_ok hm).2 hreach
  refine ⟨_, (validate_chunks_ok (validate_storage_manifest_ok hm).2).2 hwalk, ?_⟩
  rw [hkeys s hmem, if_pos rfl]

/-- With a hash that does not collide on what was frozen, accepted chunks are the frozen streams
exactly when every entry is a version entry or the bare keys of each prefix can be cut in one way. -/
theorem frozen_digest_binds_iff (hm : validate_storage_manifest m = .ok ()) (hs : FrozenStreams sha256 m streams)
    (hfree : ∀ s ∈ m.prefixes, ∀ t : List Char, sha256 (String.ofList t).toByteArray =
      sha256 (String.ofList (stream_text (streams s.pre))).toByteArray → t = stream_text (streams s.pre)) :
    ((∀ chunks, validate_manifest_key_chunks sha256 m chunks = .ok () →
        (∀ c ∈ chunks, c.pre ∈ m.prefixes.map PrefixManifest.pre) ∧
          ∀ s ∈ m.prefixes, keys_of s.pre chunks = streams s.pre ∧ ∀ entry ∈ keys_of s.pre chunks, Under m.version s.pre entry) ∧
      (∀ chunks, ChunksOf m streams chunks → validate_manifest_key_chunks sha256 m chunks = .ok ()) ∧
      ∀ (e : StorageManifestEntry) (value : String), e.encode = .ok value → StorageManifestEntry.decode value = .ok e) ↔
    (m.version = 5 ∨ ∀ s ∈ m.prefixes, OneCut s.pre (streams s.pre)) := by
  have hsorted := (validate_storage_manifest_ok hm).2
  constructor
  · rintro ⟨hbinds, -⟩
    by_cases hversion : 5 ≤ m.version
    · rcases (validate_storage_manifest_ok hm).1 with h4 | h5
      · rw [h4] at hversion
        exact absurd hversion (by decide)
      · exact .inl h5
    · refine .inr fun s hmem keys hlen horder hunder htext => ?_
      obtain ⟨chunks, hok, hkeys⟩ := accepts_cut hm hs hversion hmem hlen horder hunder htext
      rw [← hkeys]
      exact ((hbinds chunks hok).2 s hmem).1
  · intro hcond
    refine ⟨fun chunks hok => ?_, fun chunks h => validate_chunksOf hm hs h, fun e value h => StorageManifestEntry.decode_ok.2 h⟩
    obtain ⟨-, -, -, hlisted, hall⟩ := (walk_iff chunks).1 ((validate_chunks_ok hsorted).1 hok)
    refine ⟨hlisted, fun s hmem => ?_⟩
    obtain ⟨hlen, htext⟩ := text_of_reaches (hfree s hmem) (hs.reaches hmem) (hall s hmem)
    obtain ⟨hunder, horder, -⟩ := reaches_new.1 (hall s hmem)
    refine ⟨?_, hunder⟩
    by_cases hversion : 5 ≤ m.version
    · refine stream_text_inj (fun entry hentry => ?_) hlen htext
      have hentry := hs.under s hmem entry hentry
      rw [Under, if_pos hversion] at hentry
      obtain ⟨e, hencode, -⟩ := hentry
      exact StorageManifestEntry.feed_notMem hencode
    · rcases hcond with h5 | hcut
      · rw [h5] at hversion
        exact absurd (le_refl _) hversion
      · refine hcut s hmem _ hlen (horder.resolve_left hversion) (fun key hkey => ?_) htext
        have hkey := hunder key hkey
        rw [Under, if_neg hversion] at hkey
        exact hkey

end

/-! ## A hash on one text -/

local instance text_decidable : DecidableEq ByteArray := ByteArray.instDecidableEq

/-- A hash that is SHA-256 on one text and nothing that occurs elsewhere. -/
def hash_on (text : List Char) (digest : List UInt8) (bytes : ByteArray) : List UInt8 :=
  if bytes = (String.ofList text).toByteArray then digest else List.replicate 32 0

theorem hash_on_free {text t : List Char} {digest : List UInt8} (hdigest : digest ≠ List.replicate 32 0)
    (h : hash_on text digest (String.ofList t).toByteArray = hash_on text digest (String.ofList text).toByteArray) : t = text := by
  rw [hash_on, hash_on, if_pos rfl] at h
  split at h
  · next hbytes => exact String.ofList_inj.1 (String.toByteArray_inj.1 hbytes)
  · exact absurd h.symm hdigest

/-- Two versions of a key. -/
def versions : List String := [⟨"_meta/c/1", "v2", "object"⟩, ⟨"_meta/c/1", "v1", "delete_marker"⟩].map
  (fun e : StorageManifestEntry => String.ofList e.text)

def versions_digest : List UInt8 :=
  [0xbf, 0xff, 0x1c, 0x0d, 0x62, 0x2b, 0x0c, 0xf0, 0x6a, 0x79, 0x63, 0xea, 0xa5, 0xfd, 0xb5, 0x79,
    0x73, 0x4d, 0xb2, 0xdf, 0x66, 0x92, 0xe5, 0xd5, 0x6e, 0x53, 0x78, 0x8a, 0xd1, 0x64, 0x0f, 0xfd]

def versions_manifest : StorageManifest :=
  ⟨5, [⟨"_meta/c/", 2, 9, "bfff1c0d622b0cf06a7963eaa5fdb579734db2df6692e5d56e53788ad1640ffd"⟩]⟩

theorem frozen_digest_binds_versions :
    (∀ chunks, validate_manifest_key_chunks (hash_on (stream_text versions) versions_digest) versions_manifest chunks = .ok () →
      keys_of "_meta/c/" chunks = versions) ∧
    validate_manifest_key_chunks (hash_on (stream_text versions) versions_digest) versions_manifest
      [⟨0, "_meta/c/", versions.take 1⟩, ⟨1, "_meta/c/", versions.drop 1⟩] = .ok () := by
  have hm : validate_storage_manifest versions_manifest = .ok () := by decide +kernel
  have hs : FrozenStreams (hash_on (stream_text versions) versions_digest) versions_manifest (fun _ => versions) := by
    refine ⟨List.forall_mem_singleton.2 ⟨_, stream_digest_ok.2 ⟨.inl (by decide), rfl⟩, ?_⟩, List.forall_mem_singleton.2 ?_⟩
    · rw [finish_extend]
      decide +kernel
    · refine List.forall_mem_cons.2 ⟨?_, List.forall_mem_singleton.2 ?_⟩
      · exact (if_pos (by decide)).mpr ⟨⟨"_meta/c/1", "v2", "object"⟩, by decide +kernel⟩
      · exact (if_pos (by decide)).mpr ⟨⟨"_meta/c/1", "v1", "delete_marker"⟩, by decide +kernel⟩
  have hbinds := (frozen_digest_binds_iff hm hs (fun s _ t h => hash_on_free (by decide) h)).2 (.inl rfl)
  refine ⟨fun chunks hok => ((hbinds.1 chunks hok).2 _ List.mem_cons_self).1, hbinds.2.1 _ ?_⟩
  exact ⟨by decide, by decide, by decide, by decide, by decide, List.forall_mem_singleton.2 (by decide)⟩

/-- Bare keys of which one has a line feed. -/
def odd_keys : List String := ["_meta/c/1\n_meta/c/2", "_meta/c/3"]

def odd_digest : List UInt8 :=
  [0x1b, 0xa5, 0x34, 0x57, 0x83, 0xde, 0x90, 0x9f, 0x9f, 0x5e, 0x96, 0xad, 0xec, 0x0e, 0x50, 0x6a,
    0x93, 0x95, 0x76, 0xeb, 0x4c, 0x7b, 0xd9, 0x77, 0xfa, 0x64, 0x98, 0x54, 0x43, 0xb9, 0x1f, 0xfd]

def odd_manifest : StorageManifest :=
  ⟨4, [⟨"_meta/c/", 2, 9, "1ba5345783de909f9f5e96adec0e506a939576eb4c7bd977fa64985443b91ffd"⟩]⟩

/-- Other keys under the prefix are accepted in their place. -/
theorem frozen_digest_aliases : validate_storage_manifest odd_manifest = .ok () ∧
    FrozenStreams (hash_on (stream_text odd_keys) odd_digest) odd_manifest (fun _ => odd_keys) ∧
    (∀ t, hash_on (stream_text odd_keys) odd_digest (String.ofList t).toByteArray =
      hash_on (stream_text odd_keys) odd_digest (String.ofList (stream_text odd_keys)).toByteArray → t = stream_text odd_keys) ∧
    ∃ chunks, validate_manifest_key_chunks (hash_on (stream_text odd_keys) odd_digest) odd_manifest chunks = .ok () ∧
      keys_of "_meta/c/" chunks = ["_meta/c/1", "_meta/c/2\n_meta/c/3"] ∧ keys_of "_meta/c/" chunks ≠ odd_keys := by
  have hfree : ∀ t, hash_on (stream_text odd_keys) odd_digest (String.ofList t).toByteArray =
      hash_on (stream_text odd_keys) odd_digest (String.ofList (stream_text odd_keys)).toByteArray → t = stream_text odd_keys :=
    fun t h => hash_on_free (by decide) h
  have hdigest : FrozenStreams (hash_on (stream_text odd_keys) odd_digest) odd_manifest (fun _ => odd_keys) := by
    refine ⟨List.forall_mem_singleton.2 ⟨_, stream_digest_ok.2 ⟨.inr (by decide +kernel), rfl⟩, ?_⟩,
      List.forall_mem_singleton.2 (List.forall_mem_cons.2 ⟨?_, List.forall_mem_singleton.2 ?_⟩)⟩
    · rw [finish_extend]
      decide +kernel
    · exact (if_neg (by decide)).mpr (by decide +kernel)
    · exact (if_neg (by decide)).mpr (by decide +kernel)
  exact ⟨by decide +kernel, hdigest, hfree, [⟨0, "_meta/c/", ["_meta/c/1", "_meta/c/2\n_meta/c/3"]⟩], by decide +kernel,
    by decide +kernel, by decide +kernel⟩

end Ambush.Deletion

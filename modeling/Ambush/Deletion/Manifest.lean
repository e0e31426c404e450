import Ambush.Deletion.Stages
/-!
# Storage manifests

What a community keeps in object storage: a summary for each of its prefixes, and the list
of entries in chunks that must hash to the summaries.
-/
open Lib

namespace Ambush.Deletion

/-! ## Entries -/

structure StorageManifestEntry where
  key : String
  version_id : String
  kind : String
  deriving DecidableEq

/-- The unit separator between the parts of an entry. -/
def separator : Char := '\x1f'

def validate_manifest_component (name value : String) : Except DbError Unit :=
  if value = "" ∨ '\n' ∈ value.toList ∨ separator ∈ value.toList then
    .error (.DeletionSafety ("storage manifest " ++ name ++ " is empty or contains a reserved delimiter"))
  else .ok ()

namespace StorageManifestEntry

def encode (e : StorageManifestEntry) : Except DbError String := do
  validate_manifest_component "key" e.key
  validate_manifest_component "version id" e.version_id
  validate_manifest_component "kind" e.kind
  if e.kind ≠ "object" ∧ e.kind ≠ "delete_marker" then
    throw (.DeletionSafety ("unsupported storage manifest entry kind " ++ e.kind))
  return String.ofList (e.key.toList ++ separator :: (e.version_id.toList ++ separator :: e.kind.toList))

def decode (value : String) : Except DbError StorageManifestEntry := do
  match value.toList.splitOn separator with
  | [] | [_] => throw (.DeletionSafety "storage manifest entry is missing version id")
  | [_, _] => throw (.DeletionSafety "storage manifest entry is missing kind")
  | [key, version_id, kind] =>
    let entry : StorageManifestEntry := ⟨String.ofList key, String.ofList version_id, String.ofList kind⟩
    let _ ← entry.encode
    return entry
  | _ => throw (.DeletionSafety "storage manifest entry has too many fields")

end StorageManifestEntry

/-! ## Digests -/

/-- The text hashed so far, the last entry and how many there were. -/
structure KeyStreamDigest where
  hashed : List Char
  last : Option String
  count : Nat

namespace KeyStreamDigest

def new : KeyStreamDigest := ⟨[], none, 0⟩

def fold_unordered (d : KeyStreamDigest) (key : String) : KeyStreamDigest :=
  ⟨d.hashed ++ key.toList ++ ['\n'], some key, d.count + 1⟩

def fold (d : KeyStreamDigest) (key : String) : Except DbError KeyStreamDigest :=
  if d.last.any (fun last => !decide (last < key)) then
    .error (.DeletionSafety ("storage key stream is not strictly ascending at " ++ key))
  else .ok (d.fold_unordered key)

def finish (sha256 : ByteArray → List UInt8) (d : KeyStreamDigest) : String × Nat :=
  (String.ofList (hex (sha256 (String.ofList d.hashed).toByteArray)), d.count)

end KeyStreamDigest

/-! ## Validation -/

/-- Every adjacent pair goes up. -/
def ascending : List String → Bool
  | a :: b :: rest => decide (a < b) && ascending (b :: rest)
  | _ => true

def is_digest (digest : String) : Bool :=
  digest.utf8ByteSize = 64 && digest.toList.all (fun c => c.isDigit || ('a' ≤ c && c ≤ 'f'))

def validate_prefix_manifest (p : PrefixManifest) : Except DbError Unit :=
  if p.pre = "" then .error (.DeletionSafety "storage manifest contains an empty prefix")
  else if !is_digest p.keys_digest then
    .error (.DeletionSafety ("storage manifest digest for " ++ p.pre ++ " is not lowercase hex sha-256"))
  else .ok ()

def validate_storage_manifest (m : StorageManifest) : Except DbError Unit := do
  if m.version ≠ 4 ∧ m.version ≠ 5 then
    throw (.DeletionSafety ("unsupported storage manifest version " ++ toString m.version))
  if m.prefixes = [] then throw (.DeletionSafety "storage manifest has no tenant prefixes")
  if !ascending (m.prefixes.map PrefixManifest.pre) then
    throw (.DeletionSafety "storage manifest prefixes are not strictly sorted")
  m.prefixes.forM validate_prefix_manifest

section
variable (sha256 : ByteArray → List UInt8)

/-- What was folded for a prefix is what its summary says. -/
def close (summary : PrefixManifest) (digest : KeyStreamDigest) : Except DbError Unit :=
  if digest.finish sha256 ≠ (summary.keys_digest, summary.object_count) then
    .error (.DeletionSafety ("frozen key chunks do not match the destructive manifest for prefix " ++ summary.pre))
  else .ok ()

/-- Closes the summaries before the one of the chunk's prefix, which becomes the current one. -/
def skip_to ( chunk_prefix : String) : List PrefixManifest → KeyStreamDigest → Except DbError (List PrefixManifest × KeyStreamDigest)
  | [], _ => .error (.DeletionSafety ("frozen key chunk prefix " ++ chunk_prefix ++ " is not in the destructive manifest"))
  | summary :: rest, digest =>
    if summary.pre = chunk_prefix then .ok (summary :: rest, digest)
    else do
      close sha256 summary digest
      skip_to chunk_prefix rest .new

/-- One entry of a chunk: under the chunk's prefix, and hashed. -/
def fold_key (version : Int) ( chunk_prefix : String) (digest : KeyStreamDigest) (key : String) : Except DbError KeyStreamDigest := do
  let prefix_key ← if 5 ≤ version then (·.key) <$> StorageManifestEntry.decode key else pure key
  if ! chunk_prefix.toList.isPrefixOf prefix_key.toList then
    throw (.DeletionSafety ("frozen key " ++ prefix_key ++ " is outside its chunk prefix " ++ chunk_prefix))
  if 5 ≤ version then return digest.fold_unordered key else digest.fold key

/-- The chunks from the `index`-th on, with the summaries not closed yet and the digest of the
first of them. -/
def validate_chunks (version : Int) : Nat → List ManifestKeyChunk → List PrefixManifest → KeyStreamDigest → Except DbError Unit
  | _, [], [], _ => .ok ()
  | _, [], summary :: rest, digest => do
    close sha256 summary digest
    rest.forM (fun summary => close sha256 summary .new)
  | index, chunk :: chunks, summaries, digest => do
    if chunk.chunk_no ≠ min (index : Int) i64Max then throw (.DeletionSafety "frozen key chunk sequence has gaps")
    let (summaries, digest) ← skip_to sha256 chunk.pre summaries digest
    if chunk.keys = [] then throw (.DeletionSafety "frozen key chunk is empty")
    let digest ← chunk.keys.foldlM (fold_key version chunk.pre) digest
    validate_chunks version (index + 1) chunks summaries digest

def validate_manifest_key_chunks (m : StorageManifest) (chunks : List ManifestKeyChunk) : Except DbError Unit :=
  validate_chunks sha256 m.version 0 chunks m.prefixes .new

end

end Ambush.Deletion

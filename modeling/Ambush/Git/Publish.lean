import Ambush.Git.Store
/-!
# Pushes

A push reads the pointer and the manifest it names, lets `receive-pack` change the workspace
hydrated from them, captures the new objects as packs and swaps the pointer from what it read
to the new manifest. What git does in the workspace is data of the push: it depends on nothing
that others do meanwhile.
-/
open Lib

namespace Ambush.Git
open Relay (CommunityId)

/-! ## Errors -/

inductive CasError where
  | Conflict (winner_manifest : Manifest) (winner_manifest_key : String)
  | ManifestReadFailed (message : String)
  | ManifestInvalid (e : ManifestError)
  | Backend (e : StoreError)
  | PackCapture (message : String)
  | ResourceLimit (message : String)
  deriving DecidableEq

inductive HydrateError where
  | InvalidPointer
  | Manifest (e : ManifestError)
  | Store (e : StoreError)
  | Hydrate (message : String)
  | ResourceLimit (message : String)
  deriving DecidableEq

/-! ## Texts -/

/-- `char::is_whitespace`. -/
def is_whitespace (c : Char) : Bool :=
  (0x09 ≤ c.toNat && c.toNat ≤ 0x0d) || c.toNat ∈ [0x20, 0x85, 0xa0, 0x1680, 0x2028, 0x2029, 0x202f, 0x205f, 0x3000] ||
    (0x2000 ≤ c.toNat && c.toNat ≤ 0x200a)

/-- `str::trim`. -/
def trim (s : String) : String :=
  String.ofList (((s.toList.dropWhile is_whitespace).reverse.dropWhile is_whitespace).reverse)

/-- `str::lines`: the text up to each line feed, a carriage return before it taken off. -/
def lines_from (line : List Char) : List Char → List (List Char)
  | [] => if line = [] then [] else [line.reverse]
  | c :: cs =>
    if c = '\n' then (if line.head? = some '\r' then (line.drop 1).reverse else line.reverse) :: lines_from [] cs
    else lines_from (c :: line) cs

def lines (s : String) : List (List Char) := lines_from [] s.toList

/-- `splitn(2, ' ')`, where there is a second part. -/
def split_space (line : List Char) : Option (List Char × List Char) :=
  if ' ' ∈ line then some (line.takeWhile (· ≠ ' '), (line.dropWhile (· ≠ ' ')).drop 1) else none

/-! ## What a push is given -/

structure PublishLimits where
  parent_hydrated_bytes : Nat
  max_pack_bytes : Nat
  max_repo_bytes : Nat

/-- A pack that compaction wrote, and its index unless that is missing. -/
structure PackFile where
  pack : Bytes
  idx : Option Bytes

/-- What git answers in the workspace after `receive-pack`: the listing of the refs, the symbolic
HEAD, the pack for positive and negative tips, the output of `count-objects`, the packs for
positive tips and a size limit, and the index of a pack. -/
structure Workspace where
  for_each_ref : Except CasError Bytes
  symbolic_ref : Except CasError (Option String)
  pack_objects : List String → List String → Except CasError Bytes
  count_objects : Except CasError String
  pack_files : List String → Nat → Except CasError (List PackFile)
  index_pack : Bytes → Except CasError Bytes

structure ParentState where
  if_match : Option String
  parent_digest : Option String
  parent : Manifest

def ParentState.fresh : ParentState := ⟨none, none, ⟨MANIFEST_VERSION, "", .new, [], none⟩⟩

def ParentState.from_loaded (etag digest : String) (parent : Manifest) : ParentState := ⟨some etag, some digest, parent⟩

structure CasSuccess where
  manifest : Manifest
  manifest_key : String

/-! ## The refs of the workspace -/

def MAX_REF_SNAPSHOT_BYTES : Nat := 4 * 1024 * 1024

/-- The loop over the lines of the listing. -/
def read_refs (refs : Refs) : List (List Char) → Except CasError Refs
  | [] => .ok refs
  | line :: rest =>
    match split_space line with
    | none => read_refs refs rest
    | some (name, oid) =>
      if (String.ofList oid).utf8ByteSize ≠ 40 || !oid.all is_ascii_hexdigit then read_refs refs rest
      else if MAX_MANIFEST_REFS ≤ refs.len && !refs.contains_key (String.ofList name) then
        .error (.ResourceLimit s!"workspace contains more than {MAX_MANIFEST_REFS} refs")
      else read_refs (refs.insert (String.ofList name) (String.ofList oid)) rest

def snapshot_workspace_state (ws : Workspace) : Except CasError (Refs × String) := do
  let refs_stdout ← ws.for_each_ref
  if MAX_REF_SNAPSHOT_BYTES < refs_stdout.size then
    throw (.ResourceLimit s!"ref snapshot is {refs_stdout.size} bytes (max {MAX_REF_SNAPSHOT_BYTES})")
  let refs ← read_refs .new (lines ((String.fromUTF8? refs_stdout).getD ""))
  let head ← ws.symbolic_ref
  return (refs, trim (head.getD ""))

def starts_with (start s : String) : Bool := start.toList.isPrefixOf s.toList

def is_published_branch (refs : Refs) (name : String) : Bool := starts_with "refs/heads/" name && refs.contains_key name

def resolve_published_head (refs : Refs) (observed_head parent_head : String) : String :=
  if is_published_branch refs observed_head then observed_head
  else if is_published_branch refs parent_head then parent_head
  else if refs.contains_key "refs/heads/main" then "refs/heads/main"
  else if refs.contains_key "refs/heads/master" then "refs/heads/master"
  else match refs.keys.find? (starts_with "refs/heads/") with
    | some branch => branch
    | none => if observed_head ≠ "" then observed_head else parent_head

/-! ## Packs -/

def capture_pack (ws : Workspace) (refs_before refs_after : Refs) (max_pack_bytes : Nat) :
    Except CasError (Option Bytes) := do
  if refs_after.values = [] then return none
  let pack ← ws.pack_objects refs_after.values refs_before.values
  if max_pack_bytes < pack.size then
    throw (.ResourceLimit s!"pack-objects output is {pack.size} bytes (max {max_pack_bytes})")
  return if pack.size = 0 then none else some pack

def should_compact (parent_pack_count threshold : Nat) : Bool := threshold ≤ parent_pack_count

def compacted_pack_set_is_usable (parent_pack_count compacted_pack_count : Nat) : Bool :=
  compacted_pack_count < parent_pack_count ||
    (MAX_MANIFEST_PACKS ≤ parent_pack_count && compacted_pack_count ≤ MAX_MANIFEST_PACKS)

def MAX_COUNT_OBJECTS_OUTPUT_BYTES : Nat := 64 * 1024
def MAX_COMPACTION_OBJECTS : Nat := 1000000

def parse_count (output name : String) : Except CasError Nat :=
  match ((lines output).findSome? (fun line => strip_prefix name (String.ofList line))).bind
    (fun value => parse_u64 (trim value).toList) with
  | some n => .ok n
  | none => .error (.PackCapture s!"count-objects omitted \"{name}\"")

def enforce_compaction_object_limit (ws : Workspace) : Except CasError Unit := do
  let output ← ws.count_objects
  if MAX_COUNT_OBJECTS_OUTPUT_BYTES < output.utf8ByteSize then
    throw (.ResourceLimit s!"count-objects output is {output.utf8ByteSize} bytes (max {MAX_COUNT_OBJECTS_OUTPUT_BYTES})")
  let loose ← parse_count output "count:"
  let packed ← parse_count output "in-pack:"
  match checkedAdd loose packed with
  | none => throw (.ResourceLimit "compaction object count overflowed u64")
  | some object_count =>
    if MAX_COMPACTION_OBJECTS < object_count then
      throw (.ResourceLimit s!"repository has {object_count} objects (compaction max {MAX_COMPACTION_OBJECTS})")

/-- The loop over the packs that were written, with the bytes so far. -/
def check_packs (limits : PublishLimits) (total_pack_bytes : Nat) : List PackFile → Except CasError Unit
  | [] => .ok ()
  | file :: rest => do
    if limits.max_pack_bytes < file.pack.size then
      throw (.ResourceLimit s!"compacted pack is {file.pack.size} bytes (max {limits.max_pack_bytes})")
    match checkedAdd total_pack_bytes file.pack.size with
    | none => throw (.ResourceLimit "compacted byte count overflowed u64")
    | some total_pack_bytes =>
      if limits.max_repo_bytes < total_pack_bytes then
        throw (.ResourceLimit s!"compacted repo needs {total_pack_bytes} bytes (max {limits.max_repo_bytes})")
      match file.idx with
      | none => throw (.PackCapture "stat compacted idx")
      | some idx =>
        if limits.max_pack_bytes < idx.size then
          throw (.ResourceLimit s!"compacted idx is {idx.size} bytes (max {limits.max_pack_bytes})")
        check_packs limits total_pack_bytes rest

/-- The tips without repetition, in the order they first come in. -/
def distinct (seen : List String) : List String → List String
  | [] => []
  | oid :: rest => if oid ∈ seen then distinct seen rest else oid :: distinct (oid :: seen) rest

def capture_compacted_packs (ws : Workspace) (refs_after : Refs) (limits : PublishLimits) :
    Except CasError (List PackFile) := do
  if refs_after.entries = [] then return []
  enforce_compaction_object_limit ws
  let packs ← ws.pack_files (distinct [] refs_after.values) limits.max_pack_bytes
  if MAX_MANIFEST_PACKS < packs.length then
    throw (.ResourceLimit s!"compaction produced {packs.length} packs (max {MAX_MANIFEST_PACKS})")
  check_packs limits 0 packs
  return packs

def digest_from_pack_key (key : String) : Except CasError String :=
  match ( strip_prefix "packs/" key).filter (fun digest => digest.utf8ByteSize = 64 && digest.toList.all is_ascii_hexdigit) with
  | some digest => .ok digest
  | none => .error (.Backend (.Backend (.HttpFailWithBody 500 ("put_pack returned non-standard key: " ++ key))))

section
variable (env : Env)

/-- One round of the upload. A failure to store the index is only logged. -/
def upload_compacted_pack (file : PackFile) : Calls CasError String := do
  let pack_key ← (put_pack env file.pack).mapError .Backend
  let pack_digest ← .done (digest_from_pack_key pack_key)
  match file.idx with
  | some idx =>
    let _ ← (put_idx pack_digest idx).attempt
    pure pack_key
  | none => pure pack_key

def upload_compacted_packs (packs : List PackFile) : Calls CasError (List String) := do
  let pack_keys ← Prog.forEach (upload_compacted_pack env) packs
  pure (dedup (sort pack_keys))

def prepare_compaction (ws : Workspace) (refs_after : Refs) (limits : PublishLimits) (packs_before : Nat) :
    Calls CasError (List String) := do
  let packs ← .done (capture_compacted_packs ws refs_after limits)
  if compacted_pack_set_is_usable packs_before packs.length then upload_compacted_packs env packs
  else .fail (.ResourceLimit s!"compaction did not reduce pack count (before {packs_before}, after {packs.length})")

/-! ## Publication -/

def compose_after (parent : Manifest) (parent_digest : Option String) (head : String) (refs : Refs)
    (new_pack_key : Option String) : Manifest :=
  let packs := match new_pack_key with
    | some k => if k ∈ parent.packs then parent.packs else parent.packs ++ [k]
    | none => parent.packs
  ⟨MANIFEST_VERSION, head, refs, dedup (sort packs), parent_digest⟩

def compose_compacted_after (parent_digest : Option String) (head : String) (refs : Refs)
    (compacted_pack_keys : List String) : Manifest :=
  ⟨MANIFEST_VERSION, head, refs, dedup (sort compacted_pack_keys), parent_digest⟩

/-- How compaction fares around git and the store: whether its permit comes in time, and after how
many requests its time is over. -/
structure Compaction where
  permit : Except CasError Unit
  requests : Nat
  sent : Bool

/-- The attempt at compaction: its pack keys, or the error that publication then goes on without. -/
def compact (c : Compaction) (ws : Workspace) (refs_after : Refs) (limits : PublishLimits) (packs_before : Nat) :
    Calls CasError (Except CasError (List String)) :=
  match c.permit with
  | .error e => pure (.error e)
  | .ok () => do
    match ← Prog.within c.sent c.requests (prepare_compaction env ws refs_after limits packs_before) with
    | some r => pure r
    | none => pure (.error (.PackCapture "pack compaction operation timed out after 600 seconds"))

/-- A failure to write the index is only logged. -/
def write_idx_sidecar (ws : Workspace) (pack_key : String) (pack_bytes : Bytes) : Calls CasError Unit := do
  let pack_digest ← .done (digest_from_pack_key pack_key)
  let idx_bytes ← .done (ws.index_pack pack_bytes)
  let _ ← (put_idx pack_digest idx_bytes).mapError .Backend
  pure ()

/-- The manifest of the normal path: the parent's packs and one with the new objects. -/
def publish_delta (parent_state : ParentState) (limits : PublishLimits) (ws : Workspace) (head : String)
    (refs_after : Refs) (compaction_failure : Option CasError) : Calls CasError Manifest := do
  let packs_before := parent_state.parent.packs.length
  match ← .done (capture_pack ws parent_state.parent.refs refs_after limits.max_pack_bytes) with
  | none => pure (compose_after parent_state.parent parent_state.parent_digest head refs_after none)
  | some bytes =>
    if MAX_MANIFEST_PACKS ≤ packs_before then
      .fail (compaction_failure.getD
        (.ResourceLimit s!"repository already names {packs_before} packs and compaction failed"))
    else
    match checkedAdd limits.parent_hydrated_bytes bytes.size with
    | none => .fail (.ResourceLimit "repo byte count overflowed u64")
    | some total_bytes =>
      if limits.max_repo_bytes < total_bytes then
        .fail (.ResourceLimit s!"repo would need {total_bytes} hydrated bytes (max {limits.max_repo_bytes})")
      else
        let pack_key ← (put_pack env bytes).mapError .Backend
        let _ ← (write_idx_sidecar ws pack_key bytes).attempt
        pure (compose_after parent_state.parent parent_state.parent_digest head refs_after (some pack_key))

/-- `m_after`. -/
def compose (c : Compaction) (threshold : Nat) (parent_state : ParentState) (limits : PublishLimits) (ws : Workspace)
    (head : String) (refs_after : Refs) : Calls CasError Manifest := do
  let packs_before := parent_state.parent.packs.length
  if should_compact packs_before threshold then
    match ← compact env c ws refs_after limits packs_before with
    | .ok pack_keys => pure (compose_compacted_after parent_state.parent_digest head refs_after pack_keys)
    | .error e => publish_delta env parent_state limits ws head refs_after (some e)
  else publish_delta env parent_state limits ws head refs_after none

def digest_from_manifest_key (key : String) : Except CasError String :=
  match strip_prefix "manifests/" key with
  | some digest => .ok digest
  | none => .error (.Backend (.Backend (.HttpFailWithBody 500 ("put_manifest returned non-standard key: " ++ key))))

/-- A digest as the pointer holds it. -/
def pointer_digest (body : Bytes) : Option String := (String.fromUTF8? body).map trim

def is_digest_text (digest : String) : Bool := digest.utf8ByteSize = 64 && digest.toList.all is_ascii_hexdigit

/-- How `read_winner_after_conflict` reports an error of the store. -/
def winner_error : StoreError → CasError
  | .DigestMismatch key expected actual => .ManifestReadFailed
      s!"winner manifest digest mismatch: digest mismatch on {key}: expected {expected}, got {actual}"
  | .NotFound key => .ManifestReadFailed s!"winner pointer names missing manifest: object not found: {key}"
  | e => .Backend e

def read_winner_after_conflict (pkey : String) : Calls CasError (Manifest × String) := do
  match ← (get_pointer pkey).mapError .Backend with
  | none => .fail (.ManifestReadFailed "pointer vanished after LostRace (no-delete rule violated)")
  | some (_, body) =>
    match pointer_digest body with
    | none => .fail (.ManifestReadFailed "winner pointer body not utf-8")
    | some digest =>
      if is_digest_text digest then
        let manifest_key := "manifests/" ++ digest
        let bytes ← (get_verified env manifest_key digest).mapError winner_error
        match Manifest.from_bytes bytes with
        | .ok winner => pure (winner, manifest_key)
        | .error _ => .fail (.ManifestReadFailed "parse winner manifest")
      else .fail (.ManifestReadFailed
        s!"winner pointer body is not a 64-char hex digest (got {digest.utf8ByteSize} chars)")

/-- From validation on: the manifest is stored and the pointer swapped. -/
def commit (pkey : String) (parent_state : ParentState) (m_after : Manifest) : Calls CasError CasSuccess := do
  let () ← .done (m_after.validate.mapError .ManifestInvalid)
  let manifest_key ← (put_manifest env m_after.canonical_bytes).mapError .Backend
  let manifest_digest ← .done (digest_from_manifest_key manifest_key)
  let precond := match parent_state.if_match with
    | some e => Precond.IfMatch e
    | none => .IfNoneMatchStar
  match ← (put_pointer pkey manifest_digest.toByteArray precond).mapError .Backend with
  | .Won _ => pure ⟨m_after, manifest_key⟩
  | .LostRace =>
    let (winner_manifest, winner_manifest_key) ← read_winner_after_conflict env pkey
    .fail (.Conflict winner_manifest winner_manifest_key)

def cas_publish_inner (pkey : String) (parent_state : ParentState) (limits : PublishLimits) (ws : Workspace)
    (c : Compaction) (threshold : Nat) : Calls CasError CasSuccess := do
  let (refs_after, head_observed) ← .done (snapshot_workspace_state ws)
  let head := resolve_published_head refs_after head_observed parent_state.parent.head
  let m_after ← compose env c threshold parent_state limits ws head refs_after
  commit env pkey parent_state m_after

def cas_publish (community : CommunityId) (owner repo : String) (parent_state : ParentState) (limits : PublishLimits)
    (ws : Workspace) (c : Compaction) : Calls CasError CasSuccess :=
  cas_publish_inner env (pointer_key community owner repo) parent_state limits ws c PACK_COMPACTION_THRESHOLD

/-! ## Hydration -/

def MAX_MANIFEST_BYTES : Nat := 4 * 1024 * 1024

/-- How `get_verified_limited` of the hydration reports an error of the store. -/
def hydrate_error : StoreError → HydrateError
  | .ObjectTooLarge key size max => .ResourceLimit s!"object {key} is {size} bytes (max {max})"
  | e => .Store e

def load_pointer (pkey : String) : Calls HydrateError (Option (String × String × Manifest)) := do
  match ← (get_pointer pkey).mapError .Store with
  | none => pure none
  | some (etag, pointer_bytes) =>
    match pointer_digest pointer_bytes with
    | none => .fail .InvalidPointer
    | some digest =>
      if is_digest_text digest then
        let manifest_bytes ←
          (get_verified_limited env ("manifests/" ++ digest) digest MAX_MANIFEST_BYTES).mapError hydrate_error
        let manifest ← .done ((Manifest.from_bytes manifest_bytes).mapError .Manifest)
        let () ← .done (manifest.validate.mapError .Manifest)
        pure (some (etag, digest, manifest))
      else .fail .InvalidPointer

/-- `init_bare` is the fresh repository, `materialize` the fetching and indexing of a manifest's
packs, which only reads: the bytes it hydrated. -/
def hydrate_for_write (pkey : String) (init_bare : Except HydrateError Unit)
    (materialize : Manifest → Except HydrateError Nat) : Calls HydrateError (Nat × ParentState) := do
  match ← load_pointer env pkey with
  | some (etag, digest, manifest) =>
    let hydrated_bytes ← .done (materialize manifest)
    pure (hydrated_bytes, .from_loaded etag digest manifest)
  | none =>
    let () ← .done init_bare
    pure (0, .fresh)

/-! ## Announcements -/

def DEFAULT_HEAD : String := "refs/heads/main"

/-- The manifest a new repository starts with. -/
def empty_manifest : Manifest := ⟨MANIFEST_VERSION, DEFAULT_HEAD, .new, [], none⟩

/-- The text of an error that is passed on is left out. -/
def seed_manifest_pointer (pkey owner_hex repo_id : String) : Calls String Unit := do
  let () ← .done (empty_manifest.validate.mapError (fun _ => "empty manifest failed validation"))
  let manifest_key ← (put_manifest env empty_manifest.canonical_bytes).mapError (fun _ => "put_manifest")
  match strip_prefix "manifests/" manifest_key with
  | none => .fail ("put_manifest returned non-standard key: " ++ manifest_key)
  | some digest =>
    match ← (put_pointer pkey digest.toByteArray .IfNoneMatchStar).mapError (fun _ => "put_pointer") with
    | .Won _ => pure ()
    | .LostRace =>
      match ← (get_pointer pkey).mapError (fun _ => "re-read pointer after LostRace") with
      | none => .fail "pointer vanished after LostRace race"
      | some (_, body) =>
        match pointer_digest body with
        | none => .fail "pointer body not utf-8"
        | some existing =>
          if existing ≠ digest then
            .fail s!"repo '{repo_id}' for owner {owner_hex} already has a non-empty pointer ({existing}); refusing to overwrite via announce"
          else pure ()

def ensure_manifest_pointer (pkey owner_hex repo_id : String) : Calls String Unit := do
  match ← (get_pointer pkey).mapError (fun _ => "get_pointer") with
  | some _ => pure ()
  | none => seed_manifest_pointer env pkey owner_hex repo_id

/-! ## A push from its beginning to its end -/

inductive PushError where
  | Hydrate (e : HydrateError)
  | Declined
  | Publish (e : CasError)
  | Announce (message : String)

/-- A push: what the client sends and what the machine it runs on does, for whatever parent it is
hydrated from. `receive_pack` is the workspace it leaves, unless it fails or the hook declines. -/
structure Push where
  init_bare : Except HydrateError Unit
  materialize : Manifest → Except HydrateError Nat
  receive_pack : ParentState → Option Workspace
  max_pack_bytes : Nat
  max_repo_bytes : Nat
  compaction : Compaction

def receive_pack (community : CommunityId) (owner repo : String) (p : Push) : Calls PushError CasSuccess := do
  let (hydrated_bytes, parent_state) ←
    (hydrate_for_write env (pointer_key community owner repo) p.init_bare p.materialize).mapError .Hydrate
  match p.receive_pack parent_state with
  | none => .fail .Declined
  | some ws =>
    (cas_publish env community owner repo parent_state ⟨hydrated_bytes, p.max_pack_bytes, p.max_repo_bytes⟩ ws
      p.compaction).mapError .Publish

/-- Who writes to a repository's pointer: pushes, the announcement of the repository, and its
repetition by the owner. -/
inductive Client where
  | push (p : Push)
  | announce
  | reannounce

def Client.run (community : CommunityId) (owner repo : String) : Client → Calls PushError (Option CasSuccess)
  | .push p => do return some (← receive_pack env community owner repo p)
  | .announce => do
    let () ← (seed_manifest_pointer env (pointer_key community owner repo) owner repo).mapError .Announce
    return none
  | .reannounce => do
    let () ← (ensure_manifest_pointer env (pointer_key community owner repo) owner repo).mapError .Announce
    return none

end
end Ambush.Git

import Ambush.Core.Json
import Ambush.Core.Canonical
import Ambush.Relay.Filters
import Ambush.Lib.Tables
import Ambush.Lib.Sets
/-!
# Manifests

The published state of a repository: its refs, its head, the packs that cover them and the
digest of the manifest it supersedes. The bytes are the text `serde_json` writes, with the
fields in the order of the struct.
-/
open Lib

namespace Ambush.Git
open Relay (CommunityId)

abbrev Bytes := ByteArray

def MANIFEST_VERSION : Nat := 1
def MAX_MANIFEST_PACKS : Nat := 128
def PACK_COMPACTION_THRESHOLD : Nat := MAX_MANIFEST_PACKS * 3 / 4
def MAX_MANIFEST_REFS : Nat := 10000

/-! ## Refs -/

/-- A `BTreeMap<String, String>`: its entries in key order. -/
structure Refs where
  entries : List (String × String)
  sorted : Sorted entries
  deriving DecidableEq

namespace Refs

def new : Refs := ⟨[], .nil⟩

def insert (r : Refs) (name oid : String) : Refs :=
  ⟨upsert name oid (fun _ => oid) r.entries, sorted_upsert r.sorted⟩

def contains_key (r : Refs) (name : String) : Bool := (lookup name r.entries).isSome

def keys (r : Refs) : List String := r.entries.map Prod.fst

def values (r : Refs) : List String := r.entries.map Prod.snd

def len (r : Refs) : Nat := r.entries.length

/-- The map filled entry by entry. -/
def collect (entries : List (String × String)) : Refs := entries.foldl (fun r e => r.insert e.1 e.2) new

end Refs

structure Manifest where
  version : Nat
  head : String
  refs : Refs
  packs : List String
  parent : Option String
  deriving DecidableEq

/-- The text of a `serde_json` error is left out. -/
inductive ManifestError where
  | Serde
  | UnsupportedVersion (got expected : Nat)
  | UnsafeRefName (name : String)
  | MalformedOid (refname oid : String)
  | EmptyHead
  | MalformedParent (parent : String)
  | TooManyPacks (got max : Nat)
  | TooManyRefs (got max : Nat)
  | MalformedPackKey (key : String)
  deriving DecidableEq

/-! ## Names, object ids and keys -/

/-- `str::contains` of two characters in a row. -/
def contains_pair (a b : Char) : List Char → Bool
  | c :: d :: l => (c == a && d == b) || contains_pair a b (d :: l)
  | _ => false

def is_ref_char (c : Char) : Bool := c.isAlphanum || c == '/' || c == '_' || c == '.' || c == '-'

def is_safe_refname (s : String) : Bool :=
  "refs/".toList.isPrefixOf s.toList && !contains_pair '.' '.' s.toList && !contains_pair '/' '/' s.toList &&
    s.toList.head? != some '/' && s.toList.getLast? != some '/' && s.toList.all is_ref_char

def is_ascii_hexdigit (c : Char) : Bool := c.isDigit || ('a' ≤ c && c ≤ 'f') || ('A' ≤ c && c ≤ 'F')

def is_hex_oid (s : String) : Bool :=
  (s.utf8ByteSize == 40 || s.utf8ByteSize == 64) && s.toList.all is_ascii_hexdigit

def is_manifest_digest (s : String) : Bool :=
  s.utf8ByteSize == 64 && s.toList.all (fun c => c.isDigit || ('a' ≤ c && c ≤ 'f'))

/-- `str::strip_prefix`. -/
def strip_prefix (start s : String) : Option String :=
  if start.toList.isPrefixOf s.toList then some (String.ofList (s.toList.drop start.toList.length)) else none

def is_pack_key (s : String) : Bool := ( strip_prefix "packs/" s).any is_manifest_digest

/-- `str::strip_suffix`. -/
def strip_suffix (ending s : String) : Option String :=
  if ending.toList.isSuffixOf s.toList then some (String.ofList (s.toList.take (s.toList.length - ending.toList.length)))
  else none

def pointer_key (community : CommunityId) (owner repo : String) : String :=
  "repos/" ++ community.to_string ++ "/" ++ owner ++ "/" ++ (strip_suffix ".git" repo).getD repo ++ "/pointer"

/-! ## Validation -/

namespace Manifest

/-- The loop over the refs. -/
def validate_refs : List (String × String) → Except ManifestError Unit
  | [] => .ok ()
  | (refname, oid) :: rest =>
    if !is_safe_refname refname then .error (.UnsafeRefName refname)
    else if !is_hex_oid oid then .error (.MalformedOid refname oid)
    else validate_refs rest

/-- The loop over the packs. -/
def validate_packs : List String → Except ManifestError Unit
  | [] => .ok ()
  | pack :: rest => if !is_pack_key pack then .error (.MalformedPackKey pack) else validate_packs rest

def validate_parent : Option String → Except ManifestError Unit
  | none => .ok ()
  | some p => if !is_manifest_digest p then .error (.MalformedParent p) else .ok ()

def validate (m : Manifest) : Except ManifestError Unit := do
  if MAX_MANIFEST_PACKS < m.packs.length then throw (.TooManyPacks m.packs.length MAX_MANIFEST_PACKS)
  if MAX_MANIFEST_REFS < m.refs.len then throw (.TooManyRefs m.refs.len MAX_MANIFEST_REFS)
  if m.head = "" then throw .EmptyHead
  if !is_safe_refname m.head then throw (.UnsafeRefName m.head)
  validate_refs m.refs.entries
  validate_packs m.packs
  validate_parent m.parent

/-! ## Bytes -/

end Manifest

/-- `serde_json`'s table of escapes. -/
def format_escaped_char (c : Char) : List Char :=
  if c = '"' then ['\\', '"']
  else if c = '\\' then ['\\', '\\']
  else if c = '\x08' then ['\\', 'b']
  else if c = '\x0c' then ['\\', 'f']
  else if c = '\n' then ['\\', 'n']
  else if c = '\r' then ['\\', 'r']
  else if c = '\t' then ['\\', 't']
  else if c.toNat < 0x20 then '\\' :: 'u' :: (Canonical.hex4 c.toNat).toList
  else [c]

def write_str (s : String) : List Char := '"' :: (s.toList.flatMap format_escaped_char ++ ['"'])

def write_map (entries : List (String × String)) : List Char :=
  '\x7b' :: ([','].intercalate (entries.map (fun e => write_str e.1 ++ ':' :: write_str e.2)) ++ ['\x7d'])

def write_seq (items : List String) : List Char := '[' :: ([','].intercalate (items.map write_str) ++ [']'])

def write_option : Option String → List Char
  | none => ['n', 'u', 'l', 'l']
  | some s => write_str s

/-- A field of a struct with its name. -/
def write_field (name : String) (value : List Char) : List Char := write_str name ++ ':' :: value

namespace Manifest

/-- `serde_json::to_vec`, as text. -/
def to_text (m : Manifest) : List Char :=
  '\x7b' :: ([','].intercalate [write_field "version" (toString m.version).toList, write_field "head" (write_str m.head),
    write_field "refs" (write_map m.refs.entries), write_field "packs" (write_seq m.packs),
    write_field "parent" (write_option m.parent)] ++ ['\x7d'])

def canonical_bytes (m : Manifest) : Bytes :=
  (String.ofList ({ m with packs := dedup (sort m.packs) } : Manifest).to_text).toByteArray

end Manifest

/-! ## Reading -/

section
open Json

def read_str (cs : List Char) : Option (String × List Char) :=
  match skip_ws cs with
  | '"' :: rest => parse_str rest
  | _ => none

/-- A `u32`; a fraction or an exponent is an error. -/
def read_u32 (cs : List Char) : Option (Nat × List Char) :=
  match parse_number (fun _ => none) (skip_ws cs) with
  | some (.integer n, rest) => if 0 ≤ n ∧ n < 4294967296 then some (n.toNat, rest) else none
  | _ => none

def read_option (cs : List Char) : Option (Option String × List Char) :=
  match skip_ws cs with
  | 'n' :: rest => (parse_ident ['u', 'l', 'l'] .null rest).map (fun p => (none, p.2))
  | cs => (read_str cs).map (fun p => (some p.1, p.2))

/-- A colon, which stands after a key. -/
def read_colon (cs : List Char) : Option (List Char) :=
  match skip_ws cs with
  | ':' :: rest => some rest
  | _ => none

def read_pairs : Nat → List Char → Option (List (String × String) × List Char)
  | 0, _ => none
  | fuel + 1, cs => do
    let (key, cs) ← read_str cs
    let cs ← read_colon cs
    let (value, cs) ← read_str cs
    parse_more '\x7d' (read_pairs fuel) (key, value) cs

def read_map (cs : List Char) : Option (Refs × List Char) :=
  match skip_ws cs with
  | '\x7b' :: rest =>
    if (skip_ws rest).head? = some '\x7d' then some (.new, (skip_ws rest).drop 1)
    else (read_pairs rest.length rest).map (fun p => (Refs.collect p.1, p.2))
  | _ => none

def read_items : Nat → List Char → Option (List String × List Char)
  | 0, _ => none
  | fuel + 1, cs => do
    let (item, cs) ← read_str cs
    parse_more ']' (read_items fuel) item cs

def read_seq (cs : List Char) : Option (List String × List Char) :=
  match skip_ws cs with
  | '[' :: rest =>
    if (skip_ws rest).head? = some ']' then some ([], (skip_ws rest).drop 1) else read_items rest.length rest
  | _ => none

/-- A field of the manifest as it stands in the text. -/
inductive Field where
  | version (n : Nat)
  | head (s : String)
  | refs (r : Refs)
  | packs (l : List String)
  | parent (p : Option String)
  | ignored

/-- The value of a field; that of an unknown one is skipped, within `serde_json`'s nesting. -/
def read_value (key : String) (cs : List Char) : Option (Field × List Char) :=
  if key = "version" then (read_u32 cs).map (fun p => (.version p.1, p.2))
  else if key = "head" then (read_str cs).map (fun p => (.head p.1, p.2))
  else if key = "refs" then (read_map cs).map (fun p => (.refs p.1, p.2))
  else if key = "packs" then (read_seq cs).map (fun p => (.packs p.1, p.2))
  else if key = "parent" then (read_option cs).map (fun p => (.parent p.1, p.2))
  else (parse_value (fun _ => some 0) (2 * cs.length) 126 cs).map (fun p => (.ignored, p.2))

def read_fields : Nat → List Char → Option (List Field × List Char)
  | 0, _ => none
  | fuel + 1, cs => do
    let (key, cs) ← read_str cs
    let cs ← read_colon cs
    let (field, cs) ← read_value key cs
    parse_more '\x7d' (read_fields fuel) field cs
end

/-- The one value among the fields; a missing or a repeated one is an error. -/
def exactly_one {α : Type} : List α → Option α
  | [a] => some a
  | _ => none

/-- As `exactly_one`, for a field that may be missing. -/
def at_most_one {α : Type} : List (Option α) → Option (Option α)
  | [] => some none
  | [a] => some a
  | _ => none

namespace Field

def version? : Field → Option Nat
  | .version n => some n
  | _ => none

def head? : Field → Option String
  | .head s => some s
  | _ => none

def refs? : Field → Option Refs
  | .refs r => some r
  | _ => none

def packs? : Field → Option (List String)
  | .packs l => some l
  | _ => none

def parent? : Field → Option (Option String)
  | .parent p => some p
  | _ => none

end Field

namespace Manifest

/-- The struct from its fields. -/
def of_fields (fields : List Field) : Option Manifest := do
  let version ← exactly_one (fields.filterMap Field.version?)
  let head ← exactly_one (fields.filterMap Field.head?)
  let refs ← exactly_one (fields.filterMap Field.refs?)
  let packs ← exactly_one (fields.filterMap Field.packs?)
  let parent ← at_most_one (fields.filterMap Field.parent?)
  some ⟨version, head, refs, packs, parent⟩

/-- `serde_json::from_slice`. The form as an array, which `serde` reads too, is left out. -/
def from_slice (bytes : Bytes) : Option Manifest := do
  let text ← String.fromUTF8? bytes
  match Json.skip_ws text.toList with
  | '\x7b' :: rest =>
    let (fields, rest) ← read_fields rest.length rest
    if Json.skip_ws rest = [] then of_fields fields else none
  | _ => none

def from_bytes (bytes : Bytes) : Except ManifestError Manifest := do
  let m ← match from_slice bytes with
    | some m => .ok m
    | none => .error .Serde
  if m.version ≠ MANIFEST_VERSION then throw (.UnsupportedVersion m.version MANIFEST_VERSION)
  .ok m

end Manifest
end Ambush.Git

import Ambush.Lib.Programs
import Ambush.Lib.Texts
import Ambush.Lib.Ints
import Ambush.Git.Manifest
/-!
# The object store

A bucket keeps, under each key, the accepted writes with who made them; the object is the
last. A request is one atomic step, and its answer may be lost or be an error that does not
tell whether the write was made. Over the requests stand the functions of the store client,
as programs.
-/
open Lib

namespace Ambush.Git

/-! ## Requests and answers -/

inductive S3Error where
  | HttpFailWithBody (status : Nat) (body : String)
  | Other (message : String)
  deriving DecidableEq

/-- The condition a write is sent with. -/
inductive Precond where
  | IfNoneMatchStar
  | IfMatch (etag : String)
  deriving DecidableEq

inductive S3Op where
  | get_object (key : String)
  | head_object (key : String)
  | put_object (key : String) (body : Bytes) (precond : Precond)

structure GetResponse where
  etag : Option String
  body : Bytes

structure HeadResponse where
  content_length : Option Int
  status : Nat

structure PutResponse where
  status : Nat
  etag : Option String

def S3Op.Ans : S3Op → Type
  | .get_object _ => Except S3Error GetResponse
  | .head_object _ => Except S3Error HeadResponse
  | .put_object _ _ _ => Except S3Error PutResponse

/-! ## The bucket -/

/-- SHA-256 as the client computes it and the ETag as the server does: both are functions of
the bytes. -/
structure Env where
  sha256 : Bytes → List UInt8
  sha256_size : ∀ b, (sha256 b).length = 32
  etag : Bytes → String

/-- The accepted writes under each key, oldest first, with their writers; and the body of every
write that was sent. -/
structure Bucket where
  history : String → List (Nat × Bytes)
  sent : List Bytes

namespace Bucket

def empty : Bucket := ⟨fun _ => [], []⟩

def object (b : Bucket) (key : String) : Option Bytes := (b.history key).getLast?.map Prod.snd

def send (b : Bucket) (body : Bytes) : Bucket := { b with sent := b.sent ++ [body] }

def write (b : Bucket) (writer : Nat) (key : String) (body : Bytes) : Bucket :=
  { b with history := Function.update b.history key (b.history key ++ [(writer, body)]) }

end Bucket

/-- Whether the object under the key meets the condition. -/
def Precond.met (env : Env) : Precond → Option Bytes → Prop
  | .IfNoneMatchStar, object => object = none
  | .IfMatch tag, object => ∃ body, object = some body ∧ env.etag body = tag

def S3Error.is_status (n : Nat) : S3Error → Prop
  | .HttpFailWithBody status _ => status = n
  | .Other _ => False

def is_2xx (status : Nat) : Bool := 200 ≤ status && status < 300

/-- What a read answers. -/
inductive GetAnswer (env : Env) (b : Bucket) (key : String) : Except S3Error GetResponse → Prop
  | found {body : Bytes} {tag : Option String} (h : b.object key = some body)
      (htag : tag = some (env.etag body) ∨ tag = none) : GetAnswer env b key (.ok ⟨tag, body⟩)
  | missing {text : String} (h : b.object key = none) : GetAnswer env b key (.error (.HttpFailWithBody 404 text))
  | failed {e : S3Error} (h : ¬ e.is_status 404) : GetAnswer env b key (.error e)

inductive HeadAnswer (b : Bucket) (key : String) : Except S3Error HeadResponse → Prop
  | found {body : Bytes} {length : Option Int} {status : Nat} (h : b.object key = some body)
      (hlength : length = some (body.size : Int) ∨ length = none) : HeadAnswer b key (.ok ⟨length, status⟩)
  | missing (h : b.object key = none) : HeadAnswer b key (.ok ⟨none, 404⟩)
  | failed {e : S3Error} : HeadAnswer b key (.error e)

/-- A write is accepted only while its condition is met, and 412 tells that it was not met. Any
other answer that is no success leaves open whether the write was made. -/
inductive PutAnswer (env : Env) (writer : Nat) (b : Bucket) (key : String) (body : Bytes) (precond : Precond) :
    Except S3Error PutResponse → Bucket → Prop
  | accepted {r : PutResponse} (hmet : precond.met env (b.object key)) :
      PutAnswer env writer b key body precond (.ok r) ((b.send body).write writer key body)
  | refused {e : S3Error} (h : e.is_status 412 → ¬ precond.met env (b.object key)) :
      PutAnswer env writer b key body precond (.error e) (b.send body)
  | unexpected {r : PutResponse} (h : is_2xx r.status = false) :
      PutAnswer env writer b key body precond (.ok r) (b.send body)
  | unclear {e : S3Error} (hmet : precond.met env (b.object key)) (h : ¬ e.is_status 412) :
      PutAnswer env writer b key body precond (.error e) ((b.send body).write writer key body)

/-- The steps of the bucket for one client. -/
def answers (env : Env) (client : Nat) (b : Bucket) : (op : S3Op) → op.Ans → Bucket → Prop
  | .get_object key, x, t => GetAnswer env b key x ∧ t = b
  | .head_object key, x, t => HeadAnswer b key x ∧ t = b
  | .put_object key body precond, x, t => PutAnswer env client b key body precond x t

/-! ## The client -/

inductive StoreError where
  | NotFound (key : String)
  | ObjectTooLarge (key : String) (size max : Nat)
  | DigestMismatch (key expected actual : String)
  | Backend (e : S3Error)
  deriving DecidableEq

inductive CasOutcome where
  | Won (etag : String)
  | LostRace

abbrev Calls (E α : Type) := Prog S3Op S3Op.Ans E α

section
variable (env : Env)

/-- `hex::encode` of the SHA-256. -/
def sha256_hex (bytes : Bytes) : String := String.ofList (hex (env.sha256 bytes))

def content_key (folder : String) (bytes : Bytes) : String := folder ++ "/" ++ sha256_hex env bytes

/-- What `put_immutable` makes of an answer. -/
def classify_put (key : String) : Except S3Error PutResponse → Except StoreError String
  | .ok r => if is_2xx r.status then .ok key else .error (.Backend (.HttpFailWithBody r.status "unexpected status"))
  | .error (.HttpFailWithBody 412 _) => .ok key
  | .error e => .error (.Backend e)

def put_immutable (folder : String) (bytes : Bytes) : Calls StoreError String :=
  .call (.put_object (content_key env folder bytes) bytes .IfNoneMatchStar)
    (fun x => .done (classify_put (content_key env folder bytes) x))

def put_pack (bytes : Bytes) : Calls StoreError String := put_immutable env "packs" bytes

/-- `idx_key_for_pack_digest` is checked by the callers, which have the digest from a pack's key. -/
def put_idx (pack_digest : String) (idx_bytes : Bytes) : Calls StoreError String :=
  .call (.put_object ("idx/" ++ pack_digest) idx_bytes .IfNoneMatchStar)
    (fun x => .done (classify_put ("idx/" ++ pack_digest) x))

def put_manifest (bytes : Bytes) : Calls StoreError String := put_immutable env "manifests" bytes

/-- What `get` makes of an answer. -/
def classify_get (key : String) : Except S3Error GetResponse → Except StoreError Bytes
  | .ok r => .ok r.body
  | .error (.HttpFailWithBody 404 _) => .error (.NotFound key)
  | .error e => .error (.Backend e)

def get (key : String) : Calls StoreError Bytes := .call (.get_object key) (fun x => .done (classify_get key x))

def get_verified (key expected_digest : String) : Calls StoreError Bytes := do
  let bytes ← get key
  if sha256_hex env bytes ≠ expected_digest then .fail (.DigestMismatch key expected_digest (sha256_hex env bytes))
  else pure bytes

/-- `u64::try_from(length).unwrap_or(u64::MAX)`. -/
def content_size (length : Int) : Nat := if 0 ≤ length then length.toNat else u64Max

/-- What `get_limited` makes of the answer to its HEAD request. -/
def check_head (key : String) (max_bytes : Nat) : Except S3Error HeadResponse → Except StoreError Unit
  | .error (.HttpFailWithBody 404 _) => .error (.NotFound key)
  | .error e => .error (.Backend e)
  | .ok r =>
    if r.status = 404 then .error (.NotFound key)
    else if !is_2xx r.status then .error (.Backend (.HttpFailWithBody r.status "unexpected status"))
    else match r.content_length with
      | some length =>
        if max_bytes < content_size length then .error (.ObjectTooLarge key (content_size length) max_bytes) else .ok ()
      | none => .ok ()

def get_limited (key : String) (max_bytes : Nat) : Calls StoreError Bytes := do
  let () ← .call (.head_object key) (fun x => .done (check_head key max_bytes x))
  let bytes ← get key
  if max_bytes < bytes.size then .fail (.ObjectTooLarge key bytes.size max_bytes) else pure bytes

def get_verified_limited (key expected_digest : String) (max_bytes : Nat) : Calls StoreError Bytes := do
  let bytes ← get_limited key max_bytes
  if sha256_hex env bytes ≠ expected_digest then .fail (.DigestMismatch key expected_digest (sha256_hex env bytes))
  else pure bytes

/-- What `get_pointer` makes of an answer. -/
def classify_pointer : Except S3Error GetResponse → Except StoreError (Option (String × Bytes))
  | .ok r => match r.etag with
    | some tag => .ok (some (tag, r.body))
    | none => .error (.Backend (.HttpFailWithBody 500 "GET pointer: response missing ETag"))
  | .error (.HttpFailWithBody 404 _) => .ok none
  | .error e => .error (.Backend e)

def get_pointer (key : String) : Calls StoreError (Option (String × Bytes)) :=
  .call (.get_object key) (fun x => .done (classify_pointer x))

def classify_cas : Except S3Error PutResponse → Except StoreError CasOutcome
  | .ok r =>
    if is_2xx r.status then
      match r.etag with
      | some tag => .ok (.Won tag)
      | none => .error (.Backend (.HttpFailWithBody r.status
          "CAS succeeded but response missing ETag header (backend does not satisfy ETag-token consistency)"))
    else .error (.Backend (.HttpFailWithBody r.status "unexpected status"))
  | .error (.HttpFailWithBody 412 _) => .ok .LostRace
  | .error e => .error (.Backend e)

/-- What a header value may hold. -/
def is_header_value (s : String) : Bool := s.toList.all (fun c => c == '\t' || (0x20 ≤ c.toNat && c.toNat < 0x7f))

def put_pointer (key : String) (body : Bytes) (precond : Precond) : Calls StoreError CasOutcome :=
  match precond with
  | .IfNoneMatchStar => .call (.put_object key body .IfNoneMatchStar) (fun x => .done (classify_cas x))
  | .IfMatch tag =>
    if is_header_value tag then .call (.put_object key body (.IfMatch tag)) (fun x => .done (classify_cas x))
    else .fail (.Backend (.HttpFailWithBody 400 ("invalid etag " ++ tag)))

end
end Ambush.Git

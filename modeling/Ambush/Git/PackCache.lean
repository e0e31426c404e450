import Ambush.Git.Publish
import Ambush.Lib.Maps
import Ambush.Lib.Runs
/-!
# The pack cache

Calls of one cache run side by side. Each step of a call is a locked section or one call of the
file system; what happens in its own staging directory before anyone can see it is one step. The
table is kept under a lock, directories are removed after it is released.
-/
open Lib

namespace Ambush.PackCache
open Git (HydrateError is_ascii_hexdigit)

/-! ## Files -/

local instance bytes_decidable : DecidableEq Git.Bytes := ByteArray.instDecidableEq

/-- A pack and its index in a directory of the cache. -/
structure Pair where
  pack : Git.Bytes
  idx : Git.Bytes
  deriving DecidableEq

/-- What is there of both in the workspace of a request. -/
structure Destination where
  pack : Option Git.Bytes
  idx : Option Git.Bytes
  deriving DecidableEq

/-- The directory of an entry: the one of its digest, or a staging directory that the entry keeps
alive. -/
inductive Dir where
  | final (digest : String)
  | staging (files : Pair)
  deriving DecidableEq

/-- `arc` tells the allocations of equal entries apart. -/
structure CachedPack where
  arc : Nat
  dir : Dir
  pack_bytes : Nat
  total_bytes : Nat
  deriving DecidableEq

/-! ## The table -/

structure CacheRecord where
  entry : CachedPack
  last_used : Nat
  deriving DecidableEq

structure CacheState where
  entries : List (String × CacheRecord)
  total_bytes : Nat
  tick : Nat
  deriving DecidableEq

namespace CacheState

def get (s : CacheState) (digest : String) : Option CacheRecord := (s.entries.find? (fun e => e.1 = digest)).map Prod.snd

def remove (s : CacheState) (digest : String) : CacheState :=
  match s.get digest with
  | some record => { s with
      entries := s.entries.filter (fun e => e.1 ≠ digest), total_bytes := s.total_bytes - record.entry.total_bytes }
  | none => s

def insert (s : CacheState) (digest : String) (entry : CachedPack) : CacheState :=
  let tick := satAdd s.tick 1
  let s := s.remove digest
  ⟨s.entries ++ [(digest, ⟨entry, tick⟩)], satAdd s.total_bytes entry.total_bytes, tick⟩

/-- `last_used` of the entry under the digest becomes the tick. -/
def touch (s : CacheState) (digest : String) : CacheState :=
  { s with entries := s.entries.map (fun e => if e.1 = digest then (e.1, { e.2 with last_used := s.tick }) else e) }

end CacheState

/-! ## Calls -/

inductive Task where
  | materialize
  | prune
  | invalidate
  deriving DecidableEq

/-- Where `CachedPack::from_dir` looks at the directory of the digest: before anything is published,
after a rename that failed, after one that did not. -/
inductive When where
  | before
  | refused
  | published
  deriving DecidableEq

/-- Where a call is. `flight` is the population flight it is in, `none` after the first lookup. -/
inductive Pc where
  | validate
  | lookup (flight : Option Nat)
  | link_pack (entry : CachedPack) (flight : Option Nat)
  | link_idx (entry : CachedPack) (flight : Option Nat)
  | unlink_pack (entry : CachedPack) (flight : Option Nat)
  | unlink_idx (entry : CachedPack) (flight : Option Nat)
  | copy_pack (entry : CachedPack) (flight : Option Nat)
  | copy_idx (entry : CachedPack) (flight : Option Nat)
  | clean_pack (entry : CachedPack) (flight : Option Nat)
  | drop_entry (entry : CachedPack) (flight : Option Nat) (result : Except HydrateError Nat)
  | invalidate (held : Option CachedPack)
  | count_holders (record : CachedPack) (held : Option CachedPack)
  | discard (record : CachedPack) (held : Option CachedPack)
  | enter
  | wait (flight : Nat)
  | acquire (flight : Nat)
  | stage (flight : Nat)
  | stat_pack (flight : Nat) (staged : Pair) (when_ : When)
  | stat_idx (flight : Nat) (staged : Pair) (when_ : When) (pack_bytes : Nat)
  | exists_final (flight : Nat) (staged : Pair)
  | remove_final (flight : Nat) (staged : Pair)
  | rename (flight : Nat) (staged : Pair)
  | insert (flight : Nat) (entry : CachedPack)
  | release (flight : Nat) (populated : Except HydrateError CachedPack)
  | unlock (flight : Nat) (result : Except HydrateError Nat)
  | leave (flight : Nat) (result : Except HydrateError Nat)
  | remove_flight (flight : Nat) (result : Except HydrateError Nat)
  | prune (result : Except HydrateError Nat)
  | remove_dirs (dirs : List Dir) (result : Except HydrateError Nat)
  | returned (result : Except HydrateError Nat)

/-- The entries that the variables of a call keep alive. -/
def Pc.arcs : Pc → List Nat
  | .link_pack e _ | .link_idx e _ | .unlink_pack e _ | .unlink_idx e _ | .copy_pack e _ | .copy_idx e _ | .clean_pack e _
  | .drop_entry e _ _ | .insert _ e | .release _ (.ok e) => [e.arc]
  | .invalidate held => held.toList.map CachedPack.arc
  | .count_holders record held | .discard record held => record.arc :: held.toList.map CachedPack.arc
  | _ => []

structure Call where
  task : Task
  digest : String
  destination : Destination
  pc : Pc

/-- `prune` and `invalidate` return nothing, here as a success. -/
def Call.start (task : Task) (digest : String) (destination : Destination) : Call :=
  ⟨task, digest, destination, match task with
    | .materialize => .validate
    | .prune => .prune (.ok 0)
    | .invalidate => .invalidate none⟩

/-! ## The cache among its calls -/

structure PopulationFlight where
  locked : Bool
  participants : Nat
  deriving DecidableEq

/-- The limits of the cache, the pack of each digest, which the store serves, and what may be its
index: the stored one or one that git makes. -/
structure Env where
  max_bytes : Nat
  max_concurrent_populations : Nat
  pack : String → Git.Bytes
  is_idx : String → Git.Bytes → Bool
  concurrent : 0 < max_concurrent_populations
  indexed : ∀ digest, ∃ idx, is_idx digest idx = true

structure World where
  state : CacheState
  published : Map String Pair
  flights : Map String Nat
  flight : Nat → PopulationFlight
  permits : Nat
  next : Nat
  calls : List Call

def World.new (env : Env) : World :=
  ⟨⟨[], 0, 0⟩, .empty, .empty, fun _ => ⟨false, 0⟩, env.max_concurrent_populations, 0, []⟩

/-- The files behind an entry. -/
def World.source (w : World) (entry : CachedPack) : Option Pair :=
  match entry.dir with
  | .final digest => w.published digest
  | .staging files => some files

/-- `Arc::strong_count`. -/
def strong_count (s : CacheState) (calls : List Call) (arc : Nat) : Nat :=
  s.entries.countP (fun e => e.2.entry.arc = arc) + (calls.map (fun c => c.pc.arcs.count arc)).sum

/-- `remove_dir_all`. -/
def World.remove_dir (w : World) : Dir → World
  | .final digest => { w with published := w.published.remove digest }
  | .staging _ => w

def World.set_flight (w : World) (f : Nat) (flight : PopulationFlight) : World :=
  { w with flight := fun g => if g = f then flight else w.flight g }

def is_digest (digest : String) : Bool := digest.utf8ByteSize = 64 && digest.toList.all is_ascii_hexdigit

def validate_digest (digest : String) : Except HydrateError Unit :=
  if is_digest digest then .ok () else .error (.Hydrate "pack cache digest is malformed")

/-! ## Pruning -/

/-- The first entry that nothing else holds and that was used least recently. -/
def oldest (s : CacheState) (calls : List Call) : List (String × CacheRecord) → Option (String × CacheRecord)
  | [] => none
  | e :: rest =>
    if strong_count s calls e.2.entry.arc = 1 then
      match oldest s calls rest with
      | some f => if f.2.last_used < e.2.last_used then some f else some e
      | none => some e
    else oldest s calls rest

/-- The loop of `prune`, whose every round takes an entry out: the directories of those it took. -/
def evict (max_bytes : Nat) (calls : List Call) : Nat → CacheState → CacheState × List Dir
  | 0, s => (s, [])
  | n + 1, s =>
    if max_bytes < s.total_bytes then
      match oldest s calls s.entries with
      | none => (s, [])
      | some (digest, record) =>
        let (t, dirs) := evict max_bytes calls n (s.remove digest)
        (t, record.entry.dir :: dirs)
    else (s, [])

/-! ## The steps of a call -/

section
variable (env : Env)

/-- After a lookup that found nothing: into the population flight, or on to populate. -/
def missed : Option Nat → Pc
  | none => .enter
  | some f => .acquire f

/-- What `install_entry` came to: a failure after the first lookup leads to `invalidate`. -/
def installed (entry : CachedPack) : Option Nat → Except HydrateError Nat → Pc
  | none, .error _ => .invalidate (some entry)
  | flight, result => .drop_entry entry flight result

/-- The entry is let go of, before the lock of the flight. -/
def dropped : Option Nat → Except HydrateError Nat → Pc
  | none, result => .prune result
  | some f, result => .unlock f result

/-- What `populate` came to. -/
def released (flight : Nat) : Except HydrateError CachedPack → Pc
  | .ok entry => .link_pack entry (some flight)
  | .error e => .unlock flight (.error e)

/-- After `invalidate`: on to the population, or back to who called it. -/
def invalidated : Option CachedPack → Pc
  | some _ => .enter
  | none => .returned (.ok 0)

/-- `from_dir` found no pair. -/
def not_found (flight : Nat) (staged : Pair) : When → Pc
  | .before => .exists_final flight staged
  | .refused => .release flight (.error (.Hydrate "publish cached pack"))
  | .published => .release flight (.error (.Hydrate "published pack cache entry is incomplete"))

/-- One step of call `c` of `calls[i]`: the cache after it, and the call. None where the call waits
or has returned. `idx` is the index that population comes to. -/
def move (w : World) (c : Call) (idx : Git.Bytes) : Option (World × Call) :=
  match c.pc with
  | .validate =>
    match validate_digest c.digest with
    | .ok () => some (w, { c with pc := .lookup none })
    | .error e => some (w, { c with pc := .returned (.error e) })
  | .lookup flight =>
    let state := { w.state with tick := satAdd w.state.tick 1 }
    match state.get c.digest with
    | none => some ({ w with state := state }, { c with pc := missed flight })
    | some record =>
      if (w.source record.entry).isSome then
        some ({ w with state := state.touch c.digest }, { c with pc := .link_pack record.entry flight })
      else some ({ w with state := state }, { c with pc := missed flight })
  | .link_pack entry flight =>
    match w.source entry, c.destination.pack with
    | some files, none =>
      some (w, { c with destination := { c.destination with pack := some files.pack }, pc := .link_idx entry flight })
    | _, _ => some (w, { c with pc := .unlink_pack entry flight })
  | .link_idx entry flight =>
    match w.source entry, c.destination.idx with
    | some files, none =>
      some (w, { c with destination := { c.destination with idx := some files.idx }, pc := installed entry flight (.ok entry.pack_bytes) })
    | _, _ => some (w, { c with pc := .unlink_pack entry flight })
  | .unlink_pack entry flight =>
    some (w, { c with destination := { c.destination with pack := none }, pc := .unlink_idx entry flight })
  | .unlink_idx entry flight =>
    some (w, { c with destination := { c.destination with idx := none }, pc := .copy_pack entry flight })
  | .copy_pack entry flight =>
    match w.source entry with
    | some files => some (w, { c with destination := { c.destination with pack := some files.pack }, pc := .copy_idx entry flight })
    | none => some (w, { c with pc := installed entry flight (.error (.Hydrate "copy cached pack")) })
  | .copy_idx entry flight =>
    match w.source entry with
    | some files => some (w, { c with
        destination := { c.destination with idx := some files.idx }, pc := installed entry flight (.ok entry.pack_bytes) })
    | none => some (w, { c with pc := .clean_pack entry flight })
  | .clean_pack entry flight =>
    some (w, { c with
      destination := { c.destination with pack := none }, pc := installed entry flight (.error (.Hydrate "copy cached idx")) })
  | .drop_entry _ flight result => some (w, { c with pc := dropped flight result })
  | .invalidate held =>
    match w.state.get c.digest with
    | some record => some ({ w with state := w.state.remove c.digest }, { c with pc := .count_holders record.entry held })
    | none => some (w, { c with pc := invalidated held })
  | .count_holders record held =>
    if strong_count w.state w.calls record.arc = 1 then some (w, { c with pc := .discard record held })
    else some (w, { c with pc := invalidated held })
  | .discard record held => some (w.remove_dir record.dir, { c with pc := invalidated held })
  | .enter =>
    match w.flights c.digest with
    | some f =>
      some (w.set_flight f { w.flight f with participants := (w.flight f).participants + 1 }, { c with pc := .wait f })
    | none =>
      let w := w.set_flight w.next ⟨false, 1⟩
      some ({ w with flights := w.flights.insert c.digest w.next, next := w.next + 1 }, { c with pc := .wait w.next })
  | .wait f =>
    if (w.flight f).locked then none
    else some (w.set_flight f { w.flight f with locked := true }, { c with pc := .lookup (some f) })
  | .acquire f =>
    if w.permits = 0 then none else some ({ w with permits := w.permits - 1 }, { c with pc := .stage f })
  | .stage f =>
    let staged : Pair := ⟨env.pack c.digest, idx⟩
    let entry : CachedPack := ⟨w.next, .staging staged, staged.pack.size, satAdd staged.pack.size idx.size⟩
    if !env.is_idx c.digest idx then none
    else if env.max_bytes = 0 ∨ env.max_bytes < entry.total_bytes then
      some ({ w with next := w.next + 1 }, { c with pc := .release f (.ok entry) })
    else some (w, { c with pc := .stat_pack f staged .before })
  | .stat_pack f staged when_ =>
    match w.published c.digest with
    | some files => some (w, { c with pc := .stat_idx f staged when_ files.pack.size })
    | none => some (w, { c with pc := not_found f staged when_ })
  | .stat_idx f staged when_ pack_bytes =>
    match w.published c.digest with
    | some files =>
      let entry : CachedPack := ⟨w.next, .final c.digest, pack_bytes, satAdd pack_bytes files.idx.size⟩
      some ({ w with next := w.next + 1 }, { c with pc := .insert f entry })
    | none => some (w, { c with pc := not_found f staged when_ })
  | .exists_final f staged =>
    some (w, { c with pc := if (w.published c.digest).isSome then .remove_final f staged else .rename f staged })
  | .remove_final f staged => some (w.remove_dir (.final c.digest), { c with pc := .rename f staged })
  | .rename f staged =>
    -- a directory with files in it is not renamed onto
    if (w.published c.digest).isSome then some (w, { c with pc := .stat_pack f staged .refused })
    else some ({ w with published := w.published.insert c.digest staged }, { c with pc := .stat_pack f staged .published })
  | .insert f entry => some ({ w with state := w.state.insert c.digest entry }, { c with pc := .release f (.ok entry) })
  | .release f populated =>
    some ({ w with permits := w.permits + 1 }, { c with pc := released f populated })
  | .unlock f result => some (w.set_flight f { w.flight f with locked := false }, { c with pc := .leave f result })
  | .leave f result =>
    some (w.set_flight f { w.flight f with participants := (w.flight f).participants - 1 },
      { c with pc := if (w.flight f).participants = 1 then .remove_flight f result else .prune result })
  | .remove_flight f result =>
    let w := if w.flights c.digest = some f ∧ (w.flight f).participants = 0 then
      { w with flights := w.flights.remove c.digest } else w
    some (w, { c with pc := .prune result })
  | .prune result =>
    let (state, dirs) := evict env.max_bytes w.calls w.state.entries.length w.state
    some ({ w with state := state }, { c with pc := .remove_dirs dirs result })
  | .remove_dirs dirs result =>
    match dirs with
    | [] => some (w, { c with pc := .returned result })
    | dir :: dirs => some (w.remove_dir dir, { c with pc := .remove_dirs dirs result })
  | .returned _ => none

inductive Label where
  | call (task : Task) (digest : String) (destination : Destination)
  | move (i : Nat) (idx : Git.Bytes)

/-- A call comes in, or one of them takes a step. -/
def step (w : World) : Label → Option World
  | .call task digest destination => some { w with calls := w.calls ++ [.start task digest destination] }
  | .move i idx => do
    let c ← w.calls[i]?
    let (w', c') ← move env w c idx
    some { w' with calls := w.calls.set i c' }

def Step (w : World) (l : Label) (t : World) : Prop := step env w l = some t

end

end Ambush.PackCache

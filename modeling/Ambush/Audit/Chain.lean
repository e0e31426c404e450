import Ambush.Audit.Hash
import Ambush.Core.Coding
import Ambush.Lib.Chains
import Ambush.Lib.Results
import Ambush.Lib.Runs
import Ambush.Lib.Sql
/-!
# The audit chain

`log` appends to a community's chain and `verify_chain` walks a range of it. What verifies and ends in an original row is made of
original rows, one after another and without a gap; but nothing is asked of the first row it meets, so that it need not be the first.
-/
open Lib

namespace Ambush.Audit

abbrev Detail := { v : Value // v.ordered = true }

/-- A `JSONB` column: what it gives back for a value, or that it refuses it. What was given back once is given back as it is. -/
structure Jsonb where
  read_back : Detail → Option Detail
  idem : ∀ v w, read_back v = some w → read_back w = some w

/-- A row of `audit_log`. -/
@[ext]
structure Row (jsonb : Jsonb) where
  community_id : Uuid
  seq : Seq64
  hash : Bytes
  prev_hash : Option Bytes
  action : String
  actor_pubkey : Option Bytes
  object_id : Option String
  detail : Option Detail
  created_at : DateTime
  detail_stored : ∀ v ∈ detail, jsonb.read_back v = some v
  created_at_stored : to_storage_precision created_at = created_at

def Row.key {jsonb : Jsonb} (row : Row jsonb) : Uuid × Seq64 := (row.community_id, row.seq)

abbrev AuditLog (jsonb : Jsonb) := Table (@Row.key jsonb)

inductive AuditError where
  | ChainViolation (seq : Seq64)
  | HashMismatch (seq : Seq64)
  | UnknownAction
deriving DecidableEq

/-- `row.get` panics on a `NULL` where there must be a value. -/
inductive Failure where
  | Err (error : AuditError)
  | Panic
deriving DecidableEq

structure NewAuditEntry where
  community_id : Uuid
  action : AuditAction
  actor_pubkey : Option Bytes
  object_id : Option String
  detail : Detail

section
variable {jsonb : Jsonb} (compute_hash : AuditEntry → Bytes)

/-- What the `INSERT` binds, as the columns keep it. -/
def bind (entry : AuditEntry) : Option (Row jsonb) :=
  match h : jsonb.read_back entry.detail with
  | none => none
  | some detail => some {
      community_id := entry.community_id
      seq := entry.seq
      hash := entry.hash
      prev_hash := entry.prev_hash
      action := entry.action.as_str
      actor_pubkey := entry.actor_pubkey
      object_id := entry.object_id
      detail := some detail
      created_at := to_storage_precision entry.created_at
      detail_stored := fun _ hv => Option.some.inj hv ▸ jsonb.idem _ _ h
      created_at_stored := to_storage_precision_idem _ }

/-- `INSERT INTO audit_log`, refused for a key or a hash that the community has. -/
def insert (log : AuditLog jsonb) (row : Row jsonb) : Option (AuditLog jsonb) :=
  if log.rows.any (fun r => r.community_id = row.community_id ∧ r.hash = row.hash) then none else log.insert row

/-- The community's last row. -/
def head (log : AuditLog jsonb) (community_id : Uuid) : Option (Row jsonb) :=
  Table.first (fun q best => best.seq.1 < q.seq.1) (log.rows.filter (fun r => r.community_id = community_id))

/-- `prev_seq + 1`. -/
def next_seq (prev_seq : Seq64) : Option Seq64 :=
  if h : prev_seq.1 + 1 ≤ i64Max then some ⟨prev_seq.1 + 1, by have := prev_seq.2.1; omega, h⟩ else none

/-- `AuditService::log`, serialized by the community's lock; nothing is that the call failed and the transaction was rolled back. -/
def log_inner (log : AuditLog jsonb) (entry : NewAuditEntry) (now : DateTime) : Option (AuditEntry × AuditLog jsonb) := do
  let last := head log entry.community_id
  let seq ← next_seq ((last.map Row.seq).getD ⟨0, by decide⟩)
  let audit_entry : AuditEntry :=
    { community_id := entry.community_id
      seq := seq
      hash := []
      prev_hash := last.map Row.hash
      action := entry.action
      actor_pubkey := entry.actor_pubkey
      object_id := entry.object_id
      detail := entry.detail
      created_at := to_storage_precision now }
  let audit_entry := { audit_entry with hash := compute_hash audit_entry }
  let row ← bind audit_entry
  let log ← insert log row
  some (audit_entry, log)

/-- `WHERE community_id = $1 AND seq BETWEEN $2 AND $3 ORDER BY seq ASC`. -/
def select (log : AuditLog jsonb) (community : Uuid) (from_seq to_seq : Seq64) : List (Row jsonb) :=
  Table.ordered (fun r => r.seq.1)
    (log.rows.filter (fun r => r.community_id = community ∧ from_seq.1 ≤ r.seq.1 ∧ r.seq.1 ≤ to_seq.1))

def row_to_audit_entry (row : Row jsonb) : Except Failure AuditEntry :=
  match AuditAction.from_str row.action, row.detail with
  | none, _ => .error (.Err .UnknownAction)
  | some _, none => .error .Panic
  | some action, some detail => .ok {
      community_id := row.community_id
      seq := row.seq
      hash := row.hash
      prev_hash := row.prev_hash
      action := action
      actor_pubkey := row.actor_pubkey
      object_id := row.object_id
      detail := detail
      created_at := row.created_at }

/-- The loop of `verify_chain`; `expected_prev` is nothing before the first row. -/
def verify_rows (expected_prev : Option Bytes) : List (Row jsonb) → Except Failure Bool
  | [] => .ok true
  | row :: rows => do
    let entry ← row_to_audit_entry row
    if expected_prev.any (fun expected => entry.prev_hash ≠ some expected) then .error (.Err (.ChainViolation entry.seq))
    else if compute_hash entry ≠ entry.hash then .error (.Err (.HashMismatch entry.seq))
    else verify_rows (some entry.hash) rows

def verify_chain (log : AuditLog jsonb) (community : Uuid) (from_seq to_seq : Seq64) : Except Failure Bool :=
  let rows := select log community from_seq to_seq
  if rows = [] then .ok false else verify_rows compute_hash none rows

end

/-! ## What the chain is for -/

/-- The fields of an entry that its hash is made of. -/
def AuditEntry.hashed (entry : AuditEntry) : AuditEntry :=
  { entry with hash := [], created_at := to_storage_precision entry.created_at }

/-- The hash is one of all the other fields and tells them apart. -/
def Binds (compute_hash : AuditEntry → Bytes) : Prop := ∀ a b : AuditEntry, compute_hash a = compute_hash b ↔ a.hashed = b.hashed

/-- The log and the entries that `log` has returned. -/
structure Audited (jsonb : Jsonb) where
  log : AuditLog jsonb
  written : List AuditEntry

def Audited.start (jsonb : Jsonb) : Audited jsonb := ⟨Table.empty, []⟩

def Audited.append {jsonb : Jsonb} (compute_hash : AuditEntry → Bytes) (s : Audited jsonb) (call : NewAuditEntry × DateTime) :
    Option (Audited jsonb) :=
  (log_inner compute_hash s.log call.1 call.2).map (fun r => ⟨r.2, s.written ++ [r.1]⟩)

abbrev Appends {jsonb : Jsonb} (compute_hash : AuditEntry → Bytes) : Audited jsonb → NewAuditEntry × DateTime → Audited jsonb → Prop :=
  fun s call t => s.append compute_hash call = some t

section
variable {jsonb : Jsonb} {compute_hash : AuditEntry → Bytes}

/-- A community's entries with their rows, the newest first. -/
inductive Chained (jsonb : Jsonb) (compute_hash : AuditEntry → Bytes) (community : Uuid) : List (AuditEntry × Row jsonb) → Prop
  | nil : Chained jsonb compute_hash community []
  | cons {entry : AuditEntry} {row : Row jsonb} {rest : List (AuditEntry × Row jsonb)} (hcommunity : entry.community_id = community)
      (hseq : entry.seq.1 = rest.length + 1) (hprev : entry.prev_hash = rest.head?.map (fun p => p.2.hash))
      (hhash : entry.hash = compute_hash entry) (hrow : bind entry = some row) (hrest : Chained jsonb compute_hash community rest) :
      Chained jsonb compute_hash community ((entry, row) :: rest)

/-- What a row keeps of its entry. -/
theorem bind_eq_some {entry : AuditEntry} {row : Row jsonb} (h : bind entry = some row) :
    row.community_id = entry.community_id ∧ row.seq = entry.seq ∧ row.hash = entry.hash ∧ row.prev_hash = entry.prev_hash ∧
      row.action = entry.action.as_str ∧ row.actor_pubkey = entry.actor_pubkey ∧ row.object_id = entry.object_id ∧
      row.detail = jsonb.read_back entry.detail ∧ row.created_at = to_storage_precision entry.created_at := by
  unfold bind at h
  split at h
  · cases h
  · next hdetail =>
    obtain rfl := Option.some.inj h
    exact ⟨rfl, rfl, rfl, rfl, rfl, rfl, rfl, hdetail.symm, rfl⟩

theorem insert_eq_some {log log' : AuditLog jsonb} {row : Row jsonb} (h : insert log row = some log') :
    log.get row.key = none ∧ log'.rows = log.rows ++ [row] := by
  rw [insert] at h
  split at h
  · cases h
  · rw [Table.insert] at h
    split at h
    · cases h
    · next hkey =>
      obtain rfl := Option.some.inj h
      exact ⟨Table.get_eq_none.2 hkey, rfl⟩

theorem next_seq_eq_some {n m : Seq64} (h : next_seq n = some m) : m.1 = n.1 + 1 := by
  rw [next_seq] at h
  split at h
  · rw [← Option.some.inj h]
  · cases h

/-- One call: a new row for the community, linked to its last one. -/
theorem log_inner_spec (hb : Binds compute_hash) {log log' : AuditLog jsonb} {new : NewAuditEntry} {now : DateTime} {entry : AuditEntry}
    (h : log_inner compute_hash log new now = some (entry, log')) :
    ∃ row, bind entry = some row ∧ log'.rows = log.rows ++ [row] ∧ entry.community_id = new.community_id ∧
      entry.seq.1 = ((head log new.community_id).map (fun r => r.seq.1)).getD 0 + 1 ∧
      entry.prev_hash = (head log new.community_id).map Row.hash ∧ entry.hash = compute_hash entry := by
  simp only [log_inner, Option.bind_eq_bind, Option.bind_eq_some_iff, Option.some.injEq, Prod.mk.injEq] at h
  obtain ⟨seq, hseq, row, hrow, log'', hinsert, rfl, rfl⟩ := h
  refine ⟨row, hrow, (insert_eq_some hinsert).2, rfl, ?_, rfl, (hb _ _).2 rfl⟩
  rw [next_seq_eq_some hseq]
  cases head log new.community_id <;> rfl

/-! ## Every run builds chains -/

/-- In every community the rows and the entries that were returned are one chain. -/
def Kept (compute_hash : AuditEntry → Bytes) (s : Audited jsonb) : Prop := ∀ community, ∃ chain : List (AuditEntry × Row jsonb),
  Chained jsonb compute_hash community chain ∧
  s.log.rows.filter (fun r => r.community_id = community) = (chain.map (·.2)).reverse ∧
  s.written.filter (fun e => e.community_id = community) = (chain.map (·.1)).reverse

theorem Chained.seq_of_mem {community : Uuid} {chain : List (AuditEntry × Row jsonb)} (h : Chained jsonb compute_hash community chain) :
    ∀ p ∈ chain, p.2.seq = p.1.seq ∧ 1 ≤ p.1.seq.1 ∧ p.1.seq.1 ≤ chain.length := by
  induction h with
  | nil => exact fun p hp => absurd hp List.not_mem_nil
  | cons hcommunity hseq hprev hhash hrow hrest ih =>
    intro p hp
    rw [List.length_cons]
    rcases List.mem_cons.1 hp with rfl | hp
    · dsimp only
      exact ⟨(bind_eq_some hrow).2.1, by omega, by push_cast; omega⟩
    · obtain ⟨hrow, hlo, hhi⟩ := ih p hp
      exact ⟨hrow, hlo, by push_cast; omega⟩

/-- The row `log` links to is the newest. -/
theorem head_of_chained {log : AuditLog jsonb} {community : Uuid} {chain : List (AuditEntry × Row jsonb)}
    (h : Chained jsonb compute_hash community chain)
    (hrows : log.rows.filter (fun r => r.community_id = community) = (chain.map (·.2)).reverse) :
    head log community = chain.head?.map (·.2) := by
  rw [head, hrows]
  cases h with
  | nil => rfl
  | @cons entry row rest hcommunity hseq hprev hhash hrow hrest =>
    obtain ⟨r, hr⟩ : ∃ r, Table.first (fun q best => best.seq.1 < q.seq.1) ((((entry, row) :: rest).map (·.2)).reverse) = some r := by
      cases hl : (((entry, row) :: rest).map (·.2)).reverse with
      | nil => simp at hl
      | cons a l => exact ⟨_, rfl⟩
    rw [hr]
    have hmem := Table.first_mem hr
    have hmax := Table.first_desc (k := fun r : Row jsonb => r.seq.1) hr row (by simp)
    rw [List.mem_reverse, List.mem_map] at hmem
    obtain ⟨p, hp, rfl⟩ := hmem
    rcases List.mem_cons.1 hp with rfl | hp
    · rfl
    · -- every other row has a smaller number
      obtain ⟨hpseq, -, hle⟩ := hrest.seq_of_mem p hp
      rw [hpseq, (bind_eq_some hrow).2.1] at hmax
      omega

theorem append_kept (hb : Binds compute_hash) {s t : Audited jsonb} {call : NewAuditEntry × DateTime} (hi : Kept compute_hash s)
    (h : Appends compute_hash s call t) : Kept compute_hash t := by
  obtain ⟨⟨entry, log'⟩, hlog, rfl⟩ := Option.map_eq_some_iff.1 h
  obtain ⟨row, hrow, hrows, hcommunity, hseq, hprev, hhash⟩ := log_inner_spec hb hlog
  have hrowc := (bind_eq_some hrow).1
  intro community
  obtain ⟨chain, hchain, hr, hw⟩ := hi community
  dsimp only
  rw [hrows, List.filter_append, List.filter_append, hr, hw]
  by_cases hc : entry.community_id = community
  · subst hc
    rw [← hcommunity, head_of_chained hchain hr] at hseq hprev
    refine ⟨(entry, row) :: chain, .cons rfl ?_ ?_ hhash hrow hchain, ?_, ?_⟩
    · cases hchain with
      | nil => exact hseq
      | cons hcommunity' hseq' hprev' hhash' hrow' hrest' =>
        rw [hseq]
        simp only [List.head?_cons, Option.map_some, Option.getD_some, List.length_cons, (bind_eq_some hrow').2.1, hseq']
        push_cast
        rfl
    · rw [hprev, Option.map_map]
      rfl
    · rw [List.map_cons, List.reverse_cons, List.filter_singleton]
      simp [hrowc]
    · rw [List.map_cons, List.reverse_cons, List.filter_singleton]
      simp
  · refine ⟨chain, hchain, ?_, ?_⟩
    · rw [List.filter_singleton]
      simp [hrowc, hc]
    · rw [List.filter_singleton]
      simp [hc]

theorem run_kept (hb : Binds compute_hash) {calls : List (NewAuditEntry × DateTime)} {s : Audited jsonb}
    (h : Run (Appends compute_hash) (Audited.start jsonb) calls s) : Kept compute_hash s :=
  h.inv (fun _ _ _ _ hi hstep => append_kept hb hi hstep) (fun _ => ⟨[], .nil, rfl, rfl⟩)

/-- Entries numbered from one without a gap, each with the hash of the one before it and of its own fields. -/
structure Sequential (compute_hash : AuditEntry → Bytes) (entries : List AuditEntry) : Prop where
  numbered : entries.map (fun e => e.seq.1) = (List.range entries.length).map (fun k : Nat => (k : Int) + 1)
  linked : entries.IsChain (fun a b => b.prev_hash = some a.hash)
  first : ∀ e ∈ entries.head?, e.prev_hash = none
  hashed : ∀ e ∈ entries, e.hash = compute_hash e

theorem Chained.sequential {community : Uuid} {chain : List (AuditEntry × Row jsonb)} (h : Chained jsonb compute_hash community chain) :
    Sequential compute_hash (chain.map (·.1)).reverse := by
  induction h with
  | nil => exact ⟨rfl, .nil, fun e he => (by cases he), fun e he => absurd he List.not_mem_nil⟩
  | @cons entry row rest hcommunity hseq hprev hhash hrow hrest ih =>
    rw [List.map_cons, List.reverse_cons]
    refine ⟨?_, List.isChain_append.2 ⟨ih.linked, .singleton _, ?_⟩, ?_, ?_⟩
    · rw [List.map_append, ih.numbered, List.length_append, List.length_singleton, List.range_succ, List.map_append]
      simp [hseq]
    · intro a ha b hb
      cases hb
      rw [List.getLast?_reverse] at ha
      cases hrest with
      | nil => cases ha
      | cons _ _ _ _ hrow' _ =>
        cases ha
        rw [hprev]
        exact congrArg some (bind_eq_some hrow').2.2.1
    · intro e he
      cases hrest with
      | nil =>
        cases he
        exact hprev
      | cons => exact ih.first e (by simpa using he)
    · intro e he
      rcases List.mem_append.1 he with he | he
      · exact ih.hashed e he
      · rw [List.mem_singleton.1 he]
        exact hhash

/-- However the calls of different communities come, those of one make a sequence. -/
theorem communities_are_sequential (hb : Binds compute_hash) {calls : List (NewAuditEntry × DateTime)} {s : Audited jsonb}
    (hrun : Run (Appends compute_hash) (Audited.start jsonb) calls s) (community : Uuid) :
    Sequential compute_hash (s.written.filter (fun e => e.community_id = community)) := by
  obtain ⟨chain, hchain, -, hwritten⟩ := run_kept hb hrun community
  rw [hwritten]
  exact hchain.sequential

/-! ## What verifies -/

/-- A row that can be read and has the hash of its fields. -/
def Sound (compute_hash : AuditEntry → Bytes) (row : Row jsonb) : Prop :=
  ∃ entry, row_to_audit_entry row = .ok entry ∧ compute_hash entry = row.hash

/-- Going back from a row to the one before it. -/
abbrev Backlink (a b : Row jsonb) : Prop := a.prev_hash = some b.hash

theorem row_to_audit_entry_ok {row : Row jsonb} {entry : AuditEntry} (h : row_to_audit_entry row = .ok entry) :
    AuditAction.from_str row.action = some entry.action ∧ row.detail = some entry.detail ∧ entry.community_id = row.community_id ∧
      entry.seq = row.seq ∧ entry.hash = row.hash ∧ entry.prev_hash = row.prev_hash ∧ entry.actor_pubkey = row.actor_pubkey ∧
      entry.object_id = row.object_id ∧ entry.created_at = row.created_at := by
  unfold row_to_audit_entry at h
  split at h
  · cases h
  · cases h
  · next haction hdetail =>
    obtain rfl := Except.ok.inj h
    exact ⟨haction, hdetail, rfl, rfl, rfl, rfl, rfl, rfl, rfl⟩

theorem verify_rows_iff {expected : Option Bytes} {rows : List (Row jsonb)} : verify_rows compute_hash expected rows = .ok true ↔
    (∀ r ∈ rows, Sound compute_hash r) ∧ rows.IsChain (fun a b => Backlink b a) ∧
      ∀ hash ∈ expected, ∀ r ∈ rows.head?, r.prev_hash = some hash := by
  induction rows generalizing expected with
  | nil => simp [verify_rows]
  | cons row rows ih =>
    rw [verify_rows, ok_bind_iff]
    constructor
    · rintro ⟨entry, hentry, h⟩
      obtain ⟨-, -, -, -, hhash, hprev, -⟩ := row_to_audit_entry_ok hentry
      rw [ok_guard_iff, ok_guard_iff, ih, not_not, Option.any_eq_true] at h
      obtain ⟨hlink, hcomputed, hsound, hchain, hnext⟩ := h
      refine ⟨List.forall_mem_cons.2 ⟨⟨entry, hentry, hcomputed.trans hhash⟩, hsound⟩,
        List.isChain_cons.2 ⟨fun r hr => ?_, hchain⟩, fun hash he r hr => ?_⟩
      · rw [Backlink, hnext _ rfl r hr, hhash]
      · rw [← Option.some.inj hr, ← hprev]
        by_contra hne
        exact hlink ⟨hash, he, by simpa using hne⟩
    · rintro ⟨hsound, hchain, hlink⟩
      obtain ⟨⟨entry, hentry, hcomputed⟩, hsound⟩ := List.forall_mem_cons.1 hsound
      obtain ⟨-, -, -, -, hhash, hprev, -⟩ := row_to_audit_entry_ok hentry
      obtain ⟨hnext, hchain⟩ := List.isChain_cons.1 hchain
      refine ⟨entry, hentry, ?_⟩
      rw [ok_guard_iff, ok_guard_iff, ih, not_not, Option.any_eq_true]
      refine ⟨?_, hcomputed.trans hhash.symm, hsound, hchain, fun hash he r hr => ?_⟩
      · rintro ⟨hash, he, hne⟩
        exact of_decide_eq_true hne (hprev.trans (hlink hash he row rfl))
      · rw [← Option.some.inj he, hhash]
        exact hnext r hr

/-! ## Original rows -/

theorem Chained.of_mem {community : Uuid} {chain : List (AuditEntry × Row jsonb)} (h : Chained jsonb compute_hash community chain) :
    ∀ p ∈ chain, p.1.community_id = community ∧ p.1.hash = compute_hash p.1 ∧ bind p.1 = some p.2 := by
  induction h with
  | nil => exact fun p hp => absurd hp List.not_mem_nil
  | cons hcommunity hseq hprev hhash hrow hrest ih => exact List.forall_mem_cons.2 ⟨⟨hcommunity, hhash, hrow⟩, ih⟩

/-- Only the row of an entry has its hash and verifies. -/
theorem sound_eq (hb : Binds compute_hash) {entry : AuditEntry} {row r : Row jsonb} (hrow : bind entry = some row)
    (hhash : entry.hash = compute_hash entry) (hr : Sound compute_hash r) (heq : r.hash = row.hash) :
    r = row ∧ jsonb.read_back entry.detail = some entry.detail := by
  obtain ⟨e, he, hcomputed⟩ := hr
  obtain ⟨hcommunity, hseq, hrhash, hprev, haction, hactor, hobject, hdetail, htime⟩ := bind_eq_some hrow
  obtain ⟨eaction, edetail, ecommunity, eseq, ehash, eprev, eactor, eobject, etime⟩ := row_to_audit_entry_ok he
  have hsame : e.hashed = entry.hashed := (hb _ _).1 (by rw [hcomputed, heq, hrhash, hhash])
  simp only [AuditEntry.hashed, AuditEntry.mk.injEq] at hsame
  obtain ⟨scommunity, sseq, -, sprev, saction, sactor, sobject, sdetail, stime⟩ := hsame
  have hback : jsonb.read_back entry.detail = some entry.detail := r.detail_stored _ (by rw [edetail, sdetail]; rfl)
  refine ⟨Row.ext ?_ ?_ heq ?_ ?_ ?_ ?_ ?_ ?_, hback⟩
  · rw [hcommunity, ← scommunity, ecommunity]
  · rw [hseq, ← sseq, eseq]
  · rw [hprev, ← sprev, eprev]
  · rw [haction, ← saction]
    exact (AuditAction.as_str_of_from_str eaction).symm
  · rw [hactor, ← sactor, eactor]
  · rw [hobject, ← sobject, eobject]
  · rw [hdetail, hback, edetail, sdetail]
  · rw [htime, ← stime, etime, r.created_at_stored]

/-- A row whose detail came back as it was written verifies. -/
theorem sound_of_bind (hb : Binds compute_hash) {entry : AuditEntry} {row : Row jsonb} (hrow : bind entry = some row)
    (hhash : entry.hash = compute_hash entry) (hback : jsonb.read_back entry.detail = some entry.detail) : Sound compute_hash row := by
  obtain ⟨hcommunity, hseq, hrhash, hprev, haction, hactor, hobject, hdetail, htime⟩ := bind_eq_some hrow
  refine ⟨{ entry with created_at := to_storage_precision entry.created_at }, ?_, ?_⟩
  · rw [row_to_audit_entry, haction, AuditAction.from_str_as_str, hdetail, hback]
    simp only [hcommunity, hseq, hrhash, hprev, hactor, hobject, htime]
  · rw [hrhash, hhash]
    refine (hb _ _).2 ?_
    simp only [AuditEntry.hashed, to_storage_precision_idem]

theorem Chained.seq_lt {community : Uuid} {chain : List (AuditEntry × Row jsonb)} (h : Chained jsonb compute_hash community chain) :
    (chain.map (·.2)).Pairwise (fun a b => b.seq.1 < a.seq.1) := by
  induction h with
  | nil => exact .nil
  | cons hcommunity hseq hprev hhash hrow hrest ih =>
    refine List.pairwise_cons.2 ⟨fun r hr => ?_, ih⟩
    obtain ⟨p, hp, rfl⟩ := List.mem_map.1 hr
    obtain ⟨hpseq, -, hle⟩ := hrest.seq_of_mem p hp
    rw [hpseq, (bind_eq_some hrow).2.1]
    omega

/-- The rows of a range, the newest first, are linked. -/
theorem Chained.linked {community : Uuid} {chain : List (AuditEntry × Row jsonb)} (h : Chained jsonb compute_hash community chain)
    (lo hi : Int) : ((chain.map (·.2)).filter (fun r => lo ≤ r.seq.1 ∧ r.seq.1 ≤ hi)).IsChain Backlink := by
  induction h with
  | nil => exact .nil
  | @cons entry row rest hcommunity hseq hprev hhash hrow hrest ih =>
    obtain ⟨-, hrseq, -, hrprev, -⟩ := bind_eq_some hrow
    rw [List.map_cons, List.filter_cons]
    split
    · next hin =>
      rw [decide_eq_true_eq] at hin
      refine List.isChain_cons.2 ⟨fun r hr => ?_, ih⟩
      cases hrest with
      | nil => cases hr
      | @cons entry' row' rest' hcommunity' hseq' hprev' hhash' hrow' hrest' =>
        -- the row before it is in the range, or none is
        by_cases hlo : lo ≤ row'.seq.1
        · have hin' : lo ≤ row'.seq.1 ∧ row'.seq.1 ≤ hi := ⟨hlo, by
            rw [(bind_eq_some hrow').2.1]
            rw [hrseq] at hin
            rw [List.length_cons] at hseq
            omega⟩
          rw [List.map_cons, List.filter_cons_of_pos (by simpa using hin')] at hr
          rw [← Option.some.inj hr, Backlink, hrprev, hprev]
          rfl
        · have hmem := (List.mem_filter.1 (List.mem_of_mem_head? hr))
          obtain ⟨p, hp, rfl⟩ := List.mem_map.1 hmem.1
          have hle := (Chained.seq_of_mem (.cons hcommunity' hseq' hprev' hhash' hrow' hrest') p hp)
          have hp2 := of_decide_eq_true hmem.2
          rw [(bind_eq_some hrow').2.1] at hlo
          rw [List.length_cons] at hle
          rw [hle.1] at hp2
          omega
    · exact ih

theorem Chained.first {community : Uuid} {chain : List (AuditEntry × Row jsonb)} (h : Chained jsonb compute_hash community chain) :
    ∀ r ∈ (chain.map (·.2)).getLast?, r.prev_hash = none := by
  induction h with
  | nil => exact fun r hr => by cases hr
  | @cons entry row rest hcommunity hseq hprev hhash hrow hrest ih =>
    cases hrest with
    | nil =>
      intro r hr
      have hone : row = r := Option.some.inj hr
      rw [← hone, (bind_eq_some hrow).2.2.2.1, hprev]
      rfl
    | cons => exact ih

/-- Behind newer entries there is a chain again. -/
theorem Chained.tail {community : Uuid} {newer chain : List (AuditEntry × Row jsonb)}
    (h : Chained jsonb compute_hash community (newer ++ chain)) :
    Chained jsonb compute_hash community chain ∧ ∀ p ∈ newer, chain.length < p.2.seq.1 := by
  induction newer with
  | nil => exact ⟨h, fun p hp => absurd hp List.not_mem_nil⟩
  | cons p newer ih =>
    cases h with
    | cons hcommunity hseq hprev hhash hrow hrest =>
      obtain ⟨hchain, hnewer⟩ := ih hrest
      refine ⟨hchain, List.forall_mem_cons.2 ⟨?_, hnewer⟩⟩
      have hlength : (newer.append chain).length = newer.length + chain.length := List.length_append
      rw [(bind_eq_some hrow).2.1, hseq, hlength]
      push_cast
      omega

/-! ## Ranges -/

theorem mem_select {log : AuditLog jsonb} {community : Uuid} {lo hi : Seq64} {r : Row jsonb} :
    r ∈ select log community lo hi ↔ r ∈ log.rows ∧ r.community_id = community ∧ lo.1 ≤ r.seq.1 ∧ r.seq.1 ≤ hi.1 := by
  rw [select, Table.mem_ordered, List.mem_filter, decide_eq_true_eq]

theorem nodup_seq (log : AuditLog jsonb) (community : Uuid) (p : Row jsonb → Bool) (hp : ∀ {r}, p r = true → r.community_id = community) :
    ((log.rows.filter p).map (fun r => r.seq.1)).Nodup := by
  have hkeys : ((log.rows.filter p).map Row.key).Nodup := log.nodup.sublist (List.filter_sublist.map _)
  refine List.Nodup.of_map (fun n => ((community, n) : Uuid × Int)) ?_
  rw [List.map_map]
  refine List.pairwise_map.2 ((List.pairwise_map.1 hkeys).imp_of_mem fun {a b} ha hb hne heq => hne ?_)
  have hseq : a.seq.1 = b.seq.1 := (Prod.mk.inj heq).2
  rw [Row.key, Row.key, hp (List.mem_filter.1 ha).2, hp (List.mem_filter.1 hb).2, Subtype.ext hseq]

theorem select_lt (log : AuditLog jsonb) (community : Uuid) (lo hi : Seq64) :
    (select log community lo hi).Pairwise (fun a b => a.seq.1 < b.seq.1) :=
  Table.strict_ordered (nodup_seq log community _ (fun hr => (of_decide_eq_true hr).1))

/-- A range is the one list in order that has its rows. -/
theorem select_eq {log : AuditLog jsonb} {community : Uuid} {lo hi : Seq64} {l : List (Row jsonb)}
    (hl : l.Pairwise (fun a b => a.seq.1 < b.seq.1))
    (hmem : ∀ r, r ∈ l ↔ r ∈ log.rows ∧ r.community_id = community ∧ lo.1 ≤ r.seq.1 ∧ r.seq.1 ≤ hi.1) :
    select log community lo hi = l := by
  have hirrefl : Std.Irrefl (fun a b : Row jsonb => a.seq.1 < b.seq.1) := ⟨fun a => Int.lt_irrefl _⟩
  have hanti : Std.Antisymm (fun a b : Row jsonb => a.seq.1 < b.seq.1) := ⟨fun a b hab hba => absurd hab (Int.lt_asymm hba)⟩
  exact (select_lt log community lo hi).eq_of_mem_iff hl (fun r => mem_select.trans (hmem r).symm)

/-- The range of one number. -/
theorem select_one {log : AuditLog jsonb} {community : Uuid} {seq : Seq64} {r : Row jsonb} (hr : r ∈ log.rows)
    (hkey : r.key = (community, seq)) : select log community seq seq = [r] := by
  obtain ⟨hrc, hrn⟩ := Prod.mk.inj hkey
  refine select_eq (List.pairwise_singleton _ _) (fun q => ?_)
  rw [List.mem_singleton]
  constructor
  · rintro rfl
    rw [hrn]
    exact ⟨hr, hrc, Int.le_refl _, Int.le_refl _⟩
  · rintro ⟨hq, hqc, hlo, hhi⟩
    refine List.inj_on_of_nodup_map log.nodup hq hr ?_
    rw [hkey, Row.key, hqc, Subtype.ext (Int.le_antisymm hhi hlo)]

/-- The range that starts at one of the rows. -/
theorem select_from {log : AuditLog jsonb} {community : Uuid} {lo hi : Seq64} {front rest : List (Row jsonb)} {a : Row jsonb}
    (h : select log community lo hi = front ++ a :: rest) : select log community a.seq hi = a :: rest := by
  have hlt := select_lt log community lo hi
  rw [h] at hlt
  obtain ⟨-, hrest, hfront⟩ := List.pairwise_append.1 hlt
  have hmem : ∀ r, r ∈ front ++ a :: rest ↔ r ∈ log.rows ∧ r.community_id = community ∧ lo.1 ≤ r.seq.1 ∧ r.seq.1 ≤ hi.1 :=
    fun r => by rw [← h, mem_select]
  refine select_eq hrest (fun r => ⟨fun hr => ?_, fun ⟨hlog, hc, hlo, hhi⟩ => ?_⟩)
  · obtain ⟨hlog, hc, -, hhi⟩ := (hmem r).1 (List.mem_append_right _ hr)
    refine ⟨hlog, hc, ?_, hhi⟩
    rcases List.mem_cons.1 hr with rfl | hr
    · exact Int.le_refl _
    · exact Int.le_of_lt ((List.pairwise_cons.1 hrest).1 r hr)
  · have ha := (hmem a).1 (List.mem_append_right _ List.mem_cons_self)
    rcases List.mem_append.1 ((hmem r).2 ⟨hlog, hc, by omega, hhi⟩) with hr | hr
    · have := hfront r hr a List.mem_cons_self
      omega
    · exact hr

theorem le_getLast {l : List (Row jsonb)} (h : l.Pairwise (fun a b => a.seq.1 < b.seq.1)) {a : Row jsonb} (ha : a ∈ l.getLast?) :
    ∀ r ∈ l, r.seq.1 ≤ a.seq.1 := by
  intro r hr
  obtain ⟨front, rfl⟩ := List.getLast?_eq_some_iff.1 ha
  rcases List.mem_append.1 hr with hr | hr
  · exact Int.le_of_lt ((List.pairwise_append.1 h).2.2 r hr a (List.mem_singleton.2 rfl))
  · rw [List.mem_singleton.1 hr]

section
variable {s : Audited jsonb} {community : Uuid} {chain : List (AuditEntry × Row jsonb)}
    (hchain : Chained jsonb compute_hash community chain)
    (hrows : s.log.rows.filter (fun r => r.community_id = community) = (chain.map (·.2)).reverse)
include hchain hrows

omit hchain in
theorem mem_rows_iff {r : Row jsonb} : r ∈ s.log.rows ∧ r.community_id = community ↔ r ∈ chain.map (·.2) := by
  have hmem : r ∈ s.log.rows.filter (fun r => r.community_id = community) ↔ r ∈ (chain.map (·.2)).reverse := by rw [hrows]
  rw [List.mem_filter, decide_eq_true_eq, List.mem_reverse] at hmem
  exact hmem

/-- The original rows of a range. -/
theorem select_original (lo hi : Seq64) : select s.log community lo hi =
    ((chain.map (·.2)).filter (fun r => lo.1 ≤ r.seq.1 ∧ r.seq.1 ≤ hi.1)).reverse := by
  refine select_eq (List.pairwise_reverse.2 (hchain.seq_lt.sublist List.filter_sublist)) (fun r => ?_)
  rw [List.mem_reverse, List.mem_filter, decide_eq_true_eq, ← mem_rows_iff hrows]
  tauto

theorem original_linked (lo hi : Seq64) : (select s.log community lo hi).IsChain (fun a b => Backlink b a) := by
  rw [select_original hchain hrows, List.isChain_reverse]
  exact hchain.linked lo.1 hi.1

/-- A range that holds the original rows alone, all of them given back as they were written, verifies. -/
theorem verify_original (hb : Binds compute_hash) {later : AuditLog jsonb} {lo hi : Seq64}
    (heq : select later community lo hi = select s.log community lo hi) (hne : select later community lo hi ≠ [])
    (hback : ∀ p ∈ chain, p.2 ∈ later.rows → jsonb.read_back p.1.detail = some p.1.detail) :
    verify_chain compute_hash later community lo hi = .ok true := by
  rw [verify_chain, if_neg hne, verify_rows_iff]
  have horiginal := select_original hchain hrows lo hi
  refine ⟨fun r hr => ?_, ?_, fun _ h => by cases h⟩
  · have hlater := (mem_select.1 hr).1
    rw [heq, horiginal, List.mem_reverse] at hr
    obtain ⟨p, hp, rfl⟩ := List.mem_map.1 (List.mem_filter.1 hr).1
    obtain ⟨-, hhash, hrow⟩ := hchain.of_mem p hp
    exact sound_of_bind hb hrow hhash (hback p hp hlater)
  · rw [heq]
    exact original_linked hchain hrows lo hi

/-- What verifies and ends in an original row is made of the last rows of the original range. -/
theorem suffix_of_verified (hb : Binds compute_hash) {later : AuditLog jsonb} {one n : Seq64} (hone : one.1 = 1)
    (hok : verify_chain compute_hash later community one n = .ok true) {r r' : Row jsonb} (hr : r ∈ s.log.rows)
    (hrc : r.community_id = community) (hrn : r.seq = n) (hr' : r' ∈ later.rows) (hrc' : r'.community_id = community) (hrn' : r'.seq = n)
    (hhash : r'.hash = r.hash) : select later community one n <:+ select s.log community one n := by
  rw [verify_chain] at hok
  obtain ⟨hne, hok⟩ : select later community one n ≠ [] ∧ verify_rows compute_hash none (select later community one n) = .ok true := by
    split at hok
    · cases hok
    · exact ⟨‹_›, hok⟩
  obtain ⟨hsound, hlinked, -⟩ := verify_rows_iff.1 hok
  obtain ⟨p, hp, rfl⟩ := List.mem_map.1 ((mem_rows_iff hrows).1 ⟨hr, hrc⟩)
  obtain ⟨newer, older, rfl⟩ := List.append_of_mem hp
  obtain ⟨hold, hnewer⟩ := hchain.tail
  have hlength : n.1 = (p :: older).length := by
    cases hold with
    | cons hcommunity hseq hprev hhash hrow hrest => rw [← hrn, (bind_eq_some hrow).2.1, hseq, List.length_cons, Nat.cast_add_one]
  have horiginal : select s.log community one n = ((p :: older).map (·.2)).reverse := by
    refine select_eq (List.pairwise_reverse.2 hold.seq_lt) (fun q => ?_)
    rw [List.mem_reverse, ← and_assoc, mem_rows_iff hrows, List.map_append, List.mem_append]
    constructor
    · intro hq
      obtain ⟨o, ho, rfl⟩ := List.mem_map.1 hq
      obtain ⟨hoseq, hlo, hhi⟩ := hold.seq_of_mem o ho
      rw [hoseq]
      exact ⟨.inr hq, by omega, by omega⟩
    · rintro ⟨hq | hq, -, hle⟩
      · obtain ⟨o, ho, rfl⟩ := List.mem_map.1 hq
        have := hnewer o ho
        omega
      · exact hq
  have hm : ((p :: older).map (·.2)).IsChain Backlink := by
    have hlink := original_linked hchain hrows one n
    rw [horiginal] at hlink
    exact List.isChain_reverse.1 hlink
  rw [horiginal, ← List.reverse_prefix, List.reverse_reverse]
  refine @prefix_of_backlinks _ _ Row.hash Row.prev_hash _ _ ?_ hm hold.first (fun a ha b hbm heq => ?_) (fun a ha => ?_)
  · exact List.isChain_reverse.2 hlinked
  · obtain ⟨q, hq, rfl⟩ := List.mem_map.1 hbm
    obtain ⟨-, hqhash, hqrow⟩ := hold.of_mem q hq
    exact (sound_eq hb hqrow hqhash (hsound a (List.mem_reverse.1 ha)) heq).1
  · -- the last row that was read is the one with number `n`
    rw [List.head?_reverse] at ha
    have hmem := List.mem_of_mem_getLast? ha
    obtain ⟨hlater, hcommunity, -, hle⟩ := mem_select.1 hmem
    have hmem' : r' ∈ select later community one n := by
      refine mem_select.2 ⟨hr', hrc', ?_, hrn' ▸ Int.le_refl _⟩
      rw [hrn', hlength, hone, List.length_cons]
      omega
    have hge := le_getLast (select_lt later community one n) ha r' hmem'
    have hkey : a.key = r'.key := by
      rw [hrn'] at hge
      rw [Row.key, Row.key, hcommunity, hrc', hrn', Subtype.ext (Int.le_antisymm hle hge)]
    obtain rfl := List.inj_on_of_nodup_map later.nodup hlater hr' hkey
    obtain ⟨-, hphash, hprow⟩ := hold.of_mem p List.mem_cons_self
    rw [(sound_eq hb hprow hphash (hsound a hmem) hhash).1]
    rfl
end

/-! ## What `verify_chain` notices -/

def first_seq : Seq64 := ⟨1, one_fits⟩

section
variable (compute_hash : AuditEntry → Bytes) (s : Audited jsonb) (later : AuditLog jsonb) (community : Uuid)

/-- A range that verifies, the hash of its last row being the original one, holds the original rows. -/
def Detects (n : Seq64) : Prop :=
  verify_chain compute_hash later community first_seq n = .ok true →
    (∃ r ∈ s.log.rows, ∃ r' ∈ later.rows, r.key = (community, n) ∧ r'.key = (community, n) ∧ r'.hash = r.hash) →
      select later community first_seq n = select s.log community first_seq n

/-- Every range that holds its original rows verifies. -/
def Accepts : Prop :=
  ∀ lo hi, select later community lo hi = select s.log community lo hi → select later community lo hi ≠ [] →
    verify_chain compute_hash later community lo hi = .ok true

/-- The column gives back the details of the rows that are still there as they were written. -/
def ReadBack : Prop :=
  ∀ e ∈ s.written, e.community_id = community → (∃ r ∈ later.rows, r ∈ s.log.rows ∧ r.key = (community, e.seq)) →
    jsonb.read_back e.detail = some e.detail

/-- Of the rows up to `n` the oldest are gone, and the others are all there and the original ones. -/
def FrontGone (n : Seq64) : Prop :=
  (∃ r ∈ s.log.rows, r.key = (community, n)) ∧ ∃ k, 0 < k ∧ select later community first_seq n ≠ [] ∧
    select later community first_seq n = (select s.log community first_seq n).drop k
end

/-- What is left when the oldest rows are gone ends in the row it ended in. -/
theorem last_of_drop {s : Audited jsonb} {later : AuditLog jsonb} {community : Uuid} {n : Seq64} {r : Row jsonb} {k : Nat}
    (hr : r ∈ s.log.rows) (hkey : r.key = (community, n)) (hn : 1 ≤ n.1) (hne : select later community first_seq n ≠ [])
    (heq : select later community first_seq n = (select s.log community first_seq n).drop k) : r ∈ later.rows := by
  obtain ⟨hrc, hrn⟩ := Prod.mk.inj hkey
  have hmem : r ∈ select s.log community first_seq n := mem_select.2 ⟨hr, hrc, by rw [hrn]; exact hn, by rw [hrn]⟩
  have ha := List.getLast?_eq_some_getLast hne
  generalize (select later community first_seq n).getLast hne = a at ha
  have hlast : a ∈ (select s.log community first_seq n).getLast? := by
    rw [heq, List.getLast?_drop] at ha
    split at ha
    · cases ha
    · exact ha
  have hge := le_getLast (select_lt s.log community first_seq n) hlast r hmem
  obtain ⟨has, hac, -, hle⟩ := mem_select.1 (List.mem_of_mem_getLast? hlast)
  have hone : a.key = r.key := by
    rw [hrn] at hge
    rw [hkey, Row.key, hac, Subtype.ext (Int.le_antisymm hle hge)]
  rw [← List.inj_on_of_nodup_map s.log.nodup has hr hone]
  exact (mem_select.1 (List.mem_of_mem_getLast? ha)).1

theorem front_gone_of_suffix {s : Audited jsonb} {later : AuditLog jsonb} {community : Uuid} {n : Seq64} {r : Row jsonb}
    (hr : r ∈ s.log.rows) (hkey : r.key = (community, n)) (hne : select later community first_seq n ≠ [])
    (h : select later community first_seq n <:+ select s.log community first_seq n)
    (hdiff : select later community first_seq n ≠ select s.log community first_seq n) : FrontGone s later community n := by
  obtain ⟨front, hfront⟩ := h
  refine ⟨⟨r, hr, hkey⟩, front.length, ?_, hne, by rw [← hfront, List.drop_left]⟩
  rcases front with _ | ⟨a, front⟩
  · exact absurd hfront hdiff
  · exact Nat.succ_pos _

end

/-! ## A log of two entries -/

namespace AuditEntry

def bytes_value (bytes : Bytes) : Value := .array (bytes.map (fun b => .integer b.toNat))

def option_value {α : Type} (f : α → Value) (o : Option α) : Value := .array (o.map f).toList

def time_value (t : DateTime) : Value :=
  .array ([t.year, t.month, t.day, t.hour, t.minute, t.second, t.nanosecond].map Value.integer)

/-- All the fields. -/
def value (e : AuditEntry) : Value :=
  .array [.integer e.community_id.toNat, .integer e.seq.1, bytes_value e.hash, option_value bytes_value e.prev_hash,
    .string e.action.as_str, option_value bytes_value e.actor_pubkey, option_value Value.string e.object_id, e.detail.1,
    time_value e.created_at]

theorem bytes_value_inj {a b : Bytes} (h : bytes_value a = bytes_value b) : a = b := by
  refine List.map_injective_iff.2 (fun x y hxy => ?_) (Value.array.inj h)
  exact UInt8.toNat_inj.1 (Int.ofNat.inj (Value.integer.inj hxy))

theorem option_value_inj {α : Type} {f : α → Value} (hf : Function.Injective f) {a b : Option α}
    (h : option_value f a = option_value f b) : a = b := by
  cases a <;> cases b
  · rfl
  · cases Value.array.inj h
  · cases Value.array.inj h
  · rw [hf (List.cons.inj (Value.array.inj h)).1]

theorem time_value_inj {a b : DateTime} (h : time_value a = time_value b) : a = b := by
  cases a
  cases b
  simp [time_value] at h ⊢
  omega

theorem value_inj {a b : AuditEntry} (h : value a = value b) : a = b := by
  simp only [value, Value.array.injEq, List.cons.injEq, Value.integer.injEq, Value.string.injEq, and_true] at h
  obtain ⟨hcommunity, hseq, hhash, hprev, haction, hactor, hobject, hdetail, htime⟩ := h
  have hbytes : Function.Injective bytes_value := fun a b => bytes_value_inj
  have haction := AuditAction.as_str_prefixFree.injective (congrArg String.toList haction)
  cases a
  cases b
  simp only [AuditEntry.mk.injEq]
  exact ⟨BitVec.eq_of_toNat_eq (Int.ofNat.inj hcommunity), Subtype.ext hseq, bytes_value_inj hhash, option_value_inj hbytes hprev,
    haction, option_value_inj hbytes hactor, option_value_inj (fun s t => Value.string.inj) hobject, Subtype.ext hdetail,
    time_value_inj htime⟩

end AuditEntry

/-- A hash of all the fields that tells them apart. -/
def plain_hash (entry : AuditEntry) : Bytes := utf8 entry.hashed.value.code

theorem plain_hash_binds : Binds plain_hash := fun a b =>
  ⟨fun h => AuditEntry.value_inj (Value.code_injective (utf8_inj h)), fun h => by rw [plain_hash, plain_hash, h]⟩

/-- A column that gives back what it was given. -/
def Jsonb.plain : Jsonb where
  read_back v := some v
  idem _ _ _ := rfl

def two_calls : List (NewAuditEntry × DateTime) :=
  let new : NewAuditEntry := ⟨1, .EventCreated, none, some "a", ⟨.null, null_ordered⟩⟩
  [(new, sample_entry.created_at), ({ new with action := .EventDeleted }, sample_entry.created_at)]

def second_seq : Seq64 := ⟨2, by decide⟩

theorem two_calls_run : (two_calls.foldlM (Audited.append plain_hash) (Audited.start Jsonb.plain)).isSome = true := by decide +kernel

/-- The log after `two_calls`. -/
def two_entries : Audited Jsonb.plain :=
  (two_calls.foldlM (Audited.append plain_hash) (Audited.start Jsonb.plain)).get two_calls_run

theorem run_two_entries : Run (Appends plain_hash) (Audited.start Jsonb.plain) two_calls two_entries :=
  Run.of_foldlM (Option.some_get two_calls_run).symm

theorem communities_are_sequential_two : Sequential plain_hash (two_entries.written.filter (fun e => e.community_id = 1)) :=
  communities_are_sequential plain_hash_binds run_two_entries 1

end Ambush.Audit

import Ambush.Bridge.Events
import Ambush.Lib.Ints
import Ambush.Lib.Picking
import Mathlib.Data.Finset.Insert
/-!
# The dead-letter of the alarm drainer

A record the relay refuses for good is moved out of the spool into a ledger, one entry for each piece of work, and tried again when the
live spool has nothing. What each operation does to the entries is said here: which there are, in which order, and with which stamps.
-/
open Lib

namespace Ambush.Bridge

/-- A parked record is retried no sooner than this after it was parked or last retried. -/
def PARKED_RETRY_INTERVAL_MS : Int := 30000

def PARKED_CAPACITY : Nat := 256

inductive ParkReason where
  | RefusalBudgetExhausted (last : String)
  deriving DecidableEq

/-- What a parked record is about. -/
inductive ParkSubject where
  | Hold (hold_id : String)
  | Case (case_id : String)
  | Unknown
  deriving DecidableEq

/-- Both name the same hold, or the same case. -/
def ParkSubject.is_same_work : ParkSubject → ParkSubject → Bool
  | .Hold left, .Hold right => left = right
  | .Case left, .Case right => left = right
  | _, _ => false

abbrev ParkKey := IssuerIdx × Seq

structure ParkedRecord where
  issuer : IssuerIdx
  seq : Seq
  payload : Bytes
  parked_at_ms : Int
  retries : Nat
  reason : ParkReason
  subject : ParkSubject
  unreadable : Bool
  deriving DecidableEq

namespace ParkedRecord

def key (r : ParkedRecord) : ParkKey := (r.issuer, r.seq)

def is_due (r : ParkedRecord) (now_ms interval_ms : Int) : Bool := satAddI r.parked_at_ms interval_ms ≤ now_ms

end ParkedRecord

/-- The entries of the ledger, in the order they were written. -/
abbrev ParkedLedger := List ParkedRecord

namespace ParkedLedger

-- the order of the stamps, under which a least one is computed
local instance stampPreorder : Preorder Int := Int.instLinearOrder.toPartialOrder.toPreorder

/-- The record parked longest ago: of equal ones the first. -/
def oldest (l : ParkedLedger) : Option ParkedRecord := l.argmin ParkedRecord.parked_at_ms

/-- The entries a new one is not the same work as. -/
def others (l : ParkedLedger) (record : ParkedRecord) : ParkedLedger :=
  l.filter (fun held => held.key ≠ record.key && !held.subject.is_same_work record.subject)

def park (l : ParkedLedger) (record : ParkedRecord) : ParkedLedger × Option ParkedRecord :=
  let records := others l record ++ [record]
  if records.length > PARKED_CAPACITY then
    match oldest records with
    | some evicted => (records.erase evicted, some evicted)
    | none => (records, none)
  else (records, none)

def candidates (l : ParkedLedger) (now_ms interval_ms : Int) (skip : Finset ParkKey) : ParkedLedger :=
  l.filter (fun record => !record.unreadable && decide (record.key ∉ skip) && record.is_due now_ms interval_ms)

def next_due (l : ParkedLedger) (now_ms interval_ms : Int) (skip : Finset ParkKey) : Option ParkedRecord :=
  (candidates l now_ms interval_ms skip).argmin ParkedRecord.parked_at_ms

def remove (l : ParkedLedger) (key : ParkKey) : ParkedLedger := l.filter (fun record => record.key ≠ key)

/-- `iter_mut().find(..)` and a change to what is found. -/
def change_first (p : ParkedRecord → Bool) (f : ParkedRecord → ParkedRecord) : ParkedLedger → ParkedLedger
  | [] => []
  | r :: rest => if p r then f r :: rest else r :: change_first p f rest

def mark_unreadable (l : ParkedLedger) (key : ParkKey) : ParkedLedger :=
  change_first (fun record => record.key = key && !record.unreadable) (fun record => { record with unreadable := true }) l

def touch (l : ParkedLedger) (key : ParkKey) (now_ms : Int) : ParkedLedger :=
  change_first (fun record => record.key = key)
    (fun record => { record with retries := min (record.retries + 1) 4294967295, parked_at_ms := now_ms }) l

/-! ## One entry each -/

/-- No two entries have one key, or one known subject. -/
structure OneEntryEach (l : ParkedLedger) : Prop where
  keys : (l.map ParkedRecord.key).Nodup
  subjects : l.Pairwise (fun a b => ParkSubject.is_same_work a.subject b.subject = false)

/-- All but the entries under one key are as they were, in the order they were in. -/
structure ChangedAt (k : ParkKey) (l l' : ParkedLedger) : Prop where
  kept : ∀ xs : List ParkedRecord, xs.Sublist l → (∀ x ∈ xs, x.key ≠ k) → xs.Sublist l'
  only : ∀ r ∈ l', r.key ≠ k → r ∈ l

variable {l l' : ParkedLedger} {k : ParkKey} {r a b : ParkedRecord}

theorem OneEntryEach.sublist (h : OneEntryEach l) (hsub : l'.Sublist l) : OneEntryEach l' :=
  ⟨h.keys.sublist (hsub.map _), h.subjects.sublist hsub⟩

theorem OneEntryEach.eq_of_key (h : OneEntryEach l) (ha : a ∈ l) (hb : b ∈ l) (hkey : a.key = b.key) : a = b :=
  List.inj_on_of_nodup_map h.keys ha hb hkey

theorem ChangedAt.refl (k : ParkKey) (l : ParkedLedger) : ChangedAt k l l := ⟨fun _ h _ => h, fun _ h _ => h⟩

theorem ChangedAt.mem_iff (h : ChangedAt k l l') (hr : r.key ≠ k) : r ∈ l' ↔ r ∈ l := by
  refine ⟨fun hmem => h.only r hmem hr, fun hmem => ?_⟩
  have hsub := h.kept [r] (List.singleton_sublist.2 hmem) (fun x hx => by rw [List.mem_singleton.1 hx]; exact hr)
  exact hsub.subset (by simp)

theorem changed_remove (l : ParkedLedger) (k : ParkKey) : ChangedAt k l (remove l k) where
  kept xs hxs hne := by
    have hsub := hxs.filter (fun record => decide (record.key ≠ k))
    rwa [List.filter_eq_self.2 (fun x hx => decide_eq_true (hne x hx))] at hsub
  only r hr _ := (List.mem_filter.1 hr).1

theorem one_entry_remove (h : OneEntryEach l) (k : ParkKey) : OneEntryEach (remove l k) := h.sublist List.filter_sublist

section
variable {p : ParkedRecord → Bool} {f : ParkedRecord → ParkedRecord}

theorem map_change_first {β : Type} {g : ParkedRecord → β} (hf : ∀ r, g (f r) = g r) (l : ParkedLedger) :
    (change_first p f l).map g = l.map g := by
  induction l with
  | nil => rfl
  | cons x l ih =>
    rw [change_first]
    split
    · rw [List.map_cons, List.map_cons, hf]
    · rw [List.map_cons, List.map_cons, ih]

theorem mem_change_first (h : r ∈ change_first p f l) : r ∈ l ∨ ∃ x ∈ l, p x = true ∧ r = f x := by
  induction l with
  | nil => cases h
  | cons x l ih =>
    rw [change_first] at h
    split at h
    · next hp =>
      rcases List.mem_cons.1 h with rfl | h
      · exact .inr ⟨x, by simp, hp, rfl⟩
      · exact .inl (List.mem_cons_of_mem _ h)
    · rcases List.mem_cons.1 h with rfl | h
      · exact .inl (by simp)
      · rcases ih h with h | ⟨y, hy, hp, rfl⟩
        · exact .inl (List.mem_cons_of_mem _ h)
        · exact .inr ⟨y, List.mem_cons_of_mem _ hy, hp, rfl⟩

theorem sublist_change_first {xs : List ParkedRecord} (h : xs.Sublist l) (hp : ∀ x ∈ xs, p x = false) :
    xs.Sublist (change_first p f l) := by
  induction h with
  | slnil => exact List.nil_sublist _
  | cons x hsub ih =>
    rw [change_first]
    split
    · exact hsub.cons _
    · exact (ih hp).cons _
  | cons_cons x _ ih =>
    rw [change_first, if_neg (by rw [hp x (by simp)]; exact Bool.false_ne_true)]
    exact (ih (fun y hy => hp y (List.mem_cons_of_mem _ hy))).cons_cons x

theorem changed_change_first (hkey : ∀ r, p r = true → r.key = k) (hf : ∀ r, (f r).key = r.key) (l : ParkedLedger) :
    ChangedAt k l (change_first p f l) where
  kept xs hxs hne := sublist_change_first hxs (fun x hx => Bool.eq_false_iff.2 fun hp => hne x hx (hkey x hp))
  only r hr hne := by
    rcases mem_change_first hr with hr | ⟨x, _, hp, rfl⟩
    · exact hr
    · exact absurd ((hf x).trans (hkey x hp)) hne

theorem one_entry_change_first (h : OneEntryEach l) (hf : ∀ r, (f r).key = r.key) (hsubject : ∀ r, (f r).subject = r.subject) :
    OneEntryEach (change_first p f l) where
  keys := by
    rw [map_change_first hf]
    exact h.keys
  subjects := by
    have hmap : ∀ m : ParkedLedger, m.Pairwise (fun a b => ParkSubject.is_same_work a.subject b.subject = false) ↔
        (m.map ParkedRecord.subject).Pairwise (fun a b => ParkSubject.is_same_work a b = false) := fun m =>
      (List.pairwise_map (R := fun a b => ParkSubject.is_same_work a b = false)).symm
    rw [hmap, map_change_first hsubject, ← hmap]
    exact h.subjects

end

theorem changed_touch (l : ParkedLedger) (k : ParkKey) (now_ms : Int) : ChangedAt k l (touch l k now_ms) := by
  refine changed_change_first (fun r hr => ?_) (fun r => ?_) l
  · exact of_decide_eq_true hr
  · rfl

theorem one_entry_touch (h : OneEntryEach l) (k : ParkKey) (now_ms : Int) : OneEntryEach (touch l k now_ms) :=
  one_entry_change_first h (fun _ => rfl) (fun _ => rfl)

/-- The entry that was touched has the new stamp. -/
theorem stamp_of_touch (h : OneEntryEach l) {now_ms : Int} (hr : r ∈ touch l k now_ms) (hkey : r.key = k) : r.parked_at_ms = now_ms := by
  unfold touch at hr
  have hkeys := h.keys
  clear h
  induction l with
  | nil => cases hr
  | cons x l ih =>
    rw [List.map_cons, List.nodup_cons] at hkeys
    rw [change_first] at hr
    split at hr
    · next hp =>
      rcases List.mem_cons.1 hr with rfl | hr
      · rfl
      · exact absurd (List.mem_map.2 ⟨r, hr, hkey.trans (of_decide_eq_true hp).symm⟩) hkeys.1
    · next hp =>
      rcases List.mem_cons.1 hr with rfl | hr
      · exact absurd (decide_eq_true hkey) hp
      · exact ih hr hkeys.2

theorem changed_mark_unreadable (l : ParkedLedger) (k : ParkKey) : ChangedAt k l (mark_unreadable l k) := by
  refine changed_change_first (fun r hr => ?_) (fun r => ?_) l
  · exact of_decide_eq_true (Bool.and_eq_true_iff.1 hr).1
  · rfl

theorem one_entry_mark_unreadable (h : OneEntryEach l) (k : ParkKey) : OneEntryEach (mark_unreadable l k) :=
  one_entry_change_first h (fun _ => rfl) (fun _ => rfl)

theorem unreadable_of_mark (h : OneEntryEach l) (hr : r ∈ mark_unreadable l k) (hkey : r.key = k) : r.unreadable = true := by
  unfold mark_unreadable at hr
  have hkeys := h.keys
  clear h
  induction l with
  | nil => cases hr
  | cons x l ih =>
    rw [List.map_cons, List.nodup_cons] at hkeys
    rw [change_first] at hr
    split at hr
    · next hp =>
      rcases List.mem_cons.1 hr with rfl | hr
      · rfl
      · exact absurd (List.mem_map.2 ⟨r, hr, hkey.trans (of_decide_eq_true (Bool.and_eq_true_iff.1 hp).1).symm⟩) hkeys.1
    · next hp =>
      rcases List.mem_cons.1 hr with rfl | hr
      · cases hmark : r.unreadable with
        | true => rfl
        | false => exact absurd (by rw [decide_eq_true hkey, hmark]; rfl) hp
      · exact ih hr hkeys.2

/-! ## Parking -/

theorem others_sublist (l : ParkedLedger) (record : ParkedRecord) : (others l record).Sublist l := List.filter_sublist

theorem one_entry_others (h : OneEntryEach l) (record : ParkedRecord) : OneEntryEach (others l record ++ [record]) where
  keys := by
    rw [List.map_append, List.nodup_append]
    refine ⟨(h.sublist (others_sublist l record)).keys, List.nodup_singleton _, fun k hk k' hk' => ?_⟩
    obtain ⟨held, hheld, rfl⟩ := List.mem_map.1 hk
    rw [List.mem_singleton.1 hk']
    exact of_decide_eq_true (Bool.and_eq_true_iff.1 (List.mem_filter.1 hheld).2).1
  subjects := by
    rw [List.pairwise_append]
    refine ⟨(h.sublist (others_sublist l record)).subjects, List.pairwise_singleton _ _, fun held hheld r hr => ?_⟩
    rw [List.mem_singleton.1 hr]
    have hother := (Bool.and_eq_true_iff.1 (List.mem_filter.1 hheld).2).2
    rwa [Bool.not_eq_true'] at hother

/-- What is left after a park is what was written but the one that is returned. -/
theorem park_eq (l : ParkedLedger) (record : ParkedRecord) :
    (park l record = (others l record ++ [record], none) ∧ (others l record ++ [record]).length ≤ PARKED_CAPACITY) ∨
      ∃ evicted ∈ others l record ++ [record], park l record = ((others l record ++ [record]).erase evicted, some evicted) := by
  unfold park
  dsimp only
  split
  · next hfull =>
    cases hold : oldest (others l record ++ [record]) with
    | none =>
      have hnil := List.argmin_eq_none.1 hold
      simp at hnil
    | some evicted => exact .inr ⟨evicted, List.argmin_mem hold, rfl⟩
  · next hroom => exact .inl ⟨rfl, not_lt.1 hroom⟩

theorem park_sublist (l : ParkedLedger) (record : ParkedRecord) : (park l record).1.Sublist (others l record ++ [record]) := by
  rcases park_eq l record with ⟨heq, -⟩ | ⟨evicted, _, heq⟩
  · rw [heq]
  · rw [heq]
    exact List.erase_sublist

/-- The entries that a park leaves are in the order they were in. -/
theorem sublist_park (h : OneEntryEach l) {record : ParkedRecord} {xs : List ParkedRecord} (hxs : xs.Sublist l)
    (hleft : ∀ x ∈ xs, x ≠ record ∧ x ∈ (park l record).1) : xs.Sublist (park l record).1 := by
  have hothers : xs.Sublist (others l record ++ [record]) := by
    have hfiltered := hxs.filter (fun held => decide (held.key ≠ record.key) && !held.subject.is_same_work record.subject)
    rw [List.filter_eq_self.2 (fun x hx => ?_)] at hfiltered
    · exact hfiltered.trans (List.sublist_append_left _ _)
    · rcases List.mem_append.1 ((park_sublist l record).subset (hleft x hx).2) with hother | hself
      · exact (List.mem_filter.1 hother).2
      · exact absurd (List.mem_singleton.1 hself) (hleft x hx).1
  rcases park_eq l record with ⟨heq, -⟩ | ⟨evicted, _, heq⟩
  · rw [heq]
    exact hothers
  · rw [heq] at hleft ⊢
    have hnodup : (others l record ++ [record]).Nodup := List.Nodup.of_map _ (one_entry_others h record).keys
    have herased := hothers.erase evicted
    rwa [List.erase_of_not_mem fun hmem => (List.Nodup.mem_erase_iff hnodup).1 (hleft evicted hmem).2 |>.1 rfl] at herased

theorem one_entry_park (h : OneEntryEach l) (record : ParkedRecord) : OneEntryEach (park l record).1 :=
  (one_entry_others h record).sublist (park_sublist l record)

end ParkedLedger
end Ambush.Bridge

import Mathlib.Data.List.Nodup
import Mathlib.Data.List.Sort
import Mathlib.Data.Int.Order.Basic
/-!
# Tables with a primary key, and transactions

A table is the list of its rows, and no two of them have the same key. A statement that
writes gives the table back, or says that it affected no row. A transaction reads and writes
a database and may fail; what it wrote counts only if it succeeds.
-/
namespace Lib

/-! ## Tables -/

structure Table {R K : Type} (key : R → K) where
  rows : List R
  nodup : (rows.map key).Nodup

namespace Table
variable {R K : Type} {key : R → K}

def empty : Table key := ⟨[], List.nodup_nil⟩

/-- `DELETE FROM t WHERE p`. -/
def delete (t : Table key) (p : R → Bool) : Table key :=
  ⟨t.rows.filter (fun r => !p r), t.nodup.sublist (List.filter_sublist.map key)⟩

variable [DecidableEq K]

/-- `SELECT * FROM t WHERE key = k`. -/
def get (t : Table key) (k : K) : Option R := t.rows.find? (fun r => key r = k)

/-- The row of `WHERE key = k AND p`. -/
def select (t : Table key) (k : K) (p : R → Bool) : Option R := (t.get k).filter p

/-- `UPDATE t SET .. WHERE key = k`, given the row it leaves under `k`. -/
def replace (t : Table key) (r : R) : Table key where
  rows := t.rows.map (fun q => if key q = key r then r else q)
  nodup := by
    have hkeys : (t.rows.map (fun q => if key q = key r then r else q)).map key = t.rows.map key := by
      rw [List.map_map]
      refine List.map_congr_left fun q _ => ?_
      simp only [Function.comp_apply]
      split
      case isTrue h => exact h.symm
      case isFalse => rfl
    rw [hkeys]
    exact t.nodup

/-- `INSERT INTO t`: refused when the key is taken. -/
def insert (t : Table key) (r : R) : Option (Table key) :=
  if h : key r ∈ t.rows.map key then none
  else some ⟨t.rows ++ [r], by
    rw [List.map_append]
    exact List.nodup_append_comm.1 (List.nodup_cons.2 ⟨h, t.nodup⟩)⟩

/-- `INSERT INTO t .. ON CONFLICT DO UPDATE`. -/
def upsert (t : Table key) (r : R) : Table key := (t.insert r).getD (t.replace r)

/-- The first of the rows in an order, `ORDER BY .. LIMIT 1`. -/
def first (before : R → R → Bool) : List R → Option R
  | [] => none
  | r :: rest => some (rest.foldl (fun best q => if before q best then q else best) r)

/-! ### What a table has under a key -/

theorem get_eq_some {t : Table key} {k : K} {r : R} : t.get k = some r ↔ r ∈ t.rows ∧ key r = k := by
  constructor
  · intro h
    exact ⟨List.mem_of_find?_eq_some h, by simpa using List.find?_some h⟩
  · rintro ⟨hr, rfl⟩
    have hsome : (t.get (key r)).isSome := List.find?_isSome.2 ⟨r, hr, by simp⟩
    obtain ⟨q, hq⟩ := Option.isSome_iff_exists.1 hsome
    have hkey : key q = key r := by simpa using List.find?_some hq
    rw [hq, List.inj_on_of_nodup_map t.nodup (List.mem_of_find?_eq_some hq) hr hkey]

/-- At most one row has the key. -/
theorem filter_key (t : Table key) (k : K) : t.rows.filter (fun r => key r = k) = (t.get k).toList := by
  obtain ⟨rows, nodup⟩ := t
  simp only [get]
  induction rows with
  | nil => rfl
  | cons r rows ih =>
    rw [List.map_cons, List.nodup_cons] at nodup
    by_cases hkey : key r = k
    · have hrest : rows.filter (fun q => key q = k) = [] := by
        rw [List.filter_eq_nil_iff]
        intro q hq hk
        exact nodup.1 (List.mem_map.2 ⟨q, hq, (of_decide_eq_true hk).trans hkey.symm⟩)
      simp [hkey, hrest]
    · simp [hkey, ih nodup.2]

theorem get_of_mem {t : Table key} {r : R} (h : r ∈ t.rows) : t.get (key r) = some r := get_eq_some.2 ⟨h, rfl⟩

theorem key_of_get {t : Table key} {k : K} {r : R} (h : t.get k = some r) : key r = k := (get_eq_some.1 h).2

theorem mem_of_get {t : Table key} {k : K} {r : R} (h : t.get k = some r) : r ∈ t.rows := (get_eq_some.1 h).1

theorem get_eq_none {t : Table key} {k : K} : t.get k = none ↔ k ∉ t.rows.map key := by
  simp [get, List.find?_eq_none, List.mem_map]

theorem select_eq_some {t : Table key} {k : K} {p : R → Bool} {r : R} :
    t.select k p = some r ↔ t.get k = some r ∧ p r = true := by
  rw [select, Option.filter_eq_some_iff]

theorem mem_replace {t : Table key} {r q : R} {old : R} (h : t.get (key r) = some old) :
    q ∈ (t.replace r).rows ↔ q = r ∨ q ∈ t.rows ∧ key q ≠ key r := by
  have hmem : q ∈ (t.replace r).rows ↔ ∃ p ∈ t.rows, (if key p = key r then r else p) = q := List.mem_map
  rw [hmem]
  constructor
  · rintro ⟨p, hp, rfl⟩
    split
    case isTrue => exact .inl rfl
    case isFalse hne => exact .inr ⟨hp, hne⟩
  · rintro (rfl | ⟨hq, hne⟩)
    · exact ⟨old, mem_of_get h, if_pos (key_of_get h)⟩
    · exact ⟨q, hq, if_neg hne⟩

theorem get_replace_self {t : Table key} {r old : R} (h : t.get (key r) = some old) :
    (t.replace r).get (key r) = some r := get_of_mem ((mem_replace h).2 (.inl rfl))

theorem get_replace_ne {t : Table key} {r old : R} {k : K} (h : t.get (key r) = some old) (hk : k ≠ key r) :
    (t.replace r).get k = t.get k := by
  refine Option.ext fun q => ?_
  rw [get_eq_some, get_eq_some, mem_replace h]
  constructor
  · rintro ⟨rfl | ⟨hq, -⟩, hkey⟩
    · exact absurd hkey.symm hk
    · exact ⟨hq, hkey⟩
  · rintro ⟨hq, rfl⟩
    exact ⟨.inr ⟨hq, hk⟩, rfl⟩

theorem replace_self {t : Table key} {r : R} (h : t.get (key r) = some r) : t.replace r = t := by
  have hrows : t.rows.map (fun q => if key q = key r then r else q) = t.rows := by
    refine (List.map_congr_left fun q hq => ?_).trans (List.map_id t.rows)
    split
    case isTrue hkey => exact Option.some.inj (h.symm.trans (get_eq_some.2 ⟨hq, hkey⟩))
    case isFalse => rfl
  obtain ⟨rows, nodup⟩ := t
  simp only [replace, mk.injEq]
  exact hrows

theorem insert_eq_some {t u : Table key} {r : R} (h : t.insert r = some u) :
    t.get (key r) = none ∧ ∀ q, q ∈ u.rows ↔ q ∈ t.rows ∨ q = r := by
  unfold insert at h
  split at h
  case isTrue => cases h
  case isFalse hkey =>
    obtain rfl := Option.some.inj h
    exact ⟨get_eq_none.2 hkey, fun q => by simp⟩

theorem get_insert_self {t u : Table key} {r : R} (h : t.insert r = some u) : u.get (key r) = some r :=
  get_of_mem (((insert_eq_some h).2 r).2 (.inr rfl))

theorem get_insert_ne {t u : Table key} {r : R} {k : K} (h : t.insert r = some u) (hk : k ≠ key r) : u.get k = t.get k := by
  refine Option.ext fun q => ?_
  rw [get_eq_some, get_eq_some, (insert_eq_some h).2 q]
  constructor
  · rintro ⟨hq | rfl, hkey⟩
    · exact ⟨hq, hkey⟩
    · exact absurd hkey.symm hk
  · rintro ⟨hq, hkey⟩
    exact ⟨.inl hq, hkey⟩

omit [DecidableEq K] in
theorem mem_delete {t : Table key} {p : R → Bool} {q : R} : q ∈ (t.delete p).rows ↔ q ∈ t.rows ∧ p q = false := by
  simp [delete, List.mem_filter]

omit [DecidableEq K] in
theorem first_mem {before : R → R → Bool} {l : List R} {r : R} (h : first before l = some r) : r ∈ l := by
  cases l with
  | nil => cases h
  | cons q rest =>
    obtain rfl := Option.some.inj h
    clear h
    induction rest generalizing q with
    | nil => simp
    | cons p rest ih =>
      rw [List.foldl_cons]
      rcases List.mem_cons.1 (ih (if before p q then p else q)) with heq | hmem
      · rw [heq]
        split <;> simp
      · exact List.mem_cons_of_mem _ (List.mem_cons_of_mem _ hmem)

/-! ### Rows in an order -/

omit [DecidableEq K] in
/-- `ORDER BY k DESC LIMIT 1` is a row with the greatest value. -/
theorem first_desc {k : R → Int} {l : List R} {r : R} (h : first (fun q best => k best < k q) l = some r) : ∀ q ∈ l, k q ≤ k r := by
  cases l with
  | nil => cases h
  | cons p rest =>
    obtain rfl := Option.some.inj h
    clear h
    induction rest generalizing p with
    | nil => exact fun q hq => (List.mem_singleton.1 hq) ▸ Int.le_refl _
    | cons q rest ih =>
      simp only [List.foldl_cons, decide_eq_true_eq] at ih ⊢
      have hbest := ih (if k p < k q then q else p)
      have hhead := hbest _ List.mem_cons_self
      intro x hx
      rcases List.mem_cons.1 hx with rfl | hx
      · refine Int.le_trans ?_ hhead
        split <;> omega
      rcases List.mem_cons.1 hx with rfl | hx
      · refine Int.le_trans ?_ hhead
        split <;> omega
      · exact hbest x (List.mem_cons_of_mem _ hx)

/-- `ORDER BY k ASC`. -/
def ordered (k : R → Int) (rows : List R) : List R := rows.insertionSort (fun a b => k a ≤ k b)

theorem mem_ordered {k : R → Int} {rows : List R} {r : R} : r ∈ ordered k rows ↔ r ∈ rows :=
  (List.perm_insertionSort _ rows).mem_iff

theorem strict_ordered {k : R → Int} {rows : List R} (h : (rows.map k).Nodup) : (ordered k rows).Pairwise (fun a b => k a < k b) := by
  have htotal : Std.Total (fun a b : R => k a ≤ k b) := ⟨fun a b => Int.le_total _ _⟩
  have htrans : IsTrans R (fun a b : R => k a ≤ k b) := ⟨fun a b c => Int.le_trans⟩
  have hle := List.pairwise_insertionSort (fun a b : R => k a ≤ k b) rows
  have hne : (ordered k rows).Pairwise (fun a b => k a ≠ k b) :=
    List.pairwise_map.1 (((List.perm_insertionSort _ rows).map k).nodup_iff.2 h)
  exact hle.imp₂ (fun a b hab hne => lt_of_le_of_ne hab hne) hne

end Table

/-! ## Transactions -/

/-- What a transaction that succeeds returns and leaves behind. -/
def Tx (D E A : Type) : Type := D → Except E (A × D)

namespace Tx
variable {D E A B : Type}

def run (x : Tx D E A) (s : D) : Except E (A × D) := x s

instance : Monad (Tx D E) where
  pure a := fun s => .ok (a, s)
  bind x f := fun s => match x.run s with
    | .ok (a, t) => (f a).run t
    | .error e => .error e

def fail (error : E) : Tx D E A := fun _ => .error error

/-- Go on with what a query found. -/
def require (found : Option A) (error : E) : Tx D E A :=
  match found with
  | some a => pure a
  | none => fail error

/-- Go on only if a check passes. -/
def ensure (check : Bool) (error : E) : Tx D E Unit := if check then pure () else fail error

/-- What the transaction sees here. -/
def read : Tx D E D := fun s => .ok (s, s)

def write (f : D → D) : Tx D E Unit := fun s => .ok ((), f s)

theorem bind_ok {x : Tx D E A} {f : A → Tx D E B} {s t : D} {b : B} :
    (x >>= f).run s = .ok (b, t) ↔ ∃ a u, x.run s = .ok (a, u) ∧ (f a).run u = .ok (b, t) := by
  have hbind : (x >>= f).run s = match x.run s with
    | .ok (a, t) => (f a).run t
    | .error e => .error e := rfl
  rw [hbind]
  rcases x.run s with e | ⟨a, u⟩
  · exact ⟨fun h => (nomatch h), fun ⟨_, _, h, _⟩ => (nomatch h)⟩
  · constructor
    · intro h
      exact ⟨a, u, rfl, h⟩
    · rintro ⟨a', u', heq, h⟩
      obtain ⟨rfl, rfl⟩ := Prod.mk.inj (Except.ok.inj heq)
      exact h

@[simp] theorem pure_ok {a b : A} {s t : D} : (pure a : Tx D E A).run s = .ok (b, t) ↔ b = a ∧ t = s := by
  constructor
  · intro h
    obtain ⟨rfl, rfl⟩ := Prod.mk.inj (Except.ok.inj h)
    exact ⟨rfl, rfl⟩
  · rintro ⟨rfl, rfl⟩
    rfl

@[simp] theorem fail_ok {e : E} {a : A} {s t : D} : ¬ (fail e : Tx D E A).run s = .ok (a, t) := fun h => nomatch h

@[simp] theorem read_ok {s t u : D} : (read : Tx D E D).run s = .ok (u, t) ↔ u = s ∧ t = s :=
  pure_ok (a := s) (b := u) (s := s) (t := t) (E := E)

@[simp] theorem write_ok {f : D → D} {s t : D} {u : Unit} : (write f : Tx D E Unit).run s = .ok (u, t) ↔ t = f s := by
  constructor
  · intro h
    exact (Prod.mk.inj (Except.ok.inj h)).2.symm
  · rintro rfl
    rfl

@[simp] theorem require_ok {found : Option A} {e : E} {a : A} {s t : D} :
    (require found e : Tx D E A).run s = .ok (a, t) ↔ found = some a ∧ t = s := by
  rcases found with _ | b
  · exact ⟨fun h => absurd h fail_ok, fun h => nomatch h.1⟩
  · rw [require, pure_ok, Option.some.injEq, eq_comm]

@[simp] theorem ensure_ok {check : Bool} {e : E} {s t : D} {u : Unit} :
    (ensure check e : Tx D E Unit).run s = .ok (u, t) ↔ check = true ∧ t = s := by
  cases check
  · exact ⟨fun h => absurd h fail_ok, fun h => nomatch h.1⟩
  · exact pure_ok.trans (by simp)

end Tx
end Lib

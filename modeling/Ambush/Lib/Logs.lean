import Mathlib.Order.Defs.LinearOrder
import Mathlib.Data.List.Pairwise
import Mathlib.Order.Lattice
/-!
# A log and the table it stands for

A log is written entry by entry, and the table it stands for has, under each key, the last
entry written with it. A table in memory that is brought up to date after each entry is
written lags by the entries still on their way (`Lags`). The rules say when it catches up.
-/
namespace Lib

variable {E K : Type}

section
variable [DecidableEq K] (key : E → K)

/-- The last entry of a log under a key. -/
def last (k : K) (log : List E) : Option E := (log.filter (fun e => key e = k)).getLast?

variable {key} {k : K} {e : E} {log : List E}

theorem last_concat_self (he : key e = k) (log : List E) : last key k (log ++ [e]) = some e := by
  simp [last, List.filter_append, he]

theorem last_concat_ne (he : key e ≠ k) (log : List E) : last key k (log ++ [e]) = last key k log := by
  simp [last, List.filter_append, he]

theorem last_append (k : K) (as bs : List E) : last key k (as ++ bs) = (last key k bs).or (last key k as) := by
  simp [last, List.filter_append, List.getLast?_append]

theorem last_eq_none (h : ∀ e ∈ log, key e ≠ k) : last key k log = none := by
  rw [last, List.filter_eq_nil_iff.2 (fun e he => by simpa using h e he)]
  rfl

theorem last_cons (e : E) (log : List E) : last key k (e :: log) = (last key k log).or (if key e = k then some e else none) := by
  rw [← List.singleton_append, last_append]
  by_cases he : key e = k <;> simp [last, he]

theorem last_map {E' : Type} (f : E' → E) (k : K) (log : List E') : last key k (log.map f) = (last (fun e => key (f e)) k log).map f := by
  rw [last, last, List.filter_map, List.getLast?_map]
  rfl

theorem last_eq_some (h : last key k log = some e) : e ∈ log ∧ key e = k := by
  obtain ⟨hmem, hkey⟩ := List.mem_filter.1 (List.mem_of_getLast? h)
  exact ⟨hmem, of_decide_eq_true hkey⟩

/-- Under a key that fewer entries have, the last entry is the same if it is one of them. -/
theorem last_of_last {key' : E → K} (h : last key k log = some e) (he : key' e = k) (hsub : ∀ x ∈ log, key' x = k → key x = k) :
    last key' k log = some e := by
  obtain ⟨init, hinit⟩ := List.getLast?_eq_some_iff.1 h
  have hfilter : log.filter (fun x => key' x = k) = (log.filter (fun x => key x = k)).filter (fun x => key' x = k) := by
    rw [List.filter_filter]
    refine List.filter_congr fun x hx => ?_
    by_cases hx' : key' x = k
    · simp [hx', hsub x hx hx']
    · simp [hx']
  rw [last, hfilter, hinit, List.filter_append]
  simp [he]

/-- The table of the log is `table` once the entries of `pending` are in. -/
def Lags (key : E → K) (log pending : List E) (table : K → Option E) : Prop :=
  ∀ k, last key k log = (last key k pending).or (table k)

variable {pending : List E} {table : K → Option E}

/-- Nothing is on its way: the table is what the log says. -/
theorem Lags.caught_up (h : Lags key log [] table) : (fun k => last key k log) = table := by
  funext k
  exact h k

theorem lags_of_eq (h : ∀ k, last key k log = table k) : Lags key log [] table := h

/-- An entry is written. -/
theorem Lags.write (h : Lags key log pending table) (e : E) : Lags key (log ++ [e]) (pending ++ [e]) table := by
  intro k
  by_cases he : key e = k
  · rw [last_concat_self he, last_concat_self he]
    rfl
  · rw [last_concat_ne he, last_concat_ne he]
    exact h k

/-- An entry comes in before every later one of its key. -/
theorem Lags.enter {before after : List E} {e : E} (h : Lags key log (before ++ e :: after) table)
    (hfirst : ∀ x ∈ before, key x ≠ key e) {table' : K → Option E}
    (htable : ∀ k, table' k = if k = key e then some e else table k) : Lags key log (before ++ after) table' := by
  intro k
  rw [h k, last_append, last_append, last_cons, htable]
  by_cases he : k = key e
  · subst he
    rw [last_eq_none hfirst, if_pos rfl, if_pos rfl]
    cases last key (key e) after <;> rfl
  · rw [if_neg he, if_neg (fun h => he h.symm), Option.or_none]

theorem eq_take_cons_drop {i : Nat} (hi : pending[i]? = some e) : pending = pending.take i ++ e :: pending.drop (i + 1) := by
  obtain ⟨hlt, rfl⟩ := List.getElem?_eq_some_iff.1 hi
  rw [← List.drop_eq_getElem_cons hlt, List.take_append_drop]

/-- `enter`, by the place of the entry among those on their way. -/
theorem Lags.enter_at {i : Nat} (h : Lags key log pending table) (hi : pending[i]? = some e)
    (hfirst : ∀ x ∈ pending.take i, key x ≠ key e) {table' : K → Option E}
    (htable : ∀ k, table' k = if k = key e then some e else table k) : Lags key log (pending.eraseIdx i) table' := by
  rw [List.eraseIdx_eq_take_drop_succ]
  rw [eq_take_cons_drop hi] at h
  exact h.enter hfirst htable
end

/-! ## Tables in key order -/

section
variable [LinearOrder K] (key : E → K)

/-- `BTreeMap::insert` of an entry under its own key. -/
def put (e : E) : List E → List E
  | [] => [e]
  | x :: xs => if key e = key x then e :: xs else if key e < key x then e :: x :: xs else x :: put e xs

def find (k : K) (table : List E) : Option E := table.find? (fun e => key e = k)

/-- Every key is greater than the one before. -/
def Ordered (table : List E) : Prop := table.Pairwise (fun a b => key a < key b)

variable {key} {table : List E}

theorem find_put (e : E) (table : List E) (k : K) : find key k (put key e table) = if k = key e then some e else find key k table := by
  induction table with
  | nil =>
    by_cases he : k = key e
    · simp [put, find, he]
    · simp [put, find, he, Ne.symm he]
  | cons x xs ih =>
    simp only [find] at ih ⊢
    rw [put]
    by_cases he : k = key e
    · subst he
      rw [if_pos rfl] at ih ⊢
      split
      · simp
      · next hne =>
        split
        · simp
        · simp [Ne.symm hne, ih]
    · rw [if_neg he] at ih ⊢
      split
      · next hsame => simp [← hsame, Ne.symm he]
      · split
        · simp [Ne.symm he]
        · by_cases hx : key x = k <;> simp [hx, ih]

theorem mem_put {e x : E} (h : x ∈ put key e table) : x = e ∨ x ∈ table := by
  induction table with
  | nil => exact .inl (List.mem_singleton.1 h)
  | cons y ys ih =>
    rw [put] at h
    split at h
    · rcases List.mem_cons.1 h with h | h
      · exact .inl h
      · exact .inr (List.mem_cons_of_mem _ h)
    · split at h
      · exact List.mem_cons.1 h
      · rcases List.mem_cons.1 h with h | h
        · exact .inr (h ▸ List.mem_cons_self)
        · exact (ih h).imp_right (List.mem_cons_of_mem _)

theorem ordered_put (e : E) (h : Ordered key table) : Ordered key (put key e table) := by
  induction table with
  | nil => exact List.pairwise_singleton _ _
  | cons x xs ih =>
    obtain ⟨hx, hxs⟩ := List.pairwise_cons.1 h
    rw [put]
    split
    · next hsame => exact List.pairwise_cons.2 ⟨fun y hy => hsame ▸ hx y hy, hxs⟩
    · next hne =>
      split
      · next hlt =>
        refine List.pairwise_cons.2 ⟨fun y hy => ?_, h⟩
        rcases List.mem_cons.1 hy with rfl | hy
        · exact hlt
        · exact hlt.trans (hx y hy)
      · next hge =>
        refine List.pairwise_cons.2 ⟨fun y hy => ?_, ih hxs⟩
        rcases mem_put hy with rfl | hy
        · exact lt_of_le_of_ne (not_lt.1 hge) (fun he => hne he.symm)
        · exact hx y hy

/-- Under distinct keys the last entry is the only one. -/
theorem last_eq_find (h : Ordered key table) (k : K) : last key k table = find key k table := by
  induction table with
  | nil => rfl
  | cons x xs ih =>
    obtain ⟨hx, hxs⟩ := List.pairwise_cons.1 h
    rw [last_cons, ih hxs]
    by_cases he : key x = k
    · have hnone : find key k xs = none :=
        List.find?_eq_none.2 (fun y hy => by simpa [← he] using (hx y hy).ne')
      rw [hnone]
      simp [find, he]
    · simp [find, he]

theorem find_eq_some_iff (h : Ordered key table) {e : E} : find key (key e) table = some e ↔ e ∈ table := by
  refine ⟨List.mem_of_find?_eq_some, fun he => ?_⟩
  induction table with
  | nil => cases he
  | cons x xs ih =>
    obtain ⟨hx, hxs⟩ := List.pairwise_cons.1 h
    rcases List.mem_cons.1 he with rfl | he
    · simp [find]
    · rw [find, List.find?_cons_of_neg (by simpa using (hx e he).ne)]
      exact ih hxs he

/-- Ordered tables that answer alike are the same. -/
theorem Ordered.ext {table' : List E} (h : Ordered key table) (h' : Ordered key table')
    (hfind : ∀ k, find key k table = find key k table') : table = table' := by
  have hmem : ∀ e, e ∈ table ↔ e ∈ table' := fun e => by
    rw [← find_eq_some_iff h, ← find_eq_some_iff h', hfind]
  have hnodup : ∀ {l : List E}, Ordered key l → l.Nodup := fun hl => hl.imp (fun hlt he => hlt.ne (congrArg key he))
  refine ((List.perm_ext_iff_of_nodup (hnodup h) (hnodup h')).2 hmem).eq_of_pairwise ?_ h h'
  intro a b _ _ hab hba
  exact absurd hba hab.asymm

/-- The table that a log is read into. -/
theorem find_foldl_put (log : List E) (table : List E) (k : K) :
    find key k (log.foldl (fun table e => put key e table) table) = (last key k log).or (find key k table) := by
  induction log generalizing table with
  | nil => rfl
  | cons e log ih =>
    rw [List.foldl_cons, ih, find_put, last_cons, Option.or_assoc]
    by_cases he : k = key e
    · simp [he]
    · simp [he, Ne.symm he]

theorem ordered_foldl_put (log : List E) (h : Ordered key table) : Ordered key (log.foldl (fun table e => put key e table) table) := by
  induction log generalizing table with
  | nil => exact h
  | cons e log ih => exact ih (ordered_put e h)

/-- A table that is written out is read into itself. -/
theorem foldl_put_of_ordered (h : Ordered key table) : table.foldl (fun table e => put key e table) [] = table := by
  refine (ordered_foldl_put table List.Pairwise.nil).ext h fun k => ?_
  rw [find_foldl_put, last_eq_find h]
  exact Option.or_none

theorem mem_of_mem_foldl_put {log : List E} {e : E} (h : e ∈ log.foldl (fun table e => put key e table) table) : e ∈ log ∨ e ∈ table := by
  induction log generalizing table with
  | nil => exact .inr h
  | cons x log ih =>
    rcases ih h with hlog | htable
    · exact .inl (List.mem_cons_of_mem _ hlog)
    · rcases mem_put htable with rfl | htable
      · exact .inl List.mem_cons_self
      · exact .inr htable

theorem find_mem {k : K} {e : E} (h : find key k table = some e) : e ∈ table ∧ key e = k :=
  ⟨List.mem_of_find?_eq_some h, by simpa using List.find?_some h⟩

theorem mem_put_self (e : E) (table : List E) : e ∈ put key e table :=
  (find_mem ((find_put e table (key e)).trans (if_pos rfl))).1

/-- What is left out of an ordered table is not found in it. -/
theorem find_take_of_mem_drop (h : Ordered key table) {n : Nat} {e : E} (he : e ∈ table.drop n) : find key (key e) (table.take n) = none := by
  refine List.find?_eq_none.2 fun x hx => ?_
  have hlt := (List.pairwise_append.1 ((List.take_append_drop n table).symm ▸ h)).2.2 x hx e he
  simpa using hlt.ne
end
end Lib

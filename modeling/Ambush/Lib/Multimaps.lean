import Ambush.Lib.Maps
/-!
# Maps of lists

A map that lists values under each key. A key that is missing lists nothing, so most of
what a program does with such a map is said of `listed`. Whether keys that list nothing
stay behind is said by `Tidy`.
-/
namespace Lib.Map

variable {K V : Type}

/-- What is listed under a key. -/
def listed (m : Map K (List V)) (k : K) : List V := (m k).getD []

/-- No key lists nothing. -/
def Tidy (m : Map K (List V)) : Prop := ∀ k, m k ≠ some []

@[simp] theorem listed_empty (k : K) : (empty : Map K (List V)).listed k = [] := rfl

theorem tidy_empty : (empty : Map K (List V)).Tidy := fun _ h => by cases h

/-- In a tidy map a key that lists nothing is not there. -/
theorem Tidy.eq_none {m : Map K (List V)} {k : K} (h : m.Tidy) (hk : m.listed k = []) : m k = none := by
  unfold listed at hk
  cases hm : m k with
  | none => rfl
  | some l =>
    rw [hm, Option.getD_some] at hk
    exact absurd (hk ▸ hm) (h k)

section
variable [DecidableEq K] (m : Map K (List V)) (k k' : K) (l : List V) (v : V) (p : V → Bool)

/-- A list is stored under its key; the key of an empty one goes. -/
def store : Map K (List V) := if l.isEmpty then m.remove k else m.insert k l

/-- A value is added at the end of the list, which need not be there before. -/
def push : Map K (List V) := m.insert k (m.listed k ++ [v])

/-- The list is filtered, if it is there, and its key goes with its last value. -/
def retain_listed : Map K (List V) :=
  match m k with
  | none => m
  | some l => m.store k (l.filter p)

theorem listed_insert : (m.insert k l).listed k' = if k' = k then l else m.listed k' := by
  unfold listed insert
  split <;> rfl

theorem listed_remove : (m.remove k).listed k' = if k' = k then [] else m.listed k' := by
  unfold listed remove
  split <;> rfl

theorem listed_store : (m.store k l).listed k' = if k' = k then l else m.listed k' := by
  unfold store
  split
  · next h => rw [listed_remove, List.isEmpty_iff.1 h]
  · rw [listed_insert]

theorem listed_push : (m.push k v).listed k' = if k' = k then m.listed k ++ [v] else m.listed k' := listed_insert m k k' _

theorem listed_retain : (m.retain_listed k p).listed k' = if k' = k then (m.listed k).filter p else m.listed k' := by
  unfold retain_listed
  split
  next hnone =>
    split
    next hk => simp [hk, listed, hnone]
    next => rfl
  next l hsome =>
    have hlisted : m.listed k = l := by rw [listed, hsome, Option.getD_some]
    rw [listed_store, hlisted]

/-- A list that is emptied first and whose key is removed after. -/
theorem remove_insert : (m.insert k l).remove k = m.remove k := by
  funext k'
  rw [remove_apply, remove_apply, insert_apply]
  split <;> rfl

variable {m}

theorem tidy_store (h : m.Tidy) : (m.store k l).Tidy := by
  intro k'
  unfold store
  split
  · rw [remove_apply]
    split
    · exact fun h => by cases h
    · exact h k'
  next hl =>
    rw [insert_apply]
    split
    · exact fun h => hl (List.isEmpty_iff.2 (Option.some.inj h))
    · exact h k'

theorem tidy_push (h : m.Tidy) : (m.push k v).Tidy := by
  intro k'
  unfold push
  rw [insert_apply]
  split
  · exact fun h => List.append_ne_nil_of_right_ne_nil _ (List.cons_ne_nil v []) (Option.some.inj h)
  · exact h k'

theorem tidy_retain (h : m.Tidy) : (m.retain_listed k p).Tidy := by
  unfold retain_listed
  split
  · exact h
  · exact tidy_store k _ h

end
end Lib.Map

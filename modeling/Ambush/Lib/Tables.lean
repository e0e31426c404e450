import Mathlib.Data.List.Forall2
import Mathlib.Data.List.Nodup
import Mathlib.Data.String.Basic
/-!
# Tables in key order

A table is the list of its rows in the order of their keys, as an ordered map yields
them. A row goes in before the first one with a greater key.
-/
namespace Lib

section
variable {α : Type} (key : α → String)

def insertBy (x : α) : List α → List α
  | [] => [x]
  | y :: ys => if key x < key y then x :: y :: ys else y :: insertBy x ys

def lookupBy (k : String) (l : List α) : Option α := l.find? (fun x => key x == k)

def updateBy (k : String) (f : α → α) (l : List α) : List α := l.map (fun x => if key x = k then f x else x)

/-- `entry(k).or_default()` and a change to what is there. -/
def upsert {β : Type} (k : String) (init : β) (f : β → β) : List (String × β) → List (String × β)
  | [] => [(k, f init)]
  | (k', v) :: rest =>
    if k = k' then (k', f v) :: rest
    else if k < k' then (k, f init) :: (k', v) :: rest
    else (k', v) :: upsert k init f rest

/-- What a table of pairs has under a key. -/
def lookup {β : Type} (k : String) (l : List (String × β)) : Option β := (lookupBy Prod.fst k l).map Prod.snd

variable {key}

theorem mem_insertBy {x z : α} {l : List α} : z ∈ insertBy key x l ↔ z = x ∨ z ∈ l := by
  induction l with
  | nil => simp [insertBy]
  | cons y ys ih =>
    rw [insertBy]
    split
    · simp
    · simp only [List.mem_cons, ih]
      tauto

theorem lookupBy_insertBy_ne {x : α} {k : String} (hne : key x ≠ k) (l : List α) :
    lookupBy key k (insertBy key x l) = lookupBy key k l := by
  have hhead : ∀ l : List α, lookupBy key k (x :: l) = lookupBy key k l :=
    fun l => List.find?_cons_of_neg (by simpa using hne)
  induction l with
  | nil => exact hhead []
  | cons y ys ih =>
    rw [insertBy]
    split
    · exact hhead _
    · simp only [lookupBy, List.find?_cons] at ih ⊢
      rw [ih]

theorem mem_of_lookupBy {k : String} {l : List α} {x : α} (h : lookupBy key k l = some x) : x ∈ l ∧ key x = k :=
  ⟨List.mem_of_find?_eq_some h, by simpa using List.find?_some h⟩

theorem lookupBy_isSome {k : String} {l : List α} : (lookupBy key k l).isSome ↔ k ∈ l.map key := by
  simp [lookupBy, List.find?_isSome]

theorem mem_keys_insertBy {x : α} {l : List α} {k : String} :
    k ∈ (insertBy key x l).map key ↔ k = key x ∨ k ∈ l.map key := by
  simp only [List.mem_map, mem_insertBy]
  constructor
  · rintro ⟨z, rfl | hz, rfl⟩
    · exact .inl rfl
    · exact .inr ⟨z, hz, rfl⟩
  · rintro (rfl | ⟨z, hz, rfl⟩)
    · exact ⟨x, .inl rfl, rfl⟩
    · exact ⟨z, .inr hz, rfl⟩

theorem map_key_updateBy {k : String} {f : α → α} (hf : ∀ x, key (f x) = key x) (l : List α) :
    (updateBy key k f l).map key = l.map key := by
  induction l with
  | nil => rfl
  | cons x l ih =>
    simp only [updateBy, List.map_cons] at ih ⊢
    rw [ih]
    split
    · rw [hf]
    · rfl

theorem insertBy_perm (x : α) (l : List α) : (insertBy key x l).Perm (x :: l) := by
  induction l with
  | nil => exact .refl _
  | cons y ys ih =>
    rw [insertBy]
    split
    · exact .refl _
    · exact (ih.cons y).trans (.swap x y ys)

theorem foldl_insertBy_perm (l acc : List α) : (l.foldl (fun a x => insertBy key x a) acc).Perm (l ++ acc) := by
  induction l generalizing acc with
  | nil => exact .refl _
  | cons x l ih => exact (ih _).trans (((insertBy_perm x acc).append_left l).trans List.perm_middle)

theorem insertBy_map {f : α → α} (hf : ∀ x, key (f x) = key x) (x : α) (l : List α) :
    insertBy key (f x) (l.map f) = (insertBy key x l).map f := by
  induction l with
  | nil => rfl
  | cons y ys ih =>
    rw [List.map_cons, insertBy, insertBy, hf, hf, ih]
    split
    · rfl
    · rfl

theorem foldl_insertBy_map {f : α → α} (hf : ∀ x, key (f x) = key x) (l acc : List α) :
    (l.map f).foldl (fun a x => insertBy key x a) (acc.map f) = (l.foldl (fun a x => insertBy key x a) acc).map f := by
  induction l generalizing acc with
  | nil => rfl
  | cons x l ih => rw [List.map_cons, List.foldl_cons, List.foldl_cons, insertBy_map hf, ih]

theorem lookupBy_of_mem {k : String} {l : List α} (hn : (l.map key).Nodup) {x : α} (hx : x ∈ l) (hk : key x = k) :
    lookupBy key k l = some x := by
  subst hk
  obtain ⟨y, hy⟩ := Option.isSome_iff_exists.1 (lookupBy_isSome.2 (List.mem_map_of_mem hx))
  rw [hy, List.inj_on_of_nodup_map hn (mem_of_lookupBy hy).1 hx (mem_of_lookupBy hy).2]

theorem lookupBy_updateBy_self {k : String} {l : List α} {x y : α} (h : lookupBy key k l = some x) (hy : key y = k) :
    lookupBy key k (updateBy key k (fun _ => y) l) = some y := by
  have hk : k ∈ (updateBy key k (fun _ => y) l).map key :=
    List.mem_map.2 ⟨y, List.mem_map.2 ⟨x, (mem_of_lookupBy h).1, if_pos (mem_of_lookupBy h).2⟩, hy⟩
  obtain ⟨z, hz⟩ := Option.isSome_iff_exists.1 (lookupBy_isSome.2 hk)
  obtain ⟨hmem, hkey⟩ := mem_of_lookupBy hz
  obtain ⟨w, -, rfl⟩ := List.mem_map.1 hmem
  split at hkey
  case isTrue hw => rw [hz, if_pos hw]
  case isFalse hw => exact absurd hkey hw

theorem lookupBy_updateBy_ne {k k' : String} (l : List α) {y : α} (hne : k' ≠ k) (hy : key y = k) :
    lookupBy key k' (updateBy key k (fun _ => y) l) = lookupBy key k' l := by
  induction l with
  | nil => rfl
  | cons x l ih =>
    simp only [lookupBy, updateBy, List.map_cons, List.find?_cons] at ih ⊢
    rw [ih]
    by_cases hx : key x = k
    · have hy' : (key y == k') = false := beq_eq_false_iff_ne.2 (hy.trans_ne hne.symm)
      have hx' : (key x == k') = false := beq_eq_false_iff_ne.2 (hx.trans_ne hne.symm)
      rw [if_pos hx, hy', hx']
    · rw [if_neg hx]

/-- One row has the key, and it is the one that changes. -/
theorem updateBy_congr {k : String} {l : List α} (hn : (l.map key).Nodup) {x : α} (h : lookupBy key k l = some x)
    {f g : α → α} (hfg : f x = g x) : updateBy key k f l = updateBy key k g l := by
  refine List.map_congr_left fun y hy => ?_
  split
  case isTrue hk =>
    obtain rfl := Option.some.inj ((lookupBy_of_mem hn hy hk).symm.trans h)
    exact hfg
  case isFalse => rfl

theorem updateBy_id (k : String) (l : List α) : updateBy key k id l = l := by
  simp [updateBy]

theorem updateBy_of_not_mem {k : String} {l : List α} (h : k ∉ l.map key) (f : α → α) : updateBy key k f l = l := by
  refine (List.map_congr_left fun y hy => ?_).trans (List.map_id l)
  exact if_neg fun (hk : key y = k) => h (hk ▸ List.mem_map_of_mem hy)

theorem updateBy_middle {l r : List α} {x : α} (hn : ((l ++ x :: r).map key).Nodup) (f : α → α) :
    updateBy key (key x) f (l ++ x :: r) = l ++ f x :: r := by
  rw [List.map_append, List.map_cons, List.nodup_middle, List.nodup_cons, List.mem_append, not_or] at hn
  rw [updateBy, List.map_append, List.map_cons, if_pos rfl]
  exact congrArg₂ (· ++ f x :: ·) (updateBy_of_not_mem hn.1.1 f) (updateBy_of_not_mem hn.1.2 f)

/-! ## Tables of pairs -/

section
variable {β : Type}

theorem lookup_cons (k : String) (p : String × β) (l : List (String × β)) :
    lookup k (p :: l) = if p.1 = k then some p.2 else lookup k l := by
  rw [lookup, lookupBy, List.find?_cons]
  by_cases h : p.1 = k
  · simp [h]
  · simp only [beq_eq_false_iff_ne.2 h, if_neg h]
    rfl

theorem mem_upsert_keys {k k' : String} {init : β} {f : β → β} {l : List (String × β)}
    (h : k' ∈ (upsert k init f l).map Prod.fst) : k' = k ∨ k' ∈ l.map Prod.fst := by
  induction l with
  | nil => exact .inl (by simpa [upsert] using h)
  | cons p rest ih =>
    obtain ⟨q, v⟩ := p
    rw [upsert] at h
    split at h
    · exact .inr h
    · split at h
      · simpa using h
      · rcases List.mem_cons.1 h with rfl | h
        · exact .inr List.mem_cons_self
        · rcases ih h with h | h
          · exact .inl h
          · exact .inr (List.mem_cons_of_mem _ h)

theorem mem_keys_upsert {k k' : String} {init : β} {f : β → β} {l : List (String × β)} :
    k' ∈ (upsert k init f l).map Prod.fst ↔ k' = k ∨ k' ∈ l.map Prod.fst := by
  refine ⟨mem_upsert_keys, ?_⟩
  induction l with
  | nil => simp [upsert]
  | cons p rest ih =>
    obtain ⟨q, v⟩ := p
    rw [upsert]
    split
    · next he => simp [he]
    · split
      · simp
      · simp only [List.map_cons, List.mem_cons] at ih ⊢
        tauto

theorem mem_upsert_new {k : String} {init : β} {f : β → β} {l : List (String × β)} (h : k ∉ l.map Prod.fst)
    {p : String × β} : p ∈ upsert k init f l ↔ p = (k, f init) ∨ p ∈ l := by
  induction l with
  | nil => simp [upsert]
  | cons q rest ih =>
    obtain ⟨j, v⟩ := q
    rw [List.map_cons, List.mem_cons, not_or] at h
    rw [upsert, if_neg h.1]
    split
    · rw [List.mem_cons]
    · rw [List.mem_cons, ih h.2, List.mem_cons]
      tauto

/-- The keys of a table, each greater than the one before. -/
def Sorted (l : List (String × β)) : Prop := (l.map Prod.fst).Pairwise (· < ·)

theorem sorted_upsert {k : String} {init : β} {f : β → β} {l : List (String × β)} (h : Sorted l) :
    Sorted (upsert k init f l) := by
  induction l with
  | nil => exact List.pairwise_singleton _ _
  | cons p rest ih =>
    obtain ⟨q, v⟩ := p
    obtain ⟨hhead, hrest⟩ := List.pairwise_cons.1 h
    rw [upsert]
    split
    · exact h
    · next hne =>
      split
      · next hlt =>
        refine List.pairwise_cons.2 ⟨fun x hx => ?_, h⟩
        rcases List.mem_cons.1 hx with rfl | hx
        · exact hlt
        · exact String.lt_trans hlt (hhead x hx)
      · next hge =>
        refine List.pairwise_cons.2 ⟨fun x hx => ?_, ih hrest⟩
        rcases mem_upsert_keys hx with rfl | hx
        · exact lt_of_le_of_ne (not_lt.1 hge) (fun he => hne he.symm)
        · exact hhead x hx

theorem lookup_upsert {k k' : String} {init : β} {f : β → β} {l : List (String × β)} (h : Sorted l) :
    lookup k' (upsert k init f l) = if k' = k then some (f ((lookup k l).getD init)) else lookup k' l := by
  induction l with
  | nil =>
    rw [upsert, lookup_cons]
    by_cases hk : k' = k
    · simp [hk, lookup, lookupBy]
    · simp [hk, Ne.symm hk]
  | cons p rest ih =>
    obtain ⟨q, v⟩ := p
    obtain ⟨hhead, hrest⟩ := List.pairwise_cons.1 h
    rw [upsert]
    split
    · next he =>
      subst he
      rw [lookup_cons, lookup_cons, lookup_cons, if_pos rfl]
      by_cases hk : k' = k
      · simp [hk]
      · simp [hk, Ne.symm hk]
    · next hne =>
      have hout : lookup k ((q, v) :: rest) = lookup k rest := by rw [lookup_cons, if_neg (Ne.symm hne)]
      split
      · next hlt =>
        have habsent : lookup k rest = none := by
          rw [lookup, Option.map_eq_none_iff, lookupBy, List.find?_eq_none]
          intro x hx hxk
          have := hhead x.1 (List.mem_map_of_mem hx)
          rw [beq_iff_eq.1 hxk] at this
          exact String.lt_irrefl _ (String.lt_trans hlt this)
        rw [lookup_cons, hout, habsent]
        by_cases hk : k' = k
        · simp [hk]
        · simp [hk, Ne.symm hk]
      · rw [lookup_cons, ih hrest, hout, lookup_cons]
        by_cases hq : q = k'
        · subst hq
          simp [Ne.symm hne]
        · simp [hq]

/-- What is read from a table through one key only. -/
theorem filterMap_lookup {γ : Type} {k : String} {g : String × β → Option γ} {l : List (String × β)} (h : Sorted l)
    (hg : ∀ p ∈ l, p.1 ≠ k → g p = none) : l.filterMap g = ((lookup k l).bind (fun v => g (k, v))).toList := by
  induction l with
  | nil => rfl
  | cons p rest ih =>
    obtain ⟨q, v⟩ := p
    obtain ⟨hhead, hrest⟩ := List.pairwise_cons.1 h
    have ih := ih hrest (fun p hp => hg p (List.mem_cons_of_mem _ hp))
    rw [lookup_cons]
    by_cases hq : q = k
    · subst hq
      have hnone : rest.filterMap g = [] := by
        rw [List.filterMap_eq_nil_iff]
        intro p hp
        refine hg p (List.mem_cons_of_mem _ hp) (fun he => ?_)
        have := hhead p.1 (List.mem_map_of_mem hp)
        rw [he] at this
        exact String.lt_irrefl _ this
      rw [if_pos rfl, Option.bind_some]
      cases hgq : g (q, v) with
      | none => rw [List.filterMap_cons_none hgq, hnone]; rfl
      | some c => rw [List.filterMap_cons_some hgq, hnone]; rfl
    · rw [List.filterMap_cons_none (hg _ List.mem_cons_self hq), if_neg hq, ih]
end

/-! ## Tables that agree row by row -/

variable {R : α → α → Prop}

theorem forall₂_insertBy (hR : ∀ x y, R x y → key y = key x) {x y : α} {l l' : List α} (hxy : R x y)
    (h : List.Forall₂ R l l') : List.Forall₂ R (insertBy key x l) (insertBy key y l') := by
  induction h with
  | nil => exact .cons hxy .nil
  | cons hab ht ih =>
    rw [insertBy, insertBy, hR _ _ hxy, hR _ _ hab]
    split
    · exact .cons hxy (.cons hab ht)
    · exact .cons hab ih

theorem forall₂_lookupBy (hR : ∀ x y, R x y → key y = key x) {l l' : List α} (h : List.Forall₂ R l l') (k : String) :
    (lookupBy key k l = none ∧ lookupBy key k l' = none) ∨
      ∃ x y, lookupBy key k l = some x ∧ lookupBy key k l' = some y ∧ R x y := by
  induction h with
  | nil => exact .inl ⟨rfl, rfl⟩
  | @cons a b _ _ hab _ ih =>
    simp only [lookupBy, List.find?_cons, hR _ _ hab] at ih ⊢
    split
    · exact .inr ⟨a, b, rfl, rfl, hab⟩
    · exact ih

theorem forall₂_updateBy (hR : ∀ x y, R x y → key y = key x) {k : String} {f g : α → α} {l l' : List α}
    (h : List.Forall₂ R l l') (hfg : ∀ x ∈ l, ∀ y, key x = k → R x y → R (f x) (g y)) :
    List.Forall₂ R (updateBy key k f l) (updateBy key k g l') := by
  induction h with
  | nil => exact .nil
  | @cons a b _ _ hab _ ih =>
    refine .cons ?_ (ih (fun x hx => hfg x (List.mem_cons_of_mem _ hx)))
    show R (if key a = k then f a else a) (if key b = k then g b else b)
    rw [hR _ _ hab]
    split
    · next hk => exact hfg a List.mem_cons_self b hk hab
    · exact hab

theorem forall₂_keys (hR : ∀ x y, R x y → key y = key x) {l l' : List α} (h : List.Forall₂ R l l') :
    l'.map key = l.map key := by
  induction h with
  | nil => rfl
  | cons hab _ ih => rw [List.map_cons, List.map_cons, ih, hR _ _ hab]
end

end Lib

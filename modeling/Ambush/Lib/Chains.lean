import Mathlib.Data.List.Chain
import Mathlib.Data.List.Nodup
import Mathlib.Logic.Relation
/-!
# Chains of linked entries

A log whose entries each name the point they start from and the point they lead to is
`Linked` when every entry starts where the one before it ended. Over a relation with
unique predecessors, a start that is on no cycle leads to no cycle, so that no point is
started from twice.
-/
open Relation

namespace Lib

variable {α β : Type} {R : α → α → Prop} {source target : β → α}

/-- Entries that lead from one point to another along `R`, each started where the one
before it ended. -/
inductive Linked (R : α → α → Prop) (source target : β → α) : α → List β → α → Prop
  | nil {a : α} : Linked R source target a [] a
  | cons {a b : α} {x : β} {xs : List β} (hsource : source x = a) (hstep : TransGen R a (target x))
      (rest : Linked R source target (target x) xs b) : Linked R source target a (x :: xs) b

namespace Linked

variable {a b d : α} {xs ys : List β}

theorem append (h : Linked R source target a xs b) (k : Linked R source target b ys d) :
    Linked R source target a (xs ++ ys) d := by
  induction h with
  | nil => exact k
  | cons hs ht _ ih => exact .cons hs ht (ih k)

/-- Each entry starts where the one before it ended. -/
theorem isChain (h : Linked R source target a xs b) : xs.IsChain (fun x y => source y = target x) := by
  induction h with
  | nil => exact .nil
  | cons hs ht rest ih =>
    cases rest with
    | nil => exact .singleton _
    | cons hs' ht' rest' => exact .cons_cons hs' ih

theorem reaches (h : Linked R source target a xs b) {x : β} (hx : x ∈ xs) : ReflTransGen R a (source x) := by
  induction h with
  | nil => exact nomatch hx
  | cons hs ht _ ih =>
    rcases List.mem_cons.1 hx with rfl | hx
    · rw [hs]
    · exact ht.to_reflTransGen.trans (ih hx)

/-- Without a cycle ahead no two entries start from the same point. -/
theorem nodup (h : Linked R source target a xs b) (hacyclic : ∀ x, ReflTransGen R a x → ¬ TransGen R x x) :
    (xs.map source).Nodup := by
  induction h with
  | nil => exact .nil
  | cons hs ht rest ih =>
    refine List.nodup_cons.2 ⟨fun hmem => ?_, ih fun x hx => hacyclic x (ht.to_reflTransGen.trans hx)⟩
    -- a second entry from the same point closes a cycle through it
    obtain ⟨y, hy, heq⟩ := List.mem_map.1 hmem
    have hback := rest.reaches hy
    rw [heq, hs] at hback
    exact hacyclic _ .refl (ht.trans_left hback)

end Linked

/-- With unique predecessors a cycle that can be reached goes through where one started. -/
theorem not_transGen_of_reachable (hu : Relator.LeftUnique R) {a x : α} (ha : ¬ TransGen R a a)
    (h : ReflTransGen R a x) : ¬ TransGen R x x := by
  induction h with
  | refl => exact ha
  | tail _ hbx ih =>
    intro hcycle
    obtain ⟨y, hy, hyx⟩ := TransGen.tail'_iff.1 hcycle
    cases hu hyx hbx
    exact ih (.head' hbx hy)

/-- A log whose entries name their predecessor's key, and the first none, has no key twice. -/
theorem nodup_of_parents {key : α → β} {parent : α → Option β} {l : List α}
    (hlinked : l.IsChain (fun a b => parent b = some (key a))) (hfirst : ∀ a ∈ l.head?, parent a = none)
    (hinj : ∀ a ∈ l, ∀ b ∈ l, key a = key b → parent a = parent b) : (l.map key).Nodup := by
  have hstep := List.isChain_iff_getElem.1 hlinked
  -- two entries with one key have predecessors with one key, down to the first, which has none
  have hne : ∀ i j (hij : i < j) (hj : j < l.length), key l[i] ≠ key l[j] := by
    intro i
    induction i with
    | zero =>
      intro j hij hj heq
      obtain ⟨j, rfl⟩ := Nat.exists_eq_succ_of_ne_zero (Nat.pos_iff_ne_zero.1 hij)
      have hparent := hinj _ (List.getElem_mem _) _ (List.getElem_mem _) heq
      rw [hfirst l[0] (by rw [List.head?_eq_getElem?]; exact List.getElem?_eq_getElem _), hstep j hj] at hparent
      cases hparent
    | succ i ih =>
      intro j hij hj heq
      obtain ⟨j, rfl⟩ := Nat.exists_eq_succ_of_ne_zero (show j ≠ 0 by omega)
      have hparent := hinj _ (List.getElem_mem _) _ (List.getElem_mem _) heq
      rw [hstep i (by omega), hstep j hj] at hparent
      exact ih j (by omega) (by omega) (Option.some.inj hparent)
  rw [List.Nodup, List.pairwise_iff_getElem]
  intro i j hi hj hij
  rw [List.getElem_map, List.getElem_map]
  exact hne i j hij (by simpa using hj)

/-- Two lists that start with one entry and go back from entry to entry along the same links are one as far as both go; where the
second ends at an entry without a predecessor, the first goes no further. -/
theorem prefix_of_backlinks {key : α → β} {parent : α → Option β} {l m : List α}
    (hl : l.IsChain (fun a b => parent a = some (key b))) (hm : m.IsChain (fun a b => parent a = some (key b)))
    (hend : ∀ a ∈ m.getLast?, parent a = none) (hkey : ∀ a ∈ l, ∀ b ∈ m, key a = key b → a = b)
    (hhead : ∀ a ∈ l.head?, a ∈ m.head?) : l <+: m := by
  induction l generalizing m with
  | nil => exact List.nil_prefix
  | cons a l ih =>
    obtain ⟨rest, rfl⟩ : ∃ rest, m = a :: rest := by
      cases m with
      | nil => cases hhead a rfl
      | cons b rest => exact ⟨rest, by rw [Option.some.inj (hhead a rfl)]⟩
    refine List.cons_prefix_cons.2 ⟨rfl, ?_⟩
    cases l with
    | nil => exact List.nil_prefix
    | cons b l =>
      obtain ⟨hab, hl⟩ := List.isChain_cons_cons.1 hl
      cases rest with
      | nil =>
        rw [hend a rfl] at hab
        cases hab
      | cons c rest =>
        obtain ⟨hac, hm⟩ := List.isChain_cons_cons.1 hm
        have hbc := hkey b (List.mem_cons_of_mem _ List.mem_cons_self) c (List.mem_cons_of_mem _ List.mem_cons_self)
          (Option.some.inj (hab.symm.trans hac))
        refine ih hl hm (fun d hd => hend d (by rw [List.getLast?_cons_cons]; exact hd))
          (fun d hd e he => hkey d (List.mem_cons_of_mem _ hd) e (List.mem_cons_of_mem _ he)) (fun d hd => ?_)
        rw [List.head?_cons] at hd ⊢
        rw [← hbc]
        exact hd

end Lib

import Mathlib.Data.List.Basic
/-!
# Loops that collect

A loop that goes over a list and only ever adds to what it has collected: what is collected
in the end was there before or was added by some round.
-/
namespace Lib

variable {α β : Type}

theorem mem_foldl_iff {f : List α → β → List α} {P : β → α → Prop} (hf : ∀ acc b x, x ∈ f acc b ↔ x ∈ acc ∨ P b x) (l : List β)
    (acc : List α) (x : α) : x ∈ l.foldl f acc ↔ x ∈ acc ∨ ∃ b ∈ l, P b x := by
  induction l generalizing acc with
  | nil => simp
  | cons b l ih =>
    rw [List.foldl_cons, ih, hf]
    simp [or_assoc]

/-- A loop that may give up has not: every round went on. -/
theorem mem_foldlM_iff {f : List α → β → Option (List α)} {P : β → α → Prop}
    (hf : ∀ acc b acc', f acc b = some acc' → ∀ x, x ∈ acc' ↔ x ∈ acc ∨ P b x) {l : List β} {acc out : List α}
    (h : l.foldlM f acc = some out) (x : α) : x ∈ out ↔ x ∈ acc ∨ ∃ b ∈ l, P b x := by
  induction l generalizing acc with
  | nil =>
    cases h
    simp
  | cons b l ih =>
    rw [List.foldlM_cons] at h
    obtain ⟨acc', hb, hl⟩ := Option.bind_eq_some_iff.1 h
    rw [ih hl, hf acc b acc' hb]
    simp [or_assoc]

/-- And so of each element there was a round that went on. -/
theorem forall_of_foldlM {f : List α → β → Option (List α)} {Q : β → Prop} (hf : ∀ acc b acc', f acc b = some acc' → Q b) {l : List β}
    {acc out : List α} (h : l.foldlM f acc = some out) : ∀ b ∈ l, Q b := by
  induction l generalizing acc with
  | nil => exact fun b hb => by cases hb
  | cons b l ih =>
    rw [List.foldlM_cons] at h
    obtain ⟨acc', hb, hl⟩ := Option.bind_eq_some_iff.1 h
    intro c hc
    rcases List.mem_cons.1 hc with rfl | hc
    · exact hf acc c acc' hb
    · exact ih hl c hc

section
variable [DecidableEq α]

/-- A value is pushed unless it was seen; the values seen are those pushed. -/
def push_new (values : List α) (value : α) : List α := if value ∈ values then values else values ++ [value]

theorem mem_push_new {values : List α} {x v : α} : x ∈ push_new values v ↔ x ∈ values ∨ x = v := by
  unfold push_new
  split
  next hmem => exact ⟨Or.inl, fun h => h.elim id fun h => h ▸ hmem⟩
  next => simp

theorem mem_foldl_push_new {l acc : List α} {x : α} : x ∈ l.foldl push_new acc ↔ x ∈ acc ∨ x ∈ l := by
  rw [mem_foldl_iff (P := fun b x => x = b) fun _ _ _ => mem_push_new]
  simp

theorem nodup_push_new {values : List α} (h : values.Nodup) (v : α) : (push_new values v).Nodup := by
  unfold push_new
  split
  · exact h
  next hnew =>
    refine List.nodup_append.2 ⟨h, by simp, fun x hx y hy => ?_⟩
    rw [List.mem_singleton.1 hy]
    exact fun hxv => hnew (hxv ▸ hx)

end
end Lib

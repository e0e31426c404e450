import Mathlib.Logic.Basic
import Mathlib.Data.List.Induction
/-!
# Labelled runs

A system is a relation `step s a t`: in state `s`, doing `a` can lead to `t`. A `Run`
is a finite sequence of steps with the labels it carried. The rules below carry a
property from one step to every run, with the labels so far when the property needs
the past.
-/
namespace Lib

variable {S L : Type} {step : S → L → S → Prop}

inductive Run (step : S → L → S → Prop) : S → List L → S → Prop
  | nil {s : S} : Run step s [] s
  | cons {s t u : S} {a : L} {as : List L} : step s a t → Run step t as u → Run step s (a :: as) u

namespace Run

theorem single {s t : S} {a : L} (h : step s a t) : Run step s [a] t := .cons h .nil

theorem append {s t u : S} {as bs : List L} (h : Run step s as t) (k : Run step t bs u) : Run step s (as ++ bs) u := by
  induction h with
  | nil => exact k
  | cons hs _ ih => exact .cons hs (ih k)

/-- A run over `as ++ bs` passes through a state between the two. -/
theorem split {s u : S} {as bs : List L} (h : Run step s (as ++ bs) u) : ∃ t, Run step s as t ∧ Run step t bs u := by
  induction as generalizing s with
  | nil => exact ⟨s, .nil, h⟩
  | cons a as ih =>
    cases h with
    | cons hs hr =>
      obtain ⟨t, h1, h2⟩ := ih hr
      exact ⟨t, .cons hs h1, h2⟩

/-- A run of one system is a run of any system that has its steps. -/
theorem mono {step' : S → L → S → Prop} {s t : S} {as : List L} (h : Run step s as t)
    (hle : ∀ s a t, step s a t → step' s a t) : Run step' s as t := by
  induction h with
  | nil => exact .nil
  | cons hs _ ih => exact .cons (hle _ _ _ hs) ih

/-- A property of states that every step of the run keeps holds at its end. -/
theorem inv {I : S → Prop} {s t : S} {as : List L} (h : Run step s as t)
    (keep : ∀ s a t, a ∈ as → I s → step s a t → I t) (h0 : I s) : I t := by
  induction h with
  | nil => exact h0
  | cons hs _ ih =>
    exact ih (fun s a t ha => keep s a t (List.mem_cons_of_mem _ ha)) (keep _ _ _ (by simp) h0 hs)

/-- What every step shows of its label, given a property that every step keeps. -/
theorem labels {I : S → Prop} {Q : L → Prop} {s t : S} {as : List L} (h : Run step s as t)
    (keep : ∀ s a t, a ∈ as → I s → step s a t → I t ∧ Q a) (h0 : I s) : ∀ a ∈ as, Q a := by
  induction h with
  | nil => exact fun a ha => nomatch ha
  | cons hs _ ih =>
    obtain ⟨hi, hq⟩ := keep _ _ _ (by simp) h0 hs
    intro b hb
    rcases List.mem_cons.1 hb with rfl | hb
    · exact hq
    · exact ih (fun s a t ha => keep s a t (List.mem_cons_of_mem _ ha)) hi b hb

/-- `inv` with the labels done so far, oldest first. -/
theorem inv_past {I : S → List L → Prop} {s t : S} {as : List L} (h : Run step s as t)
    (past : List L) (keep : ∀ s past a t, a ∈ as → I s past → step s a t → I t (past ++ [a])) (h0 : I s past) :
    I t (past ++ as) := by
  induction h generalizing past with
  | nil => simpa using h0
  | cons hs _ ih =>
    have := ih _ (fun s past a t ha => keep s past a t (List.mem_cons_of_mem _ ha)) (keep _ _ _ _ (by simp) h0 hs)
    simpa [List.append_assoc] using this

/-- A property of states and of the labels before them holds throughout any run whose every step keeps it. -/
theorem throughout {I : S → List L → Prop} {s₀ : S} (h0 : I s₀ []) (as : List L)
    (keep : ∀ past a s t, past ++ [a] <+: as → Run step s₀ past s → I s past → step s a t → I t (past ++ [a])) :
    ∀ past t, past <+: as → Run step s₀ past t → I t past := by
  intro past
  induction past using List.reverseRecOn with
  | nil =>
    intro t _ hrun
    cases hrun
    exact h0
  | append_singleton past a ih =>
    intro t has hrun
    obtain ⟨s, hpast, hlast⟩ := hrun.split
    cases hlast with
    | cons hstep hnil =>
      cases hnil
      exact keep past a s _ has hpast (ih s ((List.prefix_append _ _).trans has) hpast) hstep

/-- If each step keeps a property exactly when a condition holds before it, the property holds throughout any run exactly when the
condition holds before each of its steps. -/
theorem throughout_iff {I : S → Prop} {P : S → L → Prop} {s₀ : S} (h0 : I s₀)
    (keep : ∀ s a t, I s → step s a t → (I t ↔ P s a)) (as : List L) :
    (∀ past t, past <+: as → Run step s₀ past t → I t) ↔
      ∀ past a s t, past ++ [a] <+: as → Run step s₀ past s → step s a t → P s a := by
  constructor
  · intro hall past a s t has hrun hstep
    have hs := hall past s ((List.prefix_append _ _).trans has) hrun
    have ht := hall (past ++ [a]) t has (hrun.append (.single hstep))
    exact (keep s a t hs hstep).1 ht
  · intro hkeep past
    induction past using List.reverseRecOn with
    | nil =>
      intro t _ hrun
      cases hrun
      exact h0
    | append_singleton past a ih =>
      intro t has hrun
      obtain ⟨s, hpast, hlast⟩ := hrun.split
      cases hlast with
      | cons hstep hnil =>
        cases hnil
        have hs := ih s ((List.prefix_append _ _).trans has) hpast
        exact (keep s a _ hs hstep).2 (hkeep past a s _ has hpast hstep)

/-- A run of a system that is a partial function, computed. -/
theorem of_foldlM {f : S → L → Option S} {s t : S} {as : List L} (h : as.foldlM f s = some t) :
    Run (fun s a t => f s a = some t) s as t := by
  induction as generalizing s with
  | nil =>
    obtain rfl := Option.some.inj h
    exact .nil
  | cons a as ih =>
    rw [List.foldlM_cons] at h
    obtain ⟨u, hu, h⟩ := Option.bind_eq_some_iff.1 h
    exact .cons hu (ih h)

end Run
end Lib

import Ambush.Lib.Runs
import Mathlib.Logic.Function.Basic
import Mathlib.Data.List.Forall2
/-!
# Programs that share a store

A program makes calls one at a time and goes on with what each answers; between two of
its calls other programs make theirs. `Assures` is what a program keeps to while the
others change the shared state within a relation `R` only: the state's invariant survives
each of its own calls, the call stays within `G`, and the result meets a postcondition.
Programs that grant each other what they rely on keep to it in every interleaving
(`Assures.run`).
-/
namespace Lib

/-- A program that makes calls and ends in a result or an error. -/
inductive Prog (Op : Type) (Ans : Op → Type) (E α : Type) where
  | done (r : Except E α)
  | call (op : Op) (k : Ans op → Prog Op Ans E α)

namespace Prog

variable {Op : Type} {Ans : Op → Type} {E F α β : Type}

/-- An error ends the program. -/
def bind : Prog Op Ans E α → (α → Prog Op Ans E β) → Prog Op Ans E β
  | done (.ok a), f => f a
  | done (.error e), _ => done (.error e)
  | call op k, f => call op (fun x => (k x).bind f)

instance : Monad (Prog Op Ans E) where
  pure a := done (.ok a)
  bind := bind

def fail (e : E) : Prog Op Ans E α := done (.error e)

def perform (op : Op) : Prog Op Ans E (Ans op) := call op (fun x => done (.ok x))

def mapError (f : E → F) : Prog Op Ans E α → Prog Op Ans F α
  | done (.ok a) => done (.ok a)
  | done (.error e) => done (.error (f e))
  | call op k => call op (fun x => (k x).mapError f)

/-- The result as a value, an error included. -/
def attempt : Prog Op Ans E α → Prog Op Ans F (Except E α)
  | done r => done (.ok r)
  | call op k => call op (fun x => (k x).attempt)

/-- The program, given up after `n` calls. The call under way then may have been `sent`;
nobody waits for its answer. -/
def within (sent : Bool) : Nat → Prog Op Ans E α → Prog Op Ans F (Option (Except E α))
  | _, done r => done (.ok (some r))
  | 0, call op _ => if sent then call op (fun _ => done (.ok none)) else done (.ok none)
  | n + 1, call op k => call op (fun x => within sent n (k x))

/-- The program for each element in turn. -/
def forEach (f : α → Prog Op Ans E β) : List α → Prog Op Ans E (List β)
  | [] => done (.ok [])
  | a :: l => (f a).bind (fun b => (forEach f l).bind (fun bs => done (.ok (b :: bs))))

@[simp] theorem pure_eq (a : α) : (pure a : Prog Op Ans E α) = done (.ok a) := rfl

@[simp] theorem bind_eq (p : Prog Op Ans E α) (f : α → Prog Op Ans E β) : p >>= f = p.bind f := rfl

/-! ## Where a program can get to -/

/-- The result when every call is answered by `serve`. -/
def eval (serve : (op : Op) → Ans op) : Prog Op Ans E α → Except E α
  | done r => r
  | call op k => (k (serve op)).eval serve

theorem eval_bind (serve : (op : Op) → Ans op) (p : Prog Op Ans E α) (f : α → Prog Op Ans E β) :
    (p.bind f).eval serve = (p.eval serve).bind (fun a => (f a).eval serve) := by
  induction p with
  | done r => cases r <;> rfl
  | call op k ih => exact ih _

theorem eval_mapError (serve : (op : Op) → Ans op) (f : E → F) (p : Prog Op Ans E α) :
    (p.mapError f).eval serve = (p.eval serve).mapError f := by
  induction p with
  | done r => cases r <;> rfl
  | call op k ih => exact ih _

/-- All calls of the program are of a kind, whatever they answer. -/
def Only (P : Op → Prop) : Prog Op Ans E α → Prop
  | done _ => True
  | call op k => P op ∧ ∀ x, Only P (k x)

namespace Only

variable {P : Op → Prop} {p : Prog Op Ans E α}

theorem mono {R : Op → Prop} (h : Only P p) (hPR : ∀ op, P op → R op) : Only R p := by
  induction p with
  | done r => trivial
  | call op k ih => exact ⟨hPR op h.1, fun x => ih x (h.2 x)⟩

theorem bind {f : α → Prog Op Ans E β} (h : Only P p) (hf : ∀ a, Only P (f a)) : Only P (p.bind f) := by
  induction p with
  | done r =>
    cases r with
    | ok a => exact hf a
    | error e => trivial
  | call op k ih => exact ⟨h.1, fun x => ih x (h.2 x)⟩

theorem mapError {f : E → F} (h : Only P p) : Only P (p.mapError f) := by
  induction p with
  | done r => cases r <;> trivial
  | call op k ih => exact ⟨h.1, fun x => ih x (h.2 x)⟩

theorem attempt (h : Only P p) : Only P (p.attempt (F := F)) := by
  induction p with
  | done r => trivial
  | call op k ih => exact ⟨h.1, fun x => ih x (h.2 x)⟩

theorem within {sent : Bool} {n : Nat} (h : Only P p) : Only P (Prog.within (F := F) sent n p) := by
  induction p generalizing n with
  | done r =>
    rw [Prog.within]
    trivial
  | call op k ih =>
    cases n with
    | zero =>
      rw [Prog.within]
      split
      · exact ⟨h.1, fun _ => trivial⟩
      · trivial
    | succ n => exact ⟨h.1, fun x => ih x (h.2 x)⟩

theorem forEach {f : α → Prog Op Ans E β} (h : ∀ a, Only P (f a)) (l : List α) : Only P (Prog.forEach f l) := by
  induction l with
  | nil => trivial
  | cons a l ih => exact (h a).bind (fun b => ih.bind (fun bs => trivial))

end Only

/-- What every success of a program satisfies, whatever the answers. -/
def Yields (Q : α → Prop) : Prog Op Ans E α → Prop
  | done r => ∀ a, r = .ok a → Q a
  | call _ k => ∀ x, Yields Q (k x)

namespace Yields

variable {Q : α → Prop} {R : β → Prop} {p : Prog Op Ans E α}

theorem ok {a : α} (h : Q a) : Yields Q (done (.ok a) : Prog Op Ans E α) := fun b hb => by
  cases hb
  exact h

theorem fail {e : E} : Yields Q (Prog.fail e : Prog Op Ans E α) := fun b hb => by cases hb

theorem bind {f : α → Prog Op Ans E β} (h : Yields Q p) (hf : ∀ a, Q a → Yields R (f a)) : Yields R (p.bind f) := by
  induction p with
  | done r =>
    cases r with
    | ok a => exact hf a (h a rfl)
    | error e => exact fail
  | call op k ih => exact fun x => ih x (h x)

theorem anyway (p : Prog Op Ans E α) : Yields (fun _ => True) p := by
  induction p with
  | done r => exact fun _ _ => trivial
  | call op k ih => exact ih

theorem mapError {f : E → F} (h : Yields Q p) : Yields Q (p.mapError f) := by
  induction p with
  | done r =>
    cases r with
    | ok a => exact ok (h a rfl)
    | error e => exact fail
  | call op k ih => exact fun x => ih x (h x)

end Yields

/-- The second part need keep to a rule only where the first can lead. -/
theorem Only.bind_of {P : Op → Prop} {Q : α → Prop} {p : Prog Op Ans E α} {f : α → Prog Op Ans E β} (h : Only P p)
    (hQ : Yields Q p) (hf : ∀ a, Q a → Only P (f a)) : Only P (p.bind f) := by
  induction p with
  | done r =>
    cases r with
    | ok a => exact hf a (hQ a rfl)
    | error e => trivial
  | call op k ih => exact ⟨h.1, fun x => ih x (h.2 x) (hQ x)⟩

section
variable {S : Type}

/-- From one place of a program to another, with the moves of others in between. -/
inductive Path (answers : S → (op : Op) → Ans op → S → Prop) (others : S → S → Prop) :
    S → Prog Op Ans E α → S → Prog Op Ans E α → Prop
  | here {s : S} {p : Prog Op Ans E α} : Path answers others s p s p
  | other {s t u : S} {p q : Prog Op Ans E α} (h : others s t) (rest : Path answers others t p u q) :
      Path answers others s p u q
  | step {s t u : S} {op : Op} {k : Ans op → Prog Op Ans E α} {x : Ans op} {q : Prog Op Ans E α} (h : answers s op x t)
      (rest : Path answers others t (k x) u q) : Path answers others s (call op k) u q

namespace Path

variable {answers : S → (op : Op) → Ans op → S → Prop} {others : S → S → Prop} {s t : S}

theorem only {P : Op → Prop} {p q : Prog Op Ans E α} (h : Path answers others s p t q) (hp : Only P p) : Only P q := by
  induction h with
  | here => exact hp
  | other _ _ ih => exact ih hp
  | step _ _ ih => exact ih (hp.2 _)

theorem trans {u : S} {p q r : Prog Op Ans E α} (h : Path answers others s p t q) (k : Path answers others t q u r) :
    Path answers others s p u r := by
  induction h with
  | here => exact k
  | other ho _ ih => exact .other ho (ih k)
  | step hans _ ih => exact .step hans (ih k)

theorem bind (f : α → Prog Op Ans E β) {p q : Prog Op Ans E α} (h : Path answers others s p t q) :
    Path answers others s (p.bind f) t (q.bind f) := by
  induction h with
  | here => exact .here
  | other ho _ ih => exact .other ho ih
  | step hans _ ih => exact .step hans ih

theorem mapError (f : E → F) {p q : Prog Op Ans E α} (h : Path answers others s p t q) :
    Path answers others s (p.mapError f) t (q.mapError f) := by
  induction h with
  | here => exact .here
  | other ho _ ih => exact .other ho ih
  | step hans _ ih => exact .step hans ih

/-- A program that has ended stays where it is. -/
theorem of_done {r : Except E α} {q : Prog Op Ans E α} (h : Path answers others s (done r) t q) : q = done r := by
  generalize hp : done r = p at h
  induction h with
  | here => rfl
  | other _ _ ih => exact ih hp
  | step _ _ _ => cases hp

/-- Before the one call of a program only others have moved. -/
theorem of_call {I : S → Prop} {op op' : Op} {f : Ans op → Except E α} {k : Ans op' → Prog Op Ans E α}
    (hother : ∀ s t, others s t → I s → I t) (hs : I s)
    (h : Path answers others s (call op (fun x => done (f x))) t (call op' k)) :
    call op' k = call op (fun x => done (f x)) ∧ I t := by
  generalize hp : call op (fun x => done (f x)) = p, hq : call op' k = q at h
  induction h with
  | here => exact ⟨rfl, hs⟩
  | other ho _ ih => exact ih (hother _ _ ho hs) hp hq
  | step _ hrest _ =>
    cases hp
    rw [← hq] at hrest
    cases hrest.of_done

/-- A path into a sequence stops in its first part or goes on in the second. -/
theorem of_bind {p : Prog Op Ans E α} {f : α → Prog Op Ans E β} {op : Op} {k : Ans op → Prog Op Ans E β}
    (h : Path answers others s (p.bind f) t (call op k)) :
    (∃ k', Path answers others s p t (call op k')) ∨
      ∃ a u, Path answers others s p u (done (.ok a)) ∧ Path answers others u (f a) t (call op k) := by
  generalize hq : p.bind f = q, hr : call op k = r at h
  induction h generalizing p with
  | here =>
    subst hr
    cases p with
    | done r =>
      cases r with
      | ok a => exact .inr ⟨a, _, .here, by rw [← hq]; exact .here⟩
      | error e => cases hq
    | call op' k' =>
      cases hq
      exact .inl ⟨k', .here⟩
  | other ho _ ih =>
    rcases ih hq hr with ⟨k', hk'⟩ | ⟨a, u, hu, hrest⟩
    · exact .inl ⟨k', .other ho hk'⟩
    · exact .inr ⟨a, u, .other ho hu, hrest⟩
  | step hans hpath ih =>
    cases p with
    | done r =>
      cases r with
      | ok a =>
        have hfa : f a = call _ _ := hq
        subst hr
        exact .inr ⟨a, _, .here, by rw [hfa]; exact .step hans hpath⟩
      | error e => cases hq
    | call op' k' =>
      cases hq
      rcases ih rfl hr with ⟨k'', hk''⟩ | ⟨a, u, hu, hrest⟩
      · exact .inl ⟨k'', .step hans hk''⟩
      · exact .inr ⟨a, u, .step hans hu, hrest⟩

theorem of_mapError {p : Prog Op Ans E α} {f : E → F} {op : Op} {k : Ans op → Prog Op Ans F α}
    (h : Path answers others s (p.mapError f) t (call op k)) : ∃ k', Path answers others s p t (call op k') := by
  generalize hq : p.mapError f = q, hr : call op k = r at h
  induction h generalizing p with
  | here =>
    subst hr
    cases p with
    | done r => cases r <;> cases hq
    | call op' k' =>
      cases hq
      exact ⟨k', .here⟩
  | other ho _ ih =>
    obtain ⟨k', hk'⟩ := ih hq hr
    exact ⟨k', .other ho hk'⟩
  | step hans _ ih =>
    cases p with
    | done r => cases r <;> cases hq
    | call op' k' =>
      cases hq
      obtain ⟨k'', hk''⟩ := ih rfl hr
      exact ⟨k'', .step hans hk''⟩

end Path

end

/-! ## What a program keeps to -/

/-- What a program relies on and what it grants: others move within `rely`, its own calls
within `guar`, all of them keep `Inv`, and whatever happens the state only gets `later`. -/
structure Contract (S : Type) where
  Inv : S → Prop
  rely : S → S → Prop
  guar : S → S → Prop
  later : S → S → Prop
  rely_refl : ∀ s, rely s s
  rely_trans : ∀ {s t u}, rely s t → rely t u → rely s u
  later_trans : ∀ {s t u}, later s t → later t u → later s u
  rely_later : ∀ {s t}, rely s t → later s t
  guar_later : ∀ {s t}, guar s t → later s t

section
variable {S : Type} (answers : S → (op : Op) → Ans op → S → Prop) (C : Contract S)

/-- From `s` on the program keeps its contract and its result meets `Q`. -/
def Assures : Prog Op Ans E α → (Except E α → S → Prop) → S → Prop
  | done r, Q, s => ∀ t, C.rely s t → C.Inv t → Q r t
  | call op k, Q, s => ∀ t, C.rely s t → C.Inv t → ∀ x u, answers t op x u → C.Inv u ∧ C.guar t u ∧ Assures (k x) Q u

variable {answers C} {p : Prog Op Ans E α} {P Q : Except E α → S → Prop} {s t : S}

theorem Assures.stable (h : Assures answers C p Q s) (hst : C.rely s t) : Assures answers C p Q t := by
  cases p with
  | done r => exact fun u htu => h u (C.rely_trans hst htu)
  | call op k => exact fun u htu => h u (C.rely_trans hst htu)

theorem Assures.mono (h : Assures answers C p P s) (hPQ : ∀ r t, C.later s t → C.Inv t → P r t → Q r t) :
    Assures answers C p Q s := by
  induction p generalizing s with
  | done r => exact fun t hst hi => hPQ r t (C.rely_later hst) hi (h t hst hi)
  | call op k ih =>
    intro t hst hi x u hans
    obtain ⟨hu, hg, hrest⟩ := h t hst hi x u hans
    have hsu : C.later s u := C.later_trans (C.rely_later hst) (C.guar_later hg)
    exact ⟨hu, hg, ih x hrest (fun r v huv => hPQ r v (C.later_trans hsu huv))⟩

/-- The contract is kept to the end of a path, and a value returned there meets its postcondition. -/
theorem Assures.path {q : Prog Op Ans E α} {others : S → S → Prop}
    (hothers : ∀ s t, others s t → C.Inv s → C.rely s t ∧ C.Inv t) (hs : C.Inv s) (h : Assures answers C p Q s)
    (hpath : Path answers others s p t q) : C.Inv t ∧ Assures answers C q Q t := by
  induction hpath with
  | here => exact ⟨hs, h⟩
  | other ho _ ih =>
    obtain ⟨hr, ht⟩ := hothers _ _ ho hs
    exact ih ht (h.stable hr)
  | step hans _ ih =>
    obtain ⟨ht, -, hrest⟩ := h _ (C.rely_refl _) hs _ _ hans
    exact ih ht hrest

/-- The rule for sequences. -/
theorem Assures.bind {f : α → Prog Op Ans E β} {Q : Except E β → S → Prop} (hs : C.Inv s)
    (h : Assures answers C p P s)
    (hok : ∀ a t, C.later s t → C.Inv t → P (.ok a) t → Assures answers C (f a) Q t)
    (herr : ∀ e t, C.later s t → C.Inv t → P (.error e) t → Q (.error e) t) :
    Assures answers C (p.bind f) Q s := by
  induction p generalizing s with
  | done r =>
    cases r with
    | ok a => exact hok a s (C.rely_later (C.rely_refl s)) hs (h s (C.rely_refl s) hs)
    | error e => exact fun t hst hi => herr e t (C.rely_later hst) hi (h t hst hi)
  | call op k ih =>
    intro t hst hi x u hans
    obtain ⟨hu, hg, hrest⟩ := h t hst hi x u hans
    have hsu : C.later s u := C.later_trans (C.rely_later hst) (C.guar_later hg)
    exact ⟨hu, hg, ih x hu hrest (fun a v huv => hok a v (C.later_trans hsu huv))
      (fun e v huv => herr e v (C.later_trans hsu huv))⟩

theorem Assures.attempt {Q : Except F (Except E α) → S → Prop} (h : Assures answers C p P s)
    (hQ : ∀ r t, C.Inv t → P r t → Q (.ok r) t) : Assures answers C p.attempt Q s := by
  induction p generalizing s with
  | done r => exact fun t hst hi => hQ r t hi (h t hst hi)
  | call op k ih =>
    intro t hst hi x u hans
    obtain ⟨hu, hg, hrest⟩ := h t hst hi x u hans
    exact ⟨hu, hg, ih x hrest⟩

theorem Assures.mapError {f : E → F} {Q : Except F α → S → Prop} (h : Assures answers C p P s)
    (hok : ∀ a t, C.Inv t → P (.ok a) t → Q (.ok a) t) (herr : ∀ e t, C.Inv t → P (.error e) t → Q (.error (f e)) t) :
    Assures answers C (p.mapError f) Q s := by
  induction p generalizing s with
  | done r =>
    cases r with
    | ok a => exact fun t hst hi => hok a t hi (h t hst hi)
    | error e => exact fun t hst hi => herr e t hi (h t hst hi)
  | call op k ih =>
    intro t hst hi x u hans
    obtain ⟨hu, hg, hrest⟩ := h t hst hi x u hans
    exact ⟨hu, hg, ih x hrest⟩

/-- A program that is given up has still kept its contract. -/
theorem Assures.within {n : Nat} {sent : Bool} {Q : Except F (Option (Except E α)) → S → Prop}
    (h : Assures answers C p P s) (hin : ∀ r t, C.Inv t → P r t → Q (.ok (some r)) t)
    (hout : ∀ t, C.Inv t → Q (.ok none) t) : Assures answers C (Prog.within sent n p) Q s := by
  induction p generalizing s n with
  | done r =>
    rw [Prog.within]
    exact fun t hst hi => hin r t hi (h t hst hi)
  | call op k ih =>
    cases n with
    | zero =>
      rw [Prog.within]
      split
      · intro t hst hi x u hans
        obtain ⟨hu, hg, -⟩ := h t hst hi x u hans
        exact ⟨hu, hg, fun v _ hv => hout v hv⟩
      · exact fun t _ hi => hout t hi
    | succ n =>
      intro t hst hi x u hans
      obtain ⟨hu, hg, hrest⟩ := h t hst hi x u hans
      exact ⟨hu, hg, ih x hrest⟩

/-- A contract that asks for less and promises more. -/
theorem Assures.weaken {D : Contract S} (hinv : D.Inv = C.Inv) (hrely : ∀ s t, D.rely s t → C.rely s t)
    (hguar : ∀ s t, C.guar s t → D.guar s t) (h : Assures answers C p P s) :
    Assures answers D p (fun r t => P r t ∧ C.later s t) s := by
  induction p generalizing s with
  | done r =>
    intro t hst hi
    exact ⟨h t (hrely s t hst) (by rwa [← hinv]), C.rely_later (hrely s t hst)⟩
  | call op k ih =>
    intro t hst hi x u hans
    obtain ⟨hu, hg, hrest⟩ := h t (hrely s t hst) (by rwa [← hinv]) x u hans
    have hsu : C.later s u := C.later_trans (C.rely_later (hrely s t hst)) (C.guar_later hg)
    rw [hinv]
    refine ⟨hu, hguar t u hg, ?_⟩
    exact (ih x hrest).mono (fun r v _ _ hr => ⟨hr.1, C.later_trans hsu hr.2⟩)

/-! ## What a program returns -/

variable (answers C) in
/-- The contract, with a postcondition for the value only. -/
def Ensures (p : Prog Op Ans E α) (Q : α → S → Prop) (s : S) : Prop :=
  Assures answers C p (fun r t => ∀ a, r = .ok a → Q a t) s

namespace Ensures

variable {A B : α → S → Prop}

theorem mono (h : Ensures answers C p A s) (hAB : ∀ a t, C.later s t → C.Inv t → A a t → B a t) :
    Ensures answers C p B s :=
  Assures.mono h (fun _ t hst hi hr a ha => hAB a t hst hi (hr a ha))

theorem done {r : Except E α} (h : ∀ a t, r = .ok a → C.rely s t → C.Inv t → A a t) :
    Ensures answers C (Prog.done r) A s := fun t hst hi a ha => h a t ha hst hi

theorem pure {a : α} (h : ∀ t, C.rely s t → C.Inv t → A a t) : Ensures (E := E) answers C (Prog.done (.ok a)) A s :=
  done (fun b t hb hst hi => by cases hb; exact h t hst hi)

theorem fail {e : E} : Ensures answers C (Prog.fail e) A s := done (fun a t ha => by cases ha)

theorem bind {f : α → Prog Op Ans E β} {Q : β → S → Prop} (hs : C.Inv s) (h : Ensures answers C p A s)
    (hf : ∀ a t, C.later s t → C.Inv t → A a t → Ensures answers C (f a) Q t) : Ensures answers C (p.bind f) Q s :=
  Assures.bind hs h (fun a t hst hi ha => hf a t hst hi (ha a rfl)) (fun e t _ _ _ a ha => by cases ha)

theorem mapError {f : E → F} (h : Ensures answers C p A s) : Ensures answers C (p.mapError f) A s :=
  Assures.mapError h (fun a t _ ha b hb => by cases hb; exact ha a rfl) (fun e t _ _ a ha => by cases ha)

theorem attempt (h : Ensures answers C p A s) :
    Ensures (E := F) answers C p.attempt (fun r t => ∀ a, r = .ok a → A a t) s :=
  Assures.attempt h (fun r t _ hr r' hr' => by cases hr'; exact hr)

theorem within {n : Nat} {sent : Bool} (h : Ensures answers C p A s) :
    Ensures (E := F) answers C (Prog.within sent n p) (fun o t => ∀ a, o = some (.ok a) → A a t) s :=
  Assures.within h (fun r t _ hr o ho a ha => by cases ho; exact hr a (Option.some.inj ha))
    (fun t _ o ho a ha => by cases ho; cases ha)

/-- Elements handled in turn, each with a result that stays good. -/
theorem forEach {f : α → Prog Op Ans E β} {G : α → β → S → Prop} {l : List α}
    (hlater : ∀ a b s t, C.later s t → C.Inv s → C.Inv t → G a b s → G a b t) (hs : C.Inv s)
    (hf : ∀ a ∈ l, ∀ t, C.later s t → C.Inv t → Ensures answers C (f a) (G a) t) :
    Ensures answers C (Prog.forEach f l) (fun bs t => List.Forall₂ (fun a b => G a b t) l bs) s := by
  have hrefl : ∀ s, C.later s s := fun s => C.rely_later (C.rely_refl s)
  induction l generalizing s with
  | nil => exact pure (fun _ _ _ => .nil)
  | cons a l ih =>
    refine bind hs (hf a (by simp) s (hrefl s) hs) (fun b t hst ht hb => ?_)
    refine bind ht (ih ht (fun a' ha' u htu => hf a' (List.mem_cons_of_mem _ ha') u (C.later_trans hst htu)))
      (fun bs u htu hu hbs => ?_)
    refine pure (fun v huv hv => ?_)
    have hlast : C.later u v := C.rely_later huv
    refine .cons (hlater a b t v (C.later_trans htu hlast) ht hv hb) ?_
    exact hbs.imp (fun a b h => hlater a b u v hlast hu hv h)

end Ensures

/-! ## Many programs -/

/-- Programs and the state they share. -/
structure System (I : Type) (Op : Type) (Ans : Op → Type) (E α S : Type) where
  shared : S
  progs : I → Prog Op Ans E α

/-- A call of one of the programs, which then goes on with the answer. -/
def System.Step {I : Type} [DecidableEq I] (answers : I → S → (op : Op) → Ans op → S → Prop)
    (s : System I Op Ans E α S) (i : I) (t : System I Op Ans E α S) : Prop :=
  ∃ op k x, s.progs i = call op k ∧ answers i s.shared op x t.shared ∧ t.progs = Function.update s.progs i (k x)

/-- A program that runs while the others wait. -/
theorem System.run_of_path {I : Type} [DecidableEq I] {answers : I → S → (op : Op) → Ans op → S → Prop} {i : I} {s t : S}
    {p q : Prog Op Ans E α} (h : Path (answers i) (fun _ _ => False) s p t q) (progs : I → Prog Op Ans E α)
    (hp : progs i = p) : ∃ is progs', Run (System.Step answers) ⟨s, progs⟩ is ⟨t, progs'⟩ ∧ progs' i = q := by
  induction h generalizing progs with
  | here => exact ⟨[], progs, .nil, hp⟩
  | other ho _ _ => exact ho.elim
  | step hans _ ih =>
    rename_i x _ _
    obtain ⟨is, progs', hrun, hq⟩ := ih _ (Function.update_self i _ progs)
    exact ⟨i :: is, progs', .cons ⟨_, _, x, hp, hans, rfl⟩ hrun, hq⟩

/-- Programs that grant what the others rely on keep their contracts in every interleaving. -/
theorem Assures.run {I : Type} [DecidableEq I] {answers : I → S → (op : Op) → Ans op → S → Prop}
    {C : I → Contract S} {Inv : S → Prop} {Q : I → Except E α → S → Prop} (hinv : ∀ i, (C i).Inv = Inv)
    (hgrant : ∀ i j s t, i ≠ j → (C i).guar s t → (C j).rely s t) {s t : System I Op Ans E α S} {is : List I}
    (hrun : Run (System.Step answers) s is t) (hs : Inv s.shared)
    (h : ∀ i, Assures (answers i) (C i) (s.progs i) (Q i) s.shared) :
    Inv t.shared ∧ ∀ i, Assures (answers i) (C i) (t.progs i) (Q i) t.shared := by
  refine hrun.inv (fun s i t _ hst hstep => ?_) (I := fun s : System I Op Ans E α S => Inv s.shared ∧ ∀ i,
    Assures (answers i) (C i) (s.progs i) (Q i) s.shared) ⟨hs, h⟩
  obtain ⟨op, k, x, hat, hans, hprogs⟩ := hstep
  have hi := hst.2 i
  rw [hat] at hi
  obtain ⟨hu, hg, hrest⟩ := hi _ ((C i).rely_refl _) (by rw [hinv]; exact hst.1) x _ hans
  refine ⟨by rwa [hinv] at hu, fun j => ?_⟩
  rw [hprogs]
  by_cases hj : j = i
  · subst hj
    rwa [Function.update_self]
  · rw [Function.update_of_ne hj]
    exact (hst.2 j).stable (hgrant i j _ _ (Ne.symm hj) hg)

end

end Prog
end Lib

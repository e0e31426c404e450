import Mathlib.Logic.Basic
/-!
# A directory that survives crashes

Files in one directory. A write reaches the file at once and the disk only when it is
synced; a name reaches the disk when the directory is. A `Crash` keeps what was synced:
of a file's other bytes any tail may be left, and a name is bound to any file it was
bound to since the directory was last synced. A sequence of calls can fail, or the
process die, inside any of them (`Exec`).
-/
namespace Lib

abbrev Bytes := List UInt8

variable {N : Type} [DecidableEq N]

structure Files (N : Type) where
  /-- What a file holds, and how much of it is on the disk. -/
  data : Nat → Bytes
  synced : Nat → Bytes
  /-- The file of a name, and the files a crash can leave the name with. -/
  names : N → Option Nat
  leaves : N → List (Option Nat)
  /-- The next file. -/
  next : Nat

inductive FileOp (N : Type) where
  /-- Create a file under a name that has none. -/
  | create (name : N)
  /-- Append to a file. -/
  | write (file : Nat) (bytes : Bytes)
  | sync (file : Nat)
  | rename (source target : N)
  | syncDir

namespace Files

def empty : Files N := ⟨fun _ => [], fun _ => [], fun _ => none, fun _ => [none], 0⟩

def write (fs : Files N) (file : Nat) (bytes : Bytes) : Files N :=
  { fs with data := fun i => if i = file then fs.data i ++ bytes else fs.data i }

/-- A call that succeeds. -/
def apply (fs : Files N) : FileOp N → Option (Files N)
  | .create name =>
    if fs.names name = none then
      some {
        data := fun i => if i = fs.next then [] else fs.data i
        synced := fun i => if i = fs.next then [] else fs.synced i
        names := fun n => if n = name then some fs.next else fs.names n
        leaves := fun n => if n = name then some fs.next :: fs.leaves n else fs.leaves n
        next := fs.next + 1 }
    else none
  | .write file bytes => some (fs.write file bytes)
  | .sync file => some { fs with synced := fun i => if i = file then fs.data i else fs.synced i }
  | .rename source target =>
    some { fs with
      names := fun n => if n = target then fs.names source else if n = source then none else fs.names n
      leaves := fun n =>
        if n = target then fs.names source :: fs.leaves n
        else if n = source then none :: fs.leaves n else fs.leaves n }
  | .syncDir => some { fs with leaves := fun n => [fs.names n] }

/-- What a call leaves that fails, or that its process does not survive: nothing, all of
its effect, or a part of its bytes. -/
inductive Partly (fs : Files N) : FileOp N → Files N → Prop
  | nothing {op : FileOp N} : Partly fs op fs
  | done {op : FileOp N} {fs' : Files N} : fs.apply op = some fs' → Partly fs op fs'
  | torn {file : Nat} {bytes part : Bytes} : part <+: bytes → Partly fs (.write file bytes) (fs.write file part)

/-- Calls in order, up to the end or to one that is cut short. -/
inductive Exec : Files N → List (FileOp N) → Files N → Bool → Prop
  | nil {fs : Files N} : Exec fs [] fs true
  | cut {fs fs' : Files N} {op : FileOp N} {ops : List (FileOp N)} : Partly fs op fs' → Exec fs (op :: ops) fs' false
  | cons {fs fs' fs'' : Files N} {op : FileOp N} {ops : List (FileOp N)} {done : Bool} :
      fs.apply op = some fs' → Exec fs' ops fs'' done → Exec fs (op :: ops) fs'' done

/-- What can be found after the machine went down. -/
structure Crash (fs fs' : Files N) : Prop where
  names : ∀ n, fs'.names n ∈ fs.leaves n
  data : ∀ i, ∃ tail, fs'.data i = fs.synced i ++ tail ∧ (fs.data i = fs.synced i → tail = [])
  synced : fs'.synced = fs'.data
  leaves : ∀ n, fs'.leaves n = [fs'.names n]
  next : fs'.next = fs.next

/-- A property that calls keep, cut short or not, holds wherever a sequence of them ends. -/
theorem Exec.inv {I : Files N → Prop} {Q : FileOp N → Prop} {fs fs' : Files N} {ops : List (FileOp N)} {done : Bool}
    (h : Exec fs ops fs' done) (hops : ∀ op ∈ ops, Q op)
    (keep : ∀ fs op fs', Q op → I fs → Partly fs op fs' → I fs') (h0 : I fs) : I fs' := by
  induction h with
  | nil => exact h0
  | cut hp => exact keep _ _ _ (hops _ List.mem_cons_self) h0 hp
  | cons happ _ ih =>
    exact ih (fun op hop => hops op (List.mem_cons_of_mem _ hop))
      (keep _ _ _ (hops _ List.mem_cons_self) h0 (.done happ))

/-- A sequence that ran to its end is a sequence of successful calls. -/
theorem Exec.foldlM {fs fs' : Files N} {ops : List (FileOp N)} (h : Exec fs ops fs' true) :
    ops.foldlM apply fs = some fs' := by
  generalize hd : true = done at h
  induction h with
  | nil => rfl
  | cut => exact absurd hd (by decide)
  | cons happ _ ih => rw [List.foldlM_cons, happ]; exact ih hd

/-- Successful calls are a sequence that ran to its end. -/
theorem Exec.of_foldlM {fs fs' : Files N} {ops : List (FileOp N)} (h : ops.foldlM apply fs = some fs') :
    Exec fs ops fs' true := by
  induction ops generalizing fs with
  | nil =>
    obtain rfl := Option.some.inj h
    exact .nil
  | cons op ops ih =>
    rw [List.foldlM_cons] at h
    cases happ : fs.apply op with
    | none => rw [happ] at h; exact absurd h (by simp)
    | some g =>
      rw [happ] at h
      exact .cons happ (ih h)

/-- After a last sync of the directory, a crash loses no name. -/
theorem Exec.leaves_of_syncDir {fs fs' : Files N} {ops : List (FileOp N)}
    (h : Exec fs (ops ++ [.syncDir]) fs' true) (n : N) : fs'.leaves n = [fs'.names n] := by
  have hfold := h.foldlM
  rw [List.foldlM_append] at hfold
  cases hg : ops.foldlM apply fs with
  | none => rw [hg] at hfold; exact absurd hfold (by simp)
  | some g =>
    rw [hg] at hfold
    obtain rfl := Option.some.inj hfold
    rfl

/-- Names go to files that were created. -/
structure Bounded (fs : Files N) : Prop where
  names : ∀ n, fs.names n ∈ fs.leaves n
  leaves : ∀ n i, some i ∈ fs.leaves n → i < fs.next

omit [DecidableEq N] in
theorem Bounded.empty : Bounded (Files.empty : Files N) where
  names n := List.mem_singleton.2 rfl
  leaves n i h := absurd (List.mem_singleton.1 h) (by simp)

theorem Bounded.partly {fs fs' : Files N} {op : FileOp N} (h : Bounded fs) (hp : fs.Partly op fs') : Bounded fs' := by
  cases hp with
  | nothing => exact h
  | torn _ => exact ⟨h.names, h.leaves⟩
  | done happ =>
    cases op with
    | create name =>
      simp only [Files.apply] at happ
      split at happ
      · obtain rfl := Option.some.inj happ
        constructor
        · intro n
          show (if n = name then _ else _) ∈ (if n = name then _ else _)
          split
          · exact List.mem_cons_self
          · exact h.names n
        · intro n i hi
          replace hi : some i ∈ if n = name then some fs.next :: fs.leaves n else fs.leaves n := hi
          show i < fs.next + 1
          split at hi
          · rcases List.mem_cons.1 hi with he | hi
            · rw [Option.some.inj he]
              exact Nat.lt_succ_self _
            · exact Nat.lt_succ_of_lt (h.leaves n i hi)
          · exact Nat.lt_succ_of_lt (h.leaves n i hi)
      · exact absurd happ (by simp)
    | write file bytes =>
      obtain rfl := Option.some.inj happ
      exact ⟨h.names, h.leaves⟩
    | sync file =>
      obtain rfl := Option.some.inj happ
      exact ⟨h.names, h.leaves⟩
    | rename source target =>
      obtain rfl := Option.some.inj happ
      constructor
      · intro n
        show (if n = target then _ else _) ∈ (if n = target then _ else _)
        split
        · exact List.mem_cons_self
        · split
          · exact List.mem_cons_self
          · exact h.names n
      · intro n i hi
        replace hi : some i ∈ if n = target then fs.names source :: fs.leaves n
          else if n = source then none :: fs.leaves n else fs.leaves n := hi
        show i < fs.next
        split at hi
        · rcases List.mem_cons.1 hi with he | hi
          · exact h.leaves source i (he ▸ h.names source)
          · exact h.leaves n i hi
        · split at hi
          · exact h.leaves n i (by simpa using hi)
          · exact h.leaves n i hi
    | syncDir =>
      obtain rfl := Option.some.inj happ
      exact ⟨fun n => List.mem_singleton.2 rfl, fun n i hi => h.leaves n i (List.mem_singleton.1 hi ▸ h.names n)⟩

omit [DecidableEq N] in
theorem Bounded.crash {fs fs' : Files N} (h : Bounded fs) (hc : fs.Crash fs') : Bounded fs' where
  names n := by rw [hc.leaves]; exact List.mem_singleton.2 rfl
  leaves n i hi := by
    rw [hc.leaves, List.mem_singleton] at hi
    rw [hc.next]
    exact h.leaves n i (hi ▸ hc.names n)

omit [DecidableEq N] in
theorem Bounded.lt {fs : Files N} {n : N} {file : Nat} (h : Bounded fs) (hn : fs.names n = some file) :
    file < fs.next :=
  h.leaves n file (hn ▸ h.names n)

theorem Bounded.exec {fs fs' : Files N} {ops : List (FileOp N)} {done : Bool} (h : Bounded fs)
    (he : Exec fs ops fs' done) : Bounded fs' :=
  he.inv (fun _ _ => True.intro) (fun _ _ _ _ hb hp => hb.partly hp) h

end Files

/-- A sync of the directory changes nothing that can be seen before a crash. -/
theorem Files.Exec.syncDir {fs fs' : Files N} {done : Bool} (he : fs.Exec [.syncDir] fs' done) :
    fs'.names = fs.names ∧ fs'.data = fs.data := by
  have hdone : ∀ g, fs.apply .syncDir = some g → g.names = fs.names ∧ g.data = fs.data := by
    intro g hg
    obtain rfl := Option.some.inj hg
    exact ⟨rfl, rfl⟩
  cases he with
  | cut hp =>
    cases hp with
    | nothing => exact ⟨rfl, rfl⟩
    | done happ => exact hdone _ happ
  | cons happ hnil =>
    cases hnil
    exact hdone _ happ

/-! ## A file that keeps its name -/

/-- The name stays with the file, whatever crash comes. -/
structure Pinned (fs : Files N) (name : N) (file : Nat) : Prop where
  names : fs.names name = some file
  leaves : ∀ b ∈ fs.leaves name, b = some file
  old : file < fs.next

/-- Calls that leave a name alone. -/
def FileOp.Spares (name : N) : FileOp N → Prop
  | .create n => n ≠ name
  | .rename source target => source ≠ name ∧ target ≠ name
  | _ => True

theorem Pinned.partly {fs fs' : Files N} {name : N} {file : Nat} {op : FileOp N} (h : Pinned fs name file)
    (hop : op.Spares name) (hp : fs.Partly op fs') : Pinned fs' name file := by
  cases hp with
  | nothing => exact h
  | torn _ => exact ⟨h.names, h.leaves, h.old⟩
  | done happ =>
    cases op with
    | create n =>
      simp only [Files.apply] at happ
      split at happ
      · obtain rfl := Option.some.inj happ
        have hne : name ≠ n := fun he => hop he.symm
        exact ⟨by simp [hne, h.names], by simpa [hne] using h.leaves, Nat.lt_succ_of_lt h.old⟩
      · exact absurd happ (by simp)
    | write file bytes =>
      obtain rfl := Option.some.inj happ
      exact ⟨h.names, h.leaves, h.old⟩
    | sync file =>
      obtain rfl := Option.some.inj happ
      exact ⟨h.names, h.leaves, h.old⟩
    | rename source target =>
      obtain rfl := Option.some.inj happ
      have hs : name ≠ source := fun he => hop.1 he.symm
      have ht : name ≠ target := fun he => hop.2 he.symm
      exact ⟨by simp [hs, ht, h.names], by simpa [hs, ht] using h.leaves, h.old⟩
    | syncDir =>
      obtain rfl := Option.some.inj happ
      refine ⟨h.names, ?_, h.old⟩
      intro b hb
      rw [List.mem_singleton.1 hb, h.names]

omit [DecidableEq N] in
theorem Pinned.crash {fs fs' : Files N} {name : N} {file : Nat} (h : Pinned fs name file) (hc : fs.Crash fs') :
    Pinned fs' name file := by
  have hn : fs'.names name = some file := h.leaves _ (hc.names name)
  refine ⟨hn, ?_, by rw [hc.next]; exact h.old⟩
  intro b hb
  rw [hc.leaves, List.mem_singleton, hn] at hb
  exact hb

theorem Pinned.exec {fs fs' : Files N} {name : N} {file : Nat} {ops : List (FileOp N)} {done : Bool}
    (h : Pinned fs name file) (he : fs.Exec ops fs' done) (hops : ∀ op ∈ ops, op.Spares name) : Pinned fs' name file :=
  he.inv hops (I := fun g => Pinned g name file) (fun _ _ _ hop hi hp => hi.partly hop hp) h

omit [DecidableEq N] in
theorem Pinned.of_leaves {fs : Files N} {name : N} {file : Nat} (hb : fs.Bounded) (hn : fs.names name = some file)
    (hl : fs.leaves name = [fs.names name]) : Pinned fs name file := by
  refine ⟨hn, ?_, hb.lt hn⟩
  intro b hb
  rw [hl, hn] at hb
  exact List.mem_singleton.1 hb

/-! ## A file that only grows -/

/-- The file starts with these bytes, and they are on the disk. -/
def Kept (fs : Files N) (file : Nat) (bytes : Bytes) : Prop :=
  bytes <+: fs.synced file ∧ fs.synced file <+: fs.data file

theorem Kept.partly {fs fs' : Files N} {file : Nat} {bytes : Bytes} {op : FileOp N} (h : Kept fs file bytes)
    (hold : file < fs.next) (hp : fs.Partly op fs') : Kept fs' file bytes := by
  have hwrite : ∀ i b, Kept (fs.write i b) file bytes := by
    intro i b
    refine ⟨h.1, ?_⟩
    simp only [Files.write]
    split
    · exact h.2.trans (List.prefix_append _ _)
    · exact h.2
  cases hp with
  | nothing => exact h
  | torn _ => exact hwrite _ _
  | done happ =>
    cases op with
    | create n =>
      simp only [Files.apply] at happ
      split at happ
      · obtain rfl := Option.some.inj happ
        have hne : file ≠ fs.next := Nat.ne_of_lt hold
        simpa [Kept, hne] using h
      · exact absurd happ (by simp)
    | write i b =>
      obtain rfl := Option.some.inj happ
      exact hwrite i b
    | sync i =>
      obtain rfl := Option.some.inj happ
      by_cases hi : file = i
      · exact ⟨by simpa [hi] using hi ▸ h.1.trans h.2, by simp [hi]⟩
      · exact ⟨by simpa [hi] using h.1, by simpa [hi] using h.2⟩
    | rename source target =>
      obtain rfl := Option.some.inj happ
      exact h
    | syncDir =>
      obtain rfl := Option.some.inj happ
      exact h

theorem Kept.exec {fs fs' : Files N} {name : N} {file : Nat} {bytes : Bytes} {ops : List (FileOp N)} {done : Bool}
    (h : Kept fs file bytes) (hpin : Pinned fs name file) (he : fs.Exec ops fs' done)
    (hops : ∀ op ∈ ops, op.Spares name) : Kept fs' file bytes :=
  (he.inv hops (I := fun g => Kept g file bytes ∧ Pinned g name file)
    (fun _ _ _ hop hi hp => ⟨hi.1.partly hi.2.old hp, hi.2.partly hop hp⟩) ⟨h, hpin⟩).1

omit [DecidableEq N] in
theorem Kept.crash {fs fs' : Files N} {file : Nat} {bytes : Bytes} (h : Kept fs file bytes) (hc : fs.Crash fs') :
    Kept fs' file bytes := by
  obtain ⟨tail, htail, -⟩ := hc.data file
  rw [Kept, hc.synced]
  exact ⟨by rw [htail]; exact h.1.trans (List.prefix_append _ _), List.prefix_refl _⟩

end Lib

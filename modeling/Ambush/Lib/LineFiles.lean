import Ambush.Lib.Results
import Ambush.Lib.Texts
/-!
# Files of lines

A file with one entry on each line, read up to the first line that is no entry. What a
reader makes of a file to which the front of some more lines was added: it finds the
entries whose lines are there, with or without the last line's end, and fails on a line
that is there in part.
-/
namespace Lib

def line_feed : UInt8 := 10

def carriage_return : UInt8 := 13

/-- `BufRead::lines`: an end of line is a line feed with or without a carriage return, and the last line needs none. -/
def lines : List UInt8 → List (List UInt8)
  | [] => []
  | b :: bytes =>
    if b = line_feed then [] :: lines bytes
    else if b = carriage_return ∧ bytes.head? = some line_feed then lines bytes
    else
      match lines bytes with
      | [] => [[b]]
      | line :: rest => (b :: line) :: rest

/-- A file that more lines can be added to. -/
def Terminated (bytes : List UInt8) : Prop := bytes = [] ∨ bytes.getLast? = some line_feed

instance (bytes : List UInt8) : Decidable (Terminated bytes) := inferInstanceAs (Decidable (_ ∨ _))

theorem lines_ne_nil {bytes : List UInt8} (h : bytes ≠ []) : lines bytes ≠ [] := by
  induction bytes with
  | nil => exact absurd rfl h
  | cons b bytes ih =>
    rw [lines]
    split
    · exact List.cons_ne_nil _ _
    · split
      · next hcr => exact ih (fun hnil => by simp [hnil] at hcr)
      · split <;> exact List.cons_ne_nil _ _

theorem terminated_append {bytes more : List UInt8} (h : Terminated more) (hmore : more ≠ []) : Terminated (bytes ++ more) := by
  refine .inr ?_
  rw [List.getLast?_append, h.resolve_left hmore]
  rfl

theorem lines_append {bytes : List UInt8} (h : Terminated bytes) (more : List UInt8) :
    lines (bytes ++ more) = lines bytes ++ lines more := by
  induction bytes with
  | nil => rfl
  | cons b bytes ih =>
    by_cases hnil : bytes = []
    · subst hnil
      obtain rfl : b = line_feed := Option.some.inj (h.resolve_left (List.cons_ne_nil _ _))
      simp [lines]
    · have hrest : Terminated bytes := .inr (by
        have hlast := h.resolve_left (List.cons_ne_nil _ _)
        rwa [List.getLast?_cons_of_ne_nil hnil] at hlast)
      have hhead : (bytes ++ more).head? = bytes.head? := List.head?_append_of_ne_nil _ hnil
      rw [List.cons_append, lines, lines, hhead, ih hrest]
      split
      · rfl
      · split
        · rfl
        · obtain ⟨line, rest, hlines⟩ := List.exists_cons_of_ne_nil (lines_ne_nil hnil)
          rw [hlines]
          rfl

/-- A line with its end. -/
theorem lines_line {body : List UInt8} (hbody : line_feed ∉ body) (hlast : body.getLast? ≠ some carriage_return) (more : List UInt8) :
    lines (body ++ line_feed :: more) = body :: lines more := by
  induction body with
  | nil => simp [lines]
  | cons b body ih =>
    obtain ⟨hb, hrest⟩ := not_or.1 (List.mem_cons.not.1 hbody)
    have hnot : ¬ (b = carriage_return ∧ (body ++ line_feed :: more).head? = some line_feed) := by
      rintro ⟨hcr, hhead⟩
      cases body with
      | nil => exact hlast (congrArg some hcr)
      | cons c body => exact hrest (List.mem_cons.2 (.inl (Option.some.inj hhead).symm))
    have hlast' : body.getLast? ≠ some carriage_return := by
      intro he
      cases body with
      | nil => cases he
      | cons c body => exact hlast (by rwa [List.getLast?_cons_cons])
    rw [List.cons_append, lines, if_neg (fun he => hb he.symm), if_neg hnot, ih hrest hlast']

/-- A line without its end. -/
theorem lines_open {body : List UInt8} (hbody : line_feed ∉ body) (hne : body ≠ []) : lines body = [body] := by
  induction body with
  | nil => exact absurd rfl hne
  | cons b body ih =>
    obtain ⟨hb, hrest⟩ := not_or.1 (List.mem_cons.not.1 hbody)
    have hnot : ¬ (b = carriage_return ∧ body.head? = some line_feed) := by
      rintro ⟨-, hhead⟩
      exact hrest (List.mem_of_head? hhead)
    rw [lines, if_neg (fun he => hb he.symm), if_neg hnot]
    by_cases hnil : body = []
    · subst hnil
      rfl
    · rw [ih hrest hnil]

/-! ## Entries -/

/-- How entries are written and lines are read. -/
structure Format (T E : Type) where
  write : T → String
  /-- A line of this number, counted from one. -/
  read : Nat → String → Except E T
  /-- Lines that are passed over. -/
  blank : String → Bool
  /-- The error of bytes that are no text. -/
  invalid : E

namespace Format

variable {T E : Type} (f : Format T E)

/-- The lines behind the first `index`. -/
def read_lines : Nat → List (List UInt8) → Except E (List T)
  | _, [] => .ok []
  | index, line :: rest =>
    match from_utf8 line with
    | none => .error f.invalid
    | some text =>
      if f.blank text then read_lines (index + 1) rest
      else do
        let entry ← f.read (index + 1) text
        let entries ← read_lines (index + 1) rest
        .ok (entry :: entries)

def load (bytes : List UInt8) : Except E (List T) := f.read_lines 0 (lines bytes)

def line (entry : T) : List UInt8 := utf8 (f.write entry) ++ [line_feed]

def text (entries : List T) : List UInt8 := entries.flatMap f.line

/-- What is written is one line, and no part of it is a line of its own. -/
structure Lawful : Prop where
  one_line : ∀ entry, line_feed ∉ utf8 (f.write entry)
  ends : ∀ entry, ∃ body last, utf8 (f.write entry) = body ++ [last] ∧ last ≠ carriage_return
  blank : ∀ entry part, utf8 part <+: utf8 (f.write entry) → utf8 part ≠ [] → f.blank part = false
  part : ∀ entry part index found, utf8 part <+: utf8 (f.write entry) → f.read index part = .ok found → part = f.write entry

/-- An entry that is read as it was written. -/
def Reads (entry : T) : Prop := ∀ index, f.read index (f.write entry) = .ok entry

/-- The front of the lines that ends where the line of the `n`-th entry does, but perhaps for its line feed. -/
def EndsLine (entries : List T) (front : List UInt8) (n : Nat) : Prop :=
  front = f.text (entries.take n) ∨ front ++ [line_feed] = f.text (entries.take n)

variable {f} {entries found : List T} {entry : T}

@[simp] theorem text_nil : f.text [] = [] := rfl

@[simp] theorem text_cons (entry : T) (entries : List T) : f.text (entry :: entries) = f.line entry ++ f.text entries := rfl

@[simp] theorem text_append (entries more : List T) : f.text (entries ++ more) = f.text entries ++ f.text more := List.flatMap_append

theorem terminated_line (entry : T) : Terminated (f.line entry) := .inr List.getLast?_concat

theorem line_ne_nil (entry : T) : f.line entry ≠ [] := List.append_ne_nil_of_right_ne_nil _ (List.cons_ne_nil _ _)

theorem terminated_text (entries : List T) : Terminated (f.text entries) := by
  induction entries with
  | nil => exact .inl rfl
  | cons entry entries ih =>
    by_cases hnil : entries = []
    · subst hnil
      rw [text_cons, text_nil, List.append_nil]
      exact terminated_line entry
    · refine terminated_append ih ?_
      obtain ⟨first, rest, rfl⟩ := List.exists_cons_of_ne_nil hnil
      exact List.append_ne_nil_of_left_ne_nil (line_ne_nil first) _

theorem read_lines_append {index : Nat} {before after : List (List UInt8)} {xs ys : List T}
    (hx : f.read_lines index before = .ok xs) (hy : f.read_lines (index + before.length) after = .ok ys) :
    f.read_lines index (before ++ after) = .ok (xs ++ ys) := by
  induction before generalizing index xs with
  | nil =>
    obtain rfl := Except.ok.inj hx
    exact hy
  | cons line before ih =>
    have hy' : f.read_lines (index + 1 + before.length) after = .ok ys := by
      rwa [List.length_cons, Nat.add_comm before.length, ← Nat.add_assoc] at hy
    rw [List.cons_append, read_lines]
    rw [read_lines] at hx
    split at hx
    · cases hx
    · split at hx
      · next hblank =>
        simp only [hblank, if_true]
        exact ih hx hy'
      · next hblank =>
        obtain ⟨entry, hentry, hx⟩ := (ok_bind_iff _ _ _).1 hx
        obtain ⟨rest, hrest, hx⟩ := (ok_bind_iff _ _ _).1 hx
        obtain rfl := Except.ok.inj hx
        simp only [hblank]
        exact (ok_bind_iff _ _ _).2 ⟨entry, hentry, (ok_bind_iff _ _ _).2 ⟨rest ++ ys, ih hrest hy', rfl⟩⟩

/-- The lines in front are read before the rest. -/
theorem read_lines_split {index : Nat} {before after : List (List UInt8)} (h : f.read_lines index (before ++ after) = .ok found) :
    ∃ xs ys, f.read_lines index before = .ok xs ∧ f.read_lines (index + before.length) after = .ok ys ∧ found = xs ++ ys := by
  induction before generalizing index found with
  | nil => exact ⟨[], found, rfl, h, rfl⟩
  | cons line before ih =>
    rw [List.cons_append, read_lines] at h
    rw [read_lines, List.length_cons, Nat.add_comm before.length, ← Nat.add_assoc]
    split at h
    · cases h
    · split at h
      · next hblank =>
        simp only [hblank, if_true]
        exact ih h
      · next hblank =>
        obtain ⟨entry, hentry, h⟩ := (ok_bind_iff _ _ _).1 h
        obtain ⟨rest, hrest, h⟩ := (ok_bind_iff _ _ _).1 h
        obtain rfl := Except.ok.inj h
        obtain ⟨xs, ys, hx, hy, rfl⟩ := ih hrest
        simp only [hblank]
        exact ⟨entry :: xs, ys, (ok_bind_iff _ _ _).2 ⟨entry, hentry, (ok_bind_iff _ _ _).2 ⟨xs, hx, rfl⟩⟩, hy, rfl⟩

/-! ## Lines that are added -/

section
variable {base front : List UInt8} {already : List T} (hf : f.Lawful)
include hf

theorem getLast_write (entry : T) : (utf8 (f.write entry)).getLast? ≠ some carriage_return := by
  obtain ⟨body, last, hends, hlast⟩ := hf.ends entry
  rw [hends, List.getLast?_concat]
  exact fun he => hlast (Option.some.inj he)

theorem write_ne_nil (entry : T) : utf8 (f.write entry) ≠ [] := by
  obtain ⟨body, last, hends, -⟩ := hf.ends entry
  rw [hends]
  exact List.append_ne_nil_of_right_ne_nil _ (List.cons_ne_nil _ _)

theorem lines_line_append (entry : T) (more : List UInt8) : lines (f.line entry ++ more) = utf8 (f.write entry) :: lines more := by
  rw [line, List.append_assoc]
  exact lines_line (hf.one_line entry) (getLast_write hf entry) more

/-- A line that holds what was written for an entry. -/
theorem read_written (hentry : f.Reads entry) (index : Nat) (rest : List (List UInt8)) :
    f.read_lines index (utf8 (f.write entry) :: rest) = (f.read_lines (index + 1) rest).map (entry :: ·) := by
  have hblank := hf.blank entry _ List.prefix_rfl (write_ne_nil hf entry)
  rw [read_lines, from_utf8_utf8]
  simp only [hblank, hentry (index + 1)]
  cases f.read_lines (index + 1) rest <;> rfl

theorem read_text (hentries : ∀ entry ∈ entries, f.Reads entry) (index : Nat) : f.read_lines index (lines (f.text entries)) = .ok entries := by
  induction entries generalizing index with
  | nil => rfl
  | cons entry entries ih =>
    rw [text_cons, lines_line_append hf, read_written hf (hentries entry List.mem_cons_self),
      ih (fun e he => hentries e (List.mem_cons_of_mem _ he))]
    rfl

theorem read_of_endsLine (hentries : ∀ entry ∈ entries, f.Reads entry) {n : Nat} (h : f.EndsLine entries front n) (index : Nat) :
    f.read_lines index (lines front) = .ok (entries.take n) := by
  have htake : ∀ entry ∈ entries.take n, f.Reads entry := fun entry he => hentries entry (List.mem_of_mem_take he)
  rcases h with rfl | h
  · exact read_text hf htake index
  · rcases List.eq_nil_or_concat (entries.take n) with hnil | ⟨init, last, htaken⟩
    · rw [hnil, text_nil] at h
      exact absurd h (List.append_ne_nil_of_right_ne_nil _ (List.cons_ne_nil _ _))
    · rw [List.concat_eq_append] at htaken
      rw [htaken] at h htake
      have hfront : front = f.text init ++ utf8 (f.write last) := by
        refine (List.append_left_inj [line_feed]).1 ?_
        rw [h, text_append, text_cons, text_nil, List.append_nil, line, List.append_assoc]
      have hlast : f.Reads last := htake last (by simp)
      rw [hfront, lines_append (terminated_text init), lines_open (hf.one_line last) (write_ne_nil hf last), htaken]
      refine read_lines_append (read_text hf (fun entry he => htake entry (List.mem_append_left _ he)) index) ?_
      rw [read_written hf hlast]
      rfl

/-- What is read of a line's front, short of its end. -/
theorem read_within (hentry : f.Reads entry) (hfront : front <+: utf8 (f.write entry)) {index : Nat}
    (h : f.read_lines index (lines front) = .ok found) : front = [] ∧ found = [] ∨ front = utf8 (f.write entry) ∧ found = [entry] := by
  by_cases hnil : front = []
  · subst hnil
    exact .inl ⟨rfl, (Except.ok.inj h).symm⟩
  · have hone : line_feed ∉ front := fun hmem => hf.one_line entry (hfront.subset hmem)
    rw [lines_open hone hnil] at h
    have hread := h
    rw [read_lines] at h
    split at h
    · cases h
    · next part hpart =>
      obtain rfl := from_utf8_eq_some.1 hpart
      rw [hf.blank entry part hfront hnil] at h
      obtain ⟨first, hfirst, -⟩ := (ok_bind_iff _ _ _).1 h
      obtain rfl := hf.part entry part _ _ hfront hfirst
      rw [read_written hf hentry] at hread
      exact .inr ⟨rfl, (Except.ok.inj hread).symm⟩

theorem endsLine_of_read (hentries : ∀ entry ∈ entries, f.Reads entry) (hfront : front <+: f.text entries) {index : Nat}
    (h : f.read_lines index (lines front) = .ok found) : ∃ n ≤ entries.length, f.EndsLine entries front n ∧ found = entries.take n := by
  induction entries generalizing front found index with
  | nil =>
    obtain rfl := List.prefix_nil.1 hfront
    exact ⟨0, Nat.le_refl 0, .inl rfl, (Except.ok.inj h).symm⟩
  | cons entry entries ih =>
    have hentry := hentries entry List.mem_cons_self
    rw [text_cons] at hfront
    by_cases hline : f.line entry <+: front
    · obtain ⟨more, rfl⟩ := hline
      have hmore : more <+: f.text entries := (List.prefix_append_right_inj _).1 hfront
      rw [lines_line_append hf, read_written hf hentry] at h
      cases hrest : f.read_lines (index + 1) (lines more) with
      | error e =>
        rw [hrest] at h
        cases h
      | ok rest =>
        rw [hrest] at h
        obtain rfl := Except.ok.inj h
        obtain ⟨n, hn, hends, rfl⟩ := ih (fun e he => hentries e (List.mem_cons_of_mem _ he)) hmore hrest
        refine ⟨n + 1, Nat.succ_le_succ hn, ?_, rfl⟩
        rcases hends with rfl | hends
        · exact .inl rfl
        · refine .inr ?_
          rw [List.append_assoc, hends, List.take_succ_cons, text_cons]
    · have hwithin : front <+: f.line entry := (List.prefix_or_prefix_of_prefix hfront (List.prefix_append _ _)).resolve_right hline
      have hbody : front <+: utf8 (f.write entry) := by
        rcases List.prefix_concat_iff.1 hwithin with hwhole | hbody
        · exact absurd (hwhole ▸ List.prefix_rfl) hline
        · exact hbody
      rcases read_within hf hentry hbody h with ⟨rfl, rfl⟩ | ⟨rfl, rfl⟩
      · exact ⟨0, Nat.zero_le _, .inl rfl, rfl⟩
      · exact ⟨1, by simp, .inr (by simp [line]), by simp⟩

/-- The front of some lines, added to a file that ends with its last line, is read when it ends where one of them does. -/
theorem load_append_iff (hbase : f.load base = .ok already) (hends : Terminated base) (hentries : ∀ entry ∈ entries, f.Reads entry)
    (hfront : front <+: f.text entries) :
    f.load (base ++ front) = .ok found ↔ ∃ n ≤ entries.length, f.EndsLine entries front n ∧ found = already ++ entries.take n := by
  unfold load at hbase ⊢
  rw [lines_append hends]
  constructor
  · intro h
    obtain ⟨xs, ys, hx, hy, rfl⟩ := read_lines_split h
    obtain rfl := Except.ok.inj (hx.symm.trans hbase)
    obtain ⟨n, hn, hline, rfl⟩ := endsLine_of_read hf hentries hfront hy
    exact ⟨n, hn, hline, rfl⟩
  · rintro ⟨n, -, hline, rfl⟩
    exact read_lines_append hbase (read_of_endsLine hf hentries hline _)

end

end Format
end Lib

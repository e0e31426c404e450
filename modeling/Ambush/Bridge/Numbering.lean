import Ambush.Bridge.Spool
/-!
# An issuer's numbers in the spool

While every record of an issuer up to `done` was published, its other records wait in a
row: they bear the numbers after `done`, up to the next one to be handed out. Each
operation of the spool keeps this, and a reopen finds it again while nothing was published.
-/
open Lib

namespace Ambush.Bridge
namespace EvidenceSpool

/-- The issuer's records that are not committed, oldest first. -/
def waiting (s : EvidenceSpool) (issuer : IssuerIdx) : List Record :=
  s.records.filter (fun r => r.issuer = issuer ∧ ¬ s.is_committed r)

structure Contiguous (s : EvidenceSpool) (issuer : IssuerIdx) (done : Seq) : Prop where
  row : ∃ n, (s.waiting issuer).map (·.seq) = List.range' (done + 1) n ∧ s.next_seq issuer = done + 1 + n
  bounded : s.next_seq issuer < 18446744073709551616
  below : ∀ r ∈ s.records, r.issuer = issuer → r.seq < s.next_seq issuer
  committed : (s.cursor.committed issuer).getD 0 = done
  durable : s.stored.committed issuer = s.cursor.committed issuer
  behind : (s.stored.next_seq issuer).getD 1 ≤ s.next_seq issuer

variable {s : EvidenceSpool} {issuer : IssuerIdx} {done : Seq}

/-- Whether a record of the issuer is committed depends on the issuer's cursor only. -/
theorem is_committed_eq {r : Record} (h : r.issuer = issuer) :
    s.is_committed r = (s.cursor.committed issuer).any (fun committed => r.seq ≤ committed) := by
  rw [is_committed, h]

theorem waiting_congr {s' : EvidenceSpool} (hr : s'.records = s.records)
    (hc : s'.cursor.committed issuer = s.cursor.committed issuer) : s'.waiting issuer = s.waiting issuer := by
  rw [waiting, waiting, hr]
  refine List.filter_congr (fun r _ => ?_)
  by_cases hi : r.issuer = issuer
  · rw [is_committed_eq hi, is_committed_eq hi, hc]
  · simp [hi]

/-! ## Operations that leave the numbers alone -/

theorem Contiguous.store (h : s.Contiguous issuer done) (ok : Bool) : (s.store ok).Contiguous issuer done := by
  cases ok with
  | false => exact h
  | true => exact ⟨h.row, h.bounded, h.below, h.committed, rfl, le_refl _⟩

theorem Contiguous.pending (h : s.Contiguous issuer done) (pending : List GapCause) :
    Contiguous { s with cursor := { s.cursor with pending } } issuer done :=
  ⟨h.row, h.bounded, h.below, h.committed, h.durable, h.behind⟩

theorem Contiguous.mark_gap (h : s.Contiguous issuer done) (cause : GapCause) (ok : Bool) :
    (s.mark_gap cause ok).Contiguous issuer done := (h.pending _).store ok

theorem Contiguous.mark_gaps (h : s.Contiguous issuer done) (ok : Nat → Bool) (n : Nat) (gaps : List GapCause) :
    (EvidenceSpool.mark_gaps ok n s gaps).Contiguous issuer done := by
  induction gaps generalizing n s with
  | nil => exact h
  | cons cause gaps ih => exact ih (h.mark_gap cause (ok n)) (n + 1)

theorem Contiguous.take_gaps (h : s.Contiguous issuer done) (ok : Bool) : (s.take_gaps ok).2.Contiguous issuer done := by
  rw [EvidenceSpool.take_gaps]
  simp only
  split
  · exact h.pending []
  · exact (h.pending []).store ok

/-- Another issuer's commit. -/
theorem Contiguous.commit_other (h : s.Contiguous issuer done) {other : IssuerIdx} (hne : issuer ≠ other) (seq : Seq)
    (ok : Bool) : (s.commit other seq ok).Contiguous issuer done := by
  refine Contiguous.store ?_ ok
  have hc : s.cursor.committed.insert other (max ((s.cursor.committed other).getD 0) seq) issuer = s.cursor.committed issuer :=
    Map.insert_ne _ _ _ _ hne
  obtain ⟨n, hrow, hnext⟩ := h.row
  refine ⟨⟨n, ?_, hnext⟩, h.bounded, h.below, ?_, h.durable.trans hc.symm, h.behind⟩
  · rw [← hrow]
    exact congrArg _ (waiting_congr rfl hc)
  · exact (congrArg (fun c : Option Seq => c.getD 0) hc).trans h.committed

/-- An eviction that takes no waiting record of the issuer. -/
theorem Contiguous.evict (h : s.Contiguous issuer done) {count : Nat}
    (hgone : ∀ r ∈ s.records.take count, s.is_committed r = false → r.issuer ≠ issuer) (ok : Bool) :
    (s.evict count ok).Contiguous issuer done := by
  have hrest : Contiguous { s with records := s.records.drop count } issuer done := by
    obtain ⟨n, hrow, hnext⟩ := h.row
    refine ⟨⟨n, ?_, hnext⟩, h.bounded, fun r hr => h.below r (List.mem_of_mem_drop hr), h.committed, h.durable, h.behind⟩
    rw [← hrow]
    have hnone : (s.records.take count).filter (fun r => r.issuer = issuer ∧ ¬ s.is_committed r) = [] := by
      refine List.filter_eq_nil_iff.2 (fun r hr => ?_)
      have hne := hgone r hr
      simp only [decide_eq_true_eq, not_and, Bool.not_eq_true]
      exact fun hi hc => hne hc hi
    conv_rhs => rw [waiting, ← List.take_append_drop count s.records, List.filter_append, hnone, List.nil_append]
    rfl
  rw [EvidenceSpool.evict]
  cases s.evicted count with
  | none => exact hrest.store ok
  | some cause => exact hrest.mark_gap cause ok

/-- Numbers and rows stay as they are. -/
structure Steady (s s' : EvidenceSpool) : Prop where
  next : ∀ i, s'.next_seq i = s.next_seq i
  rows : ∀ i done, s.Contiguous i done → s'.Contiguous i done

theorem Steady.refl (s : EvidenceSpool) : Steady s s := ⟨fun _ => rfl, fun _ _ h => h⟩

theorem steady_mark_gap (s : EvidenceSpool) (cause : GapCause) (ok : Bool) : Steady s (s.mark_gap cause ok) := by
  refine ⟨fun i => ?_, fun i done h => h.mark_gap cause ok⟩
  rw [next_seq, EvidenceSpool.mark_gap, store_cursor]
  rfl

theorem steady_mark_gaps (s : EvidenceSpool) (ok : Nat → Bool) (n : Nat) (gaps : List GapCause) :
    Steady s (EvidenceSpool.mark_gaps ok n s gaps) := by
  refine ⟨fun i => ?_, fun i done h => h.mark_gaps ok n gaps⟩
  induction gaps generalizing n s with
  | nil => rfl
  | cons cause gaps ih => exact (ih _ (n + 1)).trans ((steady_mark_gap s cause (ok n)).next i)

theorem steady_take_gaps (s : EvidenceSpool) (ok : Bool) : Steady s (s.take_gaps ok).2 := by
  refine ⟨fun i => ?_, fun i done h => h.take_gaps ok⟩
  rw [EvidenceSpool.take_gaps]
  simp only
  split
  · rfl
  · rw [next_seq, store_cursor]
    rfl

theorem commit_next_seq (s : EvidenceSpool) (i : IssuerIdx) (seq : Seq) (ok : Bool) (j : IssuerIdx) :
    (s.commit i seq ok).next_seq j = s.next_seq j := by
  rw [next_seq, EvidenceSpool.commit, store_cursor]
  rfl

theorem evict_next_seq (s : EvidenceSpool) (count : Nat) (ok : Bool) (i : IssuerIdx) :
    (s.evict count ok).next_seq i = s.next_seq i := by
  rw [EvidenceSpool.evict]
  cases s.evicted count with
  | none => rw [next_seq, store_cursor]; rfl
  | some cause => exact (steady_mark_gap _ cause ok).next i

/-! ## Append -/

/-- What an append changes. -/
theorem append_spec {record : Record} {s' : EvidenceSpool} (h : s.append record = some s') :
    s.next_seq record.issuer + 1 < 18446744073709551616 ∧
      s'.records = s.records ++ [{ record with seq := s.next_seq record.issuer }] ∧
      s'.cursor.committed = s.cursor.committed ∧ s'.stored = s.stored ∧
      ∀ i, s'.next_seq i = if i = record.issuer then s.next_seq record.issuer + 1 else s.next_seq i := by
  simp only [EvidenceSpool.append] at h
  split at h
  · next hbound =>
    obtain rfl := Option.some.inj h
    refine ⟨hbound, rfl, rfl, rfl, fun i => ?_⟩
    simp only [next_seq, Map.insert_apply]
    split
    · rfl
    · rfl
  · cases h

/-- A number above the issuer's cursor is not committed. -/
theorem not_committed (h : (s.cursor.committed issuer).getD 0 = done) {r : Record} (hi : r.issuer = issuer)
    (hlt : done < r.seq) : s.is_committed r = false := by
  rw [is_committed_eq hi]
  cases hc : s.cursor.committed issuer with
  | none => rfl
  | some c =>
    rw [hc, Option.getD_some] at h
    rw [Option.any_some, decide_eq_false_iff_not, not_le, h]
    exact hlt

theorem Contiguous.append (h : s.Contiguous issuer done) {record : Record} {s' : EvidenceSpool}
    (ha : s.append record = some s') : s'.Contiguous issuer done := by
  obtain ⟨hbound, hrecords, hcommitted, hstored, hnext⟩ := append_spec ha
  obtain ⟨n, hrow, hn⟩ := h.row
  have hwas : s.records.filter (fun r => r.issuer = issuer ∧ ¬ s'.is_committed r) = s.waiting issuer := by
    refine List.filter_congr (fun r _ => ?_)
    rw [is_committed, hcommitted, is_committed]
  have hle : s.next_seq issuer ≤ s'.next_seq issuer := by
    rw [hnext]
    split
    · next hi => rw [hi]; exact Nat.le_succ _
    · exact le_refl _
  have hbehind : (s'.stored.next_seq issuer).getD 1 ≤ s'.next_seq issuer := by
    rw [hstored]
    exact h.behind.trans hle
  have hbelow : ∀ r ∈ s'.records, r.issuer = issuer → r.seq < s'.next_seq issuer := by
    intro r hr hi
    rw [hrecords] at hr
    rcases List.mem_append.1 hr with hr | hr
    · exact (h.below r hr hi).trans_le hle
    · rw [List.mem_singleton.1 hr] at hi ⊢
      rw [hnext, if_pos hi.symm]
      exact Nat.lt_succ_self _
  refine ⟨?_, ?_, hbelow, by rw [hcommitted]; exact h.committed, by rw [hstored, hcommitted]; exact h.durable, hbehind⟩
  · by_cases hi : record.issuer = issuer
    · -- The new record is the last of the row.
      have hnew : s'.is_committed { record with seq := s.next_seq record.issuer } = false := by
        have hdone : (s'.cursor.committed issuer).getD 0 = done := by rw [hcommitted]; exact h.committed
        refine not_committed hdone hi ?_
        show done < s.next_seq record.issuer
        rw [hi, hn]
        lia
      refine ⟨n + 1, ?_, by rw [hnext, if_pos hi.symm, hi, hn]; rfl⟩
      have hlast : [{ record with seq := s.next_seq record.issuer }].filter
          (fun r => r.issuer = issuer ∧ ¬ s'.is_committed r) = [{ record with seq := s.next_seq record.issuer }] := by
        refine List.filter_eq_self.2 (fun r hr => ?_)
        rw [List.mem_singleton.1 hr, hnew]
        exact decide_eq_true ⟨hi, Bool.false_ne_true⟩
      rw [waiting, hrecords, List.filter_append, hwas, hlast, List.map_append, hrow, List.range'_1_concat, List.map_singleton,
        hi, hn]
    · refine ⟨n, ?_, by rw [hnext, if_neg (Ne.symm hi)]; exact hn⟩
      rw [waiting, hrecords, List.filter_append, hwas, List.filter_cons_of_neg (by simp [hi]), List.filter_nil,
        List.append_nil, hrow]
  · rw [hnext]
    split
    · exact hbound
    · exact h.bounded

/-! ## Commit -/

/-- The first of the row is committed. -/
theorem Contiguous.commit (h : s.Contiguous issuer done) (hlt : done + 1 < s.next_seq issuer) :
    (s.commit issuer (done + 1) true).Contiguous issuer (done + 1) := by
  obtain ⟨n, hrow, hnext⟩ := h.row
  obtain ⟨k, rfl⟩ : ∃ k, n = k + 1 := ⟨n - 1, by lia⟩
  have hmax : max ((s.cursor.committed issuer).getD 0) (done + 1) = done + 1 := by
    rw [h.committed]
    exact Nat.max_eq_right (Nat.le_succ done)
  have hcursor : (s.commit issuer (done + 1) true).cursor.committed issuer = some (done + 1) := by
    rw [EvidenceSpool.commit, store_cursor, hmax]
    exact Map.insert_self _ _ _
  have hnext' : (s.commit issuer (done + 1) true).next_seq issuer = s.next_seq issuer := rfl
  -- What waits now is what waited, without the number that was committed.
  have hw : (s.commit issuer (done + 1) true).waiting issuer = (s.waiting issuer).filter (fun r => done + 1 < r.seq) := by
    have hdone := h.committed
    rw [waiting, waiting, List.filter_filter]
    refine List.filter_congr (fun r _ => ?_)
    by_cases hi : r.issuer = issuer
    · rw [is_committed_eq hi, is_committed_eq hi, hcursor]
      cases hc : s.cursor.committed issuer with
      | none => simp [hi]
      | some c =>
        rw [hc] at hdone
        simp only [Option.getD_some] at hdone
        simp only [hi, Option.any_some, decide_eq_true_eq, not_le, true_and, ← hdone]
        by_cases hlt : c + 1 < r.seq
        · simp [hlt, show c < r.seq by lia]
        · simp [hlt]
    · simp [hi]
  refine ⟨⟨k, ?_, by rw [hnext', hnext]; lia⟩, h.bounded, h.below, by rw [hcursor]; rfl, rfl, le_refl _⟩
  · rw [hw]
    cases hwait : s.waiting issuer with
    | nil => rw [hwait] at hrow; cases hrow
    | cons first rest =>
      rw [hwait, List.map_cons, List.range'_succ, List.cons.injEq] at hrow
      have hrest : ∀ r ∈ rest, done + 1 < r.seq := by
        intro r hr
        have hmem := List.mem_map_of_mem (f := fun r : Record => r.seq) hr
        rw [hrow.2, List.mem_range'_1] at hmem
        lia
      rw [List.filter_cons_of_neg (by simp [hrow.1]), List.filter_eq_self.2 (fun r hr => decide_eq_true (hrest r hr)), hrow.2]

/-! ## Reading back -/

/-- The first record of an issuer in a batch is the first that waits. -/
theorem peek_loop_first {max_bytes : Nat} {r : Record} (records : List Record) (any : Bool) (budget : Nat)
    (h : (s.peek_loop max_bytes any budget records).find? (fun r => r.issuer = issuer) = some r) :
    (records.filter (fun r => r.issuer = issuer ∧ ¬ s.is_committed r)).head? = some r := by
  induction records generalizing any budget with
  | nil => cases h
  | cons record records ih =>
    rw [peek_loop] at h
    split at h
    · next hc =>
      rw [List.filter_cons_of_neg (by simp [hc])]
      exact ih any budget h
    · next hc =>
      split at h
      · cases h
      · by_cases hi : record.issuer = issuer
        · rw [List.find?_cons_of_pos (by simpa using hi)] at h
          rw [List.filter_cons_of_pos (by simp [hi, hc])]
          exact h
        · rw [List.find?_cons_of_neg (by simpa using hi)] at h
          rw [List.filter_cons_of_neg (by simp [hi])]
          exact ih true _ h

/-- It bears the number after the last one published. -/
theorem Contiguous.peek (h : s.Contiguous issuer done) {max_bytes : Nat} {r : Record}
    (hr : (s.peek max_bytes).find? (fun r => r.issuer = issuer) = some r) : r.seq = done + 1 ∧ done + 1 < s.next_seq issuer := by
  have hfirst : (s.waiting issuer).head? = some r := peek_loop_first s.records false 0 hr
  obtain ⟨n, hrow, hnext⟩ := h.row
  obtain ⟨rest, hwait⟩ : ∃ rest, s.waiting issuer = r :: rest := by
    cases hw : s.waiting issuer with
    | nil => rw [hw] at hfirst; cases hfirst
    | cons first rest =>
      rw [hw] at hfirst
      exact ⟨rest, by rw [Option.some.inj hfirst]⟩
  rw [hwait] at hrow
  cases n with
  | zero => cases hrow
  | succ n =>
    rw [List.map_cons, List.range'_succ, List.cons.injEq] at hrow
    exact ⟨hrow.1, by rw [hnext]; lia⟩

/-! ## Reopening -/

theorem le_foldl_max (l : List Nat) (a : Nat) : a ≤ l.foldl max a ∧ ∀ x ∈ l, x ≤ l.foldl max a := by
  induction l generalizing a with
  | nil => exact ⟨le_refl _, fun x hx => by cases hx⟩
  | cons y l ih =>
    obtain ⟨hle, hmem⟩ := ih (max a y)
    refine ⟨(Nat.le_max_left a y).trans hle, fun x hx => ?_⟩
    rcases List.mem_cons.1 hx with rfl | hx
    · exact (Nat.le_max_right a x).trans hle
    · exact hmem x hx

theorem foldl_max_le {l : List Nat} {a m : Nat} (ha : a ≤ m) (hl : ∀ x ∈ l, x ≤ m) : l.foldl max a ≤ m := by
  induction l generalizing a with
  | nil => exact ha
  | cons y l ih =>
    exact ih (Nat.max_le.2 ⟨ha, hl y (by simp)⟩) (fun x hx => hl x (List.mem_cons_of_mem _ hx))

/-- The numbers a scan finds, of an issuer that published nothing. -/
theorem Contiguous.recovered (h : s.Contiguous issuer 0) : (s.recovered issuer).getD 1 = s.next_seq issuer := by
  obtain ⟨n, hrow, hnext⟩ := h.row
  rw [EvidenceSpool.recovered]
  generalize hseqs : (s.records.filter (fun r => r.issuer = issuer)).map (·.seq + 1) ++ (s.stored.next_seq issuer).toList = seqs
  have hle : ∀ x ∈ seqs, x ≤ s.next_seq issuer := by
    intro x hx
    rw [← hseqs] at hx
    rcases List.mem_append.1 hx with hx | hx
    · obtain ⟨r, hr, rfl⟩ := List.mem_map.1 hx
      obtain ⟨hr, hi⟩ := List.mem_filter.1 hr
      exact h.below r hr (of_decide_eq_true hi)
    · have hbehind := h.behind
      rw [Option.mem_toList.1 hx] at hbehind
      exact hbehind
  have hlast : n ≠ 0 → s.next_seq issuer ∈ seqs := by
    intro hn
    obtain ⟨r, hr, hseq⟩ : ∃ r ∈ s.waiting issuer, r.seq = n := by
      refine List.mem_map.1 ?_
      rw [hrow, List.mem_range'_1]
      lia
    obtain ⟨hr, hw⟩ := List.mem_filter.1 hr
    rw [← hseqs]
    refine List.mem_append_left _ (List.mem_map.2 ⟨r, List.mem_filter.2 ⟨hr, ?_⟩, by rw [hnext, hseq]; lia⟩)
    exact decide_eq_true (of_decide_eq_true hw).1
  have hfold : seqs.foldl max 1 = s.next_seq issuer := by
    refine Nat.le_antisymm (foldl_max_le (by lia) hle) ?_
    by_cases hn : n = 0
    · have := (le_foldl_max seqs 1).1
      lia
    · exact (le_foldl_max seqs 1).2 _ (hlast hn)
  split
  · next hnil =>
    rw [hnil] at hfold
    exact hfold
  · exact hfold

theorem Contiguous.reopen (h : s.Contiguous issuer 0) : s.reopen.Contiguous issuer 0 := by
  have hnext : s.reopen.next_seq issuer = s.next_seq issuer := h.recovered
  obtain ⟨n, hrow, hnext'⟩ := h.row
  have hw : s.reopen.waiting issuer = s.waiting issuer := waiting_congr rfl h.durable
  refine ⟨⟨n, by rw [hw]; exact hrow, by rw [hnext]; exact hnext'⟩, by rw [hnext]; exact h.bounded, fun r hr hi => ?_,
    ?_, rfl, le_refl _⟩
  · rw [hnext]
    exact h.below r hr hi
  · exact (congrArg (fun c : Option Seq => c.getD 0) h.durable).trans h.committed

end EvidenceSpool
end Ambush.Bridge

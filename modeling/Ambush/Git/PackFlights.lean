import Ambush.Git.PackCache
/-!
# The flights of the pack cache

A flight is registered while a call is in it. One call at a time has its lock, so one call at a time adopts or publishes the directory
of a digest, and no more calls populate than there are permits for.
-/
open Lib

namespace Ambush.PackCache
open Git (HydrateError)

/-! ## Counting calls -/

section
variable {α : Type} {p : α → Bool} {l : List α} {i j : Nat} {a b x : α}

theorem countP_set_add (h : l[i]? = some a) :
    (l.set i x).countP p + (if p a then 1 else 0) = l.countP p + (if p x then 1 else 0) := by
  obtain ⟨hi, ha⟩ := List.getElem?_eq_some_iff.1 h
  have hpos : p a = true → 0 < l.countP p := fun hp => List.countP_pos_iff.2 ⟨a, List.mem_of_getElem? h, hp⟩
  rw [List.countP_set hi, ha]
  by_cases hp : p a = true
  · have := hpos hp
    rw [if_pos hp]
    omega
  · rw [if_neg hp]
    omega

theorem two_le_countP (hi : l[i]? = some a) (hj : l[j]? = some b) (hne : i ≠ j) (ha : p a = true) (hb : p b = true) :
    2 ≤ l.countP p := by
  induction l generalizing i j with
  | nil => cases hi
  | cons c l ih =>
    cases i with
    | zero =>
      cases hi
      cases j with
      | zero => exact absurd rfl hne
      | succ j =>
        have hpos : 0 < l.countP p := List.countP_pos_iff.2 ⟨b, List.mem_of_getElem? hj, hb⟩
        rw [List.countP_cons_of_pos ha]
        omega
    | succ i =>
      cases j with
      | zero =>
        cases hj
        have hpos : 0 < l.countP p := List.countP_pos_iff.2 ⟨a, List.mem_of_getElem? hi, ha⟩
        rw [List.countP_cons_of_pos hb]
        omega
      | succ j => exact Nat.le_trans (ih hi hj (fun h => hne (congrArg Nat.succ h))) (List.sublist_cons_self c l).countP_le

end

/-! ## Flights and permits -/

/-- The flight a call participates in. -/
def Pc.joined : Pc → Option Nat
  | .wait f | .acquire f | .stage f | .stat_pack f _ _ | .stat_idx f _ _ _ | .exists_final f _ | .remove_final f _ | .rename f _
  | .insert f _ | .release f _ | .unlock f _ | .leave f _ => some f
  | .lookup flight | .link_pack _ flight | .link_idx _ flight | .unlink_pack _ flight | .unlink_idx _ flight
  | .copy_pack _ flight | .copy_idx _ flight | .clean_pack _ flight | .drop_entry _ flight _ => flight
  | _ => none

/-- The flight whose lock a call holds. -/
def Pc.critical : Pc → Option Nat
  | .wait _ | .leave _ _ => none
  | pc => pc.joined

/-- Whether a call holds a permit to populate. -/
def Pc.permitted : Pc → Bool
  | .stage _ | .stat_pack _ _ _ | .stat_idx _ _ _ _ | .exists_final _ _ | .remove_final _ _ | .rename _ _ | .insert _ _
  | .release _ _ => true
  | _ => false

/-- Where a step concerns flights or permits. -/
def Pc.locking : Pc → Bool
  | .enter | .wait _ | .acquire _ | .release _ _ | .unlock _ _ | .leave _ _ | .remove_flight _ _ => true
  | _ => false

theorem Pc.joined_of_critical {pc : Pc} {f : Nat} (h : pc.critical = some f) : pc.joined = some f := by
  cases pc <;> first | exact h | cases h

/-- Both places hold the same locks. -/
structure Pc.SameLocks (pc pc' : Pc) : Prop where
  joined : pc'.joined = pc.joined
  critical : pc'.critical = pc.critical
  permitted : pc'.permitted = pc.permitted

section
variable {pc : Pc} {flight : Option Nat} {f : Nat}

theorem sameLocks_missed (hj : pc.joined = flight) (hc : pc.critical = flight) (hp : pc.permitted = false) :
    pc.SameLocks (missed flight) := by
  cases flight <;> exact ⟨hj.symm, hc.symm, hp.symm⟩

theorem sameLocks_installed {entry : CachedPack} {result : Except HydrateError Nat} (hj : pc.joined = flight)
    (hc : pc.critical = flight) (hp : pc.permitted = false) : pc.SameLocks (installed entry flight result) := by
  cases flight <;> cases result <;> exact ⟨hj.symm, hc.symm, hp.symm⟩

theorem sameLocks_dropped {result : Except HydrateError Nat} (hj : pc.joined = flight) (hc : pc.critical = flight)
    (hp : pc.permitted = false) : pc.SameLocks (dropped flight result) := by
  cases flight <;> exact ⟨hj.symm, hc.symm, hp.symm⟩

theorem sameLocks_invalidated {held : Option CachedPack} (hj : pc.joined = none) (hc : pc.critical = none)
    (hp : pc.permitted = false) : pc.SameLocks (invalidated held) := by
  cases held <;> exact ⟨hj.symm, hc.symm, hp.symm⟩

theorem sameLocks_not_found {staged : Pair} {when_ : When} (hj : pc.joined = some f) (hc : pc.critical = some f)
    (hp : pc.permitted = true) : pc.SameLocks (not_found f staged when_) := by
  cases when_ <;> exact ⟨hj.symm, hc.symm, hp.symm⟩

end

theorem World.remove_dir_calls (w : World) (dir : Dir) : (w.remove_dir dir).calls = w.calls := by
  cases dir <;> rfl

theorem World.remove_dir_locks (w : World) (dir : Dir) : (w.remove_dir dir).flights = w.flights ∧
    (w.remove_dir dir).flight = w.flight ∧ (w.remove_dir dir).permits = w.permits ∧ w.next ≤ (w.remove_dir dir).next := by
  cases dir <;> exact ⟨rfl, rfl, rfl, Nat.le_refl _⟩

section
variable {env : Env} {w w' : World} {c c' : Call} {idx : Git.Bytes}

/-- A step stays in its task. -/
theorem move_task (h : move env w c idx = some (w', c')) : c'.task = c.task ∧ c'.digest = c.digest ∧ w'.calls = w.calls := by
  obtain ⟨task, digest, destination, pc⟩ := c
  cases pc <;> dsimp only [move] at h
  all_goals
    repeat' split at h
  all_goals
    cases h
  all_goals first
    | exact ⟨rfl, rfl, rfl⟩
    | exact ⟨rfl, rfl, World.remove_dir_calls _ _⟩

/-- Outside the locks a step leaves them as they are. -/
theorem move_locks (h : move env w c idx = some (w', c')) (hl : c.pc.locking = false) : Pc.SameLocks c.pc c'.pc ∧
    w'.flights = w.flights ∧ w'.flight = w.flight ∧ w'.permits = w.permits ∧ w.next ≤ w'.next := by
  obtain ⟨task, digest, destination, pc⟩ := c
  cases pc <;> dsimp only [move] at h
  all_goals
    repeat' split at h
  all_goals
    cases h
  all_goals first
    | exact Bool.noConfusion hl
    | exact ⟨⟨rfl, rfl, rfl⟩, rfl, rfl, rfl, Nat.le_refl _⟩
    | exact ⟨⟨rfl, rfl, rfl⟩, rfl, rfl, rfl, Nat.le_succ _⟩
    | exact ⟨sameLocks_missed rfl rfl rfl, rfl, rfl, rfl, Nat.le_refl _⟩
    | exact ⟨sameLocks_installed rfl rfl rfl, rfl, rfl, rfl, Nat.le_refl _⟩
    | exact ⟨sameLocks_dropped rfl rfl rfl, rfl, rfl, rfl, Nat.le_refl _⟩
    | exact ⟨sameLocks_invalidated rfl rfl rfl, rfl, rfl, rfl, Nat.le_refl _⟩
    | exact ⟨sameLocks_not_found rfl rfl rfl, rfl, rfl, rfl, Nat.le_refl _⟩
    | exact ⟨sameLocks_invalidated rfl rfl rfl, World.remove_dir_locks _ _⟩
    | exact ⟨⟨rfl, rfl, rfl⟩, World.remove_dir_locks _ _⟩

end

/-- The calls in a place of some kind. -/
def World.count (w : World) (p : Pc → Bool) : Nat := w.calls.countP (fun c => p c.pc)

/-- A flight is registered while a call is in it and counts them, at most one of them has its lock,
and no more calls populate than there are permits for. -/
structure Locks (env : Env) (w : World) : Prop where
  registered : ∀ c ∈ w.calls, ∀ f, c.pc.joined = some f → w.flights c.digest = some f
  allocated : ∀ d f, w.flights d = some f → f < w.next
  single : ∀ f, w.count (fun pc => pc.critical = some f) = if (w.flight f).locked then 1 else 0
  counted : ∀ f, w.count (fun pc => pc.joined = some f) = (w.flight f).participants
  permits : w.permits + w.count Pc.permitted = env.max_concurrent_populations

section
variable {env : Env} {w w' : World} {i j : Nat} {c c' d : Call} {idx : Git.Bytes}

theorem locks_new (env : Env) : Locks env (World.new env) := by
  refine ⟨fun c hc => ?_, fun d f hd => ?_, fun f => List.countP_nil, fun f => List.countP_nil, rfl⟩
  · cases hc
  · cases hd

/-- Two calls of one digest are not both behind the lock. -/
theorem Locks.exclusive (h : Locks env w) (hi : w.calls[i]? = some c) (hj : w.calls[j]? = some d) (hne : i ≠ j)
    (hdigest : c.digest = d.digest) {f g : Nat} (hc : c.pc.critical = some f) (hd : d.pc.critical = some g) : False := by
  have hf := h.registered c (List.mem_of_getElem? hi) f (Pc.joined_of_critical hc)
  have hg := h.registered d (List.mem_of_getElem? hj) g (Pc.joined_of_critical hd)
  rw [hdigest, hg] at hf
  cases hf
  have htwo : 2 ≤ w.count (fun pc => pc.critical = some f) := two_le_countP hi hj hne (decide_eq_true hc) (decide_eq_true hd)
  rw [h.single f] at htwo
  split at htwo <;> omega

theorem count_set (hi : w.calls[i]? = some c) (w' : World) (c' : Call) (p : Pc → Bool) :
    World.count { w' with calls := w.calls.set i c' } p + (if p c.pc then 1 else 0) = w.count p + (if p c'.pc then 1 else 0) :=
  countP_set_add (p := fun c : Call => p c.pc) hi

theorem registered_set (h : Locks env w) (hdigest : c'.digest = c.digest) (hi : w.calls[i]? = some c) {flights : Map String Nat}
    (hflights : ∀ d f, w.flights d = some f → flights d = some f)
    (hjoined : ∀ f, c'.pc.joined = some f → c.pc.joined = some f ∨ flights c.digest = some f) :
    ∀ a ∈ w.calls.set i c', ∀ f, a.pc.joined = some f → flights a.digest = some f := by
  intro a ha f hf
  rcases List.mem_or_eq_of_mem_set ha with ha | rfl
  · exact hflights _ _ (h.registered a ha f hf)
  · rw [hdigest]
    rcases hjoined f hf with hold | hnew
    · exact hflights _ _ (h.registered c (List.mem_of_getElem? hi) f hold)
    · exact hnew

/-- What is left to check when one call moves on. -/
theorem Locks.change (hi : w.calls[i]? = some c)
    (hregistered : ∀ a ∈ w.calls.set i c', ∀ f, a.pc.joined = some f → w'.flights a.digest = some f)
    (hallocated : ∀ d f, w'.flights d = some f → f < w'.next)
    (hsingle : ∀ f, w.count (fun pc => pc.critical = some f) + (if c'.pc.critical = some f then 1 else 0) =
      (if (w'.flight f).locked then 1 else 0) + (if c.pc.critical = some f then 1 else 0))
    (hcounted : ∀ f, w.count (fun pc => pc.joined = some f) + (if c'.pc.joined = some f then 1 else 0) =
      (w'.flight f).participants + (if c.pc.joined = some f then 1 else 0))
    (hpermits : w'.permits + w.count Pc.permitted + (if c'.pc.permitted then 1 else 0) =
      env.max_concurrent_populations + (if c.pc.permitted then 1 else 0)) :
    Locks env { w' with calls := w.calls.set i c' } := by
  refine ⟨hregistered, hallocated, fun f => ?_, fun f => ?_, ?_⟩
  · have hset := count_set hi w' c' (fun pc => decide (pc.critical = some f))
    simp only [decide_eq_true_eq] at hset
    have := hsingle f
    dsimp only
    omega
  · have hset := count_set hi w' c' (fun pc => decide (pc.joined = some f))
    simp only [decide_eq_true_eq] at hset
    have := hcounted f
    dsimp only
    omega
  · have hset := count_set hi w' c' Pc.permitted
    dsimp only
    omega

/-- A flight that was not allocated yet has no calls. -/
theorem Locks.unused (h : Locks env w) : (w.flight w.next).locked = false ∧ (w.flight w.next).participants = 0 := by
  have hnone : ∀ a ∈ w.calls, a.pc.joined ≠ some w.next := fun a ha hja =>
    absurd (h.allocated _ _ (h.registered a ha _ hja)) (Nat.lt_irrefl _)
  have hjoined : w.count (fun pc => pc.joined = some w.next) = 0 :=
    List.countP_eq_zero.2 (fun a ha => by simpa using hnone a ha)
  have hcritical : w.count (fun pc => pc.critical = some w.next) = 0 :=
    List.countP_eq_zero.2 (fun a ha => by simpa using fun hca => hnone a ha (Pc.joined_of_critical hca))
  rw [h.single] at hcritical
  rw [h.counted] at hjoined
  refine ⟨?_, hjoined⟩
  split at hcritical
  · cases hcritical
  · next hlocked => simpa using hlocked

/-- The flight into which a call goes counts it. -/
theorem move_enter (h : Locks env w) (hpc : c.pc = .enter) (hmove : move env w c idx = some (w', c')) :
    ∃ f, c'.pc = .wait f ∧ w'.permits = w.permits ∧ w'.flights c.digest = some f ∧
      (∀ d g, w.flights d = some g → w'.flights d = some g) ∧ (∀ d g, w'.flights d = some g → g < w'.next) ∧
      ∀ g, (w'.flight g).locked = (w.flight g).locked ∧
        (w'.flight g).participants = (w.flight g).participants + (if some f = some g then 1 else 0) := by
  unfold move at hmove
  rw [hpc] at hmove
  dsimp only at hmove
  split at hmove
  · next f hf =>
    cases hmove
    refine ⟨f, rfl, rfl, hf, fun _ _ hd => hd, h.allocated, fun g => ?_⟩
    by_cases hg : g = f
    · simp [World.set_flight, hg]
    · simp [World.set_flight, hg, Ne.symm hg]
  · next hf =>
    cases hmove
    obtain ⟨hlocked, hparticipants⟩ := h.unused
    refine ⟨w.next, rfl, rfl, Map.insert_self _ _ _, fun d g hd => ?_, fun d g hd => ?_, fun g => ?_⟩
    · have hne : d ≠ c.digest := by
        rintro rfl
        rw [hf] at hd
        cases hd
      exact (Map.insert_ne _ _ _ _ hne).trans hd
    · have hd : (w.flights.insert c.digest w.next) d = some g := hd
      rw [Map.insert_apply] at hd
      split at hd
      · cases hd
        exact Nat.lt_succ_self _
      · exact Nat.lt_succ_of_lt (h.allocated d g hd)
    · by_cases hg : g = w.next
      · simp [World.set_flight, hg, hlocked, hparticipants]
      · simp [World.set_flight, hg, Ne.symm hg]

theorem Locks.enter (h : Locks env w) (hi : w.calls[i]? = some c) (hpc : c.pc = .enter)
    (hmove : move env w c idx = some (w', c')) : Locks env { w' with calls := w.calls.set i c' } := by
  obtain ⟨f, hpc', hpermits, hf, hflights, hnext, hflight⟩ := move_enter h hpc hmove
  have hsame : c.pc.joined = none ∧ c.pc.critical = none ∧ c.pc.permitted = false ∧
      c'.pc.joined = some f ∧ c'.pc.critical = none ∧ c'.pc.permitted = false := by
    rw [hpc, hpc']
    exact ⟨rfl, rfl, rfl, rfl, rfl, rfl⟩
  obtain ⟨hj, hc, hp, hj', hc', hp'⟩ := hsame
  refine .change hi (registered_set h (move_task hmove).2.1 hi hflights (fun g hg => ?_)) hnext (fun g => ?_) (fun g => ?_) ?_
  · rw [hj'] at hg
    cases hg
    exact .inr hf
  · rw [h.single, (hflight g).1, hc, hc']
  · rw [h.counted, (hflight g).2, hj, hj']
    rfl
  · rw [hpermits, h.permits, hp, hp']

/-- The lock of a flight taken or given back, a permit taken or given back, the flight left. -/
theorem Locks.moves (h : Locks env w) (hi : w.calls[i]? = some c) (hdigest : c'.digest = c.digest)
    (hflights : w'.flights = w.flights) (hnext : w.next ≤ w'.next)
    (hjoined : ∀ f, c'.pc.joined = some f → c.pc.joined = some f)
    (hsingle : ∀ f, (if (w.flight f).locked then 1 else 0) + (if c'.pc.critical = some f then 1 else 0) =
      (if (w'.flight f).locked then 1 else 0) + (if c.pc.critical = some f then 1 else 0))
    (hcounted : ∀ f, (w.flight f).participants + (if c'.pc.joined = some f then 1 else 0) =
      (w'.flight f).participants + (if c.pc.joined = some f then 1 else 0))
    (hpermits : w'.permits + (if c'.pc.permitted then 1 else 0) = w.permits + (if c.pc.permitted then 1 else 0)) :
    Locks env { w' with calls := w.calls.set i c' } := by
  refine .change hi ?_ ?_ (fun f => ?_) (fun f => ?_) ?_
  · rw [hflights]
    exact registered_set h hdigest hi (fun _ _ hd => hd) (fun f hf => .inl (hjoined f hf))
  · rw [hflights]
    exact fun d f hd => Nat.lt_of_lt_of_le (h.allocated d f hd) hnext
  · rw [h.single]
    exact hsingle f
  · rw [h.counted]
    exact hcounted f
  · have := h.permits
    omega

theorem Locks.move (h : Locks env w) (hi : w.calls[i]? = some c) (hmove : move env w c idx = some (w', c')) :
    Locks env { w' with calls := w.calls.set i c' } := by
  have hdigest := (move_task hmove).2.1
  have hmem := List.mem_of_getElem? hi
  by_cases hl : c.pc.locking = false
  · obtain ⟨hsame, hflights, hflight, hpermits, hnext⟩ := move_locks hmove hl
    refine h.moves hi hdigest hflights hnext (fun f hf => hsame.joined ▸ hf) (fun f => ?_) (fun f => ?_) ?_
    · rw [hflight, hsame.critical]
    · rw [hflight, hsame.joined]
    · rw [hpermits, hsame.permitted]
  by_cases henter : c.pc = .enter
  · exact h.enter hi henter hmove
  obtain ⟨task, digest, destination, pc⟩ := c
  cases pc with
  | wait f =>
    dsimp only [PackCache.move] at hmove
    split at hmove
    · cases hmove
    next hlocked =>
    cases hmove
    refine h.moves hi rfl rfl (Nat.le_refl _) (fun g hg => hg) (fun g => ?_) (fun g => ?_) rfl
    · by_cases hg : g = f
      · simp [World.set_flight, Pc.critical, Pc.joined, hg, hlocked]
      · simp [World.set_flight, Pc.critical, Pc.joined, hg, Ne.symm hg]
    · by_cases hg : g = f
      · simp [World.set_flight, Pc.joined, hg]
      · simp [World.set_flight, Pc.joined, hg]
  | acquire f =>
    dsimp only [PackCache.move] at hmove
    split at hmove
    · cases hmove
    next hpermits =>
    cases hmove
    refine h.moves hi rfl rfl (Nat.le_refl _) (fun g hg => hg) (fun g => rfl) (fun g => rfl) ?_
    simp only [Pc.permitted, if_true, Bool.false_eq_true, if_false]
    omega
  | release f populated =>
    dsimp only [PackCache.move] at hmove
    cases hmove
    have hnew : Pc.joined (released f populated) = some f ∧ Pc.critical (released f populated) = some f ∧
        Pc.permitted (released f populated) = false := by
      cases populated <;> exact ⟨rfl, rfl, rfl⟩
    obtain ⟨hj, hc, hp⟩ := hnew
    refine h.moves hi rfl rfl (Nat.le_refl _) (fun g hg => ?_) (fun g => ?_) (fun g => ?_) ?_
    · exact hj.symm.trans hg
    · simp only [hc]
      rfl
    · simp only [hj]
      rfl
    · simp only [hp]
      rfl
  | unlock f result =>
    dsimp only [PackCache.move] at hmove
    cases hmove
    have hlocked : (w.flight f).locked = true := by
      have hpos : 0 < w.count (fun pc => pc.critical = some f) := List.countP_pos_iff.2 ⟨_, hmem, by simp [Pc.critical, Pc.joined]⟩
      rw [h.single] at hpos
      by_contra hfree
      rw [if_neg hfree] at hpos
      exact absurd hpos (Nat.lt_irrefl _)
    refine h.moves hi rfl rfl (Nat.le_refl _) (fun g hg => hg) (fun g => ?_) (fun g => ?_) rfl
    · by_cases hg : g = f
      · simp [World.set_flight, Pc.critical, Pc.joined, hg, hlocked]
      · simp [World.set_flight, Pc.critical, Pc.joined, hg, Ne.symm hg]
    · by_cases hg : g = f
      · simp [World.set_flight, Pc.joined, hg]
      · simp [World.set_flight, Pc.joined, hg]
  | leave f result =>
    dsimp only [PackCache.move] at hmove
    cases hmove
    have hpos : 0 < (w.flight f).participants := by
      rw [← h.counted f]
      exact List.countP_pos_iff.2 ⟨_, hmem, by simp [Pc.joined]⟩
    have hnew : ∀ (p : Prop) [Decidable p], Pc.joined (if p then .remove_flight f result else .prune result) = none ∧
        Pc.critical (if p then .remove_flight f result else .prune result) = none ∧
        Pc.permitted (if p then .remove_flight f result else .prune result) = false := by
      intro p _
      split <;> exact ⟨rfl, rfl, rfl⟩
    obtain ⟨hj, hc, hp⟩ := hnew ((w.flight f).participants = 1)
    refine h.moves hi rfl rfl (Nat.le_refl _) (fun g hg => ?_) (fun g => ?_) (fun g => ?_) ?_
    · rw [hj] at hg
      cases hg
    · simp only [hc]
      by_cases hg : g = f
      · simp [World.set_flight, Pc.critical, hg]
      · simp [World.set_flight, Pc.critical, hg]
    · simp only [hj]
      by_cases hg : g = f
      · simp only [World.set_flight, Pc.joined, hg, if_true]
        rw [if_neg (by simp)]
        omega
      · simp [World.set_flight, Pc.joined, hg, Ne.symm hg]
    · simp only [hp]
      rfl
  | remove_flight f result =>
    dsimp only [PackCache.move] at hmove
    -- the registration goes only while no call is in the flight
    have hspec : c' = ⟨task, digest, destination, .prune result⟩ ∧ w'.flight = w.flight ∧ w'.permits = w.permits ∧
        w'.next = w.next ∧ (w'.flights = w.flights ∨
          (w.flights digest = some f ∧ (w.flight f).participants = 0 ∧ w'.flights = w.flights.remove digest)) := by
      cases hmove
      refine ⟨rfl, ?_⟩
      split
      · next hcond => exact ⟨rfl, rfl, rfl, .inr ⟨hcond.1, hcond.2, rfl⟩⟩
      · exact ⟨rfl, rfl, rfl, .inl rfl⟩
    obtain ⟨rfl, hflight, hpermits, hnext, hcase⟩ := hspec
    rcases hcase with hflights | ⟨hf, hzero, hflights⟩
    · exact h.moves hi rfl hflights hnext.ge (fun g hg => hg) (fun g => by rw [hflight]; rfl) (fun g => by rw [hflight]; rfl)
        (by rw [hpermits]; rfl)
    · refine .change hi ?_ (fun d g hd => ?_) (fun g => ?_) (fun g => ?_) ?_
      · intro a ha g hg
        rw [hflights]
        rcases List.mem_or_eq_of_mem_set ha with ha | rfl
        · have hreg := h.registered a ha g hg
          have hne : a.digest ≠ digest := by
            intro heq
            rw [heq, hf] at hreg
            cases hreg
            have hpos : 0 < w.count (fun pc => pc.joined = some f) := List.countP_pos_iff.2 ⟨a, ha, by simpa using hg⟩
            rw [h.counted, hzero] at hpos
            exact absurd hpos (Nat.lt_irrefl _)
          rw [Map.remove_ne _ _ _ hne]
          exact hreg
        · cases hg
      · rw [hflights, Map.remove_apply] at hd
        rw [hnext]
        split at hd
        · cases hd
        · exact h.allocated d g hd
      · rw [h.single, hflight]
        rfl
      · rw [h.counted, hflight]
        rfl
      · rw [hpermits, h.permits]
        rfl
  | enter => exact absurd rfl henter
  | _ => exact absurd rfl hl

theorem Call.start_locks (task : Task) (digest : String) (destination : Destination) :
    (Call.start task digest destination).pc.joined = none ∧ (Call.start task digest destination).pc.critical = none ∧
      (Call.start task digest destination).pc.permitted = false := by
  cases task <;> exact ⟨rfl, rfl, rfl⟩

theorem Locks.call (h : Locks env w) (task : Task) (digest : String) (destination : Destination) :
    Locks env { w with calls := w.calls ++ [.start task digest destination] } := by
  obtain ⟨hj, hc, hp⟩ := Call.start_locks task digest destination
  have hcount : ∀ p : Pc → Bool, p (Call.start task digest destination).pc = false →
      World.count { w with calls := w.calls ++ [.start task digest destination] } p = w.count p := by
    intro p hp
    rw [World.count, List.countP_append, List.countP_singleton, hp]
    rfl
  refine ⟨fun a ha f hf => ?_, h.allocated, fun f => ?_, fun f => ?_, ?_⟩
  · rcases List.mem_append.1 ha with ha | ha
    · exact h.registered a ha f hf
    · rw [List.mem_singleton.1 ha, hj] at hf
      cases hf
  · rw [hcount _ (by simp [hc])]
    exact h.single f
  · rw [hcount _ (by simp [hj])]
    exact h.counted f
  · rw [hcount _ hp]
    exact h.permits

/-- What a step of the cache is. -/
theorem step_cases {l : Label} (h : step env w l = some w') :
    (∃ task digest destination, l = .call task digest destination ∧
      w' = { w with calls := w.calls ++ [.start task digest destination] }) ∨
    ∃ i idx c v c', l = .move i idx ∧ w.calls[i]? = some c ∧ move env w c idx = some (v, c') ∧
      w' = { v with calls := w.calls.set i c' } := by
  cases l with
  | call task digest destination => exact .inl ⟨task, digest, destination, rfl, (Option.some.inj h).symm⟩
  | move i idx =>
    simp only [step, Option.bind_eq_bind, Option.bind_eq_some_iff] at h
    obtain ⟨c, hc, ⟨v, c'⟩, hmove, heq⟩ := h
    exact .inr ⟨i, idx, c, v, c', rfl, hc, hmove, (Option.some.inj heq).symm⟩

theorem Locks.step {l : Label} (h : Locks env w) (hstep : step env w l = some w') : Locks env w' := by
  rcases step_cases hstep with ⟨task, digest, destination, rfl, rfl⟩ | ⟨i, idx, c, v, c', rfl, hc, hmove, rfl⟩
  · exact h.call task digest destination
  · exact h.move hc hmove

end

end Ambush.PackCache

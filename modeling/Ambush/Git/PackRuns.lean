import Ambush.Git.PackFlights
/-!
# Runs of the pack cache

A call that found, adopted or published the directory of a digest breaks only where another call
removes that directory before both files are linked. Apart from that nothing goes wrong: the
table is counted as it is, and every call gets on.
-/
open Lib

namespace Ambush.PackCache
open Git (HydrateError)

/-! ## The table -/

namespace CacheState

/-- The bytes of all entries. -/
def sizes (s : CacheState) : Nat := (s.entries.map (fun e => e.2.entry.total_bytes)).sum

/-- Every entry is of the directory of its digest, under which there is one entry, and the total is
that of the entries. -/
structure Sound (s : CacheState) : Prop where
  home : ∀ e ∈ s.entries, e.2.entry.dir = .final e.1
  distinct : (s.entries.map Prod.fst).Nodup
  total : s.total_bytes = s.sizes

variable {s : CacheState} {digest : String} {entry : CachedPack} {record : CacheRecord}

theorem mem_of_get (h : s.get digest = some record) : (digest, record) ∈ s.entries := by
  rw [get, Option.map_eq_some_iff] at h
  obtain ⟨e, he, rfl⟩ := h
  have hkey : e.1 = digest := by simpa using List.find?_some he
  subst hkey
  exact List.mem_of_find?_eq_some he

theorem key_notMem_of_get (h : s.get digest = none) : digest ∉ s.entries.map Prod.fst := by
  rw [get, Option.map_eq_none_iff, List.find?_eq_none] at h
  rintro hmem
  obtain ⟨e, he, rfl⟩ := List.mem_map.1 hmem
  exact h e he (by simp)

/-- Without the one entry of a key the sum is less by it. -/
theorem sum_without {l : List (String × CacheRecord)} (hn : (l.map Prod.fst).Nodup) (h : (digest, record) ∈ l) :
    ((l.filter (fun e => e.1 ≠ digest)).map (fun e => e.2.entry.total_bytes)).sum + record.entry.total_bytes =
      (l.map (fun e => e.2.entry.total_bytes)).sum := by
  induction l with
  | nil => cases h
  | cons e l ih =>
    obtain ⟨hne, hn⟩ := List.nodup_cons.1 hn
    rcases List.mem_cons.1 h with rfl | h
    · have hkept : l.filter (fun e => e.1 ≠ digest) = l := by
        refine List.filter_eq_self.2 (fun a ha => ?_)
        have hother : a.1 ≠ digest := fun heq => hne (List.mem_map.2 ⟨a, ha, heq⟩)
        simpa using hother
      rw [List.filter_cons_of_neg (by simp), hkept, List.map_cons, List.sum_cons, Nat.add_comm]
    · have hkey : e.1 ≠ digest := fun heq => hne (List.mem_map.2 ⟨_, h, heq.symm⟩)
      rw [List.filter_cons_of_pos (by simpa using hkey), List.map_cons, List.sum_cons, List.map_cons, List.sum_cons, ← ih hn h]
      omega

theorem remove_entries (s : CacheState) (digest : String) :
    (s.remove digest).entries = s.entries.filter (fun e => e.1 ≠ digest) := by
  rw [remove]
  cases hget : s.get digest with
  | some record => rfl
  | none =>
    refine (List.filter_eq_self.2 (fun e he => ?_)).symm
    have hother : e.1 ≠ digest := fun heq => key_notMem_of_get hget (List.mem_map.2 ⟨e, he, heq⟩)
    simpa using hother

theorem Sound.remove (h : s.Sound) (digest : String) : (s.remove digest).Sound := by
  have hentries := remove_entries s digest
  refine ⟨fun e he => ?_, ?_, ?_⟩
  · rw [hentries] at he
    exact h.home e (List.mem_filter.1 he).1
  · rw [hentries]
    exact h.distinct.sublist (List.filter_sublist.map _)
  · rw [sizes, hentries, CacheState.remove]
    cases hget : s.get digest with
    | some record =>
      have hsum := sum_without h.distinct (mem_of_get hget)
      have htotal := h.total
      rw [sizes] at htotal
      dsimp only
      omega
    | none =>
      rw [← hentries, CacheState.remove, hget]
      exact h.total

/-- While the sum stays within a `u64`, an entry that comes in is counted. -/
theorem Sound.insert (h : s.Sound) (hdir : entry.dir = .final digest)
    (hfits : (s.remove digest).sizes + entry.total_bytes ≤ u64Max) : (s.insert digest entry).Sound := by
  have hrest := h.remove digest
  refine ⟨fun e he => ?_, ?_, ?_⟩
  · rcases List.mem_append.1 he with he | he
    · exact hrest.home e he
    · rw [List.mem_singleton.1 he]
      exact hdir
  · rw [CacheState.insert, List.map_append, List.nodup_append]
    refine ⟨hrest.distinct, List.nodup_singleton _, fun k hk k' hk' => ?_⟩
    rw [List.mem_singleton.1 hk']
    intro hkey
    rw [remove_entries] at hk
    obtain ⟨e, he, heq⟩ := List.mem_map.1 hk
    have hother : e.1 ≠ digest := by simpa using (List.mem_filter.1 he).2
    exact hother (heq.trans hkey)
  · have htotal : satAdd (s.remove digest).total_bytes entry.total_bytes = (s.remove digest).sizes + entry.total_bytes := by
      rw [hrest.total]
      exact Nat.min_eq_left hfits
    refine Eq.trans (b := satAdd (s.remove digest).total_bytes entry.total_bytes) rfl (htotal.trans ?_)
    rw [sizes, sizes, CacheState.insert, List.map_append, List.sum_append, List.map_singleton, List.sum_singleton]

theorem Sound.tick (h : s.Sound) (tick : Nat) : Sound { s with tick := tick } := ⟨h.home, h.distinct, h.total⟩

theorem Sound.touch (h : s.Sound) (digest : String) : (s.touch digest).Sound := by
  have hkeys : (s.touch digest).entries.map Prod.fst = s.entries.map Prod.fst := by
    rw [CacheState.touch, List.map_map]
    refine List.map_congr_left (fun e _ => ?_)
    rw [Function.comp_apply]
    split <;> rfl
  have hsizes : (s.touch digest).sizes = s.sizes := by
    rw [sizes, sizes, CacheState.touch, List.map_map]
    refine congrArg List.sum (List.map_congr_left (fun e _ => ?_))
    rw [Function.comp_apply]
    split <;> rfl
  refine ⟨fun e he => ?_, ?_, ?_⟩
  · obtain ⟨a, ha, rfl⟩ := List.mem_map.1 he
    split <;> exact h.home a ha
  · rw [hkeys]
    exact h.distinct
  · rw [hsizes]
    exact h.total

end CacheState

/-- Evictions keep the table sound. -/
theorem CacheState.Sound.evict {s : CacheState} (h : s.Sound) (max_bytes : Nat) (calls : List Call) (n : Nat) :
    (evict max_bytes calls n s).1.Sound := by
  induction n generalizing s with
  | zero => exact h
  | succ n ih =>
    rw [PackCache.evict]
    split
    · split
      · exact h
      · next digest record _ => exact ih (h.remove digest)
    · exact h


/-! ## The files of a digest -/

/-- The pack of the digest with an index of it. -/
def Right (env : Env) (digest : String) (files : Pair) : Prop :=
  files.pack = env.pack digest ∧ env.is_idx digest files.idx = true

/-- The files of a directory. -/
def World.files (w : World) : Dir → Option Pair
  | .final digest => w.published digest
  | .staging files => some files

theorem World.source_eq (w : World) (entry : CachedPack) : w.source entry = w.files entry.dir := by
  obtain ⟨arc, dir, pack_bytes, total_bytes⟩ := entry
  cases dir <;> rfl

/-- The directory of an entry is that of the digest, or one with the right files. -/
def Mine (env : Env) (digest : String) (dir : Dir) : Prop := dir = .final digest ∨ ∃ files, dir = .staging files ∧ Right env digest files

/-- The pack and its index are in the destination. -/
def Linked (env : Env) (c : Call) : Prop :=
  c.destination.pack = some (env.pack c.digest) ∧ ∃ idx, c.destination.idx = some idx ∧ env.is_idx c.digest idx = true

/-- What a call may return: a pack that can be asked for is delivered. -/
def Good (env : Env) (c : Call) (result : Except HydrateError Nat) : Prop :=
  c.task = .materialize → is_digest c.digest = true → (∃ pack_bytes, result = .ok pack_bytes) ∧ Linked env c

/-- The directory a call needs to go on being there. -/
def Call.needs (c : Call) : Option Dir :=
  match c.pc with
  | .link_pack e (some _) | .link_idx e (some _) | .unlink_pack e (some _) | .unlink_idx e (some _) | .copy_pack e (some _)
  | .copy_idx e (some _) | .insert _ e | .release _ (.ok e) => some e.dir
  | .stat_pack _ _ .published | .stat_idx _ _ .published _ => some (.final c.digest)
  | _ => none

/-- What a call has in its variables is right, and it is nowhere on the way to a failure. -/
def Call.Tidy (env : Env) (c : Call) : Prop :=
  match c.pc with
  | .link_pack e _ | .unlink_pack e _ | .unlink_idx e _ | .copy_pack e _ | .release _ (.ok e) => Mine env c.digest e.dir
  | .insert _ e => e.dir = .final c.digest
  | .link_idx e _ | .copy_idx e _ => Mine env c.digest e.dir ∧ c.destination.pack = some (env.pack c.digest)
  | .clean_pack _ flight => flight = none
  | .drop_entry _ _ result | .unlock _ result | .leave _ result | .remove_flight _ result | .prune result | .remove_dirs _ result
  | .returned result => Good env c result
  | .invalidate held | .count_holders _ held | .discard _ held => c.task = .materialize → held ≠ none
  | .stat_pack _ staged when_ | .stat_idx _ staged when_ _ => Right env c.digest staged ∧ when_ ≠ .refused
  | .exists_final _ staged | .remove_final _ staged | .rename _ staged => Right env c.digest staged
  | .release _ (.error _) => False
  | _ => True

/-- What a call relies on among the others. -/
structure Call.Served (env : Env) (w : World) (c : Call) : Prop where
  tidy : c.Tidy env
  kept : ∀ dir, c.needs = some dir → (w.files dir).isSome
  vacant : ∀ f staged, c.pc = .rename f staged → w.published c.digest = none

/-- What is published is right, the table is sound, and every call is served. -/
structure Whole (env : Env) (w : World) : Prop where
  published : ∀ digest files, w.published digest = some files → Right env digest files
  table : w.state.Sound
  served : ∀ c ∈ w.calls, c.Served env w

section
variable {env : Env} {w w' : World} {i : Nat} {c c' : Call} {idx : Git.Bytes}

theorem Whole.right (h : Whole env w) {digest : String} {dir : Dir} {files : Pair} (hmine : Mine env digest dir)
    (hfiles : w.files dir = some files) : Right env digest files := by
  rcases hmine with rfl | ⟨staged, rfl, hright⟩
  · exact h.published digest files hfiles
  · rw [← Option.some.inj hfiles]
    exact hright

/-- Where a call needs no directory and is not about to publish. -/
theorem Call.served_of_tidy (htidy : c.Tidy env) (hneeds : c.needs = none) (hrename : ∀ f staged, c.pc ≠ .rename f staged) :
    c.Served env w := by
  refine ⟨htidy, fun dir hdir => ?_, fun f staged hpc => absurd hpc (hrename f staged)⟩
  rw [hneeds] at hdir
  cases hdir

theorem served_missed (task : Task) (digest : String) (destination : Destination) (flight : Option Nat) :
    Call.Served env w ⟨task, digest, destination, missed flight⟩ := by
  cases flight with
  | none => exact Call.served_of_tidy trivial rfl (fun _ _ => nofun)
  | some f => exact Call.served_of_tidy trivial rfl (fun _ _ => nofun)

theorem served_installed {task : Task} {digest : String} {destination : Destination} {entry : CachedPack} {flight : Option Nat}
    {result : Except HydrateError Nat} (hok : flight ≠ none → ∃ n, result = .ok n)
    (hlinked : ∀ n, result = .ok n → Linked env ⟨task, digest, destination, installed entry flight result⟩) :
    Call.Served env w ⟨task, digest, destination, installed entry flight result⟩ := by
  cases result with
  | ok n =>
    have hgood : Good env ⟨task, digest, destination, installed entry flight (.ok n)⟩ (.ok n) := fun _ _ => ⟨⟨n, rfl⟩, hlinked n rfl⟩
    cases flight with
    | none => exact Call.served_of_tidy hgood rfl (fun _ _ => nofun)
    | some f => exact Call.served_of_tidy hgood rfl (fun _ _ => nofun)
  | error e =>
    cases flight with
    | none => exact Call.served_of_tidy (fun _ => nofun) rfl (fun _ _ => nofun)
    | some f =>
      obtain ⟨n, hn⟩ := hok nofun
      cases hn

theorem served_dropped {task : Task} {digest : String} {destination : Destination} {flight : Option Nat}
    {result : Except HydrateError Nat} {pc : Pc} (hgood : Good env ⟨task, digest, destination, pc⟩ result) :
    Call.Served env w ⟨task, digest, destination, dropped flight result⟩ := by
  cases flight with
  | none => exact Call.served_of_tidy hgood rfl (fun _ _ => nofun)
  | some f => exact Call.served_of_tidy hgood rfl (fun _ _ => nofun)

theorem served_invalidated {task : Task} {digest : String} {destination : Destination} {held : Option CachedPack}
    (hheld : task = .materialize → held ≠ none) : Call.Served env w ⟨task, digest, destination, invalidated held⟩ := by
  cases held with
  | none => exact Call.served_of_tidy (fun htask => absurd rfl (hheld htask)) rfl (fun _ _ => nofun)
  | some entry => exact Call.served_of_tidy trivial rfl (fun _ _ => nofun)

/-- A step serves the call that takes it. -/
theorem Whole.move_served (h : Whole env w) (hc : c.Served env w) (hmove : move env w c idx = some (w', c')) : c'.Served env w' := by
  obtain ⟨task, digest, destination, pc⟩ := c
  obtain ⟨htidy, hkept, hvacant⟩ := hc
  cases pc with
  | validate =>
    dsimp only [move] at hmove
    split at hmove
    · cases hmove
      exact Call.served_of_tidy trivial rfl (fun _ _ => nofun)
    · next e hinvalid =>
      cases hmove
      refine Call.served_of_tidy (fun _ hdigest => ?_) rfl (fun _ _ => nofun)
      have hdigest : is_digest digest = true := hdigest
      rw [validate_digest, if_pos hdigest] at hinvalid
      cases hinvalid
  | lookup flight =>
    dsimp only [move] at hmove
    split at hmove
    · cases hmove
      exact served_missed _ _ _ _
    · next record hget =>
      have hhome : record.entry.dir = .final digest := h.table.home _ (CacheState.mem_of_get hget)
      split at hmove
      · next hthere =>
        cases hmove
        refine ⟨.inl hhome, fun dir hdir => ?_, fun _ _ => nofun⟩
        rw [World.source_eq] at hthere
        cases flight with
        | none => cases hdir
        | some f =>
          cases hdir
          exact hthere
      · cases hmove
        exact served_missed _ _ _ _
  | link_pack entry flight =>
    have hkeep : ∀ dir, Call.needs ⟨task, digest, destination, .unlink_pack entry flight⟩ = some dir → (w.files dir).isSome := by
      cases flight <;> exact hkept
    dsimp only [move] at hmove
    split at hmove
    · next files hfiles hfree =>
      cases hmove
      rw [World.source_eq] at hfiles
      have hright := h.right htidy hfiles
      refine ⟨⟨htidy, congrArg some hright.1⟩, ?_, fun _ _ => nofun⟩
      cases flight <;> exact hkept
    · cases hmove
      exact ⟨htidy, hkeep, fun _ _ => nofun⟩
  | link_idx entry flight =>
    dsimp only [move] at hmove
    split at hmove
    · next files hfiles hfree =>
      cases hmove
      rw [World.source_eq] at hfiles
      have hright := h.right htidy.1 hfiles
      exact served_installed (fun _ => ⟨_, rfl⟩) (fun _ _ => ⟨htidy.2, files.idx, rfl, hright.2⟩)
    · cases hmove
      refine ⟨htidy.1, ?_, fun _ _ => nofun⟩
      cases flight <;> exact hkept
  | unlink_pack entry flight =>
    dsimp only [move] at hmove
    cases hmove
    refine ⟨htidy, ?_, fun _ _ => nofun⟩
    cases flight <;> exact hkept
  | unlink_idx entry flight =>
    dsimp only [move] at hmove
    cases hmove
    refine ⟨htidy, ?_, fun _ _ => nofun⟩
    cases flight <;> exact hkept
  | copy_pack entry flight =>
    dsimp only [move] at hmove
    split at hmove
    · next files hfiles =>
      cases hmove
      rw [World.source_eq] at hfiles
      have hright := h.right htidy hfiles
      refine ⟨⟨htidy, congrArg some hright.1⟩, ?_, fun _ _ => nofun⟩
      cases flight <;> exact hkept
    · next hgone =>
      cases hmove
      rw [World.source_eq] at hgone
      refine served_installed (fun hflight => ?_) nofun
      cases flight with
      | none => exact absurd rfl hflight
      | some f =>
        have hthere := hkept _ rfl
        rw [hgone] at hthere
        cases hthere
  | copy_idx entry flight =>
    dsimp only [move] at hmove
    split at hmove
    · next files hfiles =>
      cases hmove
      rw [World.source_eq] at hfiles
      have hright := h.right htidy.1 hfiles
      exact served_installed (fun _ => ⟨_, rfl⟩) (fun _ _ => ⟨htidy.2, files.idx, rfl, hright.2⟩)
    · next hgone =>
      cases hmove
      rw [World.source_eq] at hgone
      refine Call.served_of_tidy ?_ rfl (fun _ _ => nofun)
      cases flight with
      | none => rfl
      | some f =>
        have hthere := hkept _ rfl
        rw [hgone] at hthere
        cases hthere
  | clean_pack entry flight =>
    dsimp only [move] at hmove
    cases hmove
    exact served_installed (fun hflight => absurd htidy hflight) nofun
  | drop_entry entry flight result =>
    dsimp only [move] at hmove
    cases hmove
    exact served_dropped htidy
  | invalidate held =>
    dsimp only [move] at hmove
    split at hmove
    · cases hmove
      exact Call.served_of_tidy htidy rfl (fun _ _ => nofun)
    · cases hmove
      exact served_invalidated htidy
  | count_holders record held =>
    dsimp only [move] at hmove
    split at hmove
    · cases hmove
      exact Call.served_of_tidy htidy rfl (fun _ _ => nofun)
    · cases hmove
      exact served_invalidated htidy
  | discard record held =>
    dsimp only [move] at hmove
    cases hmove
    exact served_invalidated htidy
  | enter =>
    dsimp only [move] at hmove
    split at hmove
    · cases hmove
      exact Call.served_of_tidy trivial rfl (fun _ _ => nofun)
    · cases hmove
      exact Call.served_of_tidy trivial rfl (fun _ _ => nofun)
  | wait f =>
    dsimp only [move] at hmove
    split at hmove
    · cases hmove
    · cases hmove
      exact Call.served_of_tidy trivial rfl (fun _ _ => nofun)
  | acquire f =>
    dsimp only [move] at hmove
    split at hmove
    · cases hmove
    · cases hmove
      exact Call.served_of_tidy trivial rfl (fun _ _ => nofun)
  | stage f =>
    dsimp only [move] at hmove
    split at hmove
    · cases hmove
    next hindex =>
    have hright : Right env digest ⟨env.pack digest, idx⟩ := ⟨rfl, by simpa using hindex⟩
    split at hmove
    · cases hmove
      refine ⟨.inr ⟨_, rfl, hright⟩, fun dir hdir => ?_, fun _ _ => nofun⟩
      cases hdir
      rfl
    · cases hmove
      exact Call.served_of_tidy ⟨hright, nofun⟩ rfl (fun _ _ => nofun)
  | stat_pack f staged when_ =>
    dsimp only [move] at hmove
    split at hmove
    · next files hfiles =>
      cases hmove
      refine ⟨htidy, ?_, fun _ _ => nofun⟩
      cases when_ <;> exact hkept
    · next hgone =>
      cases hmove
      cases when_ with
      | before => exact Call.served_of_tidy htidy.1 rfl (fun _ _ => nofun)
      | refused => exact absurd rfl htidy.2
      | published =>
        have hthere := hkept _ rfl
        rw [World.files, hgone] at hthere
        cases hthere
  | stat_idx f staged when_ pack_bytes =>
    dsimp only [move] at hmove
    split at hmove
    · next files hfiles =>
      cases hmove
      refine ⟨rfl, fun dir hdir => ?_, fun _ _ => nofun⟩
      cases hdir
      exact Option.isSome_iff_exists.2 ⟨files, hfiles⟩
    · next hgone =>
      cases hmove
      cases when_ with
      | before => exact Call.served_of_tidy htidy.1 rfl (fun _ _ => nofun)
      | refused => exact absurd rfl htidy.2
      | published =>
        have hthere := hkept _ rfl
        rw [World.files, hgone] at hthere
        cases hthere
  | exists_final f staged =>
    dsimp only [move] at hmove
    cases hmove
    split
    · exact Call.served_of_tidy htidy rfl (fun _ _ => nofun)
    · next hgone => exact ⟨htidy, nofun, fun _ _ _ => by simpa using hgone⟩
  | remove_final f staged =>
    dsimp only [move] at hmove
    cases hmove
    exact ⟨htidy, nofun, fun _ _ _ => Map.remove_self _ _⟩
  | rename f staged =>
    have hnone : w.published digest = none := hvacant f staged rfl
    dsimp only [move] at hmove
    rw [hnone, if_neg (by simp)] at hmove
    cases hmove
    refine ⟨⟨htidy, nofun⟩, fun dir hdir => ?_, fun _ _ => nofun⟩
    cases hdir
    exact Option.isSome_iff_exists.2 ⟨staged, Map.insert_self _ _ _⟩
  | insert f entry =>
    dsimp only [move] at hmove
    cases hmove
    exact ⟨.inl htidy, hkept, fun _ _ => nofun⟩
  | release f populated =>
    dsimp only [move] at hmove
    cases hmove
    cases populated with
    | ok entry => exact ⟨htidy, hkept, fun _ _ => nofun⟩
    | error e => exact htidy.elim
  | unlock f result =>
    dsimp only [move] at hmove
    cases hmove
    exact Call.served_of_tidy htidy rfl (fun _ _ => nofun)
  | leave f result =>
    dsimp only [move] at hmove
    cases hmove
    split
    · exact Call.served_of_tidy htidy rfl (fun _ _ => nofun)
    · exact Call.served_of_tidy htidy rfl (fun _ _ => nofun)
  | remove_flight f result =>
    dsimp only [move] at hmove
    cases hmove
    exact Call.served_of_tidy htidy rfl (fun _ _ => nofun)
  | prune result =>
    dsimp only [move] at hmove
    cases hmove
    exact Call.served_of_tidy htidy rfl (fun _ _ => nofun)
  | remove_dirs dirs result =>
    dsimp only [move] at hmove
    cases dirs with
    | nil =>
      cases hmove
      exact Call.served_of_tidy htidy rfl (fun _ _ => nofun)
    | cons dir dirs =>
      cases hmove
      exact Call.served_of_tidy htidy rfl (fun _ _ => nofun)
  | returned result => cases hmove

end

/-! ## A step among the others -/

/-- The directory a step takes away. -/
def Call.removes (c : Call) : Option Dir :=
  match c.pc with
  | .discard record _ => some record.dir
  | .remove_dirs (dir :: _) _ => some dir
  | _ => none

/-- The entry a step brings into the table. -/
def Call.brings (c : Call) : Option CachedPack :=
  match c.pc with
  | .insert _ entry => some entry
  | _ => none

/-- No directory goes that a call needs, and what comes into the table can be counted. -/
structure Quiet (w : World) (c : Call) : Prop where
  removes : ∀ dir ∈ c.removes, ∀ a ∈ w.calls, a.needs ≠ some dir
  brings : ∀ entry ∈ c.brings, (w.state.remove c.digest).sizes + entry.total_bytes ≤ u64Max

instance (w : World) (c : Call) : Decidable (Quiet w c) :=
  decidable_of_iff ((∀ dir ∈ c.removes, ∀ a ∈ w.calls, a.needs ≠ some dir) ∧
      ∀ entry ∈ c.brings, (w.state.remove c.digest).sizes + entry.total_bytes ≤ u64Max)
    ⟨fun h => ⟨h.1, h.2⟩, fun h => ⟨h.removes, h.brings⟩⟩

section
variable {env : Env} {w w' : World} {i : Nat} {c c' : Call} {idx : Git.Bytes}

/-- What a step does to the directories. -/
theorem move_published (h : move env w c idx = some (w', c')) : w'.published = w.published ∨
    (∃ dir, c.removes = some dir ∧ w'.published = (w.remove_dir dir).published) ∨
    (∃ f staged, c.pc = .remove_final f staged ∧ w'.published = w.published.remove c.digest) ∨
    ∃ f staged, c.pc = .rename f staged ∧ w.published c.digest = none ∧ w'.published = w.published.insert c.digest staged := by
  obtain ⟨task, digest, destination, pc⟩ := c
  cases pc with
  | rename f staged =>
    dsimp only [move] at h
    split at h
    · cases h
      exact .inl rfl
    · next hnone =>
      cases h
      exact .inr (.inr (.inr ⟨f, staged, rfl, by simpa using hnone, rfl⟩))
  | remove_final f staged =>
    dsimp only [move] at h
    cases h
    exact .inr (.inr (.inl ⟨f, staged, rfl, rfl⟩))
  | discard record held =>
    dsimp only [move] at h
    cases h
    exact .inr (.inl ⟨record.dir, rfl, rfl⟩)
  | remove_dirs dirs result =>
    dsimp only [move] at h
    cases dirs with
    | nil =>
      cases h
      exact .inl rfl
    | cons dir dirs =>
      cases h
      exact .inr (.inl ⟨dir, rfl, rfl⟩)
  | remove_flight f result =>
    dsimp only [move] at h
    cases h
    dsimp only
    split <;> exact .inl rfl
  | _ =>
    dsimp only [move] at h
    repeat' split at h
    all_goals first
      | (cases h; exact .inl rfl)
      | cases h

/-- What a step does to the table. -/
theorem move_table (h : move env w c idx = some (w', c')) (hs : w.state.Sound) (hquiet : Quiet w c) (hc : c.Served env w) :
    w'.state.Sound := by
  obtain ⟨task, digest, destination, pc⟩ := c
  cases pc with
  | lookup flight =>
    dsimp only [move] at h
    split at h
    · cases h
      exact hs.tick _
    · split at h
      · cases h
        exact (hs.tick _).touch _
      · cases h
        exact hs.tick _
  | invalidate held =>
    dsimp only [move] at h
    split at h
    · cases h
      exact hs.remove _
    · cases h
      exact hs
  | insert f entry =>
    dsimp only [move] at h
    cases h
    exact hs.insert hc.tidy (hquiet.brings entry rfl)
  | prune result =>
    dsimp only [move] at h
    cases h
    exact hs.evict _ _ _
  | remove_flight f result =>
    dsimp only [move] at h
    cases h
    split <;> exact hs
  | discard record held =>
    dsimp only [move] at h
    cases h
    cases hdir : record.dir <;> simpa [hdir, World.remove_dir] using hs
  | remove_final f staged =>
    dsimp only [move] at h
    cases h
    exact hs
  | remove_dirs dirs result =>
    dsimp only [move] at h
    cases dirs with
    | nil =>
      cases h
      exact hs
    | cons dir dirs =>
      cases h
      cases dir <;> exact hs
  | _ =>
    dsimp only [move] at h
    repeat' split at h
    all_goals first
      | (cases h; exact hs)
      | cases h

end

section
variable {env : Env} {w w' : World} {i j : Nat} {a c c' : Call} {idx : Git.Bytes}

theorem Call.Served.congr (h : a.Served env w) (hpublished : w'.published = w.published) : a.Served env w' := by
  have hfiles : w'.files = w.files := by
    funext dir
    cases dir with
    | final digest => exact congrFun hpublished digest
    | staging files => rfl
  exact ⟨h.tidy, hfiles ▸ h.kept, hpublished ▸ h.vacant⟩

/-- Who needs the directory of a digest holds the lock of its flight. -/
theorem Call.Tidy.needs_final (h : a.Tidy env) {digest : String} (hneeds : a.needs = some (.final digest)) :
    a.digest = digest ∧ ∃ f, a.pc.critical = some f := by
  have hmine : ∀ dir, Mine env a.digest dir → some dir = some (.final digest) → a.digest = digest := by
    intro dir hmine hdir
    rcases hmine with rfl | ⟨files, rfl, -⟩
    · cases hdir
      rfl
    · cases hdir
  obtain ⟨task, own, destination, pc⟩ := a
  cases pc with
  | link_pack e flight | unlink_pack e flight | unlink_idx e flight | copy_pack e flight =>
    cases flight with
    | none => cases hneeds
    | some f => exact ⟨hmine _ h hneeds, f, rfl⟩
  | link_idx e flight | copy_idx e flight =>
    cases flight with
    | none => cases hneeds
    | some f => exact ⟨hmine _ h.1 hneeds, f, rfl⟩
  | insert f e => exact ⟨hmine _ (.inl h) hneeds, f, rfl⟩
  | release f populated =>
    cases populated with
    | ok e => exact ⟨hmine _ h hneeds, f, rfl⟩
    | error e => cases hneeds
  | stat_pack f staged when_ | stat_idx f staged when_ pack_bytes =>
    cases when_ with
    | published =>
      cases hneeds
      exact ⟨rfl, f, rfl⟩
    | _ => cases hneeds
  | _ => cases hneeds

/-- A directory that goes is missed by no call that does not need it. -/
theorem Call.Served.of_removed (h : a.Served env w) {digest : String} (hneeds : a.needs ≠ some (.final digest))
    (hpublished : w'.published = w.published.remove digest) : a.Served env w' := by
  refine ⟨h.tidy, fun dir hdir => ?_, fun f staged hpc => ?_⟩
  · have hkept := h.kept dir hdir
    cases dir with
    | staging files => exact hkept
    | final other =>
      have hne : other ≠ digest := by
        rintro rfl
        exact hneeds hdir
      change (w'.published other).isSome
      rw [hpublished, Map.remove_ne _ _ _ hne]
      exact hkept
  · rw [hpublished, Map.remove_apply, h.vacant f staged hpc, ite_self]

/-- A step of another call leaves a call served. -/
theorem Whole.other_served (h : Whole env w) (hlocks : Locks env w) (hi : w.calls[i]? = some c) (hj : w.calls[j]? = some a)
    (hne : i ≠ j) (hmove : move env w c idx = some (w', c')) (hquiet : Quiet w c) : a.Served env w' := by
  have hmem := List.mem_of_getElem? hj
  have hserved := h.served a hmem
  rcases move_published hmove with hsame | ⟨dir, hremoves, hgone⟩ | ⟨f, staged, hpc, hgone⟩ | ⟨f, staged, hpc, hnone, hnew⟩
  · exact hserved.congr hsame
  · have hfree := hquiet.removes dir hremoves a hmem
    cases dir with
    | staging files => exact hserved.congr hgone
    | final digest => exact hserved.of_removed hfree hgone
  · -- only the call that holds the lock of the flight takes the directory away to publish its own
    refine hserved.of_removed (fun hneeds => ?_) hgone
    obtain ⟨hdigest, g, hg⟩ := hserved.tidy.needs_final hneeds
    exact hlocks.exclusive hi hj hne hdigest.symm (by rw [hpc]; rfl) hg
  · refine ⟨hserved.tidy, fun dir hdir => ?_, fun g staged' hpc' => ?_⟩
    · have hkept := hserved.kept dir hdir
      cases dir with
      | staging files => exact hkept
      | final digest =>
        change (w'.published digest).isSome
        rw [hnew, Map.insert_apply]
        split
        · rfl
        · exact hkept
    · have hdigest : a.digest ≠ c.digest := fun heq => hlocks.exclusive hi hj hne heq.symm (by rw [hpc]; rfl) (by rw [hpc']; rfl)
      rw [hnew, Map.insert_ne _ _ _ _ hdigest]
      exact hserved.vacant g staged' hpc'

theorem Whole.move (h : Whole env w) (hlocks : Locks env w) (hi : w.calls[i]? = some c) (hquiet : Quiet w c)
    (hmove : move env w c idx = some (w', c')) : Whole env { w' with calls := w.calls.set i c' } := by
  have hmem := List.mem_of_getElem? hi
  have hc := h.served c hmem
  have htable : w'.state.Sound := move_table hmove h.table hquiet hc
  refine ⟨fun digest files hfiles => ?_, htable, fun a ha => ?_⟩
  · have hfiles : w'.published digest = some files := hfiles
    have hremoved : ∀ gone : String, w'.published = w.published.remove gone → Right env digest files := by
      intro gone hgone
      rw [hgone, Map.remove_apply] at hfiles
      split at hfiles
      · cases hfiles
      · exact h.published digest files hfiles
    rcases move_published hmove with hsame | ⟨dir, -, hgone⟩ | ⟨f, staged, -, hgone⟩ | ⟨f, staged, hpc, -, hnew⟩
    · rw [hsame] at hfiles
      exact h.published digest files hfiles
    · cases dir with
      | staging other =>
        rw [hgone] at hfiles
        exact h.published digest files hfiles
      | final gone => exact hremoved gone hgone
    · exact hremoved _ hgone
    · rw [hnew, Map.insert_apply] at hfiles
      split at hfiles
      · next hdigest =>
        cases hfiles
        have htidy := hc.tidy
        unfold Call.Tidy at htidy
        rw [hpc] at htidy
        rw [hdigest]
        exact htidy
      · exact h.published digest files hfiles
  · obtain ⟨j, hj⟩ := List.mem_iff_getElem?.1 ha
    refine Call.Served.congr (w := w') ?_ rfl
    by_cases hij : i = j
    · subst hij
      rw [List.getElem?_set_self (List.getElem?_eq_some_iff.1 hi).1] at hj
      cases hj
      exact h.move_served hc hmove
    · rw [List.getElem?_set_ne hij] at hj
      exact h.other_served hlocks hi hj hij hmove hquiet

theorem Call.start_served (task : Task) (digest : String) (destination : Destination) : (Call.start task digest destination).Served env w := by
  cases task with
  | materialize => exact Call.served_of_tidy trivial rfl (fun _ _ => nofun)
  | prune => exact Call.served_of_tidy (fun htask => nomatch htask) rfl (fun _ _ => nofun)
  | invalidate => exact Call.served_of_tidy (fun htask => nomatch htask) rfl (fun _ _ => nofun)

theorem Whole.call (h : Whole env w) (task : Task) (digest : String) (destination : Destination) :
    Whole env { w with calls := w.calls ++ [.start task digest destination] } := by
  refine ⟨h.published, h.table, fun a ha => ?_⟩
  rcases List.mem_append.1 ha with ha | ha
  · exact (h.served a ha).congr rfl
  · rw [List.mem_singleton.1 ha]
    exact Call.start_served task digest destination

theorem whole_new (env : Env) : Whole env (World.new env) := by
  refine ⟨fun _ _ h => ?_, ⟨fun _ h => ?_, List.nodup_nil, rfl⟩, fun _ h => ?_⟩
  · cases h
  · cases h
  · cases h

end

/-! ## No call waits for ever -/

/-- How many steps a place is away from the return, at most, but for the directories to remove. -/
def Pc.rank : Pc → Nat
  | .returned _ => 0
  | .remove_dirs dirs _ => dirs.length + 1
  | .prune _ => 2
  | .remove_flight _ _ => 3
  | .leave _ _ => 4
  | .unlock _ _ => 5
  | .drop_entry _ _ _ => 6
  | .clean_pack _ flight => 7 + again flight
  | .copy_idx _ flight => 8 + again flight
  | .copy_pack _ flight => 9 + again flight
  | .unlink_idx _ flight => 10 + again flight
  | .unlink_pack _ flight => 11 + again flight
  | .link_idx _ flight => 12 + again flight
  | .link_pack _ flight => 13 + again flight
  | .release _ _ => 14
  | .insert _ _ => 16
  | .stat_idx _ _ when_ _ => 17 + early when_
  | .stat_pack _ _ when_ => 18 + early when_
  | .rename _ _ => 19
  | .remove_final _ _ => 20
  | .exists_final _ _ => 21
  | .stage _ => 25
  | .acquire _ => 26
  | .lookup (some _) => 27
  | .wait _ => 28
  | .enter => 29
  | .discard _ _ => 30
  | .count_holders _ _ => 31
  | .invalidate _ => 32
  | .lookup none => 46
  | .validate => 47
where
  /-- After the first lookup there may be a second. -/
  again : Option Nat → Nat
    | none => 32
    | some _ => 0
  early : When → Nat
    | .before => 5
    | .refused | .published => 0

/-- The steps that are left, at most. -/
def World.work (w : World) : Nat := w.state.entries.length + (w.calls.map (fun c => c.pc.rank)).sum

section
variable {env : Env} {w w' : World} {i : Nat} {c c' : Call} {idx : Git.Bytes}

theorem CacheState.remove_length (s : CacheState) (digest : String) : (s.remove digest).entries.length ≤ s.entries.length := by
  rw [CacheState.remove_entries]
  exact List.length_filter_le _ _

theorem oldest_mem {s : CacheState} {calls : List Call} {l : List (String × CacheRecord)} {e : String × CacheRecord}
    (h : oldest s calls l = some e) : e ∈ l := by
  induction l generalizing e with
  | nil => cases h
  | cons a l ih =>
    unfold oldest at h
    split at h
    · split at h
      · next f hf =>
        split at h
        · cases h
          exact List.mem_cons_of_mem _ (ih hf)
        · cases h
          exact List.mem_cons_self
      · cases h
        exact List.mem_cons_self
    · exact List.mem_cons_of_mem _ (ih h)

/-- Each directory to remove is that of an entry that went. -/
theorem evict_length (max_bytes : Nat) (calls : List Call) (n : Nat) (s : CacheState) :
    (evict max_bytes calls n s).1.entries.length + (evict max_bytes calls n s).2.length ≤ s.entries.length := by
  induction n generalizing s with
  | zero => exact Nat.le_refl _
  | succ n ih =>
    rw [evict]
    split
    · split
      · exact Nat.le_refl _
      · next digest record hold =>
        have hgone : (s.remove digest).entries.length < s.entries.length := by
          rw [CacheState.remove_entries]
          refine List.length_filter_lt_length_iff_exists.2 ⟨_, oldest_mem hold, ?_⟩
          simp
        have hrest := ih (s.remove digest)
        dsimp only [List.length_cons]
        omega
    · exact Nat.le_refl _

/-- Every step brings its call nearer to the return. -/
theorem move_rank (h : move env w c idx = some (w', c')) :
    w'.state.entries.length + c'.pc.rank < w.state.entries.length + c.pc.rank := by
  obtain ⟨task, digest, destination, pc⟩ := c
  cases pc with
  | prune result =>
    dsimp only [move] at h
    cases h
    have hlength := evict_length env.max_bytes w.calls w.state.entries.length w.state
    simp only [Pc.rank]
    omega
  | invalidate held =>
    dsimp only [move] at h
    split at h
    · cases h
      have hlength := CacheState.remove_length w.state digest
      simp only [Pc.rank]
      omega
    · cases h
      cases held <;> simp [invalidated, Pc.rank]
  | insert f entry =>
    dsimp only [move] at h
    cases h
    have hlength := CacheState.remove_length w.state digest
    simp only [CacheState.insert, List.length_append, List.length_singleton, Pc.rank]
    omega
  | remove_dirs dirs result =>
    dsimp only [move] at h
    cases dirs with
    | nil =>
      cases h
      simp [Pc.rank]
    | cons dir dirs =>
      cases h
      cases dir <;> simp [World.remove_dir, Pc.rank]
  | discard record held =>
    dsimp only [move] at h
    cases h
    cases record.dir <;> cases held <;> simp [World.remove_dir, invalidated, Pc.rank]
  | count_holders record held =>
    dsimp only [move] at h
    split at h
    · cases h
      simp [Pc.rank]
    · cases h
      cases held <;> simp [invalidated, Pc.rank]
  | lookup flight =>
    dsimp only [move] at h
    split at h
    · cases h
      cases flight <;> simp [missed, Pc.rank]
    · split at h
      · cases h
        cases flight <;> simp [CacheState.touch, Pc.rank, Pc.rank.again]
      · cases h
        cases flight <;> simp [missed, Pc.rank]
  | link_pack entry flight | unlink_pack entry flight | unlink_idx entry flight =>
    dsimp only [move] at h
    repeat' split at h
    all_goals
      cases h
      simp [Pc.rank]
  | link_idx entry flight | copy_pack entry flight | copy_idx entry flight | clean_pack entry flight | drop_entry entry flight result =>
    dsimp only [move] at h
    repeat' split at h
    all_goals
      cases h
      cases flight <;> simp [installed, dropped, Pc.rank, Pc.rank.again]
  | stat_pack f staged when_ | stat_idx f staged when_ pack_bytes =>
    dsimp only [move] at h
    split at h
    · cases h
      cases when_ <;> simp [Pc.rank, Pc.rank.early]
    · cases h
      cases when_ <;> simp [not_found, Pc.rank, Pc.rank.early]
  | release f populated =>
    dsimp only [move] at h
    cases h
    cases populated <;> simp [released, Pc.rank, Pc.rank.again]
  | remove_flight f result =>
    dsimp only [move] at h
    cases h
    dsimp only
    split <;> simp [Pc.rank]
  | leave f result | exists_final f staged =>
    dsimp only [move] at h
    cases h
    dsimp only [World.set_flight]
    split <;> simp [Pc.rank]
  | _ =>
    dsimp only [move] at h
    repeat' split at h
    all_goals first
      | (cases h; simp [World.set_flight, World.remove_dir, Pc.rank, Pc.rank.early])
      | cases h

theorem sum_map_set {α : Type} {l : List α} {i : Nat} {a x : α} (f : α → Nat) (h : l[i]? = some a) :
    ((l.set i x).map f).sum + f a = (l.map f).sum + f x := by
  induction l generalizing i with
  | nil => cases h
  | cons b l ih =>
    cases i with
    | zero =>
      cases h
      rw [List.set_cons_zero, List.map_cons, List.map_cons, List.sum_cons, List.sum_cons]
      omega
    | succ i =>
      have hrest := ih h
      rw [List.set_cons_succ, List.map_cons, List.map_cons, List.sum_cons, List.sum_cons]
      omega

theorem move_work (hi : w.calls[i]? = some c) (h : move env w c idx = some (w', c')) :
    World.work { w' with calls := w.calls.set i c' } < w.work := by
  have hrank := move_rank h
  have hset := sum_map_set (x := c') (fun c : Call => c.pc.rank) hi
  dsimp only [World.work]
  omega

/-- A call moves on unless it waits for a lock or a permit. -/
theorem moves_or_waits (env : Env) (w : World) (hc : ∀ result, c.pc ≠ .returned result) :
    (∃ idx r, move env w c idx = some r) ∨ (∃ f, c.pc = .wait f ∧ (w.flight f).locked = true) ∨
      ∃ f, c.pc = .acquire f ∧ w.permits = 0 := by
  obtain ⟨idx, hindex⟩ := env.indexed c.digest
  obtain ⟨task, digest, destination, pc⟩ := c
  cases pc with
  | wait f =>
    by_cases hlocked : (w.flight f).locked = true
    · exact .inr (.inl ⟨f, rfl, hlocked⟩)
    · exact .inl ⟨idx, _, if_neg hlocked⟩
  | acquire f =>
    by_cases hpermits : w.permits = 0
    · exact .inr (.inr ⟨f, rfl, hpermits⟩)
    · exact .inl ⟨idx, _, if_neg hpermits⟩
  | stage f =>
    refine .inl ⟨idx, ?_⟩
    unfold move
    dsimp only at hindex ⊢
    rw [hindex, Bool.not_true, if_neg Bool.false_ne_true]
    split <;> exact ⟨_, rfl⟩
  | returned result => exact absurd rfl (hc result)
  | _ =>
    refine .inl ⟨idx, ?_⟩
    unfold move
    dsimp only
    repeat' split
    all_goals exact ⟨_, rfl⟩

/-- While there are calls that have not returned, one of them moves on. -/
theorem progress (h : Locks env w) (hc : c ∈ w.calls) (hreturned : ∀ result, c.pc ≠ .returned result) :
    ∃ i idx t, step env w (.move i idx) = some t := by
  have hstep : ∀ a ∈ w.calls, (∃ idx r, move env w a idx = some r) → ∃ i idx t, step env w (.move i idx) = some t := by
    rintro a ha ⟨idx, ⟨v, a'⟩, hmove⟩
    obtain ⟨i, hi⟩ := List.mem_iff_getElem?.1 ha
    refine ⟨i, idx, { v with calls := w.calls.set i a' }, ?_⟩
    simp only [PackCache.step, hi, hmove, Option.bind_eq_bind, Option.bind_some]
  -- who holds a permit moves on
  have hpermit : w.permits = 0 → ∃ i idx t, step env w (.move i idx) = some t := by
    intro hzero
    have hpos : 0 < w.count Pc.permitted := by
      have := h.permits
      have := env.concurrent
      omega
    obtain ⟨a, ha, hpermitted⟩ := List.countP_pos_iff.1 hpos
    refine hstep a ha ?_
    rcases moves_or_waits env w (c := a) (fun result hpc => by rw [hpc] at hpermitted; cases hpermitted) with
      hmove | ⟨f, hpc, -⟩ | ⟨f, hpc, -⟩
    · exact hmove
    · rw [hpc] at hpermitted
      cases hpermitted
    · rw [hpc] at hpermitted
      cases hpermitted
  rcases moves_or_waits env w hreturned with hmove | ⟨f, -, hlocked⟩ | ⟨f, -, hzero⟩
  · exact hstep c hc hmove
  · -- who holds the lock of the flight moves on, or waits for a permit
    have hpos : 0 < w.count (fun pc => pc.critical = some f) := by
      rw [h.single, if_pos hlocked]
      exact Nat.one_pos
    obtain ⟨a, ha, hcritical⟩ := List.countP_pos_iff.1 hpos
    have hcritical : a.pc.critical = some f := of_decide_eq_true hcritical
    rcases moves_or_waits env w (c := a) (fun result hpc => by rw [hpc] at hcritical; cases hcritical) with
      hmove | ⟨g, hpc, -⟩ | ⟨g, -, hzero⟩
    · exact hstep a ha hmove
    · rw [hpc] at hcritical
      cases hcritical
    · exact hpermit hzero
  · exact hpermit hzero

end

/-! ## Runs -/

/-- A step that is quiet. -/
def QuietStep (env : Env) (w : World) (l : Label) (t : World) : Prop :=
  Step env w l t ∧ ∀ i idx, l = .move i idx → ∀ c ∈ w.calls[i]?, Quiet w c

section
variable {env : Env} {w t : World} {l : Label} {labels : List Label}

theorem Whole.step (h : Whole env w ∧ Locks env w) (hstep : QuietStep env w l t) : Whole env t ∧ Locks env t := by
  obtain ⟨hstep, hquiet⟩ := hstep
  refine ⟨?_, h.2.step hstep⟩
  rcases step_cases hstep with ⟨task, digest, destination, rfl, rfl⟩ | ⟨i, idx, c, v, c', rfl, hc, hmove, rfl⟩
  · exact h.1.call task digest destination
  · exact h.1.move h.2 hc (hquiet i idx rfl c hc) hmove

theorem whole_of_run (hrun : Run (QuietStep env) (World.new env) labels w) : Whole env w ∧ Locks env w :=
  hrun.inv (fun _ _ _ _ h hstep => Whole.step h hstep) ⟨whole_new env, locks_new env⟩

/-- With no further calls, those there are can all return. -/
def Settles (env : Env) (w : World) : Prop :=
  ∃ moves t, Run (Step env) w moves t ∧ (∀ l ∈ moves, ∃ i idx, l = .move i idx) ∧ ∀ c ∈ t.calls, ∃ result, c.pc = .returned result

theorem Locks.settles (h : Locks env w) : Settles env w := by
  induction hn : w.work using Nat.strongRecOn generalizing w with
  | _ n ih =>
    by_cases hall : ∀ c ∈ w.calls, ∃ result, c.pc = .returned result
    · exact ⟨[], w, .nil, fun l hl => absurd hl List.not_mem_nil, hall⟩
    · push Not at hall
      obtain ⟨c, hc, hreturned⟩ := hall
      obtain ⟨i, idx, v, hstep⟩ := progress h hc hreturned
      have hless : v.work < w.work := by
        rcases step_cases hstep with ⟨task, digest, destination, hl, -⟩ | ⟨i, idx, c, v, c', -, hc, hmove, rfl⟩
        · cases hl
        · exact move_work hc hmove
      obtain ⟨moves, t, hrun, hmoves, hdone⟩ := ih v.work (hn ▸ hless) (h.step hstep) rfl
      exact ⟨_, t, .cons hstep hrun, List.forall_mem_cons.2 ⟨⟨i, idx, rfl⟩, hmoves⟩, hdone⟩

end

/-! ## A pack that is evicted and asked for again -/

/-- Packs of six bytes with an index of two, in a cache for one of them. -/
def tight : Env where
  max_bytes := 8
  max_concurrent_populations := 2
  pack _ := ⟨#[80, 65, 67, 75, 0, 2]⟩
  is_idx _ idx := idx.size = 2
  concurrent := by decide
  indexed _ := ⟨⟨#[0, 0]⟩, by decide⟩

def digest_of (c : Char) : String := String.ofList (List.replicate 64 c)

/-- As many steps of one call. -/
def moves (i n : Nat) : List Label := List.replicate n (.move i ⟨#[0, 0]⟩)

/-- A call alone. -/
def alone : List Label := .call .materialize (digest_of 'a') ⟨none, none⟩ :: moves 0 22

def quiet_step (env : Env) (w : World) (l : Label) : Option World :=
  match l with
  | .call .. => step env w l
  | .move i _ => if ∀ c ∈ w.calls[i]?, Quiet w c then step env w l else none

theorem quietStep_of_quiet_step {env : Env} {w t : World} {l : Label} (h : quiet_step env w l = some t) : QuietStep env w l t := by
  unfold quiet_step at h
  split at h
  · exact ⟨h, fun i idx hl => nomatch hl⟩
  · next i idx =>
    split at h
    · next hquiet =>
      refine ⟨h, fun j idx' hl => ?_⟩
      cases hl
      exact hquiet
    · cases h

/-- The second call evicts the pack of the first and has still to remove its directory when a third adopts it. -/
def race : List Label :=
  alone ++ .call .materialize (digest_of 'b') ⟨none, none⟩ :: moves 1 21 ++
    .call .materialize (digest_of 'a') ⟨none, none⟩ :: moves 2 9 ++ moves 1 1 ++ moves 2 13

/-- Whether the call asked for a pack and came back without it. -/
def Call.broken (c : Call) : Bool :=
  c.task = .materialize && is_digest c.digest && match c.pc with
    | .returned (.error _) => true
    | _ => false

end Ambush.PackCache

import Ambush.Tunnel.Directory
import Mathlib.Data.List.Nodup
import Mathlib.Data.List.Induction
/-!
# Session ownership is fenced

Calls of any runtimes on one session, and its lease key expiring at any moment, in any
order. The texts in Redis are read back as what was written, so the two keys stand for a
`Tenure`: the leases granted so far, and whether the last of them is still held.
-/
open Lib

namespace Ambush.Tunnel
open Relay (CommunityId)

/-! ## Texts -/

/-- Up to here `tostring` writes a number out. -/
def LUA_EXACT : Nat := 100000000000000

/-- `%.14g`: a number of at most 14 digits is written out. -/
def Writes (tostring : Nat → String) : Prop := ∀ n < LUA_EXACT, tostring n = toString n

theorem bar_notMem_hex (bytes : List UInt8) : '|' ∉ hex bytes := by
  intro h
  obtain ⟨d, hd, hc⟩ := digit_of_mem_hex h
  have : ∀ d < 16, '|' ≠ Nat.digitChar d := by decide
  exact this d hd hc

theorem bar_notMem_wire (p : Profile) : '|' ∉ p.as_wire_str.toList := by cases p <;> decide

theorem wire_ne_nil (p : Profile) : p.as_wire_str.toList ≠ [] := by cases p <;> decide

theorem profile_from_wire_wire (p : Profile) : profile_from_wire p.as_wire_str = some p := by cases p <;> rfl

theorem hex_ne_nil (r : RuntimeId) : hex r.bytes ≠ [] := by
  intro h
  have hlen := length_hex r.bytes
  rw [h, r.size] at hlen
  cases hlen

/-- What Redis holds for a lease. -/
def SessionLease.value (l : SessionLease) : String :=
  lease_value toString l.owner_runtime_id.to_hex l.generation l.profile.as_wire_str

theorem splitOn_value (l : SessionLease) :
    l.value.toList.splitOn '|' = [hex l.owner_runtime_id.bytes, (toString l.generation).toList, l.profile.as_wire_str.toList] := by
  have htext : l.value.toList =
      hex l.owner_runtime_id.bytes ++ '|' :: ((toString l.generation).toList ++ '|' :: l.profile.as_wire_str.toList) := by
    simp [SessionLease.value, lease_value, RuntimeId.to_hex]
  rw [htext, List.splitOn_append_cons_self_of_not_mem (bar_notMem_hex _),
    List.splitOn_append_cons_self_of_not_mem (notMem_toString (by decide) _),
    List.splitOn_eq_singleton (bar_notMem_wire _)]

theorem lua_match_value (l : SessionLease) :
    lua_match l.value = some (l.owner_runtime_id.to_hex, toString l.generation, l.profile.as_wire_str) := by
  have hnonempty : ¬ (hex l.owner_runtime_id.bytes = [] ∨ (toString l.generation).toList = [] ∨ l.profile.as_wire_str.toList = []) := by
    rintro (h | h | h)
    · exact hex_ne_nil _ h
    · exact toString_ne_nil _ h
    · exact wire_ne_nil _ h
  rw [lua_match, splitOn_value]
  dsimp only
  rw [if_neg hnonempty, String.ofList_toList, String.ofList_toList]
  rfl

/-- A lease reads back as it was written. -/
theorem parse_lease_value (l : SessionLease) (hpos : 0 < l.generation) (hmax : l.generation ≤ u64Max) :
    parse_lease l.community_id l.session_id l.value = .ok l := by
  rw [parse_lease, splitOn_value]
  dsimp only
  rw [parse_u64_toString hmax]
  dsimp only
  rw [if_neg (Nat.ne_of_gt hpos), String.ofList_toList, profile_from_wire_wire, unhex_hex]
  dsimp only
  rw [dif_pos l.owner_runtime_id.size]

theorem value_ne_empty (l : SessionLease) : l.value ≠ "" := by
  intro h
  have hlen := congrArg List.length (splitOn_value l)
  rw [h] at hlen
  exact absurd hlen (by simp)

theorem toString_ne_empty (n : Nat) : toString n ≠ "" := by
  intro h
  exact toString_ne_nil n (by rw [h]; rfl)

/-! ## Events -/

inductive Event where
  | acquire (owner_runtime_id : RuntimeId) (profile : Profile) (lease_ttl : Nat) (course : Course)
  | takeover (owner_runtime_id : RuntimeId) (profile : Profile) (lease_ttl : Nat) (course : Course)
  | renew (lease : SessionLease) (lease_ttl : Nat) (course : Course)
  | release (lease : SessionLease) (course : Course)
  | validate_fenced_header (fenced : FencedHeader)
  /-- The lease key is gone. -/
  | expire

section
variable (community_id : CommunityId) (session_id : Uuid) (tostring : Nat → String)

def step (k : Keys) : Event → Keys
  | .acquire owner_runtime_id profile lease_ttl course =>
    (acquire community_id session_id tostring k owner_runtime_id profile lease_ttl course).1
  | .takeover owner_runtime_id profile lease_ttl course =>
    (takeover community_id session_id tostring k owner_runtime_id profile lease_ttl course).1
  | .renew lease lease_ttl course => (renew community_id session_id k lease lease_ttl course).1
  | .release lease course => (release community_id session_id k lease course).1
  | .validate_fenced_header _ => k
  | .expire => { k with lease := none }

def after (events : List Event) : Keys := events.foldl (step community_id session_id tostring) .empty

/-- Whether the script of a call runs. -/
def Course.runs : Course → Bool
  | .refused _ => false
  | .ran | .failed _ => true

/-- The lease that an event acquires: the script says so, whether or not the call that ran it
lives to return it. -/
def acquires (k : Keys) : Event → Option SessionLease
  | .acquire owner_runtime_id profile lease_ttl course | .takeover owner_runtime_id profile lease_ttl course =>
    if course.runs then
      match (acquire community_id session_id tostring k owner_runtime_id profile lease_ttl .ran).2 with
      | .ok (.Acquired lease) => some lease
      | _ => none
    else none
  | _ => none

/-- The event is the end of the lease that is held: its key expires, or the script of a
`release` says `released`. -/
def ends (k : Keys) : Event → Bool
  | .expire => true
  | .release lease course =>
    course.runs && (match (release community_id session_id k lease .ran).2 with | .ok (.Released _) => true | _ => false)
  | _ => false

/-- The leases acquired from these keys on, oldest first. -/
def acquired_from (k : Keys) : List Event → List SessionLease
  | [] => []
  | e :: events => (acquires community_id session_id tostring k e).toList ++ acquired_from (step community_id session_id tostring k e) events

def acquired (events : List Event) : List SessionLease := acquired_from community_id session_id tostring .empty events

/-- The lease was acquired by one of the events, and since then no lease was acquired, expired
or released. -/
def InForce (events : List Event) (lease : SessionLease) : Prop :=
  ∃ before e rest, events = before ++ e :: rest ∧
    acquires community_id session_id tostring (after community_id session_id tostring before) e = some lease ∧
    ∀ mid e' rest', rest = mid ++ e' :: rest' →
      acquires community_id session_id tostring (after community_id session_id tostring (before ++ e :: mid)) e' = none ∧
      ends community_id session_id (after community_id session_id tostring (before ++ e :: mid)) e' = false

/-- A frame passes. -/
def Passes (k : Keys) (fenced : FencedHeader) : Prop := validate_fenced_header community_id session_id k fenced = .ok ()

end

/-! ## What the keys stand for -/

/-- The leases granted so far, oldest first, and whether the last of them is held. -/
structure Tenure where
  granted : List SessionLease
  live : Bool

def Tenure.held (t : Tenure) : Option SessionLease := if t.live then t.granted.getLast? else none

section
variable {community_id : CommunityId} {session_id : Uuid} {tostring : Nat → String}

structure Stands (community_id : CommunityId) (session_id : Uuid) (k : Keys) (t : Tenure) : Prop where
  count : k.generation = if t.granted = [] then none else some t.granted.length
  lease : k.lease = t.held.map SessionLease.value
  numbered : ∀ i l, t.granted[i]? = some l → l.generation = i + 1 ∧ l.community_id = community_id ∧ l.session_id = session_id
  nonempty : t.live = true → t.granted ≠ []

namespace Stands
variable {k : Keys} {t : Tenure}

theorem empty : Stands community_id session_id .empty ⟨[], false⟩ :=
  ⟨rfl, rfl, fun i l h => by simp at h, fun h => by cases h⟩

theorem count_eq (h : Stands community_id session_id k t) : k.count = t.granted.length := by
  rw [Keys.count, h.count]
  split
  next hnil => rw [hnil]; rfl
  next => rfl

theorem held_spec (h : Stands community_id session_id k t) {l : SessionLease} (hl : t.held = some l) :
    l.generation = t.granted.length ∧ l.community_id = community_id ∧ l.session_id = session_id := by
  unfold Tenure.held at hl
  split at hl
  · rw [List.getLast?_eq_getElem?] at hl
    obtain ⟨hgen, hids⟩ := h.numbered _ l hl
    have hpos := List.length_pos_iff.2 (h.nonempty ‹_›)
    exact ⟨by omega, hids⟩
  · cases hl

theorem held_isSome (h : Stands community_id session_id k t) : t.held.isSome = t.live := by
  unfold Tenure.held
  cases hlive : t.live with
  | false => rfl
  | true =>
    have hne := h.nonempty hlive
    rw [if_pos rfl, List.getLast?_eq_some_getLast hne]
    rfl

/-- The keys without the lease. -/
theorem drop (h : Stands community_id session_id k t) : Stands community_id session_id { k with lease := none } ⟨t.granted, false⟩ :=
  ⟨h.count, rfl, h.numbered, fun hlive => by cases hlive⟩

/-- The keys with the next lease. -/
theorem grant (h : Stands community_id session_id k t) (owner_runtime_id : RuntimeId) (profile : Profile) :
    Stands community_id session_id
      ⟨some (SessionLease.value ⟨community_id, session_id, owner_runtime_id, k.count + 1, profile⟩), some (k.count + 1)⟩
      ⟨t.granted ++ [⟨community_id, session_id, owner_runtime_id, k.count + 1, profile⟩], true⟩ where
  count := by simp [h.count_eq]
  lease := by simp [Tenure.held]
  numbered i l hl := by
    rw [List.getElem?_append] at hl
    split at hl
    · exact h.numbered i l hl
    · rename_i hi
      obtain ⟨hi0, hl⟩ := List.getElem?_eq_some_iff.1 hl
      rw [List.length_singleton] at hi0
      obtain rfl : i = t.granted.length := by omega
      simp only [Nat.sub_self, List.getElem_singleton] at hl
      subst hl
      exact ⟨by rw [h.count_eq], rfl, rfl⟩
  nonempty _ := by simp

theorem parse_held (h : Stands community_id session_id k t) (hb : k.count < LUA_EXACT) {l : SessionLease} (hl : t.held = some l) :
    parse_lease community_id session_id l.value = .ok l := by
  obtain ⟨hgen, rfl, rfl⟩ := h.held_spec hl
  have hlive : t.live = true := by rw [← h.held_isSome, hl]; rfl
  have hpos := List.length_pos_iff.2 (h.nonempty hlive)
  rw [h.count_eq] at hb
  exact parse_lease_value l (by omega) (by rw [hgen]; exact Nat.le_of_lt (Nat.lt_trans hb (by decide)))

/-! ### Scripts -/

theorem acquire_script_held (h : Stands community_id session_id k t) {l : SessionLease} (hl : t.held = some l) (owner profile : String) :
    acquire_script tostring k owner profile = (k, ⟨"exists", l.value, k.known ""⟩) := by
  rw [acquire_script, h.lease, hl]
  rfl

theorem acquire_script_free (h : Stands community_id session_id k t) (hl : t.held = none) (owner profile : String) :
    acquire_script tostring k owner profile =
      (⟨some (lease_value tostring owner (k.count + 1) profile), some (k.count + 1)⟩,
        ⟨"acquired", lease_value tostring owner (k.count + 1) profile, tostring (k.count + 1)⟩) := by
  rw [acquire_script, h.lease, hl]
  rfl

theorem lease_value_eq (hw : Writes tostring) (hb : k.count + 1 < LUA_EXACT) (owner_runtime_id : RuntimeId) (profile : Profile) :
    lease_value tostring owner_runtime_id.to_hex (k.count + 1) profile.as_wire_str =
      SessionLease.value ⟨community_id, session_id, owner_runtime_id, k.count + 1, profile⟩ := by
  rw [lease_value, hw _ hb]
  rfl

end Stands

theorem renew_script_keys (k : Keys) (owner generation : String) : (renew_script k owner generation).1 = k := by
  unfold renew_script
  split
  · rfl
  · split
    · split <;> rfl
    · rfl

theorem renew_keys (k : Keys) (lease : SessionLease) (lease_ttl : Nat) (course : Course) :
    (renew community_id session_id k lease lease_ttl course).1 = k := by
  unfold renew call
  split
  · rfl
  · rfl
  · exact renew_script_keys _ _ _
  · exact renew_script_keys _ _ _

theorem not_acquired_of_exists {value known : String} (lease : SessionLease) :
    acquire_result community_id session_id ⟨"exists", value, known⟩ ≠ .ok (.Acquired lease) := by
  intro h
  obtain ⟨l, -, h⟩ := (ok_bind_iff _ _ _).1 h
  simp at h

theorem not_released {status value known : String} (hstatus : status ≠ "released") (l : SessionLease) :
    release_result community_id session_id ⟨status, value, known⟩ ≠ .ok (.Released l) := by
  intro h
  obtain ⟨current, -, h⟩ := (ok_bind_iff _ _ _).1 h
  dsimp only at h
  split at h
  · exact hstatus rfl
  · obtain ⟨known_generation, -, h⟩ := (ok_bind_iff _ _ _).1 h
    cases h
  · obtain ⟨known_generation, -, h⟩ := (ok_bind_iff _ _ _).1 h
    cases h
  · cases h

theorem released_result {l : SessionLease} {known : String} (hparse : parse_lease community_id session_id l.value = .ok l) :
    release_result community_id session_id ⟨"released", l.value, known⟩ = .ok (.Released l) := by
  unfold release_result parse_optional_lease
  rw [if_neg (value_ne_empty l), hparse]
  rfl

/-! ### Calls -/

variable {k : Keys} {t : Tenure}

/-- An `acquire` grants the next lease, or leaves the keys alone. -/
theorem acquire_cases (hw : Writes tostring) (h : Stands community_id session_id k t) (owner_runtime_id : RuntimeId) (profile : Profile)
    (lease_ttl : Nat) (course : Course)
    (hb : (acquire community_id session_id tostring k owner_runtime_id profile lease_ttl course).1.count < LUA_EXACT) :
    (∃ lease, course.runs = true ∧
      (acquire community_id session_id tostring k owner_runtime_id profile lease_ttl .ran).2 = .ok (.Acquired lease) ∧
      Stands community_id session_id (acquire community_id session_id tostring k owner_runtime_id profile lease_ttl course).1
        ⟨t.granted ++ [lease], true⟩) ∨
    ((acquire community_id session_id tostring k owner_runtime_id profile lease_ttl course).1 = k ∧
      (course.runs = true → ∀ lease,
        (acquire community_id session_id tostring k owner_runtime_id profile lease_ttl .ran).2 ≠ .ok (.Acquired lease))) := by
  unfold acquire at hb ⊢
  cases httl : ttl_ms lease_ttl with
  | error e =>
    right
    refine ⟨by cases course <;> rfl, ?_⟩
    rintro - lease hok
    cases hok
  | ok ttl =>
    rw [httl] at hb
    cases hheld : t.held with
    | some l =>
      right
      rw [h.acquire_script_held hheld]
      exact ⟨by cases course <;> rfl, fun _ => not_acquired_of_exists⟩
    | none =>
      rw [h.acquire_script_free hheld] at hb ⊢
      have hgrant : k.count + 1 < LUA_EXACT → ∃ lease,
          acquire_result community_id session_id ⟨"acquired", lease_value tostring owner_runtime_id.to_hex (k.count + 1) profile.as_wire_str,
            tostring (k.count + 1)⟩ = .ok (.Acquired lease) ∧
          Stands community_id session_id
            ⟨some (lease_value tostring owner_runtime_id.to_hex (k.count + 1) profile.as_wire_str), some (k.count + 1)⟩
            ⟨t.granted ++ [lease], true⟩ := by
        intro hlt
        have hu64 : k.count + 1 ≤ u64Max := Nat.le_of_lt (Nat.lt_trans hlt (by decide))
        have hvalue : lease_value tostring owner_runtime_id.to_hex (k.count + 1) profile.as_wire_str =
            SessionLease.value ⟨community_id, session_id, owner_runtime_id, k.count + 1, profile⟩ :=
          Stands.lease_value_eq hw hlt owner_runtime_id profile
        rw [hvalue]
        refine ⟨_, ?_, h.grant owner_runtime_id profile⟩
        unfold acquire_result
        rw [parse_lease_value ⟨community_id, session_id, owner_runtime_id, k.count + 1, profile⟩ (Nat.succ_pos _) hu64]
        rfl
      cases course with
      | refused e =>
        right
        exact ⟨rfl, fun hruns => by cases hruns⟩
      | ran | failed e =>
        left
        obtain ⟨lease, hres, hstands⟩ := hgrant hb
        exact ⟨lease, rfl, hres, hstands⟩

/-- A `release` ends the lease that is held, or leaves the keys alone. -/
theorem release_cases (h : Stands community_id session_id k t) (hb : k.count < LUA_EXACT) (lease : SessionLease) (course : Course) :
    ((release community_id session_id k lease course).1 = { k with lease := none } ∧ course.runs = true ∧
      ∃ l, (release community_id session_id k lease .ran).2 = .ok (.Released l)) ∨
    ((release community_id session_id k lease course).1 = k ∧
      (course.runs = true → ∀ l, (release community_id session_id k lease .ran).2 ≠ .ok (.Released l))) := by
  unfold release
  cases hheld : t.held with
  | none =>
    right
    have hscript : release_script k lease.owner_runtime_id.to_hex (toString lease.generation) = (k, ⟨"missing", "", k.known ""⟩) := by
      rw [release_script, h.lease, hheld]
      rfl
    rw [hscript]
    exact ⟨by cases course <;> rfl, fun _ => not_released (by decide)⟩
  | some l =>
    have hlease : k.lease = some l.value := by rw [h.lease, hheld]; rfl
    by_cases hsame : l.owner_runtime_id.to_hex = lease.owner_runtime_id.to_hex ∧ toString l.generation = toString lease.generation
    · have hscript : release_script k lease.owner_runtime_id.to_hex (toString lease.generation) =
          ({ k with lease := none }, ⟨"released", l.value, k.known (toString l.generation)⟩) := by
        rw [release_script, hlease]
        simp only [lua_match_value, if_pos hsame]
      rw [hscript]
      cases course with
      | refused e =>
        right
        exact ⟨rfl, fun hruns => by cases hruns⟩
      | ran | failed e =>
        left
        exact ⟨rfl, rfl, l, released_result (h.parse_held hb hheld)⟩
    · right
      have hscript : release_script k lease.owner_runtime_id.to_hex (toString lease.generation) =
          (k, ⟨"lost", l.value, k.known (toString l.generation)⟩) := by
        rw [release_script, hlease]
        simp only [lua_match_value, if_neg hsame]
      rw [hscript]
      exact ⟨by cases course <;> rfl, fun _ => not_released (by decide)⟩

/-! ### Events -/

/-- An event grants a lease, ends the one that is held, or leaves the keys alone. -/
theorem event_cases (hw : Writes tostring) (h : Stands community_id session_id k t) (e : Event)
    (hk : k.count < LUA_EXACT) (hb : (step community_id session_id tostring k e).count < LUA_EXACT) :
    (∃ lease, acquires community_id session_id tostring k e = some lease ∧
      Stands community_id session_id (step community_id session_id tostring k e) ⟨t.granted ++ [lease], true⟩) ∨
    (acquires community_id session_id tostring k e = none ∧ ends community_id session_id k e = true ∧
      step community_id session_id tostring k e = { k with lease := none }) ∨
    (acquires community_id session_id tostring k e = none ∧ ends community_id session_id k e = false ∧
      step community_id session_id tostring k e = k) := by
  cases e with
  | acquire owner_runtime_id profile lease_ttl course | takeover owner_runtime_id profile lease_ttl course =>
    rcases acquire_cases hw h owner_runtime_id profile lease_ttl course hb with ⟨lease, hruns, hres, hstands⟩ | ⟨hkeys, hnone⟩
    · left
      refine ⟨lease, ?_, hstands⟩
      simp only [acquires, hruns, hres, ↓reduceIte]
    · refine .inr (.inr ⟨?_, rfl, hkeys⟩)
      simp only [acquires]
      split
      next hruns =>
        split
        next lease hres => exact absurd hres (hnone hruns lease)
        next => rfl
      next => rfl
  | renew lease lease_ttl course => exact .inr (.inr ⟨rfl, rfl, renew_keys k lease lease_ttl course⟩)
  | release lease course =>
    rcases release_cases h hk lease course with ⟨hkeys, hruns, l, hres⟩ | ⟨hkeys, hnone⟩
    · exact .inr (.inl ⟨rfl, by simp only [ends, hruns, hres, Bool.and_self], hkeys⟩)
    · refine .inr (.inr ⟨rfl, ?_, hkeys⟩)
      simp only [ends, Bool.and_eq_false_iff]
      by_cases hruns : course.runs = true
      · right
        split
        next l hres => exact absurd hres (hnone hruns l)
        next => rfl
      · left
        exact Bool.not_eq_true _ ▸ hruns
  | validate_fenced_header fenced => exact .inr (.inr ⟨rfl, rfl, rfl⟩)
  | expire => exact .inr (.inl ⟨rfl, rfl, rfl⟩)

theorem count_le_call {α : Type} {k : Keys} {course : Course} {checked : Except DirectoryError Nat} {script : Keys × Reply}
    {result : Reply → Except DirectoryError α} (h : k.count ≤ script.1.count) : k.count ≤ (call k course checked script result).1.count := by
  unfold call
  split
  · exact Nat.le_refl _
  · exact Nat.le_refl _
  · exact h
  · exact h

theorem count_le_acquire_script (k : Keys) (owner profile : String) : k.count ≤ (acquire_script tostring k owner profile).1.count := by
  unfold acquire_script
  split
  · exact Nat.le_refl _
  · exact Nat.le_succ _

theorem count_release_script (k : Keys) (owner generation : String) : (release_script k owner generation).1.count = k.count := by
  unfold release_script
  split
  · rfl
  · split
    · split <;> rfl
    · rfl

/-- The counter only goes up. -/
theorem count_le_step (k : Keys) (e : Event) : k.count ≤ (step community_id session_id tostring k e).count := by
  cases e with
  | acquire owner_runtime_id profile lease_ttl course => exact count_le_call (count_le_acquire_script _ _ _)
  | takeover owner_runtime_id profile lease_ttl course => exact count_le_call (count_le_acquire_script _ _ _)
  | renew lease lease_ttl course => exact Nat.le_of_eq (congrArg Keys.count (renew_keys k lease lease_ttl course)).symm
  | release lease course => exact count_le_call (Nat.le_of_eq (count_release_script _ _ _).symm)
  | validate_fenced_header fenced => exact Nat.le_refl _
  | expire => exact Nat.le_refl _

theorem after_concat (events : List Event) (e : Event) :
    after community_id session_id tostring (events ++ [e]) = step community_id session_id tostring (after community_id session_id tostring events) e := by
  simp [after]

theorem acquired_from_concat (k : Keys) (events : List Event) (e : Event) :
    acquired_from community_id session_id tostring k (events ++ [e]) =
      acquired_from community_id session_id tostring k events ++
        (acquires community_id session_id tostring (events.foldl (step community_id session_id tostring) k) e).toList := by
  induction events generalizing k with
  | nil => simp [acquired_from]
  | cons a events ih => simp [acquired_from, ih, List.append_assoc]

theorem acquired_concat (events : List Event) (e : Event) :
    acquired community_id session_id tostring (events ++ [e]) =
      acquired community_id session_id tostring events ++
        (acquires community_id session_id tostring (after community_id session_id tostring events) e).toList :=
  acquired_from_concat _ events e

/-- A lease is in force after one more event if that event acquired it, or if it was in force and
the event neither acquires nor ends one. -/
theorem inForce_concat (events : List Event) (e : Event) (lease : SessionLease) :
    InForce community_id session_id tostring (events ++ [e]) lease ↔
      acquires community_id session_id tostring (after community_id session_id tostring events) e = some lease ∨
      (InForce community_id session_id tostring events lease ∧
        acquires community_id session_id tostring (after community_id session_id tostring events) e = none ∧
        ends community_id session_id (after community_id session_id tostring events) e = false) := by
  constructor
  · rintro ⟨before, e0, rest, heq, hacq, hrest⟩
    rcases List.eq_nil_or_concat rest with rfl | ⟨mid, last, rfl⟩
    · obtain ⟨rfl, h⟩ := List.append_inj' heq rfl
      obtain rfl : e = e0 := by simpa using h
      exact .inl hacq
    · have heq' : events ++ [e] = (before ++ e0 :: mid) ++ [last] := by simpa using heq
      obtain ⟨rfl, h⟩ := List.append_inj' heq' rfl
      obtain rfl : e = last := by simpa using h
      refine .inr ⟨⟨before, e0, mid, rfl, hacq, ?_⟩, hrest mid e [] (by simp)⟩
      intro mid' e' rest' hmid
      exact hrest mid' e' (rest' ++ [e]) (by simp [hmid])
  · rintro (hacq | ⟨⟨before, e0, rest, rfl, hacq, hrest⟩, hnone, hend⟩)
    · refine ⟨events, e, [], rfl, hacq, ?_⟩
      intro mid e' rest' h
      simp at h
    · refine ⟨before, e0, rest ++ [e], by simp, hacq, ?_⟩
      intro mid e' rest' h
      rcases List.eq_nil_or_concat rest' with rfl | ⟨mid', last, rfl⟩
      · obtain ⟨rfl, he⟩ := List.append_inj' h rfl
        obtain rfl : e = e' := by simpa using he
        exact ⟨hnone, hend⟩
      · have h' : rest ++ [e] = (mid ++ e' :: mid') ++ [last] := by simpa using h
        obtain ⟨rfl, -⟩ := List.append_inj' h' rfl
        exact hrest mid e' mid' rfl

/-! ## Runs -/

/-- After any events the keys stand for the leases acquired and the one in force. -/
theorem stands_after (hw : Writes tostring) {events : List Event} (hb : (after community_id session_id tostring events).count < LUA_EXACT) :
    ∃ t, Stands community_id session_id (after community_id session_id tostring events) t ∧
      t.granted = acquired community_id session_id tostring events ∧
      ∀ lease, InForce community_id session_id tostring events lease ↔ t.held = some lease := by
  induction events using List.reverseRecOn with
  | nil =>
    refine ⟨⟨[], false⟩, .empty, rfl, fun lease => ⟨?_, fun h => by cases h⟩⟩
    rintro ⟨before, e, rest, h, -⟩
    simp at h
  | append_singleton events e ih =>
    rw [after_concat] at hb ⊢
    have hk := Nat.lt_of_le_of_lt (count_le_step _ e) hb
    obtain ⟨t, hstands, hgranted, hforce⟩ := ih hk
    rcases event_cases hw hstands e hk hb with ⟨lease, hacq, hstands'⟩ | ⟨hacq, hend, hkeys⟩ | ⟨hacq, hend, hkeys⟩
    · refine ⟨_, hstands', by rw [acquired_concat, hacq, hgranted]; rfl, fun l => ?_⟩
      rw [inForce_concat, hacq]
      simp [Tenure.held]
    · refine ⟨⟨t.granted, false⟩, hkeys ▸ hstands.drop, by rw [acquired_concat, hacq, hgranted]; simp, fun l => ?_⟩
      rw [inForce_concat, hacq, hend]
      simp [Tenure.held]
    · refine ⟨t, by rw [hkeys]; exact hstands, by rw [acquired_concat, hacq, hgranted]; simp, fun l => ?_⟩
      rw [inForce_concat, hacq, hend, hforce]
      simp

theorem parse_known (h : Stands community_id session_id k t) (hb : k.count < LUA_EXACT) :
    parse_optional_generation community_id session_id (k.known "") = .ok k.generation := by
  have hlen := h.count_eq
  unfold Keys.known parse_optional_generation
  rw [h.count]
  split
  · rfl
  next hne =>
    have hpos := List.length_pos_iff.2 hne
    rw [Option.map_some, Option.getD_some, if_neg (toString_ne_empty _), parse_u64_toString]
    · dsimp only
      rw [if_neg (Nat.ne_of_gt hpos)]
    · rw [← hlen]
      exact Nat.le_of_lt (Nat.lt_trans hb (by decide))

theorem parse_current (h : Stands community_id session_id k t) (hb : k.count < LUA_EXACT) :
    parse_optional_lease community_id session_id (k.lease.getD "") = .ok t.held := by
  unfold parse_optional_lease
  rw [h.lease]
  cases hheld : t.held with
  | none => rfl
  | some l =>
    rw [Option.map_some, Option.getD_some, if_neg (value_ne_empty l), h.parse_held hb hheld]
    rfl

/-- The one frame that passes is that of the lease that is held. -/
theorem passes_iff (h : Stands community_id session_id k t) (hb : k.count < LUA_EXACT) (fenced : FencedHeader) :
    Passes community_id session_id k fenced ↔
      ∃ lease, t.held = some lease ∧ fenced.generation = lease.generation ∧ fenced.owner_runtime_id = lease.owner_runtime_id := by
  unfold Passes validate_fenced_header validate_script
  dsimp only
  rw [parse_known h hb, parse_current h hb]
  simp only [Except.mapError, Except.map, bind, Except.bind]
  cases hheld : t.held with
  | none =>
    split
    · simp
    · simp
  | some l =>
    have hcount : k.generation.getD 0 = l.generation := by
      obtain ⟨hgen, -⟩ := h.held_spec hheld
      rw [hgen]
      exact h.count_eq
    simp only [Option.map_some, Option.getD_some, hcount, Nat.max_self, Option.some.injEq, exists_eq_left']
    split
    next hstale => simp [Nat.ne_of_lt hstale.2]
    next =>
      split
      next hgen => simp [hgen]
      next hgen =>
        split
        next howner => simp [howner]
        next howner => exact ⟨fun _ => ⟨not_not.1 hgen, not_not.1 howner⟩, fun _ => rfl⟩

theorem acquired_append (events later : List Event) :
    ∃ more, acquired community_id session_id tostring (events ++ later) = acquired community_id session_id tostring events ++ more := by
  induction later using List.reverseRecOn with
  | nil => exact ⟨[], by simp⟩
  | append_singleton later e ih =>
    obtain ⟨more, hmore⟩ := ih
    rw [← List.append_assoc, acquired_concat, hmore, List.append_assoc]
    exact ⟨_, rfl⟩

theorem pairwise_of_numbered {l : List SessionLease} (h : ∀ i x, l[i]? = some x → x.generation = i + 1) :
    (l.map SessionLease.generation).Pairwise (· < ·) := by
  rw [List.pairwise_map, List.pairwise_iff_getElem]
  intro i j hi hj hij
  rw [h i _ (List.getElem?_eq_getElem hi), h j _ (List.getElem?_eq_getElem hj)]
  omega

theorem generations_increase (hw : Writes tostring) {events : List Event}
    (hb : (after community_id session_id tostring events).count < LUA_EXACT) :
    ((acquired community_id session_id tostring events).map SessionLease.generation).Pairwise (· < ·) := by
  obtain ⟨t, hstands, hgranted, -⟩ := stands_after hw hb
  rw [← hgranted]
  exact pairwise_of_numbered fun i x hx => (hstands.numbered i x hx).1

/-- A lease that is in force later was in force ever since it was acquired. -/
theorem inForce_of_append (hw : Writes tostring) {events later : List Event}
    (hb : (after community_id session_id tostring (events ++ later)).count < LUA_EXACT) {lease : SessionLease}
    (hmem : lease ∈ acquired community_id session_id tostring events)
    (h : InForce community_id session_id tostring (events ++ later) lease) : InForce community_id session_id tostring events lease := by
  induction later using List.reverseRecOn with
  | nil => simpa using h
  | append_singleton later e ih =>
    rw [← List.append_assoc] at hb h
    have hk : (after community_id session_id tostring (events ++ later)).count < LUA_EXACT := by
      rw [after_concat] at hb
      exact Nat.lt_of_le_of_lt (count_le_step _ e) hb
    rcases (inForce_concat _ _ _).1 h with hacq | ⟨hforce, -, -⟩
    · -- acquired anew it would have a generation above its own
      have hinc := generations_increase hw hb
      obtain ⟨more, hmore⟩ := @acquired_append community_id session_id tostring events later
      rw [acquired_concat, hacq, hmore, List.pairwise_map] at hinc
      have hlt := (List.pairwise_append.1 hinc).2.2 lease (List.mem_append_left _ hmem) lease (by simp)
      exact absurd hlt (Nat.lt_irrefl _)
    · exact ih hk hforce

end

/-- The generations of the leases acquired go up. A frame passes exactly if a lease is in force, the
last one acquired and since then neither expired nor released, and the frame has its owner and its
generation; so at most one pair passes. A lease that was acquired and is no longer in force never
passes again. Every lease that a call returns as acquired is one of those acquired. -/
theorem session_is_fenced (community_id : CommunityId) (session_id : Uuid) (tostring : Nat → String) (hw : Writes tostring)
    (events : List Event) (hcount : (after community_id session_id tostring events).count < LUA_EXACT) :
    ((acquired community_id session_id tostring events).map SessionLease.generation).Pairwise (· < ·) ∧
    (∀ fenced, Passes community_id session_id (after community_id session_id tostring events) fenced ↔
      ∃ lease, InForce community_id session_id tostring events lease ∧
        (acquired community_id session_id tostring events).getLast? = some lease ∧
        fenced.owner_runtime_id = lease.owner_runtime_id ∧ fenced.generation = lease.generation) ∧
    (∀ fenced fenced', Passes community_id session_id (after community_id session_id tostring events) fenced →
      Passes community_id session_id (after community_id session_id tostring events) fenced' →
      fenced.owner_runtime_id = fenced'.owner_runtime_id ∧ fenced.generation = fenced'.generation) ∧
    (∀ lease ∈ acquired community_id session_id tostring events, ¬ InForce community_id session_id tostring events lease →
      ∀ later, (after community_id session_id tostring (events ++ later)).count < LUA_EXACT →
        ∀ fenced, fenced.owner_runtime_id = lease.owner_runtime_id → fenced.generation = lease.generation →
          ¬ Passes community_id session_id (after community_id session_id tostring (events ++ later)) fenced) ∧
    (∀ owner_runtime_id profile lease_ttl course lease,
      (acquire community_id session_id tostring (after community_id session_id tostring events) owner_runtime_id profile lease_ttl course).2 =
        .ok (.Acquired lease) →
      acquires community_id session_id tostring (after community_id session_id tostring events)
        (.acquire owner_runtime_id profile lease_ttl course) = some lease) := by
  obtain ⟨t, hstands, hgranted, hforce⟩ := stands_after hw hcount
  have hlast : ∀ lease, t.held = some lease → (acquired community_id session_id tostring events).getLast? = some lease := by
    intro lease hheld
    unfold Tenure.held at hheld
    split at hheld
    · rw [← hgranted]
      exact hheld
    · cases hheld
  refine ⟨generations_increase hw hcount, fun fenced => ?_, fun fenced fenced' h h' => ?_, ?_, ?_⟩
  · rw [passes_iff hstands hcount]
    constructor
    · rintro ⟨lease, hheld, hgen, howner⟩
      exact ⟨lease, (hforce lease).2 hheld, hlast lease hheld, howner, hgen⟩
    · rintro ⟨lease, hin, -, howner, hgen⟩
      exact ⟨lease, (hforce lease).1 hin, hgen, howner⟩
  · obtain ⟨lease, hheld, hgen, howner⟩ := (passes_iff hstands hcount fenced).1 h
    obtain ⟨lease', hheld', hgen', howner'⟩ := (passes_iff hstands hcount fenced').1 h'
    obtain rfl : lease = lease' := Option.some.inj (hheld.symm.trans hheld')
    exact ⟨howner.trans howner'.symm, hgen.trans hgen'.symm⟩
  · intro lease hmem hnot later hb fenced howner hgen hpass
    obtain ⟨t', hstands', hgranted', hforce'⟩ := stands_after hw hb
    obtain ⟨lease', hheld', hgen', -⟩ := (passes_iff hstands' hb fenced).1 hpass
    have hin' := (hforce' lease').2 hheld'
    -- of the leases acquired only one has this generation
    have hsame : lease' = lease := by
      obtain ⟨more, hmore⟩ := @acquired_append community_id session_id tostring events later
      refine List.inj_on_of_nodup_map (generations_increase hw hb).nodup ?_ ?_ (hgen'.symm.trans hgen)
      · rw [← hgranted']
        unfold Tenure.held at hheld'
        split at hheld'
        · exact List.mem_of_getLast? hheld'
        · cases hheld'
      · rw [hmore]
        exact List.mem_append_left _ hmem
    exact hnot (inForce_of_append hw hb hmem (hsame ▸ hin'))
  · intro owner_runtime_id profile lease_ttl course lease hok
    cases course with
    | refused e => cases hok
    | failed e =>
      unfold acquire call at hok
      split at hok <;> simp_all
    | ran => simp only [acquires, Course.runs, hok, ↓reduceIte]

def slow_runtime : RuntimeId := ⟨List.replicate 32 1, rfl⟩

def next_runtime : RuntimeId := ⟨List.replicate 32 2, rfl⟩

/-- A lease expires, another runtime takes over, and the first tries to renew. -/
def takeover_events : List Event :=
  [.acquire slow_runtime .ReliableStream 30000 .ran, .expire, .takeover next_runtime .ReliableStream 30000 .ran,
    .renew ⟨0, 0, slow_runtime, 1, .ReliableStream⟩ 30000 .ran]

theorem session_is_fenced_takeover :
    acquired 0 0 toString takeover_events =
      [⟨0, 0, slow_runtime, 1, .ReliableStream⟩, ⟨0, 0, next_runtime, 2, .ReliableStream⟩] ∧
    ∀ fenced, Passes 0 0 (after 0 0 toString takeover_events) fenced ↔
      ∃ lease, InForce 0 0 toString takeover_events lease ∧
        (acquired 0 0 toString takeover_events).getLast? = some lease ∧
        fenced.owner_runtime_id = lease.owner_runtime_id ∧ fenced.generation = lease.generation :=
  ⟨by decide +kernel, (session_is_fenced 0 0 toString (fun _ _ => rfl) takeover_events (by decide +kernel)).2.1⟩

end Ambush.Tunnel

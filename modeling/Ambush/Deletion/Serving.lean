import Ambush.Deletion.Effects
/-!
# Serving writes and the fence exclude each other

The state of a community says whether it serves, and its generation goes up with every fence
and every abort. A lease carries the generation it was acquired under, so a community that
comes back never honours an old one.
-/
open Lib

namespace Ambush.Deletion
open Relay (CommunityId)
open Lib.Tx (bind_ok pure_ok)

section
variable {env : Env} {now : Time} {s t : Db} {op : Op}

/-! ## One step -/

/-- The call aborts a request for the community. -/
def Db.Aborts (s : Db) (community : CommunityId) (op : Op) : Prop :=
  ∃ r aborted_by reason, s.requests.get r.id = some r ∧ r.community_id = community ∧ op = .abort r.id aborted_by reason

/-- What a call can make of a community. -/
inductive Turn (now : Time) (s : Db) (op : Op) (c : CommunityRow) : CommunityRow → Prop
  | same : Turn now s op c c
  | quiesced : c.deletion_state = .active ∨ c.deletion_state = .quiescing → Turn now s op c (c.quiesced now)
  | fenced : c.deletion_state = .quiescing → Turn now s op c (c.fenced now)
  | tombstone : c.deletion_state = .fenced → Turn now s op c (c.tombstone now)
  | restored {archived_at : Option Time} : s.Aborts c.id op → Turn now s op c (c.restored archived_at)

/-- A row of another community stays, and the one row that is replaced makes its turn. -/
theorem turn_replace {id : CommunityId} {c d d' : CommunityRow} {communities : Table CommunityRow.id} (hc : s.communities.get id = some c)
    (hd : s.communities.get d.id = some d) (hturn : Turn now s op d d') (hid : d'.id = d.id)
    (ht : communities = s.communities.replace d') : ∃ c', communities.get id = some c' ∧ Turn now s op c c' := by
  subst ht
  rw [← hid] at hd
  by_cases hkey : id = d'.id
  · subst hkey
    obtain rfl := Option.some.inj (hc.symm.trans hd)
    exact ⟨d', Table.get_replace_self hd, hturn⟩
  · exact ⟨c, (Table.get_replace_ne hd hkey).trans hc, .same⟩

theorem Effect.turn (h : Effect env now s op t) {id : CommunityId} {c : CommunityRow} (hc : s.communities.get id = some c) :
    ∃ c', t.communities.get id = some c' ∧ Turn now s op c c' := by
  cases h with
  | quiesced hr hkeeps hd hstate =>
    rw [← Table.key_of_get hd] at hd
    exact turn_replace hc hd (.quiesced hstate) rfl rfl
  | fenced hr hactive hd hstate =>
    rw [← Table.key_of_get hd] at hd
    exact turn_replace hc hd (.fenced hstate) rfl rfl
  | purged hr hfences hstate =>
    have hd := hfences.get
    rw [← Table.key_of_get hd] at hd
    exact turn_replace hc hd (.tombstone hstate) rfl rfl
  | @aborted r _ _ _ aborted_by reason hr hstage hactive hd hstate hsame hless hstage' =>
    have hid := Table.key_of_get hd
    rw [← hid] at hd
    exact turn_replace hc hd (.restored ⟨r, aborted_by, reason, hr, hid.symm, rfl⟩) rfl rfl
  | unchanged | bookkept | submitted | inventoried | approved | frozen | chunked | advanced | leased | renewed | released =>
    exact ⟨c, hc, .same⟩

/-- The generation never goes back. -/
theorem Turn.generation_le {c c' : CommunityRow} (h : Turn now s op c c') : c.deletion_fence_generation ≤ c'.deletion_fence_generation := by
  cases h with
  | same | quiesced | tombstone => exact le_rfl
  | fenced => exact (Int.lt_succ c.deletion_fence_generation).le
  | restored => exact (Int.lt_succ c.deletion_fence_generation).le

/-- The community has reached a generation. -/
def Db.Reached (s : Db) (community : CommunityId) (generation : Int) : Prop :=
  ∃ c, s.communities.get community = some c ∧ generation ≤ c.deletion_fence_generation

theorem Effect.reached {community : CommunityId} {generation : Int} (h : Effect env now s op t) (hs : s.Reached community generation) :
    t.Reached community generation := by
  obtain ⟨c, hc, hle⟩ := hs
  obtain ⟨c', hc', hturn⟩ := h.turn hc
  exact ⟨c', hc', hle.trans hturn.generation_le⟩

/-- The community no longer serves. -/
def Db.Closed (s : Db) (community : CommunityId) : Prop :=
  ∃ c, s.communities.get community = some c ∧ (c.deletion_state = .fenced ∨ c.deletion_state = .tombstone)

theorem Effect.closed {community : CommunityId} (h : Effect env now s op t) (hs : s.Closed community)
    (habort : ¬ s.Aborts community op) : t.Closed community := by
  obtain ⟨c, hc, hstate⟩ := hs
  obtain ⟨c', hc', hturn⟩ := h.turn hc
  refine ⟨c', hc', ?_⟩
  cases hturn with
  | same => exact hstate
  | quiesced hserving => rcases hstate with hs | hs <;> rcases hserving with h' | h' <;> rw [hs] at h' <;> cases h'
  | fenced => exact .inl rfl
  | tombstone => exact .inr rfl
  | restored haborts => exact absurd (Table.key_of_get hc ▸ haborts) habort

/-! ## What a fence or an abort leaves -/

theorem get_replace_community {c c' : CommunityRow} {community : CommunityId} (hc : s.communities.get community = some c)
    (hid : c'.id = c.id) : (s.communities.replace c').get community = some c' := by
  obtain rfl := Table.key_of_get hc
  rw [← hid] at hc ⊢
  exact Table.get_replace_self hc

theorem fence_closes {token : LeaseToken} {reply : Reply} (h : (exec env now (.fence token)).run s = .ok (reply, t)) :
    t.Closed token.community_id := by
  simp only [exec, bind_ok, pure_ok] at h
  obtain ⟨_, _, h, -, rfl⟩ := h
  obtain ⟨r, c, hr, -, hc, -, rfl⟩ := fence_ok h
  rw [hr.community] at hc
  exact ⟨c.fenced now, get_replace_community hc rfl, .inl rfl⟩

/-- The call fences or aborts a request for the community. -/
def Db.Turns (s : Db) (community : CommunityId) (op : Op) : Prop :=
  s.Aborts community op ∨ ∃ token, token.community_id = community ∧ op = .fence token

theorem turns_reached {community : CommunityId} {generation : Int} {reply : Reply} (hop : s.Turns community op)
    (h : (exec env now op).run s = .ok (reply, t)) (hs : s.Reached community generation) : t.Reached community (generation + 1) := by
  obtain ⟨c, hc, hle⟩ := hs
  obtain ⟨q, aborted_by, reason, hq, rfl, rfl⟩ | ⟨token, rfl, rfl⟩ := hop
  · simp only [exec, bind_ok, pure_ok] at h
    obtain ⟨_, _, h, -, rfl⟩ := h
    obtain ⟨r, d, archived_at, hid, hr, -, -, hd, -, -, -, -, rfl⟩ := abort_ok h
    rw [hid] at hr
    obtain rfl := Option.some.inj (hq.symm.trans hr)
    obtain rfl := Option.some.inj (hc.symm.trans hd)
    exact ⟨c.restored archived_at, get_replace_community hc rfl, Int.add_le_add_right hle 1⟩
  · simp only [exec, bind_ok, pure_ok] at h
    obtain ⟨_, _, h, -, rfl⟩ := h
    obtain ⟨r, d, hr, -, hd, -, rfl⟩ := fence_ok h
    rw [hr.community] at hd
    obtain rfl := Option.some.inj (hc.symm.trans hd)
    exact ⟨c.fenced now, get_replace_community hc rfl, Int.add_le_add_right hle 1⟩

/-! ## What a serving call needs -/

/-- The community that a call serves: it acquires, renews or verifies a lease of it, or mutates it. -/
def Op.serves : Op → Option CommunityId
  | .guard_transaction community => some community
  | .guard_transaction_with_serving_lease lease => some lease.community_id
  | .acquire_serving_write_lease _ community _ _ _ => some community
  | .renew_serving_write_lease lease _ => some lease.community_id
  | .verify_serving_write_lease lease => some lease.community_id
  | _ => none

theorem serves_ok {community : CommunityId} {reply : Reply} (hop : op.serves = some community)
    (h : (exec env now op).run s = .ok (reply, t)) : ∃ generation c, Serves s community generation c := by
  cases op <;> simp only [Op.serves, reduceCtorEq, Option.some.injEq] at hop
  all_goals
    subst hop
    simp only [exec, bind_ok, pure_ok] at h
    obtain ⟨_, _, h, -, rfl⟩ := h
  case guard_transaction =>
    obtain ⟨-, c, hc⟩ := guard_transaction_ok h
    exact ⟨_, c, hc⟩
  case guard_transaction_with_serving_lease => exact ⟨_, (guard_transaction_with_serving_lease_ok h).2⟩
  case acquire_serving_write_lease =>
    obtain ⟨-, -, -, -, c, _, hc, hactive, -⟩ := acquire_serving_write_lease_ok h
    exact ⟨_, c, hc, .inl hactive, rfl⟩
  case renew_serving_write_lease =>
    obtain ⟨row, -, hvalid, -⟩ := renew_serving_write_lease_ok h
    exact ⟨_, (valid_serving_lease_iff hvalid).2.2.2⟩
  case verify_serving_write_lease => exact ⟨_, (verify_serving_write_lease_ok h).2⟩

theorem not_serves_of_closed {community : CommunityId} {generation : Int} {c : CommunityRow} (hs : s.Closed community) :
    ¬ Serves s community generation c := by
  intro h
  obtain ⟨d, hd, hstate⟩ := hs
  obtain rfl := Option.some.inj (h.get.symm.trans hd)
  rcases hstate with hs | hs <;> rcases h.state with h' | h' <;> rw [hs] at h' <;> cases h'

theorem not_valid_of_closed {lease row : ServingWriteLease} (hs : s.Closed row.community_id) :
    s.valid_serving_lease now lease row = false := by
  by_contra hvalid
  obtain ⟨hcommunity, -, -, c, hc⟩ := valid_serving_lease_iff (Bool.not_eq_false _ ▸ hvalid)
  exact not_serves_of_closed (hcommunity ▸ hs) hc

/-- A lease of an older generation is not current, whatever the state of its community. -/
theorem not_valid_of_reached {lease row : ServingWriteLease} (hs : s.Reached lease.community_id (lease.fence_generation + 1)) :
    s.valid_serving_lease now lease row = false := by
  by_contra hvalid
  obtain ⟨-, -, -, c, hc⟩ := valid_serving_lease_iff (Bool.not_eq_false _ ▸ hvalid)
  obtain ⟨d, hd, hle⟩ := hs
  obtain rfl := Option.some.inj (hc.get.symm.trans hd)
  have := hc.generation
  omega

end

/-! ## Runs -/

section
variable {env : Env}

/-- A step that does not abort a request for the community. -/
def step_without_abort (env : Env) (community : CommunityId) (w : World) (a : Act) (w' : World) : Prop :=
  step env w a w' ∧ ∀ op now, a = .call op now true → ¬ w.db.Aborts community op

/-- A step is a call's effect on the database, or leaves it as it is. -/
theorem step_effect {w w' : World} {a : Act} (h : step env w a w') :
    w'.db = w.db ∨ ∃ op now reply, a = .call op now true ∧ (exec env now op).run w.db = .ok (reply, w'.db) := by
  rcases a with ⟨op, now, _ | _⟩ | ⟨token, stage⟩
  · exact .inl (congrArg World.db h)
  · obtain ⟨reply, db, hexec, rfl⟩ := h
    exact .inr ⟨op, now, reply, rfl, hexec⟩
  · exact .inl (congrArg World.db h.2)

theorem run_reached {community : CommunityId} {generation : Int} {w w' : World} {as : List Act} (h : Run (step env) w as w')
    (hw : w.db.Reached community generation) : w'.db.Reached community generation := by
  refine h.inv (I := fun w => w.db.Reached community generation) ?_ hw
  intro s a t _ hs hstep
  rcases step_effect hstep with hsame | ⟨op, now, reply, -, hexec⟩
  · rw [hsame]
    exact hs
  · exact (exec_effect hexec).reached hs

/-- While no abort intervenes, a closed community stays closed and nothing serves it. -/
theorem run_closed {community : CommunityId} {w w' : World} {as : List Act} (h : Run (step_without_abort env community) w as w')
    (hw : w.db.Closed community) : ∀ a ∈ as, ∀ op now, a = .call op now true → op.serves ≠ some community := by
  refine h.labels (I := fun w => w.db.Closed community) ?_ hw
  intro s a t _ hs hstep
  rcases step_effect hstep.1 with hsame | ⟨op, now, reply, rfl, hexec⟩
  · refine ⟨hsame ▸ hs, ?_⟩
    rintro op now rfl hserves
    obtain ⟨reply, db, hexec, -⟩ := hstep.1
    obtain ⟨generation, c, hc⟩ := serves_ok hserves hexec
    exact not_serves_of_closed hs hc
  · refine ⟨(exec_effect hexec).closed hs (hstep.2 op now rfl), ?_⟩
    rintro op' now' heq hserves
    cases heq
    obtain ⟨generation, c, hc⟩ := serves_ok hserves hexec
    exact not_serves_of_closed hs hc

/-- Whatever the state a community is in: once a fence of it commits none of its leases is current, and until an abort none
is acquired, renewed, verified or used; and a lease from before a fence or an abort is never current after it. -/
theorem serving_excludes_fence (env : Env) (w : World) (community : CommunityId) :
    (∀ token now w₁, token.community_id = community → step env w (.call (.fence token) now true) w₁ →
      (∀ row ∈ w₁.db.leases.rows, row.community_id = community →
        ∀ at_ lease, w₁.db.valid_serving_lease at_ lease row = false) ∧
      ∀ as w₂, Run (step_without_abort env community) w₁ as w₂ →
        ∀ op at_, Act.call op at_ true ∈ as → op.serves ≠ some community) ∧
    (∀ id operation owner duration now lease db,
      (exec env now (.acquire_serving_write_lease id community operation owner duration)).run w.db = .ok (.lease lease, db) →
      ∀ as w₁ op at_ w₂ bs w₃,
        Run (step env) (w.commit (.acquire_serving_write_lease id community operation owner duration) (.lease lease) db) as w₁ →
        w₁.db.Turns community op → step env w₁ (.call op at_ true) w₂ → Run (step env) w₂ bs w₃ →
        ∀ now row, w₃.db.valid_serving_lease now lease row = false) := by
  constructor
  · rintro token now w₁ rfl ⟨reply, db, hexec, rfl⟩
    have hclosed : db.Closed token.community_id := fence_closes hexec
    constructor
    · intro row _ hrow at_ lease
      exact not_valid_of_closed (hrow ▸ hclosed)
    · intro as w₂ hrun op at_ ha
      exact run_closed hrun hclosed _ ha op at_ rfl
  · rintro id operation owner duration now lease db hexec as w₁ op at_ w₂ bs w₃ hrun hturns ⟨reply, db', hturn, rfl⟩ hrest now' row
    simp only [exec, bind_ok, pure_ok, Reply.lease.injEq] at hexec
    obtain ⟨_, _, hacquire, rfl, rfl⟩ := hexec
    obtain ⟨-, rfl, -, -, c, leases, hc, -, hfence, -, rfl⟩ := acquire_serving_write_lease_ok hacquire
    have hreached : w₁.db.Reached lease.community_id lease.fence_generation := run_reached hrun ⟨c, hc, hfence.ge⟩
    have hpast := run_reached hrest (turns_reached hturns hturn hreached)
    exact not_valid_of_reached hpast

/-- A server has a lease of one second, and the executor fences after it has expired: the row is still there. -/
def fencing_calls : List (Op × Time) := (.acquire_serving_write_lease 9 1 "upload" "pod" 1, 0) :: quiescing_calls

theorem serving_excludes_fence_expired : ∃ w w₁, Run (step .plain) deployed (fencing_calls.map (fun c => .call c.1 c.2 true)) w ∧
    step .plain w (.call (.fence first_token) 2000000 true) w₁ ∧ w₁.db.leases.rows ≠ [] ∧
    (∀ row ∈ w₁.db.leases.rows, row.community_id = 1 → ∀ at_ lease, w₁.db.valid_serving_lease at_ lease row = false) := by
  have hsome : ((fencing_calls.foldlM (World.call .plain) deployed).bind (fun w =>
      (w.call .plain (.fence first_token, 2000000)).filter (fun w => w.db.leases.rows ≠ []))).isSome = true := by decide +kernel
  obtain ⟨w₁, h⟩ := Option.isSome_iff_exists.1 hsome
  obtain ⟨w, hw, h⟩ := Option.bind_eq_some_iff.1 h
  obtain ⟨hfence, hrows⟩ := Option.filter_eq_some_iff.1 h
  have hstep := World.step_of_call hfence
  exact ⟨w, w₁, World.run_of_calls hw, hstep, by simpa using hrows,
    ((serving_excludes_fence .plain w 1).1 first_token 2000000 w₁ rfl hstep).1⟩

end

end Ambush.Deletion

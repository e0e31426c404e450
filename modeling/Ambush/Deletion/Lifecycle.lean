import Ambush.Deletion.Serving
/-!
# The lifecycle of a deletion request

`Inv` is what every committed call keeps of the tables: one live request a community, the
community in the state its request's stage asks for, and an approval of the frozen inventory.
`Kept` adds what a run remembers. A request past `Fenced` can no longer be aborted, which is
why a verified token is enough for a step that destroys.
-/
open Lib

namespace Ambush.Deletion
open Relay (CommunityId)
open Lib.Tx (bind_ok pure_ok)

/-! ## The tables -/

/-- The state of the community is the one that the stage of its request asks for. -/
def DeletionRequest.Agrees (r : DeletionRequest) (c : CommunityRow) : Prop :=
  match r.stage with
  | .Submitted | .Inventoried | .Approved => c.deletion_state = .active ∨ c.deletion_state = .quiescing
  | .Fenced | .Drained | .BindingsRemoved =>
    c.deletion_state = .fenced ∧ r.fence_generation = some c.deletion_fence_generation
  | .PostgresPurged | .CachePurged | .LogicallyVerified | .RetentionPending => c.deletion_state = .tombstone
  | .Aborted => True

/-- The digest on the row is the one of the inventory on it. -/
def DeletionRequest.Inventory (env : Env) (r : DeletionRequest) : Prop :=
  ∃ inventory, r.inventory_manifest = some inventory ∧ r.inventory_digest = some (inventory.digest env.sha256)

structure Inv (env : Env) (s : Db) : Prop where
  one : ∀ r ∈ s.requests.rows, ∀ q ∈ s.requests.rows, r.community_id = q.community_id → r.stage ≠ .Aborted → q.stage ≠ .Aborted →
    r.id = q.id
  agree : ∀ r ∈ s.requests.rows, r.stage ≠ .Aborted → ∃ c, s.communities.get r.community_id = some c ∧ r.Agrees c
  inventory : ∀ r ∈ s.requests.rows, r.stage ≠ .Submitted → r.Inventory env
  approved : ∀ r ∈ s.requests.rows, 2 ≤ r.stage.rank → s.approved r = true

section
variable {env : Env} {now : Time} {s t : Db} {op : Op}

/-- What a request's approval depends on. -/
theorem approved_congr {s t : Db} {r r' : DeletionRequest} (hid : r'.id = r.id) (hcommunity : r'.community_id = r.community_id)
    (hdigest : r'.inventory_digest = r.inventory_digest) (ht : t.approvals = s.approvals) (h : s.approved r = true) :
    t.approved r' = true := by
  rw [Db.approved, hid, hcommunity, hdigest, ht]
  exact h

/-- One row is replaced by a row of the same request; only the community of a live request may change with it. -/
theorem Inv.replace {r r' : DeletionRequest} {communities approvals chunks leases} (hi : Inv env s) (hr : s.requests.get r.id = some r)
    (hid : r'.id = r.id) (hcommunity : r'.community_id = r.community_id) (hlive : r'.stage ≠ .Aborted → r.stage ≠ .Aborted)
    (hother : ∀ id, communities.get id = s.communities.get id ∨ r.stage ≠ .Aborted ∧ id = r.community_id)
    (hagree : r'.stage ≠ .Aborted → ∃ c, communities.get r'.community_id = some c ∧ r'.Agrees c)
    (hinventory : r'.stage ≠ .Submitted → r'.Inventory env)
    (happrovals : ∀ q, s.approved q = true → Db.approved ⟨communities, s.requests, approvals, chunks, leases⟩ q = true)
    (happroved : 2 ≤ r'.stage.rank → Db.approved ⟨communities, s.requests, approvals, chunks, leases⟩ r' = true) :
    Inv env ⟨communities, s.requests.replace r', approvals, chunks, leases⟩ := by
  have hmem := fun q => Table.mem_replace (q := q) (t := s.requests) (r := r') (hid ▸ hr)
  have hold := Table.mem_of_get hr
  -- each row goes back to a row of the same request that is live if it is
  have hback : ∀ q' ∈ (s.requests.replace r').rows, ∃ q ∈ s.requests.rows, q.id = q'.id ∧ q.community_id = q'.community_id ∧
      (q'.stage ≠ .Aborted → q.stage ≠ .Aborted) := by
    intro q' hq'
    rcases (hmem q').1 hq' with rfl | ⟨hq, -⟩
    · exact ⟨r, hold, hid.symm, hcommunity.symm, hlive⟩
    · exact ⟨q', hq, rfl, rfl, fun h => h⟩
  constructor
  · intro p' hp' q' hq' heq hp hq
    obtain ⟨p, hpmem, hpid, hpcommunity, hplive⟩ := hback p' hp'
    obtain ⟨q, hqmem, hqid, hqcommunity, hqlive⟩ := hback q' hq'
    rw [← hpid, ← hqid]
    exact hi.one p hpmem q hqmem (hpcommunity.trans (heq.trans hqcommunity.symm)) (hplive hp) (hqlive hq)
  · intro q' hq' hq
    rcases (hmem q').1 hq' with rfl | ⟨hqmem, hne⟩
    · exact hagree hq
    · obtain ⟨c, hc, hagrees⟩ := hi.agree q' hqmem hq
      rcases hother q'.community_id with hget | ⟨hstage, heq⟩
      · exact ⟨c, hget.trans hc, hagrees⟩
      · exact absurd ((hi.one q' hqmem r hold heq hq hstage).trans hid.symm) hne
  · intro q' hq' hq
    rcases (hmem q').1 hq' with rfl | ⟨hqmem, -⟩
    · exact hinventory hq
    · exact hi.inventory q' hqmem hq
  · intro q' hq' hq
    rcases (hmem q').1 hq' with rfl | ⟨hqmem, -⟩
    · exact happroved hq
    · exact happrovals q' (hi.approved q' hqmem hq)

theorem Inv.inventory_of {r : DeletionRequest} (hi : Inv env s) (hr : s.requests.get r.id = some r) (hstage : r.stage ≠ .Submitted) :
    r.Inventory env := hi.inventory r (Table.mem_of_get hr) hstage

/-- The communities other than one that was replaced. -/
theorem get_replace_other {c c' : CommunityRow} {community : CommunityId} {P : Prop} (hc : s.communities.get community = some c)
    (hid : c'.id = c.id) (hp : P) (id : CommunityId) :
    (s.communities.replace c').get id = s.communities.get id ∨ P ∧ id = community := by
  have hkey := Table.key_of_get hc
  by_cases heq : id = community
  · exact .inr ⟨hp, heq⟩
  · have hget : s.communities.get c'.id = some c := by
      rw [hid, hkey]
      exact hc
    have hne : id ≠ c'.id := by
      rw [hid, hkey]
      exact heq
    exact .inl (Table.get_replace_ne hget hne)

/-- Two rows at one stage with one fence ask for the same of their community. -/
theorem DeletionRequest.Agrees.congr {r r' : DeletionRequest} {c : CommunityRow} (h : r.Agrees c) (hstage : r'.stage = r.stage)
    (hfence : r'.fence_generation = r.fence_generation) : r'.Agrees c := by
  unfold DeletionRequest.Agrees at h ⊢
  rw [hstage, hfence]
  exact h

/-- A call that keeps the stage of a request keeps the invariant. -/
theorem Inv.keeps {r r' : DeletionRequest} {communities chunks leases} (hi : Inv env s) (hr : s.requests.get r.id = some r)
    (hkeeps : r.Keeps r') (hother : ∀ id, communities.get id = s.communities.get id ∨ r.stage ≠ .Aborted ∧ id = r.community_id)
    (hagree : r.stage ≠ .Aborted → ∃ c, communities.get r.community_id = some c ∧ r.Agrees c) :
    Inv env ⟨communities, s.requests.replace r', s.approvals, chunks, leases⟩ := by
  refine hi.replace hr hkeeps.id hkeeps.community_id (fun h => hkeeps.stage ▸ h) hother ?_ ?_ (fun q hq => hq) ?_
  · intro hlive
    rw [hkeeps.stage] at hlive
    obtain ⟨c, hc, hagrees⟩ := hagree hlive
    exact ⟨c, hkeeps.community_id ▸ hc, hagrees.congr hkeeps.stage hkeeps.fence_generation⟩
  · intro hstage
    obtain ⟨inventory, hmanifest, hdigest⟩ := hi.inventory_of hr (hkeeps.stage ▸ hstage)
    exact ⟨inventory, hkeeps.inventory_manifest.trans hmanifest, hkeeps.inventory_digest.trans hdigest⟩
  · intro hrank
    have happroved := hi.approved r (Table.mem_of_get hr) (hkeeps.stage ▸ hrank)
    exact approved_congr hkeeps.id hkeeps.community_id hkeeps.inventory_digest rfl happroved

/-- A call that moves a live, approved request on keeps it. -/
theorem Inv.moves {r r' : DeletionRequest} {communities chunks leases} (hi : Inv env s) (hr : s.requests.get r.id = some r)
    (hsame : r.Same r') (hrank : 2 ≤ r.stage.rank) (hlive : r.stage ≠ .Aborted)
    (hother : ∀ id, communities.get id = s.communities.get id ∨ r.stage ≠ .Aborted ∧ id = r.community_id)
    (hagree : r'.stage ≠ .Aborted → ∃ c, communities.get r.community_id = some c ∧ r'.Agrees c) :
    Inv env ⟨communities, s.requests.replace r', s.approvals, chunks, leases⟩ := by
  refine hi.replace hr hsame.id hsame.community_id (fun _ => hlive) hother ?_ ?_ (fun q hq => hq) ?_
  · intro h
    rw [hsame.community_id]
    exact hagree h
  · intro _
    have hstage : r.stage ≠ .Submitted := by
      intro h
      rw [h] at hrank
      exact absurd hrank (by decide)
    obtain ⟨inventory, hmanifest, hdigest⟩ := hi.inventory_of hr hstage
    exact ⟨inventory, hsame.inventory_manifest.trans hmanifest, hsame.inventory_digest.trans hdigest⟩
  · intro _
    exact approved_congr hsame.id hsame.community_id hsame.inventory_digest rfl (hi.approved r (Table.mem_of_get hr) hrank)

theorem approved_insert {approvals : Table DeletionApproval.request_id} {a : DeletionApproval} {communities chunks leases}
    (hinsert : s.approvals.insert a = some approvals) {q : DeletionRequest} (h : s.approved q = true) :
    Db.approved ⟨communities, s.requests, approvals, chunks, leases⟩ q = true := by
  obtain ⟨b, hb⟩ := Option.isSome_iff_exists.1 h
  obtain ⟨hget, hp⟩ := Table.select_eq_some.1 hb
  have hfresh := (Table.insert_eq_some hinsert).1
  have hne : q.id ≠ a.request_id := by
    intro heq
    rw [heq, hfresh] at hget
    cases hget
  exact Option.isSome_iff_exists.2 ⟨b, Table.select_eq_some.2 ⟨(Table.get_insert_ne hinsert hne).trans hget, hp⟩⟩

theorem Inv.insert {r : DeletionRequest} {requests} (hi : Inv env s) (hstage : r.stage = .Submitted)
    (hnone : s.requested r.community_id = false) {c : CommunityRow} (hc : s.communities.get r.community_id = some c)
    (hactive : c.deletion_state = .active) (hinsert : s.requests.insert r = some requests) :
    Inv env { s with requests := requests } := by
  have hmem := (Table.insert_eq_some hinsert).2
  have hother : ∀ q ∈ s.requests.rows, q.community_id = r.community_id → q.stage = .Aborted := by
    intro q hq hcommunity
    have := List.any_eq_false.1 hnone q hq
    simpa [hcommunity] using this
  constructor
  · intro p hp q hq heq hplive hqlive
    rcases (hmem p).1 hp with hp | rfl <;> rcases (hmem q).1 hq with hq | rfl
    · exact hi.one p hp q hq heq hplive hqlive
    · exact absurd (hother p hp heq) hplive
    · exact absurd (hother q hq heq.symm) hqlive
    · rfl
  · intro q hq hlive
    rcases (hmem q).1 hq with hq | rfl
    · exact hi.agree q hq hlive
    · refine ⟨c, hc, ?_⟩
      rw [DeletionRequest.Agrees, hstage]
      exact .inl hactive
  · intro q hq hq'
    rcases (hmem q).1 hq with hq | rfl
    · exact hi.inventory q hq hq'
    · exact absurd hstage hq'
  · intro q hq hrank
    rcases (hmem q).1 hq with hq | rfl
    · exact hi.approved q hq hrank
    · rw [hstage] at hrank
      exact absurd hrank (by decide)

theorem Inv.tables {s t : Db} (hi : Inv env s) (hrequests : t.requests = s.requests) (hcommunities : t.communities = s.communities)
    (happrovals : t.approvals = s.approvals) : Inv env t := by
  have happroved : ∀ r, t.approved r = s.approved r := fun r => by rw [Db.approved, happrovals]; rfl
  constructor
  · rw [hrequests]
    exact hi.one
  · rw [hrequests, hcommunities]
    exact hi.agree
  · rw [hrequests]
    exact hi.inventory
  · rw [hrequests]
    simp only [happroved]
    exact hi.approved

/-- Behind the fence only the last stages ask for a tombstone. -/
theorem agrees_next {r r' : DeletionRequest} {c : CommunityRow} {source target : DeletionStage} {generation : Int} (h : r.Agrees c)
    (hstage : r.stage = source) (hnext : source.next = some target) (happroved : 2 < source.rank) (hpurge : source ≠ .BindingsRemoved)
    (hfence : r.fence_generation = some generation) (hstage' : r'.stage = target) (hfence' : r'.fence_generation = some generation) :
    r'.Agrees c := by
  unfold DeletionRequest.Agrees at h ⊢
  rw [hfence, hstage] at h
  rw [hfence', hstage']
  cases source <;> cases hnext <;> first | exact h | exact absurd rfl hpurge | exact absurd happroved (by decide)

theorem live_of_stage {r : DeletionRequest} {stage : DeletionStage} (h : r.stage = stage) (hstage : stage ≠ .Aborted) :
    r.stage ≠ .Aborted := by
  rw [h]
  exact hstage

theorem Effect.inv (h : Effect env now s op t) (hi : Inv env s) : Inv env t := by
  cases h with
  | unchanged => exact hi
  | bookkept hr hkeeps =>
    exact hi.keeps hr hkeeps (fun id => .inl rfl) (fun hlive => hi.agree _ (Table.mem_of_get hr) hlive)
  | submitted hc hactive hnone hinsert => exact hi.insert rfl hnone (Table.get_of_mem hc) hactive hinsert
  | @inventoried r inventory hr hstage =>
    obtain ⟨c, hc, hagrees⟩ := hi.agree r (Table.mem_of_get hr) (live_of_stage hstage (by decide))
    rw [DeletionRequest.Agrees, hstage] at hagrees
    exact hi.replace hr rfl rfl (fun _ => live_of_stage hstage (by decide)) (fun id => .inl rfl) (fun _ => ⟨c, hc, hagrees⟩)
      (fun _ => ⟨inventory, rfl, rfl⟩) (fun q hq => hq) (fun hrank => absurd hrank (by simp [DeletionRequest.inventoried, DeletionStage.rank]))
  | @approved r inventory approved_by note approvals hr hstage hmanifest hdigest hinsert =>
    obtain ⟨c, hc, hagrees⟩ := hi.agree r (Table.mem_of_get hr) (live_of_stage hstage (by decide))
    rw [DeletionRequest.Agrees, hstage] at hagrees
    refine hi.replace hr rfl rfl (fun _ => live_of_stage hstage (by decide)) (fun id => .inl rfl) (fun _ => ⟨c, hc, hagrees⟩)
      (fun _ => ⟨inventory, hmanifest, hdigest⟩) (fun q hq => approved_insert hinsert hq) (fun _ => ?_)
    have hget := Table.get_insert_self hinsert
    refine Option.isSome_iff_exists.2 ⟨_, Table.select_eq_some.2 ⟨hget, ?_⟩⟩
    simp [DeletionRequest.approved, hdigest]
  | @quiesced token r r' c hr hkeeps hc hstate =>
    have hlive := live_of_stage hr.stage_eq (by decide)
    refine hi.keeps hr.get_id hkeeps (get_replace_other hc rfl hlive) (fun _ => ⟨_, get_replace_community hc rfl, ?_⟩)
    rw [DeletionRequest.Agrees, hr.stage_eq]
    exact .inr rfl
  | @fenced token r c hr hactive hc hstate =>
    have hlive := live_of_stage hr.stage_eq (by decide)
    exact hi.moves hr.get_id ⟨rfl, rfl, rfl, rfl, le_rfl⟩ (by rw [hr.stage_eq]; decide) hlive (get_replace_other hc rfl hlive)
      (fun _ => ⟨_, get_replace_community hc rfl, rfl, rfl⟩)
  | @frozen token r manifest generation c hr hfences hvalid hchunks hfrozen =>
    have hlive := live_of_stage hr.stage_eq (by decide)
    obtain ⟨d, hd, hagrees⟩ := hi.agree r (Table.mem_of_get hr.get_id) hlive
    exact hi.moves hr.get_id ⟨rfl, rfl, rfl, rfl, le_rfl⟩ (by rw [hr.stage_eq]; decide) hlive (fun id => .inl rfl)
      (fun _ => ⟨d, hd, hagrees.congr rfl rfl⟩)
  | chunked => exact hi.tables rfl rfl rfl
  | @advanced op token r r' source target generation c chunks hop hr hfences hnext hsource hpurge hsame hstage' hfence' =>
    have hlive : r.stage ≠ .Aborted := by
      rw [hr.stage_eq]
      rintro rfl
      cases hnext
    obtain ⟨d, hd, hagrees⟩ := hi.agree r (Table.mem_of_get hr.get_id) hlive
    have hagrees' := agrees_next hagrees hr.stage_eq hnext hsource hpurge hfences.fence hstage' hfence'
    exact hi.moves hr.get_id hsame (by rw [hr.stage_eq]; exact hsource.le) hlive (fun id => .inl rfl) (fun _ => ⟨d, hd, hagrees'⟩)
  | @purged catalog token r generation c hr hfences hstate =>
    have hlive := live_of_stage hr.stage_eq (by decide)
    exact hi.moves hr.get_id ⟨rfl, rfl, rfl, rfl, le_rfl⟩ (by rw [hr.stage_eq]; decide) hlive (get_replace_other hfences.get rfl hlive)
      (fun _ => ⟨_, get_replace_community hfences.get rfl, rfl⟩)
  | @aborted r r' c archived_at aborted_by reason hr hstage hactive hc hstate hsame hless hstage' =>
    have hlive : r.stage ≠ .Aborted := by rcases hstage with h | h <;> rw [h] <;> decide
    have hrank : 2 ≤ r.stage.rank := by rcases hstage with h | h <;> rw [h] <;> decide
    exact hi.moves hr hsame hrank hlive (get_replace_other hc rfl hlive) (fun h => absurd hstage' h)
  | leased | renewed | released => exact hi.tables rfl rfl rfl

/-! ## One request -/

/-- What a call can make of a request: past approval only the current lease moves it on. -/
structure Stride (now : Time) (s : Db) (op : Op) (r r' : DeletionRequest) : Prop where
  community_id : r'.community_id = r.community_id
  lease_generation : r.lease_generation ≤ r'.lease_generation
  stage : r'.stage = r.stage ∨
    r.stage.next = some r'.stage ∧ (2 ≤ r.stage.rank → ∃ token, op.token = some token ∧ Held s now token r.stage r) ∨
    (r.stage = .Approved ∨ r.stage = .Fenced) ∧ r'.stage = .Aborted

theorem Stride.refl (r : DeletionRequest) : Stride now s op r r := ⟨rfl, le_rfl, .inl rfl⟩

theorem stride_replace {id : Uuid} {r q q' : DeletionRequest} {requests : Table DeletionRequest.id} (hr : s.requests.get id = some r)
    (hq : s.requests.get q.id = some q) (ht : requests = s.requests.replace q') (hstride : Stride now s op q q')
    (hid : q'.id = q.id) : ∃ r', requests.get id = some r' ∧ Stride now s op r r' := by
  subst ht
  rw [← hid] at hq
  by_cases hkey : id = q'.id
  · subst hkey
    obtain rfl := Option.some.inj (hr.symm.trans hq)
    exact ⟨q', Table.get_replace_self hq, hstride⟩
  · exact ⟨r, (Table.get_replace_ne hq hkey).trans hr, .refl r⟩

/-- A stage verified for a token that moves on. -/
theorem Held.stride {token : LeaseToken} {r r' : DeletionRequest} {stage : DeletionStage} (hr : Held s now token stage r)
    (hop : op.token = some token) (hsame : r.Same r') (hnext : stage.next = some r'.stage) : Stride now s op r r' := by
  obtain rfl := hr.stage_eq
  exact ⟨hsame.community_id, hsame.lease_generation, .inr (.inl ⟨hnext, fun _ => ⟨token, hop, hr⟩⟩)⟩

theorem Effect.stride (h : Effect env now s op t) {id : Uuid} {r : DeletionRequest} (hr : s.requests.get id = some r) :
    ∃ r', t.requests.get id = some r' ∧ Stride now s op r r' := by
  cases h with
  | bookkept hq hkeeps => exact stride_replace hr hq rfl ⟨hkeeps.community_id, hkeeps.lease_generation, .inl hkeeps.stage⟩ hkeeps.id
  | submitted hc hactive hnone hinsert =>
    have hfresh := (Table.insert_eq_some hinsert).1
    refine ⟨r, (Table.get_insert_ne hinsert ?_).trans hr, .refl r⟩
    rintro rfl
    cases hfresh.symm.trans hr
  | inventoried hq hstage =>
    refine stride_replace hr hq rfl ⟨rfl, le_rfl, .inr (.inl ⟨by rw [hstage]; rfl, fun hrank => ?_⟩)⟩ rfl
    rw [hstage] at hrank
    exact absurd hrank (by decide)
  | approved hq hstage hmanifest hdigest hinsert =>
    refine stride_replace hr hq rfl ⟨rfl, le_rfl, .inr (.inl ⟨by rw [hstage]; rfl, fun hrank => ?_⟩)⟩ rfl
    rw [hstage] at hrank
    exact absurd hrank (by decide)
  | quiesced hq hkeeps =>
    exact stride_replace hr hq.get_id rfl ⟨hkeeps.community_id, hkeeps.lease_generation, .inl hkeeps.stage⟩ hkeeps.id
  | fenced hq => exact stride_replace hr hq.get_id rfl (hq.stride rfl ⟨rfl, rfl, rfl, rfl, le_rfl⟩ rfl) rfl
  | frozen hq => exact stride_replace hr hq.get_id rfl ⟨rfl, le_rfl, .inl rfl⟩ rfl
  | advanced hop hq hfences hnext hsource hpurge hsame hstage' =>
    exact stride_replace hr hq.get_id rfl (hq.stride hop hsame (hstage' ▸ hnext)) hsame.id
  | purged hq => exact stride_replace hr hq.get_id rfl (hq.stride rfl ⟨rfl, rfl, rfl, rfl, le_rfl⟩ rfl) rfl
  | aborted hq hstage hactive hc hstate hsame hless hstage' =>
    exact stride_replace hr hq rfl ⟨hsame.community_id, hsame.lease_generation, .inr (.inr ⟨hstage, hstage'⟩)⟩ hsame.id
  | unchanged | chunked | leased | renewed | released => exact ⟨r, hr, .refl r⟩

/-- A row that was replaced was there before. -/
theorem not_fresh_of_replace {id : Uuid} {r q q' : DeletionRequest} (hnone : s.requests.get id = none)
    (hq : s.requests.get q.id = some q) (hr : (s.requests.replace q').get id = some r) (hid : q'.id = q.id) : False := by
  rw [← hid] at hq
  have hne : id ≠ q'.id := by
    rintro rfl
    cases hnone.symm.trans hq
  cases ((Table.get_replace_ne hq hne).trans hnone).symm.trans hr

theorem Effect.fresh (h : Effect env now s op t) {id : Uuid} {r : DeletionRequest} (hnone : s.requests.get id = none)
    (hr : t.requests.get id = some r) : r.stage = .Submitted := by
  cases h with
  | submitted hc hactive hfree hinsert =>
    obtain ⟨hmem, rfl⟩ := Table.get_eq_some.1 hr
    rcases ((Table.insert_eq_some hinsert).2 r).1 hmem with hold | rfl
    · cases hnone.symm.trans (Table.get_of_mem hold)
    · rfl
  | bookkept hq hkeeps => exact (not_fresh_of_replace hnone hq hr hkeeps.id).elim
  | inventoried hq => exact (not_fresh_of_replace hnone hq hr rfl).elim
  | approved hq => exact (not_fresh_of_replace hnone hq hr rfl).elim
  | quiesced hq hkeeps => exact (not_fresh_of_replace hnone hq.get_id hr hkeeps.id).elim
  | fenced hq => exact (not_fresh_of_replace hnone hq.get_id hr rfl).elim
  | frozen hq => exact (not_fresh_of_replace hnone hq.get_id hr rfl).elim
  | advanced hop hq hfences hnext hsource hpurge hsame => exact (not_fresh_of_replace hnone hq.get_id hr hsame.id).elim
  | purged hq => exact (not_fresh_of_replace hnone hq.get_id hr rfl).elim
  | aborted hq hstage hactive hc hstate hsame => exact (not_fresh_of_replace hnone hq hr hsame.id).elim
  | unchanged | chunked | leased | renewed | released => cases hnone.symm.trans hr

/-! ## The stages a request has entered -/

/-- The stages a request has entered in the run, oldest first. -/
def World.stages (w : World) (id : Uuid) : List DeletionStage := (w.entered.filter (fun e => e.1 = id)).map Prod.snd

/-- What a request that is at a stage, if there is one, has entered: the order up to its stage, or up to where it was aborted. -/
def Course : Option DeletionStage → List DeletionStage → Prop
  | none, stages => stages = []
  | some .Aborted, stages =>
    stages = DeletionStage.order.take 3 ++ [.Aborted] ∨ stages = DeletionStage.order.take 4 ++ [.Aborted]
  | some stage, stages => stages = DeletionStage.order.take (stage.rank + 1)

/-- What the step adds to the stages of one request. -/
def entry (before after : Option DeletionStage) : List DeletionStage := if before = after then [] else after.toList

theorem entries_of (s t : Db) (id : Uuid) (hkept : s.requests.get id ≠ none → t.requests.get id ≠ none) :
    ((entries s t).filter (fun e => e.1 = id)).map Prod.snd =
      entry ((s.requests.get id).map DeletionRequest.stage) ((t.requests.get id).map DeletionRequest.stage) := by
  have hone : (entries s t).filter (fun e => e.1 = id) =
      (((t.requests.get id).toList).filter (fun r => (s.requests.get r.id).map DeletionRequest.stage ≠ some r.stage)).map
        (fun r => (r.id, r.stage)) := by
    rw [entries, List.filter_map, List.filter_filter]
    rw [← Table.filter_key, List.filter_filter]
    congr 1
    refine List.filter_congr fun r _ => ?_
    simp only [Function.comp_apply, Bool.and_comm]
  rw [hone]
  rcases hr : t.requests.get id with _ | r
  · have hnone : s.requests.get id = none := by
      by_contra hs
      exact hkept hs hr
    simp [hnone, entry]
  · obtain rfl := Table.key_of_get hr
    rw [Option.toList_some, Option.map_some, entry]
    by_cases hsame : (s.requests.get r.id).map DeletionRequest.stage = some r.stage
    · rw [if_pos hsame, List.filter_cons_of_neg (by simpa only [ne_eq, decide_eq_true_eq, not_not] using hsame)]
      rfl
    · rw [if_neg hsame, List.filter_cons_of_pos (by simpa only [ne_eq, decide_eq_true_eq] using hsame)]
      rfl

theorem Course.advance {a b : DeletionStage} {l : List DeletionStage} (h : Course (some a) l) (hnext : a.next = some b) :
    Course (some b) (l ++ entry (some a) (some b)) := by
  cases a <;> cases hnext <;> simp only [Course] at h ⊢ <;> rw [h] <;> rfl

theorem Course.abort {a : DeletionStage} {l : List DeletionStage} (h : Course (some a) l) (ha : a = .Approved ∨ a = .Fenced) :
    Course (some .Aborted) (l ++ entry (some a) (some .Aborted)) := by
  rcases ha with rfl | rfl <;> simp only [Course] at h ⊢ <;> rw [h]
  · exact .inl rfl
  · exact .inr rfl

theorem Course.stay {a : Option DeletionStage} {l : List DeletionStage} (h : Course a l) : Course a (l ++ entry a a) := by
  rw [entry, if_pos rfl, List.append_nil]
  exact h

theorem Effect.course (h : Effect env now s op t) {id : Uuid} {l : List DeletionStage}
    (hl : Course ((s.requests.get id).map DeletionRequest.stage) l) :
    Course ((t.requests.get id).map DeletionRequest.stage) (l ++ ((entries s t).filter (fun e => e.1 = id)).map Prod.snd) := by
  rcases hs : s.requests.get id with _ | r
  · rw [entries_of s t id (fun hne => absurd hs hne), hs]
    rw [hs] at hl
    rcases ht : t.requests.get id with _ | r'
    · exact hl.stay
    · obtain rfl : l = [] := hl
      simp only [Option.map_some, h.fresh hs ht]
      rfl
  · obtain ⟨r', hr', hstride⟩ := h.stride hs
    rw [entries_of s t id (fun _ => by rw [hr']; exact Option.some_ne_none r'), hs, hr']
    rw [hs] at hl
    simp only [Option.map_some] at hl ⊢
    rcases hstride.stage with hsame | ⟨hnext, -⟩ | ⟨hfrom, hto⟩
    · rw [hsame]
      exact hl.stay
    · exact hl.advance hnext
    · rw [hto]
      exact hl.abort hfrom

/-! ## Runs -/

/-- The request is past the point where it can be aborted. -/
def Db.Doomed (s : Db) (id : Uuid) : Prop :=
  ∃ r, s.requests.get id = some r ∧ 4 ≤ r.stage.rank ∧ r.stage ≠ .Aborted

theorem Effect.doomed {id : Uuid} (h : Effect env now s op t) (hs : s.Doomed id) : t.Doomed id := by
  obtain ⟨r, hr, hrank, hlive⟩ := hs
  obtain ⟨r', hr', hstride⟩ := h.stride hr
  refine ⟨r', hr', ?_⟩
  rcases hstride.stage with hsame | ⟨hnext, -⟩ | ⟨hfrom, -⟩
  · rw [hsame]
    exact ⟨hrank, hlive⟩
  · exact ⟨by rw [DeletionStage.rank_next hnext]; omega, DeletionStage.next_ne_aborted hnext⟩
  · rcases hfrom with hstage | hstage <;> rw [hstage] at hrank <;> exact absurd hrank (by decide)

/-- No token given out is newer than the lease of its request. -/
theorem claim_tokens {reply : Reply} (h : (exec env now op).run s = .ok (reply, t)) :
    ∀ token ∈ reply.tokens, ∃ r, t.requests.get token.request_id = some r ∧ token.generation ≤ r.lease_generation := by
  cases op <;> simp only [exec, bind_ok, pure_ok] at h <;> obtain ⟨x, _, h, rfl, rfl⟩ := h
  case claim =>
    intro token htoken
    obtain ⟨-, rfl⟩ | ⟨r, r', hr, hkeeps, rfl, rfl | ⟨hless, rfl⟩⟩ := claim_ok h
    · cases htoken
    · cases htoken
    · obtain rfl := List.mem_singleton.1 htoken
      exact ⟨r', hkeeps.id ▸ Table.get_replace_self (hkeeps.id ▸ hr), le_rfl⟩
  all_goals
    intro token htoken
    cases htoken

theorem cleared_doomed {reply : Reply} (h : (exec env now op).run s = .ok (reply, t)) :
    ∀ e ∈ op.cleared, 4 ≤ e.2.rank → e.2 ≠ .Aborted → t.Doomed e.1.request_id := by
  cases op <;> simp only [exec, bind_ok, pure_ok] at h <;> obtain ⟨x, _, h, rfl, rfl⟩ := h
  case verify_execution_token =>
    intro e he hrank hlive
    obtain rfl := List.mem_singleton.1 he
    obtain ⟨rfl, r, hr⟩ := verify_execution_token_ok h
    exact ⟨r, hr.get, hr.stage_eq.symm ▸ hrank, hr.stage_eq.symm ▸ hlive⟩
  all_goals
    intro e he
    cases he

structure Kept (env : Env) (w : World) : Prop where
  tables : Inv env w.db
  claims : ∀ token ∈ w.claims, ∃ r, w.db.requests.get token.request_id = some r ∧ token.generation ≤ r.lease_generation
  cleared : ∀ e ∈ w.cleared, 4 ≤ e.2.rank → e.2 ≠ .Aborted → w.db.Doomed e.1.request_id
  course : ∀ id, Course ((w.db.requests.get id).map DeletionRequest.stage) (w.stages id)

theorem World.Initial.kept {w : World} (h : w.Initial) : Kept env w := by
  have hnone : ∀ id, w.db.requests.get id = none := by
    intro id
    rw [Table.get_eq_none, h.requests]
    exact List.not_mem_nil
  constructor
  · constructor <;> rw [h.requests] <;> exact fun r hr => nomatch hr
  · rw [h.claims]
    exact fun token htoken => nomatch htoken
  · rw [h.cleared]
    exact fun e he => nomatch he
  · intro id
    rw [hnone, World.stages, h.entered]
    rfl

theorem Kept.commit {w : World} {reply : Reply} {db : Db} (hw : Kept env w) (h : (exec env now op).run w.db = .ok (reply, db)) :
    Kept env (w.commit op reply db) := by
  have heffect := exec_effect h
  constructor
  · exact heffect.inv hw.tables
  · intro token htoken
    rcases List.mem_append.1 htoken with hold | hnew
    · obtain ⟨r, hr, hle⟩ := hw.claims token hold
      obtain ⟨r', hr', hstride⟩ := heffect.stride hr
      exact ⟨r', hr', hle.trans hstride.lease_generation⟩
    · exact claim_tokens h token hnew
  · intro e he hrank hlive
    rcases List.mem_append.1 he with hold | hnew
    · exact heffect.doomed (hw.cleared e hold hrank hlive)
    · exact cleared_doomed h e hnew hrank hlive
  · intro id
    have := heffect.course (hw.course id)
    rwa [World.stages, ← List.map_append, ← List.filter_append] at this

theorem Kept.run {w w' : World} {as : List Act} (hw : Kept env w) (h : Run (step env) w as w') : Kept env w' := by
  refine h.inv ?_ hw
  intro s a t _ hs hstep
  rcases a with ⟨op, now, _ | _⟩ | ⟨token, stage⟩
  · exact hstep ▸ hs
  · obtain ⟨reply, db, hexec, rfl⟩ := hstep
    exact hs.commit hexec
  · exact hstep.2 ▸ hs

theorem run_doomed {w w' : World} {as : List Act} {id : Uuid} (h : Run (step env) w as w') (hw : w.db.Doomed id) : w'.db.Doomed id := by
  refine h.inv (I := fun w => w.db.Doomed id) ?_ hw
  intro s a t _ hs hstep
  rcases step_effect hstep with hsame | ⟨op, now, reply, -, hexec⟩
  · rw [hsame]
    exact hs
  · exact (exec_effect hexec).doomed hs

/-- Steps that delete objects, cached data or rows, and the token they are taken with. -/
inductive Destroys : Act → LeaseToken → Prop
  | objects {token : LeaseToken} : Destroys (.external token .Drained) token
  | cache {token : LeaseToken} : Destroys (.external token .PostgresPurged) token
  | rows {catalog : Option String} {token : LeaseToken} {now : Time} : Destroys (.call (.purge_postgres catalog token) now true) token

/-- The request has its inventory's digest, and an approval of that digest for its community. -/
def Db.Sanctioned (env : Env) (s : Db) (r : DeletionRequest) : Prop :=
  ∃ inventory approval, r.inventory_manifest = some inventory ∧ r.inventory_digest = some (inventory.digest env.sha256) ∧
    s.approvals.get r.id = some approval ∧ approval.community_id = r.community_id ∧
    approval.inventory_digest = inventory.digest env.sha256

theorem Inv.sanctioned {r : DeletionRequest} {id : Uuid} (hi : Inv env s) (hr : s.requests.get id = some r) (hrank : 2 ≤ r.stage.rank) :
    s.Sanctioned env r := by
  have hmem := Table.mem_of_get hr
  have hstage : r.stage ≠ .Submitted := by
    intro h
    rw [h] at hrank
    exact absurd hrank (by decide)
  obtain ⟨inventory, hmanifest, hdigest⟩ := hi.inventory r hmem hstage
  obtain ⟨approval, ha⟩ := Option.isSome_iff_exists.1 (hi.approved r hmem hrank)
  obtain ⟨hget, hp⟩ := Table.select_eq_some.1 ha
  simp only [Bool.and_eq_true, decide_eq_true_eq, hdigest, Option.some.injEq] at hp
  exact ⟨inventory, approval, hmanifest, hdigest, hget, hp.1, hp.2⟩

/-- A step that destroys is taken for a request that can no longer be aborted. -/
theorem Kept.doomed_of_destroys {w w' : World} {a : Act} {token : LeaseToken} (hw : Kept env w) (ha : Destroys a token)
    (hstep : step env w a w') : w.db.Doomed token.request_id := by
  cases ha with
  | objects =>
    have hrank : 4 ≤ DeletionStage.Drained.rank := by decide
    exact hw.cleared _ hstep.1 hrank DeletionStage.noConfusion
  | cache =>
    have hrank : 4 ≤ DeletionStage.PostgresPurged.rank := by decide
    exact hw.cleared _ hstep.1 hrank DeletionStage.noConfusion
  | rows =>
    obtain ⟨reply, db, hexec, -⟩ := hstep
    simp only [exec, bind_ok, pure_ok] at hexec
    obtain ⟨_, _, hpurge, -⟩ := hexec
    obtain ⟨r, hr⟩ := purge_postgres_held hpurge
    exact ⟨r, hr.get, by rw [hr.stage_eq]; decide, by rw [hr.stage_eq]; decide⟩

/-- In every run from a deployment without requests: the stages a request enters are the fixed order up to some stage, or up to
`Approved` or `Fenced` and then `Aborted`; past `Approved` only the newest lease moves it on; its community is in the state the
stage asks for; a community has one live request; and what destroys is done for an approved request that is never aborted. -/
theorem deletion_lifecycle {w₀ w : World} {as : List Act} (h₀ : w₀.Initial) (hrun : Run (step env) w₀ as w) :
    (∀ id, Course ((w.db.requests.get id).map DeletionRequest.stage) (w.stages id)) ∧
    (∀ op now w' id r r', step env w (.call op now true) w' → w.db.requests.get id = some r → w'.db.requests.get id = some r' →
      2 ≤ r.stage.rank → r'.stage ≠ r.stage → r'.stage ≠ .Aborted →
      ∃ token, op.token = some token ∧ token.request_id = id ∧ token.generation = r.lease_generation ∧
        ∀ given ∈ w.claims, given.request_id = id → given.generation ≤ token.generation) ∧
    (∀ r ∈ w.db.requests.rows, r.stage ≠ .Aborted → ∃ c, w.db.communities.get r.community_id = some c ∧ r.Agrees c) ∧
    (∀ r ∈ w.db.requests.rows, ∀ q ∈ w.db.requests.rows, r.community_id = q.community_id → r.stage ≠ .Aborted →
      q.stage ≠ .Aborted → r.id = q.id) ∧
    (∀ a token w₁ bs w₂, Destroys a token → step env w a w₁ → Run (step env) w₁ bs w₂ →
      (∃ r, w.db.requests.get token.request_id = some r ∧ w.db.Sanctioned env r) ∧
      ∃ r, w₂.db.requests.get token.request_id = some r ∧ r.stage ≠ .Aborted) := by
  have hw : Kept env w := h₀.kept.run hrun
  refine ⟨hw.course, ?_, hw.tables.agree, hw.tables.one, ?_⟩
  · rintro op now w' id r r' ⟨reply, db, hexec, rfl⟩ hr hr' hrank hmoved hlive
    obtain ⟨q, hq, hstride⟩ := (exec_effect hexec).stride hr
    obtain rfl := Option.some.inj (hq.symm.trans hr')
    rcases hstride.stage with hsame | ⟨-, htoken⟩ | ⟨-, habort⟩
    · exact absurd hsame hmoved
    · obtain ⟨token, hop, hheld⟩ := htoken hrank
      have hid : token.request_id = id := hheld.id_eq.symm.trans (Table.key_of_get hr)
      refine ⟨token, hop, hid, hheld.generation_eq.symm, ?_⟩
      intro given hgiven heq
      obtain ⟨p, hp, hle⟩ := hw.claims given hgiven
      rw [heq] at hp
      obtain rfl := Option.some.inj (hp.symm.trans hr)
      exact hle.trans hheld.generation_eq.le
    · exact absurd habort hlive
  · intro a token w₁ bs w₂ ha hstep hrest
    have hdoomed := hw.doomed_of_destroys ha hstep
    obtain ⟨r₂, hr₂, -, hlive₂⟩ := run_doomed (.cons hstep hrest) hdoomed
    obtain ⟨r, hr, hrank, -⟩ := hdoomed
    exact ⟨⟨r, hr, hw.tables.sanctioned hr (by omega)⟩, r₂, hr₂, hlive₂⟩

/-- The request goes on to the purge of its rows, with its objects removed on the way. -/
def purging_calls : List (Op × Time) :=
  let token := { first_token with fence_generation := some 1 }
  quiescing_calls ++ [(.fence first_token, 6), (.mark_drained token, 7), (.verify_execution_token token .Drained, 8),
    (.mark_bindings_removed token, 9), (.purge_postgres none token, 10)]

theorem deletion_lifecycle_purged : ∃ w, Run (step .plain) deployed (purging_calls.map (fun c => .call c.1 c.2 true)) w ∧
    (w.db.requests.get 2).map DeletionRequest.stage = some .PostgresPurged ∧ w.stages 2 = DeletionStage.order.take 7 ∧
    Course ((w.db.requests.get 2).map DeletionRequest.stage) (w.stages 2) := by
  have hsome : ((purging_calls.foldlM (World.call .plain) deployed).filter (fun w =>
      (w.db.requests.get 2).map DeletionRequest.stage = some .PostgresPurged &&
        w.stages 2 = DeletionStage.order.take 7)).isSome = true := by decide +kernel
  obtain ⟨w, h⟩ := Option.isSome_iff_exists.1 hsome
  obtain ⟨hw, hp⟩ := Option.filter_eq_some_iff.1 h
  simp only [Bool.and_eq_true, decide_eq_true_eq] at hp
  have hrun := World.run_of_calls hw
  exact ⟨w, hrun, hp.1, hp.2, (deletion_lifecycle ⟨rfl, rfl, rfl, rfl, rfl, rfl, rfl⟩ hrun).1 2⟩

end
end Ambush.Deletion

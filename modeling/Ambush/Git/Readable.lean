import Ambush.Git.NoFork
import Ambush.Git.ManifestSize
/-!
# What a push publishes can be read

The reader bounds the bytes of the manifest, the writer only the listing of the refs, their
number and that of the packs. A manifest that reaches the pointer is read back exactly when its
JSON text is within the reader's bound.
-/
open Lib

namespace Ambush.Git
open Relay (CommunityId)

/-! ## Reading -/

/-- What a store without faults answers to reads. -/
def serve (env : Env) (b : Bucket) : (op : S3Op) → op.Ans
  | .get_object key => match b.object key with
    | some body => .ok ⟨some (env.etag body), body⟩
    | none => .error (.HttpFailWithBody 404 "")
  | .head_object key => match b.object key with
    | some body => .ok ⟨some body.size, 200⟩
    | none => .ok ⟨none, 404⟩
  | .put_object _ _ _ => .error (.Other "")

section
variable {env : Env} {b : Bucket}

theorem serve_get {key : String} {body : Bytes} (h : b.object key = some body) :
    serve env b (.get_object key) = (.ok ⟨some (env.etag body), body⟩ : Except S3Error GetResponse) := by
  rw [serve, h]

theorem serve_head {key : String} {body : Bytes} (h : b.object key = some body) :
    serve env b (.head_object key) = (.ok ⟨some body.size, 200⟩ : Except S3Error HeadResponse) := by
  rw [serve, h]

theorem eval_get_limited {key : String} {body : Bytes} (h : b.object key = some body) (max_bytes : Nat) :
    (get_limited key max_bytes).eval (serve env b) =
      if max_bytes < body.size then .error (.ObjectTooLarge key body.size max_bytes) else .ok body := by
  have hsize : content_size (body.size : Int) = body.size := by simp [content_size]
  have hcheck : check_head key max_bytes (.ok ⟨some body.size, 200⟩) =
      if max_bytes < body.size then .error (.ObjectTooLarge key body.size max_bytes) else .ok () := by
    have hnone : ¬ (200 : Nat) = 404 := by decide
    have hok : ¬ (!is_2xx 200) = true := by decide
    simp only [check_head, if_neg hnone, if_neg hok, hsize]
  rw [get_limited]
  simp only [Prog.bind_eq, Prog.eval_bind, Prog.eval, serve_head h, hcheck, get, serve_get h, classify_get]
  by_cases hlarge : max_bytes < body.size
  · simp [hlarge, Except.bind]
  · simp [hlarge, Except.bind, Prog.eval]

theorem eval_get_verified_limited {m : Manifest} (h : b.object (manifest_key env m) = some m.canonical_bytes)
    (max_bytes : Nat) : (get_verified_limited env (manifest_key env m) (digest env m) max_bytes).eval (serve env b) =
      if max_bytes < m.canonical_bytes.size then
        .error (.ObjectTooLarge (manifest_key env m) m.canonical_bytes.size max_bytes)
      else .ok m.canonical_bytes := by
  have hsame : ¬ sha256_hex env m.canonical_bytes ≠ digest env m := fun h => h rfl
  rw [get_verified_limited]
  simp only [Prog.bind_eq, Prog.eval_bind, eval_get_limited h]
  by_cases hlarge : max_bytes < m.canonical_bytes.size
  · rw [if_pos hlarge]
    rfl
  · rw [if_neg hlarge, Except.bind]
    simp only [if_neg hsame]
    rfl

/-- The pointer's manifest is read back unless it is over the bound. -/
theorem eval_load_pointer {pkey : String} {m : Manifest} (hpointer : b.object pkey = some (pointer_body env m))
    (hstored : b.object (manifest_key env m) = some m.canonical_bytes) (hm : WellFormed m) :
    (load_pointer env pkey).eval (serve env b) =
      if MAX_MANIFEST_BYTES < m.canonical_bytes.size then .error (hydrate_error
        (.ObjectTooLarge (manifest_key env m) m.canonical_bytes.size MAX_MANIFEST_BYTES))
      else .ok (some (env.etag (pointer_body env m), digest env m, m)) := by
  have htext : is_digest_text (digest env m) = true := is_digest_text_sha256_hex _
  have hget : (get_pointer pkey).eval (serve env b) =
      .ok (some (env.etag (pointer_body env m), pointer_body env m)) := by
    rw [get_pointer, Prog.eval, serve_get hpointer]
    rfl
  rw [load_pointer]
  simp only [Prog.bind_eq, Prog.eval_bind, Prog.eval_mapError, hget]
  simp only [Except.mapError, Except.bind, pointer_digest_body, htext, ↓reduceIte, Prog.eval_bind, Prog.eval_mapError]
  rw [← manifest_key, eval_get_verified_limited hstored]
  by_cases hlarge : MAX_MANIFEST_BYTES < m.canonical_bytes.size
  · rw [if_pos hlarge, if_pos hlarge]
  · rw [if_neg hlarge, if_neg hlarge]
    simp only [Prog.eval, hm.from_bytes, hm.valid]
    rfl

end

/-! ## The way to the pointer -/

section
variable {env : Env} {F s t : Bucket} {pkey : String} {client : Nat}

/-- A call that does not write the pointer. -/
def Elsewhere (pkey : String) : S3Op → Prop
  | .put_object key _ _ => pkey ≠ key
  | _ => True

theorem only_put_immutable {folder : String} {bytes : Bytes} (h : pkey ≠ content_key env folder bytes) :
    Prog.Only (Elsewhere pkey) (put_immutable env folder bytes) := ⟨h, fun _ => trivial⟩

theorem only_put_idx {d : String} {bytes : Bytes} (h : pkey ≠ "idx/" ++ d) :
    Prog.Only (Elsewhere pkey) (put_idx d bytes) := ⟨h, fun _ => trivial⟩

theorem only_upload_compacted_pack (hkey : Apart pkey) (file : PackFile) :
    Prog.Only (Elsewhere pkey) (upload_compacted_pack env file) := by
  refine (only_put_immutable (hkey.packs _)).mapError.bind (fun key => Prog.Only.bind trivial (fun d => ?_))
  cases file.idx with
  | none => trivial
  | some idx => exact (only_put_idx (hkey.idx _)).attempt.bind (fun _ => trivial)

theorem only_prepare_compaction (hkey : Apart pkey) (ws : Workspace) (refs : Refs) (limits : PublishLimits) (n : Nat) :
    Prog.Only (Elsewhere pkey) (prepare_compaction env ws refs limits n) := by
  refine Prog.Only.bind trivial (fun files => ?_)
  split
  · exact (Prog.Only.forEach (only_upload_compacted_pack hkey) files).bind (fun _ => trivial)
  · trivial

theorem only_compact (hkey : Apart pkey) (c : Compaction) (ws : Workspace) (refs : Refs) (limits : PublishLimits)
    (n : Nat) : Prog.Only (Elsewhere pkey) (compact env c ws refs limits n) := by
  rw [compact]
  cases c.permit with
  | error e => trivial
  | ok _ =>
    refine (only_prepare_compaction hkey ws refs limits n).within.bind (fun o => ?_)
    cases o <;> trivial

theorem only_write_idx_sidecar (hkey : Apart pkey) (ws : Workspace) (key : String) (bytes : Bytes) :
    Prog.Only (Elsewhere pkey) (write_idx_sidecar ws key bytes) :=
  Prog.Only.bind trivial (fun _ => Prog.Only.bind trivial (fun _ =>
    (only_put_idx (hkey.idx _)).mapError.bind (fun _ => trivial)))

theorem only_publish_delta (hkey : Apart pkey) (ps : ParentState) (limits : PublishLimits) (ws : Workspace)
    (head : String) (refs : Refs) (failure : Option CasError) :
    Prog.Only (Elsewhere pkey) (publish_delta env ps limits ws head refs failure) := by
  refine Prog.Only.bind trivial (fun o => ?_)
  cases o with
  | none => trivial
  | some bytes =>
    simp only
    split
    · trivial
    split
    · trivial
    split
    · trivial
    exact (only_put_immutable (hkey.packs _)).mapError.bind (fun key =>
      (only_write_idx_sidecar hkey ws key bytes).attempt.bind (fun _ => trivial))

theorem only_compose (hkey : Apart pkey) (c : Compaction) (threshold : Nat) (ps : ParentState) (limits : PublishLimits)
    (ws : Workspace) (head : String) (refs : Refs) :
    Prog.Only (Elsewhere pkey) (compose env c threshold ps limits ws head refs) := by
  rw [compose]
  split
  · refine (only_compact hkey c ws refs limits _).bind (fun r => ?_)
    cases r with
    | ok keys => trivial
    | error e => exact only_publish_delta hkey ps limits ws head refs (some e)
  · exact only_publish_delta hkey ps limits ws head refs none

theorem only_read_winner (env : Env) (pkey : String) :
    Prog.Only (Elsewhere pkey) (read_winner_after_conflict env pkey) := by
  have hget : ∀ key digest, Prog.Only (Elsewhere pkey) (get_verified env key digest) := by
    intro key digest
    refine Prog.Only.bind (p := get key) ⟨trivial, fun _ => trivial⟩ (fun bytes => ?_)
    split <;> trivial
  have hpointer : Prog.Only (Elsewhere pkey) (get_pointer pkey) := ⟨trivial, fun _ => trivial⟩
  refine hpointer.mapError.bind (fun o => ?_)
  cases o with
  | none => trivial
  | some p =>
    simp only
    split
    · trivial
    split
    · refine (hget _ _).mapError.bind (fun bytes => ?_)
      split <;> trivial
    · trivial

/-- What every client and every other program leaves of the bucket. -/
def keeping (env : Env) (F : Bucket) : Prog.Contract Bucket where
  Inv := Base env F
  rely := Before
  guar := Before
  later := Before
  rely_refl := .refl
  rely_trans := .trans
  later_trans := .trans
  rely_later h := h
  guar_later h := h

theorem keeping_stores : Stores env F pkey client (keeping env F) where
  base h := h
  later h := h
  put hs ht _ hkey hput := ⟨⟨ht, hs.addressed.put hput hkey⟩, .of_put hput⟩

/-- What others do to the bucket meanwhile: nothing goes away, and content addresses stay true. -/
def Meanwhile (env : Env) (s t : Bucket) : Prop := Before s t ∧ Addressed env t

theorem path_within {E α : Type} {p q : Calls E α} (h : Prog.Path (answers env client) (Meanwhile env) s p t q)
    (ht : Before t F) : Before s F ∧ Prog.Path (answers_within env F client)
      (fun u v => Meanwhile env u v ∧ Before v F) s p t q := by
  induction h with
  | here => exact ⟨ht, .here⟩
  | other ho _ ih =>
    obtain ⟨hb, hrest⟩ := ih ht
    exact ⟨ho.1.trans hb, .other ⟨ho, hb⟩ hrest⟩
  | step hans _ ih =>
    obtain ⟨hb, hrest⟩ := ih ht
    exact ⟨(Before.of_answers hans).trans hb, .step ⟨hans, hb⟩ hrest⟩

theorem put_pointer_of_path {I : Bucket → Prop} {others : Bucket → Bucket → Prop} {new body : Bytes}
    {swap precond : Precond} {k : S3Op.Ans (.put_object pkey body precond) → Calls StoreError CasOutcome}
    (hother : ∀ s t, others s t → I s → I t) (hs : I s)
    (hpath : Prog.Path (answers_within env F client) others s (put_pointer pkey new swap) t
      (.call (.put_object pkey body precond) k)) : body = new ∧ I t := by
  cases swap with
  | IfNoneMatchStar =>
    obtain ⟨heq, ht⟩ := Prog.Path.of_call hother hs hpath
    cases heq
    exact ⟨rfl, ht⟩
  | IfMatch tag =>
    rw [put_pointer_ifMatch] at hpath
    split at hpath
    · obtain ⟨heq, ht⟩ := Prog.Path.of_call hother hs hpath
      cases heq
      exact ⟨rfl, ht⟩
    · cases hpath.of_done

/-- Where the pointer is about to be written, the manifest it will name is composed, valid and
stored. -/
theorem ready_of_path {ps : ParentState} {limits : PublishLimits} {ws : Workspace} {c : Compaction} {threshold : Nat}
    {body : Bytes} {precond : Precond} {k : S3Op.Ans (.put_object pkey body precond) → Calls CasError CasSuccess}
    (hkey : Apart pkey) (hs : Addressed env s) (hF : CollisionFree env t)
    (hpath : Prog.Path (answers env client) (Meanwhile env) s (cas_publish_inner env pkey ps limits ws c threshold) t
      (.call (.put_object pkey body precond) k)) :
    ∃ refs observed m, snapshot_workspace_state ws = .ok (refs, observed) ∧
      Composed env ps limits ws (resolve_published_head refs observed ps.parent.head) refs t m ∧
      m.validate = .ok () ∧ body = pointer_body env m ∧ t.object (manifest_key env m) = some m.canonical_bytes := by
  obtain ⟨hsF, hpath⟩ := path_within hpath (.refl t)
  have hbase : Base env t s := ⟨hsF, hs⟩
  have hothers : ∀ u v, Meanwhile env u v ∧ Before v t → Base env t u → Before u v ∧ Base env t v :=
    fun u v h _ => ⟨h.1.1, h.2, h.1.2⟩
  rw [cas_publish_inner] at hpath
  cases hsnap : snapshot_workspace_state ws with
  | error e =>
    rw [hsnap] at hpath
    cases hpath.of_done
  | ok rh =>
    obtain ⟨refs, observed⟩ := rh
    rw [hsnap] at hpath
    rcases Prog.Path.of_bind (p := compose env c threshold ps limits ws
      (resolve_published_head refs observed ps.parent.head) refs) hpath with ⟨k', hk'⟩ | ⟨m, u, hu, hcommit⟩
    · exact absurd rfl (hk'.only (only_compose hkey c threshold ps limits ws _ refs)).1
    obtain ⟨hub, hcomposed⟩ := Prog.Assures.path (C := keeping env t) hothers hbase
      (ensures_compose hF keeping_stores hkey hbase) hu
    have hcomposed := hcomposed u (.refl u) hub m rfl
    rw [commit] at hcommit
    cases hvalid : m.validate with
    | error e =>
      rw [hvalid] at hcommit
      cases hcommit.of_done
    | ok _ =>
      rw [hvalid] at hcommit
      rcases Prog.Path.of_bind (p := (put_manifest env m.canonical_bytes).mapError CasError.Backend) hcommit with
        ⟨k', hk'⟩ | ⟨key, v, hv, hswap⟩
      · exact absurd rfl (hk'.only (only_put_immutable (hkey.manifests _)).mapError).1
      obtain ⟨hvb, hput⟩ := Prog.Assures.path (C := keeping env t) hothers hub
        (ensures_put_manifest m hkey hF keeping_stores).mapError hv
      obtain ⟨rfl, hstored⟩ := hput v (.refl v) hvb key rfl
      simp only [digest_from_content_key] at hswap
      rcases Prog.Path.of_bind (p := (put_pointer pkey (pointer_body env m) (precond_of ps)).mapError CasError.Backend)
        hswap with ⟨k', hk'⟩ | ⟨o, w, hw, hafter⟩
      · obtain ⟨k'', hk''⟩ := hk'.of_mapError
        obtain ⟨rfl, htb, hvt⟩ := put_pointer_of_path (I := fun w => Base env t w ∧ Before v w)
          (fun a b hab h => ⟨(hothers a b hab h.1).2, h.2.trans hab.1.1⟩) ⟨hvb, .refl v⟩ hk''
        refine ⟨refs, observed, m, rfl, ?_, hvalid, rfl, hvb.object_later hF htb hvt (.inl rfl) hstored⟩
        exact hcomposed.later hF hub htb hub.before
      · cases o with
        | Won tag => cases hafter.of_done
        | LostRace => exact absurd rfl (hafter.only ((only_read_winner env pkey).bind (fun _ => trivial))).1

/-! ## What can be cloned -/

/-- A clone reads the manifest, and its head is one of its branches when it has any. -/
def Cloneable (env : Env) (pkey : String) (b : Bucket) (m : Manifest) : Prop :=
  (load_pointer env pkey).eval (serve env b) = .ok (some (env.etag (pointer_body env m), digest env m, m)) ∧
    ((∃ name ∈ m.refs.keys, starts_with "refs/heads/" name = true) → is_published_branch m.refs m.head = true)

theorem contains_key_iff (refs : Refs) (name : String) : refs.contains_key name = true ↔ name ∈ refs.keys := by
  rw [Refs.contains_key, lookup, Option.isSome_map, lookupBy_isSome]
  rfl

/-- The head a push publishes is a branch when there is one. -/
theorem resolve_published_head_branch {refs : Refs} {name : String} (hmem : name ∈ refs.keys)
    (hname : starts_with "refs/heads/" name = true) (observed parent : String) :
    is_published_branch refs (resolve_published_head refs observed parent) = true := by
  rw [resolve_published_head]
  split
  · assumption
  split
  · assumption
  split
  · next h => rw [is_published_branch, h]; decide
  split
  · next h => rw [is_published_branch, h]; decide
  split
  · next branch hfind =>
    rw [is_published_branch, List.find?_some hfind, Bool.true_and, contains_key_iff]
    exact List.mem_of_find?_eq_some hfind
  · next hfind => exact absurd hname (List.find?_eq_none.1 hfind name hmem)

/-- A stored manifest with a good head can be cloned when it is within the bound. -/
theorem cloneable_of_stored {b : Bucket} {m : Manifest} (hm : WellFormed m)
    (hpointer : b.object pkey = some (pointer_body env m))
    (hstored : b.object (manifest_key env m) = some m.canonical_bytes)
    (hhead : ∀ name ∈ m.refs.keys, starts_with "refs/heads/" name = true → is_published_branch m.refs m.head = true) :
    Cloneable env pkey b m ↔ manifest_size m.head m.refs m.packs.length m.parent ≤ MAX_MANIFEST_BYTES := by
  rw [← Manifest.size_canonical_bytes hm.version hm.packs hm.valid, Cloneable, eval_load_pointer hpointer hstored hm]
  constructor
  · intro h
    by_contra hlarge
    rw [if_pos (Nat.lt_of_not_le hlarge)] at h
    cases h.1
  · intro hsize
    refine ⟨if_neg (Nat.not_lt.2 hsize), ?_⟩
    rintro ⟨name, hmem, hname⟩
    exact hhead name hmem hname

end

section
variable (env : Env)

/-- The calls of a commit, each answered with a success. -/
theorem commit_calls (pkey : String) {m : Manifest} (hvalid : m.validate = .ok ()) :
    ∃ (k : S3Op.Ans (.put_object (manifest_key env m) m.canonical_bytes .IfNoneMatchStar) → Calls CasError CasSuccess)
      (k' : S3Op.Ans (.put_object pkey (pointer_body env m) .IfNoneMatchStar) → Calls CasError CasSuccess),
      commit env pkey .fresh m = .call (.put_object (manifest_key env m) m.canonical_bytes .IfNoneMatchStar) k ∧
      k (Except.ok ⟨200, none⟩) = .call (.put_object pkey (pointer_body env m) .IfNoneMatchStar) k' := by
  rw [commit, hvalid]
  refine ⟨_, ?_, rfl, ?_⟩
  rotate_left
  · have hput : classify_put (content_key env "manifests" m.canonical_bytes) (.ok ⟨200, none⟩) =
        .ok (content_key env "manifests" m.canonical_bytes) := rfl
    simp only [hput, Prog.mapError, Prog.bind_eq, Prog.bind, digest_from_content_key]
    rfl

/-- A push to a new repository stores its pack and then commits. -/
theorem cas_publish_new (pkey : String) (limits : PublishLimits) (c : Compaction) {ws : Workspace} {refs : Refs}
    {observed : String} {bytes : Bytes} {total : Nat} {e : CasError}
    (hsnap : snapshot_workspace_state ws = .ok (refs, observed))
    (hpack : capture_pack ws .new refs limits.max_pack_bytes = .ok (some bytes))
    (hbytes : checkedAdd limits.parent_hydrated_bytes bytes.size = some total) (htotal : ¬ limits.max_repo_bytes < total)
    (hindex : ws.index_pack bytes = .error e) :
    ∃ k : S3Op.Ans (.put_object (content_key env "packs" bytes) bytes .IfNoneMatchStar) → Calls CasError CasSuccess,
      cas_publish_inner env pkey .fresh limits ws c PACK_COMPACTION_THRESHOLD =
        .call (.put_object (content_key env "packs" bytes) bytes .IfNoneMatchStar) k ∧
      k (Except.ok ⟨200, none⟩) = commit env pkey .fresh (compose_after ParentState.fresh.parent none
        (resolve_published_head refs observed "") refs (some (content_key env "packs" bytes))) := by
  have hno : should_compact 0 PACK_COMPACTION_THRESHOLD = false := by decide
  -- the index cannot be made, which does not stop the push
  have hidx : ∃ r, (write_idx_sidecar ws (content_key env "packs" bytes) bytes).attempt (F := CasError) =
      .done (.ok r) := by
    rw [write_idx_sidecar, hindex]
    cases digest_from_pack_key (content_key env "packs" bytes) with
    | error e => exact ⟨_, rfl⟩
    | ok d => exact ⟨_, rfl⟩
  rw [cas_publish_inner, hsnap]
  simp only [Prog.bind_eq, Prog.bind, ParentState.fresh, compose, List.length_nil, hno, Bool.false_eq_true, ↓reduceIte,
    publish_delta, hpack, hbytes]
  rw [if_neg (by decide), if_neg htotal]
  refine ⟨_, rfl, ?_⟩
  obtain ⟨r, hr⟩ := hidx
  have hput : classify_put (content_key env "packs" bytes) (.ok ⟨200, none⟩) = .ok (content_key env "packs" bytes) := rfl
  simp only [hput, Prog.mapError, Prog.bind, hr, Prog.pure_eq]

/-- The bucket with the pack and the manifest of a push. -/
def new_bucket (bytes : Bytes) (m : Manifest) : Bucket :=
  let packed := (Bucket.empty.send bytes).write 0 (content_key env "packs" bytes) bytes
  (packed.send m.canonical_bytes).write 0 (manifest_key env m) m.canonical_bytes

/-- Nothing fails on the way to the pointer. -/
theorem new_path (others : Bucket → Bucket → Prop) (pkey : String) (limits : PublishLimits) (c : Compaction)
    {ws : Workspace} {bytes : Bytes} {m : Manifest} (hvalid : m.validate = .ok ())
    (hpublish : ∃ k : S3Op.Ans (.put_object (content_key env "packs" bytes) bytes .IfNoneMatchStar) → Calls CasError CasSuccess,
      cas_publish_inner env pkey .fresh limits ws c PACK_COMPACTION_THRESHOLD =
        .call (.put_object (content_key env "packs" bytes) bytes .IfNoneMatchStar) k ∧
      k (Except.ok ⟨200, none⟩) = commit env pkey .fresh m) :
    ∃ k, Prog.Path (answers env 0) others .empty
      (cas_publish_inner env pkey .fresh limits ws c PACK_COMPACTION_THRESHOLD) (new_bucket env bytes m)
      (.call (.put_object pkey (pointer_body env m) .IfNoneMatchStar) k) := by
  obtain ⟨k, hpublish, hk⟩ := hpublish
  obtain ⟨k', k'', hcommit, hk'⟩ := commit_calls env pkey hvalid
  have hne : manifest_key env m ≠ content_key env "packs" bytes := by
    intro heq
    have hlist := congrArg String.toList heq
    simp [manifest_key, content_key] at hlist
  refine ⟨k'', ?_⟩
  rw [hpublish]
  refine .step (PutAnswer.accepted (r := ⟨200, none⟩) rfl) ?_
  rw [hk, hcommit, ← hk']
  refine .step (PutAnswer.accepted ?_) .here
  rw [Bucket.object_write_ne _ _ _ hne]
  rfl

/-- A push of a workspace without refs to a new repository is about to name the empty manifest. -/
theorem nothing_path {ws : Workspace} (hsnap : snapshot_workspace_state ws = .ok (.new, "refs/heads/main")) (pkey : String)
    (limits : PublishLimits) (c : Compaction) :
    ∃ k, Prog.Path (answers env 0) (Meanwhile env) .empty
      (cas_publish_inner env pkey .fresh limits ws c PACK_COMPACTION_THRESHOLD)
      ((Bucket.empty.send empty_manifest.canonical_bytes).write 0 (manifest_key env empty_manifest) empty_manifest.canonical_bytes)
      (.call (.put_object pkey (pointer_body env empty_manifest) .IfNoneMatchStar) k) := by
  obtain ⟨k, k', hcommit, hk⟩ := commit_calls env pkey empty_manifest_wellFormed.valid
  refine ⟨k', ?_⟩
  rw [cas_publish_nothing env hsnap, hcommit, ← hk]
  exact .step (PutAnswer.accepted rfl) .here

end

/-- The short digest does not collide on bodies whose sizes differ. -/
theorem small_collisionFree {F : Bucket} (h : (F.sent.map (fun b => UInt8.ofNat b.size)).Nodup) : CollisionFree .small F := by
  intro a ha b hb heq
  have hsize : UInt8.ofNat a.size = UInt8.ofNat b.size := by
    simp only [Env.small] at heq
    exact List.replicate_right_injective (by decide) heq
  exact List.inj_on_of_nodup_map h ha hb hsize

/-- A ref as `for-each-ref` lists it. -/
def ref_line (e : String × String) : List Char := e.1.toList ++ ' ' :: e.2.toList

def listing (entries : List (String × String)) : List Char := entries.flatMap (fun e => ref_line e ++ ['\n'])

theorem lines_from_append {line acc : List Char} (h : '\n' ∉ line) (rest : List Char) :
    lines_from acc (line ++ '\n' :: rest) = lines_from (line.reverse ++ acc) ('\n' :: rest) := by
  induction line generalizing acc with
  | nil => rfl
  | cons c line ih =>
    have hc : c ≠ '\n' := fun heq => h (by simp [heq])
    rw [List.cons_append, lines_from, if_neg hc, ih (fun hmem => h (List.mem_cons_of_mem _ hmem)), List.reverse_cons,
      List.append_assoc]
    rfl

/-- An entry that reads as one line with a name and an object id. -/
structure Listed (e : String × String) : Prop where
  name : ∀ c ∈ e.1.toList, c ≠ '\n' ∧ c ≠ ' '
  oid : e.2.utf8ByteSize = 40
  hex : e.2.toList.all is_ascii_hexdigit = true

/-- An entry that reads as one line. -/
structure OneLine (e : String × String) : Prop where
  name : ∀ c ∈ e.1.toList, c ≠ '\n' ∧ c ≠ ' '
  oid : e.2.utf8ByteSize ≠ 0
  hex : e.2.toList.all is_ascii_hexdigit = true

theorem Listed.oneLine {e : String × String} (h : Listed e) : OneLine e := ⟨h.name, by rw [h.oid]; decide, h.hex⟩

theorem OneLine.line {e : String × String} (h : OneLine e) : '\n' ∉ ref_line e ∧ '\r' ∉ e.2.toList := by
  have hhex : ∀ c, is_ascii_hexdigit c = false → c ∉ e.2.toList := by
    intro c hc hmem
    rw [List.all_eq_true.1 h.hex c hmem] at hc
    cases hc
  refine ⟨fun hmem => ?_, hhex _ (by decide)⟩
  rw [ref_line, List.mem_append, List.mem_cons] at hmem
  rcases hmem with hmem | hmem | hmem
  · exact (h.name _ hmem).1 rfl
  · cases hmem
  · exact hhex _ (by decide) hmem

theorem lines_listing {entries : List (String × String)} (h : ∀ e ∈ entries, OneLine e) :
    lines_from [] (listing entries) = entries.map ref_line := by
  induction entries with
  | nil => rfl
  | cons e entries ih =>
    have he := h e List.mem_cons_self
    have hne : e.2.toList ≠ [] := by
      intro hnil
      refine he.oid ?_
      rw [← text_size_toList, hnil]
      rfl
    have hlast : ¬ ((ref_line e).reverse ++ []).head? = some '\r' := by
      rw [List.append_nil, List.head?_reverse, ref_line, List.getLast?_append_of_ne_nil _ (by simp),
        List.getLast?_cons_of_ne_nil hne]
      exact fun hr => he.line.2 (List.mem_of_getLast? hr)
    rw [listing, List.flatMap_cons, List.append_assoc, List.singleton_append, lines_from_append he.line.1, lines_from,
      if_pos rfl, if_neg hlast, List.append_nil, List.reverse_reverse, List.map_cons, ← listing,
      ih (fun e he => h e (List.mem_cons_of_mem _ he))]

theorem split_space_line {e : String × String} (h : OneLine e) : split_space (ref_line e) = some (e.1.toList, e.2.toList) := by
  have hname : ∀ c ∈ e.1.toList, decide (c ≠ ' ') = true := fun c hc => decide_eq_true (h.name c hc).2
  rw [split_space, ref_line, if_pos (by simp), List.takeWhile_append_of_pos hname, List.dropWhile_append_of_pos hname]
  simp

/-- Entries in key order are read as they stand. -/
theorem read_refs_lines {entries : List (String × String)} (hentries : ∀ e ∈ entries, Listed e) {r r' : Refs}
    (hr : r'.entries = r.entries ++ entries) (hlen : r'.len ≤ MAX_MANIFEST_REFS) :
    read_refs r (entries.map ref_line) = .ok r' := by
  induction entries generalizing r with
  | nil =>
    obtain ⟨l, hl⟩ := r
    obtain ⟨l', hl'⟩ := r'
    rw [List.append_nil] at hr
    cases hr
    rfl
  | cons e entries ih =>
    have he := hentries e List.mem_cons_self
    have hlt : ∀ f ∈ r.entries, f.1 < e.1 := by
      intro f hf
      have hsorted := r'.sorted
      rw [hr, Sorted, List.map_append, List.pairwise_append] at hsorted
      exact hsorted.2.2 f.1 (List.mem_map_of_mem hf) e.1 (by simp)
    have hins : (r.insert e.1 e.2).entries = r.entries ++ [e] := Refs.upsert_last hlt
    have hroom : ¬ MAX_MANIFEST_REFS ≤ r.len := by
      rw [Refs.len, hr, List.length_append, List.length_cons] at hlen
      rw [Refs.len]
      omega
    rw [List.map_cons, read_refs, split_space_line he.oneLine]
    simp only [String.ofList_toList, he.oid, he.hex, hroom, decide_false, Bool.false_and, ne_eq, not_true_eq_false,
      Bool.not_true, Bool.or_false, Bool.false_eq_true, ↓reduceIte]
    refine ih (fun e he => hentries e (List.mem_cons_of_mem _ he)) ?_
    rw [hr, hins, List.append_assoc]
    rfl

/-- A workspace that lists these refs has them. -/
theorem snapshot_listing {ws : Workspace} {refs : Refs} {head : Option String}
    (hlist : ws.for_each_ref = .ok (String.ofList (listing refs.entries)).toByteArray)
    (hhead : ws.symbolic_ref = .ok head) (hrefs : ∀ e ∈ refs.entries, Listed e) (hlen : refs.len ≤ MAX_MANIFEST_REFS)
    (hsize : text_size (listing refs.entries) ≤ MAX_REF_SNAPSHOT_BYTES) :
    snapshot_workspace_state ws = .ok (refs, trim (head.getD "")) := by
  have hread : read_refs .new (lines (String.ofList (listing refs.entries))) = .ok refs := by
    rw [lines, String.toList_ofList, lines_listing (fun e he => (hrefs e he).oneLine)]
    exact read_refs_lines hrefs rfl hlen
  have hbytes : ¬ MAX_REF_SNAPSHOT_BYTES < (String.ofList (listing refs.entries)).toByteArray.size := Nat.not_lt.2 hsize
  rw [snapshot_workspace_state, hlist, hhead]
  simp only [bind, Except.bind, if_neg hbytes, fromUTF8_toByteArray, Option.getD_some, hread]
  rfl

/-! ## A push that cannot be cloned -/

/-- The words of a length. -/
def words (alphabet : List Char) : Nat → List (List Char)
  | 0 => [[]]
  | n + 1 => alphabet.flatMap (fun c => (words alphabet n).map (c :: ·))

theorem mem_words {alphabet : List Char} {n : Nat} {w : List Char} :
    w ∈ words alphabet n ↔ w.length = n ∧ ∀ c ∈ w, c ∈ alphabet := by
  induction n generalizing w with
  | zero =>
    rw [words, List.mem_singleton, List.length_eq_zero_iff]
    refine ⟨fun h => ⟨h, fun c hc => ?_⟩, fun h => h.1⟩
    rw [h] at hc
    cases hc
  | succ n ih =>
    rw [words, List.mem_flatMap]
    constructor
    · rintro ⟨c, hc, hw⟩
      obtain ⟨v, hv, rfl⟩ := List.mem_map.1 hw
      obtain ⟨hlen, hall⟩ := ih.1 hv
      exact ⟨by rw [List.length_cons, hlen], List.forall_mem_cons.2 ⟨hc, hall⟩⟩
    · rintro ⟨hlen, hall⟩
      cases w with
      | nil => cases hlen
      | cons c w =>
        obtain ⟨hc, hall⟩ := List.forall_mem_cons.1 hall
        exact ⟨c, hc, List.mem_map_of_mem (ih.2 ⟨Nat.succ.inj hlen, hall⟩)⟩

/-- The words over an alphabet in order are in order. -/
theorem sorted_words {alphabet : List Char} (h : alphabet.Pairwise (· < ·)) (n : Nat) :
    (words alphabet n).Pairwise (· < ·) := by
  induction n with
  | zero => exact List.pairwise_singleton _ _
  | succ n ih =>
    rw [words, List.pairwise_flatMap]
    refine ⟨fun c _ => ?_, h.imp (fun {c d} hcd v hv w hw => ?_)⟩
    · rw [List.pairwise_map]
      exact ih.imp (fun hvw => List.cons_lt_cons_self.2 hvw)
    · obtain ⟨v', -, rfl⟩ := List.mem_map.1 hv
      obtain ⟨w', -, rfl⟩ := List.mem_map.1 hw
      exact List.Lex.rel hcd

theorem length_words (alphabet : List Char) (n : Nat) :
    (words alphabet (n + 1)).length = alphabet.length * (words alphabet n).length := by
  simp [words, List.length_flatMap]

theorem text_size_flatMap {α : Type} {f : α → List Char} {n : Nat} {l : List α} (h : ∀ a ∈ l, text_size (f a) = n) :
    text_size (l.flatMap f) = l.length * n := by
  induction l with
  | nil => simp
  | cons a l ih =>
    rw [List.flatMap_cons, text_size_append, h a List.mem_cons_self, ih (fun b hb => h b (List.mem_cons_of_mem _ hb)),
      List.length_cons, Nat.add_mul, Nat.one_mul, Nat.add_comm]

theorem joined_size_replicate (n m : Nat) : joined_size (List.replicate (n + 1) m) = n * (m + 1) + m := by
  induction n with
  | zero => simp [joined_size]
  | succ n ih =>
    rw [List.replicate_succ, List.replicate_succ, joined_size, ← List.replicate_succ, ih]
    rw [Nat.add_mul, Nat.one_mul]
    omega

/-- Ten thousand branches with names of 376 characters. -/
def wide_start : List Char := "refs/heads/".toList ++ List.replicate 180 'a' ++ '/' :: List.replicate 180 'b'

def digits : List Char := ['0', '1', '2', '3', '4', '5', '6', '7', '8', '9']

def wide_entry (w : List Char) : String × String :=
  (String.ofList (wide_start ++ w), String.ofList (List.replicate 40 '1'))

@[irreducible] def wide_refs : Refs where
  entries := (words digits 4).map wide_entry
  sorted := by
    rw [Sorted, List.map_map, List.pairwise_map]
    refine (sorted_words (by decide) 4).imp (fun hvw => ?_)
    rw [String.lt_iff_toList_lt, Function.comp_apply, Function.comp_apply, wide_entry, wide_entry, String.toList_ofList,
      String.toList_ofList]
    exact List.append_left_lt hvw

theorem wide_refs_len : wide_refs.len = 10000 := by
  rw [Refs.len, wide_refs, List.length_map, length_words, length_words, length_words, length_words]
  rfl

/-- Every name is the start and four digits. -/
theorem wide_refs_mem {e : String × String} (he : e ∈ wide_refs.entries) :
    ∃ w : List Char, e = wide_entry w ∧ w.length = 4 ∧ ∀ c ∈ w, c ∈ digits := by
  rw [wide_refs] at he
  obtain ⟨w, hw, rfl⟩ := List.mem_map.1 he
  exact ⟨w, rfl, mem_words.1 hw⟩

/-- What is computed of the start of the names. -/
theorem wide_start_facts : wide_start.length = 372 ∧
    wide_start.all (fun c => is_ref_char c = true ∧ c.toNat < 128) = true ∧
    wide_start = ("refs/heads/".toList ++ List.replicate 180 'a' ++ '/' :: List.replicate 179 'b') ++ ['b'] ∧
    wide_start.head? = some 'r' ∧ contains_pair '.' '.' wide_start = false ∧ contains_pair '/' '/' wide_start = false ∧
    "refs/".toList.isPrefixOf wide_start = true ∧ "refs/heads/".toList.isPrefixOf wide_start = true ∧
    (wide_entry []).2.utf8ByteSize = 40 ∧ (wide_entry []).2.toList.all is_ascii_hexdigit = true := by
  decide +kernel

theorem wide_name_chars {w : List Char} (hw : ∀ c ∈ w, c ∈ digits) :
    ∀ c ∈ wide_start ++ w, is_ref_char c = true ∧ c.toNat < 128 := by
  obtain ⟨-, hstart, -⟩ := wide_start_facts
  have hdigits : digits.all (fun c => is_ref_char c = true ∧ c.toNat < 128) = true := by decide
  intro c hc
  rcases List.mem_append.1 hc with hc | hc
  · exact of_decide_eq_true (List.all_eq_true.1 hstart c hc)
  · exact of_decide_eq_true (List.all_eq_true.1 hdigits c (hw c hc))

theorem wide_name_size {w : List Char} (hlen : w.length = 4) (hw : ∀ c ∈ w, c ∈ digits) :
    (wide_entry w).1.utf8ByteSize = 376 := by
  rw [wide_entry, utf8ByteSize_of_ascii, String.toList_ofList, List.length_append, hlen, wide_start_facts.1]
  intro c hc
  rw [String.toList_ofList] at hc
  exact (wide_name_chars hw c hc).2

theorem wide_oid_facts : (wide_entry []).2.utf8ByteSize = 40 ∧ (wide_entry []).2.toList.all is_ascii_hexdigit = true := by
  obtain ⟨-, -, -, -, -, -, -, -, hoid⟩ := wide_start_facts
  exact hoid

theorem wide_listed {e : String × String} (he : e ∈ wide_refs.entries) : Listed e := by
  obtain ⟨w, rfl, hlen, hw⟩ := wide_refs_mem he
  refine ⟨fun c hc => ?_, wide_oid_facts.1, wide_oid_facts.2⟩
  rw [wide_entry, String.toList_ofList] at hc
  have hchar := (wide_name_chars hw c hc).1
  refine ⟨?_, ?_⟩
  · rintro rfl
    exact absurd hchar (by decide)
  · rintro rfl
    exact absurd hchar (by decide)

theorem contains_pair_append (a b c : Char) (l l' : List Char) :
    contains_pair a b (l ++ c :: l') = (contains_pair a b (l ++ [c]) || contains_pair a b (c :: l')) := by
  induction l with
  | nil => simp [contains_pair]
  | cons d l ih =>
    cases l with
    | nil => simp [contains_pair, Bool.or_comm]
    | cons e l =>
      simp only [List.cons_append, contains_pair] at ih ⊢
      rw [ih, Bool.or_assoc]

theorem contains_pair_of_notMem {a b : Char} {l : List Char} (h : a ∉ l) : contains_pair a b l = false := by
  induction l with
  | nil => rfl
  | cons c l ih =>
    have hrest := ih (fun hmem => h (List.mem_cons_of_mem _ hmem))
    have hc : (c == a) = false := beq_eq_false_iff_ne.2 (fun heq => h (by simp [heq]))
    cases l with
    | nil => rfl
    | cons d l => rw [contains_pair, hc, hrest, Bool.false_and, Bool.false_or]

theorem wide_name_safe {w : List Char} (hlen : w.length = 4) (hw : ∀ c ∈ w, c ∈ digits) :
    is_safe_refname (wide_entry w).1 = true := by
  obtain ⟨-, -, hsplit, hhead, hdots, hslashes, hrefs, -⟩ := wide_start_facts
  have hslash : ∀ a, a ∉ digits → a ≠ 'b' → a ∉ 'b' :: w := by
    intro a ha hb hmem
    rcases List.mem_cons.1 hmem with rfl | hmem
    · exact hb rfl
    · exact ha (hw a hmem)
  have hpair : ∀ a, a ∉ digits → a ≠ 'b' → contains_pair a a wide_start = false →
      contains_pair a a (wide_start ++ w) = false := by
    intro a ha hb hstart
    rw [hsplit] at hstart ⊢
    rw [List.append_assoc, List.singleton_append, contains_pair_append, hstart,
      contains_pair_of_notMem (hslash a ha hb), Bool.false_or]
  have hlast : (wide_start ++ w).getLast? ≠ some '/' := by
    have hne : w ≠ [] := by
      rintro rfl
      cases hlen
    rw [List.getLast?_append_of_ne_nil _ hne]
    exact fun heq => absurd (hw _ (List.mem_of_getLast? heq)) (by decide)
  rw [is_safe_refname, wide_entry]
  simp only [String.toList_ofList, Bool.and_eq_true, Bool.not_eq_true', bne_iff_ne]
  refine ⟨⟨⟨⟨⟨?_, hpair '.' (by decide) (by decide) hdots⟩, hpair '/' (by decide) (by decide) hslashes⟩,
    ?_⟩, hlast⟩, ?_⟩
  · rw [List.isPrefixOf_iff_prefix]
    exact List.IsPrefix.trans (List.isPrefixOf_iff_prefix.1 hrefs) (List.prefix_append wide_start w)
  · rw [List.head?_append, hhead, Option.some_or]
    decide
  · exact List.all_eq_true.2 (fun c hc => (wide_name_chars hw c hc).1)

def wide_pack : Bytes := "PACK".toByteArray

/-- The workspace with these branches. Their objects are in one pack. -/
def Workspace.wide : Workspace :=
  ⟨.ok (String.ofList (listing wide_refs.entries)).toByteArray, .ok none, fun _ _ => .ok wide_pack, .ok "",
    fun _ _ => .ok [], fun _ => .error (.PackCapture "index-pack")⟩

theorem listing_wide_size : text_size (listing wide_refs.entries) = 4180000 := by
  rw [listing, text_size_flatMap (n := 418), ← Refs.len, wide_refs_len]
  intro e he
  obtain ⟨w, rfl, hlen, hw⟩ := wide_refs_mem he
  have hname := wide_name_size hlen hw
  have hoid : (wide_entry w).2.utf8ByteSize = 40 := wide_oid_facts.1
  have hspace : text_size [' '] = 1 := rfl
  have hfeed : text_size ['\n'] = 1 := rfl
  rw [ref_line, text_size_append, text_size_append, text_size_cons, text_size_toList, text_size_toList, hname, hoid, hspace,
    hfeed]

theorem snapshot_wide : snapshot_workspace_state .wide = .ok (wide_refs, "") := by
  have hlist : Workspace.wide.for_each_ref = .ok (String.ofList (listing wide_refs.entries)).toByteArray := rfl
  have hhead : Workspace.wide.symbolic_ref = .ok none := rfl
  have hlen : wide_refs.len ≤ MAX_MANIFEST_REFS := le_of_eq wide_refs_len
  have hsize : text_size (listing wide_refs.entries) ≤ MAX_REF_SNAPSHOT_BYTES := by
    rw [listing_wide_size]
    decide
  have htrim : trim ((none : Option String).getD "") = "" := by decide
  rw [snapshot_listing hlist hhead (fun _ he => wide_listed he) hlen hsize, htrim]

def wide_head : String := resolve_published_head wide_refs "" ""

def wide_manifest (env : Env) : Manifest :=
  compose_after ParentState.fresh.parent none wide_head wide_refs (some (content_key env "packs" wide_pack))

/-- The first of the names. -/
def wide_first : List Char := ['0', '0', '0', '0']

theorem wide_entry_mem : wide_entry wide_first ∈ wide_refs.entries := by
  have hall : wide_first.all (fun c => c ∈ digits) = true := by decide
  rw [wide_refs]
  exact List.mem_map_of_mem (mem_words.2 ⟨rfl, fun c hc => of_decide_eq_true (List.all_eq_true.1 hall c hc)⟩)

theorem wide_entry_branch : starts_with "refs/heads/" (wide_entry wide_first).1 = true := by
  obtain ⟨-, -, -, -, -, -, -, hstart, -⟩ := wide_start_facts
  simp only [starts_with, wide_entry, String.toList_ofList]
  exact List.isPrefixOf_iff_prefix.2 ((List.isPrefixOf_iff_prefix.1 hstart).trans (List.prefix_append _ _))

theorem wide_head_branch : is_published_branch wide_refs wide_head = true := by
  have hmem : (wide_entry wide_first).1 ∈ wide_refs.keys := List.mem_map_of_mem wide_entry_mem
  rw [wide_head]
  exact resolve_published_head_branch hmem wide_entry_branch _ _

theorem wide_head_mem : ∃ e ∈ wide_refs.entries, e.1 = wide_head := by
  have hbranch := wide_head_branch
  rw [is_published_branch, Bool.and_eq_true, contains_key_iff] at hbranch
  exact List.mem_map.1 hbranch.2

theorem wide_manifest_fields (env : Env) : (wide_manifest env).version = MANIFEST_VERSION ∧
    (wide_manifest env).head = wide_head ∧ (wide_manifest env).refs = wide_refs ∧ (wide_manifest env).parent = none := by
  simp only [wide_manifest, compose_after, and_self]

theorem wide_manifest_packs (env : Env) : (wide_manifest env).packs = [content_key env "packs" wide_pack] := by
  simp only [wide_manifest, compose_after, ParentState.fresh, List.not_mem_nil, if_false, List.nil_append]
  rfl

theorem wide_manifest_wellFormed (env : Env) : WellFormed (wide_manifest env) := by
  obtain ⟨hversion, hhead, hrefs, hparent⟩ := wide_manifest_fields env
  refine ⟨hversion, sorted_sort_dedup _, Manifest.validate_ok.2 ⟨?_, ?_, ?_, fun e he => ?_, fun p hp => ?_, fun d hd => ?_⟩⟩
  · rw [wide_manifest_packs]
    exact (by decide : 1 ≤ MAX_MANIFEST_PACKS)
  · rw [hrefs]
    exact le_of_eq wide_refs_len
  · obtain ⟨e, he, hmem⟩ := wide_head_mem
    obtain ⟨w, rfl, hlen, hw⟩ := wide_refs_mem he
    rw [hhead, ← hmem]
    exact wide_name_safe hlen hw
  · rw [hrefs] at he
    obtain ⟨w, rfl, hlen, hw⟩ := wide_refs_mem he
    refine ⟨wide_name_safe hlen hw, ?_⟩
    have hoid : (wide_entry w).2.utf8ByteSize = 40 := wide_oid_facts.1
    have hhex : (wide_entry w).2.toList.all is_ascii_hexdigit = true := wide_oid_facts.2
    rw [is_hex_oid, hoid, hhex]
    rfl
  · rw [wide_manifest_packs, List.mem_singleton] at hp
    rw [hp, content_key_packs, is_pack_key, strip_prefix_append]
    exact is_manifest_digest_sha256_hex _
  · rw [hparent] at hd
    cases hd

/-- The text is longer than the listing was. -/
theorem wide_manifest_size (env : Env) : manifest_size (wide_manifest env).head (wide_manifest env).refs
    (wide_manifest env).packs.length (wide_manifest env).parent = 4220505 := by
  have hsizes : wide_refs.entries.map (fun e => e.1.utf8ByteSize + e.2.utf8ByteSize + 5) = List.replicate (9999 + 1) 421 := by
    rw [List.eq_replicate_iff]
    refine ⟨by rw [List.length_map, ← Refs.len, wide_refs_len], fun n hn => ?_⟩
    obtain ⟨e, he, rfl⟩ := List.mem_map.1 hn
    obtain ⟨w, rfl, hlen, hw⟩ := wide_refs_mem he
    have hoid : (wide_entry w).2.utf8ByteSize = 40 := wide_oid_facts.1
    rw [wide_name_size hlen hw, hoid]
  have hhead : wide_head.utf8ByteSize = 376 := by
    obtain ⟨e, he, hhead⟩ := wide_head_mem
    obtain ⟨w, rfl, hlen, hw⟩ := wide_refs_mem he
    rw [← hhead, wide_name_size hlen hw]
  obtain ⟨-, hname, hrefs, hparent⟩ := wide_manifest_fields env
  rw [manifest_size, wide_manifest_packs, hname, hrefs, hparent, hsizes, hhead, joined_size_replicate]
  rfl

theorem capture_wide : capture_pack .wide .new wide_refs 100 = .ok (some wide_pack) := by
  have hne : wide_refs.values ≠ [] := by
    intro hnil
    have hlen := wide_refs_len
    rw [Refs.len, ← List.length_map (f := Prod.snd), ← Refs.values, hnil] at hlen
    cases hlen
  rw [capture_pack, if_neg hne]
  rfl

/-- The bucket when the pointer is about to be written. -/
def wide_bucket (env : Env) : Bucket := new_bucket env wide_pack (wide_manifest env)

theorem wide_path (env : Env) (pkey : String) (c : Compaction) :
    ∃ k, Prog.Path (answers env 0) (Meanwhile env) .empty
      (cas_publish_inner env pkey .fresh ⟨0, 100, 100⟩ .wide c PACK_COMPACTION_THRESHOLD) (wide_bucket env)
      (.call (.put_object pkey (pointer_body env (wide_manifest env)) .IfNoneMatchStar) k) := by
  have hbytes : checkedAdd 0 wide_pack.size = some 4 := by decide
  refine new_path env (Meanwhile env) pkey ⟨0, 100, 100⟩ c (wide_manifest_wellFormed env).valid ?_
  rw [wide_manifest, wide_head]
  exact cas_publish_new env pkey ⟨0, 100, 100⟩ c snapshot_wide capture_wide hbytes (by decide) rfl

theorem wide_collisionFree : CollisionFree .small (wide_bucket .small) := by
  have hwf := wide_manifest_wellFormed .small
  have hsize : (wide_manifest .small).canonical_bytes.size = 4220505 := by
    rw [Manifest.size_canonical_bytes hwf.version hwf.packs hwf.valid, wide_manifest_size]
  refine small_collisionFree ?_
  simp only [wide_bucket, new_bucket, Bucket.send, Bucket.write, Bucket.empty, List.nil_append, List.singleton_append,
    List.map_cons, List.map_nil, hsize]
  decide

end Ambush.Git

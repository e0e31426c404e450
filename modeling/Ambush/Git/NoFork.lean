import Ambush.Git.Invariant
import Ambush.Lib.Chains
/-!
# One chain of manifests

In every interleaving of pushes and announcements the manifests that the pointer came to name
form one chain. Each client is shown to keep its contract by itself: it reads a manifest of the
chain, composes one whose parent that is, and the conditional write lets it in only while the
parent is still the last. The ETag compares contents; that no digest comes twice follows from
the links, since a chain starts where there is no parent.
-/
open Lib

namespace Ambush.Git
open Relay (CommunityId)

section
variable {env : Env} {F s t : Bucket} {pkey : String} {K : Bucket → Manifest → Prop} {client : Nat}

/-! ## Hydration -/

theorem ensures_head (key : String) (max_bytes : Nat) :
    Prog.Ensures (answers_within env F client) (quiet env F pkey K client)
      (.call (.head_object key) (fun x => .done (check_head key max_bytes x))) (fun _ _ => True) s := by
  intro t _ ht x u hans
  obtain ⟨⟨-, rfl⟩, -⟩ := hans
  exact ⟨ht, (quiet_read ht).2, fun _ _ _ _ _ => trivial⟩

theorem ensures_get_limited {m : Manifest} {max_bytes : Nat} (hF : CollisionFree env F) (hK : Lasting env F K)
    (hs : Inv env F pkey K s) (hm : Was env pkey K s m) :
    Prog.Ensures (answers_within env F client) (quiet env F pkey K client) (get_limited (manifest_key env m) max_bytes)
      (fun bytes _ => bytes = m.canonical_bytes) s := by
  rw [get_limited]
  simp only [Prog.bind_eq]
  refine .bind hs (ensures_head _ _) (fun _ t hst ht _ => ?_)
  refine .bind ht (ensures_get hF ht (hm.later hF hK hs.1 ht.1 hst.1)) (fun bytes u _ _ hbytes => ?_)
  split
  · exact .fail
  · exact .pure (fun _ _ _ => hbytes)

theorem ensures_get_verified_limited {m : Manifest} {max_bytes : Nat} (hF : CollisionFree env F) (hK : Lasting env F K)
    (hs : Inv env F pkey K s) (hm : Was env pkey K s m) :
    Prog.Ensures (answers_within env F client) (quiet env F pkey K client)
      (get_verified_limited env (manifest_key env m) (digest env m) max_bytes)
      (fun bytes _ => bytes = m.canonical_bytes) s := by
  rw [get_verified_limited]
  simp only [Prog.bind_eq]
  refine .bind hs (ensures_get_limited hF hK hs hm) (fun bytes u _ _ hbytes => ?_)
  split
  · exact .fail
  · exact .pure (fun _ _ _ => hbytes)

theorem WellFormed.from_bytes {m : Manifest} (h : WellFormed m) : Manifest.from_bytes m.canonical_bytes = .ok m := by
  rw [Manifest.from_bytes_canonical_bytes h.version, sort_dedup_of_sorted h.packs]

/-- What the pointer names is the manifest it was set to. -/
theorem ensures_load_pointer (hF : CollisionFree env F) (hK : Lasting env F K) (hs : Inv env F pkey K s) :
    Prog.Ensures (answers_within env F client) (quiet env F pkey K client) (load_pointer env pkey)
      (fun o t => ∀ tag d m, o = some (tag, d, m) →
        Was env pkey K t m ∧ d = digest env m ∧ tag = env.etag (pointer_body env m)) s := by
  rw [load_pointer]
  simp only [Prog.bind_eq]
  refine .bind hs (ensures_get_pointer hF hK).mapError (fun o t _ ht ho => ?_)
  cases o with
  | none => exact .pure (fun _ _ _ tag d m h => by cases h)
  | some p =>
    obtain ⟨tag, body⟩ := p
    obtain ⟨m, hm, rfl, rfl⟩ := ho tag body rfl
    simp only [pointer_digest_body]
    rw [if_pos (show is_digest_text (digest env m) = true from is_digest_text_sha256_hex _)]
    refine .bind ht (ensures_get_verified_limited hF hK ht hm).mapError (fun bytes u htu hu hbytes => ?_)
    subst hbytes
    have hmu := hm.later hF hK ht.1 hu.1 htu.1
    rw [hm.wellFormed.from_bytes]
    refine .bind hu (.done (A := fun m' _ => m' = m) (fun m' _ h _ _ => (Except.ok.inj h).symm)) (fun m' v huv hv hm' => ?_)
    subst hm'
    refine .bind hv (.done (A := fun _ _ => True) (fun _ _ _ _ _ => trivial)) (fun _ w hvw hw _ => ?_)
    refine .pure (fun w' hww' hw' tag d m'' heq => ?_)
    cases heq
    have hbefore := (huv.1.trans hvw.1).trans hww'.1
    exact ⟨hmu.later hF hK hu.1 hw'.1 hbefore, rfl, rfl⟩

/-- What a push is hydrated from: nothing, or a manifest of the chain. -/
inductive Hydrated (env : Env) (pkey : String) (K : Bucket → Manifest → Prop) (s : Bucket) : ParentState → Prop
  | fresh : Hydrated env pkey K s .fresh
  | loaded {m : Manifest} (h : Was env pkey K s m) :
      Hydrated env pkey K s (.from_loaded (env.etag (pointer_body env m)) (digest env m) m)

theorem Hydrated.later (hF : CollisionFree env F) (hK : Lasting env F K) (hs : Base env F s) (ht : Base env F t)
    (hst : Before s t) {ps : ParentState} (h : Hydrated env pkey K s ps) : Hydrated env pkey K t ps := by
  cases h with
  | fresh => exact .fresh
  | loaded h => exact .loaded (h.later hF hK hs ht hst)

theorem ensures_hydrate_for_write {init_bare : Except HydrateError Unit} {materialize : Manifest → Except HydrateError Nat}
    (hF : CollisionFree env F) (hK : Lasting env F K) (hs : Inv env F pkey K s) :
    Prog.Ensures (answers_within env F client) (quiet env F pkey K client)
      (hydrate_for_write env pkey init_bare materialize) (fun r t => Hydrated env pkey K t r.2) s := by
  rw [hydrate_for_write]
  simp only [Prog.bind_eq]
  refine .bind hs (ensures_load_pointer hF hK hs) (fun o t _ ht ho => ?_)
  cases o with
  | none =>
    refine .bind ht (.done (A := fun _ _ => True) (fun _ _ _ _ _ => trivial)) (fun _ u _ _ _ => ?_)
    exact .pure (fun _ _ _ => .fresh)
  | some p =>
    obtain ⟨tag, d, m⟩ := p
    obtain ⟨hm, rfl, rfl⟩ := ho tag d m rfl
    refine .bind ht (.done (A := fun _ _ => True) (fun _ _ _ _ _ => trivial)) (fun _ u htu hu _ => ?_)
    exact .pure (fun v huv hv => .loaded (hm.later hF hK ht.1 hv.1 (htu.1.trans huv.1)))

/-! ## Packs -/

/-- How the manifest of a push is made up, with its new packs in the bucket. -/
inductive Composed (env : Env) (ps : ParentState) (limits : PublishLimits) (ws : Workspace) (head : String) (refs : Refs)
    (t : Bucket) : Manifest → Prop
  | unchanged (h : capture_pack ws ps.parent.refs refs limits.max_pack_bytes = .ok none) :
      Composed env ps limits ws head refs t (compose_after ps.parent ps.parent_digest head refs none)
  | delta {bytes : Bytes} (h : capture_pack ws ps.parent.refs refs limits.max_pack_bytes = .ok (some bytes))
      (hstored : t.object (content_key env "packs" bytes) = some bytes) :
      Composed env ps limits ws head refs t
        (compose_after ps.parent ps.parent_digest head refs (some (content_key env "packs" bytes)))
  | compacted {files : List PackFile} (h : capture_compacted_packs ws refs limits = .ok files)
      (hstored : ∀ f ∈ files, t.object (content_key env "packs" f.pack) = some f.pack) :
      Composed env ps limits ws head refs t (compose_compacted_after ps.parent_digest head refs
        (dedup (sort (files.map (fun f => content_key env "packs" f.pack)))))

section
variable {C : Prog.Contract Bucket}

theorem ensures_upload_compacted_pack {file : PackFile} (hF : CollisionFree env F)
    (hC : Stores env F pkey client C) (hkey : Apart pkey) (hs : C.Inv s) :
    Prog.Ensures (answers_within env F client) C (upload_compacted_pack env file)
      (fun key t => key = content_key env "packs" file.pack ∧ t.object key = some file.pack) s := by
  rw [upload_compacted_pack]
  simp only [Prog.bind_eq]
  refine .bind hs (ensures_put_immutable hF hC (.inr rfl) (hkey.packs _)).mapError (fun key t _ ht h => ?_)
  obtain ⟨rfl, hobj⟩ := h
  refine .bind ht (.done (A := fun _ _ => True) (fun _ _ _ _ _ => trivial)) (fun d u htu hu _ => ?_)
  have hobj' := hC.pack_later hF ht hu htu hobj
  cases file.idx with
  | none => exact .pure (fun v huv hv => ⟨rfl, hC.pack_later hF hu hv (C.rely_later huv) hobj'⟩)
  | some idx =>
    refine .bind hu (ensures_put_idx hC (hkey.idx _)).attempt (fun _ v huv hv _ => ?_)
    have hobj'' := hC.pack_later hF hu hv huv hobj'
    exact .pure (fun w hvw hw => ⟨rfl, hC.pack_later hF hv hw (C.rely_later hvw) hobj''⟩)

theorem forall₂_map {α β : Type} {g : α → β} {P : β → α → Prop} {l : List α} {l' : List β}
    (h : List.Forall₂ (fun a b => b = g a ∧ P b a) l l') : l' = l.map g ∧ ∀ a ∈ l, P (g a) a := by
  induction h with
  | nil => exact ⟨rfl, fun a ha => by cases ha⟩
  | cons hab _ ih =>
    obtain ⟨rfl, hP⟩ := hab
    exact ⟨by rw [List.map_cons, ih.1], List.forall_mem_cons.2 ⟨hP, ih.2⟩⟩

/-- Every pack is in the bucket under its key. -/
theorem ensures_upload_compacted_packs {files : List PackFile} (hF : CollisionFree env F)
    (hC : Stores env F pkey client C) (hkey : Apart pkey) (hs : C.Inv s) :
    Prog.Ensures (answers_within env F client) C (upload_compacted_packs env files)
      (fun keys t => keys = dedup (sort (files.map (fun f => content_key env "packs" f.pack))) ∧
        ∀ f ∈ files, t.object (content_key env "packs" f.pack) = some f.pack) s := by
  have hall : Prog.Ensures (answers_within env F client) C
      (Prog.forEach (upload_compacted_pack env) files) (fun keys t => List.Forall₂
        (fun f key => key = content_key env "packs" f.pack ∧ t.object key = some f.pack) files keys) s := by
    refine Prog.Ensures.forEach ?_ hs (fun f _ u _ hu => ensures_upload_compacted_pack hF hC hkey hu)
    rintro f key s t hst hs ht ⟨rfl, hobj⟩
    exact ⟨rfl, hC.pack_later hF hs ht hst hobj⟩
  refine .bind hs hall (fun keys t _ ht hkeys => ?_)
  refine .pure (fun u htu hu => ?_)
  obtain ⟨hmap, hobj⟩ := forall₂_map hkeys
  exact ⟨by rw [hmap], fun f hf => hC.pack_later hF ht hu (C.rely_later htu) (hobj f hf)⟩

theorem ensures_prepare_compaction {ws : Workspace} {refs : Refs} {limits : PublishLimits} {packs_before : Nat}
    (hF : CollisionFree env F) (hC : Stores env F pkey client C) (hkey : Apart pkey) (hs : C.Inv s) :
    Prog.Ensures (answers_within env F client) C
      (prepare_compaction env ws refs limits packs_before)
      (fun keys t => ∃ files, capture_compacted_packs ws refs limits = .ok files ∧
        keys = dedup (sort (files.map (fun f => content_key env "packs" f.pack))) ∧
        ∀ f ∈ files, t.object (content_key env "packs" f.pack) = some f.pack) s := by
  refine .bind hs (.done (A := fun files _ => capture_compacted_packs ws refs limits = .ok files)
    (fun _ _ h _ _ => h)) (fun files t _ ht hfiles => ?_)
  split
  · exact (ensures_upload_compacted_packs hF hC hkey ht).mono (fun keys u _ _ h => ⟨files, hfiles, h⟩)
  · exact .fail

theorem ensures_compact {c : Compaction} {ws : Workspace} {refs : Refs} {limits : PublishLimits} {packs_before : Nat}
    (hF : CollisionFree env F) (hC : Stores env F pkey client C) (hkey : Apart pkey) (hs : C.Inv s) :
    Prog.Ensures (answers_within env F client) C (compact env c ws refs limits packs_before)
      (fun r t => ∀ keys, r = .ok keys → ∃ files, capture_compacted_packs ws refs limits = .ok files ∧
        keys = dedup (sort (files.map (fun f => content_key env "packs" f.pack))) ∧
        ∀ f ∈ files, t.object (content_key env "packs" f.pack) = some f.pack) s := by
  rw [compact]
  cases c.permit with
  | error e => exact .pure (fun _ _ _ keys h => by cases h)
  | ok _ =>
    refine .bind hs (ensures_prepare_compaction hF hC hkey hs).within (fun o t _ ht ho => ?_)
    cases o with
    | none => exact .pure (fun _ _ _ keys h => by cases h)
    | some r =>
      refine .pure (fun u htu hu keys h => ?_)
      obtain ⟨files, hfiles, hkeys, hobj⟩ := ho keys (by rw [h])
      exact ⟨files, hfiles, hkeys, fun f hf => hC.pack_later hF ht hu (C.rely_later htu) (hobj f hf)⟩

theorem ensures_write_idx_sidecar {ws : Workspace} {pack_key : String} {bytes : Bytes}
    (hC : Stores env F pkey client C) (hkey : Apart pkey) (hs : C.Inv s) :
    Prog.Ensures (answers_within env F client) C (write_idx_sidecar ws pack_key bytes)
      (fun _ _ => True) s := by
  refine .bind hs (.done (A := fun _ _ => True) (fun _ _ _ _ _ => trivial)) (fun _ t _ ht _ => ?_)
  refine .bind ht (.done (A := fun _ _ => True) (fun _ _ _ _ _ => trivial)) (fun _ u _ hu _ => ?_)
  refine .bind hu (ensures_put_idx hC (hkey.idx _)).mapError (fun _ v _ _ _ => ?_)
  exact .pure (fun _ _ _ => trivial)

theorem ensures_publish_delta {ps : ParentState} {limits : PublishLimits} {ws : Workspace} {head : String} {refs : Refs}
    {failure : Option CasError} (hF : CollisionFree env F) (hC : Stores env F pkey client C) (hkey : Apart pkey)
    (hs : C.Inv s) :
    Prog.Ensures (answers_within env F client) C
      (publish_delta env ps limits ws head refs failure) (fun m t => Composed env ps limits ws head refs t m) s := by
  refine .bind hs (.done (A := fun o _ => capture_pack ws ps.parent.refs refs limits.max_pack_bytes = .ok o)
    (fun _ _ h _ _ => h)) (fun o t _ ht ho => ?_)
  cases o with
  | none => exact .pure (fun _ _ _ => .unchanged ho)
  | some bytes =>
    simp only
    split
    · exact .fail
    split
    · exact .fail
    split
    · exact .fail
    refine .bind ht (ensures_put_immutable hF hC (.inr rfl) (hkey.packs _)).mapError (fun key u _ hu h => ?_)
    obtain ⟨rfl, hobj⟩ := h
    refine .bind hu (ensures_write_idx_sidecar hC hkey hu).attempt (fun _ v huv hv _ => ?_)
    have hobj' := hC.pack_later hF hu hv huv hobj
    exact .pure (fun w hvw hw => .delta ho (hC.pack_later hF hv hw (C.rely_later hvw) hobj'))

theorem ensures_compose {c : Compaction} {threshold : Nat} {ps : ParentState} {limits : PublishLimits} {ws : Workspace}
    {head : String} {refs : Refs} (hF : CollisionFree env F) (hC : Stores env F pkey client C) (hkey : Apart pkey)
    (hs : C.Inv s) :
    Prog.Ensures (answers_within env F client) C
      (compose env c threshold ps limits ws head refs) (fun m t => Composed env ps limits ws head refs t m) s := by
  rw [compose]
  split
  · refine .bind hs (ensures_compact hF hC hkey hs) (fun r t _ ht hr => ?_)
    cases r with
    | ok keys =>
      obtain ⟨files, hfiles, rfl, hobj⟩ := hr keys rfl
      exact .pure (fun u htu hu => .compacted hfiles (fun f hf => hC.pack_later hF ht hu (C.rely_later htu) (hobj f hf)))
    | error e => exact ensures_publish_delta hF hC hkey ht
  · exact ensures_publish_delta hF hC hkey hs

end

theorem Composed.later {ps : ParentState} {limits : PublishLimits} {ws : Workspace} {head : String} {refs : Refs}
    {m : Manifest} (hF : CollisionFree env F) (hs : Base env F s) (ht : Base env F t) (hst : Before s t)
    (h : Composed env ps limits ws head refs s m) : Composed env ps limits ws head refs t m := by
  cases h with
  | unchanged h => exact .unchanged h
  | delta h hstored => exact .delta h (hs.pack_later hF ht hst hstored)
  | compacted h hstored => exact .compacted h (fun f hf => hs.pack_later hF ht hst (hstored f hf))

/-- What every way of composing has in common. -/
theorem Composed.fields {ps : ParentState} {limits : PublishLimits} {ws : Workspace} {head : String} {refs : Refs}
    {m : Manifest} (h : Composed env ps limits ws head refs t m) :
    m.version = MANIFEST_VERSION ∧ m.packs.Pairwise (· < ·) ∧ m.parent = ps.parent_digest ∧ m.refs = refs ∧
      m.head = head := by
  cases h with
  | unchanged h => exact ⟨rfl, sorted_sort_dedup _, rfl, rfl, rfl⟩
  | delta h hstored => exact ⟨rfl, sorted_sort_dedup _, rfl, rfl, rfl⟩
  | compacted h hstored => exact ⟨rfl, sorted_sort_dedup _, rfl, rfl, rfl⟩

/-! ## The swap -/

/-- What leaves the pointer alone leaves the client's own writes as they are. -/
theorem assures_of_quiet {E α : Type} {p : Calls E α} {A : α → Bucket → Prop}
    (h : Prog.Ensures (answers_within env F client) (quiet env F pkey K client) p A s) :
    Prog.Assures (answers_within env F client) (pushing env F pkey K client) p
      (fun r t => (∀ a, r = .ok a → A a t) ∧ Before s t ∧ own pkey client t = own pkey client s) s := by
  refine Prog.Assures.weaken (C := quiet env F pkey K client) (D := pushing env F pkey K client) rfl (fun _ _ h => h)
    (fun s t hg => ⟨hg.1, fun j _ => ?_⟩) h
  rw [own, own, hg.2]

/-- The condition a push swaps under: the pointer is still what it was hydrated from. -/
def precond_of (ps : ParentState) : Precond :=
  match ps.if_match with
  | some e => .IfMatch e
  | none => .IfNoneMatchStar

theorem pointer_body_inj {m m' : Manifest} (h : pointer_body env m = pointer_body env m') : digest env m = digest env m' :=
  String.toByteArray_inj.1 h

/-- While the condition is met the parent is the last of the chain. -/
theorem parent_is_last {ps : ParentState} {chain : List (Nat × Manifest)} (htag : TagsDiffer env F pkey)
    (hs : Base env F s) (hchain : Published env pkey K s chain) (hps : Hydrated env pkey K s ps)
    (hmet : (precond_of ps).met env (s.object pkey)) :
    (chain = [] ∧ ps.parent_digest = none) ∨ ∃ e ∈ chain.getLast?, ps.parent_digest = some (digest env e.2) := by
  cases hps with
  | fresh =>
    have hnone : s.object pkey = none := hmet
    rw [Bucket.object, Option.map_eq_none_iff, List.getLast?_eq_none_iff, hchain.bodies, List.map_eq_nil_iff] at hnone
    exact .inl ⟨hnone, rfl⟩
  | loaded hm =>
    rename_i m
    obtain ⟨body, hbody, heq⟩ := hmet
    obtain ⟨e, he, rfl⟩ := object_mem hbody
    obtain ⟨writer, hw⟩ := hm.named
    have hsame := htag e (hs.before.mem he) _ (hs.before.mem hw) heq
    rw [Bucket.object, hchain.bodies, List.getLast?_map, Option.map_map, Option.map_eq_some_iff] at hbody
    obtain ⟨f, hf, hfe⟩ := hbody
    refine .inr ⟨f, hf, ?_⟩
    exact congrArg some (pointer_body_inj (hsame.symm.trans hfe.symm))

theorem Published.append {ps : ParentState} {m : Manifest} {chain : List (Nat × Manifest)}
    (hF : CollisionFree env F) (hK : Lasting env F K) (htag : TagsDiffer env F pkey) (hs : Base env F s)
    (hchain : Published env pkey K s chain) (hps : Hydrated env pkey K s ps)
    (hmet : (precond_of ps).met env (s.object pkey)) (hwf : WellFormed m) (hparent : m.parent = ps.parent_digest)
    (hgood : K s m) (hstored : s.object (manifest_key env m) = some m.canonical_bytes)
    (ht : Base env F ((s.send (pointer_body env m)).write client pkey (pointer_body env m))) :
    Published env pkey K ((s.send (pointer_body env m)).write client pkey (pointer_body env m))
      (chain ++ [(client, m)]) := by
  have hbefore : Before s ((s.send (pointer_body env m)).write client pkey (pointer_body env m)) :=
    (Before.of_send s _).trans (Before.of_write _ _ _ _)
  have hlast := parent_is_last htag hs hchain hps hmet
  have hmem : ∀ {P : Nat × Manifest → Prop}, (∀ e ∈ chain, P e) → P (client, m) → ∀ e ∈ chain ++ [(client, m)], P e := by
    intro P hP hnew e he
    rcases List.mem_append.1 he with he | he
    · exact hP e he
    · rw [List.mem_singleton.1 he]
      exact hnew
  refine ⟨?_, hmem hchain.wellFormed hwf, hmem ?_ ?_, ?_, ?_, hmem ?_ ?_⟩
  · rw [Bucket.history_write_self, Bucket.history_send, hchain.bodies, List.map_append]
    rfl
  · exact fun e he => hs.object_later hF ht hbefore (.inl rfl) (hchain.stored e he)
  · exact hs.object_later hF ht hbefore (.inl rfl) hstored
  · intro e he
    rcases hlast with ⟨rfl, hnone⟩ | ⟨f, hf, -⟩
    · cases he
      rw [hparent, hnone]
    · rw [List.head?_append_of_ne_nil _ (by rintro rfl; cases hf)] at he
      exact hchain.first e he
  · refine List.isChain_append.2 ⟨hchain.linked, .singleton _, fun e he f hf => ?_⟩
    cases hf
    rcases hlast with ⟨rfl, -⟩ | ⟨f, hf, hdigest⟩
    · cases he
    · rw [Option.mem_def] at he hf
      rw [he] at hf
      cases hf
      rw [hparent, hdigest]
  · exact fun e he => hK s _ e.2 hs ht hbefore (hchain.good e he)
  · exact hK s _ m hs ht hbefore hgood

/-- A write of the client under the pointer's key adds to its own writes only. -/
theorem own_write (pkey : String) (client j : Nat) (s : Bucket) (body : Bytes) :
    own pkey j ((s.send body).write client pkey body) = own pkey j s ++ (if client = j then [(client, body)] else []) := by
  rw [own, own, Bucket.history_write_self, Bucket.history_send, List.filter_append]
  by_cases h : client = j
  · simp [h]
  · simp [h]

theorem classify_cas_lost {x : Except S3Error PutResponse} (h : classify_cas x = .ok .LostRace) :
    ∃ e, x = .error e ∧ e.is_status 412 := by
  unfold classify_cas at h
  split at h
  · split at h
    · split at h <;> cases h
    · cases h
  · exact ⟨_, rfl, rfl⟩
  · cases h

theorem classify_cas_won {x : Except S3Error PutResponse} {tag : String} (h : classify_cas x = .ok (.Won tag)) :
    ∃ r, x = .ok r ∧ is_2xx r.status = true := by
  unfold classify_cas at h
  split at h
  · split at h
    · next r hr => exact ⟨r, rfl, hr⟩
    · cases h
  · cases h
  · cases h

/-- What is known before the swap of the pointer to a manifest. -/
structure Ready (env : Env) (pkey : String) (K : Bucket → Manifest → Prop) (s : Bucket) (ps : ParentState)
    (m : Manifest) : Prop where
  hydrated : Hydrated env pkey K s ps
  wellFormed : WellFormed m
  parent : m.parent = ps.parent_digest
  good : K s m
  stored : s.object (manifest_key env m) = some m.canonical_bytes

theorem Ready.later {ps : ParentState} {m : Manifest} (hF : CollisionFree env F) (hK : Lasting env F K)
    (hs : Base env F s) (ht : Base env F t) (hst : Before s t) (h : Ready env pkey K s ps m) :
    Ready env pkey K t ps m where
  hydrated := h.hydrated.later hF hK hs ht hst
  wellFormed := h.wellFormed
  parent := h.parent
  good := hK s t m hs ht hst h.good
  stored := hs.object_later hF ht hst (.inl rfl) h.stored

/-- The swap keeps the chain; it won exactly when the write is the client's own. -/
theorem pushing_put {ps : ParentState} {m : Manifest} {x : Except S3Error PutResponse} (hkey : Apart pkey)
    (hF : CollisionFree env F) (hK : Lasting env F K) (htag : TagsDiffer env F pkey) (hs : Inv env F pkey K s)
    (hready : Ready env pkey K s ps m) (hown : own pkey client s = []) (ht : Before t F)
    (hput : PutAnswer env client s pkey (pointer_body env m) (precond_of ps) x t) :
    Inv env F pkey K t ∧ (pushing env F pkey K client).guar s t ∧
      (∀ tag, classify_cas x = .ok (.Won tag) → own pkey client t = [(client, pointer_body env m)]) ∧
      (classify_cas x = .ok .LostRace → own pkey client t = []) := by
  have hfolder : ∀ folder d, Folder folder → pkey = folder ++ d → d = sha256_hex env (pointer_body env m) := by
    rintro folder d (rfl | rfl) heq
    · exact absurd heq (hkey.manifests d)
    · exact absurd heq (hkey.packs d)
  have hbase : Base env F t := ⟨ht, hs.1.addressed.put hput hfolder⟩
  have hbefore : Before s t := .of_put hput
  obtain ⟨hsbase, chain, hchain⟩ := hs
  have hwrote : t = (s.send (pointer_body env m)).write client pkey (pointer_body env m) →
      (precond_of ps).met env (s.object pkey) → Inv env F pkey K t ∧ (pushing env F pkey K client).guar s t ∧
        own pkey client t = [(client, pointer_body env m)] := by
    rintro rfl hmet
    refine ⟨⟨hbase, _, hchain.append hF hK htag hsbase hready.hydrated hmet hready.wellFormed hready.parent hready.good
      hready.stored hbase⟩, ⟨hbefore, fun j hj => ?_⟩, ?_⟩
    · rw [own_write, if_neg (Ne.symm hj), List.append_nil]
    · rw [own_write, if_pos rfl, hown, List.nil_append]
  have hkept : t = s.send (pointer_body env m) → Inv env F pkey K t ∧ (pushing env F pkey K client).guar s t ∧
      own pkey client t = [] := by
    rintro rfl
    exact ⟨⟨hbase, chain, hchain.later hF hK hsbase hbase hbefore rfl⟩, ⟨hbefore, fun _ _ => rfl⟩, hown⟩
  cases hput with
  | accepted hmet =>
    obtain ⟨hinv, hguar, hnew⟩ := hwrote rfl hmet
    refine ⟨hinv, hguar, fun _ _ => hnew, fun hlost => ?_⟩
    obtain ⟨e, he, -⟩ := classify_cas_lost hlost
    cases he
  | refused h =>
    obtain ⟨hinv, hguar, hnone⟩ := hkept rfl
    refine ⟨hinv, hguar, fun tag hwon => ?_, fun _ => hnone⟩
    obtain ⟨r, hr, -⟩ := classify_cas_won hwon
    cases hr
  | unexpected h =>
    obtain ⟨hinv, hguar, hnone⟩ := hkept rfl
    refine ⟨hinv, hguar, fun tag hwon => ?_, fun _ => hnone⟩
    obtain ⟨r, hr, hstatus⟩ := classify_cas_won hwon
    cases hr
    rw [h] at hstatus
    cases hstatus
  | unclear hmet h =>
    obtain ⟨hinv, hguar, hnew⟩ := hwrote rfl hmet
    refine ⟨hinv, hguar, fun _ _ => hnew, fun hlost => ?_⟩
    obtain ⟨e, he, hstatus⟩ := classify_cas_lost hlost
    cases he
    exact absurd hstatus h

theorem put_pointer_ifMatch (key : String) (body : Bytes) (tag : String) : put_pointer key body (.IfMatch tag) =
    if is_header_value tag then .call (.put_object key body (.IfMatch tag)) (fun x => .done (classify_cas x))
    else .fail (.Backend (.HttpFailWithBody 400 ("invalid etag " ++ tag))) := rfl

/-- The result of a swap. -/
theorem assures_put_pointer {ps : ParentState} {m : Manifest} (hkey : Apart pkey) (hF : CollisionFree env F)
    (hK : Lasting env F K) (htag : TagsDiffer env F pkey) (hs : Inv env F pkey K s)
    (hready : Ready env pkey K s ps m) (hown : own pkey client s = []) :
    Prog.Assures (answers_within env F client) (pushing env F pkey K client)
      (put_pointer pkey (pointer_body env m) (precond_of ps)) (fun r t =>
        (∀ tag, r = .ok (.Won tag) → own pkey client t = [(client, pointer_body env m)]) ∧
        (r = .ok .LostRace → own pkey client t = [])) s := by
  have hcall : Prog.Assures (answers_within env F client) (pushing env F pkey K client)
      (.call (.put_object pkey (pointer_body env m) (precond_of ps)) (fun x => .done (classify_cas x))) (fun r t =>
        (∀ tag, r = .ok (.Won tag) → own pkey client t = [(client, pointer_body env m)]) ∧
        (r = .ok .LostRace → own pkey client t = [])) s := by
    intro t hst ht x u hans
    obtain ⟨hput, hu⟩ := hans
    obtain ⟨hinv, hguar, hwon, hlost⟩ := pushing_put hkey hF hK htag ht (hready.later hF hK hs.1 ht.1 hst.1)
      (hst.2.trans hown) hu hput
    refine ⟨hinv, hguar, fun v huv hv => ⟨fun tag h => ?_, fun h => ?_⟩⟩
    · exact huv.2.trans (hwon tag h)
    · exact huv.2.trans (hlost h)
  cases hp : precond_of ps with
  | IfNoneMatchStar =>
    rw [hp] at hcall
    exact hcall
  | IfMatch tag =>
    rw [hp] at hcall
    rw [put_pointer_ifMatch]
    split
    · exact hcall
    · intro t _ _
      exact ⟨fun tag h => (by cases h), fun h => (by cases h)⟩

/-! ## Commits -/

/-- After a lost race only the winner is read. -/
theorem ensures_read_winner (hF : CollisionFree env F) (hK : Lasting env F K) (hs : Inv env F pkey K s) :
    Prog.Ensures (answers_within env F client) (quiet env F pkey K client) (read_winner_after_conflict env pkey)
      (fun _ _ => True) s := by
  refine .bind hs (ensures_get_pointer hF hK).mapError (fun o t _ ht ho => ?_)
  cases o with
  | none => exact .fail
  | some p =>
    obtain ⟨tag, body⟩ := p
    obtain ⟨m, hm, rfl, rfl⟩ := ho tag body rfl
    simp only [pointer_digest_body]
    rw [if_pos (show is_digest_text (digest env m) = true from is_digest_text_sha256_hex _)]
    have hget : Prog.Ensures (answers_within env F client) (quiet env F pkey K client)
        (get_verified env (manifest_key env m) (digest env m)) (fun _ _ => True) t := by
      refine .bind ht (ensures_get hF ht hm) (fun bytes u _ _ _ => ?_)
      split
      · exact .fail
      · exact .pure (fun _ _ _ => trivial)
    refine .bind ht hget.mapError (fun bytes u _ _ _ => ?_)
    split
    · exact .pure (fun _ _ _ => trivial)
    · exact .fail

theorem digest_from_content_key (b : Bytes) :
    digest_from_manifest_key (content_key env "manifests" b) = .ok (sha256_hex env b) := by
  rw [digest_from_manifest_key, content_key_manifests, strip_prefix_append]

/-- What a client's result says about its writes: a success is its one write, a conflict means
none. -/
structure Outcome (env : Env) (pkey : String) (client : Nat) (m : Manifest) (r : Except CasError CasSuccess) (t : Bucket) :
    Prop where
  won : ∀ suc, r = .ok suc → suc.manifest = m ∧ own pkey client t = [(client, pointer_body env m)] ∧
    WellFormed m ∧ t.object (manifest_key env m) = some m.canonical_bytes
  lost : ∀ w k, r = .error (.Conflict w k) → own pkey client t = []

theorem Outcome.of_error {m : Manifest} {e : CasError} (h : (∀ w k, e ≠ .Conflict w k) ∨ own pkey client t = []) :
    Outcome env pkey client m (.error e) t where
  won suc hr := by cases hr
  lost w k hr := h.resolve_left (fun hne => hne w k (Except.error.inj hr))

theorem ensures_put_manifest {C : Prog.Contract Bucket} (m : Manifest) (hkey : Apart pkey) (hF : CollisionFree env F)
    (hC : Stores env F pkey client C) :
    Prog.Ensures (answers_within env F client) C (put_manifest env m.canonical_bytes)
      (fun key t => key = content_key env "manifests" m.canonical_bytes ∧
        t.object (manifest_key env m) = some m.canonical_bytes) s := by
  refine (ensures_put_immutable hF hC (.inl rfl) (hkey.manifests _)).mono (fun key t _ _ h => ⟨h.1, ?_⟩)
  rw [← h.2, h.1]
  rfl

theorem assures_commit {ps : ParentState} {m : Manifest} (hkey : Apart pkey) (hF : CollisionFree env F)
    (hK : Lasting env F K) (htag : TagsDiffer env F pkey) (hs : Inv env F pkey K s) (hown : own pkey client s = [])
    (hps : Hydrated env pkey K s ps) (hversion : m.version = MANIFEST_VERSION) (hpacks : m.packs.Pairwise (· < ·))
    (hparent : m.parent = ps.parent_digest) (hgood : m.validate = .ok () → K s m) :
    Prog.Assures (answers_within env F client) (pushing env F pkey K client) (commit env pkey ps m)
      (fun r t => Outcome env pkey client m r t) s := by
  cases hvalid : m.validate with
  | error e =>
    rw [commit, hvalid]
    exact fun t _ _ => .of_error (.inl (fun w k h => by cases h))
  | ok _ =>
    have hwf : WellFormed m := ⟨hversion, hpacks, hvalid⟩
    rw [commit, hvalid]
    refine Prog.Assures.bind (p := (put_manifest env m.canonical_bytes).mapError CasError.Backend) hs
      (assures_of_quiet (ensures_put_manifest m hkey hF (quiet_stores hF hK)).mapError) (fun key t hst ht h => ?_)
      (fun e t _ _ h => .of_error (.inr (h.2.2.trans hown)))
    obtain ⟨hkeyobj, -, hownt⟩ := h
    obtain ⟨rfl, hobj⟩ := hkeyobj key rfl
    have hready : Ready env pkey K t ps m :=
      ⟨hps.later hF hK hs.1 ht.1 hst, hwf, hparent, hK s t m hs.1 ht.1 hst (hgood hvalid), hobj⟩
    simp only [digest_from_content_key]
    have hswap := assures_put_pointer hkey hF hK htag ht hready (hownt.trans hown)
    refine Prog.Assures.bind (p := (put_pointer pkey (pointer_body env m) (precond_of ps)).mapError CasError.Backend) ht
      (P := fun r u => (∀ tag, r = .ok (.Won tag) → own pkey client u = [(client, pointer_body env m)]) ∧
        (r = .ok .LostRace → own pkey client u = []) ∧ ∀ e w k, r = .error e → e ≠ CasError.Conflict w k)
      (hswap.mapError ?_ ?_) (fun o u htu hu h => ?_) (fun e u _ _ h => .of_error (.inl (fun w k => h.2.2 e w k rfl)))
    · exact fun o u _ h => ⟨fun tag ho => h.1 tag (by rw [Except.ok.inj ho]), fun ho => h.2 (by rw [Except.ok.inj ho]),
        fun e w k he => by cases he⟩
    · exact fun e u _ _ => ⟨fun tag h => (by cases h), fun h => (by cases h), fun e' w k he hc => by cases he; cases hc⟩
    cases o with
    | Won tag =>
      intro v huv hv
      refine ⟨fun suc hsuc => ?_, fun w k hr => by cases hr⟩
      cases hsuc
      exact ⟨rfl, huv.2.trans (h.1 tag rfl), hwf, ht.1.object_later hF hv.1 (htu.trans huv.1) (.inl rfl) hobj⟩
    | LostRace =>
      have hnone := h.2.1 rfl
      refine Prog.Assures.bind hu (assures_of_quiet (ensures_read_winner hF hK hu)) (fun w v _ _ hw => ?_)
        (fun e v _ _ hw => .of_error (.inr (hw.2.2.trans hnone)))
      exact fun v' hvv' _ => .of_error (.inr (hvv'.2.trans (hw.2.2.trans hnone)))

/-! ## Clients -/

theorem empty_manifest_wellFormed : WellFormed empty_manifest := ⟨rfl, .nil, by decide +kernel⟩

/-- An announcement swaps from nothing to the empty manifest. -/
theorem assures_seed_manifest_pointer {owner repo : String} (hkey : Apart pkey) (hF : CollisionFree env F)
    (hK : Lasting env F K) (htag : TagsDiffer env F pkey) (hseed : ∀ s, Base env F s → K s empty_manifest)
    (hs : Inv env F pkey K s) (hown : own pkey client s = []) :
    Prog.Assures (answers_within env F client) (pushing env F pkey K client)
      (seed_manifest_pointer env pkey owner repo) (fun _ _ => True) s := by
  rw [seed_manifest_pointer, empty_manifest_wellFormed.valid]
  refine Prog.Assures.bind (p := (put_manifest env empty_manifest.canonical_bytes).mapError (fun _ => "put_manifest")) hs
    (assures_of_quiet (ensures_put_manifest empty_manifest hkey hF (quiet_stores hF hK)).mapError) (fun key t hst ht h => ?_)
    (fun _ _ _ _ _ => trivial)
  obtain ⟨hkeyobj, -, hownt⟩ := h
  obtain ⟨rfl, hobj⟩ := hkeyobj key rfl
  have hready : Ready env pkey K t .fresh empty_manifest :=
    ⟨.fresh, empty_manifest_wellFormed, rfl, hseed t ht.1, hobj⟩
  simp only [content_key_manifests, strip_prefix_append]
  have hswap := assures_put_pointer hkey hF hK htag ht hready (hownt.trans hown)
  refine Prog.Assures.bind (P := fun _ _ => True) ht (hswap.mapError (fun _ _ _ _ => trivial) (fun _ _ _ _ => trivial))
    (fun o u _ hu _ => ?_) (fun _ _ _ _ _ => trivial)
  cases o with
  | Won tag => exact fun _ _ _ => trivial
  | LostRace =>
    refine Prog.Assures.bind (P := fun _ _ => True) hu
      ((assures_of_quiet (ensures_get_pointer hF hK).mapError).mono (fun _ _ _ _ _ => trivial)) (fun o v _ _ _ => ?_)
      (fun _ _ _ _ _ => trivial)
    cases o with
    | none => exact fun _ _ _ => trivial
    | some p =>
      simp only
      split
      · exact fun _ _ _ => trivial
      · split <;> exact fun _ _ _ => trivial

theorem assures_ensure_manifest_pointer {owner repo : String} (hkey : Apart pkey) (hF : CollisionFree env F)
    (hK : Lasting env F K) (htag : TagsDiffer env F pkey) (hseed : ∀ s, Base env F s → K s empty_manifest)
    (hs : Inv env F pkey K s) (hown : own pkey client s = []) :
    Prog.Assures (answers_within env F client) (pushing env F pkey K client)
      (ensure_manifest_pointer env pkey owner repo) (fun _ _ => True) s := by
  refine Prog.Assures.bind hs (assures_of_quiet (ensures_get_pointer hF hK).mapError) (fun o t _ ht h => ?_)
    (fun _ _ _ _ _ => trivial)
  cases o with
  | some p => exact fun _ _ _ => trivial
  | none => exact assures_seed_manifest_pointer hkey hF hK htag hseed ht (h.2.2.trans hown)

/-- The manifests a push may compose are good ones. -/
def Sound (env : Env) (F : Bucket) (pkey : String) (K : Bucket → Manifest → Prop) (p : Push) : Prop :=
  ∀ t ps limits ws refs head m, Base env F t → p.receive_pack ps = some ws →
    snapshot_workspace_state ws = .ok (refs, head) → Hydrated env pkey K t ps →
    Composed env ps limits ws (resolve_published_head refs head ps.parent.head) refs t m → m.validate = .ok () → K t m

/-- What a push's result says. -/
structure Pushed (env : Env) (pkey : String) (client : Nat) (p : Push) (r : Except PushError CasSuccess) (t : Bucket) :
    Prop where
  won : ∀ suc, r = .ok suc → own pkey client t = [(client, pointer_body env suc.manifest)] ∧ WellFormed suc.manifest ∧
    t.object (manifest_key env suc.manifest) = some suc.manifest.canonical_bytes ∧
    ∃ ps ws head, p.receive_pack ps = some ws ∧ snapshot_workspace_state ws = .ok (suc.manifest.refs, head) ∧
      suc.manifest.parent = ps.parent_digest
  lost : ∀ w k, r = .error (.Publish (.Conflict w k)) → own pkey client t = []

theorem Pushed.of_error {p : Push} {e : PushError} (h : (∀ w k, e ≠ .Publish (.Conflict w k)) ∨ own pkey client t = []) :
    Pushed env pkey client p (.error e) t where
  won suc hr := by cases hr
  lost w k hr := h.resolve_left (fun hne => hne w k (Except.error.inj hr))

theorem assures_cas_publish_inner {p : Push} {ps : ParentState} {limits : PublishLimits} {ws : Workspace} {c : Compaction}
    {threshold : Nat} (hkey : Apart pkey) (hF : CollisionFree env F) (hK : Lasting env F K)
    (htag : TagsDiffer env F pkey) (hp : Sound env F pkey K p) (hws : p.receive_pack ps = some ws)
    (hs : Inv env F pkey K s) (hown : own pkey client s = []) (hps : Hydrated env pkey K s ps) :
    Prog.Assures (answers_within env F client) (pushing env F pkey K client)
      (cas_publish_inner env pkey ps limits ws c threshold)
      (fun r t => Pushed env pkey client p (r.mapError .Publish) t) s := by
  rw [cas_publish_inner]
  cases hsnap : snapshot_workspace_state ws with
  | error e => exact fun t hst _ => .of_error (.inr (hst.2.trans hown))
  | ok rh =>
    obtain ⟨refs, head⟩ := rh
    refine Prog.Assures.bind
      (p := compose env c threshold ps limits ws (resolve_published_head refs head ps.parent.head) refs) hs
      (assures_of_quiet (ensures_compose hF (quiet_stores hF hK) hkey hs)) (fun m t hst ht h => ?_)
      (fun e t _ _ h => .of_error (.inr (h.2.2.trans hown)))
    have hcomposed := h.1 m rfl
    obtain ⟨hversion, hpacks, hparent, rfl, -⟩ := hcomposed.fields
    have hps' := hps.later hF hK hs.1 ht.1 hst
    have hgood := hp t ps limits ws m.refs head m ht.1 hws hsnap hps' hcomposed
    refine (assures_commit hkey hF hK htag ht (h.2.2.trans hown) hps' hversion hpacks hparent hgood).mono
      (fun r u _ _ hr => ?_)
    cases r with
    | error e => exact ⟨fun suc h => (by cases h), fun w k h => hr.lost w k (by cases h; rfl)⟩
    | ok suc =>
      obtain ⟨rfl, hone, hwf, hobj⟩ := hr.won suc rfl
      refine ⟨fun suc' h => ?_, fun w k h => by cases h⟩
      cases h
      exact ⟨hone, hwf, hobj, ps, ws, head, hws, hsnap, hparent⟩

theorem assures_receive_pack {community : CommunityId} {owner repo : String} {p : Push}
    (hF : CollisionFree env F) (hK : Lasting env F K) (htag : TagsDiffer env F (pointer_key community owner repo))
    (hp : Sound env F (pointer_key community owner repo) K p) (hs : Inv env F (pointer_key community owner repo) K s)
    (hown : own (pointer_key community owner repo) client s = []) :
    Prog.Assures (answers_within env F client) (pushing env F (pointer_key community owner repo) K client)
      (receive_pack env community owner repo p)
      (fun r t => Pushed env (pointer_key community owner repo) client p r t) s := by
  refine Prog.Assures.bind hs (assures_of_quiet (ensures_hydrate_for_write hF hK hs).mapError) (fun r t _ ht h => ?_)
    (fun e t _ _ h => .of_error (.inr (h.2.2.trans hown)))
  obtain ⟨hydrated_bytes, ps⟩ := r
  have hps := h.1 _ rfl
  cases hws : p.receive_pack ps with
  | none =>
    simp only [hws]
    exact fun u htu _ => Pushed.of_error (.inr (htu.2.trans (h.2.2.trans hown)))
  | some ws =>
    simp only [hws]
    exact (assures_cas_publish_inner (pointer_key_apart community owner repo) hF hK htag hp hws ht (h.2.2.trans hown)
      hps).mapError (fun _ _ _ h => h) (fun _ _ _ h => h)

/-- What a client's result says: of an announcement nothing. -/
def Client.Says (env : Env) (pkey : String) (client : Nat) (r : Except PushError (Option CasSuccess)) (t : Bucket) :
    Client → Prop
  | .push p => ∃ r' : Except PushError CasSuccess, r = r'.map some ∧ Pushed env pkey client p r' t
  | .announce => True
  | .reannounce => True

/-- The pushes among the clients compose good manifests only. -/
def Client.Sound (env : Env) (F : Bucket) (pkey : String) (K : Bucket → Manifest → Prop) : Client → Prop
  | .push p => Git.Sound env F pkey K p
  | .announce => True
  | .reannounce => True

theorem assures_client {community : CommunityId} {owner repo : String} {c : Client}
    (hF : CollisionFree env F) (hK : Lasting env F K) (htag : TagsDiffer env F (pointer_key community owner repo))
    (hseed : ∀ s, Base env F s → K s empty_manifest) (hc : c.Sound env F (pointer_key community owner repo) K)
    (hs : Inv env F (pointer_key community owner repo) K s)
    (hown : own (pointer_key community owner repo) client s = []) :
    Prog.Assures (answers_within env F client) (pushing env F (pointer_key community owner repo) K client)
      (c.run env community owner repo) (fun r t => c.Says env (pointer_key community owner repo) client r t) s := by
  have hkey := pointer_key_apart community owner repo
  cases c with
  | push p =>
    refine Prog.Assures.bind hs (assures_receive_pack hF hK htag hc hs hown) (fun suc t _ ht h => ?_)
      (fun e t _ _ h => ⟨.error e, rfl, h⟩)
    refine fun u htu hu => ⟨.ok suc, rfl, fun suc' hsuc => ?_, fun w k h => by cases h⟩
    cases hsuc
    obtain ⟨hone, hwf, hobj, hrefs⟩ := h.won suc rfl
    exact ⟨htu.2.trans hone, hwf, ht.1.object_later hF hu.1 htu.1 (.inl rfl) hobj, hrefs⟩
  | announce =>
    exact Prog.Assures.bind hs ((assures_seed_manifest_pointer hkey hF hK htag hseed hs hown).mapError
      (P := fun _ _ => True) (Q := fun _ _ => True) (fun _ _ _ _ => trivial) (fun _ _ _ _ => trivial))
      (fun _ _ _ _ _ _ _ _ => trivial) (fun _ _ _ _ _ => trivial)
  | reannounce =>
    exact Prog.Assures.bind hs ((assures_ensure_manifest_pointer hkey hF hK htag hseed hs hown).mapError
      (P := fun _ _ => True) (Q := fun _ _ => True) (fun _ _ _ _ => trivial) (fun _ _ _ _ => trivial))
      (fun _ _ _ _ _ _ _ _ => trivial) (fun _ _ _ _ _ => trivial)

end

/-! ## Runs -/

section
variable {env : Env} {K : Bucket → Manifest → Prop} {community : CommunityId} {owner repo : String}

/-- The clients of one repository and the bucket. -/
abbrev Clients := Prog.System Nat S3Op S3Op.Ans PushError (Option CasSuccess) Bucket

/-- An empty bucket and clients that have not begun. -/
def Clients.start (env : Env) (community : CommunityId) (owner repo : String) (clients : Nat → Client) : Clients :=
  ⟨.empty, fun i => (clients i).run env community owner repo⟩

theorem before_of_run {s t : Clients} {is : List Nat} (h : Run (Prog.System.Step (answers env)) s is t) :
    Before s.shared t.shared := by
  induction h with
  | nil => exact .refl _
  | cons hstep _ ih =>
    obtain ⟨op, k, x, -, hans, -⟩ := hstep
    exact (Before.of_answers hans).trans ih

theorem run_within {s t : Clients} {is : List Nat} {F : Bucket} (h : Run (Prog.System.Step (answers env)) s is t)
    (hF : Before t.shared F) : Run (Prog.System.Step (answers_within env F)) s is t := by
  induction h with
  | nil => exact .nil
  | cons hstep hrest ih =>
    obtain ⟨op, k, x, hat, hans, hprogs⟩ := hstep
    exact .cons ⟨op, k, x, hat, ⟨hans, (before_of_run hrest).trans hF⟩, hprogs⟩ (ih hF)

theorem inv_empty (env : Env) (F : Bucket) (pkey : String) (K : Bucket → Manifest → Prop) :
    Inv env F pkey K .empty := by
  refine ⟨⟨⟨fun b hb => (by cases hb), fun key => List.nil_prefix⟩, fun folder d b _ h => (by cases h)⟩, [], ?_⟩
  exact ⟨rfl, fun e he => (by cases he), fun e he => (by cases he), fun e he => (by cases he), .nil,
    fun e he => by cases he⟩

/-- At the end of every run the pointer's manifests are a chain of good ones, and each client's
result says what became of its writes. -/
theorem chain_of_run {clients : Nat → Client} {is : List Nat} {t : Clients}
    (hrun : Run (Prog.System.Step (answers env)) (Clients.start env community owner repo clients) is t)
    (hF : CollisionFree env t.shared) (htag : TagsDiffer env t.shared (pointer_key community owner repo))
    (hK : Lasting env t.shared K) (hseed : ∀ s, Base env t.shared s → K s empty_manifest)
    (hsound : ∀ i, (clients i).Sound env t.shared (pointer_key community owner repo) K) :
    Inv env t.shared (pointer_key community owner repo) K t.shared ∧
      ∀ i r, t.progs i = .done r → (clients i).Says env (pointer_key community owner repo) i r t.shared := by
  have hend := Prog.Assures.run (C := fun i => pushing env t.shared (pointer_key community owner repo) K i)
    (Q := fun i r u => (clients i).Says env (pointer_key community owner repo) i r u) (fun _ => rfl)
    (fun i j s u hij hg => ⟨hg.1, hg.2 j (Ne.symm hij)⟩) (run_within hrun (.refl _)) (inv_empty env _ _ K)
    (fun i => assures_client hF hK htag hseed (hsound i) (inv_empty env _ _ K) rfl)
  refine ⟨hend.1, fun i r hi => ?_⟩
  have hi' := hend.2 i
  rw [hi] at hi'
  exact hi' _ ⟨.refl _, rfl⟩ hend.1

theorem Published.sent {F s : Bucket} {pkey : String} {chain : List (Nat × Manifest)} (hs : Base env F s)
    (h : Published env pkey K s chain) {e : Nat × Manifest} (he : e ∈ chain) : e.2.canonical_bytes ∈ s.sent :=
  (hs.addressed "manifests/" _ _ (.inl rfl) (h.stored e he)).2

/-- Manifests with one digest are one manifest. -/
theorem eq_of_digest {F : Bucket} (hF : CollisionFree env F) {m m' : Manifest} (h : WellFormed m) (h' : WellFormed m')
    (hm : m.canonical_bytes ∈ F.sent) (hm' : m'.canonical_bytes ∈ F.sent) (heq : digest env m = digest env m') : m = m' :=
  Manifest.canonical_bytes_inj h.version h'.version h.packs h'.packs (hF _ hm _ hm' (sha256_hex_inj heq))

/-- In every interleaving of pushes and announcements the manifests installed in the pointer are
one chain without repetition; a push that returned is in it exactly once, with the refs of its
workspace and the parent it was hydrated from, and one that lost is not in it. -/
theorem no_fork {clients : Nat → Client} {is : List Nat} {t : Clients}
    (hrun : Run (Prog.System.Step (answers env)) (Clients.start env community owner repo clients) is t)
    (hF : CollisionFree env t.shared) (htag : TagsDiffer env t.shared (pointer_key community owner repo)) :
    ∃ chain : List (Nat × Manifest),
      t.shared.history (pointer_key community owner repo) = chain.map (fun e => (e.1, pointer_body env e.2)) ∧
      (∀ e ∈ chain.head?, e.2.parent = none) ∧
      chain.IsChain (fun a b => b.2.parent = some (digest env a.2)) ∧
      (chain.map (fun e => digest env e.2)).Nodup ∧
      ∀ i p, clients i = .push p →
        (∀ suc, t.progs i = .done (.ok (some suc)) → chain.filter (fun e => e.1 == i) = [(i, suc.manifest)] ∧
          ∃ ps ws head, p.receive_pack ps = some ws ∧ snapshot_workspace_state ws = .ok (suc.manifest.refs, head) ∧
            suc.manifest.parent = ps.parent_digest) ∧
        (∀ w k, t.progs i = .done (.error (.Publish (.Conflict w k))) → ∀ e ∈ chain, e.1 ≠ i) := by
  obtain ⟨⟨hbase, chain, hchain⟩, hsays⟩ := chain_of_run (K := fun _ _ => True) hrun hF htag
    (fun _ _ _ _ _ _ _ => trivial) (fun _ _ => trivial) (fun i => by
      cases clients i with
      | push p => exact fun _ _ _ _ _ _ _ _ _ _ _ _ _ => trivial
      | announce => trivial
      | reannounce => trivial)
  have hdigest : ∀ e ∈ chain, ∀ f ∈ chain, digest env e.2 = digest env f.2 → e.2 = f.2 := fun e he f hf heq =>
    eq_of_digest hF (hchain.wellFormed e he) (hchain.wellFormed f hf) (hchain.sent hbase he) (hchain.sent hbase hf) heq
  have hown : ∀ i, own (pointer_key community owner repo) i t.shared =
      (chain.filter (fun e => e.1 == i)).map (fun e => (e.1, pointer_body env e.2)) := by
    intro i
    rw [own, hchain.bodies, List.filter_map]
    rfl
  refine ⟨chain, hchain.bodies, hchain.first, hchain.linked, ?_, fun i p hp => ⟨fun suc hi => ?_, fun w k hi => ?_⟩⟩
  · exact nodup_of_parents hchain.linked hchain.first (fun e he f hf heq => by rw [hdigest e he f hf heq])
  · have hs := hsays i _ hi
    rw [hp] at hs
    obtain ⟨r, hr, hpushed⟩ := hs
    cases r with
    | error e => cases hr
    | ok suc' =>
      cases hr
      obtain ⟨hone, hwf, hobj, hrefs⟩ := hpushed.won suc rfl
      refine ⟨?_, hrefs⟩
      rw [hown] at hone
      obtain ⟨e, hfilter, he⟩ := List.map_eq_singleton_iff.1 hone
      have hmem : e ∈ chain := (List.mem_filter.1 (hfilter ▸ List.mem_singleton_self e)).1
      obtain ⟨hwriter, hbody⟩ := Prod.mk.inj he
      have hsent := (hbase.addressed "manifests/" _ _ (.inl rfl) hobj).2
      rw [hfilter, ← hwriter, ← eq_of_digest hF (hchain.wellFormed e hmem) hwf (hchain.sent hbase hmem) hsent
        (pointer_body_inj hbody)]
  · have hs := hsays i _ hi
    rw [hp] at hs
    obtain ⟨r, hr, hpushed⟩ := hs
    cases r with
    | ok suc => cases hr
    | error e =>
      cases hr
      have hnone := hpushed.lost w k rfl
      rw [hown, List.map_eq_nil_iff, List.filter_eq_nil_iff] at hnone
      exact fun e he heq => hnone e he (by simp [heq])

end

/-! ## A race

Two pushes without refs to a new repository: both find no pointer, one creates it, the other
loses. -/

section
variable (env : Env)

/-- A workspace without refs. -/
def Workspace.bare : Workspace :=
  ⟨.ok "".toByteArray, .ok (some "refs/heads/main"), fun _ _ => .ok .empty, .ok "", fun _ _ => .ok [], fun _ => .ok .empty⟩

def Push.bare : Push := ⟨.ok (), fun _ => .ok 0, fun _ => some .bare, 100, 100, ⟨.ok (), 0, false⟩⟩

theorem snapshot_bare : snapshot_workspace_state .bare = .ok (.new, "refs/heads/main") := by
  simp only [snapshot_workspace_state, Workspace.bare]
  decide +kernel

/-- A push of a workspace without refs to a new repository commits the empty manifest. -/
theorem cas_publish_nothing {ws : Workspace} (hsnap : snapshot_workspace_state ws = .ok (.new, "refs/heads/main"))
    (pkey : String) (limits : PublishLimits) (c : Compaction) :
    cas_publish_inner env pkey .fresh limits ws c PACK_COMPACTION_THRESHOLD = commit env pkey .fresh empty_manifest := by
  have hhead : resolve_published_head .new "refs/heads/main" "" = "refs/heads/main" := by decide +kernel
  have hpack : capture_pack ws .new .new limits.max_pack_bytes = .ok none := rfl
  have hno : should_compact 0 PACK_COMPACTION_THRESHOLD = false := by decide
  rw [cas_publish_inner, hsnap]
  simp only [Prog.bind_eq, Prog.bind, ParentState.fresh, hhead, compose, List.length_nil, hno, Bool.false_eq_true, ↓reduceIte,
    publish_delta, hpack]
  rfl

theorem cas_publish_bare (pkey : String) (limits : PublishLimits) (c : Compaction) :
    cas_publish_inner env pkey .fresh limits .bare c PACK_COMPACTION_THRESHOLD = commit env pkey .fresh empty_manifest :=
  cas_publish_nothing env snapshot_bare pkey limits c

/-- What the push does once it is hydrated. -/
def bare_commit (pkey : String) : Calls PushError (Option CasSuccess) :=
  ((commit env pkey .fresh empty_manifest).mapError .Publish).bind (fun suc => .done (.ok (some suc)))

theorem run_bare : ∃ k : S3Op.Ans (.get_object (pointer_key 7 "owner" "repo")) → Calls PushError (Option CasSuccess),
    (Client.push .bare).run env 7 "owner" "repo" = .call (.get_object (pointer_key 7 "owner" "repo")) k ∧
    k (Except.error (.HttpFailWithBody 404 "")) = bare_commit env (pointer_key 7 "owner" "repo") := by
  refine ⟨_, rfl, ?_⟩
  rw [bare_commit, ← cas_publish_bare env _ ⟨0, 100, 100⟩ ⟨.ok (), 0, false⟩]
  rfl

/-- What the push does once its swap is answered. -/
def bare_swapped (pkey : String) (x : Except S3Error PutResponse) : Calls PushError (Option CasSuccess) :=
  ((((Prog.done (classify_cas x)).mapError CasError.Backend).bind (fun
    | .Won _ => Prog.done (.ok ⟨empty_manifest, content_key env "manifests" empty_manifest.canonical_bytes⟩)
    | .LostRace => (read_winner_after_conflict env pkey).bind (fun w => Prog.fail (.Conflict w.1 w.2)))).mapError .Publish).bind
    (fun suc => .done (.ok (some suc)))

/-- The calls of the commit, after which the manifest is there. -/
theorem bare_commit_calls (pkey : String) : ∃ k : S3Op.Ans (.put_object (manifest_key env empty_manifest)
      empty_manifest.canonical_bytes .IfNoneMatchStar) → Calls PushError (Option CasSuccess),
    bare_commit env pkey = .call (.put_object (manifest_key env empty_manifest) empty_manifest.canonical_bytes .IfNoneMatchStar) k ∧
    ∀ x, classify_put (manifest_key env empty_manifest) x = .ok (manifest_key env empty_manifest) →
      k x = .call (.put_object pkey (pointer_body env empty_manifest) .IfNoneMatchStar) (bare_swapped env pkey) := by
  rw [bare_commit, commit, empty_manifest_wellFormed.valid]
  refine ⟨_, rfl, fun x hx => ?_⟩
  have hx' : classify_put (content_key env "manifests" empty_manifest.canonical_bytes) x =
    .ok (content_key env "manifests" empty_manifest.canonical_bytes) := hx
  simp only [hx', Prog.mapError, Prog.bind_eq, Prog.bind, digest_from_content_key]
  rfl

/-- The loser reads the winner. -/
theorem bare_lost_calls (pkey : String) : ∃ k : S3Op.Ans (.get_object pkey) → Calls PushError (Option CasSuccess),
    bare_swapped env pkey (Except.error (.HttpFailWithBody 412 "")) = .call (.get_object pkey) k ∧
    ∃ k' : S3Op.Ans (.get_object (manifest_key env empty_manifest)) → Calls PushError (Option CasSuccess),
      k (Except.ok ⟨some (env.etag (pointer_body env empty_manifest)), pointer_body env empty_manifest⟩) = .call (.get_object (manifest_key env empty_manifest)) k' ∧
      k' (Except.ok ⟨none, empty_manifest.canonical_bytes⟩) =
        .done (.error (.Publish (.Conflict empty_manifest (manifest_key env empty_manifest)))) := by
  have htext : is_digest_text (digest env empty_manifest) = true := is_digest_text_sha256_hex _
  have hread : Manifest.from_bytes empty_manifest.canonical_bytes = .ok empty_manifest :=
    empty_manifest_wellFormed.from_bytes
  refine ⟨_, rfl, ?_⟩
  simp only [classify_pointer, Prog.mapError, Prog.bind_eq, Prog.bind, pointer_digest_body, htext, ↓reduceIte]
  refine ⟨_, rfl, ?_⟩
  have hsame : ¬ sha256_hex env empty_manifest.canonical_bytes ≠ digest env empty_manifest := fun h => h rfl
  simp only [classify_get, Prog.mapError, Prog.bind, if_neg hsame, Prog.pure_eq, hread]
  rfl

/-- A digest for small runs: the number of bytes, thirty-two times. -/
def Env.small : Env := ⟨fun b => List.replicate 32 (UInt8.ofNat b.size), fun _ => rfl, fun b => toString b.size⟩
end

/-- Two clients at these places, the others not begun. -/
def two (env : Env) (p q : Calls PushError (Option CasSuccess)) : Nat → Calls PushError (Option CasSuccess)
  | 0 => p
  | 1 => q
  | _ => (Client.push .bare).run env 7 "owner" "repo"

theorem two_first {env : Env} {b b' : Bucket} {op : S3Op} {k : op.Ans → Calls PushError (Option CasSuccess)} {x : op.Ans}
    {p q r : Calls PushError (Option CasSuccess)} (hp : p = .call op k) (hr : k x = r) (h : answers env 0 b op x b') :
    Prog.System.Step (answers env) ⟨b, two env p q⟩ 0 ⟨b', two env r q⟩ := by
  refine ⟨op, k, x, hp, h, funext fun i => ?_⟩
  match i with
  | 0 => exact hr.symm
  | 1 => rfl
  | _ + 2 => rfl

theorem two_second {env : Env} {b b' : Bucket} {op : S3Op} {k : op.Ans → Calls PushError (Option CasSuccess)} {x : op.Ans}
    {p q r : Calls PushError (Option CasSuccess)} (hq : q = .call op k) (hr : k x = r) (h : answers env 1 b op x b') :
    Prog.System.Step (answers env) ⟨b, two env p q⟩ 1 ⟨b', two env p r⟩ := by
  refine ⟨op, k, x, hq, h, funext fun i => ?_⟩
  match i with
  | 0 => rfl
  | 1 => exact hr.symm
  | _ + 2 => rfl

/-- The bucket after the race. -/
def race_bucket (env : Env) : Bucket :=
  let stored := ((Bucket.empty.send empty_manifest.canonical_bytes).write 0 (manifest_key env empty_manifest)
    empty_manifest.canonical_bytes).send empty_manifest.canonical_bytes
  ((stored.send (pointer_body env empty_manifest)).write 0 (pointer_key 7 "owner" "repo") (pointer_body env empty_manifest)).send
    (pointer_body env empty_manifest)

theorem race_run : Run (Prog.System.Step (answers .small))
    (Clients.start .small 7 "owner" "repo" (fun _ => .push .bare)) [0, 1, 0, 1, 0, 1, 1, 1] ⟨race_bucket .small, two .small
      (.done (.ok (some ⟨empty_manifest, manifest_key .small empty_manifest⟩)))
      (.done (.error (.Publish (.Conflict empty_manifest (manifest_key .small empty_manifest)))))⟩ := by
  obtain ⟨k, hk, hnone⟩ := run_bare .small
  obtain ⟨k1, hk1, hput⟩ := bare_commit_calls .small (pointer_key 7 "owner" "repo")
  obtain ⟨k2, hk2, k3, hk3, hlost⟩ := bare_lost_calls .small (pointer_key 7 "owner" "repo")
  have hne : pointer_key 7 "owner" "repo" ≠ manifest_key .small empty_manifest :=
    (pointer_key_apart 7 "owner" "repo").manifests _
  have hstart : Clients.start .small 7 "owner" "repo" (fun _ => .push .bare) = ⟨.empty, two .small
      ((Client.push .bare).run .small 7 "owner" "repo") ((Client.push .bare).run .small 7 "owner" "repo")⟩ := by
    refine congrArg (Prog.System.mk Bucket.empty) (funext fun i => ?_)
    match i with
    | 0 => rfl
    | 1 => rfl
    | _ + 2 => rfl
  have hwon : bare_swapped .small (pointer_key 7 "owner" "repo") (Except.ok ⟨200, some ""⟩) =
      .done (.ok (some ⟨empty_manifest, manifest_key .small empty_manifest⟩)) := rfl
  rw [hstart]
  refine .cons (two_first hk hnone ⟨.missing rfl, rfl⟩) (.cons (two_second hk hnone ⟨.missing rfl, rfl⟩) ?_)
  refine .cons (two_first hk1 (hput (Except.ok ⟨200, some ""⟩) rfl) (PutAnswer.accepted rfl)) ?_
  refine .cons (two_second hk1 (hput (Except.error (.HttpFailWithBody 412 "")) rfl)
    (PutAnswer.refused (fun _ h => ?_))) ?_
  · rw [Bucket.object_write_self] at h
    cases h
  refine .cons (two_first rfl hwon (PutAnswer.accepted ?_)) ?_
  · rw [Bucket.object_send, Bucket.object_write_ne _ _ _ hne]
    rfl
  refine .cons (two_second rfl hk2 (PutAnswer.refused (fun _ h => ?_))) ?_
  · rw [Bucket.object_write_self] at h
    cases h
  refine .cons (two_second rfl hk3 ⟨.found ?_ (.inl rfl), rfl⟩) ?_
  · rw [Bucket.object_send, Bucket.object_write_self]
  refine .cons (two_second rfl hlost ⟨.found ?_ (.inr rfl), rfl⟩) .nil
  rw [Bucket.object_send, Bucket.object_write_ne _ _ _ hne.symm, Bucket.object_send, Bucket.object_send,
    Bucket.object_write_self]

theorem race_collisionFree : CollisionFree .small (race_bucket .small) := by
  have hsize : empty_manifest.canonical_bytes.size = 73 := by decide +kernel
  have hpointer : (pointer_body .small empty_manifest).size = 64 := utf8ByteSize_sha256_hex _
  have hsha : Env.small.sha256 empty_manifest.canonical_bytes ≠ Env.small.sha256 (pointer_body .small empty_manifest) := by
    simp only [Env.small, hsize]
    rw [show (pointer_body ⟨fun b => List.replicate 32 (UInt8.ofNat b.size), fun _ => rfl, fun b => toString b.size⟩
      empty_manifest).size = 64 from hpointer]
    decide
  intro a ha b hb heq
  simp only [race_bucket, Bucket.send, Bucket.write, Bucket.empty, List.nil_append, List.cons_append, List.mem_cons,
    List.not_mem_nil, or_false] at ha hb
  rcases ha with rfl | rfl | rfl | rfl <;> rcases hb with rfl | rfl | rfl | rfl <;>
    first | rfl | exact absurd heq hsha | exact absurd heq.symm hsha

theorem no_fork_race : ∃ chain : List (Nat × Manifest),
    (race_bucket .small).history (pointer_key 7 "owner" "repo") =
      chain.map (fun e => (e.1, pointer_body .small e.2)) ∧
    chain.filter (fun e => e.1 == 0) = [(0, empty_manifest)] ∧ ∀ e ∈ chain, e.1 ≠ 1 := by
  obtain ⟨chain, hbodies, -, -, -, hpushes⟩ := no_fork race_run race_collisionFree (fun a ha b hb _ => by
    have hne : pointer_key 7 "owner" "repo" ≠ manifest_key .small empty_manifest :=
      (pointer_key_apart 7 "owner" "repo").manifests _
    have hone : (race_bucket .small).history (pointer_key 7 "owner" "repo") = [(0, pointer_body .small empty_manifest)] := by
      simp only [race_bucket, Bucket.history_send, Bucket.history_write_self, Bucket.history_write_ne _ _ _ hne]
      rfl
    rw [hone, List.mem_singleton] at ha hb
    rw [ha, hb])
  exact ⟨chain, hbodies, ((hpushes 0 .bare rfl).1 _ rfl).1, (hpushes 1 .bare rfl).2 _ _ rfl⟩

end Ambush.Git

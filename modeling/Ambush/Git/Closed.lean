import Ambush.Git.Readable
/-!
# Packs hold what the refs reach

A manifest is closed when its packs, as they lie in the bucket, hold every object that its refs
reach. A delta pack is complete only together with the packs of the parent; compaction replaces
them all. Of git it is asked that packing leaves nothing out.
-/
open Lib

namespace Ambush.Git
open Relay (CommunityId)

section
variable {Obj : Type} (reach : String → Obj → Prop) (holds : Bytes → Obj → Prop)

/-- What git promises about the packs it writes: all that the tips reach, except what the
negative tips reach, and all that the tips reach in several packs. Without bytes nothing is held. -/
structure PacksWhole (ws : Workspace) : Prop where
  pack_objects : ∀ tips negative pack, ws.pack_objects tips negative = .ok pack →
    ∀ tip ∈ tips, ∀ o, reach tip o → (∀ n ∈ negative, ¬ reach n o) → holds pack o
  pack_files : ∀ tips limit files, ws.pack_files tips limit = .ok files →
    ∀ tip ∈ tips, ∀ o, reach tip o → ∃ f ∈ files, holds f.pack o
  nonempty : ∀ pack o, holds pack o → pack.size ≠ 0

/-- Every object the refs reach is in a pack of the manifest. -/
def Closed (s : Bucket) (m : Manifest) : Prop :=
  ∀ tip ∈ m.refs.values, ∀ o, reach tip o →
    ∃ d pack, "packs/" ++ d ∈ m.packs ∧ s.object ("packs/" ++ d) = some pack ∧ holds pack o

variable {reach holds} {env : Env} {F s t : Bucket} {pkey : String}

theorem closed_lasting (hF : CollisionFree env F) : Lasting env F (Closed reach holds) := by
  intro s t m hs ht hst h tip htip o ho
  obtain ⟨d, pack, hmem, hobj, hpack⟩ := h tip htip o ho
  exact ⟨d, pack, hmem, hs.object_later hF ht hst (.inr rfl) hobj, hpack⟩

theorem closed_of_no_refs {m : Manifest} (h : m.refs = .new) : Closed reach holds s m := by
  intro tip htip
  rw [h] at htip
  cases htip

theorem Hydrated.closed {ps : ParentState} (h : Hydrated env pkey (Closed reach holds) t ps) :
    Closed reach holds t ps.parent := by
  cases h with
  | fresh => exact closed_of_no_refs rfl
  | loaded hm => exact hm.good

/-! ## What capturing gives -/

theorem capture_pack_ok {ws : Workspace} {before after : Refs} {max_pack_bytes : Nat} {o : Option Bytes}
    (h : capture_pack ws before after max_pack_bytes = .ok o) :
    after.values = [] ∨ ∃ pack, ws.pack_objects after.values before.values = .ok pack ∧
      o = if pack.size = 0 then none else some pack := by
  rw [capture_pack] at h
  by_cases hempty : after.values = []
  · exact .inl hempty
  rw [if_neg hempty] at h
  obtain ⟨pack, hpack, h⟩ := (ok_bind_iff _ _ _).1 h
  refine .inr ⟨pack, hpack, ?_⟩
  by_cases hlarge : max_pack_bytes < pack.size
  · rw [if_pos hlarge] at h
    cases h
  · rw [if_neg hlarge] at h
    exact (Except.ok.inj h).symm

/-- An object that the new refs reach is in the captured pack, unless an old one reaches it. -/
theorem capture_pack_whole {ws : Workspace} (hws : PacksWhole reach holds ws) {before after : Refs}
    {max_pack_bytes : Nat} {o : Option Bytes} (h : capture_pack ws before after max_pack_bytes = .ok o) {tip : String}
    (htip : tip ∈ after.values) {x : Obj} (hx : reach tip x) :
    (∃ b ∈ before.values, reach b x) ∨ ∃ pack, o = some pack ∧ holds pack x := by
  rcases capture_pack_ok h with hempty | ⟨pack, hpack, rfl⟩
  · rw [hempty] at htip
    cases htip
  by_cases hbefore : ∃ b ∈ before.values, reach b x
  · exact .inl hbefore
  have hheld := hws.pack_objects _ _ _ hpack tip htip x hx (fun b hb hbx => hbefore ⟨b, hb, hbx⟩)
  exact .inr ⟨pack, if_neg (hws.nonempty pack x hheld), hheld⟩

theorem mem_distinct {seen l : List String} {a : String} (h : a ∈ l) : a ∈ seen ∨ a ∈ distinct seen l := by
  induction l generalizing seen with
  | nil => cases h
  | cons b l ih =>
    rw [distinct]
    by_cases hb : b ∈ seen
    · rw [if_pos hb]
      rcases List.mem_cons.1 h with rfl | h
      · exact .inl hb
      · exact ih h
    · rw [if_neg hb]
      rcases List.mem_cons.1 h with rfl | h
      · exact .inr List.mem_cons_self
      · rcases @ih (b :: seen) h with hseen | hl
        · rcases List.mem_cons.1 hseen with rfl | hseen
          · exact .inr List.mem_cons_self
          · exact .inl hseen
        · exact .inr (List.mem_cons_of_mem _ hl)

theorem capture_compacted_packs_ok {ws : Workspace} {refs : Refs} {limits : PublishLimits} {files : List PackFile}
    (h : capture_compacted_packs ws refs limits = .ok files) :
    refs.entries = [] ∨ ws.pack_files (distinct [] refs.values) limits.max_pack_bytes = .ok files := by
  rw [capture_compacted_packs] at h
  by_cases hempty : refs.entries = []
  · exact .inl hempty
  rw [if_neg hempty] at h
  obtain ⟨-, -, h⟩ := (ok_bind_iff _ _ _).1 h
  obtain ⟨packs, hpacks, h⟩ := (ok_bind_iff _ _ _).1 h
  by_cases hmany : MAX_MANIFEST_PACKS < packs.length
  · rw [if_pos hmany] at h
    cases h
  rw [if_neg hmany] at h
  obtain ⟨-, -, h⟩ := (ok_bind_iff _ _ _).1 h
  rw [← Except.ok.inj h]
  exact .inr hpacks

theorem capture_compacted_packs_whole {ws : Workspace} (hws : PacksWhole reach holds ws) {refs : Refs}
    {limits : PublishLimits} {files : List PackFile} (h : capture_compacted_packs ws refs limits = .ok files)
    {tip : String} (htip : tip ∈ refs.values) {x : Obj} (hx : reach tip x) : ∃ f ∈ files, holds f.pack x := by
  rcases capture_compacted_packs_ok h with hempty | hfiles
  · rw [Refs.values, hempty] at htip
    cases htip
  rcases @mem_distinct [] _ _ htip with hnil | hmem
  · cases hnil
  · exact hws.pack_files _ _ _ hfiles tip hmem x hx

/-! ## What a push publishes -/

theorem mem_compose_after {parent : Manifest} {parent_digest : Option String} {head : String} {refs : Refs}
    {new : Option String} {k : String} :
    k ∈ (compose_after parent parent_digest head refs new).packs ↔ k ∈ parent.packs ∨ some k = new := by
  cases new with
  | none => simp [compose_after, mem_sort_dedup]
  | some k' =>
    by_cases hmem : k' ∈ parent.packs
    · simp only [compose_after, mem_sort_dedup, if_pos hmem, Option.some.injEq]
      refine ⟨.inl, fun h => ?_⟩
      rcases h with h | rfl
      · exact h
      · exact hmem
    · simp only [compose_after, mem_sort_dedup, if_neg hmem, List.mem_append, List.mem_singleton, Option.some.injEq]

/-- Whichever way it is composed, the manifest of a push is closed when the one it was hydrated
from is. -/
theorem Composed.closed {ps : ParentState} {limits : PublishLimits} {ws : Workspace} {head : String} {refs : Refs}
    {m : Manifest} (hws : PacksWhole reach holds ws) (hparent : Closed reach holds t ps.parent)
    (h : Composed env ps limits ws head refs t m) : Closed reach holds t m := by
  -- the parent's packs stay, so what its refs reach is covered
  have hold : ∀ new o, (∃ b ∈ ps.parent.refs.values, reach b o) → ∃ d pack,
      "packs/" ++ d ∈ (compose_after ps.parent ps.parent_digest head refs new).packs ∧
        t.object ("packs/" ++ d) = some pack ∧ holds pack o := by
    rintro new o ⟨b, hb, hreach⟩
    obtain ⟨d, pack, hmem, hobj, hheld⟩ := hparent b hb o hreach
    exact ⟨d, pack, mem_compose_after.2 (.inl hmem), hobj, hheld⟩
  intro tip htip o ho
  cases h with
  | unchanged hcapture =>
    rcases capture_pack_whole hws hcapture htip ho with hbefore | ⟨pack, hpack, -⟩
    · exact hold _ o hbefore
    · cases hpack
  | delta hcapture hstored =>
    rename_i bytes
    rcases capture_pack_whole hws hcapture htip ho with hbefore | ⟨pack, hpack, hheld⟩
    · exact hold _ o hbefore
    · cases hpack
      exact ⟨sha256_hex env bytes, bytes, mem_compose_after.2 (.inr rfl), hstored, hheld⟩
  | compacted hcapture hstored =>
    obtain ⟨f, hf, hheld⟩ := capture_compacted_packs_whole hws hcapture htip ho
    refine ⟨sha256_hex env f.pack, f.pack, ?_, hstored f hf, hheld⟩
    rw [compose_compacted_after, mem_sort_dedup, mem_sort_dedup]
    exact List.mem_map.2 ⟨f, hf, rfl⟩

/-! ## Runs -/

/-- What a push leaves in its workspace is packed whole, whatever it is hydrated from. -/
def Client.Whole (reach : String → Obj → Prop) (holds : Bytes → Obj → Prop) : Client → Prop
  | .push p => ∀ ps ws, p.receive_pack ps = some ws → PacksWhole reach holds ws
  | .announce => True
  | .reannounce => True

end

/-! ## One commit -/

def main_oid : String := String.ofList (List.replicate 40 '1')

def main_refs : Refs := ⟨[("refs/heads/main", main_oid)], List.pairwise_singleton _ _⟩

def main_pack : Bytes := "PACK".toByteArray

/-- A workspace with one branch at a commit without files. -/
def Workspace.main : Workspace :=
  ⟨.ok (String.ofList (listing main_refs.entries)).toByteArray, .ok (some "refs/heads/main"), fun _ _ => .ok main_pack,
    .ok "", fun _ _ => .ok [⟨main_pack, some .empty⟩], fun _ => .error (.PackCapture "index-pack")⟩

def Push.main : Push := ⟨.ok (), fun _ => .ok 0, fun _ => some .main, 100, 100, ⟨.ok (), 0, false⟩⟩

def main_manifest (env : Env) : Manifest :=
  ⟨MANIFEST_VERSION, "refs/heads/main", main_refs, [content_key env "packs" main_pack], none⟩

/-- The branch reaches the commit. -/
def main_reach (tip : String) (_ : Unit) : Prop := tip = main_oid

def main_holds (pack : Bytes) (_ : Unit) : Prop := pack = main_pack

theorem main_whole : PacksWhole main_reach main_holds .main where
  pack_objects _ _ _ h _ _ _ _ _ := (Except.ok.inj h).symm
  pack_files _ _ _ h _ _ _ _ := ⟨⟨main_pack, some .empty⟩, by rw [← Except.ok.inj h]; exact List.mem_singleton_self _, rfl⟩
  nonempty pack _ h := by
    rw [show pack = main_pack from h]
    decide

/-- What is computed of the one ref. -/
theorem main_ref_facts : "refs/heads/main".toList.all (fun c => c ≠ '\n' ∧ c ≠ ' ') = true ∧
    main_oid.utf8ByteSize = 40 ∧ main_oid.toList.all is_ascii_hexdigit = true ∧ trim "refs/heads/main" = "refs/heads/main" ∧
    is_safe_refname "refs/heads/main" = true ∧ is_hex_oid main_oid = true ∧
    resolve_published_head main_refs "refs/heads/main" "" = "refs/heads/main" := by
  decide +kernel

theorem snapshot_main : snapshot_workspace_state .main = .ok (main_refs, "refs/heads/main") := by
  have hlist : Workspace.main.for_each_ref = .ok (String.ofList (listing main_refs.entries)).toByteArray := rfl
  have hhead : Workspace.main.symbolic_ref = .ok (some "refs/heads/main") := rfl
  obtain ⟨hname, hsize, hdigits, htrim, -⟩ := main_ref_facts
  have hlisted : ∀ e ∈ main_refs.entries, Listed e := by
    intro e he
    rw [List.mem_singleton.1 he]
    exact ⟨fun c hc => of_decide_eq_true (List.all_eq_true.1 hname c hc), hsize, hdigits⟩
  have htrim : trim ((some "refs/heads/main").getD "") = "refs/heads/main" := htrim
  rw [snapshot_listing hlist hhead hlisted (by decide) (by decide +kernel), htrim]

theorem main_manifest_wellFormed (env : Env) : WellFormed (main_manifest env) := by
  obtain ⟨-, -, -, -, hname, hoid, -⟩ := main_ref_facts
  refine ⟨rfl, List.pairwise_singleton _ _, Manifest.validate_ok.2 ⟨(by decide : 1 ≤ MAX_MANIFEST_PACKS),
    (by decide : 1 ≤ MAX_MANIFEST_REFS), hname, ?_, ?_,
    fun d hd => by cases hd⟩⟩
  · intro e he
    rw [List.mem_singleton.1 he]
    exact ⟨hname, hoid⟩
  · intro p hp
    rw [List.mem_singleton.1 hp, content_key_packs, is_pack_key, strip_prefix_append]
    exact is_manifest_digest_sha256_hex _

/-- What the push does once it found no pointer. -/
theorem run_main (env : Env) : ∃ k : S3Op.Ans (.get_object (pointer_key 7 "owner" "repo")) → Calls PushError (Option CasSuccess),
    (Client.push .main).run env 7 "owner" "repo" = .call (.get_object (pointer_key 7 "owner" "repo")) k ∧
    k (Except.error (.HttpFailWithBody 404 "")) = ((cas_publish_inner env (pointer_key 7 "owner" "repo") .fresh ⟨0, 100, 100⟩
      .main ⟨.ok (), 0, false⟩ PACK_COMPACTION_THRESHOLD).mapError .Publish).bind (fun suc => .done (.ok (some suc))) :=
  ⟨_, rfl, rfl⟩

theorem history_new_bucket {env : Env} {pkey : String} (hkey : Apart pkey) (bytes : Bytes) (m : Manifest) :
    (new_bucket env bytes m).history pkey = [] := by
  have hmanifest : pkey ≠ manifest_key env m := hkey.manifests _
  have hpack : pkey ≠ content_key env "packs" bytes := hkey.packs _
  rw [new_bucket, Bucket.history_write_ne _ _ _ hmanifest, Bucket.history_send, Bucket.history_write_ne _ _ _ hpack]
  rfl

/-- The bucket after the push. -/
def main_bucket (env : Env) : Bucket :=
  ((new_bucket env main_pack (main_manifest env)).send (pointer_body env (main_manifest env))).write 0
    (pointer_key 7 "owner" "repo") (pointer_body env (main_manifest env))

theorem main_run (env : Env) : ∃ is u, Run (Prog.System.Step (answers env))
    (Clients.start env 7 "owner" "repo" (fun _ => .push .main)) is u ∧ u.shared = main_bucket env := by
  have hkey := pointer_key_apart 7 "owner" "repo"
  have hbytes : checkedAdd 0 main_pack.size = some 4 := by decide
  have hpack : capture_pack .main .new main_refs 100 = .ok (some main_pack) := by
    rw [capture_pack, if_neg (by decide)]
    rfl
  have hcompose : compose_after ParentState.fresh.parent none (resolve_published_head main_refs "refs/heads/main" "") main_refs
      (some (content_key env "packs" main_pack)) = main_manifest env := by
    obtain ⟨-, -, -, -, -, -, hhead⟩ := main_ref_facts
    simp only [compose_after, hhead, ParentState.fresh, List.not_mem_nil, if_false, List.nil_append]
    rfl
  have hpublish := cas_publish_new env (pointer_key 7 "owner" "repo") ⟨0, 100, 100⟩ ⟨.ok (), 0, false⟩ snapshot_main hpack
    hbytes (by decide) rfl
  rw [hcompose] at hpublish
  obtain ⟨k, hpath⟩ := new_path env (fun _ _ => False) (pointer_key 7 "owner" "repo") ⟨0, 100, 100⟩ ⟨.ok (), 0, false⟩
    (main_manifest_wellFormed env).valid hpublish
  obtain ⟨k0, hstart, hnone⟩ := run_main env
  have hfree : (new_bucket env main_pack (main_manifest env)).object (pointer_key 7 "owner" "repo") = none := by
    rw [Bucket.object, history_new_bucket hkey]
    rfl
  obtain ⟨q, hall⟩ : ∃ q, Prog.Path (answers env 0) (fun _ _ => False) .empty
      ((Client.push .main).run env 7 "owner" "repo") (main_bucket env) q := by
    have hrest := ((hpath.mapError PushError.Publish).bind (fun suc => .done (.ok (some suc)))).trans
      (.step (PutAnswer.accepted (r := ⟨200, some ""⟩) hfree) .here)
    rw [← hnone] at hrest
    rw [hstart]
    exact ⟨_, .step ⟨.missing rfl, rfl⟩ hrest⟩
  obtain ⟨is, progs, hrun, -⟩ :=
    Prog.System.run_of_path hall (fun _ => (Client.push .main).run env 7 "owner" "repo") rfl
  exact ⟨is, _, hrun, rfl⟩

end Ambush.Git

import Ambush.Git.Readable
/-!
# The refs of a listing

`for-each-ref` prints a line a ref, whose name is any bytes that git allows. The snapshot reads the
listing as one text, so a single name that is no text takes every ref of the listing with it.
-/
open Lib

namespace Ambush.Git
open Relay (CommunityId)

/-! ## Listings -/

/-- The refs of a repository as git lists them. Of git's rules for names only this is used, that a
name has no control character and no space. An object id has 40 digits, or 64 in a repository of
the newer format. -/
structure RefList where
  refs : List (List UInt8 × String)
  digits : Nat
  names : ∀ e ∈ refs, ∀ b ∈ e.1, 0x20 < b.toNat
  distinct : (refs.map Prod.fst).Nodup
  format : digits = 40 ∨ digits = 64
  oids : ∀ e ∈ refs, e.2.utf8ByteSize = digits ∧ e.2.toList.all is_ascii_hexdigit = true

def git_line (e : List UInt8 × String) : List UInt8 := e.1 ++ 0x20 :: (utf8 e.2 ++ [0x0a])

/-- What `for-each-ref` prints. -/
def RefList.output (l : RefList) : List UInt8 := l.refs.flatMap git_line

/-- The workspace with these refs. -/
def RefList.workspace (l : RefList) (ws : Workspace) : Workspace := { ws with for_each_ref := .ok l.output.toByteArray }

/-- The map has the listed refs and no others. -/
def Exact (l : RefList) (refs : Refs) : Prop := ∀ e, e ∈ l.refs ↔ ∃ name, utf8 name = e.1 ∧ (name, e.2) ∈ refs.entries

/-- A ref whose name is a text. -/
def named (e : String × String) : List UInt8 × String := (utf8 e.1, e.2)

/-! ## Listings that are texts -/

theorem utf8_listing (entries : List (String × String)) :
    utf8 (String.ofList (listing entries)) = (entries.map named).flatMap git_line := by
  have hspace : String.utf8EncodeChar ' ' = [0x20] := by decide
  have hfeed : String.utf8EncodeChar '\n' = [0x0a] := by decide
  induction entries with
  | nil => rfl
  | cons e entries ih =>
    rw [utf8_ofList] at ih ⊢
    rw [listing, List.flatMap_cons, ← listing, List.flatMap_append, ih, List.map_cons, List.flatMap_cons, git_line, ref_line]
    simp only [List.flatMap_append, List.flatMap_cons, hspace, hfeed, named, utf8_eq_flatMap, List.flatMap_nil,
      List.append_assoc, List.cons_append, List.nil_append]

/-- Where the listing is a text, every name in it is one. -/
theorem names_of_text {refs : List (List UInt8 × String)} {chars : List Char}
    (h : chars.flatMap String.utf8EncodeChar = refs.flatMap git_line) :
    ∃ entries : List (String × String), refs = entries.map named := by
  induction refs generalizing chars with
  | nil => exact ⟨[], rfl⟩
  | cons e refs ih =>
    rw [List.flatMap_cons, git_line, List.append_assoc, List.cons_append, List.append_assoc] at h
    obtain ⟨name, c, behind, -, -, hname, hbehind⟩ := cut_at_ascii (by decide) h
    obtain ⟨oid, d, rest, -, -, -, hrest⟩ := cut_at_ascii (by decide) hbehind
    obtain ⟨entries, rfl⟩ := ih hrest
    refine ⟨(String.ofList name, e.2) :: entries, ?_⟩
    rw [List.map_cons, named, utf8_ofList, hname]

theorem named_of_texts {refs : List (List UInt8 × String)} (h : ∀ e ∈ refs, ∃ s, from_utf8 e.1 = some s) :
    ∃ entries : List (String × String), refs = entries.map named := by
  induction refs with
  | nil => exact ⟨[], rfl⟩
  | cons e refs ih =>
    obtain ⟨name, hname⟩ := h e List.mem_cons_self
    obtain ⟨entries, rfl⟩ := ih (fun e he => h e (List.mem_cons_of_mem _ he))
    refine ⟨(name, e.2) :: entries, ?_⟩
    rw [List.map_cons, named, ← from_utf8_eq_some.1 hname]

/-! ## Reading -/

section
variable {l : RefList} {entries : List (String × String)}

theorem RefList.oneLine (h : l.refs = entries.map named) {e : String × String} (he : e ∈ entries) : OneLine e := by
  have hmem : named e ∈ l.refs := by
    rw [h]
    exact List.mem_map_of_mem he
  have hsize : e.2.utf8ByteSize = l.digits := (l.oids _ hmem).1
  have hbyte : ∀ c ∈ e.1.toList, c.toNat < 128 → 0x20 < c.toNat := by
    intro c hc hascii
    have h := l.names _ hmem _ (mem_utf8 hc hascii)
    rw [UInt8.toNat_ofNat'] at h
    omega
  refine ⟨fun c hc => ⟨?_, ?_⟩, ?_, (l.oids _ hmem).2⟩
  · rintro rfl
    exact absurd (hbyte _ hc (by decide)) (by decide)
  · rintro rfl
    exact absurd (hbyte _ hc (by decide)) (by decide)
  · rw [hsize]
    rcases l.format with hdigits | hdigits <;> rw [hdigits] <;> decide

theorem RefList.distinct_names (h : l.refs = entries.map named) : (entries.map Prod.fst).Nodup := by
  have hdistinct := l.distinct
  rw [h, List.map_map] at hdistinct
  rw [← List.nodup_map_iff (f := utf8) (fun _ _ h => utf8_inj h), List.map_map]
  exact hdistinct

theorem read_refs_skips {r : Refs} (h : ∀ e ∈ entries, OneLine e ∧ e.2.utf8ByteSize ≠ 40) :
    read_refs r (entries.map ref_line) = .ok r := by
  induction entries with
  | nil => rfl
  | cons e entries ih =>
    obtain ⟨hline, hsize⟩ := h e List.mem_cons_self
    rw [List.map_cons, read_refs, split_space_line hline]
    simp only [String.ofList_toList, ne_eq, hsize, not_false_eq_true, decide_true, Bool.true_or, ↓reduceIte]
    exact ih (fun e he => h e (List.mem_cons_of_mem _ he))

/-- The loop fails on the bound or collects every entry. -/
theorem mem_read_refs {r r' : Refs} (hentries : ∀ e ∈ entries, OneLine e ∧ e.2.utf8ByteSize = 40)
    (hdistinct : (entries.map Prod.fst).Nodup) (hnew : ∀ e ∈ entries, e.1 ∉ r.keys)
    (h : read_refs r (entries.map ref_line) = .ok r') (p : String × String) : p ∈ r'.entries ↔ p ∈ r.entries ∨ p ∈ entries := by
  induction entries generalizing r with
  | nil =>
    cases h
    simp
  | cons e entries ih =>
    obtain ⟨hline, hsize⟩ := hentries e List.mem_cons_self
    obtain ⟨hne, hdistinct⟩ := List.nodup_cons.1 hdistinct
    have hins : ∀ q, q ∈ (r.insert e.1 e.2).entries ↔ q = e ∨ q ∈ r.entries := fun q =>
      mem_upsert_new (hnew e List.mem_cons_self)
    rw [List.map_cons, read_refs, split_space_line hline] at h
    simp only [String.ofList_toList, hsize, hline.hex, ne_eq, not_true_eq_false, decide_false, Bool.not_true,
      Bool.or_false, Bool.false_eq_true, ↓reduceIte] at h
    split at h
    · cases h
    rw [ih (fun e he => hentries e (List.mem_cons_of_mem _ he)) hdistinct (fun f hf hkey => ?_) h, hins, List.mem_cons]
    · tauto
    · obtain ⟨q, hq, hname⟩ := List.mem_map.1 hkey
      rcases (hins q).1 hq with rfl | hq
      · exact hne (List.mem_map.2 ⟨f, hf, hname.symm⟩)
      · exact hnew f (List.mem_cons_of_mem _ hf) (List.mem_map.2 ⟨q, hq, hname⟩)

/-- Nothing but the text, the bound and HEAD decide the snapshot. -/
theorem snapshot_output {ws : Workspace} {head : Option String} (hhead : ws.symbolic_ref = .ok head)
    (hsize : l.output.length ≤ MAX_REF_SNAPSHOT_BYTES) : snapshot_workspace_state (l.workspace ws) =
      (read_refs .new (lines ((from_utf8 l.output).getD ""))).map (fun refs => (refs, trim (head.getD ""))) := by
  have hbytes : ¬ MAX_REF_SNAPSHOT_BYTES < l.output.toByteArray.size := by
    rw [List.size_toByteArray]
    exact Nat.not_lt.2 hsize
  rw [snapshot_workspace_state, RefList.workspace]
  simp only [bind, Except.bind, if_neg hbytes, hhead, from_utf8]
  cases read_refs .new (lines ((String.fromUTF8? l.output.toByteArray).getD "")) <;> rfl

theorem lines_output (h : l.refs = entries.map named) :
    lines ((from_utf8 l.output).getD "") = entries.map ref_line := by
  rw [RefList.output, h, ← utf8_listing, from_utf8_utf8, Option.getD_some, lines, String.toList_ofList,
    lines_listing (fun e he => l.oneLine h he)]

/-- Without a text, or with the long object ids, the snapshot has no refs. -/
theorem snapshot_empty {ws : Workspace} {head : Option String} (hhead : ws.symbolic_ref = .ok head)
    (hsize : l.output.length ≤ MAX_REF_SNAPSHOT_BYTES)
    (hodd : l.digits ≠ 40 ∨ ∃ e ∈ l.refs, (from_utf8 e.1).isSome = false) :
    snapshot_workspace_state (l.workspace ws) = .ok (.new, trim (head.getD "")) := by
  have hread : read_refs .new (lines ((from_utf8 l.output).getD "")) = .ok .new := by
    cases htext : from_utf8 l.output with
    | none => rfl
    | some text =>
      rw [from_utf8_eq_some, utf8_eq_flatMap] at htext
      obtain ⟨entries, hentries⟩ := names_of_text htext.symm
      have hlong : l.digits ≠ 40 := by
        rcases hodd with hlong | ⟨e, he, hnone⟩
        · exact hlong
        · rw [hentries] at he
          obtain ⟨p, -, rfl⟩ := List.mem_map.1 he
          rw [named, from_utf8_utf8] at hnone
          cases hnone
      rw [← utf8_eq_flatMap, ← from_utf8_eq_some] at htext
      rw [← htext, lines_output hentries]
      refine read_refs_skips (fun e he => ⟨l.oneLine hentries he, ?_⟩)
      have hmem : named e ∈ l.refs := by
        rw [hentries]
        exact List.mem_map_of_mem he
      rw [← (l.oids _ hmem).1] at hlong
      exact hlong
  rw [snapshot_output hhead hsize, hread]
  rfl

theorem snapshot_fails {ws : Workspace} (h : (∃ e, ws.symbolic_ref = .error e) ∨ MAX_REF_SNAPSHOT_BYTES < l.output.length)
    (r : Refs × String) : snapshot_workspace_state (l.workspace ws) ≠ .ok r := by
  rw [snapshot_workspace_state, RefList.workspace]
  simp only [bind, Except.bind, List.size_toByteArray]
  rcases h with ⟨e, he⟩ | hlarge
  · rw [he]
    intro hok
    split at hok
    · cases hok
    · cases hread : read_refs .new (lines ((String.fromUTF8? l.output.toByteArray).getD "")) with
      | error e' =>
        rw [hread] at hok
        cases hok
      | ok refs =>
        rw [hread] at hok
        cases hok
  · rw [if_pos hlarge]
    intro hok
    cases hok

/-- A listing of texts with the short object ids is read in full, or is over a bound. -/
theorem exact_of_texts {ws : Workspace} {refs : Refs} {head : String} (hshort : ∀ e ∈ l.refs, e.2.utf8ByteSize = 40)
    (htexts : ∀ e ∈ l.refs, (from_utf8 e.1).isSome = true)
    (h : snapshot_workspace_state (l.workspace ws) = .ok (refs, head)) : Exact l refs := by
  obtain ⟨entries, hentries⟩ := named_of_texts (fun e he => Option.isSome_iff_exists.1 (htexts e he))
  have hsize : l.output.length ≤ MAX_REF_SNAPSHOT_BYTES := Nat.le_of_not_lt (fun hlarge => snapshot_fails (.inr hlarge) _ h)
  have hread : read_refs .new (entries.map ref_line) = .ok refs := by
    cases hhead : ws.symbolic_ref with
    | error e => exact absurd h (snapshot_fails (.inl ⟨e, hhead⟩) _)
    | ok observed =>
      rw [snapshot_output hhead hsize, lines_output hentries] at h
      cases hrefs : read_refs .new (entries.map ref_line) with
      | error e =>
        rw [hrefs] at h
        cases h
      | ok refs' =>
        rw [hrefs] at h
        cases h
        rfl
  have hlines : ∀ e ∈ entries, OneLine e ∧ e.2.utf8ByteSize = 40 := by
    intro e he
    have hmem : named e ∈ l.refs := by
      rw [hentries]
      exact List.mem_map_of_mem he
    exact ⟨l.oneLine hentries he, hshort _ hmem⟩
  have hmem := mem_read_refs hlines (l.distinct_names hentries) (fun e _ hkey => by cases hkey) hread
  intro e
  rw [hentries, List.mem_map]
  constructor
  · rintro ⟨p, hp, rfl⟩
    exact ⟨p.1, rfl, (hmem p).2 (.inr hp)⟩
  · rintro ⟨name, hname, hin⟩
    rcases (hmem _).1 hin with hnew | hin
    · cases hnew
    · exact ⟨(name, e.2), hin, by rw [named, hname]⟩

end

/-! ## Publication -/

section
variable (env : Env)

/-- Where the call writes the pointer, it names a manifest with exactly the listed refs. -/
def PublishesExact (l : RefList) (pkey : String) : S3Op → Prop
  | .put_object key body _ => pkey = key → ∃ m : Manifest, body = pointer_body env m ∧ Exact l m.refs
  | _ => True

theorem only_elsewhere (l : RefList) {pkey : String} (op : S3Op) (h : Elsewhere pkey op) : PublishesExact env l pkey op := by
  cases op with
  | put_object key body precond => exact fun hsame => absurd hsame h
  | get_object key => trivial
  | head_object key => trivial

theorem yields_publish_delta (ps : ParentState) (limits : PublishLimits) (ws : Workspace) (head : String) (refs : Refs)
    (failure : Option CasError) : Prog.Yields (fun m => m.refs = refs) (publish_delta env ps limits ws head refs failure) := by
  refine Prog.Yields.bind (Prog.Yields.anyway _) (fun o _ => ?_)
  cases o with
  | none => exact .ok rfl
  | some bytes =>
    simp only
    split
    · exact .fail
    split
    · exact .fail
    split
    · exact .fail
    exact (Prog.Yields.anyway _).bind (fun key _ => (Prog.Yields.anyway _).bind (fun _ _ => .ok rfl))

/-- However the packs fare, the manifest has the refs of the snapshot. -/
theorem yields_compose (c : Compaction) (threshold : Nat) (ps : ParentState) (limits : PublishLimits) (ws : Workspace)
    (head : String) (refs : Refs) : Prog.Yields (fun m => m.refs = refs) (compose env c threshold ps limits ws head refs) := by
  rw [compose]
  split
  · refine (Prog.Yields.anyway _).bind (fun r _ => ?_)
    cases r with
    | ok keys => exact .ok rfl
    | error e => exact yields_publish_delta env ps limits ws head refs (some e)
  · exact yields_publish_delta env ps limits ws head refs none

theorem yields_put_manifest (m : Manifest) : Prog.Yields (fun key => key = content_key env "manifests" m.canonical_bytes)
    (put_manifest env m.canonical_bytes) := by
  intro x key hkey
  unfold classify_put at hkey
  split at hkey
  · split at hkey
    · exact (Except.ok.inj hkey).symm
    · cases hkey
  · exact (Except.ok.inj hkey).symm
  · cases hkey

theorem only_commit {l : RefList} {pkey : String} (hkey : Apart pkey) (ps : ParentState) {m : Manifest} (h : Exact l m.refs) :
    Prog.Only (PublishesExact env l pkey) (commit env pkey ps m) := by
  have hput : Prog.Only (PublishesExact env l pkey) (put_manifest env m.canonical_bytes) :=
    (only_put_immutable (hkey.manifests _)).mono (only_elsewhere env l)
  rw [commit]
  cases m.validate with
  | error e => trivial
  | ok _ =>
    refine Prog.Only.bind_of (p := (put_manifest env m.canonical_bytes).mapError CasError.Backend) hput.mapError (yields_put_manifest env m).mapError (fun key hmanifest => ?_)
    subst hmanifest
    simp only [digest_from_content_key]
    refine Prog.Only.bind (p := (put_pointer pkey (pointer_body env m) (precond_of ps)).mapError CasError.Backend) ?_ (fun o => ?_)
    · refine Prog.Only.mapError ?_
      cases precond_of ps with
      | IfNoneMatchStar => exact ⟨fun _ => ⟨m, rfl, h⟩, fun _ => trivial⟩
      | IfMatch tag =>
        rw [put_pointer_ifMatch]
        split
        · exact ⟨fun _ => ⟨m, rfl, h⟩, fun _ => trivial⟩
        · trivial
    · cases o with
      | Won tag => trivial
      | LostRace => exact ((only_read_winner env pkey).mono (only_elsewhere env l)).bind (fun _ => trivial)

/-- Every push whose snapshot is exact publishes no other refs than the listed ones. -/
theorem only_cas_publish {l : RefList} {ws : Workspace} (hexact : ∀ refs head,
    snapshot_workspace_state (l.workspace ws) = .ok (refs, head) → Exact l refs) (community : CommunityId)
    (owner repo : String) (ps : ParentState) (limits : PublishLimits) (c : Compaction) :
    Prog.Only (PublishesExact env l (pointer_key community owner repo))
      (cas_publish env community owner repo ps limits (l.workspace ws) c) := by
  have hkey := pointer_key_apart community owner repo
  cases hsnap : snapshot_workspace_state (l.workspace ws) with
  | error e =>
    rw [cas_publish, cas_publish_inner, hsnap]
    trivial
  | ok r =>
    obtain ⟨refs, observed⟩ := r
    rw [cas_publish, cas_publish_inner, hsnap]
    refine Prog.Only.bind_of (p := compose env c _ ps limits _ _ refs)
      ((only_compose hkey c _ ps limits _ _ refs).mono (only_elsewhere env l))
      (yields_compose env c _ ps limits _ _ refs) (fun m hm => only_commit env hkey ps ?_)
    rw [hm]
    exact hexact refs observed hsnap

end

/-- The snapshot of a listing is exact or an error, and no push publishes other refs, exactly when
the listing is over its bound, HEAD cannot be asked for, there are no refs, or every name is a text
and the object ids are short. -/
theorem snapshot_exact_iff (l : RefList) (ws : Workspace) :
    ((∀ refs head, snapshot_workspace_state (l.workspace ws) = .ok (refs, head) → Exact l refs) ∧
      ∀ (env : Env) (community : CommunityId) (owner repo : String) (ps : ParentState) (limits : PublishLimits) (c : Compaction),
        Prog.Only (PublishesExact env l (pointer_key community owner repo))
          (cas_publish env community owner repo ps limits (l.workspace ws) c)) ↔
    (∃ e, ws.symbolic_ref = .error e) ∨ MAX_REF_SNAPSHOT_BYTES < l.output.length ∨ l.refs = [] ∨
      (l.digits = 40 ∧ ∀ e ∈ l.refs, (from_utf8 e.1).isSome = true) := by
  constructor
  · rintro ⟨hexact, -⟩
    by_contra hnone
    simp only [not_or, not_and_or, not_forall] at hnone
    obtain ⟨hhead, hsize, hne, hodd⟩ := hnone
    cases hasked : ws.symbolic_ref with
    | error e => exact hhead ⟨e, hasked⟩
    | ok head =>
      have hodd : l.digits ≠ 40 ∨ ∃ e ∈ l.refs, (from_utf8 e.1).isSome = false := by
        rcases hodd with hlong | ⟨e, he, hname⟩
        · exact .inl hlong
        · exact .inr ⟨e, he, Bool.eq_false_iff.2 hname⟩
      have hempty := hexact .new _ (snapshot_empty hasked (Nat.le_of_not_lt hsize) hodd)
      obtain ⟨e, he⟩ := List.exists_mem_of_ne_nil _ hne
      obtain ⟨name, -, hin⟩ := (hempty e).1 he
      cases hin
  · intro hcond
    have hexact : ∀ refs head, snapshot_workspace_state (l.workspace ws) = .ok (refs, head) → Exact l refs := by
      intro refs head h
      rcases hcond with hhead | hlarge | hnil | ⟨hdigits, htexts⟩
      · exact absurd h (snapshot_fails (.inl hhead) _)
      · exact absurd h (snapshot_fails (.inr hlarge) _)
      · have hnone : ∀ e, e ∉ l.refs := by
          rw [hnil]
          exact fun e => List.not_mem_nil
        exact exact_of_texts (fun e he => absurd he (hnone e)) (fun e he => absurd he (hnone e)) h
      · exact exact_of_texts (fun e he => (l.oids e he).1.trans hdigits) htexts h
    exact ⟨hexact, fun env => only_cas_publish env hexact⟩

/-- A branch that git allows and whose name is no text, next to `main`. -/
def RefList.odd : RefList where
  refs := [(utf8 "refs/heads/main", String.ofList (List.replicate 40 '1')),
    (utf8 "refs/heads/" ++ [0xff], String.ofList (List.replicate 40 '2'))]
  digits := 40
  names := by decide +kernel
  distinct := by decide +kernel
  format := .inl rfl
  oids := by decide +kernel

/-- The snapshot is a success without any ref, and the push writes a pointer to a manifest without
any. -/
theorem snapshot_drops_refs : RefList.odd.refs ≠ [] ∧
    snapshot_workspace_state (RefList.odd.workspace .bare) = .ok (.new, "refs/heads/main") ∧
    ∃ t k, Prog.Path (answers .small 0) (Meanwhile .small) .empty
      (cas_publish .small 7 "owner" "repo" .fresh ⟨0, 100, 100⟩ (RefList.odd.workspace .bare) ⟨.ok (), 0, false⟩) t
      (.call (.put_object (pointer_key 7 "owner" "repo") (pointer_body .small empty_manifest) .IfNoneMatchStar) k) ∧
    empty_manifest.refs.entries = [] ∧ ¬ Exact RefList.odd empty_manifest.refs := by
  have hodd : ∃ e ∈ RefList.odd.refs, (from_utf8 e.1).isSome = false :=
    ⟨(utf8 "refs/heads/" ++ [0xff], String.ofList (List.replicate 40 '2')), by simp [RefList.odd], by decide +kernel⟩
  have hsnap : snapshot_workspace_state (RefList.odd.workspace .bare) = .ok (.new, "refs/heads/main") := by
    rw [snapshot_empty (l := .odd) rfl (by decide +kernel) (.inr hodd)]
    decide +kernel
  obtain ⟨k, hpath⟩ := nothing_path .small hsnap (pointer_key 7 "owner" "repo") ⟨0, 100, 100⟩ ⟨.ok (), 0, false⟩
  refine ⟨List.cons_ne_nil _ _, hsnap, _, k, hpath, rfl, fun hexact => ?_⟩
  obtain ⟨e, he, -⟩ := hodd
  obtain ⟨name, -, hin⟩ := (hexact e).1 he
  cases hin

end Ambush.Git

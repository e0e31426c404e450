import Ambush.Git.ManifestText
import Ambush.Git.Publish
/-!
# What the bucket always holds

Objects under `manifests/` and `packs/` are the ones their keys name, and the manifests that
the pointer ever named form one chain. `F` is the bucket at the end of a run: that SHA-256 has
no collision, and that ETags tell pointer bodies apart, is only asked of what the run wrote.
-/
open Lib

namespace Ambush.Git
open Relay (CommunityId)

/-! ## Digests and keys -/

section
variable (env : Env)

/-- The digest of a manifest. -/
def digest (m : Manifest) : String := sha256_hex env m.canonical_bytes

/-- What the pointer holds when it names the manifest. -/
def pointer_body (m : Manifest) : Bytes := (digest env m).toByteArray

def manifest_key (m : Manifest) : String := "manifests/" ++ digest env m

theorem content_key_manifests (b : Bytes) : content_key env "manifests" b = "manifests/" ++ sha256_hex env b := rfl

theorem content_key_packs (b : Bytes) : content_key env "packs" b = "packs/" ++ sha256_hex env b := rfl

end

variable {env : Env}

theorem strip_prefix_append (start s : String) : strip_prefix start (start ++ s) = some s := by
  simp [ strip_prefix]

/-- The characters of a digest. -/
theorem mem_sha256_hex {b : Bytes} {c : Char} (h : c ∈ (sha256_hex env b).toList) : ∃ d < 16, c = Nat.digitChar d := by
  rw [sha256_hex, String.toList_ofList] at h
  exact digit_of_mem_hex h

theorem digitChar_facts : ∀ d < 16, (Nat.digitChar d).toNat < 128 ∧ is_whitespace (Nat.digitChar d) = false ∧
    is_ascii_hexdigit (Nat.digitChar d) = true ∧
    ((Nat.digitChar d).isDigit || ('a' ≤ Nat.digitChar d && Nat.digitChar d ≤ 'f')) = true := by decide

theorem utf8ByteSize_sha256_hex (b : Bytes) : (sha256_hex env b).utf8ByteSize = 64 := by
  rw [utf8ByteSize_of_ascii, sha256_hex, String.toList_ofList, length_hex, env.sha256_size]
  intro c hc
  obtain ⟨d, hd, rfl⟩ := mem_sha256_hex hc
  exact (digitChar_facts d hd).1

theorem is_digest_text_sha256_hex (b : Bytes) : is_digest_text (sha256_hex env b) = true := by
  rw [is_digest_text, utf8ByteSize_sha256_hex]
  simp only [decide_true, Bool.true_and, List.all_eq_true]
  intro c hc
  obtain ⟨d, hd, rfl⟩ := mem_sha256_hex hc
  exact (digitChar_facts d hd).2.2.1

theorem is_manifest_digest_sha256_hex (b : Bytes) : is_manifest_digest (sha256_hex env b) = true := by
  rw [is_manifest_digest, utf8ByteSize_sha256_hex]
  simp only [beq_self_eq_true, Bool.true_and, List.all_eq_true]
  intro c hc
  obtain ⟨d, hd, rfl⟩ := mem_sha256_hex hc
  exact (digitChar_facts d hd).2.2.2

theorem dropWhile_eq_self {α : Type} {p : α → Bool} {l : List α} (h : ∀ a ∈ l, p a = false) : l.dropWhile p = l := by
  cases l with
  | nil => rfl
  | cons a l => exact List.dropWhile_cons_of_neg (by simp [h a])

theorem trim_sha256_hex (b : Bytes) : trim (sha256_hex env b) = sha256_hex env b := by
  have h : ∀ c ∈ (sha256_hex env b).toList, is_whitespace c = false := by
    intro c hc
    obtain ⟨d, hd, rfl⟩ := mem_sha256_hex hc
    exact (digitChar_facts d hd).2.1
  rw [trim, dropWhile_eq_self h, dropWhile_eq_self (fun c hc => h c (List.mem_reverse.1 hc)), List.reverse_reverse,
    String.ofList_toList]

theorem pointer_digest_body (m : Manifest) : pointer_digest (pointer_body env m) = some (digest env m) := by
  rw [pointer_digest, pointer_body, fromUTF8_toByteArray, Option.map_some, digest, trim_sha256_hex]

theorem sha256_hex_inj {a b : Bytes} (h : sha256_hex env a = sha256_hex env b) : env.sha256 a = env.sha256 b :=
  hex_inj (String.ofList_inj.1 h)

/-- The pointer's key is none of those the other objects have. -/
structure Apart (pkey : String) : Prop where
  manifests : ∀ d, pkey ≠ "manifests/" ++ d
  packs : ∀ d, pkey ≠ "packs/" ++ d
  idx : ∀ d, pkey ≠ "idx/" ++ d

theorem pointer_key_apart (community : CommunityId) (owner repo : String) : Apart (pointer_key community owner repo) := by
  have hhead : (pointer_key community owner repo).toList.head? = some 'r' := by simp [pointer_key]
  refine ⟨?_, ?_, ?_⟩ <;>
  · intro d h
    rw [h] at hhead
    simp at hhead

/-! ## The bucket grows -/

/-- What was sent and accepted stays. -/
structure Before (s t : Bucket) : Prop where
  sent : ∀ b ∈ s.sent, b ∈ t.sent
  history : ∀ key, s.history key <+: t.history key

namespace Before

theorem refl (s : Bucket) : Before s s := ⟨fun _ h => h, fun _ => List.prefix_refl _⟩

theorem trans {s t u : Bucket} (h : Before s t) (k : Before t u) : Before s u :=
  ⟨fun b hb => k.sent b (h.sent b hb), fun key => (h.history key).trans (k.history key)⟩

theorem mem {s t : Bucket} (h : Before s t) {key : String} {e : Nat × Bytes} (he : e ∈ s.history key) :
    e ∈ t.history key := (h.history key).subset he

theorem of_send (s : Bucket) (body : Bytes) : Before s (s.send body) :=
  ⟨fun _ hb => List.mem_append_left _ hb, fun _ => List.prefix_refl _⟩

theorem of_write (s : Bucket) (writer : Nat) (key : String) (body : Bytes) : Before s (s.write writer key body) := by
  refine ⟨fun _ hb => hb, fun key' => ?_⟩
  by_cases hk : key' = key
  · subst hk
    simp [Bucket.write]
  · simp [Bucket.write, Function.update_of_ne hk]

theorem of_put {writer : Nat} {s t : Bucket} {key : String} {body : Bytes} {precond : Precond}
    {x : Except S3Error PutResponse} (h : PutAnswer env writer s key body precond x t) : Before s t := by
  cases h with
  | accepted hmet => exact (of_send s body).trans (of_write _ _ _ _)
  | refused h => exact of_send s body
  | unexpected h => exact of_send s body
  | unclear hmet h => exact (of_send s body).trans (of_write _ _ _ _)

theorem of_answers {client : Nat} {s t : Bucket} {op : S3Op} {x : op.Ans} (h : answers env client s op x t) :
    Before s t := by
  cases op with
  | get_object key =>
    obtain ⟨-, rfl⟩ := h
    exact refl _
  | head_object key =>
    obtain ⟨-, rfl⟩ := h
    exact refl _
  | put_object key body precond => exact of_put h

end Before

@[simp] theorem Bucket.history_send (s : Bucket) (body : Bytes) : (s.send body).history = s.history := rfl

@[simp] theorem Bucket.object_send (s : Bucket) (body : Bytes) (key : String) : (s.send body).object key = s.object key := rfl

theorem Bucket.history_write_self (s : Bucket) (writer : Nat) (key : String) (body : Bytes) :
    (s.write writer key body).history key = s.history key ++ [(writer, body)] := by
  simp [Bucket.write]

theorem Bucket.history_write_ne (s : Bucket) (writer : Nat) {key key' : String} (body : Bytes) (h : key' ≠ key) :
    (s.write writer key body).history key' = s.history key' := by
  simp [Bucket.write, Function.update_of_ne h]

theorem Bucket.object_write_self (s : Bucket) (writer : Nat) (key : String) (body : Bytes) :
    (s.write writer key body).object key = some body := by
  simp [Bucket.object, Bucket.history_write_self]

theorem Bucket.object_write_ne (s : Bucket) (writer : Nat) {key key' : String} (body : Bytes) (h : key' ≠ key) :
    (s.write writer key body).object key' = s.object key' := by
  simp [Bucket.object, Bucket.history_write_ne s writer body h]

theorem Bucket.object_isSome_of_before {s t : Bucket} (h : Before s t) {key : String} {b : Bytes}
    (hb : s.object key = some b) : ∃ b', t.object key = some b' := by
  obtain ⟨l, hl⟩ := h.history key
  rw [Bucket.object] at hb
  cases hlast : (s.history key).getLast? with
  | none => rw [hlast] at hb; cases hb
  | some e =>
    have hne : t.history key ≠ [] := by
      rw [← hl]
      intro hnil
      rw [(List.append_eq_nil_iff.1 hnil).1] at hlast
      cases hlast
    refine ⟨((t.history key).getLast hne).2, ?_⟩
    rw [Bucket.object, List.getLast?_eq_some_getLast hne]
    rfl

/-! ## Content addressing -/

/-- The folders whose keys are digests. -/
def Folder (folder : String) : Prop := folder = "manifests/" ∨ folder = "packs/"

/-- An object under a content-addressed key is one its key names. -/
def Addressed (env : Env) (s : Bucket) : Prop :=
  ∀ folder d b, Folder folder → s.object (folder ++ d) = some b → sha256_hex env b = d ∧ b ∈ s.sent

/-- No two of the bodies have one digest. -/
def CollisionFree (env : Env) (F : Bucket) : Prop :=
  ∀ a ∈ F.sent, ∀ b ∈ F.sent, env.sha256 a = env.sha256 b → a = b

/-- No two bodies that the pointer ever held have one ETag. -/
def TagsDiffer (env : Env) (F : Bucket) (pkey : String) : Prop :=
  ∀ a ∈ F.history pkey, ∀ b ∈ F.history pkey, env.etag a.2 = env.etag b.2 → a.2 = b.2

structure Base (env : Env) (F s : Bucket) : Prop where
  before : Before s F
  addressed : Addressed env s

section
variable {F s t : Bucket} (hF : CollisionFree env F)
include hF

theorem eq_of_sha256_hex (ht : Before t F) {a b : Bytes} (ha : a ∈ t.sent) (hb : b ∈ t.sent)
    (h : sha256_hex env a = sha256_hex env b) : a = b :=
  hF a (ht.sent a ha) b (ht.sent b hb) (sha256_hex_inj h)

/-- A content-addressed object stays. -/
theorem Base.object_later (hs : Base env F s) (ht : Base env F t) (hst : Before s t) {folder d : String} {b : Bytes}
    (hfolder : Folder folder) (hb : s.object (folder ++ d) = some b) : t.object (folder ++ d) = some b := by
  obtain ⟨b', hb'⟩ := Bucket.object_isSome_of_before hst hb
  obtain ⟨hd, hsent⟩ := hs.addressed folder d b hfolder hb
  obtain ⟨hd', hsent'⟩ := ht.addressed folder d b' hfolder hb'
  rw [hb', eq_of_sha256_hex hF ht.before (hst.sent b hsent) hsent' (hd.trans hd'.symm)]

theorem Base.pack_later (hs : Base env F s) (ht : Base env F t) (hst : Before s t) {a b : Bytes}
    (hb : s.object (content_key env "packs" a) = some b) : t.object (content_key env "packs" a) = some b := by
  rw [content_key_packs] at hb ⊢
  exact hs.object_later hF ht hst (.inr rfl) hb

end

theorem Addressed.put {writer : Nat} {s t : Bucket} {key : String} {body : Bytes} {precond : Precond}
    {x : Except S3Error PutResponse} (h : Addressed env s) (hput : PutAnswer env writer s key body precond x t)
    (hkey : ∀ folder d, Folder folder → key = folder ++ d → d = sha256_hex env body) : Addressed env t := by
  have hsend : Addressed env (s.send body) := by
    intro folder d b hfolder hb
    obtain ⟨hd, hsent⟩ := h folder d b hfolder hb
    exact ⟨hd, List.mem_append_left _ hsent⟩
  have hwrite : Addressed env ((s.send body).write writer key body) := by
    intro folder d b hfolder hb
    by_cases hk : folder ++ d = key
    · rw [hk, Bucket.object_write_self] at hb
      cases hb
      exact ⟨(hkey folder d hfolder hk.symm).symm, List.mem_append_right _ (by simp)⟩
    · rw [Bucket.object_write_ne _ _ _ hk] at hb
      exact hsend folder d b hfolder hb
  cases hput with
  | accepted hmet => exact hwrite
  | refused h => exact hsend
  | unexpected h => exact hsend
  | unclear hmet h => exact hwrite

theorem Folder.eq_of_append {folder folder' d d' : String} (h : Folder folder) (h' : Folder folder')
    (heq : folder ++ d = folder' ++ d') : d = d' := by
  have hlist := congrArg String.toList heq
  rcases h with rfl | rfl <;> rcases h' with rfl | rfl <;> simp at hlist <;> exact String.toList_inj.1 hlist

theorem put_history_ne {writer : Nat} {s t : Bucket} {key pkey : String} {body : Bytes} {precond : Precond}
    {x : Except S3Error PutResponse} (hput : PutAnswer env writer s key body precond x t) (hne : pkey ≠ key) :
    t.history pkey = s.history pkey := by
  cases hput with
  | accepted hmet => exact Bucket.history_write_ne _ _ _ hne
  | refused h => rfl
  | unexpected h => rfl
  | unclear hmet h => exact Bucket.history_write_ne _ _ _ hne

theorem put_sent {writer : Nat} {s t : Bucket} {key : String} {body : Bytes} {precond : Precond}
    {x : Except S3Error PutResponse} (hput : PutAnswer env writer s key body precond x t) : body ∈ t.sent := by
  cases hput with
  | accepted hmet => exact List.mem_append_right _ (by simp)
  | refused h => exact List.mem_append_right _ (by simp)
  | unexpected h => exact List.mem_append_right _ (by simp)
  | unclear hmet h => exact List.mem_append_right _ (by simp)

/-- After a create-only write that succeeded, or that found the key taken, the object is there. -/
theorem object_of_classify_put {writer : Nat} {F s t : Bucket} (hF : CollisionFree env F) {folder : String} {body : Bytes}
    {x : Except S3Error PutResponse} {k k' : String} (hfolder : Folder folder) (ht : Base env F t)
    (hput : PutAnswer env writer s (folder ++ sha256_hex env body) body .IfNoneMatchStar x t)
    (hx : classify_put k x = .ok k') : t.object (folder ++ sha256_hex env body) = some body ∧ k' = k := by
  have hsent := put_sent hput
  cases hput with
  | accepted hmet =>
    refine ⟨Bucket.object_write_self _ _ _ _, ?_⟩
    rw [classify_put] at hx
    split at hx
    · exact (Except.ok.inj hx).symm
    · cases hx
  | refused h =>
    rename_i e
    -- only 412 is taken for a success, and then an object of that digest is there
    cases e with
    | Other message => cases hx
    | HttpFailWithBody status text =>
      by_cases hstatus : status = 412
      · subst hstatus
        have hobj : s.object (folder ++ sha256_hex env body) ≠ none := h rfl
        cases hb : s.object (folder ++ sha256_hex env body) with
        | none => exact absurd hb hobj
        | some b =>
          obtain ⟨hd, hsent'⟩ := ht.addressed folder _ b hfolder hb
          have hbody : b = body := eq_of_sha256_hex hF ht.before hsent' hsent hd
          exact ⟨by rw [Bucket.object_send, hb, hbody], (Except.ok.inj hx).symm⟩
      · simp only [classify_put] at hx
        split at hx
        · next heq => cases heq
        · next heq => cases heq; exact absurd rfl hstatus
        · cases hx
  | unexpected h =>
    rw [classify_put, if_neg (by simp [h])] at hx
    cases hx
  | unclear hmet h =>
    rename_i e
    refine ⟨Bucket.object_write_self _ _ _ _, ?_⟩
    unfold classify_put at hx
    split at hx
    · next heq => cases heq
    · exact (Except.ok.inj hx).symm
    · cases hx

/-! ## The chain of manifests -/

structure WellFormed (m : Manifest) : Prop where
  version : m.version = MANIFEST_VERSION
  packs : m.packs.Pairwise (· < ·)
  valid : m.validate = .ok ()

/-- The writes the pointer accepted, as the manifests they name: the parent of each is the one
before it. `K` is what else is known of a published manifest. -/
structure Published (env : Env) (pkey : String) (K : Bucket → Manifest → Prop) (s : Bucket)
    (chain : List (Nat × Manifest)) : Prop where
  bodies : s.history pkey = chain.map (fun e => (e.1, pointer_body env e.2))
  wellFormed : ∀ e ∈ chain, WellFormed e.2
  stored : ∀ e ∈ chain, s.object (manifest_key env e.2) = some e.2.canonical_bytes
  first : ∀ e ∈ chain.head?, e.2.parent = none
  linked : chain.IsChain (fun a b => b.2.parent = some (digest env a.2))
  good : ∀ e ∈ chain, K s e.2

/-- The pointer's writes by one client. -/
def own (pkey : String) (client : Nat) (s : Bucket) : List (Nat × Bytes) := (s.history pkey).filter (fun e => e.1 == client)

/-- A fact about a manifest that a growing bucket keeps. -/
def Lasting (env : Env) (F : Bucket) (K : Bucket → Manifest → Prop) : Prop :=
  ∀ s t m, Base env F s → Base env F t → Before s t → K s m → K t m

section
variable (env : Env) (F : Bucket) (pkey : String) (K : Bucket → Manifest → Prop)

def Inv (s : Bucket) : Prop := Base env F s ∧ ∃ chain, Published env pkey K s chain

/-- The steps of the bucket in a run that ends in `F`. -/
def answers_within (client : Nat) (s : Bucket) (op : S3Op) (x : op.Ans) (t : Bucket) : Prop :=
  answers env client s op x t ∧ Before t F

/-- What a client does that leaves the pointer alone. -/
def quiet (client : Nat) : Prog.Contract Bucket where
  Inv := Inv env F pkey K
  rely s t := Before s t ∧ own pkey client t = own pkey client s
  guar s t := Before s t ∧ t.history pkey = s.history pkey
  later s t := Before s t ∧ own pkey client t = own pkey client s
  rely_refl s := ⟨.refl s, rfl⟩
  rely_trans h k := ⟨h.1.trans k.1, k.2.trans h.2⟩
  later_trans h k := ⟨h.1.trans k.1, k.2.trans h.2⟩
  rely_later h := h
  guar_later h := ⟨h.1, by rw [own, own, h.2]⟩

/-- A client writes the pointer in its own name only. -/
def pushing (client : Nat) : Prog.Contract Bucket where
  Inv := Inv env F pkey K
  rely s t := Before s t ∧ own pkey client t = own pkey client s
  guar s t := Before s t ∧ ∀ j, j ≠ client → own pkey j t = own pkey j s
  later := Before
  rely_refl s := ⟨.refl s, rfl⟩
  rely_trans h k := ⟨h.1.trans k.1, k.2.trans h.2⟩
  later_trans h k := h.trans k
  rely_later h := h.1
  guar_later h := h.1

end

/-- A fact that what comes later keeps. -/
theorem Published.later {F s t : Bucket} {pkey : String} {K : Bucket → Manifest → Prop} (hF : CollisionFree env F)
    (hK : Lasting env F K) (hs : Base env F s) (ht : Base env F t) (hst : Before s t)
    (hpointer : t.history pkey = s.history pkey) {chain : List (Nat × Manifest)} (h : Published env pkey K s chain) :
    Published env pkey K t chain where
  bodies := by rw [hpointer, h.bodies]
  wellFormed := h.wellFormed
  stored e he := hs.object_later hF ht hst (.inl rfl) (h.stored e he)
  first := h.first
  linked := h.linked
  good e he := hK s t e.2 hs ht hst (h.good e he)

/-! ## The store's functions -/

section
variable {F : Bucket} {pkey : String} {K : Bucket → Manifest → Prop} {client : Nat} {E : Type}

/-- A call that leaves the pointer alone and keeps content addressing. -/
theorem quiet_step {s t : Bucket} (hF : CollisionFree env F) (hK : Lasting env F K) (hs : Inv env F pkey K s)
    (ht : Base env F t) (hst : Before s t) (hpointer : t.history pkey = s.history pkey) :
    Inv env F pkey K t ∧ (quiet env F pkey K client).guar s t := by
  obtain ⟨hbase, chain, hchain⟩ := hs
  exact ⟨⟨ht, chain, hchain.later hF hK hbase ht hst hpointer⟩, hst, hpointer⟩

/-- A read changes nothing. -/
theorem quiet_read {s : Bucket} (hs : Inv env F pkey K s) : Inv env F pkey K s ∧ (quiet env F pkey K client).guar s s :=
  ⟨hs, .refl s, rfl⟩

theorem quiet_put {s t : Bucket} {key : String} {body : Bytes} {precond : Precond} {x : Except S3Error PutResponse}
    (hF : CollisionFree env F) (hK : Lasting env F K) (hs : Inv env F pkey K s) (ht : Before t F) (hne : pkey ≠ key)
    (hkey : ∀ folder d, Folder folder → key = folder ++ d → d = sha256_hex env body)
    (hput : PutAnswer env client s key body precond x t) :
    Inv env F pkey K t ∧ (quiet env F pkey K client).guar s t :=
  quiet_step hF hK hs ⟨ht, hs.1.addressed.put hput hkey⟩ (.of_put hput) (put_history_ne hput hne)

/-- A contract under which objects may be stored beside the pointer. -/
structure Stores (env : Env) (F : Bucket) (pkey : String) (client : Nat) (C : Prog.Contract Bucket) : Prop where
  base : ∀ {s}, C.Inv s → Base env F s
  later : ∀ {s t}, C.later s t → Before s t
  put : ∀ {s t key body precond x}, C.Inv s → Before t F → pkey ≠ key →
    (∀ folder d, Folder folder → key = folder ++ d → d = sha256_hex env body) →
    PutAnswer env client s key body precond x t → C.Inv t ∧ C.guar s t

theorem quiet_stores (hF : CollisionFree env F) (hK : Lasting env F K) :
    Stores env F pkey client (quiet env F pkey K client) where
  base h := h.1
  later h := h.1
  put := quiet_put hF hK

section
variable {C : Prog.Contract Bucket}

theorem Stores.pack_later {s t : Bucket} {a b : Bytes} (hF : CollisionFree env F) (hC : Stores env F pkey client C)
    (hs : C.Inv s) (ht : C.Inv t) (hst : C.later s t) (hb : s.object (content_key env "packs" a) = some b) :
    t.object (content_key env "packs" a) = some b :=
  (hC.base hs).pack_later hF (hC.base ht) (hC.later hst) hb

theorem ensures_put_immutable {s : Bucket} {folder : String} {bytes : Bytes} (hF : CollisionFree env F)
    (hC : Stores env F pkey client C) (hfolder : Folder (folder ++ "/")) (hne : pkey ≠ content_key env folder bytes) :
    Prog.Ensures (answers_within env F client) C (put_immutable env folder bytes)
      (fun key t => key = content_key env folder bytes ∧ t.object key = some bytes) s := by
  intro t _ ht x u hans
  obtain ⟨hput, hu⟩ := hans
  have hkey : ∀ folder' d, Folder folder' → content_key env folder bytes = folder' ++ d → d = sha256_hex env bytes :=
    fun folder' d h' heq => (Folder.eq_of_append hfolder h' heq).symm
  obtain ⟨hinv, hguar⟩ := hC.put ht hu hne hkey hput
  refine ⟨hinv, hguar, fun v huv hv key hkey => ?_⟩
  obtain ⟨hobj, rfl⟩ := object_of_classify_put hF hfolder (hC.base hinv) hput hkey
  exact ⟨rfl, (hC.base hinv).object_later hF (hC.base hv) (hC.later (C.rely_later huv)) hfolder hobj⟩

theorem ensures_put_idx {s : Bucket} {pack_digest : String} {bytes : Bytes} (hC : Stores env F pkey client C)
    (hne : pkey ≠ "idx/" ++ pack_digest) :
    Prog.Ensures (answers_within env F client) C (put_idx pack_digest bytes) (fun _ _ => True) s := by
  intro t _ ht x u hans
  obtain ⟨hput, hu⟩ := hans
  obtain ⟨hinv, hguar⟩ := hC.put ht hu hne (fun folder d hfolder heq => by
    have hlist := congrArg String.toList heq
    rcases hfolder with rfl | rfl <;> simp at hlist) hput
  exact ⟨hinv, hguar, fun _ _ _ _ _ => trivial⟩

end

/-- A manifest that the pointer named at some time. -/
structure Was (env : Env) (pkey : String) (K : Bucket → Manifest → Prop) (s : Bucket) (m : Manifest) : Prop where
  wellFormed : WellFormed m
  named : ∃ writer, (writer, pointer_body env m) ∈ s.history pkey
  stored : s.object (manifest_key env m) = some m.canonical_bytes
  good : K s m

theorem Was.later {s t : Bucket} {m : Manifest} (hF : CollisionFree env F) (hK : Lasting env F K) (hs : Base env F s)
    (ht : Base env F t) (hst : Before s t) (h : Was env pkey K s m) : Was env pkey K t m where
  wellFormed := h.wellFormed
  named := h.named.imp (fun _ hw => hst.mem hw)
  stored := hs.object_later hF ht hst (.inl rfl) h.stored
  good := hK s t m hs ht hst h.good

theorem Published.was {s : Bucket} {chain : List (Nat × Manifest)} (h : Published env pkey K s chain)
    {e : Nat × Manifest} (he : e ∈ chain) : Was env pkey K s e.2 where
  wellFormed := h.wellFormed e he
  named := ⟨e.1, by rw [h.bodies]; exact List.mem_map.2 ⟨e, he, rfl⟩⟩
  stored := h.stored e he
  good := h.good e he

theorem object_mem {s : Bucket} {key : String} {b : Bytes} (h : s.object key = some b) : ∃ e ∈ s.history key, e.2 = b := by
  rw [Bucket.object, Option.map_eq_some_iff] at h
  obtain ⟨e, he, rfl⟩ := h
  exact ⟨e, List.mem_of_getLast? he, rfl⟩

theorem ensures_get_pointer {s : Bucket} (hF : CollisionFree env F) (hK : Lasting env F K) :
    Prog.Ensures (answers_within env F client) (quiet env F pkey K client) (get_pointer pkey)
      (fun o t => ∀ tag body, o = some (tag, body) →
        ∃ m, Was env pkey K t m ∧ body = pointer_body env m ∧ tag = env.etag body) s := by
  intro t _ ht x u hans
  obtain ⟨⟨hget, rfl⟩, -⟩ := hans
  refine ⟨ht, (quiet_read ht).2, fun v huv hv o hr tag body ho => ?_⟩
  subst ho
  cases hget with
  | found hobj htag =>
    rename_i body' tag'
    simp only [classify_pointer] at hr
    cases htag' : tag' with
    | none => rw [htag'] at hr; cases hr
    | some tag'' =>
      rw [htag'] at hr htag
      cases hr
      obtain ⟨e, he, rfl⟩ := object_mem hobj
      obtain ⟨hbase, chain, hchain⟩ := ht
      rw [hchain.bodies] at he
      obtain ⟨f, hf, rfl⟩ := List.mem_map.1 he
      refine ⟨f.2, (hchain.was hf).later hF hK hbase hv.1 huv.1, rfl, ?_⟩
      rcases htag with htag | htag
      · exact Option.some.inj htag
      · cases htag
  | missing hobj => simp [classify_pointer] at hr
  | failed hstatus =>
    rename_i e
    unfold classify_pointer at hr
    split at hr
    · next heq => cases heq
    · cases hr
    · cases hr

/-- A read of a manifest that was published gives its bytes. -/
theorem ensures_get {s : Bucket} {m : Manifest} (hF : CollisionFree env F) (hs : Inv env F pkey K s)
    (hm : Was env pkey K s m) :
    Prog.Ensures (answers_within env F client) (quiet env F pkey K client) (get (manifest_key env m))
      (fun bytes _ => bytes = m.canonical_bytes) s := by
  intro t hst ht x u hans
  obtain ⟨⟨hget, rfl⟩, -⟩ := hans
  have hobj := hs.1.object_later hF ht.1 hst.1 (.inl rfl) hm.stored
  refine ⟨ht, (quiet_read ht).2, fun v _ _ bytes hr => ?_⟩
  cases hget with
  | found hobj' _ =>
    rw [← manifest_key, hobj'] at hobj
    exact (Except.ok.inj hr).symm.trans (Option.some.inj hobj)
  | missing hobj' =>
    rw [← manifest_key, hobj'] at hobj
    exact absurd hobj.symm (Option.some_ne_none _)
  | failed hstatus =>
    unfold classify_get at hr
    split at hr
    · next heq => cases heq
    · cases hr
    · cases hr

end

end Ambush.Git

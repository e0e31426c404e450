import Ambush.Runtime.Replay
/-!
# The files of a live journal

Over every history of a directory, a journal that is open and not poisoned finds its
lock, its checkpoint and its own bytes on the disk, so that an `open` in its place would
load what it has in memory.
-/
open Lib

namespace Ambush.Runtime
open Policy (ActionRequest)

section
variable {h : Host}

/-- What a journal relies on finding in its directory. -/
structure Attached (h : Host) (fs : Files FileName) (journal : DispatchJournal) : Prop where
  lock : fs.names .lock = some journal.writer_lock
  named : fs.names .journal = some journal.state.file
  data : fs.data journal.state.file = journal.state.hashed
  mirrors : Mirrors h journal.state
  checkpoint : ∃ c, read_checkpoint h fs = .ok c ∧ validate_writer h fs journal.writer_lock c = .ok () ∧
    validate_checkpoint h c journal.state.bytes journal.state.hashed = .ok ()

/-- A directory that loads is what the loaded journal relies on. -/
theorem attached_of_load {fs : Files FileName} {journal : DispatchJournal} (hl : load h fs = .ok journal) :
    Attached h fs journal ∧ journal.state.poisoned = false := by
  simp only [load] at hl
  split at hl
  · exact absurd hl (by simp)
  next lock hlock =>
  obtain ⟨c, hc, hl⟩ := (ok_bind_iff _ _ _).1 hl
  obtain ⟨_, hw, hl⟩ := (ok_bind_iff _ _ _).1 hl
  split at hl
  · exact absurd hl (by simp)
  next file hfile =>
  obtain ⟨loaded, hr, hl⟩ := (ok_bind_iff _ _ _).1 hl
  obtain ⟨_, hv, hl⟩ := (ok_bind_iff _ _ _).1 hl
  obtain rfl := Except.ok.inj hl
  obtain ⟨hhashed, hmirrors⟩ := mirrors_of_read_records hr file
  exact ⟨⟨hlock, hfile, hhashed.symm, hmirrors, c, hc, hw, hv⟩, rfl⟩

/-- An `open` in the journal's place loads what the journal has. -/
theorem Attached.load {fs : Files FileName} {journal : DispatchJournal} (ha : Attached h fs journal) :
    ∃ loaded, read_records h (fs.data journal.state.file) = .ok loaded ∧ loaded.read_bytes = journal.state.bytes ∧
      List.Forall₂ (Rereads h.parse_f64) journal.state.records loaded.records ∧
      Runtime.load h fs = .ok ⟨journal.writer_lock,
        ⟨journal.state.file, loaded.records, loaded.read_bytes, false, loaded.hashed⟩⟩ := by
  obtain ⟨loaded, hread, hbytes, hrecords⟩ := ha.mirrors.read_records
  obtain ⟨hhashed, -⟩ := mirrors_of_read_records hread journal.state.file
  obtain ⟨c, hc, hw, hv⟩ := ha.checkpoint
  rw [← ha.data] at hread
  rw [← hbytes, ← hhashed] at hv
  refine ⟨loaded, hread, hbytes, hrecords, ?_⟩
  simp only [Runtime.load, ha.lock, hc, hw, ha.named, hread, hv, bind, Except.bind]

/-! ## Calls on the files -/

/-- What the calls of an append leave when none of them fails. -/
theorem append_calls_ok {fs fs' : Files FileName} {journal : DispatchJournal} {line : Bytes}
    (hold : journal.state.file < fs.next) (hok : (append_calls h fs journal line).2 = .ok ())
    (he : fs.Exec (append_calls h fs journal line).1 fs' true) :
    (∃ bytes, h.checkpoint_to_vec ⟨VERSION, journal.state.bytes + line.length,
        h.sha256_hex (journal.state.hashed ++ line), file_identity h journal.writer_lock⟩ = .ok bytes ∧
      fs'.data fs.next = bytes) ∧
      fs'.names .temporary = none ∧ fs'.names .manifest = some fs.next ∧ fs'.names .lock = fs.names .lock ∧
      fs'.names .journal = fs.names .journal ∧
      fs'.data journal.state.file = fs.data journal.state.file ++ line ∧
      fs'.synced journal.state.file = fs'.data journal.state.file := by
  simp only [append_calls, write_checkpoint] at hok he
  cases hv : h.checkpoint_to_vec ⟨VERSION, journal.state.bytes + line.length,
      h.sha256_hex (journal.state.hashed ++ line), file_identity h journal.writer_lock⟩ with
  | error e => rw [hv] at hok; exact absurd hok (by simp [serialize_bounded])
  | ok bytes =>
    rw [hv] at hok he
    simp only [serialize_bounded] at hok he
    by_cases hlen : bytes.length < MAX_DISPATCH_RECORD_BYTES
    · have hfold := he.foldlM
      have hne : journal.state.file ≠ fs.next := Nat.ne_of_lt hold
      simp only [hlen, ↓reduceIte, checkpoint_calls, List.cons_append, List.nil_append, List.foldlM_cons,
        List.foldlM_nil, Files.apply, Files.write, Option.bind_eq_bind, Option.bind_some, Option.pure_def] at hfold
      split at hfold
      · simp only [Option.bind_some, Option.some.injEq] at hfold
        subst hfold
        refine ⟨⟨bytes, rfl, ?_⟩, ?_⟩
        · simp
        · simp [hne]
      · exact absurd hfold (by simp)
    · simp only [hlen, ↓reduceIte] at hok
      exact absurd hok (by simp)

/-- An append that succeeds leaves the journal attached. -/
theorem Attached.append (hf : h.Faithful) {fs fs' : Files FileName} {journal : DispatchJournal} {call : JournalCall}
    {p : Prepared} (ha : Attached h fs journal) (hb : fs.Bounded) (hp : prepare h journal.state call = .ok p)
    (hok : (append_calls h fs journal p.line).2 = .ok ())
    (he : fs.Exec (append_calls h fs journal p.line).1 fs' true) : Attached h fs' (advance journal p) := by
  obtain ⟨⟨bytes, hv, hmanifest⟩, htemporary, hnamed, hlock, hjournal, hdata, -⟩ := append_calls_ok (hb.lt ha.named) hok he
  have hm := mirrors_advance hf ha.mirrors hp
  have hcount : journal.state.bytes + p.line.length ≤ MAX_DISPATCH_JOURNAL_BYTES := by
    have h1 : journal.state.bytes + p.line.length = (journal.state.hashed ++ p.line).length := hm.1
    rw [h1]
    exact hm.2.1
  obtain ⟨hshort, hslice⟩ := hf.checkpoint _ _ _ _ hcount hv
  refine ⟨by rw [hlock]; exact ha.lock, by rw [hjournal]; exact ha.named, ?_, hm,
    ⟨VERSION, journal.state.bytes + p.line.length, h.sha256_hex (journal.state.hashed ++ p.line),
      file_identity h journal.writer_lock⟩, ?_, ?_, ?_⟩
  · show fs'.data journal.state.file = journal.state.hashed ++ p.line
    rw [hdata, ha.data]
  · simp only [read_checkpoint, htemporary, hnamed, hmanifest, hslice, Nat.not_lt.2 hshort, Option.isSome_none,
      Bool.false_eq_true, ↓reduceIte]
  · simp [validate_writer, hlock, ha.lock, advance]
  · simp [validate_checkpoint, advance]

/-! ## Every history -/

/-- What every history keeps. -/
structure Sound (h : Host) (w : World) : Prop where
  bounded : w.fs.Bounded
  attached : ∀ journal, w.journal = some journal → journal.state.poisoned = false → Attached h w.fs journal

theorem Sound.closed {fs : Files FileName} (hb : fs.Bounded) : Sound h ⟨fs, none⟩ :=
  ⟨hb, fun _ hj => absurd hj (by simp)⟩

theorem Sound.poisoned {fs : Files FileName} {journal : DispatchJournal} (hb : fs.Bounded) :
    Sound h ⟨fs, some (poison journal)⟩ := by
  refine ⟨hb, fun j hj hp => ?_⟩
  obtain rfl := Option.some.inj hj
  exact absurd hp (by simp [poison])

theorem Sound.happens (hf : h.Faithful) {w w' : World} {e : Event} (hs : Sound h w) (hh : Happens h w e w') :
    Sound h w' := by
  cases hh with
  | busy hj he =>
    obtain ⟨hnames, hdata⟩ := he.syncDir
    refine ⟨hs.bounded.exec he, fun j hj' hp => ?_⟩
    obtain ⟨hlock, hnamed, hbytes, hmirrors, c, hc, hw, hv⟩ := hs.attached j hj' hp
    exact ⟨hnames ▸ hlock, hnames ▸ hnamed, hdata ▸ hbytes, hmirrors, c, by simpa only [read_checkpoint, hnames, hdata] using hc,
      by simpa only [validate_writer, hnames] using hw, hv⟩
  | open_failed _ he => exact .closed (hs.bounded.exec he)
  | open_refused _ he _ => exact .closed (hs.bounded.exec he)
  | open_ok _ he _ hl =>
    refine ⟨hs.bounded.exec he, fun j hj _ => ?_⟩
    obtain rfl := Option.some.inj hj
    exact (attached_of_load hl).1
  | open_died _ he => exact .closed (hs.bounded.exec he)
  | refused _ _ => exact hs
  | unread _ _ => exact hs
  | invalid _ _ _ _ => exact .poisoned hs.bounded
  | append_failed _ _ _ he _ => exact .poisoned (hs.bounded.exec he)
  | append_ok hj hp _ he hok =>
    refine ⟨hs.bounded.exec he, fun j hj' _ => ?_⟩
    obtain rfl := Option.some.inj hj'
    exact (hs.attached _ hj (not_poisoned_of_prepare hp)).append hf hs.bounded hp hok he
  | append_died _ _ _ he => exact .closed (hs.bounded.exec he)
  | closed => exact .closed hs.bounded
  | died => exact .closed hs.bounded
  | powerLost hc => exact .closed (hs.bounded.crash hc)

theorem sound_of_run (hf : h.Faithful) {events : List Event} {w : World} (hr : Run (Happens h) {} events w) : Sound h w :=
  hr.inv (fun _ _ _ _ hs hh => hs.happens hf hh) (.closed .empty)

/-! ## When no call on the files fails -/

/-- `open`, when no call on the files fails. -/
def World.opens (h : Host) (w : World) : Option World :=
  if w.journal = none ∧ (open_calls h w.fs).2 = .ok () then do
    let fs ← (open_calls h w.fs).1.foldlM Files.apply w.fs
    let journal ← (load h fs).toOption
    some ⟨fs, some journal⟩
  else none

/-- A call, when no call on the files fails. -/
def World.answers (h : Host) (w : World) (call : JournalCall) : Option (String × World) := do
  let journal ← w.journal
  let p ← (prepare h journal.state call).toOption
  if validate_files h w.fs journal = .ok () ∧ (append_calls h w.fs journal p.line).2 = .ok () then do
    let fs ← (append_calls h w.fs journal p.line).1.foldlM Files.apply w.fs
    some (p.dispatch_id, ⟨fs, some (advance journal p)⟩)
  else none

theorem eq_ok_of_toOption {ε α : Type} {x : Except ε α} {a : α} (hx : x.toOption = some a) : x = .ok a := by
  cases x with
  | error e => exact absurd hx (by simp [Except.toOption])
  | ok b => rw [Option.some.inj hx]

theorem opens_happens {w w' : World} (ho : w.opens h = some w') : Happens h w (.opened (.ok ())) w' := by
  simp only [World.opens] at ho
  split at ho
  next hc =>
    simp only [Option.bind_eq_bind, Option.bind_eq_some_iff] at ho
    obtain ⟨fs, hfs, journal, hl, hw⟩ := ho
    obtain rfl := Option.some.inj hw
    exact .open_ok hc.1 (.of_foldlM hfs) hc.2 (eq_ok_of_toOption hl)
  · exact absurd ho (by simp)

theorem answers_happens {w w' : World} {call : JournalCall} {id : String} (ha : w.answers h call = some (id, w')) :
    Happens h w (.called call (.ok id)) w' := by
  simp only [World.answers, Option.bind_eq_bind, Option.bind_eq_some_iff] at ha
  obtain ⟨journal, hj, p, hp, ha⟩ := ha
  split at ha
  next hc =>
    obtain ⟨fs, hfs, hw⟩ := Option.bind_eq_some_iff.1 ha
    obtain ⟨rfl, rfl⟩ := Prod.mk.inj (Option.some.inj hw)
    exact .append_ok hj (eq_ok_of_toOption hp) hc.1 (.of_foldlM hfs) hc.2
  · exact absurd ha (by simp)

/-! ## Replay -/

/-- The journal replays to itself: whatever happened before, a journal that is open and
that no error poisoned has a file that `read_records` reads to its end, with the byte
count and the records of memory (JSON values as their text reads back), and an `open`
would load them. Records whose values read back as they are come back as they are. -/
theorem journal_replays (hf : h.Faithful) {events : List Event} {w : World} {journal : DispatchJournal}
    (hr : Run (Happens h) {} events w) (hj : w.journal = some journal) (hp : journal.state.poisoned = false) :
    ∃ file loaded, w.fs.names .journal = some file ∧ read_records h (w.fs.data file) = .ok loaded ∧
      loaded.read_bytes = journal.state.bytes ∧
      List.Forall₂ (Rereads h.parse_f64) journal.state.records loaded.records ∧
      ((∀ r ∈ journal.state.records, r.reread h.parse_f64 = r) → loaded.records = journal.state.records) ∧
      load h w.fs = .ok ⟨journal.writer_lock, ⟨file, loaded.records, loaded.read_bytes, false, loaded.hashed⟩⟩ := by
  have ha := (sound_of_run hf hr).attached journal hj hp
  obtain ⟨loaded, hread, hbytes, hrecords, hload⟩ := ha.load
  refine ⟨journal.state.file, loaded, ha.named, hread, hbytes, hrecords, fun hstable => ?_, hload⟩
  exact eq_of_stable hrecords hstable
end

/-! ## A journal on a table of texts -/

section
variable {α : Type} [DecidableEq α]

/-- A writer and a reader of the texts in a table. -/
def written (table : List (α × Bytes)) (a : α) : Except String Bytes :=
  ((table.find? (fun p => p.1 = a)).map (fun p => p.2)).elim (.error "no text") .ok

omit [DecidableEq α] in
def readBack (table : List (α × Bytes)) (bytes : Bytes) : Except String α :=
  ((table.find? (fun p => p.2 = bytes)).map (fun p => p.1)).elim (.error "no value") .ok

theorem written_ok {table : List (α × Bytes)} {a : α} {bytes : Bytes} (hw : written table a = .ok bytes) :
    (a, bytes) ∈ table := by
  cases hp : table.find? (fun p => p.1 = a) with
  | none => rw [written, hp] at hw; exact absurd hw (by simp)
  | some p =>
    rw [written, hp] at hw
    obtain rfl := Except.ok.inj hw
    have ha : p.1 = a := by simpa using List.find?_some hp
    rw [← ha]
    exact List.mem_of_find?_eq_some hp

omit [DecidableEq α] in
theorem readBack_of_mem {table : List (α × Bytes)} {a : α} {bytes : Bytes} (hinj : (table.map (fun p => p.2)).Nodup)
    (hm : (a, bytes) ∈ table) : readBack table bytes = .ok a := by
  cases hp : table.find? (fun p => p.2 = bytes) with
  | none => exact absurd (List.find?_eq_none.1 hp _ hm) (by simp)
  | some p =>
    have ht : p.2 = (a, bytes).2 := by simpa using List.find?_some hp
    rw [readBack, hp, List.inj_on_of_nodup_map hinj (List.mem_of_find?_eq_some hp) hm ht]
    rfl
end

def text (words : List String) : Bytes := words.flatMap text_bytes

def sampleRequest : ActionRequest := ⟨"h", "a", .IsolateHost "x", .Low, .null⟩

def sampleLease : CapabilityLease := ⟨"c", 2, "isolate_host", none⟩

def sampleId : String := "dispatch:0c920cf8dd61cde6673f1e3d5a9d49db3824839d1d41d9f6ac142886c4779fc2"

/-- Its governance receipt is there, and `null`. -/
def sampleReceipt : ResponseReceipt :=
  ⟨"r", "isolate_host", .Enforced, .Executed, "", .null, { governance := some ⟨"g", "", some .null⟩ }⟩

def idWords : List String := ["dispatch:0c920cf8dd61cde6673f1e3d", "5a9d49db3824839d1d41d9f6ac142886c4779fc2"]

def identityWords : List String :=
  ["\x7b\"hunt_id\":\"h\",\"requested_by\":\"a\",", "\"action\":\x7b\"type\":\"isolate_host\",", "\"host_id\":\"x\"\x7d\x7d"]

def requestWords : List String :=
  ["\x7b\"hunt_id\":\"h\",\"requested_by\":\"a\",", "\"action\":\x7b\"type\":\"isolate_host\",",
    "\"host_id\":\"x\"\x7d,\"severity\":\"low\",", "\"evidence\":null\x7d"]

def leaseWords : List String :=
  ["\x7b\"capability_id\":\"c\",\"expires_at_ms\":2,", "\"action\":\"isolate_host\",\"scope\":null\x7d"]

def resultWords : List String :=
  ["\x7b\"Ok\":\x7b\"receipt_id\":\"r\",", "\"action\":\"isolate_host\",\"mode\":\"enforced\",",
    "\"status\":\"executed\",\"summary\":\"\",", "\"details\":null,\"audit\":\x7b\"governance\":\x7b",
    "\"governing_agent_id\":\"g\",\"reason\":\"\",", "\"receipt\":null\x7d\x7d\x7d\x7d"]

def sampleEvents : List (JournalEvent × Bytes) :=
  [(.Header VERSION, text ["\x7b\"kind\":\"header\",\"version\":1\x7d"]),
    (.Intent sampleId sampleRequest sampleLease 1,
      text (["\x7b\"kind\":\"intent\",\"dispatch_id\":\""] ++ idWords ++ ["\",\"request\":"] ++ requestWords ++
        [",\"lease\":"] ++ leaseWords ++ [",\"reserved_at_ms\":1\x7d"])),
    (.Completion sampleId (.ok sampleReceipt),
      text (["\x7b\"kind\":\"completion\",\"dispatch_id\":\""] ++ idWords ++ ["\",\"result\":"] ++ resultWords ++ ["\x7d"]))]

/-- The lines of the sample events, and how they are read. -/
def sampleLines : List (JournalEvent × Bytes) := sampleEvents.map (fun p => (p.1.reread id, p.2 ++ [newline]))

def sampleFile (n : Nat) : Bytes := (sampleLines.take n).flatMap (fun p => p.2)

/-- SHA-256 of the identity's canonical text under its domain, and of the file after each line. -/
def sampleDigests : List (String × Bytes) :=
  [("0c920cf8dd61cde6673f1e3d5a9d49db3824839d1d41d9f6ac142886c4779fc2",
      text ["ambush.dispatch-intent.v1"] ++ 0 :: text ["\x7b\"action\":\x7b\"host_id\":\"x\",",
        "\"type\":\"isolate_host\"\x7d,\"hunt_id\":\"h\",", "\"requested_by\":\"a\"\x7d"]),
    ("6d0d94acd38373e20f019728da11a97f24f92e9bb71d3fffcf510f9db43b1fe2", sampleFile 1),
    ("1a1492182cf718d81a257588faaa04f9790a0d9f5f31b4ab4954612b8ee7f041", sampleFile 2),
    ("7af152e1e4e69facdd7fc0eec852354d71bb33d2823a90eb4e2eb0651de0adb1", sampleFile 3)]

def sampleCheckpoint (bytes : Nat) (count first second : String) : Checkpoint × Bytes :=
  (⟨VERSION, bytes, first ++ second, "1:0"⟩,
    text ["\x7b\"version\":1,\"bytes\":", count, ",\"digest\":\"", first, second, "\",\"writer_identity\":\"1:0\"\x7d"])

def sampleCheckpoints : List (Checkpoint × Bytes) :=
  [sampleCheckpoint 30 "30" "6d0d94acd38373e20f019728da11a97f" "24f92e9bb71d3fffcf510f9db43b1fe2",
    sampleCheckpoint 367 "367" "1a1492182cf718d81a257588faaa04f9" "790a0d9f5f31b4ab4954612b8ee7f041",
    sampleCheckpoint 681 "681" "7af152e1e4e69facdd7fc0eec852354d" "71bb33d2823a90eb4e2eb0651de0adb1"]

/-- A host that knows the texts of one dispatch. -/
def sampleHost : Host where
  to_vec := written sampleEvents
  request_to_vec := written [(sampleRequest, text requestWords)]
  lease_to_vec := written [(sampleLease, text leaseWords)]
  result_to_vec := written [(.ok sampleReceipt, text resultWords)]
  identity_to_vec := written [(⟨"h", "a", .IsolateHost "x"⟩, text identityWords)]
  checkpoint_to_vec := written sampleCheckpoints
  from_slice := readBack sampleLines
  checkpoint_from_slice := readBack sampleCheckpoints
  parse_f64 := id
  ryu := fun _ => ""
  sha256_hex := fun bytes => (readBack sampleDigests bytes).toOption.getD ""
  dev := 1
  ino := id

theorem sampleHost_faithful : sampleHost.Faithful where
  line event bytes hw := by
    have hall : ∀ p ∈ sampleEvents, newline ∉ p.2 := by decide +kernel
    exact hall _ (written_ok hw)
  event event bytes hw read hr := by
    have hinj : (sampleLines.map (fun p => p.2)).Nodup := by decide +kernel
    have hm : (event.reread id, bytes ++ [newline]) ∈ sampleLines := List.mem_map_of_mem (written_ok hw)
    exact Except.ok.inj (hr.symm.trans (readBack_of_mem hinj hm))
  checkpoint count hashed lock bytes _ hw := by
    have hshort : ∀ p ∈ sampleCheckpoints, p.2.length ≤ MAX_CHECKPOINT_BYTES := by decide +kernel
    have hinj : (sampleCheckpoints.map (fun p => p.2)).Nodup := by decide +kernel
    exact ⟨hshort _ (written_ok hw), readBack_of_mem hinj (written_ok hw)⟩

def sampleReserve : JournalCall := .reserve sampleRequest sampleLease 1

/-- The directory after the sample is reserved, and after it is completed. -/
def sampleReserved : Option (String × World) := (World.opens sampleHost {}).bind (fun w => w.answers sampleHost sampleReserve)

def sampleCompleted : Option (String × World) :=
  sampleReserved.bind (fun r => r.2.answers sampleHost (.complete sampleId (.ok sampleReceipt)))

/-- What was reserved, and whether the journal is poisoned. -/
def World.holds (w : World) : Option (Bool × List DispatchRecord) :=
  w.journal.map (fun j => (j.state.poisoned, j.state.records))

theorem sample_reserved : ∃ w journal, Run (Happens sampleHost) {} [.opened (.ok ()), .called sampleReserve (.ok sampleId)] w ∧
    sampleReserved = some (sampleId, w) ∧ w.journal = some journal ∧ journal.state.poisoned = false ∧
    journal.state.records = [⟨sampleId, sampleRequest, sampleLease, 1, none⟩] := by
  have hrun : sampleReserved.map (fun r => (r.1, r.2.holds)) =
      some (sampleId, some (false, [⟨sampleId, sampleRequest, sampleLease, 1, none⟩])) := by decide +kernel
  obtain ⟨⟨id, w⟩, hw, heq⟩ := Option.map_eq_some_iff.1 hrun
  obtain ⟨hid, hholds⟩ := Prod.mk.inj heq
  obtain rfl : id = sampleId := hid
  obtain ⟨journal, hj, hstate⟩ := Option.map_eq_some_iff.1 hholds
  obtain ⟨hpoison, hrecords⟩ := Prod.mk.inj hstate
  obtain ⟨w1, hopen, hreserve⟩ := Option.bind_eq_some_iff.1 hw
  exact ⟨w, journal, .cons (opens_happens hopen) (.single (answers_happens hreserve)), hw, hj, hpoison, hrecords⟩

/-- A reservation is read back as it is in memory. -/
theorem journal_replays_reserved : ∃ w journal file loaded,
    Run (Happens sampleHost) {} [.opened (.ok ()), .called sampleReserve (.ok sampleId)] w ∧ w.journal = some journal ∧
      w.fs.names .journal = some file ∧ read_records sampleHost (w.fs.data file) = .ok loaded ∧
      loaded.records = journal.state.records ∧
      journal.state.records = [⟨sampleId, sampleRequest, sampleLease, 1, none⟩] := by
  obtain ⟨w, journal, hr, -, hj, hp, hrecords⟩ := sample_reserved
  obtain ⟨file, loaded, hfile, hread, -, -, hstable, -⟩ := journal_replays sampleHost_faithful hr hj hp
  refine ⟨w, journal, file, loaded, hr, hj, hfile, hread, hstable ?_, hrecords⟩
  intro r hr
  rw [hrecords, List.mem_singleton] at hr
  subst hr
  decide

/-- A receipt that is there and `null` is read back as absent: the records of the file are
not those of memory. -/
theorem null_receipt_read_as_absent : sampleHost.Faithful ∧ ∃ w journal file loaded,
    Run (Happens sampleHost) {} [.opened (.ok ()), .called sampleReserve (.ok sampleId),
      .called (.complete sampleId (.ok sampleReceipt)) (.ok sampleId)] w ∧
      w.journal = some journal ∧ journal.state.poisoned = false ∧ w.fs.names .journal = some file ∧
      read_records sampleHost (w.fs.data file) = .ok loaded ∧ loaded.records ≠ journal.state.records := by
  obtain ⟨w1, -, hr, hreserved, -⟩ := sample_reserved
  have hrun : sampleCompleted.bind (fun r => r.2.journal.bind (fun j =>
      (read_records sampleHost (r.2.fs.data j.state.file)).toOption.map (fun l =>
        (r.1, j.state.poisoned, decide (l.records = j.state.records))))) = some (sampleId, false, false) := by
    decide +kernel
  obtain ⟨⟨id, w⟩, hw, h1⟩ := Option.bind_eq_some_iff.1 hrun
  obtain ⟨journal, hj, h2⟩ := Option.bind_eq_some_iff.1 h1
  obtain ⟨loaded, hread, h3⟩ := Option.map_eq_some_iff.1 h2
  obtain ⟨rfl, h4⟩ := Prod.mk.inj h3
  obtain ⟨hpoison, hne⟩ := Prod.mk.inj h4
  rw [sampleCompleted, hreserved] at hw
  have hr' := hr.append (.single (answers_happens hw))
  have hattached := (sound_of_run sampleHost_faithful hr').attached journal hj hpoison
  exact ⟨sampleHost_faithful, w, journal, _, loaded, hr', hj, hpoison, hattached.named, eq_ok_of_toOption hread,
    of_decide_eq_false hne⟩

end Ambush.Runtime

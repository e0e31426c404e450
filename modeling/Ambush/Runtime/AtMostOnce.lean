import Ambush.Runtime.LiveJournal
/-!
# A permission is consumed once

Over every history of a directory, with processes that die inside any call and machines
that lose what was not synced, no dispatch id is reserved twice. What carries this: once
an id was returned, its intent is in the synced part of a file that the directory can no
longer lose, and no successful read of a longer file forgets it.
-/
open Lib

namespace Ambush.Runtime
open Policy (ActionRequest)

/-- The ids a journal refuses to reserve again. -/
def ids (records : List DispatchRecord) : List String := records.map DispatchRecord.dispatch_id

/-- The permission that an event hands out. -/
def Event.reserved : Event → Option String
  | .called (.reserve _ _ _) (.ok id) => some id
  | _ => none

theorem reserved_error (call : JournalCall) (e : DispatchJournalError) : (Event.called call (.error e)).reserved = none := by
  cases call <;> rfl

section
variable {h : Host}

/-! ## Reading forgets no id -/

theorem ids_complete (dispatch_id : String) (result : ResponseResult) (records : List DispatchRecord) :
    ids (updateBy DispatchRecord.dispatch_id dispatch_id (fun r => { r with completion := some result }) records) =
      ids records := by
  refine map_key_updateBy (fun r => ?_) records
  rfl

theorem ids_replay_event {records records' : List DispatchRecord} {event : JournalEvent}
    (hr : replay_event h records event = .ok records') {id : String} (hid : id ∈ ids records) : id ∈ ids records' := by
  cases event with
  | Header version => exact absurd hr (by simp [replay_event])
  | Intent dispatch_id request lease reserved_at_ms =>
    simp only [replay_event] at hr
    obtain ⟨found, -, hr⟩ := (ok_bind_iff _ _ _).1 hr
    split at hr
    · exact absurd hr (by simp)
    split at hr
    · exact absurd hr (by simp)
    split at hr
    · exact absurd hr (by simp)
    obtain rfl := Except.ok.inj hr
    exact mem_keys_insertBy.2 (.inr hid)
  | Completion dispatch_id result =>
    simp only [replay_event] at hr
    split at hr
    · exact absurd hr (by simp)
    split at hr
    · exact absurd hr (by simp)
    obtain rfl := Except.ok.inj hr
    rw [ids_complete]
    exact hid

theorem ids_read_line {ld ld' : Loaded} {line : Bytes} (hr : read_line h ld line = .ok ld') {id : String}
    (hid : id ∈ ids ld.records) : id ∈ ids ld'.records := by
  obtain ⟨-, -, -, -, -, hsame | ⟨event, hreplay⟩⟩ := read_line_ok hr
  · rw [hsame]
    exact hid
  · exact ids_replay_event hreplay hid

theorem ids_fold_lines {lines : List Bytes} {ld ld' : Loaded} (hr : lines.foldlM (read_line h) ld = .ok ld')
    {id : String} (hid : id ∈ ids ld.records) : id ∈ ids ld'.records := by
  induction lines generalizing ld with
  | nil =>
    obtain rfl := Except.ok.inj hr
    exact hid
  | cons line lines ih =>
    rw [List.foldlM_cons] at hr
    obtain ⟨ld1, hline, hr⟩ := (ok_bind_iff _ _ _).1 hr
    exact ih hr (ids_read_line hline hid)

/-- A file that starts with these lines is read with the ids they record. -/
theorem ids_read_records {lines : List Bytes} {ld loaded : Loaded} {bytes : Bytes}
    (hlines : ∀ line ∈ lines, IsLine line) (hfold : lines.foldlM (read_line h) {} = .ok ld)
    (hpre : lines.flatten <+: bytes) (hr : read_records h bytes = .ok loaded) {id : String} (hid : id ∈ ids ld.records) :
    id ∈ ids loaded.records := by
  obtain ⟨rest, rfl⟩ := hpre
  simp only [read_records] at hr
  split at hr
  · exact absurd hr (by simp)
  rw [@read_loop_lines h lines hlines {} rest, hfold] at hr
  obtain ⟨ld', hrest, hr⟩ := (ok_bind_iff _ _ _).1 hr
  split at hr
  · exact absurd hr (by simp)
  obtain rfl := Except.ok.inj hr
  obtain ⟨more, -, -, hmore⟩ := lines_of_read_loop (Nat.le_refl _) hrest
  exact ids_fold_lines hmore hid

/-! ## What a call adds -/

theorem ids_prepare {state : JournalState} {call : JournalCall} {p : Prepared} (hp : prepare h state call = .ok p)
    {id : String} (hid : id ∈ ids state.records) : id ∈ ids p.records := by
  cases call with
  | reserve request lease now_ms =>
    obtain ⟨-, -, -, -, -, -, happend⟩ := prepare_reserve_ok hp
    obtain ⟨-, -, hrecords, -⟩ := prepare_append_ok happend
    rw [hrecords]
    exact mem_keys_insertBy.2 (.inr hid)
  | complete dispatch_id result =>
    obtain ⟨-, -, happend⟩ := prepare_complete_ok hp
    obtain ⟨-, -, hrecords, -⟩ := prepare_append_ok happend
    rw [hrecords, ids_complete]
    exact hid

/-- A reservation adds an id that was not there. -/
theorem reserve_new {state : JournalState} {request : ActionRequest} {lease : CapabilityLease} {now_ms : Int}
    {p : Prepared} (hp : prepare h state (.reserve request lease now_ms) = .ok p) :
    request_id h request = .ok p.dispatch_id ∧ p.dispatch_id ∉ ids state.records ∧ p.dispatch_id ∈ ids p.records := by
  obtain ⟨-, hid, hnew, -, -, -, happend⟩ := prepare_reserve_ok hp
  obtain ⟨-, -, hrecords, -⟩ := prepare_append_ok happend
  refine ⟨hid, hnew, ?_⟩
  rw [hrecords]
  exact mem_keys_insertBy.2 (.inl rfl)

/-! ## What the disk holds -/

/-- The calls leave the lock and the journal under their names. -/
def SparesJournal (op : FileOp FileName) : Prop := op.Spares .lock ∧ op.Spares .journal

theorem append_calls_spare (fs : Files FileName) (journal : DispatchJournal) (line : Bytes) :
    ∀ op ∈ (append_calls h fs journal line).1, SparesJournal op := by
  intro op hop
  have hcases : op = .write journal.state.file line ∨ op = .sync journal.state.file ∨
      ∃ bytes, op ∈ checkpoint_calls fs.next bytes := by
    simp only [append_calls, write_checkpoint] at hop
    split at hop
    · simp only [List.append_nil, List.mem_cons, List.not_mem_nil, or_false] at hop
      rcases hop with rfl | rfl
      · exact .inl rfl
      · exact .inr (.inl rfl)
    · next bytes _ =>
      rcases List.mem_append.1 hop with hop | hop
      · simp only [List.mem_cons, List.not_mem_nil, or_false] at hop
        rcases hop with rfl | rfl
        · exact .inl rfl
        · exact .inr (.inl rfl)
      · exact .inr (.inr ⟨bytes, hop⟩)
  rcases hcases with rfl | rfl | ⟨bytes, hop⟩
  · exact ⟨trivial, trivial⟩
  · exact ⟨trivial, trivial⟩
  · simp only [checkpoint_calls, List.mem_cons, List.not_mem_nil, or_false] at hop
    rcases hop with rfl | rfl | rfl | rfl | rfl <;> simp [SparesJournal, FileOp.Spares]

/-- With a lock file in place, `open` only syncs the directory. -/
theorem open_calls_of_lock {fs : Files FileName} {lock : Nat} (hl : fs.names .lock = some lock) :
    (open_calls h fs).1 = [.syncDir] := by
  simp only [open_calls, hl]

theorem syncDir_spares : ∀ op ∈ [(FileOp.syncDir : FileOp FileName)], SparesJournal op := by
  intro op hop
  rw [List.mem_singleton.1 hop]
  exact ⟨trivial, trivial⟩

/-- The last call of an `open` that gets to read is a sync of the directory. -/
theorem open_calls_sync {fs : Files FileName} (hok : (open_calls h fs).2 = .ok ()) :
    ∃ ops, (open_calls h fs).1 = ops ++ [.syncDir] := by
  simp only [open_calls] at hok ⊢
  split
  · exact ⟨[], rfl⟩
  next hnone =>
  simp only [hnone, create_calls] at hok ⊢
  split at hok
  · exact absurd hok (by simp)
  next hno =>
  simp only [if_neg hno]
  split at hok
  · exact absurd hok (by simp)
  next header _ =>
  simp only [write_checkpoint] at hok ⊢
  split at hok
  · exact absurd hok (by simp)
  next bytes hbytes =>
  exact ⟨.syncDir :: ([.create .lock, .create .journal, .write (fs.next + 1) header, .sync (fs.next + 1),
    .sync fs.next, .syncDir] ++ [.create .temporary, .write (fs.next + 2) bytes, .sync (fs.next + 2),
    .rename .temporary .manifest]), rfl⟩

/-- The directory can lose neither the journal nor the lines that record these ids. -/
def Recorded (h : Host) (fs : Files FileName) (reserved : List String) : Prop :=
  ∃ lock file, Pinned fs .lock lock ∧ Pinned fs .journal file ∧
    ∃ lines : List Bytes, (∀ line ∈ lines, IsLine line) ∧ Kept fs file lines.flatten ∧
      ∃ ld, lines.foldlM (read_line h) {} = .ok ld ∧ ∀ id ∈ reserved, id ∈ ids ld.records

theorem Recorded.exec {fs fs' : Files FileName} {reserved : List String} {ops : List (FileOp FileName)} {done : Bool}
    (hr : Recorded h fs reserved) (he : fs.Exec ops fs' done) (hops : ∀ op ∈ ops, SparesJournal op) :
    Recorded h fs' reserved := by
  obtain ⟨lock, file, hlock, hfile, lines, hlines, hkept, hrest⟩ := hr
  exact ⟨lock, file, hlock.exec he (fun op hop => (hops op hop).1), hfile.exec he (fun op hop => (hops op hop).2),
    lines, hlines, hkept.exec hfile he (fun op hop => (hops op hop).2), hrest⟩

theorem Recorded.crash {fs fs' : Files FileName} {reserved : List String} (hr : Recorded h fs reserved)
    (hc : fs.Crash fs') : Recorded h fs' reserved := by
  obtain ⟨lock, file, hlock, hfile, lines, hlines, hkept, hrest⟩ := hr
  exact ⟨lock, file, hlock.crash hc, hfile.crash hc, lines, hlines, hkept.crash hc, hrest⟩

/-- `open` finds the lock, so it creates nothing. -/
theorem Recorded.open_calls {fs fs' : Files FileName} {reserved : List String} {done : Bool}
    (hr : Recorded h fs reserved) (he : fs.Exec (Runtime.open_calls h fs).1 fs' done) : Recorded h fs' reserved := by
  obtain ⟨lock, -, hlock, -⟩ := id hr
  rw [open_calls_of_lock hlock.names] at he
  exact hr.exec he syncDir_spares

/-- A journal that loads knows every id on record. -/
theorem Recorded.load {fs : Files FileName} {reserved : List String} {journal : DispatchJournal}
    (hr : Recorded h fs reserved) (hl : Runtime.load h fs = .ok journal) :
    ∀ id ∈ reserved, id ∈ ids journal.state.records := by
  obtain ⟨lock, file, -, hfile, lines, hlines, hkept, ld, hfold, hids⟩ := hr
  obtain ⟨ha, -⟩ := attached_of_load hl
  obtain rfl := Option.some.inj (ha.named.symm.trans hfile.names)
  obtain ⟨loaded, hread, -, hrecords, -⟩ := ha.load
  have hkeys : ids loaded.records = ids journal.state.records := forall₂_keys Rereads.key hrecords
  intro id hid
  rw [← hkeys]
  exact ids_read_records hlines hfold (hkept.1.trans hkept.2) hread (hids id hid)

/-- An append that succeeds puts its line on the disk before it answers. -/
theorem recorded_append (hf : h.Faithful) {fs fs' : Files FileName} {journal : DispatchJournal} {call : JournalCall}
    {p : Prepared} {reserved : List String} (ha : Attached h fs journal) (hb : fs.Bounded)
    (hlock : Pinned fs .lock journal.writer_lock) (hfile : Pinned fs .journal journal.state.file)
    (hp : prepare h journal.state call = .ok p) (hok : (append_calls h fs journal p.line).2 = .ok ())
    (he : fs.Exec (append_calls h fs journal p.line).1 fs' true) (hids : ∀ id ∈ reserved, id ∈ ids p.records) :
    Recorded h fs' reserved := by
  have ha' := ha.append hf hb hp hok he
  have hspare := @append_calls_spare h fs journal p.line
  obtain ⟨-, -, -, -, -, -, hsynced⟩ := append_calls_ok (hb.lt ha.named) hok he
  obtain ⟨-, -, lines, hlines, hflat, -, ld, hfold, hrecords⟩ := ha'.mirrors
  have hkeys : ids ld.records = ids p.records := forall₂_keys Rereads.key hrecords
  have hdata : fs'.data journal.state.file = lines.flatten := ha'.data.trans hflat
  refine ⟨journal.writer_lock, journal.state.file, hlock.exec he (fun op hop => (hspare op hop).1),
    hfile.exec he (fun op hop => (hspare op hop).2), lines, hlines, ?_, ld, hfold, ?_⟩
  · rw [Kept, hsynced, hdata]
    exact ⟨List.prefix_refl _, List.prefix_refl _⟩
  · rw [hkeys]
    exact hids

/-! ## Every history -/

/-- What a history keeps of the permissions it handed out. -/
structure Once (h : Host) (w : World) (reserved : List String) : Prop where
  sound : Sound h w
  pinned : ∀ journal, w.journal = some journal →
    Pinned w.fs .lock journal.writer_lock ∧ Pinned w.fs .journal journal.state.file
  known : ∀ journal, w.journal = some journal → journal.state.poisoned = false →
    ∀ id ∈ reserved, id ∈ ids journal.state.records
  recorded : reserved ≠ [] → Recorded h w.fs reserved
  nodup : reserved.Nodup

theorem Once.closed {fs : Files FileName} {reserved : List String} (hb : fs.Bounded)
    (hr : reserved ≠ [] → Recorded h fs reserved) (hn : reserved.Nodup) : Once h ⟨fs, none⟩ reserved :=
  ⟨.closed hb, fun _ hj => absurd hj (by simp), fun _ hj => absurd hj (by simp), hr, hn⟩

/-- An append that failed, or that its process did not survive, hands out nothing. -/
theorem Once.append_failed {w : World} {reserved : List String} {journal : DispatchJournal} {line : Bytes}
    {fs : Files FileName} {done : Bool} (ho : Once h w reserved) (hj : w.journal = some journal)
    (he : w.fs.Exec (append_calls h w.fs journal line).1 fs done) :
    Once h ⟨fs, some (poison journal)⟩ reserved ∧ Once h ⟨fs, none⟩ reserved := by
  have hspare := @append_calls_spare h w.fs journal line
  have hb := ho.sound.bounded.exec he
  have hrec : reserved ≠ [] → Recorded h fs reserved := fun hne => (ho.recorded hne).exec he hspare
  obtain ⟨hlock, hfile⟩ := ho.pinned journal hj
  refine ⟨⟨.poisoned hb, fun j hj' => ?_, fun j hj' hp => ?_, hrec, ho.nodup⟩, .closed hb hrec ho.nodup⟩
  · obtain rfl := Option.some.inj hj'
    exact ⟨hlock.exec he (fun op hop => (hspare op hop).1), hfile.exec he (fun op hop => (hspare op hop).2)⟩
  · obtain rfl := Option.some.inj hj'
    exact absurd hp (by simp [poison])

/-- `open` hands out nothing, and what it loads knows every id. -/
theorem Once.open_ok {w : World} {reserved : List String} {journal : DispatchJournal} {fs : Files FileName}
    (ho : Once h w reserved) (he : w.fs.Exec (open_calls h w.fs).1 fs true) (hok : (open_calls h w.fs).2 = .ok ())
    (hl : load h fs = .ok journal) : Once h ⟨fs, some journal⟩ reserved := by
  have hb := ho.sound.bounded.exec he
  have hrec : reserved ≠ [] → Recorded h fs reserved := fun hne => (ho.recorded hne).open_calls he
  obtain ⟨ha, -⟩ := attached_of_load hl
  obtain ⟨ops, hops⟩ := open_calls_sync hok
  rw [hops] at he
  refine ⟨⟨hb, fun j hj _ => ?_⟩, fun j hj => ?_, fun j hj _ id hid => ?_, hrec, ho.nodup⟩
  all_goals obtain rfl := Option.some.inj hj
  · exact ha
  · exact ⟨.of_leaves hb ha.lock (he.leaves_of_syncDir _), .of_leaves hb ha.named (he.leaves_of_syncDir _)⟩
  · exact (hrec (List.ne_nil_of_mem hid)).load hl id hid

theorem Once.append_ok (hf : h.Faithful) {w : World} {reserved : List String} {journal : DispatchJournal}
    {call : JournalCall} {p : Prepared} {fs : Files FileName} (ho : Once h w reserved) (hj : w.journal = some journal)
    (hp : prepare h journal.state call = .ok p) (he : w.fs.Exec (append_calls h w.fs journal p.line).1 fs true)
    (hok : (append_calls h w.fs journal p.line).2 = .ok ()) :
    Once h ⟨fs, some (advance journal p)⟩ (reserved ++ (Event.called call (.ok p.dispatch_id)).reserved.toList) := by
  have hpoison := not_poisoned_of_prepare hp
  have ha := ho.sound.attached journal hj hpoison
  have hb := ho.sound.bounded
  obtain ⟨hlock, hfile⟩ := ho.pinned journal hj
  have hspare := @append_calls_spare h w.fs journal p.line
  have hknown := ho.known journal hj hpoison
  have hnew : (∀ id ∈ reserved ++ (Event.called call (.ok p.dispatch_id)).reserved.toList, id ∈ ids p.records) ∧
      (reserved ++ (Event.called call (.ok p.dispatch_id)).reserved.toList).Nodup := by
    cases call with
    | reserve request lease now_ms =>
      obtain ⟨-, hfresh, hmem⟩ := reserve_new hp
      constructor
      · intro id hid
        rcases List.mem_append.1 hid with hid | hid
        · exact ids_prepare hp (hknown id hid)
        · rw [List.mem_singleton.1 hid]
          exact hmem
      · refine List.nodup_append.2 ⟨ho.nodup, List.nodup_singleton _, fun a ha b hb hab => ?_⟩
        rw [hab, List.mem_singleton.1 hb] at ha
        exact hfresh (hknown _ ha)
    | complete dispatch_id result =>
      simp only [Event.reserved, Option.toList_none, List.append_nil]
      exact ⟨fun id hid => ids_prepare hp (hknown id hid), ho.nodup⟩
  refine ⟨⟨hb.exec he, fun j hj' _ => ?_⟩, fun j hj' => ?_, fun j hj' _ => ?_,
    fun _ => recorded_append hf ha hb hlock hfile hp hok he hnew.1, hnew.2⟩
  all_goals obtain rfl := Option.some.inj hj'
  · exact ha.append hf hb hp hok he
  · exact ⟨hlock.exec he (fun op hop => (hspare op hop).1), hfile.exec he (fun op hop => (hspare op hop).2)⟩
  · exact hnew.1

theorem Once.happens (hf : h.Faithful) {w w' : World} {e : Event} {reserved : List String} (ho : Once h w reserved)
    (hh : Happens h w e w') : Once h w' (reserved ++ e.reserved.toList) := by
  have hnone : e.reserved = none → Once h w' reserved → Once h w' (reserved ++ e.reserved.toList) := by
    intro he ho'
    rw [he, Option.toList_none, List.append_nil]
    exact ho'
  have hopen : ∀ {fs done}, w.fs.Exec (open_calls h w.fs).1 fs done → Once h ⟨fs, none⟩ reserved := by
    intro fs done he
    exact .closed (ho.sound.bounded.exec he) (fun hne => (ho.recorded hne).open_calls he) ho.nodup
  cases hh with
  | busy hj he =>
    refine hnone rfl ⟨ho.sound.happens hf (.busy hj he), fun j hj' => ?_, ho.known, fun hne => (ho.recorded hne).exec he syncDir_spares,
      ho.nodup⟩
    obtain ⟨hlock, hfile⟩ := ho.pinned j hj'
    exact ⟨hlock.exec he (fun op hop => (syncDir_spares op hop).1), hfile.exec he (fun op hop => (syncDir_spares op hop).2)⟩
  | open_failed _ he => exact hnone rfl (hopen he)
  | open_refused _ he _ => exact hnone rfl (hopen he)
  | open_ok _ he hok hl => exact hnone rfl (ho.open_ok he hok hl)
  | open_died _ he => exact hnone rfl (hopen he)
  | refused _ _ => exact hnone (reserved_error _ _) ho
  | unread _ _ => exact hnone (reserved_error _ _) ho
  | invalid hj _ _ _ =>
    have hpin := ho.pinned _ hj
    refine hnone (reserved_error _ _) ⟨.poisoned ho.sound.bounded, fun j hj' => ?_, fun j hj' hp => ?_, ho.recorded, ho.nodup⟩
    · obtain rfl := Option.some.inj hj'
      exact hpin
    · obtain rfl := Option.some.inj hj'
      exact absurd hp (by simp [poison])
  | append_failed hj _ _ he _ => exact hnone (reserved_error _ _) (ho.append_failed hj he).1
  | append_ok hj hp _ he hok => exact ho.append_ok hf hj hp he hok
  | append_died hj _ _ he => exact hnone rfl (ho.append_failed hj he).2
  | closed => exact hnone rfl (.closed ho.sound.bounded ho.recorded ho.nodup)
  | died => exact hnone rfl (.closed ho.sound.bounded ho.recorded ho.nodup)
  | powerLost hc =>
    exact hnone rfl (.closed (ho.sound.bounded.crash hc) (fun hne => (ho.recorded hne).crash hc) ho.nodup)

theorem once_of_run (hf : h.Faithful) {events : List Event} {w : World} (hr : Run (Happens h) {} events w) :
    Once h w (events.filterMap Event.reserved) := by
  refine hr.inv_past [] (I := fun w past => Once h w (past.filterMap Event.reserved)) ?_ ?_
  · intro w past e w' _ ho hh
    rw [List.filterMap_append]
    have := ho.happens hf hh
    cases he : e.reserved <;> simpa [he] using this
  · exact .closed .empty (fun hne => absurd rfl hne) List.nodup_nil

/-- The id that `reserve` answers with is the request's. -/
theorem reserved_request_id {w w' : World} {request : ActionRequest} {lease : CapabilityLease} {now_ms : Int} {id : String}
    (hh : Happens h w (.called (.reserve request lease now_ms) (.ok id)) w') : request_id h request = .ok id := by
  cases hh with
  | append_ok _ hp _ _ _ => exact (reserve_new hp).1

/-- At most once over crashes: in every history of a directory, `reserve` answers with
the request's own id, no id is ever answered twice, and a journal that is open and not
poisoned knows every id that was, so that a history that cannot be established leaves no
journal to reserve from. -/
theorem reserved_at_most_once (hf : h.Faithful) {events : List Event} {w : World} (hr : Run (Happens h) {} events w) :
    (∀ request lease now_ms id, Event.called (.reserve request lease now_ms) (.ok id) ∈ events →
      request_id h request = .ok id) ∧
      (events.filterMap Event.reserved).Nodup ∧
      ∀ journal, w.journal = some journal → journal.state.poisoned = false →
        ∀ id ∈ events.filterMap Event.reserved, id ∈ ids journal.state.records := by
  have ho := once_of_run hf hr
  refine ⟨fun request lease now_ms id hmem => ?_, ho.nodup, ho.known⟩
  have hlabel := hr.labels (I := fun _ => True)
    (Q := fun e => ∀ request lease now_ms id, e = Event.called (.reserve request lease now_ms) (.ok id) →
      request_id h request = .ok id) ?_ trivial
  · exact hlabel _ hmem request lease now_ms id rfl
  · rintro w e w' - - hh
    refine ⟨trivial, ?_⟩
    rintro request lease now_ms id rfl
    exact reserved_request_id hh
end

/-- The sample is reserved, its process dies, and the next one asks for it again. -/
def sampleHistory : List Event :=
  [.opened (.ok ()), .called sampleReserve (.ok sampleId), .died, .opened (.ok ()),
    .called sampleReserve (.error (.AlreadyReserved sampleId))]

/-- The directory when the next process has opened it. -/
def sampleReopened : Option World := sampleReserved.bind (fun r => World.opens sampleHost { r.2 with journal := none })

theorem reserved_at_most_once_reopened : ∃ w journal, Run (Happens sampleHost) {} sampleHistory w ∧
    w.journal = some journal ∧ sampleHistory.filterMap Event.reserved = [sampleId] ∧
    (sampleHistory.filterMap Event.reserved).Nodup ∧ sampleId ∈ ids journal.state.records := by
  obtain ⟨w1, -, hr, hreserved, -⟩ := sample_reserved
  have hrun : sampleReopened.bind (fun w => w.journal.map (fun j =>
      (j.state.poisoned, prepare sampleHost j.state sampleReserve))) =
      some (false, .error (.AlreadyReserved sampleId)) := by decide +kernel
  obtain ⟨w, hw, h1⟩ := Option.bind_eq_some_iff.1 hrun
  obtain ⟨journal, hj, h2⟩ := Option.map_eq_some_iff.1 h1
  obtain ⟨hpoison, hprepare⟩ := Prod.mk.inj h2
  rw [sampleReopened, hreserved] at hw
  have hr' : Run (Happens sampleHost) {} sampleHistory w :=
    hr.append (.cons .died (.cons (opens_happens hw) (.single (.refused hj hprepare))))
  obtain ⟨-, hnodup, hknown⟩ := reserved_at_most_once sampleHost_faithful hr'
  have hids : sampleHistory.filterMap Event.reserved = [sampleId] := rfl
  exact ⟨w, journal, hr', hj, hids, hnodup, hknown journal hj hpoison sampleId (by rw [hids]; exact List.mem_singleton.2 rfl)⟩

end Ambush.Runtime

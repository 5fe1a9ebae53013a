import FloralSync.Store.Push

/-!
# Runs of pushes

A run is a sequence of push requests, from any number of devices; requests that fail leave no trace.
What a run offers for a note id are the changes for it in the requests that were processed, in order
(`arrivals`), on top of what was stored before (`offered`). The record of the id is the last write
among them (`PushRun.cell_eq`), and that is the whole story: which records can be read back, and what
a request that is delivered again does, follow from it.
-/

namespace FloralSync

open Replication StoreM

variable {τ : Type} [Chrono τ]

/-- The store on a new file. -/
def SyncStore.created : SyncStore := ⟨initConnection .empty, 0⟩

theorem open_empty : SyncStore.open (.database .empty) = .ok .created := rfl

/-- The requests `rs` have been processed since `s₀`. -/
inductive PushRun (s₀ : SyncStore) : List (PushRequest τ) → SyncStore → Prop
  | start : PushRun s₀ [] s₀
  | processed {rs : List (PushRequest τ)} {s s' : SyncStore} {env : PushEnv τ} {request : PushRequest τ}
      {response : PushResponse} : PushRun s₀ rs s →
      (SyncStore.push env request).exec s = (.ok response, s') → PushRun s₀ (rs ++ [request]) s'
  | failed {rs : List (PushRequest τ)} {s s' : SyncStore} {env : PushEnv τ} {request : PushRequest τ}
      {e : StoreError} : PushRun s₀ rs s →
      (SyncStore.push env request).exec s = (.error e, s') → PushRun s₀ rs s'

/-- The changes of the requests with their device ids filled in, in order. -/
def arrivals (rs : List (PushRequest τ)) : List (SyncChange τ) := rs.flatMap PushRequest.filled

omit [Chrono τ] in
theorem arrivals_concat (rs : List (PushRequest τ)) (request : PushRequest τ) :
    arrivals (rs ++ [request]) = arrivals rs ++ request.filled := by
  simp [arrivals]

/-- All notes and snapshots can be read back. -/
structure Healthy (τ : Type) [Chrono τ] (db : Database) : Prop where
  opened : Opened db
  revisions : ∀ notes ∈ db.notes, ∀ row ∈ notes.rows, I64 row.revision
  notes : ∀ notes ∈ db.notes, ∀ row ∈ notes.rows, ∃ change : SyncChange τ,
    row.change.decode = some change ∧ change.InRange
  snapshots : ∀ snapshots ∈ db.noteSnapshots, ∀ row ∈ snapshots.rows, ∃ change : SyncChange τ,
    row.change.decode = some change

namespace Healthy

variable {db : Database}

theorem exists_loadAllChanges (h : Healthy τ db) :
    ∃ changes : List (SyncChange τ), loadAllChanges db = .ok changes := by
  refine exists_loadAllChanges_iff.2 ⟨(opened_iff.1 h.opened).1, fun id hcell => ?_⟩
  obtain ⟨row, hrow, hdec⟩ := cellAt_eq_unreadable.1 hcell
  obtain ⟨notes, hn, hrow⟩ := Option.bind_eq_some_iff.1 hrow
  obtain ⟨change, hdec', -⟩ := h.notes notes hn row (Keyed.lookup_eq_some.1 hrow).1
  rw [hdec] at hdec'
  cases hdec'

theorem exists_changesSince (h : Healthy τ db) {since : Nat} (hsince : since < 2 ^ 63) :
    ∃ response : ChangesResponse τ, changesSince db since = .ok response := by
  obtain ⟨revision, hrev⟩ := h.opened.exists_currentRevision
  obtain ⟨notes, _, hdb, -⟩ := h.opened
  have hn : db.notes = some notes := by rw [hdb]
  obtain ⟨changes, hchanges⟩ := List.exists_map_eq_some.2 fun row (hrow : row ∈ rowsSince notes since) => by
    obtain ⟨hrow, -⟩ := mem_rowsSince.1 hrow
    obtain ⟨change, hdec, -⟩ := h.notes notes hn row hrow
    exact ⟨⟨asU64 row.revision, change⟩, NoteRow.record_eq_some.2 ⟨h.revisions notes hn row hrow, hdec, rfl⟩⟩
  exact ⟨⟨revision, changes⟩, changesSince_eq_ok.2 ⟨notes, hn, hsince, hchanges, hrev⟩⟩

theorem exists_existingChange (h : Healthy τ db) (id : String) :
    ∃ existing : Option (SyncChange τ), existingChange db id = .ok existing := by
  obtain ⟨notes, _, hdb, -⟩ := h.opened
  have hn : db.notes = some notes := by rw [hdb]
  cases hrow : notes.lookup id with
  | none => exact ⟨none, existingChange_eq_ok.2 ⟨notes, hn, by rw [hrow]⟩⟩
  | some row =>
    obtain ⟨change, hdec, -⟩ := h.notes notes hn row (Keyed.lookup_eq_some.1 hrow).1
    exact ⟨some change, existingChange_eq_ok.2 ⟨notes, hn, by rw [hrow]; exact ⟨change, hdec, rfl⟩⟩⟩

end Healthy

theorem healthy_created : Healthy τ SyncStore.created.db where
  opened := ⟨_, _, rfl, by decide⟩
  revisions := by rintro _ ⟨⟩; nofun
  notes := by rintro _ ⟨⟩; nofun
  snapshots := by rintro _ ⟨⟩; nofun

/-- The record that the database gives back for a note id. -/
def recordOf (db : Database) (id : String) : Option (SyncChange τ) :=
  match (cellAt db id : Cell (SyncChange τ)) with
  | .holds change => some change
  | _ => none

/-- Everything that competes for a note id: what was stored before, and the arrivals for it. -/
def offered (db : Database) (rs : List (PushRequest τ)) (id : String) : List (SyncChange τ) :=
  (recordOf db id).toList ++ (arrivals rs).filter (·.id = id)

theorem Healthy.cell_eq {db : Database} (h : Healthy τ db) (id : String) :
    cellAt db id = Cell.of SyncChange.InRange (recordOf (τ := τ) db id) := by
  obtain ⟨notes, _, hdb, -⟩ := h.opened
  have hn : db.notes = some notes := by rw [hdb]
  unfold recordOf
  cases hrow : notes.lookup id with
  | none => rw [cellAt_of_lookup_none hn hrow]; rfl
  | some row =>
    obtain ⟨change, hdec, hr⟩ := h.notes notes hn row (Keyed.lookup_eq_some.1 hrow).1
    rw [cellAt_of_lookup hn hrow, hdec]
    exact (Cell.stored_of_readable hr).symm

namespace PushRun

variable {s₀ s : SyncStore} {rs : List (PushRequest τ)}

theorem opened (h : PushRun s₀ rs s) (hs₀ : Opened s₀.db) : Opened s.db := by
  induction h with
  | start => exact hs₀
  | processed _ hpush ih =>
    obtain ⟨-, -, _, -, hloop, -⟩ := exec_push_ok.1 hpush
    exact pushChanges_opened hloop ih
  | failed _ hpush ih => rwa [exec_push_error hpush]

theorem induct {P : List (SyncChange τ) → Database → Prop} (h₀ : P [] s₀.db)
    (hstep : ∀ now done change db db', P done db → Pushed now change db db' → P (done ++ [change]) db')
    (h : PushRun s₀ rs s) : P (arrivals rs) s.db := by
  induction h with
  | start => exact h₀
  | @processed rs _ _ env _ _ _ hpush ih =>
    obtain ⟨-, -, _, -, hloop, -⟩ := exec_push_ok.1 hpush
    rw [arrivals_concat]
    refine pushChanges_induct (P := fun done db => P (arrivals rs ++ done) db)
      (by rwa [List.append_nil]) (fun done change db db' hP hpushed => ?_) hloop
    rw [← List.append_assoc]
    exact hstep _ _ _ _ _ hP hpushed
  | failed _ hpush ih => rwa [exec_push_error hpush]

theorem revisions (h : PushRun s₀ rs s) (hs₀ : ∀ notes ∈ s₀.db.notes, ∀ row ∈ notes.rows, I64 row.revision) :
    ∀ notes ∈ s.db.notes, ∀ row ∈ notes.rows, I64 row.revision := by
  refine PushRun.induct (P := fun _ db => ∀ notes ∈ db.notes, ∀ row ∈ notes.rows, I64 row.revision) hs₀
    (fun now done change db db' hP hpushed => ?_) h
  cases hpushed with
  | skipped => exact hP
  | stored hdb =>
    subst hdb
    rintro _ ⟨⟩ row hrow
    rcases Keyed.mem_upsert.1 hrow with rfl | ⟨hrow, -⟩
    · exact asI64_i64 _
    · exact hP _ rfl row hrow

variable [LawfulChrono τ]

theorem cell (h : PushRun s₀ rs s) (id : String) :
    Cell.offerAll changeTime SyncChange.InRange (cellAt s₀.db id) ((arrivals rs).filter (·.id = id)) =
      some (cellAt s.db id) := by
  induction h with
  | start => rfl
  | processed _ hpush ih =>
    obtain ⟨-, -, _, -, hloop, -⟩ := exec_push_ok.1 hpush
    rw [arrivals_concat, List.filter_append, Cell.offerAll_append, ih]
    exact pushChanges_cell hloop id
  | failed _ hpush ih => rw [ih, exec_push_error hpush]

/-- The cell of an id after a run is where its register settled on everything offered for it. -/
theorem cell_eq (h : PushRun s₀ rs s) (hs₀ : Healthy τ s₀.db) (id : String) :
    cellAt s.db id = Cell.of SyncChange.InRange ((offered s₀.db rs id).foldl (settle changeTime) none) := by
  have hcell := h.cell id
  rw [hs₀.cell_eq] at hcell
  rw [Cell.of_offerAll hcell, offered, List.foldl_append]
  cases recordOf (τ := τ) s₀.db id <;> rfl

end PushRun

namespace Sample

open Rfc3339 (Civil)

/-- Times on 18 May 2026. -/
def eight : Civil := ⟨⟨2026, 5, 18, 8, 0, 0, 0⟩, by decide⟩
def nine : Civil := ⟨⟨2026, 5, 18, 9, 0, 0, 0⟩, by decide⟩

/-- A time after the year 9999. -/
def farFuture : Civil := ⟨⟨10000, 1, 1, 0, 0, 0, 0⟩, by decide⟩

def note (id title : String) (updatedAt : Civil) : SyncChange Civil where
  id := id
  title := title
  content := "text"
  category := "inbox"
  createdAt := updatedAt
  updatedAt := updatedAt
  deletedAt := none
  contentHash := "hash"
  deviceId := ""

/-- The record that the server has of a note from the phone. -/
def stored (id title : String) (updatedAt : Civil) : SyncChange Civil :=
  fillDevice "phone" (note id title updatedAt)

def pushEnv : PushEnv Civil := ⟨fun _ => none, fun _ => eight⟩

/-- A restore whose clock stands at `t`. -/
def restoreEnv (t : Civil) : RestoreEnv Civil := ⟨fun _ => none, t, fun _ => t⟩

/-- One note. -/
def oneNote : PushRequest Civil := ⟨"phone", [note "n1" "note" eight]⟩

/-- Two versions of a note in one request. -/
def twoVersions : PushRequest Civil := ⟨"phone", [note "n1" "draft" eight, note "n1" "final" nine]⟩

/-- Two versions of a note that have the same time. -/
def tiedVersions : PushRequest Civil := ⟨"phone", [note "n1" "draft" eight, note "n1" "final" eight]⟩

/-- Two other notes. -/
def otherNotes : PushRequest Civil := ⟨"laptop", [note "n2" "plan" eight, note "n3" "list" eight]⟩

/-- A note from a device whose clock is an hour ahead. -/
def aheadNote : PushRequest Civil := ⟨"phone", [note "n1" "note" nine]⟩

/-- A note dated after the year 9999. -/
def farNote : PushRequest Civil := ⟨"phone", [note "n1" "note" farFuture]⟩

/-- The store after a push. -/
def pushed (request : PushRequest Civil) (s : SyncStore) : SyncStore :=
  ((SyncStore.push pushEnv request).exec s).2

/-- New stores, after one request. -/
def oneNoteStore : SyncStore := pushed oneNote .created
def twoVersionsStore : SyncStore := pushed twoVersions .created
def otherNotesStore : SyncStore := pushed otherNotes .created
def aheadNoteStore : SyncStore := pushed aheadNote .created

/-- The file of a server that had no snapshots yet. -/
def legacy (db : Database) : Database := { db with noteSnapshots := none }

/-- The store after a restore of `content` at `t`. -/
def restored (t : Civil) (content : Database) (s : SyncStore) : SyncStore :=
  ((SyncStore.restoreFrom (restoreEnv t) (.database content)).exec s).2

theorem exec_backupTo (s : SyncStore) : (SyncStore.backupTo none).exec s = (.ok (.database s.db), s) := rfl

theorem exec_restoreFrom {t : Civil} {content : Database} {s : SyncStore}
    (h : ((SyncStore.restoreFrom (restoreEnv t) (.database content)).exec s).1 = .ok ()) :
    (SyncStore.restoreFrom (restoreEnv t) (.database content)).exec s = (.ok (), restored t content s) :=
  Prod.ext h rfl

end Sample
end FloralSync

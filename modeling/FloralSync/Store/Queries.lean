import FloralSync.Result
import FloralSync.Store.Rows
import Mathlib.Data.List.Sort
import Mathlib.Data.String.Basic

/-!
# The statements of `sync_store.rs`

Each function below is one of the source's, as a function of the database that the connection has
open. A statement on a table that is missing fails.
-/

namespace FloralSync

open Replication

variable {τ : Type} [Chrono τ]

namespace Database

def selectNotes (db : Database) : Except StoreError NotesTable :=
  match db.notes with
  | some notes => .ok notes
  | none => .error (.database (.sqliteFailure "no such table: notes"))

def selectSnapshots (db : Database) : Except StoreError SnapshotTable :=
  match db.noteSnapshots with
  | some snapshots => .ok snapshots
  | none => .error (.database (.sqliteFailure "no such table: note_snapshots"))

end Database

/-- `row.get::<_, i64>(column)` -/
def getI64 (column : Nat) (value : Int) : Except StoreError Int :=
  if I64 value then .ok value else .error (.database (.invalidColumnType column))

/-- `SELECT COALESCE(MAX(revision), 0) FROM notes` -/
def maxRevision (rows : List NoteRow) : Int := (rows.map NoteRow.revision).max?.getD 0

def currentRevision (db : Database) : Except StoreError Nat := do
  let notes ← db.selectNotes
  let revision ← getI64 0 (maxRevision notes.rows)
  return asU64 revision

/-- `load_all_changes`: the hash map of the source is the list of its values, which are the notes in
ascending id order. -/
def loadAllChanges (db : Database) : Except StoreError (List (SyncChange τ)) := do
  let notes ← db.selectNotes
  (notes.rows.insertionSort fun a b => a.id ≤ b.id).mapM fun row => row.change.toChange 4

def existingChange (db : Database) (id : String) : Except StoreError (Option (SyncChange τ)) := do
  let notes ← db.selectNotes
  match notes.lookup id with
  | none => return none
  | some row => some <$> row.change.toChange 4

def changesSince (db : Database) (since : Nat) : Except StoreError (ChangesResponse τ) := do
  let notes ← db.selectNotes
  -- a `u64` above `i64::MAX` cannot be bound to a statement
  if 2 ^ 63 ≤ since then
    throw (.database .toSqlConversionFailure)
  let rows := (notes.rows.filter fun row => (since : Int) < row.revision).insertionSort
    fun a b => a.revision ≤ b.revision
  let changes ← rows.mapM fun row => do
    let revision ← getI64 0 row.revision
    let note ← row.change.toChange 5
    return { revision := asU64 revision, note : RevisionedChange τ }
  let revision ← currentRevision db
  return { revision, changes }

/-- `insert_snapshot`, where `now` gives the reading of the clock for each snapshot id. -/
def insertSnapshot (now : Nat → τ) (change : SyncChange τ) (revision : Nat) (db : Database) :
    Except StoreError Database := do
  let snapshots ← db.selectSnapshots
  return { db with noteSnapshots := some (snapshots.insert (.ofChange change) (asI64 revision)
                                            fun id => toRfc3339 (now id)) }

def storeChange (now : Nat → τ) (change : SyncChange τ) (revision : Nat) (db : Database) :
    Except StoreError Database := do
  let notes ← db.selectNotes
  insertSnapshot now change revision
    { db with notes := some (notes.upsert ⟨.ofChange change, asI64 revision⟩) }

/-! ### When they succeed -/

theorem le_maxRevision {rows : List NoteRow} {row : NoteRow} (h : row ∈ rows) :
    row.revision ≤ maxRevision rows := by
  unfold maxRevision
  cases hm : (rows.map NoteRow.revision).max? with
  | none =>
    rw [List.max?_eq_none_iff, List.map_eq_nil_iff] at hm
    rw [hm] at h; cases h
  | some m => exact (List.max?_eq_some_iff.1 hm).2 _ (List.mem_map_of_mem h)

theorem exists_maxRevision {rows : List NoteRow} (h : rows ≠ []) :
    ∃ row ∈ rows, row.revision = maxRevision rows := by
  unfold maxRevision
  cases hm : (rows.map NoteRow.revision).max? with
  | none =>
    rw [List.max?_eq_none_iff, List.map_eq_nil_iff] at hm
    exact absurd hm h
  | some m =>
    obtain ⟨row, hrow, hm⟩ := List.mem_map.1 (List.max?_eq_some_iff.1 hm).1
    exact ⟨row, hrow, hm⟩

theorem Database.selectNotes_eq_ok {db : Database} {notes : NotesTable} :
    db.selectNotes = .ok notes ↔ db.notes = some notes := by
  unfold selectNotes
  cases db.notes <;> simp

theorem Database.selectSnapshots_eq_ok {db : Database} {snapshots : SnapshotTable} :
    db.selectSnapshots = .ok snapshots ↔ db.noteSnapshots = some snapshots := by
  unfold selectSnapshots
  cases db.noteSnapshots <;> simp

theorem getI64_eq_ok {column : Nat} {value x : Int} : getI64 column value = .ok x ↔ I64 value ∧ value = x := by
  unfold getI64
  split_ifs with h <;> simp [h]

theorem currentRevision_eq_ok {db : Database} {revision : Nat} : currentRevision db = .ok revision ↔
    ∃ notes, db.notes = some notes ∧ I64 (maxRevision notes.rows) ∧
      asU64 (maxRevision notes.rows) = revision := by
  simp only [currentRevision, Except.bind_eq_ok, Database.selectNotes_eq_ok, getI64_eq_ok]
  constructor
  · rintro ⟨notes, hn, _, ⟨hi, rfl⟩, h⟩
    exact ⟨notes, hn, hi, Except.ok.inj h⟩
  · rintro ⟨notes, hn, hi, rfl⟩
    exact ⟨notes, hn, _, ⟨hi, rfl⟩, rfl⟩

theorem existingChange_eq_ok {db : Database} {id : String} {existing : Option (SyncChange τ)} :
    existingChange db id = .ok existing ↔ ∃ notes, db.notes = some notes ∧
      match notes.lookup id with
      | none => existing = none
      | some row => ∃ change, row.change.decode = some change ∧ existing = some change := by
  simp only [existingChange, Except.bind_eq_ok, Database.selectNotes_eq_ok]
  refine exists_congr fun notes => and_congr_right fun _ => ?_
  cases notes.lookup id with
  | none => exact ⟨fun h => (Except.ok.inj h).symm, fun h => congrArg _ h.symm⟩
  | some row =>
    simp only [Except.map_eq_ok, ChangeRow.toChange_eq_ok]
    exact exists_congr fun _ => and_congr_right fun _ => eq_comm

/-- The notes in ascending id order. -/
def sortedRows (notes : NotesTable) : List NoteRow := notes.rows.insertionSort fun a b => a.id ≤ b.id

theorem mem_sortedRows {notes : NotesTable} {row : NoteRow} : row ∈ sortedRows notes ↔ row ∈ notes.rows :=
  List.mem_insertionSort _

theorem loadAllChanges_eq_ok {db : Database} {changes : List (SyncChange τ)} :
    loadAllChanges db = .ok changes ↔ ∃ notes, db.notes = some notes ∧
      (sortedRows notes).map (fun row => row.change.decode) = changes.map some := by
  simp only [loadAllChanges, Except.bind_eq_ok, Database.selectNotes_eq_ok, Except.mapM_eq_ok,
    ChangeRow.toChange_eq_ok, ← List.forall₂_map_eq_iff]
  rfl

/-- The record that a row gives back to a client. -/
def NoteRow.record (row : NoteRow) : Option (RevisionedChange τ) :=
  if I64 row.revision then row.change.decode.map fun note => ⟨asU64 row.revision, note⟩ else none

theorem NoteRow.record_eq_some {row : NoteRow} {c : RevisionedChange τ} : row.record = some c ↔
    I64 row.revision ∧ row.change.decode = some c.note ∧ asU64 row.revision = c.revision := by
  unfold record
  obtain ⟨revision, note⟩ := c
  split_ifs with hi
  · simp only [hi, true_and, Option.map_eq_some_iff, RevisionedChange.mk.injEq]
    constructor
    · rintro ⟨_, hdec, hrev, rfl⟩; exact ⟨hdec, hrev⟩
    · rintro ⟨hdec, hrev⟩; exact ⟨note, hdec, hrev, rfl⟩
  · exact iff_of_false nofun fun h => hi h.1

/-- The rows above a cursor in ascending order of their revisions. -/
def rowsSince (notes : NotesTable) (since : Nat) : List NoteRow :=
  (notes.rows.filter fun row => (since : Int) < row.revision).insertionSort
    fun a b => a.revision ≤ b.revision

theorem mem_rowsSince {notes : NotesTable} {since : Nat} {row : NoteRow} :
    row ∈ rowsSince notes since ↔ row ∈ notes.rows ∧ (since : Int) < row.revision := by
  simp [rowsSince]

theorem changesSince_eq_ok {db : Database} {since : Nat} {response : ChangesResponse τ} :
    changesSince db since = .ok response ↔ ∃ notes, db.notes = some notes ∧ since < 2 ^ 63 ∧
      (rowsSince notes since).map NoteRow.record = response.changes.map some ∧
      currentRevision db = .ok response.revision := by
  obtain ⟨revision, changes⟩ := response
  have hrow : ∀ (row : NoteRow) (c : RevisionedChange τ), (do
      let revision ← getI64 0 row.revision
      let note ← row.change.toChange 5
      return ({ revision := asU64 revision, note } : RevisionedChange τ)) = .ok c ↔
        row.record = some c := by
    intro row c
    simp only [NoteRow.record_eq_some, Except.bind_eq_ok, getI64_eq_ok, ChangeRow.toChange_eq_ok]
    constructor
    · rintro ⟨_, ⟨hi, rfl⟩, note, hnote, h⟩
      obtain rfl := Except.ok.inj h
      exact ⟨hi, hnote, rfl⟩
    · rintro ⟨hi, hnote, hrev⟩
      exact ⟨_, ⟨hi, rfl⟩, _, hnote, by rw [hrev]; rfl⟩
  simp only [changesSince, Except.bind_eq_ok, Database.selectNotes_eq_ok]
  refine exists_congr fun notes => and_congr_right fun hn => ?_
  split_ifs with hsince
  · exact iff_of_false nofun fun h => absurd h.1 (Nat.not_lt.2 hsince)
  · simp only [Except.bind_eq_ok, Except.mapM_eq_ok, hrow, List.forall₂_map_eq_iff]
    constructor
    · rintro ⟨changes', hchanges, revision', hrev, h⟩
      obtain ⟨rfl, rfl⟩ := ChangesResponse.mk.inj (Except.ok.inj h)
      exact ⟨Nat.not_le.1 hsince, hchanges, hrev⟩
    · rintro ⟨-, hchanges, hrev⟩
      exact ⟨changes, hchanges, revision, hrev, rfl⟩

theorem storeChange_eq_ok {now : Nat → τ} {change : SyncChange τ} {revision : Nat} {db db' : Database} :
    storeChange now change revision db = .ok db' ↔ ∃ notes snapshots, db = ⟨some notes, some snapshots⟩ ∧
      db' = ⟨some (notes.upsert ⟨.ofChange change, asI64 revision⟩),
        some (snapshots.insert (.ofChange change) (asI64 revision) fun id => toRfc3339 (now id))⟩ := by
  obtain ⟨notes, snapshots⟩ := db
  simp only [storeChange, insertSnapshot, Except.bind_eq_ok, Database.selectNotes_eq_ok,
    Database.selectSnapshots_eq_ok]
  constructor
  · rintro ⟨notes, rfl, snapshots, rfl, h⟩
    exact ⟨notes, snapshots, rfl, (Except.ok.inj h).symm⟩
  · rintro ⟨notes, snapshots, h, rfl⟩
    obtain ⟨rfl, rfl⟩ := Database.mk.inj h
    exact ⟨notes, rfl, snapshots, rfl, rfl⟩

/-- `backfill_missing_snapshots`: `WHERE NOT EXISTS` sees the table before the insertion. -/
def backfillMissingSnapshots (notes : NotesTable) (snapshots : SnapshotTable) : SnapshotTable :=
  let missing := notes.rows.filter fun note =>
    !snapshots.rows.any fun s => s.noteId = note.id ∧ s.revision = note.revision
  missing.foldl (fun t note => t.insert note.change note.revision
    fun _ => note.change.deletedAt.getD note.change.updatedAt) snapshots

/-- `CREATE TABLE IF NOT EXISTS` for both tables, then the backfill. -/
def initConnection (db : Database) : Database :=
  let notes := db.notes.getD Keyed.empty
  let snapshots := db.noteSnapshots.getD .empty
  ⟨some notes, some (backfillMissingSnapshots notes snapshots)⟩

/-- What a path names when it is opened as a database. -/
inductive SourceFile
  | notADatabase
  | database (content : Database)

/-- `SyncStore`: the connection and the value of the watch channel. -/
@[ext] structure SyncStore where
  db : Database
  revisionEvents : Nat
deriving DecidableEq

/-- `SyncStore::open` -/
def SyncStore.open (file : SourceFile) : Except StoreError SyncStore := do
  match file with
  | .notADatabase => throw (.database (.sqliteFailure "file is not a database"))
  | .database content =>
    let db := initConnection content
    let initialRevision ← currentRevision db
    return { db, revisionEvents := initialRevision }

end FloralSync

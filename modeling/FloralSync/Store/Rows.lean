import FloralSync.Protocol
import FloralSync.Replication.Keyed

/-!
# The database file

The two tables of the server, as SQLite stores them: timestamps are text, and a table may be missing
from a file that the server did not write. `ChangeRow` holds the columns that both tables have for a
change; reading one back can fail at its timestamps (`ChangeRow.toChange`).
-/

namespace FloralSync

open Replication

/-- The `rusqlite` errors that the statements of the server can end in. -/
inductive RusqliteError
  | sqliteFailure (message : String)
  | fromSqlConversionFailure (column : Nat)
  | invalidColumnType (column : Nat)
  | toSqlConversionFailure
deriving DecidableEq

inductive StoreError
  | database (error : RusqliteError)
  | io
  | time
  | lockPoisoned
deriving DecidableEq

/-- The columns `id` (`note_id` in the snapshots), `title`, ..., `device_id`. -/
structure ChangeRow where
  id : String
  title : String
  content : String
  category : String
  createdAt : String
  updatedAt : String
  deletedAt : Option String
  contentHash : String
  deviceId : String
deriving DecidableEq

variable {τ : Type} [Chrono τ]

def ChangeRow.ofChange (change : SyncChange τ) : ChangeRow where
  id := change.id
  title := change.title
  content := change.content
  category := change.category
  createdAt := toRfc3339 change.createdAt
  updatedAt := toRfc3339 change.updatedAt
  deletedAt := change.deletedAt.map toRfc3339
  contentHash := change.contentHash
  deviceId := change.deviceId

/-- `parse_row_time` -/
def parseRowTime (value : String) (column : Nat) : Except StoreError τ :=
  match parseFromRfc3339 value with
  | some t => .ok t
  | none => .error (.database (.fromSqlConversionFailure column))

/-- Reading a change from a row whose `created_at` is column `column`, followed by `updated_at` and
`deleted_at`. -/
def ChangeRow.toChange (row : ChangeRow) (column : Nat) : Except StoreError (SyncChange τ) := do
  let createdAt ← parseRowTime row.createdAt column
  let updatedAt ← parseRowTime row.updatedAt (column + 1)
  let deletedAt ← row.deletedAt.mapM fun value => parseRowTime value (column + 2)
  return { id := row.id, title := row.title, content := row.content, category := row.category,
           createdAt, updatedAt, deletedAt, contentHash := row.contentHash, deviceId := row.deviceId }

theorem parseRowTime_eq_ok {value : String} {column : Nat} {t : τ} :
    parseRowTime value column = .ok t ↔ parseFromRfc3339 value = some t := by
  unfold parseRowTime
  cases (parseFromRfc3339 value : Option τ) <;> simp

namespace ChangeRow

/-- The change that a row gives back, if its timestamps parse. -/
def decode (row : ChangeRow) : Option (SyncChange τ) := do
  let createdAt ← parseFromRfc3339 row.createdAt
  let updatedAt ← parseFromRfc3339 row.updatedAt
  let deletedAt ← row.deletedAt.mapM parseFromRfc3339
  return { id := row.id, title := row.title, content := row.content, category := row.category,
           createdAt, updatedAt, deletedAt, contentHash := row.contentHash, deviceId := row.deviceId }

theorem toChange_eq_ok {row : ChangeRow} {change : SyncChange τ} {column : Nat} :
    row.toChange column = .ok change ↔ row.decode = some change := by
  unfold toChange decode parseRowTime
  cases (parseFromRfc3339 row.createdAt : Option τ) with
  | none => exact iff_of_false nofun nofun
  | some createdAt =>
    cases (parseFromRfc3339 row.updatedAt : Option τ) with
    | none => exact iff_of_false nofun nofun
    | some updatedAt =>
      cases row.deletedAt with
      | none => exact ⟨fun h => congrArg some (Except.ok.inj h), fun h => congrArg _ (Option.some.inj h)⟩
      | some value =>
        simp only [Option.mapM_some]
        cases (parseFromRfc3339 value : Option τ) with
        | none => exact iff_of_false nofun nofun
        | some t =>
          exact ⟨fun h => congrArg some (Except.ok.inj h), fun h => congrArg _ (Option.some.inj h)⟩

theorem id_of_decode {row : ChangeRow} {change : SyncChange τ} (h : row.decode = some change) :
    change.id = row.id := by
  simp only [decode, Option.bind_eq_bind, Option.bind_eq_some_iff] at h
  obtain ⟨_, -, _, -, _, -, h⟩ := h
  cases h; rfl

/-- What the server stored is given back exactly when its timestamps have four-digit years. -/
theorem decode_ofChange [LawfulChrono τ] (change : SyncChange τ) :
    (ofChange change).decode = if change.InRange then some change else none := by
  by_cases h₁ : FourDigitYear change.createdAt
  · by_cases h₂ : FourDigitYear change.updatedAt
    · cases hd : change.deletedAt with
      | none =>
        rw [if_pos ⟨h₁, h₂, by rw [hd]; intro t ht; cases ht⟩]
        simp [decode, ofChange, parse_toRfc3339, h₁, h₂, hd]
        rw [← hd]
      | some t =>
        by_cases h₃ : FourDigitYear t
        · rw [if_pos ⟨h₁, h₂, by rw [hd]; rintro t ⟨⟩; exact h₃⟩]
          simp [decode, ofChange, parse_toRfc3339, h₁, h₂, h₃, hd]
          rw [← hd]
        · rw [if_neg fun h => h₃ (h.deletedAt t hd)]
          simp [decode, ofChange, parse_toRfc3339, h₁, h₂, h₃, hd]
    · rw [if_neg fun h => h₂ h.updatedAt]
      simp [decode, ofChange, parse_toRfc3339, h₁, h₂]
  · rw [if_neg fun h => h₁ h.createdAt]
    simp [decode, ofChange, parse_toRfc3339, h₁]

end ChangeRow

/-! ### Tables -/

/-- A row of `notes`. A revision outside the `i64` range stands for the REAL that SQLite's integer
addition yields on overflow. -/
structure NoteRow where
  change : ChangeRow
  revision : Int
deriving DecidableEq

def NoteRow.id (row : NoteRow) : String := row.change.id

def NoteRow.shift (offset : Int) (row : NoteRow) : NoteRow := { row with revision := row.revision + offset }

@[simp] theorem NoteRow.id_shift (offset : Int) (row : NoteRow) : (row.shift offset).id = row.id := rfl

abbrev NotesTable := Keyed NoteRow.id

/-- A row of `note_snapshots`. -/
structure SnapshotRow where
  snapshotId : Nat
  change : ChangeRow
  revision : Int
  capturedAt : String
deriving DecidableEq

def SnapshotRow.noteId (row : SnapshotRow) : String := row.change.id

/-- `note_snapshots`, with the highest snapshot id ever given out (`AUTOINCREMENT`). -/
structure SnapshotTable extends Keyed SnapshotRow.snapshotId where
  sequence : Nat
deriving DecidableEq

namespace SnapshotTable

def empty : SnapshotTable := ⟨Keyed.empty, 0⟩

def nextId (t : SnapshotTable) : Nat :=
  max t.sequence ((t.rows.map SnapshotRow.snapshotId).foldr max 0) + 1

theorem nextId_notMem (t : SnapshotTable) : t.nextId ∉ t.rows.map SnapshotRow.snapshotId := by
  have hle : ∀ (l : List Nat), ∀ n ∈ l, n ≤ l.foldr max 0 := by
    intro l
    induction l with
    | nil => simp
    | cons m l ih =>
      intro n hn
      rw [List.foldr_cons]
      rcases List.mem_cons.1 hn with rfl | hn
      · exact Nat.le_max_left ..
      · exact Nat.le_trans (ih n hn) (Nat.le_max_right ..)
  intro h
  have := hle _ _ h
  unfold nextId at this
  omega

/-- `INSERT INTO note_snapshots`. The clock is read for the snapshot being inserted. -/
def insert (t : SnapshotTable) (change : ChangeRow) (revision : Int) (capturedAt : Nat → String) :
    SnapshotTable where
  toKeyed := t.toKeyed.insert ⟨t.nextId, change, revision, capturedAt t.nextId⟩ t.nextId_notMem
  sequence := t.nextId

@[simp] theorem rows_insert (t : SnapshotTable) (change : ChangeRow) (revision : Int)
    (capturedAt : Nat → String) : (t.insert change revision capturedAt).rows =
      t.rows ++ [⟨t.nextId, change, revision, capturedAt t.nextId⟩] := rfl

/-- Rewriting the revisions in place. -/
def mapRevisions (t : SnapshotTable) (f : Int → Int) : SnapshotTable where
  toKeyed := t.toKeyed.map (fun row => { row with revision := f row.revision }) fun _ => rfl
  sequence := t.sequence

end SnapshotTable

/-- The content of a database file. -/
structure Database where
  notes : Option NotesTable
  noteSnapshots : Option SnapshotTable
deriving DecidableEq

/-- The content of a file that has just been created. -/
def Database.empty : Database := ⟨none, none⟩

end FloralSync

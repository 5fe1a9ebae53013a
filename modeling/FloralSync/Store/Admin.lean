import FloralSync.Store.Queries

/-! # Reading a note and its history (`admin_store.rs`) -/

namespace FloralSync

open Replication

structure NoteDetail (τ : Type) where
  id : String
  title : String
  content : String
  category : String
  createdAt : τ
  updatedAt : τ
  deletedAt : Option τ
  contentHash : String
  deviceId : String
  revision : Nat
deriving DecidableEq

structure NoteSnapshot (τ : Type) where
  snapshotId : Nat
  noteId : String
  revision : Nat
  title : String
  content : String
  category : String
  createdAt : τ
  updatedAt : τ
  deletedAt : Option τ
  contentHash : String
  deviceId : String
  capturedAt : τ
deriving DecidableEq

variable {τ : Type}

/-- The fields that a snapshot shares with the detail of its note. -/
def NoteSnapshot.toDetail (s : NoteSnapshot τ) : NoteDetail τ where
  id := s.noteId
  title := s.title
  content := s.content
  category := s.category
  createdAt := s.createdAt
  updatedAt := s.updatedAt
  deletedAt := s.deletedAt
  contentHash := s.contentHash
  deviceId := s.deviceId
  revision := s.revision

variable [Chrono τ]

def noteDetail (db : Database) (noteId : String) : Except StoreError (Option (NoteDetail τ)) := do
  let notes ← db.selectNotes
  match notes.lookup noteId with
  | none => return none
  | some row =>
    let change ← row.change.toChange 4
    let revision ← getI64 9 row.revision
    return some { id := change.id, title := change.title, content := change.content,
                  category := sqliteTrim change.category, createdAt := change.createdAt,
                  updatedAt := change.updatedAt, deletedAt := change.deletedAt,
                  contentHash := change.contentHash, deviceId := change.deviceId,
                  revision := asU64 revision }

/-- `ORDER BY revision DESC, snapshot_id DESC` -/
def historyOrder (a b : SnapshotRow) : Prop :=
  b.revision < a.revision ∨ b.revision = a.revision ∧ b.snapshotId ≤ a.snapshotId

instance : DecidableRel historyOrder := fun _ _ => inferInstanceAs (Decidable (_ ∨ _))

def SnapshotRow.toNoteSnapshot (row : SnapshotRow) : Except StoreError (NoteSnapshot τ) := do
  let revision ← getI64 2 row.revision
  let change ← row.change.toChange 6
  let capturedAt ← parseRowTime row.capturedAt 11
  return { snapshotId := row.snapshotId, noteId := change.id, revision := asU64 revision,
           title := change.title, content := change.content, category := sqliteTrim change.category,
           createdAt := change.createdAt, updatedAt := change.updatedAt, deletedAt := change.deletedAt,
           contentHash := change.contentHash, deviceId := change.deviceId, capturedAt }

def noteHistory (db : Database) (noteId : String) : Except StoreError (List (NoteSnapshot τ)) := do
  let snapshots ← db.selectSnapshots
  let rows := (snapshots.rows.filter (·.noteId = noteId)).insertionSort historyOrder
  rows.mapM SnapshotRow.toNoteSnapshot

/-! ### When they succeed -/

/-- The detail of a note whose change and revision have been read. -/
def detailOf (change : SyncChange τ) (revision : Nat) : NoteDetail τ where
  id := change.id
  title := change.title
  content := change.content
  category := sqliteTrim change.category
  createdAt := change.createdAt
  updatedAt := change.updatedAt
  deletedAt := change.deletedAt
  contentHash := change.contentHash
  deviceId := change.deviceId
  revision := revision

theorem noteDetail_eq_ok {db : Database} {noteId : String} {detail : Option (NoteDetail τ)} :
    noteDetail db noteId = .ok detail ↔ ∃ notes, db.notes = some notes ∧
      match notes.lookup noteId with
      | none => detail = none
      | some row => ∃ change, row.change.decode = some change ∧ I64 row.revision ∧
          detail = some (detailOf change (asU64 row.revision)) := by
  simp only [noteDetail, Except.bind_eq_ok, Database.selectNotes_eq_ok]
  refine exists_congr fun notes => and_congr_right fun _ => ?_
  cases notes.lookup noteId with
  | none => exact ⟨fun h => (Except.ok.inj h).symm, fun h => congrArg _ h.symm⟩
  | some row =>
    simp only [Except.bind_eq_ok, ChangeRow.toChange_eq_ok, getI64_eq_ok]
    constructor
    · rintro ⟨change, hdec, _, ⟨hi, rfl⟩, h⟩
      exact ⟨change, hdec, hi, (Except.ok.inj h).symm⟩
    · rintro ⟨change, hdec, hi, rfl⟩
      exact ⟨change, hdec, _, ⟨hi, rfl⟩, rfl⟩

/-- The rows of the history of a note. -/
def historyRows (snapshots : SnapshotTable) (noteId : String) : List SnapshotRow :=
  (snapshots.rows.filter (·.noteId = noteId)).insertionSort historyOrder

theorem mem_historyRows {snapshots : SnapshotTable} {noteId : String} {row : SnapshotRow} :
    row ∈ historyRows snapshots noteId ↔ row ∈ snapshots.rows ∧ row.noteId = noteId := by
  simp [historyRows]

theorem historyRows_pairwise (snapshots : SnapshotTable) (noteId : String) :
    (historyRows snapshots noteId).Pairwise fun a b => b.revision ≤ a.revision := by
  have htotal : Std.Total historyOrder := ⟨fun a b => by unfold historyOrder; omega⟩
  have htrans : IsTrans SnapshotRow historyOrder := ⟨fun a b c => by unfold historyOrder; omega⟩
  exact (List.pairwise_insertionSort historyOrder _).imp fun h => by unfold historyOrder at h; omega

theorem SnapshotRow.toNoteSnapshot_eq_ok {row : SnapshotRow} {s : NoteSnapshot τ} :
    row.toNoteSnapshot = .ok s ↔ I64 row.revision ∧ ∃ change, row.change.decode = some change ∧
      s.toDetail = detailOf change (asU64 row.revision) ∧ s.snapshotId = row.snapshotId ∧
      parseFromRfc3339 row.capturedAt = some s.capturedAt := by
  simp only [toNoteSnapshot, Except.bind_eq_ok, ChangeRow.toChange_eq_ok, getI64_eq_ok, parseRowTime_eq_ok]
  constructor
  · rintro ⟨_, ⟨hi, rfl⟩, change, hdec, capturedAt, hcap, h⟩
    obtain rfl := Except.ok.inj h
    exact ⟨hi, change, hdec, rfl, rfl, hcap⟩
  · rintro ⟨hi, change, hdec, hdetail, hid, hcap⟩
    refine ⟨_, ⟨hi, rfl⟩, change, hdec, _, hcap, congrArg _ ?_⟩
    obtain ⟨snapshotId, noteId, revision⟩ := s
    simp only [NoteSnapshot.toDetail, detailOf, NoteDetail.mk.injEq] at hdetail
    dsimp only at hid
    simp [hdetail, hid]

theorem noteHistory_eq_ok {db : Database} {noteId : String} {history : List (NoteSnapshot τ)} :
    noteHistory db noteId = .ok history ↔ ∃ snapshots, db.noteSnapshots = some snapshots ∧
      List.Forall₂ (fun row s => row.toNoteSnapshot = .ok s) (historyRows snapshots noteId) history := by
  simp only [noteHistory, Except.bind_eq_ok, Database.selectSnapshots_eq_ok, Except.mapM_eq_ok]
  rfl

end FloralSync

import FloralSync.Stateful
import FloralSync.Store.Queries

/-!
# `SyncStore`

The operations of the store run in `StoreM`: they return a result or an error, and either way leave a
state behind. Each statement and each transaction also takes the error that SQLite or the operating
system meets it with, if any; a failed statement and a failed transaction change nothing.
-/

namespace FloralSync

open Replication

abbrev StoreM := ExceptT StoreError (StateM SyncStore)

namespace StoreM

variable {α β : Type}

/-- Running an operation: its result and the state it leaves. -/
def exec (x : StoreM α) (s : SyncStore) : Except StoreError α × SyncStore := StateT.run (ExceptT.run x) s

/-- The result of a step that the environment may fail. -/
def attempt (fault : Option StoreError) (x : Except StoreError α) : Except StoreError α :=
  match fault with
  | some e => .error e
  | none => x

def check (fault : Option StoreError) : StoreM Unit := liftExcept (attempt fault (.ok ()))

/-- A statement that reads. -/
def query (fault : Option StoreError) (f : Database → Except StoreError α) : StoreM α := do
  let s ← get
  liftExcept (attempt fault (f s.db))

/-- A transaction: it is committed if nothing in it failed. -/
def transaction (fault : Option StoreError) (f : Database → Except StoreError (α × Database)) :
    StoreM α := do
  let s ← get
  let (a, db) ← liftExcept (attempt fault (f s.db))
  set { s with db }
  return a

/-- A statement that writes. -/
def execute (fault : Option StoreError) (f : Database → Except StoreError Database) : StoreM Unit :=
  transaction fault fun db => ((), ·) <$> f db

/-- `revision_events.send_replace` -/
def sendReplace (revision : Nat) : StoreM Unit :=
  modify fun s => { s with revisionEvents := revision }

variable {s s' : SyncStore} {fault : Option StoreError} {a : α} {b : β} {e : StoreError}

theorem attempt_eq_ok {x : Except StoreError α} : attempt fault x = .ok a ↔ fault = none ∧ x = .ok a := by
  cases fault with
  | none => exact ⟨fun h => ⟨rfl, h⟩, And.right⟩
  | some e => exact iff_of_false nofun nofun

@[simp] theorem exec_sendReplace (revision : Nat) :
    exec (sendReplace revision) s = (.ok (), { s with revisionEvents := revision }) := rfl

theorem exec_get : exec get s = (.ok s, s) := rfl

theorem exec_liftExcept (x : Except StoreError α) : exec (liftExcept x) s = (x, s) := Stateful.exec_liftExcept x

theorem exec_bind (x : StoreM α) (f : α → StoreM β) :
    exec (x >>= f) s = match exec x s with
      | (.ok a, s') => exec (f a) s'
      | (.error e, s') => (.error e, s') := by
  show Stateful.exec (x >>= f) s = _
  rw [Stateful.exec_bind, show Stateful.exec x s = exec x s from rfl]
  rcases exec x s with ⟨_ | _, _⟩ <;> rfl

theorem exec_check : exec (check fault) s = (attempt fault (.ok ()), s) := exec_liftExcept _

theorem exec_query (f : Database → Except StoreError α) :
    exec (query fault f) s = (attempt fault (f s.db), s) := by
  rw [query, exec_bind, exec_get]
  exact exec_liftExcept _

theorem exec_transaction (f : Database → Except StoreError (α × Database)) :
    exec (transaction fault f) s = match attempt fault (f s.db) with
      | .ok (a, db) => (.ok a, { s with db })
      | .error e => (.error e, s) := by
  simp only [transaction, exec_bind, exec_get, exec_liftExcept]
  cases attempt fault (f s.db) <;> rfl

theorem exec_bind_ok {x : StoreM α} {f : α → StoreM β} : exec (x >>= f) s = (.ok b, s') ↔
    ∃ a s₁, exec x s = (.ok a, s₁) ∧ exec (f a) s₁ = (.ok b, s') := Stateful.exec_bind_ok

theorem exec_bind_error {x : StoreM α} {f : α → StoreM β} : exec (x >>= f) s = (.error e, s') ↔
    exec x s = (.error e, s') ∨ ∃ a s₁, exec x s = (.ok a, s₁) ∧ exec (f a) s₁ = (.error e, s') :=
  Stateful.exec_bind_error

theorem exec_check_ok {u : Unit} : exec (check fault) s = (.ok u, s') ↔ fault = none ∧ s' = s := by
  rw [exec_check, Prod.mk.injEq, attempt_eq_ok]
  exact ⟨fun h => ⟨h.1.1, h.2.symm⟩, fun h => ⟨⟨h.1, rfl⟩, h.2.symm⟩⟩

theorem exec_query_ok {f : Database → Except StoreError α} :
    exec (query fault f) s = (.ok a, s') ↔ fault = none ∧ f s.db = .ok a ∧ s' = s := by
  rw [exec_query, Prod.mk.injEq, attempt_eq_ok, and_assoc, eq_comm (a := s)]

theorem exec_transaction_ok {f : Database → Except StoreError (α × Database)} :
    exec (transaction fault f) s = (.ok a, s') ↔
      fault = none ∧ f s.db = .ok (a, s'.db) ∧ s'.revisionEvents = s.revisionEvents := by
  obtain ⟨db', revisionEvents'⟩ := s'
  rw [exec_transaction, ← and_assoc, ← attempt_eq_ok]
  cases attempt fault (f s.db) with
  | error e => exact iff_of_false nofun nofun
  | ok r =>
    obtain ⟨a₁, db₁⟩ := r
    constructor
    · rintro ⟨⟩; exact ⟨rfl, rfl⟩
    · rintro ⟨⟨⟩, rfl⟩; rfl

theorem exec_execute_ok {f : Database → Except StoreError Database} {u : Unit} :
    exec (execute fault f) s = (.ok u, s') ↔
      fault = none ∧ f s.db = .ok s'.db ∧ s'.revisionEvents = s.revisionEvents := by
  rw [execute, exec_transaction_ok, Except.map_eq_ok]
  refine and_congr_right fun _ => and_congr_left fun _ => ⟨?_, fun h => ⟨_, h, rfl⟩⟩
  rintro ⟨db, h, heq⟩
  rw [h, (Prod.mk.inj heq).2]

theorem exec_transaction_error {f : Database → Except StoreError (α × Database)}
    (h : exec (transaction fault f) s = (.error e, s')) : s' = s := by
  rw [exec_transaction] at h
  cases hr : attempt fault (f s.db) with
  | error e₁ => rw [hr] at h; exact (Prod.mk.inj h).2.symm
  | ok r => rw [hr] at h; cases h

/-! ### Where an operation failed -/

def Failed (x : StoreM α) (s s' : SyncStore) : Prop := ∃ e, exec x s = (.error e, s')

/-- A step fails by itself or because the environment fails it. -/
def Fails (fault : Option StoreError) (x : Except StoreError α) : Prop := fault ≠ none ∨ ∀ a, x ≠ .ok a

theorem fails_iff {x : Except StoreError α} : Fails fault x ↔ ∃ e, attempt fault x = .error e := by
  cases fault with
  | some e => exact iff_of_true (.inl nofun) ⟨e, rfl⟩
  | none => cases x with
    | error e => exact iff_of_true (.inr nofun) ⟨e, rfl⟩
    | ok a => exact iff_of_false (fun h => h.elim (· rfl) (· a rfl)) nofun

theorem failed_bind {x : StoreM α} {f : α → StoreM β} : Failed (x >>= f) s s' ↔
    Failed x s s' ∨ ∃ a s₁, exec x s = (.ok a, s₁) ∧ Failed (f a) s₁ s' := by
  constructor
  · rintro ⟨e, h⟩
    rcases exec_bind_error.1 h with h | ⟨a, s₁, hx, h⟩
    · exact .inl ⟨e, h⟩
    · exact .inr ⟨a, s₁, hx, e, h⟩
  · rintro (⟨e, h⟩ | ⟨a, s₁, hx, e, h⟩)
    · exact ⟨e, exec_bind_error.2 (.inl h)⟩
    · exact ⟨e, exec_bind_error.2 (.inr ⟨a, s₁, hx, h⟩)⟩

theorem failed_bind_of_ok {x : StoreM α} {f : α → StoreM β} {s₁ : SyncStore} (hx : exec x s = (.ok a, s₁)) :
    Failed (x >>= f) s s' ↔ Failed (f a) s₁ s' := by
  unfold Failed
  rw [exec_bind, hx]

theorem failed_query {f : Database → Except StoreError α} :
    Failed (query fault f) s s' ↔ Fails fault (f s.db) ∧ s' = s := by
  rw [fails_iff, ← exists_and_right]
  refine exists_congr fun e => ?_
  rw [exec_query, Prod.mk.injEq, eq_comm (a := s)]

theorem failed_check : Failed (check fault) s s' ↔ fault ≠ none ∧ s' = s := by
  have hfails : fault ≠ none ↔ Fails fault (.ok ()) :=
    ⟨.inl, fun h => h.resolve_right fun h => absurd rfl (h ())⟩
  rw [hfails, fails_iff, ← exists_and_right]
  refine exists_congr fun e => ?_
  rw [exec_check, Prod.mk.injEq, eq_comm (a := s)]

theorem failed_execute {f : Database → Except StoreError Database} :
    Failed (execute fault f) s s' ↔ Fails fault (f s.db) ∧ s' = s := by
  have hexec : exec (execute fault f) s = match attempt fault (f s.db) with
      | .ok db => (.ok (), { s with db })
      | .error e => (.error e, s) := by
    rw [execute, exec_transaction]
    cases fault with
    | some e => rfl
    | none => cases f s.db <;> rfl
  rw [fails_iff, ← exists_and_right]
  refine exists_congr fun e => ?_
  rw [hexec]
  cases attempt fault (f s.db) with
  | error e' => exact ⟨fun h => by cases h; exact ⟨rfl, rfl⟩, fun ⟨h, h'⟩ => by cases h; rw [h']⟩
  | ok db => exact iff_of_false nofun nofun

theorem not_failed_pure : ¬ Failed (pure a) s s' := nofun

theorem not_failed_sendReplace {revision : Nat} : ¬ Failed (sendReplace revision) s s' := nofun

end StoreM

open StoreM

variable {τ : Type} [Chrono τ]

/-- The points of `push` at which the environment can fail: taking the lock, and the transaction
from its first statement to its commit. -/
inductive PushStep
  | lock
  | transaction
deriving DecidableEq

/-- What one `push` meets: failures, and the clock readings for the snapshots it writes. -/
structure PushEnv (τ : Type) where
  fault : PushStep → Option StoreError
  now : Nat → τ

/-- One round of the loop of `push`. -/
def pushChange (now : Nat → τ) (deviceId : String) (db : Database) (change : SyncChange τ) :
    Except StoreError Database := do
  let change := fillDevice deviceId change
  match ← existingChange db change.id with
  | some existing =>
    if changeTime existing > changeTime change ∨
        changeTime existing = changeTime change ∧ existing = change then
      return db
    else
      let revision ← currentRevision db
      storeChange now change (revision + 1) db
  | none =>
    let revision ← currentRevision db
    storeChange now change (revision + 1) db

def pushChanges (now : Nat → τ) (request : PushRequest τ) (db : Database) : Except StoreError Database :=
  request.changes.foldlM (pushChange now request.deviceId) db

def SyncStore.push (env : PushEnv τ) (request : PushRequest τ) : StoreM PushResponse := do
  check (env.fault .lock)
  let (startingRevision, revision) ← transaction (env.fault .transaction) fun db => do
    let startingRevision ← currentRevision db
    let db ← pushChanges env.now request db
    let revision ← currentRevision db
    return ((startingRevision, revision), db)
  if revision > startingRevision then
    sendReplace revision
  return { revision }

/-- `SyncStore::backup_to`: the file it writes is a copy of the database. -/
def SyncStore.backupTo (fault : Option StoreError) : StoreM SourceFile :=
  query fault fun db => .ok (.database db)

/-- The points of `restore_from` at which the environment can fail. -/
inductive RestoreStep
  | lock
  | previousRevision
  | previousNotes
  | copy
  | restoredRevision
  | rebaseNotes
  | rebaseSnapshots
  | restoredNotes
  | tombstones
  | finalRevision
deriving DecidableEq

/-- What one `restore_from` meets: failures, the clock reading of its tombstones, and those for the
snapshots it writes. -/
structure RestoreEnv (τ : Type) where
  fault : RestoreStep → Option StoreError
  restoreTime : τ
  now : Nat → τ

/-- `conn.restore`: the destination is unchanged if the copy fails. The message of the error is the destination's, which
has met none itself. -/
def copyFrom (fault : Option StoreError) (file : SourceFile) : StoreM Unit :=
  execute fault fun _ =>
    match file with
    | .notADatabase => .error (.database (.sqliteFailure "not an error"))
    | .database content => .ok content

/-- `UPDATE notes SET revision = revision + ?1` -/
def shiftNotes (offset : Int) (db : Database) : Except StoreError Database := do
  let notes ← db.selectNotes
  return { db with notes := some (notes.map (.shift offset) (NoteRow.id_shift offset)) }

/-- `UPDATE note_snapshots SET revision = revision + ?1` -/
def shiftSnapshots (offset : Int) (db : Database) : Except StoreError Database := do
  let snapshots ← db.selectSnapshots
  return { db with noteSnapshots := some (snapshots.mapRevisions (· + offset)) }

def rebaseAllRevisions (env : RestoreEnv τ) (offset : Nat) : StoreM Unit := do
  if offset ≠ 0 then
    execute (env.fault .rebaseNotes) (shiftNotes (asI64 offset))
    execute (env.fault .rebaseSnapshots) (shiftSnapshots (asI64 offset))

/-- The tombstone that a restore at `restoreTime` puts in the place of a note. -/
def tombstone (restoreTime : τ) (previous : SyncChange τ) : SyncChange τ :=
  let deletedAt := max (changeTime previous) restoreTime
  { previous with updatedAt := max previous.updatedAt deletedAt, deletedAt := some deletedAt }

/-- The ids of the notes that are missing from the restored ones, sorted. -/
def missingNoteIds (previous restored : List (SyncChange τ)) : List String :=
  ((previous.map (·.id)).filter fun id => !restored.any (·.id = id)).insertionSort (· ≤ ·)

/-- The loop of `emit_restore_tombstones`. -/
def storeTombstones (env : RestoreEnv τ) (previous : List (SyncChange τ)) :
    List String → Nat → Database → Except StoreError Database
  | [], _, db => .ok db
  | id :: ids, nextRevision, db =>
    match previous.find? (·.id = id) with
    | none => storeTombstones env previous ids nextRevision db
    | some note => do
      let db ← storeChange env.now (tombstone env.restoreTime note) (nextRevision + 1) db
      storeTombstones env previous ids (nextRevision + 1) db

def emitRestoreTombstones (env : RestoreEnv τ) (previous restored : List (SyncChange τ)) :
    StoreM Nat := do
  let missing := missingNoteIds previous restored
  if missing ≠ [] then
    execute (env.fault .tombstones) fun db => do
      let nextRevision ← currentRevision db
      storeTombstones env previous missing nextRevision db
  query (env.fault .finalRevision) currentRevision

def SyncStore.restoreFrom (env : RestoreEnv τ) (file : SourceFile) : StoreM Unit := do
  check (env.fault .lock)
  let previousRevision ← query (env.fault .previousRevision) currentRevision
  let previousNotes ← query (env.fault .previousNotes) loadAllChanges
  copyFrom (env.fault .copy) file
  let restoredRevision ← query (env.fault .restoredRevision) currentRevision
  if restoredRevision ≤ previousRevision then
    rebaseAllRevisions env previousRevision
  let restoredNotes ← query (env.fault .restoredNotes) (loadAllChanges (τ := τ))
  let revision ← emitRestoreTombstones env previousNotes restoredNotes
  sendReplace revision

end FloralSync

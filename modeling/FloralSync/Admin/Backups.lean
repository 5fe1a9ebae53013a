import FloralSync.Admin.Settings
import FloralSync.Sync.Agreement

/-!
# Backups (`admin_api.rs`)

A backup is a file of the export directory, named after the second of the request. SQLite's backup replaces
the database that it finds under this name, so of the backups of one second only the last one is left.
-/

namespace FloralSync

open Rust Except Stateful Trace Replication
open Rfc3339 (Civil yearText pad length_pad eq_of_pad_append_eq eq_of_yearText_eq)

variable {τ : Type} [Chrono τ]

/-- `format!("floral-sync-{}.sqlite3", Utc::now().format("%Y-%m-%dT%H-%M-%SZ"))` -/
def backupFileName (now : Civil) : String :=
  String.ofList ("floral-sync-".toList ++ (yearText now.year ++ '-' :: (pad 2 now.month ++ '-' :: (pad 2 now.day ++
    'T' :: (pad 2 now.hour ++ '-' :: (pad 2 now.minute ++ '-' :: (pad 2 now.second ++ "Z.sqlite3".toList)))))))

/-- The times are in the same second. -/
def SameSecond (t u : Civil) : Prop := { t.toFields with nano := 0 } = { u.toFields with nano := 0 }

instance (t u : Civil) : Decidable (SameSecond t u) := inferInstanceAs (Decidable (_ = _))

/-- The years that `DateTime<Utc>` has. -/
def InChrono (t : Civil) : Prop := -262143 ≤ t.year ∧ t.year ≤ 262142

instance (t : Civil) : Decidable (InChrono t) := inferInstanceAs (Decidable (_ ∧ _))

theorem backupFileName_eq_iff {t u : Civil} (ht : InChrono t) (hu : InChrono u) :
    backupFileName t = backupFileName u ↔ SameSecond t u := by
  have hday := t.day_le
  have hday' := u.day_le
  obtain ⟨⟨-, hmonth⟩, -, hhour, hminute, hsecond, -⟩ := t.valid
  obtain ⟨⟨-, hmonth'⟩, -, hhour', hminute', hsecond', -⟩ := u.valid
  obtain ⟨hyear₁, hyear₂⟩ := ht
  obtain ⟨hyear₁', hyear₂'⟩ := hu
  constructor
  · intro h
    unfold backupFileName at h
    rw [String.ofList_inj, List.append_cancel_left_eq] at h
    -- after the year the names have the same length
    obtain ⟨hyear, htail⟩ := List.append_inj' h (by simp [length_pad])
    have hyear := eq_of_yearText_eq (by omega) (by omega) hyear
    obtain ⟨hmonth, htail⟩ := eq_of_pad_append_eq (by omega) (by omega) (List.cons.inj htail).2
    obtain ⟨hday, htail⟩ := eq_of_pad_append_eq (by omega) (by omega) (List.cons.inj htail).2
    obtain ⟨hhour, htail⟩ := eq_of_pad_append_eq (by omega) (by omega) (List.cons.inj htail).2
    obtain ⟨hminute, htail⟩ := eq_of_pad_append_eq (by omega) (by omega) (List.cons.inj htail).2
    obtain ⟨hsecond, -⟩ := eq_of_pad_append_eq (by omega) (by omega) (List.cons.inj htail).2
    simp only [SameSecond, hyear, hmonth, hday, hhour, hminute, hsecond]
  · intro h
    simp only [SameSecond, Rfc3339.Fields.mk.injEq] at h
    obtain ⟨hyear, hmonth, hday, hhour, hminute, hsecond, -⟩ := h
    unfold backupFileName
    rw [hyear, hmonth, hday, hhour, hminute, hsecond]

/-- The store, and the files of the export directory. -/
structure BackupState where
  store : SyncStore
  exports : String → Option SourceFile

/-- The clock readings of a request, and how the file system meets it. A backup that fails may have created its
file, empty. -/
structure BackupEnv where
  session : Instant
  now : Civil
  createDirAll : Bool
  fault : Option StoreError
  created : Bool

structure BackupResponse where
  fileName : String
  path : String
deriving DecidableEq

/-- The error of a backup to a file that is there or not. -/
def BackupEnv.failure (env : BackupEnv) : Option SourceFile → Option StoreError
  | some .notADatabase => some (env.fault.getD (.database (.sqliteFailure "not an error")))
  | _ => env.fault

/-- What a backup that fails leaves at its destination. -/
def BackupEnv.left (env : BackupEnv) (destination : Option SourceFile) : Option SourceFile :=
  if destination = none ∧ env.created = true then some (.database .empty) else destination

/-- `SyncStore::backup_to` of a file in the export directory -/
def backupToExport (env : BackupEnv) (fileName : String) : ExceptT ApiError (StateM BackupState) Unit := do
  let s ← get
  match (SyncStore.backupTo (env.failure (s.exports fileName))).exec s.store with
  | (.ok file, store) => set { store, exports := Function.update s.exports fileName (some file) : BackupState }
  | (.error e, store) =>
    set { store, exports := Function.update s.exports fileName (env.left (s.exports fileName)) : BackupState }
    throw (.store e)

def createBackup (crates : Crates) (env : BackupEnv) (headers : HeaderMap) (config : ServerConfig) :
    ExceptT ApiError (StateM BackupState) BackupResponse := do
  let _ ← liftExcept (requireSession crates env.session headers config)
  liftExcept (requireSameOrigin headers)
  liftExcept (ensure env.createDirAll ApiError.io)
  let fileName := backupFileName env.now
  let destination := config.exportDir.join ⟨fileName⟩
  backupToExport env fileName
  return { fileName, path := destination.text }

section Request

variable {crates : Crates} {env : BackupEnv} {fileName : String} {headers : HeaderMap} {config : ServerConfig}
  {s s' : BackupState} {response : BackupResponse} {u : Unit} {e : ApiError}

theorem BackupEnv.failure_eq_none {destination : Option SourceFile} : env.failure destination = none ↔
    env.fault = none ∧ destination ≠ some .notADatabase := by
  unfold BackupEnv.failure
  split <;> simp_all

theorem BackupEnv.left_of_some {file : SourceFile} : env.left (some file) = some file := by
  simp [BackupEnv.left]

theorem exec_backupToExport_ok : exec (backupToExport env fileName) s = (.ok u, s') ↔
    env.fault = none ∧ s.exports fileName ≠ some .notADatabase ∧
      s' = { s with exports := Function.update s.exports fileName (some (.database s.store.db)) } := by
  unfold backupToExport
  rw [← and_assoc, ← BackupEnv.failure_eq_none]
  simp only [exec_bind_ok, exec_get, SyncStore.backupTo, StoreM.exec_query]
  cases hfailure : env.failure (s.exports fileName) with
  | none =>
    constructor
    · rintro ⟨_, _, ⟨⟩, h⟩
      rw [hfailure] at h
      obtain ⟨-, rfl⟩ := Prod.mk.inj h
      exact ⟨rfl, rfl⟩
    · rintro ⟨-, rfl⟩
      exact ⟨s, s, rfl, by rw [hfailure]; rfl⟩
  | some e =>
    refine iff_of_false ?_ (by simp)
    rintro ⟨_, _, ⟨⟩, h⟩
    rw [hfailure] at h
    cases h

theorem exec_backupToExport_error (h : exec (backupToExport env fileName) s = (.error e, s')) :
    s'.store = s.store ∧ ∀ name file, s.exports name = some file → s'.exports name = some file := by
  unfold backupToExport at h
  simp only [exec_bind_error, exec_get, SyncStore.backupTo, StoreM.exec_query] at h
  rcases h with h | ⟨_, _, ⟨⟩, h⟩
  · cases h
  cases hfailure : env.failure (s.exports fileName) with
  | none =>
    rw [hfailure] at h
    cases h
  | some _ =>
    rw [hfailure] at h
    rcases exec_bind_error.1 h with h | ⟨_, _, ⟨⟩, h⟩
    · cases h
    obtain ⟨-, rfl⟩ := Prod.mk.inj h
    refine ⟨rfl, fun name file hfile => ?_⟩
    by_cases hname : name = fileName
    · subst hname
      simp [hfile, BackupEnv.left_of_some]
    · simp [hname, hfile]

theorem exec_createBackup_ok : exec (createBackup crates env headers config) s = (.ok response, s') ↔
    ((∃ claims, requireSession crates env.session headers config = .ok claims) ∧
      requireSameOrigin headers = .ok () ∧ env.createDirAll = true) ∧
    (env.fault = none ∧ s.exports (backupFileName env.now) ≠ some .notADatabase) ∧
    s' = { s with exports := Function.update s.exports (backupFileName env.now) (some (.database s.store.db)) } ∧
    response = ⟨backupFileName env.now, (config.exportDir.join ⟨backupFileName env.now⟩).text⟩ := by
  unfold createBackup
  simp only [exec_bind_ok, exec_liftExcept, exec_backupToExport_ok, exec_pure, Prod.mk.injEq, Except.ok.injEq]
  constructor
  · rintro ⟨claims, _, ⟨hsession, rfl⟩, _, _, ⟨horigin, rfl⟩, _, _, ⟨hdir, rfl⟩, _, _, ⟨hfault, hfile, rfl⟩, rfl, rfl⟩
    exact ⟨⟨⟨claims, hsession⟩, horigin, ensure_eq_ok.1 hdir⟩, ⟨hfault, hfile⟩, rfl, rfl⟩
  · rintro ⟨⟨⟨claims, hsession⟩, horigin, hdir⟩, ⟨hfault, hfile⟩, rfl, rfl⟩
    exact ⟨claims, s, ⟨hsession, rfl⟩, (), s, ⟨horigin, rfl⟩, (), s, ⟨ensure_eq_ok.2 hdir, rfl⟩, (), _,
      ⟨hfault, hfile, rfl⟩, rfl, rfl⟩

theorem exec_createBackup_error (h : exec (createBackup crates env headers config) s = (.error e, s')) :
    s'.store = s.store ∧ ∀ name file, s.exports name = some file → s'.exports name = some file := by
  unfold createBackup at h
  simp only [exec_bind_error, exec_liftExcept, exec_pure, Prod.mk.injEq] at h
  rcases h with ⟨-, rfl⟩ | ⟨_, _, ⟨-, rfl⟩, ⟨-, rfl⟩ | ⟨_, _, ⟨-, rfl⟩, ⟨-, rfl⟩ | ⟨_, _, ⟨-, rfl⟩, h⟩⟩⟩
  · exact ⟨rfl, fun _ _ => id⟩
  · exact ⟨rfl, fun _ _ => id⟩
  · exact ⟨rfl, fun _ _ => id⟩
  · rcases h with h | ⟨_, _, -, h, -⟩
    · exact exec_backupToExport_error h
    · cases h

end Request

/-! ### Restoring a backup -/

variable (τ) in
/-- The notes of `content` read the same in `db`, and every other note is deleted there. -/
structure SameNotes (content db : Database) : Prop where
  cell : ∀ id, noteAt content id ≠ none → (cellAt db id : Cell (SyncChange τ)) = cellAt content id
  deleted : ∀ id, noteAt content id = none → ∀ c : SyncChange τ, cellAt db id = .holds c → c.deletedAt ≠ none

variable (τ) in
/-- Restoring `content` succeeds, unless the environment fails a step, and gives its notes. -/
def Restores (s : SyncStore) (content : Database) : Prop :=
  ∀ env : RestoreEnv τ, (∀ step, env.fault step = none) → ∃ s',
    (SyncStore.restoreFrom env (.database content)).exec s = (.ok (), s') ∧ SameNotes τ content s'.db

variable (τ) in
/-- A database of the server whose revisions are far from `i64::MAX`. A restore adds up two of them. -/
structure Sound (db : Database) : Prop where
  numbered : ∃ head < 2 ^ 62, Numbered τ db head
  opened : Opened db

section Restores

variable {env : RestoreEnv τ} {s : SyncStore} {live content db : Database} {head m r : Nat} {id : String}

theorem Numbered.nonempty_of_unreadable (h : Numbered τ db head)
    (hcell : (cellAt db id : Cell (SyncChange τ)) = .unreadable) : Nonempty τ := by
  obtain ⟨notes, hnotes, -, hrows⟩ := h.notes
  obtain ⟨row, hrow, -⟩ := cellAt_eq_unreadable.1 hcell
  rw [noteAt_eq_lookup hnotes] at hrow
  obtain ⟨-, c, -⟩ := hrows row (Keyed.lookup_eq_some.1 hrow).1
  exact ⟨c.createdAt⟩

theorem Restored.readableNotes (h : Restored env live content db) : ReadableNotes τ live ∧ ReadableNotes τ content := by
  cases h with
  | intro hprevious hload hrebased hload' _ _ =>
    have hread := (exists_loadAllChanges_iff.1 ⟨_, hload'⟩).2
    simp only [hrebased.cellAt_eq] at hread
    obtain ⟨r, hr, -⟩ := hrebased
    exact ⟨⟨⟨_, hprevious⟩, (exists_loadAllChanges_iff.1 ⟨_, hload⟩).2⟩, ⟨r, hr⟩, hread⟩

theorem Restored.sameNotes [LawfulChrono τ] (h : Restored env live content db) : SameNotes τ content db := by
  refine ⟨fun id hid => h.cellAt_of_file hid, fun id hid c hc => ?_⟩
  cases hcell : (cellAt live id : Cell (SyncChange τ)) with
  | unreadable => exact absurd hcell (h.readableNotes.1.2 id)
  | absent =>
    have habsent : (cellAt db id : Cell (SyncChange τ)) = .absent :=
      cellAt_eq_absent.2 (h.noteAt_of_neither hid (cellAt_eq_absent.1 hcell))
    rw [habsent] at hc
    cases hc
  | holds p =>
    obtain rfl := id_of_cellAt hcell
    obtain ⟨-, revision, hnote⟩ := h.noteAt_of_missing hcell hid
    rw [cellAt_of_ofChange hnote, Cell.stored] at hc
    split_ifs at hc
    obtain rfl := Cell.holds.inj hc
    simp [tombstone]

/-- Restoring a backup gives its notes if they, and those of the live database, can be read. -/
theorem restores_iff [LawfulChrono τ] (hlive : Sound τ s.db) (hcontent : Sound τ content) :
    Restores τ s content ↔ ReadableNotes τ s.db ∧ ReadableNotes τ content := by
  obtain ⟨m, hm, hlive'⟩ := hlive.numbered
  obtain ⟨r, hr, hcontent'⟩ := hcontent.numbered
  constructor
  · intro h
    have hread : Nonempty τ → ReadableNotes τ s.db ∧ ReadableNotes τ content := by
      rintro ⟨t⟩
      obtain ⟨s', hexec, -⟩ := h ⟨fun _ => none, t, fun _ => t⟩ fun _ => rfl
      obtain ⟨_, ⟨⟩, hrestored, -⟩ := exec_restoreFrom_ok hexec
      exact hrestored.readableNotes
    refine ⟨⟨⟨m, hlive'.currentRevision_eq⟩, fun id hcell => ?_⟩, ⟨r, hcontent'.currentRevision_eq⟩, fun id hcell => ?_⟩
    · exact (hread (hlive'.nonempty_of_unreadable hcell)).1.2 id hcell
    · exact (hread (hcontent'.nonempty_of_unreadable hcell)).2.2 id hcell
  · rintro ⟨hread, hread'⟩ env hcalm
    obtain ⟨db, hrestored, -⟩ := exists_restored_of_readable env hread hread' (opened_iff.1 hcontent.opened).2.1 (by
      intro m' r' hm' _ _ notes hnotes _
      obtain rfl := Except.ok.inj (hm'.symm.trans hlive'.currentRevision_eq)
      obtain ⟨_, hnotes', hmax, -⟩ := hcontent'.notes
      obtain rfl := Option.some.inj (hnotes'.symm.trans hnotes)
      rw [hmax, asI64_of_lt hlive'.head_lt]
      unfold I64
      omega)
    obtain ⟨revision, hexec⟩ := exec_restoreFrom_of_calm hcalm hrestored
    exact ⟨_, hexec, hrestored.sameNotes⟩

end Restores

/-! ### Runs -/

/-- A backup: when it was made, and what the store held. -/
structure Backup where
  takenAt : Civil
  content : Database

/-- The state, and the backups made so far. -/
structure BackupSystem extends BackupState where
  made : List Backup

variable (τ) in
inductive BackupOperation
  | push (env : PushEnv τ) (request : PushRequest τ)
  | createBackup (env : BackupEnv) (headers : HeaderMap) (config : ServerConfig)

/-- A request, whether it succeeds or fails. The clock may show any time, and the effective config may be any
with the same export directory, which a settings patch does not change. -/
inductive BackupSystem.Step (crates : Crates) (exportDir : PathBuf) :
    BackupSystem → BackupOperation τ → BackupSystem → Prop
  | push {env request result store s} (h : (SyncStore.push env request).exec s.store = (result, store))
      (hfits : PushFits s.store.db store.db) (hroom : ∀ head, currentRevision store.db = .ok head → head < 2 ^ 62) :
      Step crates exportDir s (.push env request) { s with store }
  | created {env headers config response state s} (hdir : config.exportDir = exportDir) (hnow : InChrono env.now)
      (h : exec (createBackup crates env headers config) s.toBackupState = (.ok response, state)) :
      Step crates exportDir s (.createBackup env headers config) ⟨state, ⟨env.now, s.store.db⟩ :: s.made⟩
  | failed {env headers config e state s}
      (h : exec (createBackup crates env headers config) s.toBackupState = (.error e, state)) :
      Step crates exportDir s (.createBackup env headers config) ⟨state, s.made⟩

variable (τ) in
/-- The files of the backups are as they were written, and each of them can be restored. -/
def BackupSystem.Kept (s : BackupSystem) : Prop :=
  ∀ backup ∈ s.made, s.exports (backupFileName backup.takenAt) = some (.database backup.content) ∧
    Restores τ s.store backup.content

/-- A backup that succeeds is not in the second of one of another content, and is of notes that can be read.
Once there is a backup, a push that succeeds leaves no note whose times cannot be read back. -/
def Spaced (crates : Crates) (s : BackupSystem) : BackupOperation τ → Prop
  | .push env request => s.made ≠ [] → Calm s.store (.push env request)
  | .createBackup env headers config => ∀ response state,
      exec (createBackup crates env headers config) s.toBackupState = (.ok response, state) →
      (∀ backup ∈ s.made, SameSecond backup.takenAt env.now → backup.content = s.store.db) ∧
        ReadableNotes τ s.store.db

variable (τ) in
structure BackupSystem.Inv (s : BackupSystem) : Prop where
  store : Sound τ s.store.db
  made : ∀ backup ∈ s.made, Sound τ backup.content ∧ InChrono backup.takenAt

section Runs

variable [LawfulChrono τ] {crates : Crates} {exportDir : PathBuf} {s₀ s s' : BackupSystem} {store store' : SyncStore}
  {operation : BackupOperation τ} {trace : List (BackupSystem × BackupOperation τ)} {env : PushEnv τ}
  {request : PushRequest τ} {result : Except StoreError PushResponse}

omit [LawfulChrono τ] in
theorem Sound.push (h : Sound τ store.db) (hpush : (SyncStore.push env request).exec store = (result, store'))
    (hfits : PushFits store.db store'.db) (hroom : ∀ head, currentRevision store'.db = .ok head → head < 2 ^ 62) :
    Sound τ store'.db := by
  obtain ⟨head, -, hnumbered⟩ := h.numbered
  obtain ⟨head', hnumbered'⟩ := Numbered.kept.push hnumbered hpush hfits
  refine ⟨⟨head', hroom head' hnumbered'.currentRevision_eq, hnumbered'⟩, ?_⟩
  rcases result with e | response
  · rw [exec_push_error hpush]
    exact h.opened
  · obtain ⟨-, -, _, -, hloop, -⟩ := exec_push_ok.1 hpush
    exact pushChanges_opened hloop h.opened

omit [LawfulChrono τ] in
theorem BackupSystem.Inv.step (h : s.Inv τ) (hs : BackupSystem.Step crates exportDir s operation s') : s'.Inv τ := by
  cases hs with
  | push hpush hfits hroom => exact ⟨h.store.push hpush hfits hroom, h.made⟩
  | created _ hnow hbackup =>
    obtain ⟨-, -, rfl, -⟩ := exec_createBackup_ok.1 hbackup
    exact ⟨h.store, List.forall_mem_cons.2 ⟨⟨h.store, hnow⟩, h.made⟩⟩
  | failed hbackup => exact ⟨(exec_createBackup_error hbackup).1 ▸ h.store, h.made⟩

theorem kept_push_iff (h : s.Inv τ) (hkept : s.Kept τ)
    (hpush : (SyncStore.push env request).exec s.store = (result, store)) (hsound : Sound τ store.db) :
    BackupSystem.Kept τ { s with store } ↔ (s.made ≠ [] → Calm s.store (.push env request)) := by
  have hread : ∀ backup ∈ s.made, ReadableNotes τ s.store.db ∧ ReadableNotes τ backup.content :=
    fun backup hb => (restores_iff h.store (h.made backup hb).1).1 (hkept backup hb).2
  constructor
  · intro hkept' hne
    obtain ⟨backup, hb⟩ := List.exists_mem_of_ne_nil _ hne
    obtain ⟨hread', -⟩ := (restores_iff hsound (h.made backup hb).1).1 (hkept' backup hb).2
    exact (readable_push_iff (hread backup hb).1.2 hpush).1 hread'.2
  · intro hcalm backup hb
    obtain ⟨head, -, hnumbered⟩ := hsound.numbered
    have hread' := (readable_push_iff (hread backup hb).1.2 hpush).2 (hcalm (List.ne_nil_of_mem hb))
    exact ⟨(hkept backup hb).1, (restores_iff hsound (h.made backup hb).1).2
      ⟨⟨⟨head, hnumbered.currentRevision_eq⟩, hread'⟩, (hread backup hb).2⟩⟩

theorem kept_step_iff (h : s.Inv τ) (hkept : s.Kept τ) (hs : BackupSystem.Step crates exportDir s operation s') :
    s'.Kept τ ↔ Spaced crates s operation := by
  cases hs with
  | push hpush hfits hroom => exact kept_push_iff h hkept hpush (h.store.push hpush hfits hroom)
  | @created env headers config response _ _ _ hnow hbackup =>
    have hok := exec_createBackup_ok.1 hbackup
    obtain ⟨-, -, rfl, -⟩ := hok
    constructor
    · intro hkept' _ _ _
      obtain ⟨hnew, hold⟩ := List.forall_mem_cons.1 hkept'
      refine ⟨fun backup hb hsame => ?_, ((restores_iff h.store h.store).1 hnew.2).2⟩
      -- the new file has the name of the old one
      have hfile := (hold backup hb).1
      rw [(backupFileName_eq_iff (h.made backup hb).2 hnow).2 hsame] at hfile
      exact SourceFile.database.inj (Option.some.inj (hfile.symm.trans hnew.1))
    · intro hspaced
      obtain ⟨hsame, hread⟩ := hspaced _ _ hbackup
      refine List.forall_mem_cons.2 ⟨⟨Function.update_self .., (restores_iff h.store h.store).2 ⟨hread, hread⟩⟩,
        fun backup hb => ⟨?_, (hkept backup hb).2⟩⟩
      by_cases hname : backupFileName backup.takenAt = backupFileName env.now
      · rw [hname, hsame backup hb ((backupFileName_eq_iff (h.made backup hb).2 hnow).1 hname)]
        exact Function.update_self ..
      · exact (Function.update_of_ne hname _ _).trans (hkept backup hb).1
  | failed hbackup =>
    obtain ⟨hstore, hexports⟩ := exec_createBackup_error hbackup
    refine iff_of_true (fun backup hb => ⟨hexports _ _ (hkept backup hb).1, ?_⟩) fun response state hok => ?_
    · rw [hstore]
      exact (hkept backup hb).2
    · rw [hbackup] at hok
      cases hok

/-- The backups are kept all along a run if and only if it is spaced. -/
theorem backups_kept_iff (h : Run (BackupSystem.Step (τ := τ) crates exportDir) s₀ trace s) (hstore : Sound τ s₀.store.db)
    (hmade : s₀.made = []) : Always (BackupSystem.Kept τ) trace s ↔ ∀ x ∈ trace, Spaced crates x.1 x.2 := by
  have hinv : s₀.Inv τ := ⟨hstore, by simp [hmade]⟩
  exact h.always_iff (BackupSystem.Inv τ) hinv (by simp [BackupSystem.Kept, hmade]) BackupSystem.Inv.step
    kept_step_iff

end Runs

def backupEnv (now : Civil) : BackupEnv := ⟨sampleClaims.issuedAt, now, true, none, false⟩

def backupAt (now : Civil) : BackupOperation Civil := .createBackup (backupEnv now) sampleHeaders sampleConfig

def noBackups : BackupSystem := ⟨⟨.created, fun _ => none⟩, []⟩

/-- The system after a backup at `now`. -/
def backedUp (now : Civil) (s : BackupSystem) : BackupSystem :=
  ⟨⟨s.store, Function.update s.exports (backupFileName now) (some (.database s.store.db))⟩,
    ⟨now, s.store.db⟩ :: s.made⟩

theorem exports_backedUp {now : Civil} {s : BackupSystem} :
    (backedUp now s).exports (backupFileName now) = some (.database s.store.db) := by simp [backedUp]

/-- The system after a backup at eight and a push. -/
def backupAndPush : BackupSystem := { backedUp Sample.eight noBackups with store := Sample.oneNoteStore }

theorem step_backupAt {now : Civil} {s : BackupSystem} (hnow : InChrono now)
    (hfile : s.exports (backupFileName now) ≠ some .notADatabase) :
    BackupSystem.Step sampleCrates sampleConfig.exportDir s (backupAt now) (backedUp now s) := by
  exact .created rfl hnow (exec_createBackup_ok.2
    ⟨⟨⟨_, requireSession_sampleConfig⟩, requireSameOrigin_sample, rfl⟩, ⟨rfl, hfile⟩, rfl, rfl⟩)

theorem run_backupAt (now : Civil) (hnow : InChrono now) :
    Run (BackupSystem.Step sampleCrates sampleConfig.exportDir) noBackups
      [(backupAndPush, backupAt now), (backedUp Sample.eight noBackups, .push Sample.pushEnv Sample.oneNote),
        (noBackups, backupAt Sample.eight)] (backedUp now backupAndPush) := by
  have hrev : currentRevision SyncStore.created.db = .ok 0 := by decide +kernel
  have hrev' : currentRevision Sample.oneNoteStore.db = .ok 1 := by decide +kernel
  have hcount : Sample.oneNoteStore.db.snapshotCount = 1 := by decide +kernel
  have hroom : ∀ head, currentRevision Sample.oneNoteStore.db = .ok head → head < 2 ^ 62 := by
    intro head hhead
    obtain rfl := Except.ok.inj (hrev'.symm.trans hhead)
    decide
  refine .step (.step (.step .start (step_backupAt (by decide) (by simp [noBackups])))
    (.push rfl (.of_eq hrev (by rw [hcount]; decide)) hroom)) (step_backupAt hnow ?_)
  simp only [backupAndPush, backedUp, noBackups, Function.update_apply]
  split_ifs <;> simp

/-- In two seconds, both are kept. -/
theorem backups_kept_sample : ∃ trace, Run (BackupSystem.Step (τ := Civil) sampleCrates sampleConfig.exportDir)
    noBackups trace (backedUp Sample.nine backupAndPush) ∧
      Always (BackupSystem.Kept Civil) trace (backedUp Sample.nine backupAndPush) := by
  have hrun := run_backupAt Sample.nine (by decide)
  have hread := (current_created (τ := Civil)).readable
  have hcalm : Calm SyncStore.created (.push Sample.pushEnv Sample.oneNote) :=
    calm_push_of_inRange current_created (by decide)
  have hread' : ∀ id, (cellAt Sample.oneNoteStore.db id : Cell (SyncChange Civil)) ≠ .unreadable :=
    (readable_push_iff hread rfl).2 hcalm
  refine ⟨_, hrun, (backups_kept_iff hrun ⟨⟨0, by decide, .created⟩, (healthy_created (τ := Civil)).opened⟩ rfl).2 ?_⟩
  simp only [List.forall_mem_cons, List.not_mem_nil, false_imp_iff, implies_true, and_true]
  refine ⟨fun _ _ _ => ⟨?_, ⟨1, by decide +kernel⟩, hread'⟩, fun _ => hcalm, fun _ _ _ => ⟨nofun, ⟨0, rfl⟩, hread⟩⟩
  intro backup hb hsame
  rw [List.mem_singleton.1 hb] at hsame
  exact absurd hsame (by decide)

/-- In one second, the second backup takes the place of the first one. -/
theorem backup_replaced : ∃ trace s, Run (BackupSystem.Step (τ := Civil) sampleCrates sampleConfig.exportDir)
    noBackups trace s ∧
      ∃ backup ∈ s.made, s.exports (backupFileName backup.takenAt) ≠ some (.database backup.content) := by
  refine ⟨_, _, run_backupAt Sample.eight (by decide), ⟨Sample.eight, SyncStore.created.db⟩,
    List.mem_cons_of_mem _ List.mem_cons_self, ?_⟩
  intro hfile
  have hcontent : Sample.oneNoteStore.db = SyncStore.created.db :=
    SourceFile.database.inj (Option.some.inj (exports_backedUp.symm.trans hfile))
  have hcount : Sample.oneNoteStore.db.snapshotCount ≠ SyncStore.created.db.snapshotCount := by decide +kernel
  exact hcount (congrArg _ hcontent)

end FloralSync

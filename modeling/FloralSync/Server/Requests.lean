import FloralSync.Admin.Archive
import FloralSync.Admin.ExportDir
import FloralSync.Admin.Reads
import FloralSync.Sync.Api

/-!
# The requests of a server (`admin_api.rs`, `sync_api.rs`, `main.rs`)

All handlers on one state. A handler takes the config when it starts and touches the rest of the state later, so it
gets the config that it has `captured` besides the state that it finds.
-/

namespace FloralSync

open Rust Except Stateful
open Rfc3339 (Civil yearText pad isDigit_of_mem_pad)

variable {τ ω ζ : Type} [Chrono τ]

def ExportDir.contents (dir : ExportDir) (name : String) : Option SourceFile :=
  (dir.entries.find? (·.name = .text name)).bind fun entry => entry.node.followed

/-- The entry with a new content: a link stays one. -/
def Node.overwrite (content : SourceFile) (len : Nat) : Node → Node
  | .symlink _ => .symlink (some content)
  | _ => .file content len

/-- The name of an entry of a directory. -/
abbrev FileName := { name : String // PathBuf.IsName name }

def ExportDir.write (dir : ExportDir) (name : FileName) (content : SourceFile) (len : Nat) : ExportDir :=
  if hname : OsString.text name ∈ dir.entries.map DirEntry.name then
    { entries := dir.entries.map fun entry =>
        if entry.name = .text name then { entry with node := entry.node.overwrite content len } else entry
      nodup := by
        rw [List.map_map]
        convert dir.nodup using 2
        funext entry
        simp only [Function.comp_apply]
        split_ifs <;> rfl
      isName := by
        simp only [List.mem_map]
        rintro _ ⟨entry, hentry, rfl⟩ other hother
        split_ifs at hother
        · exact dir.isName entry hentry other hother
        · exact dir.isName entry hentry other hother }
  else
    { entries := dir.entries ++ [⟨.text name, .file content len⟩]
      nodup := by
        rw [List.map_append, List.nodup_append_comm]
        exact List.nodup_cons.2 ⟨hname, dir.nodup⟩
      isName := by
        simp only [List.mem_append, List.mem_singleton]
        rintro entry (hentry | rfl) other hother
        · exact dir.isName entry hentry other hother
        · obtain rfl := OsString.text.inj hother
          exact name.2 }

theorem isName_backupFileName (now : Civil) : PathBuf.IsName (backupFileName now) := by
  have hdigit : ∀ k n, '/' ∉ pad k n := fun k n h => absurd (isDigit_of_mem_pad h) (by decide)
  have hyear : ∀ y, '/' ∉ yearText y := by
    intro y
    unfold yearText
    split_ifs
    · exact hdigit _ _
    all_goals exact List.not_mem_cons_of_ne_of_not_mem (by decide) (hdigit _ _)
  have hslash : '/' ∉ (backupFileName now).toList := by
    unfold backupFileName
    rw [String.toList_ofList]
    simp [hdigit, hyear]
  have hfront : "floral-sync-".toList = 'f' :: "loral-sync-".toList := by decide +kernel
  obtain ⟨rest, hrest⟩ : ∃ rest, (backupFileName now).toList = "floral-sync-".toList ++ rest :=
    ⟨_, String.toList_ofList⟩
  rw [hfront] at hrest
  exact ⟨hslash, by simp [hrest, ignorable], by simp [hrest]⟩

/-- What the handlers share (`AppState`, `AdminAppState`), and the files that they change. -/
structure Server where
  store : SyncStore
  runtime : RuntimeConfigState
  file : ConfigFile
  exports : ExportDir
  restartRequested : Bool

def Server.admin (s : Server) : AdminState := ⟨s.runtime, s.file⟩

def Server.withAdmin (admin : AdminState) (s : Server) : Server := { s with runtime := admin.runtime, file := admin.file }

def Server.withStore (store : SyncStore) (s : Server) : Server := { s with store }

inductive SyncRequest (τ : Type)
  | health
  | changes (since : Option Nat)
  | push (request : PushRequest τ)
  | waitForChange (since : Option Nat)

inductive AdminRequest
  | login (password : String)
  | logout
  | bootstrap (password : String)
  | sessionStatus
  | overview
  | notes (query : AdminApi.NotesQuery)
  | notesArchiveDownload (query : NoteArchiveQuery)
  | noteHistory (noteId : String)
  | noteDownload (noteId : String)
  | noteDetail (noteId : String)
  | settings
  | updateSettings (request : SettingsUpdateRequest)
  | resetSyncToken
  | restartService
  | changePassword (request : PasswordChangeRequest)
  | createBackup
  | restoreBackup (fileName : String)
  | listBackups
  | readLogs (limit : Option Nat)

inductive Request (τ : Type)
  | sync (request : SyncRequest τ)
  | admin (request : AdminRequest)

/-- The routes that take `POST`. -/
def Request.isPost : Request τ → Bool
  | .sync (.push _) => true
  | .sync _ => false
  | .admin request => match request with
    | .login _ | .logout | .bootstrap _ | .updateSettings _ | .resetSyncToken | .restartService | .changePassword _
    | .createBackup | .restoreBackup _ => true
    | _ => false

inductive SyncReply (τ : Type)
  | health (response : SyncApi.HealthResponse)
  | changes (response : ChangesResponse τ)
  | push (response : PushResponse)
  | wait (response : WaitResponse)

inductive AdminReply (τ ζ : Type)
  | session (reply : SessionReply)
  | sessionStatus (response : SessionResponse)
  | overview (response : AdminApi.OverviewResponse τ)
  | notes (page : NoteListPage τ)
  | archive (reply : FileReply ζ)
  | noteHistory (history : List (NoteSnapshot τ))
  | noteDownload (reply : FileReply String)
  | noteDetail (note : NoteDetail τ)
  | settings (response : SettingsResponse)
  | settingsUpdated (response : SettingsUpdateResponse)
  | tokenReset (syncToken : String)
  | restart (restartRequested : Bool)
  | backup (response : BackupResponse)
  | restored (response : RestoreBackupResponse)
  | backups (entries : List BackupEntry)
  | logs (response : AdminApi.LogsResponse)

inductive Reply (τ ζ : Type)
  | sync (reply : SyncReply τ)
  | admin (reply : AdminReply τ ζ)

/-- The error responses of both APIs. -/
inductive Refusal
  | sync (error : SyncApi.ApiError)
  | admin (error : ApiError)
deriving DecidableEq

def SyncApi.ApiError.status : SyncApi.ApiError → Nat
  | .unauthorized => 401
  | .store _ => 500
  | .internal _ => 500

def ApiError.status : ApiError → Nat
  | .badRequest _ => 400
  | .unauthorized => 401
  | .forbidden _ => 403
  | .notFound _ => 404
  | .conflict _ => 409
  | .config _ => 500
  | .store _ => 500
  | .io => 500
  | .internal _ => 500

def Refusal.status : Refusal → Nat
  | .sync e => e.status
  | .admin e => e.status

/-- The crates that the handlers use. -/
structure Libraries (ω ζ : Type) extends Crates where
  zip : Zip ω ζ
  /-- The characters that `HeaderValue::from_str` takes. -/
  valid : Char → Bool

/-- What one request meets: the clock, new tokens and salts, failures, and the files that it reads. -/
structure RequestEnv (τ : Type) where
  now : Instant
  issuedAt : Instant
  clock : Civil
  sessionId : String
  syncToken : String
  salt : String
  configFile : FileEnv
  query : Option StoreError
  push : PushEnv τ
  wait : SyncApi.WaitEnv
  restore : RestoreEnv τ
  createDirAll : Bool
  backup : Option StoreError
  created : Bool
  len : Nat
  list : ListEnv
  log : AdminApi.LogFile

def RequestEnv.backupEnv (env : RequestEnv τ) : BackupEnv where
  session := env.now
  now := env.clock
  createDirAll := env.createDirAll
  fault := env.backup
  created := env.created

/-! ### The handlers -/

section Handlers

variable (lib : Libraries ω ζ) (env : RequestEnv τ) (headers : HeaderMap) (captured : RuntimeConfigState)

abbrev HandlerM := ExceptT ApiError (StateM Server)

def SyncApi.handle (config : ServerConfig) : SyncRequest τ → SyncApi.HandlerM (SyncReply τ)
  | .health => .health <$> health env.query headers config
  | .changes since => .changes <$> changes env.query headers since config
  | .push request => .push <$> push env.push headers request config
  | .waitForChange since => .wait <$> waitForChange env.wait headers since config

namespace AdminApi

/-- `require_session` and `require_same_origin`, which the handlers of most `POST` routes begin with. -/
def requireAdmin (config : ServerConfig) : Except ApiError Unit := do
  let _ ← requireSession lib.toCrates env.now headers config
  requireSameOrigin headers

/-- A handler that checks the request and then changes the config. -/
def updating {α : Type} (check : Except ApiError ConfigPatch) (finish : RuntimeConfigSnapshot → Except ApiError α) :
    HandlerM α := do
  let patch ← liftExcept check
  let snapshot ← zoom Server.admin Server.withAdmin (updateConfig env.configFile patch)
  liftExcept (finish snapshot)

def restartService (config : ServerConfig) : HandlerM Bool := do
  liftExcept (requireAdmin lib env headers config)
  modify fun s => { s with restartRequested := true }
  return true

/-- `create_backup`, with the file that it leaves in the directory. -/
def createBackup (config : ServerConfig) : HandlerM BackupResponse := do
  liftExcept (requireAdmin lib env headers config)
  liftExcept (ensure env.createDirAll ApiError.io)
  let fileName := backupFileName env.clock
  let destination := config.exportDir.join ⟨fileName⟩
  zoom (fun s => ⟨s.store, s.exports.contents⟩)
    (fun backup s =>
      let exports := match backup.exports fileName with
        | some content => s.exports.write ⟨fileName, isName_backupFileName env.clock⟩ content env.len
        | none => s.exports
      { s with store := backup.store, exports })
    (backupToExport env.backupEnv fileName)
  return { fileName, path := destination.text }

def restoreBackup (config : ServerConfig) (fileName : String) : HandlerM RestoreBackupResponse := do
  let exports := (← get).exports
  zoom Server.store Server.withStore
    (FloralSync.restoreBackup lib.toCrates env.restore env.now headers config exports fileName)

def handle : AdminRequest → HandlerM (AdminReply τ ζ)
  | .login password => reading fun _ => do
    checkLogin lib.toCrates headers password captured.effective
    .session <$> issueSessionResponse lib.toCrates env.sessionId env.issuedAt captured.effective
  | .logout => reading fun _ => do
    requireSameOrigin headers
    return .session
      { body := { authenticated := false, bootstrapRequired := bootstrapRequired captured.effective,
                  passwordConfigured := captured.effective.adminPasswordHash.isSome, expiresAt := none }
        setCookie := clearedSessionCookie }
  | .bootstrap password =>
    updating env (passwordPatch <$> checkBootstrap lib.toCrates headers password env.salt captured.effective)
      fun snapshot => .session <$>
        issueSessionResponse lib.toCrates env.sessionId env.issuedAt snapshot.effective
  | .sessionStatus => reading fun _ =>
    return .sessionStatus (currentSessionResponse captured.effective
      (sessionClaims lib.toCrates env.now headers captured.effective))
  | .overview => reading fun s =>
    .overview <$> overview lib.toCrates env.now headers captured.effective s.store.db
  | .notes query => reading fun s =>
    .notes <$> notes lib.toCrates env.now headers captured.effective s.store.db query
  | .notesArchiveDownload query => reading fun s =>
    .archive <$> notesArchiveDownload τ lib.zip lib.valid lib.toCrates env.now env.clock headers captured.effective
      s.store.db query
  | .noteHistory noteId => reading fun s =>
    .noteHistory <$> noteHistory lib.toCrates env.now headers captured.effective s.store.db noteId
  | .noteDownload noteId => reading fun s =>
    .noteDownload <$> noteDownload τ lib.valid lib.toCrates env.now headers captured.effective s.store.db noteId
  | .noteDetail noteId => reading fun s =>
    .noteDetail <$> noteDetail lib.toCrates env.now headers captured.effective s.store.db noteId
  | .settings => reading fun _ => do
    let snapshot := snapshotFromState captured
    let _ ← requireSession lib.toCrates env.now headers snapshot.effective
    return .settings (settingsResponse snapshot)
  | .updateSettings request =>
    updating env (do requireAdmin lib env headers captured.effective; return request.patch) fun snapshot =>
      return .settingsUpdated
        { settings := settingsResponse snapshot, restartRequiredFields := snapshot.pendingRestartFields }
  | .resetSyncToken =>
    updating env (do requireAdmin lib env headers captured.effective
                     return { ConfigPatch.default with token := some env.syncToken }) fun _ =>
      return .tokenReset env.syncToken
  | .restartService => .restart <$> restartService lib env headers captured.effective
  | .changePassword request =>
    updating env
      (passwordPatch <$> checkPasswordChange lib.toCrates env.now headers request env.salt captured.effective)
      fun snapshot => .session <$>
        issueSessionResponse lib.toCrates env.sessionId env.issuedAt snapshot.effective
  | .createBackup => .backup <$> createBackup lib env headers captured.effective
  | .restoreBackup fileName => .restored <$> restoreBackup lib env headers captured.effective fileName
  | .listBackups => reading fun s =>
    .backups <$> listBackups lib.toCrates env.now headers captured.effective env.list s.exports
  | .readLogs limit => reading fun _ =>
    .logs <$> readLogs lib.toCrates env.now headers captured.effective env.log limit

end AdminApi

/-- What the server does with a request. -/
def Request.handle : Request τ → ExceptT Refusal (StateM Server) (Reply τ ζ)
  | .sync request =>
    .sync <$> ExceptT.adapt Refusal.sync (zoom Server.store Server.withStore
      (SyncApi.handle env headers captured.effective request))
  | .admin request => .admin <$> ExceptT.adapt Refusal.admin (AdminApi.handle lib env headers captured request)

/-! ### Nothing in between

The handlers of `Api` read the config where these are given it. -/

/-- The requests about the config, as `Api` has them. -/
def AdminApi.uninterrupted : AdminRequest → Option (ApiM (AdminReply τ ζ))
  | .login password => some (.session <$> login lib.toCrates env.sessionId env.issuedAt headers password)
  | .logout => some (.session <$> logout headers)
  | .bootstrap password =>
    some (.session <$> bootstrap lib.toCrates env.configFile env.salt env.sessionId env.issuedAt headers password)
  | .sessionStatus => some (.sessionStatus <$> FloralSync.sessionStatus lib.toCrates env.now headers)
  | .settings => some (.settings <$> FloralSync.settings lib.toCrates env.now headers)
  | .updateSettings request =>
    some (.settingsUpdated <$> updateSettings lib.toCrates env.configFile env.now headers request)
  | .resetSyncToken =>
    some (.tokenReset <$> resetSyncToken lib.toCrates env.configFile env.syncToken env.now headers)
  | .changePassword request =>
    some (.session <$> changePassword lib.toCrates env.configFile env.salt env.sessionId env.now env.issuedAt headers
      request)
  | _ => none

end Handlers

section Uninterrupted

variable {lib : Libraries ω ζ} {env : RequestEnv τ} {headers : HeaderMap} {request : AdminRequest}
  {x : ApiM (AdminReply τ ζ)} {s : Server}

omit [Chrono τ] in
theorem AdminApi.exec_updating {α : Type} (check : Except ApiError ConfigPatch)
    (finish : RuntimeConfigSnapshot → Except ApiError α) :
    exec (updating env check finish) s = match check with
      | .error e => (.error e, s)
      | .ok patch => match exec (updateConfig env.configFile patch) s.admin with
        | (.error e, admin) => (.error e, s.withAdmin admin)
        | (.ok snapshot, admin) => (finish snapshot, s.withAdmin admin) := by
  rw [updating, exec_bind, exec_liftExcept]
  cases check with
  | error e => rfl
  | ok patch =>
    dsimp only
    rw [exec_bind, exec_zoom]
    rcases exec (updateConfig env.configFile patch) s.admin with ⟨e | snapshot, admin⟩
    · rfl
    · exact exec_liftExcept _

theorem exec_handle_of_uninterrupted (h : AdminApi.uninterrupted lib env headers request = some x) :
    exec (AdminApi.handle lib env headers s.runtime request) s =
      ((exec x s.admin).1, s.withAdmin (exec x s.admin).2) := by
  cases request <;> cases h
  case login password =>
    simp only [AdminApi.handle, login, exec_reading, exec_map, exec_bind, exec_get, exec_liftExcept, Server.admin]
    cases checkLogin lib.toCrates headers password s.runtime.effective <;> rfl
  case logout =>
    simp only [AdminApi.handle, logout, exec_reading, exec_map, exec_bind, exec_get, exec_liftExcept, Server.admin]
    cases requireSameOrigin headers <;> rfl
  case sessionStatus => rfl
  case settings =>
    simp only [AdminApi.handle, settings, exec_reading, exec_map, exec_bind, exec_get, exec_liftExcept, Server.admin]
    cases requireSession lib.toCrates env.now headers (snapshotFromState s.runtime).effective <;> rfl
  case bootstrap password =>
    simp only [AdminApi.handle, bootstrap, AdminApi.exec_updating, exec_map, exec_bind, exec_get, exec_liftExcept]
    dsimp only [Server.admin]
    cases checkBootstrap lib.toCrates headers password env.salt s.runtime.effective with
    | error e => rfl
    | ok passwordHash =>
      dsimp only [Functor.map, Except.map]
      rcases exec (updateConfig env.configFile (passwordPatch passwordHash)) ⟨s.runtime, s.file⟩ with
        ⟨e | snapshot, admin⟩ <;> rfl
  case changePassword request =>
    simp only [AdminApi.handle, changePassword, AdminApi.exec_updating, exec_map, exec_bind, exec_get, exec_liftExcept]
    dsimp only [Server.admin]
    cases checkPasswordChange lib.toCrates env.now headers request env.salt s.runtime.effective with
    | error e => rfl
    | ok passwordHash =>
      dsimp only [Functor.map, Except.map]
      rcases exec (updateConfig env.configFile (passwordPatch passwordHash)) ⟨s.runtime, s.file⟩ with
        ⟨e | snapshot, admin⟩ <;> rfl
  case updateSettings request =>
    simp only [AdminApi.handle, updateSettings, AdminApi.exec_updating, AdminApi.requireAdmin, exec_map, exec_bind,
      exec_get, exec_liftExcept]
    dsimp only [Server.admin]
    cases requireSession lib.toCrates env.now headers s.runtime.effective with
    | error e => rfl
    | ok claims =>
      cases requireSameOrigin headers with
      | error e => rfl
      | ok _ =>
        dsimp only [bind, Except.bind, pure, Except.pure]
        rcases exec (updateConfig env.configFile request.patch) ⟨s.runtime, s.file⟩ with ⟨e | snapshot, admin⟩ <;> rfl
  case resetSyncToken =>
    simp only [AdminApi.handle, resetSyncToken, AdminApi.exec_updating, AdminApi.requireAdmin, exec_map, exec_bind,
      exec_get, exec_liftExcept]
    dsimp only [Server.admin]
    cases requireSession lib.toCrates env.now headers s.runtime.effective with
    | error e => rfl
    | ok claims =>
      cases requireSameOrigin headers with
      | error e => rfl
      | ok _ =>
        dsimp only [bind, Except.bind, pure, Except.pure]
        rcases exec (updateConfig env.configFile { ConfigPatch.default with token := some env.syncToken })
          ⟨s.runtime, s.file⟩ with ⟨e | snapshot, admin⟩ <;> rfl

end Uninterrupted
end FloralSync

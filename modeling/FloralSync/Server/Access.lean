import FloralSync.Server.Requests
import FloralSync.Trace

/-!
# What a request may do

Of each handler: a refused request changes nothing, and another one writes one part of the state at most
(`Request.exec_handle`).
-/

namespace FloralSync

open Rust Except Stateful Trace

variable {τ ω ζ : Type} [Chrono τ]

section Requests

variable {lib : Libraries ω ζ} {env : RequestEnv τ} {headers : HeaderMap} {captured : RuntimeConfigState}
  {s s' : Server} {request : Request τ} {result : Except Refusal (Reply τ ζ)}

/-- The request has a valid session, or for the sync API the token. -/
def Request.enters (lib : Libraries ω ζ) (env : RequestEnv τ) (headers : HeaderMap) (config : ServerConfig) :
    Request τ → Bool
  | .sync _ => (SyncApi.authorize headers config.syncToken).isOk
  | .admin _ => (requireSession lib.toCrates env.now headers config).isOk

/-- What a request must show to change something: the token, a session and the right origin, or for the first
password the right origin as long as there is none. -/
def Request.Permitted (lib : Libraries ω ζ) (env : RequestEnv τ) (headers : HeaderMap) (config : ServerConfig) :
    Request τ → Prop
  | .sync _ => SyncApi.authorize headers config.syncToken = .ok ()
  | .admin (.bootstrap _) => requireSameOrigin headers = .ok () ∧ bootstrapRequired config = true
  | .admin _ => AdminApi.requireAdmin lib env headers config = .ok ()

namespace SyncApi

variable {config : ServerConfig} {request : SyncRequest τ} {store store' : SyncStore}
  {result : Except ApiError (SyncReply τ)} {e : ApiError}

theorem exec_handle_of_error (h : authorize headers config.syncToken = .error e) :
    exec (handle env headers config request) store = (.error .unauthorized, store) := by
  obtain rfl := authorize_eq_error h
  cases request <;> simp [handle, health, changes, push, waitForChange, exec_bind, h]

theorem exec_push {push : PushEnv τ} {r : PushRequest τ} (h : authorize headers config.syncToken = .ok ()) :
    exec (SyncApi.push push headers r config) store =
      (((SyncStore.push push r).exec store).1.mapError .store, ((SyncStore.push push r).exec store).2) := by
  rw [SyncApi.push, exec_bind, exec_liftExcept, h]
  exact exec_ofStore ..

theorem onlyReads_query {α : Type} (fault : Option StoreError) (f : Database → Except StoreError α) :
    OnlyReads (ofStore (StoreM.query fault f)) := fun s => by rw [exec_ofStore, StoreM.exec_query]

theorem onlyReads_handle (h : ∀ r, request ≠ .push r) : OnlyReads (handle env headers config request) := by
  have hauthorize := onlyReads_liftExcept (σ := SyncStore) (authorize headers config.syncToken)
  cases request with
  | health => exact (hauthorize.bind fun _ => (onlyReads_query _ _).bind fun _ => onlyReads_pure _).map _
  | changes since => exact (hauthorize.bind fun _ => onlyReads_query _ _).map _
  | push r => exact absurd rfl (h r)
  | waitForChange since =>
    refine (hauthorize.bind fun _ => ?_).map _
    split
    · exact onlyReads_pure _
    · exact (onlyReads_liftExcept _).bind fun _ => onlyReads_get.bind fun _ => onlyReads_pure _

theorem exec_handle (h : exec (handle env headers config request) store = (result, store')) :
    store' = store ∨ (∃ r, request = .push r) ∧ authorize headers config.syncToken = .ok () ∧
      ∃ reply, result = .ok reply := by
  by_cases hpush : ∃ r, request = .push r
  swap
  · left
    rw [← onlyReads_handle (not_exists.1 hpush) store, h]
  obtain ⟨r, rfl⟩ := hpush
  cases hauthorize : authorize headers config.syncToken with
  | error e =>
    rw [exec_handle_of_error hauthorize] at h
    exact .inl (Prod.mk.inj h).2.symm
  | ok u =>
    rw [handle, exec_map, exec_push hauthorize] at h
    obtain ⟨rfl, rfl⟩ := Prod.mk.inj h
    rcases hexec : (SyncStore.push env.push r).exec store with ⟨e | response, store'⟩
    · exact .inl (exec_push_error hexec)
    · exact .inr ⟨⟨r, rfl⟩, rfl, _, rfl⟩

end SyncApi

/-! ### What a request changes -/

/-- The parts of the state. -/
inductive Part
  | store
  | config
  | exports
  | restart
deriving DecidableEq

/-- What the handler of a request may write. -/
def Request.writes : Request τ → Option Part
  | .sync (.push _) => some .store
  | .sync _ => none
  | .admin request => match request with
    | .bootstrap _ | .updateSettings _ | .resetSyncToken | .changePassword _ => some .config
    | .restartService => some .restart
    | .createBackup => some .exports
    | .restoreBackup _ => some .store
    | _ => none

/-- Nothing else has changed. -/
structure Server.SameBut (part : Option Part) (s s' : Server) : Prop where
  store : part ≠ some .store → s'.store = s.store
  config : part ≠ some .config → s'.admin = s.admin
  exports : part ≠ some .exports → s'.exports = s.exports
  restart : part ≠ some .restart → s'.restartRequested = s.restartRequested

/-- If it is an error, it is one of the server. -/
def NotRefused {α : Type} (result : Except ApiError α) : Prop := ∀ e, result = .error e → 500 ≤ e.status

theorem NotRefused.map {α β : Type} {x : Except ApiError α} (h : NotRefused x) (f : α → β) : NotRefused (f <$> x) := by
  cases x with
  | error e => rintro _ ⟨⟩; exact h e rfl
  | ok a => nofun

theorem notRefused_ok {α : Type} {a : α} : NotRefused (.ok a) := nofun

namespace AdminApi

variable {request : AdminRequest} {result : Except ApiError (AdminReply τ ζ)} {config : ServerConfig} {u : Unit}

omit [Chrono τ] in
theorem requireAdmin_eq_ok : requireAdmin lib env headers config = .ok u ↔
    (∃ claims, requireSession lib.toCrates env.now headers config = .ok claims) ∧ requireSameOrigin headers = .ok u := by
  simp [requireAdmin, bind_eq_ok]

omit [Chrono τ] in
theorem of_checkBootstrap {crates : Crates} {password salt passwordHash : String}
    (h : checkBootstrap crates headers password salt config = .ok passwordHash) :
    requireSameOrigin headers = .ok () ∧ bootstrapRequired config = true := by
  simp only [checkBootstrap, bind_eq_ok, ensure_eq_ok] at h
  obtain ⟨u, horigin, u', hrequired, -⟩ := h
  exact ⟨horigin, hrequired⟩

omit [Chrono τ] in
theorem requireAdmin_of_checkPasswordChange {request : PasswordChangeRequest} {salt passwordHash : String}
    (h : checkPasswordChange lib.toCrates env.now headers request salt config = .ok passwordHash) :
    requireAdmin lib env headers config = .ok () := by
  simp only [checkPasswordChange, bind_eq_ok] at h
  obtain ⟨claims, hsession, u, horigin, -⟩ := h
  exact requireAdmin_eq_ok.2 ⟨⟨claims, hsession⟩, horigin⟩

/-! After the checks, what goes wrong goes wrong in the server. -/

theorem notRefused_issueSessionResponse {crates : Crates} {sessionId : String} {now : Instant} :
    NotRefused (issueSessionResponse crates sessionId now config) := by
  intro e h
  unfold issueSessionResponse at h
  dsimp only at h
  cases hsign : signSessionCookie crates config.adminSessionSecret (newClaims crates sessionId now config) with
  | error error =>
    rw [hsign] at h
    obtain rfl := Except.error.inj h
    exact le_rfl
  | ok cookieValue =>
    rw [hsign] at h
    cases h

theorem notRefused_updateConfig {fails : FileEnv} {patch : ConfigPatch} {a : AdminState} :
    NotRefused (exec (updateConfig fails patch) a).1 := by
  intro e h
  unfold updateConfig at h
  rw [exec_bind, exec_get] at h
  dsimp only at h
  split at h
  · cases h
  · rw [exec_bind] at h
    obtain rfl := Except.error.inj h
    exact le_rfl

theorem notRefused_backupToExport {fileName : String} {backup : BackupEnv} {b : BackupState} :
    NotRefused (exec (backupToExport backup fileName) b).1 := by
  intro e h
  unfold backupToExport at h
  rw [exec_bind, exec_get] at h
  dsimp only at h
  split at h
  · cases h
  · rw [exec_bind] at h
    obtain rfl := Except.error.inj h
    exact le_rfl

theorem notRefused_restoreFile {restore : RestoreEnv τ} {file : Option SourceFile} {store : SyncStore} :
    NotRefused (exec (restoreFile restore file) store).1 := by
  intro e h
  unfold restoreFile at h
  rw [exec_bind, exec_get] at h
  dsimp only at h
  split at h
  · cases h
  · rw [exec_bind] at h
    obtain rfl := Except.error.inj h
    exact le_rfl

/-! The handlers that write. -/

omit [Chrono τ] in
theorem exec_updating_cases {α : Type} {check : Except ApiError ConfigPatch}
    {finish : RuntimeConfigSnapshot → Except ApiError α} {result : Except ApiError α}
    (hfinish : ∀ snapshot, NotRefused (finish snapshot)) (h : exec (updating env check finish) s = (result, s')) :
    s' = s ∨ (∃ patch, check = .ok patch) ∧ s' = s.withAdmin s'.admin ∧ NotRefused result := by
  rcases exec_liftExcept_bind h with rfl | ⟨patch, hcheck, h⟩
  · exact .inl rfl
  refine .inr ⟨⟨patch, hcheck⟩, ?_⟩
  have hupdate : NotRefused (exec (updateConfig env.configFile patch) s.admin).1 := notRefused_updateConfig
  rw [exec_bind, exec_zoom] at h
  rcases hexec : exec (updateConfig env.configFile patch) s.admin with ⟨e | snapshot, admin⟩ <;> rw [hexec] at h hupdate
  · obtain ⟨rfl, rfl⟩ := Prod.mk.inj h
    refine ⟨rfl, ?_⟩
    rintro _ ⟨⟩
    exact hupdate e rfl
  · dsimp only at h
    rw [exec_liftExcept] at h
    obtain ⟨rfl, rfl⟩ := Prod.mk.inj h
    exact ⟨rfl, hfinish snapshot⟩

omit [Chrono τ] in
theorem exec_restartService {result : Except ApiError Bool}
    (h : exec (restartService lib env headers config) s = (result, s')) :
    s' = s ∨ requireAdmin lib env headers config = .ok () ∧ s' = { s with restartRequested := true } ∧
      NotRefused result := by
  rcases exec_liftExcept_bind h with rfl | ⟨u, hadmin, h⟩
  · exact .inl rfl
  obtain ⟨rfl, rfl⟩ := Prod.mk.inj h
  exact .inr ⟨hadmin, rfl, nofun⟩

omit [Chrono τ] in
theorem exec_createBackup {result : Except ApiError BackupResponse}
    (h : exec (createBackup lib env headers config) s = (result, s')) :
    s' = s ∨ requireAdmin lib env headers config = .ok () ∧ s' = { s with exports := s'.exports } ∧
      NotRefused result := by
  rcases exec_liftExcept_bind h with rfl | ⟨u, hadmin, h⟩
  · exact .inl rfl
  rcases exec_liftExcept_bind h with rfl | ⟨u, -, h⟩
  · exact .inl rfl
  rw [bind_pure_comp, exec_map, exec_zoom] at h
  obtain ⟨rfl, rfl⟩ := Prod.mk.inj h
  refine .inr ⟨hadmin, ?_, notRefused_backupToExport.map _⟩
  have hstore : (exec (backupToExport env.backupEnv (backupFileName env.clock)) ⟨s.store, s.exports.contents⟩).2.store =
      s.store := by
    rcases hbackup : exec (backupToExport env.backupEnv (backupFileName env.clock)) ⟨s.store, s.exports.contents⟩
      with ⟨e | u, backup⟩
    · exact (exec_backupToExport_error hbackup).1
    · obtain ⟨-, -, rfl⟩ := exec_backupToExport_ok.1 hbackup
      rfl
  rw [hstore]

theorem exec_restoreBackup {fileName : String} {result : Except ApiError RestoreBackupResponse}
    (h : exec (restoreBackup lib env headers config fileName) s = (result, s')) :
    s' = s ∨ requireAdmin lib env headers config = .ok () ∧ s' = s.withStore s'.store ∧ NotRefused result := by
  rw [restoreBackup, exec_bind, exec_get] at h
  dsimp only at h
  rw [exec_zoom] at h
  obtain ⟨rfl, rfl⟩ := Prod.mk.inj h
  rcases hexec : exec (FloralSync.restoreBackup lib.toCrates env.restore env.now headers config s.exports fileName)
    s.store with ⟨result, store⟩
  rcases exec_liftExcept_bind hexec with rfl | ⟨claims, hsession, hexec⟩
  · exact .inl rfl
  rcases exec_liftExcept_bind hexec with rfl | ⟨u, horigin, hexec⟩
  · exact .inl rfl
  rcases exec_liftExcept_bind hexec with rfl | ⟨path, -, hexec⟩
  · exact .inl rfl
  rw [bind_pure_comp, exec_map] at hexec
  obtain ⟨rfl, rfl⟩ := Prod.mk.inj hexec
  exact .inr ⟨requireAdmin_eq_ok.2 ⟨⟨claims, hsession⟩, horigin⟩, rfl, notRefused_restoreFile.map _⟩

theorem exec_handle (h : exec (handle lib env headers captured request) s = (result, s')) :
    s' = s ∨ (Request.admin request : Request τ).Permitted lib env headers captured.effective ∧
      s.SameBut (Request.admin request : Request τ).writes s' ∧ NotRefused result := by
  have hread : ∀ {f : Server → Except ApiError (AdminReply τ ζ)}, exec (reading f) s = (result, s') → s' = s := by
    intro f hf
    rw [exec_reading] at hf
    exact (Prod.mk.inj hf).2.symm
  have hconfig : s' = s.withAdmin s'.admin → s.SameBut (some .config) s' := by
    intro heq
    rw [heq]
    exact ⟨fun _ => rfl, fun h => absurd rfl h, fun _ => rfl, fun _ => rfl⟩
  cases request with
  | bootstrap password =>
    rcases exec_updating_cases (fun _ => notRefused_issueSessionResponse.map _) h with heq | ⟨⟨patch, hcheck⟩, heq, hres⟩
    · exact .inl heq
    · obtain ⟨passwordHash, hcheck, -⟩ := map_eq_ok.1 hcheck
      exact .inr ⟨of_checkBootstrap hcheck, hconfig heq, hres⟩
  | changePassword request =>
    rcases exec_updating_cases (fun _ => notRefused_issueSessionResponse.map _) h with heq | ⟨⟨patch, hcheck⟩, heq, hres⟩
    · exact .inl heq
    · obtain ⟨passwordHash, hcheck, -⟩ := map_eq_ok.1 hcheck
      exact .inr ⟨requireAdmin_of_checkPasswordChange hcheck, hconfig heq, hres⟩
  | updateSettings request =>
    rcases exec_updating_cases (fun _ => notRefused_ok) h with heq | ⟨⟨patch, hcheck⟩, heq, hres⟩
    · exact .inl heq
    · obtain ⟨u, hadmin, -⟩ := bind_eq_ok.1 hcheck
      exact .inr ⟨hadmin, hconfig heq, hres⟩
  | resetSyncToken =>
    rcases exec_updating_cases (fun _ => notRefused_ok) h with heq | ⟨⟨patch, hcheck⟩, heq, hres⟩
    · exact .inl heq
    · obtain ⟨u, hadmin, -⟩ := bind_eq_ok.1 hcheck
      exact .inr ⟨hadmin, hconfig heq, hres⟩
  | restartService =>
    rw [handle, exec_map] at h
    rcases hexec : exec (restartService lib env headers captured.effective) s with ⟨response, s''⟩
    rw [hexec] at h
    obtain ⟨rfl, rfl⟩ := Prod.mk.inj h
    rcases exec_restartService hexec with heq | ⟨hadmin, heq, hres⟩
    · exact .inl heq
    · refine .inr ⟨hadmin, ?_, hres.map _⟩
      rw [heq]
      exact ⟨fun _ => rfl, fun _ => rfl, fun _ => rfl, fun h => absurd rfl h⟩
  | createBackup =>
    rw [handle, exec_map] at h
    rcases hexec : exec (createBackup lib env headers captured.effective) s with ⟨response, s''⟩
    rw [hexec] at h
    obtain ⟨rfl, rfl⟩ := Prod.mk.inj h
    rcases exec_createBackup hexec with heq | ⟨hadmin, heq, hres⟩
    · exact .inl heq
    · refine .inr ⟨hadmin, ?_, hres.map _⟩
      rw [heq]
      exact ⟨fun _ => rfl, fun _ => rfl, fun h => absurd rfl h, fun _ => rfl⟩
  | restoreBackup fileName =>
    rw [handle, exec_map] at h
    rcases hexec : exec (restoreBackup lib env headers captured.effective fileName) s with ⟨response, s''⟩
    rw [hexec] at h
    obtain ⟨rfl, rfl⟩ := Prod.mk.inj h
    rcases exec_restoreBackup hexec with heq | ⟨hadmin, heq, hres⟩
    · exact .inl heq
    · refine .inr ⟨hadmin, ?_, hres.map _⟩
      rw [heq]
      exact ⟨fun h => absurd rfl h, fun _ => rfl, fun _ => rfl, fun _ => rfl⟩
  | _ => exact .inl (hread h)

end AdminApi

namespace Request

theorem exec_handle (h : exec (request.handle lib env headers captured) s = (result, s')) :
    s' = s ∨ request.Permitted lib env headers captured.effective ∧ s.SameBut request.writes s' ∧
      ∀ e, result = .error e → 500 ≤ e.status := by
  cases request with
  | sync request =>
    rw [handle, exec_map, exec_adapt, exec_zoom] at h
    rcases hexec : exec (SyncApi.handle env headers captured.effective request) s.store with ⟨reply, store⟩
    rw [hexec] at h
    obtain ⟨rfl, rfl⟩ := Prod.mk.inj h
    rcases SyncApi.exec_handle hexec with rfl | ⟨⟨r, rfl⟩, hauthorize, reply, rfl⟩
    · exact .inl rfl
    · exact .inr ⟨hauthorize, ⟨fun h => absurd rfl h, fun _ => rfl, fun _ => rfl, fun _ => rfl⟩, nofun⟩
  | admin request =>
    rw [handle, exec_map, exec_adapt] at h
    rcases hexec : exec (AdminApi.handle lib env headers captured request) s with ⟨reply, s''⟩
    rw [hexec] at h
    obtain ⟨rfl, rfl⟩ := Prod.mk.inj h
    rcases AdminApi.exec_handle hexec with heq | ⟨hpermitted, hsame, hrefused⟩
    · exact .inl heq
    · refine .inr ⟨hpermitted, hsame, ?_⟩
      rcases reply with e | reply
      · rintro _ ⟨⟩
        exact hrefused e rfl
      · nofun

omit [Chrono τ] in
theorem isPost_of_writes {part : Part} (h : request.writes = some part) : request.isPost = true := by
  rcases request with request | request <;> cases request <;> first | rfl | cases h

end Request

theorem Server.SameBut.eq (h : s.SameBut none s') : s' = s := by
  obtain ⟨hstore, hconfig, hexports, hrestart⟩ := h
  have hadmin := AdminState.mk.inj (hconfig nofun)
  cases s
  cases s'
  simp_all

end Requests
end FloralSync

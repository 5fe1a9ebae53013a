import FloralSync.Server.Access

/-!
# Requests at the same time

A request captures the config when it arrives, and its handler runs later, while others come and go. Whatever
changes is accounted for by a request that was allowed to (`changes_accounted`), and what is told to those who have
neither a session nor the token depends on the config alone (`seen_of_config`).
-/

namespace FloralSync

open Rust Except Stateful Trace

variable {τ ω ζ : Type} [Chrono τ]

namespace AdminApi

section NoSession

variable {lib : Libraries ω ζ} {env : RequestEnv τ} {headers : HeaderMap} {captured : RuntimeConfigState}
  {s s' : Server} {request : AdminRequest} {config : ServerConfig} {e : ApiError}

/-- The routes without `require_session`. -/
def isPublic : AdminRequest → Bool
  | .login _ | .logout | .bootstrap _ | .sessionStatus => true
  | _ => false

theorem requireSession_eq_error {crates : Crates} {now : Instant}
    (h : requireSession crates now headers config = .error e) : e = .unauthorized := by
  unfold requireSession okOr at h
  split at h
  · cases h
  · exact (Except.error.inj h).symm

theorem exec_handle_of_no_session (h : requireSession lib.toCrates env.now headers captured.effective = .error e)
    (hprivate : isPublic request = false) :
    exec (handle lib env headers captured request) s = (.error .unauthorized, s) := by
  obtain rfl := requireSession_eq_error h
  have hadmin : requireAdmin lib env headers captured.effective = .error .unauthorized := by
    rw [requireAdmin, h]
    rfl
  cases request with
  | login password => cases hprivate
  | logout => cases hprivate
  | bootstrap password => cases hprivate
  | sessionStatus => cases hprivate
  | updateSettings request => rw [handle, exec_updating, hadmin]; rfl
  | resetSyncToken => rw [handle, exec_updating, hadmin]; rfl
  | changePassword request =>
    rw [handle, exec_updating, checkPasswordChange, h]
    rfl
  | restartService => rw [handle, exec_map, restartService, exec_bind, exec_liftExcept, hadmin]; rfl
  | createBackup => rw [handle, exec_map, createBackup, exec_bind, exec_liftExcept, hadmin]; rfl
  | restoreBackup fileName =>
    rw [handle, exec_map, restoreBackup, exec_bind, exec_get]
    dsimp only
    rw [exec_zoom, FloralSync.restoreBackup, exec_bind, exec_liftExcept, h]
    rfl
  | overview => rw [handle, exec_reading, overview, h]; rfl
  | notes query => rw [handle, exec_reading, notes, h]; rfl
  | notesArchiveDownload query => rw [handle, exec_reading, notesArchiveDownload, h]; rfl
  | noteHistory noteId => rw [handle, exec_reading, noteHistory, h]; rfl
  | noteDownload noteId => rw [handle, exec_reading, noteDownload, h]; rfl
  | noteDetail noteId => rw [handle, exec_reading, noteDetail, h]; rfl
  | settings =>
    rw [handle, exec_reading]
    dsimp only
    rw [show (snapshotFromState captured).effective = captured.effective from rfl, h]
    rfl
  | listBackups => rw [handle, exec_reading, listBackups, h]; rfl
  | readLogs limit => rw [handle, exec_reading, readLogs, h]; rfl

end NoSession

omit [Chrono τ] in
theorem exec_updating_congr {env : RequestEnv τ} {s s₁ : Server} {α : Type} (h : s₁.admin = s.admin)
    (check : Except ApiError ConfigPatch) (finish : RuntimeConfigSnapshot → Except ApiError α) :
    (exec (updating env check finish) s₁).1 = (exec (updating env check finish) s).1 ∧
      (exec (updating env check finish) s₁).2.admin = (exec (updating env check finish) s).2.admin := by
  rw [exec_updating, exec_updating, h]
  cases check with
  | error e => exact ⟨rfl, h⟩
  | ok patch =>
    dsimp only
    rcases exec (updateConfig env.configFile patch) s.admin with ⟨e | snapshot, admin⟩ <;> exact ⟨rfl, rfl⟩

end AdminApi

section Outside

variable {lib : Libraries ω ζ} {env : RequestEnv τ} {headers : HeaderMap} {captured : RuntimeConfigState}
  {s s₁ : Server} {request : Request τ}

/-- What becomes of the config depends on nothing but the config. -/
theorem exec_handle_admin (h : s₁.admin = s.admin) :
    (exec (request.handle lib env headers captured) s₁).2.admin =
      (exec (request.handle lib env headers captured) s).2.admin := by
  have hsame : ∀ {s : Server}, request.writes ≠ some .config →
      (exec (request.handle lib env headers captured) s).2.admin = s.admin := by
    intro s hwrites
    rcases Request.exec_handle (Prod.mk.eta (p := exec (request.handle lib env headers captured) s)).symm with
      heq | ⟨-, hbut, -⟩
    · rw [heq]
    · exact hbut.config hwrites
  by_cases hwrites : request.writes = some .config
  · rcases request with request | request
    · cases request <;> cases hwrites
    · rw [Request.handle, exec_map, exec_map, exec_adapt, exec_adapt]
      cases request <;> first | exact (AdminApi.exec_updating_congr h _ _).2 | cases hwrites
  · rw [hsame hwrites, hsame hwrites, h]

/-- Without a session or the token a request is told the same whatever the server has but its config. -/
theorem exec_handle_outside (h : s₁.admin = s.admin)
    (houtside : request.enters lib env headers captured.effective = false) :
    (exec (request.handle lib env headers captured) s₁).1 = (exec (request.handle lib env headers captured) s).1 := by
  cases request with
  | sync request =>
    rw [Request.handle, exec_map, exec_map, exec_adapt, exec_adapt, exec_zoom, exec_zoom]
    cases hauthorize : SyncApi.authorize headers captured.effective.syncToken with
    | ok u =>
      rw [Request.enters, hauthorize] at houtside
      cases houtside
    | error e => rw [SyncApi.exec_handle_of_error hauthorize, SyncApi.exec_handle_of_error hauthorize]
  | admin request =>
    rw [Request.handle, exec_map, exec_map, exec_adapt, exec_adapt]
    cases hsession : requireSession lib.toCrates env.now headers captured.effective with
    | ok claims =>
      rw [Request.enters, hsession] at houtside
      cases houtside
    | error e =>
      by_cases hpublic : AdminApi.isPublic request = false
      · rw [AdminApi.exec_handle_of_no_session hsession hpublic, AdminApi.exec_handle_of_no_session hsession hpublic]
      cases request with
      | bootstrap password =>
        dsimp only
        rw [AdminApi.handle, (AdminApi.exec_updating_congr h _ _).1]
      | login password => rw [AdminApi.handle, exec_reading, exec_reading]
      | logout => rw [AdminApi.handle, exec_reading, exec_reading]
      | sessionStatus => rw [AdminApi.handle, exec_reading, exec_reading]
      | _ => exact absurd rfl hpublic

end Outside

/-! ### Many requests -/

/-- A request that has arrived: the config that it has read. -/
structure Flight (τ : Type) where
  request : Request τ
  headers : HeaderMap
  captured : RuntimeConfigState

structure ServerSystem (τ : Type) where
  server : Server
  flights : List (Flight τ)

namespace ServerSystem

inductive Label (τ ζ : Type)
  | arrive (flight : Flight τ)
  | reply (flight : Flight τ) (env : RequestEnv τ) (result : Except Refusal (Reply τ ζ))
  | giveUp (flight : Flight τ)
  | files (file : ConfigFile) (exports : ExportDir)

/-- A handler runs at once. A request may be given up before that, as its client goes away, and others may change
the files. -/
inductive Step (lib : Libraries ω ζ) : ServerSystem τ → Label τ ζ → ServerSystem τ → Prop
  | arrive {request headers s} : Step lib s (.arrive ⟨request, headers, s.server.runtime⟩)
      { s with flights := ⟨request, headers, s.server.runtime⟩ :: s.flights }
  | reply {before after flight env result server s} (hflights : s.flights = before ++ flight :: after)
      (h : exec (flight.request.handle lib env flight.headers flight.captured) s.server = (result, server)) :
      Step lib s (.reply flight env result) ⟨server, before ++ after⟩
  | giveUp {before after flight s} (hflights : s.flights = before ++ flight :: after) :
      Step lib s (.giveUp flight) { s with flights := before ++ after }
  | files {file exports s} : Step lib s (.files file exports) { s with server := { s.server with file, exports } }

/-- The step changes nothing of the server, or it is the reply to a `POST` request that arrived earlier and had what
it must show by the config of that time. Then it changes only what such requests change, and is no refusal. -/
inductive Accounted (lib : Libraries ω ζ) (trace : List (ServerSystem τ × Label τ ζ)) (s s' : Server) :
    Label τ ζ → Prop
  | unchanged {label} (h : s' = s) : Accounted lib trace s s' label
  | files {file exports} (h : s.SameBut none { s' with file := s.file, exports := s.exports }) :
      Accounted lib trace s s' (.files file exports)
  | reply {flight env result x} (hpost : flight.request.isPost = true) (hx : x ∈ trace)
      (harrived : x.2 = .arrive flight) (hcaptured : flight.captured = x.1.server.runtime)
      (hpermitted : flight.request.Permitted lib env flight.headers x.1.server.runtime.effective)
      (hsame : s.SameBut flight.request.writes s') (hstatus : ∀ e, result = .error e → 500 ≤ e.status) :
      Accounted lib trace s s' (.reply flight env result)

section Runs

variable {lib : Libraries ω ζ} {s s' s₀ : ServerSystem τ} {label : Label τ ζ}
  {trace : List (ServerSystem τ × Label τ ζ)}

theorem arrived (h : Run (Step lib) s₀ trace s) (h₀ : s₀.flights = []) {flight : Flight τ}
    (hflight : flight ∈ s.flights) : ∃ x ∈ trace, x.2 = .arrive flight ∧ flight.captured = x.1.server.runtime := by
  induction h with
  | start =>
    rw [h₀] at hflight
    cases hflight
  | @step trace s label s' _ hs ih =>
    have hold : flight ∈ s.flights → ∃ x ∈ (s, label) :: trace, x.2 = .arrive flight ∧
        flight.captured = x.1.server.runtime := by
      intro hmem
      obtain ⟨x, hx, heq⟩ := ih hmem
      exact ⟨x, List.mem_cons_of_mem _ hx, heq⟩
    cases hs with
    | arrive =>
      rcases List.mem_cons.1 hflight with rfl | hmem
      · exact ⟨_, List.mem_cons_self, rfl, rfl⟩
      · exact hold hmem
    | reply hflights _ | giveUp hflights =>
      refine hold ?_
      rw [hflights]
      rcases List.mem_append.1 hflight with hmem | hmem
      · exact List.mem_append_left _ hmem
      · exact List.mem_append_right _ (List.mem_cons_of_mem _ hmem)
    | files => exact hold hflight

theorem changes_accounted (h : Run (Step lib) s₀ trace s) (h₀ : s₀.flights = []) (hs : Step lib s label s') :
    Accounted lib trace s.server s'.server label := by
  cases hs with
  | arrive => exact .unchanged rfl
  | giveUp => exact .unchanged rfl
  | files => exact .files ⟨fun _ => rfl, fun _ => rfl, fun _ => rfl, fun _ => rfl⟩
  | @reply before after flight env result server _ hflights hexec =>
    have hmem : flight ∈ s.flights := by rw [hflights]; exact List.mem_append_right _ List.mem_cons_self
    obtain ⟨x, hx, harrived, hcaptured⟩ := arrived h h₀ hmem
    rcases Request.exec_handle hexec with heq | ⟨hpermitted, hsame, hstatus⟩
    · exact .unchanged heq
    cases hwrites : flight.request.writes with
    | none => exact .unchanged (Server.SameBut.eq (hwrites ▸ hsame))
    | some part =>
      exact .reply (Request.isPost_of_writes hwrites) hx harrived hcaptured (hcaptured ▸ hpermitted) hsame hstatus

/-- A step without what is replied in it. -/
inductive Event (τ : Type)
  | arrive (flight : Flight τ)
  | handle (flight : Flight τ) (env : RequestEnv τ)
  | giveUp (flight : Flight τ)
  | files (file : ConfigFile) (exports : ExportDir)

def Label.event : Label τ ζ → Event τ
  | .arrive flight => .arrive flight
  | .reply flight env _ => .handle flight env
  | .giveUp flight => .giveUp flight
  | .files file exports => .files file exports

/-- What those see who have neither a session nor the token: their own requests, with the replies. -/
def Label.seen (lib : Libraries ω ζ) : Label τ ζ → Option (Flight τ × Except Refusal (Reply τ ζ))
  | .reply flight env result =>
    if flight.request.enters lib env flight.headers flight.captured.effective then none else some (flight, result)
  | _ => none

/-- The systems have the same config and the same requests, but not the same notes. -/
structure SameConfig (s t : ServerSystem τ) : Prop where
  admin : t.server.admin = s.server.admin
  flights : t.flights = s.flights

theorem SameConfig.step {t : ServerSystem τ} (h : s.SameConfig t) (hs : Step lib s label s') :
    ∃ label' t', Step lib t label' t' ∧ (label'.event, label'.seen lib) = (label.event, label.seen lib) ∧
      s'.SameConfig t' := by
  obtain ⟨hruntime, -⟩ := AdminState.mk.inj h.admin
  cases hs with
  | @arrive request headers _ =>
    have ht : Step lib t (.arrive ⟨request, headers, t.server.runtime⟩)
        { t with flights := ⟨request, headers, t.server.runtime⟩ :: t.flights } := .arrive
    rw [hruntime, h.flights] at ht
    exact ⟨_, _, ht, rfl, h.admin, rfl⟩
  | giveUp hs => exact ⟨_, _, .giveUp (h.flights.trans hs), rfl, h.admin, rfl⟩
  | @files file exports _ =>
    have ht : Step lib t (.files file exports) { t with server := { t.server with file, exports } } := .files
    exact ⟨_, _, ht, rfl, congrArg (AdminState.mk · file) hruntime, h.flights⟩
  | @reply before after flight env result server _ hs hexec =>
    rcases ht : exec (flight.request.handle lib env flight.headers flight.captured) t.server with ⟨result', server'⟩
    refine ⟨_, _, .reply (h.flights.trans hs) ht, congrArg (Prod.mk _) ?_, ?_, rfl⟩
    · dsimp only [Label.seen]
      split_ifs with henters
      · rfl
      · have hresult := exec_handle_outside (ζ := ζ) h.admin (Bool.eq_false_iff.2 henters)
        rw [ht, hexec] at hresult
        rw [show result' = result from hresult]
    · have hadmin : (exec (flight.request.handle lib env flight.headers flight.captured) t.server).2.admin =
          (exec (flight.request.handle lib env flight.headers flight.captured) s.server).2.admin :=
        exec_handle_admin h.admin
      rwa [ht, hexec] at hadmin

end Runs

open Rfc3339 (Civil)

def sampleLibraries : Libraries Unit Unit where
  toCrates := sampleCrates
  zip := ⟨(), fun _ _ => .ok (), fun _ _ => some (), fun _ => .ok ()⟩
  valid _ := true

def sampleEnv : RequestEnv Civil where
  now := sampleClaims.issuedAt
  issuedAt := sampleClaims.issuedAt
  clock := Sample.nine
  sessionId := sampleClaims.sessionId
  syncToken := "t"
  salt := "c29tZXNhbHRzb21lc2FsdA"
  configFile := .calm
  query := none
  push := Sample.pushEnv
  wait := ⟨0, none⟩
  restore := Sample.restoreEnv Sample.nine
  createDirAll := true
  backup := none
  created := false
  len := 0
  list := ⟨true, true, fun _ => true⟩
  log := .notFound

/-- A new server, with the given store. -/
def serverWith (store : SyncStore) : Server :=
  ⟨store, .new firstConfig, .missing, ⟨[], List.nodup_nil, nofun⟩, false⟩

def pushFlight : Flight Civil :=
  ⟨.sync (.push Sample.oneNote), [("authorization", SyncApi.bearer "t")], .new firstConfig⟩

theorem exec_handle_push {lib : Libraries ω ζ} {env : RequestEnv τ} {headers : HeaderMap}
    {captured : RuntimeConfigState} {server : Server} {r : PushRequest τ} {response : PushResponse} {store : SyncStore}
    (hauthorize : SyncApi.authorize headers captured.effective.syncToken = .ok ())
    (hpush : (SyncStore.push env.push r).exec server.store = (.ok response, store)) :
    exec ((Request.sync (.push r)).handle lib env headers captured) server =
      (.ok (.sync (.push response)), server.withStore store) := by
  rw [Request.handle, exec_map, exec_adapt, exec_zoom, SyncApi.handle, exec_map, SyncApi.exec_push hauthorize, hpush]
  rfl

theorem exec_pushFlight : exec (pushFlight.request.handle sampleLibraries sampleEnv pushFlight.headers
    pushFlight.captured) (serverWith .created) = (.ok (.sync (.push ⟨1⟩)), serverWith Sample.oneNoteStore) :=
  exec_handle_push (show SyncApi.authorize pushFlight.headers firstConfig.syncToken = .ok () by decide +kernel)
    (Prod.ext (by decide +kernel) rfl)

theorem pushed_accounted : ∃ (trace : List (ServerSystem Civil × Label Civil Unit)) (s s' : ServerSystem Civil)
    (label : Label Civil Unit), Run (Step sampleLibraries) ⟨serverWith .created, []⟩ trace s ∧
    Step sampleLibraries s label s' ∧ s'.server.store ≠ s.server.store ∧
    Accounted sampleLibraries trace s.server s'.server label := by
  have harrive : Step sampleLibraries (ζ := Unit) ⟨serverWith .created, []⟩ (.arrive pushFlight)
      ⟨serverWith .created, [pushFlight]⟩ := .arrive
  have hrun := Run.start.step harrive
  have hreply : Step sampleLibraries ⟨serverWith .created, [pushFlight]⟩ (.reply pushFlight sampleEnv _)
      ⟨serverWith Sample.oneNoteStore, []⟩ := .reply (show _ = [] ++ _ from rfl) exec_pushFlight
  refine ⟨_, _, _, _, hrun, hreply, ?_, changes_accounted hrun rfl hreply⟩
  intro h
  have hrev : SyncStore.created.revisionEvents = Sample.oneNoteStore.revisionEvents := congrArg _ h.symm
  exact absurd hrev (by decide +kernel)

end ServerSystem
end FloralSync

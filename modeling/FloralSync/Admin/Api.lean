import FloralSync.Admin.Headers
import FloralSync.Admin.Session

/-!
# The admin API (`admin_api.rs`)

The handlers about sessions and settings. What a handler checks before it touches the config is a function
of its own, since other requests may come between the check and the update. The admin API is part of the
server only with the feature `admin`.
-/

namespace FloralSync

open Except Stateful

/-- The part of `AdminAppState` that the handlers here use, with what the config path names. -/
structure AdminState where
  runtime : RuntimeConfigState
  file : ConfigFile

abbrev ApiM := ExceptT ApiError (StateM AdminState)

/-- `AdminAppState::update_config` -/
def updateConfig (env : FileEnv) (patch : ConfigPatch) : ApiM RuntimeConfigSnapshot := do
  let s ← get
  match exec (applyPatch true env patch s.runtime) s.file with
  | (.ok runtime, file) =>
    set { s with runtime, file }
    return snapshotFromState runtime
  | (.error e, file) =>
    set { s with file }
    throw (.config e)

structure SessionResponse where
  authenticated : Bool
  bootstrapRequired : Bool
  passwordConfigured : Bool
  expiresAt : Option Instant
deriving DecidableEq

/-- A response with a `Set-Cookie` header. -/
structure SessionReply where
  body : SessionResponse
  setCookie : String
deriving DecidableEq

def passwordVersion (crates : Crates) (config : ServerConfig) : Nat :=
  match config.adminPasswordHash with
  | none => 0
  | some hash => crates.hash hash

def sessionClaims (crates : Crates) (now : Instant) (headers : HeaderMap) (config : ServerConfig) :
    Option AdminSessionClaims := do
  let cookieValue ← readCookie headers adminSessionCookieName
  (verifySessionCookie crates config.adminSessionSecret cookieValue now (passwordVersion crates config)).toOption

def requireSession (crates : Crates) (now : Instant) (headers : HeaderMap) (config : ServerConfig) :
    Except ApiError AdminSessionClaims :=
  okOr (sessionClaims crates now headers config) .unauthorized

/-- `SessionError: Display` -/
def SessionError.toString : SessionError → String
  | .emptySecret => "admin session secret must not be empty"
  | .malformedCookie => "session cookie is malformed"
  | .invalidSignature => "session cookie signature is invalid"
  | .expired => "session has expired"
  | .passwordVersionMismatch => "session password version does not match the current password"
  | .serialize message => "session payload could not be serialized: " ++ message

/-- The claims of a session that starts now, under an id from `generate_token`. -/
def newClaims (crates : Crates) (sessionId : String) (now : Instant) (config : ServerConfig) : AdminSessionClaims where
  sessionId := sessionId
  issuedAt := now
  passwordVersion := passwordVersion crates config

def issueSessionResponse (crates : Crates) (sessionId : String) (now : Instant) (config : ServerConfig) :
    Except ApiError SessionReply := do
  let claims := newClaims crates sessionId now config
  let cookieValue ← (signSessionCookie crates config.adminSessionSecret claims).mapError fun error =>
    .internal error.toString
  return { body := { authenticated := true, bootstrapRequired := false, passwordConfigured := true,
                     expiresAt := some claims.expiresAt }
           setCookie := sessionCookie cookieValue }

def currentSessionResponse (config : ServerConfig) (claims : Option AdminSessionClaims) : SessionResponse where
  authenticated := claims.isSome
  bootstrapRequired := bootstrapRequired config
  passwordConfigured := config.adminPasswordHash.isSome
  expiresAt := claims.map AdminSessionClaims.expiresAt

def sessionStatus (crates : Crates) (now : Instant) (headers : HeaderMap) : ApiM SessionResponse := do
  let config := (← get).runtime.effective
  return currentSessionResponse config (sessionClaims crates now headers config)

def logout (headers : HeaderMap) : ApiM SessionReply := do
  let config := (← get).runtime.effective
  liftExcept (requireSameOrigin headers)
  return { body := { authenticated := false, bootstrapRequired := bootstrapRequired config,
                     passwordConfigured := config.adminPasswordHash.isSome, expiresAt := none }
           setCookie := clearedSessionCookie }

def authError (e : AuthError) : ApiError := .badRequest e.toString

/-- What `login` checks. -/
def checkLogin (crates : Crates) (headers : HeaderMap) (password : String) (config : ServerConfig) :
    Except ApiError Unit := do
  requireSameOrigin headers
  ensure (bootstrapRequired config = false) (.conflict "admin bootstrap must be completed before login")
  let hash ← okOr config.adminPasswordHash (.conflict "admin password is not configured")
  let verified ← (verifyAdminPassword crates hash password).mapError authError
  ensure (verified = true) .unauthorized

def login (crates : Crates) (sessionId : String) (now : Instant) (headers : HeaderMap) (password : String) :
    ApiM SessionReply := do
  let config := (← get).runtime.effective
  liftExcept (checkLogin crates headers password config)
  liftExcept (issueSessionResponse crates sessionId now config)

/-- What `bootstrap` checks, and the hash of the password. -/
def checkBootstrap (crates : Crates) (headers : HeaderMap) (password salt : String) (config : ServerConfig) :
    Except ApiError String := do
  requireSameOrigin headers
  ensure (bootstrapRequired config = true) (.conflict "admin bootstrap has already been completed")
  (hashAdminPassword crates password salt).mapError authError

def passwordPatch (passwordHash : String) : ConfigPatch :=
  { ConfigPatch.default with adminPasswordHash := some passwordHash }

def bootstrap (crates : Crates) (env : FileEnv) (salt sessionId : String) (now : Instant) (headers : HeaderMap)
    (password : String) : ApiM SessionReply := do
  let config := (← get).runtime.effective
  let passwordHash ← liftExcept (checkBootstrap crates headers password salt config)
  let snapshot ← updateConfig env (passwordPatch passwordHash)
  liftExcept (issueSessionResponse crates sessionId now snapshot.effective)

structure PasswordChangeRequest where
  currentPassword : String
  newPassword : String
  confirmPassword : String

/-- What `change_password` checks, and the hash of the new password. -/
def checkPasswordChange (crates : Crates) (now : Instant) (headers : HeaderMap) (request : PasswordChangeRequest)
    (salt : String) (config : ServerConfig) : Except ApiError String := do
  let _ ← requireSession crates now headers config
  requireSameOrigin headers
  ensure (bootstrapRequired config = false)
    (.conflict "admin bootstrap must be completed before changing the password")
  ensure (request.newPassword = request.confirmPassword) (.badRequest "new password confirmation does not match")
  let currentHash ← okOr config.adminPasswordHash (.conflict "admin password is not configured")
  let verified ← (verifyAdminPassword crates currentHash request.currentPassword).mapError authError
  ensure (verified = true) .unauthorized
  (hashAdminPassword crates request.newPassword salt).mapError authError

/-- The clock is read for the session of the request and again for the new one. -/
def changePassword (crates : Crates) (env : FileEnv) (salt sessionId : String) (now issuedAt : Instant)
    (headers : HeaderMap) (request : PasswordChangeRequest) : ApiM SessionReply := do
  let config := (← get).runtime.effective
  let passwordHash ← liftExcept (checkPasswordChange crates now headers request salt config)
  let snapshot ← updateConfig env (passwordPatch passwordHash)
  liftExcept (issueSessionResponse crates sessionId issuedAt snapshot.effective)

structure SettingsResponse where
  syncListen : List String
  adminListen : List String
  dbPath : String
  exportDir : String
  logPath : String
  logLevel : String
  syncToken : String
  syncTokenConfigured : Bool
  adminPasswordConfigured : Bool
  adminSessionSecretConfigured : Bool
  pendingRestartFields : List String
deriving DecidableEq

def settingsResponse (snapshot : RuntimeConfigSnapshot) : SettingsResponse :=
  let config := snapshot.effective
  { syncListen := config.syncListen
    adminListen := config.adminListen
    dbPath := config.dbPath.text
    exportDir := config.exportDir.text
    logPath := config.logPath.text
    logLevel := config.logLevel
    syncToken := config.syncToken
    syncTokenConfigured := trim config.syncToken ≠ ""
    adminPasswordConfigured := config.adminPasswordHash.isSome
    adminSessionSecretConfigured := trim config.adminSessionSecret ≠ ""
    pendingRestartFields := snapshot.pendingRestartFields }

def settings (crates : Crates) (now : Instant) (headers : HeaderMap) : ApiM SettingsResponse := do
  let snapshot := snapshotFromState (← get).runtime
  let _ ← liftExcept (requireSession crates now headers snapshot.effective)
  return settingsResponse snapshot

structure SettingsUpdateRequest where
  syncListen : Option (List String)
  adminListen : Option (List String)
  dbPath : Option String
  exportDir : Option String
  logPath : Option String
  logLevel : Option String

def SettingsUpdateRequest.patch (request : SettingsUpdateRequest) : ConfigPatch where
  listen := request.syncListen
  adminListen := request.adminListen
  dbPath := request.dbPath.map fun text => ⟨text⟩
  exportDir := request.exportDir.map fun text => ⟨text⟩
  logPath := request.logPath.map fun text => ⟨text⟩
  logLevel := request.logLevel
  token := none
  adminPasswordHash := none

structure SettingsUpdateResponse where
  settings : SettingsResponse
  restartRequiredFields : List String
deriving DecidableEq

def updateSettings (crates : Crates) (env : FileEnv) (now : Instant) (headers : HeaderMap)
    (request : SettingsUpdateRequest) : ApiM SettingsUpdateResponse := do
  let config := (← get).runtime.effective
  let _ ← liftExcept (requireSession crates now headers config)
  liftExcept (requireSameOrigin headers)
  let snapshot ← updateConfig env request.patch
  return { settings := settingsResponse snapshot, restartRequiredFields := snapshot.pendingRestartFields }

/-- `reset_sync_token`, with a token from `generate_token`. -/
def resetSyncToken (crates : Crates) (env : FileEnv) (syncToken : String) (now : Instant) (headers : HeaderMap) :
    ApiM String := do
  let config := (← get).runtime.effective
  let _ ← liftExcept (requireSession crates now headers config)
  liftExcept (requireSameOrigin headers)
  let _ ← updateConfig env { ConfigPatch.default with token := some syncToken }
  return syncToken

/-! ### What the handlers do when they succeed -/

section Exec

variable {crates : Crates} {env : FileEnv} {now : Instant} {headers : HeaderMap} {config : ServerConfig}
  {claims : AdminSessionClaims} {patch : ConfigPatch} {snapshot : RuntimeConfigSnapshot} {s s' : AdminState}

theorem exec_updateConfig_ok : exec (updateConfig env patch) s = (.ok snapshot, s') ↔
    exec (applyPatch true env patch s.runtime) s.file = (.ok s'.runtime, s'.file) ∧
      snapshot = snapshotFromState s'.runtime := by
  obtain ⟨runtime', file'⟩ := s'
  unfold updateConfig
  rw [exec_bind, exec_get]
  dsimp only
  rcases exec (applyPatch true env patch s.runtime) s.file with ⟨e | runtime, file⟩
  · simp [exec_bind]
  · simp only [exec_bind, exec_set, exec_pure, Prod.mk.injEq, Except.ok.injEq, AdminState.mk.injEq]
    constructor
    · rintro ⟨rfl, rfl, rfl⟩
      exact ⟨⟨rfl, rfl⟩, rfl⟩
    · rintro ⟨⟨rfl, rfl⟩, rfl⟩
      exact ⟨rfl, rfl, rfl⟩

theorem requireSession_eq_ok : requireSession crates now headers config = .ok claims ↔
    ∃ cookieValue, readCookie headers adminSessionCookieName = some cookieValue ∧
      verifySessionCookie crates config.adminSessionSecret cookieValue now (passwordVersion crates config) =
        .ok claims := by
  have hopt : ∀ x : Except SessionError AdminSessionClaims, x.toOption = some claims ↔ x = .ok claims := by
    intro x
    cases x <;> simp [Except.toOption]
  simp only [requireSession, okOr_eq_ok, sessionClaims, Option.bind_eq_bind, Option.bind_eq_some_iff, hopt]

end Exec

def sampleHash : String :=
  "$argon2id$v=19$m=19456,t=2,p=1$c29tZXNhbHRzb21lc2FsdA$leF08Fu/gOi7XGf5NvDjbfR9GY+siUuPd+cKkq57H/c"

def otherHash : String :=
  "$argon2id$v=19$m=19456,t=2,p=1$bW9yZXNhbHRtb3Jlc2FsdA$DJaGPhZskPLNs9wi6t38QQajKzqfPo5rF180t8lcqF0"

def sampleClaims : AdminSessionClaims where
  sessionId := "7d444840-9dc0-11d1-b245-5ffdce74fad2"
  issuedAt := 1714521600 * 10 ^ 9
  passwordVersion := 4452186358924203944

def samplePayload : List UInt8 := (HeaderValue.ofString ("\x7b\"session_id\":\"7d444840-9dc0-11d1-b245-5ffdce74fad2\"," ++
  "\"issued_at\":\"2024-05-01T00:00:00Z\",\"password_version\":4452186358924203944\x7d")).bytes

def sampleMac : List UInt8 :=
  [69, 191, 112, 70, 191, 78, 156, 2, 192, 84, 154, 108, 238, 132, 229, 249, 142, 141, 16, 184, 71, 250, 86, 127, 1,
    113, 217, 138, 5, 115, 211, 252]

def samplePayloadText : String :=
  "eyJzZXNzaW9uX2lkIjoiN2Q0NDQ4NDAtOWRjMC0xMWQxLWIyNDUtNWZmZGNlNzRmYWQyIiwiaXNzdWVkX2F0IjoiMjAyNC0wNS0wMVQwMDow" ++
    "MDowMFoiLCJwYXNzd29yZF92ZXJzaW9uIjo0NDUyMTg2MzU4OTI0MjAzOTQ0fQ"

def sampleMacText : String := "Rb9wRr9OnALAVJps7oTl-Y6NELhH-lZ_AXHZigVz0_w"

def sampleCrates : Crates where
  hmac key payload := if key = "s" ∧ payload = samplePayload then sampleMac else []
  toVec claims := if claims = sampleClaims then .ok samplePayload else .error ""
  fromSlice bytes := if bytes = samplePayload then .ok sampleClaims else .error ""
  encode bytes := if bytes = samplePayload then samplePayloadText else if bytes = sampleMac then sampleMacText else ""
  decode text :=
    if text = samplePayloadText then some samplePayload else if text = sampleMacText then some sampleMac else none
  hash text := if text = sampleHash then 4452186358924203944 else if text = otherHash then 492340162273825839 else 1
  hashPassword password salt :=
    if password = "hunter2" ∧ salt = "c29tZXNhbHRzb21lc2FsdA" then .ok sampleHash
    else if password = "hunter2" ∧ salt = "bW9yZXNhbHRtb3Jlc2FsdA" then .ok otherHash else .error ""
  verifyPassword hash password := .ok ((hash = sampleHash ∨ hash = otherHash) ∧ password = "hunter2")

def sampleOrigin : HeaderMap := [("host", .ofString "127.0.0.1:8788"), ("origin", .ofString "http://127.0.0.1:8788")]

def sampleHeaders : HeaderMap := sampleOrigin ++
  [("cookie", .ofString (adminSessionCookieName ++ "=" ++ (samplePayloadText ++ "." ++ sampleMacText)))]

theorem trim_sampleHash : trim sampleHash = sampleHash ∧ trim otherHash = otherHash :=
  ⟨trim_eq_self (forall_mem_of_all (by decide +kernel)), trim_eq_self (forall_mem_of_all (by decide +kernel))⟩

theorem requireSameOrigin_sample : requireSameOrigin sampleHeaders = .ok () := by decide +kernel

theorem char_of_mem_samplePayloadText : ∀ c ∈ samplePayloadText.toList, CookieChar c ∧ c ≠ '.' :=
  forall_mem_of_all (by decide +kernel)

theorem readCookie_sample : readCookie sampleHeaders adminSessionCookieName =
    some (samplePayloadText ++ "." ++ sampleMacText) := by
  have hmac : ∀ c ∈ sampleMacText.toList, CookieChar c := forall_mem_of_all (by decide +kernel)
  have hchars : ∀ c ∈ (samplePayloadText ++ "." ++ sampleMacText).toList, CookieChar c :=
    cookieChar_join (fun c hc => (char_of_mem_samplePayloadText c hc).1) (forall_mem_of_all (by decide)) hmac
  have hname : ∀ c ∈ adminSessionCookieName.toList, CookieChar c ∧ c ≠ '=' := forall_mem_of_all (by decide)
  exact readCookie_of_get hname hchars rfl

theorem dot_notMem_samplePayloadText : '.' ∉ samplePayloadText.toList := fun h =>
  (char_of_mem_samplePayloadText _ h).2 rfl

theorem splitOnce_sample : splitOnce "." (samplePayloadText ++ "." ++ sampleMacText) =
    some (samplePayloadText, sampleMacText) :=
  splitOnce_of_notMem dot_notMem_samplePayloadText sampleMacText

theorem decode_sample : sampleCrates.decode samplePayloadText = some samplePayload ∧
    sampleCrates.decode sampleMacText = some sampleMac := by
  have hne : sampleMacText ≠ samplePayloadText := by decide +kernel
  simp [sampleCrates, hne]

theorem requireSession_sample {now : Instant} (config : ServerConfig) (hnow : now < sampleClaims.expiresAt)
    (hhash : config.adminPasswordHash = some sampleHash) (hsecret : config.adminSessionSecret = "s") :
    requireSession sampleCrates now sampleHeaders config = .ok sampleClaims := by
  have hversion : passwordVersion sampleCrates config = sampleClaims.passwordVersion := by
    simp [passwordVersion, hhash, sampleCrates, sampleClaims]
  have htrim : trim "s" = "s" := rfl
  have hmac : sampleMac = sampleCrates.hmac (trim config.adminSessionSecret) samplePayload := by
    simp [sampleCrates, hsecret, htrim]
  have hclaims : sampleCrates.fromSlice samplePayload = .ok sampleClaims := by simp [sampleCrates]
  refine requireSession_eq_ok.2 ⟨_, readCookie_sample, verifySessionCookie_eq_ok.2 ?_⟩
  exact ⟨samplePayloadText, sampleMacText, samplePayload, splitOnce_sample, decode_sample.1,
    by rw [hsecret]; decide, hmac ▸ decode_sample.2, hclaims, hnow, hversion.symm⟩

end FloralSync

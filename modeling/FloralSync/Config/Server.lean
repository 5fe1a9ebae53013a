import FloralSync.Config.Stored
import FloralSync.Stateful

/-!
# Loading, patching and writing the config (`config.rs`)

The functions that touch the config file run in `ConfigM`, whose state is what the config path names. A
temporary file that a failed write leaves behind has a name of its own and is not part of the state.
-/

namespace FloralSync

open Rust Stateful

/-- What the config path names. -/
inductive ConfigFile
  | missing
  | unreadable
  | malformed
  | toml (t : TomlTable)
deriving DecidableEq

abbrev ConfigM := ExceptT ConfigError (StateM ConfigFile)

/-- The points at which the file system can fail. -/
inductive FileStep
  | read
  | createDir
  | createTemp
  | writeAll
  | syncAll
  | rename
deriving DecidableEq

/-- The steps that fail. -/
abbrev FileEnv := FileStep → Bool

def FileEnv.calm : FileEnv := fun _ => false

def fileStep (env : FileEnv) (step : FileStep) : ConfigM Unit :=
  if env step then throw .io else pure ()

structure ConfigOverrides where
  listen : Option (List String)
  dbPath : Option PathBuf
  token : Option String
deriving DecidableEq

def ConfigOverrides.default : ConfigOverrides := ⟨none, none, none⟩

structure ConfigPatch where
  listen : Option (List String)
  adminListen : Option (List String)
  dbPath : Option PathBuf
  exportDir : Option PathBuf
  logPath : Option PathBuf
  logLevel : Option String
  token : Option String
  adminPasswordHash : Option String
deriving DecidableEq

def ConfigPatch.default : ConfigPatch := ⟨none, none, none, none, none, none, none, none⟩

@[ext]
structure ServerConfig where
  configPath : PathBuf
  syncListen : List String
  adminListen : List String
  dbPath : PathBuf
  exportDir : PathBuf
  logPath : PathBuf
  logLevel : String
  syncToken : String
  adminPasswordHash : Option String
  adminSessionSecret : String
deriving DecidableEq

def resolvePathFromConfig (configPath path : PathBuf) : PathBuf :=
  if path.isAbsolute then path else (configPath.parent.getD ⟨"."⟩).join path

def pathForStorage (configPath path : PathBuf) : String :=
  match configPath.parent with
  | none => path.text
  | some baseDir =>
    match path.stripPrefix baseDir with
    | some relative => if relative.text ≠ "" then relative.text else path.text
    | none => path.text

/-- `write_config_contents`: the contents get to the config path by the rename, or not at all. -/
def writeConfigContents (env : FileEnv) (configPath : PathBuf) (contents : TomlTable) : ConfigM Unit := do
  if configPath.parent.isSome then
    fileStep env .createDir
  fileStep env .createTemp
  fileStep env .writeAll
  fileStep env .syncAll
  fileStep env .rename
  set (ConfigFile.toml contents)

def writeStoredConfig (env : FileEnv) (configPath : PathBuf) (stored : StoredConfig) : ConfigM Unit :=
  writeConfigContents env configPath stored.serialize

def StoredConfig.fromServerConfig (config : ServerConfig) : StoredConfig where
  syncListen := config.syncListen
  listen := []
  bind := none
  dbPath := pathForStorage config.configPath config.dbPath
  exportDir := pathForStorage config.configPath config.exportDir
  logPath := pathForStorage config.configPath config.logPath
  logLevel := config.logLevel
  syncToken := config.syncToken
  token := ""
  adminListen := config.adminListen
  adminPasswordHash := config.adminPasswordHash
  adminSessionSecret := config.adminSessionSecret

def writeServerConfig (env : FileEnv) (config : ServerConfig) : ConfigM Unit :=
  writeStoredConfig env config.configPath (.fromServerConfig config)

/-! ### Loading -/

/-- `StoredConfig::default` -/
def StoredConfig.default (admin : Bool) (gen : Generated) : StoredConfig where
  syncListen := defaultSyncListen
  listen := []
  bind := none
  dbPath := defaultDbPath
  exportDir := defaultExportDir
  logPath := defaultLogPath
  logLevel := defaultLogLevel
  syncToken := gen.syncToken
  token := ""
  adminListen := defaultAdminListen admin
  adminPasswordHash := none
  adminSessionSecret := if admin then gen.adminSessionSecret else ""

/-- What the file says before it is normalised, and whether it has to be written. -/
def parseConfigFile (admin : Bool) (gen : Generated) : ConfigFile → Except ConfigError (StoredConfig × Bool)
  | .missing => .ok (.default admin gen, true)
  | .unreadable => .error .io
  | .malformed => .error .parse
  | .toml t => (·, false) <$> StoredConfig.deserialize t

/-- What the file gives if it can be read: it is parsed and normalised. -/
def parseStoredConfig (admin : Bool) (gen : Generated) (file : ConfigFile) :
    Except ConfigError (StoredConfig × Bool) := do
  let (stored, needsWrite) ← parseConfigFile admin gen file
  let (stored, changed) ← normalizeStoredConfig admin gen stored
  return (stored, needsWrite || changed)

/-- The first half of `load_or_create_stored_config`. -/
def readStoredConfig (admin : Bool) (gen : Generated) (env : FileEnv) : ConfigM (StoredConfig × Bool) := do
  let file ← get
  if file ≠ .missing then
    fileStep env .read
  liftExcept (parseStoredConfig admin gen file)

def loadOrCreateStoredConfig (admin : Bool) (gen : Generated) (env : FileEnv) (configPath : PathBuf) :
    ConfigM StoredConfig := do
  let (stored, needsWrite) ← readStoredConfig admin gen env
  if needsWrite then
    writeStoredConfig env configPath stored
  return stored

/-- The second half of `load_or_create_config`. -/
def serverConfig (admin : Bool) (configPath : PathBuf) (overrides : ConfigOverrides) (stored : StoredConfig) :
    Except ConfigError ServerConfig := do
  let syncListen ← normalizeListenAddresses "sync_listen" (overrides.listen.getD stored.syncListen)
  let syncToken := trim (overrides.token.getD stored.syncToken)
  if syncToken = "" then
    throw (.invalid "sync_token must not be empty")
  let dbPath := overrides.dbPath.getD ⟨stored.dbPath⟩
  return { configPath
           syncListen
           adminListen := ← normalizeAdminListen admin stored.adminListen
           dbPath := resolvePathFromConfig configPath dbPath
           exportDir := resolvePathFromConfig configPath ⟨stored.exportDir⟩
           logPath := resolvePathFromConfig configPath ⟨stored.logPath⟩
           logLevel := trim stored.logLevel
           syncToken
           adminPasswordHash := stored.adminPasswordHash
           adminSessionSecret := trim stored.adminSessionSecret }

def loadOrCreateConfig (admin : Bool) (gen : Generated) (env : FileEnv) (configPath : PathBuf)
    (overrides : ConfigOverrides) : ConfigM ServerConfig := do
  let stored ← loadOrCreateStoredConfig admin gen env configPath
  liftExcept (serverConfig admin configPath overrides stored)

/-! ### Patching -/

def normalizePatchPath (configPath : PathBuf) (fieldName : String) (path : PathBuf) :
    Except ConfigError PathBuf :=
  if path.text = "" then .error (.invalid (fieldName ++ " patch must not be empty"))
  else .ok (resolvePathFromConfig configPath path)

def normalizePatchText (fieldName value : String) : Except ConfigError String :=
  if trim value = "" then .error (.invalid (fieldName ++ " patch must not be empty"))
  else .ok (trim value)

/-- A field takes the value of the patch, if it has one. -/
def patchField {α β : Type} (current : β) (patch : Option α) (normalize : α → Except ConfigError β) :
    Except ConfigError β :=
  match patch with
  | some value => normalize value
  | none => .ok current

def applyConfigPatch (admin : Bool) (current : ServerConfig) (patch : ConfigPatch) :
    Except ConfigError ServerConfig := do
  return { configPath := current.configPath
           syncListen := ← patchField current.syncListen patch.listen (normalizeListenAddresses "sync_listen")
           adminListen := ← patchField current.adminListen patch.adminListen (normalizeAdminListen admin)
           dbPath := ← patchField current.dbPath patch.dbPath (normalizePatchPath current.configPath "db_path")
           exportDir := ← patchField current.exportDir patch.exportDir
             (normalizePatchPath current.configPath "export_dir")
           logPath := ← patchField current.logPath patch.logPath
             (normalizePatchPath current.configPath "log_path")
           logLevel := ← patchField current.logLevel patch.logLevel (normalizePatchText "log_level")
           syncToken := ← patchField current.syncToken patch.token (normalizePatchText "sync_token")
           adminPasswordHash := ← patchField current.adminPasswordHash patch.adminPasswordHash
             fun value => some <$> normalizePatchText "admin_password_hash" value
           adminSessionSecret := current.adminSessionSecret }

def applyAndPersistConfig (admin : Bool) (env : FileEnv) (current : ServerConfig) (patch : ConfigPatch) :
    ConfigM ServerConfig := do
  let updated ← liftExcept (applyConfigPatch admin current patch)
  writeServerConfig env updated
  return updated

def updateConfigFile (admin : Bool) (gen : Generated) (env : FileEnv) (configPath : PathBuf)
    (patch : ConfigPatch) : ConfigM ServerConfig := do
  let current ← loadOrCreateConfig admin gen env configPath .default
  applyAndPersistConfig admin env current patch

/-- `RuntimeConfigState` -/
structure RuntimeConfigState where
  effective : ServerConfig
  persisted : ServerConfig
deriving DecidableEq

structure RuntimeConfigSnapshot where
  effective : ServerConfig
  persisted : ServerConfig
  pendingRestartFields : List String
deriving DecidableEq

/-- `RuntimeConfig::new` -/
def RuntimeConfigState.new (initial : ServerConfig) : RuntimeConfigState := ⟨initial, initial⟩

def pendingRestartFieldsFor (effective persisted : ServerConfig) : List String :=
  (if effective.syncListen ≠ persisted.syncListen then ["syncListen"] else []) ++
  (if effective.adminListen ≠ persisted.adminListen then ["adminListen"] else []) ++
  (if ¬ effective.dbPath ≈ persisted.dbPath then ["dbPath"] else []) ++
  (if ¬ effective.exportDir ≈ persisted.exportDir then ["exportDir"] else []) ++
  (if ¬ effective.logPath ≈ persisted.logPath then ["logPath"] else [])

def snapshotFromState (state : RuntimeConfigState) : RuntimeConfigSnapshot where
  effective := state.effective
  persisted := state.persisted
  pendingRestartFields := pendingRestartFieldsFor state.effective state.persisted

/-- What `apply_patch` does to the state once the config has been written. -/
def RuntimeConfigState.update (state : RuntimeConfigState) (updated : ServerConfig) : RuntimeConfigState where
  persisted := updated
  effective := { state.effective with
    syncToken := updated.syncToken
    adminPasswordHash := updated.adminPasswordHash
    adminSessionSecret := updated.adminSessionSecret
    logLevel := updated.logLevel }

/-- `RuntimeConfig::apply_patch`, as the state it leaves; a failed one leaves the state as it was. -/
def applyPatch (admin : Bool) (env : FileEnv) (patch : ConfigPatch) (state : RuntimeConfigState) :
    ConfigM RuntimeConfigState := do
  let updated ← applyAndPersistConfig admin env state.persisted patch
  return state.update updated

end FloralSync

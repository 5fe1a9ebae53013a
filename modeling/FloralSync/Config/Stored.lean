import FloralSync.Result
import FloralSync.Rust.Net
import FloralSync.Rust.Path
import FloralSync.Text

/-!
# The config file (`config.rs`)

What the file says, as a TOML document, and as the `StoredConfig` that `serde` makes of it. Documents stand
for their texts: `toml` writes a document as a text that it reads back as the same document. Where the
source asks `cfg!(feature = "admin")`, the functions have the parameter `admin`.
-/

namespace FloralSync

open Rust

inductive ConfigError
  | io
  | parse
  | serialize
  | invalid (message : String)
deriving DecidableEq

/-- A value that is neither a string nor an array of strings is of no use in a config file. -/
inductive TomlValue
  | string (value : String)
  | strings (values : List String)
  | other
deriving DecidableEq

abbrev TomlTable := List (String × TomlValue)

structure StoredConfig where
  syncListen : List String
  listen : List String
  bind : Option String
  dbPath : String
  exportDir : String
  logPath : String
  logLevel : String
  syncToken : String
  token : String
  adminListen : List String
  adminPasswordHash : Option String
  adminSessionSecret : String
deriving DecidableEq

def defaultSyncListen : List String := ["0.0.0.0:8787", "[::]:8787"]

def isLegacySingleStackDefaultSyncListen (syncListen : List String) : Bool :=
  syncListen = ["0.0.0.0:8787"] ∨ syncListen = ["[::]:8787"]

def defaultAdminListen (admin : Bool) : List String := if admin then ["127.0.0.1:8788", "[::1]:8788"] else []

def defaultDbPath : String := "data/floral-sync.sqlite3"

def defaultExportDir : String := "exports"

def defaultLogPath : String := "logs/floral-sync-server.log"

def defaultLogLevel : String := "info"

/-- Reading a field that has a default. -/
def stringField (t : TomlTable) (key default : String) : Except ConfigError String :=
  match t.lookup key with
  | none => .ok default
  | some (.string value) => .ok value
  | some _ => .error .parse

def stringsField (t : TomlTable) (key : String) : Except ConfigError (List String) :=
  match t.lookup key with
  | none => .ok []
  | some (.strings values) => .ok values
  | some _ => .error .parse

def optionalField (t : TomlTable) (key : String) : Except ConfigError (Option String) :=
  match t.lookup key with
  | none => .ok none
  | some (.string value) => .ok (some value)
  | some _ => .error .parse

namespace StoredConfig

/-- `StoredConfig: Deserialize` -/
def deserialize (t : TomlTable) : Except ConfigError StoredConfig := do
  return { syncListen := ← stringsField t "sync_listen"
           listen := ← stringsField t "listen"
           bind := ← optionalField t "bind"
           dbPath := ← stringField t "db_path" defaultDbPath
           exportDir := ← stringField t "export_dir" ""
           logPath := ← stringField t "log_path" defaultLogPath
           logLevel := ← stringField t "log_level" defaultLogLevel
           syncToken := ← stringField t "sync_token" ""
           token := ← stringField t "token" ""
           adminListen := ← stringsField t "admin_listen"
           adminPasswordHash := ← optionalField t "admin_password_hash"
           adminSessionSecret := ← stringField t "admin_session_secret" "" }

/-- `StoredConfig: Serialize`; the legacy fields are never written. -/
def serialize (s : StoredConfig) : TomlTable :=
  [("sync_listen", .strings s.syncListen), ("db_path", .string s.dbPath), ("export_dir", .string s.exportDir),
    ("log_path", .string s.logPath), ("log_level", .string s.logLevel), ("sync_token", .string s.syncToken)] ++
  (if s.adminListen = [] then [] else [("admin_listen", .strings s.adminListen)]) ++
  (s.adminPasswordHash.toList.map fun hash => ("admin_password_hash", .string hash)) ++
  (if s.adminSessionSecret = "" then [] else [("admin_session_secret", .string s.adminSessionSecret)])

end StoredConfig

/-! ### Normalising -/

def normalizeOptionalListenAddresses (fieldName : String) (listen : List String) :
    Except ConfigError (List String) :=
  listen.foldlM (fun normalized address =>
    let trimmed := trim address
    if trimmed = "" then .ok normalized
    else if !isSocketAddr trimmed then
      .error (.invalid (fieldName ++ " entry must be a valid socket address: " ++ trimmed))
    else if trimmed ∈ normalized then .ok normalized
    else .ok (normalized ++ [trimmed])) []

def normalizeListenAddresses (fieldName : String) (listen : List String) : Except ConfigError (List String) := do
  let normalized ← normalizeOptionalListenAddresses fieldName listen
  if normalized = [] then
    throw (.invalid (fieldName ++ " must contain at least one address"))
  return normalized

def normalizeAdminListen (admin : Bool) (listen : List String) : Except ConfigError (List String) :=
  if admin then normalizeListenAddresses "admin_listen" listen
  else normalizeOptionalListenAddresses "admin_listen" listen

/-- What `generate_token` gives in one reading of the file. -/
structure Generated where
  syncToken : String
  adminSessionSecret : String

/-- The values of `sync_listen`, from the legacy fields or the default if it is empty. -/
def migratedSyncListen (stored : StoredConfig) : List String :=
  if stored.syncListen = [] then
    if stored.listen ≠ [] then stored.listen
    else match stored.bind with
      | some bind => [bind]
      | none => defaultSyncListen
  else stored.syncListen

/-- The part of `normalize_stored_config` about `sync_listen`, with whether something changed. -/
def normalizeSyncListen (stored : StoredConfig) : Except ConfigError (List String × Bool) := do
  let migrated := migratedSyncListen stored
  let changed := stored.syncListen = [] ∨ stored.listen ≠ [] ∨ stored.bind.isSome
  let normalized ← normalizeListenAddresses "sync_listen" migrated
  let changed := changed ∨ normalized ≠ migrated
  if isLegacySingleStackDefaultSyncListen normalized then return (defaultSyncListen, true)
  return (normalized, changed)

def normalizeStoredAdminListen (admin : Bool) (stored : StoredConfig) :
    Except ConfigError (List String × Bool) := do
  let defaulted := if stored.adminListen = [] ∧ admin then defaultAdminListen admin else stored.adminListen
  let changed := stored.adminListen = [] ∧ admin
  let normalized ← normalizeAdminListen admin defaulted
  return (normalized, changed ∨ normalized ≠ defaulted)

/-- A path that is blank takes the default. -/
def normalizeStoredPath (path default : String) : String × Bool :=
  if trim path = "" then (default, true) else (path, false)

def normalizeLogLevel (logLevel : String) : String × Bool :=
  if trim logLevel = "" then (defaultLogLevel, true) else (trim logLevel, trim logLevel ≠ logLevel)

def normalizeSyncToken (gen : Generated) (syncToken token : String) : String × Bool :=
  if trim syncToken = "" then
    if trim token ≠ "" then (trim token, true) else (gen.syncToken, true)
  else (trim syncToken, trim syncToken ≠ syncToken ∨ token ≠ "")

def normalizePasswordHash : Option String → Option String × Bool
  | some value => if trim value = "" then (none, true) else (some (trim value), trim value ≠ value)
  | none => (none, false)

def normalizeSessionSecret (admin : Bool) (gen : Generated) (secret : String) : String × Bool :=
  if admin ∧ trim secret = "" then (gen.adminSessionSecret, true) else (trim secret, trim secret ≠ secret)

/-- The config whose listen lists have become `syncListen` and `adminListen`, with its other fields
normalised. -/
def normalizeFields (admin : Bool) (gen : Generated) (stored : StoredConfig) (syncListen adminListen : List String) :
    StoredConfig where
  syncListen := syncListen
  listen := []
  bind := none
  dbPath := (normalizeStoredPath stored.dbPath defaultDbPath).1
  exportDir := (normalizeStoredPath stored.exportDir defaultExportDir).1
  logPath := (normalizeStoredPath stored.logPath defaultLogPath).1
  logLevel := (normalizeLogLevel stored.logLevel).1
  syncToken := (normalizeSyncToken gen stored.syncToken stored.token).1
  token := ""
  adminListen := adminListen
  adminPasswordHash := (normalizePasswordHash stored.adminPasswordHash).1
  adminSessionSecret := (normalizeSessionSecret admin gen stored.adminSessionSecret).1

/-- Whether `normalizeFields` changes something. -/
def fieldsChanged (admin : Bool) (gen : Generated) (stored : StoredConfig) : Bool :=
  (normalizeStoredPath stored.dbPath defaultDbPath).2 || (normalizeStoredPath stored.exportDir defaultExportDir).2 ||
    (normalizeStoredPath stored.logPath defaultLogPath).2 || (normalizeLogLevel stored.logLevel).2 ||
    (normalizeSyncToken gen stored.syncToken stored.token).2 ||
    (normalizePasswordHash stored.adminPasswordHash).2 ||
    (normalizeSessionSecret admin gen stored.adminSessionSecret).2

def checkNotBlank (fieldName value : String) : Except ConfigError Unit :=
  if trim value = "" then .error (.invalid (fieldName ++ " must not be empty")) else .ok ()

/-- The checks at the end of `normalize_stored_config`. -/
def checkStoredConfig (admin : Bool) (stored : StoredConfig) : Except ConfigError Unit := do
  checkNotBlank "db_path" stored.dbPath
  checkNotBlank "export_dir" stored.exportDir
  checkNotBlank "log_path" stored.logPath
  checkNotBlank "log_level" stored.logLevel
  checkNotBlank "sync_token" stored.syncToken
  if admin then
    checkNotBlank "admin_session_secret" stored.adminSessionSecret

def normalizeStoredConfig (admin : Bool) (gen : Generated) (stored : StoredConfig) :
    Except ConfigError (StoredConfig × Bool) := do
  let (syncListen, syncChanged) ← normalizeSyncListen stored
  let (adminListen, adminChanged) ← normalizeStoredAdminListen admin stored
  let normalized := normalizeFields admin gen stored syncListen adminListen
  checkStoredConfig admin normalized
  return (normalized, syncChanged || adminChanged || fieldsChanged admin gen stored)

end FloralSync

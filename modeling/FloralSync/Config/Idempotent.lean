import FloralSync.Config.Disk

/-!
# Loading twice (`config.rs`)

Normalising a stored config is done after one time: none of its steps undoes what another has made
(`StoredConfig.Normalized.normalize_eq`). What it leaves alone was normalised before (`eq_of_unchanged`). So a
load finds its own result in the file, whether it has written it or not.
-/

namespace FloralSync

open Rust Stateful

/-- `generate_token`, twice. -/
def Generated.ofUuids (token secret : Uuid) : Generated := ⟨token.text, secret.text⟩

/-- The texts that are trimmed, beside those of the lists. -/
structure StoredConfig.Trimmed (s : StoredConfig) : Prop where
  logLevel : trim s.logLevel = s.logLevel
  syncToken : trim s.syncToken = s.syncToken
  adminSessionSecret : trim s.adminSessionSecret = s.adminSessionSecret

section Normalize

variable {admin : Bool} {gen : Generated} {token secret : Uuid} {stored s : StoredConfig} {changed : Bool}

@[simp] theorem Uuid.trim_text (uuid : Uuid) : trim uuid.text = uuid.text := by
  have hhex : ∀ c ∈ "0123456789abcdef-".toList, isWhitespace c = false := forall_mem_of_all (by decide +kernel)
  exact trim_eq_self fun c hc => hhex c (uuid.hex c hc)

theorem trim_normalizeLogLevel (logLevel : String) :
    trim (normalizeLogLevel logLevel).1 = (normalizeLogLevel logLevel).1 := by
  unfold normalizeLogLevel
  split_ifs
  · decide
  · exact trim_trim _

theorem trim_normalizeSyncToken (syncToken legacy : String) :
    trim (normalizeSyncToken (.ofUuids token secret) syncToken legacy).1 =
      (normalizeSyncToken (.ofUuids token secret) syncToken legacy).1 := by
  unfold normalizeSyncToken
  split_ifs
  · exact trim_trim _
  · exact token.trim_text
  · exact trim_trim _

theorem trim_normalizeSessionSecret (text : String) :
    trim (normalizeSessionSecret admin (.ofUuids token secret) text).1 =
      (normalizeSessionSecret admin (.ofUuids token secret) text).1 := by
  unfold normalizeSessionSecret
  split_ifs
  · exact secret.trim_text
  · exact trim_trim _

theorem trimmed_of_normalize (h : normalizeStoredConfig admin (.ofUuids token secret) stored = .ok (s, changed)) :
    s.Trimmed := by
  obtain ⟨_, _, _, _, -, -, rfl, -, -⟩ := normalizeStoredConfig_eq_ok.1 h
  refine ⟨?_, ?_, ?_⟩
  · simp only [normalizeFields, trim_normalizeLogLevel]
  · simp only [normalizeFields, trim_normalizeSyncToken]
  · simp only [normalizeFields, trim_normalizeSessionSecret]

theorem StoredConfig.Normalized.normalizeSyncListen_eq (h : s.Normalized admin) :
    normalizeSyncListen s = .ok (s.syncListen, false) := by
  have hmigrated : migratedSyncListen s = s.syncListen := if_neg h.syncListen_ne
  refine Except.bind_eq_ok.2 ⟨_, hmigrated ▸ normalizeListenAddresses_eq_self h.syncListen h.syncListen_ne, ?_⟩
  dsimp only
  rw [hmigrated, if_neg (by simp [h.not_legacy]), decide_eq_false (by simp [h.syncListen_ne, h.listen, h.bind])]
  rfl

theorem StoredConfig.Normalized.normalizeStoredAdminListen_eq (h : s.Normalized admin) :
    normalizeStoredAdminListen admin s = .ok (s.adminListen, false) := by
  have hnot : ¬ (s.adminListen = [] ∧ admin = true) := fun hempty => h.adminListen.nonempty hempty.2 hempty.1
  unfold normalizeStoredAdminListen
  rw [if_neg hnot]
  refine Except.bind_eq_ok.2 ⟨_, h.adminListen.normalize_eq, ?_⟩
  rw [decide_eq_false (not_or.2 ⟨hnot, not_not.2 rfl⟩)]
  rfl

theorem normalizeStoredPath_eq {path : String} (default : String) (h : trim path ≠ "") :
    normalizeStoredPath path default = (path, false) := if_neg h

theorem normalizeLogLevel_eq {logLevel : String} (htrim : trim logLevel = logLevel) (hne : trim logLevel ≠ "") :
    normalizeLogLevel logLevel = (logLevel, false) := by
  simp [normalizeLogLevel, htrim, ne_of_trim_ne hne]

theorem normalizeSyncToken_eq (gen : Generated) {syncToken : String} (htrim : trim syncToken = syncToken)
    (hne : trim syncToken ≠ "") :
    normalizeSyncToken gen syncToken "" = (syncToken, false) := by
  simp [normalizeSyncToken, htrim, ne_of_trim_ne hne]

theorem normalizePasswordHash_eq {hash : Option String} (h : ∀ value ∈ hash, trim value = value ∧ value ≠ "") :
    normalizePasswordHash hash = (hash, false) := by
  cases hash with
  | none => rfl
  | some value => simp [normalizePasswordHash, h value rfl]

theorem normalizeSessionSecret_eq (gen : Generated) {text : String} (htrim : trim text = text)
    (hne : admin = true → trim text ≠ "") :
    normalizeSessionSecret admin gen text = (text, false) := by
  unfold normalizeSessionSecret
  rw [if_neg fun h => hne h.1 h.2, htrim, decide_eq_false (not_not.2 rfl)]

/-- Normalising a normalised config changes nothing, whatever tokens it could generate. -/
theorem StoredConfig.Normalized.normalize_eq (h : s.Normalized admin) (ht : s.Trimmed) (gen : Generated) :
    normalizeStoredConfig admin gen s = .ok (s, false) := by
  have hdb := normalizeStoredPath_eq defaultDbPath h.notBlank.dbPath
  have hexport := normalizeStoredPath_eq defaultExportDir h.notBlank.exportDir
  have hlog := normalizeStoredPath_eq defaultLogPath h.notBlank.logPath
  have hlevel := normalizeLogLevel_eq ht.logLevel h.notBlank.logLevel
  have htoken := normalizeSyncToken_eq gen ht.syncToken h.notBlank.syncToken
  have hhash := normalizePasswordHash_eq h.adminPasswordHash
  have hsecret := normalizeSessionSecret_eq gen ht.adminSessionSecret h.notBlank.adminSessionSecret
  have hfields : normalizeFields admin gen s s.syncListen s.adminListen = s := by
    unfold normalizeFields
    rw [hdb, hexport, hlog, hlevel, h.token, htoken, hhash, hsecret]
    obtain ⟨_, _, _, _, _, _, _, _, _, _, _, _⟩ := s
    obtain rfl : _ = [] := h.listen
    obtain rfl : _ = none := h.bind
    obtain rfl : _ = "" := h.token
    rfl
  refine normalizeStoredConfig_eq_ok.2 ⟨_, false, _, false, h.normalizeSyncListen_eq, h.normalizeStoredAdminListen_eq,
    hfields.symm, h.notBlank, ?_⟩
  rw [fieldsChanged, hdb, hexport, hlog, hlevel, h.token, htoken, hhash, hsecret]
  rfl

theorem normalizeSyncListen_unchanged {l : List String} (h : normalizeSyncListen stored = .ok (l, false)) :
    l = stored.syncListen ∧ stored.listen = [] ∧ stored.bind = none := by
  obtain ⟨n, -, h⟩ := Except.bind_eq_ok.1 h
  dsimp only at h
  split_ifs at h
  · cases (Prod.mk.inj (Except.ok.inj h)).2
  · obtain ⟨rfl, hchanged⟩ := Prod.mk.inj (Except.ok.inj h)
    simp only [decide_eq_false_iff_not, not_or, not_not, Option.not_isSome_iff_eq_none] at hchanged
    obtain ⟨⟨hne, hlisten, hbind⟩, hmigrated⟩ := hchanged
    exact ⟨hmigrated.trans (if_neg hne), hlisten, hbind⟩

theorem normalizeStoredAdminListen_unchanged {l : List String}
    (h : normalizeStoredAdminListen admin stored = .ok (l, false)) : l = stored.adminListen := by
  obtain ⟨n, -, h⟩ := Except.bind_eq_ok.1 h
  obtain ⟨rfl, hchanged⟩ := Prod.mk.inj (Except.ok.inj h)
  obtain ⟨hnot, hdefaulted⟩ := not_or.1 (of_decide_eq_false hchanged)
  exact (not_not.1 hdefaulted).trans (if_neg hnot)

theorem eq_of_decide_ne {value text : String} (h : decide (value ≠ text) = false) : value = text :=
  not_not.1 (of_decide_eq_false h)

theorem normalizeStoredPath_unchanged {path default : String} (h : (normalizeStoredPath path default).2 = false) :
    (normalizeStoredPath path default).1 = path := by
  unfold normalizeStoredPath at h ⊢
  split_ifs at h ⊢
  rfl

theorem normalizeLogLevel_unchanged {logLevel : String} (h : (normalizeLogLevel logLevel).2 = false) :
    (normalizeLogLevel logLevel).1 = logLevel := by
  unfold normalizeLogLevel at h ⊢
  split_ifs at h ⊢
  dsimp only at h ⊢
  exact eq_of_decide_ne h

theorem normalizeSyncToken_unchanged {syncToken legacy : String}
    (h : (normalizeSyncToken gen syncToken legacy).2 = false) :
    (normalizeSyncToken gen syncToken legacy).1 = syncToken ∧ legacy = "" := by
  unfold normalizeSyncToken at h ⊢
  split_ifs at h ⊢
  simp only [decide_eq_false_iff_not, not_or, not_not] at h
  exact h

theorem normalizePasswordHash_unchanged {hash : Option String} (h : (normalizePasswordHash hash).2 = false) :
    (normalizePasswordHash hash).1 = hash := by
  cases hash with
  | none => rfl
  | some value =>
    unfold normalizePasswordHash at h ⊢
    dsimp only at h ⊢
    split_ifs at h ⊢
    dsimp only at h ⊢
    rw [eq_of_decide_ne h]

theorem normalizeSessionSecret_unchanged {text : String} (h : (normalizeSessionSecret admin gen text).2 = false) :
    (normalizeSessionSecret admin gen text).1 = text := by
  unfold normalizeSessionSecret at h ⊢
  split_ifs at h ⊢
  dsimp only at h ⊢
  exact eq_of_decide_ne h

theorem eq_of_unchanged (h : normalizeStoredConfig admin gen stored = .ok (s, false)) : s = stored := by
  obtain ⟨syncListen, c₁, adminListen, c₂, hsync, hadm, rfl, -, hchanged⟩ := normalizeStoredConfig_eq_ok.1 h
  simp only [fieldsChanged, eq_comm (a := false), Bool.or_eq_false_iff] at hchanged
  obtain ⟨⟨rfl, rfl⟩, ⟨⟨⟨⟨⟨hdb, hexport⟩, hlog⟩, hlevel⟩, htoken⟩, hhash⟩, hsecret⟩ := hchanged
  obtain ⟨rfl, hlisten, hbind⟩ := normalizeSyncListen_unchanged hsync
  obtain rfl := normalizeStoredAdminListen_unchanged hadm
  obtain ⟨htoken, hlegacy⟩ := normalizeSyncToken_unchanged htoken
  unfold normalizeFields
  rw [normalizeStoredPath_unchanged hdb, normalizeStoredPath_unchanged hexport, normalizeStoredPath_unchanged hlog,
    normalizeLogLevel_unchanged hlevel, htoken, normalizePasswordHash_unchanged hhash,
    normalizeSessionSecret_unchanged hsecret]
  obtain ⟨_, _, _, _, _, _, _, _, _, _, _, _⟩ := stored
  obtain rfl : _ = [] := hlisten
  obtain rfl : _ = none := hbind
  obtain rfl : _ = "" := hlegacy
  rfl

theorem normalize_again (h : normalizeStoredConfig admin (.ofUuids token secret) stored = .ok (s, changed))
    (gen : Generated) : normalizeStoredConfig admin gen s = .ok (s, false) :=
  (normalized_of_normalize h).normalize_eq (trimmed_of_normalize h) gen

end Normalize

/-! ### A second load -/

section Load

variable {admin : Bool} {gen : Generated} {token secret : Uuid} {stored : StoredConfig} {needsWrite : Bool}
  {file file' : ConfigFile} {env env' : FileEnv} {configPath : PathBuf} {overrides : ConfigOverrides} {c : ServerConfig}

theorem parseConfigFile_serialize (h : stored.Normalized admin) (gen : Generated) :
    parseConfigFile admin gen (.toml stored.serialize) = .ok (stored, false) := by
  refine Except.map_eq_ok.2 ⟨stored, ?_, rfl⟩
  rw [deserialize_serialize]
  obtain ⟨_, _, _, _, _, _, _, _, _, _, _, _⟩ := stored
  obtain rfl : _ = [] := h.listen
  obtain rfl : _ = none := h.bind
  obtain rfl : _ = "" := h.token
  rfl

theorem parseConfigFile_congr {gen' : Generated} (h : parseConfigFile admin gen' file = .ok (stored, false))
    (gen : Generated) : parseConfigFile admin gen file = .ok (stored, false) := by
  cases file with
  | missing => cases (Prod.mk.inj (Except.ok.inj h)).2
  | _ => exact h

theorem parseStoredConfig_again
    (h : parseStoredConfig admin (.ofUuids token secret) file = .ok (stored, needsWrite)) (gen : Generated) :
    parseStoredConfig admin gen (if needsWrite then .toml stored.serialize else file) = .ok (stored, false) := by
  have hnorm := parseStoredConfig_normalized h
  obtain ⟨⟨read, created⟩, hread, h⟩ := Except.bind_eq_ok.1 h
  obtain ⟨⟨normalized, changed⟩, hnormalize, h⟩ := Except.bind_eq_ok.1 h
  obtain ⟨rfl, rfl⟩ := Prod.mk.inj (Except.ok.inj h)
  have hagain := normalize_again hnormalize gen
  cases hneeds : created || changed with
  | true => exact Except.bind_eq_ok.2 ⟨_, parseConfigFile_serialize hnorm gen, Except.bind_eq_ok.2 ⟨_, hagain, rfl⟩⟩
  | false =>
    obtain ⟨rfl, rfl⟩ := Bool.or_eq_false_iff.1 hneeds
    rw [eq_of_unchanged hnormalize] at hagain ⊢
    exact Except.bind_eq_ok.2 ⟨_, parseConfigFile_congr hread gen, Except.bind_eq_ok.2 ⟨_, hagain, rfl⟩⟩

theorem load_again
    (h : exec (loadOrCreateConfig admin (.ofUuids token secret) env configPath overrides) file = (.ok c, file'))
    (hread : env' .read = false) (gen : Generated) :
    exec (loadOrCreateConfig admin gen env' configPath overrides) file' = (.ok c, file') := by
  obtain ⟨stored, hstored, hc⟩ := exec_loadOrCreateConfig_ok.1 h
  obtain ⟨needsWrite, -, hparse, -, rfl⟩ := exec_loadOrCreateStoredConfig_ok.1 hstored
  have hreadable : readable env' (if needsWrite then .toml stored.serialize else file) = true := by
    simp [readable, hread]
  exact exec_loadOrCreateConfig_ok.2 ⟨stored, exec_loadOrCreateStoredConfig_ok.2
    ⟨false, hreadable, parseStoredConfig_again hparse gen, nofun, rfl⟩, hc⟩

end Load

/-- A second run of the normalisation changes nothing, so a second load, where nothing but reading succeeds, gives
the same config. -/
theorem normalization_idempotent (admin : Bool) (token secret : Uuid) :
    (∀ stored s changed, normalizeStoredConfig admin (.ofUuids token secret) stored = .ok (s, changed) →
      ∀ gen, normalizeStoredConfig admin gen s = .ok (s, false)) ∧
    ∀ env configPath overrides file c file',
      exec (loadOrCreateConfig admin (.ofUuids token secret) env configPath overrides) file = (.ok c, file') →
      ∀ gen env', env' .read = false →
        exec (loadOrCreateConfig admin gen env' configPath overrides) file' = (.ok c, file') :=
  ⟨fun _ _ _ h gen => normalize_again h gen, fun _ _ _ _ _ _ h gen _ hread => load_again h hread gen⟩

/-- A config of an old server: the legacy fields, padded texts and blank ones. -/
def legacyStored : StoredConfig where
  syncListen := []
  listen := [" 0.0.0.0:8787", "0.0.0.0:8787"]
  bind := some "127.0.0.1:80"
  dbPath := ""
  exportDir := " "
  logPath := "server.log"
  logLevel := " debug "
  syncToken := " "
  token := "t "
  adminListen := []
  adminPasswordHash := some " "
  adminSessionSecret := ""

def migratedStored : StoredConfig where
  syncListen := defaultSyncListen
  listen := []
  bind := none
  dbPath := defaultDbPath
  exportDir := defaultExportDir
  logPath := "server.log"
  logLevel := "debug"
  syncToken := "t"
  token := ""
  adminListen := defaultAdminListen true
  adminPasswordHash := none
  adminSessionSecret := "0"

def zeroTokens : Generated := .ofUuids DiskEnv.calm.uuid DiskEnv.calm.uuid

def startConfig : ServerConfig := { firstConfig with syncToken := "0", adminSessionSecret := "0" }

theorem normalize_legacyStored : normalizeStoredConfig true zeroTokens legacyStored = .ok (migratedStored, true) := by
  decide +kernel

theorem load_startConfig : exec (loadOrCreateConfig true zeroTokens .calm startConfig.configPath .default) .missing =
    (.ok startConfig, .toml startConfig.document) := by decide +kernel

/-- The legacy config, and a first start. -/
theorem normalization_idempotent_of_legacyStored :
    normalizeStoredConfig true ⟨"", ""⟩ migratedStored = .ok (migratedStored, false) ∧
    exec (loadOrCreateConfig true ⟨"", ""⟩ .calm startConfig.configPath .default) (.toml startConfig.document) =
      (.ok startConfig, .toml startConfig.document) := by
  obtain ⟨hnormalize, hload⟩ := normalization_idempotent true DiskEnv.calm.uuid DiskEnv.calm.uuid
  exact ⟨hnormalize _ _ _ normalize_legacyStored _, hload _ _ _ _ _ _ load_startConfig _ .calm rfl⟩

end FloralSync

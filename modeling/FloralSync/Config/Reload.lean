import FloralSync.Config.Fields

/-!
# Loading what was persisted

A config that was patched and written comes back from the file, but for two things: a lone default address
of the old servers, which loading replaces by both default addresses, and a path whose stored text is blank
or names the config directory itself (`Storable`). `reload_patched_iff` says so exactly.
-/

namespace FloralSync

open Rust Stateful PathBuf

/-- Rust's `==` on configs: paths are compared by their components. -/
structure ServerConfig.Same (c c' : ServerConfig) : Prop where
  configPath : c.configPath ≈ c'.configPath
  syncListen : c.syncListen = c'.syncListen
  adminListen : c.adminListen = c'.adminListen
  dbPath : c.dbPath ≈ c'.dbPath
  exportDir : c.exportDir ≈ c'.exportDir
  logPath : c.logPath ≈ c'.logPath
  logLevel : c.logLevel = c'.logLevel
  syncToken : c.syncToken = c'.syncToken
  adminPasswordHash : c.adminPasswordHash = c'.adminPasswordHash
  adminSessionSecret : c.adminSessionSecret = c'.adminSessionSecret

/-- The path of a config after a patch. -/
def patchedPath (configPath current : PathBuf) : Option PathBuf → PathBuf
  | some path => resolvePathFromConfig configPath path
  | none => current

/-- A path that is the same after it was stored and read again: what is stored is not blank, and the path
is not the config directory under a relative name. -/
structure Storable (configPath path : PathBuf) : Prop where
  not_blank : trim (pathForStorage configPath path) ≠ ""
  not_dir : path.isAbsolute = false → ∀ dir ∈ configPath.parent, path ≈ dir → names path.segments = []

section Paths

variable {configPath path : PathBuf} {default : String}

theorem resolvePathFromConfig_eq_join (path : PathBuf) :
    resolvePathFromConfig configPath path = (configPath.parent.getD ⟨"."⟩).join path := by
  unfold resolvePathFromConfig
  split_ifs with h
  · rw [join_of_isAbsolute h]
  · rfl

theorem Resolved.cases (h : Resolved configPath path) :
    path.isAbsolute = true ∨ ((configPath.parent.getD ⟨"."⟩).text = "" ∧ path.text ≠ "") ∨
      ((configPath.parent.getD ⟨"."⟩).text ≠ "" ∧
        ∃ p : PathBuf, path.components = (configPath.parent.getD ⟨"."⟩).components ++ names p.segments) := by
  obtain ⟨p, hp, rfl⟩ := h
  rw [resolvePathFromConfig_eq_join]
  cases habs : p.isAbsolute with
  | true => exact .inl (by rw [join_of_isAbsolute habs, habs])
  | false =>
    by_cases hdir : (configPath.parent.getD ⟨"."⟩).text = ""
    · exact .inr (.inl ⟨hdir, by rwa [join_of_empty hdir]⟩)
    · exact .inr (.inr ⟨hdir, p, components_join habs hdir⟩)

theorem Resolved.text_ne (h : Resolved configPath path) (hrel : path.isAbsolute = false) : path.text ≠ "" := by
  rcases h.cases with habs | ⟨-, h⟩ | ⟨hdir, p, hp⟩
  · rw [hrel] at habs
    cases habs
  · exact h
  · intro h
    rw [components_eq_nil.2 h] at hp
    exact hdir (components_eq_nil.1 (List.append_eq_nil_iff.1 hp.symm).1)

theorem Resolved.join_dot (h : Resolved configPath path) (hparent : configPath.parent = none) :
    (PathBuf.mk ".").join path ≈ path := by
  have hcases := h.cases
  rw [hparent] at hcases
  rcases hcases with habs | ⟨h, -⟩ | ⟨hdir, p, hp⟩
  · rw [join_of_isAbsolute habs]
  · exact absurd h (by decide)
  · have hfront := front_of_isPrefix ⟨_, hp.symm⟩ hdir
    refine (join_equiv_self (Bool.eq_false_iff.2 fun h => ?_) hdir).2 ?_
    · rw [isAbsolute_eq_front, ← hfront] at h
      cases h
    · rw [← hfront]
      decide

/-- Only an absolute path does not start with the config directory. -/
theorem Resolved.isAbsolute_of_stripPrefix {dir : PathBuf} (h : Resolved configPath path)
    (hparent : configPath.parent = some dir) (hstrip : path.stripPrefix dir = none) : path.isAbsolute = true := by
  have hnot : ¬ dir.components <+: path.components := by
    rw [← stripPrefix_isSome, hstrip]
    simp
  have hcases := h.cases
  rw [hparent] at hcases
  rcases hcases with habs | ⟨h, -⟩ | ⟨-, p, hp⟩
  · exact habs
  · exact absurd (components_eq_nil.2 h ▸ List.nil_prefix) hnot
  · exact absurd ⟨_, hp.symm⟩ hnot

theorem Resolved.join_dir_iff {dir : PathBuf} (h : Resolved configPath path) (heq : path ≈ dir) :
    dir.join path ≈ path ↔ (path.isAbsolute = false → names path.segments = []) := by
  cases hrel : path.isAbsolute with
  | true => exact iff_of_true (by rw [join_of_isAbsolute hrel]) nofun
  | false =>
    have hcomponents : path.components = dir.components := heq
    have hdir : dir.text ≠ "" := by
      rw [← components_eq_nil.ne, ← hcomponents, components_eq_nil.ne]
      exact h.text_ne hrel
    rw [join_equiv_self hrel hdir, ← hcomponents, components]
    simp

/-- Storing and resolving a path gives it back, unless it is the config directory under a relative name. -/
theorem resolve_pathForStorage (h : Resolved configPath path) :
    resolvePathFromConfig configPath ⟨pathForStorage configPath path⟩ ≈ path ↔
      (path.isAbsolute = false → ∀ dir ∈ configPath.parent, path ≈ dir → names path.segments = []) := by
  rw [resolvePathFromConfig_eq_join]
  unfold pathForStorage
  cases hparent : configPath.parent with
  | none => exact iff_of_true (h.join_dot hparent) fun _ _ h => nomatch h
  | some dir =>
    simp only [Option.getD_some, Option.mem_some_iff, forall_eq']
    cases hstrip : path.stripPrefix dir with
    | none =>
      have habs := h.isAbsolute_of_stripPrefix hparent hstrip
      refine iff_of_true ?_ fun hrel => by simp [habs] at hrel
      show dir.join path ≈ path
      rw [join_of_isAbsolute habs]
    | some r =>
      have hcomp := components_stripPrefix hstrip
      dsimp only
      split_ifs with hr
      · refine iff_of_true (join_stripPrefix hstrip) fun _ heq => ?_
        have hnil : r.components = [] := by
          rw [show path.components = dir.components from heq] at hcomp
          simpa using hcomp
        exact absurd (components_eq_nil.1 hnil) hr
      · have heq : path ≈ dir := by
          rw [components_eq_nil.2 (not_not.1 hr), List.append_nil] at hcomp
          exact hcomp
        rw [show (PathBuf.mk path.text) = path from rfl, h.join_dir_iff heq]
        simp only [heq, true_implies]

/-- What a default path has: it is relative, and has a name with a visible character. -/
structure VisiblePath (path : PathBuf) : Prop where
  relative : path.front = []
  visible : ∃ name c, .normal name ∈ path.components ∧ c ∈ name ∧ isWhitespace c = false

theorem visiblePath_default :
    VisiblePath ⟨defaultDbPath⟩ ∧ VisiblePath ⟨defaultExportDir⟩ ∧ VisiblePath ⟨defaultLogPath⟩ :=
  ⟨⟨by decide, "data".toList, 'd', by decide, by decide, by decide⟩,
    ⟨by decide, "exports".toList, 'e', by decide, by decide, by decide⟩,
    ⟨by decide, "logs".toList, 'l', by decide, by decide, by decide⟩⟩

theorem not_resolve_default (hdefault : VisiblePath ⟨default⟩) (hblank : trim (pathForStorage configPath path) = "") :
    ¬ resolvePathFromConfig configPath ⟨default⟩ ≈ path := by
  intro heq
  obtain ⟨name, c, hname, hc, hvisible⟩ := hdefault.visible
  have hnames : ∀ dir : PathBuf, (dir.join ⟨default⟩).components = dir.components ++ (PathBuf.mk default).components := by
    intro dir
    by_cases hdir : dir.text = ""
    · rw [join_of_empty hdir, components_eq_nil.2 hdir, List.nil_append]
    · rw [components_join (isAbsolute_of_front hdefault.relative) hdir, components.eq_def ⟨default⟩,
        hdefault.relative, List.nil_append]
  rw [resolvePathFromConfig_eq_join] at heq
  -- the visible character is in what is stored
  have hmem : c ∈ (pathForStorage configPath path).toList := by
    have hpath : c ∈ path.text.toList := by
      refine mem_text_of_normal ?_ hc
      rw [← show _ = path.components from heq, hnames]
      exact List.mem_append_right _ hname
    unfold pathForStorage
    cases hparent : configPath.parent with
    | none => exact hpath
    | some dir =>
      dsimp only
      cases hstrip : path.stripPrefix dir with
      | none => exact hpath
      | some r =>
        dsimp only
        split_ifs
        · have hcomp := components_stripPrefix hstrip
          rw [← show _ = path.components from heq, hparent, Option.getD_some, hnames, List.append_cancel_left_eq]
            at hcomp
          exact mem_text_of_normal (hcomp ▸ hname) hc
        · exact hpath
  simp [trimBy_eq_empty.1 hblank _ hmem] at hvisible

/-- A path is the same after storing and loading it if and only if it is storable. -/
theorem reload_path_iff (h : Resolved configPath path) (hdefault : VisiblePath ⟨default⟩) :
    resolvePathFromConfig configPath ⟨(normalizeStoredPath (pathForStorage configPath path) default).1⟩ ≈ path ↔
      Storable configPath path := by
  unfold normalizeStoredPath
  split_ifs with hblank
  · exact iff_of_false (not_resolve_default hdefault hblank) fun h => h.not_blank hblank
  · rw [resolve_pathForStorage h]
    exact ⟨fun h => ⟨hblank, h⟩, fun h => h.not_dir⟩

end Paths

/-! ### Configs -/

section Configs

variable {admin : Bool} {gen gen' : Generated} {env env' : FileEnv} {configPath : PathBuf}
  {file file' file₁ file₂ : ConfigFile} {c u u' : ServerConfig} {patch : ConfigPatch}

theorem expandLegacy_eq_iff {l : List String} :
    expandLegacy l = l ↔ isLegacySingleStackDefaultSyncListen l = false := by
  unfold expandLegacy
  split_ifs with h
  · refine iff_of_false (fun hl => ?_) (by simp [h])
    rw [← hl] at h
    exact absurd h (by decide)
  · simpa using h

/-- What reading the file of a valid config gives. -/
def reloadedStored (admin : Bool) (gen : Generated) (c : ServerConfig) : StoredConfig :=
  normalizeFields admin gen (.fromServerConfig c) (expandLegacy c.syncListen) c.adminListen

/-- The texts of a valid config are not changed. -/
theorem reloadedStored_texts (gen : Generated) (hu : u.Valid admin) :
    (reloadedStored admin gen u).logLevel = u.logLevel ∧ (reloadedStored admin gen u).syncToken = u.syncToken ∧
      (reloadedStored admin gen u).adminPasswordHash = u.adminPasswordHash ∧
      (reloadedStored admin gen u).adminSessionSecret = u.adminSessionSecret := by
  simp only [reloadedStored, normalizeFields, StoredConfig.fromServerConfig]
  refine ⟨?_, ?_, ?_, ?_⟩
  · simp [normalizeLogLevel, hu.logLevel]
  · simp [normalizeSyncToken, hu.syncToken]
  · cases hhash : u.adminPasswordHash with
    | none => rfl
    | some hash => simp [normalizePasswordHash, hu.adminPasswordHash hash hhash]
  · unfold normalizeSessionSecret
    rw [hu.adminSessionSecret, if_neg fun h => hu.adminSessionSecret_ne h.1 h.2]

theorem reloadedStored_dbPath : (reloadedStored admin gen u).dbPath =
    (normalizeStoredPath (pathForStorage u.configPath u.dbPath) defaultDbPath).1 := by
  simp only [reloadedStored, normalizeFields, StoredConfig.fromServerConfig]

theorem reloadedStored_exportDir : (reloadedStored admin gen u).exportDir =
    (normalizeStoredPath (pathForStorage u.configPath u.exportDir) defaultExportDir).1 := by
  simp only [reloadedStored, normalizeFields, StoredConfig.fromServerConfig]

theorem reloadedStored_logPath : (reloadedStored admin gen u).logPath =
    (normalizeStoredPath (pathForStorage u.configPath u.logPath) defaultLogPath).1 := by
  simp only [reloadedStored, normalizeFields, StoredConfig.fromServerConfig]

theorem parse_document (gen : Generated) (hu : u.Valid admin) : ∃ needsWrite,
    parseStoredConfig admin gen (.toml u.document) = .ok (reloadedStored admin gen u, needsWrite) := by
  have hsync : ∃ c₁, normalizeSyncListen (.fromServerConfig u) = .ok (expandLegacy u.syncListen, c₁) := by
    refine normalizeSyncListen_eq_ok.2 ⟨u.syncListen, ?_, rfl⟩
    rw [migratedSyncListen, if_neg (show (StoredConfig.fromServerConfig u).syncListen ≠ [] from hu.syncListen_ne)]
    exact normalizeListenAddresses_eq_self hu.syncListen hu.syncListen_ne
  have hadm : ∃ c₂, normalizeStoredAdminListen admin (.fromServerConfig u) = .ok (u.adminListen, c₂) := by
    refine normalizeStoredAdminListen_eq_ok.2 ?_
    rw [if_neg fun h => hu.adminListen.nonempty h.2 h.1]
    exact hu.adminListen.normalize_eq
  obtain ⟨c₁, hsync⟩ := hsync
  obtain ⟨c₂, hadm⟩ := hadm
  have hpath : ∀ path default : String, trim default ≠ "" → trim (normalizeStoredPath path default).1 ≠ "" := by
    intro path default hdefault
    unfold normalizeStoredPath
    split_ifs with h
    · exact hdefault
    · exact h
  obtain ⟨hlevel, htoken, -, hsecret⟩ := reloadedStored_texts gen hu
  have hblank : (reloadedStored admin gen u).NotBlank admin := {
    dbPath := by rw [reloadedStored_dbPath]; exact hpath _ _ (by decide)
    exportDir := by rw [reloadedStored_exportDir]; exact hpath _ _ (by decide)
    logPath := by rw [reloadedStored_logPath]; exact hpath _ _ (by decide)
    logLevel := by rw [hlevel, hu.logLevel.1]; exact hu.logLevel.2
    syncToken := by rw [htoken, hu.syncToken.1]; exact hu.syncToken.2
    adminSessionSecret := fun h => by rw [hsecret, hu.adminSessionSecret]; exact hu.adminSessionSecret_ne h }
  refine ⟨false || (c₁ || c₂ || fieldsChanged admin gen (.fromServerConfig u)), ?_⟩
  refine Except.bind_eq_ok.2 ⟨(.fromServerConfig u, false), ?_, Except.bind_eq_ok.2
    ⟨_, normalizeStoredConfig_eq_ok.2 ⟨_, c₁, _, c₂, hsync, hadm, rfl, hblank, rfl⟩, rfl⟩⟩
  exact Except.map_eq_ok.2 ⟨_, deserialize_serialize _, rfl⟩

theorem exists_reload (gen : Generated) (hu : u.Valid admin) :
    ∃ u' file', exec (loadOrCreateConfig admin gen .calm u.configPath .default) (.toml u.document) = (.ok u', file') ∧
      serverConfig admin u.configPath .default (reloadedStored admin gen u) = .ok u' := by
  obtain ⟨needsWrite, hparse⟩ := parse_document gen hu
  obtain ⟨u', hu', -⟩ := (parseStoredConfig_normalized hparse).exists_serverConfig u.configPath
  exact ⟨u', _, exec_loadOrCreateConfig_ok.2 ⟨_, exec_loadOrCreateStoredConfig_ok.2
    ⟨needsWrite, by simp [readable, FileEnv.calm], hparse, fun _ => writable_calm, rfl⟩, hu'⟩, hu'⟩

/-- What has to hold of a valid config for it to come back from its file. -/
structure Reloads (configPath : PathBuf) (syncListen : List String) (dbPath exportDir logPath : PathBuf) : Prop where
  syncListen : isLegacySingleStackDefaultSyncListen syncListen = false
  dbPath : Storable configPath dbPath
  exportDir : Storable configPath exportDir
  logPath : Storable configPath logPath

theorem same_reload_iff (hu : u.Valid admin)
    (hu' : serverConfig admin u.configPath .default (reloadedStored admin gen u) = .ok u') :
    u'.Same u ↔ Reloads u.configPath u.syncListen u.dbPath u.exportDir u.logPath := by
  obtain ⟨hlevel, htoken, hhash, hsecret⟩ := reloadedStored_texts gen hu
  obtain ⟨hpath', hsync', hadm', hdb', hexport', hlog', hlevel', htoken', -, hhash', hsecret'⟩ :=
    serverConfig_eq_ok.1 hu'
  rw [hlevel, hu.logLevel.1] at hlevel'
  rw [htoken] at htoken'
  rw [hhash] at hhash'
  rw [hsecret, hu.adminSessionSecret] at hsecret'
  have hsync : u'.syncListen = u.syncListen ↔ isLegacySingleStackDefaultSyncListen u.syncListen = false := by
    have hlist : ListenList (expandLegacy u.syncListen) ∧ expandLegacy u.syncListen ≠ [] := by
      unfold expandLegacy
      split_ifs
      · exact ⟨listenList_default, by decide⟩
      · exact ⟨hu.syncListen, hu.syncListen_ne⟩
    have hsync' : normalizeListenAddresses "sync_listen" (expandLegacy u.syncListen) = .ok u'.syncListen := hsync'
    rw [normalizeListenAddresses_eq_self hlist.1 hlist.2] at hsync'
    rw [← expandLegacy_eq_iff, Except.ok.inj hsync']
  have hadm : u'.adminListen = u.adminListen := Except.ok.inj (hadm'.symm.trans hu.adminListen.normalize_eq)
  have hdb : u'.dbPath ≈ u.dbPath ↔ Storable u.configPath u.dbPath := by
    rw [hdb', show ConfigOverrides.default.dbPath.getD _ = _ from rfl, reloadedStored_dbPath]
    exact reload_path_iff hu.dbPath visiblePath_default.1
  have hexport : u'.exportDir ≈ u.exportDir ↔ Storable u.configPath u.exportDir := by
    rw [hexport', reloadedStored_exportDir]
    exact reload_path_iff hu.exportDir visiblePath_default.2.1
  have hlog : u'.logPath ≈ u.logPath ↔ Storable u.configPath u.logPath := by
    rw [hlog', reloadedStored_logPath]
    exact reload_path_iff hu.logPath visiblePath_default.2.2
  constructor
  · intro h
    exact ⟨hsync.1 h.syncListen, hdb.1 h.dbPath, hexport.1 h.exportDir, hlog.1 h.logPath⟩
  · intro h
    exact ⟨by rw [hpath'], hsync.2 h.syncListen, hadm, hdb.2 h.dbPath, hexport.2 h.exportDir, hlog.2 h.logPath,
      hlevel', htoken'.trans hu.syncToken.1, hhash', hsecret'⟩

theorem valid_of_load (h : exec (loadOrCreateConfig admin gen env configPath .default) file = (.ok c, file₁)) :
    c.Valid admin ∧ c.configPath = configPath ∧ isLegacySingleStackDefaultSyncListen c.syncListen = false := by
  obtain ⟨stored, hstored, hc⟩ := exec_loadOrCreateConfig_ok.1 h
  have hnorm := normalized_of_load hstored
  refine ⟨hnorm.valid (by nofun) hc, (serverConfig_eq_ok.1 hc).1, ?_⟩
  have hsync : normalizeListenAddresses "sync_listen" stored.syncListen = .ok c.syncListen :=
    (serverConfig_eq_ok.1 hc).2.1
  rw [normalizeListenAddresses_eq_self hnorm.syncListen hnorm.syncListen_ne] at hsync
  rw [← Except.ok.inj hsync]
  exact hnorm.not_legacy

theorem patchedPath_eq {fieldName : String} {current path : PathBuf} {value : Option PathBuf}
    (h : patchField current value (normalizePatchPath configPath fieldName) = .ok path) :
    path = patchedPath configPath current value := by
  rcases patchField_eq_ok.1 h with ⟨rfl, rfl⟩ | ⟨p, rfl, hp⟩
  · rfl
  · exact (normalizePatchPath_eq_ok.1 hp).2

/-- The addresses that a patch sets are no lone default address of the old servers. -/
def ConfigPatch.NotLegacy (patch : ConfigPatch) : Prop :=
  ∀ l ∈ patch.listen, ∀ n, normalizeListenAddresses "sync_listen" l = .ok n →
    isLegacySingleStackDefaultSyncListen n = false

/-- A config that was loaded, patched and written is the same when it is loaded again if and only if the
patch sets no lone default address and the paths are storable. -/
theorem reload_patched_iff
    (hload : exec (loadOrCreateConfig admin gen env configPath .default) file = (.ok c, file₁))
    (hpatch : exec (applyAndPersistConfig admin env' c patch) file₁ = (.ok u, file₂)) :
    (∃ u' file₃, exec (loadOrCreateConfig admin gen' .calm configPath .default) file₂ = (.ok u', file₃) ∧
        u'.Same u) ↔
      patch.NotLegacy ∧ Storable configPath (patchedPath configPath c.dbPath patch.dbPath) ∧
        Storable configPath (patchedPath configPath c.exportDir patch.exportDir) ∧
        Storable configPath (patchedPath configPath c.logPath patch.logPath) := by
  obtain ⟨hc, rfl, hnot⟩ := valid_of_load hload
  obtain ⟨hu, -, rfl⟩ := exec_applyAndPersistConfig_ok.1 hpatch
  obtain ⟨hpath, hsync, -, hdb, hexport, hlog, -⟩ := applyConfigPatch_eq_ok.1 hu
  obtain ⟨u', file₃, hreload, hu'⟩ := exists_reload gen' (hc.apply hu)
  have hsame := same_reload_iff (hc.apply hu) hu'
  rw [hpath, patchedPath_eq hdb, patchedPath_eq hexport, patchedPath_eq hlog] at hsame
  have hlegacy : isLegacySingleStackDefaultSyncListen u.syncListen = false ↔ patch.NotLegacy := by
    unfold ConfigPatch.NotLegacy
    rcases patchField_eq_ok.1 hsync with ⟨hnone, hkeep⟩ | ⟨l, hsome, hl⟩
    · simp [hnone, hkeep, hnot]
    · simp [hsome, hl]
  rw [hpath] at hreload
  constructor
  · rintro ⟨v, file₄, hv, hvu⟩
    obtain ⟨h, -⟩ := Prod.mk.inj (hreload.symm.trans hv)
    obtain rfl := Except.ok.inj h
    obtain ⟨h, hdb, hexport, hlog⟩ := hsame.1 hvu
    exact ⟨hlegacy.1 h, hdb, hexport, hlog⟩
  · rintro ⟨h, hdb, hexport, hlog⟩
    exact ⟨u', file₃, hreload, hsame.2 ⟨hlegacy.2 h, hdb, hexport, hlog⟩⟩

/-- A new log file, by a relative path. -/
theorem reload_patched_log : ∃ u file₂,
    exec (applyAndPersistConfig true .calm firstConfig { ConfigPatch.default with logPath := some ⟨"new.log"⟩ })
      (.toml firstConfig.document) = (.ok u, file₂) ∧
    ∃ u' file₃, exec (loadOrCreateConfig true ⟨"t", "s"⟩ .calm firstConfig.configPath .default) file₂ =
      (.ok u', file₃) ∧ u'.Same u := by
  have hpatch : exec (applyAndPersistConfig true .calm firstConfig
      { ConfigPatch.default with logPath := some ⟨"new.log"⟩ }) (.toml firstConfig.document) =
        (.ok { firstConfig with logPath := ⟨"/srv/new.log"⟩ },
          .toml { firstConfig with logPath := ⟨"/srv/new.log"⟩ }.document) := rfl
  refine ⟨_, _, hpatch, (reload_patched_iff load_firstConfig hpatch).2 ?_⟩
  refine ⟨fun _ hl => (nomatch hl), ⟨by decide, fun h => ?_⟩, ⟨by decide, fun h => ?_⟩, by decide, fun h => ?_⟩ <;>
    exact absurd h (by decide)

/-- The server is told to listen on IPv4 only, and listens on both after the next start. -/
theorem single_stack_not_reloaded : ∃ u file₂ u' file₃,
    exec (loadOrCreateConfig true ⟨"t", "s"⟩ .calm firstConfig.configPath .default) .missing =
      (.ok firstConfig, .toml firstConfig.document) ∧
    exec (applyAndPersistConfig true .calm firstConfig { ConfigPatch.default with listen := some ["0.0.0.0:8787"] })
      (.toml firstConfig.document) = (.ok u, file₂) ∧
    exec (loadOrCreateConfig true ⟨"t", "s"⟩ .calm firstConfig.configPath .default) file₂ = (.ok u', file₃) ∧
    ¬ u'.Same u := by
  refine ⟨{ firstConfig with syncListen := ["0.0.0.0:8787"] }, _, firstConfig, .toml firstConfig.document,
    load_firstConfig, rfl, rfl, fun h => ?_⟩
  exact absurd h.syncListen (by decide)

end Configs
end FloralSync

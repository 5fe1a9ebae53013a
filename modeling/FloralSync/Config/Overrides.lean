import FloralSync.Config.Fields

/-!
# Command-line overrides and the config file

The overrides of a start are in the config that the server keeps as its persisted one, so the first patch
writes them to the file, whatever it is about. What gets there is told exactly by `serve_file_eq_iff`: an
override stays out of the file if and only if no patch is applied, or a patch sets its field, or the file
says the same anyway (`Harmless`).
-/

namespace FloralSync

open Rust Stateful

/-- A server's life as far as its config goes: it loads the config, then applies patches to it. -/
def serve (admin : Bool) (gen : Generated) (env : FileEnv) (configPath : PathBuf) (overrides : ConfigOverrides)
    (patches : List (FileEnv × ConfigPatch)) : ConfigM RuntimeConfigState := do
  let config ← loadOrCreateConfig admin gen env configPath overrides
  applyPatches admin patches (.new config)

/-- What is overridden is set by a patch, or the same as in the file. -/
structure Harmless (configPath : PathBuf) (overrides : ConfigOverrides) (stored : StoredConfig)
    (patches : List (FileEnv × ConfigPatch)) : Prop where
  listen : ∀ l ∈ overrides.listen, setsSome patches .listen ∨
    normalizeListenAddresses "sync_listen" l = normalizeListenAddresses "sync_listen" stored.syncListen
  dbPath : ∀ p ∈ overrides.dbPath, setsSome patches .dbPath ∨
    pathForStorage configPath (resolvePathFromConfig configPath p) =
      pathForStorage configPath (resolvePathFromConfig configPath ⟨stored.dbPath⟩)
  token : ∀ t ∈ overrides.token, setsSome patches .token ∨ trim t = trim stored.syncToken

section Serve

variable {admin : Bool} {gen : Generated} {env : FileEnv} {configPath : PathBuf} {overrides : ConfigOverrides}
  {patches : List (FileEnv × ConfigPatch)} {file file' : ConfigFile} {state : RuntimeConfigState}
  {stored : StoredConfig} {c c₀ : ServerConfig}

theorem exec_serve : exec (serve admin gen env configPath overrides patches) file = (.ok state, file') ↔
    ∃ c file₁, exec (loadOrCreateConfig admin gen env configPath overrides) file = (.ok c, file₁) ∧
      exec (applyPatches admin patches (.new c)) file₁ = (.ok state, file') :=
  exec_bind_ok

/-- Besides the overridden fields, overrides change nothing. -/
theorem entry_serverConfig (h : serverConfig admin configPath overrides stored = .ok c)
    (h₀ : serverConfig admin configPath .default stored = .ok c₀) :
    (c.entry .listen = c₀.entry .listen ↔ ∀ l ∈ overrides.listen,
      normalizeListenAddresses "sync_listen" l = normalizeListenAddresses "sync_listen" stored.syncListen) ∧
    (c.entry .dbPath = c₀.entry .dbPath ↔ ∀ p ∈ overrides.dbPath,
      pathForStorage configPath (resolvePathFromConfig configPath p) =
        pathForStorage configPath (resolvePathFromConfig configPath ⟨stored.dbPath⟩)) ∧
    (c.entry .token = c₀.entry .token ↔ ∀ t ∈ overrides.token, trim t = trim stored.syncToken) ∧
    (∀ field, field ≠ .listen → field ≠ .dbPath → field ≠ .token → c.entry field = c₀.entry field) ∧
    c.configPath = c₀.configPath ∧ c.adminSessionSecret = c₀.adminSessionSecret := by
  obtain ⟨hpath, hsync, hadm, hdb, hexport, hlog, hlevel, htoken, -, hhash, hsecret⟩ := serverConfig_eq_ok.1 h
  obtain ⟨hpath₀, hsync₀, hadm₀, hdb₀, hexport₀, hlog₀, hlevel₀, htoken₀, -, hhash₀, hsecret₀⟩ :=
    serverConfig_eq_ok.1 h₀
  have hadm' : c.adminListen = c₀.adminListen := Except.ok.inj (hadm.symm.trans hadm₀)
  simp only [ServerConfig.entry, Option.some.injEq, TomlValue.strings.injEq, TomlValue.string.injEq]
  refine ⟨?_, ?_, ?_, ?_, hpath.trans hpath₀.symm, hsecret.trans hsecret₀.symm⟩
  · rw [← Except.ok.injEq (ε := ConfigError), ← hsync, ← hsync₀]
    cases overrides.listen <;> simp [ConfigOverrides.default]
  · rw [hpath, hpath₀, hdb, hdb₀]
    cases overrides.dbPath <;> simp [ConfigOverrides.default]
  · rw [htoken, htoken₀]
    cases overrides.token <;> simp [ConfigOverrides.default]
  · intro field h₁ h₂ h₃
    cases field <;> simp_all

theorem harmless_iff (h : serverConfig admin configPath overrides stored = .ok c)
    (h₀ : serverConfig admin configPath .default stored = .ok c₀) :
    Harmless configPath overrides stored patches ↔
      ∀ field, setsSome patches field ∨ c.entry field = c₀.entry field := by
  obtain ⟨hlisten, hdb, htoken, hother, -⟩ := entry_serverConfig h h₀
  constructor
  · rintro ⟨h₁, h₂, h₃⟩ field
    rw [or_iff_not_imp_left]
    intro hset
    by_cases hl : field = .listen
    · subst hl
      exact hlisten.2 fun l hl => (h₁ l hl).resolve_left hset
    by_cases hd : field = .dbPath
    · subst hd
      exact hdb.2 fun p hp => (h₂ p hp).resolve_left hset
    by_cases ht : field = .token
    · subst ht
      exact htoken.2 fun t ht => (h₃ t ht).resolve_left hset
    · exact hother field hl hd ht
  · intro h
    exact ⟨fun l hl => (h .listen).imp_right fun h => hlisten.1 h l hl,
      fun p hp => (h .dbPath).imp_right fun h => hdb.1 h p hp,
      fun t ht => (h .token).imp_right fun h => htoken.1 h t ht⟩

/-- The same start without overrides, with the same patches: it succeeds, and it leaves the same file if
and only if there was no patch or the overrides are harmless. -/
theorem serve_file_eq_iff
    (h : exec (serve admin gen env configPath overrides patches) file = (.ok state, file')) :
    ∃ state₀ file₀ stored needsWrite, parseStoredConfig admin gen file = .ok (stored, needsWrite) ∧
      exec (serve admin gen env configPath .default patches) file = (.ok state₀, file₀) ∧
      (file' = file₀ ↔ patches = [] ∨ Harmless configPath overrides stored patches) := by
  obtain ⟨c, file₁, hload, hpatches⟩ := exec_serve.1 h
  obtain ⟨stored, hstored, hc⟩ := exec_loadOrCreateConfig_ok.1 hload
  obtain ⟨c₀, hc₀, -⟩ := (normalized_of_load hstored).exists_serverConfig configPath
  obtain ⟨-, -, -, -, hpath, hsecret⟩ := entry_serverConfig hc hc₀
  obtain ⟨state₀, file₀, hpatches₀, hagree⟩ := exists_applyPatches (.new c₀) hpatches hpath.symm file₁
  obtain ⟨needsWrite, -, hparse, -⟩ := exec_loadOrCreateStoredConfig_ok.1 hstored
  refine ⟨state₀, file₀, stored, needsWrite, hparse, exec_serve.2 ⟨c₀, file₁,
    exec_loadOrCreateConfig_ok.2 ⟨stored, hstored, hc₀⟩, hpatches₀⟩, ?_⟩
  rw [file_of_applyPatches hpatches, file_of_applyPatches hpatches₀]
  split_ifs with hnil
  · simp [hnil]
  · simp only [hnil, false_or, ConfigFile.toml.injEq]
    rw [document_eq_iff, harmless_iff hc hc₀]
    constructor
    · rintro ⟨h, -⟩ field
      rw [or_iff_not_imp_left]
      intro hset
      have hfield := h field
      rwa [entry_of_applyPatches hpatches hset, entry_of_applyPatches hpatches₀ hset] at hfield
    · intro h
      refine ⟨fun field => ?_, ?_⟩
      · by_cases hset : setsSome patches field
        · exact (hagree field hset).symm
        · rw [entry_of_applyPatches hpatches hset, entry_of_applyPatches hpatches₀ hset]
          exact (h field).resolve_left hset
      · rw [(fixed_of_applyPatches hpatches).2, (fixed_of_applyPatches hpatches₀).2]
        exact hsecret

/-- A first start with `--listen`, and a patch that sets the addresses. -/
theorem serve_file_eq_of_listen : ∃ state state₀ file₁,
    exec (serve true ⟨"t", "s"⟩ .calm firstConfig.configPath
      { ConfigOverrides.default with listen := some ["127.0.0.1:9000"] }
      [(.calm, { ConfigPatch.default with listen := some ["127.0.0.1:9001"] })]) .missing = (.ok state, file₁) ∧
    exec (serve true ⟨"t", "s"⟩ .calm firstConfig.configPath .default
      [(.calm, { ConfigPatch.default with listen := some ["127.0.0.1:9001"] })]) .missing = (.ok state₀, file₁) := by
  have hserve : exec (serve true ⟨"t", "s"⟩ .calm firstConfig.configPath
      { ConfigOverrides.default with listen := some ["127.0.0.1:9000"] }
      [(.calm, { ConfigPatch.default with listen := some ["127.0.0.1:9001"] })]) .missing =
        (.ok ⟨{ firstConfig with syncListen := ["127.0.0.1:9000"] },
          { firstConfig with syncListen := ["127.0.0.1:9001"] }⟩,
        .toml { firstConfig with syncListen := ["127.0.0.1:9001"] }.document) := rfl
  obtain ⟨state₀, file₀, stored, _, -, h, hfile⟩ := serve_file_eq_iff hserve
  refine ⟨_, state₀, _, hserve, ?_⟩
  rw [hfile.2 (.inr ⟨fun l hl => .inl ⟨_, List.mem_singleton.2 rfl, rfl⟩, fun _ hp => (nomatch hp),
    fun _ ht => (nomatch ht)⟩)]
  exact h

/-- A first start with `--listen`, and a change of the log level. -/
theorem override_reaches_file : ∃ state state₀ file₁ file₀,
    exec (serve true ⟨"t", "s"⟩ .calm firstConfig.configPath
      { ConfigOverrides.default with listen := some ["127.0.0.1:9000"] }
      [(.calm, { ConfigPatch.default with logLevel := some "debug" })]) .missing = (.ok state, file₁) ∧
    exec (serve true ⟨"t", "s"⟩ .calm firstConfig.configPath .default
      [(.calm, { ConfigPatch.default with logLevel := some "debug" })]) .missing = (.ok state₀, file₀) ∧
    file₁ ≠ file₀ := by
  refine ⟨⟨{ firstConfig with syncListen := ["127.0.0.1:9000"], logLevel := "debug" },
      { firstConfig with syncListen := ["127.0.0.1:9000"], logLevel := "debug" }⟩,
    ⟨{ firstConfig with logLevel := "debug" }, { firstConfig with logLevel := "debug" }⟩,
    .toml { firstConfig with syncListen := ["127.0.0.1:9000"], logLevel := "debug" }.document,
    .toml { firstConfig with logLevel := "debug" }.document, rfl, rfl, ?_⟩
  decide

end Serve
end FloralSync

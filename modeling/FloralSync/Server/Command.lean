import FloralSync.Server.Lifecycle

/-!
# The command line (`main.rs`)

The arguments of a start hold for one run, those of `config set` for all later ones. `config set` takes what a start
takes, save an empty database path, and writes the config that such a start would run with. The next start has this
config again if and only if it `Reloads` (`start_after_set`).
-/

namespace FloralSync.Main

open Rust Except Stateful

structure SetArgs where
  listen : List String
  dbPath : Option PathBuf
  token : Option String
  generateToken : Bool
  /-- `conflicts_with` -/
  exclusive : generateToken = true → token = none

inductive ConfigCommand
  | show
  | set (args : SetArgs)

structure Cli where
  config : Option PathBuf
  listen : List String
  dbPath : Option PathBuf
  token : Option String
  /-- `Command::Config` -/
  command : Option ConfigCommand

/-- What a process meets before it serves: the files, new tokens, and what `config set` needs. -/
structure CommandEnv where
  file : FileEnv
  generated : Generated
  generateToken : String
  /-- Whether the config can be read to be printed. -/
  readToString : Bool
  defaultConfigPath : Except ConfigError PathBuf

abbrev CommandM := ExceptT MainError (StateM ConfigFile)

def toOptionalListen (addresses : List String) : Option (List String) :=
  if addresses = [] then none else some addresses

/-- `fs::read_to_string` of the config path, as what is printed. -/
def readToString (env : CommandEnv) : CommandM ConfigFile := do
  if !env.readToString then throw .io
  get

def SetArgs.newToken (args : SetArgs) (generateToken : String) : Option String :=
  if args.generateToken then some generateToken else args.token

def SetArgs.patch (args : SetArgs) (generateToken : String) : ConfigPatch :=
  { ConfigPatch.default with
    listen := toOptionalListen args.listen
    dbPath := args.dbPath
    token := args.newToken generateToken }

def handleConfigCommand (admin : Bool) (env : CommandEnv) (configPath : PathBuf) : ConfigCommand → CommandM ConfigFile
  | .show => do
    let _ ← ExceptT.adapt .config (loadOrCreateConfig admin env.generated env.file configPath .default)
    readToString env
  | .set args => do
    let _ ← ExceptT.adapt .config
      (updateConfigFile admin env.generated env.file configPath (args.patch env.generateToken))
    readToString env

def Cli.overrides (cli : Cli) : ConfigOverrides := ⟨toOptionalListen cli.listen, cli.dbPath, cli.token⟩

/-- What a process does, unless it fails first. -/
inductive Outcome
  | printed (contents : ConfigFile)
  | serving (config : ServerConfig) (store : SyncStore) (listeners : List String)

/-- The default path is asked for even where the arguments give one. -/
def Cli.configPath (env : CommandEnv) (cli : Cli) : Except MainError PathBuf := do
  let default ← env.defaultConfigPath.mapError .config
  return cli.config.getD default

/-- `run`, up to the tasks. -/
def run (admin : Bool) (env : CommandEnv) (net : Network) (source : PathBuf → SourceFile) (cli : Cli) :
    CommandM Outcome := do
  let configPath ← liftExcept (cli.configPath env)
  match cli.command with
  | some command => .printed <$> handleConfigCommand admin env configPath command
  | none =>
    let config ← ExceptT.adapt .config
      (loadOrCreateConfig admin env.generated env.file configPath cli.overrides)
    let (store, listeners) ← liftExcept (start admin net (source config.dbPath) config)
    return .serving config store listeners

/-- `config set` -/
def SetArgs.cli (args : SetArgs) (config : Option PathBuf) : Cli := ⟨config, [], none, none, some (.set args)⟩

/-- A start with the same arguments. -/
def SetArgs.overrides (args : SetArgs) (generateToken : String) : ConfigOverrides :=
  ⟨toOptionalListen args.listen, args.dbPath, args.newToken generateToken⟩

section Set

variable {admin : Bool} {gen gen' : Generated} {fails : FileEnv} {token : String} {configPath : PathBuf}
  {args : SetArgs} {stored : StoredConfig} {c c₀ u : ServerConfig} {file file₁ file₂ : ConfigFile}

theorem patchField_eq_ok_iff_getD {α β : Type} {current b : β} {a : α} {normalize : α → Except ConfigError β}
    (h : normalize a = .ok current) {value : Option α} :
    patchField current value normalize = .ok b ↔ normalize (value.getD a) = .ok b := by
  cases value with
  | none => rw [Option.getD_none, h]; rfl
  | some value => rfl

/-- A patch takes what a start takes, but for an empty path. -/
theorem applyConfigPatch_patch (h : serverConfig admin configPath .default stored = .ok c₀) :
    applyConfigPatch admin c₀ (args.patch token) = .ok u ↔
      serverConfig admin configPath (args.overrides token) stored = .ok u ∧ ∀ p ∈ args.dbPath, p.text ≠ "" := by
  obtain ⟨hpath, hsync, hadm, hdb, hexport, hlog, hlevel, htoken, hne, hhash, hsecret⟩ := serverConfig_eq_ok.1 h
  replace hdb : c₀.dbPath = resolvePathFromConfig configPath ⟨stored.dbPath⟩ := hdb
  replace htoken : c₀.syncToken = trim stored.syncToken := htoken
  have hkeep : ∀ {α β : Type} {current b : β} {normalize : α → Except ConfigError β},
      patchField current none normalize = .ok b ↔ b = current := fun {_ _ current b _} => by
    rw [patchField, Except.ok.injEq, eq_comm]
  have hlisten : patchField c₀.syncListen (args.patch token).listen (normalizeListenAddresses "sync_listen") =
      .ok u.syncListen ↔ normalizeListenAddresses "sync_listen"
        ((args.overrides token).listen.getD stored.syncListen) = .ok u.syncListen := patchField_eq_ok_iff_getD hsync
  have hdbPath : patchField c₀.dbPath (args.patch token).dbPath (normalizePatchPath c₀.configPath "db_path") =
      .ok u.dbPath ↔ u.dbPath = resolvePathFromConfig configPath ((args.overrides token).dbPath.getD ⟨stored.dbPath⟩) ∧
        ∀ p ∈ args.dbPath, p.text ≠ "" := by
    rw [hpath]
    show patchField c₀.dbPath args.dbPath _ = _ ↔ _ = resolvePathFromConfig configPath (args.dbPath.getD _) ∧ _
    cases args.dbPath with
    | none => rw [hkeep, hdb]; simp
    | some p => simp [patchField, normalizePatchPath_eq_ok, and_comm]
  have hsyncToken : patchField c₀.syncToken (args.patch token).token (normalizePatchText "sync_token") =
      .ok u.syncToken ↔ u.syncToken = trim ((args.overrides token).token.getD stored.syncToken) ∧ u.syncToken ≠ "" := by
    show patchField c₀.syncToken (args.newToken token) _ = _ ↔ _ = trim ((args.newToken token).getD _) ∧ _
    cases args.newToken token with
    | none =>
      rw [hkeep, Option.getD_none, ← htoken]
      exact ⟨fun h => ⟨h, h ▸ hne⟩, fun h => h.1⟩
    | some value =>
      simp only [patchField, normalizePatchText_eq_ok, Option.getD_some]
      exact ⟨fun h => ⟨h.2, h.2 ▸ h.1⟩, fun h => ⟨h.1 ▸ h.2, h.1⟩⟩
  rw [applyConfigPatch_eq_ok, serverConfig_eq_ok, hlisten, hdbPath, hsyncToken]
  show _ ∧ _ ∧ patchField _ none _ = _ ∧ _ ∧ patchField _ none _ = _ ∧ patchField _ none _ = _ ∧
    patchField _ none _ = _ ∧ _ ∧ patchField _ none _ = _ ∧ _ ↔ _
  rw [hkeep, hkeep, hkeep, hkeep, hkeep, hpath, hexport, hlog, hlevel, hhash, hsecret, hadm, Except.ok.injEq]
  constructor
  · rintro ⟨h₁, h₂, h₃, ⟨h₄, h₅⟩, h₆, h₇, h₈, ⟨h₉, h₁₀⟩, h₁₁, h₁₂⟩
    exact ⟨⟨h₁, h₂, h₃.symm, h₄, h₆, h₇, h₈, h₉, h₁₀, h₁₁, h₁₂⟩, h₅⟩
  · rintro ⟨⟨h₁, h₂, h₃, h₄, h₆, h₇, h₈, h₉, h₁₀, h₁₁, h₁₂⟩, h₅⟩
    exact ⟨h₁, h₂, h₃.symm, ⟨h₄, h₅⟩, h₆, h₇, h₈, ⟨h₉, h₁₀⟩, h₁₁, h₁₂⟩

theorem exec_updateConfigFile_ok :
    exec (updateConfigFile admin gen fails configPath (args.patch token)) file = (.ok u, file₂) ↔
      (∃ file₁, exec (loadOrCreateConfig admin gen fails configPath (args.overrides token)) file = (.ok u, file₁)) ∧
        (∀ p ∈ args.dbPath, p.text ≠ "") ∧ writable fails configPath = true ∧ file₂ = .toml u.document := by
  simp only [updateConfigFile, exec_bind_ok, exec_loadOrCreateConfig_ok, exec_applyAndPersistConfig_ok]
  constructor
  · rintro ⟨c₀, file₁, ⟨stored, hstored, h₀⟩, hpatch, hwritable, rfl⟩
    obtain ⟨hu, hne⟩ := (applyConfigPatch_patch h₀).1 hpatch
    rw [(serverConfig_eq_ok.1 h₀).1] at hwritable
    exact ⟨⟨file₁, stored, hstored, hu⟩, hne, hwritable, rfl⟩
  · rintro ⟨⟨file₁, stored, hstored, hu⟩, hne, hwritable, rfl⟩
    obtain ⟨c₀, h₀, -⟩ := (normalized_of_load hstored).exists_serverConfig configPath
    rw [← (serverConfig_eq_ok.1 h₀).1] at hwritable
    exact ⟨c₀, file₁, ⟨stored, hstored, h₀⟩, (applyConfigPatch_patch h₀).2 ⟨hu, hne⟩, hwritable, rfl⟩

section Run

variable {env : CommandEnv} {net : Network} {source : PathBuf → SourceFile} {config : Option PathBuf}
  {outcome : Outcome}

theorem exec_adapt_ok {α : Type} {x : ConfigM α} {a : α} :
    exec (ExceptT.adapt MainError.config x) file = (.ok a, file₁) ↔ exec x file = (.ok a, file₁) := by
  rw [exec_adapt]
  rcases exec x file with ⟨e | b, file'⟩ <;> simp [Except.mapError]

theorem exec_readToString : exec (readToString env) file =
    (if env.readToString then .ok file else .error .io, file) := by
  unfold readToString
  cases env.readToString <;> rfl

theorem exec_run_set (hpath : (args.cli config).configPath env = .ok configPath) :
    exec (run admin env net source (args.cli config)) file = (.ok outcome, file₂) ↔
      (∃ u, exec (updateConfigFile admin env.generated env.file configPath (args.patch env.generateToken)) file =
        (.ok u, file₂)) ∧ env.readToString = true ∧ outcome = .printed file₂ := by
  have hhandle : ∀ {printed}, exec (handleConfigCommand admin env configPath (.set args)) file = (.ok printed, file₂) ↔
      (∃ u, exec (updateConfigFile admin env.generated env.file configPath (args.patch env.generateToken)) file =
        (.ok u, file₂)) ∧ env.readToString = true ∧ printed = file₂ := by
    intro printed
    simp only [handleConfigCommand, exec_bind_ok, exec_adapt_ok, exec_readToString]
    constructor
    · rintro ⟨u, file', hu, hread⟩
      split_ifs at hread with hreadable
      · obtain ⟨hprinted, rfl⟩ := Prod.mk.inj hread
        exact ⟨⟨u, hu⟩, hreadable, (Except.ok.inj hprinted).symm⟩
      · cases (Prod.mk.inj hread).1
    · rintro ⟨⟨u, hu⟩, hreadable, rfl⟩
      exact ⟨u, printed, hu, by rw [if_pos hreadable]⟩
  have hrun : exec (run admin env net source (args.cli config)) file =
      exec (handleConfigCommand admin env configPath (.set args) >>= fun printed => pure (.printed printed)) file := by
    rw [run, exec_bind, exec_liftExcept, hpath]
    rfl
  rw [hrun, exec_bind_ok]
  constructor
  · rintro ⟨printed, file', hprinted, h⟩
    obtain ⟨houtcome, rfl⟩ := Prod.mk.inj h
    obtain rfl := Except.ok.inj houtcome
    obtain ⟨hu, hread, rfl⟩ := hhandle.1 hprinted
    exact ⟨hu, hread, rfl⟩
  · rintro ⟨hu, hread, rfl⟩
    exact ⟨file₂, file₂, hhandle.2 ⟨hu, hread, rfl⟩, rfl⟩

/-- A start with the same arguments, on the same file, loads the config. -/
def SetArgs.Loads (admin : Bool) (env : CommandEnv) (config : Option PathBuf) (file : ConfigFile) (args : SetArgs)
    (configPath : PathBuf) (c : ServerConfig) : Prop :=
  (args.cli config).configPath env = .ok configPath ∧ ∃ file₁,
    exec (loadOrCreateConfig admin env.generated env.file configPath (args.overrides env.generateToken)) file =
      (.ok c, file₁)

theorem SetArgs.Loads.inj {configPath' : PathBuf} {c' : ServerConfig}
    (h : args.Loads admin env config file configPath c) (h' : args.Loads admin env config file configPath' c') :
    configPath' = configPath ∧ c' = c := by
  obtain ⟨hpath, file₁, hload⟩ := h
  obtain ⟨hpath', file₁', hload'⟩ := h'
  obtain rfl := Except.ok.inj (hpath.symm.trans hpath')
  exact ⟨rfl, Except.ok.inj (congrArg Prod.fst (hload'.symm.trans hload))⟩

theorem exec_run_set_ok : exec (run admin env net source (args.cli config)) file = (.ok outcome, file₂) ↔
    ∃ configPath c, args.Loads admin env config file configPath c ∧ (∀ p ∈ args.dbPath, p.text ≠ "") ∧
      writable env.file configPath = true ∧ env.readToString = true ∧
      outcome = .printed file₂ ∧ file₂ = .toml c.document := by
  cases hpath : (args.cli config).configPath env with
  | error e =>
    have hrun : exec (run admin env net source (args.cli config)) file = (.error e, file) := by
      rw [run, exec_bind, exec_liftExcept, hpath]
    rw [hrun]
    constructor
    · intro h
      cases (Prod.mk.inj h).1
    · rintro ⟨configPath, c, ⟨hpath', -⟩, -⟩
      cases hpath.symm.trans hpath'
  | ok configPath =>
    simp only [exec_run_set hpath, exec_updateConfigFile_ok]
    constructor
    · rintro ⟨⟨c, hload, hne, hwritable, hfile⟩, hread, hprinted⟩
      exact ⟨configPath, c, ⟨hpath, hload⟩, hne, hwritable, hread, hprinted, hfile⟩
    · rintro ⟨configPath', c, ⟨hpath', hload⟩, hne, hwritable, hread, hprinted, hfile⟩
      obtain rfl := Except.ok.inj (hpath.symm.trans hpath')
      exact ⟨⟨c, hload, hne, hwritable, hfile⟩, hread, hprinted⟩

/-- `config set` and a start with the same arguments, on the same file. `config set` succeeds if and only if the start
loads a config, no empty path is given and the file can be written and read. What the start runs with it prints and
leaves in the file. The next start has it again if and only if it `Reloads`. -/
theorem start_after_set (admin : Bool) (env : CommandEnv) (net : Network) (source : PathBuf → SourceFile)
    (args : SetArgs) (config : Option PathBuf) (file : ConfigFile) :
    ((∃ outcome file₂, exec (run admin env net source (args.cli config)) file = (.ok outcome, file₂)) ↔
      ∃ configPath c, args.Loads admin env config file configPath c ∧ (∀ p ∈ args.dbPath, p.text ≠ "") ∧
        writable env.file configPath = true ∧ env.readToString = true) ∧
    ∀ outcome file₂, exec (run admin env net source (args.cli config)) file = (.ok outcome, file₂) →
      ∀ configPath c, args.Loads admin env config file configPath c →
        outcome = .printed (.toml c.document) ∧ file₂ = .toml c.document ∧
        ∀ gen', ∃ c' file₃, exec (loadOrCreateConfig admin gen' .calm configPath .default) file₂ = (.ok c', file₃) ∧
          (c'.Same c ↔ Reloads configPath c.syncListen c.dbPath c.exportDir c.logPath) := by
  refine ⟨⟨?_, ?_⟩, ?_⟩
  · rintro ⟨outcome, file₂, h⟩
    obtain ⟨configPath, c, hloads, hne, hwritable, hread, -⟩ := exec_run_set_ok.1 h
    exact ⟨configPath, c, hloads, hne, hwritable, hread⟩
  · rintro ⟨configPath, c, hloads, hne, hwritable, hread⟩
    exact ⟨_, _, exec_run_set_ok.2 ⟨configPath, c, hloads, hne, hwritable, hread, rfl, rfl⟩⟩
  · intro outcome file₂ h configPath c hloads
    obtain ⟨configPath', c', hloads', hne, -, -, rfl, rfl⟩ := exec_run_set_ok.1 h
    obtain ⟨rfl, rfl⟩ := hloads.inj hloads'
    obtain ⟨-, file₁, hload⟩ := hloads
    obtain ⟨stored, hstored, hc⟩ := exec_loadOrCreateConfig_ok.1 hload
    have hvalid := (normalized_of_load hstored).valid hne hc
    have hconfigPath := (serverConfig_eq_ok.1 hc).1
    refine ⟨rfl, rfl, fun gen' => ?_⟩
    obtain ⟨c', file₃, hreload, hc'⟩ := exists_reload gen' hvalid
    have hsame := same_reload_iff hvalid hc'
    rw [hconfigPath] at hreload hsame
    exact ⟨c', file₃, hreload, hsame⟩

def listenArgs : SetArgs := ⟨["127.0.0.1:9000"], none, none, false, nofun⟩

def listenEnv : CommandEnv := ⟨.calm, ⟨"t", "s"⟩, "t", true, .ok firstConfig.configPath⟩

/-- A new address, before the first start. -/
theorem start_after_set_listen : ∃ file₂ c' file₃,
    exec (run true listenEnv (fun _ _ => true) (fun _ => .notADatabase) (listenArgs.cli none)) .missing =
      (.ok (.printed file₂), file₂) ∧
    exec (loadOrCreateConfig true ⟨"t", "s"⟩ .calm firstConfig.configPath .default) file₂ = (.ok c', file₃) ∧
    c'.Same { firstConfig with syncListen := ["127.0.0.1:9000"] } := by
  have hpath : (listenArgs.cli none).configPath listenEnv = .ok firstConfig.configPath := rfl
  have hload : exec (loadOrCreateConfig true ⟨"t", "s"⟩ .calm firstConfig.configPath (listenArgs.overrides "t"))
      .missing = (.ok { firstConfig with syncListen := ["127.0.0.1:9000"] }, .toml firstConfig.document) := rfl
  have hloads : listenArgs.Loads true listenEnv none .missing firstConfig.configPath
      { firstConfig with syncListen := ["127.0.0.1:9000"] } := ⟨hpath, _, hload⟩
  obtain ⟨hiff, hset⟩ :=
    start_after_set true listenEnv (fun _ _ => true) (fun _ => .notADatabase) listenArgs none .missing
  obtain ⟨outcome, file₂, h⟩ := hiff.2 ⟨_, _, hloads, nofun, writable_calm, rfl⟩
  obtain ⟨rfl, rfl, hnext⟩ := hset _ _ h _ _ hloads
  obtain ⟨c', file₃, hreload, hsame⟩ := hnext ⟨"t", "s"⟩
  refine ⟨_, c', file₃, h, hreload, hsame.2 ⟨by decide, ⟨by decide, fun h => ?_⟩, ⟨by decide, fun h => ?_⟩,
    by decide, fun h => ?_⟩⟩ <;> exact absurd h (by decide)

end Run
end Set
end FloralSync.Main

import FloralSync.Config.Valid

/-!
# The config file on the disk

`ConfigM` keeps of the disk what the config path names. Here a write has its temporary file beside the config
file, with what is left of it when a step fails, and the server has its configs in place. At the config path
nothing else is seen of it (`simulates_writeConfigContents`), so the server starts and runs as `loadOrCreateConfig`
and `applyPatch` say (`simulates_loadOrCreateConfig`, `exec_runtimeConfig_applyPatch`).
-/

namespace FloralSync

open Rust Stateful PathBuf

/-- `Uuid`, as it is printed. -/
structure Uuid where
  text : String
  hex : ∀ c ∈ text.toList, c ∈ "0123456789abcdef-".toList

def tempConfigPath (uuid : Uuid) (configPath : PathBuf) : PathBuf :=
  configPath.withFileName (configPath.fileName.getD "sync-server.toml" ++ "." ++ uuid.text ++ ".tmp")

/-- What each path names. -/
abbrev Disk := PathBuf → ConfigFile

abbrev DiskM := ExceptT ConfigError (StateM Disk)

/-- What the disk does in a write. -/
structure DiskEnv where
  fails : FileEnv
  uuid : Uuid
  /-- The temporary file, if not everything could be written to it. -/
  partialContents : ConfigFile
  removeFails : Bool

/-- Nothing fails. -/
def DiskEnv.calm : DiskEnv := ⟨.calm, ⟨"0", forall_mem_of_all (by decide +kernel)⟩, .missing, false⟩

namespace Disk

def write (disk : Disk) (path : PathBuf) (file : ConfigFile) : Disk := fun p => if p ≈ path then file else disk p

def rename (disk : Disk) (source target : PathBuf) : Disk := (disk.write target (disk source)).write source .missing

def step (env : DiskEnv) (step : FileStep) : DiskM Unit :=
  if env.fails step then throw .io else pure ()

def writeConfigContents (env : DiskEnv) (configPath : PathBuf) (contents : TomlTable) : DiskM Unit := do
  if configPath.parent.isSome then
    step env .createDir
  let tempPath := tempConfigPath env.uuid configPath
  step env .createTemp
  modify fun disk => disk.write tempPath (.toml [])
  if env.fails .writeAll then
    modify fun disk => disk.write tempPath env.partialContents
    throw .io
  modify fun disk => disk.write tempPath (.toml contents)
  step env .syncAll
  if env.fails .rename then
    if !env.removeFails then
      modify fun disk => disk.write tempPath .missing
    throw .io
  modify fun disk => disk.rename tempPath configPath

def writeStoredConfig (env : DiskEnv) (configPath : PathBuf) (stored : StoredConfig) : DiskM Unit :=
  writeConfigContents env configPath stored.serialize

def writeServerConfig (env : DiskEnv) (config : ServerConfig) : DiskM Unit :=
  writeStoredConfig env config.configPath (.fromServerConfig config)

def applyAndPersistConfig (admin : Bool) (env : DiskEnv) (current : ServerConfig) (patch : ConfigPatch) :
    DiskM ServerConfig := do
  let updated ← liftExcept (applyConfigPatch admin current patch)
  writeServerConfig env updated
  return updated

def readStoredConfig (admin : Bool) (gen : Generated) (env : DiskEnv) (configPath : PathBuf) :
    DiskM (StoredConfig × Bool) := do
  let disk ← get
  if disk configPath ≠ .missing then
    step env .read
  liftExcept (parseStoredConfig admin gen (disk configPath))

def loadOrCreateStoredConfig (admin : Bool) (gen : Generated) (env : DiskEnv) (configPath : PathBuf) :
    DiskM StoredConfig := do
  let (stored, needsWrite) ← readStoredConfig admin gen env configPath
  if needsWrite then
    writeStoredConfig env configPath stored
  return stored

def loadOrCreateConfig (admin : Bool) (gen : Generated) (env : DiskEnv) (configPath : PathBuf)
    (overrides : ConfigOverrides) : DiskM ServerConfig := do
  let stored ← loadOrCreateStoredConfig admin gen env configPath
  liftExcept (serverConfig admin configPath overrides stored)

end Disk

/-- The disk, and what the lock of `RuntimeConfig` guards. -/
structure Process where
  disk : Disk
  state : RuntimeConfigState

abbrev ProcessM := ExceptT ConfigError (StateM Process)

def onDisk {α : Type} (x : DiskM α) : ProcessM α :=
  ExceptT.mk fun s => ((exec x s.disk).1, { s with disk := (exec x s.disk).2 })

def modifyState (f : RuntimeConfigState → RuntimeConfigState) : ProcessM Unit :=
  modify fun s => { s with state := f s.state }

/-- `RuntimeConfig::apply_patch` -/
def RuntimeConfig.applyPatch (admin : Bool) (env : DiskEnv) (patch : ConfigPatch) :
    ProcessM RuntimeConfigSnapshot := do
  let s ← get
  let updated ← onDisk (Disk.applyAndPersistConfig admin env s.state.persisted patch)
  modifyState fun state => { state with persisted := updated }
  modifyState fun state => { state with effective.syncToken := updated.syncToken }
  modifyState fun state => { state with effective.adminPasswordHash := updated.adminPasswordHash }
  modifyState fun state => { state with effective.adminSessionSecret := updated.adminSessionSecret }
  modifyState fun state => { state with effective.logLevel := updated.logLevel }
  return snapshotFromState (← get).state

/-! ### What a write does -/

section Write

variable {admin : Bool} {env : DiskEnv} {uuid : Uuid} {configPath p : PathBuf} {file : ConfigFile} {disk : Disk}
  {current : ServerConfig} {patch : ConfigPatch} {s : Process}

/-- The temporary file is another one than the config file. -/
theorem tempConfigPath_not_equiv : ¬ tempConfigPath uuid configPath ≈ configPath := by
  unfold tempConfigPath
  generalize hname : configPath.fileName.getD "sync-server.toml" = name
  have hslash : '/' ∉ name.toList := by
    cases hfile : configPath.fileName with
    | none => rw [← hname, hfile]; decide
    | some n =>
      rw [← hname, hfile]
      exact notMem_of_mem_segments (mem_segments_of_normal (List.mem_of_getLast? (fileName_eq_some.1 hfile)))
  have htemp : IsName (name ++ "." ++ uuid.text ++ ".tmp") := {
    no_slash := by
      have huuid : '/' ∉ uuid.text.toList := fun h => absurd (uuid.hex _ h) (by decide)
      simp [hslash, huuid]
    not_ignorable := by
      have hlong : (name ++ "." ++ uuid.text ++ ".tmp").toList ≠ ['.'] := fun h => by
        have := congrArg List.length h
        simp at this
        omega
      simpa [ignorable] using hlong
    not_parent := fun h => by
      have := congrArg List.length h
      simp at this
      omega }
  intro heq
  -- its name is longer than the one of the config file
  have hlast : configPath.fileName = some (name ++ "." ++ uuid.text ++ ".tmp") := by
    rw [fileName_eq_some, ← show _ = configPath.components from heq, withFileName, htemp.components_join,
      List.getLast?_concat]
  rw [hlast, Option.getD_some] at hname
  have hlength := congrArg String.length hname
  simp only [String.length_append] at hlength
  change _ + 1 + _ + 4 = _ at hlength
  omega

@[simp] theorem Disk.write_self : disk.write p file p = file := if_pos (Setoid.refl _)

@[simp] theorem Disk.write_temp : disk.write (tempConfigPath uuid configPath) file configPath = disk configPath :=
  if_neg fun h => tempConfigPath_not_equiv (Setoid.symm h)

theorem Disk.rename_temp :
    disk.rename (tempConfigPath uuid configPath) configPath configPath = disk (tempConfigPath uuid configPath) := by
  rw [rename, write_temp, write_self]

@[simp] theorem exec_step (fileStep : FileStep) : exec (Disk.step env fileStep) disk =
    (if env.fails fileStep then .error .io else .ok (), disk) := by
  unfold Disk.step
  split_ifs <;> rfl

theorem simulates_writeConfigContents (t : TomlTable) : Simulates (· configPath)
    (Disk.writeConfigContents env configPath t) (writeConfigContents env.fails configPath t) := by
  intro disk
  rw [exec_writeConfigContents]
  unfold Disk.writeConfigContents writable
  cases hdir : configPath.parent.isSome <;> cases h₀ : env.fails .createDir <;> cases h₁ : env.fails .createTemp <;>
    cases env.fails .writeAll <;> cases h₃ : env.fails .syncAll <;> cases env.fails .rename <;>
    cases env.removeFails <;> simp [exec_bind, Disk.rename_temp, h₀, h₁, h₃]

theorem simulates_step (fileStep : FileStep) :
    Simulates (· configPath) (Disk.step env fileStep) (FloralSync.fileStep env.fails fileStep) := by
  intro disk
  unfold FloralSync.fileStep
  rw [exec_step]
  split_ifs <;> rfl

theorem simulates_applyAndPersistConfig (admin : Bool) (env : DiskEnv) (current : ServerConfig) (patch : ConfigPatch) :
    Simulates (· current.configPath) (Disk.applyAndPersistConfig admin env current patch)
      (applyAndPersistConfig admin env.fails current patch) := by
  refine (simulates_liftExcept _).bind fun u _ _ hu => ?_
  rw [exec_liftExcept] at hu
  refine Simulates.bind ?_ fun _ _ _ _ => simulates_pure _
  rw [← (applyConfigPatch_eq_ok.1 (Prod.mk.inj hu).1).1]
  exact simulates_writeConfigContents _

theorem simulates_loadOrCreateConfig (gen : Generated) (overrides : ConfigOverrides) : Simulates (· configPath)
    (Disk.loadOrCreateConfig admin gen env configPath overrides)
    (loadOrCreateConfig admin gen env.fails configPath overrides) := by
  have hread : Simulates (· configPath) (Disk.readStoredConfig admin gen env configPath)
      (readStoredConfig admin gen env.fails) := by
    refine simulates_get_bind fun disk => ?_
    split_ifs
    · exact (simulates_step _).bind fun _ _ _ _ => simulates_liftExcept _
    · exact simulates_liftExcept _
  refine Simulates.bind (hread.bind fun (stored, needsWrite) _ _ _ => ?_) fun _ _ _ _ => simulates_liftExcept _
  cases needsWrite with
  | true => exact (simulates_writeConfigContents _).bind fun _ _ _ _ => simulates_pure _
  | false => exact simulates_pure _

/-- What the config path of a server names. -/
def Process.configFile (s : Process) : ConfigFile := s.disk s.state.persisted.configPath

@[simp] theorem exec_modifyState (f : RuntimeConfigState → RuntimeConfigState) :
    exec (modifyState f) s = (.ok (), { s with state := f s.state }) := rfl

theorem exec_onDisk {α : Type} (x : DiskM α) :
    exec (onDisk x) s = ((exec x s.disk).1, { s with disk := (exec x s.disk).2 }) := rfl

/-- The configs in place are those that `applyPatch` returns, and the disk is what it makes of the file. -/
theorem exec_runtimeConfig_applyPatch (admin : Bool) (env : DiskEnv) (patch : ConfigPatch) (s : Process) :
    ∃ disk, disk s.state.persisted.configPath =
      (exec (applyPatch admin env.fails patch s.state) s.configFile).2 ∧
    exec (RuntimeConfig.applyPatch admin env patch) s =
      match (exec (applyPatch admin env.fails patch s.state) s.configFile).1 with
      | .ok state => (.ok (snapshotFromState state), ⟨disk, state⟩)
      | .error e => (.error e, ⟨disk, s.state⟩) := by
  have hpersist := simulates_applyAndPersistConfig admin env s.state.persisted patch s.disk
  unfold applyPatch RuntimeConfig.applyPatch Process.configFile
  simp only [exec_bind, exec_get, exec_onDisk, exec_modifyState, exec_pure, ← hpersist]
  rcases exec (Disk.applyAndPersistConfig admin env s.state.persisted patch) s.disk with ⟨_ | _, disk⟩ <;>
    exact ⟨disk, rfl, rfl⟩

/-- A patch succeeds and does everything, or fails and does nothing. -/
theorem runtimeConfig_applyPatch_cases {result : Except ConfigError RuntimeConfigSnapshot} {s' : Process}
    (h : exec (RuntimeConfig.applyPatch admin env patch) s = (result, s')) :
    (∃ e, result = .error e ∧ s'.state = s.state ∧ s'.configFile = s.configFile) ∨
      ∃ u, applyConfigPatch admin s.state.persisted patch = .ok u ∧ result = .ok (snapshotFromState s'.state) ∧
        s'.state = s.state.update u ∧ s'.configFile = .toml u.document := by
  obtain ⟨disk, hdisk, hexec⟩ := exec_runtimeConfig_applyPatch admin env patch s
  rw [h] at hexec
  cases hpatch : exec (applyPatch admin env.fails patch s.state) s.configFile with
  | mk coarse file =>
    rw [hpatch] at hdisk hexec
    cases coarse with
    | error e =>
      obtain ⟨rfl, rfl⟩ := Prod.mk.inj hexec
      exact .inl ⟨e, rfl, rfl, hdisk.trans (exec_applyPatch_error hpatch)⟩
    | ok state =>
      obtain ⟨rfl, rfl⟩ := Prod.mk.inj hexec
      obtain ⟨u, hu, -, rfl, rfl⟩ := exec_applyPatch_ok.1 hpatch
      refine .inr ⟨u, hu, rfl, rfl, ?_⟩
      show disk u.configPath = _
      rw [(applyConfigPatch_eq_ok.1 hu).1]
      exact hdisk

/-- A patch that fails changes neither the config file nor a config; after one that succeeds the file is that of
the persisted config. -/
theorem applyPatch_atomic (admin : Bool) (env : DiskEnv) (patch : ConfigPatch) (s : Process) :
    match exec (RuntimeConfig.applyPatch admin env patch) s with
    | (.error _, s') => s'.configFile = s.configFile ∧ s'.state = s.state
    | (.ok snapshot, s') => s'.configFile = .toml s'.state.persisted.document ∧
        snapshot = snapshotFromState s'.state ∧
        applyConfigPatch admin s.state.persisted patch = .ok s'.state.persisted := by
  rcases h : exec (RuntimeConfig.applyPatch admin env patch) s with ⟨result, s'⟩
  rcases runtimeConfig_applyPatch_cases h with ⟨e, rfl, hstate, hfile⟩ | ⟨u, hu, rfl, hstate, hfile⟩
  · exact ⟨hfile, hstate⟩
  · have hpersisted : s'.state.persisted = u := by rw [hstate]; rfl
    exact ⟨hpersisted ▸ hfile, rfl, hpersisted ▸ hu⟩

end Write
end FloralSync

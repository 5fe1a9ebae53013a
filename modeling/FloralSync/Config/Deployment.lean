import FloralSync.Admin.Session
import FloralSync.Config.Disk
import Mathlib.Logic.Relation

/-!
# Starts and patches of one deployment

The config file outlives the server: each start loads what the last one, or a patch, has left in it. Both configs
of the server are usable after every step, and once a password is set, the file keeps it (`passwordHash`) and
every later server has it (`bootstrap_stays_closed`).
-/

namespace FloralSync

open Rust Stateful Relation

/-- A server's disk, and its configs while it runs. -/
structure Deployment where
  disk : Disk
  running : Option RuntimeConfigState

/-- A start, or a call of `apply_patch`, whatever it returns. -/
inductive Deployment.Step (admin : Bool) (configPath : PathBuf) : Deployment → Deployment → Prop
  | start {disk running gen env overrides result disk'}
      (h : exec (Disk.loadOrCreateConfig admin gen env configPath overrides) disk = (result, disk')) :
      Step admin configPath ⟨disk, running⟩ ⟨disk', result.toOption.map .new⟩
  | patch {disk state env patch result s}
      (h : exec (RuntimeConfig.applyPatch admin env patch) ⟨disk, state⟩ = (result, s)) :
      Step admin configPath ⟨disk, some state⟩ ⟨s.disk, some s.state⟩

/-- The password is set, to something that is not blank. -/
def ServerConfig.PasswordSet (c : ServerConfig) : Prop := ∃ hash ∈ c.adminPasswordHash, trim hash ≠ ""

/-- The password hash that a start finds in the file. -/
def ConfigFile.passwordHash : ConfigFile → Option String
  | .toml t => match StoredConfig.deserialize t with
    | .ok stored => (normalizePasswordHash stored.adminPasswordHash).1
    | .error _ => none
  | _ => none

/-- The running configs are usable, and have the password of the file. -/
structure Deployment.Sound (admin : Bool) (path : PathBuf) (s : Deployment) : Prop where
  effective : ∀ state ∈ s.running, state.effective.Usable admin
  persisted : ∀ state ∈ s.running, state.persisted.Usable admin
  configPath : ∀ state ∈ s.running, state.persisted.configPath = path
  effectiveHash : ∀ state ∈ s.running, state.effective.adminPasswordHash = (s.disk path).passwordHash
  persistedHash : ∀ state ∈ s.running, state.persisted.adminPasswordHash = (s.disk path).passwordHash

section Files

variable {admin : Bool} {gen : Generated} {env : FileEnv} {configPath : PathBuf} {overrides : ConfigOverrides}
  {file file' : ConfigFile} {stored : StoredConfig} {needsWrite : Bool} {c u : ServerConfig} {patch : ConfigPatch}
  {result : Except ConfigError ServerConfig} {hash : Option String}

theorem normalizePasswordHash_of_trimmed (h : ∀ v ∈ hash, trim v = v ∧ v ≠ "") :
    (normalizePasswordHash hash).1 = hash := by
  cases hash with
  | none => rfl
  | some v =>
    obtain ⟨htrim, hne⟩ := h v rfl
    simp [normalizePasswordHash, htrim, hne]

theorem passwordHash_serialize (h : ∀ v ∈ stored.adminPasswordHash, trim v = v ∧ v ≠ "") :
    (ConfigFile.toml stored.serialize).passwordHash = stored.adminPasswordHash := by
  rw [ConfigFile.passwordHash, deserialize_serialize]
  exact normalizePasswordHash_of_trimmed h

theorem passwordHash_of_parse (h : parseStoredConfig admin gen file = .ok (stored, needsWrite)) :
    stored.adminPasswordHash = file.passwordHash := by
  obtain ⟨⟨raw, _⟩, hraw, h⟩ := Except.bind_eq_ok.1 h
  obtain ⟨⟨_, _⟩, hnorm, h⟩ := Except.bind_eq_ok.1 h
  obtain ⟨rfl, -⟩ := Prod.mk.inj (Except.ok.inj h)
  obtain ⟨_, _, _, _, -, -, rfl, -⟩ := normalizeStoredConfig_eq_ok.1 hnorm
  show (normalizePasswordHash raw.adminPasswordHash).1 = _
  cases file with
  | missing =>
    obtain ⟨rfl, -⟩ := Prod.mk.inj (Except.ok.inj hraw)
    rfl
  | unreadable => cases hraw
  | malformed => cases hraw
  | toml t =>
    obtain ⟨s, hs, h⟩ := Except.map_eq_ok.1 hraw
    obtain ⟨rfl, -⟩ := Prod.mk.inj h
    rw [ConfigFile.passwordHash, hs]

theorem file_of_load (h : exec (loadOrCreateConfig admin gen env configPath overrides) file = (result, file')) :
    file' = file ∨ ∃ stored needsWrite, parseStoredConfig admin gen file = .ok (stored, needsWrite) ∧
      file' = .toml stored.serialize := by
  unfold loadOrCreateConfig loadOrCreateStoredConfig at h
  rw [exec_bind, exec_bind, exec_readStoredConfig] at h
  split_ifs at h
  · rcases hparse : parseStoredConfig admin gen file with e | ⟨stored, needsWrite⟩ <;> rw [hparse] at h
    · exact .inl (Prod.mk.inj h).2.symm
    · cases needsWrite with
      | false =>
        simp only [Bool.false_eq_true, if_false, exec_pure, exec_liftExcept] at h
        exact .inl (Prod.mk.inj h).2.symm
      | true =>
        simp only [if_true, exec_bind, writeStoredConfig, exec_writeConfigContents] at h
        split_ifs at h
        · simp only [exec_pure, exec_liftExcept] at h
          exact .inr ⟨stored, true, rfl, (Prod.mk.inj h).2.symm⟩
        · exact .inl (Prod.mk.inj h).2.symm
  · exact .inl (Prod.mk.inj h).2.symm

theorem passwordHash_of_load
    (h : exec (loadOrCreateConfig admin gen env configPath overrides) file = (result, file')) :
    file'.passwordHash = file.passwordHash ∧ ∀ c, result = .ok c → c.adminPasswordHash = file.passwordHash := by
  constructor
  · rcases file_of_load h with rfl | ⟨stored, needsWrite, hparse, rfl⟩
    · rfl
    · rw [passwordHash_serialize (parseStoredConfig_normalized hparse).adminPasswordHash,
        passwordHash_of_parse hparse]
  · rintro c rfl
    obtain ⟨stored, hstored, hc⟩ := exec_loadOrCreateConfig_ok.1 h
    obtain ⟨needsWrite, -, hparse, -⟩ := exec_loadOrCreateStoredConfig_ok.1 hstored
    obtain ⟨-, -, -, -, -, -, -, -, -, hhash, -⟩ := serverConfig_eq_ok.1 hc
    rw [hhash, passwordHash_of_parse hparse]

theorem passwordHash_document (h : u.Usable admin) : (ConfigFile.toml u.document).passwordHash = u.adminPasswordHash :=
  passwordHash_serialize h.adminPasswordHash

/-- A patch can set another password, but not take it away. -/
theorem passwordHash_ne_of_patch (hu : applyConfigPatch admin c patch = .ok u) (h : c.adminPasswordHash ≠ none) :
    u.adminPasswordHash ≠ none := by
  obtain ⟨-, -, -, -, -, -, -, -, h₈, -⟩ := applyConfigPatch_eq_ok.1 hu
  refine of_patchField (P := fun hash => hash ≠ none) h₈ h fun value hash hhash => ?_
  obtain ⟨v, -, rfl⟩ := Except.map_eq_ok.1 hhash
  exact nofun

theorem passwordSet_iff (h : c.Usable admin) : c.PasswordSet ↔ c.adminPasswordHash ≠ none := by
  unfold ServerConfig.PasswordSet
  constructor
  · rintro ⟨hash, hhash, -⟩ hnone
    exact nomatch hnone ▸ hhash
  · intro hne
    obtain ⟨hash, hhash⟩ := Option.ne_none_iff_exists'.1 hne
    obtain ⟨htrim, hne⟩ := h.adminPasswordHash hash hhash
    exact ⟨hash, hhash, htrim.symm ▸ hne⟩

end Files

namespace Deployment

variable {admin : Bool} {configPath : PathBuf} {disk disk' : Disk} {s s' : Deployment} {state : RuntimeConfigState}
  {gen : Generated} {env : DiskEnv} {overrides : ConfigOverrides} {update : ConfigPatch} {p : Process}
  {loaded : Except ConfigError ServerConfig} {patched : Except ConfigError RuntimeConfigSnapshot}

theorem sound_stopped : Sound admin configPath ⟨disk, none⟩ := by constructor <;> exact nofun

theorem load_of_start (h : exec (Disk.loadOrCreateConfig admin gen env configPath overrides) disk = (loaded, disk')) :
    exec (loadOrCreateConfig admin gen env.fails configPath overrides) (disk configPath) =
      (loaded, disk' configPath) := by
  rw [← simulates_loadOrCreateConfig gen overrides disk, h]

theorem sound_started (h : exec (Disk.loadOrCreateConfig admin gen env configPath overrides) disk = (loaded, disk')) :
    Sound admin configPath ⟨disk', loaded.toOption.map .new⟩ := by
  have hload := load_of_start h
  cases loaded with
  | error e => exact sound_stopped
  | ok c =>
    obtain ⟨hfile, hhash⟩ := passwordHash_of_load hload
    obtain ⟨stored, hstored, hc⟩ := exec_loadOrCreateConfig_ok.1 hload
    have husable := (normalized_of_load hstored).usable hc
    have hhash : c.adminPasswordHash = (disk' configPath).passwordHash := (hhash c rfl).trans hfile.symm
    constructor <;> rintro _ ⟨⟩
    · exact husable
    · exact husable
    · exact (serverConfig_eq_ok.1 hc).1
    · exact hhash
    · exact hhash

theorem usable_update (h : state.effective.Usable admin) {u : ServerConfig} (hu : u.Usable admin) :
    (state.update u).effective.Usable admin :=
  ⟨h.syncListen, h.syncListen_ne, h.adminListen, hu.logLevel, hu.syncToken, hu.adminPasswordHash,
    hu.adminSessionSecret, hu.adminSessionSecret_ne⟩

theorem Sound.patch (h : Sound admin configPath ⟨disk, some state⟩)
    (hpatch : exec (RuntimeConfig.applyPatch admin env update) ⟨disk, state⟩ = (patched, p)) :
    Sound admin configPath ⟨p.disk, some p.state⟩ := by
  have hpath := h.configPath state rfl
  rcases runtimeConfig_applyPatch_cases hpatch with ⟨-, -, hstate, hfile⟩ | ⟨u, hu, -, hstate, hfile⟩
  · change p.state = state at hstate
    have hfile : p.disk configPath = disk configPath := by
      simpa only [Process.configFile, hstate, hpath] using hfile
    constructor <;> rintro _ ⟨⟩ <;> rw [hstate]
    · exact h.effective state rfl
    · exact h.persisted state rfl
    · exact hpath
    · exact (h.effectiveHash state rfl).trans (congrArg _ hfile.symm)
    · exact (h.persistedHash state rfl).trans (congrArg _ hfile.symm)
  · change p.state = state.update u at hstate
    have husable := (h.persisted state rfl).apply hu
    have hupath : u.configPath = configPath := (applyConfigPatch_eq_ok.1 hu).1.trans hpath
    have hhash : u.adminPasswordHash = (p.disk configPath).passwordHash := by
      rw [Process.configFile, hstate] at hfile
      change p.disk u.configPath = _ at hfile
      rw [← hupath, hfile, passwordHash_document husable]
    constructor <;> rintro _ ⟨⟩ <;> rw [hstate]
    · exact usable_update (h.effective state rfl) husable
    · exact husable
    · exact hupath
    · exact hhash
    · exact hhash

theorem Sound.step (h : s.Sound admin configPath) (hstep : s.Step admin configPath s') : s'.Sound admin configPath := by
  cases hstep with
  | start hload => exact sound_started hload
  | patch hpatch => exact h.patch hpatch

theorem Sound.run (h : s.Sound admin configPath) (hrun : ReflTransGen (Step admin configPath) s s') :
    s'.Sound admin configPath := by
  induction hrun with
  | refl => exact h
  | tail _ hstep ih => exact ih.step hstep

/-- No step takes the password out of the file. -/
theorem Sound.passwordHash_step (h : s.Sound admin configPath) (hstep : s.Step admin configPath s')
    (hset : (s.disk configPath).passwordHash ≠ none) : (s'.disk configPath).passwordHash ≠ none := by
  have h' := h.step hstep
  cases hstep with
  | start hload => exact (passwordHash_of_load (load_of_start hload)).1 ▸ hset
  | @patch _ state _ _ _ p hpatch =>
    rw [← h.persistedHash state rfl] at hset
    rw [← h'.persistedHash p.state rfl]
    rcases runtimeConfig_applyPatch_cases hpatch with ⟨-, -, hstate, -⟩ | ⟨u, hu, -, hstate, -⟩ <;> rw [hstate]
    · exact hset
    · exact passwordHash_ne_of_patch hu hset

theorem Sound.passwordHash_run (h : s.Sound admin configPath) (hrun : ReflTransGen (Step admin configPath) s s')
    (hset : (s.disk configPath).passwordHash ≠ none) : (s'.disk configPath).passwordHash ≠ none := by
  induction hrun with
  | refl => exact hset
  | tail hrun hstep ih => exact (h.run hrun).passwordHash_step hstep ih

theorem exists_start (env : DiskEnv) (disk : Disk) (running : Option RuntimeConfigState) {c : ServerConfig}
    {file : ConfigFile} (h : exec (loadOrCreateConfig admin gen env.fails configPath overrides) (disk configPath) =
      (.ok c, file)) :
    ∃ disk', Step admin configPath ⟨disk, running⟩ ⟨disk', some (.new c)⟩ ∧ disk' configPath = file := by
  rcases hload : exec (Disk.loadOrCreateConfig admin gen env configPath overrides) disk with ⟨loaded, disk'⟩
  obtain ⟨rfl, hfile⟩ := Prod.mk.inj ((load_of_start hload).symm.trans h)
  exact ⟨disk', .start hload, hfile⟩

theorem exists_patch (env : DiskEnv) (disk : Disk) (state : RuntimeConfigState) {u : ServerConfig}
    (hu : applyConfigPatch admin state.persisted update = .ok u)
    (hw : writable env.fails state.persisted.configPath = true) :
    ∃ disk', Step admin configPath ⟨disk, some state⟩ ⟨disk', some (state.update u)⟩ ∧
      disk' state.persisted.configPath = .toml u.document := by
  obtain ⟨disk', hdisk, hexec⟩ := exec_runtimeConfig_applyPatch admin env update ⟨disk, state⟩
  rw [exec_applyPatch_ok.2 ⟨u, hu, hw, rfl, rfl⟩] at hdisk hexec
  exact ⟨disk', .patch hexec, hdisk⟩

/-- However often the server is started and patched, its configs are usable, and once the password is set there is
no bootstrap any more. -/
theorem bootstrap_stays_closed (hrun : ReflTransGen (Step admin configPath) ⟨disk, none⟩ s)
    (hlater : ReflTransGen (Step admin configPath) s s') :
    (∀ state ∈ s.running, state.effective.Usable admin ∧ state.persisted.Usable admin) ∧
    ((∃ state ∈ s.running, state.effective.PasswordSet ∨ state.persisted.PasswordSet) →
      ∀ state ∈ s'.running, state.effective.PasswordSet ∧ state.persisted.PasswordSet ∧
        bootstrapRequired state.effective = false) := by
  have h : s.Sound admin configPath := sound_stopped.run hrun
  have h' := h.run hlater
  refine ⟨fun state hstate => ⟨h.effective state hstate, h.persisted state hstate⟩, ?_⟩
  rintro ⟨state, hstate, hset⟩ state' hstate'
  have hset : (s.disk configPath).passwordHash ≠ none := by
    rcases hset with hset | hset
    · exact h.effectiveHash state hstate ▸ (passwordSet_iff (h.effective state hstate)).1 hset
    · exact h.persistedHash state hstate ▸ (passwordSet_iff (h.persisted state hstate)).1 hset
  have hset' := h.passwordHash_run hlater hset
  have heffective := h'.effectiveHash state' hstate' ▸ hset'
  refine ⟨(passwordSet_iff (h'.effective state' hstate')).2 heffective,
    (passwordSet_iff (h'.persisted state' hstate')).2 (h'.persistedHash state' hstate' ▸ hset'), ?_⟩
  simpa [bootstrapRequired, Option.isSome_iff_ne_none] using heffective

/-- The first start, the password, and another start. -/
theorem bootstrap_closed_after_restart : ∃ s s' : Deployment, ∃ state ∈ s'.running,
    ReflTransGen (Step true firstConfig.configPath) ⟨fun _ => .missing, none⟩ s ∧
      ReflTransGen (Step true firstConfig.configPath) s s' ∧ bootstrapRequired state.effective = false := by
  have hload : ∀ file, file = .toml { firstConfig with adminPasswordHash := some "h" }.document →
      exec (loadOrCreateConfig true ⟨"x", "y"⟩ .calm firstConfig.configPath .default) file =
        (.ok { firstConfig with adminPasswordHash := some "h" }, file) := by rintro _ rfl; rfl
  obtain ⟨disk₀, hstart, hdisk₀⟩ := exists_start .calm (fun _ => .missing) none
    load_firstConfig
  obtain ⟨disk₁, hpatch, hdisk₁⟩ := exists_patch .calm disk₀ (.new firstConfig)
    (applyConfigPatch_password (show trim "h" = "h" from rfl) (by decide)) writable_calm
  obtain ⟨disk₂, hrestart, -⟩ := exists_start .calm disk₁
    (some ((RuntimeConfigState.new firstConfig).update { firstConfig with adminPasswordHash := some "h" }))
    (hload _ hdisk₁)
  have hrun := (ReflTransGen.single hstart).tail hpatch
  refine ⟨_, _, _, rfl, hrun, .single hrestart, ?_⟩
  exact ((bootstrap_stays_closed hrun (.single hrestart)).2 ⟨_, rfl, .inl ⟨"h", rfl, by decide⟩⟩ _ rfl).2.2

end Deployment
end FloralSync

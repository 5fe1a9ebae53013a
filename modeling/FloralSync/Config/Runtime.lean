import FloralSync.Config.Valid

/-!
# The config of a running server

What holds of `RuntimeConfig` however many patches succeed or fail: both configs are valid, and they differ
in settings that need a restart only.
-/

namespace FloralSync

open Rust Stateful

/-- The states of `RuntimeConfig`. A patch that fails leaves the state as it was. The command line does not
take an empty database path. -/
inductive RuntimeConfigState.Reachable (admin : Bool) : RuntimeConfigState → Prop
  | start {gen env configPath overrides file file' config} (hdb : ∀ p ∈ overrides.dbPath, p.text ≠ "")
      (hload : exec (loadOrCreateConfig admin gen env configPath overrides) file = (.ok config, file')) :
      Reachable admin (.new config)
  | patch {state env patch file state' file'} (h : Reachable admin state)
      (hpatch : exec (applyPatch admin env patch state) file = (.ok state', file')) : Reachable admin state'

structure RuntimeConfigState.Coherent (admin : Bool) (state : RuntimeConfigState) : Prop where
  effective : state.effective.Valid admin
  persisted : state.persisted.Valid admin
  configPath : state.persisted.configPath = state.effective.configPath
  logLevel : state.persisted.logLevel = state.effective.logLevel
  syncToken : state.persisted.syncToken = state.effective.syncToken
  adminPasswordHash : state.persisted.adminPasswordHash = state.effective.adminPasswordHash
  adminSessionSecret : state.persisted.adminSessionSecret = state.effective.adminSessionSecret

namespace RuntimeConfigState

variable {admin : Bool} {env : FileEnv} {patch : ConfigPatch} {file file' : ConfigFile}
  {state state' : RuntimeConfigState} {config updated : ServerConfig}

theorem coherent_new (h : config.Valid admin) : (new config).Coherent admin := ⟨h, h, rfl, rfl, rfl, rfl, rfl⟩

theorem Coherent.update (h : state.Coherent admin)
    (hpatch : applyConfigPatch admin state.persisted patch = .ok updated) : (state.update updated).Coherent admin := by
  have hvalid := h.persisted.apply hpatch
  refine ⟨⟨h.effective.syncListen, h.effective.syncListen_ne, h.effective.adminListen, h.effective.dbPath,
    h.effective.exportDir, h.effective.logPath, hvalid.logLevel, hvalid.syncToken, hvalid.adminPasswordHash,
    hvalid.adminSessionSecret, hvalid.adminSessionSecret_ne⟩, hvalid, ?_, rfl, rfl, rfl, rfl⟩
  exact (applyConfigPatch_eq_ok.1 hpatch).1.trans h.configPath

theorem Coherent.apply (h : state.Coherent admin)
    (hpatch : exec (applyPatch admin env patch state) file = (.ok state', file')) : state'.Coherent admin := by
  obtain ⟨u, hu, -, -, rfl⟩ := exec_applyPatch_ok.1 hpatch
  exact h.update hu

theorem Reachable.coherent (h : state.Reachable admin) : state.Coherent admin := by
  induction h with
  | start hdb hload =>
    obtain ⟨stored, hstored, hconfig⟩ := exec_loadOrCreateConfig_ok.1 hload
    exact coherent_new ((normalized_of_load hstored).valid hdb hconfig)
  | patch _ hpatch ih => exact ih.apply hpatch

end RuntimeConfigState
end FloralSync

import FloralSync.Admin.Api
import FloralSync.Config.Reload
import FloralSync.Config.Runtime

/-!
# Saving the settings as they are shown

The settings page shows the effective config, and a save patches the persisted one with everything it shows.
So a save takes back the changes that wait for a restart; `save_shown_iff` says exactly when it changes
nothing.
-/

namespace FloralSync

open Rust Stateful PathBuf

/-- The form of the settings page, as it posts what it was shown. -/
def SettingsResponse.request (response : SettingsResponse) : SettingsUpdateRequest where
  syncListen := some response.syncListen
  adminListen := some response.adminListen
  dbPath := some response.dbPath
  exportDir := some response.exportDir
  logPath := some response.logPath
  logLevel := some response.logLevel

/-- The settings that the last request showed, by a read or by a save. -/
inductive Shown (crates : Crates) : AdminState → SettingsResponse → Prop
  | settings {now headers s response} (h : exec (settings crates now headers) s = (.ok response, s)) :
      Shown crates s response
  | updateSettings {env now headers request s₀ s response}
      (h : exec (updateSettings crates env now headers request) s₀ = (.ok response, s)) :
      Shown crates s response.settings

/-- A path that does not wait for a restart. A relative one below a config directory that has a name is
resolved once more when it is posted, so it is another path that stays. -/
def PathSettled (configPath effective persisted : PathBuf) : Prop :=
  if effective.isAbsolute = true ∨ names (configPath.parent.getD ⟨"."⟩).segments = [] then effective ≈ persisted
  else (configPath.parent.getD ⟨"."⟩).join effective ≈ persisted

/-- Nothing waits for a restart. -/
structure RuntimeConfigState.Settled (state : RuntimeConfigState) : Prop where
  syncListen : state.effective.syncListen = state.persisted.syncListen
  adminListen : state.effective.adminListen = state.persisted.adminListen
  dbPath : PathSettled state.effective.configPath state.effective.dbPath state.persisted.dbPath
  exportDir : PathSettled state.effective.configPath state.effective.exportDir state.persisted.exportDir
  logPath : PathSettled state.effective.configPath state.effective.logPath state.persisted.logPath

section Settings

variable {crates : Crates} {env : FileEnv} {now : Instant} {headers : HeaderMap} {s s' : AdminState}
  {configPath path effective persisted : PathBuf} {response : SettingsResponse}
  {saved : SettingsUpdateResponse} {request : SettingsUpdateRequest} {state : RuntimeConfigState}
  {updated : ServerConfig}

theorem exec_settings_ok : exec (settings crates now headers) s = (.ok response, s') ↔
    (∃ claims, requireSession crates now headers s.runtime.effective = .ok claims) ∧
      response = settingsResponse (snapshotFromState s.runtime) ∧ s' = s := by
  unfold settings
  simp only [exec_bind_ok, exec_get, exec_liftExcept, exec_pure, Prod.mk.injEq, Except.ok.injEq]
  constructor
  · rintro ⟨_, _, ⟨rfl, rfl⟩, claims, _, ⟨hsession, rfl⟩, rfl, rfl⟩
    exact ⟨⟨claims, hsession⟩, rfl, rfl⟩
  · rintro ⟨⟨claims, hsession⟩, rfl, rfl⟩
    exact ⟨s', s', ⟨rfl, rfl⟩, claims, s', ⟨hsession, rfl⟩, rfl, rfl⟩

theorem exec_updateSettings_ok : exec (updateSettings crates env now headers request) s = (.ok saved, s') ↔
    (∃ claims, requireSession crates now headers s.runtime.effective = .ok claims) ∧
      requireSameOrigin headers = .ok () ∧
      exec (applyPatch true env request.patch s.runtime) s.file = (.ok s'.runtime, s'.file) ∧
      saved = ⟨settingsResponse (snapshotFromState s'.runtime), (snapshotFromState s'.runtime).pendingRestartFields⟩ := by
  unfold updateSettings
  simp only [exec_bind_ok, exec_get, exec_liftExcept, exec_updateConfig_ok, exec_pure, Prod.mk.injEq,
    Except.ok.injEq]
  constructor
  · rintro ⟨_, _, ⟨rfl, rfl⟩, claims, _, ⟨hsession, rfl⟩, _, _, ⟨horigin, rfl⟩, _, _, ⟨hpatch, rfl⟩, rfl, rfl⟩
    exact ⟨⟨claims, hsession⟩, horigin, hpatch, rfl⟩
  · rintro ⟨⟨claims, hsession⟩, horigin, hpatch, rfl⟩
    exact ⟨s, s, ⟨rfl, rfl⟩, claims, s, ⟨hsession, rfl⟩, (), s, ⟨horigin, rfl⟩, _, s', ⟨hpatch, rfl⟩, rfl, rfl⟩

theorem Shown.eq (h : Shown crates s response) : response = settingsResponse (snapshotFromState s.runtime) := by
  cases h with
  | settings h => exact (exec_settings_ok.1 h).2.1
  | updateSettings h =>
    obtain ⟨-, -, -, rfl⟩ := exec_updateSettings_ok.1 h
    rfl

/-- A path that is resolved again stays what it is, unless it is relative and the config directory has a
name. -/
theorem resolve_equiv_iff_pathSettled (h : Resolved configPath effective) :
    resolvePathFromConfig configPath effective ≈ persisted ↔ PathSettled configPath effective persisted := by
  unfold PathSettled
  rw [resolvePathFromConfig_eq_join]
  split_ifs with hcond
  · have hself : (configPath.parent.getD ⟨"."⟩).join effective ≈ effective := by
      rcases h.cases with habs | ⟨hdir, -⟩ | ⟨hdir, p, hp⟩
      · rw [join_of_isAbsolute habs]
      · rw [join_of_empty hdir]
      · have hfront := front_of_isPrefix ⟨_, hp.symm⟩ hdir
        cases habs : effective.isAbsolute with
        | true => rw [join_of_isAbsolute habs]
        | false =>
          refine (join_equiv_self habs hdir).2 ?_
          rw [components, hcond.resolve_left (by simp [habs]), List.append_nil, hfront]
    exact ⟨hself.symm.trans, hself.trans⟩
  · exact Iff.rfl

/-- Posting what is shown changes nothing in the persisted config if and only if nothing waits for a restart. -/
theorem same_of_request_iff (h : state.Coherent true)
    (hu : applyConfigPatch true state.persisted (settingsResponse (snapshotFromState state)).request.patch =
      .ok updated) : updated.Same state.persisted ↔ state.Settled := by
  obtain ⟨hpath, hsync, hadm, hdb, hexport, hlog, hlevel, htoken, hhash, hsecret⟩ := applyConfigPatch_eq_ok.1 hu
  have hsync : updated.syncListen = state.effective.syncListen :=
    Except.ok.inj (hsync.symm.trans
      (normalizeListenAddresses_eq_self h.effective.syncListen h.effective.syncListen_ne))
  have hadm : updated.adminListen = state.effective.adminListen :=
    Except.ok.inj (hadm.symm.trans h.effective.adminListen.normalize_eq)
  have hdb : updated.dbPath = resolvePathFromConfig state.effective.configPath state.effective.dbPath :=
    h.configPath ▸ patchedPath_eq hdb
  have hexport : updated.exportDir = resolvePathFromConfig state.effective.configPath state.effective.exportDir :=
    h.configPath ▸ patchedPath_eq hexport
  have hlog : updated.logPath = resolvePathFromConfig state.effective.configPath state.effective.logPath :=
    h.configPath ▸ patchedPath_eq hlog
  have hlevel : updated.logLevel = state.persisted.logLevel := by
    rw [(normalizePatchText_eq_ok.1 hlevel).2, h.logLevel]
    exact h.effective.logLevel.1
  have htoken : updated.syncToken = state.persisted.syncToken := (Except.ok.inj htoken).symm
  have hhash : updated.adminPasswordHash = state.persisted.adminPasswordHash := (Except.ok.inj hhash).symm
  constructor
  · intro hsame
    refine ⟨hsync ▸ hsame.syncListen, hadm ▸ hsame.adminListen, ?_, ?_, ?_⟩
    · exact (resolve_equiv_iff_pathSettled h.effective.dbPath).1 (hdb ▸ hsame.dbPath)
    · exact (resolve_equiv_iff_pathSettled h.effective.exportDir).1 (hexport ▸ hsame.exportDir)
    · exact (resolve_equiv_iff_pathSettled h.effective.logPath).1 (hlog ▸ hsame.logPath)
  · intro hsettled
    refine ⟨by rw [hpath], hsync.trans hsettled.syncListen, hadm.trans hsettled.adminListen, ?_, ?_, ?_, hlevel,
      htoken, hhash, hsecret⟩
    · exact hdb ▸ (resolve_equiv_iff_pathSettled h.effective.dbPath).2 hsettled.dbPath
    · exact hexport ▸ (resolve_equiv_iff_pathSettled h.effective.exportDir).2 hsettled.exportDir
    · exact hlog ▸ (resolve_equiv_iff_pathSettled h.effective.logPath).2 hsettled.logPath

/-- Saving the settings as they were shown. -/
theorem save_shown_iff (h : s.runtime.Reachable true) (hshown : Shown crates s response)
    (hsave : exec (updateSettings crates env now headers response.request) s = (.ok saved, s')) :
    s'.runtime.persisted.Same s.runtime.persisted ↔ s.runtime.Settled := by
  obtain ⟨-, -, hpatch, -⟩ := exec_updateSettings_ok.1 hsave
  obtain ⟨updated, hu, -, -, hruntime⟩ := exec_applyPatch_ok.1 hpatch
  rw [hshown.eq] at hu
  rw [hruntime]
  exact same_of_request_iff h.coherent hu

/-- A server with a password, and a log level that was changed. -/
def sampleConfig : ServerConfig := { firstConfig with adminPasswordHash := some sampleHash }

theorem reachable_sampleConfig : RuntimeConfigState.Reachable true ⟨sampleConfig, sampleConfig⟩ := by
  have hupdate : applyConfigPatch true firstConfig (passwordPatch sampleHash) = .ok sampleConfig :=
    applyConfigPatch_password trim_sampleHash.1 (by decide)
  have hpatch : exec (applyPatch true .calm (passwordPatch sampleHash) (.new firstConfig)) .missing =
      (.ok ⟨sampleConfig, sampleConfig⟩, .toml sampleConfig.document) :=
    exec_applyPatch_ok.2 ⟨sampleConfig, hupdate, writable_calm, rfl, rfl⟩
  exact .patch (.start (by nofun) load_firstConfig) hpatch

theorem requireSession_sampleConfig :
    requireSession sampleCrates sampleClaims.issuedAt sampleHeaders sampleConfig = .ok sampleClaims :=
  requireSession_sample sampleConfig (by decide) rfl rfl

theorem exec_save_sample (persisted updated : ServerConfig) (file : ConfigFile)
    (hu : applyConfigPatch true persisted
      (settingsResponse (snapshotFromState ⟨sampleConfig, persisted⟩)).request.patch = .ok updated) :
    Shown sampleCrates ⟨⟨sampleConfig, persisted⟩, file⟩
        (settingsResponse (snapshotFromState ⟨sampleConfig, persisted⟩)) ∧
      ∃ saved, exec (updateSettings sampleCrates .calm sampleClaims.issuedAt sampleHeaders
        (settingsResponse (snapshotFromState ⟨sampleConfig, persisted⟩)).request) ⟨⟨sampleConfig, persisted⟩, file⟩ =
          (.ok saved, ⟨RuntimeConfigState.update ⟨sampleConfig, persisted⟩ updated, .toml updated.document⟩) := by
  have hsession := requireSession_sampleConfig
  exact ⟨.settings (exec_settings_ok.2 ⟨⟨_, hsession⟩, rfl, rfl⟩), _, exec_updateSettings_ok.2 ⟨⟨_, hsession⟩,
    requireSameOrigin_sample, exec_applyPatch_ok.2 ⟨updated, hu, writable_calm, rfl, rfl⟩, rfl⟩⟩

/-- Nothing waits for a restart. -/
theorem save_shown_of_sampleConfig : ∃ response saved s',
    Shown sampleCrates ⟨⟨sampleConfig, sampleConfig⟩, .missing⟩ response ∧
    exec (updateSettings sampleCrates .calm sampleClaims.issuedAt sampleHeaders response.request)
      ⟨⟨sampleConfig, sampleConfig⟩, .missing⟩ = (.ok saved, s') ∧
    s'.runtime.persisted.Same sampleConfig := by
  obtain ⟨hshown, saved, hsave⟩ := exec_save_sample sampleConfig sampleConfig .missing rfl
  refine ⟨_, saved, _, hshown, hsave, (save_shown_iff reachable_sampleConfig hshown hsave).2 ⟨rfl, rfl, ?_, ?_, ?_⟩⟩
  all_goals rw [PathSettled, if_pos (.inl (by decide))]

/-- A new listen address waits for the restart when another change is saved from the same page. -/
theorem pending_listen_reverted : ∃ persisted response saved s',
    RuntimeConfigState.Reachable true ⟨sampleConfig, persisted⟩ ∧
    persisted.syncListen = ["127.0.0.1:9000"] ∧
    Shown sampleCrates ⟨⟨sampleConfig, persisted⟩, .missing⟩ response ∧
    exec (updateSettings sampleCrates .calm sampleClaims.issuedAt sampleHeaders response.request)
      ⟨⟨sampleConfig, persisted⟩, .missing⟩ = (.ok saved, s') ∧
    s'.runtime.persisted.syncListen = ["0.0.0.0:8787", "[::]:8787"] := by
  have hpatch : applyConfigPatch true sampleConfig { ConfigPatch.default with listen := some ["127.0.0.1:9000"] } =
      .ok { sampleConfig with syncListen := ["127.0.0.1:9000"] } := rfl
  have hexec : exec (applyPatch true .calm { ConfigPatch.default with listen := some ["127.0.0.1:9000"] }
      ⟨sampleConfig, sampleConfig⟩) .missing = (.ok ⟨sampleConfig, { sampleConfig with syncListen := ["127.0.0.1:9000"] }⟩,
        .toml { sampleConfig with syncListen := ["127.0.0.1:9000"] }.document) :=
    exec_applyPatch_ok.2 ⟨_, hpatch, writable_calm, rfl, rfl⟩
  obtain ⟨hshown, saved, hsave⟩ :=
    exec_save_sample { sampleConfig with syncListen := ["127.0.0.1:9000"] } sampleConfig .missing rfl
  exact ⟨_, _, saved, _, .patch reachable_sampleConfig hexec, rfl, hshown, hsave, rfl⟩

end Settings
end FloralSync

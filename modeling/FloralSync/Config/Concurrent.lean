import FloralSync.Config.Fields
import FloralSync.Trace

/-!
# The command line and a running server on one config file

`config set` reads the file and rewrites it in another process, while a server rewrites it from the copy
that it keeps in memory. A call's reads and writes are separate steps, so those of several calls come in any
order; a rename replaces the file at once.

A write takes the fields it does not set from the copy it is based on. So no setting is lost if and only if
every write is based on a copy that has the settings made so far (`settings_kept_iff`).
-/

namespace FloralSync

open Rust Stateful Trace

/-- A call of `update_config_file` after it has read the file. -/
structure CliCall where
  patch : ConfigPatch
  stored : StoredConfig
  needsWrite : Bool

structure Shared where
  file : ConfigFile
  server : RuntimeConfigState
  calls : List CliCall
  /-- What the last successful call that sets a field has made of it in the file. -/
  last : ConfigField → Option (Option TomlValue)

/-- A write: the contents of the copy it is based on, and the patch. -/
structure Write where
  base : TomlTable
  patch : ConfigPatch

/-- The server has loaded its config. -/
def Shared.start (config : ServerConfig) (file : ConfigFile) : Shared := ⟨file, .new config, [], fun _ => none⟩

/-- A call with this patch has succeeded. -/
def Shared.set (s : Shared) (patch : ConfigPatch) (document : TomlTable) : ConfigField → Option (Option TomlValue) :=
  fun field => if patch.sets field then some (document.lookup field.key) else s.last field

/-- The steps, and what they write to the file. A call that fails is given up at any point; a patch of the
server that fails changes nothing. -/
inductive Shared.Step (admin : Bool) (configPath : PathBuf) : Shared → Option Write → Shared → Prop
  | cliRead {s gen env patch stored needsWrite}
      (hread : exec (readStoredConfig admin gen env) s.file = (.ok (stored, needsWrite), s.file)) :
      Step admin configPath s none { s with calls := ⟨patch, stored, needsWrite⟩ :: s.calls }
  | cliWriteBack {s env patch stored before after file} (hcall : s.calls = before ++ ⟨patch, stored, true⟩ :: after)
      (hwrite : exec (writeStoredConfig env configPath stored) s.file = (.ok (), file)) :
      Step admin configPath s (some ⟨stored.serialize, .default⟩)
        { s with file := file, calls := before ++ ⟨patch, stored, false⟩ :: after }
  | cliWrite {s env patch stored before after current updated file}
      (hcall : s.calls = before ++ ⟨patch, stored, false⟩ :: after)
      (hcurrent : serverConfig admin configPath .default stored = .ok current)
      (hwrite : exec (applyAndPersistConfig admin env current patch) s.file = (.ok updated, file)) :
      Step admin configPath s (some ⟨current.document, patch⟩)
        { s with file := file, calls := before ++ after, last := s.set patch updated.document }
  | cliFail {s call before after} (hcall : s.calls = before ++ call :: after) :
      Step admin configPath s none { s with calls := before ++ after }
  | serverPatch {s env patch server file}
      (hpatch : exec (applyPatch admin env patch s.server) s.file = (.ok server, file)) :
      Step admin configPath s (some ⟨s.server.persisted.document, patch⟩)
        { s with file := file, server := server, last := s.set patch server.persisted.document }

def ConfigFile.entry : ConfigFile → ConfigField → Option TomlValue
  | .toml t, field => t.lookup field.key
  | _, _ => none

/-- A field has the value that was set last. -/
def Shared.KeepsSettings (s : Shared) : Prop := ∀ field v, s.last field = some v → s.file.entry field = v

/-- The copy that a write is based on has the settings that the write does not make itself. -/
def Shared.UpToDate (s : Shared) : Option Write → Prop
  | none => True
  | some w => ∀ field, w.patch.sets field = false → ∀ v, s.last field = some v → w.base.lookup field.key = v

section Settings

variable {admin : Bool} {gen : Generated} {env : FileEnv} {configPath : PathBuf} {s s' : Shared} {w : Option Write}
  {trace : List (Shared × Option Write)} {config : ServerConfig} {patch : ConfigPatch}
  {current updated : ServerConfig} {file : ConfigFile}

@[simp] theorem sets_default (field : ConfigField) : ConfigPatch.default.sets field = false := by
  cases field <;> rfl

/-- Writing a patched config keeps the settings if and only if what it is based on has them. -/
theorem keepsSettings_write (hpatch : applyConfigPatch admin current patch = .ok updated)
    (hfile : s'.file = .toml updated.document) (hlast : s'.last = s.set patch updated.document) :
    s'.KeepsSettings ↔ s.UpToDate (some ⟨current.document, patch⟩) := by
  unfold Shared.KeepsSettings Shared.UpToDate Shared.set at *
  rw [hfile, hlast]
  simp only [ConfigFile.entry, lookup_document]
  constructor
  · intro h field hnot v hv
    rw [← entry_of_not_sets hpatch hnot]
    exact h field v (by simp [hnot, hv])
  · intro h field v hv
    cases hset : patch.sets field with
    | true => simpa [hset] using hv
    | false =>
      rw [entry_of_not_sets hpatch hset]
      exact h field hset v (by simpa [hset] using hv)

theorem keepsSettings_step (h : s.KeepsSettings) (hstep : s.Step admin configPath w s') :
    s'.KeepsSettings ↔ s.UpToDate w := by
  cases hstep with
  | cliRead => exact iff_of_true h trivial
  | cliFail => exact iff_of_true h trivial
  | cliWriteBack hcall hwrite =>
    unfold writeStoredConfig at hwrite
    rw [exec_writeConfigContents] at hwrite
    split_ifs at hwrite
    · obtain ⟨-, rfl⟩ := Prod.mk.inj hwrite
      simp [Shared.KeepsSettings, Shared.UpToDate, ConfigFile.entry]
    · cases hwrite
  | cliWrite hcall hcurrent hwrite =>
    obtain ⟨hpatch, -, rfl⟩ := exec_applyAndPersistConfig_ok.1 hwrite
    exact keepsSettings_write hpatch rfl rfl
  | serverPatch h =>
    obtain ⟨u, hpatch, -, rfl, rfl⟩ := exec_applyPatch_ok.1 h
    exact keepsSettings_write hpatch rfl rfl

/-- A call of `update_config_file` that nothing interrupts is a run. -/
theorem run_of_updateConfigFile
    (h : exec (updateConfigFile admin gen env configPath patch) s.file = (.ok updated, file)) :
    ∃ trace, Run (Shared.Step admin configPath) s trace
      { s with file := file, last := s.set patch updated.document } := by
  obtain ⟨current, file₁, hload, hwrite⟩ := exec_bind_ok.1 h
  obtain ⟨stored, hstored, hcurrent⟩ := exec_loadOrCreateConfig_ok.1 hload
  obtain ⟨needsWrite, hreadable, hparse, hw, rfl⟩ := exec_loadOrCreateStoredConfig_ok.1 hstored
  have hread : exec (readStoredConfig admin gen env) s.file = (.ok (stored, needsWrite), s.file) := by
    rw [exec_readStoredConfig, if_pos hreadable, hparse]
  have hstep : Shared.Step admin configPath s none { s with calls := ⟨patch, stored, needsWrite⟩ :: s.calls } :=
    .cliRead hread
  have hrun := Run.start.step hstep
  cases needsWrite with
  | false => exact ⟨_, hrun.step (.cliWrite (show _ = [] ++ _ from rfl) hcurrent hwrite)⟩
  | true =>
    have hback : exec (writeStoredConfig env configPath stored) s.file = (.ok (), .toml stored.serialize) := by
      rw [writeStoredConfig, exec_writeConfigContents, if_pos (hw rfl)]
    exact ⟨_, (hrun.step (.cliWriteBack (show _ = [] ++ _ from rfl) hback)).step
      (.cliWrite (show _ = [] ++ _ from rfl) hcurrent hwrite)⟩

/-- No setting is lost in a run if and only if every write in it was based on a copy that had them. -/
theorem settings_kept_iff (h : Run (Shared.Step admin config.configPath) (.start config file) trace s) :
    Always Shared.KeepsSettings trace s ↔ ∀ x ∈ trace, x.1.UpToDate x.2 :=
  h.always_iff (fun _ => True) trivial (fun _ _ h => nomatch h) (fun _ _ => trivial)
    fun _ hkeeps hstep => keepsSettings_step hkeeps hstep

/-- A new token from the server, then a new address from `config set`, which has read the token. -/
theorem settings_kept_patch : ∃ trace s, s.last .token = some (some (.string "new")) ∧
    s.last .listen = some (some (.strings ["127.0.0.1:9000"])) ∧
    Run (Shared.Step true firstConfig.configPath) (.start firstConfig (.toml firstConfig.document)) trace s ∧
    Always Shared.KeepsSettings trace s := by
  have hpatch : exec (applyPatch true .calm { ConfigPatch.default with token := some "new" } (.new firstConfig))
      (.toml firstConfig.document) = (.ok (RuntimeConfigState.update (.new firstConfig)
        { firstConfig with syncToken := "new" }), .toml { firstConfig with syncToken := "new" }.document) := rfl
  have hread : exec (readStoredConfig true ⟨"x", "y"⟩ .calm) (.toml { firstConfig with syncToken := "new" }.document) =
      (.ok (.fromServerConfig { firstConfig with syncToken := "new" }, false),
        .toml { firstConfig with syncToken := "new" }.document) := by decide +kernel
  have hcurrent : serverConfig true firstConfig.configPath .default
      (.fromServerConfig { firstConfig with syncToken := "new" }) = .ok { firstConfig with syncToken := "new" } := by
    decide +kernel
  have hwrite : exec (applyAndPersistConfig true .calm { firstConfig with syncToken := "new" }
      { ConfigPatch.default with listen := some ["127.0.0.1:9000"] })
        (.toml { firstConfig with syncToken := "new" }.document) =
      (.ok { firstConfig with syncToken := "new", syncListen := ["127.0.0.1:9000"] },
        .toml { firstConfig with syncToken := "new", syncListen := ["127.0.0.1:9000"] }.document) := by
    decide +kernel
  have hrun : Run (Shared.Step true firstConfig.configPath) (.start firstConfig (.toml firstConfig.document)) _ _ :=
    ((Run.start.step (.serverPatch hpatch)).step (.cliRead hread)).step
      (.cliWrite (show _ = [] ++ _ from rfl) hcurrent hwrite)
  refine ⟨_, _, rfl, rfl, hrun, (settings_kept_iff hrun).2 ?_⟩
  simp only [List.forall_mem_cons, List.not_mem_nil, false_implies, implies_true, and_true]
  refine ⟨?_, trivial, ?_⟩
  -- The copy that the call has read has the new token.
  · intro field _ v hv
    cases field <;> cases hv
    rfl
  · intro field _ v hv
    cases hv

/-- The token that `config set` has set is lost when the server's log level is changed. -/
theorem token_lost : ∃ trace s,
    Run (Shared.Step true firstConfig.configPath) (.start firstConfig (.toml firstConfig.document)) trace s ∧
    s.last .token = some (some (.string "new")) ∧ s.file.entry .token = some (.string "t") := by
  have hcli : exec (updateConfigFile true ⟨"x", "y"⟩ .calm firstConfig.configPath
      { ConfigPatch.default with token := some "new" }) (.toml firstConfig.document) =
        (.ok { firstConfig with syncToken := "new" }, .toml { firstConfig with syncToken := "new" }.document) := rfl
  have hpatch : ∀ file, exec (applyPatch true .calm { ConfigPatch.default with logLevel := some "debug" }
      (.new firstConfig)) file = (.ok (RuntimeConfigState.update (.new firstConfig)
        { firstConfig with logLevel := "debug" }), .toml { firstConfig with logLevel := "debug" }.document) :=
    fun _ => rfl
  obtain ⟨trace, hrun⟩ := run_of_updateConfigFile
    (s := .start firstConfig (.toml firstConfig.document)) hcli
  exact ⟨_, _, hrun.step (.serverPatch (hpatch _)), rfl, rfl⟩

end Settings
end FloralSync

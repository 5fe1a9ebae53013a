import FloralSync.Config.Valid

/-!
# Settings, field by field

A patch sets some of the fields of a config. What the file says of each field (`entry`) is what the last
patch that sets it says, whatever the config was before: `entry_of_not_sets` and `entry_of_sets` for one
patch, `exec_applyPatches` for a sequence of them.
-/

namespace FloralSync

open Rust Stateful

/-- The settings that a patch can set. -/
inductive ConfigField
  | listen
  | adminListen
  | dbPath
  | exportDir
  | logPath
  | logLevel
  | token
  | adminPasswordHash
deriving DecidableEq

/-- The name of a field in the file. -/
def ConfigField.key : ConfigField → String
  | .listen => "sync_listen"
  | .adminListen => "admin_listen"
  | .dbPath => "db_path"
  | .exportDir => "export_dir"
  | .logPath => "log_path"
  | .logLevel => "log_level"
  | .token => "sync_token"
  | .adminPasswordHash => "admin_password_hash"

def ConfigPatch.sets (patch : ConfigPatch) : ConfigField → Bool
  | .listen => patch.listen.isSome
  | .adminListen => patch.adminListen.isSome
  | .dbPath => patch.dbPath.isSome
  | .exportDir => patch.exportDir.isSome
  | .logPath => patch.logPath.isSome
  | .logLevel => patch.logLevel.isSome
  | .token => patch.token.isSome
  | .adminPasswordHash => patch.adminPasswordHash.isSome

/-- What the file of a server says of a field. -/
def ServerConfig.entry (c : ServerConfig) : ConfigField → Option TomlValue
  | .listen => some (.strings c.syncListen)
  | .adminListen => if c.adminListen = [] then none else some (.strings c.adminListen)
  | .dbPath => some (.string (pathForStorage c.configPath c.dbPath))
  | .exportDir => some (.string (pathForStorage c.configPath c.exportDir))
  | .logPath => some (.string (pathForStorage c.configPath c.logPath))
  | .logLevel => some (.string c.logLevel)
  | .token => some (.string c.syncToken)
  | .adminPasswordHash => c.adminPasswordHash.map .string

section Patch

variable {admin : Bool} {c c' u u' : ServerConfig} {patch : ConfigPatch} {field : ConfigField}

theorem lookup_document (c : ServerConfig) (field : ConfigField) :
    c.document.lookup field.key = c.entry field := by
  by_cases hadmin : c.adminListen = [] <;> cases hhash : c.adminPasswordHash <;>
    by_cases hsecret : c.adminSessionSecret = "" <;> cases field <;>
    simp [ServerConfig.document, StoredConfig.fromServerConfig, StoredConfig.serialize, ConfigField.key,
      ServerConfig.entry, List.lookup_cons, hadmin, hhash, hsecret]

theorem document_eq_iff : c.document = c'.document ↔
    (∀ field, c.entry field = c'.entry field) ∧ c.adminSessionSecret = c'.adminSessionSecret := by
  constructor
  · intro h
    refine ⟨fun field => by rw [← lookup_document, ← lookup_document, h], ?_⟩
    have hstored := congrArg StoredConfig.deserialize h
    unfold ServerConfig.document at hstored
    rw [deserialize_serialize, deserialize_serialize] at hstored
    exact congrArg StoredConfig.adminSessionSecret (Except.ok.inj hstored)
  · rintro ⟨h, hsecret⟩
    have hadmin : c.adminListen = c'.adminListen := by
      have := h .adminListen
      unfold ServerConfig.entry at this
      split_ifs at this <;> simp_all
    have hhash : c.adminPasswordHash = c'.adminPasswordHash :=
      Option.map_injective (fun _ _ => TomlValue.string.inj) (h .adminPasswordHash)
    have hstrings : c.syncListen = c'.syncListen := TomlValue.strings.inj (Option.some.inj (h .listen))
    have hstring : ∀ {a b : String}, some (TomlValue.string a) = some (TomlValue.string b) → a = b :=
      fun h => TomlValue.string.inj (Option.some.inj h)
    simp only [ServerConfig.document, StoredConfig.fromServerConfig, hadmin, hhash, hstrings, hsecret,
      hstring (h .dbPath), hstring (h .exportDir), hstring (h .logPath), hstring (h .logLevel), hstring (h .token)]

theorem patchField_of_isSome {α β : Type} {b b' : β} {value : Option α} {normalize : α → Except ConfigError β}
    (h : value.isSome = true) : patchField b value normalize = patchField b' value normalize := by
  obtain ⟨a, rfl⟩ := Option.isSome_iff_exists.1 h
  rfl

theorem eq_of_patchField {α β : Type} {b b' : β} {value : Option α} {normalize : α → Except ConfigError β}
    (hvalue : value.isSome = false) (h : patchField b value normalize = .ok b') : b' = b := by
  obtain rfl := Option.isSome_eq_false_iff.1 hvalue |> Option.isNone_iff_eq_none.1
  exact (Except.ok.inj h).symm

theorem entry_of_not_sets (hu : applyConfigPatch admin c patch = .ok u) (h : patch.sets field = false) :
    u.entry field = c.entry field := by
  obtain ⟨hpath, h₁, h₂, h₃, h₄, h₅, h₆, h₇, h₈, -⟩ := applyConfigPatch_eq_ok.1 hu
  unfold ServerConfig.entry
  cases field
  · rw [eq_of_patchField h h₁]
  · rw [eq_of_patchField h h₂]
  · rw [eq_of_patchField h h₃, hpath]
  · rw [eq_of_patchField h h₄, hpath]
  · rw [eq_of_patchField h h₅, hpath]
  · rw [eq_of_patchField h h₆]
  · rw [eq_of_patchField h h₇]
  · rw [eq_of_patchField h h₈]

theorem entry_of_sets (hu : applyConfigPatch admin c patch = .ok u) (hu' : applyConfigPatch admin c' patch = .ok u')
    (hpath : c'.configPath = c.configPath) (h : patch.sets field = true) : u'.entry field = u.entry field := by
  obtain ⟨hc, h₁, h₂, h₃, h₄, h₅, h₆, h₇, h₈, -⟩ := applyConfigPatch_eq_ok.1 hu
  obtain ⟨hc', h₁', h₂', h₃', h₄', h₅', h₆', h₇', h₈', -⟩ := applyConfigPatch_eq_ok.1 hu'
  rw [hpath] at hc' h₃' h₄' h₅'
  unfold ServerConfig.entry
  rw [hc, hc']
  have hsame : ∀ {α β : Type} {b b' v v' : β} {value : Option α} {normalize : α → Except ConfigError β},
      value.isSome = true → patchField b value normalize = .ok v → patchField b' value normalize = .ok v' →
        v' = v := fun hvalue hv hv' => Except.ok.inj (hv'.symm.trans ((patchField_of_isSome hvalue).trans hv))
  cases field
  · rw [hsame h h₁ h₁']
  · rw [hsame h h₂ h₂']
  · rw [hsame h h₃ h₃']
  · rw [hsame h h₄ h₄']
  · rw [hsame h h₅ h₅']
  · rw [hsame h h₆ h₆']
  · rw [hsame h h₇ h₇']
  · rw [hsame h h₈ h₈']

/-- Whether a patch is accepted depends on the config path only. -/
theorem exists_applyConfigPatch (hu : applyConfigPatch admin c patch = .ok u)
    (hpath : c'.configPath = c.configPath) : ∃ u', applyConfigPatch admin c' patch = .ok u' := by
  obtain ⟨-, h₁, h₂, h₃, h₄, h₅, h₆, h₇, h₈, -⟩ := applyConfigPatch_eq_ok.1 hu
  have hok : ∀ {α β : Type} (b : β) {b' v : β} {value : Option α} {normalize : α → Except ConfigError β},
      patchField b' value normalize = .ok v → ∃ v', patchField b value normalize = .ok v' := by
    intro α β b b' v value normalize hv
    cases value with
    | none => exact ⟨b, rfl⟩
    | some a => exact ⟨v, hv⟩
  rw [← hpath] at h₃ h₄ h₅
  obtain ⟨syncListen, h₁⟩ := hok c'.syncListen h₁
  obtain ⟨adminListen, h₂⟩ := hok c'.adminListen h₂
  obtain ⟨dbPath, h₃⟩ := hok c'.dbPath h₃
  obtain ⟨exportDir, h₄⟩ := hok c'.exportDir h₄
  obtain ⟨logPath, h₅⟩ := hok c'.logPath h₅
  obtain ⟨logLevel, h₆⟩ := hok c'.logLevel h₆
  obtain ⟨token, h₇⟩ := hok c'.syncToken h₇
  obtain ⟨hash, h₈⟩ := hok c'.adminPasswordHash h₈
  exact ⟨⟨c'.configPath, syncListen, adminListen, dbPath, exportDir, logPath, logLevel, token, hash,
    c'.adminSessionSecret⟩, applyConfigPatch_eq_ok.2 ⟨rfl, h₁, h₂, h₃, h₄, h₅, h₆, h₇, h₈, rfl⟩⟩

end Patch

/-! ### Sequences of patches -/

/-- `apply_patch`, for each patch in turn. -/
def applyPatches (admin : Bool) (patches : List (FileEnv × ConfigPatch)) (state : RuntimeConfigState) :
    ConfigM RuntimeConfigState :=
  patches.foldlM (fun state patch => applyPatch admin patch.1 patch.2 state) state

/-- Some patch sets the field. -/
def setsSome (patches : List (FileEnv × ConfigPatch)) (field : ConfigField) : Prop :=
  ∃ patch ∈ patches, patch.2.sets field = true

section Patches

variable {admin : Bool} {patch : FileEnv × ConfigPatch} {patches : List (FileEnv × ConfigPatch)}
  {state state' state₁ other other' : RuntimeConfigState} {file file' file₁ file₂ : ConfigFile}
  {field : ConfigField}

theorem exec_applyPatches_nil : exec (applyPatches admin [] state) file = (.ok state', file') ↔
    state' = state ∧ file' = file := by
  show (Except.ok state, file) = (Except.ok state', file') ↔ _
  simp [eq_comm]

theorem exec_applyPatches_cons : exec (applyPatches admin (patch :: patches) state) file = (.ok state', file') ↔
    ∃ state₁ file₁, exec (applyPatch admin patch.1 patch.2 state) file = (.ok state₁, file₁) ∧
      exec (applyPatches admin patches state₁) file₁ = (.ok state', file') := by
  rw [applyPatches, List.foldlM_cons, exec_bind_ok]
  rfl

theorem file_of_applyPatches (h : exec (applyPatches admin patches state) file = (.ok state', file')) :
    file' = if patches = [] then file else .toml state'.persisted.document := by
  induction patches generalizing state file with
  | nil => exact (exec_applyPatches_nil.1 h).2
  | cons patch patches ih =>
    obtain ⟨state₁, file₁, hpatch, h⟩ := exec_applyPatches_cons.1 h
    obtain ⟨u, -, -, rfl, rfl⟩ := exec_applyPatch_ok.1 hpatch
    rw [ih h, if_neg (List.cons_ne_nil _ _)]
    split_ifs with hnil
    · subst hnil
      obtain ⟨rfl, -⟩ := exec_applyPatches_nil.1 h
      rfl
    · rfl

theorem fixed_of_applyPatches (h : exec (applyPatches admin patches state) file = (.ok state', file')) :
    state'.persisted.configPath = state.persisted.configPath ∧
      state'.persisted.adminSessionSecret = state.persisted.adminSessionSecret := by
  induction patches generalizing state file with
  | nil =>
    obtain ⟨rfl, -⟩ := exec_applyPatches_nil.1 h
    exact ⟨rfl, rfl⟩
  | cons patch patches ih =>
    obtain ⟨state₁, file₁, hpatch, h⟩ := exec_applyPatches_cons.1 h
    obtain ⟨u, hu, -, -, rfl⟩ := exec_applyPatch_ok.1 hpatch
    obtain ⟨hpath, -, -, -, -, -, -, -, -, hsecret⟩ := applyConfigPatch_eq_ok.1 hu
    exact ⟨(ih h).1.trans hpath, (ih h).2.trans hsecret⟩

theorem entry_of_applyPatches (h : exec (applyPatches admin patches state) file = (.ok state', file'))
    (hfield : ¬ setsSome patches field) : state'.persisted.entry field = state.persisted.entry field := by
  induction patches generalizing state file with
  | nil => rw [(exec_applyPatches_nil.1 h).1]
  | cons patch patches ih =>
    obtain ⟨state₁, file₁, hpatch, h⟩ := exec_applyPatches_cons.1 h
    obtain ⟨u, hu, -, -, rfl⟩ := exec_applyPatch_ok.1 hpatch
    have hhead : patch.2.sets field = false :=
      Bool.eq_false_iff.2 fun hset => hfield ⟨patch, List.mem_cons_self .., hset⟩
    rw [ih h fun ⟨p, hp, hset⟩ => hfield ⟨p, List.mem_cons_of_mem _ hp, hset⟩]
    exact entry_of_not_sets hu hhead

/-- From another config at the same path the same patches succeed, and agree on what they set. -/
theorem exists_applyPatches (other : RuntimeConfigState)
    (h : exec (applyPatches admin patches state) file = (.ok state', file')) (hpath : other.persisted.configPath = state.persisted.configPath) (file₁ : ConfigFile) :
    ∃ other' file₂, exec (applyPatches admin patches other) file₁ = (.ok other', file₂) ∧
      ∀ field, setsSome patches field → other'.persisted.entry field = state'.persisted.entry field := by
  induction patches generalizing state other file file₁ with
  | nil => exact ⟨other, file₁, exec_applyPatches_nil.2 ⟨rfl, rfl⟩, fun _ ⟨_, hp, _⟩ => nomatch hp⟩
  | cons patch patches ih =>
    obtain ⟨state₁, _, hpatch, h⟩ := exec_applyPatches_cons.1 h
    obtain ⟨u, hu, hw, -, rfl⟩ := exec_applyPatch_ok.1 hpatch
    obtain ⟨v, hv⟩ := exists_applyConfigPatch hu hpath
    have huv : v.configPath = u.configPath := by
      rw [(applyConfigPatch_eq_ok.1 hv).1, (applyConfigPatch_eq_ok.1 hu).1, hpath]
    obtain ⟨other', file₂, hother, hagree⟩ := ih (other.update v) h huv (.toml v.document)
    refine ⟨other', file₂, exec_applyPatches_cons.2 ⟨_, _, exec_applyPatch_ok.2 ⟨v, hv, hpath ▸ hw, rfl, rfl⟩,
      hother⟩, fun field hfield => ?_⟩
    by_cases htail : setsSome patches field
    · exact hagree field htail
    · -- the last patch that sets the field is the first one
      rw [entry_of_applyPatches hother htail, entry_of_applyPatches h htail]
      obtain ⟨p, hp, hset⟩ := hfield
      rcases List.mem_cons.1 hp with rfl | hp
      · exact entry_of_sets hu hv hpath hset
      · exact absurd ⟨p, hp, hset⟩ htail

end Patches
end FloralSync

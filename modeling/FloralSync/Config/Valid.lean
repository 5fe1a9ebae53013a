import FloralSync.Config.Server
import Mathlib.Data.List.Nodup

/-!
# What loading and patching give

One lemma for each function of the config, saying what it did when it succeeded, and the properties of the
configs that come out (`ServerConfig.Valid`): whatever the file and the patches say, the values are such
that normalising them again changes nothing.
-/

namespace FloralSync

open Rust Stateful

/-- Addresses as normalising leaves them. -/
structure ListenList (l : List String) : Prop where
  nodup : l.Nodup
  trimmed : ∀ a ∈ l, trim a = a
  nonempty : ∀ a ∈ l, a ≠ ""
  socketAddr : ∀ a ∈ l, isSocketAddr a = true

section Listen

variable {admin : Bool} {fieldName : String} {l n : List String}

theorem listenList_nil : ListenList [] := by constructor <;> simp

theorem ListenList.concat {a : String} (h : ListenList l) (ha : a ∉ l) (htrim : trim a = a) (hne : a ≠ "")
    (haddr : isSocketAddr a = true) : ListenList (l ++ [a]) where
  nodup := by rw [List.nodup_append_comm, List.singleton_append]; exact List.nodup_cons.2 ⟨ha, h.nodup⟩
  trimmed := by simpa [or_imp, forall_and, htrim] using h.trimmed
  nonempty := by simpa [or_imp, forall_and, hne] using h.nonempty
  socketAddr := by simpa [or_imp, forall_and, haddr] using h.socketAddr

theorem listenList_of_normalize (h : normalizeOptionalListenAddresses fieldName l = .ok n) : ListenList n := by
  refine Except.foldlM_induct (P := fun _ n => ListenList n) listenList_nil ?_ h
  intro _ address n n' hn hstep
  dsimp only at hstep
  split_ifs at hstep with hblank hbad hmem
  · exact Except.ok.inj hstep ▸ hn
  · exact Except.ok.inj hstep ▸ hn
  · exact Except.ok.inj hstep ▸ hn.concat hmem (trim_trim _) hblank (by simpa using hbad)

theorem ListenList.normalize_eq (h : ListenList l) : normalizeOptionalListenAddresses fieldName l = .ok l := by
  suffices H : ∀ rest done, done ++ rest = l → rest.foldlM (fun normalized address =>
      if trim address = "" then .ok normalized
      else if !isSocketAddr (trim address) then
        .error (.invalid (fieldName ++ " entry must be a valid socket address: " ++ trim address))
      else if trim address ∈ normalized then .ok normalized
      else .ok (normalized ++ [trim address])) done = (.ok l : Except ConfigError _) from H l [] rfl
  intro rest
  induction rest with
  | nil => rintro done rfl; rw [List.append_nil]; rfl
  | cons a rest ih =>
    intro done hdone
    have ha : a ∈ l := hdone ▸ by simp
    have hnotMem : a ∉ done := by
      have hnodup := h.nodup
      rw [← hdone] at hnodup
      exact fun hmem => List.disjoint_of_nodup_append hnodup hmem (List.mem_cons_self ..)
    rw [List.foldlM_cons, h.trimmed a ha, if_neg (h.nonempty a ha), if_neg (by simp [h.socketAddr a ha]),
      if_neg hnotMem]
    exact ih _ (by rw [List.append_assoc]; exact hdone)

theorem normalizeListenAddresses_eq_ok : normalizeListenAddresses fieldName l = .ok n ↔
    normalizeOptionalListenAddresses fieldName l = .ok n ∧ n ≠ [] := by
  simp only [normalizeListenAddresses, Except.bind_eq_ok]
  constructor
  · rintro ⟨m, hm, h⟩
    split_ifs at h with hnil
    · cases h
    · obtain rfl := Except.ok.inj h
      exact ⟨hm, hnil⟩
  · rintro ⟨hn, hne⟩
    exact ⟨n, hn, by rw [if_neg hne]; rfl⟩

theorem normalizeListenAddresses_eq_self (h : ListenList l) (hne : l ≠ []) :
    normalizeListenAddresses fieldName l = .ok l :=
  normalizeListenAddresses_eq_ok.2 ⟨h.normalize_eq, hne⟩

/-- An admin server has an address to listen on. -/
structure AdminListenList (admin : Bool) (l : List String) : Prop where
  list : ListenList l
  nonempty : admin = true → l ≠ []

theorem adminListenList_of_normalize (h : normalizeAdminListen admin l = .ok n) : AdminListenList admin n := by
  unfold normalizeAdminListen at h
  split_ifs at h with hadmin
  · obtain ⟨h, hne⟩ := normalizeListenAddresses_eq_ok.1 h
    exact ⟨listenList_of_normalize h, fun _ => hne⟩
  · exact ⟨listenList_of_normalize h, fun h => absurd h hadmin⟩

theorem AdminListenList.normalize_eq (h : AdminListenList admin l) : normalizeAdminListen admin l = .ok l := by
  unfold normalizeAdminListen
  split_ifs with hadmin
  · exact normalizeListenAddresses_eq_self h.list (h.nonempty hadmin)
  · exact h.list.normalize_eq

end Listen

section Stored

variable {admin : Bool} {gen : Generated} {stored normalized : StoredConfig} {changed : Bool}

theorem deserialize_serialize (s : StoredConfig) :
    StoredConfig.deserialize s.serialize = .ok { s with listen := [], bind := none, token := "" } := by
  obtain ⟨_, _, _, _, _, _, _, _, _, adminListen, hash, secret⟩ := s
  by_cases hadmin : adminListen = [] <;> by_cases hsecret : secret = "" <;> cases hash <;>
    simp [StoredConfig.deserialize, StoredConfig.serialize, stringField, stringsField, optionalField,
      List.lookup_cons, hadmin, hsecret] <;> rfl

theorem checkNotBlank_eq_ok {fieldName value : String} {u : Unit} :
    checkNotBlank fieldName value = .ok u ↔ trim value ≠ "" := by
  unfold checkNotBlank
  split_ifs with h <;> simp [h]

/-- The checks at the end of `normalize_stored_config`. -/
structure StoredConfig.NotBlank (admin : Bool) (s : StoredConfig) : Prop where
  dbPath : trim s.dbPath ≠ ""
  exportDir : trim s.exportDir ≠ ""
  logPath : trim s.logPath ≠ ""
  logLevel : trim s.logLevel ≠ ""
  syncToken : trim s.syncToken ≠ ""
  adminSessionSecret : admin = true → trim s.adminSessionSecret ≠ ""

theorem checkStoredConfig_eq_ok {u : Unit} : checkStoredConfig admin stored = .ok u ↔ stored.NotBlank admin := by
  simp only [checkStoredConfig, Except.bind_eq_ok, checkNotBlank_eq_ok, exists_const]
  constructor
  · rintro ⟨hdb, hexport, hlog, hlevel, htoken, h⟩
    refine ⟨hdb, hexport, hlog, hlevel, htoken, fun hadmin => ?_⟩
    rw [if_pos hadmin] at h
    exact checkNotBlank_eq_ok.1 h
  · intro h
    refine ⟨h.dbPath, h.exportDir, h.logPath, h.logLevel, h.syncToken, ?_⟩
    split_ifs with hadmin
    · exact checkNotBlank_eq_ok.2 (h.adminSessionSecret hadmin)
    · rfl

theorem normalizeStoredConfig_eq_ok : normalizeStoredConfig admin gen stored = .ok (normalized, changed) ↔
    ∃ syncListen c₁ adminListen c₂, normalizeSyncListen stored = .ok (syncListen, c₁) ∧
      normalizeStoredAdminListen admin stored = .ok (adminListen, c₂) ∧
      normalized = normalizeFields admin gen stored syncListen adminListen ∧ normalized.NotBlank admin ∧
      changed = (c₁ || c₂ || fieldsChanged admin gen stored) := by
  simp only [normalizeStoredConfig, Except.bind_eq_ok, checkStoredConfig_eq_ok, Prod.exists, exists_const]
  constructor
  · rintro ⟨syncListen, c₁, hsync, adminListen, c₂, hadm, hblank, h⟩
    obtain ⟨rfl, rfl⟩ := Prod.mk.inj (Except.ok.inj h)
    exact ⟨syncListen, c₁, adminListen, c₂, hsync, hadm, rfl, hblank, rfl⟩
  · rintro ⟨syncListen, c₁, adminListen, c₂, hsync, hadm, rfl, hblank, rfl⟩
    exact ⟨syncListen, c₁, hsync, adminListen, c₂, hadm, hblank, rfl⟩

/-- A lone default address of the old servers stands for both. -/
def expandLegacy (l : List String) : List String :=
  if isLegacySingleStackDefaultSyncListen l then defaultSyncListen else l

theorem normalizeSyncListen_eq_ok {l : List String} : (∃ c, normalizeSyncListen stored = .ok (l, c)) ↔
    ∃ n, normalizeListenAddresses "sync_listen" (migratedSyncListen stored) = .ok n ∧ l = expandLegacy n := by
  simp only [normalizeSyncListen, Except.bind_eq_ok, expandLegacy]
  constructor
  · rintro ⟨c, n, hn, h⟩
    refine ⟨n, hn, ?_⟩
    split_ifs at h ⊢ <;> exact (Prod.mk.inj (Except.ok.inj h)).1.symm
  · rintro ⟨n, hn, rfl⟩
    split_ifs with hlegacy
    · exact ⟨_, n, hn, by rw [if_pos hlegacy]; rfl⟩
    · exact ⟨_, n, hn, by rw [if_neg hlegacy]; rfl⟩

theorem normalizeStoredAdminListen_eq_ok {l : List String} :
    (∃ c, normalizeStoredAdminListen admin stored = .ok (l, c)) ↔
      normalizeAdminListen admin
        (if stored.adminListen = [] ∧ admin then defaultAdminListen admin else stored.adminListen) = .ok l := by
  simp only [normalizeStoredAdminListen, Except.bind_eq_ok]
  constructor
  · rintro ⟨c, n, hn, h⟩
    rw [hn, (Prod.mk.inj (Except.ok.inj h)).1]
  · intro hn
    exact ⟨_, l, hn, rfl⟩

/-- A config as normalising leaves it. -/
structure StoredConfig.Normalized (admin : Bool) (s : StoredConfig) : Prop where
  syncListen : ListenList s.syncListen
  syncListen_ne : s.syncListen ≠ []
  not_legacy : isLegacySingleStackDefaultSyncListen s.syncListen = false
  adminListen : AdminListenList admin s.adminListen
  listen : s.listen = []
  bind : s.bind = none
  token : s.token = ""
  adminPasswordHash : ∀ hash ∈ s.adminPasswordHash, trim hash = hash ∧ hash ≠ ""
  notBlank : s.NotBlank admin

theorem listenList_default : ListenList defaultSyncListen := by
  constructor <;> decide

theorem normalized_of_normalize (h : normalizeStoredConfig admin gen stored = .ok (normalized, changed)) :
    normalized.Normalized admin := by
  obtain ⟨syncListen, c₁, adminListen, c₂, hsync, hadm, rfl, hblank, -⟩ := normalizeStoredConfig_eq_ok.1 h
  obtain ⟨n, hn, rfl⟩ := normalizeSyncListen_eq_ok.1 ⟨c₁, hsync⟩
  obtain ⟨hn, hne⟩ := normalizeListenAddresses_eq_ok.1 hn
  have hadm := normalizeStoredAdminListen_eq_ok.1 ⟨c₂, hadm⟩
  have hexpand : ListenList (expandLegacy n) ∧ expandLegacy n ≠ [] ∧
      isLegacySingleStackDefaultSyncListen (expandLegacy n) = false := by
    unfold expandLegacy
    split_ifs with hlegacy
    · exact ⟨listenList_default, by decide, by decide⟩
    · exact ⟨listenList_of_normalize hn, hne, by simpa using hlegacy⟩
  refine ⟨hexpand.1, hexpand.2.1, hexpand.2.2, adminListenList_of_normalize hadm, rfl, rfl, rfl, ?_, hblank⟩
  intro hash hhash
  change hash ∈ (normalizePasswordHash stored.adminPasswordHash).1 at hhash
  unfold normalizePasswordHash at hhash
  split at hhash
  · split_ifs at hhash with hblank'
    · cases hhash
    · obtain rfl := Option.some.inj hhash
      exact ⟨trim_trim _, hblank'⟩
  · cases hhash

end Stored

/-! ### The server config -/

/-- A path below the config directory, or an absolute one. -/
def Resolved (configPath path : PathBuf) : Prop := ∃ p : PathBuf, p.text ≠ "" ∧ path = resolvePathFromConfig configPath p

/-- What every config of a server satisfies. -/
structure ServerConfig.Valid (admin : Bool) (c : ServerConfig) : Prop where
  syncListen : ListenList c.syncListen
  syncListen_ne : c.syncListen ≠ []
  adminListen : AdminListenList admin c.adminListen
  dbPath : Resolved c.configPath c.dbPath
  exportDir : Resolved c.configPath c.exportDir
  logPath : Resolved c.configPath c.logPath
  logLevel : trim c.logLevel = c.logLevel ∧ c.logLevel ≠ ""
  syncToken : trim c.syncToken = c.syncToken ∧ c.syncToken ≠ ""
  adminPasswordHash : ∀ hash ∈ c.adminPasswordHash, trim hash = hash ∧ hash ≠ ""
  adminSessionSecret : trim c.adminSessionSecret = c.adminSessionSecret
  adminSessionSecret_ne : admin = true → c.adminSessionSecret ≠ ""

/-- What a config satisfies even where its paths come from the command line. -/
structure ServerConfig.Usable (admin : Bool) (c : ServerConfig) : Prop where
  syncListen : ListenList c.syncListen
  syncListen_ne : c.syncListen ≠ []
  adminListen : AdminListenList admin c.adminListen
  logLevel : trim c.logLevel = c.logLevel ∧ c.logLevel ≠ ""
  syncToken : trim c.syncToken = c.syncToken ∧ c.syncToken ≠ ""
  adminPasswordHash : ∀ hash ∈ c.adminPasswordHash, trim hash = hash ∧ hash ≠ ""
  adminSessionSecret : trim c.adminSessionSecret = c.adminSessionSecret
  adminSessionSecret_ne : admin = true → c.adminSessionSecret ≠ ""

section Server

variable {admin : Bool} {configPath : PathBuf} {overrides : ConfigOverrides} {stored : StoredConfig}
  {c u : ServerConfig} {patch : ConfigPatch}

theorem ServerConfig.Valid.usable (h : c.Valid admin) : c.Usable admin :=
  ⟨h.syncListen, h.syncListen_ne, h.adminListen, h.logLevel, h.syncToken, h.adminPasswordHash,
    h.adminSessionSecret, h.adminSessionSecret_ne⟩

theorem ServerConfig.Usable.valid (h : c.Usable admin) (hdb : Resolved c.configPath c.dbPath)
    (hexport : Resolved c.configPath c.exportDir) (hlog : Resolved c.configPath c.logPath) : c.Valid admin :=
  ⟨h.syncListen, h.syncListen_ne, h.adminListen, hdb, hexport, hlog, h.logLevel, h.syncToken, h.adminPasswordHash,
    h.adminSessionSecret, h.adminSessionSecret_ne⟩

theorem ne_of_trim_ne {s : String} (h : trim s ≠ "") : s ≠ "" := by
  rintro rfl
  exact h rfl

theorem serverConfig_eq_ok : serverConfig admin configPath overrides stored = .ok c ↔
    c.configPath = configPath ∧
    normalizeListenAddresses "sync_listen" (overrides.listen.getD stored.syncListen) = .ok c.syncListen ∧
    normalizeAdminListen admin stored.adminListen = .ok c.adminListen ∧
    c.dbPath = resolvePathFromConfig configPath (overrides.dbPath.getD ⟨stored.dbPath⟩) ∧
    c.exportDir = resolvePathFromConfig configPath ⟨stored.exportDir⟩ ∧
    c.logPath = resolvePathFromConfig configPath ⟨stored.logPath⟩ ∧
    c.logLevel = trim stored.logLevel ∧
    c.syncToken = trim (overrides.token.getD stored.syncToken) ∧ c.syncToken ≠ "" ∧
    c.adminPasswordHash = stored.adminPasswordHash ∧
    c.adminSessionSecret = trim stored.adminSessionSecret := by
  simp only [serverConfig, Except.bind_eq_ok]
  constructor
  · rintro ⟨syncListen, hsync, h⟩
    split_ifs at h with htoken
    · cases h
    · obtain ⟨adminListen, hadm, h⟩ := Except.bind_eq_ok.1 h
      obtain rfl := Except.ok.inj h
      exact ⟨rfl, hsync, hadm, rfl, rfl, rfl, rfl, rfl, htoken, rfl, rfl⟩
  · rintro ⟨hpath, hsync, hadm, hdb, hexport, hlog, hlevel, htoken, htokenne, hhash, hsecret⟩
    refine ⟨c.syncListen, hsync, ?_⟩
    rw [if_neg (htoken ▸ htokenne)]
    exact Except.bind_eq_ok.2 ⟨c.adminListen, hadm, congrArg Except.ok (ServerConfig.ext hpath.symm rfl rfl
      hdb.symm hexport.symm hlog.symm hlevel.symm htoken.symm hhash.symm hsecret.symm)⟩

theorem StoredConfig.Normalized.usable (h : stored.Normalized admin)
    (hc : serverConfig admin configPath overrides stored = .ok c) : c.Usable admin := by
  obtain ⟨-, hsync, hadm, -, -, -, hlevel, htoken, htokenne, hhash, hsecret⟩ := serverConfig_eq_ok.1 hc
  obtain ⟨hsync, hne⟩ := normalizeListenAddresses_eq_ok.1 hsync
  exact {
    syncListen := listenList_of_normalize hsync
    syncListen_ne := hne
    adminListen := adminListenList_of_normalize hadm
    logLevel := by rw [hlevel]; exact ⟨trim_trim _, h.notBlank.logLevel⟩
    syncToken := ⟨by rw [htoken, trim_trim], htokenne⟩
    adminPasswordHash := hhash ▸ h.adminPasswordHash
    adminSessionSecret := by rw [hsecret, trim_trim]
    adminSessionSecret_ne := fun hadmin => hsecret ▸ h.notBlank.adminSessionSecret hadmin }

theorem StoredConfig.Normalized.valid (h : stored.Normalized admin) (hdb : ∀ p ∈ overrides.dbPath, p.text ≠ "")
    (hc : serverConfig admin configPath overrides stored = .ok c) : c.Valid admin := by
  have husable := h.usable hc
  obtain ⟨rfl, -, -, hdbPath, hexport, hlog, -⟩ := serverConfig_eq_ok.1 hc
  have hdb' : (overrides.dbPath.getD ⟨stored.dbPath⟩).text ≠ "" := by
    cases ho : overrides.dbPath with
    | none => exact ne_of_trim_ne h.notBlank.dbPath
    | some p => exact hdb p ho
  exact husable.valid ⟨_, hdb', hdbPath⟩ ⟨⟨stored.exportDir⟩, ne_of_trim_ne h.notBlank.exportDir, hexport⟩
    ⟨⟨stored.logPath⟩, ne_of_trim_ne h.notBlank.logPath, hlog⟩

/-- Without overrides, what has been normalised can be loaded. -/
theorem StoredConfig.Normalized.exists_serverConfig (h : stored.Normalized admin) (configPath : PathBuf) :
    ∃ c, serverConfig admin configPath .default stored = .ok c ∧ c.syncListen = stored.syncListen := by
  refine ⟨{
    configPath
    syncListen := stored.syncListen
    adminListen := stored.adminListen
    dbPath := resolvePathFromConfig configPath ⟨stored.dbPath⟩
    exportDir := resolvePathFromConfig configPath ⟨stored.exportDir⟩
    logPath := resolvePathFromConfig configPath ⟨stored.logPath⟩
    logLevel := trim stored.logLevel
    syncToken := trim stored.syncToken
    adminPasswordHash := stored.adminPasswordHash
    adminSessionSecret := trim stored.adminSessionSecret }, serverConfig_eq_ok.2 ?_, rfl⟩
  exact ⟨rfl, normalizeListenAddresses_eq_self h.syncListen h.syncListen_ne, h.adminListen.normalize_eq, rfl, rfl,
    rfl, rfl, rfl, h.notBlank.syncToken, rfl, rfl⟩

theorem applyConfigPatch_eq_ok : applyConfigPatch admin c patch = .ok u ↔
    u.configPath = c.configPath ∧
    patchField c.syncListen patch.listen (normalizeListenAddresses "sync_listen") = .ok u.syncListen ∧
    patchField c.adminListen patch.adminListen (normalizeAdminListen admin) = .ok u.adminListen ∧
    patchField c.dbPath patch.dbPath (normalizePatchPath c.configPath "db_path") = .ok u.dbPath ∧
    patchField c.exportDir patch.exportDir (normalizePatchPath c.configPath "export_dir") = .ok u.exportDir ∧
    patchField c.logPath patch.logPath (normalizePatchPath c.configPath "log_path") = .ok u.logPath ∧
    patchField c.logLevel patch.logLevel (normalizePatchText "log_level") = .ok u.logLevel ∧
    patchField c.syncToken patch.token (normalizePatchText "sync_token") = .ok u.syncToken ∧
    patchField c.adminPasswordHash patch.adminPasswordHash
      (fun value => some <$> normalizePatchText "admin_password_hash" value) = .ok u.adminPasswordHash ∧
    u.adminSessionSecret = c.adminSessionSecret := by
  simp only [applyConfigPatch, Except.bind_eq_ok]
  constructor
  · rintro ⟨_, h₁, _, h₂, _, h₃, _, h₄, _, h₅, _, h₆, _, h₇, _, h₈, h⟩
    obtain rfl := Except.ok.inj h
    exact ⟨rfl, h₁, h₂, h₃, h₄, h₅, h₆, h₇, h₈, rfl⟩
  · rintro ⟨hpath, h₁, h₂, h₃, h₄, h₅, h₆, h₇, h₈, hsecret⟩
    refine ⟨_, h₁, _, h₂, _, h₃, _, h₄, _, h₅, _, h₆, _, h₇, _, h₈, ?_⟩
    rw [← hpath, ← hsecret]
    rfl

theorem patchField_eq_ok {α β : Type} {current b : β} {value : Option α} {normalize : α → Except ConfigError β} :
    patchField current value normalize = .ok b ↔
      (value = none ∧ b = current) ∨ ∃ a, value = some a ∧ normalize a = .ok b := by
  cases value <;> simp [patchField, eq_comm]

theorem normalizePatchPath_eq_ok {fieldName : String} {p q : PathBuf} :
    normalizePatchPath configPath fieldName p = .ok q ↔ p.text ≠ "" ∧ q = resolvePathFromConfig configPath p := by
  unfold normalizePatchPath
  split_ifs with h <;> simp [h, eq_comm]

theorem normalizePatchText_eq_ok {fieldName value v : String} :
    normalizePatchText fieldName value = .ok v ↔ trim value ≠ "" ∧ v = trim value := by
  unfold normalizePatchText
  split_ifs with h <;> simp [h, eq_comm]

theorem applyConfigPatch_password {hash : String} (htrim : trim hash = hash) (hne : hash ≠ "") :
    applyConfigPatch admin c { ConfigPatch.default with adminPasswordHash := some hash } =
      .ok { c with adminPasswordHash := some hash } := by
  refine applyConfigPatch_eq_ok.2 ⟨rfl, rfl, rfl, rfl, rfl, rfl, rfl, rfl, ?_, rfl⟩
  exact Except.map_eq_ok.2 ⟨hash, normalizePatchText_eq_ok.2 ⟨htrim.symm ▸ hne, htrim.symm⟩, rfl⟩

theorem of_patchField {α β : Type} {P : β → Prop} {current b : β} {value : Option α}
    {normalize : α → Except ConfigError β} (h : patchField current value normalize = .ok b) (hcurrent : P current)
    (hnormalize : ∀ a b, normalize a = .ok b → P b) : P b := by
  rcases patchField_eq_ok.1 h with ⟨-, rfl⟩ | ⟨a, -, ha⟩
  · exact hcurrent
  · exact hnormalize a b ha

theorem ServerConfig.Usable.apply (h : c.Usable admin) (hu : applyConfigPatch admin c patch = .ok u) :
    u.Usable admin := by
  obtain ⟨-, h₁, h₂, -, -, -, h₆, h₇, h₈, hsecret⟩ := applyConfigPatch_eq_ok.1 hu
  have hsync : ListenList u.syncListen ∧ u.syncListen ≠ [] :=
    of_patchField (P := fun l => ListenList l ∧ l ≠ []) h₁ ⟨h.syncListen, h.syncListen_ne⟩ fun l n hn =>
      (normalizeListenAddresses_eq_ok.1 hn).imp listenList_of_normalize id
  have htext : ∀ {fieldName : String} (value v : String), normalizePatchText fieldName value = .ok v →
      trim v = v ∧ v ≠ "" := by
    intro _ value v hv
    obtain ⟨hne, rfl⟩ := normalizePatchText_eq_ok.1 hv
    exact ⟨trim_trim _, hne⟩
  exact {
    syncListen := hsync.1
    syncListen_ne := hsync.2
    adminListen := of_patchField h₂ h.adminListen fun _ _ => adminListenList_of_normalize
    logLevel := of_patchField (P := fun v => trim v = v ∧ v ≠ "") h₆ h.logLevel htext
    syncToken := of_patchField (P := fun v => trim v = v ∧ v ≠ "") h₇ h.syncToken htext
    adminPasswordHash := of_patchField (P := fun o => ∀ hash ∈ o, trim hash = hash ∧ hash ≠ "") h₈
      h.adminPasswordHash fun value o ho => by
        obtain ⟨v, hv, rfl⟩ := Except.map_eq_ok.1 ho
        rintro _ ⟨⟩
        exact htext value v hv
    adminSessionSecret := hsecret ▸ h.adminSessionSecret
    adminSessionSecret_ne := hsecret ▸ h.adminSessionSecret_ne }

theorem ServerConfig.Valid.apply (h : c.Valid admin) (hu : applyConfigPatch admin c patch = .ok u) :
    u.Valid admin := by
  obtain ⟨hpath, -, -, h₃, h₄, h₅, -⟩ := applyConfigPatch_eq_ok.1 hu
  have hresolved : ∀ {fieldName : String} (p q : PathBuf), normalizePatchPath c.configPath fieldName p = .ok q →
      Resolved u.configPath q := fun p q hq => hpath ▸ ⟨p, normalizePatchPath_eq_ok.1 hq⟩
  exact (h.usable.apply hu).valid (of_patchField h₃ (hpath ▸ h.dbPath) hresolved)
    (of_patchField h₄ (hpath ▸ h.exportDir) hresolved) (of_patchField h₅ (hpath ▸ h.logPath) hresolved)

end Server

/-! ### The config file

What the functions make of the file, and when they fail. -/

section File

variable {admin : Bool} {gen : Generated} {env : FileEnv} {configPath : PathBuf} {overrides : ConfigOverrides}
  {file file' : ConfigFile} {stored : StoredConfig} {needsWrite : Bool} {c u : ServerConfig} {patch : ConfigPatch}
  {state state' : RuntimeConfigState}

/-- No step of a write fails. -/
def writable (env : FileEnv) (configPath : PathBuf) : Bool :=
  !(configPath.parent.isSome && env .createDir) && !env .createTemp && !env .writeAll && !env .syncAll &&
    !env .rename

theorem writable_calm : writable .calm configPath = true := by simp [writable, FileEnv.calm]

theorem exec_fileStep_bind {α : Type} (step : FileStep) (f : Unit → ConfigM α) :
    exec (fileStep env step >>= f) file = if env step then (.error .io, file) else exec (f ()) file := by
  unfold fileStep
  split_ifs <;> rfl

/-- A write is all or nothing. -/
theorem exec_writeConfigContents (t : TomlTable) : exec (writeConfigContents env configPath t) file =
    if writable env configPath then (.ok (), .toml t) else (.error .io, file) := by
  unfold writeConfigContents writable
  cases hdir : configPath.parent.isSome <;> cases h₀ : env .createDir <;> cases h₁ : env .createTemp <;>
    cases h₂ : env .writeAll <;> cases h₃ : env .syncAll <;> cases h₄ : env .rename <;>
    simp [exec_fileStep_bind, h₀, h₁, h₂, h₃, h₄]

/-- The contents of the config file of a server. -/
def ServerConfig.document (c : ServerConfig) : TomlTable := (StoredConfig.fromServerConfig c).serialize

theorem exec_applyAndPersistConfig : exec (applyAndPersistConfig admin env c patch) file =
    match applyConfigPatch admin c patch with
    | .error e => (.error e, file)
    | .ok u => if writable env c.configPath then (.ok u, .toml u.document) else (.error .io, file) := by
  unfold applyAndPersistConfig writeServerConfig writeStoredConfig
  rw [exec_bind, exec_liftExcept]
  cases h : applyConfigPatch admin c patch with
  | error e => rfl
  | ok u =>
    dsimp only
    rw [exec_bind, exec_writeConfigContents, (applyConfigPatch_eq_ok.1 h).1]
    split_ifs <;> rfl

theorem exec_applyAndPersistConfig_ok : exec (applyAndPersistConfig admin env c patch) file = (.ok u, file') ↔
    applyConfigPatch admin c patch = .ok u ∧ writable env c.configPath = true ∧ file' = .toml u.document := by
  rw [exec_applyAndPersistConfig]
  cases applyConfigPatch admin c patch with
  | error e => simp
  | ok v =>
    dsimp only
    split_ifs with h
    · simp only [Prod.mk.injEq, Except.ok.injEq, h, true_and]
      constructor <;> rintro ⟨rfl, rfl⟩ <;> exact ⟨rfl, rfl⟩
    · simp [h]

/-- A patch that fails leaves the file as it was. -/
theorem exec_applyAndPersistConfig_error {e : ConfigError}
    (h : exec (applyAndPersistConfig admin env c patch) file = (.error e, file')) : file' = file := by
  rw [exec_applyAndPersistConfig] at h
  split at h
  · exact (Prod.mk.inj h).2.symm
  · split_ifs at h
    · cases h
    · exact (Prod.mk.inj h).2.symm

theorem exec_applyPatch_ok : exec (applyPatch admin env patch state) file = (.ok state', file') ↔
    ∃ u, applyConfigPatch admin state.persisted patch = .ok u ∧ writable env state.persisted.configPath = true ∧
      file' = .toml u.document ∧ state' = state.update u := by
  simp only [applyPatch, exec_bind_ok, exec_applyAndPersistConfig_ok, exec_pure, Prod.mk.injEq, Except.ok.injEq]
  constructor
  · rintro ⟨u, _, ⟨hu, hw, rfl⟩, rfl, rfl⟩
    exact ⟨u, hu, hw, rfl, rfl⟩
  · rintro ⟨u, hu, hw, rfl, rfl⟩
    exact ⟨u, _, ⟨hu, hw, rfl⟩, rfl, rfl⟩

theorem exec_applyPatch_error {e : ConfigError}
    (h : exec (applyPatch admin env patch state) file = (.error e, file')) : file' = file := by
  rcases exec_bind_error.1 h with h | ⟨_, _, -, h⟩
  · exact exec_applyAndPersistConfig_error h
  · cases h

/-- The file can be read, if it is there. -/
def readable (env : FileEnv) (file : ConfigFile) : Bool := file = .missing ∨ env .read = false

theorem exec_readStoredConfig : exec (readStoredConfig admin gen env) file =
    (if readable env file then parseStoredConfig admin gen file else .error .io, file) := by
  unfold readStoredConfig readable
  rw [exec_bind, exec_get]
  by_cases hfile : file = .missing
  · simp [hfile]
  · cases henv : env .read <;> simp [hfile, henv, exec_fileStep_bind]

theorem exec_writeBack_ok {s : StoredConfig} : exec (do
    if needsWrite then
      writeStoredConfig env configPath s
    return s) file = (.ok stored, file') ↔ s = stored ∧ (needsWrite = true → writable env configPath = true) ∧
      file' = if needsWrite then .toml stored.serialize else file := by
  cases needsWrite with
  | false =>
    show (Except.ok s, file) = (Except.ok stored, file') ↔ _
    rw [Prod.mk.injEq, Except.ok.injEq]
    constructor
    · rintro ⟨rfl, rfl⟩
      exact ⟨rfl, nofun, rfl⟩
    · rintro ⟨rfl, -, rfl⟩
      exact ⟨rfl, rfl⟩
  | true =>
    rw [if_pos rfl, exec_bind, writeStoredConfig, exec_writeConfigContents]
    cases hw : writable env configPath with
    | false => simp
    | true =>
      show (Except.ok s, ConfigFile.toml s.serialize) = (Except.ok stored, file') ↔ _
      rw [Prod.mk.injEq, Except.ok.injEq]
      constructor
      · rintro ⟨rfl, rfl⟩
        exact ⟨rfl, fun _ => rfl, rfl⟩
      · rintro ⟨rfl, -, rfl⟩
        exact ⟨rfl, rfl⟩

theorem exec_loadOrCreateStoredConfig_ok :
    exec (loadOrCreateStoredConfig admin gen env configPath) file = (.ok stored, file') ↔
      ∃ needsWrite, readable env file = true ∧ parseStoredConfig admin gen file = .ok (stored, needsWrite) ∧
        (needsWrite = true → writable env configPath = true) ∧
        file' = if needsWrite then .toml stored.serialize else file := by
  unfold loadOrCreateStoredConfig
  rw [exec_bind, exec_readStoredConfig]
  cases hread : readable env file with
  | false => simp
  | true =>
    rw [if_pos rfl]
    cases parseStoredConfig admin gen file with
    | error e => simp
    | ok r =>
      dsimp only
      rw [exec_writeBack_ok]
      simp only [Except.ok.injEq, Prod.ext_iff, true_and]
      constructor
      · rintro ⟨rfl, hw, hfile⟩
        exact ⟨r.2, ⟨rfl, rfl⟩, hw, hfile⟩
      · rintro ⟨_, ⟨rfl, rfl⟩, hw, hfile⟩
        exact ⟨rfl, hw, hfile⟩

theorem parseStoredConfig_normalized (h : parseStoredConfig admin gen file = .ok (stored, needsWrite)) :
    stored.Normalized admin := by
  obtain ⟨_, -, h⟩ := Except.bind_eq_ok.1 h
  obtain ⟨r, hnorm, h⟩ := Except.bind_eq_ok.1 h
  obtain ⟨rfl, -⟩ := Prod.mk.inj (Except.ok.inj h)
  exact normalized_of_normalize hnorm

theorem exec_loadOrCreateConfig_ok :
    exec (loadOrCreateConfig admin gen env configPath overrides) file = (.ok c, file') ↔
      ∃ stored, exec (loadOrCreateStoredConfig admin gen env configPath) file = (.ok stored, file') ∧
        serverConfig admin configPath overrides stored = .ok c := by
  simp only [loadOrCreateConfig, exec_bind_ok, exec_liftExcept, Prod.mk.injEq]
  constructor
  · rintro ⟨stored, _, h, hc, rfl⟩
    exact ⟨stored, h, hc⟩
  · rintro ⟨stored, h, hc⟩
    exact ⟨stored, file', h, hc, rfl⟩

theorem normalized_of_load
    (h : exec (loadOrCreateStoredConfig admin gen env configPath) file = (.ok stored, file')) :
    stored.Normalized admin := by
  obtain ⟨_, -, hparse, -⟩ := exec_loadOrCreateStoredConfig_ok.1 h
  exact parseStoredConfig_normalized hparse

/-- The config of a first start at `/srv`. -/
def firstConfig : ServerConfig where
  configPath := ⟨"/srv/sync-server.toml"⟩
  syncListen := defaultSyncListen
  adminListen := defaultAdminListen true
  dbPath := ⟨"/srv/data/floral-sync.sqlite3"⟩
  exportDir := ⟨"/srv/exports"⟩
  logPath := ⟨"/srv/logs/floral-sync-server.log"⟩
  logLevel := "info"
  syncToken := "t"
  adminPasswordHash := none
  adminSessionSecret := "s"

theorem load_firstConfig : exec (loadOrCreateConfig true ⟨"t", "s"⟩ .calm firstConfig.configPath .default) .missing =
    (.ok firstConfig, .toml firstConfig.document) := by decide +kernel

end File
end FloralSync

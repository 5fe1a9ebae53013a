import FloralSync.Config.Disk
import FloralSync.Config.Reload
import Mathlib.Logic.Relation

/-!
# Settings that wait for a restart

`pending_restart_fields` is compiled from a comparison of five fields. It is exact for a running server
(`pendingRestartFields_exact`) because `apply_patch` takes over the others at once, and leaves these five of the
effective config alone.
-/

namespace FloralSync

open Rust Stateful Relation

/-- The fields of `ServerConfig`. -/
inductive ServerField
  | configPath
  | syncListen
  | adminListen
  | dbPath
  | exportDir
  | logPath
  | logLevel
  | syncToken
  | adminPasswordHash
  | adminSessionSecret
deriving DecidableEq

/-- The name of a field in a response. -/
def ServerField.name : ServerField → String
  | .configPath => "configPath"
  | .syncListen => "syncListen"
  | .adminListen => "adminListen"
  | .dbPath => "dbPath"
  | .exportDir => "exportDir"
  | .logPath => "logPath"
  | .logLevel => "logLevel"
  | .syncToken => "syncToken"
  | .adminPasswordHash => "adminPasswordHash"
  | .adminSessionSecret => "adminSessionSecret"

/-- Two configs have the same value of a field. -/
def ServerConfig.Agree (c c' : ServerConfig) : ServerField → Prop
  | .configPath => c.configPath ≈ c'.configPath
  | .syncListen => c.syncListen = c'.syncListen
  | .adminListen => c.adminListen = c'.adminListen
  | .dbPath => c.dbPath ≈ c'.dbPath
  | .exportDir => c.exportDir ≈ c'.exportDir
  | .logPath => c.logPath ≈ c'.logPath
  | .logLevel => c.logLevel = c'.logLevel
  | .syncToken => c.syncToken = c'.syncToken
  | .adminPasswordHash => c.adminPasswordHash = c'.adminPasswordHash
  | .adminSessionSecret => c.adminSessionSecret = c'.adminSessionSecret

/-- The fields that a running server does not take over. -/
def ServerField.NeedsRestart : ServerField → Prop
  | .syncListen | .adminListen | .dbPath | .exportDir | .logPath => True
  | _ => False

/-- A call of `apply_patch`, whatever it returns. -/
def Process.Patched (admin : Bool) (s s' : Process) : Prop :=
  ∃ env patch result, exec (RuntimeConfig.applyPatch admin env patch) s = (result, s')

/-- The state of a server that was started with a config. -/
structure RuntimeConfigState.StartedWith (initial : ServerConfig) (state : RuntimeConfigState) : Prop where
  syncListen : state.effective.syncListen = initial.syncListen
  adminListen : state.effective.adminListen = initial.adminListen
  dbPath : state.effective.dbPath = initial.dbPath
  exportDir : state.effective.exportDir = initial.exportDir
  logPath : state.effective.logPath = initial.logPath
  configPath : state.effective.configPath = state.persisted.configPath
  logLevel : state.effective.logLevel = state.persisted.logLevel
  syncToken : state.effective.syncToken = state.persisted.syncToken
  adminPasswordHash : state.effective.adminPasswordHash = state.persisted.adminPasswordHash
  adminSessionSecret : state.effective.adminSessionSecret = state.persisted.adminSessionSecret

section Pending

variable {admin : Bool} {s s' : Process} {disk : Disk} {initial c c' u : ServerConfig} {state : RuntimeConfigState}
  {patch : ConfigPatch} {field : ServerField} {name : String}

theorem same_iff_agree : c.Same c' ↔ ∀ field, c.Agree c' field := by
  constructor
  · rintro ⟨_, _, _, _, _, _, _, _, _, _⟩ field
    cases field <;> assumption
  · intro h
    exact ⟨h .configPath, h .syncListen, h .adminListen, h .dbPath, h .exportDir, h .logPath, h .logLevel,
      h .syncToken, h .adminPasswordHash, h .adminSessionSecret⟩

/-- The list names the fields that need a restart and differ. -/
theorem mem_pendingRestartFieldsFor : name ∈ pendingRestartFieldsFor c c' ↔
    ∃ field : ServerField, field.NeedsRestart ∧ field.name = name ∧ ¬ c.Agree c' field := by
  have hmem : ∀ {p : Prop} [Decidable p] {n : String}, name ∈ (if p then [n] else []) ↔ n = name ∧ p := by
    intro p _ n
    split_ifs with h <;> simp [h, eq_comm]
  simp only [pendingRestartFieldsFor, List.mem_append, hmem]
  constructor
  · rintro ((((h | h) | h) | h) | h)
    · exact ⟨.syncListen, trivial, h⟩
    · exact ⟨.adminListen, trivial, h⟩
    · exact ⟨.dbPath, trivial, h⟩
    · exact ⟨.exportDir, trivial, h⟩
    · exact ⟨.logPath, trivial, h⟩
  · rintro ⟨field, hrestart, h⟩
    cases field <;> try cases hrestart
    · exact .inl (.inl (.inl (.inl h)))
    · exact .inl (.inl (.inl (.inr h)))
    · exact .inl (.inl (.inr h))
    · exact .inl (.inr h)
    · exact .inr h

namespace RuntimeConfigState.StartedWith

theorem new : (RuntimeConfigState.new initial).StartedWith initial := by constructor <;> rfl

theorem update (h : state.StartedWith initial) (hu : applyConfigPatch admin state.persisted patch = .ok u) :
    (state.update u).StartedWith initial where
  syncListen := h.syncListen
  adminListen := h.adminListen
  dbPath := h.dbPath
  exportDir := h.exportDir
  logPath := h.logPath
  configPath := h.configPath.trans (applyConfigPatch_eq_ok.1 hu).1.symm
  logLevel := rfl
  syncToken := rfl
  adminPasswordHash := rfl
  adminSessionSecret := rfl

theorem of_patched (h : s.state.StartedWith initial) (hstep : s.Patched admin s') : s'.state.StartedWith initial := by
  obtain ⟨env, patch, result, hexec⟩ := hstep
  rcases runtimeConfig_applyPatch_cases hexec with ⟨-, -, hs, -⟩ | ⟨u, hu, -, hs, -⟩ <;> rw [hs]
  · exact h
  · exact h.update hu

theorem of_run (h : ReflTransGen (Process.Patched admin) ⟨disk, .new initial⟩ s) : s.state.StartedWith initial := by
  induction h with
  | refl => exact new
  | tail _ hstep ih => exact ih.of_patched hstep

theorem needsRestart (h : state.StartedWith initial) (hdiffer : ¬ state.effective.Agree state.persisted field) :
    field.NeedsRestart := by
  cases field
  case configPath => exact hdiffer (congrArg PathBuf.components h.configPath)
  case logLevel => exact hdiffer h.logLevel
  case syncToken => exact hdiffer h.syncToken
  case adminPasswordHash => exact hdiffer h.adminPasswordHash
  case adminSessionSecret => exact hdiffer h.adminSessionSecret
  all_goals trivial

theorem mem_pending (h : state.StartedWith initial) :
    name ∈ (snapshotFromState state).pendingRestartFields ↔
      ∃ field : ServerField, field.name = name ∧ ¬ state.effective.Agree state.persisted field := by
  show name ∈ pendingRestartFieldsFor _ _ ↔ _
  rw [mem_pendingRestartFieldsFor]
  constructor
  · rintro ⟨field, -, h⟩
    exact ⟨field, h⟩
  · rintro ⟨field, hname, hdiffer⟩
    exact ⟨field, h.needsRestart hdiffer, hname, hdiffer⟩

theorem pending_eq_nil (h : state.StartedWith initial) :
    (snapshotFromState state).pendingRestartFields = [] ↔ state.effective.Same state.persisted := by
  simp only [List.eq_nil_iff_forall_not_mem, h.mem_pending, same_iff_agree]
  constructor
  · intro hnone field
    by_contra hdiffer
    exact hnone _ ⟨field, rfl, hdiffer⟩
  · rintro hagree name ⟨field, -, hdiffer⟩
    exact hdiffer (hagree field)

end RuntimeConfigState.StartedWith

/-- However many patches succeed or fail, the fields that are named are those that differ, and nothing but them
differs from the initial config in what the server runs with. -/
theorem pendingRestartFields_exact (h : ReflTransGen (Process.Patched admin) ⟨disk, .new initial⟩ s) :
    (∀ name, name ∈ (snapshotFromState s.state).pendingRestartFields ↔
      ∃ field : ServerField, field.name = name ∧ ¬ s.state.effective.Agree s.state.persisted field) ∧
    ((snapshotFromState s.state).pendingRestartFields = [] ↔ s.state.effective.Same s.state.persisted) ∧
    s.state.StartedWith initial := by
  have hstarted := RuntimeConfigState.StartedWith.of_run h
  exact ⟨fun _ => hstarted.mem_pending, hstarted.pending_eq_nil, hstarted⟩

/-- A new log file waits for a restart. -/
theorem pendingRestartFields_log : ∃ s, ReflTransGen (Process.Patched true) ⟨fun _ => .missing, .new firstConfig⟩ s ∧
    "logPath" ∈ (snapshotFromState s.state).pendingRestartFields := by
  obtain ⟨disk, -, hexec⟩ := exec_runtimeConfig_applyPatch true .calm
    { ConfigPatch.default with logPath := some ⟨"new.log"⟩ } ⟨fun _ => .missing, .new firstConfig⟩
  have hrun : ReflTransGen (Process.Patched true) ⟨fun _ => .missing, .new firstConfig⟩
    ⟨disk, RuntimeConfigState.update (.new firstConfig) { firstConfig with logPath := ⟨"/srv/new.log"⟩ }⟩ :=
    .single ⟨_, _, _, hexec⟩
  refine ⟨_, hrun, ((pendingRestartFields_exact hrun).1 _).2 ⟨.logPath, rfl, ?_⟩⟩
  show ¬ firstConfig.logPath ≈ ⟨"/srv/new.log"⟩
  decide

end Pending
end FloralSync

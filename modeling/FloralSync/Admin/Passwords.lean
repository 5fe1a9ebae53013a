import FloralSync.Admin.Settings
import FloralSync.Trace

/-!
# Requests that change the password at the same time (`admin_api.rs`)

A request reads the effective config once, when it starts, and holds the lock of the runtime config again
only for its patch. So others come between its check and its patch, and a check that another password
change has overtaken still leads to a patch.
-/

namespace FloralSync

open Rust Except Stateful Trace

inductive PasswordRequest
  | bootstrap
  | changePassword
deriving DecidableEq

/-- A password change: the hash its check saw, and how many hashes there had been by then. -/
structure PasswordWrite where
  request : PasswordRequest
  checked : Option String
  readAt : Nat
deriving DecidableEq

/-- What a request still has to do. -/
inductive Pending
  | update (write : PasswordWrite) (passwordHash : String)
  | issue (config : ServerConfig)

/-- A session: the key of its MAC, its claims, the password hash they are about, and how many hashes there
had been when it was issued. -/
structure Issued where
  key : String
  claims : AdminSessionClaims
  passwordHash : Option String
  issuedIn : Nat

/-- A running server, with the requests under way, the effective password hashes so far (newest first) and
the sessions that were issued. -/
structure AdminSystem where
  runtime : RuntimeConfigState
  pending : List Pending
  hashes : List (Option String)
  issued : List Issued

/-- A password change that has read the config now. -/
def AdminSystem.read (s : AdminSystem) (request : PasswordRequest) : PasswordWrite where
  request := request
  checked := s.runtime.effective.adminPasswordHash
  readAt := s.hashes.length

/-- The config file may have been changed by others before any patch; a patch does not read it. A request may
end at any point, because it fails or because its client goes away. -/
inductive AdminSystem.Step (crates : Crates) : AdminSystem → Option PasswordWrite → AdminSystem → Prop
  | login {headers password s} (h : checkLogin crates headers password s.runtime.effective = .ok ()) :
      Step crates s none { s with pending := .issue s.runtime.effective :: s.pending }
  | bootstrap {headers password salt passwordHash s}
      (h : checkBootstrap crates headers password salt s.runtime.effective = .ok passwordHash) :
      Step crates s none { s with pending := .update (s.read .bootstrap) passwordHash :: s.pending }
  | changePassword {now headers request salt passwordHash s}
      (h : checkPasswordChange crates now headers request salt s.runtime.effective = .ok passwordHash) :
      Step crates s none { s with pending := .update (s.read .changePassword) passwordHash :: s.pending }
  | update {env file runtime file' before after write passwordHash s}
      (hpending : s.pending = before ++ .update write passwordHash :: after)
      (h : exec (applyPatch true env (passwordPatch passwordHash) s.runtime) file = (.ok runtime, file')) :
      Step crates s (some write) { s with
        runtime
        pending := before ++ .issue runtime.effective :: after
        hashes := runtime.effective.adminPasswordHash :: s.hashes }
  | issue {sessionId now reply before after config s} (hpending : s.pending = before ++ .issue config :: after)
      (h : issueSessionResponse crates sessionId now config = .ok reply) :
      Step crates s none { s with
        pending := before ++ after
        issued := ⟨trim config.adminSessionSecret, newClaims crates sessionId now config, config.adminPasswordHash,
          s.hashes.length⟩ :: s.issued }
  | giveUp {before after request s} (hpending : s.pending = before ++ request :: after) :
      Step crates s none { s with pending := before ++ after }
  | patch {env file patch runtime file' s} (hpassword : patch.adminPasswordHash = none)
      (h : exec (applyPatch true env patch s.runtime) file = (.ok runtime, file')) :
      Step crates s none { s with runtime }

/-- What is known of a password change under way, from the hashes so far. -/
structure PasswordWrite.Genuine (hashes : List (Option String)) (write : PasswordWrite) : Prop where
  readAt_le : write.readAt ≤ hashes.length
  checked : (asOf write.readAt hashes).head? = some write.checked
  bootstrap : write.checked = none ↔ write.request = .bootstrap
  configured : write.readAt < hashes.length → hashes.head? ≠ some none

structure Issued.Genuine (crates : Crates) (hashes : List (Option String)) (session : Issued) : Prop where
  issuedIn_le : session.issuedIn ≤ hashes.length
  passwordHash : ∃ hash, session.passwordHash = some hash ∧ session.claims.passwordVersion = crates.hash hash ∧
    some hash ∈ asOf session.issuedIn hashes

/-- A request about to issue a session has a config with a password. -/
def Pending.Genuine (hashes : List (Option String)) : Pending → Prop
  | .update write _ => write.Genuine hashes
  | .issue config => ∃ hash, config.adminPasswordHash = some hash ∧ some hash ∈ hashes

structure AdminSystem.Inv (crates : Crates) (s : AdminSystem) : Prop where
  coherent : s.runtime.Coherent true
  head : s.hashes.head? = some s.runtime.effective.adminPasswordHash
  pending : ∀ request ∈ s.pending, request.Genuine s.hashes
  issued : ∀ session ∈ s.issued, session.Genuine crates s.hashes

/-- A server that has just started. Sessions from before, and the hashes they were about, stay known. -/
structure AdminSystem.Start (crates : Crates) (s : AdminSystem) : Prop where
  reachable : s.runtime.Reachable true
  head : s.hashes.head? = some s.runtime.effective.adminPasswordHash
  pending : s.pending = []
  issued : ∀ session ∈ s.issued, session.Genuine crates s.hashes

/-- Each hash string is new, as its salt is random. -/
def Fresh (hashes : List (Option String)) : Prop := ∀ hash, hashes.count (some hash) ≤ 1

/-- If the step is a password change, then there was no other one since it read the config. -/
def Uninterrupted (x : AdminSystem × Option PasswordWrite) : Prop := ∀ write ∈ x.2, write.readAt = x.1.hashes.length

def IsBootstrap (x : AdminSystem × Option PasswordWrite) : Bool := x.2.any (·.request = .bootstrap)

/-- Every bootstrap of the run replaces a missing hash, there is at most one, and every other password change
replaces the hash it checked the current password against. -/
structure NeverStale (trace : List (AdminSystem × Option PasswordWrite)) : Prop where
  bootstrap : ∀ x ∈ trace, ∀ write ∈ x.2, write.request = .bootstrap → x.1.runtime.effective.adminPasswordHash = none
  changePassword : ∀ x ∈ trace, ∀ write ∈ x.2, write.request = .changePassword →
    x.1.runtime.effective.adminPasswordHash = write.checked
  once : trace.countP IsBootstrap ≤ 1

section Inv

variable {crates : Crates} {s s' : AdminSystem} {label : Option PasswordWrite} {write : PasswordWrite}
  {hashes : List (Option String)} {hash passwordHash password salt : String} {now : Instant} {headers : HeaderMap}
  {request : PasswordChangeRequest} {config : ServerConfig} {env : FileEnv} {file file' : ConfigFile}
  {runtime runtime' : RuntimeConfigState} {patch : ConfigPatch}

theorem checkLogin_configured {u : Unit} (h : checkLogin crates headers password config = .ok u) :
    ∃ hash, config.adminPasswordHash = some hash := by
  simp only [checkLogin, bind_eq_ok, okOr_eq_ok] at h
  obtain ⟨_, -, _, -, hash, hhash, -⟩ := h
  exact ⟨hash, hhash⟩

theorem checkBootstrap_missing (h : checkBootstrap crates headers password salt config = .ok passwordHash) :
    config.adminPasswordHash = none := by
  simp only [checkBootstrap, bind_eq_ok, ensure_eq_ok] at h
  obtain ⟨_, -, _, hrequired, -⟩ := h
  simpa [bootstrapRequired] using hrequired

/-- The hash that is replaced is the one the current password was verified against. -/
theorem checkPasswordChange_verified
    (h : checkPasswordChange crates now headers request salt config = .ok passwordHash) :
    ∃ hash, config.adminPasswordHash = some hash ∧
      verifyAdminPassword crates hash request.currentPassword = .ok true := by
  simp only [checkPasswordChange, bind_eq_ok, okOr_eq_ok, ensure_eq_ok, mapError_eq_ok] at h
  obtain ⟨_, -, _, -, _, -, _, -, hash, hhash, _, hverified, _, rfl, -⟩ := h
  exact ⟨hash, hhash, hverified⟩

theorem passwordHash_of_update (h : exec (applyPatch true env (passwordPatch passwordHash) runtime) file =
    (.ok runtime', file')) : runtime'.effective.adminPasswordHash = some (trim passwordHash) := by
  obtain ⟨u, hu, -, -, rfl⟩ := exec_applyPatch_ok.1 h
  obtain ⟨-, -, -, -, -, -, -, -, hhash, -⟩ := applyConfigPatch_eq_ok.1 hu
  obtain ⟨_, hhash, heq⟩ := map_eq_ok.1 hhash
  rw [(normalizePatchText_eq_ok.1 hhash).2] at heq
  exact heq.symm

theorem passwordHash_of_patch (hpassword : patch.adminPasswordHash = none) (hcoherent : runtime.Coherent true)
    (h : exec (applyPatch true env patch runtime) file = (.ok runtime', file')) :
    runtime'.effective.adminPasswordHash = runtime.effective.adminPasswordHash := by
  obtain ⟨u, hu, -, -, rfl⟩ := exec_applyPatch_ok.1 h
  obtain ⟨-, -, -, -, -, -, -, -, hhash, -⟩ := applyConfigPatch_eq_ok.1 hu
  rw [hpassword] at hhash
  exact (Except.ok.inj hhash).symm.trans hcoherent.adminPasswordHash

theorem PasswordWrite.Genuine.cons (h : write.Genuine hashes) : write.Genuine (some hash :: hashes) where
  readAt_le := Nat.le_succ_of_le h.readAt_le
  checked := by rw [asOf_cons h.readAt_le, h.checked]
  bootstrap := h.bootstrap
  configured := by simp

theorem Issued.Genuine.cons {session : Issued} (h : session.Genuine crates hashes) :
    session.Genuine crates (some hash :: hashes) := by
  obtain ⟨hash, hhash, hversion, hmem⟩ := h.passwordHash
  exact ⟨Nat.le_succ_of_le h.issuedIn_le, hash, hhash, hversion, by rwa [asOf_cons h.issuedIn_le]⟩

theorem Pending.Genuine.cons {pending : Pending} (h : pending.Genuine hashes) :
    pending.Genuine (some hash :: hashes) := by
  rcases pending with _ | _
  · exact PasswordWrite.Genuine.cons h
  · obtain ⟨hash, hhash, hmem⟩ := h
    exact ⟨hash, hhash, List.mem_cons_of_mem _ hmem⟩

theorem AdminSystem.Start.inv (h : s.Start crates) : s.Inv crates :=
  ⟨h.reachable.coherent, h.head, by simp [h.pending], h.issued⟩

namespace AdminSystem.Inv

theorem mem (h : s.Inv crates) (hhash : s.runtime.effective.adminPasswordHash = some hash) : some hash ∈ s.hashes :=
  List.mem_of_mem_head? (hhash ▸ h.head)

theorem genuine (h : s.Inv crates) (request : PasswordRequest)
    (hrequest : s.runtime.effective.adminPasswordHash = none ↔ request = .bootstrap) :
    (s.read request).Genuine s.hashes :=
  ⟨le_rfl, by simp [AdminSystem.read, h.head], hrequest, fun hlt => absurd hlt (lt_irrefl _)⟩

theorem step (h : s.Inv crates) (hs : AdminSystem.Step crates s label s') : s'.Inv crates := by
  cases hs with
  | login hcheck =>
    obtain ⟨hash, hhash⟩ := checkLogin_configured hcheck
    exact ⟨h.coherent, h.head, List.forall_mem_cons.2 ⟨⟨hash, hhash, h.mem hhash⟩, h.pending⟩, h.issued⟩
  | bootstrap hcheck =>
    have hgenuine := h.genuine .bootstrap (by simp [checkBootstrap_missing hcheck])
    exact ⟨h.coherent, h.head, List.forall_mem_cons.2 ⟨hgenuine, h.pending⟩, h.issued⟩
  | changePassword hcheck =>
    obtain ⟨hash, hhash, -⟩ := checkPasswordChange_verified hcheck
    have hgenuine := h.genuine .changePassword (by simp [hhash])
    exact ⟨h.coherent, h.head, List.forall_mem_cons.2 ⟨hgenuine, h.pending⟩, h.issued⟩
  | update hpending hpatch =>
    have hhash := passwordHash_of_update hpatch
    have hold := h.pending
    rw [hpending, List.forall_mem_append, List.forall_mem_cons] at hold
    refine ⟨h.coherent.apply hpatch, rfl, ?_, fun session hsession => ?_⟩
    · rw [hhash]
      refine List.forall_mem_append.2 ⟨fun x hx => (hold.1 x hx).cons, List.forall_mem_cons.2 ⟨?_, fun x hx => ?_⟩⟩
      · exact ⟨_, hhash, List.mem_cons_self⟩
      · exact (hold.2.2 x hx).cons
    · rw [hhash]
      exact (h.issued session hsession).cons
  | issue hpending hissue =>
    have hold := h.pending
    rw [hpending, List.forall_mem_append, List.forall_mem_cons] at hold
    obtain ⟨hbefore, ⟨hash, hhash, hmem⟩, hafter⟩ := hold
    refine ⟨h.coherent, h.head, List.forall_mem_append.2 ⟨hbefore, hafter⟩,
      List.forall_mem_cons.2 ⟨⟨le_rfl, hash, hhash, ?_, ?_⟩, h.issued⟩⟩
    · simp [newClaims, passwordVersion, hhash]
    · rwa [asOf_length]
  | giveUp hpending =>
    have hold := h.pending
    rw [hpending, List.forall_mem_append, List.forall_mem_cons] at hold
    exact ⟨h.coherent, h.head, List.forall_mem_append.2 ⟨hold.1, hold.2.2⟩, h.issued⟩
  | patch hpassword hpatch =>
    exact ⟨h.coherent.apply hpatch, h.head.trans (by rw [passwordHash_of_patch hpassword h.coherent hpatch]),
      h.pending, h.issued⟩

end AdminSystem.Inv

/-! ### Overtaken requests -/

theorem PasswordWrite.Genuine.readAt_eq (h : write.Genuine hashes) (hfresh : Fresh hashes)
    (hhead : hashes.head? = some write.checked) : write.readAt = hashes.length := by
  cases hchecked : write.checked with
  | none =>
    rw [hchecked] at hhead
    by_contra hne
    exact h.configured (lt_of_le_of_ne h.readAt_le hne) hhead
  | some hash =>
    rw [hchecked] at hhead
    exact eq_length_of_mem_asOf h.readAt_le hhead (hfresh hash) (List.mem_of_mem_head? (hchecked ▸ h.checked))

theorem AdminSystem.Step.genuine (hs : AdminSystem.Step crates s (some write) s') (h : s.Inv crates) :
    write.Genuine s.hashes := by
  cases hs with
  | @update _ _ _ _ _ _ _ passwordHash _ hpending _ =>
    exact h.pending (.update write passwordHash) (hpending ▸ List.mem_append_right _ List.mem_cons_self)

theorem AdminSystem.Step.passwordHash_eq (hs : AdminSystem.Step crates s none s') (h : s.Inv crates) :
    s'.runtime.effective.adminPasswordHash = s.runtime.effective.adminPasswordHash := by
  cases hs with
  | patch hpassword hpatch => exact passwordHash_of_patch hpassword h.coherent hpatch
  | _ => rfl

theorem AdminSystem.Step.passwordHash_ne (hs : AdminSystem.Step crates s (some write) s') :
    s'.runtime.effective.adminPasswordHash ≠ none := by
  cases hs with
  | update _ hpatch => simp [passwordHash_of_update hpatch]

/-- The check still describes the config at the patch, if no other password change came between. -/
theorem AdminSystem.Step.checked_eq (hs : AdminSystem.Step crates s (some write) s') (h : s.Inv crates)
    (hread : write.readAt = s.hashes.length) : s.runtime.effective.adminPasswordHash = write.checked := by
  have hchecked := (hs.genuine h).checked
  rw [hread, asOf_length, h.head] at hchecked
  exact Option.some.inj hchecked

theorem AdminSystem.Step.readAt_eq (hs : AdminSystem.Step crates s (some write) s') (h : s.Inv crates)
    (hfresh : Fresh s.hashes) (hchecked : s.runtime.effective.adminPasswordHash = write.checked) :
    write.readAt = s.hashes.length :=
  (hs.genuine h).readAt_eq hfresh (hchecked ▸ h.head)

theorem AdminSystem.Step.hashes_suffix (hs : AdminSystem.Step crates s label s') : s.hashes <:+ s'.hashes := by
  cases hs with
  | update => exact List.suffix_cons _ _
  | _ => exact List.suffix_rfl

variable {s₀ : AdminSystem} {trace : List (AdminSystem × Option PasswordWrite)}

/-- After a password change there is a password, so a bootstrap that replaces a missing one is the first. -/
theorem countP_isBootstrap (h : Run (AdminSystem.Step crates) s₀ trace s) (h₀ : s₀.Start crates)
    (hboot : ∀ x ∈ trace, ∀ write ∈ x.2, write.request = .bootstrap →
      x.1.runtime.effective.adminPasswordHash = none) :
    trace.countP IsBootstrap = 0 ∨
      trace.countP IsBootstrap = 1 ∧ s.runtime.effective.adminPasswordHash ≠ none := by
  induction h with
  | start => exact .inl rfl
  | @step trace s label s' h hs ih =>
    obtain ⟨hlast, hboot⟩ := List.forall_mem_cons.1 hboot
    have hcount := ih hboot
    rcases label with _ | write
    · rw [hs.passwordHash_eq (h.invariant h₀.inv AdminSystem.Inv.step)]
      simpa [List.countP_cons, IsBootstrap] using hcount
    · have hne := hs.passwordHash_ne
      cases hrequest : write.request with
      | bootstrap =>
        rcases hcount with hcount | ⟨-, hhash⟩
        · exact .inr ⟨by simp [IsBootstrap, hrequest, hcount], hne⟩
        · exact absurd (hlast write rfl hrequest) hhash
      | changePassword =>
        have hcons : ((s, some write) :: trace).countP IsBootstrap = trace.countP IsBootstrap := by
          simp [IsBootstrap, hrequest]
        rw [hcons]
        exact hcount.imp_right fun hcount => ⟨hcount.1, hne⟩

/-- The property holds of the runs in which no password change overtakes another. -/
theorem neverStale_iff (h : Run (AdminSystem.Step crates) s₀ trace s) (h₀ : s₀.Start crates) :
    ((∀ x ∈ trace, Uninterrupted x) → NeverStale trace) ∧
      (Fresh s.hashes → (NeverStale trace ↔ ∀ x ∈ trace, Uninterrupted x)) := by
  -- what each password change of the run had to go by
  have hstep : ∀ x ∈ trace, ∀ write ∈ x.2, x.1.Inv crates ∧ ∃ s', AdminSystem.Step crates x.1 (some write) s' ∧
      x.1.hashes <:+ s.hashes := by
    intro x hx write hwrite
    obtain ⟨_, s', _, hbefore, hs, hafter⟩ := h.split hx
    have hsuffix := hafter.invariant (P := fun t => s'.hashes <:+ t.hashes) List.suffix_rfl
      fun hle hs => hle.trans hs.hashes_suffix
    rw [hwrite] at hs
    exact ⟨hbefore.invariant h₀.inv AdminSystem.Inv.step, s', hs, hs.hashes_suffix.trans hsuffix⟩
  have hgood : (∀ x ∈ trace, Uninterrupted x) → NeverStale trace := by
    intro hun
    have hchecked : ∀ x ∈ trace, ∀ write ∈ x.2, x.1.runtime.effective.adminPasswordHash = write.checked := by
      intro x hx write hwrite
      obtain ⟨hinv, _, hs, -⟩ := hstep x hx write hwrite
      exact hs.checked_eq hinv (hun x hx write hwrite)
    have hboot : ∀ x ∈ trace, ∀ write ∈ x.2, write.request = .bootstrap →
        x.1.runtime.effective.adminPasswordHash = none := by
      intro x hx write hwrite hrequest
      obtain ⟨hinv, _, hs, -⟩ := hstep x hx write hwrite
      exact (hchecked x hx write hwrite).trans ((hs.genuine hinv).bootstrap.2 hrequest)
    refine ⟨hboot, fun x hx write hwrite _ => hchecked x hx write hwrite, ?_⟩
    rcases countP_isBootstrap h h₀ hboot with hcount | ⟨hcount, -⟩ <;> simp [hcount]
  refine ⟨hgood, fun hfresh => ⟨fun hnever x hx write hwrite => ?_, hgood⟩⟩
  obtain ⟨hinv, _, hs, hsuffix⟩ := hstep x hx write hwrite
  refine hs.readAt_eq hinv (fun hash => (hsuffix.sublist.count_le _).trans (hfresh hash)) ?_
  cases hrequest : write.request with
  | bootstrap => rw [hnever.bootstrap x hx write hwrite hrequest, (hs.genuine hinv).bootstrap.2 hrequest]
  | changePassword => exact hnever.changePassword x hx write hwrite hrequest

/-! ### A request on its own

The handlers are runs of the system in which nothing comes between. -/

variable {sessionId : String} {issuedAt : Instant} {reply : SessionReply} {t : AdminState}

theorem run_login (h : exec (login crates sessionId now headers password) ⟨s.runtime, file⟩ = (.ok reply, t)) :
    ∃ trace s', Run (AdminSystem.Step crates) s trace s' ∧ s'.runtime = t.runtime ∧ s'.pending = s.pending := by
  simp only [login, exec_bind_ok, exec_get, exec_liftExcept, Prod.mk.injEq, Except.ok.injEq] at h
  obtain ⟨_, _, ⟨rfl, rfl⟩, _, _, ⟨hcheck, rfl⟩, hissue, rfl⟩ := h
  have hrun := Run.start.step (AdminSystem.Step.login (s := s) hcheck)
  exact ⟨_, _, hrun.step (.issue (show _ = [] ++ _ from rfl) hissue), rfl, rfl⟩

theorem run_bootstrap
    (h : exec (bootstrap crates env salt sessionId now headers password) ⟨s.runtime, file⟩ = (.ok reply, t)) :
    ∃ trace s', Run (AdminSystem.Step crates) s trace s' ∧ s'.runtime = t.runtime ∧ s'.pending = s.pending := by
  simp only [bootstrap, exec_bind_ok, exec_get, exec_liftExcept, exec_updateConfig_ok, Prod.mk.injEq,
    Except.ok.injEq] at h
  obtain ⟨_, _, ⟨rfl, rfl⟩, _, _, ⟨hcheck, rfl⟩, _, _, ⟨hpatch, rfl⟩, hissue, rfl⟩ := h
  have hrun := Run.start.step (AdminSystem.Step.bootstrap (s := s) hcheck)
  have hrun := hrun.step (.update (show _ = [] ++ _ from rfl) hpatch)
  exact ⟨_, _, hrun.step (.issue (show _ = [] ++ _ from rfl) hissue), rfl, rfl⟩

theorem run_changePassword
    (h : exec (changePassword crates env salt sessionId now issuedAt headers request) ⟨s.runtime, file⟩ =
      (.ok reply, t)) :
    ∃ trace s', Run (AdminSystem.Step crates) s trace s' ∧ s'.runtime = t.runtime ∧ s'.pending = s.pending := by
  simp only [changePassword, exec_bind_ok, exec_get, exec_liftExcept, exec_updateConfig_ok, Prod.mk.injEq,
    Except.ok.injEq] at h
  obtain ⟨_, _, ⟨rfl, rfl⟩, _, _, ⟨hcheck, rfl⟩, _, _, ⟨hpatch, rfl⟩, hissue, rfl⟩ := h
  have hrun := Run.start.step (AdminSystem.Step.changePassword (s := s) hcheck)
  have hrun := hrun.step (.update (show _ = [] ++ _ from rfl) hpatch)
  exact ⟨_, _, hrun.step (.issue (show _ = [] ++ _ from rfl) hissue), rfl, rfl⟩

theorem run_updateSettings {request : SettingsUpdateRequest} {saved : SettingsUpdateResponse}
    (h : exec (updateSettings crates env now headers request) ⟨s.runtime, file⟩ = (.ok saved, t)) :
    ∃ trace s', Run (AdminSystem.Step crates) s trace s' ∧ s'.runtime = t.runtime ∧ s'.pending = s.pending := by
  obtain ⟨-, -, hpatch, -⟩ := exec_updateSettings_ok.1 h
  exact ⟨_, _, Run.start.step (.patch rfl hpatch), rfl, rfl⟩

end Inv

/-- A first start. -/
def firstSystem : AdminSystem := ⟨.new firstConfig, [], [none], []⟩

theorem start_firstSystem : firstSystem.Start sampleCrates :=
  ⟨.start (by nofun) load_firstConfig, rfl, rfl, by simp [firstSystem]⟩

theorem checkBootstrap_sample {salt passwordHash : String}
    (hhash : sampleCrates.hashPassword "hunter2" salt = .ok passwordHash) :
    checkBootstrap sampleCrates sampleHeaders "hunter2" salt firstConfig = .ok passwordHash := by
  simp [checkBootstrap, bind_eq_ok, ensure_eq_ok, requireSameOrigin_sample, bootstrapRequired, firstConfig,
    hashAdminPassword, hhash, mapError_eq_ok]

theorem hashPassword_sample : sampleCrates.hashPassword "hunter2" "c29tZXNhbHRzb21lc2FsdA" = .ok sampleHash ∧
    sampleCrates.hashPassword "hunter2" "bW9yZXNhbHRtb3Jlc2FsdA" = .ok otherHash := by
  simp [sampleCrates]

theorem exec_passwordPatch {runtime : RuntimeConfigState} {hash : String} (htrim : trim hash = hash) (hne : hash ≠ "") :
    exec (applyPatch true .calm (passwordPatch hash) runtime) .missing =
      (.ok (runtime.update { runtime.persisted with adminPasswordHash := some hash }),
        .toml ({ runtime.persisted with adminPasswordHash := some hash } : ServerConfig).document) :=
  exec_applyPatch_ok.2 ⟨_, applyConfigPatch_password htrim hne, writable_calm, rfl, rfl⟩

theorem issue_sample (config : ServerConfig) (hhash : config.adminPasswordHash = some sampleHash)
    (hsecret : config.adminSessionSecret = "s") :
    newClaims sampleCrates sampleClaims.sessionId sampleClaims.issuedAt config = sampleClaims ∧
      ∃ reply, issueSessionResponse sampleCrates sampleClaims.sessionId sampleClaims.issuedAt config = .ok reply := by
  have hclaims : newClaims sampleCrates sampleClaims.sessionId sampleClaims.issuedAt config = sampleClaims := by
    simp [newClaims, passwordVersion, hhash, sampleCrates, sampleClaims]
  have hmac : sessionMac config.adminSessionSecret = .ok "s" := by
    rw [hsecret]
    rfl
  have hcookie : signSessionCookie sampleCrates config.adminSessionSecret sampleClaims =
      .ok (sampleCrates.encode samplePayload ++ "." ++ sampleCrates.encode sampleMac) := by
    simp [signSessionCookie, bind_eq_ok, mapError_eq_ok, signPayload, hmac, sampleCrates]
  exact ⟨hclaims, _, by rw [issueSessionResponse, hclaims, hcookie]; rfl⟩

/-- The first start, once the sample password has been set. -/
def sampleSystem : AdminSystem where
  runtime := ⟨sampleConfig, sampleConfig⟩
  pending := []
  hashes := [some sampleHash, none]
  issued := [⟨"s", sampleClaims, some sampleHash, 2⟩]

theorem fresh_sampleSystem : Fresh sampleSystem.hashes :=
  fun _ => List.nodup_iff_count_le_one.1 (by simp [sampleSystem]) _

theorem run_sampleSystem : ∃ trace, Run (AdminSystem.Step sampleCrates) firstSystem trace sampleSystem ∧
    trace.countP IsBootstrap = 1 ∧ ∀ x ∈ trace, Uninterrupted x := by
  have hpatch : exec (applyPatch true .calm (passwordPatch sampleHash) firstSystem.runtime) .missing =
      (.ok sampleSystem.runtime, .toml sampleConfig.document) := exec_passwordPatch trim_sampleHash.1 (by decide)
  have hissue : AdminSystem.Step sampleCrates
      { sampleSystem with pending := [.issue sampleConfig], issued := [] } none sampleSystem := by
    obtain ⟨hclaims, reply, hissue⟩ := issue_sample sampleConfig rfl rfl
    have hstep := AdminSystem.Step.issue (s := { sampleSystem with pending := [.issue sampleConfig], issued := [] })
      (show _ = [] ++ _ from rfl) hissue
    rwa [hclaims] at hstep
  have hrun := Run.start.step (AdminSystem.Step.bootstrap (s := firstSystem)
    (checkBootstrap_sample hashPassword_sample.1))
  have hrun := hrun.step (.update (show _ = [] ++ _ from rfl) hpatch)
  exact ⟨_, hrun.step hissue, rfl, by simp [Uninterrupted, AdminSystem.read]⟩

/-- One bootstrap, and nothing else. -/
theorem neverStale_bootstrap : ∃ trace, Run (AdminSystem.Step sampleCrates) firstSystem trace sampleSystem ∧
    trace.countP IsBootstrap = 1 ∧ NeverStale trace := by
  obtain ⟨trace, hrun, hcount, hun⟩ := run_sampleSystem
  exact ⟨trace, hrun, hcount, ((neverStale_iff hrun start_firstSystem).2 fresh_sampleSystem).2 hun⟩

/-- The second of two bootstraps at the same time replaces the password of the first. -/
theorem bootstrap_overtaken : ∃ trace s, firstSystem.Start sampleCrates ∧
    Run (AdminSystem.Step sampleCrates) firstSystem trace s ∧
    s.hashes = [some sampleHash, some otherHash, none] ∧ s.issued.map Issued.claims = [sampleClaims] ∧
    trace.countP IsBootstrap = 2 ∧ ¬ NeverStale trace := by
  have hcheck := checkBootstrap_sample hashPassword_sample.1
  have hother := checkBootstrap_sample hashPassword_sample.2
  have hrun := Run.start.step (AdminSystem.Step.bootstrap (s := firstSystem) hcheck)
  have hrun := hrun.step (AdminSystem.Step.bootstrap hother)
  have hrun := hrun.step (.update (show _ = [] ++ _ from rfl) (exec_passwordPatch trim_sampleHash.2 (by decide)))
  have hrun := hrun.step (.update (show _ = [_] ++ _ from rfl) (exec_passwordPatch trim_sampleHash.1 (by decide)))
  obtain ⟨hclaims, reply, hissue⟩ := issue_sample { firstConfig with adminPasswordHash := some sampleHash } rfl rfl
  have hrun := hrun.step (.issue (show _ = [_] ++ _ from rfl) hissue)
  refine ⟨_, _, start_firstSystem, hrun, rfl, congrArg (· :: []) hclaims, rfl, ?_⟩
  intro hnever
  exact absurd hnever.once (by decide)

end FloralSync

import FloralSync.Config.Reload
import FloralSync.Server.System

/-!
# From start to exit (`main.rs`)

A process loads its config, opens the store, binds its addresses and serves each of them in a task of its own, until
the tasks have ended. Whatever config it loads, it starts unless the store or an address fails it (`start_of_load`).
It exits with 0, for the supervisor to start another one, if and only if all tasks have ended well, each of them after
a restart was requested (`exitCode_eq_zero_iff`).
-/

namespace FloralSync

open Rust Except Stateful Trace

namespace Main

inductive MainError
  | config (error : ConfigError)
  | store (error : StoreError)
  | io
  | addrParse
  | join
  | listenerStopped
  | restartRequested
deriving DecidableEq

/-- What `main` exits with. -/
def exitCode : Except MainError Unit → Nat
  | .ok () => 0
  | .error .restartRequested => 0
  | .error _ => 1

/-- Whether `bind_listener` succeeds at an address, beside the listeners that the process has already. -/
abbrev Network := List String → String → Bool

/-- `bind_listeners`: the addresses in use afterwards. -/
def bindListeners (net : Network) (bound : List String) : List String → Except MainError (List String)
  | [] => .ok bound
  | address :: addresses => do
    ensure (isSocketAddr address) MainError.addrParse
    ensure (net bound address) MainError.io
    bindListeners net (bound ++ [address]) addresses

/-- `serve`, up to the tasks. -/
def start (admin : Bool) (net : Network) (file : SourceFile) (config : ServerConfig) :
    Except MainError (SyncStore × List String) := do
  let store ← (SyncStore.open file).mapError .store
  let listeners ← bindListeners net [] config.syncListen
  let listeners ← if admin then bindListeners net listeners config.adminListen else pure listeners
  return (store, listeners)

/-- The addresses that `serve` binds. -/
def listenAddresses (admin : Bool) (config : ServerConfig) : List String :=
  config.syncListen ++ if admin then config.adminListen else []

/-- What the loop over `join_next` does with a task that has ended, while `left` others have not. -/
inductive TaskEnd
  | served
  | io
  | panicked
deriving DecidableEq

def joined (requested : Bool) (left : Nat) : TaskEnd → Option MainError
  | .io => some .io
  | .panicked => some .join
  | .served =>
    if !requested then some .listenerStopped
    else if left = 0 then some .restartRequested
    else none

/-- Each address can be bound beside those before it. -/
def Network.BindsAll (net : Network) (bound : List String) : List String → Prop
  | [] => True
  | address :: addresses => net bound address = true ∧ net.BindsAll (bound ++ [address]) addresses

instance Network.decidableBindsAll (net : Network) : ∀ bound addresses, Decidable (net.BindsAll bound addresses)
  | _, [] => .isTrue trivial
  | bound, address :: addresses =>
    haveI := decidableBindsAll net (bound ++ [address]) addresses
    inferInstanceAs (Decidable (_ ∧ _))

section Start

variable {admin : Bool} {net : Network} {bound addresses listeners : List String} {file : SourceFile}
  {config : ServerConfig} {store : SyncStore} {e : MainError}

theorem bindListeners_eq_ok (haddr : ∀ a ∈ addresses, isSocketAddr a = true) :
    bindListeners net bound addresses = .ok listeners ↔
      net.BindsAll bound addresses ∧ listeners = bound ++ addresses := by
  induction addresses generalizing bound with
  | nil => simp [bindListeners, Network.BindsAll, eq_comm]
  | cons address addresses ih =>
    obtain ⟨ha, haddr⟩ := List.forall_mem_cons.1 haddr
    simp only [bindListeners, bind_eq_ok, ensure_eq_ok, ih haddr, Network.BindsAll]
    constructor
    · rintro ⟨-, -, -, hnet, hall, rfl⟩
      exact ⟨⟨hnet, hall⟩, by simp⟩
    · rintro ⟨⟨hnet, hall⟩, rfl⟩
      exact ⟨(), ha, (), hnet, hall, by simp⟩

theorem bindListeners_eq_error (haddr : ∀ a ∈ addresses, isSocketAddr a = true)
    (h : bindListeners net bound addresses = .error e) : e = .io ∧ ¬ net.BindsAll bound addresses := by
  induction addresses generalizing bound with
  | nil => cases h
  | cons address addresses ih =>
    obtain ⟨ha, haddr⟩ := List.forall_mem_cons.1 haddr
    cases hnet : net bound address with
    | false =>
      simp only [bindListeners, ensure, ha, hnet] at h
      obtain rfl := Except.error.inj h
      exact ⟨rfl, fun hall => Bool.false_ne_true (hnet.symm.trans hall.1)⟩
    | true =>
      simp only [bindListeners, ensure, ha, hnet] at h
      obtain ⟨rfl, hnot⟩ := ih haddr h
      exact ⟨rfl, fun hall => hnot hall.2⟩

theorem bindListeners_append {addresses' : List String} : bindListeners net bound (addresses ++ addresses') =
    bindListeners net bound addresses >>= fun bound => bindListeners net bound addresses' := by
  induction addresses generalizing bound with
  | nil => rfl
  | cons address addresses ih => simp only [List.cons_append, bindListeners, ih, bind_assoc]

/-- The two calls of `bind_listeners` are one over all addresses. -/
theorem start_eq : start admin net file config =
    (SyncStore.open file).mapError .store >>= fun store =>
      bindListeners net [] (listenAddresses admin config) >>= fun listeners => pure (store, listeners) := by
  rw [start, listenAddresses, bindListeners_append]
  cases admin with
  | true => simp only [if_true, bind_assoc]
  | false => simp only [Bool.false_eq_true, if_false, bindListeners, bind_assoc]; rfl

theorem isSocketAddr_of_usable (h : config.Usable admin) :
    ∀ a ∈ listenAddresses admin config, isSocketAddr a = true := by
  intro a ha
  rcases List.mem_append.1 ha with ha | ha
  · exact h.syncListen.socketAddr a ha
  · cases admin with
    | true => exact h.adminListen.list.socketAddr a ha
    | false => cases ha

theorem start_eq_ok (h : config.Usable admin) : start admin net file config = .ok (store, listeners) ↔
    SyncStore.open file = .ok store ∧ net.BindsAll [] (listenAddresses admin config) ∧
      listeners = listenAddresses admin config := by
  simp only [start_eq, bind_eq_ok, mapError_eq_ok, bindListeners_eq_ok (isSocketAddr_of_usable h), List.nil_append]
  constructor
  · rintro ⟨_, hopen, _, ⟨hall, rfl⟩, h⟩
    obtain ⟨rfl, rfl⟩ := Prod.mk.inj (Except.ok.inj h)
    exact ⟨hopen, hall, rfl⟩
  · rintro ⟨hopen, hall, rfl⟩
    exact ⟨store, hopen, _, ⟨hall, rfl⟩, rfl⟩

theorem start_eq_error (h : config.Usable admin) (he : start admin net file config = .error e) :
    e = .io ∧ ¬ net.BindsAll [] (listenAddresses admin config) ∨
      ∃ e', e = .store e' ∧ SyncStore.open file = .error e' := by
  rw [start_eq] at he
  cases hopen : SyncStore.open file with
  | error e' =>
    rw [hopen] at he
    exact .inr ⟨e', (Except.error.inj he).symm, rfl⟩
  | ok store =>
    rw [hopen, show (Except.ok store : Except StoreError SyncStore).mapError MainError.store = .ok store from rfl,
      ok_bind] at he
    cases hbind : bindListeners net [] (listenAddresses admin config) with
    | error e' =>
      rw [hbind] at he
      obtain rfl := Except.error.inj he
      exact .inl (bindListeners_eq_error (isSocketAddr_of_usable h) hbind)
    | ok bound =>
      rw [hbind] at he
      cases he

theorem usable_of_load {gen : Generated} {env : FileEnv} {path : PathBuf} {overrides : ConfigOverrides}
    {configFile configFile' : ConfigFile}
    (h : exec (loadOrCreateConfig admin gen env path overrides) configFile = (.ok config, configFile')) :
    config.Usable admin := by
  obtain ⟨stored, hstored, hconfig⟩ := exec_loadOrCreateConfig_ok.1 h
  exact (normalized_of_load hstored).usable hconfig

/-- Whatever config is loaded, nothing but the store or the network keeps the process from serving each of its
addresses: no address is refused that the config has taken. -/
theorem start_of_load {gen : Generated} {env : FileEnv} {path : PathBuf} {overrides : ConfigOverrides}
    {configFile configFile' : ConfigFile}
    (h : exec (loadOrCreateConfig admin gen env path overrides) configFile = (.ok config, configFile')) :
    (start admin net file config = .ok (store, listeners) ↔ SyncStore.open file = .ok store ∧
      net.BindsAll [] (listenAddresses admin config) ∧ listeners = listenAddresses admin config) ∧
    (∀ e, start admin net file config = .error e → e = .io ∧ ¬ net.BindsAll [] (listenAddresses admin config) ∨
      ∃ e', e = .store e' ∧ SyncStore.open file = .error e') ∧
    config.syncListen ≠ [] ∧ (admin = true → config.adminListen ≠ []) :=
  have husable := usable_of_load h
  ⟨start_eq_ok husable, fun _ => start_eq_error husable, husable.syncListen_ne, husable.adminListen.nonempty⟩

/-- The first start, and one beside a process that has the last address. -/
theorem start_firstConfig :
    start true (fun _ _ => true) (.database .empty) firstConfig =
      .ok (.created, ["0.0.0.0:8787", "[::]:8787", "127.0.0.1:8788", "[::1]:8788"]) ∧
    ∀ store listeners, start true (fun _ address => address ≠ "[::1]:8788") (.database .empty) firstConfig ≠
      .ok (store, listeners) := by
  constructor
  · exact (start_of_load load_firstConfig).1.2 ⟨open_empty, by decide, rfl⟩
  · intro store listeners h
    obtain ⟨-, hall, -⟩ := (start_of_load load_firstConfig).1.1 h
    exact absurd hall (by decide)

end Start

section Joined

variable {requested : Bool} {left : Nat} {taskEnd : TaskEnd} {e : MainError}

theorem joined_eq_none : joined requested left taskEnd = none ↔
    left ≠ 0 ∧ requested = true ∧ taskEnd = .served := by
  cases taskEnd <;> cases requested <;> simp [joined]

theorem joined_eq_restartRequested : joined requested left taskEnd = some .restartRequested ↔
    left = 0 ∧ requested = true ∧ taskEnd = .served := by
  cases taskEnd <;> cases requested <;> simp [joined]

theorem exitCode_eq_zero : exitCode (.error e) = 0 ↔ e = .restartRequested := by
  cases e <;> simp [exitCode]

end Joined
end Main

section Restart

variable {τ ω ζ : Type} [Chrono τ] {lib : Libraries ω ζ} {s s₀ : ServerSystem τ}
  {trace : List (ServerSystem τ × ServerSystem.Label τ ζ)}

/-- The reply to a restart request, which an earlier step let in with the config of its time. -/
def ServerSystem.RestartedBy (lib : Libraries ω ζ) (trace : List (ServerSystem τ × ServerSystem.Label τ ζ)) : Prop :=
  ∃ x ∈ trace, ∃ y ∈ trace, ∃ flight env result, x.2 = .reply flight env result ∧ y.2 = .arrive flight ∧
    flight.request = .admin .restartService ∧
    AdminApi.requireAdmin lib env flight.headers y.1.server.runtime.effective = .ok ()

omit [Chrono τ] in
theorem Request.eq_restartService {request : Request τ} (h : request.writes = some .restart) :
    request = .admin .restartService := by
  rcases request with request | request <;> cases request <;> first | rfl | cases h

omit [Chrono τ] in
theorem ServerSystem.RestartedBy.cons (h : RestartedBy lib trace) (x : ServerSystem τ × ServerSystem.Label τ ζ) :
    RestartedBy lib (x :: trace) := by
  obtain ⟨x, hx, y, hy, h⟩ := h
  exact ⟨x, List.mem_cons_of_mem _ hx, y, List.mem_cons_of_mem _ hy, h⟩

/-- Nothing but such a request sets the flag. -/
theorem ServerSystem.restartedBy (h : Run (Step lib) s₀ trace s) (h₀ : s₀.flights = [])
    (hstart : s₀.server.restartRequested = false) (hrequested : s.server.restartRequested = true) :
    RestartedBy lib trace := by
  induction h with
  | start => cases hstart.symm.trans hrequested
  | @step trace s label s' hrun hs ih =>
    by_cases hbefore : s.server.restartRequested = true
    · exact (ih hbefore).cons _
    cases hs with
    | arrive => exact absurd hrequested hbefore
    | giveUp => exact absurd hrequested hbefore
    | files => exact absurd hrequested hbefore
    | @reply before after flight env result server _ hflights hexec =>
      have hmem : flight ∈ s.flights := by rw [hflights]; exact List.mem_append_right _ List.mem_cons_self
      obtain ⟨y, hy, harrived, hcaptured⟩ := arrived hrun h₀ hmem
      rcases Request.exec_handle hexec with rfl | ⟨hpermitted, hsame, -⟩
      · exact absurd hrequested hbefore
      by_cases hwrites : flight.request.writes = some .restart
      · have heq := Request.eq_restartService hwrites
        rw [heq, hcaptured] at hpermitted
        exact ⟨_, List.mem_cons_self, y, List.mem_cons_of_mem _ hy, flight, env, result, rfl, harrived, heq, hpermitted⟩
      · exact absurd ((hsame.restart hwrites).symm.trans hrequested) hbefore

end Restart

/-! ### The tasks -/

/-- A server with the tasks of its listeners. -/
structure Daemon (τ : Type) where
  system : ServerSystem τ
  /-- The tasks that `join_next` has not returned. -/
  tasks : Nat
  exit : Option Main.MainError

namespace Daemon

variable {τ ω ζ : Type} [Chrono τ]

/-- What `serve` goes on with. -/
def started (config : ServerConfig) (file : ConfigFile) (exports : ExportDir) (store : SyncStore)
    (listeners : List String) : Daemon τ where
  system := ⟨⟨store, .new config, file, exports, false⟩, []⟩
  tasks := listeners.length
  exit := none

inductive Step (lib : Libraries ω ζ) : Daemon τ → ServerSystem.Label τ ζ ⊕ Main.TaskEnd → Daemon τ → Prop
  | serve {label system d} (hrunning : d.exit = none) (h : ServerSystem.Step lib d.system label system) :
    Step lib d (.inl label) { d with system }
  | join {left taskEnd d} (hrunning : d.exit = none) (htasks : d.tasks = left + 1) :
    Step lib d (.inr taskEnd)
      { d with tasks := left, exit := Main.joined d.system.server.restartRequested left taskEnd }

/-- The tasks that have ended, each with whether a restart was requested by then. -/
def joins (trace : List (Daemon τ × (ServerSystem.Label τ ζ ⊕ Main.TaskEnd))) : List (Bool × Main.TaskEnd) :=
  trace.filterMap fun x => match x.2 with
    | .inl _ => none
    | .inr taskEnd => some (x.1.system.server.restartRequested, taskEnd)

/-- The steps of the server. -/
def serving (trace : List (Daemon τ × (ServerSystem.Label τ ζ ⊕ Main.TaskEnd))) :
    List (ServerSystem τ × ServerSystem.Label τ ζ) :=
  trace.filterMap fun x => match x.2 with
    | .inl label => some (x.1.system, label)
    | .inr _ => none

def exitCode (d : Daemon τ) : Option Nat := d.exit.map fun e => Main.exitCode (.error e)

structure Inv (n : Nat) (ends : List (Bool × Main.TaskEnd)) (d : Daemon τ) : Prop where
  count : d.tasks + ends.length = n
  running : d.exit = none → d.tasks ≠ 0 ∧ ∀ x ∈ ends, x = (true, .served)
  restartRequested : d.exit ≠ none →
    (d.exit = some .restartRequested ↔ d.tasks = 0 ∧ ∀ x ∈ ends, x = (true, .served))

section Runs

variable {lib : Libraries ω ζ} {d d' d₀ : Daemon τ} {label : ServerSystem.Label τ ζ ⊕ Main.TaskEnd}
  {trace : List (Daemon τ × (ServerSystem.Label τ ζ ⊕ Main.TaskEnd))}

theorem Inv.step {n : Nat} (h : d.Inv n (joins trace)) (hs : Step lib d label d') :
    d'.Inv n (joins ((d, label) :: trace)) := by
  cases hs with
  | serve hrunning hs => exact ⟨h.count, h.running, h.restartRequested⟩
  | @join left taskEnd _ hrunning htasks =>
    have hcount := h.count
    obtain ⟨-, hends⟩ := h.running hrunning
    have hcons : joins ((d, Sum.inr taskEnd) :: trace) =
        (d.system.server.restartRequested, taskEnd) :: joins trace := rfl
    have hall : (∀ x ∈ joins ((d, Sum.inr taskEnd) :: trace), x = (true, .served)) ↔
        d.system.server.restartRequested = true ∧ taskEnd = .served := by
      rw [hcons, List.forall_mem_cons, Prod.mk.injEq]
      exact and_iff_left hends
    refine ⟨?_, ?_, ?_⟩
    · show left + (joins ((d, Sum.inr taskEnd) :: trace)).length = n
      rw [hcons, List.length_cons]
      omega
    · rw [hall]
      exact fun h => Main.joined_eq_none.1 h
    · rw [hall]
      exact fun _ => Main.joined_eq_restartRequested

theorem inv {config : ServerConfig} {file : ConfigFile} {exports : ExportDir} {store : SyncStore}
    {listeners : List String} (h : Run (Step lib) (started config file exports store listeners) trace d)
    (hne : listeners ≠ []) : d.Inv listeners.length (joins trace) := by
  induction h with
  | start =>
    exact ⟨rfl, fun _ => ⟨fun h => hne (List.length_eq_zero_iff.1 h), nofun⟩, fun h => absurd rfl h⟩
  | step _ hs ih => exact ih.step hs

omit [Chrono τ] in
theorem Inv.exitCode_eq_zero {n : Nat} {ends : List (Bool × Main.TaskEnd)} (h : d.Inv n ends) :
    d.exitCode = some 0 ↔ ends.length = n ∧ ∀ x ∈ ends, x = (true, .served) := by
  have hcount := h.count
  cases hexit : d.exit with
  | none =>
    have hcode : d.exitCode = none := by rw [exitCode, hexit]; rfl
    obtain ⟨hne, -⟩ := h.running hexit
    rw [hcode]
    exact ⟨nofun, fun h => absurd (by omega) hne⟩
  | some e =>
    have hcode : d.exitCode = some (Main.exitCode (.error e)) := by rw [exitCode, hexit]; rfl
    have hrestart := h.restartRequested (by rw [hexit]; simp)
    rw [hexit, Option.some_inj] at hrestart
    rw [hcode, Option.some_inj, Main.exitCode_eq_zero, hrestart]
    exact and_congr_left' (by omega)

theorem run_system (h : Run (Step lib) d₀ trace d) :
    Run (ServerSystem.Step lib) d₀.system (serving trace) d.system := by
  induction h with
  | start => exact .start
  | step _ hs ih =>
    cases hs with
    | serve _ hs => exact ih.step hs
    | join => exact ih

theorem restartedBy_of_join (h : Run (Step lib) d₀ trace d) (h₀ : d₀.system.flights = [])
    (hstart : d₀.system.server.restartRequested = false) {taskEnd : Main.TaskEnd}
    (hjoin : (true, taskEnd) ∈ joins trace) : ServerSystem.RestartedBy lib (serving trace) := by
  induction h with
  | start => cases hjoin
  | @step trace s label s' hrun hs ih =>
    cases hs with
    | serve => exact (ih hjoin).cons _
    | join =>
      rcases List.mem_cons.1 hjoin with heq | hjoin
      · show ServerSystem.RestartedBy lib (serving trace)
        exact ServerSystem.restartedBy (run_system hrun) h₀ hstart (Prod.mk.inj heq).1.symm
      · exact ih hjoin

/-- It exits with 0, for the supervisor to start another one, if and only if every task has ended well, each of them
after a restart was requested. The request was let in by the config of its time. -/
theorem exitCode_eq_zero_iff {gen : Generated} {env : FileEnv} {path : PathBuf} {overrides : ConfigOverrides}
    {configFile configFile' : ConfigFile} {config : ServerConfig} {net : Main.Network} {file : SourceFile}
    {store : SyncStore} {listeners : List String} {exports : ExportDir}
    (hload : exec (loadOrCreateConfig true gen env path overrides) configFile = (.ok config, configFile'))
    (hstart : Main.start true net file config = .ok (store, listeners))
    (h : Run (Step lib) (started config configFile' exports store listeners) trace d) :
    (d.exitCode = some 0 ↔ (joins trace).length = listeners.length ∧ ∀ x ∈ joins trace, x = (true, .served)) ∧
      (d.exitCode = some 0 → ServerSystem.RestartedBy lib (serving trace)) := by
  have husable := Main.usable_of_load hload
  obtain ⟨-, -, rfl⟩ := (Main.start_eq_ok husable).1 hstart
  have hne : Main.listenAddresses true config ≠ [] := fun h => husable.syncListen_ne (List.append_eq_nil_iff.1 h).1
  have hiff := (inv h hne).exitCode_eq_zero
  refine ⟨hiff, ?_⟩
  intro hexit
  obtain ⟨hlength, hall⟩ := hiff.1 hexit
  obtain ⟨x, hx⟩ := List.exists_mem_of_length_pos (hlength ▸ List.length_pos_of_ne_nil hne)
  exact restartedBy_of_join h rfl rfl (hall x hx ▸ hx)

end Runs

open ServerSystem (sampleLibraries sampleEnv)

def restartFlight : Flight Rfc3339.Civil := ⟨.admin .restartService, sampleHeaders, .new sampleConfig⟩

theorem exec_handle_restartService {τ ω ζ : Type} [Chrono τ] {lib : Libraries ω ζ} {env : RequestEnv τ}
    {headers : HeaderMap} {captured : RuntimeConfigState} {server : Server}
    (hadmin : AdminApi.requireAdmin lib env headers captured.effective = .ok ()) :
    exec ((Request.admin .restartService).handle lib env headers captured) server =
      (.ok (.admin (.restart true)), { server with restartRequested := true }) := by
  rw [Request.handle, exec_map, exec_adapt, AdminApi.handle, exec_map, AdminApi.restartService, exec_bind,
    exec_liftExcept, hadmin]
  rfl

theorem requireAdmin_sample : AdminApi.requireAdmin sampleLibraries sampleEnv sampleHeaders sampleConfig = .ok () :=
  AdminApi.requireAdmin_eq_ok.2 ⟨⟨_, requireSession_sampleConfig⟩, requireSameOrigin_sample⟩

theorem load_sampleConfig : ∃ file', exec (loadOrCreateConfig true ⟨"t", "s"⟩ .calm sampleConfig.configPath .default)
    (.toml sampleConfig.document) = (.ok sampleConfig, file') := by
  obtain ⟨u', file', hload, hu'⟩ := exists_reload ⟨"t", "s"⟩ reachable_sampleConfig.coherent.persisted
  have hsame : serverConfig true sampleConfig.configPath .default (reloadedStored true ⟨"t", "s"⟩ sampleConfig) =
      .ok sampleConfig := by decide +kernel
  obtain rfl := Except.ok.inj (hu'.symm.trans hsame)
  exact ⟨file', hload⟩

def sampleDaemon (file : ConfigFile) (restartRequested : Bool) (flights : List (Flight Rfc3339.Civil)) (tasks : Nat)
    (exit : Option Main.MainError) : Daemon Rfc3339.Civil :=
  ⟨⟨{ ServerSystem.serverWith .created with runtime := .new sampleConfig, file, restartRequested }, flights⟩, tasks, exit⟩

theorem step_join {file : ConfigFile} {left : Nat} {exit : Option Main.MainError}
    (h : Main.joined true left .served = exit) :
    Step sampleLibraries (ζ := Unit) (sampleDaemon file true [] (left + 1) none) (.inr .served)
      (sampleDaemon file true [] left exit) := h ▸ .join rfl rfl

/-- Four tasks, and a session that asks for a restart. -/
theorem exitCode_restarted : ∃ (file : ConfigFile)
    (trace : List (Daemon Rfc3339.Civil × (ServerSystem.Label Rfc3339.Civil Unit ⊕ Main.TaskEnd)))
    (d : Daemon Rfc3339.Civil), Run (Step sampleLibraries) (sampleDaemon file false [] 4 none) trace d ∧
    d.exitCode = some 0 ∧ (joins trace).length = 4 ∧ ServerSystem.RestartedBy sampleLibraries (serving trace) := by
  obtain ⟨file, hload⟩ := load_sampleConfig
  have harrive : Step sampleLibraries (ζ := Unit) (sampleDaemon file false [] 4 none) (.inl (.arrive restartFlight))
      (sampleDaemon file false [restartFlight] 4 none) := .serve rfl .arrive
  have hreply : Step sampleLibraries (ζ := Unit) (sampleDaemon file false [restartFlight] 4 none)
      (.inl (.reply restartFlight sampleEnv (.ok (.admin (.restart true))))) (sampleDaemon file true [] 4 none) :=
    .serve rfl (.reply (show _ = [] ++ _ from rfl) (exec_handle_restartService requireAdmin_sample))
  have hrun := (((((Run.start.step harrive).step hreply).step (step_join rfl)).step (step_join rfl)).step
    (step_join rfl)).step (step_join rfl)
  obtain ⟨-, hby⟩ := exitCode_eq_zero_iff hload
    (show Main.start true (fun _ _ => true) (.database .empty) sampleConfig = _ from rfl) hrun
  exact ⟨file, _, _, hrun, rfl, rfl, hby rfl⟩

end Daemon
end FloralSync

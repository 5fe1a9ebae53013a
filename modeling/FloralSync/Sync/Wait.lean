import FloralSync.Store.Atomicity
import FloralSync.Store.Runs
import Mathlib.Logic.Relation

/-!
# Waiting for a change (`sync_api.rs`)

A `wait_for_change` call looks at the watch channel once, waits, and looks again for its answer. Whether
the answer says `changed` is decided before that last look, so pushes and restores can make it wrong
(`wait_truthful_iff`).
-/

namespace FloralSync

open StoreM Relation

/-- The first look at the channel: the answer that is given at once. -/
def waitImmediately (current since : Nat) : Option WaitResponse :=
  if current > since then some { revision := current, changed := true } else none

section Sends

variable {τ : Type} [Chrono τ]

/-- What a push on `db` sends. -/
def pushSent (db : Database) (result : Except StoreError PushResponse) : Option Nat :=
  match result, currentRevision db with
  | .ok response, .ok startingRevision =>
    if response.revision > startingRevision then some response.revision else none
  | _, _ => none

/-- What a restore sends, which leaves `s` behind. -/
def restoreSent (s : SyncStore) : Except StoreError Unit → Option Nat
  | .ok _ => some s.revisionEvents
  | .error _ => none

variable {s s' : SyncStore}

theorem revisionEvents_of_push {env : PushEnv τ} {request : PushRequest τ} {result : Except StoreError PushResponse}
    (h : (SyncStore.push env request).exec s = (result, s')) :
    s'.revisionEvents = (pushSent s.db result).getD s.revisionEvents := by
  rcases result with e | response
  · rw [exec_push_error h]
    rfl
  · obtain ⟨-, -, startingRevision, hstart, -, -, hevents⟩ := exec_push_ok.1 h
    rw [hevents]
    simp only [pushSent, hstart]
    split_ifs <;> rfl

theorem revisionEvents_of_restoreFrom {env : RestoreEnv τ} {file : SourceFile} {result : Except StoreError Unit}
    (h : (SyncStore.restoreFrom env file).exec s = (result, s')) :
    s'.revisionEvents = (restoreSent s' result).getD s.revisionEvents := by
  rcases result with e | _
  · rcases failed_restoreFrom ⟨e, h⟩ with rfl | ⟨m, previous, content, hcopied⟩
    · rfl
    · exact ((failed_restoreFrom_of_copied hcopied).1 ⟨e, h⟩).2
  · rfl

end Sends

/-! ### One call among pushes and restores -/

inductive WaitState
  | started
  | subscribed
  | waiting
  | woken
  | timedOut
  | returned (response : WaitResponse)
deriving DecidableEq

/-- The store, the call, and the last value that was sent since the call looked at the channel. -/
structure WaitSystem where
  store : SyncStore
  sent : Option Nat
  wait : WaitState

/-- `changed()` completes when something was sent since the last look at the channel. The timeout may elapse at
any time. -/
inductive WaitSystem.Step (τ : Type) [Chrono τ] (since : Nat) : WaitSystem → WaitSystem → Prop
  | push {env : PushEnv τ} {request result store s} (h : (SyncStore.push env request).exec s.store = (result, store)) :
      Step τ since s { s with store, sent := pushSent s.store.db result <|> s.sent }
  | restore {env : RestoreEnv τ} {file result store s}
      (h : (SyncStore.restoreFrom env file).exec s.store = (result, store)) :
      Step τ since s { s with store, sent := restoreSent store result <|> s.sent }
  | subscribe {s} (h : s.wait = .started) : Step τ since s { s with wait := .subscribed }
  | answer {response s} (h : s.wait = .subscribed)
      (hcurrent : waitImmediately s.store.revisionEvents since = some response) :
      Step τ since s { s with sent := none, wait := .returned response }
  | await {s} (h : s.wait = .subscribed) (hcurrent : waitImmediately s.store.revisionEvents since = none) :
      Step τ since s { s with sent := none, wait := .waiting }
  | wake {s} (h : s.wait = .waiting) (hsent : s.sent ≠ none) : Step τ since s { s with wait := .woken }
  | elapse {s} (h : s.wait = .waiting) : Step τ since s { s with wait := .timedOut }
  | changed {s} (h : s.wait = .woken) :
      Step τ since s { s with wait := .returned { revision := s.store.revisionEvents, changed := true } }
  | unchanged {s} (h : s.wait = .timedOut) :
      Step τ since s { s with wait := .returned { revision := s.store.revisionEvents, changed := false } }

/-- Once the call has looked, the channel has what was sent last, or else still what the call saw. -/
structure WaitSystem.Inv (since : Nat) (s : WaitSystem) : Prop where
  channel : s.wait = .waiting ∨ s.wait = .woken ∨ s.wait = .timedOut →
    ∃ current ≤ since, s.store.revisionEvents = s.sent.getD current
  sent : s.wait = .woken → s.sent ≠ none

section Wait

variable {τ : Type} [Chrono τ] {since : Nat} {s s' s₀ : WaitSystem} {response : WaitResponse}

theorem waitImmediately_eq_none {current : Nat} : waitImmediately current since = none ↔ current ≤ since := by
  simp [waitImmediately]

/-- A send does not disturb what is known of the channel. -/
theorem WaitSystem.Inv.send (h : s.Inv since) {store : SyncStore} {sent : Option Nat}
    (hevents : store.revisionEvents = sent.getD s.store.revisionEvents) :
    WaitSystem.Inv since { s with store, sent := sent <|> s.sent } := by
  rcases sent with _ | v
  · refine ⟨fun hwait => ?_, h.sent⟩
    obtain ⟨current, hle, hchannel⟩ := h.channel hwait
    exact ⟨current, hle, hevents.trans hchannel⟩
  · exact ⟨fun _ => ⟨since, le_rfl, hevents⟩, fun _ => by simp⟩

theorem WaitSystem.Inv.step (h : s.Inv since) (hs : WaitSystem.Step τ since s s') : s'.Inv since := by
  cases hs with
  | push hpush => exact h.send (revisionEvents_of_push hpush)
  | restore hrestore => exact h.send (revisionEvents_of_restoreFrom hrestore)
  | await _ hcurrent => exact ⟨fun _ => ⟨_, waitImmediately_eq_none.1 hcurrent, rfl⟩, by simp⟩
  | wake hwait hsent => exact ⟨fun _ => h.channel (.inl hwait), fun _ => hsent⟩
  | elapse hwait => exact ⟨fun _ => h.channel (.inl hwait), by simp⟩
  | _ => constructor <;> simp

theorem WaitSystem.inv_of_started (h : ReflTransGen (WaitSystem.Step τ since) s₀ s) (h₀ : s₀.wait = .started) :
    s.Inv since := by
  induction h with
  | refl => constructor <;> simp [h₀]
  | tail _ hs ih => exact ih.step hs

/-- The answer that is given at once is right. One after a wake-up is right if the last value sent since the
first look is above the cursor; one after a timeout, if no such value was. -/
theorem wait_truthful_iff (h : ReflTransGen (WaitSystem.Step τ since) s₀ s) (h₀ : s₀.wait = .started)
    (hs : WaitSystem.Step τ since s s') (hopen : ∀ r, s.wait ≠ .returned r) (hreturned : s'.wait = .returned response) :
    (response.changed = true ↔ since < response.revision) ↔
      (s.wait = .woken → ∃ v ∈ s.sent, since < v) ∧ (s.wait = .timedOut → ∀ v ∈ s.sent, v ≤ since) := by
  have hinv := WaitSystem.inv_of_started h h₀
  cases hs with
  | push => exact absurd hreturned (hopen response)
  | restore => exact absurd hreturned (hopen response)
  | subscribe => cases hreturned
  | await => cases hreturned
  | wake => cases hreturned
  | elapse => cases hreturned
  | answer hwait hcurrent =>
    obtain rfl := WaitState.returned.inj hreturned
    unfold waitImmediately at hcurrent
    split_ifs at hcurrent with hlt
    obtain rfl := Option.some.inj hcurrent
    simp [hwait, hlt]
  | changed hwait =>
    obtain rfl := WaitState.returned.inj hreturned
    obtain ⟨current, -, hchannel⟩ := hinv.channel (.inr (.inl hwait))
    obtain ⟨v, hv⟩ := Option.ne_none_iff_exists'.1 (hinv.sent hwait)
    rw [hv, Option.getD_some] at hchannel
    simp [hwait, hv, hchannel]
  | unchanged hwait =>
    obtain rfl := WaitState.returned.inj hreturned
    obtain ⟨current, hle, hchannel⟩ := hinv.channel (.inr (.inr hwait))
    cases hsent : s.sent with
    | none => simpa [hwait, hchannel, hsent] using hle
    | some v => simp [hwait, hchannel, hsent]

end Wait

/-- A call with the cursor 0 on a new store. -/
def freshWait : WaitSystem := ⟨.created, none, .started⟩

theorem freshWait_waiting : ReflTransGen (WaitSystem.Step Rfc3339.Civil 0) freshWait
    { freshWait with wait := .waiting } := by
  have hsubscribe : WaitSystem.Step Rfc3339.Civil 0 freshWait { freshWait with wait := .subscribed } := .subscribe rfl
  exact (ReflTransGen.single hsubscribe).tail (.await rfl rfl)

theorem push_during_wait {wait : WaitState} : WaitSystem.Step Rfc3339.Civil 0 { freshWait with wait }
    ⟨Sample.oneNoteStore, some 1, wait⟩ := by
  have hpush : (SyncStore.push Sample.pushEnv Sample.oneNote).exec .created = (.ok ⟨1⟩, Sample.oneNoteStore) :=
    Prod.ext (by decide +kernel) rfl
  have hsent : pushSent SyncStore.created.db (.ok ⟨1⟩) = some 1 := by decide +kernel
  have hstep : WaitSystem.Step Rfc3339.Civil 0 { freshWait with wait }
      ⟨Sample.oneNoteStore, pushSent SyncStore.created.db (.ok ⟨1⟩) <|> none, wait⟩ := .push hpush
  rwa [hsent] at hstep

theorem wait_truthful_of_push : ∃ s s' response,
    ReflTransGen (WaitSystem.Step Rfc3339.Civil 0) freshWait s ∧ WaitSystem.Step Rfc3339.Civil 0 s s' ∧
    s'.wait = .returned response ∧ response.revision = 1 ∧
    (response.changed = true ↔ 0 < response.revision) := by
  have hrun := (freshWait_waiting.tail push_during_wait).tail (.wake rfl nofun)
  refine ⟨_, _, _, hrun, .changed rfl, rfl, by decide +kernel, ?_⟩
  exact (wait_truthful_iff hrun rfl (.changed rfl) nofun rfl).2 ⟨fun _ => ⟨1, rfl, by decide⟩, nofun⟩

/-- A push that comes after the timeout and before the last look. -/
theorem wait_untruthful : ∃ s s' response,
    ReflTransGen (WaitSystem.Step Rfc3339.Civil 0) freshWait s ∧ WaitSystem.Step Rfc3339.Civil 0 s s' ∧
    s'.wait = .returned response ∧ response = ⟨1, false⟩ ∧
    ¬ (response.changed = true ↔ 0 < response.revision) := by
  have hrun := (freshWait_waiting.tail (.elapse rfl)).tail push_during_wait
  exact ⟨_, _, ⟨Sample.oneNoteStore.revisionEvents, false⟩, hrun, .unchanged rfl, rfl, by decide +kernel,
    by decide +kernel⟩

end FloralSync

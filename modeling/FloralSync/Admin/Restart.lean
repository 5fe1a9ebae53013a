import FloralSync.Trace
import Mathlib.Logic.Function.Basic
import Mathlib.Logic.Relation

/-!
# The restart handle (`admin_api.rs`)

Each listener waits for a restart in a task of its own. The task looks at the flag and only then makes the
future that it awaits, while `request_restart` sets the flag and then notifies. A notification between the two
steps of the task reaches neither, and the task is blocked for good (`restart_lost`). It is the only way to
lose a restart (`no_task_stuck`).
-/

namespace Tokio

/-- `Notify`, as the `Notified` futures that were made and whether they are woken. No permit is stored. -/
abbrev Notify (ι : Type) := ι → Option Bool

namespace Notify

variable {ι : Type} {notify : Notify ι} {i : ι}

def notified [DecidableEq ι] (notify : Notify ι) (i : ι) : Notify ι := Function.update notify i (some false)

/-- The futures made so far are woken. -/
def notifyWaiters (notify : Notify ι) : Notify ι := fun i => (notify i).map fun _ => true

@[simp] theorem notifyWaiters_eq_some : notify.notifyWaiters i = some true ↔ notify i ≠ none := by
  cases h : notify i <;> simp [notifyWaiters, h]

@[simp] theorem notifyWaiters_eq_none : notify.notifyWaiters i = none ↔ notify i = none := by
  simp [notifyWaiters]

end Notify
end Tokio

namespace FloralSync

open Tokio Trace Relation

/-- Where a task is in `wait_for_restart`. -/
inductive WaitForRestart
  | start
  /-- The flag was not set. -/
  | checked
  /-- The `Notified` future is made. -/
  | created
  | blocked
  | returned
deriving DecidableEq

/-- Where a call of `request_restart` is. -/
inductive RequestRestart
  | start
  | stored
  | returned
deriving DecidableEq

/-- A handle with the tasks and the calls that share it. -/
structure RestartHandle (ι κ : Type) where
  requested : Bool
  notify : Notify ι
  task : ι → WaitForRestart
  call : κ → RequestRestart

namespace RestartHandle

variable {ι κ : Type}

/-- `RestartHandle::new`, before any task or call. -/
def new : RestartHandle ι κ := ⟨false, fun _ => none, fun _ => .start, fun _ => .start⟩

def setTask [DecidableEq ι] (s : RestartHandle ι κ) (i : ι) (p : WaitForRestart) : RestartHandle ι κ :=
  { s with task := Function.update s.task i p }

def setCall [DecidableEq κ] (s : RestartHandle ι κ) (r : κ) (q : RequestRestart) : RestartHandle ι κ :=
  { s with call := Function.update s.call r q }

inductive Label (ι κ : Type)
  | load (i : ι)
  | create (i : ι)
  | await (i : ι)
  | wake (i : ι)
  | store (r : κ)
  | notifyWaiters (r : κ)

inductive Step [DecidableEq ι] [DecidableEq κ] : RestartHandle ι κ → Label ι κ → RestartHandle ι κ → Prop
  | load {s i} (h : s.task i = .start) :
    Step s (.load i) (s.setTask i (if s.requested then .returned else .checked))
  | create {s i} (h : s.task i = .checked) :
    Step s (.create i) { s.setTask i .created with notify := s.notify.notified i }
  | await {s i} (h : s.task i = .created) :
    Step s (.await i) (s.setTask i (if s.notify i = some true then .returned else .blocked))
  | wake {s i} (h : s.task i = .blocked) (hwoken : s.notify i = some true) : Step s (.wake i) (s.setTask i .returned)
  | store {s r} (h : s.call r = .start) : Step s (.store r) { s.setCall r .stored with requested := true }
  | notifyWaiters {s r} (h : s.call r = .stored) :
    Step s (.notifyWaiters r) { s.setCall r .returned with notify := s.notify.notifyWaiters }

/-- The flag is set and every call has returned, and some task is blocked without a wake-up. -/
def Stuck (s : RestartHandle ι κ) : Prop :=
  s.requested = true ∧ (∀ r, s.call r ≠ .stored) ∧ ∃ i, s.task i = .blocked ∧ s.notify i ≠ some true

/-- The last notification that is to come, while a task has looked at the flag and made no future yet. -/
def Loses (s : RestartHandle ι κ) : Label ι κ → Prop
  | .notifyWaiters r => (∀ r', s.call r' = .stored → r' = r) ∧ ∃ i, s.task i = .checked
  | _ => False

/-- The restart reaches the task: it has not looked at the flag, is woken, or is done. -/
def Reaches (s : RestartHandle ι κ) (i : ι) : Prop :=
  s.task i ≠ .checked ∧ (s.task i = .created ∨ s.task i = .blocked → s.notify i = some true)

/-- Once the flag is set and every call has returned, the restart reaches every task. -/
def Kept (s : RestartHandle ι κ) : Prop := s.requested = true → (∀ r, s.call r ≠ .stored) → ∀ i, s.Reaches i

/-- A call that has not returned has set the flag, and a task that awaits has a future. -/
structure Inv (s : RestartHandle ι κ) : Prop where
  requested : ∀ r, s.call r = .stored → s.requested = true
  future : ∀ i, s.task i = .created ∨ s.task i = .blocked → s.notify i ≠ none

section Basic

variable {s s' : RestartHandle ι κ} {i j : ι} {r r' : κ} {p : WaitForRestart} {q : RequestRestart}

@[simp] theorem setTask_task [DecidableEq ι] : (s.setTask i p).task i = p := Function.update_self ..

theorem setTask_task_of_ne [DecidableEq ι] (h : j ≠ i) : (s.setTask i p).task j = s.task j :=
  Function.update_of_ne h ..

@[simp] theorem setCall_call [DecidableEq κ] : (s.setCall r q).call r = q := Function.update_self ..

theorem setCall_call_of_ne [DecidableEq κ] (h : r' ≠ r) : (s.setCall r q).call r' = s.call r' :=
  Function.update_of_ne h ..

theorem Reaches.congr (h : s.Reaches i) (htask : s'.task i = s.task i) (hnotify : s'.notify i = s.notify i) :
    s'.Reaches i := by
  unfold Reaches
  rw [htask, hnotify]
  exact h

theorem Reaches.of_returned (h : s.task i = .returned) : s.Reaches i := by simp [Reaches, h]

theorem Kept.not_stuck (h : s.Kept) : ¬ s.Stuck := by
  rintro ⟨hrequested, hcalls, i, hblocked, hwoken⟩
  exact hwoken ((h hrequested hcalls i).2 (.inr hblocked))

theorem inv_new : (new : RestartHandle ι κ).Inv := ⟨nofun, fun _ h => by rcases h with h | h <;> cases h⟩

theorem kept_new : (new : RestartHandle ι κ).Kept := nofun

theorem Inv.setTask [DecidableEq ι] (h : s.Inv) (hi : p = .created ∨ p = .blocked → s.notify i ≠ none) :
    (s.setTask i p).Inv := by
  refine ⟨h.requested, fun j hj => ?_⟩
  rcases eq_or_ne j i with rfl | hne
  · rw [setTask_task] at hj
    exact hi hj
  · rw [setTask_task_of_ne hne] at hj
    exact h.future j hj

theorem Kept.setTask [DecidableEq ι] (h : s.Kept)
    (hi : s.requested = true → (∀ r, s.call r ≠ .stored) → (s.setTask i p).Reaches i) : (s.setTask i p).Kept := by
  intro hrequested hcalls j
  rcases eq_or_ne j i with rfl | hne
  · exact hi hrequested hcalls
  · exact (h hrequested hcalls j).congr (setTask_task_of_ne hne) rfl

end Basic

section Run

variable [DecidableEq ι] [DecidableEq κ] {s s' : RestartHandle ι κ} {l : Label ι κ} {i : ι}
  {trace : List (RestartHandle ι κ × Label ι κ)}

theorem Inv.step (h : s.Inv) (hs : Step s l s') : s'.Inv := by
  cases hs with
  | load => exact h.setTask fun hp => by split_ifs at hp <;> simp at hp
  | @create i =>
    refine ⟨h.requested, fun j hj => ?_⟩
    rcases eq_or_ne j i with rfl | hne
    · simp [Notify.notified]
    · replace hj : (s.setTask i .created).task j = .created ∨ (s.setTask i .created).task j = .blocked := hj
      rw [setTask_task_of_ne hne] at hj
      simpa [Notify.notified, hne] using h.future j hj
  | await hcreated => exact h.setTask fun _ => h.future _ (.inl hcreated)
  | wake hblocked => exact h.setTask fun _ => h.future _ (.inr hblocked)
  | store => exact ⟨fun _ _ => rfl, h.future⟩
  | @notifyWaiters r hstored =>
    refine ⟨fun _ _ => h.requested r hstored, fun i hi => ?_⟩
    exact mt Notify.notifyWaiters_eq_none.1 (h.future i hi)

/-- Only a notification can lose a restart, and only the last one. -/
theorem Kept.step_iff (h : s.Kept) (hinv : s.Inv) (hs : Step s l s') : s'.Kept ↔ ¬ s.Loses l := by
  cases hs with
  | load =>
    refine iff_of_true (h.setTask fun hrequested _ => .of_returned ?_) id
    rw [setTask_task, if_pos hrequested]
  | create hchecked =>
    refine iff_of_true (fun hrequested hcalls => ?_) id
    exact absurd hchecked (h hrequested hcalls _).1
  | await hcreated =>
    refine iff_of_true (h.setTask fun hrequested hcalls => .of_returned ?_) id
    rw [setTask_task, if_pos ((h hrequested hcalls _).2 (.inl hcreated))]
  | wake => exact iff_of_true (h.setTask fun _ _ => .of_returned setTask_task) id
  | @store r => exact iff_of_true (fun _ hcalls => absurd setCall_call (hcalls r)) id
  | @notifyWaiters r hstored =>
    constructor
    · rintro h' ⟨hlast, i, hchecked⟩
      refine (h' (hinv.requested r hstored) (fun r' hr' => ?_) i).1 hchecked
      replace hr' : (s.setCall r .returned).call r' = .stored := hr'
      rcases eq_or_ne r' r with rfl | hne
      · simp at hr'
      · rw [setCall_call_of_ne hne] at hr'
        exact hne (hlast r' hr')
    · intro hnot _ hcalls i
      refine ⟨fun hchecked => hnot ⟨fun r' hr' => ?_, i, hchecked⟩,
        fun hi => Notify.notifyWaiters_eq_some.2 (hinv.future i hi)⟩
      by_contra hne
      exact hcalls r' ((setCall_call_of_ne hne).trans hr')

theorem kept_iff (h : Run Step new trace s) : Always Kept trace s ↔ ∀ x ∈ trace, ¬ x.1.Loses x.2 :=
  h.always_iff Inv inv_new kept_new Inv.step fun hinv hkept => hkept.step_iff hinv

/-- If no notification is lost, no task is stuck. -/
theorem no_task_stuck (h : Run Step new trace s) (hsteps : ∀ x ∈ trace, ¬ x.1.Loses x.2) :
    Always (fun s => ¬ s.Stuck) trace s := by
  obtain ⟨htrace, hs⟩ := (kept_iff h).2 hsteps
  exact ⟨fun x hx => (htrace x hx).not_stuck, hs.not_stuck⟩

/-- A step of a task. -/
def TaskStep (s s' : RestartHandle ι κ) : Prop :=
  ∃ i, Step s (.load i) s' ∨ Step s (.create i) s' ∨ Step s (.await i) s' ∨ Step s (.wake i) s'

theorem TaskStep.kept (hs : TaskStep s s') (hinv : s.Inv) (h : s.Kept) : s'.Inv ∧ s'.Kept := by
  obtain ⟨i, hs | hs | hs | hs⟩ := hs <;> exact ⟨hinv.step hs, (h.step_iff hinv hs).2 id⟩

theorem exists_stuck_of_created (hrequested : s.requested = true) (hcalls : ∀ r, s.call r ≠ .stored)
    (hi : s.task i = .created) (hwoken : s.notify i ≠ some true) : ∃ s', TaskStep s s' ∧ s'.Stuck := by
  refine ⟨_, ⟨i, .inr (.inr (.inl (.await hi)))⟩, hrequested, hcalls, i, ?_, hwoken⟩
  rw [setTask_task, if_neg hwoken]

/-- A restart that is lost leads to a stuck task without any further call. -/
theorem exists_stuck_of_not_kept (h : ¬ s.Kept) : ∃ s', ReflTransGen TaskStep s s' ∧ s'.Stuck := by
  simp only [Kept, Reaches, not_forall, not_and_or, not_not] at h
  obtain ⟨hrequested, hcalls, i, hchecked | ⟨hcreated | hblocked, hwoken⟩⟩ := h
  · obtain ⟨s', hs', hstuck⟩ := exists_stuck_of_created (i := i)
      (s := { s.setTask i .created with notify := s.notify.notified i }) hrequested hcalls setTask_task
      (by simp [Notify.notified])
    exact ⟨s', (ReflTransGen.single ⟨i, .inr (.inl (.create hchecked))⟩).tail hs', hstuck⟩
  · obtain ⟨s', hs', hstuck⟩ := exists_stuck_of_created hrequested hcalls hcreated hwoken
    exact ⟨s', .single hs', hstuck⟩
  · exact ⟨s, .refl, hrequested, hcalls, i, hblocked, hwoken⟩

/-- The condition is exact: where it fails, the tasks go on by themselves until one is stuck. -/
theorem no_task_gets_stuck_iff (h : Run Step new trace s) :
    Always (fun s => ∀ s', ReflTransGen TaskStep s s' → ¬ s'.Stuck) trace s ↔ ∀ x ∈ trace, ¬ x.1.Loses x.2 := by
  have hkept : ∀ s : RestartHandle ι κ, s.Inv → ((∀ s', ReflTransGen TaskStep s s' → ¬ s'.Stuck) ↔ s.Kept) := by
    intro s hinv
    constructor
    · intro hs
      by_contra hnot
      obtain ⟨s', hs', hstuck⟩ := exists_stuck_of_not_kept hnot
      exact hs s' hs' hstuck
    · intro hs s' hs'
      have hs'' : s'.Inv ∧ s'.Kept := by
        induction hs' with
        | refl => exact ⟨hinv, hs⟩
        | tail _ hstep ih => exact hstep.kept ih.1 ih.2
      exact hs''.2.not_stuck
  have hinv : s.Inv := h.invariant inv_new Inv.step
  rw [← kept_iff h, Always, Always, hkept s hinv]
  refine and_congr_left' (forall₂_congr fun x hx => hkept x.1 ?_)
  obtain ⟨before, s', after, hbefore, -, -⟩ := h.split hx
  exact hbefore.invariant inv_new Inv.step

end Run

/-- The call comes when the task awaits its future. -/
theorem no_task_stuck_of_blocked : ∃ (trace : List (RestartHandle Unit Unit × Label Unit Unit))
    (s : RestartHandle Unit Unit), Run Step new trace s ∧ s.requested = true ∧ s.task () = .returned ∧
      Always (fun s => ¬ s.Stuck) trace s := by
  have hstart : Run Step (new : RestartHandle Unit Unit) [] new := .start
  have hblocked := ((hstart.step (Step.load (i := ()) rfl)).step (Step.create (i := ()) rfl)).step
    (Step.await (i := ()) rfl)
  have hrun := ((hblocked.step (Step.store (r := ()) rfl)).step (Step.notifyWaiters (r := ()) rfl)).step
    (Step.wake (i := ()) rfl rfl)
  refine ⟨_, _, hrun, rfl, rfl, no_task_stuck hrun ?_⟩
  simp only [List.forall_mem_cons]
  refine ⟨id, ?_, id, id, id, id, nofun⟩
  rintro ⟨-, i, hi⟩
  cases hi

/-- The call comes after the task's look at the flag and before its future. -/
theorem restart_lost : ∃ (trace : List (RestartHandle Unit Unit × Label Unit Unit)) (s : RestartHandle Unit Unit),
    Run Step new trace s ∧ s.Stuck := by
  have hstart : Run Step (new : RestartHandle Unit Unit) [] new := .start
  have hnotified := ((hstart.step (Step.load (i := ()) rfl)).step (Step.store (r := ()) rfl)).step
    (Step.notifyWaiters (r := ()) rfl)
  have hrun := (hnotified.step (Step.create (i := ()) rfl)).step (Step.await (i := ()) rfl)
  exact ⟨_, _, hrun, rfl, nofun, (), rfl, nofun⟩

end RestartHandle
end FloralSync

import Mathlib.Tactic.SplitIfs

/-! # Computations that fail and keep their state

A computation in `ExceptT ε (StateM σ)` leaves a state behind whether it succeeds or not. What one that
was composed of others did is told by one lemma for each result.

A computation `Simulates` another one through a view of its state if it has the same result and does the same to
what is seen; so does one that is composed of computations that do. Conversely `zoom` runs a computation on a part of
a state. -/

namespace Stateful

variable {ε σ α β : Type} {s s' : σ} {a : α} {b : β} {e : ε}

/-- Running a computation: its result and the state it leaves. -/
def exec (x : ExceptT ε (StateM σ) α) (s : σ) : Except ε α × σ := StateT.run (ExceptT.run x) s

@[simp] theorem exec_pure (a : α) : exec (pure a : ExceptT ε (StateM σ) α) s = (.ok a, s) := rfl

@[simp] theorem exec_throw (e : ε) : exec (throw e : ExceptT ε (StateM σ) α) s = (.error e, s) := rfl

@[simp] theorem exec_get : exec (get : ExceptT ε (StateM σ) σ) s = (.ok s, s) := rfl

@[simp] theorem exec_set (t : σ) : exec (set t : ExceptT ε (StateM σ) Unit) s = (.ok (), t) := rfl

@[simp] theorem exec_modify (f : σ → σ) : exec (modify f : ExceptT ε (StateM σ) Unit) s = (.ok (), f s) := rfl

@[simp] theorem exec_liftExcept (x : Except ε α) : exec (liftExcept x : ExceptT ε (StateM σ) α) s = (x, s) := by
  cases x <;> rfl

theorem exec_bind (x : ExceptT ε (StateM σ) α) (f : α → ExceptT ε (StateM σ) β) :
    exec (x >>= f) s = match exec x s with
      | (.ok a, s') => exec (f a) s'
      | (.error e, s') => (.error e, s') := by
  show StateT.run (ExceptT.run x >>= ExceptT.bindCont f) s = _
  simp only [exec, StateT.run_bind]
  rcases StateT.run (ExceptT.run x) s with ⟨_ | _, _⟩ <;> rfl

theorem exec_bind_ok {x : ExceptT ε (StateM σ) α} {f : α → ExceptT ε (StateM σ) β} :
    exec (x >>= f) s = (.ok b, s') ↔ ∃ a s₁, exec x s = (.ok a, s₁) ∧ exec (f a) s₁ = (.ok b, s') := by
  rw [exec_bind]
  rcases exec x s with ⟨e | a, s₁⟩
  · simp
  · constructor
    · intro h
      exact ⟨a, s₁, rfl, h⟩
    · rintro ⟨_, _, ⟨⟩, h⟩
      exact h

theorem exec_bind_error {x : ExceptT ε (StateM σ) α} {f : α → ExceptT ε (StateM σ) β} :
    exec (x >>= f) s = (.error e, s') ↔
      exec x s = (.error e, s') ∨ ∃ a s₁, exec x s = (.ok a, s₁) ∧ exec (f a) s₁ = (.error e, s') := by
  rw [exec_bind]
  rcases exec x s with ⟨e₁ | a, s₁⟩
  · simp
  · constructor
    · intro h
      exact .inr ⟨a, s₁, rfl, h⟩
    · rintro (h | ⟨_, _, ⟨⟩, h⟩)
      · cases h
      · exact h

theorem exec_liftExcept_bind {y : Except ε α} {f : α → ExceptT ε (StateM σ) β} {r : Except ε β}
    (h : exec (liftExcept y >>= f) s = (r, s')) : s' = s ∨ ∃ a, y = .ok a ∧ exec (f a) s = (r, s') := by
  rw [exec_bind, exec_liftExcept] at h
  cases y with
  | error e => exact .inl (Prod.mk.inj h).2.symm
  | ok a => exact .inr ⟨a, rfl, h⟩

@[simp] theorem exec_map (f : α → β) (x : ExceptT ε (StateM σ) α) :
    exec (f <$> x) s = ((exec x s).1.map f, (exec x s).2) := by
  rw [map_eq_pure_bind, exec_bind]
  rcases exec x s with ⟨_ | _, _⟩ <;> rfl

/-- A computation that only reads. -/
def reading (f : σ → Except ε α) : ExceptT ε (StateM σ) α := do
  liftExcept (f (← get))

@[simp] theorem exec_reading (f : σ → Except ε α) : exec (reading f) s = (f s, s) := by
  rw [reading, exec_bind, exec_get]
  exact exec_liftExcept _

@[simp] theorem exec_adapt {ε' : Type} (f : ε → ε') (x : ExceptT ε (StateM σ) α) :
    exec (ExceptT.adapt f x) s = ((exec x s).1.mapError f, (exec x s).2) := rfl

/-- It leaves the state as it was. -/
def OnlyReads (x : ExceptT ε (StateM σ) α) : Prop := ∀ s, (exec x s).2 = s

section OnlyReads

variable {x : ExceptT ε (StateM σ) α} {f : α → ExceptT ε (StateM σ) β}

theorem onlyReads_pure (a : α) : OnlyReads (pure a : ExceptT ε (StateM σ) α) := fun _ => rfl

theorem onlyReads_get : OnlyReads (get : ExceptT ε (StateM σ) σ) := fun _ => rfl

theorem onlyReads_liftExcept (y : Except ε α) : OnlyReads (liftExcept y : ExceptT ε (StateM σ) α) := fun _ => by
  rw [exec_liftExcept]

theorem OnlyReads.bind (hx : OnlyReads x) (hf : ∀ a, OnlyReads (f a)) : OnlyReads (x >>= f) := by
  intro s
  have hs := hx s
  rw [exec_bind]
  rcases hexec : exec x s with ⟨e | a, s'⟩ <;> rw [hexec] at hs
  · exact hs
  · exact (hf a s').trans hs

theorem OnlyReads.map (hx : OnlyReads x) (g : α → β) : OnlyReads (g <$> x) := fun s => by
  rw [exec_map]
  exact hx s

end OnlyReads

section Zoom

variable {ρ : Type}

def zoom (part : σ → ρ) (restore : ρ → σ → σ) (x : ExceptT ε (StateM ρ) α) : ExceptT ε (StateM σ) α :=
  ExceptT.mk fun s => ((exec x (part s)).1, restore (exec x (part s)).2 s)

@[simp] theorem exec_zoom (part : σ → ρ) (restore : ρ → σ → σ) (x : ExceptT ε (StateM ρ) α) :
    exec (zoom part restore x) s = ((exec x (part s)).1, restore (exec x (part s)).2 s) := rfl

end Zoom

/-! ### Simulation -/

section Simulation

variable {τ : Type} {view : σ → τ}

def Simulates (view : σ → τ) (x : ExceptT ε (StateM σ) α) (y : ExceptT ε (StateM τ) α) : Prop :=
  ∀ s, ((exec x s).1, view (exec x s).2) = exec y (view s)

theorem simulates_pure (a : α) : Simulates (ε := ε) view (pure a) (pure a) := fun _ => rfl

theorem simulates_liftExcept (x : Except ε α) : Simulates (ε := ε) view (liftExcept x) (liftExcept x) := by
  intro s
  rw [exec_liftExcept, exec_liftExcept]

theorem Simulates.bind {x : ExceptT ε (StateM σ) α} {y : ExceptT ε (StateM τ) α} {f : α → ExceptT ε (StateM σ) β}
    {g : α → ExceptT ε (StateM τ) β} (h : Simulates view x y)
    (hf : ∀ a s s', exec x s = (.ok a, s') → Simulates view (f a) (g a)) :
    Simulates view (x >>= f) (y >>= g) := by
  intro s
  rw [exec_bind, exec_bind, ← h s]
  rcases hx : exec x s with ⟨e | a, s'⟩
  · rfl
  · exact hf a s s' hx s'

theorem simulates_get_bind {f : σ → ExceptT ε (StateM σ) β} {g : τ → ExceptT ε (StateM τ) β}
    (hf : ∀ s, Simulates view (f s) (g (view s))) : Simulates view (get >>= f) (get >>= g) := by
  intro s
  rw [exec_bind, exec_bind, exec_get, exec_get]
  exact hf s s

end Simulation

end Stateful

import Mathlib.Data.List.Count

/-!
# Runs of a transition system

A run keeps the steps it took, each with the state before it, the last one first. A property of states that
a step keeps under an exact condition holds all along a run if and only if all its steps meet the condition
(`Run.always_iff`).

A state may itself keep a history, a list that grows at its head. `asOf n` is the history when it had `n`
entries; a value that occurs once and is now the newest was there before only if nothing came since
(`eq_length_of_mem_asOf`).
-/

namespace Trace

inductive Run {σ ℓ : Type} (Step : σ → ℓ → σ → Prop) (s₀ : σ) : List (σ × ℓ) → σ → Prop
  | start : Run Step s₀ [] s₀
  | step {trace : List (σ × ℓ)} {s : σ} {l : ℓ} {s' : σ} (h : Run Step s₀ trace s) (hstep : Step s l s') :
    Run Step s₀ ((s, l) :: trace) s'

variable {σ ℓ : Type} {Step : σ → ℓ → σ → Prop} {s₀ s s' : σ} {trace : List (σ × ℓ)}

/-- In every state of the run. -/
def Always (Q : σ → Prop) (trace : List (σ × ℓ)) (s : σ) : Prop := (∀ x ∈ trace, Q x.1) ∧ Q s

namespace Run

theorem invariant {P : σ → Prop} (h : Run Step s₀ trace s) (h₀ : P s₀)
    (hstep : ∀ {s l s'}, P s → Step s l s' → P s') : P s := by
  induction h with
  | start => exact h₀
  | step _ hs ih => exact hstep ih hs

/-- A run goes through each of its steps. -/
theorem split (h : Run Step s₀ trace s) {x : σ × ℓ} (hx : x ∈ trace) :
    ∃ before s' after, Run Step s₀ before x.1 ∧ Step x.1 x.2 s' ∧ Run Step s' after s := by
  induction h with
  | start => cases hx
  | step h hs ih =>
    rcases List.mem_cons.1 hx with rfl | hx
    · exact ⟨_, _, [], h, hs, .start⟩
    · obtain ⟨before, s', after, hbefore, hx, hafter⟩ := ih hx
      exact ⟨before, s', _, hbefore, hx, hafter.step hs⟩

theorem always_iff {Q : σ → Prop} {C : σ → ℓ → Prop} (h : Run Step s₀ trace s) (Inv : σ → Prop) (h₀ : Inv s₀)
    (hQ : Q s₀) (hinv : ∀ {s l s'}, Inv s → Step s l s' → Inv s')
    (hstep : ∀ {s l s'}, Inv s → Q s → Step s l s' → (Q s' ↔ C s l)) :
    Always Q trace s ↔ ∀ x ∈ trace, C x.1 x.2 := by
  induction h with
  | start => simp [Always, hQ]
  | @step trace s l s' h hs ih =>
    have hs' : Q s → (Q s' ↔ C s l) := fun hq => hstep (h.invariant h₀ hinv) hq hs
    unfold Always at ih ⊢
    rw [List.forall_mem_cons, List.forall_mem_cons, ← ih]
    constructor
    · rintro ⟨⟨hq, htrace⟩, hq'⟩
      exact ⟨(hs' hq).1 hq', htrace, hq⟩
    · rintro ⟨hc, htrace, hq⟩
      exact ⟨⟨hq, htrace⟩, (hs' hq).2 hc⟩

/-- A simulation carries a run over to another system, step by step and with labels of which the same is seen. -/
theorem simulate_seen {σ' γ : Type} {Step' : σ' → ℓ → σ' → Prop} {R : σ → σ' → Prop} {t₀ : σ'} (seen : ℓ → γ)
    (h : Run Step s₀ trace s) (h₀ : R s₀ t₀)
    (hstep : ∀ {s l s' t}, R s t → Step s l s' → ∃ l' t', Step' t l' t' ∧ seen l' = seen l ∧ R s' t') :
    ∃ trace' t, Run Step' t₀ trace' t ∧ trace'.map (fun x => seen x.2) = trace.map (fun x => seen x.2) ∧ R s t := by
  induction h with
  | start => exact ⟨[], t₀, .start, rfl, h₀⟩
  | step _ hs ih =>
    obtain ⟨trace', t, hrun, hseen, hR⟩ := ih
    obtain ⟨l', t', ht, heq, hR'⟩ := hstep hR hs
    exact ⟨_, t', hrun.step ht, congrArg₂ List.cons heq hseen, hR'⟩

theorem simulate {σ' : Type} {Step' : σ' → ℓ → σ' → Prop} {R : σ → σ' → Prop} {t₀ : σ'} (h : Run Step s₀ trace s)
    (h₀ : R s₀ t₀) (hstep : ∀ {s l s' t}, R s t → Step s l s' → ∃ t', Step' t l t' ∧ R s' t') :
    ∃ trace' t, Run Step' t₀ trace' t ∧ trace'.map Prod.snd = trace.map Prod.snd ∧ R s t :=
  h.simulate_seen id h₀ fun hR hs =>
    let ⟨t', ht, hR'⟩ := hstep hR hs
    ⟨_, t', ht, rfl, hR'⟩

end Run

section History

variable {α : Type} {a : α} {history : List α} {n : Nat}

def asOf (n : Nat) (history : List α) : List α := history.drop (history.length - n)

@[simp] theorem asOf_length : asOf history.length history = history := by simp [asOf]

theorem asOf_cons (hn : n ≤ history.length) : asOf n (a :: history) = asOf n history := by
  rw [asOf, List.length_cons, Nat.succ_sub hn]
  rfl

theorem mem_of_mem_asOf (h : a ∈ asOf n history) : a ∈ history := List.mem_of_mem_drop h

theorem eq_length_of_mem_asOf [BEq α] [LawfulBEq α] (hn : n ≤ history.length) (hhead : history.head? = some a)
    (honce : history.count a ≤ 1) (hmem : a ∈ asOf n history) : n = history.length := by
  rcases history with _ | ⟨b, rest⟩
  · cases hhead
  obtain rfl := Option.some.inj hhead
  rcases Nat.lt_or_ge rest.length n with hlt | hle
  · exact Nat.le_antisymm hn hlt
  · rw [asOf_cons hle] at hmem
    have hpos := List.count_pos_iff.2 (mem_of_mem_asOf hmem)
    rw [List.count_cons_self] at honce
    omega

end History
end Trace

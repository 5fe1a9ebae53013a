import Mathlib.Data.Finset.Card
import Mathlib.Data.Finset.Image

/-!
# The first candidate not in use

Distinct candidates are tried one after the other. With as many tries as there are used values, one of them or
the one after them is not in use.
-/

namespace Fresh

variable {α : Type} {candidate : Nat → α} {used : Finset α}

/-- There are no more distinct used candidates than used values. -/
theorem le_card_of_used {m : Nat} (hinj : Set.InjOn candidate (Set.Iio m)) (h : ∀ j < m, candidate j ∈ used) :
    m ≤ used.card := by
  have hcard := Finset.card_le_card_of_injOn (s := Finset.range m) candidate (fun j hj => h j (Finset.mem_range.1 hj))
    fun i hi j hj heq => hinj (Finset.mem_range.1 hi) (Finset.mem_range.1 hj) heq
  rwa [Finset.card_range] at hcard

variable [DecidableEq α]

/-- The first of the candidates from number `n` on that is not used, or the one after `tries` used ones. -/
def firstUnused (candidate : Nat → α) (used : Finset α) : Nat → Nat → α
  | 0, n => candidate n
  | tries + 1, n => if candidate n ∈ used then firstUnused candidate used tries (n + 1) else candidate n

/-- Only used candidates come before the result. -/
theorem firstUnused_spec (candidate : Nat → α) (used : Finset α) (tries n : Nat) :
    ∃ k, firstUnused candidate used tries n = candidate (n + k) ∧ ∀ j < k, candidate (n + j) ∈ used := by
  induction tries generalizing n with
  | zero => exact ⟨0, rfl, nofun⟩
  | succ tries ih =>
    unfold firstUnused
    split_ifs with hn
    · obtain ⟨k, heq, hused⟩ := ih (n + 1)
      refine ⟨k + 1, by rw [heq, Nat.succ_add_eq_add_succ], fun j hj => ?_⟩
      cases j with
      | zero => exact hn
      | succ j =>
        rw [← Nat.succ_add_eq_add_succ]
        exact hused j (Nat.lt_of_succ_lt_succ hj)
    · exact ⟨0, rfl, nofun⟩

theorem candidate_mem_of_firstUnused_mem {tries n : Nat} (h : firstUnused candidate used tries n ∈ used) {k : Nat}
    (hk : k ≤ tries) : candidate (n + k) ∈ used := by
  induction tries generalizing n k with
  | zero =>
    obtain rfl := Nat.le_zero.1 hk
    exact h
  | succ tries ih =>
    unfold firstUnused at h
    split_ifs at h with hn
    swap
    · exact absurd h hn
    cases k with
    | zero => exact hn
    | succ k =>
      rw [← Nat.succ_add_eq_add_succ]
      exact ih h (Nat.le_of_succ_le_succ hk)

theorem firstUnused_notMem (hinj : candidate.Injective) (n : Nat) :
    firstUnused candidate used used.card n ∉ used := by
  intro h
  have hshift : (fun k => candidate (n + k)).Injective := fun _ _ heq => Nat.add_left_cancel (hinj heq)
  have hcard := le_card_of_used (m := used.card + 1) hshift.injOn fun k hk =>
    candidate_mem_of_firstUnused_mem h (Nat.le_of_lt_succ hk)
  exact Nat.not_succ_le_self _ hcard

end Fresh

import Mathlib.Data.List.DropRight
import Mathlib.Data.List.Forall2
import Mathlib.Tactic.SplitIfs

/-! # Fallible computations

What a computation that returned `ok` did: one lemma for each way of composing them. -/

namespace Except

variable {ε α β : Type} {f : α → Except ε β}

theorem bind_eq_ok {x : Except ε α} {b : β} : (x >>= f) = .ok b ↔ ∃ a, x = .ok a ∧ f a = .ok b := by
  cases x with
  | error e => exact iff_of_false nofun fun ⟨_, h, _⟩ => nomatch h
  | ok a => exact ⟨fun h => ⟨a, rfl, h⟩, fun ⟨_, h, h'⟩ => by cases h; exact h'⟩

theorem ok_bind (a : α) (f : α → Except ε β) : ((.ok a : Except ε α) >>= f) = f a := rfl

theorem map_eq_ok {x : Except ε α} {g : α → β} {b : β} : g <$> x = .ok b ↔ ∃ a, x = .ok a ∧ g a = b := by
  cases x with
  | error e => exact iff_of_false nofun fun ⟨_, h, _⟩ => nomatch h
  | ok a => exact ⟨fun h => ⟨a, rfl, Except.ok.inj h⟩, fun ⟨_, h, h'⟩ => by cases h; exact congrArg _ h'⟩

theorem mapM_eq_ok {xs : List α} {ys : List β} :
    xs.mapM f = .ok ys ↔ List.Forall₂ (fun x y => f x = .ok y) xs ys := by
  induction xs generalizing ys with
  | nil =>
    rw [List.mapM_nil, List.forall₂_nil_left_iff]
    exact ⟨fun h => (Except.ok.inj h).symm, fun h => h ▸ rfl⟩
  | cons x xs ih =>
    rw [List.mapM_cons, List.forall₂_cons_left_iff]
    simp only [bind_eq_ok, ih]
    constructor
    · rintro ⟨y, hy, ys, hys, h⟩
      exact ⟨y, ys, hy, hys, (Except.ok.inj h).symm⟩
    · rintro ⟨y, ys, hy, hys, rfl⟩
      exact ⟨y, hy, ys, hys, rfl⟩

theorem mapError_eq_ok {ε' : Type} {x : Except ε α} {g : ε → ε'} {a : α} : x.mapError g = .ok a ↔ x = .ok a := by
  cases x <;> simp [Except.mapError]

/-- `Option::ok_or` -/
def okOr (o : Option α) (e : ε) : Except ε α :=
  match o with
  | some a => .ok a
  | none => .error e

theorem okOr_eq_ok {o : Option α} {e : ε} {a : α} : okOr o e = .ok a ↔ o = some a := by
  cases o <;> simp [okOr]

/-- Returning an error unless a condition holds. -/
def ensure (p : Prop) [Decidable p] (e : ε) : Except ε Unit := if p then .ok () else .error e

theorem ensure_eq_ok {p : Prop} [Decidable p] {e : ε} {u : Unit} : ensure p e = .ok u ↔ p := by
  unfold ensure
  split_ifs with h <;> simp [h]

/-- What holds before a loop and is kept by each of its rounds holds after it. The property may speak
of the elements that are done. -/
theorem foldlM_induct {g : β → α → Except ε β} {P : List α → β → Prop} {b b' : β} {xs : List α}
    (h₀ : P [] b) (hstep : ∀ done x b b', P done b → g b x = .ok b' → P (done ++ [x]) b')
    (h : xs.foldlM g b = .ok b') : P xs b' := by
  suffices H : ∀ xs done b, P done b → xs.foldlM g b = .ok b' → P (done ++ xs) b' from
    H xs [] b h₀ h
  intro xs
  induction xs with
  | nil =>
    intro done b hb h
    obtain rfl := Except.ok.inj h
    rwa [List.append_nil]
  | cons x xs ih =>
    intro done b hb h
    rw [List.foldlM_cons] at h
    obtain ⟨b₁, h₁, h₂⟩ := bind_eq_ok.1 h
    have := ih (done ++ [x]) b₁ (hstep done x b b₁ hb h₁) h₂
    rwa [List.append_assoc] at this

end Except

namespace List

variable {α β γ : Type} {xs : List α} {ys : List β}

theorem forall₂_map_eq_iff {f : α → γ} {g : β → γ} :
    Forall₂ (fun x y => f x = g y) xs ys ↔ xs.map f = ys.map g := by
  rw [← forall₂_eq_eq_eq, forall₂_map_left_iff, forall₂_map_right_iff]

theorem exists_forall₂ {R : α → β → Prop} (h : ∀ x ∈ xs, ∃ y, R x y) : ∃ ys, Forall₂ R xs ys := by
  induction xs with
  | nil => exact ⟨[], .nil⟩
  | cons x xs ih =>
    obtain ⟨y, hy⟩ := h x (mem_cons_self ..)
    obtain ⟨ys, hys⟩ := ih fun x hx => h x (mem_cons_of_mem _ hx)
    exact ⟨y :: ys, .cons hy hys⟩

theorem exists_of_forall₂ {R : α → β → Prop} (h : Forall₂ R xs ys) {x : α} (hx : x ∈ xs) : ∃ y ∈ ys, R x y := by
  induction h with
  | nil => cases hx
  | cons hxy _ ih =>
    rcases mem_cons.1 hx with rfl | hx
    · exact ⟨_, mem_cons_self .., hxy⟩
    · obtain ⟨y, hy, hR⟩ := ih hx
      exact ⟨y, mem_cons_of_mem _ hy, hR⟩

theorem exists_getElem?_of_forall₂ {R : α → β → Prop} (h : Forall₂ R xs ys) {i : Nat} {x : α}
    (hx : xs[i]? = some x) : ∃ y, ys[i]? = some y ∧ R x y := by
  induction h generalizing i with
  | nil => cases hx
  | cons hxy _ ih =>
    cases i with
    | zero => exact ⟨_, rfl, Option.some.inj hx ▸ hxy⟩
    | succ i => exact ih hx

/-- A list that is found in a part of another one, which is no longer, is that list. -/
theorem eq_of_sublist_filter {xs ys : List α} {p : α → Bool} (hlength : ys.length ≤ xs.length)
    (h : xs.Sublist (ys.filter p)) : ys = xs :=
  ((h.trans filter_sublist).eq_of_length_le hlength).symm

/-- What is left after dropping from both ends starts with an element to keep. -/
theorem not_of_head?_rdropWhile {p : α → Bool} {x : α} (h : ((xs.dropWhile p).rdropWhile p).head? = some x) :
    p x = false := by
  obtain ⟨t, ht⟩ := rdropWhile_prefix p (xs.dropWhile p)
  have hhead : (xs.dropWhile p).head? = some x := by
    rw [← ht, head?_append, h]; rfl
  have hnot := head?_dropWhile_not p xs
  rwa [hhead] at hnot

theorem dropWhile_rdropWhile (p : α → Bool) (xs : List α) :
    ((xs.dropWhile p).rdropWhile p).dropWhile p = (xs.dropWhile p).rdropWhile p := by
  cases h : (xs.dropWhile p).rdropWhile p with
  | nil => rfl
  | cons x l => rw [dropWhile_cons_of_neg]; simpa using not_of_head?_rdropWhile (by rw [h]; rfl)

variable {f : α → Option β}

theorem mem_of_map_eq_some (h : xs.map f = ys.map some) {y : β} : y ∈ ys ↔ ∃ x ∈ xs, f x = some y := by
  rw [← mem_map, h, mem_map]
  simp

theorem exists_map_eq_some : (∃ ys : List β, xs.map f = ys.map some) ↔ ∀ x ∈ xs, ∃ y, f x = some y := by
  constructor
  · rintro ⟨ys, h⟩ x hx
    obtain ⟨y, -, hy⟩ := mem_map.1 (h ▸ mem_map_of_mem hx)
    exact ⟨y, hy.symm⟩
  · intro h
    exact (exists_forall₂ h).imp fun _ => forall₂_map_eq_iff.1

theorem map_eq_of_map_eq_some {k : α → γ} {k' : β → γ} (h : xs.map f = ys.map some)
    (hk : ∀ x ∈ xs, ∀ y, f x = some y → k' y = k x) : ys.map k' = xs.map k := by
  refine List.map_injective_iff.2 (fun _ _ => Option.some.inj) ?_
  calc (ys.map k').map some
      = (ys.map some).map (Option.map k') := by simp
    _ = (xs.map f).map (Option.map k') := by rw [h]
    _ = (xs.map k).map some := by
        rw [map_map, map_map]
        refine map_congr_left fun x hx => ?_
        obtain ⟨y, hy⟩ := exists_map_eq_some.1 ⟨ys, h⟩ x hx
        show (f x).map k' = some (k x)
        rw [hy, Option.map_some, hk x hx y hy]

end List

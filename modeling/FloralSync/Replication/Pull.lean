import FloralSync.Replication.Journal

/-!
# Pulling changes with a cursor

A replica follows a table by overwriting its records with those above its cursor (`overlay`). It
ends up equal to the table exactly when it was `Synced` with it before: nothing at or below the
cursor differs. A table stays synced with a replica while its records only move above the cursor.
-/

namespace Replication

variable {ρ κ : Type*} [DecidableEq κ] (key : ρ → κ)

/-- Overwriting the records of `R` by those of `l`, in order. -/
def overlay (R : κ → Option ρ) (l : List ρ) : κ → Option ρ :=
  l.foldl (fun R c k => if key c = k then some c else R k) R

variable {key} {R : κ → Option ρ} {l : List ρ} {k : κ}

theorem overlay_of_ne (h : ∀ c ∈ l, key c ≠ k) : overlay key R l k = R k := by
  induction l generalizing R with
  | nil => rfl
  | cons c l ih =>
    refine (ih fun c' hc' => h c' (List.mem_cons_of_mem _ hc')).trans ?_
    exact if_neg (h c (List.mem_cons_self ..))

theorem overlay_of_mem (hl : (l.map key).Nodup) {c : ρ} (hc : c ∈ l) :
    overlay key R l (key c) = some c := by
  induction l generalizing R with
  | nil => cases hc
  | cons d l ih =>
    obtain ⟨hd, hl⟩ := List.nodup_cons.1 hl
    rcases List.mem_cons.1 hc with rfl | hc
    · have hne : ∀ c' ∈ l, key c' ≠ key c := fun c' hc' h => hd (h ▸ List.mem_map_of_mem hc')
      exact (overlay_of_ne hne).trans (if_pos rfl)
    · exact ih hl hc

/-- What a table has at or below `cursor` the replica has too, and it has no other keys. -/
structure Synced (rev : ρ → Nat) (T : κ → Option ρ) (cursor : Nat) (R : κ → Option ρ) : Prop where
  absent : ∀ k, T k = none → R k = none
  kept : ∀ k c, T k = some c → rev c ≤ cursor → R k = some c

/-- `l` lists the records of `T` above `cursor`, one for each key. -/
structure Delta (key : ρ → κ) (rev : ρ → Nat) (T : κ → Option ρ) (cursor : Nat) (l : List ρ) : Prop where
  nodup : (l.map key).Nodup
  mem : ∀ c, c ∈ l ↔ T (key c) = some c ∧ cursor < rev c

variable {rev : ρ → Nat} {T : κ → Option ρ} {cursor : Nat}

theorem Delta.overlay_eq_iff (hT : ∀ k c, T k = some c → key c = k) (hl : Delta key rev T cursor l) :
    overlay key R l = T ↔ Synced rev T cursor R := by
  have hskip : ∀ k, (∀ c, T k = some c → rev c ≤ cursor) → overlay key R l k = R k := by
    intro k hk
    refine overlay_of_ne fun c hc hck => ?_
    obtain ⟨hTc, hlt⟩ := (hl.mem c).1 hc
    rw [hck] at hTc
    exact absurd (hk c hTc) (Nat.not_le.2 hlt)
  constructor
  · intro h
    refine ⟨fun k hk => ?_, fun k c hk hle => ?_⟩
    · rw [← hskip k (by rw [hk]; intro c hc; cases hc), h, hk]
    · rw [← hskip k (by rw [hk]; intro c' hc'; cases hc'; exact hle), h, hk]
  · intro h
    funext k
    cases hk : T k with
    | none => rw [hskip k (by rw [hk]; intro c hc; cases hc), h.absent k hk]
    | some c =>
      rcases Nat.lt_or_ge cursor (rev c) with hlt | hle
      · obtain rfl := hT k c hk
        exact overlay_of_mem hl.nodup ((hl.mem c).2 ⟨hk, hlt⟩)
      · rw [hskip k (by rw [hk]; intro c' hc'; cases hc'; exact hle), h.kept k c hk hle]

omit [DecidableEq κ] in
theorem Synced.refl (T : κ → Option ρ) (cursor : Nat) : Synced rev T cursor T :=
  ⟨fun _ h => h, fun _ _ h _ => h⟩

/-- Putting a record above the cursor in its place keeps a replica synced. -/
theorem Synced.update {T' : κ → Option ρ} (h : Synced rev T cursor R) (k₀ : κ) (c : ρ)
    (hc : cursor < rev c) (hT' : ∀ k, T' k = if k₀ = k then some c else T k) :
    Synced rev T' cursor R := by
  refine ⟨fun k hk => ?_, fun k d hk hle => ?_⟩
  · rw [hT'] at hk
    split_ifs at hk
    exact h.absent k hk
  · rw [hT'] at hk
    split_ifs at hk
    · cases hk; exact absurd hle (Nat.not_le.2 hc)
    · exact h.kept k d hk hle

omit [DecidableEq κ] in
/-- A table that moved above the cursor as a whole stays synced, as long as it loses no key. -/
theorem Synced.of_above {T' : κ → Option ρ} (h : Synced rev T cursor R) (hkeys : ∀ k, T' k = none → T k = none)
    (habove : ∀ k c, T' k = some c → cursor < rev c) : Synced rev T' cursor R :=
  ⟨fun k hk => h.absent k (hkeys k hk), fun k c hc hle => absurd hle (Nat.not_le.2 (habove k c hc))⟩

/-! ### Pulling from a journal -/

namespace Journal

variable {ν τ : Type*} [LinearOrder τ] [DecidableEq ν] {time : ν → τ} {k : ν → κ} {f : Nat × ν → ρ}
  {J : Journal ν}

/-- The table of the latest entries of a journal, as records. -/
def view (k : ν → κ) (f : Nat × ν → ρ) (J : Journal ν) (x : κ) : Option ρ := (J.latest k x).map f

theorem synced_offer (hf : ∀ e, rev (f e) = e.1) (h : Synced rev (J.view k f) cursor R)
    (hc : cursor ≤ J.head) (v : ν) : Synced rev ((J.offer time k v).view k f) cursor R := by
  unfold offer
  split_ifs
  · exact h
  · refine h.update (k v) (f (J.head + 1, v)) (by rw [hf]; exact Nat.lt_succ_of_le hc) fun x => ?_
    rw [view, latest_append]
    split_ifs <;> rfl

/-- Whatever is offered to a journal goes above the cursors of its replicas. -/
theorem synced_offerAll (hf : ∀ e, rev (f e) = e.1) (h : Synced rev (J.view k f) cursor R)
    (hc : cursor ≤ J.head) (vs : List ν) : Synced rev ((J.offerAll time k vs).view k f) cursor R := by
  induction vs generalizing J with
  | nil => exact h
  | cons v vs ih => exact ih (synced_offer hf h hc v) (Nat.le_trans hc (J.head_le_offer v))

end Journal
end Replication

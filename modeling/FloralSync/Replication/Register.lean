import Mathlib.Data.List.Induction
import Mathlib.Order.Lattice

/-!
# Last-write-wins registers

A register keeps one of the values offered to it: a value older than the kept one is skipped, as is
an identical one; any other replaces it. `foldl_settle_eq_some` says which value remains: among
those of maximal time, the one offered last.

`Cell` is a register whose storage does not give every value back. A value that cannot be read back
can be stored, but the next offer to the cell fails, since it has to be compared with it.
-/

namespace Replication

variable {ν τ : Type*} [LinearOrder τ]

/-- `v` is the last value of `l` among those of maximal time. -/
def LastMax (time : ν → τ) (l : List ν) (v : ν) : Prop :=
  ∃ pre post, l = pre ++ v :: post ∧ (∀ w ∈ pre, time w ≤ time v) ∧ ∀ w ∈ post, time w < time v

namespace LastMax

variable {time : ν → τ} {l : List ν} {v w : ν}

theorem mem (h : LastMax time l v) : v ∈ l := by
  obtain ⟨pre, post, rfl, -, -⟩ := h; simp

theorem le (h : LastMax time l v) (hw : w ∈ l) : time w ≤ time v := by
  obtain ⟨pre, post, rfl, hpre, hpost⟩ := h
  rcases List.mem_append.1 hw with hw | hw
  · exact hpre w hw
  · rcases List.mem_cons.1 hw with rfl | hw
    · exact le_rfl
    · exact (hpost w hw).le

theorem snoc_newer (h : ∀ w ∈ l, time w ≤ time v) : LastMax time (l ++ [v]) v :=
  ⟨l, [], rfl, h, by simp⟩

theorem snoc_older (h : LastMax time l v) (hlt : time w < time v) : LastMax time (l ++ [w]) v := by
  obtain ⟨pre, post, rfl, hpre, hpost⟩ := h
  refine ⟨pre, post ++ [w], by simp, hpre, fun x hx => ?_⟩
  rcases List.mem_append.1 hx with hx | hx
  · exact hpost x hx
  · rw [List.mem_singleton.1 hx]; exact hlt

end LastMax

variable [DecidableEq ν] (time : ν → τ)

/-- The kept value `old` is newer than `v`, or is `v` itself. -/
def Skips (old v : ν) : Prop := time v < time old ∨ time old = time v ∧ old = v

instance (old v : ν) : Decidable (Skips time old v) := inferInstanceAs (Decidable (_ ∨ _))

def settle (kept : Option ν) (v : ν) : Option ν :=
  match kept with
  | none => some v
  | some old => if Skips time old v then some old else some v

theorem settle_some (old v : ν) :
    settle time (some old) v = some (if time v < time old then old else v) := by
  unfold settle Skips
  by_cases hlt : time v < time old
  · simp [hlt]
  · by_cases heq : old = v
    · subst heq; simp
    · simp [hlt, heq]

variable {time}

theorem foldl_settle_ne_none {l : List ν} (hl : l ≠ []) : l.foldl (settle time) none ≠ none := by
  induction l using List.reverseRecOn with
  | nil => exact absurd rfl hl
  | append_singleton l x _ =>
    rw [List.foldl_append, List.foldl_cons, List.foldl_nil]
    cases l.foldl (settle time) none with
    | none => exact Option.some_ne_none x
    | some old => rw [settle_some]; exact Option.some_ne_none _

theorem lastMax_of_foldl_settle {l : List ν} {v : ν} (h : l.foldl (settle time) none = some v) :
    LastMax time l v := by
  induction l using List.reverseRecOn generalizing v with
  | nil => cases h
  | append_singleton l x ih =>
    rw [List.foldl_append, List.foldl_cons, List.foldl_nil] at h
    cases hl : l.foldl (settle time) none with
    | none =>
      rw [hl] at h
      obtain rfl := Option.some.inj h
      have hnil : l = [] := Classical.byContradiction fun hne => foldl_settle_ne_none hne hl
      subst hnil
      exact LastMax.snoc_newer (by simp)
    | some old =>
      rw [hl, settle_some] at h
      obtain rfl := Option.some.inj h
      split_ifs with hlt
      · exact (ih hl).snoc_older hlt
      · exact LastMax.snoc_newer fun w hw => ((ih hl).le hw).trans (not_lt.1 hlt)

theorem foldl_settle_of_older {l : List ν} {v : ν} (h : ∀ w ∈ l, time w < time v) :
    l.foldl (settle time) (some v) = some v := by
  induction l with
  | nil => rfl
  | cons w l ih =>
    rw [List.foldl_cons, settle_some, if_pos (h w (by simp))]
    exact ih fun u hu => h u (by simp [hu])

/-- What a register keeps is the last value offered among those of maximal time. -/
theorem foldl_settle_eq_some {l : List ν} {v : ν} :
    l.foldl (settle time) none = some v ↔ LastMax time l v := by
  refine ⟨lastMax_of_foldl_settle, ?_⟩
  rintro ⟨pre, post, rfl, hpre, hpost⟩
  have hv : settle time (pre.foldl (settle time) none) v = some v := by
    cases hp : pre.foldl (settle time) none with
    | none => rfl
    | some old => rw [settle_some, if_neg (not_lt.2 (hpre old (lastMax_of_foldl_settle hp).mem))]
  rw [List.foldl_append, List.foldl_cons, hv, foldl_settle_of_older hpost]

theorem LastMax.unique {l : List ν} {v w : ν} (hv : LastMax time l v) (hw : LastMax time l w) : v = w :=
  Option.some.inj ((foldl_settle_eq_some.2 hv).symm.trans (foldl_settle_eq_some.2 hw))

theorem foldl_settle_eq_none {l : List ν} : l.foldl (settle time) none = none ↔ l = [] :=
  ⟨fun h => Classical.byContradiction fun hne => foldl_settle_ne_none hne h, fun h => by rw [h]; rfl⟩

theorem exists_foldl_settle {kept : Option ν} {l : List ν} (hnew : ∀ k ∈ kept, ∃ w ∈ l, time k ≤ time w)
    (hne : l ≠ []) :
    ∃ v ∈ l, l.foldl (settle time) kept = some v ∧ ∀ u ∈ kept.toList ++ l, time u ≤ time v := by
  have hfold : l.foldl (settle time) kept = (kept.toList ++ l).foldl (settle time) none := by
    cases kept <;> rfl
  have hsettled : (kept.toList ++ l).foldl (settle time) none ≠ none :=
    foldl_settle_ne_none (List.append_ne_nil_of_right_ne_nil kept.toList hne)
  obtain ⟨v, hv⟩ := Option.ne_none_iff_exists'.1 hsettled
  have hmax := lastMax_of_foldl_settle hv
  refine ⟨v, ?_, hfold.trans hv, fun u hu => hmax.le hu⟩
  cases kept with
  | none => exact hmax.mem
  | some k =>
    obtain ⟨pre, post, heq, -, hpost⟩ := hmax
    rcases pre with _ | ⟨k', pre⟩
    · obtain ⟨rfl, rfl⟩ := List.cons.inj heq
      obtain ⟨w, hw, hle⟩ := hnew k rfl
      exact absurd hle (not_le.2 (hpost w hw))
    · obtain ⟨-, rfl⟩ := List.cons.inj heq
      exact List.mem_append_right _ List.mem_cons_self

/-- Two deliveries of the same values settle a register alike if only one value has the highest time. What the
register keeps before loses every tie. -/
theorem foldl_settle_congr {kept : Option ν} {l l' : List ν} (hmem : ∀ v, v ∈ l ↔ v ∈ l')
    (hunique : ∀ v ∈ l, ∀ w ∈ l, time v = time w → (∀ u ∈ kept.toList ++ l, time u ≤ time v) → v = w) :
    l.foldl (settle time) kept = l'.foldl (settle time) kept := by
  by_cases hnew : ∀ k ∈ kept, ∃ w ∈ l, time k ≤ time w
  · by_cases hne : l = []
    · have hne' : l' = [] := List.eq_nil_iff_forall_not_mem.2 fun v hv => by simpa [hne] using (hmem v).2 hv
      rw [hne, hne']
    · have hnew' : ∀ k ∈ kept, ∃ w ∈ l', time k ≤ time w := fun k hk => by
        obtain ⟨w, hw, hle⟩ := hnew k hk
        exact ⟨w, (hmem w).1 hw, hle⟩
      obtain ⟨v, hv, hfold, hmax⟩ := exists_foldl_settle hnew hne
      obtain ⟨v', hv', hfold', hmax'⟩ := exists_foldl_settle hnew' (List.ne_nil_of_mem ((hmem v).1 hv))
      have hv'l := (hmem v').2 hv'
      have htime : time v = time v' := le_antisymm
        (hmax' v (List.mem_append_right _ ((hmem v).1 hv))) (hmax v' (List.mem_append_right _ hv'l))
      rw [hfold, hfold', hunique v hv v' hv'l htime hmax]
  · simp only [not_forall, not_exists, not_and, not_le] at hnew
    obtain ⟨k, rfl, hold⟩ := hnew
    rw [foldl_settle_of_older hold, foldl_settle_of_older fun w hw => hold w ((hmem w).2 hw)]

/-! ### Cells: registers that may not give a value back -/

/-- The storage of one register. -/
inductive Cell (ν : Type*)
  | absent
  | unreadable
  | holds (v : ν)

namespace Cell

variable (time) (readable : ν → Prop) [DecidablePred readable]

def stored (v : ν) : Cell ν := if readable v then .holds v else .unreadable

/-- The storage after the register settled on `kept`. -/
def of : Option ν → Cell ν
  | none => .absent
  | some v => stored readable v

/-- Offering `v` fails when the kept value has to be compared with it and cannot be read. -/
def offer : Cell ν → ν → Option (Cell ν)
  | .absent, v => some (stored readable v)
  | .unreadable, _ => none
  | .holds old, v => if Skips time old v then some (.holds old) else some (stored readable v)

def offerAll (c : Cell ν) (l : List ν) : Option (Cell ν) := l.foldlM (offer time readable) c

variable {time readable} {c c' : Cell ν} {l : List ν} {w : ν}

theorem offerAll_cons {v : ν} :
    offerAll time readable c (v :: l) = (offer time readable c v).bind (offerAll time readable · l) :=
  List.foldlM_cons

theorem offerAll_append {l' : List ν} :
    offerAll time readable c (l ++ l') =
      (offerAll time readable c l).bind (offerAll time readable · l') :=
  List.foldlM_append

omit [DecidableEq ν] in
theorem stored_of_readable {v : ν} (hv : readable v) : stored readable v = .holds v := if_pos hv

omit [DecidableEq ν] in
theorem stored_of_not_readable {v : ν} (hv : ¬ readable v) : stored readable v = .unreadable := if_neg hv

omit [DecidableEq ν] in
theorem of_eq_absent {kept : Option ν} : of readable kept = .absent ↔ kept = none := by
  cases kept with
  | none => exact iff_of_true rfl rfl
  | some v => simp only [of, stored]; split_ifs <;> simp

omit [DecidableEq ν] in
theorem of_eq_holds {kept : Option ν} {v : ν} :
    of readable kept = .holds v ↔ kept = some v ∧ readable v := by
  cases kept with
  | none => exact iff_of_false nofun nofun
  | some w =>
    simp only [of, stored]
    split_ifs with hw
    · exact ⟨fun h => by cases h; exact ⟨rfl, hw⟩, fun ⟨h, _⟩ => by cases h; rfl⟩
    · exact iff_of_false nofun fun ⟨h, hv⟩ => by cases h; exact hw hv

omit [DecidableEq ν] in
theorem of_eq_unreadable {kept : Option ν} :
    of readable kept = .unreadable ↔ ∃ v, kept = some v ∧ ¬ readable v := by
  cases kept with
  | none => exact iff_of_false nofun fun ⟨_, h, _⟩ => nomatch h
  | some w => simp only [of, stored]; split_ifs with hw <;> simp [hw]

theorem offer_of_some {old v : ν} :
    offer time readable (of readable (some old)) v =
      if readable old then some (of readable (settle time (some old) v)) else none := by
  by_cases hr : readable old
  · rw [if_pos hr, show of readable (some old) = .holds old from stored_of_readable hr]
    by_cases hs : Skips time old v
    · simp only [offer, settle, if_pos hs]
      exact congrArg some (stored_of_readable hr).symm
    · simp only [offer, settle, if_neg hs]; rfl
  · rw [if_neg hr, show of readable (some old) = .unreadable from stored_of_not_readable hr]; rfl

/-- The cell follows the register as long as no offer fails. -/
theorem of_offer {kept : Option ν} {v : ν} (h : offer time readable (of readable kept) v = some c) :
    c = of readable (settle time kept v) := by
  cases kept with
  | none => exact (Option.some.inj h).symm
  | some old =>
    rw [offer_of_some] at h
    split_ifs at h
    exact (Option.some.inj h).symm

theorem of_offerAll {kept : Option ν} (h : offerAll time readable (of readable kept) l = some c) :
    c = of readable (l.foldl (settle time) kept) := by
  induction l generalizing kept with
  | nil => exact (Option.some.inj h).symm
  | cons v l ih =>
    rw [offerAll_cons] at h
    obtain ⟨c₁, h₁, h₂⟩ := Option.bind_eq_some_iff.1 h
    rw [of_offer h₁] at h₂
    exact ih h₂

/-- What every offer keeps, a sequence of offers keeps. -/
theorem offerAll_induct {P : Cell ν → Prop}
    (hstep : ∀ c c' v, P c → offer time readable c v = some c' → P c') (hc : P c)
    (h : offerAll time readable c l = some c') : P c' := by
  induction l generalizing c with
  | nil => exact Option.some.inj h ▸ hc
  | cons v l ih =>
    rw [offerAll_cons] at h
    obtain ⟨c₁, h₁, h₂⟩ := Option.bind_eq_some_iff.1 h
    exact ih (hstep c c₁ v hc h₁) h₂

omit [DecidableEq ν] in
theorem stored_cases {P : Cell ν → Prop} {v : ν} (hr : readable v → P (.holds v)) (hu : P .unreadable) :
    P (stored readable v) := by
  unfold stored
  split_ifs with h
  · exact hr h
  · exact hu

theorem eq_unreadable_of_offerAll (h : offerAll time readable .unreadable l = some c) : c = .unreadable := by
  cases l with
  | nil => exact (Option.some.inj h).symm
  | cons v l => rw [offerAll_cons] at h; cases h

theorem eq_absent_of_offerAll (h : offerAll time readable c l = some .absent) : c = .absent := by
  by_contra hne
  refine offerAll_induct (P := (· ≠ .absent)) (fun c c' v hc h => ?_) hne h rfl
  cases c with
  | absent => exact absurd rfl hc
  | unreadable => cases h
  | holds old =>
    simp only [offer] at h
    split_ifs at h <;> obtain rfl := Option.some.inj h
    · exact nofun
    · exact stored_cases (P := (· ≠ .absent)) (by simp) (by simp)

/-- A cell that has settled on something of time `t` or later, as far as it can be read. -/
def SettledBy (time : ν → τ) (t : τ) : Cell ν → Prop
  | .absent => False
  | .unreadable => True
  | .holds v => t ≤ time v

theorem SettledBy.offerAll {t : τ} (hc : SettledBy time t c) (h : offerAll time readable c l = some c') :
    SettledBy time t c' := by
  refine offerAll_induct (fun c c' v hc h => ?_) hc h
  cases c with
  | absent => exact hc.elim
  | unreadable => cases h
  | holds old =>
    simp only [offer] at h
    split_ifs at h with hs <;> obtain rfl := Option.some.inj h
    · exact hc
    · exact stored_cases (fun _ => le_trans hc (not_lt.1 fun hlt => hs (.inl hlt))) trivial

theorem exists_offer (hc : c ≠ .unreadable) (v : ν) : ∃ c', offer time readable c v = some c' := by
  cases c with
  | absent => exact ⟨_, rfl⟩
  | unreadable => exact absurd rfl hc
  | holds old =>
    by_cases hs : Skips time old v
    · exact ⟨_, if_pos hs⟩
    · exact ⟨_, if_neg hs⟩

theorem exists_offerAll_of_readable (time : ν → τ) (hc : c ≠ .unreadable) (hl : ∀ v ∈ l, readable v) :
    ∃ c', offerAll time readable c l = some c' ∧ c' ≠ .unreadable := by
  induction l generalizing c with
  | nil => exact ⟨c, rfl, hc⟩
  | cons v l ih =>
    have hv := stored_of_readable (hl v (List.mem_cons_self ..))
    obtain ⟨c₁, h₁, hc₁⟩ : ∃ c₁, offer time readable c v = some c₁ ∧ c₁ ≠ .unreadable := by
      cases c with
      | absent => exact ⟨_, rfl, by rw [hv]; nofun⟩
      | unreadable => exact absurd rfl hc
      | holds old =>
        by_cases hs : Skips time old v
        · exact ⟨_, if_pos hs, nofun⟩
        · exact ⟨_, if_neg hs, by rw [hv]; nofun⟩
    rw [offerAll_cons, h₁]
    exact ih hc₁ fun w hw => hl w (List.mem_cons_of_mem _ hw)

/-- The cell `b` has settled on something at least as new as the cell `a`. -/
def Ahead (time : ν → τ) (readable : ν → Prop) : Cell ν → Cell ν → Prop
  | .absent, .holds _ => True
  | .holds v, .holds w => readable v ∧ time v ≤ time w
  | .unreadable, _ => True
  | _, _ => False

/-- Where a register ended up is ahead of where it was in between. -/
theorem ahead_of_offerAll {kept : Option ν}
    (h : offerAll time readable (of readable kept) l = some (.holds w)) :
    Ahead time readable (of readable kept) (.holds w) := by
  cases kept with
  | none => exact trivial
  | some v =>
    by_cases hr : readable v
    · rw [show of readable (some v) = .holds v from stored_of_readable hr]
      obtain ⟨hw, -⟩ := of_eq_holds.1 (of_offerAll h).symm
      refine ⟨hr, (lastMax_of_foldl_settle (l := v :: l) ?_).le (List.mem_cons_self ..)⟩
      exact hw
    · rw [show of readable (some v) = .unreadable from stored_of_not_readable hr]
      exact trivial

theorem ahead_offer_stored {v w : ν} :
    ∃ b, offer time readable (.holds w) v = some b ∧ Ahead time readable (stored readable v) b := by
  by_cases hr : readable v
  · rw [stored_of_readable hr]
    by_cases hs : Skips time w v
    · exact ⟨.holds w, if_pos hs, hr, hs.elim le_of_lt fun h => h.1.ge⟩
    · exact ⟨_, if_neg hs, by rw [stored_of_readable hr]; exact ⟨hr, le_rfl⟩⟩
  · rw [stored_of_not_readable hr]
    by_cases hs : Skips time w v
    · exact ⟨_, if_pos hs, trivial⟩
    · exact ⟨_, if_neg hs, trivial⟩

theorem Ahead.offer {a b a' : Cell ν} {v : ν} (hab : Ahead time readable a b)
    (h : offer time readable a v = some a') :
    ∃ b', Cell.offer time readable b v = some b' ∧ Ahead time readable a' b' := by
  match a, b, hab with
  | .unreadable, _, _ => cases h
  | .absent, .holds w, _ =>
    obtain rfl := Option.some.inj h
    exact ahead_offer_stored
  | .holds u, .holds w, ⟨hr, hle⟩ =>
    by_cases hu : Skips time u v
    · rw [Cell.offer, if_pos hu] at h
      obtain rfl := Option.some.inj h
      rcases hu with hlt | ⟨-, rfl⟩
      · exact ⟨.holds w, if_pos (.inl (hlt.trans_le hle)), hr, hle⟩
      · rw [← stored_of_readable hr]
        exact ahead_offer_stored
    · rw [Cell.offer, if_neg hu] at h
      obtain rfl := Option.some.inj h
      exact ahead_offer_stored

/-- A cell that is ahead of another fails no sequence of offers that the other one takes. -/
theorem Ahead.offerAll {a b a' : Cell ν} (hab : Ahead time readable a b)
    (h : offerAll time readable a l = some a') :
    ∃ b', Cell.offerAll time readable b l = some b' := by
  induction l generalizing a b with
  | nil => exact ⟨b, rfl⟩
  | cons v l ih =>
    rw [offerAll_cons] at h ⊢
    obtain ⟨a₁, h₁, h₂⟩ := Option.bind_eq_some_iff.1 h
    obtain ⟨b₁, hb₁, hab₁⟩ := hab.offer h₁
    rw [hb₁]
    exact ih hab₁ h₂

end Cell

end Replication

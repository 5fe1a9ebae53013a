import FloralSync.Store.Runs

/-! # Last write wins -/

namespace FloralSync

open Replication StoreM
open Rfc3339 (Civil)

variable {τ : Type} [Chrono τ]

theorem offered_created (rs : List (PushRequest τ)) (id : String) :
    offered SyncStore.created.db rs id = (arrivals rs).filter (·.id = id) := rfl

theorem inRange_arrivals {rs : List (PushRequest τ)} (h : ∀ r ∈ rs, r.InRange) :
    ∀ c ∈ arrivals rs, c.InRange := by
  intro c hc
  obtain ⟨r, hr, hc⟩ := List.mem_flatMap.1 hc
  exact (h r hr).filled c hc

namespace PushRun

variable [LawfulChrono τ] {s₀ s : SyncStore} {rs : List (PushRequest τ)} {id : String}

theorem cell_eq_absent (h : PushRun s₀ rs s) (hs₀ : Healthy τ s₀.db) :
    (cellAt s.db id : Cell (SyncChange τ)) = .absent ↔ offered s₀.db rs id = [] := by
  rw [h.cell_eq hs₀, Cell.of_eq_absent, foldl_settle_eq_none]

theorem cell_eq_holds (h : PushRun s₀ rs s) (hs₀ : Healthy τ s₀.db) {w : SyncChange τ} :
    cellAt s.db id = .holds w ↔ LastMax changeTime (offered s₀.db rs id) w ∧ w.InRange := by
  rw [h.cell_eq hs₀, Cell.of_eq_holds, foldl_settle_eq_some]

theorem cell_eq_unreadable (h : PushRun s₀ rs s) (hs₀ : Healthy τ s₀.db) :
    (cellAt s.db id : Cell (SyncChange τ)) = .unreadable ↔
      ∃ w, LastMax changeTime (offered s₀.db rs id) w ∧ ¬ w.InRange := by
  rw [h.cell_eq hs₀, Cell.of_eq_unreadable]
  simp only [foldl_settle_eq_some]

end PushRun

/-- Among the changes for its id, each record is the one that arrived last of those with the highest
change time. -/
structure LastWriteWins (rs : List (PushRequest τ)) (s : SyncStore) : Prop where
  record : ∀ id w, existingChange s.db id = .ok (some w) ↔
    LastMax changeTime ((arrivals rs).filter (·.id = id)) w
  absent : ∀ id, existingChange s.db id = .ok (none : Option (SyncChange τ)) ↔
    ∀ c ∈ arrivals rs, c.id ≠ id
  /-- No id disappears in whatever follows. -/
  kept : ∀ (rs' : List (PushRequest τ)) s' id, PushRun s rs' s' →
    existingChange s'.db id = .ok (none : Option (SyncChange τ)) →
    existingChange s.db id = .ok (none : Option (SyncChange τ))
  /-- The run goes on with any request. -/
  continues : ∀ (env : PushEnv τ) (request : PushRequest τ), (∀ step, env.fault step = none) →
    request.InRange → ∃ response s', (SyncStore.push env request).exec s = (.ok response, s')

variable [LawfulChrono τ]

theorem lastWriteWins {rs : List (PushRequest τ)} {s : SyncStore} (h : PushRun .created rs s)
    (hr : ∀ r ∈ rs, r.InRange) : LastWriteWins rs s := by
  have hcreated : Healthy τ SyncStore.created.db := healthy_created
  have hopened := h.opened hcreated.opened
  constructor
  · intro id w
    rw [existingChange_eq_some, h.cell_eq_holds hcreated, offered_created]
    exact ⟨And.left, fun hw => ⟨hw, inRange_arrivals hr w (List.mem_of_mem_filter hw.mem)⟩⟩
  · intro id
    rw [hopened.existingChange_eq_none, h.cell_eq_absent hcreated, offered_created, List.filter_eq_nil_iff]
    simp
  · intro rs' s' id h' hs'
    rw [(h'.opened hopened).existingChange_eq_none] at hs'
    rw [hopened.existingChange_eq_none]
    have hcell := h'.cell id
    rw [hs'] at hcell
    exact Cell.eq_absent_of_offerAll hcell
  · intro env request hcalm hrequest
    refine exists_exec_push_of_inRange hopened hcalm (fun id hcell => ?_) hrequest
    obtain ⟨w, hw, hrange⟩ := (h.cell_eq_unreadable hcreated).1 hcell
    exact hrange (inRange_arrivals hr w (List.mem_of_mem_filter hw.mem))

theorem lastWriteWins_of_two_versions :
    LastWriteWins [Sample.twoVersions] Sample.twoVersionsStore := by
  have hpush : (SyncStore.push Sample.pushEnv Sample.twoVersions).exec .created =
      (.ok ⟨2⟩, Sample.twoVersionsStore) := by decide +kernel
  refine lastWriteWins (.processed .start hpush) fun r hr => ?_
  rw [List.mem_singleton.1 hr]
  exact fun c => (by decide : ∀ c ∈ Sample.twoVersions.changes, c.InRange) c

/-! ### Delivering a request again

The guard of `push` compares a change with the stored record only, so what a second delivery of a
change does depends on what came after the first. -/

section Redelivery

variable {s₀ s : SyncStore} {rs : List (PushRequest τ)} {request : PushRequest τ}

omit [Chrono τ] [LawfulChrono τ] in
theorem mem_arrivals {c : SyncChange τ} (hr : request ∈ rs) (hc : c ∈ request.filled) : c ∈ arrivals rs :=
  List.mem_flatMap.2 ⟨request, hr, hc⟩

/-- A change that was processed left a record, and is not newer than it. -/
theorem PushRun.cell_of_mem_arrivals (hs₀ : Healthy τ s₀.db) (h : PushRun s₀ rs s) {c : SyncChange τ}
    (hc : c ∈ arrivals rs) (hread : (cellAt s.db c.id : Cell (SyncChange τ)) ≠ .unreadable) :
    ∃ w, cellAt s.db c.id = .holds w ∧ changeTime c ≤ changeTime w := by
  have hoffered : c ∈ offered s₀.db rs c.id :=
    List.mem_append_right _ (List.mem_filter.2 ⟨hc, by simp⟩)
  cases hw : (cellAt s.db c.id : Cell (SyncChange τ)) with
  | absent =>
    rw [(h.cell_eq_absent hs₀).1 hw] at hoffered
    cases hoffered
  | unreadable => exact absurd hw hread
  | holds w => exact ⟨w, rfl, ((h.cell_eq_holds hs₀).1 hw).1.le hoffered⟩

/-- A request that was processed can be processed again if the records of its ids can be read. -/
theorem PushRun.exists_redelivery (hs₀ : Healthy τ s₀.db) (h : PushRun s₀ rs s) (hr : request ∈ rs)
    (hread : ∀ c ∈ request.filled, (cellAt s.db c.id : Cell (SyncChange τ)) ≠ .unreadable) (id : String) :
    ∃ c, Cell.offerAll changeTime SyncChange.InRange (cellAt s.db id)
      (request.filled.filter (·.id = id)) = some c := by
  by_cases hnil : request.filled.filter (·.id = id) = []
  · rw [hnil]; exact ⟨_, rfl⟩
  obtain ⟨c, hmem⟩ := List.exists_mem_of_ne_nil _ hnil
  obtain ⟨hc, hid⟩ := List.mem_filter.1 hmem
  obtain rfl : c.id = id := by simpa using hid
  obtain ⟨w, hw, -⟩ := h.cell_of_mem_arrivals hs₀ (mem_arrivals hr hc) (hread c hc)
  -- where the register stood before the first delivery
  obtain ⟨before, after, rfl⟩ := List.append_of_mem hr
  have harr : arrivals (before ++ request :: after) =
      arrivals before ++ (request.filled ++ arrivals after) := by simp [arrivals]
  have hcell := h.cell c.id
  rw [harr, List.filter_append, List.filter_append, hs₀.cell_eq, Cell.offerAll_append, hw] at hcell
  obtain ⟨c₁, h₁, h₂⟩ := Option.bind_eq_some_iff.1 hcell
  obtain rfl := Cell.of_offerAll h₁
  have hahead := Cell.ahead_of_offerAll h₂
  rw [Cell.offerAll_append] at h₂
  obtain ⟨c₂, h₂, -⟩ := Option.bind_eq_some_iff.1 h₂
  rw [hw]
  exact hahead.offerAll h₂

/-- The guard skips a change that was processed, unless it ties with another one that won. -/
theorem PushRun.skippedIn_iff (hs₀ : Healthy τ s₀.db) (h : PushRun s₀ rs s) {c : SyncChange τ} (hc : c ∈ arrivals rs)
    (hread : (cellAt s.db c.id : Cell (SyncChange τ)) ≠ .unreadable) : SkippedIn s.db c ↔
      ∀ w, LastMax changeTime (offered s₀.db rs c.id) w → changeTime c = changeTime w → c = w := by
  obtain ⟨w, hw, hle⟩ := h.cell_of_mem_arrivals hs₀ hc hread
  have hmax := ((h.cell_eq_holds hs₀).1 hw).1
  constructor
  · rintro ⟨old, hold, hs⟩ v hv heq
    obtain rfl := hv.unique hmax
    rw [hw] at hold
    cases hold
    rcases hs with hlt | ⟨-, rfl⟩
    · exact absurd heq hlt.ne
    · rfl
  · intro htie
    refine ⟨w, hw, ?_⟩
    rcases hle.lt_or_eq with hlt | heq
    · exact .inl hlt
    · exact .inr ⟨heq.symm, (htie w hmax heq).symm⟩

/-- Delivering a processed request again changes nothing exactly when it fails, or when each of its
changes that ties with the winner of its id is that winner. -/
theorem redelivery_unchanged_iff (hs₀ : Healthy τ s₀.db) (h : PushRun s₀ rs s) (hr : request ∈ rs)
    (env : PushEnv τ) : ((SyncStore.push env request).exec s).2 = s ↔
      (∃ step, env.fault step ≠ none) ∨
      (∃ c ∈ request.filled, ∃ w, LastMax changeTime (offered s₀.db rs c.id) w ∧ ¬ w.InRange) ∨
      ∀ c ∈ request.filled, ∀ w, LastMax changeTime (offered s₀.db rs c.id) w →
        changeTime c = changeTime w → c = w := by
  constructor
  · intro hsame
    refine or_iff_not_imp_left.2 fun hfault => or_iff_not_imp_left.2 fun hrange c hc => ?_
    have hcalm : ∀ step, env.fault step = none := fun step =>
      Classical.byContradiction fun hne => hfault ⟨step, hne⟩
    have hread : ∀ c ∈ request.filled, (cellAt s.db c.id : Cell (SyncChange τ)) ≠ .unreadable :=
      fun c hc hcell => hrange ⟨c, hc, (h.cell_eq_unreadable hs₀).1 hcell⟩
    obtain ⟨response, s', hpush⟩ := exists_exec_push (h.opened hs₀.opened) (hcalm .lock)
      (hcalm .transaction) (h.exists_redelivery hs₀ hr hread)
    rw [hpush] at hsame
    exact (h.skippedIn_iff hs₀ (mem_arrivals hr hc) (hread c hc)).1 ((exec_push_eq_self_iff hpush).1 hsame c hc)
  · intro hor
    rcases hpush : (SyncStore.push env request).exec s with ⟨e | response, s'⟩
    · exact exec_push_error hpush
    · obtain ⟨hl, ht, _, -, hloop, -⟩ := exec_push_ok.1 hpush
      rcases hor with ⟨step, hstep⟩ | ⟨c, hc, hunreadable⟩ | htie
      · cases step <;> contradiction
      · exact absurd ((h.cell_eq_unreadable hs₀).2 hunreadable) (readable_of_pushChanges hloop hc)
      · exact (exec_push_eq_self_iff hpush).2 fun c hc =>
          (h.skippedIn_iff hs₀ (mem_arrivals hr hc) (readable_of_pushChanges hloop hc)).2 (htie c hc)

end Redelivery

theorem redelivery_unchanged_iff_of_one_note :
    ((SyncStore.push Sample.pushEnv Sample.oneNote).exec Sample.oneNoteStore).2 =
        Sample.oneNoteStore ↔
      (∃ step, Sample.pushEnv.fault step ≠ none) ∨
      (∃ c ∈ Sample.oneNote.filled, ∃ w,
        LastMax changeTime (offered SyncStore.created.db [Sample.oneNote] c.id) w ∧ ¬ w.InRange) ∨
      ∀ c ∈ Sample.oneNote.filled, ∀ w,
        LastMax changeTime (offered SyncStore.created.db [Sample.oneNote] c.id) w →
        changeTime c = changeTime w → c = w := by
  have hpush : (SyncStore.push Sample.pushEnv Sample.oneNote).exec .created =
      (.ok ⟨1⟩, Sample.oneNoteStore) := by decide +kernel
  exact redelivery_unchanged_iff healthy_created (.processed .start hpush) (List.mem_singleton.2 rfl)
    Sample.pushEnv

/-- The second delivery of two versions of a note that have the same time stores both again. -/
theorem redelivery_of_tied_versions :
    (SyncStore.push Sample.pushEnv Sample.tiedVersions).exec .created =
        (.ok ⟨2⟩, Sample.pushed Sample.tiedVersions .created) ∧
      (SyncStore.push Sample.pushEnv Sample.tiedVersions).exec
          (Sample.pushed Sample.tiedVersions .created) =
        (.ok ⟨4⟩, Sample.pushed Sample.tiedVersions (Sample.pushed Sample.tiedVersions .created)) ∧
      Sample.pushed Sample.tiedVersions (Sample.pushed Sample.tiedVersions .created) ≠
        Sample.pushed Sample.tiedVersions .created := by
  refine ⟨by decide +kernel, by decide +kernel, by decide +kernel⟩

end FloralSync

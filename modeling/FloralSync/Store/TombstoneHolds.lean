import FloralSync.Store.Reachable

/-!
# What a tombstone of a restore holds against

A restore stamps its tombstones with the server's clock, but not before the last change of the note. A
note whose change time is before that clock stays deleted when its old record is pushed again; one that
is ahead of the clock ties with its tombstone, and then the record that arrives last wins.
-/

namespace FloralSync

open Replication StoreM

variable {τ : Type} [Chrono τ]

def Deleted (db : Database) (id : String) : Prop :=
  ∃ row, noteAt db id = some row ∧ row.change.deletedAt ≠ none

instance (db : Database) (id : String) : Decidable (Deleted db id) :=
  decidable_of_iff (((noteAt db id).bind fun row => row.change.deletedAt) ≠ none) <| by
    unfold Deleted
    cases noteAt db id <;> simp

variable (τ) in
/-- The store `s` has been served since `s₀`: there were pushes and restarts. -/
inductive ServedSince (s₀ : SyncStore) : SyncStore → Prop
  | start : ServedSince s₀ s₀
  | push {s s' : SyncStore} {env : PushEnv τ} {request : PushRequest τ}
      {result : Except StoreError PushResponse} : ServedSince s₀ s →
      (SyncStore.push env request).exec s = (result, s') → ServedSince s₀ s'
  | reopen {s s' : SyncStore} : ServedSince s₀ s → SyncStore.open (.database s.db) = .ok s' →
      ServedSince s₀ s'

/-- After a restore has led to `s`, the note of `p` is deleted, and no push of `p` changes that while it
lasts. -/
def TombstoneHolds (s : SyncStore) (p : SyncChange τ) : Prop :=
  Deleted s.db p.id ∧ ∀ u, ServedSince τ s u → Deleted u.db p.id → ∀ (env : PushEnv τ) deviceId,
    Deleted ((SyncStore.push env ⟨deviceId, [p]⟩).exec u).2.db p.id

section Served

variable [LawfulChrono τ] {s₀ s s' : SyncStore} {id : String} {p : SyncChange τ}

theorem ServedSince.cell_induct {P : Cell (SyncChange τ) → Prop}
    (hstep : ∀ c c' l, P c → Cell.offerAll changeTime SyncChange.InRange c l = some c' → P c')
    (h : ServedSince τ s₀ s) (h₀ : P (cellAt s₀.db id)) : P (cellAt s.db id) := by
  induction h with
  | start => exact h₀
  | @push _ _ _ _ result _ hpush ih =>
    cases result with
    | error e => rwa [exec_push_error hpush]
    | ok response =>
      obtain ⟨-, -, _, -, hloop, -⟩ := exec_push_ok.1 hpush
      exact hstep _ _ _ ih (pushChanges_cell hloop id)
  | reopen _ hopen ih =>
    rwa [(open_eq_ok.1 hopen).1, cellAt_congr (congrArg _ (noteAt_initConnection _ id))]

omit [LawfulChrono τ] in
/-- A deleted note stays deleted when a change of it is pushed that is a deletion itself, or is not
stored. -/
theorem Deleted.push (h : Deleted s.db p.id) (env : PushEnv τ) (deviceId : String)
    (hp : p.deletedAt ≠ none ∨ (cellAt s.db p.id : Cell (SyncChange τ)) = .unreadable ∨
      ∃ old, cellAt s.db p.id = .holds old ∧ changeTime p < changeTime old) :
    Deleted ((SyncStore.push env ⟨deviceId, [p]⟩).exec s).2.db p.id := by
  rcases hpush : (SyncStore.push env ⟨deviceId, [p]⟩).exec s with ⟨e | response, s'⟩
  · rwa [exec_push_error hpush]
  have hpushed := pushed_of_exec_push hpush
  dsimp only
  generalize s'.db = db' at hpushed
  cases hpushed with
  | skipped => exact h
  | stored hdb _ hnew hread =>
    rw [fillDevice_id] at hnew hread
    rcases hp with hp | hcell | ⟨old, hold, hlt⟩
    · refine ⟨_, (noteAt_withChange _ _ _ _).trans (if_pos (fillDevice_id _ _)), ?_⟩
      simpa [ChangeRow.ofChange] using hp
    · exact absurd hcell hread
    · exact absurd (.inl (by rwa [changeTime_fillDevice])) (hnew old hold)

/-- A change that is no deletion and has the time of the deletion that is stored replaces it. -/
theorem exists_push_not_deleted {old : SyncChange τ} (hs : Opened s.db)
    (hold : cellAt s.db p.id = .holds old) (hdead : old.deletedAt ≠ none) (hlive : p.deletedAt = none)
    (htie : changeTime old = changeTime p) :
    ∃ (env : PushEnv τ) (deviceId : String),
      ¬ Deleted ((SyncStore.push env ⟨deviceId, [p]⟩).exec s).2.db p.id := by
  have hnew : ¬ Skips changeTime old (fillDevice "" p) := by
    rintro (hlt | ⟨-, rfl⟩)
    · rw [changeTime_fillDevice, htie] at hlt
      exact lt_irrefl _ hlt
    · rw [fillDevice_deletedAt] at hdead
      exact hdead hlive
  -- a push that nothing fails
  refine ⟨⟨fun _ => none, fun _ => p.updatedAt⟩, "", ?_⟩
  obtain ⟨response, s', hpush⟩ : ∃ response s',
      (SyncStore.push ⟨fun _ => none, fun _ => p.updatedAt⟩ ⟨"", [p]⟩).exec s = (.ok response, s') :=
    exists_exec_push_singleton hs rfl rfl (by rw [hold]; exact nofun)
  rw [hpush]
  rintro ⟨row, hrow, hdel⟩
  have hpushed := pushed_of_exec_push hpush
  dsimp only at hrow
  generalize s'.db = db' at hpushed hrow
  cases hpushed with
  | skipped hcell hs =>
    rw [fillDevice_id, hold] at hcell
    cases hcell
    exact hnew hs
  | stored =>
    rw [noteAt_withChange, if_pos (fillDevice_id _ _)] at hrow
    obtain rfl := Option.some.inj hrow
    exact hdel (by simp [ChangeRow.ofChange, hlive])

end Served

/-! ### The tombstones of a restore -/

section Restored

variable [LawfulChrono τ] {s s' : SyncStore} {env : RestoreEnv τ} {content : Database} {p : SyncChange τ}

omit [LawfulChrono τ] in
/-- A tombstone that has the time of the record it deletes can be read exactly when the record can. -/
theorem inRange_tombstone_iff {restoreTime : τ} (hdel : p.deletedAt = none)
    (hle : restoreTime ≤ changeTime p) : (tombstone restoreTime p).InRange ↔ p.InRange := by
  have hdeletedAt : max (changeTime p) restoreTime = p.updatedAt := by
    rw [max_eq_left hle, changeTime, hdel]
    rfl
  have heq : tombstone restoreTime p = { p with deletedAt := some p.updatedAt } := by
    unfold tombstone
    dsimp only
    rw [hdeletedAt, max_self]
  rw [heq]
  constructor
  · intro h
    refine ⟨h.createdAt, h.updatedAt, ?_⟩
    rw [hdel]
    exact nofun
  · intro h
    refine ⟨h.createdAt, h.updatedAt, ?_⟩
    rintro _ ⟨⟩
    exact h.updatedAt

/-- The tombstone of a note holds against its old record exactly when that is a deletion itself, is older
than the restore, or has timestamps out of range. -/
theorem tombstoneHolds_iff (hrestore : (SyncStore.restoreFrom env (.database content)).exec s = (.ok (), s'))
    (hp : existingChange s.db p.id = .ok (some p)) (hid : noteAt content p.id = none) :
    TombstoneHolds s' p ↔ p.deletedAt ≠ none ∨ changeTime p < env.restoreTime ∨ ¬ p.InRange := by
  obtain ⟨_, ⟨⟩, hrestored, -⟩ := exec_restoreFrom_ok hrestore
  rw [existingChange_eq_some] at hp
  obtain ⟨hopened, r, hnote⟩ := hrestored.noteAt_of_missing hp hid
  have hcell : cellAt s'.db p.id = Cell.stored SyncChange.InRange (tombstone env.restoreTime p) :=
    cellAt_of_ofChange hnote
  constructor
  · rintro ⟨hdel, h⟩
    by_contra hnot
    push Not at hnot
    obtain ⟨hlive, hlate, hrange⟩ := hnot
    rw [Cell.stored_of_readable ((inRange_tombstone_iff hlive hlate).2 hrange)] at hcell
    obtain ⟨env', deviceId, hpush⟩ :=
      exists_push_not_deleted hopened hcell nofun hlive (max_eq_left hlate)
    exact hpush (h s' .start hdel env' deviceId)
  · refine fun hor => ⟨⟨_, hnote, nofun⟩, fun u hu hdel env' deviceId => ?_⟩
    by_cases hlive : p.deletedAt = none
    · refine hdel.push env' deviceId (.inr ?_)
      by_cases hlate : changeTime p < env.restoreTime
      · have hsettled : (cellAt u.db p.id : Cell (SyncChange τ)).SettledBy changeTime env.restoreTime := by
          refine hu.cell_induct (fun _ _ _ hc h => hc.offerAll h) ?_
          rw [hcell]
          exact Cell.stored_cases (fun _ => le_max_right _ _) trivial
        cases hu : (cellAt u.db p.id : Cell (SyncChange τ)) with
        | absent => rw [hu] at hsettled; exact hsettled.elim
        | unreadable => exact .inl rfl
        | holds old => rw [hu] at hsettled; exact .inr ⟨old, rfl, hlate.trans_le hsettled⟩
      · have hrange := (hor.resolve_left (not_not.2 hlive)).resolve_left hlate
        refine .inl (hu.cell_induct (P := (· = .unreadable)) (fun _ _ _ hc h => ?_) ?_)
        · rw [hc] at h
          exact Cell.eq_unreadable_of_offerAll h
        · rw [hcell]
          exact Cell.stored_of_not_readable fun h =>
            hrange ((inRange_tombstone_iff hlive (not_lt.1 hlate)).1 h)
    · exact hdel.push env' deviceId (.inl hlive)

end Restored

theorem tombstoneHolds_iff_of_one_note :
    TombstoneHolds (Sample.restored Sample.nine SyncStore.created.db Sample.oneNoteStore)
        (Sample.stored "n1" "note" Sample.eight) ↔
      (Sample.stored "n1" "note" Sample.eight).deletedAt ≠ none ∨
        changeTime (Sample.stored "n1" "note" Sample.eight) < (Sample.restoreEnv Sample.nine).restoreTime ∨
        ¬ (Sample.stored "n1" "note" Sample.eight).InRange :=
  tombstoneHolds_iff (Sample.exec_restoreFrom (by decide +kernel)) (by decide +kernel) (by decide +kernel)

/-- A note from a device whose clock is ahead of the server's comes back when its record is pushed again
after the restore. -/
theorem not_tombstoneHolds_of_ahead_note :
    existingChange Sample.aheadNoteStore.db "n1" = .ok (some (Sample.stored "n1" "note" Sample.nine)) ∧
      (SyncStore.restoreFrom (Sample.restoreEnv Sample.eight) (.database SyncStore.created.db)).exec
          Sample.aheadNoteStore =
        (.ok (), Sample.restored Sample.eight SyncStore.created.db Sample.aheadNoteStore) ∧
      ¬ TombstoneHolds (Sample.restored Sample.eight SyncStore.created.db Sample.aheadNoteStore)
          (Sample.stored "n1" "note" Sample.nine) := by
  refine ⟨by decide +kernel, Sample.exec_restoreFrom (by decide +kernel), fun ⟨hdel, h⟩ => ?_⟩
  exact absurd (h _ .start hdel Sample.pushEnv "phone") (by decide +kernel)

end FloralSync

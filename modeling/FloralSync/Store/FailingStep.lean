import FloralSync.Store.Atomicity
import Mathlib.Order.WellFounded

/-!
# The step at which a restore fails

Whether a restore that fails has changed anything is decided by the first step that fails, which follows from the live
database, the file and the environment (`restoreFrom_atomic_iff`).
-/

namespace FloralSync

open Replication StoreM

variable {τ : Type} [Chrono τ]

/-- A live note is missing from the file. -/
def LacksNote (live content : Database) : Prop := ∃ id, noteAt live id ≠ none ∧ noteAt content id = none

variable (τ) in
/-- What makes each step of a restore of `content` over a database at revision `m` fail: the environment, or what the
step finds in the one or the other. -/
def StepFails (fault : RestoreStep → Option StoreError) (m : Nat) (live content : Database) : RestoreStep → Prop
  | .lock => fault .lock ≠ none
  | .previousRevision => fault .previousRevision ≠ none
  | .previousNotes => fault .previousNotes ≠ none ∨ ∃ id, (cellAt live id : Cell (SyncChange τ)) = .unreadable
  | .copy => fault .copy ≠ none
  | .restoredRevision => fault .restoredRevision ≠ none ∨ ∀ r, currentRevision content ≠ .ok r
  | .rebaseNotes => Rebases m content ∧ fault .rebaseNotes ≠ none
  | .rebaseSnapshots => Rebases m content ∧ (fault .rebaseSnapshots ≠ none ∨ content.noteSnapshots = none)
  | .restoredNotes => fault .restoredNotes ≠ none ∨ ∃ id, (cellAt content id : Cell (SyncChange τ)) = .unreadable
  | .tombstones => LacksNote live content ∧
      (fault .tombstones ≠ none ∨ content.noteSnapshots = none ∨ ¬ RebaseFits live content)
  | .finalRevision => fault .finalRevision ≠ none ∨ ¬ RebaseFits live content

variable (τ) in
/-- The step is the first one that fails. The steps come in the order of their declaration. -/
def FailsAt (fault : RestoreStep → Option StoreError) (m : Nat) (live content : Database) (step : RestoreStep) : Prop :=
  StepFails τ fault m live content step ∧
    ∀ earlier : RestoreStep, earlier.ctorIdx < step.ctorIdx → ¬ StepFails τ fault m live content earlier

/-- The live notes are those of the file, at revisions higher by `offset`. -/
def NotesAbove (offset : Int) (content live : Database) : Prop :=
  ∃ notes ∈ content.notes, live.notes = some (notes.map (.shift offset) (NoteRow.id_shift offset))

def SnapshotsAbove (offset : Int) (content live : Database) : Prop :=
  ∃ snapshots ∈ content.noteSnapshots, live.noteSnapshots = some (snapshots.mapRevisions (· + offset))

/-- The live database is the file, with its revisions raised if a restore rebases it. -/
def LiveIsRebased (m : Nat) (live content : Database) : Prop :=
  (Rebases m content → NotesAbove (asI64 m) content live ∧ SnapshotsAbove (asI64 m) content live) ∧
    (¬ Rebases m content → content = live)

/-- The step leaves what was live if it fails: it comes before the copy, or the file, as far as it has been worked up
by then, is what was live. -/
def LeavesLive (m : Nat) (live content : Database) : RestoreStep → Prop
  | .lock | .previousRevision | .previousNotes | .copy => True
  | .restoredRevision | .rebaseNotes => content = live
  | .rebaseSnapshots => NotesAbove (asI64 m) content live ∧ live.noteSnapshots = content.noteSnapshots
  | .restoredNotes => LiveIsRebased m live content
  | .tombstones => False
  | .finalRevision => ¬ LacksNote live content ∧ LiveIsRebased m live content

section Atomic

variable {fault : RestoreStep → Option StoreError} {env : RestoreEnv τ} {live content db db' : Database} {m r : Nat}
  {previous restored : List (SyncChange τ)} {file : SourceFile} {s : SyncStore}

omit [Chrono τ]

theorem rebases_iff (hr : currentRevision content = .ok r) : Rebases m content ↔ r ≤ m ∧ m ≠ 0 :=
  ⟨fun ⟨_, hr', h⟩ => Except.ok.inj (hr'.symm.trans hr) ▸ h, fun h => ⟨r, hr, h⟩⟩

theorem exists_rebased_of_table (hr : currentRevision content = .ok r)
    (htable : Rebases m content → content.noteSnapshots ≠ none) : ∃ db, Rebased m content db := by
  by_cases hm : r ≤ m ∧ m ≠ 0
  · obtain ⟨notes, hn, -⟩ := currentRevision_eq_ok.1 hr
    obtain ⟨snapshots, hs⟩ := Option.ne_none_iff_exists'.1 (htable ((rebases_iff hr).2 hm))
    obtain ⟨_, _⟩ := content
    dsimp only at hn hs
    subst hn hs
    exact ⟨_, r, hr, by rw [if_pos hm]; exact ⟨notes, snapshots, rfl, rfl⟩⟩
  · exact ⟨content, r, hr, by rw [if_neg hm]⟩

theorem Rebased.eq_iff (h : Rebased m content db) : db = live ↔ LiveIsRebased m live content := by
  obtain ⟨r, hr, h⟩ := h
  rw [LiveIsRebased, rebases_iff hr]
  split_ifs at h with hm
  · obtain ⟨notes, snapshots, rfl, rfl⟩ := h
    obtain ⟨liveNotes, liveSnapshots⟩ := live
    simp [hm, shifted, NotesAbove, SnapshotsAbove, eq_comm]
  · subst h
    simp [hm]

/-- The rebase adds no note. -/
theorem LacksNote.not_rebased (h : LacksNote live content) : ¬ Rebased m content live := by
  obtain ⟨id, hlive, hfile⟩ := h
  intro hrebased
  obtain ⟨_, hnote⟩ := hrebased.noteAt_eq
  exact hlive (by rw [hnote, hfile, Option.map_none])

theorem Rebased.table_iff (h : Rebased m content db) : db.noteSnapshots = none ↔ content.noteSnapshots = none := by
  obtain ⟨_, -, h⟩ := h
  split_ifs at h
  · obtain ⟨notes, snapshots, rfl, rfl⟩ := h
    exact iff_of_false nofun nofun
  · rw [h]

theorem Rebased.exists_revision_iff (h : Rebased m content db) (hm : currentRevision live = .ok m) :
    (∃ revision, currentRevision db = .ok revision) ↔ RebaseFits live content := by
  obtain ⟨r, hr, -⟩ := id h
  constructor
  · rintro ⟨revision, hrev⟩ m' r' hm' hr' hle notes hn hne
    obtain rfl := Except.ok.inj (hm.symm.trans hm')
    exact h.i64 hr' hrev hle hn hne
  · intro hfits
    obtain ⟨r', hr', h⟩ := h
    split_ifs at h with hle
    · obtain ⟨notes, snapshots, rfl, rfl⟩ := h
      exact ⟨_, currentRevision_eq_ok.2 ⟨_, rfl, i64_maxRevision_shift.2 (hfits m r' hm hr' hle.1 notes rfl), rfl⟩⟩
    · exact ⟨r', by rw [h, hr']⟩

theorem Rebased.notes_ne_none (h : Rebased m content db) : db.notes ≠ none := by
  obtain ⟨r, hr, h⟩ := h
  obtain ⟨notes, hn, -⟩ := currentRevision_eq_ok.1 hr
  split_ifs at h
  · obtain ⟨notes, snapshots, rfl, rfl⟩ := h
    exact nofun
  · rw [h, hn]
    exact nofun

theorem Rebased.opened_iff (h : Rebased m content db) (hm : currentRevision live = .ok m) :
    Opened db ↔ content.noteSnapshots ≠ none ∧ RebaseFits live content := by
  rw [FloralSync.opened_iff, ← h.exists_revision_iff hm, ne_eq db.noteSnapshots, h.table_iff]
  exact and_iff_right h.notes_ne_none

end Atomic

section Atomic

variable {fault : RestoreStep → Option StoreError} {env : RestoreEnv τ} {live content db db' : Database} {m : Nat}
  {previous restored : List (SyncChange τ)} {file : SourceFile} {s : SyncStore} {step : RestoreStep}

theorem missing_ne_nil_iff (hload : loadAllChanges live = .ok previous) (hrebased : Rebased m content db)
    (hload' : loadAllChanges db = .ok restored) : missingNoteIds previous restored ≠ [] ↔ LacksNote live content := by
  have hlive : ∀ id, (∃ p ∈ previous, p.id = id) ↔ noteAt live id ≠ none := fun id => by
    rw [ne_eq, ← cellAt_eq_absent (τ := τ), ← forall_id_ne_iff hload]
    simp
  have hfile : ∀ id, (∀ r ∈ restored, r.id ≠ id) ↔ noteAt content id = none := fun id => by
    rw [forall_id_ne_iff hload', hrebased.cellAt_eq, cellAt_eq_absent]
  constructor
  · intro hne
    obtain ⟨id, hid⟩ := List.exists_mem_of_ne_nil _ hne
    obtain ⟨hmem, hmissing⟩ := mem_missingNoteIds.1 hid
    exact ⟨id, (hlive id).1 hmem, (hfile id).1 hmissing⟩
  · rintro ⟨id, hmem, hmissing⟩
    exact List.ne_nil_of_mem (mem_missingNoteIds.2 ⟨(hlive id).2 hmem, (hfile id).2 hmissing⟩)

/-- The last snapshot has been taken at this time. -/
def LastCapturedAt (db : Database) (t : τ) : Prop :=
  ∃ snapshots ∈ db.noteSnapshots, snapshots.rows.getLast?.map SnapshotRow.capturedAt = some (toRfc3339 t)

theorem Tombstoned.lastCapturedAt {t : τ} (h : Tombstoned env previous restored db db')
    (hmissing : missingNoteIds previous restored ≠ []) (hnow : ∀ id, env.now id = t) : LastCapturedAt db' t := by
  obtain ⟨_, hlast⟩ := h.induct (P := fun done _ db => done ≠ [] → LastCapturedAt db t)
    (fun _ _ h => absurd rfl h) (fun _ _ _ _ _ _ _ => ⟨_, rfl, by simp [hnow]⟩)
  have hids : (tombstones env.restoreTime previous restored).map SyncChange.id = missingNoteIds previous restored :=
    map_id_tombstones
  refine hlast fun hnil => hmissing ?_
  rw [← hids, hnil]
  rfl

theorem Copied.not_stepFails (hc : Copied fault live file m previous content)
    (hstep : step.ctorIdx ≤ RestoreStep.copy.ctorIdx) : ¬ StepFails τ fault m live content step := by
  cases step with
  | lock => exact fun h => h hc.calm.1
  | previousRevision => exact fun h => h hc.calm.2.1
  | previousNotes =>
    rintro (h | ⟨id, hid⟩)
    · exact h hc.calm.2.2.1
    · exact (exists_loadAllChanges_iff.1 ⟨_, hc.notes⟩).2 id hid
  | copy => exact fun h => h hc.calm.2.2.2
  | _ => exact absurd hstep (by decide)

theorem LateFailure.exists_stepFails (h : LateFailure env live file db)
    (hc : Copied env.fault live file m previous content) : ∃ step, StepFails τ env.fault m live content step := by
  rcases h with ⟨hc', h⟩ | ⟨hc', -, -, hrebased, h⟩ <;> obtain ⟨rfl, rfl, rfl⟩ := hc.unique hc'
  · cases h with
    | restoredRevision h => exact ⟨.restoredRevision, h⟩
    | rebaseNotes _ hrebases h => exact ⟨.rebaseNotes, hrebases, h⟩
    | rebaseSnapshots _ hrebases _ _ h => exact ⟨.rebaseSnapshots, hrebases, h⟩
  · have hrevision := hrebased.exists_revision_iff hc.revision
    cases h with
    | restoredNotes h =>
      refine ⟨.restoredNotes, h.imp_right fun h => ?_⟩
      obtain ⟨id, hid⟩ := h.resolve_left hrebased.notes_ne_none
      exact ⟨id, by rw [← hrebased.cellAt_eq, hid]⟩
    | tombstones _ hload hmissing h =>
      refine ⟨.tombstones, (missing_ne_nil_iff hc.notes hrebased hload).1 hmissing, h.imp_right fun hopened => ?_⟩
      rwa [hrebased.opened_iff hc.revision, not_and_or, not_not] at hopened
    | finalRevision _ _ _ _ _ h => exact ⟨.finalRevision, .inl h⟩
    | finalRevisionOnly _ _ _ h =>
      refine ⟨.finalRevision, h.imp_right fun h => ?_⟩
      rw [← hrevision, not_exists]
      exact h

namespace FailsAt

theorem exists_restoredRevision (h : FailsAt τ env.fault m live content step)
    (hstep : RestoreStep.restoredRevision.ctorIdx < step.ctorIdx) :
    env.fault .restoredRevision = none ∧ ∃ r, currentRevision content = .ok r := by
  obtain ⟨hfault, hr⟩ := not_or.1 (h.2 .restoredRevision hstep)
  exact ⟨not_not.1 hfault, not_forall_not.1 hr⟩

theorem rebaseNotes_eq_none (h : FailsAt τ env.fault m live content step)
    (hstep : RestoreStep.rebaseNotes.ctorIdx < step.ctorIdx) (hrebases : Rebases m content) :
    env.fault .rebaseNotes = none :=
  not_not.1 (not_and.1 (h.2 .rebaseNotes hstep) hrebases)

theorem exists_rebased (h : FailsAt τ env.fault m live content step)
    (hstep : RestoreStep.rebaseSnapshots.ctorIdx < step.ctorIdx) : env.fault .restoredRevision = none ∧
      (Rebases m content → env.fault .rebaseNotes = none ∧ env.fault .rebaseSnapshots = none) ∧
      ∃ rebased, Rebased m content rebased := by
  obtain ⟨hfault, r, hr⟩ := h.exists_restoredRevision (lt_trans (by decide) hstep)
  have hsnapshots := fun hrebases => not_or.1 (not_and.1 (h.2 .rebaseSnapshots hstep) hrebases)
  exact ⟨hfault, fun hrebases =>
    ⟨h.rebaseNotes_eq_none (lt_trans (by decide) hstep) hrebases, not_not.1 (hsnapshots hrebases).1⟩,
    exists_rebased_of_table hr fun hrebases => (hsnapshots hrebases).2⟩

theorem exists_restored (h : FailsAt τ env.fault m live content step)
    (hstep : RestoreStep.restoredNotes.ctorIdx < step.ctorIdx) (hrebased : Rebased m content db) :
    env.fault .restoredNotes = none ∧ ∃ restored : List (SyncChange τ), loadAllChanges db = .ok restored := by
  obtain ⟨hfault, hread⟩ := not_or.1 (h.2 .restoredNotes hstep)
  refine ⟨not_not.1 hfault, exists_loadAllChanges_iff.2 ⟨hrebased.notes_ne_none, fun id hid => hread ⟨id, ?_⟩⟩⟩
  rwa [hrebased.cellAt_eq] at hid

theorem exists_copied (h : FailsAt τ env.fault m live content step) (hm : currentRevision live = .ok m)
    (hstep : RestoreStep.copy.ctorIdx < step.ctorIdx) :
    ∃ previous : List (SyncChange τ), Copied env.fault live (.database content) m previous content := by
  obtain ⟨hfault, hread⟩ := not_or.1 (h.2 .previousNotes (lt_trans (by decide) hstep))
  obtain ⟨notes, hn, -⟩ := currentRevision_eq_ok.1 hm
  obtain ⟨previous, hload⟩ := exists_loadAllChanges_iff.2 ⟨by rw [hn]; exact nofun, not_exists.1 hread⟩
  exact ⟨previous, ⟨not_not.1 (h.2 .lock (lt_trans (by decide) hstep)),
    not_not.1 (h.2 .previousRevision (lt_trans (by decide) hstep)), not_not.1 hfault,
    not_not.1 (h.2 .copy hstep)⟩, hm, hload, rfl⟩

/-- What a step after the copy leaves when it fails. Tombstones may look like those that were there already. -/
theorem exists_lateFailure (h : FailsAt τ env.fault m live content step) (hm : currentRevision live = .ok m)
    (hstep : RestoreStep.copy.ctorIdx < step.ctorIdx) : ∃ db, LateFailure env live (.database content) db ∧
      (LeavesLive m live content step → db = live) ∧ (db = live → LeavesLive m live content step ∨
        ∀ t, (∀ id, env.now id = t) → LastCapturedAt live t) := by
  obtain ⟨previous, hc⟩ := h.exists_copied hm hstep
  cases step with
  | lock | previousRevision | previousNotes | copy => exact absurd hstep (by decide)
  | restoredRevision => exact ⟨content, .rebase hc (.restoredRevision h.1), id, .inl⟩
  | rebaseNotes =>
    obtain ⟨hfault, -⟩ := h.exists_restoredRevision (by decide)
    exact ⟨content, .rebase hc (.rebaseNotes hfault h.1.1 h.1.2), id, .inl⟩
  | rebaseSnapshots =>
    obtain ⟨hrebases, hfails⟩ := h.1
    obtain ⟨hfault, r, hr⟩ := h.exists_restoredRevision (by decide)
    have hfault' := h.rebaseNotes_eq_none (by decide) hrebases
    obtain ⟨notes, hn, -⟩ := currentRevision_eq_ok.1 hr
    have hshift : shiftNotes (asI64 m) content = .ok _ :=
      Except.bind_eq_ok.2 ⟨notes, Database.selectNotes_eq_ok.2 hn, rfl⟩
    refine ⟨_, .rebase hc (.rebaseSnapshots hfault hrebases hfault' hshift hfails), ?_, ?_⟩
    · rintro ⟨⟨_, hn', hlive⟩, hsnapshots⟩
      obtain rfl := Option.some.inj (hn.symm.trans hn')
      obtain ⟨_, _⟩ := live
      exact Database.mk.injEq .. ▸ ⟨hlive.symm, hsnapshots.symm⟩
    · rintro rfl
      exact .inl ⟨⟨notes, hn, rfl⟩, rfl⟩
  | restoredNotes =>
    obtain ⟨hfault, hfaults, rebased, hrebased⟩ := h.exists_rebased (by decide)
    refine ⟨rebased, .replace hc hfault hfaults hrebased (.restoredNotes (h.1.imp_right fun hid => .inr ?_)),
      hrebased.eq_iff.2, fun heq => .inl (hrebased.eq_iff.1 heq)⟩
    obtain ⟨id, hid⟩ := hid
    exact ⟨id, by rw [hrebased.cellAt_eq, hid]⟩
  | tombstones =>
    obtain ⟨hlacks, hfails⟩ := h.1
    obtain ⟨hfault, hfaults, rebased, hrebased⟩ := h.exists_rebased (by decide)
    obtain ⟨hfault', restored, hload⟩ := h.exists_restored (by decide) hrebased
    refine ⟨rebased, .replace hc hfault hfaults hrebased (.tombstones hfault' hload
      ((missing_ne_nil_iff hc.notes hrebased hload).2 hlacks) (hfails.imp_right ?_)), False.elim, ?_⟩
    · rw [hrebased.opened_iff hm, not_and_or, not_not]
      exact id
    · rintro rfl
      exact absurd hrebased hlacks.not_rebased
  | finalRevision =>
    obtain ⟨hfault, hfaults, rebased, hrebased⟩ := h.exists_rebased (by decide)
    obtain ⟨hfault', restored, hload⟩ := h.exists_restored (by decide) hrebased
    have hmissing := missing_ne_nil_iff hc.notes hrebased hload
    by_cases hlacks : LacksNote live content
    · obtain ⟨hfault'', hopened⟩ := not_or.1 (not_and.1 (h.2 .tombstones (by decide)) hlacks)
      have hfits := not_or.1 hopened
      obtain ⟨revision, hrev⟩ := (hrebased.exists_revision_iff hm).2 (not_not.1 hfits.2)
      obtain ⟨db, hstore, -⟩ := exists_storeTombstones env previous (missingNoteIds previous restored) revision
        ((hrebased.opened_iff hm).2 ⟨hfits.1, not_not.1 hfits.2⟩)
      have hstored : Tombstoned env previous restored rebased db := ⟨revision, hrev, hstore⟩
      refine ⟨db, .replace hc hfault hfaults hrebased (.finalRevision hfault' hload (hmissing.2 hlacks)
        (not_not.1 hfault'') hstored (h.1.resolve_right hfits.2)), fun hleaves => absurd hlacks hleaves.1, ?_⟩
      rintro rfl
      exact .inr fun t => hstored.lastCapturedAt (hmissing.2 hlacks)
    · refine ⟨rebased, .replace hc hfault hfaults hrebased (.finalRevisionOnly hfault' hload
        (not_not.1 (mt hmissing.1 hlacks)) (h.1.imp_right fun hfits => ?_)), fun hleaves =>
          hrebased.eq_iff.2 hleaves.2, fun heq => .inl ⟨hlacks, hrebased.eq_iff.1 heq⟩⟩
      rwa [← hrebased.exists_revision_iff hm, not_exists] at hfits

end FailsAt

theorem LateFailure.unique (h : LateFailure env live file db) (h' : LateFailure env live file db') : db = db' := by
  obtain ⟨e, he⟩ := h.failed (s := ⟨live, 0⟩)
  obtain ⟨e', he'⟩ := h'.failed (s := ⟨live, 0⟩)
  exact congrArg SyncStore.db (Prod.mk.inj (he.symm.trans he')).2

/-- A restore that fails changes nothing, whatever the clock shows, if and only if the first step that fails leaves
what was live. -/
theorem restoreFrom_atomic_iff {t u : τ} (htu : toRfc3339 t ≠ toRfc3339 u) :
    (∀ (restoreTime : τ) now e s',
      (SyncStore.restoreFrom ⟨fault, restoreTime, now⟩ file).exec s = (.error e, s') → s' = s) ↔
      ∀ m content, currentRevision s.db = .ok m → file = .database content →
        ∀ step, FailsAt τ fault m s.db content step → LeavesLive m s.db content step := by
  constructor
  · rintro h m content hm rfl step hstep
    rcases Nat.lt_or_ge RestoreStep.copy.ctorIdx step.ctorIdx with hlate | hearly
    · have hclock : ∀ v : τ, LeavesLive m s.db content step ∨ LastCapturedAt s.db v := fun v => by
        have hstep : FailsAt τ (RestoreEnv.mk fault v fun _ => v).fault m s.db content step := hstep
        obtain ⟨db, hdb, -, hlive⟩ := hstep.exists_lateFailure hm hlate
        obtain ⟨e, he⟩ := hdb.failed
        exact (hlive (congrArg SyncStore.db (h _ _ _ _ he))).imp_right fun hlast => hlast v fun _ => rfl
      rcases hclock t with hleaves | ⟨snapshots, hs, ht⟩
      · exact hleaves
      rcases hclock u with hleaves | ⟨_, hs', hu⟩
      · exact hleaves
      obtain rfl := Option.some.inj (hs.symm.trans hs')
      exact absurd (Option.some.inj (ht.symm.trans hu)) htu
    · cases step with
      | lock | previousRevision | previousNotes | copy => trivial
      | _ => exact absurd hearly (by decide)
  · intro h restoreTime now e s' he
    rcases failed_restoreFrom ⟨e, he⟩ with hs | ⟨m, previous, content, hc⟩
    · exact hs
    obtain ⟨hlate, hev⟩ := (failed_restoreFrom_of_copied hc).1 ⟨e, he⟩
    -- the first of the steps that fail
    obtain ⟨step, hfails, hfirst⟩ := WellFounded.has_min (measure RestoreStep.ctorIdx).wf
      {step | StepFails τ fault m s.db content step} (hlate.exists_stepFails hc)
    have hstep : FailsAt τ (RestoreEnv.mk fault restoreTime now).fault m s.db content step :=
      ⟨hfails, fun earlier hlt hfails => hfirst earlier hfails hlt⟩
    obtain rfl := hc.file
    obtain ⟨db, hdb, hlive, -⟩ := hstep.exists_lateFailure hc.revision
      (Nat.not_le.1 fun hearly => hc.not_stepFails hearly hfails)
    exact SyncStore.ext ((hlate.unique hdb).trans (hlive (h m content hc.revision rfl step hstep))) hev

end Atomic

namespace Sample

/-- The revision of the copied file cannot be read. -/
def brokenRead (step : RestoreStep) : Option StoreError := if step = .restoredRevision then some .io else none

end Sample

/-- Restoring a backup of the store as it stands leaves it if it fails right after the copy. -/
theorem restoreFrom_atomic_of_own_backup :
    (SyncStore.restoreFrom ⟨Sample.brokenRead, Sample.nine, fun _ => Sample.nine⟩
        (.database Sample.oneNoteStore.db)).exec Sample.oneNoteStore = (.error .io, Sample.oneNoteStore) ∧
      ∀ (restoreTime : Rfc3339.Civil) now e s', (SyncStore.restoreFrom ⟨Sample.brokenRead, restoreTime, now⟩
        (.database Sample.oneNoteStore.db)).exec Sample.oneNoteStore = (.error e, s') → s' = Sample.oneNoteStore := by
  have htimes : toRfc3339 Sample.eight ≠ toRfc3339 Sample.nine := by decide +kernel
  refine ⟨by decide +kernel, (restoreFrom_atomic_iff htimes).2 fun m content hm hfile step hstep => ?_⟩
  obtain rfl := SourceFile.database.inj hfile
  have hfirst : ¬ RestoreStep.restoredRevision.ctorIdx < step.ctorIdx := fun hlt =>
    hstep.2 .restoredRevision hlt (.inl nofun)
  cases step with
  | lock | previousRevision | previousNotes | copy => trivial
  | restoredRevision => rfl
  | _ => exact absurd (by decide) hfirst

/-- Restoring a file with a note and no table of snapshots fails, and leaves its note in the live database
at twice its revision, without snapshots. -/
theorem restoreFrom_not_atomic_of_legacy :
    (∃ e s', (SyncStore.restoreFrom (Sample.restoreEnv Sample.nine)
        (.database (Sample.legacy Sample.oneNoteStore.db))).exec Sample.oneNoteStore = (.error e, s') ∧
      currentRevision Sample.oneNoteStore.db = .ok 1 ∧ currentRevision s'.db = .ok 2 ∧
      s'.db.noteSnapshots = none) ∧
    ¬ ∀ e s', (SyncStore.restoreFrom (Sample.restoreEnv Sample.nine)
        (.database (Sample.legacy Sample.oneNoteStore.db))).exec Sample.oneNoteStore = (.error e, s') →
      s' = Sample.oneNoteStore := by
  have hfail : ∃ e s', (SyncStore.restoreFrom (Sample.restoreEnv Sample.nine)
      (.database (Sample.legacy Sample.oneNoteStore.db))).exec Sample.oneNoteStore = (.error e, s') ∧
      currentRevision Sample.oneNoteStore.db = .ok 1 ∧ currentRevision s'.db = .ok 2 ∧
      s'.db.noteSnapshots = none :=
    ⟨.database (.sqliteFailure "no such table: note_snapshots"),
      Sample.restored Sample.nine (Sample.legacy Sample.oneNoteStore.db) Sample.oneNoteStore,
      by decide +kernel, by decide +kernel, by decide +kernel, by decide +kernel⟩
  refine ⟨hfail, fun h => ?_⟩
  obtain ⟨e, s', hfail, hbefore, hafter, -⟩ := hfail
  rw [h e s' hfail, hbefore] at hafter
  cases hafter

end FloralSync

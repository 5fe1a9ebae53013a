import FloralSync.Store.OpenAgreement

/-!
# What a restore leaves behind when it fails

A restore replaces the live database first. Up to and including the copy, a failure changes nothing; one
of a later step (`LateFailure`) leaves the file's content in place, as far as it has been worked up.
-/

namespace FloralSync

open Replication StoreM

variable {τ : Type} [Chrono τ]

/-- The copy has been reached and made. -/
structure Copied (fault : RestoreStep → Option StoreError) (live : Database) (file : SourceFile)
    (previousRevision : Nat) (previous : List (SyncChange τ)) (content : Database) : Prop where
  calm : fault .lock = none ∧ fault .previousRevision = none ∧ fault .previousNotes = none ∧ fault .copy = none
  revision : currentRevision live = .ok previousRevision
  notes : loadAllChanges live = .ok previous
  file : file = .database content

/-- A failure between the copy of `content` and the end of the rebase, with what it leaves in place. -/
inductive RebaseFailure (env : RestoreEnv τ) (previousRevision : Nat) (content : Database) : Database → Prop
  | restoredRevision : Fails (env.fault .restoredRevision) (currentRevision content) →
      RebaseFailure env previousRevision content content
  | rebaseNotes : env.fault .restoredRevision = none → Rebases previousRevision content →
      env.fault .rebaseNotes ≠ none → RebaseFailure env previousRevision content content
  | rebaseSnapshots {db : Database} : env.fault .restoredRevision = none → Rebases previousRevision content →
      env.fault .rebaseNotes = none → shiftNotes (asI64 previousRevision) content = .ok db →
      (env.fault .rebaseSnapshots ≠ none ∨ content.noteSnapshots = none) →
      RebaseFailure env previousRevision content db

/-- A failure after the rebase, which left `rebased`, with what it leaves in place. -/
inductive ReplaceFailure (env : RestoreEnv τ) (previous : List (SyncChange τ)) (rebased : Database) :
    Database → Prop
  | restoredNotes : (env.fault .restoredNotes ≠ none ∨ rebased.notes = none ∨
        ∃ id, (cellAt rebased id : Cell (SyncChange τ)) = .unreadable) →
      ReplaceFailure env previous rebased rebased
  | tombstones {restored : List (SyncChange τ)} : env.fault .restoredNotes = none →
      loadAllChanges rebased = .ok restored → missingNoteIds previous restored ≠ [] →
      (env.fault .tombstones ≠ none ∨ ¬ Opened rebased) → ReplaceFailure env previous rebased rebased
  | finalRevision {restored : List (SyncChange τ)} {db : Database} : env.fault .restoredNotes = none →
      loadAllChanges rebased = .ok restored → missingNoteIds previous restored ≠ [] →
      env.fault .tombstones = none → Tombstoned env previous restored rebased db →
      env.fault .finalRevision ≠ none → ReplaceFailure env previous rebased db
  | finalRevisionOnly {restored : List (SyncChange τ)} : env.fault .restoredNotes = none →
      loadAllChanges rebased = .ok restored → missingNoteIds previous restored = [] →
      Fails (env.fault .finalRevision) (currentRevision rebased) → ReplaceFailure env previous rebased rebased

inductive LateFailure (env : RestoreEnv τ) (live : Database) (file : SourceFile) : Database → Prop
  | rebase {m : Nat} {previous : List (SyncChange τ)} {content db : Database} :
      Copied env.fault live file m previous content → RebaseFailure env m content db → LateFailure env live file db
  | replace {m : Nat} {previous : List (SyncChange τ)} {content rebased db : Database} :
      Copied env.fault live file m previous content → env.fault .restoredRevision = none →
      (Rebases m content → env.fault .rebaseNotes = none ∧ env.fault .rebaseSnapshots = none) →
      Rebased m content rebased → ReplaceFailure env previous rebased db → LateFailure env live file db

/-- What is in place while the copied `content` is worked up. -/
inductive Underway (env : RestoreEnv τ) (previousRevision : Nat) (previous : List (SyncChange τ)) (content : Database) :
    Database → Prop
  | copied : Underway env previousRevision previous content content
  | notesShifted {notes : NotesTable} : Rebases previousRevision content → content.notes = some notes →
      Underway env previousRevision previous content
        { content with notes := some (notes.map (.shift (asI64 previousRevision)) (NoteRow.id_shift _)) }
  | rebased {db : Database} : Rebased previousRevision content db → Underway env previousRevision previous content db
  | tombstoned {restored : List (SyncChange τ)} {rebased db : Database} : Rebased previousRevision content rebased →
      loadAllChanges rebased = .ok restored → Tombstoned env previous restored rebased db →
      Underway env previousRevision previous content db

section Failed

variable {env : RestoreEnv τ} {s s' : SyncStore} {m : Nat} {previous restored : List (SyncChange τ)}
  {file : SourceFile} {content : Database}

theorem Copied.unique {live : Database} {m' : Nat} {previous' : List (SyncChange τ)} {content' : Database}
    (h : Copied env.fault live file m previous content) (h' : Copied env.fault live file m' previous' content') :
    m = m' ∧ previous = previous' ∧ content = content' :=
  ⟨Except.ok.inj (h.revision.symm.trans h'.revision), Except.ok.inj (h.notes.symm.trans h'.notes),
    SourceFile.database.inj (h.file.symm.trans h'.file)⟩

omit [Chrono τ] in
theorem failed_rebaseAllRevisions : Failed (rebaseAllRevisions env m) s s' ↔ m ≠ 0 ∧
    (Fails (env.fault .rebaseNotes) (shiftNotes (asI64 m) s.db) ∧ s' = s ∨
      env.fault .rebaseNotes = none ∧ shiftNotes (asI64 m) s.db = .ok s'.db ∧
        Fails (env.fault .rebaseSnapshots) (shiftSnapshots (asI64 m) s'.db) ∧
        s'.revisionEvents = s.revisionEvents) := by
  unfold rebaseAllRevisions
  split_ifs with hm
  · simp only [failed_bind, failed_execute, exec_execute_ok]
    constructor
    · rintro (h | ⟨_, s₁, ⟨hf, hnotes, hev⟩, hs, rfl⟩)
      · exact ⟨hm, .inl h⟩
      · exact ⟨hm, .inr ⟨hf, hnotes, hs, hev⟩⟩
    · rintro ⟨-, h | ⟨hf, hnotes, hs, hev⟩⟩
      · exact .inl h
      · exact .inr ⟨(), s', ⟨hf, hnotes, hev⟩, hs, rfl⟩
  · exact iff_of_false not_failed_pure fun h => hm h.1

theorem fails_shiftNotes {fault : Option StoreError} {offset : Int} {db : Database} {r : Nat}
    (hr : currentRevision db = .ok r) : Fails fault (shiftNotes offset db) ↔ fault ≠ none := by
  obtain ⟨notes, hn, -⟩ := currentRevision_eq_ok.1 hr
  have hshift : ∃ db', shiftNotes offset db = .ok db' :=
    ⟨_, Except.bind_eq_ok.2 ⟨notes, Database.selectNotes_eq_ok.2 hn, rfl⟩⟩
  obtain ⟨db', hshift⟩ := hshift
  exact ⟨fun h => h.elim id fun h => absurd hshift (h db'), .inl⟩

theorem fails_shiftSnapshots {fault : Option StoreError} {offset : Int} {db db' : Database}
    (hdb' : shiftNotes offset db = .ok db') : Fails fault (shiftSnapshots offset db') ↔
      fault ≠ none ∨ db.noteSnapshots = none := by
  obtain ⟨notes, -, h⟩ := Except.bind_eq_ok.1 hdb'
  obtain rfl := Except.ok.inj h
  refine or_congr_right ?_
  simp only [shiftSnapshots, ne_eq, Except.bind_eq_ok, Database.selectSnapshots_eq_ok]
  constructor
  · intro h
    by_contra hs
    obtain ⟨snapshots, hs⟩ := Option.ne_none_iff_exists'.1 hs
    exact h _ ⟨snapshots, hs, rfl⟩
  · rintro hs db' ⟨snapshots, hs', -⟩
    rw [hs] at hs'
    cases hs'

omit [Chrono τ] in
theorem failed_rebaseContent : Failed (rebaseContent env m) s s' ↔
    RebaseFailure env m s.db s'.db ∧ s'.revisionEvents = s.revisionEvents := by
  have hrebases : ∀ r, currentRevision s.db = .ok r → (Rebases m s.db ↔ r ≤ m ∧ m ≠ 0) := fun r hr =>
    ⟨fun ⟨r', hr', h⟩ => by rw [hr] at hr'; exact Except.ok.inj hr' ▸ h, fun h => ⟨r, hr, h⟩⟩
  rw [rebaseContent, failed_bind, failed_query]
  simp only [exec_query_ok]
  constructor
  · rintro (⟨h, rfl⟩ | ⟨r, s₁, ⟨hf, hr, rfl⟩, h⟩)
    · exact ⟨.restoredRevision h, rfl⟩
    · split_ifs at h with hle
      · rw [failed_rebaseAllRevisions, fails_shiftNotes hr] at h
        obtain ⟨hm, ⟨hnotes, rfl⟩ | ⟨hf', hnotes, hs, hev⟩⟩ := h
        · exact ⟨.rebaseNotes hf ((hrebases r hr).2 ⟨hle, hm⟩) hnotes, rfl⟩
        · exact ⟨.rebaseSnapshots hf ((hrebases r hr).2 ⟨hle, hm⟩) hf' hnotes
            ((fails_shiftSnapshots hnotes).1 hs), hev⟩
      · exact absurd h not_failed_pure
  · obtain ⟨db', events⟩ := s'
    rintro ⟨h, rfl⟩
    cases h with
    | restoredRevision h => exact .inl ⟨h, rfl⟩
    | rebaseNotes hf hr hnotes =>
      obtain ⟨r, hr, hle, hm⟩ := hr
      refine .inr ⟨r, s, ⟨hf, hr, rfl⟩, ?_⟩
      rw [if_pos hle, failed_rebaseAllRevisions, fails_shiftNotes hr]
      exact ⟨hm, .inl ⟨hnotes, rfl⟩⟩
    | rebaseSnapshots hf hr hf' hnotes hs =>
      obtain ⟨r, hr, hle, hm⟩ := hr
      refine .inr ⟨r, s, ⟨hf, hr, rfl⟩, ?_⟩
      rw [if_pos hle, failed_rebaseAllRevisions]
      exact ⟨hm, .inr ⟨hf', hnotes, (fails_shiftSnapshots hnotes).2 hs, rfl⟩⟩

theorem failed_emitRestoreTombstones : Failed (emitRestoreTombstones env previous restored) s s' ↔
    if missingNoteIds previous restored = [] then
      Fails (env.fault .finalRevision) (currentRevision s.db) ∧ s' = s
    else Fails (env.fault .tombstones) (currentRevision s.db >>= fun revision =>
        storeTombstones env previous (missingNoteIds previous restored) revision s.db) ∧ s' = s ∨
      env.fault .tombstones = none ∧ Tombstoned env previous restored s.db s'.db ∧
        s'.revisionEvents = s.revisionEvents ∧ Fails (env.fault .finalRevision) (currentRevision s'.db) := by
  unfold emitRestoreTombstones
  by_cases hmissing : missingNoteIds previous restored = []
  · simp only [hmissing, ne_eq, not_true_eq_false, if_false, if_true]
    exact failed_query
  · simp only [hmissing, ne_eq, not_false_eq_true, if_true, if_false, failed_bind, failed_execute,
      failed_query, exec_execute_ok, Tombstoned, Except.bind_eq_ok]
    refine or_congr_right ⟨?_, ?_⟩
    · rintro ⟨_, s₁, ⟨hf, hstore, hev⟩, hrev, rfl⟩
      exact ⟨hf, hstore, hev, hrev⟩
    · rintro ⟨hf, hstore, hev, hrev⟩
      exact ⟨(), s', ⟨hf, hstore, hev⟩, hrev, rfl⟩

theorem Tombstoned.opened {db db' : Database} (h : Tombstoned env previous restored db db')
    (hmissing : missingNoteIds previous restored ≠ []) : Opened db ∧ Opened db' := by
  have hids : (tombstones env.restoreTime previous restored).map SyncChange.id =
      missingNoteIds previous restored := map_id_tombstones
  have hne : tombstones env.restoreTime previous restored ≠ [] := fun hnil => by
    rw [hnil] at hids
    exact hmissing hids.symm
  obtain ⟨revision, hrev, hstore⟩ := id h
  obtain ⟨notes, hn, -⟩ := currentRevision_eq_ok.1 hrev
  have hdb : Opened db := by
    refine opened_iff.2 ⟨by rw [hn]; exact nofun, fun hs => ?_, revision, hrev⟩
    rw [h.eq_of_no_snapshots hs] at h
    exact (h.tables hne).2 hs
  obtain ⟨db₁, hstore₁, hdb₁⟩ :=
    exists_storeTombstones env previous (missingNoteIds previous restored) revision hdb
  rw [hstore] at hstore₁
  exact ⟨hdb, Except.ok.inj hstore₁ ▸ hdb₁⟩

theorem fails_storeTombstones {fault : Option StoreError} {db : Database}
    (hmissing : missingNoteIds previous restored ≠ []) :
    Fails fault (currentRevision db >>= fun revision =>
        storeTombstones env previous (missingNoteIds previous restored) revision db) ↔
      fault ≠ none ∨ ¬ Opened db := by
  refine or_congr_right ⟨fun h hdb => ?_, fun h db' hdb' => ?_⟩
  · obtain ⟨revision, hrev⟩ := hdb.exists_currentRevision
    obtain ⟨db', hstore, -⟩ :=
      exists_storeTombstones env previous (missingNoteIds previous restored) revision hdb
    exact h db' (Except.bind_eq_ok.2 ⟨revision, hrev, hstore⟩)
  · have htombstoned : Tombstoned env previous restored db db' := Except.bind_eq_ok.1 hdb'
    exact h (htombstoned.opened hmissing).1

theorem failed_replaceMissing : Failed (replaceMissing env previous) s s' ↔
    ReplaceFailure env previous s.db s'.db ∧ s'.revisionEvents = s.revisionEvents := by
  have hload : Fails (env.fault .restoredNotes) (loadAllChanges s.db : Except _ (List (SyncChange τ))) ↔
      env.fault .restoredNotes ≠ none ∨ s.db.notes = none ∨
        ∃ id, (cellAt s.db id : Cell (SyncChange τ)) = .unreadable := by
    refine or_congr_right ?_
    rw [← not_exists, exists_loadAllChanges_iff, not_and_or, not_not, not_forall]
    simp only [not_not]
  rw [replaceMissing, failed_bind, failed_query, hload]
  simp only [exec_query_ok, failed_bind, failed_emitRestoreTombstones, not_failed_sendReplace, and_false,
    exists_false, or_false]
  constructor
  · rintro (⟨h, rfl⟩ | ⟨restored, s₁, ⟨hf, hrestored, rfl⟩, h⟩)
    · exact ⟨.restoredNotes h, rfl⟩
    · split_ifs at h with hmissing
      · obtain ⟨hrev, rfl⟩ := h
        exact ⟨.finalRevisionOnly hf hrestored hmissing hrev, rfl⟩
      · rw [fails_storeTombstones hmissing] at h
        rcases h with ⟨h, rfl⟩ | ⟨hf', hstore, hev, hrev⟩
        · exact ⟨.tombstones hf hrestored hmissing h, rfl⟩
        · obtain ⟨revision, hrev'⟩ := (hstore.opened hmissing).2.exists_currentRevision
          exact ⟨.finalRevision hf hrestored hmissing hf' hstore (hrev.resolve_right fun h => h _ hrev'), hev⟩
  · obtain ⟨db', events⟩ := s'
    rintro ⟨h, rfl⟩
    cases h with
    | restoredNotes h => exact .inl ⟨h, rfl⟩
    | tombstones hf hrestored hmissing h =>
      refine .inr ⟨_, s, ⟨hf, hrestored, rfl⟩, ?_⟩
      rw [if_neg hmissing, fails_storeTombstones hmissing]
      exact .inl ⟨h, rfl⟩
    | finalRevision hf hrestored hmissing hf' hstore hrev =>
      refine .inr ⟨_, s, ⟨hf, hrestored, rfl⟩, ?_⟩
      rw [if_neg hmissing]
      exact .inr ⟨hf', hstore, rfl, .inl hrev⟩
    | finalRevisionOnly hf hrestored hmissing hrev =>
      refine .inr ⟨_, s, ⟨hf, hrestored, rfl⟩, ?_⟩
      rw [if_pos hmissing]
      exact ⟨hrev, rfl⟩

theorem failed_restoreFrom_of_copied (hc : Copied env.fault s.db file m previous content) :
    Failed (SyncStore.restoreFrom env file) s s' ↔
      LateFailure env s.db file s'.db ∧ s'.revisionEvents = s.revisionEvents := by
  have hcopy : (copyFrom (env.fault .copy) file).exec s = (.ok (), ⟨content, s.revisionEvents⟩) :=
    exec_copyFrom_ok.2 ⟨hc.calm.2.2.2, hc.file, rfl⟩
  have hlock : (check (env.fault .lock)).exec s = (.ok (), s) := exec_check_ok.2 ⟨hc.calm.1, rfl⟩
  rw [restoreFrom_eq, failed_bind_of_ok hlock,
    failed_bind_of_ok (exec_query_ok.2 ⟨hc.calm.2.1, hc.revision, rfl⟩),
    failed_bind_of_ok (exec_query_ok.2 ⟨hc.calm.2.2.1, hc.notes, rfl⟩), failed_bind_of_ok hcopy,
    failed_bind, failed_rebaseContent]
  simp only [exec_rebaseContent_ok, failed_replaceMissing]
  constructor
  · rintro (⟨h, hev⟩ | ⟨_, s₁, ⟨⟨hf, hfaults⟩, hrebased, hev⟩, h, hev'⟩)
    · exact ⟨.rebase hc h, hev⟩
    · exact ⟨.replace hc hf hfaults hrebased h, hev'.trans hev⟩
  · rintro ⟨hlate, hev⟩
    rcases hlate with ⟨hc', h⟩ | @⟨_, _, _, rebased, _, hc', hf, hfaults, hrebased, h⟩
    · obtain ⟨rfl, rfl, rfl⟩ := hc.unique hc'
      exact .inl ⟨h, hev⟩
    · obtain ⟨rfl, rfl, rfl⟩ := hc.unique hc'
      exact .inr ⟨(), ⟨rebased, s.revisionEvents⟩, ⟨⟨hf, hfaults⟩, hrebased, rfl⟩, h, hev⟩

theorem LateFailure.failed {db : Database} (h : LateFailure env s.db file db) :
    Failed (SyncStore.restoreFrom env file) s ⟨db, s.revisionEvents⟩ := by
  obtain ⟨m, previous, content, hc⟩ : ∃ m previous content, Copied env.fault s.db file m previous content := by
    cases h with
    | rebase hc _ => exact ⟨_, _, _, hc⟩
    | replace hc _ _ _ _ => exact ⟨_, _, _, hc⟩
  exact (failed_restoreFrom_of_copied hc).2 ⟨h, rfl⟩

theorem failed_restoreFrom (h : Failed (SyncStore.restoreFrom env file) s s') :
    s' = s ∨ ∃ (m : Nat) (previous : List (SyncChange τ)) (content : Database),
      Copied env.fault s.db file m previous content := by
  rw [restoreFrom_eq] at h
  simp only [failed_bind, failed_check, failed_query, exec_check_ok, exec_query_ok, exec_copyFrom_ok] at h
  rcases h with ⟨-, rfl⟩ | ⟨_, s, ⟨hl, rfl⟩, ⟨-, rfl⟩ | ⟨m, s, ⟨hr, hm, rfl⟩, ⟨-, rfl⟩ | ⟨previous, s,
    ⟨hn, hload, rfl⟩, h | ⟨_, s₁, ⟨hc, hfile, -⟩, -⟩⟩⟩⟩
  · exact .inl rfl
  · exact .inl rfl
  · exact .inl rfl
  · exact .inl (failed_execute.1 h).2
  · exact .inr ⟨m, previous, s₁.db, ⟨hl, hr, hn, hc⟩, hm, hload, hfile⟩

theorem LateFailure.underway {db : Database} (h : LateFailure env s.db file db)
    (hc : Copied env.fault s.db file m previous content) : Underway env m previous content db := by
  rcases h with ⟨hc', h⟩ | ⟨hc', -, -, hrebased, h⟩ <;> obtain ⟨rfl, rfl, rfl⟩ := hc.unique hc'
  · cases h with
    | restoredRevision => exact .copied
    | rebaseNotes => exact .copied
    | rebaseSnapshots _ hrebases _ hshift _ =>
      obtain ⟨notes, hnotes, hdb⟩ := Except.bind_eq_ok.1 hshift
      obtain rfl := Except.ok.inj hdb
      exact .notesShifted hrebases (Database.selectNotes_eq_ok.1 hnotes)
  · cases h with
    | restoredNotes => exact .rebased hrebased
    | tombstones => exact .rebased hrebased
    | finalRevision _ hload _ _ hstore => exact .tombstoned hrebased hload hstore
    | finalRevisionOnly => exact .rebased hrebased

/-- A restore changes nothing or leaves the content of its file, as far as it has been worked up. -/
theorem underway_of_exec {result : Except StoreError Unit} (h : (SyncStore.restoreFrom env file).exec s = (result, s')) :
    s' = s ∨ ∃ m previous content, file = .database content ∧ currentRevision s.db = .ok m ∧
      loadAllChanges s.db = .ok previous ∧ Underway env m previous content s'.db := by
  rcases result with e | _
  · rcases failed_restoreFrom ⟨e, h⟩ with hs | ⟨m, previous, content, hc⟩
    · exact .inl hs
    · obtain ⟨hlate, -⟩ := (failed_restoreFrom_of_copied hc).1 ⟨e, h⟩
      exact .inr ⟨m, previous, content, hc.file, hc.revision, hc.notes, hlate.underway hc⟩
  · obtain ⟨content, hfile, hrestored, -⟩ := exec_restoreFrom_ok h
    cases hrestored with
    | intro hrevision hload hrebased hload' hstore _ =>
      exact .inr ⟨_, _, content, hfile, hrevision, hload, .tombstoned hrebased hload' hstore⟩

end Failed

end FloralSync

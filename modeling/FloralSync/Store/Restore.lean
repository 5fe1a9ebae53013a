import FloralSync.Store.Push

/-!
# What a restore does

`Restored` is the effect of a restore that succeeds, on the two databases alone: the file's content is
moved past the live revision if its own is not higher (`Rebased`), and a tombstone is stored for each
live note that is missing from it.
-/

namespace FloralSync

open Replication StoreM

variable {τ : Type} [Chrono τ]

section Missing

variable {previous restored : List (SyncChange τ)} {restoreTime : τ} {c : SyncChange τ} {id : String}

/-- The tombstones that a restore stores, in the order in which it does. -/
def tombstones (restoreTime : τ) (previous restored : List (SyncChange τ)) : List (SyncChange τ) :=
  (missingNoteIds previous restored).filterMap fun id =>
    (previous.find? (·.id = id)).map (tombstone restoreTime)

theorem inRange_tombstone (hc : c.InRange) (ht : FourDigitYear restoreTime) :
    (tombstone restoreTime c).InRange := by
  have hmax : ∀ t u : τ, FourDigitYear t → FourDigitYear u → FourDigitYear (max t u) := by
    intro t u ht hu
    rcases max_choice t u with h | h <;> rw [h] <;> assumption
  have hchange : FourDigitYear (changeTime c) := by
    unfold changeTime
    cases hd : c.deletedAt with
    | none => exact hc.updatedAt
    | some d => exact hc.deletedAt d hd
  refine ⟨hc.createdAt, hmax _ _ hc.updatedAt (hmax _ _ hchange ht), ?_⟩
  rintro _ ⟨⟩
  exact hmax _ _ hchange ht

@[simp] theorem tombstone_id (c : SyncChange τ) : (tombstone restoreTime c).id = c.id := rfl

omit [Chrono τ] in
theorem mem_missingNoteIds :
    id ∈ missingNoteIds previous restored ↔ (∃ p ∈ previous, p.id = id) ∧ ∀ r ∈ restored, r.id ≠ id := by
  simp [missingNoteIds]

omit [Chrono τ] in
theorem missingNoteIds_pairwise (hnd : (previous.map SyncChange.id).Nodup) :
    (missingNoteIds previous restored).Pairwise (· < ·) := by
  have hsorted := List.pairwise_insertionSort (· ≤ ·)
    ((previous.map (·.id)).filter fun id => !restored.any (·.id = id))
  have hnodup : (missingNoteIds previous restored).Nodup :=
    (List.perm_insertionSort _ _).nodup_iff.2 (hnd.filter _)
  exact (hsorted.and hnodup).imp fun ⟨hle, hne⟩ => lt_of_le_of_ne hle hne

theorem map_id_tombstones :
    (tombstones restoreTime previous restored).map SyncChange.id = missingNoteIds previous restored := by
  have hfound : ∀ id ∈ missingNoteIds previous restored,
      ((previous.find? (·.id = id)).map (tombstone restoreTime)).map SyncChange.id = some id := by
    intro id hid
    obtain ⟨⟨p, hp, rfl⟩, -⟩ := mem_missingNoteIds.1 hid
    cases hfind : previous.find? (·.id = p.id) with
    | none => simp at hfind; exact absurd rfl (hfind p hp)
    | some q => simpa using List.find?_some hfind
  rw [tombstones, List.map_filterMap, List.filterMap_congr hfound, List.filterMap_some]

theorem mem_tombstones (hnd : (previous.map SyncChange.id).Nodup) :
    c ∈ tombstones restoreTime previous restored ↔
      ∃ p ∈ previous, (∀ r ∈ restored, r.id ≠ p.id) ∧ tombstone restoreTime p = c := by
  have hfind : ∀ p ∈ previous, previous.find? (·.id = p.id) = some p := fun p hp =>
    Keyed.lookup_key (t := ⟨previous, hnd⟩) hp
  rw [tombstones, List.mem_filterMap]
  constructor
  · rintro ⟨id, hid, hc⟩
    obtain ⟨⟨p, hp, rfl⟩, hr⟩ := mem_missingNoteIds.1 hid
    rw [hfind p hp] at hc
    exact ⟨p, hp, hr, Option.some.inj hc⟩
  · rintro ⟨p, hp, hr, rfl⟩
    exact ⟨p.id, mem_missingNoteIds.2 ⟨⟨p, hp, rfl⟩, hr⟩, by rw [hfind p hp]; rfl⟩

end Missing

section Load

variable {db : Database} {changes : List (SyncChange τ)}

theorem mem_of_loadAllChanges (h : loadAllChanges db = .ok changes) {c : SyncChange τ} :
    c ∈ changes ↔ cellAt db c.id = .holds c := by
  obtain ⟨notes, hn, hchanges⟩ := loadAllChanges_eq_ok.1 h
  rw [List.mem_of_map_eq_some hchanges, cellAt_eq_holds, noteAt_eq_lookup hn]
  constructor
  · rintro ⟨row, hrow, hdec⟩
    rw [show c.id = row.id from ChangeRow.id_of_decode hdec]
    exact ⟨row, Keyed.lookup_key (mem_sortedRows.1 hrow), hdec⟩
  · rintro ⟨row, hrow, hdec⟩
    exact ⟨row, mem_sortedRows.2 (Keyed.lookup_eq_some.1 hrow).1, hdec⟩

theorem map_id_of_loadAllChanges (h : loadAllChanges db = .ok changes) : ∃ notes, db.notes = some notes ∧
    changes.map SyncChange.id = (sortedRows notes).map NoteRow.id := by
  obtain ⟨notes, hn, hchanges⟩ := loadAllChanges_eq_ok.1 h
  exact ⟨notes, hn, List.map_eq_of_map_eq_some hchanges fun row _ c hdec => ChangeRow.id_of_decode hdec⟩

theorem nodup_of_loadAllChanges (h : loadAllChanges db = .ok changes) :
    (changes.map SyncChange.id).Nodup := by
  obtain ⟨notes, -, hids⟩ := map_id_of_loadAllChanges h
  rw [hids]
  exact ((List.perm_insertionSort _ _).map _).nodup_iff.2 notes.nodup

theorem forall_id_ne_iff (h : loadAllChanges db = .ok changes) {id : String} :
    (∀ c ∈ changes, c.id ≠ id) ↔ (cellAt db id : Cell (SyncChange τ)) = .absent := by
  obtain ⟨notes, hn, hids⟩ := map_id_of_loadAllChanges h
  constructor
  · intro hne
    refine cellAt_of_lookup_none hn (Keyed.lookup_eq_none.2 fun row hrow hid => ?_)
    have hmem : row.id ∈ changes.map SyncChange.id := hids ▸ List.mem_map_of_mem (mem_sortedRows.2 hrow)
    obtain ⟨c, hc, hid'⟩ := List.mem_map.1 hmem
    exact hne c hc (hid'.trans hid)
  · rintro hcell c hc rfl
    rw [(mem_of_loadAllChanges h).1 hc] at hcell
    cases hcell

end Load

/-! ### Steps of a restore -/

/-- Both tables with their revisions moved by `offset`. -/
def shifted (offset : Int) (notes : NotesTable) (snapshots : SnapshotTable) : Database :=
  ⟨some (notes.map (.shift offset) (NoteRow.id_shift offset)), some (snapshots.mapRevisions (· + offset))⟩

/-- The file's content after the rebase. -/
def Rebased (previousRevision : Nat) (content db : Database) : Prop :=
  ∃ restoredRevision, currentRevision content = .ok restoredRevision ∧
    if restoredRevision ≤ previousRevision ∧ previousRevision ≠ 0 then
      ∃ notes snapshots, content = ⟨some notes, some snapshots⟩ ∧
        db = shifted (asI64 previousRevision) notes snapshots
    else db = content

theorem Rebased.snapshotCount_eq {previousRevision : Nat} {content db : Database}
    (h : Rebased previousRevision content db) : db.snapshotCount = content.snapshotCount := by
  obtain ⟨_, -, h⟩ := h
  split_ifs at h
  · obtain ⟨notes, snapshots, rfl, rfl⟩ := h
    simp [shifted, Database.snapshotCount, SnapshotTable.mapRevisions]
  · rw [h]

theorem Rebased.noteAt_eq {previousRevision : Nat} {content db : Database}
    (h : Rebased previousRevision content db) :
    ∃ offset, ∀ id, noteAt db id = (noteAt content id).map (NoteRow.shift offset) := by
  obtain ⟨_, -, h⟩ := h
  split_ifs at h
  · obtain ⟨notes, snapshots, rfl, rfl⟩ := h
    exact ⟨asI64 previousRevision, fun id => Keyed.lookup_map notes _ _ id⟩
  · refine ⟨0, fun id => ?_⟩
    rw [h]
    cases noteAt content id <;> simp [NoteRow.shift]

theorem Rebased.cellAt_eq {previousRevision : Nat} {content db : Database}
    (h : Rebased previousRevision content db) (id : String) :
    (cellAt db id : Cell (SyncChange τ)) = cellAt content id := by
  obtain ⟨_, h⟩ := h.noteAt_eq
  refine cellAt_congr ?_
  rw [h, Option.map_map]
  rfl

/-- The tombstones have been stored on top of `db`. -/
def Tombstoned (env : RestoreEnv τ) (previous restored : List (SyncChange τ)) (db db' : Database) : Prop :=
  ∃ revision, currentRevision db = .ok revision ∧
    storeTombstones env previous (missingNoteIds previous restored) revision db = .ok db'

/-- What each stored tombstone keeps, storing all of them keeps. -/
theorem storeTombstones_induct {P : List (SyncChange τ) → Nat → Database → Prop} {env : RestoreEnv τ}
    {previous : List (SyncChange τ)}
    (hstep : ∀ done c n notes snapshots, P done n ⟨some notes, some snapshots⟩ →
      P (done ++ [c]) (n + 1) (.withChange env.now c (n + 1) notes snapshots))
    {ids : List String} {done : List (SyncChange τ)} {n : Nat} {db db' : Database} (h₀ : P done n db)
    (h : storeTombstones env previous ids n db = .ok db') :
    ∃ n', P (done ++ ids.filterMap fun id =>
      (previous.find? (·.id = id)).map (tombstone env.restoreTime)) n' db' := by
  induction ids generalizing done n db with
  | nil =>
    obtain rfl := Except.ok.inj h
    exact ⟨n, by simpa using h₀⟩
  | cons id ids ih =>
    cases hfind : previous.find? (·.id = id) with
    | none =>
      simp only [storeTombstones, hfind] at h
      rw [List.filterMap_cons_none (by rw [hfind]; rfl)]
      exact ih h₀ h
    | some note =>
      simp only [storeTombstones, hfind] at h
      obtain ⟨db₁, hstore, h⟩ := Except.bind_eq_ok.1 h
      obtain ⟨notes, snapshots, rfl, rfl⟩ := storeChange_eq_ok.1 hstore
      rw [List.filterMap_cons_some (by rw [hfind]; rfl), List.append_cons]
      exact ih (hstep _ _ _ _ _ h₀) h

theorem Tombstoned.induct {P : List (SyncChange τ) → Nat → Database → Prop} {env : RestoreEnv τ}
    {previous restored : List (SyncChange τ)} {db db' : Database}
    (h₀ : ∀ revision, currentRevision db = .ok revision → P [] revision db)
    (hstep : ∀ done c n notes snapshots, P done n ⟨some notes, some snapshots⟩ →
      P (done ++ [c]) (n + 1) (.withChange env.now c (n + 1) notes snapshots))
    (h : Tombstoned env previous restored db db') :
    ∃ n, P (tombstones env.restoreTime previous restored) n db' := by
  obtain ⟨revision, hrev, hstore⟩ := h
  exact storeTombstones_induct hstep (h₀ revision hrev) hstore

theorem Tombstoned.snapshotCount_eq {env : RestoreEnv τ} {previous restored : List (SyncChange τ)}
    {db db' : Database} (h : Tombstoned env previous restored db db') :
    db'.snapshotCount = db.snapshotCount + (tombstones env.restoreTime previous restored).length := by
  obtain ⟨_, hcount⟩ := h.induct
    (P := fun done _ db₁ => db₁.snapshotCount = db.snapshotCount + done.length) (fun _ _ => rfl)
    (fun done c n notes snapshots hP => by
      rw [snapshotCount_withChange, hP, List.length_append]; rfl)
  exact hcount

section Tombstoned

variable {env : RestoreEnv τ} {previous restored : List (SyncChange τ)} {db db' : Database}

/-- The tombstones are in the table, and nothing else has changed there. -/
theorem Tombstoned.noteAt_eq (h : Tombstoned env previous restored db db')
    (hnd : (previous.map SyncChange.id).Nodup) :
    (∀ c ∈ tombstones env.restoreTime previous restored, ∃ r, noteAt db' c.id = some ⟨.ofChange c, r⟩) ∧
    ∀ id, (∀ c ∈ tombstones env.restoreTime previous restored, c.id ≠ id) →
      noteAt db' id = noteAt db id := by
  obtain ⟨_, hdone⟩ := h.induct (P := fun done _ db₁ => (done.map SyncChange.id).Nodup →
      (∀ c ∈ done, ∃ r, noteAt db₁ c.id = some ⟨.ofChange c, r⟩) ∧
      ∀ id, (∀ c ∈ done, c.id ≠ id) → noteAt db₁ id = noteAt db id)
    (fun _ _ _ => ⟨nofun, fun _ _ => rfl⟩)
    (fun done c n notes snapshots hP hnd => by
      rw [List.map_append, List.map_singleton, List.nodup_append_comm, List.singleton_append] at hnd
      obtain ⟨hc, hnd⟩ := List.nodup_cons.1 hnd
      obtain ⟨hdone, hrest⟩ := hP hnd
      refine ⟨fun c' hc' => ?_, fun id hid => ?_⟩
      · rcases List.mem_append.1 hc' with hc' | hc'
        · have hne : c.id ≠ c'.id := fun heq => hc (heq ▸ List.mem_map_of_mem hc')
          rw [noteAt_withChange, if_neg hne]
          exact hdone c' hc'
        · rw [List.mem_singleton.1 hc', noteAt_withChange, if_pos rfl]
          exact ⟨_, rfl⟩
      · rw [noteAt_withChange, if_neg (hid c (by simp))]
        exact hrest id fun c' hc' => hid c' (by simp [hc']))
  refine hdone ?_
  rw [map_id_tombstones]
  exact (missingNoteIds_pairwise hnd).imp ne_of_lt

theorem Tombstoned.tables (h : Tombstoned env previous restored db db')
    (hne : tombstones env.restoreTime previous restored ≠ []) :
    db'.notes ≠ none ∧ db'.noteSnapshots ≠ none := by
  obtain ⟨_, hdone⟩ := h.induct (P := fun done _ db => done ≠ [] → db.notes ≠ none ∧ db.noteSnapshots ≠ none)
    (fun _ _ h => absurd rfl h) (fun _ _ _ _ _ _ _ => ⟨nofun, nofun⟩)
  exact hdone hne

end Tombstoned

inductive Restored (env : RestoreEnv τ) (live content db' : Database) : Prop
  | intro {previousRevision revision : Nat} {previous restored : List (SyncChange τ)} {rebased : Database} :
    currentRevision live = .ok previousRevision → loadAllChanges live = .ok previous →
    Rebased previousRevision content rebased → loadAllChanges rebased = .ok restored →
    Tombstoned env previous restored rebased db' → currentRevision db' = .ok revision →
    Restored env live content db'

section Restored

variable {env : RestoreEnv τ} {live content db' : Database} {id : String}

/-- The notes of the file read as in the file. -/
theorem Restored.cellAt_of_file (h : Restored env live content db') (hid : noteAt content id ≠ none) :
    (cellAt db' id : Cell (SyncChange τ)) = cellAt content id := by
  cases h with
  | intro _ hload hrebased hload' hstore _ =>
    obtain ⟨-, hrest⟩ := hstore.noteAt_eq (nodup_of_loadAllChanges hload)
    rw [← hrebased.cellAt_eq]
    refine cellAt_congr (congrArg _ (hrest id fun c hc heq => ?_))
    obtain ⟨p, -, hmissing, rfl⟩ := (mem_tombstones (nodup_of_loadAllChanges hload)).1 hc
    rw [tombstone_id] at heq
    rw [heq, forall_id_ne_iff hload', hrebased.cellAt_eq, cellAt_eq_absent] at hmissing
    exact hid hmissing

/-- A live note that is missing from the file becomes a tombstone. -/
theorem Restored.noteAt_of_missing (h : Restored env live content db') {p : SyncChange τ}
    (hp : cellAt live p.id = .holds p) (hid : noteAt content p.id = none) :
    Opened db' ∧ ∃ r, noteAt db' p.id = some ⟨.ofChange (tombstone env.restoreTime p), r⟩ := by
  cases h with
  | @intro _ revision _ _ _ _ hload hrebased hload' hstore hrev =>
    have hnd := nodup_of_loadAllChanges hload
    have hmem : tombstone env.restoreTime p ∈ tombstones env.restoreTime _ _ :=
      (mem_tombstones hnd).2 ⟨p, (mem_of_loadAllChanges hload).2 hp, (forall_id_ne_iff hload').2 (by
        rw [hrebased.cellAt_eq, cellAt_eq_absent, hid]), rfl⟩
    obtain ⟨hnotes, hsnapshots⟩ := hstore.tables (List.ne_nil_of_mem hmem)
    exact ⟨opened_iff.2 ⟨hnotes, hsnapshots, revision, hrev⟩, (hstore.noteAt_eq hnd).1 _ hmem⟩

end Restored

section Exec

variable {env : RestoreEnv τ} {s s' : SyncStore} {previousRevision revision : Nat}
  {previous restored : List (SyncChange τ)}

theorem shift_eq_ok {offset : Int} {db db' : Database} :
    (shiftNotes offset db >>= shiftSnapshots offset) = .ok db' ↔ ∃ notes snapshots,
      db = ⟨some notes, some snapshots⟩ ∧ db' = shifted offset notes snapshots := by
  obtain ⟨notes, snapshots⟩ := db
  simp only [shiftNotes, shiftSnapshots, Except.bind_eq_ok, Database.selectNotes_eq_ok,
    Database.selectSnapshots_eq_ok]
  constructor
  · rintro ⟨_, ⟨notes, rfl, h⟩, snapshots, hs, h'⟩
    obtain rfl := Except.ok.inj h
    obtain rfl := Except.ok.inj h'
    dsimp only at hs
    subst hs
    exact ⟨notes, snapshots, rfl, rfl⟩
  · rintro ⟨notes, snapshots, h, rfl⟩
    obtain ⟨rfl, rfl⟩ := Database.mk.inj h
    exact ⟨_, ⟨notes, rfl, rfl⟩, snapshots, rfl, rfl⟩

omit [Chrono τ] in
theorem exec_rebaseAllRevisions_ok {u : Unit} :
    (rebaseAllRevisions env previousRevision).exec s = (.ok u, s') ↔
    if previousRevision ≠ 0 then env.fault .rebaseNotes = none ∧ env.fault .rebaseSnapshots = none ∧
      (∃ notes snapshots, s.db = ⟨some notes, some snapshots⟩ ∧
        s'.db = shifted (asI64 previousRevision) notes snapshots) ∧ s'.revisionEvents = s.revisionEvents
    else s' = s := by
  unfold rebaseAllRevisions
  split_ifs with h
  · simp only [exec_bind_ok, exec_execute_ok, ← shift_eq_ok, Except.bind_eq_ok]
    constructor
    · rintro ⟨_, s₁, ⟨hf, hnotes, hev⟩, hf', hsnapshots, hev'⟩
      exact ⟨hf, hf', ⟨s₁.db, hnotes, hsnapshots⟩, hev'.trans hev⟩
    · rintro ⟨hf, hf', ⟨db₁, hnotes, hsnapshots⟩, hev⟩
      exact ⟨(), ⟨db₁, s.revisionEvents⟩, ⟨hf, hnotes, rfl⟩, hf', hsnapshots, hev⟩
  · exact ⟨fun h => (Prod.mk.inj h).2.symm, fun h => by rw [h]; rfl⟩

theorem exec_emitRestoreTombstones_ok :
    (emitRestoreTombstones env previous restored).exec s = (.ok revision, s') ↔
    (missingNoteIds previous restored ≠ [] → env.fault .tombstones = none) ∧
      env.fault .finalRevision = none ∧ Tombstoned env previous restored s.db s'.db ∧
      currentRevision s'.db = .ok revision ∧ s'.revisionEvents = s.revisionEvents := by
  unfold emitRestoreTombstones Tombstoned
  by_cases hmissing : missingNoteIds previous restored = []
  · simp only [hmissing, ne_eq, not_true_eq_false, if_false, IsEmpty.forall_iff, true_and, exec_query_ok]
    constructor
    · rintro ⟨hf, hrev, rfl⟩
      exact ⟨hf, ⟨revision, hrev, rfl⟩, hrev, rfl⟩
    · rintro ⟨hf, ⟨_, -, hdb⟩, hrev, hev⟩
      obtain rfl : s' = s := SyncStore.ext (Except.ok.inj hdb).symm hev
      exact ⟨hf, hrev, rfl⟩
  · simp only [hmissing, ne_eq, not_false_eq_true, if_true, forall_true_left, exec_bind_ok,
      exec_execute_ok, exec_query_ok, Except.bind_eq_ok]
    constructor
    · rintro ⟨_, s₁, ⟨hf, hstore, hev⟩, hf', hrev, rfl⟩
      exact ⟨hf, hf', hstore, hrev, hev⟩
    · rintro ⟨hf, hf', hstore, hrev, hev⟩
      exact ⟨(), s', ⟨hf, hstore, hev⟩, hf', hrev, rfl⟩

omit [Chrono τ] in
theorem exec_copyFrom_ok {fault : Option StoreError} {file : SourceFile} {u : Unit} :
    (copyFrom fault file).exec s = (.ok u, s') ↔ fault = none ∧ file = .database s'.db ∧
      s'.revisionEvents = s.revisionEvents := by
  unfold copyFrom
  rw [exec_execute_ok]
  refine and_congr_right fun _ => and_congr_left fun _ => ?_
  cases file with
  | notADatabase => exact iff_of_false nofun nofun
  | database content =>
    exact ⟨fun h => congrArg _ (Except.ok.inj h), fun h => congrArg _ (SourceFile.database.inj h)⟩

/-- What a restore does to the content that it has copied: the rebase. -/
def rebaseContent (env : RestoreEnv τ) (previousRevision : Nat) : StoreM Unit := do
  let restoredRevision ← query (env.fault .restoredRevision) currentRevision
  if restoredRevision ≤ previousRevision then
    rebaseAllRevisions env previousRevision

/-- What a restore does after the rebase. -/
def replaceMissing (env : RestoreEnv τ) (previous : List (SyncChange τ)) : StoreM Unit := do
  let restored ← query (env.fault .restoredNotes) loadAllChanges
  let revision ← emitRestoreTombstones env previous restored
  sendReplace revision

theorem restoreFrom_eq {file : SourceFile} : SyncStore.restoreFrom env file = (do
    check (env.fault .lock)
    let previousRevision ← query (env.fault .previousRevision) currentRevision
    let previous ← query (env.fault .previousNotes) loadAllChanges
    copyFrom (env.fault .copy) file
    rebaseContent env previousRevision
    replaceMissing env previous) := by
  simp only [SyncStore.restoreFrom, rebaseContent, replaceMissing, bind_assoc]
  refine bind_congr fun _ => bind_congr fun m => bind_congr fun previous => bind_congr fun _ =>
    bind_congr fun r => ?_
  split_ifs <;> rfl

/-- The rebase takes place. -/
def Rebases (previousRevision : Nat) (content : Database) : Prop :=
  ∃ r, currentRevision content = .ok r ∧ r ≤ previousRevision ∧ previousRevision ≠ 0

omit [Chrono τ] in
theorem exec_rebaseContent_ok {u : Unit} : (rebaseContent env previousRevision).exec s = (.ok u, s') ↔
    (env.fault .restoredRevision = none ∧ (Rebases previousRevision s.db → env.fault .rebaseNotes = none ∧
      env.fault .rebaseSnapshots = none)) ∧ Rebased previousRevision s.db s'.db ∧
      s'.revisionEvents = s.revisionEvents := by
  simp only [rebaseContent, exec_bind_ok, exec_query_ok]
  constructor
  · rintro ⟨r, s, ⟨hf, hr, rfl⟩, h⟩
    by_cases hm : r ≤ previousRevision ∧ previousRevision ≠ 0
    · rw [if_pos hm.1, exec_rebaseAllRevisions_ok, if_pos hm.2] at h
      obtain ⟨hf', hf'', hdb, hev⟩ := h
      exact ⟨⟨hf, fun _ => ⟨hf', hf''⟩⟩, ⟨r, hr, by rwa [if_pos hm]⟩, hev⟩
    · have hsame : s' = s := by
        split_ifs at h with hle
        · rw [exec_rebaseAllRevisions_ok, if_neg fun hne => hm ⟨hle, hne⟩] at h
          exact h
        · exact (Prod.mk.inj h).2.symm
      subst hsame
      refine ⟨⟨hf, ?_⟩, ⟨r, hr, by rw [if_neg hm]⟩, rfl⟩
      rintro ⟨r', hr', hm'⟩
      rw [hr] at hr'
      obtain rfl := Except.ok.inj hr'
      exact absurd hm' hm
  · rintro ⟨⟨hf, hfaults⟩, ⟨r, hr, hdb⟩, hev⟩
    refine ⟨r, s, ⟨hf, hr, rfl⟩, ?_⟩
    by_cases hm : r ≤ previousRevision ∧ previousRevision ≠ 0
    · rw [if_pos hm] at hdb
      rw [if_pos hm.1, exec_rebaseAllRevisions_ok, if_pos hm.2]
      obtain ⟨hf', hf''⟩ := hfaults ⟨r, hr, hm⟩
      exact ⟨hf', hf'', hdb, hev⟩
    · rw [if_neg hm] at hdb
      obtain rfl : s' = s := SyncStore.ext hdb hev
      split_ifs with hle
      · rw [exec_rebaseAllRevisions_ok, if_neg fun hne => hm ⟨hle, hne⟩]
      · rfl

theorem exec_replaceMissing_ok {u : Unit} : (replaceMissing env previous).exec s = (.ok u, s') ↔
    env.fault .restoredNotes = none ∧ env.fault .finalRevision = none ∧
      ∃ restored, loadAllChanges s.db = .ok restored ∧
        (missingNoteIds previous restored ≠ [] → env.fault .tombstones = none) ∧
        Tombstoned env previous restored s.db s'.db ∧ currentRevision s'.db = .ok s'.revisionEvents := by
  simp only [replaceMissing, exec_bind_ok, exec_query_ok, exec_emitRestoreTombstones_ok, exec_sendReplace]
  constructor
  · rintro ⟨restored, _, ⟨hf, hload, rfl⟩, revision, s₁, ⟨hf', hf'', hstore, hrev, -⟩, h⟩
    obtain rfl := (Prod.mk.inj h).2
    exact ⟨hf, hf'', restored, hload, hf', hstore, hrev⟩
  · rintro ⟨hf, hf'', restored, hload, hf', hstore, hrev⟩
    exact ⟨restored, s, ⟨hf, hload, rfl⟩, s'.revisionEvents, ⟨s'.db, s.revisionEvents⟩,
      ⟨hf', hf'', hstore, hrev, rfl⟩, rfl⟩

theorem exec_restoreFrom_ok {file : SourceFile} {u : Unit}
    (h : (SyncStore.restoreFrom env file).exec s = (.ok u, s')) : ∃ content, file = .database content ∧
      Restored env s.db content s'.db ∧ currentRevision s'.db = .ok s'.revisionEvents := by
  simp only [restoreFrom_eq, exec_bind_ok, exec_check_ok, exec_query_ok, exec_copyFrom_ok,
    exec_rebaseContent_ok, exec_replaceMissing_ok] at h
  obtain ⟨_, _, ⟨-, rfl⟩, previousRevision, _, ⟨-, hprevious, rfl⟩, previous, _, ⟨-, hload, rfl⟩, _, s₁,
    ⟨-, rfl, -⟩, _, s₂, ⟨-, hrebased, -⟩, -, -, restored, hload', -, hstore, hrev⟩ := h
  exact ⟨_, rfl, .intro hprevious hload hrebased hload' hstore hrev, hrev⟩

/-- When the environment fails nothing, a restore does what it can. -/
theorem exec_restoreFrom_of_calm {content db' : Database} (hcalm : ∀ step, env.fault step = none)
    (h : Restored env s.db content db') :
    ∃ revision, (SyncStore.restoreFrom env (.database content)).exec s = (.ok (), ⟨db', revision⟩) := by
  cases h with
  | @intro previousRevision revision previous restored rebased hprevious hload hrebased hload' hstore hrev =>
    refine ⟨revision, ?_⟩
    simp only [restoreFrom_eq, exec_bind_ok, exec_check_ok, exec_query_ok, exec_copyFrom_ok,
      exec_rebaseContent_ok, exec_replaceMissing_ok, hcalm, true_and]
    exact ⟨(), s, rfl, previousRevision, s, ⟨hprevious, rfl⟩, previous, s, ⟨hload, rfl⟩, (),
      ⟨content, s.revisionEvents⟩, ⟨rfl, rfl⟩, (), ⟨rebased, s.revisionEvents⟩,
      ⟨fun _ => trivial, hrebased, rfl⟩, restored, hload', fun _ => trivial, hstore, hrev⟩

end Exec
end FloralSync

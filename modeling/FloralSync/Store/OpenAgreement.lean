import FloralSync.Store.Restore
import FloralSync.Store.Reachable

/-!
# Restoring a file and opening it

Opening a file creates the tables that it lacks and the snapshots that its notes lack; a restore copies
it as it is. So the two ways of bringing a file into service agree exactly on the files that have all of
this already and can be read (`RestorableAsOpened`).
-/

namespace FloralSync

open Replication StoreM

variable {τ : Type} [Chrono τ]

/-- Every note has a snapshot at its revision. -/
def HasSnapshots (db : Database) : Prop :=
  ∀ notes ∈ db.notes, ∀ row ∈ notes.rows, ∃ snapshots ∈ db.noteSnapshots,
    ∃ s ∈ snapshots.rows, s.noteId = row.id ∧ s.revision = row.revision

instance (db : Database) : Decidable (HasSnapshots db) :=
  inferInstanceAs (Decidable (∀ notes ∈ db.notes, ∀ row ∈ notes.rows, ∃ snapshots ∈ db.noteSnapshots,
    ∃ s ∈ snapshots.rows, s.noteId = row.id ∧ s.revision = row.revision))

/-- All notes can be read back, and so can the current revision. -/
def ReadableNotes (τ : Type) [Chrono τ] (db : Database) : Prop :=
  (∃ revision, currentRevision db = .ok revision) ∧
    ∀ id, (cellAt db id : Cell (SyncChange τ)) ≠ .unreadable

/-- Restoring `content` over `live` succeeds, leaves every note with a snapshot, and serves each push
that the store `o`, which was opened on `content`, serves. -/
def AgreesWithOpen (env : RestoreEnv τ) (live : SyncStore) (content : Database) (o : SyncStore) : Prop :=
  ∃ s, (SyncStore.restoreFrom env (.database content)).exec live = (.ok (), s) ∧ HasSnapshots s.db ∧
    ∀ (env' : PushEnv τ) request response o', (SyncStore.push env' request).exec o = (.ok response, o') →
      ∃ response' s', (SyncStore.push env' request).exec s = (.ok response', s')

/-- The rebase keeps the revisions of the file in the `i64` range. -/
def RebaseFits (live content : Database) : Prop :=
  ∀ m r, currentRevision live = .ok m → currentRevision content = .ok r → r ≤ m →
    ∀ notes ∈ content.notes, notes.rows ≠ [] → I64 (maxRevision notes.rows + asI64 m)

/-- Everything that the server needs of the two databases is there and can be read, the rebase overflows
nothing, and the tombstones can be read. -/
structure RestorableAsOpened (restoreTime : τ) (live content : Database) : Prop where
  liveNotes : ReadableNotes τ live
  notes : ReadableNotes τ content
  table : content.noteSnapshots ≠ none
  snapshots : HasSnapshots content
  revision : RebaseFits live content
  tombstones : ∀ p : SyncChange τ, cellAt live p.id = .holds p → noteAt content p.id = none →
    FourDigitYear p.createdAt ∧ FourDigitYear (max (changeTime p) restoreTime) ∧
      FourDigitYear (max p.updatedAt (max (changeTime p) restoreTime))

section Snapshots

variable {notes : NotesTable} {snapshots : SnapshotTable}

theorem hasSnapshots_tables : HasSnapshots ⟨some notes, some snapshots⟩ ↔ ∀ row ∈ notes.rows,
    ∃ s ∈ snapshots.rows, s.noteId = row.id ∧ s.revision = row.revision := by
  simp [HasSnapshots]

theorem mem_backfill (capturedAt : NoteRow → String) (missing : List NoteRow) (snapshots : SnapshotTable) :
    (∀ s ∈ snapshots.rows, s ∈ (missing.foldl (fun t note =>
      t.insert note.change note.revision fun _ => capturedAt note) snapshots).rows) ∧
    ∀ row ∈ missing, ∃ s ∈ (missing.foldl (fun t note =>
      t.insert note.change note.revision fun _ => capturedAt note) snapshots).rows,
        s.noteId = row.id ∧ s.revision = row.revision := by
  induction missing generalizing snapshots with
  | nil => exact ⟨fun _ hs => hs, nofun⟩
  | cons note missing ih =>
    rw [List.foldl_cons]
    obtain ⟨hold, hnew⟩ := ih (snapshots.insert note.change note.revision fun _ => capturedAt note)
    refine ⟨fun s hs => hold s (List.mem_append_left _ hs), fun row hrow => ?_⟩
    rcases List.mem_cons.1 hrow with rfl | hrow
    · exact ⟨_, hold _ (List.mem_append_right _ (List.mem_singleton_self _)), rfl, rfl⟩
    · exact hnew row hrow

theorem hasSnapshots_initConnection (db : Database) : HasSnapshots (initConnection db) := by
  rw [initConnection, hasSnapshots_tables]
  intro row hrow
  obtain ⟨hold, hnew⟩ := mem_backfill (fun note => note.change.deletedAt.getD note.change.updatedAt)
    ((db.notes.getD Keyed.empty).rows.filter fun note =>
      !(db.noteSnapshots.getD .empty).rows.any fun s => s.noteId = note.id ∧ s.revision = note.revision)
    (db.noteSnapshots.getD .empty)
  by_cases hs : ∃ s ∈ (db.noteSnapshots.getD .empty).rows, s.noteId = row.id ∧ s.revision = row.revision
  · obtain ⟨s, hs, hrow⟩ := hs
    exact ⟨s, hold s hs, hrow⟩
  · exact hnew row (List.mem_filter.2 ⟨hrow, by simpa using hs⟩)

theorem hasSnapshots_withChange {now : Nat → τ} {change : SyncChange τ} {revision : Nat}
    (hnew : noteAt ⟨some notes, some snapshots⟩ change.id = none) :
    HasSnapshots (.withChange now change revision notes snapshots) ↔
      HasSnapshots ⟨some notes, some snapshots⟩ := by
  have hne : ∀ row ∈ notes.rows, row.id ≠ change.id := Keyed.lookup_eq_none.1 hnew
  rw [Database.withChange, hasSnapshots_tables, hasSnapshots_tables, SnapshotTable.rows_insert]
  constructor
  · intro h row hrow
    obtain ⟨s, hs, hid, hrev⟩ := h row (Keyed.mem_upsert.2 (.inr ⟨hrow, hne row hrow⟩))
    rcases List.mem_append.1 hs with hs | hs
    · exact ⟨s, hs, hid, hrev⟩
    · rw [List.mem_singleton.1 hs] at hid
      exact absurd hid.symm (hne row hrow)
  · intro h row hrow
    rcases Keyed.mem_upsert.1 hrow with rfl | ⟨hrow, -⟩
    · exact ⟨_, List.mem_append_right _ (List.mem_singleton_self _), rfl, rfl⟩
    · obtain ⟨s, hs, hid, hrev⟩ := h row hrow
      exact ⟨s, List.mem_append_left _ hs, hid, hrev⟩

theorem hasSnapshots_shifted {offset : Int} :
    HasSnapshots (shifted offset notes snapshots) ↔ HasSnapshots ⟨some notes, some snapshots⟩ := by
  rw [shifted, hasSnapshots_tables, hasSnapshots_tables]
  constructor
  · intro h row hrow
    obtain ⟨s', hs', hid, hrev⟩ := h _ (List.mem_map_of_mem hrow)
    obtain ⟨s, hs, rfl⟩ := List.mem_map.1 hs'
    exact ⟨s, hs, hid, add_right_cancel hrev⟩
  · intro h row' hrow'
    obtain ⟨row, hrow, rfl⟩ := List.mem_map.1 hrow'
    obtain ⟨s, hs, hid, hrev⟩ := h row hrow
    exact ⟨_, List.mem_map_of_mem hs, hid, congrArg (· + offset) hrev⟩

variable {env : RestoreEnv τ} {live content db db' : Database} {previous restored : List (SyncChange τ)}

theorem Rebased.hasSnapshots_iff {m : Nat} (h : Rebased m content db) :
    HasSnapshots db ↔ HasSnapshots content := by
  obtain ⟨_, -, h⟩ := h
  split_ifs at h
  · obtain ⟨notes, snapshots, rfl, rfl⟩ := h
    exact hasSnapshots_shifted
  · rw [h]

/-- The tombstones have ids that the database does not have, so they come with snapshots of their own. -/
theorem Tombstoned.hasSnapshots_iff (h : Tombstoned env previous restored db db')
    (hnd : (previous.map SyncChange.id).Nodup)
    (hnew : ∀ c ∈ tombstones env.restoreTime previous restored, noteAt db c.id = none) :
    HasSnapshots db' ↔ HasSnapshots db := by
  obtain ⟨_, hdone⟩ := h.induct (P := fun done _ db₁ => (done.map SyncChange.id).Nodup →
      (∀ c ∈ done, noteAt db c.id = none) → (HasSnapshots db₁ ↔ HasSnapshots db) ∧
        ∀ id, id ∉ done.map SyncChange.id → noteAt db₁ id = noteAt db id)
    (fun _ _ _ _ => ⟨Iff.rfl, fun _ _ => rfl⟩)
    (fun done c n notes snapshots hP hnd hnew => by
      rw [List.map_append, List.map_singleton, List.nodup_append_comm, List.singleton_append] at hnd
      obtain ⟨hc, hnd⟩ := List.nodup_cons.1 hnd
      obtain ⟨hsnap, hrest⟩ := hP hnd fun c' hc' => hnew c' (List.mem_append_left _ hc')
      refine ⟨(hasSnapshots_withChange ?_).trans hsnap, fun id hid => ?_⟩
      · rw [hrest _ hc, hnew c (by simp)]
      · rw [List.map_append, List.mem_append, not_or] at hid
        rw [noteAt_withChange, if_neg fun h => hid.2 (by simp [h]), hrest id hid.1])
  refine (hdone ?_ hnew).1
  rw [map_id_tombstones]
  exact (missingNoteIds_pairwise hnd).imp ne_of_lt

/-- A restore neither gives snapshots to the notes of the file nor takes any away. -/
theorem Restored.hasSnapshots_iff (h : Restored env live content db') :
    HasSnapshots db' ↔ HasSnapshots content := by
  cases h with
  | intro _ hload hrebased hload' hstore _ =>
    refine (hstore.hasSnapshots_iff (nodup_of_loadAllChanges hload) fun c hc => ?_).trans
      hrebased.hasSnapshots_iff
    obtain ⟨p, -, hmissing, rfl⟩ := (mem_tombstones (nodup_of_loadAllChanges hload)).1 hc
    exact cellAt_eq_absent.1 ((forall_id_ne_iff hload').1 hmissing)

end Snapshots

/-! ### When a restore succeeds -/

section Success

variable {env : RestoreEnv τ} {live content db db' : Database} {previous restored : List (SyncChange τ)}

theorem exists_storeTombstones (env : RestoreEnv τ) (previous : List (SyncChange τ)) (ids : List String)
    (n : Nat) (hdb : Opened db) : ∃ db', storeTombstones env previous ids n db = .ok db' ∧ Opened db' := by
  induction ids generalizing n db with
  | nil => exact ⟨db, rfl, hdb⟩
  | cons id ids ih =>
    cases hfind : previous.find? (·.id = id) with
    | none =>
      simp only [storeTombstones, hfind]
      exact ih n hdb
    | some note =>
      have hopened := hdb
      obtain ⟨notes, snapshots, rfl, -⟩ := hdb
      have hnext : Opened (.withChange env.now (tombstone env.restoreTime note) (n + 1) notes snapshots) :=
        hopened.withChange (n + 1)
      obtain ⟨db', hstore, hdb'⟩ := ih (n + 1) hnext
      refine ⟨db', ?_, hdb'⟩
      simp only [storeTombstones, hfind]
      exact Except.bind_eq_ok.2 ⟨_, storeChange_eq_ok.2 ⟨notes, snapshots, rfl, rfl⟩, hstore⟩

theorem maxRevision_shift {rows : List NoteRow} (hne : rows ≠ []) (offset : Int) :
    maxRevision (rows.map (NoteRow.shift offset)) = maxRevision rows + offset := by
  obtain ⟨row, hrow, hmax⟩ := exists_maxRevision hne
  obtain ⟨row', hrow', hmax'⟩ : ∃ row' ∈ rows.map (NoteRow.shift offset),
      row'.revision = maxRevision (rows.map (NoteRow.shift offset)) := exists_maxRevision (by simpa using hne)
  obtain ⟨row₁, hrow₁, rfl⟩ := List.mem_map.1 hrow'
  have h₁ : row₁.revision ≤ maxRevision rows := le_maxRevision hrow₁
  have h₂ := le_maxRevision (List.mem_map_of_mem (f := NoteRow.shift offset) hrow)
  rw [← hmax'] at h₂ ⊢
  dsimp only [NoteRow.shift] at h₂ ⊢
  omega

theorem i64_maxRevision_shift {rows : List NoteRow} {offset : Int} :
    I64 (maxRevision (rows.map (NoteRow.shift offset))) ↔ (rows ≠ [] → I64 (maxRevision rows + offset)) := by
  by_cases hne : rows = []
  · subst hne
    exact iff_of_true (by rw [List.map_nil]; decide) fun h => absurd rfl h
  · rw [maxRevision_shift hne]
    exact ⟨fun h _ => h, fun h => h hne⟩

theorem exists_rebased {m r : Nat} (hdb : Opened content) (hr : currentRevision content = .ok r)
    (hfits : r ≤ m → ∀ notes ∈ content.notes, notes.rows ≠ [] → I64 (maxRevision notes.rows + asI64 m)) :
    ∃ db, Rebased m content db ∧ Opened db := by
  by_cases hle : r ≤ m ∧ m ≠ 0
  · obtain ⟨notes, snapshots, rfl, -⟩ := hdb
    refine ⟨shifted (asI64 m) notes snapshots, ⟨r, hr, ?_⟩, _, _, rfl, ?_⟩
    · rw [if_pos hle]
      exact ⟨notes, snapshots, rfl, rfl⟩
    · exact i64_maxRevision_shift.2 (hfits hle.1 notes rfl)
  · exact ⟨content, ⟨r, hr, by rw [if_neg hle]⟩, hdb⟩

theorem Rebased.i64 {m r revision : Nat} (h : Rebased m content db) (hr : currentRevision content = .ok r)
    (hrev : currentRevision db = .ok revision) (hle : r ≤ m) {notes : NotesTable}
    (hn : content.notes = some notes) (hne : notes.rows ≠ []) : I64 (maxRevision notes.rows + asI64 m) := by
  obtain ⟨r', hr', h⟩ := h
  rw [hr] at hr'
  obtain rfl := Except.ok.inj hr'
  split_ifs at h with hm
  · obtain ⟨notes', snapshots, rfl, rfl⟩ := h
    obtain rfl := Option.some.inj hn
    obtain ⟨_, hn', hi, -⟩ := currentRevision_eq_ok.1 hrev
    obtain rfl := Option.some.inj hn'
    exact i64_maxRevision_shift.1 hi hne
  · obtain rfl : m = 0 := by_contra fun hm' => hm ⟨hle, hm'⟩
    obtain ⟨_, hn', hi, -⟩ := currentRevision_eq_ok.1 hr
    rw [hn] at hn'
    obtain rfl := Option.some.inj hn'
    rwa [show asI64 0 = 0 from rfl, Int.add_zero]

/-- A restore of readable notes over readable notes succeeds, if the rebase does not overflow. -/
theorem exists_restored_of_readable (env : RestoreEnv τ) (hlive : ReadableNotes τ live)
    (hcontent : ReadableNotes τ content) (htable : content.noteSnapshots ≠ none) (hfits : RebaseFits live content) :
    ∃ db, Restored env live content db ∧ Opened db := by
  obtain ⟨m, hm⟩ := hlive.1
  obtain ⟨r, hr⟩ := hcontent.1
  obtain ⟨liveNotes, hnotes, -⟩ := currentRevision_eq_ok.1 hm
  obtain ⟨notes, hn, -⟩ := currentRevision_eq_ok.1 hr
  obtain ⟨previous, hload⟩ := exists_loadAllChanges_iff.2 ⟨by rw [hnotes]; exact nofun, hlive.2⟩
  obtain ⟨rebased, hrebased, hopened⟩ := exists_rebased
    (opened_iff.2 ⟨by rw [hn]; exact nofun, htable, r, hr⟩) hr (hfits m r hm hr)
  obtain ⟨revision, hrev⟩ := hopened.exists_currentRevision
  have hread : ∀ id, (cellAt rebased id : Cell (SyncChange τ)) ≠ .unreadable := fun id => by
    rw [hrebased.cellAt_eq]
    exact hcontent.2 id
  obtain ⟨restored, hload'⟩ := exists_loadAllChanges_iff.2 ⟨(opened_iff.1 hopened).1, hread⟩
  obtain ⟨db, hstore, hdb⟩ :=
    exists_storeTombstones env previous (missingNoteIds previous restored) revision hopened
  obtain ⟨revision', hrev'⟩ := hdb.exists_currentRevision
  exact ⟨db, .intro hm hload hrebased hload' ⟨revision, hrev, hstore⟩ hrev', hdb⟩

/-- A restore of a file that has everything succeeds, and what it leaves can be served. -/
theorem RestorableAsOpened.exists_restored (h : RestorableAsOpened env.restoreTime live content) :
    ∃ db, Restored env live content db ∧ Opened db :=
  exists_restored_of_readable env h.liveNotes h.notes h.table h.revision

end Success

section Agreement

variable [LawfulChrono τ] {env : RestoreEnv τ} {live o : SyncStore} {content db : Database} {id : String}

omit [LawfulChrono τ] in
theorem Restored.noteAt_of_neither {liveDb : Database} (h : Restored env liveDb content db)
    (hcontent : noteAt content id = none) (hlive : noteAt liveDb id = none) : noteAt db id = none := by
  cases h with
  | intro _ hload hrebased hload' hstore _ =>
    have hnd := nodup_of_loadAllChanges hload
    rw [(hstore.noteAt_eq hnd).2 id ?_]
    · obtain ⟨_, hnote⟩ := hrebased.noteAt_eq
      rw [hnote, hcontent, Option.map_none]
    · intro c hc hid
      obtain ⟨p, hp, -, rfl⟩ := (mem_tombstones hnd).1 hc
      have hcell := (mem_of_loadAllChanges hload).1 hp
      rw [tombstone_id] at hid
      rw [hid, (cellAt_eq_absent (τ := τ)).2 hlive] at hcell
      cases hcell

/-- The restored file takes the changes that the file itself would take. -/
theorem Restored.exists_offerAll {liveDb : Database} (h : Restored env liveDb content db)
    (hread : ∀ p : SyncChange τ, cellAt liveDb p.id = .holds p → noteAt content p.id = none →
      (tombstone env.restoreTime p).InRange) (hlive : (cellAt liveDb id : Cell (SyncChange τ)) ≠ .unreadable)
    {l : List (SyncChange τ)} {c : Cell (SyncChange τ)}
    (hl : Cell.offerAll changeTime SyncChange.InRange (cellAt content id) l = some c) :
    ∃ c', Cell.offerAll changeTime SyncChange.InRange (cellAt db id) l = some c' := by
  by_cases hid : noteAt content id = none
  · have habsent : (cellAt content id : Cell (SyncChange τ)) = .absent := cellAt_eq_absent.2 hid
    cases hp : (cellAt liveDb id : Cell (SyncChange τ)) with
    | absent =>
      have hdb := h.noteAt_of_neither hid (cellAt_eq_absent.1 hp)
      rw [habsent] at hl
      rw [cellAt_eq_absent.2 hdb]
      exact ⟨c, hl⟩
    | unreadable => exact absurd hp hlive
    | holds p =>
      obtain rfl := id_of_cellAt hp
      obtain ⟨-, r, hnote⟩ := h.noteAt_of_missing hp hid
      have hcell : cellAt db p.id = .holds (tombstone env.restoreTime p) :=
        (cellAt_of_ofChange hnote).trans (Cell.stored_of_readable (hread p hp hid))
      rw [habsent] at hl
      rw [hcell]
      have hahead : Cell.Ahead changeTime SyncChange.InRange .absent (.holds (tombstone env.restoreTime p)) :=
        trivial
      exact hahead.offerAll hl
  · rw [h.cellAt_of_file hid]
    exact ⟨c, hl⟩

omit [LawfulChrono τ] in
theorem opened_of_open (hopen : SyncStore.open (.database content) = .ok o) : Opened o.db := by
  obtain ⟨hdb, hrev⟩ := open_eq_ok.1 hopen
  rw [hdb]
  exact opened_iff.2 ⟨nofun, nofun, _, hrev⟩

omit [LawfulChrono τ] in
theorem cellAt_of_open (hopen : SyncStore.open (.database content) = .ok o) (id : String) :
    (cellAt o.db id : Cell (SyncChange τ)) = cellAt content id := by
  rw [(open_eq_ok.1 hopen).1]
  exact cellAt_congr (congrArg _ (noteAt_initConnection content id))

theorem RestorableAsOpened.agreesWithOpen (h : RestorableAsOpened env.restoreTime live.db content)
    (hcalm : ∀ step, env.fault step = none) (hopen : SyncStore.open (.database content) = .ok o) :
    AgreesWithOpen env live content o := by
  obtain ⟨db, hrestored, hdb⟩ := h.exists_restored
  obtain ⟨revision, hrestore⟩ := exec_restoreFrom_of_calm hcalm hrestored
  refine ⟨_, hrestore, hrestored.hasSnapshots_iff.2 h.snapshots, fun env' request response o' hpush => ?_⟩
  obtain ⟨hl, ht, _, -, hloop, -⟩ := exec_push_ok.1 hpush
  have hread : ∀ p : SyncChange τ, cellAt live.db p.id = .holds p → noteAt content p.id = none →
      (tombstone env.restoreTime p).InRange := by
    intro p hp hid
    obtain ⟨hcreated, hdeleted, hupdated⟩ := h.tombstones p hp hid
    exact ⟨hcreated, hupdated, by rintro _ ⟨⟩; exact hdeleted⟩
  refine exists_exec_push hdb hl ht fun id => ?_
  have hcell := pushChanges_cell hloop id
  rw [cellAt_of_open hopen] at hcell
  exact hrestored.exists_offerAll hread (h.liveNotes.2 id) hcell

omit [LawfulChrono τ] in
theorem Tombstoned.eq_of_no_snapshots {previous restored : List (SyncChange τ)} {db' : Database}
    (h : Tombstoned env previous restored db db') (hs : db.noteSnapshots = none) : db' = db := by
  obtain ⟨_, hdone⟩ := h.induct (P := fun _ _ db₁ => db₁ = db) (fun _ _ => rfl)
    (fun _ _ _ notes snapshots hP => by rw [← hP] at hs; cases hs)
  exact hdone

omit [LawfulChrono τ] in
/-- A file without snapshots that could be restored is left as it is. -/
theorem Restored.eq_of_no_snapshots {liveDb : Database} (h : Restored env liveDb content db)
    (hs : content.noteSnapshots = none) : db = content := by
  cases h with
  | intro _ _ hrebased _ hstore _ =>
    obtain ⟨_, -, hrebased⟩ := hrebased
    split_ifs at hrebased
    · obtain ⟨_, _, rfl, -⟩ := hrebased
      cases hs
    · rw [hrebased] at hstore
      exact hstore.eq_of_no_snapshots hs

/-- A file that has no snapshots does not do: the notes that it has lack their snapshots, and none can be
added. -/
theorem AgreesWithOpen.table (h : AgreesWithOpen env live content o)
    (hopen : SyncStore.open (.database content) = .ok o) : content.noteSnapshots ≠ none := by
  intro hnone
  obtain ⟨s, hrestore, hsnapshots, hpush⟩ := h
  obtain ⟨_, ⟨⟩, hrestored, -⟩ := exec_restoreFrom_ok hrestore
  rw [hrestored.eq_of_no_snapshots hnone] at hsnapshots
  have habsent : (cellAt content "" : Cell (SyncChange τ)) = .absent := by
    refine cellAt_eq_absent.2 (Option.eq_none_iff_forall_ne_some.2 fun row hrow => ?_)
    obtain ⟨notes, hn, hrow⟩ := Option.bind_eq_some_iff.1 hrow
    obtain ⟨_, hs, -⟩ := hsnapshots notes hn row (Keyed.lookup_eq_some.1 hrow).1
    rw [hnone] at hs
    cases hs
  -- the file can be opened and then takes a new note
  let change : SyncChange τ := ⟨"", "", "", "", env.restoreTime, env.restoreTime, none, "", ""⟩
  obtain ⟨response, o', ho⟩ : ∃ response o',
      (SyncStore.push ⟨fun _ => none, fun _ => env.restoreTime⟩ ⟨"", [change]⟩).exec o = (.ok response, o') :=
    exists_exec_push_singleton (opened_of_open hopen) rfl rfl (by
      rw [cellAt_of_open hopen, habsent]; exact nofun)
  obtain ⟨response', s', hs⟩ := hpush _ _ _ _ ho
  have hpushed := pushed_of_exec_push hs
  rw [hrestored.eq_of_no_snapshots hnone] at hpushed
  generalize s'.db = db' at hpushed
  cases hpushed with
  | skipped hcell =>
    rw [fillDevice_id, habsent] at hcell
    cases hcell
  | stored hdb =>
    rw [hdb] at hnone
    cases hnone

/-- A tombstone that cannot be read refuses the changes of its note. -/
theorem AgreesWithOpen.inRange_tombstone (h : AgreesWithOpen env live content o)
    (hopen : SyncStore.open (.database content) = .ok o) {p : SyncChange τ}
    (hp : cellAt live.db p.id = .holds p) (hid : noteAt content p.id = none) :
    (tombstone env.restoreTime p).InRange := by
  by_contra hrange
  obtain ⟨s, hrestore, -, hpush⟩ := h
  obtain ⟨_, ⟨⟩, hrestored, -⟩ := exec_restoreFrom_ok hrestore
  obtain ⟨-, r, hnote⟩ := hrestored.noteAt_of_missing hp hid
  have hcell : (cellAt s.db p.id : Cell (SyncChange τ)) = .unreadable :=
    (cellAt_of_ofChange hnote).trans (Cell.stored_of_not_readable hrange)
  obtain ⟨response, o', ho⟩ : ∃ response o',
      (SyncStore.push ⟨fun _ => none, fun _ => env.restoreTime⟩ ⟨"", [p]⟩).exec o = (.ok response, o') :=
    exists_exec_push_singleton (opened_of_open hopen) rfl rfl (by
      rw [cellAt_of_open hopen, cellAt_eq_absent.2 hid]; exact nofun)
  obtain ⟨response', s', hs⟩ := hpush _ _ _ _ ho
  obtain ⟨-, -, _, -, hloop, -⟩ := exec_push_ok.1 hs
  have hread : (cellAt s.db (fillDevice "" p).id : Cell (SyncChange τ)) ≠ .unreadable :=
    readable_of_pushChanges hloop (List.mem_singleton_self _)
  rw [fillDevice_id] at hread
  exact hread hcell

theorem AgreesWithOpen.restorable (h : AgreesWithOpen env live content o)
    (hopen : SyncStore.open (.database content) = .ok o) :
    RestorableAsOpened env.restoreTime live.db content := by
  have htable := h.table hopen
  have htombstone := fun p hp hid => h.inRange_tombstone hopen (p := p) hp hid
  obtain ⟨s, hrestore, hsnapshots, -⟩ := h
  obtain ⟨_, ⟨⟩, hrestored, -⟩ := exec_restoreFrom_ok hrestore
  rw [hrestored.hasSnapshots_iff] at hsnapshots
  cases hrestored with
  | @intro m revision previous restored rebased hm hload hrebased hload' hstore _ =>
    obtain ⟨r, hr, -⟩ := id hrebased
    obtain ⟨revision', hrev, -⟩ := hstore
    refine ⟨⟨⟨m, hm⟩, (exists_loadAllChanges_iff.1 ⟨_, hload⟩).2⟩, ⟨⟨r, hr⟩, fun id => ?_⟩, htable, hsnapshots,
      fun m' r' hm' hr' hle notes hn hne => ?_, fun p hp hid => ?_⟩
    · rw [← hrebased.cellAt_eq]
      exact (exists_loadAllChanges_iff.1 ⟨_, hload'⟩).2 id
    · rw [hm] at hm'
      obtain rfl := Except.ok.inj hm'
      exact hrebased.i64 hr' hrev hle hn hne
    · have hrange := htombstone p hp hid
      exact ⟨hrange.createdAt, hrange.deletedAt _ rfl, hrange.updatedAt⟩

/-- Restoring a file agrees with opening it exactly when the file has everything that opening would add,
and everything can be read. -/
theorem agreesWithOpen_iff (hcalm : ∀ step, env.fault step = none)
    (hopen : SyncStore.open (.database content) = .ok o) :
    AgreesWithOpen env live content o ↔ RestorableAsOpened env.restoreTime live.db content :=
  ⟨fun h => h.restorable hopen, fun h => h.agreesWithOpen hcalm hopen⟩

end Agreement

theorem agreesWithOpen_iff_of_one_note :
    AgreesWithOpen (Sample.restoreEnv Sample.nine) .created Sample.oneNoteStore.db Sample.oneNoteStore ↔
      RestorableAsOpened (Sample.restoreEnv Sample.nine).restoreTime SyncStore.created.db
        Sample.oneNoteStore.db :=
  agreesWithOpen_iff (fun _ => rfl) (by decide +kernel)

/-- A file with a note and no table of snapshots can be opened. Restoring it over a store with a note fails
after the copy; restored over an empty store it leaves its note without a snapshot. -/
theorem not_agreesWithOpen_of_legacy :
    SyncStore.open (.database (Sample.legacy Sample.oneNoteStore.db)) = .ok Sample.oneNoteStore ∧
      ((SyncStore.restoreFrom (Sample.restoreEnv Sample.nine)
          (.database (Sample.legacy Sample.oneNoteStore.db))).exec Sample.oneNoteStore).1 =
        .error (.database (.sqliteFailure "no such table: note_snapshots")) ∧
      ¬ AgreesWithOpen (Sample.restoreEnv Sample.nine) Sample.oneNoteStore
          (Sample.legacy Sample.oneNoteStore.db) Sample.oneNoteStore ∧
      ¬ AgreesWithOpen (Sample.restoreEnv Sample.nine) .created
          (Sample.legacy Sample.oneNoteStore.db) Sample.oneNoteStore := by
  have hfail : ((SyncStore.restoreFrom (Sample.restoreEnv Sample.nine)
      (.database (Sample.legacy Sample.oneNoteStore.db))).exec Sample.oneNoteStore).1 =
        .error (.database (.sqliteFailure "no such table: note_snapshots")) := by decide +kernel
  refine ⟨by decide +kernel, hfail, fun ⟨s, hrestore, _⟩ => ?_, fun ⟨s, hrestore, hsnapshots, _⟩ => ?_⟩
  · rw [hrestore] at hfail
    cases hfail
  · have hrestored : ((SyncStore.restoreFrom (Sample.restoreEnv Sample.nine)
        (.database (Sample.legacy Sample.oneNoteStore.db))).exec .created).2.db =
          Sample.legacy Sample.oneNoteStore.db := by decide +kernel
    rw [hrestore] at hrestored
    rw [hrestored] at hsnapshots
    exact absurd hsnapshots (by decide +kernel)

end FloralSync

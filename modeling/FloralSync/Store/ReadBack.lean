import FloralSync.Store.LastWriteWins
import FloralSync.Store.Listing
import FloralSync.Store.Markdown
import FloralSync.Store.OpenAgreement

/-!
# Reading back what was pushed

A change whose timestamps have years outside 0..=9999 is stored like any other, but it cannot be read back. As long
as no such change is the last write of its note, everything that reads the store or restores it works.
-/

namespace FloralSync

open Replication StoreM
open Rfc3339 (Civil)

variable {τ : Type} [Chrono τ]

variable (τ) in
/-- What the server itself puts into a snapshot can be read. -/
structure SnapshotRow.Stamped (row : SnapshotRow) : Prop where
  revision : I64 row.revision
  capturedAt : ∃ t : τ, parseFromRfc3339 row.capturedAt = some t

theorem NoteRow.listable_of_decode {row : NoteRow} {change : SyncChange τ} (h : row.change.decode = some change) :
    row.Listable τ := by
  simp only [ChangeRow.decode, Option.bind_eq_bind, Option.bind_eq_some_iff] at h
  obtain ⟨_, -, updatedAt, hupdated, deletedAt, hdeleted, -⟩ := h
  refine ⟨⟨updatedAt, hupdated⟩, fun value hvalue => ?_⟩
  rw [Option.mem_def.1 hvalue, Option.mapM_some] at hdeleted
  obtain ⟨t, ht, -⟩ := Option.map_eq_some_iff.1 hdeleted
  exact ⟨t, ht⟩

namespace Healthy

variable {db : Database}

theorem exists_noteDetail (h : Healthy τ db) (noteId : String) :
    ∃ detail : Option (NoteDetail τ), noteDetail db noteId = .ok detail := by
  obtain ⟨notes, _, rfl, -⟩ := id h.opened
  cases hrow : notes.lookup noteId with
  | none => exact ⟨none, noteDetail_eq_ok.2 ⟨notes, rfl, by rw [hrow]⟩⟩
  | some row =>
    have hmem := (Keyed.lookup_eq_some.1 hrow).1
    obtain ⟨c, hdec, -⟩ := h.notes notes rfl row hmem
    exact ⟨some (detailOf c (asU64 row.revision)),
      noteDetail_eq_ok.2 ⟨notes, rfl, by rw [hrow]; exact ⟨c, hdec, h.revisions notes rfl row hmem, rfl⟩⟩⟩

theorem exists_noteHistory (h : Healthy τ db) {noteId : String}
    (hstamped : ∀ snapshots ∈ db.noteSnapshots, ∀ row ∈ snapshots.rows, row.noteId = noteId → row.Stamped τ) :
    ∃ history : List (NoteSnapshot τ), noteHistory db noteId = .ok history := by
  obtain ⟨_, snapshots, rfl, -⟩ := id h.opened
  have hread : ∀ row ∈ historyRows snapshots noteId, ∃ s : NoteSnapshot τ, row.toNoteSnapshot = .ok s := by
    intro row hrow
    obtain ⟨hmem, hid⟩ := mem_historyRows.1 hrow
    obtain ⟨c, hdec⟩ := h.snapshots snapshots rfl row hmem
    obtain ⟨hi, t, ht⟩ := hstamped snapshots rfl row hmem hid
    simp only [SnapshotRow.toNoteSnapshot, Except.bind_eq_ok, getI64_eq_ok, ChangeRow.toChange_eq_ok,
      parseRowTime_eq_ok]
    exact ⟨_, _, ⟨hi, rfl⟩, c, hdec, t, ht, rfl⟩
  obtain ⟨history, hhistory⟩ := List.exists_forall₂ hread
  exact ⟨history, noteHistory_eq_ok.2 ⟨snapshots, rfl, hhistory⟩⟩

theorem exists_noteList (h : Healthy τ db) {query : NoteListQuery} (hfits : query.PatternFits) :
    ∃ page : NoteListPage τ, noteList db query = .ok page := by
  obtain ⟨notes, _, rfl, -⟩ := id h.opened
  obtain ⟨items, hitems⟩ := List.exists_map_eq_some.2
    fun row (hrow : row ∈ ((query.rows notes).drop query.offset).take query.limit) => by
      have hmem := (mem_rows.1 (List.mem_of_mem_drop (List.mem_of_mem_take hrow))).1
      obtain ⟨c, hdec, -⟩ := h.notes notes rfl row hmem
      exact NoteRow.exists_item.2 ⟨h.revisions notes rfl row hmem, NoteRow.listable_of_decode hdec⟩
  exact ⟨⟨query.pageNumber, query.limit, _, items⟩,
    noteList_eq_ok.2 ⟨notes, rfl, .inr hfits, rfl, rfl, rfl, hitems⟩⟩

theorem exists_overview (h : Healthy τ db)
    (hstamped : ∀ snapshots ∈ db.noteSnapshots, ∀ row ∈ snapshots.rows, row.Stamped τ) :
    ∃ o : AdminOverview τ, overview db = .ok o := by
  obtain ⟨notes, snapshots, rfl, hi⟩ := id h.opened
  obtain ⟨latestSnapshotAt, hlatest⟩ : ∃ t : Option τ,
      (snapshots.rows.map SnapshotRow.capturedAt).max?.mapM parseDbTime = .ok t := by
    cases hmax : (snapshots.rows.map SnapshotRow.capturedAt).max? with
    | none => exact ⟨none, rfl⟩
    | some value =>
      obtain ⟨row, hrow, rfl⟩ := List.mem_map.1 (List.max?_mem hmax)
      obtain ⟨t, ht⟩ := (hstamped snapshots rfl row hrow).capturedAt
      exact ⟨some t, by simp [parseDbTime, ht, Except.okOr]⟩
  simp only [overview, Except.bind_eq_ok, Database.selectNotes_eq_ok, Database.selectSnapshots_eq_ok, getI64_eq_ok]
  exact ⟨_, notes, rfl, _, ⟨hi, rfl⟩, snapshots, rfl, _, hlatest, rfl⟩

theorem exists_markdownDownload (h : Healthy τ db) (noteId : String) :
    ∃ download, markdownDownload τ db noteId = .ok download := by
  obtain ⟨detail, hdetail⟩ := h.exists_noteDetail noteId
  exact ⟨_, markdownDownload_eq_ok.2 ⟨detail, hdetail, rfl⟩⟩

theorem readableNotes (h : Healthy τ db) : ReadableNotes τ db :=
  ⟨h.opened.exists_currentRevision, (exists_loadAllChanges_iff.1 h.exists_loadAllChanges).2⟩

end Healthy

/-- A restore of readable notes over readable notes succeeds unless it fails by the environment. -/
theorem exists_exec_restoreFrom {env : RestoreEnv τ} {live : SyncStore} {content : Database}
    (hcalm : ∀ step, env.fault step = none) (hlive : ReadableNotes τ live.db) (hcontent : ReadableNotes τ content)
    (htable : content.noteSnapshots ≠ none) (hfits : RebaseFits live.db content) :
    ∃ s, (SyncStore.restoreFrom env (.database content)).exec live = (.ok (), s) := by
  obtain ⟨_, hrestored, -⟩ := exists_restored_of_readable env hlive hcontent htable hfits
  obtain ⟨_, hrestore⟩ := exec_restoreFrom_of_calm hcalm hrestored
  exact ⟨_, hrestore⟩

/-- Every row that was stored decodes to the change that was accepted, and no operation fails at one: where an
operation needs more than these rows, that is there. -/
structure ReadsBack (s₀ : SyncStore) (rs : List (PushRequest τ)) (s : SyncStore) : Prop where
  notes : ∀ notes ∈ s.db.notes, ∀ row ∈ notes.rows,
    ∃ w, LastMax changeTime (offered s₀.db rs row.id) w ∧ row.change.decode = some w
  snapshots : ∀ snapshots ∈ s.db.noteSnapshots, ∀ row ∈ snapshots.rows,
    (∃ snapshots₀ ∈ s₀.db.noteSnapshots, row ∈ snapshots₀.rows) ∨
      ∃ c ∈ arrivals rs, row.change.decode = some c
  changesSince : ∀ since < 2 ^ 63, ∃ response : ChangesResponse τ, changesSince s.db since = .ok response
  existingChange : ∀ id, ∃ existing : Option (SyncChange τ), existingChange s.db id = .ok existing
  loadAllChanges : ∃ changes : List (SyncChange τ), loadAllChanges s.db = .ok changes
  push : ∀ (env : PushEnv τ) (request : PushRequest τ), (∀ step, env.fault step = none) → request.InRange →
    ∃ response s', (SyncStore.push env request).exec s = (.ok response, s')
  restoreOver : ∀ (env : RestoreEnv τ) content, (∀ step, env.fault step = none) → ReadableNotes τ content →
    content.noteSnapshots ≠ none → RebaseFits s.db content →
    ∃ s', (SyncStore.restoreFrom env (.database content)).exec s = (.ok (), s')
  restoreBackup : ∀ (env : RestoreEnv τ) (live : SyncStore), (∀ step, env.fault step = none) →
    ReadableNotes τ live.db → RebaseFits live.db s.db →
    ∃ s', (SyncStore.restoreFrom env (.database s.db)).exec live = (.ok (), s')
  overview : (∀ snapshots ∈ s.db.noteSnapshots, ∀ row ∈ snapshots.rows, row.Stamped τ) →
    ∃ o : AdminOverview τ, overview s.db = .ok o
  noteList : ∀ query : NoteListQuery, query.PatternFits → ∃ page : NoteListPage τ, noteList s.db query = .ok page
  noteDetail : ∀ id, ∃ detail : Option (NoteDetail τ), noteDetail s.db id = .ok detail
  noteHistory : ∀ id,
    (∀ snapshots ∈ s.db.noteSnapshots, ∀ row ∈ snapshots.rows, row.noteId = id → row.Stamped τ) →
    ∃ history : List (NoteSnapshot τ), noteHistory s.db id = .ok history
  markdownDownload : ∀ id, ∃ download, markdownDownload τ s.db id = .ok download

variable [LawfulChrono τ]

/-- The snapshots of a run are those from before and those of arrivals. A snapshot that cannot be read
back belongs to a note that cannot be either. -/
theorem PushRun.snapshots {s₀ s : SyncStore} {rs : List (PushRequest τ)} (h : PushRun s₀ rs s) :
    ∀ snapshots ∈ s.db.noteSnapshots, ∀ row ∈ snapshots.rows,
      (∃ snapshots₀ ∈ s₀.db.noteSnapshots, row ∈ snapshots₀.rows) ∨
        ∃ c ∈ arrivals rs, row.change = .ofChange c ∧
          (c.InRange ∨ (cellAt s.db c.id : Cell (SyncChange τ)) = .unreadable) := by
  refine PushRun.induct (P := fun done db => ∀ snapshots ∈ db.noteSnapshots, ∀ row ∈ snapshots.rows,
    (∃ snapshots₀ ∈ s₀.db.noteSnapshots, row ∈ snapshots₀.rows) ∨
      ∃ c ∈ done, row.change = .ofChange c ∧
        (c.InRange ∨ (cellAt db c.id : Cell (SyncChange τ)) = .unreadable))
    (fun snapshots hs row hrow => .inl ⟨snapshots, hs, hrow⟩)
    (fun now done change db db' hP hpushed => ?_) h
  cases hpushed with
  | skipped =>
    intro snapshots hs row hrow
    refine (hP snapshots hs row hrow).imp_right ?_
    rintro ⟨c, hc, h⟩
    exact ⟨c, by simp [hc], h⟩
  | @stored notes snapshots revision hdb hrev hnew hread =>
    subst hdb
    rintro _ ⟨⟩ row hrow
    rw [SnapshotTable.rows_insert] at hrow
    rcases List.mem_append.1 hrow with hrow | hrow
    · refine (hP snapshots rfl row hrow).imp_right ?_
      rintro ⟨c, hc, hrow, hor⟩
      refine ⟨c, by simp [hc], hrow, hor.imp_right fun hcell => ?_⟩
      have hid : change.id ≠ c.id := fun hid => hread (hid ▸ hcell)
      rw [cellAt_withChange, if_neg hid, hcell]
    · rw [List.mem_singleton.1 hrow]
      refine .inr ⟨change, by simp, rfl, ?_⟩
      rw [cellAt_withChange, if_pos rfl]
      by_cases hr : change.InRange
      · exact .inl hr
      · exact .inr (Cell.stored_of_not_readable hr)

section ReadsBack

variable {s₀ s : SyncStore} {rs : List (PushRequest τ)}

theorem PushRun.exists_decode (hs₀ : Healthy τ s₀.db) (h : PushRun s₀ rs s)
    (hreadable : ∀ id, (cellAt s.db id : Cell (SyncChange τ)) ≠ .unreadable) :
    ∀ notes ∈ s.db.notes, ∀ row ∈ notes.rows,
      ∃ w, LastMax changeTime (offered s₀.db rs row.id) w ∧ row.change.decode = some w := by
  intro notes hn row hrow
  have hcell := cellAt_of_lookup (τ := τ) hn (Keyed.lookup_key hrow)
  cases hdec : (row.change.decode : Option (SyncChange τ)) with
  | none => rw [hdec] at hcell; exact absurd hcell (hreadable _)
  | some w => rw [hdec] at hcell; exact ⟨w, ((h.cell_eq_holds hs₀).1 hcell).1, rfl⟩

theorem PushRun.exists_snapshot_decode (h : PushRun s₀ rs s)
    (hreadable : ∀ id, (cellAt s.db id : Cell (SyncChange τ)) ≠ .unreadable) :
    ∀ snapshots ∈ s.db.noteSnapshots, ∀ row ∈ snapshots.rows,
      (∃ snapshots₀ ∈ s₀.db.noteSnapshots, row ∈ snapshots₀.rows) ∨
        ∃ c ∈ arrivals rs, row.change.decode = some c := by
  intro snapshots hs row hrow
  refine (h.snapshots snapshots hs row hrow).imp_right ?_
  rintro ⟨c, hc, hrow, hrange⟩
  refine ⟨c, hc, ?_⟩
  rw [hrow, ChangeRow.decode_ofChange, if_pos (hrange.resolve_right (hreadable _))]

/-- If the last writes are in range, the store stays one that can be read. -/
theorem PushRun.healthy (hs₀ : Healthy τ s₀.db) (h : PushRun s₀ rs s)
    (hwinners : ∀ id w, LastMax changeTime (offered s₀.db rs id) w → w.InRange)
    (hreadable : ∀ id, (cellAt s.db id : Cell (SyncChange τ)) ≠ .unreadable) : Healthy τ s.db := by
  refine ⟨h.opened hs₀.opened, h.revisions hs₀.revisions, fun notes hn row hrow => ?_, fun snapshots hs row hrow => ?_⟩
  · obtain ⟨w, hw, hdec⟩ := h.exists_decode hs₀ hreadable notes hn row hrow
    exact ⟨w, hdec, hwinners _ w hw⟩
  · rcases h.exists_snapshot_decode hreadable snapshots hs row hrow with ⟨snapshots₀, hs₀', hrow⟩ | ⟨c, -, hdec⟩
    · exact hs₀.snapshots snapshots₀ hs₀' row hrow
    · exact ⟨c, hdec⟩

/-- What was pushed reads back exactly when the last write of each id has timestamps in range. -/
theorem readsBack_iff {s₀ s : SyncStore} {rs : List (PushRequest τ)} (hs₀ : Healthy τ s₀.db)
    (h : PushRun s₀ rs s) : ReadsBack s₀ rs s ↔
      ∀ id w, LastMax changeTime (offered s₀.db rs id) w → w.InRange := by
  obtain ⟨notes, _, hdb, -⟩ := h.opened hs₀.opened
  have hn : s.db.notes = some notes := by rw [hdb]
  constructor
  · intro hreads id w hw
    have hcell : (cellAt s.db id : Cell (SyncChange τ)) ≠ .absent := fun hcell => by
      have hnil := (h.cell_eq_absent hs₀).1 hcell
      exact absurd hw.mem (by rw [hnil]; exact List.not_mem_nil)
    cases hrow : notes.lookup id with
    | none => exact absurd (cellAt_of_lookup_none hn hrow) hcell
    | some row =>
      obtain ⟨hrow', rfl⟩ := Keyed.lookup_eq_some.1 hrow
      obtain ⟨v, hv, hdec⟩ := hreads.notes notes hn row hrow'
      have hholds : cellAt s.db row.id = .holds v := by rw [cellAt_of_lookup hn hrow, hdec]
      obtain ⟨hv, hrange⟩ := (h.cell_eq_holds hs₀).1 hholds
      exact hv.unique hw ▸ hrange
  · intro hwinners
    have hreadable : ∀ id, (cellAt s.db id : Cell (SyncChange τ)) ≠ .unreadable := fun id hcell => by
      obtain ⟨w, hw, hrange⟩ := (h.cell_eq_unreadable hs₀).1 hcell
      exact hrange (hwinners id w hw)
    have hhealthy := h.healthy hs₀ hwinners hreadable
    exact
      { notes := h.exists_decode hs₀ hreadable
        snapshots := h.exists_snapshot_decode hreadable
        changesSince := fun _ => hhealthy.exists_changesSince
        existingChange := hhealthy.exists_existingChange
        loadAllChanges := hhealthy.exists_loadAllChanges
        push := fun _ _ hcalm => exists_exec_push_of_inRange hhealthy.opened hcalm hreadable
        restoreOver := fun _ _ hcalm => exists_exec_restoreFrom hcalm hhealthy.readableNotes
        restoreBackup := fun _ _ hcalm hlive => exists_exec_restoreFrom hcalm hlive hhealthy.readableNotes
          (opened_iff.1 hhealthy.opened).2.1
        overview := hhealthy.exists_overview
        noteList := fun _ => hhealthy.exists_noteList
        noteDetail := hhealthy.exists_noteDetail
        noteHistory := fun _ => hhealthy.exists_noteHistory
        markdownDownload := hhealthy.exists_markdownDownload }

end ReadsBack

theorem readsBack_iff_of_one_note :
    ReadsBack .created [Sample.oneNote] Sample.oneNoteStore ↔
      ∀ id w, LastMax changeTime (offered SyncStore.created.db [Sample.oneNote] id) w → w.InRange := by
  have hpush : (SyncStore.push Sample.pushEnv Sample.oneNote).exec .created =
      (.ok ⟨1⟩, Sample.oneNoteStore) := by decide +kernel
  exact readsBack_iff healthy_created (.processed .start hpush)

/-- A note dated after the year 9999 is accepted, and then no pull succeeds. -/
theorem not_readsBack_of_far_note :
    (SyncStore.push Sample.pushEnv Sample.farNote).exec .created =
        (.ok ⟨1⟩, Sample.pushed Sample.farNote .created) ∧
      (changesSince (Sample.pushed Sample.farNote .created).db 0 : Except _ (ChangesResponse Civil)) =
        .error (.database (.fromSqlConversionFailure 5)) ∧
      ¬ ReadsBack .created [Sample.farNote] (Sample.pushed Sample.farNote .created) := by
  have hpull : (changesSince (Sample.pushed Sample.farNote .created).db 0 :
      Except _ (ChangesResponse Civil)) = .error (.database (.fromSqlConversionFailure 5)) := by
    decide +kernel
  refine ⟨by decide +kernel, hpull, fun hreads => ?_⟩
  obtain ⟨response, hok⟩ := hreads.changesSince 0 (by decide)
  rw [hpull] at hok
  cases hok

end FloralSync

import FloralSync.Store.Admin
import FloralSync.Store.Represents

/-!
# Reachable stores

The states of the server: a new file, then pushes, restarts, and restores of backups that were
written from such states. Clocks and pushed timestamps have four-digit years, and no revision
overflows. Each of these states represents a journal (`Reachable.represents`), and this determines how
its two tables fit together (`StoreInvariant`).
-/

namespace FloralSync

open Replication StoreM
open Rfc3339 (Civil)

variable {τ : Type} [Chrono τ]

structure PushEnv.InRange (env : PushEnv τ) : Prop where
  now : ∀ id, FourDigitYear (env.now id)

structure RestoreEnv.InRange (env : RestoreEnv τ) : Prop where
  now : ∀ id, FourDigitYear (env.now id)
  restoreTime : FourDigitYear env.restoreTime

/-- The revisions that a push gives out fit into an `i64`. Each goes to one snapshot. -/
def PushFits (db db' : Database) : Prop :=
  ∀ revision, currentRevision db = .ok revision →
    revision + db'.snapshotCount < 2 ^ 63 + db.snapshotCount

/-- The current revision of the file's content after the rebase. -/
def rebasedRevision (previousRevision restoredRevision : Nat) (content : Database) : Nat :=
  if restoredRevision ≤ previousRevision ∧ ∃ notes ∈ content.notes, notes.rows ≠ [] then
    restoredRevision + previousRevision
  else restoredRevision

/-- The revisions of a restore fit into an `i64`. -/
def RestoreFits (live content db' : Database) : Prop :=
  ∀ previousRevision restoredRevision, currentRevision live = .ok previousRevision →
    currentRevision content = .ok restoredRevision →
    rebasedRevision previousRevision restoredRevision content + db'.snapshotCount <
      2 ^ 63 + content.snapshotCount

variable (τ) in
inductive Reachable : SyncStore → Prop
  | created : Reachable .created
  | push {s s' : SyncStore} {env : PushEnv τ} {request : PushRequest τ}
      {result : Except StoreError PushResponse} : Reachable s →
      (SyncStore.push env request).exec s = (result, s') → env.InRange → request.InRange →
      PushFits s.db s'.db → Reachable s'
  | reopen {s s' : SyncStore} : Reachable s → SyncStore.open (.database s.db) = .ok s' → Reachable s'
  | restore {s s' t t' : SyncStore} {env : RestoreEnv τ} {fault : Option StoreError} {file : SourceFile} :
      Reachable s → Reachable t → (SyncStore.backupTo fault).exec t = (.ok file, t') →
      (SyncStore.restoreFrom env file).exec s = (.ok (), s') → env.InRange →
      RestoreFits s.db t.db s'.db → Reachable s'

theorem PushFits.of_eq {db db' : Database} {revision : Nat} (hrev : currentRevision db = .ok revision)
    (h : revision + db'.snapshotCount < 2 ^ 63 + db.snapshotCount) : PushFits db db' := by
  intro revision' hrev'
  rw [hrev] at hrev'
  rwa [← Except.ok.inj hrev']

theorem RestoreFits.of_eq {live content db' : Database} {m r : Nat} (hm : currentRevision live = .ok m)
    (hr : currentRevision content = .ok r)
    (h : rebasedRevision m r content + db'.snapshotCount < 2 ^ 63 + content.snapshotCount) :
    RestoreFits live content db' := by
  intro m' r' hm' hr'
  rw [hm] at hm'
  rw [hr] at hr'
  rwa [← Except.ok.inj hm', ← Except.ok.inj hr']

theorem exec_backupTo_ok {fault : Option StoreError} {s s' : SyncStore} {file : SourceFile} :
    (SyncStore.backupTo fault).exec s = (.ok file, s') ↔
      fault = none ∧ file = .database s.db ∧ s' = s := by
  rw [SyncStore.backupTo, exec_query_ok]
  exact and_congr_right fun _ => and_congr_left fun _ =>
    ⟨fun h => (Except.ok.inj h).symm, fun h => congrArg _ h.symm⟩

theorem open_eq_ok {db : Database} {s : SyncStore} : SyncStore.open (.database db) = .ok s ↔
    s.db = initConnection db ∧ currentRevision (initConnection db) = .ok s.revisionEvents := by
  simp only [SyncStore.open, Except.bind_eq_ok]
  constructor
  · rintro ⟨revision, hrev, h⟩
    obtain rfl := Except.ok.inj h
    exact ⟨rfl, hrev⟩
  · rintro ⟨hdb, hrev⟩
    exact ⟨_, hrev, congrArg _ (SyncStore.ext hdb.symm rfl)⟩

section Represents

variable [LawfulChrono τ] {s s' t : SyncStore} {J K : Journal (SyncChange τ)}

omit [LawfulChrono τ] in
theorem Represents.head_past_eq {live content : Database} (hJ : Represents live J) (hK : Represents content K)
    {db' : Database} (hfits : RestoreFits live content db') :
    (K.past J.head).head + db'.snapshotCount < 2 ^ 63 + content.snapshotCount := by
  have h := hfits _ _ hJ.currentRevision_eq hK.currentRevision_eq
  rw [Journal.head_past]
  unfold rebasedRevision at h
  obtain ⟨notes, snapshots, rfl⟩ := hK.tables
  have hnonempty : (∃ notes' ∈ some notes, notes'.rows ≠ []) ↔ K.entries ≠ [] := by
    rw [ne_eq, ← hK.rows_eq_nil rfl]
    simp
  simpa only [hnonempty] using h

theorem Represents.push {env : PushEnv τ} {request : PushRequest τ} {result : Except StoreError PushResponse}
    (h : Represents s.db J) (hpush : (SyncStore.push env request).exec s = (result, s')) (henv : env.InRange)
    (hr : request.InRange) (hfits : PushFits s.db s'.db) :
    s' = s ∨ Represents s'.db (J.offerAll changeTime SyncChange.id request.filled) := by
  cases result with
  | error e => exact .inl (exec_push_error hpush)
  | ok response =>
    obtain ⟨-, -, _, -, hloop, -⟩ := exec_push_ok.1 hpush
    exact .inr (h.pushChanges hloop henv.now hr (hfits _ h.currentRevision_eq))

theorem Represents.restoreFrom {env : RestoreEnv τ} {content : Database} (hJ : Represents s.db J)
    (hK : Represents content K) (h : (SyncStore.restoreFrom env (.database content)).exec s = (.ok (), s'))
    (henv : env.InRange) (hfits : RestoreFits s.db content s'.db) :
    ∃ ts, TombstonesOf env.restoreTime J K ts ∧ Represents s'.db ((K.past J.head).appendAll ts) := by
  obtain ⟨_, ⟨⟩, hrestored, -⟩ := exec_restoreFrom_ok h
  exact hJ.restored hK hrestored henv.now henv.restoreTime (hJ.head_past_eq hK hfits)

theorem Reachable.represents (h : Reachable τ s) : ∃ J : Journal (SyncChange τ), Represents s.db J := by
  induction h with
  | created => exact ⟨_, .created⟩
  | push _ hpush henv hr hfits ih =>
    obtain ⟨J, hJ⟩ := ih
    rcases hJ.push hpush henv hr hfits with rfl | h
    · exact ⟨J, hJ⟩
    · exact ⟨_, h⟩
  | reopen _ hopen ih =>
    obtain ⟨J, hJ⟩ := ih
    exact ⟨J, by rwa [(open_eq_ok.1 hopen).1, hJ.initConnection_eq]⟩
  | restore _ _ hbackup hrestore henv hfits ihs iht =>
    obtain ⟨J, hJ⟩ := ihs
    obtain ⟨K, hK⟩ := iht
    obtain ⟨-, rfl, -⟩ := exec_backupTo_ok.1 hbackup
    obtain ⟨ts, -, h⟩ := hJ.restoreFrom hK hrestore henv hfits
    exact ⟨_, h⟩

end Represents

namespace Sample

theorem pushEnv_inRange : pushEnv.InRange := ⟨fun _ => show FourDigitYear eight by decide⟩

theorem restoreEnv_inRange : (restoreEnv nine).InRange :=
  have hnine : FourDigitYear nine := by decide
  ⟨fun _ => hnine, hnine⟩

theorem reachable_pushed {request : PushRequest Civil} (hr : request.InRange)
    (h : (pushed request .created).db.snapshotCount < 2 ^ 63) :
    Reachable Civil (pushed request .created) := by
  have hrev : currentRevision SyncStore.created.db = .ok 0 := by decide +kernel
  exact .push .created rfl pushEnv_inRange hr (.of_eq hrev (by omega))

theorem reachable_oneNote : Reachable Civil oneNoteStore :=
  reachable_pushed (by decide) (by decide +kernel)

theorem reachable_twoVersions : Reachable Civil twoVersionsStore :=
  reachable_pushed (by decide) (by decide +kernel)

theorem reachable_otherNotes : Reachable Civil otherNotesStore :=
  reachable_pushed (by decide) (by decide +kernel)

end Sample

/-! ### How the two tables fit together -/

variable (τ) in
structure StoreInvariant (notes : NotesTable) (snapshots : SnapshotTable) : Prop where
  revision_pos : ∀ row ∈ notes.rows, 0 < row.revision
  revision_nodup : (notes.rows.map NoteRow.revision).Nodup
  snapshot_nodup : (snapshots.rows.map SnapshotRow.revision).Nodup
  snapshot_le : ∃ revision, currentRevision ⟨some notes, some snapshots⟩ = .ok revision ∧
    ∀ s ∈ snapshots.rows, s.revision ≤ revision
  note_of_snapshot : ∀ s ∈ snapshots.rows, ∃ row ∈ notes.rows, row.id = s.noteId
  /-- Exactly one snapshot has the id and the revision of a note; it is the note's, and its latest. -/
  snapshot_of_note : ∀ row ∈ notes.rows, ∃ s ∈ snapshots.rows,
    s.change = row.change ∧ s.revision = row.revision ∧
    (∀ s' ∈ snapshots.rows, s'.noteId = row.id → s'.revision = row.revision → s' = s) ∧
    ∀ s' ∈ snapshots.rows, s'.noteId = row.id → s'.revision ≤ s.revision
  history : ∀ id, ∃ history : List (NoteSnapshot τ),
    noteHistory ⟨some notes, some snapshots⟩ id = .ok history ∧
    history.Pairwise (fun a b => b.revision < a.revision) ∧
    noteDetail ⟨some notes, some snapshots⟩ id = .ok (history.head?.map NoteSnapshot.toDetail)

section Invariant

variable {notes : NotesTable} {snapshots : SnapshotTable} {J : Journal (SyncChange τ)}

namespace Represents

theorem snapshot_revisions (h : Represents ⟨some notes, some snapshots⟩ J) :
    snapshots.rows.Pairwise fun s s' => s.revision < s'.revision := by
  have hinc : (J.entries.map noteRow).Pairwise fun r r' => r.revision < r'.revision :=
    List.pairwise_map.2 (J.increasing.imp fun h => Int.ofNat_lt.2 h)
  rwa [← h.entries snapshots rfl, List.pairwise_map] at hinc

theorem eq_of_revision_eq (h : Represents ⟨some notes, some snapshots⟩ J) {s s' : SnapshotRow}
    (hs : s ∈ snapshots.rows) (hs' : s' ∈ snapshots.rows) (heq : s.revision = s'.revision) : s = s' :=
  List.inj_on_of_nodup_map (List.pairwise_map.2 (h.snapshot_revisions.imp ne_of_lt)) hs hs' heq

theorem revision_nodup (h : Represents ⟨some notes, some snapshots⟩ J) :
    (notes.rows.map NoteRow.revision).Nodup := by
  refine (List.Nodup.of_map _ notes.nodup).map_on fun row hrow row' hrow' heq => ?_
  obtain ⟨e, he, rfl⟩ := (h.mem_notes rfl).1 hrow
  obtain ⟨e', he', rfl⟩ := (h.mem_notes rfl).1 hrow'
  rw [Journal.eq_of_revision_eq (Journal.latest_spec he).1 (Journal.latest_spec he').1
    (Int.ofNat_inj.1 heq)]

theorem note_of_snapshot (h : Represents ⟨some notes, some snapshots⟩ J) {s : SnapshotRow}
    (hs : s ∈ snapshots.rows) : ∃ row ∈ notes.rows, row.id = s.noteId := by
  obtain ⟨e, he, heq⟩ := h.exists_entry hs
  obtain ⟨e', he'⟩ : ∃ e', J.latest SyncChange.id e.2.id = some e' := Journal.exists_latest he
  have hid : e'.2.id = e.2.id := (Journal.latest_spec he').2.1
  refine ⟨noteRow e', (h.mem_notes rfl).2 ⟨e', hid ▸ he', rfl⟩, ?_⟩
  rw [noteRow_id, hid, ← noteRow_id e, heq]
  rfl

theorem snapshot_of_note (h : Represents ⟨some notes, some snapshots⟩ J) {row : NoteRow}
    (hrow : row ∈ notes.rows) : ∃ s ∈ snapshots.rows, s.change = row.change ∧ s.revision = row.revision ∧
      (∀ s' ∈ snapshots.rows, s'.noteId = row.id → s'.revision = row.revision → s' = s) ∧
      ∀ s' ∈ snapshots.rows, s'.noteId = row.id → s'.revision ≤ s.revision := by
  obtain ⟨e, he, rfl⟩ := (h.mem_notes rfl).1 hrow
  obtain ⟨hmem, -, hmax⟩ := Journal.latest_spec he
  obtain ⟨s, hs, heq⟩ := h.exists_snapshot hmem
  obtain ⟨hchange, hrevision⟩ := NoteRow.mk.inj heq
  refine ⟨s, hs, hchange, hrevision,
    fun s' hs' _ hr => h.eq_of_revision_eq hs' hs (hr.trans hrevision.symm), fun s' hs' hid => ?_⟩
  obtain ⟨e', he', heq'⟩ := h.exists_entry hs'
  have hid' : e'.2.id = e.2.id := by rw [← noteRow_id e', heq', ← noteRow_id e, ← hid]; rfl
  rw [hrevision, ← (NoteRow.mk.inj heq').2]
  exact Int.ofNat_le.2 (hmax e' he' hid')

theorem head?_historyRows (h : Represents ⟨some notes, some snapshots⟩ J) (id : String) :
    (historyRows snapshots id).head?.map (fun s => (⟨s.change, s.revision⟩ : NoteRow)) = notes.lookup id := by
  cases hrows : historyRows snapshots id with
  | nil =>
    symm
    refine Keyed.lookup_eq_none.2 fun row hrow hid => ?_
    obtain ⟨s, hs, hchange, -, -⟩ := h.snapshot_of_note hrow
    have hmem : s ∈ historyRows snapshots id := mem_historyRows.2
      ⟨hs, (congrArg ChangeRow.id hchange).trans hid⟩
    rw [hrows] at hmem
    cases hmem
  | cons s rows =>
    obtain ⟨hs, hid⟩ := mem_historyRows.1 (hrows ▸ List.mem_cons_self .. : s ∈ historyRows snapshots id)
    obtain ⟨row, hrow, hrowid⟩ := h.note_of_snapshot hs
    obtain ⟨s', hs', hchange, hrevision, -, hmax⟩ := h.snapshot_of_note hrow
    have hsorted := historyRows_pairwise snapshots id
    have hmem : s' ∈ historyRows snapshots id := mem_historyRows.2
      ⟨hs', (congrArg ChangeRow.id hchange).trans (hrowid.trans hid)⟩
    rw [hrows] at hsorted hmem
    have hle : s'.revision ≤ s.revision := by
      rcases List.mem_cons.1 hmem with rfl | hmem
      · exact le_refl _
      · exact (List.pairwise_cons.1 hsorted).1 s' hmem
    obtain rfl := h.eq_of_revision_eq hs' hs (le_antisymm hle (hmax s hs hrowid.symm))
    rw [← hid, ← hrowid, Keyed.lookup_key hrow]
    show some (⟨s'.change, s'.revision⟩ : NoteRow) = some row
    rw [hchange, hrevision]

theorem exists_revision (h : Represents ⟨some notes, some snapshots⟩ J) {s : SnapshotRow}
    (hs : s ∈ snapshots.rows) : ∃ r : Nat, s.revision = r ∧ r < 2 ^ 63 := by
  obtain ⟨e, he, heq⟩ := h.exists_entry hs
  exact ⟨e.1, (NoteRow.mk.inj heq).2.symm, h.revision_lt he⟩

theorem historyRows_pairwise (h : Represents ⟨some notes, some snapshots⟩ J) (id : String) :
    (historyRows snapshots id).Pairwise fun a b => asU64 b.revision < asU64 a.revision := by
  have hnodup : (historyRows snapshots id).Nodup :=
    (List.perm_insertionSort _ _).nodup_iff.2 ((List.Nodup.of_map _ snapshots.nodup).filter _)
  refine ((FloralSync.historyRows_pairwise snapshots id).and hnodup).imp_of_mem fun {a b} ha hb hab => ?_
  obtain ⟨ha, -⟩ := mem_historyRows.1 ha
  obtain ⟨hb, -⟩ := mem_historyRows.1 hb
  have hne : a.revision ≠ b.revision := fun heq => hab.2 (h.eq_of_revision_eq ha hb heq)
  have hlt : b.revision < a.revision := lt_of_le_of_ne hab.1 hne.symm
  obtain ⟨ra, hra, hra'⟩ := h.exists_revision ha
  obtain ⟨rb, hrb, hrb'⟩ := h.exists_revision hb
  rw [hra, hrb] at hlt ⊢
  rw [asU64_natCast (by omega), asU64_natCast (by omega)]
  exact Int.ofNat_lt.1 hlt

theorem exists_toNoteSnapshot [LawfulChrono τ] (h : Represents ⟨some notes, some snapshots⟩ J) {row : SnapshotRow}
    (hrow : row ∈ snapshots.rows) : ∃ s : NoteSnapshot τ, row.toNoteSnapshot = .ok s := by
  obtain ⟨e, he, heq⟩ := h.exists_entry hrow
  obtain ⟨hchange, hrevision⟩ := NoteRow.mk.inj heq
  obtain ⟨capturedAt, hcap⟩ := h.captured snapshots rfl row hrow
  have hlt := h.revision_lt he
  have hi : I64 row.revision := by
    rw [← hrevision]
    unfold I64
    omega
  have hdec : row.change.decode = some e.2 := hchange ▸ h.decode he
  simp only [SnapshotRow.toNoteSnapshot, Except.bind_eq_ok, getI64_eq_ok, ChangeRow.toChange_eq_ok, parseRowTime_eq_ok]
  exact ⟨_, _, ⟨hi, rfl⟩, e.2, hdec, capturedAt, hcap, rfl⟩

theorem exists_noteHistory [LawfulChrono τ] (h : Represents ⟨some notes, some snapshots⟩ J) (id : String) :
    ∃ history : List (NoteSnapshot τ), noteHistory ⟨some notes, some snapshots⟩ id = .ok history ∧
      history.Pairwise (fun a b => b.revision < a.revision) ∧
      noteDetail ⟨some notes, some snapshots⟩ id = .ok (history.head?.map NoteSnapshot.toDetail) := by
  have hread : ∀ row ∈ historyRows snapshots id, ∃ s : NoteSnapshot τ, row.toNoteSnapshot = .ok s := fun row hrow =>
    h.exists_toNoteSnapshot (mem_historyRows.1 hrow).1
  obtain ⟨history, hhistory⟩ := List.exists_forall₂ hread
  have hrevisions : (historyRows snapshots id).map (fun row => asU64 row.revision) =
      history.map NoteSnapshot.revision := by
    refine List.forall₂_map_eq_iff.1 (hhistory.imp fun row s hs => ?_)
    obtain ⟨-, change, -, hdetail, -⟩ := SnapshotRow.toNoteSnapshot_eq_ok.1 hs
    exact (congrArg NoteDetail.revision hdetail).symm
  refine ⟨history, noteHistory_eq_ok.2 ⟨snapshots, rfl, hhistory⟩, ?_, ?_⟩
  · have hsorted : ((historyRows snapshots id).map fun row => asU64 row.revision).Pairwise fun a b => b < a :=
      List.pairwise_map.2 (h.historyRows_pairwise id)
    rw [hrevisions] at hsorted
    exact List.pairwise_map.1 hsorted
  · have hhead := h.head?_historyRows id
    refine noteDetail_eq_ok.2 ⟨notes, rfl, ?_⟩
    rw [← hhead]
    clear hread hrevisions hhead
    generalize historyRows snapshots id = rows at hhistory
    cases hhistory with
    | nil => rfl
    | @cons row s _ _ hs =>
      obtain ⟨hi, change, hdec, hdetail, -, -⟩ := SnapshotRow.toNoteSnapshot_eq_ok.1 hs
      exact ⟨change, hdec, hi, congrArg some hdetail⟩

/-- The tables of a database that represents a journal fit together. -/
theorem storeInvariant [LawfulChrono τ] (h : Represents ⟨some notes, some snapshots⟩ J) :
    StoreInvariant τ notes snapshots where
  revision_pos := by
    intro row hrow
    obtain ⟨e, he, rfl⟩ := (h.mem_notes rfl).1 hrow
    exact Int.natCast_pos.2 (J.positive e (Journal.latest_spec he).1)
  revision_nodup := h.revision_nodup
  snapshot_nodup := List.pairwise_map.2 (h.snapshot_revisions.imp ne_of_lt)
  snapshot_le := by
    refine ⟨J.head, h.currentRevision_eq, fun s hs => ?_⟩
    obtain ⟨e, he, heq⟩ := h.exists_entry hs
    rw [← (NoteRow.mk.inj heq).2]
    exact Int.ofNat_le.2 (Journal.le_head he)
  note_of_snapshot := fun s hs => h.note_of_snapshot hs
  snapshot_of_note := fun row hrow => h.snapshot_of_note hrow
  history := h.exists_noteHistory

end Represents
end Invariant

theorem reachable_storeInvariant [LawfulChrono τ] {s : SyncStore} (h : Reachable τ s) :
    ∃ notes snapshots, s.db = ⟨some notes, some snapshots⟩ ∧ StoreInvariant τ notes snapshots := by
  obtain ⟨J, hJ⟩ := h.represents
  obtain ⟨notes, snapshots, hdb⟩ := hJ.tables
  rw [hdb] at hJ
  exact ⟨notes, snapshots, hdb, hJ.storeInvariant⟩

theorem reachable_storeInvariant_of_restored : ∃ notes snapshots,
    (Sample.restored Sample.nine SyncStore.created.db Sample.oneNoteStore).db =
      ⟨some notes, some snapshots⟩ ∧ StoreInvariant Civil notes snapshots := by
  have hm : currentRevision Sample.oneNoteStore.db = .ok 1 := by decide +kernel
  have hr : currentRevision SyncStore.created.db = .ok 0 := by decide +kernel
  exact reachable_storeInvariant (.restore Sample.reachable_oneNote .created (Sample.exec_backupTo _)
    (Sample.exec_restoreFrom (by decide +kernel)) Sample.restoreEnv_inRange
    (.of_eq hm hr (by decide +kernel)))

end FloralSync

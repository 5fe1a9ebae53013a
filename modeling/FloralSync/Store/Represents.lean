import FloralSync.Replication.Journal
import FloralSync.Replication.Pull
import FloralSync.Store.Restore
import FloralSync.Store.Runs

/-!
# The journal behind a database

A database that the server wrote holds a journal of changes: `note_snapshots` lists its entries, and
`notes` has the latest entry of each note id. A push offers its changes to the journal
(`Represents.pushChanges`), opening changes nothing (`Represents.initConnection_eq`), and a restore
moves the journal of the file past the live one and appends the tombstones (`Represents.restored`).
-/

namespace FloralSync

open Replication

variable {τ : Type} [Chrono τ]

/-- The record that the database gives back to a client for a note id. -/
def recordAt (db : Database) (id : String) : Option (RevisionedChange τ) :=
  (noteAt db id).bind NoteRow.record

/-- The row of `notes` for an entry. -/
def noteRow (e : Nat × SyncChange τ) : NoteRow := ⟨.ofChange e.2, e.1⟩

/-- The record of an entry. -/
def entryRecord (e : Nat × SyncChange τ) : RevisionedChange τ := ⟨e.1, e.2⟩

omit [Chrono τ] in
theorem entryRecord_injective : Function.Injective (entryRecord (τ := τ)) := by
  rintro ⟨r, c⟩ ⟨r', c'⟩ h
  cases h
  rfl

@[simp] theorem noteRow_id (e : Nat × SyncChange τ) : (noteRow e).id = e.2.id := rfl

@[simp] theorem noteRow_revision (e : Nat × SyncChange τ) : (noteRow e).revision = e.1 := rfl

structure Represents (db : Database) (J : Journal (SyncChange τ)) : Prop where
  tables : ∃ notes snapshots, db = ⟨some notes, some snapshots⟩
  lookup : ∀ notes ∈ db.notes, ∀ id, notes.lookup id = (J.latest SyncChange.id id).map noteRow
  entries : ∀ snapshots ∈ db.noteSnapshots,
    snapshots.rows.map (fun row => (⟨row.change, row.revision⟩ : NoteRow)) = J.entries.map noteRow
  captured : ∀ snapshots ∈ db.noteSnapshots, ∀ row ∈ snapshots.rows,
    ∃ t : τ, parseFromRfc3339 row.capturedAt = some t
  inRange : ∀ e ∈ J.entries, e.2.InRange
  head_lt : J.head < 2 ^ 63

namespace Represents

variable {db db' : Database} {J : Journal (SyncChange τ)} {notes : NotesTable} {snapshots : SnapshotTable}
  {row : NoteRow} {id : String}

theorem created : Represents SyncStore.created.db (.empty : Journal (SyncChange τ)) where
  tables := ⟨_, _, rfl⟩
  lookup := by rintro _ ⟨⟩ id; rfl
  entries := by rintro _ ⟨⟩; rfl
  captured := by rintro _ ⟨⟩; nofun
  inRange := nofun
  head_lt := Nat.two_pow_pos 63

theorem mem_notes (h : Represents db J) (hn : db.notes = some notes) :
    row ∈ notes.rows ↔ ∃ e, J.latest SyncChange.id e.2.id = some e ∧ noteRow e = row := by
  constructor
  · intro hrow
    have hlook := h.lookup notes hn row.id
    rw [Keyed.lookup_key hrow] at hlook
    obtain ⟨e, he, hrow⟩ := Option.map_eq_some_iff.1 hlook.symm
    have hid : e.2.id = row.id := (Journal.latest_spec he).2.1
    exact ⟨e, hid ▸ he, hrow⟩
  · rintro ⟨e, he, rfl⟩
    have hlook := h.lookup notes hn e.2.id
    rw [he] at hlook
    exact (Keyed.lookup_eq_some.1 hlook).1

theorem rows_eq_nil (h : Represents db J) (hn : db.notes = some notes) : notes.rows = [] ↔ J.entries = [] := by
  constructor
  · intro hrows
    by_contra hnil
    obtain ⟨e, -, he⟩ := Journal.exists_latest_head SyncChange.id hnil
    have hmem := (h.mem_notes hn).2 ⟨e, he, rfl⟩
    rw [hrows] at hmem
    cases hmem
  · intro hnil
    refine List.eq_nil_iff_forall_not_mem.2 fun row hrow => ?_
    obtain ⟨e, he, -⟩ := (h.mem_notes hn).1 hrow
    have hmem := (Journal.latest_spec he).1
    rw [hnil] at hmem
    cases hmem

theorem revision_lt (h : Represents db J) {e : Nat × SyncChange τ} (he : e ∈ J.entries) : e.1 < 2 ^ 63 :=
  Nat.lt_of_le_of_lt (Journal.le_head he) h.head_lt

theorem exists_entry (h : Represents ⟨some notes, some snapshots⟩ J) {s : SnapshotRow}
    (hs : s ∈ snapshots.rows) : ∃ e ∈ J.entries, noteRow e = ⟨s.change, s.revision⟩ := by
  have hmem : (⟨s.change, s.revision⟩ : NoteRow) ∈ J.entries.map noteRow := by
    rw [← h.entries snapshots rfl]
    exact List.mem_map_of_mem hs
  exact List.mem_map.1 hmem

theorem exists_snapshot (h : Represents ⟨some notes, some snapshots⟩ J) {e : Nat × SyncChange τ}
    (he : e ∈ J.entries) : ∃ s ∈ snapshots.rows, (⟨s.change, s.revision⟩ : NoteRow) = noteRow e := by
  have hmem : noteRow e ∈ snapshots.rows.map fun row => (⟨row.change, row.revision⟩ : NoteRow) := by
    rw [h.entries snapshots rfl]
    exact List.mem_map_of_mem he
  exact List.mem_map.1 hmem

theorem maxRevision_eq (h : Represents db J) (hn : db.notes = some notes) :
    maxRevision notes.rows = J.head := by
  by_cases hnil : J.entries = []
  · rw [(h.rows_eq_nil hn).2 hnil, Journal.head_eq_zero.2 hnil]
    rfl
  · obtain ⟨e, hhead, he⟩ := Journal.exists_latest_head SyncChange.id hnil
    have hmem : noteRow e ∈ notes.rows := (h.mem_notes hn).2 ⟨e, he, rfl⟩
    refine le_antisymm ?_ ?_
    · obtain ⟨row, hrow, hmax⟩ := exists_maxRevision (List.ne_nil_of_mem hmem)
      obtain ⟨e', he', rfl⟩ := (h.mem_notes hn).1 hrow
      rw [← hmax]
      exact Int.ofNat_le.2 (Journal.le_head (Journal.latest_spec he').1)
    · rw [← hhead]
      exact le_maxRevision hmem

theorem i64 (h : Represents db J) (hn : db.notes = some notes) (hrow : row ∈ notes.rows) :
    I64 row.revision := by
  obtain ⟨e, he, rfl⟩ := (h.mem_notes hn).1 hrow
  have := h.revision_lt (Journal.latest_spec he).1
  unfold I64
  rw [noteRow_revision]
  omega

theorem currentRevision_eq (h : Represents db J) : currentRevision db = .ok J.head := by
  obtain ⟨notes, snapshots, rfl⟩ := h.tables
  have hlt := h.head_lt
  refine currentRevision_eq_ok.2 ⟨notes, rfl, ?_, ?_⟩
  · rw [h.maxRevision_eq rfl]
    unfold I64
    omega
  · rw [h.maxRevision_eq rfl, asU64_natCast (by omega)]

theorem opened (h : Represents db J) : Opened db := by
  obtain ⟨notes, snapshots, rfl⟩ := h.tables
  exact opened_iff.2 ⟨nofun, nofun, J.head, h.currentRevision_eq⟩

theorem noteAt_eq (h : Represents db J) (id : String) :
    noteAt db id = (J.latest SyncChange.id id).map noteRow := by
  obtain ⟨notes, snapshots, rfl⟩ := h.tables
  exact h.lookup notes rfl id

section Lawful

variable [LawfulChrono τ]

theorem decode (h : Represents db J) {e : Nat × SyncChange τ} (he : e ∈ J.entries) :
    (noteRow e).change.decode = some e.2 :=
  (ChangeRow.decode_ofChange e.2).trans (if_pos (h.inRange e he))

/-- The record of a note is its latest entry. -/
theorem recordAt_eq (h : Represents db J) (id : String) : recordAt db id =
    (J.latest SyncChange.id id).map entryRecord := by
  rw [recordAt, h.noteAt_eq]
  cases he : J.latest SyncChange.id id with
  | none => rfl
  | some e =>
    have hmem := (Journal.latest_spec he).1
    have hlt := h.revision_lt hmem
    have hi : I64 (noteRow e).revision := by
      rw [noteRow_revision]
      unfold I64
      omega
    have hrev : asU64 (noteRow e).revision = e.1 := asU64_natCast (by omega)
    rw [Option.map_some, Option.map_some, Option.bind_some, NoteRow.record_eq_some]
    exact ⟨hi, h.decode hmem, hrev⟩

theorem cellAt_eq (h : Represents db J) (id : String) : (cellAt db id : Cell (SyncChange τ)) =
    match J.latest SyncChange.id id with
    | none => .absent
    | some e => .holds e.2 := by
  obtain ⟨notes, snapshots, rfl⟩ := h.tables
  have hlook := h.lookup notes rfl id
  cases he : J.latest SyncChange.id id with
  | none =>
    rw [he] at hlook
    exact cellAt_of_lookup_none rfl hlook
  | some e =>
    rw [he] at hlook
    rw [cellAt_of_lookup rfl hlook, h.decode (Journal.latest_spec he).1]

/-- Storing a change appends it. -/
theorem withChange {now : Nat → τ} {change : SyncChange τ}
    (h : Represents ⟨some notes, some snapshots⟩ J) (hnow : ∀ id, FourDigitYear (now id))
    (hc : change.InRange) (hfits : J.head + 1 < 2 ^ 63) :
    Represents (.withChange now change (J.head + 1) notes snapshots) (J.append change) where
  tables := ⟨_, _, rfl⟩
  lookup := by
    rintro _ ⟨⟩ id
    rw [Keyed.lookup_upsert, Journal.latest_append, asI64_of_lt hfits]
    show (if change.id = id then _ else _) = _
    split_ifs with hid
    · rfl
    · exact h.lookup notes rfl id
  entries := by
    rintro _ ⟨⟩
    rw [SnapshotTable.rows_insert, List.map_append, h.entries snapshots rfl, asI64_of_lt hfits,
      Journal.entries_append, List.map_append]
    rfl
  captured := by
    rintro _ ⟨⟩ row hrow
    rw [SnapshotTable.rows_insert] at hrow
    rcases List.mem_append.1 hrow with hrow | hrow
    · exact h.captured snapshots rfl row hrow
    · rw [List.mem_singleton.1 hrow]
      exact ⟨_, LawfulChrono.parse_toRfc3339 _ (hnow _)⟩
  inRange := by
    intro e he
    rcases List.mem_append.1 he with he | he
    · exact h.inRange e he
    · rw [List.mem_singleton.1 he]
      exact hc
  head_lt := by rwa [Journal.head_append]

/-- A round of a push offers its change to the journal, and the revisions grow with the snapshots. -/
theorem pushed {now : Nat → τ} {change : SyncChange τ} (h : Represents db J)
    (hpushed : Pushed now change db db') (hnow : ∀ id, FourDigitYear (now id)) (hc : change.InRange)
    (hfits : J.head + db'.snapshotCount < 2 ^ 63 + db.snapshotCount) :
    Represents db' (J.offer changeTime SyncChange.id change) ∧
      (J.offer changeTime SyncChange.id change).head + db.snapshotCount = J.head + db'.snapshotCount := by
  cases hpushed with
  | @skipped old hcell hs =>
    rw [h.cellAt_eq] at hcell
    cases he : J.latest SyncChange.id change.id with
    | none => rw [he] at hcell; cases hcell
    | some e =>
      rw [he] at hcell
      obtain rfl := Cell.holds.inj hcell
      rw [Journal.offer, he, if_pos (by simpa using hs)]
      exact ⟨h, rfl⟩
  | stored hdb hrev hnew hread =>
    have hoffer : J.offer changeTime SyncChange.id change = J.append change := by
      rw [Journal.offer]
      cases he : J.latest SyncChange.id change.id with
      | none => rfl
      | some e =>
        have hs := hnew e.2 (by rw [h.cellAt_eq, he])
        rw [if_neg (by simpa using hs)]
    rw [h.currentRevision_eq] at hrev
    obtain rfl := Except.ok.inj hrev
    subst hdb
    rw [snapshotCount_withChange] at hfits ⊢
    rw [hoffer, Journal.head_append]
    exact ⟨h.withChange hnow hc (by omega), by omega⟩

/-- A push offers its changes to the journal in turn. -/
theorem pushChanges {now : Nat → τ} {request : PushRequest τ} (h : Represents db J)
    (hpush : pushChanges now request db = .ok db') (hnow : ∀ id, FourDigitYear (now id))
    (hr : request.InRange) (hfits : J.head + db'.snapshotCount < 2 ^ 63 + db.snapshotCount) :
    Represents db' (J.offerAll changeTime SyncChange.id request.filled) := by
  refine (pushChanges_induct (P := fun done db₁ => (∀ c ∈ done, c.InRange) →
    J.head + db₁.snapshotCount < 2 ^ 63 + db.snapshotCount →
    Represents db₁ (J.offerAll changeTime SyncChange.id done) ∧
      (J.offerAll changeTime SyncChange.id done).head + db.snapshotCount = J.head + db₁.snapshotCount)
    (fun _ _ => ⟨h, rfl⟩) (fun done change db₁ db₂ hP hpushed hrange hfits => ?_) hpush hr.filled hfits).1
  have hle : db₁.snapshotCount ≤ db₂.snapshotCount := by
    rcases hpushed.skipped_or_grew with ⟨-, rfl⟩ | ⟨-, hlt⟩
    · exact le_refl _
    · exact hlt.le
  obtain ⟨hrep, hcount⟩ := hP (fun c hc => hrange c (List.mem_append_left _ hc)) (by omega)
  rw [Journal.offerAll_concat]
  obtain ⟨hrep', hcount'⟩ := hrep.pushed hpushed hnow (hrange change (by simp)) (by omega)
  exact ⟨hrep', by omega⟩

omit [LawfulChrono τ] in
/-- There is nothing to create and nothing to backfill. -/
theorem initConnection_eq (h : Represents db J) : initConnection db = db := by
  obtain ⟨notes, snapshots, rfl⟩ := h.tables
  have hcovered : notes.rows.filter (fun note =>
      !snapshots.rows.any fun s => s.noteId = note.id ∧ s.revision = note.revision) = [] := by
    refine List.filter_eq_nil_iff.2 fun row hrow => ?_
    obtain ⟨e, he, rfl⟩ := (h.mem_notes rfl).1 hrow
    obtain ⟨s, hs, heq⟩ := h.exists_snapshot (Journal.latest_spec he).1
    simp only [Bool.not_eq_true, Bool.not_eq_false', List.any_eq_true, decide_eq_true_eq]
    exact ⟨s, hs, by rw [← heq]; exact ⟨rfl, rfl⟩⟩
  show (⟨some notes, some (backfillMissingSnapshots notes snapshots)⟩ : Database) = _
  rw [backfillMissingSnapshots, hcovered]
  rfl

omit [LawfulChrono τ] in
theorem shifted {n : Nat} (h : Represents ⟨some notes, some snapshots⟩ J) (hn : n < 2 ^ 63)
    (hfits : (J.shift n).head < 2 ^ 63) :
    Represents (FloralSync.shifted (asI64 n) notes snapshots) (J.shift n) where
  tables := ⟨_, _, rfl⟩
  lookup := by
    rintro _ ⟨⟩ id
    refine (Keyed.lookup_map notes _ _ id).trans ?_
    rw [h.lookup notes rfl id, Journal.latest_shift, asI64_of_lt hn]
    cases J.latest SyncChange.id id <;> rfl
  entries := by
    rintro _ ⟨⟩
    calc (snapshots.mapRevisions (· + asI64 n)).rows.map
            (fun row => (⟨row.change, row.revision⟩ : NoteRow))
        = (snapshots.rows.map fun row => (⟨row.change, row.revision⟩ : NoteRow)).map
            (.shift (asI64 n)) := by
          show (snapshots.rows.map _).map _ = _
          rw [List.map_map, List.map_map]
          rfl
      _ = (J.shift n).entries.map noteRow := by
          rw [h.entries snapshots rfl, asI64_of_lt hn]
          show _ = (J.entries.map _).map noteRow
          rw [List.map_map, List.map_map]
          rfl
  captured := by
    rintro _ ⟨⟩ row hrow
    obtain ⟨old, hold, rfl⟩ := List.mem_map.1 hrow
    exact h.captured snapshots rfl old hold
  inRange := by
    intro e he
    obtain ⟨old, hold, rfl⟩ := List.mem_map.1 he
    exact h.inRange old hold
  head_lt := hfits

omit [LawfulChrono τ] in
theorem rebased {n : Nat} (h : Represents db J) (hn : n < 2 ^ 63) (hfits : (J.past n).head < 2 ^ 63)
    (hrebased : Rebased n db db') : Represents db' (J.past n) := by
  obtain ⟨restoredRevision, hrev, hrebased⟩ := hrebased
  rw [h.currentRevision_eq] at hrev
  obtain rfl := Except.ok.inj hrev
  unfold Journal.past at hfits ⊢
  by_cases hle : J.head ≤ n
  · rw [if_pos hle] at hfits ⊢
    by_cases hne : n = 0
    · rw [if_neg (by simp [hne])] at hrebased
      rwa [hne, Journal.shift_zero, hrebased]
    · rw [if_pos ⟨hle, hne⟩] at hrebased
      obtain ⟨notes, snapshots, rfl, rfl⟩ := hrebased
      exact h.shifted hn hfits
  · rw [if_neg fun h => hle h.1] at hrebased
    rwa [if_neg hle, Journal.shift_zero, hrebased]

theorem tombstoned {env : RestoreEnv τ} {previous restored : List (SyncChange τ)} (h : Represents db J)
    (hstore : Tombstoned env previous restored db db') (hnow : ∀ id, FourDigitYear (env.now id))
    (hrange : ∀ c ∈ tombstones env.restoreTime previous restored, c.InRange)
    (hfits : J.head + (tombstones env.restoreTime previous restored).length < 2 ^ 63) :
    Represents db' (J.appendAll (tombstones env.restoreTime previous restored)) := by
  obtain ⟨n, hdone⟩ := hstore.induct (P := fun done n db => (∀ c ∈ done, c.InRange) →
      J.head + done.length < 2 ^ 63 → Represents db (J.appendAll done) ∧ (J.appendAll done).head = n)
    (fun revision hrev _ _ => by
      rw [h.currentRevision_eq] at hrev
      rw [Journal.appendAll_nil]
      exact ⟨h, Except.ok.inj hrev⟩)
    (fun done c n notes snapshots hP hrange hlt => by
      rw [List.length_append, List.length_singleton] at hlt
      obtain ⟨hdone, rfl⟩ := hP (fun c hc => hrange c (List.mem_append_left _ hc)) (by omega)
      rw [Journal.appendAll_concat, Journal.head_append]
      refine ⟨hdone.withChange hnow (hrange c (by simp)) ?_, rfl⟩
      rw [Journal.head_appendAll]
      omega)
  exact (hdone hrange hfits).1

end Lawful
end Represents

/-- The tombstones of a restore of `K` over `J`, in ascending order of their ids. -/
structure TombstonesOf (restoreTime : τ) (J K : Journal (SyncChange τ)) (ts : List (SyncChange τ)) : Prop where
  sorted : (ts.map SyncChange.id).Pairwise (· < ·)
  mem : ∀ c, c ∈ ts ↔ ∃ e, J.latest SyncChange.id e.2.id = some e ∧
    K.latest SyncChange.id e.2.id = none ∧ tombstone restoreTime e.2 = c

/-- A restore moves the journal of the file past the live one, and appends the tombstones. -/
theorem Represents.restored [LawfulChrono τ] {env : RestoreEnv τ} {live content db' : Database}
    {J K : Journal (SyncChange τ)} (hJ : Represents live J) (hK : Represents content K)
    (h : Restored env live content db') (hnow : ∀ id, FourDigitYear (env.now id))
    (ht : FourDigitYear env.restoreTime)
    (hfits : (K.past J.head).head + db'.snapshotCount < 2 ^ 63 + content.snapshotCount) :
    ∃ ts, TombstonesOf env.restoreTime J K ts ∧ Represents db' ((K.past J.head).appendAll ts) := by
  cases h with
  | @intro previousRevision revision previous restored rebased hprevious hload hrebased hload' hstore hrev =>
    rw [hJ.currentRevision_eq] at hprevious
    obtain rfl := Except.ok.inj hprevious
    have hcount := hstore.snapshotCount_eq
    rw [hrebased.snapshotCount_eq] at hcount
    have hrep : Represents rebased (K.past J.head) := hK.rebased hJ.head_lt (by omega) hrebased
    have hprevious : ∀ p, p ∈ previous ↔ ∃ e, J.latest SyncChange.id p.id = some e ∧ e.2 = p := by
      intro p
      rw [mem_of_loadAllChanges hload, hJ.cellAt_eq]
      cases J.latest SyncChange.id p.id <;> simp
    have hmissing : ∀ id, (∀ r ∈ restored, r.id ≠ id) ↔ K.latest SyncChange.id id = none := by
      intro id
      rw [forall_id_ne_iff hload', hrep.cellAt_eq, Journal.past, Journal.latest_shift]
      cases K.latest SyncChange.id id <;> simp
    have hnd := nodup_of_loadAllChanges hload
    have hmem : ∀ c, c ∈ tombstones env.restoreTime previous restored ↔
        ∃ e, J.latest SyncChange.id e.2.id = some e ∧ K.latest SyncChange.id e.2.id = none ∧
          tombstone env.restoreTime e.2 = c := by
      intro c
      rw [mem_tombstones hnd]
      simp only [hprevious, hmissing]
      constructor
      · rintro ⟨p, ⟨e, he, rfl⟩, hK, hc⟩
        exact ⟨e, he, hK, hc⟩
      · rintro ⟨e, he, hK, hc⟩
        exact ⟨e.2, ⟨e, he, rfl⟩, hK, hc⟩
    refine ⟨_, ⟨?_, hmem⟩, hrep.tombstoned hstore hnow (fun c hc => ?_) (by omega)⟩
    · rw [map_id_tombstones]
      exact missingNoteIds_pairwise hnd
    · obtain ⟨e, he, -, rfl⟩ := (hmem c).1 hc
      exact inRange_tombstone (hJ.inRange e (Journal.latest_spec he).1) ht

end FloralSync

import FloralSync.Replication.Register
import FloralSync.Store.Sync

/-!
# What a push does

`Pushed` lists what one round of the loop of `push` can do to the database. Seen at one note id, a
database is a `Cell` (`cellAt`), and a round is an offer of the change to the cell of its id
(`Pushed.cell_self`, `Pushed.cell_ne`); a push offers its changes in turn (`pushChanges_cell`), and
it succeeds when none of the offers fails (`exists_pushChanges`).
-/

namespace FloralSync

open Replication StoreM

variable {τ : Type} [Chrono τ]

def noteAt (db : Database) (id : String) : Option NoteRow := db.notes.bind (·.lookup id)

/-- What the database holds for a note id. -/
def cellAt (db : Database) (id : String) : Cell (SyncChange τ) :=
  match noteAt db id with
  | none => .absent
  | some row =>
    match (row.change.decode : Option (SyncChange τ)) with
    | none => .unreadable
    | some change => .holds change

theorem cellAt_eq_absent {db : Database} {id : String} :
    (cellAt db id : Cell (SyncChange τ)) = .absent ↔ noteAt db id = none := by
  unfold cellAt
  cases noteAt db id with
  | none => exact iff_of_true rfl rfl
  | some row => cases h : (row.change.decode : Option (SyncChange τ)) <;> simp [h]

theorem noteAt_eq_lookup {db : Database} {notes : NotesTable} (hn : db.notes = some notes) (id : String) :
    noteAt db id = notes.lookup id := by
  rw [noteAt, hn, Option.bind_some]

theorem noteAt_initConnection (db : Database) (id : String) :
    noteAt (initConnection db) id = noteAt db id := by
  obtain ⟨notes, snapshots⟩ := db
  cases notes <;> rfl

/-- The database in which `change` has been stored. -/
def Database.withChange (now : Nat → τ) (change : SyncChange τ) (revision : Nat) (notes : NotesTable)
    (snapshots : SnapshotTable) : Database :=
  ⟨some (notes.upsert ⟨.ofChange change, asI64 revision⟩),
    some (snapshots.insert (.ofChange change) (asI64 revision) fun id => toRfc3339 (now id))⟩

/-- One round of the loop of `push`, for a change that has its device id. -/
inductive Pushed (now : Nat → τ) (change : SyncChange τ) (db : Database) : Database → Prop
  | skipped {old : SyncChange τ} : cellAt db change.id = .holds old → Skips changeTime old change →
      Pushed now change db db
  | stored {notes : NotesTable} {snapshots : SnapshotTable} {revision : Nat} :
      db = ⟨some notes, some snapshots⟩ → currentRevision db = .ok revision →
      (∀ old : SyncChange τ, cellAt db change.id = .holds old → ¬ Skips changeTime old change) →
      cellAt db change.id ≠ (.unreadable : Cell (SyncChange τ)) →
      Pushed now change db (.withChange now change (revision + 1) notes snapshots)

section Step

variable {now : Nat → τ} {deviceId : String} {db db' : Database} {change : SyncChange τ}

theorem cellAt_of_lookup {notes : NotesTable} {row : NoteRow} {id : String} (hn : db.notes = some notes)
    (hrow : notes.lookup id = some row) : (cellAt db id : Cell (SyncChange τ)) =
      match (row.change.decode : Option (SyncChange τ)) with
      | none => .unreadable
      | some change => .holds change := by
  simp only [cellAt, noteAt, hn, Option.bind_some, hrow]

theorem cellAt_of_lookup_none {notes : NotesTable} {id : String} (hn : db.notes = some notes)
    (hrow : notes.lookup id = none) : (cellAt db id : Cell (SyncChange τ)) = .absent := by
  simp only [cellAt, noteAt, hn, Option.bind_some, hrow]

theorem cellAt_eq_holds {id : String} : cellAt db id = .holds change ↔
    ∃ row, noteAt db id = some row ∧ row.change.decode = some change := by
  unfold cellAt
  cases noteAt db id with
  | none => exact iff_of_false nofun fun ⟨_, h, _⟩ => nomatch h
  | some row => cases h : (row.change.decode : Option (SyncChange τ)) <;> simp [h]

theorem cellAt_eq_unreadable {id : String} : (cellAt db id : Cell (SyncChange τ)) = .unreadable ↔
    ∃ row, noteAt db id = some row ∧ (row.change.decode : Option (SyncChange τ)) = none := by
  unfold cellAt
  cases noteAt db id with
  | none => exact iff_of_false nofun fun ⟨_, h, _⟩ => nomatch h
  | some row => cases h : (row.change.decode : Option (SyncChange τ)) <;> simp [h]

theorem id_of_cellAt {id : String} (h : cellAt db id = .holds change) : change.id = id := by
  obtain ⟨row, hrow, hdec⟩ := cellAt_eq_holds.1 h
  obtain ⟨notes, -, hrow⟩ := Option.bind_eq_some_iff.1 hrow
  exact (ChangeRow.id_of_decode hdec).trans (Keyed.lookup_eq_some.1 hrow).2

theorem existingChange_eq_some {id : String} :
    existingChange db id = .ok (some change) ↔ cellAt db id = .holds change := by
  rw [existingChange_eq_ok, cellAt_eq_holds]
  constructor
  · rintro ⟨notes, hn, h⟩
    rw [noteAt_eq_lookup hn]
    cases hrow : notes.lookup id with
    | none => rw [hrow] at h; cases h
    | some row =>
      rw [hrow] at h
      obtain ⟨_, hdec, ⟨⟩⟩ := h
      exact ⟨row, rfl, hdec⟩
  · rintro ⟨row, hrow, hdec⟩
    obtain ⟨notes, hn, hrow⟩ := Option.bind_eq_some_iff.1 hrow
    exact ⟨notes, hn, by rw [hrow]; exact ⟨change, hdec, rfl⟩⟩

theorem exists_loadAllChanges_iff : (∃ changes : List (SyncChange τ), loadAllChanges db = .ok changes) ↔
    db.notes ≠ none ∧ ∀ id, (cellAt db id : Cell (SyncChange τ)) ≠ .unreadable := by
  simp only [loadAllChanges_eq_ok]
  constructor
  · rintro ⟨changes, notes, hn, hchanges⟩
    refine ⟨by rw [hn]; exact nofun, fun id hcell => ?_⟩
    obtain ⟨row, hrow, hdec⟩ := cellAt_eq_unreadable.1 hcell
    rw [noteAt_eq_lookup hn] at hrow
    obtain ⟨c, hc⟩ := List.exists_map_eq_some.1 ⟨changes, hchanges⟩ row
      (mem_sortedRows.2 (Keyed.lookup_eq_some.1 hrow).1)
    rw [hdec] at hc
    cases hc
  · rintro ⟨hn, hread⟩
    obtain ⟨notes, hn⟩ := Option.ne_none_iff_exists'.1 hn
    obtain ⟨changes, hchanges⟩ := List.exists_map_eq_some.2 fun row (hrow : row ∈ sortedRows notes) => by
      refine Option.ne_none_iff_exists'.1 fun hdec => hread row.id (cellAt_eq_unreadable.2 ⟨row, ?_, hdec⟩)
      rw [noteAt_eq_lookup hn]
      exact Keyed.lookup_key (mem_sortedRows.1 hrow)
    exact ⟨changes, notes, hn, hchanges⟩

theorem pushChange_pushed (h : pushChange now deviceId db change = .ok db') :
    Pushed now (fillDevice deviceId change) db db' := by
  obtain ⟨existing, hexisting, h⟩ := Except.bind_eq_ok.1 h
  obtain ⟨notes, hn, hexisting⟩ := existingChange_eq_ok.1 hexisting
  cases hrow : notes.lookup (fillDevice deviceId change).id with
  | none =>
    have hcell : (cellAt db (fillDevice deviceId change).id : Cell (SyncChange τ)) = .absent :=
      cellAt_of_lookup_none hn hrow
    rw [hrow] at hexisting
    subst hexisting
    obtain ⟨revision, hrev, h⟩ := Except.bind_eq_ok.1 h
    obtain ⟨notes, snapshots, hdb, rfl⟩ := storeChange_eq_ok.1 h
    exact .stored hdb hrev (by rw [hcell]; nofun) (by rw [hcell]; nofun)
  | some row =>
    rw [hrow] at hexisting
    obtain ⟨old, hold, rfl⟩ := hexisting
    have hcell : cellAt db (fillDevice deviceId change).id = .holds old := by
      rw [cellAt_of_lookup hn hrow, hold]
    dsimp only at h
    split_ifs at h with hs
    · obtain rfl := Except.ok.inj h
      exact .skipped hcell hs
    · obtain ⟨revision, hrev, h⟩ := Except.bind_eq_ok.1 h
      obtain ⟨notes, snapshots, hdb, rfl⟩ := storeChange_eq_ok.1 h
      refine .stored hdb hrev (fun old' h' => ?_) (by rw [hcell]; nofun)
      rw [hcell] at h'
      cases h'
      exact hs

theorem cellAt_congr {id : String}
    (h : (noteAt db id).map NoteRow.change = (noteAt db' id).map NoteRow.change) :
    (cellAt db id : Cell (SyncChange τ)) = cellAt db' id := by
  unfold cellAt
  cases hrow : noteAt db id <;> cases hrow' : noteAt db' id <;> rw [hrow, hrow'] at h
  · cases h
  · cases h
  · simp only [Option.some.inj h]

theorem noteAt_withChange (revision : Nat) (notes : NotesTable) (snapshots : SnapshotTable) (id : String) :
    noteAt (.withChange now change revision notes snapshots) id =
      if change.id = id then some ⟨.ofChange change, asI64 revision⟩
      else noteAt ⟨some notes, some snapshots⟩ id :=
  Keyed.lookup_upsert notes _ id

theorem cellAt_of_ofChange [LawfulChrono τ] {revision : Int} {id : String}
    (h : noteAt db id = some ⟨.ofChange change, revision⟩) :
    cellAt db id = Cell.stored SyncChange.InRange change := by
  rw [cellAt, h]
  show (match ((ChangeRow.ofChange change).decode : Option (SyncChange τ)) with | none => _ | some c => _) = _
  rw [ChangeRow.decode_ofChange]
  by_cases hr : change.InRange
  · rw [if_pos hr, Cell.stored_of_readable hr]
  · rw [if_neg hr, Cell.stored_of_not_readable hr]

theorem cellAt_withChange [LawfulChrono τ] (revision : Nat) (notes : NotesTable)
    (snapshots : SnapshotTable) (id : String) :
    cellAt (.withChange now change revision notes snapshots) id =
      if change.id = id then Cell.stored SyncChange.InRange change
      else cellAt ⟨some notes, some snapshots⟩ id := by
  have hnote : noteAt (.withChange now change revision notes snapshots) id = _ :=
    noteAt_withChange revision notes snapshots id
  split_ifs at hnote ⊢
  · exact cellAt_of_ofChange hnote
  · exact cellAt_congr (congrArg _ hnote)

namespace Pushed

variable [LawfulChrono τ]

theorem cell_self (h : Pushed now change db db') :
    Cell.offer changeTime SyncChange.InRange (cellAt db change.id) change =
      some (cellAt db' change.id) := by
  cases h with
  | skipped hcell hs => rw [hcell]; exact if_pos hs
  | stored hdb _ hnew hread =>
    rw [cellAt_withChange, if_pos rfl]
    cases hcell : (cellAt db change.id : Cell (SyncChange τ)) with
    | absent => rfl
    | unreadable => exact absurd hcell hread
    | holds old => exact if_neg (hnew old hcell)

theorem cell_ne (h : Pushed now change db db') {id : String} (hid : change.id ≠ id) :
    (cellAt db' id : Cell (SyncChange τ)) = cellAt db id := by
  cases h with
  | skipped => rfl
  | stored hdb => rw [cellAt_withChange, if_neg hid, hdb]

end Pushed
end Step

/-! ### Success

A database that the server has opened has both tables, and a current revision. -/

def Opened (db : Database) : Prop :=
  ∃ notes snapshots, db = ⟨some notes, some snapshots⟩ ∧ I64 (maxRevision notes.rows)

section Success

variable {now : Nat → τ} {deviceId : String} {db db' : Database} {change : SyncChange τ}

theorem Opened.exists_currentRevision (h : Opened db) : ∃ revision, currentRevision db = .ok revision := by
  obtain ⟨notes, _, rfl, hi⟩ := h
  exact ⟨_, currentRevision_eq_ok.2 ⟨notes, rfl, hi, rfl⟩⟩

theorem opened_iff : Opened db ↔ db.notes ≠ none ∧ db.noteSnapshots ≠ none ∧
    ∃ revision, currentRevision db = .ok revision := by
  obtain ⟨notes, snapshots⟩ := db
  constructor
  · intro h
    obtain ⟨_, _, heq, -⟩ := id h
    obtain ⟨rfl, rfl⟩ := Database.mk.inj heq
    exact ⟨nofun, nofun, h.exists_currentRevision⟩
  · rintro ⟨-, hsnapshots, revision, hrev⟩
    obtain ⟨notes, rfl, hi, -⟩ := currentRevision_eq_ok.1 hrev
    obtain ⟨snapshots, rfl⟩ := Option.ne_none_iff_exists'.1 hsnapshots
    exact ⟨notes, snapshots, rfl, hi⟩

theorem Opened.existingChange_eq_none {id : String} (h : Opened db) :
    existingChange db id = .ok (none : Option (SyncChange τ)) ↔
      (cellAt db id : Cell (SyncChange τ)) = .absent := by
  obtain ⟨notes, _, rfl, -⟩ := h
  rw [existingChange_eq_ok, cellAt_eq_absent, noteAt_eq_lookup rfl]
  constructor
  · rintro ⟨notes', hn', h⟩
    obtain rfl := Option.some.inj hn'
    cases hrow : notes.lookup id with
    | none => rfl
    | some row => rw [hrow] at h; obtain ⟨_, -, ⟨⟩⟩ := h
  · intro h
    exact ⟨notes, rfl, by rw [h]⟩

theorem Opened.withChange {notes : NotesTable} {snapshots : SnapshotTable}
    (h : Opened ⟨some notes, some snapshots⟩) (revision : Nat) :
    Opened (.withChange now change revision notes snapshots) := by
  obtain ⟨_, _, heq, hi⟩ := h
  obtain ⟨h, -⟩ := Database.mk.inj heq
  obtain rfl := Option.some.inj h
  have hnew : (⟨.ofChange change, asI64 revision⟩ : NoteRow) ∈
      (notes.upsert ⟨.ofChange change, asI64 revision⟩).rows := Keyed.mem_upsert.2 (.inl rfl)
  refine ⟨_, _, rfl, (asI64_i64 revision).1.trans (le_maxRevision hnew), ?_⟩
  obtain ⟨row, hrow, hmax⟩ := exists_maxRevision (List.ne_nil_of_mem hnew)
  rw [← hmax]
  rcases Keyed.mem_upsert.1 hrow with rfl | ⟨hrow, -⟩
  · exact (asI64_i64 revision).2
  · exact lt_of_le_of_lt (le_maxRevision hrow) hi.2

theorem Pushed.opened (h : Pushed now change db db') (hdb : Opened db) : Opened db' := by
  cases h with
  | skipped => exact hdb
  | stored h => subst h; exact hdb.withChange _

theorem exists_pushChange (hdb : Opened db) {c : Cell (SyncChange τ)}
    (h : Cell.offer changeTime SyncChange.InRange (cellAt db change.id)
      (fillDevice deviceId change) = some c) : ∃ db', pushChange now deviceId db change = .ok db' := by
  obtain ⟨revision, hrev⟩ := hdb.exists_currentRevision
  obtain ⟨notes, snapshots, rfl, -⟩ := hdb
  have hstore : ∃ db', (do
      let revision ← currentRevision ⟨some notes, some snapshots⟩
      storeChange now (fillDevice deviceId change) (revision + 1) ⟨some notes, some snapshots⟩) =
        Except.ok db' :=
    ⟨_, Except.bind_eq_ok.2 ⟨revision, hrev, storeChange_eq_ok.2 ⟨notes, snapshots, rfl, rfl⟩⟩⟩
  cases hrow : notes.lookup change.id with
  | none =>
    have hexisting : existingChange ⟨some notes, some snapshots⟩ (fillDevice deviceId change).id =
        .ok (none : Option (SyncChange τ)) :=
      existingChange_eq_ok.2 ⟨notes, rfl, by rw [fillDevice_id, hrow]⟩
    simp only [pushChange, hexisting]
    exact hstore
  | some row =>
    rw [cellAt_of_lookup rfl hrow] at h
    cases hdec : (row.change.decode : Option (SyncChange τ)) with
    | none => rw [hdec] at h; cases h
    | some old =>
      have hexisting : existingChange ⟨some notes, some snapshots⟩ (fillDevice deviceId change).id =
          .ok (some old) :=
        existingChange_eq_ok.2 ⟨notes, rfl, by rw [fillDevice_id, hrow]; exact ⟨old, hdec, rfl⟩⟩
      by_cases hs : Skips changeTime old (fillDevice deviceId change)
      · refine ⟨⟨some notes, some snapshots⟩, ?_⟩
        simp only [pushChange, hexisting]
        exact if_pos hs
      · obtain ⟨db', hdb'⟩ := hstore
        refine ⟨db', ?_⟩
        simp only [pushChange, hexisting]
        exact (if_neg hs).trans hdb'

end Success

section Loop

variable {now : Nat → τ} {request : PushRequest τ} {db db' : Database}

/-- What each round of the loop keeps, the loop keeps. -/
theorem pushChanges_induct {P : List (SyncChange τ) → Database → Prop} (h₀ : P [] db)
    (hstep : ∀ done change db db', P done db → Pushed now change db db' → P (done ++ [change]) db')
    (h : pushChanges now request db = .ok db') : P request.filled db' := by
  refine Except.foldlM_induct (P := fun done db => P (done.map (fillDevice request.deviceId)) db)
    h₀ (fun done change db db' hP h => ?_) h
  rw [List.map_append, List.map_singleton]
  exact hstep _ _ _ _ hP (pushChange_pushed h)

theorem pushChanges_cell [LawfulChrono τ] (h : pushChanges now request db = .ok db') (id : String) :
    Cell.offerAll changeTime SyncChange.InRange (cellAt db id)
      (request.filled.filter (·.id = id)) = some (cellAt db' id) := by
  refine pushChanges_induct (P := fun done db₁ => Cell.offerAll changeTime SyncChange.InRange
    (cellAt db id) (done.filter (·.id = id)) = some (cellAt db₁ id)) rfl
    (fun done change db₁ db₂ hP hstep => ?_) h
  rw [List.filter_append, Cell.offerAll_append, hP, Option.bind_some]
  by_cases hid : change.id = id
  · subst hid
    rw [List.filter_cons_of_pos (by simp), List.filter_nil, Cell.offerAll_cons, hstep.cell_self]
    rfl
  · rw [List.filter_cons_of_neg (by simpa using hid), List.filter_nil, hstep.cell_ne hid]
    rfl

theorem readable_of_pushChanges [LawfulChrono τ] (h : pushChanges now request db = .ok db')
    {change : SyncChange τ} (hc : change ∈ request.filled) :
    (cellAt db change.id : Cell (SyncChange τ)) ≠ .unreadable := by
  intro hcell
  have hall := pushChanges_cell h change.id
  rw [hcell] at hall
  have hmem : change ∈ request.filled.filter (·.id = change.id) := List.mem_filter.2 ⟨hc, by simp⟩
  cases hl : request.filled.filter (·.id = change.id) with
  | nil => rw [hl] at hmem; cases hmem
  | cons v l => rw [hl, Cell.offerAll_cons] at hall; cases hall

/-- A push succeeds when none of its offers fails. -/
theorem exists_pushChanges [LawfulChrono τ] (hdb : Opened db)
    (h : ∀ id, ∃ c, Cell.offerAll changeTime SyncChange.InRange (cellAt db id)
      (request.filled.filter (·.id = id)) = some c) : ∃ db', pushChanges now request db = .ok db' := by
  obtain ⟨deviceId, changes⟩ := request
  dsimp only [PushRequest.filled] at h
  unfold pushChanges
  induction changes generalizing db with
  | nil => exact ⟨db, rfl⟩
  | cons change changes ih =>
    obtain ⟨c, hc⟩ := h change.id
    rw [List.map_cons, List.filter_cons_of_pos (by simp), Cell.offerAll_cons] at hc
    obtain ⟨c₁, hc₁, -⟩ := Option.bind_eq_some_iff.1 hc
    obtain ⟨db₁, h₁⟩ : ∃ db₁, pushChange now deviceId db change = .ok db₁ := exists_pushChange hdb hc₁
    have hpush := pushChange_pushed h₁
    obtain ⟨db', h'⟩ := ih (hpush.opened hdb) fun id => by
      obtain ⟨c, hc⟩ := h id
      rw [List.map_cons] at hc
      by_cases hid : change.id = id
      · subst hid
        have hself := hpush.cell_self
        rw [fillDevice_id] at hself
        rw [List.filter_cons_of_pos (by simp), Cell.offerAll_cons, hself] at hc
        exact ⟨c, hc⟩
      · rw [List.filter_cons_of_neg (by simpa using hid)] at hc
        rw [hpush.cell_ne (by simpa using hid)]
        exact ⟨c, hc⟩
    exact ⟨db', by rw [List.foldlM_cons, h₁]; exact h'⟩

theorem pushChanges_opened (h : pushChanges now request db = .ok db') (hdb : Opened db) : Opened db' :=
  pushChanges_induct (P := fun _ db => Opened db) hdb (fun _ _ _ _ hP hstep => hstep.opened hP) h

def Database.snapshotCount (db : Database) : Nat := (db.noteSnapshots.map (·.rows.length)).getD 0

theorem snapshotCount_withChange {notes : NotesTable} {snapshots : SnapshotTable} {change : SyncChange τ}
    {revision : Nat} : (Database.withChange now change revision notes snapshots).snapshotCount =
      Database.snapshotCount ⟨some notes, some snapshots⟩ + 1 := by
  simp [Database.snapshotCount, Database.withChange]

/-- Offering the change to the database would skip it. -/
def SkippedIn (db : Database) (change : SyncChange τ) : Prop :=
  ∃ old, cellAt db change.id = .holds old ∧ Skips changeTime old change

/-- Every round that stores something adds a snapshot. -/
theorem Pushed.skipped_or_grew {change : SyncChange τ} (h : Pushed now change db db') :
    SkippedIn db change ∧ db' = db ∨
      ¬ SkippedIn db change ∧ db.snapshotCount < db'.snapshotCount := by
  cases h with
  | skipped hcell hs => exact .inl ⟨⟨_, hcell, hs⟩, rfl⟩
  | stored hdb _ hnew =>
    refine .inr ⟨fun ⟨old, hold, hs⟩ => hnew old hold hs, ?_⟩
    rw [hdb, snapshotCount_withChange]
    exact Nat.lt_succ_self _

/-- A push changes nothing exactly when it skips every change. -/
theorem pushChanges_eq_self_iff (h : pushChanges now request db = .ok db') :
    db' = db ↔ ∀ c ∈ request.filled, SkippedIn db c := by
  have hloop : (∀ c ∈ request.filled, SkippedIn db c) ∧ db' = db ∨
      (¬ ∀ c ∈ request.filled, SkippedIn db c) ∧ db.snapshotCount < db'.snapshotCount := by
    refine pushChanges_induct (P := fun done db₁ => (∀ c ∈ done, SkippedIn db c) ∧ db₁ = db ∨
      (¬ ∀ c ∈ done, SkippedIn db c) ∧ db.snapshotCount < db₁.snapshotCount)
      (.inl ⟨nofun, rfl⟩) (fun done c db₁ db₂ hP hstep => ?_) h
    rcases hP with ⟨hdone, rfl⟩ | ⟨hdone, hlt⟩
    · rcases hstep.skipped_or_grew with ⟨hs, rfl⟩ | ⟨hs, hlt⟩
      · exact .inl ⟨fun c' hc' => (List.mem_append.1 hc').elim (hdone c') fun h => by
          rwa [List.mem_singleton.1 h], rfl⟩
      · exact .inr ⟨fun hall => hs (hall c (by simp)), hlt⟩
    · refine .inr ⟨fun hall => hdone fun c' hc' => hall c' (by simp [hc']), ?_⟩
      rcases hstep.skipped_or_grew with ⟨-, rfl⟩ | ⟨-, hlt'⟩
      · exact hlt
      · exact hlt.trans hlt'
  constructor
  · rintro rfl
    exact (hloop.resolve_right fun h => lt_irrefl _ h.2).1
  · intro hall
    exact (hloop.resolve_right fun h => h.1 hall).2

end Loop

/-! ### The operation -/

section Operation

variable {env : PushEnv τ} {request : PushRequest τ} {response : PushResponse} {e : StoreError}
  {s s' : SyncStore}

theorem exec_push_ok : (SyncStore.push env request).exec s = (.ok response, s') ↔
    env.fault .lock = none ∧ env.fault .transaction = none ∧
      ∃ startingRevision, currentRevision s.db = .ok startingRevision ∧
        pushChanges env.now request s.db = .ok s'.db ∧
        currentRevision s'.db = .ok response.revision ∧
        s'.revisionEvents =
          if response.revision > startingRevision then response.revision else s.revisionEvents := by
  have htail : ∀ r : Nat × Nat, ∀ s₁ : SyncStore, exec (do
      if r.2 > r.1 then
        sendReplace r.2
      return ({ revision := r.2 } : PushResponse)) s₁ =
        (.ok ⟨r.2⟩, ⟨s₁.db, if r.2 > r.1 then r.2 else s₁.revisionEvents⟩) := by
    intro r s₁
    split_ifs <;> rfl
  simp only [SyncStore.push, exec_bind_ok, exec_check_ok, exec_transaction_ok, Except.bind_eq_ok]
  constructor
  · rintro ⟨_, _, ⟨hl, rfl⟩, r, s₁, ⟨ht, ⟨startingRevision, h₁, db, h₂, revision, h₃, hr⟩, hev⟩, h⟩
    obtain ⟨rfl, rfl⟩ := Prod.mk.inj (Except.ok.inj hr)
    rw [htail] at h
    obtain ⟨hres, rfl⟩ := Prod.mk.inj h
    obtain rfl := Except.ok.inj hres
    exact ⟨hl, ht, startingRevision, h₁, h₂, h₃, by rw [← hev]⟩
  · rintro ⟨hl, ht, startingRevision, h₁, h₂, h₃, hev⟩
    refine ⟨(), s, ⟨hl, rfl⟩, (startingRevision, response.revision), ⟨s'.db, s.revisionEvents⟩,
      ⟨ht, ⟨startingRevision, h₁, s'.db, h₂, response.revision, h₃, rfl⟩, rfl⟩, ?_⟩
    rw [htail]
    exact congrArg (Prod.mk _) (SyncStore.ext rfl hev.symm)

theorem exec_push_eq_self_iff (h : (SyncStore.push env request).exec s = (.ok response, s')) :
    s' = s ↔ ∀ c ∈ request.filled, SkippedIn s.db c := by
  obtain ⟨-, -, startingRevision, hstart, hloop, hrev, hevents⟩ := exec_push_ok.1 h
  rw [← pushChanges_eq_self_iff hloop]
  refine ⟨fun h => h ▸ rfl, fun hdb => SyncStore.ext hdb ?_⟩
  rw [hdb, hstart] at hrev
  rw [hevents, if_neg (by rw [Except.ok.inj hrev]; exact lt_irrefl _)]

theorem exists_exec_push [LawfulChrono τ] (hdb : Opened s.db) (hl : env.fault .lock = none)
    (ht : env.fault .transaction = none)
    (h : ∀ id, ∃ c, Cell.offerAll changeTime SyncChange.InRange (cellAt s.db id)
      (request.filled.filter (·.id = id)) = some c) :
    ∃ response s', (SyncStore.push env request).exec s = (.ok response, s') := by
  obtain ⟨startingRevision, hstart⟩ := hdb.exists_currentRevision
  obtain ⟨db', hloop⟩ : ∃ db', pushChanges env.now request s.db = .ok db' := exists_pushChanges hdb h
  obtain ⟨revision, hrev⟩ := (pushChanges_opened hloop hdb).exists_currentRevision
  exact ⟨⟨revision⟩, ⟨db', if revision > startingRevision then revision else s.revisionEvents⟩,
    exec_push_ok.2 ⟨hl, ht, startingRevision, hstart, hloop, hrev, rfl⟩⟩

theorem exists_exec_push_of_inRange [LawfulChrono τ] (hdb : Opened s.db) (hcalm : ∀ step, env.fault step = none)
    (hread : ∀ id, (cellAt s.db id : Cell (SyncChange τ)) ≠ .unreadable) (hr : request.InRange) :
    ∃ response s', (SyncStore.push env request).exec s = (.ok response, s') := by
  refine exists_exec_push hdb (hcalm .lock) (hcalm .transaction) fun id => ?_
  obtain ⟨c, hc, -⟩ := Cell.exists_offerAll_of_readable changeTime (hread id)
    fun v (hv : v ∈ request.filled.filter (·.id = id)) => hr.filled v (List.mem_of_mem_filter hv)
  exact ⟨c, hc⟩

theorem exists_exec_push_singleton [LawfulChrono τ] {deviceId : String} {change : SyncChange τ}
    (hdb : Opened s.db) (hl : env.fault .lock = none) (ht : env.fault .transaction = none)
    (hread : (cellAt s.db change.id : Cell (SyncChange τ)) ≠ .unreadable) :
    ∃ response s', (SyncStore.push env ⟨deviceId, [change]⟩).exec s = (.ok response, s') := by
  refine exists_exec_push hdb hl ht fun id => ?_
  rw [PushRequest.filled, List.map_singleton]
  by_cases hid : change.id = id
  · subst hid
    obtain ⟨c, hc⟩ : ∃ c, Cell.offer changeTime SyncChange.InRange (cellAt s.db change.id)
      (fillDevice deviceId change) = some c := Cell.exists_offer hread _
    rw [List.filter_cons_of_pos (by simp), Cell.offerAll_cons, hc]
    exact ⟨c, rfl⟩
  · rw [List.filter_cons_of_neg (by simpa using hid)]
    exact ⟨_, rfl⟩

theorem pushed_of_exec_push {deviceId : String} {change : SyncChange τ}
    (h : (SyncStore.push env ⟨deviceId, [change]⟩).exec s = (.ok response, s')) :
    Pushed env.now (fillDevice deviceId change) s.db s'.db := by
  obtain ⟨-, -, _, -, hloop, -⟩ := exec_push_ok.1 h
  obtain ⟨db, hdb, hnil⟩ := Except.bind_eq_ok.1 hloop
  obtain rfl := Except.ok.inj hnil
  exact pushChange_pushed hdb

/-- A push that fails changes nothing. -/
theorem exec_push_error (h : (SyncStore.push env request).exec s = (.error e, s')) : s' = s := by
  simp only [SyncStore.push, exec_bind_error, exec_check_ok] at h
  rcases h with h | ⟨_, _, ⟨-, rfl⟩, h | ⟨r, s₁, -, h⟩⟩
  · rw [exec_check] at h
    exact (Prod.mk.inj h).2.symm
  · exact exec_transaction_error h
  · split_ifs at h <;> cases h

end Operation

end FloralSync

import FloralSync.Store.Numbered
import FloralSync.Store.ReadBack

/-!
# A server whose operations fail

A restore that fails after its copy may leave notes at revisions that none of their snapshots has, so that the two
tables represent no journal any more. Whatever failed, they stay `Legible`: the server reads and stores notes as
before (`Weathered.serves`). What is lost is that the history of a note begins with the note, and the next start of
the server brings it back (`weathered_restart`).
-/

namespace FloralSync

open Replication StoreM

variable {τ : Type} [Chrono τ]

variable (τ) in
/-- Everything can be read, and no snapshot is newer than its note. -/
structure Legible (notes : NotesTable) (snapshots : SnapshotTable) : Prop where
  note : ∀ row ∈ notes.rows, ∃ c : SyncChange τ, c.InRange ∧ row.change = .ofChange c
  snapshot : ∀ s ∈ snapshots.rows, ∃ c : SyncChange τ, c.InRange ∧ s.change = .ofChange c
  positive : ∀ s ∈ snapshots.rows, 0 < s.revision
  captured : ∀ s ∈ snapshots.rows, ∃ t : τ, parseFromRfc3339 s.capturedAt = some t
  /-- At the revision of its note a snapshot is the note. -/
  note_of_snapshot : ∀ s ∈ snapshots.rows, ∃ row ∈ notes.rows, row.id = s.noteId ∧ s.revision ≤ row.revision ∧
    (s.revision = row.revision → s.change = row.change)

variable (τ) in
structure Intact (db : Database) (head : Nat) : Prop where
  numbered : Numbered τ db head
  legible : ∃ notes snapshots, db = ⟨some notes, some snapshots⟩ ∧ Legible τ notes snapshots

namespace Legible

variable {notes : NotesTable} {snapshots : SnapshotTable} {c : SyncChange τ} {now : Nat → τ} {r : Int}

theorem insert [LawfulChrono τ] (h : Legible τ notes snapshots) (hc : c.InRange) (hnow : ∀ id, FourDigitYear (now id))
    (hr : ∀ row ∈ notes.rows, row.revision < r) (hpos : 0 < r) :
    Legible τ (notes.upsert ⟨.ofChange c, r⟩)
      (snapshots.insert (.ofChange c) r fun id => toRfc3339 (now id)) := by
  have hrows : ∀ s ∈ (snapshots.insert (.ofChange c) r fun id => toRfc3339 (now id)).rows, s ∈ snapshots.rows ∨
      s = ⟨snapshots.nextId, .ofChange c, r, toRfc3339 (now snapshots.nextId)⟩ := fun s hs =>
    (List.mem_append.1 hs).imp_right List.mem_singleton.1
  constructor
  · intro row hrow
    rcases Keyed.mem_upsert.1 hrow with rfl | ⟨hrow, -⟩
    · exact ⟨c, hc, rfl⟩
    · exact h.note row hrow
  · intro s hs
    rcases hrows s hs with hs | rfl
    · exact h.snapshot s hs
    · exact ⟨c, hc, rfl⟩
  · intro s hs
    rcases hrows s hs with hs | rfl
    · exact h.positive s hs
    · exact hpos
  · intro s hs
    rcases hrows s hs with hs | rfl
    · exact h.captured s hs
    · exact ⟨_, LawfulChrono.parse_toRfc3339 _ (hnow _)⟩
  · intro s hs
    rcases hrows s hs with hs | rfl
    · obtain ⟨row, hrow, hid, hle, heq⟩ := h.note_of_snapshot s hs
      by_cases hne : row.id = c.id
      · -- the note is new
        have hlt : s.revision < r := hle.trans_lt (hr row hrow)
        exact ⟨_, Keyed.mem_upsert.2 (.inl rfl), hne.symm.trans hid, hlt.le, fun h => absurd h hlt.ne⟩
      · exact ⟨row, Keyed.mem_upsert.2 (.inr ⟨hrow, hne⟩), hid, hle, heq⟩
    · exact ⟨_, Keyed.mem_upsert.2 (.inl rfl), rfl, le_rfl, fun _ => rfl⟩

theorem shift {n : Int} (h : Legible τ notes snapshots) (hn : 0 ≤ n) :
    Legible τ (notes.map (.shift n) (NoteRow.id_shift n)) (snapshots.mapRevisions (· + n)) := by
  constructor
  · intro row hrow
    obtain ⟨old, hold, rfl⟩ := List.mem_map.1 hrow
    exact h.note old hold
  · intro s hs
    obtain ⟨old, hold, rfl⟩ := List.mem_map.1 hs
    exact h.snapshot old hold
  · intro s hs
    obtain ⟨old, hold, rfl⟩ := List.mem_map.1 hs
    exact Int.add_pos_of_pos_of_nonneg (h.positive old hold) hn
  · intro s hs
    obtain ⟨old, hold, rfl⟩ := List.mem_map.1 hs
    exact h.captured old hold
  · intro s hs
    obtain ⟨old, hold, rfl⟩ := List.mem_map.1 hs
    obtain ⟨row, hrow, hid, hle, heq⟩ := h.note_of_snapshot old hold
    exact ⟨_, List.mem_map_of_mem hrow, hid, Int.add_le_add_right hle n, fun h => heq (add_right_cancel h)⟩

theorem shiftNotes {n : Int} (h : Legible τ notes snapshots) (hn : 0 < n) :
    Legible τ (notes.map (.shift n) (NoteRow.id_shift n)) snapshots := by
  refine ⟨(h.shift hn.le).note, h.snapshot, h.positive, h.captured, fun s hs => ?_⟩
  obtain ⟨row, hrow, hid, hle, -⟩ := h.note_of_snapshot s hs
  have hlt : s.revision < (row.shift n).revision := by
    dsimp only [NoteRow.shift]
    omega
  exact ⟨_, List.mem_map_of_mem hrow, hid, hlt.le, fun h => absurd h hlt.ne⟩

theorem backfill [LawfulChrono τ] {missing : List NoteRow} (h : Legible τ notes snapshots)
    (hpos : ∀ row ∈ notes.rows, 0 < row.revision) (hmissing : ∀ row ∈ missing, row ∈ notes.rows) :
    Legible τ notes (missing.foldl (fun t note => t.insert note.change note.revision
      fun _ => note.change.deletedAt.getD note.change.updatedAt) snapshots) := by
  induction missing generalizing snapshots with
  | nil => exact h
  | cons note missing ih =>
    obtain ⟨hnote, hmissing⟩ := List.forall_mem_cons.1 hmissing
    refine ih ?_ hmissing
    obtain ⟨c, hc, hchange⟩ := h.note note hnote
    have hcaptured : ∃ t : τ, parseFromRfc3339 (note.change.deletedAt.getD note.change.updatedAt) = some t := by
      rw [hchange]
      show ∃ t : τ, parseFromRfc3339 ((c.deletedAt.map toRfc3339).getD (toRfc3339 c.updatedAt)) = some t
      cases hd : c.deletedAt with
      | none => exact ⟨_, LawfulChrono.parse_toRfc3339 _ hc.updatedAt⟩
      | some t => exact ⟨_, LawfulChrono.parse_toRfc3339 _ (hc.deletedAt t hd)⟩
    refine ⟨h.note, fun s hs => ?_, fun s hs => ?_, fun s hs => ?_, fun s hs => ?_⟩ <;>
      rcases List.mem_append.1 hs with hs | hs
    · exact h.snapshot s hs
    · exact List.mem_singleton.1 hs ▸ ⟨c, hc, hchange⟩
    · exact h.positive s hs
    · exact List.mem_singleton.1 hs ▸ hpos note hnote
    · exact h.captured s hs
    · exact List.mem_singleton.1 hs ▸ hcaptured
    · exact h.note_of_snapshot s hs
    · obtain rfl := List.mem_singleton.1 hs
      exact ⟨note, hnote, rfl, le_rfl, fun _ => rfl⟩

end Legible

/-! ### The operations -/

namespace Intact

variable {db db' live content : Database} {head m r : Nat} {notes : NotesTable} {snapshots : SnapshotTable}
  {c : SyncChange τ} {now : Nat → τ} {env : RestoreEnv τ} {previous restored : List (SyncChange τ)}

theorem created : Intact τ SyncStore.created.db 0 :=
  ⟨.created, _, _, rfl, nofun, nofun, nofun, nofun, nofun⟩

theorem withChange [LawfulChrono τ] (h : Intact τ ⟨some notes, some snapshots⟩ head) (hc : c.InRange)
    (hnow : ∀ id, FourDigitYear (now id)) (hfits : head + 1 < 2 ^ 63) :
    Intact τ (.withChange now c (head + 1) notes snapshots) (head + 1) := by
  obtain ⟨hnumbered, _, _, ⟨⟩, hlegible⟩ := h
  refine ⟨hnumbered.withChange hfits, _, _, rfl, hlegible.insert hc hnow (fun row hrow => ?_) ?_⟩
  · obtain ⟨⟨_, ⟨⟩, hmax, -⟩, -⟩ := hnumbered
    have hle := le_maxRevision hrow
    rw [asI64_of_lt hfits]
    omega
  · rw [asI64_of_lt hfits]
    omega

theorem initConnection [LawfulChrono τ] (h : Intact τ db head) : Intact τ (initConnection db) head := by
  obtain ⟨hnumbered, notes, snapshots, rfl, hlegible⟩ := h
  refine ⟨hnumbered.congr rfl, _, _, rfl, hlegible.backfill (fun row hrow => ?_) fun row => List.mem_of_mem_filter⟩
  obtain ⟨⟨_, ⟨⟩, -, hrows⟩, -⟩ := hnumbered
  exact (hrows row hrow).1

theorem pushed [LawfulChrono τ] (h : Intact τ db head) (hpushed : Pushed now c db db') (hc : c.InRange)
    (hnow : ∀ id, FourDigitYear (now id)) (hfits : head + db'.snapshotCount < 2 ^ 63 + db.snapshotCount) :
    ∃ head', Intact τ db' head' ∧ head' + db.snapshotCount = head + db'.snapshotCount := by
  cases hpushed with
  | skipped => exact ⟨head, h, rfl⟩
  | stored hdb hrev =>
    obtain rfl := Except.ok.inj (hrev.symm.trans h.numbered.currentRevision_eq)
    subst hdb
    rw [snapshotCount_withChange] at hfits ⊢
    exact ⟨_, h.withChange hc hnow (by omega), by omega⟩

theorem push [LawfulChrono τ] {env : PushEnv τ} {request : PushRequest τ} {result : Except StoreError PushResponse}
    {s s' : SyncStore} (h : Intact τ s.db head) (hpush : (SyncStore.push env request).exec s = (result, s'))
    (henv : env.InRange) (hr : request.InRange) (hfits : PushFits s.db s'.db) : ∃ head', Intact τ s'.db head' := by
  rcases result with e | response
  · rw [exec_push_error hpush]
    exact ⟨head, h⟩
  obtain ⟨-, -, _, -, hloop, -⟩ := exec_push_ok.1 hpush
  obtain ⟨head', hdone, -⟩ := pushChanges_induct (P := fun done db₁ => (∀ c ∈ done, c.InRange) →
      head + db₁.snapshotCount < 2 ^ 63 + s.db.snapshotCount → ∃ head', Intact τ db₁ head' ∧
        head' + s.db.snapshotCount = head + db₁.snapshotCount)
    (fun _ _ => ⟨head, h, rfl⟩) (fun done change db₁ db₂ hdone hpushed hrange hfits => by
      rw [List.forall_mem_append, List.forall_mem_singleton] at hrange
      have hle : db₁.snapshotCount ≤ db₂.snapshotCount := by
        rcases hpushed.skipped_or_grew with ⟨-, rfl⟩ | ⟨-, hlt⟩
        · exact le_rfl
        · exact hlt.le
      obtain ⟨head₁, hdone, hcount⟩ := hdone hrange.1 (by omega)
      obtain ⟨head₂, hdone, hcount'⟩ := hdone.pushed hpushed hrange.2 henv.now (by omega)
      exact ⟨head₂, hdone, by omega⟩)
    hloop hr.filled (hfits head h.numbered.currentRevision_eq)
  exact ⟨head', hdone⟩

/-! A restore, as far as it came. -/

theorem shiftedContent (h : Intact τ ⟨some notes, some snapshots⟩ r) (hm : m < 2 ^ 63) (hpos : m ≠ 0) (hle : r ≤ m)
    (hfits : rebasedRevision m r ⟨some notes, some snapshots⟩ < 2 ^ 63) :
    Intact τ ⟨some (notes.map (.shift (asI64 m)) (NoteRow.id_shift _)), some snapshots⟩
        (rebasedRevision m r ⟨some notes, some snapshots⟩) ∧
      Intact τ (shifted (asI64 m) notes snapshots) (rebasedRevision m r ⟨some notes, some snapshots⟩) := by
  obtain ⟨hnumbered, _, _, ⟨⟩, hlegible⟩ := h
  have hshift : 0 < asI64 m := by
    rw [asI64_of_lt hm]
    omega
  have hnotes : ∀ {db}, Shifted m notes db → Numbered τ db (rebasedRevision m r ⟨some notes, some snapshots⟩) :=
    fun hdb => Numbered.kept.shiftedContent hnumbered hm hle hfits rfl hdb
  exact ⟨⟨hnotes rfl, _, _, rfl, hlegible.shiftNotes hshift⟩, ⟨hnotes rfl, _, _, rfl, hlegible.shift hshift.le⟩⟩

theorem rebased (h : Intact τ content r) (hm : m < 2 ^ 63) (hfits : rebasedRevision m r content < 2 ^ 63)
    (hrebased : Rebased m content db) : Intact τ db (rebasedRevision m r content) := by
  obtain ⟨r', hr, hrebased⟩ := hrebased
  obtain rfl := Except.ok.inj (hr.symm.trans h.numbered.currentRevision_eq)
  split_ifs at hrebased with hcond
  · obtain ⟨notes, snapshots, rfl, rfl⟩ := hrebased
    exact (h.shiftedContent hm hcond.2 hcond.1 hfits).2
  · have heq : rebasedRevision m r' content = r' := by
      unfold rebasedRevision
      split_ifs with h'
      · obtain rfl : m = 0 := by_contra fun hne => hcond ⟨h'.1, hne⟩
        rfl
      · rfl
    rwa [hrebased, heq]

theorem tombstoned [LawfulChrono τ] (h : Intact τ db head) (hstore : Tombstoned env previous restored db db')
    (henv : env.InRange) (hrange : ∀ c ∈ tombstones env.restoreTime previous restored, c.InRange)
    (hfits : head + db'.snapshotCount < 2 ^ 63 + db.snapshotCount) : ∃ head', Intact τ db' head' := by
  rw [hstore.snapshotCount_eq] at hfits
  obtain ⟨n, hdone⟩ := hstore.induct (P := fun done n db₁ => (∀ c ∈ done, c.InRange) → head + done.length < 2 ^ 63 →
      Intact τ db₁ n ∧ n = head + done.length)
    (fun revision hrev _ _ => by
      obtain rfl := Except.ok.inj (hrev.symm.trans h.numbered.currentRevision_eq)
      exact ⟨h, rfl⟩)
    (fun done c n notes snapshots hdone hrange hlt => by
      rw [List.length_append, List.length_singleton] at hlt ⊢
      rw [List.forall_mem_append, List.forall_mem_singleton] at hrange
      obtain ⟨hdone, rfl⟩ := hdone hrange.1 (by omega)
      exact ⟨hdone.withChange hrange.2 henv.now (by omega), by omega⟩)
  exact ⟨n, (hdone hrange (by omega)).1⟩

theorem inRange_of_loadAllChanges [LawfulChrono τ] (h : Intact τ db head) (hload : loadAllChanges db = .ok previous) :
    ∀ c ∈ previous, c.InRange := by
  intro c hc
  obtain ⟨-, notes, snapshots, rfl, hlegible⟩ := h
  obtain ⟨row, hrow, hdec⟩ := cellAt_eq_holds.1 ((mem_of_loadAllChanges hload).1 hc)
  obtain ⟨c', hc', hchange⟩ := hlegible.note row (Keyed.lookup_eq_some.1 hrow).1
  rw [hchange, ChangeRow.decode_ofChange, if_pos hc'] at hdec
  exact Option.some.inj hdec ▸ hc'

theorem underway [LawfulChrono τ] (hlive : Intact τ live m) (h : Intact τ content r) (henv : env.InRange)
    (hload : loadAllChanges live = .ok previous) (hunderway : Underway env m previous content db')
    (hfits : rebasedRevision m r content + db'.snapshotCount < 2 ^ 63 + content.snapshotCount) :
    ∃ head', Intact τ db' head' := by
  have hm := hlive.numbered.head_lt
  cases hunderway with
  | copied => exact ⟨r, h⟩
  | notesShifted hrebases hnotes =>
    obtain ⟨r', hr', hle, hpos⟩ := hrebases
    obtain rfl := Except.ok.inj (hr'.symm.trans h.numbered.currentRevision_eq)
    obtain ⟨-, _, _, rfl, -⟩ := id h
    obtain rfl := Option.some.inj hnotes
    exact ⟨_, (h.shiftedContent hm hpos hle (Nat.lt_of_add_lt_add_right hfits)).1⟩
  | rebased hrebased =>
    have hcount := hrebased.snapshotCount_eq
    exact ⟨_, h.rebased hm (by omega) hrebased⟩
  | tombstoned hrebased _ hstore =>
    have hcount := hrebased.snapshotCount_eq
    have hcount' := hstore.snapshotCount_eq
    refine (h.rebased hm (by omega) hrebased).tombstoned hstore henv (fun c hc => ?_) (by rwa [hcount])
    obtain ⟨p, hp, -, rfl⟩ := (mem_tombstones (nodup_of_loadAllChanges hload)).1 hc
    exact inRange_tombstone (hlive.inRange_of_loadAllChanges hload p hp) henv.restoreTime

end Intact

variable (τ) in
/-- The states of a server that restores its own backups, where every operation may fail at any point. -/
inductive Weathered : SyncStore → Prop
  | created : Weathered .created
  | push {s s' : SyncStore} {env : PushEnv τ} {request : PushRequest τ} {result : Except StoreError PushResponse} :
      Weathered s → (SyncStore.push env request).exec s = (result, s') → env.InRange → request.InRange →
      PushFits s.db s'.db → Weathered s'
  | reopen {s s' : SyncStore} : Weathered s → SyncStore.open (.database s.db) = .ok s' → Weathered s'
  | restore {s s' t t' : SyncStore} {env : RestoreEnv τ} {fault : Option StoreError} {file : SourceFile}
      {result : Except StoreError Unit} : Weathered s → Weathered t →
      (SyncStore.backupTo fault).exec t = (.ok file, t') → (SyncStore.restoreFrom env file).exec s = (result, s') →
      env.InRange → s' = s ∨ RestoreFits s.db t.db s'.db → Weathered s'

theorem Weathered.intact [LawfulChrono τ] {s : SyncStore} (h : Weathered τ s) : ∃ head, Intact τ s.db head := by
  induction h with
  | created => exact ⟨0, .created⟩
  | push _ hpush henv hr hfits ih =>
    obtain ⟨head, h⟩ := ih
    exact h.push hpush henv hr hfits
  | reopen _ hopen ih =>
    obtain ⟨head, h⟩ := ih
    rw [(open_eq_ok.1 hopen).1]
    exact ⟨head, h.initConnection⟩
  | restore _ _ hbackup hrestore henv hfits ihs iht =>
    obtain ⟨head, hlive⟩ := ihs
    obtain ⟨r, hcontent⟩ := iht
    obtain ⟨-, rfl, -⟩ := exec_backupTo_ok.1 hbackup
    rcases underway_of_exec hrestore with rfl | ⟨m, previous, content, ⟨⟩, hrevision, hload, hunderway⟩
    · exact ⟨head, hlive⟩
    rcases hfits with rfl | hfits
    · exact ⟨head, hlive⟩
    obtain rfl := Except.ok.inj (hrevision.symm.trans hlive.numbered.currentRevision_eq)
    exact hlive.underway hcontent henv hload hunderway
      (hfits _ _ hlive.numbered.currentRevision_eq hcontent.numbered.currentRevision_eq)

/-! ### What the server answers -/

variable (τ) in
/-- The history of each note begins with the note. -/
def HeadsAgree (db : Database) : Prop := ∀ id, ∃ history : List (NoteSnapshot τ),
  noteHistory db id = .ok history ∧ noteDetail db id = .ok (history.head?.map NoteSnapshot.toDetail)

namespace Intact

variable [LawfulChrono τ] {db : Database} {head : Nat} {notes : NotesTable} {snapshots : SnapshotTable} {row : NoteRow}
  {s : SnapshotRow}

omit [LawfulChrono τ] in
theorem i64 (h : Intact τ ⟨some notes, some snapshots⟩ head) (hrow : row ∈ notes.rows) :
    0 < row.revision ∧ I64 row.revision := by
  obtain ⟨⟨⟨_, ⟨⟩, hmax, hrows⟩, hlt⟩, -⟩ := h
  have hpos := (hrows row hrow).1
  have hle := le_maxRevision hrow
  unfold I64
  omega

theorem decode (h : Intact τ ⟨some notes, some snapshots⟩ head) (hrow : row ∈ notes.rows) :
    ∃ c : SyncChange τ, c.InRange ∧ row.change.decode = some c := by
  obtain ⟨-, _, _, ⟨⟩, hlegible⟩ := h
  obtain ⟨c, hc, hchange⟩ := hlegible.note row hrow
  exact ⟨c, hc, by rw [hchange, ChangeRow.decode_ofChange, if_pos hc]⟩

omit [LawfulChrono τ] in
theorem stamped (h : Intact τ ⟨some notes, some snapshots⟩ head) (hs : s ∈ snapshots.rows) : s.Stamped τ := by
  obtain ⟨-, _, _, ⟨⟩, hlegible⟩ := id h
  obtain ⟨row, hrow, -, hle, -⟩ := hlegible.note_of_snapshot s hs
  have hpos := hlegible.positive s hs
  have hrevision := (h.i64 hrow).2
  refine ⟨?_, hlegible.captured s hs⟩
  unfold I64 at hrevision ⊢
  omega

omit [LawfulChrono τ] in
theorem opened (h : Intact τ db head) : Opened db := by
  obtain ⟨hnumbered, notes, snapshots, rfl, -⟩ := h
  exact opened_iff.2 ⟨nofun, nofun, head, hnumbered.currentRevision_eq⟩

theorem healthy (h : Intact τ db head) : Healthy τ db := by
  obtain ⟨-, notes, snapshots, rfl, hlegible⟩ := id h
  refine ⟨h.opened, ?_, ?_, ?_⟩
  · rintro _ ⟨⟩ row hrow
    exact (h.i64 hrow).2
  · rintro _ ⟨⟩ row hrow
    obtain ⟨c, hc, hdec⟩ := h.decode hrow
    exact ⟨c, hdec, hc⟩
  · rintro _ ⟨⟩ s hs
    obtain ⟨c, hc, hchange⟩ := hlegible.snapshot s hs
    exact ⟨c, by rw [hchange, ChangeRow.decode_ofChange, if_pos hc]⟩

theorem exists_noteHistory (h : Intact τ db head) (noteId : String) :
    ∃ history : List (NoteSnapshot τ), noteHistory db noteId = .ok history := by
  refine h.healthy.exists_noteHistory ?_
  obtain ⟨-, notes, snapshots, rfl, -⟩ := id h
  rintro _ ⟨⟩ s hs -
  exact h.stamped hs

theorem headsAgree (h : Intact τ db head) (hsnapshots : HasSnapshots db) : HeadsAgree τ db := by
  intro noteId
  obtain ⟨history, hhistory⟩ := h.exists_noteHistory noteId
  refine ⟨history, hhistory, ?_⟩
  obtain ⟨-, notes, snapshots, rfl, hlegible⟩ := id h
  obtain ⟨_, ⟨⟩, hread⟩ := noteHistory_eq_ok.1 hhistory
  rw [hasSnapshots_tables] at hsnapshots
  have hrow : ∀ row ∈ notes.rows, row.id = noteId → ∃ s ∈ historyRows snapshots noteId, s.revision = row.revision := by
    intro row hrow hid
    obtain ⟨s, hs, hsid, hrevision⟩ := hsnapshots row hrow
    exact ⟨s, mem_historyRows.2 ⟨hs, hsid.trans hid⟩, hrevision⟩
  have hsorted := historyRows_pairwise snapshots noteId
  cases hrows : historyRows snapshots noteId with
  | nil =>
    rw [hrows] at hread hrow
    cases hread
    have hlookup : notes.lookup noteId = none := Keyed.lookup_eq_none.2 fun row hmem hid => by
      obtain ⟨s, hs, -⟩ := hrow row hmem hid
      cases hs
    exact noteDetail_eq_ok.2 ⟨notes, rfl, by rw [hlookup]; rfl⟩
  | cons s rows =>
    have hs := mem_historyRows.1 (hrows ▸ List.mem_cons_self : s ∈ historyRows snapshots noteId)
    rw [hrows] at hread hsorted hrow
    obtain ⟨row, hmem, hid, hle, hchange⟩ := hlegible.note_of_snapshot s hs.1
    -- The first snapshot is at least as new as the one that the note has.
    have heq : s.revision = row.revision := by
      obtain ⟨s', hs', hrevision⟩ := hrow row hmem (hid.trans hs.2)
      rcases List.mem_cons.1 hs' with rfl | hs'
      · exact hrevision
      · exact le_antisymm hle (hrevision ▸ (List.pairwise_cons.1 hsorted).1 s' hs')
    obtain _ | ⟨hsnapshot, -⟩ := hread
    obtain ⟨-, c, hdec, hdetail, -⟩ := SnapshotRow.toNoteSnapshot_eq_ok.1 hsnapshot
    refine noteDetail_eq_ok.2 ⟨notes, rfl, ?_⟩
    rw [← hs.2, ← hid, Keyed.lookup_key hmem]
    exact ⟨c, hchange heq ▸ hdec, (h.i64 hmem).2, by rw [List.head?_cons, Option.map_some, hdetail, heq]⟩

omit [LawfulChrono τ] in
theorem hasSnapshots (h : Intact τ db head) (hheads : HeadsAgree τ db) : HasSnapshots db := by
  obtain ⟨-, notes, snapshots, rfl, hlegible⟩ := id h
  rw [hasSnapshots_tables]
  intro row hrow
  obtain ⟨history, hhistory, hdetail⟩ := hheads row.id
  obtain ⟨_, ⟨⟩, hread⟩ := noteHistory_eq_ok.1 hhistory
  obtain ⟨_, ⟨⟩, hdetail⟩ := noteDetail_eq_ok.1 hdetail
  rw [Keyed.lookup_key hrow] at hdetail
  obtain ⟨c, -, -, hdetail⟩ := hdetail
  obtain ⟨snapshot, hsnapshot, hdetail⟩ := Option.map_eq_some_iff.1 hdetail
  cases hrows : historyRows snapshots row.id with
  | nil =>
    rw [hrows] at hread
    cases hread
    cases hsnapshot
  | cons s rows =>
    have hs := mem_historyRows.1 (hrows ▸ List.mem_cons_self : s ∈ historyRows snapshots row.id)
    rw [hrows] at hread
    obtain _ | ⟨hread, -⟩ := hread
    obtain rfl := Option.some.inj hsnapshot
    obtain ⟨hi, _, -, hdetail', -⟩ := SnapshotRow.toNoteSnapshot_eq_ok.1 hread
    refine ⟨s, hs.1, hs.2, ?_⟩
    have hrevision : asU64 s.revision = asU64 row.revision := congrArg NoteDetail.revision (hdetail'.symm.trans hdetail)
    obtain ⟨hpos, hi'⟩ := h.i64 hrow
    rw [← asU64_of_nonneg (hlegible.positive s hs.1).le hi, ← asU64_of_nonneg hpos.le hi', hrevision]

end Intact

/-- Opening a database changes it if and only if a note lacks its snapshot. -/
theorem initConnection_eq_iff {notes : NotesTable} {snapshots : SnapshotTable} :
    initConnection ⟨some notes, some snapshots⟩ = ⟨some notes, some snapshots⟩ ↔
      HasSnapshots ⟨some notes, some snapshots⟩ := by
  constructor
  · intro h
    rw [← h]
    exact hasSnapshots_initConnection _
  · intro h
    have hnone : (notes.rows.filter fun note =>
        !snapshots.rows.any fun s => s.noteId = note.id ∧ s.revision = note.revision) = [] := by
      rw [List.filter_eq_nil_iff]
      intro note hnote
      simpa using hasSnapshots_tables.1 h note hnote
    show (⟨some notes, some (backfillMissingSnapshots notes snapshots)⟩ : Database) = _
    unfold backfillMissingSnapshots
    rw [hnone]
    rfl

section Weathered

variable [LawfulChrono τ] {s t : SyncStore}

theorem weathered_headsAgree_iff (h : Weathered τ s) : HeadsAgree τ s.db ↔ HasSnapshots s.db := by
  obtain ⟨head, h⟩ := h.intact
  exact ⟨h.hasSnapshots, h.headsAgree⟩

/-- The next start repairs the histories and keeps the notes. It touches the file only if a history was broken. -/
theorem weathered_restart (h : Weathered τ s) : ∃ s', SyncStore.open (.database s.db) = .ok s' ∧ HeadsAgree τ s'.db ∧
    (∀ id, (noteDetail s'.db id : Except StoreError (Option (NoteDetail τ))) = noteDetail s.db id) ∧
    (∀ since, (changesSince s'.db since : Except StoreError (ChangesResponse τ)) = changesSince s.db since) ∧
    (s'.db = s.db ↔ HeadsAgree τ s.db) := by
  obtain ⟨head, h⟩ := h.intact
  refine ⟨⟨initConnection s.db, head⟩, open_eq_ok.2 ⟨rfl, h.initConnection.numbered.currentRevision_eq⟩,
    h.initConnection.headsAgree (hasSnapshots_initConnection _), ?_⟩
  rw [show HeadsAgree τ s.db ↔ HasSnapshots s.db from ⟨h.hasSnapshots, h.headsAgree⟩]
  obtain ⟨-, notes, snapshots, hdb, -⟩ := h
  rw [hdb]
  exact ⟨fun _ => rfl, fun _ => rfl, initConnection_eq_iff⟩

end Weathered

namespace Sample

open Rfc3339 (Civil)

/-- The snapshots cannot be moved. -/
def failingEnv : RestoreEnv Civil :=
  { restoreEnv nine with fault := fun step => if step = .rebaseSnapshots then some .io else none }

/-- The note is at revision 2, its snapshot at revision 1. -/
def halfwayStore : SyncStore :=
  ((SyncStore.restoreFrom failingEnv (.database oneNoteStore.db)).exec oneNoteStore).2

theorem weathered_oneNote : Weathered Civil oneNoteStore := by
  have hrev : currentRevision SyncStore.created.db = .ok 0 := by decide +kernel
  have hpush : (SyncStore.push pushEnv oneNote).exec .created = (.ok ⟨1⟩, oneNoteStore) :=
    Prod.ext (by decide +kernel) rfl
  exact .push .created hpush pushEnv_inRange (by decide) (.of_eq hrev (by decide +kernel))

theorem weathered_halfway : Weathered Civil halfwayStore := by
  have hrev : currentRevision oneNoteStore.db = .ok 1 := by decide +kernel
  have hrestore : (SyncStore.restoreFrom failingEnv (.database oneNoteStore.db)).exec oneNoteStore =
      (_, halfwayStore) := rfl
  exact .restore weathered_oneNote weathered_oneNote (exec_backupTo _) hrestore
    ⟨restoreEnv_inRange.now, restoreEnv_inRange.restoreTime⟩ (.inr (.of_eq hrev hrev (by decide +kernel)))

end Sample

section Halfway

open Sample

theorem headsAgree_halfway_iff : ¬ HeadsAgree Rfc3339.Civil halfwayStore.db := by
  rw [weathered_headsAgree_iff weathered_halfway]
  decide +kernel

theorem restart_halfway : ∃ s', SyncStore.open (.database halfwayStore.db) = .ok s' ∧ s'.db ≠ halfwayStore.db ∧
    HeadsAgree Rfc3339.Civil s'.db := by
  obtain ⟨s', hopen, hheads, -, -, hsame⟩ := weathered_restart weathered_halfway
  refine ⟨s', hopen, fun hdb => ?_, hheads⟩
  have hsnapshots : HasSnapshots halfwayStore.db := by
    rw [← hdb, (open_eq_ok.1 hopen).1]
    exact hasSnapshots_initConnection _
  exact absurd hsnapshots (by decide +kernel)

end Halfway
end FloralSync

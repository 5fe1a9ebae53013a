import FloralSync.Store.Atomicity
import FloralSync.Store.Reachable

/-!
# The notes table after failed operations, too

A restore that fails late leaves a database that need not represent any journal, and the server goes on
with it. What holds even then is `Written`: there is no notes table, or the server wrote the notes, with
positive revisions.
-/

namespace FloralSync

open Replication StoreM

variable {τ : Type} [Chrono τ]

variable (τ) in
/-- The notes were written by the server, under positive revisions, and `head` is the current one. -/
structure Numbered (db : Database) (head : Nat) : Prop where
  notes : ∃ notes, db.notes = some notes ∧ maxRevision notes.rows = head ∧
    ∀ row ∈ notes.rows, 0 < row.revision ∧ ∃ c : SyncChange τ, row.change = .ofChange c
  head_lt : head < 2 ^ 63

variable (τ) in
/-- A database of the server. A backup that fails may leave one without tables. -/
def Written (db : Database) : Prop := db.notes = none ∨ ∃ head, Numbered τ db head

variable (τ) in
inductive Operation
  | push (env : PushEnv τ) (request : PushRequest τ)
  | reopen
  | restore (env : RestoreEnv τ) (file : SourceFile)

/-- An operation, whether it succeeds or fails. A file to restore is no database, or one of the server; the
clock has a four-digit year, and no revision overflows. -/
inductive SyncStore.Step : SyncStore → Operation τ → SyncStore → Prop
  | push {env request result s s'} (h : (SyncStore.push env request).exec s = (result, s'))
      (hfits : PushFits s.db s'.db) : Step s (.push env request) s'
  | reopen {s s'} (h : SyncStore.open (.database s.db) = .ok s') : Step s .reopen s'
  | restore {env file result s s'} (h : (SyncStore.restoreFrom env file).exec s = (result, s'))
      (hfile : ∀ content, file = .database content →
        Written τ content ∧ (s' = s ∨ RestoreFits s.db content s'.db))
      (hclock : FourDigitYear env.restoreTime) : Step s (.restore env file) s'

section Numbered

variable {db db' : Database} {head : Nat} {notes : NotesTable} {snapshots : SnapshotTable} {now : Nat → τ}
  {c : SyncChange τ}

/-- What the notes table is after a shift of its revisions. -/
def Shifted (n : Nat) (notes : NotesTable) (db' : Database) : Prop :=
  db'.notes = some (notes.map (.shift (asI64 n)) (NoteRow.id_shift _))

variable (τ) in
/-- A property of a database under its current revision that the writes of the server keep, as long as the revisions
fit into an `i64`. -/
structure KeptByWrites (P : Database → Nat → Prop) : Prop where
  numbered : ∀ {db head}, P db head → Numbered τ db head
  created : P SyncStore.created.db 0
  congr : ∀ {db db' head}, P db head → db'.notes = db.notes → P db' head
  withChange : ∀ {now : Nat → τ} {c head notes snapshots}, P ⟨some notes, some snapshots⟩ head → head + 1 < 2 ^ 63 →
    P (.withChange now c (head + 1) notes snapshots) (head + 1)
  shift : ∀ {db db' head notes n}, P db head → db.notes = some notes → n < 2 ^ 63 →
    (if notes.rows = [] then head else head + n) < 2 ^ 63 → Shifted n notes db' →
    P db' (if notes.rows = [] then head else head + n)

namespace Numbered

theorem created : Numbered τ SyncStore.created.db 0 := ⟨⟨_, rfl, rfl, nofun⟩, by decide⟩

theorem currentRevision_eq (h : Numbered τ db head) : currentRevision db = .ok head := by
  obtain ⟨⟨notes, hn, hmax, -⟩, hlt⟩ := h
  refine currentRevision_eq_ok.2 ⟨notes, hn, ?_, ?_⟩ <;> rw [hmax]
  · unfold I64
    omega
  · exact asU64_natCast (by omega)

theorem withChange (h : Numbered τ ⟨some notes, some snapshots⟩ head) (hfits : head + 1 < 2 ^ 63) :
    Numbered τ (.withChange now c (head + 1) notes snapshots) (head + 1) := by
  obtain ⟨⟨_, ⟨⟩, hmax, hrows⟩, -⟩ := h
  have hnew : (⟨.ofChange c, asI64 (head + 1)⟩ : NoteRow) ∈
      (notes.upsert ⟨.ofChange c, asI64 (head + 1)⟩).rows := Keyed.mem_upsert.2 (.inl rfl)
  refine ⟨⟨_, rfl, le_antisymm ?_ ?_, fun row hrow => ?_⟩, hfits⟩
  · obtain ⟨row, hrow, heq⟩ := exists_maxRevision (List.ne_nil_of_mem hnew)
    rw [← heq]
    rcases Keyed.mem_upsert.1 hrow with rfl | ⟨hrow, -⟩
    · exact (asI64_of_lt hfits).le
    · have := le_maxRevision hrow
      omega
  · rw [← asI64_of_lt hfits]
    exact le_maxRevision hnew
  · rcases Keyed.mem_upsert.1 hrow with rfl | ⟨hrow, -⟩
    · refine ⟨?_, c, rfl⟩
      show 0 < asI64 (head + 1)
      rw [asI64_of_lt hfits]
      omega
    · exact hrows row hrow

theorem shift {n : Nat} (h : Numbered τ db head) (hnotes : db.notes = some notes) (hn : n < 2 ^ 63)
    (hfits : (if notes.rows = [] then head else head + n) < 2 ^ 63) (hdb' : Shifted n notes db') :
    Numbered τ db' (if notes.rows = [] then head else head + n) := by
  obtain ⟨⟨_, hnotes', hmax, hrows⟩, -⟩ := h
  obtain rfl := Option.some.inj (hnotes.symm.trans hnotes')
  refine ⟨⟨_, hdb', ?_, fun row hrow => ?_⟩, hfits⟩
  · rw [Keyed.rows_map, asI64_of_lt hn]
    split_ifs with hne
    · rw [← hmax, hne]
      rfl
    · rw [maxRevision_shift hne, hmax]
      rfl
  · obtain ⟨old, hold, rfl⟩ := List.mem_map.1 hrow
    obtain ⟨hpos, hchange⟩ := hrows old hold
    rw [asI64_of_lt hn]
    exact ⟨Int.add_pos_of_pos_of_nonneg hpos (Int.natCast_nonneg n), hchange⟩

theorem congr (h : Numbered τ db head) (hnotes : db'.notes = db.notes) : Numbered τ db' head :=
  ⟨hnotes ▸ h.notes, h.head_lt⟩

theorem kept : KeptByWrites τ (Numbered τ) := ⟨id, created, congr, withChange, shift⟩

end Numbered

namespace KeptByWrites

variable {P : Database → Nat → Prop} (hP : KeptByWrites τ P)
include hP

theorem currentRevision_eq (h : P db head) : currentRevision db = .ok head := (hP.numbered h).currentRevision_eq

theorem pushed (h : P db head) (hpushed : Pushed now c db db')
    (hfits : head + db'.snapshotCount < 2 ^ 63 + db.snapshotCount) : ∃ head', P db' head' ∧
      head ≤ head' ∧ head' + db.snapshotCount = head + db'.snapshotCount := by
  cases hpushed with
  | skipped => exact ⟨head, h, le_rfl, rfl⟩
  | stored hdb hrev =>
    obtain rfl := Except.ok.inj (hrev.symm.trans (hP.currentRevision_eq h))
    subst hdb
    rw [snapshotCount_withChange] at hfits ⊢
    exact ⟨_, hP.withChange h (by omega), Nat.le_succ _, by omega⟩

theorem pushChanges {request : PushRequest τ} (h : P db head) (hpush : pushChanges now request db = .ok db')
    (hfits : head + db'.snapshotCount < 2 ^ 63 + db.snapshotCount) : ∃ head', P db' head' ∧ head ≤ head' := by
  obtain ⟨head', hdone, hle, -⟩ := pushChanges_induct (P := fun _ db₁ =>
    head + db₁.snapshotCount < 2 ^ 63 + db.snapshotCount → ∃ head', P db₁ head' ∧ head ≤ head' ∧
      head' + db.snapshotCount = head + db₁.snapshotCount)
    (fun _ => ⟨head, h, le_rfl, rfl⟩) (fun done change db₁ db₂ hdone hpushed hfits => by
      have hle : db₁.snapshotCount ≤ db₂.snapshotCount := by
        rcases hpushed.skipped_or_grew with ⟨-, rfl⟩ | ⟨-, hlt⟩
        · exact le_rfl
        · exact hlt.le
      obtain ⟨head₁, hdone, hle₁, hcount⟩ := hdone (by omega)
      obtain ⟨head₂, hdone, hle₂, hcount'⟩ := hP.pushed hdone hpushed (by omega)
      exact ⟨head₂, hdone, hle₁.trans hle₂, by omega⟩) hpush hfits
  exact ⟨head', hdone, hle⟩

theorem push {env : PushEnv τ} {request : PushRequest τ} {result : Except StoreError PushResponse} {s s' : SyncStore}
    (h : P s.db head) (hpush : (SyncStore.push env request).exec s = (result, s'))
    (hfits : PushFits s.db s'.db) : ∃ head', P s'.db head' := by
  rcases result with e | response
  · rw [exec_push_error hpush]
    exact ⟨head, h⟩
  · obtain ⟨-, -, _, -, hloop, -⟩ := exec_push_ok.1 hpush
    obtain ⟨head', h', -⟩ := hP.pushChanges h hloop (hfits head (hP.currentRevision_eq h))
    exact ⟨head', h'⟩

variable {env : RestoreEnv τ} {live content : Database} {m r : Nat} {previous after : List (SyncChange τ)}

theorem shiftedContent (h : P content r) (hm : m < 2 ^ 63) (hle : r ≤ m)
    (hfits : rebasedRevision m r content < 2 ^ 63) (hnotes : content.notes = some notes)
    (hdb : Shifted m notes db) : P db (rebasedRevision m r content) := by
  have heq : rebasedRevision m r content = if notes.rows = [] then r else r + m := by
    simp only [rebasedRevision, hnotes, Option.mem_some_iff, exists_eq_left', hle, true_and, ne_eq, ite_not]
  rw [heq] at hfits ⊢
  exact hP.shift h hnotes hm hfits hdb

theorem rebased (h : P content r) (hm : m < 2 ^ 63) (hfits : rebasedRevision m r content < 2 ^ 63)
    (hrebased : Rebased m content db) : P db (rebasedRevision m r content) := by
  obtain ⟨r', hr, hrebased⟩ := hrebased
  obtain rfl := Except.ok.inj (hr.symm.trans (hP.currentRevision_eq h))
  split_ifs at hrebased with hcond
  · obtain ⟨notes, snapshots, rfl, rfl⟩ := hrebased
    exact hP.shiftedContent h hm hcond.1 hfits rfl rfl
  · have heq : rebasedRevision m r' content = r' := by
      unfold rebasedRevision
      split_ifs with h'
      · obtain rfl : m = 0 := by_contra fun hne => hcond ⟨h'.1, hne⟩
        rfl
      · rfl
    rwa [hrebased, heq]

theorem tombstoned (h : P db head) (hstore : Tombstoned env previous after db db')
    (hfits : head + db'.snapshotCount < 2 ^ 63 + db.snapshotCount) : ∃ head', P db' head' := by
  rw [hstore.snapshotCount_eq] at hfits
  obtain ⟨n, hdone⟩ := hstore.induct (P := fun done n db₁ => head + done.length < 2 ^ 63 →
      P db₁ n ∧ n = head + done.length)
    (fun revision hrev _ => by
      obtain rfl := Except.ok.inj (hrev.symm.trans (hP.currentRevision_eq h))
      exact ⟨h, rfl⟩)
    (fun done c n notes snapshots hdone hlt => by
      rw [List.length_append, List.length_singleton] at hlt ⊢
      obtain ⟨hdone, rfl⟩ := hdone (by omega)
      exact ⟨hP.withChange hdone (by omega), by omega⟩)
  exact ⟨n, (hdone (by omega)).1⟩

theorem underway (hm : m < 2 ^ 63) (h : P content r)
    (hfits : rebasedRevision m r content + db'.snapshotCount < 2 ^ 63 + content.snapshotCount)
    (hunderway : Underway env m previous content db') : ∃ head', P db' head' := by
  have hr : ∀ {r'}, currentRevision content = .ok r' → r' = r := fun hr' =>
    Except.ok.inj (hr'.symm.trans (hP.currentRevision_eq h))
  cases hunderway with
  | copied => exact ⟨r, h⟩
  | notesShifted hrebases hnotes =>
    obtain ⟨r', hr', hle, -⟩ := hrebases
    obtain rfl := hr hr'
    exact ⟨_, hP.shiftedContent h hm hle (Nat.lt_of_add_lt_add_right hfits) hnotes rfl⟩
  | rebased hrebased =>
    have hcount := hrebased.snapshotCount_eq
    exact ⟨_, hP.rebased h hm (by omega) hrebased⟩
  | tombstoned hrebased _ hstore =>
    have hcount := hrebased.snapshotCount_eq
    have hcount' := hstore.snapshotCount_eq
    refine hP.tombstoned (hP.rebased h hm (by omega) hrebased) hstore ?_
    rwa [hcount]

end KeptByWrites
end Numbered

/-! ### Every operation leaves a database of the server -/

section Written

variable {env : RestoreEnv τ} {live content db db' : Database} {head : Nat} {s s' : SyncStore} {operation : Operation τ}

theorem currentRevision_of_none (hnone : db.notes = none) : currentRevision db ≠ .ok head := by
  intro hrev
  obtain ⟨notes, hnotes, -⟩ := currentRevision_eq_ok.1 hrev
  rw [hnone] at hnotes
  cases hnotes

theorem Underway.eq_of_none {m : Nat} {previous : List (SyncChange τ)} (h : Underway env m previous content db)
    (hnone : content.notes = none) : db = content := by
  have hnorevision : ∀ {r}, currentRevision content ≠ .ok r := currentRevision_of_none hnone
  cases h with
  | copied => rfl
  | notesShifted hrebases => exact absurd hrebases.choose_spec.1 hnorevision
  | rebased hrebased => exact absurd hrebased.choose_spec.1 hnorevision
  | tombstoned hrebased => exact absurd hrebased.choose_spec.1 hnorevision

/-- There is no notes table, or the property holds. -/
def WrittenAs (P : Database → Nat → Prop) (db : Database) : Prop := db.notes = none ∨ ∃ head, P db head

namespace WrittenAs

variable {P : Database → Nat → Prop}

theorem of_currentRevision (h : WrittenAs P db) (hP : KeptByWrites τ P) (hrev : currentRevision db = .ok head) :
    P db head := by
  rcases h with hnone | ⟨head', h⟩
  · exact absurd hrev (currentRevision_of_none hnone)
  · obtain rfl := Except.ok.inj ((hP.currentRevision_eq h).symm.trans hrev)
    exact h

theorem initConnection (h : WrittenAs P db) (hP : KeptByWrites τ P) : WrittenAs P (initConnection db) := by
  rcases h with hnone | ⟨head, h⟩
  · refine .inr ⟨0, hP.congr hP.created ?_⟩
    rw [FloralSync.initConnection, hnone]
    rfl
  · obtain ⟨notes, hnotes, -⟩ := (hP.numbered h).notes
    refine .inr ⟨head, hP.congr h ?_⟩
    rw [FloralSync.initConnection, hnotes]
    rfl

theorem push {env : PushEnv τ} {request : PushRequest τ} {result : Except StoreError PushResponse}
    (h : WrittenAs P s.db) (hP : KeptByWrites τ P) (hpush : (SyncStore.push env request).exec s = (result, s'))
    (hfits : PushFits s.db s'.db) : WrittenAs P s'.db := by
  rcases result with e | response
  · rwa [exec_push_error hpush]
  · obtain ⟨-, -, _, hstart, -⟩ := exec_push_ok.1 hpush
    exact .inr (hP.push (h.of_currentRevision hP hstart) hpush hfits)

theorem reopen (h : WrittenAs P s.db) (hP : KeptByWrites τ P) (hopen : SyncStore.open (.database s.db) = .ok s') :
    WrittenAs P s'.db := by
  rw [(open_eq_ok.1 hopen).1]
  exact h.initConnection hP

theorem restore {file : SourceFile} {result : Except StoreError Unit} (h : WrittenAs P s.db) (hP : KeptByWrites τ P)
    (hrestore : (SyncStore.restoreFrom env file).exec s = (result, s'))
    (hfile : ∀ content, file = .database content →
      WrittenAs P content ∧ (s' = s ∨ RestoreFits s.db content s'.db)) : WrittenAs P s'.db := by
  rcases underway_of_exec hrestore with rfl | ⟨m, previous, content, rfl, hrevision, -, hunderway⟩
  · exact h
  obtain ⟨hcontent, rfl | hfits⟩ := hfile content rfl
  · exact h
  rcases hcontent with hnone | ⟨r, hcontent⟩
  · -- without a notes table, nothing comes after the copy
    rw [hunderway.eq_of_none hnone]
    exact .inl hnone
  · have hlive := hP.numbered (h.of_currentRevision hP hrevision)
    exact .inr (hP.underway hlive.head_lt hcontent (hfits m r hrevision (hP.currentRevision_eq hcontent)) hunderway)

end WrittenAs

theorem Written.numbered (h : Written τ db) (hrev : currentRevision db = .ok head) : Numbered τ db head :=
  WrittenAs.of_currentRevision h Numbered.kept hrev

theorem Written.step (h : Written τ s.db) (hs : SyncStore.Step s operation s') : Written τ s'.db := by
  cases hs with
  | push hpush hfits => exact WrittenAs.push h Numbered.kept hpush hfits
  | reopen hopen => exact WrittenAs.reopen h Numbered.kept hopen
  | restore hrestore hfile _ => exact WrittenAs.restore h Numbered.kept hrestore hfile

end Written
end FloralSync

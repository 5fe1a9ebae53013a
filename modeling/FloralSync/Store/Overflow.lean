import FloralSync.Store.Numbered
import FloralSync.Trace
import Mathlib.Algebra.Order.BigOperators.Group.List
import Mathlib.Data.Finset.Card

/-!
# How large revisions become

A push adds one to the current revision for each change that it stores, a restore adds the current revision to those
of the backup, so revisions may double with every restore (`overflow_by_restores`). They do not grow faster: with
`c` pushed changes and `k` restores none is above `c * 2 ^ k` (`revisions_below`).

The invariant compares the current revision of the store and of every backup with the number of ids that it lacks
of those ever pushed (`Counted`). A tombstone then costs nothing, since it brings back such an id.
-/

namespace FloralSync

open Replication StoreM Trace

variable {τ : Type} [Chrono τ]

/-- A store, and the backups that were made of it. -/
structure BackedStore where
  live : SyncStore
  backups : List Database

variable (τ) in
inductive BackedOperation
  | push (env : PushEnv τ) (request : PushRequest τ)
  | backupTo (fault : Option StoreError)
  | restoreFrom (env : RestoreEnv τ) (content : Database)

namespace BackedStore

/-- A new store. -/
def created : BackedStore := ⟨.created, []⟩

/-- An operation, whether it succeeds or fails. Only backups are restored. -/
inductive Step : BackedStore → BackedOperation τ → BackedStore → Prop
  | push {env request result s live} (h : (SyncStore.push env request).exec s.live = (result, live)) :
    Step s (.push env request) { s with live }
  | backupTo {fault content s live} (h : (SyncStore.backupTo fault).exec s.live = (.ok (.database content), live)) :
    Step s (.backupTo fault) ⟨live, content :: s.backups⟩
  | backupFailed {fault e s live} (h : (SyncStore.backupTo fault).exec s.live = (.error e, live)) :
    Step s (.backupTo fault) { s with live }
  | restoreFrom {env content result s live} (hbackup : content ∈ s.backups)
      (h : (SyncStore.restoreFrom env (.database content)).exec s.live = (result, live)) :
    Step s (.restoreFrom env content) { s with live }

end BackedStore

namespace BackedOperation

/-- The number of pushed changes. -/
def changes : BackedOperation τ → Nat
  | push _ request => request.changes.length
  | _ => 0

def isRestore : BackedOperation τ → Bool
  | restoreFrom .. => true
  | _ => false

/-- Pushed changes, backups and restores count. -/
def size : BackedOperation τ → Nat
  | push _ request => request.changes.length
  | _ => 1

end BackedOperation

/-- `MAX(revision) + 1` is below the bound in every round of the loop of `push`. -/
def PushBelow (bound : Nat) (env : PushEnv τ) (request : PushRequest τ) (db : Database) : Prop :=
  ∀ done change rest db₁ revision, request.changes = done ++ change :: rest →
    pushChanges env.now ⟨request.deviceId, done⟩ db = .ok db₁ → currentRevision db₁ = .ok revision →
      revision + 1 < bound

variable (τ) in
/-- The rebased revisions and those of the tombstones are below the bound. -/
structure RestoreBelow (bound : Nat) (live content : Database) : Prop where
  notes : ∀ m, currentRevision live = .ok m → ∀ notes ∈ content.notes, ∀ row ∈ notes.rows, row.revision + m < bound
  snapshots : ∀ m, currentRevision live = .ok m → ∀ snapshots ∈ content.noteSnapshots, ∀ row ∈ snapshots.rows,
    row.revision + m < bound
  tombstones : ∀ m (previous restored : List (SyncChange τ)) rebased r, currentRevision live = .ok m →
    loadAllChanges live = .ok previous → Rebased m content rebased → loadAllChanges rebased = .ok restored →
      currentRevision rebased = .ok r → r + (missingNoteIds previous restored).length < bound

/-- Every revision that the operation computes is below the bound. -/
def BackedOperation.Below (bound : Nat) (s : BackedStore) : BackedOperation τ → Prop
  | push env request => PushBelow bound env request s.live.db
  | backupTo _ => True
  | restoreFrom _ content => RestoreBelow τ bound s.live.db content

variable (τ) in
/-- The current revision and the number of ids of `pushed` that the database lacks are together at most `bound`. -/
structure Counted (pushed : Finset String) (bound : Nat) (db : Database) (head : Nat) : Prop extends
    Numbered τ db head where
  ids : ∀ notes ∈ db.notes, ∀ row ∈ notes.rows, row.id ∈ pushed
  lacking : ∀ notes ∈ db.notes, head + pushed.card ≤ bound + notes.rows.length
  snapshots : ∀ notes ∈ db.notes, ∀ snapshots ∈ db.noteSnapshots, ∀ row ∈ snapshots.rows,
    ∃ note ∈ notes.rows, row.revision ≤ note.revision

section Counted

variable {pushed pushed' : Finset String} {bound bound' head m r : Nat} {db db' content : Database} {notes : NotesTable}
  {snapshots : SnapshotTable} {now : Nat → τ} {c : SyncChange τ} {previous restored : List (SyncChange τ)}
  {env : RestoreEnv τ} {request : PushRequest τ}

theorem length_le_card {l : List String} {s : Finset String} (hnodup : l.Nodup) (hsub : ∀ id ∈ l, id ∈ s) :
    l.length ≤ s.card := by
  rw [← List.toFinset_card_of_nodup hnodup]
  exact Finset.card_le_card fun id hid => hsub id (List.mem_toFinset.1 hid)

namespace Counted

theorem created : Counted τ ∅ 0 SyncStore.created.db 0 where
  toNumbered := .created
  ids := by rintro _ ⟨⟩ row hrow; cases hrow
  lacking := by rintro _ ⟨⟩; exact le_rfl
  snapshots := by rintro _ ⟨⟩ _ ⟨⟩ row hrow; cases hrow

theorem mono (h : Counted τ pushed bound db head) (hsub : pushed ⊆ pushed')
    (hle : bound + pushed'.card ≤ bound' + pushed.card) : Counted τ pushed' bound' db head where
  toNumbered := h.toNumbered
  ids := fun notes hnotes row hrow => hsub (h.ids notes hnotes row hrow)
  lacking := fun notes hnotes => by
    have := h.lacking notes hnotes
    omega
  snapshots := h.snapshots

theorem length_le (h : Counted τ pushed bound db head) (hnotes : db.notes = some notes) :
    notes.rows.length ≤ pushed.card := by
  rw [← List.length_map (f := NoteRow.id)]
  exact length_le_card notes.nodup (List.forall_mem_map.2 (h.ids notes hnotes))

theorem head_le (h : Counted τ pushed bound db head) : head ≤ bound := by
  obtain ⟨notes, hnotes, -⟩ := h.notes
  have := h.length_le hnotes
  have := h.lacking notes hnotes
  omega

/-- A change for a pushed id: a new row pays for itself, an old one raises the bound. -/
theorem withChange (h : Counted τ pushed bound ⟨some notes, some snapshots⟩ head) (hfits : head + 1 < 2 ^ 63)
    (hid : c.id ∈ pushed) (hle : bound ≤ bound') (hold : c.id ∈ notes.rows.map NoteRow.id → bound < bound') :
    Counted τ pushed bound' (.withChange now c (head + 1) notes snapshots) (head + 1) where
  toNumbered := h.toNumbered.withChange hfits
  ids := by
    rintro _ ⟨⟩ row hrow
    rcases Keyed.mem_upsert.1 hrow with rfl | ⟨hrow, -⟩
    · exact hid
    · exact h.ids _ rfl row hrow
  lacking := by
    rintro _ ⟨⟩
    have hlacking := h.lacking _ rfl
    have hkey : NoteRow.id ⟨.ofChange c, asI64 (head + 1)⟩ = c.id := rfl
    rw [Keyed.length_upsert, hkey]
    split_ifs with hmem
    · have := hold hmem
      omega
    · omega
  snapshots := by
    -- the new note has the largest revision
    have hnew : (⟨.ofChange c, asI64 (head + 1)⟩ : NoteRow) ∈ (notes.upsert ⟨.ofChange c, asI64 (head + 1)⟩).rows :=
      Keyed.mem_upsert.2 (.inl rfl)
    rintro _ ⟨⟩ _ ⟨⟩ row hrow
    refine ⟨_, hnew, ?_⟩
    rw [SnapshotTable.rows_insert, List.mem_append, List.mem_singleton] at hrow
    rcases hrow with hrow | rfl
    · obtain ⟨note, hnote, hle⟩ := h.snapshots _ rfl _ rfl row hrow
      obtain ⟨_, ⟨⟩, hmax, -⟩ := h.notes
      have := le_maxRevision hnote
      show row.revision ≤ asI64 (head + 1)
      rw [asI64_of_lt hfits]
      omega
    · exact le_rfl

theorem shift (h : Counted τ pushed bound content r) (hnotes : content.notes = some notes) (hm : m < 2 ^ 63)
    (hfits : r + m < 2 ^ 63) (hdb : Shifted m notes db)
    (hsnapshots : ∀ snapshots ∈ db.noteSnapshots, ∀ row ∈ snapshots.rows, ∃ note ∈ notes.rows,
      row.revision ≤ note.revision + m) :
    Counted τ pushed (bound + m) db (if notes.rows = [] then r else r + m) where
  toNumbered := h.toNumbered.shift hnotes hm (by split_ifs <;> omega) hdb
  ids := by
    rw [hdb]
    rintro _ ⟨⟩ row hrow
    obtain ⟨old, hold, rfl⟩ := List.mem_map.1 hrow
    exact h.ids notes hnotes old hold
  lacking := by
    rw [hdb]
    rintro _ ⟨⟩
    have := h.lacking notes hnotes
    rw [Keyed.rows_map, List.length_map]
    split_ifs <;> omega
  snapshots := by
    rw [hdb]
    rintro _ ⟨⟩ snapshots hsnapshots' row hrow
    obtain ⟨note, hnote, hle⟩ := hsnapshots snapshots hsnapshots' row hrow
    refine ⟨note.shift (asI64 m), List.mem_map_of_mem hnote, ?_⟩
    rwa [asI64_of_lt hm]

theorem withPushed (h : Counted τ pushed bound ⟨some notes, some snapshots⟩ head) (hfits : bound + 1 < 2 ^ 63) :
    Counted τ (insert c.id pushed) (bound + 1) (.withChange now c (head + 1) notes snapshots) (head + 1) := by
  have hhead := h.head_le
  by_cases hid : c.id ∈ pushed
  · rw [Finset.insert_eq_of_mem hid]
    exact h.withChange (by omega) hid (Nat.le_succ _) fun _ => Nat.lt_succ_self _
  · have hnew : c.id ∉ notes.rows.map NoteRow.id := by
      intro hmem
      obtain ⟨row, hrow, heq⟩ := List.mem_map.1 hmem
      exact hid (heq ▸ h.ids _ rfl row hrow)
    have hroom : Counted τ (insert c.id pushed) (bound + 1) ⟨some notes, some snapshots⟩ head := by
      refine h.mono (Finset.subset_insert c.id pushed) ?_
      rw [Finset.card_insert_of_notMem hid]
      omega
    exact hroom.withChange (by omega) (Finset.mem_insert_self ..) le_rfl fun hmem => absurd hmem hnew

theorem pushed_round (h : Counted τ pushed bound db head) (hfits : bound + 1 < 2 ^ 63) (hpushed : Pushed now c db db') :
    ∃ pushed' head', pushed ⊆ pushed' ∧ pushed'.card ≤ pushed.card + 1 ∧ Counted τ pushed' (bound + 1) db' head' := by
  cases hpushed with
  | skipped => exact ⟨pushed, head, subset_rfl, Nat.le_succ _, h.mono subset_rfl (by omega)⟩
  | stored hdb hrev =>
    subst hdb
    obtain rfl := Except.ok.inj (hrev.symm.trans h.toNumbered.currentRevision_eq)
    exact ⟨_, _, Finset.subset_insert .., Finset.card_insert_le .., h.withPushed hfits⟩

theorem pushChanges (h : Counted τ pushed bound db head) (hfits : bound + request.changes.length < 2 ^ 63)
    (hpush : FloralSync.pushChanges now request db = .ok db') : ∃ pushed' head', pushed ⊆ pushed' ∧
      pushed'.card ≤ pushed.card + request.changes.length ∧
        Counted τ pushed' (bound + request.changes.length) db' head' := by
  have hlength : request.filled.length = request.changes.length := List.length_map ..
  rw [← hlength] at hfits ⊢
  refine pushChanges_induct (P := fun done db₁ => bound + done.length < 2 ^ 63 → ∃ pushed' head', pushed ⊆ pushed' ∧
    pushed'.card ≤ pushed.card + done.length ∧ Counted τ pushed' (bound + done.length) db₁ head')
    (fun _ => ⟨pushed, head, subset_rfl, le_rfl, h⟩) (fun done c db₁ db₂ hdone hround hfits => ?_) hpush hfits
  rw [List.length_append, List.length_singleton] at hfits ⊢
  obtain ⟨pushed₁, head₁, hsub₁, hcard₁, h₁⟩ := hdone (by omega)
  obtain ⟨pushed₂, head₂, hsub₂, hcard₂, h₂⟩ := h₁.pushed_round (by omega) hround
  exact ⟨pushed₂, head₂, hsub₁.trans hsub₂, by omega, h₂⟩

theorem pushBelow {env : PushEnv τ} (h : Counted τ pushed bound db head)
    (hfits : bound + request.changes.length < 2 ^ 63) : PushBelow (2 ^ 63) env request db := by
  intro done change rest db₁ revision hchanges hpush hrev
  rw [hchanges, List.length_append, List.length_cons] at hfits
  have hdone : bound + (PushRequest.mk request.deviceId done).changes.length < 2 ^ 63 := by
    show bound + done.length < 2 ^ 63
    omega
  obtain ⟨_, head₁, -, -, h₁⟩ := h.pushChanges hdone hpush
  obtain rfl := Except.ok.inj (h₁.toNumbered.currentRevision_eq.symm.trans hrev)
  have hle : head₁ ≤ bound + done.length := h₁.head_le
  omega

theorem notes_le (h : Counted τ pushed bound db head) (hnotes : db.notes = some notes) {row : NoteRow}
    (hrow : row ∈ notes.rows) : row.revision ≤ head := by
  obtain ⟨_, hnotes', hmax, -⟩ := h.notes
  obtain rfl := Option.some.inj (hnotes.symm.trans hnotes')
  rw [← hmax]
  exact le_maxRevision hrow

/-- The rebase raises the bound by the revision of the live database. -/
theorem rebased (h : Counted τ pushed bound content r) (hm : m < 2 ^ 63) (hfits : r + m < 2 ^ 63)
    (hrebased : Rebased m content db) : ∃ r', Counted τ pushed (bound + m) db r' := by
  obtain ⟨_, -, hrebased⟩ := hrebased
  split_ifs at hrebased
  · obtain ⟨notes, snapshots, rfl, rfl⟩ := hrebased
    refine ⟨_, h.shift rfl hm hfits rfl ?_⟩
    rintro _ ⟨⟩ row hrow
    obtain ⟨old, hold, rfl⟩ := List.mem_map.1 hrow
    obtain ⟨note, hnote, hle⟩ := h.snapshots _ rfl _ rfl old hold
    refine ⟨note, hnote, ?_⟩
    show old.revision + asI64 m ≤ note.revision + m
    rw [asI64_of_lt hm]
    omega
  · rw [hrebased]
    exact ⟨r, h.mono subset_rfl (by omega)⟩

theorem notesShifted (h : Counted τ pushed bound content r) (hm : m < 2 ^ 63) (hfits : r + m < 2 ^ 63)
    (hnotes : content.notes = some notes) : ∃ r', Counted τ pushed (bound + m)
      { content with notes := some (notes.map (.shift (asI64 m)) (NoteRow.id_shift _)) } r' := by
  refine ⟨_, h.shift hnotes hm hfits rfl fun snapshots hsnapshots row hrow => ?_⟩
  obtain ⟨note, hnote, hle⟩ := h.snapshots notes hnotes snapshots hsnapshots row hrow
  exact ⟨note, hnote, by omega⟩

theorem ids_of_loadAllChanges (h : Counted τ pushed bound db head) (hload : loadAllChanges db = .ok previous) :
    ∀ p ∈ previous, p.id ∈ pushed := by
  intro p hp
  obtain ⟨notes, hnotes, hids⟩ := map_id_of_loadAllChanges hload
  obtain ⟨row, hrow, hid⟩ := List.mem_map.1 (hids ▸ List.mem_map_of_mem hp)
  exact hid ▸ h.ids notes hnotes row (mem_sortedRows.1 hrow)

theorem add_missing_le (h : Counted τ pushed bound db head) (hprevious : ∀ p ∈ previous, p.id ∈ pushed)
    (hnodup : (previous.map SyncChange.id).Nodup) (hload : loadAllChanges db = .ok restored) :
    head + (missingNoteIds previous restored).length ≤ bound := by
  have hmissing : (missingNoteIds previous restored).Nodup := (missingNoteIds_pairwise hnodup).imp ne_of_lt
  have hdisjoint : (restored.map SyncChange.id ++ missingNoteIds previous restored).Nodup := by
    refine List.nodup_append.2 ⟨nodup_of_loadAllChanges hload, hmissing, fun id hid id' hid' heq => ?_⟩
    obtain ⟨c, hc, rfl⟩ := List.mem_map.1 hid
    exact (mem_missingNoteIds.1 hid').2 c hc heq
  have hcard := length_le_card hdisjoint (s := pushed) (List.forall_mem_append.2
    ⟨List.forall_mem_map.2 (h.ids_of_loadAllChanges hload), fun id hid => ?_⟩)
  · obtain ⟨notes, hnotes, hids⟩ := map_id_of_loadAllChanges hload
    have hlength := congrArg List.length hids
    have hsorted : (sortedRows notes).length = notes.rows.length := List.length_insertionSort ..
    rw [List.length_map, List.length_map] at hlength
    rw [List.length_append, List.length_map] at hcard
    have := h.lacking notes hnotes
    omega
  · obtain ⟨⟨p, hp, rfl⟩, -⟩ := mem_missingNoteIds.1 hid
    exact hprevious p hp

variable (τ) in
/-- The loop over the missing ids: the table has the restored ids and those of the tombstones stored so far. -/
structure Tombstoning (pushed : Finset String) (bound head : Nat) (restored done : List (SyncChange τ)) (n : Nat)
    (db : Database) : Prop where
  counted : Counted τ pushed bound db n
  head_eq : n = head + done.length
  ids : ∀ notes ∈ db.notes, ∀ row ∈ notes.rows, row.id ∈ (restored ++ done).map SyncChange.id

/-- A tombstone brings an id back that the database lacked, so the bound stays. -/
theorem Tombstoning.concat {done : List (SyncChange τ)} {n : Nat}
    (h : Tombstoning τ pushed bound head restored done n ⟨some notes, some snapshots⟩) (hbound : bound < 2 ^ 63)
    (hfits : head + done.length < bound) (hid : c.id ∈ pushed) (hnew : c.id ∉ (restored ++ done).map SyncChange.id) :
    Tombstoning τ pushed bound head restored (done ++ [c]) (n + 1) (.withChange now c (n + 1) notes snapshots) where
  counted := by
    have hhead := h.head_eq
    refine h.counted.withChange (by omega) hid le_rfl fun hmem => absurd ?_ hnew
    obtain ⟨row, hrow, heq⟩ := List.mem_map.1 hmem
    exact heq ▸ h.ids _ rfl row hrow
  head_eq := by rw [h.head_eq, List.length_append, List.length_singleton, Nat.add_assoc]
  ids := by
    rintro _ ⟨⟩ row hrow
    rw [← List.append_assoc, List.map_append, List.mem_append]
    rcases Keyed.mem_upsert.1 hrow with rfl | ⟨hrow, -⟩
    · exact .inr (List.mem_singleton_self _)
    · exact .inl (h.ids _ rfl row hrow)

theorem tombstoned (h : Counted τ pushed bound db head) (hbound : bound < 2 ^ 63)
    (hprevious : ∀ p ∈ previous, p.id ∈ pushed) (hnodup : (previous.map SyncChange.id).Nodup)
    (hload : loadAllChanges db = .ok restored) (hstore : Tombstoned env previous restored db db') :
    ∃ head', Counted τ pushed bound db' head' := by
  obtain ⟨notes, hnotes, hids⟩ := map_id_of_loadAllChanges hload
  have hroom := h.add_missing_le hprevious hnodup hload
  have hmissing : (missingNoteIds previous restored).Nodup := (missingNoteIds_pairwise hnodup).imp ne_of_lt
  obtain ⟨n, hdone⟩ := hstore.induct (P := fun done n db₁ => head + done.length ≤ bound →
      (∀ c ∈ done, c.id ∈ missingNoteIds previous restored) → (done.map SyncChange.id).Nodup →
      Tombstoning τ pushed bound head restored done n db₁)
    (fun revision hrev _ _ _ => by
      obtain rfl := Except.ok.inj (hrev.symm.trans h.toNumbered.currentRevision_eq)
      refine ⟨h, rfl, fun notes' hnotes' row hrow => ?_⟩
      obtain rfl := Option.some.inj (hnotes.symm.trans hnotes')
      rw [List.append_nil, hids]
      exact List.mem_map_of_mem (mem_sortedRows.2 hrow))
    (fun done c n notes₁ snapshots₁ hdone hle hall hdistinct => by
      rw [List.length_append, List.length_singleton] at hle
      rw [List.forall_mem_append, List.forall_mem_singleton] at hall
      rw [List.map_append, List.map_singleton, List.nodup_append_comm, List.singleton_append] at hdistinct
      obtain ⟨hc, hdistinct⟩ := List.nodup_cons.1 hdistinct
      obtain ⟨⟨p, hp, hpid⟩, habsent⟩ := mem_missingNoteIds.1 hall.2
      refine (hdone (by omega) hall.1 hdistinct).concat hbound (by omega) (hpid ▸ hprevious p hp) ?_
      rw [List.map_append, List.mem_append, not_or]
      refine ⟨fun hmem => ?_, hc⟩
      obtain ⟨d, hd, heq⟩ := List.mem_map.1 hmem
      exact habsent d hd heq)
  have hmap : (tombstones env.restoreTime previous restored).map SyncChange.id = missingNoteIds previous restored :=
    map_id_tombstones
  have hlength := congrArg List.length hmap
  rw [List.length_map] at hlength
  refine ⟨n, (hdone (by omega) (fun c hc => ?_) (by rwa [hmap])).counted⟩
  rw [← hmap]
  exact List.mem_map_of_mem hc

variable {live : Database}

/-- A restore doubles the bound, whether it succeeds or fails. -/
theorem underway (hlive : Counted τ pushed bound live m) (h : Counted τ pushed bound content r)
    (hfits : 2 * bound < 2 ^ 63) (hload : loadAllChanges live = .ok previous)
    (hunderway : Underway env m previous content db) : ∃ head', Counted τ pushed (2 * bound) db head' := by
  have hm := hlive.head_le
  have hr := h.head_le
  have hroom : ∀ {db head}, Counted τ pushed (bound + m) db head → Counted τ pushed (2 * bound) db head :=
    fun h => h.mono subset_rfl (by omega)
  cases hunderway with
  | copied => exact ⟨r, h.mono subset_rfl (by omega)⟩
  | notesShifted _ hnotes => exact (h.notesShifted (by omega) (by omega) hnotes).imp fun _ => hroom
  | rebased hrebased => exact (h.rebased (by omega) (by omega) hrebased).imp fun _ => hroom
  | tombstoned hrebased hload' hstore =>
    obtain ⟨r', h'⟩ := h.rebased (by omega) (by omega) hrebased
    exact (h'.tombstoned (by omega) (hlive.ids_of_loadAllChanges hload) (nodup_of_loadAllChanges hload) hload'
      hstore).imp fun _ => hroom

theorem restoreBelow (hlive : Counted τ pushed bound live m) (h : Counted τ pushed bound content r)
    (hfits : 2 * bound < 2 ^ 63) : RestoreBelow τ (2 ^ 63) live content := by
  have hm := hlive.head_le
  have hr := h.head_le
  have hlive_eq : ∀ {m'}, currentRevision live = .ok m' → m' = m := fun hrev =>
    Except.ok.inj (hrev.symm.trans hlive.toNumbered.currentRevision_eq)
  obtain ⟨notes, hnotes, -⟩ := h.notes
  constructor
  · intro m' hrev notes hnotes row hrow
    obtain rfl := hlive_eq hrev
    have := h.notes_le hnotes hrow
    omega
  · intro m' hrev snapshots hsnapshots row hrow
    obtain rfl := hlive_eq hrev
    obtain ⟨note, hnote, hle⟩ := h.snapshots notes hnotes snapshots hsnapshots row hrow
    have := h.notes_le hnotes hnote
    omega
  · intro m' previous restored rebased r' hrev hload hrebased hload' hrev'
    obtain rfl := hlive_eq hrev
    obtain ⟨r'', h'⟩ := h.rebased (by omega) (by omega) hrebased
    obtain rfl := Except.ok.inj (hrev'.symm.trans h'.toNumbered.currentRevision_eq)
    have := h'.add_missing_le (hlive.ids_of_loadAllChanges hload) (nodup_of_loadAllChanges hload) hload'
    omega

end Counted
end Counted

/-! ### Every run -/

variable (τ) in
/-- The bound holds of the store and of its backups. -/
def BackedStore.Within (pushed : Finset String) (bound : Nat) (s : BackedStore) : Prop :=
  (∃ head, Counted τ pushed bound s.live.db head) ∧ ∀ content ∈ s.backups, ∃ head, Counted τ pushed bound content head

/-- The bound after one more operation. -/
def BackedOperation.raise (operation : BackedOperation τ) (bound : Nat) : Nat :=
  if operation.isRestore then 2 * bound else bound + operation.changes

/-- The number of pushed changes. -/
def pushedChanges (trace : List (BackedStore × BackedOperation τ)) : Nat := (trace.map fun x => x.2.changes).sum

def restores (trace : List (BackedStore × BackedOperation τ)) : Nat := trace.countP fun x => x.2.isRestore

/-- The number of pushed changes, backups and restores. -/
def runSize (trace : List (BackedStore × BackedOperation τ)) : Nat := (trace.map fun x => x.2.size).sum

section Sizes

omit [Chrono τ]

variable {trace : List (BackedStore × BackedOperation τ)}

theorem runSize_cons (x : BackedStore × BackedOperation τ) (trace : List (BackedStore × BackedOperation τ)) :
    runSize (x :: trace) = x.2.size + runSize trace := List.sum_cons

theorem pushedChanges_le (trace : List (BackedStore × BackedOperation τ)) : pushedChanges trace ≤ runSize trace :=
  List.sum_le_sum fun x _ => by cases x.2 <;> simp [BackedOperation.changes, BackedOperation.size]

theorem BackedOperation.le_raise (operation : BackedOperation τ) (bound : Nat) : bound ≤ operation.raise bound := by
  unfold raise
  split_ifs <;> omega

theorem raise_le (x : BackedStore × BackedOperation τ) (trace : List (BackedStore × BackedOperation τ)) :
    x.2.raise (pushedChanges trace * 2 ^ restores trace) ≤ pushedChanges (x :: trace) * 2 ^ restores (x :: trace) := by
  have hpos : 1 ≤ 2 ^ restores trace := Nat.one_le_two_pow
  have hchanges : pushedChanges (x :: trace) = x.2.changes + pushedChanges trace := List.sum_cons
  have hrestores : restores (x :: trace) = restores trace + if x.2.isRestore then 1 else 0 := List.countP_cons
  rw [hchanges, hrestores, Nat.add_mul, BackedOperation.raise]
  split_ifs
  · rw [Nat.pow_succ]
    calc 2 * (pushedChanges trace * 2 ^ restores trace)
        = pushedChanges trace * (2 ^ restores trace * 2) := by ring
      _ ≤ x.2.changes * (2 ^ restores trace * 2) + pushedChanges trace * (2 ^ restores trace * 2) := Nat.le_add_left ..
  · have hmul : x.2.changes ≤ x.2.changes * 2 ^ restores trace := Nat.le_mul_of_pos_right _ hpos
    rw [Nat.add_zero]
    omega

/-- Fewer than `2 ^ 31` pushed changes, backups and restores are few enough if at most 32 are restores. -/
theorem fits_of_runSize (hsize : runSize trace < 2 ^ 31) (hrestores : restores trace ≤ 32) :
    pushedChanges trace * 2 ^ restores trace < 2 ^ 63 := by
  calc pushedChanges trace * 2 ^ restores trace
      ≤ pushedChanges trace * 2 ^ 32 := Nat.mul_le_mul_left _ (Nat.pow_le_pow_right (by decide) hrestores)
    _ < 2 ^ 31 * 2 ^ 32 := Nat.mul_lt_mul_of_pos_right ((pushedChanges_le trace).trans_lt hsize) (by decide)
    _ = 2 ^ 63 := by decide

end Sizes

section Runs

variable {pushed pushed' : Finset String} {bound bound' : Nat} {s s' : BackedStore} {operation : BackedOperation τ}
  {trace : List (BackedStore × BackedOperation τ)}

theorem BackedStore.Within.mono (h : s.Within τ pushed bound) (hsub : pushed ⊆ pushed')
    (hle : bound + pushed'.card ≤ bound' + pushed.card) : s.Within τ pushed' bound' :=
  ⟨h.1.imp fun _ h => h.mono hsub hle, fun content hcontent => (h.2 content hcontent).imp fun _ h => h.mono hsub hle⟩

theorem BackedStore.Within.step (h : s.Within τ pushed bound) (hfits : operation.raise bound < 2 ^ 63)
    (hs : BackedStore.Step s operation s') :
    operation.Below (2 ^ 63) s ∧ ∃ pushed', s'.Within τ pushed' (operation.raise bound) := by
  obtain ⟨⟨m, hlive⟩, hbackups⟩ := h
  have hwithin : s.Within τ pushed bound := ⟨⟨m, hlive⟩, hbackups⟩
  cases hs with
  | @push env request result _ live hpush =>
    have hraise : bound + request.changes.length < 2 ^ 63 := hfits
    refine ⟨hlive.pushBelow hraise, ?_⟩
    rcases result with e | response
    · obtain rfl := exec_push_error hpush
      exact ⟨pushed, hwithin.mono subset_rfl (Nat.add_le_add_right (Nat.le_add_right ..) _)⟩
    · obtain ⟨-, -, _, -, hloop, -⟩ := exec_push_ok.1 hpush
      obtain ⟨pushed', head', hsub, hcard, h'⟩ := hlive.pushChanges hraise hloop
      have hrest : BackedStore.Within τ pushed' (bound + request.changes.length) s := hwithin.mono hsub (by omega)
      exact ⟨pushed', ⟨head', h'⟩, hrest.2⟩
  | backupTo hbackup =>
    obtain ⟨-, hfile, rfl⟩ := exec_backupTo_ok.1 hbackup
    obtain rfl := SourceFile.database.inj hfile
    exact ⟨trivial, pushed, ⟨m, hlive⟩, List.forall_mem_cons.2 ⟨⟨m, hlive⟩, hbackups⟩⟩
  | @backupFailed fault e _ live hbackup =>
    rw [SyncStore.backupTo, StoreM.exec_query] at hbackup
    obtain rfl := (Prod.mk.inj hbackup).2
    exact ⟨trivial, pushed, ⟨m, hlive⟩, hbackups⟩
  | restoreFrom hbackup hrestore =>
    have hraise : 2 * bound < 2 ^ 63 := hfits
    obtain ⟨r, hcontent⟩ := hbackups _ hbackup
    have hrest : BackedStore.Within τ pushed (2 * bound) s := hwithin.mono subset_rfl (by omega)
    refine ⟨hlive.restoreBelow hcontent hraise, pushed, ?_, hrest.2⟩
    rcases underway_of_exec hrestore with rfl | ⟨m', previous, content, hfile, hrevision, hload, hunderway⟩
    · exact hrest.1
    · obtain rfl := SourceFile.database.inj hfile
      obtain rfl := Except.ok.inj (hrevision.symm.trans hlive.toNumbered.currentRevision_eq)
      exact hlive.underway hcontent hraise hload hunderway

theorem BackedStore.Within.created : BackedStore.created.Within τ ∅ 0 :=
  ⟨⟨0, .created⟩, fun _ hcontent => nomatch hcontent⟩

/-- With `c` pushed changes and `k` restores, no revision is above `c * 2 ^ k`. -/
theorem within_of_run (h : Run BackedStore.Step .created trace s)
    (hfits : pushedChanges trace * 2 ^ restores trace < 2 ^ 63) :
    (∀ x ∈ trace, x.2.Below (2 ^ 63) x.1) ∧ ∃ pushed, s.Within τ pushed (pushedChanges trace * 2 ^ restores trace) := by
  induction h with
  | start => exact ⟨nofun, ∅, by simpa [pushedChanges] using BackedStore.Within.created⟩
  | @step trace s operation s' h hs ih =>
    have hraise := raise_le (s, operation) trace
    have hbefore := operation.le_raise (pushedChanges trace * 2 ^ restores trace)
    obtain ⟨hbelow, pushed, hwithin⟩ := ih ((hbefore.trans hraise).trans_lt hfits)
    obtain ⟨hnow, pushed', hwithin'⟩ := hwithin.step (hraise.trans_lt hfits) hs
    exact ⟨List.forall_mem_cons.2 ⟨hnow, hbelow⟩, pushed', hwithin'.mono subset_rfl (Nat.add_le_add_right hraise _)⟩

/-- Every revision of a run fits if the pushed changes, doubled with every restore, do. -/
theorem revisions_below (h : Run BackedStore.Step .created trace s)
    (hfits : pushedChanges trace * 2 ^ restores trace < 2 ^ 63) : ∀ x ∈ trace, x.2.Below (2 ^ 63) x.1 :=
  (within_of_run h hfits).1

end Runs

/-! ### Doubling -/

open Rfc3339 (Civil)

/-- One note under a revision. -/
def noteUnder (revision : Int) : Database where
  notes := some (Keyed.empty.insert ⟨.ofChange (Sample.stored "n1" "note" Sample.eight), revision⟩
    (by simp [Keyed.empty]))
  noteSnapshots := some
    { toKeyed := Keyed.empty.insert
        ⟨1, .ofChange (Sample.stored "n1" "note" Sample.eight), revision, "2026-05-18T08:00:00+00:00"⟩
        (by simp [Keyed.empty])
      sequence := 1 }

theorem noteUnder_one : Sample.oneNoteStore.db = noteUnder 1 := by decide +kernel

theorem currentRevision_noteUnder {n : Nat} (hn : n < 2 ^ 63) : currentRevision (noteUnder n) = .ok n := by
  refine currentRevision_eq_ok.2 ⟨_, rfl, ?_, asU64_natCast (by omega)⟩
  show I64 n
  unfold I64
  omega

theorem loadAllChanges_noteUnder (revision : Int) :
    loadAllChanges (noteUnder revision) = .ok [Sample.stored "n1" "note" Sample.eight] := by
  have hdecode : (ChangeRow.ofChange (Sample.stored "n1" "note" Sample.eight)).decode =
      some (Sample.stored "n1" "note" Sample.eight) := by decide +kernel
  exact loadAllChanges_eq_ok.2 ⟨_, rfl, congrArg (fun c => [c]) hdecode⟩

theorem restored_noteUnder {n : Nat} (hpos : 0 < n) (hn : n + n < 2 ^ 63) :
    Restored (Sample.restoreEnv Sample.nine) (noteUnder n) (noteUnder n) (noteUnder (n + n : Nat)) := by
  have hrev : currentRevision (noteUnder n) = .ok n := currentRevision_noteUnder (by omega)
  have hrev' : currentRevision (noteUnder (n + n : Nat)) = .ok (n + n) := currentRevision_noteUnder hn
  have hshift : noteUnder (n + n : Nat) = noteUnder (n + asI64 n) := by rw [asI64_of_lt (by omega), Nat.cast_add]
  refine .intro hrev (loadAllChanges_noteUnder n) ⟨n, hrev, ?_⟩ (loadAllChanges_noteUnder (n + n : Nat))
    ⟨n + n, hrev', ?_⟩ hrev'
  · rw [if_pos ⟨le_rfl, hpos.ne'⟩, hshift]
    exact ⟨_, _, rfl, rfl⟩
  · rfl

theorem run_backedOneNote : Run BackedStore.Step .created
    [(BackedStore.created, BackedOperation.push Sample.pushEnv Sample.oneNote)] ⟨Sample.oneNoteStore, []⟩ := by
  have hpush : (SyncStore.push Sample.pushEnv Sample.oneNote).exec .created = (_, Sample.oneNoteStore) := rfl
  exact .step .start (.push hpush)

theorem revisions_below_oneNote :
    (BackedOperation.push Sample.pushEnv Sample.oneNote).Below (2 ^ 63) BackedStore.created :=
  revisions_below run_backedOneNote (fits_of_runSize (by decide) (by decide)) _ (List.mem_singleton_self _)

theorem exists_doubling_run {i : Nat} (hi : i ≤ 62) :
    ∃ (trace : List (BackedStore × BackedOperation Civil)) (s : BackedStore), Run BackedStore.Step .created trace s ∧
      s.live.db = noteUnder (2 ^ i : Nat) ∧ runSize trace = 2 * i + 1 := by
  induction i with
  | zero => exact ⟨_, _, run_backedOneNote, noteUnder_one, by decide⟩
  | succ i ih =>
    obtain ⟨trace, ⟨⟨db, revisionEvents⟩, backups⟩, hrun, hdb, hsize⟩ := ih (Nat.le_of_succ_le hi)
    dsimp only at hdb
    subst hdb
    have hlt : 2 ^ i + 2 ^ i < 2 ^ 63 := by
      rw [← Nat.two_mul, ← Nat.pow_succ']
      exact Nat.pow_lt_pow_right (by decide) (by omega)
    obtain ⟨revision, hrestore⟩ := exec_restoreFrom_of_calm (s := ⟨noteUnder (2 ^ i : Nat), revisionEvents⟩)
      (fun _ => rfl) (restored_noteUnder (Nat.two_pow_pos i) hlt)
    have hrun' := (hrun.step (.backupTo (exec_backupTo_ok.2 ⟨rfl, rfl, rfl⟩))).step
      (.restoreFrom (List.mem_cons_self ..) hrestore)
    refine ⟨_, _, hrun', ?_, ?_⟩
    · rw [Nat.pow_succ, Nat.mul_two]
    · rw [runSize_cons, runSize_cons, hsize]
      show 1 + (1 + (2 * i + 1)) = 2 * (i + 1) + 1
      omega

/-- After 62 restores, one more computes the revision `2 ^ 63`. -/
theorem overflow_by_restores : ∃ (trace : List (BackedStore × BackedOperation Civil)) (s : BackedStore),
    Run BackedStore.Step .created trace s ∧ runSize trace < 2 ^ 31 ∧ ¬ ∀ x ∈ trace, x.2.Below (2 ^ 63) x.1 := by
  obtain ⟨trace, ⟨⟨db, revisionEvents⟩, backups⟩, hrun, hdb, hsize⟩ := exists_doubling_run (le_refl 62)
  dsimp only at hdb
  subst hdb
  have hrestore : (SyncStore.restoreFrom (Sample.restoreEnv Sample.nine) (.database (noteUnder (2 ^ 62 : Nat)))).exec
      ⟨noteUnder (2 ^ 62 : Nat), revisionEvents⟩ = (_, _) := rfl
  have hrun' := (hrun.step (.backupTo (exec_backupTo_ok.2 ⟨rfl, rfl, rfl⟩))).step
    (.restoreFrom (List.mem_cons_self ..) hrestore)
  refine ⟨_, _, hrun', ?_, fun hbelow => ?_⟩
  · rw [runSize_cons, runSize_cons, hsize]
    show 1 + (1 + (2 * 62 + 1)) < 2 ^ 31
    decide
  · have hrestoreBelow : RestoreBelow Civil (2 ^ 63) (noteUnder (2 ^ 62 : Nat)) (noteUnder (2 ^ 62 : Nat)) :=
      hbelow _ (List.mem_cons_self ..)
    have hlt := hrestoreBelow.notes (2 ^ 62) (currentRevision_noteUnder (by decide)) _ rfl _ (List.mem_singleton_self _)
    change ((2 ^ 62 : Nat) : Int) + ((2 ^ 62 : Nat) : Int) < ((2 ^ 63 : Nat) : Int) at hlt
    omega

end FloralSync

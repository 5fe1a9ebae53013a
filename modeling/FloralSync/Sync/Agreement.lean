import FloralSync.Store.Numbered
import FloralSync.Sync.Wait
import FloralSync.Trace

/-!
# The wait endpoint and the changes endpoint

One answers from the watch channel, the other from the notes table. They agree on every cursor that fits
into an `i64` as long as the channel has the current revision and the notes can be read; which operations
keep that is said by `Calm`.
-/

namespace FloralSync

open Replication StoreM Trace

variable {τ : Type} [Chrono τ]

variable (τ) in
/-- The wait endpoint answers at once if and only if there are changes, and else there are none. -/
def Agrees (s : SyncStore) (since : Nat) : Prop :=
  ((∃ response, waitImmediately s.revisionEvents since = some response) ↔
    ∃ response : ChangesResponse τ, changesSince s.db since = .ok response ∧ response.changes ≠ []) ∧
  (waitImmediately s.revisionEvents since = none →
    ∃ response : ChangesResponse τ, changesSince s.db since = .ok response ∧ response.changes = [])

variable (τ) in
/-- The channel has the current revision, and every note can be read. -/
structure SyncStore.Current (s : SyncStore) : Prop where
  revisionEvents : currentRevision s.db = .ok s.revisionEvents
  readable : ∀ id, (cellAt s.db id : Cell (SyncChange τ)) ≠ .unreadable

/-- A push that succeeds leaves no note whose times cannot be read back; a restore that fails after its copy
leaves notes that can be read, and the revision of the live database. -/
def Calm (s : SyncStore) : Operation τ → Prop
  | .push env request => ∀ response s', (SyncStore.push env request).exec s = (.ok response, s') →
      ∀ id, Cell.offerAll changeTime SyncChange.InRange (cellAt s.db id) (request.filled.filter (·.id = id)) ≠
        some .unreadable
  | .reopen => True
  | .restore env file => ∀ db, LateFailure env s.db file db →
      currentRevision db = currentRevision s.db ∧ ∀ id, (cellAt db id : Cell (SyncChange τ)) ≠ .unreadable

section State

variable {s : SyncStore} {db : Database} {head since : Nat}

theorem waitImmediately_eq_some {current : Nat} :
    (∃ response, waitImmediately current since = some response) ↔ since < current := by
  simp [waitImmediately]

theorem not_agrees_of_error (h : ∀ response : ChangesResponse τ, changesSince s.db since ≠ .ok response) :
    ¬ Agrees τ s since := by
  rintro ⟨hsome, hnone⟩
  cases hwait : waitImmediately s.revisionEvents since with
  | none =>
    obtain ⟨response, hchanges, -⟩ := hnone hwait
    exact h response hchanges
  | some response =>
    obtain ⟨response, hchanges, -⟩ := hsome.1 ⟨response, hwait⟩
    exact h response hchanges

theorem not_agrees_of_le (h : 2 ^ 63 ≤ since) : ¬ Agrees τ s since := by
  refine not_agrees_of_error fun response hchanges => ?_
  obtain ⟨-, -, hlt, -⟩ := changesSince_eq_ok.1 hchanges
  omega

namespace Numbered

theorem exists_record (h : Numbered τ db head) (hread : ∀ id, (cellAt db id : Cell (SyncChange τ)) ≠ .unreadable)
    {notes : NotesTable} (hnotes : db.notes = some notes) {row : NoteRow} (hrow : row ∈ notes.rows) :
    ∃ c, (row.record : Option (RevisionedChange τ)) = some c := by
  obtain ⟨_, hnotes', hmax, hrows⟩ := h.notes
  obtain rfl := Option.some.inj (hnotes.symm.trans hnotes')
  obtain ⟨hpos, -⟩ := hrows row hrow
  have hle := le_maxRevision hrow
  have hlt := h.head_lt
  have hi : I64 row.revision := by
    unfold I64
    omega
  cases hdec : (row.change.decode : Option (SyncChange τ)) with
  | none =>
    refine absurd (cellAt_eq_unreadable.2 ⟨row, ?_, hdec⟩) (hread row.id)
    rw [noteAt_eq_lookup hnotes]
    exact Keyed.lookup_key hrow
  | some note => exact ⟨⟨asU64 row.revision, note⟩, NoteRow.record_eq_some.2 ⟨hi, hdec, rfl⟩⟩

/-- There are rows above the cursor if and only if the current revision is. -/
theorem rowsSince_ne_nil (h : Numbered τ db head) {notes : NotesTable} (hnotes : db.notes = some notes) :
    rowsSince notes since ≠ [] ↔ since < head := by
  obtain ⟨_, hnotes', hmax, -⟩ := h.notes
  obtain rfl := Option.some.inj (hnotes.symm.trans hnotes')
  constructor
  · intro hne
    obtain ⟨row, hrow⟩ := List.exists_mem_of_ne_nil _ hne
    obtain ⟨hrow, hlt⟩ := mem_rowsSince.1 hrow
    have hle := le_maxRevision hrow
    omega
  · intro hlt
    have hne : notes.rows ≠ [] := by
      rintro hrows
      rw [hrows] at hmax
      have hzero : (0 : Int) = head := hmax
      omega
    obtain ⟨row, hrow, heq⟩ := exists_maxRevision hne
    exact List.ne_nil_of_mem (mem_rowsSince.2 ⟨hrow, by omega⟩)

/-- The changes endpoint answers if the notes can be read, and then with the notes above the cursor. -/
theorem exists_changesSince (h : Numbered τ db head)
    (hread : ∀ id, (cellAt db id : Cell (SyncChange τ)) ≠ .unreadable) (hsince : since < 2 ^ 63) :
    ∃ response : ChangesResponse τ, changesSince db since = .ok response ∧
      (response.changes ≠ [] ↔ since < head) := by
  obtain ⟨notes, hnotes, -⟩ := h.notes
  obtain ⟨changes, hchanges⟩ := List.exists_map_eq_some.2 fun row hrow =>
    h.exists_record hread hnotes (mem_rowsSince.1 hrow).1
  refine ⟨⟨head, changes⟩, changesSince_eq_ok.2 ⟨notes, hnotes, hsince, hchanges, h.currentRevision_eq⟩, ?_⟩
  have hlength := congrArg List.length hchanges
  rw [List.length_map, List.length_map] at hlength
  rw [← h.rowsSince_ne_nil hnotes, ne_eq, ne_eq, ← List.length_eq_zero_iff, ← List.length_eq_zero_iff, hlength]

/-- A note that cannot be read fails the changes endpoint below its revision. -/
theorem exists_not_agrees (h : Numbered τ s.db head) {id : String}
    (hcell : (cellAt s.db id : Cell (SyncChange τ)) = .unreadable) : ∃ since < 2 ^ 63, ¬ Agrees τ s since := by
  obtain ⟨notes, hnotes, hmax, hrows⟩ := h.notes
  obtain ⟨row, hrow, hdec⟩ := cellAt_eq_unreadable.1 hcell
  rw [noteAt_eq_lookup hnotes] at hrow
  have hmem := (Keyed.lookup_eq_some.1 hrow).1
  obtain ⟨hpos, -⟩ := hrows row hmem
  have hle := le_maxRevision hmem
  have hlt := h.head_lt
  refine ⟨(row.revision - 1).toNat, by omega, not_agrees_of_error fun response hchanges => ?_⟩
  obtain ⟨notes', hnotes', -, hrecords, -⟩ := changesSince_eq_ok.1 hchanges
  obtain rfl := Option.some.inj (hnotes.symm.trans hnotes')
  obtain ⟨c, hc⟩ := List.exists_map_eq_some.1 ⟨_, hrecords⟩ row (mem_rowsSince.2 ⟨hmem, by omega⟩)
  obtain ⟨-, hnote, -⟩ := NoteRow.record_eq_some.1 hc
  rw [hdec] at hnote
  cases hnote

theorem agrees_iff (h : Numbered τ s.db head) : (∀ since < 2 ^ 63, Agrees τ s since) ↔ s.Current τ := by
  constructor
  · intro hagrees
    have hread : ∀ id, (cellAt s.db id : Cell (SyncChange τ)) ≠ .unreadable := by
      intro id hcell
      obtain ⟨since, hlt, hnot⟩ := h.exists_not_agrees hcell
      exact hnot (hagrees since hlt)
    refine ⟨?_, hread⟩
    rw [h.currentRevision_eq]
    -- the smaller of the two revisions is a cursor that tells them apart
    have hlt := h.head_lt
    have hmin : min head s.revisionEvents < 2 ^ 63 := lt_of_le_of_lt (min_le_left _ _) hlt
    obtain ⟨hsome, -⟩ := hagrees _ hmin
    obtain ⟨response, hchanges, hne⟩ := h.exists_changesSince hread hmin
    have hiff : (∃ response : ChangesResponse τ, changesSince s.db (min head s.revisionEvents) = .ok response ∧
        response.changes ≠ []) ↔ min head s.revisionEvents < head := by
      rw [hchanges]
      simp [← hne]
    rw [waitImmediately_eq_some, hiff] at hsome
    congr 1
    omega
  · intro hcurrent since hlt
    obtain ⟨response, hchanges, hne⟩ := h.exists_changesSince hcurrent.readable hlt
    obtain rfl := Except.ok.inj (h.currentRevision_eq.symm.trans hcurrent.revisionEvents)
    refine ⟨?_, fun hnone => ⟨response, hchanges, ?_⟩⟩
    · rw [waitImmediately_eq_some, ← hne, hchanges]
      simp
    · by_contra hnil
      exact absurd (hne.1 hnil) (Nat.not_lt.2 (waitImmediately_eq_none.1 hnone))

end Numbered

theorem Written.agrees_iff (h : Written τ s.db) : (∀ since < 2 ^ 63, Agrees τ s since) ↔ s.Current τ := by
  rcases h with hnone | ⟨head, h⟩
  · refine iff_of_false (fun hagrees => not_agrees_of_error ?_ (hagrees 0 (by decide))) fun hcurrent =>
      currentRevision_of_none hnone hcurrent.revisionEvents
    intro response hchanges
    obtain ⟨notes, hnotes, -⟩ := changesSince_eq_ok.1 hchanges
    rw [hnone] at hnotes
    cases hnotes
  · exact h.agrees_iff

end State

/-! ### Runs -/

section Runs

variable [LawfulChrono τ] {s s' : SyncStore} {live content db : Database} {head : Nat} {operation : Operation τ}
  {trace : List (SyncStore × Operation τ)}

theorem Numbered.inRange (h : Numbered τ db head) {p : SyncChange τ} (hp : cellAt db p.id = .holds p) : p.InRange := by
  obtain ⟨notes, hnotes, -, hrows⟩ := h.notes
  obtain ⟨row, hrow, hdec⟩ := cellAt_eq_holds.1 hp
  rw [noteAt_eq_lookup hnotes] at hrow
  obtain ⟨-, c, hc⟩ := hrows row (Keyed.lookup_eq_some.1 hrow).1
  rw [hc, ChangeRow.decode_ofChange] at hdec
  split_ifs at hdec with hrange
  exact Option.some.inj hdec ▸ hrange

theorem Restored.readable {env : RestoreEnv τ} (h : Restored env live content db) (hlive : Numbered τ live head)
    (hread : ∀ id, (cellAt live id : Cell (SyncChange τ)) ≠ .unreadable) (hclock : FourDigitYear env.restoreTime)
    (id : String) : (cellAt db id : Cell (SyncChange τ)) ≠ .unreadable := by
  by_cases hcontent : noteAt content id = none
  · cases hcell : (cellAt live id : Cell (SyncChange τ)) with
    | unreadable => exact absurd hcell (hread id)
    | absent => simp [cellAt, h.noteAt_of_neither hcontent (cellAt_eq_absent.1 hcell)]
    | holds p =>
      obtain rfl := id_of_cellAt hcell
      obtain ⟨-, r, hnote⟩ := h.noteAt_of_missing hcell hcontent
      have hcell' : cellAt db p.id = .holds (tombstone env.restoreTime p) :=
        (cellAt_of_ofChange hnote).trans (Cell.stored_of_readable (inRange_tombstone (hlive.inRange hcell) hclock))
      simp [hcell']
  · rw [h.cellAt_of_file hcontent]
    cases h with
    | intro _ _ hrebased hload _ _ =>
      rw [← hrebased.cellAt_eq]
      exact (exists_loadAllChanges_iff.1 ⟨_, hload⟩).2 id

/-- A push leaves the notes readable if it is calm. -/
theorem readable_push_iff {env : PushEnv τ} {request : PushRequest τ} {result : Except StoreError PushResponse}
    (hread : ∀ id, (cellAt s.db id : Cell (SyncChange τ)) ≠ .unreadable)
    (hpush : (SyncStore.push env request).exec s = (result, s')) :
    (∀ id, (cellAt s'.db id : Cell (SyncChange τ)) ≠ .unreadable) ↔ Calm s (.push env request) := by
  rcases result with e | response
  · have hcalm : Calm s (.push env request) := by
      intro response' s'' hpush'
      rw [hpush] at hpush'
      cases hpush'
    rw [exec_push_error hpush]
    exact iff_of_true hread hcalm
  · obtain ⟨-, -, _, -, hloop, -⟩ := exec_push_ok.1 hpush
    have hcell := pushChanges_cell hloop
    constructor
    · intro hread' response' s'' hpush' id
      rw [hcell id]
      exact fun hunreadable => hread' id (Option.some.inj hunreadable)
    · intro hcalm id hunreadable
      refine hcalm response s' hpush id ?_
      rw [hcell id, hunreadable]

theorem current_push_iff {env : PushEnv τ} {request : PushRequest τ} {result : Except StoreError PushResponse}
    (h : Numbered τ s.db head) (hcurrent : s.Current τ) (hpush : (SyncStore.push env request).exec s = (result, s'))
    (hfits : PushFits s.db s'.db) : s'.Current τ ↔ Calm s (.push env request) := by
  rw [← readable_push_iff hcurrent.readable hpush]
  refine ⟨fun hcurrent' => hcurrent'.readable, fun hread => ⟨?_, hread⟩⟩
  rcases result with e | response
  · rw [exec_push_error hpush]
    exact hcurrent.revisionEvents
  · obtain ⟨-, -, startingRevision, hstart, hloop, hrev, hevents⟩ := exec_push_ok.1 hpush
    obtain ⟨head', h', hle⟩ := Numbered.kept.pushChanges h hloop (hfits head h.currentRevision_eq)
    obtain rfl := Except.ok.inj (h'.currentRevision_eq.symm.trans hrev)
    obtain rfl := Except.ok.inj (h.currentRevision_eq.symm.trans hstart)
    obtain rfl := Except.ok.inj (h.currentRevision_eq.symm.trans hcurrent.revisionEvents)
    rw [hrev, hevents]
    split_ifs with hlt
    · rfl
    · rw [le_antisymm (Nat.not_lt.1 hlt) hle]

theorem current_restore_iff {env : RestoreEnv τ} {file : SourceFile} {result : Except StoreError Unit}
    (h : Numbered τ s.db head) (hcurrent : s.Current τ)
    (hrestore : (SyncStore.restoreFrom env file).exec s = (result, s')) (hclock : FourDigitYear env.restoreTime) :
    s'.Current τ ↔ Calm s (.restore env file) := by
  -- a late failure is the result
  have hlate : ∀ db, LateFailure env s.db file db → (∀ u, result ≠ .ok u) ∧ s' = ⟨db, s.revisionEvents⟩ := by
    intro db hlate
    obtain ⟨e, he⟩ := hlate.failed
    obtain ⟨rfl, rfl⟩ := Prod.mk.inj (hrestore.symm.trans he)
    exact ⟨nofun, rfl⟩
  rcases result with e | u
  · rcases failed_restoreFrom ⟨e, hrestore⟩ with rfl | ⟨m, previous, content, hcopied⟩
    · refine iff_of_true hcurrent fun db hdb => ?_
      obtain rfl : db = s'.db := (congrArg SyncStore.db (hlate db hdb).2).symm
      exact ⟨rfl, hcurrent.readable⟩
    · obtain ⟨hfailure, hevents⟩ := (failed_restoreFrom_of_copied hcopied).1 ⟨e, hrestore⟩
      constructor
      · intro hcurrent' db hdb
        obtain rfl : db = s'.db := (congrArg SyncStore.db (hlate db hdb).2).symm
        exact ⟨by rw [hcurrent'.revisionEvents, hevents, hcurrent.revisionEvents], hcurrent'.readable⟩
      · intro hcalm
        obtain ⟨hrev, hread⟩ := hcalm s'.db hfailure
        exact ⟨by rw [hrev, hevents, hcurrent.revisionEvents], hread⟩
  · obtain ⟨content, rfl, hrestored, hrev⟩ := exec_restoreFrom_ok hrestore
    exact iff_of_true ⟨hrev, hrestored.readable h hcurrent.readable hclock⟩
      fun db hdb => absurd rfl ((hlate db hdb).1 u)

omit [LawfulChrono τ] in
/-- Timestamps with four-digit years do no harm. -/
theorem calm_push_of_inRange {env : PushEnv τ} {request : PushRequest τ} (hcurrent : s.Current τ)
    (hr : request.InRange) : Calm s (.push env request) := by
  intro response s' _ id hunreadable
  obtain ⟨c, hc, hne⟩ := Cell.exists_offerAll_of_readable changeTime (hcurrent.readable id)
    fun v hv => hr.filled v (List.mem_of_mem_filter hv)
  exact hne (Option.some.inj (hc.symm.trans hunreadable))

theorem current_step_iff (h : Numbered τ s.db head) (hcurrent : s.Current τ) (hs : SyncStore.Step s operation s') :
    s'.Current τ ↔ Calm s operation := by
  cases hs with
  | push hpush hfits => exact current_push_iff h hcurrent hpush hfits
  | restore hrestore _ hclock => exact current_restore_iff h hcurrent hrestore hclock
  | reopen hopen =>
    obtain ⟨hdb, hrev⟩ := open_eq_ok.1 hopen
    refine iff_of_true ⟨hdb ▸ hrev, fun id => ?_⟩ trivial
    rw [cellAt_of_open hopen]
    exact hcurrent.readable id

omit [LawfulChrono τ] in
theorem current_created : SyncStore.created.Current τ := by
  have habsent : ∀ id, (cellAt SyncStore.created.db id : Cell (SyncChange τ)) = .absent :=
    fun _ => cellAt_eq_absent.2 rfl
  exact ⟨rfl, fun id => by simp [habsent]⟩

/-- The endpoints agree all along a run, on all cursors that fit into an `i64`, if and only if its operations
are calm. On other cursors they never do. -/
theorem agrees_iff_calm (h : Run (SyncStore.Step (τ := τ)) .created trace s) :
    (Always (fun s => ∀ since < 2 ^ 63, Agrees τ s since) trace s ↔ ∀ x ∈ trace, Calm x.1 x.2) ∧
      ∀ since, 2 ^ 63 ≤ since → ¬ Agrees τ s since := by
  refine ⟨h.always_iff (fun s => Written τ s.db) (.inr ⟨0, .created⟩)
    (Numbered.created.agrees_iff.2 current_created) Written.step ?_, fun since => not_agrees_of_le⟩
  intro s operation s' hinv hagrees hs
  have hcurrent := hinv.agrees_iff.1 hagrees
  rw [(hinv.step hs).agrees_iff]
  exact current_step_iff (hinv.numbered hcurrent.revisionEvents) hcurrent hs

end Runs

theorem run_oneNote : Run (SyncStore.Step (τ := Rfc3339.Civil)) .created
    [(.created, .push Sample.pushEnv Sample.oneNote)] Sample.oneNoteStore := by
  have hrev : currentRevision SyncStore.created.db = .ok 0 := by decide +kernel
  have hcount : Sample.oneNoteStore.db.snapshotCount = 1 := by decide +kernel
  exact .step .start (.push rfl (.of_eq hrev (by rw [hcount]; decide)))

theorem agrees_after_push : Agrees Rfc3339.Civil Sample.oneNoteStore 0 ∧ Agrees Rfc3339.Civil Sample.oneNoteStore 1 := by
  have hagrees := ((agrees_iff_calm run_oneNote).1.2 fun x hx => by
    rw [List.mem_singleton.1 hx]
    exact calm_push_of_inRange current_created (by decide)).2
  exact ⟨hagrees 0 (by decide), hagrees 1 (by decide)⟩

/-- The one note, restored from a file without snapshots: the restore has failed, and the note has the
revision 2. -/
def legacyRestored : SyncStore :=
  Sample.restored Sample.nine (Sample.legacy Sample.oneNoteStore.db) Sample.oneNoteStore

theorem run_legacyRestored : ∃ trace, Run (SyncStore.Step (τ := Rfc3339.Civil)) .created trace legacyRestored := by
  have hrev : currentRevision Sample.oneNoteStore.db = .ok 1 := by decide +kernel
  have hlegacy : currentRevision (Sample.legacy Sample.oneNoteStore.db) = .ok 1 := by decide +kernel
  have hfits : RestoreFits Sample.oneNoteStore.db (Sample.legacy Sample.oneNoteStore.db) legacyRestored.db :=
    .of_eq hrev hlegacy (by decide +kernel)
  have hclock : FourDigitYear (Sample.restoreEnv Sample.nine).restoreTime := by decide
  refine ⟨_, run_oneNote.step (.restore (show (SyncStore.restoreFrom (Sample.restoreEnv Sample.nine)
    (.database (Sample.legacy Sample.oneNoteStore.db))).exec Sample.oneNoteStore = (_, legacyRestored) from rfl)
      ?_ hclock)⟩
  rintro _ ⟨⟩
  have hwritten := run_oneNote.invariant (P := fun s => Written Rfc3339.Civil s.db) (.inr ⟨0, .created⟩) Written.step
  obtain ⟨hnotes, hlt⟩ := hwritten.numbered hrev
  exact ⟨.inr ⟨1, hnotes, hlt⟩, .inr hfits⟩

/-- Restoring a file without snapshots fails after the copy; the channel misses the new revision. A cursor of
`2 ^ 63` is refused even on a new store. -/
theorem not_agrees_after_restore : (∃ trace s, Run (SyncStore.Step (τ := Rfc3339.Civil)) .created trace s ∧
      ¬ Agrees Rfc3339.Civil s 1) ∧ ¬ Agrees Rfc3339.Civil SyncStore.created (2 ^ 63) := by
  obtain ⟨trace, hrun⟩ := run_legacyRestored
  refine ⟨⟨trace, legacyRestored, hrun, ?_⟩, not_agrees_of_le le_rfl⟩
  rintro ⟨hsome, -⟩
  have hchanges : changesSince legacyRestored.db 1 = .ok ⟨2, [⟨2, Sample.stored "n1" "note" Sample.eight⟩]⟩ := by
    decide +kernel
  have hwait := waitImmediately_eq_some.1 (hsome.2 ⟨_, hchanges, by simp⟩)
  have hevents : legacyRestored.revisionEvents = 1 := by decide +kernel
  rw [hevents] at hwait
  exact absurd hwait (lt_irrefl 1)

end FloralSync

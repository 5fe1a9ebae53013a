import FloralSync.Store.Reachable

/-!
# Two implementations of one history

A run of pushes and reopenings accepts a list of changes. `note_snapshots` has all of them, under the
revisions from 1 on, and `notes` is what is left when they are stored one over the other.
-/

namespace FloralSync

open Replication StoreM

variable {τ : Type} [Chrono τ]

/-- The test on which a round of `push` goes on to the next change. -/
def outdated (db : Database) (change : SyncChange τ) : Bool :=
  match existingChange db change.id with
  | .ok (some existing) => changeTime existing > changeTime change ∨
      changeTime existing = changeTime change ∧ existing = change
  | _ => false

/-- The changes that the rounds of a push accept, with their device ids filled in. -/
def acceptedChanges (now : Nat → τ) (deviceId : String) : Database → List (SyncChange τ) → List (SyncChange τ)
  | _, [] => []
  | db, change :: changes =>
    match pushChange now deviceId db change with
    | .error _ => []
    | .ok db' =>
      if outdated db (fillDevice deviceId change) then acceptedChanges now deviceId db' changes
      else fillDevice deviceId change :: acceptedChanges now deviceId db' changes

/-- A run on a new store, with the changes accepted so far. -/
inductive HistoryRun : List (SyncChange τ) → SyncStore → Prop
  | created : HistoryRun [] .created
  | pushed {accepted : List (SyncChange τ)} {s s' : SyncStore} {env : PushEnv τ} {request : PushRequest τ}
      {response : PushResponse} : HistoryRun accepted s →
      (SyncStore.push env request).exec s = (.ok response, s') → env.InRange → request.InRange →
      (accepted ++ acceptedChanges env.now request.deviceId s.db request.changes).length < 2 ^ 63 →
      HistoryRun (accepted ++ acceptedChanges env.now request.deviceId s.db request.changes) s'
  | failed {accepted : List (SyncChange τ)} {s s' : SyncStore} {env : PushEnv τ} {request : PushRequest τ}
      {e : StoreError} : HistoryRun accepted s →
      (SyncStore.push env request).exec s = (.error e, s') → HistoryRun accepted s'
  | reopened {accepted : List (SyncChange τ)} {s s' : SyncStore} : HistoryRun accepted s →
      SyncStore.open (.database s.db) = .ok s' → HistoryRun accepted s'

/-- Storing the snapshots one over the other, in the order of their revisions. -/
def replay (snapshots : SnapshotTable) : NotesTable :=
  (snapshots.rows.insertionSort (·.revision ≤ ·.revision)).foldl
    (fun notes row => notes.upsert ⟨row.change, row.revision⟩) Keyed.empty

/-- The snapshots have the revisions from 1 to the current one, each once; the history of each note is that of
its accepted changes, newest first; and a replay gives the notes. -/
structure CompleteHistory (accepted : List (SyncChange τ)) (db : Database) : Prop where
  currentRevision : currentRevision db = .ok accepted.length
  revisions : ∃ snapshots, db.noteSnapshots = some snapshots ∧
    snapshots.rows.map SnapshotRow.revision = (List.range' 1 accepted.length).map Nat.cast
  noteHistory : ∀ id, ∃ history : List (NoteSnapshot τ), noteHistory db id = .ok history ∧
    history.map NoteSnapshot.toDetail =
      (((number 1 accepted).filter (·.2.id = id)).map fun e => detailOf e.2 e.1).reverse
  replay : ∃ snapshots, db.noteSnapshots = some snapshots ∧ db.notes = some (replay snapshots)

structure Logged (accepted : List (SyncChange τ)) (db : Database) : Prop where
  represents : Represents db (Journal.empty.appendAll accepted)
  notes : db.notes = some (((number 1 accepted).map noteRow).foldl Keyed.upsert Keyed.empty)

section Logged

variable {db db' : Database} {accepted : List (SyncChange τ)} {change : SyncChange τ} {now : Nat → τ}
  {deviceId id : String} {notes : NotesTable} {snapshots : SnapshotTable}

theorem outdated_iff : outdated db change = true ↔ SkippedIn db change := by
  unfold outdated
  simp only [SkippedIn, ← existingChange_eq_some]
  split
  · rename_i existing hexisting
    simp [hexisting, Skips]
  · rename_i hne
    simp only [Bool.false_eq_true, false_iff]
    rintro ⟨old, hold, -⟩
    exact hne old hold

theorem logged_created : Logged ([] : List (SyncChange τ)) SyncStore.created.db :=
  ⟨by rw [Journal.appendAll_nil]; exact .created, rfl⟩

namespace Logged

variable [LawfulChrono τ]

theorem round (h : Logged accepted db) (hpushed : Pushed now change db db') (hnow : ∀ id, FourDigitYear (now id))
    (hc : change.InRange) (hfits : outdated db change = false → accepted.length + 1 < 2 ^ 63) :
    Logged (if outdated db change then accepted else accepted ++ [change]) db' := by
  cases hpushed with
  | skipped hcell hs =>
    rw [if_pos (outdated_iff.2 ⟨_, hcell, hs⟩)]
    exact h
  | @stored revision notes snapshots hdb hrev hnew hread =>
    have hnot : outdated db change = false := by
      rw [← Bool.not_eq_true, outdated_iff]
      rintro ⟨old, hcell, hs⟩
      exact hnew old hcell hs
    obtain rfl := Except.ok.inj (hrev.symm.trans h.represents.currentRevision_eq)
    subst hdb
    have hfits := hfits hnot
    rw [hnot, if_neg Bool.false_ne_true]
    refine ⟨?_, ?_⟩
    · rw [Journal.appendAll_concat]
      exact h.represents.withChange hnow hc (by rwa [Journal.head_empty_appendAll])
    · obtain rfl := Option.some.inj h.notes
      rw [number_append, List.map_append, List.foldl_append, Journal.head_empty_appendAll, Nat.add_comm]
      show some (Keyed.upsert _ _) = some (Keyed.upsert _ _)
      rw [asI64_of_lt (by omega)]
      rfl

theorem rounds {changes : List (SyncChange τ)} (h : Logged accepted db)
    (hpush : changes.foldlM (pushChange now deviceId) db = .ok db') (hnow : ∀ id, FourDigitYear (now id))
    (hc : ∀ c ∈ changes, c.InRange)
    (hfits : (accepted ++ acceptedChanges now deviceId db changes).length < 2 ^ 63) :
    Logged (accepted ++ acceptedChanges now deviceId db changes) db' := by
  induction changes generalizing accepted db with
  | nil =>
    obtain rfl := Except.ok.inj hpush
    rwa [acceptedChanges, List.append_nil]
  | cons change changes ih =>
    rw [List.foldlM_cons] at hpush
    obtain ⟨db₁, hround, hpush⟩ := Except.bind_eq_ok.1 hpush
    obtain ⟨hchange, hchanges⟩ := List.forall_mem_cons.1 hc
    have hlog := h.round (pushChange_pushed hround) hnow (SyncChange.inRange_fillDevice.2 hchange)
    simp only [acceptedChanges, hround] at hfits ⊢
    split_ifs at hfits hlog ⊢ with hskip
    · exact ih (hlog (by simp [hskip])) hpush hchanges hfits
    · rw [List.append_cons] at hfits ⊢
      refine ih (hlog fun _ => ?_) hpush hchanges hfits
      simp only [List.length_append, List.length_singleton] at hfits
      omega

end Logged

/-! ### The history of a journal -/

namespace Represents

variable {J : Journal (SyncChange τ)}

theorem historyRows_eq (h : Represents ⟨some notes, some snapshots⟩ J) (id : String) :
    historyRows snapshots id = (snapshots.rows.filter (·.noteId = id)).reverse := by
  have hincreasing := h.snapshot_revisions.imp le_of_lt
  refine List.Perm.eq_of_pairwise ?_
    (FloralSync.historyRows_pairwise snapshots id) (List.pairwise_reverse.2 (hincreasing.filter _))
    ((List.perm_insertionSort _ _).trans (List.reverse_perm _).symm)
  intro a b ha hb hab hba
  obtain ⟨ha, -⟩ := mem_historyRows.1 ha
  obtain ⟨hb, -⟩ := List.mem_filter.1 (List.mem_reverse.1 hb)
  exact h.eq_of_revision_eq ha hb (le_antisymm hba hab)

theorem map_historyRows (h : Represents ⟨some notes, some snapshots⟩ J) (id : String) :
    (historyRows snapshots id).map (fun row => (⟨row.change, row.revision⟩ : NoteRow)) =
      (J.entries.filter (·.2.id = id)).reverse.map noteRow := by
  have hfilter := congrArg (List.filter (·.id = id)) (h.entries snapshots rfl)
  rw [List.filter_map, List.filter_map] at hfilter
  rw [h.historyRows_eq, List.map_reverse, List.map_reverse]
  exact congrArg List.reverse hfilter

theorem noteHistory_eq [LawfulChrono τ] (h : Represents ⟨some notes, some snapshots⟩ J) (id : String) :
    ∃ history : List (NoteSnapshot τ), noteHistory ⟨some notes, some snapshots⟩ id = .ok history ∧
      history.map NoteSnapshot.toDetail =
        ((J.entries.filter (·.2.id = id)).map fun e => detailOf e.2 e.1).reverse := by
  obtain ⟨history, hhistory, -⟩ := h.exists_noteHistory id
  refine ⟨history, hhistory, ?_⟩
  obtain ⟨_, ⟨⟩, hrows⟩ := noteHistory_eq_ok.1 hhistory
  have hdetails : (historyRows snapshots id).map (fun row =>
      row.change.decode.map fun change => detailOf change (asU64 row.revision)) =
        history.map fun s => some s.toDetail := by
    refine List.forall₂_map_eq_iff.1 (hrows.imp fun row s hs => ?_)
    obtain ⟨-, change, hdec, hdetail, -⟩ := SnapshotRow.toNoteSnapshot_eq_ok.1 hs
    rw [hdec, hdetail]
    rfl
  have hentries := congrArg (List.map fun row : NoteRow =>
    (row.change.decode : Option (SyncChange τ)).map fun change => detailOf change (asU64 row.revision))
    (h.map_historyRows id)
  rw [List.map_map, List.map_map] at hentries
  have hdecode : ∀ e ∈ (J.entries.filter (·.2.id = id)).reverse,
      (((noteRow e).change.decode : Option (SyncChange τ)).map fun change =>
        detailOf change (asU64 (noteRow e).revision)) = some (detailOf e.2 e.1) := by
    intro e he
    have hmem := (List.mem_filter.1 (List.mem_reverse.1 he)).1
    have hlt := h.revision_lt hmem
    rw [h.decode hmem, noteRow_revision, asU64_natCast (by omega)]
    rfl
  refine List.map_injective_iff.2 (Option.some_injective (NoteDetail τ)) ?_
  rw [← List.map_reverse, List.map_map, List.map_map]
  exact hdetails.symm.trans (hentries.trans (List.map_congr_left hdecode))

end Represents

theorem Logged.complete [LawfulChrono τ] (h : Logged accepted db) : CompleteHistory accepted db := by
  obtain ⟨notes, snapshots, rfl⟩ := h.represents.tables
  have hentries := h.represents.entries snapshots rfl
  have hsorted := h.represents.snapshot_revisions.imp le_of_lt
  refine ⟨?_, ⟨snapshots, rfl, ?_⟩, fun id => h.represents.noteHistory_eq id, snapshots, rfl, ?_⟩
  · rw [h.represents.currentRevision_eq, Journal.head_empty_appendAll]
  · have hrevisions := congrArg (List.map NoteRow.revision) hentries
    rw [List.map_map, List.map_map] at hrevisions
    rw [← map_fst_number, List.map_map]
    exact hrevisions
  · rw [h.notes, replay, hsorted.insertionSort_eq]
    have hfold := congrArg (List.foldl Keyed.upsert (Keyed.empty : NotesTable)) hentries
    rw [List.foldl_map] at hfold
    exact congrArg some hfold.symm

end Logged

section Runs

variable [LawfulChrono τ] {accepted : List (SyncChange τ)} {s : SyncStore}

theorem HistoryRun.logged (h : HistoryRun accepted s) : Logged accepted s.db := by
  induction h with
  | created => exact logged_created
  | pushed _ hpush henv hr hfits ih =>
    obtain ⟨-, -, _, -, hloop, -⟩ := exec_push_ok.1 hpush
    exact ih.rounds hloop henv.now hr hfits
  | failed _ hpush ih =>
    rw [exec_push_error hpush]
    exact ih
  | reopened _ hopen ih =>
    rw [(open_eq_ok.1 hopen).1, ih.represents.initConnection_eq]
    exact ih

/-- The history of a store is complete after every run of pushes and reopenings. -/
theorem history_complete (h : HistoryRun accepted s) : CompleteHistory accepted s.db := h.logged.complete

end Runs

namespace Sample

open Rfc3339 (Civil)

/-- A note with spaces around its category. -/
def paddedNote : PushRequest Civil := ⟨"phone", [{ note "n1" "note" eight with category := " work " }]⟩

theorem history_pushed (accepted accepted' : List (SyncChange Civil)) (response : PushResponse) {s : SyncStore}
    {request : PushRequest Civil} (h : HistoryRun accepted s)
    (hpush : ((SyncStore.push pushEnv request).exec s).1 = .ok response) (hr : request.InRange) (haccepted : acceptedChanges pushEnv.now request.deviceId s.db request.changes = accepted')
    (hfits : (accepted ++ accepted').length < 2 ^ 63) : HistoryRun (accepted ++ accepted') (pushed request s) := by
  subst haccepted
  exact h.pushed (Prod.ext hpush rfl) pushEnv_inRange hr hfits

end Sample

open Sample in
/-- The older version of the note came too late. -/
theorem history_complete_sample : HistoryRun [stored "n1" "note" nine] (pushed oneNote aheadNoteStore) ∧
    CompleteHistory [stored "n1" "note" nine] (pushed oneNote aheadNoteStore).db := by
  have hahead : HistoryRun [stored "n1" "note" nine] aheadNoteStore :=
    history_pushed [] [_] ⟨1⟩ .created (by decide +kernel) (by decide) (by decide +kernel) (by decide)
  have hrun : HistoryRun [stored "n1" "note" nine] (pushed oneNote aheadNoteStore) :=
    history_pushed [_] [] ⟨1⟩ hahead (by decide +kernel) (by decide) (by decide +kernel) (by decide)
  exact ⟨hrun, history_complete hrun⟩

open Sample in
/-- The history shows categories without the spaces around them. -/
theorem history_trims_category : ∃ (accepted : List (SyncChange Rfc3339.Civil)) (s : SyncStore)
    (history : List (NoteSnapshot Rfc3339.Civil)), HistoryRun accepted s ∧ noteHistory s.db "n1" = .ok history ∧
      history.map NoteSnapshot.category ≠ ((accepted.filter (·.id = "n1")).map SyncChange.category).reverse := by
  have hrun : HistoryRun [{ stored "n1" "note" eight with category := " work " }] (pushed paddedNote .created) :=
    history_pushed [] [_] ⟨1⟩ .created (by decide +kernel) (by decide) (by decide +kernel) (by decide)
  obtain ⟨history, hhistory, hdetails⟩ := hrun.logged.complete.noteHistory "n1"
  refine ⟨_, _, history, hrun, hhistory, ?_⟩
  have hcategory := congrArg (List.map NoteDetail.category) hdetails
  rw [List.map_map] at hcategory
  rw [show history.map NoteSnapshot.category = _ from hcategory]
  decide +kernel

end FloralSync

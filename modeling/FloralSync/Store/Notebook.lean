import FloralSync.Store.Views
import FloralSync.Trace

/-!
# The store refines a notebook

A notebook is a journal of changes with copies of earlier journals. What a client can learn from the server (the
results of its requests) it can learn from the notebook as well: the store with its two tables simulates it
(`store_refines`).
-/

namespace FloralSync

open Replication StoreM Trace
open Rfc3339 (Civil)

variable {τ : Type} [Chrono τ]

/-- A request to the server and its result. A backup is named by its place, the newest first. -/
inductive Event (τ : Type)
  | push (request : PushRequest τ) (result : Except StoreError PushResponse)
  | reopen
  | backup
  | restore (backup : Nat) (restoreTime : τ)
  | revision (result : Except StoreError Nat)
  | changes (since : Nat) (result : Except StoreError (ChangesResponse τ))
  | detail (id : String) (result : Except StoreError (Option (NoteDetail τ)))
  | history (id : String) (result : Except StoreError (List (NoteDetail τ)))
  | list (query : NoteListQuery) (result : Except StoreError (NoteListPage τ))

structure Notebook (τ : Type) where
  journal : Journal (SyncChange τ)
  backups : List (Journal (SyncChange τ))

def Notebook.empty : Notebook τ := ⟨.empty, []⟩

/-- A push that succeeds offers its changes to the journal, and is told the revision of the last entry. A restore
takes up a copy after the last entry, and buries the notes that the copy does not have. -/
inductive Notebook.Step : Notebook τ → Event τ → Notebook τ → Prop
  | push {n request} : Step n
      (.push request (.ok ⟨(n.journal.offerAll changeTime SyncChange.id request.filled).head⟩))
      { n with journal := n.journal.offerAll changeTime SyncChange.id request.filled }
  | pushFailed {n request e} : Step n (.push request (.error e)) n
  | reopen {n} : Step n .reopen n
  | backup {n} : Step n .backup { n with backups := n.journal :: n.backups }
  | restore {n i K ts restoreTime} (hcopy : n.backups[i]? = some K)
      (hburied : TombstonesOf restoreTime n.journal K ts) : Step n (.restore i restoreTime)
      { n with journal := (K.past n.journal.head).appendAll ts }
  | revision {n} : Step n (.revision (.ok n.journal.head)) n
  | changes {n since} (hsince : since < 2 ^ 63) :
      Step n (.changes since (.ok (Notebook.changesSince n.journal since))) n
  | changesRefused {n since} (hsince : 2 ^ 63 ≤ since) :
      Step n (.changes since (.error (.database .toSqlConversionFailure))) n
  | detail {n id} : Step n (.detail id (.ok (Notebook.detail n.journal id))) n
  | history {n id} : Step n (.history id (.ok (Notebook.history n.journal id))) n
  | list {n query} (hfits : n.journal.entries = [] ∨ query.PatternFits) :
      Step n (.list query (.ok (Notebook.page n.journal query))) n
  | listRefused {n query} (hne : n.journal.entries ≠ []) (hfits : ¬ query.PatternFits) :
      Step n (.list query (.error (.database (.sqliteFailure "LIKE or GLOB pattern too complex")))) n

/-! ### The store -/

/-- The store and the files of its backups, newest first. -/
structure StoreSystem where
  store : SyncStore
  backups : List Database

/-- Of the history, the fields that come from the clock of the server are left out. Clocks and timestamps have
four-digit years, no revision overflows, and the restores succeed. -/
inductive StoreSystem.Step : StoreSystem → Event τ → StoreSystem → Prop
  | push {env : PushEnv τ} {request result store s}
      (h : (SyncStore.push env request).exec s.store = (result, store)) (henv : env.InRange) (hr : request.InRange)
      (hfits : PushFits s.store.db store.db) : Step s (.push request result) { s with store }
  | reopen {store s} (h : SyncStore.open (.database s.store.db) = .ok store) : Step s .reopen { s with store }
  | backup {fault content store s} (h : (SyncStore.backupTo fault).exec s.store = (.ok (.database content), store)) :
      Step s .backup { s with store, backups := content :: s.backups }
  | restore {env : RestoreEnv τ} {i content store s} (hcopy : s.backups[i]? = some content)
      (h : (SyncStore.restoreFrom env (.database content)).exec s.store = (.ok (), store)) (henv : env.InRange)
      (hfits : RestoreFits s.store.db content store.db) : Step s (.restore i env.restoreTime) { s with store }
  | revision {s} : Step s (.revision (currentRevision s.store.db)) s
  | changes {since s} : Step s (.changes since (changesSince s.store.db since)) s
  | detail {id s} : Step s (.detail id (noteDetail s.store.db id)) s
  | history {id s} : Step s (.history id ((noteHistory s.store.db id).map (List.map NoteSnapshot.toDetail))) s
  | list {query s} : Step s (.list query (noteList s.store.db query)) s

/-- The tables have the journal of the notebook, and the files its copies. -/
structure StoreSystem.Refines (s : StoreSystem) (n : Notebook τ) : Prop where
  store : Represents s.store.db n.journal
  backups : List.Forall₂ Represents s.backups n.backups

section Refines

variable [LawfulChrono τ] {s s' : StoreSystem} {n : Notebook τ} {event : Event τ}

omit [LawfulChrono τ] in
theorem changesSince_refused {db : Database} {J : Journal (SyncChange τ)} (h : Represents db J) {since : Nat}
    (hsince : 2 ^ 63 ≤ since) : (changesSince db since : Except StoreError (ChangesResponse τ)) =
      .error (.database .toSqlConversionFailure) := by
  obtain ⟨notes, snapshots, rfl⟩ := h.tables
  simp only [changesSince, Database.selectNotes, if_pos hsince]
  rfl

/-- The notebook can do what the store does. -/
theorem StoreSystem.Refines.step (h : s.Refines n) (hs : StoreSystem.Step s event s') :
    ∃ n', Notebook.Step n event n' ∧ s'.Refines n' := by
  cases hs with
  | @push env request result store _ hpush henv hr hfits =>
    rcases result with e | response
    · obtain rfl := exec_push_error hpush
      exact ⟨n, .pushFailed, h⟩
    · obtain ⟨-, -, _, -, hloop, hrev, -⟩ := exec_push_ok.1 hpush
      have hstore := h.store.pushChanges hloop henv.now hr (hfits _ h.store.currentRevision_eq)
      cases response with
      | mk revision =>
        obtain rfl : revision = _ := Except.ok.inj (hrev.symm.trans hstore.currentRevision_eq)
        exact ⟨_, .push, hstore, h.backups⟩
  | reopen hopen =>
    obtain ⟨hdb, -⟩ := open_eq_ok.1 hopen
    rw [h.store.initConnection_eq] at hdb
    exact ⟨n, .reopen, hdb ▸ h.store, h.backups⟩
  | backup hbackup =>
    obtain ⟨-, hfile, rfl⟩ := exec_backupTo_ok.1 hbackup
    obtain rfl := SourceFile.database.inj hfile
    exact ⟨_, .backup, h.store, .cons h.store h.backups⟩
  | restore hcopy hrestore henv hfits =>
    obtain ⟨K, hcopy', hK⟩ := List.exists_getElem?_of_forall₂ h.backups hcopy
    obtain ⟨ts, hts, hstore⟩ := h.store.restoreFrom hK hrestore henv hfits
    exact ⟨_, .restore hcopy' hts, hstore, h.backups⟩
  | revision =>
    refine ⟨n, ?_, h⟩
    rw [h.store.currentRevision_eq]
    exact .revision
  | @changes since _ =>
    refine ⟨n, ?_, h⟩
    rcases Nat.lt_or_ge since (2 ^ 63) with hlt | hge
    · rw [h.store.changesSince_eq hlt]
      exact .changes hlt
    · rw [changesSince_refused h.store hge]
      exact .changesRefused hge
  | detail =>
    refine ⟨n, ?_, h⟩
    rw [h.store.noteDetail_eq]
    exact .detail
  | @history id _ =>
    obtain ⟨notes, snapshots, hdb⟩ := h.store.tables
    have hstore := h.store
    rw [hdb] at hstore
    obtain ⟨history, hhistory, hdetails⟩ := hstore.noteHistory_eq id
    refine ⟨n, ?_, h⟩
    rw [hdb, hhistory]
    show Notebook.Step n (.history id (.ok (history.map NoteSnapshot.toDetail))) n
    rw [hdetails]
    exact .history
  | @list query _ =>
    refine ⟨n, ?_, h⟩
    by_cases hfits : n.journal.entries = [] ∨ query.PatternFits
    · rw [h.store.noteList_eq hfits]
      exact .list hfits
    · obtain ⟨hne, hfits⟩ := not_or.1 hfits
      rw [h.store.noteList_refused hne hfits]
      exact .listRefused hne hfits

/-- Everything that happens on a store, with the results of all requests, can happen on a notebook. -/
theorem store_refines {trace : List (StoreSystem × Event τ)} (h : Run StoreSystem.Step ⟨.created, []⟩ trace s) :
    ∃ (trace' : List (Notebook τ × Event τ)) (n : Notebook τ), Run Notebook.Step .empty trace' n ∧
      trace'.map Prod.snd = trace.map Prod.snd ∧ s.Refines n :=
  h.simulate ⟨.created, .nil⟩ fun hR hs => hR.step hs

end Refines

/-- One note is pushed and read. -/
theorem store_refines_one_note : ∃ (trace : List (StoreSystem × Event Civil))
    (trace' : List (Notebook Civil × Event Civil)) (n : Notebook Civil), trace.length = 2 ∧
    Run Notebook.Step .empty trace' n ∧ trace'.map Prod.snd = trace.map Prod.snd ∧
    StoreSystem.Refines ⟨Sample.oneNoteStore, []⟩ n := by
  have hrev : currentRevision SyncStore.created.db = .ok 0 := by decide +kernel
  have hpush : (SyncStore.push Sample.pushEnv Sample.oneNote).exec .created = (_, Sample.oneNoteStore) := rfl
  have hstep : StoreSystem.Step ⟨.created, []⟩ (.push Sample.oneNote _) ⟨Sample.oneNoteStore, []⟩ :=
    .push hpush Sample.pushEnv_inRange (by decide) (.of_eq hrev (by decide +kernel))
  have hread : StoreSystem.Step ⟨Sample.oneNoteStore, []⟩
      (.detail "n1" (noteDetail Sample.oneNoteStore.db "n1") : Event Civil) ⟨Sample.oneNoteStore, []⟩ := .detail
  obtain ⟨trace', n, hrun, hlabels, hrefines⟩ := store_refines ((Run.start.step hstep).step hread)
  exact ⟨_, trace', n, rfl, hrun, hlabels, hrefines⟩

end FloralSync

import FloralSync.Store.History
import FloralSync.Store.Pages
import Mathlib.Data.List.Dedup

/-!
# What the reads say about the journal

Every read of a database that represents a journal is a function of the journal: the answer to a poll, the
detail and the history of a note, the pages of the list, and the counts of the overview.
-/

namespace List

variable {α : Type} {f : α → Int} {l l' : List α}

/-- Two orders of the same elements are the same if both ascend in a number that no two of the elements share. -/
theorem eq_of_ascending (hmem : ∀ a, a ∈ l ↔ a ∈ l') (hl : l.Nodup) (hsorted : l.Pairwise fun a b => f a ≤ f b)
    (hsorted' : l'.Pairwise fun a b => f a < f b) : l = l' := by
  have hnodup : l'.Nodup := hsorted'.imp fun hlt => ne_of_apply_ne f hlt.ne
  have hinj : ∀ a ∈ l', ∀ b ∈ l', f a = f b → a = b := fun a ha b hb heq =>
    inj_on_of_nodup_map (pairwise_map.2 (hsorted'.imp ne_of_lt)) ha hb heq
  exact Perm.eq_of_pairwise (fun a b ha hb hab hba => hinj a ((hmem a).1 ha) b hb (le_antisymm hab hba)) hsorted
    (hsorted'.imp le_of_lt) ((perm_ext_iff_of_nodup hl hnodup).2 hmem)

end List

namespace FloralSync

open Replication StoreM

variable {τ : Type} [Chrono τ]

/-- The item of a change in a list. -/
def itemOf (change : SyncChange τ) (revision : Nat) : NoteListItem τ where
  id := change.id
  title := change.title
  category := sqliteTrim change.category
  updatedAt := change.updatedAt
  deletedAt := change.deletedAt
  deviceId := change.deviceId
  revision := revision

namespace Notebook

variable (J : Journal (SyncChange τ))

/-- The latest entry of each note. -/
def notes : List (Nat × SyncChange τ) := J.current SyncChange.id

def changesSince (since : Nat) : ChangesResponse τ :=
  ⟨J.head, ((notes J).filter fun e => since < e.1).map entryRecord⟩

def detail (id : String) : Option (NoteDetail τ) := (J.latest SyncChange.id id).map fun e => detailOf e.2 e.1

def history (id : String) : List (NoteDetail τ) :=
  ((J.entries.filter (·.2.id = id)).map fun e => detailOf e.2 e.1).reverse

/-- The notes that a query selects, newest first. -/
def selected (query : NoteListQuery) : List (Nat × SyncChange τ) :=
  ((notes J).filter fun e => query.selects (noteRow e)).reverse

def page (query : NoteListQuery) : NoteListPage τ where
  page := query.pageNumber
  pageSize := query.limit
  total := (selected J query).length
  notes := (((selected J query).drop query.offset).take query.limit).map fun e => itemOf e.2 e.1

variable {e : Nat × SyncChange τ} {query : NoteListQuery}

omit [Chrono τ] in
theorem mem_entries {J : Journal (SyncChange τ)} (h : e ∈ notes J) : e ∈ J.entries :=
  (Journal.latest_spec (Journal.mem_current.1 h)).1

theorem mem_selected {J : Journal (SyncChange τ)} :
    e ∈ selected J query ↔ e ∈ notes J ∧ query.selects (noteRow e) = true := by
  rw [selected, List.mem_reverse, List.mem_filter]

/-- The counts of the overview. -/
structure Counts (overview : AdminOverview τ) : Prop where
  latestRevision : overview.latestRevision = J.head
  noteCount : overview.noteCount = (notes J).length
  deletedNoteCount : overview.deletedNoteCount = ((notes J).filter fun e => e.2.deletedAt.isSome).length
  categoryCount : overview.categoryCount =
    ((((notes J).map fun e => sqliteTrim e.2.category).filter (· ≠ "")).dedup).length

end Notebook

namespace Represents

variable {db : Database} {J : Journal (SyncChange τ)} {notes : NotesTable} {snapshots : SnapshotTable}
  {row : NoteRow} {p : NoteRow → Bool}

theorem mem_filter_rows (h : Represents db J) (hn : db.notes = some notes) :
    row ∈ notes.rows.filter p ↔ row ∈ ((Notebook.notes J).filter fun e => p (noteRow e)).map noteRow := by
  rw [List.mem_filter, h.mem_notes hn, List.mem_map]
  constructor
  · rintro ⟨⟨e, he, rfl⟩, hp⟩
    exact ⟨e, List.mem_filter.2 ⟨Journal.mem_current.2 he, hp⟩, rfl⟩
  · rintro ⟨e, he, rfl⟩
    obtain ⟨he, hp⟩ := List.mem_filter.1 he
    exact ⟨⟨e, Journal.mem_current.1 he, rfl⟩, hp⟩

/-- The selected rows of the table, in the order of their revisions, are those of the journal. -/
theorem eq_map_noteRow (h : Represents db J) (hn : db.notes = some notes) {rows : List NoteRow}
    (hperm : rows.Perm (notes.rows.filter p)) (hsorted : rows.Pairwise fun a b => a.revision ≤ b.revision) :
    rows = ((Notebook.notes J).filter fun e => p (noteRow e)).map noteRow := by
  refine List.eq_of_ascending (fun row => (hperm.mem_iff).trans (h.mem_filter_rows hn))
    (hperm.nodup_iff.2 ((List.Nodup.of_map _ notes.nodup).filter _)) hsorted ?_
  exact List.pairwise_map.2 ((Journal.current_pairwise.filter _).imp fun hlt => Int.ofNat_lt.2 hlt)

theorem rowsSince_eq (h : Represents db J) (hn : db.notes = some notes) (since : Nat) :
    rowsSince notes since = ((Notebook.notes J).filter fun e => since < e.1).map noteRow := by
  have hsorted : (rowsSince notes since).Pairwise fun a b => a.revision ≤ b.revision :=
    List.pairwise_insertionSort _ _
  have hperm : (rowsSince notes since).Perm (notes.rows.filter fun row => (since : Int) < row.revision) :=
    List.perm_insertionSort _ _
  rw [h.eq_map_noteRow hn hperm hsorted]
  simp

theorem length_filter_rows (h : Represents db J) (hn : db.notes = some notes) :
    (notes.rows.filter p).length = ((Notebook.notes J).filter fun e => p (noteRow e)).length := by
  have hperm := List.perm_insertionSort (fun a b : NoteRow => a.revision ≤ b.revision) (notes.rows.filter p)
  rw [← hperm.length_eq, h.eq_map_noteRow hn hperm (List.pairwise_insertionSort _ _), List.length_map]

/-- The rows of a list, newest first. -/
theorem query_rows_eq (h : Represents db J) (hn : db.notes = some notes) (query : NoteListQuery) :
    query.rows notes = (Notebook.selected J query).map noteRow := by
  have hsorted : (query.rows notes).Pairwise fun a b => b.revision ≤ a.revision := by
    have htotal : Std.Total noteListOrder := ⟨noteListOrder_total⟩
    have htrans : IsTrans NoteRow noteListOrder := ⟨fun _ _ _ => noteListOrder_trans⟩
    exact (List.pairwise_insertionSort noteListOrder _).imp fun hab => by unfold noteListOrder at hab; omega
  have hperm : (query.rows notes).reverse.Perm (notes.rows.filter query.selects) :=
    (List.reverse_perm _).trans (List.perm_insertionSort _ _)
  rw [Notebook.selected, List.map_reverse, ← h.eq_map_noteRow hn hperm (List.pairwise_reverse.2 hsorted),
    List.reverse_reverse]

theorem perm_rows (h : Represents db J) (hn : db.notes = some notes) :
    notes.rows.Perm ((Notebook.notes J).map noteRow) := by
  have hnodup : ((Notebook.notes J).map noteRow).Nodup :=
    (List.pairwise_map.2 (Journal.current_pairwise.imp fun hlt => ne_of_apply_ne NoteRow.revision
      (Int.ofNat_lt.2 hlt).ne))
  refine (List.perm_ext_iff_of_nodup (List.Nodup.of_map _ notes.nodup) hnodup).2 fun row => ?_
  have hmem : row ∈ notes.rows.filter (fun _ => true) ↔
      row ∈ ((Notebook.notes J).filter fun _ => true).map noteRow := h.mem_filter_rows hn
  simpa using hmem

theorem noteList_refused (h : Represents db J) {query : NoteListQuery} (hne : J.entries ≠ [])
    (hfits : ¬ query.PatternFits) : (noteList db query : Except StoreError (NoteListPage τ)) =
      .error (.database (.sqliteFailure "LIKE or GLOB pattern too complex")) := by
  obtain ⟨notes, snapshots, rfl⟩ := h.tables
  have hnot : ¬ (notes.rows = [] ∨ query.PatternFits) := not_or.2 ⟨mt (h.rows_eq_nil rfl).1 hne, hfits⟩
  show Except.ensure _ _ >>= _ = _
  rw [Except.ensure, if_neg hnot]
  rfl

theorem exists_overview (h : Represents db J) :
    ∃ o : AdminOverview τ, overview db = .ok o ∧ Notebook.Counts J o := by
  obtain ⟨notes, snapshots, rfl⟩ := h.tables
  have hlt := h.head_lt
  have hi : I64 (maxRevision notes.rows) := by
    rw [h.maxRevision_eq rfl]
    unfold I64
    omega
  have hhead : asU64 (maxRevision notes.rows) = J.head := by
    rw [h.maxRevision_eq rfl]
    exact asU64_natCast (by omega)
  obtain ⟨latestSnapshotAt, hlatest⟩ : ∃ t : Option τ,
      (snapshots.rows.map SnapshotRow.capturedAt).max?.mapM parseDbTime = .ok t := by
    cases hmax : (snapshots.rows.map SnapshotRow.capturedAt).max? with
    | none => exact ⟨none, rfl⟩
    | some value =>
      obtain ⟨row, hrow, rfl⟩ := List.mem_map.1 (List.max?_mem hmax)
      obtain ⟨t, ht⟩ := h.captured snapshots rfl row hrow
      exact ⟨some t, by simp [parseDbTime, ht, Except.okOr]⟩
  have hperm := h.perm_rows rfl
  refine ⟨⟨J.head, notes.rows.length, (notes.rows.filter fun row => row.change.deletedAt.isSome).length,
    categoryCount notes.rows, latestSnapshotAt⟩, ?_, rfl, ?_, ?_, ?_⟩
  · simp only [overview, Except.bind_eq_ok, Database.selectNotes_eq_ok, Database.selectSnapshots_eq_ok, getI64_eq_ok]
    exact ⟨notes, rfl, _, ⟨hi, rfl⟩, snapshots, rfl, _, hlatest, by rw [hhead]; rfl⟩
  · rw [hperm.length_eq, List.length_map]
  · rw [h.length_filter_rows rfl]
    simp [noteRow, ChangeRow.ofChange]
  · have hcategories := (hperm.map NoteRow.displayCategory).filter (· ≠ "")
    rw [categoryCount, (List.Perm.dedup hcategories).length_eq, List.map_map]
    rfl

section Lawful

variable [LawfulChrono τ]

theorem record_noteRow (h : Represents db J) {e : Nat × SyncChange τ} (he : e ∈ J.entries) :
    (noteRow e).record = some (entryRecord e) := by
  have hlt := h.revision_lt he
  have hrevision : asU64 (noteRow e).revision = e.1 := asU64_natCast (by omega)
  refine NoteRow.record_eq_some.2 ⟨?_, h.decode he, hrevision⟩
  rw [noteRow_revision]
  unfold I64
  omega

theorem changesSince_eq (h : Represents db J) {since : Nat} (hsince : since < 2 ^ 63) :
    changesSince db since = .ok (Notebook.changesSince J since) := by
  obtain ⟨notes, snapshots, rfl⟩ := h.tables
  refine changesSince_eq_ok.2 ⟨notes, rfl, hsince, ?_, h.currentRevision_eq⟩
  rw [h.rowsSince_eq rfl]
  dsimp only [Notebook.changesSince]
  rw [List.map_map, List.map_map]
  refine List.map_congr_left fun e he => ?_
  obtain ⟨he, -⟩ := List.mem_filter.1 he
  rw [Function.comp_apply, h.record_noteRow (Notebook.mem_entries he), Function.comp_apply]

theorem noteDetail_eq (h : Represents db J) (id : String) : noteDetail db id = .ok (Notebook.detail J id) := by
  obtain ⟨notes, snapshots, rfl⟩ := h.tables
  refine noteDetail_eq_ok.2 ⟨notes, rfl, ?_⟩
  rw [h.lookup notes rfl, Notebook.detail]
  cases he : J.latest SyncChange.id id with
  | none => rfl
  | some e =>
    have hmem := (Journal.latest_spec he).1
    obtain ⟨hi, -, hrevision⟩ := NoteRow.record_eq_some.1 (h.record_noteRow hmem)
    exact ⟨e.2, h.decode hmem, hi, by rw [hrevision]; rfl⟩

theorem item_noteRow (h : Represents db J) {e : Nat × SyncChange τ} (he : e ∈ J.entries) :
    (noteRow e).item = some (itemOf e.2 e.1) := by
  obtain ⟨hi, -, hrevision⟩ := NoteRow.record_eq_some.1 (h.record_noteRow he)
  have hrange := h.inRange e he
  have hupdated : (parseFromRfc3339 (noteRow e).change.updatedAt : Option τ) = some e.2.updatedAt :=
    LawfulChrono.parse_toRfc3339 _ hrange.updatedAt
  have hdeleted : (noteRow e).change.deletedAt.mapM (parseFromRfc3339 (τ := τ)) = some e.2.deletedAt := by
    show (e.2.deletedAt.map toRfc3339).mapM (parseFromRfc3339 (τ := τ)) = _
    cases hd : e.2.deletedAt with
    | none => rfl
    | some t => simp [LawfulChrono.parse_toRfc3339 t (hrange.deletedAt t hd)]
  simp only [NoteRow.item, hupdated, hdeleted, Option.bind_eq_bind, Option.bind_some, if_pos hi, hrevision]
  rfl

theorem noteList_eq (h : Represents db J) {query : NoteListQuery}
    (hfits : J.entries = [] ∨ query.PatternFits) : noteList db query = .ok (Notebook.page J query) := by
  obtain ⟨notes, snapshots, rfl⟩ := h.tables
  refine noteList_eq_ok.2 ⟨notes, rfl, hfits.imp_left (h.rows_eq_nil rfl).2, rfl, rfl, ?_, ?_⟩
  · rw [h.length_filter_rows rfl]
    show (Notebook.selected J query).length = _
    rw [Notebook.selected, List.length_reverse]
  · rw [h.query_rows_eq rfl, ← List.map_drop, ← List.map_take, List.map_map]
    show _ = List.map some (List.map _ _)
    rw [List.map_map]
    refine List.map_congr_left fun e he => ?_
    have hselected := List.mem_of_mem_drop (List.mem_of_mem_take he)
    exact h.item_noteRow (Notebook.mem_entries (Notebook.mem_selected.1 hselected).1)

end Lawful
end Represents

/-! ### The reads agree -/

/-- What a list shows of a note. -/
def NoteDetail.toItem (d : NoteDetail τ) : NoteListItem τ where
  id := d.id
  title := d.title
  category := d.category
  updatedAt := d.updatedAt
  deletedAt := d.deletedAt
  deviceId := d.deviceId
  revision := d.revision

/-- A list of all notes, or of those that are active or deleted. -/
def NoteListQuery.ofState (state : NoteStateFilter) : NoteListQuery := { NoteListQuery.default with state }

variable (τ) in
/-- The reads of the sync API and of the admin API describe the same notes. A list whose search has too long a
pattern is refused. -/
structure ViewsAgree (db : Database) : Prop where
  polled : ∃ response : ChangesResponse τ, changesSince db 0 = .ok response ∧
    ∀ id, noteDetail db id =
      .ok ((response.changes.find? (·.note.id = id)).map fun c => detailOf c.note c.revision)
  history : ∀ id, ∃ history : List (NoteSnapshot τ), noteHistory db id = .ok history ∧
    noteDetail db id = .ok (history.head?.map NoteSnapshot.toDetail)
  listed : ∀ query : NoteListQuery, query.PatternFits → ∃ page : NoteListPage τ, noteList db query = .ok page ∧
    ∀ item ∈ page.notes, ∃ d : NoteDetail τ, noteDetail db item.id = .ok (some d) ∧ d.toItem = item
  counted : ∃ (overview : AdminOverview τ) (response : ChangesResponse τ) (all active deleted : NoteListPage τ),
    FloralSync.overview db = .ok overview ∧ changesSince db 0 = .ok response ∧
    noteList db (.ofState .all) = .ok all ∧ noteList db (.ofState .active) = .ok active ∧
    noteList db (.ofState .deleted) = .ok deleted ∧ overview.latestRevision = response.revision ∧
    overview.noteCount = response.changes.length ∧ overview.noteCount = all.total ∧
    overview.deletedNoteCount = deleted.total ∧ overview.noteCount = active.total + deleted.total

section Agree

variable {db : Database} {J : Journal (SyncChange τ)}

namespace Notebook

omit [Chrono τ] in
/-- Every note is above the cursor 0. -/
theorem filter_notes_zero : (notes J).filter (fun e => 0 < e.1) = notes J :=
  List.filter_eq_self.2 fun e he => by simpa using J.positive e (mem_entries he)

omit [Chrono τ] in
theorem find?_changes (id : String) :
    (changesSince J 0).changes.find? (·.note.id = id) = (J.latest SyncChange.id id).map entryRecord := by
  have hfind : (notes J).find? (fun e => e.2.id = id) = J.latest SyncChange.id id := by
    cases he : J.latest SyncChange.id id with
    | none =>
      refine List.find?_eq_none.2 fun e hmem hid => ?_
      rw [← of_decide_eq_true hid, Journal.mem_current.1 hmem] at he
      cases he
    | some e =>
      have hid : e.2.id = id := (Journal.latest_spec he).2.1
      have hmem : e ∈ notes J := Journal.mem_current.2 (hid ▸ he)
      obtain ⟨e', he'⟩ := Option.isSome_iff_exists.1
        (List.find?_isSome.2 ⟨e, hmem, decide_eq_true hid⟩ : ((notes J).find? fun e => e.2.id = id).isSome)
      have hid' : e'.2.id = id := by simpa using List.find?_some he'
      have hlatest := Journal.mem_current.1 (List.mem_of_find?_eq_some he')
      rw [he', ← he, ← hid', hlatest]
  rw [changesSince, filter_notes_zero, List.find?_map, ← hfind]
  rfl

theorem selected_ofState (state : NoteStateFilter) :
    (selected J (.ofState state)).length = ((notes J).filter fun e => match state with
      | .all => true
      | .active => e.2.deletedAt.isNone
      | .deleted => e.2.deletedAt.isSome).length := by
  rw [selected, List.length_reverse]
  congr 2
  funext e
  cases state <;> simp [NoteListQuery.selects, NoteListQuery.ofState, NoteListQuery.default, noteListWhere,
    normalizeOptional, NoteStateFilter.sqlValue, noteRow, ChangeRow.ofChange]

end Notebook

variable [LawfulChrono τ]

theorem Represents.viewsAgree (h : Represents db J) : ViewsAgree τ db where
  polled := by
    refine ⟨_, h.changesSince_eq (by decide), fun id => ?_⟩
    rw [h.noteDetail_eq, Notebook.find?_changes, Option.map_map]
    rfl
  history := by
    obtain ⟨notes, snapshots, rfl⟩ := h.tables
    intro id
    obtain ⟨history, hhistory, -, hdetail⟩ := h.exists_noteHistory id
    exact ⟨history, hhistory, hdetail⟩
  listed := by
    intro query hfits
    refine ⟨_, h.noteList_eq (.inr hfits), fun item hitem => ?_⟩
    obtain ⟨e, he, rfl⟩ := List.mem_map.1 hitem
    have hselected := List.mem_of_mem_drop (List.mem_of_mem_take he)
    have hlatest := Journal.mem_current.1 (Notebook.mem_selected.1 hselected).1
    refine ⟨detailOf e.2 e.1, ?_, rfl⟩
    show noteDetail db e.2.id = _
    rw [h.noteDetail_eq, Notebook.detail, hlatest]
    rfl
  counted := by
    obtain ⟨o, ho, hcounts⟩ := h.exists_overview
    have htotal : ∀ state, (Notebook.page J (.ofState state)).total = (Notebook.selected J (.ofState state)).length :=
      fun _ => rfl
    have hlist : ∀ state, noteList db (.ofState state) = .ok (Notebook.page J (.ofState state)) := fun _ =>
      h.noteList_eq (.inr nofun)
    refine ⟨o, _, _, _, _, ho, h.changesSince_eq (by decide), hlist _, hlist _, hlist _, hcounts.latestRevision,
      ?_, ?_, ?_, ?_⟩
    · rw [hcounts.noteCount, Notebook.changesSince, Notebook.filter_notes_zero, List.length_map]
    · rw [hcounts.noteCount, htotal, Notebook.selected_ofState, List.filter_true]
    · rw [hcounts.deletedNoteCount, htotal, Notebook.selected_ofState]
    · have hsplit := List.length_eq_length_filter_add (l := Notebook.notes J) fun e => e.2.deletedAt.isNone
      rw [hcounts.noteCount, htotal, htotal, Notebook.selected_ofState, Notebook.selected_ofState, hsplit]
      simp only [Option.not_isNone]

theorem reachable_viewsAgree {s : SyncStore} (h : Reachable τ s) : ViewsAgree τ s.db := by
  obtain ⟨J, hJ⟩ := h.represents
  exact hJ.viewsAgree

end Agree

theorem viewsAgree_twoVersions : ViewsAgree Rfc3339.Civil Sample.twoVersionsStore.db :=
  reachable_viewsAgree Sample.reachable_twoVersions

end FloralSync

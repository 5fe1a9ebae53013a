import FloralSync.Paging
import FloralSync.Store.Queries
import FloralSync.Wildcard

/-!
# Listing notes (`admin_store.rs`)

`noteList` counts the rows that the filters select, and reads those of one page. `noteList_eq_ok` says when it
succeeds; the rows are read one by one, so a page with a row that cannot be read fails.
-/

namespace FloralSync

structure AdminOverview (τ : Type) where
  latestRevision : Nat
  noteCount : Nat
  deletedNoteCount : Nat
  categoryCount : Nat
  latestSnapshotAt : Option τ
deriving DecidableEq

inductive NoteStateFilter
  | all
  | active
  | deleted
deriving DecidableEq

def NoteStateFilter.sqlValue : NoteStateFilter → String
  | .all => "all"
  | .active => "active"
  | .deleted => "deleted"

structure NoteListQuery where
  page : Nat
  pageSize : Nat
  search : Option String
  category : Option String
  state : NoteStateFilter
deriving DecidableEq

/-- `NoteListQuery::default` -/
def NoteListQuery.default : NoteListQuery := ⟨1, 50, none, none, .all⟩

structure NoteListItem (τ : Type) where
  id : String
  title : String
  category : String
  updatedAt : τ
  deletedAt : Option τ
  deviceId : String
  revision : Nat
deriving DecidableEq

structure NoteListPage (τ : Type) where
  page : Nat
  pageSize : Nat
  total : Nat
  notes : List (NoteListItem τ)
deriving DecidableEq

variable {τ : Type} [Chrono τ]

/-- `TRIM(category)` -/
def NoteRow.displayCategory (row : NoteRow) : String := sqliteTrim row.change.category

/-- `COUNT(DISTINCT NULLIF(TRIM(category), ''))` -/
def categoryCount (rows : List NoteRow) : Nat := ((rows.map NoteRow.displayCategory).filter (· ≠ "")).dedup.length

/-- `parse_db_time` -/
def parseDbTime (value : String) : Except StoreError τ := Except.okOr (parseFromRfc3339 value) .time

def overview (db : Database) : Except StoreError (AdminOverview τ) := do
  let notes ← db.selectNotes
  let latestRevision ← getI64 0 (maxRevision notes.rows)
  let snapshots ← db.selectSnapshots
  let latestSnapshotAt ← (snapshots.rows.map SnapshotRow.capturedAt).max?.mapM parseDbTime
  return { latestRevision := asU64 latestRevision
           noteCount := notes.rows.length
           deletedNoteCount := (notes.rows.filter fun row => row.change.deletedAt.isSome).length
           categoryCount := categoryCount notes.rows
           latestSnapshotAt }

def normalizeOptional (value : Option String) : Option String :=
  value.bind fun value => if trim value = "" then none else some (trim value)

/-- The wildcards of `LIKE`. -/
def likeToken (c : Char) : Wildcard.Token Char :=
  if c = '%' then .any else if c = '_' then .one else .elem c

/-- What SQLite reads of a text that it takes for a C string. -/
def untilNul (s : String) : String := String.ofList (s.toList.takeWhile (· ≠ Char.ofNat 0))

/-- SQLite's `text LIKE pattern`, which folds the case of ASCII letters. Both end at their first NUL. -/
def like (text pattern : String) : Bool :=
  Wildcard.accepts (fun a b => a.toLower = b.toLower) ((untilNul pattern).toList.map likeToken) (untilNul text).toList

/-- `SQLITE_MAX_LIKE_PATTERN_LENGTH`, in bytes. -/
def maxLikePatternLength : Nat := 50000

/-- `format!("%{value}%")` -/
def likePattern (value : String) : String := "%" ++ value ++ "%"

/-- The `WHERE` clause of both statements of `note_list`. -/
def noteListWhere (search category : Option String) (state : String) (row : NoteRow) : Bool :=
  (match search with
    | none => true
    | some value => like row.change.title (likePattern value) || like row.change.content (likePattern value)) &&
  (match category with
    | none => true
    | some value => row.displayCategory = value) &&
  (state = "all" || state = "active" && row.change.deletedAt.isNone ||
    state = "deleted" && row.change.deletedAt.isSome)

/-- `ORDER BY revision DESC, updated_at DESC, id ASC` -/
def noteListOrder (a b : NoteRow) : Prop :=
  b.revision < a.revision ∨ b.revision = a.revision ∧ (b.change.updatedAt < a.change.updatedAt ∨
    b.change.updatedAt = a.change.updatedAt ∧ a.id ≤ b.id)

instance : DecidableRel noteListOrder := fun _ _ => inferInstanceAs (Decidable (_ ∨ _))

namespace NoteListQuery

variable (query : NoteListQuery)

def selects (row : NoteRow) : Bool :=
  noteListWhere (normalizeOptional query.search) (normalizeOptional query.category) query.state.sqlValue row

/-- `LIKE` takes the pattern of the search. -/
def PatternFits : Prop :=
  ∀ value ∈ normalizeOptional query.search, (likePattern value).utf8ByteSize ≤ maxLikePatternLength

instance : Decidable query.PatternFits :=
  inferInstanceAs (Decidable (∀ value ∈ normalizeOptional query.search,
    (likePattern value).utf8ByteSize ≤ maxLikePatternLength))

/-- The rows of all pages. -/
def rows (notes : NotesTable) : List NoteRow := (notes.rows.filter query.selects).insertionSort noteListOrder

/-- `query.page.max(1)` -/
def pageNumber : Nat := max query.page 1

/-- `query.page_size.clamp(1, 200)` -/
def limit : Nat := min (max query.pageSize 1) 200

def offset : Nat := min (saturatingMul (query.pageNumber - 1) query.limit) (2 ^ 63 - 1)

end NoteListQuery

def NoteRow.toNoteListItem (row : NoteRow) : Except StoreError (NoteListItem τ) := do
  let updatedAt ← parseRowTime row.change.updatedAt 3
  let deletedAt ← row.change.deletedAt.mapM fun value => parseRowTime value 4
  let revision ← getI64 6 row.revision
  return { id := row.id, title := row.change.title, category := row.displayCategory, updatedAt, deletedAt,
           deviceId := row.change.deviceId, revision := asU64 revision }

def noteList (db : Database) (query : NoteListQuery) : Except StoreError (NoteListPage τ) := do
  let notes ← db.selectNotes
  -- `LIKE` is evaluated, and refuses its pattern, once there is a row
  Except.ensure (notes.rows = [] ∨ query.PatternFits) (.database (.sqliteFailure "LIKE or GLOB pattern too complex"))
  let total := (notes.rows.filter query.selects).length
  let items ← (((query.rows notes).drop query.offset).take query.limit).mapM NoteRow.toNoteListItem
  return { page := query.pageNumber, pageSize := query.limit, total, notes := items }

/-! ### When it succeeds -/

/-- The item of a row, if its timestamps parse. -/
def NoteRow.item (row : NoteRow) : Option (NoteListItem τ) := do
  let updatedAt ← parseFromRfc3339 row.change.updatedAt
  let deletedAt ← row.change.deletedAt.mapM parseFromRfc3339
  if I64 row.revision then
    some { id := row.id, title := row.change.title, category := row.displayCategory, updatedAt, deletedAt,
           deviceId := row.change.deviceId, revision := asU64 row.revision }
  else none

variable (τ) in
/-- The timestamps of a row that the list reads can be read. -/
structure NoteRow.Listable (row : NoteRow) : Prop where
  updatedAt : ∃ t : τ, parseFromRfc3339 row.change.updatedAt = some t
  deletedAt : ∀ value ∈ row.change.deletedAt, ∃ t : τ, parseFromRfc3339 value = some t

section Items

variable {row : NoteRow} {item : NoteListItem τ} {db : Database} {notes : NotesTable} {query : NoteListQuery}
  {page : NoteListPage τ}

theorem mem_rows : row ∈ query.rows notes ↔ row ∈ notes.rows ∧ query.selects row = true := by
  simp [NoteListQuery.rows]

theorem mapM_parseRowTime_eq_ok {value : Option String} {column : Nat} {t : Option τ} :
    value.mapM (fun value => parseRowTime (τ := τ) value column) = .ok t ↔ value.mapM parseFromRfc3339 = some t := by
  cases value with
  | none => exact ⟨fun h => congrArg some (Except.ok.inj h), fun h => congrArg _ (Option.some.inj h)⟩
  | some value =>
    simp only [Option.mapM_some, parseRowTime]
    cases (parseFromRfc3339 value : Option τ) with
    | none => exact iff_of_false nofun nofun
    | some _ => exact ⟨fun h => congrArg some (Except.ok.inj h), fun h => congrArg _ (Option.some.inj h)⟩

theorem NoteRow.toNoteListItem_eq_ok : row.toNoteListItem = .ok item ↔ row.item = some item := by
  simp only [toNoteListItem, NoteRow.item, Except.bind_eq_ok, parseRowTime_eq_ok, mapM_parseRowTime_eq_ok, getI64_eq_ok,
    Option.bind_eq_bind, Option.bind_eq_some_iff]
  refine exists_congr fun updatedAt => and_congr_right fun _ => exists_congr fun deletedAt => and_congr_right fun _ => ?_
  split_ifs with hi
  · constructor
    · rintro ⟨_, ⟨-, rfl⟩, h⟩
      exact congrArg some (Except.ok.inj h)
    · intro h
      exact ⟨_, ⟨hi, rfl⟩, congrArg _ (Option.some.inj h)⟩
  · exact iff_of_false (fun ⟨_, h, _⟩ => hi h.1) nofun

theorem NoteRow.exists_item :
    (∃ item : NoteListItem τ, row.item = some item) ↔ I64 row.revision ∧ row.Listable τ := by
  simp only [NoteRow.item, Option.bind_eq_bind, Option.bind_eq_some_iff]
  constructor
  · rintro ⟨_, updatedAt, hupdated, deletedAt, hdeleted, h⟩
    split_ifs at h with hi
    refine ⟨hi, ⟨updatedAt, hupdated⟩, fun value hvalue => ?_⟩
    rw [Option.mem_def.1 hvalue, Option.mapM_some] at hdeleted
    obtain ⟨t, ht, -⟩ := Option.map_eq_some_iff.1 hdeleted
    exact ⟨t, ht⟩
  · rintro ⟨hi, ⟨updatedAt, hupdated⟩, hdeleted⟩
    simp only [if_pos hi]
    cases hvalue : row.change.deletedAt with
    | none => exact ⟨_, updatedAt, hupdated, none, rfl, rfl⟩
    | some value =>
      obtain ⟨t, ht⟩ := hdeleted value hvalue
      exact ⟨_, updatedAt, hupdated, some t, by rw [Option.mapM_some, ht]; rfl, rfl⟩

theorem NoteRow.of_item (h : row.item = some item) :
    item.id = row.id ∧ item.category = row.displayCategory ∧ item.revision = asU64 row.revision := by
  simp only [NoteRow.item, Option.bind_eq_bind, Option.bind_eq_some_iff] at h
  obtain ⟨_, -, _, -, h⟩ := h
  split_ifs at h
  obtain rfl := Option.some.inj h
  exact ⟨rfl, rfl, rfl⟩

theorem noteList_eq_ok : noteList db query = .ok page ↔ ∃ notes, db.notes = some notes ∧
    (notes.rows = [] ∨ query.PatternFits) ∧ page.page = query.pageNumber ∧ page.pageSize = query.limit ∧
    page.total = (notes.rows.filter query.selects).length ∧
    (((query.rows notes).drop query.offset).take query.limit).map NoteRow.item = page.notes.map some := by
  obtain ⟨number, size, total, items⟩ := page
  simp only [noteList, Except.bind_eq_ok, Database.selectNotes_eq_ok, Except.ensure_eq_ok, Except.mapM_eq_ok,
    NoteRow.toNoteListItem_eq_ok, List.forall₂_map_eq_iff]
  refine exists_congr fun notes => and_congr_right fun _ => ?_
  constructor
  · rintro ⟨_, hfits, items', hitems, h⟩
    obtain ⟨rfl, rfl, rfl, rfl⟩ := NoteListPage.mk.inj (Except.ok.inj h)
    exact ⟨hfits, rfl, rfl, rfl, hitems⟩
  · rintro ⟨hfits, rfl, rfl, rfl, hitems⟩
    exact ⟨(), hfits, items, hitems, rfl⟩

end Items
end FloralSync

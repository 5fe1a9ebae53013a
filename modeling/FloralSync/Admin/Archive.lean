import FloralSync.Admin.Downloads

/-!
# The archive of the selected notes (`admin_api.rs`, `lib/api.ts`)

The page joins the selected ids with commas, and the server splits them again; both trim, each what its language
takes for white space. The selection arrives as it is if and only if no id has a comma or anything to trim
(`archive_of_selection_iff`).
-/

namespace FloralSync

open Except
open Rfc3339 (Civil yearText pad isDigit_of_mem_pad)

variable {τ : Type} [Chrono τ]

structure NoteArchiveQuery where
  id : List String
  ids : Option String

/-- The white space of `String.prototype.trim`. -/
def isJsWhitespace (c : Char) : Bool := isWhitespace c && c.toNat ≠ 0x85 || c.toNat = 0xFEFF

/-- `String.prototype.trim` -/
def jsTrim : String → String := trimBy isJsWhitespace

/-- What the page asks for in `downloadNotesArchive`. -/
def archiveQuery (ids : List String) : NoteArchiveQuery :=
  let normalizedIds := (ids.map jsTrim).filter (· ≠ "")
  { id := [], ids := if normalizedIds ≠ [] then some (",".intercalate normalizedIds) else none }

/-- One round of the loop of `normalize_archive_note_ids`, on `seen` and `normalized`. -/
def addNoteId : Finset String × List String → String → Finset String × List String
  | (seen, normalized), noteId =>
    let trimmed := trim noteId
    if trimmed = "" then (seen, normalized)
    else if trimmed ∈ seen then (seen, normalized)
    else (insert trimmed seen, normalized ++ [trimmed])

def normalizeArchiveNoteIds (query : NoteArchiveQuery) : List String :=
  let rawIds := match query.ids with
    | some ids => query.id ++ split ',' ids
    | none => query.id
  (rawIds.foldl addNoteId (∅, [])).2

variable (τ) in
def notesArchiveDownload {ω ζ : Type} (zip : Zip ω ζ) (valid : Char → Bool) (crates : Crates) (now : Instant)
    (clock : Civil) (headers : HeaderMap) (config : ServerConfig) (db : Database) (query : NoteArchiveQuery) :
    Except ApiError (FileReply ζ) := do
  let _ ← requireSession crates now headers config
  let noteIds := normalizeArchiveNoteIds query
  ensure (noteIds ≠ []) (.badRequest "select at least one note to download")
  let downloads ← noteIds.mapM fun noteId => do
    let found ← (markdownDownload τ db noteId).mapError .store
    okOr found (.notFound ("note " ++ noteId ++ " not found"))
  let archive ← buildNotesArchive zip clock downloads
  let disposition ← contentDisposition valid archive.fileName
  return { contentType := "application/zip", contentDisposition := disposition, body := archive.bytes }

/-! ### The round trip -/

section RoundTrip

variable {ids raw acc : List String} {seen : Finset String} {s : String}

/-- The ids in a raw list: trimmed, and not blank. -/
def trimmedIds (raw : List String) : List String := (raw.map trim).filter (· ≠ "")

theorem foldl_addNoteId_sublist (raw : List String) (seen : Finset String) (acc : List String) :
    ∃ kept, (raw.foldl addNoteId (seen, acc)).2 = acc ++ kept ∧ kept.Sublist (trimmedIds raw) := by
  induction raw generalizing seen acc with
  | nil => exact ⟨[], by simp, List.Sublist.refl _⟩
  | cons id raw ih =>
    rw [List.foldl_cons, addNoteId]
    by_cases hblank : trim id = ""
    · obtain ⟨kept, heq, hsub⟩ := ih seen acc
      exact ⟨kept, by simp [hblank, heq], by simpa [trimmedIds, hblank] using hsub⟩
    have htrimmed : trimmedIds (id :: raw) = trim id :: trimmedIds raw := by simp [trimmedIds, hblank]
    by_cases hseen : trim id ∈ seen
    · obtain ⟨kept, heq, hsub⟩ := ih seen acc
      exact ⟨kept, by simp [hblank, hseen, heq], htrimmed ▸ hsub.cons _⟩
    · obtain ⟨kept, heq, hsub⟩ := ih (insert (trim id) seen) (acc ++ [trim id])
      exact ⟨trim id :: kept, by simp [hblank, hseen, heq], htrimmed ▸ hsub.cons_cons _⟩

theorem foldl_addNoteId_of_nodup (hnodup : (trimmedIds raw).Nodup) (hseen : ∀ id ∈ trimmedIds raw, id ∉ seen) :
    (raw.foldl addNoteId (seen, acc)).2 = acc ++ trimmedIds raw := by
  induction raw generalizing seen acc with
  | nil => simp [trimmedIds]
  | cons id raw ih =>
    rw [List.foldl_cons, addNoteId]
    by_cases hblank : trim id = ""
    · have htrimmed : trimmedIds (id :: raw) = trimmedIds raw := by simp [trimmedIds, hblank]
      rw [htrimmed] at hnodup hseen ⊢
      simpa [hblank] using ih hnodup hseen
    · have htrimmed : trimmedIds (id :: raw) = trim id :: trimmedIds raw := by simp [trimmedIds, hblank]
      rw [htrimmed] at hnodup hseen ⊢
      obtain ⟨hnotin, hnodup⟩ := List.nodup_cons.1 hnodup
      have hnew := hseen _ (List.mem_cons_self ..)
      have hrest : ∀ other ∈ trimmedIds raw, other ∉ insert (trim id) seen := by
        intro other hother
        rw [Finset.mem_insert, not_or]
        exact ⟨fun heq => hnotin (heq ▸ hother), hseen _ (List.mem_cons_of_mem _ hother)⟩
      simpa [hblank, hnew] using @ih (acc ++ [trim id]) (insert (trim id) seen) hnodup hrest

theorem split_intercalate {parts : List String} (hne : parts ≠ []) (h : ∀ s ∈ parts, ',' ∉ s.toList) :
    split ',' (",".intercalate parts) = parts := by
  have hcomma : ∀ l ∈ parts.map String.toList, ',' ∉ l := by simpa using h
  have hchars : (",".intercalate parts).toList = [','].intercalate (parts.map String.toList) :=
    String.toList_intercalate
  rw [split, hchars, List.splitOn_intercalate _ hcomma (by simpa using hne)]
  simp

/-- Neither side trims the id, and it has no comma. -/
structure Unchanged (id : String) : Prop where
  no_comma : ',' ∉ id.toList
  js : jsTrim id = id
  rust : trim id = id
  not_blank : id ≠ ""

theorem Unchanged.of_trims (h : trim (jsTrim s) = s) (hcomma : ',' ∉ s.toList) (hne : s ≠ "") : Unchanged s := by
  have hrust : trim s = s := by rw [← h, trim_trim]
  have hjs : s.toList <:+: (jsTrim s).toList := by
    have hinfix : (trim (jsTrim s)).toList <:+: (jsTrim s).toList := trimBy_isInfix _ _
    rwa [h] at hinfix
  have hlength : (jsTrim s).toList.length = s.toList.length :=
    Nat.le_antisymm (trimBy_isInfix _ _).length_le hjs.length_le
  exact ⟨hcomma, String.toList_inj.1 ((trimBy_isInfix _ _).eq_of_length hlength), hrust, hne⟩

theorem mem_normalizeArchiveNoteIds {joined : String} (h : s ∈ normalizeArchiveNoteIds ⟨[], some joined⟩) :
    ',' ∉ s.toList ∧ s ≠ "" := by
  obtain ⟨kept, heq, hsub⟩ := foldl_addNoteId_sublist (split ',' joined) ∅ []
  rw [normalizeArchiveNoteIds] at h
  dsimp only at h
  rw [List.nil_append, heq, List.nil_append] at h
  obtain ⟨hmem, hne⟩ := List.mem_filter.1 (hsub.subset h)
  obtain ⟨piece, hpiece, rfl⟩ := List.mem_map.1 hmem
  obtain ⟨chars, hchars, rfl⟩ := List.mem_map.1 hpiece
  refine ⟨fun hc => ?_, of_decide_eq_true hne⟩
  have hcomma := (trimBy_isInfix _ _).subset hc
  rw [String.toList_ofList] at hcomma
  exact Rust.PathBuf.notMem_of_mem_splitOn hchars hcomma

theorem normalize_archiveQuery (hsent : (ids.map jsTrim).filter (· ≠ "") ≠ [])
    (hcomma : ∀ sent ∈ (ids.map jsTrim).filter (· ≠ ""), ',' ∉ sent.toList) :
    normalizeArchiveNoteIds (archiveQuery ids) =
      (((ids.map jsTrim).filter (· ≠ "")).foldl addNoteId (∅, [])).2 := by
  rw [archiveQuery, if_pos hsent, normalizeArchiveNoteIds]
  dsimp only
  rw [List.nil_append, split_intercalate hsent hcomma]

theorem unchanged_of_normalize (hne : ids ≠ []) (h : normalizeArchiveNoteIds (archiveQuery ids) = ids) :
    ∀ id ∈ ids, Unchanged id := by
  have hsent : (ids.map jsTrim).filter (· ≠ "") ≠ [] := by
    intro hnil
    simp only [archiveQuery, hnil, ne_eq, not_true, if_false] at h
    exact hne h.symm
  have hclean : ∀ id ∈ ids, ',' ∉ id.toList ∧ id ≠ "" := by
    intro id hid
    rw [archiveQuery, if_pos hsent] at h
    exact mem_normalizeArchiveNoteIds (h.symm ▸ hid)
  have hcomma : ∀ sent ∈ (ids.map jsTrim).filter (· ≠ ""), ',' ∉ sent.toList := by
    intro sent hmem hc
    obtain ⟨id, hid, rfl⟩ := List.mem_map.1 (List.mem_filter.1 hmem).1
    exact (hclean id hid).1 ((trimBy_isInfix _ _).subset hc)
  obtain ⟨kept, heq, hsub⟩ := foldl_addNoteId_sublist ((ids.map jsTrim).filter (· ≠ "")) ∅ []
  rw [normalize_archiveQuery hsent hcomma, heq, List.nil_append] at h
  subst h
  -- as many ids are kept as were sent, so each is what both sides make of it
  have hall : kept.map (trim ∘ jsTrim) = kept.map id := by
    rw [List.map_id, ← List.map_map]
    exact List.eq_of_sublist_filter (by simp) (hsub.trans ((List.filter_sublist.map trim).filter _))
  intro s hs
  exact .of_trims (List.map_inj_left.1 hall s hs) (hclean s hs).1 (hclean s hs).2

theorem normalize_of_unchanged (hne : ids ≠ []) (hnodup : ids.Nodup) (h : ∀ id ∈ ids, Unchanged id) :
    normalizeArchiveNoteIds (archiveQuery ids) = ids := by
  have hself : ∀ f : String → String, (∀ id ∈ ids, f id = id) → (ids.map f).filter (· ≠ "") = ids := by
    intro f hf
    rw [List.map_congr_left hf, List.map_id', List.filter_eq_self]
    exact fun id hid => decide_eq_true (h id hid).not_blank
  have hjs : (ids.map jsTrim).filter (· ≠ "") = ids := hself jsTrim fun id hid => (h id hid).js
  have hrust : trimmedIds ids = ids := hself trim fun id hid => (h id hid).rust
  rw [normalize_archiveQuery (hjs.symm ▸ hne) (hjs.symm ▸ fun id hid => (h id hid).no_comma), hjs,
    foldl_addNoteId_of_nodup (hrust.symm ▸ hnodup) (by simp), hrust, List.nil_append]

/-- The selection arrives as it is if and only if nothing changes its ids. -/
theorem normalize_archiveQuery_iff (hne : ids ≠ []) (hnodup : ids.Nodup) :
    normalizeArchiveNoteIds (archiveQuery ids) = ids ↔ ∀ id ∈ ids, Unchanged id :=
  ⟨unchanged_of_normalize hne, normalize_of_unchanged hne hnodup⟩

end RoundTrip

section Write

variable {ω ζ : Type} {zip : Zip ω ζ} {used : Finset String} {downloads : List MarkdownDownload}

/-- Writing the entries, and finishing the archive. -/
def Zip.write (zip : Zip ω ζ) (entries : List (String × String)) : Except ApiError ζ := do
  let writer ← entries.foldlM (fun writer entry => zip.addFile writer entry.1 entry.2) zip.new
  (zip.finish writer).mapError .internal

/-- Entries with names of their own are written if and only if none has 4 GiB or more. -/
def Zip.Documented (zip : Zip ω ζ) : Prop := ∀ entries : List (String × String), (entries.map Prod.fst).Nodup →
  ((∃ archive, zip.write entries = .ok archive) ↔ ∀ entry ∈ entries, entry.2.utf8ByteSize < 2 ^ 32)

/-- The entries that are made of the downloads. -/
def archiveEntries (used : Finset String) : List MarkdownDownload → List (String × String)
  | [] => []
  | download :: downloads =>
    let name := uniqueArchiveFileName download.fileName used
    (name.1, download.markdown) :: archiveEntries name.2 downloads

theorem foldlM_addDownload (writer : ω) (used : Finset String) (downloads : List MarkdownDownload) :
    Prod.fst <$> downloads.foldlM (addDownload zip) (writer, used) =
      (archiveEntries used downloads).foldlM (fun writer entry => zip.addFile writer entry.1 entry.2) writer := by
  induction downloads generalizing writer used with
  | nil => rfl
  | cons download downloads ih =>
    rw [List.foldlM_cons, archiveEntries, List.foldlM_cons, addDownload]
    dsimp only
    cases zip.addFile writer (uniqueArchiveFileName download.fileName used).1 download.markdown with
    | error e => rfl
    | ok writer => exact ih writer _

theorem buildNotesArchive_eq_ok {clock : Civil} {archive : NotesArchive ζ} :
    buildNotesArchive zip clock downloads = .ok archive ↔
      zip.write (archiveEntries ∅ downloads) = .ok archive.bytes ∧ archive.fileName = archiveFileName clock := by
  rw [Zip.write, ← foldlM_addDownload]
  simp only [buildNotesArchive, bind_eq_ok, map_eq_ok]
  constructor
  · rintro ⟨⟨writer, used⟩, hwriter, bytes, hbytes, h⟩
    obtain rfl := Except.ok.inj h
    exact ⟨⟨writer, ⟨_, hwriter, rfl⟩, hbytes⟩, rfl⟩
  · rintro ⟨⟨writer, ⟨⟨_, used⟩, hwriter, rfl⟩, hbytes⟩, hname⟩
    exact ⟨_, hwriter, _, hbytes, by rw [← hname]; rfl⟩

/-- Every entry has a name of its own. -/
theorem archiveEntries_names (used : Finset String) (downloads : List MarkdownDownload) :
    ((archiveEntries used downloads).map Prod.fst).Nodup ∧
      ∀ name ∈ (archiveEntries used downloads).map Prod.fst, name ∉ used := by
  induction downloads generalizing used with
  | nil => simp [archiveEntries]
  | cons download downloads ih =>
    have hnew := uniqueArchiveFileName_notMem download.fileName used
    obtain ⟨hnodup, hrest⟩ := ih (uniqueArchiveFileName download.fileName used).2
    rw [uniqueArchiveFileName_snd] at hrest
    rw [archiveEntries, List.map_cons, List.nodup_cons, List.forall_mem_cons]
    refine ⟨⟨fun hmem => ?_, hnodup⟩, hnew, fun name hname => ?_⟩
    · exact hrest _ (by rwa [← uniqueArchiveFileName_snd]) (Finset.mem_insert_self ..)
    · exact fun hused => hrest name (by rwa [← uniqueArchiveFileName_snd]) (Finset.mem_insert_of_mem hused)

theorem archiveEntries_texts (used : Finset String) (downloads : List MarkdownDownload) :
    (archiveEntries used downloads).map Prod.snd = downloads.map MarkdownDownload.markdown := by
  induction downloads generalizing used with
  | nil => rfl
  | cons download downloads ih => rw [archiveEntries, List.map_cons, List.map_cons, ih]

end Write

theorem visible_archiveFileName (clock : Civil) :
    ∀ c ∈ (archiveFileName clock).toList, 32 ≤ c.toNat ∧ c.toNat < 127 := by
  have hdigit : ∀ k n, ∀ c ∈ pad k n, 32 ≤ c.toNat ∧ c.toNat < 127 := by
    intro k n c hc
    have hstem : StemChar c := .inl (Bool.or_eq_true_iff.2 (.inr (isDigit_of_mem_pad hc)))
    exact hstem.safe.2
  have hyear : ∀ y, ∀ c ∈ yearText y, 32 ≤ c.toNat ∧ c.toNat < 127 := by
    intro y
    unfold yearText
    split_ifs
    · exact hdigit _ _
    all_goals exact List.forall_mem_cons.2 ⟨by decide, hdigit _ _⟩
  have hfront : ∀ c ∈ "floral-sync-notes-".toList, 32 ≤ c.toNat ∧ c.toNat < 127 :=
    forall_mem_of_all (by decide +kernel)
  have hback : ∀ c ∈ "Z.zip".toList, 32 ≤ c.toNat ∧ c.toNat < 127 :=
    forall_mem_of_all (by decide +kernel)
  have hsep : 32 ≤ '-'.toNat ∧ '-'.toNat < 127 := by decide
  have htime : 32 ≤ 'T'.toNat ∧ 'T'.toNat < 127 := by decide
  unfold archiveFileName
  rw [String.toList_ofList]
  simp only [List.forall_mem_append, List.forall_mem_cons]
  exact ⟨hfront, hyear _, hsep, hdigit _ _, hsep, hdigit _ _, htime, hdigit _ _, hsep, hdigit _ _, hsep, hdigit _ _,
    hback⟩

/-! ### The selection -/

variable (τ) in
/-- The row can be read, and its text is shorter than 4 GiB. -/
def NoteRow.Archivable (row : NoteRow) : Prop := ∃ change : SyncChange τ, row.change.decode = some change ∧
  I64 row.revision ∧ (detailOf change (asU64 row.revision)).markdown.utf8ByteSize < 2 ^ 32

variable (τ) in
/-- The selected ids arrive, and the archive has one entry for each of them, with a name of its own. -/
structure ArchiveHolds {ω ζ : Type} (zip : Zip ω ζ) (valid : Char → Bool) (crates : Crates) (now : Instant)
    (clock : Civil) (headers : HeaderMap) (config : ServerConfig) (db : Database) (ids : List String) : Prop where
  arrive : normalizeArchiveNoteIds (archiveQuery ids) = ids
  archived : ∃ (reply : FileReply ζ) (entries : List (String × String)) (details : List (NoteDetail τ)),
    notesArchiveDownload τ zip valid crates now clock headers config db (archiveQuery ids) = .ok reply ∧
    zip.write entries = .ok reply.body ∧ (entries.map Prod.fst).Nodup ∧
    List.Forall₂ (fun id note => noteDetail db id = .ok (some note)) ids details ∧
    entries.map Prod.snd = details.map NoteDetail.markdown

section Selection

variable {ω ζ : Type} {zip : Zip ω ζ} {valid : Char → Bool} {crates : Crates} {now : Instant} {clock : Civil}
  {headers : HeaderMap} {config : ServerConfig} {claims : AdminSessionClaims} {db : Database} {notes : NotesTable}
  {ids : List String} {query : NoteArchiveQuery} {row : NoteRow}

theorem notesArchiveDownload_eq_ok {reply : FileReply ζ} :
    notesArchiveDownload τ zip valid crates now clock headers config db query = .ok reply ↔
      (∃ claims, requireSession crates now headers config = .ok claims) ∧ normalizeArchiveNoteIds query ≠ [] ∧
      ∃ downloads, List.Forall₂ (fun id download => markdownDownload τ db id = .ok (some download))
          (normalizeArchiveNoteIds query) downloads ∧
        ∃ disposition, contentDisposition valid (archiveFileName clock) = .ok disposition ∧
          reply.contentType = "application/zip" ∧ reply.contentDisposition = disposition ∧
          zip.write (archiveEntries ∅ downloads) = .ok reply.body := by
  have hone : ∀ id download, (do
      let found ← (markdownDownload τ db id).mapError ApiError.store
      okOr found (.notFound ("note " ++ id ++ " not found"))) = .ok download ↔
        markdownDownload τ db id = .ok (some download) := by
    intro id download
    simp only [bind_eq_ok, mapError_eq_ok, okOr_eq_ok]
    exact ⟨fun ⟨_, h, hfound⟩ => hfound ▸ h, fun h => ⟨_, h, rfl⟩⟩
  simp only [notesArchiveDownload, bind_eq_ok, mapM_eq_ok, ensure_eq_ok, hone, buildNotesArchive_eq_ok]
  constructor
  · rintro ⟨claims, hclaims, -, hne, downloads, hfound, archive, ⟨hbytes, hname⟩, disposition, hdisposition, h⟩
    obtain rfl := Except.ok.inj h
    exact ⟨⟨claims, hclaims⟩, hne, downloads, hfound, disposition, hname ▸ hdisposition, rfl, rfl, hbytes⟩
  · rintro ⟨⟨claims, hclaims⟩, hne, downloads, hfound, disposition, hdisposition, htype, rfl, hbytes⟩
    exact ⟨claims, hclaims, (), hne, downloads, hfound, ⟨archiveFileName clock, reply.body⟩, ⟨hbytes, rfl⟩, _,
      hdisposition, by rw [← htype]; rfl⟩

theorem noteDetail_of_mem (hnotes : db.notes = some notes) (hrow : row ∈ notes.rows) {note : NoteDetail τ} :
    noteDetail db row.id = .ok (some note) ↔ ∃ change : SyncChange τ, row.change.decode = some change ∧
      I64 row.revision ∧ note = detailOf change (asU64 row.revision) := by
  rw [noteDetail_eq_ok]
  constructor
  · rintro ⟨_, hnotes', h⟩
    obtain rfl := Option.some.inj (hnotes.symm.trans hnotes')
    rw [Replication.Keyed.lookup_key hrow] at h
    obtain ⟨change, hdecode, hi, h⟩ := h
    exact ⟨change, hdecode, hi, Option.some.inj h⟩
  · rintro ⟨change, hdecode, hi, rfl⟩
    refine ⟨notes, hnotes, ?_⟩
    rw [Replication.Keyed.lookup_key hrow]
    exact ⟨change, hdecode, hi, rfl⟩

theorem exists_write (hzip : zip.Documented) {details : List (NoteDetail τ)}
    (hsizes : ∀ note ∈ details, note.markdown.utf8ByteSize < 2 ^ 32) :
    ∃ bytes, zip.write (archiveEntries ∅ (details.map NoteDetail.download)) = .ok bytes := by
  refine (hzip _ (archiveEntries_names ∅ _).1).2 fun entry hentry => ?_
  have htext := List.mem_map_of_mem (f := Prod.snd) hentry
  rw [archiveEntries_texts, List.map_map] at htext
  obtain ⟨note, hmem, heq⟩ := List.mem_map.1 htext
  rw [← heq]
  exact hsizes note hmem

/-- The archive of a selection of existing notes is right if and only if the ids arrive unchanged and the notes can be
archived. -/
theorem archive_of_selection_iff (hzip : zip.Documented) (hvalid : TakesVisible valid)
    (hsession : requireSession crates now headers config = .ok claims) (hnotes : db.notes = some notes)
    (hne : ids ≠ []) (hnodup : ids.Nodup) (hexist : ∀ id ∈ ids, ∃ row ∈ notes.rows, row.id = id) :
    ArchiveHolds τ zip valid crates now clock headers config db ids ↔
      (∀ id ∈ ids, Unchanged id) ∧ ∀ row ∈ notes.rows, row.id ∈ ids → row.Archivable τ := by
  constructor
  · intro h
    refine ⟨(normalize_archiveQuery_iff hne hnodup).1 h.arrive, fun row hrow hid => ?_⟩
    obtain ⟨reply, entries, details, -, hwrite, hnames, hdetails, htexts⟩ := h.archived
    obtain ⟨note, hmem, hnote⟩ := List.exists_of_forall₂ hdetails hid
    obtain ⟨entry, hentry, htext⟩ := List.mem_map.1 (htexts ▸ List.mem_map_of_mem hmem)
    obtain ⟨change, hdecode, hi, rfl⟩ := (noteDetail_of_mem hnotes hrow).1 hnote
    exact ⟨change, hdecode, hi, htext ▸ (hzip entries hnames).1 ⟨_, hwrite⟩ entry hentry⟩
  · rintro ⟨hunchanged, harchivable⟩
    have harrive := (normalize_archiveQuery_iff hne hnodup).2 hunchanged
    have hnote : ∀ id ∈ ids, ∃ note : NoteDetail τ,
        noteDetail db id = .ok (some note) ∧ note.markdown.utf8ByteSize < 2 ^ 32 := by
      intro id hid
      obtain ⟨row, hrow, rfl⟩ := hexist id hid
      obtain ⟨change, hdecode, hi, hsize⟩ := harchivable row hrow hid
      exact ⟨_, (noteDetail_of_mem hnotes hrow).2 ⟨change, hdecode, hi, rfl⟩, hsize⟩
    obtain ⟨details, hdetails⟩ := List.exists_forall₂ hnote
    obtain ⟨bytes, hbytes⟩ := exists_write hzip fun note hmem =>
      let ⟨_, _, _, hsize⟩ := List.exists_of_forall₂ hdetails.flip hmem
      hsize
    obtain ⟨disposition, hdisposition⟩ := exists_contentDisposition hvalid fun c hc =>
      hvalid c (visible_archiveFileName clock c hc).1 (visible_archiveFileName clock c hc).2
    have hdownloads : List.Forall₂ (fun id download => markdownDownload τ db id = .ok (some download)) ids
        (details.map NoteDetail.download) := by
      rw [List.forall₂_map_right_iff]
      exact hdetails.imp fun id note h => markdownDownload_eq_ok.2 ⟨_, h.1, rfl⟩
    refine ⟨harrive, ⟨"application/zip", disposition, bytes⟩, _, details,
      notesArchiveDownload_eq_ok.2 ⟨⟨claims, hsession⟩, ?_, details.map NoteDetail.download, ?_, disposition,
        hdisposition, rfl, rfl, hbytes⟩,
      hbytes, (archiveEntries_names ∅ _).1, hdetails.imp fun _ _ h => h.1, ?_⟩
    · rwa [harrive]
    · rwa [harrive]
    · rw [archiveEntries_texts, List.map_map]
      rfl

end Selection

/-- An archive that is the list of its entries. -/
def listZip : Zip (List (String × String)) (List (String × String)) where
  new := []
  startFile name entries := .ok ((name, "") :: entries)
  writeAll text
    | [] => none
    | entry :: entries => if text.utf8ByteSize < 2 ^ 32 then some ((entry.1, text) :: entries) else none
  finish entries := .ok entries.reverse

theorem addFile_listZip (writer : List (String × String)) (name text : String) : listZip.addFile writer name text =
    if text.utf8ByteSize < 2 ^ 32 then .ok ((name, text) :: writer) else .error .io := by
  show okOr (if text.utf8ByteSize < 2 ^ 32 then some ((name, text) :: writer) else none) ApiError.io = _
  split_ifs <;> rfl

theorem documented_listZip : listZip.Documented := by
  intro entries hnames
  clear hnames
  have hfold : ∀ writer,
      (∃ w, entries.foldlM (fun writer entry => listZip.addFile writer entry.1 entry.2) writer = .ok w) ↔
        ∀ entry ∈ entries, entry.2.utf8ByteSize < 2 ^ 32 := by
    induction entries with
    | nil => exact fun writer => iff_of_true ⟨writer, rfl⟩ (by simp)
    | cons entry entries ih =>
      intro writer
      rw [List.foldlM_cons, addFile_listZip, List.forall_mem_cons]
      by_cases hsize : entry.2.utf8ByteSize < 2 ^ 32
      · rw [if_pos hsize, ← ih ((entry.1, entry.2) :: writer)]
        exact (and_iff_right hsize).symm
      · rw [if_neg hsize]
        exact iff_of_false nofun fun h => hsize h.1
  refine (Iff.trans ?_ (hfold listZip.new))
  simp only [Zip.write, bind_eq_ok, mapError_eq_ok]
  constructor
  · rintro ⟨archive, w, hw, -⟩
    exact ⟨w, hw⟩
  · rintro ⟨w, hw⟩
    exact ⟨_, w, hw, rfl⟩

theorem archive_of_oneNote : ArchiveHolds Civil listZip visibleAscii sampleCrates sampleClaims.issuedAt Sample.nine
    sampleHeaders sampleConfig Sample.oneNoteStore.db ["n1"] := by
  refine (archive_of_selection_iff documented_listZip takesVisible_visibleAscii requireSession_sampleConfig rfl (by simp)
    (by simp) (by decide +kernel)).2 ⟨?_, fun row hrow _ => ?_⟩
  · rw [List.forall_mem_singleton]
    exact ⟨by decide, by decide, by decide, by decide⟩
  · obtain rfl : row = ⟨.ofChange (Sample.stored "n1" "note" Sample.eight), 1⟩ := List.mem_singleton.1 hrow
    exact ⟨Sample.stored "n1" "note" Sample.eight, by decide +kernel, by decide, by decide +kernel⟩

/-- A note whose id has a comma. -/
def commaNote : PushRequest Civil := ⟨"phone", [Sample.note "todo,work" "plan" Sample.eight]⟩

/-- The id is taken for two. -/
theorem comma_selection_fails :
    noteDetail (Sample.pushed commaNote .created).db "todo,work" =
      .ok (some (detailOf (Sample.stored "todo,work" "plan" Sample.eight) 1)) ∧
    normalizeArchiveNoteIds (archiveQuery ["todo,work"]) = ["todo", "work"] ∧
    notesArchiveDownload Civil listZip visibleAscii sampleCrates sampleClaims.issuedAt Sample.nine sampleHeaders
      sampleConfig (Sample.pushed commaNote .created).db (archiveQuery ["todo,work"]) =
        .error (.notFound "note todo not found") := by
  refine ⟨by decide +kernel, by decide +kernel, ?_⟩
  unfold notesArchiveDownload
  rw [requireSession_sampleConfig]
  decide +kernel

end FloralSync

import FloralSync.Admin.Backups
import FloralSync.Fresh
import FloralSync.Store.Markdown

/-!
# Downloads of notes (`admin_api.rs`)

The name of a downloaded file goes into a header, and into an archive that is unpacked somewhere else. It is safe
there if and only if it is made of the heading, or of an id that is safe itself (`downloadSafe_iff`). The archive
gives every entry a name of its own.
-/

namespace FloralSync

open Rust Except Fresh
open Rfc3339 (Civil yearText pad)

variable {τ : Type} [Chrono τ]

/-- A response with a file to be saved. -/
structure FileReply (β : Type) where
  contentType : String
  contentDisposition : String
  body : β
deriving DecidableEq

/-- `HeaderValue::from_str`, where `valid` are the characters that the `http` crate takes. -/
def headerFromStr (valid : Char → Bool) (s : String) : Except ApiError String :=
  if s.toList.all valid then .ok s else .error (.internal "failed to parse header value")

/-- Visible ASCII is taken. -/
def TakesVisible (valid : Char → Bool) : Prop := ∀ c : Char, 32 ≤ c.toNat → c.toNat < 127 → valid c = true

def contentDisposition (valid : Char → Bool) (fileName : String) : Except ApiError String :=
  headerFromStr valid ("attachment; filename=\"" ++ fileName ++ "\"")

variable (τ) in
def noteDownload (valid : Char → Bool) (crates : Crates) (now : Instant) (headers : HeaderMap) (config : ServerConfig)
    (db : Database) (noteId : String) : Except ApiError (FileReply String) := do
  let _ ← requireSession crates now headers config
  let found ← (markdownDownload τ db noteId).mapError .store
  let download ← okOr found (.notFound "note not found")
  let disposition ← contentDisposition valid download.fileName
  return { contentType := "text/markdown; charset=utf-8", contentDisposition := disposition, body := download.markdown }

/-- The `zip` crate, with writers `ω` and finished archives `ζ`. -/
structure Zip (ω ζ : Type) where
  new : ω
  startFile : String → ω → Except String ω
  writeAll : String → ω → Option ω
  finish : ω → Except String ζ

structure NotesArchive (ζ : Type) where
  fileName : String
  bytes : ζ

/-- The names that `unique_archive_file_name` tries. -/
def archiveCandidate (fileName : String) (suffix : Nat) : String :=
  let plain := fileName ++ "-" ++ toString suffix
  match rsplitOnce '.' fileName with
  | some (stem, extension) => if stem ≠ "" then stem ++ "-" ++ toString suffix ++ "." ++ extension else plain
  | none => plain

/-- The name, and the names that are used with it. -/
def uniqueArchiveFileName (fileName : String) (used : Finset String) : String × Finset String :=
  if fileName ∈ used then
    let candidate := firstUnused (archiveCandidate fileName) used used.card 2
    (candidate, insert candidate used)
  else (fileName, insert fileName used)

def Zip.addFile {ω ζ : Type} (zip : Zip ω ζ) (writer : ω) (name text : String) : Except ApiError ω := do
  let writer ← (zip.startFile name writer).mapError .internal
  okOr (zip.writeAll text writer) .io

/-- One round of the loop of `build_notes_archive`. -/
def addDownload {ω ζ : Type} (zip : Zip ω ζ) :
    ω × Finset String → MarkdownDownload → Except ApiError (ω × Finset String)
  | (writer, used), download => do
    let (fileName, used) := uniqueArchiveFileName download.fileName used
    let writer ← zip.addFile writer fileName download.markdown
    return (writer, used)

/-- `format!("floral-sync-notes-{}.zip", Utc::now().format("%Y-%m-%dT%H-%M-%SZ"))` -/
def archiveFileName (now : Civil) : String :=
  String.ofList ("floral-sync-notes-".toList ++ (yearText now.year ++ '-' :: (pad 2 now.month ++ '-' :: (pad 2 now.day ++
    'T' :: (pad 2 now.hour ++ '-' :: (pad 2 now.minute ++ '-' :: (pad 2 now.second ++ "Z.zip".toList)))))))

def buildNotesArchive {ω ζ : Type} (zip : Zip ω ζ) (now : Civil) (downloads : List MarkdownDownload) :
    Except ApiError (NotesArchive ζ) := do
  let (writer, _) ← downloads.foldlM (addDownload zip) (zip.new, ∅)
  let bytes ← (zip.finish writer).mapError .internal
  return { fileName := archiveFileName now, bytes }

section Names

variable {fileName : String} {used : Finset String} {c : Char}

theorem archiveCandidate_eq (fileName : String) : ∃ front back : String, fileName = front ++ back ∧
    ∀ suffix, archiveCandidate fileName suffix = front ++ "-" ++ toString suffix ++ back := by
  unfold archiveCandidate
  split
  · rename_i stem extension hsplit
    have heq : fileName = stem ++ ("." ++ extension) := by
      rw [(rsplitOnce_eq_some_iff.1 hsplit).1, String.append_assoc]
      rfl
    split_ifs
    · exact ⟨stem, "." ++ extension, heq, fun suffix => by rw [String.append_assoc]⟩
    · exact ⟨fileName, "", by simp, by simp⟩
  · exact ⟨fileName, "", by simp, by simp⟩

theorem archiveCandidate_injective (fileName : String) : (archiveCandidate fileName).Injective := by
  obtain ⟨front, back, -, heq⟩ := archiveCandidate_eq fileName
  intro m n h
  rw [heq, heq, ← String.toList_inj] at h
  simp only [String.toList_append, List.append_assoc, List.append_cancel_left_eq, List.append_cancel_right_eq,
    Nat.toString_eq_repr, Nat.toList_repr] at h
  -- the digits are read back
  simpa using congrArg (Nat.ofDigitChars 10 · 0) h

theorem uniqueArchiveFileName_snd : (uniqueArchiveFileName fileName used).2 =
    insert (uniqueArchiveFileName fileName used).1 used := by
  unfold uniqueArchiveFileName
  split_ifs <;> rfl

theorem uniqueArchiveFileName_notMem (fileName : String) (used : Finset String) :
    (uniqueArchiveFileName fileName used).1 ∉ used := by
  unfold uniqueArchiveFileName
  split_ifs with h
  · exact firstUnused_notMem (archiveCandidate_injective fileName) 2
  · exact h

theorem uniqueArchiveFileName_cases (fileName : String) (used : Finset String) :
    (uniqueArchiveFileName fileName used).1 = fileName ∨
      ∃ suffix ≥ 2, (uniqueArchiveFileName fileName used).1 = archiveCandidate fileName suffix := by
  unfold uniqueArchiveFileName
  split_ifs
  · obtain ⟨k, heq, -⟩ := firstUnused_spec (archiveCandidate fileName) used used.card 2
    exact .inr ⟨2 + k, Nat.le_add_right .., heq⟩
  · exact .inl rfl

theorem mem_uniqueArchiveFileName (hc : c ∈ (uniqueArchiveFileName fileName used).1.toList) :
    c ∈ fileName.toList ∨ c = '-' ∨ c.isDigit = true := by
  rcases uniqueArchiveFileName_cases fileName used with heq | ⟨suffix, -, heq⟩
  · rw [heq] at hc
    exact .inl hc
  · obtain ⟨front, back, hname, hcandidate⟩ := archiveCandidate_eq fileName
    rw [heq, hcandidate] at hc
    simp only [String.toList_append, List.mem_append] at hc
    rw [hname, String.toList_append, List.mem_append]
    rcases hc with ((hc | hc) | hc) | hc
    · exact .inl (.inl hc)
    · exact .inr (.inl (List.mem_singleton.1 hc))
    · rw [Nat.toString_eq_repr, Nat.toList_repr] at hc
      exact .inr (.inr (Nat.isDigit_of_mem_toDigits (by decide) (by decide) hc))
    · exact .inl (.inr hc)

theorem length_le_uniqueArchiveFileName (fileName : String) (used : Finset String) :
    fileName.length ≤ (uniqueArchiveFileName fileName used).1.length := by
  rcases uniqueArchiveFileName_cases fileName used with heq | ⟨suffix, -, heq⟩
  · rw [heq]
  · obtain ⟨front, back, hname, hcandidate⟩ := archiveCandidate_eq fileName
    rw [heq, hcandidate, hname]
    simp only [String.length_append]
    omega

end Names

/-! ### Safe names -/

/-- No slash, backslash, double quote or control character. -/
def SafeChar (c : Char) : Prop :=
  c ≠ '/' ∧ c ≠ '\\' ∧ c ≠ '"' ∧ ¬ c.toNat < 32 ∧ ¬ (127 ≤ c.toNat ∧ c.toNat < 160)

instance (c : Char) : Decidable (SafeChar c) := inferInstanceAs (Decidable (_ ∧ _))

/-- The name is safe as it is and under every name that it gets in an archive, which is unpacked into its directory. -/
structure NameSafe (fileName : String) : Prop where
  chars : ∀ c ∈ fileName.toList, SafeChar c
  archived : ∀ used, ∀ c ∈ (uniqueArchiveFileName fileName used).1.toList, SafeChar c
  inside : ∀ used (dir : PathBuf), (dir.join ⟨(uniqueArchiveFileName fileName used).1⟩).components =
    dir.components ++ [.normal (uniqueArchiveFileName fileName used).1.toList]

variable (τ) in
/-- The note is downloaded, under a safe name. -/
structure DownloadSafe (valid : Char → Bool) (crates : Crates) (now : Instant) (headers : HeaderMap)
    (config : ServerConfig) (db : Database) (noteId : String) : Prop where
  named : ∀ download, markdownDownload τ db noteId = .ok (some download) → NameSafe download.fileName
  replied : ∃ reply, noteDownload τ valid crates now headers config db noteId = .ok reply

section Safe

variable {valid : Char → Bool} {crates : Crates} {now : Instant} {headers : HeaderMap} {config : ServerConfig}
  {claims : AdminSessionClaims} {db : Database} {noteId fileName s : String} {note : NoteDetail τ} {c : Char}

theorem StemChar.safe (h : StemChar c) : SafeChar c ∧ 32 ≤ c.toNat ∧ c.toNat < 127 := by
  rcases h with h | rfl
  · have hrange := isAlphanum_iff.1 h
    refine ⟨⟨?_, ?_, ?_, by omega, by omega⟩, by omega, by omega⟩ <;> rintro rfl <;> exact absurd hrange (by decide)
  · decide

theorem NameSafe.of_chars (hchars : ∀ c ∈ fileName.toList, SafeChar c) (hlength : 3 ≤ fileName.length) :
    NameSafe fileName := by
  have harchived : ∀ used, ∀ c ∈ (uniqueArchiveFileName fileName used).1.toList, SafeChar c := by
    intro used c hc
    rcases mem_uniqueArchiveFileName hc with hc | rfl | hdigit
    · exact hchars c hc
    · decide
    · exact (StemChar.safe (.inl (Bool.or_eq_true_iff.2 (.inr hdigit)))).1
  refine ⟨hchars, harchived, fun used dir => PathBuf.IsName.components_join ⟨?_, ?_, ?_⟩ dir⟩
  · exact fun hslash => (harchived used _ hslash).1 rfl
  all_goals
    have hlong := hlength.trans (length_le_uniqueArchiveFileName fileName used)
    rw [← String.length_toList] at hlong
  · rw [Bool.eq_false_iff]
    intro hignorable
    rcases of_decide_eq_true hignorable with heq | heq <;> simp [heq] at hlong
  · intro heq
    simp [heq] at hlong

theorem contentDisposition_eq_ok {value : String} : contentDisposition valid fileName = .ok value →
    ∀ c ∈ fileName.toList, valid c = true := by
  unfold contentDisposition headerFromStr
  split_ifs with hall
  · intro _ c hc
    refine List.all_eq_true.1 hall c ?_
    simp [hc]
  · exact nofun

theorem exists_contentDisposition (hvalid : TakesVisible valid) (h : ∀ c ∈ fileName.toList, valid c = true) :
    ∃ value, contentDisposition valid fileName = .ok value := by
  have hfixed : ∀ c ∈ ("attachment; filename=\"" ++ "\"").toList, valid c = true := fun c hc =>
    have hrange : ∀ c ∈ ("attachment; filename=\"" ++ "\"").toList, 32 ≤ c.toNat ∧ c.toNat < 127 :=
      forall_mem_of_all (by decide +kernel)
    hvalid c (hrange c hc).1 (hrange c hc).2
  refine ⟨_, if_pos (List.all_eq_true.2 fun c hc => ?_)⟩
  simp only [String.toList_append, List.mem_append] at hc hfixed
  rcases hc with (hc | hc) | hc
  · exact hfixed c (.inl hc)
  · exact h c hc
  · exact hfixed c (.inr hc)

theorem noteDownload_eq_ok {reply : FileReply String} :
    noteDownload τ valid crates now headers config db noteId = .ok reply ↔
      (∃ claims, requireSession crates now headers config = .ok claims) ∧
      ∃ download, markdownDownload τ db noteId = .ok (some download) ∧
        ∃ disposition, contentDisposition valid download.fileName = .ok disposition ∧
          reply = ⟨"text/markdown; charset=utf-8", disposition, download.markdown⟩ := by
  simp only [noteDownload, bind_eq_ok, mapError_eq_ok, okOr_eq_ok]
  constructor
  · rintro ⟨claims, hclaims, _, hfound, download, rfl, disposition, hdisposition, h⟩
    exact ⟨⟨claims, hclaims⟩, download, hfound, disposition, hdisposition, (Except.ok.inj h).symm⟩
  · rintro ⟨⟨claims, hclaims⟩, download, hfound, disposition, hdisposition, rfl⟩
    exact ⟨claims, hclaims, _, hfound, download, rfl, disposition, hdisposition, rfl⟩

/-- The characters of a file name, up to its extension, are those of a stem or of the id. -/
theorem fileName_chars_iff (hvalid : TakesVisible valid) :
    (∀ c ∈ note.download.fileName.toList, SafeChar c ∧ valid c = true) ↔
      HasAlphanum note.heading ∨ ∀ c ∈ note.id.toList, SafeChar c ∧ valid c = true := by
  have hextension : ∀ c ∈ ".md".toList, SafeChar c ∧ 32 ≤ c.toNat ∧ c.toNat < 127 :=
    forall_mem_of_all (by decide +kernel)
  have hstem : (∀ c ∈ note.download.fileName.toList, SafeChar c ∧ valid c = true) ↔
      ∀ c ∈ (sanitizeFileStem note.heading note.id).toList, SafeChar c ∧ valid c = true := by
    show (∀ c ∈ (sanitizeFileStem note.heading note.id ++ ".md").toList, _) ↔ _
    rw [String.toList_append, List.forall_mem_append]
    refine and_iff_left fun c hc => ?_
    obtain ⟨hsafe, hlow, hhigh⟩ := hextension c hc
    exact ⟨hsafe, hvalid c hlow hhigh⟩
  rw [hstem]
  by_cases halnum : HasAlphanum note.heading
  · refine iff_of_true (fun c hc => ?_) (.inl halnum)
    obtain ⟨hsafe, hlow, hhigh⟩ := (stemChar_of_hasAlphanum halnum c hc).safe
    exact ⟨hsafe, hvalid c hlow hhigh⟩
  · rw [sanitizeFileStem_of_not halnum, or_iff_right halnum]

/-- A download is safe if and only if every character of its name is. -/
theorem downloadSafe_iff_chars (hvalid : TakesVisible valid)
    (hsession : requireSession crates now headers config = .ok claims)
    (hdownload : markdownDownload τ db noteId = .ok (some note.download)) :
    DownloadSafe τ valid crates now headers config db noteId ↔
      ∀ c ∈ note.download.fileName.toList, SafeChar c ∧ valid c = true := by
  constructor
  · intro h c hc
    obtain ⟨reply, hok⟩ := h.replied
    obtain ⟨-, _, hfound, value, hvalue, -⟩ := noteDownload_eq_ok.1 hok
    obtain rfl := Option.some.inj (Except.ok.inj (hdownload.symm.trans hfound))
    exact ⟨(h.named _ hdownload).chars c hc, contentDisposition_eq_ok hvalue c hc⟩
  · intro hall
    constructor
    · intro download hfound
      obtain rfl := Option.some.inj (Except.ok.inj (hdownload.symm.trans hfound))
      refine .of_chars (fun c hc => (hall c hc).1) ?_
      show 3 ≤ (sanitizeFileStem note.heading note.id ++ ".md").length
      rw [String.length_append]
      exact Nat.le_add_left ..
    · obtain ⟨value, hvalue⟩ := exists_contentDisposition hvalid fun c hc => (hall c hc).2
      exact ⟨_, noteDownload_eq_ok.2 ⟨⟨claims, hsession⟩, _, hdownload, value, hvalue, rfl⟩⟩

/-- Every existing note has a safe download if and only if its heading has a letter or digit, or its id is safe and
can stand in a header. -/
theorem downloadSafe_iff (hvalid : TakesVisible valid) (hsession : requireSession crates now headers config = .ok claims)
    (hnote : noteDetail db noteId = .ok (some note)) :
    DownloadSafe τ valid crates now headers config db noteId ↔
      HasAlphanum note.heading ∨ ∀ c ∈ noteId.toList, SafeChar c ∧ valid c = true := by
  have hdownload : markdownDownload τ db noteId = .ok (some note.download) := markdownDownload_eq_ok.2 ⟨_, hnote, rfl⟩
  rw [downloadSafe_iff_chars hvalid hsession hdownload, fileName_chars_iff hvalid, id_of_noteDetail hnote]

end Safe

/-- Visible ASCII only. -/
def visibleAscii (c : Char) : Bool := 32 ≤ c.toNat && c.toNat < 127

theorem takesVisible_visibleAscii : TakesVisible visibleAscii := fun c hlow hhigh => by
  simp [visibleAscii, hlow, hhigh]

theorem noteDetail_oneNote : noteDetail Sample.oneNoteStore.db "n1" =
    .ok (some (detailOf (Sample.stored "n1" "note" Sample.eight) 1)) := by decide +kernel

/-- A title in letters. -/
theorem downloadSafe_oneNote : DownloadSafe Civil visibleAscii sampleCrates sampleClaims.issuedAt sampleHeaders
    sampleConfig Sample.oneNoteStore.db "n1" :=
  (downloadSafe_iff takesVisible_visibleAscii requireSession_sampleConfig noteDetail_oneNote).2
    (.inl (by decide +kernel))

/-- A Chinese title, and an id that leads out of the directory. -/
def diaryNote : PushRequest Civil := ⟨"phone", [Sample.note "../../evil" "日记" Sample.eight]⟩

/-- The file name is the id, in the archive too. -/
theorem diary_download_escapes : ∃ download,
    markdownDownload Civil (Sample.pushed diaryNote .created).db "../../evil" = .ok (some download) ∧
      ((PathBuf.mk "out").join ⟨(uniqueArchiveFileName download.fileName ∅).1⟩).components =
        [.normal "out".toList, .parentDir, .parentDir, .normal "evil.md".toList] ∧
      ¬ NameSafe download.fileName := by
  have hnote : noteDetail (Sample.pushed diaryNote .created).db "../../evil" =
      .ok (some (detailOf (Sample.stored "../../evil" "日记" Sample.eight) 1)) := by decide +kernel
  refine ⟨_, markdownDownload_eq_ok.2 ⟨_, hnote, rfl⟩, by decide +kernel, fun h => ?_⟩
  exact absurd (h.chars '/' (by decide +kernel)) (by decide)

end FloralSync

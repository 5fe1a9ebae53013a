import FloralSync.Admin.Settings
import FloralSync.Store.Admin
import FloralSync.Store.Listing

/-!
# The pages of the admin (`admin_api.rs`)

The handlers that read notes and logs. The log file is cut into lines, of which the last ones are shown: these are
the last entries of the log if and only if no entry has a line break, or a carriage return at its end
(`readLogs_entries_iff`).
-/

namespace FloralSync
namespace AdminApi

open Except

variable {τ : Type} [Chrono τ]

structure OverviewResponse (τ : Type) where
  latestRevision : Nat
  noteCount : Nat
  deletedNoteCount : Nat
  categoryCount : Nat
  latestSnapshotAt : Option τ
  syncListen : List String
  adminListen : List String
  dbPath : String
  exportDir : String
  logPath : String
  logLevel : String
  recentActivitySummary : String
deriving DecidableEq

def recentActivitySummary (summary : AdminOverview τ) : String :=
  match summary.latestSnapshotAt with
  | some timestamp => "Latest snapshot captured at " ++ toRfc3339 timestamp
  | none => "No note snapshots have been captured yet"

def overview (crates : Crates) (now : Instant) (headers : HeaderMap) (config : ServerConfig) (db : Database) :
    Except ApiError (OverviewResponse τ) := do
  let _ ← requireSession crates now headers config
  let summary : AdminOverview τ ← (FloralSync.overview db).mapError .store
  return { latestRevision := summary.latestRevision
           noteCount := summary.noteCount
           deletedNoteCount := summary.deletedNoteCount
           categoryCount := summary.categoryCount
           latestSnapshotAt := summary.latestSnapshotAt
           syncListen := config.syncListen
           adminListen := config.adminListen
           dbPath := config.dbPath.text
           exportDir := config.exportDir.text
           logPath := config.logPath.text
           logLevel := config.logLevel
           recentActivitySummary := recentActivitySummary summary }

def parseNoteState (value : Option String) : Except ApiError NoteStateFilter :=
  match value.getD "all" with
  | "all" => .ok .all
  | "active" => .ok .active
  | "deleted" => .ok .deleted
  | other => .error (.badRequest ("invalid note state filter: " ++ other))

structure NotesQuery where
  page : Option Nat
  pageSize : Option Nat
  search : Option String
  category : Option String
  state : Option String

def notes (crates : Crates) (now : Instant) (headers : HeaderMap) (config : ServerConfig) (db : Database)
    (query : NotesQuery) : Except ApiError (NoteListPage τ) := do
  let _ ← requireSession crates now headers config
  let state ← parseNoteState query.state
  (noteList db { page := query.page.getD 1, pageSize := query.pageSize.getD 50, search := query.search,
                 category := query.category, state }).mapError .store

def noteDetail (crates : Crates) (now : Instant) (headers : HeaderMap) (config : ServerConfig) (db : Database)
    (noteId : String) : Except ApiError (NoteDetail τ) := do
  let _ ← requireSession crates now headers config
  let note ← (FloralSync.noteDetail db noteId).mapError .store
  okOr note (.notFound "note not found")

def noteHistory (crates : Crates) (now : Instant) (headers : HeaderMap) (config : ServerConfig) (db : Database)
    (noteId : String) : Except ApiError (List (NoteSnapshot τ)) := do
  let _ ← requireSession crates now headers config
  (FloralSync.noteHistory db noteId).mapError .store

/-! ### Logs -/

/-- The end of a line, after `\n`: `\r\n` ends one too. -/
def stripCr (line : List Char) : List Char := if line.getLast? = some '\r' then line.dropLast else line

/-- `str::lines`: a line ends with `\n` or `\r\n`, which the last one need not have. -/
def lines (s : String) : List String :=
  let pieces := s.toList.splitOn '\n'
  (pieces.dropLast.map stripCr ++ pieces.getLast?.toList.filter (· ≠ [])).map String.ofList

structure LogsResponse where
  path : String
  lines : List String
deriving DecidableEq

/-- What `fs::read_to_string` of the log file gives. -/
inductive LogFile
  | contents (s : String)
  | notFound
  | unreadable

def logsLimit (limit : Option Nat) : Nat := min (max (limit.getD 200) 1) 1000

def readLogs (crates : Crates) (now : Instant) (headers : HeaderMap) (config : ServerConfig) (log : LogFile)
    (limit : Option Nat) : Except ApiError LogsResponse := do
  let _ ← requireSession crates now headers config
  let limit := logsLimit limit
  let contents ← match log with
    | .contents s => pure s
    | .notFound => pure ""
    | .unreadable => throw .io
  let allLines := lines contents
  return { path := config.logPath.text
           lines := if allLines.length > limit then allLines.drop (allLines.length - limit) else allLines }

section Logs

variable {e : String} {entries : List String}

theorem stripCr_eq_self {line : List Char} : stripCr line = line ↔ line.getLast? ≠ some '\r' := by
  unfold stripCr
  split_ifs with h
  · refine iff_of_false (fun heq => ?_) (not_not.2 h)
    rw [List.getLast?_eq_some_iff] at h
    obtain ⟨front, rfl⟩ := h
    simp at heq
  · exact iff_of_true rfl h

theorem mem_of_mem_stripCr {line : List Char} {c : Char} (h : c ∈ stripCr line) : c ∈ line := by
  unfold stripCr at h
  split_ifs at h
  · exact List.mem_of_mem_dropLast h
  · exact h

theorem notMem_of_mem_splitOn {text piece : List Char} (h : piece ∈ text.splitOn '\n') : '\n' ∉ piece := by
  induction text generalizing piece with
  | nil =>
    rw [List.splitOn_nil, List.mem_singleton] at h
    simp [h]
  | cons c text ih =>
    rw [List.splitOn_cons_eq_if_modifyHead] at h
    split_ifs at h with hc
    · rcases List.mem_cons.1 h with rfl | h
      · exact List.not_mem_nil
      · exact ih h
    · cases hsplit : text.splitOn '\n' with
      | nil => exact absurd hsplit (List.splitOn_ne_nil _ _)
      | cons first rest =>
        rw [hsplit] at h ih
        rcases List.mem_cons.1 h with rfl | h
        · rw [List.mem_cons, not_or]
          exact ⟨fun heq => hc (beq_iff_eq.2 heq.symm), ih List.mem_cons_self⟩
        · exact ih (List.mem_cons_of_mem _ h)

theorem notMem_of_mem_lines {s line : String} (h : line ∈ lines s) : '\n' ∉ line.toList := by
  obtain ⟨piece, hpiece, rfl⟩ := List.mem_map.1 h
  rw [String.toList_ofList]
  rcases List.mem_append.1 hpiece with hpiece | hpiece
  · obtain ⟨ended, hended, rfl⟩ := List.mem_map.1 hpiece
    exact fun hmem => notMem_of_mem_splitOn (List.mem_of_mem_dropLast hended) (mem_of_mem_stripCr hmem)
  · have hlast := Option.mem_toList.1 (List.mem_filter.1 hpiece).1
    exact notMem_of_mem_splitOn (List.mem_of_getLast? hlast)

/-- The lines that an entry takes. -/
def entryLines (e : String) : List String := ((e.toList.splitOn '\n').map stripCr).map String.ofList

theorem lines_append (e s : String) : lines (e ++ "\n" ++ s) = entryLines e ++ lines s := by
  have hnewline : "\n".toList = ['\n'] := by decide
  simp only [lines, entryLines, String.toList_append, List.append_assoc, hnewline, List.singleton_append,
    List.splitOn_append_cons_self]
  rw [List.dropLast_append_of_ne_nil (List.splitOn_ne_nil _ _), List.getLast?_append_of_ne_nil]
  · simp only [List.map_append, List.append_assoc]
  · exact List.splitOn_ne_nil _ _

theorem entryLines_ne_nil : entryLines e ≠ [] := by
  simp [entryLines, List.splitOn_ne_nil]

theorem entryLines_of_notMem (h : '\n' ∉ e.toList) : entryLines e = [String.ofList (stripCr e.toList)] := by
  rw [entryLines, List.splitOn_eq_singleton h, List.map_singleton, List.map_singleton]

/-- The text of a log. -/
def logText (entries : List String) : String := String.join (entries.map (· ++ "\n"))

theorem lines_logText : lines (logText entries) = entries.flatMap entryLines := by
  induction entries with
  | nil => rfl
  | cons e entries ih =>
    rw [logText, List.map_cons, String.join_cons, lines_append, List.flatMap_cons, ← ih]
    rfl

/-- An entry that `lines` gives back. -/
def IsLine (e : String) : Prop := '\n' ∉ e.toList ∧ e.toList.getLast? ≠ some '\r'

theorem flatMap_entryLines (h : ∀ e ∈ entries, '\n' ∉ e.toList) :
    entries.flatMap entryLines = entries.map fun e => String.ofList (stripCr e.toList) := by
  induction entries with
  | nil => rfl
  | cons e entries ih =>
    obtain ⟨he, hentries⟩ := List.forall_mem_cons.1 h
    rw [List.flatMap_cons, entryLines_of_notMem he, ih hentries]
    rfl

theorem map_stripCr_eq_self :
    (entries.map fun e => String.ofList (stripCr e.toList)) = entries ↔
      ∀ e ∈ entries, e.toList.getLast? ≠ some '\r' := by
  nth_rewrite 2 [← List.map_id entries]
  rw [List.map_inj_left]
  refine forall₂_congr fun e _ => ?_
  rw [id_eq, ← String.toList_inj, String.toList_ofList, stripCr_eq_self]

/-- The last lines are the last entries if and only if these are lines. -/
theorem rtake_flatMap_entryLines {n : Nat} :
    (entries.flatMap entryLines).rtake n = entries.rtake n ↔ ∀ e ∈ entries.rtake n, IsLine e := by
  have hsplit : entries = entries.take (entries.length - n) ++ entries.rtake n := (List.take_append_drop _ _).symm
  -- Once no entry that is shown has a line break, each of them is one line, and no line of another entry is shown.
  have hlast : (∀ e ∈ entries.rtake n, '\n' ∉ e.toList) →
      (entries.flatMap entryLines).rtake n = (entries.rtake n).map fun e => String.ofList (stripCr e.toList) := by
    intro h
    rw [← flatMap_entryLines h]
    have hlength : ((entries.rtake n).flatMap entryLines).length = min n entries.length := by
      rw [flatMap_entryLines h, List.length_map, List.rtake, List.length_drop]
      omega
    rcases le_total entries.length n with hn | hn
    · have hall : entries.rtake n = entries := by rw [List.rtake, Nat.sub_eq_zero_of_le hn, List.drop_zero]
      rw [hall] at hlength ⊢
      rw [List.rtake, hlength, min_eq_right hn, Nat.sub_eq_zero_of_le hn, List.drop_zero]
    · conv_lhs => rw [hsplit, List.flatMap_append]
      rw [List.rtake, List.length_append, hlength, min_eq_left hn, Nat.add_sub_cancel, List.drop_left]
  constructor
  · intro heq
    have hline : ∀ e ∈ entries.rtake n, '\n' ∉ e.toList := by
      intro e he
      rw [← heq, ← lines_logText] at he
      exact notMem_of_mem_lines (List.mem_of_mem_drop he)
    rw [hlast hline, map_stripCr_eq_self] at heq
    exact fun e he => ⟨hline e he, heq e he⟩
  · intro h
    rw [hlast fun e he => (h e he).1, map_stripCr_eq_self]
    exact fun e he => (h e he).2

variable {crates : Crates} {now : Instant} {headers : HeaderMap} {config : ServerConfig} {claims : AdminSessionClaims}
  {limit : Option Nat}

theorem readLogs_contents {s : String} (hsession : requireSession crates now headers config = .ok claims) :
    readLogs crates now headers config (.contents s) limit =
      .ok ⟨config.logPath.text, (lines s).rtake (logsLimit limit)⟩ := by
  have hshown : ∀ (all : List String) n, (if all.length > n then all.drop (all.length - n) else all) = all.rtake n := by
    intro all n
    unfold List.rtake
    split_ifs with h
    · rfl
    · rw [Nat.sub_eq_zero_of_le (not_lt.1 h), List.drop_zero]
  simp only [readLogs, hsession, hshown]
  rfl

theorem readLogs_entries_iff (hsession : requireSession crates now headers config = .ok claims) :
    readLogs crates now headers config (.contents (logText entries)) limit =
        .ok ⟨config.logPath.text, entries.rtake (logsLimit limit)⟩ ↔
      ∀ e ∈ entries.rtake (logsLimit limit), IsLine e := by
  rw [readLogs_contents hsession, lines_logText, ← rtake_flatMap_entryLines]
  simp

/-- A message of two lines is cut. -/
theorem readLogs_entries_sample : ¬ (readLogs sampleCrates sampleClaims.issuedAt sampleHeaders sampleConfig
    (.contents (logText ["a\nb", "c"])) (some 2) = .ok ⟨sampleConfig.logPath.text, ["a\nb", "c"]⟩) := by
  intro h
  have hline := (readLogs_entries_iff requireSession_sampleConfig).1 h "a\nb" (by decide)
  exact absurd hline.1 (by decide +kernel)

end Logs

end AdminApi
end FloralSync

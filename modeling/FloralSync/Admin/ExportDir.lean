import FloralSync.Admin.Backups

/-!
# Files of the export directory (`admin_api.rs`)

Backups are listed under their names, and restored by the names that were listed. The name is trimmed on the way
back, and a link is followed, so the names mean the files that are listed if and only if no file's name has white
space at its ends and no link leads to a file (`names_resolve_iff`).
-/

namespace FloralSync

open Rust Except Stateful

variable {τ : Type} [Chrono τ]

/-- The name of a file: text, or bytes that are not UTF-8 and are shown as some text. -/
inductive OsString
  | text (s : String)
  | bytes (raw : List UInt8) (shown : String)
deriving DecidableEq

def OsString.toStringLossy : OsString → String
  | text s => s
  | bytes _ shown => shown

/-- What is found under a name: a file, a link with the file that it leads to, if any, or something else. -/
inductive Node
  | file (content : SourceFile) (len : Nat)
  | symlink (target : Option SourceFile)
  | other

/-- The file after links are followed. -/
def Node.followed : Node → Option SourceFile
  | file content _ => some content
  | symlink target => target
  | other => none

structure DirEntry where
  name : OsString
  node : Node

/-- The content of the export directory. -/
structure ExportDir where
  entries : List DirEntry
  nodup : (entries.map DirEntry.name).Nodup
  isName : ∀ entry ∈ entries, ∀ name, entry.name = .text name → PathBuf.IsName name

def DirEntry.path (exportDir : PathBuf) (entry : DirEntry) : Option PathBuf :=
  match entry.name with
  | .text name => some (exportDir.join ⟨name⟩)
  | .bytes .. => none

/-- The regular file that a path leads to. With anything behind the name of a file, as in `name/`, it leads to none. -/
def ExportDir.fileAt (dir : ExportDir) (exportDir path : PathBuf) : Option SourceFile :=
  (dir.entries.find? fun entry => entry.path exportDir = some path).bind fun entry => entry.node.followed

structure BackupEntry where
  fileName : String
  sizeBytes : Nat
deriving DecidableEq

/-- How the file system meets a listing: whether the directory is there and can be read, and of which entries the
metadata can be read. -/
structure ListEnv where
  present : Bool
  readDir : Bool
  metadata : DirEntry → Bool

/-- The metadata is that of the entry itself: links are not followed. -/
def DirEntry.backupEntry (entry : DirEntry) : Option BackupEntry :=
  match entry.node with
  | .file _ len => some ⟨entry.name.toStringLossy, len⟩
  | _ => none

def listBackups (crates : Crates) (now : Instant) (headers : HeaderMap) (config : ServerConfig) (env : ListEnv)
    (dir : ExportDir) : Except ApiError (List BackupEntry) := do
  let _ ← requireSession crates now headers config
  if env.present = false then return []
  ensure env.readDir ApiError.io
  let backups := (dir.entries.filter env.metadata).filterMap DirEntry.backupEntry
  return backups.insertionSort fun a b => b.fileName ≤ a.fileName

def resolveBackupPath (exportDir : PathBuf) (dir : ExportDir) (fileName : String) : Except ApiError PathBuf := do
  let trimmed := trim fileName
  ensure (trimmed ≠ "") (.badRequest "backup file name is required")
  match (PathBuf.mk trimmed).components with
  | [.normal _] =>
    let resolved := exportDir.join ⟨trimmed⟩
    ensure (dir.fileAt exportDir resolved).isSome (.notFound "backup file was not found")
    return resolved
  | _ => throw (.badRequest "backup file name must not include path segments")

structure RestoreBackupResponse where
  fileName : String
deriving DecidableEq

/-- `SyncStore::restore_from` of a file in the export directory -/
def restoreFile (env : RestoreEnv τ) (file : Option SourceFile) : ExceptT ApiError (StateM SyncStore) Unit := do
  let s ← get
  match (SyncStore.restoreFrom env (file.getD .notADatabase)).exec s with
  | (.ok _, store) => set store
  | (.error e, store) =>
    set store
    throw (.store e)

def restoreBackup (crates : Crates) (env : RestoreEnv τ) (now : Instant) (headers : HeaderMap) (config : ServerConfig)
    (dir : ExportDir) (fileName : String) : ExceptT ApiError (StateM SyncStore) RestoreBackupResponse := do
  let _ ← liftExcept (requireSession crates now headers config)
  liftExcept (requireSameOrigin headers)
  let backupPath ← liftExcept (resolveBackupPath config.exportDir dir fileName)
  restoreFile env (dir.fileAt config.exportDir backupPath)
  return { fileName := trim fileName }

/-! ### Paths of files -/

section Paths

variable {dir : ExportDir} {exportDir p : PathBuf} {entry : DirEntry} {name fileName : String} {content : SourceFile}
  {len : Nat}

theorem ExportDir.fileAt_join (h : (PathBuf.mk name).isAbsolute = false) :
    dir.fileAt exportDir (exportDir.join ⟨name⟩) = some content ↔
      ∃ node, ⟨.text name, node⟩ ∈ dir.entries ∧ node.followed = some content := by
  have hpath : ∀ entry ∈ dir.entries, entry.path exportDir = some (exportDir.join ⟨name⟩) ↔ entry.name = .text name := by
    intro entry hentry
    unfold DirEntry.path
    split
    · rename_i other hother
      have habs := (dir.isName entry hentry other hother).isAbsolute
      rw [hother, Option.some.injEq, OsString.text.injEq]
      exact ⟨PathBuf.text_of_join_eq habs h, fun heq => by rw [heq]⟩
    · rename_i hother
      simp [hother]
  constructor
  · intro hfile
    obtain ⟨entry, hfind, hfollowed⟩ := Option.bind_eq_some_iff.1 hfile
    have hmem := List.mem_of_find?_eq_some hfind
    have hname := (hpath entry hmem).1 (by simpa using List.find?_some hfind)
    exact ⟨entry.node, hname ▸ hmem, hfollowed⟩
  · rintro ⟨node, hmem, hfollowed⟩
    have hsome : (dir.entries.find? fun entry => entry.path exportDir = some (exportDir.join ⟨name⟩)).isSome :=
      List.find?_isSome.2 ⟨_, hmem, by simpa using (hpath _ hmem).2 rfl⟩
    obtain ⟨entry, hfind⟩ := Option.isSome_iff_exists.1 hsome
    have hentry := List.mem_of_find?_eq_some hfind
    have hname := (hpath entry hentry).1 (by simpa using List.find?_some hfind)
    obtain rfl := List.inj_on_of_nodup_map dir.nodup hentry hmem hname
    exact Option.bind_eq_some_iff.2 ⟨_, hfind, hfollowed⟩

theorem resolveBackupPath_eq_ok : resolveBackupPath exportDir dir fileName = .ok p ↔
    p = exportDir.join ⟨trim fileName⟩ ∧
      ∃ node content, ⟨.text (trim fileName), node⟩ ∈ dir.entries ∧ node.followed = some content := by
  have hfile : (PathBuf.mk (trim fileName)).isAbsolute = false →
      ((dir.fileAt exportDir (exportDir.join ⟨trim fileName⟩)).isSome = true ↔
        ∃ node content, ⟨.text (trim fileName), node⟩ ∈ dir.entries ∧ node.followed = some content) := by
    intro h
    rw [Option.isSome_iff_exists, exists_comm]
    exact exists_congr fun content => ExportDir.fileAt_join h
  unfold resolveBackupPath
  simp only [bind_eq_ok, ensure_eq_ok]
  constructor
  · rintro ⟨_, hblank, h⟩
    split at h
    · rename_i c hcomponents
      obtain ⟨_, hsome, h⟩ := bind_eq_ok.1 h
      exact ⟨(Except.ok.inj h).symm, (hfile (PathBuf.isAbsolute_of_components hcomponents)).1 (ensure_eq_ok.1 hsome)⟩
    · cases h
  · rintro ⟨rfl, node, content, hmem, hfollowed⟩
    have hname := dir.isName _ hmem _ rfl
    refine ⟨(), fun hblank => ?_, ?_⟩
    · have hignorable := hname.not_ignorable
      rw [hblank] at hignorable
      exact absurd hignorable (by decide)
    · rw [hname.components]
      exact bind_eq_ok.2 ⟨(), ensure_eq_ok.2 ((hfile hname.isAbsolute).2 ⟨node, content, hmem, hfollowed⟩), rfl⟩

theorem listBackups_of_readable (dir : ExportDir) {crates : Crates} {now : Instant} {headers : HeaderMap}
    {config : ServerConfig} {claims : AdminSessionClaims}
    (hsession : requireSession crates now headers config = .ok claims) :
    ∃ backups, listBackups crates now headers config ⟨true, true, fun _ => true⟩ dir = .ok backups ∧
      ∀ backup, backup ∈ backups ↔ ∃ entry ∈ dir.entries, entry.backupEntry = some backup := by
  refine ⟨_, by rw [listBackups, hsession]; rfl, fun backup => ?_⟩
  rw [List.mem_insertionSort, List.mem_filterMap]
  simp

end Paths

/-- A path that is returned is that of a regular file in the directory, and a name that was listed is restored from
the file that it was listed for. -/
structure NamesResolve (crates : Crates) (env : RestoreEnv τ) (now : Instant) (headers : HeaderMap)
    (config : ServerConfig) (dir : ExportDir) : Prop where
  inside : ∀ fileName p, resolveBackupPath config.exportDir dir fileName = .ok p → ∃ name content len,
    ⟨.text name, .file content len⟩ ∈ dir.entries ∧ p = config.exportDir.join ⟨name⟩ ∧
      p.components = config.exportDir.components ++ [.normal name.toList]
  listed : ∀ listEnv backups, listBackups crates now headers config listEnv dir = .ok backups →
    ∀ name content len, ⟨.text name, .file content len⟩ ∈ dir.entries → ⟨name, len⟩ ∈ backups →
      resolveBackupPath config.exportDir dir name = .ok (config.exportDir.join ⟨name⟩) ∧
        ∀ s, exec (restoreBackup crates env now headers config dir name) s =
          exec (do restoreFile env (some content); return ⟨name⟩) s

/-- The name can be restored for the file that it stands for, and for nothing else. -/
def DirEntry.Resolvable (entry : DirEntry) : Prop := ∀ name, entry.name = .text name →
  match entry.node with
  | .file .. => trim name = name
  | .symlink target => target ≠ none → trim name ≠ name
  | .other => True

section Names

variable {crates : Crates} {env : RestoreEnv τ} {now : Instant} {headers : HeaderMap} {config : ServerConfig}
  {claims : AdminSessionClaims} {dir : ExportDir} {name : String} {content : SourceFile} {node : Node} {len : Nat}

theorem resolveBackupPath_self {exportDir : PathBuf} (hmem : ⟨.text name, node⟩ ∈ dir.entries)
    (hfollowed : node.followed = some content) (htrim : trim name = name) :
    resolveBackupPath exportDir dir name = .ok (exportDir.join ⟨name⟩) :=
  resolveBackupPath_eq_ok.2 ⟨by rw [htrim], node, content, by rwa [htrim], hfollowed⟩

theorem ExportDir.text_of_join_eq (dir : ExportDir) {exportDir : PathBuf} {other : String} {node' : Node}
    (hmem : ⟨.text name, node⟩ ∈ dir.entries) (hother : ⟨.text other, node'⟩ ∈ dir.entries)
    (h : exportDir.join ⟨name⟩ = exportDir.join ⟨other⟩) : name = other :=
  PathBuf.text_of_join_eq (dir.isName _ hmem _ rfl).isAbsolute (dir.isName _ hother _ rfl).isAbsolute h

theorem NamesResolve.resolvable (hsession : requireSession crates now headers config = .ok claims)
    (h : NamesResolve crates env now headers config dir) : ∀ entry ∈ dir.entries, entry.Resolvable := by
  rintro ⟨_, node⟩ hentry name rfl
  cases node with
  | file content len =>
    obtain ⟨backups, hlist, hmem⟩ := listBackups_of_readable dir hsession
    have hresolve := (h.listed _ _ hlist name content len hentry ((hmem _).2 ⟨_, hentry, rfl⟩)).1
    obtain ⟨hpath, _, _, htrimmed, -⟩ := resolveBackupPath_eq_ok.1 hresolve
    exact (dir.text_of_join_eq hentry htrimmed hpath).symm
  | symlink target =>
    -- the path of the link would be that of a file
    intro htarget htrim
    obtain ⟨content, rfl⟩ := Option.ne_none_iff_exists'.1 htarget
    obtain ⟨other, _, _, hfile, hpath, -⟩ := h.inside _ _ (resolveBackupPath_self hentry rfl htrim)
    obtain rfl := dir.text_of_join_eq hentry hfile hpath
    have heq := List.inj_on_of_nodup_map dir.nodup hentry hfile rfl
    cases heq
  | other => trivial

/-- The names that were listed are those of their files if and only if all names are resolvable. -/
theorem names_resolve_iff (hsession : requireSession crates now headers config = .ok claims)
    (horigin : requireSameOrigin headers = .ok ()) :
    NamesResolve crates env now headers config dir ↔ ∀ entry ∈ dir.entries, entry.Resolvable := by
  refine ⟨fun h => h.resolvable hsession, fun h => ⟨?_, ?_⟩⟩
  · intro fileName p hresolve
    obtain ⟨rfl, node, content, hmem, hfollowed⟩ := resolveBackupPath_eq_ok.1 hresolve
    have hresolvable := h _ hmem _ rfl
    cases node with
    | file content len => exact ⟨_, content, len, hmem, rfl, (dir.isName _ hmem _ rfl).components_join _⟩
    | symlink target => exact absurd (trim_trim fileName) (hresolvable (Option.ne_none_iff_exists'.2 ⟨_, hfollowed⟩))
    | other => cases hfollowed
  · intro listEnv backups _ name content len hmem _
    have htrim : trim name = name := h _ hmem _ rfl
    have hresolve : resolveBackupPath config.exportDir dir name = .ok (config.exportDir.join ⟨name⟩) :=
      resolveBackupPath_self hmem rfl htrim
    have hfile : dir.fileAt config.exportDir (config.exportDir.join ⟨name⟩) = some content :=
      (ExportDir.fileAt_join (dir.isName _ hmem _ rfl).isAbsolute).2 ⟨_, hmem, rfl⟩
    refine ⟨hresolve, fun s => ?_⟩
    rw [restoreBackup, hsession, horigin, hresolve, htrim]
    simp only [exec_bind, exec_liftExcept, hfile]

end Names

/-- The backup of a new store. -/
def newBackup : Node := .file (.database SyncStore.created.db) 4096

def oneBackup : ExportDir where
  entries := [⟨.text "daily.sqlite3", newBackup⟩]
  nodup := by simp
  isName := by
    rintro _ hentry name hname
    rw [List.mem_singleton.1 hentry, OsString.text.injEq] at hname
    subst hname
    exact ⟨by decide, by decide, by decide⟩

theorem names_resolve_oneBackup : NamesResolve sampleCrates (Sample.restoreEnv Sample.nine) sampleClaims.issuedAt
    sampleHeaders sampleConfig oneBackup := by
  refine (names_resolve_iff requireSession_sampleConfig requireSameOrigin_sample).2 fun entry hentry name hname => ?_
  obtain rfl := List.mem_singleton.1 hentry
  obtain rfl := OsString.text.inj hname
  show trim "daily.sqlite3" = "daily.sqlite3"
  decide

/-- Two files whose names differ in a space. -/
def twoBackups : ExportDir where
  entries := [⟨.text " daily.sqlite3", .file .notADatabase 12⟩, ⟨.text "daily.sqlite3", newBackup⟩]
  nodup := by simp
  isName := by
    rintro _ hentry name hname
    simp only [List.mem_cons, List.not_mem_nil, or_false] at hentry
    rcases hentry with rfl | rfl <;> rw [OsString.text.injEq] at hname <;> subst hname <;>
      exact ⟨by decide, by decide, by decide⟩

/-- The first one is listed, and asking for it restores the other one. -/
theorem spaced_name_resolves_elsewhere : (∃ backups,
    listBackups sampleCrates sampleClaims.issuedAt sampleHeaders sampleConfig ⟨true, true, fun _ => true⟩ twoBackups =
      .ok backups ∧ ⟨" daily.sqlite3", 12⟩ ∈ backups) ∧
    resolveBackupPath sampleConfig.exportDir twoBackups " daily.sqlite3" =
      .ok (sampleConfig.exportDir.join ⟨"daily.sqlite3"⟩) := by
  constructor
  · obtain ⟨backups, hlist, hmem⟩ := listBackups_of_readable twoBackups requireSession_sampleConfig
    exact ⟨backups, hlist, (hmem _).2 ⟨_, List.mem_cons_self .., rfl⟩⟩
  · have htrim : trim " daily.sqlite3" = "daily.sqlite3" := by decide
    refine resolveBackupPath_eq_ok.2 ⟨by rw [htrim], newBackup, _, ?_, rfl⟩
    rw [htrim]
    exact List.mem_cons_of_mem _ (List.mem_cons_self ..)

end FloralSync

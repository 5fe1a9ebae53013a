import FloralSync.Admin.Routes

/-!
# Calls of the admin UI (`lib/api.ts`)

A call goes out as a path with a query, which the browser takes apart as a URL and the server matches with its
routes. It arrives as the request that was meant, whatever characters it has, unless the id of a note is a dot
segment or, at the end of the path, empty or the name of a route (`arrives_iff`).
-/

namespace FloralSync

open Url

/-- A number of a page, which is written in decimal digits. -/
abbrev SafeInteger := Fin (2 ^ 53)

/-- `NotesQuery` of the UI -/
structure ClientNotesQuery where
  page : Option SafeInteger
  pageSize : Option SafeInteger
  search : Option String
  category : Option String
  state : Option NoteStateFilter

/-- The methods of `AdminApiClient`. -/
inductive ClientCall
  | getSession
  | login (password : String)
  | logout
  | bootstrap (password : String)
  | getOverview
  | listNotes (query : ClientNotesQuery)
  | getNoteDetail (id : String)
  | getNoteHistory (id : String)
  | downloadNote (id : String)
  | downloadNotesArchive (ids : List String)
  | getSettings
  | updateSettings (request : SettingsUpdateRequest)
  | resetSyncToken
  | restartServer
  | changePassword (request : PasswordChangeRequest)
  | createBackup
  | listBackups
  | restoreBackup (fileName : String)
  | readLogs (limit : Option SafeInteger)

/-- The entries that `withQuery` sets. -/
def presentParams (query : List (String × Option String)) : Params :=
  query.filterMap fun (key, value) => (value.filter (· ≠ "")).map (key, ·)

def withQuery (path : String) (query : List (String × Option String)) : String :=
  let queryString := Form.serialize (presentParams query)
  if queryString ≠ "" then path ++ "?" ++ queryString else path

namespace ClientCall

def adminApiPath : String := "/admin/api"

def encodeURIComponent : String → String := component.encodeText

def notesParams (query : ClientNotesQuery) : List (String × Option String) :=
  [("page", query.page.map (toString ·.val)), ("pageSize", query.pageSize.map (toString ·.val)),
   ("search", query.search), ("category", query.category), ("state", query.state.map NoteStateFilter.sqlValue)]

def method : ClientCall → Method
  | login _ | logout | bootstrap _ | updateSettings _ | resetSyncToken | restartServer | changePassword _
  | createBackup | restoreBackup _ => .post
  | _ => .get

def path : ClientCall → String
  | getSession => "/admin/api/session"
  | login _ => "/login"
  | logout => "/logout"
  | bootstrap _ => adminApiPath ++ "/bootstrap"
  | getOverview => adminApiPath ++ "/overview"
  | listNotes query => withQuery (adminApiPath ++ "/notes") (notesParams query)
  | getNoteDetail id => adminApiPath ++ "/notes/" ++ encodeURIComponent id
  | getNoteHistory id => adminApiPath ++ "/notes/" ++ encodeURIComponent id ++ "/history"
  | downloadNote id => adminApiPath ++ "/notes/" ++ encodeURIComponent id ++ "/download"
  | downloadNotesArchive ids => withQuery (adminApiPath ++ "/notes/download.zip") [("ids", (archiveQuery ids).ids)]
  | getSettings => adminApiPath ++ "/settings"
  | updateSettings _ => adminApiPath ++ "/settings"
  | resetSyncToken => adminApiPath ++ "/settings/token/reset"
  | restartServer => adminApiPath ++ "/settings/restart"
  | changePassword _ => adminApiPath ++ "/settings/password"
  | createBackup => adminApiPath ++ "/maintenance/backup"
  | listBackups => adminApiPath ++ "/maintenance/backups"
  | restoreBackup _ => adminApiPath ++ "/maintenance/restore"
  | readLogs limit => withQuery (adminApiPath ++ "/logs") [("limit", limit.map (toString ·.val))]

def body : ClientCall → Body
  | login password => .password password
  | bootstrap password => .password password
  | updateSettings request => .settings request
  | changePassword request => .passwordChange request
  | restoreBackup fileName => .fileName fileName
  | _ => .empty

/-- What the server gets of a call. -/
def arrives (lookup : Lookup) (lossy : List UInt8 → String) (call : ClientCall) : Option AdminRequest :=
  receive lookup lossy call.method (requestTarget call.path) call.body

/-- What is meant by a call. -/
def request : ClientCall → AdminRequest
  | getSession => .sessionStatus
  | login password => .login password
  | logout => .logout
  | bootstrap password => .bootstrap password
  | getOverview => .overview
  | listNotes query =>
    .notes { page := query.page.map (·.val)
             pageSize := query.pageSize.map (·.val)
             search := query.search.filter (· ≠ "")
             category := query.category.filter (· ≠ "")
             state := query.state.map NoteStateFilter.sqlValue }
  | getNoteDetail id => .noteDetail id
  | getNoteHistory id => .noteHistory id
  | downloadNote id => .noteDownload id
  | downloadNotesArchive ids => .notesArchiveDownload (archiveQuery ids)
  | getSettings => .settings
  | updateSettings request => .updateSettings request
  | resetSyncToken => .resetSyncToken
  | restartServer => .restartService
  | changePassword request => .changePassword request
  | createBackup => .createBackup
  | listBackups => .listBackups
  | restoreBackup fileName => .restoreBackup fileName
  | readLogs limit => .readLogs (limit.map (·.val))

/-- The ids of notes that keep their place in a path. -/
def Routable : ClientCall → Prop
  | getNoteDetail id => id ∉ ["", ".", "..", "download.zip"]
  | getNoteHistory id | downloadNote id => id ∉ [".", ".."]
  | _ => True

end ClientCall

section Params

variable {query : List (String × Option String)} {name : String} {value : Option String} {params : Params}

theorem presentParams_cons (entry : String × Option String) :
    presentParams (entry :: query) = ((entry.2.filter (· ≠ "")).map (entry.1, ·)).toList ++ presentParams query := by
  obtain ⟨key, value⟩ := entry
  rw [presentParams, List.filterMap_cons]
  dsimp only
  cases value.filter (· ≠ "") <;> rfl

theorem filter_presentParams_of_notMem (h : name ∉ query.map Prod.fst) :
    (presentParams query).filter (·.1 = name) = [] := by
  refine List.filter_eq_nil_iff.2 fun param hparam => ?_
  obtain ⟨⟨key, value⟩, hentry, hvalue⟩ := List.mem_filterMap.1 hparam
  obtain ⟨v, -, rfl⟩ := Option.map_eq_some_iff.1 hvalue
  simpa using fun heq : key = name => h (heq ▸ List.mem_map_of_mem hentry)

theorem filter_presentParams (hnodup : (query.map Prod.fst).Nodup) (hmem : (name, value) ∈ query) :
    (presentParams query).filter (·.1 = name) = ((value.filter (· ≠ "")).map (name, ·)).toList := by
  induction query with
  | nil => cases hmem
  | cons entry query ih =>
    obtain ⟨hnotMem, hnodup⟩ := List.nodup_cons.1 hnodup
    rw [presentParams_cons, List.filter_append]
    rcases List.mem_cons.1 hmem with rfl | hmem
    · rw [filter_presentParams_of_notMem hnotMem, List.append_nil]
      cases value.filter (· ≠ "") <;> simp
    · have hkey : entry.1 ≠ name := fun heq => hnotMem (heq ▸ List.mem_map_of_mem hmem)
      rw [ih hnodup hmem]
      cases entry.2.filter (· ≠ "") <;> simp [hkey]

theorem field_presentParams (hnodup : (query.map Prod.fst).Nodup) (hmem : (name, value) ∈ query) :
    (presentParams query).field name = some (value.filter (· ≠ "")) := by
  rw [Params.field, filter_presentParams hnodup hmem]
  cases value.filter (· ≠ "") <;> rfl

theorem field_presentParams_of_notMem (h : name ∉ query.map Prod.fst) :
    (presentParams query).field name = some none := by
  rw [Params.field, filter_presentParams_of_notMem h]

theorem parseU64_toString {n : Nat} (h : n < 2 ^ 64) : parseU64 (toString n) = some n := by
  have hdigits : (toString n).toList = Nat.toDigits 10 n := by rw [Nat.toString_eq_repr, Nat.toList_repr]
  have hall : ∀ c ∈ Nat.toDigits 10 n, c.isDigit = true := fun _ hc =>
    Nat.isDigit_of_mem_toDigits (by decide) (by decide) hc
  have hne : Nat.toDigits 10 n ≠ [] := Nat.toDigits_ne_nil
  have hvalue : Nat.ofDigitChars 10 (Nat.toDigits 10 n) 0 = n := Nat.ofDigitChars_ten_toDigits
  unfold parseU64
  rw [hdigits]
  split
  · rename_i cs hcs
    rw [hcs] at hall
    exact absurd (hall '+' List.mem_cons_self) (by decide)
  · have hdigit : (Nat.toDigits 10 n).all Char.isDigit = true := List.all_eq_true.2 hall
    dsimp only
    rw [hvalue, hdigit, if_neg (not_or.2 ⟨hne, not_or.2 ⟨by decide, by omega⟩⟩)]

theorem number_presentParams {n : Option SafeInteger} (hnodup : (query.map Prod.fst).Nodup)
    (hmem : (name, n.map (toString ·.val)) ∈ query) :
    (presentParams query).number name = some (n.map (·.val)) := by
  have hfield := field_presentParams hnodup hmem
  rw [Params.number, hfield]
  cases n with
  | none => rfl
  | some n =>
    rw [Option.map_some, Option.filter_some, if_pos (by simp)]
    show (do return some (← parseU64 (toString n.val))) = _
    rw [parseU64_toString (n.isLt.trans (by decide))]
    rfl

end Params

/-! ### Paths -/

namespace ClientCall

def segments : ClientCall → List String
  | getSession => ["admin", "api", "session"]
  | login _ => ["login"]
  | logout => ["logout"]
  | bootstrap _ => ["admin", "api", "bootstrap"]
  | getOverview => ["admin", "api", "overview"]
  | listNotes _ => ["admin", "api", "notes"]
  | getNoteDetail id => ["admin", "api", "notes", encodeURIComponent id]
  | getNoteHistory id => ["admin", "api", "notes", encodeURIComponent id, "history"]
  | downloadNote id => ["admin", "api", "notes", encodeURIComponent id, "download"]
  | downloadNotesArchive _ => ["admin", "api", "notes", "download.zip"]
  | getSettings => ["admin", "api", "settings"]
  | updateSettings _ => ["admin", "api", "settings"]
  | resetSyncToken => ["admin", "api", "settings", "token", "reset"]
  | restartServer => ["admin", "api", "settings", "restart"]
  | changePassword _ => ["admin", "api", "settings", "password"]
  | createBackup => ["admin", "api", "maintenance", "backup"]
  | listBackups => ["admin", "api", "maintenance", "backups"]
  | restoreBackup _ => ["admin", "api", "maintenance", "restore"]
  | readLogs _ => ["admin", "api", "logs"]

def query : ClientCall → List (String × Option String)
  | listNotes query => notesParams query
  | downloadNotesArchive ids => [("ids", (archiveQuery ids).ids)]
  | readLogs limit => [("limit", limit.map (toString ·.val))]
  | _ => []

def queryString (params : Params) : Option String := if params = [] then none else some (Form.serialize params)

theorem toList_withQuery (path : String) (query : List (String × Option String)) :
    (withQuery path query).toList =
      path.toList ++ (queryString (presentParams query)).elim [] fun q => '?' :: q.toList := by
  unfold withQuery queryString
  by_cases hempty : presentParams query = []
  · simp [hempty, Form.serialize]
  · have hne : Form.serialize (presentParams query) ≠ "" := mt Form.serialize_eq_empty.1 hempty
    simp [hempty, hne]

theorem toList_path (call : ClientCall) : call.path.toList =
    ['/'].intercalate ([] :: call.segments.map String.toList) ++
      (queryString (presentParams call.query)).elim [] fun q => '?' :: q.toList := by
  cases call
  case listNotes | downloadNotesArchive | readLogs =>
    rw [path, toList_withQuery]
    simp [segments, query, adminApiPath, List.intercalate]
  all_goals simp [path, segments, query, presentParams, queryString, adminApiPath, List.intercalate]

/-- The id of a note that goes into the path. -/
def noteId : ClientCall → Option String
  | getNoteDetail id | getNoteHistory id | downloadNote id => some id
  | _ => none

/-- The segments that are no ids. -/
def segmentTexts : List String :=
  ["login", "logout", "admin", "api", "session", "bootstrap", "overview", "notes", "history", "download",
   "download.zip", "settings", "token", "reset", "restart", "password", "maintenance", "backup", "backups", "restore",
   "logs"]

theorem mem_segments (call : ClientCall) : ∀ segment ∈ call.segments, segment ∈ segmentTexts ∨
    ∃ id, call.noteId = some id ∧ segment = encodeURIComponent id := by
  cases call <;> simp [segments, segmentTexts, noteId]

theorem segmentTexts_spec : ∀ text ∈ segmentTexts, text.toList.all (SegmentChar ·) = true ∧
    isDoubleDot text = false ∧ isSingleDot text = false := by decide +kernel

theorem segmentChar_segments (call : ClientCall) :
    ∀ segment ∈ call.segments, ∀ c ∈ segment.toList, SegmentChar c := by
  intro segment hsegment
  rcases mem_segments call segment hsegment with htext | ⟨id, -, rfl⟩
  · exact forall_mem_of_all (segmentTexts_spec segment htext).1
  · exact segmentChar_component

theorem requestTarget_path (call : ClientCall) : requestTarget call.path =
    (removeDotSegments [] call.segments, queryString (presentParams call.query)) := by
  refine requestTarget_eq call.segmentChar_segments (fun q hq => ?_) call.toList_path
  rw [queryString] at hq
  split_ifs at hq
  · cases hq
  · obtain rfl := Option.some.inj hq
    exact inQuerySet_serialize

/-- The pattern of the route that a call is meant for. -/
def pattern : ClientCall → Pattern
  | getNoteDetail _ => Route.api [.text "notes", .param]
  | getNoteHistory _ => Route.api [.text "notes", .param, .text "history"]
  | downloadNote _ => Route.api [.text "notes", .param, .text "download"]
  | call => call.segments.map .text

def captured : ClientCall → List String
  | getNoteDetail id | getNoteHistory id | downloadNote id => [encodeURIComponent id]
  | _ => []

section Arrives

variable {lookup : Lookup} {lossy : List UInt8 → String} {id : String}

theorem encodeURIComponent_ne {text : String} (h : id ≠ text) (htext : encodeURIComponent text = text) :
    encodeURIComponent id ≠ text :=
  fun heq => h (component.encodeText_injective (heq.trans htext.symm))

theorem encodeURIComponent_downloadZip : encodeURIComponent "download.zip" = "download.zip" := by decide +kernel

theorem lookup_detail (h : lookup.Documented) (hne : encodeURIComponent id ≠ "")
    (hzip : encodeURIComponent id ≠ "download.zip") :
    lookup (routes.map Route.pattern) ["admin", "api", "notes", encodeURIComponent id] =
      some (Route.api [.text "notes", .param], [encodeURIComponent id]) := by
  refine h.eq_some (by simp [routes, Route.withNoteId]) ?_ ?_
  · simp [Route.api, Pattern.captures, hne]
  · simp [routes, Route.api, Route.plain, Route.page, Route.withPassword, Route.withNoteId, Pattern.captures, hne, hzip]

theorem lookup_noteId (h : lookup.Documented) (id : String) {text : String} (htext : text ∈ ["history", "download"]) :
    lookup (routes.map Route.pattern) ["admin", "api", "notes", encodeURIComponent id, text] =
      some (Route.api [.text "notes", .param, .text text], [encodeURIComponent id]) := by
  have hcases : text = "history" ∨ text = "download" := by simpa using htext
  rcases hcases with rfl | rfl
  all_goals
    refine h.eq_some (by simp [routes, Route.withNoteId]) ?_ ?_
    · simp [Route.api, Pattern.captures]
    · simp [routes, Route.api, Route.plain, Route.page, Route.withPassword, Route.withNoteId, Pattern.captures]

theorem lookup_segments (h : lookup.Documented) (call : ClientCall) (hroutable : call.Routable) :
    lookup (routes.map Route.pattern) call.segments = some (call.pattern, call.captured) := by
  cases call with
  | getNoteDetail id =>
    have hempty : encodeURIComponent "" = "" := rfl
    have hid : id ≠ "" ∧ id ≠ "." ∧ id ≠ ".." ∧ id ≠ "download.zip" := by simpa [Routable] using hroutable
    exact lookup_detail h (encodeURIComponent_ne hid.1 hempty)
      (encodeURIComponent_ne hid.2.2.2 encodeURIComponent_downloadZip)
  | getNoteHistory id => exact lookup_noteId h id List.mem_cons_self
  | downloadNote id => exact lookup_noteId h id (List.mem_cons_of_mem _ List.mem_cons_self)
  | _ =>
    dsimp only [segments, pattern, captured]
    exact h.eq_some (by decide +kernel) (by decide +kernel) (by decide +kernel)

theorem removeDotSegments_eq_self {segments : List String}
    (h : ∀ segment ∈ segments, isDoubleDot segment = false ∧ isSingleDot segment = false) :
    removeDotSegments [] segments = segments := by
  have happend : removeDotSegments [] (segments ++ []) = removeDotSegments ([] ++ segments) [] :=
    removeDotSegments_append h []
  rwa [List.append_nil] at happend

theorem ne_dot_of_routable {call : ClientCall} (hid : call.noteId = some id) (hroutable : call.Routable) :
    id ≠ ".." ∧ id ≠ "." := by
  cases call with
  | getNoteDetail | getNoteHistory | downloadNote =>
    obtain rfl := Option.some.inj hid
    simp only [Routable, List.mem_cons, not_or] at hroutable
    tauto
  | _ => cases hid

theorem removeDotSegments_segments (call : ClientCall) (hroutable : call.Routable) :
    removeDotSegments [] call.segments = call.segments := by
  refine removeDotSegments_eq_self fun segment hsegment => ?_
  rcases mem_segments call segment hsegment with htext | ⟨id, hid, rfl⟩
  · exact (segmentTexts_spec segment htext).2
  · obtain ⟨hdouble, hsingle⟩ := ne_dot_of_routable hid hroutable
    exact ⟨Bool.eq_false_iff.2 (mt isDoubleDot_component.1 hdouble),
      Bool.eq_false_iff.2 (mt isSingleDot_component.1 hsingle)⟩

theorem parse_queryString (hlossy : ∀ s, lossy (utf8 s) = s) (params : Params) :
    Form.parse lossy ((queryString params).getD "") = params := by
  rw [queryString]
  split_ifs with hempty
  · rw [hempty]
    rfl
  · exact Form.parse_serialize hlossy params

theorem arrives_of_lookup {call : ClientCall} {pattern : Pattern} {params : List String}
    (h : lookup (routes.map Route.pattern) (removeDotSegments [] call.segments) = some (pattern, params))
    (hlossy : ∀ s, lossy (utf8 s) = s) : call.arrives lookup lossy =
      (routes.find? fun route => route.pattern = pattern ∧ route.method = call.method).bind fun route =>
        (params.mapM component.decodeText).bind fun ids =>
          route.request ids (presentParams call.query) call.body := by
  rw [arrives, receive, requestTarget_path]
  dsimp only
  rw [h, parse_queryString hlossy]
  rfl

theorem notesQuery_notesParams (query : ClientNotesQuery) : (presentParams (notesParams query)).notesQuery =
    some { page := query.page.map (·.val)
           pageSize := query.pageSize.map (·.val)
           search := query.search.filter (· ≠ "")
           category := query.category.filter (· ≠ "")
           state := query.state.map NoteStateFilter.sqlValue } := by
  have hnodup : ((notesParams query).map Prod.fst).Nodup := by
    show ["page", "pageSize", "search", "category", "state"].Nodup
    simp
  have hstate : (query.state.map NoteStateFilter.sqlValue).filter (· ≠ "") =
      query.state.map NoteStateFilter.sqlValue := by
    rcases query.state with _ | _ | _ | _ <;> rfl
  have hsearch : ("search", query.search) ∈ notesParams query := by simp [notesParams]
  have hcategory : ("category", query.category) ∈ notesParams query := by simp [notesParams]
  have hmem : ("state", query.state.map NoteStateFilter.sqlValue) ∈ notesParams query := by simp [notesParams]
  rw [Params.notesQuery, number_presentParams hnodup (n := query.page) (by simp [notesParams]),
    number_presentParams hnodup (n := query.pageSize) (by simp [notesParams]), field_presentParams hnodup hsearch,
    field_presentParams hnodup hcategory, field_presentParams hnodup hmem, hstate]
  rfl

theorem filter_ids_archiveQuery (ids : List String) :
    (archiveQuery ids).ids.filter (· ≠ "") = (archiveQuery ids).ids := by
  rw [archiveQuery]
  split_ifs with hsent
  · cases hids : (ids.map jsTrim).filter (· ≠ "") with
    | nil => exact absurd hids hsent
    | cons id rest =>
      have hmem : id ∈ (ids.map jsTrim).filter (· ≠ "") := hids ▸ List.mem_cons_self
      have hid : id ≠ "" := by simpa using (List.mem_filter.1 hmem).2
      have hne : ",".intercalate (id :: rest) ≠ "" := by
        rw [Ne, ← String.toList_inj, String.toList_intercalate]
        cases rest <;> simp [List.intercalate, hid]
      simp [hne]
  · rfl

theorem noteArchiveQuery_archiveQuery (ids : List String) :
    (presentParams [("ids", (archiveQuery ids).ids)]).noteArchiveQuery = some (archiveQuery ids) := by
  have hid : (presentParams [("ids", (archiveQuery ids).ids)]).field "id" = some none :=
    field_presentParams_of_notMem (by simp)
  have hids : (presentParams [("ids", (archiveQuery ids).ids)]).field "ids" =
      some ((archiveQuery ids).ids.filter (· ≠ "")) := field_presentParams (by simp) List.mem_cons_self
  rw [filter_ids_archiveQuery] at hids
  rw [Params.noteArchiveQuery, hid, hids]
  rfl

theorem arrives_noteId {pattern : Pattern} {request : String → AdminRequest} {params : Params} {body : Body}
    (hfind : (routes.find? fun route => route.pattern = pattern ∧ route.method = .get) =
      some (Route.withNoteId pattern request)) :
    ((routes.find? fun route => route.pattern = pattern ∧ route.method = .get).bind fun route =>
      ([encodeURIComponent id].mapM component.decodeText).bind fun ids => route.request ids params body) =
        some (request id) := by
  have hid : [encodeURIComponent id].mapM component.decodeText = some [id] := by simp [encodeURIComponent]
  rw [hfind, hid]
  rfl

theorem arrives_eq_request (h : lookup.Documented) (hlossy : ∀ s, lossy (utf8 s) = s) (call : ClientCall)
    (hroutable : call.Routable) : call.arrives lookup lossy = some call.request := by
  have hsegments := lookup_segments h call hroutable
  rw [← removeDotSegments_segments call hroutable] at hsegments
  rw [arrives_of_lookup hsegments hlossy]
  cases call with
  | listNotes query =>
    show AdminRequest.notes <$> (presentParams (notesParams query)).notesQuery = _
    rw [notesQuery_notesParams]
    rfl
  | downloadNotesArchive ids =>
    show AdminRequest.notesArchiveDownload <$> (presentParams [("ids", (archiveQuery ids).ids)]).noteArchiveQuery = _
    rw [noteArchiveQuery_archiveQuery]
    rfl
  | readLogs limit =>
    show AdminRequest.readLogs <$> (presentParams [("limit", limit.map (toString ·.val))]).number "limit" = _
    rw [number_presentParams (by simp) List.mem_cons_self]
    rfl
  | getNoteDetail id => exact arrives_noteId rfl
  | getNoteHistory id => exact arrives_noteId rfl
  | downloadNote id => exact arrives_noteId rfl
  | _ => rfl

theorem arrives_eq_none (h : lookup.Documented) {call : ClientCall}
    (hnone : ∀ pattern ∈ routes.map Route.pattern, pattern.captures (removeDotSegments [] call.segments) = none) :
    call.arrives lookup lossy = none := by
  rw [arrives, receive, requestTarget_path]
  dsimp only
  rw [h.eq_none hnone]
  rfl

/-- A dot segment leaves what follows the id in its place. -/
theorem arrives_dot (h : lookup.Documented) (hlossy : ∀ s, lossy (utf8 s) = s) {call : ClientCall} {text : String}
    (hsegments : removeDotSegments [] call.segments = ["admin", "api", "notes", encodeURIComponent text])
    (hmethod : call.method = .get) (htext : text ∈ ["history", "download"]) :
    call.arrives lookup lossy = some (.noteDetail text) := by
  have hne : ∀ text ∈ ["history", "download"], text ≠ "" ∧ text ≠ "download.zip" := by simp
  have hlookup := lookup_detail h (encodeURIComponent_ne (hne text htext).1 rfl)
    (encodeURIComponent_ne (hne text htext).2 encodeURIComponent_downloadZip)
  rw [← hsegments] at hlookup
  rw [arrives_of_lookup hlookup hlossy, hmethod]
  exact arrives_noteId rfl

theorem arrives_downloadZip (h : lookup.Documented) (hlossy : ∀ s, lossy (utf8 s) = s) :
    (getNoteDetail "download.zip").arrives lookup lossy = some (.notesArchiveDownload { id := [], ids := none }) := by
  have hsegments : (getNoteDetail "download.zip").segments = (downloadNotesArchive []).segments := by
    rw [segments, encodeURIComponent_downloadZip]
    rfl
  have hlookup := lookup_segments h (downloadNotesArchive []) trivial
  rw [← removeDotSegments_segments (downloadNotesArchive []) trivial, ← hsegments] at hlookup
  rw [arrives_of_lookup hlookup hlossy]
  rfl

theorem arrives_below (h : lookup.Documented) (hlossy : ∀ s, lossy (utf8 s) = s) {call : ClientCall} {text : String}
    (hsegments : call.segments = ["admin", "api", "notes", encodeURIComponent id, text]) (hmethod : call.method = .get)
    (htext : text ∈ ["history", "download"]) (hid : id ∈ [".", ".."]) :
    call.arrives lookup lossy = none ∨ call.arrives lookup lossy = some (.noteDetail text) := by
  have hcases : text = "history" ∨ text = "download" := by simpa using htext
  simp only [List.mem_cons, List.not_mem_nil, or_false] at hid
  rcases hid with rfl | rfl
  · refine .inr (arrives_dot h hlossy ?_ hmethod htext)
    rw [hsegments]
    rcases hcases with rfl | rfl <;> decide +kernel
  · refine .inl (arrives_eq_none h ?_)
    rw [hsegments]
    rcases hcases with rfl | rfl <;> decide +kernel

theorem arrives_of_not_routable (h : lookup.Documented) (hlossy : ∀ s, lossy (utf8 s) = s) (call : ClientCall)
    (hroutable : ¬call.Routable) : call.arrives lookup lossy = none ∨
      (∃ text ∈ ["history", "download"], call.arrives lookup lossy = some (.noteDetail text)) ∨
      call.arrives lookup lossy = some (.notesArchiveDownload { id := [], ids := none }) := by
  cases call with
  | getNoteDetail id =>
    have hid : id ∈ ["", ".", "..", "download.zip"] := not_not.1 hroutable
    simp only [List.mem_cons, List.not_mem_nil, or_false] at hid
    rcases hid with rfl | rfl | rfl | rfl
    · exact .inl (arrives_eq_none h (by decide +kernel))
    · exact .inl (arrives_eq_none h (by decide +kernel))
    · exact .inl (arrives_eq_none h (by decide +kernel))
    · exact .inr (.inr (arrives_downloadZip h hlossy))
  | getNoteHistory id =>
    have hbelow := @arrives_below lookup lossy id h hlossy (.getNoteHistory id) "history" rfl rfl List.mem_cons_self
      (not_not.1 hroutable)
    exact hbelow.imp_right fun hother => .inl ⟨"history", List.mem_cons_self, hother⟩
  | downloadNote id =>
    have hdownload : "download" ∈ ["history", "download"] := List.mem_cons_of_mem _ List.mem_cons_self
    have hbelow := @arrives_below lookup lossy id h hlossy (.downloadNote id) "download" rfl rfl hdownload
      (not_not.1 hroutable)
    exact hbelow.imp_right fun hother => .inl ⟨"download", hdownload, hother⟩
  | _ => exact absurd trivial hroutable

theorem request_of_not_routable (call : ClientCall) (hroutable : ¬call.Routable) :
    (∀ text ∈ ["history", "download"], call.request ≠ .noteDetail text) ∧
      ∀ query, call.request ≠ .notesArchiveDownload query := by
  cases call with
  | getNoteDetail id =>
    refine ⟨fun text htext heq => ?_, nofun⟩
    obtain rfl : id = text := AdminRequest.noteDetail.inj heq
    have hother : ∀ text ∈ ["history", "download"], text ∉ ["", ".", "..", "download.zip"] := by simp
    exact hother id htext (not_not.1 hroutable)
  | getNoteHistory id | downloadNote id => exact ⟨nofun, nofun⟩
  | _ => exact absurd trivial hroutable

/-- A call arrives as the request that is meant exactly if the id it has keeps its place. -/
theorem arrives_iff (h : lookup.Documented) (hlossy : ∀ s, lossy (utf8 s) = s) (call : ClientCall) :
    call.arrives lookup lossy = some call.request ↔ call.Routable := by
  refine ⟨fun harrives => ?_, arrives_eq_request h hlossy call⟩
  by_contra hroutable
  obtain ⟨hdetail, harchive⟩ := request_of_not_routable call hroutable
  obtain hnone | ⟨text, htext, hother⟩ | hother := arrives_of_not_routable h hlossy call hroutable
  · rw [hnone] at harrives
    cases harrives
  · rw [hother] at harrives
    exact hdetail text htext (Option.some.inj harrives).symm
  · rw [hother] at harrives
    exact harchive _ (Option.some.inj harrives).symm

end Arrives

/-- An id with a space, a slash and a question mark keeps its place, and a dot segment does not. -/
theorem arrives_iff_history :
    let lossy := fun bytes => (ofUtf8 bytes).getD ""
    ((getNoteHistory "a b/c?").arrives mostSpecific lossy = some (.noteHistory "a b/c?") ↔
        (getNoteHistory "a b/c?").Routable) ∧
      ((getNoteHistory ".").arrives mostSpecific lossy = some (.noteHistory ".") ↔ (getNoteHistory ".").Routable) := by
  have hlossy : ∀ s, (ofUtf8 (utf8 s)).getD "" = s := fun s => by rw [ofUtf8_utf8, Option.getD_some]
  exact ⟨arrives_iff documented_mostSpecific hlossy _, arrives_iff documented_mostSpecific hlossy _⟩

end ClientCall
end FloralSync

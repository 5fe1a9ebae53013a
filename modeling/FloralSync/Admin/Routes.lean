import Mathlib.Data.List.MinMax
import FloralSync.Server.Requests
import FloralSync.Url

/-!
# Routes of the admin API (`admin_api.rs`)

A path goes to the most specific of the patterns that it matches (`Documented.eq_some`), and what the pattern
captures, the query and the body make the request of a handler.
-/

namespace FloralSync

open Url

/-- A segment of a pattern. -/
inductive Segment
  | text (s : String)
  | param
  | catchAll
deriving DecidableEq

abbrev Pattern := List Segment

namespace Pattern

/-- The values of the parameters, if the path matches. -/
def captures : Pattern → List String → Option (List String)
  | [], [] => some []
  | [.catchAll], segments =>
    let rest := "/".intercalate segments
    if rest = "" then none else some [rest]
  | .text s :: pattern, segment :: segments => if segment = s then captures pattern segments else none
  -- what a parameter matches may be empty, unless the path ends there
  | .param :: pattern, segment :: segments =>
    if segment = "" ∧ pattern = [] then none else (captures pattern segments).map (segment :: ·)
  | _, _ => none

/-- A text goes before a parameter, and that before what catches all. -/
def isMoreSpecific : Pattern → Pattern → Bool
  | .text _ :: _, .param :: _ => true
  | .text _ :: _, .catchAll :: _ => true
  | .param :: _, .catchAll :: _ => true
  | a :: p, b :: q => a = b && isMoreSpecific p q
  | _, _ => false

end Pattern

/-- The crate that matches a path with patterns, and gives the values of their parameters. -/
abbrev Lookup := List Pattern → List String → Option (Pattern × List String)

structure Lookup.Documented (lookup : Lookup) : Prop where
  some_of : ∀ {patterns path pattern params}, lookup patterns path = some (pattern, params) → pattern ∈ patterns ∧
    pattern.captures path = some params ∧
    ∀ other ∈ patterns, other.captures path ≠ none → other.isMoreSpecific pattern = false
  none_of : ∀ {patterns path}, lookup patterns path = none → ∀ pattern ∈ patterns, pattern.captures path = none

section Lookup

variable {lookup : Lookup} {patterns : List Pattern} {pattern : Pattern} {path params : List String}

theorem Lookup.Documented.eq_some (h : lookup.Documented) (hmem : pattern ∈ patterns)
    (hcaptures : pattern.captures path = some params)
    (hbest : ∀ other ∈ patterns, other = pattern ∨ other.captures path = none ∨ pattern.isMoreSpecific other = true) :
    lookup patterns path = some (pattern, params) := by
  cases hlookup : lookup patterns path with
  | none =>
    have hnone := h.none_of hlookup pattern hmem
    rw [hcaptures] at hnone
    cases hnone
  | some found =>
    obtain ⟨other, params'⟩ := found
    obtain ⟨hother, hcaptured, hspecific⟩ := h.some_of hlookup
    rcases hbest other hother with rfl | hnone | hmore
    · rw [hcaptures] at hcaptured
      rw [Option.some.inj hcaptured]
    · rw [hnone] at hcaptured
      cases hcaptured
    · have hless := hspecific pattern hmem (by simp [hcaptures])
      rw [hmore] at hless
      cases hless

theorem Lookup.Documented.eq_none (h : lookup.Documented) (hnone : ∀ pattern ∈ patterns, pattern.captures path = none) :
    lookup patterns path = none := by
  cases hlookup : lookup patterns path with
  | none => rfl
  | some found =>
    obtain ⟨hmem, hcaptured, -⟩ := h.some_of hlookup
    rw [hnone _ hmem] at hcaptured
    cases hcaptured

/-- What orders patterns, the more specific ones first. -/
def Pattern.rank (pattern : Pattern) : List Nat := pattern.map fun
  | .text _ => 0
  | .param => 1
  | .catchAll => 2

theorem Pattern.rank_lt {p q : Pattern} (h : p.isMoreSpecific q = true) : p.rank < q.rank := by
  induction p generalizing q with
  | nil => cases q <;> cases h
  | cons a p ih =>
    cases q with
    | nil => cases a <;> cases h
    | cons b q =>
      rcases eq_or_ne a b with rfl | hne
      · have htail : isMoreSpecific p q = true := by cases a <;> simpa [isMoreSpecific] using h
        exact List.cons_lt_cons_iff.2 (.inr ⟨rfl, ih htail⟩)
      · refine List.cons_lt_cons_iff.2 (.inl ?_)
        cases a <;> cases b <;> simp_all [isMoreSpecific]

/-- The most specific pattern that a path matches. -/
def mostSpecific : Lookup := fun patterns path =>
  (patterns.filterMap fun pattern => (pattern.captures path).map (pattern, ·)).argmin (·.1.rank)

theorem documented_mostSpecific : mostSpecific.Documented where
  some_of {patterns path pattern params} h := by
    obtain ⟨found, hmem, hfound⟩ := List.mem_filterMap.1 (List.argmin_mem h)
    obtain ⟨params', hcaptures, heq⟩ := Option.map_eq_some_iff.1 hfound
    obtain ⟨rfl, rfl⟩ := Prod.mk.inj heq
    refine ⟨hmem, hcaptures, fun other hother hmatches => ?_⟩
    obtain ⟨captured, hcaptured⟩ := Option.ne_none_iff_exists'.1 hmatches
    have hcandidate : (other, captured) ∈ patterns.filterMap fun pattern => (pattern.captures path).map (pattern, ·) :=
      List.mem_filterMap.2 ⟨other, hother, by rw [hcaptured]; rfl⟩
    exact Bool.eq_false_iff.2 fun hmore => List.not_lt_of_mem_argmin hcandidate h (Pattern.rank_lt hmore)
  none_of h pattern hpattern := by
    have hnil := List.argmin_eq_none.1 h
    simpa using List.filterMap_eq_nil_iff.1 hnil pattern hpattern

end Lookup

inductive Method
  | get
  | post
deriving DecidableEq

/-- The bodies that are sent, once they are read. -/
inductive Body
  | empty
  | password (password : String)
  | settings (request : SettingsUpdateRequest)
  | passwordChange (request : PasswordChangeRequest)
  | fileName (fileName : String)

/-- `u64::from_str`, and `usize::from_str` where it has 64 bits -/
def parseU64 (s : String) : Option Nat :=
  let digits : List Char := match s.toList with
    | '+' :: cs => cs
    | cs => cs
  let value := Nat.ofDigitChars 10 digits 0
  if digits = [] ∨ !digits.all Char.isDigit ∨ 2 ^ 64 ≤ value then none else some value

/-- A query, as names and values. -/
abbrev Params := List (String × String)

namespace Params

/-- A field that may be missing, but is not there twice. -/
def field (params : Params) (name : String) : Option (Option String) :=
  match params.filter (·.1 = name) with
  | [] => some none
  | [(_, value)] => some (some value)
  | _ => none

def number (params : Params) (name : String) : Option (Option Nat) := do
  match ← params.field name with
  | none => return none
  | some value => return some (← parseU64 value)

/-- `Query<NotesQuery>` -/
def notesQuery (params : Params) : Option AdminApi.NotesQuery := do
  return { page := ← params.number "page"
           pageSize := ← params.number "pageSize"
           search := ← params.field "search"
           category := ← params.field "category"
           state := ← params.field "state" }

/-- `Query<NoteArchiveQuery>`: no list is read from a value. -/
def noteArchiveQuery (params : Params) : Option NoteArchiveQuery := do
  match ← params.field "id" with
  | none => return { id := [], ids := ← params.field "ids" }
  | some _ => none

end Params

/-! ### The router -/

structure Route where
  pattern : Pattern
  method : Method
  /-- The request that is made of the parameters of the path, the query and the body. -/
  request : List String → Params → Body → Option AdminRequest

namespace Route

def api (pattern : Pattern) : Pattern := .text "admin" :: .text "api" :: pattern

/-- A handler that takes nothing. -/
def plain (method : Method) (pattern : Pattern) (request : AdminRequest) : Route :=
  ⟨pattern, method, fun _ _ _ => some request⟩

def withPassword (pattern : Pattern) (request : String → AdminRequest) : Route where
  pattern
  method := .post
  request _ _ body := match body with
    | .password password => some (request password)
    | _ => none

/-- A handler of one note. -/
def withNoteId (pattern : Pattern) (request : String → AdminRequest) : Route where
  pattern
  method := .get
  request ids _ _ := match ids with
    | [noteId] => some (request noteId)
    | _ => none

/-- The pages of the admin UI, which are no requests of the API. -/
def page (pattern : Pattern) : Route := ⟨pattern, .get, fun _ _ _ => none⟩

end Route

open Route in
/-- `router`, of `admin_api.rs` and `admin_web.rs` -/
def routes : List Route :=
  [withPassword [.text "login"] .login,
   plain .post [.text "logout"] .logout,
   withPassword (api [.text "bootstrap"]) .bootstrap,
   plain .get (api [.text "session"]) .sessionStatus,
   plain .get (api [.text "overview"]) .overview,
   ⟨api [.text "notes"], .get, fun _ query _ => .notes <$> query.notesQuery⟩,
   ⟨api [.text "notes", .text "download.zip"], .get, fun _ query _ => .notesArchiveDownload <$> query.noteArchiveQuery⟩,
   withNoteId (api [.text "notes", .param, .text "history"]) .noteHistory,
   withNoteId (api [.text "notes", .param, .text "download"]) .noteDownload,
   withNoteId (api [.text "notes", .param]) .noteDetail,
   plain .get (api [.text "settings"]) .settings,
   ⟨api [.text "settings"], .post, fun _ _ body => match body with
     | .settings request => some (.updateSettings request)
     | _ => none⟩,
   plain .post (api [.text "settings", .text "token", .text "reset"]) .resetSyncToken,
   plain .post (api [.text "settings", .text "restart"]) .restartService,
   ⟨api [.text "settings", .text "password"], .post, fun _ _ body => match body with
     | .passwordChange request => some (.changePassword request)
     | _ => none⟩,
   plain .post (api [.text "maintenance", .text "backup"]) .createBackup,
   ⟨api [.text "maintenance", .text "restore"], .post, fun _ _ body => match body with
     | .fileName fileName => some (.restoreBackup fileName)
     | _ => none⟩,
   plain .get (api [.text "maintenance", .text "backups"]) .listBackups,
   ⟨api [.text "logs"], .get, fun _ query _ => .readLogs <$> query.number "limit"⟩,
   page [.text ""],
   page [.text "admin"],
   page [.text "admin", .text ""],
   page [.text "assets", .catchAll]]

/-- What a request to the server arrives as, if a route takes it. -/
def receive (lookup : Lookup) (lossy : List UInt8 → String) (method : Method)
    (target : List String × Option String) (body : Body) : Option AdminRequest := do
  let (pattern, params) ← lookup (routes.map Route.pattern) target.1
  let route ← routes.find? fun route => route.pattern = pattern ∧ route.method = method
  let params ← params.mapM component.decodeText
  route.request params (Form.parse lossy (target.2.getD "")) body

end FloralSync

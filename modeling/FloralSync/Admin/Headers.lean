import FloralSync.Config.Stored
import FloralSync.Store.Rows

/-!
# Request headers (`admin_api.rs`)

The session cookie, and the check that a request comes from the admin's own origin.
-/

namespace FloralSync

open Except

/-- `http::HeaderValue` -/
structure HeaderValue where
  bytes : List UInt8
deriving DecidableEq

/-- Names are in lower case, as `http` has them; a name may occur more than once. -/
abbrev HeaderMap := List (String × HeaderValue)

namespace HeaderMap

/-- `HeaderMap::get` gives the first value. -/
def get (headers : HeaderMap) (name : String) : Option HeaderValue := headers.lookup name

end HeaderMap

/-- `HeaderValue::to_str`, of visible ASCII characters and tabs. -/
def HeaderValue.toStr (value : HeaderValue) : Option String :=
  if value.bytes.all fun b => b = 9 || (32 ≤ b && b < 127) then
    some (String.ofList (value.bytes.map fun b => Char.ofNat b.toNat))
  else none

/-- A header value with the given text. -/
def HeaderValue.ofString (s : String) : HeaderValue := ⟨s.toList.map fun c => UInt8.ofNat c.toNat⟩

/-- The error responses of the admin API. -/
inductive ApiError
  | badRequest (message : String)
  | unauthorized
  | forbidden (message : String)
  | notFound (message : String)
  | conflict (message : String)
  | config (error : ConfigError)
  | store (error : StoreError)
  | io
  | internal (message : String)
deriving DecidableEq

def adminSessionCookieName : String := "floral_admin_session"

def readCookie (headers : HeaderMap) (cookieName : String) : Option String := do
  let raw ← (← headers.get "cookie").toStr
  (split ';' raw).findSome? fun part => do
    let (name, value) ← splitOnce "=" (trim part)
    if name = cookieName then some value else none

/-- A character that a cookie may have: it is visible, and does not end the cookie. -/
def CookieChar (c : Char) : Prop := 32 < c.toNat ∧ c.toNat < 127 ∧ c ≠ ';'

instance (c : Char) : Decidable (CookieChar c) := inferInstanceAs (Decidable (_ ∧ _))

theorem CookieChar.not_isWhitespace {c : Char} (h : CookieChar c) : isWhitespace c = false := by
  obtain ⟨h₁, h₂, -⟩ := h
  simp only [isWhitespace, Bool.or_eq_false_iff, Bool.and_eq_false_iff, decide_eq_false_iff_not]
  omega

/-- A byte that `to_str` takes. -/
def VisibleByte (b : UInt8) : Prop := b = 9 ∨ 32 ≤ b ∧ b < 127

instance (b : UInt8) : Decidable (VisibleByte b) := inferInstanceAs (Decidable (_ ∨ _))

/-- The text that `to_str` makes of bytes. -/
def textOf (bytes : List UInt8) : List Char := bytes.map fun b => Char.ofNat b.toNat

def bytesOf (text : List Char) : List UInt8 := text.map fun c => UInt8.ofNat c.toNat

section Bytes

variable {s : String} {c : Char}

theorem toNat_charOf (b : UInt8) : (Char.ofNat b.toNat).toNat = b.toNat := by
  have hvalid : b.toNat.isValidChar := .inl (by have := b.toNat_lt; omega)
  rw [Char.ofNat, dif_pos hvalid]
  rfl

@[simp] theorem bytesOf_textOf (bytes : List UInt8) : bytesOf (textOf bytes) = bytes := by
  unfold bytesOf textOf
  rw [List.map_map]
  refine (List.map_congr_left fun b _ => ?_).trans (List.map_id _)
  rw [Function.comp, toNat_charOf, UInt8.ofNat_toNat, id]

theorem textOf_bytesOf {text : List Char} (h : ∀ c ∈ text, c.toNat < 256) : textOf (bytesOf text) = text := by
  unfold bytesOf textOf
  rw [List.map_map]
  refine (List.map_congr_left fun c hc => ?_).trans (List.map_id _)
  rw [Function.comp, UInt8.toNat_ofNat_of_lt' (h c hc), Char.ofNat_toNat, id]

@[simp] theorem textOf_append (xs ys : List UInt8) : textOf (xs ++ ys) = textOf xs ++ textOf ys := List.map_append

@[simp] theorem bytesOf_append (xs ys : List Char) : bytesOf (xs ++ ys) = bytesOf xs ++ bytesOf ys := List.map_append

theorem toStr_eq_some {value : HeaderValue} : value.toStr = some s ↔
    (∀ b ∈ value.bytes, VisibleByte b) ∧ s = String.ofList (textOf value.bytes) := by
  have hall : value.bytes.all (fun b => b = 9 || (32 ≤ b && b < 127)) = true ↔ ∀ b ∈ value.bytes, VisibleByte b := by
    simp [VisibleByte]
  unfold HeaderValue.toStr
  split_ifs with h
  · rw [Option.some.injEq, eq_comm]
    exact (and_iff_right (hall.1 h)).symm
  · simp [mt hall.2 h]

theorem CookieChar.visibleByte (h : CookieChar c) : VisibleByte (UInt8.ofNat c.toNat) := by
  obtain ⟨hlow, hhigh, -⟩ := h
  have hbyte : (UInt8.ofNat c.toNat).toNat = c.toNat := UInt8.toNat_ofNat_of_lt' (hhigh.trans (by decide))
  refine .inr ⟨?_, ?_⟩
  · rw [UInt8.le_iff_toNat_le, hbyte]
    exact hlow.le
  · rw [UInt8.lt_iff_toNat_lt, hbyte]
    exact hhigh

theorem HeaderValue.toStr_ofString (h : ∀ c ∈ s.toList, CookieChar c) : (ofString s).toStr = some s := by
  refine toStr_eq_some.2 ⟨fun b hb => ?_, ?_⟩
  · obtain ⟨c, hc, rfl⟩ := List.mem_map.1 hb
    exact (h c hc).visibleByte
  · show s = String.ofList (textOf (bytesOf s.toList))
    rw [textOf_bytesOf fun c hc => (h c hc).2.1.trans (by decide), String.ofList_toList]

end Bytes

section Pair

variable {headers : HeaderMap} {cookieName value : String}

theorem cookieChar_join {before after sep : String} (hbefore : ∀ c ∈ before.toList, CookieChar c)
    (hsep : ∀ c ∈ sep.toList, CookieChar c) (hafter : ∀ c ∈ after.toList, CookieChar c) :
    ∀ c ∈ (before ++ sep ++ after).toList, CookieChar c := by
  rw [String.toList_append, String.toList_append, List.forall_mem_append, List.forall_mem_append]
  exact ⟨⟨hbefore, hsep⟩, hafter⟩

theorem cookieChar_pair (hname : ∀ c ∈ cookieName.toList, CookieChar c ∧ c ≠ '=')
    (hvalue : ∀ c ∈ value.toList, CookieChar c) : ∀ c ∈ (cookieName ++ "=" ++ value).toList, CookieChar c :=
  cookieChar_join (fun c hc => (hname c hc).1) (forall_mem_of_all (by decide)) hvalue

theorem splitOnce_pair (hname : ∀ c ∈ cookieName.toList, CookieChar c ∧ c ≠ '=') :
    splitOnce "=" (cookieName ++ "=" ++ value) = some (cookieName, value) :=
  splitOnce_of_notMem (fun hc => (hname _ hc).2 rfl) value

theorem readCookie_of_get (hname : ∀ c ∈ cookieName.toList, CookieChar c ∧ c ≠ '=')
    (hvalue : ∀ c ∈ value.toList, CookieChar c)
    (hget : headers.get "cookie" = some (.ofString (cookieName ++ "=" ++ value))) :
    readCookie headers cookieName = some value := by
  have hchars := cookieChar_pair hname hvalue
  have hsplit : split ';' (cookieName ++ "=" ++ value) = [cookieName ++ "=" ++ value] :=
    split_of_notMem fun hc => (hchars _ hc).2.2 rfl
  have htrim : trim (cookieName ++ "=" ++ value) = cookieName ++ "=" ++ value :=
    trim_eq_self fun c hc => (hchars c hc).not_isWhitespace
  simp [readCookie, hget, HeaderValue.toStr_ofString hchars, hsplit, htrim, splitOnce_pair hname]

end Pair

def sessionCookie (cookieValue : String) : String :=
  adminSessionCookieName ++ "=" ++ cookieValue ++ "; Path=/; HttpOnly; SameSite=Strict"

def clearedSessionCookie : String :=
  adminSessionCookieName ++ "=; Path=/; Max-Age=0; HttpOnly; SameSite=Strict"

/-! ### Origins -/

structure ParsedOrigin where
  scheme : String
  host : String
  port : Nat
deriving DecidableEq

def defaultPortForScheme (scheme : String) : Option Nat :=
  if scheme = "http" then some 80
  else if scheme = "https" then some 443
  else none

namespace ParsedOrigin

def fromAuthority (scheme authority : String) : Option ParsedOrigin :=
  if authority = "" ∨ authority = "null" then none
  else match stripPrefixChar '[' authority with
    | some remainder => do
      let (host, afterHost) ← splitOnce "]" remainder
      let port ← ((stripPrefixChar ':' afterHost).bind parseU16).or (defaultPortForScheme scheme)
      return { scheme, host, port }
    | none =>
      match rsplitOnce ':' authority with
      | some (host, port) =>
        if host ≠ "" then do
          return { scheme, host, port := ← parseU16 port }
        else do
          return { scheme, host := authority, port := ← defaultPortForScheme scheme }
      | none => do
        return { scheme, host := authority, port := ← defaultPortForScheme scheme }

def parse (value : String) : Option ParsedOrigin := do
  let (scheme, rest) ← splitOnce "://" value
  let authority := String.ofList (rest.toList.takeWhile fun c => c ≠ '/' ∧ c ≠ '?' ∧ c ≠ '#')
  fromAuthority scheme authority

/-- `ParsedOrigin::matches` -/
def isMatch (self other : ParsedOrigin) : Bool :=
  self.port = other.port && eqIgnoreAsciiCase self.scheme other.scheme && eqIgnoreAsciiCase self.host other.host

end ParsedOrigin

def forwardedHeaderValue (headers : HeaderMap) (name : String) : Option String := do
  let value ← (← headers.get name).toStr
  let first ← (split ',' value).head?
  if trim first ≠ "" then some (trim first) else none

def requestOriginFromHeaders (headers : HeaderMap) : Option ParsedOrigin := do
  let scheme := (forwardedHeaderValue headers "x-forwarded-proto").getD "http"
  let authority ← (forwardedHeaderValue headers "x-forwarded-host").or
    ((headers.get "host").bind HeaderValue.toStr)
  ParsedOrigin.fromAuthority scheme authority

def requireSameOrigin (headers : HeaderMap) : Except ApiError Unit := do
  let value ← okOr (headers.get "origin") (.forbidden "origin header is required for POST requests")
  let origin ← okOr value.toStr (.forbidden "origin header is invalid")
  let parsed ← okOr (ParsedOrigin.parse origin) (.forbidden "origin header is invalid")
  let expected ← okOr (requestOriginFromHeaders headers) (.forbidden "host header is required for POST requests")
  ensure (parsed.isMatch expected) (.forbidden "origin header does not match an allowed admin host")

example : requireSameOrigin [("host", .ofString "notes.example:8788"),
    ("origin", .ofString "http://Notes.example:8788")] = .ok () := by decide

end FloralSync

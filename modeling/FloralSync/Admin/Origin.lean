import FloralSync.Admin.Headers
import FloralSync.Rust.Net

/-!
# What the origin check accepts (`admin_api.rs`)

Requests of the page's own origin, as `scheme://host[:port]` says it, pass and no others (`requireSameOrigin_iff`).
This holds of headers in which each authority is read as it is written; where the parser is lenient (`Slip`)
nothing is said.
-/

namespace FloralSync

open Except

/-- A port after a host: none, or the text of a `u16`. -/
inductive PortText : String → Option Nat → Prop
  | absent : PortText "" none
  | written {digits port} (h : parseU16 digits = some port) : PortText (":" ++ digits) (some port)

/-- `host[:port]`, where the host is a name or an IPv6 address in brackets. -/
inductive HostPort : String → String → Option Nat → Prop
  | name {host rest port} (hne : host ≠ "") (hcolon : ':' ∉ host.toList) (hbracket : host.toList.head? ≠ some '[')
    (hport : PortText rest port) : HostPort (host ++ rest) host port
  | literal {address rest port} (haddress : Rust.readIpv6Addr address.toList = some [])
    (hbracket : ']' ∉ address.toList) (hport : PortText rest port) :
    HostPort ("[" ++ (address ++ "]" ++ rest)) address port

/-- The port of a scheme in either case. -/
def DefaultPort (scheme : String) (port : Nat) : Prop :=
  eqIgnoreAsciiCase scheme "http" = true ∧ port = 80 ∨ eqIgnoreAsciiCase scheme "https" = true ∧ port = 443

/-- The authority names the origin's host and port, under its scheme. -/
def Authority (scheme authority : String) (origin : ParsedOrigin) : Prop :=
  origin.scheme = scheme ∧ (HostPort authority origin.host (some origin.port) ∨
    HostPort authority origin.host none ∧ DefaultPort scheme origin.port)

/-- Two authorities name the same origin. -/
def SameOrigin (scheme authority scheme' authority' : String) : Prop :=
  ∃ own other, Authority scheme authority own ∧ Authority scheme' authority' other ∧ own.port = other.port ∧
    eqIgnoreAsciiCase own.scheme other.scheme = true ∧ eqIgnoreAsciiCase own.host other.host = true

/-- The first value of a forwarded header, which is a list with commas. -/
def FirstForwarded (headers : HeaderMap) (name value : String) : Prop :=
  ∃ text, (headers.get name).bind HeaderValue.toStr = some text ∧
    value = trim (String.ofList (text.toList.takeWhile (· ≠ ','))) ∧ value ≠ ""

/-- What the request was sent to. -/
structure RequestHeaders (headers : HeaderMap) (scheme authority : String) : Prop where
  scheme : FirstForwarded headers "x-forwarded-proto" scheme ∨
    (∀ value, ¬ FirstForwarded headers "x-forwarded-proto" value) ∧ scheme = "http"
  authority : FirstForwarded headers "x-forwarded-host" authority ∨
    (∀ value, ¬ FirstForwarded headers "x-forwarded-host" value) ∧
      (headers.get "host").bind HeaderValue.toStr = some authority

/-- The `Origin` header is `scheme://authority`, with `tail` after it. -/
structure OriginHeader (headers : HeaderMap) (scheme authority tail : String) : Prop where
  text : (headers.get "origin").bind HeaderValue.toStr = some (scheme ++ "://" ++ (authority ++ tail))
  first : ∀ a b, scheme ++ "://" ++ (authority ++ tail) = a ++ "://" ++ b → scheme.length ≤ a.length
  authority : ∀ c ∈ authority.toList, c ≠ '/' ∧ c ≠ '?' ∧ c ≠ '#'
  tail : ∀ c ∈ tail.toList.head?, c = '/' ∨ c = '?' ∨ c = '#'

/-! ### The parser's mistakes -/

/-- An authority that is no `host[:port]`, and is read as if it were one: after a closing bracket the port of the
scheme stands in for any text, and a plain host may have colons. -/
def Lenient (authority : String) : Prop :=
  (∀ host port, ¬ HostPort authority host port) ∧
    (authority.toList.head? = some '[' ∧ ']' ∈ authority.toList ∨
      authority.toList.head? ≠ some '[' ∧ (authority.toList.head? = some ':' ∨ 1 < authority.toList.count ':'))

/-- An authority that is read otherwise than it is written. A scheme in capitals has no default port. -/
def Slip (scheme authority : String) : Prop :=
  Lenient authority ∨ (∃ host, HostPort authority host none) ∧ (∃ port, DefaultPort scheme port) ∧
    defaultPortForScheme scheme = none

section Parse

variable {scheme authority host text tail name value : String} {port : Option Nat} {origin : ParsedOrigin}
  {headers : HeaderMap}

theorem defaultPort_of_eq_some {n : Nat} (h : defaultPortForScheme scheme = some n) : DefaultPort scheme n := by
  unfold defaultPortForScheme at h
  split_ifs at h with hhttp hhttps
  · exact .inl ⟨by rw [hhttp]; decide, (Option.some.inj h).symm⟩
  · exact .inr ⟨by rw [hhttps]; decide, (Option.some.inj h).symm⟩

theorem DefaultPort.unique {m n : Nat} (hm : DefaultPort scheme m) (hn : DefaultPort scheme n) : m = n := by
  have hne : ¬ (eqIgnoreAsciiCase scheme "http" = true ∧ eqIgnoreAsciiCase scheme "https" = true) := by
    rintro ⟨hhttp, hhttps⟩
    have heq := (of_decide_eq_true hhttp).symm.trans (of_decide_eq_true hhttps)
    exact absurd heq (by decide)
  rcases hm with ⟨hm, rfl⟩ | ⟨hm, rfl⟩ <;> rcases hn with ⟨hn, rfl⟩ | ⟨hn, rfl⟩
  · rfl
  · exact absurd ⟨hm, hn⟩ hne
  · exact absurd ⟨hn, hm⟩ hne
  · rfl

theorem HostPort.ne_empty (h : HostPort authority host port) : authority ≠ "" := by
  cases h with
  | name hne => exact fun hempty => hne (String.append_eq_empty_iff.1 hempty).1
  | literal => exact fun hempty => absurd (String.append_eq_empty_iff.1 hempty).1 (by decide)

theorem hostPort_of_name (hne : host ≠ "") (hcolon : ':' ∉ host.toList) (hbracket : host.toList.head? ≠ some '[') :
    HostPort host host none := by
  have hname := HostPort.name hne hcolon hbracket .absent
  rwa [String.append_empty] at hname

theorem fromAuthority_hostPort (h : HostPort authority host port) (hnull : authority ≠ "null") :
    ParsedOrigin.fromAuthority scheme authority =
      (port.or (defaultPortForScheme scheme)).map fun port => ⟨scheme, host, port⟩ := by
  unfold ParsedOrigin.fromAuthority
  rw [if_neg (not_or.2 ⟨h.ne_empty, hnull⟩)]
  cases h with
  | @name _ rest _ hne hcolon hbracket hport =>
    have hhead : (host ++ rest).toList.head? = host.toList.head? := by
      rw [String.toList_append, List.head?_append_of_ne_nil _ (mt String.toList_eq_nil_iff.1 hne)]
    rw [stripPrefixChar_eq_none.2 (hhead ▸ hbracket)]
    cases hport with
    | absent =>
      rw [String.append_empty, rsplitOnce_eq_none.2 hcolon]
      cases defaultPortForScheme scheme <;> rfl
    | @written digits n h =>
      have hsplit : rsplitOnce ':' (host ++ (":" ++ digits)) = some (host, digits) :=
        rsplitOnce_eq_some_iff.2 ⟨(String.append_assoc).symm, parseU16_notMem h (by decide) (by decide)⟩
      rw [hsplit]
      simp [hne, h]
  | @literal _ rest _ haddress hbracket hport =>
    have hstrip : stripPrefixChar '[' ("[" ++ (host ++ "]" ++ rest)) = some (host ++ "]" ++ rest) :=
      stripPrefixChar_eq_some.2 rfl
    have hsplit : splitOnce "]" (host ++ "]" ++ rest) = some (host, rest) := splitOnce_of_notMem hbracket rest
    rw [hstrip]
    dsimp only
    rw [hsplit]
    cases hport with
    | absent => cases defaultPortForScheme scheme <;> rfl
    | @written digits n h =>
      have hport : stripPrefixChar ':' (":" ++ digits) = some digits := stripPrefixChar_eq_some.2 rfl
      simp [hport, h]

theorem lenient_of_bracket (hnot : ∀ host port, ¬ HostPort authority host port) {remainder address rest : String}
    (hstrip : stripPrefixChar '[' authority = some remainder) (hsplit : splitOnce "]" remainder = some (address, rest)) :
    Lenient authority := by
  refine ⟨hnot, .inl ?_⟩
  rw [stripPrefixChar_eq_some.1 hstrip, splitOnce_eq_some hsplit]
  simp

theorem lenient_of_port (hnot : ∀ host port, ¬ HostPort authority host port) {host digits : String} {n : Nat}
    (hhead : authority.toList.head? ≠ some '[') (hsplit : rsplitOnce ':' authority = some (host, digits))
    (hhost : host ≠ "") (hn : parseU16 digits = some n) : Lenient authority := by
  obtain ⟨rfl, -⟩ := rsplitOnce_eq_some_iff.1 hsplit
  by_cases hcolon : ':' ∈ host.toList
  · refine ⟨hnot, .inr ⟨hhead, .inr ?_⟩⟩
    have hpos := List.count_pos_iff.2 hcolon
    simp only [String.toList_append, String.toList_singleton, List.count_append, List.count_singleton_self]
    omega
  · have hfront : host.toList.head? ≠ some '[' := by
      rw [String.toList_append, String.toList_append, List.append_assoc,
        List.head?_append_of_ne_nil _ (mt String.toList_eq_nil_iff.1 hhost)] at hhead
      exact hhead
    have hname := HostPort.name hhost hcolon hfront (.written hn)
    rw [← String.append_assoc] at hname
    exact absurd hname (hnot _ _)

/-- What is read was well written, unless the parser was lenient. -/
theorem exists_hostPort (h : ParsedOrigin.fromAuthority scheme authority = some origin)
    (hstrict : ¬ Lenient authority) : authority ≠ "null" ∧ ∃ host port, HostPort authority host port := by
  unfold ParsedOrigin.fromAuthority at h
  split_ifs at h with hne
  obtain ⟨hempty, hnull⟩ := not_or.1 hne
  refine ⟨hnull, ?_⟩
  by_contra hnone
  have hnot : ∀ host port, ¬ HostPort authority host port := fun host port h => hnone ⟨host, port, h⟩
  cases hstrip : stripPrefixChar '[' authority with
  | some remainder =>
    rw [hstrip] at h
    obtain ⟨⟨address, rest⟩, hsplit, -⟩ := Option.bind_eq_some_iff.1 h
    exact hstrict (lenient_of_bracket hnot hstrip hsplit)
  | none =>
    rw [hstrip] at h
    have hhead := stripPrefixChar_eq_none.1 hstrip
    cases hsplit : rsplitOnce ':' authority with
    | none => exact hnot _ _ (hostPort_of_name hempty (rsplitOnce_eq_none.1 hsplit) hhead)
    | some parts =>
      obtain ⟨host, digits⟩ := parts
      by_cases hhost : host = ""
      · obtain ⟨rfl, -⟩ := rsplitOnce_eq_some_iff.1 hsplit
        exact hstrict ⟨hnot, .inr ⟨hhead, .inl (by simp [hhost])⟩⟩
      · rw [hsplit] at h
        dsimp only at h
        rw [if_pos hhost] at h
        obtain ⟨n, hn, -⟩ := Option.bind_eq_some_iff.1 h
        exact hstrict (lenient_of_port hnot hhead hsplit hhost hn)

/-- Without a slip, what is read is what is written. -/
theorem fromAuthority_eq_some (hslip : ¬ Slip scheme authority) :
    ParsedOrigin.fromAuthority scheme authority = some origin ↔
      authority ≠ "null" ∧ Authority scheme authority origin := by
  obtain ⟨hstrict, hcase⟩ := not_or.1 hslip
  constructor
  · intro h
    obtain ⟨hnull, host, port, hwritten⟩ := exists_hostPort h hstrict
    rw [fromAuthority_hostPort hwritten hnull, Option.map_eq_some_iff] at h
    obtain ⟨n, hn, rfl⟩ := h
    refine ⟨hnull, rfl, ?_⟩
    cases port with
    | some m =>
      obtain rfl : m = n := Option.some.inj hn
      exact .inl hwritten
    | none => exact .inr ⟨hwritten, defaultPort_of_eq_some hn⟩
  · rintro ⟨hnull, rfl, hwritten | ⟨hwritten, hdefault⟩⟩
    · rw [fromAuthority_hostPort hwritten hnull]
      rfl
    · rw [fromAuthority_hostPort hwritten hnull]
      cases hn : defaultPortForScheme origin.scheme with
      | none => exact absurd ⟨⟨_, hwritten⟩, ⟨_, hdefault⟩, hn⟩ hcase
      | some n =>
        rw [(defaultPort_of_eq_some hn).unique hdefault]
        rfl

theorem forwardedHeaderValue_eq_some :
    forwardedHeaderValue headers name = some value ↔ FirstForwarded headers name value := by
  simp only [forwardedHeaderValue, head?_split, FirstForwarded, Option.bind_eq_bind,
    Option.bind_eq_some_iff, Option.ite_none_right_eq_some, Option.some.injEq, exists_eq_left']
  constructor
  · rintro ⟨header, hheader, text, htext, hne, rfl⟩
    exact ⟨text, ⟨header, hheader, htext⟩, rfl, hne⟩
  · rintro ⟨text, ⟨header, hheader, htext⟩, rfl, hne⟩
    exact ⟨header, hheader, text, htext, hne, rfl⟩

theorem forwardedHeaderValue_eq_none :
    forwardedHeaderValue headers name = none ↔ ∀ value, ¬ FirstForwarded headers name value := by
  simp only [Option.eq_none_iff_forall_ne_some, ← forwardedHeaderValue_eq_some, ne_eq]

theorem requestOriginFromHeaders_eq_some : requestOriginFromHeaders headers = some origin ↔
    ∃ scheme authority, RequestHeaders headers scheme authority ∧
      ParsedOrigin.fromAuthority scheme authority = some origin := by
  have hscheme : ∀ scheme, (forwardedHeaderValue headers "x-forwarded-proto").getD "http" = scheme ↔
      FirstForwarded headers "x-forwarded-proto" scheme ∨
        (∀ value, ¬ FirstForwarded headers "x-forwarded-proto" value) ∧ scheme = "http" := by
    intro scheme
    rw [← forwardedHeaderValue_eq_none, ← forwardedHeaderValue_eq_some]
    cases forwardedHeaderValue headers "x-forwarded-proto" <;> simp [eq_comm]
  have hauthority : ∀ authority, (forwardedHeaderValue headers "x-forwarded-host").or
      ((headers.get "host").bind HeaderValue.toStr) = some authority ↔
        FirstForwarded headers "x-forwarded-host" authority ∨
          (∀ value, ¬ FirstForwarded headers "x-forwarded-host" value) ∧
            (headers.get "host").bind HeaderValue.toStr = some authority := by
    intro authority
    rw [← forwardedHeaderValue_eq_none, ← forwardedHeaderValue_eq_some]
    cases forwardedHeaderValue headers "x-forwarded-host" <;> simp
  unfold requestOriginFromHeaders
  simp only [Option.bind_eq_bind, Option.bind_eq_some_iff]
  constructor
  · rintro ⟨authority, hauth, h⟩
    exact ⟨_, authority, ⟨(hscheme _).1 rfl, (hauthority _).1 hauth⟩, h⟩
  · rintro ⟨scheme, authority, hheaders, h⟩
    exact ⟨authority, (hauthority _).2 hheaders.authority, by rwa [(hscheme _).2 hheaders.scheme]⟩

theorem parse_eq_some : ParsedOrigin.parse text = some origin ↔ ∃ scheme authority tail,
    splitOnce "://" text = some (scheme, authority ++ tail) ∧ (∀ c ∈ authority.toList, c ≠ '/' ∧ c ≠ '?' ∧ c ≠ '#') ∧
      (∀ c ∈ tail.toList.head?, c = '/' ∨ c = '?' ∨ c = '#') ∧
      ParsedOrigin.fromAuthority scheme authority = some origin := by
  unfold ParsedOrigin.parse
  simp only [Option.bind_eq_bind, Option.bind_eq_some_iff]
  constructor
  · rintro ⟨⟨scheme, rest⟩, hsplit, h⟩
    refine ⟨scheme, _, String.ofList (rest.toList.dropWhile fun c => c ≠ '/' ∧ c ≠ '?' ∧ c ≠ '#'), ?_, ?_, ?_, h⟩
    · rw [← String.ofList_append, List.takeWhile_append_dropWhile, String.ofList_toList, hsplit]
    · intro c hc
      rw [String.toList_ofList] at hc
      exact of_decide_eq_true (List.mem_takeWhile_imp (p := fun c => decide (c ≠ '/' ∧ c ≠ '?' ∧ c ≠ '#')) hc)
    · intro c hc
      rw [String.toList_ofList] at hc
      have hnot := List.head?_dropWhile_not (fun c => decide (c ≠ '/' ∧ c ≠ '?' ∧ c ≠ '#')) rest.toList
      rw [Option.mem_def.1 hc] at hnot
      have hend := of_decide_eq_false hnot
      tauto
  · rintro ⟨scheme, authority, tail, hsplit, hauthority, htail, h⟩
    refine ⟨_, hsplit, ?_⟩
    have htaken : (authority ++ tail).toList.takeWhile (fun c => c ≠ '/' ∧ c ≠ '?' ∧ c ≠ '#') = authority.toList := by
      rw [String.toList_append, List.takeWhile_append_of_pos fun c hc => decide_eq_true (hauthority c hc)]
      cases hchars : tail.toList with
      | nil => simp
      | cons c cs =>
        have hend := htail c (by rw [hchars]; rfl)
        rw [List.takeWhile_cons_of_neg (by simpa using by tauto), List.append_nil]
    dsimp only
    rwa [htaken, String.ofList_toList]

/-! ### The check -/

theorem originHeader_iff : OriginHeader headers scheme authority tail ↔
    (∃ text, (headers.get "origin").bind HeaderValue.toStr = some text ∧
      splitOnce "://" text = some (scheme, authority ++ tail)) ∧
    (∀ c ∈ authority.toList, c ≠ '/' ∧ c ≠ '?' ∧ c ≠ '#') ∧ ∀ c ∈ tail.toList.head?, c = '/' ∨ c = '?' ∨ c = '#' := by
  constructor
  · intro h
    exact ⟨⟨_, h.text, splitOnce_eq_some_iff.2 ⟨rfl, h.first⟩⟩, h.authority, h.tail⟩
  · rintro ⟨⟨text, htext, hsplit⟩, hauthority, htail⟩
    obtain ⟨rfl, hfirst⟩ := splitOnce_eq_some_iff.1 hsplit
    exact ⟨htext, hfirst, hauthority, htail⟩

theorem requireSameOrigin_eq_ok : requireSameOrigin headers = .ok () ↔
    ∃ scheme authority tail scheme' authority' own other,
      OriginHeader headers scheme authority tail ∧ RequestHeaders headers scheme' authority' ∧
      ParsedOrigin.fromAuthority scheme authority = some own ∧
      ParsedOrigin.fromAuthority scheme' authority' = some other ∧ own.isMatch other = true := by
  simp only [requireSameOrigin, bind_eq_ok, okOr_eq_ok, ensure_eq_ok, requestOriginFromHeaders_eq_some, parse_eq_some,
    originHeader_iff]
  constructor
  · rintro ⟨header, hheader, text, htext, own, ⟨scheme, authority, tail, hsplit, hauthority, htail, hown⟩, other,
      ⟨scheme', authority', hrequest, hother⟩, hmatch⟩
    exact ⟨scheme, authority, tail, scheme', authority', own, other,
      ⟨⟨text, by rw [hheader]; exact htext, hsplit⟩, hauthority, htail⟩, hrequest, hown, hother, hmatch⟩
  · rintro ⟨scheme, authority, tail, scheme', authority', own, other, ⟨⟨text, htext, hsplit⟩, hauthority, htail⟩,
      hrequest, hown, hother, hmatch⟩
    obtain ⟨header, hheader, htext⟩ := Option.bind_eq_some_iff.1 htext
    exact ⟨header, hheader, text, htext, own, ⟨scheme, authority, tail, hsplit, hauthority, htail, hown⟩, other,
      ⟨scheme', authority', hrequest, hother⟩, hmatch⟩

/-- Where no authority is misread, a request passes if and only if its `Origin` names the origin that it was sent
to. What comes after the authority does not count, and an authority `null` never passes. -/
theorem requireSameOrigin_iff
    (horigin : ∀ scheme authority tail, OriginHeader headers scheme authority tail → ¬ Slip scheme authority)
    (hrequest : ∀ scheme authority, RequestHeaders headers scheme authority → ¬ Slip scheme authority) :
    requireSameOrigin headers = .ok () ↔ ∃ scheme authority tail scheme' authority',
      OriginHeader headers scheme authority tail ∧ RequestHeaders headers scheme' authority' ∧
        SameOrigin scheme authority scheme' authority' ∧ authority ≠ "null" ∧ authority' ≠ "null" := by
  rw [requireSameOrigin_eq_ok]
  constructor
  · rintro ⟨scheme, authority, tail, scheme', authority', own, other, ho, hr, hown, hother, hmatch⟩
    obtain ⟨hnull, hown⟩ := (fromAuthority_eq_some (horigin _ _ _ ho)).1 hown
    obtain ⟨hnull', hother⟩ := (fromAuthority_eq_some (hrequest _ _ hr)).1 hother
    simp only [ParsedOrigin.isMatch, Bool.and_eq_true, decide_eq_true_eq] at hmatch
    obtain ⟨⟨hport, hscheme⟩, hhost⟩ := hmatch
    exact ⟨scheme, authority, tail, scheme', authority', ho, hr, ⟨own, other, hown, hother, hport, hscheme, hhost⟩,
      hnull, hnull'⟩
  · rintro ⟨scheme, authority, tail, scheme', authority', ho, hr, ⟨own, other, hown, hother, hport, hscheme, hhost⟩,
      hnull, hnull'⟩
    refine ⟨scheme, authority, tail, scheme', authority', own, other, ho, hr,
      (fromAuthority_eq_some (horigin _ _ _ ho)).2 ⟨hnull, hown⟩,
      (fromAuthority_eq_some (hrequest _ _ hr)).2 ⟨hnull', hother⟩, ?_⟩
    simp [ParsedOrigin.isMatch, hport, hscheme, hhost]

theorem not_slip (h : HostPort authority host port) (hscheme : defaultPortForScheme scheme ≠ none) :
    ¬ Slip scheme authority := by
  rintro (⟨hnone, -⟩ | ⟨-, -, hdefault⟩)
  · exact hnone _ _ h
  · exact hscheme hdefault

end Parse

/-- A page behind a reverse proxy. -/
def proxyHeaders : HeaderMap := [("host", .ofString "127.0.0.1:8788"), ("origin", .ofString "https://notes.example.com"),
  ("x-forwarded-host", .ofString "notes.example.com"), ("x-forwarded-proto", .ofString "https")]

theorem requireSameOrigin_proxyHeaders : requireSameOrigin proxyHeaders = .ok () := by
  have hwritten : HostPort "notes.example.com" "notes.example.com" none :=
    hostPort_of_name (by decide) (by decide) (by decide)
  have hslip : ¬ Slip "https" "notes.example.com" := not_slip hwritten (by decide)
  have hauthority : Authority "https" "notes.example.com" ⟨"https", "notes.example.com", 443⟩ :=
    ⟨rfl, .inr ⟨hwritten, .inr ⟨by decide, rfl⟩⟩⟩
  have horigin : (proxyHeaders.get "origin").bind HeaderValue.toStr = some "https://notes.example.com" := by
    decide +kernel
  have hsplit : splitOnce "://" "https://notes.example.com" = some ("https", "notes.example.com") := by decide +kernel
  have hscheme : forwardedHeaderValue proxyHeaders "x-forwarded-proto" = some "https" := by decide +kernel
  have hhost : forwardedHeaderValue proxyHeaders "x-forwarded-host" = some "notes.example.com" := by decide +kernel
  refine (requireSameOrigin_iff ?_ ?_).2 ⟨"https", "notes.example.com", "", "https", "notes.example.com",
    originHeader_iff.2 ⟨⟨_, horigin, hsplit⟩, forall_mem_of_all (by decide +kernel), by simp⟩,
    ⟨.inl (forwardedHeaderValue_eq_some.1 hscheme), .inl (forwardedHeaderValue_eq_some.1 hhost)⟩,
    ⟨_, _, hauthority, hauthority, rfl, by decide, by decide⟩, by decide, by decide⟩
  · intro scheme authority tail h
    obtain ⟨⟨text, htext, hparts⟩, -, htail⟩ := originHeader_iff.1 h
    obtain rfl := Option.some.inj (htext.symm.trans horigin)
    obtain ⟨rfl, heq⟩ := Prod.mk.inj (Option.some.inj (hparts.symm.trans hsplit))
    have hplain : ∀ c ∈ "notes.example.com".toList, ¬ (c = '/' ∨ c = '?' ∨ c = '#') :=
      forall_mem_of_all (by decide +kernel)
    cases hchars : tail.toList with
    | nil =>
      obtain rfl := String.toList_eq_nil_iff.1 hchars
      rwa [← heq, String.append_empty] at hslip
    | cons c cs =>
      refine absurd (htail c (by rw [hchars]; rfl)) (hplain c ?_)
      rw [← heq, String.toList_append, hchars]
      simp
  · intro scheme authority h
    have hproto : scheme = "https" := by
      rcases h.scheme with hfirst | ⟨hnone, -⟩
      · exact Option.some.inj ((forwardedHeaderValue_eq_some.2 hfirst).symm.trans hscheme)
      · exact absurd (forwardedHeaderValue_eq_some.1 hscheme) (hnone _)
    have hsent : authority = "notes.example.com" := by
      rcases h.authority with hfirst | ⟨hnone, -⟩
      · exact Option.some.inj ((forwardedHeaderValue_eq_some.2 hfirst).symm.trans hhost)
      · exact absurd (forwardedHeaderValue_eq_some.1 hhost) (hnone _)
    rwa [hproto, hsent]

/-- What the page itself would send, with its path. -/
def pathHeaders : HeaderMap :=
  [("host", .ofString "localhost:8788"), ("origin", .ofString "http://localhost:8788/settings")]

theorem origin_with_path_passes : ¬ ∀ headers, requireSameOrigin headers = .ok () ↔
    ∃ scheme authority scheme' authority', OriginHeader headers scheme authority "" ∧
      RequestHeaders headers scheme' authority' ∧ SameOrigin scheme authority scheme' authority' := by
  intro h
  obtain ⟨scheme, authority, -, -, horigin, -⟩ := (h pathHeaders).1 (by decide +kernel)
  obtain ⟨⟨text, htext, hsplit⟩, hauthority, -⟩ := originHeader_iff.1 horigin
  have horiginText : (pathHeaders.get "origin").bind HeaderValue.toStr = some "http://localhost:8788/settings" := by
    decide +kernel
  obtain rfl := Option.some.inj (htext.symm.trans horiginText)
  have hparts : splitOnce "://" "http://localhost:8788/settings" = some ("http", "localhost:8788/settings") := by
    decide +kernel
  obtain ⟨-, heq⟩ := Prod.mk.inj (Option.some.inj (hsplit.symm.trans hparts))
  rw [String.append_empty] at heq
  exact (hauthority '/' (by rw [heq]; decide)).1 rfl

end FloralSync

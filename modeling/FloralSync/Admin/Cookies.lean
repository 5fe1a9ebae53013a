import FloralSync.Admin.Api
import FloralSync.Store.Markdown

/-!
# A session cookie among others (`session.rs`, `admin_api.rs`)

The session cookie comes back with cookies of other names around it, and its claims are read out of it again
until it expires (`session_cookie_round_trip`). The header is read as text, so one byte of another cookie that is
not visible ASCII hides it.
-/

namespace FloralSync

open Except

def BlankByte (b : UInt8) : Prop := b = 9 ∨ b = 32

instance (b : UInt8) : Decidable (BlankByte b) := inferInstanceAs (Decidable (_ ∨ _))

section Blanks

variable {b : UInt8}

theorem VisibleByte.blank (h : VisibleByte b) (hspace : isWhitespace (Char.ofNat b.toNat) = true) : BlankByte b := by
  simp only [isWhitespace, toNat_charOf, Bool.or_eq_true, Bool.and_eq_true, decide_eq_true_eq] at hspace
  simp only [VisibleByte, BlankByte, UInt8.le_iff_toNat_le, UInt8.lt_iff_toNat_lt, ← UInt8.toNat_inj] at h ⊢
  change b.toNat = 9 ∨ 32 ≤ b.toNat ∧ b.toNat < 127 at h
  change b.toNat = 9 ∨ b.toNat = 32
  omega

theorem BlankByte.isWhitespace (h : BlankByte b) : isWhitespace (Char.ofNat b.toNat) = true := by
  rcases h with rfl | rfl <;> decide

theorem BlankByte.visible (h : BlankByte b) : VisibleByte b := by
  rcases h with rfl | rfl <;> decide

end Blanks

theorem textOf_intercalate (parts : List (List UInt8)) :
    textOf ([59].intercalate parts) = [';'].intercalate (parts.map textOf) := by
  induction parts with
  | nil => rfl
  | cons part parts ih =>
    cases parts with
    | nil => simp
    | cons next parts =>
      rw [List.intercalate_cons_cons, List.map_cons, List.map_cons, List.intercalate_cons_cons, ← List.map_cons, ← ih]
      simp [textOf]

/-- A cookie header: the cookies with semicolons between them. -/
def cookieHeader (parts : List (List UInt8)) : HeaderValue := ⟨[59].intercalate parts⟩

/-- A cookie with blanks around it. -/
def cookiePart (cookieName value : String) (pad pad' : List UInt8) : List UInt8 :=
  pad ++ bytesOf (cookieName ++ "=" ++ value).toList ++ pad'

/-- What stands between two semicolons, and is no cookie of the given name. -/
def OtherCookie (cookieName : String) (part : List UInt8) : Prop :=
  59 ∉ part ∧ ∀ pad rest, (∀ b ∈ pad, BlankByte b) → part ≠ pad ++ bytesOf (cookieName ++ "=").toList ++ rest

/-- One round of the search in `read_cookie`. -/
def cookieOfPart (cookieName part : String) : Option String := do
  let (name, value) ← splitOnce "=" (trim part)
  if name = cookieName then some value else none

section Header

variable {cookieName value : String} {part pad pad' : List UInt8} {parts before after : List (List UInt8)}
  {headers : HeaderMap}

theorem readCookie_eq (headers : HeaderMap) (cookieName : String) : readCookie headers cookieName =
    (headers.get "cookie").bind fun header => header.toStr.bind fun raw =>
      (split ';' raw).findSome? (cookieOfPart cookieName) := rfl

theorem split_cookieHeader (hne : parts ≠ []) (hparts : ∀ part ∈ parts, (59 : UInt8) ∉ part) :
    split ';' (String.ofList (textOf (cookieHeader parts).bytes)) =
      parts.map fun part => String.ofList (textOf part) := by
  have hsep : ∀ text ∈ parts.map textOf, ';' ∉ text := by
    intro text htext hmem
    obtain ⟨part, hpart, rfl⟩ := List.mem_map.1 htext
    obtain ⟨b, hb, heq⟩ := List.mem_map.1 hmem
    have hbyte : b.toNat = 59 := by rw [← toNat_charOf, heq]; rfl
    exact hparts part hpart ((UInt8.toNat_inj (b := 59)).1 hbyte ▸ hb)
  rw [split, String.toList_ofList, cookieHeader, textOf_intercalate,
    List.splitOn_intercalate _ hsep (by simpa using hne), List.map_map]
  rfl

theorem cookieOfPart_other (h : OtherCookie cookieName part) (hvisible : ∀ b ∈ part, VisibleByte b) :
    cookieOfPart cookieName (String.ofList (textOf part)) = none := by
  by_contra hne
  obtain ⟨value, hvalue⟩ := Option.ne_none_iff_exists'.1 hne
  unfold cookieOfPart at hvalue
  rw [Option.bind_eq_bind, Option.bind_eq_some_iff] at hvalue
  obtain ⟨⟨name, rest⟩, hsplit, hname⟩ := hvalue
  obtain ⟨rfl, -⟩ := Option.ite_none_right_eq_some.1 hname
  obtain ⟨pad, pad', hpads, hpad, -⟩ := exists_pads (String.ofList (textOf part))
  rw [splitOnce_eq_some hsplit, String.toList_ofList] at hpads
  -- the same bytes would be the cookie
  have hbytes := congrArg bytesOf hpads
  rw [bytesOf_textOf] at hbytes
  refine h.2 (bytesOf pad) (bytesOf (rest.toList ++ pad')) (fun b hb => ?_) ?_
  · obtain ⟨c, hc, rfl⟩ := List.mem_map.1 hb
    obtain ⟨b, hpart, rfl⟩ := List.mem_map.1 (show c ∈ textOf part by rw [hpads]; simp [hc])
    rw [toNat_charOf, UInt8.ofNat_toNat]
    exact (hvisible b hpart).blank (hpad _ hc)
  · rw [hbytes, ← bytesOf_append, ← bytesOf_append]
    simp

theorem cookieOfPart_cookiePart (hname : ∀ c ∈ cookieName.toList, CookieChar c ∧ c ≠ '=')
    (hvalue : ∀ c ∈ value.toList, CookieChar c) (hpad : ∀ b ∈ pad, BlankByte b) (hpad' : ∀ b ∈ pad', BlankByte b) :
    cookieOfPart cookieName (String.ofList (textOf (cookiePart cookieName value pad pad'))) = some value := by
  have hchars := cookieChar_pair hname hvalue
  have hblank : ∀ {pad : List UInt8}, (∀ b ∈ pad, BlankByte b) → ∀ c ∈ textOf pad, isWhitespace c = true := by
    intro pad hpad c hc
    obtain ⟨b, hb, rfl⟩ := List.mem_map.1 hc
    exact (hpad b hb).isWhitespace
  have htext : textOf (cookiePart cookieName value pad pad') =
      textOf pad ++ (cookieName ++ "=" ++ value).toList ++ textOf pad' := by
    rw [cookiePart, textOf_append, textOf_append, textOf_bytesOf fun c hc => (hchars c hc).2.1.trans (by decide)]
  have htrim : trim (String.ofList (textOf (cookiePart cookieName value pad pad'))) = cookieName ++ "=" ++ value := by
    rw [htext, trim_pad (hblank hpad) (hblank hpad') fun c hc => (hchars c hc).not_isWhitespace, String.ofList_toList]
  unfold cookieOfPart
  rw [htrim, splitOnce_pair hname]
  exact if_pos rfl

theorem forall_mem_cookieHeader {P : UInt8 → Prop} (hsep : P 59) :
    (∀ b ∈ (cookieHeader parts).bytes, P b) ↔ ∀ part ∈ parts, ∀ b ∈ part, P b := by
  unfold cookieHeader
  induction parts with
  | nil => simp
  | cons part parts ih =>
    cases parts with
    | nil => simp
    | cons next parts =>
      rw [List.intercalate_cons_cons, List.forall_mem_cons, ← ih, List.forall_mem_append, List.forall_mem_append,
        List.forall_mem_singleton]
      simp only [hsep, and_true]

theorem mem_cookiePart {b : UInt8} (hname : ∀ c ∈ cookieName.toList, CookieChar c ∧ c ≠ '=')
    (hvalue : ∀ c ∈ value.toList, CookieChar c) (hpad : ∀ b ∈ pad, BlankByte b) (hpad' : ∀ b ∈ pad', BlankByte b)
    (hb : b ∈ cookiePart cookieName value pad pad') : VisibleByte b ∧ b ≠ 59 := by
  have hblank : ∀ {b : UInt8}, BlankByte b → VisibleByte b ∧ b ≠ 59 := fun h =>
    ⟨h.visible, by rcases h with rfl | rfl <;> decide⟩
  rw [cookiePart, List.mem_append, List.mem_append] at hb
  rcases hb with (hb | hb) | hb
  · exact hblank (hpad b hb)
  · obtain ⟨c, hc, rfl⟩ := List.mem_map.1 hb
    have hchar := cookieChar_pair hname hvalue c hc
    refine ⟨hchar.visibleByte, fun heq => hchar.2.2 (Char.toNat_inj.1 ?_)⟩
    rw [← UInt8.toNat_ofNat_of_lt' (hchar.2.1.trans (by decide)), heq]
    rfl
  · exact hblank (hpad' b hb)

theorem visible_of_readCookie (hget : headers.get "cookie" = some (cookieHeader parts))
    (h : readCookie headers cookieName = some value) : ∀ part ∈ parts, ∀ b ∈ part, VisibleByte b := by
  rw [readCookie_eq, hget, Option.bind_some] at h
  obtain ⟨raw, hraw, -⟩ := Option.bind_eq_some_iff.1 h
  exact (forall_mem_cookieHeader (by decide)).1 (toStr_eq_some.1 hraw).1

/-- The cookie is read back if and only if all the other bytes are visible. -/
theorem readCookie_cookieHeader_iff (hname : ∀ c ∈ cookieName.toList, CookieChar c ∧ c ≠ '=')
    (hvalue : ∀ c ∈ value.toList, CookieChar c) (hpad : ∀ b ∈ pad, BlankByte b) (hpad' : ∀ b ∈ pad', BlankByte b)
    (hothers : ∀ part ∈ before ++ after, OtherCookie cookieName part)
    (hget : headers.get "cookie" = some (cookieHeader (before ++ [cookiePart cookieName value pad pad'] ++ after))) :
    readCookie headers cookieName = some value ↔ ∀ part ∈ before ++ after, ∀ b ∈ part, VisibleByte b := by
  have hmine := fun b hb => mem_cookiePart (b := b) hname hvalue hpad hpad' hb
  constructor
  · intro h part hpart
    refine visible_of_readCookie hget h part ?_
    rw [List.mem_append] at hpart
    simp only [List.mem_append, List.mem_singleton]
    exact hpart.imp_left .inl
  · intro hvisible
    rw [List.forall_mem_append] at hvisible hothers
    have hbytes : ∀ part ∈ before ++ [cookiePart cookieName value pad pad'] ++ after, ∀ b ∈ part, VisibleByte b := by
      simp only [List.forall_mem_append, List.forall_mem_singleton]
      exact ⟨⟨hvisible.1, fun b hb => (hmine b hb).1⟩, hvisible.2⟩
    have hsep : ∀ part ∈ before ++ [cookiePart cookieName value pad pad'] ++ after, (59 : UInt8) ∉ part := by
      simp only [List.forall_mem_append, List.forall_mem_singleton]
      exact ⟨⟨fun part hpart => (hothers.1 part hpart).1, fun hb => (hmine 59 hb).2 rfl⟩,
        fun part hpart => (hothers.2 part hpart).1⟩
    have hbefore : (before.map fun part => String.ofList (textOf part)).findSome? (cookieOfPart cookieName) = none := by
      rw [List.findSome?_eq_none_iff]
      intro text htext
      obtain ⟨part, hpart, rfl⟩ := List.mem_map.1 htext
      exact cookieOfPart_other (hothers.1 part hpart) (hvisible.1 part hpart)
    rw [readCookie_eq, hget, Option.bind_some,
      toStr_eq_some.2 ⟨(forall_mem_cookieHeader (by decide)).2 hbytes, rfl⟩, Option.bind_some,
      split_cookieHeader (by simp) hsep, List.map_append, List.map_append, List.append_assoc, List.findSome?_append,
      hbefore]
    simp [cookieOfPart_cookiePart hname hvalue hpad hpad']

end Header

/-! ### The round trip -/

/-- The alphabet of `base64::URL_SAFE_NO_PAD`. -/
def UrlSafeChar (c : Char) : Prop := c.isAlphanum = true ∨ c = '-' ∨ c = '_'

instance (c : Char) : Decidable (UrlSafeChar c) := inferInstanceAs (Decidable (_ ∨ _))

/-- `serde_json` takes the claims and gives them back, and `base64` does so with the payload and its MAC, as texts
of its alphabet. -/
structure Transparent (crates : Crates) (key : String) (claims : AdminSessionClaims) (payload : List UInt8) : Prop where
  toVec : crates.toVec claims = .ok payload
  fromSlice : crates.fromSlice payload = .ok claims
  decode : ∀ bytes ∈ [payload, crates.hmac key payload], crates.decode (crates.encode bytes) = some bytes
  urlSafe : ∀ bytes ∈ [payload, crates.hmac key payload], ∀ c ∈ (crates.encode bytes).toList, UrlSafeChar c

section RoundTrip

variable {crates : Crates} {secret : String} {claims : AdminSessionClaims} {payload : List UInt8} {c : Char}

theorem UrlSafeChar.cookieChar (h : UrlSafeChar c) : CookieChar c ∧ c ≠ '.' := by
  rcases h with h | rfl | rfl
  · have hrange := isAlphanum_iff.1 h
    refine ⟨⟨by omega, by omega, ?_⟩, ?_⟩ <;> rintro rfl <;> exact absurd hrange (by decide)
  · decide
  · decide

/-- What `sign_session_cookie` makes of claims. -/
def signedValue (crates : Crates) (key : String) (payload : List UInt8) : String :=
  crates.encode payload ++ "." ++ crates.encode (crates.hmac key payload)

theorem signSessionCookie_eq (h : Transparent crates (trim secret) claims payload) (hsecret : trim secret ≠ "") :
    signSessionCookie crates secret claims = .ok (signedValue crates (trim secret) payload) := by
  rw [signSessionCookie, h.toVec]
  simp [signPayload, sessionMac, hsecret, Except.mapError]
  rfl

theorem verifySessionCookie_signedValue (h : Transparent crates (trim secret) claims payload)
    (hsecret : trim secret ≠ "") (now : Instant) :
    verifySessionCookie crates secret (signedValue crates (trim secret) payload) now claims.passwordVersion =
      if now < claims.expiresAt then .ok claims else .error .expired := by
  have hmem : payload ∈ [payload, crates.hmac (trim secret) payload] := List.mem_cons_self
  have hmem' : crates.hmac (trim secret) payload ∈ [payload, crates.hmac (trim secret) payload] := by simp
  have hsplit : splitOnce "." (signedValue crates (trim secret) payload) =
      some (crates.encode payload, crates.encode (crates.hmac (trim secret) payload)) :=
    splitOnce_of_notMem (fun hdot => (h.urlSafe _ hmem _ hdot).cookieChar.2 rfl) _
  have hmac : sessionMac secret = .ok (trim secret) := if_neg hsecret
  unfold verifySessionCookie
  rw [hsplit]
  simp only [okOr, ok_bind, h.decode _ hmem, h.decode _ hmem', hmac, ensure, if_true, h.fromSlice, Except.mapError]
  split_ifs <;> rfl

/-- A signed cookie comes back among cookies of other names, wherever it stands, if and only if the bytes of the
others are visible. Then its claims are read out of it until it expires. -/
theorem session_cookie_round_trip {version : Nat} (now : Instant) (headers : HeaderMap)
    (before after : List (List UInt8)) {pad pad' : List UInt8} (hsecret : trim secret ≠ "")
    (h : Transparent crates (trim secret) claims payload) (hversion : version = claims.passwordVersion)
    (hothers : ∀ part ∈ before ++ after, OtherCookie adminSessionCookieName part)
    (hpad : ∀ b ∈ pad, BlankByte b) (hpad' : ∀ b ∈ pad', BlankByte b) :
    ∃ cookieValue, signSessionCookie crates secret claims = .ok cookieValue ∧
      (headers.get "cookie" = some (cookieHeader (before ++ [cookiePart adminSessionCookieName cookieValue pad pad'] ++
        after)) → (readCookie headers adminSessionCookieName = some cookieValue ↔
          ∀ part ∈ before ++ after, ∀ b ∈ part, VisibleByte b)) ∧
      verifySessionCookie crates secret cookieValue now version =
        if now < claims.expiresAt then .ok claims else .error .expired := by
  have hname : ∀ c ∈ adminSessionCookieName.toList, CookieChar c ∧ c ≠ '=' := forall_mem_of_all (by decide +kernel)
  have hencoded : ∀ bytes ∈ [payload, crates.hmac (trim secret) payload],
      ∀ c ∈ (crates.encode bytes).toList, CookieChar c := fun bytes hbytes c hc =>
    (h.urlSafe bytes hbytes c hc).cookieChar.1
  have hvalue : ∀ c ∈ (signedValue crates (trim secret) payload).toList, CookieChar c :=
    cookieChar_join (hencoded _ (by simp)) (forall_mem_of_all (by decide)) (hencoded _ (by simp))
  refine ⟨_, signSessionCookie_eq h hsecret, readCookie_cookieHeader_iff hname hvalue hpad hpad' hothers, ?_⟩
  rw [hversion]
  exact verifySessionCookie_signedValue h hsecret now

end RoundTrip

theorem transparent_sample : Transparent sampleCrates (trim "s") sampleClaims samplePayload := by
  have hmac : sampleCrates.hmac (trim "s") samplePayload = sampleMac := by
    have htrim : trim "s" = "s" := rfl
    simp [sampleCrates, htrim]
  have hne : sampleMac ≠ samplePayload := by decide +kernel
  have hencode : sampleCrates.encode samplePayload = samplePayloadText ∧
      sampleCrates.encode sampleMac = sampleMacText := by
    simp [sampleCrates, hne]
  have hchars : (∀ c ∈ samplePayloadText.toList, UrlSafeChar c) ∧ ∀ c ∈ sampleMacText.toList, UrlSafeChar c :=
    ⟨forall_mem_of_all (by decide +kernel), forall_mem_of_all (by decide +kernel)⟩
  refine ⟨by simp [sampleCrates], by simp [sampleCrates], ?_, ?_⟩
  · rw [hmac, List.forall_mem_cons, List.forall_mem_singleton, hencode.1, hencode.2]
    exact decode_sample
  · rw [hmac, List.forall_mem_cons, List.forall_mem_singleton, hencode.1, hencode.2]
    exact hchars

theorem otherCookie_of_dropWhile {part : List UInt8} (hsep : (59 : UInt8) ∉ part)
    (h : ¬ bytesOf (adminSessionCookieName ++ "=").toList <+: part.dropWhile fun b => decide (BlankByte b)) :
    OtherCookie adminSessionCookieName part := by
  refine ⟨hsep, ?_⟩
  rintro pad rest hpad rfl
  refine h ⟨rest, ?_⟩
  rw [List.append_assoc, List.dropWhile_append_of_pos fun b hb => decide_eq_true (hpad b hb)]
  exact (List.dropWhile_cons_of_neg (by decide)).symm

def darkTheme : List UInt8 := bytesOf " theme=dark".toList

/-- A cookie with the two bytes of an accented letter. -/
def accentedTheme : List UInt8 := bytesOf " theme=".toList ++ [195, 169]

/-- The request of a browser with another cookie. -/
def besideTheme (theme : List UInt8) : HeaderMap := [("cookie", cookieHeader ([] ++
  [cookiePart adminSessionCookieName (signedValue sampleCrates (trim "s") samplePayload) [] []] ++ [theme]))]

theorem session_cookie_beside_darkTheme :
    readCookie (besideTheme darkTheme) adminSessionCookieName =
      some (signedValue sampleCrates (trim "s") samplePayload) ∧
    verifySessionCookie sampleCrates "s" (signedValue sampleCrates (trim "s") samplePayload) sampleClaims.issuedAt
      sampleClaims.passwordVersion = .ok sampleClaims := by
  have hother : OtherCookie adminSessionCookieName darkTheme :=
    otherCookie_of_dropWhile (by decide +kernel) (by decide +kernel)
  have hsigned := signSessionCookie_eq transparent_sample (by decide)
  obtain ⟨cookieValue, hsign, hread, hverify⟩ := session_cookie_round_trip sampleClaims.issuedAt
    (besideTheme darkTheme) [] [darkTheme] (by decide) transparent_sample rfl (by simpa using hother)
    (List.forall_mem_nil _) (List.forall_mem_nil _)
  obtain rfl := Except.ok.inj (hsigned.symm.trans hsign)
  exact ⟨(hread rfl).2 (by decide +kernel), hverify⟩

theorem session_cookie_beside_accentedTheme : OtherCookie adminSessionCookieName accentedTheme ∧
    signSessionCookie sampleCrates "s" sampleClaims = .ok (signedValue sampleCrates (trim "s") samplePayload) ∧
    readCookie (besideTheme accentedTheme) adminSessionCookieName = none := by
  refine ⟨otherCookie_of_dropWhile (by decide +kernel) (by decide +kernel),
    signSessionCookie_eq transparent_sample (by decide), Option.eq_none_iff_forall_not_mem.2 fun value hvalue => ?_⟩
  have hvisible := visible_of_readCookie rfl hvalue accentedTheme (by simp) 195 (by decide +kernel)
  exact absurd hvisible (by decide)

end FloralSync

import FloralSync.Config.Server

/-!
# Sessions and passwords (`session.rs`, `auth.rs`)

A session cookie carries its claims and a MAC of them, so the server keeps no list of sessions. What comes
from crates is a parameter (`Crates`).
-/

namespace FloralSync

open Except

/-- `DateTime<Utc>`, in nanoseconds since the epoch. -/
abbrev Instant := Int

structure AdminSessionClaims where
  sessionId : String
  issuedAt : Instant
  passwordVersion : Nat
deriving DecidableEq

inductive SessionError
  | emptySecret
  | malformedCookie
  | invalidSignature
  | expired
  | passwordVersionMismatch
  | serialize (message : String)
deriving DecidableEq

structure Crates where
  /-- `Hmac<Sha256>`, with the bytes of a text for the key. -/
  hmac : String → List UInt8 → List UInt8
  /-- `serde_json` -/
  toVec : AdminSessionClaims → Except String (List UInt8)
  fromSlice : List UInt8 → Except String AdminSessionClaims
  /-- `base64::URL_SAFE_NO_PAD` -/
  encode : List UInt8 → String
  decode : String → Option (List UInt8)
  /-- `DefaultHasher`, of a string. -/
  hash : String → Nat
  /-- `Argon2::hash_password`, of a password and a salt. -/
  hashPassword : String → String → Except String String
  /-- `PasswordHash::new` and `Argon2::verify_password`, of a hash and a password; `Error::Password` is no. -/
  verifyPassword : String → String → Except String Bool

def adminSessionTtl : Int := 12 * 3600 * 10 ^ 9

def AdminSessionClaims.expiresAt (claims : AdminSessionClaims) : Instant := claims.issuedAt + adminSessionTtl

/-- `session_mac`, as the key of the MAC. -/
def sessionMac (secret : String) : Except SessionError String :=
  if trim secret = "" then .error .emptySecret else .ok (trim secret)

def signPayload (crates : Crates) (secret : String) (payload : List UInt8) : Except SessionError (List UInt8) := do
  let key ← sessionMac secret
  return crates.hmac key payload

def signSessionCookie (crates : Crates) (secret : String) (claims : AdminSessionClaims) :
    Except SessionError String := do
  let payload ← (crates.toVec claims).mapError .serialize
  let signature ← signPayload crates secret payload
  return crates.encode payload ++ "." ++ crates.encode signature

def verifySessionCookie (crates : Crates) (secret cookieValue : String) (now : Instant)
    (currentPasswordVersion : Nat) : Except SessionError AdminSessionClaims := do
  let (encodedPayload, encodedSignature) ← okOr (splitOnce "." cookieValue) .malformedCookie
  let payload ← okOr (crates.decode encodedPayload) .malformedCookie
  let signature ← okOr (crates.decode encodedSignature) .malformedCookie
  let key ← sessionMac secret
  ensure (crates.hmac key payload = signature) .invalidSignature
  let claims ← (crates.fromSlice payload).mapError .serialize
  ensure (now < claims.expiresAt) .expired
  ensure (claims.passwordVersion = currentPasswordVersion) .passwordVersionMismatch
  return claims

inductive AuthError
  | emptyPassword
  | passwordHash (message : String)
deriving DecidableEq

/-- `AuthError: Display` -/
def AuthError.toString : AuthError → String
  | .emptyPassword => "admin password must not be empty"
  | .passwordHash message => "password hash error: " ++ message

def hashAdminPassword (crates : Crates) (password salt : String) : Except AuthError String :=
  if password = "" then .error .emptyPassword
  else (crates.hashPassword password salt).mapError .passwordHash

def verifyAdminPassword (crates : Crates) (hash password : String) : Except AuthError Bool :=
  if password = "" then .ok false
  else (crates.verifyPassword hash password).mapError .passwordHash

def bootstrapRequired (config : ServerConfig) : Bool := config.adminPasswordHash.isNone

/-! ### What a cookie that verifies is -/

section Verify

variable {crates : Crates} {secret key cookieValue : String} {now : Instant} {version : Nat}
  {claims : AdminSessionClaims}

theorem sessionMac_eq_ok : sessionMac secret = .ok key ↔ trim secret ≠ "" ∧ key = trim secret := by
  unfold sessionMac
  split_ifs with h <;> simp [h, eq_comm]

theorem verifySessionCookie_eq_ok : verifySessionCookie crates secret cookieValue now version = .ok claims ↔
    ∃ encodedPayload encodedSignature payload, splitOnce "." cookieValue = some (encodedPayload, encodedSignature) ∧
      crates.decode encodedPayload = some payload ∧ trim secret ≠ "" ∧
      crates.decode encodedSignature = some (crates.hmac (trim secret) payload) ∧
      crates.fromSlice payload = .ok claims ∧ now < claims.expiresAt ∧ claims.passwordVersion = version := by
  simp only [verifySessionCookie, bind_eq_ok, mapError_eq_ok, okOr_eq_ok, ensure_eq_ok, sessionMac_eq_ok, exists_const]
  constructor
  · rintro ⟨⟨encodedPayload, encodedSignature⟩, hsplit, payload, hpayload, _, hsignature, _, ⟨hne, rfl⟩, rfl, _,
      hclaims, hnow, hversion, h⟩
    obtain rfl := Except.ok.inj h
    exact ⟨encodedPayload, encodedSignature, payload, hsplit, hpayload, hne, hsignature, hclaims, hnow, hversion⟩
  · rintro ⟨encodedPayload, encodedSignature, payload, hsplit, hpayload, hne, hsignature, hclaims, hnow, hversion⟩
    exact ⟨(encodedPayload, encodedSignature), hsplit, payload, hpayload, _, hsignature, _, ⟨hne, rfl⟩, rfl, claims,
      hclaims, hnow, hversion, rfl⟩

end Verify
end FloralSync

import FloralSync.Admin.Passwords

/-!
# Which sessions are live

The server checks a cookie by its MAC, its age and the password version in its claims, without a list of
sessions. If MACs cannot be forged and the version tells the password hashes apart, then the requests that
pass are those of sessions issued since the last password change (`requireSession_live`).
-/

namespace FloralSync

open Rust Except Stateful Trace

/-- A session that this server issued with its secret, less than 12 hours ago, under the password hash in
force, and since that one came into force. -/
structure AdminSystem.Live (s : AdminSystem) (now : Instant) (session : Issued) : Prop where
  mem : session ∈ s.issued
  key : session.key = trim s.runtime.effective.adminSessionSecret
  recent : now < session.claims.issuedAt + 12 * 3600 * 10 ^ 9
  passwordHash : session.passwordHash = s.runtime.effective.adminPasswordHash
  issuedIn : session.issuedIn = s.hashes.length

/-- HMAC-SHA256 is not forged: if the MAC in the cookie of a request fits the secret, then it was made for a
session that was issued with it. -/
def Unforged (crates : Crates) (s : AdminSystem) (headers : HeaderMap) : Prop :=
  ∀ cookieValue encodedPayload encodedSignature payload,
    readCookie headers adminSessionCookieName = some cookieValue →
    splitOnce "." cookieValue = some (encodedPayload, encodedSignature) →
    crates.decode encodedPayload = some payload →
    crates.decode encodedSignature = some (crates.hmac (trim s.runtime.effective.adminSessionSecret) payload) →
    ∃ session ∈ s.issued, session.key = trim s.runtime.effective.adminSessionSecret ∧
      crates.toVec session.claims = .ok payload

/-- `DefaultHasher` tells the password hashes apart, and none of them has the version of a missing one. -/
structure Distinguishes (crates : Crates) (hashes : List (Option String)) : Prop where
  injective : ∀ a b, some a ∈ hashes → some b ∈ hashes → crates.hash a = crates.hash b → a = b
  ne_zero : ∀ a, some a ∈ hashes → crates.hash a ≠ 0

/-- `serde_json` and `base64` give back what they were given; base64 texts have no dot. -/
structure Lossless (crates : Crates) (claims : AdminSessionClaims) : Prop where
  fromSlice : ∀ {payload}, crates.toVec claims = .ok payload → crates.fromSlice payload = .ok claims
  decode : ∀ {payload}, crates.toVec claims = .ok payload → crates.decode (crates.encode payload) = some payload
  dot : ∀ {payload}, crates.toVec claims = .ok payload → '.' ∉ (crates.encode payload).toList

section Live

variable {crates : Crates} {s s₀ : AdminSystem} {trace : List (AdminSystem × Option PasswordWrite)}
  {headers : HeaderMap} {now : Instant} {claims : AdminSessionClaims} {session : Issued}
  {secret cookieValue encodedPayload encodedSignature : String} {payload : List UInt8}

theorem splitOnce_signSessionCookie (h : signSessionCookie crates secret claims = .ok cookieValue)
    (hlossless : Lossless crates claims) : ∃ payload encodedSignature, crates.toVec claims = .ok payload ∧
      splitOnce "." cookieValue = some (crates.encode payload, encodedSignature) := by
  simp only [signSessionCookie, bind_eq_ok, mapError_eq_ok] at h
  obtain ⟨payload, hpayload, signature, -, hcookie⟩ := h
  obtain rfl := Except.ok.inj hcookie
  exact ⟨payload, _, hpayload, splitOnce_of_notMem (hlossless.dot hpayload) _⟩

/-- The password version of a session tells that it was issued under the hash in force. -/
theorem AdminSystem.Inv.issuedIn_eq (h : s.Inv crates) (hfresh : Fresh s.hashes)
    (hdistinct : Distinguishes crates s.hashes) (hmem : session ∈ s.issued)
    (hversion : session.claims.passwordVersion = passwordVersion crates s.runtime.effective) :
    session.passwordHash = s.runtime.effective.adminPasswordHash ∧
      s.runtime.effective.adminPasswordHash ≠ none ∧ session.issuedIn = s.hashes.length := by
  have hgenuine := h.issued session hmem
  obtain ⟨hash, hhash, hhashVersion, hthen⟩ := hgenuine.passwordHash
  have hmemHash := mem_of_mem_asOf hthen
  unfold passwordVersion at hversion
  cases hcurrent : s.runtime.effective.adminPasswordHash with
  | none =>
    rw [hcurrent, hhashVersion] at hversion
    exact absurd hversion (hdistinct.ne_zero hash hmemHash)
  | some current =>
    rw [hcurrent, hhashVersion] at hversion
    obtain rfl := hdistinct.injective hash current hmemHash (h.mem hcurrent) hversion
    exact ⟨hhash, by simp, eq_length_of_mem_asOf hgenuine.issuedIn_le (hcurrent ▸ h.head) (hfresh hash) hthen⟩

/-- A request that passes has the cookie of a live session. So no cookie from before the last password change
passes, and none passes while there is no password. -/
theorem requireSession_live (h : Run (AdminSystem.Step crates) s₀ trace s) (h₀ : s₀.Start crates)
    (hfresh : Fresh s.hashes) (hdistinct : Distinguishes crates s.hashes)
    (hlossless : ∀ session ∈ s.issued, Lossless crates session.claims) (hunforged : Unforged crates s headers)
    (hsession : requireSession crates now headers s.runtime.effective = .ok claims) :
    (∃ session, s.Live now session ∧ session.claims = claims) ∧
      (∀ session ∈ s.issued, session.issuedIn < s.hashes.length → ∀ secret cookieValue,
        signSessionCookie crates secret session.claims = .ok cookieValue →
          readCookie headers adminSessionCookieName ≠ some cookieValue) ∧
      s.runtime.effective.adminPasswordHash ≠ none := by
  have hinv := h.invariant h₀.inv AdminSystem.Inv.step
  obtain ⟨cookieValue, hcookie, hverify⟩ := requireSession_eq_ok.1 hsession
  obtain ⟨encodedPayload, encodedSignature, payload, hsplit, hpayload, -, hsignature, hclaims, hnow, hversion⟩ :=
    verifySessionCookie_eq_ok.1 hverify
  have hclaimsOf : ∀ session ∈ s.issued, crates.toVec session.claims = .ok payload → session.claims = claims := by
    intro session hmem htoVec
    exact Except.ok.inj (((hlossless session hmem).fromSlice htoVec).symm.trans hclaims)
  have hissuedIn : ∀ session ∈ s.issued, session.claims = claims → session.passwordHash =
      s.runtime.effective.adminPasswordHash ∧ s.runtime.effective.adminPasswordHash ≠ none ∧
        session.issuedIn = s.hashes.length := by
    intro session hmem heq
    exact hinv.issuedIn_eq hfresh hdistinct hmem (heq ▸ hversion)
  obtain ⟨session, hmem, hkey, htoVec⟩ :=
    hunforged cookieValue encodedPayload encodedSignature payload hcookie hsplit hpayload hsignature
  obtain rfl := hclaimsOf session hmem htoVec
  obtain ⟨hhash, hne, hlast⟩ := hissuedIn session hmem rfl
  refine ⟨⟨session, ⟨hmem, hkey, hnow, hhash, hlast⟩, rfl⟩, ?_, hne⟩
  intro old hold hlt secret oldCookie hsign hread
  -- the cookie would have the claims of the older session as well
  obtain rfl := Option.some.inj (hread.symm.trans hcookie)
  obtain ⟨oldPayload, _, holdPayload, holdSplit⟩ := splitOnce_signSessionCookie hsign (hlossless old hold)
  obtain ⟨rfl, -⟩ := Prod.mk.inj (Option.some.inj (holdSplit.symm.trans hsplit))
  obtain rfl := Option.some.inj (((hlossless old hold).decode holdPayload).symm.trans hpayload)
  obtain ⟨-, -, hlast⟩ := hissuedIn old hold (hclaimsOf old hold holdPayload)
  exact absurd hlast (ne_of_lt hlt)

theorem toVec_sample : sampleCrates.toVec sampleClaims = .ok samplePayload := by simp [sampleCrates]

theorem lossless_sample : Lossless sampleCrates sampleClaims := by
  have hpayload : ∀ {payload}, sampleCrates.toVec sampleClaims = .ok payload → samplePayload = payload :=
    fun h => Except.ok.inj (toVec_sample.symm.trans h)
  have hencode : sampleCrates.encode samplePayload = samplePayloadText := by simp [sampleCrates]
  refine ⟨fun h => ?_, fun h => ?_, fun h => ?_⟩ <;> obtain rfl := hpayload h
  · simp [sampleCrates]
  · rw [hencode, decode_sample.1]
  · rw [hencode]
    exact dot_notMem_samplePayloadText

theorem unforged_sample : Unforged sampleCrates sampleSystem sampleHeaders := by
  intro cookieValue encodedPayload encodedSignature payload hcookie hsplit hpayload _
  obtain rfl := Option.some.inj (readCookie_sample.symm.trans hcookie)
  obtain ⟨rfl, -⟩ := Prod.mk.inj (Option.some.inj (splitOnce_sample.symm.trans hsplit))
  obtain rfl := Option.some.inj (decode_sample.1.symm.trans hpayload)
  exact ⟨_, List.mem_cons_self, rfl, toVec_sample⟩

theorem distinguishes_sample : Distinguishes sampleCrates sampleSystem.hashes := by
  have hmem : ∀ a, some a ∈ sampleSystem.hashes → a = sampleHash := by simp [sampleSystem]
  constructor
  · intro a b ha hb _
    rw [hmem a ha, hmem b hb]
  · intro a ha
    rw [hmem a ha]
    simp [sampleCrates]

/-- An hour after the first password was set. -/
theorem live_sample :
    requireSession sampleCrates (sampleClaims.issuedAt + 3600 * 10 ^ 9) sampleHeaders sampleSystem.runtime.effective =
      .ok sampleClaims ∧
    ∃ session, sampleSystem.Live (sampleClaims.issuedAt + 3600 * 10 ^ 9) session ∧ session.claims = sampleClaims := by
  obtain ⟨trace, hrun, -, -⟩ := run_sampleSystem
  have hsession := requireSession_sample sampleSystem.runtime.effective
    (show sampleClaims.issuedAt + 3600 * 10 ^ 9 < sampleClaims.expiresAt by decide) rfl rfl
  have hlossless : ∀ session ∈ sampleSystem.issued, Lossless sampleCrates session.claims := by
    simp [sampleSystem, lossless_sample]
  exact ⟨hsession, (requireSession_live hrun start_firstSystem fresh_sampleSystem distinguishes_sample hlossless
    unforged_sample hsession).1⟩

end Live
end FloralSync

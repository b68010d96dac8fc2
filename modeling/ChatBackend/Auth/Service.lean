import ChatBackend.Foundations.Schedule
import ChatBackend.Auth.Data
import Mathlib

/-!
# The authentication service

`register_or_token`, `sign_in_with_apple` and `refresh`, statement by statement. A random draw that
is only used by the statement after it (a new user id, a new refresh token) is drawn by that
statement.
-/

namespace ChatBackend.Auth

/-- The statements of the service. -/
inductive AuthStmt : Type
  | uuid4
  | now
  | selectDevice (deviceId : DeviceId)
  | touchDevice (deviceId : DeviceId)
  | insertUser
  | insertDevice (userId : ℕ) (deviceId : DeviceId)
  | upsertDevice (deviceId : DeviceId) (userId : ℕ)
  | selectIdentity (subject : String)
  | hasApple (userId : ℕ)
  | insertIdentity (userId : ℕ) (subject : String) (email : Option String)
  | insertRefreshToken (userId : ℕ) (deviceId : DeviceId) (ttl : ℕ)
  | selectRefreshToken (tokenHash : TokenHash)
  | markUsed (id : ℕ)
  | revokeChain (userId : ℕ) (deviceId : DeviceId)

/-- What a statement returns. -/
@[reducible] def AuthStmt.Resp : AuthStmt → Type
  | uuid4 => DeviceId
  | now => ℕ
  | selectDevice _ => Option ℕ
  | touchDevice _ => Unit
  | insertUser => ℕ
  | insertDevice .. => Unit
  | upsertDevice .. => Unit
  | selectIdentity _ => Option ℕ
  | hasApple _ => Bool
  | insertIdentity .. => Unit
  | insertRefreshToken .. => RefreshToken
  | selectRefreshToken _ => Option AuthRefreshToken
  | markUsed _ => Unit
  | revokeChain .. => Unit

/-- The effect of a statement at the time `t` on the tables `d` that it reads: what it returns,
what it writes and the next random draw. -/
def AuthStmt.run (t g : ℕ) (d : AuthDb) : (s : AuthStmt) → s.Resp × List AuthOp × ℕ
  | uuid4 => (.drawn g, [], g + 1)
  | now => (t, [], g)
  | selectDevice dev => (d.deviceUser dev, [], g)
  | touchDevice dev => ((), if (d.deviceUser dev).isSome then [.touchDevice dev] else [], g)
  | insertUser => (g, [.insertUser g], g + 1)
  | insertDevice u dev =>
    ((), if (d.deviceUser dev).isSome then [] else [.insertDevice ⟨dev, u⟩], g)
  | upsertDevice dev u =>
    ((), if (d.deviceUser dev).isSome then [.setDeviceUser dev u] else [.insertDevice ⟨dev, u⟩], g)
  | selectIdentity sub => (d.subjectUser sub, [], g)
  | hasApple u => (d.hasApple u, [], g)
  | insertIdentity u sub email =>
    ((), if (d.subjectUser sub).isSome then [] else [.insertIdentity ⟨u, sub, email⟩], g)
  | insertRefreshToken u dev ttl =>
    (g + 1, [.insertToken ⟨g, u, dev, .sha256 (g + 1), t + ttl, none, none⟩], g + 2)
  | selectRefreshToken h => (d.tokens.find? fun r => r.tokenHash = h, [], g)
  | markUsed id => ((), [.markUsed id t], g)
  | revokeChain u dev => ((), [.revoke (d.chain u dev) t], g)

/-- The exceptions of the service. -/
inductive AuthError : Type
  | serviceUnavailable (message : String)
  | unauthorized (message : String)
  deriving DecidableEq, Repr

/-- An access token: what the issuer signs. -/
structure AccessToken where
  sub : ℕ
  deviceId : DeviceId
  deriving DecidableEq, Repr

structure IssuedTokens where
  userId : ℕ
  deviceId : DeviceId
  accessToken : AccessToken
  expiresIn : ℕ
  refreshToken : RefreshToken
  refreshExpiresIn : ℕ
  deriving DecidableEq, Repr

/-- The settings of the issuer: whether it has a signing key, and the lifetimes. -/
structure AuthSettings where
  configured : Bool
  accessTtl : ℕ
  refreshTtl : ℕ

/-- What the verifier returns for an identity token. -/
structure VerifiedAppleIdentity where
  appleSub : String
  email : Option String
  deriving DecidableEq, Repr

abbrev AuthProg (α : Type) : Type := TxProg AuthStmt AuthStmt.Resp AuthError α

/-! ## The statements as programs -/

abbrev uuid4 : AuthProg DeviceId := TxProg.stmt AuthStmt.uuid4

/-- `datetime.now(UTC)`. -/
abbrev now : AuthProg ℕ := TxProg.stmt AuthStmt.now

abbrev selectDevice (deviceId : DeviceId) : AuthProg (Option ℕ) :=
  TxProg.stmt (AuthStmt.selectDevice deviceId)

/-- `UPDATE auth_devices SET last_seen_at = now() ..`. -/
abbrev touchDevice (deviceId : DeviceId) : AuthProg Unit :=
  TxProg.stmt (AuthStmt.touchDevice deviceId)

/-- A new user: `uuid.uuid4()` and `INSERT INTO users .. ON CONFLICT (id) DO NOTHING`. -/
abbrev insertUser : AuthProg ℕ := TxProg.stmt AuthStmt.insertUser

/-- `INSERT INTO auth_devices .. ON CONFLICT (device_id) DO NOTHING`: a row that is there already is
not locked. -/
abbrev insertDevice (userId : ℕ) (deviceId : DeviceId) : AuthProg Unit :=
  TxProg.stmt (AuthStmt.insertDevice userId deviceId)

/-- `_upsert_device`: `ON CONFLICT (device_id) DO UPDATE SET user_id = EXCLUDED.user_id`. -/
abbrev upsertDevice (deviceId : DeviceId) (userId : ℕ) : AuthProg Unit :=
  TxProg.stmt (AuthStmt.upsertDevice deviceId userId)

abbrev selectIdentity (subject : String) : AuthProg (Option ℕ) :=
  TxProg.stmt (AuthStmt.selectIdentity subject)

abbrev hasApple (userId : ℕ) : AuthProg Bool := TxProg.stmt (AuthStmt.hasApple userId)

/-- `INSERT INTO auth_identities .. ON CONFLICT (provider, subject) DO NOTHING`. -/
abbrev insertIdentity (userId : ℕ) (subject : String) (email : Option String) : AuthProg Unit :=
  TxProg.stmt (AuthStmt.insertIdentity userId subject email)

/-- `secrets.token_urlsafe(32)` and the insert of its row. -/
abbrev insertRefreshToken (userId : ℕ) (deviceId : DeviceId) (ttl : ℕ) : AuthProg RefreshToken :=
  TxProg.stmt (AuthStmt.insertRefreshToken userId deviceId ttl)

abbrev selectRefreshToken (tokenHash : TokenHash) : AuthProg (Option AuthRefreshToken) :=
  TxProg.stmt (AuthStmt.selectRefreshToken tokenHash)

/-- `UPDATE auth_refresh_tokens SET used_at = now() WHERE id = :id`. -/
abbrev markUsed (id : ℕ) : AuthProg Unit := TxProg.stmt (AuthStmt.markUsed id)

/-- `_revoke_chain`. -/
abbrev revokeChain (userId : ℕ) (deviceId : DeviceId) : AuthProg Unit :=
  TxProg.stmt (AuthStmt.revokeChain userId deviceId)

/-! ## The methods -/

section Methods

variable (cfg : AuthSettings)

/-- `_require_issuer`, and the issuer's own check when it signs. -/
def requireIssuer : AuthProg Unit :=
  if cfg.configured then pure ()
  else throw (.serviceUnavailable "auth issuer is not configured")

/-- `device_id or str(uuid.uuid4())`. -/
def resolveDeviceId : Option DeviceId → AuthProg DeviceId
  | none => uuid4
  | some dev => if dev = .given "" then uuid4 else pure dev

/-- Resolve the user of a device, creating both for a new device. -/
def findOrCreateIdentity (deviceId : DeviceId) : AuthProg ℕ := do
  match ← selectDevice deviceId with
  | some userId => do
    touchDevice deviceId
    pure userId
  | none => do
    let newUserId ← insertUser
    insertDevice newUserId deviceId
    match ← selectDevice deviceId with
    | none => throw (.serviceUnavailable "failed to provision device identity")
    | some winner => pure winner

/-- Issue an access token and a fresh refresh token. -/
def issuePair (userId : ℕ) (deviceId : DeviceId) : AuthProg IssuedTokens := do
  requireIssuer cfg
  let refreshToken ← insertRefreshToken userId deviceId cfg.refreshTtl
  pure ⟨userId, deviceId, ⟨userId, deviceId⟩, cfg.accessTtl, refreshToken, cfg.refreshTtl⟩

def registerOrToken (deviceId : Option DeviceId) : AuthProg IssuedTokens := do
  requireIssuer cfg
  let resolvedDeviceId ← resolveDeviceId deviceId
  let userId ← findOrCreateIdentity resolvedDeviceId
  let tokens ← issuePair cfg userId resolvedDeviceId
  TxProg.commit
  pure tokens

/-- The user that a new Apple identity is linked to: the user of the device, unless that user has
an Apple identity already. -/
def linkTarget (deviceUserId : ℕ) : AuthProg ℕ := do
  match ← hasApple deviceUserId with
  | false => pure deviceUserId
  | true => insertUser

/-- `_resolve_apple_user`. -/
def resolveAppleUser (appleSub : String) (email : Option String) (deviceId : DeviceId) :
    AuthProg ℕ := do
  match ← selectIdentity appleSub with
  | some userId => pure userId
  | none => do
    let deviceUserId ← findOrCreateIdentity deviceId
    let linkTo ← linkTarget deviceUserId
    insertIdentity linkTo appleSub email
    match ← selectIdentity appleSub with
    | none => throw (.serviceUnavailable "failed to link apple identity")
    | some winner => pure winner

/-- Sign in with Apple, given what the verifier makes of the identity token. -/
def signInWithApple (verified : Except AuthError VerifiedAppleIdentity)
    (deviceId : Option DeviceId) : AuthProg IssuedTokens := do
  requireIssuer cfg
  match verified with
  | .error e => throw e
  | .ok identity => do
    let resolvedDeviceId ← resolveDeviceId deviceId
    let targetUserId ← resolveAppleUser identity.appleSub identity.email resolvedDeviceId
    upsertDevice resolvedDeviceId targetUserId
    let tokens ← issuePair cfg targetUserId resolvedDeviceId
    TxProg.commit
    pure tokens

/-- The rotation of a token that has passed the checks. -/
def rotate (row : AuthRefreshToken) : AuthProg IssuedTokens := do
  markUsed row.id
  let tokens ← issuePair cfg row.userId row.deviceId
  TxProg.commit
  pure tokens

/-- The check of the expiry, at the time `t`. -/
def rotateUnexpired (row : AuthRefreshToken) (t : ℕ) : AuthProg IssuedTokens :=
  if row.expiresAt ≤ t then throw (.unauthorized "refresh token expired")
  else rotate cfg row

/-- Rotate a refresh token into a new pair; a token that was used before revokes the chain. -/
def refresh (refreshToken : RefreshToken) : AuthProg IssuedTokens := do
  requireIssuer cfg
  match ← selectRefreshToken (.sha256 refreshToken) with
  | none => throw (.unauthorized "invalid refresh token")
  | some row =>
    if row.usedAt ≠ none then do
      revokeChain row.userId row.deviceId
      TxProg.commit
      throw (.unauthorized "refresh token reuse detected")
    else if row.revokedAt ≠ none then
      throw (.unauthorized "refresh token revoked")
    else do
      let t ← now
      rotateUnexpired cfg row t

/-- The requests. `register` and `token` share one method. -/
inductive AuthCall : Type
  | register (deviceId : Option DeviceId)
  | apple (verified : Except AuthError VerifiedAppleIdentity) (deviceId : Option DeviceId)
  | refresh (refreshToken : RefreshToken)

/-- The method that serves a request. -/
def AuthCall.method : AuthCall → AuthProg IssuedTokens
  | register deviceId => registerOrToken cfg deviceId
  | apple verified deviceId => signInWithApple cfg verified deviceId
  | refresh refreshToken => Auth.refresh cfg refreshToken

/-- A request: the method in a session. -/
def AuthCall.serve (c : AuthCall) : AuthProg IssuedTokens := TxProg.sessionScope (c.method cfg)

end Methods

/-! ## The store -/

/-- The authentication tables as a read-committed store. The sequences are the random draws and the
clock. -/
def authStore : Store AuthStmt AuthStmt.Resp AuthDb AuthOp (ℕ × ℕ) Unit where
  apply := AuthOp.apply
  exec s g _ d r ops g' _ := ∃ t, g.2 ≤ t ∧ g'.2 = t ∧ s.run t g.1 d = (r, ops, g'.1)
  compat l l' := ∀ k ∈ l.flatMap AuthOp.locks, k ∉ l'.flatMap AuthOp.locks
  gen_le {s g g' m m' d r ops} h := by
    obtain ⟨t, ht, hg, h⟩ := h
    refine ⟨?_, hg ▸ ht⟩
    cases s <;> simp only [AuthStmt.run, Prod.mk.injEq] at h <;> omega
  compat_symm h k hk hk' := h k hk' hk
  compat_nil l k hk := by simp at hk

end ChatBackend.Auth

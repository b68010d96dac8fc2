import ChatBackend.Model.Data

/-!
# The tables of the authentication service

Devices, external identities and refresh tokens, and the writes on them. The tables only have the
columns that the service reads. User ids and refresh tokens are random draws, which are
assumed not to collide; so is the hash of a token.
-/

namespace ChatBackend.Auth

/-- A device id: any text of a client, or the text of a UUID that the server has drawn. -/
inductive DeviceId : Type
  | given (text : String)
  | drawn (uuid : ℕ)
  deriving DecidableEq, Repr

/-- An opaque refresh token. -/
abbrev RefreshToken : Type := ℕ

/-- `_hash_refresh`: what is stored of a refresh token. -/
inductive TokenHash : Type
  | sha256 (token : RefreshToken)
  deriving DecidableEq, Repr

/-- A row of `auth_devices`. -/
structure AuthDevice where
  deviceId : DeviceId
  userId : ℕ
  deriving DecidableEq, Repr

/-- A row of `auth_identities` whose provider is Apple, the only one. -/
structure AuthIdentity where
  userId : ℕ
  subject : String
  email : Option String
  deriving DecidableEq, Repr

/-- A row of `auth_refresh_tokens`. -/
structure AuthRefreshToken where
  id : ℕ
  userId : ℕ
  deviceId : DeviceId
  tokenHash : TokenHash
  expiresAt : ℕ
  usedAt : Option ℕ
  revokedAt : Option ℕ
  deriving DecidableEq, Repr

/-- Neither used nor revoked. -/
def AuthRefreshToken.Active (r : AuthRefreshToken) : Prop := r.usedAt = none ∧ r.revokedAt = none

instance (r : AuthRefreshToken) : Decidable r.Active := inferInstanceAs (Decidable (_ ∧ _))

/-- The tables. -/
structure AuthDb where
  users : List ℕ
  devices : List AuthDevice
  identities : List AuthIdentity
  tokens : List AuthRefreshToken
  deriving DecidableEq, Repr

/-- The writes. The time a device was last seen is not kept, but writing it locks the row. -/
inductive AuthOp : Type
  | insertUser (id : ℕ)
  | insertDevice (row : AuthDevice)
  | touchDevice (deviceId : DeviceId)
  | setDeviceUser (deviceId : DeviceId) (userId : ℕ)
  | insertIdentity (row : AuthIdentity)
  | insertToken (row : AuthRefreshToken)
  | markUsed (id : ℕ) (now : ℕ)
  | revoke (ids : List ℕ) (now : ℕ)
  deriving DecidableEq, Repr

/-- `SET user_id = ..` on the row of a device. -/
def AuthDevice.setUser (d : DeviceId) (u : ℕ) (r : AuthDevice) : AuthDevice :=
  if r.deviceId = d then { r with userId := u } else r

/-- `SET used_at = ..` on the row with this id. -/
def AuthRefreshToken.markUsed (id now : ℕ) (r : AuthRefreshToken) : AuthRefreshToken :=
  if r.id = id then { r with usedAt := some now } else r

/-- `SET revoked_at = ..` on the rows with these ids. -/
def AuthRefreshToken.revoke (ids : List ℕ) (now : ℕ) (r : AuthRefreshToken) : AuthRefreshToken :=
  if r.id ∈ ids then { r with revokedAt := some now } else r

/-- The effect of a write. -/
def AuthOp.apply : AuthOp → AuthDb → AuthDb
  | insertUser id, d => { d with users := d.users ++ [id] }
  | insertDevice row, d => { d with devices := d.devices ++ [row] }
  | touchDevice _, d => d
  | setDeviceUser dev u, d => { d with devices := d.devices.map (AuthDevice.setUser dev u) }
  | insertIdentity row, d => { d with identities := d.identities ++ [row] }
  | insertToken row, d => { d with tokens := d.tokens ++ [row] }
  | markUsed id now, d => { d with tokens := d.tokens.map (AuthRefreshToken.markUsed id now) }
  | revoke ids now, d => { d with tokens := d.tokens.map (AuthRefreshToken.revoke ids now) }

/-- What a write holds until its transaction ends: rows, and keys of unique indexes. -/
inductive AuthLock : Type
  | user (id : ℕ)
  | device (deviceId : DeviceId)
  | subject (subject : String)
  | token (id : ℕ)
  | tokenHash (hash : TokenHash)
  deriving DecidableEq, Repr

def AuthOp.locks : AuthOp → List AuthLock
  | insertUser id => [.user id]
  | insertDevice row => [.device row.deviceId]
  | touchDevice d => [.device d]
  | setDeviceUser d _ => [.device d]
  | insertIdentity row => [.subject row.subject]
  | insertToken row => [.token row.id, .tokenHash row.tokenHash]
  | markUsed id _ => [.token id]
  | revoke ids _ => ids.map .token

/-! ## Reading -/

namespace AuthDb

variable (d : AuthDb)

/-- The user of a device. -/
def deviceUser (dev : DeviceId) : Option ℕ :=
  (d.devices.find? fun r => r.deviceId = dev).map AuthDevice.userId

/-- The user of an Apple subject. -/
def subjectUser (sub : String) : Option ℕ :=
  (d.identities.find? fun r => r.subject = sub).map AuthIdentity.userId

/-- The user has an Apple identity. -/
def hasApple (u : ℕ) : Bool := d.identities.any fun r => r.userId = u

/-- The row of a refresh token. -/
def token (t : RefreshToken) : Option AuthRefreshToken :=
  d.tokens.find? fun r => r.tokenHash = .sha256 t

/-- The rows of a user on a device that are not revoked. -/
def chain (u : ℕ) (dev : DeviceId) : List ℕ :=
  (d.tokens.filter fun r => r.userId = u ∧ r.deviceId = dev ∧ r.revokedAt = none).map
    AuthRefreshToken.id

variable {d}

theorem hasApple_iff {u : ℕ} : d.hasApple u = true ↔ ∃ r ∈ d.identities, r.userId = u := by
  simp [hasApple]

theorem deviceUser_none {dev : DeviceId} (h : d.deviceUser dev = none) (r : AuthDevice)
    (hr : r ∈ d.devices) : r.deviceId ≠ dev := by
  have := List.find?_eq_none.1 (Option.map_eq_none_iff.1 h) r hr
  simpa using this

theorem subjectUser_some {sub : String} {u : ℕ} (h : d.subjectUser sub = some u) :
    ∃ r ∈ d.identities, r.subject = sub ∧ r.userId = u := by
  obtain ⟨r, hr, rfl⟩ := Option.map_eq_some_iff.1 h
  exact ⟨r, List.mem_of_find?_eq_some hr, by simpa using List.find?_some hr, rfl⟩

theorem subjectUser_none {sub : String} (h : d.subjectUser sub = none) (r : AuthIdentity)
    (hr : r ∈ d.identities) : r.subject ≠ sub := by
  have := List.find?_eq_none.1 (Option.map_eq_none_iff.1 h) r hr
  simpa using this

theorem token_some {t : RefreshToken} {r : AuthRefreshToken} (h : d.token t = some r) :
    r ∈ d.tokens ∧ r.tokenHash = .sha256 t :=
  ⟨List.mem_of_find?_eq_some h, by simpa using List.find?_some h⟩

end AuthDb

end ChatBackend.Auth

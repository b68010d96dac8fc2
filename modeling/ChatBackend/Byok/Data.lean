import ChatBackend.Foundations.ReadCommitted
import ChatBackend.Chat.Messages
import ChatBackend.Model.Data

/-!
# The key of a user

The rows of `byok_keys`, the columns that a flush writes, the detection of a key's provider, and the
encryption. `updated_at` is left out: nothing reads it.
-/

namespace ChatBackend.Byok

open Chat (Provider strip)

/-- A byte string, one character a byte. -/
abbrev Bytes : Type := String

/-- `byok_key_status`. -/
inductive KeyStatus : Type
  | valid
  | invalid
  | missing
  | validating
  | offline
  | expired
  deriving DecidableEq, Repr

def KeyStatus.str : KeyStatus → String
  | valid => "valid"
  | invalid => "invalid"
  | missing => "missing"
  | validating => "validating"
  | offline => "offline"
  | expired => "expired"

/-- `KeyValidation`. -/
inductive KeyValidation : Type
  | valid
  | invalid
  | offline
  deriving DecidableEq, Repr

/-- The status of a key with the outcome of its validation. -/
def KeyValidation.keyStatus : KeyValidation → KeyStatus
  | valid => .valid
  | invalid => .invalid
  | offline => .offline

/-- `detect_byok_provider`. -/
@[irreducible] def detectByokProvider (apiKey : String) : Option Provider :=
  let key := (strip apiKey).toList
  if "sk-ant-".toList.isPrefixOf key then some .anthropic
  else if "sk-proj-".toList.isPrefixOf key then some .openai
  else if "sk-".toList.isPrefixOf key then some .openai
  else none

/-! ## Encryption -/

/-- AES-GCM with a data key and a nonce, and the key management that wraps data keys, whose
randomness is a number. What they encrypt they decrypt. -/
structure Crypto where
  encrypt : (dek nonce : Bytes) → (plaintext : String) → Bytes
  decrypt : (dek nonce ciphertext : Bytes) → Option String
  encryptDek : (random : ℕ) → (dek : Bytes) → Bytes
  decryptDek : (encryptedDek : Bytes) → Option Bytes
  decrypt_encrypt : ∀ dek nonce plaintext, decrypt dek nonce (encrypt dek nonce plaintext) = some plaintext
  decryptDek_encryptDek : ∀ random dek, decryptDek (encryptDek random dek) = some dek

/-- The columns that hold an encrypted key. -/
structure Sealed where
  encryptedKey : Bytes
  encryptedDek : Bytes
  nonce : Bytes
  deriving DecidableEq, Repr

/-- The key in its columns: the data key is unwrapped and the key is decrypted. -/
def Crypto.plaintext (crypto : Crypto) (s : Sealed) : Option String :=
  (crypto.decryptDek s.encryptedDek).bind fun dek => crypto.decrypt dek s.nonce s.encryptedKey

/-- A key, encrypted. -/
def Crypto.encryptKey (crypto : Crypto) (dek nonce : Bytes) (random : ℕ) (apiKey : String) : Sealed :=
  ⟨crypto.encrypt dek nonce apiKey, crypto.encryptDek random dek, nonce⟩

@[simp] theorem Crypto.plaintext_encryptKey (crypto : Crypto) (dek nonce : Bytes) (random : ℕ)
    (apiKey : String) : crypto.plaintext (crypto.encryptKey dek nonce random apiKey) = some apiKey := by
  rw [plaintext, encryptKey, crypto.decryptDek_encryptDek, Option.bind_some, crypto.decrypt_encrypt]

/-! ## Rows -/

/-- A row of `byok_keys`, whose primary key is the user. -/
structure ByokKey where
  encryptedKey : Bytes
  encryptedDek : Bytes
  nonce : Bytes
  keyStatus : KeyStatus
  enabled : Bool
  provider : Option Provider
  deriving DecidableEq, Repr

/-- The encrypted key of the row. -/
def ByokKey.sealed (row : ByokKey) : Sealed := ⟨row.encryptedKey, row.encryptedDek, row.nonce⟩

/-- The columns that an `UPDATE` of the row sets. -/
structure ByokChange where
  encryptedKey : Option Bytes
  encryptedDek : Option Bytes
  nonce : Option Bytes
  keyStatus : Option KeyStatus
  enabled : Option Bool
  provider : Option (Option Provider)
  deriving DecidableEq, Repr

/-- An attribute that the session has changed since it loaded the row. -/
def changed {α : Type} [DecidableEq α] (loaded new : α) : Option α :=
  if new = loaded then none else some new

@[simp] theorem changed_getD {α : Type} [DecidableEq α] (loaded new : α) :
    (changed loaded new).getD loaded = new := by
  unfold changed
  split
  · rename_i h
    exact h.symm
  · rfl

namespace ByokKey

/-- The flush writes the attributes whose value has changed since the row was loaded. -/
def changeTo (loaded new : ByokKey) : ByokChange where
  encryptedKey := changed loaded.encryptedKey new.encryptedKey
  encryptedDek := changed loaded.encryptedDek new.encryptedDek
  nonce := changed loaded.nonce new.nonce
  keyStatus := changed loaded.keyStatus new.keyStatus
  enabled := changed loaded.enabled new.enabled
  provider := changed loaded.provider new.provider

def change (c : ByokChange) (row : ByokKey) : ByokKey where
  encryptedKey := c.encryptedKey.getD row.encryptedKey
  encryptedDek := c.encryptedDek.getD row.encryptedDek
  nonce := c.nonce.getD row.nonce
  keyStatus := c.keyStatus.getD row.keyStatus
  enabled := c.enabled.getD row.enabled
  provider := c.provider.getD row.provider

/-- Where the row is still the one that was loaded, the flush makes it the new one. -/
@[simp] theorem change_changeTo (loaded new : ByokKey) : loaded.change (loaded.changeTo new) = new := by
  simp [change, changeTo]

end ByokKey

/-! ## The tables -/

/-- The tables that the service writes. -/
structure ByokDb where
  keys : ℕ → Option ByokKey
  audits : List AuditEvent

def ByokDb.empty : ByokDb := ⟨fun _ => none, []⟩

/-- The writes. An update keeps the row that was loaded and the one that is wanted. -/
inductive ByokOp : Type
  | insertKey (userId : ℕ) (row : ByokKey)
  | updateKey (userId : ℕ) (loaded new : ByokKey)
  | deleteKey (userId : ℕ)
  | insertAudit (event : AuditEvent)

namespace ByokOp

/-- The effect of a write. -/
def apply : ByokOp → ByokDb → ByokDb
  | insertKey u row, d => { d with keys := Function.update d.keys u (some row) }
  | updateKey u loaded new, d =>
    { d with keys := Function.update d.keys u ((d.keys u).map fun row => row.change (loaded.changeTo new)) }
  | deleteKey u, d => { d with keys := Function.update d.keys u none }
  | insertAudit event, d => { d with audits := d.audits ++ [event] }

/-- The row that a write holds until its transaction ends. -/
def lock : ByokOp → Option ℕ
  | insertKey u _ => some u
  | updateKey u _ _ => some u
  | deleteKey u => some u
  | insertAudit _ => none

/-- The logs hold different rows. -/
def Apart (l l' : List ByokOp) : Prop :=
  ∀ u ∈ l.filterMap lock, u ∉ l'.filterMap lock

end ByokOp

end ChatBackend.Byok

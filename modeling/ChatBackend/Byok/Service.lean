import ChatBackend.Byok.Data
import ChatBackend.Foundations.Schedule
import ChatBackend.Policy.Loader

/-!
# The key service

`set_key`, `toggle`, `delete_key`, `mark_invalid`, `mark_expired` and the readers of the key,
statement by statement, and a generation with the user's key, as far as it is about the key. A
method loads the row, changes its attributes and flushes them; the row is not locked in between.
-/

namespace ChatBackend.Byok

open Chat (Provider)
open Policy (SubscriptionStatus)

/-- What a provider answers a call with. -/
inductive Reply : Type
  /-- 401. -/
  | authError
  /-- Another failure. -/
  | error
  /-- A final message. -/
  | final
  /-- Tool calls of the server, after which the provider is called again. -/
  | toolUse
  deriving DecidableEq, Repr

inductive ByokError : Type
  | integrity
  | staleData
  | validationFailed (message : String)
  | upstream
  | internal
  deriving DecidableEq, Repr

/-- What the providers have said so far: the keys that were rejected, as they are stored, and the
outcomes of the validations. -/
@[ext] structure Answers where
  rejected : List Sealed
  validated : List (Provider × String × KeyValidation)

def Answers.none : Answers := ⟨[], []⟩

instance : Preorder Answers where
  le a b := a.rejected <+: b.rejected ∧ a.validated <+: b.validated
  le_refl a := ⟨List.prefix_rfl, List.prefix_rfl⟩
  le_trans _ _ _ h h' := ⟨h.1.trans h'.1, h.2.trans h'.2⟩

/-- The statements, and the calls to other services. -/
inductive ByokStmt : Type
  /-- `_load`. To mark a key as expired, `rejected` is the one that was rejected; the query does not
  name it. -/
  | load (userId : ℕ) (rejected : Option Sealed)
  | insert (userId : ℕ) (row : ByokKey)
  | flush (userId : ℕ) (loaded new : ByokKey)
  | delete (userId : ℕ)
  | record (event : AuditEvent)
  | urandom
  | encryptDek (dek : Bytes)
  | validateKey (provider : Provider) (apiKey : String)
  | subscription (userId : ℕ)
  /-- `create_message` with the key that `used` holds. -/
  | createMessage (provider : Provider) (apiKey : String) (used : Sealed)

namespace ByokStmt

/-- What a statement returns. -/
@[reducible] def Resp : ByokStmt → Type
  | load .. => Option ByokKey
  | insert .. => Bool
  | flush .. => Bool
  | delete _ => Unit
  | record _ => Unit
  | urandom => Bytes × Bytes
  | encryptDek _ => Bytes
  | validateKey .. => KeyValidation
  | subscription _ => SubscriptionStatus
  | createMessage .. => Reply

/-- The answers that are possible on the tables `d`. -/
def Allowed (crypto : Crypto) (d : ByokDb) : (s : ByokStmt) → s.Resp → Prop
  | load u _, r => r = d.keys u
  | insert u _, r => r = (d.keys u).isNone
  | flush u loaded new, r => r = (decide (new = loaded) || (d.keys u).isSome)
  | encryptDek dek, r => ∃ random, r = crypto.encryptDek random dek
  | _, _ => True

/-- The writes. A flush without changes is no statement. -/
def writes (d : ByokDb) : ByokStmt → List ByokOp
  | insert u row => if (d.keys u).isNone then [.insertKey u row] else []
  | flush u loaded new =>
    if new ≠ loaded ∧ (d.keys u).isSome then [.updateKey u loaded new] else []
  | delete u => if (d.keys u).isSome then [.deleteKey u] else []
  | record event => [.insertAudit event.redacted]
  | _ => []

/-- The answers with the one that the statement has got. -/
def outside (g : Answers) : (s : ByokStmt) → s.Resp → Answers
  | validateKey provider apiKey, validation =>
    { g with validated := g.validated ++ [(provider, apiKey, validation)] }
  | createMessage _ _ used, .authError => { g with rejected := g.rejected ++ [used] }
  | _, _ => g

theorem le_outside (g : Answers) (s : ByokStmt) (r : s.Resp) : g ≤ s.outside g r := by
  unfold outside
  split
  · exact ⟨List.prefix_rfl, List.prefix_append _ _⟩
  · exact ⟨List.prefix_append _ _, List.prefix_rfl⟩
  · exact le_refl g

end ByokStmt

/-- The store of the service. -/
def byokStore (crypto : Crypto) : Store ByokStmt ByokStmt.Resp ByokDb ByokOp Answers Unit where
  apply := ByokOp.apply
  exec s g _ d r ops g' _ := s.Allowed crypto d r ∧ ops = s.writes d ∧ g' = s.outside g r
  compat := ByokOp.Apart
  gen_le := by
    rintro s g g' m m' d r ops ⟨-, -, rfl⟩
    exact s.le_outside g r
  compat_symm h u hu hu' := h u hu' hu
  compat_nil _ := nofun

abbrev ByokProg (α : Type) : Type := TxProg ByokStmt ByokStmt.Resp ByokError α

/-! ## The methods -/

/-- `BYOKResult`. -/
structure ByokResult where
  byokEnabled : Bool
  keyStatus : KeyStatus
  activeModel : Option String
  deriving DecidableEq, Repr

/-- The settings of the service. -/
structure ByokSettings where
  llmProvider : Provider
  byokDefaultModelFor : Provider → String
  maxServerToolRounds : ℕ

/-- `_active_model_for`. -/
def activeModelFor (settings : ByokSettings) (keyStatus : KeyStatus) (provider : Option Provider) :
    Option String :=
  if keyStatus ≠ .valid then none
  else some (settings.byokDefaultModelFor (provider.getD settings.llmProvider))

/-! ### Statements -/

abbrev urandom : ByokProg (Bytes × Bytes) := TxProg.stmt ByokStmt.urandom

abbrev encryptDek (dek : Bytes) : ByokProg Bytes := TxProg.stmt (ByokStmt.encryptDek dek)

abbrev validateKey (provider : Provider) (apiKey : String) : ByokProg KeyValidation :=
  TxProg.stmt (ByokStmt.validateKey provider apiKey)

abbrev subscription (userId : ℕ) : ByokProg SubscriptionStatus :=
  TxProg.stmt (ByokStmt.subscription userId)

abbrev createMessage (provider : Provider) (apiKey : String) (used : Sealed) : ByokProg Reply :=
  TxProg.stmt (ByokStmt.createMessage provider apiKey used)

abbrev load (userId : ℕ) (rejected : Option Sealed) : ByokProg (Option ByokKey) :=
  TxProg.stmt (ByokStmt.load userId rejected)

abbrev delete (userId : ℕ) : ByokProg Unit := TxProg.stmt (ByokStmt.delete userId)

def record (userId : ℕ) (payload : List (String × Json)) : ByokProg Unit :=
  TxProg.stmt (ByokStmt.record ⟨userId, none, .byokChange, .obj payload⟩)

/-- `flush` of a row that was loaded; it raises when the row is gone. -/
def flush (userId : ℕ) (loaded new : ByokKey) : ByokProg Unit := do
  let found ← (TxProg.stmt (ByokStmt.flush userId loaded new) : ByokProg Bool)
  if found then pure () else throw .staleData

/-- `flush` of a new row; it raises when there is one. -/
def insert (userId : ℕ) (row : ByokKey) : ByokProg Unit := do
  let inserted ← (TxProg.stmt (ByokStmt.insert userId row) : ByokProg Bool)
  if inserted then pure () else throw .integrity

/-! ### Methods -/

/-- The row of a key that is set, given the row that was there. -/
def storedRow (key : Sealed) (keyStatus : KeyStatus) (provider : Option Provider)
    (existing : Option ByokKey) : ByokKey where
  encryptedKey := key.encryptedKey
  encryptedDek := key.encryptedDek
  nonce := key.nonce
  keyStatus := keyStatus
  -- An invalid key must not leave byok enabled.
  enabled := match existing with
    | none => false
    | some row => if keyStatus ≠ .valid then false else row.enabled
  provider := provider

/-- `_store_key`. -/
def storeKey (crypto : Crypto) (settings : ByokSettings) (userId : ℕ) (apiKey : String)
    (keyStatus : KeyStatus) (provider : Option Provider) : ByokProg ByokResult := do
  let (dek, nonce) ← urandom
  let encryptedKey := crypto.encrypt dek nonce apiKey
  let encryptedDek ← encryptDek dek
  let existing ← load userId none
  let row := storedRow ⟨encryptedKey, encryptedDek, nonce⟩ keyStatus provider existing
  match existing with
  | none => insert userId row
  | some loaded => flush userId loaded row
  record userId [("action", .str "set"), ("keyStatus", .str keyStatus.str),
    ("byokEnabled", .bool row.enabled)]
  pure ⟨row.enabled, keyStatus, activeModelFor settings keyStatus provider⟩

/-- `set_key`. -/
def setKey (crypto : Crypto) (settings : ByokSettings) (userId : ℕ) (apiKey : String) :
    ByokProg ByokResult :=
  match detectByokProvider apiKey with
  | none => storeKey crypto settings userId apiKey .invalid none
  | some provider => do
    let validation ← validateKey provider apiKey
    storeKey crypto settings userId apiKey validation.keyStatus (some provider)

/-- `toggle`. -/
def toggle (settings : ByokSettings) (userId : ℕ) (enabled : Bool) : ByokProg ByokResult := do
  match ← load userId none with
  | none => pure ⟨false, .missing, none⟩
  | some row =>
    if enabled ∧ row.keyStatus ≠ .valid then do
      record userId [("action", .str "toggle_rejected"), ("requested", .bool enabled),
        ("keyStatus", .str row.keyStatus.str)]
      pure ⟨false, row.keyStatus, activeModelFor settings row.keyStatus row.provider⟩
    else do
      flush userId row { row with enabled := enabled }
      record userId [("action", .str "toggle"), ("byokEnabled", .bool enabled),
        ("keyStatus", .str row.keyStatus.str)]
      pure ⟨enabled, row.keyStatus, activeModelFor settings row.keyStatus row.provider⟩

/-- `delete_key`. -/
def deleteKey (userId : ℕ) : ByokProg ByokResult := do
  delete userId
  record userId [("action", .str "delete"), ("byokEnabled", .bool false), ("keyStatus", .str "missing")]
  pure ⟨false, .missing, none⟩

/-- `get_status`. -/
def getStatus (settings : ByokSettings) (userId : ℕ) : ByokProg ByokResult := do
  match ← load userId none with
  | none => pure ⟨false, .missing, none⟩
  | some row => pure ⟨row.enabled, row.keyStatus, activeModelFor settings row.keyStatus row.provider⟩

/-- A key that is no longer good: `mark_invalid` and `mark_expired`. -/
def markAs (keyStatus : KeyStatus) (action : String) (userId : ℕ) (rejected : Option Sealed) :
    ByokProg Unit := do
  match ← load userId rejected with
  | none => pure ()
  | some row => do
    flush userId row { row with keyStatus := keyStatus, enabled := false }
    record userId [("action", .str action), ("keyStatus", .str keyStatus.str)]

/-- `mark_invalid`. -/
def markInvalid (userId : ℕ) : ByokProg Unit := markAs .invalid "runtime_invalidate" userId none

/-- `mark_expired`. -/
def markExpired (userId : ℕ) (rejected : Option Sealed) : ByokProg Unit :=
  markAs .expired "runtime_expire" userId rejected

/-- The key of a row with its provider; no value is an exception of the decryption. -/
def plaintextKeyWithProvider (crypto : Crypto) (row : ByokKey) : Option (String × Option Provider) :=
  (crypto.plaintext row.sealed).map fun key => (key, row.provider <|> detectByokProvider key)

/-- `get_plaintext_key_with_provider`, with the row that the key is from. -/
def getPlaintextKeyWithProvider (crypto : Crypto) (userId : ℕ) :
    ByokProg (Option (Sealed × String × Option Provider)) := do
  match ← load userId none with
  | none => pure none
  | some row =>
    match plaintextKeyWithProvider crypto row with
    | none => throw .internal
    | some (key, provider) => pure (some (row.sealed, key, provider))

/-! ## A generation with the user's key -/

/-- The loop of `_generate_loop`, with the iterations that are left. -/
def generateRounds (userId : ℕ) (provider : Provider) (apiKey : String) (used : Sealed) :
    ℕ → ByokProg Unit
  | 0 => throw .upstream
  | n + 1 => do
    TxProg.commit
    match ← createMessage provider apiKey used with
    | .authError => do
      markExpired userId (some used)
      TxProg.commit
    | .error => throw .upstream
    | .final => TxProg.commit
    | .toolUse => do
      TxProg.commit
      generateRounds userId provider apiKey used n

/-- A turn in byok mode: the policy is asked, the key is read, and the provider is called. -/
def generation (crypto : Crypto) (settings : ByokSettings) (userId : ℕ) : ByokProg Unit := do
  let subscription ← subscription userId
  let row ← load userId none
  match Policy.evaluate (Policy.loadPolicyState none subscription none row) .byok with
  | .blocked _ => pure ()
  | .allowed =>
    match ← getPlaintextKeyWithProvider crypto userId with
    | none => throw (.validationFailed "byok key unavailable")
    | some (_, _, none) => TxProg.commit
    | some (used, key, some provider) =>
      generateRounds userId provider key used (settings.maxServerToolRounds + 1)

end ChatBackend.Byok

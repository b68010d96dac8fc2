import ChatBackend.Billing.Service
import ChatBackend.Foundations.Tabled

/-!
# The admin service

`grant` and `grant_subscription` of the admin service, over the billing tables and the audit events of
an operator. Each runs in the session of its request: it is `session_scope` that commits.
-/

namespace ChatBackend.Admin

open Store Wallet Billing

/-- The events that only an operator causes. -/
inductive AdminEventType : Type
  | adminGrant
  | adminSubscriptionGrant
  deriving DecidableEq, Repr

/-- The `AuditEvent` of an operator. -/
structure AdminEvent where
  userId : ℕ
  eventType : AdminEventType
  payload : Json

inductive AdminError : Type
  | userNotFound (message : String)
  | billing (e : BillingError)

abbrev AdminDb : Type := Tabled BillingDb AdminEvent

abbrev AdminOp : Type := TabledOp BillingOp AdminEvent

abbrev AdminStmt : Type := TabledStmt BillingStmt AdminEvent

/-- The tables as a read-committed store. -/
abbrev adminStore :
    Store AdminStmt (TabledStmt.Resp BillingStmt.Resp) AdminDb AdminOp (ℕ × Time) Unit :=
  billingStore.tabled AdminEvent

abbrev AdminProg (α : Type) : Type :=
  TxProg AdminStmt (TabledStmt.Resp BillingStmt.Resp) AdminError α

/-- What the billing services do, in the session of the request. -/
abbrev billing {α : Type} (p : BillingProg α) : AdminProg α := Store.lift AdminError.billing p

/-- The row that `AuditService.record` inserts. -/
def AdminEvent.redacted (e : AdminEvent) : AdminEvent := { e with payload := e.payload.assertNoSecrets }

/-- `self._audit.record`. -/
abbrev recordAdmin (event : AdminEvent) : AdminProg Unit := Store.insertRow event.redacted

/-- How texts are made of identifiers and of points in time. -/
structure AdminTexts where
  /-- The text of an idempotency key. -/
  key : IdemKey → String
  isoformat : Time → String

/-- `AdminGrantResult`. -/
structure AdminGrantResult where
  newBalance : ℤ
  ledgerTxId : ℕ
  idempotentReplay : Bool
  deriving DecidableEq, Repr

/-- `AdminSubscriptionGrantResult`; its status is active. -/
structure AdminSubscriptionGrantResult where
  expiresAt : Time
  plan : String
  creditsGranted : ℤ
  newBalance : Option ℤ
  ledgerTxId : Option ℕ
  idempotentReplay : Option Bool
  deriving DecidableEq, Repr

variable (texts : AdminTexts) (settings : BillingSettings)

/-- `_require_user_exists`. -/
def requireUserExists (userId : ℕ) : AdminProg Unit := do
  if ← billing (userExists userId) then pure () else throw (.userNotFound "user not found")

/-- The audit event of a grant. -/
def grantEvent (userId : ℕ) (amount : ℤ) (idempotencyKey : IdemKey) (reason : String)
    (result : ConsumeResult) : AdminEvent :=
  ⟨userId, .adminGrant, .obj
    [("actor", .str "admin"), ("userId", .num userId), ("amount", .num amount), ("reason", .str reason),
      ("idempotencyKey", .str (texts.key idempotencyKey)), ("ledgerTxId", .num result.ledgerTxId),
      ("idempotentReplay", .bool result.idempotentReplay)]⟩

/-- `grant`. -/
def grant (userId : ℕ) (amount : ℤ) (idempotencyKey : IdemKey) (reason : String) :
    AdminProg AdminGrantResult := do
  requireUserExists userId
  let result ← billing (Billing.grant userId amount idempotencyKey
    (.obj [("source", .str "admin"), ("reason", .str reason)]) reason)
  recordAdmin (grantEvent texts userId amount idempotencyKey reason result)
  pure ⟨result.newBalance, result.ledgerTxId, result.idempotentReplay⟩

/-- `admin-sub-grant:{idempotency_key}`. -/
def subscriptionKey (idempotencyKey : IdemKey) : IdemKey :=
  .text ("admin-sub-grant:" ++ texts.key idempotencyKey)

/-- The credits of a grant: those of the request, or those of a period. -/
def effectiveCredits (credits : Option ℤ) : ℤ := credits.getD settings.subscriptionCreditsPerPeriod

/-- `if effective_credits > 0: grant = await self._wallet.grant(..)`. -/
def grantCredits (userId : ℕ) (credits : ℤ) (idempotencyKey : IdemKey) :
    BillingProg (Option ConsumeResult) :=
  if 0 < credits then do
    let result ← Billing.grant userId credits (subscriptionKey texts idempotencyKey)
      (.obj [("source", .str "admin"), ("reason", .str "admin_subscription_grant")])
      "admin_subscription_grant"
    pure (some result)
  else pure none

/-- The audit event of a subscription. -/
def subscriptionEvent (userId : ℕ) (expiresAt : Time) (plan : String) (idempotencyKey : IdemKey)
    (credits : ℤ) (result : Option ConsumeResult) : AdminEvent :=
  ⟨userId, .adminSubscriptionGrant, .obj
    ([("actor", .str "admin"), ("userId", .num userId), ("plan", .str plan), ("status", .str "active"),
      ("expiresAt", .str (texts.isoformat expiresAt)), ("creditsGranted", .num credits),
      ("idempotencyKey", .str (texts.key idempotencyKey))] ++
      result.toList.map fun r => ("ledgerTxId", .num r.ledgerTxId))⟩

/-- `grant_subscription`. -/
def grantSubscription (userId : ℕ) (expiresAt : Time) (plan : String) (idempotencyKey : IdemKey)
    (credits : Option ℤ) : AdminProg AdminSubscriptionGrantResult := do
  requireUserExists userId
  billing (upsertSubscription userId ⟨.active, some plan, some expiresAt⟩)
  let result ← billing (grantCredits texts userId (effectiveCredits settings credits) idempotencyKey)
  recordAdmin (subscriptionEvent texts userId expiresAt plan idempotencyKey
    (effectiveCredits settings credits) result)
  pure ⟨expiresAt, plan, effectiveCredits settings credits, result.map (·.newBalance),
    result.map (·.ledgerTxId), result.map (·.idempotentReplay)⟩

/-- The requests of operators. -/
inductive AdminCall : Type
  | grant (userId : ℕ) (amount : ℤ) (idempotencyKey : IdemKey) (reason : String)
  | grantSubscription (userId : ℕ) (expiresAt : Time) (plan : String) (idempotencyKey : IdemKey)
      (credits : Option ℤ)

/-- What they are answered with. -/
inductive AdminAnswer : Type
  | grant (result : AdminGrantResult)
  | subscription (result : AdminSubscriptionGrantResult)
  deriving DecidableEq, Repr

/-- The row of the ledger that an answer names. -/
def AdminAnswer.ledgerTxId : AdminAnswer → Option ℕ
  | grant result => some result.ledgerTxId
  | subscription result => result.ledgerTxId

def AdminCall.prog : AdminCall → AdminProg AdminAnswer
  | grant userId amount key reason => do
    let result ← Admin.grant texts userId amount key reason
    pure (.grant result)
  | grantSubscription userId expiresAt plan key credits => do
    let result ← Admin.grantSubscription texts settings userId expiresAt plan key credits
    pure (.subscription result)

/-- A request, in its session. -/
def AdminCall.serve (c : AdminCall) : AdminProg AdminAnswer :=
  TxProg.sessionScope (c.prog texts settings)

end ChatBackend.Admin

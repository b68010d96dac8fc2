import ChatBackend.Billing.Service

/-!
# Subscription sync and token purchase

The two services that take a transaction signed by Apple: `sync` sets the subscription from it and
credits a period, `purchase` credits a token product. What the verifier makes of the signed text is
given: a verified transaction, or the refusal of the text.
-/

namespace ChatBackend.Billing.StoreKit

open Wallet Policy

/-- `VerifiedTransaction`. -/
structure VerifiedTransaction where
  transactionId : String
  originalTransactionId : String
  productId : String
  expiresAt : Option Time
  revoked : Bool
  environment : String

/-- `StoreKitVerifier.verify`; no value is a `ValidationFailedError`. -/
abbrev Verifier : Type := String → Option VerifiedTransaction

/-- A text or `None`: `product_id or None`. -/
def orNone (s : String) : Option String := if s = "" then none else some s

/-- `_effective_subscription_status` at the time `t`. -/
def effectiveSubscriptionStatus (t : Time) (row : Option Subscription) : SubscriptionStatus :=
  match row with
  | none => .none
  | some row =>
    match row.status with
    | .none => .none
    | .expired => .expired
    | .active =>
      match row.expiresAt with
      | some e => if e ≤ t then .expired else .active
      | none => .active

/-! ## Sync -/

/-- The transaction gives access at the time `t`. -/
def activeAt (t : Time) (v : VerifiedTransaction) : Bool :=
  !v.revoked && match v.expiresAt with
    | some e => t < e
    | none => false

/-- `SubscriptionResult`. -/
structure SubscriptionResult where
  isSubscribed : Bool
  expiresAt : Option Time
  plan : Option String

/-- The row that `sync` wants. -/
def wanted (v : VerifiedTransaction) (active : Bool) : Subscription :=
  ⟨if active then .active else .expired, orNone v.productId, v.expiresAt⟩

/-- `sub-grant:{transaction_id}`. -/
def syncKey (transactionId : String) : IdemKey := .text ("sub-grant:" ++ transactionId)

/-- `if active: await self._wallet.grant(..)`. -/
def grantPeriod (settings : BillingSettings) (userId : ℕ) (v : VerifiedTransaction) :
    Bool → BillingProg Unit
  | true => do
    let _ ← grant userId settings.subscriptionCreditsPerPeriod (syncKey v.transactionId)
      (.obj [("reason", .str "subscription_period"), ("transactionId", .str v.transactionId),
        ("productId", .str v.productId)]) "subscription_period"
    pure ()
  | false => pure ()

/-- The audit row of a sync. -/
def syncAudit (userId : ℕ) (v : VerifiedTransaction) (active : Bool) : AuditEvent :=
  ⟨userId, none, .subscriptionChange, .obj
    [("status", .str (if active then "active" else "expired")),
      ("plan", .ofOption ((orNone v.productId).map .str)),
      ("transactionId", .str v.transactionId), ("environment", .str v.environment),
      ("revoked", .bool v.revoked)]⟩

/-- What `sync` does with a verified transaction. -/
def reconcile (settings : BillingSettings) (userId : ℕ) (v : VerifiedTransaction) (active : Bool) :
    BillingProg SubscriptionResult := do
  let row ← readSubscription userId
  flushSubscription userId (wanted v active) row
  grantPeriod settings userId v active
  recordAudit (syncAudit userId v active)
  pure ⟨active, v.expiresAt, orNone v.productId⟩

/-- `SubscriptionService.sync`. -/
def sync (verify : Verifier) (settings : BillingSettings) (userId : ℕ)
    (signedTransaction : String) : BillingProg SubscriptionResult :=
  match verify signedTransaction with
  | none => throw (.validationFailed "StoreKit transaction invalid")
  | some v => do
    let t ← now
    reconcile settings userId v (activeAt t v)

/-! ## Purchase -/

/-- `PurchaseResult`. -/
structure PurchaseResult where
  creditsAdded : ℤ
  newBalance : ℤ
  transactionId : String

/-- `token-purchase:{transaction_id}`. -/
def purchaseKey (transactionId : String) : IdemKey := .text ("token-purchase:" ++ transactionId)

/-- `_credits_for_product` and the grant. -/
def purchaseVerified (settings : BillingSettings) (userId : ℕ) (v : VerifiedTransaction) :
    BillingProg PurchaseResult :=
  match settings.tokenProducts.get v.productId with
  | none => throw (.validationFailed "unknown token product")
  | some credits => do
    let result ← grant userId credits (purchaseKey v.transactionId)
      (.obj [("source", .str "token_purchase"), ("productId", .str v.productId),
        ("transactionId", .str v.transactionId)]) "token_purchase"
    pure ⟨if result.idempotentReplay then 0 else credits, result.newBalance, v.transactionId⟩

/-- `TokenPurchaseService.purchase`. The state of the policy is read for the subscription only. -/
def purchase (verify : Verifier) (settings : BillingSettings) (userId : ℕ)
    (signedTransaction : String) : BillingProg PurchaseResult := do
  let row ← readSubscription userId
  let t ← now
  if effectiveSubscriptionStatus t row = .active then
    match verify signedTransaction with
    | none => throw (.validationFailed "StoreKit transaction invalid")
    | some v => purchaseVerified settings userId v
  else throw (.subscriptionRequired "an active subscription is required to buy tokens")

end ChatBackend.Billing.StoreKit

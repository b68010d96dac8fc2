import ChatBackend.Billing.Service

/-!
# The webhook of Adapty

`handle` parses the body defensively, and applies an event that it recognises in one transaction:
the row of the journal, the subscription, the credits and the audit row. An event is applied once
by its id, and a billing period is credited once by the key of its transaction.
-/

namespace ChatBackend.Billing.Adapty

open Wallet Policy

/-! ## The parser -/

def grantingEvents : List String := ["trial_started", "subscription_started", "subscription_renewed"]

def expiringEvents : List String := ["subscription_expired", "subscription_cancelled"]

def noopEvents : List String := ["subscription_renewal_cancelled", "trial_renewal_cancelled"]

def conditionalEvents : List String := ["access_level_updated"]

def knownEvents : List String := grantingEvents ++ expiringEvents ++ noopEvents ++ conditionalEvents

inductive Semantics : Type
  | granting
  | expiring
  | noop
  deriving DecidableEq, Repr

def Semantics.text : Semantics → String
  | granting => "granting"
  | expiring => "expiring"
  | noop => "noop"

/-- `ParsedEvent`. -/
structure ParsedEvent where
  eventId : String
  eventType : String
  customerUserId : ℕ
  vendorProductId : Option String
  expiresAt : Option Time
  transactionId : Option String
  originalTransactionId : Option String
  isActive : Option Bool
  accessLevelId : Option String
  willRenew : Option Bool

section Parser

variable (py : Python) (body : WireJson)

def props : WireJson := asDict (body.get "event_properties")

def profile : WireJson := asDict (body.get "profile")

def parseEventId : Option String :=
  firstStr [body.get "profile_event_id", (props body).get "profile_event_id", body.get "event_id",
    body.get "id"]

def parseEventType : String :=
  ((firstStr [body.get "event_type", body.get "event", (props body).get "event_type",
    body.get "type"]).map py.lower).getD ""

def parseCustomerUserId : Option ℕ :=
  (firstStr [body.get "customer_user_id", (profile body).get "customer_user_id",
    (props body).get "customer_user_id", body.get "user_id"]).bind py.uuid

def parseVendorProductId : Option String :=
  firstStr [(props body).get "vendor_product_id", (props body).get "product_id",
    body.get "vendor_product_id", body.get "product_id"]

/-- A trailing `Z` is written as an offset. -/
def isoOffset (raw : String) : String :=
  if raw.endsWith "Z" then (raw.dropEnd 1).toString ++ "+00:00" else raw

def parseExpiresAt : Option Time :=
  (firstStr [(props body).get "subscription_expires_at", (props body).get "expires_at",
    body.get "subscription_expires_at", body.get "expires_at",
    (profile body).get "expires_at"]).bind fun raw => py.fromisoformat (isoOffset raw)

def parseTransactionId : Option String :=
  firstStr [(props body).get "transaction_id", body.get "transaction_id"]

def parseOriginalTransactionId : Option String :=
  firstStr [(props body).get "original_transaction_id", body.get "original_transaction_id"]

def parseIsActive : Option Bool :=
  firstBool [(props body).get "is_active", body.get "is_active"]

def parseAccessLevelId : Option String :=
  firstStr [(props body).get "access_level_id", body.get "access_level_id"]

def parseWillRenew : Option Bool :=
  firstBool [(props body).get "will_renew", body.get "will_renew"]

/-- The event of a body with an event id and a user. -/
def parsedEvent (eventId : String) (customerUserId : ℕ) : ParsedEvent :=
  ⟨eventId, parseEventType py body, customerUserId, parseVendorProductId body,
    parseExpiresAt py body, parseTransactionId body, parseOriginalTransactionId body,
    parseIsActive body, parseAccessLevelId body, parseWillRenew body⟩

end Parser

/-- `classify_event`. -/
def classifyEvent (event : ParsedEvent) : Semantics :=
  if event.eventType ∈ grantingEvents then .granting
  else if event.eventType ∈ expiringEvents then .expiring
  else if event.eventType ∈ noopEvents then .noop
  else if event.isActive = some true ∧ event.accessLevelId = some "premium" then .granting
  else if event.isActive = some false then .expiring
  else .noop

/-! ## The service -/

inductive Outcome : Type
  | ignored
  | duplicate
  | applied
  deriving DecidableEq, Repr

/-- `WebhookOutcome`. -/
structure WebhookOutcome where
  result : Outcome
  reason : Option String
  eventType : Option String
  deriving DecidableEq, Repr

/-- `_ignored`. -/
def ignored (reason : Option String) (eventType : Option String) : WebhookOutcome :=
  ⟨.ignored, reason, eventType⟩

/-- The id of the billing transaction. A parsed id is not empty, so that the first one that is
there counts. -/
def ParsedEvent.txn (event : ParsedEvent) : String :=
  (event.transactionId.or event.originalTransactionId).getD event.eventId

/-- `_tier_for`. An amount of the map is not 0, so that it counts when it is there. -/
def tierFor (settings : BillingSettings) (vendorProductId : Option String) : ℤ :=
  (settings.adaptyProductTokens.get (vendorProductId.getD "")).getD
    settings.adaptySubscriptionTokensGrant

/-- `adapty-txn:{txn}`. -/
def grantKey (txn : String) : IdemKey := .text ("adapty-txn:" ++ txn)

/-- A text or `None`. -/
def optStr (s : Option String) : Json := .ofOption (s.map .str)

/-- The row that `_upsert_subscription` wants, given the one it has loaded. -/
def wanted (event : ParsedEvent) (semantics : Semantics) (row : Option Subscription) :
    Subscription :=
  if semantics = .granting then ⟨.active, event.vendorProductId, event.expiresAt⟩
  else ⟨.expired, row.bind (·.plan), row.bind (·.expiresAt)⟩

/-- `_upsert_subscription`. -/
def upsertSubscription (event : ParsedEvent) (semantics : Semantics) :
    BillingProg (SubscriptionStatus × Option String) := do
  let row ← readSubscription event.customerUserId
  flushSubscription event.customerUserId (wanted event semantics row) row
  pure ((wanted event semantics row).status, (wanted event semantics row).plan)

/-- `_grant`. -/
def grantTier (settings : BillingSettings) (event : ParsedEvent) : BillingProg ConsumeResult :=
  grant event.customerUserId (tierFor settings event.vendorProductId) (grantKey event.txn)
    (.obj [("transactionId", .str event.txn), ("eventType", .str event.eventType),
      ("vendorProductId", optStr event.vendorProductId)]) "adapty_subscription"

/-- `if semantics == SEM_GRANTING: await self._grant(event, txn)`. -/
def grantIf (settings : BillingSettings) (event : ParsedEvent) :
    Semantics → BillingProg Unit
  | .granting => do
    let _ ← grantTier settings event
    pure ()
  | _ => pure ()

/-- The subscription and the credits of an event; the status and the plan are for the audit row. -/
def mutate (settings : BillingSettings) (event : ParsedEvent) : Semantics →
    BillingProg (Option SubscriptionStatus × Option String)
  | .noop => do
    let row ← readSubscription event.customerUserId
    pure (row.map (·.status), row.bind (·.plan))
  | semantics => do
    let (status, plan) ← upsertSubscription event semantics
    grantIf settings event semantics
    pure (some status, plan)

def statusText : SubscriptionStatus → String
  | .active => "active"
  | .expired => "expired"
  | .none => "none"

/-- The audit row of an event. -/
def auditEvent (py : Python) (event : ParsedEvent)
    (now : Option SubscriptionStatus × Option String) : AuditEvent :=
  ⟨event.customerUserId, none, .adaptySubscription, .obj
    [("adaptyEventId", .str event.eventId), ("eventType", .str event.eventType),
      ("semantics", .str (classifyEvent event).text), ("status", optStr (now.1.map statusText)),
      ("plan", optStr now.2), ("expiresAt", optStr (event.expiresAt.map py.isoformat)),
      ("transactionId", .str event.txn), ("willRenew", .ofOption (event.willRenew.map .bool)),
      ("customerId", .num event.customerUserId)]⟩

/-- The row of the journal. -/
def journalRow (event : ParsedEvent) (body : WireJson) : AdaptyWebhookEvent :=
  ⟨event.eventId, event.customerUserId, event.eventType, body⟩

/-- `_apply`. -/
def applyEvent (py : Python) (settings : BillingSettings) (event : ParsedEvent) (body : WireJson) :
    BillingProg WebhookOutcome := do
  match ← insertAdaptyEvent (journalRow event body) with
  | none => pure ⟨.duplicate, none, none⟩
  | some _ => do
    let now ← mutate settings event (classifyEvent event)
    recordAudit (auditEvent py event now)
    pure ⟨.applied, none, none⟩

/-- A body with an event id and a user. -/
def handleEvent (py : Python) (settings : BillingSettings) (event : ParsedEvent)
    (body : WireJson) : BillingProg WebhookOutcome := do
  if ← userExists event.customerUserId then
    if event.eventType ∈ knownEvents then applyEvent py settings event body
    else pure (ignored none (some event.eventType))
  else pure (ignored (some "user_not_found") none)

/-- A body that is an object. -/
def handleBody (py : Python) (settings : BillingSettings) (body : WireJson) :
    BillingProg WebhookOutcome :=
  match parseEventId body with
  | none => pure (ignored (some "missing_event_id") none)
  | some eventId =>
    match parseCustomerUserId py body with
    | none => pure (ignored (some "missing_customer_user_id") none)
    | some userId => handleEvent py settings (parsedEvent py body eventId userId) body

/-- `handle`. -/
def handle (py : Python) (settings : BillingSettings) (raw : List UInt8) :
    BillingProg WebhookOutcome :=
  if raw = [] then pure (ignored (some "empty_body") none)
  else
    match py.loads raw with
    | .failure => throw .loads
    | .valueError => pure (ignored (some "invalid_json") none)
    | .value (.obj kvs) => handleBody py settings (.obj kvs)
    | .value _ => pure (ignored (some "not_an_object") none)

/-- A request to the webhook, in its session. -/
def serve (py : Python) (settings : BillingSettings) (raw : List UInt8) :
    BillingProg WebhookOutcome :=
  TxProg.sessionScope (handle py settings raw)

end ChatBackend.Billing.Adapty

import ChatBackend.Billing.Service

/-!
# The webhook of CloudPayments

A callback is only a trigger: `handle` finds the user of its device, asks the provider for the
payments of the device, and credits each payment that is paid and recent, in a transaction of its
own. The journal and the ledger have the payment id as their key.
-/

namespace ChatBackend.Billing.CloudPayments

open Wallet Policy

variable (py : Python)

/-! ## The parser of the callback -/

/-- `_parse_data(body) or {}`: the `Data` field, an object or the text of one. No value is an
exception of `json.loads` that is not caught. -/
def parseData (body : WireJson) : Option WireJson :=
  match body.get "Data" with
  | .obj kvs => some (.obj kvs)
  | .str s =>
    match py.loadsText s with
    | .value (.obj kvs) => some (.obj kvs)
    | .failure => none
    | _ => some (.obj [])
  | _ => some (.obj [])

/-- `str(value or "").strip().lower()`. -/
def normalised (value : WireJson) : String :=
  py.lower (py.strip (if value.falsy then "" else py.str value))

def parseStatus (body : WireJson) : String := normalised py (body.get "Status")

def parseOperationType (body : WireJson) : String := normalised py (body.get "OperationType")

/-- `parse_gate`. -/
def parseGate (status operationType : String) : Bool :=
  status = "completed" ∧ operationType = "payment"

/-- `parse_user_id`. -/
def parseUserId (body data : WireJson) : Option ℕ :=
  (firstStr [body.get "AccountId", data.get "user_id"]).bind fun raw => py.uuid (py.lower raw)

def subKeywords : List String := ["week", "month", "year", "day"]

/-- `infer_interval_unit_from_code`: the first keyword that is a part of the code. -/
def inferIntervalUnitFromCode (productCode : String) : Option String :=
  subKeywords.find? fun keyword => keyword.toList <:+: (py.lower productCode).toList

/-- `_EXPIRY_DAYS`. -/
def expiryDays : Option String → ℤ
  | some "day" => 1
  | some "week" => 7
  | some "month" => 30
  | some "year" => 365
  | _ => 30

def hour : Time := 3600 * 1000000

/-- `_compute_expiry`. -/
def computeExpiry (now : Time) (unit : Option String) (count : ℤ) : Time :=
  now + expiryDays unit * max count 1 * (24 * hour)

/-! ## The verification -/

/-- What the `GET` of the verification ends with; the body of a response is what its `json()`
gives. -/
inductive HttpResponse : Type
  | timeout
  | requestError
  | response (statusCode : ℕ) (body : Loaded)

def isObj : WireJson → Bool
  | .obj _ => true
  | _ => false

/-- `_unavailable`. -/
def unavailable : BillingError :=
  .verificationUnavailable "cloudpayments verification unavailable"

/-- `list_payments`. -/
def listPayments : HttpResponse → Except BillingError (List WireJson)
  | .timeout => .error unavailable
  | .requestError => .error unavailable
  | .response statusCode body =>
    if statusCode = 404 then .ok []
    else if statusCode < 200 ∨ 300 ≤ statusCode then .error unavailable
    else
      match body with
      | .failure => .error .loads
      | .valueError => .error unavailable
      | .value j =>
        match j.get "data" with
        | .arr xs => .ok (xs.filter isObj)
        | _ => .error unavailable

/-- `CreditablePayment`. -/
structure CreditablePayment where
  paymentId : String
  productCode : String
  paymentType : String
  status : String
  paidAt : Time

/-- A trailing `Z` or `z` is written as an offset. -/
def isoOffset (text : String) : String :=
  if text.endsWith "Z" ∨ text.endsWith "z" then (text.dropEnd 1).toString ++ "+00:00" else text

/-- A text that is not blank. -/
def nonBlank : WireJson → Option String
  | .str s => if py.strip s = "" then none else some (py.strip s)
  | _ => none

/-- `_parse_paid_at`. -/
def parsePaidAt (value : WireJson) : Option Time :=
  (nonBlank py value).bind fun text => py.fromisoformat (isoOffset text)

/-- A payment of the list that is paid, recent and complete. -/
def creditablePayment (paidStatuses : List String) (cutoff : Time) (item : WireJson) :
    Option CreditablePayment :=
  if normalised py (item.get "status") ∈ paidStatuses then do
    let paidAt ← parsePaidAt py (item.get "paid_at")
    if paidAt < cutoff then none
    else do
      let paymentId ← nonBlank py (item.get "payment_id")
      let productCode ← nonBlank py ((item.get "product").get "code")
      let paymentType ← nonBlank py ((item.get "product").get "payment_type")
      some ⟨paymentId, productCode, py.lower paymentType, normalised py (item.get "status"), paidAt⟩
  else none

/-- `select_creditable_payments`. -/
def selectCreditablePayments (data : List WireJson) (paidStatuses : List String) (now : Time)
    (freshnessHours : ℕ) : List CreditablePayment :=
  data.filterMap (creditablePayment py paidStatuses (now - freshnessHours * hour))

/-! ## The service -/

inductive Outcome : Type
  | ignored
  | duplicate
  | applied
  deriving DecidableEq, Repr

/-- `WebhookOutcome`. -/
structure WebhookOutcome where
  result : Outcome
  reason : Option String
  deriving DecidableEq, Repr

/-- `_ignored`. -/
def ignored (reason : String) : WebhookOutcome := ⟨.ignored, some reason⟩

/-- `_resolve_user`: the user with the identifier, else the user of the device with it. -/
def resolveUser (x : ℕ) : BillingProg (Option ℕ) := do
  if ← userExists x then pure (some x) else deviceUser x

inductive Kind : Type
  | tokens
  | subscription
  deriving DecidableEq, Repr

def Kind.text : Kind → String
  | tokens => "tokens"
  | subscription => "subscription"

/-- The class of a payment, from its type. -/
def kindOf (payment : CreditablePayment) : Option Kind :=
  if payment.paymentType = "one_time" then some .tokens
  else if payment.paymentType = "subscription" then some .subscription
  else none

/-- The credits of a payment, from the maps of the server: none for a token product that is not in
its map. -/
def creditsFor (settings : BillingSettings) (payment : CreditablePayment) : Kind → Option ℤ
  | .tokens => settings.tokenProducts.get payment.productCode
  | .subscription => some ((settings.cloudpaymentsProductTokens.get payment.productCode).getD
      settings.cloudpaymentsSubscriptionTokensGrant)

/-- `cp-txn:{payment_id}`. -/
def grantKey (paymentId : String) : IdemKey := .text ("cp-txn:" ++ paymentId)

def Kind.reason : Kind → String
  | tokens => "cloudpayments_tokens"
  | subscription => "cloudpayments_subscription"

/-- The row of the journal. -/
def journalRow (payment : CreditablePayment) (userId : ℕ) (kind : Kind) :
    CloudPaymentsWebhookEvent :=
  ⟨payment.paymentId, userId, payment.productCode, kind.text, .obj
    [("paymentId", .str payment.paymentId), ("productCode", .str payment.productCode),
      ("paymentType", .str payment.paymentType), ("status", .str payment.status),
      ("kind", .str kind.text)]⟩

/-- The row of an active subscription that is paid at `now`. -/
def subscriptionRow (payment : CreditablePayment) (now : Time) : Subscription :=
  ⟨.active, some payment.productCode,
    some (computeExpiry now (inferIntervalUnitFromCode py payment.productCode) 1)⟩

/-- The subscription of a payment, and the row for the audit. -/
def activate (payment : CreditablePayment) (userId : ℕ) : Kind →
    BillingProg (Option Subscription)
  | .tokens => pure none
  | .subscription => do
    let t ← now
    upsertSubscription userId (subscriptionRow py payment t)
    pure (some (subscriptionRow py payment t))

/-- The audit row of a payment. -/
def auditEvent (payment : CreditablePayment) (userId : ℕ) (kind : Kind) (credits : ℤ)
    (row : Option Subscription) : AuditEvent :=
  ⟨userId, none, .cloudpaymentsPayment, .obj
    [("transactionId", .str payment.paymentId), ("paymentId", .str payment.paymentId),
      ("productId", .str payment.productCode), ("kind", .str kind.text),
      ("semantics", .str kind.text), ("paymentType", .str payment.paymentType),
      ("status", .ofOption (row.map fun _ => .str "active")),
      ("plan", .ofOption (row.bind fun r => r.plan.map .str)),
      ("expiresAt", .ofOption (row.bind fun r => r.expiresAt.map fun t => .str (py.isoformat t))),
      ("creditsGranted", .num credits), ("paidAt", .str (py.isoformat payment.paidAt))]⟩

/-- `self._wallet.grant` of a payment. -/
def grantPayment (payment : CreditablePayment) (userId : ℕ) (kind : Kind) (credits : ℤ) :
    BillingProg ConsumeResult :=
  grant userId credits (grantKey payment.paymentId)
    (.obj [("paymentId", .str payment.paymentId), ("productCode", .str payment.productCode),
      ("kind", .str kind.text)]) kind.reason

/-- The body of the `try` of `_apply_payment`. -/
def creditPayment (payment : CreditablePayment) (userId : ℕ) (kind : Kind) (credits : ℤ) :
    BillingProg Bool := do
  match ← insertCloudPaymentsEvent (journalRow payment userId kind) with
  | none => do
    TxProg.rollback
    pure false
  | some _ => do
    let row ← activate py payment userId kind
    let _ ← grantPayment payment userId kind credits
    recordAudit (auditEvent py payment userId kind credits row)
    TxProg.commit
    pure true

/-- `_apply_payment`. -/
def applyPayment (settings : BillingSettings) (payment : CreditablePayment) (userId : ℕ) :
    BillingProg Bool :=
  match kindOf payment with
  | none => pure false
  | some kind =>
    match creditsFor settings payment kind with
    | none => pure false
    | some credits =>
      tryCatch (creditPayment py payment userId kind credits) fun x => do
        TxProg.rollback
        throw x

/-- The loop over the payments; the result counts those that were credited. -/
def applyPayments (settings : BillingSettings) (userId : ℕ) :
    List CreditablePayment → BillingProg ℕ
  | [] => pure 0
  | payment :: rest => do
    let applied ← applyPayment py settings payment userId
    let credited ← applyPayments settings userId rest
    pure (if applied then credited + 1 else credited)

/-- The stages after the verification. -/
def reconcile (settings : BillingSettings) (userId : ℕ) (data : List WireJson) :
    BillingProg WebhookOutcome := do
  let t ← now
  match selectCreditablePayments py data settings.cloudpaymentsPaidStatuses t
      settings.cloudpaymentsPaymentFreshnessHours with
  | [] => pure (ignored "no_creditable_payment")
  | creditable => do
    let credited ← applyPayments py settings userId creditable
    pure ⟨if 1 ≤ credited then .applied else .duplicate, none⟩

/-- The stages from the resolution of the user: the read transaction is ended before the `GET`,
which answers `get x`. -/
def verifyDevice (settings : BillingSettings) (get : ℕ → HttpResponse) (x : ℕ) :
    BillingProg WebhookOutcome := do
  match ← resolveUser x with
  | none => pure (ignored "user_not_found")
  | some userId => do
    TxProg.commit
    match listPayments (get x) with
    | .error e => throw e
    | .ok data => reconcile py settings userId data

/-- The gate, for a body that is an object. -/
def handleBody (settings : BillingSettings) (get : ℕ → HttpResponse) (body : WireJson) :
    BillingProg WebhookOutcome :=
  if parseGate (parseStatus py body) (parseOperationType py body) then
    match parseData py body with
    | none => throw .loads
    | some data =>
      match parseUserId py body data with
      | none => pure (ignored "invalid_account_id")
      | some x => verifyDevice py settings get x
  else pure (ignored "not_a_completed_payment")

/-- `handle`. -/
def handle (settings : BillingSettings) (get : ℕ → HttpResponse) (raw : List UInt8) :
    BillingProg WebhookOutcome :=
  if settings.cloudpaymentsApiToken = "" then
    throw (.misconfigured "cloudpayments api token not configured")
  else if raw = [] then pure (ignored "empty_body")
  else
    match py.loads raw with
    | .failure => throw .loads
    | .valueError => pure (ignored "invalid_json")
    | .value (.obj kvs) => handleBody py settings get (.obj kvs)
    | .value _ => pure (ignored "not_an_object")

/-- A callback: its body, and what the `GET` of its verification answers for a device. -/
structure Callback where
  raw : List UInt8
  get : ℕ → HttpResponse

/-- A callback, in its session. -/
def Callback.serve (settings : BillingSettings) (c : Callback) : BillingProg WebhookOutcome :=
  TxProg.sessionScope (handle py settings c.get c.raw)

end ChatBackend.Billing.CloudPayments

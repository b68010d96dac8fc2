import ChatBackend.Policy.Engine
import ChatBackend.Wallet.Service

/-!
# Payments, subscriptions and their events

The tables that the payment providers' webhooks and the StoreKit endpoints write: `subscriptions`
with one row per user, the journals `adapty_webhook_events` and `cloudpayments_webhook_events`, and
the tables of the wallet. `last_seen_at`, `processed_at` and `updated_at` columns are left out:
nothing reads them.

Points in time are microseconds.
-/

namespace ChatBackend.Billing

open Wallet Policy

abbrev Time : Type := ℤ

instance : Preorder Time := Int.instLinearOrder.toPreorder

/-- What `json.loads` makes of a body. Floats are kept as their text: no field that is read here
may be one. -/
inductive WireJson : Type
  | null
  | bool (b : Bool)
  | int (n : ℤ)
  | float (text : String)
  | str (s : String)
  | arr (xs : List WireJson)
  | obj (kvs : List (String × WireJson))

/-- `d.get(key)` of a dictionary, which is `None` for a missing key. -/
def WireJson.get (key : String) : WireJson → WireJson
  | obj kvs => ((kvs.find? fun kv => kv.1 = key).map Prod.snd).getD null
  | _ => null

/-- The result of `json.loads`: a value, a `ValueError`, or another exception (a document that is
nested too deep). -/
inductive Loaded : Type
  | value (j : WireJson)
  | valueError
  | failure

/-- The parts of Python's library that read the texts of a payload. -/
structure Python where
  loads : List UInt8 → Loaded
  loadsText : String → Loaded
  lower : String → String
  strip : String → String
  /-- `str(value)`. -/
  str : WireJson → String
  /-- `uuid.UUID(text)`; no value is a `ValueError`. -/
  uuid : String → Option ℕ
  /-- `datetime.fromisoformat(text)`, with UTC for a text without a zone. -/
  fromisoformat : String → Option Time
  isoformat : Time → String

/-! ## The helpers of the parsers -/

/-- `_as_dict`. -/
def asDict : WireJson → WireJson
  | .obj kvs => .obj kvs
  | _ => .obj []

/-- `_first_str`: the first candidate that is a non-empty string, or an integer. -/
def firstStr : List WireJson → Option String
  | [] => none
  | .str s :: rest => if s = "" then firstStr rest else some s
  | .int n :: _ => some (toString n)
  | _ :: rest => firstStr rest

/-- A value that is false in a condition. -/
def WireJson.falsy : WireJson → Bool
  | null => true
  | bool b => !b
  | int n => n = 0
  | float text => text = "0.0" ∨ text = "-0.0"
  | str s => s = ""
  | arr xs => xs.isEmpty
  | obj kvs => kvs.isEmpty

/-- `_first_bool`: the first candidate that is a boolean. -/
def firstBool : List WireJson → Option Bool
  | [] => none
  | .bool b :: _ => some b
  | _ :: rest => firstBool rest

/-! ## Settings -/

/-- A map from products to amounts, as the settings parse it: every amount is positive. -/
structure ProductMap where
  entries : List (String × ℤ)
  positive : ∀ kv ∈ entries, 0 < kv.2

/-- `products.get(product)`. -/
def ProductMap.get (m : ProductMap) (product : String) : Option ℤ :=
  (m.entries.find? fun kv => kv.1 = product).map Prod.snd

theorem ProductMap.get_pos {m : ProductMap} {product : String} {amount : ℤ}
    (h : m.get product = some amount) : 0 < amount := by
  obtain ⟨kv, hkv, rfl⟩ := Option.map_eq_some_iff.1 h
  exact m.positive kv (List.mem_of_find?_eq_some hkv)

/-- An entry of the document that survives: a positive integer. -/
def positiveAmount : String × WireJson → Option (String × ℤ)
  | (key, .int n) => if 0 < n then some (key, n) else none
  | _ => none

/-- `token_products`, `adapty_product_tokens` and `cloudpayments_product_tokens`: the map in a
document, empty for a document that is not an object. -/
def ProductMap.ofLoaded : Loaded → ProductMap
  | .value (.obj kvs) => ⟨kvs.filterMap positiveAmount, by
      intro kv hkv
      obtain ⟨⟨key, j⟩, -, h⟩ := List.mem_filterMap.1 hkv
      cases j with
      | int n =>
        simp only [positiveAmount] at h
        split at h
        · rename_i hn
          rw [← Option.some.inj h]
          exact hn
        · cases h
      | _ => cases h⟩
  | _ => ⟨[], nofun⟩

/-- The settings of the billing services. -/
structure BillingSettings where
  tokenProducts : ProductMap
  adaptyProductTokens : ProductMap
  adaptySubscriptionTokensGrant : ℤ
  cloudpaymentsApiToken : String
  cloudpaymentsProductTokens : ProductMap
  cloudpaymentsSubscriptionTokensGrant : ℤ
  cloudpaymentsPaidStatuses : List String
  cloudpaymentsPaymentFreshnessHours : ℕ
  subscriptionCreditsPerPeriod : ℤ

/-- Settings without product maps. -/
def BillingSettings.unmapped : BillingSettings :=
  ⟨⟨[], nofun⟩, ⟨[], nofun⟩, 1000, "token", ⟨[], nofun⟩, 1000, ["succeeded"], 72, 1000⟩

/-! ## Tables -/

/-- A row of `subscriptions`. -/
structure Subscription where
  status : SubscriptionStatus
  plan : Option String
  expiresAt : Option Time
  deriving DecidableEq, Repr

/-- The columns that an `UPDATE` of the row sets: the session writes the attributes whose value has
changed since it loaded the row. -/
structure SubscriptionChange where
  status : Option SubscriptionStatus
  plan : Option (Option String)
  expiresAt : Option (Option Time)
  deriving DecidableEq, Repr

/-- The columns in which the wanted row differs from the row that was loaded. -/
def Subscription.changeTo (loaded wanted : Subscription) : SubscriptionChange :=
  ⟨if wanted.status = loaded.status then none else some wanted.status,
    if wanted.plan = loaded.plan then none else some wanted.plan,
    if wanted.expiresAt = loaded.expiresAt then none else some wanted.expiresAt⟩

def Subscription.change (c : SubscriptionChange) (row : Subscription) : Subscription :=
  ⟨c.status.getD row.status, c.plan.getD row.plan, c.expiresAt.getD row.expiresAt⟩

/-- Nothing has come between: the row becomes the wanted one. -/
@[simp] theorem Subscription.change_changeTo (loaded wanted : Subscription) :
    loaded.change (loaded.changeTo wanted) = wanted := by
  rcases wanted with ⟨s, p, e⟩
  simp only [change, changeTo, Subscription.mk.injEq]
  refine ⟨?_, ?_, ?_⟩ <;> split <;> simp_all

/-- A row of `adapty_webhook_events`. -/
structure AdaptyWebhookEvent where
  eventId : String
  userId : ℕ
  eventType : String
  payload : WireJson

/-- A row of `cloudpayments_webhook_events`. -/
structure CloudPaymentsWebhookEvent where
  transactionId : String
  userId : ℕ
  productId : String
  kind : String
  payload : Json

/-- The tables. `users` and `subscriptions` have the user id as their primary key, `auth_devices`
the device id, and the journals their event ids. -/
structure BillingDb where
  users : ℕ → Bool
  deviceUser : ℕ → Option ℕ
  adaptyEvents : List AdaptyWebhookEvent
  cloudPaymentsEvents : List CloudPaymentsWebhookEvent
  subscriptions : ℕ → Option Subscription
  accounts : Accounts

/-- The writes. -/
inductive BillingOp : Type
  | insertAdaptyEvent (row : AdaptyWebhookEvent)
  | insertCloudPaymentsEvent (row : CloudPaymentsWebhookEvent)
  | putSubscription (userId : ℕ) (row : Subscription)
  | updateSubscription (userId : ℕ) (change : SubscriptionChange)
  | wallet (op : WalletOp)

/-- What a transaction holds until it ends. -/
inductive BillingLock : Type
  | adaptyEvent (eventId : String)
  | cloudPaymentsEvent (transactionId : String)
  | subscription (userId : ℕ)
  | wallet (l : Lock)
  deriving DecidableEq

namespace BillingOp

/-- The effect of a write. -/
def apply : BillingOp → BillingDb → BillingDb
  | insertAdaptyEvent row, d => { d with adaptyEvents := d.adaptyEvents ++ [row] }
  | insertCloudPaymentsEvent row, d =>
    { d with cloudPaymentsEvents := d.cloudPaymentsEvents ++ [row] }
  | putSubscription u row, d =>
    { d with subscriptions := Function.update d.subscriptions u (some row) }
  | updateSubscription u c, d =>
    { d with subscriptions :=
        Function.update d.subscriptions u ((d.subscriptions u).map (Subscription.change c)) }
  | wallet o, d => { d with accounts := o.apply d.accounts }

/-- The locks that a write takes. -/
def locks : BillingOp → List BillingLock
  | insertAdaptyEvent row => [.adaptyEvent row.eventId]
  | insertCloudPaymentsEvent row => [.cloudPaymentsEvent row.transactionId]
  | putSubscription u _ => [.subscription u]
  | updateSubscription u _ => [.subscription u]
  | wallet o => o.lock.toList.map .wallet

end BillingOp

/-! ## What a log holds -/

/-- The journal rows of Adapty that a log inserts. -/
def adaptyRows (log : List BillingOp) : List AdaptyWebhookEvent :=
  log.filterMap fun o => match o with
    | .insertAdaptyEvent row => some row
    | _ => none

/-- The journal rows of CloudPayments that a log inserts. -/
def cloudPaymentsRows (log : List BillingOp) : List CloudPaymentsWebhookEvent :=
  log.filterMap fun o => match o with
    | .insertCloudPaymentsEvent row => some row
    | _ => none

/-- The writes of a log to the tables of the wallet. -/
def walletOps (log : List BillingOp) : List WalletOp :=
  log.filterMap fun o => match o with
    | .wallet op => some op
    | _ => none

/-- The writes of a log to the subscriptions. -/
def subscriptionOps (log : List BillingOp) : List BillingOp :=
  log.filter fun o => match o with
    | .putSubscription .. => true
    | .updateSubscription .. => true
    | _ => false

/-- The ledger rows that a log inserts. -/
def ledgerRows (log : List BillingOp) : List LedgerTransaction := rows (walletOps log)

@[simp] theorem adaptyRows_append (l l' : List BillingOp) :
    adaptyRows (l ++ l') = adaptyRows l ++ adaptyRows l' := List.filterMap_append

@[simp] theorem cloudPaymentsRows_append (l l' : List BillingOp) :
    cloudPaymentsRows (l ++ l') = cloudPaymentsRows l ++ cloudPaymentsRows l' :=
  List.filterMap_append

@[simp] theorem walletOps_append (l l' : List BillingOp) :
    walletOps (l ++ l') = walletOps l ++ walletOps l' := List.filterMap_append

@[simp] theorem subscriptionOps_append (l l' : List BillingOp) :
    subscriptionOps (l ++ l') = subscriptionOps l ++ subscriptionOps l' := List.filter_append ..

@[simp] theorem ledgerRows_append (l l' : List BillingOp) :
    ledgerRows (l ++ l') = ledgerRows l ++ ledgerRows l' := by
  rw [ledgerRows, walletOps_append, rows_append]
  rfl

@[simp] theorem walletOps_map (ops : List WalletOp) : walletOps (ops.map .wallet) = ops := by
  induction ops with
  | nil => rfl
  | cons o ops ih =>
    show o :: walletOps (ops.map .wallet) = o :: ops
    rw [ih]

@[simp] theorem adaptyRows_map (ops : List WalletOp) : adaptyRows (ops.map .wallet) = [] := by
  simp [adaptyRows]

@[simp] theorem cloudPaymentsRows_map (ops : List WalletOp) :
    cloudPaymentsRows (ops.map .wallet) = [] := by
  simp [cloudPaymentsRows]

@[simp] theorem subscriptionOps_map (ops : List WalletOp) :
    subscriptionOps (ops.map .wallet) = [] := by
  simp [subscriptionOps]

end ChatBackend.Billing

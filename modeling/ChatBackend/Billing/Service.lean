import ChatBackend.Billing.Data
import ChatBackend.Foundations.ReadCommitted

/-!
# The statements of the billing services

What the webhook services of Adapty and CloudPayments, the StoreKit services and the wallet under
them ask of the database, with `billingStore`, the tables as a read-committed store. The sequences
are the next identifier and the clock.
-/

namespace ChatBackend.Billing

open Wallet Policy

/-- The statements of the services, and the reading of the clock. -/
inductive BillingStmt : Type
  | userExists (userId : ℕ)
  | deviceUser (x : ℕ)
  | insertAdaptyEvent (row : AdaptyWebhookEvent)
  | insertCloudPaymentsEvent (row : CloudPaymentsWebhookEvent)
  | readSubscription (userId : ℕ)
  | insertSubscription (userId : ℕ) (row : Subscription)
  | updateSubscription (userId : ℕ) (loaded wanted : Subscription)
  | upsertSubscription (userId : ℕ) (row : Subscription)
  | now
  | wallet (s : WalletStmt)

namespace BillingStmt

/-- What a statement returns. An `INSERT` without `ON CONFLICT` that meets a row returns `false`:
the database raises. -/
@[reducible] def Resp : BillingStmt → Type
  | userExists _ => Bool
  | deviceUser _ => Option ℕ
  | insertAdaptyEvent _ => Option String
  | insertCloudPaymentsEvent _ => Option String
  | readSubscription _ => Option Subscription
  | insertSubscription .. => Bool
  | updateSubscription .. => Unit
  | upsertSubscription .. => Unit
  | now => Time
  | wallet s => s.Resp

/-- The effect of a statement at the time `t`. -/
def run (t : Time) (g : ℕ) (d : BillingDb) : (s : BillingStmt) → s.Resp × List BillingOp × ℕ
  | userExists u => (d.users u, [], g)
  | deviceUser x => (d.deviceUser x, [], g)
  | insertAdaptyEvent row =>
    if d.adaptyEvents.any fun r => r.eventId = row.eventId then (none, [], g)
    else (some row.eventId, [.insertAdaptyEvent row], g)
  | insertCloudPaymentsEvent row =>
    if d.cloudPaymentsEvents.any fun r => r.transactionId = row.transactionId then (none, [], g)
    else (some row.transactionId, [.insertCloudPaymentsEvent row], g)
  | readSubscription u => (d.subscriptions u, [], g)
  | insertSubscription u row =>
    if (d.subscriptions u).isSome then (false, [], g) else (true, [.putSubscription u row], g)
  | updateSubscription u loaded wanted =>
    ((), [.updateSubscription u (loaded.changeTo wanted)], g)
  | upsertSubscription u row => ((), [.putSubscription u row], g)
  | now => (t, [], g)
  | wallet s =>
    ((s.run (fun _ => none) g d.accounts).1,
      (s.run (fun _ => none) g d.accounts).2.1.map .wallet,
      (s.run (fun _ => none) g d.accounts).2.2)

theorem le_run (t : Time) (g : ℕ) (d : BillingDb) (s : BillingStmt) : g ≤ (s.run t g d).2.2 := by
  cases s with
  | wallet s =>
    have h : walletStore.exec s g () ⟨fun _ => none, d.accounts⟩ (s.run (fun _ => none) g d.accounts).1
      (s.run (fun _ => none) g d.accounts).2.1 (s.run (fun _ => none) g d.accounts).2.2 () := rfl
    exact walletStore.gen_le h
  | insertAdaptyEvent row | insertCloudPaymentsEvent row | insertSubscription u row =>
    simp only [run]
    split <;> exact le_refl g
  | _ => exact le_refl g

end BillingStmt

/-- The exceptions of the services. -/
inductive BillingError : Type
  | wallet (e : WalletError)
  | integrity
  | loads
  | misconfigured (message : String)
  | verificationUnavailable (message : String)
  | subscriptionRequired (message : String)
  | validationFailed (message : String)

abbrev BillingProg (α : Type) : Type := TxProg BillingStmt BillingStmt.Resp BillingError α

/-- Two logs can be open together when they hold no row or index entry in common. -/
def BillingOp.Apart (l l' : List BillingOp) : Prop :=
  ∀ k ∈ l.flatMap BillingOp.locks, k ∉ l'.flatMap BillingOp.locks

/-- The billing tables as a read-committed store; the sequences are the next identifier and the
clock. -/
def billingStore : Store BillingStmt BillingStmt.Resp BillingDb BillingOp (ℕ × Time) Unit where
  apply := BillingOp.apply
  exec s g _ d r ops g' _ := ∃ t, g.2 ≤ t ∧ g'.2 = t ∧ s.run t g.1 d = (r, ops, g'.1)
  compat := BillingOp.Apart
  gen_le {s g g' m m' d r ops} h := by
    obtain ⟨t, ht, hg, h⟩ := h
    have hle := s.le_run t g.1 d
    rw [h] at hle
    exact ⟨hle, hg ▸ ht⟩
  compat_symm h k hk hk' := h k hk' hk
  compat_nil l k hk := by simp at hk

/-! ## The statements as programs -/

abbrev userExists (userId : ℕ) : BillingProg Bool :=
  TxProg.stmt (BillingStmt.userExists userId)

/-- `SELECT user_id FROM auth_devices WHERE device_id = :x`. -/
abbrev deviceUser (x : ℕ) : BillingProg (Option ℕ) := TxProg.stmt (BillingStmt.deviceUser x)

/-- `INSERT INTO adapty_webhook_events .. ON CONFLICT (event_id) DO NOTHING RETURNING event_id`. -/
abbrev insertAdaptyEvent (row : AdaptyWebhookEvent) : BillingProg (Option String) :=
  TxProg.stmt (BillingStmt.insertAdaptyEvent row)

/-- The same for `cloudpayments_webhook_events`. -/
abbrev insertCloudPaymentsEvent (row : CloudPaymentsWebhookEvent) : BillingProg (Option String) :=
  TxProg.stmt (BillingStmt.insertCloudPaymentsEvent row)

abbrev readSubscription (userId : ℕ) : BillingProg (Option Subscription) :=
  TxProg.stmt (BillingStmt.readSubscription userId)

abbrev insertSubscription (userId : ℕ) (row : Subscription) : BillingProg Bool :=
  TxProg.stmt (BillingStmt.insertSubscription userId row)

/-- The `UPDATE` of a row that the session has loaded: it sets the columns that have changed. -/
abbrev updateSubscription (userId : ℕ) (loaded wanted : Subscription) : BillingProg Unit :=
  TxProg.stmt (BillingStmt.updateSubscription userId loaded wanted)

/-- `INSERT INTO subscriptions .. ON CONFLICT (user_id) DO UPDATE SET ..`. -/
abbrev upsertSubscription (userId : ℕ) (row : Subscription) : BillingProg Unit :=
  TxProg.stmt (BillingStmt.upsertSubscription userId row)

/-- `_now()`. -/
abbrev now : BillingProg Time := TxProg.stmt BillingStmt.now

/-- `self._audit.record`. -/
abbrev recordAudit (event : AuditEvent) : BillingProg Unit :=
  TxProg.stmt (BillingStmt.wallet (WalletStmt.recordAudit event.redacted))

/-! ## The wallet inside the services -/

/-- The statements of the wallet as statements of the billing services. -/
def walletAct : TxAct WalletStmt → TxAct BillingStmt
  | .stmt s => .stmt (.wallet s)
  | .commit => .commit
  | .rollback => .rollback

/-- Their answers. -/
def walletAnswer : (e : TxAct WalletStmt) → TxAct.Resp BillingStmt.Resp (walletAct e) →
    TxAct.Resp WalletStmt.Resp e
  | .stmt _, r => r
  | .commit, r => r
  | .rollback, r => r

/-- `self._wallet.grant`. -/
def grant (userId : ℕ) (amount : Int) (idempotencyKey : IdemKey) (metaData : Json)
    (reason : String) : BillingProg ConsumeResult :=
  (Wallet.grant userId amount idempotencyKey metaData reason).embed walletAct walletAnswer .wallet

/-- The flush of a row that the session has loaded (`none` when it has found no row) and set to
`wanted`. -/
def flushSubscription (userId : ℕ) (wanted : Subscription) : Option Subscription → BillingProg Unit
  | none => do
    if ← insertSubscription userId wanted then pure () else throw .integrity
  | some loaded => updateSubscription userId loaded wanted

end ChatBackend.Billing

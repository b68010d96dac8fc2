import ChatBackend.Foundations.ReadCommitted
import ChatBackend.Observability.Audit
import ChatBackend.Wallet.Ledger

/-!
# The wallet service

`consume` and `grant` of the wallet service, statement by statement. Each leaves the transaction
open: it is the caller who commits, or rolls back when it has raised. Neither takes the balance
from what it has read: the debit is one conditional `UPDATE`, and the row of the key is inserted
before it, so that a lost race for the key shows as an `INSERT` without a returned row.
-/

namespace ChatBackend.Wallet

/-- The statements of the service. -/
inductive WalletStmt : Type
  | sessionOwner (sessionId : ℕ)
  | ensureWallet (userId : ℕ)
  | insertLedger (userId : ℕ) (type : TxType) (amount : Int) (metaData : Json)
      (idempotencyKey : IdemKey)
  | existingTx (userId : ℕ) (idempotencyKey : IdemKey)
  | currentBalance (userId : ℕ)
  | debitBalance (userId : ℕ) (amount : Int)
  | creditBalance (userId : ℕ) (amount : Int)
  | recordAudit (event : AuditEvent)

/-- What a statement returns. -/
@[reducible] def WalletStmt.Resp : WalletStmt → Type
  | sessionOwner _ => Option ℕ
  | ensureWallet _ => Unit
  | insertLedger .. => Option ℕ
  | existingTx .. => Option LedgerTransaction
  | currentBalance _ => Int
  | debitBalance .. => Option Int
  | creditBalance .. => Option Int
  | recordAudit _ => Unit

/-- The effect of a statement on the accounts `a` that it reads: what it returns, what it writes
and the next identifier. `owner` gives the user of a chat session. -/
def WalletStmt.run (owner : ℕ → Option ℕ) (g : ℕ) (a : Accounts) :
    (s : WalletStmt) → s.Resp × List WalletOp × ℕ
  | sessionOwner sid => (owner sid, [], g)
  | ensureWallet u => ((), if (a.wallets u).isSome then [] else [.insertWallet u], g)
  | insertLedger u ty amount metaData key =>
    if a.ledger.any fun r => r.key = (u, key) then (none, [], g)
    else (some g, [.insertLedger ⟨g, u, ty, amount, metaData, key⟩], g + 1)
  | existingTx u key => (a.ledger.find? fun r => r.key = (u, key), [], g)
  | currentBalance u => (a.balance u, [], g)
  | debitBalance u amount =>
    if (a.wallets u).isSome ∧ amount ≤ a.balance u then
      (some (a.balance u - amount), [.addBalance u (-amount)], g)
    else (none, [], g)
  | creditBalance u amount =>
    if (a.wallets u).isSome then (some (a.balance u + amount), [.addBalance u amount], g)
    else (none, [], g)
  | recordAudit event => ((), [.insertAudit event], g)

/-- The exceptions of the service. -/
inductive WalletError : Type
  | conflict (message : String)
  | sessionNotFound (message : String)
  | forbidden (message : String)
  | insufficientCredits (message : String)
  deriving DecidableEq, Repr

/-- `ConsumeResult`, and `GrantResult`, which has the same fields. -/
structure ConsumeResult where
  newBalance : Int
  ledgerTxId : ℕ
  idempotentReplay : Bool
  deriving DecidableEq, Repr

abbrev WalletProg (α : Type) : Type := TxProg WalletStmt WalletStmt.Resp WalletError α

/-! ## The statements as programs -/

abbrev sessionOwner (sessionId : ℕ) : WalletProg (Option ℕ) :=
  TxProg.stmt (WalletStmt.sessionOwner sessionId)

/-- `_ensure_wallet`: provision the row of the wallet. -/
abbrev ensureWallet (userId : ℕ) : WalletProg Unit :=
  TxProg.stmt (WalletStmt.ensureWallet userId)

/-- `INSERT INTO ledger_transactions .. ON CONFLICT DO NOTHING RETURNING id`. -/
abbrev insertLedger (userId : ℕ) (type : TxType) (amount : Int) (metaData : Json)
    (idempotencyKey : IdemKey) : WalletProg (Option ℕ) :=
  TxProg.stmt (WalletStmt.insertLedger userId type amount metaData idempotencyKey)

abbrev existingTx (userId : ℕ) (idempotencyKey : IdemKey) : WalletProg (Option LedgerTransaction) :=
  TxProg.stmt (WalletStmt.existingTx userId idempotencyKey)

abbrev currentBalance (userId : ℕ) : WalletProg Int :=
  TxProg.stmt (WalletStmt.currentBalance userId)

/-- `UPDATE wallets SET balance = balance - :amount .. AND balance >= :amount RETURNING balance`. -/
abbrev debitBalance (userId : ℕ) (amount : Int) : WalletProg (Option Int) :=
  TxProg.stmt (WalletStmt.debitBalance userId amount)

/-- `UPDATE wallets SET balance = balance + :amount .. RETURNING balance`. -/
abbrev creditBalance (userId : ℕ) (amount : Int) : WalletProg (Option Int) :=
  TxProg.stmt (WalletStmt.creditBalance userId amount)

/-- `audit.record`. -/
abbrev recordAudit (event : AuditEvent) : WalletProg Unit :=
  TxProg.stmt (WalletStmt.recordAudit event.redacted)

/-! ## The methods -/

/-- A session that does not exist, or is another user's, is refused before any write. -/
def validateSession (userId sessionId : ℕ) : WalletProg Unit := do
  match ← sessionOwner sessionId with
  | none => throw (.sessionNotFound "session not found")
  | some owner =>
    if owner ≠ userId then throw (.forbidden "session does not belong to user")

/-- `if session_id is not None: await self._validate_session(..)`. -/
def validateSessionId (userId : ℕ) : Option ℕ → WalletProg Unit
  | none => pure ()
  | some sessionId => validateSession userId sessionId

/-- The branch of `consume` and of `grant` for a key that has a row already: the same type and
amount is a replay, anything else a conflict. -/
def replay (userId : ℕ) (type : TxType) (amount : Int) (idempotencyKey : IdemKey) :
    WalletProg ConsumeResult := do
  match ← existingTx userId idempotencyKey with
  | none => throw (.conflict "idempotency conflict")
  | some existing =>
    if existing.type ≠ type ∨ existing.amount ≠ amount then
      throw (.conflict "idempotency key reused with different payload")
    else do
      let balance ← currentBalance userId
      pure ⟨balance, existing.id, true⟩

/-- Atomic, idempotent debit. -/
def consume (userId : ℕ) (amount : Int) (idempotencyKey : IdemKey) (metaData : Json)
    (sessionId : Option ℕ) : WalletProg ConsumeResult := do
  if amount ≤ 0 then
    throw (.conflict "amount must be positive")
  else do
    validateSessionId userId sessionId
    ensureWallet userId
    match ← insertLedger userId .debit amount metaData idempotencyKey with
    | none => replay userId .debit amount idempotencyKey
    | some insertedId => do
      match ← debitBalance userId amount with
      | none => throw (.insufficientCredits "insufficient_credits")
      | some newBalance => do
        recordAudit ⟨userId, sessionId, .billingDebit, .obj
          [("ledgerTxId", .num insertedId), ("amount", .num amount),
            ("newBalance", .num newBalance),
            ("sessionId", .ofOption (sessionId.map fun (sid : ℕ) => .num sid)),
            ("model", .ofOption (metaData.get "model"))]⟩
        pure ⟨newBalance, insertedId, false⟩

/-- Atomic, idempotent credit. -/
def grant (userId : ℕ) (amount : Int) (idempotencyKey : IdemKey) (metaData : Json)
    (reason : String) : WalletProg ConsumeResult := do
  if amount ≤ 0 then
    throw (.conflict "amount must be positive")
  else do
    ensureWallet userId
    match ← insertLedger userId .credit amount metaData idempotencyKey with
    | none => replay userId .credit amount idempotencyKey
    | some insertedId => do
      let updated ← creditBalance userId amount
      let newBalance := updated.getD amount
      recordAudit ⟨userId, none, .billingCredit, .obj
        [("ledgerTxId", .num insertedId), ("amount", .num amount),
          ("newBalance", .num newBalance), ("reason", .str reason)]⟩
      pure ⟨newBalance, insertedId, false⟩

/-! ## The methods are made of statements -/

section Only

open Prog Store.Pool

theorem isStmt (s : WalletStmt) : IsStmt (TxAct.stmt s) := ⟨s, rfl⟩

theorem replay_only {u : ℕ} {ty : TxType} {amount : Int} {key : IdemKey} :
    (replay u ty amount key).Only IsStmt := by
  refine ⟨isStmt _, fun o => ?_⟩
  cases o with
  | none => trivial
  | some e =>
    simp only [ret_bind]
    split
    · trivial
    · exact ⟨isStmt _, fun _ => trivial⟩

theorem validate_only {u : ℕ} {sid : Option ℕ} : (validateSessionId u sid).Only IsStmt := by
  cases sid with
  | none => trivial
  | some s =>
    refine ⟨isStmt _, fun o => ?_⟩
    cases o with
    | none => trivial
    | some owner =>
      simp only [ret_bind]
      split <;> trivial

theorem consume_only {u : ℕ} {amount : Int} {key : IdemKey} {metaData : Json} {sid : Option ℕ} :
    (consume u amount key metaData sid).Only IsStmt := by
  unfold consume
  split
  · trivial
  · refine .bind validate_only fun _ => ⟨isStmt _, fun _ => ⟨isStmt _, fun o => ?_⟩⟩
    cases o with
    | none => exact replay_only
    | some id =>
      refine ⟨isStmt _, fun o => ?_⟩
      cases o with
      | none => trivial
      | some b => exact ⟨isStmt _, fun _ => trivial⟩

theorem grant_only {u : ℕ} {amount : Int} {key : IdemKey} {metaData : Json} {reason : String} :
    (grant u amount key metaData reason).Only IsStmt := by
  unfold grant
  split
  · trivial
  · refine ⟨isStmt _, fun _ => ⟨isStmt _, fun o => ?_⟩⟩
    cases o with
    | none => exact replay_only
    | some id => exact ⟨isStmt _, fun _ => ⟨isStmt _, fun _ => trivial⟩⟩

end Only

/-! ## The store -/

/-- The accounts, and the owners of the chat sessions. -/
structure WalletDb where
  owner : ℕ → Option ℕ
  accounts : Accounts

/-- The wallet tables as a read-committed store. -/
def walletStore : Store WalletStmt WalletStmt.Resp WalletDb WalletOp ℕ Unit where
  apply o d := { d with accounts := o.apply d.accounts }
  exec s g _ d r ops g' _ := s.run d.owner g d.accounts = (r, ops, g')
  compat l l' := ∀ k ∈ locks l, k ∉ locks l'
  gen_le {s g g' m m' d r ops} h := by
    cases s <;> simp only [WalletStmt.run] at h <;> grind
  compat_symm h k hk hk' := h k hk' hk
  compat_nil l k hk := by simp [locks] at hk

theorem walletStore_view (log : List WalletOp) (d : WalletDb) :
    walletStore.view log d = ⟨d.owner, applyAll log d.accounts⟩ := by
  induction log generalizing d with
  | nil => rfl
  | cons o log ih => rw [Store.view_cons, ih]; rfl

end ChatBackend.Wallet

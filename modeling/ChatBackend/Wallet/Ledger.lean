import ChatBackend.Model.Data
import Mathlib

/-!
# Wallets and the ledger

The tables `wallets`, `ledger_transactions` and `audit_logs`, the writes on them, and the law that
ties the balances to the ledger.

* `Accounts.Inv` is the law: the balance of a user is the sum of the credits less the sum of the
  debits and is not negative, and a user has one ledger row for a key.
* `WalletOp.Balanced` says of a log of writes that it moves the balances as it moves the ledger.
  `Accounts.Inv.balanced` reads it off a transaction that stands in a state of law.
* `Accounts.Inv.frame`: what another transaction commits beside an open log leaves the view of
  that log lawful. This is where the row locks are used.
-/

namespace ChatBackend.Wallet

/-- `type` of a ledger row. -/
inductive TxType : Type
  | debit
  | credit
  deriving DecidableEq, Repr

/-- A row of `ledger_transactions`. -/
structure LedgerTransaction where
  id : ℕ
  userId : ℕ
  type : TxType
  amount : Int
  metaData : Json
  idempotencyKey : IdemKey

/-- The columns of the unique constraint `ux_ledger_idempotency`. -/
def LedgerTransaction.key (r : LedgerTransaction) : ℕ × IdemKey :=
  (r.userId, r.idempotencyKey)

/-- The tables of the wallet; `wallets` has the user id as its primary key. -/
structure Accounts where
  wallets : ℕ → Option Int
  ledger : List LedgerTransaction
  audit : List AuditEvent

/-- The balance of a user, 0 without a wallet. -/
def Accounts.balance (a : Accounts) (u : ℕ) : Int := (a.wallets u).getD 0

/-- The sum of the amounts of the rows of one type of a user. -/
def total (u : ℕ) (ty : TxType) (rows : List LedgerTransaction) : Int :=
  ((rows.filter fun r => r.userId = u ∧ r.type = ty).map (·.amount)).sum

/-- The sum of the credits less the sum of the debits. -/
def net (u : ℕ) (rows : List LedgerTransaction) : Int :=
  total u .credit rows - total u .debit rows

@[simp] theorem net_nil (u : ℕ) : net u [] = 0 := by simp [net, total]

theorem net_append (u : ℕ) (l₁ l₂ : List LedgerTransaction) :
    net u (l₁ ++ l₂) = net u l₁ + net u l₂ := by
  simp only [net, total, List.filter_append, List.map_append, List.sum_append]
  omega

/-- What a row adds to the balance of its user. -/
def LedgerTransaction.signed (r : LedgerTransaction) : Int :=
  match r.type with
  | .credit => r.amount
  | .debit => -r.amount

theorem net_singleton (u : ℕ) (r : LedgerTransaction) :
    net u [r] = if r.userId = u then r.signed else 0 := by
  rcases r with ⟨id, v, _ | _, amount, m, k⟩ <;> by_cases h : v = u <;>
    simp [net, total, LedgerTransaction.signed, h]

/-- The writes of the wallet service. -/
inductive WalletOp : Type
  | insertWallet (userId : ℕ)
  | addBalance (userId : ℕ) (delta : Int)
  | insertLedger (row : LedgerTransaction)
  | insertAudit (row : AuditEvent)

/-- The effect of a write. -/
def WalletOp.apply : WalletOp → Accounts → Accounts
  | insertWallet u, a => { a with wallets := Function.update a.wallets u (some (a.balance u)) }
  | addBalance u δ, a => { a with wallets := Function.update a.wallets u (some (a.balance u + δ)) }
  | insertLedger r, a => { a with ledger := a.ledger ++ [r] }
  | insertAudit e, a => { a with audit := a.audit ++ [e] }

/-- What a transaction holds until it ends: a wallet row, or an entry of the unique index. -/
inductive Lock : Type
  | wallet (userId : ℕ)
  | key (k : ℕ × IdemKey)
  deriving DecidableEq

/-- The lock that a write takes. -/
def WalletOp.lock : WalletOp → Option Lock
  | insertWallet u => some (.wallet u)
  | addBalance u _ => some (.wallet u)
  | insertLedger r => some (.key r.key)
  | insertAudit _ => none

/-- The locks of a log. -/
def locks (log : List WalletOp) : List Lock := log.filterMap WalletOp.lock

/-- The ledger rows that a log inserts. -/
def rows : List WalletOp → List LedgerTransaction
  | [] => []
  | .insertLedger r :: log => r :: rows log
  | _ :: log => rows log

/-- The audit rows that a log inserts. -/
def audits : List WalletOp → List AuditEvent
  | [] => []
  | .insertAudit e :: log => e :: audits log
  | _ :: log => audits log

/-- What a log adds to the balance of a user. -/
def delta (u : ℕ) : List WalletOp → Int
  | [] => 0
  | .addBalance v δ :: log => (if v = u then δ else 0) + delta u log
  | _ :: log => delta u log

/-- A log that moves every balance as it moves the ledger. -/
def Balanced (log : List WalletOp) : Prop := ∀ u, delta u log = net u (rows log)

/-- The tables after a log. -/
def applyAll (log : List WalletOp) (a : Accounts) : Accounts := log.foldl (fun a o => o.apply a) a

@[simp] theorem applyAll_nil (a : Accounts) : applyAll [] a = a := rfl

@[simp] theorem applyAll_cons (o : WalletOp) (log : List WalletOp) (a : Accounts) :
    applyAll (o :: log) a = applyAll log (o.apply a) := rfl

theorem applyAll_append (l₁ l₂ : List WalletOp) (a : Accounts) :
    applyAll (l₁ ++ l₂) a = applyAll l₂ (applyAll l₁ a) := List.foldl_append ..

/-! ## What a log does to the tables -/

theorem ledger_applyAll (log : List WalletOp) (a : Accounts) :
    (applyAll log a).ledger = a.ledger ++ rows log := by
  induction log generalizing a with
  | nil => simp [rows]
  | cons o log ih => cases o <;> simp [WalletOp.apply, rows, ih]

theorem audit_applyAll (log : List WalletOp) (a : Accounts) :
    (applyAll log a).audit = a.audit ++ audits log := by
  induction log generalizing a with
  | nil => simp [audits]
  | cons o log ih => cases o <;> simp [WalletOp.apply, audits, ih]

theorem balance_apply (o : WalletOp) (a : Accounts) (u : ℕ) :
    (o.apply a).balance u = a.balance u + delta u [o] := by
  cases o with
  | insertWallet v => by_cases h : u = v <;> simp [WalletOp.apply, Accounts.balance, delta, h]
  | addBalance v δ =>
    by_cases h : u = v
    · simp [WalletOp.apply, Accounts.balance, delta, h]
    · simp [WalletOp.apply, Accounts.balance, delta, h, Ne.symm h]
  | insertLedger r => simp [WalletOp.apply, Accounts.balance, delta]
  | insertAudit e => simp [WalletOp.apply, Accounts.balance, delta]

theorem delta_append (u : ℕ) (l₁ l₂ : List WalletOp) :
    delta u (l₁ ++ l₂) = delta u l₁ + delta u l₂ := by
  induction l₁ with
  | nil => simp [delta]
  | cons o l₁ ih => cases o <;> simp [delta, ih, add_assoc]

theorem rows_append (l₁ l₂ : List WalletOp) : rows (l₁ ++ l₂) = rows l₁ ++ rows l₂ := by
  induction l₁ with
  | nil => rfl
  | cons o l₁ ih => cases o <;> simp [rows, ih]

theorem audits_append (l₁ l₂ : List WalletOp) : audits (l₁ ++ l₂) = audits l₁ ++ audits l₂ := by
  induction l₁ with
  | nil => rfl
  | cons o l₁ ih => cases o <;> simp [audits, ih]

theorem locks_append (l₁ l₂ : List WalletOp) : locks (l₁ ++ l₂) = locks l₁ ++ locks l₂ :=
  List.filterMap_append

theorem balance_applyAll (log : List WalletOp) (a : Accounts) (u : ℕ) :
    (applyAll log a).balance u = a.balance u + delta u log := by
  induction log generalizing a with
  | nil => simp [delta]
  | cons o log ih =>
    rw [applyAll_cons, ih, balance_apply, add_assoc, ← delta_append, List.singleton_append]

/-- A wallet exists after a log when it existed before or the log holds its row. -/
theorem isSome_applyAll (log : List WalletOp) (a : Accounts) (u : ℕ) :
    ((applyAll log a).wallets u).isSome ↔ (a.wallets u).isSome ∨ Lock.wallet u ∈ locks log := by
  induction log generalizing a with
  | nil => simp [locks]
  | cons o log ih =>
    rw [applyAll_cons, ih, ← List.singleton_append, locks_append, List.mem_append, ← or_assoc]
    refine or_congr_left ?_
    cases o with
    | insertWallet v | addBalance v δ =>
      by_cases h : u = v <;> simp [WalletOp.apply, locks, WalletOp.lock, h]
    | insertLedger r => simp [WalletOp.apply, locks, WalletOp.lock]
    | insertAudit e => simp [WalletOp.apply, locks, WalletOp.lock]

/-- A log without the row of a wallet leaves its balance alone. -/
theorem delta_eq_zero {log : List WalletOp} {u : ℕ} (h : Lock.wallet u ∉ locks log) :
    delta u log = 0 := by
  induction log with
  | nil => rfl
  | cons o log ih =>
    rw [← List.singleton_append, locks_append, List.mem_append, not_or] at h
    cases o with
    | addBalance v δ =>
      have hv : v ≠ u := by rintro rfl; simp [locks, WalletOp.lock] at h
      simp [delta, hv, ih h.2]
    | insertWallet v | insertLedger r | insertAudit e => exact ih h.2

theorem key_mem_locks {log : List WalletOp} {r : LedgerTransaction} (h : r ∈ rows log) :
    Lock.key r.key ∈ locks log := by
  induction log with
  | nil => simp [rows] at h
  | cons o log ih =>
    rw [← List.singleton_append, locks_append, List.mem_append]
    cases o with
    | insertLedger r' =>
      rcases List.mem_cons.1 h with rfl | h
      · exact .inl (by simp [locks, WalletOp.lock])
      · exact .inr (ih h)
    | insertWallet v | addBalance v δ | insertAudit e => exact .inr (ih h)

/-! ## The law -/

/-- The law of the ledger; `g` is the next identifier. -/
structure Accounts.Inv (g : ℕ) (a : Accounts) : Prop where
  law : ∀ u, a.balance u = net u a.ledger
  nonneg : ∀ u, 0 ≤ a.balance u
  unique : a.ledger.Pairwise fun r r' => r.key ≠ r'.key
  owned : ∀ r ∈ a.ledger, (a.wallets r.userId).isSome
  fresh : ∀ r ∈ a.ledger, r.id < g

namespace Accounts.Inv

theorem mono {g g' : ℕ} {a : Accounts} (h : a.Inv g) (hg : g ≤ g') : a.Inv g' :=
  ⟨h.law, h.nonneg, h.unique, h.owned, fun r hr => (h.fresh r hr).trans_le hg⟩

/-- Two rows of a key are one row. -/
theorem eq_of_key {g : ℕ} {a : Accounts} (h : a.Inv g) {r r' : LedgerTransaction}
    (hr : r ∈ a.ledger) (hr' : r' ∈ a.ledger) (hk : r.key = r'.key) : r = r' := by
  have hnd : (a.ledger.map LedgerTransaction.key).Nodup := List.pairwise_map.2 h.unique
  exact List.inj_on_of_nodup_map hnd hr hr' hk

/-- A new wallet has the balance 0. -/
theorem insertWallet {g : ℕ} {a : Accounts} (h : a.Inv g) (u : ℕ) :
    (applyAll [.insertWallet u] a).Inv g := by
  refine ⟨fun v => ?_, fun v => ?_, h.unique, fun r hr => ?_, h.fresh⟩
  · rw [balance_applyAll, ledger_applyAll, net_append, h.law v]
    simp [delta, rows]
  · rw [balance_applyAll]
    simpa [delta] using h.nonneg v
  · exact (isSome_applyAll ..).2 (.inl (h.owned r hr))

/-- A new row with its amount moved keeps the law, when its key is new and the balance allows
it. -/
theorem post {g : ℕ} {a : Accounts} {r : LedgerTransaction} (h : a.Inv g)
    (hk : ∀ r' ∈ a.ledger, r'.key ≠ r.key) (hw : (a.wallets r.userId).isSome) (hid : r.id < g)
    (hb : 0 ≤ a.balance r.userId + r.signed) :
    (applyAll [.insertLedger r, .addBalance r.userId r.signed] a).Inv g := by
  have hbal : ∀ u, (applyAll [.insertLedger r, .addBalance r.userId r.signed] a).balance u =
      a.balance u + net u [r] := by
    intro u
    rw [balance_applyAll, net_singleton]
    simp [delta]
  refine ⟨fun u => ?_, fun u => ?_, ?_, fun r' hr' => ?_, fun r' hr' => ?_⟩
  · rw [hbal, h.law, ledger_applyAll, net_append]
    rfl
  · rw [hbal, net_singleton]
    split
    · rename_i hu
      exact hu ▸ hb
    · simpa using h.nonneg u
  · rw [ledger_applyAll, List.pairwise_append]
    exact ⟨h.unique, List.pairwise_singleton _ _,
      fun r' hr' r'' hr'' => by rw [List.mem_singleton.1 hr'']; exact hk r' hr'⟩
  · rw [ledger_applyAll, List.mem_append] at hr'
    rw [isSome_applyAll]
    rcases hr' with hr' | hr'
    · exact .inl (h.owned r' hr')
    · rw [List.mem_singleton.1 hr']
      exact .inl hw
  · rw [ledger_applyAll, List.mem_append] at hr'
    rcases hr' with hr' | hr'
    · exact h.fresh r' hr'
    · rw [List.mem_singleton.1 hr']
      exact hid

/-- Audit rows are no part of the law. -/
theorem audit {g : ℕ} {a : Accounts} (h : a.Inv g) (e : AuditEvent) :
    (applyAll [.insertAudit e] a).Inv g :=
  ⟨h.law, h.nonneg, h.unique, h.owned, h.fresh⟩

/-- A log between two states of law is balanced. -/
theorem balanced {g g' : ℕ} {a : Accounts} {log : List WalletOp} (h : a.Inv g)
    (h' : (applyAll log a).Inv g') : Balanced log := by
  intro u
  have hl := h'.law u
  rw [balance_applyAll, ledger_applyAll, net_append, h.law u] at hl
  omega

/-- **Frame**: when another transaction has committed `log'` beside the open `log`, the view of
`log` is lawful still. A balance that `log` has moved is one that `log'` has not, so it is as high
as before; the keys of the two logs differ. -/
theorem frame {g g' : ℕ} {a : Accounts} {log log' : List WalletOp} (hv : (applyAll log a).Inv g)
    (ha : a.Inv g) (ha' : (applyAll log' a).Inv g') (hg : g ≤ g')
    (hc : ∀ k ∈ locks log, k ∉ locks log') : (applyAll log (applyAll log' a)).Inv g' := by
  have hb := ha.balanced hv
  refine ⟨fun u => ?_, fun u => ?_, ?_, fun r hr => ?_, fun r hr => ?_⟩
  · rw [balance_applyAll, ledger_applyAll, net_append, ha'.law u, hb u]
  · by_cases hu : Lock.wallet u ∈ locks log
    · have hv := hv.nonneg u
      rw [balance_applyAll] at hv
      rwa [balance_applyAll, balance_applyAll, delta_eq_zero (hc _ hu), add_zero]
    · rw [balance_applyAll, delta_eq_zero hu, add_zero]
      exact ha'.nonneg u
  · have hvu := hv.unique
    have hau := ha'.unique
    rw [ledger_applyAll, List.pairwise_append] at hvu hau ⊢
    refine ⟨by rw [ledger_applyAll, List.pairwise_append]; exact hau, hvu.2.1, fun r hr r' hr' => ?_⟩
    rw [ledger_applyAll, List.mem_append] at hr
    rcases hr with hr | hr
    · exact hvu.2.2 r hr r' hr'
    · intro hk
      exact hc _ (key_mem_locks hr') (hk ▸ key_mem_locks hr)
  · rw [isSome_applyAll, isSome_applyAll]
    rw [ledger_applyAll, List.mem_append] at hr
    rcases hr with hr | hr
    · exact .inl ((isSome_applyAll log' a r.userId).1 (ha'.owned r hr))
    · have := hv.owned r (by rw [ledger_applyAll]; exact List.mem_append_right _ hr)
      rw [isSome_applyAll] at this
      exact this.imp_left .inl
  · rw [ledger_applyAll, List.mem_append] at hr
    rcases hr with hr | hr
    · exact ha'.fresh r hr
    · have := hv.fresh r (by rw [ledger_applyAll]; exact List.mem_append_right _ hr)
      omega

end Accounts.Inv

end ChatBackend.Wallet

import ChatBackend.Billing.Service
import ChatBackend.Foundations.Guarantee
import ChatBackend.Wallet.Sequential

/-!
# A credit by a session among others

`grant_rg` says what `grant` leaves in the open transaction of a billing service, whatever the
other sessions do meanwhile: the row of a key that is new, with the balance moved by its amount, or
no row when the key has one (`Granted`).
-/

namespace ChatBackend.Billing

open Prog Store Wallet

abbrev BillingOwn : Type := Own BillingDb BillingOp (ℕ × Time) Unit

/-- Each statement takes one tick of the clock. -/
def billingHandler : Handler billingStore Unit where
  answer _ s g _ d := match s.run (g.2 + 1) g.1 d with
    | (r, ops, n) => (r, ops, (n, g.2 + 1), (), ())
  ok _ s g _ d := ⟨g.2 + 1, Int.le_add_one (le_refl g.2), rfl, rfl⟩
  compat l l' := (l.flatMap BillingOp.locks).all fun k => k ∉ l'.flatMap BillingOp.locks
  compat_ok h k hk := by simpa using List.all_eq_true.1 h k hk

/-- Empty tables, with the users 7 and 8. -/
def emptyTables : BillingDb :=
  ⟨fun u => u = 7 ∨ u = 8, fun _ => none, [], [], fun _ => none, ⟨fun _ => none, [], []⟩⟩

/-! ## What a log does to the tables -/

section View

variable (log : List BillingOp) (d : BillingDb)

theorem adaptyEvents_view : (billingStore.view log d).adaptyEvents =
    d.adaptyEvents ++ adaptyRows log := by
  induction log generalizing d with
  | nil => simp [adaptyRows]
  | cons o log ih =>
    rw [Store.view_cons, ih]
    cases o <;> simp [billingStore, BillingOp.apply, adaptyRows]

theorem cloudPaymentsEvents_view : (billingStore.view log d).cloudPaymentsEvents =
    d.cloudPaymentsEvents ++ cloudPaymentsRows log := by
  induction log generalizing d with
  | nil => simp [cloudPaymentsRows]
  | cons o log ih =>
    rw [Store.view_cons, ih]
    cases o <;> simp [billingStore, BillingOp.apply, cloudPaymentsRows]

theorem accounts_view : (billingStore.view log d).accounts =
    applyAll (walletOps log) d.accounts := by
  induction log generalizing d with
  | nil => rfl
  | cons o log ih =>
    rw [Store.view_cons, ih]
    cases o <;> simp [billingStore, BillingOp.apply, walletOps]

theorem ledger_view : (billingStore.view log d).accounts.ledger =
    d.accounts.ledger ++ ledgerRows log := by
  rw [accounts_view, ledger_applyAll]
  rfl

theorem balance_view (u : ℕ) : (billingStore.view log d).accounts.balance u =
    d.accounts.balance u + delta u (walletOps log) := by
  rw [accounts_view, balance_applyAll]

/-- The subscriptions after some writes are those before and the writes. -/
theorem subscriptions_congr {log : List BillingOp} {d d' : BillingDb}
    (h : d.subscriptions = d'.subscriptions) :
    (billingStore.view log d).subscriptions = (billingStore.view log d').subscriptions := by
  induction log generalizing d d' with
  | nil => exact h
  | cons o log ih =>
    rw [Store.view_cons, Store.view_cons]
    refine ih ?_
    cases o <;> simp [billingStore, BillingOp.apply, h]

/-- The subscriptions, by the writes to them. -/
theorem subscriptions_view : (billingStore.view log d).subscriptions =
    (billingStore.view (subscriptionOps log) d).subscriptions := by
  induction log generalizing d with
  | nil => rfl
  | cons o log ih =>
    rw [Store.view_cons, ih]
    cases o with
    | putSubscription u row => rfl
    | updateSubscription u c => rfl
    | insertAdaptyEvent row => exact subscriptions_congr rfl
    | insertCloudPaymentsEvent row => exact subscriptions_congr rfl
    | wallet op => exact subscriptions_congr rfl

theorem users_view : (billingStore.view log d).users = d.users ∧
    (billingStore.view log d).deviceUser = d.deviceUser := by
  induction log generalizing d with
  | nil => exact ⟨rfl, rfl⟩
  | cons o log ih =>
    rw [Store.view_cons]
    refine ⟨(ih _).1.trans ?_, (ih _).2.trans ?_⟩ <;> cases o <;> rfl

end View

section Locks

variable {log log' : List BillingOp}

/-- The locks of two logs that can be open together. -/
theorem Apart.of_mem (h : BillingOp.Apart log log') {k : BillingLock} {o o' : BillingOp}
    (ho : o ∈ log) (hk : k ∈ o.locks) (ho' : o' ∈ log') (hk' : k ∈ o'.locks) : False :=
  h k (List.mem_flatMap.2 ⟨o, ho, hk⟩) (List.mem_flatMap.2 ⟨o', ho', hk'⟩)

theorem mem_adaptyRows {row : AdaptyWebhookEvent} :
    row ∈ adaptyRows log ↔ .insertAdaptyEvent row ∈ log := by
  rw [adaptyRows, List.mem_filterMap]
  constructor
  · rintro ⟨o, ho, h⟩
    cases o <;> simp at h
    exact h ▸ ho
  · exact fun h => ⟨_, h, rfl⟩

theorem mem_cloudPaymentsRows {row : CloudPaymentsWebhookEvent} :
    row ∈ cloudPaymentsRows log ↔ .insertCloudPaymentsEvent row ∈ log := by
  rw [cloudPaymentsRows, List.mem_filterMap]
  constructor
  · rintro ⟨o, ho, h⟩
    cases o <;> simp at h
    exact h ▸ ho
  · exact fun h => ⟨_, h, rfl⟩

theorem mem_walletOps {op : WalletOp} : op ∈ walletOps log ↔ .wallet op ∈ log := by
  rw [walletOps, List.mem_filterMap]
  constructor
  · rintro ⟨o, ho, h⟩
    cases o <;> simp at h
    exact h ▸ ho
  · exact fun h => ⟨_, h, rfl⟩

/-- The lock of a ledger row is held by the log that inserts it. -/
theorem mem_locks_of_ledgerRows {row : LedgerTransaction} (h : row ∈ ledgerRows log) :
    BillingLock.wallet (.key row.key) ∈ log.flatMap BillingOp.locks := by
  have hk : Lock.key row.key ∈ locks (walletOps log) := key_mem_locks h
  obtain ⟨op, hop, hlock⟩ := List.mem_filterMap.1 hk
  refine List.mem_flatMap.2 ⟨_, mem_walletOps.1 hop, ?_⟩
  simp [BillingOp.locks, hlock]

/-- A log that inserts the row of a key excludes that another one does. -/
theorem Apart.key_ne (h : BillingOp.Apart log log') {row row' : LedgerTransaction}
    (hrow : row ∈ ledgerRows log) (hrow' : row' ∈ ledgerRows log') : row'.key ≠ row.key :=
  fun he => h _ (mem_locks_of_ledgerRows hrow) (he ▸ mem_locks_of_ledgerRows hrow')

end Locks

/-! ## What the commits have credited -/

section Credited

variable {ι : Type} {may : ι → ℕ × Time → BillingDb → List BillingOp → Prop} {d₀ d : BillingDb}
variable {hist : List (ι × List BillingOp)}

/-- The ledger rows that some commits have inserted. -/
def creditedRows (hist : List (ι × List BillingOp)) : List LedgerTransaction :=
  hist.flatMap fun c => ledgerRows c.2

theorem ledger_commits (h : Commits billingStore may d₀ hist d) :
    d.accounts.ledger = d₀.accounts.ledger ++ creditedRows hist :=
  h.table_eq (fun d => d.accounts.ledger) ledger_view

/-- Commits that move the balances with the ledger. -/
theorem balance_commits (hmay : ∀ i g d log, may i g d log → Balanced (walletOps log))
    (h : Commits billingStore may d₀ hist d) (u : ℕ) :
    d.accounts.balance u = d₀.accounts.balance u + net u (creditedRows hist) := by
  induction h with
  | nil => simp [creditedRows]
  | @snoc hist d i g log _ hm ih =>
    have hrows : creditedRows (hist ++ [(i, log)]) = creditedRows hist ++ ledgerRows log := by
      simp [creditedRows]
    rw [balance_view, ih, hmay i g d log hm u, hrows, net_append, ledgerRows, add_assoc]

end Credited

/-! ## The rules for the statements -/

section Statements

variable {ι α : Type} {pr : Protocol billingStore ι} {i : ι}
variable {Q : Except BillingError α → BillingOwn → Prop}

theorem rg_billingStmt {s : BillingStmt} {k : s.Resp → BillingProg α} {l : BillingOwn}
    (h : ∀ l₁, pr.Relies i l l₁ → pr.inv l₁.gen l₁.db →
      pr.test i (l₁.view billingStore) (.stmt s) →
      pr.rg i Q (k (s.run l₁.gen.2 l₁.gen.1 (l₁.view billingStore)).1)
        ⟨((s.run l₁.gen.2 l₁.gen.1 (l₁.view billingStore)).2.2, l₁.gen.2), l₁.db,
          l₁.log ++ (s.run l₁.gen.2 l₁.gen.1 (l₁.view billingStore)).2.1, (), l₁.done⟩) :
    pr.rg i Q (.act (.stmt s) k) l := by
  refine Protocol.rg_clock (fun s g m d r ops g' m' hx => ?_) h
  obtain ⟨t, ht, rfl, hrun⟩ := hx
  exact ⟨ht, hrun⟩

/-- The rule for a statement that draws nothing. -/
theorem rg_write {s : BillingStmt} {k : s.Resp → BillingProg α} {l : BillingOwn}
    (hs : ∀ t g d, (s.run t g d).2.2 = g)
    (h : ∀ l₁, pr.Relies i l l₁ → pr.inv l₁.gen l₁.db →
      pr.rg i Q (k (s.run l₁.gen.2 l₁.gen.1 (l₁.view billingStore)).1)
        (l₁.write (s.run l₁.gen.2 l₁.gen.1 (l₁.view billingStore)).2.1)) :
    pr.rg i Q (.act (.stmt s) k) l := by
  refine rg_billingStmt fun l₁ he hi _ => ?_
  rw [hs]
  exact h l₁ he hi

/-- The rule for a statement that reads. -/
theorem rg_read {s : BillingStmt} {k : s.Resp → BillingProg α} {l : BillingOwn}
    (hs : ∀ t g d, (s.run t g d).2 = ([], g))
    (h : ∀ l₁, pr.Relies i l l₁ → pr.inv l₁.gen l₁.db →
      pr.rg i Q (k (s.run l₁.gen.2 l₁.gen.1 (l₁.view billingStore)).1) l₁) :
    pr.rg i Q (.act (.stmt s) k) l := by
  refine rg_write (fun t g d => by rw [hs]) fun l₁ he hi => ?_
  rw [hs, Own.write_nil]
  exact h l₁ he hi

end Statements

/-- The writes of the flush of a row. -/
def flushOps (u : ℕ) (wanted : Subscription) : Option Subscription → List BillingOp
  | none => [.putSubscription u wanted]
  | some loaded => [.updateSubscription u (loaded.changeTo wanted)]

/-- The flush of the row that is there leaves the wanted one. -/
theorem view_flushOps {log : List BillingOp} {d : BillingDb} {u : ℕ} {wanted : Subscription}
    (h : subscriptionOps log = flushOps u wanted (d.subscriptions u)) :
    (billingStore.view log d).subscriptions =
      Function.update d.subscriptions u (some wanted) := by
  rw [subscriptions_view, h]
  cases hrow : d.subscriptions u with
  | none => rfl
  | some loaded =>
    show Function.update d.subscriptions u ((d.subscriptions u).map _) = _
    rw [hrow, Option.map_some, Subscription.change_changeTo]

/-! ## The grant -/

/-- What `grant` has written: nothing for a key with a row, else the row with its amount. -/
inductive Granted (row : ℕ → LedgerTransaction) (ops : List WalletOp) : Prop
  | replay (hrows : rows ops = []) (hdelta : ∀ v, delta v ops = 0)
  | new (id : ℕ) (hrows : rows ops = [row id])
      (hdelta : ∀ v, delta v ops = if (row id).userId = v then (row id).amount else 0)

/-- The keys of the rows that the open transaction inserts are new. -/
def NewKeys (l : BillingOwn) : Prop :=
  ∀ row ∈ ledgerRows l.log, ∀ r ∈ l.db.accounts.ledger, r.key ≠ row.key

theorem ledgerRows_of_nil {log : List BillingOp} (h : walletOps log = []) :
    ledgerRows log = [] := by
  rw [ledgerRows, h]
  rfl

theorem NewKeys.of_nil {l : BillingOwn} (h : walletOps l.log = []) : NewKeys l := by
  intro row hrow
  rw [ledgerRows_of_nil h] at hrow
  cases hrow

/-- The user has a wallet. -/
def HasWallet (u : ℕ) (l : BillingOwn) : Prop :=
  ((l.view billingStore).accounts.wallets u).isSome

section Grant

variable {ι α : Type} {pr : Protocol billingStore ι} {i : ι} {l : BillingOwn}

theorem NewKeys.stable : Protocol.Stable pr i NewKeys := by
  intro l l' _ h hr
  cases hr with
  | gen => exact h
  | @commit j log hj hc hm =>
    intro row hrow r hmem
    rw [ledger_view, List.mem_append] at hmem
    rcases hmem with hold | hnew
    · exact h row hrow r hold
    · exact Apart.key_ne hc hrow hnew

theorem HasWallet.iff (u : ℕ) : HasWallet u l ↔
    (l.db.accounts.wallets u).isSome ∨ Lock.wallet u ∈ locks (walletOps l.log) := by
  rw [HasWallet, Own.view, accounts_view, isSome_applyAll]

theorem HasWallet.stable (u : ℕ) : Protocol.Stable pr i (HasWallet u) := by
  intro l l' _ h hr
  cases hr with
  | gen => exact h
  | @commit j log hj hc hm =>
    rw [HasWallet.iff] at h ⊢
    refine h.imp_left fun hsome => ?_
    rw [accounts_view, isSome_applyAll]
    exact .inl hsome

/-- The open transaction of a grant: what holds beside it, and its writes so far. -/
structure Granting (A : BillingOwn → Prop) (l₀ : BillingOwn) (ops : List WalletOp)
    (l : BillingOwn) : Prop where
  rest : A l
  newKeys : NewKeys l
  log : l.log = l₀.log ++ ops.map .wallet
  done : l.done = l₀.done
  gen : l₀.gen ≤ l.gen

variable {A : BillingOwn → Prop} {l₀ : BillingOwn} {ops : List WalletOp}

theorem Granting.stable (hA : Protocol.Stable pr i A) :
    Protocol.Stable pr i (Granting A l₀ ops) := by
  intro l l' hinv h hr
  have hstable : Protocol.Stable pr i fun l : BillingOwn =>
      l.log = l₀.log ++ ops.map BillingOp.wallet ∧ l.done = l₀.done :=
    Protocol.Stable.own fun log done => log = l₀.log ++ ops.map .wallet ∧ done = l₀.done
  have hown := hstable l l' hinv ⟨h.log, h.done⟩ hr
  exact ⟨hA l l' hinv h.rest hr, NewKeys.stable l l' hinv h.newKeys hr, hown.1, hown.2,
    h.gen.trans (Protocol.Relies.own (.single hr)).2.2.2⟩

/-- Some writes of the grant. -/
theorem Granting.write (h : Granting A l₀ ops l)
    (hA : ∀ (l : BillingOwn) (ops : List WalletOp) (gen : ℕ × Time), l.gen ≤ gen → A l →
      A ⟨gen, l.db, l.log ++ ops.map .wallet, (), l.done⟩) (ops' : List WalletOp)
    {gen : ℕ × Time} (hgen : l.gen ≤ gen)
    (hnew : ∀ row ∈ rows ops', ∀ r ∈ l.db.accounts.ledger, r.key ≠ row.key) :
    Granting A l₀ (ops ++ ops') ⟨gen, l.db, l.log ++ ops'.map .wallet, (), l.done⟩ := by
  refine ⟨hA l ops' gen hgen h.rest, fun row hrow => ?_, ?_, h.done, h.gen.trans hgen⟩
  · rw [ledgerRows_append, List.mem_append] at hrow
    rcases hrow with hold | hadd
    · exact h.newKeys row hold
    · refine hnew row ?_
      rwa [ledgerRows, walletOps_map] at hadd
  · show l.log ++ _ = _
    rw [h.log, List.append_assoc, List.map_append]

/-- What the rule for a grant needs of the property `A` that holds beside it: the others keep it,
and so do the writes of the grant. -/
structure Beside (pr : Protocol billingStore ι) (i : ι) (A : BillingOwn → Prop) : Prop where
  stable : Protocol.Stable pr i A
  write (l : BillingOwn) (ops : List WalletOp) (gen : ℕ × Time) : l.gen ≤ gen → A l →
    A ⟨gen, l.db, l.log ++ ops.map .wallet, (), l.done⟩

variable {Q : Except BillingError α → BillingOwn → Prop} {u : ℕ} {amount : Int} {key : IdemKey}
variable {metaData : Json} {k : ConsumeResult → BillingProg α}

theorem HasWallet.provision (u : ℕ) (l : BillingOwn) :
    HasWallet u (l.write ((provision (l.view billingStore).accounts u).map .wallet)) := by
  unfold Wallet.provision
  split
  · rename_i hsome
    rw [List.map_nil, Own.write_nil]
    exact hsome
  · rw [HasWallet.iff]
    right
    show Lock.wallet u ∈ locks (walletOps (l.log ++ _))
    rw [walletOps_append, walletOps_map, locks_append]
    exact List.mem_append_right _ (by simp [locks, WalletOp.lock])

theorem ensureWallet_run (t : Time) (g u : ℕ) (d : BillingDb) :
    (BillingStmt.run t g d (.wallet (.ensureWallet u))).2.1 =
      (provision d.accounts u).map .wallet := rfl

theorem HasWallet.write {u : ℕ} {l : BillingOwn} (h : HasWallet u l) (ops : List BillingOp)
    (gen : ℕ × Time) : HasWallet u ⟨gen, l.db, l.log ++ ops, (), l.done⟩ := by
  rw [HasWallet.iff] at h ⊢
  refine h.imp_right fun hlock => ?_
  rw [walletOps_append, locks_append]
  exact List.mem_append_left _ hlock

/-- An exception of the grant. -/
theorem Granting.raise (hA : Beside pr i A) (hraise : ∀ x l, A l → Q (.error x) l)
    (hinv : pr.inv l.gen l.db) (h : Granting A l₀ ops l) (x : BillingError) :
    pr.rg i Q (.raise x) l :=
  Protocol.rg_raise fun _ he _ => hraise x _ (hA.stable.relies hinv h.rest he)

/-- The branch of a key that has a row. -/
theorem replay_rg (hA : Beside pr i A) (hraise : ∀ x l, A l → Q (.error x) l)
    (hinv : pr.inv l.gen l.db) (h : Granting A l₀ ops l)
    (hk : ∀ res l, Granting A l₀ ops l → pr.inv l.gen l.db → pr.rg i Q (k res) l) :
    pr.rg i Q (((replay u .credit amount key).embed walletAct walletAnswer .wallet).bind k) l := by
  simp only [replay, existingTx, TxProg.stmt, bind_eq, act_bind, ret_bind, embed_act, walletAct]
  refine rg_read (fun _ _ _ => rfl) fun l₁ he₁ hi₁ => ?_
  have h₁ : Granting A l₀ ops l₁ := (Granting.stable hA.stable).relies hinv h he₁
  simp only [walletAnswer, BillingStmt.run, WalletStmt.run]
  cases (l₁.view billingStore).accounts.ledger.find? fun r => r.key = (u, key) with
  | none => exact h₁.raise hA hraise hi₁ _
  | some existing =>
    dsimp only
    split
    · exact h₁.raise hA hraise hi₁ _
    · simp only [act_bind, ret_bind, embed_act, walletAct, pure_eq, embed_ret]
      refine rg_read (fun _ _ _ => rfl) fun l₂ he₂ hi₂ => ?_
      exact hk _ l₂ ((Granting.stable hA.stable).relies hi₁ h₁ he₂) hi₂

/-- The branch of a key whose row has just been inserted. -/
theorem credit_rg {reason : String} (row : LedgerTransaction) (hA : Beside pr i A)
    (hinv : pr.inv l.gen l.db) (h : Granting A l₀ ops l) (hw : HasWallet u l)
    (hrows : rows ops = [row]) (hrow : row.userId = u ∧ row.amount = amount)
    (hdelta : ∀ v, delta v ops = 0)
    (hk : ∀ res ops l, Granting A l₀ ops l → pr.inv l.gen l.db → rows ops = [row] →
      (∀ v, delta v ops = if row.userId = v then row.amount else 0) → pr.rg i Q (k res) l) :
    pr.rg i Q (((do
      let updated ← Wallet.creditBalance u amount
      let newBalance := updated.getD amount
      Wallet.recordAudit ⟨u, none, .billingCredit, .obj
        [("ledgerTxId", .num row.id), ("amount", .num amount),
          ("newBalance", .num newBalance), ("reason", .str reason)]⟩
      pure ⟨newBalance, row.id, false⟩ : WalletProg ConsumeResult).embed walletAct walletAnswer
        .wallet).bind k) l := by
  simp only [Wallet.creditBalance, Wallet.recordAudit, TxProg.stmt, bind_eq, pure_eq, act_bind,
    ret_bind, embed_act, walletAct, embed_ret]
  refine rg_write (fun t g d => ?_) fun l₁ he₁ hi₁ => ?_
  · simp only [BillingStmt.run, WalletStmt.run]
    split <;> rfl
  have h₁ : Granting A l₀ ops l₁ := (Granting.stable hA.stable).relies hinv h he₁
  have hw₁ : HasWallet u l₁ := (HasWallet.stable u).relies hinv hw he₁
  have hops : (BillingStmt.run l₁.gen.2 l₁.gen.1 (l₁.view billingStore)
      (.wallet (.creditBalance u amount))).2.1 = [WalletOp.addBalance u amount].map .wallet := by
    simp only [BillingStmt.run, WalletStmt.run]
    have hsome : ((l₁.view billingStore).accounts.wallets u).isSome := hw₁
    rw [if_pos hsome]
  rw [hops]
  have h₂ : Granting A l₀ (ops ++ [.addBalance u amount])
      (l₁.write ([WalletOp.addBalance u amount].map .wallet)) :=
    h₁.write hA.write [_] (le_refl _) (by simp [rows])
  refine rg_write (fun _ _ _ => rfl) fun l₃ he₃ hi₃ => ?_
  have h₃ := (Granting.stable hA.stable).relies (l := l₁.write _) hi₁ h₂ he₃
  refine hk _ _ _ (h₃.write hA.write [.insertAudit _] (le_refl _) (by simp [rows])) hi₃
    ?_ fun v => ?_
  · rw [rows_append, rows_append, hrows]
    rfl
  · rw [delta_append, delta_append, hdelta, hrow.1, hrow.2]
    simp [delta]

/-- **A grant among others.** -/
theorem grant_rg {reason : String} (hA : Beside pr i A)
    (hraise : ∀ x l, A l → Q (.error x) l)
    (hinv : pr.inv l₀.gen l₀.db) (hl : A l₀) (hkeys : NewKeys l₀)
    (hk : ∀ res ops l, Granting A l₀ ops l → pr.inv l.gen l.db →
      Granted (fun id => ⟨id, u, .credit, amount, metaData, key⟩) ops → 0 < amount →
      pr.rg i Q (k res) l) :
    pr.rg i Q ((grant u amount key metaData reason).bind k) l₀ := by
  unfold grant Wallet.grant
  by_cases hpos : amount ≤ 0
  · rw [if_pos hpos]
    have h₀ : Granting A l₀ [] l₀ := ⟨hl, hkeys, by simp, rfl, le_refl _⟩
    exact h₀.raise hA hraise hinv _
  rw [if_neg hpos]
  have hpos : 0 < amount := by omega
  simp only [Wallet.ensureWallet, Wallet.insertLedger, TxProg.stmt, bind_eq, act_bind, ret_bind,
    embed_act, walletAct]
  -- the wallet
  refine rg_write (fun _ _ _ => rfl) fun l₁ he₁ hi₁ => ?_
  rw [ensureWallet_run]
  have h₀ : Granting A l₀ [] l₀ := ⟨hl, hkeys, by simp, rfl, le_refl _⟩
  have h₁ : Granting A l₀ [] l₁ := (Granting.stable hA.stable).relies hinv h₀ he₁
  have hw₂ : HasWallet u (l₁.write ((provision (l₁.view billingStore).accounts u).map .wallet)) :=
    HasWallet.provision u l₁
  have hrows : rows (provision (l₁.view billingStore).accounts u) = [] := rows_provision _ u
  have hdelta : ∀ v, delta v (provision (l₁.view billingStore).accounts u) = 0 :=
    fun v => delta_provision _ u v
  generalize provision (l₁.view billingStore).accounts u = ops₁ at hw₂ hrows hdelta ⊢
  have h₂ : Granting A l₀ ops₁ (l₁.write (ops₁.map .wallet)) :=
    h₁.write hA.write ops₁ (le_refl _) (by simp [hrows])
  -- the row of the key
  refine rg_billingStmt fun l₃ he₃ hi₃ _ => ?_
  have h₃ := (Granting.stable hA.stable).relies (l := l₁.write _) hi₁ h₂ he₃
  have hw₃ : HasWallet u l₃ := (HasWallet.stable u).relies (l := l₁.write _) hi₁ hw₂ he₃
  cases hany : (l₃.view billingStore).accounts.ledger.any fun r => r.key = (u, key) with
  | true =>
    simp only [BillingStmt.run, WalletStmt.run, hany, if_true, walletAnswer, List.map_nil,
      List.append_nil]
    exact replay_rg hA hraise hi₃ h₃ fun res l h hi => hk res ops₁ l h hi (.replay hrows hdelta) hpos
  | false =>
    simp only [BillingStmt.run, WalletStmt.run, hany, Bool.false_eq_true, if_false, walletAnswer]
    have hnew : ∀ r ∈ l₃.db.accounts.ledger, r.key ≠ (u, key) := by
      intro r hr he
      refine List.any_eq_false.1 hany r ?_ (by simpa using he)
      show r ∈ (billingStore.view l₃.log l₃.db).accounts.ledger
      rw [ledger_view]
      exact List.mem_append_left _ hr
    have hgen : l₃.gen ≤ (l₃.gen.1 + 1, l₃.gen.2) := ⟨Nat.le_succ _, le_refl _⟩
    have h₄ := h₃.write hA.write [.insertLedger ⟨l₃.gen.1, u, .credit, amount, metaData, key⟩] hgen
      (by simpa [rows, LedgerTransaction.key] using hnew)
    refine credit_rg ⟨l₃.gen.1, u, .credit, amount, metaData, key⟩ hA ?_ h₄ ?_ ?_ ⟨rfl, rfl⟩ ?_ ?_
    · exact pr.inv_gen hgen hi₃
    · exact hw₃.write _ _
    · rw [rows_append, hrows]
      rfl
    · intro v
      rw [delta_append, hdelta]
      rfl
    · exact fun res ops l h hi hr hd => hk res ops l h hi (.new l₃.gen.1 hr hd) hpos

end Grant

/-! ## An open transaction that is about one event -/

/-- The open transaction: the rows of the journals that it inserts, with new keys, its writes to
the subscriptions, and what the session has committed before. -/
structure Opened (adapty : List AdaptyWebhookEvent) (cloud : List CloudPaymentsWebhookEvent)
    (subs : List BillingOp) (done : List (List BillingOp)) (l : BillingOwn) : Prop where
  adaptyLog : adaptyRows l.log = adapty
  cloudLog : cloudPaymentsRows l.log = cloud
  subsLog : subscriptionOps l.log = subs
  doneLog : l.done = done
  newAdapty : ∀ row ∈ adapty, ∀ r ∈ l.db.adaptyEvents, r.eventId ≠ row.eventId
  newCloud : ∀ row ∈ cloud, ∀ r ∈ l.db.cloudPaymentsEvents, r.transactionId ≠ row.transactionId

/-- The writes of a log to the wallet: at most the row of the credit, if it is allowed, with its
amount. -/
structure Accounted (allowed : Prop) (row : ℕ → LedgerTransaction) (log : List BillingOp) :
    Prop where
  ledger : ledgerRows log = [] ∨ allowed ∧ ∃ id, ledgerRows log = [row id]
  balanced : Balanced (walletOps log)

section Open

variable {ι : Type} {pr : Protocol billingStore ι} {i : ι} {l : BillingOwn}
variable {adapty : List AdaptyWebhookEvent} {cloud : List CloudPaymentsWebhookEvent}
variable {subs : List BillingOp} {done : List (List BillingOp)}

/-- The writes of the wallet leave the rest. -/
theorem Opened.write (h : Opened adapty cloud subs done l) (ops : List WalletOp) (gen : ℕ × Time) :
    Opened adapty cloud subs done ⟨gen, l.db, l.log ++ ops.map .wallet, (), l.done⟩ :=
  ⟨by rw [adaptyRows_append, adaptyRows_map, List.append_nil, h.adaptyLog],
    by rw [cloudPaymentsRows_append, cloudPaymentsRows_map, List.append_nil, h.cloudLog],
    by rw [subscriptionOps_append, subscriptionOps_map, List.append_nil, h.subsLog], h.doneLog,
    h.newAdapty, h.newCloud⟩

theorem Opened.stable : Protocol.Stable pr i (Opened adapty cloud subs done) := by
  intro l l' _ h hr
  cases hr with
  | gen => exact ⟨h.adaptyLog, h.cloudLog, h.subsLog, h.doneLog, h.newAdapty, h.newCloud⟩
  | @commit j log hj hc hm =>
    refine ⟨h.adaptyLog, h.cloudLog, h.subsLog, h.doneLog, fun row hrow r hmem => ?_,
      fun row hrow r hmem => ?_⟩
    · rw [adaptyEvents_view, List.mem_append] at hmem
      rcases hmem with hold | hnew
      · exact h.newAdapty row hrow r hold
      · intro he
        rw [← h.adaptyLog] at hrow
        exact Apart.of_mem hc (mem_adaptyRows.1 hrow) (k := .adaptyEvent row.eventId)
          (by simp [BillingOp.locks]) (mem_adaptyRows.1 hnew) (by simp [BillingOp.locks, he])
    · rw [cloudPaymentsEvents_view, List.mem_append] at hmem
      rcases hmem with hold | hnew
      · exact h.newCloud row hrow r hold
      · intro he
        rw [← h.cloudLog] at hrow
        exact Apart.of_mem hc (mem_cloudPaymentsRows.1 hrow)
          (k := .cloudPaymentsEvent row.transactionId) (by simp [BillingOp.locks])
          (mem_cloudPaymentsRows.1 hnew) (by simp [BillingOp.locks, he])

theorem Opened.beside : Beside pr i (Opened adapty cloud subs done) :=
  ⟨Opened.stable, fun _ ops gen _ h => h.write ops gen⟩

variable {allowed : Prop} {row : ℕ → LedgerTransaction} {log : List BillingOp}

/-- A log that does not write to the wallet. -/
theorem Accounted.of_nil (h : walletOps log = []) : Accounted allowed row log := by
  refine ⟨.inl (ledgerRows_of_nil h), fun u => ?_⟩
  rw [h]
  rfl

/-- The writes of a grant. -/
theorem Accounted.of_granted (hallowed : allowed) {ops : List WalletOp} (h : Granted row ops)
    (hcredit : ∀ id, (row id).type = .credit) (hlog : walletOps log = ops) :
    Accounted allowed row log := by
  have hrows : ledgerRows log = rows ops := by rw [ledgerRows, hlog]
  cases h with
  | replay hnone hdelta =>
    refine ⟨.inl (hrows.trans hnone), fun u => ?_⟩
    rw [hlog, hdelta, hnone, net_nil]
  | new id hone hdelta =>
    refine ⟨.inr ⟨hallowed, id, hrows.trans hone⟩, fun u => ?_⟩
    rw [hlog, hdelta, hone, net_singleton, LedgerTransaction.signed, hcredit]

/-- The open transaction before it writes to the wallet. -/
def Clean (adapty : List AdaptyWebhookEvent) (cloud : List CloudPaymentsWebhookEvent)
    (subs : List BillingOp) (done : List (List BillingOp)) (l : BillingOwn) : Prop :=
  Opened adapty cloud subs done l ∧ walletOps l.log = []

theorem Clean.stable : Protocol.Stable pr i (Clean adapty cloud subs done) :=
  Opened.stable.and (Protocol.Stable.own fun log _ => walletOps log = [])

/-- The open transaction when it is ready to be committed. -/
structure Ready (adapty : List AdaptyWebhookEvent) (cloud : List CloudPaymentsWebhookEvent)
    (subs : List BillingOp) (done : List (List BillingOp)) (allowed : Prop)
    (row : ℕ → LedgerTransaction) (l : BillingOwn) : Prop where
  opened : Opened adapty cloud subs done l
  accounted : Accounted allowed row l.log
  newKeys : NewKeys l

theorem Ready.stable : Protocol.Stable pr i (Ready adapty cloud subs done allowed row) := by
  intro l l' hinv h hr
  have hown : l'.log = l.log := (Protocol.Relies.own (.single hr)).1
  refine ⟨Opened.stable l l' hinv h.opened hr, ?_, NewKeys.stable l l' hinv h.newKeys hr⟩
  rw [hown]
  exact h.accounted

theorem Clean.ready (h : Clean adapty cloud subs done l) :
    Ready adapty cloud subs done allowed row l :=
  ⟨h.1, .of_nil h.2, .of_nil h.2⟩

/-- An audit row more. -/
theorem Ready.audit (h : Ready adapty cloud subs done allowed row l) (e : AuditEvent) :
    Ready adapty cloud subs done allowed row (l.write [.wallet (.insertAudit e)]) := by
  have hwallet : walletOps (l.write [.wallet (.insertAudit e)]).log =
      walletOps l.log ++ [.insertAudit e] := walletOps_append l.log _
  have hrows : ledgerRows (l.write [.wallet (.insertAudit e)]).log = ledgerRows l.log := by
    rw [ledgerRows, hwallet, rows_append]
    exact List.append_nil _
  refine ⟨h.opened.write [.insertAudit e] l.gen, ⟨?_, fun u => ?_⟩, fun r hr => ?_⟩
  · rw [hrows]
    exact h.accounted.ledger
  · rw [hwallet, delta_append, rows_append, net_append, h.accounted.balanced u]
    rfl
  · rw [hrows] at hr
    exact h.newKeys r hr

/-- **The grant of an open transaction.** -/
theorem Clean.grant_rg {α : Type} {Q : Except BillingError α → BillingOwn → Prop} {u : ℕ}
    {amount : Int} {key : IdemKey} {metaData : Json} {reason : String}
    {k : ConsumeResult → BillingProg α} (hallowed : allowed)
    (hraise : ∀ x l, l.done = done → Q (.error x) l) (hinv : pr.inv l.gen l.db)
    (h : Clean adapty cloud subs done l)
    (hk : ∀ res l', pr.inv l'.gen l'.db → l.gen ≤ l'.gen → Ready adapty cloud subs done allowed
      (fun id => ⟨id, u, .credit, amount, metaData, key⟩) l' → pr.rg i Q (k res) l') :
    pr.rg i Q ((grant u amount key metaData reason).bind k) l := by
  refine Billing.grant_rg Opened.beside (fun x l hl => hraise x l hl.doneLog) hinv h.1 (.of_nil h.2)
    fun res ops l₁ h₁ hi₁ hg _ => hk res l₁ hi₁ h₁.gen ⟨h₁.rest, ?_, h₁.newKeys⟩
  refine .of_granted hallowed hg (fun _ => rfl) ?_
  rw [h₁.log, walletOps_append, h.2, walletOps_map, List.nil_append]

/-- The flush of the subscription. -/
theorem flush_rg {α : Type} {Q : Except BillingError α → BillingOwn → Prop}
    (hraise : ∀ x l, l.done = done → Q (.error x) l) (hinv : pr.inv l.gen l.db)
    (h : Clean adapty cloud [] done l) (u : ℕ) (w : Subscription) (row : Option Subscription)
    {k : Unit → BillingProg α} (hk : ∀ l, pr.inv l.gen l.db →
      Clean adapty cloud (flushOps u w row) done l → pr.rg i Q (k ()) l) :
    pr.rg i Q ((flushSubscription u w row).bind k) l := by
  have hflush : ∀ l₁ : BillingOwn, Clean adapty cloud [] done l₁ →
      Clean adapty cloud (flushOps u w row) done (l₁.write (flushOps u w row)) := by
    intro l₁ h₁
    refine ⟨⟨?_, ?_, ?_, h₁.1.doneLog, h₁.1.newAdapty, h₁.1.newCloud⟩, ?_⟩
    · show adaptyRows (l₁.log ++ _) = _
      rw [adaptyRows_append, h₁.1.adaptyLog]
      cases row <;> simp [flushOps, adaptyRows]
    · show cloudPaymentsRows (l₁.log ++ _) = _
      rw [cloudPaymentsRows_append, h₁.1.cloudLog]
      cases row <;> simp [flushOps, cloudPaymentsRows]
    · show subscriptionOps (l₁.log ++ _) = _
      rw [subscriptionOps_append, h₁.1.subsLog]
      cases row <;> rfl
    · show walletOps (l₁.log ++ _) = []
      rw [walletOps_append, h₁.2]
      cases row <;> rfl
  cases row with
  | none =>
    simp only [flushSubscription, insertSubscription, TxProg.stmt, bind_eq, act_bind, ret_bind,
      pure_eq, throw_eq]
    refine rg_write (fun t g d => ?_) fun l₁ he₁ hi₁ => ?_
    · simp only [BillingStmt.run]
      split <;> rfl
    have h₁ : Clean adapty cloud [] done l₁ := Clean.stable.relies hinv h he₁
    simp only [BillingStmt.run]
    split
    · refine Protocol.rg_raise fun l₂ he₂ _ => hraise _ _ ?_
      exact (he₂.own.2.2.1).trans h₁.1.doneLog
    · exact hk _ hi₁ (hflush l₁ h₁)
  | some loaded =>
    simp only [flushSubscription, updateSubscription, TxProg.stmt, act_bind, ret_bind]
    refine rg_write (fun _ _ _ => rfl) fun l₁ he₁ hi₁ => ?_
    exact hk _ hi₁ (hflush l₁ (Clean.stable.relies hinv h he₁))

end Open

end ChatBackend.Billing

import ChatBackend.Billing.CloudPaymentsCrediting
import ChatBackend.Foundations.Solo
import Mathlib

/-!
# What a callback of CloudPayments comes to

One callback on its own. A payment is skipped, has been credited before, or is credited, and
`applyPayments_solo` says what the loop does to a list of them. From it: the outcome that `handle`
reports, for which a skipped payment is as good as a credited one (`outcome_truthful`), and the
subscription, which is that of the last payment credited (`subscription_expiry`).
-/

namespace ChatBackend.Billing.CloudPayments

open Prog Store Wallet Policy

/-! ## One payment -/

/-- The kind of a payment and its credits; none for a payment that is skipped. -/
def credited (settings : BillingSettings) (payment : CreditablePayment) : Option (Kind × ℤ) :=
  (kindOf payment).bind fun kind => (creditsFor settings payment kind).map (Prod.mk kind)

/-- The payment ids of the journal. -/
def journaled (d : BillingDb) : List String := d.cloudPaymentsEvents.map (·.transactionId)

/-- The wallet refuses a grant: the amount is not positive, or the key has a row that differs. -/
def Refused (a : Accounts) (u : ℕ) (amount : ℤ) (key : IdemKey) : Prop :=
  amount ≤ 0 ∨ ∃ row, (a.ledger.find? fun r => r.key = (u, key)) = some row ∧
    (row.type ≠ .credit ∨ row.amount ≠ amount)

/-- The wallet refuses the grant of the payment. -/
def Rejected (settings : BillingSettings) (d : BillingDb) (u : ℕ) (payment : CreditablePayment) :
    Prop :=
  ∃ kind credits, credited settings payment = some (kind, credits) ∧
    Refused d.accounts u credits (grantKey payment.paymentId)

/-- The writes of a payment to the subscription, with the clock at `t`. -/
def subscriptionPuts (py : Python) (u : ℕ) (payment : CreditablePayment) (t : Time) :
    List BillingOp :=
  if kindOf payment = some .subscription then [.putSubscription u (subscriptionRow py payment t)]
  else []

theorem applyPayment_eq (py : Python) (settings : BillingSettings) (payment : CreditablePayment)
    (u : ℕ) : applyPayment py settings payment u = match credited settings payment with
      | none => .ret false
      | some (kind, credits) => (creditPayment py payment u kind credits).tryCatch fun x =>
        TxProg.rollback.bind fun _ => .raise x := by
  unfold applyPayment credited
  cases kindOf payment with
  | none => rfl
  | some kind =>
    dsimp only [Option.bind_some]
    cases creditsFor settings payment kind <;> rfl

theorem kindOf_of_credited {settings : BillingSettings} {payment : CreditablePayment} {kind : Kind}
    {credits : ℤ} (h : credited settings payment = some (kind, credits)) :
    kindOf payment = some kind := by
  obtain ⟨k, hk, h⟩ := Option.bind_eq_some_iff.1 h
  obtain ⟨c, -, h⟩ := Option.map_eq_some_iff.1 h
  rw [hk, (Prod.mk.inj h).1]

section Session

variable {py : Python} {settings : BillingSettings} {u : ℕ} {l : BillingOwn} {α : Type}
variable {Q : Except BillingError α → BillingOwn → Prop}

/-- A statement, at whatever time it is performed. -/
theorem solo_billingStmt {s : BillingStmt} {k : s.Resp → BillingProg α}
    (h : ∀ t, l.gen.2 ≤ t → solo billingStore Q (k (s.run t l.gen.1 (l.view billingStore)).1)
      ⟨((s.run t l.gen.1 (l.view billingStore)).2.2, t), l.db,
        l.log ++ (s.run t l.gen.1 (l.view billingStore)).2.1, (), l.done⟩) :
    solo billingStore Q (.act (.stmt s) k) l := by
  refine solo_stmt ?_
  rintro r ops ⟨n, t'⟩ ⟨⟩ ⟨t, ht, rfl, hrun⟩
  have := h _ ht
  rw [hrun] at this
  exact this

/-- What a part of a transaction leaves: more writes to the wallet, whose rows have the key. -/
structure Continues (key : IdemKey) (l l' : BillingOwn) : Prop where
  db : l'.db = l.db
  done : l'.done = l.done
  gen : l.gen.2 ≤ l'.gen.2
  log : ∃ ops : List WalletOp, l'.log = l.log ++ ops.map .wallet ∧
    ∀ row ∈ rows ops, row.idempotencyKey = key

theorem Continues.refl (key : IdemKey) (l : BillingOwn) : Continues key l l :=
  ⟨rfl, rfl, le_refl _, [], by simp, nofun⟩

theorem Continues.write {key : IdemKey} {l l' : BillingOwn} (h : Continues key l l')
    (ops : List WalletOp) (hops : ∀ row ∈ rows ops, row.idempotencyKey = key) {n : ℕ} {t : Time}
    (ht : l'.gen.2 ≤ t) :
    Continues key l ⟨(n, t), l'.db, l'.log ++ ops.map .wallet, (), l'.done⟩ := by
  obtain ⟨ops₀, hlog, hkeys⟩ := h.log
  refine ⟨h.db, h.done, h.gen.trans ht, ops₀ ++ ops, ?_, fun row hrow => ?_⟩
  · show l'.log ++ _ = _
    rw [hlog, List.map_append, List.append_assoc]
  · rw [rows_append, List.mem_append] at hrow
    exact hrow.elim (hkeys row) (hops row)

theorem Continues.read {key : IdemKey} {l l' : BillingOwn} (h : Continues key l l') {n : ℕ}
    {t : Time} (ht : l'.gen.2 ≤ t) : Continues key l ⟨(n, t), l'.db, l'.log ++ [], (), l'.done⟩ :=
  h.write [] nofun ht

/-- **A grant on its own.** -/
theorem grant_solo {amount : ℤ} {key : IdemKey} {metaData : Json} {reason : String}
    {Q : Except BillingError ConsumeResult → BillingOwn → Prop}
    (hraise : Refused (l.view billingStore).accounts u amount key → ∀ x l', Continues key l l' →
      Q (.error x) l')
    (hok : ¬Refused (l.view billingStore).accounts u amount key → ∀ res l', Continues key l l' →
      Q (.ok res) l') :
    solo billingStore Q (grant u amount key metaData reason) l := by
  unfold grant Wallet.grant
  by_cases hpos : amount ≤ 0
  · rw [if_pos hpos]
    exact hraise (.inl hpos) _ l (.refl key l)
  rw [if_neg hpos]
  simp only [Wallet.ensureWallet, Wallet.insertLedger, TxProg.stmt, bind_eq, act_bind, ret_bind,
    embed_act, walletAct]
  -- the wallet
  refine solo_billingStmt fun t₁ ht₁ => ?_
  rw [ensureWallet_run]
  have hrows : rows (provision (l.view billingStore).accounts u) = [] := rows_provision _ u
  generalize provision (l.view billingStore).accounts u = ops₁ at hrows ⊢
  have h₁ := (Continues.refl key l).write ops₁ (by simp [hrows]) (n := l.gen.1) ht₁
  have hledger : (billingStore.view (l.log ++ ops₁.map .wallet) l.db).accounts.ledger =
      (l.view billingStore).accounts.ledger := by
    rw [Own.view, ledger_view, ledger_view, ledgerRows_append, ledgerRows, ledgerRows,
      walletOps_map, hrows, List.append_nil]
  -- the row of the key
  refine solo_billingStmt fun t₂ ht₂ => ?_
  cases hany : (billingStore.view (l.log ++ ops₁.map .wallet) l.db).accounts.ledger.any
      fun r => r.key = (u, key) with
  | true =>
    have hany' := hledger ▸ hany
    obtain ⟨row, hrow⟩ : ∃ row, (l.view billingStore).accounts.ledger.find?
        (fun r => r.key = (u, key)) = some row := by
      rw [← Option.isSome_iff_exists, List.find?_isSome]
      simpa using hany'
    simp only [BillingStmt.run, WalletStmt.run, Own.view, hany, if_true, walletAnswer, replay,
      Wallet.existingTx, TxProg.stmt, bind_eq, act_bind,
      ret_bind, embed_act, walletAct, List.map_nil]
    refine solo_billingStmt fun t₃ ht₃ => ?_
    have h₂ := (h₁.read (n := l.gen.1) ht₂).read (n := l.gen.1) ht₃
    have hfind : (billingStore.view ((l.log ++ ops₁.map .wallet) ++ []) l.db).accounts.ledger.find?
        (fun r => r.key = (u, key)) = some row := by
      rw [List.append_nil, hledger]
      exact hrow
    simp only [BillingStmt.run, WalletStmt.run, Own.view, hfind, List.map_nil]
    by_cases hdiff : row.type ≠ .credit ∨ row.amount ≠ amount
    · rw [if_pos hdiff]
      exact hraise (.inr ⟨row, hrow, hdiff⟩) _ _ h₂
    · rw [if_neg hdiff]
      simp only [pure_eq, embed_act, walletAct, embed_ret]
      refine solo_billingStmt fun t₄ ht₄ => ?_
      refine hok ?_ _ _ (h₂.read ht₄)
      rintro (hle | ⟨row', hrow', hdiff'⟩)
      · exact hpos hle
      · rw [hrow] at hrow'
        exact hdiff (Option.some.inj hrow' ▸ hdiff')
  | false =>
    have hfind : (l.view billingStore).accounts.ledger.find? (fun r => r.key = (u, key)) = none :=
      hledger ▸ List.find?_eq_none.2 (by simpa using hany)
    simp only [BillingStmt.run, WalletStmt.run, Own.view, hany, Bool.false_eq_true, if_false,
      walletAnswer, pure_eq, embed_act, walletAct, embed_ret]
    refine solo_billingStmt fun t₃ ht₃ => solo_billingStmt fun t₄ ht₄ => ?_
    have h₂ := h₁.write [.insertLedger ⟨l.gen.1, u, .credit, amount, metaData, key⟩]
      (by simp [rows]) (n := l.gen.1 + 1) ht₂
    refine hok ?_ _ _ ((h₂.write _ ?_ ht₃).write [.insertAudit _] (by simp [rows]) ht₄)
    · rintro (hle | ⟨row, hrow, -⟩)
      · exact hpos hle
      · rw [hfind] at hrow
        cases hrow
    · simp only [WalletStmt.run]
      split <;> simp [rows]

/-- Nothing is committed. -/
structure Untouched (l l' : BillingOwn) : Prop where
  log : l'.log = []
  db : l'.db = l.db
  done : l'.done = l.done
  gen : l.gen.2 ≤ l'.gen.2

/-- The payment is credited, and sets the subscription by the clock at `t`. -/
structure CreditedAt (py : Python) (settings : BillingSettings) (u : ℕ)
    (payment : CreditablePayment) (t : Time) (l l' : BillingOwn) : Prop where
  new : payment.paymentId ∉ journaled l.db
  product : ∃ kind credits, credited settings payment = some (kind, credits) ∧
    ¬Refused l.db.accounts u credits (grantKey payment.paymentId)
  time : l.gen.2 ≤ t ∧ t ≤ l'.gen.2
  log : l'.log = []
  commit : ∃ log, l'.done = l.done ++ [log] ∧ l'.db = billingStore.view log l.db ∧
    (cloudPaymentsRows log).map (·.transactionId) = [payment.paymentId] ∧
    subscriptionOps log = subscriptionPuts py u payment t ∧
    ∀ row ∈ ledgerRows log, row.idempotencyKey = grantKey payment.paymentId

/-- What becomes of a payment. -/
def PaymentPost (py : Python) (settings : BillingSettings) (u : ℕ) (payment : CreditablePayment)
    (l : BillingOwn) : Except BillingError Bool → BillingOwn → Prop
  | .ok false, l' => Untouched l l' ∧
    (credited settings payment = none ∨ payment.paymentId ∈ journaled l.db)
  | .ok true, l' => ∃ t, CreditedAt py settings u payment t l l'
  | .error _, l' => Untouched l l' ∧ payment.paymentId ∉ journaled l.db ∧
    Rejected settings l.db u payment

/-- The end of the transaction of a payment that is new, from the grant on. -/
theorem grantPayment_solo {payment : CreditablePayment} {kind : Kind} {credits : ℤ} {t : Time}
    {l₀ : BillingOwn} (hproduct : credited settings payment = some (kind, credits))
    (hnew : payment.paymentId ∉ journaled l₀.db) (hdb : l.db = l₀.db)
    (hdone : l.done = l₀.done) (htime : l₀.gen.2 ≤ t ∧ t ≤ l.gen.2)
    (hlog : l.log = .insertCloudPaymentsEvent (journalRow payment u kind) ::
      subscriptionPuts py u payment t) (e : AuditEvent) :
    solo billingStore (fun o l' => match o with
      | .ok b => PaymentPost py settings u payment l₀ (.ok b) l'
      | .error x => solo billingStore (PaymentPost py settings u payment l₀)
        ((TxProg.rollback.bind fun _ => .raise x : BillingProg Bool)) l')
      ((grantPayment payment u kind credits).bind fun _ => (recordAudit e).bind fun _ =>
        TxProg.commit.bind fun _ => .ret true) l := by
  have haccounts : (l.view billingStore).accounts = l₀.db.accounts := by
    rw [Own.view, accounts_view, hlog, hdb]
    have hnone : walletOps (.insertCloudPaymentsEvent (journalRow payment u kind) ::
        subscriptionPuts py u payment t) = [] := by
      unfold subscriptionPuts
      split <;> rfl
    rw [hnone]
    rfl
  refine solo_bind (grant_solo ?_ ?_)
  · rw [haccounts]
    intro hrefused x l' hl'
    refine solo_rollback ⟨⟨rfl, hl'.db.trans hdb, hl'.done.trans hdone, ?_⟩, hnew, kind, credits,
      hproduct, hrefused⟩
    exact (htime.1.trans htime.2).trans hl'.gen
  · rw [haccounts]
    intro hfree res l' hl'
    refine solo_billingStmt fun t' ht' => solo_commit ?_
    obtain ⟨ops, hops, hkeys⟩ := hl'.log
    refine ⟨t, hnew, ⟨kind, credits, hproduct, hfree⟩, ⟨htime.1, htime.2.trans (hl'.gen.trans ht')⟩,
      rfl, l'.log ++ [.wallet (.insertAudit e.redacted)], ?_, ?_, ?_, ?_, ?_⟩
    · show l'.done ++ [_] = _
      rw [hl'.done, hdone]
      rfl
    · show billingStore.view _ l'.db = _
      rw [hl'.db, hdb]
      rfl
    · rw [hops, hlog]
      unfold subscriptionPuts
      split <;> simp [cloudPaymentsRows, journalRow]
    · rw [hops, hlog]
      unfold subscriptionPuts
      split <;> simp [subscriptionOps]
    · intro row hrow
      rw [hops, hlog] at hrow
      refine hkeys row ?_
      unfold subscriptionPuts at hrow
      split at hrow <;> simpa [ledgerRows, walletOps, rows, rows_append] using hrow

/-- **One payment.** -/
theorem applyPayment_solo {payment : CreditablePayment} (hlog : l.log = []) :
    solo billingStore (PaymentPost py settings u payment l) (applyPayment py settings payment u)
      l := by
  rw [applyPayment_eq]
  cases hproduct : credited settings payment with
  | none => exact ⟨⟨hlog, rfl, rfl, le_refl _⟩, .inl hproduct⟩
  | some product =>
    obtain ⟨kind, credits⟩ := product
    have hview : l.view billingStore = l.db := by
      rw [Own.view, hlog]
      rfl
    refine solo_tryCatch (Prog.wp_mono (fun o l' hq => ?_) (solo_billingStmt
      (Q := fun o l' => match o with
        | .ok b => PaymentPost py settings u payment l (.ok b) l'
        | .error x => solo billingStore (PaymentPost py settings u payment l)
          ((TxProg.rollback.bind fun _ => .raise x : BillingProg Bool)) l') fun t₁ ht₁ => ?_))
    · cases o <;> exact hq
    rw [hview]
    cases hany : l.db.cloudPaymentsEvents.any
        fun r => r.transactionId = (journalRow payment u kind).transactionId with
    | true =>
      simp only [BillingStmt.run, hany, if_true]
      refine solo_rollback ⟨⟨rfl, rfl, rfl, ht₁⟩, .inr ?_⟩
      obtain ⟨r, hr, he⟩ := List.any_eq_true.1 hany
      exact List.mem_map.2 ⟨r, hr, of_decide_eq_true he⟩
    | false =>
      have hnew : payment.paymentId ∉ journaled l.db := by
        intro hmem
        obtain ⟨r, hr, he⟩ := List.mem_map.1 hmem
        exact List.any_eq_false.1 hany r hr (decide_eq_true he)
      simp only [BillingStmt.run, hany, Bool.false_eq_true, if_false]
      have hkind := kindOf_of_credited hproduct
      cases kind with
      | tokens =>
        refine grantPayment_solo (l := ⟨(l.gen.1, t₁), l.db, _, (), l.done⟩) hproduct hnew rfl rfl
          (t := t₁) ⟨ht₁, le_refl _⟩ ?_ _
        rw [subscriptionPuts, if_neg (by simp [hkind]), hlog]
        rfl
      | subscription =>
        refine solo_billingStmt fun t₂ ht₂ => solo_billingStmt fun t₃ ht₃ => ?_
        refine grantPayment_solo (l := ⟨(l.gen.1, t₃), l.db, _, (), l.done⟩) hproduct hnew rfl rfl
          (t := t₂) ⟨ht₁.trans ht₂, ht₃⟩ ?_ _
        rw [subscriptionPuts, if_pos hkind, hlog]
        rfl

end Session

/-! ## The loop -/

/-- The payments of a list that the loop credits, when the journal has the ids. -/
def newlyCredited (settings : BillingSettings) :
    List String → List CreditablePayment → List CreditablePayment
  | _, [] => []
  | ids, payment :: rest =>
    if (credited settings payment).isSome ∧ payment.paymentId ∉ ids then
      payment :: newlyCredited settings (ids ++ [payment.paymentId]) rest
    else newlyCredited settings ids rest

theorem of_mem_newlyCredited {settings : BillingSettings} {ids : List String}
    {payments : List CreditablePayment} {payment : CreditablePayment}
    (h : payment ∈ newlyCredited settings ids payments) :
    payment ∈ payments ∧ (credited settings payment).isSome ∧ payment.paymentId ∉ ids := by
  induction payments generalizing ids with
  | nil => cases h
  | cons p rest ih =>
    unfold newlyCredited at h
    split at h
    · rename_i hp
      rcases List.mem_cons.1 h with rfl | h
      · exact ⟨List.mem_cons_self, hp⟩
      · obtain ⟨hmem, hsome, hids⟩ := ih h
        exact ⟨List.mem_cons_of_mem _ hmem, hsome, fun hid => hids (List.mem_append_left _ hid)⟩
    · obtain ⟨hmem, hrest⟩ := ih h
      exact ⟨List.mem_cons_of_mem _ hmem, hrest⟩

section Loop

variable {py : Python} {settings : BillingSettings} {u : ℕ} {l l' l₁ : BillingOwn}
variable {paid paid' : List (CreditablePayment × Time)} {payment : CreditablePayment} {t : Time}

/-- The writes to the subscription of some payments, each with the clock at its time. -/
def allPuts (py : Python) (u : ℕ) (paid : List (CreditablePayment × Time)) : List BillingOp :=
  paid.flatMap fun x => subscriptionPuts py u x.1 x.2

/-- What a part of the loop does that credits the payments `paid`, each at its time. -/
structure Looped (py : Python) (settings : BillingSettings) (u : ℕ)
    (paid : List (CreditablePayment × Time)) (l l' : BillingOwn) : Prop where
  log : l'.log = []
  ids : journaled l'.db = journaled l.db ++ paid.map (·.1.paymentId)
  ordered : paid.Pairwise fun x y => x.2 ≤ y.2
  times : ∀ x ∈ paid, l.gen.2 ≤ x.2 ∧ x.2 ≤ l'.gen.2
  gen : l.gen.2 ≤ l'.gen.2
  done : l'.done.flatMap subscriptionOps = l.done.flatMap subscriptionOps ++ allPuts py u paid
  subscriptions : l'.db.subscriptions = (billingStore.view (allPuts py u paid) l.db).subscriptions
  rejected : ∀ p, p.paymentId ∉ journaled l'.db →
    (Rejected settings l'.db u p ↔ Rejected settings l.db u p)

theorem Looped.trans (h : Looped py settings u paid l l₁) (h' : Looped py settings u paid' l₁ l') :
    Looped py settings u (paid ++ paid') l l' := by
  refine ⟨h'.log, ?_, ?_, ?_, h.gen.trans h'.gen, ?_, ?_, fun p hp => ?_⟩
  · rw [h'.ids, h.ids, List.map_append, List.append_assoc]
  · exact List.pairwise_append.2 ⟨h.ordered, h'.ordered,
      fun x hx y hy => (h.times x hx).2.trans (h'.times y hy).1⟩
  · intro x hx
    rcases List.mem_append.1 hx with hx | hx
    · exact ⟨(h.times x hx).1, (h.times x hx).2.trans h'.gen⟩
    · exact ⟨h.gen.trans (h'.times x hx).1, (h'.times x hx).2⟩
  · rw [h'.done, h.done, allPuts, allPuts, allPuts, List.flatMap_append, List.append_assoc]
  · rw [h'.subscriptions, subscriptions_congr h.subscriptions, ← Store.view_append, allPuts,
      allPuts, allPuts, List.flatMap_append]
  · have hp₁ : p.paymentId ∉ journaled l₁.db := by
      rw [h'.ids] at hp
      exact fun hmem => hp (List.mem_append_left _ hmem)
    exact (h'.rejected p hp).trans (h.rejected p hp₁)

theorem Untouched.looped (h : Untouched l l') : Looped py settings u [] l l' := by
  refine ⟨h.log, by rw [h.db]; simp, .nil, nofun, h.gen, ?_, ?_, fun p _ => by rw [h.db]⟩
  · rw [h.done, allPuts, List.flatMap_nil, List.append_nil]
  · rw [h.db]
    rfl

theorem CreditedAt.looped (h : CreditedAt py settings u payment t l l') :
    Looped py settings u [(payment, t)] l l' := by
  obtain ⟨log, hdone, hdb, hrows, hputs, hkeys⟩ := h.commit
  have hputs : allPuts py u [(payment, t)] = subscriptionOps log := by
    rw [hputs, allPuts, List.flatMap_cons, List.flatMap_nil, List.append_nil]
  refine ⟨h.log, ?_, List.pairwise_singleton _ _, ?_, h.time.1.trans h.time.2, ?_, ?_, ?_⟩
  · rw [journaled, hdb, cloudPaymentsEvents_view, List.map_append, hrows]
    rfl
  · intro x hx
    rw [List.mem_singleton.1 hx]
    exact h.time
  · rw [hdone, List.flatMap_append, List.flatMap_cons, List.flatMap_nil, List.append_nil, hputs]
  · rw [hdb, hputs, subscriptions_view]
  · intro p hp
    have hne : p.paymentId ≠ payment.paymentId := by
      intro he
      refine hp ?_
      rw [journaled, hdb, cloudPaymentsEvents_view, List.map_append, hrows, he]
      exact List.mem_append_right _ (List.mem_singleton_self _)
    have hfind : l'.db.accounts.ledger.find? (fun r => r.key = (u, grantKey p.paymentId)) =
        l.db.accounts.ledger.find? fun r => r.key = (u, grantKey p.paymentId) := by
      rw [hdb, ledger_view, List.find?_append]
      have hnone : (ledgerRows log).find? (fun r => r.key = (u, grantKey p.paymentId)) = none := by
        rw [List.find?_eq_none]
        intro r hr hkey
        have hkey : r.key = (u, grantKey p.paymentId) := of_decide_eq_true hkey
        exact hne (grantKey_injective ((Prod.mk.inj hkey).2.symm.trans (hkeys r hr)))
      rw [hnone, Option.or_none]
    simp only [Rejected, Refused, hfind]

/-- What the loop ends with: it has credited what is new, or the wallet has refused some of it. -/
def LoopPost (py : Python) (settings : BillingSettings) (u : ℕ) (payments : List CreditablePayment)
    (l : BillingOwn) : Except BillingError ℕ → BillingOwn → Prop
  | .ok n, l' => ∃ paid, Looped py settings u paid l l' ∧
    paid.map Prod.fst = newlyCredited settings (journaled l.db) payments ∧ n = paid.length ∧
    ∀ p ∈ newlyCredited settings (journaled l.db) payments, ¬Rejected settings l.db u p
  | .error _, l' => l'.log = [] ∧
    ∃ p ∈ newlyCredited settings (journaled l.db) payments, Rejected settings l.db u p

/-- **The loop over the payments.** -/
theorem applyPayments_solo (payments : List CreditablePayment) (hlog : l.log = []) :
    solo billingStore (LoopPost py settings u payments l) (applyPayments py settings u payments)
      l := by
  induction payments generalizing l with
  | nil =>
    exact ⟨[], (Untouched.mk hlog rfl rfl (le_refl _)).looped, rfl, rfl, nofun⟩
  | cons payment rest ih =>
    refine solo_bind (Prog.wp_mono (fun o l₁ hq => ?_) (applyPayment_solo (u := u) hlog))
    match o, hq with
    | .error x, ⟨hsame, hnew, hrej⟩ =>
      refine ⟨hsame.log, payment, ?_, hrej⟩
      obtain ⟨kind, credits, hproduct, -⟩ := hrej
      rw [newlyCredited, if_pos ⟨by rw [hproduct]; rfl, hnew⟩]
      exact List.mem_cons_self
    | .ok false, ⟨hsame, hskip⟩ =>
      have hnot : ¬((credited settings payment).isSome ∧ payment.paymentId ∉ journaled l.db) := by
        rintro ⟨hsome, hnew⟩
        rcases hskip with hnone | hmem
        · rw [hnone] at hsome
          cases hsome
        · exact hnew hmem
      have heq : newlyCredited settings (journaled l.db) (payment :: rest) =
          newlyCredited settings (journaled l₁.db) rest := by
        rw [newlyCredited, if_neg hnot, hsame.db]
      refine solo_bind (Prog.wp_mono (fun o l₂ hq => ?_) (ih hsame.log))
      match o, hq with
      | .error x, ⟨hlog₂, p, hp, hrej⟩ =>
        exact ⟨hlog₂, p, heq ▸ hp, hsame.db ▸ hrej⟩
      | .ok n, ⟨paid, hloop, hpaid, hn, hfree⟩ =>
        refine ⟨paid, hsame.looped.trans hloop, hpaid.trans heq.symm, hn, fun p hp => ?_⟩
        have := hfree p (heq ▸ hp)
        rwa [hsame.db] at this
    | .ok true, ⟨t, hcredited⟩ =>
      obtain ⟨kind, credits, hproduct, hfree₀⟩ := hcredited.product
      have hids : journaled l₁.db = journaled l.db ++ [payment.paymentId] := hcredited.looped.ids
      have heq : newlyCredited settings (journaled l.db) (payment :: rest) =
          payment :: newlyCredited settings (journaled l₁.db) rest := by
        rw [newlyCredited, if_pos ⟨by rw [hproduct]; rfl, hcredited.new⟩, hids]
      refine solo_bind (Prog.wp_mono (fun o l₂ hq => ?_) (ih hcredited.log))
      match o, hq with
      | .error x, ⟨hlog₂, p, hp, hrej⟩ =>
        refine ⟨hlog₂, p, heq ▸ List.mem_cons_of_mem _ hp, ?_⟩
        exact (hcredited.looped.rejected p (of_mem_newlyCredited hp).2.2).1 hrej
      | .ok n, ⟨paid, hloop, hpaid, hn, hfree⟩ =>
        refine ⟨(payment, t) :: paid, hcredited.looped.trans hloop, ?_, ?_, fun p hp => ?_⟩
        · rw [heq, List.map_cons, hpaid]
        · rw [if_pos rfl, hn, List.length_cons]
        · rw [heq] at hp
          rcases List.mem_cons.1 hp with rfl | hp
          · rintro ⟨k, c, hproduct', hrefused⟩
            rw [hproduct] at hproduct'
            obtain ⟨rfl, rfl⟩ := Prod.mk.inj (Option.some.inj hproduct')
            exact hfree₀ hrefused
          · exact fun hrej => hfree p hp
              ((hcredited.looped.rejected p (of_mem_newlyCredited hp).2.2).2 hrej)

end Loop

/-! ## The outcome -/

section Outcome

variable {py : Python} {settings : BillingSettings} {c : Callback} {d : BillingDb} {u : ℕ}
variable {l l' : BillingOwn} {payments : List CreditablePayment} {outcome : WebhookOutcome}

end Outcome

/-- A callback on its own, computed. -/
def computed (c : Callback) : Except BillingError WebhookOutcome × BillingOwn × Unit :=
  (handle oneCallback .unmapped c.get c.raw).eval billingHandler.solo
    (Own.begin (0, 0) emptyTables (), ())

section Expiry

variable {py : Python} {settings : BillingSettings} {g : ℕ × Time} {d : BillingDb} {u : ℕ}
variable {l l' : BillingOwn} {paid : List (CreditablePayment × Time)}
variable {payments : List CreditablePayment}

/-- The expiry of the user's subscription. -/
def expiryOf (d : BillingDb) (u : ℕ) : Option Time := (d.subscriptions u).bind (·.expiresAt)

/-- The period that a payment buys. -/
def period (py : Python) (payment : CreditablePayment) : Time :=
  expiryDays (inferIntervalUnitFromCode py payment.productCode) * (24 * hour)

/-- The payments that set the subscription. -/
def renewals (paid : List (CreditablePayment × Time)) : List (CreditablePayment × Time) :=
  paid.filter fun x => kindOf x.1 = some .subscription

theorem subscriptionRow_expiry (payment : CreditablePayment) (t : Time) :
    (subscriptionRow py payment t).expiresAt = some (t + period py payment) := by
  simp [subscriptionRow, computeExpiry, period]

/-- The last renewal decides. -/
theorem view_allPuts : (billingStore.view (allPuts py u paid) d).subscriptions u =
    match (renewals paid).getLast? with
      | some x => some (subscriptionRow py x.1 x.2)
      | none => d.subscriptions u := by
  induction paid using List.reverseRecOn with
  | nil => rfl
  | append_singleton paid x ih =>
    rw [allPuts, List.flatMap_append, Store.view_append, renewals, List.filter_append]
    by_cases hx : kindOf x.1 = some .subscription
    · have hputs : ([x].flatMap fun x => subscriptionPuts py u x.1 x.2) =
          [.putSubscription u (subscriptionRow py x.1 x.2)] := by
        rw [List.flatMap_singleton, subscriptionPuts, if_pos hx]
      rw [hputs, List.filter_cons_of_pos (by simpa using hx), List.filter_nil,
        List.getLast?_concat]
      exact Function.update_self ..
    · have hputs : ([x].flatMap fun x => subscriptionPuts py u x.1 x.2) = [] := by
        rw [List.flatMap_singleton, subscriptionPuts, if_neg hx]
      rw [hputs, List.filter_cons_of_neg (by simpa using hx), List.filter_nil, List.append_nil]
      exact ih

theorem Looped.subscription (h : Looped py settings u paid l l') : l'.db.subscriptions u =
    match (renewals paid).getLast? with
      | some x => some (subscriptionRow py x.1 x.2)
      | none => l.db.subscriptions u := by
  rw [h.subscriptions, view_allPuts]

theorem Looped.expiry (h : Looped py settings u paid l l') : expiryOf l'.db u =
    match (renewals paid).getLast? with
      | some x => some (x.2 + period py x.1)
      | none => expiryOf l.db u := by
  rw [expiryOf, h.subscription]
  cases (renewals paid).getLast? with
  | none => rfl
  | some x => exact subscriptionRow_expiry x.1 x.2

/-- The rows that the commits set are those of the renewals. -/
theorem Looped.rows (h : Looped py settings u paid l l') (hdone : l.done = [])
    (row : Subscription) : (∃ log ∈ l'.done, BillingOp.putSubscription u row ∈ log) ↔
      ∃ x ∈ renewals paid, row = subscriptionRow py x.1 x.2 := by
  have hmem : (∃ log ∈ l'.done, BillingOp.putSubscription u row ∈ log) ↔
      .putSubscription u row ∈ allPuts py u paid := by
    have hall := h.done
    rw [hdone, List.flatMap_nil, List.nil_append] at hall
    rw [← hall, List.mem_flatMap]
    refine exists_congr fun log => and_congr_right fun _ => ?_
    simp [subscriptionOps]
  rw [hmem, allPuts, List.mem_flatMap]
  constructor
  · rintro ⟨x, hx, hput⟩
    unfold subscriptionPuts at hput
    split at hput
    · rename_i hkind
      refine ⟨x, List.mem_filter.2 ⟨hx, by simpa using hkind⟩, ?_⟩
      exact (BillingOp.putSubscription.inj (List.mem_singleton.1 hput)).2
    · cases hput
  · rintro ⟨x, hx, rfl⟩
    obtain ⟨hx, hkind⟩ := List.mem_filter.1 hx
    refine ⟨x, hx, ?_⟩
    rw [subscriptionPuts, if_pos (by simpa using hkind)]
    exact List.mem_singleton_self _

/-- An active subscription without an expiry does not end. -/
def Endless (d : BillingDb) (u : ℕ) : Prop :=
  ∃ row, d.subscriptions u = some row ∧ row.status = .active ∧ row.expiresAt = none

theorem Endless.expiry (h : Endless d u) : expiryOf d u = none := by
  obtain ⟨row, hrow, -, hnone⟩ := h
  rw [expiryOf, hrow, Option.bind_some, hnone]

/-- The subscription ends neither before it did, nor before what a payment of the callback buys. -/
structure NotShortened (d : BillingDb) (u : ℕ) (l' : BillingOwn) : Prop where
  endless : Endless d u → Endless l'.db u
  before : ∀ e, expiryOf d u = some e → ∃ e', expiryOf l'.db u = some e' ∧ e ≤ e'
  bought : ∀ row, (∃ log ∈ l'.done, BillingOp.putSubscription u row ∈ log) →
    ∀ e, row.expiresAt = some e → ∃ e', expiryOf l'.db u = some e' ∧ e ≤ e'

/-- The loop over the payments, from the tables `d`, credits all that is new. -/
abbrev Credits (py : Python) (settings : BillingSettings) (g : ℕ × Time) (d : BillingDb) (u : ℕ)
    (payments : List CreditablePayment) (l' : BillingOwn) : Prop :=
  ∃ n, Solo billingStore (applyPayments py settings u payments) (Own.begin g d ()) (.ok n) l'

/-- The expiry is kept, and it does not depend on the order of the payments when they are credited
at one point in time. -/
structure ExpiryKept (py : Python) (settings : BillingSettings) (g : ℕ × Time) (d : BillingDb)
    (u : ℕ) (payments : List CreditablePayment) : Prop where
  kept : ∀ l', Credits py settings g d u payments l' → NotShortened d u l'
  order : ∀ payments', payments'.Perm payments → ∀ l l', Credits py settings g d u payments l →
    Credits py settings g d u payments' l' → l.gen.2 = g.2 → l'.gen.2 = g.2 →
    expiryOf l.db u = expiryOf l'.db u

/-- The subscription payments that are new. -/
def newRenewals (settings : BillingSettings) (d : BillingDb) (payments : List CreditablePayment) :
    List CreditablePayment :=
  (newlyCredited settings (journaled d) payments).filter fun p => kindOf p = some .subscription

/-- The wallet refuses no payment that is new. -/
def Accepted (settings : BillingSettings) (d : BillingDb) (u : ℕ)
    (payments : List CreditablePayment) : Prop :=
  ∀ p ∈ newlyCredited settings (journaled d) payments, ¬Rejected settings d u p

/-- The last new subscription payment has the longest period, and the subscription is not endless,
nor does it yet last as long. -/
def EndsLongest (py : Python) (settings : BillingSettings) (g : ℕ × Time) (d : BillingDb) (u : ℕ)
    (payments : List CreditablePayment) : Prop :=
  ∀ last, (newRenewals settings d payments).getLast? = some last →
    (∀ p ∈ newRenewals settings d payments, period py p ≤ period py last) ∧
    ¬Endless d u ∧ ∀ e, expiryOf d u = some e → e ≤ g.2 + period py last

/-- What the last new subscription payment buys now. -/
def lastBuys (py : Python) (settings : BillingSettings) (g : ℕ × Time) (d : BillingDb) (u : ℕ)
    (payments : List CreditablePayment) : Option Time :=
  match (newRenewals settings d payments).getLast? with
  | some last => some (g.2 + period py last)
  | none => expiryOf d u

/-- The longest period comes last, and every order ends with the same. -/
def LongestLast (py : Python) (settings : BillingSettings) (g : ℕ × Time) (d : BillingDb) (u : ℕ)
    (payments : List CreditablePayment) : Prop :=
  Accepted settings d u payments → EndsLongest py settings g d u payments ∧
    ∀ payments', payments'.Perm payments → Accepted settings d u payments' →
      lastBuys py settings g d u payments = lastBuys py settings g d u payments'

/-- The last new subscription payment decides: the subscription is active, with its plan, and ends a
period after the time at which it was credited. Without one, it is left as it was. -/
def LastDecides (py : Python) (settings : BillingSettings) (g : ℕ × Time) (d : BillingDb) (u : ℕ)
    (payments : List CreditablePayment) (l' : BillingOwn) : Prop :=
  match (newRenewals settings d payments).getLast? with
  | some last => ∃ t, g.2 ≤ t ∧ t ≤ l'.gen.2 ∧ l'.db.subscriptions u =
      some ⟨.active, some last.productCode, some (t + period py last)⟩
  | none => l'.db.subscriptions u = d.subscriptions u

/-- What a run of the loop credits. -/
theorem Credits.looped (h : Credits py settings g d u payments l') :
    Accepted settings d u payments ∧ ∃ paid, Looped py settings u paid (Own.begin g d ()) l' ∧
      (renewals paid).map Prod.fst = newRenewals settings d payments := by
  obtain ⟨n, hr⟩ := h
  obtain ⟨paid, hloop, hpaid, -, hfree⟩ :=
    hr.of_wp (applyPayments_solo (l := Own.begin g d ()) payments rfl)
  refine ⟨hfree, paid, hloop, ?_⟩
  have hpaid : paid.map Prod.fst = newlyCredited settings (journaled d) payments := hpaid
  rw [newRenewals, ← hpaid, List.filter_map]
  rfl

/-- Each statement is performed at the same time. -/
def stillHandler : Handler billingStore Unit where
  answer _ s g _ d := ((s.run g.2 g.1 d).1, (s.run g.2 g.1 d).2.1, ((s.run g.2 g.1 d).2.2, g.2), (), ())
  ok _ _ g _ _ := ⟨g.2, le_refl g.2, rfl, rfl⟩
  compat := billingHandler.compat
  compat_ok := billingHandler.compat_ok

theorem exists_credits (h : Accepted settings d u payments) :
    ∃ l', Credits py settings g d u payments l' ∧ l'.gen.2 = g.2 := by
  have hr := eval_solo stillHandler (applyPayments py settings u payments) (Own.begin g d (), ())
  have hgen : ((applyPayments py settings u payments).eval stillHandler.solo
      (Own.begin g d (), ())).2.1.gen.2 = g.2 := by
    refine eval_gen (Φ := fun g' : ℕ × Time => g'.2 = g.2) (fun ω s g' m d' hg => ?_) _ _ rfl
    exact hg
  have hpost := hr.of_wp (applyPayments_solo (l := Own.begin g d ()) payments rfl)
  cases ho : ((applyPayments py settings u payments).eval stillHandler.solo
      (Own.begin g d (), ())).1 with
  | ok n => exact ⟨_, ⟨n, ho ▸ hr⟩, hgen⟩
  | error x =>
    rw [ho] at hpost
    obtain ⟨-, p, hp, hrej⟩ := hpost
    exact absurd hrej (h p hp)

/-- The clock has stood still. -/
theorem Looped.time_eq (h : Looped py settings u paid (Own.begin g d ()) l') (hl : l'.gen.2 = g.2)
    {x : CreditablePayment × Time} (hx : x ∈ renewals paid) : x.2 = g.2 := by
  obtain ⟨hle, hge⟩ := h.times x (List.mem_of_mem_filter hx)
  rw [hl] at hge
  exact Int.le_antisymm hge hle

theorem Credits.expiry (h : Credits py settings g d u payments l') (hl : l'.gen.2 = g.2) :
    expiryOf l'.db u = lastBuys py settings g d u payments := by
  obtain ⟨-, paid, hloop, hnew⟩ := h.looped
  rw [hloop.expiry, lastBuys, ← hnew, List.getLast?_map]
  cases hlast : (renewals paid).getLast? with
  | none => rfl
  | some x =>
    show some (x.2 + period py x.1) = some (g.2 + period py x.1)
    rw [hloop.time_eq hl (List.mem_of_getLast? hlast)]

/-- The last renewal is not earlier than another one. -/
theorem Looped.le_last (h : Looped py settings u paid l l') {x y : CreditablePayment × Time}
    (hlast : (renewals paid).getLast? = some x) (hy : y ∈ renewals paid) : y.2 ≤ x.2 := by
  obtain ⟨init, hinit⟩ := List.getLast?_eq_some_iff.1 hlast
  have hordered : (renewals paid).Pairwise fun x y => x.2 ≤ y.2 := h.ordered.filter _
  rw [hinit] at hordered hy
  rcases List.mem_append.1 hy with hy | hy
  · exact (List.pairwise_append.1 hordered).2.2 y hy x (List.mem_singleton_self _)
  · rw [List.mem_singleton.1 hy]

theorem Credits.lastDecides (h : Credits py settings g d u payments l') :
    LastDecides py settings g d u payments l' := by
  obtain ⟨-, paid, hloop, hnew⟩ := h.looped
  have hrow := hloop.subscription
  rw [LastDecides, ← hnew, List.getLast?_map]
  cases hlast : (renewals paid).getLast? with
  | none =>
    rw [hlast] at hrow
    exact hrow
  | some x =>
    rw [hlast] at hrow
    obtain ⟨hle, hge⟩ := hloop.times x (List.mem_of_mem_filter (List.mem_of_getLast? hlast))
    refine ⟨x.2, hle, hge, hrow.trans ?_⟩
    rw [← subscriptionRow_expiry]
    rfl

/-- **The subscription after a callback** is that of the last payment credited. It is kept, and does
not depend on the order, exactly when the longest period comes last. -/
theorem subscription_expiry :
    (∀ l', Credits py settings g d u payments l' → LastDecides py settings g d u payments l') ∧
    (ExpiryKept py settings g d u payments ↔ LongestLast py settings g d u payments) := by
  refine ⟨fun l' h => h.lastDecides, ?_⟩
  constructor
  · intro h hfree
    obtain ⟨l, hcredits, hl⟩ : ∃ l, Credits py settings g d u payments l ∧ l.gen.2 = g.2 :=
      exists_credits hfree
    refine ⟨fun last hlast => ?_, fun payments' hperm hfree' => ?_⟩
    · have hkept := h.kept l hcredits
      have hafter : expiryOf l.db u = some (g.2 + period py last) := by
        rw [hcredits.expiry hl, lastBuys, hlast]
      obtain ⟨-, paid, hloop, hnew⟩ := hcredits.looped
      refine ⟨fun p hp => ?_, fun hendless => ?_, fun e he => ?_⟩
      · rw [← hnew] at hp
        obtain ⟨x, hx, rfl⟩ := List.mem_map.1 hp
        obtain ⟨e', he', hle⟩ := hkept.bought _ ((hloop.rows rfl _).2 ⟨x, hx, rfl⟩) _
          (subscriptionRow_expiry x.1 x.2)
        rw [hafter] at he'
        rw [← Option.some.inj he', hloop.time_eq hl hx] at hle
        exact Int.le_of_add_le_add_left hle
      · rw [(hkept.endless hendless).expiry] at hafter
        cases hafter
      · obtain ⟨e', he', hle⟩ := hkept.before e he
        rw [hafter] at he'
        rwa [← Option.some.inj he'] at hle
    · obtain ⟨l', hcredits', hl'⟩ : ∃ l', Credits py settings g d u payments' l' ∧
          l'.gen.2 = g.2 := exists_credits hfree'
      rw [← hcredits.expiry hl, ← hcredits'.expiry hl']
      exact h.order payments' hperm l l' hcredits hcredits' hl hl'
  · intro h
    refine ⟨fun l' hcredits => ?_, fun payments' hperm l l' hcredits hcredits' hl hl' => ?_⟩
    · obtain ⟨hfree, paid, hloop, hnew⟩ := hcredits.looped
      have hends := (h hfree).1
      have hafter := hloop.expiry
      cases hlast : (renewals paid).getLast? with
      | none =>
        rw [hlast] at hafter
        refine ⟨fun hendless => ?_, fun e he => ⟨e, hafter.trans he, le_refl e⟩, fun row hrow e _ => ?_⟩
        · have hrow := hloop.subscription
          rw [hlast] at hrow
          obtain ⟨row, hmem, hrest⟩ := hendless
          exact ⟨row, hrow.trans hmem, hrest⟩
        obtain ⟨x, hx, -⟩ := (hloop.rows rfl row).1 hrow
        rw [List.getLast?_eq_none_iff.1 hlast] at hx
        cases hx
      | some x =>
        rw [hlast] at hafter
        have hx := List.mem_of_getLast? hlast
        obtain ⟨hlongest, hfinite, hbefore⟩ :=
          hends x.1 (by rw [← hnew, List.getLast?_map, hlast]; rfl)
        refine ⟨fun hendless => absurd hendless hfinite,
          fun e he => ⟨_, hafter, (hbefore e he).trans ?_⟩, fun row hrow e he => ⟨_, hafter, ?_⟩⟩
        · exact Int.add_le_add_right (hloop.times x (List.mem_of_mem_filter hx)).1 _
        · obtain ⟨y, hy, rfl⟩ := (hloop.rows rfl row).1 hrow
          rw [subscriptionRow_expiry] at he
          rw [← Option.some.inj he]
          refine Int.add_le_add (hloop.le_last hlast hy) (hlongest y.1 ?_)
          rw [← hnew]
          exact List.mem_map_of_mem hy
    · rw [hcredits.expiry hl, hcredits'.expiry hl']
      exact (h hcredits.looped.1).2 payments' hperm hcredits'.looped.1

end Expiry

/-- A year and then a week, paid by one user. -/
def yearThenWeek : List CreditablePayment :=
  [⟨"first", "year", "subscription", "succeeded", 0⟩,
    ⟨"second", "week", "subscription", "succeeded", 0⟩]

/-- The loop over them, computed at the time 0. -/
def yearThenWeekRun : Except BillingError ℕ × BillingOwn × Unit :=
  (applyPayments oneCallback .unmapped 7 yearThenWeek).eval stillHandler.solo
    (Own.begin (0, 0) emptyTables (), ())

/-- A row with the expiry has been committed for the user 7. -/
def sets (expiry : Time) (l : BillingOwn) : Bool :=
  l.done.any fun log => log.any fun o => match o with
    | .putSubscription u row => u = 7 && row.expiresAt = some expiry
    | _ => false

theorem sets_iff {expiry : Time} {l : BillingOwn} (h : sets expiry l = true) :
    ∃ row, (∃ log ∈ l.done, BillingOp.putSubscription 7 row ∈ log) ∧
      row.expiresAt = some expiry := by
  obtain ⟨log, hlog, h⟩ := List.any_eq_true.1 h
  obtain ⟨o, ho, h⟩ := List.any_eq_true.1 h
  cases o with
  | putSubscription u row =>
    rw [Bool.and_eq_true, decide_eq_true_iff, decide_eq_true_iff] at h
    obtain ⟨rfl, hrow⟩ := h
    exact ⟨row, ⟨log, hlog, ho⟩, hrow⟩
  | _ => cases h

/-- The week overwrites the year: the user who has paid for both is left with seven days. -/
theorem subscription_expiry_fails :
    ¬ExpiryKept oneCallback .unmapped (0, 0) emptyTables 7 yearThenWeek := by
  intro h
  have hr := eval_solo stillHandler (applyPayments oneCallback .unmapped 7 yearThenWeek)
    (Own.begin (0, 0) emptyTables (), ())
  have hreturns : yearThenWeekRun.1.toOption = some 2 := by decide +kernel
  have hweek : expiryOf yearThenWeekRun.2.1.db 7 = some (7 * (24 * hour)) := by decide +kernel
  have hyear : sets (365 * (24 * hour)) yearThenWeekRun.2.1 = true := by decide +kernel
  obtain ⟨row, hput, hrow⟩ := sets_iff hyear
  have hcredits : Credits oneCallback .unmapped (0, 0) emptyTables 7 yearThenWeek
      yearThenWeekRun.2.1 := by
    cases ho : yearThenWeekRun.1 with
    | ok n => exact ⟨n, ho ▸ hr⟩
    | error x =>
      rw [ho] at hreturns
      cases hreturns
  obtain ⟨e', he', hle⟩ := (h.kept _ hcredits).bought row hput _ hrow
  rw [hweek] at he'
  rw [← Option.some.inj he'] at hle
  exact absurd hle (by decide)

end ChatBackend.Billing.CloudPayments

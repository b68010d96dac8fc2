import ChatBackend.Billing.CloudPayments
import ChatBackend.Billing.Crediting

/-!
# Callbacks of CloudPayments under interleaving

`cloudpayments_crediting`: in every run of a pool of callbacks, a payment is credited once over all
users, with the amount of its product, and only by a callback whose own verification listed it as
paid and recent; each payment is committed as a whole or not at all.
-/

namespace ChatBackend.Billing.CloudPayments

open Prog Store Wallet Policy

/-- The device that a callback names, when it passes the gate. -/
def Callback.device (py : Python) (c : Callback) : Option ℕ :=
  match py.loads c.raw with
  | .value (.obj kvs) =>
    if parseGate (parseStatus py (.obj kvs)) (parseOperationType py (.obj kvs)) then
      (parseData py (.obj kvs)).bind fun data => parseUserId py (.obj kvs) data
    else none
  | _ => none

/-- The user that an identifier is resolved to. -/
def resolved (d : BillingDb) (x : ℕ) : Option ℕ :=
  if d.users x then some x else d.deviceUser x

/-- The verification of the callback lists the payment, for the user, as paid and recent at the
time `t`. -/
def VerifiedAt (py : Python) (settings : BillingSettings) (c : Callback) (d : BillingDb) (t : Time)
    (userId : ℕ) (payment : CreditablePayment) : Prop :=
  ∃ x data, c.device py = some x ∧ resolved d x = some userId ∧
    listPayments (c.get x) = .ok data ∧
    payment ∈ selectCreditablePayments py data settings.cloudpaymentsPaidStatuses t
      settings.cloudpaymentsPaymentFreshnessHours

/-- The ledger row of a credit. -/
def creditRow (payment : CreditablePayment) (userId : ℕ) (kind : Kind) (credits : ℤ) (id : ℕ) :
    LedgerTransaction :=
  ⟨id, userId, .credit, credits,
    .obj [("paymentId", .str payment.paymentId), ("productCode", .str payment.productCode),
      ("kind", .str kind.text)], grantKey payment.paymentId⟩

/-- The writes of a payment to the subscription. -/
def SubscriptionOps (py : Python) (payment : CreditablePayment) (userId : ℕ) :
    Kind → List BillingOp → Prop
  | .tokens, ops => ops = []
  | .subscription, ops => ∃ t, ops = [.putSubscription userId (subscriptionRow py payment t)]

/-- A commit that is the whole of a payment, with the amount of its product. -/
structure Paid (py : Python) (settings : BillingSettings) (payment : CreditablePayment)
    (userId : ℕ) (log : List BillingOp) : Prop where
  whole : ∃ kind credits, kindOf payment = some kind ∧
    creditsFor settings payment kind = some credits ∧
    cloudPaymentsRows log = [journalRow payment userId kind] ∧
    SubscriptionOps py payment userId kind (subscriptionOps log) ∧
    Accounted True (creditRow payment userId kind credits) log
  other : adaptyRows log = []

section Protocol

variable {ι : Type} (py : Python) (settings : BillingSettings) (calls : ι → Callback)
variable (g₀ : ℕ × Time) (d₀ : BillingDb)

/-- What a callback may commit: nothing, or the whole of a verified payment that is new. -/
def cloudProtocol : Protocol billingStore ι where
  inv g d := g₀ ≤ g ∧ d.users = d₀.users ∧ d.deviceUser = d₀.deviceUser
  may i g d log := log = [] ∨ ∃ t payment userId, g₀.2 ≤ t ∧ t ≤ g.2 ∧
    VerifiedAt py settings (calls i) d₀ t userId payment ∧
    Paid py settings payment userId log ∧
    (∀ r ∈ d.cloudPaymentsEvents, r.transactionId ≠ payment.paymentId) ∧
    ∀ row ∈ ledgerRows log, ∀ r ∈ d.accounts.ledger, r.key ≠ row.key
  test _ _ _ := True
  inv_gen hg h := ⟨h.1.trans hg, h.2⟩
  inv_commit h _ := ⟨h.1, (users_view _ _).1.trans h.2.1, (users_view _ _).2.trans h.2.2⟩

end Protocol

section Programs

variable {ι : Type} {py : Python} {settings : BillingSettings} {calls : ι → Callback} {i : ι}
variable {g₀ : ℕ × Time} {d₀ : BillingDb} {l : BillingOwn} {t : Time}
variable {payment : CreditablePayment} {userId : ℕ} {kind : Kind} {credits : ℤ}

/-- No transaction is open, at a time after `t`. -/
def Idle (t : Time) (l : BillingOwn) : Prop := l.log = [] ∧ t ≤ l.gen.2

theorem Idle.relies {pr : Protocol billingStore ι} {l' : BillingOwn} (h : Idle t l)
    (he : pr.Relies i l l') : Idle t l' :=
  ⟨he.own.1.trans h.1, h.2.trans he.own.2.2.2.2⟩

/-- What a part of a callback leaves when it returns. -/
def After (t : Time) {α : Type} (o : Except BillingError α) (l : BillingOwn) : Prop :=
  ∀ a, o = .ok a → Idle t l

/-- The audit row and the commit of a payment. -/
theorem commit_rg (ht : g₀.2 ≤ t) (hv : VerifiedAt py settings (calls i) d₀ t userId payment)
    (hkind : kindOf payment = some kind) (hcredits : creditsFor settings payment kind = some credits)
    {subs : List BillingOp} (hsubs : SubscriptionOps py payment userId kind subs)
    {done : List (List BillingOp)} (htime : t ≤ l.gen.2)
    (hinv : (cloudProtocol py settings calls g₀ d₀).inv l.gen l.db)
    (h : Ready [] [journalRow payment userId kind] subs done True
      (creditRow payment userId kind credits) l) (e : AuditEvent) :
    (cloudProtocol py settings calls g₀ d₀).rg i (After t)
      ((recordAudit e).bind fun _ => TxProg.commit.bind fun _ => .ret true) l := by
  refine rg_write (fun _ _ _ => rfl) fun l₁ he₁ hi₁ => ?_
  have h₁ := (Ready.stable.relies hinv h he₁).audit e.redacted
  refine Protocol.rg_commit fun l₂ he₂ hi₂ _ => ?_
  have h₂ := Ready.stable.relies (l := l₁.write _) hi₁ h₁ he₂
  have htime₂ : t ≤ l₂.gen.2 := htime.trans (he₁.own.2.2.2.trans he₂.own.2.2.2).2
  refine ⟨.inr ⟨t, payment, userId, ht, htime₂, hv, ⟨⟨kind, credits, hkind, hcredits,
    h₂.opened.cloudLog, ?_, h₂.accounted⟩, h₂.opened.adaptyLog⟩,
    h₂.opened.newCloud _ (List.mem_singleton_self _), h₂.newKeys⟩, ?_⟩
  · rw [h₂.opened.subsLog]
    exact hsubs
  · exact Protocol.rg_ret fun l₃ he₃ _ _ _ => Idle.relies (l := ⟨_, _, [], _, _⟩) ⟨rfl, htime₂⟩ he₃

/-- The grant, the audit row and the commit of a payment. -/
theorem grantPayment_rg (ht : g₀.2 ≤ t)
    (hv : VerifiedAt py settings (calls i) d₀ t userId payment) (hkind : kindOf payment = some kind)
    (hcredits : creditsFor settings payment kind = some credits) {subs : List BillingOp}
    (hsubs : SubscriptionOps py payment userId kind subs) {done : List (List BillingOp)}
    (htime : t ≤ l.gen.2) (hinv : (cloudProtocol py settings calls g₀ d₀).inv l.gen l.db)
    (h : Clean [] [journalRow payment userId kind] subs done l) (e : AuditEvent) :
    (cloudProtocol py settings calls g₀ d₀).rg i (After t)
      ((grantPayment payment userId kind credits).bind fun _ =>
        (recordAudit e).bind fun _ => TxProg.commit.bind fun _ => .ret true) l := by
  refine h.grant_rg trivial (fun x l _ => nofun) hinv fun res l₁ hi₁ hg h₁ => ?_
  exact commit_rg ht hv hkind hcredits hsubs (htime.trans hg.2) hi₁ h₁ e

/-- The subscription of a payment. -/
theorem activate_rg {α : Type} {Q : Except BillingError α → BillingOwn → Prop}
    {pr : Protocol billingStore ι} {done : List (List BillingOp)} (hinv : pr.inv l.gen l.db)
    (h : Clean [] [journalRow payment userId kind] [] done l)
    {k : Option Subscription → BillingProg α}
    (hk : ∀ row subs l', pr.inv l'.gen l'.db → l.gen ≤ l'.gen →
      SubscriptionOps py payment userId kind subs →
      Clean [] [journalRow payment userId kind] subs done l' → pr.rg i Q (k row) l') :
    pr.rg i Q ((activate py payment userId kind).bind k) l := by
  cases kind with
  | tokens => exact hk none [] l hinv (le_refl _) rfl h
  | subscription =>
    simp only [activate, now, upsertSubscription, TxProg.stmt, bind_eq, pure_eq, act_bind,
      ret_bind]
    refine rg_read (fun _ _ _ => rfl) fun l₁ he₁ hi₁ => ?_
    have h₁ := Clean.stable.relies hinv h he₁
    refine rg_write (fun _ _ _ => rfl) fun l₂ he₂ hi₂ => ?_
    have h₂ := Clean.stable.relies hi₁ h₁ he₂
    refine hk _ _ _ hi₂ (he₁.own.2.2.2.trans he₂.own.2.2.2) ⟨l₁.gen.2, rfl⟩ ?_
    simp only [BillingStmt.run]
    refine ⟨⟨?_, ?_, ?_, h₂.1.doneLog, h₂.1.newAdapty, h₂.1.newCloud⟩, ?_⟩
    · show adaptyRows (l₂.log ++ _) = _
      rw [adaptyRows_append, h₂.1.adaptyLog]
      rfl
    · show cloudPaymentsRows (l₂.log ++ _) = _
      rw [cloudPaymentsRows_append, h₂.1.cloudLog]
      rfl
    · show subscriptionOps (l₂.log ++ _) = _
      rw [subscriptionOps_append, h₂.1.subsLog]
      rfl
    · show walletOps (l₂.log ++ _) = _
      rw [walletOps_append, h₂.2]
      rfl

/-- A verified payment of a known kind. -/
theorem creditPayment_rg (ht : g₀.2 ≤ t)
    (hv : VerifiedAt py settings (calls i) d₀ t userId payment) (hkind : kindOf payment = some kind)
    (hcredits : creditsFor settings payment kind = some credits) (h : Idle t l) :
    (cloudProtocol py settings calls g₀ d₀).rg i (After t)
      (creditPayment py payment userId kind credits) l := by
  simp only [creditPayment, insertCloudPaymentsEvent, TxProg.stmt, bind_eq, pure_eq, act_bind,
    ret_bind]
  refine rg_write (fun _ _ _ => ?_) fun l₁ he₁ hi₁ => ?_
  · simp only [BillingStmt.run]
    split <;> rfl
  have h₁ : Idle t l₁ := h.relies he₁
  have hview : l₁.view billingStore = l₁.db := by
    show billingStore.view l₁.log l₁.db = l₁.db
    rw [h₁.1]
    rfl
  rw [hview]
  cases hany : l₁.db.cloudPaymentsEvents.any
      fun r => r.transactionId = (journalRow payment userId kind).transactionId with
  | true =>
    simp only [BillingStmt.run, hany, if_true, Own.write_nil]
    refine Protocol.rg_rollback fun l₂ he₂ _ => Protocol.rg_ret fun l₃ he₃ _ _ _ => ?_
    exact Idle.relies (l := ⟨_, _, [], _, _⟩) ⟨rfl, (h₁.relies he₂).2⟩ he₃
  | false =>
    simp only [BillingStmt.run, hany, Bool.false_eq_true, if_false]
    have hclean : Clean [] [journalRow payment userId kind] [] l₁.done
        (l₁.write [.insertCloudPaymentsEvent (journalRow payment userId kind)]) := by
      refine ⟨⟨?_, ?_, ?_, rfl, (fun _ h => by cases h), fun row hrow r hr he => ?_⟩, ?_⟩
      · show adaptyRows (l₁.log ++ _) = _
        rw [h₁.1]
        rfl
      · show cloudPaymentsRows (l₁.log ++ _) = _
        rw [h₁.1]
        rfl
      · show subscriptionOps (l₁.log ++ _) = _
        rw [h₁.1]
        rfl
      · rw [List.mem_singleton.1 hrow] at he
        exact List.any_eq_false.1 hany r hr (decide_eq_true he)
      · show walletOps (l₁.log ++ _) = _
        rw [h₁.1]
        rfl
    have htime : t ≤ (l₁.write [.insertCloudPaymentsEvent (journalRow payment userId kind)]).gen.2 :=
      h₁.2
    refine activate_rg (l := l₁.write _) hi₁ hclean fun row subs l₂ hi₂ hg₂ hsubs h₂ => ?_
    exact grantPayment_rg ht hv hkind hcredits hsubs (htime.trans hg₂.2) hi₂ h₂ _

/-- **One payment**: whatever becomes of it, nothing is left open. -/
theorem applyPayment_rg (ht : g₀.2 ≤ t)
    (hv : VerifiedAt py settings (calls i) d₀ t userId payment) (h : Idle t l)
    (hinv : (cloudProtocol py settings calls g₀ d₀).inv l.gen l.db) :
    (cloudProtocol py settings calls g₀ d₀).rg i (After t)
      (applyPayment py settings payment userId) l := by
  have hskip : (cloudProtocol py settings calls g₀ d₀).rg i (After t) (.ret false) l :=
    Protocol.rg_ret fun _ he _ _ _ => h.relies he
  unfold applyPayment
  split
  · exact hskip
  · rename_i kind hkind
    split
    · exact hskip
    · rename_i credits hcredits
      refine Protocol.rg_tryCatch hinv (Protocol.rg_mono (fun o l₁ hi₁ hq => ?_)
        (creditPayment_rg ht hv hkind hcredits h))
      cases o with
      | ok b => exact Protocol.rg_ret fun _ he _ _ _ => (hq b rfl).relies he
      | error x => exact Protocol.rg_rollback fun _ _ _ => Protocol.rg_raise fun _ _ _ => nofun

/-- The loop over the payments. -/
theorem applyPayments_rg (ht : g₀.2 ≤ t) (payments : List CreditablePayment)
    (hv : ∀ payment ∈ payments, VerifiedAt py settings (calls i) d₀ t userId payment)
    (h : Idle t l) (hinv : (cloudProtocol py settings calls g₀ d₀).inv l.gen l.db) :
    (cloudProtocol py settings calls g₀ d₀).rg i (After t)
      (applyPayments py settings userId payments) l := by
  induction payments generalizing l with
  | nil => exact Protocol.rg_ret fun _ he _ _ _ => h.relies he
  | cons payment rest ih =>
    simp only [applyPayments, bind_eq, pure_eq]
    refine Protocol.rg_bind hinv (Protocol.rg_mono (fun o l₁ hi₁ hq => ?_)
      (applyPayment_rg ht (hv payment List.mem_cons_self) h hinv))
    cases o with
    | error x => exact Protocol.rg_raise fun _ _ _ => nofun
    | ok b =>
      refine Protocol.rg_bind hi₁ (Protocol.rg_mono (fun o l₂ hi₂ hq₂ => ?_)
        (ih (fun p hp => hv p (List.mem_cons_of_mem _ hp)) (hq b rfl) hi₁))
      cases o with
      | error x => exact Protocol.rg_raise fun _ _ _ => nofun
      | ok n => exact Protocol.rg_ret fun _ he _ _ _ => (hq₂ n rfl).relies he

/-- The stages after the verification. -/
theorem reconcile_rg {x : ℕ} {data : List WireJson} (hx : (calls i).device py = some x)
    (hu : resolved d₀ x = some userId) (hdata : listPayments ((calls i).get x) = .ok data)
    (hlog : l.log = []) :
    (cloudProtocol py settings calls g₀ d₀).rg i (fun o l => ∀ a, o = .ok a → l.log = [])
      (reconcile py settings userId data) l := by
  simp only [reconcile, now, TxProg.stmt, bind_eq, pure_eq, act_bind, ret_bind]
  refine rg_read (fun _ _ _ => rfl) fun l₁ he₁ hi₁ => ?_
  have hlog₁ : l₁.log = [] := he₁.own.1.trans hlog
  generalize hsel : selectCreditablePayments py data settings.cloudpaymentsPaidStatuses
    (BillingStmt.run l₁.gen.2 l₁.gen.1 (l₁.view billingStore) .now).1
    settings.cloudpaymentsPaymentFreshnessHours = creditable
  cases creditable with
  | nil => exact Protocol.rg_ret fun _ he _ _ _ => he.own.1.trans hlog₁
  | cons payment rest =>
    have hv : ∀ p ∈ payment :: rest,
        VerifiedAt py settings (calls i) d₀ l₁.gen.2 userId p := by
      intro p hp
      rw [← hsel] at hp
      exact ⟨x, data, hx, hu, hdata, hp⟩
    refine Protocol.rg_bind hi₁ (Protocol.rg_mono (fun o l₂ hi₂ hq => ?_)
      (applyPayments_rg hi₁.1.2 _ hv ⟨hlog₁, le_refl _⟩ hi₁))
    cases o with
    | error x => exact Protocol.rg_raise fun _ _ _ _ h => by cases h
    | ok n => exact Protocol.rg_ret fun _ he _ _ _ => he.own.1.trans (hq n rfl).1

/-- The resolution of the user. -/
theorem resolveUser_rg {α : Type} {Q : Except BillingError α → BillingOwn → Prop} {x : ℕ}
    (hlog : l.log = []) {k : Option ℕ → BillingProg α}
    (hk : ∀ l', (cloudProtocol py settings calls g₀ d₀).inv l'.gen l'.db → l'.log = [] →
      (cloudProtocol py settings calls g₀ d₀).rg i Q (k (resolved d₀ x)) l') :
    (cloudProtocol py settings calls g₀ d₀).rg i Q ((resolveUser x).bind k) l := by
  simp only [resolveUser, userExists, TxProg.stmt, bind_eq, pure_eq, act_bind, ret_bind]
  refine rg_read (fun _ _ _ => rfl) fun l₁ he₁ hi₁ => ?_
  have hlog₁ : l₁.log = [] := he₁.own.1.trans hlog
  have husers : (l₁.view billingStore).users = d₀.users := (users_view _ _).1.trans hi₁.2.1
  simp only [BillingStmt.run, husers]
  cases hux : d₀.users x with
  | true =>
    have := hk l₁ hi₁ hlog₁
    rw [resolved, hux] at this
    exact this
  | false =>
    simp only [Bool.false_eq_true, if_false, act_bind, ret_bind]
    refine rg_read (fun _ _ _ => rfl) fun l₂ he₂ hi₂ => ?_
    have hdev : (l₂.view billingStore).deviceUser = d₀.deviceUser := (users_view _ _).2.trans hi₂.2.2
    have := hk l₂ hi₂ (he₂.own.1.trans hlog₁)
    rw [resolved, hux] at this
    simp only [BillingStmt.run, hdev]
    exact this

/-- **One callback among others.** -/
theorem serve_rg (hlog : l.log = [])
    (hinv : (cloudProtocol py settings calls g₀ d₀).inv l.gen l.db) :
    (cloudProtocol py settings calls g₀ d₀).rg i (fun _ _ => True)
      ((calls i).serve py settings) l := by
  refine Protocol.rg_sessionScope hinv (Protocol.rg_mono
    (Q := fun o l => ∀ a, o = .ok a → l.log = []) (fun o l' _ hq => ?_) ?_)
  · cases o with
    | ok a =>
      exact Protocol.rg_commit fun l₁ he₁ _ _ => ⟨.inl (he₁.own.1.trans (hq a rfl)),
        Protocol.rg_ret fun _ _ _ => trivial⟩
    | error x => exact Protocol.rg_rollback fun _ _ _ => Protocol.rg_raise fun _ _ _ => trivial
  have hret : ∀ (outcome : WebhookOutcome) (l : BillingOwn), l.log = [] →
      (cloudProtocol py settings calls g₀ d₀).rg i
      (fun (o : Except BillingError WebhookOutcome) l => ∀ a, o = .ok a → l.log = [])
      (.ret outcome) l :=
    fun outcome l h => Protocol.rg_ret fun _ he _ _ _ => he.own.1.trans h
  have hraise : ∀ (x : BillingError) (l : BillingOwn), (cloudProtocol py settings calls g₀ d₀).rg i
      (fun (o : Except BillingError WebhookOutcome) l => ∀ a, o = .ok a → l.log = [])
      (.raise x) l :=
    fun x l => Protocol.rg_raise fun _ _ _ => nofun
  unfold handle
  split
  · exact hraise _ _
  split
  · exact hret _ _ hlog
  split
  · exact hraise _ _
  · exact hret _ _ hlog
  · rename_i kvs hkvs
    unfold handleBody
    split
    · rename_i hgate
      split
      · exact hraise _ _
      · rename_i data hdata
        split
        · exact hret _ _ hlog
        · rename_i x hx
          have hdevice : (calls i).device py = some x := by
            rw [Callback.device, hkvs]
            simp only [hgate, if_true, hdata, Option.bind_some, hx]
          simp only [verifyDevice, bind_eq, pure_eq, throw_eq]
          refine resolveUser_rg hlog fun l₁ hi₁ hlog₁ => ?_
          cases hu : resolved d₀ x with
          | none => exact hret _ _ hlog₁
          | some userId =>
            refine Protocol.rg_commit fun l₂ he₂ hi₂ _ => ⟨.inl (he₂.own.1.trans hlog₁), ?_⟩
            cases hlist : listPayments ((calls i).get x) with
            | error e => exact hraise _ _
            | ok payments =>
              exact reconcile_rg hdevice hu hlist rfl
    · exact hret _ _ hlog
  · exact hret _ _ hlog

end Programs

/-! ## All callbacks -/

section Run

variable {ι : Type} {py : Python} {settings : BillingSettings} {calls : ι → Callback}
variable {g₀ g : ℕ × Time} {d₀ d : BillingDb} {hist : List (ι × List BillingOp)}

/-- A commit that is empty, or the whole of a payment that the verification of its callback has
listed, at a time between the beginning and now. -/
def Whole (py : Python) (settings : BillingSettings) (c : Callback) (g₀ g : ℕ × Time)
    (d₀ : BillingDb) (log : List BillingOp) : Prop :=
  log = [] ∨ ∃ t payment userId, g₀.2 ≤ t ∧ t ≤ g.2 ∧ VerifiedAt py settings c d₀ t userId payment ∧
    Paid py settings payment userId log

/-- What the commits of callbacks have done to the tables by now. -/
structure Reconciled (py : Python) (settings : BillingSettings) (calls : ι → Callback)
    (g₀ g : ℕ × Time) (d₀ : BillingDb) (hist : List (ι × List BillingOp)) (d : BillingDb) :
    Prop where
  whole : ∀ c ∈ hist, Whole py settings (calls c.1) g₀ g d₀ c.2
  /-- A payment is committed once. -/
  paymentOnce : hist.Pairwise fun c c' => ∀ r ∈ cloudPaymentsRows c.2,
    ∀ r' ∈ cloudPaymentsRows c'.2, r.transactionId ≠ r'.transactionId
  paymentNew : ∀ c ∈ hist, ∀ r ∈ cloudPaymentsRows c.2, ∀ r₀ ∈ d₀.cloudPaymentsEvents,
    r₀.transactionId ≠ r.transactionId
  /-- The key of a payment is credited once, over all users. -/
  creditOnce : hist.Pairwise fun c c' => ∀ r ∈ ledgerRows c.2, ∀ r' ∈ ledgerRows c'.2,
    r.idempotencyKey ≠ r'.idempotencyKey
  journal : d.cloudPaymentsEvents =
    d₀.cloudPaymentsEvents ++ hist.flatMap fun c => cloudPaymentsRows c.2
  ledger : d.accounts.ledger = d₀.accounts.ledger ++ creditedRows hist
  balance : ∀ u, d.accounts.balance u = d₀.accounts.balance u + net u (creditedRows hist)

/-- The two keys of a payment agree. -/
theorem Whole.key {c : Callback} {log : List BillingOp} (h : Whole py settings c g₀ g d₀ log)
    {row : LedgerTransaction} (hrow : row ∈ ledgerRows log) :
    ∃ r ∈ cloudPaymentsRows log, row.idempotencyKey = grantKey r.transactionId := by
  rcases h with rfl | ⟨t, payment, userId, -, -, -, ⟨⟨kind, credits, -, -, hjournal, -, hacc⟩, -⟩⟩
  · cases hrow
  · rcases hacc.ledger with hnone | ⟨-, id, hone⟩
    · rw [hnone] at hrow
      cases hrow
    · rw [hone] at hrow
      rw [List.mem_singleton.1 hrow, hjournal]
      exact ⟨_, List.mem_singleton_self _, rfl⟩

theorem grantKey_injective : Function.Injective grantKey := by
  intro a b h
  have htext : "cp-txn:" ++ a = "cp-txn:" ++ b := IdemKey.text.inj h
  exact (String.append_right_inj _).1 htext

/-- The commits that the protocol allows. -/
theorem Reconciled.of_commits
    (hle : Commits billingStore (fun i g' d log => g' ≤ g ∧
      (cloudProtocol py settings calls g₀ d₀).may i g' d log) d₀ hist d) :
    Reconciled py settings calls g₀ g d₀ hist d := by
  have hwhole : ∀ c ∈ hist, Whole py settings (calls c.1) g₀ g d₀ c.2 := by
    refine hle.forall_mem (A := fun i log => Whole py settings (calls i) g₀ g d₀ log)
      fun i g' d log hm => hm.2.imp_right ?_
    rintro ⟨t, payment, userId, ht, hnow, hv, hpaid, -⟩
    exact ⟨t, payment, userId, ht, hnow.trans hm.1.2, hv, hpaid⟩
  have h : Commits billingStore (cloudProtocol py settings calls g₀ d₀).may d₀ hist d :=
    hle.mono fun _ _ _ _ hm => hm.2
  have hpayment := h.once BillingDb.cloudPaymentsEvents CloudPaymentsWebhookEvent.transactionId
    cloudPaymentsEvents_view fun i g d log hm k hk k₀ hk₀ => by
      rcases hm with rfl | ⟨t, payment, userId, -, -, -, hpaid, hnew, -⟩
      · cases hk
      · obtain ⟨kind, credits, -, -, hjournal, -⟩ := hpaid.whole
        rw [hjournal] at hk
        rw [List.mem_singleton.1 hk]
        exact hnew k₀ hk₀
  refine ⟨hwhole, hpayment.1, hpayment.2, ?_,
    h.table_eq BillingDb.cloudPaymentsEvents cloudPaymentsEvents_view, ledger_commits h,
    balance_commits (fun i g d log hm => ?_) h⟩
  · refine List.Pairwise.imp_of_mem (fun {c c'} hc hc' hne row hrow row' hrow' heq => ?_) hpayment.1
    obtain ⟨r, hr, hkey⟩ := (hwhole c hc).key hrow
    obtain ⟨r', hr', hkey'⟩ := (hwhole c' hc').key hrow'
    exact hne r hr r' hr' (grantKey_injective (hkey.symm.trans (heq.trans hkey')))
  · rcases hm with rfl | ⟨t, payment, userId, -, -, -, hpaid, -, -⟩
    · exact fun u => rfl
    · obtain ⟨kind, credits, -, -, -, -, hacc⟩ := hpaid.whole
      exact hacc.balanced

/-- The callbacks of a pool. -/
abbrev CloudPool (ι : Type) : Type :=
  Pool ι BillingStmt BillingStmt.Resp BillingDb BillingOp (ℕ × Time) Unit BillingError WebhookOutcome

/-- The callbacks `calls`, about to be served. -/
def callbacks (py : Python) (settings : BillingSettings) (g : ℕ × Time) (d : BillingDb)
    (calls : ι → Callback) : CloudPool ι :=
  Pool.begin g d () fun i => (calls i).serve py settings

/-- **Crediting.** In every run of callbacks, in any interleaving and with a failure at any point: a
payment is credited once over all users, with the amount of its product (`Paid`) and by a callback
whose own verification listed it as paid and recent (`VerifiedAt`); a callback whose verification
did not succeed has written nothing; and what is committed of a callback are whole payments, so
that one that fails leaves nothing of itself and all of those before it. -/
theorem cloudpayments_crediting [DecidableEq ι] {g₀ : ℕ × Time} {d₀ : BillingDb} {P : CloudPool ι}
    (hr : (callbacks py settings g₀ d₀ calls).Reaches billingStore P) :
    Reconciled py settings calls g₀ P.gen d₀ P.hist P.db ∧
      ∀ i, (∀ x data, (calls i).device py = some x → listPayments ((calls i).get x) ≠ .ok data) →
        ∀ log ∈ P.commitsOf i, log = [] := by
  have hbegin : Pool.Keeps (cloudProtocol py settings calls g₀ d₀) (fun _ _ _ => True) d₀
      (callbacks py settings g₀ d₀ calls) :=
    Pool.begin_keeps ⟨le_refl _, rfl, rfl⟩ fun i => serve_rg rfl ⟨le_refl _, rfl, rfl⟩
  have hrun := Reconciled.of_commits
    (Pool.ReachesIf.commits_le (hr.reachesIf fun _ _ _ => trivial) hbegin .nil)
  refine ⟨hrun, fun i hfail log hlog => ?_⟩
  rcases hrun.whole _ (Pool.mem_hist_of_commitsOf hlog) with hnil | ⟨t, payment, userId, -, -, hv, -⟩
  · exact hnil
  · obtain ⟨x, data, hx, -, hdata, -⟩ := hv
    exact absurd hdata (hfail x data hx)

end Run

/-- A library that reads one callback, for the user 7. -/
def oneCallback : Python where
  loads _ := .value (.obj [("Status", .str "completed"), ("OperationType", .str "payment"),
    ("AccountId", .str "seven")])
  loadsText _ := .valueError
  lower s := s
  strip s := s
  str j := match j with
    | .str s => s
    | _ => ""
  uuid _ := some 7
  fromisoformat _ := some 0
  isoformat _ := ""

/-- A callback whose verification lists a paid month. -/
def paidMonth : Callback where
  raw := [1]
  get _ := .response 200 (.value (.obj [("data", .arr [.obj [("status", .str "succeeded"),
    ("paid_at", .str "today"), ("payment_id", .str "payment"),
    ("product", .obj [("code", .str "month"), ("payment_type", .str "subscription")])]])]))

/-- One credit of 1000. -/
def creditedOnce (P : CloudPool (Fin 2)) : Bool :=
  P.db.accounts.ledger.map (·.amount) = [1000] && P.db.accounts.balance 7 = 1000

/-- Two callbacks for one payment. -/
theorem cloudpayments_crediting_run : ∃ P : CloudPool (Fin 2), creditedOnce P = true ∧
    Reconciled oneCallback .unmapped (fun _ => paidMonth) (0, 0) P.gen emptyTables P.hist P.db := by
  have hids : ∀ i : Fin 2, i ∈ [0, 1] := by decide
  have hplay : (Pool.play billingHandler [0, 1]
      [0, 0, 0, 1, 1, 1, 0, 0, 0, 0, 0, 0, 0, 0, 0, 0, 1, 1, 1]
      (callbacks oneCallback .unmapped (0, 0) emptyTables fun _ => paidMonth) ()).any
      (fun r => creditedOnce r.1) = true := by decide +kernel
  obtain ⟨P, hr, hP⟩ := Pool.exists_of_play hids hplay
  exact ⟨P, hP, (cloudpayments_crediting hr).1⟩

/-- The product maps need not have an amount for what is credited: a subscription that they do not
list is credited with the fallback. -/
theorem cloudpayments_crediting_fails : ∃ P : CloudPool (Fin 2),
    (callbacks oneCallback .unmapped (0, 0) emptyTables fun _ => paidMonth).Reaches
        billingStore P ∧
      ∃ row ∈ P.db.accounts.ledger, ∀ product,
        BillingSettings.unmapped.cloudpaymentsProductTokens.get product ≠ some row.amount ∧
        BillingSettings.unmapped.tokenProducts.get product ≠ some row.amount := by
  have hids : ∀ i : Fin 2, i ∈ [0, 1] := by decide
  have hplay : (Pool.play billingHandler [0, 1] [0, 0, 0, 0, 0, 0, 0, 0, 0, 0, 0, 0, 0]
      (callbacks oneCallback .unmapped (0, 0) emptyTables fun _ => paidMonth) ()).any
      (fun r => creditedOnce r.1) = true := by decide +kernel
  obtain ⟨P, hr, hP⟩ := Pool.exists_of_play hids hplay
  have hledger : P.db.accounts.ledger ≠ [] := by
    intro hnil
    simp [creditedOnce, hnil] at hP
  obtain ⟨row, hrow⟩ := List.exists_mem_of_ne_nil _ hledger
  exact ⟨P, hr, row, hrow, fun product => ⟨nofun, nofun⟩⟩

end ChatBackend.Billing.CloudPayments

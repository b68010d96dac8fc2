import ChatBackend.Admin.Service
import ChatBackend.Billing.Crediting

/-!
# Grants of operators under interleaving

`admin_grants`: in every run of a pool of admin requests, a request that is answered has been committed
as a whole, with its audit event, one that is refused has committed nothing, and an idempotency key is
credited once. `admin_idempotent`: two requests with the same key that are answered have the same amount
and name the same row of the ledger.
-/

namespace ChatBackend.Admin

open Prog Store Wallet Billing

abbrev AdminOwn : Type := Own AdminDb AdminOp (ℕ × Time) Unit

/-! ## The answer of a grant -/

/-- The ledger has a credit with this identifier, for this key of the user and with this amount. -/
def Names (u : ℕ) (key : IdemKey) (amount : ℤ) (t : ℕ) (d : BillingDb) : Prop :=
  ∃ row ∈ d.accounts.ledger, row.id = t ∧ row.key = (u, key) ∧ row.type = .credit ∧ row.amount = amount

section Names

variable {ι : Type} {pr : Protocol billingStore ι} {i : ι} {l : BillingOwn}
variable {u t : ℕ} {key : IdemKey} {amount : ℤ} {metaData : Json} {reason : String}

/-- A row of the ledger stays. -/
theorem Names.view {d : BillingDb} (h : Names u key amount t d) (log : List BillingOp) :
    Names u key amount t (billingStore.view log d) := by
  obtain ⟨row, hrow, hrest⟩ := h
  refine ⟨row, ?_, hrest⟩
  rw [ledger_view]
  exact List.mem_append_left _ hrow

/-- The session sees the row that the answer names. -/
def SeesRow (u : ℕ) (key : IdemKey) (amount : ℤ) (t : ℕ) (l : BillingOwn) : Prop :=
  Names u key amount t (l.view billingStore)

theorem SeesRow.stable : Protocol.Stable pr i (SeesRow u key amount t) := by
  intro l l' _ h hr
  cases hr with
  | gen => exact h
  | @commit j log hj hc hm =>
    obtain ⟨row, hrow, hrest⟩ := h
    refine ⟨row, ?_, hrest⟩
    rw [Own.view, ledger_view, List.mem_append] at hrow
    rw [Own.view, ledger_view, ledger_view, List.mem_append, List.mem_append]
    exact hrow.imp_left .inl

theorem SeesRow.write (h : SeesRow u key amount t l) (ops : List BillingOp) :
    SeesRow u key amount t (l.write ops) := by
  rw [SeesRow, Own.view, Own.write, Store.view_append]
  exact h.view ops

/-- The answer of a grant names a row. -/
abbrev Answered (u : ℕ) (key : IdemKey) (amount : ℤ) (o : Except BillingError ConsumeResult)
    (l : BillingOwn) : Prop :=
  ∀ res, o = .ok res → SeesRow u key amount res.ledgerTxId l

theorem rg_error {x : BillingError} :
    pr.rg i (Answered u key amount) (.raise x : BillingProg ConsumeResult) l :=
  Protocol.rg_raise fun _ _ _ _ h => by cases h

theorem rg_answered {res : ConsumeResult} (hinv : pr.inv l.gen l.db)
    (h : SeesRow u key amount res.ledgerTxId l) :
    pr.rg i (Answered u key amount) (.ret res : BillingProg ConsumeResult) l :=
  Protocol.rg_ret fun _ he _ res' hres => by
    obtain rfl := Except.ok.inj hres
    exact SeesRow.stable.relies hinv h he

/-- A key that has a row: the row is the one of the answer, if it is a credit of this amount. -/
theorem replay_answered : pr.rg i (Answered u key amount)
    ((Wallet.replay u .credit amount key).embed walletAct walletAnswer .wallet) l := by
  simp only [Wallet.replay, existingTx, TxProg.stmt, bind_eq, act_bind, ret_bind, embed_act, walletAct]
  refine rg_read (fun _ _ _ => rfl) fun l₁ he₁ hi₁ => ?_
  simp only [walletAnswer, BillingStmt.run, WalletStmt.run]
  cases hfind : (l₁.view billingStore).accounts.ledger.find? fun r => r.key = (u, key) with
  | none => exact rg_error
  | some existing =>
    dsimp only
    split
    · exact rg_error
    · rename_i hsame
      simp only [ne_eq, not_or, not_not] at hsame
      have hrow : SeesRow u key amount existing.id l₁ :=
        ⟨existing, List.mem_of_find?_eq_some hfind, rfl, by simpa using List.find?_some hfind, hsame⟩
      simp only [embed_act, walletAct, pure_eq, embed_ret]
      exact rg_read (fun _ _ _ => rfl) fun l₂ he₂ hi₂ =>
        rg_answered hi₂ (SeesRow.stable.relies hi₁ hrow he₂)

/-- **The answer of a grant** names the row of its key, which has the amount that was asked for. -/
theorem grant_answered : pr.rg i (Answered u key amount)
    (Billing.grant u amount key metaData reason) l := by
  unfold Billing.grant Wallet.grant
  split
  · exact rg_error
  simp only [Wallet.ensureWallet, Wallet.insertLedger, TxProg.stmt, bind_eq, act_bind, ret_bind,
    embed_act, walletAct]
  refine rg_write (fun _ _ _ => rfl) fun l₁ he₁ hi₁ => ?_
  refine rg_billingStmt fun l₂ he₂ hi₂ _ => ?_
  cases hany : (l₂.view billingStore).accounts.ledger.any fun r => r.key = (u, key) with
  | true =>
    simp only [BillingStmt.run, WalletStmt.run, hany, if_true, walletAnswer]
    exact replay_answered
  | false =>
    simp only [BillingStmt.run, WalletStmt.run, hany, Bool.false_eq_true, if_false, walletAnswer]
    have hgen : l₂.gen ≤ (l₂.gen.1 + 1, l₂.gen.2) := ⟨Nat.le_succ _, le_refl _⟩
    have hrow : SeesRow u key amount l₂.gen.1 ⟨(l₂.gen.1 + 1, l₂.gen.2), l₂.db,
        l₂.log ++ [.wallet (.insertLedger ⟨l₂.gen.1, u, .credit, amount, metaData, key⟩)], (),
        l₂.done⟩ := by
      refine ⟨⟨l₂.gen.1, u, .credit, amount, metaData, key⟩, ?_, rfl, rfl, rfl, rfl⟩
      rw [Own.view, Store.view_append]
      exact List.mem_append_right _ (List.mem_singleton_self _)
    simp only [embed_act, walletAct, pure_eq, embed_ret]
    refine rg_write (fun t g d => ?_) fun l₃ he₃ hi₃ => ?_
    · simp only [BillingStmt.run, WalletStmt.run]
      split <;> rfl
    have h₃ : SeesRow u key amount l₂.gen.1 l₃ :=
      SeesRow.stable.relies (l := ⟨_, _, _, _, _⟩) (pr.inv_gen hgen hi₂) hrow he₃
    refine rg_write (fun _ _ _ => rfl) fun l₄ he₄ hi₄ => ?_
    have h₄ : SeesRow u key amount l₂.gen.1 l₄ :=
      SeesRow.stable.relies (l := l₃.write _) hi₃ (h₃.write _) he₄
    exact rg_answered hi₄ (h₄.write _)

end Names

/-! ## The audit of a grant -/

/-- The audit event of a row of the ledger that has been credited. -/
def creditEvent (row : LedgerTransaction) (newBalance : ℤ) (reason : String) : AuditEvent :=
  AuditEvent.redacted ⟨row.userId, none, .billingCredit, .obj
    [("ledgerTxId", .num row.id), ("amount", .num row.amount), ("newBalance", .num newBalance),
      ("reason", .str reason)]⟩

/-- The events of these rows. -/
abbrev AuditsOf (reason : String) : List AuditEvent → List LedgerTransaction → Prop :=
  List.Forall₂ fun e row => ∃ newBalance, e = creditEvent row newBalance reason

/-- The audit events of the wallet in a log are those of its credits, one of each. -/
def CreditsAudited (reason : String) (log : List BillingOp) : Prop :=
  AuditsOf reason (audits (walletOps log)) (ledgerRows log)

/-- The same but for a last row, whose event is still to be recorded. -/
def CreditDue (reason : String) (row : LedgerTransaction) (log : List BillingOp) : Prop :=
  ∃ before, ledgerRows log = before ++ [row] ∧ AuditsOf reason (audits (walletOps log)) before

section Audited

variable {ι : Type} {pr : Protocol billingStore ι} {i : ι} {l : BillingOwn}
variable {u : ℕ} {key : IdemKey} {amount : ℤ} {metaData : Json} {reason : String}
variable {row : LedgerTransaction} {log : List BillingOp}

theorem CreditsAudited.of_nil (h : walletOps log = []) : CreditsAudited reason log := by
  unfold CreditsAudited
  rw [ledgerRows_of_nil h, h]
  exact .nil

/-- Writes that are neither rows nor events. -/
theorem CreditsAudited.write (h : CreditsAudited reason log) {ops : List WalletOp}
    (hrows : rows ops = []) (haudits : audits ops = []) :
    CreditsAudited reason (log ++ ops.map .wallet) := by
  have hnone : ledgerRows (ops.map .wallet) = [] := by rw [ledgerRows, walletOps_map, hrows]
  unfold CreditsAudited
  rw [ledgerRows_append, hnone, walletOps_append, audits_append, walletOps_map, haudits, List.append_nil,
    List.append_nil]
  exact h

theorem CreditsAudited.insert (h : CreditsAudited reason log) (row : LedgerTransaction) :
    CreditDue reason row (log ++ [.wallet (.insertLedger row)]) := by
  refine ⟨ledgerRows log, ledgerRows_append .., ?_⟩
  have hnone : audits (walletOps [.wallet (.insertLedger row)]) = [] := rfl
  rw [walletOps_append, audits_append, hnone, List.append_nil]
  exact h

theorem CreditDue.write (h : CreditDue reason row log) {ops : List WalletOp}
    (hrows : rows ops = []) (haudits : audits ops = []) :
    CreditDue reason row (log ++ ops.map .wallet) := by
  obtain ⟨before, hbefore, haudited⟩ := h
  refine ⟨before, ?_, ?_⟩
  · rw [ledgerRows_append, hbefore, ledgerRows, walletOps_map, hrows, List.append_nil]
  · rw [walletOps_append, audits_append, walletOps_map, haudits, List.append_nil]
    exact haudited

theorem CreditDue.record (h : CreditDue reason row log) (newBalance : ℤ) :
    CreditsAudited reason (log ++ [.wallet (.insertAudit (creditEvent row newBalance reason))]) := by
  obtain ⟨before, hbefore, haudited⟩ := h
  unfold CreditsAudited
  have hrows : ledgerRows (log ++ [.wallet (.insertAudit (creditEvent row newBalance reason))]) =
      before ++ [row] := by
    rw [ledgerRows_append, hbefore]
    exact List.append_nil _
  rw [hrows, walletOps_append, audits_append]
  exact List.rel_append haudited (.cons ⟨newBalance, rfl⟩ .nil)

/-- The session has recorded its credits. -/
abbrev Recording (reason : String) (o : Except BillingError ConsumeResult) (l : BillingOwn) : Prop :=
  ∀ res, o = .ok res → CreditsAudited reason l.log

theorem rg_unrecorded {x : BillingError} :
    pr.rg i (Recording reason) (.raise x : BillingProg ConsumeResult) l :=
  Protocol.rg_raise fun _ _ _ _ h => by cases h

theorem rg_recorded {res : ConsumeResult} (h : CreditsAudited reason l.log) :
    pr.rg i (Recording reason) (.ret res : BillingProg ConsumeResult) l :=
  Protocol.rg_ret fun _ he _ _ _ => he.own.1.symm ▸ h

theorem replay_recorded (h : CreditsAudited reason l.log) : pr.rg i (Recording reason)
    ((Wallet.replay u .credit amount key).embed walletAct walletAnswer .wallet) l := by
  simp only [Wallet.replay, existingTx, TxProg.stmt, bind_eq, act_bind, ret_bind, embed_act, walletAct]
  refine rg_read (fun _ _ _ => rfl) fun l₁ he₁ _ => ?_
  have h₁ : CreditsAudited reason l₁.log := he₁.own.1.symm ▸ h
  simp only [walletAnswer, BillingStmt.run, WalletStmt.run]
  cases (l₁.view billingStore).accounts.ledger.find? fun r => r.key = (u, key) with
  | none => exact rg_unrecorded
  | some existing =>
    dsimp only
    split
    · exact rg_unrecorded
    · simp only [embed_act, walletAct, pure_eq, embed_ret]
      exact rg_read (fun _ _ _ => rfl) fun l₂ he₂ _ => rg_recorded (he₂.own.1.symm ▸ h₁)

/-- **The audit of a grant**: one event for each row that it inserts, and no other. -/
theorem grant_recorded (h : CreditsAudited reason l.log) : pr.rg i (Recording reason)
    (Billing.grant u amount key metaData reason) l := by
  unfold Billing.grant Wallet.grant
  split
  · exact rg_unrecorded
  simp only [Wallet.ensureWallet, Wallet.insertLedger, TxProg.stmt, bind_eq, act_bind, ret_bind,
    embed_act, walletAct]
  refine rg_write (fun _ _ _ => rfl) fun l₁ he₁ _ => ?_
  have h₁ : CreditsAudited reason
      (l₁.write ((provision (l₁.view billingStore).accounts u).map .wallet)).log :=
    CreditsAudited.write (he₁.own.1.symm ▸ h) (rows_provision _ u) (audits_provision _ u)
  refine rg_billingStmt fun l₂ he₂ _ _ => ?_
  have h₂ : CreditsAudited reason l₂.log := he₂.own.1.symm ▸ h₁
  cases hany : (l₂.view billingStore).accounts.ledger.any fun r => r.key = (u, key) with
  | true =>
    simp only [BillingStmt.run, WalletStmt.run, hany, if_true, walletAnswer]
    exact replay_recorded (by simpa using h₂)
  | false =>
    simp only [BillingStmt.run, WalletStmt.run, hany, Bool.false_eq_true, if_false, walletAnswer]
    have hdue : CreditDue reason ⟨l₂.gen.1, u, .credit, amount, metaData, key⟩
        (l₂.log ++ [.wallet (.insertLedger ⟨l₂.gen.1, u, .credit, amount, metaData, key⟩)]) := h₂.insert _
    simp only [embed_act, walletAct, pure_eq, embed_ret]
    refine rg_write (fun t g d => ?_) fun l₃ he₃ _ => ?_
    · simp only [BillingStmt.run, WalletStmt.run]
      split <;> rfl
    have hdue₃ : CreditDue reason ⟨l₂.gen.1, u, .credit, amount, metaData, key⟩ l₃.log :=
      he₃.own.1.symm ▸ hdue
    have hops : ∃ ops, (BillingStmt.run l₃.gen.2 l₃.gen.1 (l₃.view billingStore)
        (.wallet (.creditBalance u amount))).2.1 = ops.map .wallet ∧ rows ops = [] ∧ audits ops = [] := by
      simp only [BillingStmt.run, WalletStmt.run]
      split
      · exact ⟨[.addBalance u amount], rfl, rfl, rfl⟩
      · exact ⟨[], rfl, rfl, rfl⟩
    obtain ⟨ops, hops, hrows, haudits⟩ := hops
    rw [hops]
    have hpaid : CreditDue reason ⟨l₂.gen.1, u, .credit, amount, metaData, key⟩
        (l₃.write (ops.map .wallet)).log := hdue₃.write hrows haudits
    refine rg_write (fun _ _ _ => rfl) fun l₄ he₄ _ => rg_recorded ?_
    have hpaid₄ : CreditDue reason ⟨l₂.gen.1, u, .credit, amount, metaData, key⟩ l₄.log :=
      he₄.own.1.symm ▸ hpaid
    exact hpaid₄.record _

end Audited

/-! ## What a request does -/

section Call

variable (texts : AdminTexts) (settings : BillingSettings)

def AdminCall.userId : AdminCall → ℕ
  | grant u .. => u
  | grantSubscription u .. => u

/-- The key that a request credits, and the amount. -/
def AdminCall.credit : AdminCall → IdemKey × ℤ
  | grant _ amount key _ => (key, amount)
  | grantSubscription _ _ _ key credits =>
    (subscriptionKey texts key, effectiveCredits settings credits)

/-- The request credits: a grant always, a subscription unless it is one without credits. -/
def AdminCall.Credits : AdminCall → Prop
  | grant .. => True
  | grantSubscription _ _ _ _ credits => 0 < effectiveCredits settings credits

/-- The row of the ledger. -/
def AdminCall.creditRow (c : AdminCall) (id : ℕ) : LedgerTransaction :=
  ⟨id, c.userId, .credit, (c.credit texts settings).2, .obj [("source", .str "admin"), ("reason",
    match c with
    | .grant _ _ _ reason => .str reason
    | .grantSubscription .. => .str "admin_subscription_grant")], (c.credit texts settings).1⟩

/-- The reason of the credit. -/
def AdminCall.creditReason : AdminCall → String
  | grant _ _ _ reason => reason
  | grantSubscription .. => "admin_subscription_grant"

/-- The writes to the subscriptions. -/
def AdminCall.subscriptionOps : AdminCall → List BillingOp
  | grant .. => []
  | grantSubscription u expiresAt plan _ _ =>
    [.putSubscription u ⟨.active, some plan, some expiresAt⟩]

/-- The audit event of a request, as it is inserted, and the row of the ledger that it names. -/
inductive Audits : AdminCall → AdminEvent → Option ℕ → Prop
  | grant {u : ℕ} {amount : ℤ} {key : IdemKey} {reason : String} (result : ConsumeResult) :
      Audits (.grant u amount key reason) (grantEvent texts u amount key reason result).redacted
        (some result.ledgerTxId)
  | subscription {u : ℕ} {expiresAt : Time} {plan : String} {key : IdemKey} {credits : Option ℤ}
      (result : Option ConsumeResult)
      (h : result.isSome = decide (0 < effectiveCredits settings credits)) :
      Audits (.grantSubscription u expiresAt plan key credits)
        (subscriptionEvent texts u expiresAt plan key (effectiveCredits settings credits) result).redacted
        (result.map (·.ledgerTxId))

/-- The row that an answer names is the row of the request. -/
def AdminCall.NamesRow (c : AdminCall) (t : Option ℕ) (d : BillingDb) : Prop :=
  ∀ id, t = some id → Names c.userId (c.credit texts settings).1 (c.credit texts settings).2 id d

/-- The whole of a request, as one log. -/
structure Whole (c : AdminCall) (log : List AdminOp) : Prop where
  audited : ∃ event t, TabledOp.rows log = [event] ∧ Audits texts settings c event t
  subscription : subscriptionOps (TabledOp.ops log) = c.subscriptionOps
  accounted : Accounted (c.Credits settings) (c.creditRow texts settings) (TabledOp.ops log)
  credited : CreditsAudited c.creditReason (TabledOp.ops log)

/-- The same on the database that it is committed on. -/
structure Applied (c : AdminCall) (d : AdminDb) (log : List AdminOp) : Prop where
  whole : Whole texts settings c log
  known : d.base.users c.userId = true
  newKeys : ∀ row ∈ ledgerRows (TabledOp.ops log), ∀ r ∈ d.base.accounts.ledger, r.key ≠ row.key

end Call

section Requests

variable {ι : Type} {texts : AdminTexts} {settings : BillingSettings} {calls : ι → AdminCall} {i : ι}
variable {l l' : AdminOwn}

/-- A request commits the whole of what it is about. -/
def adminProtocol (texts : AdminTexts) (settings : BillingSettings) (calls : ι → AdminCall) :
    Protocol adminStore ι where
  inv _ _ := True
  may i _ d log := Applied texts settings (calls i) d log
  test _ _ _ := True
  inv_gen _ _ := trivial
  inv_commit _ _ := trivial

/-- What a request has committed when it has ended. -/
def Ended (texts : AdminTexts) (settings : BillingSettings) (c : AdminCall) :
    Except AdminError AdminAnswer → AdminOwn → Prop
  | .error _, l => l.done = []
  | .ok a, l => c.NamesRow texts settings a.ledgerTxId l.db.base ∧ ∃ log event, l.done = [log] ∧
      TabledOp.rows log = [event] ∧ Audits texts settings c event a.ledgerTxId

/-- The user is there. -/
def Known (u : ℕ) (l : BillingOwn) : Prop := l.db.users u = true

theorem known_stable {pr : Protocol billingStore ι} (u : ℕ) : Protocol.Stable pr i (Known u) := by
  intro l l' _ h hr
  cases hr with
  | gen => exact h
  | @commit j log hj hc hm =>
    rw [Known, (users_view log l.db).1]
    exact h

/-- The open transaction of a request, before its audit event; `t` is the row of the ledger that its
answer names. -/
structure Prepared (texts : AdminTexts) (settings : BillingSettings) (c : AdminCall) (t : Option ℕ)
    (l : BillingOwn) : Prop where
  known : Known c.userId l
  ready : Billing.Ready [] [] c.subscriptionOps [] (c.Credits settings) (c.creditRow texts settings) l
  names : c.NamesRow texts settings t (l.view billingStore)
  credited : CreditsAudited c.creditReason l.log

theorem Prepared.stable {pr : Protocol billingStore ι} {c : AdminCall} {t : Option ℕ} :
    Protocol.Stable pr i (Prepared texts settings c t) :=
  fun l l' hinv h hr => ⟨known_stable _ l l' hinv h.known hr, Ready.stable l l' hinv h.ready hr,
    fun id ht => SeesRow.stable l l' hinv (h.names id ht) hr,
    (Protocol.Relies.own (.single hr)).1.symm ▸ h.credited⟩

/-- A row of the ledger that is named stays. -/
theorem names_relies {c : AdminCall} {t : Option ℕ} (h : c.NamesRow texts settings t l.db.base)
    (he : (adminProtocol texts settings calls).Relies i l l') : c.NamesRow texts settings t l'.db.base := by
  induction he with
  | refl => exact h
  | tail _ hs ih =>
    cases hs with
    | gen => exact ih
    | commit =>
      intro id hid
      rw [tabled_base]
      exact (ih id hid).view _

/-- What has to hold when the body of a request has ended. -/
def Scoped (texts : AdminTexts) (settings : BillingSettings) (c : AdminCall) :
    Except AdminError AdminAnswer → AdminOwn → Prop
  | .error _, l => l.done = []
  | .ok a, l => l.done = [] ∧ Prepared texts settings c a.ledgerTxId l.base ∧
      ∃ event, TabledOp.rows l.log = [event] ∧ Audits texts settings c event a.ledgerTxId

/-- The end of the session of a request that has raised. -/
theorem scoped_raise {c : AdminCall} {x : AdminError} (h : Scoped texts settings c (.error x) l) :
    (adminProtocol texts settings calls).rg i (Ended texts settings c)
      (TxProg.rollback.bind fun _ => .raise x) l := by
  have h : l.done = [] := h
  refine Protocol.rg_rollback fun l₁ he₁ _ => Protocol.rg_raise fun l₂ he₂ _ => ?_
  show l₂.done = []
  rw [he₂.own.2.2.1, ← h]
  exact he₁.own.2.2.1

/-- The end of the session of a request that has an answer. -/
theorem scoped_commit {c : AdminCall} (hc : calls i = c) {a : AdminAnswer}
    (h : Scoped texts settings c (.ok a) l) :
    (adminProtocol texts settings calls).rg i (Ended texts settings c)
      (TxProg.commit.bind fun _ => .ret a) l := by
  obtain ⟨hdone, hprep, event, hrow, haudit⟩ := h
  refine Protocol.rg_commit fun l₁ he₁ _ _ => ?_
  have h₁ : Prepared texts settings c a.ledgerTxId l₁.base :=
    Prepared.stable.relies trivial hprep (Store.Relies.base he₁)
  have hrow₁ : TabledOp.rows l₁.log = [event] := by rw [he₁.own.1, hrow]
  have happlied : Applied texts settings c l₁.db l₁.log :=
    ⟨⟨⟨event, _, hrow₁, haudit⟩, h₁.ready.opened.subsLog, h₁.ready.accounted, h₁.credited⟩, h₁.known,
      h₁.ready.newKeys⟩
  have hmay : Applied texts settings (calls i) l₁.db l₁.log := by
    rw [hc]
    exact happlied
  refine ⟨hmay, Protocol.rg_ret fun l₂ he₂ _ => ⟨?_, l₁.log, event, ?_, hrow₁, haudit⟩⟩
  · refine names_relies (l := ⟨l₁.gen, l₁.view adminStore, [], l₁.mem, _⟩) ?_ he₂
    have hnames := h₁.names
    rwa [Own.base_view] at hnames
  · rw [he₂.own.2.2.1]
    show l₁.done ++ [l₁.log] = [l₁.log]
    rw [he₁.own.2.2.1, hdone]
    rfl

/-! ### The body -/

/-- The rule for what the billing services do. -/
theorem rg_billing {α β : Type} {p : BillingProg α} {f : α → AdminProg β}
    {Q : Except BillingError α → BillingOwn → Prop} {Q' : Except AdminError β → AdminOwn → Prop}
    (hp : p.Only Pool.IsStmt) (h : (free billingStore ι).rg i Q p l.base)
    (hok : ∀ a l', Q (.ok a) l'.base → TabledOp.rows l'.log = TabledOp.rows l.log →
      l'.done = l.done → (adminProtocol texts settings calls).rg i Q' (f a) l')
    (herr : ∀ x l', l'.done = l.done → Q' (.error x) l') :
    (adminProtocol texts settings calls).rg i Q' ((billing p).bind f) l := by
  refine Protocol.rg_bind trivial (Store.rg_lift hp h fun o l' _ hq hrows hdone => ?_)
  cases o with
  | ok a => exact hok a l' hq hrows hdone
  | error x => exact Protocol.rg_raise fun l'' he _ => herr _ _ (he.own.2.2.1.trans hdone)

/-- The check of the user. -/
theorem requireUserExists_rg {c : AdminCall} {f : Unit → AdminProg AdminAnswer} (hlog : l.log = [])
    (hdone : l.done = []) (hf : ∀ l', l'.base.log = [] → TabledOp.rows l'.log = [] → l'.done = [] →
      Known c.userId l'.base →
      (adminProtocol texts settings calls).rg i (Scoped texts settings c) (f ()) l') :
    (adminProtocol texts settings calls).rg i (Scoped texts settings c)
      ((requireUserExists c.userId).bind f) l := by
  have hread : (free billingStore ι).rg i (fun o lb => lb.log = [] ∧ (o = .ok true → Known c.userId lb))
      (userExists c.userId) l.base := by
    refine rg_read (fun _ _ _ => rfl) fun l₁ he₁ _ => Protocol.rg_ret fun l₂ he₂ _ => ?_
    have hlog₁ : l₁.log = [] := by
      rw [he₁.own.1, Own.base, hlog]
      rfl
    refine ⟨he₂.own.1.trans hlog₁, fun hb => (known_stable c.userId).relies trivial ?_ he₂⟩
    have hb : (l₁.view billingStore).users c.userId = true := Except.ok.inj hb
    rwa [Own.view, hlog₁] at hb
  simp only [requireUserExists, bind_eq, bind_assoc, pure_eq, throw_eq]
  refine rg_billing ⟨⟨_, rfl⟩, fun _ => trivial⟩ hread (fun b l' hq hrows hdone' => ?_)
    fun x l' hdone' => hdone'.trans hdone
  rw [hlog] at hrows
  cases b with
  | true => exact hf l' hq.1 hrows (hdone'.trans hdone) (hq.2 rfl)
  | false => exact Protocol.rg_raise fun l₂ he₂ _ => he₂.own.2.2.1.trans (hdone'.trans hdone)

theorem grant_stmts {u : ℕ} {amount : ℤ} {key : IdemKey} {metaData : Json} {reason : String} :
    (Billing.grant u amount key metaData reason).Only Pool.IsStmt :=
  Wallet.grant_only.embed fun e he => by
    obtain ⟨s, rfl⟩ := he
    exact ⟨.wallet s, rfl⟩

/-- The grant of a request. -/
theorem granted_rg {pr : Protocol billingStore ι} {l : BillingOwn} {c : AdminCall} {metaData : Json}
    {reason : String} (hinv : pr.inv l.gen l.db) (hcredits : c.Credits settings)
    (hrow : ∀ id, c.creditRow texts settings id = ⟨id, c.userId, .credit, (c.credit texts settings).2,
      metaData, (c.credit texts settings).1⟩)
    (hreason : c.creditReason = reason) (hknown : Known c.userId l)
    (h : Clean [] [] c.subscriptionOps [] l) :
    pr.rg i (fun o l' => ∀ res, o = .ok res → Prepared texts settings c (some res.ledgerTxId) l')
      (Billing.grant c.userId (c.credit texts settings).2 (c.credit texts settings).1 metaData reason)
      l := by
  have hready : pr.rg i (fun o l' => ∀ res, o = .ok res → Billing.Ready [] [] c.subscriptionOps []
      (c.Credits settings) (c.creditRow texts settings) l')
      (Billing.grant c.userId (c.credit texts settings).2 (c.credit texts settings).1 metaData reason)
      l := by
    rw [← bind_ret (Billing.grant c.userId _ _ metaData reason)]
    refine h.grant_rg hcredits (fun x l _ res h => by cases h) hinv fun res l₁ hi₁ _ h₁ => ?_
    refine Protocol.rg_ret fun l₂ he₂ _ _ _ => ?_
    rw [show c.creditRow texts settings = _ from funext hrow]
    exact Ready.stable.relies hi₁ h₁ he₂
  have hkept : pr.rg i (fun _ l' => Known c.userId l')
      (Billing.grant c.userId (c.credit texts settings).2 (c.credit texts settings).1 metaData reason)
      l :=
    Protocol.rg_of_keeps (known_stable _) (fun e he => he) (fun _ _ _ _ _ _ _ h _ => h) grant_stmts hinv
      hknown
  refine Protocol.rg_mono (fun o l' _ hq res ho => ⟨hq.1, hq.2.1 res ho, fun id hid => ?_, ?_⟩)
    (Protocol.rg_and hkept (Protocol.rg_and hready
      (Protocol.rg_and grant_answered (grant_recorded (.of_nil h.2)))))
  · obtain rfl := Option.some.inj hid
    exact hq.2.2.1 res ho
  · rw [hreason]
    exact hq.2.2.2 res ho

/-- The audit event, and the answer. -/
theorem record_rg {c : AdminCall} {event : AdminEvent} {a : AdminAnswer} (hdone : l.done = [])
    (hrows : TabledOp.rows l.log = []) (h : Prepared texts settings c a.ledgerTxId l.base)
    (haudit : Audits texts settings c event.redacted a.ledgerTxId) :
    (adminProtocol texts settings calls).rg i (Scoped texts settings c)
      ((recordAdmin event).bind fun _ => .ret a) l := by
  refine Store.rg_insertRow fun l₁ he₁ hi₁ => Protocol.rg_ret fun l₂ he₂ _ => ?_
  have hlog : l₂.log = l.log ++ [.insert event.redacted] := by
    rw [he₂.own.1, ← he₁.own.1]
    rfl
  have h₁ : Prepared texts settings c a.ledgerTxId (l₁.write [.insert event.redacted]).base := by
    have hbase : (l₁.write [.insert event.redacted]).base = l₁.base := by simp [Own.base, Own.write]
    rw [hbase]
    exact Prepared.stable.relies trivial h (Store.Relies.base he₁)
  refine ⟨?_, Prepared.stable.relies trivial h₁ (Store.Relies.base he₂), event.redacted, ?_, haudit⟩
  · rw [he₂.own.2.2.1, ← hdone]
    exact he₁.own.2.2.1
  · rw [hlog, TabledOp.rows_append, hrows]
    rfl

/-- A transaction that has written nothing. -/
theorem clean_of_nil {l : BillingOwn} (hlog : l.log = []) (hdone : l.done = []) : Clean [] [] [] [] l := by
  refine ⟨⟨?_, ?_, ?_, hdone, ?_, ?_⟩, ?_⟩ <;> simp [hlog, adaptyRows, cloudPaymentsRows, walletOps,
    subscriptionOps]

theorem base_done (h : l.done = []) : l.base.done = [] := by simp [Own.base, h]

theorem grant_rg {u : ℕ} {amount : ℤ} {key : IdemKey} {reason : String} (hlog : l.log = [])
    (hdone : l.done = []) : (adminProtocol texts settings calls).rg i
      (Scoped texts settings (.grant u amount key reason))
      (AdminCall.prog texts settings (.grant u amount key reason)) l := by
  simp only [AdminCall.prog, grant, bind_eq, pure_eq, bind_assoc, ret_bind]
  refine requireUserExists_rg (c := .grant u amount key reason) hlog hdone
    fun l₁ hlog₁ hrows₁ hdone₁ hk => ?_
  have hgrant : (free billingStore ι).rg i (fun o l' => ∀ res, o = .ok res →
      Prepared texts settings (.grant u amount key reason) (some res.ledgerTxId) l')
      (Billing.grant u amount key (.obj [("source", .str "admin"), ("reason", .str reason)]) reason)
      l₁.base :=
    granted_rg trivial trivial (fun _ => rfl) rfl hk (clean_of_nil hlog₁ (base_done hdone₁))
  refine rg_billing grant_stmts hgrant (fun res l₂ hq hrows hdone' => ?_)
    fun x l₂ hdone' => hdone'.trans hdone₁
  exact record_rg (a := .grant ⟨res.newBalance, res.ledgerTxId, res.idempotentReplay⟩)
    (hdone'.trans hdone₁) (hrows.trans hrows₁) (hq res rfl) (.grant res)

/-- The subscription of a request. -/
theorem upsert_rg {pr : Protocol billingStore ι} {l : BillingOwn} {u v : ℕ} {row : Subscription}
    (hinv : pr.inv l.gen l.db) (hlog : l.log = []) (hdone : l.done = []) (hknown : Known v l) :
    pr.rg i (fun _ l' => Clean [] [] [.putSubscription u row] [] l' ∧ Known v l')
      (Billing.upsertSubscription u row) l := by
  refine rg_write (fun _ _ _ => rfl) fun l₁ he₁ hi₁ => Protocol.rg_ret fun l₂ he₂ _ => ?_
  have hlog₂ : l₂.log = [.putSubscription u row] := by
    rw [he₂.own.1, Own.write, he₁.own.1, hlog]
    rfl
  have hdone₂ : l₂.done = [] := by
    rw [he₂.own.2.2.1, ← hdone]
    exact he₁.own.2.2.1
  have hknown₁ : Known v l₁ := (known_stable v).relies hinv hknown he₁
  refine ⟨⟨⟨?_, ?_, ?_, hdone₂, ?_, ?_⟩, ?_⟩, (known_stable v).relies (l := l₁.write _) hi₁ hknown₁ he₂⟩
    <;> simp [hlog₂, adaptyRows, cloudPaymentsRows, walletOps, subscriptionOps]

theorem grantCredits_stmts {u : ℕ} {credits : ℤ} {key : IdemKey} :
    (grantCredits texts u credits key).Only Pool.IsStmt := by
  unfold grantCredits
  split
  · exact grant_stmts.bind fun _ => trivial
  · trivial

/-- The credits of a subscription. -/
theorem grantCredits_rg {pr : Protocol billingStore ι} {l : BillingOwn} {u : ℕ} {expiresAt : Time}
    {plan : String} {key : IdemKey} {credits : Option ℤ} (hinv : pr.inv l.gen l.db) (hknown : Known u l)
    (h : Clean [] [] [.putSubscription u ⟨.active, some plan, some expiresAt⟩] [] l) :
    pr.rg i (fun o l' => ∀ result, o = .ok result →
        result.isSome = decide (0 < effectiveCredits settings credits) ∧
          Prepared texts settings (.grantSubscription u expiresAt plan key credits)
            (result.map (·.ledgerTxId)) l')
      (grantCredits texts u (effectiveCredits settings credits) key) l := by
  unfold grantCredits
  split
  · rename_i hpos
    have hgrant : pr.rg i (fun o l' => ∀ res, o = .ok res →
        Prepared texts settings (.grantSubscription u expiresAt plan key credits) (some res.ledgerTxId) l')
        (Billing.grant u (effectiveCredits settings credits) (subscriptionKey texts key) (.obj
          [("source", .str "admin"), ("reason", .str "admin_subscription_grant")])
          "admin_subscription_grant") l :=
      granted_rg hinv hpos (fun _ => rfl) rfl hknown h
    refine Protocol.rg_bind hinv (Protocol.rg_mono (fun o l' hi hq => ?_) hgrant)
    cases o with
    | error x => exact Protocol.rg_raise fun _ _ _ _ h => by cases h
    | ok res =>
      refine Protocol.rg_ret fun l'' he _ result hres => ?_
      obtain rfl := Except.ok.inj hres
      exact ⟨by simp [hpos], Prepared.stable.relies hi (hq res rfl) he⟩
  · rename_i hpos
    refine Protocol.rg_ret fun l' he _ result hres => ?_
    obtain rfl := Except.ok.inj hres
    refine ⟨by simp [hpos], Prepared.stable.relies hinv ⟨hknown, h.ready, fun id hid => ?_, .of_nil h.2⟩ he⟩
    cases hid

theorem grantSubscription_rg {u : ℕ} {expiresAt : Time} {plan : String} {key : IdemKey}
    {credits : Option ℤ} (hlog : l.log = []) (hdone : l.done = []) :
    (adminProtocol texts settings calls).rg i
      (Scoped texts settings (.grantSubscription u expiresAt plan key credits))
      (AdminCall.prog texts settings (.grantSubscription u expiresAt plan key credits)) l := by
  simp only [AdminCall.prog, grantSubscription, bind_eq, pure_eq, bind_assoc, ret_bind]
  refine requireUserExists_rg (c := .grantSubscription u expiresAt plan key credits) hlog hdone
    fun l₁ hlog₁ hrows₁ hdone₁ hk => ?_
  refine rg_billing ⟨⟨_, rfl⟩, fun _ => trivial⟩ (upsert_rg trivial hlog₁ (base_done hdone₁) hk)
    (fun _ l₂ hq₂ hrows₂ hdone₂ => ?_) fun x l₂ hdone₂ => hdone₂.trans hdone₁
  refine rg_billing grantCredits_stmts (grantCredits_rg trivial hq₂.2 hq₂.1)
    (fun result l₃ hq₃ hrows₃ hdone₃ => ?_) fun x l₃ hdone₃ => hdone₃.trans (hdone₂.trans hdone₁)
  obtain ⟨hsome, hprep⟩ := hq₃ result rfl
  exact record_rg (a := .subscription ⟨expiresAt, plan, _, _, _, _⟩)
    (hdone₃.trans (hdone₂.trans hdone₁)) (hrows₃.trans (hrows₂.trans hrows₁)) hprep
    (.subscription result hsome)

/-- **One request among others.** -/
theorem serve_rg (hlog : l.log = []) (hdone : l.done = []) :
    (adminProtocol texts settings calls).rg i (Ended texts settings (calls i))
      ((calls i).serve texts settings) l := by
  refine Protocol.rg_sessionScope trivial (Protocol.rg_mono (Q := Scoped texts settings (calls i))
    (fun o l' _ hq => ?_) ?_)
  · cases o with
    | ok a => exact scoped_commit rfl hq
    | error x => exact scoped_raise hq
  · cases calls i with
    | grant u amount key reason => exact grant_rg hlog hdone
    | grantSubscription u expiresAt plan key credits => exact grantSubscription_rg hlog hdone

end Requests

/-! ## All requests -/

section Run

variable {ι : Type} {texts : AdminTexts} {settings : BillingSettings} {calls : ι → AdminCall}

/-- What the commits of requests have done to the tables. -/
structure Recorded (texts : AdminTexts) (settings : BillingSettings) (calls : ι → AdminCall)
    (d₀ : AdminDb) (hist : List (ι × List AdminOp)) (d : AdminDb) : Prop where
  whole : ∀ c ∈ hist, Whole texts settings (calls c.1) c.2
  known : ∀ c ∈ hist, d₀.base.users (calls c.1).userId = true
  /-- A key of a user is credited once. -/
  creditOnce : hist.Pairwise fun c c' => ∀ r ∈ ledgerRows (TabledOp.ops c.2),
    ∀ r' ∈ ledgerRows (TabledOp.ops c'.2), r.key ≠ r'.key
  creditNew : ∀ c ∈ hist, ∀ r ∈ ledgerRows (TabledOp.ops c.2), ∀ r₀ ∈ d₀.base.accounts.ledger,
    r₀.key ≠ r.key
  ledger : d.base.accounts.ledger =
    d₀.base.accounts.ledger ++ hist.flatMap fun c => ledgerRows (TabledOp.ops c.2)
  balance : ∀ u, d.base.accounts.balance u = d₀.base.accounts.balance u +
    net u (hist.flatMap fun c => ledgerRows (TabledOp.ops c.2))
  audit : d.rows = d₀.rows ++ hist.flatMap fun c => TabledOp.rows c.2
  creditAudit : d.base.accounts.audit =
    d₀.base.accounts.audit ++ hist.flatMap fun c => audits (walletOps (TabledOp.ops c.2))

variable {d₀ d : AdminDb} {hist : List (ι × List AdminOp)}

theorem ledger_adminView (log : List AdminOp) (d : AdminDb) :
    (adminStore.view log d).base.accounts.ledger =
      d.base.accounts.ledger ++ ledgerRows (TabledOp.ops log) := by
  rw [tabled_base, ledger_view]

theorem audit_adminView (log : List AdminOp) (d : AdminDb) :
    (adminStore.view log d).base.accounts.audit =
      d.base.accounts.audit ++ audits (walletOps (TabledOp.ops log)) := by
  rw [tabled_base, accounts_view, audit_applyAll]

/-- No request makes or deletes a user. -/
theorem users_commits {may : ι → ℕ × Time → AdminDb → List AdminOp → Prop}
    (h : Store.Commits adminStore may d₀ hist d) : d.base.users = d₀.base.users := by
  induction h with
  | nil => rfl
  | snoc _ _ ih => rw [tabled_base, (users_view _ _).1, ih]

/-- The commits that the protocol allows. -/
theorem Recorded.of_commits
    (h : Store.Commits adminStore (adminProtocol texts settings calls).may d₀ hist d) :
    Recorded texts settings calls d₀ hist d := by
  have hcredit := h.once (fun d => d.base.accounts.ledger) LedgerTransaction.key ledger_adminView
    fun i g d log hm => hm.newKeys
  have hbase : Store.Commits billingStore (fun _ _ _ log => Balanced (walletOps log)) d₀.base _ d.base :=
    h.base fun i g d log hm => hm.whole.accounted.balanced
  have hrows : creditedRows (hist.map fun c => (c.1, TabledOp.ops c.2)) =
      hist.flatMap fun c => ledgerRows (TabledOp.ops c.2) := by
    simp [creditedRows, List.flatMap_map]
  refine ⟨h.forall_mem fun i g d log hm => hm.whole, ?_, hcredit.1, hcredit.2, ?_, fun u => ?_,
    h.table_eq Tabled.rows (tabled_rows billingStore),
    h.table_eq (fun d : AdminDb => d.base.accounts.audit) audit_adminView⟩
  · intro c hc
    obtain ⟨before, d₁, g, -, hbefore, hm, -⟩ := h.exists_of_mem hc
    have husers : d₁.base.users = d₀.base.users := users_commits hbefore
    rw [← husers]
    exact hm.known
  · rw [← hrows]
    exact ledger_commits hbase
  · rw [← hrows]
    exact balance_commits (fun _ _ _ _ hm => hm) hbase u

/-- The keys of the ledger stay unique. -/
theorem Recorded.unique (h : Recorded texts settings calls d₀ hist d)
    (hunique : d₀.base.accounts.ledger.Pairwise fun r r' => r.key ≠ r'.key) :
    d.base.accounts.ledger.Pairwise fun r r' => r.key ≠ r'.key := by
  rw [h.ledger, List.pairwise_append]
  refine ⟨hunique, List.pairwise_flatMap.2 ⟨fun c hc => ?_, h.creditOnce⟩, fun r hr r' hr' => ?_⟩
  · obtain hnil | ⟨-, id, hone⟩ := (h.whole c hc).accounted.ledger
    · rw [hnil]
      exact .nil
    · rw [hone]
      exact List.pairwise_singleton _ _
  · obtain ⟨c, hc, hr'⟩ := List.mem_flatMap.1 hr'
    exact h.creditNew c hc r' hr' r hr

abbrev AdminPool (ι : Type) : Type := Pool ι AdminStmt (TabledStmt.Resp BillingStmt.Resp) AdminDb AdminOp
  (ℕ × Time) Unit AdminError AdminAnswer

/-- Requests of operators, about to be served. -/
def operators (texts : AdminTexts) (settings : BillingSettings) (g : ℕ × Time) (d : AdminDb)
    (calls : ι → AdminCall) : AdminPool ι :=
  Pool.begin g d () fun i => (calls i).serve texts settings

variable [DecidableEq ι] {g : ℕ × Time} {P : AdminPool ι}

theorem operators_keeps (hr : (operators texts settings g d₀ calls).Reaches adminStore P) :
    Pool.Keeps (adminProtocol texts settings calls) (fun i => Ended texts settings (calls i)) d₀ P :=
  Pool.ReachesIf.keeps (hr.reachesIf fun _ _ _ => trivial)
    (Pool.begin_keeps trivial fun _ => serve_rg rfl rfl)

/-- **Grants of operators.** In every run of admin requests, in any interleaving and with a failure at
any point, every commit is the whole of one request for a user that exists, with an event of the wallet
for each row of the ledger and one of the request; a key of a user is credited once and the balances move
with the ledger (`Recorded`); a request that is answered has committed once, with its audit event, and
the event and the answer name the row of its key in the ledger; and a request
that is refused has committed nothing. -/
theorem admin_grants (hr : (operators texts settings g d₀ calls).Reaches adminStore P) :
    Recorded texts settings calls d₀ P.hist P.db ∧
      (∀ i a, (P.thr i).prog = some (.ret a) →
        (calls i).NamesRow texts settings a.ledgerTxId P.db.base ∧ ∃ log event, P.commitsOf i = [log] ∧
          TabledOp.rows log = [event] ∧ Audits texts settings (calls i) event a.ledgerTxId) ∧
      ∀ i x, (P.thr i).prog = some (.raise x) → P.commitsOf i = [] := by
  have hkeeps := operators_keeps hr
  exact ⟨.of_commits hkeeps.run, fun i a hi => hkeeps.result hi,
    fun i x hi => hkeeps.thr i _ hi _ .refl hkeeps.inv⟩

/-- The answer of a request that credits names a row. -/
theorem Audits.names {c : AdminCall} {event : AdminEvent} {t : Option ℕ}
    (h : Audits texts settings c event t) (hc : c.Credits settings) : ∃ id, t = some id := by
  cases h with
  | grant result => exact ⟨_, rfl⟩
  | subscription result hsome =>
    have hsome : result.isSome = true := by simpa [AdminCall.Credits] using hsome.trans (decide_eq_true hc)
    obtain ⟨r, rfl⟩ := Option.isSome_iff_exists.1 hsome
    exact ⟨_, rfl⟩

/-- **Idempotency.** Two requests that credit the same key of the same user and are both answered,
whenever and however they are interleaved, have the same amount and name the same row of the ledger: a
key that is used again with another amount is refused. -/
theorem admin_idempotent (hunique : d₀.base.accounts.ledger.Pairwise fun r r' => r.key ≠ r'.key)
    (hr : (operators texts settings g d₀ calls).Reaches adminStore P) {i j : ι} {a b : AdminAnswer}
    (hi : (P.thr i).prog = some (.ret a)) (hj : (P.thr j).prog = some (.ret b))
    (hci : (calls i).Credits settings) (hcj : (calls j).Credits settings)
    (huser : (calls i).userId = (calls j).userId)
    (hkey : ((calls i).credit texts settings).1 = ((calls j).credit texts settings).1) :
    a.ledgerTxId = b.ledgerTxId ∧
      ((calls i).credit texts settings).2 = ((calls j).credit texts settings).2 := by
  have hkeeps := operators_keeps hr
  have hnames : ∀ {i a}, (P.thr i).prog = some (.ret a) → (calls i).Credits settings →
      ∃ row ∈ P.db.base.accounts.ledger, a.ledgerTxId = some row.id ∧
        row.key = ((calls i).userId, ((calls i).credit texts settings).1) ∧
        row.amount = ((calls i).credit texts settings).2 := by
    intro i a hi hc
    obtain ⟨hnames, -, event, -, -, haudit⟩ : Ended texts settings (calls i) (.ok a) (P.own i) :=
      hkeeps.result hi
    obtain ⟨id, hid⟩ := haudit.names hc
    obtain ⟨row, hrow, rfl, hkey, -, hamount⟩ := hnames id hid
    exact ⟨row, hrow, hid, hkey, hamount⟩
  obtain ⟨row, hrow, hid, hk, hamount⟩ := hnames hi hci
  obtain ⟨row', hrow', hid', hk', hamount'⟩ := hnames hj hcj
  have hnodup := (Recorded.of_commits hkeeps.run).unique hunique
  have hsame : row = row' := by
    refine List.inj_on_of_nodup_map (f := LedgerTransaction.key) (List.pairwise_map.2 hnodup) hrow hrow' ?_
    rw [hk, hk', huser, hkey]
  subst hsame
  exact ⟨hid.trans hid'.symm, hamount.symm.trans hamount'⟩

end Run

/-! ## Runs -/

/-- Texts of keys that are texts. -/
def plainTexts : AdminTexts where
  key
    | .text s => s
    | .uuid _ => ""
  isoformat _ := ""

/-- A grant, and the same grant again. -/
def twice : Fin 2 → AdminCall := fun _ => .grant 7 50 (.text "ticket") "sorry for the trouble"

/-- The event does not tell the idempotency key. -/
def hidesKey (e : AdminEvent) : Bool :=
  match e.payload.get "idempotencyKey" with
  | some (.str s) => s = "***REDACTED***"
  | _ => false

/-- Both are answered, and the key is credited once, with one event of the wallet and one of each request,
which do not tell the key. -/
def grantedOnce (P : AdminPool (Fin 2)) : Bool :=
  P.db.base.accounts.ledger.map (·.amount) = [50] && P.db.base.accounts.audit.length = 1 &&
    P.db.rows.length = 2 && P.db.rows.all hidesKey &&
    match (P.thr 0).prog, (P.thr 1).prog with
      | some (.ret _), some (.ret _) => true
      | _, _ => false

theorem grantedOnce_reached : ∃ P : AdminPool (Fin 2),
    (operators plainTexts .unmapped (0, 0) ⟨emptyTables, []⟩ twice).Reaches adminStore P ∧
      grantedOnce P = true := by
  have hplay : (Pool.play (billingHandler.tabled AdminEvent) [0, 1]
      [0, 1, 0, 0, 0, 0, 0, 0, 1, 1, 1, 1, 1, 1]
      (operators plainTexts .unmapped (0, 0) ⟨emptyTables, []⟩ twice) ()).any
      (fun r => grantedOnce r.1) = true := by decide +kernel
  exact Pool.exists_of_play (by decide) hplay

theorem admin_grants_twice : ∃ P : AdminPool (Fin 2), grantedOnce P = true ∧
    Recorded plainTexts .unmapped twice ⟨emptyTables, []⟩ P.hist P.db := by
  obtain ⟨P, hP, honce⟩ := grantedOnce_reached
  exact ⟨P, honce, (admin_grants hP).1⟩

theorem admin_idempotent_twice : ∃ (P : AdminPool (Fin 2)) (a b : AdminAnswer), grantedOnce P = true ∧
    (P.thr 0).prog = some (.ret a) ∧ (P.thr 1).prog = some (.ret b) ∧ a.ledgerTxId = b.ledgerTxId := by
  obtain ⟨P, hP, honce⟩ := grantedOnce_reached
  have honce' := honce
  simp only [grantedOnce, Bool.and_eq_true] at honce'
  have hlast := honce'.2
  split at hlast
  · rename_i a b ha hb
    exact ⟨P, a, b, honce, ha, hb, (admin_idempotent .nil hP ha hb trivial trivial rfl rfl).1⟩
  · cases hlast

end ChatBackend.Admin

import ChatBackend.Billing.StoreKit
import ChatBackend.Billing.Crediting

/-!
# The credits of StoreKit transactions

The ledger has one row for a key of a user, and the two services use two keys for a transaction: a
transaction that a second account presents, or the other service, is credited again, and a purchase
does not look at `revoked` (`storekit_credits_fails`). Where no call is of that kind, a transaction
is credited once over all users, and a revoked one neither adds credits nor access
(`storekit_credits`).
-/

namespace ChatBackend.Billing.StoreKit

open Prog Store Wallet Policy

/-- A call of one of the two services. -/
inductive Call : Type
  | sync (userId : ℕ) (signedTransaction : String)
  | purchase (userId : ℕ) (signedTransaction : String)

inductive Answer : Type
  | subscription (result : SubscriptionResult)
  | purchase (result : PurchaseResult)

namespace Call

def userId : Call → ℕ
  | sync u _ => u
  | purchase u _ => u

def signedTransaction : Call → String
  | sync _ s => s
  | purchase _ s => s

/-- The method of the service. -/
def method (verify : Verifier) (settings : BillingSettings) : Call → BillingProg Answer
  | sync u s => do
    let result ← StoreKit.sync verify settings u s
    pure (.subscription result)
  | purchase u s => do
    let result ← StoreKit.purchase verify settings u s
    pure (.purchase result)

/-- A call, in its session. -/
def serve (verify : Verifier) (settings : BillingSettings) (c : Call) : BillingProg Answer :=
  TxProg.sessionScope (c.method verify settings)

end Call

/-- The row credits the transaction. -/
def Credits (txn : String) (row : LedgerTransaction) : Prop :=
  row.idempotencyKey = syncKey txn ∨ row.idempotencyKey = purchaseKey txn

/-- No transaction is credited by two rows. -/
def CreditedOnce (d : BillingDb) : Prop :=
  d.accounts.ledger.Pairwise fun r r' => ∀ txn, Credits txn r → ¬ Credits txn r'

/-- The transaction is credited by no row. -/
def Uncredited (d : BillingDb) (txn : String) : Prop :=
  ∀ r ∈ d.accounts.ledger, ¬ Credits txn r

/-- The calls that do not credit a transaction again, and do not credit a revoked one: where the
call has to credit its transaction (the key of the user is new), no row credits it; and the
transaction of a purchase that has to credit it is not revoked. -/
def Sound (verify : Verifier) (settings : BillingSettings) (g : ℕ × Time) (d : BillingDb) :
    Call → Prop
  | .sync u s => ∀ v, verify s = some v → activeAt g.2 v = true →
    (∀ r ∈ d.accounts.ledger, r.key ≠ (u, syncKey v.transactionId)) → Uncredited d v.transactionId
  | .purchase u s => ∀ v, verify s = some v →
    effectiveSubscriptionStatus g.2 (d.subscriptions u) = .active →
    (settings.tokenProducts.get v.productId).isSome →
    (∀ r ∈ d.accounts.ledger, r.key ≠ (u, purchaseKey v.transactionId)) →
    v.revoked = false ∧ Uncredited d v.transactionId

/-- The row that a sync credits. -/
def syncRow (settings : BillingSettings) (u : ℕ) (v : VerifiedTransaction) (id : ℕ) :
    LedgerTransaction :=
  ⟨id, u, .credit, settings.subscriptionCreditsPerPeriod,
    .obj [("reason", .str "subscription_period"), ("transactionId", .str v.transactionId),
      ("productId", .str v.productId)], syncKey v.transactionId⟩

/-- The row that a purchase credits. -/
def purchaseRow (u : ℕ) (v : VerifiedTransaction) (credits : ℤ) (id : ℕ) : LedgerTransaction :=
  ⟨id, u, .credit, credits,
    .obj [("source", .str "token_purchase"), ("productId", .str v.productId),
      ("transactionId", .str v.transactionId)], purchaseKey v.transactionId⟩

/-- The writes of a verified transaction, found by a call at the time `t₀`. -/
def Writes (settings : BillingSettings) (t₀ : Time) (d : BillingDb) (v : VerifiedTransaction)
    (log : List BillingOp) : Call → Prop
  | .sync u _ => ∃ t, t₀ ≤ t ∧
    subscriptionOps log = flushOps u (wanted v (activeAt t v)) (d.subscriptions u) ∧
    Accounted (activeAt t v = true) (syncRow settings u v) log
  | .purchase u _ => ∃ credits, settings.tokenProducts.get v.productId = some credits ∧
    effectiveSubscriptionStatus t₀ (d.subscriptions u) = .active ∧ subscriptionOps log = [] ∧
    Accounted True (purchaseRow u v credits) log

/-- The protocol of one call on its own. -/
def callProtocol (verify : Verifier) (settings : BillingSettings) (c : Call) (t₀ : Time)
    (d₀ : BillingDb) : Protocol billingStore Unit where
  inv g _ := t₀ ≤ g.2
  may _ _ d log := log = [] ∨ ∃ v, verify c.signedTransaction = some v ∧
    Writes settings t₀ d₀ v log c ∧ ∀ row ∈ ledgerRows log, ∀ r ∈ d.accounts.ledger, r.key ≠ row.key
  test _ _ _ := True
  inv_gen hg h := h.trans hg.2
  inv_commit h _ := h

/-- A subscription that is active later is active now. -/
theorem effectiveSubscriptionStatus_mono {t₀ t : Time} (ht : t₀ ≤ t) {row : Option Subscription}
    (h : effectiveSubscriptionStatus t row = .active) :
    effectiveSubscriptionStatus t₀ row = .active := by
  unfold effectiveSubscriptionStatus at h ⊢
  rcases row with _ | ⟨_ | _ | _, plan, _ | e⟩
  all_goals first
    | exact h
    | skip
  dsimp only at h ⊢
  split at h
  · cases h
  · rename_i hlt
    rw [if_neg (fun hle => hlt (hle.trans ht))]

/-- A transaction that gives access later gives it now. -/
theorem activeAt_mono {t₀ t : Time} (ht : t₀ ≤ t) {v : VerifiedTransaction}
    (h : activeAt t v = true) : activeAt t₀ v = true := by
  unfold activeAt at h ⊢
  rw [Bool.and_eq_true] at h ⊢
  refine ⟨h.1, ?_⟩
  cases he : v.expiresAt with
  | none => simp [he] at h
  | some e =>
    have hlt : t < e := by simpa [he] using h.2
    simpa using lt_of_le_of_lt ht hlt

section Programs

variable {verify : Verifier} {settings : BillingSettings} {c : Call} {t₀ : Time} {d₀ : BillingDb}
variable {l : BillingOwn}

/-- No other session is there to commit. -/
theorem relies_db {l l' : BillingOwn} (h : (callProtocol verify settings c t₀ d₀).Relies () l l') :
    l'.db = l.db := by
  induction h with
  | refl => rfl
  | tail _ hs ih =>
    cases hs with
    | gen => exact ih
    | @commit j _ hj => exact absurd (Subsingleton.elim j ()) hj

/-- What the call reads before it has written. -/
theorem subscriptions_opened {l' : BillingOwn}
    (h : (callProtocol verify settings c t₀ d₀).Relies () l l') (hdb : l.db = d₀)
    (hlog : l.log = []) : (l'.view billingStore).subscriptions = d₀.subscriptions := by
  show (billingStore.view l'.log l'.db).subscriptions = _
  rw [h.own.1, hlog, relies_db h, hdb]
  rfl

/-- The call has committed at most once. -/
def Once {α : Type} (_ : Except BillingError α) (l : BillingOwn) : Prop := l.done.length ≤ 1

/-- What has to hold when the method has ended. -/
def Scoped (verify : Verifier) (settings : BillingSettings) (c : Call) (t₀ : Time)
    (d₀ : BillingDb) {α : Type} : Except BillingError α → BillingOwn → Prop
  | .ok a, l => (callProtocol verify settings c t₀ d₀).rg () Once
      (TxProg.commit.bind fun _ => .ret a) l
  | .error x, l => (callProtocol verify settings c t₀ d₀).rg () Once
      (TxProg.rollback.bind fun _ => (.raise x : BillingProg α)) l

theorem Scoped.raise {α : Type} (x : BillingError) (h : l.done = []) :
    Scoped verify settings c t₀ d₀ (.error x : Except BillingError α) l := by
  refine Protocol.rg_rollback fun l₁ he₁ _ => Protocol.rg_raise fun l₂ he₂ _ => ?_
  show l₂.done.length ≤ 1
  have hdone : l₂.done = [] := (he₂.own.2.2.1).trans (he₁.own.2.2.1.trans h)
  simp [hdone]

/-- The open transaction when it can be committed. -/
def Written (verify : Verifier) (settings : BillingSettings) (c : Call) (t₀ : Time)
    (d₀ : BillingDb) (l : BillingOwn) : Prop :=
  (l.done = [] ∧ ∃ v, verify c.signedTransaction = some v ∧ Writes settings t₀ d₀ v l.log c) ∧
    NewKeys l

theorem Written.stable {pr : Protocol billingStore Unit} :
    Protocol.Stable pr () (Written verify settings c t₀ d₀) :=
  (Protocol.Stable.own fun log done => done = [] ∧ ∃ v, verify c.signedTransaction = some v ∧
    Writes settings t₀ d₀ v log c).and NewKeys.stable

theorem Written.scoped {α : Type} {a : α} (hinv : t₀ ≤ l.gen.2)
    (h : Written verify settings c t₀ d₀ l) : Scoped verify settings c t₀ d₀ (.ok a) l := by
  refine Protocol.rg_commit fun l₁ he₁ _ _ => ?_
  obtain ⟨⟨hdone, hwrites⟩, hkeys⟩ := Written.stable.relies hinv h he₁
  obtain ⟨v, hv, hwrites⟩ := hwrites
  refine ⟨.inr ⟨v, hv, hwrites, hkeys⟩, Protocol.rg_ret fun l₂ he₂ _ => ?_⟩
  have hdone₂ : l₂.done = [l₁.log] := by
    rw [he₂.own.2.2.1]
    show l₁.done ++ [l₁.log] = _
    rw [hdone]
    rfl
  show l₂.done.length ≤ 1
  simp [hdone₂]

/-- A transaction that has written nothing. -/
theorem Clean.fresh (hlog : l.log = []) (hdone : l.done = []) : Clean [] [] [] [] l :=
  ⟨⟨by rw [hlog]; rfl, by rw [hlog]; rfl, by rw [hlog]; rfl, hdone, nofun, nofun⟩,
    by rw [hlog]; rfl⟩

/-- The method of a sync. -/
theorem sync_rg {u : ℕ} {signed : String} (hdb : l.db = d₀) (hlog : l.log = [])
    (hdone : l.done = []) :
    (callProtocol verify settings (.sync u signed) t₀ d₀).rg ()
      (Scoped verify settings (.sync u signed) t₀ d₀)
      ((Call.sync u signed).method verify settings) l := by
  simp only [Call.method, sync, bind_eq, pure_eq]
  cases hv : verify signed with
  | none => exact Protocol.rg_raise fun _ he _ => .raise _ (he.own.2.2.1.trans hdone)
  | some v =>
    simp only [now, reconcile, readSubscription, TxProg.stmt, bind_eq, pure_eq, act_bind, ret_bind,
      bind_assoc]
    refine rg_read (fun _ _ _ => rfl) fun l₁ he₁ hi₁ => ?_
    simp only [BillingStmt.run]
    have hclean₁ : Clean [] [] [] [] l₁ := Clean.fresh (he₁.own.1.trans hlog)
      (he₁.own.2.2.1.trans hdone)
    refine rg_read (fun _ _ _ => rfl) fun l₂ he₂ hi₂ => ?_
    have hclean₂ := Clean.stable.relies hi₁ hclean₁ he₂
    have hview : (l₂.view billingStore).subscriptions = d₀.subscriptions :=
      subscriptions_opened (he₁.trans he₂) hdb hlog
    simp only [BillingStmt.run, hview]
    refine flush_rg (fun x l hl => Scoped.raise x hl) hi₂ hclean₂ _ _ _ fun l₃ hi₃ hclean₃ => ?_
    -- the credits and the audit row
    have haudit : ∀ l₄, (callProtocol verify settings (.sync u signed) t₀ d₀).inv l₄.gen l₄.db →
        Ready [] [] (flushOps u (wanted v (activeAt l₁.gen.2 v)) (d₀.subscriptions u)) []
          (activeAt l₁.gen.2 v = true)
          (syncRow settings u v) l₄ → ∀ r,
        (callProtocol verify settings (.sync u signed) t₀ d₀).rg ()
          (Scoped verify settings (.sync u signed) t₀ d₀)
          ((recordAudit (syncAudit u v (activeAt l₁.gen.2 v))).bind fun _ =>
            .ret (Answer.subscription r)) l₄ := by
      intro l₄ hi₄ hready r
      refine rg_write (fun _ _ _ => rfl) fun l₅ he₅ hi₅ => ?_
      have h₅ := (Ready.stable.relies hi₄ hready he₅).audit (syncAudit u v (activeAt l₁.gen.2 v)).redacted
      refine Protocol.rg_ret fun l₆ he₆ hi₆ => ?_
      have h₆ := Ready.stable.relies (l := l₅.write _) hi₅ h₅ he₆
      exact Written.scoped hi₆ ⟨⟨h₆.opened.doneLog, v, hv, l₁.gen.2, hi₁, h₆.opened.subsLog,
        h₆.accounted⟩, h₆.newKeys⟩
    cases hactive : activeAt l₁.gen.2 v with
    | false =>
      rw [hactive] at haudit hclean₃
      exact haudit l₃ hi₃ hclean₃.ready _
    | true =>
      rw [hactive] at haudit hclean₃
      simp only [grantPeriod, bind_eq, pure_eq, bind_assoc, ret_bind]
      exact hclean₃.grant_rg rfl (fun x l hl => Scoped.raise x hl) hi₃ fun res l₄ hi₄ _ h₄ =>
        haudit l₄ hi₄ h₄ _

/-- The method of a purchase. -/
theorem purchase_rg {u : ℕ} {signed : String} (hdb : l.db = d₀) (hlog : l.log = [])
    (hdone : l.done = []) :
    (callProtocol verify settings (.purchase u signed) t₀ d₀).rg ()
      (Scoped verify settings (.purchase u signed) t₀ d₀)
      ((Call.purchase u signed).method verify settings) l := by
  simp only [Call.method, purchase, now, readSubscription, TxProg.stmt, bind_eq, pure_eq, act_bind,
    ret_bind]
  refine rg_read (fun _ _ _ => rfl) fun l₁ he₁ hi₁ => ?_
  have hclean₁ : Clean [] [] [] [] l₁ := Clean.fresh (he₁.own.1.trans hlog)
    (he₁.own.2.2.1.trans hdone)
  have hview : (l₁.view billingStore).subscriptions = d₀.subscriptions :=
    subscriptions_opened he₁ hdb hlog
  simp only [BillingStmt.run, hview]
  refine rg_read (fun _ _ _ => rfl) fun l₂ he₂ hi₂ => ?_
  rw [show (BillingStmt.run l₂.gen.2 l₂.gen.1 (l₂.view billingStore) .now).1 = l₂.gen.2 from rfl]
  have hclean₂ := Clean.stable.relies hi₁ hclean₁ he₂
  have hraise : ∀ {α : Type} (k : PurchaseResult → BillingProg α) (x : BillingError),
      (callProtocol verify settings (.purchase u signed) t₀ d₀).rg ()
        (Scoped verify settings (.purchase u signed) t₀ d₀) ((throw x : BillingProg _).bind k) l₂ :=
    fun k x => Protocol.rg_raise fun _ he _ => .raise _ (he.own.2.2.1.trans hclean₂.1.doneLog)
  by_cases hactive : effectiveSubscriptionStatus l₂.gen.2 (d₀.subscriptions u) = .active
  · rw [if_pos hactive]
    cases hv : verify signed with
    | none => exact hraise _ _
    | some v =>
      dsimp only
      unfold purchaseVerified
      cases hproduct : settings.tokenProducts.get v.productId with
      | none => exact hraise _ _
      | some credits =>
        simp only [bind_eq, pure_eq, bind_assoc, ret_bind]
        refine hclean₂.grant_rg trivial (fun x l hl => Scoped.raise x hl) hi₂
          fun res l₃ hi₃ _ h₃ => Protocol.rg_ret fun l₄ he₄ hi₄ => ?_
        have h₄ := Ready.stable.relies hi₃ h₃ he₄
        exact Written.scoped hi₄ ⟨⟨h₄.opened.doneLog, v, hv, credits, hproduct,
          effectiveSubscriptionStatus_mono hi₂ hactive, h₄.opened.subsLog, h₄.accounted⟩,
          h₄.newKeys⟩
  · rw [if_neg hactive]
    exact hraise _ _

/-- **One call on its own.** -/
theorem serve_rg {g : ℕ × Time} :
    (callProtocol verify settings c g.2 d₀).rg () Once (c.serve verify settings)
      ⟨g, d₀, [], (), []⟩ := by
  unfold Call.serve
  have hmethod : (callProtocol verify settings c g.2 d₀).rg () (Scoped verify settings c g.2 d₀)
      (c.method verify settings) ⟨g, d₀, [], (), []⟩ := by
    cases c with
    | sync u signed => exact sync_rg rfl rfl rfl
    | purchase u signed => exact purchase_rg rfl rfl rfl
  refine Protocol.rg_sessionScope (le_refl g.2) (Protocol.rg_mono (fun o l _ hq => ?_) hmethod)
  cases o with
  | ok a => exact hq
  | error x => exact hq

end Programs

/-! ## The calls of a sequence -/

section Run

variable {verify : Verifier} {settings : BillingSettings}

/-- What a call has done: nothing, or the writes of its transaction. -/
theorem Call.runs {c : Call} {g : ℕ × Time} {d : BillingDb} {o : Except BillingError Answer}
    {w : World BillingDb (ℕ × Time) Unit}
    (hr : Prog.Runs billingStore.step (c.serve verify settings) ⟨d, d, g, ()⟩ o w) :
    w.db = d ∨ ∃ log v, verify c.signedTransaction = some v ∧ Writes settings g.2 d v log c ∧
      (∀ row ∈ ledgerRows log, ∀ r ∈ d.accounts.ledger, r.key ≠ row.key) ∧
      w.db = billingStore.view log d := by
  have hserve : (callProtocol verify settings c g.2 d).rg () Once (c.serve verify settings)
      ⟨g, d, [], (), []⟩ := serve_rg
  obtain ⟨l, hl, -, hdb, -, hc⟩ := Protocol.runs_commits hr (fun _ _ => trivial) hserve
    ⟨rfl, rfl, rfl, rfl⟩ (le_refl g.2) .nil
  have hl : l.done.length ≤ 1 := hl
  rw [← hdb]
  match hdone : l.done, hl with
  | [], _ =>
    rw [hdone] at hc
    exact .inl hc.of_nil
  | [log], _ =>
    rw [hdone] at hc
    obtain ⟨g', hmay, hview⟩ := hc.of_singleton
    obtain rfl | ⟨v, hv, hwrites, hnew⟩ := hmay
    · exact .inl hview
    · exact .inr ⟨log, v, hv, hwrites, hnew, hview⟩

/-- The accounts after some calls: no transaction is credited twice, and the balances have moved
with the ledger. -/
structure Credited (d₀ d : BillingDb) : Prop where
  once : CreditedOnce d
  moved : ∃ rows, d.accounts.ledger = d₀.accounts.ledger ++ rows ∧
    ∀ u, d.accounts.balance u = d₀.accounts.balance u + net u rows

/-- A call with a revoked transaction leaves the accounts, and gives nobody access. -/
def RevokedInert (verify : Verifier) (c : Call) (d d' : BillingDb) : Prop :=
  ∀ v, verify c.signedTransaction = some v → v.revoked = true →
    d'.accounts.ledger = d.accounts.ledger ∧
    (∀ u, d'.accounts.balance u = d.accounts.balance u) ∧
    ∀ u, d'.subscriptions u = d.subscriptions u ∨
      ∃ row, d'.subscriptions u = some row ∧ row.status = .expired

theorem syncKey_inj {a b : String} (h : syncKey a = syncKey b) : a = b :=
  String.append_right_inj _ |>.1 (IdemKey.text.inj h)

theorem purchaseKey_inj {a b : String} (h : purchaseKey a = purchaseKey b) : a = b :=
  String.append_right_inj _ |>.1 (IdemKey.text.inj h)

/-- The keys of the two services differ. -/
theorem syncKey_ne_purchaseKey (a b : String) : syncKey a ≠ purchaseKey b := by
  intro h
  have hlist := congrArg String.toList (IdemKey.text.inj h)
  simp [String.toList_append] at hlist

/-- The accounts after the writes of a call. -/
theorem Credited.write {d₀ d : BillingDb} (h : Credited d₀ d) {log : List BillingOp}
    (hbalanced : Balanced (walletOps log))
    (hnew : ledgerRows log = [] ∨ ∃ row txn, ledgerRows log = [row] ∧ Uncredited d txn ∧
      ∀ txn', Credits txn' row → txn' = txn) :
    Credited d₀ (billingStore.view log d) := by
  obtain ⟨rows, hledger, hbalance⟩ := h.moved
  refine ⟨?_, rows ++ ledgerRows log, ?_, fun u => ?_⟩
  · show List.Pairwise _ _
    rw [ledger_view, List.pairwise_append]
    refine ⟨h.once, ?_, ?_⟩
    · obtain hnil | ⟨row, txn, hone, -, -⟩ := hnew
      · rw [hnil]
        exact .nil
      · rw [hone]
        exact List.pairwise_singleton _ _
    · obtain hnil | ⟨row, txn, hone, huncredited, htxn⟩ := hnew
      · rw [hnil]
        exact fun _ _ _ => nofun
      · rw [hone]
        intro r hr r' hr' txn' hcredits hcredits'
        rw [List.mem_singleton.1 hr'] at hcredits'
        obtain rfl := htxn txn' hcredits'
        exact huncredited r hr hcredits
  · rw [ledger_view, hledger, List.append_assoc]
  · rw [balance_view, hbalance, hbalanced u, net_append, ledgerRows, add_assoc]

/-- The rows that the calls insert credit their own transaction. -/
theorem Writes.credits {t₀ : Time} {d : BillingDb} {v : VerifiedTransaction}
    {log : List BillingOp} {c : Call} (h : Writes settings t₀ d v log c) {row : LedgerTransaction}
    (hrow : row ∈ ledgerRows log) {txn : String} (hcredits : Credits txn row) :
    txn = v.transactionId := by
  cases c with
  | sync u signed =>
    obtain ⟨t, -, -, hledger, -⟩ := h
    obtain hnil | ⟨-, id, hone⟩ := hledger
    · rw [hnil] at hrow
      cases hrow
    · rw [hone] at hrow
      rw [List.mem_singleton.1 hrow] at hcredits
      exact hcredits.elim (fun he => (syncKey_inj he).symm)
        fun he => absurd he (syncKey_ne_purchaseKey _ _)
  | purchase u signed =>
    obtain ⟨credits, -, -, -, hledger, -⟩ := h
    obtain hnil | ⟨-, id, hone⟩ := hledger
    · rw [hnil] at hrow
      cases hrow
    · rw [hone] at hrow
      rw [List.mem_singleton.1 hrow] at hcredits
      exact hcredits.elim (fun he => absurd he.symm (syncKey_ne_purchaseKey _ _))
        fun he => (purchaseKey_inj he).symm

/-- The writes of a sound call: no row, or the row of a transaction that no row credits and that is
not revoked. -/
theorem Writes.sound {g : ℕ × Time} {d : BillingDb} {v : VerifiedTransaction}
    {log : List BillingOp} {c : Call} (h : Writes settings g.2 d v log c)
    (hv : verify c.signedTransaction = some v) (hok : Sound verify settings g d c)
    (hnew : ∀ row ∈ ledgerRows log, ∀ r ∈ d.accounts.ledger, r.key ≠ row.key) :
    ledgerRows log = [] ∨ ∃ row, ledgerRows log = [row] ∧ v.revoked = false ∧
      Uncredited d v.transactionId := by
  cases c with
  | sync u signed =>
    obtain ⟨t, ht, -, hledger, -⟩ := h
    refine hledger.imp_right ?_
    rintro ⟨hactive, id, hone⟩
    rw [hone] at hnew
    have hrevoked : v.revoked = false := by
      simp only [activeAt, Bool.and_eq_true, Bool.not_eq_true'] at hactive
      exact hactive.1
    exact ⟨_, hone, hrevoked, hok v hv (activeAt_mono ht hactive)
      fun r hr => hnew _ (List.mem_singleton_self _) r hr⟩
  | purchase u signed =>
    obtain ⟨credits, hproduct, hactive, -, hledger, -⟩ := h
    refine hledger.imp_right ?_
    rintro ⟨-, id, hone⟩
    rw [hone] at hnew
    exact ⟨_, hone, hok v hv hactive (by rw [hproduct]; rfl)
      fun r hr => hnew _ (List.mem_singleton_self _) r hr⟩

theorem Writes.balanced {t₀ : Time} {d : BillingDb} {v : VerifiedTransaction}
    {log : List BillingOp} {c : Call} (h : Writes settings t₀ d v log c) :
    Balanced (walletOps log) := by
  cases c with
  | sync u signed =>
    obtain ⟨t, -, -, -, hbalanced⟩ := h
    exact hbalanced
  | purchase u signed =>
    obtain ⟨credits, -, -, -, -, hbalanced⟩ := h
    exact hbalanced

/-- What a call does to the subscriptions: nothing, or the row of a sync is the wanted one. -/
theorem Writes.subscriptions {t₀ : Time} {d : BillingDb} {v : VerifiedTransaction}
    {log : List BillingOp} {c : Call} (h : Writes settings t₀ d v log c) :
    (billingStore.view log d).subscriptions = d.subscriptions ∨ ∃ t u,
      (billingStore.view log d).subscriptions =
        Function.update d.subscriptions u (some (wanted v (activeAt t v))) := by
  cases c with
  | sync u signed =>
    obtain ⟨t, -, hsubs, -⟩ := h
    exact .inr ⟨t, u, view_flushOps hsubs⟩
  | purchase u signed =>
    obtain ⟨credits, -, -, hsubs, -⟩ := h
    left
    rw [subscriptions_view, hsubs]
    rfl

/-- **One call of a sequence.** -/
theorem Call.step {c : Call} {g : ℕ × Time} {d₀ d : BillingDb} {o : Except BillingError Answer}
    {w : World BillingDb (ℕ × Time) Unit} (hd : Credited d₀ d) (hok : Sound verify settings g d c)
    (hr : Prog.Runs billingStore.step (c.serve verify settings) ⟨d, d, g, ()⟩ o w) :
    Credited d₀ w.db ∧ RevokedInert verify c d w.db := by
  obtain hdb | ⟨log, v, hv, hwrites, hnew, hdb⟩ := Call.runs hr
  · rw [hdb]
    exact ⟨hd, fun _ _ _ => ⟨rfl, fun _ => rfl, fun _ => .inl rfl⟩⟩
  rw [hdb]
  have hsound := hwrites.sound hv hok hnew
  refine ⟨hd.write hwrites.balanced ?_, fun v' hv' hrevoked => ?_⟩
  · refine hsound.imp_right ?_
    rintro ⟨row, hone, -, huncredited⟩
    refine ⟨row, v.transactionId, hone, huncredited, fun txn htxn => ?_⟩
    exact hwrites.credits (hone ▸ List.mem_singleton_self row) htxn
  -- the transaction is revoked
  obtain rfl := Option.some.inj (hv.symm.trans hv')
  have hnone : ledgerRows log = [] := by
    obtain hnil | ⟨row, -, hlive, -⟩ := hsound
    · exact hnil
    · rw [hrevoked] at hlive
      cases hlive
  refine ⟨?_, fun u => ?_, fun u => ?_⟩
  · rw [ledger_view, hnone, List.append_nil]
  · have hrows : rows (walletOps log) = [] := hnone
    rw [balance_view, hwrites.balanced u, hrows, net_nil, add_zero]
  · obtain hsame | ⟨t, u', hset⟩ := hwrites.subscriptions
    · rw [hsame]
      exact .inl rfl
    · rw [hset]
      by_cases hu : u = u'
      · subst hu
        refine .inr ⟨_, Function.update_self .., ?_⟩
        have hinactive : activeAt t v = false := by simp [activeAt, hrevoked]
        rw [hinactive]
        rfl
      · exact .inl (Function.update_of_ne hu ..)

end Run

end ChatBackend.Billing.StoreKit

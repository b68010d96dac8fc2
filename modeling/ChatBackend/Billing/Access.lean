import ChatBackend.Billing.AdaptyCrediting
import ChatBackend.Billing.StoreKitCredits

/-!
# The access that the events of a subscription give

The row of a subscription has no order of its own: an activation, an expiration and a sync each
write it from their own transaction, whatever period the row is about. So the event that is applied
last decides (`subscription_access`), and the same events in another order may end with another
decision (`subscription_access_fails`).
-/

namespace ChatBackend.Billing.Access

open Prog Store Wallet Policy
open StoreKit (Verifier activeAt effectiveSubscriptionStatus)

/-- A delivery of Adapty, or a sync of StoreKit. -/
inductive Event : Type
  | adapty (raw : List UInt8)
  | sync (userId : ℕ) (signedTransaction : String)

/-- The service of an event. -/
def Event.method (py : Python) (verify : Verifier) (settings : BillingSettings) :
    Event → BillingProg Unit
  | adapty raw => do
    let _ ← Adapty.handle py settings raw
    pure ()
  | sync u signed => do
    let _ ← StoreKit.sync verify settings u signed
    pure ()

/-- An event, in its session. -/
def Event.serve (py : Python) (verify : Verifier) (settings : BillingSettings) (e : Event) :
    BillingProg Unit := TxProg.sessionScope (e.method py verify settings)

/-- The decision on the access of the user `u` at the time `t` that an event calls for, if it is
one that sets the row of `u`. -/
def Event.access (py : Python) (verify : Verifier) (t : Time) : Event → ℕ → Option SubscriptionStatus
  | adapty raw, u =>
    match Adapty.delivered py raw with
    | none => none
    | some (event, _) =>
      if event.customerUserId = u then
        match Adapty.classifyEvent event with
        | .granting => some (match event.expiresAt with
          | some e => if e ≤ t then .expired else .active
          | none => .active)
        | .expiring => some .expired
        | .noop => none
      else none
  | sync v signed, u =>
    if v = u then (verify signed).map fun tx => if activeAt t tx then .active else .expired
    else none

/-! ## What an event writes -/

/-- The row that an event wants for a user, given the row that its session has loaded, when the
clock has come to `t`. -/
inductive Wants (py : Python) (verify : Verifier) (t : Time) :
    Event → ℕ → Option Subscription → Subscription → Prop
  | adapty {raw : List UInt8} {event : Adapty.ParsedEvent} {body : WireJson}
      {loaded : Option Subscription} (h : Adapty.delivered py raw = some (event, body))
      (hsem : Adapty.classifyEvent event ≠ .noop) :
      Wants py verify t (.adapty raw) event.customerUserId loaded
        (Adapty.wanted event (Adapty.classifyEvent event) loaded)
  | sync {u : ℕ} {signed : String} {tx : StoreKit.VerifiedTransaction} {t₀ : Time}
      {loaded : Option Subscription} (h : verify signed = some tx) (ht : t₀ ≤ t) :
      Wants py verify t (.sync u signed) u loaded (StoreKit.wanted tx (activeAt t₀ tx))

/-- The flush of a wanted row over the one that was loaded leaves the wanted one. -/
def Flushes (u : ℕ) (row : Subscription) (loaded : Option Subscription) (d : BillingDb) : Prop :=
  (billingStore.view (flushOps u row loaded) d).subscriptions u = some row

/-- A log that leaves the subscriptions alone, or sets the row of one user as the event wants it,
given the row that its session has loaded. -/
def Writes (py : Python) (verify : Verifier) (t : Time) (e : Event) (d : BillingDb)
    (log : List BillingOp) : Prop :=
  subscriptionOps log = [] ∨ ∃ u loaded row, Wants py verify t e u loaded row ∧
    subscriptionOps log = flushOps u row loaded ∧ Flushes u row loaded d

/-- The flush of a row that is there, whose columns are still as the session has loaded them where the
flush leaves them alone. -/
def freshFlush (d : BillingDb) : TxAct BillingStmt → Bool
  | .stmt (.updateSubscription u loaded wanted) =>
    (d.subscriptions u).map (Subscription.change (loaded.changeTo wanted)) = some wanted
  | _ => true

/-- The log sets the row of the user. -/
abbrev Touches (u : ℕ) (log : List BillingOp) : Prop :=
  BillingLock.subscription u ∈ log.flatMap BillingOp.locks

section Rows

variable {py : Python} {verify : Verifier} {t t' : Time} {e : Event} {u : ℕ} {d : BillingDb}
variable {log : List BillingOp} {loaded : Option Subscription} {row : Subscription}

theorem Wants.mono (h : Wants py verify t e u loaded row) (ht : t ≤ t') :
    Wants py verify t' e u loaded row := by
  cases h with
  | adapty h hsem => exact .adapty h hsem
  | sync h ht₀ => exact .sync h (ht₀.trans ht)

/-- **The row that an event wants gives the access that the event calls for.** -/
theorem Wants.access (h : Wants py verify t e u loaded row) (ht : t ≤ t') :
    e.access py verify t' u = some (effectiveSubscriptionStatus t' (some row)) := by
  cases h with
  | @adapty raw event body loaded h hsem =>
    simp only [Event.access, h, if_true]
    cases hclass : Adapty.classifyEvent event with
    | granting =>
      have hwanted : Adapty.wanted event .granting loaded =
          ⟨.active, event.vendorProductId, event.expiresAt⟩ := if_pos rfl
      rw [hwanted]
      unfold effectiveSubscriptionStatus
      cases event.expiresAt <;> rfl
    | expiring => simp [Adapty.wanted, effectiveSubscriptionStatus]
    | noop => exact absurd hclass hsem
  | @sync _ signed tx t₀ loaded h ht₀ =>
    simp only [Event.access, h, if_true, Option.map_some, Option.some.injEq]
    cases hactive : activeAt t₀ tx with
    | true =>
      have hboth := hactive
      unfold activeAt at hboth ⊢
      rw [Bool.and_eq_true] at hboth
      cases hexpires : tx.expiresAt with
      | none => simp [hexpires] at hboth
      | some e =>
        by_cases hlt : t' < e
        · simp [StoreKit.wanted, effectiveSubscriptionStatus, hboth.1, hexpires, hlt]
        · simp [StoreKit.wanted, effectiveSubscriptionStatus, hexpires, hlt, not_lt.1 hlt]
    | false =>
      have hlater : activeAt t' tx = false := by
        by_contra hne
        have := StoreKit.activeAt_mono (ht₀.trans ht) (Bool.of_not_eq_false hne)
        rw [hactive] at this
        cases this
      simp [hlater, StoreKit.wanted, effectiveSubscriptionStatus]

/-- A log that does not set the row of a user leaves it. -/
theorem subscriptions_frame (h : ¬Touches u log) :
    (billingStore.view log d).subscriptions u = d.subscriptions u := by
  induction log generalizing d with
  | nil => rfl
  | cons o log ih =>
    have ho : BillingLock.subscription u ∉ o.locks := fun hmem =>
      h (List.mem_flatMap.2 ⟨o, List.mem_cons_self .., hmem⟩)
    have hlog : ¬Touches u log := fun hmem => h (by
      rw [Touches, List.flatMap_cons]
      exact List.mem_append_right _ hmem)
    rw [Store.view_cons, ih hlog]
    cases o with
    | putSubscription v row =>
      have hne : u ≠ v := by simpa [BillingOp.locks] using ho
      exact Function.update_of_ne hne _ _
    | updateSubscription v c =>
      have hne : u ≠ v := by simpa [BillingOp.locks] using ho
      exact Function.update_of_ne hne _ _
    | insertAdaptyEvent row => rfl
    | insertCloudPaymentsEvent row => rfl
    | wallet op => rfl

/-- The rows that a log sets are those of its writes to the subscriptions. -/
theorem touches_iff : Touches u log ↔ Touches u (subscriptionOps log) := by
  constructor
  · intro h
    obtain ⟨o, ho, hlock⟩ := List.mem_flatMap.1 h
    refine List.mem_flatMap.2 ⟨o, List.mem_filter.2 ⟨ho, ?_⟩, hlock⟩
    cases o with
    | wallet op =>
      obtain ⟨l, -, hl⟩ := List.mem_map.1 hlock
      cases hl
    | _ => first | rfl | simp [BillingOp.locks] at hlock
  · intro h
    obtain ⟨o, ho, hlock⟩ := List.mem_flatMap.1 h
    exact List.mem_flatMap.2 ⟨o, (List.mem_filter.1 ho).1, hlock⟩

@[simp] theorem touches_flushOps {v : ℕ} : Touches u (flushOps v row loaded) ↔ u = v := by
  cases loaded <;> simp [Touches, flushOps, BillingOp.locks]

theorem Writes.mono (h : Writes py verify t e d log) (ht : t ≤ t') :
    Writes py verify t' e d log :=
  h.imp_right fun ⟨u, loaded, row, hw, hflush⟩ => ⟨u, loaded, row, hw.mono ht, hflush⟩

theorem Flushes.of_eq {d' : BillingDb} (h : Flushes u row loaded d)
    (heq : d'.subscriptions u = d.subscriptions u) : Flushes u row loaded d' := by
  cases loaded with
  | none => exact Function.update_self ..
  | some row₀ =>
    have hrow : Function.update d.subscriptions u ((d.subscriptions u).map _) u = some row := h
    show Function.update d'.subscriptions u ((d'.subscriptions u).map _) u = some row
    rw [Function.update_self] at hrow ⊢
    rw [heq, hrow]

/-- Another log that can be open together with it does not set the row that a log sets. -/
theorem Writes.apart {log' : List BillingOp} (h : Writes py verify t e d log)
    (hc : BillingOp.Apart log log') : Writes py verify t e (billingStore.view log' d) log := by
  rcases h with h | ⟨u, loaded, row, hw, hops, hflush⟩
  · exact .inl h
  · have htouch : Touches u log := by
      rw [touches_iff, hops, touches_flushOps]
    exact .inr ⟨u, loaded, row, hw, hops, hflush.of_eq (subscriptions_frame (hc _ htouch))⟩

/-- More writes that leave the subscriptions alone. -/
theorem Writes.append {ops : List BillingOp} (h : Writes py verify t e d log)
    (hops : subscriptionOps ops = []) : Writes py verify t e d (log ++ ops) := by
  rw [Writes, subscriptionOps_append, hops, List.append_nil]
  exact h

end Rows

/-! ## One session -/

/-- A statement that leaves the subscriptions alone. -/
def Quiet (e : TxAct BillingStmt) : Prop :=
  ∃ s, e = .stmt s ∧ ∀ t g d, subscriptionOps (s.run t g d).2.1 = []

theorem quiet_wallet (s : WalletStmt) : Quiet (.stmt (.wallet s)) :=
  ⟨_, rfl, fun _ _ _ => subscriptionOps_map _⟩

/-- The grant of the wallet. -/
theorem grant_quiet {u : ℕ} {amount : Int} {key : IdemKey} {metaData : Json} {reason : String} :
    (grant u amount key metaData reason).Only Quiet := by
  have hembed : ∀ p : WalletProg ConsumeResult, p.Only Pool.IsStmt →
      (p.embed walletAct walletAnswer BillingError.wallet).Only Quiet := by
    intro p hp
    induction p with
    | ret a => trivial
    | raise x => trivial
    | act e k ih =>
      obtain ⟨s, rfl⟩ := hp.1
      exact ⟨quiet_wallet s, fun r => ih r (hp.2 r)⟩
  exact hembed _ Wallet.grant_only

section Session

variable {ι : Type} (py : Python) (verify : Verifier) (settings : BillingSettings) (es : ι → Event)

/-- What the session of an event may commit. -/
def accessProtocol : Protocol billingStore ι where
  inv _ _ := True
  may i g d log := Writes py verify g.2 (es i) d log
  test _ d e := freshFlush d e = true
  inv_gen _ _ := trivial
  inv_commit _ _ := trivial

variable {py verify settings es} {i : ι} {l : BillingOwn}

/-- The open transaction of a session. -/
def Open (py : Python) (verify : Verifier) (e : Event) (l : BillingOwn) : Prop :=
  Writes py verify l.gen.2 e l.db l.log

theorem Open.stable : Protocol.Stable (accessProtocol py verify es) i (Open py verify (es i)) := by
  intro l l' _ h hr
  cases hr with
  | gen hg => exact h.mono hg.2
  | commit hj hc hm => exact h.apart hc

/-- What holds when a method has ended. -/
def Kept (py : Python) (verify : Verifier) (e : Event) {α : Type} (_ : Except BillingError α)
    (l : BillingOwn) : Prop := Open py verify e l

theorem Open.ret {α : Type} (h : Open py verify (es i) l) (a : α) :
    (accessProtocol py verify es).rg i (Kept py verify (es i)) (.ret a) l :=
  Protocol.rg_ret fun _ he _ => Open.stable.relies trivial h he

theorem Open.raise {α : Type} (h : Open py verify (es i) l) (x : BillingError) :
    (accessProtocol py verify es).rg i (Kept py verify (es i)) (.raise x : BillingProg α) l :=
  Protocol.rg_raise fun _ he _ => Open.stable.relies trivial h he

/-- A program that leaves the subscriptions alone. -/
theorem Open.quiet {α : Type} {p : BillingProg α} (hp : p.Only Quiet) (h : Open py verify (es i) l) :
    (accessProtocol py verify es).rg i (Kept py verify (es i)) p l := by
  refine Protocol.rg_of_keeps Open.stable (fun e he => ⟨he.choose, he.choose_spec.1⟩)
    (fun s hs l r ops gen mem hl hx => ?_) hp trivial h
  obtain ⟨s', hs', hquiet⟩ := hs
  obtain rfl : s = s' := TxAct.stmt.inj hs'
  obtain ⟨t, ht, hgen, hrun⟩ := hx
  have hops := hquiet t l.gen.1 (l.view billingStore)
  rw [hrun] at hops
  exact Writes.append (Writes.mono hl (hgen ▸ ht)) hops

/-- The flush of a row, and what follows it. -/
theorem flush_rg {α : Type} {u : ℕ} {row : Subscription} {loaded : Option Subscription}
    {k : Unit → BillingProg α} (hlog : subscriptionOps l.log = [])
    (hw : Wants py verify l.gen.2 (es i) u loaded row) (hk : (k ()).Only Quiet) :
    (accessProtocol py verify es).rg i (Kept py verify (es i))
      ((flushSubscription u row loaded).bind k) l := by
  have hview : ∀ l₁ : BillingOwn, subscriptionOps l₁.log = [] →
      (l₁.view billingStore).subscriptions = l₁.db.subscriptions := by
    intro l₁ h₁
    show (billingStore.view l₁.log l₁.db).subscriptions = _
    rw [subscriptions_view, h₁]
    rfl
  have hflush : ∀ l₁ : BillingOwn, subscriptionOps l₁.log = [] → l.gen ≤ l₁.gen →
      Flushes u row loaded l₁.db → Open py verify (es i) (l₁.write (flushOps u row loaded)) := by
    intro l₁ h₁ hgen hrow
    refine .inr ⟨u, loaded, row, hw.mono hgen.2, ?_, hrow⟩
    show subscriptionOps (l₁.log ++ _) = flushOps u row loaded
    rw [subscriptionOps_append, h₁]
    cases loaded <;> rfl
  cases loaded with
  | none =>
    simp only [flushSubscription, insertSubscription, TxProg.stmt, bind_eq, act_bind, ret_bind,
      pure_eq, throw_eq]
    refine rg_write (fun t g d => ?_) fun l₁ he₁ _ => ?_
    · simp only [BillingStmt.run]
      split <;> rfl
    have h₁ : subscriptionOps l₁.log = [] := by rw [he₁.own.1, hlog]
    simp only [BillingStmt.run]
    split
    · rename_i hsome
      rw [Own.write_nil]
      exact Open.raise (.inl h₁) _
    · exact (hflush l₁ h₁ he₁.own.2.2.2 (Function.update_self ..)).quiet hk
  | some row₀ =>
    simp only [flushSubscription, updateSubscription, TxProg.stmt, act_bind, ret_bind]
    refine rg_billingStmt fun l₁ he₁ _ htest => ?_
    have h₁ : subscriptionOps l₁.log = [] := by rw [he₁.own.1, hlog]
    -- the columns that are left alone are those that were loaded
    have hrow : ((l₁.view billingStore).subscriptions u).map
        (Subscription.change (row₀.changeTo row)) = some row := of_decide_eq_true htest
    rw [hview l₁ h₁] at hrow
    have hflushes : Flushes u row (some row₀) l₁.db := (Function.update_self ..).trans hrow
    exact (hflush l₁ h₁ he₁.own.2.2.2 hflushes).quiet hk

/-- What follows the flush in a delivery of Adapty. -/
theorem applied_quiet (event : Adapty.ParsedEvent) (semantics : Adapty.Semantics) (e : AuditEvent) :
    (((Adapty.grantIf settings event semantics).bind fun _ =>
      (recordAudit e).bind fun _ => .ret ⟨.applied, none, none⟩ :
        BillingProg Adapty.WebhookOutcome)).Only Quiet := by
  have haudit : ((recordAudit e).bind fun _ => .ret ⟨.applied, none, none⟩ :
      BillingProg Adapty.WebhookOutcome).Only Quiet := ⟨quiet_wallet _, fun _ => trivial⟩
  cases semantics with
  | granting => exact .bind (.bind grant_quiet fun _ => trivial) fun _ => haudit
  | expiring => exact haudit
  | noop => exact haudit

/-- An event of Adapty that is in the journal. -/
theorem mutate_rg {raw : List UInt8} {event : Adapty.ParsedEvent} {body : WireJson}
    (hi : es i = .adapty raw) (hevent : Adapty.delivered py raw = some (event, body))
    (hlog : subscriptionOps l.log = []) :
    (accessProtocol py verify es).rg i (Kept py verify (es i))
      ((Adapty.mutate settings event (Adapty.classifyEvent event)).bind fun now =>
        (recordAudit (Adapty.auditEvent py event now)).bind fun _ =>
          .ret (⟨.applied, none, none⟩ : Adapty.WebhookOutcome)) l := by
  have hupsert : Adapty.classifyEvent event ≠ .noop → (accessProtocol py verify es).rg i
      (Kept py verify (es i))
      (((Adapty.upsertSubscription event (Adapty.classifyEvent event)).bind fun written =>
        (Adapty.grantIf settings event (Adapty.classifyEvent event)).bind fun _ =>
          (.ret (some written.1, written.2) : BillingProg _)).bind fun now =>
          (recordAudit (Adapty.auditEvent py event now)).bind fun _ =>
            .ret (⟨.applied, none, none⟩ : Adapty.WebhookOutcome)) l := by
    intro hsem
    simp only [Adapty.upsertSubscription, readSubscription, TxProg.stmt, bind_eq, pure_eq, act_bind,
      ret_bind, bind_assoc]
    refine rg_read (fun _ _ _ => rfl) fun l₁ he₁ _ => ?_
    refine flush_rg (by rw [he₁.own.1, hlog]) ?_ (applied_quiet event _ _)
    rw [hi]
    exact .adapty hevent hsem
  cases hsem : Adapty.classifyEvent event with
  | noop =>
    refine Open.quiet ⟨⟨_, rfl, fun _ _ _ => rfl⟩, fun _ => ⟨quiet_wallet _, fun _ => trivial⟩⟩ ?_
    exact .inl hlog
  | granting =>
    rw [hsem] at hupsert
    exact hupsert fun h => by cases h
  | expiring =>
    rw [hsem] at hupsert
    exact hupsert fun h => by cases h

/-- A recognised event. -/
theorem applyEvent_rg {raw : List UInt8} {event : Adapty.ParsedEvent} {body : WireJson}
    (hi : es i = .adapty raw) (hevent : Adapty.delivered py raw = some (event, body))
    (hlog : l.log = []) :
    (accessProtocol py verify es).rg i (Kept py verify (es i))
      (Adapty.applyEvent py settings event body) l := by
  simp only [Adapty.applyEvent, insertAdaptyEvent, TxProg.stmt, bind_eq, pure_eq, act_bind, ret_bind]
  refine rg_write (fun t g d => ?_) fun l₁ he₁ _ => ?_
  · simp only [BillingStmt.run]
    split <;> rfl
  have hlog₁ : l₁.log = [] := he₁.own.1.trans hlog
  cases hany : (l₁.view billingStore).adaptyEvents.any fun r =>
      r.eventId = (Adapty.journalRow event body).eventId with
  | true =>
    simp only [BillingStmt.run, hany, if_true, Own.write_nil]
    exact Open.ret (.inl (by rw [hlog₁]; rfl)) _
  | false =>
    simp only [BillingStmt.run, hany, Bool.false_eq_true, if_false]
    refine mutate_rg hi hevent ?_
    show subscriptionOps (l₁.log ++ _) = []
    rw [hlog₁]
    rfl

/-- A delivery of Adapty. -/
theorem handle_rg {raw : List UInt8} (hi : es i = .adapty raw) (hlog : l.log = []) :
    (accessProtocol py verify es).rg i (Kept py verify (es i)) (Adapty.handle py settings raw) l := by
  have hignored : ∀ {l : BillingOwn} (reason eventType : Option String), l.log = [] →
      (accessProtocol py verify es).rg i (Kept py verify (es i))
        (.ret (Adapty.ignored reason eventType)) l :=
    fun _ _ h => Open.ret (.inl (by rw [h]; rfl)) _
  unfold Adapty.handle
  split
  · exact hignored _ _ hlog
  · rename_i hraw
    split
    · exact Open.raise (.inl (by rw [hlog]; rfl)) _
    · exact hignored _ _ hlog
    · rename_i kvs hkvs
      unfold Adapty.handleBody
      split
      · exact hignored _ _ hlog
      · rename_i eventId heventId
        split
        · exact hignored _ _ hlog
        · rename_i userId huserId
          have hevent : Adapty.delivered py raw =
              some (Adapty.parsedEvent py (.obj kvs) eventId userId, .obj kvs) := by
            rw [Adapty.delivered, if_neg hraw, hkvs]
            simp only [heventId, huserId, Option.bind_some, Option.map_some]
          simp only [Adapty.handleEvent, userExists, TxProg.stmt, bind_eq, pure_eq, act_bind, ret_bind]
          refine rg_read (fun _ _ _ => rfl) fun l₁ he₁ _ => ?_
          have hlog₁ : l₁.log = [] := he₁.own.1.trans hlog
          split
          · split
            · exact applyEvent_rg hi hevent hlog₁
            · exact hignored _ _ hlog₁
          · exact hignored _ _ hlog₁
    · exact hignored _ _ hlog

/-- A sync of StoreKit. -/
theorem sync_rg {u : ℕ} {signed : String} (hi : es i = .sync u signed) (hlog : l.log = []) :
    (accessProtocol py verify es).rg i (Kept py verify (es i))
      (StoreKit.sync verify settings u signed) l := by
  unfold StoreKit.sync
  cases hv : verify signed with
  | none => exact Open.raise (.inl (by rw [hlog]; rfl)) _
  | some tx =>
    simp only [now, StoreKit.reconcile, readSubscription, TxProg.stmt, bind_eq, pure_eq, act_bind,
      ret_bind]
    refine rg_read (fun _ _ _ => rfl) fun l₁ he₁ _ => ?_
    simp only [BillingStmt.run]
    refine rg_read (fun _ _ _ => rfl) fun l₂ he₂ _ => ?_
    refine flush_rg (by rw [he₂.own.1, he₁.own.1, hlog]; rfl) ?_ ?_
    · rw [hi]
      exact .sync hv he₂.own.2.2.2.2
    · refine .bind ?_ fun _ => ⟨quiet_wallet _, fun _ => trivial⟩
      cases activeAt l₁.gen.2 tx with
      | true => exact .bind grant_quiet fun _ => trivial
      | false => trivial

/-- **One event among others.** -/
theorem serve_rg (hlog : l.log = []) :
    (accessProtocol py verify es).rg i (fun _ _ => True) ((es i).serve py verify settings) l := by
  have hmethod : (accessProtocol py verify es).rg i (Kept py verify (es i))
      ((es i).method py verify settings) l := by
    have hdone : ∀ {α : Type} (p : BillingProg α),
        (accessProtocol py verify es).rg i (Kept py verify (es i)) p l →
        (accessProtocol py verify es).rg i (Kept py verify (es i))
          (p.bind fun _ => (.ret () : BillingProg Unit)) l := by
      intro α p hp
      refine Protocol.rg_bind trivial (Protocol.rg_mono (fun o l' _ hq => ?_) hp)
      cases o with
      | ok a => exact Open.ret hq ()
      | error x => exact Open.raise hq x
    cases hi : es i with
    | adapty raw =>
      have hhandle : (accessProtocol py verify es).rg i (Kept py verify (es i))
          (Adapty.handle py settings raw) l := handle_rg hi hlog
      have := hdone _ hhandle
      rwa [hi] at this
    | sync u signed =>
      have hsync : (accessProtocol py verify es).rg i (Kept py verify (es i))
          (StoreKit.sync verify settings u signed) l := sync_rg hi hlog
      have := hdone _ hsync
      rwa [hi] at this
  refine Protocol.rg_sessionScope trivial (Protocol.rg_mono (fun o l' _ hq => ?_) hmethod)
  cases o with
  | ok a =>
    refine Protocol.rg_commit fun l₁ he₁ _ _ => ⟨Open.stable.relies trivial hq he₁, ?_⟩
    exact Protocol.rg_ret fun _ _ _ => trivial
  | error x =>
    exact Protocol.rg_rollback fun l₁ _ _ => Protocol.rg_raise fun _ _ _ => trivial

end Session

/-! ## All events -/

section Run

variable {ι : Type} {py : Python} {verify : Verifier} {settings : BillingSettings} {es : ι → Event}

/-- The sessions of a pool of events. -/
abbrev EventPool (ι : Type) : Type :=
  Pool ι BillingStmt BillingStmt.Resp BillingDb BillingOp (ℕ × Time) Unit BillingError Unit

/-- The events `es`, about to be served. -/
def events (py : Python) (verify : Verifier) (settings : BillingSettings) (es : ι → Event)
    (g : ℕ × Time) (d : BillingDb) : EventPool ι :=
  Pool.begin g d () fun i => (es i).serve py verify settings

/-- The runs of a pool of events in which a session that updates the row of a user finds the columns
that it leaves alone as it has loaded them. -/
def Applies (py : Python) (verify : Verifier) (settings : BillingSettings) (es : ι → Event)
    [DecidableEq ι] (g : ℕ × Time) (d : BillingDb) (P : EventPool ι) : Prop :=
  (events py verify settings es g d).ReachesIf billingStore (fun _ d e => freshFlush d e = true) P

/-- The session that has last set the row of a user. -/
def lastWriter (hist : List (ι × List BillingOp)) (u : ℕ) : Option ι :=
  (hist.reverse.find? fun c => Touches u c.2).map Prod.fst

theorem lastWriter_append (hist : List (ι × List BillingOp)) (i : ι) (log : List BillingOp)
    (u : ℕ) : lastWriter (hist ++ [(i, log)]) u =
      if Touches u log then some i else lastWriter hist u := by
  unfold lastWriter
  rw [List.reverse_append, List.reverse_singleton, List.singleton_append, List.find?_cons]
  by_cases h : Touches u log
  · rw [if_pos h, decide_eq_true h]
    rfl
  · rw [if_neg h, decide_eq_false h]

/-- The row of a user is the one that the last writer's event wants. -/
theorem wants_of_commits {g : ℕ × Time} {d₀ d : BillingDb} {hist : List (ι × List BillingOp)}
    (h : Commits billingStore
      (fun i g' d log => g' ≤ g ∧ (accessProtocol py verify es).may i g' d log) d₀ hist d) (u : ℕ) :
    match lastWriter hist u with
    | none => d.subscriptions u = d₀.subscriptions u
    | some i => ∃ loaded row, Wants py verify g.2 (es i) u loaded row ∧
        d.subscriptions u = some row := by
  induction h with
  | nil => rfl
  | @snoc hist d i g' log h hm ih =>
    obtain ⟨hg, hwrites⟩ := hm
    rw [lastWriter_append]
    by_cases htouch : Touches u log
    · rw [if_pos htouch]
      rcases hwrites with hnone | ⟨v, loaded, row, hw, hops, hflush⟩
      · rw [touches_iff, hnone] at htouch
        cases htouch
      · have huv : u = v := by
          rwa [touches_iff, hops, touches_flushOps] at htouch
        subst huv
        refine ⟨loaded, row, hw.mono hg.2, ?_⟩
        rw [subscriptions_view, hops]
        exact hflush
    · rw [if_neg htouch, subscriptions_frame htouch]
      exact ih

/-- **The event that is applied last decides.** In every run of deliveries and syncs, in any order
or interleaving and with a failure at any point, in which a session that updates the row of a user
finds the columns that it leaves alone as it has loaded them: who has no writer keeps the row of the
beginning; for any other user the access at every later time is the one that the event of the last
writer calls for. Two runs with the same last writer, in whatever orders and from whatever tables, give
the same access. -/
theorem subscription_access [DecidableEq ι] {g : ℕ × Time} {d₀ : BillingDb} {P : EventPool ι}
    (hr : Applies py verify settings es g d₀ P) (u : ℕ) :
    (lastWriter P.hist u = none → P.db.subscriptions u = d₀.subscriptions u) ∧
      ∀ i, lastWriter P.hist u = some i → ∀ t, P.gen.2 ≤ t →
        (es i).access py verify t u = some (effectiveSubscriptionStatus t (P.db.subscriptions u)) ∧
        ∀ {g' d₀' P'}, Applies py verify settings es g' d₀' P' → lastWriter P'.hist u = some i →
          P'.gen.2 ≤ t → effectiveSubscriptionStatus t (P'.db.subscriptions u) =
            effectiveSubscriptionStatus t (P.db.subscriptions u) := by
  have hrow : ∀ {g d₀ P}, Applies py verify settings es g d₀ P →
      match lastWriter P.hist u with
      | none => P.db.subscriptions u = d₀.subscriptions u
      | some i => ∃ loaded row, Wants py verify P.gen.2 (es i) u loaded row ∧
          P.db.subscriptions u = some row := by
    intro g d₀ P hr
    have hkeeps : Pool.Keeps (accessProtocol py verify es) (fun _ _ _ => True) d₀
        (events py verify settings es g d₀) := Pool.begin_keeps trivial fun i => serve_rg rfl
    exact wants_of_commits (Pool.ReachesIf.commits_le hr hkeeps .nil) u
  have hlast : ∀ {g d₀ P i t}, Applies py verify settings es g d₀ P →
      lastWriter P.hist u = some i → P.gen.2 ≤ t → (es i).access py verify t u =
        some (effectiveSubscriptionStatus t (P.db.subscriptions u)) := by
    intro g d₀ P i t hr hi ht
    have h := hrow hr
    rw [hi] at h
    obtain ⟨loaded, row, hw, hdb⟩ := h
    rw [hdb]
    exact hw.access ht
  refine ⟨fun hnone => ?_, fun i hi t ht => ⟨hlast hr hi ht, fun hr' hi' ht' => ?_⟩⟩
  · have h := hrow hr
    rwa [hnone] at h
  · exact Option.some.inj ((hlast hr' hi' ht').symm.trans (hlast hr hi ht))

end Run

/-! ## A late expiration -/

/-- The body of a webhook of user 7. -/
def eventBody (eventId eventType transactionId expiresAt : String) : WireJson :=
  .obj [("profile_event_id", .str eventId), ("event_type", .str eventType),
    ("customer_user_id", .str "seven"), ("transaction_id", .str transactionId),
    ("subscription_expires_at", .str expiresAt)]

/-- A library that reads two bodies: the renewal for a period that lasts until 1000, and the
expiration of the period before it, which has lasted until 10. -/
def twoPeriods : Python where
  loads raw := .value (if raw = [1] then eventBody "renewed" "subscription_renewed" "second" "later"
    else eventBody "expired" "subscription_expired" "first" "earlier")
  loadsText _ := .valueError
  lower s := s
  strip s := s
  str _ := ""
  uuid _ := some 7
  fromisoformat s := if s = "later" then some 1000 else some 10
  isoformat _ := ""

/-- The two deliveries. -/
def twoDeliveries : Fin 2 → Event
  | 0 => .adapty [1]
  | 1 => .adapty [2]

/-- Both sessions have ended, the session `i` has written last, and the access of user 7 at the
time 500 is `status`. -/
def endsWith (i : Fin 2) (status : SubscriptionStatus) (P : EventPool (Fin 2)) : Bool :=
  (P.hist.length = 2) && lastWriter P.hist 7 = some i && P.gen.2 ≤ 500 &&
    effectiveSubscriptionStatus 500 (P.db.subscriptions 7) = status

theorem endsWith_iff {i : Fin 2} {status : SubscriptionStatus} {P : EventPool (Fin 2)} :
    endsWith i status P = true ↔ P.hist.length = 2 ∧ lastWriter P.hist 7 = some i ∧
      P.gen.2 ≤ 500 ∧ effectiveSubscriptionStatus 500 (P.db.subscriptions 7) = status := by
  simp [endsWith, and_assoc]

/-- The events of user 7 in some order. -/
def playEvents (order : List (Fin 2)) : Option (EventPool (Fin 2) × Unit) :=
  Pool.playIf billingHandler (fun _ d e => freshFlush d e) [0, 1] order
    (events twoPeriods (fun _ => none) .unmapped twoDeliveries (0, 0) emptyTables) ()

theorem exists_of_playEvents {order : List (Fin 2)} {i : Fin 2} {status : SubscriptionStatus}
    (h : (playEvents order).any (fun r => endsWith i status r.1) = true) :
    ∃ P, Applies twoPeriods (fun _ => none) .unmapped twoDeliveries (0, 0) emptyTables P ∧
      endsWith i status P = true :=
  Pool.exists_of_playIf (by decide) h

/-- The renewal first: the expiration of the period before it revokes its access. -/
theorem subscription_access_run : ∃ P : EventPool (Fin 2),
    (twoDeliveries 1).access twoPeriods (fun _ => none) 500 7 = some .expired ∧
    effectiveSubscriptionStatus 500 (P.db.subscriptions 7) = .expired ∧
    (twoDeliveries 1).access twoPeriods (fun _ => none) 500 7 =
      some (effectiveSubscriptionStatus 500 (P.db.subscriptions 7)) := by
  have h : (playEvents (List.replicate 10 0 ++ List.replicate 6 1)).any
      (fun r => endsWith 1 .expired r.1) = true := by decide +kernel
  obtain ⟨P, hP, hends⟩ := exists_of_playEvents h
  obtain ⟨-, hlast, htime, hstatus⟩ := endsWith_iff.1 hends
  have := ((subscription_access hP 7).2 1 hlast 500 htime).1
  exact ⟨P, by rw [this, hstatus], hstatus, this⟩

/-- The access is not the same for every order: with the renewal last it is that of the later
period, with the expiration of the earlier period last it is revoked. -/
theorem subscription_access_fails : ¬∀ {P P' : EventPool (Fin 2)},
    Applies twoPeriods (fun _ => none) .unmapped twoDeliveries (0, 0) emptyTables P →
    Applies twoPeriods (fun _ => none) .unmapped twoDeliveries (0, 0) emptyTables P' →
    P.hist.length = 2 → P'.hist.length = 2 → ∀ u t, P.gen.2 ≤ t → P'.gen.2 ≤ t →
      effectiveSubscriptionStatus t (P.db.subscriptions u) =
        effectiveSubscriptionStatus t (P'.db.subscriptions u) := by
  intro hall
  have h : (playEvents (List.replicate 10 0 ++ List.replicate 6 1)).any
      (fun r => endsWith 1 .expired r.1) = true := by decide +kernel
  have h' : (playEvents (List.replicate 6 1 ++ List.replicate 10 0)).any
      (fun r => endsWith 0 .active r.1) = true := by decide +kernel
  obtain ⟨P, hP, hends⟩ := exists_of_playEvents h
  obtain ⟨P', hP', hends'⟩ := exists_of_playEvents h'
  obtain ⟨hlength, -, htime, hstatus⟩ := endsWith_iff.1 hends
  obtain ⟨hlength', -, htime', hstatus'⟩ := endsWith_iff.1 hends'
  have := hall hP hP' hlength hlength' 7 500 htime htime'
  rw [hstatus, hstatus'] at this
  cases this

end ChatBackend.Billing.Access

import ChatBackend.Billing.Adapty
import ChatBackend.Billing.Crediting

/-!
# Deliveries of Adapty under interleaving

`adapty_crediting`: in every run of a pool of deliveries, an event id changes the state once, a
transaction of a user is credited once and with the amount of its product, and a delivery that is
ignored, a duplicate or has failed has written nothing.
-/

namespace ChatBackend.Billing.Adapty

open Prog Store Wallet Policy

/-- The event of a delivery and its body, when it names an event and a user. -/
def delivered (py : Python) (raw : List UInt8) : Option (ParsedEvent × WireJson) :=
  if raw = [] then none
  else
    match py.loads raw with
    | .value (.obj kvs) =>
      (parseEventId (.obj kvs)).bind fun eventId =>
        (parseCustomerUserId py (.obj kvs)).map fun userId =>
          (parsedEvent py (.obj kvs) eventId userId, .obj kvs)
    | _ => none

/-- The ledger row of a credit. -/
def creditRow (settings : BillingSettings) (event : ParsedEvent) (id : ℕ) : LedgerTransaction :=
  ⟨id, event.customerUserId, .credit, tierFor settings event.vendorProductId,
    .obj [("transactionId", .str event.txn), ("eventType", .str event.eventType),
      ("vendorProductId", optStr event.vendorProductId)], grantKey event.txn⟩

/-- The writes of an event to the subscription: none, or the row it wants, given the row that it
has loaded. -/
def SubscriptionOps (event : ParsedEvent) (ops : List BillingOp) : Prop :=
  if classifyEvent event = .noop then ops = []
  else ∃ row, ops = flushOps event.customerUserId (wanted event (classifyEvent event) row) row

/-- The whole of an event, as one log on the database it is committed on. -/
structure Applied (settings : BillingSettings) (event : ParsedEvent) (body : WireJson)
    (d : BillingDb) (log : List BillingOp) : Prop where
  known : event.eventType ∈ knownEvents
  journal : adaptyRows log = [journalRow event body]
  new : ∀ r ∈ d.adaptyEvents, r.eventId ≠ event.eventId
  other : cloudPaymentsRows log = []
  subscription : SubscriptionOps event (subscriptionOps log)
  accounted : Accounted (classifyEvent event = .granting) (creditRow settings event) log
  newKeys : ∀ row ∈ ledgerRows log, ∀ r ∈ d.accounts.ledger, r.key ≠ row.key

section Protocol

variable {ι : Type} (py : Python) (settings : BillingSettings) (raws : ι → List UInt8)

/-- What a delivery may commit: nothing, or the whole of its event. -/
def adaptyProtocol : Protocol billingStore ι where
  inv _ _ := True
  may i _ d log := log = [] ∨ ∃ event body, delivered py (raws i) = some (event, body) ∧
    Applied settings event body d log
  test _ _ _ := True
  inv_gen _ _ := trivial
  inv_commit _ _ := trivial

/-- What a delivery has committed when it has ended. -/
def Ended (raw : List UInt8) : Except BillingError WebhookOutcome → BillingOwn → Prop
  | .error _, l => l.done = []
  | .ok outcome, l =>
    (outcome.result ≠ .applied → l.done = [[]]) ∧
    (outcome.result = .applied → ∃ event body log, delivered py raw = some (event, body) ∧
      l.done = [log] ∧ adaptyRows log = [journalRow event body]) ∧
    (outcome.result = .duplicate → ∃ event body, delivered py raw = some (event, body) ∧
      ∃ r ∈ l.db.adaptyEvents, r.eventId = event.eventId)

end Protocol

/-! ## One delivery -/

/-- A row of the journal stays. -/
theorem relies_mem {ι : Type} {pr : Protocol billingStore ι} {i : ι} {l l' : BillingOwn}
    (h : pr.Relies i l l') {r : AdaptyWebhookEvent} (hr : r ∈ l.db.adaptyEvents) :
    r ∈ l'.db.adaptyEvents := by
  induction h with
  | refl => exact hr
  | tail _ hs ih =>
    cases hs with
    | gen => exact ih
    | commit =>
      rw [adaptyEvents_view]
      exact List.mem_append_left _ ih

/-- An event that is ready to be committed. -/
abbrev EventReady (settings : BillingSettings) (event : ParsedEvent) (body : WireJson)
    (subs : List BillingOp) (l : BillingOwn) : Prop :=
  Ready [journalRow event body] [] subs [] (classifyEvent event = .granting)
    (creditRow settings event) l

section Programs

variable {ι : Type} {py : Python} {settings : BillingSettings} {raws : ι → List UInt8} {i : ι}
variable {l : BillingOwn} {event : ParsedEvent} {body : WireJson} {subs : List BillingOp}

/-- What has to hold when `handle` has ended. -/
def Scoped (py : Python) (settings : BillingSettings) (raws : ι → List UInt8) (i : ι) :
    Except BillingError WebhookOutcome → BillingOwn → Prop
  | .ok a, l => (adaptyProtocol py settings raws).rg i (Ended py (raws i))
      (TxProg.commit.bind fun _ => .ret a) l
  | .error x, l => (adaptyProtocol py settings raws).rg i (Ended py (raws i))
      (TxProg.rollback.bind fun _ => .raise x) l

/-- A delivery that raises has committed nothing. -/
theorem Scoped.raise (x : BillingError) (h : l.done = []) : Scoped py settings raws i (.error x) l := by
  refine Protocol.rg_rollback fun l₁ he₁ _ => Protocol.rg_raise fun l₂ he₂ _ => ?_
  show l₂.done = []
  rw [he₂.own.2.2.1, ← h]
  exact he₁.own.2.2.1

/-- A delivery that is not applied commits nothing. -/
theorem Scoped.quiet {outcome : WebhookOutcome} (hlog : l.log = []) (hdone : l.done = [])
    (happlied : outcome.result ≠ .applied)
    (hdup : outcome.result = .duplicate → ∃ event body, delivered py (raws i) = some (event, body) ∧
      ∃ r ∈ l.db.adaptyEvents, r.eventId = event.eventId) :
    Scoped py settings raws i (.ok outcome) l := by
  refine Protocol.rg_commit fun l₁ he₁ _ _ => ⟨.inl (he₁.own.1.trans hlog), ?_⟩
  refine Protocol.rg_ret fun l₂ he₂ _ => ⟨fun _ => ?_, fun h => absurd h happlied, fun hd => ?_⟩
  · rw [he₂.own.2.2.1]
    show l₁.done ++ [l₁.log] = [[]]
    rw [he₁.own.1, he₁.own.2.2.1, hlog, hdone]
    rfl
  · obtain ⟨event, body, hevent, r, hr, hid⟩ := hdup hd
    refine ⟨event, body, hevent, r, relies_mem he₂ ?_, hid⟩
    show r ∈ (billingStore.view l₁.log l₁.db).adaptyEvents
    rw [adaptyEvents_view]
    exact List.mem_append_left _ (relies_mem he₁ hr)

/-- A delivery that is ready commits its event. -/
theorem Scoped.ready (hevent : delivered py (raws i) = some (event, body))
    (hknown : event.eventType ∈ knownEvents) (hsubs : SubscriptionOps event subs)
    (h : EventReady settings event body subs l) :
    Scoped py settings raws i (.ok ⟨.applied, none, none⟩) l := by
  refine Protocol.rg_commit fun l₁ he₁ _ _ => ?_
  have h₁ : EventReady settings event body subs l₁ := Ready.stable.relies trivial h he₁
  have happlied : Applied settings event body l₁.db l₁.log :=
    ⟨hknown, h₁.opened.adaptyLog, h₁.opened.newAdapty _ (List.mem_singleton_self _), h₁.opened.cloudLog,
      by rw [h₁.opened.subsLog]; exact hsubs, h₁.accounted, h₁.newKeys⟩
  refine ⟨.inr ⟨event, body, hevent, happlied⟩, Protocol.rg_ret fun l₂ he₂ _ => ?_⟩
  refine ⟨fun hne => absurd rfl hne, fun _ => ⟨event, body, l₁.log, hevent, ?_, h₁.opened.adaptyLog⟩,
    nofun⟩
  rw [he₂.own.2.2.1]
  show l₁.done ++ [l₁.log] = [l₁.log]
  rw [h₁.opened.doneLog]
  rfl

/-- The audit row, and the end of the body. -/
theorem audit_rg (hevent : delivered py (raws i) = some (event, body))
    (hknown : event.eventType ∈ knownEvents) (hsubs : SubscriptionOps event subs)
    (h : EventReady settings event body subs l) (e : AuditEvent) :
    (adaptyProtocol py settings raws).rg i (Scoped py settings raws i)
      ((recordAudit e).bind fun _ => .ret ⟨.applied, none, none⟩) l := by
  refine rg_write (fun _ _ _ => rfl) fun l₁ he₁ _ => ?_
  have h₁ : EventReady settings event body subs l₁ := Ready.stable.relies trivial h he₁
  exact Protocol.rg_ret fun l₂ he₂ _ => .ready hevent hknown hsubs
    (Ready.stable.relies (l := l₁.write _) trivial (h₁.audit e.redacted) he₂)

/-- The event after its subscription has been written. -/
theorem grantIf_rg (hevent : delivered py (raws i) = some (event, body))
    (hknown : event.eventType ∈ knownEvents) (hsubs : SubscriptionOps event subs)
    (h : Clean [journalRow event body] [] subs [] l) (e : AuditEvent) :
    (adaptyProtocol py settings raws).rg i (Scoped py settings raws i)
      ((grantIf settings event (classifyEvent event)).bind fun _ =>
        (recordAudit e).bind fun _ => .ret ⟨.applied, none, none⟩) l := by
  cases hsem : classifyEvent event with
  | granting =>
    simp only [grantIf, grantTier, bind_eq, pure_eq, bind_assoc, ret_bind]
    exact h.grant_rg hsem (fun x l hl => Scoped.raise x hl) trivial fun res l₁ _ _ h₁ =>
      audit_rg hevent hknown hsubs h₁ e
  | expiring | noop => exact audit_rg hevent hknown hsubs h.ready e

/-- The event once it is in the journal. -/
theorem mutate_rg (hevent : delivered py (raws i) = some (event, body))
    (hknown : event.eventType ∈ knownEvents) (h : Clean [journalRow event body] [] [] [] l) :
    (adaptyProtocol py settings raws).rg i (Scoped py settings raws i)
      ((mutate settings event (classifyEvent event)).bind fun now =>
        (recordAudit (auditEvent py event now)).bind fun _ => .ret ⟨.applied, none, none⟩) l := by
  have hupsert : classifyEvent event ≠ .noop → (adaptyProtocol py settings raws).rg i
      (Scoped py settings raws i)
      (((upsertSubscription event (classifyEvent event)).bind fun written =>
        (grantIf settings event (classifyEvent event)).bind fun _ =>
          (.ret (some written.1, written.2) : BillingProg _)).bind fun now =>
          (recordAudit (auditEvent py event now)).bind fun _ => .ret ⟨.applied, none, none⟩) l := by
    intro hsem
    simp only [upsertSubscription, readSubscription, TxProg.stmt, bind_eq, pure_eq, act_bind,
      ret_bind, bind_assoc]
    refine rg_read (fun _ _ _ => rfl) fun l₁ he₁ _ => ?_
    have h₁ : Clean [journalRow event body] [] [] [] l₁ := Clean.stable.relies trivial h he₁
    generalize (BillingStmt.run l₁.gen.2 l₁.gen.1 (l₁.view billingStore)
      (.readSubscription event.customerUserId)).1 = row
    have hsubs : SubscriptionOps event (flushOps event.customerUserId
        (wanted event (classifyEvent event) row) row) := by
      rw [SubscriptionOps, if_neg hsem]
      exact ⟨row, rfl⟩
    refine flush_rg (fun x l hl => Scoped.raise x hl) trivial h₁ _ _ row fun l₂ _ h₂ => ?_
    exact grantIf_rg hevent hknown hsubs h₂ _
  cases hsem : classifyEvent event with
  | noop =>
    simp only [mutate, readSubscription, TxProg.stmt, bind_eq, pure_eq, act_bind, ret_bind]
    refine rg_read (fun _ _ _ => rfl) fun l₁ he₁ _ => ?_
    have h₁ : Clean [journalRow event body] [] [] [] l₁ := Clean.stable.relies trivial h he₁
    refine audit_rg hevent hknown ?_ h₁.ready _
    rw [SubscriptionOps, if_pos hsem]
  | granting =>
    rw [hsem] at hupsert
    exact hupsert fun h => by cases h
  | expiring =>
    rw [hsem] at hupsert
    exact hupsert fun h => by cases h

/-- A recognised event. -/
theorem applyEvent_rg (hevent : delivered py (raws i) = some (event, body))
    (hknown : event.eventType ∈ knownEvents) (hlog : l.log = []) (hdone : l.done = []) :
    (adaptyProtocol py settings raws).rg i (Scoped py settings raws i)
      (applyEvent py settings event body) l := by
  simp only [applyEvent, insertAdaptyEvent, TxProg.stmt, bind_eq, pure_eq, act_bind, ret_bind]
  refine rg_write (fun t g d => ?_) fun l₁ he₁ _ => ?_
  · simp only [BillingStmt.run]
    split <;> rfl
  have hlog₁ : l₁.log = [] := he₁.own.1.trans hlog
  have hdone₁ : l₁.done = [] := he₁.own.2.2.1.trans hdone
  have hview : l₁.view billingStore = l₁.db := by
    show billingStore.view l₁.log l₁.db = l₁.db
    rw [hlog₁]
    rfl
  rw [hview]
  cases hany : l₁.db.adaptyEvents.any fun r => r.eventId = (journalRow event body).eventId with
  | true =>
    simp only [BillingStmt.run, hany, if_true, Own.write_nil]
    obtain ⟨r, hr, hid⟩ := List.any_eq_true.1 hany
    refine Protocol.rg_ret fun l₂ he₂ _ => .quiet (he₂.own.1.trans hlog₁)
      (he₂.own.2.2.1.trans hdone₁) (fun h => by cases h)
      fun _ => ⟨event, body, hevent, r, relies_mem he₂ hr, ?_⟩
    exact of_decide_eq_true hid
  | false =>
    simp only [BillingStmt.run, hany, Bool.false_eq_true, if_false]
    refine mutate_rg hevent hknown ⟨⟨?_, ?_, ?_, hdone₁, fun row hrow r hr he => ?_,
      fun _ h => by cases h⟩, ?_⟩
    · show adaptyRows (l₁.log ++ _) = _
      rw [hlog₁]
      rfl
    · show cloudPaymentsRows (l₁.log ++ _) = _
      rw [hlog₁]
      rfl
    · show subscriptionOps (l₁.log ++ _) = _
      rw [hlog₁]
      rfl
    · rw [List.mem_singleton.1 hrow] at he
      exact List.any_eq_false.1 hany r hr (decide_eq_true he)
    · show walletOps (l₁.log ++ _) = _
      rw [hlog₁]
      rfl

/-- A delivery that is ignored. -/
theorem ignored_rg (hlog : l.log = []) (hdone : l.done = []) (reason eventType : Option String) :
    (adaptyProtocol py settings raws).rg i (Scoped py settings raws i)
      (.ret (ignored reason eventType)) l :=
  Protocol.rg_ret fun _ he _ => .quiet (he.own.1.trans hlog) (he.own.2.2.1.trans hdone) nofun nofun

/-- **One delivery among others.** -/
theorem serve_rg (hlog : l.log = []) (hdone : l.done = []) :
    (adaptyProtocol py settings raws).rg i (Ended py (raws i)) (serve py settings (raws i)) l := by
  refine Protocol.rg_sessionScope trivial (Protocol.rg_mono (Q := Scoped py settings raws i)
    (fun o l' _ hq => ?_) ?_)
  · cases o with
    | ok a => exact hq
    | error x => exact hq
  unfold handle
  split
  · exact ignored_rg hlog hdone _ _
  · rename_i hraw
    split
    · exact Protocol.rg_raise fun _ he _ => .raise _ (he.own.2.2.1.trans hdone)
    · exact ignored_rg hlog hdone _ _
    · rename_i kvs hkvs
      unfold handleBody
      split
      · exact ignored_rg hlog hdone _ _
      · rename_i eventId heventId
        split
        · exact ignored_rg hlog hdone _ _
        · rename_i userId huserId
          have hevent : delivered py (raws i) =
              some (parsedEvent py (.obj kvs) eventId userId, .obj kvs) := by
            rw [delivered, if_neg hraw, hkvs]
            simp only [heventId, huserId, Option.bind_some, Option.map_some]
          simp only [handleEvent, userExists, TxProg.stmt, bind_eq, pure_eq, act_bind, ret_bind]
          refine rg_read (fun _ _ _ => rfl) fun l₁ he₁ _ => ?_
          have hlog₁ : l₁.log = [] := he₁.own.1.trans hlog
          have hdone₁ : l₁.done = [] := he₁.own.2.2.1.trans hdone
          split
          · split
            · rename_i hknown
              exact applyEvent_rg hevent hknown hlog₁ hdone₁
            · exact ignored_rg hlog₁ hdone₁ _ _
          · exact ignored_rg hlog₁ hdone₁ _ _
    · exact ignored_rg hlog hdone _ _

end Programs

/-! ## All deliveries -/

section Run

variable {ι : Type} {py : Python} {settings : BillingSettings} {raws : ι → List UInt8}

/-- A commit that is empty, or the whole of the event of its delivery. -/
def Whole (py : Python) (settings : BillingSettings) (raw : List UInt8) (log : List BillingOp) :
    Prop :=
  log = [] ∨ ∃ event body, delivered py raw = some (event, body) ∧
    adaptyRows log = [journalRow event body] ∧ SubscriptionOps event (subscriptionOps log) ∧
    Accounted (classifyEvent event = .granting) (creditRow settings event) log

/-- What the commits of deliveries have done to the tables. -/
structure Journaled (settings : BillingSettings) (py : Python) (raws : ι → List UInt8)
    (d₀ : BillingDb) (hist : List (ι × List BillingOp)) (d : BillingDb) : Prop where
  whole : ∀ c ∈ hist, Whole py settings (raws c.1) c.2
  /-- An event is committed once. -/
  eventOnce : hist.Pairwise fun c c' => ∀ r ∈ adaptyRows c.2, ∀ r' ∈ adaptyRows c'.2,
    r.eventId ≠ r'.eventId
  eventNew : ∀ c ∈ hist, ∀ r ∈ adaptyRows c.2, ∀ r₀ ∈ d₀.adaptyEvents, r₀.eventId ≠ r.eventId
  /-- A key of a user is credited once. -/
  creditOnce : hist.Pairwise fun c c' => ∀ r ∈ ledgerRows c.2, ∀ r' ∈ ledgerRows c'.2, r.key ≠ r'.key
  creditNew : ∀ c ∈ hist, ∀ r ∈ ledgerRows c.2, ∀ r₀ ∈ d₀.accounts.ledger, r₀.key ≠ r.key
  journal : d.adaptyEvents = d₀.adaptyEvents ++ hist.flatMap fun c => adaptyRows c.2
  ledger : d.accounts.ledger = d₀.accounts.ledger ++ creditedRows hist
  balance : ∀ u, d.accounts.balance u = d₀.accounts.balance u + net u (creditedRows hist)

/-- The commits that the protocol allows. -/
theorem Journaled.of_commits {d₀ d : BillingDb} {hist : List (ι × List BillingOp)}
    (h : Commits billingStore (adaptyProtocol py settings raws).may d₀ hist d) :
    Journaled settings py raws d₀ hist d := by
  have hevent := h.once BillingDb.adaptyEvents AdaptyWebhookEvent.eventId adaptyEvents_view
    fun i g d log hm => by
    rcases hm with rfl | ⟨event, body, -, happ⟩
    · simp [adaptyRows]
    · intro k hk k₀ hk₀
      rw [happ.journal] at hk
      rw [List.mem_singleton.1 hk]
      exact happ.new k₀ hk₀
  have hcredit := h.once (fun d => d.accounts.ledger) LedgerTransaction.key ledger_view
    fun i g d log hm => by
    rcases hm with rfl | ⟨event, body, -, happ⟩
    · simp [ledgerRows, walletOps, rows]
    · exact happ.newKeys
  refine ⟨?_, hevent.1, hevent.2, hcredit.1, hcredit.2, h.table_eq BillingDb.adaptyEvents adaptyEvents_view,
    ledger_commits h, balance_commits (fun i g d log hm => ?_) h⟩
  · refine h.forall_mem (A := fun i log => Whole py settings (raws i) log) fun i g d log hm => ?_
    refine hm.imp_right ?_
    rintro ⟨event, body, hevent, happ⟩
    exact ⟨event, body, hevent, happ.journal, happ.subscription, happ.accounted⟩
  · rcases hm with rfl | ⟨event, body, -, happ⟩
    · exact fun u => rfl
    · exact happ.accounted.balanced

/-- The deliveries of a pool. -/
abbrev AdaptyPool (ι : Type) : Type :=
  Pool ι BillingStmt BillingStmt.Resp BillingDb BillingOp (ℕ × Time) Unit BillingError WebhookOutcome

/-- The deliveries `raws`, about to be served. -/
def deliveries (py : Python) (settings : BillingSettings) (g : ℕ × Time) (d : BillingDb)
    (raws : ι → List UInt8) : AdaptyPool ι :=
  Pool.begin g d () fun i => serve py settings (raws i)

/-- **Crediting.** In every run of deliveries, in any interleaving and with a failure at any point:
an event id is committed once, a transaction of a user is credited once, and with the amount of its
product (`Accounted`); a delivery that is ignored or a duplicate has written nothing; a delivery
that has raised has committed nothing; and a delivery is a duplicate only of one that has been
committed. -/
theorem adapty_crediting [DecidableEq ι] {g : ℕ × Time} {d₀ : BillingDb} {P : AdaptyPool ι}
    (hr : (deliveries py settings g d₀ raws).Reaches billingStore P) :
    Journaled settings py raws d₀ P.hist P.db ∧
      (∀ i outcome, (P.thr i).prog = some (.ret outcome) → outcome.result ≠ .applied →
        ∀ log ∈ P.commitsOf i, log = []) ∧
      (∀ i x, (P.thr i).prog = some (.raise x) → P.commitsOf i = []) ∧
      ∀ i outcome, (P.thr i).prog = some (.ret outcome) → outcome.result = .duplicate →
        ∃ event body, delivered py (raws i) = some (event, body) ∧
          ((∃ r ∈ d₀.adaptyEvents, r.eventId = event.eventId) ∨
            ∃ c ∈ P.hist, c.1 ≠ i ∧ ∃ r ∈ adaptyRows c.2, r.eventId = event.eventId) := by
  have hkeeps : Pool.Keeps (adaptyProtocol py settings raws) (fun i => Ended py (raws i)) d₀ P :=
    Pool.ReachesIf.keeps (hr.reachesIf fun _ _ _ => trivial)
      (Pool.begin_keeps trivial fun i => serve_rg rfl rfl)
  have hrun := Journaled.of_commits hkeeps.run
  refine ⟨hrun, fun i outcome hp hne log hlog => ?_, fun i x hp => ?_,
    fun i outcome hp hdup => ?_⟩
  · have hended := (hkeeps.result hp).1 hne
    have hlog : log ∈ (P.own i).done := hlog
    rw [hended] at hlog
    exact List.mem_singleton.1 hlog
  · exact hkeeps.thr i _ hp _ .refl hkeeps.inv
  · have hended := hkeeps.result hp
    obtain ⟨event, body, hevent, r, hr, hid⟩ := hended.2.2 hdup
    refine ⟨event, body, hevent, ?_⟩
    have hr : r ∈ P.db.adaptyEvents := hr
    rw [hrun.journal, List.mem_append, List.mem_flatMap] at hr
    refine hr.imp (fun h => ⟨r, h, hid⟩) ?_
    rintro ⟨c, hc, hrow⟩
    refine ⟨c, hc, fun hci => ?_, r, hrow, hid⟩
    -- a duplicate itself commits an empty log
    have hdone : P.commitsOf i = [[]] := hended.1 (by rw [hdup]; exact nofun)
    have hmem : c.2 ∈ P.commitsOf i := by
      refine List.mem_map.2 ⟨c, List.mem_filter.2 ⟨hc, by simpa using hci⟩, rfl⟩
    rw [hdone, List.mem_singleton] at hmem
    rw [hmem] at hrow
    cases hrow

end Run

/-- A library that reads one body: an activation for user 7. -/
def oneBody : Python where
  loads _ := .value (.obj [("profile_event_id", .str "event"), ("event_type", .str "trial_started"),
    ("customer_user_id", .str "seven"), ("transaction_id", .str "transaction"),
    ("vendor_product_id", .str "week")])
  loadsText _ := .valueError
  lower s := s
  strip s := s
  str _ := ""
  uuid _ := some 7
  fromisoformat _ := none
  isoformat _ := ""

/-- The session has ended with a duplicate. -/
def isDuplicate : Option (BillingProg WebhookOutcome) → Bool
  | some (.ret outcome) => outcome.result = .duplicate
  | _ => false

/-- One credit of 1000, and a redelivery that is a duplicate. -/
def creditedOnce (P : AdaptyPool (Fin 2)) : Bool :=
  P.db.accounts.ledger.map (·.amount) = [1000] && P.db.accounts.balance 7 = 1000 &&
    isDuplicate (P.thr 1).prog

/-- A delivery and its redelivery. -/
theorem adapty_crediting_run : ∃ P : AdaptyPool (Fin 2), creditedOnce P = true ∧
    Journaled .unmapped oneBody (fun _ => [1]) emptyTables P.hist P.db := by
  have hids : ∀ i : Fin 2, i ∈ [0, 1] := by decide
  have hplay : (Pool.play billingHandler [0, 1] [0, 0, 0, 0, 0, 0, 0, 0, 0, 0, 1, 1, 1]
      (deliveries oneBody .unmapped (0, 0) emptyTables fun _ => [1]) ()).any
      (fun r => creditedOnce r.1) = true := by decide +kernel
  obtain ⟨P, hr, hP⟩ := Pool.exists_of_play hids hplay
  exact ⟨P, hP, (adapty_crediting hr).1⟩

/-- A credit of 1000. -/
def isCredited (P : AdaptyPool (Fin 1)) : Bool :=
  P.db.accounts.ledger.any fun row => row.amount = 1000

/-- The product map need not have an amount for what is credited: a product that it does not list
is credited with the fallback. -/
theorem adapty_crediting_fails : ∃ P : AdaptyPool (Fin 1),
    (deliveries oneBody .unmapped (0, 0) emptyTables fun _ => [1]).Reaches billingStore P ∧
      ∃ row ∈ P.db.accounts.ledger, ∀ product,
        BillingSettings.unmapped.adaptyProductTokens.get product ≠ some row.amount := by
  have hids : ∀ i : Fin 1, i ∈ [0] := by decide
  have hplay : (Pool.play billingHandler [0] [0, 0, 0, 0, 0, 0, 0, 0, 0, 0]
      (deliveries oneBody .unmapped (0, 0) emptyTables fun _ => [1]) ()).any
      (fun r => isCredited r.1) = true := by decide +kernel
  obtain ⟨P, hr, hP⟩ := Pool.exists_of_play hids hplay
  obtain ⟨row, hrow, -⟩ := List.any_eq_true.1 hP
  exact ⟨P, hr, row, hrow, fun product => nofun⟩

end ChatBackend.Billing.Adapty

import ChatBackend.Billing.Adapty
import ChatBackend.Billing.CloudPaymentsOutcome
import ChatBackend.Foundations.Rejection

/-!
# The bodies on which the webhook of Adapty fails

The parser accepts whatever it is given, and hands it to a database that does not: PostgreSQL and its
driver refuse some texts, documents and points in time. `handle` returns an outcome exactly when the
body can be read, everything that its event writes is accepted, and the wallet does not refuse the
credits (`adapty_outcome`).
-/

namespace ChatBackend.Billing.Adapty

open Wallet Policy Prog Store CloudPayments

/-! ## The database -/

/-- A printable character of ASCII. -/
def isPrintable (c : Char) : Bool := 32 ≤ c.toNat && c.toNat < 127

/-- The values that the database and its driver accept. -/
structure Postgres where
  /-- A text, as a column or in a condition. -/
  text : String → Bool
  /-- A text in a JSONB document that the services write. -/
  jsonText : String → Bool
  /-- A body, written by `json.dumps` and cast to JSONB. -/
  document : WireJson → Bool
  timestamp : Time → Bool
  plain : ∀ s : String, s.length ≤ 100 → s.toList.all isPrintable = true → jsonText s = true

mutual

/-- All texts of a document are accepted. -/
def Postgres.json (pg : Postgres) : Json → Bool
  | .str s => pg.jsonText s
  | .arr xs => pg.jsons xs
  | .obj kvs => pg.entries kvs
  | _ => true

def Postgres.jsons (pg : Postgres) : List Json → Bool
  | [] => true
  | j :: js => pg.json j && pg.jsons js

def Postgres.entries (pg : Postgres) : List (String × Json) → Bool
  | [] => true
  | kv :: kvs => pg.jsonText kv.1 && pg.json kv.2 && pg.entries kvs

end

def Postgres.key (pg : Postgres) : IdemKey → Bool
  | .text s => pg.text s
  | .uuid _ => true

/-- The columns of a subscription. -/
def Postgres.columns (pg : Postgres) (plan : Option String) (expiresAt : Option Time) : Bool :=
  plan.all pg.text && expiresAt.all pg.timestamp

/-- The statements that are accepted; an `UPDATE` sends the columns that have changed. -/
def Postgres.accepts (pg : Postgres) : BillingStmt → Bool
  | .insertAdaptyEvent row =>
    pg.text row.eventId && pg.text row.eventType && pg.document row.payload
  | .insertCloudPaymentsEvent row =>
    pg.text row.transactionId && pg.text row.productId && pg.text row.kind && pg.json row.payload
  | .insertSubscription _ row => pg.columns row.plan row.expiresAt
  | .upsertSubscription _ row => pg.columns row.plan row.expiresAt
  | .updateSubscription _ loaded wanted =>
    pg.columns (loaded.changeTo wanted).plan.join (loaded.changeTo wanted).expiresAt.join
  | .wallet (.insertLedger _ _ _ metaData key) => pg.json metaData && pg.key key
  | .wallet (.existingTx _ key) => pg.key key
  | .wallet (.recordAudit event) => pg.json event.payload
  | _ => true

def Postgres.acceptsAct (pg : Postgres) : TxAct BillingStmt → Bool
  | .stmt s => pg.accepts s
  | _ => true

/-- `handle` with this database. -/
def Postgres.handle (pg : Postgres) (py : Python) (settings : BillingSettings) (raw : List UInt8) :
    TxProg BillingStmt BillingStmt.Resp (Option BillingError) WebhookOutcome :=
  (Adapty.handle py settings raw).guarded pg.acceptsAct

/-! ## What an event writes -/

/-- The write of the subscription, of which the session has loaded the row. -/
def subscriptionWrite (event : ParsedEvent) (semantics : Semantics) (row : Option Subscription) :
    BillingStmt :=
  match row with
  | none => .insertSubscription event.customerUserId (wanted event semantics row)
  | some loaded => .updateSubscription event.customerUserId loaded (wanted event semantics row)

/-- The status and the plan that are audited. -/
def stateAfter (event : ParsedEvent) (row : Option Subscription) :
    Semantics → Option SubscriptionStatus × Option String
  | .noop => (row.map (·.status), row.bind (·.plan))
  | semantics => (some (wanted event semantics row).status, (wanted event semantics row).plan)

/-- The metadata of the credits. -/
def grantMeta (event : ParsedEvent) : Json :=
  .obj [("transactionId", .str event.txn), ("eventType", .str event.eventType),
    ("vendorProductId", optStr event.vendorProductId)]

section Fits

variable (pg : Postgres) (py : Python) (settings : BillingSettings)

/-- The credits of an event are accepted, by the database and by the wallet. -/
def CreditsFit (event : ParsedEvent) (a : Accounts) : Prop :=
  ¬ Refused a event.customerUserId (tierFor settings event.vendorProductId) (grantKey event.txn) ∧
    pg.key (grantKey event.txn) = true ∧ pg.json (grantMeta event) = true

/-- What an event does to the subscription and the credits is accepted. -/
def MutationFits (event : ParsedEvent) (row : Option Subscription) (a : Accounts) : Semantics → Prop
  | .noop => True
  | .expiring => pg.accepts (subscriptionWrite event .expiring row) = true
  | .granting => pg.accepts (subscriptionWrite event .granting row) = true ∧
    CreditsFit pg settings event a

/-- An event is accepted: its row of the journal, and unless it has one already the rest. -/
def EventFits (d : BillingDb) (event : ParsedEvent) (body : WireJson) : Prop :=
  pg.accepts (.insertAdaptyEvent (journalRow event body)) = true ∧
    ((d.adaptyEvents.any fun r => r.eventId = event.eventId) = true ∨
      MutationFits pg settings event (d.subscriptions event.customerUserId) d.accounts
          (classifyEvent event) ∧
        pg.json (auditEvent py event (stateAfter event (d.subscriptions event.customerUserId)
          (classifyEvent event))).payload = true)

/-- A body is handled: it can be read, and an event of a known user and type is accepted. -/
def BodyFits (d : BillingDb) (raw : List UInt8) : Prop :=
  raw ≠ [] → py.loads raw ≠ .failure ∧
    ∀ kvs eventId userId, py.loads raw = .value (.obj kvs) →
      parseEventId (.obj kvs) = some eventId → parseCustomerUserId py (.obj kvs) = some userId →
      d.users userId = true → parseEventType py (.obj kvs) ∈ knownEvents →
        EventFits pg py settings d (parsedEvent py (.obj kvs) eventId userId) (.obj kvs)

end Fits

/-! ## Runs -/

section Runs

variable {pg : Postgres} {py : Python} {settings : BillingSettings} {l : BillingOwn} {α : Type}
  {Q : Except (Option BillingError) α → BillingOwn → Prop}

/-- A statement, refused or performed. -/
theorem solo_guarded {s : BillingStmt} {k : s.Resp → BillingProg α}
    (hrefused : pg.accepts s = false → Q (.error none) l)
    (h : pg.accepts s = true → ∀ t, l.gen.2 ≤ t →
      solo billingStore Q ((k (s.run t l.gen.1 (l.view billingStore)).1).guarded pg.acceptsAct)
        ⟨((s.run t l.gen.1 (l.view billingStore)).2.2, t), l.db,
          l.log ++ (s.run t l.gen.1 (l.view billingStore)).2.1, (), l.done⟩) :
    solo billingStore Q (Prog.guarded pg.acceptsAct (.act (.stmt s) k)) l := by
  cases hs : pg.acceptsAct (.stmt s) with
  | false =>
    rw [guarded_refused hs]
    exact hrefused hs
  | true =>
    rw [guarded_act hs]
    refine solo_stmt ?_
    rintro r ops ⟨n, t'⟩ ⟨⟩ ⟨t, ht, rfl, hrun⟩
    have hk := h hs _ ht
    rw [hrun] at hk
    exact hk

/-- The audit of a credit is inserted as it is, and is accepted. -/
theorem json_credit (pg : Postgres) (u : ℕ) (id amount balance : ℤ) :
    pg.json (AuditEvent.redacted ⟨u, none, .billingCredit, .obj [("ledgerTxId", .num id),
      ("amount", .num amount), ("newBalance", .num balance),
      ("reason", .str "adapty_subscription")]⟩).payload = true := by
  have hkeys : ∀ k ∈ ["ledgerTxId", "amount", "newBalance", "reason"], Json.plainKey k = true := by
    decide +kernel
  have hscalar : ∀ kv ∈ [("ledgerTxId", Json.num id), ("amount", .num amount), ("newBalance", .num balance),
      ("reason", .str "adapty_subscription")], Json.plainKey kv.1 = true ∧ kv.2.IsScalar := by
    intro kv hkv
    refine ⟨hkeys kv.1 (List.mem_map_of_mem (f := Prod.fst) hkv), ?_⟩
    simp only [List.mem_cons, List.not_mem_nil, or_false] at hkv
    rcases hkv with rfl | rfl | rfl | rfl <;> constructor
  rw [AuditEvent.redacted_eq hscalar]
  have hplain : ∀ s ∈ ["ledgerTxId", "amount", "newBalance", "reason", "adapty_subscription"],
      pg.jsonText s = true := by
    intro s hs
    have hall : ∀ s ∈ ["ledgerTxId", "amount", "newBalance", "reason", "adapty_subscription"],
        s.length ≤ 100 ∧ s.toList.all isPrintable = true := by decide
    exact pg.plain s (hall s hs).1 (hall s hs).2
  simp [Postgres.json, Postgres.entries, hplain]

/-- The audit row of an event is inserted as it is. -/
theorem auditEvent_redacted (py : Python) (event : ParsedEvent)
    (now : Option SubscriptionStatus × Option String) :
    (auditEvent py event now).redacted = auditEvent py event now := by
  have hkeys : ∀ k ∈ ["adaptyEventId", "eventType", "semantics", "status", "plan", "expiresAt",
      "transactionId", "willRenew", "customerId"], Json.plainKey k = true := by
    decide +kernel
  have hopt : ∀ s : Option String, (optStr s).IsScalar := .ofOption_map .str
  unfold auditEvent
  refine AuditEvent.redacted_eq fun kv hkv => ⟨hkeys kv.1 (List.mem_map_of_mem (f := Prod.fst) hkv), ?_⟩
  simp only [List.mem_cons, List.not_mem_nil, or_false] at hkv
  rcases hkv with rfl | rfl | rfl | rfl | rfl | rfl | rfl | rfl | rfl
  · exact .str _
  · exact .str _
  · exact .str _
  · exact hopt _
  · exact hopt _
  · exact hopt _
  · exact .str _
  · exact .ofOption_map .bool _
  · exact .num _

/-- The statements of a grant whose own values are accepted. -/
theorem grantTier_only {event : ParsedEvent} (hkey : pg.key (grantKey event.txn) = true)
    (hmeta : pg.json (grantMeta event) = true) :
    (grantTier settings event).Only fun e => pg.acceptsAct e = true := by
  unfold grantTier grant
  refine Only.embed (A := fun e => pg.acceptsAct (walletAct e) = true) ?_ fun _ h => h
  unfold Wallet.grant
  split
  · trivial
  · refine ⟨rfl, fun _ => ⟨?_, fun o => ?_⟩⟩
    · show (pg.json (grantMeta event) && pg.key (grantKey event.txn)) = true
      rw [hmeta, hkey]
      rfl
    · cases o with
      | none =>
        refine ⟨hkey, fun o => ?_⟩
        cases o with
        | none => trivial
        | some row =>
          simp only [ret_bind]
          split
          · trivial
          · exact ⟨rfl, fun _ => trivial⟩
      | some id => exact ⟨rfl, fun o => ⟨json_credit pg event.customerUserId _ _ _, fun _ => trivial⟩⟩

/-- A grant that is not accepted raises, and one that is returns. -/
theorem grantTier_guarded {event : ParsedEvent}
    {Q : Except (Option BillingError) ConsumeResult → BillingOwn → Prop}
    (hraise : ¬ CreditsFit pg settings event (l.view billingStore).accounts →
      ∀ x l', Q (.error x) l')
    (hok : CreditsFit pg settings event (l.view billingStore).accounts → ∀ res l', Q (.ok res) l') :
    solo billingStore Q ((grantTier settings event).guarded pg.acceptsAct) l := by
  by_cases hfit : pg.key (grantKey event.txn) = true ∧ pg.json (grantMeta event) = true
  · refine wp_guarded_of_only (grantTier_only hfit.1 hfit.2) ?_
    exact grant_solo (fun hrefused x l' _ => hraise (fun h => h.1 hrefused) _ l')
      fun hok' res l' _ => hok ⟨hok', hfit⟩ res l'
  · have hnot : ¬ CreditsFit pg settings event (l.view billingStore).accounts := fun h => hfit h.2
    unfold grantTier grant Wallet.grant
    split
    · exact hraise hnot _ l
    · refine solo_guarded (fun _ => hraise hnot _ _) fun _ t ht => ?_
      refine solo_guarded (fun _ => hraise hnot _ _) fun haccepts t ht => ?_
      refine absurd (Bool.and_eq_true_iff.1 ?_).symm hfit
      exact haccepts

/-- The write of the subscription, which leaves the accounts as they are. -/
theorem upsertSubscription_guarded {event : ParsedEvent} {semantics : Semantics}
    {row : Option Subscription}
    {Q : Except (Option BillingError) (SubscriptionStatus × Option String) → BillingOwn → Prop}
    (hrow : (l.view billingStore).subscriptions event.customerUserId = row)
    (hraise : pg.accepts (subscriptionWrite event semantics row) = false →
      ∀ x l', Q (.error x) l')
    (hok : pg.accepts (subscriptionWrite event semantics row) = true →
      ∀ l', (l'.view billingStore).accounts = (l.view billingStore).accounts →
        Q (.ok ((wanted event semantics row).status, (wanted event semantics row).plan)) l') :
    solo billingStore Q ((upsertSubscription event semantics).guarded pg.acceptsAct) l := by
  unfold upsertSubscription
  refine solo_guarded (fun h => absurd h nofun) fun _ t₁ ht₁ => ?_
  simp only [BillingStmt.run, hrow, List.append_nil]
  cases row with
  | none =>
    refine solo_guarded (fun h => hraise h _ _) fun haccepts t₂ ht₂ => ?_
    have hnone : (billingStore.view l.log l.db).subscriptions event.customerUserId = none := hrow
    simp only [BillingStmt.run, Own.view, hnone, Option.isSome_none, Bool.false_eq_true, if_false]
    refine hok haccepts _ ?_
    rw [Own.view, view_append]
    rfl
  | some loaded =>
    refine solo_guarded (fun h => hraise h _ _) fun haccepts t₂ ht₂ => ?_
    refine hok haccepts _ ?_
    rw [Own.view, view_append]
    rfl

/-- The mutations of an event raise when they are not accepted, and else return what is audited. -/
theorem mutate_guarded {event : ParsedEvent} {row : Option Subscription} {a : Accounts}
    (semantics : Semantics)
    {Q : Except (Option BillingError) (Option SubscriptionStatus × Option String) → BillingOwn → Prop}
    (hrow : (l.view billingStore).subscriptions event.customerUserId = row)
    (haccounts : (l.view billingStore).accounts = a)
    (hraise : ¬ MutationFits pg settings event row a semantics → ∀ x l', Q (.error x) l')
    (hok : MutationFits pg settings event row a semantics →
      ∀ l', Q (.ok (stateAfter event row semantics)) l') :
    solo billingStore Q ((mutate settings event semantics).guarded pg.acceptsAct) l := by
  cases semantics with
  | noop =>
    refine solo_guarded (fun h => by cases h) fun _ t ht => ?_
    simp only [BillingStmt.run, hrow]
    exact hok trivial _
  | expiring =>
    show solo billingStore Q (Prog.guarded _ (Prog.bind _ _)) l
    rw [guarded_bind]
    refine solo_bind (upsertSubscription_guarded hrow (fun h x l' => hraise ?_ x l')
      fun haccepts l' _ => hok haccepts l')
    exact fun hfit => Bool.false_ne_true (h.symm.trans hfit)
  | granting =>
    show solo billingStore Q (Prog.guarded _ (Prog.bind _ _)) l
    rw [guarded_bind]
    refine solo_bind (upsertSubscription_guarded hrow (fun h x l' => hraise ?_ x l')
      fun haccepts l' hl' => ?_)
    · exact fun hfit => Bool.false_ne_true (h.symm.trans hfit.1)
    · show solo billingStore Q (Prog.guarded _ (Prog.bind (Prog.bind _ _) _)) l'
      rw [guarded_bind, guarded_bind]
      refine solo_bind (solo_bind (grantTier_guarded (fun h x l'' => hraise ?_ x l'')
        fun h res l'' => hok ⟨haccepts, ?_⟩ l''))
      · rw [hl', haccounts] at h
        exact fun hfit => h hfit.2
      · rwa [hl', haccounts] at h

/-- **An event is applied or a duplicate** when it is accepted. -/
theorem applyEvent_guarded {event : ParsedEvent} {body : WireJson} (hlog : l.log = []) :
    solo billingStore (fun o _ => (∃ outcome, o = .ok outcome) ↔
        EventFits pg py settings l.db event body)
      ((applyEvent py settings event body).guarded pg.acceptsAct) l := by
  have hview : l.view billingStore = l.db := by
    rw [Own.view, hlog]
    rfl
  have hfail : ∀ {x : Option BillingError}, ¬ EventFits pg py settings l.db event body →
      ((∃ outcome : WebhookOutcome, (.error x : Except (Option BillingError) WebhookOutcome) =
        .ok outcome) ↔ EventFits pg py settings l.db event body) :=
    fun hnot => ⟨by rintro ⟨_, ⟨⟩⟩, fun h => absurd h hnot⟩
  unfold applyEvent
  refine solo_guarded (fun h => hfail fun hfit => ?_) fun haccepts t ht => ?_
  · exact Bool.false_ne_true (h.symm.trans hfit.1)
  rw [hview]
  cases hany : l.db.adaptyEvents.any fun r => r.eventId = event.eventId with
  | true =>
    have hrun : (BillingStmt.run t l.gen.1 l.db (.insertAdaptyEvent (journalRow event body))) =
        (none, [], l.gen.1) := if_pos hany
    rw [hrun]
    exact ⟨fun _ => ⟨haccepts, .inl hany⟩, fun _ => ⟨_, rfl⟩⟩
  | false =>
    have hrun : (BillingStmt.run t l.gen.1 l.db (.insertAdaptyEvent (journalRow event body))) =
        (some event.eventId, [.insertAdaptyEvent (journalRow event body)], l.gen.1) :=
      if_neg (by rw [journalRow, hany]; exact fun h => by cases h)
    rw [hrun, hlog]
    show solo billingStore _
      (Prog.guarded _ (Prog.bind (mutate settings event (classifyEvent event)) _)) _
    rw [guarded_bind]
    refine solo_bind (mutate_guarded (classifyEvent event) rfl rfl (fun hnot x l' => ?_)
      fun hfit l' => ?_)
    · refine hfail ?_
      rintro ⟨-, hdup | ⟨hfit, -⟩⟩
      · rw [hany] at hdup
        cases hdup
      · exact hnot hfit
    · refine solo_guarded (fun h => hfail ?_) fun haudit t' ht' => ?_
      · rintro ⟨-, hdup | ⟨-, haudit⟩⟩
        · rw [hany] at hdup
          cases hdup
        · have hpayload := h.symm.trans (show pg.json (auditEvent py event _).redacted.payload = true by
            rw [auditEvent_redacted]
            exact haudit)
          exact Bool.false_ne_true hpayload
      · have hpayload : pg.json (auditEvent py event _).redacted.payload = true := haudit
        rw [auditEvent_redacted] at hpayload
        exact ⟨fun _ => ⟨haccepts, .inr ⟨hfit, hpayload⟩⟩, fun _ => ⟨_, rfl⟩⟩

/-- A body that is an object. -/
theorem handleBody_guarded {raw : List UInt8} {kvs : List (String × WireJson)} (hlog : l.log = [])
    (hraw : raw ≠ []) (hloads : py.loads raw = .value (.obj kvs)) :
    solo billingStore (fun o _ => (∃ outcome, o = .ok outcome) ↔ BodyFits pg py settings l.db raw)
      ((handleBody py settings (.obj kvs)).guarded pg.acceptsAct) l := by
  have hview : l.view billingStore = l.db := by
    rw [Own.view, hlog]
    rfl
  -- the body fits when its event does, as far as it is looked at
  have hfits : BodyFits pg py settings l.db raw ↔ ∀ eventId userId,
      parseEventId (.obj kvs) = some eventId → parseCustomerUserId py (.obj kvs) = some userId →
      l.db.users userId = true → parseEventType py (.obj kvs) ∈ knownEvents →
        EventFits pg py settings l.db (parsedEvent py (.obj kvs) eventId userId) (.obj kvs) := by
    refine ⟨fun h eventId userId => (h hraw).2 kvs eventId userId hloads, fun h _ => ⟨?_, ?_⟩⟩
    · rw [hloads]
      exact fun h => by cases h
    · intro kvs' eventId userId hkvs
      rw [hloads] at hkvs
      cases hkvs
      exact h eventId userId
  have hok : ∀ {outcome : WebhookOutcome}, BodyFits pg py settings l.db raw →
      ((∃ o, (.ok outcome : Except (Option BillingError) WebhookOutcome) = .ok o) ↔
        BodyFits pg py settings l.db raw) :=
    fun h => ⟨fun _ => h, fun _ => ⟨_, rfl⟩⟩
  unfold handleBody
  cases hevent : parseEventId (.obj kvs) with
  | none =>
    refine hok (hfits.2 fun eventId userId h => ?_)
    rw [hevent] at h
    cases h
  | some eventId =>
    cases huser : parseCustomerUserId py (.obj kvs) with
    | none =>
      refine hok (hfits.2 fun eventId userId _ h => ?_)
      rw [huser] at h
      cases h
    | some userId =>
      have hone : BodyFits pg py settings l.db raw ↔
          (l.db.users userId = true → parseEventType py (.obj kvs) ∈ knownEvents →
            EventFits pg py settings l.db (parsedEvent py (.obj kvs) eventId userId) (.obj kvs)) := by
        refine hfits.trans ⟨fun h => h _ _ hevent huser, fun h eventId' userId' he hu => ?_⟩
        rw [hevent] at he
        rw [huser] at hu
        cases he
        cases hu
        exact h
      dsimp only
      unfold handleEvent
      refine solo_guarded (fun h => by cases h) fun _ t ht => ?_
      have hexists : (BillingStmt.run t l.gen.1 (l.view billingStore)
          (.userExists (parsedEvent py (.obj kvs) eventId userId).customerUserId)) =
            (l.db.users userId, [], l.gen.1) := by
        rw [hview]
        rfl
      rw [hexists, hlog]
      cases hknown : l.db.users userId with
      | false => exact hok (hone.2 fun h => by rw [hknown] at h; cases h)
      | true =>
        simp only [ret_bind, if_true]
        by_cases htype : (parsedEvent py (.obj kvs) eventId userId).eventType ∈ knownEvents
        · rw [if_pos htype]
          refine Prog.wp_mono (fun o l' h => ?_) (applyEvent_guarded rfl)
          exact h.trans (hone.trans ⟨fun h => h hknown htype, fun h _ _ => h⟩).symm
        · rw [if_neg htype]
          exact hok (hone.2 fun _ h => absurd h htype)

/-- **An outcome is returned** when the body is handled. -/
theorem handle_guarded {raw : List UInt8} (hlog : l.log = []) :
    solo billingStore (fun o _ => (∃ outcome, o = .ok outcome) ↔ BodyFits pg py settings l.db raw)
      (pg.handle py settings raw) l := by
  unfold Postgres.handle Adapty.handle
  by_cases hraw : raw = []
  · rw [if_pos hraw]
    exact ⟨fun _ h => absurd hraw h, fun _ => ⟨_, rfl⟩⟩
  rw [if_neg hraw]
  have hignored : (∀ kvs, py.loads raw ≠ .value (.obj kvs)) → py.loads raw ≠ .failure →
      BodyFits pg py settings l.db raw :=
    fun hobj hfailure _ => ⟨hfailure, fun kvs _ _ h => absurd h (hobj kvs)⟩
  cases hloads : py.loads raw with
  | failure => exact ⟨fun ⟨_, h⟩ => (nomatch h), fun h => absurd hloads (h hraw).1⟩
  | valueError =>
    exact ⟨fun _ => hignored (by rw [hloads]; exact nofun) (by rw [hloads]; exact nofun),
      fun _ => ⟨_, rfl⟩⟩
  | value j =>
    cases j with
    | obj kvs => exact handleBody_guarded hlog hraw hloads
    | _ =>
      exact ⟨fun _ => hignored (by rw [hloads]; exact nofun) (by rw [hloads]; exact nofun),
        fun _ => ⟨_, rfl⟩⟩

end Runs

/-! ## Sequences of bodies -/

section Sequence

variable (pg : Postgres) (py : Python) (settings : BillingSettings)

/-- A processed body: the tables that it has met, and what has become of it. -/
structure Processed where
  db : BillingDb
  raw : List UInt8
  result : Except (Option BillingError) WebhookOutcome

/-- The bodies are processed one after the other, each in its session. -/
inductive Serves : ℕ × Time → BillingDb → List Processed → Prop
  | nil {g : ℕ × Time} {d : BillingDb} : Serves g d []
  | cons {g : ℕ × Time} {d : BillingDb} {raw : List UInt8}
      {o : Except (Option BillingError) WebhookOutcome} {l' : BillingOwn} {rest : List Processed}
      (h : Solo billingStore (TxProg.sessionScope (pg.handle py settings raw)) (Own.begin g d ()) o l')
      (hrest : Serves l'.gen l'.db rest) : Serves g d (⟨d, raw, o⟩ :: rest)

variable {pg py settings}

/-- One body. -/
theorem result_iff {g : ℕ × Time} {d : BillingDb} {raw : List UInt8}
    {o : Except (Option BillingError) WebhookOutcome} {l' : BillingOwn}
    (h : Solo billingStore (TxProg.sessionScope (pg.handle py settings raw)) (Own.begin g d ()) o l') :
    (∃ outcome, o = .ok outcome) ↔ BodyFits pg py settings d raw := by
  have hsolo : solo billingStore (fun o _ => (∃ outcome, o = .ok outcome) ↔
      BodyFits pg py settings d raw) (TxProg.sessionScope (pg.handle py settings raw))
        (Own.begin g d ()) := by
    refine solo_sessionScope (Prog.wp_mono (fun o l' hq => ?_) (handle_guarded rfl))
    cases o with
    | ok outcome => exact hq
    | error x => exact hq
  exact h.of_wp hsolo

/-- **No body raises** in a sequence exactly when each is handled by the tables that it meets. -/
theorem adapty_outcome {g : ℕ × Time} {d : BillingDb} {processed : List Processed}
    (h : Serves pg py settings g d processed) :
    (∀ p ∈ processed, ∃ outcome, p.result = .ok outcome) ↔
      ∀ p ∈ processed, BodyFits pg py settings p.db p.raw := by
  induction h with
  | nil => exact ⟨fun _ p hp => absurd hp List.not_mem_nil, fun _ p hp => absurd hp List.not_mem_nil⟩
  | cons hrun hrest ih =>
    rw [List.forall_mem_cons, List.forall_mem_cons]
    exact and_congr (result_iff hrun) ih

end Sequence

/-! ## Two periods under one transaction -/

mutual

/-- A document without such texts, and with the numbers that JSONB has. -/
def storable : WireJson → Bool
  | .str s => nulFree s
  | .float text => text ∉ ["NaN", "Infinity", "-Infinity"]
  | .arr xs => storables xs
  | .obj kvs => storableEntries kvs
  | _ => true

def storables : List WireJson → Bool
  | [] => true
  | j :: js => storable j && storables js

def storableEntries : List (String × WireJson) → Bool
  | [] => true
  | kv :: kvs => nulFree kv.1 && storable kv.2 && storableEntries kvs

end

/-- A database that refuses what PostgreSQL refuses of short values. -/
def shortPostgres : Postgres where
  text := nulFree
  jsonText := nulFree
  document := storable
  timestamp _ := true
  plain s _ h := by
    refine List.all_eq_true.2 fun c hc => ?_
    have hprintable := List.all_eq_true.1 h c hc
    rw [decide_eq_true_eq]
    rintro rfl
    exact absurd hprintable (by decide)

/-- The bodies, processed by a computation. -/
def process (pg : Postgres) (py : Python) (settings : BillingSettings) :
    ℕ × Time → BillingDb → List (List UInt8) → List Processed
  | _, _, [] => []
  | g, d, raw :: raws =>
    let run := (TxProg.sessionScope (pg.handle py settings raw)).eval stillHandler.solo
      (Own.begin g d (), ())
    ⟨d, raw, run.1⟩ :: process pg py settings run.2.1.gen run.2.1.db raws

theorem serves_process (pg : Postgres) (py : Python) (settings : BillingSettings) (g : ℕ × Time)
    (d : BillingDb) (raws : List (List UInt8)) :
    Serves pg py settings g d (process pg py settings g d raws) := by
  induction raws generalizing g d with
  | nil => exact .nil
  | cons raw raws ih =>
    exact .cons (eval_solo stillHandler (TxProg.sessionScope (pg.handle py settings raw))
      (Own.begin g d (), ())) (ih _ _)

/-- A library that reads two bodies: an activation of a week, and one of a year under the same
transaction. -/
def weekThenYear : Python where
  loads raw := .value (.obj
    [("profile_event_id", .str (if raw = [1] then "first" else "second")),
      ("event_type", .str "trial_started"), ("customer_user_id", .str "seven"),
      ("transaction_id", .str "transaction"),
      ("vendor_product_id", .str (if raw = [1] then "week" else "year"))])
  loadsText _ := .valueError
  lower s := s
  strip s := s
  str _ := ""
  uuid _ := some 7
  fromisoformat _ := none
  isoformat _ := ""

/-- A year is worth more than other products. -/
def yearTokens : BillingSettings :=
  { BillingSettings.unmapped with adaptyProductTokens := ⟨[("year", 5000)], by decide⟩ }

def Processed.failed (p : Processed) : Bool :=
  match p.result with
  | .ok _ => false
  | .error _ => true

/-- An activation is accepted; with the second body, which raises, the condition fails. -/
theorem adapty_outcome_week :
    (∀ p ∈ process shortPostgres weekThenYear yearTokens (0, 0) emptyTables [[1]],
      BodyFits shortPostgres weekThenYear yearTokens p.db p.raw) ∧
    ¬∀ p ∈ process shortPostgres weekThenYear yearTokens (0, 0) emptyTables [[1], [2]],
      BodyFits shortPostgres weekThenYear yearTokens p.db p.raw := by
  have hfits : ∀ raws, (∀ p ∈ process shortPostgres weekThenYear yearTokens (0, 0) emptyTables raws,
      ∃ outcome, p.result = .ok outcome) ↔
      ∀ p ∈ process shortPostgres weekThenYear yearTokens (0, 0) emptyTables raws,
        BodyFits shortPostgres weekThenYear yearTokens p.db p.raw := fun raws =>
    adapty_outcome (serves_process _ _ _ _ _ _)
  have hdone : (process shortPostgres weekThenYear yearTokens (0, 0) emptyTables [[1]]).all
      (fun p => !p.failed) = true := by decide +kernel
  have hfailed : (process shortPostgres weekThenYear yearTokens (0, 0) emptyTables [[1], [2]]).any
      Processed.failed = true := by decide +kernel
  constructor
  · refine (hfits _).1 fun p hp => ?_
    have hp' := List.all_eq_true.1 hdone p hp
    cases ho : p.result with
    | ok outcome => exact ⟨outcome, rfl⟩
    | error x => simp [Processed.failed, ho] at hp'
  · intro hall
    obtain ⟨p, hp, hp'⟩ := List.any_eq_true.1 hfailed
    obtain ⟨outcome, ho⟩ := (hfits _).2 hall p hp
    simp [Processed.failed, ho] at hp'

/-- The second body raises. -/
theorem adapty_outcome_fails :
    ¬ ∀ processed, Serves shortPostgres weekThenYear yearTokens (0, 0) emptyTables processed →
      ∀ p ∈ processed, ∃ outcome, p.result = .ok outcome := by
  intro h
  have hfailed : (process shortPostgres weekThenYear yearTokens (0, 0) emptyTables [[1], [2]]).any
      Processed.failed = true := by decide +kernel
  obtain ⟨p, hp, hp'⟩ := List.any_eq_true.1 hfailed
  obtain ⟨outcome, ho⟩ := h _ (serves_process _ _ _ _ _ _) p hp
  rw [Processed.failed, ho] at hp'
  cases hp'

end ChatBackend.Billing.Adapty

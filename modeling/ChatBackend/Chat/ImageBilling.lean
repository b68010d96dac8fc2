import ChatBackend.Chat.Accumulators

/-!
# Images and their debits

An image is paid for by a debit under the id of its tool call, in the transaction that stores it. The
debit stays when a sweep removes the image of a temporary chat, which has an expiry.

* `ImagesPaid` is the law of the committed states: every image has its debit, and a debit for an image
  has its image unless it was one of a temporary chat.
* `image_billing` adds what a turn commits before its sweep, and what becomes of a generation that
  fails, and of one that is not paid for.
-/

namespace ChatBackend.Chat

open Prog Wallet Policy

/-- The key of the debit for an image. -/
def GeneratedImage.key (i : GeneratedImage) : ℕ × IdemKey := (i.userId, .uuid i.toolCallId)

/-- A debit of the chat for an image. -/
def forImage (r : LedgerTransaction) : Bool :=
  match r.idempotencyKey, r.metaData.get "kind" with
  | .uuid _, some (.str kind) => kind = "image"
  | _, _ => false

/-- The audit of a debit. -/
structure AuditedBy (r : LedgerTransaction) (e : AuditEvent) : Prop where
  user : e.userId = r.userId
  type : e.eventType = .billingDebit
  row : e.payload.get "ledgerTxId" = some (.num r.id)

/-- Every image has one debit. A debit for an image has its image in the session that its audit names; a
debit without a session may have lost it, when the debit is `old`. -/
structure ImagesPaid (cfg : Config) (old : LedgerTransaction → Prop) (d : ChatDb) : Prop where
  distinct : (d.images.map (·.toolCallId)).Nodup
  once : ((d.accounts.ledger.filter forImage).map (·.idempotencyKey)).Nodup
  paid : ∀ i ∈ d.images, ∃ r ∈ d.accounts.ledger, forImage r = true ∧ r.key = i.key
  drawn : ∀ r ∈ d.accounts.ledger, forImage r = true → ∃ e ∈ d.accounts.audit, AuditedBy r e ∧
    (e.sessionId = none ∧ old r ∨
      ∃ i ∈ d.images, r.key = i.key ∧ i.sessionId = e.sessionId ∧ i.expires = i.sessionId.isNone)
  amounts : ∀ r ∈ d.accounts.ledger, forImage r = true →
    r.type = .debit ∧ r.amount = cfg.imageCreditsCost
  others : ∀ r ∈ d.accounts.ledger, forImage r = false →
    ∀ i ∈ d.images, r.idempotencyKey ≠ .uuid i.toolCallId

/-- The law of the images, with calls of turns under whose id no image is paid for. -/
structure ImageLaw (cfg : Config) (old : LedgerTransaction → Prop) (d : ChatDb) : Prop where
  paid : ImagesPaid cfg old d
  calls : ∀ c ∈ d.toolCalls, ∀ r ∈ d.accounts.ledger, forImage r = true →
    r.idempotencyKey ≠ .uuid c.messageStepId

/-- The same during the generation of a turn. -/
structure Turn.ImageLaw (cfg : Config) (t : Turn) (old : LedgerTransaction → Prop) (d : ChatDb) : Prop
    extends ChatBackend.Chat.ImageLaw cfg old d where
  turn : ∀ r ∈ d.accounts.ledger, forImage r = true → r.idempotencyKey ≠ .uuid t.messageStepId

/-! ## Rows added -/

section Rows

variable {cfg : Config} {old old' : LedgerTransaction → Prop} {d d' : ChatDb}

/-- Other rows of the ledger, and audits. -/
theorem ImagesPaid.other (h : ImagesPaid cfg old d) (himages : d'.images = d.images)
    {new : List LedgerTransaction} (hledger : d'.accounts.ledger = d.accounts.ledger ++ new)
    (haudit : d.accounts.audit ⊆ d'.accounts.audit)
    (hnew : ∀ r ∈ new, forImage r = false ∧
      ∀ i ∈ d.images, r.idempotencyKey ≠ .uuid i.toolCallId) : ImagesPaid cfg old d' := by
  have hfilter : new.filter forImage = [] :=
    List.filter_eq_nil_iff.2 fun r hr => by simp [(hnew r hr).1]
  have hold : ∀ r ∈ d'.accounts.ledger, forImage r = true → r ∈ d.accounts.ledger := by
    intro r hr hfor
    rw [hledger] at hr
    rcases List.mem_append.1 hr with hr | hr
    · exact hr
    · rw [(hnew r hr).1] at hfor
      cases hfor
  refine ⟨himages ▸ h.distinct, ?_, fun i hi => ?_, fun r hr hfor => ?_,
    fun r hr hfor => h.amounts r (hold r hr hfor) hfor, fun r hr hfor => ?_⟩
  · rw [hledger, List.filter_append, hfilter, List.append_nil]
    exact h.once
  · rw [himages] at hi
    obtain ⟨r, hr, hpays⟩ := h.paid i hi
    exact ⟨r, hledger ▸ List.mem_append_left _ hr, hpays⟩
  · obtain ⟨e, he, hby, hdrawn⟩ := h.drawn r (hold r hr hfor) hfor
    exact ⟨e, haudit he, hby, himages ▸ hdrawn⟩
  · rw [hledger] at hr
    rw [himages]
    rcases List.mem_append.1 hr with hr | hr
    · exact h.others r hr hfor
    · exact (hnew r hr).2

theorem ImagesPaid.congr (h : ImagesPaid cfg old d) (himages : d'.images = d.images)
    (hledger : d'.accounts.ledger = d.accounts.ledger)
    (haudit : d.accounts.audit ⊆ d'.accounts.audit) : ImagesPaid cfg old d' :=
  h.other himages (hledger.trans (List.append_nil _).symm) haudit nofun

/-- An image with its debit. -/
theorem ImagesPaid.draw (h : ImagesPaid cfg old d) {i : GeneratedImage} {r : LedgerTransaction}
    {e : AuditEvent} (himages : d'.images = d.images ++ [i])
    (hledger : d'.accounts.ledger = d.accounts.ledger ++ [r])
    (haudit : d.accounts.audit ⊆ d'.accounts.audit) (he : e ∈ d'.accounts.audit) (hby : AuditedBy r e)
    (hsession : i.sessionId = e.sessionId) (hexpires : i.expires = i.sessionId.isNone)
    (hfor : forImage r = true) (hkey : r.key = i.key) (htype : r.type = .debit)
    (hamount : r.amount = cfg.imageCreditsCost) (hid : ∀ j ∈ d.images, j.toolCallId ≠ i.toolCallId)
    (hnew : ∀ r ∈ d.accounts.ledger, r.idempotencyKey ≠ .uuid i.toolCallId) :
    ImagesPaid cfg old d' := by
  have hmem : ∀ r' ∈ d'.accounts.ledger, r' ∈ d.accounts.ledger ∨ r' = r := by
    intro r' hr'
    rw [hledger] at hr'
    simpa using hr'
  have himem : ∀ j ∈ d'.images, j ∈ d.images ∨ j = i := by
    intro j hj
    rw [himages] at hj
    simpa using hj
  refine ⟨?_, ?_, fun j hj => ?_, fun r' hr' hfor' => ?_, fun r' hr' hfor' => ?_,
    fun r' hr' hfor' j hj => ?_⟩
  · rw [himages, List.map_append]
    refine List.nodup_append.2 ⟨h.distinct, List.nodup_singleton _, fun a ha b hb => ?_⟩
    obtain ⟨j, hj, rfl⟩ := List.mem_map.1 ha
    obtain rfl := List.mem_singleton.1 hb
    exact hid j hj
  · rw [hledger, List.filter_append, List.map_append]
    refine List.nodup_append.2 ⟨h.once, ?_, fun a ha b hb => ?_⟩
    · simp [hfor]
    · obtain ⟨r', hr', rfl⟩ := List.mem_map.1 ha
      have hb : b = r.idempotencyKey := by simpa [hfor] using hb
      rw [hb, show r.idempotencyKey = .uuid i.toolCallId from congrArg Prod.snd hkey]
      exact hnew r' (List.mem_of_mem_filter hr')
  · rcases himem j hj with hj | rfl
    · obtain ⟨r', hr', hpays⟩ := h.paid j hj
      exact ⟨r', hledger ▸ List.mem_append_left _ hr', hpays⟩
    · exact ⟨r, hledger ▸ List.mem_append_right _ (List.mem_singleton_self r), hfor, hkey⟩
  · rcases hmem r' hr' with hr' | rfl
    · obtain ⟨e', he', hby', hdrawn⟩ := h.drawn r' hr' hfor'
      refine ⟨e', haudit he', hby', hdrawn.imp_right fun hdrawn => ?_⟩
      obtain ⟨j, hj, hpays⟩ := hdrawn
      exact ⟨j, himages ▸ List.mem_append_left _ hj, hpays⟩
    · refine ⟨e, he, hby, .inr ⟨i, ?_, hkey, hsession, hexpires⟩⟩
      exact himages ▸ List.mem_append_right _ (List.mem_singleton_self i)
  · rcases hmem r' hr' with hr' | rfl
    · exact h.amounts r' hr' hfor'
    · exact ⟨htype, hamount⟩
  · rcases hmem r' hr' with hr' | rfl
    · rcases himem j hj with hj | rfl
      · exact h.others r' hr' hfor' j hj
      · exact hnew r' hr'
    · rw [hfor] at hfor'
      cases hfor'

/-- A debit that may have lost its image still may when more debits are old. -/
theorem ImagesPaid.mono (h : ImagesPaid cfg old d)
    (hold : ∀ r ∈ d.accounts.ledger, old r → old' r) : ImagesPaid cfg old' d := by
  refine ⟨h.distinct, h.once, h.paid, fun r hr hfor => ?_, h.amounts, h.others⟩
  obtain ⟨e, he, hby, hdrawn⟩ := h.drawn r hr hfor
  exact ⟨e, he, hby, hdrawn.imp_left fun hlost => ⟨hlost.1, hold r hr hlost.2⟩⟩

theorem ImageLaw.mono (h : ImageLaw cfg old d) (hold : ∀ r ∈ d.accounts.ledger, old r → old' r) :
    ImageLaw cfg old' d := ⟨h.paid.mono hold, h.calls⟩

/-- A sweep takes images without a session only. -/
theorem ImageLaw.sweep (h : ImageLaw cfg (fun _ => True) d) (ids : List ℕ) :
    ImageLaw cfg (fun _ => True) (d.sweep ids) := by
  have hsub : ∀ i ∈ (d.sweep ids).images, i ∈ d.images := fun i hi => List.mem_of_mem_filter hi
  refine ⟨⟨?_, h.paid.once, fun i hi => h.paid.paid i (hsub i hi), fun r hr hfor => ?_, h.paid.amounts,
    fun r hr hfor i hi => h.paid.others r hr hfor i (hsub i hi)⟩,
    h.calls⟩
  · exact h.paid.distinct.sublist (List.filter_sublist.map _)
  · obtain ⟨e, he, hby, hlost | ⟨i, hi, hkey, hsession, hexpires⟩⟩ := h.paid.drawn r hr hfor
    · exact ⟨e, he, hby, .inl hlost⟩
    · refine ⟨e, he, hby, ?_⟩
      by_cases hswept : i.expires = true ∧ i.id ∈ ids
      · refine .inl ⟨?_, trivial⟩
        rw [hexpires, hsession] at hswept
        simpa using hswept.1
      · exact .inr ⟨i, List.mem_filter.2 ⟨hi, decide_eq_true hswept⟩, hkey, hsession, hexpires⟩

/-- A change that touches neither the images nor the ledger. -/
theorem Turn.ImageLaw.congr {t : Turn} (h : t.ImageLaw cfg old d) (himages : d'.images = d.images)
    (hledger : d'.accounts.ledger = d.accounts.ledger) (haudit : d.accounts.audit ⊆ d'.accounts.audit)
    (hcalls : ∀ c ∈ d'.toolCalls, c ∈ d.toolCalls ∨ c.messageStepId = t.messageStepId) :
    t.ImageLaw cfg old d' := by
  refine ⟨⟨h.paid.congr himages hledger haudit, fun c hc r hr => ?_⟩, hledger ▸ h.turn⟩
  rw [hledger] at hr
  rcases hcalls c hc with hc | hc
  · exact h.calls c hc r hr
  · rw [hc]
    exact h.turn r hr

end Rows

/-! ## The law is kept -/

section Kept

variable {llm : LLMAnswer → Prop} {cfg : Config} {t : Turn} {g g' : ℕ} {d d' : ChatDb}
variable {pregen : Pregen} {u : ToolUse} {b : BlockRun} {request : ChatRequest}
variable {old : LedgerTransaction → Prop}

theorem BlockRun.mem_delta {c : ToolCall} (hc : c ∈ (d.extend (b.delta t)).toolCalls) :
    c ∈ d.toolCalls ∨ c.messageStepId = t.messageStepId := by
  refine (List.mem_append.1 hc).imp_right fun hc => ?_
  have hc : t.temporary = false ∧ c = b.row t := by simpa [BlockRun.delta] using hc
  rw [hc.2]
  rfl

/-- The audit of a charge whose metadata names no model. -/
theorem exists_audit_chargeOps (a : Accounts) (ledgerId u : ℕ) (amount : Int) (key : IdemKey)
    (metaData : Json) (hmodel : metaData.get "model" = none) (sessionId : Option ℕ) :
    ∃ e ∈ audits (chargeOps a ledgerId u amount key metaData sessionId),
      AuditedBy ⟨ledgerId, u, .debit, amount, metaData, key⟩ e ∧
        e.sessionId = sessionId := by
  have hplain : ∀ k ∈ ["ledgerTxId", "amount", "newBalance", "sessionId", "model"],
      Json.plainKey k = true := by decide +kernel
  refine ⟨AuditEvent.redacted ⟨u, sessionId, .billingDebit, .obj [("ledgerTxId", .num ledgerId),
    ("amount", .num amount), ("newBalance", .num (a.balance u - amount)),
    ("sessionId", .ofOption (sessionId.map fun (sid : ℕ) => .num sid)),
    ("model", .ofOption (metaData.get "model"))]⟩, ?_, ⟨rfl, rfl, ?_⟩, rfl⟩
  · rw [chargeOps, audits_append, audits_provision]
    exact List.mem_singleton_self _
  · rw [hmodel, AuditEvent.redacted_eq]
    · rfl
    · simp only [List.mem_cons, List.not_mem_nil, or_false, forall_eq_or_imp, forall_eq]
      exact ⟨⟨hplain _ (by simp), .num _⟩, ⟨hplain _ (by simp), .num _⟩, ⟨hplain _ (by simp), .num _⟩,
        ⟨hplain _ (by simp), .ofOption_map (fun sid => .num _) sessionId⟩, ⟨hplain _ (by simp), .null⟩⟩

/-- A block adds no image and no debit, or an image with its debit. -/
theorem BlockRun.Ok.imageLaw (h : b.Ok cfg t pregen g d u g') (ht : t.messageStepId < g)
    (hf : d.Fresh g) (hl : t.ImageLaw cfg old d) : t.ImageLaw cfg old (d.extend (b.delta t)) := by
  have hledger : (d.extend (b.delta t)).accounts.ledger = d.accounts.ledger ++ rows b.charge := by
    show (applyAll (b.delta t).wallet d.accounts).ledger = _
    rw [ledger_applyAll]
    congr 1
    cases hb : b.exec <;> simp [BlockRun.delta, BlockRun.completedAudit, rows_append, rows, hb,
      Turn.auditOp]
  have himages : (d.extend (b.delta t)).images = d.images ++ b.image t := rfl
  have haudit : d.accounts.audit ⊆ (d.extend (b.delta t)).accounts.audit := audit_subset_applyAll _ _
  have hid := h.id
  have he := h.exec
  split at he <;> rename_i hexec
  · refine hl.congr ?_ ?_ haudit fun c => BlockRun.mem_delta
    · simp [himages, BlockRun.image, hexec]
    · simp [hledger, BlockRun.charge, hexec, rows]
  · rename_i imageId stepId data wallet
    obtain ⟨-, -, -, -, -, -, -, hwallet⟩ := he
    have himage : b.image t = [⟨imageId, t.userId, fkSessionId t.temporary t.sessionId,
        t.messageStepId, b.id, data.mediaType, data.size, promptOf b.args, t.temporary⟩] := by
      simp [BlockRun.image, hexec]
    have hcharge : b.charge = wallet := by simp [BlockRun.charge, hexec]
    rw [himage] at himages
    rw [hcharge, hwallet, rows_chargeOps] at hledger
    obtain ⟨e, he, hby, hsession⟩ := exists_audit_chargeOps d.accounts (g + 1) t.userId
      cfg.imageCreditsCost (.uuid g) (.obj [("kind", .str "image"),
        ("contentType", .str data.mediaType)]) rfl (fkSessionId t.temporary t.sessionId)
    have hmem : e ∈ (d.extend (b.delta t)).accounts.audit := by
      show e ∈ (applyAll (b.delta t).wallet d.accounts).audit
      rw [audit_applyAll, BlockRun.delta, hcharge, hwallet, audits_append, audits_append]
      exact List.mem_append_right _ (List.mem_append_left _ (List.mem_append_right _ he))
    have hpaid : ImagesPaid cfg old (d.extend (b.delta t)) := by
      refine hl.paid.draw himages hledger haudit hmem hby hsession.symm ?_ rfl
        (by simp [LedgerTransaction.key, GeneratedImage.key, hid]) rfl rfl (fun j hj => ?_)
        fun r hr hk => ?_
      · cases t.temporary <;> rfl
      · have := hf.images j hj
        simp only [hid]
        omega
      · have := hf.keys r hr b.id hk
        omega
    have hnew : ∀ r ∈ (d.extend (b.delta t)).accounts.ledger,
        r ∈ d.accounts.ledger ∨ r.idempotencyKey = .uuid g := by
      intro r hr
      rw [hledger] at hr
      refine (List.mem_append.1 hr).imp_right fun hr => ?_
      rw [List.mem_singleton.1 hr]
    have hne : ∀ {r : LedgerTransaction} {m : ℕ}, r.idempotencyKey = .uuid g → m < g →
        r.idempotencyKey ≠ .uuid m := by
      intro r m hr hm hk
      rw [hr] at hk
      exact hm.ne' (IdemKey.uuid.inj hk)
    refine ⟨⟨hpaid, fun c hc r hr hfor => ?_⟩, fun r hr hfor => ?_⟩
    · rcases BlockRun.mem_delta hc with hc | hc <;> rcases hnew r hr with hr | hr
      · exact hl.calls c hc r hr hfor
      · exact hne hr (hf.toolCalls c hc).2
      · rw [hc]
        exact hl.turn r hr hfor
      · exact hne hr (hc ▸ ht)
    · rcases hnew r hr with hr | hr
      · exact hl.turn r hr hfor
      · exact hne hr ht
  · refine hl.congr ?_ ?_ haudit fun c => BlockRun.mem_delta
    · simp [himages, BlockRun.image, hexec]
    · simp [hledger, BlockRun.charge, hexec, rows]

theorem Blocks.imageLaw {us : List ToolUse} {bs : List BlockRun}
    (h : Blocks cfg t pregen g d us bs g' d') (ht : t.messageStepId < g) (hf : d.Fresh g)
    (hl : t.ImageLaw cfg old d) : t.ImageLaw cfg old d' := by
  induction h with
  | nil => exact hl
  | cons h hs ih => exact ih (ht.trans h.lt) (hf.extend (h.fresh ht)) (h.imageLaw ht hf hl)

theorem Turn.ImageLaw.step (hl : t.ImageLaw cfg old d) (seq : ℕ) (payload : Payload)
    (usage : Option Usage) : t.ImageLaw cfg old (d.extend (t.stepDelta seq payload usage)) :=
  hl.congr (List.append_nil _) rfl (.refl _) fun c hc =>
    .inl (by simpa [ChatDb.extend, Chat.stepDelta] using hc)

theorem Round.Ok.imageLaw {r : Round} (h : r.Ok cfg t g d g' d') (ht : t.messageStepId < g)
    (hf : d.Fresh g) (hl : t.ImageLaw cfg old d) : t.ImageLaw cfg old d' :=
  h.blocks.imageLaw (ht.trans_le (le_nextStep _ _)) (hf.extend (stepDelta_fresh ht _ _))
    (hl.step _ _ _)

theorem Generated.imageLaw {provider : Provider} {att : Option PreparedAttachments} {m m' : ChatMem}
    {rs : List Round} (h : Generated llm cfg t provider att g d m rs g' d' m')
    (ht : t.messageStepId < g) (hf : d.Fresh g) (hl : t.ImageLaw cfg old d) : t.ImageLaw cfg old d' := by
  induction h with
  | start => exact hl
  | round h hr hc hm hl' ih => exact hr.imageLaw (ht.trans_le h.le) (h.fresh ht hf) ih

/-- A run opens its turn without a new call. -/
theorem Opened.calls {req : RunRequest} {o : Opening} {m : ChatMem}
    (h : Opened cfg req g d o g' d' m) : ∀ c ∈ d'.toolCalls, c ∈ d.toolCalls := by
  intro c hc
  cases h with
  | temporary => exact hc
  | created => simpa [ChatDb.extend, stepDelta] using hc
  | resumed => simpa [ChatDb.extend, stepDelta] using hc
  | edited =>
    rcases List.mem_append.1 hc with hc | hc
    · exact List.mem_of_mem_filter hc
    · cases hc

/-- The turn of a request and its calls, before the generation. -/
theorem Ready.turns {userId messageStepId : ℕ} {session : ChatSession} {temporary : Bool}
    {att : Option PreparedAttachments} {m : ChatMem}
    (h : Ready cfg g d request userId session messageStepId temporary att g' d' m) :
    (messageStepId = g ∨ ∃ c ∈ d.toolCalls, c.messageStepId = messageStepId) ∧
      ∀ c ∈ d'.toolCalls, ∃ c₀ ∈ d.toolCalls, c₀.messageStepId = c.messageStepId := by
  cases h with
  | run h => exact ⟨.inl rfl, fun c hc => ⟨c, h.calls c hc, rfl⟩⟩
  | @toolResult _ _ _ _ _ resolved first workspace m h =>
    obtain ⟨hmem, -, -, hm⟩ := h.calls first (List.mem_cons_self ..)
    refine ⟨.inr ⟨first.2, hmem, hm⟩, fun c hc => ?_⟩
    obtain ⟨c₀, h₀, -, -, hm, -⟩ := mem_deliverAll hc
    exact ⟨c₀, h₀, hm⟩

theorem Ready.imageLaw {userId messageStepId : ℕ} {session : ChatSession} {temporary : Bool}
    {att : Option PreparedAttachments} {m : ChatMem}
    (h : Ready cfg g d request userId session messageStepId temporary att g' d' m)
    (hf : d.Fresh g) (hl : ImageLaw cfg old d) :
    ImageLaw cfg old d' ∧ ∀ r ∈ d'.accounts.ledger, forImage r = true →
      r.idempotencyKey ≠ .uuid messageStepId := by
  have hkeeps := h.keeps hf
  obtain ⟨hturn, hcalls⟩ := h.turns
  refine ⟨⟨hl.paid.congr hkeeps.images hkeeps.ledger hkeeps.audit, fun c hc r hr => ?_⟩,
    fun r hr hfor => ?_⟩
  · obtain ⟨c₀, h₀, hm⟩ := hcalls c hc
    rw [hkeeps.ledger] at hr
    rw [← hm]
    exact hl.calls c₀ h₀ r hr
  · rw [hkeeps.ledger] at hr
    rcases hturn with rfl | ⟨c₀, h₀, rfl⟩
    · exact fun hk => lt_irrefl _ (hf.keys r hr _ hk)
    · exact hl.calls c₀ h₀ r hr hfor

theorem mem_ledger_pay {ops : List WalletOp} (hops : ∀ r ∈ rows ops, forImage r = false)
    {r : LedgerTransaction} (hr : r ∈ (d.pay ops).accounts.ledger) (hfor : forImage r = true) :
    r ∈ d.accounts.ledger := by
  simp only [ChatDb.pay, ledger_applyAll] at hr
  rcases List.mem_append.1 hr with hr | hr
  · exact hr
  · rw [hops r hr] at hfor
    cases hfor

/-- Writes that are for no image. -/
theorem ImageLaw.pay (hl : ImageLaw cfg old d) {ops : List WalletOp}
    (hops : ∀ r ∈ rows ops, forImage r = false ∧
      ∀ i ∈ d.images, r.idempotencyKey ≠ .uuid i.toolCallId) : ImageLaw cfg old (d.pay ops) :=
  ⟨hl.paid.other rfl (ledger_applyAll ops d.accounts) (audit_subset_applyAll _ _) hops,
    fun c hc r hr hfor => hl.calls c hc r (mem_ledger_pay (fun r hr => (hops r hr).1) hr hfor) hfor⟩

theorem ImageLaw.payNone (hl : ImageLaw cfg old d) {ops : List WalletOp} (hops : rows ops = []) :
    ImageLaw cfg old (d.pay ops) := hl.pay (by simp [hops])

theorem Starts.imageLaw {att : Option PreparedAttachments} {m : ChatMem}
    (h : Starts cfg g d request t att g' d' m) (hf : d.Fresh g) (hl : ImageLaw cfg old d) :
    t.ImageLaw cfg old d' := by
  cases h with
  | intro h =>
    obtain ⟨hlaw, hturn⟩ := h.imageLaw hf hl
    refine ⟨hlaw.payNone rfl, fun r hr hfor => hturn r ?_ hfor⟩
    exact mem_ledger_pay (fun _ h => absurd h List.not_mem_nil) hr hfor

theorem Passes.imageLaw {provider : Provider} {att : Option PreparedAttachments} {m : ChatMem}
    {rs : List Round} (h : Passes llm cfg g d request t provider att rs g' d' m) (hf : d.Fresh g)
    (hl : ImageLaw cfg old d) : t.ImageLaw cfg old d' := by
  cases h with
  | intro h hp hg =>
    obtain ⟨hlt, -, hf'⟩ := h.fresh hf
    exact hg.imageLaw hlt hf' (h.imageLaw hf hl)

/-- The debit of a message is for no image. -/
theorem Bills.imageLaw {usage : Usage} (h : Bills t usage g d g' d') (hl : t.ImageLaw cfg old d) :
    ImageLaw cfg old d' := by
  cases h with
  | charged =>
    refine hl.toImageLaw.pay fun r hr => ?_
    simp only [rows_chargeOps, List.mem_singleton] at hr
    subst hr
    refine ⟨rfl, fun i hi hk => ?_⟩
    obtain ⟨r, hr, hfor, hkey⟩ := hl.paid.paid i hi
    exact hl.turn r hr hfor ((congrArg Prod.snd hkey).trans hk.symm)
  | replayed => exact hl.toImageLaw.payNone (rows_provision ..)
  | trial => exact ⟨hl.paid.congr rfl rfl (.refl _), hl.calls⟩
  | free => exact hl.toImageLaw

theorem Turn.ImageLaw.ended (hl : t.ImageLaw cfg old d) (seq : ℕ) (result : LLMResult)
    (reason : List (String × Json)) : t.ImageLaw cfg old (t.ended seq result reason d) :=
  have hstep := hl.step seq (.assistant result.contentBlocks) (some result.usage)
  ⟨hstep.toImageLaw.payNone rfl,
    fun r hr hfor => hstep.turn r (mem_ledger_pay (fun _ h => absurd h List.not_mem_nil) hr hfor) hfor⟩

theorem Ends.imageLaw {acc : Acc} {answer : LLMAnswer} {out : ChatRunOut}
    (h : Ends cfg t acc g d answer pregen out g' d') (ht : t.messageStepId < g) (hf : d.Fresh g)
    (hl : t.ImageLaw cfg old d) : ImageLaw cfg old d' := by
  cases h with
  | final h hb => exact hb.imageLaw (hl.ended _ _ _)
  | unpaid | poor => exact hl.toImageLaw
  | maxTokens h => exact (hl.ended _ _ _).toImageLaw
  | client hr hc => exact (hr.imageLaw ht hf hl).toImageLaw
  | expired h =>
    split
    · have hmark : ImageLaw cfg old (d.expireKey t.userId) :=
        ⟨hl.paid.congr rfl rfl (.refl _), hl.calls⟩
      exact hmark.payNone rfl
    · exact hl.toImageLaw

theorem Settles.imageLaw {out : ChatRunOut} (h : Settles cfg g d request out g' d')
    (hf : d.Fresh g) (hl : ImageLaw cfg old d) : ImageLaw cfg old d' := by
  have hdelivered : ∀ {u : ℕ} {rs : List (ToolResultIn × ToolCall)},
      ImageLaw cfg old (deliverAll u rs g d).2 := by
    intro u rs
    have hkeeps : d.Keeps g (deliverAll u rs g d).2 := keeps_deliverAll (.refl hf)
    refine ⟨hl.paid.congr hkeeps.images hkeeps.ledger hkeeps.audit, fun c hc r hr => ?_⟩
    obtain ⟨c₀, h₀, -, -, hm, -⟩ := mem_deliverAll hc
    rw [hkeeps.ledger] at hr
    rw [← hm]
    exact hl.calls c₀ h₀ r hr
  cases h with
  | denied h hp => exact (h.imageLaw hf hl).1.payNone rfl
  | noProvider h hm hp => exact (h.imageLaw hf hl).toImageLaw
  | awaiting => exact hdelivered
  | replayed => exact hdelivered

theorem Sweeps.imageLaw {out : ChatRunOut} (h : Sweeps out d d')
    (hl : ImageLaw cfg (fun _ => True) d) : ImageLaw cfg (fun _ => True) d' := by
  cases h with
  | skipped => exact hl
  | swept ids => exact hl.sweep ids

theorem Visits.imageLaw (h : Visits llm cfg g d request g' d') (hf : d.Fresh g)
    (hl : ImageLaw cfg (fun _ => True) d) : ImageLaw cfg (fun _ => True) d' := by
  cases h with
  | passed h => exact (h.imageLaw hf hl).toImageLaw
  | exhausted h => exact (h.imageLaw hf hl).toImageLaw.payNone rfl
  | answered h =>
    cases h with
    | settled h => exact h.imageLaw hf hl
    | ended h hl' he hs =>
      obtain ⟨hlt, -, hf'⟩ := h.fresh hf
      exact hs.imageLaw (he.imageLaw hlt hf' (h.imageLaw hf hl))

/-- **The images and their debits correspond** in every committed state. -/
theorem Reached.imageLaw {ok : ℕ → ChatDb → ChatRequest → Prop} (h : Reached llm cfg ok g d) :
    ImageLaw cfg (fun _ => True) d := by
  refine h.induction ⟨⟨.nil, .nil, nofun, nofun, nofun, nofun⟩, nofun⟩ (fun _ hl => hl)
    (fun _ hf hl _ hv => hv.imageLaw hf hl) fun {g d ops _ _ _} hl hk => ?_
  have hpaid : ImageLaw cfg (fun _ => True) (d.pay ops) := hl.pay fun r hr => by
    refine ⟨?_, fun i _ => hk r hr i.toolCallId⟩
    unfold forImage
    split
    · rename_i id _ hid _
      exact absurd hid (hk r hr id)
    · rfl
  exact ⟨hpaid.paid.congr rfl rfl (.refl _), hpaid.calls⟩

end Kept

/-! ## The billing of an image -/

/-- A debit that pays for an image. -/
structure Pays (cfg : Config) (r : LedgerTransaction) (i : GeneratedImage) : Prop where
  type : r.type = .debit
  amount : r.amount = cfg.imageCreditsCost
  key : r.key = i.key

section Billing

variable {llm : LLMAnswer → Prop} {cfg : Config} {g g' : ℕ} {d d' : ChatDb} {t : Turn}
variable {request : ChatRequest} {old : LedgerTransaction → Prop}

theorem ImagesPaid.pays (h : ImagesPaid cfg old d) {r : LedgerTransaction} {i : GeneratedImage}
    (hr : r ∈ d.accounts.ledger) (hfor : forImage r = true) (hkey : r.key = i.key) : Pays cfg r i :=
  ⟨(h.amounts r hr hfor).1, (h.amounts r hr hfor).2, hkey⟩

/-- An image has one row under the id of its call, and that is its debit. -/
theorem ImagesPaid.exists_debit (h : ImagesPaid cfg old d) {i : GeneratedImage} (hi : i ∈ d.images) :
    ∃ r ∈ d.accounts.ledger, Pays cfg r i ∧
      ∀ r' ∈ d.accounts.ledger, r'.idempotencyKey = .uuid i.toolCallId → r' = r := by
  obtain ⟨r, hr, hfor, hkey⟩ := h.paid i hi
  refine ⟨r, hr, h.pays hr hfor hkey, fun r' hr' hkey' => ?_⟩
  have hfor' : forImage r' = true := by
    by_contra hnot
    exact h.others r' hr' (by simpa using hnot) i hi hkey'
  refine List.inj_on_of_nodup_map h.once (List.mem_filter.2 ⟨hr', hfor'⟩)
    (List.mem_filter.2 ⟨hr, hfor⟩) ?_
  rw [hkey']
  exact (congrArg Prod.snd hkey).symm

/-- A debit pays for one image at most. -/
theorem ImagesPaid.image_unique (h : ImagesPaid cfg old d) {r : LedgerTransaction}
    {i i' : GeneratedImage} (hi : i ∈ d.images) (hi' : i' ∈ d.images) (hpays : Pays cfg r i)
    (hpays' : Pays cfg r i') : i = i' := by
  refine List.inj_on_of_nodup_map h.distinct hi hi' ?_
  exact IdemKey.uuid.inj (congrArg Prod.snd (hpays.key.symm.trans hpays'.key))

/-- A debit has its image in the session that its audit names. -/
theorem ImagesPaid.exists_image (h : ImagesPaid cfg old d) {r : LedgerTransaction}
    (hr : r ∈ d.accounts.ledger) (hfor : forImage r = true) :
    ∃ e ∈ d.accounts.audit, AuditedBy r e ∧
      (e.sessionId ≠ none → ∃ i ∈ d.images, Pays cfg r i ∧ i.sessionId = e.sessionId) := by
  obtain ⟨e, he, hby, ⟨hnone, -⟩ | ⟨i, hi, hkey, hsession, -⟩⟩ := h.drawn r hr hfor
  · exact ⟨e, he, hby, fun hne => absurd hnone hne⟩
  · exact ⟨e, he, hby, fun _ => ⟨i, hi, h.pays hr hfor hkey, hsession⟩⟩

/-- The states that a generated turn commits, up to its sweep. -/
inductive Draws (llm : LLMAnswer → Prop) (cfg : Config) (g : ℕ) (d : ChatDb) (request : ChatRequest) :
    ChatDb → Prop
  | passed {t : Turn} {provider : Provider} {att : Option PreparedAttachments} {rs : List Round}
      {g' : ℕ} {d' : ChatDb} {m : ChatMem}
      (h : Passes llm cfg g d request t provider att rs g' d' m) : Draws llm cfg g d request d'
  | ended {t : Turn} {provider : Provider} {att : Option PreparedAttachments} {rs : List Round}
      {g₁ g' : ℕ} {d₁ d' : ChatDb} {m : ChatMem} {answer : LLMAnswer} {pregen : Pregen}
      {out : ChatRunOut} (h : Passes llm cfg g d request t provider att rs g₁ d₁ m)
      (he : Ends cfg t (accOf rs) g₁ d₁ answer pregen out g' d') : Draws llm cfg g d request d'

/-- Until its sweep a turn keeps the image of each of its debits. -/
theorem Draws.exists_image (h : Draws llm cfg g d request d') (hf : d.Fresh g)
    (hl : ImageLaw cfg (fun _ => True) d) {r : LedgerTransaction} (hr : r ∈ d'.accounts.ledger)
    (hfor : forImage r = true) : r ∈ d.accounts.ledger ∨ ∃ i ∈ d'.images, Pays cfg r i := by
  have hl : ImageLaw cfg (· ∈ d.accounts.ledger) d := hl.mono fun r hr _ => hr
  have hlaw : ImageLaw cfg (· ∈ d.accounts.ledger) d' := by
    cases h with
    | passed h => exact (h.imageLaw hf hl).toImageLaw
    | ended h he =>
      obtain ⟨hlt, -, hf'⟩ := h.fresh hf
      exact he.imageLaw hlt hf' (h.imageLaw hf hl)
  obtain ⟨e, he, hby, ⟨-, hold⟩ | ⟨i, hi, hkey, -⟩⟩ := hlaw.paid.drawn r hr hfor
  · exact .inl hold
  · exact .inr ⟨i, hi, hlaw.paid.pays hr hfor hkey⟩

/-- A generation that has failed adds neither an image nor a debit, and the turn goes on. -/
def GoesOn (o : Except AppError (ChatRunOut ⊕ Acc)) (acc : Acc) (w w' : ChatWorld) : Prop :=
  (∃ tools, o = .ok (.inr ⟨acc.serverTools ++ tools, acc.quizzes, acc.images⟩)) ∧
    w'.work.images = w.work.images ∧ w'.work.accounts.ledger = w.work.accounts.ledger ∧
    w'.work.accounts.wallets = w.work.accounts.wallets

theorem goesOn_of_runs {id : ℕ} {args : Json} {puid : String} {e : ImageError} {acc : Acc}
    {w w' : ChatWorld} {o : Except AppError (ChatRunOut ⊕ Acc)} (hp : t.HasPending id w.work)
    (hr : Runs (chatStore llm).step (executeImageGenerateTool cfg t id args puid (.error e) acc)
      w o w') : GoesOn o acc w w' := by
  refine hr.of_wp (C := watch (fun _ => True) fun _ _ => True)
    (Q := fun o w' => GoesOn o acc w w') ?_
  unfold executeImageGenerateTool
  simp only
  rw [bind_eq, wp_bind]
  refine persistToolOutcome_wp hp fun m hm => ?_
  refine ⟨⟨_, rfl⟩, ?_, ?_, ?_⟩
  · exact List.append_nil _
  · rfl
  · rfl

theorem evaluate_ne_imageCreditsEmpty (state : PolicyState) (mode : Mode) :
    evaluate state mode ≠ .blocked .imageCreditsEmpty := by
  unfold evaluate
  repeat' split
  all_goals exact nofun

/-- A request that has committed the rounds `rs` of its generation, and nothing of the response
that came next: an image of it is not paid for. -/
structure EndsPoor (llm : LLMAnswer → Prop) (cfg : Config) (g : ℕ) (d : ChatDb)
    (request : ChatRequest) (t : Turn) (rs : List Round) (result : LLMResult) (d' : ChatDb) :
    Prop where
  reason : result.stopReason = .toolUse
  rounds : ∃ provider att g₀ d₀ m₀ g₁ m, Starts cfg g d request t att g₀ d₀ m₀ ∧
    Generated llm cfg t provider att g₀ d₀ m₀ rs g₁ d' m ∧ d' = d₀.extend (roundsDelta t rs) ∧
    ∃ pregen, Poor cfg t pregen (t.next g₁) (d'.extend (t.stepDelta g₁
      (.assistant result.contentBlocks) (some result.usage))) result.toolUses

theorem endsPoor_of_imageCreditsEmpty {out : ChatRunOut}
    (h : Answers llm cfg g d request out g' d') (hout : out.blockReason = some .imageCreditsEmpty) :
    ∃ t rs result, llm (.result result) ∧ EndsPoor llm cfg g d request t rs result d' := by
  cases h with
  | settled h =>
    cases h with
    | @denied _ _ _ _ _ _ _ _ reason h hp =>
      obtain rfl : reason = .imageCreditsEmpty := by simpa [blocked] using hout
      exact absurd hp (evaluate_ne_imageCreditsEmpty _ _)
    | noProvider => cases hout
    | awaiting => cases hout
    | replayed => cases hout
  | ended h hl he hs =>
    cases he with
    | poor hreason hpoor hg =>
      cases hs with
      | swept ids himages => exact absurd rfl himages
      | skipped =>
        obtain ⟨hs, hp, hgen⟩ := h
        exact ⟨_, _, _, hl, hreason, _, _, _, _, _, _, _, hs, hgen, hgen.eq, _, hpoor⟩
    | final => cases hout
    | unpaid => cases hout
    | maxTokens => cases hout
    | client => cases hout
    | expired => cases hout

/-- **The billing of images.** In every committed state each image has its debit, and a debit for an
image has its image in the session that its audit names: only the image of a temporary chat can be
gone. It is not gone before the sweep at the end of its turn. A generation that fails adds neither and
the turn goes on; and a request that ends because an image is not paid for has committed the rounds
before it, and nothing of its last one. -/
theorem image_billing {ok : ℕ → ChatDb → ChatRequest → Prop} (h : Reached llm cfg ok g d) :
    ((∀ i ∈ d.images, ∃ r ∈ d.accounts.ledger, Pays cfg r i ∧
        ∀ r' ∈ d.accounts.ledger, r'.idempotencyKey = .uuid i.toolCallId → r' = r) ∧
      (∀ r ∈ d.accounts.ledger, forImage r = true → ∃ e ∈ d.accounts.audit, AuditedBy r e ∧
        (e.sessionId ≠ none → ∃ i ∈ d.images, Pays cfg r i ∧ i.sessionId = e.sessionId)) ∧
      (∀ r, ∀ i ∈ d.images, ∀ i' ∈ d.images, Pays cfg r i → Pays cfg r i' → i = i') ∧
      (d.images.map (·.toolCallId)).Nodup ∧
      ((d.accounts.ledger.filter forImage).map (·.idempotencyKey)).Nodup) ∧
    (∀ request d', Draws llm cfg g d request d' → ∀ r ∈ d'.accounts.ledger, forImage r = true →
      r ∈ d.accounts.ledger ∨ ∃ i ∈ d'.images, Pays cfg r i) ∧
    (∀ t id args puid e acc w o w', Turn.HasPending t id w.work →
      Runs (chatStore llm).step (executeImageGenerateTool cfg t id args puid (.error e) acc) w o w' →
      GoesOn o acc w w') ∧
    ∀ request out w, Runs (chatStore llm).step (request.prog cfg) (idle g d) (.ok out) w →
      out.blockReason = some .imageCreditsEmpty →
      ∃ t rs result, llm (.result result) ∧ EndsPoor llm cfg g d request t rs result w.db := by
  have hlaw := h.imageLaw
  have hpaid := hlaw.paid
  refine ⟨⟨fun i hi => hpaid.exists_debit hi, fun r hr hfor => hpaid.exists_image hr hfor,
    fun r i hi i' hi' => hpaid.image_unique hi hi', hpaid.distinct, hpaid.once⟩,
    fun request d' hd r hr hfor => hd.exists_image h.fresh hlaw hr hfor,
    fun t id args puid e acc w o w' hp hr => goesOn_of_runs hp hr, ?_⟩
  intro request out w hr hout
  exact endsPoor_of_imageCreditsEmpty (answers_of_runs h.fresh hr).2 hout

end Billing

/-- A chat that draws an image, and a temporary one that draws another. -/
def drawings : List (ChatRequest × Script) :=
  [(.run (byokMessage "smart"), drawingThen (.result answered)),
    (.run temporaryDrawing, drawingThen (.result answered))]

/-- They are paid for, and a third image is not. -/
theorem image_billing_drawn : ∃ g d, d.images.length = 2 ∧
    (∀ i ∈ d.images, ∃ r ∈ d.accounts.ledger, Pays openaiInstance r i ∧
      ∀ r' ∈ d.accounts.ledger, r'.idempotencyKey = .uuid i.toolCallId → r' = r) ∧
    (∀ r ∈ d.accounts.ledger, forImage r = true → ∃ e ∈ d.accounts.audit, AuditedBy r e ∧
      (e.sessionId ≠ none → ∃ i ∈ d.images, Pays openaiInstance r i ∧ i.sessionId = e.sessionId)) ∧
    (∀ request d', Draws anyProvider openaiInstance g d request d' → ∀ r ∈ d'.accounts.ledger,
      forImage r = true → r ∈ d.accounts.ledger ∨ ∃ i ∈ d'.images, Pays openaiInstance r i) ∧
    ∃ t rs result d',
      EndsPoor anyProvider openaiInstance g d (.run (byokMessage "smart")) t rs result d' := by
  have hreached : Reached anyProvider openaiInstance (fun _ _ _ => True)
      (serveList openaiInstance drawings 0 (credited 12)).1
      (serveList openaiInstance drawings 0 (credited 12)).2 :=
    serveList_reached _ (credited_reached openaiInstance 12)
  obtain ⟨⟨hpaid, hdrawn, -⟩, hturn, -, hpoor⟩ := image_billing hreached
  have hrun : answersWith (fun out _ => out.blockReason = some .imageCreditsEmpty)
      (serveOne openaiInstance (drawingThen (.result answered)) (.run (byokMessage "smart"))
        (serveList openaiInstance drawings 0 (credited 12)).1
        (serveList openaiInstance drawings 0 (credited 12)).2) = true := by
    decide +kernel
  obtain ⟨out, w, hserve, hempty⟩ := exists_of_answersWith hrun
  obtain ⟨t, rs, result, -, hends⟩ := hpoor _ out w hserve (of_decide_eq_true hempty)
  exact ⟨_, _, by decide +kernel, hpaid, hdrawn, hturn, t, rs, result, _, hends⟩

/-- When the temporary image has expired, the next turn with an image sweeps it: the debit stays. -/
theorem image_billing_fails : ∃ g d, Reached anyProvider openaiInstance (fun _ _ _ => True) g d ∧
    ∃ r ∈ d.accounts.ledger, forImage r = true ∧ ∀ i ∈ d.images, ¬Pays openaiInstance r i := by
  let requests := drawings ++
    [(.run (byokMessage "smart"), { drawingThen (.result answered) with sweeps := true })]
  have hreached : Reached anyProvider openaiInstance (fun _ _ _ => True)
      (serveList openaiInstance requests 0 (credited 100)).1
      (serveList openaiInstance requests 0 (credited 100)).2 :=
    serveList_reached _ (credited_reached openaiInstance 100)
  have hlost : ((serveList openaiInstance requests 0 (credited 100)).2.accounts.ledger.any fun r =>
      forImage r && (serveList openaiInstance requests 0 (credited 100)).2.images.all fun i =>
        r.key ≠ i.key) = true := by
    decide +kernel
  obtain ⟨r, hr, hlost⟩ := List.any_eq_true.1 hlost
  obtain ⟨hfor, hnone⟩ := (Bool.and_eq_true _ _).mp hlost
  refine ⟨_, _, hreached, r, hr, hfor, fun i hi hpays => ?_⟩
  exact of_decide_eq_true (List.all_eq_true.1 hnone i hi) hpays.key

end ChatBackend.Chat

import ChatBackend.Chat.ImageBilling

/-!
# Messages and their debits

The final message of a turn is paid for by a debit of one credit under the id of the turn, or uses
up the trial of the user, in the transaction that stores it.

* `TextLaw` is the law of the committed states: a turn that has been paid for is finished, so that
  it is never generated again.
* `Bills.textLaw` and `Ends.textLaw` say what the endings of a generation debit, and
  `Reached.textLaw` says that every state that is committed keeps the law.
-/

namespace ChatBackend.Chat

open Prog Wallet Policy

/-- A row that the chat has written, but not for an image. -/
def isText (r : LedgerTransaction) : Bool :=
  match r.idempotencyKey with
  | .uuid _ => !forImage r
  | .text _ => false

/-- The debits for messages. -/
def ChatDb.texts (d : ChatDb) : List LedgerTransaction := d.accounts.ledger.filter isText

/-- No call of the turn is pending, and its last step is one of the assistant. -/
def ChatDb.Finished (d : ChatDb) (m : ℕ) : Prop :=
  ∀ c ∈ d.toolCalls, c.messageStepId = m → c.status ≠ .pending ∧
    ∃ st ∈ d.steps, st.sessionId = c.sessionId ∧ st.messageStepId = m ∧
      st.payload.isAssistant = true ∧
      ∀ st' ∈ d.steps, st'.sessionId = c.sessionId → st'.messageStepId = m → st'.seq ≤ st.seq

/-- The calls of a turn are calls of its session. -/
def ChatDb.Within (d : ChatDb) (sessionId m : ℕ) : Prop :=
  ∀ c ∈ d.toolCalls, c.messageStepId = m → c.sessionId = sessionId

/-- No message of the turn has been paid for. -/
def ChatDb.Unbilled (d : ChatDb) (m : ℕ) : Prop :=
  ∀ r ∈ d.texts, r.idempotencyKey ≠ .uuid m

/-- The law of the debits for messages. -/
structure TextLaw (d : ChatDb) : Prop where
  amounts : ∀ r ∈ d.texts, r.type = .debit ∧ r.amount = 1
  distinct : (d.texts.map (·.idempotencyKey)).Nodup
  finished : ∀ m, ¬d.Unbilled m → d.Finished m
  server : ∀ c ∈ d.toolCalls, c.toolName.clientSide = false → c.status ≠ .pending
  within : ∀ c ∈ d.toolCalls, d.Within c.sessionId c.messageStepId

/-! ## Rows of one turn -/

section Rows

variable {d d' : ChatDb} {Δ : Delta} {sid m : ℕ}

/-- Rows of one turn, with no debit for a message. -/
structure Delta.Of (sid m : ℕ) (Δ : Delta) : Prop where
  steps : ∀ st ∈ Δ.steps, st.messageStepId = m
  calls : ∀ c ∈ Δ.toolCalls, c.sessionId = sid ∧ c.messageStepId = m ∧
    (c.toolName.clientSide = false → c.status ≠ .pending)
  texts : (rows Δ.wallet).filter isText = []

theorem Delta.Of.empty (sid m : ℕ) : (∅ : Delta).Of sid m := ⟨nofun, nofun, rfl⟩

theorem Delta.Of.append {Δ' : Delta} (h : Δ.Of sid m) (h' : Δ'.Of sid m) : (Δ ++ Δ').Of sid m := by
  refine ⟨fun st hst => ?_, fun c hc => ?_, ?_⟩
  · exact (List.mem_append.1 hst).elim (h.steps st) (h'.steps st)
  · exact (List.mem_append.1 hc).elim (h.calls c) (h'.calls c)
  · rw [Delta.append_wallet, rows_append, List.filter_append, h.texts, h'.texts]
    rfl

theorem stepDelta_of (temporary : Bool) (sid m seq : ℕ) (payload : Payload) (usage : Option Usage) :
    (stepDelta temporary sid m seq payload usage).Of sid m := by
  refine ⟨fun st hst => ?_, nofun, rfl⟩
  unfold stepDelta at hst
  split at hst
  · cases hst
  · obtain rfl := List.mem_singleton.1 hst
    rfl

@[simp] theorem texts_extend (h : (rows Δ.wallet).filter isText = []) : (d.extend Δ).texts = d.texts := by
  show (applyAll Δ.wallet d.accounts).ledger.filter isText = _
  rw [ledger_applyAll, List.filter_append, h, List.append_nil]
  rfl

theorem texts_pay {ops : List WalletOp} (h : (rows ops).filter isText = []) :
    (d.pay ops).texts = d.texts := by
  show (applyAll ops d.accounts).ledger.filter isText = _
  rw [ledger_applyAll, List.filter_append, h, List.append_nil]
  rfl

namespace ChatDb

/-- `d'` has the calls and the steps that `d` has of the turn, unless it has lost the calls: an edit
deletes them with any step of the turn. -/
def KeepsTurn (d : ChatDb) (m : ℕ) (d' : ChatDb) : Prop :=
  ∀ c ∈ d'.toolCalls, c.messageStepId = m →
    (∃ c₀ ∈ d.toolCalls, c₀.messageStepId = m ∧ c₀.sessionId = c.sessionId ∧
      (c₀.status ≠ .pending → c.status ≠ .pending)) ∧
    ∀ st : ChatStep, st.sessionId = c.sessionId → st.messageStepId = m →
      (st ∈ d'.steps ↔ st ∈ d.steps)

theorem KeepsTurn.of_eq (hcalls : d'.toolCalls = d.toolCalls) (hsteps : d'.steps = d.steps) :
    d.KeepsTurn m d' := by
  intro c hc hm
  rw [hcalls] at hc
  exact ⟨⟨c, hc, hm, rfl, id⟩, fun st _ _ => by rw [hsteps]⟩

theorem KeepsTurn.trans {d'' : ChatDb} (h : d.KeepsTurn m d') (h' : d'.KeepsTurn m d'') :
    d.KeepsTurn m d'' := by
  intro c hc hm
  obtain ⟨⟨c₁, h₁, hm₁, hs₁, hstatus₁⟩, hsteps₁⟩ := h' c hc hm
  obtain ⟨⟨c₀, h₀, hm₀, hs₀, hstatus₀⟩, hsteps₀⟩ := h c₁ h₁ hm₁
  refine ⟨⟨c₀, h₀, hm₀, hs₀.trans hs₁, hstatus₁ ∘ hstatus₀⟩, fun st hs hst => ?_⟩
  exact (hsteps₁ st hs hst).trans (hsteps₀ st (hs.trans hs₁.symm) hst)

theorem KeepsTurn.extend {m' : ℕ} (hΔ : Δ.Of sid m') (hne : m' ≠ m) :
    d.KeepsTurn m (d.extend Δ) := by
  intro c hc hm
  refine ⟨?_, fun st hs hst => ⟨fun hmem => ?_, fun hmem => List.mem_append_left _ hmem⟩⟩
  · rcases List.mem_append.1 hc with hc | hc
    · exact ⟨c, hc, hm, rfl, id⟩
    · exact absurd ((hΔ.calls c hc).2.1.symm.trans hm) hne
  · rcases List.mem_append.1 hmem with hmem | hmem
    · exact hmem
    · exact absurd ((hΔ.steps st hmem).symm.trans hst) hne

theorem KeepsTurn.truncate (sid anchor : ℕ) : d.KeepsTurn m (d.truncate sid anchor) := by
  intro c hc hm
  refine ⟨⟨c, List.mem_of_mem_filter hc, hm, rfl, id⟩, fun st hs hst => ?_⟩
  refine ⟨fun hst => List.mem_of_mem_filter hst, fun hst' => List.mem_filter.2 ⟨hst', ?_⟩⟩
  -- a turn with a deleted step has lost its calls
  have hkept := (List.mem_filter.1 hc).2
  simp only [decide_eq_true_eq] at hkept ⊢
  rintro ⟨hsid, hle⟩
  refine hkept ⟨hs.symm.trans hsid, List.mem_map.2 ⟨st, ?_, hst.trans hm.symm⟩⟩
  exact List.mem_filter.2 ⟨hst', by simp [hsid, hle]⟩

theorem KeepsTurn.deliver {u g : ℕ} {c : ToolCall} {o : ToolOutcome} (hne : c.messageStepId ≠ m) :
    d.KeepsTurn m (d.deliver u g c o) := by
  intro c' hc' hm
  refine ⟨?_, fun st hs hst => ⟨fun hst' => ?_, fun hst' => List.mem_append_left _ hst'⟩⟩
  · obtain ⟨c₀, h₀, -, hs₀, hm₀, -, hstatus⟩ := mem_deliver hc'
    exact ⟨c₀, h₀, hm₀.trans hm, hs₀, hstatus⟩
  · rcases List.mem_append.1 hst' with hst' | hst'
    · exact hst'
    · obtain rfl := List.mem_singleton.1 hst'
      exact absurd hst hne

/-- A turn stays finished. -/
theorem Finished.of (h : d.Finished m) (hkeeps : d.KeepsTurn m d') : d'.Finished m := by
  intro c hc hm
  obtain ⟨⟨c₀, h₀, hm₀, hs₀, hstatus⟩, hiff⟩ := hkeeps c hc hm
  obtain ⟨hdone, st, hst, hs, hst', hassistant, hlast⟩ := h c₀ h₀ hm₀
  rw [hs₀] at hs hlast
  exact ⟨hstatus hdone, st, (hiff st hs hst').2 hst, hs, hst', hassistant,
    fun st' h' hs' hm' => hlast st' ((hiff st' hs' hm').1 h') hs' hm'⟩

end ChatDb

theorem ChatDb.Unbilled.congr (h : d'.texts = d.texts) : d'.Unbilled m ↔ d.Unbilled m := by
  unfold ChatDb.Unbilled
  rw [h]

/-- Rows of a turn that has not been paid for. -/
theorem TextLaw.extend (h : TextLaw d) (hΔ : Δ.Of sid m) (hunbilled : d.Unbilled m)
    (hwithin : d.Within sid m) : TextLaw (d.extend Δ) := by
  have htexts := texts_extend (d := d) hΔ.texts
  refine ⟨htexts ▸ h.amounts, htexts ▸ h.distinct, fun m' hm' => ?_, fun c hc => ?_,
    fun c hc c' hc' hm => ?_⟩
  · rw [ChatDb.Unbilled.congr htexts] at hm'
    have hne : m ≠ m' := fun he => hm' (he ▸ hunbilled)
    exact (h.finished m' hm').of (.extend hΔ hne)
  · rcases List.mem_append.1 hc with hc | hc
    · exact h.server c hc
    · exact (hΔ.calls c hc).2.2
  · rcases List.mem_append.1 hc with hc | hc <;> rcases List.mem_append.1 hc' with hc' | hc'
    · exact h.within c hc c' hc' hm
    · obtain ⟨hs', hm', -⟩ := hΔ.calls c' hc'
      exact hs'.trans (hwithin c hc (hm.symm.trans hm')).symm
    · obtain ⟨hs, hm₁, -⟩ := hΔ.calls c hc
      exact (hwithin c' hc' (hm.trans hm₁)).trans hs.symm
    · exact (hΔ.calls c' hc').1.trans (hΔ.calls c hc).1.symm

theorem ChatDb.Within.extend (h : d.Within sid m) (hΔ : Δ.Of sid m) : (d.extend Δ).Within sid m := by
  intro c hc hm
  rcases List.mem_append.1 hc with hc | hc
  · exact h c hc hm
  · exact (hΔ.calls c hc).1

/-- A change of the accounts only, with no debit for a message. -/
theorem TextLaw.pay (h : TextLaw d) {ops : List WalletOp} (hops : (rows ops).filter isText = []) :
    TextLaw (d.pay ops) := by
  have htexts := texts_pay (d := d) hops
  refine ⟨htexts ▸ h.amounts, htexts ▸ h.distinct, fun m hm => ?_, h.server, h.within⟩
  rw [ChatDb.Unbilled.congr htexts] at hm
  exact h.finished m hm

theorem TextLaw.truncate (h : TextLaw d) (sid anchor : ℕ) : TextLaw (d.truncate sid anchor) := by
  have hmem : ∀ c ∈ (d.truncate sid anchor).toolCalls, c ∈ d.toolCalls :=
    fun c hc => List.mem_of_mem_filter hc
  refine ⟨h.amounts, h.distinct, fun m hm => ?_, fun c hc => h.server c (hmem c hc),
    fun c hc c' hc' => h.within c (hmem c hc) c' (hmem c' hc')⟩
  exact (h.finished m hm).of (.truncate sid anchor)

theorem texts_deliver (u g : ℕ) (c : ToolCall) (o : ToolOutcome) :
    (d.deliver u g c o).texts = d.texts := by
  unfold ChatDb.texts ChatDb.deliver
  rw [ledger_applyAll]
  split <;> simp [Wallet.rows]

/-- The delivery of a result to a turn that has not been paid for. -/
theorem TextLaw.deliver (h : TextLaw d) {u g : ℕ} {c : ToolCall} {o : ToolOutcome}
    (hunbilled : d.Unbilled c.messageStepId) : TextLaw (d.deliver u g c o) := by
  have htexts := texts_deliver (d := d) u g c o
  have hmem : ∀ c' ∈ (d.deliver u g c o).toolCalls, ∃ c₀ ∈ d.toolCalls,
      c₀.messageStepId = c'.messageStepId ∧ c₀.sessionId = c'.sessionId ∧
      (c₀.status ≠ .pending → c'.status ≠ .pending) := by
    intro c' hc'
    obtain ⟨c₀, h₀, -, hs, hm, -, hstatus⟩ := mem_deliver hc'
    exact ⟨c₀, h₀, hm, hs, hstatus⟩
  refine ⟨htexts ▸ h.amounts, htexts ▸ h.distinct, fun m hm => ?_, fun c' hc' hside => ?_,
    fun c₁ h₁ c₂ h₂ hm => ?_⟩
  · rw [ChatDb.Unbilled.congr htexts] at hm
    have hne : c.messageStepId ≠ m := fun he => hm (he ▸ hunbilled)
    exact (h.finished m hm).of (.deliver hne)
  · obtain ⟨c₀, h₀, rfl⟩ := List.mem_map.1 hc'
    have ho := o.status_ne
    unfold ToolCall.complete at hside ⊢
    split
    · exact ho
    · rename_i hid
      rw [if_neg hid] at hside
      exact h.server c₀ h₀ hside
  · obtain ⟨c, hc, hm₁, hs₁, -⟩ := hmem c₁ h₁
    obtain ⟨c', hc', hm₂, hs₂, -⟩ := hmem c₂ h₂
    rw [← hs₁, ← hs₂]
    exact h.within c hc c' hc' (by omega)

/-- A batch for a turn that has been paid for changes nothing. -/
theorem deliverAll_of_done {u : ℕ} {rs : List (ToolResultIn × ToolCall)}
    (h : ∀ p ∈ rs, p.2.status ≠ .pending) (g : ℕ) (d : ChatDb) : deliverAll u rs g d = (g, d) := by
  induction rs with
  | nil => rfl
  | cons p rs ih =>
    have hp : p.2.status.done = true := (ToolStatus.done_iff _).2 (h p (List.mem_cons_self ..))
    unfold deliverAll
    rw [if_neg (by simp [hp])]
    exact ih fun q hq => h q (List.mem_cons_of_mem _ hq)

/-- A batch changes nothing of a finished turn. -/
theorem ChatDb.KeepsTurn.deliverAll {u g m' : ℕ} {rs : List (ToolResultIn × ToolCall)}
    (hfinished : d.Finished m)
    (hcalls : ∀ p ∈ rs, p.2 ∈ d.toolCalls ∧ p.2.messageStepId = m') :
    d.KeepsTurn m (deliverAll u rs g d).2 := by
  by_cases hm : m' = m
  · have hdone : ∀ p ∈ rs, p.2.status ≠ .pending := fun p hp =>
      (hfinished p.2 (hcalls p hp).1 ((hcalls p hp).2.trans hm)).1
    rw [deliverAll_of_done hdone]
    exact .of_eq rfl rfl
  · replace hcalls : ∀ p ∈ rs, p.2.messageStepId ≠ m := fun p hp => (hcalls p hp).2.trans_ne hm
    clear hfinished
    induction rs generalizing g d with
    | nil => exact .of_eq rfl rfl
    | cons p rs ih =>
      have htail := fun q hq => hcalls q (List.mem_cons_of_mem _ hq)
      unfold Chat.deliverAll
      split
      · exact (KeepsTurn.deliver (hcalls p (List.mem_cons_self ..))).trans (ih htail)
      · exact ih htail

theorem texts_deliverAll {u : ℕ} (rs : List (ToolResultIn × ToolCall)) (g : ℕ) (d : ChatDb) :
    (deliverAll u rs g d).2.texts = d.texts := by
  induction rs generalizing g d with
  | nil => rfl
  | cons p rs ih =>
    unfold deliverAll
    split
    · rw [ih, texts_deliver]
    · exact ih g d

theorem TextLaw.deliverAll (h : TextLaw d) {u g : ℕ} {rs : List (ToolResultIn × ToolCall)}
    (hcalls : ∀ p ∈ rs, p.2 ∈ d.toolCalls ∧ p.2.messageStepId = m) :
    TextLaw (deliverAll u rs g d).2 := by
  by_cases hunbilled : d.Unbilled m
  · have hm : ∀ p ∈ rs, p.2.messageStepId = m := fun p hp => (hcalls p hp).2
    clear hcalls
    induction rs generalizing g d with
    | nil => exact h
    | cons p rs ih =>
      have hp := hm p (List.mem_cons_self ..)
      have htail := fun q hq => hm q (List.mem_cons_of_mem _ hq)
      unfold Chat.deliverAll
      split
      · have hnext : (d.deliver u g p.2 p.1.outcome).Unbilled m :=
          (ChatDb.Unbilled.congr (texts_deliver ..)).2 hunbilled
        exact ih (h.deliver (hp ▸ hunbilled)) hnext htail
      · exact ih h hunbilled htail
  · have hdone : ∀ p ∈ rs, p.2.status ≠ .pending := fun p hp =>
      (h.finished m hunbilled p.2 (hcalls p hp).1 (hcalls p hp).2).1
    rw [deliverAll_of_done hdone]
    exact h

end Rows

/-! ## The law is kept -/

/-- The state in which a turn is generated: it has not been paid for, and waits for no result. -/
structure Turn.TextLaw (t : Turn) (d : ChatDb) : Prop extends ChatBackend.Chat.TextLaw d where
  unbilled : d.Unbilled t.messageStepId
  session : d.Within t.sessionId t.messageStepId
  done : ∀ c ∈ d.toolCalls, c.messageStepId = t.messageStepId → c.status ≠ .pending
  temporary : t.temporary = true → ∀ c ∈ d.toolCalls, c.messageStepId ≠ t.messageStepId

section Kept

variable {llm : LLMAnswer → Prop} {cfg : Config} {t : Turn} {g g' : ℕ} {d d' : ChatDb}
variable {request : ChatRequest} {b : BlockRun} {rs : List Round}
variable {old : LedgerTransaction → Prop}

theorem ToolExecution.status_ne (e : ToolExecution) : e.status ≠ .pending := by
  cases e <;> exact nofun

theorem BlockRun.Done.of (h : b.Done cfg t g) : (b.delta t).Of t.sessionId t.messageStepId := by
  have hside := h.clientSide
  refine ⟨fun st hst => ?_, fun c hc => ?_, ?_⟩
  · have hst : t.temporary = false ∧ st ∈ b.steps t := by simpa [BlockRun.delta] using hst
    have hst := hst.2
    unfold BlockRun.steps at hst
    split at hst
    · rw [List.mem_singleton.1 hst]
    · rw [List.mem_singleton.1 hst]
    · cases hst
  · have hc : t.temporary = false ∧ c = b.row t := by simpa [BlockRun.delta] using hc
    rw [hc.2]
    refine ⟨rfl, rfl, fun hserver => ?_⟩
    obtain ⟨e, he⟩ := Option.isSome_iff_exists.1 (hside.1 hserver)
    simpa [BlockRun.row, he] using e.status_ne
  · obtain ⟨pregen, g₁, d₁, u, g', hg, huse, hid, hargs, hproj, he⟩ := h
    have hwallet : rows (b.delta t).wallet = rows b.charge := by
      cases hb : b.exec <;> simp [BlockRun.delta, BlockRun.completedAudit, rows_append, rows, hb,
        Turn.auditOp]
    rw [hwallet]
    unfold BlockRun.charge
    split at he <;> rename_i hexec <;> rw [hexec]
    · rfl
    · obtain ⟨-, -, -, -, -, -, -, rfl⟩ := he
      rw [rows_chargeOps]
      rfl
    · rfl

theorem deltas_of {bs : List BlockRun} (h : ∀ b ∈ bs, b.Done cfg t g) :
    (deltas t bs).Of t.sessionId t.messageStepId := by
  induction bs with
  | nil => exact .empty _ _
  | cons b bs ih =>
    rw [deltas_cons]
    exact (h b (List.mem_cons_self ..)).of.append (ih fun b' hb' => h b' (List.mem_cons_of_mem _ hb'))

theorem Round.Ok.of {r : Round} (h : r.Ok cfg t g d g' d') :
    (r.delta t).Of t.sessionId t.messageStepId :=
  (stepDelta_of ..).append (deltas_of h.done)

/-- The rows of a turn keep its law, if they leave no call to the client. -/
theorem Turn.TextLaw.extend {Δ : Delta} (h : t.TextLaw d) (hΔ : Δ.Of t.sessionId t.messageStepId)
    (hdone : ∀ c ∈ Δ.toolCalls, c.status ≠ .pending ∧ t.temporary = false) :
    t.TextLaw (d.extend Δ) := by
  refine ⟨h.toTextLaw.extend hΔ h.unbilled h.session,
    (ChatDb.Unbilled.congr (texts_extend hΔ.texts)).2 h.unbilled, h.session.extend hΔ, fun c hc => ?_,
    fun ht c hc => ?_⟩
  · rcases List.mem_append.1 hc with hc | hc
    · exact h.done c hc
    · exact fun _ => (hdone c hc).1
  · rcases List.mem_append.1 hc with hc | hc
    · exact h.temporary ht c hc
    · rw [(hdone c hc).2] at ht
      cases ht

theorem deltas_done {bs : List BlockRun} (h : bs.flatMap (·.clientOuts) = []) :
    ∀ c ∈ (deltas t bs).toolCalls, c.status ≠ .pending ∧ t.temporary = false := by
  induction bs with
  | nil => exact nofun
  | cons b bs ih =>
    obtain ⟨hb, hbs⟩ : b.clientOuts = [] ∧ bs.flatMap (·.clientOuts) = [] := by simpa using h
    intro c hc
    rw [deltas_cons] at hc
    rcases List.mem_append.1 hc with hc | hc
    · have hc : t.temporary = false ∧ c = b.row t := by simpa [BlockRun.delta] using hc
      refine ⟨?_, hc.1⟩
      rw [hc.2]
      unfold BlockRun.clientOuts at hb
      unfold BlockRun.row BlockRun.execution
      cases hexec : b.exec with
      | client =>
        rw [hexec] at hb
        cases hb
      | server stepId e writes => exact e.status_ne
      | image imageId stepId data wallet => exact (generated imageId data).status_ne
    · exact ih hbs c hc

theorem Round.Ok.textLaw {r : Round} (h : r.Ok cfg t g d g' d') (hc : r.clientOuts = [])
    (hl : t.TextLaw d) : t.TextLaw d' := by
  rw [h.eq]
  refine hl.extend h.of fun c hmem => ?_
  rcases List.mem_append.1 hmem with hmem | hmem
  · cases hmem
  · exact deltas_done hc c hmem

theorem Generated.textLaw {provider : Provider} {att : Option PreparedAttachments} {m m' : ChatMem}
    (h : Generated llm cfg t provider att g d m rs g' d' m') (hl : t.TextLaw d) : t.TextLaw d' := by
  induction h with
  | start => exact hl
  | round h hr hc _ _ ih => exact hr.textLaw hc ih

@[simp] theorem ChatDb.mem_turnSteps {sid m : ℕ} {st : ChatStep} : st ∈ d.turnSteps sid m ↔
    st ∈ d.steps ∧ st.sessionId = sid ∧ st.messageStepId = m := by
  simp [ChatDb.turnSteps, ChatDb.listSteps, and_assoc]

/-- A turn that is finished answers from what it has stored. -/
theorem ChatDb.Finished.nextStepAfter {sid m : ℕ} {c : ToolCall} (hf : d.Fresh g)
    (h : d.Finished m) (hc : c ∈ d.toolCalls) (hs : c.sessionId = sid) (hm : c.messageStepId = m) :
    d.nextStepAfter sid m c.id ≠ none := by
  obtain ⟨-, st, hst, hsid, hmid, hassistant, hlast⟩ := h c hc hm
  rw [hs] at hsid hlast
  have hmem : st ∈ d.turnSteps sid m := ChatDb.mem_turnSteps.2 ⟨hst, hsid, hmid⟩
  unfold ChatDb.nextStepAfter
  split
  · rename_i anchor hanchor
    have hanswers := List.find?_some hanchor
    obtain ⟨hin, hsid', hmid'⟩ := ChatDb.mem_turnSteps.1 (List.mem_of_find?_eq_some hanchor)
    have hle := hlast anchor hin hsid' hmid'
    have hne : anchor.seq ≠ st.seq := by
      intro heq
      obtain rfl := eq_of_seq hf hin hst heq
      cases hp : anchor.payload <;> simp [hp, Payload.isAssistant, Payload.answers] at hassistant hanswers
    intro hnone
    have := List.find?_eq_none.1 hnone st hmem
    simp only [hassistant, decide_eq_true_eq, true_and] at this
    omega
  · intro hnone
    have := List.find?_eq_none.1 hnone st (List.mem_reverse.2 hmem)
    exact this hassistant

/-- A new turn has not been paid for, and has no calls. -/
theorem ChatDb.Fresh.unbilled (hf : d.Fresh g) : d.Unbilled g := by
  intro r hr hk
  have := hf.keys r (List.mem_of_mem_filter hr) g hk
  omega

theorem Opened.textLaw {req : RunRequest} {o : Opening} {m : ChatMem}
    (h : Opened cfg req g d o g' d' m) (hf : d.Fresh g) (hl : TextLaw d) :
    TextLaw d' ∧ d'.texts = d.texts := by
  have hnew : ∀ c ∈ d.toolCalls, c.messageStepId ≠ g := fun c hc => (hf.toolCalls c hc).2.ne
  have hstep : ∀ {d₁ : ChatDb} {sid seq payload}, TextLaw d₁ → d₁.texts = d.texts →
      (∀ c ∈ d₁.toolCalls, c ∈ d.toolCalls) →
      TextLaw (d₁.extend (stepDelta false sid g seq payload none)) ∧
        (d₁.extend (stepDelta false sid g seq payload none)).texts = d.texts := by
    intro d₁ sid seq payload h₁ htexts hcalls
    refine ⟨h₁.extend (stepDelta_of ..) ((ChatDb.Unbilled.congr htexts).2 hf.unbilled) ?_,
      (texts_extend rfl).trans htexts⟩
    exact fun c hc hm => absurd hm (hnew c (hcalls c hc))
  cases h with
  | temporary => exact ⟨hl, rfl⟩
  | created =>
    have hadded : TextLaw { d with sessions := d.sessions ++ [o.session] } :=
      ⟨hl.amounts, hl.distinct, hl.finished, hl.server, hl.within⟩
    exact hstep hadded rfl fun c hc => hc
  | resumed => exact hstep hl rfl fun c hc => hc
  | edited =>
    exact hstep (hl.truncate _ _) rfl fun c hc => List.mem_of_mem_filter hc

theorem Resolved.of_turn {u sessionId m : ℕ} {results : List ToolResultIn} {session : ChatSession}
    {resolved : List (ToolResultIn × ToolCall)}
    (h : Resolved d u sessionId results session m resolved) :
    ∀ p ∈ resolved, p.2 ∈ d.toolCalls ∧ p.2.messageStepId = m :=
  fun p hp => ⟨(h.calls p hp).1, (h.calls p hp).2.2.2⟩

theorem Resolved.done {u sessionId m : ℕ} {results : List ToolResultIn} {session : ChatSession}
    {resolved : List (ToolResultIn × ToolCall)}
    (h : Resolved d u sessionId results session m resolved) (hfinished : d.Finished m) :
    ∀ p ∈ resolved, p.2.status ≠ .pending :=
  fun p hp => (hfinished p.2 (h.of_turn p hp).1 (h.of_turn p hp).2).1

theorem Ready.textLaw {userId messageStepId : ℕ} {session : ChatSession} {temporary : Bool}
    {att : Option PreparedAttachments} {m : ChatMem}
    (h : Ready cfg g d request userId session messageStepId temporary att g' d' m)
    (hf : d.Fresh g) (hl : TextLaw d) : TextLaw d' ∧ d'.texts = d.texts ∧
      d'.Unbilled messageStepId ∧ d'.Within session.id messageStepId ∧
      (∀ c ∈ d'.toolCalls, c.messageStepId = messageStepId → c.status ≠ .pending) ∧
      (temporary = true → ∀ c ∈ d'.toolCalls, c.messageStepId ≠ messageStepId) := by
  cases h with
  | run h =>
    obtain ⟨hlaw, htexts⟩ := h.textLaw hf hl
    have hnew : ∀ c ∈ d'.toolCalls, c.messageStepId ≠ g :=
      fun c hc => (hf.toolCalls c (h.calls c hc)).2.ne
    exact ⟨hlaw, htexts, (ChatDb.Unbilled.congr htexts).2 hf.unbilled,
      fun c hc hm => absurd hm (hnew c hc), fun c hc hm => absurd hm (hnew c hc), fun _ => hnew⟩
  | @toolResult _ sessionId _ _ _ resolved first workspace m h hb hn =>
    obtain ⟨hmem, -, hs, hm⟩ := h.calls first (List.mem_cons_self ..)
    have hlaw : TextLaw (Chat.deliverAll userId (first :: resolved) g d).2 := hl.deliverAll h.of_turn
    have htexts := texts_deliverAll (u := userId) (first :: resolved) g d
    have hwithin : (Chat.deliverAll userId (first :: resolved) g d).2.Within sessionId
        messageStepId := by
      intro c hc hmc
      obtain ⟨c₀, h₀, -, hs₀, hm₀, -⟩ := mem_deliverAll hc
      rw [← hs₀, ← hs]
      exact hl.within first.2 hmem c₀ h₀ (by omega)
    refine ⟨hlaw, htexts, ?_, h.session_id ▸ hwithin, fun c hc hmc => ?_, nofun⟩
    · -- a turn that has been paid for is finished, and answers from what is stored
      by_contra hbilled
      rw [ChatDb.Unbilled.congr htexts] at hbilled
      have hfinished := hl.finished messageStepId hbilled
      rw [deliverAll_of_done (h.done hfinished)] at hn
      exact hfinished.nextStepAfter hf hmem hs hm hn
    · cases hside : c.toolName.clientSide with
      | true => exact (ToolStatus.done_iff _).1 (hb c hc (hwithin c hc hmc) hmc hside)
      | false => exact hlaw.server c hc hside

theorem Starts.textLaw {att : Option PreparedAttachments} {m : ChatMem}
    (h : Starts cfg g d request t att g' d' m) (hf : d.Fresh g) (hl : TextLaw d) :
    t.TextLaw d' ∧ d'.texts = d.texts := by
  cases h with
  | intro h =>
    obtain ⟨hlaw, htexts, hunbilled, hwithin, hdone, htemp⟩ := h.textLaw hf hl
    exact ⟨⟨hlaw.pay rfl, (ChatDb.Unbilled.congr (texts_pay rfl)).2 hunbilled, hwithin, hdone, htemp⟩,
      (texts_pay rfl).trans htexts⟩

theorem roundsDelta_of {provider : Provider} {att : Option PreparedAttachments} {m m' : ChatMem}
    (h : Generated llm cfg t provider att g d m rs g' d' m') :
    (roundsDelta t rs).Of t.sessionId t.messageStepId := by
  induction h with
  | start => exact .empty _ _
  | round h hr _ _ _ ih =>
    rw [roundsDelta_append]
    exact ih.append hr.of

/-- The rounds of a generation debit no message. -/
theorem Passes.textLaw {provider : Provider} {att : Option PreparedAttachments} {m : ChatMem}
    (h : Passes llm cfg g d request t provider att rs g' d' m) (hf : d.Fresh g) (hl : TextLaw d) :
    t.TextLaw d' ∧ d'.texts = d.texts ∧ d'.trialUsed = d.trialUsed := by
  cases h with
  | intro hs hp hg =>
    obtain ⟨hlaw, htexts⟩ := hs.textLaw hf hl
    refine ⟨hg.textLaw hlaw, ?_, ?_⟩
    · rw [hg.eq, texts_extend (roundsDelta_of hg).texts, htexts]
    · rw [hg.eq]
      exact (hs.keeps hf).trialUsed

/-- A turn with its last step. -/
theorem Turn.TextLaw.ended (hl : t.TextLaw d) (seq : ℕ) (result : LLMResult)
    (reason : List (String × Json)) : t.TextLaw (t.ended seq result reason d) ∧
      (t.ended seq result reason d).texts = d.texts := by
  have hstep : t.TextLaw (d.extend (t.stepDelta seq (.assistant result.contentBlocks)
      (some result.usage))) := hl.extend (stepDelta_of ..) nofun
  refine ⟨⟨hstep.toTextLaw.pay rfl, ?_, hstep.session, hstep.done, hstep.temporary⟩, ?_⟩
  · exact (ChatDb.Unbilled.congr (texts_pay rfl)).2 hstep.unbilled
  · exact (texts_pay rfl).trans (texts_extend rfl)

theorem Turn.TextLaw.ended_finished (hl : t.TextLaw d) (hf : d.Fresh g) (result : LLMResult)
    (reason : List (String × Json)) : (t.ended g result reason d).Finished t.messageStepId := by
  intro c hc hm
  have hc : c ∈ d.toolCalls := by simpa [Turn.ended, ChatDb.pay, ChatDb.extend, Chat.stepDelta] using hc
  have hstored : t.temporary = false := by
    by_contra htemp
    exact hl.temporary (by simpa using htemp) c hc hm
  have hsteps : (t.ended g result reason d).steps = d.steps ++ [⟨g, t.sessionId, t.messageStepId,
      .assistant result.contentBlocks, some result.usage⟩] := by
    simp [Turn.ended, ChatDb.pay, ChatDb.extend, Chat.stepDelta, hstored]
  refine ⟨hl.done c hc hm, ⟨g, t.sessionId, t.messageStepId, .assistant result.contentBlocks,
    some result.usage⟩, ?_, (hl.session c hc hm).symm, rfl, rfl, fun st' hst' _ _ => ?_⟩
  · rw [hsteps]
    exact List.mem_append_right _ (List.mem_singleton_self _)
  · rw [hsteps] at hst'
    rcases List.mem_append.1 hst' with hst' | hst'
    · exact (hf.steps st' hst').1.le
    · rw [List.mem_singleton.1 hst']

/-- The billing adds no call and no step. -/
theorem Bills.rows {usage : Usage} (h : Bills t usage g d g' d') :
    d'.toolCalls = d.toolCalls ∧ d'.steps = d.steps := by
  cases h <;> exact ⟨rfl, rfl⟩

theorem LLMResult.Final.toolUses_eq_nil {result : LLMResult} (h : result.Final)
    (hreason : result.stopReason = .toolUse) :
    result.toolUses = [] := by
  rcases h with h | h
  · rw [h] at hreason
    cases hreason
  · exact h.2

theorem LLMResult.Final.ne_maxTokens {result : LLMResult} (h : result.Final) :
    result.stopReason ≠ .maxTokens := by
  rcases h with h | h
  · simp [h]
  · simp [h.1]

/-- What the billing of a message does to the debits and the trials. -/
structure Bills.Law (t : Turn) (d d' : ChatDb) : Prop where
  law : TextLaw d'
  debit : t.billing.debitCredits = true → ∃ r, d'.texts = d.texts ++ [r] ∧
    r.key = (t.userId, .uuid t.messageStepId) ∧ r.type = .debit ∧ r.amount = 1
  free : t.billing.debitCredits = false → d'.texts = d.texts
  trial : t.billing.debitCredits = false → t.billing.markTrial = true →
    d'.trialUsed t.userId = true

theorem Bills.textLaw {usage : Usage} (h : Bills t usage g d g' d') (hl : t.TextLaw d)
    (hi : t.ImageLaw cfg old d) (hfinished : d.Finished t.messageStepId) : Bills.Law t d d' := by
  cases h with
  | charged hdebit =>
    have hledger := ledger_applyAll (chargeOps d.accounts g t.userId 1 (.uuid t.messageStepId)
      (debitMeta usage) (fkSessionId t.temporary t.sessionId)) d.accounts
    rw [rows_chargeOps] at hledger
    have htexts := congrArg (List.filter isText) hledger
    rw [List.filter_append] at htexts
    have htexts : (d.pay (chargeOps d.accounts g t.userId 1 (.uuid t.messageStepId)
        (debitMeta usage) (fkSessionId t.temporary t.sessionId))).texts = d.texts ++
          [⟨g, t.userId, .debit, 1, debitMeta usage, .uuid t.messageStepId⟩] := htexts
    refine ⟨⟨fun r hr => ?_, ?_, fun m hm => ?_, hl.server, hl.within⟩,
      fun _ => ⟨_, htexts, rfl, rfl, rfl⟩, fun hfree => ?_, fun hfree => ?_⟩
    · rw [htexts] at hr
      rcases List.mem_append.1 hr with hr | hr
      · exact hl.amounts r hr
      · rw [List.mem_singleton.1 hr]
        exact ⟨rfl, rfl⟩
    · rw [htexts, List.map_append]
      refine List.nodup_append.2 ⟨hl.distinct, List.nodup_singleton _, fun a ha b hb => ?_⟩
      obtain ⟨r, hr, rfl⟩ := List.mem_map.1 ha
      obtain rfl := List.mem_singleton.1 hb
      exact hl.unbilled r hr
    · by_cases hm' : m = t.messageStepId
      · exact hm' ▸ hfinished
      · refine hl.finished m fun hunbilled => hm fun r hr => ?_
        rw [htexts] at hr
        rcases List.mem_append.1 hr with hr | hr
        · exact hunbilled r hr
        · rw [List.mem_singleton.1 hr]
          exact fun hk => hm' (IdemKey.uuid.inj hk).symm
    all_goals
      rw [hdebit] at hfree
      cases hfree
  | @replayed r hdebit hr hk =>
    -- a row under the id of the turn is neither for a message nor for an image
    have hkey : r.idempotencyKey = .uuid t.messageStepId := congrArg Prod.snd hk
    cases hfor : forImage r with
    | false =>
      refine absurd hkey (hl.unbilled r (List.mem_filter.2 ⟨hr, ?_⟩))
      simp [isText, hkey, hfor]
    | true => exact absurd hkey (hi.turn r hr hfor)
  | trial hfree hmark =>
    refine ⟨⟨hl.amounts, hl.distinct, hl.finished, hl.server, hl.within⟩, fun hdebit => ?_,
      fun _ => rfl, fun _ _ => Function.update_self ..⟩
    rw [hfree] at hdebit
    cases hdebit
  | free hfree hmark =>
    refine ⟨hl.toTextLaw, fun hdebit => ?_, fun _ => rfl, fun _ hmark' => ?_⟩
    · rw [hfree] at hdebit
      cases hdebit
    · rw [hmark] at hmark'
      cases hmark'

theorem Ends.textLaw {acc : Acc} {answer : LLMAnswer} {pregen : Pregen} {out : ChatRunOut}
    (h : Ends cfg t acc g d answer pregen out g' d') (hf : d.Fresh g) (hl : t.TextLaw d)
    (hi : t.ImageLaw cfg old d) : ChatBackend.Chat.TextLaw d' := by
  cases h with
  | final h hb =>
    exact (hb.textLaw (hl.ended _ _ _).1 (hi.ended _ _ _) (hl.ended_finished hf _ _)).law
  | unpaid | poor => exact hl.toTextLaw
  | maxTokens h => exact (hl.ended _ _ _).1.toTextLaw
  | client hr hc =>
    rw [hr.eq]
    exact hl.toTextLaw.extend hr.of hl.unbilled hl.session
  | expired h =>
    split
    · have hmark : ChatBackend.Chat.TextLaw (d.expireKey t.userId) :=
        ⟨hl.amounts, hl.distinct, hl.finished, hl.server, hl.within⟩
      exact hmark.pay rfl
    · exact hl.toTextLaw

theorem Settles.textLaw {out : ChatRunOut} (h : Settles cfg g d request out g' d')
    (hf : d.Fresh g) (hl : TextLaw d) : TextLaw d' := by
  cases h with
  | denied h hp => exact (h.textLaw hf hl).1.pay rfl
  | noProvider h hm hp => exact (h.textLaw hf hl).1.toTextLaw
  | awaiting hr h => exact hl.deliverAll h.of_turn
  | replayed hr h => exact hl.deliverAll h.of_turn

/-- A sweep leaves the debits, the calls and the steps. -/
theorem Sweeps.textLaw {out : ChatRunOut} (h : Sweeps out d d') (hl : TextLaw d) : TextLaw d' := by
  cases h with
  | skipped => exact hl
  | swept => exact ⟨hl.amounts, hl.distinct, hl.finished, hl.server, hl.within⟩

theorem Visits.textLaw (h : Visits llm cfg g d request g' d') (hf : d.Fresh g)
    (hi : ImageLaw cfg old d) (hl : TextLaw d) : TextLaw d' := by
  cases h with
  | passed h => exact (h.textLaw hf hl).1.toTextLaw
  | exhausted h => exact (h.textLaw hf hl).1.toTextLaw.pay rfl
  | answered h =>
    cases h with
    | settled h => exact h.textLaw hf hl
    | ended h hl' he hs =>
      exact hs.textLaw (he.textLaw (h.fresh hf).2.2 (h.textLaw hf hl).1 (h.imageLaw hf hi))

/-- The rows that other services write are for no message. -/
theorem filter_isText_of_text {ops : List WalletOp}
    (hk : ∀ r ∈ rows ops, ∀ id, r.idempotencyKey ≠ .uuid id) : (rows ops).filter isText = [] := by
  refine List.filter_eq_nil_iff.2 fun r hr => ?_
  unfold isText
  split
  · rename_i id hid
    exact absurd hid (hk r hr id)
  · simp

/-- **A turn that has been paid for is finished** in every committed state. -/
theorem Reached.textLaw {ok : ℕ → ChatDb → ChatRequest → Prop} (h : Reached llm cfg ok g d) :
    TextLaw d := by
  refine h.induction (I := fun _ d => TextLaw d) ?_ (fun _ hl => hl) ?_ ?_
  · exact ⟨nofun, .nil, fun m hm => absurd nofun hm, nofun, nofun⟩
  · exact fun hr hf hl _ hv => hv.textLaw hf hr.imageLaw hl
  · intro g d ops _ _ _ hl hk
    have hpaid := hl.pay (filter_isText_of_text hk)
    exact ⟨hpaid.amounts, hpaid.distinct, hpaid.finished, hpaid.server, hpaid.within⟩

end Kept

end ChatBackend.Chat

import ChatBackend.Chat.Rounds

/-!
# Statements of a request that has the store for itself

The rules by which the programs of the orchestrator are executed symbolically: a statement, the
wallet inside the chat store, and a debit.
-/

namespace ChatBackend.Chat

open Prog Wallet

abbrev ChatWorld : Type := Store.World ChatDb ℕ ChatMem

/-- Observe a run: `commit` holds whenever it is about to commit, `call` whenever it is about to
call the provider. -/
def watch (commit : ChatWorld → Prop) (call : LLMRequest → ChatWorld → Prop) :
    TxAct ChatStmt → ChatWorld → Prop
  | .commit, w => commit w
  | .stmt (.createMessage req), w => call req w
  | _, _ => True

section Rules

variable {α β : Type} {C : TxAct ChatStmt → ChatWorld → Prop}
variable {Q : Except AppError α → ChatWorld → Prop}
variable {llm : LLMAnswer → Prop} {commit : ChatWorld → Prop} {call : LLMRequest → ChatWorld → Prop}

theorem wp_chatStmt (s : ChatStmt) (k : s.Resp → ChatProg α) (w : ChatWorld) :
    (Prog.act (TxAct.stmt s) k : ChatProg α).wp (chatStore llm).step C Q w ↔ C (.stmt s) w ∧
      ∀ r, s.Allowed llm w.gen w.mem w.work r → (k r).wp (chatStore llm).step C Q
        ⟨w.db, (chatStore llm).view (s.effect w.gen w.mem w.work r).1 w.work,
          (s.effect w.gen w.mem w.work r).2.1, (s.effect w.gen w.mem w.work r).2.2⟩ := by
  rw [Store.wp_stmt]
  refine and_congr_right fun _ => ⟨fun h r hr => h r _ _ _ ⟨hr, rfl⟩, ?_⟩
  rintro h r ops gen mem ⟨hr, he⟩
  simpa [he] using h r hr

@[simp] theorem chatStore_apply (o : ChatOp) (d : ChatDb) : (chatStore llm).apply o d = o.apply d := rfl

/-- Writes of the wallet touch the accounts only. -/
@[simp] theorem view_wallet (ops : List WalletOp) (d : ChatDb) :
    (chatStore llm).view (ops.map .wallet) d = d.pay ops := by
  induction ops generalizing d with
  | nil => rfl
  | cons o ops ih => rw [List.map_cons, Store.view_cons, ih]; rfl

@[simp] theorem view_site (writes : List SiteWrite) (d : ChatDb) :
    (chatStore llm).view (writes.map .site) d = { d with site := d.site ++ writes } := by
  induction writes generalizing d with
  | nil => simp
  | cons o ops ih =>
    rw [List.map_cons, Store.view_cons, ih]
    simp [ChatOp.apply]

/-- A program of the wallet in the chat store: it leaves everything but the accounts. -/
theorem wp_embed_wallet {p : WalletProg α} (hp : p.Only Store.Pool.IsStmt) {w : ChatWorld}
    (h : p.wp walletStore.step (fun _ _ => True) (embedPost AppError.ofWallet fun o w' =>
      Q o ⟨w.db, { w.work with accounts := w'.work.accounts }, w'.gen, w.mem⟩)
      ⟨w.db.walletDb, w.work.walletDb, w.gen, ()⟩) :
    (p.embed walletAct walletAnswer AppError.ofWallet).wp (chatStore llm).step (watch commit call) Q w := by
  obtain ⟨db, d, g, m⟩ := w
  induction p generalizing d g with
  | ret a => exact h
  | raise x => exact h
  | act e k ih =>
    obtain ⟨⟨s, rfl⟩, hk⟩ := hp
    rw [wp_walletStmt fun _ _ => trivial] at h
    refine (wp_chatStmt (.wallet s) _ _).2 ⟨trivial, ?_⟩
    rintro _ rfl
    simp only [ChatStmt.effect, view_wallet]
    exact ih _ (hk _) _ _ h

/-- **The ends of a debit** in the chat store. -/
theorem tryConsume_wp {Q : Except AppError Bool → ChatWorld → Prop} {u : ℕ} {amount : Int}
    {key : IdemKey} {metaData : Json} {sid : Option ℕ} {w : ChatWorld}
    (charged : (∀ r ∈ w.work.accounts.ledger, r.key ≠ (u, key)) → 0 < amount →
      amount ≤ w.work.accounts.balance u → Q (.ok true) ⟨w.db,
        w.work.pay (chargeOps w.work.accounts w.gen u amount key metaData sid), w.gen + 1, w.mem⟩)
    (replayed : ∀ r ∈ w.work.accounts.ledger, r.key = (u, key) → r.type = .debit →
      r.amount = amount → Q (.ok true) ⟨w.db, w.work.pay (provision w.work.accounts u), w.gen, w.mem⟩)
    (poor : (∀ r ∈ w.work.accounts.ledger, r.key ≠ (u, key)) → 0 < amount →
      w.work.accounts.balance u < amount → ∀ a,
      Q (.ok false) ⟨w.db, { w.work with accounts := a }, w.gen + 1, w.mem⟩)
    (refused : ∀ e a, Q (.error e) ⟨w.db, { w.work with accounts := a }, w.gen, w.mem⟩) :
    (tryConsume u amount key metaData sid).wp (chatStore llm).step (watch commit call) Q w := by
  unfold tryConsume
  simp only [tryCatch_eq, wp_tryCatch, bind_eq, wp_bind, consume]
  refine wp_embed_wallet consume_only (consume_wp (fun _ _ => trivial) ?_ ?_ ?_ ?_)
  · intro hfresh hpos hle res
    exact charged hfresh hpos hle
  · intro r hr hk hty ham res
    exact replayed r hr hk hty ham
  · intro hfresh hpos hlt m a
    exact poor hfresh hpos hlt a
  · intro e a he
    cases e with
    | insufficientCredits m => exact absurd rfl (he m)
    | conflict m | sessionNotFound m | forbidden m => exact refused _ a

end Rules

/-! ## The writes of a turn -/

/-- The tables after the completion of a call. -/
def Turn.complete (t : Turn) (id : ℕ) (status : ToolStatus) (result : Json) (d : ChatDb) : ChatDb :=
  { d with toolCalls :=
      if t.temporary then d.toolCalls else d.toolCalls.map (ToolCall.complete id status result) }

section Turn

variable {llm : LLMAnswer → Prop} {commit : ChatWorld → Prop}
  {call : LLMRequest → ChatWorld → Prop} {w : ChatWorld}

theorem uuid4_wp {Q : Except AppError ℕ → ChatWorld → Prop}
    (h : Q (.ok w.gen) ⟨w.db, w.work, w.gen + 1, w.mem⟩) :
    uuid4.wp (chatStore llm).step (watch commit call) Q w := by
  refine (wp_chatStmt .uuid4 _ _).2 ⟨trivial, ?_⟩
  rintro _ rfl
  exact h

theorem recordAudit_wp {Q : Except AppError Unit → ChatWorld → Prop} {event : AuditEvent}
    (h : Q (.ok ()) ⟨w.db, w.work.pay [.insertAudit event.redacted], w.gen, w.mem⟩) :
    (recordAudit event).wp (chatStore llm).step (watch commit call) Q w := by
  refine (wp_chatStmt (.wallet (.recordAudit event.redacted)) _ _).2 ⟨trivial, ?_⟩
  rintro ⟨⟩ -
  exact h

theorem addStep_wp {Q : Except AppError (Option ℕ) → ChatWorld → Prop} {temporary : Bool}
    {sessionId messageStepId : ℕ} {payload : Payload} {usage : Option Usage}
    (h : ∀ m, MemGrows temporary w.mem [⟨messageStepId, payload, usage⟩] m →
      Q (.ok (stepIdOf temporary w.gen)) ⟨w.db,
        w.work.extend (stepDelta temporary sessionId messageStepId w.gen payload usage),
        nextStep temporary w.gen, m⟩) :
    (addStep temporary sessionId messageStepId payload usage).wp (chatStore llm).step
      (watch commit call) Q w := by
  unfold addStep
  unfold stepDelta nextStep stepIdOf ChatDb.extend at h
  cases temporary with
  | true =>
    refine (wp_chatStmt (.memAddStep _) _ _).2 ⟨trivial, ?_⟩
    rintro ⟨⟩ -
    simpa [ChatStmt.effect] using h ⟨w.mem.steps ++ _, w.mem.toolCalls, w.mem.calls⟩
      ⟨by simp, rfl⟩
  | false =>
    refine (wp_chatStmt (.insertStep ..) _ _).2 ⟨trivial, ?_⟩
    rintro _ rfl
    simpa [ChatStmt.effect, ChatOp.apply] using h w.mem ⟨by simp, rfl⟩

theorem createToolCall_wp {Q : Except AppError Unit → ChatWorld → Prop} {t : Turn} {row : ToolCall}
    (h : ∀ m, MemGrows t.temporary w.mem [] m → Q (.ok ())
      ⟨w.db, { w.work with toolCalls := w.work.toolCalls ++ if t.temporary then [] else [row] },
        w.gen, m⟩) :
    (createToolCall t.temporary row).wp (chatStore llm).step (watch commit call) Q w := by
  unfold createToolCall
  cases ht : t.temporary with
  | true =>
    refine (wp_chatStmt (.memCreateToolCall _) _ _).2 ⟨trivial, ?_⟩
    rintro ⟨⟩ -
    simpa [ht, ChatStmt.effect] using h ⟨w.mem.steps, w.mem.toolCalls ++ _, w.mem.calls⟩
      ⟨by simp, rfl⟩
  | false =>
    refine (wp_chatStmt (.createToolCall _) _ _).2 ⟨trivial, ?_⟩
    rintro ⟨⟩ -
    simpa [ht, ChatStmt.effect, ChatOp.apply] using h w.mem ⟨by simp, rfl⟩

/-- The completion of a call that is pending. -/
theorem completeToolCall_wp {Q : Except AppError Bool → ChatWorld → Prop} {t : Turn} {id : ℕ}
    {status : ToolStatus} {result : Json}
    (hp : t.temporary = false → ∃ c ∈ w.work.toolCalls, c.id = id ∧ c.status = .pending)
    (h : ∀ m r, MemGrows t.temporary w.mem [] m →
      Q (.ok r) ⟨w.db, t.complete id status result w.work, w.gen, m⟩) :
    (completeToolCall t.temporary id status result).wp (chatStore llm).step (watch commit call) Q w := by
  unfold completeToolCall
  unfold Turn.complete at h
  cases ht : t.temporary with
  | true =>
    refine (wp_chatStmt (.memCompleteToolCall ..) _ _).2 ⟨trivial, ?_⟩
    rintro r -
    have hm : MemGrows t.temporary w.mem []
        (if r then { w.mem with toolCalls := w.mem.toolCalls.map (ToolCall.complete id status result) }
          else w.mem) := by
      refine ⟨?_, ?_⟩ <;> split <;> simp
    simpa [ht, ChatStmt.effect] using h _ r hm
  | false =>
    have hany : (w.work.toolCalls.any fun c => c.id = id ∧ c.status = .pending) = true := by
      simpa using hp ht
    refine (wp_chatStmt (.completeToolCall ..) _ _).2 ⟨trivial, ?_⟩
    rintro r hr
    obtain rfl : r = true := hr.trans hany
    simpa [ht, ChatStmt.effect, ChatOp.apply] using h w.mem true ⟨by simp, rfl⟩

end Turn

end ChatBackend.Chat

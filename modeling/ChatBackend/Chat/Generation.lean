import ChatBackend.Chat.Sequential

/-!
# A round of tool use

`handleToolUse_wp` says what the handling of a response with tool uses leaves in the open
transaction, from the specifications of the executions it is made of.
-/

namespace ChatBackend.Chat

open Prog Wallet

variable {llm : LLMAnswer → Prop} {commit : ChatWorld → Prop}
  {call : LLMRequest → ChatWorld → Prop} {w : ChatWorld}
variable {cfg : Config} {t : Turn}

/-! ## Executions -/

/-- The tables after the three writes that end an execution. -/
def Turn.outcome (t : Turn) (g id : ℕ) (name : ToolName) (puid : String) (ex : ToolExecution)
    (extra : List (String × Json)) (d : ChatDb) : ChatDb :=
  ((t.complete id ex.status ex.payload d).extend
    (t.stepDelta g (.tool id puid name ex.result ex.errorBody) none)).pay
    [t.auditOp .toolCallCompleted ([("toolCallId", .num id), ("toolName", .str name.str),
      ("status", .str ex.status.str)] ++ extra)]

/-- A stored call that is not done. -/
def Turn.HasPending (t : Turn) (id : ℕ) (d : ChatDb) : Prop :=
  t.temporary = false → ∃ c ∈ d.toolCalls, c.id = id ∧ c.status = .pending

/-- The step in memory of a result. -/
def Turn.memAnswer (t : Turn) (id : ℕ) (name : ToolName) (puid : String) (ex : ToolExecution) :
    List MemStep :=
  [⟨t.messageStepId, .tool id puid name ex.result ex.errorBody, none⟩]

theorem persistToolOutcome_wp {Q : Except AppError Unit → ChatWorld → Prop} {id : ℕ}
    {name : ToolName} {puid : String} {ex : ToolExecution} {extra : List (String × Json)}
    (hp : t.HasPending id w.work)
    (h : ∀ m, MemGrows t.temporary w.mem (t.memAnswer id name puid ex) m →
      Q (.ok ()) ⟨w.db, t.outcome w.gen id name puid ex extra w.work, t.next w.gen, m⟩) :
    (persistToolOutcome t id name puid ex extra).wp (chatStore llm).step (watch commit call) Q w := by
  unfold persistToolOutcome
  rw [bind_eq, wp_bind]
  refine completeToolCall_wp hp fun m₁ r h₁ => ?_
  simp only [bindPost]
  rw [bind_eq, wp_bind]
  refine addStep_wp fun m₂ h₂ => ?_
  simp only [bindPost, Turn.audit]
  exact recordAudit_wp (h m₂ (h₁.trans h₂))

theorem executeGlobalServerSideTool_wp {Q : Except AppError Acc → ChatWorld → Prop} {id : ℕ}
    {name : ToolName} {args : Json} {puid : String} {acc : Acc} (hp : t.HasPending id w.work)
    (h : ∀ ex m, MemGrows t.temporary w.mem (t.memAnswer id name puid ex) m →
      Q (.ok ⟨acc.serverTools ++ [serverTool id name ex], acc.quizzes ++ quizOf name ex, acc.images⟩)
        ⟨w.db, t.outcome w.gen id name puid ex [] w.work, t.next w.gen, m⟩) :
    (executeGlobalServerSideTool t id name args puid acc).wp (chatStore llm).step (watch commit call) Q
      w := by
  unfold executeGlobalServerSideTool
  refine (wp_chatStmt (.globalExecute name args) _ _).2 ⟨trivial, fun ex _ => ?_⟩
  simp only [ret_bind]
  rw [bind_eq, wp_bind]
  exact persistToolOutcome_wp hp fun m hm => h ex m hm

theorem executeServerSideTool_wp {Q : Except AppError Acc → ChatWorld → Prop} {id : ℕ}
    {name : ToolName} {args : Json} {puid project : String} {acc : Acc}
    (hp : t.HasPending id w.work)
    (h : ∀ ex writes m, MemGrows t.temporary w.mem (t.memAnswer id name puid ex) m →
      Q (.ok ⟨acc.serverTools ++ [serverTool id name ex], acc.quizzes, acc.images⟩)
        ⟨w.db, t.outcome w.gen id name puid ex [] { w.work with site := w.work.site ++ writes },
          t.next w.gen, m⟩)
    (raised : ∀ e d, Q (.error e) ⟨w.db, d, w.gen, w.mem⟩) :
    (executeServerSideTool t id name args puid project acc).wp (chatStore llm).step (watch commit call) Q
      w := by
  unfold executeServerSideTool
  refine (wp_chatStmt (.siteExecute name args t.userId project) _ _).2 ⟨trivial, fun r _ => ?_⟩
  obtain ⟨o, writes⟩ := r
  simp only [ret_bind, ChatStmt.effect, view_site]
  cases o with
  | error e => exact raised e _
  | ok ex =>
    simp only
    rw [bind_eq, wp_bind]
    exact persistToolOutcome_wp hp fun m hm => h ex writes m hm

/-- A new tool call has no image yet. -/
theorem insertGeneratedImage_wp {Q : Except AppError ℕ → ChatWorld → Prop} {id : ℕ}
    {data : ImageData} {prompt : String} (hfresh : ∀ i ∈ w.work.images, i.toolCallId ≠ id)
    (h : Q (.ok w.gen) ⟨w.db, { w.work with images := w.work.images ++
      [⟨w.gen, t.userId, fkSessionId t.temporary t.sessionId, t.messageStepId, id, data.mediaType,
        data.size, prompt, t.temporary⟩] }, w.gen + 1, w.mem⟩) :
    (insertGeneratedImage t id data prompt).wp (chatStore llm).step (watch commit call) Q w := by
  unfold insertGeneratedImage
  have hany : (w.work.images.any (·.toolCallId = id)) = false := by
    simpa [List.any_eq_false] using hfresh
  refine (wp_chatStmt (.insertImage ..) _ _).2 ⟨trivial, fun r hr => ?_⟩
  obtain rfl : r = some w.gen := by simpa [ChatStmt.Allowed, hany] using hr
  simpa [ChatStmt.effect, ChatOp.apply] using h

theorem executeImageGenerateTool_wp {Q : Except AppError (ChatRunOut ⊕ Acc) → ChatWorld → Prop}
    {id : ℕ} {args : Json} {puid : String} {pregen : Except ImageError ImageData} {acc : Acc}
    (hp : t.HasPending id w.work) (hfresh : ∀ i ∈ w.work.images, i.toolCallId ≠ id)
    (hkey : ∀ r ∈ w.work.accounts.ledger, r.idempotencyKey ≠ .uuid id)
    (failed : ∀ e m, pregen = .error e →
      MemGrows t.temporary w.mem (t.memAnswer id .imageGenerate puid (degraded e)) m →
      Q (.ok (.inr ⟨acc.serverTools ++ [serverTool id .imageGenerate (degraded e)], acc.quizzes,
        acc.images⟩))
        ⟨w.db, t.outcome w.gen id .imageGenerate puid (degraded e) [] w.work, t.next w.gen, m⟩)
    (paid : ∀ data m, pregen = .ok data → 0 < cfg.imageCreditsCost →
      cfg.imageCreditsCost ≤ w.work.accounts.balance t.userId →
      MemGrows t.temporary w.mem (t.memAnswer id .imageGenerate puid (generated (w.gen + 1) data)) m →
      Q (.ok (.inr ⟨acc.serverTools ++
          [serverTool id .imageGenerate (generated (w.gen + 1) data)], acc.quizzes,
          acc.images ++ [⟨w.gen + 1, data.mediaType, data.size⟩]⟩))
        ⟨w.db, t.outcome (w.gen + 2) id .imageGenerate puid (generated (w.gen + 1) data)
          [("imageId", .num (w.gen + 1 : ℕ))]
          { w.work.pay (chargeOps w.work.accounts w.gen t.userId cfg.imageCreditsCost (.uuid id)
              (.obj [("kind", .str "image"), ("contentType", .str data.mediaType)])
              (fkSessionId t.temporary t.sessionId)) with
            images := w.work.images ++
              [⟨w.gen + 1, t.userId, fkSessionId t.temporary t.sessionId, t.messageStepId, id,
                data.mediaType, data.size, promptOf args, t.temporary⟩] }, t.next (w.gen + 2), m⟩)
    (poor : ∀ data, pregen = .ok data → 0 < cfg.imageCreditsCost →
      w.work.accounts.balance t.userId < cfg.imageCreditsCost →
      Q (.ok (.inl (blocked t.sessionId (some .imageCreditsEmpty))))
        ⟨w.db, w.db, w.gen + 1, w.mem⟩)
    (raised : ∀ e d, Q (.error e) ⟨w.db, d, w.gen, w.mem⟩) :
    (executeImageGenerateTool cfg t id args puid pregen acc).wp (chatStore llm).step (watch commit call) Q
      w := by
  unfold executeImageGenerateTool
  have hkey' : ∀ r ∈ w.work.accounts.ledger, r.key ≠ (t.userId, .uuid id) :=
    fun r hr hk => hkey r hr (congrArg Prod.snd hk)
  cases pregen with
  | error e =>
    simp only
    rw [bind_eq, wp_bind]
    exact persistToolOutcome_wp hp fun m hm => failed e m rfl hm
  | ok data =>
    simp only
    rw [bind_eq, wp_bind]
    refine tryConsume_wp ?_ ?_ ?_ ?_
    · intro _ hpos hle
      simp only [bindPost, if_true]
      rw [bind_eq, wp_bind]
      refine insertGeneratedImage_wp hfresh ?_
      simp only [bindPost]
      rw [bind_eq, wp_bind]
      exact persistToolOutcome_wp hp fun m hm => paid data m rfl hpos hle hm
    · intro r hr hk
      exact absurd hk (hkey' r hr)
    · intro _ hpos hlt a
      simp only [bindPost, Bool.false_eq_true, if_false]
      rw [TxProg.rollback, bind_eq, act_bind, Store.wp_rollback]
      exact ⟨trivial, poor data rfl hpos hlt⟩
    · intro e a
      exact raised e _

/-! ## A block -/

/-- The tables when the call of a block has been stored and audited. -/
def Turn.opened (t : Turn) (id : ℕ) (u : ToolUse) (args : Json) (d : ChatDb) : ChatDb :=
  ChatDb.pay
    { d with toolCalls := d.toolCalls ++ if t.temporary then [] else
      [⟨id, t.sessionId, t.messageStepId, u.name, u.id, args, .pending, none⟩] }
    [t.auditOp .toolCallInitiated [("toolCallId", .num id), ("toolName", .str u.name.str)]]

theorem Turn.opened_pending (id : ℕ) (u : ToolUse) (args : Json) (d : ChatDb) :
    t.HasPending id (t.opened id u args d) := by
  intro ht
  simp [Turn.opened, ChatDb.pay, ht]

/-- Completing a new call leaves the others alone. -/
theorem map_complete {g : ℕ} {calls : List ToolCall} (h : ∀ c ∈ calls, c.id < g)
    (status : ToolStatus) (result : Json) : calls.map (ToolCall.complete g status result) = calls := by
  rw [List.map_congr_left (g := id), List.map_id]
  intro c hc
  have := h c hc
  simp [ToolCall.complete, show c.id ≠ g by omega]

/-- A block that the backend executes, as rows added. -/
theorem Turn.outcome_opened {g : ℕ} {d : ChatDb} (hf : d.Fresh g) (u : ToolUse) (args : Json)
    (stepId : ℕ) (ex : ToolExecution) (writes : List SiteWrite) :
    t.outcome stepId g u.name u.id ex []
      { t.opened g u args d with site := (t.opened g u args d).site ++ writes } =
    d.extend (BlockRun.delta t ⟨u, args, g, .server stepId ex writes⟩) := by
  have hmap := map_complete (fun c hc => (hf.toolCalls c hc).1) ex.status ex.payload
  cases ht : t.temporary <;>
    simp [Turn.outcome, Turn.opened, Chat.stepDelta, Turn.complete, ChatDb.pay, ChatDb.extend,
      BlockRun.delta, BlockRun.steps, BlockRun.image, BlockRun.charge, BlockRun.completedAudit,
      BlockRun.writes, BlockRun.row, BlockRun.execution, BlockRun.answer,
      ToolCall.complete, hmap, ht]

/-- A block of a generated image, as rows added. -/
theorem Turn.outcome_image {g : ℕ} {d : ChatDb} (hf : d.Fresh g) (u : ToolUse)
    (hu : u.name = .imageGenerate) (args : Json) (imageId stepId : ℕ) (data : ImageData)
    (wallet : List WalletOp) :
    t.outcome stepId g .imageGenerate u.id (generated imageId data) [("imageId", .num imageId)]
      { (t.opened g u args d).pay wallet with
        images := (t.opened g u args d).images ++
          [⟨imageId, t.userId, fkSessionId t.temporary t.sessionId, t.messageStepId, g,
            data.mediaType, data.size, promptOf args, t.temporary⟩] } =
    d.extend (BlockRun.delta t ⟨u, args, g, .image imageId stepId data wallet⟩) := by
  have hmap := map_complete (fun c hc => (hf.toolCalls c hc).1) (generated imageId data).status
    (generated imageId data).payload
  cases ht : t.temporary <;>
    simp [Turn.outcome, Turn.opened, Chat.stepDelta, Turn.complete, ChatDb.pay, ChatDb.extend,
      BlockRun.delta, BlockRun.steps, BlockRun.image, BlockRun.charge, BlockRun.completedAudit,
      BlockRun.writes, BlockRun.row, BlockRun.execution, BlockRun.answer,
      ToolCall.complete, hmap, ht, hu, applyAll_append]

/-- A block that is left to the client, as rows added. -/
theorem Turn.opened_client {g : ℕ} (d : ChatDb) (u : ToolUse) (args : Json) :
    t.opened g u args d = d.extend (BlockRun.delta t ⟨u, args, g, .client⟩) := by
  cases ht : t.temporary <;>
    simp [Turn.opened, ChatDb.pay, ChatDb.extend, BlockRun.delta, BlockRun.steps, BlockRun.image,
      BlockRun.charge, BlockRun.completedAudit, BlockRun.writes, BlockRun.row, BlockRun.execution, ht]

@[simp] theorem Acc.add_nil (acc : Acc) : acc.add [] = acc := by simp [Acc.add]

theorem Acc.add_add (acc : Acc) (bs bs' : List BlockRun) :
    (acc.add bs).add bs' = acc.add (bs ++ bs') := by
  simp [Acc.add]

theorem Acc.add_server (acc : Acc) (u : ToolUse) (args : Json) (g stepId : ℕ) (ex : ToolExecution)
    (writes : List SiteWrite) : acc.add [⟨u, args, g, .server stepId ex writes⟩] =
      ⟨acc.serverTools ++ [serverTool g u.name ex], acc.quizzes ++ quizOf u.name ex,
        acc.images⟩ := by
  simp [Acc.add, BlockRun.serverTools, BlockRun.quizzes, BlockRun.imageOuts, BlockRun.execution]

theorem Acc.add_image (acc : Acc) (u : ToolUse) (hu : u.name = .imageGenerate) (args : Json)
    (g imageId stepId : ℕ) (data : ImageData) (wallet : List WalletOp) :
    acc.add [⟨u, args, g, .image imageId stepId data wallet⟩] =
      ⟨acc.serverTools ++ [serverTool g .imageGenerate (generated imageId data)], acc.quizzes,
        acc.images ++ [⟨imageId, data.mediaType, data.size⟩]⟩ := by
  simp [Acc.add, BlockRun.serverTools, BlockRun.quizzes, BlockRun.imageOuts, BlockRun.execution, hu,
    generated, quizOf]

theorem Acc.add_client (acc : Acc) (u : ToolUse) (args : Json) (g : ℕ) :
    acc.add [⟨u, args, g, .client⟩] = acc := by
  simp [Acc.add, BlockRun.serverTools, BlockRun.quizzes, BlockRun.imageOuts, BlockRun.execution]

theorem memSteps_server (u : ToolUse) (args : Json) (g stepId : ℕ) (ex : ToolExecution)
    (writes : List SiteWrite) :
    memSteps t [⟨u, args, g, .server stepId ex writes⟩] = t.memAnswer g u.name u.id ex := rfl

/-- The quiz of a tool that is no quiz. -/
theorem quizOf_eq_nil {name : ToolName} (h : name ≠ .quizGenerate) (ex : ToolExecution) :
    quizOf name ex = [] := by
  cases ex <;> simp [quizOf, h]

/-- The execution of a block that has been opened. -/
theorem executeBlock_wp {Q : Except AppError (ChatRunOut ⊕ Acc × List ToolCallOut) →
      ChatWorld → Prop} {project : Option String} {pregen : Pregen} {u : ToolUse} {args : Json}
    {acc : Acc} {clientOuts : List ToolCallOut} {g : ℕ} {db d : ChatDb} {m : ChatMem}
    (hf : d.Fresh g) (hargs : validatedArgs cfg u = .ok args)
    (hguard : u.name.serverSide → t.hasProject)
    (done : ∀ b g' m', b.Ok cfg t pregen g d u g' → MemGrows t.temporary m (memSteps t [b]) m' →
      Q (.ok (.inr (acc.add [b], clientOuts ++ b.clientOuts))) ⟨db, d.extend (b.delta t), g', m'⟩)
    (poor : ∀ data g' m', g ≤ g' → m'.calls = m.calls → u.name = .imageGenerate →
      pregen.get u = some (.ok data) → 0 < cfg.imageCreditsCost →
      d.accounts.balance t.userId < cfg.imageCreditsCost →
      Q (.ok (.inl (blocked t.sessionId (some .imageCreditsEmpty)))) ⟨db, db, g', m'⟩)
    (raised : ∀ e d' g' m', g ≤ g' → Q (.error e) ⟨db, d', g', m'⟩) :
    (executeBlock cfg t project pregen u args g acc clientOuts).wp (chatStore llm).step
      (watch commit call) Q ⟨db, t.opened g u args d, g + 1, m⟩ := by
  have hp : t.HasPending g (t.opened g u args d) := t.opened_pending g u args d
  -- a server-side execution, whatever tool it is of
  have server : ∀ ex writes m', u.name.clientSide = false →
      (u.name.serverSide = false → writes = []) →
      (u.name = .imageGenerate → ∃ e, pregen.get u = some (.error e) ∧ ex = degraded e) →
      MemGrows t.temporary m (t.memAnswer g u.name u.id ex) m' →
      Q (.ok (.inr (⟨acc.serverTools ++ [serverTool g u.name ex], acc.quizzes ++ quizOf u.name ex,
        acc.images⟩, clientOuts)))
        ⟨db, t.outcome (g + 1) g u.name u.id ex []
          { t.opened g u args d with site := (t.opened g u args d).site ++ writes },
          t.next (g + 1), m'⟩ := by
    intro ex writes m' hside hwrites himage hm
    have hok : BlockRun.Ok cfg t pregen g d u ⟨u, args, g, .server (g + 1) ex writes⟩
        (t.next (g + 1)) := ⟨rfl, rfl, hargs, hguard, hside, rfl, rfl, hwrites, himage⟩
    have := done _ _ m' hok (by rwa [memSteps_server])
    rw [Acc.add_server] at this
    rw [t.outcome_opened hf]
    simpa [BlockRun.clientOuts] using this
  unfold executeBlock
  split
  · rename_i hn
    split
    · exact raised _ _ _ _ (by omega)
    rename_i puid image hfind
    have hget : pregen.get u = some image := by simp [Pregen.get, hfind]
    rw [bind_eq, wp_bind]
    refine executeImageGenerateTool_wp hp ?_ ?_ ?_ ?_ ?_ ?_
    · exact fun i hi => (hf.images i hi).ne
    · exact fun r hr hk => (hf.keys r hr g hk).false
    · rintro e m' rfl hm
      have := server (degraded e) [] m' (by rw [hn]; rfl) (fun _ => rfl)
        (fun _ => ⟨e, hget, rfl⟩) (by rwa [hn])
      have hquiz : quizOf u.name (degraded e) = [] := quizOf_eq_nil (by simp [hn]) _
      rw [hquiz, List.append_nil, List.append_nil, hn] at this
      exact this
    · rintro data m' rfl hpos hle hm
      have hok : BlockRun.Ok cfg t pregen g d u ⟨u, args, g, .image (g + 2) (g + 3) data
          (chargeOps d.accounts (g + 1) t.userId cfg.imageCreditsCost (.uuid g)
            (.obj [("kind", .str "image"), ("contentType", .str data.mediaType)])
            (fkSessionId t.temporary t.sessionId))⟩ (t.next (g + 3)) :=
        ⟨rfl, rfl, hargs, hguard, hn, hget, rfl, rfl, rfl, hpos, hle, rfl⟩
      have := done _ _ m' hok (by simpa [memSteps, BlockRun.answers, BlockRun.execution,
        BlockRun.answer, Turn.memAnswer, hn] using hm)
      rw [acc.add_image u hn, ← t.outcome_image hf u hn] at this
      simp only [BlockRun.clientOuts, List.append_nil] at this
      exact this
    · rintro data rfl hpos hlt
      exact poor data (g + 2) m (by omega) rfl hn hget hpos hlt
    · exact fun e d' => raised e d' (g + 1) m (by omega)
  · rename_i hn
    split
    · rename_i hglobal
      rw [bind_eq, wp_bind]
      refine executeGlobalServerSideTool_wp hp fun ex m' hm => ?_
      have := server ex [] m' (by simp [ToolName.clientSide, hglobal]) (fun _ => rfl)
        (fun h => absurd h hn) hm
      rw [List.append_nil] at this
      exact this
    · rename_i hglobal
      split
      · rename_i hserver
        split
        · exact raised _ _ _ _ (by omega)
        rw [bind_eq, wp_bind]
        refine executeServerSideTool_wp hp ?_ fun e d' => raised e d' (g + 1) m (by omega)
        intro ex writes m' hm
        have hquiz : quizOf u.name ex = [] := by
          refine quizOf_eq_nil (fun h => ?_) ex
          rw [h] at hserver
          exact absurd hserver nofun
        have := server ex writes m' (by simp [ToolName.clientSide, hserver])
          (fun h => by simp [hserver] at h) (fun h => absurd h hn) hm
        rw [hquiz, List.append_nil] at this
        exact this
      · rename_i hserver
        split
        · exact raised _ _ _ _ (by omega)
        rename_i htemp
        have hok : BlockRun.Ok cfg t pregen g d u ⟨u, args, g, .client⟩ (g + 1) :=
          ⟨rfl, rfl, hargs, hguard, by simp [ToolName.clientSide, hserver, hglobal],
            by simpa using htemp, rfl⟩
        have := done _ _ m hok (.refl t.temporary m)
        rw [Acc.add_client, ← t.opened_client] at this
        exact this

/-- A block of the loop. -/
theorem handleBlock_wp {Q : Except AppError (ChatRunOut ⊕ Acc × List ToolCallOut) →
      ChatWorld → Prop} {project : Option String} {pregen : Pregen} {u : ToolUse} {acc : Acc}
    {clientOuts : List ToolCallOut} (hf : w.work.Fresh w.gen)
    (done : ∀ b g m, b.Ok cfg t pregen w.gen w.work u g → MemGrows t.temporary w.mem (memSteps t [b]) m →
      Q (.ok (.inr (acc.add [b], clientOuts ++ b.clientOuts)))
        ⟨w.db, w.work.extend (b.delta t), g, m⟩)
    (poor : ∀ data g m, w.gen ≤ g → m.calls = w.mem.calls → u.name = .imageGenerate →
      pregen.get u = some (.ok data) → 0 < cfg.imageCreditsCost →
      w.work.accounts.balance t.userId < cfg.imageCreditsCost →
      Q (.ok (.inl (blocked t.sessionId (some .imageCreditsEmpty)))) ⟨w.db, w.db, g, m⟩)
    (raised : ∀ e d g m, w.gen ≤ g → Q (.error e) ⟨w.db, d, g, m⟩) :
    (handleBlock cfg t project pregen u acc clientOuts).wp (chatStore llm).step (watch commit call) Q
      w := by
  unfold handleBlock
  split
  · exact raised _ _ _ _ le_rfl
  rename_i hguard
  cases hargs : validatedArgs cfg u with
  | error e => exact raised _ _ _ _ le_rfl
  | ok args =>
    simp only
    rw [bind_eq, wp_bind]
    refine uuid4_wp ?_
    simp only [bindPost]
    rw [bind_eq, wp_bind]
    refine createToolCall_wp fun m₁ h₁ => ?_
    simp only [bindPost, Turn.audit]
    rw [bind_eq, wp_bind]
    refine recordAudit_wp ?_
    refine executeBlock_wp hf hargs (fun hs => ?_) (fun b g' m' hb hm => ?_)
      (fun data g' m' hg hm => ?_) raised
    · by_contra hp
      exact hguard ⟨hs, by simpa using hp⟩
    · exact done b g' m' hb (h₁.trans hm)
    · exact poor data g' m' hg (hm.trans h₁.calls)

/-- The loop over the blocks, by induction on the blocks that are left. -/
theorem handleBlocks_wp {Q : Except AppError (ChatRunOut ⊕ Acc × List ToolCallOut) →
      ChatWorld → Prop} {project : Option String} {pregen : Pregen} {us : List ToolUse} {acc : Acc}
    {clientOuts : List ToolCallOut} (ht : t.messageStepId < w.gen) (hf : w.work.Fresh w.gen)
    (done : ∀ bs g d m, Blocks cfg t pregen w.gen w.work us bs g d →
      MemGrows t.temporary w.mem (memSteps t bs) m →
      Q (.ok (.inr (acc.add bs, clientOuts ++ bs.flatMap (·.clientOuts)))) ⟨w.db, d, g, m⟩)
    (poor : ∀ g m, w.gen ≤ g → m.calls = w.mem.calls → Poor cfg t pregen w.gen w.work us →
      Q (.ok (.inl (blocked t.sessionId (some .imageCreditsEmpty)))) ⟨w.db, w.db, g, m⟩)
    (raised : ∀ e d g m, w.gen ≤ g → Q (.error e) ⟨w.db, d, g, m⟩) :
    (handleBlocks cfg t project pregen us acc clientOuts).wp (chatStore llm).step (watch commit call) Q
      w := by
  induction us generalizing w acc clientOuts with
  | nil =>
    have := done [] w.gen w.work w.mem (.nil _ _) (.refl t.temporary w.mem)
    simpa [handleBlocks] using this
  | cons u us ih =>
    rw [handleBlocks, bind_eq, wp_bind]
    refine handleBlock_wp hf (fun b g m hb hm => ?_) ?_ raised
    · refine ih (ht.trans hb.lt) (hf.extend (hb.fresh ht)) ?_ ?_ ?_
      · intro bs g' d' m' hbs hm'
        have := done (b :: bs) g' d' m' (.cons hb hbs) (by simpa [memSteps] using hm.trans hm')
        rw [Acc.add_add, List.append_assoc]
        exact this
      · intro g' m' hg hm' hpoor
        exact poor g' m' (hb.lt.le.trans hg) (hm'.trans hm.calls) (.later hb hpoor)
      · intro e d' g' m' hg
        exact raised e d' g' m' (hb.lt.le.trans hg)
    · intro data g m hg hm hn hget hpos hlt
      exact poor g m hg hm (.here hn hget hpos hlt)

/-! ## A round -/

/-- The images are generated before anything is written. -/
theorem pregenerateImages_wp {Q : Except AppError Pregen → ChatWorld → Prop} {us : List ToolUse}
    {pregen : Pregen} (done : ∀ pregen, Q (.ok pregen) w) (raised : ∀ e, Q (.error e) w) :
    (pregenerateImages cfg us pregen).wp (chatStore llm).step (watch commit call) Q w := by
  induction us generalizing pregen with
  | nil => exact done pregen
  | cons u us ih =>
    unfold pregenerateImages
    split
    · exact ih
    split
    · exact raised _
    · refine (wp_chatStmt (.generateImage _) _ _).2 ⟨trivial, fun generated _ => ?_⟩
      exact ih

theorem projectId_wp {Q : Except AppError (Option String) → ChatWorld → Prop}
    (done : ∀ p, Q (.ok p) w) (raised : ∀ e, Q (.error e) w) :
    t.projectId.wp (chatStore llm).step (watch commit call) Q w := by
  unfold Turn.projectId externalProjectId
  split
  · refine (wp_chatStmt (.sessionById _) _ _).2 ⟨trivial, ?_⟩
    rintro _ rfl
    simp only [ret_bind, ChatStmt.effect, Store.view_nil]
    split
    · exact raised _
    · split
      · exact raised _
      · exact done _
  · exact done none

/-- **A round of tool use**: its blocks are executed, and the round goes on or is handed to the
client; or an image is not paid for, and the round is rolled back. -/
theorem handleToolUse_wp {Q : Except AppError TurnOutcome → ChatWorld → Prop} {result : LLMResult}
    {acc : Acc} (ht : t.messageStepId < w.gen) (hf : w.work.Fresh w.gen)
    (hreason : result.stopReason = .toolUse) (huses : result.toolUses ≠ [])
    (server : ∀ (r : Round) g d m, r.Ok cfg t w.gen w.work g d → r.result = result → r.clientOuts = [] →
      MemGrows t.temporary w.mem (r.memSteps t) m → Q (.ok (.server (acc.add r.blocks))) ⟨w.db, d, g, m⟩)
    (client : ∀ (r : Round) g d m, r.Ok cfg t w.gen w.work g d → r.result = result → r.clientOuts ≠ [] →
      MemGrows t.temporary w.mem (r.memSteps t) m →
      Q (.ok (.client (t.out .toolCall (orNone result.text) r.clientOuts none result.usage
        (t.stepId w.gen) (acc.add r.blocks)))) ⟨w.db, d, g, m⟩)
    (poor : ∀ pregen g m, w.gen ≤ g → m.calls = w.mem.calls →
      Poor cfg t pregen (t.next w.gen) (w.work.extend (t.stepDelta w.gen
        (.assistant result.contentBlocks) (some result.usage))) result.toolUses →
      Q (.ok (.blocked (blocked t.sessionId (some .imageCreditsEmpty)))) ⟨w.db, w.db, g, m⟩)
    (raised : ∀ e d g m, w.gen ≤ g → Q (.error e) ⟨w.db, d, g, m⟩) :
    (handleToolUse cfg t result acc).wp (chatStore llm).step (watch commit call) Q w := by
  have hle := le_nextStep t.temporary w.gen
  unfold handleToolUse
  rw [bind_eq, wp_bind]
  refine pregenerateImages_wp (fun pregen => ?_) fun e => raised e _ _ _ le_rfl
  simp only [bindPost]
  rw [bind_eq, wp_bind]
  refine addStep_wp fun m₁ h₁ => ?_
  simp only [bindPost]
  rw [bind_eq, wp_bind]
  refine projectId_wp (fun project => ?_) fun e => raised e _ _ _ hle
  simp only [bindPost]
  rw [bind_eq, wp_bind]
  refine handleBlocks_wp (ht.trans_le hle) (hf.extend (stepDelta_fresh ht _ _)) ?_ ?_ ?_
  · intro bs g d m hbs hm
    have hr : Round.Ok cfg t w.gen w.work ⟨result, w.gen, pregen, bs⟩ g d :=
      ⟨hreason, huses, rfl, hbs⟩
    have hm' := h₁.trans hm
    cases hc : bs.flatMap (·.clientOuts) with
    | nil => exact server _ g d m hr rfl hc hm'
    | cons c cs =>
      have := client _ g d m hr rfl (by simp [Round.clientOuts, hc]) hm'
      simpa [bindPost, Round.clientOuts, hc] using this
  · intro g m hg hm hpoor
    exact poor pregen g m (hle.trans hg) (hm.trans h₁.calls) hpoor
  · intro e d g m hg
    exact raised e d g m (hle.trans hg)

/-! ## The ends of a turn -/

theorem markTrialUsed_wp {Q : Except AppError Bool → ChatWorld → Prop} {u : ℕ}
    (h : ∀ r, Q (.ok r) ⟨w.db, { w.work with trialUsed := Function.update w.work.trialUsed u true },
      w.gen, w.mem⟩) :
    (markTrialUsed u).wp (chatStore llm).step (watch commit call) Q w := by
  refine (wp_chatStmt (.markTrialUsed u) _ _).2 ⟨trivial, ?_⟩
  rintro r (hr : r = _)
  have := h r
  cases hu : w.work.trialUsed u with
  | false => simpa [ChatStmt.effect, ChatOp.apply, hr, hu] using this
  | true =>
    have hupd : Function.update w.work.trialUsed u true = w.work.trialUsed := by
      rw [← hu, Function.update_eq_self]
    simpa [ChatStmt.effect, hr, hu, hupd] using this

theorem bill_wp {Q : Except AppError Bool → ChatWorld → Prop} {usage : Usage}
    (done : ∀ g d, Bills t usage w.gen w.work g d → Q (.ok true) ⟨w.db, d, g, w.mem⟩)
    (poor : t.billing.debitCredits = true →
      (∀ r ∈ w.work.accounts.ledger, r.key ≠ (t.userId, .uuid t.messageStepId)) →
      w.work.accounts.balance t.userId < 1 → ∀ d, Q (.ok false) ⟨w.db, d, w.gen + 1, w.mem⟩)
    (raised : ∀ e d, Q (.error e) ⟨w.db, d, w.gen, w.mem⟩) :
    (bill t usage).wp (chatStore llm).step (watch commit call) Q w := by
  unfold bill
  split
  · rename_i hd
    unfold debit
    refine tryConsume_wp ?_ ?_ ?_ ?_
    · exact fun hk _ hb => done _ _ (.charged hd hk hb)
    · exact fun r hr hk hty ham => done _ _ (.replayed hd hr hk hty ham)
    · exact fun hk _ hb a => poor hd hk hb _
    · exact fun e a => raised e _
  · rename_i hd
    rw [Bool.not_eq_true] at hd
    split
    · rename_i hm
      rw [bind_eq, wp_bind]
      exact markTrialUsed_wp fun r => done _ _ (.trial hd hm)
    · rename_i hm
      exact done _ _ (.free hd (by simpa using hm))

theorem finalizeAssistant_wp {Q : Except AppError ChatRunOut → ChatWorld → Prop}
    {result : LLMResult} {acc : Acc} (hfinal : result.Final)
    (done : ∀ out g d m, Ends cfg t acc w.gen w.work (.result result) [] out g d →
      commit ⟨w.db, d, g, m⟩ ∧ Q (.ok out) ⟨d, d, g, m⟩)
    (unpaid : ∀ out g m, Ends cfg t acc w.gen w.work (.result result) [] out g w.work →
      Q (.ok out) ⟨w.db, w.db, g, m⟩)
    (raised : ∀ e d g m, w.gen ≤ g → Q (.error e) ⟨w.db, d, g, m⟩) :
    (finalizeAssistant t result acc).wp (chatStore llm).step (watch commit call) Q w := by
  have hle := le_nextStep t.temporary w.gen
  unfold finalizeAssistant
  rw [bind_eq, wp_bind]
  refine addStep_wp fun m hm => ?_
  simp only [bindPost]
  rw [bind_eq, wp_bind]
  refine (wp_chatStmt (.sessionById _) _ _).2 ⟨trivial, fun _ _ => ?_⟩
  simp only [bindPost, ChatStmt.effect, Store.view_nil, wp_ret, Turn.audit]
  rw [bind_eq, wp_bind]
  refine recordAudit_wp ?_
  simp only [bindPost]
  rw [bind_eq, wp_bind]
  refine bill_wp ?_ ?_ ?_
  · intro g d hb
    have := done _ g d m (.final hfinal hb)
    simpa [bindPost, TxProg.commit, watch] using this
  · intro hd hk hb d
    have := unpaid _ (t.next w.gen + 1) m (.unpaid hfinal hd hk hb (hle.trans (Nat.le_succ _)))
    simpa [bindPost, TxProg.rollback, watch] using this
  · exact fun e d => raised e d _ m hle

theorem handleMaxTokens_wp {Q : Except AppError ChatRunOut → ChatWorld → Prop}
    {result : LLMResult} {acc : Acc} (hreason : result.stopReason = .maxTokens)
    (done : ∀ out g d m, Ends cfg t acc w.gen w.work (.result result) [] out g d →
      commit ⟨w.db, d, g, m⟩ ∧ Q (.ok out) ⟨d, d, g, m⟩) :
    (handleMaxTokens t result acc).wp (chatStore llm).step (watch commit call) Q w := by
  unfold handleMaxTokens
  rw [bind_eq, wp_bind]
  refine addStep_wp fun m hm => ?_
  simp only [bindPost, Turn.audit]
  rw [bind_eq, wp_bind]
  refine recordAudit_wp ?_
  have := done _ _ _ m (.maxTokens hreason)
  simp only [bindPost, TxProg.commit, bind_eq, act_bind, ret_bind, Store.wp_commit]
  exact this

theorem markExpired_wp {Q : Except AppError Unit → ChatWorld → Prop} {u : ℕ}
    (h : Q (.ok ()) ⟨w.db, if (w.work.keys u).isSome then (w.work.expireKey u).pay [.insertAudit
        (AuditEvent.redacted ⟨u, none, .byokChange,
          .obj [("action", .str "runtime_expire"), ("keyStatus", .str "expired")]⟩)]
      else w.work, w.gen, w.mem⟩) :
    (markExpired u).wp (chatStore llm).step (watch commit call) Q w := by
  refine (wp_chatStmt (.expireKey _) _ _).2 ⟨trivial, ?_⟩
  rintro found (hfound : found = (w.work.keys u).isSome)
  rw [← hfound] at h
  cases found with
  | false => exact h
  | true => exact recordAudit_wp h

theorem handleAuthError_wp {Q : Except AppError ChatRunOut → ChatWorld → Prop} {acc : Acc}
    (done : ∀ out g d m, Ends cfg t acc w.gen w.work .authError [] out g d →
      commit ⟨w.db, d, g, m⟩ ∧ Q (.ok out) ⟨d, d, g, m⟩)
    (raised : ∀ e, Q (.error e) w) :
    (handleAuthError t).wp (chatStore llm).step (watch commit call) Q w := by
  unfold handleAuthError
  cases hmode : t.mode with
  | credits => exact raised _
  | byok =>
    simp only
    rw [bind_eq, wp_bind]
    refine markExpired_wp ?_
    simp only [bindPost, TxProg.commit, bind_eq, act_bind, ret_bind, Store.wp_commit]
    exact done _ _ _ w.mem (.expired hmode)

theorem handleExhausted_wp {Q : Except AppError ChatRunOut → ChatWorld → Prop}
    (hc : commit ⟨w.db, t.exhausted cfg w.work, w.gen, w.mem⟩)
    (raised : ∀ e, Q (.error e)
      ⟨t.exhausted cfg w.work, t.exhausted cfg w.work, w.gen, w.mem⟩) :
    (handleExhausted cfg t).wp (chatStore llm).step (watch commit call) Q w := by
  unfold handleExhausted Turn.audit
  rw [bind_eq, wp_bind]
  refine recordAudit_wp ?_
  simp only [bindPost, TxProg.commit, bind_eq, act_bind, ret_bind, Store.wp_commit]
  exact ⟨hc, raised _⟩

/-! ## The loop -/

/-- The history that is sent to the model, read before a call. -/
theorem buildMessages_wp {Q : Except AppError (List NeutralMessage) → ChatWorld → Prop}
    (h : Q (.ok (messagesOf (history t.temporary t.sessionId w.work w.mem))) w) :
    (buildMessages t.temporary t.sessionId).wp (chatStore llm).step (watch commit call) Q w := by
  unfold buildMessages listSteps
  unfold history at h
  cases ht : t.temporary with
  | true =>
    simp only [if_true]
    refine (wp_chatStmt .memListSteps _ _).2 ⟨trivial, ?_⟩
    rintro _ rfl
    simpa [ht, ChatStmt.effect] using h
  | false =>
    simp only [Bool.false_eq_true, if_false]
    refine (wp_chatStmt (.listSteps _) _ _).2 ⟨trivial, ?_⟩
    rintro _ rfl
    simpa [ht, ChatStmt.effect] using h

section Loop

variable {provider : Provider} {att : Option PreparedAttachments} {g₀ : ℕ} {d₀ : ChatDb}
variable {m₀ : ChatMem}

theorem accOf_append (rs : List Round) (r : Round) :
    accOf (rs ++ [r]) = (accOf rs).add r.blocks := by
  simp [accOf, roundBlocks, Acc.add]

/-- **The generation loop**: the states in which it commits or calls the provider are those of
`Generated`, and it answers as `Ends` says. The induction is on the iterations that are left. -/
theorem generateRounds_wp {Q : Except AppError ChatRunOut → ChatWorld → Prop}
    (ht : t.messageStepId < g₀) (hf : d₀.Fresh g₀)
    (commits : ∀ rs g d m db, Generated llm cfg t provider att g₀ d₀ m₀ rs g d m → commit ⟨db, d, g, m⟩)
    (calls : ∀ rs g d m, Generated llm cfg t provider att g₀ d₀ m₀ rs g d m →
      call (t.call cfg provider att rs d m) ⟨d, d, g, m⟩)
    (ends : ∀ rs g d m answer pregen out g' d' m', Generated llm cfg t provider att g₀ d₀ m₀ rs g d m →
      llm answer → Ends cfg t (accOf rs) g d answer pregen out g' d' →
      commit ⟨d, d', g', m'⟩ ∧ Q (.ok out) ⟨d', d', g', m'⟩)
    (fails : ∀ rs g d m, Generated llm cfg t provider att g₀ d₀ m₀ rs g d m →
      ∀ e d' g' m', g ≤ g' → Q (.error e) ⟨d, d', g', m'⟩)
    (exhausts : ∀ rs g d m, Generated llm cfg t provider att g₀ d₀ m₀ rs g d m →
      ∀ e, commit ⟨d, t.exhausted cfg d, g, m⟩ ∧
        Q (.error e) ⟨t.exhausted cfg d, t.exhausted cfg d, g, m⟩)
    (n : ℕ) (db : ChatDb) {rs : List Round} {g : ℕ} {d : ChatDb} {m : ChatMem}
    (h : Generated llm cfg t provider att g₀ d₀ m₀ rs g d m) (hdb : n = 0 → db = d) :
    (generateRounds cfg t provider n (if rs = [] then att else none) (accOf rs)).wp (chatStore llm).step
      (watch commit call) Q ⟨db, d, g, m⟩ := by
  induction n generalizing db rs g d m with
  | zero =>
    obtain rfl := hdb rfl
    have := exhausts rs g _ m h
    exact handleExhausted_wp (this (.internal "")).1 fun e => (this e).2
  | succ n ih =>
    have hg := ht.trans_le h.le
    have hfresh := h.fresh ht hf
    rw [generateRounds, bind_eq, wp_bind]
    refine buildMessages_wp ?_
    simp only [bindPost, TxProg.commit, bind_eq, act_bind, ret_bind, Store.wp_commit]
    refine ⟨commits rs g d m db h, (wp_chatStmt (.createMessage _) _ _).2
      ⟨calls rs g d m h, fun answer (hl : llm answer) => ?_⟩⟩
    simp only [ret_bind, ChatStmt.effect, Store.view_nil]
    have hfails : ∀ e d' g' m', g ≤ g' → Q (.error e) ⟨d, d', g', m'⟩ := fails rs g d m h
    have hends : ∀ {answer pregen out g' d' m'}, llm answer →
        Ends cfg t (accOf rs) g d answer pregen out g' d' →
        commit ⟨d, d', g', m'⟩ ∧ Q (.ok out) ⟨d', d', g', m'⟩ := ends rs g d m _ _ _ _ _ _ h
    have hfinal : ∀ {result m'}, llm (.result result) → result.Final →
        (finalizeAssistant t result (accOf rs)).wp (chatStore llm).step (watch commit call) Q
          ⟨d, d, g, m'⟩ := fun hl hr =>
      finalizeAssistant_wp hr
        (fun _ _ _ _ (he : Ends cfg t (accOf rs) g d _ _ _ _ _) => hends hl he)
        (fun _ _ _ he => (hends hl he).2) fun e d' g' m' hg' => hfails e d' g' m' hg'
    cases answer with
    | error e => exact hfails _ _ _ _ le_rfl
    | authError => exact handleAuthError_wp (fun _ _ _ _ he => hends hl he) fun e => hfails e _ _ _ le_rfl
    | result result =>
      simp only
      cases hreason : result.stopReason with
      | maxTokens => exact handleMaxTokens_wp hreason fun _ _ _ _ he => hends hl he
      | endTurn => exact hfinal hl (.inl hreason)
      | toolUse =>
        simp only
        split
        · rename_i hempty
          exact hfinal hl (.inr ⟨hreason, by simpa using hempty⟩)
        · rename_i hempty
          rw [wp_bind]
          refine handleToolUse_wp hg hfresh hreason (by simpa using hempty) ?_ ?_ ?_ ?_
          · rintro r g' d' m' hr rfl hc hm
            have hnext := h.round hr hc hl hm
            simp only [bindPost, Store.wp_commit]
            refine ⟨commits _ _ _ _ _ hnext, ?_⟩
            have := ih d' hnext fun _ => rfl
            rw [accOf_append] at this
            simpa using this
          · rintro r g' d' m' hr rfl hc hm
            simp only [bindPost, Store.wp_commit]
            exact hends hl (.client hr hc)
          · intro pregen g' m' hg' hm hpoor
            exact (hends hl (.poor hreason hpoor hg')).2
          · exact hfails

end Loop

end ChatBackend.Chat

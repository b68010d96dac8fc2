import ChatBackend.Chat.Orchestrator
import ChatBackend.Wallet.Sequential

/-!
# What a generation leaves behind

The rounds of a turn as data: the tool blocks of a response with what came of each, and the rows
that a round adds to the tables. A round only adds rows, so its effect is a `Delta`.

* `BlockRun` is a tool block with its call and its execution, `Round` a response with its blocks.
* `Blocks` says which executions of the blocks of a response are possible on a database.
* `Generated` are the committed states that the generation loop passes, with the rounds so far.
-/

namespace ChatBackend.Chat

open Wallet

/-! ## Rows added -/

/-- What a transaction adds to the tables. -/
structure Delta where
  steps : List ChatStep
  toolCalls : List ToolCall
  images : List GeneratedImage
  wallet : List WalletOp
  site : List SiteWrite

namespace Delta

instance : EmptyCollection Delta := ⟨⟨[], [], [], [], []⟩⟩

instance : Append Delta :=
  ⟨fun a b => ⟨a.steps ++ b.steps, a.toolCalls ++ b.toolCalls, a.images ++ b.images,
    a.wallet ++ b.wallet, a.site ++ b.site⟩⟩

@[simp] theorem empty_steps : (∅ : Delta).steps = [] := rfl
@[simp] theorem empty_toolCalls : (∅ : Delta).toolCalls = [] := rfl
@[simp] theorem empty_images : (∅ : Delta).images = [] := rfl
@[simp] theorem empty_wallet : (∅ : Delta).wallet = [] := rfl
@[simp] theorem empty_site : (∅ : Delta).site = [] := rfl
@[simp] theorem append_steps (a b : Delta) : (a ++ b).steps = a.steps ++ b.steps := rfl
@[simp] theorem append_toolCalls (a b : Delta) : (a ++ b).toolCalls = a.toolCalls ++ b.toolCalls := rfl
@[simp] theorem append_images (a b : Delta) : (a ++ b).images = a.images ++ b.images := rfl
@[simp] theorem append_wallet (a b : Delta) : (a ++ b).wallet = a.wallet ++ b.wallet := rfl
@[simp] theorem append_site (a b : Delta) : (a ++ b).site = a.site ++ b.site := rfl

end Delta

/-- The tables with the rows added. -/
def ChatDb.extend (d : ChatDb) (Δ : Delta) : ChatDb :=
  { d with
    steps := d.steps ++ Δ.steps
    toolCalls := d.toolCalls ++ Δ.toolCalls
    images := d.images ++ Δ.images
    accounts := applyAll Δ.wallet d.accounts
    site := d.site ++ Δ.site }

@[simp] theorem ChatDb.extend_empty (d : ChatDb) : d.extend ∅ = d := by
  simp [ChatDb.extend]

theorem ChatDb.extend_extend (d : ChatDb) (a b : Delta) : (d.extend a).extend b = d.extend (a ++ b) := by
  simp [ChatDb.extend, applyAll_append]

/-- Identifiers are taken from a counter: those in the tables are below it, and the steps and the
calls stand in the order in which they were inserted. -/
structure ChatDb.Fresh (g : ℕ) (d : ChatDb) : Prop where
  sessions : ∀ s ∈ d.sessions, s.id < g
  steps : ∀ st ∈ d.steps, st.seq < g ∧ st.messageStepId < g
  toolCalls : ∀ c ∈ d.toolCalls, c.id < g ∧ c.messageStepId < g
  images : ∀ i ∈ d.images, i.toolCallId < g
  keys : ∀ r ∈ d.accounts.ledger, ∀ id, r.idempotencyKey = .uuid id → id < g
  stepsSorted : d.steps.Pairwise (·.seq < ·.seq)
  callsSorted : d.toolCalls.Pairwise (·.id < ·.id)

/-- The same of the rows added by a transaction that began at `g` and leaves the counter at `g'`. -/
structure Delta.Fresh (g g' : ℕ) (Δ : Delta) : Prop where
  le : g ≤ g'
  steps : ∀ st ∈ Δ.steps, g ≤ st.seq ∧ st.seq < g' ∧ st.messageStepId < g'
  toolCalls : ∀ c ∈ Δ.toolCalls, g ≤ c.id ∧ c.id < g' ∧ c.messageStepId < g'
  images : ∀ i ∈ Δ.images, g ≤ i.toolCallId ∧ i.toolCallId < g'
  keys : ∀ r ∈ rows Δ.wallet, ∀ id, r.idempotencyKey = .uuid id → id < g'
  stepsSorted : Δ.steps.Pairwise (·.seq < ·.seq)
  callsSorted : Δ.toolCalls.Pairwise (·.id < ·.id)

namespace ChatDb.Fresh

theorem mono {g g' : ℕ} {d : ChatDb} (h : d.Fresh g) (hg : g ≤ g') : d.Fresh g' :=
  ⟨fun s hs => (h.sessions s hs).trans_le hg,
    fun st hs => ⟨(h.steps st hs).1.trans_le hg, (h.steps st hs).2.trans_le hg⟩,
    fun c hc => ⟨(h.toolCalls c hc).1.trans_le hg, (h.toolCalls c hc).2.trans_le hg⟩,
    fun i hi => (h.images i hi).trans_le hg,
    fun r hr id hk => (h.keys r hr id hk).trans_le hg, h.stepsSorted, h.callsSorted⟩

theorem extend {g g' : ℕ} {d : ChatDb} {Δ : Delta} (h : d.Fresh g) (hΔ : Δ.Fresh g g') :
    (d.extend Δ).Fresh g' := by
  have hm := h.mono hΔ.le
  refine ⟨hm.sessions, fun st hs => ?_, fun c hc => ?_, fun i hi => ?_, fun r hr id hk => ?_,
    ?_, ?_⟩
  · rcases List.mem_append.1 hs with hs | hs
    · exact hm.steps st hs
    · exact (hΔ.steps st hs).2
  · rcases List.mem_append.1 hc with hc | hc
    · exact hm.toolCalls c hc
    · exact (hΔ.toolCalls c hc).2
  · rcases List.mem_append.1 hi with hi | hi
    · exact hm.images i hi
    · exact (hΔ.images i hi).2
  · have hr : r ∈ (applyAll Δ.wallet d.accounts).ledger := hr
    rw [ledger_applyAll] at hr
    rcases List.mem_append.1 hr with hr | hr
    · exact hm.keys r hr id hk
    · exact hΔ.keys r hr id hk
  · refine List.pairwise_append.2 ⟨h.stepsSorted, hΔ.stepsSorted, fun a ha b hb => ?_⟩
    exact (h.steps a ha).1.trans_le (hΔ.steps b hb).1
  · refine List.pairwise_append.2 ⟨h.callsSorted, hΔ.callsSorted, fun a ha b hb => ?_⟩
    exact (h.toolCalls a ha).1.trans_le (hΔ.toolCalls b hb).1

end ChatDb.Fresh

/-! ## A step -/

/-- A step, as rows added: a temporary chat does not store it. -/
def stepDelta (temporary : Bool) (sessionId messageStepId seq : ℕ) (payload : Payload)
    (usage : Option Usage) : Delta :=
  { (∅ : Delta) with
    steps := if temporary then [] else [⟨seq, sessionId, messageStepId, payload, usage⟩] }

theorem stepDelta_temporary (sessionId messageStepId seq : ℕ) (payload : Payload)
    (usage : Option Usage) : stepDelta true sessionId messageStepId seq payload usage = ∅ := rfl

/-- The counter after a step. -/
def nextStep (temporary : Bool) (g : ℕ) : ℕ := if temporary then g else g + 1

/-- The id of a step, in a response. -/
def stepIdOf (temporary : Bool) (g : ℕ) : Option ℕ := if temporary then none else some g

abbrev Turn.stepDelta (t : Turn) (seq : ℕ) (payload : Payload) (usage : Option Usage) : Delta :=
  Chat.stepDelta t.temporary t.sessionId t.messageStepId seq payload usage

abbrev Turn.next (t : Turn) (g : ℕ) : ℕ := nextStep t.temporary g

abbrev Turn.stepId (t : Turn) (g : ℕ) : Option ℕ := stepIdOf t.temporary g

theorem le_nextStep (temporary : Bool) (g : ℕ) : g ≤ nextStep temporary g := by
  unfold nextStep
  split <;> omega

theorem stepDelta_fresh {temporary : Bool} {sessionId messageStepId g : ℕ}
    (ht : messageStepId < g) (payload : Payload) (usage : Option Usage) :
    (stepDelta temporary sessionId messageStepId g payload usage).Fresh g
      (nextStep temporary g) := by
  refine ⟨le_nextStep temporary g, ?_, nofun, nofun, nofun, ?_, .nil⟩
  · unfold stepDelta nextStep
    split
    · exact nofun
    · intro st hs
      obtain rfl := List.mem_singleton.1 hs
      exact ⟨le_rfl, Nat.lt_succ_self g, ht.trans (Nat.lt_succ_self g)⟩
  · unfold stepDelta
    split <;> simp

/-- The memory after some steps have been added: that of a temporary chat keeps them. -/
structure MemGrows (temporary : Bool) (m : ChatMem) (steps : List MemStep) (m' : ChatMem) :
    Prop where
  steps : m'.steps = m.steps ++ if temporary then steps else []
  calls : m'.calls = m.calls

theorem MemGrows.refl (temporary : Bool) (m : ChatMem) : MemGrows temporary m [] m :=
  ⟨by simp, rfl⟩

theorem MemGrows.trans {temporary : Bool} {m m₁ m₂ : ChatMem} {s₁ s₂ : List MemStep}
    (h₁ : MemGrows temporary m s₁ m₁) (h₂ : MemGrows temporary m₁ s₂ m₂) :
    MemGrows temporary m (s₁ ++ s₂) m₂ := by
  refine ⟨?_, h₂.calls.trans h₁.calls⟩
  rw [h₂.steps, h₁.steps]
  split <;> simp

/-! ## Blocks -/

/-- What came of a tool block: it was executed by the backend, which stored its result as the step
`stepId`; it was an image, paid for with `wallet` and stored as `imageId`; or it is left to the
client. -/
inductive Execution : Type
  | server (stepId : ℕ) (execution : ToolExecution) (writes : List SiteWrite)
  | image (imageId stepId : ℕ) (data : ImageData) (wallet : List WalletOp)
  | client

/-- A tool block with the arguments and the call that were stored for it. -/
structure BlockRun where
  use : ToolUse
  args : Json
  id : ℕ
  exec : Execution

namespace BlockRun

/-- The tool result, for a block that the backend has executed. -/
def execution (b : BlockRun) : Option ToolExecution :=
  match b.exec with
  | .server _ execution _ => some execution
  | .image imageId _ data _ => some (generated imageId data)
  | .client => none

/-- The row of `tool_calls`. -/
def row (t : Turn) (b : BlockRun) : ToolCall :=
  ⟨b.id, t.sessionId, t.messageStepId, b.use.name, b.use.id, b.args,
    (b.execution.map (·.status)).getD .pending, b.execution.map (·.payload)⟩

/-- The payload of the tool step. -/
def answer (b : BlockRun) (execution : ToolExecution) : Payload :=
  .tool b.id b.use.id b.use.name execution.result execution.errorBody

def answers (b : BlockRun) : List Payload := (b.execution.map b.answer).toList

/-- The tool step. -/
def steps (t : Turn) (b : BlockRun) : List ChatStep :=
  match b.exec with
  | .server stepId execution _ =>
    [⟨stepId, t.sessionId, t.messageStepId, b.answer execution, none⟩]
  | .image imageId stepId data _ =>
    [⟨stepId, t.sessionId, t.messageStepId, b.answer (generated imageId data), none⟩]
  | .client => []

/-- The row of `generated_images`. -/
def image (t : Turn) (b : BlockRun) : List GeneratedImage :=
  match b.exec with
  | .image imageId _ data _ =>
    [⟨imageId, t.userId, fkSessionId t.temporary t.sessionId, t.messageStepId, b.id,
      data.mediaType, data.size, promptOf b.args, t.temporary⟩]
  | _ => []

/-- The writes that an image is paid with. -/
def charge (b : BlockRun) : List WalletOp :=
  match b.exec with
  | .image _ _ _ wallet => wallet
  | _ => []

/-- The writes of a site handler. -/
def writes (b : BlockRun) : List SiteWrite :=
  match b.exec with
  | .server _ _ writes => writes
  | _ => []

/-! What the block adds to the response. -/

def serverTools (b : BlockRun) : List ServerToolExecutionOut :=
  (b.execution.map (serverTool b.id b.use.name)).toList

def quizzes (b : BlockRun) : List Json :=
  match b.execution with
  | some execution => quizOf b.use.name execution
  | none => []

def imageOuts (b : BlockRun) : List GeneratedImageOut :=
  match b.exec with
  | .image imageId _ data _ => [⟨imageId, data.mediaType, data.size⟩]
  | _ => []

def clientOuts (b : BlockRun) : List ToolCallOut :=
  match b.exec with
  | .client => [⟨b.id, b.use.name, b.args⟩]
  | _ => []

end BlockRun

/-- An audit row of a turn, as a write. -/
def Turn.auditOp (t : Turn) (event : EventType) (payload : List (String × Json)) : WalletOp :=
  .insertAudit (AuditEvent.redacted
    ⟨t.userId, fkSessionId t.temporary t.sessionId, event, .obj payload⟩)

namespace BlockRun

/-- The audit of the result. -/
def completedAudit (t : Turn) (b : BlockRun) : List WalletOp :=
  match b.exec with
  | .server _ execution _ => [t.auditOp .toolCallCompleted
      [("toolCallId", .num b.id), ("toolName", .str b.use.name.str),
        ("status", .str execution.status.str)]]
  | .image imageId _ data _ => [t.auditOp .toolCallCompleted
      [("toolCallId", .num b.id), ("toolName", .str b.use.name.str),
        ("status", .str (generated imageId data).status.str), ("imageId", .num imageId)]]
  | .client => []

/-- The rows that a block adds; those of the chat only where the turn is stored. -/
def delta (t : Turn) (b : BlockRun) : Delta where
  steps := if t.temporary then [] else b.steps t
  toolCalls := if t.temporary then [] else [b.row t]
  images := b.image t
  wallet := [t.auditOp .toolCallInitiated
      [("toolCallId", .num b.id), ("toolName", .str b.use.name.str)]] ++ b.charge ++
    b.completedAudit t
  site := b.writes

end BlockRun

/-! ## The blocks of a response -/

/-- The image that was generated for a block before anything was written. -/
def Pregen.get (pregen : Pregen) (u : ToolUse) : Option (Except ImageError ImageData) :=
  (pregen.find? (·.1 = u.id)).map Prod.snd

/-- A block that is executed to its end on the tables `d`, with the counter going from `g` to
`g'`. -/
structure BlockRun.Ok (cfg : Config) (t : Turn) (pregen : Pregen) (g : ℕ) (d : ChatDb)
    (u : ToolUse) (b : BlockRun) (g' : ℕ) : Prop where
  use : b.use = u
  id : b.id = g
  args : validatedArgs cfg u = .ok b.args
  project : u.name.serverSide → t.hasProject
  exec : match b.exec with
    | .server stepId execution writes =>
      u.name.clientSide = false ∧ stepId = g + 1 ∧ g' = (if t.temporary then g + 1 else g + 2) ∧
        (u.name.serverSide = false → writes = []) ∧
        (u.name = .imageGenerate → ∃ e, pregen.get u = some (.error e) ∧ execution = degraded e)
    | .image imageId stepId data wallet =>
      u.name = .imageGenerate ∧ pregen.get u = some (.ok data) ∧ imageId = g + 2 ∧ stepId = g + 3 ∧
        g' = (if t.temporary then g + 3 else g + 4) ∧ 0 < cfg.imageCreditsCost ∧
        cfg.imageCreditsCost ≤ d.accounts.balance t.userId ∧
        wallet = chargeOps d.accounts (g + 1) t.userId cfg.imageCreditsCost (.uuid g)
          (.obj [("kind", .str "image"), ("contentType", .str data.mediaType)])
          (fkSessionId t.temporary t.sessionId)
    | .client => u.name.clientSide = true ∧ t.temporary = false ∧ g' = g + 1

/-- The blocks `bs` come of the tool uses, one after the other. -/
inductive Blocks (cfg : Config) (t : Turn) (pregen : Pregen) :
    ℕ → ChatDb → List ToolUse → List BlockRun → ℕ → ChatDb → Prop
  | nil (g : ℕ) (d : ChatDb) : Blocks cfg t pregen g d [] [] g d
  | cons {g g₁ g' : ℕ} {d d' : ChatDb} {u : ToolUse} {us : List ToolUse} {b : BlockRun}
      {bs : List BlockRun} (h : b.Ok cfg t pregen g d u g₁)
      (hs : Blocks cfg t pregen g₁ (d.extend (b.delta t)) us bs g' d') :
      Blocks cfg t pregen g d (u :: us) (b :: bs) g' d'

/-- The blocks go well up to an image that the balance does not pay for. -/
inductive Poor (cfg : Config) (t : Turn) (pregen : Pregen) : ℕ → ChatDb → List ToolUse → Prop
  | here {g : ℕ} {d : ChatDb} {u : ToolUse} {us : List ToolUse} {data : ImageData}
      (hn : u.name = .imageGenerate) (hg : pregen.get u = some (.ok data))
      (hc : 0 < cfg.imageCreditsCost)
      (hb : d.accounts.balance t.userId < cfg.imageCreditsCost) : Poor cfg t pregen g d (u :: us)
  | later {g g₁ : ℕ} {d : ChatDb} {u : ToolUse} {us : List ToolUse} {b : BlockRun}
      (h : b.Ok cfg t pregen g d u g₁) (hs : Poor cfg t pregen g₁ (d.extend (b.delta t)) us) :
      Poor cfg t pregen g d (u :: us)

/-- What blocks add to the accumulators. -/
def Acc.add (acc : Acc) (bs : List BlockRun) : Acc :=
  ⟨acc.serverTools ++ bs.flatMap (·.serverTools), acc.quizzes ++ bs.flatMap (·.quizzes),
    acc.images ++ bs.flatMap (·.imageOuts)⟩

/-- The steps of executed blocks in the memory of a temporary turn. -/
def memSteps (t : Turn) (bs : List BlockRun) : List MemStep :=
  (bs.flatMap (·.answers)).map fun p => ⟨t.messageStepId, p, none⟩

theorem BlockRun.Ok.lt {cfg : Config} {t : Turn} {pregen : Pregen} {g g' : ℕ} {d : ChatDb}
    {u : ToolUse} {b : BlockRun} (h : b.Ok cfg t pregen g d u g') : g < g' := by
  have he := h.exec
  split at he
  · obtain ⟨-, -, rfl, -⟩ := he
    split <;> omega
  · obtain ⟨-, -, -, -, rfl, -⟩ := he
    split <;> omega
  · obtain ⟨-, -, rfl⟩ := he
    omega

/-- The rows of a block have new ids. -/
theorem BlockRun.Ok.fresh {cfg : Config} {t : Turn} {pregen : Pregen} {g g' : ℕ} {d : ChatDb}
    {u : ToolUse} {b : BlockRun} (h : b.Ok cfg t pregen g d u g') (ht : t.messageStepId < g) :
    (b.delta t).Fresh g g' := by
  obtain ⟨use, args, id, exec⟩ := b
  obtain ⟨rfl, rfl, hargs, hproj, he⟩ := h
  refine ⟨?_, ?_, ?_, ?_, ?_, ?_, ?_⟩
  all_goals
    cases exec <;> cases htemp : t.temporary <;>
      simp_all [BlockRun.delta, BlockRun.steps, BlockRun.row, BlockRun.image, BlockRun.charge,
        BlockRun.completedAudit, Turn.auditOp, rows, rows_append] <;> omega

/-- The rows of some blocks. -/
def deltas (t : Turn) (bs : List BlockRun) : Delta :=
  bs.foldr (fun b Δ => b.delta t ++ Δ) ∅

@[simp] theorem deltas_nil (t : Turn) : deltas t [] = ∅ := rfl

theorem deltas_cons (t : Turn) (b : BlockRun) (bs : List BlockRun) :
    deltas t (b :: bs) = b.delta t ++ deltas t bs := rfl

theorem Blocks.le {cfg : Config} {t : Turn} {pregen : Pregen} {g g' : ℕ} {d d' : ChatDb}
    {us : List ToolUse} {bs : List BlockRun} (h : Blocks cfg t pregen g d us bs g' d') : g ≤ g' := by
  induction h with
  | nil => exact le_rfl
  | cons h _ ih => exact h.lt.le.trans ih

theorem Blocks.fresh {cfg : Config} {t : Turn} {pregen : Pregen} {g g' : ℕ} {d d' : ChatDb}
    {us : List ToolUse} {bs : List BlockRun} (h : Blocks cfg t pregen g d us bs g' d')
    (ht : t.messageStepId < g) (hf : d.Fresh g) : d'.Fresh g' := by
  induction h with
  | nil => exact hf
  | cons h _ ih => exact ih (ht.trans h.lt) (hf.extend (h.fresh ht))

/-- The blocks add their rows. -/
theorem Blocks.eq {cfg : Config} {t : Turn} {pregen : Pregen} {g g' : ℕ} {d d' : ChatDb}
    {us : List ToolUse} {bs : List BlockRun} (h : Blocks cfg t pregen g d us bs g' d') :
    d' = d.extend (deltas t bs) := by
  induction h with
  | nil => exact (ChatDb.extend_empty _).symm
  | cons h _ ih => rw [ih, ChatDb.extend_extend, deltas_cons]

/-! ## A round -/

/-- A response with tool uses, and its blocks. -/
structure Round where
  result : LLMResult
  stepId : ℕ
  pregen : Pregen
  blocks : List BlockRun

namespace Round

/-- The calls that a round leaves to the client. -/
def clientOuts (r : Round) : List ToolCallOut := r.blocks.flatMap (·.clientOuts)

/-- The rows that a round adds. -/
def delta (t : Turn) (r : Round) : Delta :=
  t.stepDelta r.stepId (.assistant r.result.contentBlocks) (some r.result.usage) ++
    deltas t r.blocks

/-- The payloads that a round adds to the history. -/
def payloads (r : Round) : List Payload :=
  .assistant r.result.contentBlocks :: r.blocks.flatMap (·.answers)

/-- The steps that a round adds to the memory of a temporary turn. -/
def memSteps (t : Turn) (r : Round) : List MemStep :=
  ⟨t.messageStepId, .assistant r.result.contentBlocks, some r.result.usage⟩ ::
    Chat.memSteps t r.blocks

/-- A round that is possible on the tables `d`. -/
structure Ok (cfg : Config) (t : Turn) (g : ℕ) (d : ChatDb) (r : Round) (g' : ℕ) (d' : ChatDb) :
    Prop where
  reason : r.result.stopReason = .toolUse
  uses : r.result.toolUses ≠ []
  step : r.stepId = g
  blocks : Blocks cfg t r.pregen (t.next g)
    (d.extend (t.stepDelta g (.assistant r.result.contentBlocks) (some r.result.usage)))
    r.result.toolUses r.blocks g' d'

end Round

/-! ## The generation -/

/-- The tables after writes of the wallet. -/
def ChatDb.pay (d : ChatDb) (ops : List WalletOp) : ChatDb :=
  { d with accounts := applyAll ops d.accounts }

/-- What the model is shown of a session: the stored steps, or those in memory. -/
def history (temporary : Bool) (sessionId : ℕ) (d : ChatDb) (m : ChatMem) : List Payload :=
  if temporary then m.steps.map (·.payload) else (d.listSteps sessionId).map (·.payload)

/-- The call that a generation makes after the rounds `rs`. -/
def Turn.call (cfg : Config) (t : Turn) (provider : Provider) (att : Option PreparedAttachments)
    (rs : List Round) (d : ChatDb) (m : ChatMem) : LLMRequest :=
  t.request cfg provider (messagesOf (history t.temporary t.sessionId d m)) (if rs = [] then att else none)

/-- The memory after a call to the provider. -/
def ChatMem.called (m : ChatMem) (req : LLMRequest) : ChatMem :=
  { m with calls := m.calls ++ [req] }

/-- The committed states that a generation passes which began at `g₀`, `d₀`, `m₀`, with the rounds
that have led to them. -/
inductive Generated (llm : LLMAnswer → Prop) (cfg : Config) (t : Turn) (provider : Provider)
    (att : Option PreparedAttachments) (g₀ : ℕ) (d₀ : ChatDb) (m₀ : ChatMem) :
    List Round → ℕ → ChatDb → ChatMem → Prop
  | start : Generated llm cfg t provider att g₀ d₀ m₀ [] g₀ d₀ m₀
  | round {rs : List Round} {g g' : ℕ} {d d' : ChatDb} {m m' : ChatMem} {r : Round}
      (h : Generated llm cfg t provider att g₀ d₀ m₀ rs g d m) (hr : r.Ok cfg t g d g' d')
      (hc : r.clientOuts = []) (hl : llm (.result r.result))
      (hm : MemGrows t.temporary (m.called (t.call cfg provider att rs d m)) (r.memSteps t) m') :
      Generated llm cfg t provider att g₀ d₀ m₀ (rs ++ [r]) g' d' m'

/-- The rounds' blocks. -/
def roundBlocks (rs : List Round) : List BlockRun := rs.flatMap (·.blocks)

/-- What the rounds have executed. -/
def accOf (rs : List Round) : Acc := (⟨[], [], []⟩ : Acc).add (roundBlocks rs)

/-- The tables with the assistant step that ends a turn. -/
def Turn.ended (t : Turn) (g : ℕ) (result : LLMResult) (reason : List (String × Json))
    (d : ChatDb) : ChatDb :=
  (d.extend (t.stepDelta g (.assistant result.contentBlocks) (some result.usage))).pay
    [t.auditOp .chatStep (chatStepPayload t result.usage reason)]

/-- The metadata of the debit of a message. -/
def debitMeta (usage : Usage) : Json :=
  .obj [("usage", usage.toDict), ("model", .str usage.model)]

/-- The billing of a final message: a debit, one that was made before, the trial, or nothing. -/
inductive Bills (t : Turn) (usage : Usage) (g : ℕ) (d : ChatDb) : ℕ → ChatDb → Prop
  | charged (h : t.billing.debitCredits = true)
      (hk : ∀ r ∈ d.accounts.ledger, r.key ≠ (t.userId, .uuid t.messageStepId))
      (hb : 1 ≤ d.accounts.balance t.userId) :
      Bills t usage g d (g + 1) (d.pay (chargeOps d.accounts g t.userId 1 (.uuid t.messageStepId)
        (debitMeta usage) (fkSessionId t.temporary t.sessionId)))
  | replayed {r : LedgerTransaction} (h : t.billing.debitCredits = true)
      (hr : r ∈ d.accounts.ledger) (hk : r.key = (t.userId, .uuid t.messageStepId))
      (ht : r.type = .debit) (ha : r.amount = 1) :
      Bills t usage g d g (d.pay (provision d.accounts t.userId))
  | trial (h : t.billing.debitCredits = false) (hm : t.billing.markTrial = true) :
      Bills t usage g d g { d with trialUsed := Function.update d.trialUsed t.userId true }
  | free (h : t.billing.debitCredits = false) (hm : t.billing.markTrial = false) :
      Bills t usage g d g d

/-- A response that is a final message. -/
def LLMResult.Final (result : LLMResult) : Prop :=
  result.stopReason = .endTurn ∨ result.stopReason = .toolUse ∧ result.toolUses = []

/-- The ends of a generation that answer: in the committed state `g`, `d`, with what the rounds
before have executed, the provider's answer, with the images generated for it, leads to a response
and to the state `g'`, `d'`. -/
inductive Ends (cfg : Config) (t : Turn) (acc : Acc) (g : ℕ) (d : ChatDb) :
    LLMAnswer → Pregen → ChatRunOut → ℕ → ChatDb → Prop
  | final {result : LLMResult} {g' : ℕ} {d' : ChatDb} (h : result.Final)
      (hb : Bills t result.usage (t.next g) (t.ended g result [] d) g' d') :
      Ends cfg t acc g d (.result result) []
        (t.out .assistantMessage (some result.text) [] none result.usage (t.stepId g) acc) g' d'
  | unpaid {result : LLMResult} {g' : ℕ} (h : result.Final)
      (hd : t.billing.debitCredits = true)
      (hk : ∀ r ∈ d.accounts.ledger, r.key ≠ (t.userId, .uuid t.messageStepId))
      (hb : d.accounts.balance t.userId < 1) (hg : g ≤ g') :
      Ends cfg t acc g d (.result result) [] (blocked t.sessionId (some .creditsEmpty)) g' d
  | maxTokens {result : LLMResult} (h : result.stopReason = .maxTokens) :
      Ends cfg t acc g d (.result result) []
        (t.out .blocked (orNone result.text) [] (some .maxTokens) result.usage (t.stepId g) acc)
        (t.next g) (t.ended g result [("blockReason", .str BlockReason.maxTokens.str)] d)
  | client {r : Round} {g' : ℕ} {d' : ChatDb} (hr : r.Ok cfg t g d g' d') (hc : r.clientOuts ≠ []) :
      Ends cfg t acc g d (.result r.result) r.pregen
        (t.out .toolCall (orNone r.result.text) r.clientOuts none r.result.usage (t.stepId g)
          (acc.add r.blocks)) g' d'
  | poor {result : LLMResult} {pregen : Pregen} {g' : ℕ} (h : result.stopReason = .toolUse)
      (hp : Poor cfg t pregen (t.next g) (d.extend (t.stepDelta g
        (.assistant result.contentBlocks) (some result.usage))) result.toolUses) (hg : g ≤ g') :
      Ends cfg t acc g d (.result result) pregen (blocked t.sessionId (some .imageCreditsEmpty)) g' d
  | expired (h : t.mode = .byok) :
      Ends cfg t acc g d .authError [] (blocked t.sessionId (some .byokInvalid)) g
        (if (d.keys t.userId).isSome then (d.expireKey t.userId).pay
          [.insertAudit (AuditEvent.redacted ⟨t.userId, none, .byokChange,
            .obj [("action", .str "runtime_expire"), ("keyStatus", .str "expired")]⟩)] else d)

/-- The tables after the audit of a generation that has used up its rounds. -/
def Turn.exhausted (cfg : Config) (t : Turn) (d : ChatDb) : ChatDb :=
  d.pay [t.auditOp .chatStep [("sessionId", .num t.sessionId),
    ("error", .str "max_server_tool_rounds_exceeded"), ("maxRounds", .num cfg.maxServerToolRounds)]]

/-! ## Identifiers stay fresh -/

section Fresh

variable {llm : LLMAnswer → Prop} {cfg : Config} {t : Turn} {provider : Provider}
variable {att : Option PreparedAttachments} {g₀ : ℕ} {d₀ : ChatDb} {m₀ : ChatMem}

theorem ChatDb.Fresh.pay {g : ℕ} {d : ChatDb} {ops : List WalletOp} (hf : d.Fresh g)
    (hk : ∀ r ∈ rows ops, ∀ id, r.idempotencyKey = .uuid id → id < g) : (d.pay ops).Fresh g := by
  refine ⟨hf.sessions, hf.steps, hf.toolCalls, hf.images, fun r hr => ?_, hf.stepsSorted,
    hf.callsSorted⟩
  simp only [ChatDb.pay, ledger_applyAll] at hr
  rcases List.mem_append.1 hr with hr | hr
  · exact hf.keys r hr
  · exact hk r hr

/-- Audits and wallets have no keys. -/
theorem ChatDb.Fresh.payNone {g : ℕ} {d : ChatDb} {ops : List WalletOp} (hf : d.Fresh g)
    (hk : rows ops = []) : (d.pay ops).Fresh g :=
  hf.pay (by simp [hk])

theorem Round.Ok.le {g g' : ℕ} {d d' : ChatDb} {r : Round} (h : r.Ok cfg t g d g' d') : g ≤ g' :=
  (le_nextStep _ _).trans h.blocks.le

theorem Round.Ok.fresh {g g' : ℕ} {d d' : ChatDb} {r : Round} (h : r.Ok cfg t g d g' d')
    (ht : t.messageStepId < g) (hf : d.Fresh g) : d'.Fresh g' :=
  h.blocks.fresh (ht.trans_le (le_nextStep _ _)) (hf.extend (stepDelta_fresh ht _ _))

/-- A round adds its rows. -/
theorem Round.Ok.eq {g g' : ℕ} {d d' : ChatDb} {r : Round} (h : r.Ok cfg t g d g' d') :
    d' = d.extend (r.delta t) := by
  rw [h.blocks.eq, ChatDb.extend_extend, Round.delta, h.step]

theorem Generated.le {rs : List Round} {g : ℕ} {d : ChatDb} {m : ChatMem}
    (h : Generated llm cfg t provider att g₀ d₀ m₀ rs g d m) : g₀ ≤ g := by
  induction h with
  | start => exact le_rfl
  | round h hr _ _ _ ih => exact ih.trans hr.le

theorem Generated.fresh {rs : List Round} {g : ℕ} {d : ChatDb} {m : ChatMem}
    (h : Generated llm cfg t provider att g₀ d₀ m₀ rs g d m) (ht : t.messageStepId < g₀)
    (hf : d₀.Fresh g₀) : d.Fresh g := by
  induction h with
  | start => exact hf
  | round h hr _ _ _ ih => exact hr.fresh (ht.trans_le h.le) ih

theorem Turn.ended_fresh {g : ℕ} {d : ChatDb} (ht : t.messageStepId < g) (hf : d.Fresh g)
    (result : LLMResult) (reason : List (String × Json)) :
    (t.ended g result reason d).Fresh (t.next g) :=
  (hf.extend (stepDelta_fresh ht _ _)).payNone rfl

theorem Bills.fresh {usage : Usage} {g g' : ℕ} {d d' : ChatDb} (h : Bills t usage g d g' d')
    (ht : t.messageStepId < g) (hf : d.Fresh g) : g ≤ g' ∧ d'.Fresh g' := by
  cases h with
  | charged hd hk hb =>
    refine ⟨Nat.le_succ g, (hf.mono (Nat.le_succ g)).pay fun r hr id hid => ?_⟩
    simp only [rows_chargeOps, List.mem_singleton] at hr
    subst hr
    obtain rfl : t.messageStepId = id := by simpa using hid
    exact Nat.lt_succ_of_lt ht
  | replayed hd hr hk hty ha => exact ⟨le_rfl, hf.payNone (rows_provision ..)⟩
  | trial hd hm => exact ⟨le_rfl, ⟨hf.sessions, hf.steps, hf.toolCalls, hf.images, hf.keys,
      hf.stepsSorted, hf.callsSorted⟩⟩
  | free hd hm => exact ⟨le_rfl, hf⟩

theorem Ends.fresh {acc : Acc} {g g' : ℕ} {d d' : ChatDb} {answer : LLMAnswer} {pregen : Pregen}
    {out : ChatRunOut} (h : Ends cfg t acc g d answer pregen out g' d') (ht : t.messageStepId < g)
    (hf : d.Fresh g) :
    g ≤ g' ∧ d'.Fresh g' := by
  have hle := le_nextStep t.temporary g
  cases h with
  | final h hb =>
    obtain ⟨hle', hf'⟩ := hb.fresh (ht.trans_le hle) (t.ended_fresh ht hf _ _)
    exact ⟨hle.trans hle', hf'⟩
  | unpaid h hd hk hb hg => exact ⟨hg, hf.mono hg⟩
  | maxTokens h => exact ⟨hle, t.ended_fresh ht hf _ _⟩
  | client hr hc => exact ⟨hr.le, hr.fresh ht hf⟩
  | poor h hp hg => exact ⟨hg, hf.mono hg⟩
  | expired h =>
    refine ⟨le_rfl, ?_⟩
    split
    · exact ChatDb.Fresh.payNone ⟨hf.sessions, hf.steps, hf.toolCalls, hf.images, hf.keys,
        hf.stepsSorted, hf.callsSorted⟩ rfl
    · exact hf

end Fresh

/-! ## What the rounds have added -/

theorem Delta.append_assoc (a b c : Delta) : a ++ b ++ c = a ++ (b ++ c) := by
  show Delta.mk _ _ _ _ _ = Delta.mk _ _ _ _ _
  simp

theorem Delta.empty_append (a : Delta) : ∅ ++ a = a := rfl

theorem Delta.append_empty (a : Delta) : a ++ ∅ = a := by
  show Delta.mk _ _ _ _ _ = a
  simp

/-- The rows of some rounds. -/
def roundsDelta (t : Turn) (rs : List Round) : Delta := rs.foldr (fun r Δ => r.delta t ++ Δ) ∅

theorem roundsDelta_append (t : Turn) (rs : List Round) (r : Round) :
    roundsDelta t (rs ++ [r]) = roundsDelta t rs ++ r.delta t := by
  induction rs with
  | nil =>
    show r.delta t ++ ∅ = ∅ ++ r.delta t
    rw [Delta.append_empty, Delta.empty_append]
  | cons r' rs ih =>
    show r'.delta t ++ roundsDelta t (rs ++ [r]) = r'.delta t ++ roundsDelta t rs ++ r.delta t
    rw [ih, Delta.append_assoc]

/-- A block that has been executed to its end, with an identifier taken from `g₀` on. -/
def BlockRun.Done (cfg : Config) (t : Turn) (g₀ : ℕ) (b : BlockRun) : Prop :=
  ∃ pregen g d u g', g₀ ≤ g ∧ b.Ok cfg t pregen g d u g'

theorem BlockRun.Done.mono {cfg : Config} {t : Turn} {g g₀ : ℕ} {b : BlockRun}
    (h : b.Done cfg t g) (hg : g₀ ≤ g) : b.Done cfg t g₀ := by
  obtain ⟨pregen, g₁, d, u, g', hg₁, hok⟩ := h
  exact ⟨pregen, g₁, d, u, g', hg.trans hg₁, hok⟩

theorem Blocks.done {cfg : Config} {t : Turn} {pregen : Pregen} {g g' : ℕ} {d d' : ChatDb}
    {us : List ToolUse} {bs : List BlockRun} (h : Blocks cfg t pregen g d us bs g' d') :
    ∀ b ∈ bs, b.Done cfg t g := by
  induction h with
  | nil => exact nofun
  | @cons g g₁ g' d d' u us b bs h hs ih =>
    intro b' hb'
    rcases List.mem_cons.1 hb' with rfl | hb'
    · exact ⟨pregen, g, d, u, g₁, le_rfl, h⟩
    · exact (ih b' hb').mono h.lt.le

theorem Round.Ok.done {cfg : Config} {t : Turn} {g g' : ℕ} {d d' : ChatDb} {r : Round}
    (h : r.Ok cfg t g d g' d') : ∀ b ∈ r.blocks, b.Done cfg t g :=
  fun b hb => (h.blocks.done b hb).mono (le_nextStep _ _)

section Generated

variable {llm : LLMAnswer → Prop} {cfg : Config} {t : Turn} {provider : Provider}
variable {att : Option PreparedAttachments} {g₀ g : ℕ} {d₀ d : ChatDb} {m₀ m : ChatMem}
variable {rs : List Round}

theorem Generated.eq (h : Generated llm cfg t provider att g₀ d₀ m₀ rs g d m) :
    d = d₀.extend (roundsDelta t rs) := by
  induction h with
  | start => exact (ChatDb.extend_empty _).symm
  | round h hr _ _ _ ih => rw [hr.eq, ih, ChatDb.extend_extend, roundsDelta_append]

theorem Generated.done (h : Generated llm cfg t provider att g₀ d₀ m₀ rs g d m) :
    ∀ b ∈ roundBlocks rs, b.Done cfg t g₀ := by
  induction h with
  | start => exact nofun
  | @round rs g g' d d' m m' r h hr _ _ _ ih =>
    intro b hb
    have hb : b ∈ roundBlocks rs ∨ b ∈ r.blocks := by simpa [roundBlocks] using hb
    rcases hb with hb | hb
    · exact ih b hb
    · exact (hr.done b hb).mono h.le

end Generated

end ChatBackend.Chat

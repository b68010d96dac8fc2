import ChatBackend.Chat.Store

/-!
# The chat repository

`ChatRepository` and its in-memory variant `EphemeralChatRepository`, which a temporary run puts in
its place, and the services that the orchestrator calls, as programs over the chat store.
-/

namespace ChatBackend.Chat

open Policy Wallet

/-- The settings that the orchestrator reads, with the validators that are code of other
modules. -/
structure Config where
  activeProvider : Provider
  allowedModelsFor : Provider → List String
  byokDefaultModelFor : Provider → String
  deepThinkingModel : String
  maxServerToolRounds : ℕ
  imageCreditsCost : Int
  attachmentMaxCount : ℕ
  workspaceContextMaxChars : ℕ
  imageSweepBatchSize : ℕ
  /-- The checks of one attachment, given the bytes of those before it: its decoded size and text,
  and the bytes so far. -/
  decodeAttachment : ℕ → AttachmentIn → Except String (ℕ × Option String × ℕ)
  validateToolArgs : ToolName → Json → Except String Json
  renderContextBlock : Option Json → Option String

abbrev ChatProg (α : Type) : Type := TxProg ChatStmt ChatStmt.Resp AppError α

/-! ## Statements -/

section Statements

abbrev uuid4 : ChatProg ℕ := TxProg.stmt ChatStmt.uuid4

abbrev getDefaultDialogMode (userId : ℕ) : ChatProg String :=
  TxProg.stmt (ChatStmt.defaultDialogMode userId)

abbrev ownsWorkspace (workspaceId userId : ℕ) : ChatProg Bool :=
  TxProg.stmt (ChatStmt.ownsWorkspace workspaceId userId)

/-- The rows of `get_workspace` and `list_files`: nothing for a workspace that is gone or foreign. -/
abbrev workspaceFiles (workspaceId userId : ℕ) : ChatProg (Option (List WorkspaceFile)) :=
  TxProg.stmt (ChatStmt.workspaceFiles workspaceId userId)

abbrev isExpired (session : ChatSession) : ChatProg Bool :=
  TxProg.stmt (ChatStmt.isExpired session)

abbrev getSession (sessionId userId : ℕ) : ChatProg (Option ChatSession) :=
  TxProg.stmt (ChatStmt.getSession sessionId userId)

abbrev sessionById (sessionId : ℕ) : ChatProg (Option ChatSession) :=
  TxProg.stmt (ChatStmt.sessionById sessionId)

abbrev getToolCall (id : ℕ) : ChatProg (Option ToolCall) := TxProg.stmt (ChatStmt.getToolCall id)

abbrev listToolCallsForStep (sessionId messageStepId : ℕ) : ChatProg (List ToolCall) :=
  TxProg.stmt (ChatStmt.listToolCallsForStep sessionId messageStepId)

abbrev assistantToolStepId (sessionId messageStepId : ℕ) : ChatProg (Option ℕ) :=
  TxProg.stmt (ChatStmt.assistantToolStepId sessionId messageStepId)

abbrev markTrialUsed (userId : ℕ) : ChatProg Bool := TxProg.stmt (ChatStmt.markTrialUsed userId)

abbrev loadPolicyState (userId : ℕ) : ChatProg PolicyState :=
  TxProg.stmt (ChatStmt.loadPolicyState userId)

abbrev getPlaintextKeyWithProvider (userId : ℕ) : ChatProg (Option (String × Option Provider)) :=
  TxProg.stmt (ChatStmt.plaintextKey userId)

abbrev createMessage (request : LLMRequest) : ChatProg LLMAnswer :=
  TxProg.stmt (ChatStmt.createMessage request)

abbrev generateImage (args : Json) : ChatProg (Except ImageError ImageData) :=
  TxProg.stmt (ChatStmt.generateImage args)

/-- `SET NX EX` of the key of the sweep: false when another worker has it, or Redis fails. -/
abbrev sweepLock : ChatProg Bool := TxProg.stmt ChatStmt.sweepLock

/-- The `DELETE` of the sweep; nothing when it fails. -/
abbrev deleteExpiredImages (batch : ℕ) : ChatProg (Option (List ℕ)) :=
  TxProg.stmt (ChatStmt.deleteExpiredImages batch)

abbrev siteExecute (toolName : ToolName) (args : Json) (userId : ℕ) (externalProjectId : String) :
    ChatProg (Except AppError ToolExecution × List SiteWrite) :=
  TxProg.stmt (ChatStmt.siteExecute toolName args userId externalProjectId)

abbrev globalExecute (toolName : ToolName) (args : Json) : ChatProg ToolExecution :=
  TxProg.stmt (ChatStmt.globalExecute toolName args)

abbrev memInit (steps : List MemStep) : ChatProg Unit := TxProg.stmt (ChatStmt.memInit steps)

/-- `audit.record`. -/
abbrev recordAudit (event : AuditEvent) : ChatProg Unit :=
  TxProg.stmt (ChatStmt.wallet (WalletStmt.recordAudit event.redacted))

end Statements

/-! ## The wallet service -/

/-- The exceptions of the wallet service are `AppError`s. -/
def AppError.ofWallet : WalletError → AppError
  | .conflict m => .conflict m
  | .sessionNotFound m => .sessionNotFound m
  | .forbidden m => .forbidden m
  | .insufficientCredits m => .insufficientCredits m

/-- A wallet statement is a statement of the chat store. -/
def walletAct : TxAct WalletStmt → TxAct ChatStmt
  | .stmt s => .stmt (.wallet s)
  | .commit => .commit
  | .rollback => .rollback

def walletAnswer : (e : TxAct WalletStmt) → TxAct.Resp ChatStmt.Resp (walletAct e) →
    TxAct.Resp WalletStmt.Resp e
  | .stmt _, r => r
  | .commit, r => r
  | .rollback, r => r

/-- `wallet.consume`, in the request's transaction. -/
def consume (userId : ℕ) (amount : Int) (idempotencyKey : IdemKey) (metaData : Json)
    (sessionId : Option ℕ) : ChatProg ConsumeResult :=
  (Wallet.consume userId amount idempotencyKey metaData sessionId).embed walletAct walletAnswer
    AppError.ofWallet

/-- `wallet.consume` inside `try .. except InsufficientCreditsError`: false when it was raised. -/
def tryConsume (userId : ℕ) (amount : Int) (idempotencyKey : IdemKey) (metaData : Json)
    (sessionId : Option ℕ) : ChatProg Bool :=
  tryCatch (do
    let _ ← consume userId amount idempotencyKey metaData sessionId
    pure true) fun
    | .insufficientCredits _ => pure false
    | e => throw e

/-- `byok.mark_expired`. -/
def markExpired (userId : ℕ) : ChatProg Unit := do
  let found ← (TxProg.stmt (ChatStmt.expireKey userId) : ChatProg Bool)
  if found then
    recordAudit ⟨userId, none, .byokChange,
      .obj [("action", .str "runtime_expire"), ("keyStatus", .str "expired")]⟩

/-! ## Sessions -/

/-- `SessionContext`. -/
structure SessionContext where
  session : ChatSession
  isNew : Bool

/-- `_will_create_session`; the ephemeral repository resolves no session. -/
def willCreateSession (temporary : Bool) (userId : ℕ) : Option ℕ → ChatProg Bool
  | none => pure true
  | some sid =>
    if temporary then pure true
    else do
      match ← getSession sid userId with
      | none => pure true
      | some existing => isExpired existing

/-- The insertion of a session. -/
def createSession (userId : ℕ) (projectId : Option String) (mode : Mode) (dialogMode : String)
    (model : Option String) (workspaceProjectId : Option ℕ) : ChatProg SessionContext := do
  match ← (TxProg.stmt (ChatStmt.insertSession userId projectId mode dialogMode model
    workspaceProjectId) : ChatProg (Option ChatSession)) with
  | none => throw (.internal "invalid input value for enum dialog_mode")
  | some session => pure ⟨session, true⟩

/-- `get_or_create_session` of the persisting repository. -/
def getOrCreateSession (userId : ℕ) (projectId : Option String) (mode : Mode)
    (sessionId : Option ℕ) (dialogMode : String) (model : Option String)
    (workspaceProjectId : Option ℕ) : ChatProg SessionContext :=
  match sessionId with
  | none => createSession userId projectId mode dialogMode model workspaceProjectId
  | some sid => do
    match ← getSession sid userId with
    | none => createSession userId projectId mode dialogMode model workspaceProjectId
    | some existing => do
      if ← isExpired existing then
        createSession userId projectId mode dialogMode model workspaceProjectId
      else pure ⟨existing, false⟩

/-! ## Steps -/

/-- `add_step`; the id of the new step, none in an ephemeral repository. -/
def addStep (temporary : Bool) (sessionId messageStepId : ℕ) (payload : Payload)
    (usage : Option Usage) : ChatProg (Option ℕ) :=
  if temporary then do
    (TxProg.stmt (ChatStmt.memAddStep ⟨messageStepId, payload, usage⟩) : ChatProg Unit)
    pure none
  else do
    let step ← (TxProg.stmt (ChatStmt.insertStep sessionId messageStepId payload usage) :
      ChatProg ChatStep)
    pure (some step.seq)

/-- `list_steps`: the payloads in order. -/
def listSteps (temporary : Bool) (sessionId : ℕ) : ChatProg (List Payload) :=
  if temporary then do
    let steps ← (TxProg.stmt ChatStmt.memListSteps : ChatProg (List MemStep))
    pure (steps.map (·.payload))
  else do
    let steps ← (TxProg.stmt (ChatStmt.listSteps sessionId) : ChatProg (List ChatStep))
    pure (steps.map (·.payload))

/-- `create_tool_call`. -/
def createToolCall (temporary : Bool) (row : ToolCall) : ChatProg Unit :=
  if temporary then TxProg.stmt (ChatStmt.memCreateToolCall row)
  else TxProg.stmt (ChatStmt.createToolCall row)

/-- `complete_tool_call`: atomic pending to completed or errored. -/
def completeToolCall (temporary : Bool) (id : ℕ) (status : ToolStatus) (result : Json) :
    ChatProg Bool :=
  if temporary then (TxProg.stmt (ChatStmt.memCompleteToolCall id status result) : ChatProg Bool)
  else (TxProg.stmt (ChatStmt.completeToolCall id status result) : ChatProg Bool)

/-- `truncate_from_message_step`: delete the turn's user step and everything after it, with the
tool calls of the turns that it reaches; none when there is no such user step. -/
def truncateFromMessageStep (temporary : Bool) (sessionId messageStepId : ℕ) :
    ChatProg (Option ℕ) :=
  if temporary then pure none
  else do
    match ← (TxProg.stmt (ChatStmt.anchorSeq sessionId messageStepId) : ChatProg (Option ℕ)) with
    | none => pure none
    | some anchor => do
      (TxProg.stmt (ChatStmt.deleteToolCalls sessionId anchor) : ChatProg Unit)
      let deleted ← (TxProg.stmt (ChatStmt.deleteSteps sessionId anchor) : ChatProg ℕ)
      pure (some deleted)

/-- `next_step_after`: the first assistant step of the turn after the result of a tool call. -/
def nextStepAfter (sessionId messageStepId afterToolCall : ℕ) : ChatProg (Option ChatStep) := do
  match ← (TxProg.stmt (ChatStmt.toolStepSeq sessionId messageStepId afterToolCall) :
    ChatProg (Option ℕ)) with
  | some seq =>
    (TxProg.stmt (ChatStmt.firstAssistantAfter sessionId messageStepId seq) :
      ChatProg (Option ChatStep))
  | none =>
    (TxProg.stmt (ChatStmt.lastAssistant sessionId messageStepId) : ChatProg (Option ChatStep))

/-! ## The ephemeral repository -/

/-- `_history_blocks`. -/
def historyBlocks (turn : TemporaryTurn) (provider : Provider) : List Block :=
  if turn.fromUser = false ∧ provider = .openai then [.item "" turn.content]
  else [.text turn.content]

/-- The steps of the transcript, with fresh message step ids. -/
def seedSteps (provider : Provider) : List TemporaryTurn → ChatProg (List MemStep)
  | [] => pure []
  | turn :: turns => do
    let messageStepId ← uuid4
    let steps ← seedSteps provider turns
    let blocks := historyBlocks turn provider
    pure (⟨messageStepId, if turn.fromUser then .user blocks none else .assistant blocks, none⟩ ::
      steps)

/-- `EphemeralChatRepository(seed, provider)`: its synthetic session id. -/
def ephemeralRepository (provider : Provider) (history : List TemporaryTurn) : ChatProg ℕ := do
  let sessionId ← uuid4
  let steps ← seedSteps provider history
  memInit steps
  pure sessionId

end ChatBackend.Chat

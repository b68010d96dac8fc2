import ChatBackend.Chat.Messages

/-!
# The orchestrator

`ChatOrchestrator.run` and `ChatOrchestrator.tool_result`, with the generation loop that they
share. A round of the loop calls the provider and stores what it answered; it ends with a commit,
and so does the call to the provider begin with one. The orchestrator's methods leave an exception
to the session scope of the request, which rolls back.

A turn that has images ends with the sweep of expired ones. Only what a response and the stored rows
depend on is modelled: the system prompt, the tools that are offered, logs and metrics are left out.
-/

namespace ChatBackend.Chat

open Policy

/-- What stays the same during the generation of a turn: the arguments of `_generate_loop`, but for
the attachments. -/
structure Turn where
  userId : ℕ
  sessionId : ℕ
  messageStepId : ℕ
  mode : Mode
  billing : BillingPlan
  apiKey : Option String
  byokProvider : Option Provider
  hasProject : Bool
  model : Option String
  dialogMode : String
  temporary : Bool

/-- What a call has executed so far: `server_tools`, `quiz_acc` and `images_acc`. -/
structure Acc where
  serverTools : List ServerToolExecutionOut
  quizzes : List Json
  images : List GeneratedImageOut

/-- `_fk_session_id`: a temporary session has no row to refer to. -/
def fkSessionId (temporary : Bool) (sessionId : ℕ) : Option ℕ :=
  if temporary then none else some sessionId

/-! ## Responses -/

/-- `_blocked`. -/
def blocked (sessionId : ℕ) (reason : Option BlockReason) : ChatRunOut :=
  { status := .blocked, sessionId := sessionId, assistantMessage := none, toolCalls := [],
    blockReason := some (reason.getD .policyDenied), usage := none, messageStepId := none,
    stepId := none, serverTools := [], quiz := none, images := [] }

/-- A response of a turn with what the call has executed. -/
def Turn.out (t : Turn) (status : RunStatus) (assistantMessage : Option String)
    (toolCalls : List ToolCallOut) (blockReason : Option BlockReason) (usage : Usage)
    (stepId : Option ℕ) (acc : Acc) : ChatRunOut :=
  { status := status, sessionId := t.sessionId, assistantMessage := assistantMessage,
    toolCalls := toolCalls, blockReason := blockReason, usage := some usage,
    messageStepId := some t.messageStepId, stepId := stepId, serverTools := acc.serverTools,
    quiz := acc.quizzes.getLast?, images := acc.images }

/-- The text blocks of a step, joined. -/
def textOf (content : List Block) : String :=
  content.foldl (fun acc b => match b with
    | .text t => acc ++ t
    | _ => acc) ""

/-- `_render_saved_step`. -/
def renderSavedStep (sessionId messageStepId : ℕ) (content : List Block) (usage : Option Usage)
    (stepId : ℕ) : ChatRunOut :=
  { status := .assistantMessage, sessionId := sessionId, assistantMessage := some (textOf content),
    toolCalls := [], blockReason := none, usage := usage, messageStepId := some messageStepId,
    stepId := some stepId, serverTools := [], quiz := none, images := [] }

/-! ## Policy and keys -/

/-- `_evaluate`. -/
def evaluateAccess (userId : ℕ) (mode : Mode) (fkSession : Option ℕ) :
    ChatProg (Decision × PolicyState) := do
  let state ← loadPolicyState userId
  let decision := evaluate state mode
  recordAudit ⟨userId, fkSession, .policyDecision, .obj
    [("mode", .str mode.str), ("decision", .str (if decision.allow then "allow" else "blocked")),
      ("blockReason", .ofOption (decision.blockReason.map fun r => .str r.str))]⟩
  pure (decision, state)

/-- `_resolve_api_key`. -/
def resolveApiKey (userId : ℕ) (mode : Mode) : ChatProg (Option String × Option Provider) :=
  match mode with
  | .credits => pure (none, none)
  | .byok => do
    match ← getPlaintextKeyWithProvider userId with
    | none => throw (.validationFailed "byok key unavailable")
    | some (key, provider) => pure (some key, provider)

/-- `_model_for_provider`. -/
def modelForProvider (cfg : Config) (model : Option String) (provider : Provider) : Option String :=
  model.filter fun m => (cfg.allowedModelsFor provider).contains m

/-- The effective model of a turn whose client is that of `provider`. -/
def Turn.effectiveModel (cfg : Config) (t : Turn) (provider : Provider) : Option String :=
  if t.dialogMode = "deep_thinking" then some cfg.deepThinkingModel
  else
    match t.mode with
    | .credits => modelForProvider cfg t.model provider
    | .byok => some ((modelForProvider cfg t.model provider).getD (cfg.byokDefaultModelFor provider))

/-- The provider of a turn: the active one, or that of the user's key. -/
def Turn.provider (cfg : Config) (t : Turn) : Option Provider :=
  match t.mode with
  | .credits => some cfg.activeProvider
  | .byok => t.byokProvider

/-- The arguments of `create_message`. -/
def Turn.request (cfg : Config) (t : Turn) (provider : Provider) (messages : List NeutralMessage)
    (attachments : Option PreparedAttachments) : LLMRequest :=
  { provider := provider, messages := messages, attachments := attachments, apiKey := t.apiKey,
    model := t.effectiveModel cfg provider, dialogMode := t.dialogMode, hasProject := t.hasProject,
    temporary := t.temporary }

/-! ## Tool use -/

/-- The audit of a turn. -/
def Turn.audit (t : Turn) (event : EventType) (payload : List (String × Json)) : ChatProg Unit :=
  recordAudit ⟨t.userId, fkSessionId t.temporary t.sessionId, event, .obj payload⟩

/-- `add_step` of a turn. -/
def Turn.addStep (t : Turn) (payload : Payload) (usage : Option Usage) : ChatProg (Option ℕ) :=
  Chat.addStep t.temporary t.sessionId t.messageStepId payload usage

/-- `_external_project_id`. -/
def externalProjectId (sessionId : ℕ) : ChatProg String := do
  match ← sessionById sessionId with
  | none => throw (.notFound "session not found")
  | some s =>
    match s.projectId with
    | none => throw (.upstream "site.* resolution attempted for a project-less session")
    | some p => pure p

/-- `await self._external_project_id(session_id) if has_project else None`. -/
def Turn.projectId (t : Turn) : ChatProg (Option String) :=
  if t.hasProject then do
    let projectId ← externalProjectId t.sessionId
    pure (some projectId)
  else pure none

/-- An entry of `server_tools`. -/
def serverTool (toolCallId : ℕ) (toolName : ToolName) (execution : ToolExecution) :
    ServerToolExecutionOut :=
  ⟨toolCallId, toolName, execution.status, execution.summary⟩

/-- The three writes that end a server-side execution, for a site tool, a global one and an image
alike: complete the call, add the tool step, audit. -/
def persistToolOutcome (t : Turn) (toolCallId : ℕ) (toolName : ToolName)
    (providerToolUseId : String) (execution : ToolExecution) (extra : List (String × Json)) :
    ChatProg Unit := do
  let _ ← completeToolCall t.temporary toolCallId execution.status execution.payload
  let _ ← t.addStep (.tool toolCallId providerToolUseId toolName execution.result
    execution.errorBody) none
  t.audit .toolCallCompleted ([("toolCallId", .num toolCallId), ("toolName", .str toolName.str),
    ("status", .str execution.status.str)] ++ extra)

/-- `_execute_server_side_tool`: an exception of a handler has its writes undone by the rollback of
the request. -/
def executeServerSideTool (t : Turn) (toolCallId : ℕ) (toolName : ToolName) (args : Json)
    (providerToolUseId : String) (projectId : String) (acc : Acc) : ChatProg Acc := do
  match (← siteExecute toolName args t.userId projectId).1 with
  | .error e => throw e
  | .ok execution => do
    persistToolOutcome t toolCallId toolName providerToolUseId execution []
    pure { acc with serverTools := acc.serverTools ++ [serverTool toolCallId toolName execution] }

/-- The quiz that an execution adds to `quiz_acc`. -/
def quizOf (toolName : ToolName) : ToolExecution → List Json
  | .ok result => if toolName = .quizGenerate then [result] else []
  | .error .. => []

/-- `_execute_global_server_side_tool`. -/
def executeGlobalServerSideTool (t : Turn) (toolCallId : ℕ) (toolName : ToolName) (args : Json)
    (providerToolUseId : String) (acc : Acc) : ChatProg Acc := do
  let execution ← globalExecute toolName args
  persistToolOutcome t toolCallId toolName providerToolUseId execution []
  pure { acc with
    serverTools := acc.serverTools ++ [serverTool toolCallId toolName execution]
    quizzes := acc.quizzes ++ quizOf toolName execution }

/-- The prompt of validated image arguments. -/
def promptOf (args : Json) : String :=
  match args.get "prompt" with
  | some (.str s) => s
  | _ => ""

/-- `_ImagePregen`, by the provider id of its block; the newest entry of an id comes first. -/
abbrev Pregen : Type := List (String × Except ImageError ImageData)

/-- `_pregenerate_images`. -/
def pregenerateImages (cfg : Config) : List ToolUse → Pregen → ChatProg Pregen
  | [], pregen => pure pregen
  | u :: uses, pregen =>
    if u.name ≠ .imageGenerate then pregenerateImages cfg uses pregen
    else
      match cfg.validateToolArgs .imageGenerate u.input with
      | .error message => throw (.validationFailed message)
      | .ok args => do
        let generated ← generateImage args
        pregenerateImages cfg uses ((u.id, generated) :: pregen)

/-- The tool result of a failed generation: a refusal comes first, as the subclass. -/
def degraded : ImageError → ToolExecution
  | .contentPolicy => .error "content_policy"
      "the image prompt was rejected by the content policy; adjust the prompt and try again"
  | .other _ => .error "image_generation_failed"
      "image generation is temporarily unavailable; try again later"

/-- The tool result of a generated image: its id and metadata, never the bytes. -/
def generated (imageId : ℕ) (data : ImageData) : ToolExecution :=
  .ok (.obj [("imageId", .num imageId), ("contentType", .str data.mediaType),
    ("size", .num data.size)])

/-- `_insert_generated_image`: the id of the row, which a conflict on the tool call leaves as it
was. -/
def insertGeneratedImage (t : Turn) (toolCallId : ℕ) (data : ImageData) (prompt : String) :
    ChatProg ℕ := do
  match ← (TxProg.stmt (ChatStmt.insertImage t.userId (fkSessionId t.temporary t.sessionId)
    t.messageStepId toolCallId data.mediaType data.size prompt t.temporary) :
    ChatProg (Option ℕ)) with
  | some id => pure id
  | none => do
    match ← (TxProg.stmt (ChatStmt.existingImage toolCallId) : ChatProg (Option ℕ)) with
    | some id => pure id
    | none => throw (.internal "assert image_id is not None")

/-- `_execute_image_generate_tool`: a failed generation degrades to a tool result; a generated image
is paid for and stored; without the credits for it the round is rolled back and the turn blocked. -/
def executeImageGenerateTool (cfg : Config) (t : Turn) (toolCallId : ℕ) (args : Json)
    (providerToolUseId : String) (pregen : Except ImageError ImageData) (acc : Acc) :
    ChatProg (ChatRunOut ⊕ Acc) := do
  match pregen with
  | .error e => do
    persistToolOutcome t toolCallId .imageGenerate providerToolUseId (degraded e) []
    pure (.inr { acc with
      serverTools := acc.serverTools ++ [serverTool toolCallId .imageGenerate (degraded e)] })
  | .ok data => do
    let paid ← tryConsume t.userId cfg.imageCreditsCost (.uuid toolCallId)
      (.obj [("kind", .str "image"), ("contentType", .str data.mediaType)])
      (fkSessionId t.temporary t.sessionId)
    if paid then do
      let imageId ← insertGeneratedImage t toolCallId data (promptOf args)
      let execution := generated imageId data
      persistToolOutcome t toolCallId .imageGenerate providerToolUseId execution
        [("imageId", .num imageId)]
      pure (.inr { acc with
        serverTools := acc.serverTools ++ [serverTool toolCallId .imageGenerate execution]
        images := acc.images ++ [⟨imageId, data.mediaType, data.size⟩] })
    else do
      TxProg.rollback
      pure (.inl (blocked t.sessionId (some .imageCreditsEmpty)))

/-- The arguments that are stored and executed: a quiz keeps invalid ones, for its handler to
answer; any other tool fails with them. -/
def validatedArgs (cfg : Config) (u : ToolUse) : Except AppError Json :=
  match cfg.validateToolArgs u.name u.input with
  | .ok args => .ok args
  | .error message =>
    if u.name = .quizGenerate then .ok u.input else .error (.validationFailed message)

/-- The execution of a block whose call has been stored: by the backend now, or by the client
later. -/
def executeBlock (cfg : Config) (t : Turn) (projectId : Option String) (pregen : Pregen)
    (u : ToolUse) (args : Json) (toolCallId : ℕ) (acc : Acc) (clientOuts : List ToolCallOut) :
    ChatProg (ChatRunOut ⊕ Acc × List ToolCallOut) := do
  if u.name = .imageGenerate then
    match pregen.find? (·.1 = u.id) with
    | none => throw (.internal "KeyError")
    | some (_, image) => do
      match ← executeImageGenerateTool cfg t toolCallId args u.id image acc with
      | .inl out => pure (.inl out)
      | .inr acc => pure (.inr (acc, clientOuts))
  else if u.name.globalServerSide then do
    let acc ← executeGlobalServerSideTool t toolCallId u.name args u.id acc
    pure (.inr (acc, clientOuts))
  else if u.name.serverSide then
    match projectId with
    | none => throw (.internal "assert external_project_id is not None")
    | some p => do
      let acc ← executeServerSideTool t toolCallId u.name args u.id p acc
      pure (.inr (acc, clientOuts))
  else if t.temporary then throw (.upstream "client-side tool requested in a temporary chat")
  else pure (.inr (acc, clientOuts ++ [⟨toolCallId, u.name, args⟩]))

/-- One block of the loop of `_handle_tool_use`. -/
def handleBlock (cfg : Config) (t : Turn) (projectId : Option String) (pregen : Pregen)
    (u : ToolUse) (acc : Acc) (clientOuts : List ToolCallOut) :
    ChatProg (ChatRunOut ⊕ Acc × List ToolCallOut) := do
  if u.name.serverSide ∧ t.hasProject = false then
    throw (.upstream "server-side site.* tool requested for a project-less session")
  else
    match validatedArgs cfg u with
    | .error e => throw e
    | .ok args => do
      let toolCallId ← uuid4
      createToolCall t.temporary
        ⟨toolCallId, t.sessionId, t.messageStepId, u.name, u.id, args, .pending, none⟩
      t.audit .toolCallInitiated
        [("toolCallId", .num toolCallId), ("toolName", .str u.name.str)]
      executeBlock cfg t projectId pregen u args toolCallId acc clientOuts

/-- The loop of `_handle_tool_use`: it stops at the first block that blocks the turn. -/
def handleBlocks (cfg : Config) (t : Turn) (projectId : Option String) (pregen : Pregen) :
    List ToolUse → Acc → List ToolCallOut → ChatProg (ChatRunOut ⊕ Acc × List ToolCallOut)
  | [], acc, clientOuts => pure (.inr (acc, clientOuts))
  | u :: uses, acc, clientOuts => do
    match ← handleBlock cfg t projectId pregen u acc clientOuts with
    | .inl out => pure (.inl out)
    | .inr (acc, clientOuts) => handleBlocks cfg t projectId pregen uses acc clientOuts

/-- `_TurnOutcome`. -/
inductive TurnOutcome : Type
  | client (out : ChatRunOut)
  | blocked (out : ChatRunOut)
  | server (acc : Acc)

/-- `_handle_tool_use`. -/
def handleToolUse (cfg : Config) (t : Turn) (result : LLMResult) (acc : Acc) :
    ChatProg TurnOutcome := do
  let pregen ← pregenerateImages cfg result.toolUses []
  let stepId ← t.addStep (.assistant result.contentBlocks) (some result.usage)
  let projectId ← t.projectId
  match ← handleBlocks cfg t projectId pregen result.toolUses acc [] with
  | .inl out => pure (.blocked out)
  | .inr (acc, []) => pure (.server acc)
  | .inr (acc, clientOuts) =>
    pure (.client (t.out .toolCall (orNone result.text) clientOuts none result.usage stepId acc))

/-! ## The ends of a turn -/

/-- `_debit`: one credit, by the message step; false without the credit. -/
def debit (t : Turn) (usage : Usage) : ChatProg Bool :=
  tryConsume t.userId 1 (.uuid t.messageStepId)
    (.obj [("usage", usage.toDict), ("model", .str usage.model)])
    (fkSessionId t.temporary t.sessionId)

/-- The audit payload of an assistant step. -/
def chatStepPayload (t : Turn) (usage : Usage) (reason : List (String × Json)) :
    List (String × Json) :=
  [("sessionId", .num t.sessionId), ("role", .str "assistant")] ++ reason ++
    [("model", .str usage.model), ("usage", usage.toDict)]

/-- The billing of a final message, as the plan has it; false when it cannot be paid. -/
def bill (t : Turn) (usage : Usage) : ChatProg Bool :=
  if t.billing.debitCredits then debit t usage
  else if t.billing.markTrial then do
    let _ ← markTrialUsed t.userId
    pure true
  else pure true

/-- `_finalize_assistant`: the assistant step and its billing are one transaction. -/
def finalizeAssistant (t : Turn) (result : LLMResult) (acc : Acc) : ChatProg ChatRunOut := do
  let stepId ← t.addStep (.assistant result.contentBlocks) (some result.usage)
  let _ ← sessionById t.sessionId
  t.audit .chatStep (chatStepPayload t result.usage [])
  if ← bill t result.usage then do
    TxProg.commit
    pure (t.out .assistantMessage (some result.text) [] none result.usage stepId acc)
  else do
    TxProg.rollback
    pure (blocked t.sessionId (some .creditsEmpty))

/-- `_handle_max_tokens`: the step is kept, nothing is billed. -/
def handleMaxTokens (t : Turn) (result : LLMResult) (acc : Acc) : ChatProg ChatRunOut := do
  let stepId ← t.addStep (.assistant result.contentBlocks) (some result.usage)
  t.audit .chatStep
    (chatStepPayload t result.usage [("blockReason", .str BlockReason.maxTokens.str)])
  TxProg.commit
  pure (t.out .blocked (orNone result.text) [] (some .maxTokens) result.usage stepId acc)

/-- A rejected key: the user's own is marked as expired and the turn blocked. -/
def handleAuthError (t : Turn) : ChatProg ChatRunOut :=
  match t.mode with
  | .credits => throw .providerAuth
  | .byok => do
    markExpired t.userId
    TxProg.commit
    pure (blocked t.sessionId (some .byokInvalid))

/-- `MAX_SERVER_TOOL_ROUNDS` rounds without an end: audited, not billed. -/
def handleExhausted (cfg : Config) (t : Turn) : ChatProg ChatRunOut := do
  t.audit .chatStep [("sessionId", .num t.sessionId),
    ("error", .str "max_server_tool_rounds_exceeded"), ("maxRounds", .num cfg.maxServerToolRounds)]
  TxProg.commit
  throw (.upstream "server-side tool loop exceeded maximum rounds")

/-! ## The loop -/

/-- The loop of `_generate_loop`, with the iterations that are left. The attachments go with the
first call only. -/
def generateRounds (cfg : Config) (t : Turn) (provider : Provider) :
    ℕ → Option PreparedAttachments → Acc → ChatProg ChatRunOut
  | 0, _, _ => handleExhausted cfg t
  | n + 1, attachments, acc => do
    let messages ← buildMessages t.temporary t.sessionId
    TxProg.commit
    match ← createMessage (t.request cfg provider messages attachments) with
    | .error e => throw e
    | .authError => handleAuthError t
    | .result result =>
      match result.stopReason with
      | .maxTokens => handleMaxTokens t result acc
      | .endTurn => finalizeAssistant t result acc
      | .toolUse =>
        if result.toolUses.isEmpty then finalizeAssistant t result acc
        else do
          match ← handleToolUse cfg t result acc with
          | .blocked out => pure out
          | .client out => do
            TxProg.commit
            pure out
          | .server acc => do
            TxProg.commit
            generateRounds cfg t provider n none acc

/-- `_generate_loop`. -/
def generateLoop (cfg : Config) (t : Turn) (attachments : Option PreparedAttachments) :
    ChatProg ChatRunOut :=
  match t.provider cfg with
  | none => do
    TxProg.commit
    pure (blocked t.sessionId (some .byokInvalid))
  | some provider =>
    generateRounds cfg t provider (cfg.maxServerToolRounds + 1) attachments ⟨[], [], []⟩

/-! ## The sweep -/

/-- `maybe_sweep_expired_images`: one batch of expired images is deleted, unless another worker does it
or the database fails. -/
def maybeSweepExpiredImages (cfg : Config) : ChatProg Unit := do
  if ← sweepLock then
    match ← deleteExpiredImages (max cfg.imageSweepBatchSize 1) with
    | some _ => TxProg.commit
    | none => TxProg.rollback
  else pure ()

/-- `_sweep_if_images`. -/
def sweepIfImages (cfg : Config) (out : ChatRunOut) : ChatProg Unit :=
  if out.images = [] then pure () else maybeSweepExpiredImages cfg

/-! ## A turn -/

/-- The turn that is generated for a session when the policy state `state` allows it. -/
def turnOf (userId : ℕ) (session : ChatSession) (messageStepId : ℕ) (temporary : Bool)
    (state : PolicyState) (apiKey : Option String) (byokProvider : Option Provider) : Turn :=
  { userId := userId, sessionId := session.id, messageStepId := messageStepId,
    mode := session.mode, billing := billingPlan session.mode state, apiKey := apiKey,
    byokProvider := byokProvider, hasProject := session.projectId.isSome,
    model := session.model.bind orNone, dialogMode := session.dialogMode, temporary := temporary }

/-- The policy check and the generation that follows it, in `run` and in `tool_result`. `context`
assembles the attachments once the policy allows the turn. -/
def generate (cfg : Config) (userId : ℕ) (session : ChatSession) (messageStepId : ℕ)
    (temporary : Bool) (context : ChatProg (Option PreparedAttachments)) :
    ChatProg ChatRunOut := do
  let (decision, state) ← evaluateAccess userId session.mode (fkSessionId temporary session.id)
  match decision with
  | .blocked reason => pure (blocked session.id (some reason))
  | .allowed => do
    let (apiKey, byokProvider) ← resolveApiKey userId session.mode
    let attachments ← context
    let out ← generateLoop cfg (turnOf userId session messageStepId temporary state apiKey
      byokProvider) attachments
    sweepIfImages cfg out
    pure out

/-- The knowledge files of the session's workspace. -/
def workspaceAttachments (cfg : Config) (userId : ℕ) (session : ChatSession) :
    ChatProg (Option PreparedAttachments) :=
  match session.workspaceProjectId with
  | none => pure none
  | some w => contextForSession cfg w userId cfg.activeProvider

/-! ## run -/

/-- `_PROVIDER_GATED_DIALOG_MODES`. -/
def providerGatedDialogModes : List String := ["deep_thinking", "study_learn", "search"]

/-- The checks of the dialog mode, made when a session is created. -/
def checkDialogMode (cfg : Config) (dialogMode : String) : Except AppError Unit :=
  if dialogMode ∉ dialogModes then
    .error (.unsupportedDialogMode ("dialog mode '" ++ dialogMode ++ "' is not supported"))
  else if dialogMode ∈ providerGatedDialogModes ∧ cfg.activeProvider ≠ .openai then
    .error (.unsupportedDialogMode
      ("dialog mode '" ++ dialogMode ++ "' is not available on this instance"))
  else .ok ()

/-- The check of the model, made when a session is created. -/
def checkModel (cfg : Config) (model : Option String) : Except AppError Unit :=
  match model with
  | none => .ok ()
  | some m =>
    if (cfg.allowedModelsFor cfg.activeProvider).contains m then .ok ()
    else .error (.unsupportedModel ("model '" ++ m ++ "' is not available on this instance"))

def liftExcept {α : Type} : Except AppError α → ChatProg α
  | .ok a => pure a
  | .error e => throw e

/-- The check of the workspace, made when a session is created. -/
def checkWorkspace (userId : ℕ) : Option ℕ → ChatProg Unit
  | none => pure ()
  | some w => do
    if ← ownsWorkspace w userId then pure ()
    else throw (.workspaceNotFound "workspace not found")

/-- `resolved_dialog_mode`. -/
def resolveDialogMode (userId : ℕ) : Option String → ChatProg String
  | some dialogMode => pure dialogMode
  | none => getDefaultDialogMode userId

/-- The beginning of `run`: the checks that come before a session is created, and the session that
is created or resumed. -/
def openSession (cfg : Config) (req : RunRequest) (syntheticId : ℕ) : ChatProg SessionContext := do
  let model := req.model.map strip
  let willCreate ← willCreateSession req.temporary req.userId req.sessionId
  liftExcept (if willCreate then checkModel cfg model else .ok ())
  checkWorkspace req.userId (if willCreate then req.workspaceProjectId else none)
  let dialogMode ← resolveDialogMode req.userId req.dialogMode
  liftExcept (if willCreate then checkDialogMode cfg dialogMode else .ok ())
  let workspace := if willCreate then req.workspaceProjectId else none
  if req.temporary then
    pure ⟨⟨syntheticId, req.userId, req.projectId, req.mode, dialogMode, model, workspace⟩, true⟩
  else
    getOrCreateSession req.userId req.projectId req.mode req.sessionId dialogMode model workspace

/-- The edit branch of `run`: only a turn of a resumed session can be edited. -/
def truncateForEdit (temporary : Bool) (ctx : SessionContext) (editMessageStepId : Option ℕ) :
    ChatProg Unit :=
  match editMessageStepId with
  | none => pure ()
  | some msid =>
    if ctx.isNew then throw (.messageNotFound "message_not_found")
    else do
      match ← truncateFromMessageStep temporary ctx.session.id msid with
      | none => throw (.messageNotFound "message_not_found")
      | some _ => pure ()

/-- The repository of a run: the id of the synthetic session of a temporary chat. -/
def openRepository (cfg : Config) (req : RunRequest) : ChatProg ℕ :=
  if req.temporary then ephemeralRepository cfg.activeProvider req.history else pure 0

/-- `run`. -/
def run (cfg : Config) (req : RunRequest) : ChatProg ChatRunOut := do
  let messageStepId ← uuid4
  let syntheticId ← openRepository cfg req
  let ctx ← openSession cfg req syntheticId
  truncateForEdit req.temporary ctx req.editMessageStepId
  let workspace ← workspaceAttachments cfg req.userId ctx.session
  let prepared ← liftExcept (prepareOptional cfg req.attachments cfg.activeProvider)
  let text := composeTurn0Text (cfg.renderContextBlock req.context) req.message
  let _ ← addStep req.temporary ctx.session.id messageStepId
    (userPayload text prepared (resolveActionPrompt req.actionPrompt)) none
  generate cfg req.userId ctx.session messageStepId req.temporary
    (pure (mergeAttachments prepared workspace))

/-! ## tool_result -/

/-- The items of a batch with their tool calls: they have to be calls of one turn of the
session. -/
def resolveItems (sessionId : ℕ) : List ToolResultIn → Option ℕ → List (ToolResultIn × ToolCall) →
    ChatProg (List (ToolResultIn × ToolCall))
  | [], _, resolved => pure resolved
  | item :: items, messageStepId, resolved => do
    match ← getToolCall item.toolCallId with
    | none => throw (.notFound "tool call not found for session")
    | some c =>
      if c.sessionId ≠ sessionId then throw (.notFound "tool call not found for session")
      else if messageStepId.any (· ≠ c.messageStepId) then
        throw (.validationFailed "all results must belong to the same turn")
      else resolveItems sessionId items (some c.messageStepId) (resolved ++ [(item, c)])

/-- The audit of a mutating tool. -/
def auditMutation (userId sessionId : ℕ) (toolName : ToolName) (payload : List (String × Json)) :
    ChatProg Unit :=
  if toolName.mutating then recordAudit ⟨userId, some sessionId, .toolMutation, .obj payload⟩
  else pure ()

/-- `_apply_tool_result`: nothing is stored for a call that is done already. -/
def applyToolResult (userId sessionId messageStepId : ℕ) (c : ToolCall) (outcome : ToolOutcome) :
    ChatProg Unit := do
  if ← completeToolCall false c.id outcome.status outcome.body then do
    let _ ← addStep false sessionId messageStepId (.tool c.id c.providerToolUseId c.toolName
      outcome.resultBody outcome.errorBody) none
    let payload : List (String × Json) := [("toolCallId", .num c.id),
      ("toolName", .str c.toolName.str), ("status", .str outcome.status.str)]
    auditMutation userId sessionId c.toolName payload
    recordAudit ⟨userId, some sessionId, .toolCallCompleted, .obj payload⟩
  else pure ()

/-- The loop that applies the results. Its rows are those that `resolveItems` has read. -/
def applyResults (userId sessionId messageStepId : ℕ) :
    List (ToolResultIn × ToolCall) → ChatProg Unit
  | [] => pure ()
  | (item, c) :: resolved =>
    if c.status.done then applyResults userId sessionId messageStepId resolved
    else do
      applyToolResult userId sessionId messageStepId c item.outcome
      applyResults userId sessionId messageStepId resolved

/-- The status of a row that was read before, after `populate_existing`. -/
def refreshed (turnCalls : List ToolCall) (c : ToolCall) : ToolCall :=
  (turnCalls.find? (·.id = c.id)).getD c

/-- `_all_already_done_before`: it looks at the rows as they are refreshed by then. -/
def allAlreadyDoneBefore (turnCalls : List ToolCall) (resolved : List (ToolResultIn × ToolCall)) :
    Bool :=
  resolved.all fun p => (refreshed turnCalls p.2).status.done

/-- The response while results are awaited. -/
def awaiting (sessionId messageStepId : ℕ) (pending : List ToolCall) (stepId : Option ℕ) :
    ChatRunOut :=
  { status := .toolCall, sessionId := sessionId, assistantMessage := none,
    toolCalls := pending.map fun c => ⟨c.id, c.toolName, c.args⟩, blockReason := none,
    usage := none, messageStepId := some messageStepId, stepId := stepId, serverTools := [],
    quiz := none, images := [] }

/-- `continuation_attachments`. -/
def continuationAttachments (cfg : Config) (userId : ℕ) (session : ChatSession) :
    ChatProg (Option PreparedAttachments) := do
  let workspace ← workspaceAttachments cfg userId session
  pure (mergeAttachments none workspace)

/-- The continuation of a turn whose barrier is closed: the step that was saved for it, or a new
generation. -/
def continueTurn (cfg : Config) (userId : ℕ) (session : ChatSession) (messageStepId anchorId : ℕ)
    (turnCalls : List ToolCall) (resolved : List (ToolResultIn × ToolCall)) :
    ChatProg ChatRunOut := do
  match ← nextStepAfter session.id messageStepId anchorId with
  | some ⟨seq, _, _, .assistant content, usage⟩ =>
    if allAlreadyDoneBefore turnCalls resolved then
      pure (renderSavedStep session.id messageStepId content usage seq)
    else
      generate cfg userId session messageStepId false (continuationAttachments cfg userId session)
  | _ => generate cfg userId session messageStepId false (continuationAttachments cfg userId session)

/-- The calls of a turn that the client has still to answer. -/
def pendingCalls (turnCalls : List ToolCall) : List ToolCall :=
  turnCalls.filter fun c => c.toolName.clientSide && !c.status.done

/-- `tool_result`. -/
def toolResult (cfg : Config) (userId sessionId : ℕ) (results : List ToolResultIn) :
    ChatProg ChatRunOut := do
  match ← getSession sessionId userId with
  | none => throw (.notFound "session not found")
  | some session => do
    match ← resolveItems sessionId results none [] with
    | [] => throw (.validationFailed "results must be non-empty")
    | (item, first) :: resolved => do
      applyResults userId sessionId first.messageStepId ((item, first) :: resolved)
      let turnCalls ← listToolCallsForStep sessionId first.messageStepId
      if pendingCalls turnCalls = [] then
        continueTurn cfg userId session first.messageStepId first.id turnCalls
          ((item, first) :: resolved)
      else do
        TxProg.commit
        let stepId ← assistantToolStepId sessionId first.messageStepId
        pure (awaiting sessionId first.messageStepId (pendingCalls turnCalls) stepId)

/-! ## Requests -/

/-- A request of a client. -/
inductive ChatRequest : Type
  | run (req : RunRequest)
  | toolResult (userId sessionId : ℕ) (results : List ToolResultIn)

/-- The handling of a request, in its session scope. -/
def ChatRequest.prog (cfg : Config) : ChatRequest → ChatProg ChatRunOut
  | .run req => TxProg.sessionScope (Chat.run cfg req)
  | .toolResult userId sessionId results =>
    TxProg.sessionScope (Chat.toolResult cfg userId sessionId results)

end ChatBackend.Chat

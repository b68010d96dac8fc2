import ChatBackend.Model.Data
import Mathlib

/-!
# The data of the chat

Rows of `chat_sessions`, `chat_steps`, `tool_calls` and `generated_images`, the provider-neutral
types of the LLM client, and the requests and responses of the orchestrator.

A row's server-generated identifiers are represented by one number: a step has its `seq`, which
stands for its id as well. The columns and fields that no modelled function reads (titles,
timestamps, the system prompt) are left out.
-/

namespace ChatBackend.Chat

/-! ## Tools -/

/-- A domain tool name; `other` is a client-side tool or an unknown one. -/
inductive ToolName : Type
  | siteWriteFile
  | sitePreview
  | siteList
  | siteRead
  | siteDelete
  | timeNow
  | quizGenerate
  | imageGenerate
  | other (name : String)
  deriving DecidableEq, Repr

namespace ToolName

/-- The dotted name. -/
def str : ToolName → String
  | siteWriteFile => "site.write_file"
  | sitePreview => "site.preview"
  | siteList => "site.list"
  | siteRead => "site.read"
  | siteDelete => "site.delete"
  | timeNow => "time.now"
  | quizGenerate => "quiz.generate"
  | imageGenerate => "image.generate"
  | other name => name

/-- `SERVER_SIDE_TOOLS`: the tools of a site project. -/
def serverSide : ToolName → Bool
  | siteWriteFile | sitePreview | siteList | siteRead | siteDelete => true
  | _ => false

/-- `GLOBAL_SERVER_SIDE_TOOLS`: the server-side tools that need no project. -/
def globalServerSide : ToolName → Bool
  | timeNow | quizGenerate | imageGenerate => true
  | _ => false

/-- `MUTATING_TOOLS`. -/
def mutating : ToolName → Bool
  | siteWriteFile | siteDelete | imageGenerate => true
  | _ => false

/-- The tools that the client executes. -/
def clientSide (t : ToolName) : Bool := !t.serverSide && !t.globalServerSide

end ToolName

/-- `status` of a tool call. -/
inductive ToolStatus : Type
  | pending
  | completed
  | errored
  deriving DecidableEq, Repr

/-- `status in ("completed", "errored")`. -/
def ToolStatus.done : ToolStatus → Bool
  | pending => false
  | _ => true

def ToolStatus.str : ToolStatus → String
  | pending => "pending"
  | completed => "completed"
  | errored => "errored"

/-- `ToolExecution`: the outcome of a server-side tool. -/
inductive ToolExecution : Type
  | ok (result : Json)
  | error (code message : String)

namespace ToolExecution

/-- `to_tool_result_payload()["result"]`. -/
def result : ToolExecution → Option Json
  | ok r => some r
  | error .. => none

/-- `to_tool_result_payload()["error"]`. -/
def errorBody : ToolExecution → Option Json
  | ok _ => none
  | error code message => some (.obj [("code", .str code), ("message", .str message)])

/-- `to_tool_result_payload`. -/
def payload : ToolExecution → Json
  | ok r => .obj [("result", r)]
  | error code message =>
    .obj [("error", .obj [("code", .str code), ("message", .str message)])]

/-- `"errored" if execution.is_error else "completed"`. -/
def status : ToolExecution → ToolStatus
  | ok _ => .completed
  | error .. => .errored

/-- `_SUMMARY_MAX_CHARS`. -/
def summaryMaxChars : ℕ := 120

/-- `_server_tool_summary`. -/
def summary : ToolExecution → String
  | ok _ => "ok"
  | error code _ => if code = "" then "errored" else String.ofList (code.toList.take summaryMaxChars)

end ToolExecution

/-! ## Content -/

/-- A content block or output item of a provider, as stored in a payload or sent. A
`function_call` item is a `toolUse` with its `call_id`; `item` is any other item that the model
returns (reasoning, a web search, a message of the assistant); `media` is an attachment. -/
inductive Block : Type
  | text (text : String)
  | toolUse (id : String) (name : String) (input : Json)
  | item (type : String) (text : String)
  | media (type mediaType filename data : String)

/-- The id of a tool call block. -/
def Block.toolUseId : Block → Option String
  | toolUse id _ _ => some id
  | _ => none

def Block.isMedia : Block → Bool
  | media .. => true
  | _ => false

/-- The provider ids of the tool calls of some blocks, in order. -/
def toolUseIds (content : List Block) : List String := content.filterMap Block.toolUseId

/-- `PreparedAttachments`. -/
structure PreparedAttachments where
  contentBlocks : List Block
  placeholders : List Block

/-- A row of `workspace_files`, with its content in base64. -/
structure WorkspaceFile where
  filename : String
  mediaType : String
  extractedText : Option String
  data : String

/-- Token usage. -/
structure Usage where
  inputTokens : ℕ
  outputTokens : ℕ
  model : String
  cacheReadTokens : ℕ
  cacheWriteTokens : ℕ
  deriving DecidableEq, Repr

def Usage.toDict (u : Usage) : Json :=
  .obj [("inputTokens", .num u.inputTokens), ("outputTokens", .num u.outputTokens),
    ("model", .str u.model), ("cacheReadTokens", .num u.cacheReadTokens),
    ("cacheWriteTokens", .num u.cacheWriteTokens)]

/-! ## Rows -/

/-- `Mode`: the billing mode of a session. -/
inductive Mode : Type
  | credits
  | byok
  deriving DecidableEq, Repr

def Mode.str : Mode → String
  | credits => "credits"
  | byok => "byok"

/-- `DIALOG_MODE`: the values of the type of the column. -/
def dialogModes : List String := ["smart", "deep_thinking", "study_learn", "search"]

/-- A row of `chat_sessions`. -/
structure ChatSession where
  id : ℕ
  userId : ℕ
  projectId : Option String
  mode : Mode
  dialogMode : String
  model : Option String
  workspaceProjectId : Option ℕ
  deriving DecidableEq, Repr

/-- `payload` of a step, with the role that it has. -/
inductive Payload : Type
  | user (content : List Block) (actionPrompt : Option String)
  | assistant (content : List Block)
  | tool (toolCallId : ℕ) (providerToolUseId : String) (toolName : ToolName)
      (result error : Option Json)

namespace Payload

def isUser : Payload → Bool
  | user .. => true
  | _ => false

def isAssistant : Payload → Bool
  | assistant _ => true
  | _ => false

/-- The tool call that a tool step answers. -/
def answers : Payload → Option ℕ
  | tool id _ _ _ _ => some id
  | _ => none

end Payload

/-- A row of `chat_steps`. -/
structure ChatStep where
  seq : ℕ
  sessionId : ℕ
  messageStepId : ℕ
  payload : Payload
  usage : Option Usage

/-- A row of `tool_calls`. -/
structure ToolCall where
  id : ℕ
  sessionId : ℕ
  messageStepId : ℕ
  toolName : ToolName
  providerToolUseId : String
  args : Json
  status : ToolStatus
  result : Option Json

/-- A row of `generated_images`; `expires` says whether it has an expiry. -/
structure GeneratedImage where
  id : ℕ
  userId : ℕ
  sessionId : Option ℕ
  messageStepId : ℕ
  toolCallId : ℕ
  contentType : String
  size : ℕ
  prompt : String
  expires : Bool

/-! ## The LLM client -/

/-- `llm_provider`. -/
inductive Provider : Type
  | anthropic
  | openai
  deriving DecidableEq, Repr

/-- The canonical stop reasons. -/
inductive StopReason : Type
  | toolUse
  | maxTokens
  | endTurn
  deriving DecidableEq, Repr

/-- An element of `LLMResult.tool_uses`. -/
structure ToolUse where
  id : String
  name : ToolName
  input : Json

/-- `LLMResult`. The clients collect `tool_uses` while they walk over the blocks of the response,
so its ids are those of the tool blocks, in order; no provider returns an attachment. -/
structure LLMResult where
  stopReason : StopReason
  contentBlocks : List Block
  usage : Usage
  text : String
  toolUses : List ToolUse
  ids_eq : toolUses.map ToolUse.id = toolUseIds contentBlocks
  no_media : ∀ b ∈ contentBlocks, b.isMedia = false

/-- `NeutralMessage`. -/
inductive NeutralMessage : Type
  | user (contentBlocks : List Block)
  | assistant (contentBlocks : List Block)
  | tool (toolCallId : ℕ) (providerToolUseId : String) (toolName : ToolName)
      (result error : Option Json)

/-- The arguments of `create_message`. -/
structure LLMRequest where
  provider : Provider
  messages : List NeutralMessage
  attachments : Option PreparedAttachments
  apiKey : Option String
  model : Option String
  dialogMode : String
  hasProject : Bool
  temporary : Bool

/-- `ImageGenerationError`, and its subclass for a refusal. -/
inductive ImageError : Type
  | contentPolicy
  | other (class_ : String)

/-- `GeneratedImageData`, with the length of the bytes. -/
structure ImageData where
  mediaType : String
  size : ℕ

/-! ## Requests and responses -/

/-- `TemporaryTurn`: a turn of the transcript that the client of a temporary chat sends. -/
structure TemporaryTurn where
  fromUser : Bool
  content : String

/-- `AttachmentIn`. -/
structure AttachmentIn where
  type : String
  mediaType : String
  filename : Option String
  data : String

/-- The arguments of `run`. -/
structure RunRequest where
  userId : ℕ
  projectId : Option String
  sessionId : Option ℕ
  message : String
  mode : Mode
  dialogMode : Option String
  attachments : List AttachmentIn
  model : Option String
  workspaceProjectId : Option ℕ
  context : Option Json
  actionPrompt : Option String
  editMessageStepId : Option ℕ
  temporary : Bool
  history : List TemporaryTurn

/-- `result` or `error` of an item: the schema lets through exactly one of them. -/
inductive ToolOutcome : Type
  | result (body : Json)
  | error (body : Json)

namespace ToolOutcome

def resultBody : ToolOutcome → Option Json
  | result b => some b
  | error _ => none

def errorBody : ToolOutcome → Option Json
  | result _ => none
  | error b => some b

/-- `result if result is not None else error`. -/
def body : ToolOutcome → Json
  | result b => b
  | error b => b

/-- `"errored" if error is not None else "completed"`. -/
def status : ToolOutcome → ToolStatus
  | result _ => .completed
  | error _ => .errored

end ToolOutcome

/-- `ToolResultIn`. -/
structure ToolResultIn where
  toolCallId : ℕ
  outcome : ToolOutcome

/-- `ToolCallOut`. -/
structure ToolCallOut where
  id : ℕ
  name : ToolName
  args : Json

/-- `ServerToolExecutionOut`. -/
structure ServerToolExecutionOut where
  toolCallId : ℕ
  toolName : ToolName
  status : ToolStatus
  summary : String
  deriving DecidableEq

/-- `GeneratedImageOut`. -/
structure GeneratedImageOut where
  imageId : ℕ
  contentType : String
  size : ℕ
  deriving DecidableEq

/-- `status` of a response. -/
inductive RunStatus : Type
  | assistantMessage
  | toolCall
  | blocked
  deriving DecidableEq, Repr

/-- `BlockReason`. -/
inductive BlockReason : Type
  | trialUsed
  | subscriptionRequired
  | subscriptionExpired
  | creditsEmpty
  | byokDisabled
  | byokInvalid
  | policyDenied
  | maxTokens
  | imageCreditsEmpty
  deriving DecidableEq, Repr

def BlockReason.str : BlockReason → String
  | trialUsed => "trial_used"
  | subscriptionRequired => "subscription_required"
  | subscriptionExpired => "subscription_expired"
  | creditsEmpty => "credits_empty"
  | byokDisabled => "byok_disabled"
  | byokInvalid => "byok_invalid"
  | policyDenied => "policy_denied"
  | maxTokens => "max_tokens"
  | imageCreditsEmpty => "image_credits_empty"

/-- `ChatRunOut`; `tool_call` is the first of `toolCalls`. -/
structure ChatRunOut where
  status : RunStatus
  sessionId : ℕ
  assistantMessage : Option String
  toolCalls : List ToolCallOut
  blockReason : Option BlockReason
  usage : Option Usage
  messageStepId : Option ℕ
  stepId : Option ℕ
  serverTools : List ServerToolExecutionOut
  quiz : Option Json
  images : List GeneratedImageOut

/-- The exceptions of the orchestrator: `AppError` and its subclasses, and a provider's rejection of
the service key. -/
inductive AppError : Type
  | unsupportedModel (message : String)
  | unsupportedDialogMode (message : String)
  | workspaceNotFound (message : String)
  | messageNotFound (message : String)
  | notFound (message : String)
  | validationFailed (message : String)
  | upstream (message : String)
  | providerAuth
  | conflict (message : String)
  | sessionNotFound (message : String)
  | forbidden (message : String)
  | insufficientCredits (message : String)
  | internal (message : String)
  deriving DecidableEq, Repr

/-- `status_code`; what is no `AppError` is answered as an internal error. -/
def AppError.statusCode : AppError → ℕ
  | forbidden _ => 403
  | workspaceNotFound _ | messageNotFound _ | notFound _ | sessionNotFound _ => 404
  | conflict _ | insufficientCredits _ => 409
  | unsupportedModel _ | unsupportedDialogMode _ | validationFailed _ => 422
  | upstream _ => 502
  | providerAuth | internal _ => 500

/-- What a provider call ends with. -/
inductive LLMAnswer : Type
  | result (r : LLMResult)
  | authError
  | error (e : AppError)

end ChatBackend.Chat

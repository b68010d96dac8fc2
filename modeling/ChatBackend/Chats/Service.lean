import ChatBackend.Chats.Wire

/-!
# The readers of a chat

The three projections of stored steps that a user sees: the steps view (`_render_step`), the preview
of a chat (`_preview`), and the history (`_normalize_payload`). They work on the stored payloads,
whatever provider has written them.
-/

namespace ChatBackend.Chats

open Chat

/-! ## Text -/

/-- A character more in front: a space ends the word that follows it. -/
def wordStep (c : Char) (s : List Char × List (List Char)) : List Char × List (List Char) :=
  if isSpace c then ([], if s.1 = [] then s.2 else s.1 :: s.2) else (c :: s.1, s.2)

/-- `value.split()`. -/
def words (l : List Char) : List (List Char) :=
  let s := l.foldr wordStep ([], [])
  if s.1 = [] then s.2 else s.1 :: s.2

/-- `_truncate`. -/
def truncate (limit : ℕ) (value : String) : String :=
  String.ofList (([' '].intercalate (words value.toList)).take limit)

/-- `_SUMMARY_MAX_CHARS` and `_PREVIEW_MAX_CHARS`. -/
def summaryMaxChars : ℕ := 120

def previewMaxChars : ℕ := 160

/-- `str(value)`; `repr` is its text for a value that is not a text. -/
def pyStr (repr : Json → String) : Json → String
  | .str s => s
  | j => repr j

/-- `payload.get("content", [])`, where it is a list. -/
def content (payload : Dict) : List Json :=
  match Dict.get payload "content" with
  | some (.arr xs) => xs
  | _ => []

/-- `str(block.get("text", ""))`. -/
def blockText (repr : Json → String) : Json → String
  | .obj kvs => pyStr repr ((Dict.get kvs "text").getD (.str ""))
  | _ => ""

/-- `" ".join(p for p in parts if p)`. -/
def joinParts (parts : List String) : String :=
  String.ofList ([' '].intercalate ((parts.filter (· ≠ "")).map String.toList))

/-- The texts of the text blocks. -/
def contentTexts (repr : Json → String) (payload : Dict) : List String :=
  ((content payload).filter (hasType "text")).map (blockText repr)

/-- `_text_summary`. -/
def textSummary (repr : Json → String) (payload : Dict) : String :=
  truncate summaryMaxChars (joinParts (contentTexts repr payload))

/-- `_text_from_payload`. -/
def textFromPayload (repr : Json → String) (payload : Dict) : String :=
  strip (joinParts (contentTexts repr payload))

/-- What is left of a text after the block of the settings, at the first closing bracket. -/
def afterContextBlock : List Char → Option (List Char)
  | [] => none
  | ']' :: rest => match rest with
    | [] => some []
    | '\n' :: '\n' :: rest => some rest
    | _ => none
  | _ :: rest => afterContextBlock rest

/-- `strip_context_block`: `_CONTEXT_BLOCK_RE` at the start of the text is removed. -/
def stripContextBlock (text : String) : String :=
  let anchor := "[Conversation settings for this message: ".toList
  if anchor.isPrefixOf text.toList then
    match afterContextBlock (text.toList.drop anchor.length) with
    | some rest => String.ofList rest
    | none => text
  else text

/-! ## Steps view -/

/-- `kind` of an entry. -/
inductive StepKind : Type
  | reasoning
  | toolCall
  | toolResult
  | assistantMessage
  deriving DecidableEq, Repr

/-- `StepsViewStep`. -/
structure StepsViewStep where
  kind : StepKind
  toolName : Option String
  summary : String
  deriving DecidableEq, Repr

/-- `by_provider_id.get(id)`: the last row of the id. -/
def byProviderId (rows : List ToolCallRow) (id : String) : Option ToolCallRow :=
  rows.reverse.find? fun r => r.providerToolUseId = id

/-- The entry of a tool call. -/
def toolCallEntry (toolName : Option String) : StepsViewStep :=
  ⟨.toolCall, toolName, match toolName with
    | some name => if name = "" then "вызов инструмента" else "вызов " ++ name
    | none => "вызов инструмента"⟩

/-- The entry of a block `tool_use`. -/
def renderToolUse (repr : Json → String) (rows : List ToolCallRow) : Json → StepsViewStep
  | .obj kvs => toolCallEntry ((byProviderId rows
      (pyStr repr ((Dict.get kvs "id").getD .null))).map (·.toolName))
  | _ => toolCallEntry none

/-- The entries of an assistant step. -/
def renderAssistant (repr : Json → String) (rows : List ToolCallRow) (payload : Dict) :
    List StepsViewStep :=
  let toolUses := (content payload).filter (hasType "tool_use")
  let summary := textSummary repr payload
  (if summary = "" then []
    else [⟨if toolUses = [] then .assistantMessage else .reasoning, none, summary⟩]) ++
    toolUses.map (renderToolUse repr rows)

/-- The entry of a tool step. -/
def renderTool (repr : Json → String) (uuid : String → Option ℕ) (rows : List ToolCallRow)
    (payload : Dict) : StepsViewStep :=
  let named : Option String := match Dict.get payload "toolName" with
    | some (.str name) => some name
    | _ => do
      let id ← Dict.get payload "toolCallId"
      let id ← uuid (pyStr repr id)
      let row ← rows.find? fun r => r.id = id
      pure row.toolName
  ⟨.toolResult, named, match named with
    | some name => if name = "" then "результат инструмента" else "результат " ++ name
    | none => "результат инструмента"⟩

/-- `_render_step`. -/
def renderStep (repr : Json → String) (uuid : String → Option ℕ) (rows : List ToolCallRow)
    (role : String) (payload : Dict) : List StepsViewStep :=
  if role = "assistant" then renderAssistant repr rows payload
  else if role = "tool" then [renderTool repr uuid rows payload]
  else []

/-! ## Preview -/

/-- The text of the step that `_preview` shows. -/
def previewText (repr : Json → String) (role : String) (payload : Dict) : String :=
  let text := textFromPayload repr payload
  if role = "user" ∧ text ≠ "" then stripContextBlock text else text

/-- `_preview` of the step. -/
def preview (repr : Json → String) (role : String) (payload : Dict) : Option String :=
  let text := previewText repr role payload
  if text = "" then none else some (truncate previewMaxChars text)

/-! ## History -/

/-- `_strip_leading_context_block`: the first text block. -/
def stripLeadingContextBlock (repr : Json → String) : List Json → List Json
  | [] => []
  | block :: rest => match block with
    | .obj kvs =>
      if hasType "text" (.obj kvs) then
        .obj (Dict.set kvs "text" (.str (stripContextBlock (blockText repr (.obj kvs))))) :: rest
      else .obj kvs :: stripLeadingContextBlock repr rest
    | block => block :: stripLeadingContextBlock repr rest

/-- The domain id of a provider id, as a text. -/
def domainId (idText : ℕ → String) (rows : List ToolCallRow) (id : String) : Option String :=
  (byProviderId rows id).map fun r => idText r.id

/-- The value of a block under the key, when it is a text for which there is another one. -/
def replaceText (key : String) (f : String → Option String) (block : Dict) : Dict :=
  match Dict.get block key with
  | some (.str s) => match f s with
    | some s' => Dict.set block key (.str s')
    | none => block
  | _ => block

/-- `_normalize_tool_use_block`. -/
def normalizeToolUseBlock (idText : ℕ → String) (rows : List ToolCallRow) (block : Dict) : Dict :=
  replaceText "id" (domainId idText rows) (replaceText "name" toDomainToolName block)

/-- `_normalize_tool_result_block`. -/
def normalizeToolResultBlock (idText : ℕ → String) (rows : List ToolCallRow) (block : Dict) : Dict :=
  replaceText "tool_use_id" (domainId idText rows) block

/-- One block of the content. -/
def normalizeBlockOf (idText : ℕ → String) (rows : List ToolCallRow) : Json → Json
  | .obj kvs =>
    if hasType "tool_use" (.obj kvs) then .obj (normalizeToolUseBlock idText rows kvs)
    else if hasType "tool_result" (.obj kvs) then .obj (normalizeToolResultBlock idText rows kvs)
    else .obj kvs
  | block => block

/-- `_normalize_payload`, on the copy of the payload. -/
def normalizePayload (repr : Json → String) (idText : ℕ → String) (rows : List ToolCallRow)
    (role : String) (payload : Dict) : Dict :=
  let payload := Dict.pop (Dict.pop payload "providerToolUseId") "actionPrompt"
  match Dict.get payload "content" with
  | some (.arr xs) =>
    let xs := if role = "user" then stripLeadingContextBlock repr xs else xs
    Dict.set payload "content" (.arr (xs.map (normalizeBlockOf idText rows)))
  | _ => payload

/-- The payloads of `get_history`. -/
def getHistory (repr : Json → String) (idText : ℕ → String) (rows : List ToolCallRow)
    (steps : List StoredStep) : List Dict :=
  steps.map fun s => normalizePayload repr idText rows s.role s.payload

end ChatBackend.Chats

import ChatBackend.Chats.Wire

/-!
# The clients of the providers

What `create_message` makes of a response: the stop reason, the blocks, the text and the tool calls,
or an error where a tool call cannot be read. `loads` is `json.loads`, without a value where the
text is no JSON.
-/

namespace ChatBackend.Chat

open Chats

theorem exists_of_bind_eq_ok {ε α β : Type} {x : Except ε α} {f : α → Except ε β} {b : β}
    (h : (x >>= f) = .ok b) : ∃ a, x = .ok a ∧ f a = .ok b := by
  cases x with
  | error => cases h
  | ok a => exact ⟨a, rfl, h⟩

/-! ## Tool names -/

/-- The tools with a name on the wire. -/
def wireTools : List ToolName :=
  [.siteWriteFile, .sitePreview, .siteList, .siteRead, .siteDelete, .timeNow, .quizGenerate,
    .imageGenerate]

/-- The tool with a domain name. -/
def ToolName.ofStr (name : String) : ToolName :=
  (wireTools.find? fun t => t.str = name).getD (.other name)

theorem ToolName.str_ofStr (name : String) : (ToolName.ofStr name).str = name := by
  unfold ofStr
  cases h : wireTools.find? fun t => t.str = name with
  | none => rfl
  | some t =>
    have ht := List.find?_some h
    exact of_decide_eq_true ht

/-- The tool of a call, by its name on the wire. -/
def wireTool (name : String) : Except AppError ToolName :=
  match toDomainToolName name with
  | none => .error (.validationFailed ("unknown anthropic tool name: " ++ name))
  | some domainName => .ok (.ofStr domainName)

/-- A response of the Messages API. -/
structure AnthropicMessage where
  stopReason : Option String
  content : List AnthropicBlock
  usage : Usage

namespace AnthropicMessage

/-- A block, as it is stored. -/
def block : AnthropicBlock → Block
  | .text text _ => .text text
  | .toolUse id name input _ => .toolUse id name input
  | .other type _ => .item type ""

/-- `tool_uses`. -/
def toolUses : List AnthropicBlock → Except AppError (List ToolUse)
  | [] => .ok []
  | .toolUse id name input _ :: blocks => do
    let tool ← wireTool name
    let us ← toolUses blocks
    pure (⟨id, tool, input⟩ :: us)
  | .text _ _ :: blocks | .other _ _ :: blocks => toolUses blocks

/-- `text_parts`. -/
def textParts (content : List AnthropicBlock) : List String :=
  content.filterMap fun
    | .text text _ => some text
    | _ => none

/-- `_to_neutral_stop_reason`. -/
def toNeutralStopReason : Option String → StopReason
  | some "tool_use" => .toolUse
  | some "max_tokens" => .maxTokens
  | _ => .endTurn

theorem ids_toolUses {content : List AnthropicBlock} {us : List ToolUse}
    (h : toolUses content = .ok us) : us.map ToolUse.id = toolUseIds (content.map block) := by
  induction content generalizing us with
  | nil =>
    obtain rfl := Except.ok.inj h
    rfl
  | cons b blocks ih =>
    cases b with
    | text | other => exact ih h
    | toolUse id name input annotations =>
      obtain ⟨tool, -, h⟩ := exists_of_bind_eq_ok h
      obtain ⟨us', hus, h⟩ := exists_of_bind_eq_ok h
      obtain rfl := Except.ok.inj h
      exact congrArg (id :: ·) (ih hus)

theorem no_media (content : List AnthropicBlock) :
    ∀ b ∈ content.map block, b.isMedia = false := by
  intro b hb
  obtain ⟨b, -, rfl⟩ := List.mem_map.1 hb
  cases b <;> rfl

/-- `create_message`, once the response is there. -/
def result (message : AnthropicMessage) : Except AppError LLMResult :=
  match h : toolUses message.content with
  | .error e => .error e
  | .ok us => .ok
    { stopReason := toNeutralStopReason message.stopReason,
      contentBlocks := message.content.map block, usage := message.usage,
      text := String.join (textParts message.content), toolUses := us,
      ids_eq := ids_toolUses h, no_media := no_media _ }

theorem result_eq {message : AnthropicMessage} {us : List ToolUse}
    (h : toolUses message.content = .ok us) : ∃ r, message.result = .ok r ∧ r.toolUses = us ∧
      r.stopReason = toNeutralStopReason message.stopReason := by
  unfold result
  split
  · rename_i e he
    rw [h] at he
    cases he
  · rename_i us' hus
    obtain rfl : us = us' := by simpa using h.symm.trans hus
    exact ⟨_, rfl, rfl, rfl⟩

theorem toolUses_of_result {message : AnthropicMessage} {r : LLMResult}
    (h : message.result = .ok r) : toolUses message.content = .ok r.toolUses := by
  cases hus : toolUses message.content with
  | error e =>
    unfold result at h
    split at h
    · cases h
    · rename_i us hus'
      rw [hus] at hus'
      cases hus'
  | ok us =>
    obtain ⟨r', hr', rfl, -⟩ := result_eq hus
    obtain rfl := Except.ok.inj (h.symm.trans hr')
    rfl

/-- The names of the tool calls are known. -/
def Known (content : List AnthropicBlock) : Prop :=
  ∀ b ∈ content, ∀ id name input annotations, b = .toolUse id name input annotations →
    (toDomainToolName name).isSome

end AnthropicMessage

/-! ## OpenAI -/

/-- A response of the Responses API; `incompleteReason` is `incomplete_details.reason`. -/
structure OpenAIResponse where
  status : Option String
  incompleteReason : Option String
  output : List OutputItem
  usage : Usage

namespace OpenAIResponse

/-- The texts of an output item. -/
def itemTexts : OutputItem → List String
  | .message _ content _ => content.filterMap fun
    | .outputText text _ => some text
    | .refusal _ => none
  | _ => []

/-- An output item, as it is stored. -/
def block : OutputItem → Block
  | .message id content status => .item "message" (String.join (itemTexts (.message id content status)))
  | .functionCall callId _ name arguments _ => .toolUse callId name (.str arguments)
  | .other type _ => .item type ""

/-- The arguments of a function call. -/
def parseArgs (loads : String → Option Json) (name arguments : String) : Except AppError Json :=
  if arguments = "" then .ok (.obj [])
  else match loads arguments with
    | none => .error (.validationFailed ("invalid tool_call arguments JSON for " ++ name))
    | some (.obj kvs) => .ok (.obj kvs)
    | some _ => .error (.validationFailed ("tool_call arguments for " ++ name ++ " must be a JSON object"))

/-- `tool_uses`. -/
def toolUses (loads : String → Option Json) : List OutputItem → Except AppError (List ToolUse)
  | [] => .ok []
  | .functionCall callId _ name arguments _ :: items => do
    let tool ← wireTool name
    let args ← parseArgs loads name arguments
    let us ← toolUses loads items
    pure (⟨callId, tool, args⟩ :: us)
  | .message _ _ _ :: items | .other _ _ :: items => toolUses loads items

def isFunctionCall : OutputItem → Bool
  | .functionCall .. => true
  | _ => false

/-- `_to_stop_reason`. -/
def toStopReason (response : OpenAIResponse) (hasFunctionCall : Bool) : StopReason :=
  if hasFunctionCall then .toolUse
  else if response.status = some "incomplete" then
    if response.incompleteReason = some "max_output_tokens" then .maxTokens else .endTurn
  else .endTurn

theorem ids_toolUses {loads : String → Option Json} {output : List OutputItem} {us : List ToolUse}
    (h : toolUses loads output = .ok us) : us.map ToolUse.id = toolUseIds (output.map block) := by
  induction output generalizing us with
  | nil =>
    obtain rfl := Except.ok.inj h
    rfl
  | cons item items ih =>
    cases item with
    | message | other => exact ih h
    | functionCall callId id name arguments status =>
      obtain ⟨tool, -, h⟩ := exists_of_bind_eq_ok h
      obtain ⟨args, -, h⟩ := exists_of_bind_eq_ok h
      obtain ⟨us', hus, h⟩ := exists_of_bind_eq_ok h
      obtain rfl := Except.ok.inj h
      exact congrArg (callId :: ·) (ih hus)

theorem no_media (output : List OutputItem) : ∀ b ∈ output.map block, b.isMedia = false := by
  intro b hb
  obtain ⟨item, -, rfl⟩ := List.mem_map.1 hb
  cases item <;> rfl

/-- `create_message`, once the response is there. -/
def result (loads : String → Option Json) (response : OpenAIResponse) : Except AppError LLMResult :=
  match h : toolUses loads response.output with
  | .error e => .error e
  | .ok us => .ok
    { stopReason := response.toStopReason (response.output.any isFunctionCall),
      contentBlocks := response.output.map block, usage := response.usage,
      text := String.join (response.output.flatMap itemTexts), toolUses := us,
      ids_eq := ids_toolUses h, no_media := no_media _ }

variable {loads : String → Option Json} {response : OpenAIResponse} {r : LLMResult}

theorem result_eq {us : List ToolUse} (h : toolUses loads response.output = .ok us) :
    ∃ r, response.result loads = .ok r ∧ r.toolUses = us ∧
      r.stopReason = response.toStopReason (response.output.any isFunctionCall) := by
  unfold result
  split
  · rename_i e he
    rw [h] at he
    cases he
  · rename_i us' hus
    obtain rfl : us = us' := by simpa using h.symm.trans hus
    exact ⟨_, rfl, rfl, rfl⟩

theorem toolUses_eq_nil {output : List OutputItem} (h : ∀ item ∈ output, isFunctionCall item = false) :
    toolUses loads output = .ok [] := by
  induction output with
  | nil => rfl
  | cons item items ih =>
    obtain ⟨hitem, hitems⟩ := List.forall_mem_cons.1 h
    cases item with
    | message | other => exact ih hitems
    | functionCall => cases hitem

theorem toolUses_ne_nil {output : List OutputItem} {us : List ToolUse}
    (h : toolUses loads output = .ok us) (hcall : output.any isFunctionCall = true) : us ≠ [] := by
  induction output with
  | nil => cases hcall
  | cons item items ih =>
    cases item with
    | message | other => exact ih h hcall
    | functionCall callId id name arguments status =>
      obtain ⟨tool, -, h⟩ := exists_of_bind_eq_ok h
      obtain ⟨args, -, h⟩ := exists_of_bind_eq_ok h
      obtain ⟨us', -, h⟩ := exists_of_bind_eq_ok h
      obtain rfl := Except.ok.inj h
      exact List.cons_ne_nil _ _

/-- With a function call the response is one of tool use, whatever its status. -/
theorem uses_of_result (h : response.result loads = .ok r)
    (hcall : ¬∀ item ∈ response.output, isFunctionCall item = false) :
    r.stopReason = .toolUse ∧ r.toolUses ≠ [] := by
  have hany : response.output.any isFunctionCall = true := by simpa using hcall
  cases hus : toolUses loads response.output with
  | error e =>
    unfold result at h
    split at h
    · cases h
    · rename_i us hus'
      rw [hus] at hus'
      cases hus'
  | ok us =>
    obtain ⟨r', hr', rfl, hreason⟩ := result_eq hus
    obtain rfl := Except.ok.inj (h.symm.trans hr')
    rw [hany] at hreason
    exact ⟨hreason, toolUses_ne_nil hus hany⟩

end OpenAIResponse

/-! ## Both -/

/-- A response of one of the providers. -/
inductive ProviderResponse : Type
  | anthropic (message : AnthropicMessage)
  | openai (response : OpenAIResponse)

namespace ProviderResponse

/-- `create_message`, once the response is there. -/
def result (loads : String → Option Json) : ProviderResponse → Except AppError LLMResult
  | anthropic message => message.result
  | openai response => response.result loads

/-- What the call of the provider ends with. -/
def answer (loads : String → Option Json) (r : ProviderResponse) : LLMAnswer :=
  match r.result loads with
  | .ok result => .result result
  | .error e => .error e

end ProviderResponse

end ChatBackend.Chat

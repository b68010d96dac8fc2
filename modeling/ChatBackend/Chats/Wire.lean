import ChatBackend.Chat.Data
import ChatBackend.Chat.Messages

/-!
# Responses of the providers, as they are stored

The blocks of a response of Anthropic and the output items of a response of OpenAI, what the clients
make of them (the stored blocks, the text parts and the tool calls), and the steps that the
orchestrator writes. A payload is a JSON object, in the form in which the readers of a chat find it.
-/

namespace ChatBackend.Chats

open Chat

/-! ## Dictionaries -/

/-- A dictionary: its entries, in the order of insertion. -/
abbrev Dict : Type := List (String × Json)

namespace Dict

/-- `d.get(key)`. -/
def get (d : Dict) (key : String) : Option Json := (d.find? fun kv => kv.1 = key).map Prod.snd

/-- `d[key] = value` for a key of the dictionary. -/
def set (d : Dict) (key : String) (value : Json) : Dict :=
  d.map fun kv => if kv.1 = key then (key, value) else kv

/-- `d.pop(key, None)`. -/
def pop (d : Dict) (key : String) : Dict := d.filter fun kv => kv.1 ≠ key

end Dict

/-- `block.get("type") == type` of a dictionary. -/
def hasType (type : String) : Json → Bool
  | .obj kvs => match Dict.get kvs "type" with
    | some (.str s) => s = type
    | _ => false
  | _ => false

/-! ## Tool names -/

/-- `_DOMAIN_TO_ANTHROPIC`. -/
def domainToAnthropic : List (String × String) :=
  [("site.write_file", "site_write_file"), ("site.preview", "site_preview"),
    ("site.list", "site_list"), ("site.read", "site_read"), ("site.delete", "site_delete"),
    ("time.now", "time_now"), ("quiz.generate", "quiz_generate"),
    ("image.generate", "image_generate")]

/-- `to_domain_tool_name`; no value is an `UnknownToolNameError`. -/
def toDomainToolName (anthropicName : String) : Option String :=
  (domainToAnthropic.find? fun kv => kv.2 = anthropicName).map Prod.fst

/-- A wire name of a known tool. -/
def isWireName (name : String) : Bool := domainToAnthropic.any fun kv => kv.2 = name

/-- No domain name is a wire name. -/
theorem isWireName_toDomainToolName {name domain : String} (h : toDomainToolName name = some domain) :
    isWireName domain = false := by
  have hall : ∀ kv ∈ domainToAnthropic, isWireName kv.1 = false := by decide
  obtain ⟨kv, hkv, rfl⟩ := Option.map_eq_some_iff.1 h
  exact hall kv (List.mem_of_find?_eq_some hkv)

theorem isWireName_of_toDomainToolName {name : String} (h : (toDomainToolName name).isSome) :
    isWireName name = true := by
  obtain ⟨domain, hd⟩ := Option.isSome_iff_exists.1 h
  obtain ⟨kv, hkv, -⟩ := Option.map_eq_some_iff.1 hd
  have hname := List.find?_some hkv
  exact List.any_eq_true.2 ⟨kv, List.mem_of_find?_eq_some hkv, hname⟩

theorem toDomainToolName_eq_none {name : String} (h : isWireName name = false) :
    toDomainToolName name = none := by
  cases hd : toDomainToolName name with
  | none => rfl
  | some domain =>
    rw [isWireName_of_toDomainToolName (by rw [hd]; rfl)] at h
    cases h

/-! ## Responses -/

/-- The types of the blocks and items that no client and no reader handles. -/
abbrev OtherType : Type :=
  { type : String // type ∉ ["text", "tool_use", "tool_result", "message", "function_call"] }

/-- A block of a response of Anthropic; `annotations` are the fields that the SDK adds. -/
inductive AnthropicBlock : Type
  | text (text : String) (annotations : Dict)
  | toolUse (id name : String) (input : Json) (annotations : Dict)
  | other (type : OtherType) (fields : Dict)

/-- A part of a message item. -/
inductive OutputPart : Type
  | outputText (text : String) (annotations : Json)
  | refusal (refusal : String)

/-- An output item of a response of OpenAI. -/
inductive OutputItem : Type
  | message (id : String) (content : List OutputPart) (status : String)
  | functionCall (callId : String) (id : Option String) (name arguments : String)
      (status : Option String)
  | other (type : OtherType) (fields : Dict)

/-- A response: `stop_reason` of Anthropic, or whether OpenAI has reached `max_output_tokens`. -/
inductive Response : Type
  | anthropic (stopReason : Option String) (content : List AnthropicBlock)
  | openai (maxOutputTokens : Bool) (output : List OutputItem)

/-! ## Stored blocks -/

/-- `_BLOCK_WIRE_FIELDS`. -/
def blockWireFields : List (String × List String) :=
  [("text", ["type", "text"]), ("image", ["type", "source"]), ("document", ["type", "source"]),
    ("tool_use", ["type", "id", "name", "input"]), ("thinking", ["type", "thinking", "signature"]),
    ("redacted_thinking", ["type", "data"])]

/-- `_normalize_block`, of a block of the type. -/
def normalizeBlock (type : String) (block : Dict) : Dict :=
  match blockWireFields.find? fun kv => kv.1 = type with
  | some (_, allowed) => allowed.filterMap fun k => (Dict.get block k).map fun v => (k, v)
  | none => block.filter fun kv => kv.1 ≠ "caller"

/-- The entry for a value that is not `None`. -/
def optEntry (key : String) (value : Option String) : Dict :=
  (value.map fun v => (key, Json.str v)).toList

namespace AnthropicBlock

def type : AnthropicBlock → String
  | text .. => "text"
  | toolUse .. => "tool_use"
  | other t _ => t

/-- `block.model_dump()`. -/
def dump : AnthropicBlock → Dict
  | text t annotations => [("type", .str "text"), ("text", .str t)] ++ annotations
  | toolUse id name input annotations =>
    [("type", .str "tool_use"), ("id", .str id), ("name", .str name), ("input", input)] ++ annotations
  | other t fields => ("type", .str t) :: fields

/-- The block that is stored. -/
def stored (b : AnthropicBlock) : Json := .obj (normalizeBlock b.type b.dump)

end AnthropicBlock

/-- `part.model_dump(..)`. -/
def OutputPart.dump : OutputPart → Json
  | outputText t annotations =>
    .obj [("annotations", annotations), ("text", .str t), ("type", .str "output_text")]
  | refusal t => .obj [("refusal", .str t), ("type", .str "refusal")]

/-- `item.model_dump(mode="json", exclude_none=True)`: the item that is stored. -/
def OutputItem.stored : OutputItem → Json
  | message id content status => .obj [("id", .str id), ("content", .arr (content.map OutputPart.dump)),
      ("role", .str "assistant"), ("status", .str status), ("type", .str "message")]
  | functionCall callId id name arguments status =>
    .obj ([("arguments", .str arguments), ("call_id", .str callId), ("name", .str name),
      ("type", .str "function_call")] ++ optEntry "id" id ++ optEntry "status" status)
  | other t fields => .obj (("type", .str t) :: fields)

/-! ## What the clients collect -/

/-- An element of `tool_uses`, with the name on the wire. -/
structure WireCall where
  id : String
  name : String

namespace Response

/-- The content of the stored step. -/
def contentBlocks : Response → List Json
  | anthropic _ content => content.map AnthropicBlock.stored
  | openai _ output => output.map OutputItem.stored

/-- `text_parts`. -/
def textParts : Response → List String
  | anthropic _ content => content.filterMap fun
    | .text t _ => some t
    | _ => none
  | openai _ output => (output.flatMap fun
    | .message _ content _ => content
    | _ => []).filterMap fun
    | .outputText t _ => some t
    | _ => none

/-- The tool calls of the response. -/
def calls : Response → List WireCall
  | anthropic _ content => content.filterMap fun
    | .toolUse id name _ _ => some ⟨id, name⟩
    | _ => none
  | openai _ output => output.filterMap fun
    | .functionCall callId _ name _ _ => some ⟨callId, name⟩
    | _ => none

/-- `_to_neutral_stop_reason` and `_to_stop_reason`. -/
def stopReason : Response → StopReason
  | anthropic (some "tool_use") _ => .toolUse
  | anthropic (some "max_tokens") _ => .maxTokens
  | anthropic _ _ => .endTurn
  | openai maxOutputTokens output =>
    if (openai maxOutputTokens output).calls.isEmpty then
      if maxOutputTokens then .maxTokens else .endTurn
    else .toolUse

/-- The tool calls for which the orchestrator stores a row. -/
def storedCalls (r : Response) : List WireCall :=
  if r.stopReason = .toolUse then r.calls else []

end Response

/-- A response that a client lets through: the names of its tool calls are known. -/
structure LLMResponse where
  response : Response
  known : ∀ c ∈ response.calls, (toDomainToolName c.name).isSome

/-- The domain name of a tool call. -/
def WireCall.domainName (c : WireCall) : String := (toDomainToolName c.name).getD c.name

/-! ## Stored steps -/

/-- A step as the orchestrator writes it: the texts of a user step (the message and the placeholders
of attachments), the response of an assistant step, or a tool result. -/
inductive StoredStep : Type
  | user (texts : List String) (actionPrompt : Option String)
  | assistant (r : LLMResponse)
  | tool (toolCallId : String) (providerToolUseId toolName : String) (result error : Json)

namespace StoredStep

/-- `role`. -/
def role : StoredStep → String
  | user .. => "user"
  | assistant .. => "assistant"
  | tool .. => "tool"

/-- `payload`. -/
def payload : StoredStep → Dict
  | user texts actionPrompt =>
    ("content", .arr (texts.map fun t => .obj [("type", .str "text"), ("text", .str t)])) ::
      optEntry "actionPrompt" actionPrompt
  | assistant r => [("content", .arr r.response.contentBlocks)]
  | tool toolCallId providerToolUseId toolName result error =>
    [("toolCallId", .str toolCallId), ("providerToolUseId", .str providerToolUseId),
      ("toolName", .str toolName), ("result", result), ("error", error)]

end StoredStep

/-- The columns of `tool_calls` that the readers use. -/
structure ToolCallRow where
  id : ℕ
  toolName : String
  providerToolUseId : String

end ChatBackend.Chats

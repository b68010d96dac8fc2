import ChatBackend.Chats.Display
import Mathlib

/-!
# The history hides the internals

The history replaces the ids and names of the blocks `tool_use` and `tool_result`. An item
`function_call` of OpenAI is shown as it is stored, and so is the id of a tool call that has no row
(`history_hides_iff`).
-/

namespace ChatBackend.Chats

open Chat

/-! ## What a payload shows -/

/-- The value under the key, when it is a text. -/
def textAt (d : Dict) (key : String) : List String :=
  match Dict.get d key with
  | some (.str s) => [s]
  | _ => []

/-- The ids of a tool call or tool result of either provider. -/
def blockIds : Json → List String
  | .obj kvs =>
    if hasType "tool_use" (.obj kvs) then textAt kvs "id"
    else if hasType "tool_result" (.obj kvs) then textAt kvs "tool_use_id"
    else if hasType "function_call" (.obj kvs) then textAt kvs "call_id" ++ textAt kvs "id"
    else []
  | _ => []

/-- The name of a tool call of either provider. -/
def blockNames : Json → List String
  | .obj kvs =>
    if hasType "tool_use" (.obj kvs) || hasType "function_call" (.obj kvs) then textAt kvs "name"
    else []
  | _ => []

/-- The input of a tool call of either provider. -/
def blockInput : Json → Option Json
  | .obj kvs =>
    if hasType "tool_use" (.obj kvs) then Dict.get kvs "input"
    else if hasType "function_call" (.obj kvs) then Dict.get kvs "arguments"
    else none
  | _ => none

/-- The text of a text block, or the parts of a message item. -/
def blockTexts : Json → Option Json
  | .obj kvs =>
    if hasType "text" (.obj kvs) then Dict.get kvs "text"
    else if hasType "message" (.obj kvs) then Dict.get kvs "content"
    else none
  | _ => none

/-- The provider ids that a payload shows. -/
def shownIds (payload : Dict) : List String :=
  textAt payload "providerToolUseId" ++ (content payload).flatMap blockIds

def shownNames (payload : Dict) : List String := (content payload).flatMap blockNames

def shownInputs (payload : Dict) : List Json := (content payload).filterMap blockInput

def shownTexts (payload : Dict) : List Json := (content payload).filterMap blockTexts

/-- The texts of a user step without the block of the settings. -/
def withoutContextBlock : List String → List String
  | [] => []
  | t :: texts => stripContextBlock t :: texts

/-- The texts that the projection of a step should show. -/
def keptTexts : StoredStep → List Json
  | .user texts _ => (withoutContextBlock texts).map .str
  | s => shownTexts s.payload

/-! ## Renamed provider ids -/

def AnthropicBlock.rename (ρ : String → String) : AnthropicBlock → AnthropicBlock
  | toolUse id name input annotations => toolUse (ρ id) name input annotations
  | b => b

def OutputItem.rename (ρ : String → String) : OutputItem → OutputItem
  | functionCall callId id name arguments status =>
    functionCall (ρ callId) (id.map ρ) name arguments status
  | item => item

def Response.rename (ρ : String → String) : Response → Response
  | anthropic stop blocks => anthropic stop (blocks.map (AnthropicBlock.rename ρ))
  | openai m output => openai m (output.map (OutputItem.rename ρ))

def ToolCallRow.rename (ρ : String → String) (r : ToolCallRow) : ToolCallRow :=
  { r with providerToolUseId := ρ r.providerToolUseId }

theorem Response.calls_rename (ρ : String → String) (r : Response) :
    (r.rename ρ).calls = r.calls.map fun c => ⟨ρ c.id, c.name⟩ := by
  cases r with
  | anthropic stop blocks =>
    simp only [rename, calls, List.filterMap_map, List.map_filterMap]
    refine List.filterMap_congr fun b _ => ?_
    cases b <;> rfl
  | openai m output =>
    simp only [rename, calls, List.filterMap_map, List.map_filterMap]
    refine List.filterMap_congr fun item _ => ?_
    cases item <;> rfl

def LLMResponse.rename (ρ : String → String) (r : LLMResponse) : LLMResponse where
  response := r.response.rename ρ
  known c hc := by
    rw [Response.calls_rename] at hc
    obtain ⟨c', hc', rfl⟩ := List.mem_map.1 hc
    exact r.known c' hc'

/-- Two steps that differ only in the action prompt and in the provider ids. -/
inductive Alike (ρ : String → String) : StoredStep → StoredStep → Prop
  | user (texts : List String) (p p' : Option String) :
      Alike ρ (.user texts p) (.user texts p')
  | assistant (r : LLMResponse) : Alike ρ (.assistant r) (.assistant (r.rename ρ))
  | tool (id providerId name : String) (result error : Json) :
      Alike ρ (.tool id providerId name result error) (.tool id (ρ providerId) name result error)

/-- **What the projection of a history should be.** -/
structure HidesInternals (repr : Json → String) (idText : ℕ → String) (rows : List ToolCallRow)
    (steps : List StoredStep) : Prop where
  /-- The ids are domain ids of the tool calls. -/
  ids : ∀ d ∈ getHistory repr idText rows steps, ∀ id ∈ shownIds d, ∃ r ∈ rows, id = idText r.id
  names : ∀ d ∈ getHistory repr idText rows steps, ∀ name ∈ shownNames d, isWireName name = false
  prompt : ∀ d ∈ getHistory repr idText rows steps, Dict.get d "actionPrompt" = none
  texts : (getHistory repr idText rows steps).map shownTexts = steps.map keptTexts
  inputs : (getHistory repr idText rows steps).map shownInputs =
    steps.map fun s => shownInputs s.payload
  alike : ∀ ρ : String → String, Function.Injective ρ → ∀ steps',
    List.Forall₂ (Alike ρ) steps steps' →
      getHistory repr idText (rows.map (ToolCallRow.rename ρ)) steps' =
        getHistory repr idText rows steps

/-- The steps that can be hidden: a response of OpenAI has no tool call, and one of Anthropic a row
for each. -/
def HidesWhen (rows : List ToolCallRow) : StoredStep → Prop
  | .assistant r => match r.response with
    | .anthropic stop blocks =>
      ∀ c ∈ (Response.anthropic stop blocks).calls, ∃ row ∈ rows, row.providerToolUseId = c.id
    | .openai m output => (Response.openai m output).calls = []
  | _ => True

/-! ## The projections -/

section Project

variable (repr : Json → String) (idText : ℕ → String) (rows : List ToolCallRow)

/-- The block of a text. -/
abbrev textBlock (t : String) : Json := .obj [("type", .str "text"), ("text", .str t)]

theorem normalizeBlockOf_text (t : String) :
    normalizeBlockOf idText rows (textBlock t) = textBlock t := by
  simp [normalizeBlockOf, hasType, Dict.get]

/-- A user step. -/
theorem normalize_user (texts : List String) (p : Option String) :
    normalizePayload repr idText rows "user" (StoredStep.user texts p).payload =
      [("content", .arr ((withoutContextBlock texts).map textBlock))] := by
  have hpop : Dict.pop (Dict.pop (StoredStep.user texts p).payload "providerToolUseId")
      "actionPrompt" = [("content", .arr (texts.map textBlock))] := by
    cases p <;> simp [StoredStep.payload, optEntry, Dict.pop]
  have hstrip : stripLeadingContextBlock repr (texts.map textBlock) =
      (withoutContextBlock texts).map textBlock := by
    cases texts with
    | nil => rfl
    | cons t texts =>
      simp [stripLeadingContextBlock, withoutContextBlock, hasType, Dict.get, Dict.set, blockText,
        pyStr]
  have hmap : ((withoutContextBlock texts).map textBlock).map (normalizeBlockOf idText rows) =
      (withoutContextBlock texts).map textBlock := by
    rw [List.map_map]
    exact List.map_congr_left fun t _ => normalizeBlockOf_text idText rows t
  unfold normalizePayload
  simp only [hpop, Dict.get, List.find?_cons, decide_true, Option.map_some, if_pos, hstrip, hmap,
    Dict.set, List.map_cons, List.map_nil]

/-- An assistant step. -/
theorem normalize_assistant (r : LLMResponse) :
    normalizePayload repr idText rows "assistant" (StoredStep.assistant r).payload =
      [("content", .arr (r.response.contentBlocks.map (normalizeBlockOf idText rows)))] := by
  simp [normalizePayload, StoredStep.payload, Dict.pop, Dict.get, Dict.set]

/-- A tool step. -/
theorem normalize_tool (id providerId name : String) (result error : Json) :
    normalizePayload repr idText rows "tool"
      (StoredStep.tool id providerId name result error).payload =
      [("toolCallId", .str id), ("toolName", .str name), ("result", result), ("error", error)] := by
  simp [normalizePayload, StoredStep.payload, Dict.pop, Dict.get]

/-- The blocks of Anthropic. -/
theorem normalizeBlockOf_toolUse (id name : String) (input : Json) (annotations : Dict) :
    normalizeBlockOf idText rows (AnthropicBlock.toolUse id name input annotations).stored =
      .obj [("type", .str "tool_use"), ("id", .str ((domainId idText rows id).getD id)),
        ("name", .str ((toDomainToolName name).getD name)), ("input", input)] := by
  rw [AnthropicBlock.stored_toolUse]
  cases hid : domainId idText rows id <;> cases hname : toDomainToolName name <;>
    simp [normalizeBlockOf, hasType, normalizeToolUseBlock, replaceText, Dict.get, Dict.set, hid,
      hname]

theorem normalizeBlockOf_other (t : OtherType) (fields : Dict) :
    normalizeBlockOf idText rows (AnthropicBlock.other t fields).stored =
      (AnthropicBlock.other t fields).stored := by
  obtain ⟨kvs, hkvs, htype⟩ := AnthropicBlock.stored_other t fields
  have hne : t.1 ≠ "tool_use" ∧ t.1 ≠ "tool_result" :=
    ⟨fun he => t.2 (by rw [he]; decide), fun he => t.2 (by rw [he]; decide)⟩
  rw [hkvs]
  simp only [normalizeBlockOf, hasType_obj htype, hne.1, hne.2, decide_false]
  rfl

/-- The items of OpenAI stay as they are. -/
theorem normalizeBlockOf_item (item : OutputItem) :
    normalizeBlockOf idText rows item.stored = item.stored := by
  obtain ⟨kvs, t, hkvs, htype, hother⟩ := item.stored_type
  have hne : t ≠ "tool_use" ∧ t ≠ "tool_result" :=
    ⟨fun he => hother (by rw [he]; decide), fun he => hother (by rw [he]; decide)⟩
  rw [hkvs]
  simp only [normalizeBlockOf, hasType_obj htype, hne.1, hne.2, decide_false]
  rfl

/-! ## What they show -/

theorem content_arr (xs : List Json) (rest : Dict) : content (("content", .arr xs) :: rest) = xs := by
  simp [content, Dict.get]

/-- A block that is neither a text nor a tool call shows nothing of them. -/
theorem shows_other {kvs : Dict} {t : String} (htype : Dict.get kvs "type" = some (.str t))
    (hother : t ∉ ["text", "tool_use", "tool_result", "message", "function_call"]) :
    blockIds (.obj kvs) = [] ∧ blockNames (.obj kvs) = [] ∧ blockInput (.obj kvs) = none ∧
      blockTexts (.obj kvs) = none := by
  simp only [List.mem_cons, List.not_mem_nil, or_false, not_or] at hother
  simp [blockIds, blockNames, blockInput, blockTexts, hasType_obj htype, hother]

/-- The projection of a block of Anthropic shows its text or input as it is. -/
theorem shows_anthropic (b : AnthropicBlock) :
    blockInput (normalizeBlockOf idText rows b.stored) = blockInput b.stored ∧
      blockTexts (normalizeBlockOf idText rows b.stored) = blockTexts b.stored := by
  cases b with
  | text t annotations =>
    rw [AnthropicBlock.stored_text, normalizeBlockOf_text]
    exact ⟨rfl, rfl⟩
  | toolUse id name input annotations =>
    rw [normalizeBlockOf_toolUse, AnthropicBlock.stored_toolUse]
    simp [blockInput, blockTexts, hasType, Dict.get]
  | other t fields =>
    rw [normalizeBlockOf_other]
    exact ⟨rfl, rfl⟩

/-- The projection of any content shows its texts and inputs as they are. -/
theorem shows_assistant (r : LLMResponse) :
    shownTexts (normalizePayload repr idText rows "assistant" (StoredStep.assistant r).payload) =
        shownTexts (StoredStep.assistant r).payload ∧
      shownInputs (normalizePayload repr idText rows "assistant"
        (StoredStep.assistant r).payload) = shownInputs (StoredStep.assistant r).payload := by
  rw [normalize_assistant]
  simp only [shownTexts, shownInputs, content_arr, content_assistant, List.filterMap_map]
  cases r.response with
  | anthropic stop blocks =>
    simp only [Response.contentBlocks, List.filterMap_map]
    exact ⟨List.filterMap_congr fun b _ => (shows_anthropic idText rows b).2,
      List.filterMap_congr fun b _ => (shows_anthropic idText rows b).1⟩
  | openai m output =>
    simp only [Response.contentBlocks, List.filterMap_map]
    exact ⟨List.filterMap_congr fun item _ => congrArg blockTexts
        (normalizeBlockOf_item idText rows item),
      List.filterMap_congr fun item _ => congrArg blockInput
        (normalizeBlockOf_item idText rows item)⟩

/-- The texts of a projection. -/
theorem shownTexts_project (s : StoredStep) :
    shownTexts (normalizePayload repr idText rows s.role s.payload) = keptTexts s := by
  cases s with
  | user texts p =>
    show shownTexts (normalizePayload repr idText rows "user" _) = _
    rw [normalize_user, shownTexts, content_arr, keptTexts, List.filterMap_map,
      ← List.filterMap_eq_map]
    refine List.filterMap_congr fun t _ => ?_
    simp [blockTexts, hasType, Dict.get]
  | assistant r => exact (shows_assistant repr idText rows r).1
  | tool id providerId name result error =>
    show shownTexts (normalizePayload repr idText rows "tool" _) = _
    rw [normalize_tool]
    simp [keptTexts, shownTexts, content, StoredStep.payload, Dict.get]

/-- The inputs of a projection. -/
theorem shownInputs_project (s : StoredStep) :
    shownInputs (normalizePayload repr idText rows s.role s.payload) = shownInputs s.payload := by
  cases s with
  | user texts p =>
    have hnone : ∀ (ts : List String) (rest : Dict),
        shownInputs (("content", .arr (ts.map textBlock)) :: rest) = [] := by
      intro ts rest
      rw [shownInputs, content_arr, List.filterMap_map, List.filterMap_eq_nil_iff]
      intro t _
      simp [blockInput, hasType, Dict.get]
    show shownInputs (normalizePayload repr idText rows "user" _) = _
    rw [normalize_user, hnone, StoredStep.payload]
    exact (hnone texts _).symm
  | assistant r => exact (shows_assistant repr idText rows r).2
  | tool id providerId name result error =>
    show shownInputs (normalizePayload repr idText rows "tool" _) = _
    rw [normalize_tool]
    simp [shownInputs, content, StoredStep.payload, Dict.get]

/-- No projection has the action prompt. -/
theorem prompt_project (s : StoredStep) :
    Dict.get (normalizePayload repr idText rows s.role s.payload) "actionPrompt" = none := by
  cases s with
  | user texts p =>
    show Dict.get (normalizePayload repr idText rows "user" _) _ = _
    rw [normalize_user]
    simp [Dict.get]
  | assistant r =>
    show Dict.get (normalizePayload repr idText rows "assistant" _) _ = _
    rw [normalize_assistant]
    simp [Dict.get]
  | tool id providerId name result error =>
    show Dict.get (normalizePayload repr idText rows "tool" _) _ = _
    rw [normalize_tool]
    simp [Dict.get]

/-- The ids and names that the projection of a block of Anthropic shows. -/
theorem ids_anthropic (b : AnthropicBlock) :
    (blockIds (normalizeBlockOf idText rows b.stored) = [] ∧
      blockNames (normalizeBlockOf idText rows b.stored) = []) ∨
    ∃ id name input annotations, b = .toolUse id name input annotations ∧
      blockIds (normalizeBlockOf idText rows b.stored) = [(domainId idText rows id).getD id] ∧
      blockNames (normalizeBlockOf idText rows b.stored) =
        [(toDomainToolName name).getD name] := by
  cases b with
  | text t annotations =>
    rw [AnthropicBlock.stored_text, normalizeBlockOf_text]
    left
    simp [blockIds, blockNames, hasType, Dict.get]
  | toolUse id name input annotations =>
    right
    refine ⟨id, name, input, annotations, rfl, ?_⟩
    rw [normalizeBlockOf_toolUse]
    simp [blockIds, blockNames, hasType, Dict.get, textAt]
  | other t fields =>
    left
    obtain ⟨kvs, hkvs, htype⟩ := AnthropicBlock.stored_other t fields
    rw [normalizeBlockOf_other, hkvs]
    exact ⟨(shows_other htype t.2).1, (shows_other htype t.2).2.1⟩

/-- An item that is no tool call shows no id and no name. -/
theorem ids_openai (item : OutputItem) :
    (blockIds (normalizeBlockOf idText rows item.stored) = [] ∧
      blockNames (normalizeBlockOf idText rows item.stored) = []) ∨
    ∃ callId id name arguments status, item = .functionCall callId id name arguments status ∧
      blockNames (normalizeBlockOf idText rows item.stored) = [name] := by
  rw [normalizeBlockOf_item]
  cases item with
  | message id content status =>
    left
    simp [OutputItem.stored, blockIds, blockNames, hasType, Dict.get]
  | functionCall callId id name arguments status =>
    right
    refine ⟨callId, id, name, arguments, status, rfl, ?_⟩
    simp [OutputItem.stored, blockNames, hasType, Dict.get, textAt]
  | other t fields =>
    left
    have htype : Dict.get (("type", .str t) :: fields) "type" = some (.str t) := by simp [Dict.get]
    exact ⟨(shows_other htype t.2).1, (shows_other htype t.2).2.1⟩

/-- The row of a provider id that has one. -/
theorem domainId_of_mem {id : String} (h : ∃ r ∈ rows, r.providerToolUseId = id) :
    ∃ r ∈ rows, domainId idText rows id = some (idText r.id) := by
  obtain ⟨r, hr, hid⟩ := h
  have hsome : (rows.reverse.find? fun r => decide (r.providerToolUseId = id)).isSome := by
    rw [List.find?_isSome]
    exact ⟨r, List.mem_reverse.2 hr, decide_eq_true hid⟩
  obtain ⟨r', hr'⟩ := Option.isSome_iff_exists.1 hsome
  refine ⟨r', List.mem_reverse.1 (List.mem_of_find?_eq_some hr'), ?_⟩
  rw [domainId, byProviderId, hr', Option.map_some]

theorem domainId_eq_none {id : String} (h : ∀ r ∈ rows, r.providerToolUseId ≠ id) :
    domainId idText rows id = none := by
  rw [domainId, byProviderId, Option.map_eq_none_iff, List.find?_eq_none]
  intro r hr
  rw [decide_eq_true_eq]
  exact h r (List.mem_reverse.1 hr)

/-- A renaming moves the rows with the ids. -/
theorem domainId_rename {ρ : String → String} (hρ : Function.Injective ρ) (id : String) :
    domainId idText (rows.map (ToolCallRow.rename ρ)) (ρ id) = domainId idText rows id := by
  rw [domainId, domainId, byProviderId, byProviderId, ← List.map_reverse, List.find?_map,
    Option.map_map]
  have hp : ((fun r : ToolCallRow => decide (r.providerToolUseId = ρ id)) ∘ ToolCallRow.rename ρ) =
      fun r => decide (r.providerToolUseId = id) := by
    funext r
    show decide (ρ r.providerToolUseId = ρ id) = _
    simp only [hρ.eq_iff]
  rw [hp]
  rfl

/-- A block of Anthropic with another id, once the id is replaced. -/
theorem normalizeBlockOf_rename {ρ : String → String} (hρ : Function.Injective ρ)
    {b : AnthropicBlock}
    (h : ∀ id name input annotations, b = .toolUse id name input annotations →
      ∃ r ∈ rows, r.providerToolUseId = id) :
    normalizeBlockOf idText (rows.map (ToolCallRow.rename ρ)) (b.rename ρ).stored =
      normalizeBlockOf idText rows b.stored := by
  cases b with
  | text t annotations =>
    show normalizeBlockOf _ _ (AnthropicBlock.text t annotations).stored = _
    rw [AnthropicBlock.stored_text, normalizeBlockOf_text, normalizeBlockOf_text]
  | toolUse id name input annotations =>
    obtain ⟨r, -, hr⟩ := domainId_of_mem idText rows (h id name input annotations rfl)
    rw [AnthropicBlock.rename, normalizeBlockOf_toolUse, normalizeBlockOf_toolUse,
      domainId_rename idText rows hρ, hr]
    rfl
  | other t fields =>
    show normalizeBlockOf _ _ (AnthropicBlock.other t fields).stored = _
    rw [normalizeBlockOf_other, normalizeBlockOf_other]

end Project

/-! ## The history -/

section History

variable {repr : Json → String} {idText : ℕ → String} {rows : List ToolCallRow}

/-- A tool block of Anthropic is a tool call. -/
theorem mem_calls_anthropic (stop : Option String) {blocks : List AnthropicBlock} {id name : String}
    {input : Json} {annotations : Dict}
    (h : AnthropicBlock.toolUse id name input annotations ∈ blocks) :
    ⟨id, name⟩ ∈ (Response.anthropic stop blocks).calls :=
  List.mem_filterMap.2 ⟨_, h, rfl⟩

theorem mem_calls_openai {m : Bool} {output : List OutputItem} {callId name arguments : String}
    {id status : Option String}
    (h : OutputItem.functionCall callId id name arguments status ∈ output) :
    ⟨callId, name⟩ ∈ (Response.openai m output).calls :=
  List.mem_filterMap.2 ⟨_, h, rfl⟩

/-- A step that can be hidden shows domain ids and domain names. -/
theorem HidesWhen.shows {s : StoredStep} (h : HidesWhen rows s) :
    (∀ id ∈ shownIds (normalizePayload repr idText rows s.role s.payload),
      ∃ r ∈ rows, id = idText r.id) ∧
    ∀ name ∈ shownNames (normalizePayload repr idText rows s.role s.payload),
      isWireName name = false := by
  cases s with
  | user texts p =>
    have hblock : ∀ t : String, blockIds (textBlock t) = [] ∧ blockNames (textBlock t) = [] := by
      intro t
      simp [blockIds, blockNames, hasType, Dict.get]
    show (∀ id ∈ shownIds (normalizePayload repr idText rows "user" _), _) ∧
      ∀ name ∈ shownNames (normalizePayload repr idText rows "user" _), _
    rw [normalize_user]
    constructor
    · intro id hid
      simp [shownIds, content_arr, textAt, Dict.get, List.mem_flatMap, hblock] at hid
    · intro name hname
      simp [shownNames, content_arr, List.mem_flatMap, hblock] at hname
  | tool id providerId name result error =>
    show (∀ id ∈ shownIds (normalizePayload repr idText rows "tool" _), _) ∧
      ∀ name ∈ shownNames (normalizePayload repr idText rows "tool" _), _
    rw [normalize_tool]
    constructor
    · intro id hid
      simp [shownIds, content, textAt, Dict.get] at hid
    · intro name hname
      simp [shownNames, content, Dict.get] at hname
  | assistant r =>
    show (∀ id ∈ shownIds (normalizePayload repr idText rows "assistant" _), _) ∧
      ∀ name ∈ shownNames (normalizePayload repr idText rows "assistant" _), _
    rw [normalize_assistant]
    have hids : shownIds [("content", .arr (r.response.contentBlocks.map
        (normalizeBlockOf idText rows)))] =
        (r.response.contentBlocks.map (normalizeBlockOf idText rows)).flatMap blockIds := by
      rw [shownIds, content_arr]
      simp [textAt, Dict.get]
    rw [hids, shownNames, content_arr]
    cases hr : r.response with
    | anthropic stop blocks =>
      rw [HidesWhen, hr] at h
      have hblock : ∀ b ∈ blocks,
          (∀ id ∈ blockIds (normalizeBlockOf idText rows b.stored), ∃ r ∈ rows, id = idText r.id) ∧
          ∀ name ∈ blockNames (normalizeBlockOf idText rows b.stored), isWireName name = false := by
        intro b hb
        rcases ids_anthropic idText rows b with hnone | ⟨id, name, input, annotations, rfl, hid, hname⟩
        · rw [hnone.1, hnone.2]
          exact ⟨fun _ h => absurd h List.not_mem_nil, fun _ h => absurd h List.not_mem_nil⟩
        · have hc := mem_calls_anthropic stop hb
          obtain ⟨row, hrow, hdomain⟩ := domainId_of_mem idText rows (h _ hc)
          have hknown := r.known ⟨id, name⟩ (by rw [hr]; exact hc)
          obtain ⟨domain, hd⟩ := Option.isSome_iff_exists.1 hknown
          rw [hid, hname, hdomain, hd]
          refine ⟨fun i hi => ⟨row, hrow, List.mem_singleton.1 hi⟩, fun n hn => ?_⟩
          rw [List.mem_singleton.1 hn]
          exact isWireName_toDomainToolName hd
      simp only [Response.contentBlocks, List.map_map, List.flatMap_map]
      constructor
      · intro id hid
        obtain ⟨b, hb, hid⟩ := List.mem_flatMap.1 hid
        exact (hblock b hb).1 id hid
      · intro name hname
        obtain ⟨b, hb, hname⟩ := List.mem_flatMap.1 hname
        exact (hblock b hb).2 name hname
    | openai m output =>
      rw [HidesWhen, hr] at h
      have hblock : ∀ item ∈ output, blockIds (normalizeBlockOf idText rows item.stored) = [] ∧
          blockNames (normalizeBlockOf idText rows item.stored) = [] := by
        intro item hitem
        rcases ids_openai idText rows item with hnone | ⟨callId, id, name, arguments, status, rfl, -⟩
        · exact hnone
        · have hmem := mem_calls_openai hitem (m := m)
          rw [h] at hmem
          cases hmem
      simp only [Response.contentBlocks, List.map_map, List.flatMap_map]
      constructor
      · intro id hid
        obtain ⟨item, hitem, hid⟩ := List.mem_flatMap.1 hid
        rw [Function.comp_apply, (hblock item hitem).1] at hid
        cases hid
      · intro name hname
        obtain ⟨item, hitem, hname⟩ := List.mem_flatMap.1 hname
        rw [Function.comp_apply, (hblock item hitem).2] at hname
        cases hname

/-- A step that can be hidden has the projection of every step that is alike. -/
theorem HidesWhen.alike {ρ : String → String} (hρ : Function.Injective ρ) {s s' : StoredStep}
    (h : HidesWhen rows s) (ha : Alike ρ s s') :
    normalizePayload repr idText (rows.map (ToolCallRow.rename ρ)) s'.role s'.payload =
      normalizePayload repr idText rows s.role s.payload := by
  cases ha with
  | user texts p p' =>
    show normalizePayload repr idText _ "user" _ = normalizePayload repr idText _ "user" _
    rw [normalize_user, normalize_user]
  | tool id providerId name result error =>
    show normalizePayload repr idText _ "tool" _ = normalizePayload repr idText _ "tool" _
    rw [normalize_tool, normalize_tool]
  | assistant r =>
    show normalizePayload repr idText _ "assistant" _ = normalizePayload repr idText _ "assistant" _
    rw [normalize_assistant, normalize_assistant]
    have hblocks : (r.rename ρ).response.contentBlocks.map
        (normalizeBlockOf idText (rows.map (ToolCallRow.rename ρ))) =
        r.response.contentBlocks.map (normalizeBlockOf idText rows) := by
      show (r.response.rename ρ).contentBlocks.map _ = _
      cases hr : r.response with
      | anthropic stop blocks =>
        rw [HidesWhen, hr] at h
        simp only [Response.rename, Response.contentBlocks, List.map_map]
        refine List.map_congr_left fun b hb => normalizeBlockOf_rename idText rows hρ ?_
        rintro id name input annotations rfl
        exact h _ (mem_calls_anthropic stop hb)
      | openai m output =>
        rw [HidesWhen, hr] at h
        simp only [Response.rename, Response.contentBlocks, List.map_map]
        refine List.map_congr_left fun item hitem => ?_
        have hsame : item.rename ρ = item := by
          cases item with
          | functionCall callId id name arguments status =>
            have hmem := mem_calls_openai hitem (m := m)
            rw [h] at hmem
            cases hmem
          | message id content status => rfl
          | other t fields => rfl
        show normalizeBlockOf idText _ (item.rename ρ).stored = normalizeBlockOf idText _ item.stored
        rw [hsame, normalizeBlockOf_item, normalizeBlockOf_item]
    rw [hblocks]

/-- The step with renamed ids. -/
def StoredStep.rename (ρ : String → String) : StoredStep → StoredStep
  | user texts p => user texts p
  | assistant r => assistant (r.rename ρ)
  | tool id providerId name result error => tool id (ρ providerId) name result error

theorem alike_rename (ρ : String → String) (s : StoredStep) : Alike ρ s (s.rename ρ) := by
  cases s with
  | user texts p => exact .user texts p p
  | assistant r => exact .assistant r
  | tool id providerId name result error => exact .tool id providerId name result error

/-- A tool call of OpenAI shows its wire name. -/
theorem HidesInternals.openai {steps : List StoredStep} {r : LLMResponse} {m : Bool}
    {output : List OutputItem} (h : HidesInternals repr idText rows steps)
    (hmem : .assistant r ∈ steps) (hr : r.response = .openai m output) :
    (Response.openai m output).calls = [] := by
  by_contra hne
  obtain ⟨c, hc⟩ := List.exists_mem_of_ne_nil _ hne
  obtain ⟨item, hitem, hsome⟩ := List.mem_filterMap.1 hc
  have hwire : isWireName c.name = true :=
    isWireName_of_toDomainToolName (r.known c (by rw [hr]; exact hc))
  rcases ids_openai idText rows item with hnone | ⟨callId, id, name, arguments, status, rfl, hname⟩
  · cases item with
    | functionCall callId id name arguments status =>
      rw [normalizeBlockOf_item] at hnone
      simp [OutputItem.stored, blockNames, hasType, Dict.get, textAt] at hnone
    | message id content status => cases hsome
    | other t fields => cases hsome
  · obtain rfl := Option.some.inj hsome
    have hproject := h.names _ (List.mem_map.2 ⟨_, hmem, rfl⟩) name ?_
    · rw [hproject] at hwire
      cases hwire
    · show name ∈ shownNames (normalizePayload repr idText rows "assistant" _)
      rw [normalize_assistant, shownNames, content_arr, hr]
      refine List.mem_flatMap.2 ⟨_, List.mem_map.2 ⟨_, List.mem_map.2 ⟨_, hitem, rfl⟩, rfl⟩, ?_⟩
      rw [hname]
      exact List.mem_singleton_self name

/-- The id of a tool call of Anthropic without a row is shown: another id is shown in its place. -/
theorem HidesInternals.anthropic {steps : List StoredStep} {r : LLMResponse} {stop : Option String}
    {blocks : List AnthropicBlock} (h : HidesInternals repr idText rows steps)
    (hmem : .assistant r ∈ steps) (hr : r.response = .anthropic stop blocks) {c : WireCall}
    (hc : c ∈ (Response.anthropic stop blocks).calls) :
    ∃ row ∈ rows, row.providerToolUseId = c.id := by
  by_contra hnot
  push Not at hnot
  obtain ⟨b, hb, hsome⟩ := List.mem_filterMap.1 hc
  cases b with
  | text t annotations => cases hsome
  | other t fields => cases hsome
  | toolUse id name input annotations =>
    obtain rfl := Option.some.inj hsome
    have hother : id ++ "x" ≠ id := by
      intro he
      have hlength := congrArg String.length he
      rw [String.length_append] at hlength
      have hx : "x".length = 1 := rfl
      omega
    -- another id takes its place
    obtain ⟨ρ, hρ, hid⟩ : ∃ ρ : String → String, Function.Injective ρ ∧ ρ id = id ++ "x" :=
      ⟨Equiv.swap id (id ++ "x"), Equiv.injective _, Equiv.swap_apply_left _ _⟩
    have hsame := h.alike ρ hρ (steps.map (StoredStep.rename ρ))
      (List.forall₂_map_right_iff.2 (List.forall₂_same.2 fun s _ => alike_rename ρ s))
    simp only [getHistory, List.map_map] at hsame
    have hstep : normalizePayload repr idText (rows.map (ToolCallRow.rename ρ)) "assistant"
          (StoredStep.assistant (r.rename ρ)).payload =
        normalizePayload repr idText rows "assistant" (StoredStep.assistant r).payload :=
      List.map_inj_left.1 hsame _ hmem
    rw [normalize_assistant, normalize_assistant] at hstep
    have hblocks := Json.arr.inj (Prod.mk.inj (List.cons.inj hstep).1).2
    have hcontent : (r.rename ρ).response.contentBlocks =
        (Response.anthropic stop (blocks.map (AnthropicBlock.rename ρ))).contentBlocks := by
      show (r.response.rename ρ).contentBlocks = _
      rw [hr]
      rfl
    rw [hcontent, hr] at hblocks
    simp only [Response.contentBlocks, List.map_map] at hblocks
    have hblock := List.map_inj_left.1 hblocks _ hb
    simp only [Function.comp_apply, AnthropicBlock.rename, normalizeBlockOf_toolUse] at hblock
    rw [domainId_rename idText rows hρ, domainId_eq_none idText rows hnot, hid] at hblock
    simp [hother] at hblock

/-- **The history hides the internals** exactly when every tool call is one of Anthropic that has a
row. -/
theorem history_hides_iff (repr : Json → String) (idText : ℕ → String) (rows : List ToolCallRow)
    (steps : List StoredStep) :
    HidesInternals repr idText rows steps ↔ ∀ s ∈ steps, HidesWhen rows s := by
  constructor
  · intro h s hs
    cases s with
    | user texts p => exact trivial
    | tool id providerId name result error => exact trivial
    | assistant r =>
      rw [HidesWhen]
      cases hr : r.response with
      | anthropic stop blocks => exact fun c hc => h.anthropic hs hr hc
      | openai m output => exact h.openai hs hr
  · intro h
    refine ⟨?_, ?_, ?_, ?_, ?_, ?_⟩
    · intro d hd
      obtain ⟨s, hs, rfl⟩ := List.mem_map.1 hd
      exact (h s hs).shows.1
    · intro d hd
      obtain ⟨s, hs, rfl⟩ := List.mem_map.1 hd
      exact (h s hs).shows.2
    · intro d hd
      obtain ⟨s, -, rfl⟩ := List.mem_map.1 hd
      exact prompt_project repr idText rows s
    · rw [getHistory, List.map_map]
      exact List.map_congr_left fun s _ => shownTexts_project repr idText rows s
    · rw [getHistory, List.map_map]
      exact List.map_congr_left fun s _ => shownInputs_project repr idText rows s
    · intro ρ hρ steps' ha
      induction ha with
      | nil => rfl
      | @cons s s' steps steps' hs _ ih =>
        have htail := ih fun s hs => h s (List.mem_cons_of_mem _ hs)
        simp only [getHistory, List.map_cons] at htail ⊢
        rw [(h s List.mem_cons_self).alike hρ hs, htail]

end History

/-- A response of OpenAI with a tool call. -/
def calledOpenai : LLMResponse where
  response := .openai false [.functionCall "call_1" (some "fc_1") "time_now" "" none]
  known := by decide

/-- The ids of the item and the name on the wire are shown. -/
theorem history_hides_fails :
    (getHistory (fun _ => "") (fun _ => "domain") [⟨0, "time.now", "call_1"⟩]
      [.assistant calledOpenai]).map (fun d => (shownIds d, shownNames d)) =
        [(["call_1", "fc_1"], ["time_now"])] ∧
    ¬ HidesInternals (fun _ => "") (fun _ => "domain") [⟨0, "time.now", "call_1"⟩]
      [.assistant calledOpenai] := by
  refine ⟨by decide +kernel, fun h => ?_⟩
  have hname := h.names _ (List.mem_singleton_self _) "time_now" (by decide +kernel)
  exact absurd hname (by decide)

end ChatBackend.Chats

import ChatBackend.Chat.Coherence
import ChatBackend.Chats.Service
import Mathlib

/-!
# The messages on the wire

What the two clients make of the neutral messages of a call: `_build_provider_messages` for Anthropic and
`_build_input` for OpenAI, and the attachments, which both put behind the last message of the user. For
Anthropic the result of a tool is a message of the user as well.

`said` reads either form back, as what the user and the model have said and what the tools have answered.
Both clients send what the neutral messages say (`said_buildProviderMessages`, `said_buildInput`), and the
attachments are inserted into it in one piece (`replaceLast_inserts`).
-/

namespace ChatBackend.Chat

/-! ## The last element that is replaced -/

section ReplaceLast

variable {α : Type} {f : α → Option α} {l l' : List α} {a a' : α}

/-- The loop over `reversed(l)`, left at the first element for which `f` has a value. -/
def replaceLast (f : α → Option α) (l : List α) : List α := (l.reverse.replaceF f).reverse

/-- The last element itself is replaced. -/
theorem replaceLast_append (h : f a = some a') : replaceLast f (l ++ [a]) = l ++ [a'] := by
  rw [replaceLast, List.reverse_append, List.reverse_singleton, List.singleton_append,
    List.replaceF_cons_of_some _ h, List.reverse_cons, List.reverse_reverse]

theorem exists_replaceLast (ha : a ∈ l) (h : f a = some a') : ∃ l₁ b b' l₂,
    (∀ c ∈ l₂, f c = none) ∧ f b = some b' ∧ l = l₁ ++ b :: l₂ ∧
      replaceLast f l = l₁ ++ b' :: l₂ := by
  obtain ⟨b, b', l₂, l₁, hnone, hb, hl, hreplace⟩ := List.exists_of_replaceF (List.mem_reverse.2 ha) h
  refine ⟨l₁.reverse, b, b', l₂.reverse, fun c hc => hnone c (List.mem_reverse.1 hc), hb, ?_, ?_⟩
  · rw [← List.reverse_reverse l, hl]
    simp
  · rw [replaceLast, hreplace]
    simp

end ReplaceLast

/-! ## Anthropic -/

/-- A content block: one of the history or of an attachment, or the result of a tool. -/
inductive WireBlock : Type
  | block (b : Block)
  | toolResult (toolUseId content : String) (isError : Bool)

inductive WireRole : Type
  | user
  | assistant
  deriving DecidableEq

structure WireMessage where
  role : WireRole
  content : List WireBlock

section Translation

variable (repr dumps : Json → String)

/-- `str(msg.error.get("message", "tool error"))`. -/
def toolErrorText (error : Json) : String :=
  ((error.get "message").map (Chats.pyStr repr)).getD "tool error"

/-- The wire message of a message. -/
def wireMessage : NeutralMessage → WireMessage
  | .user content => ⟨.user, content.map .block⟩
  | .assistant content => ⟨.assistant, content.map .block⟩
  | .tool _ providerToolUseId _ result error =>
    match error with
    | some error => ⟨.user, [.toolResult providerToolUseId (toolErrorText repr error) true]⟩
    | none => ⟨.user, [.toolResult providerToolUseId (dumps (result.getD .null)) false]⟩

/-- `_build_provider_messages`. -/
def buildProviderMessages (messages : List NeutralMessage) : List WireMessage :=
  messages.map (wireMessage repr dumps)

/-- A message of the user, with the attachments at the end of its content. -/
def WireMessage.withBlocks (blocks : List Block) (m : WireMessage) : Option WireMessage :=
  if m.role = .user then some { m with content := m.content ++ blocks.map .block } else none

/-- The messages of `create_message`. -/
def anthropicMessages (messages : List NeutralMessage) (attachments : Option PreparedAttachments) :
    List WireMessage :=
  let wire := buildProviderMessages repr dumps messages
  match attachments with
  | none => wire
  | some a =>
    if a.contentBlocks.isEmpty then wire
    else replaceLast (WireMessage.withBlocks a.contentBlocks) wire

/-! ## OpenAI -/

/-- A content part of a user item: a text of the history, or an attachment. -/
inductive InputPart : Type
  | inputText (text : String)
  | attached (b : Block)

/-- An input item: one of an earlier output, a message of the user or the result of a tool. -/
inductive InputItem : Type
  | output (b : Block)
  | message (content : List InputPart)
  | functionCallOutput (callId output : String)

/-- The part of a block of type `text`; the other blocks are left out. -/
def Block.inputPart : Block → Option InputPart
  | .text t => some (.inputText t)
  | .media type _ _ data => if type = "text" then some (.inputText data) else none
  | _ => none

/-- `_user_item_from_blocks`. -/
def userItemFromBlocks (blocks : List Block) : InputItem := .message (blocks.filterMap Block.inputPart)

/-- The items of a message. -/
def inputItems : NeutralMessage → List InputItem
  | .assistant content => content.map .output
  | .user content => [userItemFromBlocks content]
  | .tool _ providerToolUseId _ result error =>
    let payload := match error with
      | some error => error
      | none => result.getD .null
    [.functionCallOutput providerToolUseId (dumps payload)]

/-- `_build_input`. -/
def buildInput (messages : List NeutralMessage) : List InputItem := messages.flatMap (inputItems dumps)

/-- A message item, with the attachments at the end of its content. -/
def InputItem.withBlocks (blocks : List Block) : InputItem → Option InputItem
  | .message content => some (.message (content ++ blocks.map .attached))
  | _ => none

/-- `_inject_attachments`. -/
def injectAttachments (items : List InputItem) (attachments : PreparedAttachments) : List InputItem :=
  if attachments.contentBlocks.isEmpty then items
  else replaceLast (InputItem.withBlocks attachments.contentBlocks) items

/-- The input of `create_message`. -/
def openaiInput (messages : List NeutralMessage) (attachments : Option PreparedAttachments) :
    List InputItem :=
  match attachments with
  | none => buildInput dumps messages
  | some a => injectAttachments (buildInput dumps messages) a

/-! ## What is said -/

/-- A piece of a conversation. -/
inductive Said : Type
  | user (b : Block)
  | model (b : Block)
  | answer (providerToolUseId text : String)

/-- The text of the result of a tool, for either client. -/
def answerText (provider : Provider) (result error : Option Json) : String :=
  match provider, error with
  | .anthropic, some error => toolErrorText repr error
  | .openai, some error => dumps error
  | _, none => dumps (result.getD .null)

def NeutralMessage.said (provider : Provider) : NeutralMessage → List Said
  | .user content => content.map .user
  | .assistant content => content.map .model
  | .tool _ providerToolUseId _ result error =>
    [.answer providerToolUseId (answerText repr dumps provider result error)]

def WireBlock.said (role : WireRole) : WireBlock → Said
  | .block b => if role = .user then .user b else .model b
  | .toolResult toolUseId content _ => .answer toolUseId content

def WireMessage.said (m : WireMessage) : List Said := m.content.map (WireBlock.said m.role)

def InputPart.said : InputPart → Said
  | .inputText t => .user (.text t)
  | .attached b => .user b

def InputItem.said : InputItem → List Said
  | .output b => [.model b]
  | .message content => content.map InputPart.said
  | .functionCallOutput callId result => [.answer callId result]

/-- The block of a piece, if it is one of an attachment. -/
def Said.media : Said → Option Block
  | .user b => if b.isMedia then some b else none
  | .model b => if b.isMedia then some b else none
  | .answer .. => none

/-! ## The translation -/

theorem said_wireMessage (m : NeutralMessage) :
    (wireMessage repr dumps m).said = m.said repr dumps .anthropic := by
  cases m with
  | user content => simp [wireMessage, WireMessage.said, NeutralMessage.said, WireBlock.said]
  | assistant content => simp [wireMessage, WireMessage.said, NeutralMessage.said, WireBlock.said]
  | tool _ _ _ _ error => cases error <;> rfl

/-- Anthropic is told what the messages say. -/
theorem said_buildProviderMessages (messages : List NeutralMessage) :
    (buildProviderMessages repr dumps messages).flatMap WireMessage.said =
      messages.flatMap (NeutralMessage.said repr dumps .anthropic) := by
  rw [buildProviderMessages, List.flatMap_map]
  exact congrArg (messages.flatMap ·) (funext (said_wireMessage repr dumps))

/-- The user has said texts, and the model nothing of the form of an attachment. -/
def NeutralMessage.Plain : NeutralMessage → Prop
  | .user content => ∀ b ∈ content, ∃ t, b = .text t
  | .assistant content => ∀ b ∈ content, b.isMedia = false
  | .tool .. => True

theorem said_inputItems {m : NeutralMessage} (h : m.Plain) :
    (inputItems dumps m).flatMap InputItem.said = m.said repr dumps .openai := by
  cases m with
  | user content =>
    have hparts : (content.filterMap Block.inputPart).map InputPart.said = content.map .user := by
      induction content with
      | nil => rfl
      | cons b content ih =>
        obtain ⟨text, rfl⟩ := h b (List.mem_cons_self ..)
        have htail : NeutralMessage.Plain (.user content) :=
          fun b hb => h b (List.mem_cons_of_mem _ hb)
        simp [Block.inputPart, InputPart.said, ih htail]
    simpa [inputItems, userItemFromBlocks, InputItem.said, NeutralMessage.said] using hparts
  | assistant content => 
    simp [inputItems, InputItem.said, NeutralMessage.said, List.flatMap_map, ← List.map_eq_flatMap]
  | tool _ _ _ _ error => cases error <;> rfl

/-- OpenAI is told what the messages say, where the user has said texts. -/
theorem said_buildInput {messages : List NeutralMessage} (h : ∀ m ∈ messages, m.Plain) :
    (buildInput dumps messages).flatMap InputItem.said =
      messages.flatMap (NeutralMessage.said repr dumps .openai) := by
  rw [buildInput, List.flatMap_assoc]
  exact List.flatMap_congr fun m hm => said_inputItems repr dumps (h m hm)

end Translation

/-! ## The attachments -/

/-- What may follow the attachments: what the model has said, and for OpenAI the results of tools. -/
def Said.Follows (provider : Provider) : Said → Prop
  | .user _ => False
  | .model _ => True
  | .answer .. => provider = .openai

/-- The blocks are inserted into what is said, in one piece, behind everything of the user. -/
def Inserts (provider : Provider) (blocks : List Block) (said said' : List Said) : Prop :=
  ∃ before after, said = before ++ after ∧ (∀ s ∈ after, s.Follows provider) ∧
    said' = before ++ blocks.map .user ++ after

section Inserts

variable {α : Type} {f : α → Option α} {said : α → List Said} {blocks : List Block} {l : List α}
variable {a a' : α} {provider : Provider}

/-- The attachments go to the last element to which they can be added. -/
theorem replaceLast_inserts (hadd : ∀ a a', f a = some a' → said a' = said a ++ blocks.map .user)
    (hnone : ∀ a ∈ l, f a = none → ∀ s ∈ said a, s.Follows provider) (ha : a ∈ l) (h : f a = some a') :
    Inserts provider blocks (l.flatMap said) ((replaceLast f l).flatMap said) := by
  obtain ⟨l₁, c, c', l₂, hafter, hc, rfl, hreplace⟩ := exists_replaceLast ha h
  refine ⟨(l₁ ++ [c]).flatMap said, l₂.flatMap said, by simp, fun s hs => ?_, ?_⟩
  · obtain ⟨x, hx, hs⟩ := List.mem_flatMap.1 hs
    exact hnone x (List.mem_append_right _ (List.mem_cons_of_mem _ hx)) (hafter x hx) s hs
  · rw [hreplace]
    simp [hadd c c' hc]

theorem inserts_nil (provider : Provider) (said : List Said) : Inserts provider [] said said :=
  ⟨said, [], by simp, by simp, by simp⟩

theorem WireMessage.said_withBlocks {m m' : WireMessage} (h : m.withBlocks blocks = some m') :
    m'.said = m.said ++ blocks.map .user := by
  unfold WireMessage.withBlocks at h
  split at h
  · rename_i hrole
    obtain rfl := Option.some.inj h
    simp [WireMessage.said, hrole, WireBlock.said]
  · cases h

/-- A message without room for attachments is one of the model. -/
theorem wireMessage_follows (repr dumps : Json → String) {m : NeutralMessage}
    (h : (wireMessage repr dumps m).withBlocks blocks = none) :
    ∀ s ∈ (wireMessage repr dumps m).said, s.Follows .anthropic := by
  cases m with
  | user => cases h
  | assistant content =>
    rw [said_wireMessage]
    simp [NeutralMessage.said, Said.Follows]
  | tool _ _ _ _ error => cases error <;> cases h

theorem InputItem.said_withBlocks {i i' : InputItem} (h : i.withBlocks blocks = some i') :
    i'.said = i.said ++ blocks.map .user := by
  cases i with
  | message content =>
    obtain rfl := Option.some.inj h
    simp [InputItem.said, InputPart.said]
  | output => cases h
  | functionCallOutput => cases h

theorem InputItem.follows {i : InputItem} (h : i.withBlocks blocks = none) :
    ∀ s ∈ i.said, s.Follows .openai := by
  cases i with
  | message content => cases h
  | output => simp [InputItem.said, Said.Follows]
  | functionCallOutput => simp [InputItem.said, Said.Follows]

/-- The attachments go to the last element to which they can be added, if there are any. -/
theorem inserts_of_mem (hadd : ∀ a a', f a = some a' → said a' = said a ++ blocks.map .user)
    (hnone : ∀ a ∈ l, f a = none → ∀ s ∈ said a, s.Follows provider) (ha : a ∈ l) (h : f a = some a') :
    Inserts provider blocks (l.flatMap said)
      ((if blocks.isEmpty then l else replaceLast f l).flatMap said) := by
  split
  · rename_i hempty
    obtain rfl := List.isEmpty_iff.1 hempty
    exact inserts_nil _ _
  · exact replaceLast_inserts hadd hnone ha h

/-- They are at the end, if they can be added to the last element. -/
theorem inserted_at_end (hadd : ∀ a a', f a = some a' → said a' = said a ++ blocks.map .user)
    (h : f a = some a') :
    (if blocks.isEmpty then l ++ [a] else replaceLast f (l ++ [a])).flatMap said =
      (l ++ [a]).flatMap said ++ blocks.map .user := by
  split
  · rename_i hempty
    simp [List.isEmpty_iff.1 hempty]
  · rw [replaceLast_append h]
    simp [hadd a a' h]

/-- What is inserted are the only attachments, if there were none. -/
theorem Inserts.media {before after : List Said} (h : Inserts provider blocks before after)
    (hbefore : ∀ s ∈ before, s.media = none) (hblocks : ∀ b ∈ blocks, b.isMedia = true) :
    after.filterMap Said.media = blocks := by
  obtain ⟨before, rest, rfl, -, rfl⟩ := h
  have hnone : ∀ l : List Said, (∀ s ∈ l, s.media = none) → l.filterMap Said.media = [] :=
    fun l hl => List.filterMap_eq_nil_iff.2 hl
  have hall : (blocks.map Said.user).filterMap Said.media = blocks := by
    rw [List.filterMap_map]
    refine (List.filterMap_congr fun b hb => ?_).trans List.filterMap_some
    simp [Said.media, hblocks b hb]
  rw [List.filterMap_append, List.filterMap_append, hall,
    hnone before fun s hs => hbefore s (List.mem_append_left _ hs),
    hnone rest fun s hs => hbefore s (List.mem_append_right _ hs)]
  simp

end Inserts

/-! ## A call -/

section Calls

variable (repr dumps : Json → String)

/-- What the messages of a call say. -/
def LLMRequest.said (req : LLMRequest) : List Said :=
  req.messages.flatMap (NeutralMessage.said repr dumps req.provider)

/-- What the client of a call sends. -/
def LLMRequest.sent (req : LLMRequest) : List Said :=
  match req.provider with
  | .anthropic => (anthropicMessages repr dumps req.messages req.attachments).flatMap WireMessage.said
  | .openai => (openaiInput dumps req.messages req.attachments).flatMap InputItem.said

/-- The blocks of the attachments of a call. -/
def attachedBlocks (attachments : Option PreparedAttachments) : List Block :=
  (attachments.map (·.contentBlocks)).getD []

theorem anthropicMessages_eq (messages : List NeutralMessage) (attachments : Option PreparedAttachments) :
    anthropicMessages repr dumps messages attachments =
      if (attachedBlocks attachments).isEmpty then buildProviderMessages repr dumps messages
      else replaceLast (WireMessage.withBlocks (attachedBlocks attachments))
        (buildProviderMessages repr dumps messages) := by
  cases attachments <;> rfl

theorem openaiInput_eq (messages : List NeutralMessage) (attachments : Option PreparedAttachments) :
    openaiInput dumps messages attachments =
      if (attachedBlocks attachments).isEmpty then buildInput dumps messages
      else replaceLast (InputItem.withBlocks (attachedBlocks attachments)) (buildInput dumps messages) := by
  cases attachments <;> rfl

/-- The attachments of a call are sent with a message of the user. -/
theorem LLMRequest.sent_inserts {req : LLMRequest} (hplain : ∀ m ∈ req.messages, m.Plain)
    {content : List Block} (hu : .user content ∈ req.messages) :
    Inserts req.provider (attachedBlocks req.attachments) (req.said repr dumps) (req.sent repr dumps) := by
  unfold LLMRequest.said LLMRequest.sent
  cases req.provider with
  | anthropic =>
    rw [anthropicMessages_eq, ← said_buildProviderMessages]
    refine inserts_of_mem (fun _ _ => WireMessage.said_withBlocks) (fun w hw hnone => ?_)
      (List.mem_map_of_mem hu) rfl
    obtain ⟨m, -, rfl⟩ := List.mem_map.1 hw
    exact wireMessage_follows repr dumps hnone
  | openai =>
    rw [openaiInput_eq, ← said_buildInput repr dumps hplain]
    exact inserts_of_mem (fun _ _ => InputItem.said_withBlocks)
      (fun _ _ => InputItem.follows)
      (List.mem_flatMap.2 ⟨_, hu, List.mem_singleton_self _⟩) rfl

/-- They are at the very end, if the last message is one of the user. -/
theorem LLMRequest.sent_at_end {req : LLMRequest} (hplain : ∀ m ∈ req.messages, m.Plain)
    {before : List NeutralMessage} {content : List Block}
    (hlast : req.messages = before ++ [.user content]) :
    req.sent repr dumps = req.said repr dumps ++ (attachedBlocks req.attachments).map .user := by
  unfold LLMRequest.said LLMRequest.sent
  cases req.provider with
  | anthropic =>
    rw [anthropicMessages_eq, ← said_buildProviderMessages, hlast, buildProviderMessages, List.map_append]
    exact inserted_at_end (fun _ _ => WireMessage.said_withBlocks) rfl
  | openai =>
    rw [openaiInput_eq, ← said_buildInput repr dumps hplain, hlast, buildInput, List.flatMap_append]
    exact inserted_at_end (fun _ _ => InputItem.said_withBlocks) rfl

/-- Without attachments a client sends what the messages say. -/
theorem LLMRequest.sent_eq_said {req : LLMRequest} (hplain : ∀ m ∈ req.messages, m.Plain)
    (hnone : attachedBlocks req.attachments = []) : req.sent repr dumps = req.said repr dumps := by
  unfold LLMRequest.said LLMRequest.sent
  cases req.provider with
  | anthropic =>
    rw [anthropicMessages_eq, hnone]
    exact said_buildProviderMessages repr dumps req.messages
  | openai =>
    rw [openaiInput_eq, hnone]
    exact said_buildInput repr dumps hplain

/-- What the history says is no attachment. -/
theorem NeutralMessage.Plain.media {m : NeutralMessage} (h : m.Plain) (provider : Provider) :
    ∀ s ∈ m.said repr dumps provider, s.media = none := by
  intro s hs
  cases m with
  | user content =>
    obtain ⟨b, hb, rfl⟩ := List.mem_map.1 hs
    obtain ⟨t, rfl⟩ := h b hb
    rfl
  | assistant content =>
    obtain ⟨b, hb, rfl⟩ := List.mem_map.1 hs
    have hmedia : b.isMedia = false := h b hb
    simp [Said.media, hmedia]
  | tool =>
    obtain rfl := List.mem_singleton.1 hs
    rfl

end Calls

end ChatBackend.Chat

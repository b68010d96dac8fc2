import ChatBackend.Chat.Repository

/-!
# The content of a turn

The user text of a turn, the attachments that go with its first provider call, and the
provider-neutral messages that are rebuilt from the stored steps before every call.
-/

namespace ChatBackend.Chat

/-! ## Text -/

/-- `str.isspace` of one character. -/
def isSpace (c : Char) : Bool :=
  let n := c.toNat
  (9 ≤ n && n ≤ 13) || (28 ≤ n && n ≤ 32) || n = 0x85 || n = 0xa0 || n = 0x1680 ||
    (0x2000 ≤ n && n ≤ 0x200a) || n = 0x2028 || n = 0x2029 || n = 0x202f || n = 0x205f || n = 0x3000

/-- `not s.strip()`. -/
def isBlank (s : String) : Bool := s.toList.all isSpace

/-- `str.strip`. -/
def strip (s : String) : String :=
  String.ofList ((s.toList.dropWhile isSpace).reverse.dropWhile isSpace).reverse

theorem strip_eq_self {s : String} (h : ∀ c ∈ s.toList, isSpace c = false) : strip s = s := by
  have hself : ∀ l : List Char, (∀ c ∈ l, isSpace c = false) → l.dropWhile isSpace = l := by
    intro l hl
    cases l with
    | nil => rfl
    | cons c l => exact List.dropWhile_cons_of_neg (by simp [hl c (.head _)])
  rw [strip, hself _ h, hself _ fun c hc => h c (List.mem_reverse.1 hc), List.reverse_reverse,
    String.ofList_toList]

/-- `s or None`. -/
def orNone (s : String) : Option String := if s = "" then none else some s

/-- `resolved_action_prompt`: a blank prompt counts as absent, any other is kept as it is. -/
def resolveActionPrompt (actionPrompt : Option String) : Option String :=
  actionPrompt.filter fun p => !isBlank p

/-- `_compose_turn0_text`. -/
def composeTurn0Text (block : Option String) (msg : String) : String :=
  if isBlank msg then block.getD ""
  else
    match block with
    | some block => block ++ "\n\n" ++ msg
    | none => msg

/-! ## Attachments -/

/-- `att.filename or "file"`. -/
def AttachmentIn.name (att : AttachmentIn) : String := (att.filename.bind orNone).getD "file"

/-- `_placeholder`. -/
def placeholder (att : AttachmentIn) (decodedSize : ℕ) : Block :=
  .text ("[attachment: " ++ att.mediaType ++ " \"" ++ att.name ++ "\", " ++ toString decodedSize ++
    "B — отправлено в первом обращении к модели]")

/-- The text of an inlined text file. -/
def fencedText (att : AttachmentIn) (text : Option String) : String :=
  att.name ++ "\n```\n" ++ text.getD "" ++ "\n```"

/-- `_content_block`: the block of one attachment for a provider. -/
def contentBlock (att : AttachmentIn) (text : Option String) : Provider → Block
  | .anthropic =>
    if att.type = "image" then .media "image" att.mediaType "" att.data
    else if att.type = "document" then .media "document" "application/pdf" "" att.data
    else .media "text" "" "" (fencedText att text)
  | .openai =>
    let dataUri := "data:" ++ att.mediaType ++ ";base64," ++ att.data
    if att.type = "image" then .media "input_image" "" "" dataUri
    else if att.type = "document" then .media "input_file" "" att.name dataUri
    else .media "input_text" "" "" (fencedText att text)

/-- The loop of `prepare_attachments`; `totalDecoded` are the bytes of the attachments before. -/
def prepareEach (cfg : Config) (provider : Provider) :
    ℕ → List AttachmentIn → Except AppError PreparedAttachments
  | _, [] => .ok ⟨[], []⟩
  | totalDecoded, att :: attachments =>
    match cfg.decodeAttachment totalDecoded att with
    | .error message => .error (.validationFailed message)
    | .ok (size, text, totalDecoded) =>
      match prepareEach cfg provider totalDecoded attachments with
      | .error e => .error e
      | .ok rest => .ok ⟨contentBlock att text provider :: rest.contentBlocks,
          placeholder att size :: rest.placeholders⟩

/-- `prepare_attachments`. -/
def prepareAttachments (cfg : Config) (attachments : List AttachmentIn) (provider : Provider) :
    Except AppError PreparedAttachments :=
  if cfg.attachmentMaxCount < attachments.length then
    .error (.validationFailed "too many attachments")
  else prepareEach cfg provider 0 attachments

/-- `if attachments: prepared = prepare_attachments(..)`. -/
def prepareOptional (cfg : Config) (attachments : List AttachmentIn) (provider : Provider) :
    Except AppError (Option PreparedAttachments) :=
  if attachments.isEmpty then .ok none else (prepareAttachments cfg attachments provider).map some

/-! ## Workspace files -/

/-- `_IMAGE_TYPES`. -/
def imageTypes : List String := ["image/jpeg", "image/png", "image/gif", "image/webp"]

/-- `_image_block`. -/
def imageBlock (f : WorkspaceFile) : Provider → Block
  | .anthropic => .media "image" f.mediaType "" f.data
  | .openai => .media "input_image" "" "" ("data:" ++ f.mediaType ++ ";base64," ++ f.data)

/-- The block of the text of a file. -/
def fileTextBlock (f : WorkspaceFile) (snippet : String) (provider : Provider) : Block :=
  let label := "[Файл проекта: " ++ f.filename ++ "]\n" ++ snippet
  match provider with
  | .anthropic => .media "text" "" "" label
  | .openai => .media "input_text" "" "" label

/-- The loop of `_build_file_attachments`, after `used` characters of text: an image does not count
against the limit, and the text that crosses it is cut off. -/
def fileBlocks (maxChars : ℕ) (provider : Provider) : ℕ → List WorkspaceFile → List Block
  | _, [] => []
  | used, f :: files =>
    if f.mediaType ∈ imageTypes then imageBlock f provider :: fileBlocks maxChars provider used files
    else
      match f.extractedText.bind orNone with
      | none => fileBlocks maxChars provider used files
      | some text =>
        if maxChars ≤ used then fileBlocks maxChars provider used files
        else
          let snippet := String.ofList (text.toList.take (maxChars - used))
          fileTextBlock f snippet provider ::
            fileBlocks maxChars provider (used + snippet.length) files

/-- `_build_file_attachments`. -/
def buildFileAttachments (cfg : Config) (files : List WorkspaceFile) (provider : Provider) :
    Option PreparedAttachments :=
  match fileBlocks cfg.workspaceContextMaxChars provider 0 files with
  | [] => none
  | blocks => some ⟨blocks, []⟩

/-- `context_for_session`, but for the instructions. -/
def contextForSession (cfg : Config) (workspaceId userId : ℕ) (provider : Provider) :
    ChatProg (Option PreparedAttachments) := do
  match ← workspaceFiles workspaceId userId with
  | none => pure none
  | some files => pure (buildFileAttachments cfg files provider)

/-- `_merge_attachments`: the blocks of the workspace come first, and leave no placeholder. -/
def mergeAttachments : Option PreparedAttachments → Option PreparedAttachments →
    Option PreparedAttachments
  | none, none => none
  | chat, workspace =>
    some ⟨(workspace.map (·.contentBlocks)).getD [] ++ (chat.map (·.contentBlocks)).getD [],
      (chat.map (·.placeholders)).getD []⟩

/-- `user_payload`. -/
def userPayload (text : String) (prepared : Option PreparedAttachments)
    (actionPrompt : Option String) : Payload :=
  .user ((if text = "" then [] else [.text text]) ++ (prepared.map (·.placeholders)).getD [])
    actionPrompt

/-! ## Messages -/

/-- The message of a step: a user step with a non-empty action prompt ends with a block for it. -/
def Payload.message : Payload → NeutralMessage
  | .user content actionPrompt =>
    match actionPrompt.bind orNone with
    | some prompt => .user (content ++ [.text prompt])
    | none => .user content
  | .assistant content => .assistant content
  | .tool id providerToolUseId toolName result error =>
    .tool id providerToolUseId toolName result error

/-- The loop of `_build_messages`. -/
def messagesOf (steps : List Payload) : List NeutralMessage := steps.map Payload.message

/-- `_build_messages`. -/
def buildMessages (temporary : Bool) (sessionId : ℕ) : ChatProg (List NeutralMessage) := do
  let steps ← listSteps temporary sessionId
  pure (messagesOf steps)

end ChatBackend.Chat

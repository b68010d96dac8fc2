import ChatBackend.Chat.Orchestrator
import ChatBackend.Chats.Wire

/-!
# The schema of a run

`ChatRunRequest`, the body of a run: the constraints of its fields and `_check_sizes`, which checks
the combinations of them in a fixed order. A body that is accepted gives the arguments of `run`.
-/

namespace ChatBackend.Chat

open Chats (Dict)

/-- `ChatRunRequest`, but for the type of the assistant, which nothing here reads. -/
structure ChatRunRequest where
  projectId : Option String
  sessionId : Option ℕ
  workspaceProjectId : Option ℕ
  model : Option String
  message : String
  mode : Mode
  dialogMode : Option String
  attachments : Option (List AttachmentIn)
  context : Option Dict
  actionPrompt : Option String
  editMessageStepId : Option ℕ
  temporary : Bool
  history : Option (List TemporaryTurn)

/-- The limits that the schema reads, in bytes. -/
structure SizeLimits where
  context : ℕ
  message : ℕ
  actionPrompt : ℕ

/-- The types of the attachments. -/
def attachmentMediaTypes : List String :=
  ["image/jpeg", "image/png", "image/gif", "image/webp", "application/pdf", "text/plain", "text/markdown",
    "text/csv", "application/json"]

/-- The fields of `AttachmentIn`. -/
def AttachmentIn.valid (att : AttachmentIn) : Bool :=
  ["image", "document", "text"].contains att.type && attachmentMediaTypes.contains att.mediaType &&
    att.filename.all (·.length ≤ 512) && 1 ≤ att.data.length

/-- The fields of `TemporaryTurn`. -/
def TemporaryTurn.valid (turn : TemporaryTurn) : Bool := 1 ≤ turn.content.length

/-- `len(s.encode("utf-8"))`. -/
def byteLength (s : String) : ℕ := s.utf8ByteSize

namespace ChatRunRequest

variable (limits : SizeLimits) (dumps : Dict → String) (body : ChatRunRequest)

/-- The fields by themselves. -/
def fieldsValid : Bool :=
  (body.attachments.getD []).all AttachmentIn.valid && (body.history.getD []).all TemporaryTurn.valid

/-- `has_action_prompt`. -/
def hasActionPrompt : Bool := body.actionPrompt.any fun p => !isBlank p

/-- The checks of `_check_sizes`, in order, with their errors; `dumps` is `json.dumps`. -/
def sizeChecks : List (Bool × String) :=
  [(body.temporary && body.sessionId.isSome, "temporary chat cannot be resumed (sessionId not allowed)"),
    (body.temporary && body.editMessageStepId.isSome,
      "temporary chat cannot edit a message (editMessageStepId)"),
    (body.temporary && body.projectId.isSome, "temporary chat cannot use a projectId"),
    (body.temporary && body.workspaceProjectId.isSome, "temporary chat cannot use a workspaceProjectId"),
    (body.history.isSome && !body.temporary,
      "history is only allowed for a temporary chat (temporary=true)"),
    ((body.history.getD []).head?.any (!·.fromUser), "history must start with a user turn"),
    (limits.context < ((body.history.getD []).map (byteLength ·.content)).sum,
      "history exceeds size limit"),
    (body.editMessageStepId.isSome && body.sessionId.isNone, "editMessageStepId requires sessionId"),
    (body.projectId.any isBlank, "projectId must be a non-empty string when provided"),
    (body.model.any isBlank, "model must be a non-empty string when provided"),
    (body.dialogMode.any isBlank, "dialogMode must be a non-empty string when provided"),
    (body.actionPrompt.any (limits.actionPrompt < byteLength ·), "actionPrompt exceeds size limit"),
    (body.temporary && body.hasActionPrompt && isBlank body.message,
      "temporary chat with actionPrompt requires a non-empty message"),
    (isBlank body.message && (body.attachments.getD []).isEmpty && !body.hasActionPrompt,
      "message, actionPrompt or at least one attachment is required"),
    (limits.message < byteLength body.message, "message exceeds size limit"),
    (body.context.any fun d => limits.context < byteLength (dumps d), "context exceeds size limit")]

/-- `_check_sizes`: the first check that fails. -/
def checkSizes : Except String Unit :=
  match (body.sizeChecks limits dumps).find? (·.1) with
  | some (_, message) => .error message
  | none => .ok ()

/-- The body passes the schema. -/
def Accepted : Prop := body.fieldsValid = true ∧ body.checkSizes limits dumps = .ok ()

/-- The arguments of `run`. -/
def toRun (userId : ℕ) : RunRequest where
  userId := userId
  projectId := body.projectId
  sessionId := body.sessionId
  message := body.message
  mode := body.mode
  dialogMode := body.dialogMode
  attachments := body.attachments.getD []
  model := body.model
  workspaceProjectId := body.workspaceProjectId
  context := body.context.map .obj
  actionPrompt := body.actionPrompt
  editMessageStepId := body.editMessageStepId
  temporary := body.temporary
  history := body.history.getD []

variable {limits dumps body}

/-- An accepted body fails none of the checks. -/
theorem Accepted.passes (h : body.Accepted limits dumps) :
    ∀ check ∈ body.sizeChecks limits dumps, check.1 = false := by
  have hsizes := h.2
  unfold checkSizes at hsizes
  split at hsizes
  · cases hsizes
  · rename_i hfind
    intro check hcheck
    simpa using List.find?_eq_none.1 hfind check hcheck

/-- **A turn has content**: a message, an attachment or a prompt. -/
theorem Accepted.content (h : body.Accepted limits dumps) :
    isBlank body.message = false ∨ body.attachments.getD [] ≠ [] ∨
      ∃ p, resolveActionPrompt body.actionPrompt = some p := by
  have hcheck := h.passes
    (isBlank body.message && (body.attachments.getD []).isEmpty && !body.hasActionPrompt,
      "message, actionPrompt or at least one attachment is required") (by simp [sizeChecks])
  simp only [Bool.and_eq_false_iff, Bool.not_eq_false'] at hcheck
  rcases hcheck with (hmessage | hattachments) | hprompt
  · exact .inl hmessage
  · exact .inr (.inl (by simpa using hattachments))
  · refine .inr (.inr ?_)
    obtain ⟨p, hp, hblank⟩ := (Option.any_eq_true _ _).1 hprompt
    exact ⟨p, by rw [resolveActionPrompt, hp, Option.filter_some, if_pos hblank]⟩

end ChatRunRequest

end ChatBackend.Chat

import ChatBackend.Foundations.Alone
import ChatBackend.Website.Turns

/-!
# The gate of a new session

`run` looks twice at the session that it resumes: once to know if it has to check the model, the
dialog mode and the workspace of the request, and once more to open it. Between two of its
statements the tables may have become anything, and time passes. As long as a session that was alive
at the first look is alive at the second, every session that is created has passed the checks
(`session_gate`).
-/

namespace ChatBackend.Chat

open Prog Store

/-! ## A run among others -/

/-- A statement, with its answer. -/
abbrev Look : Type := (s : ChatStmt) × s.Resp

/-- What a run holds, and what it has looked at. -/
structure Seen where
  held : Held ChatOp ChatMem
  looks : List Look

namespace Seen

variable (l : Seen)

/-- The user had no such session. -/
def Missing (sessionId userId : ℕ) : Prop := (⟨.getSession sessionId userId, none⟩ : Look) ∈ l.looks

/-- The session was expired. -/
def Expired (sessionId : ℕ) : Prop :=
  ∃ row : ChatSession, row.id = sessionId ∧ (⟨.isExpired row, true⟩ : Look) ∈ l.looks

/-- The session was not expired. -/
def Alive (sessionId : ℕ) : Prop :=
  ∃ row : ChatSession, row.id = sessionId ∧ (⟨.isExpired row, false⟩ : Look) ∈ l.looks

/-- The run has inserted this session. -/
def Created (row : ChatSession) : Prop := ∃ userId projectId mode dialogMode model workspace,
  (⟨.insertSession userId projectId mode dialogMode model workspace, some row⟩ : Look) ∈ l.looks

/-- What can be answered: an id that is gone is not given again, a row that has been loaded and is
expired stays so, and a workspace has its owner as long as there is a row of it. -/
def Possible (owner : ℕ → Option ℕ) : (s : ChatStmt) → s.Resp → Prop
  | .getSession sessionId userId, found => l.Missing sessionId userId → found = none
  | .isExpired row, expired => l.Expired row.id → expired = true
  | .ownsWorkspace w userId, owned => owned = true → owner w = some userId
  | _, _ => True

/-- What is answered when a session that was alive still is. -/
def Steady : (s : ChatStmt) → s.Resp → Prop
  | .getSession sessionId _, found => l.Alive sessionId → found ≠ none
  | .isExpired row, expired => l.Alive row.id → expired = false
  | _, _ => True

/-- An action of the run, on any tables. -/
inductive Step (llm : LLMAnswer → Prop) (ok : Seen → (s : ChatStmt) → s.Resp → Prop) :
    Seen → (e : TxAct ChatStmt) → TxAct.Resp ChatStmt.Resp e → Seen → Prop
  | stmt {l : Seen} {s : ChatStmt} {r : s.Resp} {held : Held ChatOp ChatMem}
      (h : AloneStep (chatStore llm) l.held (.stmt s) r held) (hok : ok l s r) :
      Step llm ok l (.stmt s) r ⟨held, l.looks ++ [⟨s, r⟩]⟩
  | commit {l : Seen} : Step llm ok l .commit () ⟨⟨[], l.held.mem⟩, l.looks⟩
  | rollback {l : Seen} : Step llm ok l .rollback () ⟨⟨[], l.held.mem⟩, l.looks⟩

end Seen

/-- A session that has passed the checks. -/
structure ChatSession.Valid (cfg : Config) (owner : ℕ → Option ℕ) (row : ChatSession) : Prop where
  model : ∀ m, row.model = some m → (cfg.allowedModelsFor cfg.activeProvider).contains m = true
  known : row.dialogMode ∈ dialogModes
  permitted : row.dialogMode ∈ providerGatedDialogModes → cfg.activeProvider = .openai
  workspace : ∀ w, row.workspaceProjectId = some w → owner w = some row.userId

/-- The sessions that the run has inserted have passed the checks. -/
def Seen.Gated (cfg : Config) (owner : ℕ → Option ℕ) (l : Seen) : Prop :=
  ∀ row, l.Created row → row.Valid cfg owner

section Rules

variable {α : Type} {llm : LLMAnswer → Prop} {ok : Seen → (s : ChatStmt) → s.Resp → Prop}
variable {C : TxAct ChatStmt → Seen → Prop} {Q : Except AppError α → Seen → Prop} {l : Seen}
variable {cfg : Config} {owner : ℕ → Option ℕ}

/-- What a statement leaves. -/
theorem Seen.Step.look {s : ChatStmt} {r : s.Resp} {l' : Seen}
    (h : Seen.Step llm ok l (.stmt s) r l') : ∃ held,
      AloneStep (chatStore llm) l.held (.stmt s) r held ∧ ok l s r ∧ l' = ⟨held, l.looks ++ [⟨s, r⟩]⟩ := by
  cases h with
  | stmt hact hok => exact ⟨_, hact, hok, rfl⟩

theorem wp_look {s : ChatStmt} {k : s.Resp → ChatProg α} (hC : C (.stmt s) l)
    (h : ∀ r held, AloneStep (chatStore llm) l.held (.stmt s) r held → ok l s r →
      (k r).wp (Seen.Step llm ok) C Q ⟨held, l.looks ++ [⟨s, r⟩]⟩) :
    (Prog.act (TxAct.stmt s) k : ChatProg α).wp (Seen.Step llm ok) C Q l := by
  refine ⟨hC, fun r l' hstep => ?_⟩
  obtain ⟨held, hact, hok, rfl⟩ := hstep.look
  exact h r held hact hok

/-- An answer is one that the store allows on some tables. -/
theorem allowed_of_look {s : ChatStmt} {r : s.Resp} {held held' : Held ChatOp ChatMem}
    (h : AloneStep (chatStore llm) held (.stmt s) r held') : ∃ g m d, s.Allowed llm g m d r := by
  obtain ⟨g, d, ops, gen, hexec, -⟩ := h.exec
  exact ⟨g, held.mem, _, hexec.1⟩

/-- A session that is found has the id that was asked for. -/
theorem id_of_look {sessionId userId : ℕ} {held held' : Held ChatOp ChatMem} {row : ChatSession}
    (h : AloneStep (chatStore llm) held (.stmt (.getSession sessionId userId)) (some row) held') :
    row.id = sessionId := by
  obtain ⟨g, m, d, hfound⟩ := allowed_of_look h
  have hfind := List.find?_some (Eq.symm hfound)
  simp only [decide_eq_true_eq] at hfind
  exact hfind.1

/-- A session that is inserted has the values of the statement, with a dialog mode that the database
knows. -/
theorem row_of_look {userId : ℕ} {projectId : Option String} {mode : Mode} {dialogMode : String}
    {model : Option String} {workspace : Option ℕ} {held held' : Held ChatOp ChatMem}
    {row : ChatSession} (h : AloneStep (chatStore llm) held (.stmt (.insertSession userId projectId mode
      dialogMode model workspace)) (some row) held') :
    ∃ g, row = ⟨g, userId, projectId, mode, dialogMode, model, workspace⟩ := by
  obtain ⟨g, m, d, hrow⟩ := allowed_of_look h
  have hrow : some row = if dialogMode ∈ dialogModes then some _ else none := hrow
  split at hrow
  · exact ⟨g, Option.some.inj hrow⟩
  · cases hrow

/-- A statement that is no insertion of a session. -/
def KeepsSessions : TxAct ChatStmt → Prop
  | .stmt (.insertSession ..) => False
  | _ => True

theorem Seen.Gated.looked (h : l.Gated cfg owner) (s : ChatStmt) (r : s.Resp)
    (held : Held ChatOp ChatMem) (hs : KeepsSessions (.stmt s)) :
    Seen.Gated cfg owner ⟨held, l.looks ++ [⟨s, r⟩]⟩ := by
  rintro row ⟨userId, projectId, mode, dialogMode, model, workspace, hmem⟩
  rcases List.mem_append.1 hmem with hmem | hmem
  · exact h row ⟨_, _, _, _, _, _, hmem⟩
  · cases List.mem_singleton.1 hmem
    exact hs.elim

theorem Seen.Gated.insert {userId : ℕ} {projectId : Option String} {mode : Mode}
    {dialogMode : String} {model : Option String} {workspace : Option ℕ} {inserted : Option ChatSession}
    {held : Held ChatOp ChatMem} (h : l.Gated cfg owner)
    (hrow : ∀ row, inserted = some row → row.Valid cfg owner) :
    Seen.Gated cfg owner
      ⟨held, l.looks ++ [⟨.insertSession userId projectId mode dialogMode model workspace, inserted⟩]⟩ := by
  rintro row' ⟨userId', projectId', mode', dialogMode', model', workspace', hmem⟩
  rcases List.mem_append.1 hmem with hmem | hmem
  · exact h row' ⟨_, _, _, _, _, _, hmem⟩
  · cases List.mem_singleton.1 hmem
    exact hrow row' rfl

/-- A program that inserts no session. -/
theorem Seen.Gated.wp_only {p : ChatProg α} (h : l.Gated cfg owner) (hp : p.Only KeepsSessions) :
    p.wp (Seen.Step llm ok) (fun _ l => l.Gated cfg owner) (fun _ l' => l'.Gated cfg owner) l := by
  refine hp.wp_of (fun e he l hl => ⟨hl, fun r l' hs => ?_⟩) h
  cases hs with
  | stmt hact hok => exact hl.looked _ _ _ he
  | commit => exact hl
  | rollback => exact hl

/-- A program, and what follows it. -/
theorem Seen.Gated.wp_bind {β : Type} {p : ChatProg β} {f : β → ChatProg α}
    (hp : p.wp (Seen.Step llm ok) (fun _ l => l.Gated cfg owner) (fun _ l' => l'.Gated cfg owner) l)
    (hf : ∀ b l, l.Gated cfg owner → (f b).wp (Seen.Step llm ok) (fun _ l => l.Gated cfg owner)
      (fun _ l' => l'.Gated cfg owner) l) :
    (p.bind f).wp (Seen.Step llm ok) (fun _ l => l.Gated cfg owner) (fun _ l' => l'.Gated cfg owner)
      l := by
  rw [Prog.wp_bind]
  refine wp_mono (fun o l' h' => ?_) hp
  cases o with
  | ok b => exact hf b l' h'
  | error e => exact h'

end Rules

/-! ## The rest of a run inserts no session -/

section Only

variable {cfg : Config} {t : Turn}

theorem keeps_of_within {u : ℕ} {project : Option String} (e : TxAct ChatStmt)
    (h : Website.Within u project e) : KeepsSessions e := by
  cases e with
  | stmt s =>
    cases s with
    | insertSession => exact h
    | _ => trivial
  | commit => trivial
  | rollback => trivial

theorem keeps_of_only {α : Type} {p : ChatProg α} (h : p.Only (Website.Within 0 none)) :
    p.Only KeepsSessions := h.mono keeps_of_within

theorem keeps_stmt {s : ChatStmt} (hs : KeepsSessions (.stmt s)) :
    (TxProg.stmt s : ChatProg s.Resp).Only KeepsSessions := ⟨hs, fun _ => trivial⟩

theorem handleToolUse_keeps {result : LLMResult} {acc : Acc} :
    (handleToolUse cfg t result acc).Only KeepsSessions := by
  have hproject : (t.projectId : ChatProg (Option String)).Only KeepsSessions := by
    unfold Turn.projectId
    split
    · refine ⟨trivial, fun r => ?_⟩
      cases r with
      | none => trivial
      | some row => cases h : row.projectId <;> simp [h]
    · trivial
  refine .bind (keeps_of_only Website.pregenerateImages_within) fun pregen => ?_
  refine .bind (keeps_of_only Website.addStep_within) fun stepId => ?_
  refine .bind hproject fun projectId => ?_
  have hblocks : (handleBlocks cfg t projectId pregen result.toolUses acc []).Only
      (Website.Within t.userId projectId) := Website.handleBlocks_within fun _ h => h
  refine .bind (hblocks.mono keeps_of_within) fun r => ?_
  split <;> trivial

/-- The loop, by induction on the iterations that are left. -/
theorem generateRounds_keeps {provider : Provider} (n : ℕ) {attachments : Option PreparedAttachments}
    {acc : Acc} : (generateRounds cfg t provider n attachments acc).Only KeepsSessions := by
  induction n generalizing attachments acc with
  | zero => exact keeps_of_only Website.handleExhausted_within
  | succ n ih =>
    refine .bind (keeps_of_only Website.buildMessages_within) fun messages => ?_
    refine ⟨trivial, fun _ => ⟨trivial, fun answer => ?_⟩⟩
    cases answer with
    | error e => trivial
    | authError => exact keeps_of_only Website.handleAuthError_within
    | result result =>
      simp only [ret_bind]
      cases result.stopReason with
      | maxTokens => exact keeps_of_only Website.handleMaxTokens_within
      | endTurn => exact keeps_of_only Website.finalizeAssistant_within
      | toolUse =>
        simp only
        split
        · exact keeps_of_only Website.finalizeAssistant_within
        · refine .bind handleToolUse_keeps fun outcome => ?_
          cases outcome with
          | blocked out => trivial
          | client out => exact ⟨trivial, fun _ => trivial⟩
          | server acc => exact ⟨trivial, fun _ => ih⟩

theorem generate_keeps {userId : ℕ} {session : ChatSession} {messageStepId : ℕ} {temporary : Bool}
    {context : ChatProg (Option PreparedAttachments)} (hcontext : context.Only KeepsSessions) :
    (generate cfg userId session messageStepId temporary context).Only KeepsSessions := by
  refine .bind (.bind (keeps_stmt trivial) fun _ => .bind (keeps_stmt trivial) fun _ => trivial)
    fun p => ?_
  obtain ⟨decision, state⟩ := p
  cases decision with
  | blocked reason => trivial
  | allowed =>
    refine .bind ?_ fun key => .bind hcontext fun attachments => .bind ?_ fun out =>
      .bind (keeps_of_only Website.sweepIfImages_within) fun _ => trivial
    · unfold resolveApiKey
      split
      · trivial
      · refine ⟨trivial, fun r => ?_⟩
        cases r <;> trivial
    · unfold generateLoop
      split
      · exact ⟨trivial, fun _ => trivial⟩
      · exact generateRounds_keeps _

theorem workspaceAttachments_keeps {userId : ℕ} {session : ChatSession} :
    (workspaceAttachments cfg userId session).Only KeepsSessions := by
  unfold workspaceAttachments
  split
  · trivial
  · refine ⟨trivial, fun r => ?_⟩
    cases r <;> trivial

theorem truncateForEdit_keeps {temporary : Bool} {ctx : SessionContext} {messageStepId : Option ℕ} :
    (truncateForEdit temporary ctx messageStepId).Only KeepsSessions := by
  unfold truncateForEdit
  split
  · trivial
  split
  · trivial
  refine .bind ?_ fun r => ?_
  · unfold truncateFromMessageStep
    split
    · trivial
    · refine ⟨trivial, fun r => ?_⟩
      cases r with
      | none => trivial
      | some anchor => exact ⟨trivial, fun _ => ⟨trivial, fun _ => trivial⟩⟩
  · cases r <;> trivial

theorem liftExcept_keeps {α : Type} (x : Except AppError α) : (liftExcept x).Only KeepsSessions := by
  cases x <;> trivial

/-- What `run` does with its session. -/
def finishRun (cfg : Config) (req : RunRequest) (messageStepId : ℕ) (ctx : SessionContext) :
    ChatProg ChatRunOut := do
  truncateForEdit req.temporary ctx req.editMessageStepId
  let workspace ← workspaceAttachments cfg req.userId ctx.session
  let prepared ← liftExcept (prepareOptional cfg req.attachments cfg.activeProvider)
  let text := composeTurn0Text (cfg.renderContextBlock req.context) req.message
  let _ ← addStep req.temporary ctx.session.id messageStepId
    (userPayload text prepared (resolveActionPrompt req.actionPrompt)) none
  generate cfg req.userId ctx.session messageStepId req.temporary
    (pure (mergeAttachments prepared workspace))

theorem run_eq (req : RunRequest) : run cfg req = (do
    let messageStepId ← uuid4
    let syntheticId ← openRepository cfg req
    let ctx ← openSession cfg req syntheticId
    finishRun cfg req messageStepId ctx) := rfl

theorem finishRun_keeps {req : RunRequest} {messageStepId : ℕ} {ctx : SessionContext} :
    (finishRun cfg req messageStepId ctx).Only KeepsSessions :=
  .bind truncateForEdit_keeps fun _ => .bind workspaceAttachments_keeps fun _ =>
    .bind (liftExcept_keeps _) fun _ => .bind (keeps_of_only Website.addStep_within) fun _ =>
      generate_keeps trivial

theorem openRepository_keeps {req : RunRequest} : (openRepository cfg req).Only KeepsSessions := by
  have hseed : ∀ turns, (seedSteps cfg.activeProvider turns).Only KeepsSessions := by
    intro turns
    induction turns with
    | nil => trivial
    | cons turn turns ih => exact .bind (keeps_stmt trivial) fun _ => .bind ih fun _ => trivial
  unfold openRepository
  split
  · exact .bind (keeps_stmt trivial) fun _ => .bind (hseed _) fun _ =>
      .bind (keeps_stmt trivial) fun _ => trivial
  · trivial

end Only

/-! ## The gate -/

section Gate

variable {llm : LLMAnswer → Prop} {cfg : Config} {owner : ℕ → Option ℕ} {l : Seen}
variable {ok : Seen → (s : ChatStmt) → s.Resp → Prop}
variable {userId : ℕ} {projectId : Option String} {mode : Mode} {dialogMode : String}
variable {model : Option String} {workspace : Option ℕ}

/-- What another look keeps. -/
theorem Seen.Alive.look {sessionId : ℕ} (h : l.Alive sessionId) {held : Held ChatOp ChatMem}
    {look : Look} : Seen.Alive ⟨held, l.looks ++ [look]⟩ sessionId := by
  obtain ⟨row, hid, hmem⟩ := h
  exact ⟨row, hid, List.mem_append_left _ hmem⟩

/-- The values of a new session have passed the checks. -/
def Checked (cfg : Config) (owner : ℕ → Option ℕ) (userId : ℕ) (dialogMode : String)
    (model : Option String) (workspace : Option ℕ) : Prop :=
  ∀ g projectId mode,
    ChatSession.Valid cfg owner ⟨g, userId, projectId, mode, dialogMode, model, workspace⟩

theorem createSession_gated (h : l.Gated cfg owner)
    (hchecked : Checked cfg owner userId dialogMode model workspace) :
    (createSession userId projectId mode dialogMode model workspace).wp (Seen.Step llm ok)
      (fun _ l => l.Gated cfg owner) (fun _ l' => l'.Gated cfg owner) l := by
  refine wp_look h fun inserted held hact _ => ?_
  have hgated : Seen.Gated cfg owner ⟨held, l.looks ++
      [⟨.insertSession userId projectId mode dialogMode model workspace, inserted⟩]⟩ := by
    refine h.insert fun row hinserted => ?_
    subst hinserted
    obtain ⟨g, hrow⟩ := row_of_look hact
    exact hrow ▸ hchecked g projectId mode
  cases inserted <;> exact hgated

/-- The values have been checked: whatever is found now. -/
theorem getOrCreateSession_gated {sessionId : Option ℕ} (h : l.Gated cfg owner)
    (hchecked : Checked cfg owner userId dialogMode model workspace) :
    (getOrCreateSession userId projectId mode sessionId dialogMode model workspace).wp
      (Seen.Step llm ok) (fun _ l => l.Gated cfg owner) (fun _ l' => l'.Gated cfg owner) l := by
  cases sessionId with
  | none => exact createSession_gated h hchecked
  | some sid =>
    refine wp_look h fun found held _ _ => ?_
    have h₁ := h.looked (.getSession sid userId) found held trivial
    cases found with
    | none => exact createSession_gated h₁ hchecked
    | some existing =>
      refine wp_look h₁ fun expired held' _ _ => ?_
      have h₂ := h₁.looked (.isExpired existing) expired held' trivial
      cases expired with
      | true => exact createSession_gated h₂ hchecked
      | false => exact h₂

/-- The session was alive and still is: none is created. -/
theorem getOrCreateSession_steady {sid : ℕ} (h : l.Gated cfg owner) (halive : l.Alive sid)
    (hok : ∀ l s r, ok l s r → l.Steady s r) :
    (getOrCreateSession userId projectId mode (some sid) dialogMode model workspace).wp
      (Seen.Step llm ok) (fun _ l => l.Gated cfg owner) (fun _ l' => l'.Gated cfg owner) l := by
  refine wp_look h fun found held hact hfound => ?_
  have h₁ := h.looked (.getSession sid userId) found held trivial
  cases found with
  | none => exact absurd rfl (hok _ _ _ hfound halive)
  | some existing =>
    have hid := id_of_look hact
    refine wp_look h₁ fun expired held' _ hexpired => ?_
    have h₂ := h₁.looked (.isExpired existing) expired held' trivial
    have hfalse : expired = false := hok _ _ _ hexpired (by rw [hid]; exact halive.look)
    subst hfalse
    exact h₂

/-- The first look. -/
theorem firstLook_wp {Q : Except AppError Bool → Seen → Prop} {temporary : Bool}
    {sessionId : Option ℕ} (h : l.Gated cfg owner)
    (hQ : ∀ willCreate l', l'.Gated cfg owner → (willCreate = false → temporary = false ∧
      ∃ sid, sessionId = some sid ∧ l'.Alive sid) → Q (.ok willCreate) l') :
    (willCreateSession temporary userId sessionId).wp (Seen.Step llm ok)
      (fun _ l => l.Gated cfg owner) Q l := by
  cases sessionId with
  | none => exact hQ true l h nofun
  | some sid =>
    cases temporary with
    | true => exact hQ true l h nofun
    | false =>
      refine wp_look h fun found held hact _ => ?_
      have h₁ := h.looked (.getSession sid userId) found held trivial
      cases found with
      | none => exact hQ true _ h₁ nofun
      | some existing =>
        have hid := id_of_look hact
        refine wp_look h₁ fun expired held' _ _ => ?_
        refine hQ expired _ (h₁.looked _ _ _ trivial) fun hfalse => ⟨rfl, sid, rfl, existing, hid, ?_⟩
        exact List.mem_append_right _ (List.mem_singleton.2 (by rw [hfalse]))

theorem checkModel_ok (h : checkModel cfg model = .ok ()) (m : String) (hm : model = some m) :
    (cfg.allowedModelsFor cfg.activeProvider).contains m = true := by
  subst hm
  simp only [checkModel] at h
  split_ifs at h with hallowed
  exact hallowed

theorem checkDialogMode_ok (h : checkDialogMode cfg dialogMode = .ok ()) : dialogMode ∈ dialogModes ∧
    (dialogMode ∈ providerGatedDialogModes → cfg.activeProvider = .openai) := by
  unfold checkDialogMode at h
  split_ifs at h with hknown hgated
  refine ⟨by simpa using hknown, fun hmem => ?_⟩
  by_contra hprovider
  exact hgated ⟨hmem, hprovider⟩

/-- The session of a run whose values are known. -/
def openNew (req : RunRequest) (syntheticId : ℕ) (dialogMode : String) : ChatProg SessionContext :=
  if req.temporary then
    pure ⟨⟨syntheticId, req.userId, req.projectId, req.mode, dialogMode, req.model.map strip,
      req.workspaceProjectId⟩, true⟩
  else
    getOrCreateSession req.userId req.projectId req.mode req.sessionId dialogMode (req.model.map strip)
      req.workspaceProjectId

/-- What follows the first look in `openSession`. -/
def openWith (cfg : Config) (req : RunRequest) (syntheticId : ℕ) (willCreate : Bool) :
    ChatProg SessionContext := do
  let model := req.model.map strip
  liftExcept (if willCreate then checkModel cfg model else .ok ())
  checkWorkspace req.userId (if willCreate then req.workspaceProjectId else none)
  let dialogMode ← resolveDialogMode req.userId req.dialogMode
  liftExcept (if willCreate then checkDialogMode cfg dialogMode else .ok ())
  let workspace := if willCreate then req.workspaceProjectId else none
  if req.temporary then
    pure ⟨⟨syntheticId, req.userId, req.projectId, req.mode, dialogMode, model, workspace⟩, true⟩
  else
    getOrCreateSession req.userId req.projectId req.mode req.sessionId dialogMode model workspace

theorem openSession_eq (req : RunRequest) (syntheticId : ℕ) : openSession cfg req syntheticId =
    (willCreateSession req.temporary req.userId req.sessionId).bind (openWith cfg req syntheticId) := rfl

theorem openWith_true (req : RunRequest) (syntheticId : ℕ) : openWith cfg req syntheticId true =
    (liftExcept (checkModel cfg (req.model.map strip))).bind fun _ =>
      (checkWorkspace req.userId req.workspaceProjectId).bind fun _ =>
        (resolveDialogMode req.userId req.dialogMode).bind fun dialogMode =>
          (liftExcept (checkDialogMode cfg dialogMode)).bind fun _ =>
            openNew req syntheticId dialogMode := rfl

theorem openWith_false {req : RunRequest} (h : req.temporary = false) (syntheticId : ℕ) :
    openWith cfg req syntheticId false =
      (resolveDialogMode req.userId req.dialogMode).bind fun dialogMode =>
        getOrCreateSession req.userId req.projectId req.mode req.sessionId dialogMode
          (req.model.map strip) none := by
  simp only [openWith, Bool.false_eq_true, if_false, liftExcept, checkWorkspace, pure_eq, bind_eq,
    ret_bind, h]

/-- The checks of `openSession`: what keeps `Φ` at every look that inserts no session, has it when the
values have passed them. -/
theorem openWith_checks (Φ : Seen → Prop) {C : TxAct ChatStmt → Seen → Prop}
    {Q : Except AppError SessionContext → Seen → Prop} {req : RunRequest} {syntheticId : ℕ}
    (hpossible : ∀ l s r, ok l s r → l.Possible owner s r)
    (hlook : ∀ l s r held, KeepsSessions (.stmt s) → Φ l → Φ ⟨held, l.looks ++ [⟨s, r⟩]⟩)
    (hC : ∀ e l, Φ l → C e l) (herror : ∀ e l, Φ l → Q (.error e) l)
    (hopen : ∀ dialogMode l, Φ l →
      Checked cfg owner req.userId dialogMode (req.model.map strip) req.workspaceProjectId →
      (openNew req syntheticId dialogMode).wp (Seen.Step llm ok) C Q l) (h : Φ l) :
    (openWith cfg req syntheticId true).wp (Seen.Step llm ok) C Q l := by
  rw [openWith_true]
  cases hmodel : checkModel cfg (req.model.map strip) with
  | error e => exact herror e l h
  | ok u =>
    -- The dialog mode comes last.
    have hmode : ∀ l, Φ l → (∀ w, req.workspaceProjectId = some w → owner w = some req.userId) →
        ((resolveDialogMode req.userId req.dialogMode).bind fun dialogMode =>
          (liftExcept (checkDialogMode cfg dialogMode)).bind fun _ =>
            openNew req syntheticId dialogMode).wp (Seen.Step llm ok) C Q l := by
      intro l h howner
      have hdialog : ∀ dialogMode l, Φ l → ((liftExcept (checkDialogMode cfg dialogMode)).bind fun _ =>
          openNew req syntheticId dialogMode).wp (Seen.Step llm ok) C Q l := by
        intro dialogMode l h
        cases hchecked : checkDialogMode cfg dialogMode with
        | error e => exact herror e l h
        | ok u =>
          obtain ⟨hknown, hpermitted⟩ := checkDialogMode_ok hchecked
          exact hopen dialogMode l h fun g projectId mode =>
            ⟨checkModel_ok hmodel, hknown, hpermitted, howner⟩
      cases req.dialogMode with
      | some dialogMode => exact hdialog dialogMode l h
      | none => exact wp_look (hC _ _ h) fun dialogMode held _ _ =>
          hdialog dialogMode _ (hlook _ _ _ _ trivial h)
    simp only [liftExcept, pure_eq, ret_bind]
    cases hworkspace : req.workspaceProjectId with
    | none => exact hmode l h (by simp [hworkspace])
    | some w =>
      refine wp_look (hC _ _ h) fun owned held _ howned => ?_
      have howner : owned = true → owner w = some req.userId := hpossible _ _ _ howned
      cases owned with
      | true =>
        refine hmode _ (hlook _ _ _ _ trivial h) fun w' hw => ?_
        rw [hworkspace] at hw
        cases hw
        exact howner rfl
      | false => exact herror _ _ (hlook _ (.ownsWorkspace w req.userId) false _ trivial h)

/-- The session of a run: it is created with checked values, or resumed. -/
theorem openSession_gated {req : RunRequest} {syntheticId : ℕ} (h : l.Gated cfg owner)
    (hpossible : ∀ l s r, ok l s r → l.Possible owner s r) (hsteady : ∀ l s r, ok l s r → l.Steady s r) :
    (openSession cfg req syntheticId).wp (Seen.Step llm ok) (fun _ l => l.Gated cfg owner)
      (fun _ l' => l'.Gated cfg owner) l := by
  rw [openSession_eq, wp_bind]
  refine firstLook_wp h fun willCreate l₁ h₁ hresume => ?_
  cases willCreate with
  | false =>
    obtain ⟨htemporary, sid, hsid, halive⟩ := hresume rfl
    rw [bindPost, openWith_false htemporary, hsid]
    cases req.dialogMode with
    | some dialogMode => exact getOrCreateSession_steady h₁ halive hsteady
    | none =>
      exact wp_look h₁ fun dialogMode held _ _ =>
        getOrCreateSession_steady (h₁.looked _ _ _ trivial) halive.look hsteady
  | true =>
    refine openWith_checks (Seen.Gated cfg owner) hpossible
      (fun l s r held hs h => h.looked s r held hs) (fun _ _ h => h)
      (fun _ _ h => h) (fun dialogMode l h hchecked => ?_) h₁
    unfold openNew
    split
    · exact h
    · exact getOrCreateSession_gated h hchecked

theorem run_gated {req : RunRequest} (h : l.Gated cfg owner)
    (hpossible : ∀ l s r, ok l s r → l.Possible owner s r) (hsteady : ∀ l s r, ok l s r → l.Steady s r) :
    ((ChatRequest.run req).prog cfg).wp (Seen.Step llm ok) (fun _ l => l.Gated cfg owner)
      (fun _ l' => l'.Gated cfg owner) l := by
  have hrun : (Chat.run cfg req).wp (Seen.Step llm ok) (fun _ l => l.Gated cfg owner)
      (fun _ l' => l'.Gated cfg owner) l := by
    rw [run_eq]
    refine Seen.Gated.wp_bind (h.wp_only (keeps_stmt trivial)) fun messageStepId l₁ h₁ => ?_
    refine Seen.Gated.wp_bind (h₁.wp_only openRepository_keeps) fun syntheticId l₂ h₂ => ?_
    refine Seen.Gated.wp_bind (openSession_gated h₂ hpossible hsteady) fun ctx l₃ h₃ => ?_
    exact h₃.wp_only finishRun_keeps
  unfold ChatRequest.prog TxProg.sessionScope
  rw [wp_tryCatch, wp_bind]
  refine wp_mono (fun o l' h' => ?_) hrun
  cases o with
  | ok out =>
    have hend : (TxProg.commit.bind fun _ => .ret out : ChatProg ChatRunOut).Only KeepsSessions :=
      ⟨trivial, fun _ => trivial⟩
    exact h'.wp_only hend
  | error e =>
    have hend : (TxProg.rollback.bind fun _ => .raise e : ChatProg ChatRunOut).Only KeepsSessions :=
      ⟨trivial, fun _ => trivial⟩
    exact h'.wp_only hend

end Gate

/-! ## A run that resumes -/

section Resumed

variable {T : Seen → (e : TxAct ChatStmt) → TxAct.Resp ChatStmt.Resp e → Seen → Prop}
variable {llm : LLMAnswer → Prop} {cfg : Config} {owner : ℕ → Option ℕ} {l : Seen}
variable {userId : ℕ} {projectId : Option String} {mode mode' : Mode} {dialogMode dialogMode' : String}
variable {model model' : Option String} {workspace workspace' : Option ℕ} {sessionId : Option ℕ}

/-- Where `p` resumes a session, so does `p'`. -/
def Follows (T : Seen → (e : TxAct ChatStmt) → TxAct.Resp ChatStmt.Resp e → Seen → Prop)
    (p p' : ChatProg SessionContext) (l : Seen) : Prop :=
  ∀ ctx l', Runs T p l (.ok ctx) l' → ctx.isNew = false → Runs T p' l (.ok ctx) l'

theorem follows_act {e : TxAct ChatStmt}
    {k k' : TxAct.Resp ChatStmt.Resp e → ChatProg SessionContext}
    (h : ∀ r l₁, T l e r l₁ → Follows T (k r) (k' r) l₁) : Follows T (.act e k) (.act e k') l := by
  intro ctx l' hrun hnew
  cases hrun with
  | act hstep hrest => exact .act hstep (h _ _ hstep ctx l' hrest hnew)

/-- The outcome is no session that has been found. -/
def Fresh : Except AppError SessionContext → Seen → Prop
  | .ok ctx, _ => ctx.isNew = true
  | .error _, _ => True

theorem follows_of_fresh {p p' : ChatProg SessionContext} (h : p.wp T (fun _ _ => True) Fresh l) :
    Follows T p p' l := by
  intro ctx l' hrun hnew
  have hfresh : ctx.isNew = true := hrun.of_wp h
  rw [hnew] at hfresh
  cases hfresh

/-- The session that a request asks for is not there to be resumed. -/
def Seen.Gone (l : Seen) (userId : ℕ) (sessionId : Option ℕ) : Prop :=
  ∀ sid, sessionId = some sid → l.Missing sid userId ∨ l.Expired sid

theorem Seen.Gone.look (h : l.Gone userId sessionId) {held : Held ChatOp ChatMem} {look : Look} :
    Seen.Gone ⟨held, l.looks ++ [look]⟩ userId sessionId := by
  intro sid hsid
  rcases h sid hsid with hmissing | ⟨row, hid, hexpired⟩
  · exact .inl (List.mem_append_left _ hmissing)
  · exact .inr ⟨row, hid, List.mem_append_left _ hexpired⟩

theorem createSession_fresh {ok : Seen → (s : ChatStmt) → s.Resp → Prop} :
    (createSession userId projectId mode dialogMode model workspace).wp (Seen.Step llm ok)
      (fun _ _ => True) Fresh l := wp_look trivial fun inserted _ _ _ => by
  cases inserted
  · trivial
  · rfl

/-- What is gone does not come back. -/
theorem getOrCreateSession_fresh (h : l.Gone userId sessionId) :
    (getOrCreateSession userId projectId mode sessionId dialogMode model workspace).wp
      (Seen.Step llm fun l => l.Possible owner) (fun _ _ => True) Fresh l := by
  cases sessionId with
  | none => exact createSession_fresh
  | some sid =>
    refine wp_look trivial fun found held hact hfound => ?_
    cases found with
    | none => exact createSession_fresh
    | some existing =>
      have hid := id_of_look hact
      refine wp_look trivial fun expired held' _ hexpired => ?_
      have hgone : Seen.Expired ⟨held, l.looks ++ [⟨.getSession sid userId, some existing⟩]⟩
          existing.id := by
        rcases h sid rfl with hmissing | ⟨row, hrow, hmem⟩
        · exact absurd (hfound hmissing) nofun
        · exact ⟨row, hrow.trans hid.symm, List.mem_append_left _ hmem⟩
      have htrue : expired = true := hexpired hgone
      subst htrue
      exact createSession_fresh

theorem getOrCreateSession_follows {ok : Seen → (s : ChatStmt) → s.Resp → Prop} :
    Follows (Seen.Step llm ok)
      (getOrCreateSession userId projectId mode sessionId dialogMode model workspace)
      (getOrCreateSession userId projectId mode' sessionId dialogMode' model' workspace') l := by
  cases sessionId with
  | none => exact follows_of_fresh createSession_fresh
  | some sid =>
    refine follows_act fun found l₁ _ => ?_
    cases found with
    | none => exact follows_of_fresh createSession_fresh
    | some existing =>
      refine follows_act fun expired l₂ _ => ?_
      cases expired with
      | true => exact follows_of_fresh createSession_fresh
      | false => exact fun ctx l' hrun _ => hrun

/-- A request cannot resume the session that it asks for. -/
def Seen.Unresumable (l : Seen) (req : RunRequest) : Prop :=
  req.temporary = false → l.Gone req.userId req.sessionId

theorem Seen.Unresumable.look {req : RunRequest} (h : l.Unresumable req)
    (held : Held ChatOp ChatMem) (look : Look) :
    Seen.Unresumable ⟨held, l.looks ++ [look]⟩ req := fun ht => (h ht).look

theorem openWith_fresh {req : RunRequest} {syntheticId : ℕ} (h : l.Unresumable req) :
    (openWith cfg req syntheticId true).wp (Seen.Step llm fun l => l.Possible owner) (fun _ _ => True)
      Fresh l := by
  refine openWith_checks (fun l => l.Unresumable req) (fun _ _ _ h => h)
    (fun l s r held _ h => h.look held ⟨s, r⟩) (fun _ _ _ => trivial) (fun _ _ _ => trivial)
    (fun dialogMode l h _ => ?_) h
  unfold openNew
  split
  · rfl
  · rename_i htemporary
    exact getOrCreateSession_fresh (h (by simpa using htemporary))

/-- The request, with another mode, model, workspace and dialog mode. -/
def RunRequest.asking (req : RunRequest) (mode : Mode) (model : Option String)
    (workspace : Option ℕ) (dialogMode : String) : RunRequest :=
  { req with mode := mode, model := model, workspaceProjectId := workspace,
             dialogMode := req.dialogMode.map fun _ => dialogMode }

theorem openWith_follows {req : RunRequest} {syntheticId : ℕ}
    {ok : Seen → (s : ChatStmt) → s.Resp → Prop} (h : req.temporary = false) :
    Follows (Seen.Step llm ok) (openWith cfg req syntheticId false)
      (openWith cfg (req.asking mode model workspace dialogMode) syntheticId false) l := by
  have hasking : (req.asking mode model workspace dialogMode).temporary = false := h
  rw [openWith_false h, openWith_false hasking]
  simp only [RunRequest.asking]
  cases req.dialogMode with
  | some dialogMode => exact getOrCreateSession_follows
  | none => exact follows_act fun dialogMode l₁ _ => getOrCreateSession_follows

/-- **A session is resumed** as it is, whatever else the request asks for. -/
theorem openSession_follows {req : RunRequest} {syntheticId : ℕ} :
    Follows (Seen.Step llm fun l => l.Possible owner) (openSession cfg req syntheticId)
      (openSession cfg (req.asking mode model workspace dialogMode) syntheticId) l := by
  rw [openSession_eq, openSession_eq]
  change Follows _ _ ((willCreateSession req.temporary req.userId req.sessionId).bind
    (openWith cfg (req.asking mode model workspace dialogMode) syntheticId)) l
  cases hsid : req.sessionId with
  | none => exact follows_of_fresh (openWith_fresh fun _ sid h => by simp [hsid] at h)
  | some sid =>
    cases htemporary : req.temporary with
    | true => exact follows_of_fresh (openWith_fresh fun h => by simp [htemporary] at h)
    | false =>
      have hgone : ∀ {l : Seen}, l.Missing sid req.userId ∨ l.Expired sid → l.Unresumable req := by
        intro l h _ sid' hsid'
        rw [hsid] at hsid'
        cases hsid'
        exact h
      refine follows_act fun found l₁ hlook => ?_
      obtain ⟨held, hact, -, rfl⟩ := hlook.look
      cases found with
      | none =>
        have hmem := List.mem_append_right l.looks
          (List.mem_singleton_self (⟨.getSession sid req.userId, none⟩ : Look))
        exact follows_of_fresh (openWith_fresh (hgone (.inl hmem)))
      | some existing =>
        refine follows_act fun expired l₂ hlook' => ?_
        obtain ⟨held', -, -, rfl⟩ := hlook'.look
        cases expired with
        | true =>
          have hmem := List.mem_append_right (l.looks ++ [⟨.getSession sid req.userId, some existing⟩])
            (List.mem_singleton_self (⟨.isExpired existing, true⟩ : Look))
          exact follows_of_fresh (openWith_fresh (hgone (.inr ⟨existing, id_of_look hact, hmem⟩)))
        | false => exact openWith_follows htemporary

end Resumed

/-! ## The law -/

/-- A run that resumes a session, step by step. -/
def ResumedRun (T : Seen → (e : TxAct ChatStmt) → TxAct.Resp ChatStmt.Resp e → Seen → Prop)
    (cfg : Config) (req : RunRequest) (l : Seen) (o : Except AppError ChatRunOut) (l' : Seen) : Prop :=
  ∃ messageStepId l₁ syntheticId l₂ ctx l₃, Runs T uuid4 l (.ok messageStepId) l₁ ∧
    Runs T (openRepository cfg req) l₁ (.ok syntheticId) l₂ ∧
    Runs T (openSession cfg req syntheticId) l₂ (.ok ctx) l₃ ∧ ctx.isNew = false ∧
    Runs T (finishRun cfg req messageStepId ctx) l₃ o l'

/-- It is a run of `run`. -/
theorem ResumedRun.runs {T : Seen → (e : TxAct ChatStmt) → TxAct.Resp ChatStmt.Resp e → Seen → Prop}
    {cfg : Config} {req : RunRequest} {l l' : Seen} {o : Except AppError ChatRunOut}
    (h : ResumedRun T cfg req l o l') : Runs T (Chat.run cfg req) l o l' := by
  obtain ⟨m, l₁, syn, l₂, ctx, l₃, h₁, h₂, h₃, -, h₄⟩ := h
  rw [run_eq]
  exact h₁.bind (h₂.bind (h₃.bind h₄))

/-- The states of a run that begins with nothing seen. -/
def Visited (T : Seen → (e : TxAct ChatStmt) → TxAct.Resp ChatStmt.Resp e → Seen → Prop)
    (cfg : Config) (req : RunRequest) (l : Seen) : Prop := ∃ held,
  (∃ e, Reaches T ((ChatRequest.run req).prog cfg) ⟨held, []⟩ e l) ∨
    ∃ o, Runs T ((ChatRequest.run req).prog cfg) ⟨held, []⟩ o l

/-- **The gate**: while what was alive stays alive, a run inserts checked sessions only; and a run that
resumes a session is also one of the request with another mode, model, workspace or dialog mode. -/
theorem session_gate (llm : LLMAnswer → Prop) (cfg : Config) (owner : ℕ → Option ℕ) (req : RunRequest) :
    (∀ l, Visited (Seen.Step llm fun l s r => l.Possible owner s r ∧ l.Steady s r) cfg req l →
      l.Gated cfg owner) ∧
    ∀ mode model workspace dialogMode l o l',
      ResumedRun (Seen.Step llm fun l => l.Possible owner) cfg req l o l' →
      ResumedRun (Seen.Step llm fun l => l.Possible owner) cfg
        (req.asking mode model workspace dialogMode) l o l' := by
  constructor
  · rintro l ⟨held, hvisited⟩
    have hstart : Seen.Gated cfg owner ⟨held, []⟩ := by
      rintro row ⟨_, _, _, _, _, _, hmem⟩
      cases hmem
    have hgated : ((ChatRequest.run req).prog cfg).wp
        (Seen.Step llm fun l s r => l.Possible owner s r ∧ l.Steady s r)
        (fun _ l => l.Gated cfg owner) (fun _ l => l.Gated cfg owner) ⟨held, []⟩ :=
      run_gated hstart (fun _ _ _ h => h.1) fun _ _ _ h => h.2
    rcases hvisited with ⟨e, hreaches⟩ | ⟨o, hruns⟩
    · exact hreaches.of_wp hgated
    · exact hruns.of_wp hgated
  · rintro mode model workspace dialogMode l o l' ⟨m, l₁, syn, l₂, ctx, l₃, h₁, h₂, h₃, hnew, h₄⟩
    exact ⟨m, l₁, syn, l₂, ctx, l₃, h₁, h₂, openSession_follows ctx l₃ h₃ hnew, hnew, h₄⟩

/-- A step for an answer that is allowed on the tables `d`. -/
theorem Seen.Step.of_allowed {llm : LLMAnswer → Prop} {ok : Seen → (s : ChatStmt) → s.Resp → Prop}
    {l : Seen} {s : ChatStmt} {r : s.Resp} (g : ℕ) (d : ChatDb)
    (h : s.Allowed llm g l.held.mem ((chatStore llm).view l.held.log d) r) (hok : ok l s r) :
    Seen.Step llm ok l (.stmt s) r
      ⟨⟨l.held.log ++ (s.effect g l.held.mem ((chatStore llm).view l.held.log d) r).1,
        (s.effect g l.held.mem ((chatStore llm).view l.held.log d) r).2.2⟩, l.looks ++ [⟨s, r⟩]⟩ :=
  .stmt (.stmt ⟨h, rfl⟩) hok

/-- A session of the user. -/
def staleSession : ChatSession := ⟨1, 1, none, .byok, "smart", none, none⟩

/-- A request to resume it, with a model that no instance has. -/
def staleRequest : RunRequest :=
  { byokMessage "smart" with sessionId := some 1, model := some "no such model" }

/-- A run that goes on to a state with `P`. -/
theorem exists_reaches_act {α : Type}
    {T : Seen → (e : TxAct ChatStmt) → TxAct.Resp ChatStmt.Resp e → Seen → Prop}
    {P : Seen → Prop} {e : TxAct ChatStmt} {k : TxAct.Resp ChatStmt.Resp e → ChatProg α} {l l₁ : Seen}
    {r : TxAct.Resp ChatStmt.Resp e} (hstep : T l e r l₁)
    (h : ∃ e' l', Reaches T (k r) l₁ e' l' ∧ P l') : ∃ e' l', Reaches T (.act e k) l e' l' ∧ P l' := by
  obtain ⟨e', l', hreaches, hP⟩ := h
  exact ⟨e', l', .act hstep hreaches, hP⟩

/-- The session is deleted between the two looks, and a session is created unchecked. -/
theorem session_gate_fails : ¬∀ llm cfg owner req l,
    Visited (Seen.Step llm fun l => l.Possible owner) cfg req l → l.Gated cfg owner := by
  intro h
  obtain ⟨e, l, hreaches, hcreated⟩ : ∃ e l,
      Reaches (Seen.Step anyProvider fun l => l.Possible fun _ => none)
      ((ChatRequest.run staleRequest).prog openaiInstance) ⟨⟨[], ⟨[], [], []⟩⟩, []⟩ e l ∧
        l.Created ⟨11, 1, none, .byok, "smart", some "no such model", none⟩ := by
    refine exists_reaches_act (Seen.Step.of_allowed (s := .uuid4) (r := 10) 10 ChatDb.empty rfl trivial) ?_
    refine exists_reaches_act (Seen.Step.of_allowed (s := .getSession 1 1) (r := some staleSession) 11
      { ChatDb.empty with sessions := [staleSession] } rfl nofun) ?_
    refine exists_reaches_act (Seen.Step.of_allowed (s := .isExpired staleSession) (r := false) 11
      { ChatDb.empty with sessions := [staleSession] } (fun hmem => by cases hmem) nofun) ?_
    refine exists_reaches_act (Seen.Step.of_allowed (s := .getSession 1 1) (r := none) 11 ChatDb.empty rfl
      fun _ => rfl) ?_
    refine exists_reaches_act (Seen.Step.of_allowed (s := .insertSession 1 none .byok "smart"
      (some "no such model") none)
      (r := some ⟨11, 1, none, .byok, "smart", some "no such model", none⟩) 11 ChatDb.empty rfl
      trivial) ?_
    exact ⟨_, _, .here _ _ _, _, _, _, _, _, _, List.mem_append_right _ (List.mem_singleton_self _)⟩
  exact absurd ((h _ _ _ _ _ ⟨_, .inl ⟨e, hreaches⟩⟩ _ hcreated).model _ rfl) (by decide)

end ChatBackend.Chat

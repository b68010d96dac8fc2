import ChatBackend.Chat.Script
import ChatBackend.Website.Isolation

/-!
# The site tools of a turn

A turn calls a site tool for its user and for the project of its session, whatever the provider
answers (`generateLoop_wp`). So it changes only what belongs to them, and its results depend on
nothing else in the site tables (`site_isolation`).
-/

namespace ChatBackend.Website

open Prog Store
open Chat

/-- A call of a site tool is for the user and the project, and no session is created. -/
def Within (u : ℕ) (project : Option String) : TxAct ChatStmt → Prop
  | .stmt (.siteExecute _ _ u' ext) => u' = u ∧ project = some ext
  | .stmt (.insertSession ..) => False
  | _ => True

/-- The session, where there is a row of it, has this project. -/
def Named (sessionId : ℕ) (project : Option String) (w : ChatWorld) : Prop :=
  (∀ row, w.db.session sessionId = some row → row.projectId = project) ∧
    ∀ row, w.work.session sessionId = some row → row.projectId = project

section Programs

variable {llm : LLMAnswer → Prop} {cfg : Config} {t : Turn} {project : Option String} {u sessionId : ℕ}

theorem stmt_within {s : ChatStmt} (hs : Within u project (.stmt s)) :
    (TxProg.stmt s : ChatProg s.Resp).Only (Within u project) := ⟨hs, fun _ => trivial⟩

theorem addStep_within {temporary : Bool} {sessionId messageStepId : ℕ} {payload : Payload}
    {usage : Option Usage} :
    (Chat.addStep temporary sessionId messageStepId payload usage).Only (Within u project) := by
  unfold Chat.addStep
  split <;> exact ⟨trivial, fun _ => trivial⟩

theorem completeToolCall_within {temporary : Bool} {id : ℕ} {status : ToolStatus} {result : Json} :
    (completeToolCall temporary id status result).Only (Within u project) := by
  unfold completeToolCall
  split <;> exact ⟨trivial, fun _ => trivial⟩

theorem createToolCall_within {temporary : Bool} {row : ToolCall} :
    (createToolCall temporary row).Only (Within u project) := by
  unfold createToolCall
  split <;> exact ⟨trivial, fun _ => trivial⟩

theorem audit_within {event : EventType} {payload : List (String × Json)} :
    (t.audit event payload).Only (Within u project) := ⟨trivial, fun _ => trivial⟩

theorem persistToolOutcome_within {id : ℕ} {name : ToolName} {puid : String} {ex : ToolExecution}
    {extra : List (String × Json)} :
    (persistToolOutcome t id name puid ex extra).Only (Within u project) :=
  .bind completeToolCall_within fun _ => .bind addStep_within fun _ => audit_within

theorem tryConsume_within {amount : Int} {key : IdemKey} {metaData : Json} {sid : Option ℕ} {v : ℕ} :
    (tryConsume v amount key metaData sid).Only (Within u project) := by
  have hconsume : (consume v amount key metaData sid).Only (Within u project) := by
    refine Only.embed Wallet.consume_only fun e he => ?_
    obtain ⟨s, rfl⟩ := he
    exact trivial
  refine Only.tryCatch (.bind hconsume fun _ => trivial) fun x => ?_
  cases x <;> trivial

theorem insertGeneratedImage_within {id : ℕ} {data : ImageData} {prompt : String} :
    (insertGeneratedImage t id data prompt).Only (Within u project) := by
  refine ⟨trivial, fun r => ?_⟩
  cases r with
  | some id => trivial
  | none =>
    refine ⟨trivial, fun r => ?_⟩
    cases r <;> trivial

theorem executeImageGenerateTool_within {id : ℕ} {args : Json} {puid : String}
    {pregen : Except ImageError ImageData} {acc : Acc} :
    (executeImageGenerateTool cfg t id args puid pregen acc).Only (Within u project) := by
  unfold executeImageGenerateTool
  cases pregen with
  | error e => exact .bind persistToolOutcome_within fun _ => trivial
  | ok data =>
    refine .bind tryConsume_within fun paid => ?_
    split
    · exact .bind insertGeneratedImage_within fun _ => .bind persistToolOutcome_within fun _ => trivial
    · exact ⟨trivial, fun _ => trivial⟩

theorem executeGlobalServerSideTool_within {id : ℕ} {name : ToolName} {args : Json} {puid : String}
    {acc : Acc} :
    (executeGlobalServerSideTool t id name args puid acc).Only (Within u project) :=
  .bind (stmt_within trivial) fun _ => .bind persistToolOutcome_within fun _ => trivial

theorem executeServerSideTool_within {id : ℕ} {name : ToolName} {args : Json} {puid ext : String}
    {acc : Acc} (hext : project = some ext) :
    (executeServerSideTool t id name args puid ext acc).Only (Within t.userId project) := by
  refine .bind (stmt_within ⟨rfl, hext⟩) fun r => ?_
  obtain ⟨o, writes⟩ := r
  cases o with
  | error e => trivial
  | ok execution => exact .bind persistToolOutcome_within fun _ => trivial

theorem executeBlock_within {projectId : Option String} {pregen : Pregen} {use : ToolUse} {args : Json}
    {id : ℕ} {acc : Acc} {outs : List ToolCallOut}
    (hproject : ∀ ext, projectId = some ext → project = some ext) :
    (executeBlock cfg t projectId pregen use args id acc outs).Only (Within t.userId project) := by
  unfold executeBlock
  split
  · split
    · trivial
    · refine .bind executeImageGenerateTool_within fun r => ?_
      cases r <;> trivial
  split
  · exact .bind executeGlobalServerSideTool_within fun _ => trivial
  split
  · cases projectId with
    | none => trivial
    | some ext => exact .bind (executeServerSideTool_within (hproject ext rfl)) fun _ => trivial
  split <;> trivial

theorem handleBlocks_within {projectId : Option String} {pregen : Pregen} {uses : List ToolUse}
    {acc : Acc} {outs : List ToolCallOut} (hproject : ∀ ext, projectId = some ext → project = some ext) :
    (handleBlocks cfg t projectId pregen uses acc outs).Only (Within t.userId project) := by
  induction uses generalizing acc outs with
  | nil => trivial
  | cons use uses ih =>
    have hblock : (handleBlock cfg t projectId pregen use acc outs).Only (Within t.userId project) := by
      unfold handleBlock
      split
      · trivial
      split
      · trivial
      · exact .bind (stmt_within trivial) fun _ => .bind createToolCall_within fun _ =>
          .bind audit_within fun _ => executeBlock_within hproject
    refine .bind hblock fun r => ?_
    cases r with
    | inl out => trivial
    | inr next => exact ih

theorem pregenerateImages_within {uses : List ToolUse} {pregen : Pregen} :
    (pregenerateImages cfg uses pregen).Only (Within u project) := by
  induction uses generalizing pregen with
  | nil => trivial
  | cons use uses ih =>
    unfold pregenerateImages
    split
    · exact ih
    split
    · trivial
    · exact ⟨trivial, fun _ => ih⟩

theorem finalizeAssistant_within {result : LLMResult} {acc : Acc} :
    (finalizeAssistant t result acc).Only (Within u project) := by
  have hbill : (bill t result.usage).Only (Within u project) := by
    unfold bill
    split
    · exact tryConsume_within
    split
    · exact ⟨trivial, fun _ => trivial⟩
    · trivial
  refine .bind addStep_within fun _ => .bind (stmt_within trivial) fun _ =>
    .bind audit_within fun _ => .bind hbill fun b => ?_
  split <;> exact ⟨trivial, fun _ => trivial⟩

theorem handleMaxTokens_within {result : LLMResult} {acc : Acc} :
    (handleMaxTokens t result acc).Only (Within u project) :=
  .bind addStep_within fun _ => .bind audit_within fun _ => ⟨trivial, fun _ => trivial⟩

theorem handleAuthError_within : (handleAuthError t).Only (Within u project) := by
  unfold handleAuthError
  split
  · trivial
  · refine .bind (.bind (stmt_within trivial) fun found => ?_) fun _ => ⟨trivial, fun _ => trivial⟩
    split
    · exact ⟨trivial, fun _ => trivial⟩
    · trivial

theorem handleExhausted_within : (handleExhausted cfg t).Only (Within u project) :=
  .bind audit_within fun _ => ⟨trivial, fun _ => trivial⟩

theorem buildMessages_within {temporary : Bool} {sessionId : ℕ} :
    (buildMessages temporary sessionId).Only (Within u project) := by
  refine .bind ?_ fun _ => trivial
  unfold listSteps
  split <;> exact ⟨trivial, fun _ => trivial⟩

/-! ## The loop -/

/-- The writes of a statement that is `Within` leave the sessions. -/
theorem sessions_effect {s : ChatStmt} (hs : Within u project (.stmt s)) (g : ℕ) (m : ChatMem)
    (d : ChatDb) (r : s.Resp) :
    ((chatStore llm).view (s.effect g m d r).1 d).sessions = d.sessions := by
  have hview : ∀ (ops : List ChatOp) (d : ChatDb), (∀ o ∈ ops, ∀ row, o ≠ .insertSession row) →
      ((chatStore llm).view ops d).sessions = d.sessions := by
    intro ops
    induction ops with
    | nil => exact fun _ _ => rfl
    | cons o ops ih =>
      intro d hops
      refine (ih _ fun o ho => hops o (.tail _ ho)).trans ?_
      cases o with
      | insertSession row => exact absurd rfl (hops _ (.head _) row)
      | _ => rfl
  refine hview _ d fun o ho row => ?_
  rintro rfl
  cases s with
  | insertSession => exact hs
  | insertImage => cases r <;> simp [ChatStmt.effect] at ho
  | completeToolCall => cases r <;> simp [ChatStmt.effect] at ho
  | markTrialUsed => cases r <;> simp [ChatStmt.effect] at ho
  | expireKey => cases r <;> simp [ChatStmt.effect] at ho
  | _ => simp [ChatStmt.effect] at ho

/-- Actions that are `Within` keep the name of the project. -/
theorem Named.step {e : TxAct ChatStmt} {r : TxAct.Resp ChatStmt.Resp e} {w w' : ChatWorld}
    (h : Named sessionId project w) (he : Within u project e) (hs : (chatStore llm).step w e r w') :
    Named sessionId project w' := by
  cases e with
  | commit =>
    obtain rfl := hs
    exact ⟨h.2, h.2⟩
  | rollback =>
    obtain rfl := hs
    exact ⟨h.1, h.1⟩
  | stmt s =>
    obtain ⟨ops, gen, mem, ⟨-, heffect⟩, rfl⟩ := hs
    have hops : ops = (s.effect w.gen w.mem w.work r).1 := by rw [heffect]
    refine ⟨h.1, fun row hrow => h.2 row ?_⟩
    rw [ChatDb.session, hops, sessions_effect he] at hrow
    exact hrow

/-- A program of such actions. -/
theorem Named.wp_only {α : Type} {p : ChatProg α} {w : ChatWorld} (h : Named sessionId project w)
    (hp : p.Only (Within u project)) : p.wp (chatStore llm).step (fun e _ => Within u project e)
      (fun _ w' => Named sessionId project w') w :=
  hp.wp_of (fun _ he _ hw => ⟨he, fun _ _ hs => hw.step he hs⟩) h

/-- What follows a program of such actions. -/
theorem Named.wp_bind {α β : Type} {p : ChatProg α} {f : α → ChatProg β} {w : ChatWorld}
    (h : Named sessionId project w) (hp : p.Only (Within u project))
    (hf : ∀ a w, Named sessionId project w → (f a).wp (chatStore llm).step
      (fun e _ => Within u project e) (fun _ w' => Named sessionId project w') w) :
    (p.bind f).wp (chatStore llm).step (fun e _ => Within u project e)
      (fun _ w' => Named sessionId project w') w := by
  rw [Prog.wp_bind]
  refine wp_mono (fun o w' hw => ?_) (h.wp_only hp)
  cases o with
  | ok a => exact hf a w' hw
  | error e => exact hw

theorem handleToolUse_wp {result : LLMResult} {acc : Acc} {w : ChatWorld}
    (h : Named t.sessionId project w) : (handleToolUse cfg t result acc).wp (chatStore llm).step
      (fun e _ => Within t.userId project e) (fun _ w' => Named t.sessionId project w') w := by
  -- the blocks, whatever follows them
  have hrest : ∀ {projectId pregen w} {f : ChatRunOut ⊕ Acc × List ToolCallOut → ChatProg TurnOutcome},
      Named t.sessionId project w → (∀ ext, projectId = some ext → project = some ext) →
      (∀ r w', Named t.sessionId project w' → (f r).wp (chatStore llm).step
        (fun e _ => Within t.userId project e) (fun _ w' => Named t.sessionId project w') w') →
      (Prog.bind (handleBlocks cfg t projectId pregen result.toolUses acc []) f).wp
        (chatStore llm).step (fun e _ => Within t.userId project e)
        (fun _ w' => Named t.sessionId project w') w :=
    fun hw hproject hf => hw.wp_bind (handleBlocks_within hproject) hf
  refine h.wp_bind pregenerateImages_within fun pregen w₁ h₁ => ?_
  refine h₁.wp_bind addStep_within fun stepId w₂ h₂ => ?_
  unfold Turn.projectId
  split
  · unfold externalProjectId
    refine (Store.wp_stmt _ _ _).2 ⟨trivial, fun r ops gen mem hx => ?_⟩
    obtain ⟨hr, heffect⟩ := hx
    have hr : r = w₂.work.session t.sessionId := hr
    have hw : (⟨w₂.db, (chatStore llm).view ops w₂.work, gen, mem⟩ : ChatWorld) = w₂ := by
      obtain ⟨rfl, hrest⟩ := Prod.mk.inj heffect
      obtain ⟨rfl, rfl⟩ := Prod.mk.inj hrest
      rfl
    rw [hw]
    cases r with
    | none => exact h₂
    | some row =>
      have hname : row.projectId = project := h₂.2 row hr.symm
      cases hp : row.projectId with
      | none =>
        simp only [ret_bind, hp]
        exact h₂
      | some ext =>
        simp only [ret_bind, hp]
        refine hrest h₂ (fun ext' he => ?_) fun r w' hw' => ?_
        · rw [← hname, hp, ← he]
        · split <;> exact hw'
  · refine hrest h₂ (fun _ h => by cases h) fun r w' hw' => ?_
    split <;> exact hw'

theorem generateRounds_wp {provider : Provider} (n : ℕ) {attachments : Option PreparedAttachments}
    {acc : Acc} {w : ChatWorld} (h : Named t.sessionId project w) :
    (generateRounds cfg t provider n attachments acc).wp (chatStore llm).step
      (fun e _ => Within t.userId project e) (fun _ w' => Named t.sessionId project w') w := by
  induction n generalizing attachments acc w with
  | zero => exact h.wp_only handleExhausted_within
  | succ n ih =>
    refine h.wp_bind buildMessages_within fun messages w₁ h₁ => ?_
    have hcommit : (TxProg.commit : ChatProg Unit).Only (Within t.userId project) :=
      ⟨trivial, fun _ => trivial⟩
    refine h₁.wp_bind hcommit fun _ w₂ h₂ => ?_
    refine h₂.wp_bind (stmt_within trivial) fun answer w₃ h₃ => ?_
    cases answer with
    | error e => exact h₃
    | authError => exact h₃.wp_only handleAuthError_within
    | result result =>
      simp only
      cases result.stopReason with
      | maxTokens => exact h₃.wp_only handleMaxTokens_within
      | endTurn => exact h₃.wp_only finalizeAssistant_within
      | toolUse =>
        simp only
        split
        · exact h₃.wp_only finalizeAssistant_within
        · rw [bind_eq, Prog.wp_bind]
          refine wp_mono (fun o w₄ h₄ => ?_) (handleToolUse_wp h₃)
          cases o with
          | error e => exact h₄
          | ok outcome =>
            cases outcome with
            | blocked out => exact h₄
            | client out => exact h₄.wp_bind hcommit fun _ _ h₅ => h₅
            | server acc => exact h₄.wp_bind hcommit fun _ _ h₅ => ih h₅

/-- **The loop of a turn** calls site tools for its user and the project of its session only. -/
theorem generateLoop_wp {attachments : Option PreparedAttachments} {w : ChatWorld}
    (h : Named t.sessionId project w) : (generateLoop cfg t attachments).wp (chatStore llm).step
      (fun e _ => Within t.userId project e) (fun _ w' => Named t.sessionId project w') w := by
  unfold generateLoop
  split
  · exact h.wp_only ⟨trivial, fun _ => trivial⟩
  · exact generateRounds_wp _ h

theorem contextForSession_within {workspaceProjectId userId : ℕ} {provider : Provider} :
    (contextForSession cfg workspaceProjectId userId provider).Only (Within u project) := by
  unfold contextForSession
  exact .bind (stmt_within trivial) fun files => by
    cases files <;> trivial

theorem continuationAttachments_within {userId : ℕ} {session : ChatSession} :
    (continuationAttachments cfg userId session).Only (Within u project) := by
  refine .bind ?_ fun _ => trivial
  unfold workspaceAttachments
  split
  · trivial
  · exact contextForSession_within

theorem sweepIfImages_within {out : ChatRunOut} : (sweepIfImages cfg out).Only (Within u project) := by
  unfold sweepIfImages maybeSweepExpiredImages
  split
  · trivial
  · refine .bind (stmt_within trivial) fun locked => ?_
    split
    · refine .bind (stmt_within trivial) fun deleted => ?_
      cases deleted <;> exact ⟨trivial, fun _ => trivial⟩
    · trivial

/-- **The generation for a session** calls site tools for its user and its project only. -/
theorem generate_wp {session : ChatSession} {messageStepId : ℕ} {temporary : Bool}
    {context : ChatProg (Option PreparedAttachments)} {w : ChatWorld}
    (hcontext : context.Only (Within session.userId session.projectId))
    (h : Named session.id session.projectId w) :
    (generate cfg session.userId session messageStepId temporary context).wp (chatStore llm).step
      (fun e _ => Within session.userId session.projectId e)
      (fun _ w' => Named session.id session.projectId w') w := by
  have hpolicy : (evaluateAccess session.userId session.mode (fkSessionId temporary session.id)).Only
      (Within session.userId session.projectId) :=
    .bind (stmt_within trivial) fun _ => ⟨trivial, fun _ => trivial⟩
  have hkey : (resolveApiKey session.userId session.mode).Only
      (Within session.userId session.projectId) := by
    unfold resolveApiKey
    split
    · trivial
    · refine .bind (stmt_within trivial) fun key => ?_
      cases key <;> trivial
  refine h.wp_bind hpolicy fun p w₁ h₁ => ?_
  obtain ⟨decision, state⟩ := p
  cases decision with
  | blocked reason => exact h₁
  | allowed =>
    refine h₁.wp_bind hkey fun key w₂ h₂ => ?_
    refine h₂.wp_bind hcontext fun attachments w₃ h₃ => ?_
    rw [bind_eq, Prog.wp_bind]
    refine wp_mono (fun o w₄ h₄ => ?_)
      (generateLoop_wp (t := turnOf session.userId session messageStepId temporary state key.1 key.2) h₃)
    cases o with
    | error e => exact h₄
    | ok out => exact h₄.wp_bind sweepIfImages_within fun _ _ h₅ => h₅

end Programs

/-! ## The turn and the site tables -/

/-- The site tables, committed and as the turn sees them. -/
structure SiteWorld where
  db : SiteDb
  work : SiteDb

/-- What the orchestrator gets from a handler: its outcome, or the exception that it raises. -/
def Gives : Except KeyError ToolExecution → Except AppError ToolExecution → Prop
  | .ok execution, r => r = .ok execution
  | .error _, r => ∃ e, r = .error e

/-- A statement of a turn of the session, on the site tables. Only a site tool works on them. -/
def siteStmt (env : SiteEnv) (sessionId : ℕ) : (s : ChatStmt) → s.Resp → SiteDb → SiteDb → Prop
  | .siteExecute toolName args userId ext, r, d, d' => ∃ now,
    Gives (execute { env with now := now } toolName args userId ext sessionId d).1 r.1 ∧
      d' = (execute { env with now := now } toolName args userId ext sessionId d).2
  | _, _, d, d' => d' = d

/-- An action of a turn of the session, on the site tables. -/
def siteStep (env : SiteEnv) (sessionId : ℕ) :
    SiteWorld → (e : TxAct ChatStmt) → TxAct.Resp ChatStmt.Resp e → SiteWorld → Prop
  | s, .stmt st, r, s' => siteStmt env sessionId st r s.work s'.work ∧ s'.db = s.db
  | s, .commit, _, s' => s' = ⟨s.work, s.work⟩
  | s, .rollback, _, s' => s' = ⟨s.db, s.db⟩

/-- An action of a turn, on the chat tables and on the site tables. -/
def turnStep (llm : LLMAnswer → Prop) (env : SiteEnv) (sessionId : ℕ) (w : ChatWorld × SiteWorld)
    (e : TxAct ChatStmt) (r : TxAct.Resp ChatStmt.Resp e) (w' : ChatWorld × SiteWorld) : Prop :=
  (chatStore llm).step w.1 e r w'.1 ∧ siteStep env sessionId w.2 e r w'.2

/-- What holds of the committed tables and of those that the turn sees. -/
def SiteWorld.Both (P : SiteDb → Prop) (s : SiteWorld) : Prop := P s.db ∧ P s.work

/-- The same between two pairs of tables. -/
def SiteWorld.Agree (u : ℕ) (ext : String) (s₁ s₂ : SiteWorld) : Prop :=
  Website.Agree u ext s₁.db s₂.db ∧ Website.Agree u ext s₁.work s₂.work

section Isolation

variable {llm : LLMAnswer → Prop} {env : SiteEnv} {sessionId u : ℕ} {ext : String} {d : SiteDb}
  {s s' s₂ : SiteWorld} {e : TxAct ChatStmt} {r : TxAct.Resp ChatStmt.Resp e}

/-- A statement that calls no site tool leaves the site tables. -/
theorem siteStmt_none {st : ChatStmt} {r : st.Resp} {d d' : SiteDb}
    (h : Within u none (.stmt st)) (hs : siteStmt env sessionId st r d d') : d' = d := by
  cases st with
  | siteExecute => exact absurd h.2 nofun
  | _ => exact hs

/-- Without a project nothing happens to the site tables. -/
theorem siteStep_none (h : Within u none e) (hs : siteStep env sessionId s e r s')
    (hd : s = ⟨d, d⟩) : s' = ⟨d, d⟩ := by
  subst hd
  cases e with
  | commit => exact hs
  | rollback => exact hs
  | stmt st =>
    obtain ⟨hwork, hdb⟩ := hs
    have hwork := siteStmt_none h hwork
    cases s'
    exact congrArg₂ SiteWorld.mk hdb hwork

/-- **The step lemma of the frame**. -/
theorem siteStep_frame (h : Within u (some ext) e) (hs : siteStep env sessionId s e r s')
    (hd : s.Both fun d' => Tidy d' ∧ Frame u ext d d') :
    s'.Both fun d' => Tidy d' ∧ Frame u ext d d' := by
  cases e with
  | commit =>
    obtain rfl := hs
    exact ⟨hd.2, hd.2⟩
  | rollback =>
    obtain rfl := hs
    exact ⟨hd.1, hd.1⟩
  | stmt st =>
    obtain ⟨hwork, hdb⟩ := hs
    refine ⟨by rw [hdb]; exact hd.1, ?_⟩
    cases st with
    | siteExecute toolName args userId ext' =>
      obtain ⟨rfl, hext⟩ := h
      obtain rfl : ext = ext' := Option.some.inj hext
      obtain ⟨now, -, hwork⟩ := hwork
      rw [hwork]
      exact (execute_frame toolName args sessionId hd.2.1).imp_right hd.2.2.trans
    | _ =>
      have hwork : s'.work = s.work := hwork
      rw [hwork]
      exact hd.2

/-- **The step lemma of the agreement**: what can be answered over one pair of tables can be answered
over one that agrees with it. -/
theorem siteStep_agree (h : Within u (some ext) e) (hs : siteStep env sessionId s e r s')
    (ha : s.Agree u ext s₂) : ∃ s₂', siteStep env sessionId s₂ e r s₂' ∧ s'.Agree u ext s₂' := by
  cases e with
  | commit =>
    obtain rfl := hs
    exact ⟨_, rfl, ha.2, ha.2⟩
  | rollback =>
    obtain rfl := hs
    exact ⟨_, rfl, ha.1, ha.1⟩
  | stmt st =>
    obtain ⟨hwork, hdb⟩ := hs
    cases st with
    | siteExecute toolName args userId ext' =>
      obtain ⟨rfl, hext⟩ := h
      obtain rfl : ext = ext' := Option.some.inj hext
      obtain ⟨now, hgives, hwork⟩ := hwork
      have hsame : ∀ env, (execute env toolName args userId ext sessionId s.work).1 =
          (execute env toolName args userId ext sessionId s₂.work).1 ∧
          Website.Agree userId ext (execute env toolName args userId ext sessionId s.work).2
            (execute env toolName args userId ext sessionId s₂.work).2 :=
        fun env => execute_agree toolName args sessionId ha.2
      refine ⟨⟨s₂.db, _⟩, ⟨⟨now, (hsame _).1 ▸ hgives, rfl⟩, rfl⟩, ?_⟩
      rw [SiteWorld.Agree, hdb, hwork]
      exact ⟨ha.1, (hsame _).2⟩
    | _ =>
      have hwork : s'.work = s.work := hwork
      refine ⟨s₂, ⟨rfl, rfl⟩, ?_⟩
      rw [SiteWorld.Agree, hdb, hwork]
      exact ha

/-- Two turns in the same state, over site tables that agree. -/
def SameTurn (u : ℕ) (ext : String) (v v₂ : ChatWorld × SiteWorld) : Prop :=
  v.1 = v₂.1 ∧ v.2.Agree u ext v₂.2

theorem turnStep_agree {v v' v₂ : ChatWorld × SiteWorld} (h : Within u (some ext) e)
    (hs : turnStep llm env sessionId v e r v') (ha : SameTurn u ext v v₂) :
    ∃ v₂', turnStep llm env sessionId v₂ e r v₂' ∧ SameTurn u ext v' v₂' := by
  obtain ⟨s₂', hstep, hs₂'⟩ := siteStep_agree h hs.2 ha.2
  exact ⟨(v'.1, s₂'), ⟨ha.1 ▸ hs.1, hstep⟩, rfl, hs₂'⟩

/-- **Isolation of the site tools.** In every state of a turn of a session with a project, only the
project of the session's user and name has changed, and its files; over tables that agree on them the
same run is possible, with the same answers and the same outcome. A turn of a session without a
project calls no site tool and leaves the site tables. -/
theorem site_isolation {cfg : Config} {session : ChatSession} {messageStepId : ℕ} {temporary : Bool}
    {context : ChatProg (Option PreparedAttachments)} {w : ChatWorld}
    (hcontext : (∃ attachments, context = pure attachments) ∨
      context = continuationAttachments cfg session.userId session)
    (hrow : Named session.id session.projectId w) (hd : Tidy d) :
    let p := generate cfg session.userId session messageStepId temporary context
    (∀ ext, session.projectId = some ext →
      (∀ e v, Reaches (turnStep llm env session.id) p (w, ⟨d, d⟩) e v →
        v.2.Both (Frame session.userId ext d)) ∧
      ∀ o w' s', Runs (turnStep llm env session.id) p (w, ⟨d, d⟩) o (w', s') →
        s'.Both (Frame session.userId ext d) ∧
        ∀ d₂, Agree session.userId ext d d₂ →
          ∃ s₂, Runs (turnStep llm env session.id) p (w, ⟨d₂, d₂⟩) o (w', s₂) ∧
            s'.Agree session.userId ext s₂) ∧
    (session.projectId = none →
      (∀ toolName args userId ext v, ¬ Reaches (turnStep llm env session.id) p (w, ⟨d, d⟩)
        (.stmt (.siteExecute toolName args userId ext)) v) ∧
      ∀ o w' s', Runs (turnStep llm env session.id) p (w, ⟨d, d⟩) o (w', s') → s' = ⟨d, d⟩) := by
  intro p
  have hcontext : context.Only (Within session.userId session.projectId) := by
    rcases hcontext with ⟨attachments, rfl⟩ | rfl
    · trivial
    · exact continuationAttachments_within
  have hp : ∀ s, p.wp (turnStep llm env session.id)
      (fun e _ => Within session.userId session.projectId e)
      (fun _ v => Named session.id session.projectId v.1) (w, s) := fun s =>
    wp_comp Prod.fst (fun _ _ _ _ h => h.1) (generate_wp hcontext hrow)
  refine ⟨fun ext hext => ?_, fun hnone => ?_⟩
  · rw [hext] at hp
    have hd₀ : (⟨d, d⟩ : SiteWorld).Both fun d' => Tidy d' ∧ Frame session.userId ext d d' :=
      ⟨⟨hd, .refl _ _ d⟩, ⟨hd, .refl _ _ d⟩⟩
    refine ⟨fun e v he => ?_, fun o w' s' hr => ⟨?_, fun d₂ ha => ?_⟩⟩
    · have hv : v.2.Both fun d' => Tidy d' ∧ Frame session.userId ext d d' :=
        he.keeps_of_wp (hp _) (fun _ _ _ _ hc hs ht => siteStep_frame hc ht.2 hs) hd₀
      exact ⟨hv.1.2, hv.2.2⟩
    · have hs' : s'.Both fun d' => Tidy d' ∧ Frame session.userId ext d d' :=
        hr.keeps_of_wp (hp _) (fun _ _ _ _ hc hs ht => siteStep_frame hc ht.2 hs) hd₀
      exact ⟨hs'.1.2, hs'.2.2⟩
    · -- the two runs share their chat tables, and their site tables agree
      have hsim : ∃ v₂, Runs (turnStep llm env session.id) p (w, ⟨d₂, d₂⟩) o v₂ ∧
          SameTurn session.userId ext (w', s') v₂ :=
        hr.simulates (hp _) (fun _ _ _ _ _ hc hrel ht => turnStep_agree hc ht hrel) ⟨rfl, ha, ha⟩
      obtain ⟨⟨w₂, s₂⟩, hr₂, hw, hs₂⟩ := hsim
      obtain rfl : w' = w₂ := hw
      exact ⟨s₂, hr₂, hs₂⟩
  · rw [hnone] at hp
    refine ⟨fun toolName args userId ext v he => ?_, fun o w' s' hr => ?_⟩
    · exact absurd (he.of_wp (hp _)).2 nofun
    · have hs' : (fun v : ChatWorld × SiteWorld => v.2 = ⟨d, d⟩) (w', s') :=
        hr.keeps_of_wp (hp _) (fun _ _ _ _ hc hs ht => siteStep_none hc ht.2 hs) rfl
      exact hs'

end Isolation

/-! ## A turn from a script -/

/-- What the orchestrator gets from a handler. -/
def given : Except KeyError ToolExecution → Except AppError ToolExecution
  | .ok execution => .ok execution
  | .error e => .error (.upstream e.key)

theorem gives_given (r : Except KeyError ToolExecution) : Gives r (given r) := by
  cases r with
  | ok execution => rfl
  | error e => exact ⟨_, rfl⟩

/-- The actions of a turn, answered by a script and by the handlers of the site tools. -/
def turnAct (env : SiteEnv) (sessionId : ℕ) (v : (ChatWorld × Script) × SiteWorld) :
    (e : TxAct ChatStmt) → TxAct.Resp ChatStmt.Resp e × ((ChatWorld × Script) × SiteWorld)
  | .stmt (.siteExecute toolName args userId ext) =>
    let handled := execute env toolName args userId ext sessionId v.2.work
    ((given handled.1, []), v.1, ⟨v.2.db, handled.2⟩)
  | .stmt s => ((chatHandler.act v.1 (.stmt s)).1, (chatHandler.act v.1 (.stmt s)).2, v.2)
  | .commit => ((), (chatHandler.act v.1 .commit).2, ⟨v.2.work, v.2.work⟩)
  | .rollback => ((), (chatHandler.act v.1 .rollback).2, ⟨v.2.db, v.2.db⟩)

theorem turnAct_step (env : SiteEnv) (sessionId : ℕ) (v : (ChatWorld × Script) × SiteWorld)
    (e : TxAct ChatStmt) : turnStep anyProvider env sessionId (v.1.1, v.2) e
      (turnAct env sessionId v e).1
      ((turnAct env sessionId v e).2.1.1, (turnAct env sessionId v e).2.2) := by
  cases e with
  | commit => exact ⟨rfl, rfl⟩
  | rollback => exact ⟨rfl, rfl⟩
  | stmt s =>
    cases s with
    | siteExecute => exact ⟨⟨[], _, _, ⟨trivial, rfl⟩, rfl⟩, ⟨env.now, gives_given _, rfl⟩, rfl⟩
    | _ => exact ⟨chatHandler.act_step v.1 _, rfl, rfl⟩

/-- The session of user 1 with a project. -/
def siteSession : ChatSession := ⟨7, 1, some "site", .credits, "smart", none, none⟩

/-- The model deletes a file. -/
def deleting : LLMResult where
  stopReason := .toolUse
  contentBlocks := [.toolUse "call_1" "site_delete" (.obj [("path", .str "a.txt")])]
  usage := ⟨20, 5, "gpt-4o", 0, 0⟩
  text := ""
  toolUses := [⟨"call_1", .siteDelete, .obj [("path", .str "a.txt")]⟩]
  ids_eq := rfl
  no_media := by simp [Block.isMedia]

/-- Two users with a project of one name, each with files. -/
def twoSites (files : List SiteFile) : SiteDb :=
  ⟨[⟨0, 1, "site"⟩, ⟨1, 2, "site"⟩], ⟨0, "a.txt", [97], "text/plain", 1⟩ :: files, [], 2⟩

/-- The turn in which the model deletes `a.txt`. -/
def deletingTurn : ChatProg ChatRunOut :=
  generate openaiInstance siteSession.userId siteSession 9 false (pure none)

/-- The chat tables of the turn. -/
def siteChat : ChatWorld := idle 20 { funded with sessions := [siteSession] }

/-- The state before the turn, with the answers of the model. -/
def deletingStart : (ChatWorld × Script) × SiteWorld :=
  ((siteChat, ⟨[.result deleting, .result answered], [], false⟩), ⟨twoSites [], twoSites []⟩)

/-- What the turn leaves. -/
def deletingEval : Except AppError ChatRunOut × (ChatWorld × Script) × SiteWorld :=
  deletingTurn.eval (turnAct smallSite siteSession.id) deletingStart

/-- A file of the other user. -/
def otherFile : SiteFile := ⟨1, "a.txt", [98], "text/plain", 1⟩

theorem twoSites_tidy : Tidy (twoSites []) ∧ Tidy (twoSites [otherFile]) :=
  ⟨⟨by decide, by decide, by decide⟩, ⟨by decide, by decide, by decide⟩⟩

theorem twoSites_agree : Agree 1 "site" (twoSites []) (twoSites [otherFile]) := by
  have hproject : (twoSites []).findProject 1 "site" = some ⟨0, 1, "site"⟩ := by decide
  refine ⟨twoSites_tidy, rfl, by decide, fun p hp => ?_⟩
  obtain rfl : ⟨0, 1, "site"⟩ = p := Option.some.inj (hproject.symm.trans hp)
  decide

/-- The model deletes the user's file; over tables with a file of another user the turn is the same. -/
theorem site_isolation_run : ∃ o w' s',
    Runs (turnStep anyProvider smallSite siteSession.id) deletingTurn
      (siteChat, ⟨twoSites [], twoSites []⟩) o (w', s') ∧ s'.db.files = [] ∧
    s'.Both (Frame 1 "site" (twoSites [])) ∧
    ∃ s₂, Runs (turnStep anyProvider smallSite siteSession.id) deletingTurn
      (siteChat, ⟨twoSites [otherFile], twoSites [otherFile]⟩) o (w', s₂) ∧ s'.Agree 1 "site" s₂ := by
  have hfiles : deletingEval.2.2.db.files = [] := by decide +kernel
  have hrun : Runs (turnStep anyProvider smallSite siteSession.id) deletingTurn
      (siteChat, ⟨twoSites [], twoSites []⟩) deletingEval.1
      (deletingEval.2.1.1, deletingEval.2.2) :=
    eval_runs (fun v : (ChatWorld × Script) × SiteWorld => (v.1.1, v.2)) _
      (turnAct_step smallSite siteSession.id)
      deletingTurn deletingStart
  have hnamed : Named siteSession.id siteSession.projectId siteChat := by
    constructor <;> exact fun row hrow => by
      obtain rfl : siteSession = row := Option.some.inj hrow
      rfl
  have h := ((site_isolation (.inl ⟨none, rfl⟩) hnamed twoSites_tidy.1).1 "site" rfl).2 _ _ _ hrun
  exact ⟨_, _, _, hrun, hfiles, h.1, h.2 _ twoSites_agree⟩

end ChatBackend.Website

import ChatBackend.Chat.Calls
import ChatBackend.Chat.Generation

/-!
# The requests do what the transition system says

`request_wp`: a request that has the store for itself commits only states of `Visits`, calls the
provider only as in `Calls`, and ends as in `Answers` or, when it raises, leaves a state of `Leaves`.
-/

namespace ChatBackend.Chat

open Prog Wallet Policy

variable {llm : LLMAnswer → Prop} {commit : ChatWorld → Prop}
  {call : LLMRequest → ChatWorld → Prop} {w : ChatWorld}
variable {cfg : Config}

/-! ## The beginning of a run -/

/-- A statement that reads only. -/
theorem wp_read {α : Type} {Q : Except AppError α → ChatWorld → Prop} (s : ChatStmt)
    (k : s.Resp → ChatProg α) (hs : watch commit call (.stmt s) w)
    (he : ∀ r, s.effect w.gen w.mem w.work r = ([], w.gen, w.mem))
    (h : ∀ r, s.Allowed llm w.gen w.mem w.work r → (k r).wp (chatStore llm).step (watch commit call) Q w) :
    (Prog.act (TxAct.stmt s) k : ChatProg α).wp (chatStore llm).step (watch commit call) Q w := by
  refine (wp_chatStmt s k w).2 ⟨hs, fun r hr => ?_⟩
  rw [he r]
  exact h r hr

theorem liftExcept_wp {α : Type} {Q : Except AppError α → ChatWorld → Prop} {x : Except AppError α}
    (done : ∀ a, x = .ok a → Q (.ok a) w) (raised : ∀ e, x = .error e → Q (.error e) w) :
    (liftExcept x).wp (chatStore llm).step (watch commit call) Q w := by
  cases x with
  | ok a => exact done a rfl
  | error e => exact raised e rfl

/-- The errors with which a run ends before it stores a user step: what is not found, what is not
supported, and a dialog mode that the database refuses. -/
inductive AppError.Refusal (e : AppError) : Prop
  | notFound (h : e.statusCode = 404)
  | unprocessable (h : e.statusCode = 422)
  | refused (h : e = .internal "invalid input value for enum dialog_mode")

theorem checkModel_refusal {model : Option String} {e : AppError} (h : checkModel cfg model = .error e) :
    e.Refusal := by
  unfold checkModel at h
  split at h
  · cases h
  · split at h <;> cases h
    exact .unprocessable rfl

theorem checkDialogMode_refusal {dialogMode : String} {e : AppError}
    (h : checkDialogMode cfg dialogMode = .error e) : e.Refusal := by
  unfold checkDialogMode at h
  split at h
  · cases h
    exact .unprocessable rfl
  · split at h <;> cases h
    exact .unprocessable rfl

theorem prepareEach_refusal {provider : Provider} {atts : List AttachmentIn} {total : ℕ} {e : AppError}
    (h : prepareEach cfg provider total atts = .error e) : e.Refusal := by
  induction atts generalizing total with
  | nil => cases h
  | cons att atts ih =>
    unfold prepareEach at h
    split at h
    · cases h
      exact .unprocessable rfl
    · split at h
      · rename_i e' he'
        cases h
        exact ih he'
      · cases h

theorem prepareOptional_refusal {atts : List AttachmentIn} {provider : Provider} {e : AppError}
    (h : prepareOptional cfg atts provider = .error e) : e.Refusal := by
  unfold prepareOptional prepareAttachments at h
  split at h
  · cases h
  · split at h
    · cases h
      exact .unprocessable rfl
    · cases hp : prepareEach cfg provider 0 atts with
      | ok a =>
        rw [hp] at h
        cases h
      | error e' =>
        rw [hp] at h
        cases h
        exact prepareEach_refusal hp

theorem seedSteps_wp {Q : Except AppError (List MemStep) → ChatWorld → Prop} {provider : Provider}
    {turns : List TemporaryTurn}
    (h : ∀ steps g, w.gen ≤ g → steps.map (·.payload) = turns.map (TemporaryTurn.payload provider) →
      Q (.ok steps) ⟨w.db, w.work, g, w.mem⟩) :
    (seedSteps provider turns).wp (chatStore llm).step (watch commit call) Q w := by
  induction turns generalizing w Q with
  | nil => exact h [] w.gen le_rfl rfl
  | cons turn turns ih =>
    rw [seedSteps, bind_eq, wp_bind]
    refine uuid4_wp ?_
    simp only [bindPost]
    rw [bind_eq, wp_bind]
    refine ih fun steps g hg hsteps => h _ g (Nat.le_of_succ_le hg) ?_
    rw [List.map_cons, List.map_cons, hsteps]
    rfl

/-- The synthetic session id of a temporary run is new, and its memory holds the transcript. -/
theorem openRepository_wp {Q : Except AppError ℕ → ChatWorld → Prop} {req : RunRequest}
    (temporary : req.temporary = true → ∀ seed g, w.gen < g →
      seed.map (·.payload) = req.history.map (TemporaryTurn.payload cfg.activeProvider) →
      Q (.ok w.gen) ⟨w.db, w.work, g, ⟨seed, w.mem.toolCalls, w.mem.calls⟩⟩)
    (stored : req.temporary = false → Q (.ok 0) w) :
    (openRepository cfg req).wp (chatStore llm).step (watch commit call) Q w := by
  unfold openRepository
  split
  · rename_i ht
    unfold ephemeralRepository
    rw [bind_eq, wp_bind]
    refine uuid4_wp ?_
    simp only [bindPost]
    rw [bind_eq, wp_bind]
    refine seedSteps_wp fun seed g hg hseed => ?_
    simp only [bindPost]
    refine (wp_chatStmt (.memInit seed) _ _).2 ⟨trivial, fun _ _ => ?_⟩
    exact temporary ht seed g hg hseed
  · rename_i ht
    exact stored (by simpa using ht)

theorem willCreateSession_wp {Q : Except AppError Bool → ChatWorld → Prop} {temporary : Bool}
    {u : ℕ} {sid : Option ℕ} (h : ∀ b, Q (.ok b) w) :
    (willCreateSession temporary u sid).wp (chatStore llm).step (watch commit call) Q w := by
  unfold willCreateSession
  split
  · exact h true
  split
  · exact h true
  refine wp_read (.getSession _ _) _ trivial (fun _ => rfl) fun r _ => ?_
  cases r with
  | none => exact h true
  | some s => exact wp_read (.isExpired s) _ trivial (fun _ => rfl) fun b _ => h b

theorem checkWorkspace_wp {Q : Except AppError Unit → ChatWorld → Prop} {u : ℕ} {ws : Option ℕ}
    (done : Q (.ok ()) w) (raised : ∀ e, e.Refusal → Q (.error e) w) :
    (checkWorkspace u ws).wp (chatStore llm).step (watch commit call) Q w := by
  unfold checkWorkspace
  split
  · exact done
  · refine wp_read (.ownsWorkspace _ _) _ trivial (fun _ => rfl) fun b _ => ?_
    cases b with
    | true => exact done
    | false => exact raised _ (.notFound rfl)

theorem resolveDialogMode_wp {Q : Except AppError String → ChatWorld → Prop} {u : ℕ}
    {mode : Option String} (h : ∀ dm, Q (.ok dm) w) :
    (resolveDialogMode u mode).wp (chatStore llm).step (watch commit call) Q w := by
  unfold resolveDialogMode
  split
  · exact h _
  · exact wp_read (.defaultDialogMode u) _ trivial (fun _ => rfl) fun dm _ => h dm

theorem createSession_wp {Q : Except AppError SessionContext → ChatWorld → Prop} {u : ℕ}
    {project : Option String} {mode : Mode} {dialogMode : String} {model : Option String}
    {ws : Option ℕ} (created : ∀ s : ChatSession, s.id = w.gen → s.userId = u ∧ s.mode = mode →
      Q (.ok ⟨s, true⟩) ⟨w.db, { w.work with sessions := w.work.sessions ++ [s] }, w.gen + 1, w.mem⟩)
    (raised : ∀ e, e.Refusal → Q (.error e) w) :
    (createSession u project mode dialogMode model ws).wp (chatStore llm).step (watch commit call) Q
      w := by
  refine (wp_chatStmt (.insertSession ..) _ _).2 ⟨trivial, ?_⟩
  rintro r (hr : r = if dialogMode ∈ dialogModes then some _ else none)
  split at hr
  · subst hr
    exact created _ rfl ⟨rfl, rfl⟩
  · subst hr
    exact raised _ (.refused rfl)

/-- A session that is found is one of the user's; otherwise a new one is inserted. -/
theorem getOrCreateSession_wp {Q : Except AppError SessionContext → ChatWorld → Prop} {u : ℕ}
    {project : Option String} {mode : Mode} {sid : Option ℕ} {dialogMode : String}
    {model : Option String} {ws : Option ℕ}
    (created : ∀ s : ChatSession, s.id = w.gen → s.userId = u ∧ s.mode = mode →
      Q (.ok ⟨s, true⟩) ⟨w.db, { w.work with sessions := w.work.sessions ++ [s] }, w.gen + 1, w.mem⟩)
    (resumed : ∀ s ∈ w.work.sessions, sid = some s.id → s.userId = u → s.id ∉ w.work.expired →
      Q (.ok ⟨s, false⟩) w)
    (raised : ∀ e, e.Refusal → Q (.error e) w) :
    (getOrCreateSession u project mode sid dialogMode model ws).wp (chatStore llm).step
      (watch commit call) Q w := by
  unfold getOrCreateSession
  split
  · exact createSession_wp created raised
  rename_i sid
  refine wp_read (.getSession sid u) _ trivial (fun _ => rfl) ?_
  rintro r (hr : r = _)
  simp only [ret_bind]
  cases r with
  | none => exact createSession_wp created raised
  | some s =>
    have hmem := List.mem_of_find?_eq_some hr.symm
    have hprop := List.find?_some hr.symm
    simp only [decide_eq_true_eq] at hprop
    refine wp_read (.isExpired s) _ trivial (fun _ => rfl) fun b hb => ?_
    cases b with
    | true => exact createSession_wp created raised
    | false => exact resumed s hmem (by rw [hprop.1]) hprop.2 fun hexpired => by cases hb hexpired

theorem openSession_wp {Q : Except AppError SessionContext → ChatWorld → Prop} {req : RunRequest}
    {synthetic : ℕ}
    (temporary : req.temporary = true → ∀ s : ChatSession, s.id = synthetic →
      s.userId = req.userId ∧ s.mode = req.mode → Q (.ok ⟨s, true⟩) w)
    (created : req.temporary = false → ∀ s : ChatSession, s.id = w.gen →
      s.userId = req.userId ∧ s.mode = req.mode →
      Q (.ok ⟨s, true⟩) ⟨w.db, { w.work with sessions := w.work.sessions ++ [s] }, w.gen + 1, w.mem⟩)
    (resumed : req.temporary = false → ∀ s ∈ w.work.sessions, req.sessionId = some s.id →
      s.userId = req.userId → s.id ∉ w.work.expired → Q (.ok ⟨s, false⟩) w)
    (raised : ∀ e, e.Refusal → Q (.error e) w) :
    (openSession cfg req synthetic).wp (chatStore llm).step (watch commit call) Q w := by
  unfold openSession
  simp only
  rw [bind_eq, wp_bind]
  refine willCreateSession_wp fun willCreate => ?_
  simp only [bindPost]
  rw [bind_eq, wp_bind]
  refine liftExcept_wp (fun _ _ => ?_) fun e he => raised e ?_
  swap
  · split at he
    · exact checkModel_refusal he
    · cases he
  simp only [bindPost]
  rw [bind_eq, wp_bind]
  refine checkWorkspace_wp ?_ raised
  simp only [bindPost]
  rw [bind_eq, wp_bind]
  refine resolveDialogMode_wp fun dm => ?_
  simp only [bindPost]
  rw [bind_eq, wp_bind]
  refine liftExcept_wp (fun _ _ => ?_) fun e he => raised e ?_
  swap
  · split at he
    · exact checkDialogMode_refusal he
    · cases he
  simp only [bindPost]
  split
  · rename_i ht
    exact temporary ht _ rfl ⟨rfl, rfl⟩
  · rename_i ht
    rw [Bool.not_eq_true] at ht
    exact getOrCreateSession_wp (created ht) (resumed ht) raised

/-! ## Truncation -/

theorem eq_of_seq {g : ℕ} {d : ChatDb} (hf : d.Fresh g) {a b : ChatStep} (ha : a ∈ d.steps)
    (hb : b ∈ d.steps) (h : a.seq = b.seq) : a = b := by
  have hnd : (d.steps.map (·.seq)).Nodup :=
    List.pairwise_map.2 (hf.stepsSorted.imp fun h => Nat.ne_of_lt h)
  exact List.inj_on_of_nodup_map hnd ha hb h

theorem eq_of_callId {g : ℕ} {d : ChatDb} (hf : d.Fresh g) {a b : ToolCall} (ha : a ∈ d.toolCalls)
    (hb : b ∈ d.toolCalls) (h : a.id = b.id) : a = b := by
  have hnd : (d.toolCalls.map (·.id)).Nodup :=
    List.pairwise_map.2 (hf.callsSorted.imp fun h => Nat.ne_of_lt h)
  exact List.inj_on_of_nodup_map hnd ha hb h

/-- Rows are deleted by their ids: those of the rows that were found, and no others. -/
theorem filter_not_mem_map {α : Type} {f : α → ℕ} {l : List α} {p : α → Prop} [DecidablePred p]
    (h : ∀ a ∈ l, ∀ b ∈ l, f a = f b → a = b) :
    (l.filter fun a => f a ∉ (l.filter fun b => p b).map f) = l.filter fun a => ¬p a := by
  refine List.filter_congr fun a ha => ?_
  simp only [List.mem_map, List.mem_filter, decide_eq_true_eq, decide_eq_decide, not_iff_not]
  constructor
  · rintro ⟨b, ⟨hb, hp⟩, hf⟩
    exact h b hb a ha hf ▸ hp
  · exact fun hp => ⟨a, ⟨ha, hp⟩, rfl⟩

theorem truncateFromMessageStep_wp {Q : Except AppError (Option ℕ) → ChatWorld → Prop}
    {sessionId messageStepId : ℕ} (hf : w.work.Fresh w.gen)
    (missing : w.work.anchor sessionId messageStepId = none → Q (.ok none) w)
    (done : ∀ anchor n, w.work.anchor sessionId messageStepId = some anchor →
      Q (.ok (some n)) ⟨w.db, w.work.truncate sessionId anchor.seq, w.gen, w.mem⟩) :
    (truncateFromMessageStep false sessionId messageStepId).wp (chatStore llm).step (watch commit call) Q
      w := by
  unfold truncateFromMessageStep
  simp only [Bool.false_eq_true, if_false]
  refine wp_read (.anchorSeq _ _) _ trivial (fun _ => rfl) ?_
  rintro r (hr : r = (w.work.anchor sessionId messageStepId).map (·.seq))
  simp only [ret_bind]
  cases ha : w.work.anchor sessionId messageStepId with
  | none =>
    rw [ha] at hr
    subst hr
    exact missing ha
  | some anchor =>
    rw [ha] at hr
    subst hr
    refine (wp_chatStmt (.deleteToolCalls ..) _ _).2 ⟨trivial, fun _ _ => ?_⟩
    simp only [ret_bind]
    refine (wp_chatStmt (.deleteSteps ..) _ _).2 ⟨trivial, fun n _ => ?_⟩
    have hcalls := filter_not_mem_map (l := w.work.toolCalls) (f := (·.id))
      (p := fun c => c.sessionId = sessionId ∧ c.messageStepId ∈
        (w.work.stepsFrom sessionId anchor.seq).map (·.messageStepId))
      fun a ha b hb => eq_of_callId hf ha hb
    have hsteps := filter_not_mem_map (l := w.work.steps) (f := (·.seq))
      (p := fun st => st.sessionId = sessionId ∧ anchor.seq ≤ st.seq)
      fun a ha b hb => eq_of_seq hf ha hb
    have := done anchor n ha
    unfold ChatDb.truncate at this
    rw [← hcalls, ← hsteps] at this
    exact this

/-- The edit of a run: the session was there before, and the edited turn is found. -/
theorem truncateForEdit_wp {Q : Except AppError Unit → ChatWorld → Prop} {temporary : Bool}
    {ctx : SessionContext} {edit : Option ℕ} (hf : w.work.Fresh w.gen)
    (none : edit = none → Q (.ok ()) w)
    (edited : temporary = false → ∀ msid anchor, edit = some msid → ctx.isNew = false →
      w.work.anchor ctx.session.id msid = some anchor →
      Q (.ok ()) ⟨w.db, w.work.truncate ctx.session.id anchor.seq, w.gen, w.mem⟩)
    (raised : ∀ e, e.Refusal → Q (.error e) w) :
    (truncateForEdit temporary ctx edit).wp (chatStore llm).step (watch commit call) Q w := by
  unfold truncateForEdit
  split
  · exact none rfl
  rename_i msid
  split
  · exact raised _ (.notFound rfl)
  rename_i hnew
  rw [bind_eq, wp_bind]
  cases ht : temporary with
  | true => exact raised _ (.notFound rfl)
  | false =>
    refine truncateFromMessageStep_wp hf (fun _ => raised _ (.notFound rfl)) fun anchor n ha => ?_
    exact edited ht msid anchor rfl (by simpa using hnew) ha

/-! ## The policy check and the generation -/

theorem workspaceAttachments_wp {Q : Except AppError (Option PreparedAttachments) → ChatWorld → Prop}
    {u : ℕ} {session : ChatSession} (h : ∀ workspace, LiveFiles cfg workspace → Q (.ok workspace) w) :
    (workspaceAttachments cfg u session).wp (chatStore llm).step (watch commit call) Q w := by
  unfold workspaceAttachments
  split
  · exact h _ (.inl rfl)
  · unfold contextForSession
    refine wp_read (.workspaceFiles ..) _ trivial (fun _ => rfl) fun r _ => ?_
    cases r with
    | none => exact h _ (.inl rfl)
    | some files => exact h _ (.inr ⟨files, rfl⟩)

theorem evaluateAccess_wp {Q : Except AppError (Decision × PolicyState) → ChatWorld → Prop} {u : ℕ}
    {session : ChatSession} {temporary : Bool}
    (h : Q (.ok (evaluate (w.work.policyState u) session.mode, w.work.policyState u))
      ⟨w.db, w.work.pay [policyAudit u session temporary (w.work.policyState u)], w.gen, w.mem⟩) :
    (evaluateAccess u session.mode (fkSessionId temporary session.id)).wp (chatStore llm).step
      (watch commit call) Q w := by
  unfold evaluateAccess
  refine wp_read (.loadPolicyState u) _ trivial (fun _ => rfl) ?_
  rintro _ rfl
  simp only [ret_bind]
  rw [bind_eq, wp_bind]
  exact recordAudit_wp h

theorem resolveApiKey_wp {Q : Except AppError (Option String × Option Provider) → ChatWorld → Prop}
    {u : ℕ} {mode : Mode}
    (done : ∀ key provider, w.work.resolvedKey u mode = some (key, provider) → Q (.ok (key, provider)) w)
    (raised : ∀ e, Q (.error e) w) :
    (resolveApiKey u mode).wp (chatStore llm).step (watch commit call) Q w := by
  unfold resolveApiKey
  cases mode with
  | credits => exact done _ _ rfl
  | byok =>
    refine wp_read (.plaintextKey u) _ trivial (fun _ => rfl) ?_
    rintro r (hr : r = (w.work.keys u).map fun key => (key.plaintext, key.provider))
    cases hkey : w.work.keys u with
    | none =>
      obtain rfl : r = none := by rw [hr, hkey]; rfl
      exact raised _
    | some key =>
      obtain rfl : r = some (key.plaintext, key.provider) := by rw [hr, hkey]; rfl
      exact done _ _ (by simp [ChatDb.resolvedKey, hkey])

section Request

variable {g : ℕ} {d : ChatDb} {request : ChatRequest}

/-- How a request ends, before its session scope is left. -/
def Finishes (llm : LLMAnswer → Prop) (cfg : Config) (g : ℕ) (d : ChatDb) (request : ChatRequest) :
    Except AppError ChatRunOut → ChatWorld → Prop
  | .ok out, w => Answers llm cfg g d request out w.gen w.work
  | .error _, w => Leaves llm cfg g d request w.gen w.db

/-- What is observed of a request: it commits states of `Visits`, and makes the provider calls of
`Calls` with no transaction open. -/
abbrev watchRequest (llm : LLMAnswer → Prop) (cfg : Config) (g : ℕ) (d : ChatDb) (request : ChatRequest) :
    TxAct ChatStmt → ChatWorld → Prop :=
  watch (fun w => Visits llm cfg g d request w.gen w.work)
    fun req w => w.db = w.work ∧ Calls llm cfg g d request req w.gen w.work w.mem

theorem generateLoop_wp {t : Turn} {att : Option PreparedAttachments} {g' : ℕ} {d' : ChatDb}
    {m : ChatMem} (hf : d'.Fresh g') (hle : g ≤ g') (ht : t.messageStepId < g')
    (h : Starts cfg g d request t att g' d' m) (hmode : t.provider cfg = none → t.mode = .byok ∧
      t.byokProvider = none) :
    (generateLoop cfg t att).wp (chatStore llm).step (watchRequest llm cfg g d request)
      (fun o w => Finishes llm cfg g d request o w ∧ ∀ out, o = .ok out → w.db = w.work)
      ⟨d, d', g', m⟩ := by
  unfold generateLoop
  split
  · rename_i hp
    obtain ⟨hmode, hprov⟩ := hmode hp
    have hans : Answers llm cfg g d request _ g' d' := .settled (.noProvider h hmode hprov)
    simp only [TxProg.commit, bind_eq, act_bind, ret_bind, Store.wp_commit]
    exact ⟨.answered hans, hans, fun _ _ => rfl⟩
  · rename_i provider hp
    have hpass : ∀ {rs g₁ d₁ m₁}, Generated llm cfg t provider att g' d' m rs g₁ d₁ m₁ →
        Passes llm cfg g d request t provider att rs g₁ d₁ m₁ := fun hg => .intro h hp hg
    show (generateRounds cfg t provider (cfg.maxServerToolRounds + 1)
      (if ([] : List Round) = [] then att else none) (accOf [])).wp _ _ _ _
    refine generateRounds_wp ht hf ?_ ?_ ?_ ?_ ?_ (cfg.maxServerToolRounds + 1) d .start nofun
    · exact fun rs g₁ d₁ m₁ db hg => .passed (hpass hg)
    · exact fun rs g₁ d₁ m₁ hg => ⟨rfl, .intro (hpass hg)⟩
    · intro rs g₁ d₁ m₁ answer pregen out g₂ d₂ m₂ hg hl he
      have hans : Answers llm cfg g d request out g₂ d₂ := .ended (hpass hg) hl he .skipped
      exact ⟨.answered hans, hans, fun _ _ => rfl⟩
    · intro rs g₁ d₁ m₁ hg e d₂ g₂ m₂ hle'
      exact ⟨⟨hle.trans (hg.le.trans hle'), .inr ⟨g₁, hle', .passed (hpass hg)⟩⟩, nofun⟩
    · intro rs g₁ d₁ m₁ hg e
      have hvis : Visits llm cfg g d request g₁ (t.exhausted cfg d₁) := .exhausted (hpass hg)
      exact ⟨hvis, ⟨hle.trans hg.le, .inr ⟨g₁, le_rfl, hvis⟩⟩, nofun⟩

/-- An answer with images may be followed by a sweep, which is committed or rolled back. -/
theorem sweepIfImages_wp {Q : Except AppError Unit → ChatWorld → Prop} {out : ChatRunOut}
    (hdb : w.db = w.work) (h : Answers llm cfg g d request out w.gen w.work)
    (done : ∀ w', Answers llm cfg g d request out w'.gen w'.work → Q (.ok ()) w') :
    (sweepIfImages cfg out).wp (chatStore llm).step (watchRequest llm cfg g d request) Q w := by
  unfold sweepIfImages
  split
  · exact done w h
  rename_i hi
  unfold maybeSweepExpiredImages
  refine wp_read .sweepLock _ trivial (fun _ => rfl) fun locked _ => ?_
  cases locked with
  | false => exact done w h
  | true =>
    simp only [ret_bind, if_true]
    refine (wp_chatStmt (.deleteExpiredImages _) _ _).2 ⟨trivial, fun deleted _ => ?_⟩
    cases deleted with
    | none =>
      simp only [ret_bind, TxProg.rollback, Store.wp_rollback]
      exact ⟨trivial, done _ (by simpa [hdb, ChatStmt.effect] using h)⟩
    | some ids =>
      have hans : Answers llm cfg g d request out w.gen (w.work.sweep ids) := h.sweep hi ids
      simp only [ret_bind, TxProg.commit, Store.wp_commit]
      exact ⟨.answered hans, done _ hans⟩

theorem turnOf_provider {u messageStepId : ℕ} {session : ChatSession} {temporary : Bool}
    {state : PolicyState} {apiKey : Option String} {byokProvider : Option Provider}
    (h : (turnOf u session messageStepId temporary state apiKey byokProvider).provider cfg = none) :
    session.mode = .byok ∧ byokProvider = none := by
  unfold turnOf Turn.provider at h
  cases hm : session.mode <;> simp_all

/-- The policy check and the generation of a turn that is ready. -/
theorem generate_wp {u messageStepId : ℕ} {session : ChatSession} {temporary : Bool}
    {context : ChatProg (Option PreparedAttachments)} {att₀ : Option PreparedAttachments} {g' : ℕ}
    {d' : ChatDb} {m : ChatMem} (hf : d.Fresh g)
    (hready : Ready cfg g d request u session messageStepId temporary att₀ g' d' m)
    (hcontext : ∀ {Q : Except AppError (Option PreparedAttachments) → ChatWorld → Prop}
      {w : ChatWorld}, (∀ att, Ready cfg g d request u session messageStepId temporary att g' d' m →
        Q (.ok att) w) → context.wp (chatStore llm).step (watchRequest llm cfg g d request) Q w) :
    (generate cfg u session messageStepId temporary context).wp (chatStore llm).step
      (watchRequest llm cfg g d request) (Finishes llm cfg g d request) ⟨d, d', g', m⟩ := by
  obtain ⟨hlt, hle, hf'⟩ := hready.fresh hf
  unfold generate
  rw [bind_eq, wp_bind]
  refine evaluateAccess_wp ?_
  simp only [bindPost]
  cases hp : evaluate (d'.policyState u) session.mode with
  | blocked reason =>
    simp only
    exact .settled (.denied hready hp)
  | allowed =>
    simp only
    have hfails : ∀ e, Finishes llm cfg g d request (.error e)
        ⟨d, d'.pay [policyAudit u session temporary (d'.policyState u)], g', m⟩ := fun e => ⟨hle, .inl rfl⟩
    rw [bind_eq, wp_bind]
    refine resolveApiKey_wp (fun key provider hkey => ?_) hfails
    simp only [bindPost]
    rw [bind_eq, wp_bind]
    refine hcontext fun att hatt => ?_
    simp only [bindPost]
    rw [bind_eq, wp_bind]
    refine wp_mono (fun o w hw => ?_) (generateLoop_wp (hf'.pay (by simp [rows, policyAudit])) hle hlt
      (.intro hatt hp hkey) turnOf_provider)
    obtain ⟨hfin, hdb⟩ := hw
    cases o with
    | error e => exact hfin
    | ok out =>
      simp only [bindPost]
      rw [bind_eq, wp_bind]
      exact sweepIfImages_wp (hdb out rfl) hfin fun w' hw' => hw'

/-! ## run -/

/-- What `run` does once its session is open and the edited turn is gone. -/
theorem openTurn_wp {req : RunRequest} {session : ChatSession} {g₁ : ℕ} {d₁ : ChatDb}
    {m₁ : ChatMem} (hf : d.Fresh g) (hg : g ≤ g₁)
    (hopen : ∀ prepared workspace m, prepareOptional cfg req.attachments cfg.activeProvider =
        .ok prepared → MemGrows req.temporary m₁ [⟨g, req.payload cfg prepared, none⟩] m →
      Opened cfg req g d ⟨session, prepared, workspace⟩ (nextStep req.temporary g₁)
        (d₁.extend (stepDelta req.temporary session.id g g₁ (req.payload cfg prepared) none)) m) :
    (do
      let workspace ← workspaceAttachments cfg req.userId session
      let prepared ← liftExcept (prepareOptional cfg req.attachments cfg.activeProvider)
      let _ ← addStep req.temporary session.id g (req.payload cfg prepared) none
      generate cfg req.userId session g req.temporary
        (pure (mergeAttachments prepared workspace)) : ChatProg ChatRunOut).wp (chatStore llm).step
      (watchRequest llm cfg g d (.run req)) (Finishes llm cfg g d (.run req)) ⟨d, d₁, g₁, m₁⟩ := by
  rw [bind_eq, wp_bind]
  refine workspaceAttachments_wp fun workspace hw => ?_
  simp only [bindPost]
  rw [bind_eq, wp_bind]
  refine liftExcept_wp (fun prepared hp => ?_) fun e _ => ⟨hg, .inl rfl⟩
  simp only [bindPost]
  rw [bind_eq, wp_bind]
  refine addStep_wp fun m hm => ?_
  simp only [bindPost]
  have hready := Ready.run (hopen prepared workspace m hp hm) hw
  exact generate_wp hf hready fun h => h _ hready

theorem run_wp {req : RunRequest} (hf : d.Fresh g) :
    (run cfg req).wp (chatStore llm).step (watchRequest llm cfg g d (.run req))
      (Finishes llm cfg g d (.run req)) ⟨d, d, g, ⟨[], [], []⟩⟩ := by
  have hraised : ∀ {d₁ g₁ m₁}, g ≤ g₁ → ∀ e,
      Finishes llm cfg g d (.run req) (.error e) ⟨d, d₁, g₁, m₁⟩ := fun hg e => ⟨hg, .inl rfl⟩
  have hf₁ := hf.mono (Nat.le_succ g)
  unfold run
  rw [bind_eq, wp_bind]
  refine uuid4_wp ?_
  simp only [bindPost]
  rw [bind_eq, wp_bind]
  refine openRepository_wp ?_ ?_
  · intro ht seed g₁ hg₁ hseed
    have hg₁ : g + 1 < g₁ := hg₁
    have hle : g ≤ g₁ := by omega
    simp only [bindPost]
    rw [bind_eq, wp_bind]
    refine openSession_wp (fun _ s hs hu => ?_) (fun h => ?_) (fun h => ?_) fun e _ => hraised hle e
    · simp only [bindPost]
      rw [bind_eq, wp_bind]
      refine truncateForEdit_wp (hf.mono hle) (fun he => ?_) (fun h => ?_) fun e _ => hraised hle e
      · refine openTurn_wp hf hle fun prepared workspace m hp hm => ?_
        simp only [ht, nextStep, stepDelta_temporary, ChatDb.extend_empty, if_true] at hm ⊢
        exact .temporary ht hp ⟨by simp [hs], by simp [hs, hg₁]⟩ hu
          (show m.steps = seed ++ _ by simpa using hm.steps) (by omega) hm.calls hseed
      · rw [ht] at h
        cases h
    · rw [ht] at h
      cases h
    · rw [ht] at h
      cases h
  · intro ht
    simp only [bindPost]
    rw [bind_eq, wp_bind]
    have hnext : ∀ n, nextStep req.temporary n = n + 1 := fun n => by simp [nextStep, ht]
    refine openSession_wp (fun h => ?_) (fun _ s hs hu => ?_) (fun _ s hmem hid hu _ => ?_)
      fun e _ => hraised (Nat.le_succ g) e
    · rw [ht] at h
      cases h
    · simp only [bindPost]
      rw [bind_eq, wp_bind]
      refine truncateForEdit_wp (hf₁.addSession hs) (fun he => ?_)
        (fun _ msid anchor _ h => absurd h (by simp))
        fun e _ => hraised (by omega) e
      refine openTurn_wp hf (by omega) fun prepared workspace m hp hm => ?_
      rw [hnext, ht]
      exact .created ht hp hs hu he hm.calls
    · simp only [bindPost]
      rw [bind_eq, wp_bind]
      refine truncateForEdit_wp hf₁ (fun he => ?_) (fun _ msid anchor he _ ha => ?_)
        fun e _ => hraised (Nat.le_succ g) e
      · refine openTurn_wp hf (Nat.le_succ g) fun prepared workspace m hp hm => ?_
        rw [hnext, ht]
        exact .resumed ht hp hmem hid hu he hm.calls
      · refine openTurn_wp hf (Nat.le_succ g) fun prepared workspace m hp hm => ?_
        rw [hnext, ht]
        exact .edited ht hp hmem hid hu he ha hm.calls

/-! ## tool_result -/

theorem resolveItems_wp {Q : Except AppError (List (ToolResultIn × ToolCall)) → ChatWorld → Prop}
    {sessionId : ℕ} {items : List ToolResultIn} {turn : Option ℕ}
    {acc : List (ToolResultIn × ToolCall)}
    (done : ∀ rs, rs.map Prod.fst = items → (∀ p ∈ rs, p.2 ∈ w.work.toolCalls ∧
        p.2.id = p.1.toolCallId ∧ p.2.sessionId = sessionId) →
      (∃ m, (∀ p ∈ rs, p.2.messageStepId = m) ∧ ∀ m', turn = some m' → m' = m) →
      Q (.ok (acc ++ rs)) w)
    (raised : ∀ e, Q (.error e) w) :
    (resolveItems sessionId items turn acc).wp (chatStore llm).step (watch commit call) Q w := by
  induction items generalizing turn acc with
  | nil =>
    have := done [] rfl (by simp) ⟨turn.getD 0, by simp, fun m' h => by simp [h]⟩
    rwa [List.append_nil] at this
  | cons item items ih =>
    unfold resolveItems
    refine wp_read (.getToolCall _) _ trivial (fun _ => rfl) ?_
    rintro r (hr : r = w.work.toolCall item.toolCallId)
    cases r with
    | none => exact raised _
    | some c =>
      have hmem := List.mem_of_find?_eq_some hr.symm
      have hid : c.id = item.toolCallId := by simpa using List.find?_some hr.symm
      simp only [ret_bind]
      split
      · exact raised _
      rename_i hsession
      split
      · exact raised _
      rename_i hturn
      refine ih fun rs hmap hrs hm => ?_
      obtain ⟨m, hm, hm'⟩ := hm
      have hc : c.messageStepId = m := hm' _ rfl
      rw [List.append_assoc]
      refine done ((item, c) :: rs) (by simp [hmap]) ?_ ⟨m, ?_, ?_⟩
      · rintro p (_ | ⟨_, hp⟩)
        · exact ⟨hmem, hid, not_not.1 hsession⟩
        · exact hrs p hp
      · rintro p (_ | ⟨_, hp⟩)
        · exact hc
        · exact hm p hp
      · rintro m' rfl
        rw [← hc]
        simpa using hturn

theorem auditMutation_wp {Q : Except AppError Unit → ChatWorld → Prop} {u sessionId : ℕ}
    {toolName : ToolName} {payload : List (String × Json)}
    (h : Q (.ok ()) ⟨w.db, w.work.pay (if toolName.mutating then
      [.insertAudit (AuditEvent.redacted ⟨u, some sessionId, .toolMutation, .obj payload⟩)] else []),
      w.gen, w.mem⟩) :
    (auditMutation u sessionId toolName payload).wp (chatStore llm).step (watch commit call) Q w := by
  unfold auditMutation
  split
  · rename_i hm
    rw [if_pos hm] at h
    exact recordAudit_wp h
  · rename_i hm
    rw [if_neg hm] at h
    exact h

theorem applyToolResult_wp {Q : Except AppError Unit → ChatWorld → Prop} {u : ℕ} {c : ToolCall}
    {outcome : ToolOutcome}
    (delivered : w.work.isPending c.id = true → ∀ m, MemGrows false w.mem [] m →
      Q (.ok ()) ⟨w.db, w.work.deliver u w.gen c outcome, w.gen + 1, m⟩)
    (skipped : w.work.isPending c.id = false → Q (.ok ()) w) :
    (applyToolResult u c.sessionId c.messageStepId c outcome).wp (chatStore llm).step
      (watch commit call) Q w := by
  unfold applyToolResult completeToolCall
  refine (wp_chatStmt (.completeToolCall ..) _ _).2 ⟨trivial, ?_⟩
  rintro r (hr : r = w.work.isPending c.id)
  cases hp : w.work.isPending c.id with
  | false =>
    rw [hp] at hr
    subst hr
    exact skipped hp
  | true =>
    rw [hp] at hr
    subst hr
    simp only [ret_bind, if_true]
    rw [bind_eq, wp_bind]
    refine addStep_wp fun m hm => ?_
    simp only [bindPost]
    rw [bind_eq, wp_bind]
    refine auditMutation_wp ?_
    simp only [bindPost]
    refine recordAudit_wp ?_
    have := delivered hp m ⟨by simpa [ChatStmt.effect] using hm.steps, hm.calls⟩
    simpa [ChatDb.deliver, ChatStmt.effect, ChatOp.apply, ChatDb.extend, ChatDb.pay, stepDelta,
      nextStep, applyAll_append] using this

theorem applyResults_wp {Q : Except AppError Unit → ChatWorld → Prop} {u sessionId turn : ℕ}
    {rs : List (ToolResultIn × ToolCall)}
    (hrs : ∀ p ∈ rs, p.2.sessionId = sessionId ∧ p.2.messageStepId = turn)
    (h : ∀ m, MemGrows false w.mem [] m → Q (.ok ())
      ⟨w.db, (deliverAll u rs w.gen w.work).2, (deliverAll u rs w.gen w.work).1, m⟩) :
    (applyResults u sessionId turn rs).wp (chatStore llm).step (watch commit call) Q w := by
  induction rs generalizing w with
  | nil => exact h _ (.refl ..)
  | cons p rs ih =>
    obtain ⟨item, c⟩ := p
    obtain ⟨rfl, rfl⟩ := hrs _ (List.mem_cons_self ..)
    have htail := fun p hp => hrs p (List.mem_cons_of_mem _ hp)
    unfold applyResults
    unfold deliverAll at h
    cases hc : c.status.done with
    | true =>
      simp only [hc, Bool.not_true, Bool.false_and, Bool.false_eq_true, if_false] at h
      exact ih htail h
    | false =>
      simp only [hc, Bool.not_false, Bool.true_and] at h
      simp only [Bool.false_eq_true, if_false]
      rw [bind_eq, wp_bind]
      refine applyToolResult_wp (fun hp m hm => ?_) fun hp => ?_
      · rw [if_pos hp] at h
        exact ih htail fun m' hm' => h m' (by simpa using hm.trans hm')
      · rw [if_neg (by simp [hp])] at h
        exact ih htail h

theorem nextStepAfter_wp {Q : Except AppError (Option ChatStep) → ChatWorld → Prop}
    {sessionId turn anchor : ℕ} (h : Q (.ok (w.work.nextStepAfter sessionId turn anchor)) w) :
    (nextStepAfter sessionId turn anchor).wp (chatStore llm).step (watch commit call) Q w := by
  unfold nextStepAfter
  unfold ChatDb.nextStepAfter at h
  refine wp_read (.toolStepSeq ..) _ trivial (fun _ => rfl) ?_
  rintro r (hr : r = _)
  cases hfind : (w.work.turnSteps sessionId turn).find? (·.payload.answers = some anchor) with
  | none =>
    rw [hfind] at hr h
    subst hr
    refine wp_read (.lastAssistant ..) _ trivial (fun _ => rfl) ?_
    rintro _ rfl
    exact h
  | some st =>
    rw [hfind] at hr h
    subst hr
    refine wp_read (.firstAssistantAfter ..) _ trivial (fun _ => rfl) ?_
    rintro _ rfl
    exact h

/-- The step after a result is one of the assistant. -/
theorem isAssistant_nextStepAfter {sessionId turn anchor : ℕ} {st : ChatStep}
    (h : d.nextStepAfter sessionId turn anchor = some st) : st.payload.isAssistant = true := by
  unfold ChatDb.nextStepAfter at h
  split at h
  · have := List.find?_some h
    simp only [decide_eq_true_eq] at this
    exact this.1
  · have := List.find?_some h
    simpa using this

/-- With the rows refreshed, every call of a batch that has been applied is done. -/
theorem allAlreadyDoneBefore_applied {u sessionId turn : ℕ} {results : List ToolResultIn}
    {session : ChatSession} {rs : List (ToolResultIn × ToolCall)} {turnCalls : List ToolCall}
    (hf : d.Fresh g) (h : Resolved d u sessionId results session turn rs)
    (hperm : turnCalls.Perm ((deliverAll u rs g d).2.toolCalls.filter fun c =>
      c.sessionId = sessionId ∧ c.messageStepId = turn)) :
    allAlreadyDoneBefore turnCalls rs = true := by
  refine List.all_eq_true.2 fun p hp => ?_
  obtain ⟨hmem, hid, hs, hm⟩ := h.calls p hp
  have hrow : ∃ c ∈ (deliverAll u rs g d).2.toolCalls, c.id = p.2.id ∧
      c.sessionId = p.2.sessionId ∧ c.messageStepId = p.2.messageStepId := exists_deliverAll hmem
  obtain ⟨c, hc, hcid, hcs, hcm⟩ := hrow
  unfold refreshed
  cases hfind : turnCalls.find? (·.id = p.2.id) with
  | none =>
    have hin : c ∈ turnCalls := by
      refine hperm.mem_iff.2 (List.mem_filter.2 ⟨hc, ?_⟩)
      simp [hcs, hcm, hs, hm]
    have := List.find?_eq_none.1 hfind c hin
    simp [hcid] at this
  | some c' =>
    have hmem' := (List.mem_filter.1 (hperm.mem_iff.1 (List.mem_of_find?_eq_some hfind))).1
    have hid' : c'.id = p.2.id := by simpa using List.find?_some hfind
    refine (ToolStatus.done_iff _).2 (deliverAll_done (fun q hq hdone c₀ h₀ heq => ?_) hp hmem' hid')
    rw [eq_of_callId hf h₀ (h.calls q hq).1 heq]
    exact hdone

theorem continueTurn_wp {u sessionId turn : ℕ} {results : List ToolResultIn}
    {session : ChatSession} {first : ToolResultIn × ToolCall}
    {rs : List (ToolResultIn × ToolCall)} {turnCalls : List ToolCall} {m : ChatMem}
    (hf : d.Fresh g) (h : Resolved d u sessionId results session turn (first :: rs))
    (hb : (deliverAll u (first :: rs) g d).2.BarrierClosed sessionId turn)
    (hperm : turnCalls.Perm ((deliverAll u (first :: rs) g d).2.toolCalls.filter fun c =>
      c.sessionId = sessionId ∧ c.messageStepId = turn)) (hm : m.calls = []) :
    (continueTurn cfg u session turn first.2.id turnCalls (first :: rs)).wp (chatStore llm).step
      (watchRequest llm cfg g d (.toolResult u sessionId results))
      (Finishes llm cfg g d (.toolResult u sessionId results))
      ⟨d, (deliverAll u (first :: rs) g d).2, (deliverAll u (first :: rs) g d).1, m⟩ := by
  have hid := h.session_id
  unfold continueTurn
  rw [bind_eq, wp_bind]
  refine nextStepAfter_wp ?_
  simp only [bindPost, hid]
  cases hn : (deliverAll u (first :: rs) g d).2.nextStepAfter sessionId turn first.2.id with
  | none =>
    have hready : ∀ workspace, LiveFiles cfg workspace →
        Ready cfg g d (.toolResult u sessionId results) u session turn false
          (mergeAttachments none workspace) _ _ m := fun workspace => .toolResult h hb hn hm
    refine generate_wp hf (hready none (.inl rfl)) fun hQ => ?_
    unfold continuationAttachments
    rw [bind_eq, wp_bind]
    exact workspaceAttachments_wp fun workspace hw => hQ _ (hready workspace hw)
  | some st =>
    have hassistant := isAssistant_nextStepAfter hn
    obtain ⟨seq, sid, msid, payload, usage⟩ := st
    cases payload with
    | user content prompt => cases hassistant
    | tool id pid name result error => cases hassistant
    | assistant content =>
      simp only [allAlreadyDoneBefore_applied hf h hperm, if_true]
      exact .settled (.replayed rfl h hb hn rfl)

theorem toolResult_wp {u sessionId : ℕ} {results : List ToolResultIn} (hf : d.Fresh g) :
    (toolResult cfg u sessionId results).wp (chatStore llm).step
      (watchRequest llm cfg g d (.toolResult u sessionId results))
      (Finishes llm cfg g d (.toolResult u sessionId results)) ⟨d, d, g, ⟨[], [], []⟩⟩ := by
  have hraised : ∀ e, Finishes llm cfg g d (.toolResult u sessionId results) (.error e)
      ⟨d, d, g, ⟨[], [], []⟩⟩ := fun e => ⟨le_rfl, .inl rfl⟩
  unfold toolResult
  refine wp_read (.getSession ..) _ trivial (fun _ => rfl) ?_
  rintro r (hr : r = _)
  simp only [ret_bind]
  cases r with
  | none => exact hraised _
  | some session =>
    have hmem := List.mem_of_find?_eq_some hr.symm
    have hsession := List.find?_some hr.symm
    simp only [decide_eq_true_eq] at hsession
    simp only
    rw [bind_eq, wp_bind]
    refine resolveItems_wp (fun rs hmap hrs hturn => ?_) hraised
    simp only [bindPost, List.nil_append]
    cases rs with
    | nil => exact hraised _
    | cons first rs =>
      obtain ⟨turn, hturn, -⟩ := hturn
      have hfirst : first.2.messageStepId = turn := hturn _ (List.mem_cons_self ..)
      have h : Resolved d u sessionId results session turn (first :: rs) :=
        ⟨hmem, hsession.1, hsession.2, hmap, List.cons_ne_nil _ _, fun p hp =>
          ⟨(hrs p hp).1, (hrs p hp).2.1, (hrs p hp).2.2, hturn p hp⟩⟩
      simp only [hfirst]
      rw [bind_eq, wp_bind]
      refine applyResults_wp (fun p hp => (h.calls p hp).2.2) fun m hm => ?_
      simp only [bindPost]
      refine wp_read (.listToolCallsForStep ..) _ trivial (fun _ => rfl) fun turnCalls hperm => ?_
      simp only [ret_bind]
      have hpending := hperm.filter fun c => c.toolName.clientSide && !c.status.done
      split
      · rename_i hnone
        refine continueTurn_wp hf h (fun c hc hs hm hside => ?_) hperm hm.calls
        have hnil := hpending
        rw [show turnCalls.filter _ = [] from hnone] at hnil
        have := List.filter_eq_nil_iff.1 hnil.symm.eq_nil c (List.mem_filter.2 ⟨hc, by simp [hs, hm]⟩)
        simpa [hside] using this
      · rename_i hne
        have hans : ∀ stepId, Answers llm cfg g d (.toolResult u sessionId results)
            (awaiting sessionId turn (pendingCalls turnCalls) stepId) _ _ := fun stepId =>
          .settled (.awaiting rfl h hpending hne)
        simp only [TxProg.commit, bind_eq, act_bind, ret_bind, Store.wp_commit]
        refine ⟨.answered (hans none), ?_⟩
        exact wp_read (.assistantToolStepId ..) _ trivial (fun _ => rfl) fun stepId _ => hans stepId

/-! ## A request -/

/-- **What a request does**, when it has the store for itself. -/
theorem request_wp (hf : d.Fresh g) :
    (request.prog cfg).wp (chatStore llm).step (watchRequest llm cfg g d request)
      (fun o w => w.db = w.work ∧ Finishes llm cfg g d request o w) ⟨d, d, g, ⟨[], [], []⟩⟩ := by
  have hscope : ∀ {p : ChatProg ChatRunOut},
      p.wp (chatStore llm).step (watchRequest llm cfg g d request) (Finishes llm cfg g d request)
        ⟨d, d, g, ⟨[], [], []⟩⟩ →
      (TxProg.sessionScope p).wp (chatStore llm).step (watchRequest llm cfg g d request)
        (fun o w => w.db = w.work ∧ Finishes llm cfg g d request o w) ⟨d, d, g, ⟨[], [], []⟩⟩ := by
    intro p hp
    unfold TxProg.sessionScope
    rw [wp_tryCatch, wp_bind]
    refine wp_mono (fun o w hw => ?_) hp
    cases o with
    | ok out =>
      simp only [bindPost, TxProg.commit, act_bind, ret_bind, Store.wp_commit]
      exact ⟨.answered hw, rfl, hw⟩
    | error e =>
      simp only [bindPost, catchPost, TxProg.rollback, act_bind, ret_bind, Store.wp_rollback]
      exact ⟨trivial, rfl, hw⟩
  cases request with
  | run req => exact hscope (run_wp hf)
  | toolResult u sessionId results => exact hscope (toolResult_wp hf)

end Request

end ChatBackend.Chat

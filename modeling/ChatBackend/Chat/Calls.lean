import ChatBackend.Chat.Rounds

/-!
# What a request does to the tables

A request by itself, as a transition system over the committed tables: how a run opens its turn,
how a batch of tool results is delivered, from which state a turn is generated, and which states are
committed on the way.

* `Starts` are the states in which the generation of a turn begins.
* `Visits`, `Calls`, `Answers` and `Leaves` are the commits, the provider calls, the answers and the
  failures of a request. That the code does nothing else is proved in the module of the requests.
-/

namespace ChatBackend.Chat

open Wallet Policy

/-! ## Editing -/

/-- The steps of a session from `anchor` on. -/
def ChatDb.stepsFrom (d : ChatDb) (sessionId anchor : ℕ) : List ChatStep :=
  d.steps.filter fun st => st.sessionId = sessionId ∧ anchor ≤ st.seq

/-- The tables without the steps of a session from `anchor` on, and without the calls of the turns
that have such a step. -/
def ChatDb.truncate (d : ChatDb) (sessionId anchor : ℕ) : ChatDb :=
  { d with
    toolCalls := d.toolCalls.filter fun c => ¬(c.sessionId = sessionId ∧
      c.messageStepId ∈ (d.stepsFrom sessionId anchor).map (·.messageStepId))
    steps := d.steps.filter fun st => ¬(st.sessionId = sessionId ∧ anchor ≤ st.seq) }

/-- The user step of a turn. -/
def ChatDb.anchor (d : ChatDb) (sessionId messageStepId : ℕ) : Option ChatStep :=
  (d.turnSteps sessionId messageStepId).find? (·.payload.isUser)

/-! ## Opening a turn -/

/-- What a run has found out when its user step is stored. -/
structure Opening where
  session : ChatSession
  prepared : Option PreparedAttachments
  workspace : Option PreparedAttachments

/-- The payload of the user step. -/
def RunRequest.payload (cfg : Config) (req : RunRequest) (prepared : Option PreparedAttachments) :
    Payload :=
  userPayload (composeTurn0Text (cfg.renderContextBlock req.context) req.message) prepared
    (resolveActionPrompt req.actionPrompt)

/-- The payload of a turn of the transcript that a client sends. -/
def TemporaryTurn.payload (provider : Provider) (turn : TemporaryTurn) : Payload :=
  if turn.fromUser then .user (historyBlocks turn provider) none
  else .assistant (historyBlocks turn provider)

/-- The tables `d'` and the memory when a run that began on `d` has stored its user step; the id of
the turn is the counter `g` at the beginning. -/
inductive Opened (cfg : Config) (req : RunRequest) (g : ℕ) (d : ChatDb) :
    Opening → ℕ → ChatDb → ChatMem → Prop
  | temporary {o : Opening} {g' : ℕ} {seed : List MemStep} {m : ChatMem}
      (ht : req.temporary = true) (hp : prepareOptional cfg req.attachments cfg.activeProvider =
        .ok o.prepared)
      (hs : g ≤ o.session.id ∧ o.session.id < g')
      (hu : o.session.userId = req.userId ∧ o.session.mode = req.mode)
      (hm : m.steps = seed ++ [⟨g, req.payload cfg o.prepared, none⟩]) (hg : g < g')
      (hc : m.calls = [])
      (hseed : seed.map (·.payload) = req.history.map (TemporaryTurn.payload cfg.activeProvider)) :
      Opened cfg req g d o g' d m
  | created {o : Opening} {m : ChatMem}
      (ht : req.temporary = false) (hp : prepareOptional cfg req.attachments cfg.activeProvider =
        .ok o.prepared)
      (hs : o.session.id = g + 1) (hu : o.session.userId = req.userId ∧ o.session.mode = req.mode)
      (he : req.editMessageStepId = none) (hc : m.calls = []) :
      Opened cfg req g d o (g + 3)
        (({ d with sessions := d.sessions ++ [o.session] }).extend
          (stepDelta false o.session.id g (g + 2) (req.payload cfg o.prepared) none)) m
  | resumed {o : Opening} {m : ChatMem}
      (ht : req.temporary = false) (hp : prepareOptional cfg req.attachments cfg.activeProvider =
        .ok o.prepared)
      (hs : o.session ∈ d.sessions) (hid : req.sessionId = some o.session.id)
      (hu : o.session.userId = req.userId)
      (he : req.editMessageStepId = none) (hc : m.calls = []) :
      Opened cfg req g d o (g + 2)
        (d.extend (stepDelta false o.session.id g (g + 1) (req.payload cfg o.prepared) none)) m
  | edited {o : Opening} {msid : ℕ} {anchor : ChatStep} {m : ChatMem}
      (ht : req.temporary = false) (hp : prepareOptional cfg req.attachments cfg.activeProvider =
        .ok o.prepared)
      (hs : o.session ∈ d.sessions) (hid : req.sessionId = some o.session.id)
      (hu : o.session.userId = req.userId)
      (he : req.editMessageStepId = some msid)
      (ha : d.anchor o.session.id msid = some anchor) (hc : m.calls = []) :
      Opened cfg req g d o (g + 2)
        ((d.truncate o.session.id anchor.seq).extend
          (stepDelta false o.session.id g (g + 1) (req.payload cfg o.prepared) none)) m

/-! ## Delivering results -/

/-- The tables after the first delivery of a result, with the counter at `g`. -/
def ChatDb.deliver (d : ChatDb) (userId g : ℕ) (c : ToolCall) (outcome : ToolOutcome) : ChatDb :=
  let payload : List (String × Json) := [("toolCallId", .num c.id),
    ("toolName", .str c.toolName.str), ("status", .str outcome.status.str)]
  { d with
    toolCalls := d.toolCalls.map (ToolCall.complete c.id outcome.status outcome.body)
    steps := d.steps ++ [⟨g, c.sessionId, c.messageStepId, .tool c.id c.providerToolUseId c.toolName
      outcome.resultBody outcome.errorBody, none⟩]
    accounts := applyAll
      ((if c.toolName.mutating then
          [.insertAudit (AuditEvent.redacted ⟨userId, some c.sessionId, .toolMutation, .obj payload⟩)]
        else []) ++
        [.insertAudit (AuditEvent.redacted
          ⟨userId, some c.sessionId, .toolCallCompleted, .obj payload⟩)]) d.accounts }

/-- A call that is stored as pending. -/
def ChatDb.isPending (d : ChatDb) (id : ℕ) : Bool :=
  d.toolCalls.any fun c => c.id = id ∧ c.status = .pending

/-- The tables after the delivery of a batch: an item whose call is done changes nothing. -/
def deliverAll (userId : ℕ) : List (ToolResultIn × ToolCall) → ℕ → ChatDb → ℕ × ChatDb
  | [], g, d => (g, d)
  | (item, c) :: rest, g, d =>
    if !c.status.done && d.isPending c.id then
      deliverAll userId rest (g + 1) (d.deliver userId g c item.outcome)
    else deliverAll userId rest g d

/-- A batch with the calls of its items, all of one turn of a session of the user. -/
structure Resolved (d : ChatDb) (userId sessionId : ℕ) (results : List ToolResultIn)
    (session : ChatSession) (messageStepId : ℕ) (resolved : List (ToolResultIn × ToolCall)) :
    Prop where
  session_mem : session ∈ d.sessions
  session_id : session.id = sessionId
  user : session.userId = userId
  items : resolved.map Prod.fst = results
  ne_nil : resolved ≠ []
  calls : ∀ p ∈ resolved, p.2 ∈ d.toolCalls ∧ p.2.id = p.1.toolCallId ∧
    p.2.sessionId = sessionId ∧ p.2.messageStepId = messageStepId

/-- No call of the turn is left for the client to answer. -/
def ChatDb.BarrierClosed (d : ChatDb) (sessionId messageStepId : ℕ) : Prop :=
  ∀ c ∈ d.toolCalls, c.sessionId = sessionId → c.messageStepId = messageStepId →
    c.toolName.clientSide → c.status.done

/-- `next_step_after`. -/
def ChatDb.nextStepAfter (d : ChatDb) (sessionId messageStepId anchorId : ℕ) : Option ChatStep :=
  match (d.turnSteps sessionId messageStepId).find? (·.payload.answers = some anchorId) with
  | some anchor =>
    (d.turnSteps sessionId messageStepId).find? fun st => st.payload.isAssistant ∧ anchor.seq < st.seq
  | none => (d.turnSteps sessionId messageStepId).reverse.find? (·.payload.isAssistant)

section Delivery

variable {u g : ℕ} {d : ChatDb}

@[simp] theorem ToolCall.complete_id (id : ℕ) (status : ToolStatus) (result : Json) (c : ToolCall) :
    (ToolCall.complete id status result c).id = c.id := by
  unfold ToolCall.complete
  split <;> rfl

@[simp] theorem ToolCall.complete_turn (id : ℕ) (status : ToolStatus) (result : Json)
    (c : ToolCall) : (ToolCall.complete id status result c).sessionId = c.sessionId ∧
      (ToolCall.complete id status result c).messageStepId = c.messageStepId := by
  unfold ToolCall.complete
  split <;> exact ⟨rfl, rfl⟩

@[simp] theorem ToolStatus.done_iff (s : ToolStatus) : s.done = true ↔ s ≠ .pending := by
  cases s <;> simp [ToolStatus.done]

theorem ToolOutcome.status_ne (o : ToolOutcome) : o.status ≠ .pending := by
  cases o <;> exact nofun

theorem ChatDb.Fresh.deliver {c : ToolCall} {o : ToolOutcome} (hf : d.Fresh g)
    (hc : c.messageStepId < g) : (d.deliver u g c o).Fresh (g + 1) := by
  have hm := hf.mono (Nat.le_succ g)
  refine ⟨hm.sessions, ?_, ?_, hm.images, ?_, ?_, ?_⟩
  · intro st hst
    rcases List.mem_append.1 hst with hst | hst
    · exact hm.steps st hst
    · obtain rfl := List.mem_singleton.1 hst
      exact ⟨Nat.lt_succ_self g, Nat.lt_succ_of_lt hc⟩
  · intro c' hc'
    obtain ⟨c₀, h₀, rfl⟩ := List.mem_map.1 hc'
    simpa using hm.toolCalls c₀ h₀
  · intro r hr
    refine hm.keys r ?_
    simp only [ChatDb.deliver, ledger_applyAll] at hr
    rcases List.mem_append.1 hr with hr | hr
    · exact hr
    · split at hr <;> simp [rows] at hr
  · refine List.pairwise_append.2 ⟨hf.stepsSorted, List.pairwise_singleton _ _, fun a ha b hb => ?_⟩
    obtain rfl := List.mem_singleton.1 hb
    exact (hf.steps a ha).1
  · exact List.pairwise_map.2 (hf.callsSorted.imp fun h => by simpa using h)

theorem ChatDb.Fresh.deliverAll {rs : List (ToolResultIn × ToolCall)} (hf : d.Fresh g)
    (hr : ∀ p ∈ rs, p.2.messageStepId < g) :
    g ≤ (deliverAll u rs g d).1 ∧ (deliverAll u rs g d).2.Fresh (deliverAll u rs g d).1 := by
  induction rs generalizing g d with
  | nil => exact ⟨le_rfl, hf⟩
  | cons p rs ih =>
    have hp := hr p (List.mem_cons_self ..)
    have htail : ∀ q ∈ rs, q.2.messageStepId < g := fun q hq => hr q (List.mem_cons_of_mem _ hq)
    unfold deliverAll
    split
    · obtain ⟨hle, hfr⟩ := ih (hf.deliver (u := u) (o := p.1.outcome) hp)
        fun q hq => Nat.lt_succ_of_lt (htail q hq)
      exact ⟨(Nat.le_succ g).trans hle, hfr⟩
    · exact ih hf htail

@[simp] theorem deliverAll_sessions (rs : List (ToolResultIn × ToolCall)) (g : ℕ) (d : ChatDb) :
    (deliverAll u rs g d).2.sessions = d.sessions := by
  induction rs generalizing g d with
  | nil => rfl
  | cons p rs ih =>
    unfold deliverAll
    split
    · rw [ih]
      rfl
    · exact ih g d

/-- A delivery keeps the calls but for their status and result, and the status of a call that is
done. -/
theorem mem_deliver {c c' : ToolCall} {o : ToolOutcome}
    (h : c' ∈ (d.deliver u g c o).toolCalls) : ∃ c₀ ∈ d.toolCalls, c₀.id = c'.id ∧
      c₀.sessionId = c'.sessionId ∧ c₀.messageStepId = c'.messageStepId ∧
      (c'.id = c.id → c'.status ≠ .pending) ∧
      (c₀.status ≠ .pending → c'.status ≠ .pending) := by
  obtain ⟨c₀, h₀, rfl⟩ := List.mem_map.1 h
  have ho := o.status_ne
  refine ⟨c₀, h₀, by simp, by simp, by simp, ?_, ?_⟩
  · intro hid
    rw [ToolCall.complete_id] at hid
    simpa [ToolCall.complete, hid] using ho
  · intro hs
    unfold ToolCall.complete
    split
    · exact ho
    · exact hs

/-- The same for a batch. -/
theorem mem_deliverAll {rs : List (ToolResultIn × ToolCall)} {c : ToolCall}
    (h : c ∈ (deliverAll u rs g d).2.toolCalls) : ∃ c₀ ∈ d.toolCalls, c₀.id = c.id ∧
      c₀.sessionId = c.sessionId ∧ c₀.messageStepId = c.messageStepId ∧
      (c₀.status ≠ .pending → c.status ≠ .pending) := by
  induction rs generalizing g d with
  | nil => exact ⟨c, h, rfl, rfl, rfl, id⟩
  | cons p rs ih =>
    unfold deliverAll at h
    split at h
    · obtain ⟨c₁, h₁, hid, hs, hm, hdone⟩ := ih h
      obtain ⟨c₀, h₀, hid', hs', hm', -, hdone'⟩ := mem_deliver h₁
      exact ⟨c₀, h₀, hid'.trans hid, hs'.trans hs, hm'.trans hm, hdone ∘ hdone'⟩
    · exact ih h

/-- After a batch every call that it names is done. -/
theorem deliverAll_done {rs : List (ToolResultIn × ToolCall)}
    (hd : ∀ p ∈ rs, p.2.status ≠ .pending → ∀ c ∈ d.toolCalls, c.id = p.2.id →
      c.status ≠ .pending)
    {p : ToolResultIn × ToolCall} (hp : p ∈ rs) {c : ToolCall}
    (hc : c ∈ (deliverAll u rs g d).2.toolCalls) (hid : c.id = p.2.id) : c.status ≠ .pending := by
  induction rs generalizing g d with
  | nil => simp at hp
  | cons q rs ih =>
    unfold deliverAll at hc
    split at hc
    · rename_i hq
      rcases List.mem_cons.1 hp with rfl | hp
      · obtain ⟨c₁, h₁, hid₁, -, -, hdone⟩ := mem_deliverAll hc
        obtain ⟨-, -, -, -, -, hnow, -⟩ := mem_deliver h₁
        exact hdone (hnow (hid₁.trans hid))
      · refine ih (fun p' hp' hs c' hc' hid' => ?_) hp hc
        obtain ⟨c₀, h₀, hid₀, -, -, -, hdone⟩ := mem_deliver hc'
        exact hdone (hd p' (List.mem_cons_of_mem _ hp') hs c₀ h₀ (hid₀.trans hid'))
    · rename_i hq
      rcases List.mem_cons.1 hp with rfl | hp
      · obtain ⟨c₀, h₀, hid₀, -, -, hdone⟩ := mem_deliverAll hc
        refine hdone ?_
        -- a skipped item names a call that was done when it was read, or one answered by this batch
        by_cases hs : p.2.status = .pending
        · have hnot : d.isPending p.2.id = false := by simpa [hs, ToolStatus.done] using hq
          intro h₁
          have := List.any_eq_false.1 hnot c₀ h₀
          simp [h₁, hid₀, hid] at this
        · exact hd p (List.mem_cons_self ..) hs c₀ h₀ (hid₀.trans hid)
      · exact ih (fun p' hp' => hd p' (List.mem_cons_of_mem _ hp')) hp hc

/-- The rows of a batch that are still there. -/
theorem exists_deliverAll {rs : List (ToolResultIn × ToolCall)} {c₀ : ToolCall}
    (h : c₀ ∈ d.toolCalls) : ∃ c ∈ (deliverAll u rs g d).2.toolCalls, c.id = c₀.id ∧
      c.sessionId = c₀.sessionId ∧ c.messageStepId = c₀.messageStepId := by
  induction rs generalizing g d c₀ with
  | nil => exact ⟨c₀, h, rfl, rfl, rfl⟩
  | cons p rs ih =>
    unfold deliverAll
    split
    · obtain ⟨c, hc, hid, hs, hm⟩ := ih (g := g + 1) (d := d.deliver u g p.2 p.1.outcome)
        (List.mem_map_of_mem h)
      exact ⟨c, hc, by simpa using hid, by simpa using hs, by simpa using hm⟩
    · exact ih h

end Delivery

/-! ## Generating -/

/-- The audit of the policy's decision. -/
def policyAudit (userId : ℕ) (session : ChatSession) (temporary : Bool) (state : PolicyState) :
    WalletOp :=
  .insertAudit (AuditEvent.redacted ⟨userId, fkSessionId temporary session.id, .policyDecision, .obj
    [("mode", .str session.mode.str),
      ("decision", .str (if (evaluate state session.mode).allow then "allow" else "blocked")),
      ("blockReason", .ofOption ((evaluate state session.mode).blockReason.map fun r => .str r.str))]⟩)

/-- What `context_for_session` may answer: the files of a workspace are prepared for the active
provider. -/
def LiveFiles (cfg : Config) (workspace : Option PreparedAttachments) : Prop :=
  workspace = none ∨ ∃ files, workspace = buildFileAttachments cfg files cfg.activeProvider

/-- The state of a turn just before its policy check: by whom, in which session, with which
attachments for the first call. -/
inductive Ready (cfg : Config) (g : ℕ) (d : ChatDb) : ChatRequest → ℕ → ChatSession → ℕ → Bool →
    Option PreparedAttachments → ℕ → ChatDb → ChatMem → Prop
  | run {req : RunRequest} {o : Opening} {g' : ℕ} {d' : ChatDb} {m : ChatMem}
      (h : Opened cfg req g d o g' d' m) (hw : LiveFiles cfg o.workspace) :
      Ready cfg g d (.run req) req.userId o.session g req.temporary
        (mergeAttachments o.prepared o.workspace) g' d' m
  | toolResult {userId sessionId messageStepId : ℕ} {results : List ToolResultIn}
      {session : ChatSession} {resolved : List (ToolResultIn × ToolCall)}
      {first : ToolResultIn × ToolCall} {workspace : Option PreparedAttachments} {m : ChatMem}
      (h : Resolved d userId sessionId results session messageStepId (first :: resolved))
      (hb : (deliverAll userId (first :: resolved) g d).2.BarrierClosed sessionId messageStepId)
      (hn : (deliverAll userId (first :: resolved) g d).2.nextStepAfter sessionId messageStepId
        first.2.id = none) (hc : m.calls = []) (hw : LiveFiles cfg workspace) :
      Ready cfg g d (.toolResult userId sessionId results) userId session messageStepId false
        (mergeAttachments none workspace) (deliverAll userId (first :: resolved) g d).1
        (deliverAll userId (first :: resolved) g d).2 m

section Fresh

variable {cfg : Config} {g : ℕ} {d : ChatDb}

theorem ChatDb.Fresh.truncate (hf : d.Fresh g) (sessionId anchor : ℕ) :
    (d.truncate sessionId anchor).Fresh g :=
  ⟨hf.sessions, fun st hst => hf.steps st (List.mem_of_mem_filter hst),
    fun c hc => hf.toolCalls c (List.mem_of_mem_filter hc), hf.images, hf.keys,
    hf.stepsSorted.filter _, hf.callsSorted.filter _⟩

theorem ChatDb.Fresh.addStep (hf : d.Fresh g) {sessionId messageStepId : ℕ} {payload : Payload}
    {usage : Option Usage} (hm : messageStepId < g) :
    (d.extend (stepDelta false sessionId messageStepId g payload usage)).Fresh (g + 1) :=
  hf.extend (show Delta.Fresh g (nextStep false g) _ from stepDelta_fresh hm payload usage)

theorem ChatDb.Fresh.addSession (hf : d.Fresh g) {s : ChatSession} (hs : s.id = g) :
    ({ d with sessions := d.sessions ++ [s] } : ChatDb).Fresh (g + 1) := by
  have hm := hf.mono (Nat.le_succ g)
  refine ⟨fun s' hmem => ?_, hm.steps, hm.toolCalls, hm.images, hm.keys, hm.stepsSorted,
    hm.callsSorted⟩
  rcases List.mem_append.1 hmem with hmem | hmem
  · exact hm.sessions s' hmem
  · obtain rfl := List.mem_singleton.1 hmem
    omega

theorem Opened.fresh {req : RunRequest} {o : Opening} {g' : ℕ} {d' : ChatDb} {m : ChatMem}
    (h : Opened cfg req g d o g' d' m) (hf : d.Fresh g) : g < g' ∧ d'.Fresh g' := by
  have hsucc : g < g + 1 := Nat.lt_succ_self g
  cases h with
  | temporary ht hp hs hu hm hg => exact ⟨hg, hf.mono hg.le⟩
  | created ht hp hs hu he hc =>
    have hnew := (hf.mono hsucc.le).addSession hs
    exact ⟨by omega, hnew.addStep (by omega)⟩
  | resumed ht hp hs hid hu he hc =>
    exact ⟨by omega, (hf.mono hsucc.le).addStep hsucc⟩
  | edited ht hp hs hid hu he ha hc =>
    exact ⟨by omega, ((hf.mono hsucc.le).truncate _ _).addStep hsucc⟩

theorem Resolved.turn_lt {userId sessionId messageStepId : ℕ} {results : List ToolResultIn}
    {session : ChatSession} {resolved : List (ToolResultIn × ToolCall)}
    (h : Resolved d userId sessionId results session messageStepId resolved) (hf : d.Fresh g) :
    ∀ p ∈ resolved, p.2.messageStepId < g := fun p hp => (hf.toolCalls _ (h.calls p hp).1).2

theorem Ready.fresh {request : ChatRequest} {userId messageStepId : ℕ} {session : ChatSession}
    {temporary : Bool} {att : Option PreparedAttachments} {g' : ℕ} {d' : ChatDb} {m : ChatMem}
    (h : Ready cfg g d request userId session messageStepId temporary att g' d' m)
    (hf : d.Fresh g) : messageStepId < g' ∧ g ≤ g' ∧ d'.Fresh g' := by
  cases h with
  | run h => exact ⟨(h.fresh hf).1, (h.fresh hf).1.le, (h.fresh hf).2⟩
  | @toolResult _ _ _ _ _ resolved first workspace m h hb hn hc =>
    obtain ⟨hle, hfr⟩ := hf.deliverAll (u := userId) (h.turn_lt hf)
    have hfirst := h.calls first (List.mem_cons_self ..)
    refine ⟨?_, hle, hfr⟩
    rw [← hfirst.2.2.2]
    exact (hf.toolCalls _ hfirst.1).2.trans_le hle

end Fresh

/-- `_resolve_api_key`: the key of a byok session is the one that is stored for the user. -/
def ChatDb.resolvedKey (d : ChatDb) (userId : ℕ) : Mode → Option (Option String × Option Provider)
  | .credits => some (none, none)
  | .byok => (d.keys userId).map fun key => (some key.plaintext, key.provider)

/-- The state in which the generation of the turn `t` begins, which is committed before the first
call to the provider: the policy that is stored for the user allows it. -/
inductive Starts (cfg : Config) (g : ℕ) (d : ChatDb) (request : ChatRequest) :
    Turn → Option PreparedAttachments → ℕ → ChatDb → ChatMem → Prop
  | intro {userId messageStepId : ℕ} {session : ChatSession} {temporary : Bool}
      {att : Option PreparedAttachments} {g' : ℕ} {d' : ChatDb} {m : ChatMem}
      {apiKey : Option String} {byokProvider : Option Provider}
      (h : Ready cfg g d request userId session messageStepId temporary att g' d' m)
      (hp : evaluate (d'.policyState userId) session.mode = .allowed)
      (hk : d'.resolvedKey userId session.mode = some (apiKey, byokProvider)) :
      Starts cfg g d request (turnOf userId session messageStepId temporary (d'.policyState userId)
        apiKey byokProvider) att g'
      (d'.pay [policyAudit userId session temporary (d'.policyState userId)]) m

/-- The turn is one of the session: its user, mode, dialog mode, model and project are those of the
session. -/
structure Turn.InSession (t : Turn) (s : ChatSession) : Prop where
  id : s.id = t.sessionId
  user : s.userId = t.userId
  mode : s.mode = t.mode
  dialogMode : s.dialogMode = t.dialogMode
  model : s.model.bind orNone = t.model
  project : s.projectId.isSome = t.hasProject

/-! ## A request -/

/-- The answers of a request that generates nothing. -/
inductive Settles (cfg : Config) (g : ℕ) (d : ChatDb) (request : ChatRequest) :
    ChatRunOut → ℕ → ChatDb → Prop
  | denied {userId messageStepId : ℕ} {session : ChatSession} {temporary : Bool}
      {att : Option PreparedAttachments} {g' : ℕ} {d' : ChatDb} {m : ChatMem} {reason : BlockReason}
      (h : Ready cfg g d request userId session messageStepId temporary att g' d' m)
      (hp : evaluate (d'.policyState userId) session.mode = .blocked reason) :
      Settles cfg g d request (blocked session.id (some reason)) g'
        (d'.pay [policyAudit userId session temporary (d'.policyState userId)])
  | noProvider {t : Turn} {att : Option PreparedAttachments} {g' : ℕ} {d' : ChatDb} {m : ChatMem}
      (h : Starts cfg g d request t att g' d' m) (hm : t.mode = .byok)
      (hp : t.byokProvider = none) :
      Settles cfg g d request (blocked t.sessionId (some .byokInvalid)) g' d'
  | awaiting {userId sessionId messageStepId : ℕ} {results : List ToolResultIn}
      {session : ChatSession} {resolved : List (ToolResultIn × ToolCall)}
      {pending : List ToolCall} {stepId : Option ℕ} (hr : request = .toolResult userId sessionId results)
      (h : Resolved d userId sessionId results session messageStepId resolved)
      (hp : pending.Perm (pendingCalls ((deliverAll userId resolved g d).2.toolCalls.filter fun c =>
        c.sessionId = sessionId ∧ c.messageStepId = messageStepId)))
      (hne : pending ≠ []) :
      Settles cfg g d request (awaiting sessionId messageStepId pending stepId)
        (deliverAll userId resolved g d).1 (deliverAll userId resolved g d).2
  | replayed {userId sessionId messageStepId : ℕ} {results : List ToolResultIn}
      {session : ChatSession} {resolved : List (ToolResultIn × ToolCall)}
      {first : ToolResultIn × ToolCall} {saved : ChatStep} {content : List Block}
      (hr : request = .toolResult userId sessionId results)
      (h : Resolved d userId sessionId results session messageStepId (first :: resolved))
      (hb : (deliverAll userId (first :: resolved) g d).2.BarrierClosed sessionId messageStepId)
      (hn : (deliverAll userId (first :: resolved) g d).2.nextStepAfter sessionId messageStepId
        first.2.id = some saved) (hc : saved.payload = .assistant content) :
      Settles cfg g d request
        (renderSavedStep sessionId messageStepId content saved.usage saved.seq)
        (deliverAll userId (first :: resolved) g d).1 (deliverAll userId (first :: resolved) g d).2

/-- What follows an answer: images that have expired may be swept when it has some. -/
inductive Sweeps (out : ChatRunOut) (d : ChatDb) : ChatDb → Prop
  | skipped : Sweeps out d d
  | swept (ids : List ℕ) (h : out.images ≠ []) : Sweeps out d (d.sweep ids)

theorem ChatDb.sweep_sweep (d : ChatDb) (ids ids' : List ℕ) :
    (d.sweep ids).sweep ids' = d.sweep (ids ++ ids') := by
  unfold ChatDb.sweep
  simp only [List.filter_filter]
  congr 1
  refine List.filter_congr fun i _ => ?_
  simp only [List.mem_append]
  grind

theorem Sweeps.sweep {out : ChatRunOut} {d d' : ChatDb} (h : Sweeps out d d') (hi : out.images ≠ [])
    (ids : List ℕ) : Sweeps out d (d'.sweep ids) := by
  cases h with
  | skipped => exact .swept ids hi
  | swept ids' => exact d.sweep_sweep ids' ids ▸ .swept (ids' ++ ids) hi

/-- An answer without a generation has no images. -/
theorem Settles.images_nil {cfg : Config} {g g' : ℕ} {d d' : ChatDb} {request : ChatRequest}
    {out : ChatRunOut}
    (h : Settles cfg g d request out g' d') : out.images = [] := by
  cases h <;> rfl

section

variable (llm : LLMAnswer → Prop) (cfg : Config) (g : ℕ) (d : ChatDb) (request : ChatRequest)

/-- The committed states that the generation of a request passes, with its turn and the rounds so
far. -/
inductive Passes : Turn → Provider → Option PreparedAttachments → List Round → ℕ → ChatDb →
    ChatMem → Prop
  | intro {t : Turn} {provider : Provider} {att : Option PreparedAttachments} {g₁ g' : ℕ}
      {d₁ d' : ChatDb} {m₁ m' : ChatMem} {rs : List Round}
      (h : Starts cfg g d request t att g₁ d₁ m₁) (hp : t.provider cfg = some provider)
      (hg : Generated llm cfg t provider att g₁ d₁ m₁ rs g' d' m') :
      Passes t provider att rs g' d' m'

/-- The answers of a request. -/
inductive Answers : ChatRunOut → ℕ → ChatDb → Prop
  | settled {out : ChatRunOut} {g' : ℕ} {d' : ChatDb} (h : Settles cfg g d request out g' d') :
      Answers out g' d'
  | ended {t : Turn} {provider : Provider} {att : Option PreparedAttachments} {rs : List Round}
      {g₁ g' : ℕ} {d₁ d₂ d' : ChatDb} {m : ChatMem} {answer : LLMAnswer} {pregen : Pregen}
      {out : ChatRunOut} (h : Passes llm cfg g d request t provider att rs g₁ d₁ m)
      (hl : llm answer) (he : Ends cfg t (accOf rs) g₁ d₁ answer pregen out g' d₂)
      (hs : Sweeps out d₂ d') : Answers out g' d'

/-- The states that a request commits. -/
inductive Visits : ℕ → ChatDb → Prop
  | passed {t : Turn} {provider : Provider} {att : Option PreparedAttachments} {rs : List Round}
      {g' : ℕ} {d' : ChatDb} {m : ChatMem} (h : Passes llm cfg g d request t provider att rs g' d' m) :
      Visits g' d'
  | exhausted {t : Turn} {provider : Provider} {att : Option PreparedAttachments}
      {rs : List Round} {g' : ℕ} {d' : ChatDb} {m : ChatMem}
      (h : Passes llm cfg g d request t provider att rs g' d' m) : Visits g' (t.exhausted cfg d')
  | answered {out : ChatRunOut} {g' : ℕ} {d' : ChatDb} (h : Answers llm cfg g d request out g' d') :
      Visits g' d'

/-- The calls to the provider, with the state in which they are made. -/
inductive Calls : LLMRequest → ℕ → ChatDb → ChatMem → Prop
  | intro {t : Turn} {provider : Provider} {att : Option PreparedAttachments} {rs : List Round}
      {g' : ℕ} {d' : ChatDb} {m : ChatMem} (h : Passes llm cfg g d request t provider att rs g' d' m) :
      Calls (t.call cfg provider att rs d' m) g' d' m

/-- The committed state of a request that has failed. -/
def Leaves (g' : ℕ) (d' : ChatDb) : Prop :=
  g ≤ g' ∧ (d' = d ∨ ∃ g₁ ≤ g', Visits llm cfg g d request g₁ d')

end

section Fresh

variable {llm : LLMAnswer → Prop} {cfg : Config} {g : ℕ} {d : ChatDb} {request : ChatRequest}

/-- What a request leaves alone until it generates: images, the ledger and the wallets, the trials, the
subscriptions and the keys, and the audits there are; and it adds no call. -/
structure ChatDb.Keeps (g : ℕ) (d d' : ChatDb) : Prop where
  images : d'.images = d.images
  subscriptions : d'.subscriptions = d.subscriptions
  keys : d'.keys = d.keys
  ledger : d'.accounts.ledger = d.accounts.ledger
  wallets : d'.accounts.wallets = d.accounts.wallets
  trialUsed : d'.trialUsed = d.trialUsed
  audit : d.accounts.audit ⊆ d'.accounts.audit
  toolCalls : ∀ c ∈ d'.toolCalls, c.id < g

theorem ChatDb.Keeps.refl (hf : d.Fresh g) : d.Keeps g d :=
  ⟨rfl, rfl, rfl, rfl, rfl, rfl, .refl _, fun c hc => (hf.toolCalls c hc).1⟩

theorem audit_subset_applyAll (ops : List WalletOp) (a : Accounts) : a.audit ⊆ (applyAll ops a).audit := by
  rw [audit_applyAll]
  exact List.subset_append_left ..

theorem ChatDb.Keeps.payAudit {d' : ChatDb} (h : d.Keeps g d') (e : AuditEvent) :
    d.Keeps g (d'.pay [.insertAudit e]) :=
  ⟨h.images, h.subscriptions, h.keys, h.ledger, h.wallets, h.trialUsed,
    List.Subset.trans h.audit (audit_subset_applyAll _ _), h.toolCalls⟩

theorem ChatDb.Keeps.step {d' : ChatDb} (h : d.Keeps g d') (sessionId messageStepId seq : ℕ)
    (payload : Payload) (usage : Option Usage) :
    d.Keeps g (d'.extend (stepDelta false sessionId messageStepId seq payload usage)) := by
  refine ⟨?_, h.subscriptions, h.keys, h.ledger, h.wallets, h.trialUsed, h.audit, ?_⟩
  · show d'.images ++ [] = d.images
    rw [List.append_nil, h.images]
  · intro c hc
    refine h.toolCalls c ?_
    simpa [ChatDb.extend, stepDelta] using hc

theorem Opened.keeps {req : RunRequest} {o : Opening} {g' : ℕ} {d' : ChatDb} {m : ChatMem}
    (h : Opened cfg req g d o g' d' m) (hf : d.Fresh g) : d.Keeps g d' := by
  have hself : d.Keeps g d := ChatDb.Keeps.refl hf
  cases h with
  | temporary ht hp hs hu hm hg => exact hself
  | created ht hp hs hu he hc =>
    have hnew : d.Keeps g { d with sessions := d.sessions ++ [o.session] } :=
      ⟨rfl, rfl, rfl, rfl, rfl, rfl, .refl _, hself.toolCalls⟩
    exact hnew.step ..
  | resumed ht hp hs hid hu he hc => exact hself.step ..
  | edited ht hp hs hid hu he ha hc =>
    have hcut : ∀ sid anchor, d.Keeps g (d.truncate sid anchor) := fun sid anchor =>
      ⟨rfl, rfl, rfl, rfl, rfl, rfl, .refl _, fun c hc => hself.toolCalls c (List.mem_of_mem_filter hc)⟩
    exact (hcut _ _).step ..

theorem keeps_deliverAll {u : ℕ} {rs : List (ToolResultIn × ToolCall)} {g₁ : ℕ} {d₁ : ChatDb}
    (h : d.Keeps g d₁) : d.Keeps g (deliverAll u rs g₁ d₁).2 := by
  induction rs generalizing g₁ d₁ with
  | nil => exact h
  | cons p rs ih =>
    unfold deliverAll
    split
    · refine ih ⟨h.images, h.subscriptions, h.keys, ?_, ?_, h.trialUsed,
        List.Subset.trans h.audit (audit_subset_applyAll _ _), fun c hc => ?_⟩
      · rw [← h.ledger]
        simp only [ChatDb.deliver, ledger_applyAll]
        split <;> simp [rows]
      · rw [← h.wallets]
        simp only [ChatDb.deliver]
        split <;> rfl
      · obtain ⟨c₀, h₀, hid, -⟩ := mem_deliver hc
        exact hid ▸ h.toolCalls c₀ h₀
    · exact ih h

theorem Ready.keeps {u messageStepId : ℕ} {session : ChatSession} {temporary : Bool}
    {att : Option PreparedAttachments} {g' : ℕ} {d' : ChatDb} {m : ChatMem}
    (h : Ready cfg g d request u session messageStepId temporary att g' d' m) (hf : d.Fresh g) :
    d.Keeps g d' := by
  cases h with
  | run h => exact h.keeps hf
  | toolResult h hb hn hc =>
    exact keeps_deliverAll (.refl hf)

theorem Starts.keeps {t : Turn} {att : Option PreparedAttachments} {g' : ℕ} {d' : ChatDb}
    {m : ChatMem} (h : Starts cfg g d request t att g' d' m) (hf : d.Fresh g) : d.Keeps g d' := by
  cases h with
  | intro h => exact (h.keeps hf).payAudit _

theorem Settles.keeps {out : ChatRunOut} {g' : ℕ} {d' : ChatDb}
    (h : Settles cfg g d request out g' d') (hf : d.Fresh g) : d.Keeps g d' := by
  have hself : d.Keeps g d := ChatDb.Keeps.refl hf
  cases h with
  | denied h hp => exact (h.keeps hf).payAudit _
  | noProvider h hm hp => exact h.keeps hf
  | awaiting hr h hp hne => exact keeps_deliverAll hself
  | replayed hr h hb hn hc => exact keeps_deliverAll hself

theorem Starts.fresh {t : Turn} {att : Option PreparedAttachments} {g' : ℕ} {d' : ChatDb}
    {m : ChatMem} (h : Starts cfg g d request t att g' d' m) (hf : d.Fresh g) :
    t.messageStepId < g' ∧ g ≤ g' ∧ d'.Fresh g' := by
  cases h with
  | intro h =>
    obtain ⟨hlt, hle, hf'⟩ := h.fresh hf
    exact ⟨hlt, hle, hf'.payNone rfl⟩

theorem Passes.fresh {t : Turn} {provider : Provider} {att : Option PreparedAttachments}
    {rs : List Round} {g' : ℕ} {d' : ChatDb} {m : ChatMem}
    (h : Passes llm cfg g d request t provider att rs g' d' m) (hf : d.Fresh g) :
    t.messageStepId < g' ∧ g ≤ g' ∧ d'.Fresh g' := by
  cases h with
  | intro h hp hg =>
    obtain ⟨hlt, hle, hf'⟩ := h.fresh hf
    exact ⟨hlt.trans_le hg.le, hle.trans hg.le, hg.fresh hlt hf'⟩

/-- A stored turn is one of its session, and a temporary one has the user and the mode of its request. -/
theorem Passes.session {t : Turn} {provider : Provider} {att : Option PreparedAttachments}
    {rs : List Round} {g' : ℕ} {d' : ChatDb} {m : ChatMem}
    (h : Passes llm cfg g d request t provider att rs g' d' m) :
    (t.temporary = false → ∃ s ∈ d'.sessions, t.InSession s) ∧
      (t.temporary = true → ∃ req, request = .run req ∧ req.mode = t.mode ∧ req.userId = t.userId) := by
  cases h with
  | intro hs hp hg =>
    rw [hg.eq]
    cases hs with
    | intro h =>
      cases h with
      | run h =>
        cases h with
        | temporary ht hp hs hu => exact ⟨fun hno => absurd (ht.symm.trans hno) nofun,
            fun _ => ⟨_, rfl, hu.2.symm, rfl⟩⟩
        | created ht hp hs hu => exact ⟨fun _ => ⟨_, List.mem_append_right _ (List.mem_singleton_self _),
            ⟨rfl, hu.1, rfl, rfl, rfl, rfl⟩⟩, fun hno => absurd (ht.symm.trans hno) nofun⟩
        | resumed ht hp hs hid hu | edited ht hp hs hid hu =>
          exact ⟨fun _ => ⟨_, hs, ⟨rfl, hu, rfl, rfl, rfl, rfl⟩⟩,
            fun hno => absurd (ht.symm.trans hno) nofun⟩
      | @toolResult _ _ _ _ _ resolved first _ _ h =>
        refine ⟨fun _ => ⟨_, ?_, ⟨rfl, h.user, rfl, rfl, rfl, rfl⟩⟩, nofun⟩
        exact (deliverAll_sessions ..).symm ▸ h.session_mem

theorem Settles.fresh {out : ChatRunOut} {g' : ℕ} {d' : ChatDb}
    (h : Settles cfg g d request out g' d') (hf : d.Fresh g) : g ≤ g' ∧ d'.Fresh g' := by
  cases h with
  | denied h hp =>
    obtain ⟨-, hle, hf'⟩ := h.fresh hf
    exact ⟨hle, hf'.payNone rfl⟩
  | noProvider h hm hp => exact (h.fresh hf).2
  | awaiting hr h hp hne => exact hf.deliverAll (h.turn_lt hf)
  | replayed hr h hb hn hc => exact hf.deliverAll (h.turn_lt hf)

theorem Answers.sweep {out : ChatRunOut} {g' : ℕ} {d' : ChatDb}
    (h : Answers llm cfg g d request out g' d') (hi : out.images ≠ []) (ids : List ℕ) :
    Answers llm cfg g d request out g' (d'.sweep ids) := by
  cases h with
  | settled h => exact absurd h.images_nil hi
  | ended h hl he hs => exact .ended h hl he (hs.sweep hi ids)

/-- What a sweep leaves alone. -/
structure ChatDb.SweepKept (d d' : ChatDb) : Prop where
  sessions : d'.sessions = d.sessions
  steps : d'.steps = d.steps
  toolCalls : d'.toolCalls = d.toolCalls
  accounts : d'.accounts = d.accounts
  trialUsed : d'.trialUsed = d.trialUsed
  subscriptions : d'.subscriptions = d.subscriptions
  keys : d'.keys = d.keys
  expired : d'.expired = d.expired
  site : d'.site = d.site

theorem Sweeps.kept {out : ChatRunOut} {d' : ChatDb} (h : Sweeps out d d') : d.SweepKept d' := by
  cases h <;> exact ⟨rfl, rfl, rfl, rfl, rfl, rfl, rfl, rfl, rfl⟩

theorem ChatDb.SweepKept.ledger {d' : ChatDb} (h : d.SweepKept d') :
    d'.accounts.ledger = d.accounts.ledger := by rw [h.accounts]

theorem Sweeps.fresh {out : ChatRunOut} {d' : ChatDb} (h : Sweeps out d d') (hf : d.Fresh g) :
    d'.Fresh g := by
  cases h with
  | skipped => exact hf
  | swept ids => exact ⟨hf.sessions, hf.steps, hf.toolCalls,
      fun i hi => hf.images i (List.mem_of_mem_filter hi), hf.keys, hf.stepsSorted, hf.callsSorted⟩

theorem Answers.fresh {out : ChatRunOut} {g' : ℕ} {d' : ChatDb}
    (h : Answers llm cfg g d request out g' d') (hf : d.Fresh g) : g ≤ g' ∧ d'.Fresh g' := by
  cases h with
  | settled h => exact h.fresh hf
  | ended h hl he hs =>
    obtain ⟨hlt, hle, hf'⟩ := h.fresh hf
    obtain ⟨hle', hf''⟩ := he.fresh hlt hf'
    exact ⟨hle.trans hle', hs.fresh hf''⟩

theorem Visits.fresh {g' : ℕ} {d' : ChatDb} (h : Visits llm cfg g d request g' d')
    (hf : d.Fresh g) : d'.Fresh g' := by
  cases h with
  | passed h => exact (h.fresh hf).2.2
  | exhausted h => exact (h.fresh hf).2.2.payNone rfl
  | answered h => exact (h.fresh hf).2

end Fresh

end ChatBackend.Chat

import ChatBackend.Policy.Engine
import ChatBackend.Wallet.Service
import Mathlib

/-!
# The chat tables as a store

The tables that a chat request reads and writes, the writes, and the statements of the repository
and of the services that a request calls. A statement is given by the answers it may have and by
its effect once the answer is known; the calls that leave the process (the LLM provider, the image
generator, the site handlers, the clock) may answer anything of their type.

* `ChatStmt.Allowed` and `ChatStmt.effect` are the two halves of a statement.
* `chatStore` is the read-committed store of these tables.
-/

namespace ChatBackend.Chat

open Policy Wallet

/-- The rows that a site handler writes: files, projects and their audit. -/
structure SiteWrite where
  toolName : ToolName
  userId : ℕ
  externalProjectId : String
  args : Json

/-- A row of `byok_keys`, with the key that it decrypts to and the provider of the key. -/
structure StoredKey where
  enabled : Bool
  status : ByokState
  plaintext : String
  provider : Option Provider

/-- The tables, with the effective subscriptions of the users and the sessions that are past their soft
TTL. -/
structure ChatDb where
  sessions : List ChatSession
  steps : List ChatStep
  toolCalls : List ToolCall
  images : List GeneratedImage
  accounts : Accounts
  trialUsed : ℕ → Bool
  subscriptions : ℕ → SubscriptionStatus
  keys : ℕ → Option StoredKey
  expired : List ℕ
  site : List SiteWrite

/-- The writes. A delete names the rows that it has found. -/
inductive ChatOp : Type
  | insertSession (row : ChatSession)
  | insertStep (row : ChatStep)
  | insertToolCall (row : ToolCall)
  | completeToolCall (id : ℕ) (status : ToolStatus) (result : Json)
  | deleteToolCalls (ids : List ℕ)
  | deleteSteps (seqs : List ℕ)
  | insertImage (row : GeneratedImage)
  | deleteImages (ids : List ℕ)
  | markTrialUsed (userId : ℕ)
  | expireKey (userId : ℕ)
  | wallet (o : WalletOp)
  | site (w : SiteWrite)

/-- A tool call after its transition. -/
def ToolCall.complete (id : ℕ) (status : ToolStatus) (result : Json) (c : ToolCall) : ToolCall :=
  if c.id = id then { c with status := status, result := some result } else c

/-- A key that its provider has rejected. -/
def StoredKey.expire (key : StoredKey) : StoredKey := { key with enabled := false, status := .expired }

/-- The tables after the rejection of the key of a user. -/
def ChatDb.expireKey (d : ChatDb) (userId : ℕ) : ChatDb :=
  { d with keys := Function.update d.keys userId ((d.keys userId).map .expire) }

/-- The tables without the images that a sweep has selected: it asks for an expiry. -/
def ChatDb.sweep (d : ChatDb) (ids : List ℕ) : ChatDb :=
  { d with images := d.images.filter fun i => ¬(i.expires = true ∧ i.id ∈ ids) }

/-- The effect of a write. -/
def ChatOp.apply : ChatOp → ChatDb → ChatDb
  | insertSession row, d => { d with sessions := d.sessions ++ [row] }
  | insertStep row, d => { d with steps := d.steps ++ [row] }
  | insertToolCall row, d => { d with toolCalls := d.toolCalls ++ [row] }
  | completeToolCall id status result, d =>
    { d with toolCalls := d.toolCalls.map (ToolCall.complete id status result) }
  | deleteToolCalls ids, d => { d with toolCalls := d.toolCalls.filter fun c => c.id ∉ ids }
  | deleteSteps seqs, d => { d with steps := d.steps.filter fun st => st.seq ∉ seqs }
  | insertImage row, d => { d with images := d.images ++ [row] }
  | deleteImages ids, d => d.sweep ids
  | markTrialUsed u, d => { d with trialUsed := Function.update d.trialUsed u true }
  | expireKey u, d => d.expireKey u
  | wallet o, d => { d with accounts := o.apply d.accounts }
  | site w, d => { d with site := d.site ++ [w] }

/-- The rows and index entries that a transaction holds. -/
inductive ChatLock : Type
  | wallet (l : Lock)
  | toolCall (id : ℕ)
  | step (seq : ℕ)
  | image (toolCallId : ℕ)
  | imageRow (id : ℕ)
  | user (userId : ℕ)
  | byokKey (userId : ℕ)
  deriving DecidableEq

def ChatOp.locks : ChatOp → List ChatLock
  | completeToolCall id _ _ => [.toolCall id]
  | deleteToolCalls ids => ids.map .toolCall
  | deleteSteps seqs => seqs.map .step
  | insertImage row => [.image row.toolCallId]
  | deleteImages ids => ids.map .imageRow
  | markTrialUsed u => [.user u]
  | expireKey u => [.byokKey u]
  | wallet o => (o.lock.map .wallet).toList
  | _ => []

/-- The steps of a session, in the order of `seq`. -/
def ChatDb.listSteps (d : ChatDb) (sessionId : ℕ) : List ChatStep :=
  (d.steps.filter (·.sessionId = sessionId)).insertionSort (·.seq ≤ ·.seq)

/-- The steps of a turn, in the order of `seq`. -/
def ChatDb.turnSteps (d : ChatDb) (sessionId messageStepId : ℕ) : List ChatStep :=
  (d.listSteps sessionId).filter (·.messageStepId = messageStepId)

def ChatDb.session (d : ChatDb) (sessionId : ℕ) : Option ChatSession :=
  d.sessions.find? (·.id = sessionId)

def ChatDb.toolCall (d : ChatDb) (id : ℕ) : Option ToolCall := d.toolCalls.find? (·.id = id)

/-- The wallet tables, as the wallet service sees them. -/
def ChatDb.walletDb (d : ChatDb) : WalletDb :=
  ⟨fun sid => (d.session sid).map ChatSession.userId, d.accounts⟩

/-- `load_policy_state`. -/
def ChatDb.policyState (d : ChatDb) (userId : ℕ) : PolicyState where
  subscriptionStatus := d.subscriptions userId
  trialUsed := d.trialUsed userId
  creditsBalance := d.accounts.balance userId
  byokEnabled := (d.keys userId).any (·.enabled)
  byokStatus := ((d.keys userId).map (·.status)).getD .missing

/-! ## Memory -/

/-- A step of an `EphemeralChatRepository`. -/
structure MemStep where
  messageStepId : ℕ
  payload : Payload
  usage : Option Usage

/-- The memory of a request: the steps and tool calls of its ephemeral repository, and the calls
that it has made to the LLM client. -/
structure ChatMem where
  steps : List MemStep
  toolCalls : List ToolCall
  calls : List LLMRequest

/-! ## Statements -/

inductive ChatStmt : Type
  | uuid4
  | defaultDialogMode (userId : ℕ)
  | ownsWorkspace (workspaceId userId : ℕ)
  | workspaceFiles (workspaceId userId : ℕ)
  | isExpired (session : ChatSession)
  | getSession (sessionId userId : ℕ)
  | sessionById (sessionId : ℕ)
  | insertSession (userId : ℕ) (projectId : Option String) (mode : Mode) (dialogMode : String)
      (model : Option String) (workspaceProjectId : Option ℕ)
  | insertStep (sessionId messageStepId : ℕ) (payload : Payload) (usage : Option Usage)
  | listSteps (sessionId : ℕ)
  | createToolCall (row : ToolCall)
  | getToolCall (id : ℕ)
  | listToolCallsForStep (sessionId messageStepId : ℕ)
  | completeToolCall (id : ℕ) (status : ToolStatus) (result : Json)
  | anchorSeq (sessionId messageStepId : ℕ)
  | deleteToolCalls (sessionId anchor : ℕ)
  | deleteSteps (sessionId anchor : ℕ)
  | assistantToolStepId (sessionId messageStepId : ℕ)
  | toolStepSeq (sessionId messageStepId toolCallId : ℕ)
  | firstAssistantAfter (sessionId messageStepId seq : ℕ)
  | lastAssistant (sessionId messageStepId : ℕ)
  | markTrialUsed (userId : ℕ)
  | expireKey (userId : ℕ)
  | loadPolicyState (userId : ℕ)
  | plaintextKey (userId : ℕ)
  | insertImage (userId : ℕ) (sessionId : Option ℕ) (messageStepId toolCallId : ℕ)
      (contentType : String) (size : ℕ) (prompt : String) (expires : Bool)
  | existingImage (toolCallId : ℕ)
  | sweepLock
  | deleteExpiredImages (batch : ℕ)
  | wallet (s : WalletStmt)
  | createMessage (request : LLMRequest)
  | generateImage (args : Json)
  | siteExecute (toolName : ToolName) (args : Json) (userId : ℕ) (externalProjectId : String)
  | globalExecute (toolName : ToolName) (args : Json)
  | memInit (steps : List MemStep)
  | memAddStep (step : MemStep)
  | memListSteps
  | memCreateToolCall (row : ToolCall)
  | memCompleteToolCall (id : ℕ) (status : ToolStatus) (result : Json)

namespace ChatStmt

@[reducible] def Resp : ChatStmt → Type
  | uuid4 => ℕ
  | defaultDialogMode _ => String
  | ownsWorkspace .. => Bool
  | workspaceFiles .. => Option (List WorkspaceFile)
  | isExpired _ => Bool
  | getSession .. => Option ChatSession
  | sessionById _ => Option ChatSession
  | insertSession .. => Option ChatSession
  | insertStep .. => ChatStep
  | listSteps _ => List ChatStep
  | createToolCall _ => Unit
  | getToolCall _ => Option ToolCall
  | listToolCallsForStep .. => List ToolCall
  | completeToolCall .. => Bool
  | anchorSeq .. => Option ℕ
  | deleteToolCalls .. => Unit
  | deleteSteps .. => ℕ
  | assistantToolStepId .. => Option ℕ
  | toolStepSeq .. => Option ℕ
  | firstAssistantAfter .. => Option ChatStep
  | lastAssistant .. => Option ChatStep
  | markTrialUsed _ => Bool
  | expireKey _ => Bool
  | loadPolicyState _ => PolicyState
  | plaintextKey _ => Option (String × Option Provider)
  | insertImage .. => Option ℕ
  | existingImage _ => Option ℕ
  | sweepLock => Bool
  | deleteExpiredImages _ => Option (List ℕ)
  | wallet s => s.Resp
  | createMessage _ => LLMAnswer
  | generateImage _ => Except ImageError ImageData
  | siteExecute .. => Except AppError ToolExecution × List SiteWrite
  | globalExecute .. => ToolExecution
  | memInit _ => Unit
  | memAddStep _ => Unit
  | memListSteps => List MemStep
  | memCreateToolCall _ => Unit
  | memCompleteToolCall .. => Bool

/-- What a statement may answer, when the next identifier is `g`, on the tables `d`; the provider
answers as `llm` has it. -/
def Allowed (llm : LLMAnswer → Prop) (g : ℕ) (m : ChatMem) (d : ChatDb) :
    (s : ChatStmt) → s.Resp → Prop
  | uuid4, r => r = g
  | getSession sid u, r => r = d.sessions.find? fun s => s.id = sid ∧ s.userId = u
  | sessionById sid, r => r = d.session sid
  -- a session that is past its TTL stays so; any other may be past it by now
  | isExpired s, r => s.id ∈ d.expired → r = true
  -- a dialog mode that is no value of the type of its column is refused
  | insertSession u p mode dm model w, r =>
    r = if dm ∈ dialogModes then some ⟨g, u, p, mode, dm, model, w⟩ else none
  | insertStep sid msid payload usage, r => r = ⟨g, sid, msid, payload, usage⟩
  | listSteps sid, r => r = d.listSteps sid
  | getToolCall id, r => r = d.toolCall id
  -- rows of one transaction have one `created_at`, and the order of their ids is arbitrary
  | listToolCallsForStep sid msid, r =>
    r.Perm (d.toolCalls.filter fun c => c.sessionId = sid ∧ c.messageStepId = msid)
  | completeToolCall id _ _, r => r = d.toolCalls.any fun c => c.id = id ∧ c.status = .pending
  | anchorSeq sid msid, r => r = ((d.turnSteps sid msid).find? (·.payload.isUser)).map (·.seq)
  | deleteSteps sid anchor, r =>
    r = (d.steps.filter fun st => st.sessionId = sid ∧ anchor ≤ st.seq).length
  | assistantToolStepId sid msid, r =>
    r = ((d.turnSteps sid msid).reverse.find? (·.payload.isAssistant)).map (·.seq)
  | toolStepSeq sid msid tc, r =>
    r = ((d.turnSteps sid msid).find? (·.payload.answers = some tc)).map (·.seq)
  | firstAssistantAfter sid msid seq, r =>
    r = (d.turnSteps sid msid).find? fun st => st.payload.isAssistant ∧ seq < st.seq
  | lastAssistant sid msid, r => r = (d.turnSteps sid msid).reverse.find? (·.payload.isAssistant)
  | markTrialUsed u, r => r = !d.trialUsed u
  | expireKey u, r => r = (d.keys u).isSome
  | loadPolicyState u, r => r = d.policyState u
  | plaintextKey u, r => r = (d.keys u).map fun key => (key.plaintext, key.provider)
  | insertImage _ _ _ tc _ _ _ _, r =>
    r = if d.images.any (·.toolCallId = tc) then none else some g
  | existingImage tc, r => r = (d.images.find? (·.toolCallId = tc)).map (·.id)
  -- the delete fails, or finds rows that have expired; which of those with an expiry have, is not told
  | deleteExpiredImages batch, r => ∀ ids, r = some ids → ids.length ≤ batch ∧
    ∀ id ∈ ids, ∃ i ∈ d.images, i.id = id ∧ i.expires = true
  | wallet s, r => r = (s.run d.walletDb.owner g d.accounts).1
  | createMessage _, r => llm r
  | memListSteps, r => r = m.steps
  | memCompleteToolCall id _ _, r => r = m.toolCalls.any fun c => c.id = id ∧ c.status = .pending
  | _, _ => True

/-- The writes of a statement that has answered `r`, the next identifier, and the memory. -/
def effect (g : ℕ) (m : ChatMem) (d : ChatDb) :
    (s : ChatStmt) → s.Resp → List ChatOp × ℕ × ChatMem
  | uuid4, _ => ([], g + 1, m)
  | insertSession .., r =>
    match r with
    | none => ([], g, m)
    | some row => ([.insertSession row], g + 1, m)
  | insertStep .., r => ([.insertStep r], g + 1, m)
  | createToolCall row, _ => ([.insertToolCall row], g, m)
  | completeToolCall id status result, r =>
    (if r then [.completeToolCall id status result] else [], g, m)
  | deleteToolCalls sid anchor, _ =>
    let turns := (d.steps.filter fun st => st.sessionId = sid ∧ anchor ≤ st.seq).map
      (·.messageStepId)
    ([.deleteToolCalls ((d.toolCalls.filter fun c =>
      c.sessionId = sid ∧ c.messageStepId ∈ turns).map (·.id))], g, m)
  | deleteSteps sid anchor, _ =>
    ([.deleteSteps ((d.steps.filter fun st => st.sessionId = sid ∧ anchor ≤ st.seq).map (·.seq))],
      g, m)
  | markTrialUsed u, r => (if r then [.markTrialUsed u] else [], g, m)
  | expireKey u, r => (if r then [.expireKey u] else [], g, m)
  | insertImage u sid msid tc contentType size prompt expires, r =>
    match r with
    | none => ([], g, m)
    | some id => ([.insertImage ⟨id, u, sid, msid, tc, contentType, size, prompt, expires⟩],
        g + 1, m)
  | deleteExpiredImages _, r => ((r.map .deleteImages).toList, g, m)
  | wallet s, _ =>
    (((s.run d.walletDb.owner g d.accounts).2.1).map .wallet,
      (s.run d.walletDb.owner g d.accounts).2.2, m)
  | createMessage request, _ => ([], g, { m with calls := m.calls ++ [request] })
  | siteExecute .., r => (r.2.map .site, g, m)
  | memInit steps, _ => ([], g, { m with steps := steps })
  | memAddStep step, _ => ([], g, { m with steps := m.steps ++ [step] })
  | memCreateToolCall row, _ => ([], g, { m with toolCalls := m.toolCalls ++ [row] })
  | memCompleteToolCall id status result, r =>
    ([], g, if r then { m with toolCalls := m.toolCalls.map (ToolCall.complete id status result) }
      else m)
  | _, _ => ([], g, m)

theorem le_effect (g : ℕ) (m : ChatMem) (d : ChatDb) (s : ChatStmt) (r : s.Resp) :
    g ≤ (s.effect g m d r).2.1 := by
  cases s with
  | wallet s =>
    have h : walletStore.exec s g () d.walletDb (s.run d.walletDb.owner g d.accounts).1
      (s.run d.walletDb.owner g d.accounts).2.1 (s.run d.walletDb.owner g d.accounts).2.2 () := rfl
    exact walletStore.gen_le h
  | insertImage | insertSession => cases r <;> simp [effect]
  | _ => simp [effect]

end ChatStmt

/-- Two logs can be open together when they hold no row or index entry in common. -/
def ChatOp.Apart (l l' : List ChatOp) : Prop :=
  ∀ k ∈ l.flatMap ChatOp.locks, k ∉ l'.flatMap ChatOp.locks

/-- The chat tables as a read-committed store, next to a provider with the answers `llm`. -/
def chatStore (llm : LLMAnswer → Prop) : Store ChatStmt ChatStmt.Resp ChatDb ChatOp ℕ ChatMem where
  apply := ChatOp.apply
  exec s g m d r ops g' m' := s.Allowed llm g m d r ∧ s.effect g m d r = (ops, g', m')
  compat := ChatOp.Apart
  gen_le {s g g' m m' d r ops} h := by
    have := s.le_effect g m d r
    rwa [h.2] at this
  compat_symm h k hk hk' := h k hk' hk
  compat_nil l k hk := by simp at hk

end ChatBackend.Chat

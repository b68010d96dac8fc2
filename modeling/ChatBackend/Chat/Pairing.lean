import ChatBackend.Chat.Clients
import ChatBackend.Chat.Sending

/-!
# Tool calls and their results

A provider takes a conversation only if every tool call of a message of the model is answered right after
that message. `pendingAfter` reads the messages as the provider does, with the calls that wait for a
result. All tools that the clients know are executed by the backend, in the transaction that stores the
call; so as long as the model calls tools in responses that stop for them, every history can be replayed,
no tool call is ever stored as pending, and no request answers that the client has to execute one:
`tool_calls_answered`. The responses of OpenAI are always of this kind.
-/

namespace ChatBackend.Chat

open Policy Wallet

/-! ## Calls that wait for a result -/

/-- The calls that wait for a result after a message, in order; none if the message may not come. -/
def NeutralMessage.next (pending : List String) : NeutralMessage → Option (List String)
  | .user _ => if pending = [] then some [] else none
  | .assistant content => if pending = [] then some (toolUseIds content) else none
  | .tool _ providerToolUseId _ _ _ =>
    match pending with
    | [] => none
    | id :: rest => if providerToolUseId = id then some rest else none

/-- The calls that wait for a result after some messages. -/
def pendingAfter (pending : List String) (messages : List NeutralMessage) : Option (List String) :=
  messages.foldlM NeutralMessage.next pending

/-- Every tool call is answered right after its message, in order, and nothing else is answered. -/
def Answered (messages : List NeutralMessage) : Prop := pendingAfter [] messages = some []

section Answered

variable {pending : List String} {before after messages : List NeutralMessage} {content : List Block}

theorem pendingAfter_append (pending : List String) (before after : List NeutralMessage) :
    pendingAfter pending (before ++ after) =
      (pendingAfter pending before).bind fun rest => pendingAfter rest after :=
  List.foldlM_append

theorem Answered.append (h : Answered before) (h' : Answered after) : Answered (before ++ after) := by
  rw [Answered, pendingAfter_append, h]
  exact h'

/-- Nothing waits where the user or the model speaks. -/
theorem Answered.before_user (h : Answered (before ++ .user content :: after)) : Answered before := by
  rw [Answered, pendingAfter_append] at h
  obtain ⟨pending, hbefore, h⟩ := Option.bind_eq_some_iff.1 h
  obtain ⟨rest, hnext, -⟩ := Option.bind_eq_some_iff.1 h
  simp only [NeutralMessage.next, Option.ite_none_right_eq_some] at hnext
  obtain ⟨rfl, -⟩ := hnext
  exact hbefore

/-- The id that a message answers. -/
def NeutralMessage.answers : NeutralMessage → Option String
  | .tool _ providerToolUseId _ _ _ => some providerToolUseId
  | _ => none

/-- Calls that wait are answered by the next messages. -/
theorem answers_of_pendingAfter (h : pendingAfter pending messages = some []) :
    ∃ results rest, messages = results ++ rest ∧
      results.map NeutralMessage.answers = pending.map some ∧ Answered rest := by
  induction pending generalizing messages with
  | nil => exact ⟨[], messages, rfl, rfl, h⟩
  | cons id pending ih =>
    cases messages with
    | nil => cases h
    | cons m messages =>
      obtain ⟨rest, hnext, h⟩ := Option.bind_eq_some_iff.1 h
      cases m with
      | user => cases hnext
      | assistant => cases hnext
      | tool toolCallId providerToolUseId =>
        simp only [NeutralMessage.next, Option.ite_none_right_eq_some] at hnext
        obtain ⟨rfl, heq⟩ := hnext
        obtain rfl := Option.some.inj heq
        obtain ⟨results, rest', rfl, hresults, hrest⟩ := ih h
        exact ⟨_ :: results, rest', rfl, by simp [NeutralMessage.answers, hresults], hrest⟩

/-- The calls of a message of the model are answered by the messages after it, in order. -/
theorem Answered.results (h : Answered (before ++ .assistant content :: after)) :
    ∃ results rest, after = results ++ rest ∧
      results.map NeutralMessage.answers = (toolUseIds content).map some ∧ Answered rest := by
  rw [Answered, pendingAfter_append] at h
  obtain ⟨pending, -, h⟩ := Option.bind_eq_some_iff.1 h
  obtain ⟨rest, hnext, h⟩ := Option.bind_eq_some_iff.1 h
  simp only [NeutralMessage.next, Option.ite_none_right_eq_some] at hnext
  obtain ⟨-, heq⟩ := hnext
  obtain rfl := Option.some.inj heq
  exact answers_of_pendingAfter h

end Answered

/-! ## The tools of the clients -/

/-- A response whose tools are all executed by the backend, and that has tool calls only if it stops for
them. -/
def LLMResult.Orderly (result : LLMResult) : Prop :=
  (∀ u ∈ result.toolUses, u.name.clientSide = false) ∧
    (result.stopReason ≠ .toolUse → result.toolUses = [])

/-- A response of Anthropic that has tool calls stops for them. -/
def ProviderResponse.Timely : ProviderResponse → Prop
  | .anthropic message => message.stopReason = some "tool_use" ∨ ∀ b ∈ message.content,
    ∀ id name input annotations, b ≠ .toolUse id name input annotations
  | .openai _ => True

/-- The backend executes every tool that has a name on the wire. -/
theorem clientSide_of_wireTool {name : String} {tool : ToolName} (h : wireTool name = .ok tool) :
    tool.clientSide = false := by
  unfold wireTool at h
  split at h
  · cases h
  · rename_i domain hdomain
    obtain rfl := Except.ok.inj h
    obtain ⟨kv, hkv, rfl⟩ := Option.map_eq_some_iff.1 hdomain
    have hmem := List.mem_of_find?_eq_some hkv
    have hall : ∀ kv ∈ Chats.domainToAnthropic, (ToolName.ofStr kv.1).clientSide = false := by decide
    exact hall kv hmem

theorem AnthropicMessage.serverSide {content : List Chats.AnthropicBlock} {us : List ToolUse}
    (h : toolUses content = .ok us) : ∀ u ∈ us, u.name.clientSide = false := by
  induction content generalizing us with
  | nil =>
    obtain rfl := Except.ok.inj h
    simp
  | cons b blocks ih =>
    cases b with
    | text | other => exact ih h
    | toolUse id name input annotations =>
      obtain ⟨tool, htool, h⟩ := exists_of_bind_eq_ok h
      obtain ⟨us', hus, h⟩ := exists_of_bind_eq_ok h
      obtain rfl := Except.ok.inj h
      exact List.forall_mem_cons.2 ⟨clientSide_of_wireTool htool, ih hus⟩

theorem AnthropicMessage.toolUses_eq_nil {content : List Chats.AnthropicBlock} {us : List ToolUse}
    (h : toolUses content = .ok us)
    (hnone : ∀ b ∈ content, ∀ id name input annotations, b ≠ .toolUse id name input annotations) :
    us = [] := by
  induction content with
  | nil => exact (Except.ok.inj h).symm
  | cons b blocks ih =>
    obtain ⟨hb, hblocks⟩ := List.forall_mem_cons.1 hnone
    cases b with
    | text | other => exact ih h hblocks
    | toolUse id name input annotations => exact absurd rfl (hb id name input annotations)

theorem OpenAIResponse.serverSide {loads : String → Option Json} {output : List Chats.OutputItem}
    {us : List ToolUse} (h : toolUses loads output = .ok us) : ∀ u ∈ us, u.name.clientSide = false := by
  induction output generalizing us with
  | nil =>
    obtain rfl := Except.ok.inj h
    simp
  | cons item items ih =>
    cases item with
    | message | other => exact ih h
    | functionCall callId id name arguments status =>
      obtain ⟨tool, htool, h⟩ := exists_of_bind_eq_ok h
      obtain ⟨args, -, h⟩ := exists_of_bind_eq_ok h
      obtain ⟨us', hus, h⟩ := exists_of_bind_eq_ok h
      obtain rfl := Except.ok.inj h
      exact List.forall_mem_cons.2 ⟨clientSide_of_wireTool htool, ih hus⟩

theorem OpenAIResponse.toolUses_of_result {loads : String → Option Json} {response : OpenAIResponse}
    {r : LLMResult} (h : response.result loads = .ok r) :
    toolUses loads response.output = .ok r.toolUses ∧
      r.stopReason = response.toStopReason (response.output.any isFunctionCall) := by
  cases hus : toolUses loads response.output with
  | error e =>
    unfold result at h
    split at h
    · cases h
    · rename_i us hus'
      rw [hus] at hus'
      cases hus'
  | ok us =>
    obtain ⟨r', hr', rfl, hreason⟩ := result_eq hus
    obtain rfl := Except.ok.inj (h.symm.trans hr')
    exact ⟨rfl, hreason⟩

/-- What the clients make of such a response. -/
theorem ProviderResponse.orderly {loads : String → Option Json} {response : ProviderResponse}
    {r : LLMResult} (h : response.result loads = .ok r) (ht : response.Timely) : r.Orderly := by
  cases response with
  | anthropic message =>
    have huses := AnthropicMessage.toolUses_of_result h
    refine ⟨AnthropicMessage.serverSide huses, fun hreason => ?_⟩
    rcases ht with hstop | hnone
    · obtain ⟨r', hr', -, hreason'⟩ := AnthropicMessage.result_eq huses
      obtain rfl := Except.ok.inj (h.symm.trans hr')
      rw [hreason', hstop] at hreason
      exact absurd rfl hreason
    · exact AnthropicMessage.toolUses_eq_nil huses hnone
  | openai response =>
    obtain ⟨huses, hreason'⟩ := OpenAIResponse.toolUses_of_result h
    refine ⟨OpenAIResponse.serverSide huses, fun hreason => ?_⟩
    have hnone : ∀ item ∈ response.output, OpenAIResponse.isFunctionCall item = false := by
      by_contra hcall
      exact hreason (OpenAIResponse.uses_of_result h hcall).1
    exact Except.ok.inj (huses.symm.trans (OpenAIResponse.toolUses_eq_nil hnone))

/-! ## What a round adds -/

section Round

variable {cfg : Config} {t : Turn} {pregen : Pregen} {g g' : ℕ} {d d' : ChatDb}

theorem Blocks.uses {us : List ToolUse} {bs : List BlockRun} (h : Blocks cfg t pregen g d us bs g' d') :
    bs.map (·.use) = us := by
  induction h with
  | nil => rfl
  | cons h _ ih => rw [List.map_cons, h.use, ih]

/-- A block that is not left to the client has its tool step, which answers the call. -/
theorem BlockRun.executed {b : BlockRun} (h : b.clientOuts = []) (t : Turn) :
    ∃ execution, b.answers = [b.answer execution] ∧
      (b.steps t).map (·.payload) = [b.answer execution] := by
  unfold BlockRun.clientOuts at h
  unfold BlockRun.answers BlockRun.steps BlockRun.execution
  cases hexec : b.exec with
  | server => exact ⟨_, rfl, rfl⟩
  | image => exact ⟨_, rfl, rfl⟩
  | client =>
    rw [hexec] at h
    cases h

theorem deltas_payloads {bs : List BlockRun} (h : bs.flatMap (·.clientOuts) = [])
    (ht : t.temporary = false) :
    (deltas t bs).steps.map (·.payload) = bs.flatMap (·.answers) := by
  induction bs with
  | nil => rfl
  | cons b bs ih =>
    obtain ⟨hb, hbs⟩ : b.clientOuts = [] ∧ bs.flatMap (·.clientOuts) = [] := by simpa using h
    obtain ⟨execution, hanswers, hsteps⟩ := b.executed hb t
    have hdelta : (b.delta t).steps = b.steps t := by simp [BlockRun.delta, ht]
    rw [deltas_cons, Delta.append_steps, List.map_append, hdelta, hsteps, ih hbs, List.flatMap_cons,
      hanswers]

/-- The blocks answer their calls in order. -/
theorem pendingAfter_blocks {bs : List BlockRun} (h : bs.flatMap (·.clientOuts) = []) (t : Turn) :
    pendingAfter (bs.map (·.use.id)) (messagesOf (bs.flatMap (·.answers))) = some [] := by
  induction bs with
  | nil => rfl
  | cons b bs ih =>
    obtain ⟨hb, hbs⟩ : b.clientOuts = [] ∧ bs.flatMap (·.clientOuts) = [] := by simpa using h
    obtain ⟨execution, hanswers, -⟩ := b.executed hb t
    have hfirst : pendingAfter (b.use.id :: bs.map (·.use.id)) [(b.answer execution).message] =
        some (bs.map (·.use.id)) := by
      simp [pendingAfter, BlockRun.answer, Payload.message, NeutralMessage.next]
    rw [List.flatMap_cons, hanswers, messagesOf, List.map_append, List.map_cons, pendingAfter_append,
      List.map_singleton, hfirst]
    exact ih hbs

/-- The messages of a round are answered. -/
theorem Round.Ok.answered {r : Round} (h : r.Ok cfg t g d g' d') (hc : r.clientOuts = []) :
    Answered (messagesOf r.payloads) := by
  have hids : toolUseIds r.result.contentBlocks = r.blocks.map (·.use.id) := by
    rw [← r.result.ids_eq, ← h.blocks.uses, List.map_map]
    rfl
  have hanswers := pendingAfter_blocks hc t
  rw [← hids] at hanswers
  exact hanswers

/-- The tools of an orderly response are executed. -/
theorem Round.Ok.executed {r : Round} (h : r.Ok cfg t g d g' d') (ho : r.result.Orderly) :
    r.clientOuts = [] := by
  refine List.flatMap_eq_nil_iff.2 fun b hb => ?_
  obtain ⟨pregen, g₁, d₁, u, g₂, -, hok⟩ := h.done b hb
  have huse : b.use ∈ r.result.toolUses := by
    rw [← h.blocks.uses]
    exact List.mem_map_of_mem hb
  have hserver : u.name.clientSide = false := hok.use ▸ ho.1 b.use huse
  have hexec := hok.exec
  unfold BlockRun.clientOuts
  split
  · rename_i hclient
    rw [hclient] at hexec
    exact absurd (hserver.symm.trans hexec.1) (by decide)
  · rfl

theorem Round.delta_answered {r : Round} (h : r.Ok cfg t g d g' d') (hc : r.clientOuts = []) :
    Answered ((r.delta t).steps.map (·.payload.message)) := by
  cases ht : t.temporary with
  | true =>
    have hsteps : (r.delta t).steps = [] := by
      refine List.eq_nil_iff_forall_not_mem.2 fun st hst => ?_
      have hstored := (h.scoped.steps st hst).1
      rw [ht] at hstored
      cases hstored
    rw [hsteps]
    rfl
  | false =>
    have hpayloads : (r.delta t).steps.map (·.payload) = r.payloads := by
      have hfirst : (t.stepDelta r.stepId (.assistant r.result.contentBlocks)
          (some r.result.usage)).steps.map (·.payload) = [.assistant r.result.contentBlocks] := by
        simp [Turn.stepDelta, stepDelta, ht]
      rw [Round.delta, Delta.append_steps, List.map_append, hfirst, deltas_payloads hc ht]
      rfl
    have hmessages : (r.delta t).steps.map (·.payload.message) = messagesOf r.payloads := by
      rw [← hpayloads, messagesOf, List.map_map]
      rfl
    rw [hmessages]
    exact h.answered hc

end Round

/-! ## The stored steps -/

/-- The messages of the stored steps of a session. -/
def ChatDb.messages (d : ChatDb) (sessionId : ℕ) : List NeutralMessage :=
  (d.steps.filter (·.sessionId = sessionId)).map (·.payload.message)

/-- Every stored tool call is done, and answered in its place. -/
structure ChatDb.Complete (d : ChatDb) : Prop where
  answered : ∀ sid, Answered (d.messages sid)
  done : ∀ c ∈ d.toolCalls, c.status ≠ .pending

section Complete

variable {llm : LLMAnswer → Prop} {cfg : Config} {ok : ℕ → ChatDb → ChatRequest → Prop}
variable {t : Turn} {g g' u sid m : ℕ} {d d' : ChatDb} {request : ChatRequest} {mem mem' : ChatMem}
variable {att : Option PreparedAttachments} {provider : Provider} {rs : List Round}

/-- The history of a stored session. -/
theorem messages_eq (hf : d.Fresh g) (sid : ℕ) (mem : ChatMem) :
    messagesOf (history false sid d mem) = d.messages sid := by
  have hsorted : d.listSteps sid = d.steps.filter (·.sessionId = sid) :=
    List.Pairwise.insertionSort_eq ((hf.stepsSorted.filter _).imp fun hlt => hlt.le)
  rw [history, if_neg Bool.false_ne_true, hsorted, messagesOf, List.map_map]
  rfl

theorem ChatDb.Complete.congr (h : d.Complete) (hs : d'.steps = d.steps)
    (hc : d'.toolCalls = d.toolCalls) : d'.Complete := by
  refine ⟨fun sid => ?_, hc ▸ h.done⟩
  rw [ChatDb.messages, hs]
  exact h.answered sid

/-- Steps of one session that answer their calls. -/
theorem ChatDb.Complete.extend (h : d.Complete) {Δ : Delta} (hsid : ∀ st ∈ Δ.steps, st.sessionId = sid)
    (hanswered : Answered (Δ.steps.map (·.payload.message)))
    (hdone : ∀ c ∈ Δ.toolCalls, c.status ≠ .pending) : (d.extend Δ).Complete := by
  refine ⟨fun sid' => ?_, fun c hc => ?_⟩
  · have hmessages : (d.extend Δ).messages sid' =
        d.messages sid' ++ (Δ.steps.filter (·.sessionId = sid')).map (·.payload.message) := by
      simp [ChatDb.messages, ChatDb.extend]
    rw [hmessages]
    refine (h.answered sid').append ?_
    by_cases heq : sid = sid'
    · rwa [List.filter_eq_self.2 fun st hst => by simp [hsid st hst, heq]]
    · rw [List.filter_eq_nil_iff.2 fun st hst => by simp [hsid st hst, heq]]
      rfl
  · rcases List.mem_append.1 hc with hc | hc
    · exact h.done c hc
    · exact hdone c hc

theorem ChatDb.Complete.step (h : d.Complete) {temporary : Bool} {seq : ℕ} {payload : Payload}
    {usage : Option Usage} (hanswered : Answered [payload.message]) :
    (d.extend (stepDelta temporary sid m seq payload usage)).Complete := by
  refine h.extend (fun st hst => ((stepDelta_mine (u := 0) ..).steps st hst).1) ?_ (by simp [stepDelta])
  cases temporary with
  | true => rfl
  | false => exact hanswered

theorem answered_user {payload : Payload} (h : payload.isUser = true) : Answered [payload.message] := by
  obtain ⟨content, hcontent⟩ := Payload.message_of_isUser h
  rw [hcontent]
  rfl

theorem filter_truncate (d : ChatDb) (sid anchor : ℕ) :
    (d.truncate sid anchor).steps.filter (·.sessionId = sid) =
      (d.steps.filter (·.sessionId = sid)).filter (·.seq < anchor) := by
  rw [ChatDb.truncate, List.filter_filter, List.filter_filter]
  refine List.filter_congr fun st _ => ?_
  by_cases hsid : st.sessionId = sid <;> simp [hsid]

theorem filter_truncate_of_ne (d : ChatDb) {sid sid' anchor : ℕ} (h : ¬sid = sid') :
    (d.truncate sid anchor).steps.filter (·.sessionId = sid') =
      d.steps.filter (·.sessionId = sid') := by
  rw [ChatDb.truncate, List.filter_filter]
  refine List.filter_congr fun st _ => ?_
  by_cases hsid : st.sessionId = sid' <;> simp [hsid, Ne.symm h]

/-- An edit cuts a session off in front of a message of the user. -/
theorem ChatDb.Complete.truncate (h : d.Complete) (hf : d.Fresh g) {anchor : ChatStep}
    (ha : d.anchor sid m = some anchor) : (d.truncate sid anchor.seq).Complete := by
  have hmem := ChatDb.mem_turnSteps.1 (List.mem_of_find?_eq_some ha)
  refine ⟨fun sid' => ?_, fun c hc => h.done c (List.mem_of_mem_filter hc)⟩
  by_cases hsid : sid = sid'
  · subst hsid
    have hin : anchor ∈ d.steps.filter (·.sessionId = sid) :=
      List.mem_filter.2 ⟨hmem.1, decide_eq_true hmem.2.1⟩
    obtain ⟨l₁, l₂, hl⟩ := List.append_of_mem hin
    have hsorted := hf.stepsSorted.filter (·.sessionId = sid)
    rw [hl, List.pairwise_append] at hsorted
    obtain ⟨-, hlater, hearlier⟩ := hsorted
    have hkept : (d.truncate sid anchor.seq).steps.filter (·.sessionId = sid) = l₁ := by
      rw [filter_truncate, hl, List.filter_append, List.filter_eq_self.2, List.filter_eq_nil_iff.2,
        List.append_nil]
      · intro st hst
        rcases List.mem_cons.1 hst with rfl | hst
        · simp
        · simpa using (List.rel_of_pairwise_cons hlater hst).le
      · intro st hst
        simpa using hearlier st hst anchor (List.mem_cons_self ..)
    have huser := List.find?_some (p := fun st : ChatStep => st.payload.isUser) ha
    obtain ⟨content, hcontent⟩ := Payload.message_of_isUser huser
    have hanswered := h.answered sid
    rw [ChatDb.messages, hl, List.map_append, List.map_cons, hcontent] at hanswered
    rw [ChatDb.messages, hkept]
    exact hanswered.before_user
  · rw [ChatDb.messages, filter_truncate_of_ne d hsid]
    exact h.answered sid'

theorem Opened.complete {req : RunRequest} {o : Opening} (h : Opened cfg req g d o g' d' mem)
    (hf : d.Fresh g) (hc : d.Complete) : d'.Complete := by
  have huser : Answered [(req.payload cfg o.prepared).message] := answered_user rfl
  cases h with
  | temporary => exact hc
  | created =>
    have hnew : ({ d with sessions := d.sessions ++ [o.session] } : ChatDb).Complete := hc.congr rfl rfl
    exact hnew.step huser
  | resumed => exact hc.step huser
  | edited _ _ _ _ _ _ ha => exact (hc.truncate hf ha).step huser

/-- Nothing waits for a batch of results. -/
theorem Resolved.deliverAll {userId sessionId messageStepId : ℕ} {results : List ToolResultIn}
    {session : ChatSession} {resolved : List (ToolResultIn × ToolCall)}
    (h : Resolved d userId sessionId results session messageStepId resolved) (hc : d.Complete)
    (u g : ℕ) : deliverAll u resolved g d = (g, d) :=
  deliverAll_of_done (fun p hp => hc.done p.2 (h.calls p hp).1) g d

theorem Ready.complete {session : ChatSession} {temporary : Bool}
    (h : Ready cfg g d request u session m temporary att g' d' mem) (hf : d.Fresh g)
    (hc : d.Complete) : d'.Complete := by
  cases h with
  | run h => exact h.complete hf hc
  | toolResult h =>
    rw [h.deliverAll hc]
    exact hc

theorem Starts.complete (h : Starts cfg g d request t att g' d' mem) (hf : d.Fresh g)
    (hc : d.Complete) : d'.Complete := by
  cases h with
  | intro h => exact (h.complete hf hc).congr rfl rfl

theorem Round.Ok.complete {r : Round} (h : r.Ok cfg t g d g' d') (hexecuted : r.clientOuts = [])
    (hc : d.Complete) : d'.Complete := by
  rw [h.eq]
  exact hc.extend (fun st hst => (h.mine.steps st hst).1) (Round.delta_answered h hexecuted)
    fun c hmem => by
      rcases List.mem_append.1 hmem with hmem | hmem
      · simp [Turn.stepDelta, stepDelta] at hmem
      · exact (deltas_done hexecuted c hmem).1

theorem Generated.complete (h : Generated llm cfg t provider att g d mem rs g' d' mem')
    (hc : d.Complete) : d'.Complete := by
  induction h with
  | start => exact hc
  | round _ hr hexecuted _ _ ih => exact hr.complete hexecuted ih

/-- A message without tool calls. -/
theorem answered_assistant {result : LLMResult} (h : result.toolUses = []) :
    Answered [(Payload.assistant result.contentBlocks).message] := by
  have hids : toolUseIds result.contentBlocks = [] := by
    rw [← result.ids_eq, h]
    rfl
  show some (toolUseIds result.contentBlocks) = some []
  rw [hids]

theorem Turn.ended_complete {result : LLMResult} (h : result.toolUses = []) (hc : d.Complete) (t : Turn)
    (g : ℕ) (reason : List (String × Json)) : (t.ended g result reason d).Complete :=
  (hc.step (answered_assistant h)).congr rfl rfl

theorem Bills.complete {usage : Usage} (h : Bills t usage g d g' d') (hc : d.Complete) :
    d'.Complete := by
  cases h <;> exact hc.congr rfl rfl

theorem LLMResult.Final.no_tools {result : LLMResult} (h : result.Final) (ho : result.Orderly) :
    result.toolUses = [] := by
  rcases h with hstop | ⟨-, hnone⟩
  · exact ho.2 (by simp [hstop])
  · exact hnone

theorem Ends.complete {acc : Acc} {answer : LLMAnswer} {pregen : Pregen} {out : ChatRunOut}
    (h : Ends cfg t acc g d answer pregen out g' d') (hl : llm answer)
    (hllm : ∀ result, llm (.result result) → result.Orderly) (hc : d.Complete) :
    d'.Complete ∧ out.status ≠ .toolCall := by
  cases h with
  | final h hb =>
    exact ⟨hb.complete (t.ended_complete (h.no_tools (hllm _ hl)) hc _ _), by simp [Turn.out]⟩
  | unpaid | poor => exact ⟨hc, by simp [blocked]⟩
  | maxTokens h =>
    have hnone := (hllm _ hl).2 (by simp [h])
    exact ⟨t.ended_complete hnone hc _ _, by simp [Turn.out]⟩
  | client hr hne => exact absurd (hr.executed (hllm _ hl)) hne
  | expired h =>
    refine ⟨?_, by simp [blocked]⟩
    split
    · exact hc.congr rfl rfl
    · exact hc

theorem Passes.complete (h : Passes llm cfg g d request t provider att rs g' d' mem)
    (hf : d.Fresh g) (hc : d.Complete) : d'.Complete := by
  cases h with
  | intro hs _ hg => exact hg.complete (hs.complete hf hc)

theorem ChatDb.Complete.no_pending (h : d.Complete) (p : ToolCall → Bool) :
    pendingCalls (d.toolCalls.filter p) = [] := by
  refine List.filter_eq_nil_iff.2 fun c hc => ?_
  have hdone := (ToolStatus.done_iff c.status).2 (h.done c (List.mem_of_mem_filter hc))
  simp [hdone]

theorem Settles.complete {out : ChatRunOut} (h : Settles cfg g d request out g' d') (hf : d.Fresh g)
    (hc : d.Complete) : d'.Complete ∧ out.status ≠ .toolCall := by
  cases h with
  | denied h => exact ⟨(h.complete hf hc).congr rfl rfl, by simp [blocked]⟩
  | noProvider h => exact ⟨h.complete hf hc, by simp [blocked]⟩
  | awaiting hr h hp hne =>
    rw [h.deliverAll hc] at hp
    exact absurd (hp.trans (.of_eq (hc.no_pending _))).eq_nil hne
  | replayed hr h =>
    rw [h.deliverAll hc]
    exact ⟨hc, by simp [renderSavedStep]⟩

theorem Visits.complete (h : Visits llm cfg g d request g' d')
    (hllm : ∀ result, llm (.result result) → result.Orderly) (hf : d.Fresh g) (hc : d.Complete) :
    d'.Complete := by
  cases h with
  | passed h => exact h.complete hf hc
  | exhausted h => exact (h.complete hf hc).congr rfl rfl
  | answered h =>
    cases h with
    | settled h => exact (h.complete hf hc).1
    | ended h hl he hs =>
      exact (he.complete hl hllm (h.complete hf hc)).1.congr hs.kept.steps hs.kept.toolCalls

/-- In every history of orderly responses the tool calls are done and answered. -/
theorem Reached.complete (h : Reached llm cfg ok g d)
    (hllm : ∀ result, llm (.result result) → result.Orderly) : d.Complete :=
  h.induction (I := fun _ d => d.Complete) ⟨fun _ => rfl, by simp [ChatDb.empty]⟩ (fun _ hc => hc)
    (fun _ hf hc _ hv => hv.complete hllm hf hc) fun hc _ => hc.congr rfl rfl

/-! ## The history of a call -/

theorem TemporaryTurn.payload_answered (provider : Provider) (turn : TemporaryTurn) :
    Answered [(turn.payload provider).message] := by
  unfold TemporaryTurn.payload historyBlocks
  cases turn.fromUser <;> cases provider <;> rfl

theorem answered_flatten {messages : List NeutralMessage} (h : ∀ m ∈ messages, Answered [m]) :
    Answered messages := by
  induction messages with
  | nil => rfl
  | cons m messages ih =>
    obtain ⟨hm, hmessages⟩ := List.forall_mem_cons.1 h
    exact hm.append (ih hmessages)

/-- The transcript of a temporary run calls no tools. -/
theorem Starts.memory_answered (h : Starts cfg g d request t att g' d' mem) (ht : t.temporary = true) :
    Answered (messagesOf (mem.steps.map (·.payload))) := by
  obtain ⟨req, prepared, -, hmemory⟩ := h.memory ht
  rw [hmemory, messagesOf, List.map_append]
  refine Answered.append (answered_flatten fun m hm => ?_) (answered_user rfl)
  obtain ⟨p, hp, rfl⟩ := List.mem_map.1 hm
  obtain ⟨turn, -, rfl⟩ := List.mem_map.1 hp
  exact turn.payload_answered _

theorem Generated.memory_answered (h : Generated llm cfg t provider att g d mem rs g' d' mem')
    (hm : Answered (messagesOf (mem.steps.map (·.payload)))) :
    Answered (messagesOf (mem'.steps.map (·.payload))) := by
  induction h with
  | start => exact hm
  | @round rs g₁ g₂ d₁ d₂ m₁ m₂ r h hr hc hl hgrows ih =>
    have hround : Answered (messagesOf ((r.memSteps t).map (·.payload))) := by
      have hpayloads : (r.memSteps t).map (·.payload) = r.payloads := by
        simp [Round.memSteps, Chat.memSteps, Round.payloads, Function.comp_def]
      rw [hpayloads]
      exact hr.answered hc
    rw [hgrows.steps, List.map_append, messagesOf, List.map_append]
    refine Answered.append ih ?_
    split
    · exact hround
    · rfl

/-- The history of a call is answered. -/
theorem Passes.answered (h : Passes llm cfg g d request t provider att rs g' d' mem)
    (hf : d.Fresh g) (hc : d.Complete) :
    Answered (messagesOf (history t.temporary t.sessionId d' mem)) := by
  cases ht : t.temporary with
  | true =>
    obtain ⟨hs, -, hg⟩ := h
    exact hg.memory_answered (hs.memory_answered ht)
  | false =>
    rw [messages_eq (h.fresh hf).2.2 t.sessionId mem]
    exact (h.complete hf hc).answered t.sessionId

/-- **Every tool call is answered.** In every reachable state of providers whose responses have tool
calls only if they stop for them: what any call sends is answered, so that the calls of each message of
the model have their results right behind it; no stored tool call waits; and no request leaves one to the
client. -/
theorem tool_calls_answered {loads : String → Option Json}
    (hllm : ∀ result, llm (.result result) →
      ∃ response : ProviderResponse, response.result loads = .ok result ∧ response.Timely)
    (h : Reached llm cfg ok g d) :
    (∀ c ∈ d.toolCalls, c.status ≠ .pending) ∧
    (∀ req g' d' mem, Calls llm cfg g d request req g' d' mem → Answered req.messages ∧
      ∀ before content after, req.messages = before ++ .assistant content :: after →
        ∃ results rest, after = results ++ rest ∧
          results.map NeutralMessage.answers = (toolUseIds content).map some) ∧
    ∀ out g' d', Answers llm cfg g d request out g' d' → out.status ≠ .toolCall := by
  have horderly : ∀ result, llm (.result result) → result.Orderly := by
    intro result hl
    obtain ⟨response, hresult, htimely⟩ := hllm result hl
    exact ProviderResponse.orderly hresult htimely
  have hcomplete := h.complete horderly
  refine ⟨hcomplete.done, fun req g' d' mem hc => ?_, fun out g' d' hanswers => ?_⟩
  · obtain ⟨t, att, rs, hpass, hreq⟩ := hc.passes
    have hanswered : Answered req.messages := by
      rw [hreq]
      exact hpass.answered h.fresh hcomplete
    refine ⟨hanswered, fun before content after heq => ?_⟩
    rw [heq] at hanswered
    obtain ⟨results, rest, hafter, hresults, -⟩ := hanswered.results
    exact ⟨results, rest, hafter, hresults⟩
  · cases hanswers with
    | settled hs => exact (hs.complete h.fresh hcomplete).2
    | ended hpass hl he => exact (he.complete hl horderly (hpass.complete h.fresh hcomplete)).2

end Complete

/-! ## A tool that is executed -/

theorem ProviderResponse.result_of_answer {loads : String → Option Json} {response : ProviderResponse}
    {r : LLMResult} (h : response.answer loads = .result r) : response.result loads = .ok r := by
  unfold answer at h
  split at h
  · rename_i result hresult
    rw [hresult, LLMAnswer.result.inj h]
  · cases h

/-- The answers that the clients make of responses that call tools only if they stop for them. -/
def timely (a : LLMAnswer) : Prop :=
  ∀ r, a = .result r → ∃ response : ProviderResponse,
    response.result (fun _ => none) = .ok r ∧ response.Timely

theorem timely_silent : timely (.error (.upstream "")) := fun _ h => by cases h

/-- The model asks for the time. -/
def askingTime : ProviderResponse :=
  .anthropic ⟨some "tool_use", [.toolUse "call_1" "time_now" (.obj []) []], ⟨20, 5, "gpt-4o", 0, 0⟩⟩

theorem askingTime_timely : timely (askingTime.answer fun _ => none) :=
  fun _ h => ⟨askingTime, ProviderResponse.result_of_answer h, .inl rfl⟩

/-- The second call of a run sends the message, the tool call and its result. -/
theorem tool_calls_answered_time : ∃ (req : LLMRequest) (g' : ℕ) (d' : ChatDb) (m : ChatMem),
    req.messages.length = 3 ∧
      Calls timely openaiInstance 0 (keyed .openai) (.run (byokMessage "smart")) req g' d' m ∧
      Answered req.messages := by
  have hcalls : ((ChatRequest.prog openaiInstance (.run (byokMessage "smart"))).trace
      (providerHandler timely_silent).act
      (idle 0 (keyed .openai), ⟨⟨[askingTime.answer fun _ => none], [], false⟩,
          fun a ha => List.mem_singleton.1 ha ▸ askingTime_timely⟩)).any
      (fun x => (callOf x.1).any fun req => req.messages.length = 3) = true := by decide +kernel
  obtain ⟨req, g', d', m, hlen, hcall⟩ := exists_call_of_provider timely_silent
    (p := fun req => req.messages.length = 3) _ (keyed_fresh _) hcalls
  have hreached : Reached timely openaiInstance (fun _ _ _ => True) 0 (keyed .openai) := ⟨[], .keyed _ _⟩
  obtain ⟨-, hanswered, -⟩ := tool_calls_answered (fun r hr => hr r rfl) hreached
  exact ⟨req, g', d', m, of_decide_eq_true hlen, hcall, (hanswered req g' d' m hcall).1⟩

end ChatBackend.Chat

import ChatBackend.Chat.History
import ChatBackend.Foundations.Schedule

/-!
# Runs from a script

A script has the answers that come from outside of the process: of the provider, the image generator
and the tools. With it the requests can be computed.
-/

namespace ChatBackend.Chat

open Prog Policy Wallet

/-- The answers of a run from outside. -/
structure Script where
  answers : List LLMAnswer
  images : List (Except ImageError ImageData)
  /-- Whether the images with an expiry have expired when they are swept. -/
  sweeps : Bool

/-- A provider and an image generator with nothing left to say. -/
def Script.silent : Script := ⟨[], [], false⟩

/-- The answer of a statement. -/
def ChatStmt.answer (ω : Script) (g : ℕ) (m : ChatMem) (d : ChatDb) : (s : ChatStmt) → s.Resp × Script
  | uuid4 => (g, ω)
  | defaultDialogMode _ => ("smart", ω)
  | ownsWorkspace .. => (true, ω)
  | workspaceFiles .. => (none, ω)
  | isExpired s => (s.id ∈ d.expired, ω)
  | getSession sid u => (d.sessions.find? fun s => s.id = sid ∧ s.userId = u, ω)
  | sessionById sid => (d.session sid, ω)
  | insertSession u p mode dm model w =>
    (if dm ∈ dialogModes then some ⟨g, u, p, mode, dm, model, w⟩ else none, ω)
  | insertStep sid msid payload usage => (⟨g, sid, msid, payload, usage⟩, ω)
  | listSteps sid => (d.listSteps sid, ω)
  | createToolCall _ => ((), ω)
  | getToolCall id => (d.toolCall id, ω)
  | listToolCallsForStep sid msid =>
    (d.toolCalls.filter fun c => c.sessionId = sid ∧ c.messageStepId = msid, ω)
  | completeToolCall id _ _ => (d.toolCalls.any fun c => c.id = id ∧ c.status = .pending, ω)
  | anchorSeq sid msid => (((d.turnSteps sid msid).find? (·.payload.isUser)).map (·.seq), ω)
  | deleteToolCalls .. => ((), ω)
  | deleteSteps sid anchor =>
    ((d.steps.filter fun st => st.sessionId = sid ∧ anchor ≤ st.seq).length, ω)
  | assistantToolStepId sid msid =>
    (((d.turnSteps sid msid).reverse.find? (·.payload.isAssistant)).map (·.seq), ω)
  | toolStepSeq sid msid tc =>
    (((d.turnSteps sid msid).find? (·.payload.answers = some tc)).map (·.seq), ω)
  | firstAssistantAfter sid msid seq =>
    ((d.turnSteps sid msid).find? fun st => st.payload.isAssistant ∧ seq < st.seq, ω)
  | lastAssistant sid msid => ((d.turnSteps sid msid).reverse.find? (·.payload.isAssistant), ω)
  | markTrialUsed u => (!d.trialUsed u, ω)
  | expireKey u => ((d.keys u).isSome, ω)
  | loadPolicyState u => (d.policyState u, ω)
  | plaintextKey u => ((d.keys u).map fun key => (key.plaintext, key.provider), ω)
  | insertImage _ _ _ tc _ _ _ _ => (if d.images.any (·.toolCallId = tc) then none else some g, ω)
  | existingImage tc => ((d.images.find? (·.toolCallId = tc)).map (·.id), ω)
  | sweepLock => (ω.sweeps, ω)
  | deleteExpiredImages batch => (some (((d.images.filter (·.expires)).map (·.id)).take batch), ω)
  | wallet s => ((s.run d.walletDb.owner g d.accounts).1, ω)
  | createMessage _ => match ω.answers with
    | answer :: answers => (answer, { ω with answers := answers })
    | [] => (.error (.upstream ""), ω)
  | generateImage _ => match ω.images with
    | image :: images => (image, { ω with images := images })
    | [] => (.error .contentPolicy, ω)
  | siteExecute .. => ((.ok (.ok .null), []), ω)
  | globalExecute .. => (.ok .null, ω)
  | memInit _ => ((), ω)
  | memAddStep _ => ((), ω)
  | memListSteps => (m.steps, ω)
  | memCreateToolCall _ => ((), ω)
  | memCompleteToolCall id _ _ => (m.toolCalls.any fun c => c.id = id ∧ c.status = .pending, ω)

theorem ChatStmt.allowed_answer (ω : Script) (g : ℕ) (m : ChatMem) (d : ChatDb) (s : ChatStmt) :
    s.Allowed (fun _ => True) g m d (s.answer ω g m d).1 := by
  cases s
  case isExpired s => exact fun h => by simpa [answer] using h
  case deleteExpiredImages batch =>
    rintro _ ⟨⟩
    refine ⟨by simp, fun id hid => ?_⟩
    obtain ⟨i, hi, rfl⟩ := List.mem_map.1 (List.mem_of_mem_take hid)
    exact ⟨i, List.mem_of_mem_filter hi, rfl, (List.mem_filter.1 hi).2⟩
  all_goals first
    | exact rfl
    | exact trivial
    | exact List.Perm.refl _

/-- Any provider. -/
abbrev anyProvider : LLMAnswer → Prop := fun _ => True

/-- The statements, answered by a script. -/
def chatHandler : Store.Handler (chatStore anyProvider) Script where
  answer ω s g m d :=
    ((s.answer ω g m d).1, (s.effect g m d (s.answer ω g m d).1).1,
      (s.effect g m d (s.answer ω g m d).1).2.1, (s.effect g m d (s.answer ω g m d).1).2.2,
      (s.answer ω g m d).2)
  ok ω s g m d := ⟨s.allowed_answer ω g m d, rfl⟩
  compat l l' := (l.flatMap ChatOp.locks).all fun k => k ∉ l'.flatMap ChatOp.locks
  compat_ok h k hk := by simpa using List.all_eq_true.1 h k hk

section Provider

variable {llm : LLMAnswer → Prop}

theorem ChatStmt.allowed_script (hsilent : llm (.error (.upstream ""))) {ω : Script}
    (hω : ∀ a ∈ ω.answers, llm a) (g : ℕ) (m : ChatMem) (d : ChatDb) (s : ChatStmt) :
    s.Allowed llm g m d (s.answer ω g m d).1 := by
  have hany := s.allowed_answer ω g m d
  obtain ⟨answers, images, sweeps⟩ := ω
  cases s
  case createMessage request =>
    cases answers with
    | nil => exact hsilent
    | cons a answers => exact hω a (List.mem_cons_self ..)
  all_goals exact hany

theorem ChatStmt.answers_subset (ω : Script) (g : ℕ) (m : ChatMem) (d : ChatDb) (s : ChatStmt) :
    ∀ a ∈ (s.answer ω g m d).2.answers, a ∈ ω.answers := by
  intro a ha
  obtain ⟨answers, images, sweeps⟩ := ω
  cases s
  case createMessage request =>
    cases answers with
    | nil => exact ha
    | cons b answers => exact List.mem_cons_of_mem _ ha
  case generateImage args => cases images <;> exact ha
  all_goals exact ha

/-- The statements, answered by a script with a provider that answers as `llm` has it. -/
def providerHandler (hsilent : llm (.error (.upstream ""))) :
    Store.Handler (chatStore llm) {ω : Script // ∀ a ∈ ω.answers, llm a} where
  answer ω s g m d :=
    ((s.answer ω.1 g m d).1, (s.effect g m d (s.answer ω.1 g m d).1).1,
      (s.effect g m d (s.answer ω.1 g m d).1).2.1, (s.effect g m d (s.answer ω.1 g m d).1).2.2,
      ⟨(s.answer ω.1 g m d).2, fun a ha => ω.2 a (s.answers_subset ω.1 g m d a ha)⟩)
  ok ω s g m d := ⟨s.allowed_script hsilent ω.2 g m d, rfl⟩
  compat l l' := (l.flatMap ChatOp.locks).all fun k => k ∉ l'.flatMap ChatOp.locks
  compat_ok h k hk := by simpa using List.all_eq_true.1 h k hk

/-- A run with a provider is one with any provider. -/
theorem runs_anyProvider {α : Type} {p : ChatProg α} {w w' : Store.World ChatDb ℕ ChatMem}
    {o : Except AppError α} (h : Runs (chatStore llm).step p w o w') :
    Runs (chatStore anyProvider).step p w o w' := by
  induction h with
  | ret a w => exact .ret a w
  | raise x w => exact .raise x w
  | @act e k w w₁ w' r o hT _ ih =>
    refine .act ?_ ih
    cases e with
    | commit | rollback => exact hT
    | stmt s =>
      obtain ⟨ops, gen, mem, ⟨hallowed, heffect⟩, hw⟩ := hT
      refine ⟨ops, gen, mem, ⟨?_, heffect⟩, hw⟩
      cases s
      case createMessage => trivial
      all_goals exact hallowed

end Provider

/-- A request of a script, served in a committed state: what it answers, and the state that it
leaves. -/
def serveOne (cfg : Config) (ω : Script) (request : ChatRequest) (g : ℕ) (d : ChatDb) :
    Except AppError ChatRunOut × ChatWorld × Script :=
  (request.prog cfg).eval chatHandler.act (idle g d, ω)

theorem serveOne_runs (cfg : Config) (ω : Script) (request : ChatRequest) (g : ℕ) (d : ChatDb) :
    Runs (chatStore anyProvider).step (request.prog cfg) (idle g d) (serveOne cfg ω request g d).1
      (serveOne cfg ω request g d).2.1 :=
  Store.eval_runs_step chatHandler _ (idle g d, ω)

/-- A test of what a served request answers and of the state that it leaves. -/
def answersWith (test : ChatRunOut → ChatWorld → Bool) :
    Except AppError ChatRunOut × ChatWorld × Script → Bool
  | (.ok out, w, _) => test out w
  | (.error _, _) => false

theorem exists_of_answersWith {cfg : Config} {ω : Script} {request : ChatRequest} {g : ℕ} {d : ChatDb}
    {test : ChatRunOut → ChatWorld → Bool}
    (h : answersWith test (serveOne cfg ω request g d) = true) :
    ∃ out w, Runs (chatStore anyProvider).step (request.prog cfg) (idle g d) (.ok out) w ∧
      test out w = true := by
  have hserve := serveOne_runs cfg ω request g d
  unfold answersWith at h
  split at h
  · rename_i out w ω' hout
    rw [hout] at hserve
    exact ⟨out, w, hserve, h⟩
  · cases h

/-- A served request lengthens a history. -/
theorem History.serveOne {cfg : Config} {ok : ℕ → ChatDb → ChatRequest → Prop} {hs : List Served}
    {g : ℕ} {d : ChatDb} (h : History anyProvider cfg ok hs g d) (ω : Script)
    {request : ChatRequest} (hok : ok g d request) :
    History anyProvider cfg ok (hs ++ [⟨g, d, request, (serveOne cfg ω request g d).1.toOption,
        (Chat.serveOne cfg ω request g d).2.1.gen, (Chat.serveOne cfg ω request g d).2.1.db⟩])
      (Chat.serveOne cfg ω request g d).2.1.gen (Chat.serveOne cfg ω request g d).2.1.db :=
  .serve h hok (serveOne_runs cfg ω request g d)

/-- The requests of a list, each with its script, served one after the other. -/
def serveList (cfg : Config) : List (ChatRequest × Script) → ℕ → ChatDb → ℕ × ChatDb
  | [], g, d => (g, d)
  | (request, ω) :: rest, g, d =>
    serveList cfg rest (serveOne cfg ω request g d).2.1.gen (serveOne cfg ω request g d).2.1.db

theorem serveList_reached {cfg : Config} (rest : List (ChatRequest × Script)) {g : ℕ} {d : ChatDb}
    (h : Reached anyProvider cfg (fun _ _ _ => True) g d) :
    Reached anyProvider cfg (fun _ _ _ => True) (serveList cfg rest g d).1
      (serveList cfg rest g d).2 := by
  induction rest generalizing g d with
  | nil => exact h
  | cons r rest ih =>
    obtain ⟨hs, h⟩ := h
    exact ih ⟨_, h.serveOne r.2 trivial⟩

/-- The provider call of an action. -/
def callOf : TxAct ChatStmt → Option LLMRequest
  | .stmt (.createMessage req) => some req
  | _ => none

theorem eq_of_callOf {e : TxAct ChatStmt} {req : LLMRequest} (h : callOf e = some req) :
    e = .stmt (.createMessage req) := by
  unfold callOf at h
  split at h
  · rw [Option.some.inj h]
  · cases h

/-- The provider calls of a scripted request, with the states in which they are made. -/
def callsOf (cfg : Config) (ω : Script) (request : ChatRequest) (g : ℕ) (d : ChatDb) :
    List (LLMRequest × ChatWorld) :=
  ((request.prog cfg).trace chatHandler.act (idle g d, ω)).filterMap fun x =>
    (callOf x.1).map fun req => (req, x.2.1)

/-- They are calls of the request. -/
theorem calls_of_callsOf {cfg : Config} {ω : Script} {request : ChatRequest} {g : ℕ} {d : ChatDb}
    (hf : d.Fresh g) {req : LLMRequest} {w : ChatWorld} (h : (req, w) ∈ callsOf cfg ω request g d) :
    Calls anyProvider cfg g d request req w.gen w.db w.mem := by
  obtain ⟨⟨e, w', ω'⟩, hmem, hcall⟩ := List.mem_filterMap.1 h
  obtain ⟨req', hreq, hpair⟩ := Option.map_eq_some_iff.1 hcall
  obtain ⟨rfl, rfl⟩ := Prod.mk.inj hpair
  obtain rfl : e = .stmt (.createMessage req') := eq_of_callOf hreq
  exact (calls_of_reaches hf (Store.trace_reaches_step chatHandler _ _ hmem)).2

theorem exists_call_of_any {cfg : Config} {ω : Script} {request : ChatRequest} {d : ChatDb}
    (hf : d.Fresh 0) {p : LLMRequest → Bool}
    (h : (callsOf cfg ω request 0 d).any (fun x => p x.1) = true) :
    ∃ req g' d' m, p req = true ∧ Calls anyProvider cfg 0 d request req g' d' m := by
  obtain ⟨⟨req, w⟩, hmem, hp⟩ := List.any_eq_true.1 h
  exact ⟨req, _, _, _, hp, calls_of_callsOf hf hmem⟩

/-- The first call of a scripted request to a provider that answers as `llm` has it. -/
theorem exists_call_of_provider {cfg : Config} {llm : LLMAnswer → Prop}
    (hsilent : llm (.error (.upstream ""))) (ω : {ω : Script // ∀ a ∈ ω.answers, llm a})
    {request : ChatRequest} {d : ChatDb} (hf : d.Fresh 0) {p : LLMRequest → Bool}
    (h : ((request.prog cfg).trace (providerHandler hsilent).act (idle 0 d, ω)).any
      (fun x => (callOf x.1).any p) = true) :
    ∃ req g' d' m, p req = true ∧ Calls llm cfg 0 d request req g' d' m := by
  obtain ⟨⟨e, w, ω'⟩, hmem, hp⟩ := List.any_eq_true.1 h
  obtain ⟨req, hreq, hp⟩ := (Option.any_eq_true _ _).1 hp
  obtain rfl : e = .stmt (.createMessage req) := eq_of_callOf hreq
  have hreaches := Store.trace_reaches_step (providerHandler hsilent) _ _ hmem
  exact ⟨req, _, _, _, hp, (calls_of_reaches hf hreaches).2⟩

/-! ## An instance and a message -/

/-- An instance of OpenAI. -/
def openaiInstance : Config where
  activeProvider := .openai
  allowedModelsFor
    | .openai => ["gpt-4o", "gpt-4o-mini"]
    | .anthropic => ["claude-sonnet-4-5"]
  byokDefaultModelFor
    | .openai => "gpt-4o"
    | .anthropic => "claude-sonnet-4-5"
  deepThinkingModel := "o4-mini"
  maxServerToolRounds := 8
  imageCreditsCost := 5
  attachmentMaxCount := 5
  workspaceContextMaxChars := 200000
  imageSweepBatchSize := 100
  decodeAttachment total _ := .ok (0, none, total)
  validateToolArgs _ args := .ok args
  renderContextBlock _ := none

/-- A message of a user with a key. -/
def byokMessage (dialogMode : String) : RunRequest where
  userId := 1
  projectId := none
  sessionId := none
  message := "hello"
  mode := .byok
  dialogMode := some dialogMode
  attachments := []
  model := some "gpt-4o"
  workspaceProjectId := none
  context := none
  actionPrompt := none
  editMessageStepId := none
  temporary := false
  history := []

/-- A message of a temporary chat. -/
def temporaryDrawing : RunRequest :=
  { byokMessage "smart" with mode := .credits, temporary := true }

/-- The model asks for an image. -/
def drawing : LLMResult where
  stopReason := .toolUse
  contentBlocks := [.toolUse "call_1" "image_generate" (.obj [("prompt", .str "a cat")])]
  usage := ⟨20, 5, "gpt-4o", 0, 0⟩
  text := ""
  toolUses := [⟨"call_1", .imageGenerate, .obj [("prompt", .str "a cat")]⟩]
  ids_eq := rfl
  no_media := by simp [Block.isMedia]

/-- The model answers. -/
def answered : LLMResult where
  stopReason := .endTurn
  contentBlocks := [.text "done"]
  usage := ⟨30, 5, "gpt-4o", 0, 0⟩
  text := "done"
  toolUses := []
  ids_eq := rfl
  no_media := by simp [Block.isMedia]

/-- Users with a subscription and a key of `provider`. -/
def keyed (provider : Provider) : ChatDb :=
  { ChatDb.empty with
    subscriptions := fun _ => .active
    keys := fun _ => some ⟨true, .valid, "key", some provider⟩ }

theorem keyed_fresh (provider : Provider) : (keyed provider).Fresh 0 :=
  ⟨nofun, nofun, nofun, nofun, nofun, .nil, .nil⟩

theorem History.keyed {llm : LLMAnswer → Prop} {ok : ℕ → ChatDb → ChatRequest → Prop} (cfg : Config)
    (provider : Provider) : History llm cfg ok [] 0 (keyed provider) := by
  have hnone : ∀ r ∈ rows [], ∀ id, r.idempotencyKey ≠ .uuid id := nofun
  exact .others .nil hnone

theorem keyed_reached (cfg : Config) (provider : Provider) :
    Reached anyProvider cfg (fun _ _ _ => True) 0 (keyed provider) := ⟨[], .keyed cfg provider⟩

/-- Such users, one of them with credits. -/
def credited (amount : Int) : ChatDb := (keyed .openai).pay
  [.insertWallet 1, .insertLedger ⟨0, 1, .credit, amount, .null, .text "grant"⟩, .addBalance 1 amount]

theorem credited_reached (cfg : Config) (amount : Int) :
    Reached anyProvider cfg (fun _ _ _ => True) 0 (credited amount) := by
  have hgrant : ∀ r ∈ rows [.insertWallet 1,
      .insertLedger ⟨0, 1, .credit, amount, .null, .text "grant"⟩, .addBalance 1 amount],
      ∀ id, r.idempotencyKey ≠ .uuid id := by
    intro r hr id hkey
    obtain rfl : r = _ := by simpa [rows] using hr
    cases hkey
  exact ⟨[], .others .nil hgrant⟩

/-- Ten credits. -/
abbrev funded : ChatDb := credited 10

theorem funded_reached (cfg : Config) : Reached anyProvider cfg (fun _ _ _ => True) 0 funded :=
  credited_reached cfg 10

/-- The image is generated; the provider's answers are those of the list. -/
def drawingThen (answer : LLMAnswer) : Script :=
  ⟨[.result drawing, answer], [.ok ⟨"image/png", 3⟩], false⟩

end ChatBackend.Chat

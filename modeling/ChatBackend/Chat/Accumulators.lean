import ChatBackend.Chat.Script

/-!
# The lists of a response

`serverTools`, `images` and `quiz` of a response against the rows that the call has committed. The
rows are those of `tool_calls` and `generated_images` with identifiers from the call's counter on,
and the audits of completed calls, which a temporary chat stores too.

`accumulators` says for every answer of every request whether the response lists these rows: it does
unless the generation ends, after a committed round, in one of the three ways that answer without
the accumulators.
-/

namespace ChatBackend.Chat

open Prog Wallet Policy

/-! ## The rows of a call -/

/-- The summary of a stored tool result. -/
def summaryOf (result : Option Json) : String :=
  match (result.bind (·.get "error")).bind (·.get "code") with
  | some (.str code) => (ToolExecution.error code "").summary
  | _ => "ok"

/-- The entry of `serverTools` for a tool call. -/
def ToolCall.entry (c : ToolCall) : ServerToolExecutionOut :=
  ⟨c.id, c.toolName, c.status, summaryOf c.result⟩

/-- The quiz that a tool call has made. -/
def ToolCall.quizzes (c : ToolCall) : List Json :=
  if c.toolName = .quizGenerate then (c.result.bind (·.get "result")).toList else []

/-- The entry of `images` for an image. -/
def GeneratedImage.entry (i : GeneratedImage) : GeneratedImageOut := ⟨i.id, i.contentType, i.size⟩

/-- What the audit of an execution says of it. -/
structure AuditedTool where
  toolCallId : Int
  toolName : String
  status : String
  deriving DecidableEq

def ServerToolExecutionOut.audited (s : ServerToolExecutionOut) : AuditedTool :=
  ⟨s.toolCallId, s.toolName.str, s.status.str⟩

/-- The execution that an audit row is about, if its call has an identifier from `g` on. -/
def auditedTool (g : ℕ) (e : AuditEvent) : Option AuditedTool :=
  match e.eventType, e.payload.get "toolCallId", e.payload.get "toolName", e.payload.get "status" with
  | .toolCallCompleted, some (.num id), some (.str name), some (.str status) =>
    if (g : Int) ≤ id then some ⟨id, name, status⟩ else none
  | _, _, _, _ => none

/-- The server-side executions from `g` on, as stored. -/
def ChatDb.executed (d : ChatDb) (g : ℕ) : List ToolCall :=
  d.toolCalls.filter fun c => g ≤ c.id ∧ c.toolName.clientSide = false

/-- The images from `g` on. -/
def ChatDb.imagesFrom (d : ChatDb) (g : ℕ) : List GeneratedImage :=
  d.images.filter fun i => g ≤ i.toolCallId

/-- The executions that the audit rows of `d'` tell of, beyond those of `d`. -/
def ChatDb.auditedFrom (d d' : ChatDb) (g : ℕ) : List AuditedTool :=
  (d'.accounts.audit.drop d.accounts.audit.length).filterMap (auditedTool g)

/-- A response lists what a call that began at `g`, `d` has committed in `d'`, in order. -/
structure Lists (temporary : Bool) (g : ℕ) (d d' : ChatDb) (out : ChatRunOut) : Prop where
  images : out.images = (d'.imagesFrom g).map GeneratedImage.entry
  audited : out.serverTools.map ServerToolExecutionOut.audited = d.auditedFrom d' g
  quizAudited : out.quiz.isSome ↔
    ∃ a ∈ d.auditedFrom d' g, a.toolName = "quiz.generate" ∧ a.status = "completed"
  serverTools : temporary = false → out.serverTools = (d'.executed g).map ToolCall.entry
  quiz : temporary = false → out.quiz = ((d'.executed g).flatMap ToolCall.quizzes).getLast?

/-! ## Blocks and their rows -/

section Blocks

variable {cfg : Config} {t : Turn} {g : ℕ} {b : BlockRun}

theorem summaryOf_payload (e : ToolExecution) : summaryOf (some e.payload) = e.summary := by
  cases e <;> rfl

theorem quizzes_payload (c : ToolCall) (e : ToolExecution) (h : c.result = some e.payload) :
    c.quizzes = quizOf c.toolName e := by
  unfold ToolCall.quizzes quizOf
  rw [h]
  cases e <;> by_cases hn : c.toolName = .quizGenerate <;> simp [hn, ToolExecution.payload, Json.get]

theorem BlockRun.Done.clientSide (h : b.Done cfg t g) :
    b.use.name.clientSide = false ↔ b.execution.isSome := by
  obtain ⟨pregen, g₁, d, u, g', hg, rfl, hid, hargs, hproj, he⟩ := h
  unfold BlockRun.execution
  split at he
  · simp [he.1]
  · simp [he.1, ToolName.clientSide, ToolName.serverSide, ToolName.globalServerSide]
  · simp [he.1]

theorem BlockRun.Done.id_le (h : b.Done cfg t g) : g ≤ b.id := by
  obtain ⟨pregen, g₁, d, u, g', hg, huse, hid, -⟩ := h
  exact hid ▸ hg

/-- The stored call of a block is its entry. -/
theorem BlockRun.Done.entry (h : b.Done cfg t g) :
    (([b.row t].filter fun c => g ≤ c.id ∧ c.toolName.clientSide = false).map ToolCall.entry) =
      b.serverTools := by
  have hside := h.clientSide
  have hid := h.id_le
  unfold BlockRun.serverTools
  cases hex : b.execution with
  | none =>
    have : b.use.name.clientSide = true := by simpa [hex] using hside
    simp [BlockRun.row, this]
  | some e =>
    have : b.use.name.clientSide = false := by simpa [hex] using hside
    simp [BlockRun.row, this, hid, hex, ToolCall.entry, serverTool, summaryOf_payload]

end Blocks

/-! ## What is visible of some executed blocks -/

section Gains

variable {cfg : Config} {t : Turn} {g : ℕ} {d d₁ d₂ : ChatDb} {b : BlockRun}
variable {bs bs' : List BlockRun}

theorem auditedTool_of_ne (e : AuditEvent) (h : e.eventType ≠ .toolCallCompleted) :
    auditedTool g e = none := by
  unfold auditedTool
  split
  · rename_i heq _ _ _
    exact absurd heq h
  · rfl

/-- From `d` to `d'` the rows of the blocks have been added, and of those with an identifier from
`g` on no others. -/
structure Gains (t : Turn) (g : ℕ) (d d' : ChatDb) (bs : List BlockRun) : Prop where
  images : d'.imagesFrom g = d.imagesFrom g ++ bs.flatMap (·.image t)
  executed : t.temporary = false → (d'.executed g).map ToolCall.entry =
    (d.executed g).map ToolCall.entry ++ bs.flatMap (·.serverTools)
  quizzes : t.temporary = false → (d'.executed g).flatMap ToolCall.quizzes =
    (d.executed g).flatMap ToolCall.quizzes ++ bs.flatMap (·.quizzes)
  audit : ∃ new, d'.accounts.audit = d.accounts.audit ++ new ∧ new.filterMap (auditedTool g) =
    (bs.flatMap (·.serverTools)).map ServerToolExecutionOut.audited

theorem Gains.trans (h : Gains t g d d₁ bs) (h' : Gains t g d₁ d₂ bs') :
    Gains t g d d₂ (bs ++ bs') := by
  refine ⟨?_, fun ht => ?_, fun ht => ?_, ?_⟩
  · rw [h'.images, h.images, List.append_assoc, List.flatMap_append]
  · rw [h'.executed ht, h.executed ht, List.append_assoc, List.flatMap_append]
  · rw [h'.quizzes ht, h.quizzes ht, List.append_assoc, List.flatMap_append]
  · obtain ⟨new, hnew, hfilter⟩ := h.audit
    obtain ⟨new', hnew', hfilter'⟩ := h'.audit
    refine ⟨new ++ new', by rw [hnew', hnew, List.append_assoc], ?_⟩
    rw [List.filterMap_append, hfilter, hfilter', List.flatMap_append, List.map_append]

/-- A change that adds none of these rows. -/
theorem Gains.none (himages : d₁.imagesFrom g = d.imagesFrom g)
    (hexecuted : d₁.executed g = d.executed g) {new : List AuditEvent}
    (haudit : d₁.accounts.audit = d.accounts.audit ++ new)
    (hnew : new.filterMap (auditedTool g) = []) : Gains t g d d₁ [] :=
  ⟨by simp [himages], by simp [hexecuted], by simp [hexecuted], new, haudit, hnew⟩

theorem Gains.refl (t : Turn) (g : ℕ) (d : ChatDb) : Gains t g d d [] :=
  .none rfl rfl (List.append_nil _).symm rfl

/-- Writes of the wallet without the audit of an execution. -/
theorem Gains.pay {ops : List WalletOp}
    (h : ∀ e ∈ audits ops, e.eventType ≠ .toolCallCompleted) : Gains t g d (d.pay ops) [] := by
  refine .none rfl rfl (audit_applyAll ops d.accounts) ?_
  rw [List.filterMap_eq_nil_iff]
  exact fun e he => auditedTool_of_ne e (h e he)

/-- A step. -/
theorem Gains.step (sessionId messageStepId seq : ℕ) (payload : Payload) (usage : Option Usage) :
    Gains t g d (d.extend (stepDelta t.temporary sessionId messageStepId seq payload usage)) [] := by
  refine .none ?_ ?_ (List.append_nil _).symm rfl <;>
    simp [ChatDb.imagesFrom, ChatDb.executed, ChatDb.extend, stepDelta]

/-- The audit of a tool call is inserted as it is: it has no secret. -/
theorem redacted_toolCall (u : ℕ) (s : Option ℕ) (ty : EventType) (id : Int) (name status : String)
    (rest : List (String × Json)) (hrest : ∀ kv ∈ rest, Json.plainKey kv.1 = true ∧ kv.2.IsScalar) :
    AuditEvent.redacted ⟨u, s, ty, .obj ([("toolCallId", .num id), ("toolName", .str name),
        ("status", .str status)] ++ rest)⟩ =
      ⟨u, s, ty, .obj ([("toolCallId", .num id), ("toolName", .str name), ("status", .str status)] ++
        rest)⟩ := by
  have hplain : ∀ k ∈ ["toolCallId", "toolName", "status"], Json.plainKey k = true := by decide +kernel
  refine AuditEvent.redacted_eq fun kv hkv => ?_
  rcases List.mem_append.1 hkv with hkv | hkv
  · simp only [List.mem_cons, List.not_mem_nil, or_false] at hkv
    rcases hkv with rfl | rfl | rfl
    · exact ⟨hplain _ (by simp), .num _⟩
    · exact ⟨hplain _ (by simp), .str _⟩
    · exact ⟨hplain _ (by simp), .str _⟩
  · exact hrest kv hkv

theorem plainKey_imageId : Json.plainKey "imageId" = true := by decide +kernel

/-- The audit of an executed block. -/
theorem auditedTool_completed (hid : g ≤ b.id) :
    (audits (b.completedAudit t)).filterMap (auditedTool g) =
      b.serverTools.map ServerToolExecutionOut.audited := by
  have hid : (g : Int) ≤ b.id := by omega
  have hserver := fun status => redacted_toolCall t.userId (fkSessionId t.temporary t.sessionId)
    .toolCallCompleted b.id b.use.name.str status [] nofun
  have himage := fun status (imageId : ℕ) => redacted_toolCall t.userId
    (fkSessionId t.temporary t.sessionId) .toolCallCompleted b.id b.use.name.str status
    [("imageId", .num imageId)] fun kv hkv => by
      obtain rfl := List.mem_singleton.1 hkv
      exact ⟨plainKey_imageId, .num _⟩
  simp only [List.append_nil] at hserver
  simp only [List.cons_append, List.nil_append] at himage
  unfold BlockRun.completedAudit BlockRun.serverTools BlockRun.execution
  cases b.exec <;> simp [audits, Turn.auditOp, auditedTool, Json.get, hid, serverTool,
    ServerToolExecutionOut.audited, hserver, himage]

/-- A block that has been executed to its end. -/
theorem BlockRun.Done.gains (h : b.Done cfg t g) (d : ChatDb) :
    Gains t g d (d.extend (b.delta t)) [b] := by
  have hid := h.id_le
  have hentry := h.entry
  have hside := h.clientSide
  have hexecuted : t.temporary = false → (d.extend (b.delta t)).executed g = d.executed g ++
      [b.row t].filter fun c => g ≤ c.id ∧ c.toolName.clientSide = false := by
    intro ht
    show (d.toolCalls ++ (b.delta t).toolCalls).filter _ = _
    rw [List.filter_append]
    simp [BlockRun.delta, ht, ChatDb.executed]
  refine ⟨?_, fun ht => ?_, fun ht => ?_, ?_⟩
  · show (d.images ++ b.image t).filter _ = _
    rw [List.filter_append]
    congr 1
    rw [List.flatMap_singleton, List.filter_eq_self]
    intro i hi
    unfold BlockRun.image at hi
    split at hi
    · obtain rfl := List.mem_singleton.1 hi
      simpa using hid
    · cases hi
  · rw [hexecuted ht, List.map_append, hentry, List.flatMap_singleton]
  · rw [hexecuted ht, List.flatMap_append, List.flatMap_singleton]
    congr 1
    unfold BlockRun.quizzes
    cases hex : b.execution with
    | none =>
      have : b.use.name.clientSide = true := by simpa [hex] using hside
      simp [BlockRun.row, this]
    | some e =>
      have hserver : b.use.name.clientSide = false := by simpa [hex] using hside
      have hresult : (b.row t).result = some e.payload := by simp [BlockRun.row, hex]
      have hname : (b.row t).toolName = b.use.name := rfl
      have hrow : (b.row t).id = b.id := rfl
      simp [hname, hrow, hserver, hid, quizzes_payload _ e hresult]
  · refine ⟨_, audit_applyAll _ d.accounts, ?_⟩
    have hwallet : (b.delta t).wallet = [t.auditOp .toolCallInitiated
      [("toolCallId", .num b.id), ("toolName", .str b.use.name.str)]] ++ b.charge ++
        b.completedAudit t := rfl
    have hcharge : (audits b.charge).filterMap (auditedTool g) = [] := by
      obtain ⟨pregen, g₁, d₁, u, g', hg, huse, hid', hargs, hproj, he⟩ := h
      rw [List.filterMap_eq_nil_iff]
      intro e hmem
      refine auditedTool_of_ne e ?_
      unfold BlockRun.charge at hmem
      split at he <;> rename_i heq <;> rw [heq] at hmem
      · cases hmem
      · obtain ⟨-, -, -, -, -, -, -, rfl⟩ := he
        simp only [chargeOps, audits_append, audits_provision, List.nil_append] at hmem
        simp only [audits, List.mem_singleton] at hmem
        rw [hmem]
        exact fun h => by cases h
      · cases hmem
    rw [hwallet, audits_append, audits_append, List.filterMap_append, List.filterMap_append,
      hcharge, auditedTool_completed hid, List.flatMap_singleton]
    rfl

/-- Blocks that have been executed one after the other. -/
theorem gains_deltas (h : ∀ b ∈ bs, b.Done cfg t g) (d : ChatDb) :
    Gains t g d (d.extend (deltas t bs)) bs := by
  induction bs generalizing d with
  | nil =>
    rw [deltas_nil, ChatDb.extend_empty]
    exact .refl t g d
  | cons b bs ih =>
    rw [deltas_cons, ← ChatDb.extend_extend]
    have hb := (h b (List.mem_cons_self ..)).gains d
    exact hb.trans (ih (fun b' hb' => h b' (List.mem_cons_of_mem _ hb')) _)

end Gains

/-! ## What is visible of a request -/

section Request

variable {llm : LLMAnswer → Prop} {cfg : Config} {t : Turn} {g g₁ g' : ℕ} {d d₁ d' : ChatDb}
variable {request : ChatRequest} {rs : List Round}

theorem Round.Ok.gains {r : Round} (h : r.Ok cfg t g₁ d₁ g' d') (hg : g ≤ g₁) :
    Gains t g d₁ d' r.blocks := by
  rw [h.eq, Round.delta, ← ChatDb.extend_extend]
  exact (Gains.step _ _ _ _ _).trans (gains_deltas (fun b hb => (h.done b hb).mono hg) _)

theorem Generated.gains {provider : Provider} {att : Option PreparedAttachments} {m₁ m' : ChatMem}
    (h : Generated llm cfg t provider att g₁ d₁ m₁ rs g' d' m') (hg : g ≤ g₁) :
    Gains t g d₁ d' (roundBlocks rs) := by
  induction h with
  | start => exact .refl t g d₁
  | @round rs g₂ g' d₂ d' m m' r h hr hc hl hm ih =>
    have hblocks : roundBlocks (rs ++ [r]) = roundBlocks rs ++ r.blocks := by simp [roundBlocks]
    rw [hblocks]
    exact ih.trans (hr.gains (hg.trans h.le))

theorem Opened.accounts {req : RunRequest} {o : Opening} {m : ChatMem}
    (h : Opened cfg req g d o g' d' m) : d'.accounts = d.accounts := by
  cases h <;> rfl

/-- The result that a client delivers is of a call from before. -/
theorem audit_deliver {u : ℕ} {c : ToolCall} (hid : c.id < g) (o : ToolOutcome) (g₁ : ℕ)
    (d₁ : ChatDb) : ∃ new, (d₁.deliver u g₁ c o).accounts.audit = d₁.accounts.audit ++ new ∧
      new.filterMap (auditedTool g) = [] := by
  have hid : ¬(g : Int) ≤ c.id := by omega
  have hplain := fun ty status => redacted_toolCall u (some c.sessionId) ty c.id c.toolName.str status
    [] nofun
  simp only [List.append_nil] at hplain
  refine ⟨_, audit_applyAll _ d₁.accounts, ?_⟩
  split <;> simp [audits, auditedTool, Json.get, hid, hplain]

theorem audit_deliverAll {u : ℕ} (resolved : List (ToolResultIn × ToolCall))
    (h : ∀ p ∈ resolved, p.2.id < g) (g₁ : ℕ) (d₁ : ChatDb) :
    ∃ new, (deliverAll u resolved g₁ d₁).2.accounts.audit = d₁.accounts.audit ++ new ∧
      new.filterMap (auditedTool g) = [] := by
  induction resolved generalizing g₁ d₁ with
  | nil => exact ⟨[], (List.append_nil _).symm, rfl⟩
  | cons p resolved ih =>
    have htail := fun q hq => h q (List.mem_cons_of_mem _ hq)
    unfold deliverAll
    split
    · obtain ⟨new, hnew, hnone⟩ := audit_deliver (u := u) (h p (List.mem_cons_self ..))
        p.1.outcome g₁ d₁
      obtain ⟨new', hnew', hnone'⟩ := ih htail (g₁ + 1) (d₁.deliver u g₁ p.2 p.1.outcome)
      refine ⟨new ++ new', by rw [hnew', hnew, List.append_assoc], ?_⟩
      rw [List.filterMap_append, hnone, hnone', List.append_nil]
    · exact ih htail g₁ d₁

theorem executed_eq_nil (h : ∀ c ∈ d.toolCalls, c.id < g) : d.executed g = [] := by
  refine List.filter_eq_nil_iff.2 fun c hc => ?_
  have := h c hc
  simp
  omega

/-- Until the generation nothing is executed. -/
theorem Ready.gains {u messageStepId : ℕ} {session : ChatSession} {temporary : Bool}
    {att : Option PreparedAttachments} {m : ChatMem}
    (h : Ready cfg g d request u session messageStepId temporary att g' d' m) (hf : d.Fresh g) :
    Gains t g d d' [] := by
  have hkeeps := h.keeps hf
  have hexecuted : d'.executed g = d.executed g := by
    rw [executed_eq_nil hkeeps.toolCalls, executed_eq_nil fun c hc => (hf.toolCalls c hc).1]
  have himages : d'.imagesFrom g = d.imagesFrom g := by
    rw [ChatDb.imagesFrom, hkeeps.images, ChatDb.imagesFrom]
  have haudit : ∃ new, d'.accounts.audit = d.accounts.audit ++ new ∧
      new.filterMap (auditedTool g) = [] := by
    cases h with
    | run h => exact ⟨[], by rw [h.accounts, List.append_nil], rfl⟩
    | toolResult h =>
      exact audit_deliverAll _ (fun p hp => (hf.toolCalls _ (h.calls p hp).1).1) _ _
  obtain ⟨new, hnew, hnone⟩ := haudit
  exact .none himages hexecuted hnew hnone

theorem Starts.gains {att : Option PreparedAttachments} {m : ChatMem}
    (h : Starts cfg g d request t att g' d' m) (hf : d.Fresh g) : Gains t g d d' [] := by
  cases h with
  | intro h =>
    refine (h.gains hf).trans (Gains.pay fun e he => ?_)
    obtain rfl := List.mem_singleton.1 he
    exact nofun

theorem Passes.gains {provider : Provider} {att : Option PreparedAttachments} {m : ChatMem}
    (h : Passes llm cfg g d request t provider att rs g' d' m) (hf : d.Fresh g) :
    Gains t g d d' (roundBlocks rs) := by
  cases h with
  | intro h hp hg =>
    obtain ⟨-, hle, -⟩ := h.fresh hf
    exact (h.gains hf).trans (hg.gains hle)

theorem Turn.ended_gains (g₁ : ℕ) (result : LLMResult) (reason : List (String × Json)) :
    Gains t g d₁ (t.ended g₁ result reason d₁) [] := by
  refine (Gains.step _ _ _ _ _).trans (Gains.pay fun e he => ?_)
  obtain rfl := List.mem_singleton.1 he
  exact nofun

theorem Bills.gains {usage : Usage} (h : Bills t usage g₁ d₁ g' d') : Gains t g d₁ d' [] := by
  cases h with
  | charged =>
    refine .pay fun e he => ?_
    simp only [chargeOps, audits_append, audits_provision, List.nil_append, audits,
      List.mem_singleton] at he
    rw [he]
    exact fun h => by cases h
  | replayed => exact .pay (by simp)
  | trial | free => exact .none rfl rfl (List.append_nil _).symm rfl

end Request

/-! ## The lists of a response -/

section Lists

variable {llm : LLMAnswer → Prop} {cfg : Config} {t : Turn} {g g₁ g' : ℕ} {d d₁ d' : ChatDb}
variable {request : ChatRequest} {rs : List Round} {b : BlockRun} {bs : List BlockRun}
variable {pregen : Pregen} {u : ToolUse} {us : List ToolUse}

/-- The balance does not pay for the images that have been generated for a response. -/
def short (cfg : Config) (pregen : Pregen) : List ToolUse → Int → Bool
  | [], _ => false
  | u :: us, balance =>
    match u.name, pregen.get u with
    | .imageGenerate, some (.ok _) =>
      balance < cfg.imageCreditsCost || short cfg pregen us (balance - cfg.imageCreditsCost)
    | _, _ => short cfg pregen us balance

/-- The provider's answer ends the turn with a refused key, with a message that the balance does not
pay for, or with an image that it does not pay for. -/
def Turn.EndsBlocked (cfg : Config) (t : Turn) (d : ChatDb) : LLMAnswer → Pregen → Prop
  | .authError, _ => True
  | .error _, _ => False
  | .result result, pregen =>
    (result.Final ∧ t.billing.debitCredits = true ∧ d.accounts.balance t.userId < 1 ∧
      ∀ r ∈ d.accounts.ledger, r.key ≠ (t.userId, .uuid t.messageStepId)) ∨
    (result.stopReason = .toolUse ∧
      short cfg pregen result.toolUses (d.accounts.balance t.userId) = true)

theorem BlockRun.Ok.short (h : b.Ok cfg t pregen g d u g') (us : List ToolUse) :
    short cfg pregen (u :: us) (d.accounts.balance t.userId) =
      short cfg pregen us ((d.extend (b.delta t)).accounts.balance t.userId) := by
  have hbalance : (d.extend (b.delta t)).accounts.balance t.userId =
      d.accounts.balance t.userId + Wallet.delta t.userId b.charge := by
    show (applyAll (b.delta t).wallet d.accounts).balance t.userId = _
    rw [balance_applyAll]
    congr 1
    cases hb : b.exec <;> simp [BlockRun.delta, BlockRun.completedAudit, delta_append, Wallet.delta, hb,
      Turn.auditOp]
  have he := h.exec
  rw [hbalance]
  split at he <;> rename_i hexec
  · obtain ⟨hside, -, -, -, himage⟩ := he
    rw [Chat.short]
    split
    · rename_i hn hget
      obtain ⟨e, hget', -⟩ := himage hn
      rw [hget] at hget'
      cases hget'
    · simp [BlockRun.charge, hexec, Wallet.delta]
  · obtain ⟨hn, hget, -, -, -, -, hle, rfl⟩ := he
    have hle : ¬d.accounts.balance t.userId < cfg.imageCreditsCost := by omega
    rw [Chat.short, hn, hget]
    simp [BlockRun.charge, hexec, hle, Int.sub_eq_add_neg]
  · obtain ⟨hside, -⟩ := he
    rw [Chat.short]
    split
    · rename_i hn hget
      rw [hn] at hside
      cases hside
    · simp [BlockRun.charge, hexec, Wallet.delta]

theorem Blocks.short (h : Blocks cfg t pregen g d us bs g' d') :
    short cfg pregen us (d.accounts.balance t.userId) = false := by
  induction h with
  | nil => rfl
  | cons h hs ih => rw [h.short, ih]

theorem Poor.short (h : Poor cfg t pregen g d us) :
    short cfg pregen us (d.accounts.balance t.userId) = true := by
  induction h with
  | here hn hg hc hb => simp [Chat.short, hn, hg, hb]
  | later h hs ih => rw [h.short, ih]

theorem BlockRun.imageOuts_eq (t : Turn) (b : BlockRun) :
    b.imageOuts = (b.image t).map GeneratedImage.entry := by
  unfold BlockRun.imageOuts BlockRun.image
  split <;> rfl

/-- The audit of a quiz that was made. -/
theorem BlockRun.Done.quizzes (h : b.Done cfg t g) : b.quizzes ≠ [] ↔
    ∃ s ∈ b.serverTools, s.audited.toolName = "quiz.generate" ∧ s.audited.status = "completed" := by
  have hside := h.clientSide
  unfold BlockRun.quizzes BlockRun.serverTools
  cases hex : b.execution with
  | none => simp
  | some e =>
    have hserver : b.use.name.clientSide = false := by simpa [hex] using hside
    have hname : b.use.name.str = "quiz.generate" ↔ b.use.name = .quizGenerate := by
      cases hn : b.use.name with
      | other name =>
        rw [hn] at hserver
        cases hserver
      | _ => simp [ToolName.str]
    cases e <;> simp [quizOf, serverTool, ServerToolExecutionOut.audited, hname,
      ToolExecution.status, ToolStatus.str]

/-- The accumulators list what the blocks have added. -/
theorem Gains.lists {out : ChatRunOut} (hf : d.Fresh g) (h : Gains t g d d' bs)
    (hdone : ∀ b ∈ bs, b.Done cfg t g) (hserver : out.serverTools = bs.flatMap (·.serverTools))
    (hquiz : out.quiz = (bs.flatMap (·.quizzes)).getLast?)
    (himages : out.images = bs.flatMap (·.imageOuts)) : Lists t.temporary g d d' out := by
  have hnone : d.executed g = [] := executed_eq_nil fun c hc => (hf.toolCalls c hc).1
  have hnoImage : d.imagesFrom g = [] := by
    refine List.filter_eq_nil_iff.2 fun i hi => ?_
    have := hf.images i hi
    simp
    omega
  have haudited : d.auditedFrom d' g =
      (bs.flatMap (·.serverTools)).map ServerToolExecutionOut.audited := by
    obtain ⟨new, hnew, hfilter⟩ := h.audit
    rw [ChatDb.auditedFrom, hnew, List.drop_left, hfilter]
  refine ⟨?_, ?_, ?_, fun ht => ?_, fun ht => ?_⟩
  · rw [himages, h.images, hnoImage, List.nil_append, List.map_flatMap]
    congr 1
    funext b
    exact b.imageOuts_eq t
  · rw [hserver, haudited]
  · rw [hquiz, haudited, List.getLast?_isSome, ← not_iff_not, not_ne_iff, List.flatMap_eq_nil_iff]
    simp only [List.mem_map, List.mem_flatMap, not_exists, not_and]
    constructor
    · rintro hnil _ ⟨s, ⟨b, hb, hs⟩, rfl⟩ hname hstatus
      exact (hdone b hb).quizzes.2 ⟨s, hs, hname, hstatus⟩ (hnil b hb)
    · intro hall b hb
      by_contra hne
      obtain ⟨s, hs, hname, hstatus⟩ := (hdone b hb).quizzes.1 hne
      exact hall _ ⟨s, ⟨b, hb, hs⟩, rfl⟩ hname hstatus
  · rw [hserver, h.executed ht, hnone]
    rfl
  · rw [hquiz, h.quizzes ht, hnone]
    rfl

/-- A response without the accumulators lists what has been executed when that is nothing. -/
theorem Gains.lists_blocked {sessionId : ℕ} {reason : BlockReason} (hf : d.Fresh g)
    (h : Gains t g d d' bs) (hdone : ∀ b ∈ bs, b.Done cfg t g)
    (hserver : ∀ b ∈ bs, b.serverTools ≠ []) :
    Lists t.temporary g d d' (blocked sessionId (some reason)) ↔ bs = [] := by
  constructor
  · intro hlists
    obtain ⟨new, hnew, hfilter⟩ := h.audit
    have hnil := hlists.audited
    rw [ChatDb.auditedFrom, hnew, List.drop_left, hfilter] at hnil
    have hnil : bs.flatMap (·.serverTools) = [] := List.map_eq_nil_iff.1 hnil.symm
    rw [List.flatMap_eq_nil_iff] at hnil
    cases bs with
    | nil => rfl
    | cons b bs => exact absurd (hnil b (List.mem_cons_self ..)) (hserver b (List.mem_cons_self ..))
  · rintro rfl
    exact h.lists hf hdone rfl rfl rfl

/-- The blocks of a round that goes on are executed by the backend, and there is one. -/
theorem Generated.rounds {provider : Provider} {att : Option PreparedAttachments} {m₁ m' : ChatMem}
    (h : Generated llm cfg t provider att g₁ d₁ m₁ rs g' d' m') :
    (∀ b ∈ roundBlocks rs, b.serverTools ≠ []) ∧ (roundBlocks rs = [] ↔ rs = []) := by
  induction h with
  | start => exact ⟨nofun, by simp [roundBlocks]⟩
  | @round rs g₂ g' d₂ d' m m' r h hr hc hl hm ih =>
    have hne : r.blocks ≠ [] := by
      intro hnil
      have hblocks := hr.blocks
      have huses := hr.uses
      rw [hnil] at hblocks
      cases hu : r.result.toolUses with
      | nil => exact huses hu
      | cons u us =>
        rw [hu] at hblocks
        cases hblocks
    have hserver : ∀ b ∈ r.blocks, b.serverTools ≠ [] := by
      intro b hb
      have hclient : b.clientOuts = [] := List.flatMap_eq_nil_iff.1 hc b hb
      unfold BlockRun.clientOuts at hclient
      unfold BlockRun.serverTools BlockRun.execution
      cases hexec : b.exec with
      | client =>
        rw [hexec] at hclient
        cases hclient
      | server | image => simp
    refine ⟨fun b hb => ?_, ?_⟩
    · have hb : b ∈ roundBlocks rs ∨ b ∈ r.blocks := by simpa [roundBlocks] using hb
      rcases hb with hb | hb
      · exact ih.1 b hb
      · exact hserver b hb
    · simp [roundBlocks, hne]

theorem Bills.affordable {usage : Usage} {ops : List WalletOp} (hrows : rows ops = [])
    (hdelta : Wallet.delta t.userId ops = 0) (h : Bills t usage g (d.pay ops) g' d')
    (hdebit : t.billing.debitCredits = true) (hlow : d.accounts.balance t.userId < 1) :
    ∃ r ∈ d.accounts.ledger, r.key = (t.userId, .uuid t.messageStepId) := by
  cases h with
  | charged hd hk hb =>
    simp only [ChatDb.pay, balance_applyAll, hdelta] at hb
    omega
  | @replayed r hd hr hk =>
    simp only [ChatDb.pay, ledger_applyAll, hrows, List.append_nil] at hr
    exact ⟨r, hr, hk⟩
  | trial hd | free hd =>
    rw [hdebit] at hd
    cases hd

/-- **The lists of a response**: what the generation of a request answers lists the rows that the
call has committed, unless a round has been committed and the call then ends blocked. -/
theorem accumulators {ok : ℕ → ChatDb → ChatRequest → Prop} {provider : Provider}
    {att : Option PreparedAttachments} {m : ChatMem} {answer : LLMAnswer} {out : ChatRunOut}
    (hreached : Reached llm cfg ok g d) (h : Passes llm cfg g d request t provider att rs g₁ d₁ m)
    (he : Ends cfg t (accOf rs) g₁ d₁ answer pregen out g' d') :
    Lists t.temporary g d d' out ↔ rs = [] ∨ ¬t.EndsBlocked cfg d₁ answer pregen := by
  have hf := hreached.fresh
  have hgains := h.gains hf
  obtain ⟨hle, hdone, hserver, hnil⟩ : g ≤ g₁ ∧ (∀ b ∈ roundBlocks rs, b.Done cfg t g) ∧
      (∀ b ∈ roundBlocks rs, b.serverTools ≠ []) ∧ (roundBlocks rs = [] ↔ rs = []) := by
    have hfresh := h.fresh hf
    cases h with
    | intro hs hp hg =>
      obtain ⟨-, hle, -⟩ := hs.fresh hf
      exact ⟨hfresh.2.1, fun b hb => (hg.done b hb).mono hle, hg.rounds⟩
  have hacc : ∀ {status message calls reason usage stepId},
      Gains t g d d' (roundBlocks rs) →
      Lists t.temporary g d d' (t.out status message calls reason usage stepId (accOf rs)) :=
    fun hg => hg.lists hf hdone (by simp [Turn.out, accOf, Acc.add])
      (by simp [Turn.out, accOf, Acc.add]) (by simp [Turn.out, accOf, Acc.add])
  have hblocked : ∀ {sessionId reason}, Gains t g d d' (roundBlocks rs) →
      t.EndsBlocked cfg d₁ answer pregen →
      (Lists t.temporary g d d' (blocked sessionId (some reason)) ↔
        rs = [] ∨ ¬t.EndsBlocked cfg d₁ answer pregen) := by
    intro sessionId reason hg hends
    rw [hg.lists_blocked hf hdone hserver, hnil]
    simp [hends]
  have happend : ∀ {bs}, Gains t g d₁ d' bs → Gains t g d d' (roundBlocks rs ++ bs) :=
    fun hg => hgains.trans hg
  have hsame : Gains t g d₁ d' [] → Gains t g d d' (roundBlocks rs) := fun hg => by
    simpa using happend hg
  cases he with
  | @final result _ _ hfinal hb =>
    refine iff_of_true (hacc (hsame ((Turn.ended_gains _ _ _).trans hb.gains))) (.inr ?_)
    rintro (⟨-, hdebit, hlow, hnew⟩ | ⟨htool, hshort⟩)
    · obtain ⟨r, hr, hk⟩ := Bills.affordable rfl rfl hb hdebit hlow
      exact hnew r (by simpa [ChatDb.extend, stepDelta] using hr) hk
    · rcases hfinal with hend | ⟨-, hempty⟩
      · rw [hend] at htool
        cases htool
      · rw [hempty] at hshort
        cases hshort
  | unpaid hfinal hdebit hnew hlow =>
    exact hblocked (hsame (.refl ..)) (.inl ⟨hfinal, hdebit, hlow, hnew⟩)
  | maxTokens hreason =>
    refine iff_of_true (hacc (hsame (Turn.ended_gains ..))) (.inr ?_)
    rintro (⟨hend | ⟨htool, -⟩, -⟩ | ⟨htool, -⟩)
    · rw [hreason] at hend
      cases hend
    · rw [hreason] at htool
      cases htool
    · rw [hreason] at htool
      cases htool
  | @client r _ _ hr hc =>
    have hdone' : ∀ b ∈ roundBlocks rs ++ r.blocks, b.Done cfg t g := by
      intro b hb
      rcases List.mem_append.1 hb with hb | hb
      · exact hdone b hb
      · exact (hr.done b hb).mono hle
    have hfalse : short cfg r.pregen r.result.toolUses (d₁.accounts.balance t.userId) = false :=
      hr.blocks.short
    refine iff_of_true ?_ (.inr ?_)
    · refine (happend (hr.gains hle)).lists hf hdone' ?_ ?_ ?_ <;>
        simp [Turn.out, accOf, Acc.add]
    · rintro (⟨hend | ⟨-, hempty⟩, -⟩ | ⟨-, hshort⟩)
      · rw [hr.reason] at hend
        cases hend
      · exact hr.uses hempty
      · rw [hfalse] at hshort
        cases hshort
  | poor hreason hp =>
    exact hblocked (hsame (.refl ..)) (.inr ⟨hreason, hp.short⟩)
  | expired hmode =>
    refine hblocked (hsame ?_) trivial
    split
    · have hmark : Gains t g d₁ (d₁.expireKey t.userId) [] :=
        .none rfl rfl (List.append_nil _).symm rfl
      refine hmark.trans (.pay fun e he => ?_)
      obtain rfl := List.mem_singleton.1 he
      exact fun h => by cases h
    · exact .refl ..

end Lists

/-- A run that generates nothing is blocked. -/
theorem Settles.status_run {cfg : Config} {g g' : ℕ} {d d' : ChatDb} {req : RunRequest}
    {out : ChatRunOut} (h : Settles cfg g d (.run req) out g' d') : out.status = .blocked := by
  cases h with
  | denied => rfl
  | noProvider => rfl
  | awaiting hr => cases hr
  | replayed hr => cases hr

/-- A run that draws an image and then answers. -/
theorem accumulators_run : ∃ t provider att rs g₁ d₁ m answer pregen out g' d',
    (Passes anyProvider openaiInstance 0 funded (.run (byokMessage "smart")) t provider att rs g₁ d₁ m ∧
      Ends openaiInstance t (accOf rs) g₁ d₁ answer pregen out g' d') ∧
    out.status = .assistantMessage ∧ out.images.length = 1 ∧
    (Lists t.temporary 0 funded d' out ↔ rs = [] ∨ ¬t.EndsBlocked openaiInstance d₁ answer pregen) := by
  have hrun : (match (serveOne openaiInstance (drawingThen (.result answered))
      (.run (byokMessage "smart")) 0 funded).1 with
    | .ok out => out.status = .assistantMessage ∧ out.images.length = 1
    | .error _ => false) = true := by
    decide +kernel
  have hserve := serveOne_runs openaiInstance (drawingThen (.result answered))
    (.run (byokMessage "smart")) 0 funded
  have hreached := funded_reached openaiInstance
  split at hrun
  · rename_i out hout
    obtain ⟨hstatus, himages⟩ : out.status = .assistantMessage ∧ out.images.length = 1 := by
      simpa using hrun
    rw [hout] at hserve
    cases (answers_of_runs hreached.fresh hserve).2 with
    | settled h =>
      rw [h.status_run] at hstatus
      cases hstatus
    | ended h hl he hs =>
      exact ⟨_, _, _, _, _, _, _, _, _, _, _, _, ⟨h, he⟩, hstatus, himages,
        accumulators hreached h he⟩
  · cases hrun

/-- The key is refused after an image has been paid for and committed: the response does not list
it. -/
theorem accumulators_fails : ∃ out w,
    Runs (chatStore anyProvider).step ((ChatRequest.run (byokMessage "smart")).prog openaiInstance)
      (idle 0 funded) (.ok out) w ∧
    out.blockReason = some .byokInvalid ∧ out.images = [] ∧ (w.db.imagesFrom 0).length = 1 ∧
    w.db.accounts.balance 1 = 5 ∧ ¬Lists false 0 funded w.db out := by
  have hrun : answersWith (fun out w => out.blockReason = some .byokInvalid ∧ out.images = [] ∧
      (w.db.imagesFrom 0).length = 1 ∧ w.db.accounts.balance 1 = 5)
      (serveOne openaiInstance (drawingThen .authError) (.run (byokMessage "smart")) 0 funded) =
        true := by
    decide +kernel
  obtain ⟨out, w, hserve, hfacts⟩ := exists_of_answersWith hrun
  obtain ⟨hreason, himages, hrow, hbalance⟩ : out.blockReason = some .byokInvalid ∧
      out.images = [] ∧ (w.db.imagesFrom 0).length = 1 ∧ w.db.accounts.balance 1 = 5 := by
    simpa using hfacts
  refine ⟨out, w, hserve, hreason, himages, hrow, hbalance, fun hlists => ?_⟩
  have hlength := congrArg List.length hlists.images
  rw [himages, List.length_map, hrow] at hlength
  cases hlength

end ChatBackend.Chat

import ChatBackend.Chat.Clients
import ChatBackend.Chat.Script
import ChatBackend.Chat.TextBilling

/-!
# Tool results that are sent again

A batch of results that were delivered before is answered from the step that was stored after them.
The answer is rebuilt from that step, so that it need not be the one that was sent.

* `KeepsTurn`: whatever is served later, a finished turn keeps its calls and its steps, or loses the
  calls.
* `tool_result_replay`: after a message that ended the turn in one call, and whose text is that of
  its text blocks, the answer is sent again.
-/

namespace ChatBackend.Chat

open Prog Wallet Policy

/-! ## What is served leaves a finished turn -/

section Kept

variable {llm : LLMAnswer → Prop} {cfg : Config} {t : Turn} {g g' : ℕ} {d d' : ChatDb}
variable {request : ChatRequest} {turn : ℕ}

theorem Opened.keepsTurn {req : RunRequest} {o : Opening} {m : ChatMem}
    (h : Opened cfg req g d o g' d' m) (hturn : turn < g) : d.KeepsTurn turn d' := by
  have hstep : ∀ {d₁ : ChatDb} {sid seq payload}, d.KeepsTurn turn d₁ →
      d.KeepsTurn turn (d₁.extend (stepDelta false sid g seq payload none)) :=
    fun h₁ => h₁.trans (.extend (stepDelta_of ..) hturn.ne')
  cases h with
  | temporary => exact .of_eq rfl rfl
  | created => exact hstep (.of_eq rfl rfl)
  | resumed => exact hstep (.of_eq rfl rfl)
  | edited => exact hstep (.truncate _ _)

/-- A finished turn is not generated again. -/
theorem Ready.keepsTurn {userId messageStepId : ℕ} {session : ChatSession} {temporary : Bool}
    {att : Option PreparedAttachments} {m : ChatMem}
    (h : Ready cfg g d request userId session messageStepId temporary att g' d' m)
    (hf : d.Fresh g) (hturn : turn < g) (hfinished : d.Finished turn) :
    messageStepId ≠ turn ∧ d.KeepsTurn turn d' := by
  cases h with
  | run h => exact ⟨hturn.ne', h.keepsTurn hturn⟩
  | @toolResult _ _ _ _ _ resolved first workspace m h hb hn =>
    refine ⟨?_, .deliverAll hfinished h.of_turn⟩
    rintro rfl
    obtain ⟨hmem, -, hs, hm⟩ := h.calls first (List.mem_cons_self ..)
    rw [deliverAll_of_done (h.done hfinished)] at hn
    exact hfinished.nextStepAfter hf hmem hs hm hn

theorem Starts.keepsTurn {att : Option PreparedAttachments} {m : ChatMem}
    (h : Starts cfg g d request t att g' d' m) (hf : d.Fresh g) (hturn : turn < g)
    (hfinished : d.Finished turn) : t.messageStepId ≠ turn ∧ d.KeepsTurn turn d' := by
  cases h with
  | intro h =>
    obtain ⟨hne, hkeeps⟩ := h.keepsTurn hf hturn hfinished
    exact ⟨hne, hkeeps.trans (.of_eq rfl rfl)⟩

theorem Passes.keepsTurn {provider : Provider} {att : Option PreparedAttachments} {m : ChatMem}
    {rs : List Round} (h : Passes llm cfg g d request t provider att rs g' d' m) (hf : d.Fresh g)
    (hturn : turn < g) (hfinished : d.Finished turn) :
    t.messageStepId ≠ turn ∧ d.KeepsTurn turn d' := by
  cases h with
  | intro hs hp hg =>
    obtain ⟨hne, hkeeps⟩ := hs.keepsTurn hf hturn hfinished
    rw [hg.eq]
    exact ⟨hne, hkeeps.trans (.extend (roundsDelta_of hg) hne)⟩

theorem Turn.ended_keepsTurn (hne : t.messageStepId ≠ turn) (result : LLMResult)
    (reason : List (String × Json)) : d.KeepsTurn turn (t.ended g result reason d) :=
  .trans (.extend (stepDelta_of ..) hne) (.of_eq rfl rfl)

theorem Ends.keepsTurn {acc : Acc} {answer : LLMAnswer} {pregen : Pregen} {out : ChatRunOut}
    (h : Ends cfg t acc g d answer pregen out g' d') (hne : t.messageStepId ≠ turn) :
    d.KeepsTurn turn d' := by
  cases h with
  | final h hb => exact (t.ended_keepsTurn hne _ _).trans (.of_eq hb.rows.1 hb.rows.2)
  | unpaid | poor => exact .of_eq rfl rfl
  | maxTokens h => exact t.ended_keepsTurn hne _ _
  | client hr hc =>
    rw [hr.eq]
    exact .extend hr.of hne
  | expired h => split <;> exact .of_eq rfl rfl

theorem Settles.keepsTurn {out : ChatRunOut} (h : Settles cfg g d request out g' d')
    (hf : d.Fresh g) (hturn : turn < g) (hfinished : d.Finished turn) : d.KeepsTurn turn d' := by
  cases h with
  | denied h hp => exact (h.keepsTurn hf hturn hfinished).2.trans (.of_eq rfl rfl)
  | noProvider h hm hp => exact (h.keepsTurn hf hturn hfinished).2
  | awaiting hr h => exact .deliverAll hfinished h.of_turn
  | replayed hr h => exact .deliverAll hfinished h.of_turn

/-- A finished turn keeps its rows in all that a request commits. -/
theorem Visits.keepsTurn (h : Visits llm cfg g d request g' d') (hf : d.Fresh g) (hturn : turn < g)
    (hfinished : d.Finished turn) : d.KeepsTurn turn d' := by
  cases h with
  | passed h => exact (h.keepsTurn hf hturn hfinished).2
  | exhausted h => exact (h.keepsTurn hf hturn hfinished).2.trans (.of_eq rfl rfl)
  | answered h =>
    cases h with
    | settled h => exact h.keepsTurn hf hturn hfinished
    | ended h hl he hs =>
      obtain ⟨hne, hkeeps⟩ := h.keepsTurn hf hturn hfinished
      exact (hkeeps.trans (he.keepsTurn hne)).trans (.of_eq hs.kept.toolCalls hs.kept.steps)

end Kept

/-! ## What follows a result -/

/-- A step of the assistant follows the step of the result in the turn. -/
def ChatDb.Followed (d : ChatDb) (sessionId messageStepId toolCallId : ℕ) : Prop :=
  ∃ tool ∈ d.turnSteps sessionId messageStepId, tool.payload.answers = some toolCallId ∧
    ∃ st ∈ d.turnSteps sessionId messageStepId, st.payload.isAssistant = true ∧ tool.seq < st.seq

/-- No step of the assistant is added. -/
def ChatDb.Quiet (g : ℕ) (d d' : ChatDb) : Prop :=
  ∀ st ∈ d'.steps, st ∈ d.steps ∨ g ≤ st.seq ∧ st.payload.isAssistant = false

section Followed

variable {llm : LLMAnswer → Prop} {cfg : Config} {t : Turn} {g g' : ℕ} {d d' : ChatDb}
variable {request : ChatRequest} {sid m id : ℕ}

namespace ChatDb.Quiet

theorem of_eq (h : d'.steps = d.steps) : ChatDb.Quiet g d d' := fun _ hst => .inl (h ▸ hst)

/-- A step of the assistant was there before, and so was what stands before it. -/
theorem mem_of_isAssistant (hf : d.Fresh g) (h : ChatDb.Quiet g d d') {st tool : ChatStep}
    (hst : st ∈ d'.steps) (hassistant : st.payload.isAssistant = true) (htool : tool ∈ d'.steps)
    (hlt : tool.seq < st.seq) : st ∈ d.steps ∧ tool ∈ d.steps := by
  have hold : st ∈ d.steps := by
    rcases h st hst with hst | ⟨-, hno⟩
    · exact hst
    · rw [hno] at hassistant
      cases hassistant
  refine ⟨hold, ?_⟩
  rcases h tool htool with htool | ⟨hge, -⟩
  · exact htool
  · have := (hf.steps st hold).1
    omega

theorem followed (hf : d.Fresh g) (h : ChatDb.Quiet g d d') (hfollowed : d'.Followed sid m id) :
    d.Followed sid m id := by
  obtain ⟨tool, htool, hanswers, st, hst, hassistant, hlt⟩ := hfollowed
  rw [ChatDb.mem_turnSteps] at htool hst
  obtain ⟨hst', htool'⟩ := h.mem_of_isAssistant hf hst.1 hassistant htool.1 hlt
  exact ⟨tool, ChatDb.mem_turnSteps.2 ⟨htool', htool.2⟩, hanswers, st,
    ChatDb.mem_turnSteps.2 ⟨hst', hst.2⟩, hassistant, hlt⟩

theorem deliverAll {u g₁ : ℕ} {rs : List (ToolResultIn × ToolCall)} {d₁ : ChatDb}
    (h : ChatDb.Quiet g d d₁) (hg : g ≤ g₁) : ChatDb.Quiet g d (deliverAll u rs g₁ d₁).2 := by
  induction rs generalizing g₁ d₁ with
  | nil => exact h
  | cons p rs ih =>
    unfold Chat.deliverAll
    split
    · refine ih (fun st hst => ?_) (hg.trans (Nat.le_succ g₁))
      rcases List.mem_append.1 hst with hst | hst
      · exact h st hst
      · obtain rfl := List.mem_singleton.1 hst
        exact .inr ⟨hg, rfl⟩
    · exact ih h hg

end ChatDb.Quiet

theorem Opened.quiet {req : RunRequest} {o : Opening} {mem : ChatMem}
    (h : Opened cfg req g d o g' d' mem) : ChatDb.Quiet g d d' := by
  have hstep : ∀ {d₁ : ChatDb} {sid seq prepared}, (∀ st ∈ d₁.steps, st ∈ d.steps) → g ≤ seq →
      ChatDb.Quiet g d (d₁.extend (stepDelta false sid g seq (req.payload cfg prepared) none)) := by
    intro d₁ sid seq prepared hsub hle st hst
    rcases List.mem_append.1 hst with hst | hst
    · exact .inl (hsub st hst)
    · obtain rfl := List.mem_singleton.1 hst
      exact .inr ⟨hle, rfl⟩
  cases h with
  | temporary => exact .of_eq rfl
  | created => exact hstep (fun st hst => hst) (by omega)
  | resumed => exact hstep (fun st hst => hst) (by omega)
  | edited => exact hstep (fun st hst => List.mem_of_mem_filter hst) (by omega)

theorem Ready.quiet {userId messageStepId : ℕ} {session : ChatSession} {temporary : Bool}
    {att : Option PreparedAttachments} {mem : ChatMem}
    (h : Ready cfg g d request userId session messageStepId temporary att g' d' mem) :
    ChatDb.Quiet g d d' := by
  cases h with
  | run h => exact h.quiet
  | toolResult h hb hn => exact .deliverAll (.of_eq rfl) le_rfl

theorem Starts.quiet {att : Option PreparedAttachments} {mem : ChatMem}
    (h : Starts cfg g d request t att g' d' mem) : ChatDb.Quiet g d d' := by
  cases h with
  | intro h => exact h.quiet

/-- A request that generates nothing adds nothing that follows a result. -/
theorem Settles.quiet {out : ChatRunOut} (h : Settles cfg g d request out g' d') :
    ChatDb.Quiet g d d' := by
  cases h with
  | denied h hp => exact h.quiet
  | noProvider h hm hp => exact h.quiet
  | awaiting hr h => exact .deliverAll (.of_eq rfl) le_rfl
  | replayed hr h => exact .deliverAll (.of_eq rfl) le_rfl

end Followed

/-! ## A plain answer -/

/-- A final message, whose text is that of the text blocks among those that are stored. -/
def LLMResult.Plain (result : LLMResult) : Prop :=
  result.Final ∧ textOf result.contentBlocks = result.text

/-- A provider whose messages are plain. -/
def plain : LLMAnswer → Prop
  | .result result => result.Plain
  | _ => True

/-- The fields that an answer which is sent again has in common with the first. -/
structure ChatRunOut.Same (a b : ChatRunOut) : Prop where
  status : a.status = b.status
  assistantMessage : a.assistantMessage = b.assistantMessage
  toolCalls : a.toolCalls = b.toolCalls
  blockReason : a.blockReason = b.blockReason
  messageStepId : a.messageStepId = b.messageStepId
  stepId : a.stepId = b.stepId

/-- The step after a result that is stored in `d` is rendered as `out`. -/
def ChatDb.Renders (d : ChatDb) (sessionId messageStepId toolCallId : ℕ) (out : ChatRunOut) : Prop :=
  ∃ st content, d.nextStepAfter sessionId messageStepId toolCallId = some st ∧
    st.payload = .assistant content ∧
    (renderSavedStep sessionId messageStepId content st.usage st.seq).Same out

section Plain

variable {cfg : Config} {t : Turn} {g g' : ℕ} {d d' : ChatDb} {request : ChatRequest}
variable {sid m id : ℕ} {result : LLMResult}

/-- A plain answer ends the turn: there is no round before it. -/
theorem Passes.rounds_eq_nil {provider : Provider} {att : Option PreparedAttachments}
    {rs : List Round} {mem : ChatMem} (h : Passes plain cfg g d request t provider att rs g' d' mem) :
    rs = [] := by
  cases h with
  | intro hs hp hg =>
    cases hg with
    | start => rfl
    | round h hr hc hl => exact absurd (hl.1.toolUses_eq_nil hr.reason) hr.uses

/-- What follows the results of the turn is its last step. -/
theorem renders_of_ended {out : ChatRunOut} {d₁ : ChatDb} {g₁ : ℕ} {content : List Block}
    {usage : Option Usage} (hf : d.Fresh g) (hf₁ : d₁.Fresh g₁)
    (hquiet : ChatDb.Quiet g d d₁) {sessionId messageStepId : ℕ}
    (hsteps : d'.steps = d₁.steps ++ [⟨g₁, sessionId, messageStepId, .assistant content, usage⟩])
    (hnew : ¬d.Followed sid m id) (hnow : d'.Followed sid m id)
    (hout : (renderSavedStep sessionId messageStepId content usage g₁).Same out) :
    sessionId = sid ∧ messageStepId = m ∧ d'.Renders sid m id out := by
  let last : ChatStep := ⟨g₁, sessionId, messageStepId, .assistant content, usage⟩
  -- any other step of the assistant was stored before, with the result that it follows
  have honly : ∀ st ∈ d'.turnSteps sid m, st.payload.isAssistant = true →
      ∀ tool ∈ d'.turnSteps sid m, tool.payload.answers = some id → tool.seq < st.seq →
      st = last := by
    intro st hst hassistant tool htool hanswers hlt
    rw [ChatDb.mem_turnSteps, hsteps] at hst htool
    rcases List.mem_append.1 hst.1 with hold | hold
    · refine absurd (hquiet.followed hf ⟨tool, ?_, hanswers, st, ?_, hassistant, hlt⟩) hnew
      · refine ChatDb.mem_turnSteps.2 ⟨?_, htool.2⟩
        rcases List.mem_append.1 htool.1 with htool | htool
        · exact htool
        · rw [List.mem_singleton.1 htool] at hlt
          exact absurd (hf₁.steps st hold).1 (Nat.lt_asymm hlt)
      · exact ChatDb.mem_turnSteps.2 ⟨hold, hst.2⟩
    · exact List.mem_singleton.1 hold
  obtain ⟨tool, htool, hanswers, st, hst, hassistant, hlt⟩ := hnow
  obtain rfl : st = last := honly st hst hassistant tool htool hanswers hlt
  have hturn := (ChatDb.mem_turnSteps.1 hst).2
  refine ⟨hturn.1, hturn.2, last, content, ?_, rfl, hturn.1 ▸ hturn.2 ▸ hout⟩
  unfold ChatDb.nextStepAfter
  cases hanchor : (d'.turnSteps sid m).find? (·.payload.answers = some id) with
  | none => exact absurd hanswers (by simpa using List.find?_eq_none.1 hanchor tool htool)
  | some anchor =>
    have hin := List.mem_of_find?_eq_some hanchor
    have hans : anchor.payload.answers = some id := by simpa using List.find?_some hanchor
    have hbefore : anchor.seq < last.seq := by
      have hmem := (ChatDb.mem_turnSteps.1 hin).1
      rw [hsteps] at hmem
      rcases List.mem_append.1 hmem with hmem | hmem
      · exact (hf₁.steps anchor hmem).1
      · rw [List.mem_singleton.1 hmem] at hans
        cases hans
    cases hfind : (d'.turnSteps sid m).find? fun st => st.payload.isAssistant ∧ anchor.seq < st.seq with
    | none =>
      have := List.find?_eq_none.1 hfind last hst
      simp [hassistant, hbefore] at this
    | some next =>
      have hnext : next.payload.isAssistant = true ∧ anchor.seq < next.seq := by
        simpa using List.find?_some hfind
      exact hfind.trans (congrArg some
        (honly next (List.mem_of_find?_eq_some hfind) hnext.1 anchor hin hans hnext.2))

/-- The same of the generation of the request. -/
theorem Passes.renders {provider : Provider} {att : Option PreparedAttachments} {rs : List Round}
    {mem : ChatMem} {g₁ : ℕ} {d₁ : ChatDb} {acc : Acc} {answer : LLMAnswer} {pregen : Pregen}
    {out : ChatRunOut} (hpass : Passes plain cfg g d request t provider att rs g₁ d₁ mem)
    (hllm : plain answer) (he : Ends cfg t acc g₁ d₁ answer pregen out g' d') (hf : d.Fresh g)
    (hl : TextLaw d) (hnew : ¬d.Followed sid m id) (hnow : d'.Followed sid m id) :
    m < g' ∧ d'.Finished m ∧ d'.Renders sid m id out := by
  have hrounds := hpass.rounds_eq_nil
  obtain ⟨hturn, hg, hf₁⟩ := hpass.fresh hf
  have hlaw := (hpass.textLaw hf hl).1
  have hquiet : ChatDb.Quiet g d d₁ := by
    subst hrounds
    cases hpass with
    | intro hs hp hg =>
      rw [hg.eq]
      simpa [roundsDelta] using hs.quiet
  have hafter := (he.fresh hturn hf₁).1
  cases he with
  | @final result _ _ hfinal hb =>
    obtain ⟨hcalls, hsteps⟩ := hb.rows
    have hfinished : d'.Finished t.messageStepId :=
      (hlaw.ended_finished hf₁ _ _).of (.of_eq hcalls hsteps)
    cases htemp : t.temporary with
    | true =>
      refine absurd (ChatDb.Quiet.followed hf (fun st hst => ?_) hnow) hnew
      rw [hsteps] at hst
      exact hquiet st (by simpa [Turn.ended, ChatDb.pay, ChatDb.extend, stepDelta, htemp] using hst)
    | false =>
      have hended : (t.ended g₁ result [] d₁).steps = d₁.steps ++ [⟨g₁, t.sessionId,
          t.messageStepId, .assistant result.contentBlocks, some result.usage⟩] := by
        simp [Turn.ended, ChatDb.pay, ChatDb.extend, stepDelta, htemp]
      have hsame : (renderSavedStep t.sessionId t.messageStepId result.contentBlocks
          (some result.usage) g₁).Same (t.out .assistantMessage (some result.text) [] none
            result.usage (t.stepId g₁) acc) :=
        ⟨rfl, congrArg some hllm.2, rfl, rfl, rfl, by simp [renderSavedStep, Turn.out, stepIdOf, htemp]⟩
      obtain ⟨-, rfl, hrenders⟩ :=
        renders_of_ended hf hf₁ hquiet (hsteps.trans hended) hnew hnow hsame
      exact ⟨hturn.trans_le hafter, hfinished, hrenders⟩
  | unpaid => exact absurd (hquiet.followed hf hnow) hnew
  | maxTokens hreason => exact absurd hreason hllm.1.ne_maxTokens
  | client hr hc => exact absurd (hllm.1.toolUses_eq_nil hr.reason) hr.uses
  | poor hreason hp =>
    rw [hllm.1.toolUses_eq_nil hreason] at hp
    cases hp
  | expired hm =>
    refine absurd (hquiet.followed hf ?_) hnew
    split at hnow <;> exact hnow

/-- **The request after which a step of the assistant follows a result**, when the provider answers
plainly: the turn is finished, and the step renders the answer of the request. -/
theorem Answers.renders {out : ChatRunOut} (h : Answers plain cfg g d request out g' d')
    (hf : d.Fresh g) (hl : TextLaw d) (hnew : ¬d.Followed sid m id) (hnow : d'.Followed sid m id) :
    m < g' ∧ d'.Finished m ∧ d'.Renders sid m id out := by
  cases h with
  | settled h => exact absurd (h.quiet.followed hf hnow) hnew
  | @ended _ _ _ _ _ _ _ d₂ _ _ _ _ _ h hllm he hs =>
    -- a sweep takes images, and none of this is about them
    have hrenders := fun hnow : d₂.Followed sid m id => h.renders hllm he hf hl hnew hnow
    cases hs with
    | skipped | swept => exact hrenders hnow

end Plain

/-! ## What is served later -/

/-- The request was served while the provider answered as `llm` has it. -/
def Served.With (cfg : Config) (llm : LLMAnswer → Prop) (s : Served) : Prop :=
  ∃ out w, s.out = some out ∧
    Runs (chatStore llm).step (s.request.prog cfg) (idle s.gen s.db) (.ok out) w ∧
    w.gen = s.gen' ∧ w.db = s.db'

/-- In a state before, the turn was finished, and the step after the result rendered `out`. -/
def ChatDb.Settled (d : ChatDb) (g sessionId messageStepId toolCallId : ℕ) (out : ChatRunOut) : Prop :=
  messageStepId < g ∧ ∃ (d₀ : ChatDb) (g₀ : ℕ), d₀.Fresh g₀ ∧ d₀.Finished messageStepId ∧
    d₀.Renders sessionId messageStepId toolCallId out ∧ d₀.KeepsTurn messageStepId d

section Later

variable {llm : LLMAnswer → Prop} {cfg : Config} {ok : ℕ → ChatDb → ChatRequest → Prop}
variable {hs : List Served} {g : ℕ} {d d' : ChatDb} {sid m id : ℕ}

/-- The rows of a finished turn answer alike as long as it has its calls. -/
theorem ChatDb.KeepsTurn.renders {g' : ℕ} (h : d.KeepsTurn m d') (hf : d.Fresh g)
    (hf' : d'.Fresh g') {c : ToolCall} (hc : c ∈ d'.toolCalls) (hs : c.sessionId = sid)
    (hm : c.messageStepId = m) {out : ChatRunOut} (hrenders : d.Renders sid m id out) :
    d'.Renders sid m id out := by
  have hsorted : ∀ {g : ℕ} {d : ChatDb}, d.Fresh g → (d.turnSteps sid m).Pairwise (·.seq < ·.seq) := by
    intro g d hf
    have hsteps := hf.stepsSorted.filter (·.sessionId = sid)
    unfold ChatDb.turnSteps ChatDb.listSteps
    rw [List.Pairwise.insertionSort_eq (hsteps.imp fun h => h.le)]
    exact hsteps.filter _
  have heq : d'.turnSteps sid m = d.turnSteps sid m := by
    have : Std.Irrefl fun a b : ChatStep => a.seq < b.seq := ⟨fun a => lt_irrefl a.seq⟩
    refine (hsorted hf').eq_of_mem_iff (hsorted hf) fun st => ?_
    simp only [ChatDb.mem_turnSteps]
    refine and_congr_left fun hst => ?_
    exact (h c hc hm).2 st (hst.1.trans hs.symm) hst.2
  unfold ChatDb.Renders ChatDb.nextStepAfter at hrenders ⊢
  rwa [heq]

theorem ChatDb.Settled.later {g' : ℕ} {out : ChatRunOut} (h : d.Settled g sid m id out)
    (hg : g ≤ g') (hkeeps : d.Finished m → d.KeepsTurn m d') : d'.Settled g' sid m id out := by
  obtain ⟨hturn, d₀, g₀, hf₀, hfinished, hrenders, h₀⟩ := h
  exact ⟨hturn.trans_le hg, d₀, g₀, hf₀, hfinished, hrenders, h₀.trans (hkeeps (hfinished.of h₀))⟩

/-- **After a plain answer** to the results of a turn nothing is added to it, and nothing is taken
from it but with its calls. -/
theorem History.settled (h : History llm cfg ok hs g d) {s : Served} (hmem : s ∈ hs)
    (hplain : s.With cfg plain) (hnew : ¬s.db.Followed sid m id)
    (hnow : s.db'.Followed sid m id) {out : ChatRunOut} (hout : s.out = some out) :
    d.Settled g sid m id out := by
  let motive : List Served → ℕ → ChatDb → Prop := fun hs g d => ∀ s ∈ hs, s.With cfg plain →
    ¬s.db.Followed sid m id → s.db'.Followed sid m id → s.out = some out → d.Settled g sid m id out
  refine (h.cases (motive := motive) (fun _ hs => absurd hs List.not_mem_nil) ?_ ?_).2 s hmem hplain
    hnew hnow hout
  · intro hs g d request o g' d' h hf ih hok hl _ s hmem hplain hnew hnow hout
    rcases List.mem_append.1 hmem with hmem | hmem
    · have hsettled := ih s hmem hplain hnew hnow hout
      refine hsettled.later hl.1 fun hfinished => ?_
      obtain ⟨-, hsame | ⟨g₁, -, hv⟩⟩ := hl
      · rw [hsame]
        exact .of_eq rfl rfl
      · exact hv.keepsTurn hf hsettled.1 hfinished
    · obtain rfl := List.mem_singleton.1 hmem
      obtain ⟨out', w, hout', hr, rfl, rfl⟩ := hplain
      obtain rfl : out' = out := Option.some.inj (hout'.symm.trans hout)
      obtain ⟨-, ha⟩ := answers_of_runs hf hr
      obtain ⟨hturn, hfinished, hrenders⟩ :=
        ha.renders hf (Reached.textLaw ⟨hs, h⟩) hnew hnow
      exact ⟨hturn, w.db, w.gen, (ha.fresh hf).2, hfinished, hrenders, .of_eq rfl rfl⟩
  · intro hs g d ops _ _ _ h hf ih hk s hmem hplain hnew hnow hout
    exact (ih s hmem hplain hnew hnow hout).later le_rfl fun _ => .of_eq rfl rfl

end Later

/-! ## The batch that is sent again -/

section Again

variable {llm : LLMAnswer → Prop} {commit : ChatWorld → Prop}
variable {call : LLMRequest → ChatWorld → Prop} {cfg : Config} {g : ℕ} {d : ChatDb} {mem : ChatMem}
variable {u sid m : ℕ}

theorem ChatDb.Fresh.toolCall (hf : d.Fresh g) {c : ToolCall} (hc : c ∈ d.toolCalls) :
    d.toolCall c.id = some c := by
  cases hfind : d.toolCall c.id with
  | none =>
    have := List.find?_eq_none.1 hfind c hc
    simp at this
  | some c' =>
    have hid : c'.id = c.id := by simpa using List.find?_some hfind
    rw [eq_of_callId hf (List.mem_of_find?_eq_some hfind) hc hid]

/-- Items with calls of one turn are resolved to them. -/
theorem resolveItems_of_mem {Q : Except AppError (List (ToolResultIn × ToolCall)) → ChatWorld → Prop}
    {rs acc : List (ToolResultIn × ToolCall)} {turn : Option ℕ} {w : ChatWorld}
    (hf : w.work.Fresh g) (hcalls : ∀ p ∈ rs, p.2 ∈ w.work.toolCalls ∧ p.2.id = p.1.toolCallId ∧
      p.2.sessionId = sid ∧ p.2.messageStepId = m) (hturn : turn.all (· = m) = true)
    (h : Q (.ok (acc ++ rs)) w) :
    (resolveItems sid (rs.map Prod.fst) turn acc).wp (chatStore llm).step (watch commit call) Q w := by
  induction rs generalizing turn acc with
  | nil =>
    rw [List.append_nil] at h
    exact h
  | cons p rs ih =>
    obtain ⟨hmem, hid, hs, hm⟩ := hcalls p (List.mem_cons_self ..)
    unfold resolveItems
    refine wp_read (.getToolCall _) _ trivial (fun _ => rfl) ?_
    rintro r (hr : r = w.work.toolCall p.1.toolCallId)
    rw [← hid, hf.toolCall hmem] at hr
    subst hr
    have hone : (turn.any (· ≠ p.2.messageStepId)) = false := by
      cases turn with
      | none => rfl
      | some m' => simpa [hm] using hturn
    simp only [ret_bind, hs, ne_eq, not_true_eq_false, if_false]
    rw [if_neg (by simpa using hone)]
    refine ih (fun q hq => hcalls q (List.mem_cons_of_mem _ hq)) (by simp [hm]) ?_
    rwa [List.append_assoc]

/-- A batch of results of a finished turn is answered from the step that follows the first. -/
theorem toolResult_finished {Q : Except AppError ChatRunOut → ChatWorld → Prop}
    {session : ChatSession} {first : ToolResultIn × ToolCall}
    {rs : List (ToolResultIn × ToolCall)} {st : ChatStep} {content : List Block} (hf : d.Fresh g)
    (h : Resolved d u sid ((first :: rs).map Prod.fst) session m (first :: rs))
    (hfinished : d.Finished m) (hn : d.nextStepAfter sid m first.2.id = some st)
    (hp : st.payload = .assistant content)
    (hQ : ∀ mem, Q (.ok (renderSavedStep sid m content st.usage st.seq)) ⟨d, d, g, mem⟩) :
    (toolResult cfg u sid ((first :: rs).map Prod.fst)).wp (chatStore llm).step (watch commit call) Q
      ⟨d, d, g, mem⟩ := by
  have hdeliver : deliverAll u (first :: rs) g d = (g, d) := deliverAll_of_done (h.done hfinished) g d
  have hfirst : first.2.messageStepId = m := (h.of_turn first (List.mem_cons_self ..)).2
  unfold toolResult
  refine wp_read (.getSession ..) _ trivial (fun _ => rfl) ?_
  rintro r (hr : r = _)
  simp only [ret_bind]
  cases r with
  | none =>
    have := List.find?_eq_none.1 hr.symm session h.session_mem
    simp [h.session_id, h.user] at this
  | some s =>
    have hs : s.id = sid := by
      have := List.find?_some hr.symm
      simp only [decide_eq_true_eq] at this
      exact this.1
    simp only
    rw [bind_eq, wp_bind]
    refine resolveItems_of_mem (w := ⟨d, d, g, mem⟩) (m := m) hf h.calls rfl ?_
    simp only [bindPost, List.nil_append, hfirst]
    rw [bind_eq, wp_bind]
    refine applyResults_wp (fun p hp => (h.calls p hp).2.2) fun m₁ hm => ?_
    simp only [bindPost, hdeliver]
    refine wp_read (.listToolCallsForStep ..) _ trivial (fun _ => rfl) fun turnCalls hperm => ?_
    have hperm : turnCalls.Perm (d.toolCalls.filter fun c => c.sessionId = sid ∧ c.messageStepId = m) :=
      hperm
    -- no call of the turn is pending
    have hpending : pendingCalls turnCalls = [] := by
      refine List.filter_eq_nil_iff.2 fun c hc => ?_
      have hmem := List.mem_filter.1 (hperm.mem_iff.1 hc)
      have hturn : c.sessionId = sid ∧ c.messageStepId = m := by simpa using hmem.2
      have := (ToolStatus.done_iff _).2 (hfinished c hmem.1 hturn.2).1
      simp [this]
    simp only [ret_bind, hpending, if_true]
    unfold continueTurn
    rw [bind_eq, wp_bind, hs]
    refine nextStepAfter_wp ?_
    simp only [bindPost]
    rw [hn]
    obtain ⟨seq, sessionId, messageStepId, payload, usage⟩ := st
    obtain rfl : payload = .assistant content := hp
    have hdone : allAlreadyDoneBefore turnCalls (first :: rs) = true := by
      refine allAlreadyDoneBefore_applied (u := u) hf h ?_
      rw [hdeliver]
      exact hperm
    simp only [hdone, if_true]
    exact hQ m₁

end Again

/-! ## The replay -/

/-- What the claim says of a request in the state `d`: it calls no provider, it writes nothing, and
it answers as `out` did. -/
structure Replays (llm : LLMAnswer → Prop) (cfg : Config) (g : ℕ) (d : ChatDb)
    (request : ChatRequest) (out : ChatRunOut) : Prop where
  calls : ∀ req w, ¬Reaches (chatStore llm).step (request.prog cfg) (idle g d)
    (.stmt (.createMessage req)) w
  writes : ∀ e w, Reaches (chatStore llm).step (request.prog cfg) (idle g d) e w → w.db = d
  ends : ∃ o w, Runs (chatStore llm).step (request.prog cfg) (idle g d) o w
  answers : ∀ o w, Runs (chatStore llm).step (request.prog cfg) (idle g d) o w →
    w.db = d ∧ ∃ out', o = .ok out' ∧ out'.Same out

/-- The served request is the one whose response first followed the results: a step of the assistant
follows each of them after it, and did not yet follow all of them before it. -/
structure Served.FirstFollows (s : Served) (sessionId messageStepId : ℕ)
    (resolved : List (ToolResultIn × ToolCall)) : Prop where
  after : ∀ p ∈ resolved, s.db'.Followed sessionId messageStepId p.2.id
  before : ∃ p ∈ resolved, ¬s.db.Followed sessionId messageStepId p.2.id

section Replay

variable {llm : LLMAnswer → Prop} {cfg : Config} {ok : ℕ → ChatDb → ChatRequest → Prop}

/-- Only the provider may have nothing to answer. -/
theorem exists_runs_of_wp {α : Type} {p : ChatProg α} {w : ChatWorld}
    {commit : ChatWorld → Prop} {Q : Except AppError α → ChatWorld → Prop}
    (h : p.wp (chatStore llm).step (watch commit fun _ _ => False) Q w) :
    ∃ o w', Runs (chatStore llm).step p w o w' := by
  refine Prog.exists_runs h fun e w hwatch => ?_
  cases e with
  | commit => exact ⟨(), _, rfl⟩
  | rollback => exact ⟨(), _, rfl⟩
  | stmt s =>
    have hany := s.allowed_answer Script.silent w.gen w.mem w.work
    have hallowed : s.Allowed llm w.gen w.mem w.work (s.answer .silent w.gen w.mem w.work).1 := by
      cases s
      case createMessage => exact hwatch.elim
      all_goals exact hany
    exact ⟨_, _, _, _, _, ⟨hallowed, rfl⟩, rfl⟩

/-- **Tool results that are sent again.** When a message that ended the turn in one call, and whose
text is that of its text blocks, was the response that first followed the results, and no response
had followed the first of them before, the batch is answered again as it was then. -/
theorem tool_result_replay {hs : List Served} {g : ℕ} {d : ChatDb} (h : History llm cfg ok hs g d)
    {s : Served} (hmem : s ∈ hs) {out : ChatRunOut} (hout : s.out = some out)
    {userId sessionId messageStepId : ℕ} {results : List ToolResultIn} {session : ChatSession}
    {first : ToolResultIn × ToolCall} {resolved : List (ToolResultIn × ToolCall)}
    (hres : Resolved d userId sessionId results session messageStepId (first :: resolved))
    (hfirst : s.FirstFollows sessionId messageStepId (first :: resolved))
    (hplain : s.With cfg plain) (hnew : ¬s.db.Followed sessionId messageStepId first.2.id) :
    Replays llm cfg g d (.toolResult userId sessionId results) out := by
  have hf := Reached.fresh ⟨hs, h⟩
  have hnow := hfirst.after first (List.mem_cons_self ..)
  obtain ⟨hturn, d₀, g₀, hf₀, hfinished₀, hrenders₀, hkeeps⟩ :=
    h.settled hmem hplain hnew hnow hout
  have hfinished := hfinished₀.of hkeeps
  obtain ⟨hc, -, hs, hm⟩ := hres.calls first (List.mem_cons_self ..)
  obtain ⟨st, content, hn, hp, hsame⟩ := hkeeps.renders hf₀ hf hc hs hm hrenders₀
  obtain rfl := hres.items
  have hwp : (ChatRequest.prog cfg (.toolResult userId sessionId ((first :: resolved).map
      Prod.fst))).wp (chatStore llm).step (watch (fun w => w.work = d) fun _ _ => False)
      (fun o w => w.db = d ∧ ∃ out', o = .ok out' ∧ out'.Same out) (idle g d) := by
    refine (Store.wp_sessionScope _ _).2 ?_
    exact toolResult_finished hf hres hfinished hn hp fun mem => ⟨rfl, rfl, _, rfl, hsame⟩
  refine ⟨fun req w hr => hr.of_wp hwp, fun e w hr => ?_, exists_runs_of_wp hwp,
    fun o w hr => hr.of_wp hwp⟩
  obtain ⟨-, -, hdb⟩ := committed_of_reaches (I := fun _ d' => d' = d) hr hwp ⟨g, le_rfl, rfl⟩
  exact hdb

end Replay

/-! ## The messages of the providers -/

theorem AnthropicMessage.textOf_contentBlocks {message : AnthropicMessage} {result : LLMResult}
    (h : message.result = .ok result) : textOf result.contentBlocks = result.text := by
  have hjoin : ∀ content : List Chats.AnthropicBlock,
      textOf (content.map block) = (textParts content).foldl (fun acc t => acc ++ t) "" := by
    intro content
    unfold textOf
    generalize "" = acc
    induction content generalizing acc with
    | nil => rfl
    | cons b blocks ih =>
      cases b with
      | text | toolUse | other => exact ih _
  unfold AnthropicMessage.result at h
  split at h
  · cases h
  · obtain rfl := Except.ok.inj h
    exact hjoin _

theorem OpenAIResponse.textOf_contentBlocks {loads : String → Option Json}
    {response : OpenAIResponse} {result : LLMResult} (h : response.result loads = .ok result) :
    textOf result.contentBlocks = "" := by
  have hnone : ∀ output : List Chats.OutputItem, textOf (output.map block) = "" := by
    intro output
    unfold textOf
    induction output with
    | nil => rfl
    | cons item items ih => cases item <;> exact ih
  unfold OpenAIResponse.result at h
  split at h
  · cases h
  · obtain rfl := Except.ok.inj h
    exact hnone _

/-- Anthropic's final messages are all plain, OpenAI's only those without a text. -/
theorem plain_result_iff {loads : String → Option Json} {r : ProviderResponse} {result : LLMResult}
    (h : r.result loads = .ok result) :
    result.Plain ↔ result.Final ∧ ((∃ message, r = .anthropic message) ∨ result.text = "") := by
  refine and_congr_right fun _ => ?_
  cases r with
  | anthropic message => exact iff_of_true (message.textOf_contentBlocks h) (.inl ⟨_, rfl⟩)
  | openai response =>
    rw [response.textOf_contentBlocks h]
    refine ⟨fun htext => .inr htext.symm, ?_⟩
    rintro (⟨_, hno⟩ | htext)
    · cases hno
    · exact htext.symm

/-! ## A result that is sent twice -/

instance (d : ChatDb) (sessionId messageStepId toolCallId : ℕ) :
    Decidable (d.Followed sessionId messageStepId toolCallId) :=
  inferInstanceAs (Decidable (∃ tool ∈ d.turnSteps sessionId messageStepId,
    tool.payload.answers = some toolCallId ∧ ∃ st ∈ d.turnSteps sessionId messageStepId,
      st.payload.isAssistant = true ∧ tool.seq < st.seq))

/-- The model calls a tool of the client. -/
def asking : LLMResult where
  stopReason := .toolUse
  contentBlocks := [.toolUse "call_1" "example.client_tool" (.obj [])]
  usage := ⟨20, 5, "gpt-4o", 0, 0⟩
  text := ""
  toolUses := [⟨"call_1", .other "example.client_tool", .obj []⟩]
  ids_eq := rfl
  no_media := by simp [Block.isMedia]

/-- The provider gives one answer. -/
def oneAnswer (answer : LLMAnswer) : Script := ⟨[answer], [], false⟩

/-- A message, with a key of `provider`, to which the model answers by a call of the client's tool. -/
def asked (provider : Provider) : ChatWorld :=
  (serveOne openaiInstance (oneAnswer (.result asking)) (.run (byokMessage "smart")) 0
    (keyed provider)).2.1

/-- The result of the call. -/
def delivered : ChatRequest := .toolResult 1 1 [⟨4, .result .null⟩]

theorem asked_history (provider : Provider) : ∃ hs, History anyProvider openaiInstance
    (fun _ _ _ => True) hs (asked provider).gen (asked provider).db := by
  obtain ⟨hs, h⟩ := keyed_reached openaiInstance provider
  exact ⟨_, h.serveOne (oneAnswer (.result asking)) trivial⟩

/-- The answer is a message with the text. -/
def told (text : String) : Except AppError ChatRunOut → Bool
  | .ok out => out.assistantMessage = some text
  | .error _ => false

theorem exists_of_told {text : String} {o : Except AppError ChatRunOut} (h : told text o = true) :
    ∃ out, o = .ok out ∧ out.assistantMessage = some text := by
  cases o with
  | ok out => exact ⟨out, rfl, of_decide_eq_true h⟩
  | error e => cases h

theorem delivered_history {llm : LLMAnswer → Prop} {provider : Provider} {out : ChatRunOut}
    {w : ChatWorld} (hr : Runs (chatStore llm).step (delivered.prog openaiInstance)
      (idle (asked provider).gen (asked provider).db) (.ok out) w)
    (hsession : (w.db.sessions.any fun s => s.id = 1 ∧ s.userId = 1) = true)
    (hcall : (w.db.toolCalls.any fun c => c.id = 4 ∧ c.sessionId = 1 ∧ c.messageStepId = 0) = true)
    (hnew : ¬(asked provider).db.Followed 1 0 4) (hnow : w.db.Followed 1 0 4) :
    ∃ hs s session p, History anyProvider openaiInstance (fun _ _ _ => True) hs w.gen w.db ∧ s ∈ hs ∧
      s.out = some out ∧ s.With openaiInstance llm ∧
      Resolved w.db 1 1 [⟨4, .result .null⟩] session 0 [p] ∧ s.FirstFollows 1 0 [p] ∧
      ¬s.db.Followed 1 0 p.2.id := by
  obtain ⟨hs, h⟩ := asked_history provider
  obtain ⟨session, hmem, hids⟩ := List.any_eq_true.1 hsession
  obtain ⟨c, hc, hturn⟩ := List.any_eq_true.1 hcall
  have hids : session.id = 1 ∧ session.userId = 1 := by simpa using hids
  have hturn : c.id = 4 ∧ c.sessionId = 1 ∧ c.messageStepId = 0 := by simpa using hturn
  have hserved := History.serve h trivial (runs_anyProvider hr)
  refine ⟨_, _, session, (⟨4, .result .null⟩, c), hserved, List.mem_append_right _
    (List.mem_singleton_self _), rfl, ⟨out, w, rfl, hr, rfl, rfl⟩, ?_, ⟨?_, ?_⟩, ?_⟩
  · refine ⟨hmem, hids.1, hids.2, rfl, List.cons_ne_nil _ _, fun p hp => ?_⟩
    rw [List.mem_singleton.1 hp]
    exact ⟨hc, hturn⟩
  · intro p hp
    rw [List.mem_singleton.1 hp]
    exact hturn.1 ▸ hnow
  · exact ⟨_, List.mem_singleton_self _, hturn.1 ▸ hnew⟩
  · exact hturn.1 ▸ hnew

theorem plain_silent : plain (.error (.upstream "")) := trivial

/-- Anthropic's answer to the result. -/
def plainScript : {ω : Script // ∀ a ∈ ω.answers, plain a} :=
  ⟨oneAnswer (.result answered), fun a ha => by
    obtain rfl := List.mem_singleton.1 ha
    exact ⟨.inl rfl, by decide +kernel⟩⟩

/-- The delivery of the result, with that answer. -/
def deliveredPlainly : Except AppError ChatRunOut × ChatWorld ×
    {ω : Script // ∀ a ∈ ω.answers, plain a} :=
  (delivered.prog openaiInstance).eval (providerHandler plain_silent).act
    (idle (asked .anthropic).gen (asked .anthropic).db, plainScript)

theorem deliveredPlainly_runs : Runs (chatStore plain).step (delivered.prog openaiInstance)
    (idle (asked .anthropic).gen (asked .anthropic).db) deliveredPlainly.1 deliveredPlainly.2.1 :=
  Store.eval_runs_step (providerHandler plain_silent) (delivered.prog openaiInstance)
    (idle (asked .anthropic).gen (asked .anthropic).db, plainScript)

/-- A message of Anthropic is sent again. -/
theorem tool_result_replay_text : ∃ g d out, out.assistantMessage = some "done" ∧
    Replays anyProvider openaiInstance g d delivered out := by
  have htold : told "done" deliveredPlainly.1 = true := by decide +kernel
  obtain ⟨out, hout, htext⟩ := exists_of_told htold
  have hr := deliveredPlainly_runs
  rw [hout] at hr
  obtain ⟨hs, s, session, p, h, hmem, hsout, hwith, hres, hfirst, hnew⟩ :=
    delivered_history hr (by decide +kernel) (by decide +kernel) (by decide +kernel)
      (by decide +kernel)
  exact ⟨_, _, out, htext, tool_result_replay h hmem hsout hres hfirst hwith hnew⟩

/-- OpenAI's answer to the result, with a text. -/
def telling : ProviderResponse :=
  .openai ⟨some "completed", none, [.message "msg_1" [.outputText "done" (.arr [])] "completed"],
    ⟨20, 5, "gpt-4o", 0, 0⟩⟩

/-- The delivery of the result in the state of `w`, with that answer. -/
def deliveredTo (w : ChatWorld) : Except AppError ChatRunOut × ChatWorld × Script :=
  serveOne openaiInstance (oneAnswer (telling.answer fun _ => none)) delivered w.gen w.db

/-- A message of OpenAI is sent again without its text. -/
theorem tool_result_replay_fails : ¬∀ (hs : List Served) (g : ℕ) (d : ChatDb) (s : Served)
    (out : ChatRunOut) (userId sessionId messageStepId : ℕ) (results : List ToolResultIn)
    (session : ChatSession) (resolved : List (ToolResultIn × ToolCall)),
    History anyProvider openaiInstance (fun _ _ _ => True) hs g d → s ∈ hs → s.out = some out →
    Resolved d userId sessionId results session messageStepId resolved →
    (∀ c ∈ d.toolCalls, c.messageStepId = messageStepId → c.status ≠ .pending) →
    s.FirstFollows sessionId messageStepId resolved →
    Replays anyProvider openaiInstance g d (.toolResult userId sessionId results) out := by
  intro hall
  have hdone : ((deliveredTo (asked .openai)).2.1.db.toolCalls.all fun c => c.status ≠ .pending) =
      true := by
    decide +kernel
  have htold : told "done" (deliveredTo (asked .openai)).1 = true := by decide +kernel
  have hagain : told "" (deliveredTo (deliveredTo (asked .openai)).2.1).1 = true := by decide +kernel
  obtain ⟨out, hout, htext⟩ := exists_of_told htold
  obtain ⟨out', hout', htext'⟩ := exists_of_told hagain
  have hr : Runs (chatStore anyProvider).step (delivered.prog openaiInstance)
      (idle (asked .openai).gen (asked .openai).db) (deliveredTo (asked .openai)).1
      (deliveredTo (asked .openai)).2.1 := serveOne_runs ..
  rw [hout] at hr
  obtain ⟨hs, s, session, p, h, hmem, hsout, -, hres, hfirst, -⟩ :=
    delivered_history hr (by decide +kernel) (by decide +kernel) (by decide +kernel)
      (by decide +kernel)
  have hreplays := hall hs _ _ s out 1 1 0 _ session [p] h hmem hsout hres
    (fun c hc _ => by simpa using List.all_eq_true.1 hdone c hc) hfirst
  obtain ⟨-, out'', hout'', hsame⟩ := hreplays.answers (deliveredTo (deliveredTo (asked .openai)).2.1).1
    (deliveredTo (deliveredTo (asked .openai)).2.1).2.1 (serveOne_runs ..)
  obtain rfl : out' = out'' := Except.ok.inj (hout'.symm.trans hout'')
  have := htext'.symm.trans (hsame.assistantMessage.trans htext)
  simp at this

end ChatBackend.Chat

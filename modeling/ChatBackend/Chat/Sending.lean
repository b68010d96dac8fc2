import ChatBackend.Chat.Ownership
import ChatBackend.Chat.WireMessages

/-!
# What the providers are sent

Every call to a provider, in every reachable state, tells it the history of the chat in its order, and
nothing else but the attachments of the first call of a generation: `history_sent`. They stand behind all
that the user has said, and at the very end in a run. There always is a message of the user to put them
into, as every tool call has the user step of its turn (`Reached.asked`).
-/

namespace ChatBackend.Chat

open Policy Wallet

/-! ## The user steps of the tool calls -/

/-- The turn has its user step. -/
def ChatDb.HasUser (d : ChatDb) (sessionId messageStepId : ℕ) : Prop :=
  ∃ st ∈ d.steps, st.sessionId = sessionId ∧ st.messageStepId = messageStepId ∧
    st.payload.isUser = true

/-- Every tool call is one of a turn with its user step. -/
def ChatDb.Asked (d : ChatDb) : Prop := ∀ c ∈ d.toolCalls, d.HasUser c.sessionId c.messageStepId

section Asked

variable {llm : LLMAnswer → Prop} {cfg : Config} {ok : ℕ → ChatDb → ChatRequest → Prop}
variable {t : Turn} {g g' u sid m : ℕ} {d d' : ChatDb} {request : ChatRequest} {mem : ChatMem}

theorem ChatDb.HasUser.mono (h : d.HasUser sid m) (hsub : ∀ st ∈ d.steps, st ∈ d'.steps) :
    d'.HasUser sid m := by
  obtain ⟨st, hst, hturn⟩ := h
  exact ⟨st, hsub st hst, hturn⟩

theorem ChatDb.Grows.steps_subset (h : d.Grows u sid m d') : ∀ st ∈ d.steps, st ∈ d'.steps := by
  obtain ⟨new, hnew, -⟩ := h.steps
  intro st hst
  rw [hnew]
  exact List.mem_append_left _ hst

/-- What a turn adds are tool calls of the turn, and only in a chat that is stored. -/
theorem ChatDb.Asked.turn (h : d.Asked)
    (hturn : t.temporary = false → d.HasUser t.sessionId t.messageStepId)
    (hg : d.Grows t.userId t.sessionId t.messageStepId d') (hs : d.Scoped t d') : d'.Asked := by
  obtain ⟨new, hnew, hmine⟩ := hg.toolCalls
  obtain ⟨new', hnew', hstored⟩ := hs.toolCalls
  obtain rfl : new = new' := List.append_cancel_left (hnew.symm.trans hnew')
  intro c hc
  rw [hnew] at hc
  rcases List.mem_append.1 hc with hc | hc
  · exact (h c hc).mono hg.steps_subset
  · obtain ⟨hsid, hmid⟩ := hmine c hc
    rw [hsid, hmid]
    exact (hturn (hstored c hc).1).mono hg.steps_subset

theorem stepDelta_hasUser {d : ChatDb} {sid m seq : ℕ} {payload : Payload}
    (h : payload.isUser = true) : (d.extend (stepDelta false sid m seq payload none)).HasUser sid m :=
  ⟨⟨seq, sid, m, payload, none⟩, List.mem_append_right _ (List.mem_singleton_self _), rfl, rfl, h⟩

theorem ChatDb.Asked.step (h : d.Asked) (temporary : Bool) (seq : ℕ) (payload : Payload) :
    (d.extend (stepDelta temporary sid m seq payload none)).Asked := by
  intro c hc
  have hc : c ∈ d.toolCalls := by simpa [ChatDb.extend, stepDelta] using hc
  exact (h c hc).mono fun st hst => List.mem_append_left _ hst

/-- The turns whose calls are kept lose no step. -/
theorem ChatDb.Asked.truncate (h : d.Asked) (sid anchor : ℕ) : (d.truncate sid anchor).Asked := by
  intro c hc
  obtain ⟨hc, hkept⟩ := List.mem_filter.1 hc
  obtain ⟨st, hst, hsid, hmid, huser⟩ := h c hc
  refine ⟨st, List.mem_filter.2 ⟨hst, ?_⟩, hsid, hmid, huser⟩
  simp only [not_and, not_le, decide_eq_true_eq] at hkept ⊢
  intro hin
  by_contra hle
  have hcut : st ∈ d.stepsFrom sid anchor := List.mem_filter.2 ⟨hst, by simpa [hin] using hle⟩
  exact hkept (hsid.symm.trans hin) (hmid ▸ List.mem_map_of_mem hcut)

theorem steps_deliverAll (rs : List (ToolResultIn × ToolCall)) :
    ∀ st ∈ d.steps, st ∈ (deliverAll u rs g d).2.steps := by
  induction rs generalizing g d with
  | nil => exact fun _ hst => hst
  | cons p rs ih =>
    unfold deliverAll
    split
    · exact fun st hst => ih st (List.mem_append_left _ hst)
    · exact ih

theorem ChatDb.Asked.deliverAll (h : d.Asked) (rs : List (ToolResultIn × ToolCall)) :
    (deliverAll u rs g d).2.Asked := by
  intro c hc
  obtain ⟨c₀, h₀, -, hsid, hmid, -⟩ := mem_deliverAll hc
  rw [← hsid, ← hmid]
  exact (h c₀ h₀).mono (steps_deliverAll rs)

theorem Opened.asked {req : RunRequest} {o : Opening} (h : Opened cfg req g d o g' d' mem)
    (ha : d.Asked) : d'.Asked ∧ (req.temporary = false → d'.HasUser o.session.id g) := by
  cases h with
  | temporary ht => exact ⟨ha, fun hf => by simp [ht] at hf⟩
  | created => exact ⟨ChatDb.Asked.step ha _ _ _, fun _ => stepDelta_hasUser rfl⟩
  | resumed => exact ⟨ha.step _ _ _, fun _ => stepDelta_hasUser rfl⟩
  | edited => exact ⟨(ha.truncate _ _).step _ _ _, fun _ => stepDelta_hasUser rfl⟩

theorem Ready.asked {session : ChatSession} {temporary : Bool} {att : Option PreparedAttachments}
    (h : Ready cfg g d request u session m temporary att g' d' mem) (ha : d.Asked) :
    d'.Asked ∧ (temporary = false → d'.HasUser session.id m) := by
  cases h with
  | run h => exact h.asked ha
  | @toolResult _ _ _ _ _ resolved first _ _ h =>
    refine ⟨ha.deliverAll _, fun _ => ?_⟩
    obtain ⟨hmem, -, hsid, hmid⟩ := h.calls first (List.mem_cons_self ..)
    have huser : d.HasUser first.2.sessionId first.2.messageStepId := ha first.2 hmem
    rw [hsid, hmid, ← h.session_id] at huser
    exact huser.mono (steps_deliverAll _)

theorem Starts.asked {att : Option PreparedAttachments} (h : Starts cfg g d request t att g' d' mem)
    (ha : d.Asked) : d'.Asked ∧ (t.temporary = false → d'.HasUser t.sessionId t.messageStepId) := by
  cases h with
  | intro h => exact h.asked ha

theorem Passes.asked {provider : Provider} {att : Option PreparedAttachments} {rs : List Round}
    (h : Passes llm cfg g d request t provider att rs g' d' mem) (ha : d.Asked) :
    d'.Asked ∧ (t.temporary = false → d'.HasUser t.sessionId t.messageStepId) := by
  cases h with
  | intro hs hp hg =>
    obtain ⟨hasked, huser⟩ := hs.asked ha
    have hmine := roundsDelta_mine hg
    rw [hg.eq]
    exact ⟨hasked.turn huser (.extend hmine) (.extend (roundsDelta_scoped hg)),
      fun ht => (huser ht).mono (ChatDb.Grows.extend hmine).steps_subset⟩

theorem Settles.asked {out : ChatRunOut} (h : Settles cfg g d request out g' d') (ha : d.Asked) :
    d'.Asked := by
  cases h with
  | denied h => exact (h.asked ha).1
  | noProvider h => exact (h.asked ha).1
  | awaiting => exact ha.deliverAll _
  | replayed => exact ha.deliverAll _

theorem Visits.asked (h : Visits llm cfg g d request g' d') (ha : d.Asked) : d'.Asked := by
  cases h with
  | passed h => exact (h.asked ha).1
  | exhausted h => exact (h.asked ha).1
  | answered h =>
    cases h with
    | settled h => exact h.asked ha
    | ended h hl he hs =>
      obtain ⟨hasked, huser⟩ := h.asked ha
      have hends := hasked.turn huser he.grows he.scoped
      cases hs <;> exact hends

/-- Every stored tool call has the user step of its turn. -/
theorem Reached.asked (h : Reached llm cfg ok g d) : d.Asked :=
  h.induction (I := fun _ d => d.Asked) (by simp [ChatDb.Asked, ChatDb.empty]) (fun _ ha => ha)
    (fun _ _ ha _ hv => hv.asked ha) fun ha _ => ha

end Asked

/-! ## The history of a call -/

section History

variable {llm : LLMAnswer → Prop} {cfg : Config} {ok : ℕ → ChatDb → ChatRequest → Prop}
variable {t : Turn} {g g' u sid m : ℕ} {d d' : ChatDb} {request : ChatRequest} {mem : ChatMem}
variable {att : Option PreparedAttachments} {provider : Provider} {rs : List Round}

/-- What is stored has texts of the user, and no attachment. -/
theorem Payload.Made.plain {p : Payload} (h : p.Made llm cfg) : p.message.Plain := by
  have hmedia := h.no_media
  cases p with
  | user content actionPrompt =>
    rw [Payload.message]
    cases actionPrompt.bind orNone with
    | some prompt =>
      intro b hb
      rcases List.mem_append.1 hb with hb | hb
      · exact hmedia b hb
      · exact ⟨_, List.mem_singleton.1 hb⟩
    | none => exact hmedia
  | assistant content => exact hmedia
  | tool => trivial

theorem ChatRequest.stores_plain (request : ChatRequest) :
    request.Stores llm cfg fun p => p.message.Plain where
  user req prepared _ hp := by
    have hmade : (req.payload cfg prepared).Made llm cfg := .user hp
    exact hmade.plain
  assistant result hl := by
    have hmade : Payload.Made llm cfg (.assistant result.contentBlocks) := .assistant hl
    exact hmade.plain
  tool _ _ _ _ _ := trivial

theorem TemporaryTurn.payload_plain (provider : Provider) (turn : TemporaryTurn) :
    (turn.payload provider).message.Plain := by
  unfold TemporaryTurn.payload historyBlocks
  cases hu : turn.fromUser <;> cases provider <;>
    simp [Payload.message, NeutralMessage.Plain, Block.isMedia]

/-- A stored step is the last one of its session. -/
theorem filter_extend_step (d : ChatDb) (sid m seq : ℕ) (payload : Payload) :
    (d.extend (stepDelta false sid m seq payload none)).steps.filter (·.sessionId = sid) =
      d.steps.filter (·.sessionId = sid) ++ [⟨seq, sid, m, payload, none⟩] := by
  simp [ChatDb.extend, stepDelta]

/-- What a run generates from ends with its own message. -/
theorem Opened.history {req : RunRequest} {o : Opening} (h : Opened cfg req g d o g' d' mem)
    (hf : d.Fresh g) : ∃ before, history req.temporary o.session.id d' mem =
      before ++ [req.payload cfg o.prepared] := by
  have hsorted : d'.listSteps o.session.id = d'.steps.filter (·.sessionId = o.session.id) :=
    List.Pairwise.insertionSort_eq (((h.fresh hf).2.stepsSorted.filter _).imp fun hlt => hlt.le)
  rw [Chat.history, hsorted]
  cases h with
  | temporary ht hp hs hu hm =>
    rw [if_pos ht, hm, List.map_append]
    exact ⟨_, rfl⟩
  | created ht | resumed ht | edited ht =>
    rw [if_neg (by simp [ht]), filter_extend_step, List.map_append]
    exact ⟨_, rfl⟩

/-- The memory of a temporary run holds its transcript and its message. -/
theorem Starts.memory (h : Starts cfg g d request t att g' d' mem) (ht : t.temporary = true) :
    ∃ (req : RunRequest) (prepared : Option PreparedAttachments),
      prepareOptional cfg req.attachments cfg.activeProvider = .ok prepared ∧
      mem.steps.map (·.payload) =
        req.history.map (TemporaryTurn.payload cfg.activeProvider) ++ [req.payload cfg prepared] := by
  obtain ⟨hready, -, -⟩ := h
  cases hready with
  | toolResult => cases ht
  | run ho =>
    cases ho with
    | created hfalse => exact absurd (hfalse.symm.trans ht) (by decide)
    | resumed hfalse => exact absurd (hfalse.symm.trans ht) (by decide)
    | edited hfalse => exact absurd (hfalse.symm.trans ht) (by decide)
    | temporary _ hp _ _ hm _ _ hseed =>
      refine ⟨_, _, hp, ?_⟩
      rw [hm, List.map_append, hseed]
      rfl

theorem Starts.memory_plain (h : Starts cfg g d request t att g' d' mem) (ht : t.temporary = true) :
    ∀ st ∈ mem.steps, st.payload.message.Plain := by
  obtain ⟨req, prepared, hp, hmemory⟩ := h.memory ht
  intro st hst
  have hpayload : st.payload ∈ mem.steps.map (·.payload) := List.mem_map_of_mem hst
  rw [hmemory] at hpayload
  rcases List.mem_append.1 hpayload with hseed | hown
  · obtain ⟨turn, -, heq⟩ := List.mem_map.1 hseed
    rw [← heq]
    exact turn.payload_plain _
  · have hmade : (req.payload cfg prepared).Made (fun _ => True) cfg := .user hp
    rw [List.mem_singleton.1 hown]
    exact hmade.plain

/-- No message of a call holds an attachment. -/
theorem Passes.history_plain (h : Passes llm cfg g d request t provider att rs g' d' mem)
    (hreached : Reached llm cfg ok g d) :
    ∀ p ∈ history t.temporary t.sessionId d' mem, p.message.Plain := by
  have hstored : ∀ st ∈ d'.steps, st.payload.message.Plain := by
    intro st hst
    rcases h.adds request.stores_made st hst with hst | hst
    · exact (hreached.made st hst).plain
    · exact hst.plain
  intro p hp
  unfold history at hp
  split at hp
  · rename_i ht
    obtain ⟨hs, -, hg⟩ := h
    obtain ⟨st, hst, rfl⟩ := List.mem_map.1 hp
    exact hg.memory request.stores_plain (hs.memory_plain ht) st hst
  · obtain ⟨st, hst, rfl⟩ := List.mem_map.1 hp
    exact hstored st (List.mem_of_mem_filter ((List.mem_insertionSort _).1 hst))

/-- A generation without a round is where it began. -/
theorem Generated.start_of_nil {g₀ : ℕ} {d₀ : ChatDb} {mem₀ : ChatMem}
    (h : Generated llm cfg t provider att g₀ d₀ mem₀ rs g d mem) (hrs : rs = []) :
    d = d₀ ∧ mem = mem₀ := by
  cases h with
  | start => exact ⟨rfl, rfl⟩
  | round => simp at hrs

/-- A user step is shown to the model as a message of the user. -/
theorem Payload.message_of_isUser {p : Payload} (h : p.isUser = true) :
    ∃ content, p.message = .user content := by
  cases p with
  | user content actionPrompt =>
    rw [Payload.message]
    cases actionPrompt.bind orNone with
    | some prompt => exact ⟨_, rfl⟩
    | none => exact ⟨_, rfl⟩
  | assistant => cases h
  | tool => cases h

theorem ChatDb.HasUser.history (h : d.HasUser sid m) (mem : ChatMem) :
    ∃ p ∈ history false sid d mem, p.isUser = true := by
  obtain ⟨st, hst, hsid, -, huser⟩ := h
  have hlist : st ∈ d.listSteps sid :=
    (List.mem_insertionSort _).2 (List.mem_filter.2 ⟨hst, decide_eq_true hsid⟩)
  exact ⟨st.payload, List.mem_map_of_mem hlist, huser⟩

/-- A turn begins with a message of the user in its history; a run ends it with its own. -/
theorem Ready.history {session : ChatSession} {temporary : Bool}
    (h : Ready cfg g d request u session m temporary att g' d' mem) (hf : d.Fresh g) (ha : d.Asked) :
    (∃ p ∈ history temporary session.id d' mem, p.isUser = true) ∧
      ∀ req, request = .run req → ∃ before prepared,
        history temporary session.id d' mem = before ++ [req.payload cfg prepared] := by
  have huser := (h.asked ha).2
  cases h with
  | run ho =>
    obtain ⟨before, hlast⟩ := ho.history hf
    constructor
    · rw [hlast]
      exact ⟨_, List.mem_append_right _ (List.mem_singleton_self _), rfl⟩
    · intro _ heq
      obtain rfl := ChatRequest.run.inj heq
      exact ⟨before, _, hlast⟩
  | toolResult => exact ⟨(huser rfl).history _, fun _ heq => by cases heq⟩

theorem Starts.history (h : Starts cfg g d request t att g' d' mem) (hf : d.Fresh g)
    (ha : d.Asked) :
    (∃ p ∈ history t.temporary t.sessionId d' mem, p.isUser = true) ∧
      ∀ req, request = .run req → ∃ before prepared,
        history t.temporary t.sessionId d' mem = before ++ [req.payload cfg prepared] := by
  obtain ⟨hready, -, -⟩ := h
  exact hready.history hf ha

/-- The first call of a turn is made where it begins. -/
theorem Passes.starts (h : Passes llm cfg g d request t provider att rs g' d' mem) (hrs : rs = []) :
    ∃ g₁, Starts cfg g d request t att g₁ d' mem := by
  obtain ⟨hs, -, hg⟩ := h
  obtain ⟨rfl, rfl⟩ := hg.start_of_nil hrs
  exact ⟨_, hs⟩

theorem Starts.blocks_media (h : Starts cfg g d request t att g' d' mem) :
    ∀ b ∈ attachedBlocks att, b.isMedia = true := by
  obtain ⟨hready, -, -⟩ := h
  intro b hb
  cases att with
  | none => cases hb
  | some a =>
    have hformat : b.InFormat cfg.activeProvider := (hready.attachments a rfl).content b hb
    cases b with
    | media => rfl
    | text | toolUse | item => exact hformat.elim

/-- The attachments of a call: those of its generation, in the first call only. -/
def firstBlocks (rs : List Round) (att : Option PreparedAttachments) : List Block :=
  if rs = [] then attachedBlocks att else []

section Call

variable (repr dumps : Json → String) {req : LLMRequest}

theorem Calls.attached (hreq : req = t.call cfg provider att rs d' mem) :
    attachedBlocks req.attachments = firstBlocks rs att := by
  rw [hreq]
  show attachedBlocks (if rs = [] then att else none) = firstBlocks rs att
  unfold firstBlocks
  split <;> rfl

/-- A call tells the history, with its attachments inserted. -/
theorem Passes.inserts (h : Reached llm cfg ok g d)
    (hpass : Passes llm cfg g d request t provider att rs g' d' mem)
    (hreq : req = t.call cfg provider att rs d' mem) (hplain : ∀ m ∈ req.messages, m.Plain) :
    Inserts req.provider (firstBlocks rs att) (req.said repr dumps) (req.sent repr dumps) := by
  rw [← Calls.attached hreq]
  by_cases hrs : rs = []
  · obtain ⟨g₁, hs⟩ := hpass.starts hrs
    obtain ⟨p, hp, huser⟩ := (hs.history h.fresh h.asked).1
    obtain ⟨content, hcontent⟩ := Payload.message_of_isUser huser
    have hmem : .user content ∈ req.messages := by
      rw [hreq, ← hcontent]
      exact List.mem_map_of_mem hp
    exact req.sent_inserts repr dumps hplain hmem
  · have hnone : attachedBlocks req.attachments = [] := by
      rw [Calls.attached hreq, firstBlocks, if_neg hrs]
    rw [req.sent_eq_said repr dumps hplain hnone, hnone]
    exact inserts_nil _ _

/-- A call of a run ends with the attachments. -/
theorem Passes.sent_of_run (h : Reached llm cfg ok g d)
    (hpass : Passes llm cfg g d request t provider att rs g' d' mem)
    (hreq : req = t.call cfg provider att rs d' mem) (hplain : ∀ m ∈ req.messages, m.Plain)
    {r : RunRequest} (hrun : request = .run r) :
    req.sent repr dumps = req.said repr dumps ++ (firstBlocks rs att).map .user := by
  rw [← Calls.attached hreq]
  by_cases hrs : rs = []
  · obtain ⟨g₁, hs⟩ := hpass.starts hrs
    obtain ⟨before, prepared, hlast⟩ := (hs.history h.fresh h.asked).2 r hrun
    have huser : (r.payload cfg prepared).isUser = true := rfl
    obtain ⟨content, hcontent⟩ := Payload.message_of_isUser huser
    have hmessages : req.messages = messagesOf before ++ [.user content] := by
      rw [hreq, ← hcontent]
      exact (congrArg messagesOf hlast).trans List.map_append
    exact req.sent_at_end repr dumps hplain hmessages
  · have hnone : attachedBlocks req.attachments = [] := by
      rw [Calls.attached hreq, firstBlocks, if_neg hrs]
    rw [req.sent_eq_said repr dumps hplain hnone, hnone]
    exact (List.append_nil _).symm

end Call

/-- **What a provider is told**, in any reachable state and by any call: the history of its turn, in
order, with the attachments of the first call inserted behind all that the user has said, or behind
everything if the call is one of a run. -/
theorem history_sent (repr dumps : Json → String) (h : Reached llm cfg ok g d) {req : LLMRequest}
    (hc : Calls llm cfg g d request req g' d' mem) :
    ∃ t att rs, Passes llm cfg g d request t req.provider att rs g' d' mem ∧
      req.messages = messagesOf (history t.temporary t.sessionId d' mem) ∧
      (req.sent repr dumps).filterMap Said.media = firstBlocks rs att ∧
      Inserts req.provider (firstBlocks rs att) (req.said repr dumps) (req.sent repr dumps) ∧
      ∀ r, request = .run r →
        req.sent repr dumps = req.said repr dumps ++ (firstBlocks rs att).map .user := by
  obtain ⟨t, att, rs, hpass, hreq⟩ := hc.passes
  have hmessages : req.messages = messagesOf (Chat.history t.temporary t.sessionId d' mem) := by
    rw [hreq]
    rfl
  have hplain : ∀ m ∈ req.messages, m.Plain := by
    intro m hm
    rw [hmessages] at hm
    obtain ⟨p, hp, rfl⟩ := List.mem_map.1 hm
    exact hpass.history_plain h p hp
  have hinserts := hpass.inserts repr dumps h hreq hplain
  have hsaid : ∀ s ∈ req.said repr dumps, s.media = none := by
    intro s hs
    obtain ⟨m, hm, hs⟩ := List.mem_flatMap.1 hs
    exact (hplain m hm).media repr dumps req.provider s hs
  have hblocks : ∀ b ∈ firstBlocks rs att, b.isMedia = true := by
    intro b hb
    unfold firstBlocks at hb
    split at hb
    · rename_i hrs
      obtain ⟨g₁, hs⟩ := hpass.starts hrs
      exact hs.blocks_media b hb
    · cases hb
  exact ⟨t, att, rs, hpass, hmessages, hinserts.media hsaid hblocks, hinserts,
    fun r hrun => hpass.sent_of_run repr dumps h hreq hplain hrun⟩

end History

/-! ## A message with an image -/

def imageMessage : RunRequest :=
  { byokMessage "smart" with attachments := [⟨"image", "image/png", some "a.png", "AA=="⟩] }

/-- The provider is told the message, a placeholder and the image. -/
theorem history_sent_image : ∃ (req : LLMRequest) (g' : ℕ) (d' : ChatDb) (m : ChatMem),
    (req.sent (fun _ => "") fun _ => "").length = 3 ∧
    ∃ t att rs, Passes anyProvider openaiInstance 0 (keyed .openai) (.run imageMessage) t req.provider att
        rs g' d' m ∧
      req.sent (fun _ => "") (fun _ => "") =
        req.said (fun _ => "") (fun _ => "") ++ (firstBlocks rs att).map .user := by
  have h : (callsOf openaiInstance .silent (.run imageMessage) 0 (keyed .openai)).any
      (fun x => (x.1.sent (fun _ => "") fun _ => "").length = 3) = true := by
    decide +kernel
  obtain ⟨req, g', d', m, hlen, hcall⟩ := exists_call_of_any (keyed_fresh _)
    (p := fun req => (req.sent (fun _ => "") fun _ => "").length = 3) h
  have hreached : Reached anyProvider openaiInstance (fun _ _ _ => True) 0 (keyed .openai) :=
    ⟨[], .keyed _ _⟩
  obtain ⟨t, att, rs, hpass, -, -, -, hrun⟩ :=
    history_sent (fun _ => "") (fun _ => "") hreached hcall
  exact ⟨req, g', d', m, of_decide_eq_true hlen, t, att, rs, hpass, hrun imageMessage rfl⟩

end ChatBackend.Chat

import ChatBackend.Chat.Coherence
import ChatBackend.Chat.Schema
import ChatBackend.Chats.ContextBlock

/-!
# Messages with content

Every user and assistant message that is built for a provider call has a block, and no text block of
it is blank (`full_messages`): by the schema for a request, and under two conditions that the code
does not check, that the turns of a transcript are not blank and that no response is.
-/

namespace ChatBackend.Chat

open Policy Wallet
open Chats (Dict)

/-! ## Full content -/

/-- The text of a block, if it is one of text: for OpenAI also that of a message item. -/
def Block.words : Block → Option String
  | .text t => some t
  | .item type t => if type = "" ∨ type = "message" then some t else none
  | _ => none

/-- There is a block, and no text block is blank. -/
def FullContent (content : List Block) : Prop :=
  content.isEmpty = false ∧ ∀ b ∈ content, b.words.all (!isBlank ·) = true

instance (content : List Block) : Decidable (FullContent content) :=
  inferInstanceAs (Decidable (_ ∧ _))

/-- A user or assistant message with full content; a tool message has no blocks. -/
def NeutralMessage.Full : NeutralMessage → Prop
  | .user content => FullContent content
  | .assistant content => FullContent content
  | .tool .. => True

instance (message : NeutralMessage) : Decidable message.Full :=
  match message with
  | .user content => inferInstanceAs (Decidable (FullContent content))
  | .assistant content => inferInstanceAs (Decidable (FullContent content))
  | .tool .. => .isTrue trivial

theorem FullContent.singleton {b : Block} (h : b.words.all (!isBlank ·) = true) : FullContent [b] :=
  ⟨rfl, fun _ hb => List.mem_singleton.1 hb ▸ h⟩

theorem FullContent.append {front back : List Block} (hne : front ≠ [] ∨ back ≠ [])
    (hf : ∀ b ∈ front, b.words.all (!isBlank ·) = true)
    (hb : ∀ b ∈ back, b.words.all (!isBlank ·) = true) : FullContent (front ++ back) := by
  refine ⟨?_, fun b hmem => ?_⟩
  · rcases hne with hne | hne <;> simp [hne]
  · rcases List.mem_append.1 hmem with hmem | hmem
    · exact hf b hmem
    · exact hb b hmem

/-! ## The parts of a user step -/

theorem isBlank_eq_false {s : String} {c : Char} (hc : c ∈ s.toList) (h : isSpace c = false) :
    isBlank s = false := by
  rw [isBlank, List.all_eq_false]
  exact ⟨c, hc, by simp [h]⟩

theorem isBlank_append (s t : String) : isBlank (s ++ t) = (isBlank s && isBlank t) := by
  simp [isBlank, List.all_append]

/-- A configuration with the block of the settings as it is rendered. -/
def Config.rendering (cfg : Config) (lower : String → String) : Config :=
  { cfg with renderContextBlock := fun context =>
      match context with
      | some (.obj d) => Chats.renderContextBlock lower (some d)
      | _ => none }

variable {cfg : Config} {lower : String → String}

theorem renderContextBlock_not_blank {context : Option Dict} {block : String}
    (h : Chats.renderContextBlock lower context = some block) : isBlank block = false := by
  obtain ⟨-, hnone⟩ | ⟨-, block', hblock, body, hlist, -⟩ := Chats.renderContextBlock_spec lower context
  · rw [hnone] at h
    cases h
  · obtain rfl : block' = block := Option.some.inj (hblock.symm.trans h)
    refine isBlank_eq_false (c := '[') ?_ (by decide)
    rw [hlist]
    exact List.mem_append_left _ (by decide)

theorem rendering_not_blank {context : Option Json} {block : String}
    (h : (cfg.rendering lower).renderContextBlock context = some block) : isBlank block = false := by
  simp only [Config.rendering] at h
  split at h
  · exact renderContextBlock_not_blank h
  · cases h

/-- The text of a user step is empty or not blank; it is empty only if the message is blank. -/
theorem composeTurn0Text_spec {block : Option String} (h : ∀ b ∈ block, isBlank b = false)
    (msg : String) :
    (composeTurn0Text block msg = "" ∧ isBlank msg = true) ∨
      (composeTurn0Text block msg ≠ "" ∧ isBlank (composeTurn0Text block msg) = false) := by
  have hne : ∀ {s : String}, isBlank s = false → s ≠ "" ∧ isBlank s = false := by
    rintro s hs
    refine ⟨?_, hs⟩
    rintro rfl
    exact absurd hs (by decide)
  unfold composeTurn0Text
  split
  · rename_i hblank
    cases block with
    | none => exact .inl ⟨rfl, hblank⟩
    | some b => exact .inr (hne (h b rfl))
  · rename_i hblank
    have hblank : isBlank msg = false := by simpa using hblank
    cases block with
    | none => exact .inr (hne hblank)
    | some b => exact .inr (hne (by rw [isBlank_append, hblank, Bool.and_false]))

theorem placeholder_plain (att : AttachmentIn) (n : ℕ) :
    (placeholder att n).words.all (!isBlank ·) = true := by
  have hblank : isBlank ("[attachment: " ++ att.mediaType ++ " \"" ++ att.name ++ "\", " ++ toString n ++
      "B — отправлено в первом обращении к модели]") = false :=
    isBlank_eq_false (c := '[') (by simp) (by decide)
  rw [placeholder, Block.words, Option.all_some, hblank, Bool.not_false]

/-- An attachment leaves a placeholder. -/
theorem prepareEach_placeholders {provider : Provider} {total : ℕ} {atts : List AttachmentIn}
    {prepared : PreparedAttachments} (h : prepareEach cfg provider total atts = .ok prepared) :
    prepared.placeholders.length = atts.length ∧
      ∀ b ∈ prepared.placeholders, b.words.all (!isBlank ·) = true := by
  induction atts generalizing total prepared with
  | nil =>
    obtain rfl : (⟨[], []⟩ : PreparedAttachments) = prepared := by simpa [prepareEach] using h
    exact ⟨rfl, fun _ hb => absurd hb List.not_mem_nil⟩
  | cons att atts ih =>
    unfold prepareEach at h
    split at h
    · cases h
    · rename_i size text total' hd
      split at h
      · cases h
      · rename_i rest hrest
        obtain rfl := Except.ok.inj h
        obtain ⟨hlen, hplain⟩ := ih hrest
        refine ⟨congrArg (· + 1) hlen, fun b hb => ?_⟩
        rcases List.mem_cons.1 hb with rfl | hb
        · exact placeholder_plain att size
        · exact hplain b hb

theorem prepareOptional_placeholders {provider : Provider} {atts : List AttachmentIn}
    {prepared : Option PreparedAttachments} (h : prepareOptional cfg atts provider = .ok prepared) :
    (atts ≠ [] → (prepared.map (·.placeholders)).getD [] ≠ []) ∧
      ∀ b ∈ (prepared.map (·.placeholders)).getD [], b.words.all (!isBlank ·) = true := by
  unfold prepareOptional prepareAttachments at h
  split at h
  · rename_i hempty
    cases h
    exact ⟨fun hne => absurd (List.isEmpty_iff.1 hempty) hne, nofun⟩
  · split at h
    · cases h
    · cases hp : prepareEach cfg provider 0 atts with
      | error e =>
        rw [hp] at h
        cases h
      | ok a =>
        rw [hp] at h
        cases h
        obtain ⟨hlen, hplain⟩ := prepareEach_placeholders hp
        refine ⟨fun hne hnil => hne ?_, hplain⟩
        have hnil : a.placeholders = [] := hnil
        rw [hnil] at hlen
        exact List.length_eq_zero_iff.1 hlen.symm

/-- **The message of a user step is full**, for a turn with content. -/
theorem RunRequest.payload_full {req : RunRequest} {prepared : Option PreparedAttachments}
    (hcontent : isBlank req.message = false ∨ req.attachments ≠ [] ∨
      ∃ p, resolveActionPrompt req.actionPrompt = some p)
    (hp : prepareOptional (cfg.rendering lower) req.attachments
      (cfg.rendering lower).activeProvider = .ok prepared) :
    (req.payload (cfg.rendering lower) prepared).message.Full := by
  obtain ⟨hsome, hplain⟩ := prepareOptional_placeholders hp
  have hblock : ∀ b ∈ (cfg.rendering lower).renderContextBlock req.context, isBlank b = false :=
    fun b hb => rendering_not_blank hb
  have htext := composeTurn0Text_spec hblock req.message
  rw [RunRequest.payload, userPayload]
  generalize composeTurn0Text ((cfg.rendering lower).renderContextBlock req.context) req.message = text
    at htext ⊢
  have hfront : ∀ b ∈ (if text = "" then [] else [Block.text text]), b.words.all (!isBlank ·) = true := by
    intro b hb
    obtain ⟨rfl, -⟩ | ⟨hne, hblank⟩ := htext
    · simp at hb
    · rw [if_neg hne, List.mem_singleton] at hb
      rw [hb]
      simp [Block.words, hblank]
  have hmessage : ∀ content : List Block, (∀ b ∈ content, b.words.all (!isBlank ·) = true) →
      (content ≠ [] ∨ ∃ p, resolveActionPrompt req.actionPrompt = some p) →
      (Payload.user content (resolveActionPrompt req.actionPrompt)).message.Full := by
    intro content hplain hne
    cases hprompt : resolveActionPrompt req.actionPrompt with
    | none =>
      have hne : content ≠ [] := hne.resolve_right fun ⟨p, hp⟩ => nomatch hprompt.symm.trans hp
      exact ⟨by simpa using hne, hplain⟩
    | some p =>
      have hblank : isBlank p = false := by simpa using (Option.filter_eq_some_iff.1 hprompt).2
      have hnonempty : orNone p = some p := if_neg (by rintro rfl; exact absurd hblank (by decide))
      simp only [Payload.message, Option.bind_some, hnonempty]
      exact .append (.inr (List.cons_ne_nil _ _)) hplain
        fun b hb => by rw [List.mem_singleton.1 hb]; simp [Block.words, hblank]
  refine hmessage _ (fun b hb => ?_) ?_
  · rcases List.mem_append.1 hb with hb | hb
    · exact hfront b hb
    · exact hplain b hb
  · obtain ⟨rfl, hblank⟩ | ⟨hne, -⟩ := htext
    · rcases hcontent with hcontent | hatts | hprompt
      · exact absurd (hcontent.symm.trans hblank) (by decide)
      · exact .inl (by simpa using hsome hatts)
      · exact .inr hprompt
    · exact .inl (by simp [hne])

/-! ## Where the messages come from -/

theorem TemporaryTurn.payload_full {turn : TemporaryTurn} (provider : Provider)
    (h : isBlank turn.content = false) : (turn.payload provider).message.Full := by
  have hblocks : FullContent (historyBlocks turn provider) := by
    unfold historyBlocks
    split <;> exact .singleton (by simp [Block.words, h])
  unfold TemporaryTurn.payload
  split
  · exact hblocks
  · exact hblocks

/-- A request with a body that the schema accepts. -/
def ChatRequest.Accepted (limits : SizeLimits) (dumps : Dict → String) : ChatRequest → Prop
  | .run req => ∃ (body : ChatRunRequest) (userId : ℕ), body.Accepted limits dumps ∧ body.toRun userId = req
  | .toolResult .. => True

/-- A request whose transcript has no blank turn. -/
def ChatRequest.PlainHistory : ChatRequest → Prop
  | .run req => ∀ turn ∈ req.history, isBlank turn.content = false
  | .toolResult .. => True

/-- A request that the schema accepts, without a blank turn. -/
def ChatRequest.Plain (limits : SizeLimits) (dumps : Dict → String) (request : ChatRequest) : Prop :=
  request.Accepted limits dumps ∧ request.PlainHistory

variable {llm : LLMAnswer → Prop} {limits : SizeLimits} {dumps : Dict → String} {request : ChatRequest}
  {g g' : ℕ} {d d' : ChatDb} {m : ChatMem}

/-- What such a request stores are full messages. -/
theorem ChatRequest.Plain.stores (h : request.Plain limits dumps)
    (hl : ∀ result, llm (.result result) → FullContent result.contentBlocks) :
    request.Stores llm (cfg.rendering lower) fun p => p.message.Full where
  user := by
    rintro req prepared rfl hp
    obtain ⟨⟨body, userId, haccepted, rfl⟩, -⟩ := h
    exact RunRequest.payload_full haccepted.content hp
  assistant result hresult := hl result hresult
  tool _ _ _ _ _ := trivial

/-- The memory in which a turn begins holds full messages. -/
theorem Starts.memory_full (h : request.Plain limits dumps) {t : Turn} {att : Option PreparedAttachments}
    (hs : Starts (cfg.rendering lower) g d request t att g' d' m) (ht : t.temporary = true) :
    ∀ st ∈ m.steps, st.payload.message.Full := by
  obtain ⟨hready, -, -⟩ := hs
  cases hready with
  | toolResult => cases ht
  | run ho =>
    obtain ⟨⟨body, userId, haccepted, rfl⟩, hhistory⟩ := h
    cases ho with
    | created hfalse => exact absurd (hfalse.symm.trans ht) (by decide)
    | resumed hfalse => exact absurd (hfalse.symm.trans ht) (by decide)
    | edited hfalse => exact absurd (hfalse.symm.trans ht) (by decide)
    | temporary _ hp _ _ hm _ _ hseed =>
      intro st hst
      rw [hm] at hst
      rcases List.mem_append.1 hst with hst | hst
      · have hpayload := List.mem_map_of_mem (f := (·.payload)) hst
        rw [hseed] at hpayload
        obtain ⟨turn, hturn, heq⟩ := List.mem_map.1 hpayload
        rw [← heq]
        exact turn.payload_full _ (hhistory turn hturn)
      · obtain rfl := List.mem_singleton.1 hst
        exact RunRequest.payload_full haccepted.content hp

/-- **Every message has content.** In every history of requests that the schema accepts, with
transcripts without blank turns, from a provider whose responses are not blank: the user and assistant
messages that are built for the next provider call have a block each, and no blank text block. -/
theorem full_messages (cfg : Config) (lower : String → String) (limits : SizeLimits)
    (dumps : Dict → String) (llm : LLMAnswer → Prop) (g : ℕ) (d : ChatDb) (request : ChatRequest)
    (req : LLMRequest) (g' : ℕ) (d' : ChatDb) (m : ChatMem)
    (hl : ∀ result, llm (.result result) → FullContent result.contentBlocks)
    (h : Reached llm (cfg.rendering lower) (fun _ _ request => request.Plain limits dumps) g d)
    (hrequest : request.Plain limits dumps)
    (hc : Calls llm (cfg.rendering lower) g d request req g' d' m) :
    ∀ message ∈ req.messages, message.Full := by
  obtain ⟨t, att, rs, hpass, hreq⟩ := hc.passes
  rw [hreq]
  have hstored : ∀ st ∈ d'.steps, st.payload.message.Full := by
    intro st hst
    rcases hpass.adds (hrequest.stores hl) st hst with hst | hst
    · exact h.stored (fun _ _ _ hok => hok.stores hl) st hst
    · exact hst
  intro message hmessage
  obtain ⟨p, hp, rfl⟩ := List.mem_map.1 hmessage
  unfold history at hp
  split at hp
  · rename_i ht
    obtain ⟨hs, -, hg⟩ := hpass
    obtain ⟨st, hst, rfl⟩ := List.mem_map.1 hp
    exact hg.memory (hrequest.stores hl) (hs.memory_full hrequest ht) st hst
  · obtain ⟨st, hst, rfl⟩ := List.mem_map.1 hp
    exact hstored st (List.mem_of_mem_filter ((List.mem_insertionSort _).1 hst))

/-! ## Blank messages -/

/-- A temporary chat with a transcript of one turn. -/
def temporaryBody (turn : String) : ChatRunRequest where
  projectId := none
  sessionId := none
  workspaceProjectId := none
  model := none
  message := "hello"
  mode := .byok
  dialogMode := some "smart"
  attachments := none
  context := some [("tone", .str "brief")]
  actionPrompt := none
  editMessageStepId := none
  temporary := true
  history := some [⟨true, turn⟩]

/-- A message in a stored chat. -/
def storedBody (sessionId : Option ℕ) : ChatRunRequest :=
  { temporaryBody "" with temporary := false, history := none, sessionId := sessionId }

def smallLimits : SizeLimits := ⟨1000, 1000, 1000⟩

/-- A provider whose responses have content. -/
def fullProvider (a : LLMAnswer) : Prop := ∀ result, a = .result result → FullContent result.contentBlocks

theorem fullProvider_silent : fullProvider (.error (.upstream "")) := nofun

/-- The transcript and the message are two full messages. -/
theorem full_messages_sample : ∃ req g' d' m, Calls fullProvider (openaiInstance.rendering id) 0
      (keyed .openai) (.run ((temporaryBody "hi").toRun 1)) req g' d' m ∧
    req.messages.length = 2 ∧ ∀ message ∈ req.messages, message.Full := by
  have hcalls : ((ChatRequest.prog (openaiInstance.rendering id)
      (.run ((temporaryBody "hi").toRun 1))).trace (providerHandler fullProvider_silent).act
      (idle 0 (keyed .openai), ⟨.silent, nofun⟩)).any
      (fun x => (callOf x.1).any fun req => req.messages.length = 2) = true := by decide +kernel
  obtain ⟨req, g', d', m, hlen, hcall⟩ := exists_call_of_provider fullProvider_silent
    (p := fun req => req.messages.length = 2) _ (keyed_fresh _) hcalls
  have hplain : (ChatRequest.run ((temporaryBody "hi").toRun 1)).Plain smallLimits fun _ => "" := by
    refine ⟨⟨temporaryBody "hi", 1, ⟨by decide, by decide⟩, rfl⟩, fun turn hturn => ?_⟩
    obtain rfl := List.mem_singleton.1 hturn
    decide
  exact ⟨req, g', d', m, hcall, of_decide_eq_true hlen, full_messages openaiInstance id smallLimits
    (fun _ => "") fullProvider 0 (keyed .openai) _ req g' d' m (fun _ h => h _ rfl) (⟨[], .keyed _ _⟩)
    hplain hcall⟩

/-- A transcript with a blank turn is accepted, and goes to the provider as it is. -/
theorem full_messages_fails : ¬∀ (cfg : Config) (lower : String → String) (limits : SizeLimits)
    (dumps : Dict → String) (g : ℕ) (d : ChatDb) (request : ChatRequest) (req : LLMRequest) (g' : ℕ)
    (d' : ChatDb) (m : ChatMem),
    Reached anyProvider (cfg.rendering lower) (fun _ _ request => request.Accepted limits dumps) g d →
    request.Accepted limits dumps →
    Calls anyProvider (cfg.rendering lower) g d request req g' d' m →
    ∀ message ∈ req.messages, message.Full := by
  intro hall
  have h : (callsOf (openaiInstance.rendering id) .silent (.run ((temporaryBody " ").toRun 1)) 0
      (keyed .openai)).any
      (fun x => ¬∀ message ∈ x.1.messages, message.Full) = true := by
    decide +kernel
  obtain ⟨req, g', d', m, hreq, hcall⟩ := exists_call_of_any (keyed_fresh _)
    (p := fun req => ¬∀ message ∈ req.messages, message.Full) h
  have haccepted : (ChatRequest.run ((temporaryBody " ").toRun 1)).Accepted smallLimits fun _ => "" :=
    ⟨temporaryBody " ", 1, ⟨by decide, by decide⟩, rfl⟩
  exact absurd (hall openaiInstance id smallLimits (fun _ => "") 0 (keyed .openai) _ req g' d' m
    (⟨[], .keyed _ _⟩) haccepted hcall) (by simpa using hreq)

/-- The model answers with nothing. -/
def emptyAnswer : LLMResult :=
  { answered with contentBlocks := [], text := "", ids_eq := rfl, no_media := nofun }

/-- After a message that was answered with nothing. -/
def answeredNothing : ChatWorld :=
  (serveOne (openaiInstance.rendering id) ⟨[.result emptyAnswer], [], false⟩
    (.run ((storedBody none).toRun 1)) 0 (keyed .openai)).2.1

/-- A response without blocks is stored, and the next message of the chat sends it back. -/
theorem empty_response_replayed : ∃ g d req g' d' m,
    Reached anyProvider (openaiInstance.rendering id)
      (fun _ _ request => request.Plain smallLimits fun _ => "") g d ∧
    (ChatRequest.run ((storedBody (some 1)).toRun 1)).Plain smallLimits (fun _ => "") ∧
    Calls anyProvider (openaiInstance.rendering id) g d (.run ((storedBody (some 1)).toRun 1)) req g' d' m ∧
    ∃ message ∈ req.messages, ¬message.Full := by
  have hplain : ∀ sessionId : Option ℕ, (storedBody sessionId).Accepted smallLimits (fun _ => "") →
      (ChatRequest.run ((storedBody sessionId).toRun 1)).Plain smallLimits fun _ => "" :=
    fun sessionId h => ⟨⟨storedBody sessionId, 1, h, rfl⟩, nofun⟩
  have hreached : Reached anyProvider (openaiInstance.rendering id)
      (fun _ _ request => request.Plain smallLimits fun _ => "") answeredNothing.gen
      answeredNothing.db := by
    have hkeyed : History anyProvider (openaiInstance.rendering id)
        (fun _ _ request => request.Plain smallLimits fun _ => "") [] 0 (keyed .openai) := .keyed _ _
    exact ⟨_, hkeyed.serveOne _ (hplain none ⟨by decide, by decide⟩)⟩
  have h : (callsOf (openaiInstance.rendering id) .silent
      (.run ((storedBody (some 1)).toRun 1)) answeredNothing.gen answeredNothing.db).any
      (fun x => ∃ message ∈ x.1.messages, ¬message.Full) = true := by
    decide +kernel
  obtain ⟨⟨req, w⟩, hmem, hreq⟩ := List.any_eq_true.1 h
  exact ⟨_, _, req, _, _, _, hreached, hplain (some 1) ⟨by decide, by decide⟩,
    calls_of_callsOf hreached.fresh hmem, of_decide_eq_true hreq⟩

end ChatBackend.Chat

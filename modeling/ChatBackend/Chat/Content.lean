import ChatBackend.Chat.History

/-!
# Where the content of a step comes from

The steps that a request stores: the user step of a run, the assistant steps, which keep a response
of the provider as it is, and the tool steps. Attachments have the blocks of the active provider.
-/

namespace ChatBackend.Chat

open Wallet Policy

/-! ## Stored payloads -/

/-- The payload of a step that was made of a run's request, of a provider's response or of the
result of a tool. -/
inductive Payload.Made (llm : LLMAnswer → Prop) (cfg : Config) : Payload → Prop
  | user {req : RunRequest} {prepared : Option PreparedAttachments}
      (h : prepareOptional cfg req.attachments cfg.activeProvider = .ok prepared) :
      Made llm cfg (req.payload cfg prepared)
  | assistant {result : LLMResult} (h : llm (.result result)) :
      Made llm cfg (.assistant result.contentBlocks)
  | tool (id : ℕ) (providerToolUseId : String) (toolName : ToolName) (result error : Option Json) :
      Made llm cfg (.tool id providerToolUseId toolName result error)

section Made

variable {llm : LLMAnswer → Prop} {cfg : Config} {g g' : ℕ} {d d' : ChatDb} {P : Payload → Prop}

/-- The steps of `d'` are those of `d` or have a payload with `P`. -/
def ChatDb.Adds (P : Payload → Prop) (d d' : ChatDb) : Prop :=
  ∀ st ∈ d'.steps, st ∈ d.steps ∨ P st.payload

theorem ChatDb.Adds.refl (d : ChatDb) : d.Adds P d := fun _ hst => .inl hst

theorem ChatDb.Adds.trans {d₁ d₂ d₃ : ChatDb} (h : d₁.Adds P d₂) (h' : d₂.Adds P d₃) :
    d₁.Adds P d₃ := by
  intro st hst
  rcases h' st hst with hst | hst
  · exact h st hst
  · exact .inr hst

/-- A change that does not touch the steps. -/
theorem ChatDb.Adds.of_eq (h : d'.steps = d.steps) : d.Adds P d' := by
  intro st hst
  rw [h] at hst
  exact .inl hst

theorem ChatDb.Adds.extend {Δ : Delta} (h : ∀ st ∈ Δ.steps, P st.payload) : d.Adds P (d.extend Δ) := by
  intro st hst
  rcases List.mem_append.1 hst with hst | hst
  · exact .inl hst
  · exact .inr (h st hst)

theorem stepDelta_steps {temporary : Bool} {sessionId messageStepId seq : ℕ} {payload : Payload}
    {usage : Option Usage} (h : P payload) :
    ∀ st ∈ (stepDelta temporary sessionId messageStepId seq payload usage).steps, P st.payload := by
  intro st hst
  unfold stepDelta at hst
  split at hst
  · cases hst
  · obtain rfl := List.mem_singleton.1 hst
    exact h

/-- `P` holds of what a request may store: its user step, the responses and the results of tools. -/
structure ChatRequest.Stores (llm : LLMAnswer → Prop) (cfg : Config) (P : Payload → Prop)
    (request : ChatRequest) : Prop where
  user : ∀ req prepared, request = .run req →
    prepareOptional cfg req.attachments cfg.activeProvider = .ok prepared → P (req.payload cfg prepared)
  assistant : ∀ result, llm (.result result) → P (.assistant result.contentBlocks)
  tool : ∀ id providerToolUseId toolName result error,
    P (.tool id providerToolUseId toolName result error)

/-- What is made of a request and of responses. -/
theorem ChatRequest.stores_made (request : ChatRequest) :
    request.Stores llm cfg (Payload.Made llm cfg) :=
  ⟨fun _ _ _ hp => .user hp, fun _ hl => .assistant hl, fun _ _ _ _ _ => .tool ..⟩

theorem Opened.prepared_eq {req : RunRequest} {o : Opening} {m : ChatMem}
    (h : Opened cfg req g d o g' d' m) :
    prepareOptional cfg req.attachments cfg.activeProvider = .ok o.prepared := by
  cases h <;> assumption

theorem Opened.adds {req : RunRequest} {o : Opening} {m : ChatMem}
    (h : Opened cfg req g d o g' d' m) (hP : (ChatRequest.run req).Stores llm cfg P) : d.Adds P d' := by
  have huser : ∀ {prepared}, prepareOptional cfg req.attachments cfg.activeProvider = .ok prepared →
      P (req.payload cfg prepared) := fun hp => hP.user req _ rfl hp
  cases h with
  | temporary => exact .refl d
  | created ht hp => exact ChatDb.Adds.trans (.of_eq rfl) (.extend (stepDelta_steps (huser hp)))
  | resumed ht hp => exact .extend (stepDelta_steps (huser hp))
  | edited ht hp =>
    refine ChatDb.Adds.trans (fun st hst => .inl ?_) (.extend (stepDelta_steps (huser hp)))
    exact List.mem_of_mem_filter hst

variable {request : ChatRequest}

section Stores

variable (hP : request.Stores llm cfg P)
include hP

theorem adds_deliverAll {u : ℕ} (resolved : List (ToolResultIn × ToolCall)) :
    d.Adds P (deliverAll u resolved g d).2 := by
  induction resolved generalizing g d with
  | nil => exact .refl d
  | cons p resolved ih =>
    unfold deliverAll
    split
    · refine ChatDb.Adds.trans (fun st hst => ?_) ih
      rcases List.mem_append.1 hst with hst | hst
      · exact .inl hst
      · obtain rfl := List.mem_singleton.1 hst
        exact .inr (hP.tool ..)
    · exact ih

theorem Ready.adds {u messageStepId : ℕ} {session : ChatSession}
    {temporary : Bool} {att : Option PreparedAttachments} {m : ChatMem}
    (h : Ready cfg g d request u session messageStepId temporary att g' d' m) : d.Adds P d' := by
  cases h with
  | run h => exact h.adds hP
  | toolResult h => exact adds_deliverAll hP _

theorem Starts.adds {t : Turn} {att : Option PreparedAttachments} {m : ChatMem}
    (h : Starts cfg g d request t att g' d' m) : d.Adds P d' := by
  cases h with
  | intro h => exact ChatDb.Adds.trans (h.adds hP) (.of_eq rfl)

theorem BlockRun.steps_stored (t : Turn) (b : BlockRun) : ∀ st ∈ b.steps t, P st.payload := by
  intro st hst
  unfold BlockRun.steps at hst
  split at hst
  · obtain rfl := List.mem_singleton.1 hst
    exact hP.tool ..
  · obtain rfl := List.mem_singleton.1 hst
    exact hP.tool ..
  · cases hst

theorem deltas_stored (t : Turn) (bs : List BlockRun) : ∀ st ∈ (deltas t bs).steps, P st.payload := by
  induction bs with
  | nil => exact nofun
  | cons b bs ih =>
    intro st hst
    rw [deltas_cons] at hst
    rcases List.mem_append.1 hst with hst | hst
    · have hst : t.temporary = false ∧ st ∈ b.steps t := by simpa [BlockRun.delta] using hst
      exact b.steps_stored hP t st hst.2
    · exact ih st hst

theorem Round.Ok.adds {t : Turn} {r : Round} (h : r.Ok cfg t g d g' d')
    (hl : llm (.result r.result)) : d.Adds P d' := by
  rw [h.eq]
  refine .extend fun st hst => ?_
  rcases List.mem_append.1 hst with hst | hst
  · exact stepDelta_steps (hP.assistant _ hl) st hst
  · exact deltas_stored hP t r.blocks st hst

theorem Generated.adds {t : Turn} {provider : Provider} {att : Option PreparedAttachments}
    {m m' : ChatMem} {rs : List Round}
    (h : Generated llm cfg t provider att g d m rs g' d' m') : d.Adds P d' := by
  induction h with
  | start => exact .refl d
  | round h hr hc hl hm ih => exact ih.trans (hr.adds hP hl)

/-- The steps that a round adds to the memory of a temporary turn. -/
theorem Round.memSteps_stored (t : Turn) (r : Round) (hl : llm (.result r.result)) :
    ∀ st ∈ r.memSteps t, P st.payload := by
  intro st hst
  rcases List.mem_cons.1 hst with rfl | hst
  · exact hP.assistant _ hl
  · obtain ⟨p, hp, rfl⟩ := List.mem_map.1 hst
    obtain ⟨b, -, hb⟩ := List.mem_flatMap.1 hp
    obtain ⟨execution, -, rfl⟩ := Option.map_eq_some_iff.1 (Option.mem_toList.1 hb)
    exact hP.tool ..

/-- The memory of a generation holds what it held at the beginning, and what was stored since. -/
theorem Generated.memory {t : Turn} {provider : Provider} {att : Option PreparedAttachments}
    {m m' : ChatMem} {rs : List Round} (h : Generated llm cfg t provider att g d m rs g' d' m')
    (hm : ∀ st ∈ m.steps, P st.payload) : ∀ st ∈ m'.steps, P st.payload := by
  induction h with
  | start => exact hm
  | @round rs g₁ g₂ d₁ d₂ m₁ m₂ r h hr hc hl hgrows ih =>
    intro st hst
    rw [hgrows.steps] at hst
    rcases List.mem_append.1 hst with hst | hst
    · exact ih st hst
    · split at hst
      · exact r.memSteps_stored hP t hl st hst
      · cases hst

omit hP in
theorem Bills.steps {t : Turn} {usage : Usage} (h : Bills t usage g d g' d') :
    d'.steps = d.steps := by
  cases h <;> rfl

theorem Ends.adds {t : Turn} {acc : Acc} {answer : LLMAnswer} {pregen : Pregen} {out : ChatRunOut}
    (h : Ends cfg t acc g d answer pregen out g' d') (hl : llm answer) : d.Adds P d' := by
  cases h with
  | @final result _ _ h hb =>
    have hended : d.Adds P (t.ended g result [] d) :=
      ChatDb.Adds.trans (.extend (stepDelta_steps (hP.assistant _ hl))) (.of_eq rfl)
    exact hended.trans (.of_eq hb.steps)
  | unpaid => exact .refl d
  | maxTokens =>
    exact ChatDb.Adds.trans (.extend (stepDelta_steps (hP.assistant _ hl))) (.of_eq rfl)
  | client hr hc => exact hr.adds hP hl
  | poor => exact .refl d
  | expired h =>
    refine .of_eq ?_
    split <;> rfl

theorem Passes.adds {t : Turn} {provider : Provider}
    {att : Option PreparedAttachments} {rs : List Round} {m : ChatMem}
    (h : Passes llm cfg g d request t provider att rs g' d' m) : d.Adds P d' := by
  cases h with
  | intro h hp hg => exact (h.adds hP).trans (hg.adds hP)

theorem Settles.adds {out : ChatRunOut} (h : Settles cfg g d request out g' d') : d.Adds P d' := by
  cases h with
  | denied h hp => exact ChatDb.Adds.trans (h.adds hP) (.of_eq rfl)
  | noProvider h hm hp => exact h.adds hP
  | awaiting => exact adds_deliverAll hP _
  | replayed => exact adds_deliverAll hP _

theorem Visits.adds (h : Visits llm cfg g d request g' d') : d.Adds P d' := by
  cases h with
  | passed h => exact h.adds hP
  | exhausted h => exact ChatDb.Adds.trans (h.adds hP) (.of_eq rfl)
  | answered h =>
    cases h with
    | settled h => exact h.adds hP
    | ended h hl he hs => exact ((h.adds hP).trans (he.adds hP hl)).trans (.of_eq hs.kept.steps)

end Stores

/-- What every request may store has `P` in every reachable state. -/
theorem Reached.stored {ok : ℕ → ChatDb → ChatRequest → Prop}
    (hP : ∀ g d request, ok g d request → request.Stores llm cfg P) (h : Reached llm cfg ok g d) :
    ∀ st ∈ d.steps, P st.payload := by
  refine h.induction (I := fun _ d => ∀ st ∈ d.steps, P st.payload) nofun
    (fun _ hI => hI) (fun _ _ hI hok hv st hst => ?_) fun hI _ => hI
  rcases hv.adds (hP _ _ _ hok) st hst with hst | hst
  · exact hI st hst
  · exact hst

/-- Every stored step was made of a request, of a response or of the result of a tool. -/
theorem Reached.made {ok : ℕ → ChatDb → ChatRequest → Prop} (h : Reached llm cfg ok g d) :
    ∀ st ∈ d.steps, st.payload.Made llm cfg :=
  h.stored fun _ _ request _ => request.stores_made

end Made

/-! ## Attachments -/

/-- The types of the blocks that a provider takes for an attachment. -/
def Provider.mediaTypes : Provider → List String
  | .anthropic => ["image", "document", "text"]
  | .openai => ["input_image", "input_file", "input_text"]

/-- A block of an attachment in the format of a provider. -/
def Block.InFormat (provider : Provider) : Block → Prop
  | .media type _ _ _ => type ∈ provider.mediaTypes
  | _ => False

/-- Attachments with blocks in the format of a provider, for which only texts are stored. -/
structure PreparedAttachments.For (provider : Provider) (a : PreparedAttachments) : Prop where
  content : ∀ b ∈ a.contentBlocks, b.InFormat provider
  placeholders : ∀ b ∈ a.placeholders, ∃ t, b = .text t

section Attachments

variable {cfg : Config} {provider : Provider}

theorem contentBlock_inFormat (att : AttachmentIn) (text : Option String) (provider : Provider) :
    (contentBlock att text provider).InFormat provider := by
  cases provider <;> unfold contentBlock <;> dsimp only <;> split_ifs <;>
    simp [Block.InFormat, Provider.mediaTypes]

theorem prepareEach_for {total : ℕ} {atts : List AttachmentIn} {a : PreparedAttachments}
    (h : prepareEach cfg provider total atts = .ok a) : a.For provider := by
  induction atts generalizing total a with
  | nil =>
    obtain rfl : (⟨[], []⟩ : PreparedAttachments) = a := by simpa [prepareEach] using h
    exact ⟨nofun, nofun⟩
  | cons att atts ih =>
    unfold prepareEach at h
    split at h
    · cases h
    · rename_i size text total' hd
      split at h
      · cases h
      · rename_i rest hrest
        obtain rfl := Except.ok.inj h
        have hfor := ih hrest
        refine ⟨fun b hb => ?_, fun b hb => ?_⟩
        · rcases List.mem_cons.1 hb with rfl | hb
          · exact contentBlock_inFormat att text provider
          · exact hfor.content b hb
        · rcases List.mem_cons.1 hb with rfl | hb
          · exact ⟨_, rfl⟩
          · exact hfor.placeholders b hb

theorem prepareOptional_for {atts : List AttachmentIn} {prepared : Option PreparedAttachments}
    (h : prepareOptional cfg atts provider = .ok prepared) : ∀ a ∈ prepared, a.For provider := by
  intro a ha
  have ha : prepared = some a := ha
  unfold prepareOptional prepareAttachments at h
  split at h
  · rw [ha] at h
    cases h
  · split at h
    · cases h
    · cases hp : prepareEach cfg provider 0 atts with
      | error e => rw [hp] at h; cases h
      | ok a' =>
        rw [hp] at h
        obtain rfl : a' = a := by simpa [Except.map, ha] using h
        exact prepareEach_for hp

theorem fileBlocks_inFormat (maxChars used : ℕ) (files : List WorkspaceFile) :
    ∀ b ∈ fileBlocks maxChars provider used files, b.InFormat provider := by
  induction files generalizing used with
  | nil => exact nofun
  | cons f files ih =>
    unfold fileBlocks
    split
    · intro b hb
      rcases List.mem_cons.1 hb with rfl | hb
      · cases provider <;> simp [imageBlock, Block.InFormat, Provider.mediaTypes]
      · exact ih used b hb
    · split
      · exact ih used
      · split
        · exact ih used
        · intro b hb
          rcases List.mem_cons.1 hb with rfl | hb
          · cases provider <;> simp [fileTextBlock, Block.InFormat, Provider.mediaTypes]
          · exact ih _ b hb

theorem LiveFiles.for_active {workspace : Option PreparedAttachments} (h : LiveFiles cfg workspace) :
    ∀ a ∈ workspace, a.For cfg.activeProvider := by
  intro a ha
  rcases h with rfl | ⟨files, rfl⟩
  · cases ha
  · unfold buildFileAttachments at ha
    split at ha
    · cases ha
    · rename_i blocks hne
      obtain rfl := Option.mem_some_iff.1 ha
      exact ⟨fileBlocks_inFormat _ _ files, nofun⟩

theorem mergeAttachments_for {chat workspace : Option PreparedAttachments}
    (hc : ∀ a ∈ chat, a.For provider) (hw : ∀ a ∈ workspace, a.For provider) :
    ∀ a ∈ mergeAttachments chat workspace, a.For provider := by
  intro a ha
  cases chat with
  | none =>
    cases workspace with
    | none => cases ha
    | some w =>
      obtain rfl := Option.mem_some_iff.1 ha
      have := hw w rfl
      exact ⟨by simpa using this.content, nofun⟩
  | some c =>
    have hc := hc c rfl
    cases workspace with
    | none =>
      obtain rfl := Option.mem_some_iff.1 ha
      exact ⟨by simpa using hc.content, by simpa using hc.placeholders⟩
    | some w =>
      obtain rfl := Option.mem_some_iff.1 ha
      have hw := hw w rfl
      refine ⟨fun b hb => ?_, by simpa using hc.placeholders⟩
      rcases List.mem_append.1 hb with hb | hb
      · exact hw.content b (by simpa using hb)
      · exact hc.content b (by simpa using hb)

/-- What goes with the first call of a turn is prepared for the active provider. -/
theorem Ready.attachments {g g' : ℕ} {d d' : ChatDb} {request : ChatRequest}
    {u messageStepId : ℕ} {session : ChatSession} {temporary : Bool}
    {att : Option PreparedAttachments} {m : ChatMem}
    (h : Ready cfg g d request u session messageStepId temporary att g' d' m) :
    ∀ a ∈ att, a.For cfg.activeProvider := by
  cases h with
  | run h hw =>
    exact mergeAttachments_for (prepareOptional_for h.prepared_eq) hw.for_active
  | toolResult h hb hn hc hw => exact mergeAttachments_for nofun hw.for_active

/-- A stored payload has no attachment: its user text and the placeholders are plain texts. -/
theorem Payload.Made.no_media {llm : LLMAnswer → Prop} {p : Payload} (h : p.Made llm cfg) :
    match p with
    | .user content _ => ∀ b ∈ content, ∃ t, b = .text t
    | .assistant content => ∀ b ∈ content, b.isMedia = false
    | .tool .. => True := by
  cases h with
  | @user req prepared hp =>
    intro b hb
    rcases List.mem_append.1 hb with hb | hb
    · split at hb
      · cases hb
      · exact ⟨_, List.mem_singleton.1 hb⟩
    · cases prepared with
      | none => cases hb
      | some a => exact (prepareOptional_for hp a rfl).placeholders b hb
  | @assistant result hl => exact result.no_media
  | tool => trivial

end Attachments

end ChatBackend.Chat

import ChatBackend.Chat.Content
import ChatBackend.Chat.Script

/-!
# The client, the model and the content of a provider call

The client is that of the active provider, or of the user's key. The model goes by the client,
except that deep thinking forces the reasoning model of the instance whatever the client; and the
assistant messages are the stored responses, which are replayed as they are, whoever has sent them.
-/

namespace ChatBackend.Chat

open Policy Wallet

/-- The content of an assistant message. -/
def NeutralMessage.assistantContent : NeutralMessage → Option (List Block)
  | assistant content => some content
  | _ => none

/-- The content of an assistant step. -/
def Payload.assistantContent : Payload → Option (List Block)
  | assistant content => some content
  | _ => none

/-- The assistant messages of a request. -/
def LLMRequest.replayed (req : LLMRequest) : List (List Block) :=
  req.messages.filterMap NeutralMessage.assistantContent

/-- The model of a call belongs to its client: one that the settings allow for its provider, or the
default of the client (none is named) or of the provider's keys. -/
def LLMRequest.OwnModel (cfg : Config) (req : LLMRequest) : Prop :=
  ∀ m, req.model = some m →
    m ∈ cfg.allowedModelsFor req.provider ∨ m = cfg.byokDefaultModelFor req.provider

instance (cfg : Config) (req : LLMRequest) : Decidable (req.OwnModel cfg) :=
  match h : req.model with
  | none => .isTrue fun m hm => by rw [h] at hm; cases hm
  | some m => decidable_of_iff
      (m ∈ cfg.allowedModelsFor req.provider ∨ m = cfg.byokDefaultModelFor req.provider)
      ⟨fun hm m' hm' => by
        obtain rfl : m = m' := by simpa [h] using hm'
        exact hm, fun hm => hm m h⟩

/-- A call of the turn `t` of a request that began on `d`, whose session has the history `payloads`. In a
byok session the client is that of the key that is stored for the user, and is given that key. -/
structure Coherent (cfg : Config) (t : Turn) (d : ChatDb) (payloads : List Payload) (req : LLMRequest) :
    Prop where
  credits : t.mode = .credits → req.provider = cfg.activeProvider ∧ req.apiKey = none
  byok : t.mode = .byok → ∃ key, d.keys t.userId = some key ∧ key.provider = some req.provider ∧
    req.apiKey = some key.plaintext
  mode : req.dialogMode = t.dialogMode
  model : t.dialogMode ≠ "deep_thinking" → req.OwnModel cfg
  /-- The model of the session is named whenever the client has it. -/
  session : t.dialogMode ≠ "deep_thinking" → ∀ m ∈ t.model,
    m ∈ cfg.allowedModelsFor req.provider → req.model = some m
  forced : t.dialogMode = "deep_thinking" → req.model = some cfg.deepThinkingModel
  attachments : req.provider = cfg.activeProvider →
    ∀ a ∈ req.attachments, ∀ b ∈ a.contentBlocks, b.InFormat req.provider
  replayed : req.replayed = payloads.filterMap Payload.assistantContent

section

variable {cfg : Config} {t : Turn} {provider : Provider}

theorem mem_modelForProvider {model : Option String} {m : String}
    (h : modelForProvider cfg model provider = some m) :
    model = some m ∧ m ∈ cfg.allowedModelsFor provider := by
  unfold modelForProvider at h
  simpa [Option.filter_eq_some_iff] using h

theorem modelForProvider_of_mem {m : String} (h : m ∈ cfg.allowedModelsFor provider) :
    modelForProvider cfg (some m) provider = some m := by
  simp [modelForProvider, h]

/-- Outside of deep thinking the effective model is the client's own. -/
theorem Turn.effectiveModel_own (h : t.dialogMode ≠ "deep_thinking") {m : String}
    (hm : t.effectiveModel cfg provider = some m) :
    m ∈ cfg.allowedModelsFor provider ∨ m = cfg.byokDefaultModelFor provider := by
  unfold Turn.effectiveModel at hm
  rw [if_neg h] at hm
  cases hmode : t.mode with
  | credits =>
    rw [hmode] at hm
    exact .inl (mem_modelForProvider hm).2
  | byok =>
    rw [hmode] at hm
    have hm := Option.some.inj hm
    cases hf : modelForProvider cfg t.model provider with
    | none =>
      rw [hf] at hm
      exact .inr hm.symm
    | some m' =>
      rw [hf] at hm
      obtain rfl : m' = m := hm
      exact .inl (mem_modelForProvider hf).2

theorem Turn.effectiveModel_session (h : t.dialogMode ≠ "deep_thinking") {m : String}
    (hm : t.model = some m) (hmem : m ∈ cfg.allowedModelsFor provider) :
    t.effectiveModel cfg provider = some m := by
  unfold Turn.effectiveModel
  rw [if_neg h, hm, modelForProvider_of_mem hmem]
  cases t.mode <;> rfl

@[simp] theorem Payload.message_assistantContent (p : Payload) :
    p.message.assistantContent = p.assistantContent := by
  cases p with
  | user content prompt =>
    show (Payload.user content prompt).message.assistantContent = none
    rw [Payload.message]
    split <;> rfl
  | assistant content => rfl
  | tool id pid name result error => rfl

/-- The assistant messages are the assistant steps, as they are. -/
theorem replayed_messagesOf (payloads : List Payload) :
    (messagesOf payloads).filterMap NeutralMessage.assistantContent =
      payloads.filterMap Payload.assistantContent := by
  rw [messagesOf, List.filterMap_map]
  congr 1
  funext p
  exact p.message_assistantContent

theorem Turn.call_coherent {att : Option PreparedAttachments} (rs : List Round) (d d₀ : ChatDb)
    (m : ChatMem) (hp : t.provider cfg = some provider)
    (hkey : d₀.resolvedKey t.userId t.mode = some (t.apiKey, t.byokProvider))
    (hatt : ∀ a ∈ att, a.For cfg.activeProvider) :
    Coherent cfg t d₀ (history t.temporary t.sessionId d m) (t.call cfg provider att rs d m) where
  credits hmode := by
    rw [hmode] at hkey
    rw [Turn.provider, hmode] at hp
    exact ⟨(Option.some.inj hp).symm, (Prod.mk.inj (Option.some.inj hkey)).1.symm⟩
  byok hmode := by
    rw [hmode] at hkey
    rw [Turn.provider, hmode] at hp
    obtain ⟨key, hkeys, heq⟩ := Option.map_eq_some_iff.1 hkey
    obtain ⟨hplain, hprovider⟩ := Prod.mk.inj heq
    exact ⟨key, hkeys, hprovider.trans hp, hplain.symm⟩
  mode := rfl
  model h := fun m hm => t.effectiveModel_own h hm
  session h := fun m hm hmem => t.effectiveModel_session h hm hmem
  forced h := by
    show t.effectiveModel cfg provider = _
    rw [Turn.effectiveModel, if_pos h]
  attachments hactive := by
    intro a ha b hb
    have ha : a ∈ if rs = [] then att else none := ha
    have hprovider : provider = cfg.activeProvider := hactive
    show b.InFormat provider
    rw [hprovider]
    split at ha
    · exact (hatt a ha).content b hb
    · cases ha
  replayed := replayed_messagesOf _

end

section

variable {llm : LLMAnswer → Prop} {cfg : Config} {ok : ℕ → ChatDb → ChatRequest → Prop}
variable {g g' : ℕ} {d d' : ChatDb} {request : ChatRequest} {req : LLMRequest} {m : ChatMem}

theorem Payload.assistantContent_eq {p : Payload} {content : List Block}
    (h : p.assistantContent = some content) : p = .assistant content := by
  cases p with
  | assistant c =>
    obtain rfl : c = content := Option.some.inj h
    rfl
  | user => cases h
  | tool => cases h

theorem Calls.passes (h : Calls llm cfg g d request req g' d' m) :
    ∃ t att rs, Passes llm cfg g d request t req.provider att rs g' d' m ∧
      req = t.call cfg req.provider att rs d' m := by
  cases h with
  | intro h => exact ⟨_, _, _, h, rfl⟩

/-- **The client, the model and the blocks of a provider call**, in any reachable state and for any
request: the call is one of a turn that it is coherent with, and a stored chat replays only what a
provider has once answered. -/
theorem provider_coherence (h : Reached llm cfg ok g d)
    (hc : Calls llm cfg g d request req g' d' m) :
    ∃ t att rs, Passes llm cfg g d request t req.provider att rs g' d' m ∧
      (t.temporary = false → ∃ s ∈ d'.sessions, t.InSession s) ∧
      (t.temporary = true → ∃ run, request = .run run ∧ run.mode = t.mode ∧ run.userId = t.userId) ∧
      Coherent cfg t d (history t.temporary t.sessionId d' m) req ∧
      (t.temporary = false → ∀ content ∈ req.replayed,
        ∃ result, llm (.result result) ∧ result.contentBlocks = content) := by
  obtain ⟨t, att, rs, hpass, hreq⟩ := hc.passes
  have hadds : d.Adds (Payload.Made llm cfg) d' := hpass.adds request.stores_made
  have hcoherent : Coherent cfg t d (history t.temporary t.sessionId d' m) req := by
    obtain ⟨hs, hp, -⟩ := hpass
    cases hs with
    | @intro u _ session _ _ _ d₁ _ _ _ hready hallowed hkey =>
      rw [hreq]
      refine Turn.call_coherent rs d' d m hp ?_ hready.attachments
      refine Eq.trans ?_ hkey
      show d.resolvedKey u session.mode = d₁.resolvedKey u session.mode
      unfold ChatDb.resolvedKey
      rw [(hready.keeps h.fresh).keys]
  refine ⟨t, att, rs, hpass, hpass.session.1, hpass.session.2, hcoherent, fun ht content hcontent => ?_⟩
  rw [hcoherent.replayed, history, if_neg (by simp [ht])] at hcontent
  obtain ⟨p, hp, heq⟩ := List.mem_filterMap.1 hcontent
  obtain ⟨st, hst, rfl⟩ := List.mem_map.1 hp
  have hst : st ∈ d'.steps := List.mem_of_mem_filter ((List.mem_insertionSort _).1 hst)
  have hmade : st.payload.Made llm cfg := by
    rcases hadds st hst with hst | hst
    · exact h.made st hst
    · exact hst
  rw [Payload.assistantContent_eq heq] at hmade
  cases hmade with
  | assistant hl => exact ⟨_, hl, rfl⟩

end

/-! ## A key of the other provider -/

/-- The key's client is called, with its own model: the session's is not one of Anthropic. -/
theorem provider_coherence_smart : ∃ req g' d' m,
    (req.provider = .anthropic ∧ req.model = some "claude-sonnet-4-5" ∧ req.apiKey = some "key") ∧
    ∃ t att rs, Passes anyProvider openaiInstance 0 (keyed .anthropic) (.run (byokMessage "smart")) t
        req.provider att rs g' d' m ∧
      (t.temporary = false → ∃ s ∈ d'.sessions, t.InSession s) ∧
      (t.temporary = true → ∃ run, ChatRequest.run (byokMessage "smart") = .run run ∧
        run.mode = t.mode ∧ run.userId = t.userId) ∧
      Coherent openaiInstance t (keyed .anthropic) (history t.temporary t.sessionId d' m) req ∧
      (t.temporary = false → ∀ content ∈ req.replayed,
        ∃ result, anyProvider (.result result) ∧ result.contentBlocks = content) := by
  have h : (callsOf openaiInstance .silent (.run (byokMessage "smart")) 0 (keyed .anthropic)).any
      (fun x => x.1.provider = .anthropic ∧ x.1.model = some "claude-sonnet-4-5" ∧
        x.1.apiKey = some "key") = true := by
    decide +kernel
  obtain ⟨req, g', d', m, hreq, hcall⟩ := exists_call_of_any (keyed_fresh .anthropic)
    (p := fun req => req.provider = .anthropic ∧ req.model = some "claude-sonnet-4-5" ∧
      req.apiKey = some "key") h
  exact ⟨req, g', d', m, by simpa using hreq,
    provider_coherence (keyed_reached openaiInstance .anthropic) hcall⟩

/-- In deep thinking the reasoning model of the instance goes to the client of the key, whatever its
provider. -/
theorem provider_coherence_fails : ¬∀ (cfg : Config) (g : ℕ) (d : ChatDb) (request : ChatRequest)
    (req : LLMRequest) (g' : ℕ) (d' : ChatDb) (m : ChatMem),
    Reached anyProvider cfg (fun _ _ _ => True) g d →
    Calls anyProvider cfg g d request req g' d' m → req.OwnModel cfg := by
  intro hall
  have h : (callsOf openaiInstance .silent (.run (byokMessage "deep_thinking")) 0
      (keyed .anthropic)).any (fun x => ¬x.1.OwnModel openaiInstance) = true := by
    decide +kernel
  obtain ⟨req, g', d', m, hreq, hcall⟩ := exists_call_of_any (keyed_fresh .anthropic)
    (p := fun req => ¬req.OwnModel openaiInstance) h
  exact absurd (hall openaiInstance 0 _ _ req g' d' m (keyed_reached openaiInstance .anthropic) hcall)
    (by simpa using hreq)

end ChatBackend.Chat

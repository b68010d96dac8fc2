import ChatBackend.Chats.Service
import ChatBackend.Foundations.Splitting

/-!
# What a response looks like

The readers look for flat blocks of the types `text` and `tool_use`, which only Anthropic has. A
response of Anthropic is displayed as it should be when its tool calls have been stored, and a
response of OpenAI when it has neither text nor a tool call (`display_iff`).
-/

namespace ChatBackend.Chats

open Chat Splitting

/-! ## Words -/

/-- The words, with the one that the text has begun with. -/
def wordsOf (s : List Char × List (List Char)) : List (List Char) :=
  if s.1 = [] then s.2 else s.1 :: s.2

theorem words_eq (l : List Char) : words l = wordsOf (l.foldr wordStep ([], [])) := rfl

theorem words_cons_space {c : Char} (h : isSpace c = true) (l : List Char) :
    words (c :: l) = words l := by
  rw [words_eq, words_eq, List.foldr_cons, wordStep, if_pos h]
  rfl

theorem words_dropWhile (l : List Char) : words (l.dropWhile isSpace) = words l := by
  induction l with
  | nil => rfl
  | cons c l ih =>
    by_cases h : isSpace c = true
    · rw [List.dropWhile_cons_of_pos h, ih, words_cons_space h]
    · rw [List.dropWhile_cons_of_neg h]

/-- Spaces at the end do not count. -/
theorem words_append_spaces (l : List Char) {spaces : List Char}
    (h : ∀ c ∈ spaces, isSpace c = true) : words (l ++ spaces) = words l := by
  have hspaces : spaces.foldr wordStep ([], []) = ([], []) := by
    induction spaces with
    | nil => rfl
    | cons c spaces ih =>
      rw [List.foldr_cons, ih fun c hc => h c (List.mem_cons_of_mem _ hc), wordStep,
        if_pos (h c List.mem_cons_self)]
      rfl
  rw [words_eq, words_eq, List.foldr_append, hspaces]

/-- `split` does not see what `strip` removes. -/
theorem words_strip (s : String) : words (strip s).toList = words s.toList := by
  have hsplit : ∀ l : List Char,
      ∃ spaces : List Char, (∀ c ∈ spaces, isSpace c = true) ∧
        (l.reverse.dropWhile isSpace).reverse ++ spaces = l := by
    intro l
    refine ⟨(l.reverse.takeWhile isSpace).reverse, fun c hc => ?_, ?_⟩
    · exact List.all_eq_true.1 List.all_takeWhile c (List.mem_reverse.1 hc)
    · rw [← List.reverse_append, List.takeWhile_append_dropWhile, List.reverse_reverse]
  obtain ⟨spaces, hspaces, hl⟩ := hsplit (s.toList.dropWhile isSpace)
  rw [strip, String.toList_ofList, ← words_append_spaces _ hspaces, hl, words_dropWhile]

theorem truncate_strip (limit : ℕ) (s : String) : truncate limit (strip s) = truncate limit s := by
  rw [truncate, words_strip, truncate]

/-- A text that is not blank has a word. -/
theorem words_ne_nil {l : List Char} {c : Char} (hc : c ∈ l) (hspace : isSpace c = false) :
    ∃ w ∈ words l, w ≠ [] := by
  have hfold : ∃ w ∈ wordsOf (l.foldr wordStep ([], [])), w ≠ [] := by
    induction l with
    | nil => cases hc
    | cons d l ih =>
      rw [List.foldr_cons]
      generalize hs : l.foldr wordStep ([], []) = s at ih ⊢
      rcases List.mem_cons.1 hc with rfl | hmem
      · refine ⟨c :: s.1, ?_, nofun⟩
        rw [wordStep, if_neg (by rw [hspace]; exact nofun), wordsOf, if_neg nofun]
        exact List.mem_cons_self
      · obtain ⟨w, hw, hne⟩ := ih hmem
        unfold wordStep
        split
        · exact ⟨w, hw, hne⟩
        · refine (Classical.em (w = s.1)).elim (fun he => ⟨d :: s.1, ?_, nofun⟩) fun he => ⟨w, ?_, hne⟩
          · rw [wordsOf, if_neg nofun]
            exact List.mem_cons_self
          · rw [wordsOf, if_neg nofun]
            unfold wordsOf at hw
            split at hw
            · exact List.mem_cons_of_mem _ hw
            · rcases List.mem_cons.1 hw with rfl | hw
              · exact absurd rfl he
              · exact List.mem_cons_of_mem _ hw
  exact hfold

/-- A text that is not blank leaves something. -/
theorem truncate_ne_empty {limit : ℕ} (hlimit : 0 < limit) {s : String} (h : isBlank s = false) :
    truncate limit s ≠ "" := by
  obtain ⟨c, hc, hspace⟩ := List.all_eq_false.1 h
  obtain ⟨w, hw, hne⟩ := words_ne_nil hc (by simpa using hspace)
  intro hempty
  have htake : ([' '].intercalate (words s.toList)).take limit = [] := by
    rw [← String.toList_ofList (l := List.take _ _)]
    exact congrArg String.toList hempty
  rw [List.take_eq_nil_iff] at htake
  rcases htake with h0 | hnil
  · omega
  · obtain ⟨c, hc⟩ := List.exists_mem_of_ne_nil w hne
    have hmem : c ∈ [' '].intercalate (words s.toList) := mem_intercalate hw hc
    rw [hnil] at hmem
    cases hmem

/-- A part that is not blank is seen in the joined text. -/
theorem isBlank_joinParts {parts : List String} {t : String} (ht : t ∈ parts)
    (hblank : isBlank t = false) : isBlank (joinParts parts) = false := by
  obtain ⟨c, hc, hspace⟩ := List.all_eq_false.1 hblank
  refine List.all_eq_false.2 ⟨c, ?_, hspace⟩
  rw [joinParts, String.toList_ofList]
  refine mem_intercalate (List.mem_map.2 ⟨t, List.mem_filter.2 ⟨ht, ?_⟩, rfl⟩) hc
  rw [decide_eq_true_eq]
  rintro rfl
  cases hc

/-! ## The stored blocks -/

/-- The type that a dictionary has. -/
theorem hasType_obj {kvs : Dict} {t : String} (h : Dict.get kvs "type" = some (.str t))
    (type : String) : hasType type (.obj kvs) = decide (t = type) := by
  rw [hasType, h]

theorem AnthropicBlock.stored_text (t : String) (annotations : Dict) :
    (text t annotations).stored = .obj [("type", .str "text"), ("text", .str t)] := by
  simp [stored, normalizeBlock, blockWireFields, type, dump, Dict.get]

theorem AnthropicBlock.stored_toolUse (id name : String) (input : Json) (annotations : Dict) :
    (toolUse id name input annotations).stored =
      .obj [("type", .str "tool_use"), ("id", .str id), ("name", .str name), ("input", input)] := by
  simp [stored, normalizeBlock, blockWireFields, type, dump, Dict.get]

/-- A block of another type keeps its type. -/
theorem AnthropicBlock.stored_other (t : OtherType) (fields : Dict) :
    ∃ kvs, (other t fields).stored = .obj kvs ∧ Dict.get kvs "type" = some (.str t) := by
  refine ⟨_, rfl, ?_⟩
  unfold normalizeBlock
  split
  · rename_i name allowed hfind
    have hmem := List.mem_of_find?_eq_some hfind
    have hfirst : ∃ rest, allowed = "type" :: rest := by
      simp only [blockWireFields, List.mem_cons, Prod.mk.injEq, List.not_mem_nil, or_false] at hmem
      rcases hmem with h | h | h | h | h | h <;> exact ⟨_, h.2⟩
    obtain ⟨rest, rfl⟩ := hfirst
    simp [dump, Dict.get]
  · simp [dump, Dict.get]

theorem OutputItem.stored_type (item : OutputItem) : ∃ kvs t, item.stored = .obj kvs ∧
    Dict.get kvs "type" = some (.str t) ∧ t ∉ ["text", "tool_use", "tool_result"] := by
  cases item with
  | message id content status => exact ⟨_, "message", rfl, by simp [Dict.get], by decide⟩
  | functionCall callId id name arguments status =>
    exact ⟨_, "function_call", rfl, by simp [Dict.get], by decide⟩
  | other t fields =>
    have hsub : ["text", "tool_use", "tool_result"] ⊆
        ["text", "tool_use", "tool_result", "message", "function_call"] := by decide
    exact ⟨_, t, rfl, by simp [Dict.get], fun hmem => t.2 (hsub hmem)⟩

/-- What the readers collect from the blocks of a type. -/
theorem filterMap_stored {β : Type} {type : String} {f : Json → β} {g : AnthropicBlock → Option β}
    (h : ∀ b, g b = if hasType type b.stored then some (f b.stored) else none)
    (blocks : List AnthropicBlock) :
    ((blocks.map AnthropicBlock.stored).filter (hasType type)).map f = blocks.filterMap g := by
  induction blocks with
  | nil => rfl
  | cons b blocks ih =>
    rw [List.map_cons, List.filterMap_cons, h b]
    cases hb : hasType type b.stored with
    | true => simp [hb, ih]
    | false => simp [hb, ih]

section Readers

variable (repr : Json → String) (rows : List ToolCallRow)

theorem content_assistant (r : LLMResponse) :
    content (StoredStep.assistant r).payload = r.response.contentBlocks := by
  simp [content, StoredStep.payload, Dict.get]

/-- The text blocks of Anthropic are its text parts. -/
theorem anthropic_texts (blocks : List AnthropicBlock) (stop : Option String) :
    ((blocks.map AnthropicBlock.stored).filter (hasType "text")).map (blockText repr) =
      (Response.anthropic stop blocks).textParts := by
  refine filterMap_stored (fun b => ?_) blocks
  cases b with
  | text t annotations =>
    rw [AnthropicBlock.stored_text]
    simp [hasType, Dict.get, blockText, pyStr]
  | toolUse id name input annotations =>
    rw [AnthropicBlock.stored_toolUse]
    simp [hasType, Dict.get]
  | other t fields =>
    obtain ⟨kvs, hkvs, htype⟩ := AnthropicBlock.stored_other t fields
    have hne : t.1 ≠ "text" := fun he => t.2 (by rw [he]; decide)
    rw [hkvs, hasType_obj htype, decide_eq_false hne]
    rfl

/-- The tool blocks of Anthropic are its tool calls. -/
theorem anthropic_toolUses (blocks : List AnthropicBlock) (stop : Option String) :
    ((blocks.map AnthropicBlock.stored).filter (hasType "tool_use")).map (renderToolUse repr rows) =
      (Response.anthropic stop blocks).calls.map fun c =>
        toolCallEntry ((byProviderId rows c.id).map (·.toolName)) := by
  rw [Response.calls, List.map_filterMap]
  refine filterMap_stored (fun b => ?_) blocks
  cases b with
  | text t annotations =>
    rw [AnthropicBlock.stored_text]
    simp [hasType, Dict.get]
  | toolUse id name input annotations =>
    rw [AnthropicBlock.stored_toolUse]
    simp [hasType, Dict.get, renderToolUse, pyStr]
  | other t fields =>
    obtain ⟨kvs, hkvs, htype⟩ := AnthropicBlock.stored_other t fields
    have hne : t.1 ≠ "tool_use" := fun he => t.2 (by rw [he]; decide)
    rw [hkvs, hasType_obj htype, decide_eq_false hne]
    rfl

/-- No reader finds a block of OpenAI. -/
theorem openai_filter (output : List OutputItem) {type : String}
    (htype : type ∈ ["text", "tool_use", "tool_result"]) :
    (output.map OutputItem.stored).filter (hasType type) = [] := by
  refine List.filter_eq_nil_iff.2 fun block hblock => ?_
  obtain ⟨item, -, rfl⟩ := List.mem_map.1 hblock
  obtain ⟨kvs, t, hkvs, ht, hother⟩ := item.stored_type
  rw [hkvs, hasType_obj ht, decide_eq_true_eq]
  rintro rfl
  exact hother htype

end Readers

/-! ## What should be displayed -/

/-- The entries for some text parts and stored tool calls. -/
def shownEntries (texts : List String) (calls : List WireCall) : List StepsViewStep :=
  (if texts = [] then []
    else [⟨if calls = [] then .assistantMessage else .reasoning, none,
      truncate summaryMaxChars (joinParts texts)⟩]) ++
    calls.map fun c => toolCallEntry (some c.domainName)

/-- The preview for some text parts. -/
def shownPreview (texts : List String) : Option String :=
  if texts = [] then none else some (truncate previewMaxChars (joinParts texts))

/-- The response is displayed by its text parts and its stored tool calls. -/
structure Displayed (repr : Json → String) (uuid : String → Option ℕ) (rows : List ToolCallRow)
    (r : LLMResponse) : Prop where
  view : renderStep repr uuid rows (StoredStep.assistant r).role (StoredStep.assistant r).payload =
    shownEntries r.response.textParts r.response.storedCalls
  preview : preview repr (StoredStep.assistant r).role (StoredStep.assistant r).payload =
    shownPreview r.response.textParts

/-- The responses that are: those of Anthropic whose tool calls have been stored, each under the
name that the row of its provider id has, and those of OpenAI without text and tool calls. -/
def DisplaysWhen (rows : List ToolCallRow) : Response → Prop
  | .anthropic stop blocks =>
    ((Response.anthropic stop blocks).stopReason = .toolUse ∨
      (Response.anthropic stop blocks).calls = []) ∧
    ∀ c ∈ (Response.anthropic stop blocks).calls,
      (byProviderId rows c.id).map (·.toolName) = some c.domainName
  | .openai m output =>
    (Response.openai m output).textParts = [] ∧ (Response.openai m output).calls = []

section Display

variable (repr : Json → String) (uuid : String → Option ℕ) (rows : List ToolCallRow)

theorem role_assistant (r : LLMResponse) : (StoredStep.assistant r).role = "assistant" := rfl

theorem renderStep_assistant (r : LLMResponse) (payload : Dict) :
    renderStep repr uuid rows (StoredStep.assistant r).role payload =
      renderAssistant repr rows payload := by
  rw [role_assistant, renderStep, if_pos rfl]

/-- The preview of an assistant step, by the texts that its reader finds. -/
theorem preview_assistant (r : LLMResponse) :
    preview repr (StoredStep.assistant r).role (StoredStep.assistant r).payload =
      if textFromPayload repr (StoredStep.assistant r).payload = "" then none
      else some (truncate previewMaxChars
        (joinParts (contentTexts repr (StoredStep.assistant r).payload))) := by
  have htext : previewText repr "assistant" (StoredStep.assistant r).payload =
      textFromPayload repr (StoredStep.assistant r).payload := by
    unfold previewText
    exact if_neg fun h => absurd h.1 (by decide)
  unfold preview
  rw [role_assistant, htext]
  dsimp only
  rw [textFromPayload, truncate_strip]

/-- The entries for texts and calls, the entries of the calls apart. -/
theorem toolCallEntry_injective {a b : Option String} (h : toolCallEntry a = toolCallEntry b) :
    a = b := congrArg StepsViewStep.toolName h

/-- A text with a part that is not blank. -/
theorem summary_ne_empty {limit : ℕ} (hlimit : 0 < limit) {texts : List String}
    (hblank : ∀ t ∈ texts, isBlank t = false) (hne : texts ≠ []) :
    truncate limit (joinParts texts) ≠ "" := by
  obtain ⟨t, ht⟩ := List.exists_mem_of_ne_nil texts hne
  exact truncate_ne_empty hlimit (isBlank_joinParts ht (hblank t ht))

/-- What `strip` leaves of such a text. -/
theorem strip_ne_empty {texts : List String} (hblank : ∀ t ∈ texts, isBlank t = false)
    (hne : texts ≠ []) : strip (joinParts texts) ≠ "" := by
  intro hempty
  have hone : truncate 1 (joinParts texts) ≠ "" := summary_ne_empty Nat.one_pos hblank hne
  rw [← truncate_strip, hempty] at hone
  exact hone rfl

/-- The view of a response of Anthropic. -/
theorem view_anthropic {stop : Option String} {blocks : List AnthropicBlock} {r : LLMResponse}
    (hr : r.response = .anthropic stop blocks)
    (hparts : ∀ t ∈ r.response.textParts, isBlank t = false) :
    renderStep repr uuid rows (StoredStep.assistant r).role (StoredStep.assistant r).payload =
      (if r.response.textParts = [] then []
        else [⟨if r.response.calls = [] then .assistantMessage else .reasoning, none,
          truncate summaryMaxChars (joinParts r.response.textParts)⟩]) ++
        r.response.calls.map fun c => toolCallEntry ((byProviderId rows c.id).map (·.toolName)) := by
  have hcontent : content (StoredStep.assistant r).payload = blocks.map AnthropicBlock.stored := by
    rw [content_assistant, hr]
    rfl
  have htools := anthropic_toolUses repr rows blocks stop
  have hnil : (blocks.map AnthropicBlock.stored).filter (hasType "tool_use") = [] ↔
      r.response.calls = [] := by
    rw [← List.map_eq_nil_iff (f := renderToolUse repr rows), htools, List.map_eq_nil_iff, hr]
  rw [renderStep_assistant]
  have hempty : truncate summaryMaxChars (joinParts r.response.textParts) = "" ↔
      r.response.textParts = [] := by
    constructor
    · intro h
      by_contra hne
      exact summary_ne_empty (by decide) hparts hne h
    · intro h
      rw [h]
      rfl
  simp only [renderAssistant, textSummary, contentTexts, hcontent, htools,
    anthropic_texts repr blocks stop, ← hr, hempty, hnil]

theorem preview_anthropic {stop : Option String} {blocks : List AnthropicBlock} {r : LLMResponse}
    (hr : r.response = .anthropic stop blocks)
    (hparts : ∀ t ∈ r.response.textParts, isBlank t = false) :
    preview repr (StoredStep.assistant r).role (StoredStep.assistant r).payload =
      shownPreview r.response.textParts := by
  have htexts : contentTexts repr (StoredStep.assistant r).payload = r.response.textParts := by
    rw [contentTexts, content_assistant, hr]
    exact anthropic_texts repr blocks stop
  rw [preview_assistant, textFromPayload, htexts, shownPreview]
  by_cases hnil : r.response.textParts = []
  · rw [if_pos hnil, hnil]
    rfl
  · rw [if_neg hnil, if_neg (strip_ne_empty hparts hnil)]

/-- The view and the preview of a response of OpenAI. -/
theorem readers_openai {m : Bool} {output : List OutputItem} {r : LLMResponse}
    (hr : r.response = .openai m output) :
    renderStep repr uuid rows (StoredStep.assistant r).role (StoredStep.assistant r).payload = [] ∧
      preview repr (StoredStep.assistant r).role (StoredStep.assistant r).payload = none := by
  have hcontent : content (StoredStep.assistant r).payload = output.map OutputItem.stored := by
    rw [content_assistant, hr]
    rfl
  have htexts : contentTexts repr (StoredStep.assistant r).payload = [] := by
    rw [contentTexts, hcontent, openai_filter output (by decide), List.map_nil]
  constructor
  · rw [renderStep_assistant]
    simp only [renderAssistant, textSummary, htexts, hcontent]
    rw [openai_filter output (by decide)]
    rfl
  · rw [preview_assistant, textFromPayload, htexts]
    rfl

/-- The tool calls of a response are stored where it stops for them. -/
theorem Response.storedCalls_eq {response : Response}
    (h : response.stopReason = .toolUse ∨ response.calls = []) :
    response.storedCalls = response.calls := by
  rw [Response.storedCalls]
  split
  · rfl
  · rename_i hstop
    exact (h.resolve_left hstop).symm

/-- The tool calls of OpenAI are all stored. -/
theorem storedCalls_openai (m : Bool) (output : List OutputItem) :
    (Response.openai m output).storedCalls = (Response.openai m output).calls := by
  refine Response.storedCalls_eq ?_
  cases hcalls : (Response.openai m output).calls with
  | nil => exact .inr rfl
  | cons c calls => exact .inl (by simp [Response.stopReason, hcalls])

/-- **Display.** A stored response whose text parts are not blank is displayed by its text parts
and stored tool calls exactly when the condition holds. -/
theorem display_iff (r : LLMResponse) (hparts : ∀ t ∈ r.response.textParts, isBlank t = false) :
    Displayed repr uuid rows r ↔ DisplaysWhen rows r.response := by
  cases hr : r.response with
  | openai m output =>
    obtain ⟨hview, hpreview⟩ := readers_openai repr uuid rows hr
    constructor
    · rintro ⟨hv, -⟩
      rw [hview, hr, storedCalls_openai] at hv
      obtain ⟨htexts, hcalls⟩ := List.append_eq_nil_iff.1 hv.symm
      refine ⟨?_, List.map_eq_nil_iff.1 hcalls⟩
      by_contra hne
      rw [if_neg hne] at htexts
      cases htexts
    · rintro ⟨htexts, hcalls⟩
      refine ⟨?_, ?_⟩
      · rw [hview, hr, storedCalls_openai, htexts, hcalls]
        rfl
      · rw [hpreview, hr, htexts]
        rfl
  | anthropic stop blocks =>
    have hview := view_anthropic repr uuid rows hr hparts
    have hpreview := preview_anthropic repr hr hparts
    rw [DisplaysWhen, ← hr]
    constructor
    · rintro ⟨hv, -⟩
      rw [hview] at hv
      have hlength : r.response.calls.length = r.response.storedCalls.length := by
        have := congrArg List.length hv
        simp only [shownEntries, List.length_append, List.length_map] at this
        split at this <;> simpa using this
      have hstored : r.response.stopReason = .toolUse ∨ r.response.calls = [] := by
        by_contra hnot
        rw [not_or] at hnot
        rw [Response.storedCalls, if_neg hnot.1] at hlength
        exact hnot.2 (List.length_eq_zero_iff.1 hlength)
      refine ⟨hstored, ?_⟩
      have hcalls := Response.storedCalls_eq hstored
      rw [shownEntries, hcalls, List.append_cancel_left_eq] at hv
      intro c hc
      exact toolCallEntry_injective (List.map_inj_left.1 hv c hc)
    · rintro ⟨hstored, hnames⟩
      have hcalls := Response.storedCalls_eq hstored
      refine ⟨?_, hpreview⟩
      rw [hview, shownEntries, hcalls, List.append_cancel_left_eq]
      exact List.map_inj_left.2 fun c hc => by rw [hnames c hc]

end Display

/-- A response of OpenAI with the text "Hello". -/
def helloOpenai : LLMResponse where
  response := .openai false [.message "msg_1" [.outputText "Hello" (.arr [])] "completed"]
  known := nofun

/-- A response of Anthropic with the text "Hello" and a tool call. -/
def helloAnthropic : LLMResponse where
  response := .anthropic (some "tool_use")
    [.text "Hello" [], .toolUse "toolu_1" "time_now" (.obj []) []]
  known := by decide

/-- The tool call of the response is stored. -/
theorem display_anthropic : DisplaysWhen [⟨0, "time.now", "toolu_1"⟩] helloAnthropic.response ∧
    Displayed (fun _ => "") (fun _ => none) [⟨0, "time.now", "toolu_1"⟩] helloAnthropic := by
  have hwhen : DisplaysWhen [⟨0, "time.now", "toolu_1"⟩] helloAnthropic.response :=
    ⟨.inl rfl, by decide⟩
  exact ⟨hwhen, (display_iff _ _ _ helloAnthropic (by decide)).2 hwhen⟩

/-- The text of OpenAI is not displayed. -/
theorem display_fails : helloOpenai.response.textParts = ["Hello"] ∧
    renderStep (fun _ => "") (fun _ => none) [] (StoredStep.assistant helloOpenai).role
      (StoredStep.assistant helloOpenai).payload = [] ∧
    shownEntries helloOpenai.response.textParts helloOpenai.response.storedCalls =
      [⟨.assistantMessage, none, "Hello"⟩] ∧
    ¬ Displayed (fun _ => "") (fun _ => none) [] helloOpenai := by
  have hview : renderStep (fun _ => "") (fun _ => none) [] (StoredStep.assistant helloOpenai).role
      (StoredStep.assistant helloOpenai).payload = [] := (readers_openai _ _ _ rfl).1
  have hshown : shownEntries helloOpenai.response.textParts helloOpenai.response.storedCalls =
      [⟨.assistantMessage, none, "Hello"⟩] := by decide +kernel
  refine ⟨rfl, hview, hshown, fun h => ?_⟩
  have hv := h.view
  rw [hview, hshown] at hv
  cases hv

end ChatBackend.Chats

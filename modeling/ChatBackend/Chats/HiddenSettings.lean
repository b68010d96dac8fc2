import ChatBackend.Chats.ContextBlock
import ChatBackend.Chats.Projection

/-!
# Hidden settings

What the list of chats and the history show of a user step, against the settings and the hidden
prompt that the step is stored with. The prompt never shows. The settings show in a message without
text, in one whose free settings have a bracket, and by their absence in a message that looks like
settings itself (`settings_hidden`).
-/

namespace ChatBackend.Chats

open Chat Splitting

/-! ## User steps -/

/-- The text of a text block. -/
def plainText : Block → Option String
  | .text t => some t
  | _ => none

/-- The texts of the placeholders of the attachments. -/
def placeholderTexts (prepared : Option PreparedAttachments) : List String :=
  ((prepared.map (·.placeholders)).getD []).filterMap plainText

/-- The user step of a turn, as `run` stores it. -/
def userStep (lower : String → String) (context : Option Dict) (msg : String)
    (prepared : Option PreparedAttachments) (actionPrompt : Option String) : StoredStep :=
  let text := composeTurn0Text (renderContextBlock lower context) msg
  .user ((if text = "" then [] else [text]) ++ placeholderTexts prepared)
    (resolveActionPrompt actionPrompt)

/-- What is shown of a step: the preview of a chat that ends with it, and its entry in the
history. -/
def shown (repr : Json → String) (idText : ℕ → String) (rows : List ToolCallRow) (s : StoredStep) :
    Option String × Dict :=
  (preview repr s.role s.payload, normalizePayload repr idText rows s.role s.payload)

/-- The preview of a user step with the texts. -/
def userPreview (texts : List String) : Option String :=
  let text := stripContextBlock (strip (joinParts texts))
  if text = "" then none else some (truncate previewMaxChars text)

section Shown

variable (repr : Json → String) (idText : ℕ → String) (rows : List ToolCallRow)

/-- The readers see the texts only. -/
theorem shown_user (texts : List String) (p : Option String) :
    shown repr idText rows (.user texts p) =
      (userPreview texts, [("content", .arr ((withoutContextBlock texts).map textBlock))]) := by
  have htexts : contentTexts repr (StoredStep.user texts p).payload = texts := by
    have hcontent : content (StoredStep.user texts p).payload = texts.map textBlock := rfl
    unfold contentTexts
    rw [hcontent, List.filter_eq_self.2, List.map_map]
    · exact (List.map_congr_left fun t _ => by simp [blockText, Dict.get, pyStr]).trans
        (List.map_id _)
    · intro block hblock
      obtain ⟨t, -, rfl⟩ := List.mem_map.1 hblock
      simp [hasType, Dict.get]
  have htext : previewText repr "user" (StoredStep.user texts p).payload =
      stripContextBlock (strip (joinParts texts)) := by
    unfold previewText
    rw [textFromPayload, htexts]
    dsimp only
    split_ifs with h
    · rfl
    · have hempty : strip (joinParts texts) = "" := by simpa using h
      rw [hempty]
      decide
  have hpreview : preview repr "user" (StoredStep.user texts p).payload = userPreview texts := by
    unfold preview userPreview
    rw [htext]
  have hrole : (StoredStep.user texts p).role = "user" := rfl
  rw [shown, hrole, hpreview, normalize_user]

end Shown

/-! ## The shown texts -/

/-- `rstrip`. -/
def rstrip (l : List Char) : List Char := (l.reverse.dropWhile isSpace).reverse

/-- What starts and ends with text is not changed by `strip` in front of the end. -/
theorem strip_append {c : Char} (hc : isSpace c = false) (front : List Char) {l : List Char}
    (hl : ∃ d ∈ l, isSpace d = false) :
    strip (String.ofList (c :: front ++ l)) = String.ofList (c :: front ++ rstrip l) := by
  have hdrop : l.reverse.dropWhile isSpace ≠ [] := by
    intro hnil
    obtain ⟨d, hd, hspace⟩ := hl
    have hall := List.dropWhile_eq_nil_iff.1 hnil d (List.mem_reverse.2 hd)
    rw [hspace] at hall
    cases hall
  have hempty : (l.reverse.dropWhile isSpace).isEmpty = false := by
    cases hcase : l.reverse.dropWhile isSpace with
    | nil => exact absurd hcase hdrop
    | cons d rest => rfl
  rw [strip, String.toList_ofList, List.cons_append,
    List.dropWhile_cons_of_neg (by rw [hc]; exact fun h => by cases h), ← List.cons_append,
    List.reverse_append,
    List.dropWhile_append, hempty]
  simp [rstrip]

/-- `rstrip` keeps the words. -/
theorem words_rstrip (l : List Char) : words (rstrip l) = words l := by
  have hspaces : ∀ c ∈ (l.reverse.takeWhile isSpace).reverse, isSpace c = true :=
    fun c hc => List.all_eq_true.1 List.all_takeWhile c (List.mem_reverse.1 hc)
  rw [← words_append_spaces (rstrip l) hspaces, rstrip, ← List.reverse_append,
    List.takeWhile_append_dropWhile, List.reverse_reverse]

/-- Something in front of the first text is in front of the joined text. -/
theorem joinParts_append (front : String) {t : String} (ht : t ≠ "") (texts : List String) :
    (joinParts ((front ++ t) :: texts)).toList = front.toList ++ (joinParts (t :: texts)).toList := by
  have hfront : front ++ t ≠ "" := by
    intro h
    have hnil := congrArg String.toList h
    rw [String.toList_append] at hnil
    exact ht (String.toList_eq_nil_iff.1 (List.append_eq_nil_iff.1 hnil).2)
  have hfilter : ∀ s : String, s ≠ "" →
      (s :: texts).filter (· ≠ "") = s :: texts.filter (· ≠ "") :=
    fun s hs => List.filter_cons_of_pos (decide_eq_true hs)
  unfold joinParts
  rw [hfilter _ hfront, hfilter _ ht,
    String.toList_ofList, String.toList_ofList, List.map_cons, List.map_cons]
  generalize (texts.filter (· ≠ "")).map String.toList = rest
  by_cases hrest : rest = []
  · subst hrest
    rw [List.intercalate_singleton, List.intercalate_singleton, String.toList_append]
  · rw [List.intercalate_cons_of_ne_nil hrest, List.intercalate_cons_of_ne_nil hrest,
      String.toList_append, List.append_assoc, List.append_assoc]
    simp

/-! ## What hides the settings -/

/-- All that is shown is what is shown of the message and the attachments alone, so two such steps
show the same. -/
structure NoLeak (repr : Json → String) (idText : ℕ → String) (rows : List ToolCallRow)
    (lower : String → String) (msg : String) (prepared : Option PreparedAttachments)
    (context₁ context₂ : Option Dict) (prompt₁ prompt₂ : Option String) : Prop where
  hidden₁ : shown repr idText rows (userStep lower context₁ msg prepared prompt₁) =
    shown repr idText rows (userStep lower none msg prepared none)
  hidden₂ : shown repr idText rows (userStep lower context₂ msg prepared prompt₂) =
    shown repr idText rows (userStep lower none msg prepared none)
  alike : shown repr idText rows (userStep lower context₁ msg prepared prompt₁) =
    shown repr idText rows (userStep lower context₂ msg prepared prompt₂)

/-- The settings do not show: there are none, or they come without a bracket in front of a message
with text that does not look like settings, neither alone nor trimmed and with its placeholders (or
what follows there starts with the same characters as the whole). -/
def HiddenWhen (lower : String → String) (msg : String) (prepared : Option PreparedAttachments)
    (context : Option Dict) : Prop :=
  SetsNothing lower context ∨
    (¬ Bracketed context ∧ isBlank msg = false ∧ (∀ rest, ¬ Leads msg rest) ∧
      let own := joinParts (msg :: placeholderTexts prepared)
      ∀ rest, Leads (strip own) rest →
        truncate previewMaxChars (String.ofList rest) = truncate previewMaxChars own)

section Hidden

variable {lower : String → String} {context : Option Dict} {msg block : String}
  {texts : List String}

theorem ne_empty_of_not_blank (h : isBlank msg = false) : msg ≠ "" := by
  rintro rfl
  cases h

/-- A preview that shows the text. -/
theorem userPreview_eq_some {own : String} (h : isBlank own = false) :
    userPreview texts = some (truncate previewMaxChars own) ↔
      truncate previewMaxChars (stripContextBlock (strip (joinParts texts))) =
        truncate previewMaxChars own := by
  have hown : truncate previewMaxChars own ≠ "" := truncate_ne_empty (by decide) h
  have hempty : truncate previewMaxChars "" = "" := by decide
  unfold userPreview
  dsimp only
  split_ifs with htext
  · rw [htext, hempty]
    exact ⟨fun h => (nomatch h), fun h => absurd h.symm hown⟩
  · rw [Option.some_inj]

/-- A cut text is not longer. -/
theorem length_stripContextBlock_le (text : String) :
    (stripContextBlock text).toList.length ≤ text.toList.length := by
  by_cases hleads : ∃ rest, Leads text rest
  · obtain ⟨rest, hrest⟩ := hleads
    rw [stripContextBlock_of_leads hrest, String.toList_ofList]
    exact Nat.le_of_lt hrest.length_lt
  · rw [stripContextBlock_of_not_leads (not_exists.1 hleads)]

/-- The preview behind a block that is cut off. -/
theorem preview_block (hblock : IsBlock context block) (hfree : ¬ Bracketed context)
    (hmsg : isBlank msg = false) :
    userPreview (composeTurn0Text (some block) msg :: texts) =
      some (truncate previewMaxChars (joinParts (msg :: texts))) := by
  have hown : isBlank (joinParts (msg :: texts)) = false :=
    isBlank_joinParts List.mem_cons_self hmsg
  obtain ⟨d, hd, hspace⟩ := List.all_eq_false.1 hown
  obtain ⟨front, hfront⟩ : ∃ front, (block ++ "\n\n").toList = '[' :: front := by
    obtain ⟨body, hblock, -⟩ := hblock
    rw [String.toList_append, hblock]
    exact ⟨_, rfl⟩
  have hcompose : composeTurn0Text (some block) msg = block ++ "\n\n" ++ msg := by
    unfold composeTurn0Text
    exact if_neg (by rw [hmsg]; exact nofun)
  have hstrip : strip (joinParts (composeTurn0Text (some block) msg :: texts)) =
      block ++ "\n\n" ++ String.ofList (rstrip (joinParts (msg :: texts)).toList) := by
    rw [hcompose, ← String.ofList_toList (s := joinParts ((block ++ "\n\n" ++ msg) :: texts)),
      joinParts_append _ (ne_empty_of_not_blank hmsg), hfront,
      strip_append (by decide) _ ⟨d, hd, by simpa using hspace⟩, ← hfront]
    refine String.toList_inj.1 ?_
    simp
  rw [userPreview_eq_some hown, hstrip, stripContextBlock_of_leads (hblock.leads hfree _).2,
    String.toList_ofList, truncate, String.toList_ofList, words_rstrip]
  rfl

/-- The preview of the message and the attachments alone. -/
theorem preview_own (hmsg : isBlank msg = false) :
    userPreview (msg :: texts) = some (truncate previewMaxChars (joinParts (msg :: texts))) ↔
      ∀ rest, Leads (strip (joinParts (msg :: texts))) rest →
        truncate previewMaxChars (String.ofList rest) =
          truncate previewMaxChars (joinParts (msg :: texts)) := by
  rw [userPreview_eq_some (isBlank_joinParts List.mem_cons_self hmsg)]
  by_cases hleads : ∃ rest, Leads (strip (joinParts (msg :: texts))) rest
  · obtain ⟨rest, hrest⟩ := hleads
    rw [stripContextBlock_of_leads hrest]
    refine ⟨fun h rest' hrest' => ?_, fun h => h rest hrest⟩
    rw [← stripContextBlock_of_leads hrest', stripContextBlock_of_leads hrest, h]
  · rw [stripContextBlock_of_not_leads (not_exists.1 hleads), truncate_strip]
    exact ⟨fun _ rest hrest => absurd ⟨rest, hrest⟩ hleads, fun _ => rfl⟩

variable (repr : Json → String) (idText : ℕ → String) (rows : List ToolCallRow)

/-- Steps that show the same have the same texts up to the block. -/
theorem shown_inj {texts₁ texts₂ : List String} {p₁ p₂ : Option String} :
    shown repr idText rows (.user texts₁ p₁) = shown repr idText rows (.user texts₂ p₂) ↔
      userPreview texts₁ = userPreview texts₂ ∧
        withoutContextBlock texts₁ = withoutContextBlock texts₂ := by
  have hblock : Function.Injective textBlock := by
    intro t t' h
    simpa using h
  rw [shown_user, shown_user, Prod.mk.injEq]
  refine and_congr_right fun _ => ⟨fun h => hblock.list_map ?_, fun h => by rw [h]⟩
  simpa using h

/-- What is shown of a step is what is shown without settings and prompt, when the settings are
hidden. -/
theorem hidden_iff (prepared : Option PreparedAttachments) (prompt : Option String) :
    shown repr idText rows (userStep lower context msg prepared prompt) =
        shown repr idText rows (userStep lower none msg prepared none) ↔
      HiddenWhen lower msg prepared context := by
  have hnone : renderContextBlock lower none = none := rfl
  unfold userStep
  rw [hnone, composeTurn0Text_none, shown_inj]
  obtain ⟨hnothing, hrender⟩ | ⟨hsome, block, hrender, hblock⟩ := renderContextBlock_spec lower context
  · rw [hrender, composeTurn0Text_none]
    exact ⟨fun _ => .inl hnothing, fun _ => ⟨rfl, rfl⟩⟩
  · have hcompose : composeTurn0Text (some block) msg ≠ "" := by
      obtain ⟨body, htext, -⟩ := hblock
      intro hempty
      have hnil := congrArg String.toList hempty
      rw [composeTurn0Text_some, htext] at hnil
      simp at hnil
    rw [hrender, if_neg hcompose, HiddenWhen, or_iff_right hsome]
    cases hblank : isBlank msg with
    | true =>
      -- The block leaves a text block behind, empty or not.
      have hown : ownText msg = "" := if_pos hblank
      rw [hown, if_pos rfl]
      refine ⟨fun h => ?_, fun h => by cases h.2.1⟩
      have hlength := congrArg List.length h.2
      cases htexts : placeholderTexts prepared with
      | nil => simp [htexts, withoutContextBlock] at hlength
      | cons t texts => simp [htexts, withoutContextBlock] at hlength
    | false =>
      have hown : ownText msg = msg := if_neg (by rw [hblank]; exact fun h => by cases h)
      rw [hown, if_neg (ne_empty_of_not_blank hblank)]
      show userPreview (_ :: placeholderTexts prepared) = userPreview (msg :: placeholderTexts prepared) ∧
        stripContextBlock _ :: placeholderTexts prepared =
          stripContextBlock msg :: placeholderTexts prepared ↔ _
      rw [List.cons.injEq, and_iff_left rfl]
      by_cases hbracketed : Bracketed context
      · rw [hblock.strip_compose_of_bracketed hbracketed]
        refine ⟨fun h => absurd h.2 (fun heq => ?_), fun h => absurd hbracketed h.1⟩
        have hlength := length_stripContextBlock_le msg
        rw [← heq, composeTurn0Text_some, hblank] at hlength
        simp only [Bool.false_eq_true, if_false, List.length_append, List.length_cons] at hlength
        omega
      · rw [preview_block hblock hbracketed hblank, hblock.strip_compose hbracketed, hown, eq_comm,
          preview_own hblank, eq_comm, stripContextBlock_eq_self]
        exact ⟨fun h => ⟨hbracketed, rfl, h.2, h.1⟩, fun h => ⟨h.2.2.2, h.2.2.1⟩⟩

/-- **The settings and the prompt are hidden** when both steps hide their settings. -/
theorem settings_hidden (lower : String → String) (msg : String)
    (prepared : Option PreparedAttachments) (context₁ context₂ : Option Dict)
    (prompt₁ prompt₂ : Option String) :
    NoLeak repr idText rows lower msg prepared context₁ context₂ prompt₁ prompt₂ ↔
      HiddenWhen lower msg prepared context₁ ∧ HiddenWhen lower msg prepared context₂ := by
  constructor
  · intro h
    exact ⟨(hidden_iff repr idText rows prepared prompt₁).1 h.hidden₁,
      (hidden_iff repr idText rows prepared prompt₂).1 h.hidden₂⟩
  · rintro ⟨h₁, h₂⟩
    have hidden₁ := (hidden_iff repr idText rows prepared prompt₁).2 h₁
    have hidden₂ := (hidden_iff repr idText rows prepared prompt₂).2 h₂
    exact ⟨hidden₁, hidden₂, hidden₁.trans hidden₂.symm⟩

end Hidden

/-- In a message without text the settings show next to an attachment. -/
theorem settings_hidden_fails : ¬ ∀ (prepared : Option PreparedAttachments) (context : Option Dict),
    NoLeak (fun _ => "") (fun _ => "") [] id "" prepared context none none none := by
  intro h
  have hidden := (h (some ⟨[], [placeholder ⟨"image", "image/png", some "a.png", "AAAA"⟩ 3]⟩)
    (some [("tone", .str "formal")])).hidden₁
  rw [hidden_iff] at hidden
  obtain hnothing | ⟨-, hblank, -⟩ := hidden
  · refine hnothing _ rfl "tone" (by decide) "formal" rfl ?_
    exact ⟨by decide, .inr (.inr ⟨by decide, by decide, 'f', by decide, by decide, by decide⟩)⟩
  · cases hblank

end ChatBackend.Chats

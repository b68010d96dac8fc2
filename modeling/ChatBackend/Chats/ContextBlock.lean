import ChatBackend.Chats.Display
import Mathlib

/-!
# The block of the settings

The settings of a message are rendered into one line in front of its text (`_render_context_block`),
and the readers cut that line off again (`strip_context_block`). The values are kept free of newlines,
but not of closing brackets, and the cut is at the first of them: the message comes back exactly
when no free value has a bracket and, if nothing is rendered, the message itself does not start with
such a line (`settings_round_trip`).
-/

namespace ChatBackend.Chats

open Chat Splitting

/-! ## Rendering -/

/-- `_CONTEXT_ENUMS`. -/
def contextEnums : List (String × List String) :=
  [("responseStyle", ["concise", "balanced", "detailed"]), ("verbosity", ["low", "medium", "high"])]

/-- `_CONTEXT_FREE_STRING_MAX`. -/
def contextFreeStringMax : List (String × ℕ) :=
  [("codeLanguage", 40), ("tone", 40), ("locale", 35)]

/-- `_CONTEXT_LOCALE_CHARS`. -/
def isLocaleChar (c : Char) : Bool := c.isAlphanum || c = '_' || c = '-'

/-- `_CONTEXT_KEY_ORDER`. -/
def contextKeyOrder : List String := ["codeLanguage", "responseStyle", "verbosity", "tone", "locale"]

/-- The characters that `_sanitize_context_value` replaces. -/
def isDelimiter (c : Char) : Bool := c = '\n' || c = '\r' || c = ';' || c = '='

/-- `_sanitize_context_value`. -/
def sanitizeContextValue (value : String) : String :=
  let cleaned := value.toList.map fun c => if isDelimiter c then ' ' else c
  String.ofList ([' '].intercalate (words cleaned))

/-- `_validated_context_value`; `lower` is `str.lower`. -/
def validatedContextValue (lower : String → String) (key : String) : Json → Option String
  | .str raw =>
    let value := strip raw
    if value = "" then none
    else match contextEnums.lookup key with
      | some values => if lower value ∈ values then some (lower value) else none
      | none =>
        match contextFreeStringMax.lookup key with
        | none => none
        | some max =>
          if max < value.length then none
          else if key = "locale" then
            if value.toList.all isLocaleChar then some value else none
          else orNone (sanitizeContextValue value)
  | _ => none

/-- The anchor of the block. -/
def contextAnchor : String := "[Conversation settings for this message: "

/-- `key=value` of a key that is present with a valid value. -/
def contextPart (lower : String → String) (context : Dict) (key : String) : Option String := do
  let raw ← Dict.get context key
  let value ← validatedContextValue lower key raw
  pure (key ++ "=" ++ value)

/-- `_render_context_block`. -/
def renderContextBlock (lower : String → String) : Option Dict → Option String
  | none => none
  | some context =>
    match contextKeyOrder.filterMap (contextPart lower context) with
    | [] => none
    | parts => some (contextAnchor ++
        String.ofList ("; ".toList.intercalate (parts.map String.toList)) ++ "]")

/-! ## The characters of a value -/

/-- What the words are made of. -/
theorem mem_words {l : List Char} {c : Char} :
    (∃ w ∈ words l, c ∈ w) ↔ c ∈ l ∧ isSpace c = false := by
  have hwords : ∀ s : List Char × List (List Char),
      (∃ w ∈ wordsOf s, c ∈ w) ↔ c ∈ s.1 ∨ ∃ w ∈ s.2, c ∈ w := by
    intro s
    unfold wordsOf
    split
    · rename_i hnil
      simp [hnil]
    · simp
  rw [words_eq, hwords]
  induction l with
  | nil => simp
  | cons d l ih =>
    rw [List.foldr_cons]
    generalize l.foldr wordStep ([], []) = s at ih ⊢
    unfold wordStep
    by_cases hd : isSpace d = true
    · have hrest : (c ∈ ([] : List Char) ∨ ∃ w ∈ wordsOf s, c ∈ w) ↔ c ∈ l ∧ isSpace c = false := by
        rw [hwords]
        exact Iff.trans (by simp) ih
      rw [if_pos hd]
      refine hrest.trans ⟨fun h => ⟨.tail _ h.1, h.2⟩, fun ⟨hmem, hspace⟩ => ?_⟩
      obtain rfl | hmem := List.mem_cons.1 hmem
      · exact absurd hd (by rw [hspace]; exact nofun)
      · exact ⟨hmem, hspace⟩
    · rw [if_neg hd]
      have hcons : (c ∈ d :: s.1 ∨ ∃ w ∈ s.2, c ∈ w) ↔ c = d ∨ (c ∈ s.1 ∨ ∃ w ∈ s.2, c ∈ w) := by
        rw [List.mem_cons, or_assoc]
      show (c ∈ d :: s.1 ∨ ∃ w ∈ s.2, c ∈ w) ↔ _
      refine (hcons.trans (or_congr_right ih)).trans ?_
      rw [List.mem_cons]
      constructor
      · rintro (rfl | h)
        · exact ⟨.inl rfl, by simpa using hd⟩
        · exact ⟨.inr h.1, h.2⟩
      · rintro ⟨rfl | h, hspace⟩
        · exact .inl rfl
        · exact .inr ⟨h, hspace⟩

/-- No word is empty. -/
theorem ne_nil_of_mem_words {l w : List Char} (h : w ∈ words l) : w ≠ [] := by
  have hwords : ∀ s : List Char × List (List Char), (∀ v ∈ s.2, v ≠ []) →
      ∀ v ∈ wordsOf s, v ≠ [] := by
    intro s hs v hv
    unfold wordsOf at hv
    split at hv
    · exact hs v hv
    · rename_i hne
      obtain rfl | hv := List.mem_cons.1 hv
      · exact hne
      · exact hs v hv
  rw [words_eq] at h
  refine hwords _ ?_ w h
  clear h
  induction l with
  | nil => exact fun v hv => absurd hv List.not_mem_nil
  | cons c l ih =>
    intro v hv
    rw [List.foldr_cons, wordStep] at hv
    split at hv
    · exact hwords _ ih v hv
    · exact ih v hv

/-- `strip` removes spaces only. -/
theorem mem_strip {s : String} {c : Char} (hc : isSpace c = false) :
    c ∈ (strip s).toList ↔ c ∈ s.toList := by
  have h := mem_words (l := (strip s).toList) (c := c)
  rw [words_strip, mem_words] at h
  simpa [hc] using h.symm

theorem strip_eq_empty {s : String} : strip s = "" ↔ isBlank s = true := by
  constructor
  · intro h
    refine List.all_eq_true.2 fun c hc => ?_
    by_contra hspace
    have hmem : c ∈ (strip s).toList := (mem_strip (by simpa using hspace)).2 hc
    rw [h] at hmem
    exact absurd hmem List.not_mem_nil
  · intro h
    rw [strip, List.dropWhile_eq_nil_iff.2 (List.all_eq_true.1 h)]
    rfl

/-- The characters of a sanitised value. -/
theorem mem_sanitizeContextValue {value : String} {c : Char} (hc : isSpace c = false) :
    c ∈ (sanitizeContextValue value).toList ↔ c ∈ value.toList ∧ isDelimiter c = false := by
  have hmap : c ∈ (value.toList.map fun d => if isDelimiter d then ' ' else d) ↔
      c ∈ value.toList ∧ isDelimiter c = false := by
    rw [List.mem_map]
    constructor
    · rintro ⟨d, hd, rfl⟩
      split at hc
      · exact absurd hc (by decide)
      · rename_i hdelim
        rw [if_neg hdelim]
        exact ⟨hd, by simpa using hdelim⟩
    · rintro ⟨hmem, hdelim⟩
      exact ⟨c, hmem, if_neg (by rw [hdelim]; exact nofun)⟩
  rw [sanitizeContextValue, String.toList_ofList, ← hmap]
  constructor
  · intro h
    obtain hsep | hw := mem_of_mem_intercalate h
    · rw [List.mem_singleton.1 hsep] at hc
      exact absurd hc (by decide)
    · exact (mem_words.1 hw).1
  · intro h
    obtain ⟨w, hw, hcw⟩ := mem_words.2 ⟨h, hc⟩
    exact mem_intercalate hw hcw

/-- What is left of a value that has more than spaces and delimiters. -/
theorem sanitizeContextValue_ne_empty {value : String} : sanitizeContextValue value ≠ "" ↔
    ∃ c ∈ value.toList, isSpace c = false ∧ isDelimiter c = false := by
  constructor
  · intro hne
    have hwords : words (value.toList.map fun c => if isDelimiter c then ' ' else c) ≠ [] := by
      intro hnil
      rw [sanitizeContextValue, hnil] at hne
      exact hne rfl
    obtain ⟨w, hw⟩ := List.exists_mem_of_ne_nil _ hwords
    obtain ⟨c, hc⟩ := List.exists_mem_of_ne_nil _ (ne_nil_of_mem_words hw)
    have hspace : isSpace c = false := (mem_words.1 ⟨w, hw, hc⟩).2
    have hmem : c ∈ (sanitizeContextValue value).toList := by
      rw [sanitizeContextValue, String.toList_ofList]
      exact mem_intercalate hw hc
    have hchar := (mem_sanitizeContextValue hspace).1 hmem
    exact ⟨c, hchar.1, hspace, hchar.2⟩
  · rintro ⟨c, hc, hspace, hdelim⟩ hempty
    have hmem := (mem_sanitizeContextValue hspace).2 ⟨hc, hdelim⟩
    rw [hempty] at hmem
    exact absurd hmem List.not_mem_nil

/-- A sanitised value is one line. -/
theorem newline_not_mem_sanitizeContextValue (value : String) :
    '\n' ∉ (sanitizeContextValue value).toList := by
  intro h
  rw [sanitizeContextValue, String.toList_ofList] at h
  obtain hsep | hw := mem_of_mem_intercalate h
  · exact absurd hsep (by decide)
  · exact absurd (mem_words.1 hw).2 (by decide)

/-- The keys whose values are free texts. -/
def freeKeys : List String := ["codeLanguage", "tone"]

/-- A text that is valid under a key: it is not blank, and it is one of the values, a locale, or a
short text with more than delimiters. -/
def Accepts (lower : String → String) (key raw : String) : Prop :=
  isBlank raw = false ∧
    ((∃ values, (key, values) ∈ contextEnums ∧ lower (strip raw) ∈ values) ∨
      (key = "locale" ∧ (strip raw).length ≤ 35 ∧ (strip raw).toList.all isLocaleChar) ∨
      (key ∈ freeKeys ∧ (strip raw).length ≤ 40 ∧
        ∃ c ∈ raw.toList, isSpace c = false ∧ isDelimiter c = false))

/-- The values of `_CONTEXT_ENUMS` are plain. -/
theorem plain_of_mem_contextEnums {key v : String} {values : List String}
    (h : (key, values) ∈ contextEnums) (hv : v ∈ values) : '\n' ∉ v.toList ∧ ']' ∉ v.toList := by
  have hall : ∀ e ∈ contextEnums, ∀ v ∈ e.2, '\n' ∉ v.toList ∧ ']' ∉ v.toList := by decide
  exact hall _ h _ hv

/-- What `_validated_context_value` makes of a free text. -/
theorem validatedContextValue_free {lower : String → String} {key raw : String}
    (hkey : key ∈ freeKeys) :
    validatedContextValue lower key (.str raw) =
      if (strip raw).length ≤ 40 then orNone (sanitizeContextValue (strip raw)) else none := by
  have hfree : contextEnums.lookup key = none ∧ contextFreeStringMax.lookup key = some 40 ∧
      key ≠ "locale" := by
    have hall : ∀ k ∈ freeKeys, contextEnums.lookup k = none ∧
        contextFreeStringMax.lookup k = some 40 ∧ k ≠ "locale" := by decide
    exact hall key hkey
  have hempty : orNone (sanitizeContextValue "") = none := by decide
  unfold validatedContextValue
  dsimp only
  by_cases hblank : strip raw = ""
  · rw [if_pos hblank, hblank, if_pos (by decide), hempty]
  · rw [if_neg hblank, hfree.1]
    dsimp only
    rw [hfree.2.1]
    dsimp only
    rw [if_neg hfree.2.2]
    by_cases hlen : (strip raw).length ≤ 40
    · rw [if_pos hlen, if_neg (Nat.not_lt.2 hlen)]
    · rw [if_neg hlen, if_pos (Nat.lt_of_not_le hlen)]

/-- What it makes of the value of an enumeration. -/
theorem validatedContextValue_enum {lower : String → String} {key raw : String}
    {values : List String} (hkey : (key, values) ∈ contextEnums) :
    validatedContextValue lower key (.str raw) =
      if strip raw = "" then none
      else if lower (strip raw) ∈ values then some (lower (strip raw)) else none := by
  have hall : ∀ e ∈ contextEnums, contextEnums.lookup e.1 = some e.2 := by decide
  have hlookup : contextEnums.lookup key = some values := hall _ hkey
  unfold validatedContextValue
  dsimp only
  rw [hlookup]

/-- What it makes of a locale. -/
theorem validatedContextValue_locale {lower : String → String} {raw : String} :
    validatedContextValue lower "locale" (.str raw) =
      if strip raw = "" then none
      else if 35 < (strip raw).length then none
      else if (strip raw).toList.all isLocaleChar then some (strip raw) else none := by
  have henum : contextEnums.lookup "locale" = none := by decide
  have hmax : contextFreeStringMax.lookup "locale" = some 35 := by decide
  unfold validatedContextValue
  dsimp only
  rw [henum, hmax]
  dsimp only
  rw [if_pos rfl]

/-- The keys are of three kinds. -/
theorem kinds_of_mem_contextKeyOrder {key : String} (h : key ∈ contextKeyOrder) :
    key ∈ freeKeys ∨ (∃ values, (key, values) ∈ contextEnums) ∨ key = "locale" := by
  simp only [contextKeyOrder, List.mem_cons, List.not_mem_nil, or_false] at h
  rcases h with rfl | rfl | rfl | rfl | rfl
  · exact .inl (by decide)
  · exact .inr (.inl ⟨_, .head _⟩)
  · exact .inr (.inl ⟨_, .tail _ (.head _)⟩)
  · exact .inl (by decide)
  · exact .inr (.inr rfl)

/-- A free key is neither an enumeration nor the locale. -/
theorem not_enum_of_mem_freeKeys {key : String} (h : key ∈ freeKeys) :
    (∀ values, (key, values) ∉ contextEnums) ∧ key ≠ "locale" := by
  have hall : ∀ k ∈ freeKeys, (∀ e ∈ contextEnums, e.1 ≠ k) ∧ k ≠ "locale" := by decide
  exact ⟨fun values hmem => (hall key h).1 _ hmem rfl, (hall key h).2⟩

/-- The locale is no enumeration. -/
theorem locale_not_mem_contextEnums (values : List String) : ("locale", values) ∉ contextEnums := by
  have hall : ∀ e ∈ contextEnums, e.1 ≠ "locale" := by decide
  exact fun hmem => hall _ hmem rfl

/-- A value that survives is one line, and its brackets are those of a free text. -/
theorem chars_of_validatedContextValue {lower : String → String} {key raw v : String}
    (hkey : key ∈ contextKeyOrder) (h : validatedContextValue lower key (.str raw) = some v) :
    '\n' ∉ v.toList ∧ (']' ∈ v.toList ↔ key ∈ freeKeys ∧ ']' ∈ raw.toList) := by
  rcases kinds_of_mem_contextKeyOrder hkey with hfree | ⟨values, henum⟩ | rfl
  · rw [validatedContextValue_free hfree, Option.ite_none_right_eq_some, orNone,
      Option.ite_none_left_eq_some, Option.some_inj] at h
    obtain ⟨-, -, rfl⟩ := h
    refine ⟨newline_not_mem_sanitizeContextValue _, ?_⟩
    rw [mem_sanitizeContextValue (by decide), mem_strip (by decide)]
    exact ⟨fun hmem => ⟨hfree, hmem.1⟩, fun hmem => ⟨hmem.2, by decide⟩⟩
  · rw [validatedContextValue_enum henum, Option.ite_none_left_eq_some,
      Option.ite_none_right_eq_some, Option.some_inj] at h
    obtain ⟨-, hmem, rfl⟩ := h
    have hplain := plain_of_mem_contextEnums henum hmem
    exact ⟨hplain.1, fun hv => absurd hv hplain.2,
      fun hv => absurd henum ((not_enum_of_mem_freeKeys hv.1).1 values)⟩
  · rw [validatedContextValue_locale, Option.ite_none_left_eq_some, Option.ite_none_left_eq_some,
      Option.ite_none_right_eq_some, Option.some_inj] at h
    obtain ⟨-, -, hchars, rfl⟩ := h
    have hno : ∀ c, isLocaleChar c = false → c ∉ (strip raw).toList := by
      intro c hc hmem
      have hyes := List.all_eq_true.1 hchars c hmem
      rw [hc] at hyes
      cases hyes
    exact ⟨hno _ (by decide), fun hv => absurd hv (hno _ (by decide)),
      fun hv => absurd rfl (not_enum_of_mem_freeKeys hv.1).2⟩

/-- A value survives when it is valid. -/
theorem accepts_iff {lower : String → String} {key raw : String} (hkey : key ∈ contextKeyOrder) :
    Accepts lower key raw ↔ ∃ v, validatedContextValue lower key (.str raw) = some v := by
  have hblank : strip raw = "" ↔ ¬ isBlank raw = false := by
    rw [strip_eq_empty, Bool.not_eq_false]
  rcases kinds_of_mem_contextKeyOrder hkey with hfree | ⟨values, henum⟩ | rfl
  · have hsanitized : ¬ sanitizeContextValue (strip raw) = "" ↔
        ∃ c ∈ raw.toList, isSpace c = false ∧ isDelimiter c = false := by
      refine sanitizeContextValue_ne_empty.trans (exists_congr fun c => ?_)
      exact ⟨fun ⟨hc, h⟩ => ⟨(mem_strip h.1).1 hc, h⟩, fun ⟨hc, h⟩ => ⟨(mem_strip h.1).2 hc, h⟩⟩
    have hkinds := not_enum_of_mem_freeKeys hfree
    simp only [validatedContextValue_free hfree, Option.ite_none_right_eq_some, orNone,
      Option.ite_none_left_eq_some, Option.some_inj, hsanitized]
    constructor
    · rintro ⟨-, ⟨values, henum, -⟩ | ⟨hlocale, -⟩ | ⟨-, hlen, hchar⟩⟩
      · exact absurd henum (hkinds.1 values)
      · exact absurd hlocale hkinds.2
      · exact ⟨_, hlen, hchar, rfl⟩
    · rintro ⟨-, hlen, ⟨c, hc, hspace, hdelim⟩, -⟩
      refine ⟨?_, .inr (.inr ⟨hfree, hlen, c, hc, hspace, hdelim⟩)⟩
      exact List.all_eq_false.2 ⟨c, hc, by rw [hspace]; exact nofun⟩
  · simp only [validatedContextValue_enum henum, Option.ite_none_right_eq_some,
      Option.ite_none_left_eq_some, Option.some_inj, hblank, not_not]
    constructor
    · rintro ⟨hraw, ⟨values', henum', hmem⟩ | ⟨rfl, -⟩ | ⟨hfree, -⟩⟩
      · have hall : ∀ e ∈ contextEnums, ∀ e' ∈ contextEnums, e.1 = e'.1 → e = e' := by decide
        cases hall _ henum _ henum' rfl
        exact ⟨_, hraw, hmem, rfl⟩
      · exact absurd henum (locale_not_mem_contextEnums values)
      · exact absurd henum ((not_enum_of_mem_freeKeys hfree).1 values)
    · rintro ⟨-, hraw, hmem, -⟩
      exact ⟨hraw, .inl ⟨values, henum, hmem⟩⟩
  · simp only [validatedContextValue_locale, Option.ite_none_right_eq_some,
      Option.ite_none_left_eq_some, Option.some_inj, hblank, not_not, Nat.not_lt]
    constructor
    · rintro ⟨hraw, ⟨values, henum, -⟩ | ⟨-, hlen, hchars⟩ | ⟨hfree, -⟩⟩
      · exact absurd henum (locale_not_mem_contextEnums values)
      · exact ⟨_, hraw, hlen, hchars, rfl⟩
      · exact absurd rfl (not_enum_of_mem_freeKeys hfree).2
    · rintro ⟨-, hraw, hlen, hchars, -⟩
      exact ⟨hraw, .inr (.inl ⟨rfl, hlen, hchars⟩)⟩

/-! ## The rendered block -/

/-- No key of the settings has a valid value. -/
def SetsNothing (lower : String → String) (context : Option Dict) : Prop :=
  ∀ d, context = some d → ∀ key ∈ contextKeyOrder, ∀ raw, Dict.get d key = some (.str raw) →
    ¬ Accepts lower key raw

/-- A free setting that is short enough has a closing bracket. -/
def Bracketed (context : Option Dict) : Prop :=
  ∃ d, context = some d ∧ ∃ key ∈ freeKeys, ∃ raw, Dict.get d key = some (.str raw) ∧
    (strip raw).length ≤ 40 ∧ ']' ∈ raw.toList

theorem mem_contextKeyOrder_of_free {key : String} (h : key ∈ freeKeys) : key ∈ contextKeyOrder := by
  have hall : ∀ k ∈ freeKeys, k ∈ contextKeyOrder := by decide
  exact hall key h

/-- A text with a bracket is valid under a free key when it is short enough. -/
theorem accepts_of_bracket {lower : String → String} {key raw : String} (hkey : key ∈ freeKeys)
    (hmem : ']' ∈ raw.toList) : Accepts lower key raw ↔ (strip raw).length ≤ 40 := by
  have hkinds := not_enum_of_mem_freeKeys hkey
  constructor
  · rintro ⟨-, ⟨values, henum, -⟩ | ⟨hlocale, -⟩ | ⟨-, hlen, -⟩⟩
    · exact absurd henum (hkinds.1 values)
    · exact absurd hlocale hkinds.2
    · exact hlen
  · intro hlen
    refine ⟨List.all_eq_false.2 ⟨_, hmem, by decide⟩, .inr (.inr ⟨hkey, hlen, _, hmem, ?_⟩)⟩
    decide

/-- The parts of the block are the valid settings. -/
theorem contextPart_eq_some {lower : String → String} {d : Dict} {key part : String} :
    contextPart lower d key = some part ↔ ∃ raw v, Dict.get d key = some (.str raw) ∧
      validatedContextValue lower key (.str raw) = some v ∧ part = key ++ "=" ++ v := by
  unfold contextPart
  constructor
  · intro h
    obtain ⟨raw, hraw, h⟩ := Option.bind_eq_some_iff.1 h
    obtain ⟨v, hv, h⟩ := Option.bind_eq_some_iff.1 h
    cases h
    cases raw with
    | str raw => exact ⟨raw, v, hraw, hv, rfl⟩
    | _ => cases hv
  · rintro ⟨raw, v, hraw, hv, rfl⟩
    exact Option.bind_eq_some_iff.2 ⟨_, hraw, Option.bind_eq_some_iff.2 ⟨v, hv, rfl⟩⟩

/-- The keys are one plain line each. -/
theorem plain_of_mem_contextKeyOrder {key : String} (h : key ∈ contextKeyOrder) :
    '\n' ∉ (key ++ "=").toList ∧ ']' ∉ (key ++ "=").toList := by
  have hall : ∀ k ∈ contextKeyOrder, '\n' ∉ (k ++ "=").toList ∧ ']' ∉ (k ++ "=").toList := by
    decide
  exact hall key h

/-- The characters of a part. -/
theorem chars_of_contextPart {lower : String → String} {d : Dict} {key part : String}
    (hkey : key ∈ contextKeyOrder) (h : contextPart lower d key = some part) :
    '\n' ∉ part.toList ∧ (']' ∈ part.toList ↔ key ∈ freeKeys ∧
      ∃ raw, Dict.get d key = some (.str raw) ∧ (strip raw).length ≤ 40 ∧ ']' ∈ raw.toList) := by
  obtain ⟨raw, v, hraw, hv, rfl⟩ := contextPart_eq_some.1 h
  have hplain := plain_of_mem_contextKeyOrder hkey
  have hchars := chars_of_validatedContextValue hkey hv
  rw [String.toList_append, List.mem_append, List.mem_append, hchars.2]
  refine ⟨not_or.2 ⟨hplain.1, hchars.1⟩, ?_⟩
  constructor
  · rintro (h | ⟨hfree, hmem⟩)
    · exact absurd h hplain.2
    · exact ⟨hfree, raw, hraw, (accepts_of_bracket hfree hmem).1 ((accepts_iff hkey).2 ⟨v, hv⟩), hmem⟩
  · rintro ⟨hfree, raw', hraw', -, hmem⟩
    rw [hraw] at hraw'
    cases hraw'
    exact .inr ⟨hfree, hmem⟩

/-- There is a part when some setting is valid. -/
theorem parts_eq_nil {lower : String → String} {d : Dict} :
    contextKeyOrder.filterMap (contextPart lower d) = [] ↔ SetsNothing lower (some d) := by
  rw [List.filterMap_eq_nil_iff]
  constructor
  · intro h d' hd key hkey raw hraw haccepts
    cases hd
    obtain ⟨v, hv⟩ := (accepts_iff hkey).1 haccepts
    have hpart := contextPart_eq_some.2 ⟨raw, v, hraw, hv, rfl⟩
    rw [h key hkey] at hpart
    cases hpart
  · intro h key hkey
    refine Option.eq_none_iff_forall_ne_some.2 fun part hpart => ?_
    obtain ⟨raw, v, hraw, hv, -⟩ := contextPart_eq_some.1 hpart
    exact h d rfl key hkey raw hraw ((accepts_iff hkey).2 ⟨v, hv⟩)

/-- The characters of the line of the parts. -/
theorem chars_of_parts {lower : String → String} {d : Dict} {body : List Char}
    (hbody : body = "; ".toList.intercalate
      ((contextKeyOrder.filterMap (contextPart lower d)).map String.toList)) :
    '\n' ∉ body ∧ (']' ∈ body ↔ Bracketed (some d)) := by
  have hmem : ∀ c, c ∉ "; ".toList → (c ∈ body ↔ ∃ key ∈ contextKeyOrder, ∃ part,
      contextPart lower d key = some part ∧ c ∈ part.toList) := by
    intro c hsep
    subst hbody
    constructor
    · intro h
      obtain h | ⟨w, hw, hc⟩ := mem_of_mem_intercalate h
      · exact absurd h hsep
      · obtain ⟨part, hpart, rfl⟩ := List.mem_map.1 hw
        obtain ⟨key, hkey, hpart⟩ := List.mem_filterMap.1 hpart
        exact ⟨key, hkey, part, hpart, hc⟩
    · rintro ⟨key, hkey, part, hpart, hc⟩
      exact mem_intercalate
        (List.mem_map.2 ⟨part, List.mem_filterMap.2 ⟨key, hkey, hpart⟩, rfl⟩) hc
  rw [hmem _ (by decide), hmem _ (by decide)]
  constructor
  · rintro ⟨key, hkey, part, hpart, hc⟩
    exact (chars_of_contextPart hkey hpart).1 hc
  · constructor
    · rintro ⟨key, hkey, part, hpart, hc⟩
      obtain ⟨hfree, hbracket⟩ := (chars_of_contextPart hkey hpart).2.1 hc
      exact ⟨d, rfl, key, hfree, hbracket⟩
    · rintro ⟨d', hd, key, hfree, raw, hraw, hlen, hbracket⟩
      cases hd
      have hkey := mem_contextKeyOrder_of_free hfree
      obtain ⟨v, hv⟩ := (@accepts_iff lower key raw hkey).1
        ((accepts_of_bracket hfree hbracket).2 hlen)
      have hpart := contextPart_eq_some.2 ⟨raw, v, hraw, hv, rfl⟩
      exact ⟨key, hkey, _, hpart,
        (chars_of_contextPart hkey hpart).2.2 ⟨hfree, raw, hraw, hlen, hbracket⟩⟩

/-- A rendered block: one line, whose brackets are those of the free settings. -/
def IsBlock (context : Option Dict) (block : String) : Prop :=
  ∃ body : List Char, block.toList = contextAnchor.toList ++ (body ++ [']']) ∧
    '\n' ∉ body ∧ (']' ∈ body ↔ Bracketed context)

/-- What is rendered: nothing when no setting is valid, and else a block. -/
theorem renderContextBlock_spec (lower : String → String) (context : Option Dict) :
    (SetsNothing lower context ∧ renderContextBlock lower context = none) ∨
      ¬ SetsNothing lower context ∧ ∃ block, renderContextBlock lower context = some block ∧
        IsBlock context block := by
  cases context with
  | none => exact .inl ⟨fun d hd => (nomatch hd), rfl⟩
  | some d =>
    cases hparts : contextKeyOrder.filterMap (contextPart lower d) with
    | nil =>
      refine .inl ⟨parts_eq_nil.1 hparts, ?_⟩
      rw [renderContextBlock, hparts]
    | cons part parts =>
      have hrender : renderContextBlock lower (some d) = some (contextAnchor ++
          String.ofList ("; ".toList.intercalate ((part :: parts).map String.toList)) ++ "]") := by
        rw [renderContextBlock, hparts]
      refine .inr ⟨fun h => ?_, _, hrender, ⟨_, ?_, @chars_of_parts lower d _ rfl⟩⟩
      · rw [parts_eq_nil.2 h] at hparts
        cases hparts
      · rw [String.toList_append, String.toList_append, String.toList_ofList, hparts,
          List.append_assoc]
        rfl

/-! ## Cutting -/

/-- The text starts with a complete block, and `rest` comes after it. -/
def Leads (text : String) (rest : List Char) : Prop :=
  ∃ body : List Char, ']' ∉ body ∧
    ((text.toList = contextAnchor.toList ++ (body ++ [']']) ∧ rest = []) ∨
      text.toList = contextAnchor.toList ++ (body ++ ']' :: '\n' :: '\n' :: rest))

theorem afterContextBlock_cons {c : Char} (h : c ≠ ']') (l : List Char) :
    afterContextBlock (c :: l) = afterContextBlock l := by
  rw [afterContextBlock.eq_def (c :: l)]
  split
  · rename_i heq
    cases heq
  · rename_i heq
    cases heq
    exact absurd rfl h
  · rename_i heq
    cases heq
    rfl

/-- What follows the bracket is the end or an empty line. -/
theorem afterContextBlock_bracket {l rest : List Char} : afterContextBlock (']' :: l) = some rest ↔
    (l = [] ∧ rest = []) ∨ l = '\n' :: '\n' :: rest := by
  rw [afterContextBlock.eq_def]
  simp only
  split
  · simp [eq_comm]
  · simp
  · rename_i hnil hline
    refine ⟨(fun h => by cases h), ?_⟩
    rintro (⟨hl, -⟩ | hl)
    · exact absurd hl hnil
    · exact absurd hl (hline rest)

/-- The cut is at the first bracket. -/
theorem afterContextBlock_append {body : List Char} (hbody : ']' ∉ body) (tail : List Char) :
    afterContextBlock (body ++ ']' :: tail) = afterContextBlock (']' :: tail) := by
  induction body with
  | nil => rfl
  | cons c body ih =>
    rw [List.mem_cons, not_or] at hbody
    rw [List.cons_append, afterContextBlock_cons (Ne.symm hbody.1), ih hbody.2]

theorem afterContextBlock_eq_some {l rest : List Char} : afterContextBlock l = some rest ↔
    ∃ body : List Char, ']' ∉ body ∧ ((l = body ++ [']'] ∧ rest = []) ∨
      l = body ++ ']' :: '\n' :: '\n' :: rest) := by
  constructor
  · intro h
    induction l with
    | nil => cases h
    | cons c l ih =>
      by_cases hc : c = ']'
      · subst hc
        rw [afterContextBlock_bracket] at h
        exact ⟨[], List.not_mem_nil, h.imp (fun h => ⟨by rw [h.1]; rfl, h.2⟩) (by rintro rfl; rfl)⟩
      · rw [afterContextBlock_cons hc] at h
        obtain ⟨body, hbody, hl⟩ := ih h
        refine ⟨c :: body, ?_, ?_⟩
        · rw [List.mem_cons, not_or]
          exact ⟨Ne.symm hc, hbody⟩
        · rw [List.cons_append, List.cons_append, List.cons_inj_right, List.cons_inj_right]
          exact hl
  · rintro ⟨body, hbody, ⟨rfl, rfl⟩ | rfl⟩
    · rw [afterContextBlock_append hbody]
      rfl
    · rw [afterContextBlock_append hbody]
      rfl

theorem stripContextBlock_eq (text : String) : stripContextBlock text =
    if contextAnchor.toList.isPrefixOf text.toList then
      (afterContextBlock (text.toList.drop contextAnchor.toList.length)).elim text String.ofList
    else text := by
  rw [stripContextBlock, contextAnchor]
  congr 1
  cases afterContextBlock _ <;> rfl

theorem stripContextBlock_of_leads {text : String} {rest : List Char} (h : Leads text rest) :
    stripContextBlock text = String.ofList rest := by
  obtain ⟨body, hbody, htext⟩ := h
  have hprefix : contextAnchor.toList <+: text.toList := by
    obtain ⟨htext, -⟩ | htext := htext
    · exact ⟨_, htext.symm⟩
    · exact ⟨_, htext.symm⟩
  have hafter : afterContextBlock (text.toList.drop contextAnchor.toList.length) = some rest := by
    refine afterContextBlock_eq_some.2 ⟨body, hbody, ?_⟩
    obtain ⟨htext, hrest⟩ | htext := htext
    · exact .inl ⟨by rw [htext, List.drop_left], hrest⟩
    · exact .inr (by rw [htext, List.drop_left])
  rw [stripContextBlock_eq, if_pos (List.isPrefixOf_iff_prefix.2 hprefix), hafter]
  rfl

theorem stripContextBlock_of_not_leads {text : String} (h : ∀ rest, ¬ Leads text rest) :
    stripContextBlock text = text := by
  rw [stripContextBlock_eq]
  split
  · rename_i hprefix
    obtain ⟨tail, htail⟩ := List.isPrefixOf_iff_prefix.1 hprefix
    rw [← htail, List.drop_left]
    cases hafter : afterContextBlock tail with
    | none => rfl
    | some rest =>
      obtain ⟨body, hbody, hrest⟩ := afterContextBlock_eq_some.1 hafter
      refine absurd ⟨body, hbody, ?_⟩ (h rest)
      obtain ⟨rfl, rfl⟩ | rfl := hrest
      · exact .inl ⟨htail.symm, rfl⟩
      · exact .inr htail.symm
  · rfl

/-- What comes after the block is shorter than the text. -/
theorem Leads.length_lt {text : String} {rest : List Char} (h : Leads text rest) :
    rest.length < text.toList.length := by
  obtain ⟨body, -, ⟨htext, rfl⟩ | htext⟩ := h
  · simp only [htext, List.length_append, List.length_cons, List.length_nil]
    omega
  · simp only [htext, List.length_append, List.length_cons]
    omega

/-- A text is kept when it does not start with a complete block. -/
theorem stripContextBlock_eq_self {text : String} :
    stripContextBlock text = text ↔ ∀ rest, ¬ Leads text rest := by
  refine ⟨fun h rest hleads => ?_, stripContextBlock_of_not_leads⟩
  have hlength := hleads.length_lt
  rw [stripContextBlock_of_leads hleads] at h
  rw [← h, String.toList_ofList] at hlength
  exact absurd hlength (Nat.lt_irrefl _)

/-- A text that does not start with the anchor is kept. -/
theorem stripContextBlock_of_not_prefix {text : String}
    (h : ¬ contextAnchor.toList <+: text.toList) : stripContextBlock text = text := by
  refine stripContextBlock_of_not_leads fun rest hleads => h ?_
  obtain ⟨body, -, ⟨htext, -⟩ | htext⟩ := hleads
  · exact ⟨_, htext.symm⟩
  · exact ⟨_, htext.symm⟩

/-- A block without a bracket inside is cut off. -/
theorem IsBlock.leads {context : Option Dict} {block : String} (h : IsBlock context block)
    (hfree : ¬ Bracketed context) (msg : String) :
    Leads block [] ∧ Leads (block ++ "\n\n" ++ msg) msg.toList := by
  obtain ⟨body, hblock, -, hbracket⟩ := h
  have hbody : ']' ∉ body := fun hmem => hfree (hbracket.1 hmem)
  refine ⟨⟨body, hbody, .inl ⟨hblock, rfl⟩⟩, body, hbody, .inr ?_⟩
  rw [String.toList_append, String.toList_append, hblock]
  simp

/-- A block with a bracket inside is not, whatever follows. -/
theorem IsBlock.not_leads {context : Option Dict} {block : String} (h : IsBlock context block)
    (hbracketed : Bracketed context) {text : String} {tail : List Char}
    (htext : text.toList = block.toList ++ tail) : ∀ rest, ¬ Leads text rest := by
  obtain ⟨body, hblock, hline, hbracket⟩ := h
  obtain ⟨front, back, rfl, hfront⟩ := List.eq_append_cons_of_mem (hbracket.2 hbracketed)
  rintro rest ⟨body', hbody', hleads⟩
  -- The line goes on after its first bracket, and not with a newline.
  have hafter : afterContextBlock (front ++ ']' :: (back ++ ']' :: tail)) = some rest := by
    refine afterContextBlock_eq_some.2 ⟨body', hbody', ?_⟩
    rw [htext, hblock, List.append_assoc, List.append_cancel_left_eq,
      List.append_cancel_left_eq] at hleads
    simpa using hleads
  rw [afterContextBlock_append hfront, afterContextBlock_bracket] at hafter
  obtain ⟨hnil, -⟩ | hlines := hafter
  · exact absurd hnil (by simp)
  · cases back with
    | nil => simp at hlines
    | cons c back =>
      rw [List.cons_append, List.cons.injEq] at hlines
      exact hline (by simp [hlines.1])

/-! ## The round trip -/

/-- The text of a user message; a blank message has none. -/
def ownText (msg : String) : String := if isBlank msg then "" else msg

/-- The text of a turn, when a block is rendered. -/
theorem composeTurn0Text_some (block msg : String) :
    (composeTurn0Text (some block) msg).toList =
      block.toList ++ if isBlank msg then [] else '\n' :: '\n' :: msg.toList := by
  unfold composeTurn0Text
  split_ifs
  · simp
  · simp

theorem composeTurn0Text_none (msg : String) : composeTurn0Text none msg = ownText msg := rfl

/-- Without a bracket inside, the block is cut off. -/
theorem IsBlock.strip_compose {context : Option Dict} {block : String} (h : IsBlock context block)
    (hfree : ¬ Bracketed context) (msg : String) :
    stripContextBlock (composeTurn0Text (some block) msg) = ownText msg := by
  obtain ⟨hbare, hlines⟩ := h.leads hfree msg
  unfold composeTurn0Text ownText
  split_ifs
  · exact stripContextBlock_of_leads hbare
  · rw [stripContextBlock_of_leads hlines, String.ofList_toList]

/-- With a bracket inside, all of the text stays. -/
theorem IsBlock.strip_compose_of_bracketed {context : Option Dict} {block : String}
    (h : IsBlock context block) (hbracketed : Bracketed context) (msg : String) :
    stripContextBlock (composeTurn0Text (some block) msg) = composeTurn0Text (some block) msg :=
  stripContextBlock_of_not_leads (h.not_leads hbracketed (composeTurn0Text_some block msg))

/-- The text with a block is not the text of the message. -/
theorem IsBlock.compose_ne {context : Option Dict} {block : String} (h : IsBlock context block)
    (msg : String) : composeTurn0Text (some block) msg ≠ ownText msg := by
  obtain ⟨body, hblock, -⟩ := h
  intro heq
  have hlength := congrArg (fun s : String => s.toList.length) heq
  simp only [composeTurn0Text_some, ownText, hblock, List.length_append, List.length_cons] at hlength
  split_ifs at hlength
  · simp at hlength
  · simp only [List.length_cons] at hlength
    omega

/-- No setting with a bracket is valid when none is. -/
theorem SetsNothing.not_bracketed {lower : String → String} {context : Option Dict}
    (h : SetsNothing lower context) : ¬ Bracketed context := by
  rintro ⟨d, hd, key, hkey, raw, hraw, hlen, hmem⟩
  exact h d hd key (mem_contextKeyOrder_of_free hkey) raw hraw ((accepts_of_bracket hkey hmem).2 hlen)

/-- **The settings are cut off again** when no short free setting has a bracket and, if there is no
valid setting, the message is blank or does not start with a complete block. -/
theorem settings_round_trip (lower : String → String) :
    (∀ (context : Option Dict) (msg : String),
      stripContextBlock (composeTurn0Text (renderContextBlock lower context) msg) = ownText msg ↔
        ¬ Bracketed context ∧
          (SetsNothing lower context → isBlank msg = true ∨ ∀ rest, ¬ Leads msg rest)) ∧
    ∀ text : String, ¬ contextAnchor.toList <+: text.toList → stripContextBlock text = text := by
  refine ⟨fun context msg => ?_, fun text => stripContextBlock_of_not_prefix⟩
  obtain ⟨hnothing, hrender⟩ | ⟨hsome, block, hrender, hblock⟩ := renderContextBlock_spec lower context
  · rw [hrender, composeTurn0Text_none]
    by_cases hblank : isBlank msg = true
    · have hown : ownText msg = "" := if_pos hblank
      rw [hown]
      exact ⟨fun _ => ⟨hnothing.not_bracketed, fun _ => .inl hblank⟩, fun _ => by decide⟩
    · have hown : ownText msg = msg := if_neg hblank
      rw [hown, stripContextBlock_eq_self]
      exact ⟨fun h => ⟨hnothing.not_bracketed, fun _ => .inr h⟩,
        fun h => (h.2 hnothing).resolve_left hblank⟩
  · rw [hrender]
    by_cases hbracketed : Bracketed context
    · rw [hblock.strip_compose_of_bracketed hbracketed]
      exact ⟨fun h => absurd h (hblock.compose_ne msg), fun h => absurd hbracketed h.1⟩
    · exact ⟨fun _ => ⟨hbracketed, fun h => absurd h hsome⟩,
        fun _ => hblock.strip_compose hbracketed msg⟩

/-- A tone with a bracket is not cut off: the message comes back with the settings. -/
theorem settings_round_trip_fails :
    ¬ ∀ (context : Option Dict) (msg : String), isBlank msg = false →
      stripContextBlock (composeTurn0Text (renderContextBlock id context) msg) = msg := by
  intro h
  exact absurd (h (some [("tone", .str "a]b")]) "hi" (by decide)) (by decide)

end ChatBackend.Chats

import ChatBackend.Chat.Messages

/-!
# The files of a workspace in a request

What of the files of a workspace goes into a request: every image, and of the texts the first
characters up to the limit, file by file (`workspace_context_budget`).
-/

namespace ChatBackend.Chat

/-- `f.media_type in _IMAGE_TYPES`. -/
def WorkspaceFile.isImage (f : WorkspaceFile) : Bool := decide (f.mediaType ∈ imageTypes)

/-- The text of a file: an image has none, and an empty one counts as none. -/
def WorkspaceFile.text (f : WorkspaceFile) : Option String :=
  if f.isImage then none else f.extractedText.bind orNone

/-- What is injected of a file. -/
inductive FilePart : Type
  | image (f : WorkspaceFile)
  | text (f : WorkspaceFile) (snippet : String)

namespace FilePart

def file : FilePart → WorkspaceFile
  | image f => f
  | text f _ => f

def block (provider : Provider) : FilePart → Block
  | image f => imageBlock f provider
  | text f snippet => fileTextBlock f snippet provider

def image? : FilePart → Option WorkspaceFile
  | image f => some f
  | text .. => none

/-- A text file with its snippet. -/
def text? : FilePart → Option (WorkspaceFile × String)
  | image _ => none
  | text f snippet => some (f, snippet)

end FilePart

/-- The parts of the files while `remaining` characters are left. -/
def fileParts : ℕ → List WorkspaceFile → List FilePart
  | _, [] => []
  | remaining, f :: files =>
    if f.isImage then .image f :: fileParts remaining files
    else
      match f.text with
      | none => fileParts remaining files
      | some text =>
        if remaining = 0 then fileParts remaining files
        else .text f (String.ofList (text.toList.take remaining)) ::
          fileParts (remaining - text.length) files

/-- The snippets of some parts, in order. -/
def snippets (parts : List FilePart) : List (WorkspaceFile × String) := parts.filterMap FilePart.text?

/-- The texts of some files, one after another. -/
def joinedTexts (files : List WorkspaceFile) : List Char :=
  (files.filterMap WorkspaceFile.text).flatMap String.toList

section Parts

variable {remaining : ℕ} {files : List WorkspaceFile} {f : WorkspaceFile} {s : String}

/-- The blocks are those of the parts. -/
theorem fileBlocks_eq (maxChars : ℕ) (provider : Provider) (used : ℕ) (files : List WorkspaceFile) :
    fileBlocks maxChars provider used files =
      (fileParts (maxChars - used) files).map (·.block provider) := by
  induction files generalizing used with
  | nil => rfl
  | cons f files ih =>
    rw [fileBlocks, fileParts]
    by_cases himage : f.mediaType ∈ imageTypes
    · rw [if_pos himage, if_pos (show f.isImage = true from decide_eq_true himage), ih]
      rfl
    · have hnot : f.isImage = false := decide_eq_false himage
      rw [if_neg himage, hnot, if_neg Bool.false_ne_true, WorkspaceFile.text, hnot,
        if_neg Bool.false_ne_true]
      cases f.extractedText.bind orNone with
      | none => exact ih used
      | some text =>
        by_cases hused : maxChars ≤ used
        · have hleft : maxChars - used = 0 := by omega
          simp only [if_pos hused, hleft, if_true, ih]
        · have hleft : maxChars - used ≠ 0 := by omega
          -- What is used afterwards is the rest of the budget when the text is cut off.
          have hrest : maxChars - (used + (String.ofList (text.toList.take (maxChars - used))).length) =
              maxChars - used - text.length := by
            rw [String.length_ofList, List.length_take, String.length_toList]
            omega
          simp only [if_neg hused, if_neg hleft, ih, hrest, List.map_cons]
          rfl

theorem WorkspaceFile.text_ne_empty {t : String} (h : f.text = some t) : t ≠ "" := by
  rw [WorkspaceFile.text] at h
  split at h
  · cases h
  · obtain ⟨extracted, -, hextracted⟩ := Option.bind_eq_some_iff.1 h
    rw [orNone] at hextracted
    split at hextracted
    · cases hextracted
    · rename_i hne
      exact Option.some.inj hextracted ▸ hne

/-- An exhausted budget leaves no snippet. -/
theorem snippets_zero (files : List WorkspaceFile) : snippets (fileParts 0 files) = [] := by
  induction files with
  | nil => rfl
  | cons f files ih =>
    rw [fileParts]
    split
    · exact ih
    · split
      · exact ih
      · rw [if_pos rfl]
        exact ih

/-- The snippets of a list of files, from those of its tail. -/
theorem snippets_cons (remaining : ℕ) (f : WorkspaceFile) (files : List WorkspaceFile) :
    snippets (fileParts remaining (f :: files)) =
      match f.text with
      | none => snippets (fileParts remaining files)
      | some text =>
        if remaining = 0 then []
        else (f, String.ofList (text.toList.take remaining)) ::
          snippets (fileParts (remaining - text.length) files) := by
  rw [fileParts]
  by_cases himage : f.isImage = true
  · have hnone : f.text = none := if_pos himage
    rw [if_pos himage, hnone]
    rfl
  · rw [if_neg himage]
    cases f.text with
    | none => rfl
    | some text =>
      by_cases hzero : remaining = 0
      · simp only [hzero, if_true]
        exact snippets_zero files
      · simp only [if_neg hzero]
        rfl

theorem joinedTexts_cons (f : WorkspaceFile) (files : List WorkspaceFile) :
    joinedTexts (f :: files) = (f.text.map String.toList).getD [] ++ joinedTexts files := by
  rw [joinedTexts, List.filterMap_cons]
  cases f.text with
  | none => rfl
  | some text => exact List.flatMap_cons

/-- The snippets are the first characters of the texts. -/
theorem snippets_joined (remaining : ℕ) (files : List WorkspaceFile) :
    (snippets (fileParts remaining files)).flatMap (·.2.toList) =
      (joinedTexts files).take remaining := by
  induction files generalizing remaining with
  | nil => exact (List.take_nil).symm
  | cons f files ih =>
    rw [snippets_cons, joinedTexts_cons]
    cases f.text with
    | none => exact ih remaining
    | some text =>
      by_cases hzero : remaining = 0
      · simp only [hzero, if_true, List.take_zero]
        rfl
      · simp only [if_neg hzero, List.flatMap_cons, String.toList_ofList, ih, Option.map_some,
          Option.getD_some]
        rw [List.take_append, String.length_toList]

/-- A snippet is a prefix of the text of its own file. -/
theorem snippet_prefix {x : WorkspaceFile × String}
    (hx : x ∈ snippets (fileParts remaining files)) :
    x.2 ≠ "" ∧ ∃ text, x.1.text = some text ∧ x.2.toList <+: text.toList := by
  induction files generalizing remaining with
  | nil => cases hx
  | cons f files ih =>
    rw [snippets_cons] at hx
    cases htext : f.text with
    | none =>
      rw [htext] at hx
      exact ih hx
    | some text =>
      rw [htext] at hx
      by_cases hzero : remaining = 0
      · simp only [if_pos hzero] at hx
        cases hx
      · simp only [if_neg hzero] at hx
        rcases List.mem_cons.1 hx with rfl | hx
        · refine ⟨fun hempty => ?_, text, htext, ?_⟩
          · have hnil : text.toList.take remaining = [] := by
              simpa using congrArg String.toList hempty
            rcases List.take_eq_nil_iff.1 hnil with hr | ht
            · exact hzero hr
            · exact WorkspaceFile.text_ne_empty htext (String.toList_eq_nil_iff.1 ht)
          · rw [String.toList_ofList]
            exact List.take_prefix _ _
        · exact ih hx

/-- All snippets but the last are complete. -/
theorem snippet_complete {x : WorkspaceFile × String}
    (hx : x ∈ (snippets (fileParts remaining files)).dropLast) : x.1.text = some x.2 := by
  induction files generalizing remaining with
  | nil => cases hx
  | cons f files ih =>
    rw [snippets_cons] at hx
    cases htext : f.text with
    | none =>
      rw [htext] at hx
      exact ih hx
    | some text =>
      rw [htext] at hx
      by_cases hzero : remaining = 0
      · simp only [if_pos hzero] at hx
        cases hx
      · simp only [if_neg hzero] at hx
        by_cases hrest : snippets (fileParts (remaining - text.length) files) = []
        · rw [hrest] at hx
          cases hx
        · rw [List.dropLast_cons_of_ne_nil hrest] at hx
          rcases List.mem_cons.1 hx with rfl | hx
          · -- Another snippet follows, so the budget has not ended in this text.
            have hlt : text.length ≤ remaining := by
              by_contra hle
              have hleft : remaining - text.length = 0 := by omega
              exact hrest (hleft ▸ snippets_zero files)
            rw [htext, List.take_of_length_le (by rwa [String.length_toList]), String.ofList_toList]
          · exact ih hx

/-- Every image is kept. -/
theorem images_parts (remaining : ℕ) (files : List WorkspaceFile) :
    (fileParts remaining files).filterMap FilePart.image? = files.filter WorkspaceFile.isImage := by
  induction files generalizing remaining with
  | nil => rfl
  | cons f files ih =>
    rw [fileParts]
    by_cases himage : f.isImage = true
    · rw [if_pos himage, List.filter_cons_of_pos himage, ← ih remaining]
      rfl
    · rw [if_neg himage, List.filter_cons_of_neg himage]
      split
      · exact ih remaining
      · split
        · exact ih remaining
        · exact ih _

/-- The parts are in the order of the files. -/
theorem files_parts (remaining : ℕ) (files : List WorkspaceFile) :
    ((fileParts remaining files).map FilePart.file).Sublist files := by
  induction files generalizing remaining with
  | nil => exact List.Sublist.slnil
  | cons f files ih =>
    rw [fileParts]
    split
    · exact (ih remaining).cons_cons f
    · split
      · exact (ih remaining).cons f
      · split
        · exact (ih remaining).cons f
        · exact (ih _).cons_cons f

end Parts

/-- **The budget of a workspace's files.** The blocks that are injected are those of some parts of
the files, in order: their snippets are together the first characters of the texts, each is a
prefix of its own file's text and all but the last are complete; and all images are among them. -/
theorem workspace_context_budget (cfg : Config) (files : List WorkspaceFile) (provider : Provider) :
    ∃ parts : List FilePart,
      ((buildFileAttachments cfg files provider).map (·.contentBlocks)).getD [] =
        parts.map (·.block provider) ∧
      (parts.map FilePart.file).Sublist files ∧
      (snippets parts).flatMap (·.2.toList) = (joinedTexts files).take cfg.workspaceContextMaxChars ∧
      (∀ x ∈ snippets parts,
        x.2 ≠ "" ∧ ∃ text, x.1.text = some text ∧ x.2.toList <+: text.toList) ∧
      (∀ x ∈ (snippets parts).dropLast, x.1.text = some x.2) ∧
      parts.filterMap FilePart.image? = files.filter WorkspaceFile.isImage := by
  have hblocks : ((buildFileAttachments cfg files provider).map (·.contentBlocks)).getD [] =
      fileBlocks cfg.workspaceContextMaxChars provider 0 files := by
    rw [buildFileAttachments]
    split
    · rename_i hnil
      exact hnil.symm
    · rfl
  refine ⟨fileParts cfg.workspaceContextMaxChars files, ?_, files_parts _ files,
    snippets_joined _ files, fun x hx => snippet_prefix hx, fun x hx => snippet_complete hx,
    images_parts _ files⟩
  rw [hblocks, fileBlocks_eq, Nat.sub_zero]

/-- The budget ends within the second text: the third is left out, and the image is kept. -/
example : (fileParts 4 [⟨"a", "text/plain", some "abc", ""⟩, ⟨"b", "text/plain", some "de", ""⟩,
    ⟨"c", "image/png", none, ""⟩, ⟨"d", "text/plain", some "f", ""⟩]).map (·.block .anthropic) =
    [.media "text" "" "" "[Файл проекта: a]\nabc", .media "text" "" "" "[Файл проекта: b]\nd",
      .media "image" "image/png" "" ""] := by
  rfl

end ChatBackend.Chat

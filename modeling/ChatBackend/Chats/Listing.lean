import ChatBackend.Chats.Service
import ChatBackend.Foundations.Keyset
import ChatBackend.Model.Cursor

/-!
# The list of the chats

`list_chats`: the chats of a user, pinned ones first and the latest ones first, with a search and a
filter by workspace. Its pages show every chat that matches once, in this order (`paginates_chats`),
unless PostgreSQL refuses the query.
-/

namespace ChatBackend.Chats

open Chat Keyset

/-- A row of `chat_sessions`, with what the list reads of it. -/
structure SessionRow where
  id : Uuid
  userId : Uuid
  projectId : Option String
  title : Option String
  assistantMode : String
  workspaceProjectId : Option Uuid
  isPinned : Bool
  updatedAt : Timestamp

/-- A row of `chat_steps`, with what the list reads of it. -/
structure StepRow where
  id : Uuid
  sessionId : Uuid
  role : String
  payload : Dict
  createdAt : Timestamp

/-- The tables, and the texts of the database: `ILIKE`, and the texts of values that are no strings, in
PostgreSQL and in Python. -/
structure ChatTables where
  sessions : List SessionRow
  steps : List StepRow
  ilike : (text pattern : String) → Bool
  astext : Json → Option String
  repr : Json → String

/-- `ChatListItemView`. -/
structure ChatListItemView where
  id : Uuid
  title : Option String
  preview : Option String
  assistantMode : String
  isPinned : Bool
  projectId : Option String
  workspaceProjectId : Option Uuid
  updatedAt : Timestamp

/-- The arguments of the list that select chats. -/
structure ChatFilter where
  userId : Uuid
  query : Option String
  workspaceProjectId : Option Uuid

section Listing

variable (t : ChatTables)

/-- `payload["content"][0]["text"].astext`. -/
def firstText (payload : Dict) : Option String :=
  match Dict.get payload "content" with
  | some (.arr (.obj kvs :: _)) => match Dict.get kvs "text" with
    | some (.str s) => some s
    | some value => t.astext value
    | none => none
  | _ => none

/-- The condition of the search. -/
def SessionRow.found (query : String) (s : SessionRow) : Bool :=
  let like := "%" ++ query ++ "%"
  s.title.any (t.ilike · like) ||
    t.steps.any fun step =>
      step.sessionId = s.id && step.role = "user" && (firstText t step.payload).any (t.ilike · like)

/-- The rows that a list is about. -/
def SessionRow.matches (f : ChatFilter) (s : SessionRow) : Bool :=
  s.userId = f.userId && f.workspaceProjectId.all (s.workspaceProjectId = some ·) &&
    f.query.all fun query => query = "" || s.found t query

/-- PostgreSQL has no text with the character NUL, and refuses the parameter of the search. -/
def ChatFilter.refused (f : ChatFilter) : Bool := f.query.any fun query => !nulFree query

/-- The key of the order `is_pinned DESC, updated_at DESC, id DESC`. -/
def SessionRow.key (s : SessionRow) : Bool ×ₗ Timestamp ×ₗ Uuid :=
  toLex (s.isPinned, toLex (s.updatedAt, s.id))

/-- The rows after a cursor. -/
def SessionRow.isAfter (c : ChatCursor) (s : SessionRow) : Bool :=
  s.isPinned.toNat < c.isPinned.toNat ||
    (s.isPinned.toNat = c.isPinned.toNat && s.updatedAt < c.updatedAt) ||
    (s.isPinned.toNat = c.isPinned.toNat && s.updatedAt = c.updatedAt && s.id < c.id)

/-- `_preview`. -/
def previewOf (sessionId : Uuid) : Option String :=
  let steps := t.steps.filter fun step =>
    step.sessionId = sessionId && (step.role = "user" || step.role = "assistant")
  let key := fun step : StepRow => (toLex (step.createdAt, step.id) : Timestamp ×ₗ Uuid)
  match (sorted key steps).head? with
  | none => none
  | some step => preview t.repr step.role step.payload

def chatItem (s : SessionRow) : ChatListItemView where
  id := s.id
  title := s.title
  preview := previewOf t s.id
  assistantMode := s.assistantMode
  isPinned := s.isPinned
  projectId := s.projectId
  workspaceProjectId := s.workspaceProjectId
  updatedAt := s.updatedAt

/-- `ChatsRepository.list_chats`. -/
def listRows (f : ChatFilter) (limit : ℕ) (cursor : Option ChatCursor) :
    Except AppError (Page ChatListItemView String) :=
  let rows := (t.sessions.filter (·.matches t f)).filter fun s => cursor.all (s.isAfter ·)
  if f.refused then throw (.internal "invalid byte sequence for encoding UTF8: 0x00")
  else pure (.of limit ((sorted SessionRow.key rows).take (limit + 1)) (chatItem t) fun last =>
    ChatCursor.encode ⟨last.isPinned, last.updatedAt, last.id⟩)

/-- `ChatsService.list_chats`. -/
def listChats (f : ChatFilter) (limit : ℕ) (cursor : Option String) :
    Except AppError (Page ChatListItemView String) := do
  let decoded ← decodeCursor (.validationFailed "invalid cursor") ChatCursor.decode cursor
  listRows t f limit decoded

/-- The order of the list. -/
def ChatListItemView.before (a b : ChatListItemView) : Prop :=
  b.isPinned.toNat < a.isPinned.toNat ∨ b.isPinned = a.isPinned ∧
    (b.updatedAt < a.updatedAt ∨ b.updatedAt = a.updatedAt ∧ b.id < a.id)

/-- The cursor of a key. -/
def chatCursor (k : Bool ×ₗ Timestamp ×ₗ Uuid) : ChatCursor :=
  ⟨(ofLex k).1, (ofLex (ofLex k).2).1, (ofLex (ofLex k).2).2⟩

theorem toNat_lt_toNat {a b : Bool} : a.toNat < b.toNat ↔ a < b := by revert a b; decide

theorem toNat_eq_toNat {a b : Bool} : a.toNat = b.toNat ↔ a = b := by revert a b; decide

theorem isAfter_iff (s : SessionRow) (k : Bool ×ₗ Timestamp ×ₗ Uuid) :
    s.isAfter (chatCursor k) = true ↔ s.key < k := by
  rw [Prod.Lex.lt_iff, Prod.Lex.lt_iff]
  simp only [SessionRow.isAfter, toNat_lt_toNat, toNat_eq_toNat, Bool.or_eq_true, Bool.and_eq_true,
    decide_eq_true_eq]
  simp only [SessionRow.key, chatCursor, ofLex_toLex]
  tauto

theorem key_injective {rows : List SessionRow} (h : (rows.map SessionRow.id).Nodup) :
    (rows.map SessionRow.key).Nodup := by
  refine List.Nodup.of_map (fun k => (ofLex (ofLex k).2).2) ?_
  rwa [List.map_map]

/-- A query that is refused has no page. -/
theorem listChats_refused {f : ChatFilter} (h : f.refused = true) (limit : ℕ) (c : Option String) :
    ∃ e, listChats t f limit c = .error e := by
  unfold listChats
  cases decodeCursor (AppError.validationFailed "invalid cursor") ChatCursor.decode c with
  | error e => exact ⟨e, rfl⟩
  | ok decoded =>
    show ∃ e, listRows t f limit decoded = .error e
    unfold listRows
    rw [if_pos h]
    exact ⟨_, rfl⟩

theorem listChats_map {f : ChatFilter} (h : f.refused = false) (limit : ℕ)
    (c : Option (Bool ×ₗ Timestamp ×ₗ Uuid)) :
    listChats t f limit (c.map fun k => (chatCursor k).encode) =
      .ok (.of limit (fetched SessionRow.key limit (t.sessions.filter (·.matches t f)) c) (chatItem t)
        fun s => (chatCursor s.key).encode) := by
  have hcursor := decodeCursor_map (AppError.validationFailed "invalid cursor")
    (fun k => (chatCursor k).encode_ne_empty) (fun k => (chatCursor k).decode_encode) c
  rw [listChats, hcursor, fetched, ← filter_isAfter isAfter_iff]
  simp only [listRows, h]
  rfl

/-- **The list of the chats** shows every chat of the user that matches once, in its order. -/
theorem paginates_chats {f : ChatFilter} (hf : f.refused = false) {limit : ℕ} (hlimit : 1 ≤ limit)
    (hids : (t.sessions.map SessionRow.id).Nodup) :
    Paginates (listChats t f limit) limit
      ((t.sessions.filter (·.matches t f)).map (chatItem t)) ChatListItemView.before := by
  have hrows : ((t.sessions.filter (·.matches t f)).map SessionRow.key).Nodup :=
    key_injective (hids.sublist (List.filter_sublist.map _))
  refine paginates hlimit hrows (listChats_map t hf limit) fun a b hlt => ?_
  rw [Prod.Lex.lt_iff, Prod.Lex.lt_iff] at hlt
  exact hlt.imp toNat_lt_toNat.2 id

end Listing

end ChatBackend.Chats

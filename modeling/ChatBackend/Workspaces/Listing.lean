import ChatBackend.Chat.Data
import ChatBackend.Foundations.Keyset
import ChatBackend.Model.Cursor

/-!
# The list of the workspaces

`list_workspaces`: the workspaces of a user, the latest ones first, with the numbers of their files and
chats. Its pages show every workspace of the user once, in this order (`paginates_workspaces`).
-/

namespace ChatBackend.Workspaces

open Chat Keyset

/-- A row of `workspace_projects`. -/
structure WorkspaceProject where
  id : Uuid
  userId : Uuid
  name : String
  description : Option String
  instructions : Option String
  createdAt : Timestamp
  updatedAt : Timestamp

/-- The tables: the workspaces, and the workspaces that files and chats refer to. -/
structure WorkspaceTables where
  workspaces : List WorkspaceProject
  files : List Uuid
  chats : List (Option Uuid)

/-- `WorkspaceListItem`. -/
structure WorkspaceListItem where
  workspace : WorkspaceProject
  fileCount : ℕ
  chatCount : ℕ

section Listing

variable (t : WorkspaceTables)

/-- `_file_counts`, with its default. -/
def fileCounts (ids : List Uuid) (id : Uuid) : ℕ := if id ∈ ids then t.files.count id else 0

/-- `_chat_counts`, with its default. -/
def chatCounts (ids : List Uuid) (id : Uuid) : ℕ := if id ∈ ids then t.chats.count (some id) else 0

/-- The item of a row on a page with these identifiers. -/
def workspaceItem (ids : List Uuid) (row : WorkspaceProject) : WorkspaceListItem :=
  ⟨row, fileCounts t ids row.id, chatCounts t ids row.id⟩

/-- The key of the order `updated_at DESC, id DESC`. -/
def WorkspaceProject.key (row : WorkspaceProject) : Timestamp ×ₗ Uuid := toLex (row.updatedAt, row.id)

/-- The rows after a cursor. -/
def WorkspaceProject.isAfter (c : WorkspaceCursor) (row : WorkspaceProject) : Bool :=
  row.updatedAt < c.updatedAt || (row.updatedAt = c.updatedAt && row.id < c.id)

/-- `WorkspacesRepository.list_workspaces`. -/
def listRows (userId : Uuid) (limit : ℕ) (cursor : Option WorkspaceCursor) :
    Page WorkspaceListItem String :=
  let rows := (t.workspaces.filter (·.userId = userId)).filter fun row => cursor.all (row.isAfter ·)
  let fetched := (sorted WorkspaceProject.key rows).take (limit + 1)
  let ids := (fetched.take limit).map WorkspaceProject.id
  .of limit fetched (workspaceItem t ids) fun last => WorkspaceCursor.encode ⟨last.updatedAt, last.id⟩

/-- `WorkspacesService.list_workspaces`. -/
def listWorkspaces (userId : Uuid) (limit : ℕ) (cursor : Option String) :
    Except AppError (Page WorkspaceListItem String) := do
  let decoded ← decodeCursor (.validationFailed "invalid cursor") WorkspaceCursor.decode cursor
  pure (listRows t userId limit decoded)

/-- A workspace with the numbers of its files and chats. -/
def listed (row : WorkspaceProject) : WorkspaceListItem :=
  ⟨row, t.files.count row.id, t.chats.count (some row.id)⟩

/-- The order of the list. -/
def WorkspaceListItem.before (a b : WorkspaceListItem) : Prop :=
  b.workspace.updatedAt < a.workspace.updatedAt ∨
    b.workspace.updatedAt = a.workspace.updatedAt ∧ b.workspace.id < a.workspace.id

/-- The cursor of a key. -/
def workspaceCursor (k : Timestamp ×ₗ Uuid) : WorkspaceCursor := ⟨(ofLex k).1, (ofLex k).2⟩

theorem isAfter_iff (row : WorkspaceProject) (k : Timestamp ×ₗ Uuid) :
    row.isAfter (workspaceCursor k) = true ↔ row.key < k := by
  rw [Prod.Lex.lt_iff]
  simp only [WorkspaceProject.isAfter, Bool.or_eq_true, Bool.and_eq_true, decide_eq_true_eq]
  rfl

/-- On its own page a row has the numbers of its files and chats. -/
theorem page_items (limit : ℕ) (fetched : List WorkspaceProject) (cursor : WorkspaceProject → String) :
    Page.of limit fetched (workspaceItem t ((fetched.take limit).map WorkspaceProject.id)) cursor =
      .of limit fetched (listed t) cursor := by
  have hitems : ∀ row ∈ fetched.take limit,
      workspaceItem t ((fetched.take limit).map WorkspaceProject.id) row = listed t row := by
    intro row hrow
    have hmem : row.id ∈ (fetched.take limit).map WorkspaceProject.id := List.mem_map_of_mem hrow
    rw [workspaceItem, fileCounts, chatCounts, if_pos hmem, if_pos hmem, listed]
  rw [Page.of, Page.of, List.map_congr_left hitems]

theorem listWorkspaces_map (userId : Uuid) (limit : ℕ) (c : Option (Timestamp ×ₗ Uuid)) :
    listWorkspaces t userId limit (c.map fun k => (workspaceCursor k).encode) =
      .ok (.of limit (fetched WorkspaceProject.key limit (t.workspaces.filter (·.userId = userId)) c)
        (listed t) fun row => (workspaceCursor row.key).encode) := by
  have hcursor := decodeCursor_map (AppError.validationFailed "invalid cursor")
    (fun k => (workspaceCursor k).encode_ne_empty) (fun k => (workspaceCursor k).decode_encode) c
  rw [listWorkspaces, hcursor, fetched, ← filter_isAfter isAfter_iff]
  exact congrArg Except.ok (page_items t limit _ _)

/-- **The list of the workspaces** shows every workspace of the user once, in its order. -/
theorem paginates_workspaces (userId : Uuid) {limit : ℕ} (hlimit : 1 ≤ limit)
    (hids : (t.workspaces.map WorkspaceProject.id).Nodup) :
    Paginates (listWorkspaces t userId limit) limit
      ((t.workspaces.filter (·.userId = userId)).map (listed t)) WorkspaceListItem.before := by
  have hrows : ((t.workspaces.filter (·.userId = userId)).map WorkspaceProject.key).Nodup := by
    refine List.Nodup.of_map (fun k => (ofLex k).2) ?_
    rw [List.map_map]
    exact hids.sublist (List.filter_sublist.map _)
  exact paginates hlimit hrows (listWorkspaces_map t userId limit) fun a b => Prod.Lex.lt_iff.1

end Listing

end ChatBackend.Workspaces

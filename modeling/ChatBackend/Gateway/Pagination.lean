import ChatBackend.Chats.Listing
import ChatBackend.Images.Service
import ChatBackend.Workspaces.Listing

/-!
# The lists of the API

The chats, the workspaces and the images of a user are listed in pages. Following `nextCursor` from the
first page shows every row that matches once (`keyset_pagination`).
-/

namespace ChatBackend

open Keyset

/-- **Keyset pagination** of the three lists, and of their cursors. The identifiers are the primary keys
of the tables; a page of the images comes after a sweep; and a search that PostgreSQL refuses has no
page at all. -/
theorem keyset_pagination {limit batch : ℕ} {chats : Chats.ChatTables}
    {workspaces : Workspaces.WorkspaceTables} {now : Timestamp} {images : List Images.GeneratedImage}
    {sweeps : Option String → Images.Sweep} (hlimit : 1 ≤ limit)
    (hchats : (chats.sessions.map Chats.SessionRow.id).Nodup)
    (hworkspaces : (workspaces.workspaces.map Workspaces.WorkspaceProject.id).Nodup)
    (himages : (images.map Images.GeneratedImage.id).Nodup)
    (hsweeps : ∀ c, (sweeps c).Allowed now images batch) :
    (∀ f : Chats.ChatFilter, (f.refused = false → Paginates (Chats.listChats chats f limit) limit
        ((chats.sessions.filter (·.matches chats f)).map (Chats.chatItem chats))
        Chats.ChatListItemView.before) ∧
      (f.refused = true → ∀ c, ∃ e, Chats.listChats chats f limit c = .error e) ∧
      ∀ row : Chats.SessionRow, row.matches chats f = true → row.userId = f.userId) ∧
    (∀ userId, Paginates (Workspaces.listWorkspaces workspaces userId limit) limit
      ((workspaces.workspaces.filter (·.userId = userId)).map (Workspaces.listed workspaces))
      Workspaces.WorkspaceListItem.before) ∧
    (∀ userId, Paginates
      (fun c => (Images.listImages now images true (sweeps c) userId limit c).1) limit
      ((images.filter fun row => row.userId = userId && row.fresh now).map Images.listItem)
      Images.ImageListItem.before) ∧
    (∀ c : ChatCursor, ChatCursor.decode c.encode = some c) ∧
    (∀ c : WorkspaceCursor, WorkspaceCursor.decode c.encode = some c) ∧
    ∀ c : ImageCursor, ImageCursor.decode c.encode = some c := by
  refine ⟨fun f => ?_, fun userId => ?_, fun userId => ?_, ChatCursor.decode_encode,
    WorkspaceCursor.decode_encode, ImageCursor.decode_encode⟩
  · refine ⟨fun hf => Chats.paginates_chats chats hf hlimit hchats,
      fun hf => Chats.listChats_refused chats hf limit, fun row hrow => ?_⟩
    simp only [Chats.SessionRow.matches, Bool.and_eq_true, decide_eq_true_eq] at hrow
    exact hrow.1.1
  · exact Workspaces.paginates_workspaces workspaces userId hlimit hworkspaces
  · exact Images.paginates_images userId hlimit himages fun c =>
      Images.visible_sweep himages (hsweeps c) userId

/-- A second. -/
def someTime : Timestamp := ⟨⟨2024, 2, 29, 12, 34, 56, 789⟩, by decide⟩

/-- Two chats of one second, and one of another user. -/
def tiedChats : Chats.ChatTables where
  sessions :=
    [⟨1, 7, none, some "first", "chat", none, false, someTime⟩,
      ⟨2, 7, none, some "second", "chat", none, false, someTime⟩,
      ⟨3, 8, none, none, "chat", none, true, someTime⟩]
  steps := []
  ilike _ _ := true
  astext _ := none
  repr _ := ""

/-- The pages of one chat each, inside of a tie. -/
theorem keyset_pagination_ties :
    Paginates (Chats.listChats tiedChats ⟨7, none, none⟩ 1) 1
      ((tiedChats.sessions.filter (·.matches tiedChats ⟨7, none, none⟩)).map (Chats.chatItem tiedChats))
      Chats.ChatListItemView.before ∧
    ((tiedChats.sessions.filter (·.matches tiedChats ⟨7, none, none⟩)).map Chats.SessionRow.id) = [1, 2] :=
  ⟨((@keyset_pagination 1 1 tiedChats ⟨[], [], []⟩ someTime [] (fun _ => .throttled) le_rfl (by decide)
    .nil .nil fun _ => trivial).1 _).1 rfl, by decide⟩

end ChatBackend

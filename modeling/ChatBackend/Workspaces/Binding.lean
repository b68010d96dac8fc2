import ChatBackend.Byok.Data
import ChatBackend.Workspaces.Files
import ChatBackend.Workspaces.Listing
import Mathlib

/-!
# Workspaces, their files and their chats

The requests that write `workspace_projects`, `workspace_files` and the metadata of `chat_sessions`: a
chat names a workspace, and the deletion of the workspace deletes its files and unbinds its chats by
foreign keys. Each request reads the rows that it needs, and writes and commits afterwards; nothing is
locked in between but what PostgreSQL locks for a write. What the model of the files and that of the
list say of the same tables agrees with it (`run_ofFiles`, `listed_counts`).
-/

namespace ChatBackend.Workspaces.Binding

open Prog Store Byok

/-! ## Rows -/

/-- A row of `workspace_projects`. -/
structure WorkspaceProject where
  id : ℕ
  userId : ℕ
  name : String
  description : Option String
  instructions : Option String
  updatedAt : ℕ
  deriving DecidableEq, Repr

/-- A row of `chat_sessions`, with its metadata. -/
structure ChatRow where
  id : ℕ
  userId : ℕ
  title : Option String
  isPinned : Bool
  workspaceProjectId : Option ℕ
  updatedAt : ℕ
  deriving DecidableEq, Repr

/-- The columns of a workspace that a flush writes. -/
structure WorkspaceChange where
  name : Option String
  description : Option (Option String)
  instructions : Option (Option String)
  updatedAt : ℕ

/-- The columns of a chat that a flush writes. -/
structure ChatChange where
  title : Option (Option String)
  isPinned : Option Bool
  workspaceProjectId : Option (Option ℕ)
  updatedAt : ℕ

def WorkspaceProject.change (p : WorkspaceChange) (row : WorkspaceProject) : WorkspaceProject :=
  { row with
    name := p.name.getD row.name
    description := p.description.getD row.description
    instructions := p.instructions.getD row.instructions
    updatedAt := p.updatedAt }

def ChatRow.change (p : ChatChange) (row : ChatRow) : ChatRow :=
  { row with
    title := p.title.getD row.title
    isPinned := p.isPinned.getD row.isPinned
    workspaceProjectId := p.workspaceProjectId.getD row.workspaceProjectId
    updatedAt := p.updatedAt }

/-- The flush writes the attributes whose value has changed since the row was loaded. -/
def WorkspaceProject.changeTo (loaded new : WorkspaceProject) : WorkspaceChange where
  name := changed loaded.name new.name
  description := changed loaded.description new.description
  instructions := changed loaded.instructions new.instructions
  updatedAt := new.updatedAt

def ChatRow.changeTo (loaded new : ChatRow) : ChatChange where
  title := changed loaded.title new.title
  isPinned := changed loaded.isPinned new.isPinned
  workspaceProjectId := changed loaded.workspaceProjectId new.workspaceProjectId
  updatedAt := new.updatedAt

/-- The workspace that the flush makes the chat refer to. -/
def ChatChange.bindsTo (p : ChatChange) : Option ℕ := p.workspaceProjectId.join

/-- The tables. -/
structure BindingDb where
  workspaces : List WorkspaceProject
  files : List WorkspaceFile
  chats : List ChatRow

/-- The identifiers taken so far, each with the user it was taken for. -/
structure Taken where
  users : List ℕ

namespace Taken

instance : Preorder Taken where
  le t t' := t.users <+: t'.users
  le_refl t := List.prefix_rfl
  le_trans _ _ _ h h' := h.trans h'

/-- The next identifier. -/
def next (t : Taken) : ℕ := t.users.length

/-- The user for whom an identifier was taken. -/
def user (t : Taken) (id : ℕ) : Option ℕ := t.users[id]?

def take (t : Taken) (userId : ℕ) : Taken := ⟨t.users ++ [userId]⟩

theorem le_take (t : Taken) (u : ℕ) : t ≤ t.take u := List.prefix_append ..

@[simp] theorem user_take (t : Taken) (u : ℕ) : (t.take u).user t.next = some u := by
  simp [user, take, next]

theorem user_mono {t t' : Taken} (h : t ≤ t') {id u : ℕ} (hu : t.user id = some u) :
    t'.user id = some u := by
  obtain ⟨rest, hrest⟩ := h
  have hlt : id < t.users.length := (List.getElem?_eq_some_iff.1 hu).1
  rw [user, ← hrest, List.getElem?_append_left hlt]
  exact hu

theorem lt_next {t : Taken} {id u : ℕ} (hu : t.user id = some u) : id < t.next :=
  (List.getElem?_eq_some_iff.1 hu).1

end Taken

/-! ## Writes -/

/-- The writes. The deletion of a workspace names the files and the chats that refer to it. -/
inductive BindingOp : Type
  | insertWorkspace (row : WorkspaceProject)
  | updateWorkspace (id : ℕ) (p : WorkspaceChange)
  | deleteWorkspace (id : ℕ) (files chats : List ℕ)
  | insertFile (row : WorkspaceFile)
  | deleteFile (id : ℕ)
  | insertChat (row : ChatRow)
  | updateChat (id : ℕ) (p : ChatChange)
  | deleteChat (id : ℕ)

def BindingOp.apply : BindingOp → BindingDb → BindingDb
  | insertWorkspace row, d => { d with workspaces := d.workspaces ++ [row] }
  | updateWorkspace id p, d =>
    { d with workspaces := d.workspaces.map fun ws => if ws.id = id then ws.change p else ws }
  | deleteWorkspace id files chats, d =>
    { workspaces := d.workspaces.filter (·.id ≠ id)
      files := d.files.filter (·.id ∉ files)
      chats := d.chats.map fun c => if c.id ∈ chats then { c with workspaceProjectId := none } else c }
  | insertFile row, d => { d with files := d.files ++ [row] }
  | deleteFile id, d => { d with files := d.files.filter (·.id ≠ id) }
  | insertChat row, d => { d with chats := d.chats ++ [row] }
  | updateChat id p, d =>
    { d with chats := d.chats.map fun c => if c.id = id then c.change p else c }
  | deleteChat id, d => { d with chats := d.chats.filter (·.id ≠ id) }

/-- How a transaction holds a row: as one that it refers to, that it has changed, or that it has
inserted or deleted. -/
inductive LockMode : Type
  | keyShare
  | noKeyUpdate
  | update
  deriving DecidableEq

/-- The modes that two transactions cannot hold at once. -/
def LockMode.conflicts : LockMode → LockMode → Bool
  | update, _ => true
  | _, update => true
  | noKeyUpdate, noKeyUpdate => true
  | _, _ => false

inductive RowRef : Type
  | workspace (id : ℕ)
  | file (id : ℕ)
  | chat (id : ℕ)
  deriving DecidableEq

def BindingOp.locks : BindingOp → List (RowRef × LockMode)
  | insertWorkspace row => [(.workspace row.id, .update)]
  | updateWorkspace id _ => [(.workspace id, .noKeyUpdate)]
  | deleteWorkspace id files chats => (.workspace id, .update) ::
      (files.map fun f => (.file f, .update)) ++ chats.map fun c => (.chat c, .noKeyUpdate)
  | insertFile row => [(.file row.id, .update), (.workspace row.workspaceProjectId, .keyShare)]
  | deleteFile id => [(.file id, .update)]
  | insertChat row => (.chat row.id, .update) ::
      row.workspaceProjectId.toList.map fun w => (.workspace w, .keyShare)
  | updateChat id p => (.chat id, .noKeyUpdate) ::
      p.bindsTo.toList.map fun w => (.workspace w, .keyShare)
  | deleteChat id => [(.chat id, .update)]

/-- Two logs can be open together when they hold no row in conflicting modes. -/
def BindingOp.Apart (l l' : List BindingOp) : Prop :=
  ∀ k ∈ l.flatMap locks, ∀ k' ∈ l'.flatMap locks, k.1 = k'.1 → k.2.conflicts k'.2 = false

theorem LockMode.conflicts_comm (m m' : LockMode) : m.conflicts m' = m'.conflicts m := by
  cases m <;> cases m' <;> rfl

/-! ## Statements -/

/-- The errors of a flush: a foreign key without its row, and an `UPDATE` of a row that is gone. -/
inductive FlushError : Type
  | integrityError
  | staleDataError
  deriving DecidableEq, Repr

inductive BindingStmt : Type
  | getWorkspace (workspaceId userId : ℕ)
  | insertWorkspace (userId : ℕ) (name : String) (description instructions : Option String) (now : ℕ)
  | flushWorkspace (id : ℕ) (p : WorkspaceChange)
  | deleteWorkspace (workspaceId userId : ℕ)
  | fileCount (workspaceId : ℕ)
  | totalBytes (workspaceId : ℕ)
  | insertFile (workspaceId userId : ℕ) (req : UploadRequest) (extracted : ExtractedFile)
  | deleteFile (workspaceId fileId : ℕ)
  | getChat (sessionId userId : ℕ)
  | insertChat (userId : ℕ) (title : Option String) (workspaceProjectId : Option ℕ) (now : ℕ)
  | flushChat (id : ℕ) (p : ChatChange)
  | deleteChat (sessionId userId : ℕ)

/-- The files of a workspace. -/
def BindingDb.filesOf (d : BindingDb) (workspaceId : ℕ) : List WorkspaceFile :=
  d.files.filter (·.workspaceProjectId = workspaceId)

/-- The chats that are bound to a workspace. -/
def BindingDb.chatsOf (d : BindingDb) (workspaceId : ℕ) : List ChatRow :=
  d.chats.filter (·.workspaceProjectId = some workspaceId)

/-- The workspace is there, as the check of a foreign key sees it. -/
def BindingDb.refers (d : BindingDb) (workspaceProjectId : Option ℕ) : Bool :=
  workspaceProjectId.all fun w => d.workspaces.any (·.id = w)

namespace BindingStmt

@[reducible] def Resp : BindingStmt → Type
  | getWorkspace .. => Option WorkspaceProject
  | insertWorkspace .. => WorkspaceProject
  | flushWorkspace .. => Except FlushError Unit
  | deleteWorkspace .. => Bool
  | fileCount _ => ℕ
  | totalBytes _ => ℕ
  | insertFile .. => Except FlushError WorkspaceFile
  | deleteFile .. => Bool
  | getChat .. => Option ChatRow
  | insertChat .. => Except FlushError ChatRow
  | flushChat .. => Except FlushError Unit
  | deleteChat .. => Bool

/-- The answer, the writes and the next identifiers. -/
def run (t : Taken) (d : BindingDb) : (s : BindingStmt) → s.Resp × List BindingOp × Taken
  | getWorkspace w u => (d.workspaces.find? fun ws => ws.id = w ∧ ws.userId = u, [], t)
  | insertWorkspace u name description instructions now =>
    let row : WorkspaceProject := ⟨t.next, u, name, description, instructions, now⟩
    (row, [.insertWorkspace row], t.take u)
  | flushWorkspace id p =>
    if d.workspaces.any (·.id = id) then (.ok (), [.updateWorkspace id p], t)
    else (.error .staleDataError, [], t)
  | deleteWorkspace w u =>
    if d.workspaces.any fun ws => ws.id = w ∧ ws.userId = u then
      (true, [.deleteWorkspace w ((d.filesOf w).map (·.id)) ((d.chatsOf w).map (·.id))], t)
    else (false, [], t)
  | fileCount w => ((d.filesOf w).length, [], t)
  | totalBytes w => (((d.filesOf w).map WorkspaceFile.size).sum, [], t)
  | insertFile w u req extracted =>
    let row : WorkspaceFile := ⟨t.next, w, req.filename, extracted.content, req.mediaType,
      extracted.size, extracted.extractedText⟩
    if d.refers (some w) then (.ok row, [.insertFile row], t.take u)
    else (.error .integrityError, [], t.take u)
  | deleteFile w f =>
    if d.files.any fun row => row.id = f ∧ row.workspaceProjectId = w then
      (true, [.deleteFile f], t)
    else (false, [], t)
  | getChat sid u => (d.chats.find? fun c => c.id = sid ∧ c.userId = u, [], t)
  | insertChat u title w now =>
    let row : ChatRow := ⟨t.next, u, title, false, w, now⟩
    if d.refers w then (.ok row, [.insertChat row], t.take u)
    else (.error .integrityError, [], t.take u)
  | flushChat id p =>
    if d.chats.any (·.id = id) then
      if d.refers p.bindsTo then (.ok (), [.updateChat id p], t) else (.error .integrityError, [], t)
    else (.error .staleDataError, [], t)
  | deleteChat sid u =>
    if d.chats.any fun c => c.id = sid ∧ c.userId = u then (true, [.deleteChat sid], t)
    else (false, [], t)

theorem le_run (t : Taken) (d : BindingDb) (s : BindingStmt) : t ≤ (s.run t d).2.2 := by
  cases s with
  | insertWorkspace => exact t.le_take _
  | insertFile | insertChat =>
    rw [run]
    split <;> exact t.le_take _
  | flushChat =>
    rw [run]
    split
    · split <;> exact le_refl t
    · exact le_refl t
  | flushWorkspace | deleteWorkspace | deleteFile | deleteChat =>
    rw [run]
    split <;> exact le_refl t
  | _ => exact le_refl t

/-- The workspace that a flush makes a row refer to. -/
def binds : BindingStmt → Option ℕ
  | insertFile w .. => some w
  | insertChat _ _ w _ => w
  | flushChat _ p => p.bindsTo
  | _ => none

/-- The flush has failed. -/
def failed : (s : BindingStmt) → s.Resp → Bool
  | insertFile .., r => !r.isOk
  | insertChat .., r => !r.isOk
  | flushChat .., r => !r.isOk
  | _, _ => false

/-- A flush that makes a row refer to a workspace that is gone fails, and writes nothing. -/
theorem failed_run {s : BindingStmt} {w : ℕ} {t : Taken} {d : BindingDb} (hs : s.binds = some w)
    (hgone : ∀ ws ∈ d.workspaces, ws.id ≠ w) :
    s.failed (s.run t d).1 = true ∧ (s.run t d).2.1 = [] := by
  have hrefers : d.refers (some w) = false := by
    rw [BindingDb.refers, Option.all_some, List.any_eq_false]
    exact fun ws hws => by simpa using hgone ws hws
  cases s with
  | insertFile w' u req extracted =>
    obtain rfl : w' = w := Option.some.inj hs
    rw [run, hrefers]
    exact ⟨rfl, rfl⟩
  | insertChat u title w' now =>
    obtain rfl : w' = some w := hs
    rw [run, hrefers]
    exact ⟨rfl, rfl⟩
  | flushChat id p =>
    have hp : p.bindsTo = some w := hs
    rw [run, hp, hrefers]
    split <;> exact ⟨rfl, rfl⟩
  | _ => cases hs

end BindingStmt

/-- The tables as a read-committed store. -/
def bindingStore : Store BindingStmt BindingStmt.Resp BindingDb BindingOp Taken Unit where
  apply := BindingOp.apply
  exec s t _ d r ops t' _ := s.run t d = (r, ops, t')
  compat := BindingOp.Apart
  gen_le {s t t' m m' d r ops} h := by
    have := s.le_run t d
    rwa [h] at this
  compat_symm h k hk k' hk' he := (LockMode.conflicts_comm ..).trans (h k' hk' k hk he.symm)
  compat_nil l k hk := by simp at hk

/-! ## The narrower models -/

/-- The tables as the model of the files has them. -/
def BindingDb.filesDb (d : BindingDb) : FilesDb :=
  ⟨d.workspaces.map fun ws => (ws.id, ws.userId), d.files⟩

/-- The statement that stands for one of the model of the files, in a request of a user. -/
def BindingStmt.ofFiles (userId : ℕ) : FilesStmt → BindingStmt
  | .ownsWorkspace w u => getWorkspace w u
  | .fileCount w => fileCount w
  | .totalBytes w => totalBytes w
  | .insertFile w req extracted => insertFile w userId req extracted
  | .deleteFile w f => deleteFile w f

/-- Its answer, as that of the other statement; none for a flush that fails. -/
def BindingStmt.filesResp {userId : ℕ} :
    (s : FilesStmt) → (ofFiles userId s).Resp → Option s.Resp
  | .ownsWorkspace .., r => some r.isSome
  | .fileCount _, r => some r
  | .totalBytes _, r => some r
  | .insertFile .., r => r.toOption
  | .deleteFile .., r => some r

/-- The writes to the files. -/
def BindingOp.filesOp : BindingOp → Option FilesOp
  | insertFile row => some (.insertFile row)
  | deleteFile id => some (.deleteFile id)
  | _ => none

/-- **The model of the files agrees**: a statement has its answer and its writes, and takes as many
identifiers, while the workspaces of the files that are inserted are there. -/
theorem run_ofFiles (s : FilesStmt) (userId : ℕ) (t : Taken) (m : Seen) (d : BindingDb)
    (hs : ∀ w, (BindingStmt.ofFiles userId s).binds = some w → d.refers (some w) = true) :
    BindingStmt.filesResp s ((BindingStmt.ofFiles userId s).run t d).1 =
        some (s.run t.next m d.filesDb).1 ∧
      ((BindingStmt.ofFiles userId s).run t d).2.1.filterMap BindingOp.filesOp =
        (s.run t.next m d.filesDb).2.1 ∧
      ((BindingStmt.ofFiles userId s).run t d).2.2.next = (s.run t.next m d.filesDb).2.2.1 := by
  cases s with
  | ownsWorkspace w u =>
    have howns : (d.workspaces.find? fun ws => ws.id = w ∧ ws.userId = u).isSome =
        decide ((w, u) ∈ d.workspaces.map fun ws => (ws.id, ws.userId)) := by
      rw [Bool.eq_iff_iff, List.find?_isSome, decide_eq_true_eq, List.mem_map]
      refine exists_congr fun ws => and_congr_right fun _ => ?_
      rw [decide_eq_true_eq, Prod.mk.injEq]
    exact ⟨congrArg some howns, rfl, rfl⟩
  | fileCount w => exact ⟨rfl, rfl, rfl⟩
  | totalBytes w => exact ⟨rfl, rfl, rfl⟩
  | insertFile w req extracted =>
    have hrefers : d.refers (some w) = true := hs w rfl
    have hrun : (BindingStmt.ofFiles userId (.insertFile w req extracted)).run t d =
        (.ok ⟨t.next, w, req.filename, extracted.content, req.mediaType, extracted.size,
          extracted.extractedText⟩, [.insertFile ⟨t.next, w, req.filename, extracted.content,
          req.mediaType, extracted.size, extracted.extractedText⟩], t.take userId) := if_pos hrefers
    rw [hrun]
    refine ⟨rfl, rfl, ?_⟩
    simp [FilesStmt.run, Taken.take, Taken.next]
  | deleteFile w f =>
    by_cases hfile : (d.files.any fun f' => f'.id = f ∧ f'.workspaceProjectId = w) = true
    · have hrun : (BindingStmt.ofFiles userId (.deleteFile w f)).run t d =
          (true, [.deleteFile f], t) := if_pos hfile
      have hfiles : (FilesStmt.deleteFile w f).run t.next m d.filesDb =
          (true, [.deleteFile f], t.next, m) := if_pos hfile
      rw [hrun, hfiles]
      exact ⟨rfl, rfl, rfl⟩
    · have hrun : (BindingStmt.ofFiles userId (.deleteFile w f)).run t d = (false, [], t) :=
        if_neg hfile
      have hfiles : (FilesStmt.deleteFile w f).run t.next m d.filesDb = (false, [], t.next, m) :=
        if_neg hfile
      rw [hrun, hfiles]
      exact ⟨rfl, rfl, rfl⟩

/-- The tables as the list of the workspaces has them, with the identifiers and the times that the
numbers stand for. -/
def BindingDb.tables (d : BindingDb) (uuid : ℕ → Uuid) (time : ℕ → Timestamp) : WorkspaceTables where
  workspaces := d.workspaces.map fun ws => ⟨uuid ws.id, uuid ws.userId, ws.name, ws.description,
    ws.instructions, time ws.updatedAt, time ws.updatedAt⟩
  files := d.files.map fun f => uuid f.workspaceProjectId
  chats := d.chats.map fun c => c.workspaceProjectId.map uuid

/-- **The list agrees**: it shows the numbers of the files and the chats of a workspace. -/
theorem listed_counts {d : BindingDb} {uuid : ℕ → Uuid} {w : ℕ}
    (hfiles : ∀ f ∈ d.files, uuid f.workspaceProjectId = uuid w → f.workspaceProjectId = w)
    (hchats : ∀ c ∈ d.chats, ∀ w' ∈ c.workspaceProjectId, uuid w' = uuid w → w' = w)
    (time : ℕ → Timestamp) (row : Workspaces.WorkspaceProject) (hrow : row.id = uuid w) :
    (listed (d.tables uuid time) row).fileCount = (d.filesOf w).length ∧
      (listed (d.tables uuid time) row).chatCount = (d.chatsOf w).length := by
  have hfileCount : (d.files.map fun f => uuid f.workspaceProjectId).count (uuid w) =
      (d.filesOf w).length := by
    rw [List.count, List.countP_map, BindingDb.filesOf, ← List.countP_eq_length_filter]
    refine List.countP_congr fun f hf => ?_
    rw [Function.comp_apply, beq_iff_eq, decide_eq_true_eq]
    exact ⟨hfiles f hf, congrArg uuid⟩
  have hchatCount : (d.chats.map fun c => c.workspaceProjectId.map uuid).count (some (uuid w)) =
      (d.chatsOf w).length := by
    rw [List.count, List.countP_map, BindingDb.chatsOf, ← List.countP_eq_length_filter]
    refine List.countP_congr fun c hc => ?_
    rw [Function.comp_apply, beq_iff_eq, decide_eq_true_eq, Option.map_eq_some_iff]
    constructor
    · rintro ⟨w', hw', heq⟩
      rw [hw', hchats c hc w' hw' heq]
    · intro hw
      exact ⟨w, hw, rfl⟩
  rw [listed, hrow]
  exact ⟨hfileCount, hchatCount⟩

/-! ## The services -/

/-- The errors: those that the services raise, and those of a flush. -/
inductive BindingError : Type
  | notFound (message : String)
  | validationFailed (message : String)
  | payloadTooLarge (message : String)
  | workspaceNotFound (message : String)
  | flush (e : FlushError)
  deriving DecidableEq, Repr

/-- An error of the file service. -/
def BindingError.ofWorkspaces : WorkspacesError → BindingError
  | .notFound m => notFound m
  | .validationFailed m => validationFailed m
  | .payloadTooLarge m => payloadTooLarge m

abbrev BindingProg : Type → Type := TxProg BindingStmt BindingStmt.Resp BindingError

def BindingStmt.prog (s : BindingStmt) : BindingProg s.Resp := TxProg.stmt s

/-- A flush that fails raises. -/
def flushed {α : Type} (p : BindingProg (Except FlushError α)) : BindingProg α := do
  match ← p with
  | .ok a => pure a
  | .error e => throw (.flush e)

/-- `_require_workspace`. -/
def requireWorkspace (workspaceId userId : ℕ) : BindingProg WorkspaceProject := do
  match ← (BindingStmt.getWorkspace workspaceId userId).prog with
  | some workspace => pure workspace
  | none => throw (.notFound "workspace not found")

/-- `owns_workspace`. -/
def ownsWorkspace (workspaceId userId : ℕ) : BindingProg Bool := do
  let workspace ← (BindingStmt.getWorkspace workspaceId userId).prog
  pure workspace.isSome

/-- `create`. -/
def create (userId : ℕ) (name : String) (description instructions : Option String) (now : ℕ) :
    BindingProg WorkspaceProject := do
  let row ← (BindingStmt.insertWorkspace userId (Chat.strip name) description instructions now).prog
  TxProg.commit
  pure row

/-- What a `PATCH` of a workspace provides. -/
structure WorkspaceUpdate where
  name : Option String
  setDescription : Bool
  description : Option String
  setInstructions : Bool
  instructions : Option String

/-- The row after the assignments of `update_workspace`. -/
def WorkspaceUpdate.assign (req : WorkspaceUpdate) (now : ℕ) (row : WorkspaceProject) :
    WorkspaceProject :=
  { row with
    name := (req.name.map Chat.strip).getD row.name
    description := if req.setDescription then req.description else row.description
    instructions := if req.setInstructions then req.instructions else row.instructions
    updatedAt := now }

/-- `update`. -/
def update (workspaceId userId : ℕ) (req : WorkspaceUpdate) (now : ℕ) :
    BindingProg WorkspaceProject := do
  let workspace ← requireWorkspace workspaceId userId
  flushed (BindingStmt.flushWorkspace workspace.id
    (workspace.changeTo (req.assign now workspace))).prog
  TxProg.commit
  pure (req.assign now workspace)

/-- `delete`. -/
def delete (workspaceId userId : ℕ) : BindingProg Unit := do
  let deleted ← (BindingStmt.deleteWorkspace workspaceId userId).prog
  TxProg.commit
  if deleted then pure () else throw (.notFound "workspace not found")

/-- `upload_file`. -/
def uploadFile (settings : FileSettings) (workspaceId userId : ℕ) (req : UploadRequest) :
    BindingProg WorkspaceFile := do
  let _ ← requireWorkspace workspaceId userId
  let count ← (BindingStmt.fileCount workspaceId).prog
  if settings.workspaceFileMaxCount ≤ count then
    throw (.validationFailed "workspace file count limit exceeded")
  else
    match req.extracted with
    | .error e => throw (.ofWorkspaces e)
    | .ok extracted => do
      let currentTotal ← (BindingStmt.totalBytes workspaceId).prog
      if settings.workspaceFilesTotalBytes < currentTotal + extracted.size then
        throw (.validationFailed "workspace total size limit exceeded")
      else do
        let row ← flushed (BindingStmt.insertFile workspaceId userId req extracted).prog
        TxProg.commit
        pure row

/-- `delete_file`. -/
def deleteFile (workspaceId userId fileId : ℕ) : BindingProg Unit := do
  let _ ← requireWorkspace workspaceId userId
  let deleted ← (BindingStmt.deleteFile workspaceId fileId).prog
  TxProg.commit
  if deleted then pure () else throw (.notFound "file not found")

/-- What a `PATCH` of a chat provides. -/
structure ChatUpdate where
  title : Option String
  setTitle : Bool
  isPinned : Option Bool
  setWorkspaceProjectId : Bool
  workspaceProjectId : Option ℕ

/-- The workspace that the patch binds the chat to. -/
def ChatUpdate.target (req : ChatUpdate) : Option ℕ :=
  if req.setWorkspaceProjectId then req.workspaceProjectId else none

/-- The row after the assignments of `update_metadata`. -/
def ChatUpdate.assign (req : ChatUpdate) (now : ℕ) (row : ChatRow) : ChatRow :=
  { row with
    title := if req.setTitle then req.title else row.title
    isPinned := req.isPinned.getD row.isPinned
    workspaceProjectId :=
      if req.setWorkspaceProjectId then req.workspaceProjectId else row.workspaceProjectId
    updatedAt := now }

/-- The check of the workspace that a chat is to be bound to. -/
def checkTarget (target : Option ℕ) (userId : ℕ) : BindingProg Unit :=
  match target with
  | none => pure ()
  | some w => do
    if ← ownsWorkspace w userId then pure () else throw (.workspaceNotFound "workspace not found")

/-- `rename_or_pin`. -/
def renameOrPin (sessionId userId : ℕ) (req : ChatUpdate) (now : ℕ) : BindingProg ChatRow := do
  match ← (BindingStmt.getChat sessionId userId).prog with
  | none => throw (.notFound "chat not found")
  | some session => do
    checkTarget req.target userId
    flushed (BindingStmt.flushChat session.id (session.changeTo (req.assign now session))).prog
    TxProg.commit
    pure (req.assign now session)

/-- `delete_chat`. -/
def deleteChat (sessionId userId : ℕ) : BindingProg Unit := do
  let deleted ← (BindingStmt.deleteChat sessionId userId).prog
  TxProg.commit
  if deleted then pure () else throw (.notFound "chat not found")

/-- A run that creates its session: the check of the workspace, and the row. -/
def createSession (userId : ℕ) (title : Option String) (workspaceProjectId : Option ℕ) (now : ℕ) :
    BindingProg ChatRow := do
  checkTarget workspaceProjectId userId
  let row ← flushed (BindingStmt.insertChat userId title workspaceProjectId now).prog
  TxProg.commit
  pure row

/-- A request. -/
inductive BindingRequest : Type
  | create (name : String) (description instructions : Option String) (now : ℕ)
  | update (workspaceId : ℕ) (req : WorkspaceUpdate) (now : ℕ)
  | delete (workspaceId : ℕ)
  | uploadFile (settings : FileSettings) (workspaceId : ℕ) (req : UploadRequest)
  | deleteFile (workspaceId fileId : ℕ)
  | renameOrPin (sessionId : ℕ) (req : ChatUpdate) (now : ℕ)
  | deleteChat (sessionId : ℕ)
  | createSession (title : Option String) (workspaceProjectId : Option ℕ) (now : ℕ)

/-- The handling of a request of the user `u`. -/
def BindingRequest.prog (u : ℕ) : BindingRequest → BindingProg Unit
  | create name description instructions now => do
    let _ ← Binding.create u name description instructions now
    pure ()
  | update w req now => do
    let _ ← Binding.update w u req now
    pure ()
  | delete w => Binding.delete w u
  | uploadFile settings w req => do
    let _ ← Binding.uploadFile settings w u req
    pure ()
  | deleteFile w f => Binding.deleteFile w u f
  | renameOrPin sid req now => do
    let _ ← Binding.renameOrPin sid u req now
    pure ()
  | deleteChat sid => Binding.deleteChat sid u
  | createSession title w now => do
    let _ ← Binding.createSession u title w now
    pure ()

/-- The same, in its session scope. -/
def BindingRequest.serve (u : ℕ) (c : BindingRequest) : BindingProg Unit :=
  TxProg.sessionScope (c.prog u)

end ChatBackend.Workspaces.Binding

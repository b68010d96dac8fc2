import ChatBackend.Foundations.Alone
import ChatBackend.Foundations.Guarantee
import Mathlib

/-!
# The files of the workspaces

`upload_file` and `delete_file`, and the limits on the files of a workspace. An upload reads the number
of the files and their bytes before it inserts its own, and nothing is locked in between. The limits hold
in every state that is committed when an upload commits only while the workspace has no more files and
bytes than it has read (`workspace_limits`); two uploads at once may exceed them
(`workspace_limits_fails`).
-/

namespace ChatBackend.Workspaces

open Prog Store

/-- The settings. -/
structure FileSettings where
  workspaceFileMaxCount : ℕ
  workspaceFilesTotalBytes : ℕ

/-- A row of `workspace_files`. -/
structure WorkspaceFile where
  id : ℕ
  workspaceProjectId : ℕ
  filename : String
  content : List UInt8
  mediaType : String
  size : ℕ
  extractedText : Option String
  deriving DecidableEq, Repr

/-- `ExtractedFile`. -/
structure ExtractedFile where
  content : List UInt8
  extractedText : Option String
  size : ℕ

/-- The errors of the service, as far as it raises them itself. -/
inductive WorkspacesError : Type
  | notFound (message : String)
  | validationFailed (message : String)
  | payloadTooLarge (message : String)
  deriving DecidableEq, Repr

/-- `WorkspaceFileUploadRequest`, with what `validate_and_extract` makes of it. -/
structure UploadRequest where
  filename : String
  mediaType : String
  extracted : Except WorkspacesError ExtractedFile

/-! ## The tables -/

/-- The tables: the workspaces with their users, and the files. -/
structure FilesDb where
  workspaces : List (ℕ × ℕ)
  files : List WorkspaceFile

/-- The writes. -/
inductive FilesOp : Type
  | insertFile (row : WorkspaceFile)
  | deleteFile (id : ℕ)

def FilesOp.apply : FilesOp → FilesDb → FilesDb
  | insertFile row, d => { d with files := d.files ++ [row] }
  | deleteFile id, d => { d with files := d.files.filter (·.id ≠ id) }

/-- The row that a write locks. -/
def FilesOp.lock : FilesOp → Option ℕ
  | insertFile _ => none
  | deleteFile id => some id

/-- The files of a workspace. -/
def FilesDb.filesOf (d : FilesDb) (workspaceId : ℕ) : List WorkspaceFile :=
  d.files.filter (·.workspaceProjectId = workspaceId)

/-- The number of the files of a workspace. -/
def FilesDb.count (d : FilesDb) (workspaceId : ℕ) : ℕ := (d.filesOf workspaceId).length

/-- The bytes of the files of a workspace. -/
def FilesDb.bytes (d : FilesDb) (workspaceId : ℕ) : ℕ :=
  ((d.filesOf workspaceId).map WorkspaceFile.size).sum

/-- What a request has read of the limits. -/
structure Seen where
  count : ℕ
  bytes : ℕ

inductive FilesStmt : Type
  | ownsWorkspace (workspaceId userId : ℕ)
  | fileCount (workspaceId : ℕ)
  | totalBytes (workspaceId : ℕ)
  | insertFile (workspaceId : ℕ) (req : UploadRequest) (extracted : ExtractedFile)
  | deleteFile (workspaceId fileId : ℕ)

namespace FilesStmt

@[reducible] def Resp : FilesStmt → Type
  | ownsWorkspace .. => Bool
  | fileCount _ => ℕ
  | totalBytes _ => ℕ
  | insertFile .. => WorkspaceFile
  | deleteFile .. => Bool

/-- The answer, the writes, the next identifier and the memory. -/
def run (g : ℕ) (m : Seen) (d : FilesDb) : (s : FilesStmt) → s.Resp × List FilesOp × ℕ × Seen
  | ownsWorkspace workspaceId userId => ((workspaceId, userId) ∈ d.workspaces, [], g, m)
  | fileCount workspaceId => (d.count workspaceId, [], g, { m with count := d.count workspaceId })
  | totalBytes workspaceId => (d.bytes workspaceId, [], g, { m with bytes := d.bytes workspaceId })
  | insertFile workspaceId req extracted =>
    let row : WorkspaceFile := ⟨g, workspaceId, req.filename, extracted.content, req.mediaType,
      extracted.size, extracted.extractedText⟩
    (row, [.insertFile row], g + 1, m)
  | deleteFile workspaceId fileId =>
    if d.files.any fun f => f.id = fileId ∧ f.workspaceProjectId = workspaceId then
      (true, [.deleteFile fileId], g, m)
    else (false, [], g, m)

theorem le_run (g : ℕ) (m : Seen) (d : FilesDb) (s : FilesStmt) : g ≤ (s.run g m d).2.2.1 := by
  cases s with
  | insertFile => exact Nat.le_succ g
  | deleteFile => rw [run]; split <;> exact le_rfl
  | _ => exact le_rfl

end FilesStmt

/-- Two logs can be open together when they delete no file both. -/
def FilesOp.Apart (l l' : List FilesOp) : Prop :=
  ∀ id ∈ l.filterMap FilesOp.lock, id ∉ l'.filterMap FilesOp.lock

/-- The tables as a read-committed store. -/
def filesStore : Store FilesStmt FilesStmt.Resp FilesDb FilesOp ℕ Seen where
  apply := FilesOp.apply
  exec s g m d r ops g' m' := s.run g m d = (r, ops, g', m')
  compat := FilesOp.Apart
  gen_le {s g g' m m' d r ops} h := by
    have := s.le_run g m d
    rwa [h] at this
  compat_symm h id hid hid' := h id hid' hid
  compat_nil l id hid := by simp at hid

/-! ## The service -/

abbrev FilesProg : Type → Type := TxProg FilesStmt FilesStmt.Resp WorkspacesError

def FilesStmt.prog (s : FilesStmt) : FilesProg s.Resp := TxProg.stmt s

/-- `_require_workspace`. -/
def requireWorkspace (workspaceId userId : ℕ) : FilesProg Unit := do
  if ← (FilesStmt.ownsWorkspace workspaceId userId).prog then pure ()
  else throw (.notFound "workspace not found")

/-- `add_file`. -/
def addFile (workspaceId : ℕ) (req : UploadRequest) (extracted : ExtractedFile) :
    FilesProg WorkspaceFile := do
  let row ← (FilesStmt.insertFile workspaceId req extracted).prog
  TxProg.commit
  pure row

/-- `upload_file`. -/
def uploadFile (settings : FileSettings) (workspaceId userId : ℕ) (req : UploadRequest) :
    FilesProg WorkspaceFile := do
  requireWorkspace workspaceId userId
  let count ← (FilesStmt.fileCount workspaceId).prog
  if settings.workspaceFileMaxCount ≤ count then
    throw (.validationFailed "workspace file count limit exceeded")
  else
    match req.extracted with
    | .error e => throw e
    | .ok extracted => do
      let currentTotal ← (FilesStmt.totalBytes workspaceId).prog
      if settings.workspaceFilesTotalBytes < currentTotal + extracted.size then
        throw (.validationFailed "workspace total size limit exceeded")
      else addFile workspaceId req extracted

/-- `delete_file`. -/
def deleteFile (workspaceId userId fileId : ℕ) : FilesProg Unit := do
  requireWorkspace workspaceId userId
  let deleted ← (FilesStmt.deleteFile workspaceId fileId).prog
  TxProg.commit
  if deleted then pure () else throw (.notFound "file not found")

/-- A request about the files. -/
inductive FilesRequest : Type
  | upload (workspaceId userId : ℕ) (req : UploadRequest)
  | delete (workspaceId userId fileId : ℕ)

/-- The handling of a request, in its session. -/
def FilesRequest.serve (settings : FileSettings) : FilesRequest → FilesProg Unit
  | upload workspaceId userId req => TxProg.sessionScope do
    let _ ← uploadFile settings workspaceId userId req
    pure ()
  | delete workspaceId userId fileId => TxProg.sessionScope (deleteFile workspaceId userId fileId)

/-! ## The limits -/

/-- No workspace has more than is allowed. -/
def Within (settings : FileSettings) (d : FilesDb) : Prop :=
  ∀ workspaceId, d.count workspaceId ≤ settings.workspaceFileMaxCount ∧
    d.bytes workspaceId ≤ settings.workspaceFilesTotalBytes

/-- When an upload commits, its workspace has no more files and bytes than it has read. -/
def upToDate (l : Held FilesOp Seen) (d : FilesDb) : TxAct FilesStmt → Bool
  | .commit => l.log.all fun o => match o with
    | .insertFile row => d.count row.workspaceProjectId ≤ l.mem.count ∧
      d.bytes row.workspaceProjectId ≤ l.mem.bytes
    | .deleteFile _ => true
  | _ => true

/-- What a session commits: nothing, the deletion of a file, or a file that fits what it has read. -/
def Fits (settings : FileSettings) (l : Held FilesOp Seen) : Prop :=
  l.log = [] ∨ (∃ id, l.log = [.deleteFile id]) ∨ ∃ row, l.log = [.insertFile row] ∧
    l.mem.count < settings.workspaceFileMaxCount ∧
    l.mem.bytes + row.size ≤ settings.workspaceFilesTotalBytes

/-- The same, for an action that is a commit. -/
def Commits (settings : FileSettings) : TxAct FilesStmt → Held FilesOp Seen → Prop
  | .commit, l => Fits settings l
  | _, _ => True

section Limits

variable {settings : FileSettings} {d : FilesDb} {l : Held FilesOp Seen} {workspaceId : ℕ}

theorem count_insert (row : WorkspaceFile) : ((FilesOp.insertFile row).apply d).count workspaceId =
    d.count workspaceId + if row.workspaceProjectId = workspaceId then 1 else 0 := by
  rw [FilesDb.count, FilesDb.filesOf, FilesOp.apply, List.filter_append, List.length_append]
  by_cases h : row.workspaceProjectId = workspaceId <;> simp [h, FilesDb.count, FilesDb.filesOf]

theorem bytes_insert (row : WorkspaceFile) : ((FilesOp.insertFile row).apply d).bytes workspaceId =
    d.bytes workspaceId + if row.workspaceProjectId = workspaceId then row.size else 0 := by
  rw [FilesDb.bytes, FilesDb.filesOf, FilesOp.apply, List.filter_append, List.map_append, List.sum_append]
  by_cases h : row.workspaceProjectId = workspaceId <;> simp [h, FilesDb.bytes, FilesDb.filesOf]

/-- A deletion leaves some of the files. -/
theorem filesOf_delete (id : ℕ) :
    (((FilesOp.deleteFile id).apply d).filesOf workspaceId).Sublist (d.filesOf workspaceId) :=
  List.filter_sublist.filter _

/-- **A commit keeps the limits** where the workspace has no more than was read. -/
theorem Within.commit (hd : Within settings d) (h : Fits settings l)
    (hok : upToDate l d .commit = true) : Within settings (filesStore.view l.log d) := by
  intro workspaceId
  have hws := hd workspaceId
  obtain hlog | ⟨id, hlog⟩ | ⟨row, hlog, hcount, hbytes⟩ := h
  · rw [hlog]
    exact hws
  · rw [hlog]
    have hsub : (((FilesOp.deleteFile id).apply d).filesOf workspaceId).Sublist (d.filesOf workspaceId) :=
      filesOf_delete id
    have hsum := (hsub.map WorkspaceFile.size).sum_le_sum fun _ _ => Nat.zero_le _
    exact ⟨hsub.length_le.trans hws.1, hsum.trans hws.2⟩
  · have hread : d.count row.workspaceProjectId ≤ l.mem.count ∧
        d.bytes row.workspaceProjectId ≤ l.mem.bytes := by simpa [upToDate, hlog] using hok
    rw [hlog]
    show ((FilesOp.insertFile row).apply d).count workspaceId ≤ _ ∧
      ((FilesOp.insertFile row).apply d).bytes workspaceId ≤ _
    rw [count_insert, bytes_insert]
    by_cases h : row.workspaceProjectId = workspaceId
    · subst h
      simp only [if_true]
      omega
    · simpa [h] using hws

/-! ## What a request commits -/

/-- The rule for a statement. -/
theorem wp_filesStmt {α : Type} {Q : Except WorkspacesError α → Held FilesOp Seen → Prop} {s : FilesStmt}
    {k : s.Resp → FilesProg α}
    (h : ∀ g d, Prog.wp (AloneStep filesStore) (Commits settings) Q (k (s.run g l.mem d).1)
      ⟨l.log ++ (s.run g l.mem d).2.1, (s.run g l.mem d).2.2.2⟩) :
    Prog.wp (AloneStep filesStore) (Commits settings) Q (.act (.stmt s) k) l := by
  refine ⟨trivial, fun r l' hs => ?_⟩
  cases hs with
  | stmt he =>
    rename_i g gen d ops mem
    have hrun : s.run g l.mem (filesStore.view l.log d) = (r, ops, gen, mem) := he
    have hk := h g (filesStore.view l.log d)
    rw [hrun] at hk
    exact hk

/-- The session has no open transaction. -/
def Idle {α : Type} (_ : Except WorkspacesError α) (l : Held FilesOp Seen) : Prop := l.log = []

/-- A commit ends the open transaction. -/
theorem wp_filesCommit {α : Type} {Q : Except WorkspacesError α → Held FilesOp Seen → Prop}
    {k : Unit → FilesProg α} (hfits : Fits settings l)
    (h : Prog.wp (AloneStep filesStore) (Commits settings) Q (k ()) ⟨[], l.mem⟩) :
    Prog.wp (AloneStep filesStore) (Commits settings) Q (.act .commit k) l := by
  refine ⟨hfits, fun r l' hs => ?_⟩
  cases hs
  exact h

theorem requireWorkspace_wp {userId : ℕ} {Q : Except WorkspacesError Unit → Held FilesOp Seen → Prop}
    (hok : Q (.ok ()) l) (hraise : ∀ e, Q (.error e) l) :
    (requireWorkspace workspaceId userId).wp (AloneStep filesStore) (Commits settings) Q l := by
  refine wp_filesStmt fun _ d => ?_
  simp only [FilesStmt.run, List.append_nil, ret_bind]
  split_ifs
  · exact hok
  · exact hraise _

theorem uploadFile_wp {userId : ℕ} {req : UploadRequest} (hlog : l.log = []) :
    (uploadFile settings workspaceId userId req).wp (AloneStep filesStore) (Commits settings) Idle l := by
  unfold uploadFile
  rw [bind_eq, Prog.wp_bind]
  refine requireWorkspace_wp ?_ fun e => hlog
  simp only [bindPost]
  refine wp_filesStmt fun _ d₁ => ?_
  simp only [FilesStmt.run, List.append_nil, ret_bind]
  split_ifs with hcount
  · exact hlog
  cases req.extracted with
  | error e => exact hlog
  | ok extracted =>
    refine wp_filesStmt fun _ d₂ => ?_
    simp only [FilesStmt.run, List.append_nil, ret_bind]
    split_ifs with hbytes
    · exact hlog
    · refine wp_filesStmt fun g d₃ => wp_filesCommit ?_ rfl
      let row : WorkspaceFile := ⟨g, workspaceId, req.filename, extracted.content, req.mediaType,
        extracted.size, extracted.extractedText⟩
      exact .inr (.inr ⟨row, by rw [hlog]; rfl, not_le.1 hcount, not_lt.1 hbytes⟩)

theorem deleteFile_wp {userId fileId : ℕ} (hlog : l.log = []) :
    (deleteFile workspaceId userId fileId).wp (AloneStep filesStore) (Commits settings) Idle l := by
  unfold deleteFile
  rw [bind_eq, Prog.wp_bind]
  refine requireWorkspace_wp ?_ fun e => hlog
  simp only [bindPost]
  refine wp_filesStmt fun _ d => ?_
  rw [FilesStmt.run]
  split_ifs
  · exact wp_filesCommit (.inr (.inl ⟨_, by rw [hlog]; rfl⟩)) rfl
  · exact wp_filesCommit (.inl (by rw [hlog]; rfl)) rfl

/-- Every request commits what fits what it has read. -/
theorem serve_wp (c : FilesRequest) (hlog : l.log = []) :
    (c.serve settings).wp (AloneStep filesStore) (Commits settings) (fun _ _ => True) l := by
  have hscope : ∀ p : FilesProg Unit,
      p.wp (AloneStep filesStore) (Commits settings) Idle l →
      (TxProg.sessionScope p).wp (AloneStep filesStore) (Commits settings) (fun _ _ => True) l := by
    intro p hp
    rw [TxProg.sessionScope, Prog.wp_tryCatch, Prog.wp_bind]
    refine Prog.wp_mono (fun o l' hl' => ?_) hp
    cases o with
    | ok a => exact wp_filesCommit (.inl hl') trivial
    | error x => exact ⟨trivial, fun _ _ _ => trivial⟩
  cases c with
  | upload workspaceId userId req =>
    refine hscope _ ?_
    rw [bind_eq, Prog.wp_bind]
    refine Prog.wp_mono (fun o l' hl' => ?_) (uploadFile_wp hlog)
    cases o <;> exact hl'
  | delete workspaceId userId fileId => exact hscope _ (deleteFile_wp hlog)

end Limits

/-! ## All requests -/

/-- The sessions of a pool of requests. -/
abbrev FilesPool (ι : Type) : Type :=
  Pool ι FilesStmt FilesStmt.Resp FilesDb FilesOp ℕ Seen WorkspacesError Unit

/-- The requests, before any of them has begun. -/
def requests {ι : Type} (settings : FileSettings) (calls : ι → FilesRequest) (g : ℕ) (d : FilesDb) :
    FilesPool ι :=
  Pool.begin g d ⟨0, 0⟩ fun i => (calls i).serve settings

/-- **The limits of a workspace**: in every run in which an upload commits only while its workspace has
no more files and bytes than it has read, the limits hold in every state that is committed. -/
theorem workspace_limits {ι : Type} [DecidableEq ι] {settings : FileSettings} {calls : ι → FilesRequest}
    {g : ℕ} {d : FilesDb} {P : FilesPool ι} (hd : Within settings d)
    (h : (requests settings calls g d).ReachesWhen filesStore (fun l d e => upToDate l d e = true) P) :
    Within settings P.db := by
  have hacts : (requests settings calls g d).Acts filesStore (Commits settings) := by
    intro i p hp
    obtain rfl : (calls i).serve settings = p := Option.some.inj hp
    exact serve_wp _ rfl
  exact (Pool.ReachesWhen.keeps h hacts (fun l d hd hfits hok => hd.commit hfits hok) hd).1

/-! ## Runs -/

/-- The statements compute their answers. -/
def filesHandler : Handler filesStore Unit where
  answer ω s g m d := ((s.run g m d).1, (s.run g m d).2.1, (s.run g m d).2.2.1, (s.run g m d).2.2.2, ω)
  ok _ s g m d := rfl
  compat l l' := (l.filterMap FilesOp.lock).all fun id => id ∉ l'.filterMap FilesOp.lock
  compat_ok h id hid := by simpa using List.all_eq_true.1 h id hid

/-- One file of ten bytes at most. -/
def oneFile : FileSettings := ⟨1, 10⟩

/-- A workspace of user 1 with no files. -/
def emptyWorkspace : FilesDb := ⟨[(3, 1)], []⟩

theorem emptyWorkspace_within : Within oneFile emptyWorkspace :=
  fun _ => ⟨Nat.zero_le _, Nat.zero_le _⟩

/-- Two uploads to the workspace. -/
def twoUploads (_ : Fin 2) : FilesRequest :=
  .upload 3 1 ⟨"a.txt", "text/plain", .ok ⟨[97], some "a", 1⟩⟩

/-- The workspace has this many files. -/
def hasFiles (n : ℕ) (P : FilesPool (Fin 2)) : Bool := P.db.count 3 = n

/-- Where the uploads come one after the other, the second one is refused. -/
theorem workspace_limits_run : ∃ P : FilesPool (Fin 2), P.db.count 3 = 1 ∧ Within oneFile P.db := by
  have hplay : (Pool.playWhen filesHandler upToDate [0, 1] (List.replicate 6 0 ++ List.replicate 3 1)
      (requests oneFile twoUploads 0 emptyWorkspace) ()).any (fun r => hasFiles 1 r.1) = true := by
    decide +kernel
  obtain ⟨P, hP, hcount⟩ := Pool.exists_of_playWhen (by decide) hplay
  exact ⟨P, of_decide_eq_true hcount, workspace_limits emptyWorkspace_within hP⟩

/-- Two uploads that read before either has committed both commit their file. -/
theorem workspace_limits_fails : ¬∀ P : FilesPool (Fin 2),
    (requests oneFile twoUploads 0 emptyWorkspace).Reaches filesStore P → Within oneFile P.db := by
  intro hall
  have hplay : (Pool.play filesHandler [0, 1] (List.replicate 3 0 ++ List.replicate 3 1 ++
      List.replicate 3 0 ++ List.replicate 3 1) (requests oneFile twoUploads 0 emptyWorkspace) ()).any
        (fun r => hasFiles 2 r.1) = true := by decide +kernel
  obtain ⟨P, hP, hcount⟩ := Pool.exists_of_play (by decide) hplay
  have hlimit : P.db.count 3 ≤ 1 := (hall P hP 3).1
  rw [of_decide_eq_true hcount] at hlimit
  exact absurd hlimit (by decide)

end ChatBackend.Workspaces

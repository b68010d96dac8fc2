import ChatBackend.Website.Tools

/-!
# The files of a project

Calls of the site tools that are executed one after another. `Good` says what holds of the tables
after any number of them, and `website_files` what is stored, what is read and what is reported.
-/

namespace ChatBackend.Website

open Chat (ToolName ToolExecution)

/-- A call of a site tool, in a session of a user with a project. -/
structure SiteCall where
  toolName : ToolName
  args : Json
  userId : ℕ
  externalProjectId : String
  sessionId : ℕ
  now : ℕ

/-- The call, with the tables after it. -/
def SiteCall.perform (env : SiteEnv) (c : SiteCall) (d : SiteDb) : Handled :=
  execute { env with now := c.now } c.toolName c.args c.userId c.externalProjectId c.sessionId d

/-- Calls one after another, each with its outcome. -/
def run (env : SiteEnv) : List SiteCall → SiteDb →
    List (SiteCall × Except KeyError ToolExecution) × SiteDb
  | [], d => ([], d)
  | c :: calls, d =>
    ((c, (c.perform env d).1) :: (run env calls (c.perform env d).2).1,
      (run env calls (c.perform env d).2).2)

/-! ## What is stored -/

/-- A file that may be stored. -/
structure FileOk (settings : SiteSettings) (f : SiteFile) : Prop where
  path : Canonical f.path
  size : f.size = f.content.length
  contentType : f.contentType ∈ previewContentTypeAllowlist
  limit : f.size ≤ settings.previewMaxFileBytes

/-- The tables are in order. -/
structure Good (settings : SiteSettings) (d : SiteDb) : Prop where
  projectIds : ∀ p ∈ d.projects, p.id < d.nextProject
  projects : (d.projects.map Project.id).Nodup
  owners : ∀ f ∈ d.files, f.projectId < d.nextProject
  keys : (d.files.map SiteFile.key).Nodup
  rows : ∀ f ∈ d.files, FileOk settings f
  count : ∀ p, (projectStats p d).fileCount ≤ settings.previewMaxFiles
  bytes : ∀ p, (projectStats p d).projectBytes ≤ settings.previewMaxProjectBytes

/-- The content and the type of the file at a path, for a user and the name of a project. -/
def SiteDb.contents (d : SiteDb) (u : ℕ) (ext path : String) : Option (List UInt8 × String) :=
  (d.findProject u ext).bind fun p => (d.findFile p.id path).map fun f => (f.content, f.contentType)

/-- The files for a user and the name of a project. -/
def SiteDb.filesAt (d : SiteDb) (u : ℕ) (ext : String) : List SiteFile :=
  match d.findProject u ext with
  | none => []
  | some p => d.filesOf p.id

/-- Their bytes. -/
def SiteDb.bytesAt (d : SiteDb) (u : ℕ) (ext : String) : ℕ :=
  ((d.filesAt u ext).map fun f => f.content.length).sum

section Service

variable {settings : SiteSettings} {d d' : SiteDb} {pid : ℕ} {row : SiteFile} {u : ℕ}
  {ext path : String}

theorem filesOf_updateFile (pid : ℕ) :
    (d.updateFile row).filesOf pid = Keyed.set SiteFile.key (d.filesOf pid) row := by
  rw [SiteDb.filesOf, SiteDb.filesOf, SiteDb.updateFile, Keyed.set, Keyed.set, List.filter_map]
  congr 1
  refine List.filter_congr fun f _ => ?_
  by_cases h : f.key = row.key
  · have hpid : f.projectId = row.projectId := (Prod.mk.inj h).1
    simp [h, hpid]
  · simp [h]

theorem filesOf_insertFile (pid : ℕ) : (d.insertFile row).filesOf pid =
    d.filesOf pid ++ if row.projectId = pid then [row] else [] := by
  by_cases h : row.projectId = pid <;> simp [SiteDb.filesOf, SiteDb.insertFile, h]

theorem filesOf_deleteFile (pid : ℕ) :
    (d.deleteFile row).filesOf pid = Keyed.erase SiteFile.key (d.filesOf pid) row.key := by
  rw [SiteDb.filesOf, SiteDb.filesOf, SiteDb.deleteFile, Keyed.erase, Keyed.erase,
    List.filter_filter, List.filter_filter]
  refine List.filter_congr fun f _ => Bool.and_comm _ _

/-- The tables after a write: the row in its place, and the others as they were. -/
structure Stored (settings : SiteSettings) (d d' : SiteDb) (pid : ℕ) (path : String)
    (new : Option SiteFile) : Prop where
  good : Good settings d'
  projects : d'.projects = d.projects
  find : ∀ pid' path', d'.findFile pid' path' =
    if (pid', path') = (pid, path) then new else d.findFile pid' path'

/-- The row that replaces another one. -/
theorem Good.updateFile (hd : Good settings d) (hrow : FileOk settings row) {old : SiteFile}
    (hold : d.findFile row.projectId row.path = some old)
    (hbytes : (projectStats row.projectId d).projectBytes + row.size ≤
      settings.previewMaxProjectBytes + old.size) :
    Stored settings d (d.updateFile row) row.projectId row.path (some row) := by
  obtain ⟨hmem, hkey⟩ := Keyed.mem_of_get hold
  have hnodup : ∀ p, ((d.filesOf p).map SiteFile.key).Nodup :=
    fun p => hd.keys.sublist (List.filter_sublist.map _)
  have hrows : ∀ f ∈ (d.updateFile row).files, f ∈ d.files ∨ f = row := by
    intro f hf
    obtain ⟨g, hg, rfl⟩ := List.mem_map.1 hf
    by_cases h : g.key = row.key
    · exact .inr (if_pos h)
    · rw [if_neg h]
      exact .inl hg
  refine ⟨⟨hd.projectIds, hd.projects, fun f hf => ?_, ?_, fun f hf => ?_, fun p => ?_, fun p => ?_⟩,
    rfl, fun pid' path' => ?_⟩
  · obtain hf | rfl := hrows f hf
    · exact hd.owners f hf
    · have hpid : old.projectId = f.projectId := (Prod.mk.inj hkey).1
      exact hpid ▸ hd.owners old hmem
  · rw [SiteDb.updateFile, Keyed.map_key_set]
    exact hd.keys
  · exact (hrows f hf).elim (hd.rows f) fun h => h ▸ hrow
  · rw [projectStats, filesOf_updateFile, Keyed.length_set]
    exact hd.count p
  · rw [projectStats, filesOf_updateFile]
    by_cases hp : p = row.projectId
    · subst hp
      have hpid : old.projectId = row.projectId := (Prod.mk.inj hkey).1
      have hin : old ∈ d.filesOf row.projectId := List.mem_filter.2 ⟨hmem, by simp [hpid]⟩
      have hsum : ((Keyed.set SiteFile.key (d.filesOf row.projectId) row).map SiteFile.size).sum +
          old.size = ((d.filesOf row.projectId).map SiteFile.size).sum + row.size :=
        Keyed.sum_set SiteFile.size (hnodup _) hin hkey
      simp only [projectStats] at hbytes ⊢
      omega
    · have hsame : Keyed.set SiteFile.key (d.filesOf p) row = d.filesOf p := by
        refine (List.map_congr_left fun f hf => if_neg fun h => hp ?_).trans (List.map_id _)
        have hpid : f.projectId = p := by simpa using (List.mem_filter.1 hf).2
        exact hpid.symm.trans (Prod.mk.inj h).1
      rw [hsame]
      exact hd.bytes p
  · show Keyed.get _ _ _ = _
    rw [SiteDb.updateFile, Keyed.get_set]
    by_cases hk : (pid', path') = row.key
    · have hk' : (pid', path') = (row.projectId, row.path) := hk
      rw [if_pos hk, if_pos hk', hk]
      have hget : Keyed.get SiteFile.key d.files row.key = some old := hold
      rw [hget, Option.map_some]
    · have hk' : (pid', path') ≠ (row.projectId, row.path) := hk
      rw [if_neg hk, if_neg hk']
      rfl

/-- The row that is new. -/
theorem Good.insertFile (hd : Good settings d) (hrow : FileOk settings row)
    (hpid : row.projectId < d.nextProject) (hnew : d.findFile row.projectId row.path = none)
    (hcount : (projectStats row.projectId d).fileCount + 1 ≤ settings.previewMaxFiles)
    (hbytes : (projectStats row.projectId d).projectBytes + row.size ≤ settings.previewMaxProjectBytes) :
    Stored settings d (d.insertFile row) row.projectId row.path (some row) := by
  refine ⟨⟨hd.projectIds, hd.projects, fun f hf => ?_, Keyed.nodup_append hd.keys hnew, fun f hf => ?_,
    fun p => ?_, fun p => ?_⟩, rfl, fun pid' path' => Keyed.get_append hnew⟩
  · obtain hf | hf := List.mem_append.1 hf
    · exact hd.owners f hf
    · rw [List.mem_singleton.1 hf]
      exact hpid
  · obtain hf | hf := List.mem_append.1 hf
    · exact hd.rows f hf
    · rw [List.mem_singleton.1 hf]
      exact hrow
  · rw [projectStats, filesOf_insertFile]
    by_cases hp : row.projectId = p
    · subst hp
      simp only [projectStats, if_true, List.length_append, List.length_singleton] at hcount ⊢
      exact hcount
    · rw [if_neg hp, List.append_nil]
      exact hd.count p
  · rw [projectStats, filesOf_insertFile]
    by_cases hp : row.projectId = p
    · subst hp
      simp only [projectStats, if_true, List.map_append, List.sum_append, List.map_singleton,
        List.sum_singleton] at hbytes ⊢
      exact hbytes
    · rw [if_neg hp, List.append_nil]
      exact hd.bytes p

/-- The row that is deleted. -/
theorem Good.deleteFile (hd : Good settings d) (row : SiteFile) :
    Stored settings d (d.deleteFile row) row.projectId row.path none := by
  refine ⟨⟨hd.projectIds, hd.projects, fun f hf => hd.owners f (List.mem_filter.1 hf).1,
    Keyed.nodup_erase hd.keys, fun f hf => hd.rows f (List.mem_filter.1 hf).1, fun p => ?_, fun p => ?_⟩,
    rfl, fun pid' path' => Keyed.get_erase⟩
  · rw [projectStats, filesOf_deleteFile]
    exact (Keyed.length_erase_le).trans (hd.count p)
  · rw [projectStats, filesOf_deleteFile]
    exact (Keyed.sum_erase_le SiteFile.size).trans (hd.bytes p)

/-! ### The methods -/

/-- A write that is accepted. -/
theorem writeFile_ok (hd : Good settings d) (hpid : pid < d.nextProject) {content : List UInt8}
    {contentType : String} {result : WriteResult}
    (h : writeFile settings pid path content contentType d = (.ok result, d')) :
    ∃ normalized, normalizeSitePath path = .ok normalized ∧
      Stored settings d d' pid normalized
        (some ⟨pid, normalized, content, contentType, content.length⟩) ∧
      result = ⟨normalized, content.length, (projectStats pid d').fileCount,
        (projectStats pid d').projectBytes⟩ := by
  unfold writeFile at h
  split at h
  · cases h
  rename_i htype
  split at h
  · cases h
  rename_i normalized hpath
  simp only at h
  split at h
  · cases h
  rename_i hsize
  split at h
  · cases h
  rename_i hbytes
  by_cases hcount : settings.previewMaxFiles < (projectStats pid d).fileCount +
      if (d.findFile pid normalized).isNone then 1 else 0
  · rw [if_pos hcount] at h
    cases h
  rw [if_neg hcount] at h
  obtain ⟨hresult, hd'⟩ := Prod.mk.inj h
  have hrow : FileOk settings ⟨pid, normalized, content, contentType, content.length⟩ :=
    ⟨canonical_of_normalizeSitePath hpath, rfl, not_not.1 htype, Nat.le_of_not_lt hsize⟩
  refine ⟨normalized, hpath, ?_, (Except.ok.inj hresult).symm.trans (by rw [hd'])⟩
  subst hd'
  cases hold : d.findFile pid normalized with
  | none =>
    simp only [hold, Option.map_none, Option.getD_none, Option.isNone_none, if_true] at hbytes hcount ⊢
    refine Good.insertFile hd hrow hpid hold (Nat.le_of_not_lt hcount) ?_
    simp only
    omega
  | some old =>
    simp only [hold, Option.map_some, Option.getD_some] at hbytes ⊢
    obtain ⟨hmem, hkey⟩ := Keyed.mem_of_get hold
    have hnew : ({ old with
        content := content, contentType := contentType, size := content.length } : SiteFile) =
        ⟨pid, normalized, content, contentType, content.length⟩ := by
      obtain ⟨hproject, hpath'⟩ := Prod.mk.inj hkey
      rw [hproject, hpath']
    rw [hnew]
    refine Good.updateFile hd hrow hold ?_
    simp only
    omega

/-- A write that is rejected. -/
theorem writeFile_error {content : List UInt8} {contentType : String} {e : SiteFileError}
    (h : writeFile settings pid path content contentType d = (.error e, d')) : d' = d := by
  unfold writeFile at h
  split at h
  · exact (Prod.mk.inj h).2.symm
  split at h
  · exact (Prod.mk.inj h).2.symm
  rename_i normalized hpath
  simp only at h
  split at h
  · exact (Prod.mk.inj h).2.symm
  split at h
  · exact (Prod.mk.inj h).2.symm
  by_cases hcount : settings.previewMaxFiles < (projectStats pid d).fileCount +
      if (d.findFile pid normalized).isNone then 1 else 0
  · rw [if_pos hcount] at h
    exact (Prod.mk.inj h).2.symm
  · rw [if_neg hcount] at h
    cases (Prod.mk.inj h).1

/-- A delete that is accepted. -/
theorem deleteFile_ok (hd : Good settings d) {deleted : Bool} {stats : ProjectStats}
    (h : Website.deleteFile pid path d = (.ok (deleted, stats), d')) :
    ∃ normalized, normalizeSitePath path = .ok normalized ∧
      Stored settings d d' pid normalized none ∧ stats = projectStats pid d' := by
  unfold Website.deleteFile at h
  split at h
  · cases h
  rename_i normalized hpath
  refine ⟨normalized, hpath, ?_⟩
  split at h
  · rename_i hnone
    obtain ⟨hresult, rfl⟩ := Prod.mk.inj h
    obtain ⟨-, rfl⟩ := Prod.mk.inj (Except.ok.inj hresult)
    refine ⟨⟨hd, rfl, fun pid' path' => ?_⟩, rfl⟩
    by_cases hk : (pid', path') = (pid, normalized)
    · rw [if_pos hk]
      obtain ⟨rfl, rfl⟩ := Prod.mk.inj hk
      exact hnone
    · rw [if_neg hk]
  · rename_i row hrow
    obtain ⟨hresult, rfl⟩ := Prod.mk.inj h
    obtain ⟨-, rfl⟩ := Prod.mk.inj (Except.ok.inj hresult)
    have hkey := (Keyed.mem_of_get hrow).2
    obtain ⟨rfl, rfl⟩ := Prod.mk.inj hkey
    exact ⟨Good.deleteFile hd row, rfl⟩

/-- A delete that is rejected. -/
theorem deleteFile_error {e : SiteFileError} (h : Website.deleteFile pid path d = (.error e, d')) :
    d' = d := by
  unfold Website.deleteFile at h
  split at h
  · exact (Prod.mk.inj h).2.symm
  split at h <;> cases (Prod.mk.inj h).1

/-- The tables with a new project. -/
def SiteDb.addProject (d : SiteDb) (u : ℕ) (ext : String) : SiteDb :=
  { d with projects := d.projects ++ [⟨d.nextProject, u, ext⟩], nextProject := d.nextProject + 1 }

theorem resolveProject_some {p : Project} (h : d.findProject u ext = some p) :
    resolveProject u ext d = (.ok p, d) := by
  simp [resolveProject, h]

theorem findProject_addProject (h : d.findProject u ext = none) (u' : ℕ) (ext' : String) :
    (d.addProject u ext).findProject u' ext' =
      if (u', ext') = (u, ext) then some ⟨d.nextProject, u, ext⟩ else d.findProject u' ext' := by
  have hnew : Keyed.get Project.key d.projects (Project.key ⟨d.nextProject, u, ext⟩) = none := h
  exact Keyed.get_append hnew

theorem resolveProject_none (h : d.findProject u ext = none) :
    resolveProject u ext d = (.ok ⟨d.nextProject, u, ext⟩, d.addProject u ext) := by
  have hfind : (d.addProject u ext).findProject u ext = some ⟨d.nextProject, u, ext⟩ := by
    rw [findProject_addProject h, if_pos rfl]
  rw [SiteDb.addProject] at hfind ⊢
  simp [resolveProject, h, hfind]

/-- The tables after a project is resolved. -/
structure Resolved (settings : SiteSettings) (u : ℕ) (ext : String) (d d' : SiteDb)
    (project : Project) : Prop where
  good : Good settings d'
  files : d'.files = d.files
  find : d'.findProject u ext = some project
  lt : project.id < d'.nextProject
  contents : ∀ u' ext' path, d'.contents u' ext' path = d.contents u' ext' path

theorem Good.resolveProject (hd : Good settings d) (u : ℕ) (ext : String) :
    ∃ project, Website.resolveProject u ext d = (.ok project, (Website.resolveProject u ext d).2) ∧
      Resolved settings u ext d (Website.resolveProject u ext d).2 project := by
  cases hfind : d.findProject u ext with
  | some project =>
    have hmem := (Keyed.mem_of_get hfind).1
    rw [resolveProject_some hfind]
    exact ⟨project, rfl, hd, rfl, hfind, hd.projectIds project hmem, fun _ _ _ => rfl⟩
  | none =>
    have hget := findProject_addProject hfind
    rw [resolveProject_none hfind]
    refine ⟨⟨d.nextProject, u, ext⟩, rfl, ⟨fun p hp => ?_, ?_, fun f hf => ?_, hd.keys, hd.rows, hd.count,
      hd.bytes⟩, rfl, (hget u ext).trans (if_pos rfl), Nat.lt_succ_self _, fun u' ext' path => ?_⟩
    · obtain hp | hp := List.mem_append.1 hp
      · exact Nat.lt_succ_of_lt (hd.projectIds p hp)
      · rw [List.mem_singleton.1 hp]
        exact Nat.lt_succ_self _
    · refine Keyed.nodup_append hd.projects (Keyed.get_eq_none.2 fun p hp hid => ?_)
      have hid : p.id = d.nextProject := hid
      exact Nat.lt_irrefl _ (hid ▸ hd.projectIds p hp)
    · exact Nat.lt_succ_of_lt (hd.owners f hf)
    · rw [SiteDb.contents, hget]
      by_cases hk : (u', ext') = (u, ext)
      · obtain ⟨rfl, rfl⟩ := Prod.mk.inj hk
        -- a new project has no files
        have hfile : d.findFile d.nextProject path = none :=
          Keyed.get_eq_none.2 fun f hf hkey =>
            Nat.lt_irrefl _ ((Prod.mk.inj hkey).1 ▸ hd.owners f hf)
        rw [if_pos rfl, SiteDb.contents, hfind, Option.bind_some, Option.bind_none]
        show (d.findFile d.nextProject path).map _ = none
        rw [hfile, Option.map_none]
      · rw [if_neg hk]
        rfl

/-- The contents after a write or a delete. -/
theorem Stored.contents {project : Project} {new : Option SiteFile} (hd : Good settings d)
    (h : Stored settings d d' project.id path new) (hproject : d.findProject u ext = some project)
    (u' : ℕ) (ext' path' : String) :
    d'.contents u' ext' path' = if u' = u ∧ ext' = ext ∧ path' = path then
      new.map fun f => (f.content, f.contentType) else d.contents u' ext' path' := by
  have hfindProject : d'.findProject u' ext' = d.findProject u' ext' := by
    rw [SiteDb.findProject, h.projects]
    rfl
  rw [SiteDb.contents, SiteDb.contents, hfindProject]
  obtain ⟨hmem, hkey⟩ := Keyed.mem_of_get hproject
  cases hfind : d.findProject u' ext' with
  | none =>
    have hne : ¬(u' = u ∧ ext' = ext ∧ path' = path) := by
      rintro ⟨rfl, rfl, -⟩
      rw [hproject] at hfind
      cases hfind
    rw [if_neg hne]
    rfl
  | some other =>
    obtain ⟨hmem', hkey'⟩ := Keyed.mem_of_get hfind
    rw [Option.bind_some, Option.bind_some, h.find]
    by_cases hid : other.id = project.id
    · have hsame : some other = some project := by
        have h₁ := Keyed.get_of_mem hd.projects hmem'
        rw [hid] at h₁
        exact h₁.symm.trans (Keyed.get_of_mem hd.projects hmem)
      obtain rfl := Option.some.inj hsame
      obtain ⟨rfl, rfl⟩ := Prod.mk.inj (hkey.symm.trans hkey')
      by_cases hpath : path' = path
      · simp [hpath]
      · simp [hpath]
    · have hne : ¬(u' = u ∧ ext' = ext ∧ path' = path) := by
        rintro ⟨rfl, rfl, -⟩
        rw [hproject] at hfind
        exact hid (Option.some.inj hfind ▸ rfl)
      simp [hid, hne]

end Service

/-! ## The calls -/

/-- The path that the arguments name, normalised. -/
def SiteCall.path (env : SiteEnv) (c : SiteCall) : Option String :=
  match strArg env c.args "path" with
  | .error _ => none
  | .ok raw =>
    match normalizeSitePath raw with
    | .error _ => none
    | .ok path => some path

/-- The content and the type that the arguments name. -/
def SiteCall.written (env : SiteEnv) (c : SiteCall) : Option (List UInt8 × String) :=
  match strArg env c.args "content", strArg env c.args "encoding", strArg env c.args "contentType" with
  | .ok content, .ok encoding, .ok contentType =>
    (decodeContent content encoding).map fun bytes => (bytes, contentType)
  | _, _, _ => none

/-- The content at a path after a call, by its outcome. -/
def after (env : SiteEnv) (u : ℕ) (ext path : String) (old : Option (List UInt8 × String)) :
    SiteCall × Except KeyError ToolExecution → Option (List UInt8 × String)
  | (c, .ok (.ok _)) =>
    if u = c.userId ∧ ext = c.externalProjectId ∧ some path = c.path env then
      if c.toolName = .siteWriteFile then c.written env
      else if c.toolName = .siteDelete then none else old
    else old
  | _ => old

/-- The call was rejected. -/
def Rejected : Except KeyError ToolExecution → Prop
  | .ok (.ok _) => False
  | _ => True

/-- The statistics that a result reports are those of the tables. -/
def Reports (c : SiteCall) (d : SiteDb) : Except KeyError ToolExecution → Prop
  | .ok (.ok result) => c.toolName ∈ [ToolName.siteWriteFile, .siteList, .siteDelete] →
    result.get "fileCount" = some (.num (d.filesAt c.userId c.externalProjectId).length) ∧
    result.get "projectBytes" = some (.num (d.bytesAt c.userId c.externalProjectId))
  | _ => True

/-- A call that does what it should. -/
structure StepOk (env : SiteEnv) (c : SiteCall) (d : SiteDb) (r : Handled) : Prop where
  good : Good env.settings r.2
  rejected : Rejected r.1 → r.2.files = d.files
  contents : ∀ u ext path, r.2.contents u ext path = after env u ext path (d.contents u ext path) (c, r.1)
  reports : Reports c r.2 r.1

section Calls

variable {env : SiteEnv} {c : SiteCall} {d d' : SiteDb} {u : ℕ} {ext path : String}

theorem Good.record {settings : SiteSettings} (h : Good settings d) (event : AuditEvent) :
    Good settings (d.record event) :=
  ⟨h.projectIds, h.projects, h.owners, h.keys, h.rows, h.count, h.bytes⟩

/-- The bytes of the files of a project are those of their contents. -/
theorem Good.projectStats {settings : SiteSettings} (h : Good settings d) {project : Project}
    (hproject : d.findProject u ext = some project) : Website.projectStats project.id d =
      ⟨(d.filesAt u ext).length, d.bytesAt u ext⟩ := by
  have hsize : (d.filesOf project.id).map SiteFile.size =
      (d.filesOf project.id).map fun f => f.content.length :=
    List.map_congr_left fun f hf => (h.rows f (List.mem_filter.1 hf).1).size
  rw [Website.projectStats, SiteDb.bytesAt, SiteDb.filesAt, hproject, hsize]

/-- A call that leaves the tables alone and is no write. -/
theorem StepOk.same (hd : Good env.settings d) {r : Except KeyError ToolExecution}
    (hafter : ∀ u ext path, after env u ext path (d.contents u ext path) (c, r) = d.contents u ext path)
    (hreports : Reports c d r) : StepOk env c d (r, d) :=
  ⟨hd, fun _ => rfl, fun u ext path => (hafter u ext path).symm, hreports⟩

theorem after_of_ne (hwrite : c.toolName ≠ .siteWriteFile) (hdelete : c.toolName ≠ .siteDelete)
    (r : Except KeyError ToolExecution) (old : Option (List UInt8 × String)) :
    after env u ext path old (c, r) = old := by
  unfold after
  split
  · rename_i heq
    obtain ⟨rfl, -⟩ := Prod.mk.inj heq
    simp [hwrite, hdelete]
  · rfl

theorem after_of_rejected {r : Except KeyError ToolExecution} (hr : Rejected r)
    (old : Option (List UInt8 × String)) : after env u ext path old (c, r) = old := by
  unfold after
  split
  · rename_i heq
    obtain ⟨-, rfl⟩ := Prod.mk.inj heq
    exact hr.elim
  · rfl

/-- A call that is rejected, on the tables with its project. -/
theorem StepOk.error (hd : Good env.settings d') {r : Except KeyError ToolExecution} (hr : Rejected r)
    (hfiles : d'.files = d.files)
    (hcontents : ∀ u ext path, d'.contents u ext path = d.contents u ext path) :
    StepOk env c d (r, d') := by
  refine ⟨hd, fun _ => hfiles, fun u ext path => ?_, ?_⟩
  · rw [after_of_rejected hr]
    exact hcontents u ext path
  · show Reports c d' r
    unfold Reports
    split
    · exact hr.elim
    · trivial

theorem strArg_now {now : ℕ} (args : Json) (key : String) :
    strArg { env with now := now } args key = strArg env args key := rfl

theorem writeFileTool_ok (hd : Good env.settings d) (hc : c.toolName = .siteWriteFile) :
    StepOk env c d (writeFileTool { env with now := c.now } c.args c.userId c.externalProjectId
      c.sessionId d) := by
  unfold writeFileTool
  simp only [strArg_now]
  split
  · exact .error hd trivial rfl fun _ _ _ => rfl
  · exact .error hd trivial rfl fun _ _ _ => rfl
  rename_i content encoding hcontent hencoding
  split
  · exact .error hd trivial rfl fun _ _ _ => rfl
  rename_i bytes hbytes
  obtain ⟨project, hresolve, hres⟩ := hd.resolveProject c.userId c.externalProjectId
  rw [hresolve]
  simp only
  split
  · exact .error hres.good trivial hres.files hres.contents
  · exact .error hres.good trivial hres.files hres.contents
  rename_i raw contentType hraw hcontentType
  generalize hwrite : writeFile env.settings project.id raw bytes contentType
    (resolveProject c.userId c.externalProjectId d).2 = written
  obtain ⟨r, d'⟩ := written
  cases r with
  | error e =>
    obtain rfl := writeFile_error hwrite
    exact .error hres.good trivial hres.files hres.contents
  | ok result =>
    obtain ⟨normalized, hpath, hstored, rfl⟩ := writeFile_ok hres.good hres.lt hwrite
    have hcpath : c.path env = some normalized := by simp only [SiteCall.path, hraw, hpath]
    have hcwritten : c.written env = some (bytes, contentType) := by
      simp only [SiteCall.written, hcontent, hencoding, hcontentType, hbytes, Option.map_some]
    have hfind : d'.findProject c.userId c.externalProjectId = some project := by
      rw [SiteDb.findProject, hstored.projects]
      exact hres.find
    refine ⟨hstored.good.record _, nofun, fun u ext path => ?_, fun _ => ?_⟩
    · show d'.contents u ext path = _
      rw [hstored.contents hres.good hres.find, hres.contents]
      simp [after, hc, hcpath, hcwritten]
    · have hstats := hstored.good.projectStats hfind
      show Json.get _ _ = some (.num (d'.filesAt _ _).length) ∧
        Json.get _ _ = some (.num (d'.bytesAt _ _))
      rw [hstats]
      simp [Json.get]

theorem deleteTool_ok (hd : Good env.settings d) (hc : c.toolName = .siteDelete) :
    StepOk env c d (deleteTool { env with now := c.now } c.args c.userId c.externalProjectId
      c.sessionId d) := by
  unfold deleteTool
  simp only [strArg_now]
  split
  · rename_i hnone
    split
    · exact .error hd trivial rfl fun _ _ _ => rfl
    · have hfiles : d.filesAt c.userId c.externalProjectId = [] := by rw [SiteDb.filesAt, hnone]
      have hbytes : d.bytesAt c.userId c.externalProjectId = 0 := by rw [SiteDb.bytesAt, hfiles]; rfl
      refine .same hd (fun u ext path => ?_) fun _ => ?_
      · show (if _ ∧ _ ∧ _ then _ else _) = _
        split
        · rename_i hpath
          rw [hpath.1, hpath.2.1]
          simp [hc, SiteDb.contents, hnone]
        · rfl
      · rw [hfiles, hbytes]
        simp [Json.get]
  · rename_i project hproject
    split
    · exact .error hd trivial rfl fun _ _ _ => rfl
    rename_i raw hraw
    generalize hdelete : deleteFile project.id raw d = deleted
    obtain ⟨r, d'⟩ := deleted
    cases r with
    | error e =>
      obtain rfl := deleteFile_error hdelete
      exact .error hd trivial rfl fun _ _ _ => rfl
    | ok result =>
      obtain ⟨deleted, stats⟩ := result
      obtain ⟨normalized, hpath, hstored, rfl⟩ := deleteFile_ok hd hdelete
      have hcpath : c.path env = some normalized := by simp only [SiteCall.path, hraw, hpath]
      have hfind : d'.findProject c.userId c.externalProjectId = some project := by
        rw [SiteDb.findProject, hstored.projects]
        exact hproject
      refine ⟨hstored.good.record _, nofun, fun u ext path => ?_, fun _ => ?_⟩
      · show d'.contents u ext path = _
        rw [hstored.contents hd hproject]
        simp [after, hc, hcpath]
      · have hstats := hstored.good.projectStats hfind
        show Json.get _ _ = some (.num (d'.filesAt _ _).length) ∧
          Json.get _ _ = some (.num (d'.bytesAt _ _))
        rw [hstats]
        simp [Json.get]

theorem listTool_ok (hd : Good env.settings d) (hc : c.toolName = .siteList) :
    StepOk env c d (listTool { env with now := c.now } c.userId c.externalProjectId d) := by
  have hafter : ∀ r u ext path,
      after env u ext path (d.contents u ext path) (c, r) = d.contents u ext path :=
    fun r u ext path => after_of_ne (by simp [hc]) (by simp [hc]) r _
  unfold listTool
  split
  · rename_i hnone
    refine .same hd (hafter _) fun _ => ?_
    have hfiles : d.filesAt c.userId c.externalProjectId = [] := by rw [SiteDb.filesAt, hnone]
    rw [SiteDb.bytesAt, hfiles]
    simp [Json.get]
  · rename_i project hproject
    have hstats := hd.projectStats hproject
    refine .same hd (hafter _) fun _ => ?_
    simp [hstats, Json.get]

/-- A call of a tool that neither changes files nor reports statistics. -/
theorem StepOk.read (hd : Good env.settings d)
    (hc : c.toolName ∉ [ToolName.siteWriteFile, .siteList, .siteDelete])
    (r : Except KeyError ToolExecution) : StepOk env c d (r, d) := by
  simp only [List.mem_cons, List.not_mem_nil, or_false, not_or] at hc
  refine .same hd (fun u ext path => after_of_ne hc.1 hc.2.2 r _) ?_
  unfold Reports
  split
  · rintro hmem
    simp [hc] at hmem
  · trivial

theorem previewTool_snd (args : Json) : (previewTool env args u ext d).2 = d := by
  unfold previewTool
  split
  · rfl
  · split <;> rfl

theorem readTool_snd (args : Json) : (readTool env args u ext d).2 = d := by
  unfold readTool
  split
  · rfl
  · split
    · rfl
    · split <;> rfl

/-- **Every call does what it should.** -/
theorem perform_ok (hd : Good env.settings d) : StepOk env c d (c.perform env d) := by
  unfold SiteCall.perform execute
  split
  · rename_i hc
    exact writeFileTool_ok hd hc
  · rename_i hc
    have hsame : (previewTool { env with now := c.now } c.args c.userId c.externalProjectId d).2 = d :=
      previewTool_snd c.args
    rw [← Prod.mk.eta (p := previewTool _ _ _ _ _), hsame]
    exact .read hd (by simp [hc]) _
  · rename_i hc
    exact listTool_ok hd hc
  · rename_i hc
    have hsame : (readTool { env with now := c.now } c.args c.userId c.externalProjectId d).2 = d :=
      readTool_snd c.args
    rw [← Prod.mk.eta (p := readTool _ _ _ _ _), hsame]
    exact .read hd (by simp [hc]) _
  · rename_i hc
    exact deleteTool_ok hd hc
  · exact .error hd trivial rfl fun _ _ _ => rfl

variable {settings : SiteSettings} {calls : List SiteCall}

theorem Good.empty : Good settings SiteDb.empty :=
  ⟨nofun, .nil, nofun, .nil, nofun, fun _ => Nat.zero_le _, fun _ => Nat.zero_le _⟩

/-- **Any number of calls** keep the tables in order, with the contents that were written last. -/
theorem run_ok (hd : Good env.settings d) : Good env.settings (run env calls d).2 ∧
    ∀ u ext path, (run env calls d).2.contents u ext path =
      (run env calls d).1.foldl (after env u ext path) (d.contents u ext path) := by
  induction calls generalizing d with
  | nil => exact ⟨hd, fun _ _ _ => rfl⟩
  | cons c calls ih =>
    have hc : StepOk env c d (c.perform env d) := perform_ok hd
    obtain ⟨hgood, hcontents⟩ := ih hc.good
    refine ⟨hgood, fun u ext path => ?_⟩
    rw [run, List.foldl_cons, ← hc.contents]
    exact hcontents u ext path

/-- What is read at a path. -/
theorem Good.readFile (hd : Good settings d) {project : Project}
    (hproject : d.findProject u ext = some project) {raw : String}
    (hpath : normalizeSitePath raw = .ok path) : Website.readFile project.id raw d =
      (d.contents u ext path).map fun f => ⟨path, f.1, f.2, f.1.length⟩ := by
  rw [Website.readFile, hpath, SiteDb.contents, hproject, Option.bind_some, Option.map_map]
  refine Option.map_congr fun f hf => ?_
  obtain ⟨hmem, hkey⟩ := Keyed.mem_of_get hf
  have hfpath : f.path = path := (Prod.mk.inj hkey).2
  rw [Function.comp_apply, hfpath, (hd.rows f hmem).size]

/-- What is previewed at a path, with a token that is valid. -/
theorem Good.getPreview (hd : Good settings d) {project : Project}
    (hproject : d.findProject u ext = some project) {raw : String}
    (hpath : normalizeSitePath raw = .ok path) {verify : ℕ → ℕ → Option Bool}
    (hverify : verify project.id u = some true) : Website.getPreview verify project.id raw d =
      match d.contents u ext path with
      | none => .notFound
      | some (content, contentType) => .ok content contentType := by
  obtain ⟨hmem, hkey⟩ := Keyed.mem_of_get hproject
  have huser : project.userId = u := (Prod.mk.inj hkey).1
  have hfind : Keyed.get Project.id d.projects project.id = some project :=
    Keyed.get_of_mem hd.projects hmem
  rw [Website.getPreview, hfind]
  simp only [huser, hverify, hd.readFile hproject hpath]
  cases d.contents u ext path <;> rfl

end Calls

/-- The content that was written last at a path and not deleted since. -/
def lastContent (env : SiteEnv) (u : ℕ) (ext path : String)
    (steps : List (SiteCall × Except KeyError ToolExecution)) : Option (List UInt8 × String) :=
  steps.foldl (after env u ext path) none

/-- **Files of a project.** After any calls of the site tools, one after another: what is stored has
canonical paths, each once in a project, with the length of its content and a type that is allowed;
the limits hold; a call that is rejected leaves all files, and what a call reports is what there is;
and a spelling reads, and shows in a preview, the content that was written last at its path. -/
theorem website_files {env : SiteEnv} {calls : List SiteCall}
    {steps : List (SiteCall × Except KeyError ToolExecution)} {d : SiteDb}
    (h : run env calls .empty = (steps, d)) :
    (∀ f ∈ d.files, Canonical f.path ∧ f.size = f.content.length ∧
      f.contentType ∈ previewContentTypeAllowlist) ∧
    (d.files.map SiteFile.key).Nodup ∧
    (∀ u ext, (d.filesAt u ext).length ≤ env.settings.previewMaxFiles ∧
      d.bytesAt u ext ≤ env.settings.previewMaxProjectBytes) ∧
    (∀ c : SiteCall, (Rejected (c.perform env d).1 → (c.perform env d).2.files = d.files) ∧
      Reports c (c.perform env d).2 (c.perform env d).1) ∧
    ∀ u ext raw path, normalizeSitePath raw = .ok path →
      match d.findProject u ext with
      | none => lastContent env u ext path steps = none
      | some project =>
        readFile project.id raw d =
          ((lastContent env u ext path steps).map fun f => ⟨path, f.1, f.2, f.1.length⟩) ∧
        ∀ verify : ℕ → ℕ → Option Bool, verify project.id u = some true →
          getPreview verify project.id raw d =
            match lastContent env u ext path steps with
            | none => .notFound
            | some (content, contentType) => .ok content contentType := by
  have hempty : Good env.settings SiteDb.empty := Good.empty
  have hrun : Good env.settings (run env calls .empty).2 ∧ ∀ u ext path,
      (run env calls .empty).2.contents u ext path =
        (run env calls .empty).1.foldl (after env u ext path) (SiteDb.empty.contents u ext path) :=
    run_ok hempty
  rw [h] at hrun
  obtain ⟨hgood, hcontents⟩ := hrun
  have hlast : ∀ u ext path, d.contents u ext path = lastContent env u ext path steps := hcontents
  refine ⟨fun f hf => ?_, hgood.keys, fun u ext => ?_, fun c => ?_, fun u ext raw path hpath => ?_⟩
  · have hrow := hgood.rows f hf
    exact ⟨hrow.path, hrow.size, hrow.contentType⟩
  · cases hproject : d.findProject u ext with
    | none => simp [SiteDb.bytesAt, SiteDb.filesAt, hproject]
    | some project =>
      have hstats := hgood.projectStats hproject
      have hcount := hgood.count project.id
      have hbytes := hgood.bytes project.id
      rw [hstats] at hcount hbytes
      exact ⟨hcount, hbytes⟩
  · have hc : StepOk env c d (c.perform env d) := perform_ok hgood
    exact ⟨hc.rejected, hc.reports⟩
  · cases hproject : d.findProject u ext with
    | none =>
      show lastContent env u ext path steps = none
      rw [← hlast, SiteDb.contents, hproject, Option.bind_none]
    | some project =>
      rw [← hlast]
      exact ⟨hgood.readFile hproject hpath, fun _ hverify => hgood.getPreview hproject hpath hverify⟩

/-- An environment with small limits. -/
def smallSite : SiteEnv where
  settings :=
    { previewMaxFileBytes := 8, previewMaxProjectBytes := 10, previewMaxFiles := 2
      previewUrlSecret := "secret", previewUrlTtlSeconds := 60, serviceDomain := ""
      collation := fun _ _ => true }
  repr := fun _ => ""
  uuidText := toString
  hmacSha256 _ message := message
  now := 0

/-- A call of user 1 in a project. -/
def siteCall (toolName : ToolName) (args : List (String × String)) : SiteCall :=
  ⟨toolName, .obj (args.map fun kv => (kv.1, .str kv.2)), 1, "site", 5, 0⟩

/-- Two spellings of a path: the second write replaces the first one. -/
def twoSpellings : List SiteCall :=
  [siteCall .siteWriteFile [("path", "a/b.txt"), ("content", "aaaa"), ("contentType", "text/plain"),
      ("encoding", "utf8")],
    siteCall .siteWriteFile [("path", "./a//b.txt"), ("content", "bb"), ("contentType", "text/css"),
      ("encoding", "utf8")]]

/-- A third spelling reads what the second one has written. -/
theorem website_files_run : ∃ steps d, run smallSite twoSpellings .empty = (steps, d) ∧
    normalizeSitePath "a/./b.txt" = .ok "a/b.txt" ∧
    readFile 0 "a/./b.txt" d = some ⟨"a/b.txt", [98, 98], "text/css", 2⟩ := by
  have hrun : run smallSite twoSpellings .empty = ((run smallSite twoSpellings .empty).1,
    (run smallSite twoSpellings .empty).2) := rfl
  have hpath : normalizeSitePath "a/./b.txt" = .ok "a/b.txt" := by decide +kernel
  have hproject : (run smallSite twoSpellings .empty).2.findProject 1 "site" = some ⟨0, 1, "site"⟩ := by
    decide +kernel
  have hlast : lastContent smallSite 1 "site" "a/b.txt" (run smallSite twoSpellings .empty).1 =
      some ([98, 98], "text/css") := by decide +kernel
  have h := (website_files hrun).2.2.2.2 1 "site" _ _ hpath
  rw [hproject] at h
  obtain ⟨hread, -⟩ := h
  rw [hlast] at hread
  exact ⟨_, _, hrun, hpath, hread⟩

end ChatBackend.Website

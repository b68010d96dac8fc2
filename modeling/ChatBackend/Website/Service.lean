import ChatBackend.Foundations.Keyed
import ChatBackend.Model.Data
import ChatBackend.Website.Paths

/-!
# The website service

`projects` and `site_files`, and the methods of `WebsiteService`. A method takes the tables and
returns the tables it leaves, also where it raises. A row of `site_files` is found by its project
and path, its unique key; its identifier and its time are left out: nothing reads them.
-/

namespace ChatBackend.Website

/-- A row of `projects`. -/
structure Project where
  id : ℕ
  userId : ℕ
  externalProjectId : String
  deriving DecidableEq, Repr

/-- A row of `site_files`. -/
structure SiteFile where
  projectId : ℕ
  path : String
  content : List UInt8
  contentType : String
  size : ℕ
  deriving DecidableEq, Repr

/-- `ux_projects_user_external`. -/
def Project.key (p : Project) : ℕ × String := (p.userId, p.externalProjectId)

/-- `ux_site_files_project_path`. -/
def SiteFile.key (f : SiteFile) : ℕ × String := (f.projectId, f.path)

/-- The tables, with the next identifier of a project and the audit of the session. -/
structure SiteDb where
  projects : List Project
  files : List SiteFile
  audits : List AuditEvent
  nextProject : ℕ

def SiteDb.empty : SiteDb := ⟨[], [], [], 0⟩

/-- `SiteFileError`. -/
structure SiteFileError where
  code : String
  message : String
  deriving DecidableEq, Repr

/-- The limits. -/
structure SiteSettings where
  previewMaxFileBytes : ℕ
  previewMaxProjectBytes : ℕ
  previewMaxFiles : ℕ
  previewUrlSecret : String
  previewUrlTtlSeconds : ℕ
  /-- `normalized_service_domain`. -/
  serviceDomain : String
  /-- The order of texts in the database. -/
  collation : String → String → Bool

/-- `PREVIEW_CONTENT_TYPE_ALLOWLIST`. -/
def previewContentTypeAllowlist : List String :=
  ["text/html", "text/css", "text/javascript", "application/json", "image/png", "image/jpeg",
    "image/svg+xml", "image/gif", "image/webp", "font/woff2", "text/plain"]

/-- `StoredFileMeta`. -/
structure StoredFileMeta where
  path : String
  contentType : String
  size : ℕ
  deriving DecidableEq, Repr

/-- `ProjectStats`. -/
structure ProjectStats where
  fileCount : ℕ
  projectBytes : ℕ
  deriving DecidableEq, Repr

/-- `WriteResult`. -/
structure WriteResult where
  path : String
  bytesWritten : ℕ
  fileCount : ℕ
  projectBytes : ℕ
  deriving DecidableEq, Repr

/-- `FileContent`. -/
structure FileContent where
  path : String
  content : List UInt8
  contentType : String
  size : ℕ
  deriving DecidableEq, Repr

/-! ## Queries and statements -/

namespace SiteDb

/-- The project of a user under a name. -/
def findProject (d : SiteDb) (userId : ℕ) (externalProjectId : String) : Option Project :=
  Keyed.get Project.key d.projects (userId, externalProjectId)

/-- The file of a project at a path. -/
def findFile (d : SiteDb) (projectId : ℕ) (path : String) : Option SiteFile :=
  Keyed.get SiteFile.key d.files (projectId, path)

/-- The files of a project. -/
def filesOf (d : SiteDb) (projectId : ℕ) : List SiteFile :=
  d.files.filter fun f => f.projectId = projectId

/-- `flush` of a file that was loaded and changed. -/
def updateFile (d : SiteDb) (row : SiteFile) : SiteDb :=
  { d with files := Keyed.set SiteFile.key d.files row }

/-- `flush` of a new file. -/
def insertFile (d : SiteDb) (row : SiteFile) : SiteDb := { d with files := d.files ++ [row] }

/-- `flush` of a file that is deleted. -/
def deleteFile (d : SiteDb) (row : SiteFile) : SiteDb :=
  { d with files := Keyed.erase SiteFile.key d.files row.key }

/-- `audit.record`. -/
def record (d : SiteDb) (event : AuditEvent) : SiteDb := { d with audits := d.audits ++ [event] }

end SiteDb

/-! ## Methods -/

/-- `resolve_project`: insert or do nothing, then select. -/
def resolveProject (userId : ℕ) (externalProjectId : String) (d : SiteDb) :
    Except SiteFileError Project × SiteDb :=
  let d' := match d.findProject userId externalProjectId with
    | some _ => d
    | none =>
      { d with
        projects := d.projects ++ [⟨d.nextProject, userId, externalProjectId⟩]
        nextProject := d.nextProject + 1 }
  match d'.findProject userId externalProjectId with
  | none => (.error ⟨"project_unresolved", "project could not be resolved"⟩, d')
  | some project => (.ok project, d')

/-- `_project_stats`. -/
def projectStats (projectId : ℕ) (d : SiteDb) : ProjectStats :=
  ⟨(d.filesOf projectId).length, ((d.filesOf projectId).map SiteFile.size).sum⟩

/-- `write_file`. -/
def writeFile (settings : SiteSettings) (projectId : ℕ) (path : String) (content : List UInt8)
    (contentType : String) (d : SiteDb) : Except SiteFileError WriteResult × SiteDb :=
  if contentType ∉ previewContentTypeAllowlist then
    (.error ⟨"invalid_content_type", "content_type not allowed: " ++ contentType⟩, d)
  else
    match normalizeSitePath path with
    | .error message => (.error ⟨"invalid_path", message⟩, d)
    | .ok normalized =>
      let size := content.length
      if settings.previewMaxFileBytes < size then
        (.error ⟨"file_too_large", "file exceeds the per-file size limit"⟩, d)
      else
        let existing := d.findFile projectId normalized
        let stats := projectStats projectId d
        let priorSize := (existing.map SiteFile.size).getD 0
        -- An overwrite counts only the difference of the sizes.
        let projectedBytes : Int := stats.projectBytes - priorSize + size
        let projectedCount := stats.fileCount + if existing.isNone then 1 else 0
        if settings.previewMaxProjectBytes < projectedBytes then
          (.error ⟨"project_too_large", "project exceeds the total size limit"⟩, d)
        else if settings.previewMaxFiles < projectedCount then
          (.error ⟨"too_many_files", "project exceeds the maximum number of files"⟩, d)
        else
          let d' := match existing with
            | some row =>
              d.updateFile { row with content := content, contentType := contentType, size := size }
            | none => d.insertFile ⟨projectId, normalized, content, contentType, size⟩
          let post := projectStats projectId d'
          (.ok ⟨normalized, size, post.fileCount, post.projectBytes⟩, d')

/-- `list_files`, ordered by path. -/
def listFiles (settings : SiteSettings) (projectId : ℕ) (d : SiteDb) :
    List StoredFileMeta × ProjectStats :=
  (((d.filesOf projectId).mergeSort fun f g => settings.collation f.path g.path).map fun f =>
    ⟨f.path, f.contentType, f.size⟩, projectStats projectId d)

/-- `read_file`. -/
def readFile (projectId : ℕ) (path : String) (d : SiteDb) : Option FileContent :=
  match normalizeSitePath path with
  | .error _ => none
  | .ok normalized => (d.findFile projectId normalized).map fun row =>
    ⟨row.path, row.content, row.contentType, row.size⟩

/-- `delete_file`. -/
def deleteFile (projectId : ℕ) (path : String) (d : SiteDb) :
    Except SiteFileError (Bool × ProjectStats) × SiteDb :=
  match normalizeSitePath path with
  | .error message => (.error ⟨"invalid_path", message⟩, d)
  | .ok normalized =>
    match d.findFile projectId normalized with
    | none => (.ok (false, projectStats projectId d), d)
    | some row =>
      let d' := d.deleteFile row
      (.ok (true, projectStats projectId d'), d')

/-! ## The preview endpoint -/

/-- What the preview endpoint answers. -/
inductive PreviewResponse : Type
  | notFound
  | forbidden
  | ok (content : List UInt8) (mediaType : String)
  deriving DecidableEq, Repr

/-- `get_preview`; `verify` is the verdict on the token for the owner of the project, and no value
is a missing secret. -/
def getPreview (verify : (projectId ownerUserId : ℕ) → Option Bool) (projectId : ℕ) (path : String)
    (d : SiteDb) : PreviewResponse :=
  match Keyed.get Project.id d.projects projectId with
  | none => .notFound
  | some project =>
    match verify projectId project.userId with
    | none => .forbidden
    | some false => .forbidden
    | some true =>
      match readFile projectId path d with
      | none => .notFound
      | some file => .ok file.content file.contentType

end ChatBackend.Website

import ChatBackend.Chat.Data
import ChatBackend.Foundations.Base64
import ChatBackend.Model.Time
import ChatBackend.Website.Service
import ChatBackend.Website.SignedUrl

/-!
# The site tools

The handlers of `site.write_file`, `site.preview`, `site.list`, `site.read` and `site.delete`. The
user and the name of the project are those of the session; the arguments are any JSON object.
-/

namespace ChatBackend.Website

open Chat (ToolName ToolExecution)

/-- What a handler finds outside of the tables: the text of a value that is no string and of an
identifier, the digest of `hmac.new`, and the clock. -/
structure SiteEnv where
  settings : SiteSettings
  repr : Json → String
  uuidText : ℕ → String
  hmacSha256 : (key message : List UInt8) → List UInt8
  now : ℕ

/-- An argument that is missing. -/
structure KeyError where
  key : String
  deriving DecidableEq, Repr

/-- The tables after a handler, with its outcome. -/
abbrev Handled : Type := Except KeyError ToolExecution × SiteDb

/-- `str(value)`. -/
def str (repr : Json → String) : Json → String
  | .str s => s
  | value => repr value

/-- `str(args[key])`. -/
def strArg (env : SiteEnv) (args : Json) (key : String) : Except KeyError String :=
  match args.get key with
  | none => .error ⟨key⟩
  | some value => .ok (str env.repr value)

/-- `_decode_content`. -/
def decodeContent (content encoding : String) : Option (List UInt8) :=
  if encoding = "utf8" then some content.toUTF8.toList
  else Base64.b64decode content

/-- `ToolExecution.error` of a `SiteFileError`. -/
def SiteFileError.execution (e : SiteFileError) : ToolExecution := .error e.code e.message

/-! ## Signed URLs -/

/-- `_b64url_encode`. -/
def b64urlEncode (bytes : List UInt8) : String :=
  String.ofList (SignedUrl.b64urlEncode bytes)

/-- The bytes of a text. -/
def utf8 (s : String) : List UInt8 := s.toUTF8.toList

/-- `build_token`: the token with its expiry, or no secret. -/
def buildToken (env : SiteEnv) (projectId ownerUserId : ℕ) : Option (String × ℕ) :=
  let exp := env.now + env.settings.previewUrlTtlSeconds
  if env.settings.previewUrlSecret = "" then none
  else
    let canonical := env.uuidText projectId ++ "|" ++ env.uuidText ownerUserId ++ "|" ++ toString exp
    let mac := env.hmacSha256 (utf8 env.settings.previewUrlSecret) (utf8 canonical)
    some (b64urlEncode (utf8 (toString exp)) ++ "." ++ b64urlEncode mac, exp)

/-- `entry_raw` is truthy. -/
def truthy : Json → Bool
  | .null => false
  | .bool b => b
  | .num n => n ≠ 0
  | .float text => text ≠ "0.0" ∧ text ≠ "-0.0"
  | .str s => s ≠ ""
  | .arr xs => !xs.isEmpty
  | .obj kvs => !kvs.isEmpty

/-- The entry of a preview. -/
def previewEntry (env : SiteEnv) (args : Json) : String :=
  match args.get "entry" with
  | some entry => if truthy entry then str env.repr entry else "index.html"
  | none => "index.html"

/-! ## Handlers -/

section Handlers

variable (env : SiteEnv) (args : Json) (userId : ℕ) (externalProjectId : String) (sessionId : ℕ)
  (d : SiteDb)

/-- The audit of a mutation. -/
def toolMutation (payload : List (String × Json)) : AuditEvent :=
  ⟨userId, some sessionId, .toolMutation, .obj payload⟩

/-- `_write_file`. -/
def writeFileTool : Handled :=
  match strArg env args "content", strArg env args "encoding" with
  | .error e, _ => (.error e, d)
  | _, .error e => (.error e, d)
  | .ok content, .ok encoding =>
    match decodeContent content encoding with
    | none => (.ok (.error "invalid_encoding" "content is not valid base64"), d)
    | some bytes =>
      match resolveProject userId externalProjectId d with
      | (.error e, d) => (.ok e.execution, d)
      | (.ok project, d) =>
        match strArg env args "path", strArg env args "contentType" with
        | .error e, _ => (.error e, d)
        | _, .error e => (.error e, d)
        | .ok path, .ok contentType =>
          match writeFile env.settings project.id path bytes contentType d with
          | (.error e, d) => (.ok e.execution, d)
          | (.ok result, d) =>
            (.ok (.ok (.obj [("path", .str result.path), ("bytesWritten", .num result.bytesWritten),
                ("fileCount", .num result.fileCount), ("projectBytes", .num result.projectBytes)])),
              d.record (toolMutation userId sessionId [("toolName", .str ToolName.siteWriteFile.str),
                ("projectId", .str (env.uuidText project.id)), ("path", .str result.path),
                ("bytesWritten", .num result.bytesWritten)]))

/-- `_preview`. -/
def previewTool : Handled :=
  match d.findProject userId externalProjectId with
  | none => (.ok (.error "project_not_found" "no project to preview"), d)
  | some project =>
    match buildToken env project.id userId with
    | none => (.ok (.error "preview_unavailable" "PREVIEW_URL_SECRET is not configured"), d)
    | some (token, exp) =>
      let path := "/v1/preview/" ++ env.uuidText project.id ++ "/" ++ token ++ "/" ++
        previewEntry env args
      let url := if env.settings.serviceDomain = "" then path
        else "https://" ++ env.settings.serviceDomain ++ path
      (.ok (.ok (.obj [("url", .str url),
        ("expiresAt", .str (String.ofList (DateTime.fromTimestamp exp).isoformat))])), d)

/-- `_list`. -/
def listTool : Handled :=
  match d.findProject userId externalProjectId with
  | none => (.ok (.ok (.obj [("files", .arr []), ("fileCount", .num 0), ("projectBytes", .num 0)])), d)
  | some project =>
    let (metas, stats) := listFiles env.settings project.id d
    (.ok (.ok (.obj [("files", .arr (metas.map fun m =>
        .obj [("path", .str m.path), ("contentType", .str m.contentType), ("size", .num m.size)])),
      ("fileCount", .num stats.fileCount), ("projectBytes", .num stats.projectBytes)])), d)

/-- The content of a file with its encoding: text as it is, where it can be decoded. -/
def contentOf (file : FileContent) : String × String :=
  let base64 := (String.ofList (Base64.encode Base64.standard file.content), "base64")
  if "text/".toList.isPrefixOf file.contentType.toList ∨ file.contentType = "application/json" then
    match String.fromUTF8? ⟨file.content.toArray⟩ with
    | some text => (text, "utf8")
    | none => base64
  else base64

/-- `_read`. -/
def readTool : Handled :=
  match d.findProject userId externalProjectId with
  | none => (.ok (.error "file_not_found" "file not found"), d)
  | some project =>
    match strArg env args "path" with
    | .error e => (.error e, d)
    | .ok path =>
      match readFile project.id path d with
      | none => (.ok (.error "file_not_found" "file not found"), d)
      | some file =>
        let (content, encoding) := contentOf file
        (.ok (.ok (.obj [("path", .str file.path), ("content", .str content),
          ("encoding", .str encoding), ("contentType", .str file.contentType),
          ("size", .num file.size)])), d)

/-- `_delete`. -/
def deleteTool : Handled :=
  match d.findProject userId externalProjectId with
  | none =>
    match strArg env args "path" with
    | .error e => (.error e, d)
    | .ok path =>
      (.ok (.ok (.obj [("path", .str path), ("deleted", .bool false), ("fileCount", .num 0),
        ("projectBytes", .num 0)])), d)
  | some project =>
    match strArg env args "path" with
    | .error e => (.error e, d)
    | .ok path =>
      match deleteFile project.id path d with
      | (.error e, d) => (.ok e.execution, d)
      | (.ok (deleted, stats), d) =>
        (.ok (.ok (.obj [("path", .str path), ("deleted", .bool deleted),
            ("fileCount", .num stats.fileCount), ("projectBytes", .num stats.projectBytes)])),
          d.record (toolMutation userId sessionId [("toolName", .str ToolName.siteDelete.str),
            ("projectId", .str (env.uuidText project.id)), ("path", .str path),
            ("deleted", .bool deleted)]))

end Handlers

/-- `execute`. -/
def execute (env : SiteEnv) (toolName : ToolName) (args : Json) (userId : ℕ)
    (externalProjectId : String) (sessionId : ℕ) (d : SiteDb) : Handled :=
  match toolName with
  | .siteWriteFile => writeFileTool env args userId externalProjectId sessionId d
  | .sitePreview => previewTool env args userId externalProjectId d
  | .siteList => listTool env userId externalProjectId d
  | .siteRead => readTool env args userId externalProjectId d
  | .siteDelete => deleteTool env args userId externalProjectId sessionId d
  | toolName =>
    (.ok (.error "unknown_tool" ("unknown server-side tool: " ++ toolName.str)), d)

end ChatBackend.Website

import SimpleServer.Http.Routes
import SimpleServer.Http.Server

/-!
# Answering a request (`process_http_request` in `http/server.c`)

What a normal or a folder route is answered with. A file of a folder is not read for a HEAD
request: its size stands beside a content that is `NULL`.

The file system is a parameter (`FileSystem`), and so is the page of a folder. Where the
behaviour of the code is undefined there is no response.
-/

namespace SimpleServer.Http

open Utils Hpack Http2 Generic

/-! ## Normal routes -/

def routeManagerExecuteRoute (fn : HTTPRouteFn) (sendSettings : SendSettings)
    (request : RoutedRequest) (path : ParsedURLPath) (authUser : Option AuthUserWithContext) :
    HTTPResponseToSend :=
  let sendBody := request.method ≠ .head
  let response :=
    match fn with
    | .executor run => run path sendBody
    | .executorAuth run =>
      match authUser with
      | none =>
        ⟨500, httpResponseBodyFromBytes
            (ascii "Internal error: Authentication required by route, but none given") sendBody,
          some (ascii "text/plain"), []⟩
      | some user => run path user sendBody
    | .executorExtended run => run sendSettings request path
  if request.method = .head then
    { response with body := { response.body with sendBodyData := false } }
  else response

/-! ## Folder routes -/

/-- The content of a file, which has a size that `ftell` can return. -/
structure FileContent where
  bytes : Bytes
  fits : bytes.length < ptrdiffLimit

def FileContent.buffer (content : FileContent) : SizedBuffer := ⟨some content.bytes, content.fits⟩

/-- The files and folders, and the table of MIME types. -/
structure FileSystem where
  stat : Bytes → StatOutcome
  /-- The content of a file that can be opened. -/
  content : Bytes → Option FileContent
  opendir : Bytes → Option (List ReadDir)
  closedir : Bytes → Bool
  getMimeTypeForExt : Bytes → Bytes

/-- `get_file_size_of_file` and `read_entire_file` open the same file. -/
def FileSystem.folderEnv (files : FileSystem) : FolderEnv where
  stat := files.stat
  getFileSizeOfFile path := (files.content path).map fun content => content.bytes.length
  readEntireFile path := (files.content path).map FileContent.bytes
  opendir := files.opendir
  closedir := files.closedir
  getMimeTypeForExt := files.getMimeTypeForExt

structure AnswerEnvironment extends SendEnvironment where
  cwalk : Cwalk
  files : FileSystem
  /-- `folder_content_to_html`. -/
  folderContentToHtml : ServeFolderFolderInfo → Bytes → Option Bytes

/-- A response that is a text. -/
def textResponse (status : ℕ) (text : String) (sendBody : Bool) : HTTPResponseToSend :=
  ⟨status, httpResponseBodyFromBytes (ascii text) sendBody, some (ascii "text/plain"), []⟩

/-- The body of a file: the content that was read, or only its size. -/
def fileBody (info : ServeFolderFileInfo) (sendBody : Bool) : HTTPResponseBody :=
  match info.fileContent with
  | none => ⟨getEmptySizedBuffer, sendBody, info.fileSize⟩
  | some content => ⟨sizedBufferAllocateFromReadonlyBuffer content, sendBody, 0⟩

def fileResponse (info : ServeFolderFileInfo) (date : Option Bytes) (sendBody : Bool) :
    HTTPResponseToSend :=
  ⟨200, fileBody info sendBody, some info.mimeType,
    [⟨ascii "content-transfer-encoding", ascii "binary"⟩,
      ⟨ascii "content-description", ascii "File Transfer"⟩,
      ⟨ascii "content-disposition",
        ascii "attachment; filename=\"" ++ info.fileName ++ ascii "\""⟩] ++ dateHeader date⟩

def folderResponse (env : AnswerEnvironment) (info : ServeFolderFolderInfo) (path : Bytes)
    (sendBody : Bool) : HTTPResponseToSend :=
  match env.folderContentToHtml info path with
  | none => textResponse 500 "Internal Server Error: 4" sendBody
  | some html => ⟨200, httpResponseBodyFromBytes html sendBody, some (ascii "text/html"), []⟩

/-- The case `HTTPRouteTypeServeFolder`. The entries of a folder whose listing broke off are freed
and then read, or freed again. -/
def processServeFolder (env : AnswerEnvironment) (data : HTTPRouteServeFolder)
    (originalPath : Bytes) (path : ParsedURLPath) (date : Option Bytes) (sendBody : Bool) :
    Option HTTPResponseToSend :=
  match (getServeFolderContent env.cwalk env.files.folderEnv (.normal path.path) data originalPath
      sendBody).1 with
  | .notFound => some ⟨404, httpResponseBodyEmpty, some (ascii "text/plain"), dateHeader date⟩
  | .serverError => some (textResponse 500 "Internal Server Error: 3" sendBody)
  | .file info => some (fileResponse info date sendBody)
  | .folder info =>
    if info.released ∧ info.entries ≠ [] then none
    else some (folderResponse env info path.path sendBody)
  | .freedTwice => none

end SimpleServer.Http

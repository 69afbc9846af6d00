import SimpleServer.Http.Answer
import SimpleServer.Proof.FolderListing

/-!
# HEAD and GET

The head of a response is computed from its body before the body is dropped for HEAD, so both
requests get the same head wherever the same body is loaded. A file of a folder is only loaded
for GET: without a content there is nothing to compress, and the head of HEAD is that of the
file as it is.

* `mirrors_of_same`: responses with the same content have the same head.
* `fileResponse_mirrors_iff`: the responses for a file have it exactly when the file is sent as
  it is.
* `headMirrorsGet_iff`: **when HEAD mirrors GET**.
-/

namespace SimpleServer.Http

open Utils Hpack Http2 Generic

/-! ## What is asked -/

/-- A version of HTTP/1. -/
structure Http1Protocol where
  val : HttpProtocolData
  isV1 : val.isV2 = false

/-- The body of a GET is sent, or there is none. -/
def HTTPResponseBody.Complete (body : HTTPResponseBody) : Prop :=
  (body.sendBodyData = true ∨ body.content.data = none) ∧
    (body.content.data = none → body.nullSize = 0)

/-- The response to HEAD is the one to GET, but for the body that is not sent. -/
structure SameBody (get head : HTTPResponseToSend) : Prop where
  status : head.status = get.status
  mimeType : head.mimeType = get.mimeType
  additionalHeaders : head.additionalHeaders = get.additionalHeaders
  content : head.body.content = get.body.content
  nullSize : head.body.nullSize = get.body.nullSize
  complete : get.body.Complete

/-- The executor produces the same body for GET and HEAD. -/
def HTTPRouteFn.Mirrored : HTTPRouteFn → Prop
  | .executor run => ∀ path, SameBody (run path true) (run path false)
  | .executorAuth run => ∀ path user, SameBody (run path user true) (run path user false)
  | .executorExtended run => ∀ sendSettings (request : RoutedRequest) path,
    SameBody (run sendSettings { request with method := .get } path)
      (run sendSettings { request with method := .head } path)

/-- A route that answers a path, with what was found out about the request before. -/
inductive AnsweringRoute where
  | normal (fn : HTTPRouteFn) (mirrored : fn.Mirrored) (authUser : Option AuthUserWithContext)
  | folder (data : HTTPRouteServeFolder) (originalPath : Bytes)

/-- The response to a request, at the time `date`. -/
def answer (env : AnswerEnvironment) (route : AnsweringRoute) (sendSettings : SendSettings)
    (request : RoutedRequest) (path : ParsedURLPath) (date : Option Bytes) :
    Option HTTPResponseToSend :=
  match route with
  | .normal fn _ authUser =>
    some (routeManagerExecuteRoute fn sendSettings request path authUser)
  | .folder data originalPath =>
    processServeFolder env data originalPath path date (decide (request.method ≠ .head))

/-- The fields of a head that are not the date. -/
def withoutDate (fields : List HttpHeaderField) : List HttpHeaderField :=
  fields.filter fun field => field.key ≠ ascii "date"

/-- The response to HEAD has the head of the one to GET and no body, and the length in the head is
that of the body of GET. -/
structure Mirrors (get head : Http1Response) : Prop where
  version : head.protocolVersion = get.protocolVersion
  status : head.statusCodeStr = get.statusCodeStr ∧ head.statusMessage = get.statusMessage
  fields : withoutDate head.headerFields = withoutDate get.headerFields
  noBody : head.body.bytes = []
  length : (get.headerFields.find? fun field => field.key = ascii "content-length") =
    some ⟨ascii "content-length", formatNumber get.body.bytes.length⟩

/-- Both requests are answered, and HEAD as GET would be. -/
def HeadMirrorsGet (env : AnswerEnvironment) (route : AnsweringRoute)
    (compression : CompressionType) (protocol : Http1Protocol) (request : RoutedRequest)
    (path : ParsedURLPath) (dateOfGet dateOfHead : Option Bytes) : Prop :=
  ∃ get head,
    answer env route ⟨compression, protocol.val⟩ { request with method := .get } path dateOfGet =
      some get ∧
    answer env route ⟨compression, protocol.val⟩ { request with method := .head } path
      dateOfHead = some head ∧
    Mirrors (constructHttp1Response env.toSendEnvironment get ⟨compression, protocol.val⟩)
      (constructHttp1Response env.toSendEnvironment head ⟨compression, protocol.val⟩)

variable {env : AnswerEnvironment} {compression : CompressionType} {protocol : Http1Protocol}

/-! ## The head -/

/-- The content length is the second field. -/
theorem find_contentLength (env : SendEnvironment) (protocol : Http1Protocol)
    (mimeType : Option Bytes) (additional : List HttpHeaderField)
    (compression format : CompressionType) (size status : ℕ) :
    ((constructHttp1HeadersForRequest env ⟨compression, protocol.val⟩ mimeType additional format
        size status).find? fun field => field.key = ascii "content-length") =
      some ⟨ascii "content-length", formatNumber size⟩ := by
  have hkey : ¬ ascii "content-type" = ascii "content-length" := by decide
  unfold constructHttp1HeadersForRequest
  dsimp only
  rw [protocol.isV1]
  simp [hkey]

theorem compressBody_none {env : SendEnvironment} {body : SizedBuffer} {format : CompressionType}
    (h : body.data = none) : compressBody env body format = (body, .none) := by
  unfold compressBody
  rw [h]
  rfl

theorem compressBody_data {body : SizedBuffer} (h : body.data ≠ none) (env : SendEnvironment)
    (format : CompressionType) : (compressBody env body format).1.data ≠ none := by
  unfold compressBody
  rw [if_neg (by rwa [Option.isNone_iff_eq_none])]
  dsimp only
  split_ifs with hformat hfailed
  · exact h
  · rwa [Option.isNone_iff_eq_none] at hfailed
  · exact h

/-- The size that is announced for a complete body is the number of its bytes. -/
theorem contentSize_eq {body : HTTPResponseBody} (h : body.Complete) (env : SendEnvironment)
    (format : CompressionType) :
    body.contentSize (compressBody env body.content format).1 =
      (if body.sendBodyData then (compressBody env body.content format).1
        else getEmptySizedBuffer).bytes.length := by
  unfold HTTPResponseBody.contentSize
  by_cases hnone : body.content.data = none
  · rw [compressBody_none hnone, hnone, h.2 hnone]
    have hbytes : body.content.bytes = [] := by
      unfold SizedBuffer.bytes
      rw [hnone]
      rfl
    split_ifs
    · rw [hbytes]
      rfl
    · rfl
    · exact absurd rfl ‹¬ none.isNone = true›
    · exact absurd rfl ‹¬ none.isNone = true›
  · have hsend : body.sendBodyData = true := h.1.resolve_right hnone
    have hdata := compressBody_data hnone env format
    rw [if_neg (by rwa [Option.isNone_iff_eq_none]), if_pos hsend]
    rfl

/-- **The same content has the same head.** -/
theorem mirrors_of_same {get head : HTTPResponseToSend} (h : SameBody get head)
    (hhead : head.body.sendBodyData = false) (env : SendEnvironment)
    (compression : CompressionType) (protocol : Http1Protocol) :
    Mirrors (constructHttp1Response env get ⟨compression, protocol.val⟩)
      (constructHttp1Response env head ⟨compression, protocol.val⟩) := by
  have hsize : head.body.contentSize (compressBody env head.body.content compression).1 =
      get.body.contentSize (compressBody env get.body.content compression).1 := by
    unfold HTTPResponseBody.contentSize
    rw [h.content, h.nullSize]
  unfold constructHttp1Response
  dsimp only
  constructor
  · rfl
  · exact ⟨by rw [h.status], by rw [h.status]⟩
  · rw [hsize, h.mimeType, h.additionalHeaders, h.status, h.content]
  · rw [hhead]
    rfl
  · rw [find_contentLength, contentSize_eq h.complete]

/-- The date is the only field of a head that may differ between the two. -/
theorem withoutDate_append (fields : List HttpHeaderField) (date : Option Bytes) :
    withoutDate (fields ++ dateHeader date) = withoutDate fields := by
  unfold withoutDate
  rw [List.filter_append]
  cases date with
  | none => simp [dateHeader]
  | some value => simp [dateHeader]

/-- Responses that only differ in the date. -/
theorem mirrors_of_date {get head : HTTPResponseToSend} {fields : List HttpHeaderField}
    {dateOfGet dateOfHead : Option Bytes}
    (hget : get.additionalHeaders = fields ++ dateHeader dateOfGet)
    (hhead : head.additionalHeaders = fields ++ dateHeader dateOfHead)
    {env : SendEnvironment} {compression : CompressionType} {protocol : Http1Protocol}
    (h : Mirrors
      (constructHttp1Response env { get with additionalHeaders := fields }
        ⟨compression, protocol.val⟩)
      (constructHttp1Response env { head with additionalHeaders := fields }
        ⟨compression, protocol.val⟩)) :
    Mirrors (constructHttp1Response env get ⟨compression, protocol.val⟩)
      (constructHttp1Response env head ⟨compression, protocol.val⟩) := by
  -- the additional fields are the last ones of a head
  have hlast : ∀ (response : HTTPResponseToSend) (date : Option Bytes),
      response.additionalHeaders = fields ++ dateHeader date →
      (constructHttp1Response env response ⟨compression, protocol.val⟩).headerFields =
        (constructHttp1Response env { response with additionalHeaders := fields }
          ⟨compression, protocol.val⟩).headerFields ++ dateHeader date := by
    intro response date hfields
    unfold constructHttp1Response constructHttp1HeadersForRequest
    dsimp only
    rw [hfields, ← List.append_assoc]
  refine ⟨h.version, h.status, ?_, h.noBody, ?_⟩
  · rw [hlast get dateOfGet hget, hlast head dateOfHead hhead, withoutDate_append,
      withoutDate_append]
    exact h.fields
  · have hlength := h.length
    rw [hlast get dateOfGet hget, List.find?_append, hlength]
    rfl

/-! ## A file -/

/-- The file is sent compressed. -/
def SentCompressed (env : SendEnvironment) (compression : CompressionType)
    (content : FileContent) : Prop :=
  compression ≠ .none ∧ (env.compressBufferWith content.buffer compression).data ≠ none

/-- What is known about the file for GET and for HEAD. -/
def fileInfo (mimeType fileName : Bytes) (content : FileContent) (sendBody : Bool) :
    ServeFolderFileInfo :=
  ⟨mimeType, if sendBody then some content.bytes else none, content.bytes.length, fileName⟩

theorem fileBody_get (mimeType fileName : Bytes) (content : FileContent) :
    fileBody (fileInfo mimeType fileName content true) true = ⟨content.buffer, true, 0⟩ := by
  unfold fileBody fileInfo sizedBufferAllocateFromReadonlyBuffer
  rw [if_pos rfl]
  dsimp only
  rw [dif_pos content.fits]
  rfl

theorem compressBody_plain {env : SendEnvironment} {content : FileContent}
    (h : ¬ SentCompressed env compression content) :
    compressBody env content.buffer compression = (content.buffer, .none) := by
  unfold compressBody
  rw [if_neg (by exact Bool.false_ne_true)]
  by_cases hformat : compression = .none
  · rw [if_neg (not_not.2 hformat), hformat]
  · have hfailed : (env.compressBufferWith content.buffer compression).data = none := by
      by_contra hdata
      exact h ⟨hformat, hdata⟩
    rw [if_pos hformat]
    dsimp only
    rw [hfailed]
    rfl

theorem compressBody_compressed {env : SendEnvironment} {content : FileContent}
    (h : SentCompressed env compression content) :
    (compressBody env content.buffer compression).2 = compression := by
  unfold compressBody
  rw [if_neg (by exact Bool.false_ne_true), if_pos h.1]
  dsimp only
  rw [if_neg (by rw [Option.isNone_iff_eq_none]; exact h.2)]

theorem dateHeader_key {date : Option Bytes} {field : HttpHeaderField}
    (h : field ∈ dateHeader date) : field.key ≠ ascii "content-encoding" := by
  cases date with
  | none => cases h
  | some value =>
    rw [List.mem_singleton.1 h]
    dsimp only
    decide

/-- Without a compression no field is the content encoding. -/
theorem plainHead_key {env : SendEnvironment} {sendSettings : SendSettings}
    {mimeType : Option Bytes} {additional : List HttpHeaderField} {size status : ℕ}
    {field : HttpHeaderField}
    (h : field ∈ constructHttp1HeadersForRequest env sendSettings mimeType additional .none size
      status) (hadditional : ∀ f ∈ additional, f.key ≠ ascii "content-encoding") :
    field.key ≠ ascii "content-encoding" := by
  have honly : ∀ {c : Prop} [Decidable c] {f : HttpHeaderField},
      field ∈ (if c then [f] else []) → field = f := by
    intro c _ f hmem
    split_ifs at hmem
    · exact List.mem_singleton.1 hmem
    · cases hmem
  unfold constructHttp1HeadersForRequest at h
  simp only [List.mem_append] at h
  rcases h with (((((h | h) | h) | h) | h) | h) | h
  · rw [List.mem_singleton.1 h]
    dsimp only
    decide
  · rw [honly h]
    dsimp only
    decide
  · rw [honly h]
    dsimp only
    decide
  · rw [List.mem_singleton.1 h]
    dsimp only
    decide
  · rw [honly h]
    dsimp only
    decide
  · rw [if_neg (not_not.2 rfl)] at h
    cases h
  · exact hadditional field h

/-- **The responses for a file** have the same head exactly when it is sent as it is. -/
theorem fileResponse_mirrors_iff (env : SendEnvironment) (compression : CompressionType)
    (protocol : Http1Protocol) (mimeType fileName : Bytes) (content : FileContent)
    (dateOfGet dateOfHead : Option Bytes) :
    Mirrors
      (constructHttp1Response env (fileResponse (fileInfo mimeType fileName content true) dateOfGet
        true) ⟨compression, protocol.val⟩)
      (constructHttp1Response env (fileResponse (fileInfo mimeType fileName content false)
        dateOfHead false) ⟨compression, protocol.val⟩) ↔
    ¬ SentCompressed env compression content := by
  have hhead : compressBody env (fileBody (fileInfo mimeType fileName content false) false).content
      compression = (getEmptySizedBuffer, .none) := compressBody_none rfl
  constructor
  · intro h hcompressed
    -- only the head of GET has a content encoding
    have hencoding : (⟨ascii "content-encoding", getStringForCompressFormat compression⟩ :
        HttpHeaderField) ∈ withoutDate (constructHttp1Response env
          (fileResponse (fileInfo mimeType fileName content true) dateOfGet true)
          ⟨compression, protocol.val⟩).headerFields := by
      unfold withoutDate constructHttp1Response constructHttp1HeadersForRequest fileResponse
      rw [fileBody_get]
      dsimp only
      rw [compressBody_compressed hcompressed, if_pos hcompressed.1]
      simp
      decide
    rw [← h.fields] at hencoding
    have hfield := (List.mem_filter.1 hencoding).1
    unfold constructHttp1Response at hfield
    dsimp only at hfield
    rw [show compressBody env (fileResponse (fileInfo mimeType fileName content false) dateOfHead
      false).body.content compression = (getEmptySizedBuffer, .none) from hhead] at hfield
    refine plainHead_key hfield ?_ rfl
    intro field hadditional
    rcases List.mem_append.1 hadditional with hfile | hdate
    · fin_cases hfile <;> dsimp only <;> decide
    · exact dateHeader_key hdate
  · intro hplain
    refine mirrors_of_date rfl rfl ?_
    have hget : compressBody env (fileBody (fileInfo mimeType fileName content true) true).content
        compression = (content.buffer, .none) := by
      rw [fileBody_get]
      exact compressBody_plain hplain
    unfold constructHttp1Response fileResponse
    dsimp only
    rw [hget, hhead]
    dsimp only
    rw [fileBody_get]
    constructor
    · rfl
    · exact ⟨rfl, rfl⟩
    · rfl
    · rfl
    · rw [find_contentLength]
      rfl

/-! ## The routes -/

/-- The path that a folder route serves, if it serves one. -/
def servedPath (env : AnswerEnvironment) (data : HTTPRouteServeFolder)
    (originalPath path : Bytes) : Option Bytes :=
  if fileIsAbsolute env.cwalk data.folderPath then
    (getFinalFilePath env.cwalk data originalPath path).filter data.folderPath.isPrefixOf
  else none

variable {data : HTTPRouteServeFolder} {originalPath path finalPath : Bytes} {sendBody : Bool}

/-- The content of a folder route is that of the path it serves. -/
theorem getServeFolderContent_eq (env : AnswerEnvironment) (data : HTTPRouteServeFolder)
    (originalPath path : Bytes) (sendBody : Bool) :
    (getServeFolderContent env.cwalk env.files.folderEnv (.normal path) data originalPath
      sendBody).1 =
    (servedPath env data originalPath path).elim .serverError fun finalPath =>
      match env.files.stat finalPath with
      | .missing => .notFound
      | .failed => .serverError
      | .found stat =>
        if stat.isFolder then
          (getServeFolderContentForFolder env.files.folderEnv finalPath
            (!isTheSamePath finalPath data.folderPath)).1
        else getServeFolderContentForFile env.files.folderEnv finalPath sendBody := by
  unfold servedPath getServeFolderContent
  by_cases habs : fileIsAbsolute env.cwalk data.folderPath = true
  · rw [if_neg (not_not.2 habs), if_pos habs]
    dsimp only
    cases hfinal : getFinalFilePath env.cwalk data originalPath path with
    | none => rfl
    | some p =>
      rw [Option.filter_some]
      dsimp only
      by_cases hprefix : data.folderPath.isPrefixOf p = true
      · rw [if_neg (not_not.2 hprefix), if_pos hprefix, Option.elim_some]
        have hstat : env.files.folderEnv.stat p = env.files.stat p := rfl
        rw [hstat]
        cases env.files.stat p with
        | missing => rfl
        | failed => rfl
        | found stat =>
          dsimp only
          split_ifs
          · rfl
          · rfl
      · rw [if_pos hprefix, if_neg hprefix]
        rfl
  · rw [if_pos habs, if_neg habs]
    rfl

theorem content_unserved (h : servedPath env data originalPath path = none) (sendBody : Bool) :
    (getServeFolderContent env.cwalk env.files.folderEnv (.normal path) data originalPath
      sendBody).1 = .serverError := by
  rw [getServeFolderContent_eq, h, Option.elim_none]

theorem content_served (h : servedPath env data originalPath path = some finalPath)
    (sendBody : Bool) :
    (getServeFolderContent env.cwalk env.files.folderEnv (.normal path) data originalPath
      sendBody).1 =
    match env.files.stat finalPath with
    | .missing => .notFound
    | .failed => .serverError
    | .found stat =>
      if stat.isFolder then
        (getServeFolderContentForFolder env.files.folderEnv finalPath
          (!isTheSamePath finalPath data.folderPath)).1
      else getServeFolderContentForFile env.files.folderEnv finalPath sendBody := by
  rw [getServeFolderContent_eq, h, Option.elim_some]

/-- The request is for a file of the folder that is sent compressed. -/
def CompressedFile (env : AnswerEnvironment) (compression : CompressionType)
    (data : HTTPRouteServeFolder) (originalPath path : Bytes) : Prop :=
  ∃ finalPath stat content, servedPath env data originalPath path = some finalPath ∧
    env.files.stat finalPath = .found stat ∧ stat.isFolder = false ∧
    env.files.content finalPath = some content ∧
    SentCompressed env.toSendEnvironment compression content

/-- The request is for a folder whose listing breaks off after an entry was read. -/
def BrokenListing (env : AnswerEnvironment) (data : HTTPRouteServeFolder)
    (originalPath path : Bytes) : Prop :=
  ∃ finalPath stat delivered, servedPath env data originalPath path = some finalPath ∧
    env.files.stat finalPath = .found stat ∧ stat.isFolder = true ∧
    env.files.opendir finalPath = some delivered ∧
    (readEntries env.files.folderEnv finalPath delivered).2.2 = false ∧
    (readEntries env.files.folderEnv finalPath delivered).1 ≠ []

section Folder

variable {env : AnswerEnvironment} {data : HTTPRouteServeFolder} {originalPath : Bytes}
  {path : ParsedURLPath} {compression : CompressionType} {protocol : Http1Protocol}
  {dateOfGet dateOfHead : Option Bytes}

/-- The responses to GET and HEAD of a folder route. -/
def FolderMirrors (env : AnswerEnvironment) (data : HTTPRouteServeFolder) (originalPath : Bytes)
    (path : ParsedURLPath) (compression : CompressionType) (protocol : Http1Protocol)
    (dateOfGet dateOfHead : Option Bytes) : Prop :=
  ∃ get head, processServeFolder env data originalPath path dateOfGet true = some get ∧
    processServeFolder env data originalPath path dateOfHead false = some head ∧
    Mirrors (constructHttp1Response env.toSendEnvironment get ⟨compression, protocol.val⟩)
      (constructHttp1Response env.toSendEnvironment head ⟨compression, protocol.val⟩)

theorem folderMirrors_some {get head : HTTPResponseToSend}
    (hget : processServeFolder env data originalPath path dateOfGet true = some get)
    (hhead : processServeFolder env data originalPath path dateOfHead false = some head) :
    FolderMirrors env data originalPath path compression protocol dateOfGet dateOfHead ↔
      Mirrors (constructHttp1Response env.toSendEnvironment get ⟨compression, protocol.val⟩)
        (constructHttp1Response env.toSendEnvironment head ⟨compression, protocol.val⟩) := by
  constructor
  · rintro ⟨get', head', hget', hhead', hmirrors⟩
    rw [hget] at hget'
    rw [hhead] at hhead'
    cases hget'
    cases hhead'
    exact hmirrors
  · intro hmirrors
    exact ⟨get, head, hget, hhead, hmirrors⟩

/-- A body of bytes is the same for GET and HEAD. -/
theorem sameBody_bytes (status : ℕ) (bytes : Bytes) (mimeType : Option Bytes)
    (additional : List HttpHeaderField) :
    SameBody ⟨status, httpResponseBodyFromBytes bytes true, mimeType, additional⟩
      ⟨status, httpResponseBodyFromBytes bytes false, mimeType, additional⟩ :=
  ⟨rfl, rfl, rfl, rfl, rfl, .inl rfl, fun _ => rfl⟩

theorem mirrors_text (status : ℕ) (text : String) :
    Mirrors (constructHttp1Response env.toSendEnvironment (textResponse status text true)
        ⟨compression, protocol.val⟩)
      (constructHttp1Response env.toSendEnvironment (textResponse status text false)
        ⟨compression, protocol.val⟩) :=
  mirrors_of_same (sameBody_bytes _ _ _ _) rfl _ _ _

/-- An error is answered with the same text. -/
theorem folderMirrors_error
    (h : ∀ sendBody, (getServeFolderContent env.cwalk env.files.folderEnv (.normal path.path) data
      originalPath sendBody).1 = .serverError) :
    FolderMirrors env data originalPath path compression protocol dateOfGet dateOfHead := by
  refine ⟨textResponse 500 "Internal Server Error: 3" true,
    textResponse 500 "Internal Server Error: 3" false, ?_, ?_, mirrors_text _ _⟩
  · unfold processServeFolder
    rw [h true]
  · unfold processServeFolder
    rw [h false]

theorem folderMirrors_notFound
    (h : ∀ sendBody, (getServeFolderContent env.cwalk env.files.folderEnv (.normal path.path) data
      originalPath sendBody).1 = .notFound) :
    FolderMirrors env data originalPath path compression protocol dateOfGet dateOfHead := by
  refine ⟨⟨404, httpResponseBodyEmpty, some (ascii "text/plain"), dateHeader dateOfGet⟩,
    ⟨404, httpResponseBodyEmpty, some (ascii "text/plain"), dateHeader dateOfHead⟩, ?_, ?_, ?_⟩
  · unfold processServeFolder
    rw [h true]
  · unfold processServeFolder
    rw [h false]
  · refine mirrors_of_date (List.nil_append _).symm (List.nil_append _).symm ?_
    exact mirrors_of_same ⟨rfl, rfl, rfl, rfl, rfl, .inr rfl, fun _ => rfl⟩ rfl _ _ _

/-- A folder has one page, unless its listing broke off. -/
theorem folderMirrors_folder {info : ServeFolderFolderInfo}
    (h : ∀ sendBody, (getServeFolderContent env.cwalk env.files.folderEnv (.normal path.path) data
      originalPath sendBody).1 = .folder info) :
    FolderMirrors env data originalPath path compression protocol dateOfGet dateOfHead ↔
      ¬ (info.released = true ∧ info.entries ≠ []) := by
  by_cases hbroken : info.released = true ∧ info.entries ≠ []
  · constructor
    · rintro ⟨get, -, hget, -⟩
      unfold processServeFolder at hget
      rw [h true] at hget
      dsimp only at hget
      rw [if_pos hbroken] at hget
      cases hget
    · intro hnot
      exact absurd hbroken hnot
  · have hanswer : ∀ date sendBody, processServeFolder env data originalPath path date sendBody =
        some (folderResponse env info path.path sendBody) := by
      intro date sendBody
      unfold processServeFolder
      rw [h sendBody]
      dsimp only
      rw [if_neg hbroken]
    rw [folderMirrors_some (hanswer dateOfGet true) (hanswer dateOfHead false)]
    refine iff_of_true ?_ hbroken
    unfold folderResponse
    cases env.folderContentToHtml info path.path with
    | none => exact mirrors_text _ _
    | some html => exact mirrors_of_same (sameBody_bytes _ _ _ _) rfl _ _ _

/-- Entries that were freed twice leave no response. -/
theorem not_folderMirrors_freedTwice
    (h : ∀ sendBody, (getServeFolderContent env.cwalk env.files.folderEnv (.normal path.path) data
      originalPath sendBody).1 = .freedTwice) :
    ¬ FolderMirrors env data originalPath path compression protocol dateOfGet dateOfHead := by
  rintro ⟨get, -, hget, -⟩
  unfold processServeFolder at hget
  rw [h true] at hget
  cases hget

/-- A file is answered with what is known about it. -/
theorem folderMirrors_file {finalPath : Bytes} {stat : Stat}
    (hserved : servedPath env data originalPath path.path = some finalPath)
    (hstat : env.files.stat finalPath = .found stat) (hfile : stat.isFolder = false) :
    FolderMirrors env data originalPath path compression protocol dateOfGet dateOfHead ↔
      ¬ CompressedFile env compression data originalPath path.path := by
  have hcontent := content_served hserved
  simp only [hstat, hfile, Bool.false_eq_true, if_false] at hcontent
  cases hopen : env.files.content finalPath with
  | none =>
    have herror : ∀ sendBody, (getServeFolderContent env.cwalk env.files.folderEnv
        (.normal path.path) data originalPath sendBody).1 = .serverError := by
      intro sendBody
      rw [hcontent sendBody]
      unfold getServeFolderContentForFile FileSystem.folderEnv
      dsimp only
      rw [hopen]
      cases sendBody <;> rfl
    refine iff_of_true (folderMirrors_error herror) ?_
    rintro ⟨finalPath', _, content, hserved', -, -, hopen', -⟩
    rw [hserved] at hserved'
    cases hserved'
    rw [hopen] at hopen'
    cases hopen'
  | some content =>
    have hinfo : ∀ sendBody, (getServeFolderContent env.cwalk env.files.folderEnv
        (.normal path.path) data originalPath sendBody).1 = .file (fileInfo
          (env.files.getMimeTypeForExt
            ((((finalPath.splitOn slash).getLastD []).splitOn dot).getLastD []))
          ((finalPath.splitOn slash).getLastD []) content sendBody) := by
      intro sendBody
      rw [hcontent sendBody]
      unfold getServeFolderContentForFile FileSystem.folderEnv
      dsimp only
      rw [hopen]
      cases sendBody <;> rfl
    have hanswer : ∀ date sendBody, processServeFolder env data originalPath path date sendBody =
        some (fileResponse (fileInfo
          (env.files.getMimeTypeForExt
            ((((finalPath.splitOn slash).getLastD []).splitOn dot).getLastD []))
          ((finalPath.splitOn slash).getLastD []) content sendBody) date sendBody) := by
      intro date sendBody
      unfold processServeFolder
      rw [hinfo sendBody]
    rw [folderMirrors_some (hanswer dateOfGet true) (hanswer dateOfHead false),
      fileResponse_mirrors_iff]
    constructor
    · rintro hplain ⟨finalPath', _, content', hserved', -, -, hopen', hcompressed⟩
      rw [hserved] at hserved'
      cases hserved'
      rw [hopen] at hopen'
      cases hopen'
      exact hplain hcompressed
    · intro hnot hcompressed
      exact hnot ⟨finalPath, stat, content, hserved, hstat, hfile, hopen, hcompressed⟩

theorem folderMirrors_listing {finalPath : Bytes} {stat : Stat}
    (hserved : servedPath env data originalPath path.path = some finalPath)
    (hstat : env.files.stat finalPath = .found stat) (hfolder : stat.isFolder = true) :
    FolderMirrors env data originalPath path compression protocol dateOfGet dateOfHead ↔
      ¬ BrokenListing env data originalPath path.path := by
  have hcontent := content_served hserved
  simp only [hstat, hfolder, if_true] at hcontent
  -- what breaks a listing is found at this path
  have hiff : BrokenListing env data originalPath path.path ↔
      ∃ delivered, env.files.opendir finalPath = some delivered ∧
        (readEntries env.files.folderEnv finalPath delivered).2.2 = false ∧
        (readEntries env.files.folderEnv finalPath delivered).1 ≠ [] := by
    constructor
    · rintro ⟨finalPath', _, delivered, hserved', -, -, hbroken⟩
      rw [hserved] at hserved'
      cases hserved'
      exact ⟨delivered, hbroken⟩
    · rintro ⟨delivered, hbroken⟩
      exact ⟨finalPath, stat, delivered, hserved, hstat, hfolder, hbroken⟩
  rw [hiff]
  cases hopen : env.files.opendir finalPath with
  | none =>
    have herror : ∀ sendBody, (getServeFolderContent env.cwalk env.files.folderEnv
        (.normal path.path) data originalPath sendBody).1 = .serverError := by
      intro sendBody
      rw [hcontent sendBody]
      unfold getServeFolderContentForFolder
      rw [show env.files.folderEnv.opendir finalPath = none from hopen]
    refine iff_of_true (folderMirrors_error herror) ?_
    rintro ⟨delivered, hnone, -⟩
    cases hnone
  | some delivered =>
    have hbreaks : (∃ delivered', some delivered = some delivered' ∧
          (readEntries env.files.folderEnv finalPath delivered').2.2 = false ∧
          (readEntries env.files.folderEnv finalPath delivered').1 ≠ []) ↔
        ¬ (readEntries env.files.folderEnv finalPath delivered).2.2 = true ∧
          (readEntries env.files.folderEnv finalPath delivered).1 ≠ [] := by simp
    have hresult := fun sendBody => (hcontent sendBody).trans (contentForFolder_eq hopen _)
    rw [hbreaks]
    by_cases hclose : env.files.closedir finalPath = true
    · have hlisted := fun sendBody => (hresult sendBody).trans (if_pos hclose)
      rw [folderMirrors_folder hlisted]
      simp
    · have hnotListed := fun sendBody => (hresult sendBody).trans (if_neg hclose)
      by_cases htwice : ¬ (readEntries env.files.folderEnv finalPath delivered).2.2 = true ∧
          (readEntries env.files.folderEnv finalPath delivered).1 ≠ []
      · have hfreed := fun sendBody => (hnotListed sendBody).trans (if_pos htwice)
        exact iff_of_false (not_folderMirrors_freedTwice hfreed) (not_not.2 htwice)
      · have herror := fun sendBody => (hnotListed sendBody).trans (if_neg htwice)
        exact iff_of_true (folderMirrors_error herror) htwice

/-- **Folder routes.** -/
theorem folderMirrors_iff :
    FolderMirrors env data originalPath path compression protocol dateOfGet dateOfHead ↔
      ¬ CompressedFile env compression data originalPath path.path ∧
        ¬ BrokenListing env data originalPath path.path := by
  cases hserved : servedPath env data originalPath path.path with
  | none =>
    refine iff_of_true (folderMirrors_error (content_unserved hserved)) ⟨?_, ?_⟩
    · rintro ⟨finalPath, _, _, hsome, -⟩
      rw [hserved] at hsome
      cases hsome
    · rintro ⟨finalPath, _, _, hsome, -⟩
      rw [hserved] at hsome
      cases hsome
  | some finalPath =>
    -- neither happens where `stat` finds something else
    have hstatOf : ∀ {outcome : StatOutcome}, env.files.stat finalPath = outcome →
        (∀ stat, outcome = .found stat → stat.isFolder = true) →
        ¬ CompressedFile env compression data originalPath path.path := by
      rintro outcome hstat hnotFile ⟨finalPath', stat, _, hsome, hfound, hfile, -⟩
      rw [hserved] at hsome
      cases hsome
      rw [hstat] at hfound
      rw [hnotFile stat hfound] at hfile
      cases hfile
    have hstatOf' : ∀ {outcome : StatOutcome}, env.files.stat finalPath = outcome →
        (∀ stat, outcome = .found stat → stat.isFolder = false) →
        ¬ BrokenListing env data originalPath path.path := by
      rintro outcome hstat hnotFolder ⟨finalPath', stat, _, hsome, hfound, hfolder, -⟩
      rw [hserved] at hsome
      cases hsome
      rw [hstat] at hfound
      rw [hnotFolder stat hfound] at hfolder
      cases hfolder
    cases hstat : env.files.stat finalPath with
    | missing =>
      refine iff_of_true (folderMirrors_notFound fun sendBody => ?_)
        ⟨hstatOf hstat (by rintro _ ⟨⟩), hstatOf' hstat (by rintro _ ⟨⟩)⟩
      rw [content_served hserved, hstat]
    | failed =>
      refine iff_of_true (folderMirrors_error fun sendBody => ?_)
        ⟨hstatOf hstat (by rintro _ ⟨⟩), hstatOf' hstat (by rintro _ ⟨⟩)⟩
      rw [content_served hserved, hstat]
    | found stat =>
      cases hfolder : stat.isFolder with
      | true =>
        rw [folderMirrors_listing hserved hstat hfolder]
        have hnotFile := hstatOf hstat (by rintro _ ⟨⟩; exact hfolder)
        exact (and_iff_right hnotFile).symm
      | false =>
        rw [folderMirrors_file hserved hstat hfolder]
        have hnotFolder := hstatOf' hstat (by rintro _ ⟨⟩; exact hfolder)
        exact (and_iff_left hnotFolder).symm

end Folder

/-- Neither a file of a folder that is sent compressed, nor a folder whose listing breaks off. -/
def Unaffected (env : AnswerEnvironment) (route : AnsweringRoute) (compression : CompressionType)
    (path : ParsedURLPath) : Prop :=
  ∀ data originalPath, route = .folder data originalPath →
    ¬ CompressedFile env compression data originalPath path.path ∧
      ¬ BrokenListing env data originalPath path.path

/-- Normal routes answer HEAD as GET. -/
theorem executeRoute_mirrors {fn : HTTPRouteFn} (h : fn.Mirrored) (env : SendEnvironment)
    (compression : CompressionType) (protocol : Http1Protocol) (request : RoutedRequest)
    (path : ParsedURLPath) (authUser : Option AuthUserWithContext) :
    Mirrors
      (constructHttp1Response env (routeManagerExecuteRoute fn ⟨compression, protocol.val⟩
        { request with method := .get } path authUser) ⟨compression, protocol.val⟩)
      (constructHttp1Response env (routeManagerExecuteRoute fn ⟨compression, protocol.val⟩
        { request with method := .head } path authUser) ⟨compression, protocol.val⟩) := by
  have hnot : ∀ {get head : HTTPResponseToSend}, SameBody get head →
      SameBody get { head with body := { head.body with sendBodyData := false } } :=
    fun hsame => ⟨hsame.status, hsame.mimeType, hsame.additionalHeaders, hsame.content,
      hsame.nullSize, hsame.complete⟩
  refine mirrors_of_same ?_ rfl env compression protocol
  cases fn with
  | executor run => exact hnot (h path)
  | executorExtended run => exact hnot (h ⟨compression, protocol.val⟩ request path)
  | executorAuth run =>
    cases authUser with
    | none => exact hnot (sameBody_bytes _ _ _ _)
    | some user => exact hnot (h path user)

theorem headMirrorsGet_folder (env : AnswerEnvironment) (data : HTTPRouteServeFolder)
    (originalPath : Bytes) (compression : CompressionType) (protocol : Http1Protocol)
    (request : RoutedRequest) (path : ParsedURLPath) (dateOfGet dateOfHead : Option Bytes) :
    HeadMirrorsGet env (.folder data originalPath) compression protocol request path dateOfGet
        dateOfHead ↔
      ¬ CompressedFile env compression data originalPath path.path ∧
        ¬ BrokenListing env data originalPath path.path := by
  have hfolder : HeadMirrorsGet env (.folder data originalPath) compression protocol request path
      dateOfGet dateOfHead ↔
      FolderMirrors env data originalPath path compression protocol dateOfGet dateOfHead :=
    Iff.rfl
  rw [hfolder, folderMirrors_iff]

/-- **When HEAD mirrors GET.** -/
theorem headMirrorsGet_iff (env : AnswerEnvironment) (route : AnsweringRoute)
    (compression : CompressionType) (protocol : Http1Protocol) (request : RoutedRequest)
    (path : ParsedURLPath) (dateOfGet dateOfHead : Option Bytes) :
    HeadMirrorsGet env route compression protocol request path dateOfGet dateOfHead ↔
      Unaffected env route compression path := by
  cases route with
  | normal fn mirrored authUser =>
    have hmirrors := executeRoute_mirrors mirrored env.toSendEnvironment compression protocol
      request path authUser
    refine iff_of_true ⟨_, _, rfl, rfl, hmirrors⟩ ?_
    rintro _ _ ⟨⟩
  | folder data originalPath =>
    rw [headMirrorsGet_folder]
    constructor
    · rintro h _ _ ⟨⟩
      exact h
    · intro h
      exact h data originalPath rfl

/-- The letter `a` as gzip compresses it. -/
def gzipOfA : Bytes :=
  [0x1f, 0x8b, 8, 0, 0, 0, 0, 0, 0, 3, 0x4b, 4, 0, 0x43, 0xbe, 0xb7, 0xe8, 1, 0, 0, 0]

/-- One file, `/srv/www/a`, which holds the letter `a`. -/
def oneFile : AnswerEnvironment where
  compressBufferWith buffer _ :=
    if buffer.data = some (ascii "a") then ⟨some gzipOfA, by decide⟩ else getEmptySizedBuffer
  versionString := ascii "1"
  altSvcConstantData := []
  cwalk := Cwalk.plain
  files :=
    { stat path := if path = ascii "/srv/www/a" then .found ⟨false, 0, 1⟩ else .missing
      content path := if path = ascii "/srv/www/a" then some ⟨ascii "a", by decide⟩ else none
      opendir _ := none
      closedir _ := true
      getMimeTypeForExt _ := ascii "application/octet-stream" }
  folderContentToHtml _ _ := none

/-- GET sends the 21 bytes of gzip, HEAD announces the one byte of the file. -/
theorem headOfCompressedFile_differs :
    ¬ HeadMirrorsGet oneFile (.folder ⟨.absolute, ascii "/srv/www"⟩ (ascii "/")) .gzip
      ⟨.v1Dot1, rfl⟩ ⟨.get, [⟨ascii "accept-encoding", ascii "gzip"⟩], []⟩ ⟨ascii "/a", [], none⟩
      none none := by
  have hserved : servedPath oneFile ⟨.absolute, ascii "/srv/www"⟩ (ascii "/") (ascii "/a") =
      some (ascii "/srv/www/a") := by decide +kernel
  have hcompressed : CompressedFile oneFile .gzip ⟨.absolute, ascii "/srv/www"⟩ (ascii "/")
      (ascii "/a") := by
    refine ⟨ascii "/srv/www/a", ⟨false, 0, 1⟩, ⟨ascii "a", by decide⟩, hserved, ?_, rfl, ?_, ?_⟩
    · simp [oneFile]
    · simp [oneFile]
    · exact ⟨by decide, by simp [oneFile, FileContent.buffer]⟩
  intro h
  rw [headMirrorsGet_folder] at h
  exact h.1 hcompressed

end SimpleServer.Http

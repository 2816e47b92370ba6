import Echo.Lib.Contract
import Echo.Server.Validate
import Echo.Uploads.Machine

/-! The routes of `routes/media_chunked.rs` and its cleanup sweep, call by call. Between two
accesses any other call may run; so it may between two frames of a body. -/
namespace Echo.Uploads
open Echo.Lib
open Echo.Server (Uuid isWhitespace)

section Ranges

structure ContentRange where
  start : Int
  endAt : Int
  total : Int
  deriving DecidableEq

def bytesUnit : List Char := "bytes ".toList

def parseContentRange (header : String) : Option ContentRange :=
  match (trimBy isWhitespace header.toList).dropPrefix? bytesUnit with
  | none => none
  | some spec =>
    match splitOnce '/' spec with
    | none => none
    | some (range, total) =>
      match splitOnce '-' range with
      | none => none
      | some (s, e) =>
        match parseI64 s, parseI64 e, parseI64 total with
        | some start, some endAt, some total =>
          if start < 0 || endAt < start || total ≤ 0 || total ≤ endAt then none else some ⟨start, endAt, total⟩
        | _, _, _ => none

end Ranges

section Calls

abbrev Task (α : Type) := Async machine AppError α

def fail {α : Type} (e : AppError) : Task α := Async.throw e

def ask (r : Request) : Task (Answer r) := do
  let answer ← Async.ask (M := machine) r
  Async.pause
  pure answer

/-- `map_err` on an access. -/
def orFail {α : Type} (e : AppError) (access : Task (Except Unit α)) : Task α := do
  match ← access with
  | .ok a => pure a
  | .error _ => fail e

def attempt {α : Type} (access : Task (Except Unit α)) : Task Unit := do
  let _ ← access
  pure ()

def require (condition : Bool) (e : AppError) : Task Unit := if condition then pure () else fail e

def databaseError : AppError := .internal "Database error"

end Calls

section Routes

structure AuthUser where
  userId : Uuid

structure InitUploadRequest where
  filename : String
  mimeType : String
  totalSize : Int
  conversationId : Option Uuid

def defaultChunkSize : Int := 5 * 1024 * 1024

def maxChunkBytes : Int := 16 * 1024 * 1024

def trim (text : String) : String := String.ofList (trimBy isWhitespace text.toList)

def ensureMember (userId : Uuid) : Option Uuid → Task Unit
  | none => pure ()
  | some conversationId => do
    let isMember : Bool ← orFail databaseError (ask (.isMember conversationId userId))
    require isMember (.notMember "Not a member of this conversation")

/-- `max` is what `max_chunked_upload_bytes` reads at that time. -/
def init (max : Int) (auth : AuthUser) (req : InitUploadRequest) : Task Reply := do
  require (0 < req.totalSize) (.badRequest "total_size must be positive")
  require (req.totalSize ≤ max)
    (.badRequest ("File too large. Maximum chunked upload size is " ++ toString max ++ " bytes"))
  require (trim req.filename ≠ "") (.badRequest "filename is required")
  require (trim req.mimeType ≠ "") (.badRequest "mime_type is required")
  ensureMember auth.userId req.conversationId
  orFail (.internal "Failed to create temp upload directory") (ask .createDir)
  let uploadId : Uuid ← ask .newId
  orFail (.internal "Failed to create temp upload file") (ask (.createFile uploadId))
  orFail databaseError (ask (.create {
    id := uploadId
    userId := auth.userId
    filename := trim req.filename
    mimeType := trim req.mimeType
    totalSize := req.totalSize
    bytesReceived := 0
    conversationId := req.conversationId
    status := .pending
    updatedAt := 0 }))
  pure (.created uploadId defaultChunkSize)

def statusText : Status → String
  | .pending => "pending"
  | .finalized => "finalized"
  | .aborted => "aborted"

def getSession (id userId : Uuid) : Task UploadSessionRow := do
  match ← orFail databaseError (ask (.get id userId)) with
  | none => fail (.notFound "Upload session not found")
  | some row => pure row

def loadPendingSession (id userId : Uuid) : Task UploadSessionRow := do
  let session ← getSession id userId
  require (session.status = .pending)
    (.badRequest ("Upload session is not pending (status=" ++ statusText session.status ++ ")"))
  pure session

def rangeMismatch (bytesReceived : Int) : AppError where
  status := 416
  message := "Content-Range start does not match server bytes_received=" ++ toString bytesReceived
  code := .badRequest
  body := some bytesReceived

abbrev Frame := Except Unit Bytes

def streamFrames (uploadId : Uuid) (declaredLen written : Int) : List Frame → Task Int
  | [] => do
    orFail (.internal "Failed to flush chunk") (ask (.flush uploadId))
    pure written
  | frame :: frames => do
    -- the next frame has to come in first
    Async.pause
    match frame with
    | .error _ => fail (.badRequest "Failed to read chunk body")
    | .ok bytes =>
      let remaining := declaredLen - written
      require (0 < remaining) (.badRequest "Chunk body exceeds declared range")
      let take := (min (bytes.length : Int) remaining).toNat
      require (bytes.length ≤ take) (.badRequest "Chunk body exceeds declared range")
      if 0 < take then
        orFail (.internal "Failed to write chunk to disk") (ask (.write uploadId (bytes.take take)))
        streamFrames uploadId declaredLen (written + take) frames
      else streamFrames uploadId declaredLen written frames

def streamChunkToDisk (uploadId : Uuid) (body : List Frame) (declaredLen : Int) : Task Int := do
  orFail (.internal "Failed to open temp upload file") (ask (.openAppend uploadId))
  streamFrames uploadId declaredLen 0 body

def uploadChunk (auth : AuthUser) (id : Uuid) (contentRange : Option String) (body : List Frame) : Task Reply := do
  match contentRange with
  | none => fail (.badRequest "Content-Range header is required")
  | some header =>
    match parseContentRange header with
    | none => fail (.badRequest "Malformed Content-Range header")
    | some range =>
      let session ← loadPendingSession id auth.userId
      require (range.total = session.totalSize)
        (.badRequest "Content-Range total does not match session total_size")
      require (range.start = session.bytesReceived) (rangeMismatch session.bytesReceived)
      let declaredLen := range.endAt - range.start + 1
      require (0 < declaredLen && declaredLen ≤ maxChunkBytes) (.badRequest "Chunk size out of bounds")
      require (range.endAt + 1 ≤ session.totalSize) (.badRequest "Chunk would exceed declared total_size")
      let written ← streamChunkToDisk id body declaredLen
      let updated : UploadSessionRow ← orFail databaseError (ask (.addBytes id written))
      pure (.chunk updated.bytesReceived)

/-- What the code does with the content of a file: `sha256` in hexadecimal, and `validate_head`,
which goes by the magic bytes and the declared type. -/
structure Inspector where
  sha256 : Bytes → String
  validateHead : Bytes → String → Except AppError String

def toLowerAscii (text : String) : List Char := text.toList.map Char.toLower

def verifySha256 (inspector : Inspector) (uploadId : Uuid) (expectedHex : String) : Task Unit := do
  let content : Bytes ← orFail (.internal "Failed to read temp file") (ask (.read uploadId))
  let actual := inspector.sha256 content
  require (toLowerAscii actual = toLowerAscii (trim expectedHex))
    (.badRequest ("sha256 mismatch: client " ++ expectedHex ++ " != server " ++ actual))

def detectMimeFromFile (inspector : Inspector) (uploadId : Uuid) (declared : String) : Task String := do
  let content : Bytes ← orFail (.internal "Failed to read temp file head") (ask (.read uploadId))
  match inspector.validateHead (content.take 512) declared with
  | .ok mimeType => pure mimeType
  | .error e => fail e

def logFinalizeStep (step : String) (e : AppError) : AppError :=
  { e with message := "finalize step " ++ step ++ " failed: " ++ e.message }

def logFinalizeIo (step : String) : AppError := .internal ("finalize step " ++ step ++ " failed")

def sanitizeFilename (raw : String) : String :=
  let cleaned := raw.toList.filter fun c => c ∉ ['"', '\\', '\r', '\n', '/', '\x00']
  if (trimBy isWhitespace cleaned).isEmpty then "upload" else String.ofList cleaned

def ensureSize (uploadId : Uuid) (totalSize : Int) : Task Unit := do
  let length : Nat ← orFail (.internal "Temp upload file missing before rename") (ask (.metadata uploadId))
  require ((length : Int) = totalSize) (.internal
    ("Temp upload size mismatch: on_disk=" ++ toString length ++ " expected=" ++ toString totalSize))

def finalize (inspector : Inspector) (auth : AuthUser) (id : Uuid) (sha256 : Option String) : Task Reply := do
  let session ← loadPendingSession id auth.userId
  require (session.bytesReceived = session.totalSize) (.badRequest
    ("Upload is incomplete: bytes_received=" ++ toString session.bytesReceived ++
      " total_size=" ++ toString session.totalSize))
  match sha256 with
  | none => pure ()
  | some expectedHex => verifySha256 inspector id expectedHex
  -- a failed `sync_all` is only logged
  attempt (ask (.flush id))
  let mimeType ← (detectMimeFromFile inspector id session.mimeType).catching
    fun e => fail (logFinalizeStep "detect_mime" e)
  let fileUuid : Uuid ← ask .newId
  orFail (logFinalizeIo "create_uploads_dir") (ask .createDir)
  ensureSize id session.totalSize
  orFail (logFinalizeIo "rename") (ask (.rename id fileUuid))
  orFail databaseError (ask (.createMedia {
    id := fileUuid
    uploaderId := auth.userId
    filename := sanitizeFilename session.filename
    mimeType
    sizeBytes := session.totalSize
    conversationId := session.conversationId }))
  orFail databaseError (ask (.markFinalized id))
  pure (.media fileUuid)

def getState (auth : AuthUser) (id : Uuid) : Task Reply := do
  let session ← getSession id auth.userId
  pure (.state session.id session.bytesReceived session.totalSize session.status)

def reap : List Uuid → Task Unit
  | [] => pure ()
  | id :: ids => do
    attempt (ask (.removeFile id))
    attempt (ask (.markAborted id))
    reap ids

def cleanupStaleUploadsScoped (idleSeconds : Nat) (userId : Option Uuid) : Task Reply := do
  match ← ask (.listStalePending idleSeconds userId) with
  | .error _ => pure .swept
  | .ok ids =>
    reap ids
    pure .swept

end Routes

section Programs

inductive Call where
  | init (max : Int) (auth : AuthUser) (req : InitUploadRequest)
  | uploadChunk (auth : AuthUser) (id : Uuid) (contentRange : Option String) (body : List Frame)
  | finalize (inspector : Inspector) (auth : AuthUser) (id : Uuid) (sha256 : Option String)
  | getState (auth : AuthUser) (id : Uuid)
  | cleanup (idleSeconds : Nat) (userId : Option Uuid)
  | clock (milliseconds : Nat)

def answered (t : Task Reply) : Task Unit := do
  let result ← (do pure (.ok (← t)) : Task (Except AppError Reply)).catching fun e => pure (.error e)
  ask (.answer result)

def Call.program : Call → Task Unit
  | init max auth req => answered (Uploads.init max auth req)
  | uploadChunk auth id contentRange body => answered (Uploads.uploadChunk auth id contentRange body)
  | finalize inspector auth id sha256 => answered (Uploads.finalize inspector auth id sha256)
  | getState auth id => answered (Uploads.getState auth id)
  | cleanup idleSeconds userId => answered (cleanupStaleUploadsScoped idleSeconds userId)
  | clock milliseconds => do
    let _ ← ask (.clock milliseconds)
    pure ()

def schedule (turns : List (Call ⊕ Nat)) : List (Move machine AppError Unit) := World.schedule Call.program turns

end Programs
end Echo.Uploads

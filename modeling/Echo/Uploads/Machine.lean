import Echo.Lib.Async
import Echo.Lib.Bytes
import Echo.Lib.Decimal
import Echo.Server.Hub

/-! The shared state behind chunked uploads: the table of `db/upload_sessions.rs`, the rows of
`db/media.rs` and the files on disk, with the single accesses that are made to them. An access
may fail, and a write or an update may have had its effect before it does. -/
namespace Echo.Uploads
open Echo.Lib
open Echo.Server (Uuid)

inductive Status where
  | pending
  | finalized
  | aborted
  deriving DecidableEq

structure UploadSessionRow where
  id : Uuid
  userId : Uuid
  filename : String
  mimeType : String
  totalSize : Int
  bytesReceived : Int
  conversationId : Option Uuid
  status : Status
  updatedAt : Nat
  deriving DecidableEq

structure MediaRow where
  id : Uuid
  uploaderId : Uuid
  filename : String
  mimeType : String
  sizeBytes : Int
  conversationId : Option Uuid
  deriving DecidableEq

inductive Place where
  | tmp
  | uploads (fileUuid : Uuid)
  | unlinked
  deriving DecidableEq

/-- A file that was created at the temp path of an upload, and where it is now. A handle to it
stays good wherever it is. -/
structure TempFile where
  content : Bytes
  place : Place
  deriving DecidableEq

inductive ErrorCode where
  | badRequest
  | notMember
  | notFound
  | internal
  deriving DecidableEq

/-- The only body there is carries `bytes_received`. The texts of the operating system and the
database in a message are left out. -/
structure AppError where
  status : Nat
  message : String
  code : ErrorCode
  body : Option Int
  deriving DecidableEq

namespace AppError
def badRequest (message : String) : AppError := ⟨400, message, .badRequest, none⟩
def notMember (message : String) : AppError := ⟨403, message, .notMember, none⟩
def notFound (message : String) : AppError := ⟨404, message, .notFound, none⟩
def internal (message : String) : AppError := ⟨500, message, .internal, none⟩
end AppError

inductive Reply where
  | created (uploadId : Uuid) (chunkSize : Int)
  | chunk (bytesReceived : Int)
  | media (id : Uuid)
  | state (uploadId : Uuid) (bytesReceived totalSize : Int) (status : Status)
  | swept
  deriving DecidableEq

structure State where
  /-- Ids are drawn in order. -/
  nextId : Uuid
  sessions : Uuid → Option UploadSessionRow
  /-- By the id of the upload whose temp file it is. -/
  files : Uuid → Option TempFile
  media : List MediaRow
  /-- Conversation and user. -/
  members : Uuid → Uuid → Bool
  now : Nat
  /-- How far each of the coming accesses gets when it fails. -/
  faults : List (Option Nat)

inductive Request where
  | isMember (conversationId userId : Uuid)
  | createDir
  | newId
  | createFile (uploadId : Uuid)
  | create (row : UploadSessionRow)
  | get (id userId : Uuid)
  | openAppend (uploadId : Uuid)
  | write (uploadId : Uuid) (bytes : Bytes)
  | flush (uploadId : Uuid)
  | addBytes (id : Uuid) (delta : Int)
  | read (uploadId : Uuid)
  | metadata (uploadId : Uuid)
  | rename (uploadId fileUuid : Uuid)
  | createMedia (row : MediaRow)
  | markFinalized (id : Uuid)
  | markAborted (id : Uuid)
  | listStalePending (idleSeconds : Nat) (userId : Option Uuid)
  | removeFile (uploadId : Uuid)
  /-- The call is at its end, and its answer goes out. -/
  | answer (result : Except AppError Reply)
  | clock (milliseconds : Nat)
  deriving DecidableEq

def Answer : Request → Type
  | .isMember .. => Except Unit Bool
  | .newId => Uuid
  | .get .. => Except Unit (Option UploadSessionRow)
  | .addBytes .. => Except Unit UploadSessionRow
  | .read _ => Except Unit Bytes
  | .metadata _ => Except Unit Nat
  | .listStalePending .. => Except Unit (List Uuid)
  | .answer _ | .clock _ => Unit
  | _ => Except Unit Unit

namespace State

def fault (s : State) : Option Nat := s.faults.headD none

def rest (s : State) : State := { s with faults := s.faults.tail }

def tempFile (s : State) (uploadId : Uuid) : Option TempFile := (s.files uploadId).filter fun f => f.place = .tmp

def access {α : Type} (s : State) (go : Except Unit (α × State)) : Except Unit α × State :=
  match s.fault, go with
  | none, .ok (a, s') => (.ok a, s'.rest)
  | none, .error e => (.error e, s.rest)
  | some _, _ => (.error (), s.rest)

/-- An update of the database, which may go through though no answer comes back. -/
def update {α : Type} (s : State) (go : Except Unit (α × State)) : Except Unit α × State :=
  match s.fault, go with
  | none, .ok (a, s') => (.ok a, s'.rest)
  | some (_ + 1), .ok (_, s') => (.error (), s'.rest)
  | _, _ => (.error (), s.rest)

def setFile (s : State) (uploadId : Uuid) (f : TempFile) : State :=
  { s with files := Function.update s.files uploadId (some f) }

def setSession (s : State) (id : Uuid) (row : UploadSessionRow) : State :=
  { s with sessions := Function.update s.sessions id (some row) }

def append (s : State) (uploadId : Uuid) (bytes : Bytes) : State :=
  match s.files uploadId with
  | none => s
  | some f => s.setFile uploadId { f with content := f.content ++ bytes }

/-- `fetch_one` finds no row, or the counter leaves its column. -/
def addBytes (s : State) (id : Uuid) (delta : Int) : Except Unit (UploadSessionRow × State) :=
  match s.sessions id with
  | none => .error ()
  | some row =>
    if inI64 (row.bytesReceived + delta) then
      let row := { row with bytesReceived := row.bytesReceived + delta, updatedAt := s.now }
      .ok (row, s.setSession id row)
    else .error ()

def mark (s : State) (id : Uuid) (status : Status) : State :=
  match s.sessions id with
  | none => s
  | some row => s.setSession id { row with status, updatedAt := s.now }

def stalePending (s : State) (idleSeconds : Nat) (userId : Option Uuid) : List Uuid :=
  (List.range s.nextId).filter fun id => (s.sessions id).any fun row =>
    row.status = .pending && row.updatedAt + idleSeconds * 1000 < s.now && userId.all fun u => row.userId = u

def perform : (r : Request) → State → Option (Answer r × State)
  | .isMember conversationId userId, s => some (s.access (.ok (s.members conversationId userId, s)))
  | .createDir, s => some (s.access (.ok ((), s)))
  | .newId, s => some (s.nextId, { s with nextId := s.nextId + 1 })
  | .createFile uploadId, s => some (s.access (.ok ((), s.setFile uploadId ⟨[], .tmp⟩)))
  | .create row, s => some (s.update (if (s.sessions row.id).isSome then .error () else .ok ((), s.setSession row.id row)))
  | .get id userId, s => some (s.access (.ok ((s.sessions id).filter fun row => row.userId = userId, s)))
  | .openAppend uploadId, s => some (s.access (if (s.tempFile uploadId).isSome then .ok ((), s) else .error ()))
  | .write uploadId bytes, s =>
    match s.fault with
    | none => some (.ok (), (s.append uploadId bytes).rest)
    | some landed => some (.error (), (s.append uploadId (bytes.take landed)).rest)
  | .flush _, s => some (s.access (.ok ((), s)))
  | .addBytes id delta, s => some (s.update (s.addBytes id delta))
  | .read uploadId, s =>
    some (s.access (match s.tempFile uploadId with
      | none => .error ()
      | some f => .ok (f.content, s)))
  | .metadata uploadId, s =>
    some (s.access (match s.tempFile uploadId with
      | none => .error ()
      | some f => .ok (f.content.length, s)))
  | .rename uploadId fileUuid, s =>
    some (s.access (match s.tempFile uploadId with
      | none => .error ()
      | some f => .ok ((), s.setFile uploadId { f with place := .uploads fileUuid })))
  | .createMedia row, s => some (s.update (.ok ((), { s with media := s.media ++ [row] })))
  | .markFinalized id, s => some (s.update (.ok ((), s.mark id .finalized)))
  | .markAborted id, s => some (s.update (.ok ((), s.mark id .aborted)))
  | .listStalePending idleSeconds userId, s => some (s.access (.ok (s.stalePending idleSeconds userId, s)))
  | .removeFile uploadId, s =>
    some (s.access (match s.tempFile uploadId with
      | none => .error ()
      | some f => .ok ((), s.setFile uploadId { f with place := .unlinked })))
  | .answer _, s => some ((), s)
  | .clock milliseconds, s => some ((), { s with now := s.now + milliseconds })

end State

def machine : Machine where
  State := State
  Req := Request
  Ans := Answer
  perform := State.perform
  restart := id

end Echo.Uploads

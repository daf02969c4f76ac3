import Freelancing.Table
import Freelancing.Files.Rows
import Freelancing.Txn.Service
import Mathlib.Data.List.Sort

/-!
# Uploads and scans

`app/files/service.py` and `tasks.py`: a user reserves a file and puts its bytes into the object
store through a presigned URL, completes the upload, a worker scans the object, and a download is
served from the store once the file is safe.

The objects are a table next to the rows, in which a put takes effect at once. `SHA-256` and the
virus scanner's answer are parameters of the `Settings`; a request takes the uuids that it draws and
the times that its clock reads as arguments.
-/

namespace Files

open Money (UserId Err strip lower)
open Txn.Service

abbrev EventId := Nat
abbrev Bytes := List UInt8

/-! ## Rows -/

/-- An `OutboxEvent` of type `file.scan.requested`. -/
structure ScanEvent where
  id : EventId
  file : FileId
  createdAt : Nat
  deriving DecidableEq

structure FileScanReceipt where
  event : EventId
  file : FileId
  deriving DecidableEq

structure StoredObject where
  key : ObjectKey
  contentType : String
  bytes : Bytes
  deriving DecidableEq

structure Db where
  files : List FileObject
  events : List ScanEvent
  receipts : List FileScanReceipt
  objects : List StoredObject

def Db.file? (d : Db) (id : FileId) : Option FileObject := Table.get FileObject.id id d.files

def Db.event? (d : Db) (id : EventId) : Option ScanEvent := Table.get ScanEvent.id id d.events

def Db.receiptOf? (d : Db) (id : EventId) : Option FileScanReceipt :=
  Table.get FileScanReceipt.event id d.receipts

/-- What the store serves for a key: the last put. -/
def Db.object? (d : Db) (k : ObjectKey) :
    Option StoredObject := Table.get StoredObject.key k d.objects

def Db.addFile (d : Db) (f : FileObject) : Db := { d with files := f :: d.files }

def Db.modifyFile (d : Db) (id : FileId) (f : FileObject → FileObject) : Db :=
  { d with files := Table.modify FileObject.id id f d.files }

def Db.addEvent (d : Db) (e : ScanEvent) : Db := { d with events := e :: d.events }

def Db.addReceipt (d : Db) (r : FileScanReceipt) : Db := { d with receipts := r :: d.receipts }

def Db.putObject (d : Db) (o : StoredObject) : Db := { d with objects := o :: d.objects }

/-! ## The scanner -/

structure Settings where
  maxUploadBytes : Int
  scannerMode : String
  sha256 : Bytes → String
  clamav : Bytes → String

structure ScanResult where
  safe : Bool
  sha256 : String
  reason : Option String

/-- What the scanner notes of the chunks: their first 16 bytes, and a NUL byte near the start of
one of them. -/
structure ScanState where
  leading : Bytes
  sawNul : Bool

def ScanState.feed (s : ScanState) (chunk : Bytes) : ScanState where
  leading := if s.leading.length < 16 then s.leading ++ chunk.take (16 - s.leading.length)
    else s.leading
  sawNul := s.sawNul || (chunk.take 4096).contains 0

def magicMismatch (leading : Bytes) (mimeType : String) (sawNul : Bool) : Option String :=
  if mimeType = "application/pdf" && !([0x25, 0x50, 0x44, 0x46, 0x2d].isPrefixOf leading) then
    some "declared PDF does not have a PDF signature"
  else if mimeType = "image/png" &&
      !([0x89, 0x50, 0x4e, 0x47, 0x0d, 0x0a, 0x1a, 0x0a].isPrefixOf leading) then
    some "declared PNG does not have a PNG signature"
  else if (mimeType = "image/jpeg" || mimeType = "image/jpg") &&
      !([0xff, 0xd8, 0xff].isPrefixOf leading) then
    some "declared JPEG does not have a JPEG signature"
  else if "text/".toList.isPrefixOf mimeType.toList && sawNul then
    some "declared text file contains binary NUL bytes"
  else none

/-- `sub in s`. -/
def hasText (sub s : String) : Bool := s.toList.tails.any fun t => sub.toList.isPrefixOf t

def clamavResult (cfg : Settings) (bytes : Bytes) (magicReason : Option String) : ScanResult :=
  let response := cfg.clamav bytes
  match magicReason with
  | some reason => ⟨false, cfg.sha256 bytes, some reason⟩
  | none =>
    if hasText "FOUND" response then
      ⟨false, cfg.sha256 bytes, some (String.ofList ((strip response).toList.take 240))⟩
    else if !hasText "OK" response then
      ⟨false, cfg.sha256 bytes, some "virus scanner returned an invalid response"⟩
    else ⟨true, cfg.sha256 bytes, none⟩

/-- The scan of an object, read in chunks of 64 KiB. -/
def scan (cfg : Settings) (bytes : Bytes) (mimeType : String) : ScanResult :=
  let seen := (bytes.toChunks (64 * 1024)).foldl ScanState.feed ⟨[], false⟩
  let reason := magicMismatch seen.leading mimeType seen.sawNul
  if cfg.scannerMode = "basic" then ⟨reason.isNone, cfg.sha256 bytes, reason⟩
  else clamavResult cfg bytes reason

/-- The result of a scan, with the hash that the uploader may have announced. -/
def verdict (cfg : Settings) (file : FileObject) (bytes : Bytes) : ScanResult :=
  let result := scan cfg bytes file.mimeType
  match file.sha256 with
  | none => result
  | some announced =>
    if announced ≠ result.sha256 then
      ⟨false, result.sha256, some "uploaded content SHA-256 does not match"⟩
    else result

/-! ## Database sessions -/

/-- A row, by its key, or an entry of a unique index. -/
inductive LockName
  | file (id : FileId)
  | objectKey (k : ObjectKey)
  | event (id : EventId)
  | receiptOf (id : EventId)
  deriving DecidableEq

/-- The commits of the services, and the puts of their clients. -/
inductive CommitPoint
  | reserved (f : FileObject)
  | put (o : StoredObject)
  | mismatched (loaded : FileObject)
  | completed (loaded : FileObject) (e : ScanEvent)
  | skipped (r : FileScanReceipt)
  | scanned (loaded : FileObject) (o : StoredObject) (r : FileScanReceipt)

abbrev Tx := Txn.Prog Db LockName (Txn.Point CommitPoint) Empty Empty Err

def apiError (type title : String) (status : Nat) (detail : String) : Err :=
  .api ⟨type, title, status, detail⟩

def invalid (title detail : String) : Err := apiError "validation_error" title 422 detail

def integrityError : Err := .runtime "IntegrityError"

/-! ## Reserving and completing an upload -/

/-- `Path(s).name`. -/
def pathName (s : String) : String :=
  let parts := (s.toList.splitOnPTR (· = '/')).filter fun p => p ≠ [] && p ≠ ['.']
  String.ofList (parts.getLast?.getD [])

/-- `Path(s).suffix`. -/
def pathSuffix (s : String) : String :=
  let name := (pathName s).toList
  let ext := (name.reverse.takeWhile (· ≠ '.')).reverse
  let stem := name.take (name.length - ext.length - 1)
  if name.contains '.' && !ext.isEmpty && !stem.isEmpty then String.ofList ('.' :: ext) else ""

def allowedMimeTypes : List String := ["application/pdf", "image/jpeg", "image/png", "text/plain"]

def allowedExtensions : List String := [".pdf", ".jpg", ".jpeg", ".png", ".txt"]

/-- `_SHA256_RE.fullmatch`. -/
def isSha256 (s : String) : Bool :=
  s.toList.length = 64 && s.toList.all fun c => ('0' ≤ c && c ≤ '9') || ('a' ≤ c && c ≤ 'f')

def createUpload (cfg : Settings) (user : UserId) (originalName mimeType : String) (sizeBytes : Int)
    (purpose : String) (sha256 : Option String) (id : FileId) : Tx FileObject := do
  let cleanName := strip (pathName originalName)
  let extension := lower (pathSuffix cleanName)
  require (!(cleanName.isEmpty || cleanName.length > 255))
    (invalid "Invalid file name" "File name is invalid")
  require (allowedExtensions.contains extension && allowedMimeTypes.contains mimeType)
    (invalid "Unsupported file type" "File extension or MIME type is not allowed")
  require (!(sizeBytes ≤ 0 || sizeBytes > cfg.maxUploadBytes))
    (invalid "Invalid file size" s!"File must be between 1 and {cfg.maxUploadBytes} bytes")
  match Purpose.parse purpose with
  | none => raise (invalid "Invalid file purpose" "Unknown file purpose")
  | some purpose =>
    let normalizedSha256 := sha256.map lower
    require (normalizedSha256.all isSha256)
      (invalid "Invalid SHA-256" "sha256 must be 64 hex chars")
    let file : FileObject := {
      id := id
      owner := user
      objectKey := ⟨user, id, cleanName⟩
      mimeType := mimeType
      sizeBytes := sizeBytes.toNat
      sha256 := normalizedSha256
      purpose := purpose
      status := .quarantined
      rejectionReason := none }
    reserve integrityError (.file id) fun d => (d.file? id).isSome
    reserve integrityError (.objectKey file.objectKey)
      fun d => d.files.any fun x => x.objectKey = file.objectKey
    write fun d => d.addFile file
    commit (.reserved file)
    pure file

/-- A client puts bytes through the presigned URL of a file, whose key and content type are
signed. -/
def putUpload (fileId : FileId) (bytes : Bytes) : Tx Unit := do
  let issued ← select fun d => d.file? fileId
  match issued with
  | none => raise (.runtime "SignatureDoesNotMatch")
  | some file =>
    let object : StoredObject := ⟨file.objectKey, file.mimeType, bytes⟩
    write fun d => d.putObject object
    commit (.put object)

def ownedFileForUpdate (user : UserId) (fileId : FileId) : Tx FileObject := do
  let file ← selectForUpdate (fun f => .file f.id) fun d => d.file? fileId
  match file with
  | none => raise (apiError "file_not_found" "File not found" 404 "File was not found")
  | some file =>
    require (file.owner = user)
      (apiError "forbidden" "Forbidden" 403 "Only the file owner may modify it")
    pure file

def FileObject.mismatch (f : FileObject) : FileObject :=
  { f with
    status := .rejected
    rejectionReason := some "uploaded object metadata does not match the reservation" }

def FileObject.startScan (f : FileObject) : FileObject := { f with status := .scanning }

def completeUpload (user : UserId) (fileId : FileId) (eventId : EventId) (now : Nat) :
    Tx FileObject := do
  let file ← ownedFileForUpdate user fileId
  match file.status with
  | .safe => pure file
  | .rejected =>
    raise (apiError "invalid_state" "File rejected" 409 "Rejected files cannot be completed")
  | .scanning => pure file
  | .quarantined =>
    let metadata ← select fun d => d.object? file.objectKey
    match metadata with
    | none => raise (apiError "upload_missing" "Upload missing" 409 "Uploaded object was not found")
    | some object =>
      if object.bytes.length ≠ file.sizeBytes || object.contentType ≠ file.mimeType then
        write fun d => d.modifyFile file.id .mismatch
        commit (.mismatched file)
        pure file.mismatch
      else
        let event : ScanEvent := ⟨eventId, file.id, now⟩
        write fun d => d.modifyFile file.id .startScan
        reserve integrityError (.event eventId) fun d => (d.event? eventId).isSome
        write fun d => d.addEvent event
        commit (.completed file event)
        pure file.startScan

/-! ## The scan worker -/

def FileObject.judge (result : ScanResult) (f : FileObject) : FileObject :=
  { f with
    sha256 := some result.sha256
    status := if result.safe then .safe else .rejected
    rejectionReason := result.reason }

def addReceipt (receipt : FileScanReceipt) (point : CommitPoint) : Tx Bool := do
  reserve integrityError (.receiptOf receipt.event) fun d => (d.receiptOf? receipt.event).isSome
  write fun d => d.addReceipt receipt
  commit point
  pure true

def processScanEvent (cfg : Settings) (eventId : EventId) : Tx Bool := do
  let event ← selectForUpdate (fun e => .event e.id) fun d => d.event? eventId
  match event with
  | none => pure false
  | some event =>
    let existing ← select fun d => d.receiptOf? event.id
    if existing.isSome then pure false
    else
      let file ← selectForUpdate (fun f => .file f.id) fun d => d.file? event.file
      match file with
      | none =>
        -- the receipt's foreign key has no row
        raise integrityError
      | some file =>
        let receipt : FileScanReceipt := ⟨event.id, file.id⟩
        if file.status ≠ .scanning then addReceipt receipt (.skipped receipt)
        else
          require (cfg.scannerMode = "basic" || cfg.scannerMode = "clamav")
            (.runtime "FILE_SCANNER_MODE must be 'basic' or 'clamav'")
          let object ← select fun d => d.object? file.objectKey
          match object with
          | none => raise (.runtime "NoSuchKey")
          | some object =>
            write fun d => d.modifyFile file.id (.judge (verdict cfg file object.bytes))
            addReceipt receipt (.scanned file object receipt)

def processScanEvents (cfg : Settings) : List EventId → Nat → Tx Nat
  | [], processed => pure processed
  | eventId :: eventIds, processed => do
    let done ← processScanEvent cfg eventId
    processScanEvents cfg eventIds (if done then processed + 1 else processed)

/-- The events without a receipt, the oldest first. -/
def Db.pendingScans (d : Db) (limit : Nat) : List EventId :=
  (((d.events.filter fun e => (d.receiptOf? e.id).isNone).insertionSort
    fun x y => x.createdAt ≤ y.createdAt).map ScanEvent.id).take limit

def drainScanOutbox (cfg : Settings) (limit : Nat) : Tx Nat := do
  let eventIds ← select fun d => d.pendingScans limit
  processScanEvents cfg eventIds 0

/-! ## Downloads -/

/-- `authorized`: what the messages and disputes that have the file say of a user who does not own
it. -/
def createDownload (user : UserId) (fileId : FileId) (authorized : Bool) : Tx FileObject := do
  let file ← select fun d => d.file? fileId
  match file with
  | none => raise (apiError "file_not_found" "File not found" 404 "File was not found")
  | some file =>
    require (file.owner = user || authorized)
      (apiError "forbidden" "Forbidden" 403 "You may not access this file")
    require (file.status = .safe)
      (apiError "file_unavailable" "File unavailable" 409 "Only SAFE files can be downloaded")
    pure file

end Files

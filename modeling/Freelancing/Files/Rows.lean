import Freelancing.Money.Types

/-!
# File rows

The row of an uploaded file, `app/files/models.py`. A uuid is a number.
-/

namespace Files

open Money (UserId)

abbrev FileId := Nat

/-- The object store's key of a file: its owner, its id and its name (`quarantine/…`). -/
structure ObjectKey where
  owner : UserId
  file : FileId
  name : String
  deriving DecidableEq

inductive FileStatus
  | quarantined
  | scanning
  | safe
  | rejected
  deriving DecidableEq

inductive Purpose
  | messageAttachment
  | portfolio
  | projectAttachment
  | disputeEvidence
  deriving DecidableEq

/-- `none`: not in `allowed_purposes`. -/
def Purpose.parse (s : String) : Option Purpose :=
  if s = "MESSAGE_ATTACHMENT" then some messageAttachment
  else if s = "PORTFOLIO" then some portfolio
  else if s = "PROJECT_ATTACHMENT" then some projectAttachment
  else if s = "DISPUTE_EVIDENCE" then some disputeEvidence
  else none

structure FileObject where
  id : FileId
  owner : UserId
  objectKey : ObjectKey
  mimeType : String
  sizeBytes : Nat
  sha256 : Option String
  purpose : Purpose
  status : FileStatus
  rejectionReason : Option String
  deriving DecidableEq

end Files

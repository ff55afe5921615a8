import FireBoxTransfer.Framework.JsonValue
import FireBoxTransfer.RemoteFs.Firebox

/-!
# The client of the core

A request for a page is checked before it is sent and again when it arrives;
the answer of the isolate is checked before it is sent back, bounded in size on
its way and checked once more by the client.
-/

namespace FireBoxTransfer

namespace Firebox

/-! ## §1  The endpoint -/

/-- What comes of an event that the isolate was asked to answer; no answer in
time, and an answer of another kind, is none. -/
def dispatchList (reply : Option RemoteFsReply) : RemoteFsResult RemoteFsListResponse :=
  match reply with
  | some (.list response) => .ok response
  | some (.error code) => .error code
  | _ => .error .unavailable

/-- `GET /files`. -/
def list (isolate : RemoteFsListRequest → Option RemoteFsReply) (request : RemoteFsListRequest) :
    RemoteFsResult RemoteFsListResponse := do
  request.validate
  let response ← dispatchList (isolate request)
  validatePage request response
  pure response

/-! ## §2  Sizes on the wire -/

/-- A field that is left out if it is `none`: its key, and its value. -/
def jsonFieldSize {α : Type} (key : String) (size : α → ℕ) : Option α → ℕ
  | none => 0
  | some value => key.length + 4 + size value

/-- Elements and the commas between them. -/
def jsonListSize {α : Type} (size : α → ℕ) (values : List α) : ℕ :=
  (values.map size).sum + (values.length - 1) + 2

def capabilityName : RemoteFsCapability → String
  | .browse => "BROWSE"
  | .read => "READ"
  | .write => "WRITE"
  | .createDirectory => "CREATE_DIRECTORY"
  | .rename => "RENAME"
  | .move => "MOVE"
  | .delete => "DELETE"

def entryTypeName : RemoteFsEntryType → String
  | .file => "FILE"
  | .directory => "DIRECTORY"
  | .other => "OTHER"

/-- `{"name":…,"path":…,"entryType":…}`, with the fields that are there. -/
def jsonEntrySize (entry : RemoteFsEntry) : ℕ :=
  2 + (7 + JsonValue.stringSize entry.name) + (8 + JsonValue.stringSize entry.path) +
    (13 + JsonValue.stringSize (entryTypeName entry.entryType)) +
    jsonFieldSize "size" (fun size => (toString size).length) entry.size +
    jsonFieldSize "modified" JsonValue.stringSize entry.modified +
    jsonFieldSize "mimeType" JsonValue.stringSize entry.mimeType +
    (if entry.capabilities = [] then 0
      else 16 + jsonListSize (fun c => JsonValue.stringSize (capabilityName c)) entry.capabilities)

def jsonPageSize (response : RemoteFsListResponse) : ℕ :=
  2 + 10 + jsonListSize jsonEntrySize response.entries +
    jsonFieldSize "nextCursor" JsonValue.stringSize response.nextCursor

abbrev maxJsonResponseSize : ℕ := 8 * 1024 * 1024

/-! ## §3  The client -/

inductive RemoteFsClientError where
  | setup
  | remote (code : RemoteFsErrorCode) (message : String)
  | reqwest
  | json
  | io
  | invalidRequest (code : RemoteFsErrorCode)
  | invalidResponse
  | cancelled
  | other
deriving DecidableEq

def safeMessage : RemoteFsErrorCode → String
  | .unauthenticated => "A verified client certificate is required."
  | .untrustedDevice => "This device is not trusted."
  | .permissionDenied => "This operation is not permitted."
  | .invalidRequest => "The request is invalid."
  | .invalidPath => "The relative path is invalid."
  | .invalidName => "The file name is invalid."
  | .rootNotFound => "The authorized root is not available."
  | .notFound => "The requested entry was not found."
  | .alreadyExists => "An entry with that name already exists."
  | .notDirectory => "The requested entry is not a directory."
  | .isDirectory => "The requested entry is a directory."
  | .directoryNotEmpty => "The directory is not empty."
  | .conflict => "The operation conflicts with the current state."
  | .readOnly => "The authorized root is read-only."
  | .storageFull => "There is not enough free storage."
  | .payloadTooLarge => "The content is larger than the configured limit."
  | .unsupported => "This operation is not supported."
  | .busy => "The filesystem is busy."
  | .transferFailed => "The content transfer did not complete."
  | .unavailable => "The filesystem provider is temporarily unavailable."
  | .internal => "An internal error occurred."

/-- A refusal as it reaches the client. -/
def remoteError (code : RemoteFsErrorCode) : RemoteFsClientError := .remote code (safeMessage code)

/-- Go on if the condition holds. -/
def checkResponse (c : Bool) : Except RemoteFsClientError Unit :=
  if c then .ok () else .error .invalidResponse

/-- `FireboxTransferClient::list`, over a server. -/
def clientList (server : RemoteFsListRequest → RemoteFsResult RemoteFsListResponse)
    (request : RemoteFsListRequest) : Except RemoteFsClientError RemoteFsListResponse := do
  request.validate.mapError .invalidRequest
  let response ← (server request).mapError remoteError
  checkResponse (jsonPageSize response ≤ maxJsonResponseSize)
  checkResponse (response.entries.length ≤ request.limit && response.nextCursor.all validCursor)
  (validateEntries request.location.path [] response.entries).mapError fun _ => .invalidResponse
  pure response

/-- A page that the server accepts and that fits is what the client gets. -/
theorem clientList_eq_ok {isolate : RemoteFsListRequest → Option RemoteFsReply}
    {request : RemoteFsListRequest} {response : RemoteFsListResponse}
    (hrequest : request.validate = .ok ()) (hreply : isolate request = some (.list response))
    (hpage : validatePage request response = .ok ())
    (hfits : jsonPageSize response ≤ maxJsonResponseSize) :
    clientList (list isolate) request = .ok response := by
  have hserved : list isolate request = .ok response := by
    unfold list
    rw [hrequest, hreply]
    show (validatePage request response >>= fun _ => pure response) = _
    rw [hpage]
    rfl
  unfold validatePage at hpage
  rw [then_eq_ok, then_eq_ok, check_eq_ok, check_eq_ok] at hpage
  obtain ⟨hlength, hentries, hcursor⟩ := hpage
  unfold clientList
  rw [hrequest, hserved]
  show (checkResponse (decide (jsonPageSize response ≤ maxJsonResponseSize)) >>= fun _ =>
    checkResponse (decide (response.entries.length ≤ request.limit) &&
      response.nextCursor.all validCursor) >>= fun _ =>
    (validateEntries request.location.path [] response.entries).mapError (fun _ =>
      RemoteFsClientError.invalidResponse) >>= fun _ => pure response) = _
  rw [hentries, hlength, hcursor, decide_eq_true hfits]
  rfl

end Firebox

end FireBoxTransfer

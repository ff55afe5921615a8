import FireBoxTransfer.RemoteFs.FireboxWire
import FireBoxTransfer.RemoteFs.FireboxMutations

/-!
# Responses of the core

The server checks what the application replies to a request and writes it as JSON; the client
reads at most eight megabytes of a response, and makes the same checks.
-/

namespace FireBoxTransfer

namespace Firebox

/-! ## §1  The endpoints -/

/-- The application behind the core: what it replies to an event (no reply in time is none),
and whether the bytes of a write arrive at their target. -/
structure Application where
  roots : Option (RemoteFsResult (List RemoteFsRoot))
  answer : RemoteFsRequest → Option RemoteFsReply
  saves : FileHandle → BitVec 64 → Bool

structure RemoteFsState where
  application : Application
  maxWriteSize : ℕ

/-- What the libraries of HTTP do for both sides. -/
structure Http where
  /-- `serde_json::from_slice`, as far as to a value. -/
  readJson : List UInt8 → Option JsonValue
  /-- `HeaderValue::from_str` accepts the text. -/
  headerValue : String → Bool
  /-- The chunks in which a body arrives. -/
  chunks : List UInt8 → List (List UInt8)

/-- The text of a value arrives, and is read as the value. -/
structure Http.Carries (http : Http) (value : JsonValue) : Prop where
  read : http.readJson value.text = some value
  arrive : (http.chunks value.text).flatten = value.text

/-- What an endpoint answers with if all goes well. -/
inductive Response where
  | roots (roots : List RemoteFsRoot)
  | page (response : RemoteFsListResponse)
  | entry (entry : RemoteFsEntry)
  | mutated (entry : RemoteFsEntry)
  | deleted
  | content (size : Option ℕ) (contentType : Option String)
  | written (bytesWritten : ℕ)

def validateRoot (root : RemoteFsRoot) : RemoteFsResult Unit := do
  validateRootId root.id
  check (!(root.displayName = "" || root.displayName.utf8ByteSize > 256 ||
    anyControl root.displayName ||
    root.freeBytes.any fun free => root.totalBytes.any fun total => free > total)) .internal

/-- The roots one after the other; no id may be `seen` twice. -/
def validateRoots (seen : List String) : List RemoteFsRoot → RemoteFsResult Unit
  | [] => .ok ()
  | root :: roots => do
      validateRoot root
      check (!seen.contains root.id) .internal
      validateRoots (root.id :: seen) roots

section Endpoints

variable (http : Http) (state : RemoteFsState)

def roots : RemoteFsResult (List RemoteFsRoot) := do
  let roots ← state.application.roots.getD (.error .unavailable)
  check (roots.length ≤ 256) .internal
  validateRoots [] roots
  pure roots

def metadata (target : RemoteFsLocation) : RemoteFsResult RemoteFsEntry := do
  validateLocation target
  requireEntryPath target
  let entry ← dispatchEntry (state.application.answer (.metadata target))
  validateExactEntry entry target.path
  pure entry

def delete (target : RemoteFsLocation) (recursive : Bool) : RemoteFsResult Unit := do
  validateLocation target
  requireEntryPath target
  match state.application.answer (.delete target recursive) with
  | some .deleted => .ok ()
  | some (.error code) => .error code
  | _ => .error .unavailable

/-- The type of a file, if a header can hold it. -/
def contentType (entry : RemoteFsEntry) : String :=
  (entry.mimeType.filter http.headerValue).getD "application/octet-stream"

/-- The headers of the content of a file. -/
def read (target : RemoteFsLocation) : RemoteFsResult (ℕ × String) := do
  validateLocation target
  requireEntryPath target
  match state.application.answer (.read target) with
  | some (.read entry _) => do
      validateExactEntry entry target.path
      check (entry.entryType = .file) .isDirectory
      match entry.size with
      | some size => .ok (size, contentType http entry)
      | none => .error .internal
  | some (.error code) => .error code
  | _ => .error .unavailable

def write (target : RemoteFsLocation) (size : BitVec 64) (overwrite : Bool) :
    RemoteFsResult ℕ := do
  validateLocation target
  requireEntryPath target
  check (size.toNat ≤ state.maxWriteSize) .payloadTooLarge
  match state.application.answer (.write target size overwrite) with
  | some (.write handle) =>
      if state.application.saves handle size then .ok size.toNat else .error .transferFailed
  | some (.error code) => .error code
  | _ => .error .unavailable

/-- The endpoint of a request. -/
def serve : RemoteFsRequest → RemoteFsResult Response
  | .roots => (roots state).map .roots
  | .list location cursor limit =>
      (list (fun request => state.application.answer
        (.list request.location request.cursor request.limit)) ⟨location, cursor, limit⟩).map .page
  | .metadata target => (metadata state target).map .entry
  | .delete target recursive => (delete state target recursive).map fun _ => .deleted
  | .read target =>
      (read http state target).map fun (size, type) => .content (some size) (some type)
  | .write target size overwrite => (write state target size overwrite).map .written
  | request => (mutate state.application.answer request).map .mutated

/-- What the application replies to a request, as the client shall get it. -/
def Application.reply (application : Application) (request : RemoteFsRequest) : Option Response :=
  match request, application.roots, application.answer request with
  | .roots, some (.ok roots), _ => some (.roots roots)
  | .list _ _ _, _, some (.list response) => some (.page response)
  | .metadata _, _, some (.entry entry) => some (.entry entry)
  | .createDirectory _ _, _, some (.entry entry) => some (.mutated entry)
  | .rename _ _, _, some (.entry entry) => some (.mutated entry)
  | .move _ _ _ _, _, some (.entry entry) => some (.mutated entry)
  | .delete _ _, _, some .deleted => some .deleted
  | .read _, _, some (.read entry _) => some (.content entry.size (contentType http entry))
  | .write _ size _, _, some (.write _) => some (.written size.toNat)
  | _, _, _ => none

/-! ## §2  Responses of HTTP -/

/-- A response as it arrives. -/
structure HttpResponse where
  status : ℕ
  contentLength : Option ℕ
  contentType : Option String
  chunks : List (List UInt8)

def errorStatus : RemoteFsErrorCode → ℕ
  | .unauthenticated => 401
  | .untrustedDevice | .permissionDenied | .readOnly => 403
  | .invalidRequest | .invalidPath | .invalidName => 400
  | .rootNotFound | .notFound => 404
  | .alreadyExists | .notDirectory | .isDirectory | .directoryNotEmpty | .conflict => 409
  | .payloadTooLarge => 413
  | .storageFull => 507
  | .unsupported => 501
  | .busy => 429
  | .transferFailed => 422
  | .unavailable => 503
  | .internal => 500

def Http.jsonResponse (status : ℕ) (value : JsonValue) : HttpResponse where
  status := status
  contentLength := some value.text.length
  contentType := some "application/json"
  chunks := http.chunks value.text

/-- What a mutation that went well is answered with. -/
def mutationStatus : RemoteFsRequest → ℕ
  | .createDirectory _ _ => 201
  | _ => 200

/-- The content of a file follows its headers. -/
def encode (request : RemoteFsRequest) : Response → HttpResponse
  | .roots roots => http.jsonResponse 200 (rootsJson roots)
  | .page response => http.jsonResponse 200 (pageJson response)
  | .entry entry => http.jsonResponse 200 (entryJson entry)
  | .mutated entry => http.jsonResponse (mutationStatus request) (mutationJson entry)
  | .deleted => ⟨204, some 0, none, []⟩
  | .content size type => ⟨200, size, type, []⟩
  | .written bytes => http.jsonResponse 200 (writtenJson bytes)

def handle (request : RemoteFsRequest) : HttpResponse :=
  match serve http state request with
  | .ok response => encode http request response
  | .error code => http.jsonResponse (errorStatus code) (errorJson code)

end Endpoints

/-! ## §3  The client -/

abbrev maxErrorResponseSize : ℕ := 64 * 1024

def appendBounded (maxSize : ℕ) (body chunk : List UInt8) :
    Except RemoteFsClientError (List UInt8) :=
  if body.length + chunk.length > maxSize then .error .invalidResponse else .ok (body ++ chunk)

def collectBoundedBody (response : HttpResponse) (maxSize : ℕ) :
    Except RemoteFsClientError (List UInt8) :=
  if response.contentLength.any (· > maxSize) then .error .invalidResponse
  else response.chunks.foldlM (appendBounded maxSize) []

def isSuccess (status : ℕ) : Bool := 200 ≤ status && status < 300

section Client

variable (http : Http)

/-- An error that cannot be read is taken for an internal one. -/
def ensureSuccess (response : HttpResponse) : Except RemoteFsClientError Unit :=
  if isSuccess response.status then .ok ()
  else
    match collectBoundedBody response maxErrorResponseSize with
    | .ok body =>
        match (http.readJson body).bind readError with
        | some (code, message) => .error (.remote code message)
        | none => .error (remoteError .internal)
    | .error _ => .error (remoteError .internal)

def parseJsonResponse {α : Type} (read : JsonValue → Option α) (response : HttpResponse) :
    Except RemoteFsClientError α := do
  ensureSuccess http response
  let body ← collectBoundedBody response maxJsonResponseSize
  match (http.readJson body).bind read with
  | some a => .ok a
  | none => .error .json

def parseEmptyResponse (response : HttpResponse) (expected : ℕ) :
    Except RemoteFsClientError Unit :=
  if response.status = expected then .ok ()
  else do
    ensureSuccess http response
    checkResponse (response.status = expected)

def validateExactResponseEntry (entry : RemoteFsEntry) (expectedPath : String) :
    Except RemoteFsClientError Unit := do
  (validateEntry entry none).mapError fun _ => .invalidResponse
  checkResponse (entry.path = expectedPath)

def parseMutationResponse (response : HttpResponse) (expectedPath : String) :
    Except RemoteFsClientError RemoteFsEntry := do
  let entry ← parseJsonResponse http readMutation response
  validateExactResponseEntry entry expectedPath
  pure entry

/-- What the client checks of a request is its own mistake. -/
def checkRequest (x : RemoteFsResult Unit) : Except RemoteFsClientError Unit :=
  x.mapError .invalidRequest

def validateEntryLocation (location : RemoteFsLocation) : Except RemoteFsClientError Unit := do
  checkRequest (validateLocation location)
  checkRequest (requireEntryPath location)

variable (server : RemoteFsRequest → HttpResponse)

def askRoots : Except RemoteFsClientError (List RemoteFsRoot) := do
  let roots ← parseJsonResponse http readRoots (server .roots)
  checkResponse (roots.length ≤ 256)
  (validateRoots [] roots).mapError fun _ => .invalidResponse
  pure roots

def askList (request : RemoteFsListRequest) : Except RemoteFsClientError RemoteFsListResponse := do
  checkRequest request.validate
  let response ← parseJsonResponse http readPage
    (server (.list request.location request.cursor request.limit))
  checkResponse (response.entries.length ≤ request.limit && response.nextCursor.all validCursor)
  (validateEntries request.location.path [] response.entries).mapError fun _ => .invalidResponse
  pure response

def askMetadata (target : RemoteFsLocation) : Except RemoteFsClientError RemoteFsEntry := do
  validateEntryLocation target
  let entry ← parseJsonResponse http readEntry (server (.metadata target))
  validateExactResponseEntry entry target.path
  pure entry

def askCreateDirectory (parent : RemoteFsLocation) (name : String) :
    Except RemoteFsClientError RemoteFsEntry := do
  checkRequest (validateLocation parent)
  checkRequest (validateFileName name)
  parseMutationResponse http (server (.createDirectory parent name)) (childPath parent.path name)

def askRename (source : RemoteFsLocation) (newName : String) :
    Except RemoteFsClientError RemoteFsEntry := do
  validateEntryLocation source
  checkRequest (validateFileName newName)
  parseMutationResponse http (server (.rename source newName))
    (childPath (parentPath source.path) newName)

def askMove (source destinationParent : RemoteFsLocation) (newName : Option String)
    (overwrite : Bool) : Except RemoteFsClientError RemoteFsEntry := do
  validateEntryLocation source
  checkRequest (validateLocation destinationParent)
  checkRequest ((newName.map validateFileName).getD (pure ()))
  parseMutationResponse http (server (.move source destinationParent newName overwrite))
    (childPath destinationParent.path (newName.getD (lastComponent source.path)))

def askDelete (target : RemoteFsLocation) (recursive : Bool) : Except RemoteFsClientError Unit := do
  validateEntryLocation target
  parseEmptyResponse http (server (.delete target recursive)) 204

/-- The content of the file is read from the response. -/
def askRead (target : RemoteFsLocation) : Except RemoteFsClientError HttpResponse := do
  validateEntryLocation target
  ensureSuccess http (server (.read target))
  pure (server (.read target))

def askWrite (target : RemoteFsLocation) (size : BitVec 64) (overwrite : Bool) :
    Except RemoteFsClientError ℕ := do
  validateEntryLocation target
  let bytesWritten ← parseJsonResponse http readWritten (server (.write target size overwrite))
  checkResponse (bytesWritten = size.toNat)
  pure bytesWritten

/-- What the client gets for a request. -/
def ask : RemoteFsRequest → Except RemoteFsClientError Response
  | .roots => (askRoots http server).map .roots
  | .list location cursor limit => (askList http server ⟨location, cursor, limit⟩).map .page
  | .metadata target => (askMetadata http server target).map .entry
  | .createDirectory parent name => (askCreateDirectory http server parent name).map .mutated
  | .rename source newName => (askRename http server source newName).map .mutated
  | .move source destinationParent newName overwrite =>
      (askMove http server source destinationParent newName overwrite).map .mutated
  | .delete target recursive => (askDelete http server target recursive).map fun _ => .deleted
  | .read target =>
      (askRead http server target).map fun response =>
        .content response.contentLength response.contentType
  | .write target size overwrite => (askWrite http server target size overwrite).map .written

end Client

end Firebox

end FireBoxTransfer

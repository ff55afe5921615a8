import FireBoxTransfer.RemoteFs.FireboxClient
import FireBoxTransfer.Explorer.Model

/-!
# The client of a remote device

The explorer lists a directory of a remote device page after page: each page
says with a cursor whether there is another one.
-/

namespace FireBoxTransfer

namespace NetworkClient

/-! ## §1  Errors -/

def errorCode : RemoteFsErrorCode → String
  | .unauthenticated => "unauthenticated"
  | .untrustedDevice => "untrustedDevice"
  | .permissionDenied => "permissionDenied"
  | .invalidRequest => "invalidRequest"
  | .invalidPath => "invalidPath"
  | .invalidName => "invalidName"
  | .rootNotFound => "rootNotFound"
  | .notFound => "notFound"
  | .alreadyExists => "alreadyExists"
  | .notDirectory => "notDirectory"
  | .isDirectory => "isDirectory"
  | .directoryNotEmpty => "directoryNotEmpty"
  | .conflict => "conflict"
  | .readOnly => "readOnly"
  | .storageFull => "storageFull"
  | .payloadTooLarge => "payloadTooLarge"
  | .unsupported => "unsupported"
  | .busy => "busy"
  | .transferFailed => "transferFailed"
  | .unavailable => "unavailable"
  | .internal => "internal"

def mapError : Firebox.RemoteFsClientError → RemoteFileSystemException
  | .remote code message =>
      ⟨errorCode code, message, code ∈ [.busy, .transferFailed, .unavailable]⟩
  | .invalidRequest code => explorerError (errorCode code) "La solicitud remota no es válida."
  | .cancelled => ⟨"cancelled", "La operación fue cancelada.", true⟩
  | .setup => explorerError "connection_setup" "No se pudo establecer una conexión segura."
  | .reqwest | .io => ⟨"unavailable", "Se perdió la conexión con el dispositivo.", true⟩
  | .json | .invalidResponse =>
      explorerError "invalid_response" "El dispositivo devolvió una respuesta inválida."
  | .other => explorerError "remote_error" "No se pudo completar la operación remota."

/-! ## §2  Entries -/

def validName (name : String) : Bool :=
  !(name = "" || name = "." || name = ".." || contains name '/' || contains name '\\' ||
    name.toList.any fun ch => ch.toNat ≤ 0x1f)

def validateName (name : String) : ExplorerResult Unit :=
  explorerCheck (validName name) (explorerError "invalid_name" "El nombre no es válido.")

def validPath (path : String) : Bool :=
  path = "" || !(path.toList.head? = some '/' || path.toList.getLast? = some '/' ||
    contains path '\\' || (splitSlash path).any fun c => c = "" || c = "." || c = "..")

def validatePath (path : String) : ExplorerResult Unit :=
  explorerCheck (validPath path) (explorerError "invalid_path" "La ruta remota no es válida.")

def location (root : ExplorerRoot) (path : String) : ExplorerResult RemoteFsLocation := do
  validatePath path
  pure ⟨root.id, path⟩

/-- Sizes are integers of 64 bits with a sign. -/
def safeInt (value : ℕ) : ExplorerResult ℕ := do
  explorerCheck (value ≤ 0x7fffffffffffffff)
    (explorerError "invalid_response" "El dispositivo devolvió un tamaño inválido.")
  pure value

def capabilities (values : List RemoteFsCapability) : ExplorerCapabilities where
  browse := .browse ∈ values
  read := .read ∈ values
  write := .write ∈ values
  createDirectory := .createDirectory ∈ values
  rename := .rename ∈ values
  move := .move ∈ values
  delete := .delete ∈ values

/-- An entry of the explorer. -/
def explorerEntry (tryParse : String → Option Int) (value : RemoteFsEntry) :
    ExplorerFileEntry where
  id := value.path ++ ":" ++ value.name
  name := value.name
  path := value.path
  kind := if value.entryType = .directory then .directory else .file
  sizeBytes := value.size
  modifiedAt := value.modified.bind tryParse
  mimeType := value.mimeType
  capabilities := some (capabilities value.capabilities)

/-- `_entry`, with the parser of dates of the platform. -/
def entry (tryParse : String → Option Int) (value : RemoteFsEntry) :
    ExplorerResult ExplorerFileEntry := do
  explorerCheck (value.entryType ≠ .other)
    (explorerError "unsupported_entry" "El dispositivo devolvió un tipo de archivo no compatible.")
  validatePath value.path
  validateName value.name
  let _ ← value.size.mapM safeInt
  pure (explorerEntry tryParse value)

/-! ## §3  Pages -/

abbrev remoteListPageSize : ℕ := 500
abbrev remoteListMaxEntries : ℕ := 100000

/-- The variables of the loop, and the number of requests that were sent. -/
structure Paging where
  requests : ℕ
  entries : List ExplorerFileEntry
  seenCursors : List String
  cursor : Option String
deriving DecidableEq

def Paging.init : Paging := ⟨0, [], [], none⟩

/-- The device as the client sees it: what comes of the n-th request. -/
abbrev ListService : Type :=
  ℕ → Firebox.RemoteFsListRequest → Except Firebox.RemoteFsClientError RemoteFsListResponse

section Loop

variable (service : ListService) (tryParse : String → Option Int) (pageSize : ℕ)
  (root : ExplorerRoot) (path : String)

/-- One round of the loop: it goes on as long as there is a cursor. -/
def Paging.round (paging : Paging) : ExplorerResult Paging := do
  let location ← location root path
  let page ← (service paging.requests ⟨location, paging.cursor, pageSize⟩).mapError mapError
  let more ← page.entries.mapM (entry tryParse)
  let entries := paging.entries ++ more
  explorerCheck (entries.length ≤ remoteListMaxEntries)
    (explorerError "payload_too_large"
      "La carpeta contiene demasiados elementos para mostrarla con seguridad.")
  explorerCheck (page.nextCursor.all fun cursor => !paging.seenCursors.contains cursor)
    (explorerError "invalid_response" "El dispositivo devolvió una paginación inválida.")
  pure ⟨paging.requests + 1, entries, page.nextCursor.toList ++ paging.seenCursors,
    page.nextCursor⟩

/-- The loop, for at most `fuel` rounds. -/
def listPages : ℕ → Paging → Option (ExplorerResult (List ExplorerFileEntry))
  | 0, _ => none
  | fuel + 1, paging =>
      match paging.round service tryParse pageSize root path with
      | .error error => some (.error error)
      | .ok next =>
          match next.cursor with
          | none => some (.ok next.entries)
          | some _ => listPages fuel next

/-! ## §4  Listings -/

def displayPath : String := if path = "" then root.label else root.label ++ "/" ++ path

def parentPath : Option String := if path = "" then none else some (parentRemotePath path)

/-- The listing that is made of the entries. -/
def listing (storageByRoot : String → Option ExplorerStorageInfo)
    (entries : List ExplorerFileEntry) : ExplorerDirectoryListing where
  location := ⟨root.id, path, displayPath root path, parentPath path⟩
  entries := entries
  capabilities := root.capabilities
  storage := storageByRoot root.id

/-- `NetworkRemoteFileSystemClient.listDirectory`, for at most `fuel` pages. -/
def listDirectory (storageByRoot : String → Option ExplorerStorageInfo) (fuel : ℕ) :
    Option (ExplorerResult ExplorerDirectoryListing) :=
  (listPages service tryParse pageSize root path fuel .init).map fun result =>
    result.map (listing root path storageByRoot)

end Loop

end NetworkClient

end FireBoxTransfer

import FireBoxTransfer.Framework.PathContext
import FireBoxTransfer.Framework.Program
import Mathlib.Data.List.Sort

/-!
# The remote file system: requests, entries, operations

What an authenticated peer can ask for, what the provider of a shared root
can be told to do, and the checks on the names and paths of a request. A
handler is a program over the current access snapshot; its operations are
those of the local file system, of the Android storage access framework and
the replies to the peer.
-/

namespace FireBoxTransfer

/-! ## §1  Grants and requests -/

inductive RemoteFsGrantKind where
  | localPath | androidSaf
deriving DecidableEq

/-- A shared root. The locator never crosses the network. -/
structure RemoteFsGrant where
  id : String
  displayName : String
  kind : RemoteFsGrantKind
  locator : String
  readOnly : Bool
deriving DecidableEq

/-- The snapshot a request is checked against. -/
structure RemoteFsAccessConfig where
  trustedFingerprints : List String
  grants : List RemoteFsGrant
deriving DecidableEq

def RemoteFsAccessConfig.empty : RemoteFsAccessConfig := ⟨[], []⟩

inductive RemoteFsCapability where
  | browse | read | write | createDirectory | rename | move | delete
deriving DecidableEq

structure RemoteFsPeer where
  ip : String
  certificateFingerprint : String
deriving DecidableEq

structure RemoteFsLocation where
  rootId : String
  path : String
deriving DecidableEq

inductive RemoteFsRequest where
  | roots
  | list (location : RemoteFsLocation) (cursor : Option String) (limit : ℕ)
  | metadata (target : RemoteFsLocation)
  | createDirectory (parent : RemoteFsLocation) (name : String)
  | rename (source : RemoteFsLocation) (newName : String)
  | move (source destinationParent : RemoteFsLocation) (newName : Option String)
      (overwrite : Bool)
  | delete (target : RemoteFsLocation) (recursive : Bool)
  | read (target : RemoteFsLocation)
  | write (target : RemoteFsLocation) (size : BitVec 64) (overwrite : Bool)
deriving DecidableEq

/-- A remote-filesystem event of the server. -/
structure RemoteFsEvent where
  requestId : String
  peer : RemoteFsPeer
  request : RemoteFsRequest
deriving DecidableEq

/-! ## §2  Entries and replies -/

inductive RemoteFsEntryType where
  | file | directory | other
deriving DecidableEq

structure RemoteFsRoot where
  id : String
  displayName : String
  capabilities : List RemoteFsCapability
deriving DecidableEq

structure RemoteFsEntry where
  name : String
  path : String
  entryType : RemoteFsEntryType
  size : Option ℕ
  modified : Option String
  mimeType : Option String
  capabilities : List RemoteFsCapability
deriving DecidableEq

structure RemoteFsListResponse where
  entries : List RemoteFsEntry
  nextCursor : Option String
deriving DecidableEq

inductive RemoteFsErrorCode where
  | unauthenticated | untrustedDevice | permissionDenied | invalidRequest | invalidPath
  | invalidName | rootNotFound | notFound | alreadyExists | notDirectory | isDirectory
  | directoryNotEmpty | conflict | readOnly | storageFull | payloadTooLarge | unsupported
  | busy | transferFailed | unavailable | internal
deriving DecidableEq

/-- What the Rust server streams from or to. -/
inductive FileHandle where
  | path (path : String)
  | descriptor (fileDescriptor : ℕ)
deriving DecidableEq

inductive RemoteFsReply where
  | roots (roots : List RemoteFsRoot)
  | list (response : RemoteFsListResponse)
  | entry (entry : RemoteFsEntry)
  | deleted
  | read (entry : RemoteFsEntry) (source : FileHandle)
  | write (target : FileHandle)
  | error (code : RemoteFsErrorCode)
deriving DecidableEq

/-! ## §3  Operations -/

/-- `FileSystemEntityType`, with pipes and sockets as `other`. -/
inductive FileSystemEntityType where
  | file | directory | link | other | notFound
deriving DecidableEq

structure FileStat where
  type : FileSystemEntityType
  size : ℕ
  modified : Int
deriving DecidableEq

structure SafRoot where
  uri : String
  canRead : Bool
  canWrite : Bool
deriving DecidableEq

structure SafDocument where
  uri : String
  name : String
  mimeType : String
  size : Option ℕ
  lastModified : Option Int
  isDirectory : Bool
  canRead : Bool
  canWrite : Bool
  canCreate : Bool
  canRename : Bool
  canMove : Bool
  canDelete : Bool
deriving DecidableEq

/-- What a handler waits for: the local file system, which never follows a
link in `entityType`, `listDirectory` and `delete`; the storage access
framework; the server that hands a reply to the peer. -/
inductive FsOp where
  | entityType (path : String)
  | resolveSymbolicLinks (path : String)
  | listDirectory (path : String)
  | stat (path : String)
  | create (path : String)
  | rename (path destination : String)
  | delete (path : String) (recursive : Bool)
  | listSharedRoots
  | getSafMetadata (uri : String)
  | resolveSafRelativePath (rootUri relativePath : String)
  | listSafDirectory (directoryUri : String)
  | createSafDirectory (parentUri name : String)
  | renameSafDocument (uri newName : String)
  | moveSafDocument (uri sourceParentUri targetParentUri : String)
  | deleteSafDocument (uri : String)
  | openSafDocumentForReading (uri : String)
  | openSafDocumentForWriting (uri : String) (truncate : Bool)
  | createSafFile (parentUri name mimeType : String)
  | respond (requestId : String) (reply : RemoteFsReply)
deriving DecidableEq

@[reducible] def FsOp.Answer : FsOp → Type
  | .entityType _ => FileSystemEntityType
  | .resolveSymbolicLinks _ => String
  | .listDirectory _ => List String
  | .stat _ => FileStat
  | .create _ | .rename _ _ | .delete _ _ => Unit
  | .listSharedRoots => List SafRoot
  | .getSafMetadata _ | .resolveSafRelativePath _ _ => SafDocument
  | .listSafDirectory _ => List SafDocument
  | .createSafDirectory _ _ | .renameSafDocument _ _ | .moveSafDocument _ _ _ => SafDocument
  | .deleteSafDocument _ => Unit
  | .openSafDocumentForReading _ | .openSafDocumentForWriting _ _ | .createSafFile _ _ _ => ℕ
  | .respond _ _ => Unit

/-! ## §4  Errors -/

/-- The exceptions of a handler: its own failures, those of the platform
channel, of the file system (with the number of the operating system), and
any other. -/
inductive RemoteFsError where
  | failure (code : RemoteFsErrorCode)
  | platform (code : String)
  | fileSystem (osCode : Option Int)
  | other
deriving DecidableEq

def mapSafException (code : String) : RemoteFsErrorCode :=
  if code ∈ ["INVALID_ARGUMENT", "INVALID_PATH", "INVALID_ROOT"] then .invalidPath
  else if code = "INVALID_NAME" then .invalidName
  else if code ∈ ["UNREGISTERED_URI", "PERMISSION_REVOKED"] then .rootNotFound
  else if code ∈ ["PERMISSION_DENIED", "OUTSIDE_SHARED_ROOT", "ROOT_MUTATION_FORBIDDEN"] then
    .permissionDenied
  else if code = "READ_ONLY_ROOT" then .readOnly
  else if code = "NOT_FOUND" then .notFound
  else if code = "NOT_A_DIRECTORY" then .notDirectory
  else if code = "IS_A_DIRECTORY" then .isDirectory
  else if code ∈ ["UNSUPPORTED_OPERATION", "UNSUPPORTED_ANDROID_VERSION",
      "CROSS_PROVIDER_MOVE_UNSUPPORTED"] then .unsupported
  else if code ∈ ["INVALID_MOVE", "INVALID_SOURCE_PARENT", "AMBIGUOUS_PATH"] then .conflict
  else if code ∈ ["CREATE_FAILED", "RENAME_FAILED", "MOVE_FAILED", "DELETE_FAILED",
      "OPEN_FAILED"] then .transferFailed
  else if code ∈ ["QUERY_FAILED", "ANCESTRY_CHECK_FAILED"] then .unavailable
  else .internal

def mapFileSystemException (osCode : Option Int) : RemoteFsErrorCode :=
  match osCode with
  | none => .unavailable
  | some code =>
      if code ∈ [2, 3] then .notFound
      else if code ∈ [5, 13] then .permissionDenied
      else if code ∈ [17, 80, 183] then .alreadyExists
      else if code ∈ [28, 112] then .storageFull
      else if code ∈ [39, 145] then .directoryNotEmpty
      else if code ∈ [16, 32, 33] then .busy
      else .unavailable

/-- The code that reaches the peer. -/
def remoteFsErrorCode : RemoteFsError → RemoteFsErrorCode
  | .failure code => code
  | .platform code => mapSafException code
  | .fileSystem osCode => mapFileSystemException osCode
  | .other => .internal

/-! ## §5  Handlers -/

abbrev RemoteFsM : Type → Type := Program RemoteFsAccessConfig RemoteFsError FsOp FsOp.Answer

def fail {α : Type} (code : RemoteFsErrorCode) : RemoteFsM α := .throw (.failure code)

/-- Go on if the condition holds. -/
def require (c : Bool) (code : RemoteFsErrorCode) : RemoteFsM Unit :=
  if c then pure () else fail code

/-- A `FileSystemException` becomes a failure. -/
def mapFileSystem {α : Type} (code : Option Int → RemoteFsErrorCode) (p : RemoteFsM α) :
    RemoteFsM α :=
  p.catching fun
    | .fileSystem osCode => fail (code osCode)
    | e => .throw e

/-- A `PlatformException` becomes a failure. -/
def mapSaf {α : Type} (p : RemoteFsM α) : RemoteFsM α :=
  p.catching fun
    | .platform code => fail (mapSafException code)
    | e => .throw e

def entityType (path : String) : RemoteFsM FileSystemEntityType :=
  Program.await (FsOp.entityType path)

def resolveSymbolicLinks (path : String) : RemoteFsM String :=
  Program.await (FsOp.resolveSymbolicLinks path)

def respond (requestId : String) (reply : RemoteFsReply) : RemoteFsM Unit :=
  Program.await (FsOp.respond requestId reply)

/-! ## §6  Names and paths -/

/-- The parts of the platform and its libraries that a handler uses. -/
structure RemoteFsExternals where
  path : PathContext
  isWindows : Bool
  trim : String → String
  toUpperCase : String → String
  toLowerCase : String → String
  lookupMimeType : String → Option String
  iso8601 : Int → String

/-- `path.split('/')`. -/
def splitSlash (path : String) : List String :=
  (path.toList.splitOn '/').map String.ofList

def contains (s : String) (ch : Char) : Bool := s.toList.contains ch

def hasControlCharacter (value : String) : Bool :=
  value.toList.any fun ch => ch.toNat ≤ 0x1f || (0x7f ≤ ch.toNat && ch.toNat ≤ 0x9f)

def isAsciiLetter (ch : Char) : Bool :=
  ('A' ≤ ch && ch ≤ 'Z') || ('a' ≤ ch && ch ≤ 'z')

def isWindowsStyleAbsolute (path : String) : Bool :=
  match path.toList with
  | letter :: colon :: _ => isAsciiLetter letter && colon = ':'
  | _ => false

def validRelativePath (path : String) : Bool :=
  if path = "" then true
  else if path.utf8ByteSize > 4096 || path.toList.head? = some '/' ||
      path.toList.getLast? = some '/' || contains path '\\' || hasControlCharacter path ||
      isWindowsStyleAbsolute path then false
  else if (splitSlash path).any fun c => c = "" || c = "." || c = ".." then false
  else true

def validateRelativePath (path : String) : RemoteFsM Unit :=
  require (validRelativePath path) .invalidPath

def requireEntryPath (path : String) : RemoteFsM Unit := do
  validateRelativePath path
  require (path ≠ "") .invalidPath

def validFileName (name : String) : Bool :=
  name ≠ "" && name ≠ "." && name ≠ ".." && name.utf8ByteSize ≤ 1024 &&
    !contains name '/' && !contains name '\\' && !hasControlCharacter name

def validateFileName (name : String) : RemoteFsM Unit :=
  require (validFileName name) .invalidName

def childRemotePath (parent name : String) : String :=
  if parent = "" then name else parent ++ "/" ++ name

/-- Up to the last separator. -/
def parentRemotePath (path : String) : String :=
  if contains path '/' then
    .ofList ((path.toList.reverse.dropWhile (· ≠ '/')).drop 1).reverse
  else ""

/-- After the last separator. -/
def basenameRemotePath (path : String) : String :=
  .ofList (path.toList.reverse.takeWhile (· ≠ '/')).reverse

def safeMimeType (value : Option String) : Option String :=
  value.filter fun v => !(v.utf8ByteSize > 255 || hasControlCharacter v)

def isIdCharacter (ch : Char) : Bool :=
  isAsciiLetter ch || ('0' ≤ ch && ch ≤ '9') || ch = '.' || ch = '_' || ch = '~' || ch = '-'

def validPublicRoot (grant : RemoteFsGrant) : Bool :=
  1 ≤ grant.id.length && grant.id.length ≤ 128 && grant.id.toList.all isIdCharacter &&
    grant.displayName ≠ "" && grant.displayName.utf8ByteSize ≤ 256 &&
    !hasControlCharacter grant.displayName && grant.locator ≠ ""

end FireBoxTransfer

import FireBoxTransfer.RemoteFs.Handlers

/-!
# The storage access framework

What the platform does for the operations on document trees. A URI is accepted
if it belongs to a tree that the user shared and that is still granted; a path
is followed by the display names of the documents, and a document is never
found by its id.
-/

namespace FireBoxTransfer

/-! ## §1  URIs -/

/-- A content URI, as `DocumentsContract` reads it. -/
structure SafUri where
  authority : String
  treeId : Option String
  documentId : Option String
deriving DecidableEq

namespace SafUri

def getTreeDocumentId (uri : SafUri) : String := uri.treeId.getD ""

def getDocumentId (uri : SafUri) : String := uri.documentId.getD ""

def buildDocumentUriUsingTree (treeUri : SafUri) (documentId : String) : SafUri :=
  { treeUri with documentId := some documentId }

def sameTree (first second : SafUri) : Bool :=
  first.authority = second.authority && first.treeId.isSome && second.treeId.isSome &&
    first.getTreeDocumentId = second.getTreeDocumentId

end SafUri

/-! ## §2  The platform -/

/-- A row of a cursor. A provider may leave every column empty. -/
structure SafRow where
  documentId : Option String
  displayName : Option String
  mimeType : Option String
  size : Option ℕ
  lastModified : Option Int
  flags : Option ℕ
deriving DecidableEq

/-- The exceptions that a handler tells apart. -/
inductive NativeException where
  | operation (code : String)
  | security
  | unsupportedOperation
  | illegalArgument
  | other
deriving DecidableEq

abbrev Native (α : Type) : Type := Except NativeException α

structure SafPermission where
  uri : SafUri
  isReadPermission : Bool
  isWritePermission : Bool

/-- What the handlers use of Android: URIs (`parse` reads content URIs only),
the registered roots, the persisted permissions and the documents provider.
A query may come back without a cursor. -/
structure SafPlatform where
  parse : String → Option SafUri
  render : SafUri → String
  isBlank : String → Bool
  sharedRoots : List String
  persistedUriPermissions : List SafPermission
  checksAncestry : Bool
  isChildDocument : SafUri → SafUri → Native Bool
  query : SafUri → Native (Option (List SafRow))
  queryChildren : SafUri → Native (Option (List SafRow))

def ensure (c : Bool) (code : String) : Native Unit :=
  if c then .ok () else .error (.operation code)

def orThrow {α : Type} (code : String) : Option α → Native α
  | some a => .ok a
  | none => .error (.operation code)

/-- `Cursor.requiredString` -/
def requiredColumn : Option String → Native String := orThrow "INVALID_PROVIDER_RESPONSE"

section Handlers

variable (P : SafPlatform)

/-- `requiredString` of a call. -/
def requiredString (value : String) : Native String := do
  ensure (!P.isBlank value) "INVALID_ARGUMENT"
  pure value

def parseContentUri (value : String) : Native SafUri := orThrow "INVALID_ARGUMENT" (P.parse value)

/-! ## §3  Granted documents -/

def registeredSharedRootUris : List SafUri :=
  P.sharedRoots.filterMap fun stored => (P.parse stored).filter fun uri => uri.treeId.isSome

structure GrantedSafDocument where
  treeUri : SafUri
  rootDocumentId : String
  documentUri : SafUri
  canRead : Bool
  canWrite : Bool
deriving DecidableEq

/-- Since Android 10 the provider is asked for the ancestry of a document. -/
def checkAncestry (rootDocumentUri documentUri : SafUri) : Native Unit :=
  if documentUri.getDocumentId ≠ rootDocumentUri.getDocumentId && P.checksAncestry then
    match P.isChildDocument rootDocumentUri documentUri with
    | .ok isChild => ensure isChild "OUTSIDE_SHARED_ROOT"
    | .error _ => .error (.operation "ANCESTRY_CHECK_FAILED")
  else .ok ()

def requireGrantedDocument (uriString : String) (write : Bool) : Native GrantedSafDocument := do
  let requestedUri ← parseContentUri P uriString
  ensure requestedUri.treeId.isSome "UNREGISTERED_URI"
  let registeredTree ← orThrow "UNREGISTERED_URI"
    ((registeredSharedRootUris P).find? fun uri => uri.sameTree requestedUri)
  let permission ← orThrow "PERMISSION_REVOKED"
    (P.persistedUriPermissions.find? fun permission => permission.uri.sameTree registeredTree)
  ensure (!(write && !permission.isWritePermission)) "READ_ONLY_ROOT"
  ensure (!(!write && !permission.isReadPermission)) "PERMISSION_REVOKED"
  let rootDocumentId := registeredTree.getTreeDocumentId
  let requestedDocumentId := requestedUri.documentId.getD requestedUri.getTreeDocumentId
  let rootDocumentUri := registeredTree.buildDocumentUriUsingTree rootDocumentId
  let documentUri := registeredTree.buildDocumentUriUsingTree requestedDocumentId
  checkAncestry P rootDocumentUri documentUri
  pure {
    treeUri := registeredTree
    rootDocumentId := rootDocumentId
    documentUri := documentUri
    canRead := permission.isReadPermission
    canWrite := permission.isWritePermission }

/-! ## §4  Metadata -/

structure SafDocumentMetadataNative where
  uri : SafUri
  name : String
  mimeType : String
  size : Option ℕ
  lastModified : Option Int
  flags : ℕ
  isDirectory : Bool

def SafDocumentMetadataNative.supports (metadata : SafDocumentMetadataNative) (flag : ℕ) : Bool :=
  metadata.flags &&& flag ≠ 0

/-- A document without a display name is shown under its id. -/
def metadataFromCursor (row : SafRow) (uri : SafUri) : SafDocumentMetadataNative :=
  let mimeType := row.mimeType.getD "application/octet-stream"
  { uri := uri
    name := row.displayName.getD uri.getDocumentId
    mimeType := mimeType
    size := row.size
    lastModified := row.lastModified
    flags := row.flags.getD 0
    isDirectory := mimeType = "vnd.android.document/directory" }

def queryDocumentMetadata (document : GrantedSafDocument) : Native SafDocumentMetadataNative := do
  let cursor ← P.query document.documentUri
  let rows ← orThrow "QUERY_FAILED" cursor
  let row ← orThrow "NOT_FOUND" rows.head?
  pure (metadataFromCursor row document.documentUri)

/-- The flags are `FLAG_SUPPORTS_WRITE`, `FLAG_DIR_SUPPORTS_CREATE`,
`FLAG_SUPPORTS_RENAME`, `FLAG_SUPPORTS_MOVE` and `FLAG_SUPPORTS_DELETE`. -/
def documentMetadataMap (metadata : SafDocumentMetadataNative) (grant : GrantedSafDocument) :
    SafDocument where
  uri := P.render metadata.uri
  name := metadata.name
  mimeType := metadata.mimeType
  size := metadata.size
  lastModified := metadata.lastModified
  isDirectory := metadata.isDirectory
  canRead := grant.canRead
  canWrite := grant.canWrite && !metadata.isDirectory && metadata.supports 2
  canCreate := grant.canWrite && metadata.isDirectory && metadata.supports 8
  canRename := grant.canWrite && metadata.supports 64
  canMove := grant.canWrite && metadata.supports 256
  canDelete := grant.canWrite && metadata.supports 4

/-! ## §5  Listing and resolving -/

/-- The code of an exception, as it reaches the isolate. -/
def handleSafResult {α : Type} (defaultCode : String) : Native α → Except RemoteFsError α
  | .ok a => .ok a
  | .error (.operation code) => .error (.platform code)
  | .error .security => .error (.platform "PERMISSION_DENIED")
  | .error .unsupportedOperation => .error (.platform "UNSUPPORTED_OPERATION")
  | .error .illegalArgument => .error (.platform "INVALID_ARGUMENT")
  | .error .other => .error (.platform defaultCode)

/-- The rows of the children of a document, which must be a directory. -/
def childRows (directory : GrantedSafDocument) : Native (List SafRow) := do
  let metadata ← queryDocumentMetadata P directory
  ensure metadata.isDirectory "NOT_A_DIRECTORY"
  let cursor ← P.queryChildren directory.documentUri
  orThrow "QUERY_FAILED" cursor

/-- A document of a listing, with the rights of the directory's grant. -/
def listedDocument (directory : GrantedSafDocument) (row : SafRow) : Native SafDocument := do
  let documentId ← requiredColumn row.documentId
  let childUri := directory.treeUri.buildDocumentUriUsingTree documentId
  pure (documentMetadataMap P (metadataFromCursor row childUri) directory)

def handleSafListDirectory (directoryUri : String) : Except RemoteFsError (List SafDocument) :=
  handleSafResult "LIST_FAILED" do
    let uri ← requiredString P directoryUri
    let directory ← requireGrantedDocument P uri false
    let rows ← childRows P directory
    rows.mapM (listedDocument P directory)

/-- The ids of the documents that have the name. Every row that is looked at
must have one. -/
def matchingIds (segment : String) : List SafRow → Native (List String)
  | [] => .ok []
  | row :: rows => do
      let name ← requiredColumn row.displayName
      if name = segment then do
        let id ← requiredColumn row.documentId
        let ids ← matchingIds segment rows
        pure (id :: ids)
      else matchingIds segment rows

def resolveSegment (current : GrantedSafDocument) (segment : String) :
    Native GrantedSafDocument := do
  let rows ← childRows P current
  let ids ← matchingIds segment rows
  match ids with
  | [] => .error (.operation "NOT_FOUND")
  | [id] => requireGrantedDocument P (P.render (current.treeUri.buildDocumentUriUsingTree id)) false
  | _ => .error (.operation "AMBIGUOUS_PATH")

/-- The names in a path, with either separator. -/
def safSegments (relativePath : String) : List String :=
  (((relativePath.toList.map fun ch => if ch = '\\' then '/' else ch).splitOn '/').filter
    (· ≠ [])).map String.ofList

def forbiddenSegment (segment : String) : Bool :=
  segment = "." || segment = ".." || segment.toList.contains '\x00'

def handleSafResolvePath (rootUri relativePath : String) : Except RemoteFsError SafDocument :=
  handleSafResult "RESOLVE_FAILED" do
    let uri ← requiredString P rootUri
    let root ← requireGrantedDocument P uri false
    ensure (root.documentUri.getDocumentId = root.rootDocumentId) "INVALID_ROOT"
    ensure ((codeUnits relativePath).length ≤ 4096) "INVALID_PATH"
    ensure (!(relativePath.toList.head? = some '/' || relativePath.toList.head? = some '\\'))
      "INVALID_PATH"
    let segments := safSegments relativePath
    ensure (!(segments.length > 256 || segments.any forbiddenSegment)) "INVALID_PATH"
    let current ← segments.foldlM (resolveSegment P) root
    let metadata ← queryDocumentMetadata P current
    pure (documentMetadataMap P metadata current)

end Handlers

end FireBoxTransfer

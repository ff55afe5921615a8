import FireBoxTransfer.RemoteFs.Access

/-!
# The provider of local directories

A path of a request is joined to the root as it was chosen, and the entry it
names is resolved through all links; both must lie inside the root, which is
resolved itself for the second comparison.
-/

namespace FireBoxTransfer

/-! ## §1  Native paths -/

/-- The spelling in which native paths are compared. -/
def RemoteFsExternals.fold (X : RemoteFsExternals) (path : String) : String :=
  if X.isWindows then X.toLowerCase path else path

def sameLocalPath (X : RemoteFsExternals) (first second : String) : Bool :=
  X.path.equals (X.fold first) (X.fold second)

def isWithinLocalPath (X : RemoteFsExternals) (parent child : String) : Bool :=
  X.path.isWithin (X.fold parent) (X.fold child)

/-- The root as it was chosen, in normal form. -/
def localRoot (X : RemoteFsExternals) (grant : RemoteFsGrant) : String :=
  X.path.normalize (X.path.absolute grant.locator)

/-! ## §2  Resolving -/

def resolveLocalRoot (X : RemoteFsExternals) (grant : RemoteFsGrant) : RemoteFsM String := do
  let root := localRoot X grant
  let type ← entityType root
  require (type ≠ .link) .permissionDenied
  require (type = .directory) .rootNotFound
  let resolved ← mapFileSystem (fun _ => .rootNotFound) (resolveSymbolicLinks root)
  pure (X.path.normalize resolved)

def lexicalLocalPath (X : RemoteFsExternals) (grant : RemoteFsGrant) (relativePath : String) :
    RemoteFsM String := do
  validateRelativePath relativePath
  let root := localRoot X grant
  let candidate :=
    if relativePath = "" then root
    else X.path.normalize (X.path.joinAll (root :: splitSlash relativePath))
  require (sameLocalPath X root candidate || isWithinLocalPath X root candidate) .invalidPath
  pure candidate

structure ResolvedLocalPath where
  path : String
  type : FileSystemEntityType
deriving DecidableEq

def resolveExistingLocal (X : RemoteFsExternals) (grant : RemoteFsGrant)
    (relativePath : String) : RemoteFsM ResolvedLocalPath := do
  let root ← resolveLocalRoot X grant
  let candidate ← lexicalLocalPath X grant relativePath
  let type ← entityType candidate
  require (type ≠ .link) .permissionDenied
  require (type ≠ .notFound) .notFound
  require (type = .file || type = .directory) .unsupported
  let links ← mapFileSystem (fun _ => .notFound) (resolveSymbolicLinks candidate)
  let resolved := X.path.normalize links
  require (sameLocalPath X root resolved || isWithinLocalPath X root resolved) .permissionDenied
  pure ⟨candidate, type⟩

def resolveNewLocalChild (X : RemoteFsExternals) (grant : RemoteFsGrant)
    (parentPath name : String) : RemoteFsM String := do
  validateFileName name
  let parent ← resolveExistingLocal X grant parentPath
  require (parent.type = .directory) .notDirectory
  let candidate := X.path.normalize (X.path.joinAll [parent.path, name])
  let root ← resolveLocalRoot X grant
  require (sameLocalPath X root candidate || isWithinLocalPath X root candidate) .invalidPath
  let type ← entityType candidate
  require (type ≠ .link) .permissionDenied
  pure candidate

/-! ## §3  Entries and listings -/

def localEntry (X : RemoteFsExternals) (localPath relativePath : String)
    (type : FileSystemEntityType) (grant : RemoteFsGrant) : RemoteFsM RemoteFsEntry := do
  let stat ← Program.await (FsOp.stat localPath)
  require (stat.type ≠ .notFound) .notFound
  require (stat.type = type) .conflict
  let isFile := type = .file
  pure {
    name := basenameRemotePath relativePath
    path := relativePath
    entryType := if isFile then .file else .directory
    size := if isFile then some stat.size else none
    modified := some (X.iso8601 stat.modified)
    mimeType := if isFile then safeMimeType (X.lookupMimeType localPath) else none
    capabilities := localEntryCapabilities grant type }

/-- The entry of a path once it is resolved. -/
def resolvedEntry (X : RemoteFsExternals) (grant : RemoteFsGrant) (relativePath : String) :
    RemoteFsM RemoteFsEntry := do
  let resolved ← resolveExistingLocal X grant relativePath
  localEntry X resolved.path relativePath resolved.type grant

def localEntryForPath (X : RemoteFsExternals) (grant : RemoteFsGrant)
    (relativePath : String) : RemoteFsM RemoteFsEntry :=
  resolvedEntry X grant relativePath

/-- One entity of a listing. Links, entries that leave the root and entries
that disappear are left out. -/
def listLocalEntity (X : RemoteFsExternals) (grant : RemoteFsGrant) (relativePath : String)
    (entries : List RemoteFsEntry) (entityPath : String) : RemoteFsM (List RemoteFsEntry) := do
  let type ← entityType entityPath
  let name := X.path.basename entityPath
  let childPath := childRemotePath relativePath name
  if (type ≠ .file && type ≠ .directory) || !validFileName name ||
      !validRelativePath childPath then pure entries
  else
    Program.catching (do
      let entry ← resolvedEntry X grant childPath
      pure (entries ++ [entry])) fun
      | .failure .permissionDenied | .failure .notFound => pure entries
      | e => .throw e

def listLocalDirectory (X : RemoteFsExternals) (grant : RemoteFsGrant)
    (relativePath : String) : RemoteFsM (List RemoteFsEntry) := do
  let resolved ← resolveExistingLocal X grant relativePath
  require (resolved.type = .directory) .notDirectory
  mapFileSystem mapFileSystemException do
    let entities ← Program.await (FsOp.listDirectory resolved.path)
    Program.foldl (listLocalEntity X grant relativePath) [] entities

/-! ## §4  Changes -/

section Changes

variable (X : RemoteFsExternals) (peer : RemoteFsPeer) (grant : RemoteFsGrant)

def createLocalDirectory (parentPath name childPath : String) : RemoteFsM RemoteFsEntry := do
  let target ← resolveNewLocalChild X grant parentPath name
  let type ← entityType target
  require (type = .notFound) .alreadyExists
  ensureGrantCurrent X peer grant .createDirectory
  mapFileSystem mapFileSystemException (Program.await (FsOp.create target))
  resolvedEntry X grant childPath

def renameLocalEntry (sourcePath newName renamedPath : String) : RemoteFsM RemoteFsEntry := do
  let source ← resolveExistingLocal X grant sourcePath
  let destination ← resolveNewLocalChild X grant (parentRemotePath sourcePath) newName
  let type ← entityType destination
  require (type = .notFound) .alreadyExists
  ensureGrantCurrent X peer grant .rename
  mapFileSystem mapFileSystemException (Program.await (FsOp.rename source.path destination))
  resolvedEntry X grant renamedPath

def moveLocalEntry (sourceGrant destinationGrant : RemoteFsGrant)
    (sourcePath destinationParentPath newName destinationPath : String) (overwrite : Bool) :
    RemoteFsM RemoteFsEntry := do
  let source ← resolveExistingLocal X sourceGrant sourcePath
  let destination ← resolveNewLocalChild X destinationGrant destinationParentPath newName
  require (!(source.type = .directory && isWithinLocalPath X source.path destination)) .conflict
  let destinationType ← entityType destination
  -- an existing destination is never replaced
  require (destinationType = .notFound) (if overwrite then .unsupported else .alreadyExists)
  ensureGrantCurrent X peer sourceGrant .move
  ensureGrantCurrent X peer destinationGrant .write
  mapFileSystem mapFileSystemException (Program.await (FsOp.rename source.path destination))
  resolvedEntry X destinationGrant destinationPath

/-- A directory that is not to be deleted with its content must be empty. -/
def requireEmpty (source : ResolvedLocalPath) (recursive : Bool) : RemoteFsM Unit :=
  if source.type = .directory && !recursive then do
    let entities ← Program.await (FsOp.listDirectory source.path)
    require entities.isEmpty .directoryNotEmpty
  else pure ()

def deleteLocalEntry (path : String) (recursive : Bool) : RemoteFsM Unit := do
  let source ← resolveExistingLocal X grant path
  requireEmpty source recursive
  ensureGrantCurrent X peer grant .delete
  mapFileSystem mapFileSystemException
    (Program.await (FsOp.delete source.path (source.type = .directory && recursive)))

def prepareLocalWriteTarget (relativePath : String) (overwrite : Bool) : RemoteFsM String := do
  let name := basenameRemotePath relativePath
  validateFileName name
  let target ← resolveNewLocalChild X grant (parentRemotePath relativePath) name
  let type ← entityType target
  require (type ≠ .link) .permissionDenied
  require (type ≠ .directory) .isDirectory
  require (type = .notFound || type = .file) .conflict
  require (!(type = .file && !overwrite)) .alreadyExists
  pure target

end Changes

end FireBoxTransfer

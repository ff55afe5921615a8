import FireBoxTransfer.RemoteFs.Access

/-!
# The provider of Android document trees

Documents are opaque handles below a persisted tree; the platform resolves a
relative path to one and refuses handles outside registered trees.
-/

namespace FireBoxTransfer

/-! ## §1  Documents and listings -/

def resolveSafDocument (grant : RemoteFsGrant) (relativePath : String) :
    RemoteFsM SafDocument := do
  validateRelativePath relativePath
  mapSaf (Program.await (FsOp.resolveSafRelativePath grant.locator relativePath))

def safEntry (X : RemoteFsExternals) (document : SafDocument) (relativePath : String)
    (grant : RemoteFsGrant) : RemoteFsEntry where
  name := basenameRemotePath relativePath
  path := relativePath
  entryType := if document.isDirectory then .directory else .file
  size := if document.isDirectory then none else document.size
  modified := (document.lastModified.filter (· ≠ 0)).map X.iso8601
  mimeType := if document.isDirectory then none else safeMimeType (some document.mimeType)
  capabilities := safEntryCapabilities document grant

def safEntryForPath (X : RemoteFsExternals) (grant : RemoteFsGrant) (relativePath : String) :
    RemoteFsM RemoteFsEntry := do
  let document ← resolveSafDocument grant relativePath
  pure (safEntry X document relativePath grant)

def listSafDirectory (X : RemoteFsExternals) (grant : RemoteFsGrant) (relativePath : String) :
    RemoteFsM (List RemoteFsEntry) := do
  let directory ← resolveSafDocument grant relativePath
  require directory.isDirectory .notDirectory
  mapSaf do
    let documents ← Program.await (FsOp.listSafDirectory directory.uri)
    let listed := documents.filter fun document =>
      validFileName document.name && validRelativePath (childRemotePath relativePath document.name)
    pure (listed.map fun document =>
      safEntry X document (childRemotePath relativePath document.name) grant)

def findSafChild (parentUri name : String) : RemoteFsM (Option SafDocument) :=
  mapSaf do
    let documents ← Program.await (FsOp.listSafDirectory parentUri)
    let matching := documents.filter fun entry => entry.name = name
    require (matching.length ≤ 1) .conflict
    pure matching.head?

def safChildExists (parentUri name : String) : RemoteFsM Bool := do
  let child ← findSafChild parentUri name
  pure child.isSome

/-! ## §2  Changes -/

section Changes

variable (X : RemoteFsExternals) (peer : RemoteFsPeer) (grant : RemoteFsGrant)

def createSafDirectory (parentPath name childPath : String) : RemoteFsM RemoteFsEntry := do
  let parent ← resolveSafDocument grant parentPath
  require parent.isDirectory .notDirectory
  let taken ← safChildExists parent.uri name
  require (!taken) .alreadyExists
  ensureGrantCurrent X peer grant .createDirectory
  mapSaf do
    let created ← Program.await (FsOp.createSafDirectory parent.uri name)
    pure (safEntry X created childPath grant)

def renameSafEntry (sourcePath newName renamedPath : String) : RemoteFsM RemoteFsEntry := do
  let source ← resolveSafDocument grant sourcePath
  let parent ← resolveSafDocument grant (parentRemotePath sourcePath)
  let taken ← safChildExists parent.uri newName
  require (!taken) .alreadyExists
  ensureGrantCurrent X peer grant .rename
  mapSaf do
    let renamed ← Program.await (FsOp.renameSafDocument source.uri newName)
    pure (safEntry X renamed renamedPath grant)

/-- Another document under the name that the moved one shall have. -/
def requireFree (source : SafDocument) (overwrite : Bool) (existing : Option SafDocument) :
    RemoteFsM Unit :=
  require (!(existing.any fun e => e.uri ≠ source.uri))
    (if overwrite then .unsupported else .alreadyExists)

/-- Another document under the name that the moved one has before it is
renamed. -/
def requireNoCollision (source : SafDocument) (parentUri newName : String) : RemoteFsM Unit :=
  if source.name ≠ newName then do
    let collision ← findSafChild parentUri source.name
    require (!(collision.any fun e => e.uri ≠ source.uri)) .conflict
  else pure ()

/-- Rename the moved document; if that fails, try to move it back. -/
def renameMoved (moved : SafDocument) (newName sourceParentUri destinationParentUri : String) :
    RemoteFsM SafDocument :=
  if moved.name = newName then pure moved
  else
    Program.catching (Program.await (FsOp.renameSafDocument moved.uri newName)) fun e =>
      if sourceParentUri ≠ destinationParentUri then do
        let back := Program.await
          (FsOp.moveSafDocument moved.uri destinationParentUri sourceParentUri)
        Program.catching (do
          let _ ← back
          pure ()) fun _ => pure ()
        .throw e
      else .throw e

def moveSafEntry (sourceGrant destinationGrant : RemoteFsGrant)
    (sourcePath destinationParentPath newName destinationPath : String) (overwrite : Bool) :
    RemoteFsM RemoteFsEntry := do
  require (sourceGrant.id = destinationGrant.id &&
    sourceGrant.locator = destinationGrant.locator) .unsupported
  let source ← resolveSafDocument sourceGrant sourcePath
  let sourceParent ← resolveSafDocument sourceGrant (parentRemotePath sourcePath)
  let destinationParent ← resolveSafDocument destinationGrant destinationParentPath
  let existing ← findSafChild destinationParent.uri newName
  requireFree source overwrite existing
  requireNoCollision source destinationParent.uri newName
  ensureGrantCurrent X peer sourceGrant .move
  mapSaf do
    let moved ← Program.await
      (FsOp.moveSafDocument source.uri sourceParent.uri destinationParent.uri)
    let moved ← renameMoved moved newName sourceParent.uri destinationParent.uri
    pure (safEntry X moved destinationPath destinationGrant)

/-- A directory that is not to be deleted with its content must be empty. -/
def requireEmptySaf (target : SafDocument) (recursive : Bool) : RemoteFsM Unit :=
  if target.isDirectory && !recursive then
    mapSaf do
      let documents ← Program.await (FsOp.listSafDirectory target.uri)
      require documents.isEmpty .directoryNotEmpty
  else pure ()

def deleteSafEntry (path : String) (recursive : Bool) : RemoteFsM Unit := do
  let target ← resolveSafDocument grant path
  requireEmptySaf target recursive
  ensureGrantCurrent X peer grant .delete
  mapSaf (Program.await (FsOp.deleteSafDocument target.uri))

def prepareSafWriteTarget (relativePath : String) (overwrite : Bool) : RemoteFsM ℕ := do
  let name := basenameRemotePath relativePath
  validateFileName name
  let parent ← resolveSafDocument grant (parentRemotePath relativePath)
  require parent.isDirectory .notDirectory
  let existing ← findSafChild parent.uri name
  ensureGrantCurrent X peer grant .write
  match existing with
  | some existing => do
      require (!existing.isDirectory) .isDirectory
      require overwrite .alreadyExists
      Program.await (FsOp.openSafDocumentForWriting existing.uri true)
  | none =>
      mapSaf (Program.await (FsOp.createSafFile parent.uri name
        ((X.lookupMimeType name).getD "application/octet-stream")))

end Changes

end FireBoxTransfer

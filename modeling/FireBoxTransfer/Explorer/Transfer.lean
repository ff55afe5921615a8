import FireBoxTransfer.Framework.Program
import FireBoxTransfer.Explorer.Model

/-!
# Transfers between panels

The service behind the two panels of the explorer. Within one root of one
client it asks that client to move or copy; otherwise it copies entry after
entry, directories from the top down, and for a move deletes the sources once
all copies are made.
-/

namespace FireBoxTransfer

/-! ## §1  Clients -/

/-- Which client object stands behind a panel. -/
abbrev ClientId : Type := String

/-- The stream that `openRead` of a client gives. It is read while it is
written. -/
structure ReadStream where
  client : ClientId
  root : ExplorerRoot
  entry : ExplorerFileEntry
deriving DecidableEq

/-- The calls that the service waits for, and those that a client makes of its own methods
for a copy. -/
inductive ClientOp where
  | getMetadata (client : ClientId) (root : ExplorerRoot) (path : String)
  | listDirectory (client : ClientId) (root : ExplorerRoot) (path : String)
  | createDirectory (client : ClientId) (root : ExplorerRoot) (parentPath name : String)
  | move (client : ClientId) (root : ExplorerRoot) (entry : ExplorerFileEntry)
      (destinationPath : String)
  | copy (client : ClientId) (root : ExplorerRoot) (entry : ExplorerFileEntry)
      (destinationPath : String)
  | delete (client : ClientId) (root : ExplorerRoot) (entry : ExplorerFileEntry)
  | writeFile (client : ClientId) (root : ExplorerRoot) (destinationPath fileName : String)
      (content : ReadStream) (lengthBytes : Option ℕ)
deriving DecidableEq

@[reducible] def ClientOp.Answer : ClientOp → Type
  | .listDirectory _ _ _ => ExplorerDirectoryListing
  | .getMetadata _ _ _ | .createDirectory _ _ _ _ | .move _ _ _ _ | .copy _ _ _ _ =>
      ExplorerFileEntry
  | .delete _ _ _ | .writeFile _ _ _ _ _ _ => Unit

/-- The call for a copy within one root. -/
def ClientOp.isCopy : ClientOp → Bool
  | .copy _ _ _ _ => true
  | _ => false

/-- The exceptions of a client, those of the file system below it, and a
recursion that is not given enough fuel. -/
inductive ExplorerFailure where
  | exception (error : RemoteFileSystemException)
  | fileSystem
  | outOfFuel
deriving DecidableEq

abbrev ExplorerM : Type → Type := Program Unit ExplorerFailure ClientOp ClientOp.Answer

/-! ## §2  Copies -/

namespace ExplorerTransferService

/-- One side of a transfer. -/
structure Side where
  client : ClientId
  root : ExplorerRoot
deriving DecidableEq

section Copy

variable (source target : Side)

/-- `_copyEntry`, for at most `fuel` levels of directories. -/
def copyEntry : ℕ → ExplorerFileEntry → String → ExplorerM Unit
  | 0, _, _ => .throw .outOfFuel
  | fuel + 1, sourceEntry, targetDirectoryPath =>
      if !sourceEntry.isDirectory then
        Program.await (ClientOp.writeFile target.client target.root targetDirectoryPath
          sourceEntry.name ⟨source.client, source.root, sourceEntry⟩ sourceEntry.sizeBytes)
      else do
        let created ← Program.await
          (ClientOp.createDirectory target.client target.root targetDirectoryPath sourceEntry.name)
        let sourceListing ← Program.await
          (ClientOp.listDirectory source.client source.root sourceEntry.path)
        Program.foldl (fun _ child => copyEntry fuel child created.path) ()
          sourceListing.entries

end Copy

/-! ## §3  Transfers -/

section Execute

variable (resolveClient : String → ClientId) (fuel : ℕ) (request : ExplorerTransferRequest)

/-- The side of the source panel. -/
def sourceSide : Side := ⟨resolveClient request.sourcePanelId, request.sourceRoot⟩

/-- The side of the target panel. -/
def targetSide : Side := ⟨resolveClient request.targetPanelId, request.targetRoot⟩

/-- Both panels show the same root of the same client. -/
def sameSide : Bool :=
  (sourceSide resolveClient request).client = (targetSide resolveClient request).client &&
    request.sourceRoot.id = request.targetRoot.id

/-- What is asked of the client for an entry within one root. -/
def transferWithin (entry : ExplorerFileEntry) : ExplorerM Unit := do
  let source := sourceSide resolveClient request
  match request.operation with
  | .move => do
      let _ ← Program.await
        (ClientOp.move source.client source.root entry request.targetDirectory.path)
      pure ()
  | .copy => do
      let _ ← Program.await
        (ClientOp.copy source.client source.root entry request.targetDirectory.path)
      pure ()

/-- Copies first; the sources are deleted only after every one is made. -/
def transferAcross : ExplorerM Unit := do
  let source := sourceSide resolveClient request
  let target := targetSide resolveClient request
  Program.foldl (fun _ entry =>
    copyEntry source target fuel entry request.targetDirectory.path) () request.entries
  match request.operation with
  | .move => Program.foldl (fun _ entry =>
      Program.await (ClientOp.delete source.client source.root entry)) () request.entries
  | .copy => pure ()

def execute : ExplorerM Unit :=
  if sameSide resolveClient request then
    Program.foldl (fun _ entry => transferWithin resolveClient request entry) () request.entries
  else transferAcross resolveClient fuel request

end Execute

end ExplorerTransferService

end FireBoxTransfer

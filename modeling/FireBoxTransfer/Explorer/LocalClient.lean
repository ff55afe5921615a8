import FireBoxTransfer.Framework.PathContext
import FireBoxTransfer.RemoteFs.Model
import FireBoxTransfer.Explorer.Transfer

/-!
# The client of the local file system

The client behind the local panel. Every path is first brought below its root,
and what stands there must not be a link. A destination is not asked for: what
the file system does with one that exists, the client does.
-/

namespace FireBoxTransfer

/-! ## §1  The file system -/

structure IoStat where
  size : ℕ
  modified : Int
deriving DecidableEq

/-- What a stream delivered before it ended, and whether it ended in an
error. -/
structure IoBytes where
  bytes : List UInt8
  failed : Bool
deriving DecidableEq

/-- The calls of `dart:io` that the client waits for. -/
inductive IoOp where
  | type (path : String)
  | directoryExists (path : String)
  | resolveSymbolicLinks (path : String)
  | list (path : String)
  | create (path : String)
  | renameDirectory (path destination : String)
  | renameFile (path destination : String)
  | copyFile (path destination : String)
  | deleteDirectory (path : String)
  | deleteFile (path : String)
  | stat (path : String)
  | length (path : String)
  | openRead (path : String)
  | openWrite (path : String)
  | addStream (path : String) (bytes : List UInt8)
  | close (path : String)
deriving DecidableEq

@[reducible] def IoOp.Answer : IoOp → Type
  | .type _ => FileSystemEntityType
  | .directoryExists _ => Bool
  | .resolveSymbolicLinks _ => String
  | .list _ => List String
  | .stat _ => IoStat
  | .length _ => ℕ
  | .openRead _ => IoBytes
  | .create _ | .renameDirectory _ _ | .renameFile _ _ | .copyFile _ _ | .deleteDirectory _
  | .deleteFile _ | .openWrite _ | .addStream _ _ | .close _ => Unit

abbrev LocalM : Type → Type := Program Unit ExplorerFailure IoOp IoOp.Answer

/-- The parts of the platform and its libraries that the client uses. -/
structure ExplorerExternals where
  path : PathContext
  isWindows : Bool
  toLowerCase : String → String

namespace LocalClient

/-! ## §2  Checks -/

def failWith {α : Type} (code message : String) : LocalM α :=
  .throw (.exception (explorerError code message))

/-- Go on if the condition holds. -/
def check (c : Bool) (code message : String) : LocalM Unit :=
  if c then pure () else failWith code message

def require (allowed : Bool) (message : String) : LocalM Unit :=
  check allowed "permission_denied" message

variable (X : ExplorerExternals)

def validName (name : String) : Bool :=
  !(name = "" || name = "." || name = ".." || X.path.basename name ≠ name || contains name '/' ||
    contains name '\\')

def validateName (name : String) : LocalM Unit :=
  check (validName X name) "invalid_name" "Invalid file name"

/-! ## §3  Paths -/

/-- The spelling in which paths are compared. -/
def fold (path : String) : String := if X.isWindows then X.toLowerCase path else path

def samePath (first second : String) : Bool := X.path.equals (fold X first) (fold X second)

def isWithin (parent child : String) : Bool := X.path.isWithin (fold X parent) (fold X child)

def join (parent name : String) : String := X.path.joinAll [parent, name]

/-- A path in normal form. -/
def normal (path : String) : String := X.path.normalize (X.path.absolute path)

/-- The names are compared as they are when the path lies inside. -/
def insideRoot (rootPath path : String) : Bool :=
  samePath X rootPath path || X.path.isWithin rootPath path

def resolveLexically (root : ExplorerRoot) (candidate : String) : LocalM String := do
  let normalized := normal X candidate
  check (insideRoot X (normal X root.initialPath) normalized) "outside_root"
    "The requested path is outside the authorized root"
  pure normalized

def existingPath (root : ExplorerRoot) (candidate : String) : LocalM String := do
  let lexical ← resolveLexically X root candidate
  Program.catching (do
    let resolvedRoot ← Program.await (IoOp.resolveSymbolicLinks root.initialPath)
    let type ← Program.await (IoOp.type lexical)
    check (type ≠ .link) "symbolic_link" "Symbolic links are not exposed"
    let resolved ← Program.await (IoOp.resolveSymbolicLinks lexical)
    check (insideRoot X resolvedRoot resolved) "outside_root"
      "The requested path resolves outside the authorized root"
    pure lexical) fun
    | .fileSystem => failWith "not_found" "The requested file or directory was not found"
    | e => .throw e

def rejectSymbolicLink (path : String) : LocalM Unit := do
  let type ← Program.await (IoOp.type path)
  check (type ≠ .link) "symbolic_link" "Symbolic links are not exposed."

def rejectRootMutation (root : ExplorerRoot) (path : String) : LocalM Unit :=
  check (!samePath X (normal X root.initialPath) (normal X path)) "root_mutation"
    "The authorized root cannot be modified."

/-- A folder must not end up in itself. -/
def rejectNested (type : FileSystemEntityType) (source destination message : String) :
    LocalM Unit :=
  check (!(type = .directory && (samePath X source destination || isWithin X source destination)))
    "invalid_destination" message

/-! ## §4  Entries -/

def entry (path : String) (type : FileSystemEntityType) : LocalM ExplorerFileEntry := do
  let stat ← Program.await (IoOp.stat path)
  pure {
    id := path
    name := X.path.basename path
    path := path
    kind := if type = .directory then .directory else .file
    sizeBytes := if type = .directory then none else some stat.size
    modifiedAt := some stat.modified
    mimeType := none
    capabilities := none }

/-- The entry of what stands at a path now. -/
def entryNow (path : String) : LocalM ExplorerFileEntry := do
  let type ← Program.await (IoOp.type path)
  entry X path type

/-! ## §5  Streams -/

section Changes

variable (root : ExplorerRoot)

/-- What comes of a stream: the bytes it delivered, and its exception. -/
structure Delivered where
  bytes : List UInt8
  failure : Option ExplorerFailure
deriving DecidableEq

/-- `addStream`, with the stream `content`. -/
def addStream (target : String) (content : LocalM Delivered) : LocalM Unit := do
  let delivered ← content
  Program.await (IoOp.addStream target delivered.bytes)
  match delivered.failure with
  | some e => .throw e
  | none => pure ()

/-- Opening the target truncates it; only then is `content` listened to. -/
def writeFile (destinationPath fileName : String) (content : LocalM Delivered)
    (lengthBytes : Option ℕ) : LocalM Unit := do
  validateName X fileName
  require root.capabilities.write "Writing is not allowed"
  let directory ← existingPath X root destinationPath
  let target ← resolveLexically X root (join X directory fileName)
  rejectSymbolicLink target
  Program.await (IoOp.openWrite target)
  Program.catching (addStream target content) fun e => do
    Program.await (IoOp.close target)
    .throw e
  Program.await (IoOp.close target)
  match lengthBytes with
  | none => pure ()
  | some expected => do
      let length ← Program.await (IoOp.length target)
      if length = expected then pure ()
      else .throw (.exception
        ⟨"length_mismatch", "The written file has an unexpected size", true⟩)

/-! ## §6  Copies -/

/-- `_copyEntity`, for at most `fuel` levels of directories. -/
def copyEntity : ℕ → String → String → LocalM Unit
  | 0, _, _ => .throw .outOfFuel
  | fuel + 1, source, destination => do
      rejectSymbolicLink destination
      let type ← Program.await (IoOp.type source)
      if type = .file then Program.await (IoOp.copyFile source destination)
      else do
        check (type = .directory) "unsupported_entry" "This filesystem entry cannot be copied"
        Program.await (IoOp.create destination)
        let children ← Program.await (IoOp.list source)
        Program.foldl (fun _ child => do
          let type ← Program.await (IoOp.type child)
          if type = .link then pure ()
          else copyEntity fuel child (join X destination (X.path.basename child))) () children

def copy (fuel : ℕ) (copied : ExplorerFileEntry) (destinationPath : String) :
    LocalM ExplorerFileEntry := do
  require root.capabilities.write "Copying is not allowed"
  let source ← existingPath X root copied.path
  rejectRootMutation X root source
  let destinationDirectory ← existingPath X root destinationPath
  let destination ← resolveLexically X root (join X destinationDirectory copied.name)
  let sourceType ← Program.await (IoOp.type source)
  rejectNested X sourceType source destination "A folder cannot be copied into itself."
  rejectSymbolicLink destination
  copyEntity X fuel source destination
  entryNow X destination

end Changes

end LocalClient

end FireBoxTransfer

import FireBoxTransfer.RemoteFs.Local
import FireBoxTransfer.RemoteFs.Saf
import FireBoxTransfer.Framework.TaskPool

/-!
# The handlers of remote file requests

One handler for each kind of request, and the isolate that runs them: every
event starts a handler, a handler runs without interruption from one await to
the next, and the access snapshot may be replaced in between.
-/

namespace FireBoxTransfer

/-! ## §1  Listings -/

/-- The code units by which strings are compared. -/
def codeUnits (s : String) : List ℕ :=
  s.toList.flatMap fun ch =>
    let n := ch.toNat
    if n < 0x10000 then [n]
    else [0xd800 + (n - 0x10000) / 0x400, 0xdc00 + (n - 0x10000) % 0x400]

def compareTo (a b : String) : Ordering := compare (codeUnits a) (codeUnits b)

/-- Directories first, then by name without letter case, then by name. -/
def compareRemoteFsEntries (X : RemoteFsExternals) (first second : RemoteFsEntry) : Ordering :=
  if first.entryType ≠ second.entryType && first.entryType = .directory then .lt
  else if first.entryType ≠ second.entryType && second.entryType = .directory then .gt
  else (compareTo (X.toLowerCase first.name) (X.toLowerCase second.name)).then
    (compareTo first.name second.name)

/-- `v1:` and up to ten digits. -/
def decodeListCursor : Option String → RemoteFsM ℕ
  | none => pure 0
  | some cursor =>
      match cursor.toList with
      | 'v' :: '1' :: ':' :: digits =>
          if 1 ≤ digits.length && digits.length ≤ 10 && digits.all Char.isDigit then
            pure (digits.foldl (fun n ch => 10 * n + (ch.toNat - '0'.toNat)) 0)
          else fail .invalidRequest
      | _ => fail .invalidRequest

/-- A shared root as it is announced, unless its provider is unavailable. -/
def availableRemoteFsRoot (X : RemoteFsExternals) (grant : RemoteFsGrant) :
    RemoteFsM (Option RemoteFsRoot) :=
  Program.catching (match grant.kind with
    | .localPath => do
        let _ ← resolveLocalRoot X grant
        pure (some ⟨grant.id, grant.displayName, rootCapabilities grant⟩)
    | .androidSaf => do
        let roots ← Program.await FsOp.listSharedRoots
        match roots.find? fun root => root.uri = grant.locator with
        | none => pure none
        | some root =>
            if !root.canRead then pure none
            else do
              let metadata ← Program.await (FsOp.getSafMetadata grant.locator)
              pure (some
                ⟨grant.id, grant.displayName, safRootCapabilities grant root metadata⟩))
    fun _ => pure none

def addRoot (X : RemoteFsExternals) (access : RemoteFsAccessConfig) (roots : List RemoteFsRoot)
    (grant : RemoteFsGrant) : RemoteFsM (List RemoteFsRoot) :=
  if !validPublicRoot grant || (matchingGrants access grant.id).length ≠ 1 then pure roots
  else do
    let root ← availableRemoteFsRoot X grant
    pure (roots ++ root.toList)

/-! ## §2  The handlers -/

section Handlers

variable (X : RemoteFsExternals) (requestId : String) (peer : RemoteFsPeer)

def respondRemoteFsRoots : RemoteFsM Unit := do
  requireTrustedPeer X peer
  let access ← Program.get
  let roots ← Program.foldl (addRoot X access) [] access.grants
  requireTrustedPeer X peer
  respond requestId (.roots roots)

def respondRemoteFsList (location : RemoteFsLocation) (cursor : Option String) (limit : ℕ) :
    RemoteFsM Unit := do
  let grant ← authorizeGrant X peer location.rootId .browse
  validateRelativePath location.path
  let entries ← (match grant.kind with
    | .localPath => listLocalDirectory X grant location.path
    | .androidSaf => listSafDirectory X grant location.path)
  let entries := entries.mergeSort fun a b => compareRemoteFsEntries X a b ≠ .gt
  let offset ← decodeListCursor cursor
  require (offset ≤ entries.length) .invalidRequest
  let stop := min (offset + limit) entries.length
  let nextCursor := if stop < entries.length then some ("v1:" ++ toString stop) else none
  ensureGrantCurrent X peer grant .browse
  respond requestId (.list ⟨(entries.take stop).drop offset, nextCursor⟩)

def respondRemoteFsMetadata (target : RemoteFsLocation) : RemoteFsM Unit := do
  let grant ← authorizeGrant X peer target.rootId .browse
  requireEntryPath target.path
  let entry ← (match grant.kind with
    | .localPath => localEntryForPath X grant target.path
    | .androidSaf => safEntryForPath X grant target.path)
  ensureGrantCurrent X peer grant .browse
  respond requestId (.entry entry)

def respondRemoteFsCreateDirectory (parent : RemoteFsLocation) (name : String) :
    RemoteFsM Unit := do
  let grant ← authorizeGrant X peer parent.rootId .createDirectory
  validateRelativePath parent.path
  validateFileName name
  let childPath := childRemotePath parent.path name
  let entry ← (match grant.kind with
    | .localPath => createLocalDirectory X peer grant parent.path name childPath
    | .androidSaf => createSafDirectory X peer grant parent.path name childPath)
  respond requestId (.entry entry)

def respondRemoteFsRename (source : RemoteFsLocation) (newName : String) : RemoteFsM Unit := do
  let grant ← authorizeGrant X peer source.rootId .rename
  requireEntryPath source.path
  validateFileName newName
  let renamedPath := childRemotePath (parentRemotePath source.path) newName
  let entry ← (match grant.kind with
    | .localPath => renameLocalEntry X peer grant source.path newName renamedPath
    | .androidSaf => renameSafEntry X peer grant source.path newName renamedPath)
  respond requestId (.entry entry)

/-- A move to another name also needs the right to rename. -/
def requireRename (sourceGrant : RemoteFsGrant) (source : RemoteFsLocation) (newName : String) :
    RemoteFsM Unit :=
  if newName ≠ basenameRemotePath source.path then do
    let renameGrant ← authorizeGrant X peer source.rootId .rename
    require (renameGrant.kind = sourceGrant.kind && renameGrant.locator = sourceGrant.locator)
      .permissionDenied
  else pure ()

def respondRemoteFsMove (source destinationParent : RemoteFsLocation) (newName : Option String)
    (overwrite : Bool) : RemoteFsM Unit := do
  let sourceGrant ← authorizeGrant X peer source.rootId .move
  let destinationGrant ← authorizeGrant X peer destinationParent.rootId .write
  requireEntryPath source.path
  validateRelativePath destinationParent.path
  let newName := newName.getD (basenameRemotePath source.path)
  validateFileName newName
  requireRename X peer sourceGrant source newName
  let destinationPath := childRemotePath destinationParent.path newName
  require (sourceGrant.kind = destinationGrant.kind) .unsupported
  let entry ← (match sourceGrant.kind with
    | .localPath => moveLocalEntry X peer sourceGrant destinationGrant source.path
        destinationParent.path newName destinationPath overwrite
    | .androidSaf => moveSafEntry X peer sourceGrant destinationGrant source.path
        destinationParent.path newName destinationPath overwrite)
  respond requestId (.entry entry)

def respondRemoteFsDelete (target : RemoteFsLocation) (recursive : Bool) : RemoteFsM Unit := do
  let grant ← authorizeGrant X peer target.rootId .delete
  requireEntryPath target.path
  (match grant.kind with
    | .localPath => deleteLocalEntry X peer grant target.path recursive
    | .androidSaf => deleteSafEntry X peer grant target.path recursive)
  respond requestId .deleted

def readLocal (grant : RemoteFsGrant) (path : String) : RemoteFsM Unit := do
  let resolved ← resolveExistingLocal X grant path
  require (resolved.type ≠ .directory) .isDirectory
  require (resolved.type = .file) .notFound
  let entry ← localEntry X resolved.path path resolved.type grant
  ensureGrantCurrent X peer grant .read
  respond requestId (.read entry (.path resolved.path))

def readSaf (grant : RemoteFsGrant) (path : String) : RemoteFsM Unit := do
  let document ← resolveSafDocument grant path
  require (!document.isDirectory) .isDirectory
  ensureGrantCurrent X peer grant .read
  let descriptor ← Program.await (FsOp.openSafDocumentForReading document.uri)
  respond requestId (.read (safEntry X document path grant) (.descriptor descriptor))

def respondRemoteFsRead (target : RemoteFsLocation) : RemoteFsM Unit := do
  let grant ← authorizeGrant X peer target.rootId .read
  requireEntryPath target.path
  match grant.kind with
    | .localPath => readLocal X requestId peer grant target.path
    | .androidSaf => readSaf X requestId peer grant target.path

def writeLocal (grant : RemoteFsGrant) (path : String) (overwrite : Bool) :
    RemoteFsM Unit := do
  let target ← prepareLocalWriteTarget X grant path overwrite
  ensureGrantCurrent X peer grant .write
  respond requestId (.write (.path target))

def writeSaf (grant : RemoteFsGrant) (path : String) (overwrite : Bool) :
    RemoteFsM Unit := do
  let descriptor ← prepareSafWriteTarget X peer grant path overwrite
  respond requestId (.write (.descriptor descriptor))

def respondRemoteFsWrite (target : RemoteFsLocation) (overwrite : Bool) : RemoteFsM Unit := do
  let grant ← authorizeGrant X peer target.rootId .write
  requireEntryPath target.path
  match grant.kind with
    | .localPath => writeLocal X requestId peer grant target.path overwrite
    | .androidSaf => writeSaf X requestId peer grant target.path overwrite

end Handlers

/-! ## §3  Handling an event -/

def respondRemoteFs (X : RemoteFsExternals) (event : RemoteFsEvent) : RemoteFsM Unit :=
  match event.request with
  | .roots => respondRemoteFsRoots X event.requestId event.peer
  | .list location cursor limit =>
      respondRemoteFsList X event.requestId event.peer location cursor limit
  | .metadata target => respondRemoteFsMetadata X event.requestId event.peer target
  | .createDirectory parent name =>
      respondRemoteFsCreateDirectory X event.requestId event.peer parent name
  | .rename source newName => respondRemoteFsRename X event.requestId event.peer source newName
  | .move source destinationParent newName overwrite =>
      respondRemoteFsMove X event.requestId event.peer source destinationParent newName overwrite
  | .delete target recursive =>
      respondRemoteFsDelete X event.requestId event.peer target recursive
  | .read target => respondRemoteFsRead X event.requestId event.peer target
  | .write target _ overwrite =>
      respondRemoteFsWrite X event.requestId event.peer target overwrite

/-- Whatever a handler throws becomes an error reply. -/
def handleRemoteFsEvent (X : RemoteFsExternals) (event : RemoteFsEvent) : RemoteFsM Unit :=
  Program.catching (respondRemoteFs X event) fun error =>
    Program.catching (respond event.requestId (.error (remoteFsErrorCode error)))
      fun _ => pure ()

/-! ## §4  The isolate -/

/-- What is recorded of a request: the snapshots it was checked against and
the operations it called. -/
inductive Observed where
  | checked (access : RemoteFsAccessConfig)
  | called (op : FsOp)
deriving DecidableEq

/-- A handler that waits, or has ended. -/
structure RemoteFsTask where
  event : RemoteFsEvent
  trace : List Observed
  rest : RemoteFsM Unit

/-- Run a handler up to its next await. -/
def RemoteFsTask.run (access : RemoteFsAccessConfig) (event : RemoteFsEvent) :
    List Observed → RemoteFsM Unit → RemoteFsTask
  | trace, .read k => run access event (trace ++ [.checked access]) (k access)
  | trace, .call op k => ⟨event, trace ++ [.called op], .call op k⟩
  | trace, .pure a => ⟨event, trace, .pure a⟩
  | trace, .throw e => ⟨event, trace, .throw e⟩

/-- The answer to an operation. -/
structure FsAnswer where
  op : FsOp
  result : Except RemoteFsError op.Answer

/-- What the handler of a task does with an answer to the operation it waits
for. -/
def RemoteFsTask.resume (access : RemoteFsAccessConfig) (task : RemoteFsTask) (a : FsAnswer) :
    Option RemoteFsTask :=
  match task.rest with
  | .call op k =>
      if h : a.op = op then some (run access task.event task.trace (k (h ▸ a.result)))
      else none
  | _ => none

inductive RemoteFsEnv where
  | update (access : RemoteFsAccessConfig)
  | request (event : RemoteFsEvent)

/-- The isolate as a pool: the snapshot and the handlers. -/
def remoteFsMachine (X : RemoteFsExternals) :
    TaskPool.Machine RemoteFsAccessConfig RemoteFsTask FsAnswer RemoteFsEnv Empty where
  step access task a :=
    (task.resume access a).map fun task => { shared := access, task, spawned := [], seen := [] }
  env access
    | .update value => some (storedAccess X value, [])
    | .request event => some (access, [.run access event [] (handleRemoteFsEvent X event)])

abbrev RemoteFsPool : Type := TaskPool.Pool RemoteFsAccessConfig RemoteFsTask Empty

def RemoteFsPool.init : RemoteFsPool := ⟨.empty, [], []⟩

def remoteFsStep (X : RemoteFsExternals) :
    RemoteFsPool → TaskPool.Label FsAnswer RemoteFsEnv → Option RemoteFsPool :=
  (remoteFsMachine X).poolStep

end FireBoxTransfer

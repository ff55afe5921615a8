import FireBoxTransfer.Framework.Program
import FireBoxTransfer.Explorer.NetworkClient

/-!
# Files of a remote device

The client of a remote device has no request for a copy. It creates the
directories of the copy one by one, and reads each file from the device while it
writes it back. A write is a request of its own that goes on while its body is
fed; what becomes of it is told by its events.
-/

namespace FireBoxTransfer

open NetworkClient

/-! ## §1  Calls -/

inductive RsRemoteFsWriteEvent where
  | progress (bytesWritten : ℕ)
  | completed (bytesWritten : ℕ)
  | failed (error : Firebox.RemoteFsClientError)
deriving DecidableEq

/-- The calls of the bridge that a copy waits for. The sink, the token and the
events are those of the write that was started last. -/
inductive NetworkOp where
  | remoteFsList (request : Firebox.RemoteFsListRequest)
  | remoteFsMetadata (target : RemoteFsLocation)
  | remoteFsCreateDirectory (parent : RemoteFsLocation) (name : String)
  | remoteFsOpenRead (target : RemoteFsLocation)
  | remoteFsWrite (target : RemoteFsLocation) (overwrite : Bool) (contentLength : ℕ)
  | sinkAdd (data : List UInt8)
  | sinkClose
  | cancel
  | writeEvents
deriving DecidableEq

/-- A stream that was opened is given by what `nextChunk` brings, call by call,
until there is no more. -/
@[reducible] def NetworkOp.Answer : NetworkOp → Type
  | .remoteFsList _ => RemoteFsListResponse
  | .remoteFsMetadata _ | .remoteFsCreateDirectory _ _ => RemoteFsEntry
  | .remoteFsOpenRead _ => List (Except Firebox.RemoteFsClientError (List UInt8))
  | .writeEvents => List RsRemoteFsWriteEvent
  | .remoteFsWrite _ _ _ | .sinkAdd _ | .sinkClose | .cancel => Unit

/-- What is thrown: exceptions of the client, those of the Rust client before
they are translated, others of the bridge, and a loop that is not given enough
fuel. -/
inductive NetworkFailure where
  | exception (error : RemoteFileSystemException)
  | client (error : Firebox.RemoteFsClientError)
  | bridge
  | outOfFuel
deriving DecidableEq

abbrev NetworkM : Type → Type := Program Unit NetworkFailure NetworkOp NetworkOp.Answer

/-- The items of a stream, once it is listened to. -/
abbrev NetworkStream : Type := NetworkM (List (ExplorerResult (List UInt8)))

namespace NetworkRemoteFileSystemClient

section Calls

variable {α : Type}

def checked : ExplorerResult α → NetworkM α
  | .ok a => pure a
  | .error error => .throw (.exception error)

/-- The exception that a failure is turned into. -/
def translated : NetworkFailure → NetworkFailure
  | .client error => .exception (mapError error)
  | failure => failure

def translate (action : NetworkM α) : NetworkM α :=
  action.catching fun failure => .throw (translated failure)

end Calls

def childPath (parent name : String) : String :=
  if parent = "" then name else parent ++ "/" ++ name

def sameOrDescendant (candidate ancestor : String) : Bool :=
  candidate = ancestor ||
    (ancestor ≠ "" && (ancestor ++ "/").toList.isPrefixOf candidate.toList)

/-- The sum of the events of a write. -/
def consumeWriteEvents (expectedSize : ℕ) :
    Bool → List RsRemoteFsWriteEvent → ExplorerResult Unit
  | completed, [] => explorerCheck completed
      ⟨"transfer_failed", "La escritura remota terminó sin confirmación.", true⟩
  | completed, .progress _ :: events => consumeWriteEvents expectedSize completed events
  | _, .completed bytesWritten :: events => do
      explorerCheck (bytesWritten = expectedSize) (explorerError "length_mismatch"
        "El dispositivo escribió una cantidad de bytes inesperada.")
      consumeWriteEvents expectedSize true events
  | _, .failed error :: _ => .error (mapError error)

section Client

variable (tryParse : String → Option Int) (storageByRoot : String → Option ExplorerStorageInfo)
  (pages : ℕ) (root : ExplorerRoot)

/-! ## §2  Listings -/

/-- The loop of `listDirectory`, for at most so many pages. -/
def listPages (path : String) : ℕ → Paging → NetworkM (List ExplorerFileEntry)
  | 0, _ => .throw .outOfFuel
  | pages + 1, paging => do
      let location ← checked (location root path)
      let page ← Program.await
        (NetworkOp.remoteFsList ⟨location, paging.cursor, remoteListPageSize⟩)
      let next ← checked
        (paging.round (fun _ _ => .ok page) tryParse remoteListPageSize root path)
      match next.cursor with
      | none => pure next.entries
      | some _ => listPages path pages next

def listDirectory (path : String) : NetworkM ExplorerDirectoryListing := translate do
  let entries ← listPages tryParse root path pages .init
  pure (listing root path storageByRoot entries)

def getMetadata (path : String) : NetworkM ExplorerFileEntry := translate do
  let target ← checked (location root path)
  let value ← Program.await (NetworkOp.remoteFsMetadata target)
  checked (entry tryParse value)

def createDirectory (parentPath name : String) : NetworkM ExplorerFileEntry := translate do
  checked (validatePath parentPath)
  checked (validateName name)
  let parent ← checked (location root parentPath)
  let value ← Program.await (NetworkOp.remoteFsCreateDirectory parent name)
  checked (entry tryParse value)

/-! ## §3  Reading and writing -/

def openRead (entry : ExplorerFileEntry) (offset : ℕ) : NetworkStream := do
  checked (explorerCheck (offset = 0) (explorerError "unsupported_offset"
    "La lectura remota todavía no admite reanudación."))
  checked (validatePath entry.path)
  let remote ← translate do
    let target ← checked (location root entry.path)
    Program.await (NetworkOp.remoteFsOpenRead target)
  pure (remote.map fun chunk => chunk.mapError mapError)

/-- `writeFuture`: it may be awaited more than once. -/
def writeFuture (expectedSize : ℕ) : NetworkM Unit := do
  let events ← Program.await NetworkOp.writeEvents
  checked (consumeWriteEvents expectedSize false events)

/-- The chunks go to the sink in turn. If it takes no more, the write is over,
and its own error comes first. -/
def sendChunks (expectedSize : ℕ) (content : NetworkStream) : NetworkM Unit := do
  let chunks ← content
  Program.foldl (fun _ chunk => do
    let data ← checked chunk
    Program.catching (Program.await (NetworkOp.sinkAdd data)) fun failure => do
      writeFuture expectedSize
      .throw failure) () chunks
  Program.await NetworkOp.sinkClose

/-- The write is cancelled, and awaited, before the failure is thrown again. -/
def abandonWrite (expectedSize : ℕ) (failure : NetworkFailure) : NetworkM Unit := do
  Program.await NetworkOp.cancel
  Program.await NetworkOp.sinkClose
  Program.catching (writeFuture expectedSize) fun _ => pure ()
  .throw failure

def writeFile (destinationPath fileName : String) (content : NetworkStream) :
    Option ℕ → NetworkM Unit
  | none => .throw (.exception (explorerError "missing_size"
      "Se necesita el tamaño para escribir por streaming."))
  | some lengthBytes => do
      checked (validatePath destinationPath)
      checked (validateName fileName)
      let target ← checked (location root (childPath destinationPath fileName))
      Program.await (NetworkOp.remoteFsWrite target false lengthBytes)
      Program.catching (sendChunks lengthBytes content) (abandonWrite lengthBytes)
      writeFuture lengthBytes

/-! ## §4  Copies -/

/-- `copy`, for at most `levels` levels of directories. -/
def copy : ℕ → ExplorerFileEntry → String → NetworkM ExplorerFileEntry
  | 0, _, _ => .throw .outOfFuel
  | levels + 1, entry, destinationPath => do
      checked (validatePath entry.path)
      checked (validatePath destinationPath)
      checked (validateName entry.name)
      if sameOrDescendant destinationPath entry.path then
        .throw (.exception (explorerError "conflict"
          "No se puede copiar una carpeta dentro de sí misma."))
      else if entry.isDirectory then do
        let created ← createDirectory tryParse root destinationPath entry.name
        let listing ← listDirectory tryParse storageByRoot pages root entry.path
        Program.foldl (fun _ child => do
          let _ ← copy levels child created.path
          pure ()) () listing.entries
        pure created
      else
        match entry.sizeBytes with
        | none => .throw (.exception (explorerError "missing_size"
            "El dispositivo no informó el tamaño del archivo."))
        | some size => do
            writeFile root destinationPath entry.name (openRead root entry 0) (some size)
            getMetadata tryParse root (childPath destinationPath entry.name)

end Client

end NetworkRemoteFileSystemClient

end FireBoxTransfer

import FireBoxTransfer.Core.Model

/-!
# The receive session of the application

What the main isolate keeps of an incoming request: the session with its
files, the selection of the user and the statuses of the transfers. The
server indexes the offered files by the key of the map in the request, the
application by the identifier inside the file description.
-/

namespace FireBoxTransfer

/-! ## §1  Files and sessions -/

inductive FileType where
  | image | video | pdf | text | apk | other
deriving DecidableEq

def startsWith (s start : String) : Bool := start.toList.isPrefixOf s.toList

def decodeFromMime (mime : String) : FileType :=
  if startsWith mime "image/" then .image
  else if startsWith mime "video/" then .video
  else if mime = "application/pdf" then .pdf
  else if startsWith mime "text/" then .text
  else if mime = "application/vnd.android.package-archive" then .apk
  else .other

inductive SessionStatus where
  | waiting | recipientBusy | declined | tooManyAttempts | sending | finished
  | finishedWithErrors | canceledBySender | canceledByReceiver
deriving DecidableEq

/-- `desiredName` is set once the file is accepted. -/
structure ReceivingFile where
  file : FileDto
  desiredName : Option String
  path : Option String
  savedToGallery : Bool
  errorMessage : Option String
deriving DecidableEq

structure ReceiveSessionState where
  sessionId : String
  status : SessionStatus
  senderFingerprint : String
  senderAlias : String
  files : AssocMap String ReceivingFile
  destinationDirectory : String
  cacheDirectory : String
  saveToGallery : Bool
deriving DecidableEq

/-- The message of a message request: a single text file with a preview. -/
def ReceiveSessionState.message (s : ReceiveSessionState) : Option String :=
  match s.files.values with
  | [f] => if decodeFromMime f.file.fileType = .text then f.file.preview else none
  | _ => none

/-- What `onPrepareUpload` is called with. -/
structure PrepareUploadEvent where
  sessionId : String
  ip : PeerIp
  info : RegisterDtoV2
  certFingerprint : Option String
  files : AssocMap String FileDto
deriving DecidableEq

def ReceivingFile.offered (file : FileDto) : ReceivingFile :=
  ⟨file, none, none, false, none⟩

/-- The files of a new session, under their own identifiers. -/
def sessionFiles (files : AssocMap String FileDto) : AssocMap String ReceivingFile :=
  .ofList (files.values.map fun f => (f.id, .offered f))

/-- The files of a session after it was accepted under the given names. -/
def acceptedSessionFiles (files : AssocMap String ReceivingFile)
    (fileNameMap : AssocMap String String) : AssocMap String ReceivingFile :=
  .ofList (files.values.map fun entry =>
    (entry.file.id, ⟨entry.file, fileNameMap.get? entry.file.id, none, false, none⟩))

/-! ## §2  Settings -/

structure AppSettings where
  quickSave : Bool
  quickSaveFromFavorites : Bool
  receiveViaLinkAutoAccept : Bool
  saveToGallery : Bool
  destination : Option String
deriving DecidableEq

structure FavoriteDevice where
  fingerprint : String
  «alias» : String
deriving DecidableEq

/-- What the application knows besides the session: the settings, the
favourites and whether the upload page is served. -/
structure AppConfig where
  settings : AppSettings
  favorites : List FavoriteDevice
  webUpload : Bool
deriving DecidableEq

/-- The device: whether it has a gallery and a tray, and its Android version. -/
structure Platform where
  gallery : Bool
  tray : Bool
  android : Bool
  androidSdkInt : Option ℕ
deriving DecidableEq

/-- The storage permission exists below Android 13. -/
def Platform.asksPermission (platform : Platform) : Bool :=
  platform.android && platform.androidSdkInt.any (· < 33)

def isFavorite (favorites : List FavoriteDevice) (fingerprint : String) : Bool :=
  favorites.any fun e => e.fingerprint = fingerprint

/-- The fingerprint by which a sender is recognised: the one of its
certificate, else the one it reports itself. -/
def PrepareUploadEvent.senderFingerprint (event : PrepareUploadEvent) : String :=
  event.certFingerprint.getD event.info.fingerprint

/-- Whether a request is accepted without asking. -/
def quickSaves (settings : AppSettings) (config : AppConfig) (message : Option String)
    (senderFingerprint : String) : Bool :=
  let quickSave := settings.quickSave && message.isNone
  let quickSave :=
    if settings.quickSaveFromFavorites && message.isNone then
      if isFavorite config.favorites senderFingerprint then true else quickSave
    else quickSave
  if config.webUpload && settings.receiveViaLinkAutoAccept && message.isNone then true
  else quickSave

/-- The session `onPrepareUpload` creates for its event. -/
def newSession (platform : Platform) (settings : AppSettings) (favorites : List FavoriteDevice)
    (destinationDirectory cacheDirectory : String) (event : PrepareUploadEvent) :
    ReceiveSessionState where
  sessionId := event.sessionId
  status := .waiting
  senderFingerprint := event.senderFingerprint
  senderAlias :=
    match favorites.find? fun e => e.fingerprint = event.senderFingerprint with
    | some e => e.alias
    | none => event.info.alias
  files := sessionFiles event.files
  destinationDirectory := destinationDirectory
  cacheDirectory := cacheDirectory
  saveToGallery := platform.gallery && settings.saveToGallery &&
    event.files.values.all fun f => !f.fileName.toList.contains '/'

/-! ## §3  The selection -/

/-- All files under their original names: `setFiles`. -/
def setFiles (files : List FileDto) : AssocMap String String :=
  .ofList (files.map fun f => (f.id, f.fileName))

/-- What the user does to the selection on the options page. `renameAll` is a
quick action: new names for all selected files, in their order. -/
inductive SelectionEdit where
  | select (file : FileDto)
  | unselect (fileId : String)
  | rename (fileId fileName : String)
  | renameAll (fileNames : List String)
  | reset (files : List FileDto)
deriving DecidableEq

def SelectionEdit.apply (selection : AssocMap String String) :
    SelectionEdit → AssocMap String String
  | .select file => selection.insert file.id file.fileName
  | .unselect fileId => selection.filter fun id _ => id ≠ fileId
  | .rename fileId fileName => selection.modify fileId fun _ => fileName
  | .renameAll fileNames => selection.mapIdx fun i _ old => fileNames.getD i old
  | .reset files => setFiles files

/-! ## §4  Statuses of the transfers -/

inductive FileStatus where
  | queue | skipped | sending | failed | finished
deriving DecidableEq

/-- `isFinishedOrError`. -/
def FileStatus.settled : FileStatus → Bool
  | .skipped | .failed | .finished => true
  | _ => false

/-- Session identifier, file identifier, status. -/
abbrev FileTransfers : Type := AssocMap String (AssocMap String FileStatus)

namespace FileTransfers

def ofSession (t : FileTransfers) (sessionId : String) : AssocMap String FileStatus :=
  (AssocMap.get? t sessionId).getD .empty

def setStatuses (t : FileTransfers) (sessionId : String)
    (statuses : List (String × FileStatus)) : FileTransfers :=
  AssocMap.insert sessionId
    (statuses.foldl (fun m e => m.insert e.1 e.2) (t.ofSession sessionId)) t

def setStatus (t : FileTransfers) (sessionId fileId : String) (status : FileStatus) :
    FileTransfers :=
  t.setStatuses sessionId [(fileId, status)]

/-- Progress of an unknown file makes it known as queued. -/
def setProgress (t : FileTransfers) (sessionId fileId : String) : FileTransfers :=
  match (t.ofSession sessionId).get? fileId with
  | some _ => t
  | none => t.setStatus sessionId fileId .queue

def getStatuses (t : FileTransfers) (sessionId : String) : List FileStatus :=
  (t.ofSession sessionId).values

def removeSession (t : FileTransfers) (sessionId : String) : FileTransfers :=
  AssocMap.filter (fun id _ => id ≠ sessionId) t

end FileTransfers

end FireBoxTransfer

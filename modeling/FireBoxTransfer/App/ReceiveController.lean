import FireBoxTransfer.App.ReceiveSession
import FireBoxTransfer.Bridge.Stack

/-!
# The receive controller

The main isolate is single-threaded, so a handler runs from one await to the
next without interruption; what lies between two awaits of one handler is
anything the others do. A suspended handler is one of `Handler`, with the
locals it still needs.

Consent is a history: `lookedAt` is the session whose request the user had on
screen when accepting (or that a rule accepted), `selectionOf` the session
whose files the selection was made of.
-/

namespace FireBoxTransfer

/-! ## §1  The state -/

structure Consent where
  lookedAt : String
  selectionOf : Option String
deriving DecidableEq

/-- A receive page. A page of a message keeps the message and the session it
was read from; the others show whatever the current session offers. -/
structure ReceivePage where
  message : Option (String × String)
deriving DecidableEq

/-- An options page: the session and the files that were shown when it was
opened. -/
structure ReceiveOptionsPage where
  sessionId : String
  files : List FileDto
deriving DecidableEq

/-- Suspended handlers of the controller, by what they await. -/
inductive Handler where
  /-- `onPrepareUpload`: the directories. -/
  | directories (event : PrepareUploadEvent) (settings : AppSettings)
  /-- `onPrepareUpload`: the window and the tray. -/
  | tray (event : PrepareUploadEvent)
  /-- `onPrepareUpload`: the history entry of a message. -/
  | history (event : PrepareUploadEvent) (message : String × String)
  /-- `acceptFileRequest`: the permission dialog. -/
  | permission (consent : Consent) (fileNameMap : AssocMap String String)
  /-- `onFileUploadResult`: the history entry of a file. -/
  | result (sessionId fileId : String)
  /-- The delayed close after a quick save. -/
  | close
deriving DecidableEq

/-- An accepting decision as it was sent, with the consent it rests on. -/
structure Dispatched where
  consent : Consent
  config : HttpServerReceiveConfig
deriving DecidableEq

/-- The controller with everything it reads and writes. `outbox` holds the
messages of the current turn; `dispatched` and `consents` are the history. -/
structure ReceiveController where
  config : AppConfig
  session : Option ReceiveSessionState
  transfers : FileTransfers
  selection : AssocMap String String
  selectionOf : Option String
  pages : List ReceivePage
  optionsPages : List ReceiveOptionsPage
  handlers : List Handler
  outbox : List HttpServerTask
  dispatched : List Dispatched
  consents : List String

def ReceiveController.init (config : AppConfig) : ReceiveController where
  config := config
  session := none
  transfers := .empty
  selection := .empty
  selectionOf := none
  pages := []
  optionsPages := []
  handlers := []
  outbox := []
  dispatched := []
  consents := []

namespace ReceiveController

/-! ## §2  Accepting, declining, closing -/

def dispatch (c : ReceiveController) (task : HttpServerTask) : ReceiveController :=
  { c with outbox := c.outbox ++ [task] }

def suspend (c : ReceiveController) (h : Handler) : ReceiveController :=
  { c with handlers := c.handlers ++ [h] }

def closeSession (c : ReceiveController) : ReceiveController :=
  match c.session with
  | none => c
  | some s => { c with session := none, transfers := c.transfers.removeSession s.sessionId }

def buildReceiveConfig (platform : Platform) (session : ReceiveSessionState)
    (fileNameMap : AssocMap String String) : HttpServerReceiveConfig where
  sessionId := session.sessionId
  fileNameMap := fileNameMap
  destinationDirectory := session.destinationDirectory
  cacheDirectory := session.cacheDirectory
  saveToGallery := session.saveToGallery
  androidSdkInt := platform.androidSdkInt

/-- Send the accepting decision and note what it rests on. -/
def sendAccept (platform : Platform) (c : ReceiveController) (consent : Consent)
    (session : ReceiveSessionState) (fileNameMap : AssocMap String String) :
    ReceiveController :=
  let config := buildReceiveConfig platform session fileNameMap
  { c with
    outbox := c.outbox ++ [.prepareUploadDecision (.accept config)]
    dispatched := c.dispatched ++ [⟨consent, config⟩] }

/-- The end of `acceptFileRequest`: the current session is read again. -/
def finishAccept (platform : Platform) (c : ReceiveController) (consent : Consent)
    (fileNameMap : AssocMap String String) : ReceiveController :=
  match c.session with
  | none => c
  | some updatedSession => c.sendAccept platform consent updatedSession fileNameMap

/-- The session and the statuses once a waiting session is accepted. -/
def markAccepted (c : ReceiveController) (consent : Consent) (session : ReceiveSessionState)
    (fileNameMap : AssocMap String String) : ReceiveController :=
  let statuses := session.files.values.map fun f =>
    (f.file.id, if fileNameMap.keys.contains f.file.id then FileStatus.queue else .skipped)
  { c with
    session := some { session with
      status := .sending, files := acceptedSessionFiles session.files fileNameMap }
    transfers := c.transfers.setStatuses session.sessionId statuses
    consents := c.consents ++ [consent.lookedAt] }

def acceptFileRequest (platform : Platform) (c : ReceiveController) (consent : Consent)
    (fileNameMap : AssocMap String String) : ReceiveController :=
  match c.session with
  | none => c
  | some session =>
      if session.status ≠ .waiting then c
      else if fileNameMap.isEmpty then
        -- nothing selected; usually a message
        (c.sendAccept platform consent session .empty).closeSession
      else
        let c := c.markAccepted consent session fileNameMap
        if platform.asksPermission then c.suspend (.permission consent fileNameMap)
        else c.finishAccept platform consent fileNameMap

def declineFileRequest (c : ReceiveController) : ReceiveController :=
  match c.session with
  | none => c
  | some session =>
      if session.status ≠ .waiting then c
      else (c.dispatch (.prepareUploadDecision (.decline session.sessionId))).closeSession

def cancelSession (c : ReceiveController) : ReceiveController :=
  match c.session with
  | none => c
  | some session => (c.dispatch (.cancelSession session.sessionId)).closeSession

def setStatus (c : ReceiveController) (status : SessionStatus) : ReceiveController :=
  { c with session := c.session.map fun s => { s with status } }

/-! ## §3  A prepare-upload event -/

/-- A new request means the old session is over. -/
def onPrepareUpload (c : ReceiveController) (event : PrepareUploadEvent) :
    ReceiveController :=
  c.closeSession.suspend (.directories event c.config.settings)

/-- The selection starts from the files of the event, and the page is shown. -/
def showPage (c : ReceiveController) (event : PrepareUploadEvent)
    (message : Option (String × String)) : ReceiveController :=
  { c with
    selection := setFiles event.files.values
    selectionOf := some event.sessionId
    pages := c.pages ++ [⟨message⟩] }

/-- The message of the current session, with the session it is read from. -/
def currentMessage (c : ReceiveController) : Option (String × String) :=
  c.session.bind fun s => s.message.map fun text => (text, s.sessionId)

def afterTray (c : ReceiveController) (event : PrepareUploadEvent) : ReceiveController :=
  match c.currentMessage with
  | some message => c.suspend (.history event message)
  | none => c.showPage event none

def afterDirectories (platform : Platform) (c : ReceiveController)
    (event : PrepareUploadEvent) (settings : AppSettings) (defaultDir cacheDir : String) :
    ReceiveController :=
  let session := newSession platform settings c.config.favorites
    (settings.destination.getD defaultDir) cacheDir event
  let queued := event.files.values.map fun f : FileDto => (f.id, FileStatus.queue)
  let c := { c with
    session := some session
    transfers := c.transfers.setStatuses event.sessionId queued }
  if quickSaves settings c.config session.message event.senderFingerprint then
    c.acceptFileRequest platform ⟨event.sessionId, some event.sessionId⟩
      (setFiles event.files.values)
  else if platform.tray then c.suspend (.tray event)
  else c.afterTray event

/-! ## §4  The other events -/

/-- `allowedStates`. -/
def transferring (status : SessionStatus) : Bool :=
  status = .sending || status = .finishedWithErrors

/-- The file of an upload, if the current session takes it. -/
def acceptedFile (c : ReceiveController) (sessionId fileId : String) :
    Option ReceivingFile :=
  c.session.bind fun s =>
    if s.sessionId = sessionId && transferring s.status then
      (s.files.get? fileId).filter fun f => f.desiredName.isSome
    else none

def onFileUpload (c : ReceiveController) (sessionId fileId : String) : ReceiveController :=
  match c.acceptedFile sessionId fileId with
  | none => c.dispatch (.cancelSession sessionId)
  | some _ =>
      { c with transfers := c.transfers.setStatus sessionId fileId .sending }.setStatus .sending

def fileFinished (c : ReceiveController) (fileId : String) (path : Option String)
    (savedToGallery : Bool) (errorMessage : Option String) : ReceiveController :=
  { c with session := c.session.map fun s =>
      { s with files := s.files.modify fileId fun f =>
          { f with path, savedToGallery, errorMessage } } }

/-- The end of `onFileUploadResult`: the transfer may be over. -/
def afterResult (c : ReceiveController) (sessionId fileId : String) : ReceiveController :=
  let c := { c with transfers := c.transfers.setProgress sessionId fileId }
  match c.session with
  | none => c
  | some session =>
      let statuses := c.transfers.getStatuses session.sessionId
      if transferring session.status && statuses.all FileStatus.settled then
        let hasError := statuses.contains .failed
        let c := c.setStatus (if hasError then .finishedWithErrors else .finished)
        let settings := c.config.settings
        let ok := !hasError && session.message.isNone
        if settings.quickSave && ok || settings.quickSaveFromFavorites && ok &&
            isFavorite c.config.favorites session.senderFingerprint then c.suspend .close
        else c
      else c

def onFileUploadResult (c : ReceiveController) (sessionId fileId : String)
    (path : Option String) (savedToGallery : Bool) (error : Option String) :
    ReceiveController :=
  match c.acceptedFile sessionId fileId with
  | none => c
  | some _ =>
      match error with
      | none =>
          ({ c with transfers := c.transfers.setStatus sessionId fileId .finished }.fileFinished
            fileId path savedToGallery none).suspend (.result sessionId fileId)
      | some e =>
          ({ c with transfers := c.transfers.setStatus sessionId fileId .failed }.fileFinished
            fileId none false (some e)).afterResult sessionId fileId

def onSessionEnd (c : ReceiveController) (sessionId : String) (reason : SessionEndReasonV2) :
    ReceiveController :=
  if c.session.map (·.sessionId) = some sessionId then
    match reason with
    | .finished => c
    | .cancelled => c.setStatus .canceledBySender
  else c

def onPrepareUploadAborted (c : ReceiveController) (sessionId : String) :
    ReceiveController :=
  if c.session.map (fun s => (s.sessionId, s.status)) = some (sessionId, .waiting) then
    c.setStatus .canceledBySender
  else c

/-- One event of the isolate. Registrations and cancels of sent transfers do
not concern the receive session. -/
def onEvent (c : ReceiveController) : HttpServerEvent → ReceiveController
  | .prepareUpload sessionId ip info certFingerprint files =>
      c.onPrepareUpload ⟨sessionId, ip, info, certFingerprint, files⟩
  | .fileUpload sessionId fileId _ => c.onFileUpload sessionId fileId
  | .fileUploadResult sessionId fileId path savedToGallery error =>
      c.onFileUploadResult sessionId fileId path savedToGallery error
  | .sessionEnd sessionId reason => c.onSessionEnd sessionId reason
  | .prepareUploadAborted sessionId => c.onPrepareUploadAborted sessionId
  | .register _ _ | .cancelReceived _ _ => c

/-- What a suspended handler was waiting for. -/
inductive Resume where
  | directories (defaultDir cacheDir : String)
  | go
deriving DecidableEq

def resume (platform : Platform) (c : ReceiveController) :
    Handler → Resume → Option ReceiveController
  | .directories event settings, .directories defaultDir cacheDir =>
      some (c.afterDirectories platform event settings defaultDir cacheDir)
  | .tray event, .go => some (c.afterTray event)
  | .history event message, .go => some (c.showPage event (some message))
  | .permission consent fileNameMap, .go => some (c.finishAccept platform consent fileNameMap)
  | .result sessionId fileId, .go => some (c.afterResult sessionId fileId)
  | .close, .go => some c.closeSession
  | _, _ => none

/-! ## §5  What the user does -/

def onAccept (platform : Platform) (c : ReceiveController) (page : ReceivePage) :
    ReceiveController :=
  match page.message with
  | some (_, sessionId) =>
      -- accept nothing
      c.acceptFileRequest platform ⟨sessionId, none⟩ .empty
  | none =>
      match c.session with
      | none => c
      | some session =>
          c.acceptFileRequest platform ⟨session.sessionId, c.selectionOf⟩ c.selection

/-- The options page of the files on screen. -/
def openOptions (c : ReceiveController) : ReceiveController :=
  match c.session with
  | none => c
  | some s =>
      { c with optionsPages :=
          c.optionsPages ++ [⟨s.sessionId, s.files.values.map ReceivingFile.file⟩] }

/-- The edits an options page offers: it knows the files it shows. -/
def ReceiveOptionsPage.offers (page : ReceiveOptionsPage) : SelectionEdit → Bool
  | .select file => page.files.contains file
  | .reset files => page.files = files
  | _ => true

/-- An edit on the options page of another session leaves a selection that
belongs to no session. -/
def edit (c : ReceiveController) (page : ReceiveOptionsPage) (e : SelectionEdit) :
    ReceiveController :=
  { c with
    selection := e.apply c.selection
    selectionOf := match e with
      | .reset _ => some page.sessionId
      | _ => c.selectionOf.filter (· = page.sessionId) }

def setSessionDestinationDir (c : ReceiveController) (destinationDirectory : String) :
    ReceiveController :=
  let dir := String.ofList
    (destinationDirectory.toList.map fun ch => if ch = '\\' then '/' else ch)
  { c with session := c.session.map fun s => { s with destinationDirectory := dir } }

def setSessionSaveToGallery (c : ReceiveController) (saveToGallery : Bool) :
    ReceiveController :=
  { c with session := c.session.map fun s => { s with saveToGallery } }

end ReceiveController

/-! ## §6  The application -/

structure App where
  stack : Stack
  controller : ReceiveController

def App.init (config : AppConfig) (pin : Option String) (verifyChecksums : Bool) (cap : ℕ) :
    App :=
  ⟨.init pin verifyChecksums cap, .init config⟩

/-- The steps below the main isolate, the next event, the awaits of the
handlers and the user. -/
inductive AppLabel where
  | stack (l : StackLabel)
  | event
  | resume (k : ℕ) (r : ReceiveController.Resume)
  | accept (page : ℕ)
  | decline
  | close
  | cancel
  | openOptions
  | edit (page : ℕ) (e : SelectionEdit)
  | setDestinationDir (dir : String)
  | setSaveToGallery (saveToGallery : Bool)
  | configure (config : AppConfig)

/-- The steps of the stack that are not the application's own. -/
def StackLabel.below : StackLabel → Bool
  | .answer _ | .cancelSession _ | .take => false
  | _ => true

/-- A turn of the main isolate: its messages go to the isolate. -/
def App.turn (p : App) (c : ReceiveController) : App where
  stack := c.outbox.foldl Stack.send p.stack
  controller := { c with outbox := [] }

def appStep (X : Externals) (platform : Platform) (p : App) : AppLabel → Option App
  | .stack l =>
      if l.below then (stackStep X p.stack l).map fun stack => { p with stack } else none
  | .event =>
      p.stack.take.map fun r => { p with stack := r.2 }.turn (p.controller.onEvent r.1)
  | .resume k r =>
      (p.controller.handlers[k]?).bind fun h =>
        (({ p.controller with handlers := p.controller.handlers.eraseIdx k }).resume
          platform h r).map p.turn
  | .accept i => p.controller.pages[i]?.map fun page => p.turn (p.controller.onAccept platform page)
  | .decline => some (p.turn p.controller.declineFileRequest)
  | .close => some (p.turn p.controller.closeSession)
  | .cancel => some (p.turn p.controller.cancelSession)
  | .openOptions => some (p.turn p.controller.openOptions)
  | .edit i e =>
      p.controller.optionsPages[i]?.bind fun page =>
        if ReceiveController.ReceiveOptionsPage.offers page e then
          some (p.turn (p.controller.edit page e))
        else none
  | .setDestinationDir dir => some (p.turn (p.controller.setSessionDestinationDir dir))
  | .setSaveToGallery b => some (p.turn (p.controller.setSessionSaveToGallery b))
  | .configure config => some { p with controller := { p.controller with config } }

end FireBoxTransfer

import FireBoxTransfer.App.ReceiveSession
import FireBoxTransfer.Bridge.Stack
import FireBoxTransfer.Framework.FutureQueue

/-!
# Receiving the files of a session

For each file that is uploaded the server waits on a channel for the place the file goes to.
The bridge keeps the other end of the channel, and the isolate handles the upload: it
prepares a place, hands it to the bridge, waits until the server has written the file and
reports the result. Attempts at one file wait in the queue of the file, and the place of the
first attempt is kept for the later ones; the queue and the place belong to the receive
session, an object that a decision of the application creates. An upload for which there is
no such session is rejected, by cancelling the session on the server.
-/

namespace FireBoxTransfer

open Runs

namespace Receiving

/-! ## §1  Targets -/

structure FileSaveTarget where
  path : Option String
  fileDescriptor : Option ℕ
  displayPath : String
deriving DecidableEq

/-- Where the file ends up; the descriptor is one way to write there. -/
def FileSaveTarget.destination (target : FileSaveTarget) : Option String × String :=
  (target.path, target.displayPath)

/-- `opened` is what Android answers when the document is opened again. -/
def reopenFileSaveTarget (target : FileSaveTarget) (opened : Except String ℕ) :
    Except String FileSaveTarget :=
  match target.path with
  | some _ => .ok target
  | none => opened.map fun fd =>
      { path := none, fileDescriptor := some fd, displayPath := target.displayPath }

theorem reopenFileSaveTarget_destination {target target' : FileSaveTarget}
    {opened : Except String ℕ} (h : reopenFileSaveTarget target opened = .ok target') :
    target'.destination = target.destination := by
  unfold reopenFileSaveTarget at h
  unfold FileSaveTarget.destination
  split at h
  · obtain rfl := Except.ok.inj h
    rfl
  · rename_i hpath
    cases opened with
    | error e => cases h
    | ok fd =>
        obtain rfl := Except.ok.inj h
        rw [hpath]

/-- Descriptors are taken on Android only. -/
def resolveUploadTarget (android : Bool) :
    Option String → Option ℕ → Except String FileUploadTarget
  | some path, none => .ok (.path path)
  | none, some fd =>
      if android then .ok (.fd fd) else .error "File descriptors are only supported on Android"
  | _, _ => .error "Exactly one upload target must be provided"

/-! ## §2  Sessions and uploads -/

/-- The receive session of the isolate. Uploads are numbered. -/
structure ReceiveSession where
  config : HttpServerReceiveConfig
  uploads : AssocMap String (FutureQueue ℕ)
  targets : AssocMap String FileSaveTarget

def ReceiveSession.new (config : HttpServerReceiveConfig) : ReceiveSession :=
  ⟨config, .empty, .empty⟩

/-- The queue of a file; one that is not there yet is empty. -/
def ReceiveSession.queue (session : ReceiveSession) (fileId : String) : FutureQueue ℕ :=
  (session.uploads.get? fileId).getD .empty

/-- Where the handler of an upload stands. -/
inductive UploadPoint where
  | queued
  /-- A place is prepared, or opened again if there was one. -/
  | preparing (previous : Option FileSaveTarget)
  /-- `failFileUpload` is called. -/
  | failing (error : String)
  /-- `respondFileUpload` is called. -/
  | responding (target : FileSaveTarget)
  /-- The server writes the file. -/
  | saving (target : FileSaveTarget)
  /-- The file is moved to the gallery. -/
  | moving (target : FileSaveTarget)
  | failed (error : String)
  /-- The result is sent, and the queue has not gone on yet. -/
  | reported
  | done
deriving DecidableEq

def UploadPoint.stage : UploadPoint → FutureQueue.Stage
  | .queued => .waiting
  | .done => .finished
  | _ => .running

/-- An upload that was let through, with the session object that took it. `target` records
the place that was prepared for it. -/
structure Upload where
  session : ℕ
  sessionId : String
  fileId : String
  file : FileDto
  point : UploadPoint
  target : Option FileSaveTarget
deriving DecidableEq

/-- The key under which the bridge stores the responder. -/
def Upload.key (u : Upload) : String × String := (u.sessionId, u.fileId)

def shouldSaveToGallery (config : HttpServerReceiveConfig) (file : FileDto) : Bool :=
  config.saveToGallery &&
    (decodeFromMime file.fileType = .image || decodeFromMime file.fileType = .video)

/-! ## §3  The bridge -/

/-- The channel on which a request waits for its target. -/
inductive TargetRx where
  | waiting
  | answered (target : FileUploadTarget)
  | dropped
  /-- The request is over, and nobody waits. -/
  | ended
deriving DecidableEq

/-- Calls of the bridge that have not finished. In `cancelled` the server has removed the
session already. -/
inductive BridgeCall where
  | respondPrepareUpload (acceptedFileIds : Option (List String))
  | cancelSession (sessionId : String)
  | cancelled (sessionId : String)
deriving DecidableEq

/-- The events that the server has sent, the channels of its requests, and the bridge. -/
structure Bridge where
  events : List ServerEventV2
  requests : List TargetRx
  loop : ListenLoop
  pendingDecision : Option (String × ℕ)
  pendingUploads : AssocMap (String × String) ℕ
  sink : List RsServerEvent
  calls : List BridgeCall

def Bridge.new : Bridge := ⟨[], [], .recv, none, .empty, [], []⟩

/-- A channel is used once. -/
def settle (requests : List TargetRx) (tx : ℕ) (rx : TargetRx) : List TargetRx :=
  if requests[tx]? = some .waiting then requests.set tx rx else requests

def Bridge.settle (b : Bridge) (tx : ℕ) (rx : TargetRx) : Bridge :=
  { b with requests := Receiving.settle b.requests tx rx }

/-- Drop the stored responders whose key satisfies `q`. -/
def Bridge.dropUploads (b : Bridge) (q : String × String → Bool) : Bridge :=
  { b with
    pendingUploads := b.pendingUploads.filter fun key _ => !q key
    requests := (b.pendingUploads.filter fun key _ => q key).values.foldl
      (fun requests tx => Receiving.settle requests tx .dropped) b.requests }

/-- The part of `handle_server_event` before the event is handed on. -/
def Bridge.store (b : Bridge) : ServerEventV2 → Bridge
  | .prepareUpload sessionId _ _ _ _ decisionTx =>
      { b with pendingDecision := some (sessionId, decisionTx) }
  | .fileUpload sessionId fileId _ targetTx =>
      -- a responder that is still stored is dropped
      let b := b.dropUploads fun key => key = (sessionId, fileId)
      { b with pendingUploads := b.pendingUploads.insert (sessionId, fileId) targetTx }
  | .sessionEnd sessionId _ => b.dropUploads fun key => key.1 = sessionId
  | .prepareUploadAborted sessionId =>
      if b.pendingDecision.map Prod.fst = some sessionId then { b with pendingDecision := none }
      else b
  | .register _ _ | .cancelReceived _ _ => b

/-- One step of `listen`. -/
def Bridge.listen (b : Bridge) : Option Bridge :=
  match b.loop with
  | .recv =>
      match b.events with
      | [] => none
      | event :: events => some { b with events, loop := .handle event }
  | .handle event => some { b.store event with loop := .emit event.toRs }
  | .emit event => some { b with loop := .recv, sink := b.sink ++ [event] }

def Bridge.call (b : Bridge) (call : BridgeCall) : Bridge := { b with calls := b.calls ++ [call] }

def Bridge.endCall (b : Bridge) (k : ℕ) : Bridge := { b with calls := b.calls.eraseIdx k }

def Bridge.runCall (b : Bridge) (k : ℕ) : Option Bridge :=
  match b.calls[k]? with
  | none => none
  | some (.respondPrepareUpload _) =>
      -- whatever decision is pending is resolved
      some { b.endCall k with pendingDecision := none }
  | some (.cancelSession sessionId) =>
      some { b with calls := b.calls.set k (.cancelled sessionId) }
  | some (.cancelled sessionId) =>
      some ((b.endCall k).dropUploads fun key => key.1 = sessionId)

/-- `respond_file_upload`, up to the wait for the result. -/
def Bridge.respondFileUpload (android : Bool) (b : Bridge) (key : String × String)
    (target : FileSaveTarget) : Bridge × Except String Unit :=
  match b.pendingUploads.get? key with
  | none => (b, .error "No pending file upload for this file")
  | some tx =>
      let b' := { b with pendingUploads := b.pendingUploads.filter fun k _ => k ≠ key }
      match resolveUploadTarget android target.path target.fileDescriptor with
      | .error error => (b'.settle tx .dropped, .error error)
      | .ok resolved =>
          if b.requests[tx]? = some .waiting then (b'.settle tx (.answered resolved), .ok ())
          else (b', .error "Upload request already ended")

/-- An upload comes with a channel of its own. -/
def Bridge.arrive (b : Bridge) (event : ServerEventV2) : Option Bridge :=
  match event with
  | .fileUpload _ _ _ tx =>
      if tx = b.requests.length then
        some { b with events := b.events ++ [event], requests := b.requests ++ [.waiting] }
      else none
  | _ => some { b with events := b.events ++ [event] }

/-! ## §4  The isolate -/

/-- An event for the main isolate, with the upload whose handler sent it. -/
structure Emitted where
  upload : Option ℕ
  event : HttpServerEvent

/-- Receive sessions and uploads are numbered; `session` is the one in the holder. -/
structure Isolate where
  sessions : List ReceiveSession
  session : Option ℕ
  uploads : List Upload
  toMain : List Emitted

def Isolate.new : Isolate := ⟨[], none, [], []⟩

namespace Isolate

def emit (q : Isolate) (upload : Option ℕ) (event : HttpServerEvent) : Isolate :=
  { q with toMain := q.toMain ++ [⟨upload, event⟩] }

def setPoint (q : Isolate) (k : ℕ) (u : Upload) (point : UploadPoint) : Isolate :=
  { q with uploads := q.uploads.set k { u with point } }

/-- The handler starts, and goes on to its first await. -/
def start (q : Isolate) (k : ℕ) : Isolate :=
  match q.uploads[k]? with
  | some u =>
      let previous := q.sessions[u.session]?.bind fun session => session.targets.get? u.fileId
      (q.setPoint k u (.preparing previous)).emit (some k)
        (.fileUpload u.sessionId u.fileId u.file)
  | none => q

/-- `holder.session = null` if it is the session with this identifier. -/
def endSession (q : Isolate) (sessionId : String) : Isolate :=
  if (q.session.bind fun s => q.sessions[s]?).map (·.config.sessionId) = some sessionId then
    { q with session := none }
  else q

/-- The receive session that takes an upload. -/
def accepts (q : Isolate) (sessionId fileId : String) : Option ℕ :=
  q.session.filter fun s =>
    (uploadAllowed (q.sessions[s]?.map (·.config)) sessionId fileId).isSome

/-- The upload is put into the queue of its file. -/
def enqueue (q : Isolate) (s : ℕ) (sessionId fileId : String) (file : FileDto) : Isolate :=
  match q.sessions[s]? with
  | some session =>
      let k := q.uploads.length
      let queue := session.queue fileId
      let q := { q with
        uploads := q.uploads ++ [⟨s, sessionId, fileId, file, .queued, none⟩]
        sessions := q.sessions.set s
          { session with uploads := session.uploads.insert fileId (queue.add k) } }
      -- without one that is running, the queue starts it at once
      if queue.running = none then q.start k else q
  | none => q

/-- An empty map accepts nothing. -/
def decided (q : Isolate) (config : Option HttpServerReceiveConfig) : Isolate :=
  match config.filter fun config => !config.fileNameMap.isEmpty with
  | some config =>
      { q with sessions := q.sessions ++ [.new config], session := some q.sessions.length }
  | none => { q with session := none }

/-- The place of the file is set for this attempt and for those after it. -/
def setTarget (q : Isolate) (k : ℕ) (u : Upload) (target : FileSaveTarget) : Isolate :=
  { q with
    uploads := q.uploads.set k { u with point := .responding target, target := some target }
    sessions := q.sessions.modify u.session fun session =>
      { session with targets := session.targets.insert u.fileId target } }

def prepared (q : Isolate) (k : ℕ) (u : Upload) : Except String FileSaveTarget → Isolate
  | .ok target => q.setTarget k u target
  | .error error => q.setPoint k u (.failing error)

def report (q : Isolate) (k : ℕ) (u : Upload) (path : Option String) (savedToGallery : Bool)
    (error : Option String) : Isolate :=
  (q.setPoint k u .reported).emit (some k)
    (.fileUploadResult u.sessionId u.fileId path savedToGallery error)

/-- The loop of the queue awaited this upload. -/
def drain (q : Isolate) (k : ℕ) (u : Upload) : Isolate :=
  match q.sessions[u.session]? with
  | some session =>
      let queue := session.queue u.fileId
      let q := { q.setPoint k u .done with
        sessions := q.sessions.set u.session
          { session with uploads := session.uploads.insert u.fileId queue.drain } }
      match queue.queue with
      | [] => q
      | next :: _ => q.start next
  | none => q.setPoint k u .done

end Isolate

/-! ## §5  Events and messages -/

/-- The bridge and the server isolate. -/
structure State where
  bridge : Bridge
  isolate : Isolate

def State.init : State := ⟨.new, .new⟩

/-- The isolate tells the main isolate something that is not about one upload. -/
def State.tell (p : State) (event : HttpServerEvent) : State :=
  { p with isolate := p.isolate.emit none event }

/-- One event of the stream, handled without an await. -/
def State.onEvent (p : State) : RsServerEvent → State
  | .register ip info => p.tell (.register ip info)
  | .prepareUpload sessionId ip info certFingerprint files =>
      -- a new request means the old session is over
      { p with isolate := { p.isolate with session := none } }.tell
        (.prepareUpload sessionId ip info certFingerprint files)
  | .fileUpload sessionId fileId file =>
      match p.isolate.accepts sessionId fileId with
      | none => { p with bridge := p.bridge.call (.cancelSession sessionId) }
      | some s => { p with isolate := p.isolate.enqueue s sessionId fileId file }
  | .sessionEnd sessionId reason =>
      { p with isolate := p.isolate.endSession sessionId }.tell (.sessionEnd sessionId reason)
  | .prepareUploadAborted sessionId => p.tell (.prepareUploadAborted sessionId)
  | .cancelReceived ip sessionId => p.tell (.cancelReceived ip sessionId)

def State.event (p : State) : Option State :=
  match p.bridge.sink with
  | [] => none
  | event :: sink => some ({ p with bridge := { p.bridge with sink } }.onEvent event)

/-- `HttpServerPrepareUploadDecisionTask`. -/
def State.onDecision (p : State) (config : Option HttpServerReceiveConfig) : State :=
  let acceptedFileIds := config.map fun config => config.fileNameMap.keys
  ⟨p.bridge.call (.respondPrepareUpload acceptedFileIds), p.isolate.decided config⟩

/-- `HttpServerCancelSessionTask`. -/
def State.onCancel (p : State) (sessionId : String) : State :=
  ⟨p.bridge.call (.cancelSession sessionId), p.isolate.endSession sessionId⟩

/-! ## §6  The handler of an upload -/

/-- What the awaited call of a handler comes to. -/
inductive UploadAct where
  /-- `prepareFileSaveTarget` is over. -/
  | prepare (prepared : Except String FileSaveTarget)
  /-- `reopenFileSaveTarget` is over; this is the descriptor. -/
  | reopen (opened : Except String ℕ)
  /-- The bridge takes the call. -/
  | call
  | save (saved : Except String Unit)
  /-- `saveCachedFileToGallery` is over. -/
  | move (moved : Except String (Bool × Option String))
  | report
  /-- The queue goes on. -/
  | drain

/-- Only the isolate changes. -/
def State.within (p : State) (isolate : Isolate) : State := { p with isolate }

def State.respond (android : Bool) (p : State) (k : ℕ) (u : Upload) (target : FileSaveTarget) :
    State :=
  match p.bridge.respondFileUpload android u.key target with
  | (bridge, .ok ()) => ⟨bridge, p.isolate.setPoint k u (.saving target)⟩
  | (bridge, .error error) => ⟨bridge, p.isolate.setPoint k u (.failed error)⟩

/-- `_handleFileUpload`. -/
def State.handle (android : Bool) (p : State) (k : ℕ) (u : Upload) :
    UploadPoint → UploadAct → Option State
  | .preparing none, .prepare prepared => some (p.within (p.isolate.prepared k u prepared))
  | .preparing (some previous), .reopen opened =>
      some (p.within (p.isolate.prepared k u (reopenFileSaveTarget previous opened)))
  | .failing error, .call =>
      some ⟨p.bridge.dropUploads fun key => key = u.key, p.isolate.setPoint k u (.failed error)⟩
  | .responding target, .call => some (p.respond android k u target)
  | .saving _, .save (.error error) => some (p.within (p.isolate.setPoint k u (.failed error)))
  | .saving target, .save (.ok ()) =>
      p.isolate.sessions[u.session]?.map fun session => p.within
        (if shouldSaveToGallery session.config u.file then
          p.isolate.setPoint k u (.moving target)
        else p.isolate.report k u (some target.displayPath) false none)
  | .moving _, .move (.error error) => some (p.within (p.isolate.setPoint k u (.failed error)))
  | .moving _, .move (.ok (savedToGallery, path)) =>
      some (p.within (p.isolate.report k u path savedToGallery none))
  | .failed error, .report => some (p.within (p.isolate.report k u none false (some error)))
  | .reported, .drain => some (p.within (p.isolate.drain k u))
  | _, _ => none

/-! ## §7  One step -/

/-- The first four come from elsewhere: the server sends an event, a request is over, and
the application decides or cancels. -/
inductive Label where
  | server (event : ServerEventV2)
  | requestEnds (tx : ℕ)
  | decision (config : Option HttpServerReceiveConfig)
  | cancel (sessionId : String)
  | listen
  | event
  | call (k : ℕ)
  | upload (k : ℕ) (a : UploadAct)

def Label.isInternal : Label → Bool
  | .server _ | .requestEnds _ | .decision _ | .cancel _ => false
  | .listen | .event | .call _ | .upload _ _ => true

def step (android : Bool) (p : State) : Label → Option State
  | .server event => (p.bridge.arrive event).map fun bridge => { p with bridge }
  | .requestEnds tx => some { p with bridge := p.bridge.settle tx .ended }
  | .decision config => some (p.onDecision config)
  | .cancel sessionId => some (p.onCancel sessionId)
  | .listen => p.bridge.listen.map fun bridge => { p with bridge }
  | .event => p.event
  | .call k => (p.bridge.runCall k).map fun bridge => { p with bridge }
  | .upload k a => p.isolate.uploads[k]?.bind fun u => p.handle android k u u.point a

end Receiving

end FireBoxTransfer

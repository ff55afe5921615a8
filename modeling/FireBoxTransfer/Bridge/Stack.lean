import FireBoxTransfer.Core.ServerV2Ownership

/-!
# The server, the bridge and the server isolate

The application does not talk to the v2 server. `RsHttpServer` listens to its
events, keeps the responder of each event and hands the event on; the server
isolate consumes that stream, decides about uploads on its own and forwards
events to the main isolate. Answers go the other way: a message to the
isolate, a call of the bridge, a responder. Every hop is a queue of its own,
and the calls of the bridge run concurrently.
-/

namespace FireBoxTransfer

open TaskPool

/-! ## §1  Answers and events -/

/-- Everything the isolate needs to receive the accepted files. -/
structure HttpServerReceiveConfig where
  sessionId : String
  fileNameMap : AssocMap String String
  destinationDirectory : String
  cacheDirectory : String
  saveToGallery : Bool
  androidSdkInt : Option ℕ
deriving DecidableEq

/-- What the application answers. The message of a decline carries nothing;
`decline` remembers which session the application declined. -/
inductive Answer where
  | accept (config : HttpServerReceiveConfig)
  | decline (sessionId : String)
deriving DecidableEq

/-- The session the answer is given for. -/
def Answer.session : Answer → String
  | .accept config => config.sessionId
  | .decline sessionId => sessionId

/-- The `config` of `HttpServerPrepareUploadDecisionTask`. -/
def Answer.config : Answer → Option HttpServerReceiveConfig
  | .accept config => some config
  | .decline _ => none

/-- `respond_prepare_upload` turns the accepted identifiers into a decision. -/
def Answer.decision (a : Answer) : PrepareUploadDecisionV2 :=
  match a.config.map fun config => config.fileNameMap.keys with
  | some ids => .accept ids
  | none => .decline

/-- What the bridge hands on: the events of the server without responders. -/
inductive RsServerEvent where
  | register (ip : PeerIp) (info : RegisterDtoV2)
  | prepareUpload (sessionId : String) (ip : PeerIp) (info : RegisterDtoV2)
      (certFingerprint : Option String) (files : AssocMap String FileDto)
  | fileUpload (sessionId fileId : String) (file : FileDto)
  | sessionEnd (sessionId : String) (reason : SessionEndReasonV2)
  | prepareUploadAborted (sessionId : String)
  | cancelReceived (ip : PeerIp) (sessionId : String)
deriving DecidableEq

def ServerEventV2.toRs : ServerEventV2 → RsServerEvent
  | .register ip info => .register ip info
  | .prepareUpload sessionId ip info certFingerprint files _ =>
      .prepareUpload sessionId ip info certFingerprint files
  | .fileUpload sessionId fileId file _ => .fileUpload sessionId fileId file
  | .sessionEnd sessionId reason => .sessionEnd sessionId reason
  | .prepareUploadAborted sessionId => .prepareUploadAborted sessionId
  | .cancelReceived ip sessionId => .cancelReceived ip sessionId

/-- What the isolate tells the main isolate. -/
inductive HttpServerEvent where
  | register (ip : PeerIp) (info : RegisterDtoV2)
  | prepareUpload (sessionId : String) (ip : PeerIp) (info : RegisterDtoV2)
      (certFingerprint : Option String) (files : AssocMap String FileDto)
  | fileUpload (sessionId fileId : String) (file : FileDto)
  | fileUploadResult (sessionId fileId : String) (path : Option String)
      (savedToGallery : Bool) (error : Option String)
  | sessionEnd (sessionId : String) (reason : SessionEndReasonV2)
  | prepareUploadAborted (sessionId : String)
  | cancelReceived (ip : PeerIp) (sessionId : String)
deriving DecidableEq

/-! ## §2  The bridge -/

/-- Where `listen` stands: it waits for an event, for the lock under which
the event's responder is stored, or it is about to hand the event on. -/
inductive ListenLoop where
  | recv
  | handle (event : ServerEventV2)
  | emit (event : RsServerEvent)
deriving DecidableEq

/-- Calls of the bridge that have not finished. `cancelling` waits for the
task of the server that `cancel_session` started. -/
inductive BridgeCall where
  | respondPrepareUpload (answer : Answer)
  | cancelSession (sessionId : String)
  | cancelling (sessionId : String) (task : ℕ)
deriving DecidableEq

/-- `RsHttpServer`, with its event stream and the calls in flight. -/
structure Bridge where
  loop : ListenLoop
  pendingDecision : Option (String × ℕ)
  pendingUploads : AssocMap (String × String) ℕ
  sink : List RsServerEvent
  calls : List BridgeCall

/-! ## §3  The isolate -/

/-- The messages of the main isolate about receiving. -/
inductive HttpServerTask where
  | prepareUploadDecision (answer : Answer)
  | cancelSession (sessionId : String)
deriving DecidableEq

inductive UploadPhase where
  | queued | preparing | saving
deriving DecidableEq

/-- An upload the isolate let through, with the session it belongs to. -/
structure FileUpload where
  config : HttpServerReceiveConfig
  sessionId : String
  fileId : String
  file : FileDto
  phase : UploadPhase
deriving DecidableEq

/-- The server isolate: the holder of the receive session, the messages it
has yet to read and the uploads it works on. -/
structure ServerIsolate where
  session : Option HttpServerReceiveConfig
  tasks : List HttpServerTask
  uploads : List FileUpload

/-! ## §4  The stack -/

/-- The three layers, the events under way to the main isolate and, as a
history, every answer sent on a decision channel. -/
structure Stack where
  core : ServerPool
  bridge : Bridge
  isolate : ServerIsolate
  toMain : List HttpServerEvent
  answered : List (ℕ × Answer)

def Stack.init (pin : Option String) (verifyChecksums : Bool) (cap : ℕ) : Stack where
  core := .init pin verifyChecksums cap
  bridge := ⟨.recv, none, .empty, [], []⟩
  isolate := ⟨none, [], []⟩
  toMain := []
  answered := []

/-- The bridge uses a channel or a function of the server; a channel that was
already used is left alone. -/
def Stack.use (X : Externals) (p : Stack) (e : Env) : Stack :=
  match serverStep X p.core (.env e) with
  | some core => { p with core }
  | none => p

def Stack.dropTargets (X : Externals) : Stack → List ℕ → Stack
  | p, [] => p
  | p, tx :: txs => Stack.dropTargets X (p.use X (.dropTarget tx)) txs

/-! ## §5  The listen loop -/

/-- Drop the upload responders whose key satisfies `q`. -/
def Stack.dropUploads (X : Externals) (p : Stack) (q : String × String → Bool) : Stack :=
  let stale := p.bridge.pendingUploads.filter fun key _ => q key
  let kept := p.bridge.pendingUploads.filter fun key _ => !q key
  { p with bridge := { p.bridge with pendingUploads := kept } }.dropTargets X stale.values

/-- The part of `handle_server_event` before the event is handed on. -/
def Stack.store (X : Externals) (p : Stack) : ServerEventV2 → Stack
  | .prepareUpload sessionId _ _ _ _ decisionTx =>
      -- a responder that is still stored is dropped
      let p := match p.bridge.pendingDecision with
        | some (_, tx) => p.use X (.dropDecision tx)
        | none => p
      { p with bridge := { p.bridge with pendingDecision := some (sessionId, decisionTx) } }
  | .fileUpload sessionId fileId _ targetTx =>
      let p := match p.bridge.pendingUploads.get? (sessionId, fileId) with
        | some tx => p.use X (.dropTarget tx)
        | none => p
      { p with bridge := { p.bridge with
        pendingUploads := p.bridge.pendingUploads.insert (sessionId, fileId) targetTx } }
  | .sessionEnd sessionId _ => p.dropUploads X fun key => key.1 = sessionId
  | .prepareUploadAborted sessionId =>
      match p.bridge.pendingDecision with
      | some (sid, tx) =>
          if sid = sessionId then
            let p := p.use X (.dropDecision tx)
            { p with bridge := { p.bridge with pendingDecision := none } }
          else p
      | none => p
  | .register _ _ | .cancelReceived _ _ => p

def Stack.setLoop (p : Stack) (loop : ListenLoop) : Stack :=
  { p with bridge := { p.bridge with loop } }

def Stack.listen (X : Externals) (p : Stack) : Option Stack :=
  match p.bridge.loop with
  | .recv =>
      match p.core.shared.events.queue with
      | [] => none
      | event :: _ => some ((p.use X .recv).setLoop (.handle event))
  | .handle event => some ((p.store X event).setLoop (.emit event.toRs))
  | .emit event =>
      some { p with bridge := { p.bridge with
        loop := .recv, sink := p.bridge.sink ++ [event] } }

/-! ## §6  The isolate -/

def Stack.emit (p : Stack) (event : HttpServerEvent) : Stack :=
  { p with toMain := p.toMain ++ [event] }

def Stack.call (p : Stack) (call : BridgeCall) : Stack :=
  { p with bridge := { p.bridge with calls := p.bridge.calls ++ [call] } }

def Stack.setSession (p : Stack) (session : Option HttpServerReceiveConfig) : Stack :=
  { p with isolate := { p.isolate with session } }

/-- `holder.session = null` if it is the session with this identifier. -/
def Stack.endSession (p : Stack) (sessionId : String) : Stack :=
  if p.isolate.session.map (·.sessionId) = some sessionId then p.setSession none else p

/-- An upload is let through if the holder has its session and its file. -/
def uploadAllowed (session : Option HttpServerReceiveConfig) (sessionId fileId : String) :
    Option HttpServerReceiveConfig :=
  session.filter fun config =>
    config.sessionId = sessionId && (config.fileNameMap.get? fileId).isSome

/-- One event of the stream, handled without an await. -/
def Stack.onEvent (p : Stack) : RsServerEvent → Stack
  | .register ip info => p.emit (.register ip info)
  | .prepareUpload sessionId ip info certFingerprint files =>
      -- a new request means the old session is over
      (p.setSession none).emit (.prepareUpload sessionId ip info certFingerprint files)
  | .fileUpload sessionId fileId file =>
      match uploadAllowed p.isolate.session sessionId fileId with
      | none => p.call (.cancelSession sessionId)
      | some config =>
          { p with isolate := { p.isolate with
            uploads := p.isolate.uploads ++ [⟨config, sessionId, fileId, file, .queued⟩] } }
  | .sessionEnd sessionId reason => (p.endSession sessionId).emit (.sessionEnd sessionId reason)
  | .prepareUploadAborted sessionId => p.emit (.prepareUploadAborted sessionId)
  | .cancelReceived ip sessionId => p.emit (.cancelReceived ip sessionId)

/-- A message of the main isolate, up to the call of the bridge. -/
def Stack.onTask (p : Stack) : HttpServerTask → Stack
  | .prepareUploadDecision answer =>
      -- an empty map accepts nothing
      (p.setSession (answer.config.filter fun config => !config.fileNameMap.isEmpty)).call
        (.respondPrepareUpload answer)
  | .cancelSession sessionId => (p.endSession sessionId).call (.cancelSession sessionId)

def Stack.isolateEvent (p : Stack) : Option Stack :=
  match p.bridge.sink with
  | [] => none
  | event :: sink => some ({ p with bridge := { p.bridge with sink } }.onEvent event)

def Stack.isolateTask (p : Stack) : Option Stack :=
  match p.isolate.tasks with
  | [] => none
  | task :: tasks => some ({ p with isolate := { p.isolate with tasks } }.onTask task)

/-! ## §7  Calls of the bridge -/

def Stack.endCall (p : Stack) (k : ℕ) : Stack :=
  { p with bridge := { p.bridge with calls := p.bridge.calls.eraseIdx k } }

/-- `respond_prepare_upload` once it has the lock: whatever decision is
pending is resolved. -/
def Stack.respond (X : Externals) (p : Stack) (answer : Answer) : Stack :=
  match p.bridge.pendingDecision with
  | none => p
  | some (_, tx) =>
      let p := p.use X (.decide tx answer.decision)
      { p with
        bridge := { p.bridge with pendingDecision := none }
        answered := p.answered ++ [(tx, answer)] }

def Stack.runCall (X : Externals) (p : Stack) (k : ℕ) : Option Stack :=
  match p.bridge.calls[k]? with
  | none => none
  | some (.respondPrepareUpload answer) => some ((p.endCall k).respond X answer)
  | some (.cancelSession sessionId) =>
      let call := BridgeCall.cancelling sessionId p.core.tasks.length
      some ({ p with bridge := { p.bridge with
        calls := p.bridge.calls.set k call } }.use X (.cancelV2Session sessionId))
  | some (.cancelling sessionId task) =>
      match p.core.tasks[task]? with
      | some (.returned _) =>
          some ((p.endCall k).dropUploads X fun key => key.1 = sessionId)
      | _ => none

/-! ## §8  Uploads -/

/-- How an upload of the isolate goes on. Uploads of one file start one after
the other in the source; here a queued one may start at any time. -/
inductive UploadAct where
  | start
  | respond (target : FileUploadTarget)
  | fail (error : String)
  | result (path : Option String) (savedToGallery : Bool) (error : Option String)
deriving DecidableEq

def Stack.setUpload (p : Stack) (k : ℕ) (u : FileUpload) : Stack :=
  { p with isolate := { p.isolate with uploads := p.isolate.uploads.set k u } }

def Stack.endUpload (p : Stack) (k : ℕ) : Stack :=
  { p with isolate := { p.isolate with uploads := p.isolate.uploads.eraseIdx k } }

def FileUpload.result (u : FileUpload) (path : Option String) (savedToGallery : Bool)
    (error : Option String) : HttpServerEvent :=
  .fileUploadResult u.sessionId u.fileId path savedToGallery error

def Stack.removeUpload (p : Stack) (key : String × String) : Stack :=
  { p with bridge := { p.bridge with
    pendingUploads := p.bridge.pendingUploads.filter fun key' _ => key' ≠ key } }

/-- `_handleFileUpload`. -/
def Stack.runUpload (X : Externals) (p : Stack) (k : ℕ) (u : FileUpload) :
    UploadPhase → UploadAct → Option Stack
  | .queued, .start =>
      some ((p.setUpload k { u with phase := .preparing }).emit
        (.fileUpload u.sessionId u.fileId u.file))
  | .preparing, .respond target =>
      match p.bridge.pendingUploads.get? (u.sessionId, u.fileId) with
      | none =>
          some ((p.endUpload k).emit
            (u.result none false (some "No pending file upload for this file")))
      | some tx =>
          some (((p.setUpload k { u with phase := .saving }).removeUpload
            (u.sessionId, u.fileId)).use X (.answerTarget tx target))
  | .preparing, .fail error =>
      some (((p.endUpload k).dropUploads X fun key => key = (u.sessionId, u.fileId)).emit
        (u.result none false (some error)))
  | .saving, .result path savedToGallery error =>
      some ((p.endUpload k).emit (u.result path savedToGallery error))
  | _, _ => none

/-! ## §9  One step -/

/-- The labels of the server that the bridge has no part in: its tasks go on
and requests arrive from the network. -/
def ServerLabel.external : ServerLabel → Bool
  | .task _ _ => true
  | .env (.prepareUpload _ _) | .env (.upload _ _) | .env (.cancel _ _)
  | .env (.register _ _) => true
  | .env _ => false

/-- `answer`, `cancelSession` and `take` are what the application does. -/
inductive StackLabel where
  | core (l : ServerLabel)
  | listen
  | event
  | task
  | call (k : ℕ)
  | upload (k : ℕ) (a : UploadAct)
  | answer (a : Answer)
  | cancelSession (sessionId : String)
  | take

def Stack.send (p : Stack) (task : HttpServerTask) : Stack :=
  { p with isolate := { p.isolate with tasks := p.isolate.tasks ++ [task] } }

def Stack.take (p : Stack) : Option (HttpServerEvent × Stack) :=
  match p.toMain with
  | [] => none
  | event :: toMain => some (event, { p with toMain })

def stackStep (X : Externals) (p : Stack) : StackLabel → Option Stack
  | .core l =>
      if ServerLabel.external l then (serverStep X p.core l).map fun core => { p with core }
      else none
  | .listen => p.listen X
  | .event => p.isolateEvent
  | .task => p.isolateTask
  | .call k => p.runCall X k
  | .upload k a => p.isolate.uploads[k]?.bind fun u => p.runUpload X k u u.phase a
  | .answer a => some (p.send (.prepareUploadDecision a))
  | .cancelSession sessionId => some (p.send (.cancelSession sessionId))
  | .take => p.take.map Prod.snd

end FireBoxTransfer

import FireBoxTransfer.Bridge.Decisions
import FireBoxTransfer.Cli.UploadTargets
import FireBoxTransfer.Core.ScopedHost
import FireBoxTransfer.Files.FreshNames

/-!
# The receiving side of the command line

The application takes the events of its v2 server one after the other. It asks
the user about a request, picks a free path for every upload as it arrives and
counts the results. Those come back on a channel of its own, in any order and at
any time, and only the one session that is received at the moment counts them.
-/

namespace FireBoxTransfer

open TaskPool Runs

namespace Cli

/-! ## §1  The application -/

/-- Where to reach the device a session originates from. -/
structure SenderTarget where
  host : String
  port : BitVec 16
  protocol : ProtocolType
  fingerprint : String
deriving DecidableEq

/-- A request that waits for the decision of the user. -/
structure PendingReceive where
  sessionId : String
  «alias» : String
  sender : SenderTarget
  files : AssocMap String FileDto
  decisionTx : ℕ

/-- An accepted session that is being received. `ended` is set when the server
has reported the end of the session. -/
structure ReceiveSession where
  sessionId : String
  «alias» : String
  sender : SenderTarget
  files : AssocMap String FileDto
  finishedFiles : ℕ
  failedFiles : ℕ
  finalizedBytes : BitVec 64
  inProgress : List String
  ended : Option SessionEndReasonV2

def ReceiveSession.new (sessionId : String) («alias» : String) (sender : SenderTarget)
    (files : AssocMap String FileDto) : ReceiveSession where
  sessionId := sessionId
  «alias» := «alias»
  sender := sender
  files := files
  finishedFiles := 0
  failedFiles := 0
  finalizedBytes := 0
  inProgress := []
  ended := none

/-- The active web link. -/
inductive WebMode where
  | share | receive
deriving DecidableEq

/-- What the log shows about receiving. -/
inductive LogLine where
  | message («alias» text : String)
  | request («alias» : String) (files : List FileDto) (pairing : Bool)
  | youAccepted («alias» : String)
  | youDeclined («alias» : String)
  | paired («alias» : String)
  | alreadyEnded («alias» : String)
  | abortedBySender («alias» : String)
  | failed («alias» name error : String)
  | received («alias» : String) (finished : ℕ) (bytes : BitVec 64) (failed : ℕ)
  | cancelledBySender («alias» : String) (finished total : ℕ)
  | cancelled («alias» : String) (finished total : ℕ)
deriving DecidableEq

structure App where
  destination : String
  pairedDevices : List String
  web : Option WebMode
  pending : Option PendingReceive
  receive : Option ReceiveSession
  log : List LogLine

/-- The text of a message request: its single text file comes with its content. -/
def messageOf (files : AssocMap String FileDto) : Option String :=
  match files.values with
  | [file] =>
      if file.fileType ≠ "text" ∧ ¬ "text/".toList.isPrefixOf file.fileType.toList then none
      else file.preview
  | _ => none

/-! ## §2  The application and its server -/

/-- The file that the server writes for an upload: its path is not opened yet, it
is about to be created, or it was created. -/
inductive TargetFile where
  | unopened | opening | created
deriving DecidableEq

/-- An upload that was given a path: what became of it (`outcome`), and what the
application heard of that (`result`). -/
structure Attempt where
  sessionId : String
  fileId : String
  targetTx : ℕ
  path : String
  file : TargetFile
  outcome : Option SaveResult
  result : Option (Except String Unit)

/-- The application with its server and the content of the destination. The rest
is history: the events it has taken, the sessions it has started to receive with
their files, the results it has counted, the summaries, and the cancel requests it
has sent. -/
structure Receiver where
  core : ServerPool
  app : App
  directory : List String
  attempts : List Attempt
  received : List ServerEventV2
  accepted : List (String × AssocMap String FileDto)
  counted : List (String × String × Bool)
  reported : List (String × LogLine)
  notified : List (SenderTarget × String)

/-- The server is started with these values. -/
def Receiver.init (destination : String) (pairedDevices : List String)
    (web : Option WebMode) (directory : List String) : Receiver where
  core := .init none true 16
  app := ⟨destination, pairedDevices, web, none, none, []⟩
  directory := directory
  attempts := []
  received := []
  accepted := []
  counted := []
  reported := []
  notified := []

/-- A channel or a function of the server is used; a channel that was used before
is left alone. -/
def Receiver.use (X : Externals) (p : Receiver) (e : Env) : Receiver :=
  match serverStep X p.core (.env e) with
  | some core => { p with core }
  | none => p

def Receiver.setReceive (p : Receiver) (receive : Option ReceiveSession) : Receiver :=
  { p with app := { p.app with receive } }

def Receiver.setPending (p : Receiver) (pending : Option PendingReceive) : Receiver :=
  { p with app := { p.app with pending } }

def Receiver.print (p : Receiver) (line : LogLine) : Receiver :=
  { p with app := { p.app with log := p.app.log ++ [line] } }

/-- The session that is received, if it is the one with this identifier. -/
def Receiver.current (p : Receiver) (sessionId : String) : Option ReceiveSession :=
  p.app.receive.filter fun session => session.sessionId = sessionId

/-- The log shows how a session ended. -/
def Receiver.report (p : Receiver) (sessionId : String) (line : LogLine) : Receiver :=
  { p.print line with reported := p.reported ++ [(sessionId, line)] }

/-! ## §3  Results and the summary -/

def ReceiveSession.summary (session : ReceiveSession) : SessionEndReasonV2 → LogLine
  | .finished =>
      .received session.«alias» session.finishedFiles session.finalizedBytes session.failedFiles
  | .cancelled =>
      .cancelledBySender session.«alias» session.finishedFiles session.files.entries.length

/-- Shows the summary and clears the session once the server reported its end and no
result is outstanding. -/
def Receiver.finishReceiveIfDone (p : Receiver) : Receiver :=
  match p.app.receive with
  | none => p
  | some session =>
      match session.ended with
      | none => p
      | some reason =>
          if session.inProgress.isEmpty then
            (p.setReceive none).report session.sessionId (session.summary reason)
          else p

/-- The counters after the result of a file. -/
def ReceiveSession.settle (session : ReceiveSession) (fileId : String) :
    Except String Unit → ReceiveSession
  | .ok () =>
      { session with
        inProgress := session.inProgress.filter (· ≠ fileId)
        finishedFiles := session.finishedFiles + 1
        finalizedBytes :=
          session.finalizedBytes + ((session.files.get? fileId).map (·.size)).getD 0 }
  | .error _ =>
      { session with
        inProgress := session.inProgress.filter (· ≠ fileId)
        failedFiles := session.failedFiles + 1 }

/-- What the log shows of a result. -/
def ReceiveSession.showResult (session : ReceiveSession) (fileId : String) (p : Receiver) :
    Except String Unit → Receiver
  | .ok () => p
  | .error err =>
      p.print (.failed session.«alias»
        (((session.files.get? fileId).map (·.fileName)).getD fileId) err)

def Receiver.receiveFileResult (p : Receiver) (sessionId fileId : String)
    (result : Except String Unit) : Receiver :=
  match p.current sessionId with
  | none => p
  | some session =>
      let p := p.setReceive (some (session.settle fileId result))
      let p := { p with counted := p.counted ++ [(sessionId, fileId, result.toBool)] }
      (session.showResult fileId p result).finishReceiveIfDone

/-! ## §4  The events of the server -/

/-- `decision_tx.send`, and whether a handler was there to receive it. -/
def Receiver.sendDecision (X : Externals) (p : Receiver) (decisionTx : ℕ)
    (decision : PrepareUploadDecisionV2) : Receiver × Bool :=
  if p.core.tasks.any (Task.awaits decisionTx) then
    (p.use X (.decide decisionTx decision), true)
  else (p.use X (.dropDecision decisionTx), false)

def Receiver.startReceive (p : Receiver) (session : ReceiveSession) : Receiver :=
  { p.setReceive (some session) with
    accepted := p.accepted ++ [(session.sessionId, session.files)] }

/-- The sender of a request; over TLS its certificate says who it is. -/
def senderTarget (ip : PeerIp) (info : RegisterDtoV2) (certFingerprint : Option String) :
    SenderTarget where
  host := ip.text
  port := info.port
  protocol := info.protocol
  fingerprint := certFingerprint.getD info.fingerprint

/-- A request that is put aside for another one is dropped. -/
def Receiver.dropPending (X : Externals) (p : Receiver) : Receiver :=
  match p.app.pending with
  | none => p
  | some pending => (p.setPending none).use X (.dropDecision pending.decisionTx)

def Receiver.handlePrepareUpload (X : Externals) (p : Receiver) (sessionId : String)
    (ip : PeerIp) (info : RegisterDtoV2) (certFingerprint : Option String)
    (files : AssocMap String FileDto) (decisionTx : ℕ) : Receiver :=
  match messageOf files with
  | some message =>
      -- nothing to transfer: no file is accepted, which ends the session
      (p.sendDecision X decisionTx (.accept [])).1.print (.message info.«alias» message)
  | none =>
      let sender := senderTarget ip info certFingerprint
      if p.app.pairedDevices.contains sender.fingerprint then
        let (p, sent) := p.sendDecision X decisionTx (.accept files.keys)
        if sent then p.startReceive (.new sessionId info.«alias» sender files) else p
      else
        let p := p.print (.request info.«alias» files.values (p.app.web ≠ some .receive))
        (p.dropPending X).setPending (some ⟨sessionId, info.«alias», sender, files, decisionTx⟩)

/-- A path for an upload of the current session; `none` when no name is free. -/
def Receiver.handleFileUpload (X : Externals) (P : SavePlatform) (p : Receiver)
    (sessionId fileId : String) (file : FileDto) (targetTx : ℕ) : Option Receiver :=
  match p.current sessionId with
  | none => some (p.use X (.dropTarget targetTx))
  | some session =>
      (P.uniquePathIn p.directory p.app.destination file.fileName).map fun path =>
        let p := p.setReceive
          (some { session with inProgress := session.inProgress.insert fileId })
        let attempt : Attempt := ⟨sessionId, fileId, targetTx, path, .unopened, none, none⟩
        { p with attempts := p.attempts ++ [attempt] }.use X (.answerTarget targetTx (.path path))

def Receiver.handleSessionEnd (p : Receiver) (sessionId : String)
    (reason : SessionEndReasonV2) : Receiver :=
  match p.current sessionId with
  | none => p
  | some session =>
      (p.setReceive (some { session with ended := some reason })).finishReceiveIfDone

/-- Only the request that waits for its decision is looked at. -/
def Receiver.handleAborted (X : Externals) (p : Receiver) (sessionId : String) : Receiver :=
  match p.app.pending with
  | none => p
  | some pending =>
      if pending.sessionId = sessionId then
        (p.dropPending X).print (.abortedBySender pending.«alias»)
      else p

def Receiver.handleServerEvent (X : Externals) (P : SavePlatform) (p : Receiver) :
    ServerEventV2 → Option Receiver
  | .prepareUpload sessionId ip info certFingerprint files decisionTx =>
      some (p.handlePrepareUpload X sessionId ip info certFingerprint files decisionTx)
  | .fileUpload sessionId fileId file targetTx =>
      p.handleFileUpload X P sessionId fileId file targetTx
  | .sessionEnd sessionId reason => some (p.handleSessionEnd sessionId reason)
  | .prepareUploadAborted sessionId => some (p.handleAborted X sessionId)
  | .register _ _ | .cancelReceived _ _ => some p

/-! ## §5  The keys -/

/-- The user's decision on a request. -/
inductive Answer where
  | accept | decline | acceptAndPair
deriving DecidableEq

/-- While "receive via link" is on nobody is paired. -/
def Receiver.pair (p : Receiver) (pending : PendingReceive) : Answer → Receiver
  | .acceptAndPair =>
      if p.app.web = some .receive then p
      else
        { p with app := { p.app with
          pairedDevices := p.app.pairedDevices ++ [pending.sender.fingerprint] } }.print
            (.paired pending.«alias»)
  | .accept | .decline => p

def Receiver.answerPending (X : Externals) (p : Receiver) (answer : Answer) : Receiver :=
  match p.app.pending with
  | none => p
  | some pending =>
      let p := p.setPending none
      match answer with
      | .decline =>
          (p.sendDecision X pending.decisionTx .decline).1.print (.youDeclined pending.«alias»)
      | answer =>
          let p := (p.print (.youAccepted pending.«alias»)).pair pending answer
          let (p, sent) := p.sendDecision X pending.decisionTx (.accept pending.files.keys)
          if sent then
            p.startReceive
              (.new pending.sessionId pending.«alias» pending.sender pending.files)
          else p.print (.alreadyEnded pending.«alias»)

/-- The active session is cancelled and summed up at once. -/
def Receiver.cancelReceive (X : Externals) (p : Receiver) : Receiver :=
  match p.app.receive with
  | none => p
  | some session =>
      let p := { p.setReceive none with
        notified := p.notified ++ [(session.sender, session.sessionId)] }
      (p.use X (.cancelV2Session session.sessionId)).report session.sessionId
        (.cancelled session.«alias» session.finishedFiles session.files.entries.length)

def Receiver.handleCtrlC (X : Externals) (p : Receiver) : Receiver :=
  (p.answerPending X .decline).cancelReceive X

/-! ## §6  One step -/

/-- The tasks of the server go on and requests arrive; the application takes an
event; keys are pressed; a file is created; the result of an upload is handed to
the application, with the text of its error; somebody else changes the
destination. -/
inductive ReceiverLabel where
  | core (l : ServerLabel)
  | event
  | answer (answer : Answer)
  | ctrlC
  | create (k : ℕ)
  | result (k : ℕ) (err : String)
  | disk (content : List String)

/-- What a step of the server means for an upload: its file is about to be created,
or it has an outcome. -/
def Attempt.follow (c c' : ServerPool) (l : ServerLabel) (a : Attempt) : Attempt :=
  match l with
  | .task i (.saved result) =>
      match c.tasks[i]? with
      | some (.upload (.save ctx _ _)) =>
          if a.targetTx = ctx.targetRx then { a with outcome := some result } else a
      | _ => a
  | .task i .go =>
      match c.tasks[i]?, c'.tasks[i]? with
      | some (.upload (.target ctx)), some (.upload (.save _ _ _)) =>
          if a.targetTx = ctx.targetRx then { a with file := .opening } else a
      | _, _ => a
  | _ => a

/-- A file whose content was compared was created. -/
def Receiver.fileExists (p : Receiver) : ServerLabel → Bool
  | .task i (.saved result) =>
      match p.core.tasks[i]? with
      | some (.upload (.save ctx _ _)) =>
          result = .failed ||
            p.attempts.all fun a => a.targetTx ≠ ctx.targetRx || a.file = .created
      | _ => true
  | _ => true

/-- What comes out of the channel for the result of an upload: nothing as long as
its handler is at work. -/
def Receiver.resultOf (p : Receiver) (a : Attempt) (err : String) :
    Option (Except String Unit) :=
  match a.outcome with
  | some .success => some (.ok ())
  | some .hashMismatch => some (.error "Checksum mismatch")
  | some .failed => some (.error err)
  | none =>
      if p.core.tasks.any (Task.holdsTarget a.targetTx) then none
      else some (.error "Upload aborted")

def Receiver.take (X : Externals) (p : Receiver) (event : ServerEventV2) : Receiver :=
  { p.use X .recv with received := p.received ++ [event] }

def Receiver.setAttempt (p : Receiver) (k : ℕ) (a : Attempt) : Receiver :=
  { p with attempts := p.attempts.set k a }

def receiverStep (X : Externals) (P : SavePlatform) (p : Receiver) :
    ReceiverLabel → Option Receiver
  | .core l =>
      if l.external && p.fileExists l then
        (serverStep X p.core l).map fun core =>
          { p with core, attempts := p.attempts.map (Attempt.follow p.core core l) }
      else none
  | .event =>
      match p.core.shared.events.queue with
      | [] => none
      | event :: _ => (p.take X event).handleServerEvent X P event
  | .answer answer => some (p.answerPending X answer)
  | .ctrlC => some (p.handleCtrlC X)
  | .create k =>
      (p.attempts[k]?).bind fun a =>
        if a.file = .opening then
          some { p.setAttempt k { a with file := .created } with
            directory := p.directory.insert a.path }
        else none
  | .result k err =>
      (p.attempts[k]?).bind fun a =>
        if a.result.isSome then none
        else
          (p.resultOf a err).map fun result =>
            (p.setAttempt k { a with result := some result }).receiveFileResult a.sessionId
              a.fileId result
  | .disk content => some { p with directory := content }

end Cli

end FireBoxTransfer

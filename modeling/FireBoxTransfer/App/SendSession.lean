import FireBoxTransfer.App.ReceiveSession
import FireBoxTransfer.Bridge.UploadTask

/-!
# The send sessions of the application

What the main isolate keeps of its outgoing transfers: the sessions, the tokens by which a
running calculation or request is cancelled, the statuses of the files, and the notification
that keeps the process alive.
-/

namespace FireBoxTransfer

/-! ## §1  The notification -/

/-- The transfers that run, sent or received, and the foreground service, which runs as long
as there is one. -/
structure TransferNotification where
  transfers : AssocMap String Bool
  service : Bool
  runs : service = !transfers.isEmpty

namespace TransferNotification

def none : TransferNotification := ⟨.empty, false, rfl⟩

def contains (t : TransferNotification) (sessionId : String) : Bool :=
  (t.transfers.get? sessionId).isSome

def start (t : TransferNotification) (sessionId : String) (receiving : Bool) :
    TransferNotification :=
  if t.contains sessionId then t
  else
    { transfers := t.transfers.insert sessionId receiving
      service := if t.transfers.isEmpty then true else t.service
      runs := by
        rw [AssocMap.isEmpty_insert, t.runs]
        cases t.transfers.isEmpty <;> rfl }

def stop (t : TransferNotification) (sessionId : String) : TransferNotification :=
  if h : t.contains sessionId then
    { transfers := t.transfers.filter fun id _ => id ≠ sessionId
      service :=
        if (t.transfers.filter fun id _ => id ≠ sessionId).isEmpty then false else t.service
      runs := by
        have hsome : t.transfers.isEmpty = false := by
          obtain ⟨receiving, hget⟩ := Option.isSome_iff_exists.mp h
          exact List.isEmpty_eq_false_iff_exists_mem.mpr
            ⟨(sessionId, receiving), AssocMap.get?_eq_some_iff.mp hget⟩
        rw [t.runs, hsome]
        cases (t.transfers.filter fun id _ => id ≠ sessionId).isEmpty <;> rfl }
  else t

theorem contains_start {t : TransferNotification} {sessionId other : String} {receiving : Bool} :
    (t.start sessionId receiving).contains other = (other = sessionId || t.contains other) := by
  unfold start
  by_cases h : t.contains sessionId = true
  · rw [if_pos h]
    by_cases heq : other = sessionId
    · subst heq
      simp [h]
    · simp [heq]
  · rw [if_neg h]
    show ((t.transfers.insert sessionId receiving).get? other).isSome = _
    rw [AssocMap.get?_insert]
    by_cases heq : other = sessionId <;> simp [contains, heq]

theorem contains_stop {t : TransferNotification} {sessionId other : String} :
    (t.stop sessionId).contains other = (other ≠ sessionId && t.contains other) := by
  unfold stop
  by_cases h : t.contains sessionId = true
  · rw [dif_pos h]
    show ((t.transfers.filter fun id _ => id ≠ sessionId).get? other).isSome = _
    rw [AssocMap.get?_filter_ne]
    by_cases heq : other = sessionId <;> simp [contains, heq]
  · rw [dif_neg h]
    by_cases heq : other = sessionId
    · subst heq
      simpa using h
    · simp [heq]

end TransferNotification

/-! ## §2  Sessions -/

/-- A file to send. Its `token` is set once the receiver has selected it. -/
structure SendingFile where
  file : FileDto
  token : Option String
  path : Option String
  bytes : Option (List (BitVec 8))
deriving DecidableEq

structure SendSessionState where
  remoteSessionId : Option String
  background : Bool
  status : SessionStatus
  files : AssocMap String SendingFile
  /-- The ids of the running upload tasks. -/
  sendingTasks : List ℕ
deriving DecidableEq

/-- What the upload isolate is asked to send: the files that are selected. -/
def uploadFiles (files : List SendingFile) : List HttpUploadFile :=
  files.filterMap fun file => file.token.map fun token =>
    ⟨token, file.file.id, file.path, file.bytes, file.file.size.toNat⟩

/-! ## §3  Statuses -/

namespace FileTransfers

variable {t : FileTransfers} {sessionId fileId : String}

/-- `getStatus`: a file that is not known is queued. -/
def getStatus (t : FileTransfers) (sessionId fileId : String) : FileStatus :=
  ((t.ofSession sessionId).get? fileId).getD .queue

theorem ofSession_setStatuses (t : FileTransfers) (sessionId : String)
    (statuses : List (String × FileStatus)) :
    (t.setStatuses sessionId statuses).ofSession sessionId =
      statuses.foldl (fun m e => m.insert e.1 e.2) (t.ofSession sessionId) := by
  simp [ofSession, setStatuses, AssocMap.get?_insert_self]

theorem ofSession_setStatus (t : FileTransfers) (sessionId fileId : String)
    (status : FileStatus) :
    (t.setStatus sessionId fileId status).ofSession sessionId =
      (t.ofSession sessionId).insert fileId status :=
  ofSession_setStatuses t sessionId _

theorem setProgress_of_known {status : FileStatus}
    (h : (t.ofSession sessionId).get? fileId = some status) :
    t.setProgress sessionId fileId = t := by
  unfold setProgress
  rw [h]

theorem ofSession_removeSession (t : FileTransfers) (sessionId : String) :
    (t.removeSession sessionId).ofSession sessionId = .empty := by
  unfold ofSession removeSession
  rw [AssocMap.get?_filter_ne, if_pos rfl]
  rfl

end FileTransfers

/-! ## §4  The provider -/

structure SendProvider where
  state : AssocMap String SendSessionState
  hashCancelTokens : AssocMap String Unit
  prepareUploadCancelTokens : AssocMap String Unit
  transfers : FileTransfers
  notification : TransferNotification

namespace SendProvider

variable (p : SendProvider) (sessionId : String)

/-- `updateSession` of a session that may be gone. -/
def updateSession (f : SendSessionState → SendSessionState) : SendProvider :=
  match p.state.get? sessionId with
  | some session => { p with state := p.state.insert sessionId (f session) }
  | none => p

def setStatus (status : SessionStatus) : SendProvider :=
  p.updateSession sessionId fun s => { s with status }

/-- An event of the upload isolate. -/
def onEvent : HttpUploadEvent → SendProvider
  | .started fileId => { p with transfers := p.transfers.setStatus sessionId fileId .sending }
  | .progress fileId => { p with transfers := p.transfers.setProgress sessionId fileId }
  | .finished fileId =>
      { p with
        transfers := (p.transfers.setProgress sessionId fileId).setStatus sessionId fileId
          .finished }
  | .failed fileId => { p with transfers := p.transfers.setStatus sessionId fileId .failed }

/-- The whole task failed: its files that did not finish are marked as failed. -/
def onTaskFailed (files : List HttpUploadFile) : SendProvider :=
  let failed := (files.map HttpUploadFile.fileId).filter fun id =>
    !(p.transfers.getStatus sessionId id).settled
  { p with transfers := p.transfers.setStatuses sessionId (failed.map fun id => (id, .failed)) }

/-- The task is over, one way or the other. -/
def removeTask (taskId : ℕ) : SendProvider :=
  p.updateSession sessionId fun s =>
    { s with sendingTasks := s.sendingTasks.filter fun id => id ≠ taskId }

/-! ## §5  Closing, cancelling and finishing a session -/

/-- The entries of all maps under the id of the session. -/
def closeSession : SendProvider :=
  match p.state.get? sessionId with
  | none => p
  | some _ =>
      { state := p.state.filter fun id _ => id ≠ sessionId
        hashCancelTokens := p.hashCancelTokens.filter fun id _ => id ≠ sessionId
        prepareUploadCancelTokens := p.prepareUploadCancelTokens.filter fun id _ => id ≠ sessionId
        transfers := p.transfers.removeSession sessionId
        notification := p.notification.stop sessionId }

/-- `_cancelRunningRequests`, apart from the upload tasks. -/
def cancelRunningRequests : SendProvider :=
  { p with
    hashCancelTokens := p.hashCancelTokens.filter fun id _ => id ≠ sessionId
    prepareUploadCancelTokens := p.prepareUploadCancelTokens.filter fun id _ => id ≠ sessionId }

/-- The receiver is told, if it knows of the session. -/
def cancelSession : SendProvider :=
  match p.state.get? sessionId with
  | none => p
  | some _ => (p.cancelRunningRequests sessionId).closeSession sessionId

def cancelSessionByReceiver : SendProvider :=
  match p.state.get? sessionId with
  | none => p
  | some _ =>
      ({ p with notification := p.notification.stop sessionId }.cancelRunningRequests
        sessionId).setStatus sessionId .canceledByReceiver

def clearAllSessions : SendProvider where
  state := .empty
  hashCancelTokens := .empty
  prepareUploadCancelTokens := .empty
  transfers := AssocMap.empty
  notification := p.state.keys.foldl TransferNotification.stop p.notification

/-- `_finish`. -/
def finish : SendProvider :=
  match p.state.get? sessionId with
  | none => p
  | some session =>
      let p := { p with notification := p.notification.stop sessionId }
      if session.status ≠ .sending then p
      else
        let hasError := (p.transfers.getStatuses sessionId).any fun status => status = .failed
        if !hasError && session.background then p.closeSession sessionId
        else p.setStatus sessionId (if hasError then .finishedWithErrors else .finished)

/-- From the answer of the receiver to the start of the upload: the statuses start anew, with
the files that are not selected as skipped. -/
def beginUpload (requestFiles : AssocMap String SendingFile) (fileMap : AssocMap String String) :
    SendProvider × AssocMap String SendingFile :=
  let sendingFiles := AssocMap.ofList (requestFiles.values.map fun file =>
    (file.file.id, match fileMap.get? file.file.id with
      | some token => { file with token := some token }
      | none => file))
  let transfers := (p.transfers.removeSession sessionId).setStatuses sessionId
    (sendingFiles.values.map fun file =>
      (file.file.id, if file.token.isSome then .queue else .skipped))
  let p := { p with transfers }.updateSession sessionId fun s =>
    { s with status := .sending, files := sendingFiles }
  ({ p with notification := p.notification.start sessionId false }, sendingFiles)

end SendProvider

end FireBoxTransfer

import FireBoxTransfer.Framework.TaskPool
import FireBoxTransfer.Core.Pin
import FireBoxTransfer.Core.Session

/-!
# The v2 receive server as a task pool

Every request handler, drop guard and call of the application is a task. A
task is the point at which it is suspended (an `.await` of the source) with
the locals it still needs; one step runs it to its next await. A step
accesses at most one thing the tasks share: the slot under its lock, the
event channel, a decision, a cancellation token. Suspended request handlers
may be dropped at any await, contended lock acquisitions included; spawned
clean-ups run to their end.
-/

namespace FireBoxTransfer

open TaskPool

/-! ## §1  What the server shares -/

/-- What the server takes from outside: the source of random identifiers,
which does not repeat one, and the fingerprint of a certificate. -/
structure Externals where
  uuid : ℕ → String
  uuid_injective : Function.Injective uuid
  fingerprintFromCertDer : CertDer → String

/-- Identifiers written in unary, for runs on concrete inputs. -/
def Externals.unary : Externals where
  uuid n := String.ofList (List.replicate n 'u')
  uuid_injective m n h := by
    have := congrArg (fun s => s.toList.length) h
    simpa using this
  fingerprintFromCertDer _ := ""

/-- The application's decision for a prepare-upload request. -/
inductive PrepareUploadDecisionV2 where
  | accept (ids : List String)
  | decline
deriving DecidableEq

/-- Why an upload session ended. -/
inductive SessionEndReasonV2 where
  | finished | cancelled
deriving DecidableEq

/-- Where the content of an uploaded file should go. -/
inductive FileUploadTarget where
  | stream
  | path (path : String)
  | fd (fd : ℕ)
deriving DecidableEq

/-- A one-shot channel, seen from its receiver. -/
inductive Oneshot (α : Type) where
  | waiting
  | sent (value : α)
  | dropped
deriving DecidableEq

/-! ## §2  Events -/

/-- Events emitted by the v2 server. `decisionTx` and `targetTx` name the
channel on which the application answers. -/
inductive ServerEventV2 where
  | register (ip : PeerIp) (info : RegisterDtoV2)
  | prepareUpload (sessionId : String) (ip : PeerIp) (info : RegisterDtoV2)
      (certFingerprint : Option String) (files : AssocMap String FileDto)
      (decisionTx : ℕ)
  | fileUpload (sessionId fileId : String) (file : FileDto) (targetTx : ℕ)
  | sessionEnd (sessionId : String) (reason : SessionEndReasonV2)
  | prepareUploadAborted (sessionId : String)
  | cancelReceived (ip : PeerIp) (sessionId : String)
deriving DecidableEq

/-- The bounded event channel; `closed` once the application dropped the
receiver. -/
structure EventChannel where
  queue : List ServerEventV2
  cap : ℕ
  closed : Bool
deriving DecidableEq

/-- `event_tx.send(event).await`: blocked on a full channel, an error on a
closed one. -/
def EventChannel.send (c : EventChannel) (event : ServerEventV2) :
    Option (Except Unit EventChannel) :=
  if c.closed then some (.error ())
  else if c.queue.length < c.cap then some (.ok { c with queue := c.queue ++ [event] })
  else none

theorem EventChannel.send_eq_ok {c c' : EventChannel} {event : ServerEventV2}
    (h : c.send event = some (.ok c')) : c' = { c with queue := c.queue ++ [event] } := by
  rw [EventChannel.send] at h
  split_ifs at h
  · cases h
  · exact (Except.ok.inj (Option.some.inj h)).symm

theorem EventChannel.send_eq_error {c : EventChannel} {event : ServerEventV2}
    (h : c.send event = some (.error ())) : c.closed = true := by
  rw [EventChannel.send] at h
  split_ifs at h with hclosed
  · exact hclosed
  · cases h

/-- The runtime state of the v2 endpoints, with the cancellation tokens, the
one-shot channels and the number of identifiers handed out so far. -/
structure ServerV2 where
  pin : Option String
  verifyChecksums : Bool
  events : EventChannel
  session : Option SessionStateV2
  pinAttempts : LruCache IpAddr ℕ
  cancelTokens : List Bool
  decisions : List (Oneshot PrepareUploadDecisionV2)
  targets : List (Oneshot FileUploadTarget)
  minted : ℕ

def ServerV2.start (pin : Option String) (verifyChecksums : Bool) (cap : ℕ) :
    ServerV2 where
  pin := pin
  verifyChecksums := verifyChecksums
  events := ⟨[], cap, false⟩
  session := none
  pinAttempts := .new 200
  cancelTokens := []
  decisions := []
  targets := []
  minted := 0

/-! ## §3  The tasks -/

/-- The locals of `prepare_upload` once the body has been read. -/
structure PrepareCtx where
  clientInfo : RequestClientInfo
  payload : PrepareUploadRequestDtoV2
  sessionId : String
  cancelled : ℕ
deriving DecidableEq

/-- The awaits of `prepare_upload`. From `send` to `activate` the pending
guard is armed, except in `clear`, which disarms it before it waits for the
lock. -/
inductive PrepareUpload where
  | start (clientInfo : RequestClientInfo) (query : AssocMap String String)
  | pin (clientInfo : RequestClientInfo) (query : AssocMap String String)
      (requiredPin : String)
  | body (clientInfo : RequestClientInfo)
  | claim (ctx : PrepareCtx)
  | send (ctx : PrepareCtx) (decisionRx : ℕ)
  | select (ctx : PrepareCtx) (decisionRx : ℕ)
  | clear (ctx : PrepareCtx) (rejected : Bool)
  | activate (ctx : PrepareCtx) (files : AssocMap String SessionFileV2)

/-- The locals of `upload` once the file is marked as in progress. -/
structure UploadCtx where
  sessionId : String
  fileId : String
  file : FileDto
  targetRx : ℕ
deriving DecidableEq

/-- The awaits of `upload`. The upload guard is armed from `send` to `save`;
`finish` disarms it before it waits for the lock. -/
inductive Upload where
  | start (clientInfo : RequestClientInfo) (query : AssocMap String String)
  | begin (clientInfo : RequestClientInfo) (sessionId fileId token : String)
  | send (ctx : UploadCtx)
  | target (ctx : UploadCtx)
  | save (ctx : UploadCtx) (target : FileUploadTarget) (expectedSha256 : Option String)
  | finish (ctx : UploadCtx) (result : SaveResult)
  | ended (ctx : UploadCtx) (result : SaveResult)

/-- The awaits of `cancel`. -/
inductive Cancel where
  | start (clientInfo : RequestClientInfo) (query : AssocMap String String)
  | pending (clientInfo : RequestClientInfo) (sessionId : Option String)
  | active (clientInfo : RequestClientInfo) (sessionId : String)
  | send (event : ServerEventV2)

/-- The awaits of the clean-up tasks that the drop of an armed guard spawns. -/
inductive Cleanup where
  | clear (sessionId : String)
  | aborted (sessionId : String)
  | finalize (sessionId fileId : String)
  | ended (sessionId : String)

inductive Task where
  | prepareUpload (pc : PrepareUpload)
  | upload (pc : Upload)
  | cancel (pc : Cancel)
  | cancelV2Session (sessionId : String)
  | cleanup (pc : Cleanup)
  | answered (result : Except AppError Response)
  | returned (cancelled : Bool)
  | completed
  | dropped

/-- How a suspended task is resumed: the awaited thing is ready (`go`), the
body has been collected, `select!` takes one of its two branches, the file
has been saved; or the future is dropped. -/
inductive Act where
  | go
  | body (payload : Except AppError PrepareUploadRequestDtoV2)
  | decision
  | cancelled
  | saved (result : SaveResult)
  | drop

/-- What an observer of the slot notes down. -/
inductive Seen where
  | claimed (sessionId : String)
  | activated (sessionId : String)
  | pendingCancelled (sessionId : String)
  | uploadStarted (sessionId fileId : String)
deriving DecidableEq

abbrev Step : Type := Outcome ServerV2 Task Seen

/-! ## §4  `prepare_upload` -/

/-- A handler that returns an error with its pending guard still armed: the
guard's drop spawns the clean-up. -/
def abandonPending (s : ServerV2) (ctx : PrepareCtx) (err : AppError) : Step :=
  { shared := s, task := .answered (.error err)
    spawned := [.cleanup (.clear ctx.sessionId)] }

/-- The accepted files with fresh tokens. -/
def acceptedFiles (X : Externals) (minted : ℕ) (files : AssocMap String FileDto)
    (acceptedIds : List String) : AssocMap String SessionFileV2 :=
  (files.filter fun id _ => acceptedIds.contains id).mapIdx fun i _ dto =>
    { dto, token := X.uuid (minted + i), status := .pending, attempts := 0 }

/-- From the decision to the next await. -/
def decided (X : Externals) (s : ServerV2) (ctx : PrepareCtx) :
    PrepareUploadDecisionV2 → Step
  | .decline => { shared := s, task := .prepareUpload (.clear ctx true) }
  | .accept acceptedIds =>
      let files := acceptedFiles X s.minted ctx.payload.files acceptedIds
      let s := { s with minted := s.minted + files.entries.length }
      if files.isEmpty then
        -- nothing to transfer
        { shared := s, task := .prepareUpload (.clear ctx false) }
      else { shared := s, task := .prepareUpload (.activate ctx files) }

/-- The answer after the pending slot was freed: the request was declined, or
no file was accepted. -/
def clearedResponse (rejected : Bool) : Except AppError Response :=
  if rejected then .error (.message .forbidden "Rejected") else .ok ⟨.noContent, .empty⟩

def prepareEvent (X : Externals) (ctx : PrepareCtx) (decisionTx : ℕ) : ServerEventV2 :=
  .prepareUpload ctx.sessionId ctx.clientInfo.ip ctx.payload.info
    (ctx.clientInfo.cert.map X.fingerprintFromCertDer) ctx.payload.files decisionTx

/-- The response that hands out the file tokens. -/
def preparedResponse (ctx : PrepareCtx) (files : AssocMap String SessionFileV2) :
    Response :=
  ⟨.ok, .prepared ⟨ctx.sessionId, files.mapVal fun _ file => file.token⟩⟩

def prepareUploadStep (X : Externals) (s : ServerV2) : PrepareUpload → Act → Option Step
  | .start clientInfo query, .go =>
      match s.pin with
      | none => some { shared := s, task := .prepareUpload (.body clientInfo) }
      | some requiredPin =>
          some { shared := s, task := .prepareUpload (.pin clientInfo query requiredPin) }
  | .pin clientInfo query requiredPin, .go =>
      let (checked, attempts) := checkPin requiredPin s.pinAttempts query clientInfo.ip.ip
      let s := { s with pinAttempts := attempts }
      match checked with
      | .error err => some { shared := s, task := .answered (.error err) }
      | .ok () => some { shared := s, task := .prepareUpload (.body clientInfo) }
  | .body _, .body (.error err) =>
      some { shared := s, task := .answered (.error err) }
  | .body clientInfo, .body (.ok payload) =>
      if payload.files.isEmpty then
        some { shared := s, task := .answered (.error (.badRequest "No files provided")) }
      else
        let ctx : PrepareCtx :=
          ⟨clientInfo, payload, X.uuid s.minted, s.cancelTokens.length⟩
        some
          { shared := { s with
              minted := s.minted + 1, cancelTokens := s.cancelTokens ++ [false] }
            task := .prepareUpload (.claim ctx) }
  | .claim ctx, .go =>
      match claimSlot ⟨ctx.sessionId, ctx.clientInfo.ip, ctx.cancelled⟩ s.session with
      | .error err => some { shared := s, task := .answered (.error err) }
      | .ok st =>
          some
            { shared := { s with session := some st, decisions := s.decisions ++ [.waiting] }
              task := .prepareUpload (.send ctx s.decisions.length)
              seen := [.claimed ctx.sessionId] }
  | .send ctx decisionRx, .go =>
      match s.events.send (prepareEvent X ctx decisionRx) with
      | none => none
      | some (.error ()) =>
          some (abandonPending s ctx (.status .internalServerError))
      | some (.ok events) =>
          some { shared := { s with events }
                 task := .prepareUpload (.select ctx decisionRx) }
  | .select ctx decisionRx, .decision =>
      match s.decisions[decisionRx]? with
      | some (.sent decision) => some (decided X s ctx decision)
      | some .dropped => some (abandonPending s ctx (.status .internalServerError))
      | _ => none
  | .select ctx _, .cancelled =>
      if s.cancelTokens[ctx.cancelled]? = some true then
        some (abandonPending s ctx (.message .forbidden "Cancelled by sender"))
      else none
  | .clear _ rejected, .go =>
      some { shared := { s with session := clearPendingSession s.session }
             task := .answered (clearedResponse rejected) }
  | .activate ctx files, .go =>
      some
        { shared := { s with
            session := some (.active ⟨ctx.sessionId, ctx.clientInfo.ip, files⟩) }
          task := .answered (.ok (preparedResponse ctx files))
          seen := [.activated ctx.sessionId] }
  | .send ctx _, .drop | .select ctx _, .drop | .activate ctx _, .drop =>
      some { shared := s, task := .dropped
             spawned := [.cleanup (.clear ctx.sessionId)] }
  | _, .drop => some { shared := s, task := .dropped }
  | _, _ => none

/-! ## §5  `upload` -/

def uploadResponse : SaveResult → Except AppError Response
  | .success => .ok .new
  | .failed => .error (.status .internalServerError)
  | .hashMismatch => .error (.message .unprocessableEntity "Checksum mismatch")

def uploadStep (s : ServerV2) : Upload → Act → Option Step
  | .start clientInfo query, .go =>
      match query.get? "sessionId", query.get? "fileId", query.get? "token" with
      | some sessionId, some fileId, some token =>
          some { shared := s
                 task := .upload (.begin clientInfo sessionId fileId token) }
      | _, _, _ =>
          some { shared := s
                 task := .answered (.error (.message .badRequest "Missing parameters")) }
  | .begin clientInfo sessionId fileId token, .go =>
      match beginUpload clientInfo.ip sessionId fileId token s.session with
      | .error err => some { shared := s, task := .answered (.error err) }
      | .ok (st, file) =>
          some
            { shared := { s with session := some st, targets := s.targets ++ [.waiting] }
              task := .upload (.send ⟨sessionId, fileId, file, s.targets.length⟩)
              seen := [.uploadStarted sessionId fileId] }
  | .send ctx, .go =>
      match s.events.send (.fileUpload ctx.sessionId ctx.fileId ctx.file ctx.targetRx) with
      | none => none
      | some (.error ()) => some { shared := s, task := .upload (.finish ctx .failed) }
      | some (.ok events) =>
          some { shared := { s with events }, task := .upload (.target ctx) }
  | .target ctx, .go =>
      match s.targets[ctx.targetRx]? with
      | some (.sent target) =>
          let expectedSha256 := if s.verifyChecksums then ctx.file.sha256 else none
          some { shared := s, task := .upload (.save ctx target expectedSha256) }
      | some .dropped => some { shared := s, task := .upload (.finish ctx .failed) }
      | _ => none
  | .save ctx _ expectedSha256, .saved result =>
      -- without an expected checksum nothing is compared
      if result = .hashMismatch ∧ expectedSha256 = none then none
      else some { shared := s, task := .upload (.finish ctx result) }
  | .finish ctx result, .go =>
      let (session, ended) := finalizeFile ctx.sessionId ctx.fileId result s.session
      some { shared := { s with session }
             task := if ended then .upload (.ended ctx result)
                     else .answered (uploadResponse result) }
  | .ended ctx result, .go =>
      match s.events.send (.sessionEnd ctx.sessionId .finished) with
      | none => none
      | some (.error ()) => some { shared := s, task := .answered (uploadResponse result) }
      | some (.ok events) =>
          some { shared := { s with events }, task := .answered (uploadResponse result) }
  | .send ctx, .drop | .target ctx, .drop | .save ctx _ _, .drop =>
      some { shared := s, task := .dropped
             spawned := [.cleanup (.finalize ctx.sessionId ctx.fileId)] }
  | _, .drop => some { shared := s, task := .dropped }
  | _, _ => none

/-! ## §6  `cancel`, `cancel_v2_session`, clean-ups -/

def cancelStep (s : ServerV2) : Cancel → Act → Option Step
  | .start clientInfo query, .go =>
      some { shared := s
             task := .cancel (.pending clientInfo (query.get? "sessionId")) }
  | .pending clientInfo sessionId, .go =>
      match pendingToCancel clientInfo.ip sessionId s.session with
      | some pending =>
          some
            { shared := { s with cancelTokens := s.cancelTokens.set pending.cancel true }
              task := .answered (.ok .new)
              seen := [.pendingCancelled pending.sessionId] }
      | none =>
          match sessionId with
          | none => some { shared := s, task := .answered (.ok .new) }
          | some sessionId =>
              some { shared := s, task := .cancel (.active clientInfo sessionId) }
  | .active clientInfo sessionId, .go =>
      let (session, cancelled) := cancelActive clientInfo.ip sessionId s.session
      some { shared := { s with session }
             task := .cancel (.send (if cancelled then .sessionEnd sessionId .cancelled
               else .cancelReceived clientInfo.ip sessionId)) }
  | .send event, .go =>
      match s.events.send event with
      | none => none
      | some (.error ()) => some { shared := s, task := .answered (.ok .new) }
      | some (.ok events) =>
          some { shared := { s with events }, task := .answered (.ok .new) }
  | _, .drop => some { shared := s, task := .dropped }
  | _, _ => none

def cancelV2SessionStep (s : ServerV2) (sessionId : String) : Act → Option Step
  | .go =>
      let (session, cancelled) := cancelV2Session sessionId s.session
      some { shared := { s with session }, task := .returned cancelled }
  | .drop => some { shared := s, task := .dropped }
  | _ => none

/-- A spawned clean-up is not a request future, so nothing drops it. -/
def cleanupStep (s : ServerV2) : Cleanup → Act → Option Step
  | .clear sessionId, .go =>
      some { shared := { s with session := clearPendingSession s.session }
             task := .cleanup (.aborted sessionId) }
  | .aborted sessionId, .go =>
      match s.events.send (.prepareUploadAborted sessionId) with
      | none => none
      | some (.error ()) => some { shared := s, task := .completed }
      | some (.ok events) => some { shared := { s with events }, task := .completed }
  | .finalize sessionId fileId, .go =>
      let (session, ended) := finalizeFile sessionId fileId .failed s.session
      some { shared := { s with session }
             task := if ended then .cleanup (.ended sessionId) else .completed }
  | .ended sessionId, .go =>
      match s.events.send (.sessionEnd sessionId .finished) with
      | none => none
      | some (.error ()) => some { shared := s, task := .completed }
      | some (.ok events) => some { shared := { s with events }, task := .completed }
  | _, _ => none

/-! ## §7  The machine -/

def taskStep (X : Externals) (s : ServerV2) : Task → Act → Option Step
  | .prepareUpload pc, a => prepareUploadStep X s pc a
  | .upload pc, a => uploadStep s pc a
  | .cancel pc, a => cancelStep s pc a
  | .cancelV2Session sessionId, a => cancelV2SessionStep s sessionId a
  | .cleanup pc, a => cleanupStep s pc a
  | .answered _, _ | .returned _, _ | .completed, _ | .dropped, _ => none

/-- What happens outside the tasks: requests arrive, the application calls
`cancel_v2_session`, takes events, answers or drops a channel, or drops the
event receiver. `register` is what that handler does to the shared state:
its `try_send` gives up on a full channel. -/
inductive Env where
  | prepareUpload (clientInfo : RequestClientInfo) (query : List (String × String))
  | upload (clientInfo : RequestClientInfo) (query : List (String × String))
  | cancel (clientInfo : RequestClientInfo) (query : List (String × String))
  | cancelV2Session (sessionId : String)
  | register (ip : PeerIp) (info : RegisterDtoV2)
  | recv
  | close
  | decide (decisionTx : ℕ) (decision : PrepareUploadDecisionV2)
  | dropDecision (decisionTx : ℕ)
  | answerTarget (targetTx : ℕ) (target : FileUploadTarget)
  | dropTarget (targetTx : ℕ)

/-- Use the sender of a one-shot channel; it can be used once. -/
def resolve {α : Type} (channels : List (Oneshot α)) (tx : ℕ) (answer : Oneshot α) :
    Option (List (Oneshot α)) :=
  match channels[tx]? with
  | some .waiting => some (channels.set tx answer)
  | _ => none

/-- What was sent on a channel stays. -/
theorem resolve_sent {α : Type} {channels channels' : List (Oneshot α)} {tx n : ℕ}
    {value : Oneshot α} {a : α} (h : resolve channels tx value = some channels')
    (hn : channels[n]? = some (.sent a)) : channels'[n]? = some (.sent a) := by
  unfold resolve at h
  split at h
  · rename_i hwaiting
    cases h
    have hne : tx ≠ n := by
      rintro rfl
      rw [hwaiting] at hn
      cases hn
    rw [List.getElem?_set_ne hne]
    exact hn
  · cases h

def envStep (s : ServerV2) : Env → Option (ServerV2 × List Task)
  | .prepareUpload clientInfo query =>
      some (s, [.prepareUpload (.start clientInfo (parseQuery query))])
  | .upload clientInfo query => some (s, [.upload (.start clientInfo (parseQuery query))])
  | .cancel clientInfo query => some (s, [.cancel (.start clientInfo (parseQuery query))])
  | .cancelV2Session sessionId => some (s, [.cancelV2Session sessionId])
  | .register ip info =>
      match s.events.send (.register ip info) with
      | some (.ok events) => some ({ s with events }, [])
      | _ => some (s, [])
  | .recv =>
      match s.events.queue with
      | [] => none
      | _ :: queue => some ({ s with events := { s.events with queue } }, [])
  | .close => some ({ s with events := { s.events with queue := [], closed := true } }, [])
  | .decide decisionTx decision =>
      (resolve s.decisions decisionTx (.sent decision)).map fun decisions =>
        ({ s with decisions }, [])
  | .dropDecision decisionTx =>
      (resolve s.decisions decisionTx .dropped).map fun decisions =>
        ({ s with decisions }, [])
  | .answerTarget targetTx target =>
      (resolve s.targets targetTx (.sent target)).map fun targets =>
        ({ s with targets }, [])
  | .dropTarget targetTx =>
      (resolve s.targets targetTx .dropped).map fun targets => ({ s with targets }, [])

def serverMachine (X : Externals) : Machine ServerV2 Task Act Env Seen :=
  ⟨taskStep X, envStep⟩

abbrev ServerPool : Type := Pool ServerV2 Task Seen

abbrev ServerLabel : Type := Label Act Env

/-- The pool of a server that was just started. -/
def ServerPool.init (pin : Option String) (verifyChecksums : Bool) (cap : ℕ) :
    ServerPool :=
  ⟨.start pin verifyChecksums cap, [], []⟩

abbrev serverStep (X : Externals) : ServerPool → ServerLabel → Option ServerPool :=
  (serverMachine X).poolStep

/-! ## §8  A concrete request

One sender at a fixed address that offers one file, for runs on concrete
inputs. -/

namespace Sample

def sender : RequestClientInfo := ⟨⟨.v4 1, none⟩, none⟩

def info : RegisterDtoV2 where
  «alias» := "Sender"
  version := "2.2"
  deviceModel := none
  deviceType := none
  fingerprint := "sender-fingerprint"
  port := 53317
  protocol := .https
  download := false

def file (id : String) : FileDto := ⟨id, "test.png", 1024, "image/png", none, none, none⟩

def payload : PrepareUploadRequestDtoV2 := ⟨info, .ofList [("file1", file "file1")]⟩

/-- A prepare-upload request of the sender, run until its event is sent; it
becomes task `i` of the pool. -/
def prepare (i : ℕ) : List ServerLabel :=
  [.env (.prepareUpload sender []), .task i .go, .task i (.body (.ok payload)),
    .task i .go, .task i .go]

def init : ServerPool := .init none true 16

end Sample

end FireBoxTransfer

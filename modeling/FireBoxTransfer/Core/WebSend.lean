import FireBoxTransfer.Core.ServerV2

/-!
# The web send server as a task pool

The endpoints from which browsers download: a browser asks for the list of
files, the application decides, and an accepted browser fetches the files.
Sessions are kept in a table under the text of the client's address. As in
the v2 server, a task is the await at which it is suspended.
-/

namespace FireBoxTransfer

open TaskPool

namespace WebSend

/-! ## §1  What the server shares -/

/-- The bytes that the application streams for a file. -/
abbrev FileContent : Type := List UInt8

/-- The download session of a client. -/
structure WebSendSession where
  ip : PeerIp
  accepted : Bool
deriving DecidableEq

/-- `decisionTx` and `contentTx` name the channel on which the application
answers. -/
inductive WebSendEvent where
  | prepareDownload (ip : PeerIp) (sessionId : String) (userAgent : Option String)
      (decisionTx : ℕ)
  | fileDownload (sessionId fileId : String) (file : FileDto) (contentTx : ℕ)
deriving DecidableEq

/-- The bounded event channel; `closed` once the application dropped the
receiver. -/
structure WebEvents where
  queue : List WebSendEvent
  cap : ℕ
  closed : Bool
deriving DecidableEq

def WebEvents.send (c : WebEvents) (event : WebSendEvent) : Option (Except Unit WebEvents) :=
  if c.closed then some (.error ())
  else if c.queue.length < c.cap then some (.ok { c with queue := c.queue ++ [event] })
  else none

/-- The state of the endpoints, with the one-shot channels. -/
structure WebPageState where
  files : AssocMap String FileDto
  pin : Option String
  events : WebEvents
  sessions : AssocMap String WebSendSession
  pinAttempts : LruCache IpAddr ℕ
  decisions : List (Oneshot Bool)
  contents : List (Oneshot FileContent)

def WebPageState.new (files : AssocMap String FileDto) (pin : Option String) (cap : ℕ) :
    WebPageState where
  files := files
  pin := pin
  events := ⟨[], cap, false⟩
  sessions := .empty
  pinAttempts := .new 200
  decisions := []
  contents := []

/-! ## §2  The tasks -/

/-- The locals of `prepare_download` once its session is in the table. The
channel of its decision is its own, and names the request. -/
structure DownloadCtx where
  ip : PeerIp
  sessionId : String
  userAgent : Option String
  decision : ℕ
deriving DecidableEq

/-- The awaits of `prepare_download`. From `send` to `accept` the pending
guard is armed; `clear` disarms it before it waits for the lock. -/
inductive PrepareDownload where
  | start (clientInfo : RequestClientInfo) (query : AssocMap String String)
      (userAgent : Option String)
  | session (clientInfo : RequestClientInfo) (query : AssocMap String String)
      (userAgent : Option String) (sessionId : String)
  | pin (clientInfo : RequestClientInfo) (query : AssocMap String String)
      (userAgent : Option String) (requiredPin : String)
  | insert (clientInfo : RequestClientInfo) (userAgent : Option String)
  | send (ctx : DownloadCtx)
  | decision (ctx : DownloadCtx)
  | accept (ctx : DownloadCtx)
  | clear (ctx : DownloadCtx)
  | list (ip : PeerIp) (sessionId : String)

structure FileCtx where
  sessionId : String
  fileId : String
  file : FileDto
  content : ℕ
deriving DecidableEq

/-- The awaits of `download`. -/
inductive Download where
  | start (clientInfo : RequestClientInfo) (query : AssocMap String String)
  | session (clientInfo : RequestClientInfo) (query : AssocMap String String)
      (sessionId : String)
  | send (ctx : FileCtx)
  | content (ctx : FileCtx)

inductive WebResponse where
  | fileList (sessionId : String) (files : AssocMap String FileDto)
  | content (fileName : String) (size : BitVec 64) (body : FileContent)

inductive WebTask where
  | prepareDownload (pc : PrepareDownload)
  | download (pc : Download)
  /-- The clean-up that the drop of an armed guard spawns. -/
  | cleanup (ctx : DownloadCtx)
  | answered (result : Except AppError WebResponse)
  | completed
  | dropped

inductive WebAct where
  | go
  | drop
deriving DecidableEq

/-- What an observer of the session table notes down. A request that is
granted the list again inserted nothing. `listed` is the answer of a request,
`authorised` a download that passes the check. -/
inductive WebSeen where
  | inserted (request : ℕ) (ip : PeerIp) (sessionId : String)
  | granted (request : Option ℕ) (ip : PeerIp) (sessionId : String)
  | removed (request : ℕ) (sessionId : String)
  | listed (ip : PeerIp) (sessionId : String)
  | authorised (ip : PeerIp) (sessionId : String)
deriving DecidableEq

abbrev WebStep : Type := Outcome WebPageState WebTask WebSeen

/-! ## §3  `prepare_download` -/

/-- The session that a client names is its own, and accepted. -/
def WebPageState.valid (s : WebPageState) (sessionId : String) (ip : PeerIp) : Bool :=
  (s.sessions.get? sessionId).any fun session => session.accepted && session.ip = ip

/-- From the lookup of the session to the next await. -/
def askPin (s : WebPageState) (clientInfo : RequestClientInfo) (query : AssocMap String String)
    (userAgent : Option String) : WebStep :=
  match s.pin with
  | none => { shared := s, task := .prepareDownload (.insert clientInfo userAgent) }
  | some requiredPin =>
      { shared := s, task := .prepareDownload (.pin clientInfo query userAgent requiredPin) }

/-- A handler that returns an error with its guard still armed. -/
def abandon (s : WebPageState) (ctx : DownloadCtx) : WebStep :=
  { shared := s, task := .answered (.error (.status .internalServerError))
    spawned := [.cleanup ctx] }

/-- `clear_pending_session`: the session is removed unless it was accepted. -/
def clearPendingDownload (s : WebPageState) (sessionId : String) : WebPageState × Bool :=
  if (s.sessions.get? sessionId).any fun session => !session.accepted then
    ({ s with sessions := s.sessions.filter fun id _ => id ≠ sessionId }, true)
  else (s, false)

/-- The clean-up of a request, with what is seen of it. -/
def clearStep (s : WebPageState) (ctx : DownloadCtx) (task : WebTask) : WebStep :=
  let (s, removed) := clearPendingDownload s ctx.sessionId
  { shared := s, task
    seen := if removed then [.removed ctx.decision ctx.sessionId] else [] }

theorem clearStep_cases (s : WebPageState) (ctx : DownloadCtx) (t' : WebTask) :
    clearStep s ctx t' =
        ⟨{ s with sessions := s.sessions.filter fun id _ => id ≠ ctx.sessionId }, t', [],
          [.removed ctx.decision ctx.sessionId]⟩ ∨
      clearStep s ctx t' = ⟨s, t', [], []⟩ := by
  unfold clearStep clearPendingDownload
  by_cases h : ((s.sessions.get? ctx.sessionId).any fun session => !session.accepted) = true
  · left
    simp only [if_pos h, if_true]
  · right
    simp [h]

def prepareDownloadStep (ipText : PeerIp → String) (s : WebPageState) :
    PrepareDownload → WebAct → Option WebStep
  | .start clientInfo query userAgent, .go =>
      match query.get? "sessionId" with
      | some sessionId =>
          some { shared := s
                 task := .prepareDownload (.session clientInfo query userAgent sessionId) }
      | none => some (askPin s clientInfo query userAgent)
  | .session clientInfo query userAgent sessionId, .go =>
      if s.valid sessionId clientInfo.ip then
        -- an accepted client may fetch the list again
        some { shared := s, task := .prepareDownload (.list clientInfo.ip sessionId)
               seen := [.granted none clientInfo.ip sessionId] }
      else some (askPin s clientInfo query userAgent)
  | .pin clientInfo query userAgent requiredPin, .go =>
      let (checked, attempts) := checkPin requiredPin s.pinAttempts query clientInfo.ip.ip
      let s := { s with pinAttempts := attempts }
      match checked with
      | .error err => some { shared := s, task := .answered (.error err) }
      | .ok () => some { shared := s, task := .prepareDownload (.insert clientInfo userAgent) }
  | .insert clientInfo userAgent, .go =>
      let sessionId := ipText clientInfo.ip
      let ctx : DownloadCtx := ⟨clientInfo.ip, sessionId, userAgent, s.decisions.length⟩
      some
        { shared := { s with
            sessions := s.sessions.insert sessionId ⟨clientInfo.ip, false⟩
            decisions := s.decisions ++ [.waiting] }
          task := .prepareDownload (.send ctx)
          seen := [.inserted ctx.decision ctx.ip sessionId] }
  | .send ctx, .go =>
      match s.events.send (.prepareDownload ctx.ip ctx.sessionId ctx.userAgent ctx.decision) with
      | none => none
      | some (.error ()) => some (abandon s ctx)
      | some (.ok events) =>
          some { shared := { s with events }, task := .prepareDownload (.decision ctx) }
  | .decision ctx, .go =>
      match s.decisions[ctx.decision]? with
      | some (.sent true) => some { shared := s, task := .prepareDownload (.accept ctx) }
      | some (.sent false) => some { shared := s, task := .prepareDownload (.clear ctx) }
      | some .dropped => some (abandon s ctx)
      | _ => none
  | .accept ctx, .go =>
      some
        { shared := { s with
            sessions := s.sessions.modify ctx.sessionId fun session =>
              { session with accepted := true } }
          task := .prepareDownload (.list ctx.ip ctx.sessionId)
          seen := [.granted (some ctx.decision) ctx.ip ctx.sessionId] }
  | .clear ctx, .go =>
      some (clearStep s ctx (.answered (.error (.message .forbidden "File transfer rejected."))))
  | .list ip sessionId, .go =>
      some { shared := s, task := .answered (.ok (.fileList sessionId s.files))
             seen := [.listed ip sessionId] }
  | .send ctx, .drop | .decision ctx, .drop | .accept ctx, .drop =>
      some { shared := s, task := .dropped, spawned := [.cleanup ctx] }
  | _, .drop => some { shared := s, task := .dropped }

/-! ## §4  `download` -/

/-- A download of an accepted session: the file is looked up, and asked of
the application. -/
def requestFile (s : WebPageState) (clientInfo : RequestClientInfo)
    (query : AssocMap String String) (sessionId : String) : WebStep :=
  match query.get? "fileId" with
  | none =>
      { shared := s, task := .answered (.error (.badRequest "Missing fileId."))
        seen := [.authorised clientInfo.ip sessionId] }
  | some fileId =>
      match s.files.get? fileId with
      | none =>
          { shared := s, task := .answered (.error (.message .forbidden "Invalid fileId."))
            seen := [.authorised clientInfo.ip sessionId] }
      | some file =>
          { shared := { s with contents := s.contents ++ [.waiting] }
            task := .download (.send ⟨sessionId, fileId, file, s.contents.length⟩)
            seen := [.authorised clientInfo.ip sessionId] }

/-- The file name may be inside directories. -/
def attachmentName (fileName : String) : String :=
  .ofList (fileName.toList.map fun c => if c = '/' then '-' else c)

def downloadStep (s : WebPageState) : Download → WebAct → Option WebStep
  | .start clientInfo query, .go =>
      match query.get? "sessionId" with
      | none => some { shared := s, task := .answered (.error (.badRequest "Missing sessionId.")) }
      | some sessionId =>
          some { shared := s, task := .download (.session clientInfo query sessionId) }
  | .session clientInfo query sessionId, .go =>
      if s.valid sessionId clientInfo.ip then some (requestFile s clientInfo query sessionId)
      else
        some { shared := s
               task := .answered (.error (.message .forbidden "Invalid sessionId.")) }
  | .send ctx, .go =>
      match s.events.send (.fileDownload ctx.sessionId ctx.fileId ctx.file ctx.content) with
      | none => none
      | some (.error ()) =>
          some { shared := s, task := .answered (.error (.status .internalServerError)) }
      | some (.ok events) =>
          some { shared := { s with events }, task := .download (.content ctx) }
  | .content ctx, .go =>
      match s.contents[ctx.content]? with
      | some (.sent body) =>
          some { shared := s
                 task := .answered (.ok (.content (attachmentName ctx.file.fileName)
                   ctx.file.size body)) }
      | some .dropped =>
          some { shared := s, task := .answered (.error (.status .internalServerError)) }
      | _ => none
  | _, .drop => some { shared := s, task := .dropped }

/-! ## §5  The machine -/

def webTaskStep (ipText : PeerIp → String) (s : WebPageState) :
    WebTask → WebAct → Option WebStep
  | .prepareDownload pc, a => prepareDownloadStep ipText s pc a
  | .download pc, a => downloadStep s pc a
  | .cleanup ctx, .go => some (clearStep s ctx .completed)
  | .cleanup _, .drop | .answered _, _ | .completed, _ | .dropped, _ => none

/-- Requests arrive; the application takes events, answers or drops a
channel, or drops the event receiver. -/
inductive WebEnv where
  | prepareDownload (clientInfo : RequestClientInfo) (query : List (String × String))
      (userAgent : Option String)
  | download (clientInfo : RequestClientInfo) (query : List (String × String))
  | recv
  | close
  | decide (decisionTx : ℕ) (accepted : Bool)
  | dropDecision (decisionTx : ℕ)
  | provide (contentTx : ℕ) (body : FileContent)
  | dropContent (contentTx : ℕ)
deriving DecidableEq

def webEnvStep (s : WebPageState) : WebEnv → Option (WebPageState × List WebTask)
  | .prepareDownload clientInfo query userAgent =>
      some (s, [.prepareDownload (.start clientInfo (parseQuery query) userAgent)])
  | .download clientInfo query => some (s, [.download (.start clientInfo (parseQuery query))])
  | .recv =>
      match s.events.queue with
      | [] => none
      | _ :: queue => some ({ s with events := { s.events with queue } }, [])
  | .close => some ({ s with events := { s.events with queue := [], closed := true } }, [])
  | .decide decisionTx accepted =>
      (resolve s.decisions decisionTx (.sent accepted)).map fun decisions =>
        ({ s with decisions }, [])
  | .dropDecision decisionTx =>
      (resolve s.decisions decisionTx .dropped).map fun decisions => ({ s with decisions }, [])
  | .provide contentTx body =>
      (resolve s.contents contentTx (.sent body)).map fun contents => ({ s with contents }, [])
  | .dropContent contentTx =>
      (resolve s.contents contentTx .dropped).map fun contents => ({ s with contents }, [])

def webMachine (ipText : PeerIp → String) : Machine WebPageState WebTask WebAct WebEnv WebSeen :=
  ⟨webTaskStep ipText, webEnvStep⟩

abbrev WebPool : Type := Pool WebPageState WebTask WebSeen

abbrev WebLabel : Type := Label WebAct WebEnv

def WebPool.init (files : AssocMap String FileDto) (pin : Option String) (cap : ℕ) : WebPool :=
  ⟨.new files pin cap, [], []⟩

abbrev webStep (ipText : PeerIp → String) : WebPool → WebLabel → Option WebPool :=
  (webMachine ipText).poolStep

end WebSend

end FireBoxTransfer

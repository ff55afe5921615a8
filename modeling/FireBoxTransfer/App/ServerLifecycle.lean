import Mathlib.Data.Int.Notation
import FireBoxTransfer.Framework.AssocMap
import FireBoxTransfer.Core.Model

/-!
# The life of the server: from the application to the listener

`ServerService` of the main isolate starts and stops the server by messages
to the server isolate, whose `HttpServerService` calls the functions of the
bridge. Each of the three keeps its own idea of the running server: the
state, `_server`, and `RUNNING_SERVER` with the listening sockets. A call
that is awaiting holds nothing that another one would have to wait for.
-/

namespace FireBoxTransfer.ServerLifecycle

/-! ## §1  Settings, requests, states -/

structure ServerSettings where
  «alias» : String
  port : ℤ
  https : Bool
  receivePin : Option String
  verifyChecksums : Bool
  showToken : Option String
deriving DecidableEq

structure WebSendState where
  sessions : List String
  files : AssocMap String FileDto
  autoAccept : Bool
deriving DecidableEq

/-- The arguments of `startServer`. -/
structure StartArgs where
  «alias» : String
  port : ℤ
  https : Bool
  webSendState : Option WebSendState
  webUpload : Bool
  webPin : Option String
deriving DecidableEq

/-- The state of a running server, without its receive session. -/
structure ServerState where
  «alias» : String
  port : ℤ
  https : Bool
  webSendState : Option WebSendState
  webUpload : Bool
  webPin : Option String
deriving DecidableEq

/-- The part of the sync state that concerns the server. -/
structure SyncState where
  «alias» : String
  port : ℤ
  protocol : ProtocolType
  serverRunning : Bool
  download : Bool
deriving DecidableEq

structure WebSendParams where
  files : AssocMap String FileDto
  pin : Option String
deriving DecidableEq

structure WebParams where
  send : Option WebSendParams
  upload : Bool
deriving DecidableEq

structure HttpServerStartTask where
  pin : Option String
  verifyChecksums : Bool
  web : Option WebParams
  showToken : Option String
deriving DecidableEq

/-- What a Rust server is started with. -/
structure ServerConfig where
  port : ℤ
  tls : Bool
  «alias» : String
  pin : Option String
  verifyChecksums : Bool
  web : Option WebParams
  showToken : Option String
  enableRemoteFs : Bool
deriving DecidableEq

def defaultPort : ℤ := 53317

/-- The characters that `String.trim` of Dart removes at both ends. -/
def isWhitespace (c : Char) : Bool :=
  (9 ≤ c.toNat && c.toNat ≤ 13) || (0x2000 ≤ c.toNat && c.toNat ≤ 0x200A) ||
    [0x20, 0x85, 0xA0, 0x1680, 0x2028, 0x2029, 0x202F, 0x205F, 0x3000, 0xFEFF].contains c.toNat

def trim (s : String) : String :=
  .ofList ((s.toList.dropWhile isWhitespace).reverse.dropWhile isWhitespace).reverse

def protocolOf (https : Bool) : ProtocolType := if https then .https else .http

/-- The arguments with the alias and the port that `startServer` uses. -/
def StartArgs.normalize (args : StartArgs) (randomAlias : String) : StartArgs :=
  let «alias» := trim args.alias
  { args with
    «alias» := if «alias».isEmpty then randomAlias else «alias»
    port := if args.port < 0 || args.port > 65535 then defaultPort else args.port }

def StartArgs.web (args : StartArgs) : Option WebParams :=
  if args.webSendState.isSome || args.webUpload then
    some
      { send := args.webSendState.map fun s => ⟨s.files, args.webPin⟩
        upload := args.webUpload }
  else none

/-- The pin of the receive endpoints: the upload page replaces the one from
the settings. -/
def StartArgs.pin (args : StartArgs) (settings : ServerSettings) : Option String :=
  if args.webUpload then args.webPin else settings.receivePin

def StartArgs.task (args : StartArgs) (settings : ServerSettings) : HttpServerStartTask where
  pin := args.pin settings
  verifyChecksums := settings.verifyChecksums
  web := args.web
  showToken := settings.showToken

def StartArgs.state (args : StartArgs) : ServerState where
  «alias» := args.alias
  port := args.port
  https := args.https
  webSendState := args.webSendState
  webUpload := args.webUpload
  webPin := if args.webSendState.isSome || args.webUpload then args.webPin else none

/-- The sync state a start publishes. -/
def StartArgs.sync (args : StartArgs) : SyncState :=
  ⟨args.alias, args.port, protocolOf args.https, true, args.webSendState.isSome⟩

/-- What a start request asks for. -/
def StartArgs.config (args : StartArgs) (settings : ServerSettings) : ServerConfig where
  port := args.port
  tls := args.https
  «alias» := args.alias
  pin := args.pin settings
  verifyChecksums := settings.verifyChecksums
  web := args.web
  showToken := settings.showToken
  enableRemoteFs := args.https

/-- What the isolate makes of a start task: port, alias and TLS mode are those
of the sync state it has at that time. -/
def HttpServerStartTask.config (task : HttpServerStartTask) (sync : SyncState) : ServerConfig where
  port := sync.port
  tls := sync.protocol = .https
  «alias» := sync.alias
  pin := task.pin
  verifyChecksums := task.verifyChecksums
  web := task.web
  showToken := task.showToken
  enableRemoteFs := sync.protocol = .https

theorem config_task (args : StartArgs) (settings : ServerSettings) :
    (args.task settings).config args.sync = args.config settings := by
  unfold StartArgs.task HttpServerStartTask.config StartArgs.sync StartArgs.config protocolOf
  cases args.https <;> rfl

/-! ## §2  The Rust servers -/

inductive Phase where
  | listening | stopping | closed
deriving DecidableEq

/-- A `ServerInstance`. Its `stop_tx` is there as long as it is listening. -/
structure ServerInstance where
  config : ServerConfig
  phase : Phase
deriving DecidableEq

/-- All servers ever started, `RUNNING_SERVER`, and whether its lock is
taken. -/
structure Rust where
  instances : List ServerInstance
  running : Option ℕ
  locked : Bool

def Rust.phase (r : Rust) (k : ℕ) : Option Phase := r.instances[k]?.map (·.phase)

/-- Whether the `stop_tx` of a server was still there. -/
def Rust.takesStop (r : Rust) (k : ℕ) : Bool := r.phase k = some .listening

def Rust.setPhase (r : Rust) (k : ℕ) (phase : Phase) : Rust :=
  { r with instances := r.instances.modify k fun i => { i with phase } }

/-- The port is free once the server that used it is closed. -/
def Rust.portFree (r : Rust) (port : ℤ) : Bool :=
  r.instances.all fun i => i.config.port ≠ port || i.phase = .closed

def Rust.listening (r : Rust) : List ServerConfig :=
  (r.instances.filter fun i => i.phase = .listening).map (·.config)

/-! ## §3  The isolate -/

inductive IsolateTask where
  | start (id : ℕ) (task : HttpServerStartTask)
  | stop (id : ℕ)
deriving DecidableEq

/-- The messages to the server isolate. -/
inductive ToIsolate where
  | sync (s : SyncState)
  | task (t : IsolateTask)
deriving DecidableEq

/-- The messages to the main isolate, under the identifier of their task. -/
inductive ToMain where
  | started (id : ℕ)
  | error (id : ℕ)
  | done (id : ℕ)
deriving DecidableEq

def ToMain.id : ToMain → ℕ
  | .started id | .error id | .done id => id

/-- Handlers of tasks, suspended in a call of the bridge. The start function
waits for the lock of `RUNNING_SERVER`, for the end of a server left over,
and for the listeners; from there to the result it holds the lock. -/
inductive Handler where
  | locking (id : ℕ) (config : ServerConfig)
  | stoppingPrevious (id : ℕ) (config : ServerConfig) (previous : ℕ)
  | binding (id : ℕ) (config : ServerConfig)
  | bound (id : ℕ) (server : ℕ)
  | stopping (id : ℕ) (server : ℕ)
  | releasing (id : ℕ) (server : ℕ)
  | stopped (id : ℕ)
deriving DecidableEq

/-- The isolate with the `_server` of its `HttpServerService`. -/
structure ServerIsolate where
  sync : SyncState
  server : Option ℕ
  handlers : List Handler

/-! ## §4  The calls of the application -/

/-- A call of `ServerService` that is awaiting. -/
inductive Call where
  /-- `startServer`: the started event. -/
  | starting (id : ℕ) (next : ServerState)
  /-- `startServer` after an error: the end of the subscription. -/
  | failing (next : ServerState)
  /-- `stopServer`: the end of the subscription. -/
  | cancelling (restart : Option StartArgs)
  /-- `stopServer`: the end of the stop task. -/
  | stopping (id : ℕ) (restart : Option StartArgs)
  /-- `restartServer` between its two calls. -/
  | restarting (args : StartArgs)
deriving DecidableEq

/-- The task whose messages a call awaits. -/
def Call.taskId : Call → Option ℕ
  | .starting id _ | .stopping id _ => some id
  | .failing _ | .cancelling _ | .restarting _ => none

/-- A call as it was made. -/
inductive Called where
  | startServer (args : StartArgs)
  | stopServer
  | restartServer (args : StartArgs)
  | setWebPin (pin : Option String)
deriving DecidableEq

/-- `ServerService` and its connection to the isolate. A task is sent in a
microtask after the code that dispatched it. -/
structure ServerService where
  settings : ServerSettings
  state : Option ServerState
  subscription : Option ℕ
  sync : SyncState
  calls : List Call
  microtasks : List IsolateTask
  nextId : ℕ

/-- The whole. `called` and `requests` are the history: every call, and what
every start request asked for. -/
structure Server where
  service : ServerService
  isolate : ServerIsolate
  rust : Rust
  toIsolate : List ToIsolate
  toMain : List ToMain
  called : List Called
  requests : List ServerConfig

/-- The sync state that follows from the state of the service. -/
def ServerService.syncOf (m : ServerService) (next : Option ServerState) : SyncState where
  «alias» := (next.map (·.alias)).getD m.settings.alias
  port := (next.map (·.port)).getD m.settings.port
  protocol := protocolOf ((next.map (·.https)).getD m.settings.https)
  serverRunning := next.isSome
  download := (next.bind (·.webSendState)).isSome

namespace Server

def publish (p : Server) (sync : SyncState) : Server :=
  { p with service := { p.service with sync }, toIsolate := p.toIsolate ++ [.sync sync] }

/-- A new state of the service is published if it changes the sync state. -/
def setState (p : Server) (next : Option ServerState) : Server :=
  let silent := (p.service.state = none ∧ next = none) ∨ p.service.sync = p.service.syncOf next
  let sync := p.service.syncOf next
  let p := { p with service := { p.service with state := next } }
  if silent then p else p.publish sync

def await (p : Server) (call : Call) : Server :=
  { p with service := { p.service with calls := p.service.calls ++ [call] } }

/-- Dispatch a task and await its result. -/
def post (p : Server) (task : ℕ → IsolateTask) (call : ℕ → Call) : Server :=
  let id := p.service.nextId
  { p with service := { p.service with
    microtasks := p.service.microtasks ++ [task id], nextId := id + 1 } }.await (call id)

def startServer (randomAlias : String) (p : Server) (args : StartArgs) : Server :=
  match p.service.state with
  | some _ => p -- already running
  | none =>
      let args := args.normalize randomAlias
      let p := { p.publish args.sync with
        requests := p.requests ++ [args.config p.service.settings] }
      p.post (fun id => .start id (args.task p.service.settings))
        fun id => .starting id args.state

/-- `setWebPin`: the arguments of the restart, if the pin changes. -/
def webPinArgs (state : Option ServerState) (pin : Option String) : Option StartArgs :=
  state.bind fun current =>
    if (current.webSendState.isNone && !current.webUpload) || current.webPin = pin then none
    else some
      { «alias» := current.alias, port := current.port, https := current.https
        webSendState := current.webSendState.map fun s => { s with sessions := [] }
        webUpload := current.webUpload, webPin := pin }

/-- A call up to its first await. -/
def begin (randomAlias : String) (p : Server) (c : Called) : Server :=
  let p := { p with called := p.called ++ [c] }
  match c with
  | .startServer args => p.startServer randomAlias args
  | .stopServer => p.await (.cancelling none)
  | .restartServer args => p.await (.cancelling (some args))
  | .setWebPin pin =>
      match webPinArgs p.service.state pin with
      | none => p
      | some args => p.await (.cancelling (some args))

/-! ## §5  One step -/

/-- A call goes on after an await that depends on no message. -/
def resume (randomAlias : String) (p : Server) : Call → Option Server
  | .failing next =>
      some (p.publish ⟨next.alias, next.port, protocolOf next.https, false, false⟩)
  | .cancelling restart =>
      some ({ p with service := { p.service with subscription := none } }.post .stop
        fun id => .stopping id restart)
  | .restarting args => some (p.startServer randomAlias args)
  | .starting _ _ | .stopping _ _ => none

def endCall (p : Server) (c : Call) : Server :=
  { p with service := { p.service with calls := p.service.calls.erase c } }

/-- A message ends what awaits it: a start is over with the started event or
an error, a stop with the end of its task. -/
def receive (p : Server) (message : ToMain) : Server :=
  match p.service.calls.find? (·.taskId = some message.id), message with
  | some (.starting id next), .started _ =>
      let p := p.endCall (.starting id next)
      { p with service := { p.service with subscription := some id } }.setState (some next)
  | some (.starting id next), .error _ => (p.endCall (.starting id next)).await (.failing next)
  | some (.stopping id restart), .done _ =>
      let p := (p.endCall (.stopping id restart)).setState none
      match restart with
      | none => p
      | some args => p.await (.restarting args)
  | _, _ => p

def suspend (p : Server) (h : Handler) : Server :=
  { p with isolate := { p.isolate with handlers := p.isolate.handlers ++ [h] } }

def tell (p : Server) (message : ToMain) : Server := { p with toMain := p.toMain ++ [message] }

def setServer (p : Server) (server : Option ℕ) : Server :=
  { p with isolate := { p.isolate with server } }

/-- `ServerInstance::stop`: use the `stop_tx`, if it is there. -/
def stopInstance (p : Server) (k : ℕ) : Server :=
  { p with rust := p.rust.setPhase k .stopping }

/-- A message to the isolate, up to the first await of its handler. -/
def handle (p : Server) : ToIsolate → Server
  | .sync s => { p with isolate := { p.isolate with sync := s } }
  | .task (.start id task) =>
      match p.isolate.server with
      | some _ => p.tell (.error id) -- server already running
      | none => p.suspend (.locking id (task.config p.isolate.sync))
  | .task (.stop id) =>
      match p.isolate.server with
      | none => p.suspend (.stopped id)
      | some k =>
          let p := p.setServer none
          if p.rust.takesStop k then (p.stopInstance k).suspend (.stopping id k)
          else p.suspend (.releasing id k)

/-- A handler goes on; `ok` tells whether the listeners could be bound. -/
def proceed (p : Server) (ok : Bool) : Handler → Option Server
  | .locking id config =>
      if p.rust.locked then none
      else
        let running := p.rust.running
        let p := { p with rust := { p.rust with locked := true, running := none } }
        match running with
        | none => some (p.suspend (.binding id config))
        | some k =>
            some (if p.rust.takesStop k then
              (p.stopInstance k).suspend (.stoppingPrevious id config k)
            else p.suspend (.binding id config))
  | .stoppingPrevious id config k =>
      if p.rust.phase k = some .closed then some (p.suspend (.binding id config)) else none
  | .binding id config =>
      if ok then
        if p.rust.portFree config.port then
          let k := p.rust.instances.length
          let instances := p.rust.instances ++ [⟨config, .listening⟩]
          some ({ p with rust := { instances, running := some k, locked := false } }.suspend
            (.bound id k))
        else none
      else some ({ p with rust := { p.rust with locked := false } }.tell (.error id))
  | .bound id k => some ((p.setServer (some k)).tell (.started id))
  | .stopping id k =>
      if p.rust.phase k = some .closed then some (p.suspend (.releasing id k)) else none
  | .releasing id k =>
      if p.rust.locked then none
      else
        let running := p.rust.running.filter fun j => j ≠ k
        some ({ p with rust := { p.rust with running } }.suspend (.stopped id))
  | .stopped id => some (p.tell (.done id))

end Server

inductive Label where
  | call (c : Called)
  | microtask
  | deliver
  | handler (k : ℕ) (ok : Bool)
  | receive
  | resume (k : ℕ)
  | closed (k : ℕ)
  | configure (settings : ServerSettings)

/-- `randomAlias` is what `generateRandomAlias` returns. -/
def serverStep (randomAlias : String) (p : Server) : Label → Option Server
  | .call c => some (p.begin randomAlias c)
  | .microtask =>
      match p.service.microtasks with
      | [] => none
      | task :: microtasks =>
          some { p with
            service := { p.service with microtasks }, toIsolate := p.toIsolate ++ [.task task] }
  | .deliver =>
      match p.toIsolate with
      | [] => none
      | message :: toIsolate => some ({ p with toIsolate }.handle message)
  | .handler k ok =>
      p.isolate.handlers[k]?.bind fun h =>
        { p with isolate := { p.isolate with
          handlers := p.isolate.handlers.eraseIdx k } }.proceed ok h
  | .receive =>
      match p.toMain with
      | [] => none
      | message :: toMain => some ({ p with toMain }.receive message)
  | .resume k =>
      p.service.calls[k]?.bind fun c =>
        { p with service := { p.service with
          calls := p.service.calls.eraseIdx k } }.resume randomAlias c
  | .closed k =>
      if p.rust.phase k = some .stopping then some { p with rust := p.rust.setPhase k .closed }
      else none
  | .configure settings => some { p with service := { p.service with settings } }

/-- The application before its first call. -/
def Server.init (settings : ServerSettings) (sync : SyncState) : Server where
  service := ⟨settings, none, none, sync, [], [], 0⟩
  isolate := ⟨sync, none, []⟩
  rust := ⟨[], none, false⟩
  toIsolate := []
  toMain := []
  called := []
  requests := []

/-! ## §6  What has to agree -/

/-- All calls have returned and no message is in flight. -/
structure Server.Quiet (p : Server) : Prop where
  calls : p.service.calls = []
  microtasks : p.service.microtasks = []
  toIsolate : p.toIsolate = []
  handlers : p.isolate.handlers = []
  toMain : p.toMain = []

/-- **Agreement**: the state is set exactly while a server is listening, which
runs with what the last start request asked for, and not after a stop. -/
structure Server.Agrees (p : Server) : Prop where
  running : p.service.state.isSome = true ↔ p.rust.listening ≠ []
  config : ∀ c ∈ p.rust.listening, p.requests.getLast? = some c
  stopped : p.called.getLast? = some .stopServer → p.rust.listening = []

/-- Whether a call that begins now returns at once. -/
def Server.ignores (p : Server) : Called → Bool
  | .startServer _ => p.service.state.isSome
  | .setWebPin pin => (webPinArgs p.service.state pin).isNone
  | .stopServer | .restartServer _ => false

/-- Whether an awaiting call is one of `stopServer`, or of `startServer` after
its error. -/
def Call.stops : Call → Bool
  | .cancelling restart | .stopping _ restart => restart.isNone
  | .failing _ => true
  | .starting _ _ | .restarting _ => false

/-- No call begins that goes on while another one is awaiting, unless nothing
but stops overlap. -/
def Ordered (p : Server) : Label → Prop
  | .call c => p.ignores c = true ∨ p.service.calls = [] ∨
      (c = .stopServer ∧ ∀ a ∈ p.service.calls, a.stops = true)
  | _ => True

instance (p : Server) : ∀ l, Decidable (Ordered p l)
  | .call c => inferInstanceAs (Decidable (p.ignores c = true ∨ p.service.calls = [] ∨
      (c = .stopServer ∧ ∀ a ∈ p.service.calls, a.stops = true)))
  | .microtask | .deliver | .handler _ _ | .receive | .resume _ | .closed _ | .configure _ =>
      .isTrue trivial

end FireBoxTransfer.ServerLifecycle

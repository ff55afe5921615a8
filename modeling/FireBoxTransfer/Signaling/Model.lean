import FireBoxTransfer.Framework.AssocMap
import FireBoxTransfer.Framework.Runs
import FireBoxTransfer.Core.Model

/-!
# The signaling server

Clients behind one address form a group. A connection handler enters its client
into the group's map, tells the members, greets the client, relays messages until
one of its two tasks ends, and takes the client out again. The maps are only
touched under a lock; the messages are sent after it is released, each into the
bounded queue of its receiver.
-/

namespace FireBoxTransfer.Signaling

/-! ## §1  Messages -/

/-- `Uuid::new_v4`: every connection has its own. -/
abbrev PeerId := ℕ

structure ClientInfoWithoutId where
  «alias» : String
  version : String
  deviceModel : Option String
  deviceType : Option DeviceType
  token : String
deriving DecidableEq

structure ClientInfo extends ClientInfoWithoutId where
  id : PeerId
deriving DecidableEq

/-- `ClientInfo::from`. -/
def ClientInfo.of (info : ClientInfoWithoutId) (id : PeerId) : ClientInfo :=
  { info with id := id }

structure WsServerSdpMessage where
  peer : ClientInfo
  sessionId : String
  sdp : String
deriving DecidableEq

inductive WsServerMessage where
  | hello (client : ClientInfo) (peers : List ClientInfo)
  | join (peer : ClientInfo)
  | update (peer : ClientInfo)
  | left (peerId : PeerId)
  | offer (message : WsServerSdpMessage)
  | answer (message : WsServerSdpMessage)
  | error (code : ℕ)
deriving DecidableEq

structure WsClientSdpMessage where
  sessionId : String
  target : PeerId
  sdp : String
deriving DecidableEq

inductive WsClientMessage where
  | update (info : ClientInfoWithoutId)
  | offer (sdp : WsClientSdpMessage)
  | answer (sdp : WsClientSdpMessage)
deriving DecidableEq

/-! ## §2  Handlers and the server -/

/-- The places of `handle_socket`. -/
inductive Phase where
  | connecting
  /-- The peers that are still to be told, and those that the client is told of. -/
  | joining (peersTx : List PeerId) (peers : List ClientInfo)
  | receiving
  | leaving
  | notifying (remainingTx : List PeerId)
  | rejected
deriving DecidableEq

/-- The places of `recv_task`. -/
inductive RecvTask where
  | waiting
  | handling (msg : WsClientMessage)
  | sending (peersTx : List PeerId) (msg : WsServerMessage)
  | refusing
  | ended
deriving DecidableEq

structure Handler where
  ipGroup : String
  peer : ClientInfoWithoutId
  phase : Phase
  recvTask : RecvTask
  /-- The receiving end of the queue: held by the handler, then by `send_task`. -/
  rxAlive : Bool
  queue : List WsServerMessage
  /-- What `send_task` has written to the client. -/
  written : List WsServerMessage
deriving DecidableEq

structure Limits where
  maxConnections : ℕ
  maxRequests : ℕ

/-- A handler's place in the list is the id of its peer. -/
structure Server where
  txMap : AssocMap String (AssocMap PeerId ClientInfoWithoutId)
  requestCountMap : AssocMap String ℕ
  handlers : List Handler

def Server.init : Server := ⟨.empty, .empty, []⟩

/-- `mpsc::channel(4)`. -/
def capacity : ℕ := 4

/-- Both tasks have been spawned. -/
def Phase.spawned : Phase → Bool
  | .receiving | .leaving | .notifying _ => true
  | _ => false

/-- One of the tasks has ended and the other one is being aborted. -/
def Phase.stopped : Phase → Bool
  | .leaving | .notifying _ => true
  | _ => false

/-- The handler's client is in the map of its group. -/
def Phase.inserted : Phase → Bool
  | .joining _ _ | .receiving | .leaving => true
  | _ => false

def Handler.deliver (h : Handler) (msg : WsServerMessage) : Handler :=
  if h.rxAlive then { h with queue := h.queue ++ [msg] } else h

namespace Server

def modify (s : Server) (i : PeerId) (f : Handler → Handler) : Server :=
  { s with handlers := s.handlers.modify i f }

/-- There is a place in the queue, or nobody to wait for. -/
def hasPlace (s : Server) (target : PeerId) : Bool :=
  match s.handlers[target]? with
  | none => true
  | some t => !t.rxAlive || t.queue.length < capacity

/-- `tx.send(msg).await`: waits for a place in the queue, and does nothing when the
receiver is gone. -/
def send (s : Server) (target : PeerId) (msg : WsServerMessage) : Option Server :=
  if s.hasPlace target then some (s.modify target (·.deliver msg)) else none

/-- The members of a group. -/
def members (s : Server) (ipGroup : String) : AssocMap PeerId ClientInfoWithoutId :=
  (s.txMap.get? ipGroup).getD .empty

/-! ## §3  Critical sections -/

/-- `protect_ddos_request_count`: the counts, and whether the request is admitted. -/
def protectDdosRequestCount (limits : Limits) (s : Server) (ipGroup : String) :
    AssocMap String ℕ × Bool :=
  let count := (s.requestCountMap.get? ipGroup).getD 0
  if count ≥ limits.maxRequests then (s.requestCountMap.insert ipGroup count, false)
  else (s.requestCountMap.insert ipGroup (count + 1), true)

/-- The end of a handler that is turned away. -/
def reject (s : Server) (i : PeerId) : Server :=
  s.modify i fun h => { h with phase := .rejected, recvTask := .ended, rxAlive := false }

/-- The join: the maps are iterated in the order `order`. -/
def lockJoin (limits : Limits) (s : Server) (i : PeerId) (h : Handler) (order : List PeerId) :
    Option Server :=
  let txLocalMap := s.members h.ipGroup
  -- `entry(..).or_insert_with(HashMap::new)`, before the limits are checked
  let s := { s with txMap := s.txMap.insert h.ipGroup txLocalMap }
  if txLocalMap.entries.length ≥ limits.maxConnections then some (s.reject i) else
  let r := s.protectDdosRequestCount limits h.ipGroup
  let s := { s with requestCountMap := r.1 }
  if r.2 = false then some (s.reject i) else
  if order.isPerm txLocalMap.keys then
    let peers := order.filterMap fun k => (txLocalMap.get? k).map fun info => ClientInfo.of info k
    let s := { s with txMap := s.txMap.insert h.ipGroup (txLocalMap.insert i h.peer) }
    some (s.modify i fun h => { h with phase := .joining order peers })
  else none

/-- The leave. -/
def lockLeave (s : Server) (i : PeerId) (h : Handler) (order : List PeerId) : Option Server :=
  match s.txMap.get? h.ipGroup with
  | none => some (s.modify i fun h => { h with phase := .notifying [] })
  | some txLocalMap =>
      let txLocalMap := txLocalMap.filter fun k _ => k ≠ i
      if txLocalMap.isEmpty then
        let s := { s with txMap := s.txMap.filter fun g _ => g ≠ h.ipGroup }
        some (s.modify i fun h => { h with phase := .notifying [] })
      else if order.isPerm txLocalMap.keys then
        let s := { s with txMap := s.txMap.insert h.ipGroup txLocalMap }
        some (s.modify i fun h => { h with phase := .notifying order })
      else none

/-- `send_update_to_other_peers_with_lock`, up to the messages. -/
def lockUpdate (s : Server) (i : PeerId) (h : Handler) (info : ClientInfoWithoutId)
    (order : List PeerId) : Option Server :=
  match s.txMap.get? h.ipGroup with
  | none => some (s.modify i fun h => { h with recvTask := .waiting })
  | some txLocalMap =>
      if (txLocalMap.get? i).isNone then
        some (s.modify i fun h => { h with recvTask := .waiting })
      else if order.isPerm (txLocalMap.keys.filter (· ≠ i)) then
        let s := { s with txMap := s.txMap.insert h.ipGroup (txLocalMap.insert i info) }
        some (s.modify i fun h =>
          { h with recvTask := .sending order (.update (.of info i)) })
      else none

/-- `send_to_peer_with_lock`, up to the message. -/
def lockRelay (s : Server) (i : PeerId) (h : Handler) (target : PeerId)
    (msg : WsServerMessage) : Server :=
  if ((s.members h.ipGroup).get? target).isSome then
    s.modify i fun h => { h with recvTask := .sending [target] msg }
  else s.modify i fun h => { h with recvTask := .waiting }

/-- What the receive task does with a message. -/
def lockMessage (s : Server) (i : PeerId) (h : Handler) (msg : WsClientMessage)
    (order : List PeerId) : Option Server :=
  let origin := ClientInfo.of h.peer i
  match msg with
  | .update info => s.lockUpdate i h info order
  | .offer sdp => some (s.lockRelay i h sdp.target (.offer ⟨origin, sdp.sessionId, sdp.sdp⟩))
  | .answer sdp => some (s.lockRelay i h sdp.target (.answer ⟨origin, sdp.sessionId, sdp.sdp⟩))

end Server

/-! ## §4  One step -/

/-- The steps of a handler and its tasks; the lists say in which order a map is
iterated. -/
inductive Act where
  | lockJoin (order : List PeerId)
  | sendJoin
  | sendHello
  /-- `send_task` takes a message and writes it. -/
  | write
  | writeFails
  /-- `recv_task` reads a message and counts the request. -/
  | receive (msg : WsClientMessage)
  | lockMessage (order : List PeerId)
  | sendMessage
  | closes
  /-- The `select!` between the tasks. -/
  | stop
  | abortSend
  | abortRecv
  | lockLeave (order : List PeerId)
  | sendLeft
deriving DecidableEq

inductive Label where
  | connect (ipGroup : String) (peer : ClientInfoWithoutId)
  /-- The scheduler's clearing of the request counts. -/
  | clear
  | act (i : PeerId) (a : Act)
deriving DecidableEq

def Handler.new (ipGroup : String) (peer : ClientInfoWithoutId) : Handler where
  ipGroup := ipGroup
  peer := peer
  phase := .connecting
  recvTask := .waiting
  rxAlive := true
  queue := []
  written := []

namespace Server

/-- `StatusCode::TOO_MANY_REQUESTS`. -/
def tooManyRequests : ℕ := 429

def act (limits : Limits) (s : Server) (i : PeerId) (h : Handler) : Act → Option Server
  | .lockJoin order =>
      match h.phase with
      | .connecting => s.lockJoin limits i h order
      | _ => none
  | .sendJoin =>
      match h.phase with
      | .joining (p :: rest) peers =>
          (s.send p (.join (.of h.peer i))).map fun s =>
            s.modify i fun h => { h with phase := .joining rest peers }
      | _ => none
  | .sendHello =>
      match h.phase with
      | .joining [] peers =>
          (s.send i (.hello (.of h.peer i) peers)).map fun s =>
            s.modify i fun h => { h with phase := .receiving }
      | _ => none
  | .write =>
      match h.queue with
      | m :: rest =>
          if h.phase.spawned ∧ h.rxAlive then
            some (s.modify i fun h => { h with queue := rest, written := h.written ++ [m] })
          else none
      | [] => none
  | .writeFails =>
      if h.phase.spawned ∧ h.rxAlive then
        some (s.modify i fun h => { h with rxAlive := false, queue := [] })
      else none
  | .receive msg =>
      if h.phase.spawned ∧ h.recvTask = .waiting then
        let r := s.protectDdosRequestCount limits h.ipGroup
        some ({ s with requestCountMap := r.1 }.modify i fun h =>
          { h with recvTask := if r.2 then .handling msg else .refusing })
      else none
  | .lockMessage order =>
      match h.recvTask with
      | .handling msg => s.lockMessage i h msg order
      | _ => none
  | .sendMessage =>
      match h.recvTask with
      | .sending [] _ => some (s.modify i fun h => { h with recvTask := .waiting })
      | .sending (p :: rest) msg =>
          (s.send p msg).map fun s =>
            s.modify i fun h => { h with recvTask := .sending rest msg }
      | .refusing =>
          (s.send i (.error tooManyRequests)).map fun s =>
            s.modify i fun h => { h with recvTask := .ended }
      | _ => none
  | .closes =>
      if h.phase.spawned ∧ h.recvTask = .waiting then
        some (s.modify i fun h => { h with recvTask := .ended })
      else none
  | .stop =>
      if h.phase = .receiving ∧ (h.rxAlive = false ∨ h.recvTask = .ended) then
        some (s.modify i fun h => { h with phase := .leaving })
      else none
  | .abortSend =>
      if h.phase.stopped ∧ h.rxAlive then
        some (s.modify i fun h => { h with rxAlive := false, queue := [] })
      else none
  | .abortRecv =>
      if h.phase.stopped ∧ h.recvTask ≠ .ended then
        some (s.modify i fun h => { h with recvTask := .ended })
      else none
  | .lockLeave order =>
      match h.phase with
      | .leaving => s.lockLeave i h order
      | _ => none
  | .sendLeft =>
      match h.phase with
      | .notifying (p :: rest) =>
          (s.send p (.left i)).map fun s =>
            s.modify i fun h => { h with phase := .notifying rest }
      | _ => none

def step (limits : Limits) (s : Server) : Label → Option Server
  | .connect ipGroup peer => some { s with handlers := s.handlers ++ [.new ipGroup peer] }
  | .clear => some { s with requestCountMap := .empty }
  | .act i a => (s.handlers[i]?).bind fun h => s.act limits i h a

end Server

/-- The next message of an act and its receiver, the Hello apart. -/
def Handler.nextMessage (h : Handler) (i : PeerId) : Act → Option (PeerId × WsServerMessage)
  | .sendJoin =>
      match h.phase with
      | .joining (p :: _) _ => some (p, .join (.of h.peer i))
      | _ => none
  | .sendMessage =>
      match h.recvTask with
      | .sending (p :: _) msg => some (p, msg)
      | .refusing => some (i, .error Server.tooManyRequests)
      | _ => none
  | .sendLeft =>
      match h.phase with
      | .notifying (p :: _) => some (p, .left i)
      | _ => none
  | _ => none

/-! ## §5  The cases of a step -/

/-- What each act finds and leaves behind. -/
inductive Acts (limits : Limits) (s : Server) (i : PeerId) (h : Handler) : Act → Server → Prop
  | full {order} (phase : h.phase = .connecting)
      (tooMany : limits.maxConnections ≤ (s.members h.ipGroup).entries.length) :
      Acts limits s i h (.lockJoin order)
        ({ s with txMap := s.txMap.insert h.ipGroup (s.members h.ipGroup) }.reject i)
  | exhausted {order} (phase : h.phase = .connecting)
      (tooMany : (s.protectDdosRequestCount limits h.ipGroup).2 = false) :
      Acts limits s i h (.lockJoin order)
        (Server.reject
          { s with
            txMap := s.txMap.insert h.ipGroup (s.members h.ipGroup)
            requestCountMap := (s.protectDdosRequestCount limits h.ipGroup).1 } i)
  | entered {order peers} (phase : h.phase = .connecting)
      (under : (s.members h.ipGroup).entries.length < limits.maxConnections)
      (perm : order.Perm (s.members h.ipGroup).keys)
      (hpeers : peers = order.filterMap fun k =>
        ((s.members h.ipGroup).get? k).map fun info => ClientInfo.of info k) :
      Acts limits s i h (.lockJoin order)
        (Server.modify
          { s with
            txMap := (s.txMap.insert h.ipGroup (s.members h.ipGroup)).insert h.ipGroup
              ((s.members h.ipGroup).insert i h.peer)
            requestCountMap := (s.protectDdosRequestCount limits h.ipGroup).1 } i
          fun h => { h with phase := .joining order peers })
  | sendJoin {p rest peers} (phase : h.phase = .joining (p :: rest) peers)
      (place : s.hasPlace p = true) :
      Acts limits s i h .sendJoin
        ((s.modify p (·.deliver (.join (.of h.peer i)))).modify i
          fun h => { h with phase := .joining rest peers })
  | sendHello {peers} (phase : h.phase = .joining [] peers) (place : s.hasPlace i = true) :
      Acts limits s i h .sendHello
        ((s.modify i (·.deliver (.hello (.of h.peer i) peers))).modify i
          fun h => { h with phase := .receiving })
  | write {m rest} (queue : h.queue = m :: rest) (spawned : h.phase.spawned = true)
      (rxAlive : h.rxAlive = true) :
      Acts limits s i h .write
        (s.modify i fun h => { h with queue := rest, written := h.written ++ [m] })
  | writeFails (spawned : h.phase.spawned = true) (rxAlive : h.rxAlive = true) :
      Acts limits s i h .writeFails (s.modify i fun h => { h with rxAlive := false, queue := [] })
  | receive {msg} (spawned : h.phase.spawned = true) (recvTask : h.recvTask = .waiting) :
      Acts limits s i h (.receive msg)
        (Server.modify
          { s with requestCountMap := (s.protectDdosRequestCount limits h.ipGroup).1 } i
          fun h' => { h' with
            recvTask := if (s.protectDdosRequestCount limits h.ipGroup).2 then .handling msg
              else .refusing })
  | nobody {msg order} (recvTask : h.recvTask = .handling msg) :
      Acts limits s i h (.lockMessage order) (s.modify i fun h => { h with recvTask := .waiting })
  | update {info order txLocalMap} (recvTask : h.recvTask = .handling (.update info))
      (table : s.txMap.get? h.ipGroup = some txLocalMap) (member : i ∈ txLocalMap.keys)
      (perm : order.Perm (txLocalMap.keys.filter (· ≠ i))) :
      Acts limits s i h (.lockMessage order)
        (Server.modify
          { s with txMap := s.txMap.insert h.ipGroup (txLocalMap.insert i info) } i
          fun h => { h with recvTask := .sending order (.update (.of info i)) })
  | relay {target msg request order} (recvTask : h.recvTask = .handling request)
      (member : target ∈ (s.members h.ipGroup).keys)
      (sdp : ∃ m, msg = .offer m ∨ msg = .answer m) :
      Acts limits s i h (.lockMessage order)
        (s.modify i fun h => { h with recvTask := .sending [target] msg })
  | sent {msg} (recvTask : h.recvTask = .sending [] msg) :
      Acts limits s i h .sendMessage (s.modify i fun h => { h with recvTask := .waiting })
  | sendMessage {p rest msg} (recvTask : h.recvTask = .sending (p :: rest) msg)
      (place : s.hasPlace p = true) :
      Acts limits s i h .sendMessage
        ((s.modify p (·.deliver msg)).modify i
          fun h => { h with recvTask := .sending rest msg })
  | refuse (recvTask : h.recvTask = .refusing) (place : s.hasPlace i = true) :
      Acts limits s i h .sendMessage
        ((s.modify i (·.deliver (.error Server.tooManyRequests))).modify i
          fun h => { h with recvTask := .ended })
  | closes (spawned : h.phase.spawned = true) (recvTask : h.recvTask = .waiting) :
      Acts limits s i h .closes (s.modify i fun h => { h with recvTask := .ended })
  | stop (phase : h.phase = .receiving) (ended : h.rxAlive = false ∨ h.recvTask = .ended) :
      Acts limits s i h .stop (s.modify i fun h => { h with phase := .leaving })
  | abortSend (stopped : h.phase.stopped = true) (rxAlive : h.rxAlive = true) :
      Acts limits s i h .abortSend (s.modify i fun h => { h with rxAlive := false, queue := [] })
  | abortRecv (stopped : h.phase.stopped = true) (running : h.recvTask ≠ .ended) :
      Acts limits s i h .abortRecv (s.modify i fun h => { h with recvTask := .ended })
  | leftAlready {order} (phase : h.phase = .leaving) (table : s.txMap.get? h.ipGroup = none) :
      Acts limits s i h (.lockLeave order) (s.modify i fun h => { h with phase := .notifying [] })
  | leftLast {order txLocalMap} (phase : h.phase = .leaving)
      (table : s.txMap.get? h.ipGroup = some txLocalMap)
      (last : (txLocalMap.filter fun k _ => k ≠ i).isEmpty = true) :
      Acts limits s i h (.lockLeave order)
        (Server.modify { s with txMap := s.txMap.filter fun g _ => g ≠ h.ipGroup } i
          fun h => { h with phase := .notifying [] })
  | left {order txLocalMap} (phase : h.phase = .leaving)
      (table : s.txMap.get? h.ipGroup = some txLocalMap)
      (others : (txLocalMap.filter fun k _ => k ≠ i).isEmpty = false)
      (perm : order.Perm (txLocalMap.filter fun k _ => k ≠ i).keys) :
      Acts limits s i h (.lockLeave order)
        (Server.modify
          { s with txMap := s.txMap.insert h.ipGroup (txLocalMap.filter fun k _ => k ≠ i) } i
          fun h => { h with phase := .notifying order })
  | sendLeft {p rest} (phase : h.phase = .notifying (p :: rest)) (place : s.hasPlace p = true) :
      Acts limits s i h .sendLeft
        ((s.modify p (·.deliver (.left i))).modify i
          fun h => { h with phase := .notifying rest })

namespace Server

theorem send_eq_some {s s' : Server} {target : PeerId} {msg : WsServerMessage} :
    s.send target msg = some s' ↔
      s.hasPlace target = true ∧ s' = s.modify target (·.deliver msg) := by
  unfold send
  by_cases h : s.hasPlace target = true
  · simp [h, eq_comm]
  · simp [h]

theorem lockJoin_cases {limits : Limits} {s s' : Server} {i : PeerId} {h : Handler}
    {order : List PeerId} (hphase : h.phase = .connecting)
    (hstep : s.lockJoin limits i h order = some s') :
    Acts limits s i h (.lockJoin order) s' := by
  unfold lockJoin at hstep
  simp only at hstep
  split_ifs at hstep with hfull hcount hperm
  · cases hstep
    exact .full hphase hfull
  · cases hstep
    exact .exhausted hphase hcount
  · cases hstep
    exact .entered hphase (Nat.lt_of_not_ge hfull) (List.isPerm_iff.mp hperm) rfl

theorem lockLeave_cases {limits : Limits} {s s' : Server} {i : PeerId} {h : Handler}
    {order : List PeerId} (hphase : h.phase = .leaving)
    (hstep : s.lockLeave i h order = some s') :
    Acts limits s i h (.lockLeave order) s' := by
  unfold lockLeave at hstep
  split at hstep
  · rename_i htable
    cases hstep
    exact .leftAlready hphase htable
  · rename_i txLocalMap htable
    simp only at hstep
    split_ifs at hstep with hlast hperm
    · cases hstep
      exact .leftLast hphase htable hlast
    · cases hstep
      exact .left hphase htable (Bool.eq_false_iff.mpr hlast) (List.isPerm_iff.mp hperm)

theorem lockRelay_cases {limits : Limits} {s : Server} {i target : PeerId} {h : Handler}
    {order : List PeerId} {request : WsClientMessage} {msg : WsServerMessage}
    (hrecv : h.recvTask = .handling request) (hmsg : ∃ m, msg = .offer m ∨ msg = .answer m) :
    Acts limits s i h (.lockMessage order) (s.lockRelay i h target msg) := by
  unfold lockRelay
  split_ifs with hmember
  · exact .relay hrecv (AssocMap.mem_keys_iff.mpr (Option.isSome_iff_exists.mp hmember)) hmsg
  · exact .nobody hrecv

theorem lockMessage_cases {limits : Limits} {s s' : Server} {i : PeerId} {h : Handler}
    {order : List PeerId} {msg : WsClientMessage} (hrecv : h.recvTask = .handling msg)
    (hstep : s.lockMessage i h msg order = some s') :
    Acts limits s i h (.lockMessage order) s' := by
  cases msg with
  | update info =>
      simp only [lockMessage, lockUpdate] at hstep
      split at hstep
      · cases hstep
        exact .nobody hrecv
      · rename_i txLocalMap htable
        split_ifs at hstep with hmember hperm
        · cases hstep
          exact .nobody hrecv
        · cases hstep
          have hkey : i ∈ txLocalMap.keys := by
            rw [AssocMap.mem_keys_iff, ← Option.ne_none_iff_exists']
            simpa using hmember
          exact .update hrecv htable hkey (List.isPerm_iff.mp hperm)
  | offer sdp =>
      cases hstep
      exact lockRelay_cases hrecv ⟨_, .inl rfl⟩
  | answer sdp =>
      cases hstep
      exact lockRelay_cases hrecv ⟨_, .inr rfl⟩

/-- **The cases of an act.** -/
theorem act_cases {limits : Limits} {s s' : Server} {i : PeerId} {h : Handler} {a : Act}
    (hstep : s.act limits i h a = some s') : Acts limits s i h a s' := by
  cases a with
  | lockJoin order =>
      simp only [act] at hstep
      split at hstep
      · rename_i hphase
        exact lockJoin_cases hphase hstep
      · cases hstep
  | sendJoin =>
      simp only [act] at hstep
      split at hstep
      · rename_i hphase
        obtain ⟨s₁, hsend, rfl⟩ := Option.map_eq_some_iff.mp hstep
        obtain ⟨hplace, rfl⟩ := send_eq_some.mp hsend
        exact .sendJoin hphase hplace
      · cases hstep
  | sendHello =>
      simp only [act] at hstep
      split at hstep
      · rename_i hphase
        obtain ⟨s₁, hsend, rfl⟩ := Option.map_eq_some_iff.mp hstep
        obtain ⟨hplace, rfl⟩ := send_eq_some.mp hsend
        exact .sendHello hphase hplace
      · cases hstep
  | write =>
      simp only [act] at hstep
      split at hstep
      · rename_i hqueue
        split_ifs at hstep with hwrite
        cases hstep
        exact .write hqueue hwrite.1 hwrite.2
      · cases hstep
  | writeFails =>
      simp only [act] at hstep
      split_ifs at hstep with hwrite
      cases hstep
      exact .writeFails hwrite.1 hwrite.2
  | receive msg =>
      simp only [act] at hstep
      obtain ⟨hread, hstep⟩ := Option.ite_none_right_eq_some.mp hstep
      cases hstep
      exact .receive hread.1 hread.2
  | lockMessage order =>
      simp only [act] at hstep
      split at hstep
      · rename_i hrecv
        exact lockMessage_cases hrecv hstep
      · cases hstep
  | sendMessage =>
      simp only [act] at hstep
      split at hstep
      · rename_i hrecv
        cases hstep
        exact .sent hrecv
      · rename_i hrecv
        obtain ⟨s₁, hsend, rfl⟩ := Option.map_eq_some_iff.mp hstep
        obtain ⟨hplace, rfl⟩ := send_eq_some.mp hsend
        exact .sendMessage hrecv hplace
      · rename_i hrecv
        obtain ⟨s₁, hsend, rfl⟩ := Option.map_eq_some_iff.mp hstep
        obtain ⟨hplace, rfl⟩ := send_eq_some.mp hsend
        exact .refuse hrecv hplace
      · cases hstep
  | closes =>
      simp only [act] at hstep
      split_ifs at hstep with hread
      cases hstep
      exact .closes hread.1 hread.2
  | stop =>
      simp only [act] at hstep
      split_ifs at hstep with hstop
      cases hstep
      exact .stop hstop.1 hstop.2
  | abortSend =>
      simp only [act] at hstep
      split_ifs at hstep with habort
      cases hstep
      exact .abortSend habort.1 habort.2
  | abortRecv =>
      simp only [act] at hstep
      split_ifs at hstep with habort
      cases hstep
      exact .abortRecv habort.1 habort.2
  | lockLeave order =>
      simp only [act] at hstep
      split at hstep
      · rename_i hphase
        exact lockLeave_cases hphase hstep
      · cases hstep
  | sendLeft =>
      simp only [act] at hstep
      split at hstep
      · rename_i hphase
        obtain ⟨s₁, hsend, rfl⟩ := Option.map_eq_some_iff.mp hstep
        obtain ⟨hplace, rfl⟩ := send_eq_some.mp hsend
        exact .sendLeft hphase hplace
      · cases hstep

theorem step_act {limits : Limits} {s s' : Server} {i : PeerId} {a : Act}
    (hstep : step limits s (.act i a) = some s') :
    ∃ h, s.handlers[i]? = some h ∧ Acts limits s i h a s' := by
  obtain ⟨h, hh, hstep⟩ := Option.bind_eq_some_iff.mp hstep
  exact ⟨h, hh, act_cases hstep⟩

end Server

/-! ## §6  Handlers after a step -/

/-- The group in whose map the handler's client is. -/
def Handler.room (h : Handler) : Option String := if h.phase.inserted then some h.ipGroup else none

@[simp] theorem Handler.deliver_phase (h : Handler) (msg : WsServerMessage) :
    (h.deliver msg).phase = h.phase := by
  unfold deliver
  split <;> rfl

@[simp] theorem Handler.deliver_ipGroup (h : Handler) (msg : WsServerMessage) :
    (h.deliver msg).ipGroup = h.ipGroup := by
  unfold deliver
  split <;> rfl

@[simp] theorem Handler.deliver_room (h : Handler) (msg : WsServerMessage) :
    (h.deliver msg).room = h.room := by
  simp [room]

namespace Server

def room (s : Server) (i : PeerId) : Option String := (s.handlers[i]?).bind Handler.room

theorem handlers_modify_self {s : Server} {i : PeerId} {h : Handler} {f : Handler → Handler}
    (hh : s.handlers[i]? = some h) : (s.modify i f).handlers[i]? = some (f h) := by
  unfold modify
  rw [List.getElem?_modify_eq, hh]
  rfl

theorem handlers_modify_ne {s : Server} {i j : PeerId} {f : Handler → Handler} (hne : i ≠ j) :
    (s.modify i f).handlers[j]? = s.handlers[j]? := by
  unfold modify
  exact List.getElem?_modify_ne f _ hne

@[simp] theorem txMap_modify (s : Server) (i : PeerId) (f : Handler → Handler) :
    (s.modify i f).txMap = s.txMap := rfl

@[simp] theorem members_modify (s : Server) (i : PeerId) (f : Handler → Handler) (g : String) :
    (s.modify i f).members g = s.members g := rfl

theorem members_of_insert {s s' : Server} {g : String}
    {txLocalMap : AssocMap PeerId ClientInfoWithoutId}
    (htable : s'.txMap = s.txMap.insert g txLocalMap) (g' : String) :
    s'.members g' = if g' = g then txLocalMap else s.members g' := by
  unfold members
  rw [htable, AssocMap.get?_insert]
  split_ifs <;> rfl

theorem members_of_filter {s s' : Server} {g : String}
    (htable : s'.txMap = s.txMap.filter fun g' _ => g' ≠ g) (g' : String) :
    s'.members g' = if g' = g then .empty else s.members g' := by
  unfold members
  rw [htable, AssocMap.get?_filter_ne]
  split_ifs <;> rfl

theorem members_eq {s : Server} {g : String} {txLocalMap : AssocMap PeerId ClientInfoWithoutId}
    (htable : s.txMap.get? g = some txLocalMap) : s.members g = txLocalMap := by
  rw [members, htable, Option.getD_some]

/-- A map that has a member is in the table. -/
theorem get?_of_mem_members {s : Server} {g : String} {i : PeerId}
    (hmem : i ∈ (s.members g).keys) : s.txMap.get? g = some (s.members g) := by
  cases hget : s.txMap.get? g with
  | none =>
      rw [members, hget] at hmem
      cases hmem
  | some txLocalMap => rw [members_eq hget]

theorem room_modify {s : Server} {i : PeerId} {h : Handler} {f : Handler → Handler}
    (hh : s.handlers[i]? = some h) (j : PeerId) :
    (s.modify i f).room j = if j = i then (f h).room else s.room j := by
  unfold room
  by_cases hji : j = i
  · subst hji
    rw [handlers_modify_self hh, if_pos rfl, Option.bind_some]
  · rw [handlers_modify_ne (Ne.symm hji), if_neg hji]

/-- A handler that stays in its group leaves every group as it was. -/
theorem room_modify_same {s : Server} {i : PeerId} {f : Handler → Handler}
    (hf : ∀ h, s.handlers[i]? = some h → (f h).room = h.room) (j : PeerId) :
    (s.modify i f).room j = s.room j := by
  cases hi : s.handlers[i]? with
  | none =>
      have hlen : s.handlers.length ≤ i := List.getElem?_eq_none_iff.mp hi
      unfold room modify
      rw [List.modify_eq_self hlen]
  | some h =>
      rw [room_modify hi]
      by_cases hji : j = i
      · subst hji
        have hroom : s.room j = h.room := by simp [room, hi]
        rw [if_pos rfl, hf h hi, hroom]
      · rw [if_neg hji]

@[simp] theorem room_deliver (s : Server) (p : PeerId) (msg : WsServerMessage) (j : PeerId) :
    (s.modify p (·.deliver msg)).room j = s.room j :=
  room_modify_same (fun h _ => h.deliver_room msg) j

/-- A handler after one of them has moved. -/
theorem handlers_modify {s : Server} {i j : PeerId} {h' : Handler} {f : Handler → Handler}
    (hh' : (s.modify i f).handlers[j]? = some h') :
    ∃ h, s.handlers[j]? = some h ∧ h' = if j = i then f h else h := by
  by_cases hji : j = i
  · subst hji
    cases hj : s.handlers[j]? with
    | none => simp [modify, hj] at hh'
    | some h =>
        rw [handlers_modify_self hj, Option.some.injEq] at hh'
        exact ⟨h, rfl, by rw [if_pos rfl, hh']⟩
  · rw [handlers_modify_ne (Ne.symm hji)] at hh'
    exact ⟨h', hh', by rw [if_neg hji]⟩

/-- What holds of every handler holds after one of them has moved, if it holds of this
one. -/
theorem forall_modify {s : Server} {i : PeerId} {f : Handler → Handler} {P : Handler → Prop}
    (hall : ∀ (j : PeerId) (h : Handler), s.handlers[j]? = some h → P h)
    (hf : ∀ h, s.handlers[i]? = some h → P (f h)) (j : PeerId) (h' : Handler)
    (hh' : (s.modify i f).handlers[j]? = some h') : P h' := by
  obtain ⟨h, hh, rfl⟩ := handlers_modify hh'
  split_ifs with hji
  · subst hji
    exact hf h hh
  · exact hall j h hh

/-- A move inside the group after a message, of a handler whose phase is known. -/
theorem room_send_modify {s : Server} {i p : PeerId} {h : Handler} {msg : WsServerMessage}
    {f : Handler → Handler} (hh : s.handlers[i]? = some h)
    (hgroup : ∀ h, (f h).ipGroup = h.ipGroup)
    (hf : ∀ h', h'.phase = h.phase → (f h').phase.inserted = h'.phase.inserted) (j : PeerId) :
    ((s.modify p (·.deliver msg)).modify i f).room j = s.room j := by
  rw [room_modify_same fun h' hh' => ?_, room_deliver]
  obtain ⟨h₀, hh₀, rfl⟩ := handlers_modify hh'
  rw [hh] at hh₀
  obtain rfl := Option.some.inj hh₀
  unfold Handler.room
  rw [hgroup, hf _ (by split <;> simp)]

end Server

end FireBoxTransfer.Signaling

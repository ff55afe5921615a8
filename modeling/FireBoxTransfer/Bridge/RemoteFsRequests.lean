import FireBoxTransfer.Framework.AssocMap
import FireBoxTransfer.Framework.Runs
import FireBoxTransfer.RemoteFs.Model

/-!
# Remote-filesystem requests in the server and the bridge

A handler of the server takes a slot, reads its request, sends an event with a responder to the
bridge and waits for the answer. The bridge draws an identifier for the event, stores the
responder under it and hands the event on; the isolate answers with the identifier. The number
of slots bounds what is under way, and the bridge has a bound of its own on what it stores.
-/

namespace FireBoxTransfer

open Runs

namespace RemoteFsBridge

/-! ## §1  Requests -/

/-- The channel of the answer. A reply comes with the identifier that it was given for. -/
inductive Responder where
  | unsent
  | sent (requestId : ℕ) (reply : RemoteFsReply)
  | dropped
deriving DecidableEq

inductive Outcome where
  | answered (reply : RemoteFsReply)
  | failed (code : RemoteFsErrorCode)
  /-- The client disconnected. -/
  | gone
deriving DecidableEq

/-- Where the handler of a request stands. -/
inductive Phase where
  /-- It reads the body and checks the request. -/
  | parsing
  /-- It waits for room in the event channel. -/
  | sending
  | waiting
  /-- The response body is read, or the body of the request is written. -/
  | serving (reply : RemoteFsReply)
  | ended (outcome : Outcome)
deriving DecidableEq

structure Request where
  request : RemoteFsRequest
  phase : Phase
  responder : Responder
deriving DecidableEq

/-- A responder that was not used is dropped. -/
def Request.drop (q : Request) : Request :=
  if q.responder = .unsent then { q with responder := .dropped } else q

/-- The handler holds a slot. -/
def Phase.isLive : Phase → Bool
  | .ended _ => false
  | _ => true

/-- The kind of responder that a request comes with. -/
inductive Kind where
  | roots | list | entry | delete | read | write
deriving DecidableEq

def Kind.ofRequest : RemoteFsRequest → Kind
  | .roots => .roots
  | .list _ _ _ => .list
  | .metadata _ | .createDirectory _ _ | .rename _ _ | .move _ _ _ _ => .entry
  | .delete _ _ => .delete
  | .read _ => .read
  | .write _ _ _ => .write

/-- The kind that a reply is for; an error is for any. -/
def Kind.ofReply : RemoteFsReply → Option Kind
  | .roots _ => some .roots
  | .list _ => some .list
  | .entry _ => some .entry
  | .deleted => some .delete
  | .read _ _ => some .read
  | .write _ => some .write
  | .error _ => none

/-- How a handler checks an answer before it responds with it. -/
abbrev ReplyCheck : Type := RemoteFsRequest → RemoteFsReply → Except RemoteFsErrorCode Unit

/-! ## §2  The state -/

/-- Where `listen` stands: it waits for an event, for the lock of the responders, or it is about
to hand the event on. -/
inductive Loop where
  | idle
  | handle (r : ℕ)
  | emit (r : ℕ) (requestId : ℕ)
  | ended
deriving DecidableEq

/-- `slots` are the permits that are free, `channel` the events that are sent, `sink` the
identifiers that were handed on. `issued` and `turnedAway` are a history: the identifiers that
were drawn, and the requests that the bound of the bridge kept out. -/
structure State where
  slots : ℕ
  requests : List Request
  channel : List ℕ
  loop : Loop
  pending : AssocMap ℕ ℕ
  sinkOpen : Bool
  sink : List ℕ
  issued : AssocMap ℕ ℕ
  turnedAway : List ℕ

def State.init (maxConcurrentRequests : ℕ) : State where
  slots := maxConcurrentRequests
  requests := []
  channel := []
  loop := .idle
  pending := .empty
  sinkOpen := true
  sink := []
  issued := .empty
  turnedAway := []

/-- `DEFAULT_MAX_CONCURRENT_REQUESTS`. -/
def defaultMaxConcurrentRequests : ℕ := 64

/-- The capacity of the event channel. -/
def eventChannelSize : ℕ := 32

namespace State

def setPhase (p : State) (r : ℕ) (q : Request) (phase : Phase) : State :=
  { p with requests := p.requests.set r { q with phase } }

/-- The handler is over, and its slot is free. -/
def close (p : State) (r : ℕ) (q : Request) (outcome : Outcome) : State :=
  { p.setPhase r q (.ended outcome) with slots := p.slots + 1 }

def dropResponders (p : State) (rs : List ℕ) : State :=
  { p with requests := p.requests.mapIdx fun r q => if r ∈ rs then q.drop else q }

/-- `is_closed` of a stored responder: nobody waits for it any more. -/
def isClosed (p : State) (r : ℕ) : Bool :=
  !(p.requests[r]?.any fun q => q.phase = .waiting)

/-! ## §3  The server -/

/-- `handle_inner`: a request for which there is no slot is turned down at once. -/
def arrive (p : State) (request : RemoteFsRequest) : State :=
  if p.slots = 0 then
    { p with requests := p.requests ++ [⟨request, .ended (.failed .busy), .unsent⟩] }
  else
    { p with
      slots := p.slots - 1
      requests := p.requests ++ [⟨request, .parsing, .unsent⟩] }

/-- What a handler does. -/
inductive Act where
  | parsed (checked : Except RemoteFsErrorCode Unit)
  | send
  | receive
  | timeout
  | disconnect
  | finish (saved : Bool)

/-- A handler takes its answer, and checks it. -/
def answered (check : ReplyCheck) (p : State) (r : ℕ) (q : Request) (reply : RemoteFsReply) :
    State :=
  match reply, check q.request reply with
  | .error code, _ => p.close r q (.failed code)
  | _, .error code => p.close r q (.failed code)
  | .read entry source, .ok () => p.setPhase r q (.serving (.read entry source))
  | .write target, .ok () => p.setPhase r q (.serving (.write target))
  | reply, .ok () => p.close r q (.answered reply)

def act (check : ReplyCheck) (p : State) (r : ℕ) (q : Request) : Phase → Act → Option State
  | .parsing, .parsed (.ok ()) => some (p.setPhase r q .sending)
  | .parsing, .parsed (.error code) => some (p.close r q (.failed code))
  | .sending, .send =>
      if p.loop = .ended then some (p.close r q (.failed .unavailable))
      else if p.channel.length < eventChannelSize then
        some { p.setPhase r q .waiting with channel := p.channel ++ [r] }
      else none
  | .waiting, .receive =>
      match q.responder with
      | .unsent => none
      | .sent _ reply => some (p.answered check r q reply)
      | .dropped => some (p.close r q (.failed .unavailable))
  | .sending, .timeout | .waiting, .timeout => some (p.close r q (.failed .unavailable))
  | .serving (.write _), .finish false => some (p.close r q (.failed .transferFailed))
  | .serving reply, .finish _ => some (p.close r q (.answered reply))
  | .ended _, _ => none
  | _, .disconnect => some (p.close r q .gone)
  | _, _ => none

/-! ## §4  The listen loop -/

/-- Responders that are closed are pruned. -/
def prune (p : State) : State := { p with pending := p.pending.filter fun _ r => !p.isClosed r }

/-- `handle_remote_fs_event`, up to the lock and under it. The identifier is a new one. -/
def draw (p : State) (requestId : ℕ) : Option State :=
  match p.loop with
  | .handle r =>
      if p.issued.get? requestId = none then
        let p := p.prune
        if defaultMaxConcurrentRequests ≤ p.pending.entries.length then
          some { p.dropResponders [r] with loop := .idle, turnedAway := p.turnedAway ++ [r] }
        else
          some { p with
            loop := .emit r requestId
            pending := p.pending.insert requestId r
            issued := p.issued.insert requestId r }
      else none
  | _ => none

/-- The loop ends: what is stored and what is still in the channel is dropped. -/
def endLoop (p : State) : State :=
  { p.dropResponders (p.pending.values ++ p.channel) with
    loop := .ended
    pending := .empty
    channel := [] }

def listen (p : State) : Option State :=
  match p.loop with
  | .idle =>
      match p.channel with
      | [] => none
      | r :: channel => some { p with loop := .handle r, channel }
  | .emit _ requestId =>
      if p.sinkOpen then some { p with loop := .idle, sink := p.sink ++ [requestId] }
      else some p.endLoop
  | .handle _ | .ended => none

/-- An event of another kind that cannot be handed on. -/
def stop (p : State) : Option State :=
  if p.loop = .idle ∧ p.sinkOpen = false then some p.endLoop else none

/-- `remote_fs_cleanup`. -/
def tick (p : State) : Option State := if p.loop = .idle then some p.prune else none

/-! ## §5  Answers -/

/-- The answer is sent, unless nobody waits for it. -/
def deliver (p : State) (requestId r : ℕ) (reply : RemoteFsReply) : State :=
  match p.requests[r]? with
  | some q =>
      if p.isClosed r then p.dropResponders [r]
      else { p with requests := p.requests.set r { q with responder := .sent requestId reply } }
  | none => p

/-- `take_remote_fs_responder`: the responder is no longer stored. -/
def takeResponder (p : State) (requestId : ℕ) : State :=
  { p with pending := p.pending.filter fun id _ => id ≠ requestId }

/-- Descriptors are taken on Android only. -/
def usable (android : Bool) : FileHandle → Bool
  | .path _ => true
  | .descriptor _ => android

/-- The `respond_remote_fs_*` functions. A call that fails changes nothing, unless it took the
responder. -/
def reply (android : Bool) (p : State) (requestId : ℕ) (reply : RemoteFsReply) : State :=
  match p.pending.get? requestId with
  | none => p
  | some r =>
      let taken := p.takeResponder requestId
      match Kind.ofReply reply with
      | none => taken.deliver requestId r reply
      | some kind =>
          if (p.requests[r]?.map fun q => Kind.ofRequest q.request) ≠ some kind then p
          else
            match reply with
            | .read _ source => if usable android source then taken.deliver requestId r reply else p
            | .write target =>
                if usable android target then taken.deliver requestId r reply
                else taken.dropResponders [r]
            | _ => taken.deliver requestId r reply

end State

/-! ## §6  One step -/

/-- `request`, `closeSink` and `reply` come from clients and from the isolate; `parsed`,
`timeout`, `disconnect` and `finish` are up to clients and clocks. -/
inductive Label where
  | request (request : RemoteFsRequest)
  | act (r : ℕ) (a : State.Act)
  | listen
  | draw (requestId : ℕ)
  | tick
  | stop
  | closeSink
  | reply (requestId : ℕ) (reply : RemoteFsReply)

def step (android : Bool) (check : ReplyCheck) (p : State) : Label → Option State
  | .request request => some (p.arrive request)
  | .act r a => p.requests[r]?.bind fun q => p.act check r q q.phase a
  | .listen => p.listen
  | .draw requestId => p.draw requestId
  | .tick => p.tick
  | .stop => p.stop
  | .closeSink => some { p with sinkOpen := false }
  | .reply requestId reply => some (p.reply android requestId reply)

end RemoteFsBridge

end FireBoxTransfer

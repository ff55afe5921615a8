import FireBoxTransfer.Framework.TaskPool
import Mathlib.Data.List.Induction
import Mathlib.Data.List.Nodup

/-!
# Tasks of a child isolate

The parent gives every task an id, listens for the results with this id and
turns them into a stream. The child runs the handlers of its tasks at the same
time; what a handler throws is logged and nothing is sent for it. The stream is
closed by the result `done` alone: an error result is handed on and the stream
stays open, and so it does when a handler ends without a word.

A handler is orderly if it sends events while it runs, and `done` as its last
word. Then the stream of its task ends with it, in every interleaving.
-/

namespace FireBoxTransfer

open Runs TaskPool

namespace Isolates

/-! ## §1  Results and streams -/

structure IsolateTaskStreamResult (R : Type) where
  id : ℕ
  done : Bool
  error : Option String
  data : Option R
deriving DecidableEq

/-- What a handler sends for its task. -/
inductive Reply (R : Type) where
  | event (data : R)
  | done
  | error (error : String)
deriving DecidableEq

/-- The three constructors of a result. -/
def Reply.result {R : Type} (id : ℕ) : Reply R → IsolateTaskStreamResult R
  | .event d => { id, done := false, error := none, data := some d }
  | .done => { id, done := true, error := none, data := none }
  | .error e => { id, done := true, error := some e, data := none }

inductive Item (R : Type) where
  | data (data : R)
  | error (error : String)
deriving DecidableEq

/-- A stream of the parent: what it delivers, whether it is closed and whether
it still listens to the isolate. -/
structure TaskStream (R : Type) where
  items : List (Item R)
  closed : Bool
  subscribed : Bool
deriving DecidableEq

def TaskStream.listening {R : Type} : TaskStream R := ⟨[], false, true⟩

/-- The listener of `convertResponseToStream`. -/
def TaskStream.receive {R : Type} (taskId : ℕ) (stream : TaskStream R)
    (result : IsolateTaskStreamResult R) : TaskStream R :=
  if stream.subscribed && result.id = taskId then
    match result.data with
    | some data => { stream with items := stream.items ++ [.data data] }
    | none =>
        if result.done then
          match result.error with
          | some error => { stream with items := stream.items ++ [.error error] }
          | none => { stream with closed := true, subscribed := false }
        else stream
  else stream

/-! ## §2  Isolates -/

/-- The tasks of a child isolate and the code that handles them. A handler has
points, between which it takes its steps; the handlers share the state of the
isolate. -/
structure ChildIsolate where
  Task : Type
  Shared : Type
  State : Type
  Act : Type
  Data : Type
  fresh : Shared
  /-- Whether the task is sent with `sendWrappedTaskAndListenStream`. -/
  listens : Task → Bool
  start : Shared → Task → Shared × State
  step : ℕ → Shared → State → Act → Option (Shared × State × List (Reply Data))
  /-- The handler has returned or thrown. -/
  isOver : State → Bool

variable {I : ChildIsolate}

/-- A handler that was started. -/
structure Handler (I : ChildIsolate) where
  id : ℕ
  task : I.Task
  state : I.State

/-- The parent's ids and streams, and the two channels. -/
structure Link (I : ChildIsolate) where
  nextId : ℕ
  streams : List (ℕ × TaskStream I.Data)
  toChild : List (ℕ × I.Task)
  toMain : List (IsolateTaskStreamResult I.Data)
  shared : I.Shared

inductive LinkAct (I : ChildIsolate) where
  | send (task : I.Task)
  /-- The id is used elsewhere. -/
  | getNextId
  /-- The child takes the next message. -/
  | handleMessage
  /-- The parent receives the next result. -/
  | receive

/-- The listener of a stream is there before its task is sent. -/
def linkStep (s : Link I) : LinkAct I → Option (Link I × List (Handler I))
  | .send task =>
      some ({ s with
        nextId := s.nextId + 1
        streams := if I.listens task then s.streams ++ [(s.nextId, .listening)] else s.streams
        toChild := s.toChild ++ [(s.nextId, task)] }, [])
  | .getNextId => some ({ s with nextId := s.nextId + 1 }, [])
  | .handleMessage =>
      match s.toChild with
      | [] => none
      | (id, task) :: toChild =>
          some ({ s with toChild, shared := (I.start s.shared task).1 },
            [⟨id, task, (I.start s.shared task).2⟩])
  | .receive =>
      match s.toMain with
      | [] => none
      | result :: toMain =>
          some ({ s with
            toMain
            streams := s.streams.map fun e => (e.1, e.2.receive e.1 result) }, [])

def handlerStep (s : Link I) (t : Handler I) (a : I.Act) :
    Option (Outcome (Link I) (Handler I) (ℕ × Reply I.Data)) :=
  (I.step t.id s.shared t.state a).map fun r =>
    { shared := { s with
        shared := r.1
        toMain := s.toMain ++ r.2.2.map (Reply.result t.id) }
      task := { t with state := r.2.1 }
      seen := r.2.2.map fun reply => (t.id, reply) }

/-- The log of the pool is what was sent to the parent. -/
def machine (I : ChildIsolate) :
    Machine (Link I) (Handler I) I.Act (LinkAct I) (ℕ × Reply I.Data) where
  step := handlerStep
  env := linkStep

abbrev IsolatePool (I : ChildIsolate) : Type := Pool (Link I) (Handler I) (ℕ × Reply I.Data)

def initial (I : ChildIsolate) : IsolatePool I := ⟨⟨0, [], [], [], I.fresh⟩, [], []⟩

/-! ## §3  Orderly handlers -/

/-- What a handler may have sent on its way to a point; the state of the
isolate may change at any time. -/
inductive Behaves (I : ChildIsolate) (good : I.State → I.Act → Prop) (task : I.Task) :
    I.State → List (Reply I.Data) → Prop where
  | start (shared : I.Shared) : Behaves I good task (I.start shared task).2 []
  | step {id : ℕ} {shared shared' : I.Shared} {state state' : I.State} {a : I.Act}
      {sent replies : List (Reply I.Data)} :
      Behaves I good task state sent → good state a →
      I.step id shared state a = some (shared', state', replies) →
      Behaves I good task state' (sent ++ replies)

/-- The last word of a handler. -/
def closing {R : Type} (isOver : Bool) : List (Reply R) := if isOver then [.done] else []

/-- Events while it runs, and `done` at the end. -/
def Orderly (I : ChildIsolate) (good : I.State → I.Act → Prop) : Prop :=
  ∀ task state sent, I.listens task = true → Behaves I good task state sent →
    ∃ events : List I.Data, sent = events.map .event ++ closing (I.isOver state)

/-- The rule for orderly handlers. A good step sends events, and `done` behind
them if the handler is over with it; a handler that is over is silent. -/
theorem orderly_of_step {good : I.State → I.Act → Prop} {J : I.State → Prop}
    (hstart : ∀ shared task, I.listens task = true →
      J (I.start shared task).2 ∧ I.isOver (I.start shared task).2 = false)
    (hstep : ∀ id shared state a shared' state' replies, J state → good state a →
      I.step id shared state a = some (shared', state', replies) → J state' ∧
        ((I.isOver state = false ∧
          ∃ events : List I.Data, replies = events.map .event ++ closing (I.isOver state')) ∨
        (I.isOver state = true ∧ I.isOver state' = true ∧ replies = []))) : Orderly I good := by
  intro task state sent hlistens hbehaves
  have hall : J state ∧
      ∃ events : List I.Data, sent = events.map .event ++ closing (I.isOver state) := by
    induction hbehaves with
    | start shared =>
        obtain ⟨hJ, hover⟩ := hstart shared task hlistens
        exact ⟨hJ, [], by rw [hover]; rfl⟩
    | step _ hgood hmove ih =>
        obtain ⟨hJ, events, rfl⟩ := ih
        obtain ⟨hJ', ⟨hover, more, rfl⟩ | ⟨hover, hover', rfl⟩⟩ :=
          hstep _ _ _ _ _ _ _ hJ hgood hmove
        · refine ⟨hJ', events ++ more, ?_⟩
          have hsilent : (closing false : List (Reply I.Data)) = [] := rfl
          rw [hover, hsilent, List.append_nil, List.map_append, List.append_assoc]
        · refine ⟨hJ', events, ?_⟩
          rw [hover, hover', List.append_nil]
  exact hall.2

/-- The handlers of the listened tasks take good steps. -/
def GoodSteps (good : I.State → I.Act → Prop) (p : IsolatePool I) :
    Label I.Act (LinkAct I) → Prop
  | .task i a => ∀ t, p.tasks[i]? = some t → I.listens t.task = true → good t.state a
  | .env _ => True

/-! ## §4  What a stream has -/

section Streams

variable {R : Type} {id : ℕ} {log : List (ℕ × Reply R)}

/-- What was sent for a task. -/
def repliesOf (id : ℕ) (log : List (ℕ × Reply R)) : List (Reply R) :=
  (log.filter fun e => e.1 = id).map Prod.snd

theorem repliesOf_append (log' : List (ℕ × Reply R)) :
    repliesOf id (log ++ log') = repliesOf id log ++ repliesOf id log' := by
  unfold repliesOf
  rw [List.filter_append, List.map_append]

theorem repliesOf_map_self (replies : List (Reply R)) :
    repliesOf id (replies.map fun reply => (id, reply)) = replies := by
  unfold repliesOf
  induction replies with
  | nil => rfl
  | cons reply replies ih =>
      rw [List.map_cons, List.filter_cons_of_pos (by simp), List.map_cons, ih]

theorem repliesOf_map_ne {id' : ℕ} (h : id' ≠ id) (replies : List (Reply R)) :
    repliesOf id (replies.map fun reply => (id', reply)) = [] := by
  unfold repliesOf
  rw [List.filter_eq_nil_iff.mpr, List.map_nil]
  intro e he
  obtain ⟨reply, -, rfl⟩ := List.mem_map.mp he
  simpa using h

theorem repliesOf_eq_nil (h : ∀ e ∈ log, e.1 ≠ id) : repliesOf id log = [] := by
  unfold repliesOf
  rw [List.filter_eq_nil_iff.mpr, List.map_nil]
  intro e he
  simpa using h e he

def Item.ofReply : Reply R → Option (Item R)
  | .event d => some (.data d)
  | .error e => some (.error e)
  | .done => none

/-- What a stream is to deliver of some replies: the events in order, then the
error. -/
def itemsOf (replies : List (Reply R)) : List (Item R) := replies.filterMap Item.ofReply

/-- The stream after these replies. -/
def TaskStream.after (id : ℕ) (replies : List (Reply R)) : TaskStream R :=
  replies.foldl (fun stream reply => stream.receive id (reply.result id)) .listening

theorem receive_event {stream : TaskStream R} (h : stream.subscribed = true) (data : R) :
    stream.receive id ((Reply.event data).result id) =
      { stream with items := stream.items ++ [.data data] } := by
  unfold TaskStream.receive
  rw [if_pos (by simp [h, Reply.result])]
  rfl

theorem receive_done {stream : TaskStream R} (h : stream.subscribed = true) :
    stream.receive id ((Reply.done).result id) =
      { stream with closed := true, subscribed := false } := by
  unfold TaskStream.receive
  rw [if_pos (by simp [h, Reply.result])]
  rfl

theorem receive_other {stream : TaskStream R} {id' : ℕ} (h : id' ≠ id) (reply : Reply R) :
    stream.receive id (reply.result id') = stream := by
  unfold TaskStream.receive
  rw [if_neg]
  cases reply with
  | event data => simp [Reply.result, h]
  | done => simp [Reply.result, h]
  | error error => simp [Reply.result, h]

theorem after_events (events : List R) :
    TaskStream.after id (events.map .event) = ⟨events.map .data, false, true⟩ := by
  induction events using List.reverseRecOn with
  | nil => rfl
  | append_singleton events data ih =>
      unfold TaskStream.after at ih ⊢
      rw [List.map_append, List.map_singleton, List.foldl_concat, ih, receive_event rfl,
        List.map_append, List.map_singleton]

theorem after_closing (events : List R) (isOver : Bool) :
    TaskStream.after id (events.map .event ++ closing isOver) =
      ⟨events.map .data, isOver, !isOver⟩ := by
  cases isOver with
  | false =>
      unfold closing
      rw [if_neg (by decide), List.append_nil]
      exact after_events events
  | true =>
      have hevents : TaskStream.after id (events.map .event) = _ := after_events events
      unfold TaskStream.after at hevents ⊢
      unfold closing
      rw [if_pos rfl, List.foldl_concat, hevents, receive_done rfl]
      rfl

theorem itemsOf_closing (events : List R) (isOver : Bool) :
    itemsOf (events.map .event ++ closing isOver) = events.map .data := by
  unfold itemsOf
  rw [List.filterMap_append, List.filterMap_map]
  have hclosing : (closing isOver : List (Reply R)).filterMap Item.ofReply = [] := by
    cases isOver with
    | false => rfl
    | true => rfl
  rw [hclosing, List.append_nil]
  exact congrFun (List.filterMap_eq_map ..) _

end Streams

/-! ## §5  One step -/

section Invariant

variable {good : I.State → I.Act → Prop}

/-- What was received so far is in the streams, the rest is on its way. -/
def Received (log : List (ℕ × Reply I.Data)) (s : Link I) : Prop :=
  ∃ received inFlight, log = received ++ inFlight ∧
    s.toMain = inFlight.map (fun e => e.2.result e.1) ∧
    ∀ e ∈ s.streams, e.2 = .after e.1 (repliesOf e.1 received)

/-- A task that is on its way was not heard of before. -/
structure Sent (log : List (ℕ × Reply I.Data)) (s : Link I) : Prop where
  received : Received log s
  log_lt : ∀ e ∈ log, e.1 < s.nextId
  streams_lt : ∀ e ∈ s.streams, e.1 < s.nextId
  waiting_lt : ∀ e ∈ s.toChild, e.1 < s.nextId
  waiting_nodup : (s.toChild.map Prod.fst).Nodup
  waiting_silent : ∀ e ∈ s.toChild, repliesOf e.1 log = []
  waiting_listens : ∀ e ∈ s.toChild, e.1 ∈ s.streams.map Prod.fst → I.listens e.2 = true

structure Handles (good : I.State → I.Act → Prop) (log : List (ℕ × Reply I.Data)) (s : Link I)
    (t : Handler I) : Prop where
  lt : t.id < s.nextId
  not_waiting : t.id ∉ s.toChild.map Prod.fst
  listens : t.id ∈ s.streams.map Prod.fst → I.listens t.task = true
  behaves : I.listens t.task = true → Behaves I good t.task t.state (repliesOf t.id log)

def protocol (good : I.State → I.Act → Prop) : Assertion (Link I) (Handler I) (ℕ × Reply I.Data)
    where
  glob := Sent
  loc := Handles good
  pair t u := t.id ≠ u.id

theorem handlerStep_cases {s : Link I} {t : Handler I} {a : I.Act}
    {o : Outcome (Link I) (Handler I) (ℕ × Reply I.Data)} (h : handlerStep s t a = some o) :
    ∃ shared state replies, I.step t.id s.shared t.state a = some (shared, state, replies) ∧
      o.shared = { s with
        shared := shared
        toMain := s.toMain ++ replies.map (Reply.result t.id) } ∧
      o.task = { t with state := state } ∧ o.spawned = [] ∧
      o.seen = replies.map fun reply => (t.id, reply) := by
  obtain ⟨⟨shared, state, replies⟩, hstep, rfl⟩ := Option.map_eq_some_iff.mp h
  exact ⟨shared, state, replies, hstep, rfl, rfl, rfl, rfl⟩

/-- What a handler sends is on its way. -/
theorem Sent.send {log : List (ℕ × Reply I.Data)} {s : Link I} {t : Handler I} (h : Sent log s)
    (ht : Handles good log s t) (shared : I.Shared) (replies : List (Reply I.Data)) :
    Sent (log ++ replies.map fun reply => (t.id, reply))
      { s with shared := shared, toMain := s.toMain ++ replies.map (Reply.result t.id) } := by
  have hid : ∀ e ∈ s.toChild, t.id ≠ e.1 := by
    intro e he heq
    exact ht.not_waiting (List.mem_map.mpr ⟨e, he, heq.symm⟩)
  constructor
  · obtain ⟨received, inFlight, rfl, hmain, hstreams⟩ := h.received
    refine ⟨received, inFlight ++ replies.map fun reply => (t.id, reply), ?_, ?_, hstreams⟩
    · rw [List.append_assoc]
    · show s.toMain ++ _ = _
      rw [hmain, List.map_append, List.map_map]
      rfl
  · intro e he
    rcases List.mem_append.mp he with he | he
    · exact h.log_lt e he
    · obtain ⟨reply, -, rfl⟩ := List.mem_map.mp he
      exact ht.lt
  · exact h.streams_lt
  · exact h.waiting_lt
  · exact h.waiting_nodup
  · intro e he
    rw [repliesOf_append, h.waiting_silent e he, repliesOf_map_ne (hid e he)]
    rfl
  · exact h.waiting_listens

/-- The parent receives the next result. -/
theorem Received.receive {log : List (ℕ × Reply I.Data)} {s : Link I} (h : Received log s)
    {result : IsolateTaskStreamResult I.Data} {toMain : List (IsolateTaskStreamResult I.Data)}
    (hmain : s.toMain = result :: toMain) :
    Received log { s with
      toMain := toMain
      streams := s.streams.map fun e => (e.1, e.2.receive e.1 result) } := by
  obtain ⟨received, inFlight, rfl, hflight, hstreams⟩ := h
  cases inFlight with
  | nil =>
      rw [hmain] at hflight
      cases hflight
  | cons next inFlight =>
      rw [hmain, List.map_cons] at hflight
      obtain ⟨rfl, rfl⟩ := List.cons.inj hflight
      refine ⟨received ++ [next], inFlight, by simp, rfl, fun e he => ?_⟩
      obtain ⟨old, hold, rfl⟩ := List.mem_map.mp he
      show old.2.receive old.1 _ = TaskStream.after old.1 (repliesOf old.1 (received ++ [next]))
      rw [repliesOf_append, hstreams old hold]
      by_cases hid : next.1 = old.1
      · have hnext : repliesOf old.1 [next] = [next.2] := by
          unfold repliesOf
          rw [List.filter_cons_of_pos (by simpa using hid)]
          rfl
        unfold TaskStream.after
        rw [hnext, List.foldl_concat, hid]
      · have hnext : repliesOf old.1 [next] = [] :=
          repliesOf_eq_nil fun e he => by rwa [List.mem_singleton.mp he]
        rw [hnext, List.append_nil, receive_other hid]

theorem mem_streams_send {s : Link I} {task : I.Task} {e : ℕ × TaskStream I.Data}
    (h : e ∈ if I.listens task then s.streams ++ [(s.nextId, .listening)] else s.streams) :
    e ∈ s.streams ∨ (I.listens task = true ∧ e = (s.nextId, .listening)) := by
  split_ifs at h with hlistens
  · rcases List.mem_append.mp h with h | h
    · exact .inl h
    · exact .inr ⟨hlistens, List.mem_singleton.mp h⟩
  · exact .inl h

/-- The new id was not used before. -/
theorem Sent.sendTask {log : List (ℕ × Reply I.Data)} {s : Link I} (h : Sent log s)
    (task : I.Task) :
    Sent log { s with
      nextId := s.nextId + 1
      streams := if I.listens task then s.streams ++ [(s.nextId, .listening)] else s.streams
      toChild := s.toChild ++ [(s.nextId, task)] } := by
  have hsilent : ∀ log', (∀ e ∈ log', e ∈ log) → repliesOf s.nextId log' = [] := by
    intro log' hsub
    refine repliesOf_eq_nil fun e he => ?_
    exact Nat.ne_of_lt (h.log_lt e (hsub e he))
  constructor
  · obtain ⟨received, inFlight, rfl, hmain, hstreams⟩ := h.received
    refine ⟨received, inFlight, rfl, hmain, fun e he => ?_⟩
    rcases mem_streams_send he with he | ⟨-, rfl⟩
    · exact hstreams e he
    · rw [hsilent received fun e he => List.mem_append_left _ he]
      rfl
  · exact fun e he => Nat.lt_succ_of_lt (h.log_lt e he)
  · intro e he
    rcases mem_streams_send he with he | ⟨-, rfl⟩
    · exact Nat.lt_succ_of_lt (h.streams_lt e he)
    · exact Nat.lt_succ_self _
  · intro e he
    rcases List.mem_append.mp he with he | he
    · exact Nat.lt_succ_of_lt (h.waiting_lt e he)
    · rw [List.mem_singleton.mp he]
      exact Nat.lt_succ_self _
  · rw [List.map_append, List.nodup_append]
    refine ⟨h.waiting_nodup, List.nodup_singleton _, fun id hid id' hid' => ?_⟩
    obtain ⟨e, he, rfl⟩ := List.mem_map.mp hid
    obtain rfl := List.mem_singleton.mp hid'
    exact Nat.ne_of_lt (h.waiting_lt e he)
  · intro e he
    rcases List.mem_append.mp he with he | he
    · exact h.waiting_silent e he
    · rw [List.mem_singleton.mp he]
      exact hsilent log fun _ he => he
  · intro e he hlistened
    obtain ⟨stream, hstream, heq⟩ := List.mem_map.mp hlistened
    rcases List.mem_append.mp he with he | he
    · rcases mem_streams_send hstream with hold | ⟨-, rfl⟩
      · exact h.waiting_listens e he (heq ▸ List.mem_map_of_mem hold)
      · exact absurd heq (Nat.ne_of_gt (h.waiting_lt e he))
    · rw [List.mem_singleton.mp he] at heq ⊢
      rcases mem_streams_send hstream with hold | ⟨hlistens, -⟩
      · exact absurd heq (Nat.ne_of_lt (h.streams_lt stream hold))
      · exact hlistens

/-- A message is handled: the task is not on its way any more. -/
theorem Sent.handleMessage {log : List (ℕ × Reply I.Data)} {s : Link I} (h : Sent log s)
    {e : ℕ × I.Task} {toChild : List (ℕ × I.Task)} (hchild : s.toChild = e :: toChild)
    (shared : I.Shared) : Sent log { s with toChild := toChild, shared := shared } := by
  have hmem : ∀ e' ∈ toChild, e' ∈ s.toChild := fun e' he' => by
    rw [hchild]
    exact List.mem_cons_of_mem _ he'
  have hnodup := h.waiting_nodup
  rw [hchild, List.map_cons, List.nodup_cons] at hnodup
  constructor
  · exact h.received
  · exact h.log_lt
  · exact h.streams_lt
  · exact fun e' he' => h.waiting_lt e' (hmem e' he')
  · exact hnodup.2
  · exact fun e' he' => h.waiting_silent e' (hmem e' he')
  · exact fun e' he' => h.waiting_listens e' (hmem e' he')

theorem Handles.frame {log : List (ℕ × Reply I.Data)} {s : Link I} {t u : Handler I}
    (h : Handles good log s u) (hne : t.id ≠ u.id) (shared : I.Shared)
    (replies : List (Reply I.Data)) (toMain : List (IsolateTaskStreamResult I.Data)) :
    Handles good (log ++ replies.map fun reply => (t.id, reply))
      { s with shared := shared, toMain := toMain } u where
  lt := h.lt
  not_waiting := h.not_waiting
  listens := h.listens
  behaves hlistens := by
    rw [repliesOf_append, repliesOf_map_ne hne, List.append_nil]
    exact h.behaves hlistens

/-! ## §6  Every run -/

theorem protocol_own {p : IsolatePool I} {i : ℕ} {a : I.Act} {t : Handler I}
    {o : Outcome (Link I) (Handler I) (ℕ × Reply I.Data)} (hp : (protocol good).Holds p)
    (hok : GoodSteps good p (.task i a)) (ht : p.tasks[i]? = some t)
    (ho : handlerStep p.shared t a = some o) :
    Sent (p.log ++ o.seen) o.shared ∧
      ∀ u ∈ o.task :: o.spawned, Handles good (p.log ++ o.seen) o.shared u := by
  have hglob : Sent p.log p.shared := hp.glob
  have hloc : Handles good p.log p.shared t := hp.loc ht
  obtain ⟨shared, state, replies, hstep, hshared, htask, hspawned, hseen⟩ := handlerStep_cases ho
  rw [hshared, htask, hspawned, hseen]
  refine ⟨hglob.send hloc shared replies, fun u hu => ?_⟩
  rw [List.mem_singleton.mp hu]
  exact {
    lt := hloc.lt
    not_waiting := hloc.not_waiting
    listens := hloc.listens
    behaves := fun hlistens => by
      rw [repliesOf_append, repliesOf_map_self]
      exact .step (hloc.behaves hlistens) (hok t ht hlistens) hstep }

theorem protocol_env {p : IsolatePool I} {e : LinkAct I} {s : Link I} {ts : List (Handler I)}
    (hp : (protocol good).Holds p) (he : linkStep p.shared e = some (s, ts)) :
    Sent p.log s ∧ (∀ {i : ℕ} {u : Handler I}, p.tasks[i]? = some u → Handles good p.log s u) ∧
      (∀ u ∈ ts, Handles good p.log s u) ∧
      (∀ {i : ℕ} {u : Handler I}, p.tasks[i]? = some u → ∀ v ∈ ts, v.id ≠ u.id) ∧
      ts.Pairwise fun t u => t.id ≠ u.id := by
  have hglob : Sent p.log p.shared := hp.glob
  have hloc : ∀ {i : ℕ} {u : Handler I}, p.tasks[i]? = some u → Handles good p.log p.shared u :=
    fun hu => hp.loc hu
  cases e with
  | send task =>
      obtain ⟨rfl, rfl⟩ := Prod.mk.inj (Option.some.inj he)
      refine ⟨hglob.sendTask task, fun hu => ?_, nofun, fun _ => nofun, .nil⟩
      have hu := hloc hu
      constructor
      · exact Nat.lt_succ_of_lt hu.lt
      · rw [List.map_append, List.mem_append, not_or]
        exact ⟨hu.not_waiting, fun hnew => Nat.ne_of_lt hu.lt (List.mem_singleton.mp hnew)⟩
      · intro hlistened
        obtain ⟨stream, hstream, heq⟩ := List.mem_map.mp hlistened
        rcases mem_streams_send hstream with hold | ⟨-, rfl⟩
        · exact hu.listens (heq ▸ List.mem_map_of_mem hold)
        · exact absurd heq (Nat.ne_of_gt hu.lt)
      · exact hu.behaves
  | getNextId =>
      obtain ⟨rfl, rfl⟩ := Prod.mk.inj (Option.some.inj he)
      have hlt : ∀ {n : ℕ}, n < p.shared.nextId → n < p.shared.nextId + 1 := Nat.lt_succ_of_lt
      refine ⟨?_, fun hu => ?_, nofun, fun _ => nofun, .nil⟩
      · exact { hglob with
          log_lt := fun e he => hlt (hglob.log_lt e he)
          streams_lt := fun e he => hlt (hglob.streams_lt e he)
          waiting_lt := fun e he => hlt (hglob.waiting_lt e he) }
      · exact { hloc hu with lt := hlt (hloc hu).lt }
  | handleMessage =>
      unfold linkStep at he
      dsimp only at he
      split at he
      · cases he
      · rename_i id task toChild hchild
        obtain ⟨rfl, rfl⟩ := Prod.mk.inj (Option.some.inj he)
        have hfirst : (id, task) ∈ p.shared.toChild := by
          rw [hchild]
          exact List.mem_cons_self
        have hnodup := hglob.waiting_nodup
        rw [hchild, List.map_cons, List.nodup_cons] at hnodup
        have hother : ∀ {i : ℕ} {u : Handler I}, p.tasks[i]? = some u → id ≠ u.id := by
          intro i u hu heq
          exact (hloc hu).not_waiting (List.mem_map.mpr ⟨_, hfirst, heq⟩)
        refine ⟨hglob.handleMessage hchild _, fun hu => ?_, fun u hu => ?_, fun hu v hv => ?_,
          List.pairwise_singleton ..⟩
        · refine { hloc hu with not_waiting := fun hmem => (hloc hu).not_waiting ?_ }
          rw [hchild]
          exact List.mem_cons_of_mem _ hmem
        · rw [List.mem_singleton.mp hu]
          constructor
          · exact hglob.waiting_lt _ hfirst
          · exact hnodup.1
          · exact hglob.waiting_listens _ hfirst
          · intro _
            rw [hglob.waiting_silent _ hfirst]
            exact .start _
        · rw [List.mem_singleton.mp hv]
          exact hother hu
  | receive =>
      unfold linkStep at he
      dsimp only at he
      split at he
      · cases he
      · rename_i result toMain hmain
        obtain ⟨rfl, rfl⟩ := Prod.mk.inj (Option.some.inj he)
        have hids : (p.shared.streams.map fun e => (e.1, e.2.receive e.1 result)).map Prod.fst =
            p.shared.streams.map Prod.fst := by
          rw [List.map_map]
          rfl
        refine ⟨?_, fun hu => ?_, nofun, fun _ => nofun, .nil⟩
        · refine { hglob with
            received := hglob.received.receive hmain
            streams_lt := fun e he => ?_
            waiting_listens := fun e he hlistened => ?_ }
          · obtain ⟨old, hold, rfl⟩ := List.mem_map.mp he
            exact hglob.streams_lt old hold
          · exact hglob.waiting_listens e he (hids ▸ hlistened)
        · exact { hloc hu with listens := fun hlistened => (hloc hu).listens (hids ▸ hlistened) }

theorem protocol_stable (good : I.State → I.Act → Prop) :
    (protocol good).Stable (machine I) (GoodSteps good) where
  symm h := Ne.symm h
  own hp hok ht ho := protocol_own hp hok ht ho
  frame hp _ ht ho hji hu := by
    obtain ⟨shared, state, replies, -, hshared, -, -, hseen⟩ := handlerStep_cases ho
    rw [hshared, hseen]
    exact (hp.loc hu).frame (hp.pair (Ne.symm hji) ht hu) _ _ _
  apart hp _ ht ho hji hu v hv := by
    obtain ⟨shared, state, replies, -, -, htask, hspawned, -⟩ := handlerStep_cases ho
    rw [htask, hspawned] at hv
    obtain rfl := List.mem_singleton.mp hv
    have hpair : (protocol good).pair _ _ := hp.pair (Ne.symm hji) ht hu
    exact hpair
  fork _ _ _ ho := by
    obtain ⟨shared, state, replies, -, -, -, hspawned, -⟩ := handlerStep_cases ho
    rw [hspawned]
    exact List.pairwise_singleton ..
  env hp _ he := protocol_env hp he

theorem protocol_run {p : IsolatePool I}
    (h : Run (machine I).poolStep (GoodSteps good) (initial I) p) : (protocol good).Holds p := by
  refine (protocol_stable good).run (Assertion.holds_nil ?_) h
  constructor
  · exact ⟨[], [], rfl, rfl, nofun⟩
  · exact nofun
  · exact nofun
  · exact nofun
  · exact .nil
  · exact nofun
  · exact nofun

/-- A stream delivers what was sent, as far as it was received. -/
theorem after_items (id : ℕ) (replies : List (Reply I.Data)) :
    ∃ later, itemsOf replies = (TaskStream.after id replies).items ++ later ∧
      ((TaskStream.after id replies).subscribed = true → later = []) := by
  induction replies using List.reverseRecOn with
  | nil => exact ⟨[], rfl, fun _ => rfl⟩
  | append_singleton replies reply ih =>
      obtain ⟨later, hitems, hlater⟩ := ih
      have hstep : TaskStream.after id (replies ++ [reply]) =
          (TaskStream.after id replies).receive id (reply.result id) := List.foldl_concat ..
      have hsplit : itemsOf (replies ++ [reply]) = itemsOf replies ++ itemsOf [reply] :=
        List.filterMap_append
      rw [hstep, hsplit, hitems]
      cases hsubscribed : (TaskStream.after id replies).subscribed with
      | false =>
          refine ⟨later ++ itemsOf [reply], ?_, fun hstill => ?_⟩
          · unfold TaskStream.receive
            rw [if_neg (by simp [hsubscribed]), List.append_assoc]
          · unfold TaskStream.receive at hstill
            rw [if_neg (by simp [hsubscribed]), hsubscribed] at hstill
            cases hstill
      | true =>
          obtain rfl := hlater hsubscribed
          cases reply with
          | event data =>
              rw [receive_event hsubscribed]
              exact ⟨[], by simp [itemsOf, Item.ofReply], fun _ => rfl⟩
          | done =>
              rw [receive_done hsubscribed]
              exact ⟨[], by simp [itemsOf, Item.ofReply], fun _ => rfl⟩
          | error error =>
              have herror :
                  (TaskStream.after id replies).receive id ((Reply.error error).result id) =
                    { TaskStream.after id replies with
                      items := (TaskStream.after id replies).items ++ [.error error] } := by
                unfold TaskStream.receive
                rw [if_pos (by simp [hsubscribed, Reply.result])]
                rfl
              rw [herror]
              exact ⟨[], by simp [itemsOf, Item.ofReply], fun _ => rfl⟩

end Invariant

/-- The streams of the parent end with their tasks: each delivers what the
handler of its task has sent, in order, and when all of it has arrived, nothing
is missing and the stream is closed if and only if the handler is over. -/
def StreamsEnd (I : ChildIsolate) (good : I.State → I.Act → Prop) : Prop :=
  ∀ p, Run (machine I).poolStep (GoodSteps good) (initial I) p →
    ∀ id stream, (id, stream) ∈ p.shared.streams →
      (∃ later, itemsOf (repliesOf id p.log) = stream.items ++ later) ∧
      ∀ t ∈ p.tasks, t.id = id → (∀ result ∈ p.shared.toMain, result.id ≠ id) →
        stream.items = itemsOf (repliesOf id p.log) ∧
          stream.closed = I.isOver t.state ∧ stream.subscribed = !I.isOver t.state

/-- **Streams end with orderly handlers.** -/
theorem Orderly.streamsEnd {good : I.State → I.Act → Prop} (hI : Orderly I good) :
    StreamsEnd I good := by
  intro p hrun id stream hstream
  have hp := protocol_run hrun
  have hglob : Sent p.log p.shared := hp.glob
  obtain ⟨received, inFlight, hlog, hmain, hstreams⟩ := hglob.received
  have hafter : stream = .after id (repliesOf id received) := hstreams _ hstream
  constructor
  · obtain ⟨later, hitems, -⟩ := after_items id (repliesOf id received)
    refine ⟨later ++ itemsOf (repliesOf id inFlight), ?_⟩
    have hsplit : itemsOf (repliesOf id p.log) =
        itemsOf (repliesOf id received) ++ itemsOf (repliesOf id inFlight) := by
      rw [hlog, repliesOf_append]
      exact List.filterMap_append
    rw [hsplit, hitems, hafter, List.append_assoc]
  · intro t ht hid harrived
    obtain ⟨i, hi⟩ := List.getElem?_of_mem ht
    have hhandles : Handles good p.log p.shared t := hp.loc hi
    have hlistens := hhandles.listens (hid ▸ List.mem_map_of_mem hstream)
    have hbehaves := hhandles.behaves hlistens
    -- nothing of this task is on its way
    have hnone : repliesOf id inFlight = [] := by
      refine repliesOf_eq_nil fun e he => ?_
      have hresult := harrived (e.2.result e.1) (hmain ▸ List.mem_map_of_mem he)
      cases hreply : e.2 with
      | event data => simpa [hreply, Reply.result] using hresult
      | done => simpa [hreply, Reply.result] using hresult
      | error error => simpa [hreply, Reply.result] using hresult
    have hall : repliesOf id p.log = repliesOf id received := by
      rw [hlog, repliesOf_append, hnone, List.append_nil]
    rw [hid, hall] at hbehaves
    obtain ⟨events, hevents⟩ := hI t.task t.state _ hlistens hbehaves
    rw [hall, hafter, hevents, after_closing, itemsOf_closing]
    exact ⟨rfl, rfl, rfl⟩

end Isolates

end FireBoxTransfer

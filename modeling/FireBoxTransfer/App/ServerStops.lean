import Mathlib.Data.List.Perm.Basic
import FireBoxTransfer.App.ServerLifecycle

/-!
# Starts and stops of the server, one at a time

The points at which a start can be, with what holds there of the state, of
`_server` and of `RUNNING_SERVER`. Calls of `stopServer` may overlap: then the
first that reaches the isolate takes the server, and the others find none.
-/

namespace FireBoxTransfer.ServerLifecycle

/-! ## §1  The servers -/

/-- No server: `_server` and `RUNNING_SERVER` are empty. -/
structure Off (server : Option ℕ) (r : Rust) : Prop where
  server : server = none
  running : r.running = none
  locked : r.locked = false
  closed : ∀ i ∈ r.instances, i.phase = .closed

/-- `RUNNING_SERVER` is the last server that was started, the others are
closed. -/
structure Newest (r : Rust) (k : ℕ) (i : ServerInstance) : Prop where
  instances : ∃ olds, r.instances = olds ++ [i] ∧ olds.length = k ∧ ∀ j ∈ olds, j.phase = .closed
  running : r.running = some k
  locked : r.locked = false

theorem Rust.listening_closed {instances : List ServerInstance}
    (h : ∀ i ∈ instances, i.phase = .closed) :
    instances.filter (fun i => i.phase = .listening) = [] := by
  rw [List.filter_eq_nil_iff]
  intro i hi
  rw [h i hi]
  decide

theorem Off.listening {server : Option ℕ} {r : Rust} (h : Off server r) : r.listening = [] := by
  unfold Rust.listening
  rw [Rust.listening_closed h.closed]
  rfl

theorem Off.not_stopping {server : Option ℕ} {r : Rust} (h : Off server r) (j : ℕ) :
    r.phase j ≠ some .stopping := by
  intro hj
  obtain ⟨i, hi, hphase⟩ := Option.map_eq_some_iff.mp hj
  rw [h.closed i (List.mem_of_getElem? hi)] at hphase
  cases hphase

section Newest

variable {r : Rust} {k : ℕ} {i : ServerInstance}

theorem Newest.phase (h : Newest r k i) : r.phase k = some i.phase := by
  obtain ⟨olds, heq, rfl, -⟩ := h.instances
  simp [Rust.phase, heq]

theorem Newest.other (h : Newest r k i) {j : ℕ} {phase : Phase} (hj : r.phase j = some phase) :
    j = k ∨ phase = .closed := by
  obtain ⟨olds, heq, rfl, hclosed⟩ := h.instances
  obtain ⟨i', hi', rfl⟩ := Option.map_eq_some_iff.mp hj
  rw [heq] at hi'
  rcases Nat.lt_or_ge j olds.length with hlt | hge
  · rw [List.getElem?_append_left hlt] at hi'
    exact .inr (hclosed i' (List.mem_of_getElem? hi'))
  · have hlen := (List.getElem?_eq_some_iff.mp hi').1
    rw [List.length_append, List.length_singleton] at hlen
    exact .inl (by omega)

theorem Newest.not_stopping (h : Newest r k i) (hi : i.phase ≠ .stopping) (j : ℕ) :
    r.phase j ≠ some .stopping := by
  intro hj
  rcases h.other hj with rfl | hclosed
  · rw [h.phase] at hj
    exact hi (Option.some.inj hj)
  · cases hclosed

theorem Newest.takesStop (h : Newest r k i) (hi : i.phase = .listening) :
    r.takesStop k = true := by
  unfold Rust.takesStop
  rw [h.phase, hi]
  rfl

theorem Newest.setPhase (h : Newest r k i) (phase : Phase) :
    Newest (r.setPhase k phase) k { i with phase } := by
  obtain ⟨olds, heq, hlen, hclosed⟩ := h.instances
  refine ⟨⟨olds, ?_, hlen, hclosed⟩, h.running, h.locked⟩
  subst hlen
  simp [Rust.setPhase, heq, List.modify_eq_set_getElem?]

theorem Newest.listening (h : Newest r k i) (hi : i.phase = .listening) :
    r.listening = [i.config] := by
  obtain ⟨olds, heq, -, hclosed⟩ := h.instances
  unfold Rust.listening
  rw [heq, List.filter_append, Rust.listening_closed hclosed, List.nil_append,
    List.filter_cons_of_pos (by simpa using hi)]
  rfl

/-- Once it is closed, there is no server. -/
theorem Newest.off (h : Newest r k i) (hi : i.phase = .closed) :
    Off none { r with running := r.running.filter fun j => j ≠ k } := by
  obtain ⟨olds, heq, -, hclosed⟩ := h.instances
  refine ⟨rfl, ?_, h.locked, ?_⟩
  · show r.running.filter (fun j => j ≠ k) = none
    rw [h.running]
    simp
  · intro j hj
    change j ∈ r.instances at hj
    rw [heq] at hj
    rcases List.mem_append.mp hj with hj | hj
    · exact hclosed j hj
    · rw [List.mem_singleton.mp hj]
      exact hi

/-- A server that is started when there is none. -/
theorem Off.start {server : Option ℕ} (h : Off server { r with locked := false })
    (config : ServerConfig) :
    Newest ⟨r.instances ++ [⟨config, .listening⟩], some r.instances.length, false⟩
      r.instances.length ⟨config, .listening⟩ :=
  ⟨⟨r.instances, rfl, rfl, h.closed⟩, rfl, rfl⟩

end Newest

/-! ## §2  What is under way -/

/-- Sync states on their way to the isolate, and a task behind them. -/
def UnderWay (toIsolate : List ToIsolate) (task : Option IsolateTask) : Prop :=
  ∃ syncs : List SyncState, toIsolate = syncs.map .sync ++ task.toList.map .task

theorem UnderWay.publish {toIsolate : List ToIsolate} (h : UnderWay toIsolate none)
    (syncs : List SyncState) : UnderWay (toIsolate ++ syncs.map .sync) none := by
  obtain ⟨syncs', rfl⟩ := h
  exact ⟨syncs' ++ syncs, by simp⟩

theorem UnderWay.post {toIsolate : List ToIsolate} (h : UnderWay toIsolate none)
    (task : IsolateTask) : UnderWay (toIsolate ++ [.task task]) (some task) := by
  obtain ⟨syncs, rfl⟩ := h
  exact ⟨syncs, by simp⟩

theorem UnderWay.sync {toIsolate : List ToIsolate} {s : SyncState} {task : Option IsolateTask}
    (h : UnderWay (.sync s :: toIsolate) task) : UnderWay toIsolate task := by
  obtain ⟨syncs, heq⟩ := h
  cases syncs with
  | nil => cases task <;> simp at heq
  | cons s' syncs => exact ⟨syncs, (List.cons.inj heq).2⟩

theorem UnderWay.task {toIsolate : List ToIsolate} {t : IsolateTask} {task : Option IsolateTask}
    (h : UnderWay (.task t :: toIsolate) task) : task = some t ∧ toIsolate = [] := by
  obtain ⟨syncs, heq⟩ := h
  cases syncs with
  | nil =>
      cases task with
      | none => simp at heq
      | some t' =>
          obtain ⟨h1, h2⟩ := List.cons.inj heq
          exact ⟨by rw [ToIsolate.task.inj h1], h2⟩
  | cons s' syncs => simp at heq

/-- A new state of the service does nothing else than to send sync states. -/
theorem Server.setState_spec (p : Server) (next : Option ServerState) : ∃ service toIsolate,
    p.setState next = { p with service, toIsolate } ∧ service.state = next ∧
      service.calls = p.service.calls ∧ service.microtasks = p.service.microtasks ∧
      ∃ syncs : List SyncState, toIsolate = p.toIsolate ++ syncs.map .sync := by
  unfold Server.setState
  dsimp only
  split
  · exact ⟨_, _, rfl, rfl, rfl, rfl, [], (List.append_nil _).symm⟩
  · exact ⟨_, _, rfl, rfl, rfl, rfl, [_], rfl⟩

/-- Where everything is that awaits or is under way. -/
structure At (p : Server) (calls : List Call) (microtasks : List IsolateTask)
    (task : Option IsolateTask) (handlers : List Handler) (toMain : List ToMain) : Prop where
  calls : p.service.calls = calls
  microtasks : p.service.microtasks = microtasks
  toIsolate : UnderWay p.toIsolate task
  handlers : p.isolate.handlers = handlers
  toMain : p.toMain = toMain

/-- A start request for this server is the last one, and was not made by a
stop. -/
structure AskedFor (p : Server) (c : ServerConfig) : Prop where
  state : p.service.state = none
  request : p.requests.getLast? = some c
  called : p.called.getLast? ≠ some .stopServer

/-- Between two calls. -/
inductive Rest (p : Server) : Prop
  | off (hstate : p.service.state = none) (hoff : Off p.isolate.server p.rust)
  | on {st k c} (hstate : p.service.state = some st) (hserver : p.isolate.server = some k)
      (hnew : Newest p.rust k ⟨c, .listening⟩) (hreq : p.requests.getLast? = some c)
      (hcalled : p.called.getLast? ≠ some .stopServer)

/-! ## §3  Stops -/

def IsolateTask.id : IsolateTask → ℕ
  | .start id _ | .stop id => id

def ToIsolate.task? : ToIsolate → Option IsolateTask
  | .sync _ => none
  | .task t => some t

def Handler.id : Handler → ℕ
  | .locking id _ | .stoppingPrevious id _ _ | .binding id _ | .bound id _ | .stopping id _
  | .releasing id _ | .stopped id => id

/-- The tasks that were sent. -/
def Server.sent (p : Server) : List IsolateTask := p.toIsolate.filterMap ToIsolate.task?

/-- How often a task is under way. -/
def Server.inFlight (p : Server) (id : ℕ) : ℕ :=
  (p.service.microtasks.map (·.id)).count id + (p.sent.map (·.id)).count id +
    (p.isolate.handlers.map (·.id)).count id + (p.toMain.map (·.id)).count id

/-- How far the stops got with the server: the first one that reaches the
isolate takes it from there. -/
inductive Halting (p : Server) : Prop
  | on {k c} (hserver : p.isolate.server = some k) (hnew : Newest p.rust k ⟨c, .listening⟩)
      (hstate : p.service.state ≠ none) (hhandlers : p.isolate.handlers = [])
      (hmain : p.toMain = [])
  | going {k i id hd rest} (hserver : p.isolate.server = none) (hnew : Newest p.rust k i)
      (hphase : i.phase ≠ .listening)
      (hhd : hd = .stopping id k ∨ hd = .releasing id k ∧ i.phase = .closed)
      (hhandlers : p.isolate.handlers.Perm (hd :: rest)) (hrest : ∀ h ∈ rest, h = .stopped h.id)
  | off (hoff : Off p.isolate.server p.rust)
      (hhandlers : ∀ h ∈ p.isolate.handlers, h = .stopped h.id)

/-- Whether the state is set to null when the call ends. -/
def Call.clears : Call → Bool
  | .cancelling _ | .stopping _ _ => true
  | .starting _ _ | .failing _ | .restarting _ => false

/-- The stop that is part of a restart, and awaiting. -/
def Call.restarts (c : Call) : Prop :=
  ∃ args, c = .cancelling (some args) ∨ ∃ id, c = .stopping id (some args)

/-- During stops: each has one task or message under way, from the time it
awaits one. A restart is alone. -/
structure Stopping (p : Server) : Prop where
  calls : (∀ c ∈ p.service.calls, c.stops = true) ∨
    (∃ c, p.service.calls = [c] ∧ c.restarts) ∧ p.called.getLast? ≠ some .stopServer
  microtasks : ∀ t ∈ p.service.microtasks, t = .stop t.id
  sent : ∀ t ∈ p.sent, t = .stop t.id
  toMain : ∀ m ∈ p.toMain, m = .done m.id
  ids : ∀ id, (p.service.calls.filterMap (·.taskId)).count id = p.inFlight id
  state : p.service.state = none ∨ ∃ c ∈ p.service.calls, c.clears = true
  halting : Halting p

/-! ## §4  The stages of a call -/

/-- **The stages of a call**: the points at which a start or a stop can be,
with what holds there. -/
inductive Stage (p : Server) : Prop
  | idle (h : At p [] [] none [] []) (hr : Rest p)
  | startPosted {id next task} (h : At p [.starting id next] [.start id task] none [] [])
      (hoff : Off p.isolate.server p.rust) (ha : AskedFor p (task.config p.service.sync))
  | startSent {id next task} (h : At p [.starting id next] [] (some (.start id task)) [] [])
      (hoff : Off p.isolate.server p.rust) (ha : AskedFor p (task.config p.service.sync))
  | locking {id next c} (h : At p [.starting id next] [] none [.locking id c] [])
      (hoff : Off p.isolate.server p.rust) (ha : AskedFor p c)
  | binding {id next c} (h : At p [.starting id next] [] none [.binding id c] [])
      (hoff : Off p.isolate.server { p.rust with locked := false }) (ha : AskedFor p c)
  | bound {id next c k} (h : At p [.starting id next] [] none [.bound id k] [])
      (hnew : Newest p.rust k ⟨c, .listening⟩) (ha : AskedFor p c)
  | started {id next c k} (h : At p [.starting id next] [] none [] [.started id])
      (hserver : p.isolate.server = some k) (hnew : Newest p.rust k ⟨c, .listening⟩)
      (ha : AskedFor p c)
  | errored {id next} (h : At p [.starting id next] [] none [] [.error id])
      (hoff : Off p.isolate.server p.rust) (hstate : p.service.state = none)
  | stops (hne : p.service.calls ≠ []) (h : Stopping p)
  | restarting {args} (h : At p [.restarting args] [] none [] [])
      (hoff : Off p.isolate.server p.rust) (hstate : p.service.state = none)
      (hcalled : p.called.getLast? ≠ some .stopServer)

/-! ## §5  The steps of stops -/

section Stops

variable {randomAlias : String} {p p' : Server}

theorem nothing_counted {α : Type} {l : List α} {f : α → ℕ}
    (h : ∀ id, (l.map f).count id = 0) : l = [] := by
  cases l with
  | nil => rfl
  | cons a l =>
      have ha := h (f a)
      rw [List.map_cons, List.count_cons_self] at ha
      cases ha

theorem eraseIdx_perm {α : Type} {l : List α} {j : ℕ} {a : α} (h : l[j]? = some a) :
    l.Perm (a :: l.eraseIdx j) := by
  obtain ⟨hlt, rfl⟩ := List.getElem?_eq_some_iff.mp h
  exact (List.getElem_cons_eraseIdx_perm hlt).symm

theorem underWay_of_no_task {toIsolate : List ToIsolate}
    (h : toIsolate.filterMap ToIsolate.task? = []) : UnderWay toIsolate none := by
  induction toIsolate with
  | nil => exact ⟨[], rfl⟩
  | cons message toIsolate ih =>
      cases message with
      | sync s =>
          obtain ⟨syncs, rfl⟩ := ih h
          exact ⟨s :: syncs, rfl⟩
      | task t => cases h

theorem sent_publish (toIsolate : List ToIsolate) (syncs : List SyncState) :
    (toIsolate ++ syncs.map ToIsolate.sync).filterMap ToIsolate.task? =
      toIsolate.filterMap ToIsolate.task? := by
  rw [List.filterMap_append, List.filterMap_map]
  have hnone : ToIsolate.task? ∘ ToIsolate.sync = fun _ => none := rfl
  rw [hnone, List.filterMap_none]
  exact List.append_nil _

/-- When the last of them has returned, there is no server. -/
theorem Stopping.over (h : Stopping p) (hcalls : p.service.calls = []) :
    At p [] [] none [] [] ∧ p.service.state = none ∧ Off p.isolate.server p.rust := by
  have hstate : p.service.state = none := by
    refine h.state.resolve_right ?_
    rw [hcalls]
    rintro ⟨c, hc, -⟩
    cases hc
  -- no call awaits a task, hence none is under way
  have hids : ∀ id, (p.service.microtasks.map (·.id)).count id = 0 ∧
      (p.sent.map (·.id)).count id = 0 ∧ (p.isolate.handlers.map (·.id)).count id = 0 ∧
      (p.toMain.map (·.id)).count id = 0 := by
    intro id
    have hid := h.ids id
    rw [hcalls, List.filterMap_nil, List.count_nil] at hid
    unfold Server.inFlight at hid
    omega
  have hmicro : p.service.microtasks = [] := nothing_counted fun id => (hids id).1
  have hsent : p.sent = [] := nothing_counted fun id => (hids id).2.1
  have hhandlers : p.isolate.handlers = [] := nothing_counted fun id => (hids id).2.2.1
  have hmain : p.toMain = [] := nothing_counted fun id => (hids id).2.2.2
  refine ⟨⟨hcalls, hmicro, underWay_of_no_task hsent, hhandlers, hmain⟩, hstate, ?_⟩
  cases h.halting with
  | on _ _ hstate' => exact (hstate' hstate).elim
  | going _ _ _ _ hperm =>
      rw [hhandlers] at hperm
      exact (List.cons_ne_nil _ _ hperm.nil_eq.symm).elim
  | off hoff => exact hoff

theorem Stage.ofStopping (h : Stopping p) : Stage p := by
  by_cases hcalls : p.service.calls = []
  · obtain ⟨hat, hstate, hoff⟩ := h.over hcalls
    exact .idle hat (.off hstate hoff)
  · exact .stops hcalls h

theorem At.sent {calls : List Call} {microtasks : List IsolateTask} {handlers : List Handler}
    {toMain : List ToMain} (h : At p calls microtasks none handlers toMain) : p.sent = [] := by
  obtain ⟨syncs, hsyncs⟩ := h.toIsolate
  have hnone := sent_publish [] syncs
  unfold Server.sent
  rw [hsyncs]
  simpa using hnone

/-- The first stop. -/
theorem Stopping.first (h : At p [] [] none [] []) (hr : Rest p) (called : List Called)
    (restart : Option StartArgs)
    (hcalled : restart.isSome = true → called.getLast? ≠ some .stopServer) :
    Stopping (Server.await { p with called } (.cancelling restart)) := by
  have hcalls : p.service.calls ++ [Call.cancelling restart] = [.cancelling restart] := by
    rw [h.calls]
    rfl
  have hsent := h.sent
  refine ⟨?_, ?_, ?_, ?_, ?_, .inr ⟨.cancelling restart, ?_, rfl⟩, ?_⟩
  · show (∀ c ∈ p.service.calls ++ [_], _) ∨ (∃ c, p.service.calls ++ [_] = [c] ∧ _) ∧ _
    rw [hcalls]
    cases restart with
    | none => exact .inl fun c hc => by rw [List.mem_singleton.mp hc]; rfl
    | some args => exact .inr ⟨⟨_, rfl, args, .inl rfl⟩, hcalled rfl⟩
  · show ∀ t ∈ p.service.microtasks, _
    rw [h.microtasks]
    exact fun _ ht => nomatch ht
  · show ∀ t ∈ p.sent, _
    rw [hsent]
    exact fun _ ht => nomatch ht
  · show ∀ m ∈ p.toMain, _
    rw [h.toMain]
    exact fun _ hm => nomatch hm
  · intro id
    show ((p.service.calls ++ [_]).filterMap _).count id = p.inFlight id
    unfold Server.inFlight
    rw [hcalls, h.microtasks, h.handlers, h.toMain, hsent]
    rfl
  · exact List.mem_append_right _ (List.mem_singleton.mpr rfl)
  · cases hr with
    | off hstate hoff =>
        refine .off hoff ?_
        show ∀ hd ∈ p.isolate.handlers, _
        rw [h.handlers]
        exact fun _ hm => nomatch hm
    | on hstate hserver hnew =>
        refine .on hserver hnew ?_ h.handlers h.toMain
        show p.service.state ≠ none
        rw [hstate]
        exact fun hnone => nomatch hnone

/-- One more call of `stopServer`. -/
theorem Stopping.further (h : Stopping p) (hcalls : ∀ c ∈ p.service.calls, c.stops = true)
    (called : List Called) : Stopping (Server.await { p with called } (.cancelling none)) := by
  refine ⟨.inl ?_, h.microtasks, h.sent, h.toMain, ?_, .inr ⟨.cancelling none, ?_, rfl⟩, ?_⟩
  · intro c hc
    rcases List.mem_append.mp hc with hc | hc
    · exact hcalls c hc
    · rw [List.mem_singleton.mp hc]
      rfl
  · intro id
    show ((p.service.calls ++ [_]).filterMap _).count id = p.inFlight id
    rw [List.filterMap_append, List.count_append, h.ids]
    rfl
  · exact List.mem_append_right _ (List.mem_singleton.mpr rfl)
  · cases h.halting with
    | on hserver hnew hstate hhandlers hmain => exact .on hserver hnew hstate hhandlers hmain
    | going hserver hnew hphase hhd hhandlers hrest =>
        exact .going hserver hnew hphase hhd hhandlers hrest
    | off hoff hhandlers => exact .off hoff hhandlers

theorem Server.handle_stop {k id : ℕ} (hserver : p.isolate.server = some k)
    (htakes : p.rust.takesStop k = true) :
    p.handle (.task (.stop id)) = ((p.setServer none).stopInstance k).suspend (.stopping id k) := by
  unfold Server.handle
  rw [hserver]
  exact if_pos htakes

theorem Server.handle_stopped {id : ℕ} (hserver : p.isolate.server = none) :
    p.handle (.task (.stop id)) = p.suspend (.stopped id) := by
  unfold Server.handle
  rw [hserver]

/-- What the stops have done with the server depends on the service only
through its state. -/
theorem Halting.congr (h : Halting p) (hserver : p'.isolate.server = p.isolate.server)
    (hrust : p'.rust = p.rust) (hhandlers : p'.isolate.handlers = p.isolate.handlers)
    (hmain : p.toMain = [] → p'.service.state = p.service.state ∧ p'.toMain = []) :
    Halting p' := by
  cases h with
  | on hs hnew hstate hh hm =>
      obtain ⟨hstate', hm'⟩ := hmain hm
      exact .on (hserver.trans hs) (hrust ▸ hnew) (hstate' ▸ hstate) (hhandlers.trans hh) hm'
  | going hs hnew hphase hhd hh hrest =>
      exact .going (hserver.trans hs) (hrust ▸ hnew) hphase hhd (hhandlers ▸ hh) hrest
  | off hoff hh => exact .off (by rw [hserver, hrust]; exact hoff) (hhandlers ▸ hh)

theorem Stopping.unnoticed (h : Stopping p) (settings : ServerSettings) (sync : SyncState)
    {toIsolate : List ToIsolate} {called : List Called}
    (hsent : toIsolate.filterMap ToIsolate.task? = p.sent)
    (hcalled : p.called.getLast? ≠ some .stopServer → called.getLast? ≠ some .stopServer) :
    Stopping { p with
      service := { p.service with settings }, isolate := { p.isolate with sync }, toIsolate,
                 called } := by
  refine ⟨h.calls.imp_right fun ⟨hc, hlast⟩ => ⟨hc, hcalled hlast⟩, h.microtasks, ?_, h.toMain, ?_,
    h.state, h.halting.congr rfl rfl rfl fun hm => ⟨rfl, hm⟩⟩
  · show ∀ t ∈ toIsolate.filterMap _, _
    rw [hsent]
    exact h.sent
  · intro id
    rw [h.ids]
    unfold Server.inFlight
    show _ = _ + ((toIsolate.filterMap _).map _).count id + _ + _
    rw [hsent]

theorem Stopping.microtask (h : Stopping p) {task : IsolateTask} {microtasks : List IsolateTask}
    (hmicro : p.service.microtasks = task :: microtasks) :
    Stopping { p with
      service := { p.service with microtasks }, toIsolate := p.toIsolate ++ [.task task] } := by
  have hsent : (p.toIsolate ++ [ToIsolate.task task]).filterMap ToIsolate.task? =
      p.sent ++ [task] := by
    rw [List.filterMap_append]
    rfl
  have hstops := h.microtasks
  rw [hmicro] at hstops
  refine ⟨h.calls, fun t ht => hstops t (List.mem_cons_of_mem _ ht), ?_, h.toMain, ?_, h.state,
    h.halting.congr rfl rfl rfl fun hm => ⟨rfl, hm⟩⟩
  · show ∀ t ∈ (p.toIsolate ++ [ToIsolate.task task]).filterMap ToIsolate.task?, _
    rw [hsent]
    intro t ht
    rcases List.mem_append.mp ht with ht | ht
    · exact h.sent t ht
    · rw [List.mem_singleton.mp ht]
      exact hstops task List.mem_cons_self
  · intro id
    rw [h.ids]
    unfold Server.inFlight
    show _ = (microtasks.map _).count id +
      (((p.toIsolate ++ [ToIsolate.task task]).filterMap ToIsolate.task?).map (·.id)).count id +
      (p.isolate.handlers.map _).count id + (p.toMain.map _).count id
    rw [hsent, hmicro, List.map_cons, List.map_append, List.count_append, List.count_cons,
      List.map_singleton, List.count_singleton]
    omega

/-- A stop reaches the isolate: the first one finds the server. -/
theorem Stopping.deliver (h : Stopping p) {task : IsolateTask} {toIsolate : List ToIsolate}
    (hq : p.toIsolate = .task task :: toIsolate) :
    Stopping (Server.handle { p with toIsolate } (.task task)) := by
  have hsent : p.sent = task :: toIsolate.filterMap ToIsolate.task? := by
    unfold Server.sent
    rw [hq]
    rfl
  have hstop : task = .stop task.id := h.sent task (by rw [hsent]; exact List.mem_cons_self)
  -- the task becomes a handler, whatever becomes of the server
  have hmoves : ∀ {server rust hd}, hd.id = task.id →
      Halting { p with
        isolate := { p.isolate with server, handlers := p.isolate.handlers ++ [hd] }, rust,
        toIsolate } →
      Stopping { p with
        isolate := { p.isolate with server, handlers := p.isolate.handlers ++ [hd] }, rust,
        toIsolate } := by
    intro server rust hd hid hhalt
    refine ⟨h.calls, h.microtasks, ?_, h.toMain, ?_, h.state, hhalt⟩
    · intro t ht
      exact h.sent t (by rw [hsent]; exact List.mem_cons_of_mem _ ht)
    · intro id
      rw [h.ids]
      unfold Server.inFlight
      show _ = (p.service.microtasks.map _).count id + ((toIsolate.filterMap _).map _).count id +
        ((p.isolate.handlers ++ [hd]).map _).count id + (p.toMain.map _).count id
      rw [hsent, List.map_cons, List.map_append, List.count_append, List.count_cons,
        List.map_singleton, List.count_singleton, hid]
      omega
  rw [hstop]
  cases h.halting with
  | @on k c hserver hnew hstate hhandlers hmain =>
      rw [Server.handle_stop (p := { p with toIsolate }) hserver (hnew.takesStop rfl)]
      have hperm : (p.isolate.handlers ++ [Handler.stopping task.id k]).Perm
          [.stopping task.id k] := by
        rw [hhandlers]
        exact .refl _
      exact hmoves rfl (.going rfl (hnew.setPhase .stopping) (by simp) (.inl rfl) hperm
        fun _ hm => nomatch hm)
  | going hserver hnew hphase hhd hhandlers hrest =>
      rw [Server.handle_stopped (p := { p with toIsolate }) hserver]
      refine hmoves rfl (.going hserver hnew hphase hhd (hhandlers.append_right _) ?_)
      intro hd hm
      rcases List.mem_append.mp hm with hm | hm
      · exact hrest hd hm
      · rw [List.mem_singleton.mp hm]
        rfl
  | off hoff hhandlers =>
      rw [Server.handle_stopped (p := { p with toIsolate }) hoff.server]
      refine hmoves rfl (.off hoff ?_)
      intro hd hm
      rcases List.mem_append.mp hm with hm | hm
      · exact hhandlers hd hm
      · rw [List.mem_singleton.mp hm]
        rfl

/-- A handler that waits for nothing more tells that its task is done. -/
theorem Stopping.tell (h : Stopping p) {id : ℕ} {handlers : List Handler}
    (hperm : p.isolate.handlers.Perm (.stopped id :: handlers)) :
    Stopping (Server.tell { p with isolate := { p.isolate with handlers } } (.done id)) := by
  refine ⟨h.calls, h.microtasks, h.sent, ?_, ?_, h.state, ?_⟩
  · intro m hm
    rcases List.mem_append.mp hm with hm | hm
    · exact h.toMain m hm
    · rw [List.mem_singleton.mp hm]
      rfl
  · intro id'
    refine (h.ids id').trans ?_
    unfold Server.inFlight
    show _ = (p.service.microtasks.map _).count id' + (p.sent.map _).count id' +
      (handlers.map _).count id' + ((p.toMain ++ [_]).map _).count id'
    rw [(hperm.map _).count_eq, List.map_cons, List.map_append, List.count_append,
      List.count_cons, List.map_singleton, List.count_singleton]
    show _ + (_ + if id == id' then 1 else 0) + _ = _ + _ + (_ + if id == id' then 1 else 0)
    omega
  · cases h.halting with
    | on _ _ _ hhandlers =>
        rw [hhandlers] at hperm
        exact (List.cons_ne_nil _ _ hperm.nil_eq.symm).elim
    | @going k i tid hd rest hserver hnew hphase hhd hhandlers hrest =>
        -- it is one of the others
        have hmem : Handler.stopped id ∈ rest := by
          have hmem := hhandlers.subset (hperm.symm.subset List.mem_cons_self)
          rcases List.mem_cons.mp hmem with rfl | hmem
          · rcases hhd with hhd | ⟨hhd, -⟩ <;> cases hhd
          · exact hmem
        have hswap := (hperm.symm.trans hhandlers).trans
          ((List.perm_cons_erase hmem).cons hd |>.trans (.swap _ _ _))
        exact .going hserver hnew hphase hhd hswap.cons_inv fun hd' hm =>
          hrest hd' (List.mem_of_mem_erase hm)
    | off hoff hhandlers =>
        exact .off hoff fun hd hm => hhandlers hd (hperm.symm.subset (List.mem_cons_of_mem _ hm))

/-- The handler that stops the server goes on to `hd'`. -/
theorem Stopping.proceeds (h : Stopping p) {hd hd' : Handler} {handlers : List Handler}
    {rust : Rust} (hperm : p.isolate.handlers.Perm (hd :: handlers)) (hid : hd'.id = hd.id)
    (hhalt : Halting { p with
      isolate := { p.isolate with handlers := handlers ++ [hd'] }, rust }) :
    Stopping { p with isolate := { p.isolate with handlers := handlers ++ [hd'] }, rust } := by
  refine ⟨h.calls, h.microtasks, h.sent, h.toMain, ?_, h.state, hhalt⟩
  intro id
  rw [h.ids]
  unfold Server.inFlight
  show _ = (p.service.microtasks.map _).count id + (p.sent.map _).count id +
    ((handlers ++ [hd']).map _).count id + (p.toMain.map _).count id
  rw [(hperm.map _).count_eq, List.map_cons, List.map_append, List.count_append,
    List.count_cons, List.map_singleton, List.count_singleton, hid]

theorem Stopping.handler (h : Stopping p) {j : ℕ} {ok : Bool}
    (hstep : serverStep randomAlias p (.handler j ok) = some p') : Stopping p' := by
  obtain ⟨hd, hget, hstep⟩ := Option.bind_eq_some_iff.mp hstep
  have hperm := eraseIdx_perm hget
  have hmem : hd ∈ p.isolate.handlers := List.mem_of_getElem? hget
  have hstopped : hd = .stopped hd.id → Stopping p' := by
    intro heq
    rw [heq] at hperm hstep
    obtain rfl := Option.some.inj hstep
    exact h.tell hperm
  cases h.halting with
  | on _ _ _ hhandlers =>
      rw [hhandlers] at hmem
      cases hmem
  | off _ hhandlers => exact hstopped (hhandlers hd hmem)
  | @going k i id hd' rest hserver hnew hphase hhd hhandlers hrest =>
      rcases List.mem_cons.mp (hhandlers.subset hmem) with rfl | hmem
      · have hothers : (p.isolate.handlers.eraseIdx j).Perm rest :=
          (hperm.symm.trans hhandlers).cons_inv
        rcases hhd with rfl | ⟨rfl, hclosed⟩
        · -- the listeners are closed
          unfold Server.proceed at hstep
          dsimp only at hstep
          split at hstep
          · rename_i hk
            obtain rfl := Option.some.inj hstep
            rw [hnew.phase] at hk
            have hperm' : (p.isolate.handlers.eraseIdx j ++ [Handler.releasing id k]).Perm
                (.releasing id k :: rest) :=
              List.perm_append_comm.trans (hothers.cons _)
            exact h.proceeds hperm rfl
              (.going hserver hnew hphase (.inr ⟨rfl, Option.some.inj hk⟩) hperm' hrest)
          · cases hstep
        · -- `RUNNING_SERVER` is released
          unfold Server.proceed at hstep
          dsimp only at hstep
          rw [hnew.locked] at hstep
          obtain rfl := Option.some.inj hstep
          have hoff := hnew.off hclosed
          rw [← hserver] at hoff
          refine h.proceeds hperm rfl (.off ?_ ?_)
          · exact ⟨hserver, hoff.running, rfl, hoff.closed⟩
          · intro hd hm
            rcases List.mem_append.mp hm with hm | hm
            · exact hrest hd (hothers.subset hm)
            · rw [List.mem_singleton.mp hm]
              rfl
      · exact hstopped (hrest hd hmem)

theorem Stopping.awaiting (h : Stopping p) {c : Call} {id : ℕ} (hc : c ∈ p.service.calls)
    (hid : c.taskId = some id) : ∃ restart, c = .stopping id restart ∧
      (restart.isSome = true →
        p.service.calls = [c] ∧ p.called.getLast? ≠ some .stopServer) := by
  rcases h.calls with hstops | ⟨⟨c', hcalls, args, hc' | ⟨id', hc'⟩⟩, hlast⟩
  · have hstop := hstops c hc
    cases c with
    | stopping id' restart =>
        obtain rfl := Option.some.inj hid
        refine ⟨restart, rfl, fun hsome => ?_⟩
        have hnone : restart.isNone = true := hstop
        rw [Option.isNone_iff_eq_none.mp hnone] at hsome
        cases hsome
    | starting id' next => cases hstop
    | failing next => cases hid
    | cancelling restart => cases hid
    | restarting args => cases hstop
  · rw [hcalls, List.mem_singleton] at hc
    rw [hc, hc'] at hid
    cases hid
  · rw [hcalls, List.mem_singleton] at hc
    subst hc
    rw [hc'] at hid
    obtain rfl := Option.some.inj hid
    exact ⟨some args, hc', fun _ => ⟨hcalls, hlast⟩⟩

/-- The end of a stop clears the state. -/
theorem Stopping.ended (h : Stopping p) {id : ℕ} {restart : Option StartArgs}
    {toMain : List ToMain} (hmain : p.toMain = .done id :: toMain)
    (hc : Call.stopping id restart ∈ p.service.calls) :
    Stopping ((Server.endCall { p with toMain } (.stopping id restart)).setState none) := by
  obtain ⟨service, toIsolate, heq, hstate, hcalls, hmicro, syncs, hto⟩ :=
    Server.setState_spec (Server.endCall { p with toMain } (.stopping id restart)) none
  rw [heq]
  change toIsolate = p.toIsolate ++ _ at hto
  change service.calls = p.service.calls.erase _ at hcalls
  change service.microtasks = p.service.microtasks at hmicro
  have hsent : toIsolate.filterMap ToIsolate.task? = p.sent := by
    rw [hto]
    exact sent_publish _ _
  have hperm := List.perm_cons_erase hc
  refine ⟨?_, ?_, ?_, ?_, ?_, .inl hstate, ?_⟩
  · show (∀ c ∈ service.calls, _) ∨ _
    rw [hcalls]
    refine .inl fun c hmem => ?_
    rcases h.calls with hstops | ⟨⟨c', hsingle, -⟩, -⟩
    · exact hstops c (List.mem_of_mem_erase hmem)
    · rw [hsingle, List.mem_singleton] at hc
      rw [hsingle, hc, List.erase_cons_head] at hmem
      cases hmem
  · show ∀ t ∈ service.microtasks, _
    rw [hmicro]
    exact h.microtasks
  · show ∀ t ∈ toIsolate.filterMap _, _
    rw [hsent]
    exact h.sent
  · intro m hm
    exact h.toMain m (by rw [hmain]; exact List.mem_cons_of_mem _ hm)
  · intro id'
    have hid := h.ids id'
    unfold Server.inFlight at hid ⊢
    show (service.calls.filterMap _).count id' = (service.microtasks.map _).count id' +
      ((toIsolate.filterMap _).map _).count id' + (p.isolate.handlers.map _).count id' +
      (toMain.map _).count id'
    rw [hcalls, hmicro, hsent]
    rw [(hperm.filterMap _).count_eq, hmain, List.map_cons, List.filterMap_cons] at hid
    change List.count id' (id :: _) = _ + List.count id' (id :: _) at hid
    rw [List.count_cons, List.count_cons] at hid
    omega
  · refine h.halting.congr rfl rfl rfl fun hnil => ?_
    rw [hmain] at hnil
    cases hnil

theorem Server.receive_done {id : ℕ} {restart : Option StartArgs}
    (hfind : p.service.calls.find? (fun c => c.taskId = some id) = some (.stopping id restart)) :
    p.receive (.done id) =
      restart.elim ((p.endCall (.stopping id restart)).setState none)
        fun args => ((p.endCall (.stopping id restart)).setState none).await
          (.restarting args) := by
  have hfind' : p.service.calls.find? (fun c => c.taskId = some (ToMain.done id).id) =
      some (.stopping id restart) := hfind
  unfold Server.receive
  rw [hfind']
  cases restart <;> rfl

theorem Stopping.receive (h : Stopping p) {message : ToMain} {toMain : List ToMain}
    (hmain : p.toMain = message :: toMain) :
    Stage (Server.receive { p with toMain } message) := by
  obtain ⟨id, rfl⟩ : ∃ id, message = .done id :=
    ⟨message.id, h.toMain message (by rw [hmain]; exact List.mem_cons_self)⟩
  -- some call awaits it
  have hcount : 0 < (p.service.calls.filterMap (·.taskId)).count id := by
    rw [h.ids]
    unfold Server.inFlight
    rw [hmain, List.map_cons]
    show 0 < _ + List.count id (id :: _)
    rw [List.count_cons_self]
    omega
  obtain ⟨c₀, hc₀, hid₀⟩ := List.mem_filterMap.mp (List.count_pos_iff.mp hcount)
  obtain ⟨c, hfind⟩ := Option.isSome_iff_exists.mp
    (List.find?_isSome (p := fun c : Call => decide (c.taskId = some id)).mpr
      ⟨c₀, hc₀, by simpa using hid₀⟩)
  have hc := List.mem_of_find?_eq_some hfind
  obtain ⟨restart, rfl, hrestart⟩ := h.awaiting hc (by simpa using List.find?_some hfind)
  have hended := h.ended hmain hc
  rw [Server.receive_done (p := { p with toMain }) hfind]
  cases restart with
  | none => exact .ofStopping hended
  | some args =>
      obtain ⟨hsingle, hlast⟩ := hrestart rfl
      obtain ⟨service, toIsolate, heq, hstate, hcalls, -, -⟩ :=
        Server.setState_spec (Server.endCall { p with toMain } (.stopping id (some args))) none
      have hnil : service.calls = [] := by
        rw [hcalls]
        show p.service.calls.erase _ = []
        rw [hsingle, List.erase_cons_head]
      rw [heq] at hended
      obtain ⟨hat, -, hoff⟩ := hended.over hnil
      show Stage (Server.await (Server.setState _ none) _)
      rw [heq]
      refine @Stage.restarting _ args
        ⟨?_, hat.microtasks, hat.toIsolate, hat.handlers, hat.toMain⟩ hoff hstate hlast
      show service.calls ++ _ = _
      rw [hnil]
      rfl

/-- A call that has failed returns. -/
theorem Stopping.fails (h : Stopping p) {next : ServerState} {calls : List Call}
    (hperm : p.service.calls.Perm (.failing next :: calls)) (sync : SyncState) :
    Stopping (Server.publish { p with service := { p.service with calls } } sync) := by
  have hsent : (p.toIsolate ++ [ToIsolate.sync sync]).filterMap ToIsolate.task? = p.sent :=
    sent_publish p.toIsolate [sync]
  refine ⟨.inl ?_, h.microtasks, ?_, h.toMain, ?_, ?_, h.halting.congr rfl rfl rfl fun hm =>
    ⟨rfl, hm⟩⟩
  · intro c hc
    rcases h.calls with hstops | ⟨⟨c', hsingle, args, hc'⟩, -⟩
    · exact hstops c (hperm.symm.subset (List.mem_cons_of_mem _ hc))
    · have hmem := hperm.symm.subset List.mem_cons_self
      rw [hsingle, List.mem_singleton] at hmem
      subst hmem
      rcases hc' with hc' | ⟨id, hc'⟩ <;> cases hc'
  · show ∀ t ∈ (p.toIsolate ++ [ToIsolate.sync sync]).filterMap ToIsolate.task?, _
    rw [hsent]
    exact h.sent
  · intro id
    have hid := h.ids id
    unfold Server.inFlight at hid ⊢
    show (calls.filterMap _).count id = (p.service.microtasks.map _).count id +
      (((p.toIsolate ++ [ToIsolate.sync sync]).filterMap ToIsolate.task?).map _).count id +
      (p.isolate.handlers.map _).count id + (p.toMain.map _).count id
    rw [hsent, ← hid, (hperm.filterMap _).count_eq]
    rfl
  · refine h.state.imp_right fun ⟨c, hc, hclears⟩ => ⟨c, ?_, hclears⟩
    rcases List.mem_cons.mp (hperm.subset hc) with rfl | hc
    · cases hclears
    · exact hc

/-- A stop dispatches its task. -/
theorem Stopping.posts (h : Stopping p) {restart : Option StartArgs} {calls : List Call}
    (hperm : p.service.calls.Perm (.cancelling restart :: calls)) :
    Stopping (Server.post
      { p with service := { p.service with calls, subscription := none } } .stop
      fun id => .stopping id restart) := by
  refine ⟨?_, ?_, h.sent, h.toMain, ?_, .inr ⟨.stopping p.service.nextId restart, ?_, rfl⟩,
    h.halting.congr rfl rfl rfl fun hm => ⟨rfl, hm⟩⟩
  · have hmem : Call.cancelling restart ∈ p.service.calls :=
      hperm.symm.subset List.mem_cons_self
    rcases h.calls with hstops | ⟨⟨c', hsingle, args, hc'⟩, hlast⟩
    · refine .inl fun c hc => ?_
      rcases List.mem_append.mp hc with hc | hc
      · exact hstops c (hperm.symm.subset (List.mem_cons_of_mem _ hc))
      · rw [List.mem_singleton.mp hc]
        exact hstops (.cancelling restart) hmem
    · refine .inr ⟨⟨.stopping p.service.nextId restart, ?_, ?_⟩, hlast⟩
      · rw [hsingle] at hperm
        obtain rfl : calls = [] := (List.cons.inj (List.singleton_perm.mp hperm)).2.symm
        rfl
      · rw [hsingle, List.mem_singleton] at hmem
        subst hmem
        rcases hc' with hc' | ⟨id, hc'⟩
        · obtain rfl := Call.cancelling.inj hc'
          exact ⟨args, .inr ⟨_, rfl⟩⟩
        · cases hc'
  · intro t ht
    rcases List.mem_append.mp ht with ht | ht
    · exact h.microtasks t ht
    · rw [List.mem_singleton.mp ht]
      rfl
  · intro id
    have hid := h.ids id
    unfold Server.inFlight at hid ⊢
    show ((calls ++ [_]).filterMap _).count id = ((p.service.microtasks ++ [_]).map _).count id +
      (p.sent.map _).count id + (p.isolate.handlers.map _).count id + (p.toMain.map _).count id
    rw [(hperm.filterMap _).count_eq] at hid
    rw [List.filterMap_append, List.count_append, List.map_append, List.count_append]
    change (calls.filterMap _).count id = _ at hid
    rw [hid]
    show _ + List.count id [p.service.nextId] = _ + List.count id [p.service.nextId] + _ + _ + _
    omega
  · exact List.mem_append_right _ (List.mem_singleton.mpr rfl)

/-- A call goes on that awaits no message. -/
theorem Stopping.resume (h : Stopping p) {j : ℕ}
    (hstep : serverStep randomAlias p (.resume j) = some p') : Stopping p' := by
  obtain ⟨c, hget, hstep⟩ := Option.bind_eq_some_iff.mp hstep
  cases c with
  | starting id next => cases hstep
  | stopping id restart => cases hstep
  | restarting args =>
      have hmem := List.mem_of_getElem? hget
      rcases h.calls with hstops | ⟨⟨c', hsingle, args', hc'⟩, -⟩
      · cases hstops _ hmem
      · rw [hsingle, List.mem_singleton] at hmem
        subst hmem
        rcases hc' with hc' | ⟨id, hc'⟩ <;> cases hc'
  | failing next =>
      obtain rfl := Option.some.inj hstep
      exact h.fails (eraseIdx_perm hget) _
  | cancelling restart =>
      obtain rfl := Option.some.inj hstep
      exact h.posts (eraseIdx_perm hget)

/-- Only a server that was told to stop closes its listeners. -/
theorem Stopping.closed (h : Stopping p) {j : ℕ} (hj : p.rust.phase j = some .stopping) :
    Stopping { p with rust := p.rust.setPhase j .closed } := by
  refine ⟨h.calls, h.microtasks, h.sent, h.toMain, h.ids, h.state, ?_⟩
  cases h.halting with
  | on _ hnew => exact (hnew.not_stopping (by simp) j hj).elim
  | off hoff => exact (hoff.not_stopping j hj).elim
  | going hserver hnew hphase hhd hhandlers hrest =>
      obtain rfl := (hnew.other hj).resolve_right (by simp)
      exact .going hserver (hnew.setPhase .closed) (by simp)
        (hhd.imp_right fun ⟨heq, _⟩ => ⟨heq, rfl⟩) hhandlers hrest

end Stops

end FireBoxTransfer.ServerLifecycle

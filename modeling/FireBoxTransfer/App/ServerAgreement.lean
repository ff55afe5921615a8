import FireBoxTransfer.Framework.Runs
import FireBoxTransfer.App.ServerStops

/-!
# The server between two calls

Every step leads from one stage of a call to another, as long as the calls
begin in order: one at a time, but for those that return at once and for
stops. Between two calls the state, the listening servers and the last request
then agree. A stop that begins during a start is lost.
-/

namespace FireBoxTransfer.ServerLifecycle

open Runs

section Steps

variable {randomAlias : String} {p p' : Server}

/-! ## §1  The sync state -/

/-- What the isolate's sync state will be. -/
def ToIsolate.syncAfter (s : SyncState) : ToIsolate → SyncState
  | .sync s' => s'
  | .task _ => s

/-- Once it has read its messages, the isolate has the sync state of the
service. -/
def Server.Synced (p : Server) : Prop :=
  p.toIsolate.foldl ToIsolate.syncAfter p.isolate.sync = p.service.sync

theorem Server.publish_synced (p : Server) (sync : SyncState) : (p.publish sync).Synced := by
  show (p.toIsolate ++ [ToIsolate.sync sync]).foldl _ _ = sync
  rw [List.foldl_append]
  rfl

theorem Server.Synced.setState (h : p.Synced) (next : Option ServerState) :
    (p.setState next).Synced := by
  unfold Server.setState
  dsimp only
  split
  · exact h
  · exact Server.publish_synced _ _

theorem Server.Synced.startServer (h : p.Synced) (args : StartArgs) :
    (p.startServer randomAlias args).Synced := by
  unfold Server.startServer
  split
  · exact h
  · dsimp only
    generalize args.normalize randomAlias = args
    exact Server.publish_synced p args.sync

theorem Server.Synced.begin (h : p.Synced) (c : Called) : (p.begin randomAlias c).Synced := by
  have h' : Server.Synced { p with called := p.called ++ [c] } := h
  unfold Server.begin
  cases c with
  | startServer args => exact h'.startServer args
  | stopServer => exact h'
  | restartServer args => exact h'
  | setWebPin pin =>
      dsimp only
      split
      · exact h'
      · exact h'

theorem Server.Synced.resume (h : p.Synced) {c : Call}
    (hstep : p.resume randomAlias c = some p') : p'.Synced := by
  unfold Server.resume at hstep
  cases c with
  | failing next =>
      obtain rfl := Option.some.inj hstep
      exact Server.publish_synced p _
  | cancelling restart =>
      obtain rfl := Option.some.inj hstep
      exact h
  | restarting args =>
      obtain rfl := Option.some.inj hstep
      exact h.startServer args
  | starting id next => cases hstep
  | stopping id restart => cases hstep

theorem Server.Synced.receive (h : p.Synced) (message : ToMain) : (p.receive message).Synced := by
  unfold Server.receive
  split
  · refine Server.Synced.setState ?_ _
    exact h
  · exact h
  · have h' : ∀ c, ((p.endCall c).setState none).Synced := by
      intro c
      refine Server.Synced.setState ?_ none
      exact h
    dsimp only
    split
    · exact h' _
    · exact h' _
  · exact h

theorem Server.Synced.handle {message : ToIsolate} {toIsolate : List ToIsolate} (h : p.Synced)
    (hq : p.toIsolate = message :: toIsolate) :
    (({ p with toIsolate } : Server).handle message).Synced := by
  unfold Server.Synced at h
  rw [hq, List.foldl_cons] at h
  unfold Server.handle
  split
  · exact h
  · split
    · exact h
    · exact h
  · split
    · exact h
    · dsimp only
      split
      · exact h
      · exact h

theorem Server.Synced.proceed (h : p.Synced) {ok : Bool} {hd : Handler}
    (hstep : p.proceed ok hd = some p') : p'.Synced := by
  unfold Server.proceed at hstep
  cases hd with
  | locking id config =>
      dsimp only at hstep
      split at hstep
      · cases hstep
      · split at hstep
        · obtain rfl := Option.some.inj hstep
          exact h
        · obtain rfl := Option.some.inj hstep
          split <;> exact h
  | stoppingPrevious id config k =>
      dsimp only at hstep
      split at hstep
      · obtain rfl := Option.some.inj hstep
        exact h
      · cases hstep
  | binding id config =>
      dsimp only at hstep
      split at hstep
      · split at hstep
        · obtain rfl := Option.some.inj hstep
          exact h
        · cases hstep
      · obtain rfl := Option.some.inj hstep
        exact h
  | bound id k =>
      obtain rfl := Option.some.inj hstep
      exact h
  | stopping id k =>
      dsimp only at hstep
      split at hstep
      · obtain rfl := Option.some.inj hstep
        exact h
      · cases hstep
  | releasing id k =>
      dsimp only at hstep
      split at hstep
      · cases hstep
      · obtain rfl := Option.some.inj hstep
        exact h
  | stopped id =>
      obtain rfl := Option.some.inj hstep
      exact h

/-- The isolate ends up with the sync state of the service, whatever calls
overlap. -/
theorem Server.Synced.step (h : p.Synced) (l : Label)
    (hstep : serverStep randomAlias p l = some p') : p'.Synced := by
  unfold serverStep at hstep
  cases l with
  | call c =>
      obtain rfl := Option.some.inj hstep
      exact h.begin c
  | microtask =>
      dsimp only at hstep
      split at hstep
      · cases hstep
      · obtain rfl := Option.some.inj hstep
        show (p.toIsolate ++ [_]).foldl _ _ = p.service.sync
        rw [List.foldl_append]
        exact h
  | deliver =>
      dsimp only at hstep
      split at hstep
      · cases hstep
      · rename_i hq
        obtain rfl := Option.some.inj hstep
        exact h.handle hq
  | handler k ok =>
      obtain ⟨hd, -, hstep⟩ := Option.bind_eq_some_iff.mp hstep
      refine Server.Synced.proceed ?_ hstep
      exact h
  | receive =>
      dsimp only at hstep
      split at hstep
      · cases hstep
      · obtain rfl := Option.some.inj hstep
        refine Server.Synced.receive ?_ _
        exact h
  | resume k =>
      obtain ⟨c, -, hstep⟩ := Option.bind_eq_some_iff.mp hstep
      refine Server.Synced.resume ?_ hstep
      exact h
  | closed j =>
      dsimp only at hstep
      split at hstep
      · obtain rfl := Option.some.inj hstep
        exact h
      · cases hstep
  | configure settings =>
      obtain rfl := Option.some.inj hstep
      exact h

/-! ## §2  Every step leads to a stage -/

/-- Sync states that arrive, settings that change and calls that are ignored
leave the stage alone. -/
theorem Stage.unnoticed (hs : Stage p) (settings : ServerSettings) (sync : SyncState)
    {toIsolate : List ToIsolate} {called : List Called}
    (hto : toIsolate = p.toIsolate ∨ ∃ s, p.toIsolate = .sync s :: toIsolate)
    (hcalled : p.called.getLast? ≠ some .stopServer → called.getLast? ≠ some .stopServer) :
    Stage { p with
      service := { p.service with settings }, isolate := { p.isolate with sync }, toIsolate,
                 called } := by
  have hu : ∀ {task}, UnderWay p.toIsolate task → UnderWay toIsolate task := by
    intro task hu
    rcases hto with rfl | ⟨s, hs⟩
    · exact hu
    · rw [hs] at hu
      exact hu.sync
  have hat : ∀ {calls microtasks task handlers toMain},
      At p calls microtasks task handlers toMain →
        At { p with service := { p.service with settings },
                    isolate := { p.isolate with sync }, toIsolate, called }
          calls microtasks task handlers toMain :=
    fun h => ⟨h.calls, h.microtasks, hu h.toIsolate, h.handlers, h.toMain⟩
  have hrest : Rest p → Rest { p with
      service := { p.service with settings }, isolate := { p.isolate with sync }, toIsolate,
                 called } := by
    rintro (⟨hstate, hoff⟩ | ⟨hstate, hserver, hnew, hreq, hlast⟩)
    · exact .off hstate hoff
    · exact .on hstate hserver hnew hreq (hcalled hlast)
  have hasked : ∀ {c}, AskedFor p c → AskedFor { p with
      service := { p.service with settings }, isolate := { p.isolate with sync }, toIsolate,
                 called } c :=
    fun h => ⟨h.state, h.request, hcalled h.called⟩
  cases hs with
  | idle h hr => exact .idle (hat h) (hrest hr)
  | startPosted h hoff ha => exact .startPosted (hat h) hoff (hasked ha)
  | startSent h hoff ha => exact .startSent (hat h) hoff (hasked ha)
  | locking h hoff ha => exact .locking (hat h) hoff (hasked ha)
  | binding h hoff ha => exact .binding (hat h) hoff (hasked ha)
  | bound h hnew ha => exact .bound (hat h) hnew (hasked ha)
  | started h hserver hnew ha => exact .started (hat h) hserver hnew (hasked ha)
  | errored h hoff hstate => exact .errored (hat h) hoff hstate
  | stops hne h =>
      refine .stops hne (h.unnoticed settings sync ?_ hcalled)
      rcases hto with rfl | ⟨s, hs⟩
      · rfl
      · unfold Server.sent
        rw [hs]
        rfl
  | restarting h hoff hstate hlast => exact .restarting (hat h) hoff hstate (hcalled hlast)

/-- A start when there is no server. -/
theorem Stage.startServer (h : At p [] [] none [] []) (hstate : p.service.state = none)
    (hoff : Off p.isolate.server p.rust) (hcalled : p.called.getLast? ≠ some .stopServer)
    (args : StartArgs) : Stage (p.startServer randomAlias args) := by
  unfold Server.startServer
  rw [hstate]
  dsimp only
  generalize args.normalize randomAlias = args
  have hreq : (p.requests ++ [args.config p.service.settings]).getLast? =
      some ((args.task p.service.settings).config args.sync) := by
    rw [config_task, List.getLast?_append_of_ne_nil _ (by simp)]
    rfl
  refine @Stage.startPosted _ p.service.nextId args.state (args.task p.service.settings)
    ⟨?_, ?_, h.toIsolate.publish [_], h.handlers, h.toMain⟩ hoff ⟨hstate, hreq, hcalled⟩
  · show p.service.calls ++ _ = _
    rw [h.calls]
    rfl
  · show p.service.microtasks ++ _ = _
    rw [h.microtasks]
    rfl

/-- Without a call there is nothing under way. -/
theorem Stage.rest (hs : Stage p) (hcalls : p.service.calls = []) :
    At p [] [] none [] [] ∧ Rest p := by
  cases hs with
  | idle h hr => exact ⟨h, hr⟩
  | stops hne => exact (hne hcalls).elim
  | startPosted h | startSent h | locking h | binding h | bound h | started h | errored h
  | restarting h =>
      rw [h.calls] at hcalls
      cases hcalls

/-- A call that returns at once. -/
theorem Stage.ignored (hs : Stage p) {c : Called} (hc : p.ignores c = true) :
    Stage (p.begin randomAlias c) := by
  have hcalled : c ≠ .stopServer → Stage { p with called := p.called ++ [c] } := by
    intro hne
    refine hs.unnoticed p.service.settings p.isolate.sync (.inl rfl) fun _ => ?_
    rw [List.getLast?_concat]
    exact fun heq => hne (Option.some.inj heq)
  unfold Server.begin
  cases c with
  | startServer args =>
      obtain ⟨st, hst⟩ := Option.isSome_iff_exists.mp hc
      dsimp only
      unfold Server.startServer
      dsimp only
      rw [hst]
      exact hcalled (by simp)
  | setWebPin pin =>
      dsimp only
      rw [Option.isNone_iff_eq_none.mp hc]
      exact hcalled (by simp)
  | stopServer => cases hc
  | restartServer args => cases hc

/-- A call that goes on, when nothing else awaits. -/
theorem Stage.begin (h : At p [] [] none [] []) (hr : Rest p) {c : Called}
    (hc : p.ignores c = false) : Stage (p.begin randomAlias c) := by
  have hlast : (p.called ++ [c]).getLast? = some c := List.getLast?_concat
  have hcancel : ∀ restart, (restart.isSome = true → c ≠ .stopServer) →
      Stage (({ p with called := p.called ++ [c] } : Server).await (.cancelling restart)) := by
    intro restart hne
    refine .ofStopping (Stopping.first h hr _ restart fun hsome => ?_)
    rw [hlast]
    exact fun heq => hne hsome (Option.some.inj heq)
  unfold Server.begin
  cases c with
  | startServer args =>
      have hstate : p.service.state = none := Option.not_isSome_iff_eq_none.mp (by
        intro hsome
        rw [show p.ignores (.startServer args) = true from hsome] at hc
        cases hc)
      refine Stage.startServer (p := { p with called := p.called ++ [.startServer args] })
        ⟨h.calls, h.microtasks, h.toIsolate, h.handlers, h.toMain⟩ hstate ?_ ?_ args
      · cases hr with
        | off _ hoff => exact hoff
        | on hstate' =>
            rw [hstate] at hstate'
            cases hstate'
      · show (p.called ++ [_]).getLast? ≠ _
        rw [hlast]
        simp
  | stopServer => exact hcancel none (by simp)
  | restartServer args => exact hcancel (some args) (by simp)
  | setWebPin pin =>
      obtain ⟨args, hargs⟩ := Option.isSome_iff_exists.mp (Option.isNone_eq_false_iff.mp hc)
      dsimp only
      rw [hargs]
      exact hcancel (some args) (by simp)

/-- A call that begins in order. -/
theorem Stage.call (hs : Stage p) {c : Called} (ho : Ordered p (.call c)) :
    Stage (p.begin randomAlias c) := by
  rcases ho with hc | hcalls | ⟨rfl, hstops⟩
  · exact hs.ignored hc
  · obtain ⟨h, hr⟩ := hs.rest hcalls
    by_cases hc : p.ignores c = true
    · exact hs.ignored hc
    · exact Stage.begin h hr ((Bool.not_eq_true _).mp hc)
  · by_cases hcalls : p.service.calls = []
    · obtain ⟨h, hr⟩ := hs.rest hcalls
      exact Stage.begin h hr rfl
    · cases hs with
      | stops _ h => exact .ofStopping (h.further hstops _)
      | idle h => exact (hcalls h.calls).elim
      | startPosted h | startSent h | locking h | binding h | bound h | started h | errored h
      | restarting h =>
          rw [h.calls] at hstops
          cases hstops _ List.mem_cons_self

/-- The message of a task leaves the main isolate. -/
theorem Stage.microtask (hs : Stage p) (hstep : serverStep randomAlias p .microtask = some p') :
    Stage p' := by
  have hp : ∀ {task microtasks}, p.service.microtasks = task :: microtasks →
      p' = { p with
        service := { p.service with microtasks }, toIsolate := p.toIsolate ++ [.task task] } := by
    intro task microtasks hmicro
    unfold serverStep at hstep
    rw [hmicro] at hstep
    exact (Option.some.inj hstep).symm
  cases hs with
  | startPosted h hoff ha =>
      rw [hp h.microtasks]
      exact .startSent ⟨h.calls, rfl, h.toIsolate.post _, h.handlers, h.toMain⟩ hoff
        ⟨ha.state, ha.request, ha.called⟩
  | stops _ h =>
      cases hmicro : p.service.microtasks with
      | nil =>
          unfold serverStep at hstep
          rw [hmicro] at hstep
          cases hstep
      | cons task microtasks =>
          rw [hp hmicro]
          exact .ofStopping (h.microtask hmicro)
  | idle h | startSent h | locking h | binding h | bound h | started h | errored h
  | restarting h =>
      unfold serverStep at hstep
      rw [h.microtasks] at hstep
      cases hstep

theorem At.no_task {calls : List Call} {microtasks : List IsolateTask} {handlers : List Handler}
    {toMain : List ToMain} (h : At p calls microtasks none handlers toMain) {t : IsolateTask}
    {toIsolate : List ToIsolate} (hq : p.toIsolate = .task t :: toIsolate) : False := by
  have hu := h.toIsolate
  rw [hq] at hu
  cases hu.task.1

/-- A message reaches the isolate. A start task is carried out with the sync
state that was published before it. -/
theorem Stage.deliver (hs : Stage p) (hsync : p.Synced)
    (hstep : serverStep randomAlias p .deliver = some p') : Stage p' := by
  unfold serverStep at hstep
  cases hq : p.toIsolate with
  | nil =>
      rw [hq] at hstep
      cases hstep
  | cons message toIsolate =>
      rw [hq] at hstep
      obtain rfl := Option.some.inj hstep
      cases message with
      | sync s =>
          exact hs.unnoticed p.service.settings s (.inr ⟨s, hq⟩) id
      | task t =>
          cases hs with
          | startSent h hoff ha =>
              have hu := h.toIsolate
              rw [hq] at hu
              obtain ⟨heq, rfl⟩ := hu.task
              obtain rfl := Option.some.inj heq
              have hsync' : p.isolate.sync = p.service.sync := by
                unfold Server.Synced at hsync
                rw [hq] at hsync
                exact hsync
              rw [← hsync'] at ha
              unfold Server.handle
              dsimp only
              rw [hoff.server]
              refine .locking ⟨h.calls, h.microtasks, ⟨[], rfl⟩, ?_, h.toMain⟩
                ⟨hoff.server, hoff.running, hoff.locked, hoff.closed⟩
                ⟨ha.state, ha.request, ha.called⟩
              show p.isolate.handlers ++ _ = _
              rw [h.handlers]
              rfl
          | stops _ h => exact .ofStopping (h.deliver hq)
          | idle h | startPosted h | locking h | binding h | bound h | started h | errored h
          | restarting h => exact (h.no_task hq).elim

/-- Of one handler under way, that one goes on. -/
theorem At.handler {calls : List Call} {microtasks : List IsolateTask} {task : Option IsolateTask}
    {hd : Handler} {toMain : List ToMain} (h : At p calls microtasks task [hd] toMain) {k : ℕ}
    {ok : Bool} (hstep : serverStep randomAlias p (.handler k ok) = some p') :
    ({ p with isolate := { p.isolate with handlers := [] } } : Server).proceed ok hd = some p' := by
  unfold serverStep at hstep
  dsimp only at hstep
  rw [h.handlers] at hstep
  cases k with
  | zero => exact hstep
  | succ k => cases hstep

theorem At.no_handler {calls : List Call} {microtasks : List IsolateTask}
    {task : Option IsolateTask} {toMain : List ToMain} (h : At p calls microtasks task [] toMain)
    {k : ℕ} {ok : Bool} (hstep : serverStep randomAlias p (.handler k ok) = some p') : False := by
  unfold serverStep at hstep
  dsimp only at hstep
  rw [h.handlers] at hstep
  cases hstep

/-- The handler of a start goes on. -/
theorem Stage.binding_step {id : ℕ} {next : ServerState} {c : ServerConfig}
    (h : At p [.starting id next] [] none [.binding id c] [])
    (hoff : Off p.isolate.server { p.rust with locked := false }) (ha : AskedFor p c) {k : ℕ}
    {ok : Bool} (hstep : serverStep randomAlias p (.handler k ok) = some p') : Stage p' := by
  have hstep := h.handler hstep
  unfold Server.proceed at hstep
  dsimp only at hstep
  cases ok with
  | false =>
      obtain rfl := Option.some.inj hstep
      refine .errored ⟨h.calls, h.microtasks, h.toIsolate, rfl, ?_⟩ hoff ha.state
      show p.toMain ++ _ = _
      rw [h.toMain]
      rfl
  | true =>
      rw [if_pos rfl] at hstep
      split at hstep
      · obtain rfl := Option.some.inj hstep
        exact .bound ⟨h.calls, h.microtasks, h.toIsolate, rfl, h.toMain⟩ (hoff.start c)
          ⟨ha.state, ha.request, ha.called⟩
      · cases hstep

theorem Stage.handler (hs : Stage p) {k : ℕ} {ok : Bool}
    (hstep : serverStep randomAlias p (.handler k ok) = some p') : Stage p' := by
  cases hs with
  | locking h hoff ha =>
      have hstep := h.handler hstep
      unfold Server.proceed at hstep
      dsimp only at hstep
      rw [hoff.locked, hoff.running] at hstep
      obtain rfl := Option.some.inj hstep
      -- the lock is taken for as long as the listeners are bound
      exact .binding ⟨h.calls, h.microtasks, h.toIsolate, rfl, h.toMain⟩
        ⟨hoff.server, rfl, rfl, hoff.closed⟩ ⟨ha.state, ha.request, ha.called⟩
  | binding h hoff ha => exact Stage.binding_step h hoff ha hstep
  | bound h hnew ha =>
      obtain rfl := Option.some.inj (h.handler hstep)
      refine .started ⟨h.calls, h.microtasks, h.toIsolate, rfl, ?_⟩ rfl hnew
        ⟨ha.state, ha.request, ha.called⟩
      show p.toMain ++ _ = _
      rw [h.toMain]
      rfl
  | stops _ h => exact .ofStopping (h.handler hstep)
  | idle h | startPosted h | startSent h | started h | errored h | restarting h =>
      exact (h.no_handler hstep).elim

theorem Server.receive_started {id : ℕ} {next : ServerState}
    (hcalls : p.service.calls = [.starting id next]) :
    p.receive (.started id) = Server.setState { p with
      service := { p.service with calls := [], subscription := some id } } (some next) := by
  unfold Server.receive
  rw [hcalls]
  simp [Call.taskId, Server.endCall, hcalls, ToMain.id]

theorem Server.receive_error {id : ℕ} {next : ServerState}
    (hcalls : p.service.calls = [.starting id next]) :
    p.receive (.error id) = { p with
      service := { p.service with calls := [.failing next] } } := by
  unfold Server.receive
  rw [hcalls]
  simp [Call.taskId, Server.endCall, hcalls, ToMain.id, Server.await]

/-- After its error, a start has nothing more to do than a stop that is done. -/
theorem Stopping.failed {id : ℕ} {next : ServerState}
    (h : At p [.starting id next] [] none [] [.error id]) (hoff : Off p.isolate.server p.rust)
    (hstate : p.service.state = none) : Stopping { p with
      service := { p.service with calls := [.failing next] }, toMain := [] } := by
  have hsent := h.sent
  refine ⟨.inl fun c hc => ?_, ?_, ?_, fun _ hm => (nomatch hm), fun id' => ?_, .inl hstate,
    .off hoff ?_⟩
  · rw [List.mem_singleton.mp hc]
    rfl
  · show ∀ t ∈ p.service.microtasks, _
    rw [h.microtasks]
    exact fun _ ht => nomatch ht
  · show ∀ t ∈ p.sent, _
    rw [hsent]
    exact fun _ ht => nomatch ht
  · show 0 = (p.service.microtasks.map _).count id' + (p.sent.map _).count id' +
      (p.isolate.handlers.map _).count id' + 0
    rw [h.microtasks, h.handlers, hsent]
    rfl
  · show ∀ hd ∈ p.isolate.handlers, _
    rw [h.handlers]
    exact fun _ hm => nomatch hm

/-- The started event, an error, or the end of a stop is received. -/
theorem Stage.receive (hs : Stage p) (hstep : serverStep randomAlias p .receive = some p') :
    Stage p' := by
  have hp : ∀ {message toMain}, p.toMain = message :: toMain →
      p' = ({ p with toMain } : Server).receive message := by
    intro message toMain hmain
    unfold serverStep at hstep
    dsimp only at hstep
    rw [hmain] at hstep
    exact (Option.some.inj hstep).symm
  cases hs with
  | started h hserver hnew ha =>
      obtain ⟨service, toIsolate, heq, hstate, hcalls, hmicro, syncs, rfl⟩ :=
        Server.setState_spec { p with
          service := { p.service with calls := [], subscription := _ }, toMain := [] } _
      rw [hp h.toMain, Server.receive_started (p := { p with toMain := [] }) h.calls, heq]
      exact .idle ⟨hcalls, hmicro.trans h.microtasks, h.toIsolate.publish _, h.handlers, rfl⟩
        (.on hstate hserver hnew ha.request ha.called)
  | errored h hoff hstate =>
      rw [hp h.toMain, Server.receive_error (p := { p with toMain := [] }) h.calls]
      exact .ofStopping (Stopping.failed (p := p) h hoff hstate)
  | stops _ h =>
      cases hmain : p.toMain with
      | nil =>
          unfold serverStep at hstep
          dsimp only at hstep
          rw [hmain] at hstep
          cases hstep
      | cons message toMain =>
          rw [hp hmain]
          exact h.receive hmain
  | idle h | startPosted h | startSent h | locking h | binding h | bound h | restarting h =>
      unfold serverStep at hstep
      dsimp only at hstep
      rw [h.toMain] at hstep
      cases hstep

/-- Of one call that is awaiting, that one goes on. -/
theorem At.resume {c : Call} {microtasks : List IsolateTask} {task : Option IsolateTask}
    {handlers : List Handler} {toMain : List ToMain} (h : At p [c] microtasks task handlers toMain)
    {k : ℕ} (hstep : serverStep randomAlias p (.resume k) = some p') :
    Server.resume randomAlias { p with service := { p.service with calls := [] } } c =
      some p' := by
  unfold serverStep at hstep
  dsimp only at hstep
  rw [h.calls] at hstep
  cases k with
  | zero => exact hstep
  | succ k => cases hstep

/-- A call goes on that waits for no message. -/
theorem Stage.resume (hs : Stage p) {k : ℕ}
    (hstep : serverStep randomAlias p (.resume k) = some p') : Stage p' := by
  cases hs with
  | stops _ h => exact .ofStopping (h.resume hstep)
  | @restarting args h hoff hstate hcalled =>
      obtain rfl := Option.some.inj (h.resume hstep)
      have h' : At { p with service := { p.service with calls := [] } } [] [] none [] [] :=
        ⟨rfl, h.microtasks, h.toIsolate, h.handlers, h.toMain⟩
      exact Stage.startServer h' hstate hoff hcalled args
  | startPosted h | startSent h | locking h | binding h | bound h | started h | errored h =>
      cases h.resume hstep
  | idle h =>
      unfold serverStep at hstep
      dsimp only at hstep
      rw [h.calls] at hstep
      cases hstep

/-- Only a server that was told to stop closes its listeners. -/
theorem Stage.closed (hs : Stage p) {j : ℕ} (hj : p.rust.phase j = some .stopping) :
    Stage { p with rust := p.rust.setPhase j .closed } := by
  cases hs with
  | stops hne h => exact .stops hne (h.closed hj)
  | idle _ hr =>
      cases hr with
      | off _ hoff => exact (hoff.not_stopping j hj).elim
      | on _ _ hnew => exact (hnew.not_stopping (by simp) j hj).elim
  | binding _ hoff => exact (hoff.not_stopping j hj).elim
  | bound _ hnew | started _ _ hnew => exact (hnew.not_stopping (by simp) j hj).elim
  | startPosted _ hoff | startSent _ hoff | locking _ hoff | errored _ hoff
  | restarting _ hoff => exact (hoff.not_stopping j hj).elim

/-- **Every step leads to a stage**, when the calls begin in order. -/
theorem Stage.step (hs : Stage p) (hsync : p.Synced) (l : Label) (ho : Ordered p l)
    (hstep : serverStep randomAlias p l = some p') : Stage p' := by
  cases l with
  | call c =>
      obtain rfl := Option.some.inj hstep
      exact hs.call ho
  | microtask => exact hs.microtask hstep
  | deliver => exact hs.deliver hsync hstep
  | handler k ok => exact hs.handler hstep
  | receive => exact hs.receive hstep
  | resume k => exact hs.resume hstep
  | closed j =>
      unfold serverStep at hstep
      dsimp only at hstep
      split at hstep
      · rename_i hj
        obtain rfl := Option.some.inj hstep
        exact hs.closed hj
      · cases hstep
  | configure settings =>
      obtain rfl := Option.some.inj hstep
      exact hs.unnoticed settings p.isolate.sync (.inl rfl) id

end Steps

/-! ## §3  Between two calls -/

theorem Server.init_synced (settings : ServerSettings) (sync : SyncState) :
    (Server.init settings sync).Synced := rfl

theorem Stage.init (settings : ServerSettings) (sync : SyncState) :
    Stage (Server.init settings sync) :=
  .idle ⟨rfl, rfl, ⟨[], rfl⟩, rfl, rfl⟩ (.off rfl ⟨rfl, rfl, rfl, fun _ hi => nomatch hi⟩)

theorem Rest.agrees {p : Server} (h : Rest p) : p.Agrees := by
  cases h with
  | off hstate hoff =>
      have hnone := hoff.listening
      refine ⟨?_, ?_, fun _ => hnone⟩
      · rw [hstate, hnone]
        simp
      · rw [hnone]
        exact fun _ hc => nomatch hc
  | on hstate _ hnew hreq hcalled =>
      have hone := hnew.listening rfl
      refine ⟨?_, ?_, fun hstop => (hcalled hstop).elim⟩
      · rw [hstate, hone]
        simp
      · rw [hone]
        intro c hc
        rw [List.mem_singleton.mp hc]
        exact hreq

/-- **Between two calls the state, the servers and the last request agree**,
when the calls begin in order. -/
theorem server_lifecycle (randomAlias : String) (settings : ServerSettings) (sync : SyncState)
    {p : Server}
    (hrun : Run (serverStep randomAlias) Ordered (Server.init settings sync) p) (hq : p.Quiet) :
    p.Agrees := by
  have hinv : Stage p ∧ p.Synced :=
    hrun.invariant (I := fun p => Stage p ∧ p.Synced)
      ⟨Stage.init settings sync, Server.init_synced settings sync⟩
      fun _ l _ ⟨hs, hsync⟩ ho hstep => ⟨hs.step hsync l ho hstep, hsync.step l hstep⟩
  exact (hinv.1.rest hq.calls).2.agrees

/-! Settings and arguments of a first start. -/

def sampleSettings : ServerSettings := ⟨"me", 53317, true, none, true, none⟩

def sampleSync : SyncState := ⟨"me", 53317, .https, false, false⟩

def sampleArgs : StartArgs := ⟨"me", 53317, true, none, false, none⟩

instance (p : Server) : Decidable p.Quiet :=
  decidable_of_iff (p.service.calls = [] ∧ p.service.microtasks = [] ∧ p.toIsolate = [] ∧
      p.isolate.handlers = [] ∧ p.toMain = [])
    ⟨fun ⟨h1, h2, h3, h4, h5⟩ => ⟨h1, h2, h3, h4, h5⟩,
      fun ⟨h1, h2, h3, h4, h5⟩ => ⟨h1, h2, h3, h4, h5⟩⟩

/-- A start, and two stops that overlap. -/
def inOrder : List Label :=
  [.call (.startServer sampleArgs), .microtask, .deliver, .deliver, .handler 0 true,
    .handler 0 true, .handler 0 true, .receive, .call .stopServer, .resume 0,
    .call .stopServer, .resume 1, .microtask, .microtask, .deliver, .deliver, .handler 1 true,
    .receive, .deliver, .closed 0, .handler 0 true, .handler 0 true, .handler 0 true, .receive]

theorem server_lifecycle_inOrder : ∃ p,
    Run (serverStep "he") Ordered (Server.init sampleSettings sampleSync) p ∧
      p.called.length = 3 ∧ p.Quiet ∧ p.Agrees := by
  obtain ⟨p, hexec, hp⟩ := exists_of_exec_any (serverStep "he")
    (Server.init sampleSettings sampleSync) inOrder
    (fun p => decide (p.called.length = 3 ∧ p.Quiet)) (by decide)
  have hrun : Run _ Ordered _ p := run_of_exec hexec (by decide)
  obtain ⟨hlen, hq⟩ := of_decide_eq_true hp
  exact ⟨p, hrun, hlen, hq, server_lifecycle "he" sampleSettings sampleSync hrun hq⟩

/-- A stop that begins before the start has returned: it finds no server, and
the start goes on. -/
def stopDuringStart : List Label :=
  [.call (.startServer sampleArgs), .microtask, .deliver, .deliver, .handler 0 true,
    .handler 0 true, .call .stopServer, .resume 1, .microtask, .deliver, .handler 1 true,
    .receive, .handler 0 true, .receive]

/-- The last call was a stop, and a server is listening. -/
theorem listening_after_stop :
    ¬ ∀ (randomAlias : String) (settings : ServerSettings) (sync : SyncState) (p : Server),
      Reach (serverStep randomAlias) (Server.init settings sync) p → p.Quiet → p.Agrees := by
  intro hall
  obtain ⟨p, hexec, hp⟩ := exists_of_exec_any (serverStep "he")
    (Server.init sampleSettings sampleSync) stopDuringStart
    (fun p => decide (p.Quiet ∧ p.called.getLast? = some .stopServer ∧ p.rust.listening ≠ []))
    (by decide)
  obtain ⟨hq, hlast, hlistening⟩ := of_decide_eq_true hp
  exact hlistening ((hall _ _ _ p (reach_of_exec hexec) hq).stopped hlast)

end FireBoxTransfer.ServerLifecycle

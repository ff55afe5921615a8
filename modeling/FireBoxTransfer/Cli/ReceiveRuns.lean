import FireBoxTransfer.Cli.Receive
import FireBoxTransfer.Cli.ServerEvents

/-!
# Runs of the receiving side

What the application knows of a session it has from the events it took; what the
server does with a session, it does because the application has accepted it. Both
directions are needed: a request is decided once, files arrive only of accepted
sessions, and no session has ended before it was accepted.
-/

namespace FireBoxTransfer

open TaskPool Runs

namespace Cli

/-! ## §1  The books -/

/-- An upload as the application knows it: where it goes, and what came back. -/
structure Entry where
  sessionId : String
  fileId : String
  path : String
  result : Option (Except String Unit)

def Entry.key (e : Entry) : String × String := (e.sessionId, e.fileId)

def Entry.settle (e : Entry) (result : Except String Unit) : Entry :=
  { e with result := some result }

def Attempt.entry (a : Attempt) : Entry := ⟨a.sessionId, a.fileId, a.path, a.result⟩

/-- What the application keeps of sessions and results, with the histories. -/
structure Books where
  receive : Option ReceiveSession
  entries : List Entry
  accepted : List (String × AssocMap String FileDto)
  counted : List (String × String × Bool)
  reported : List (String × LogLine)

def Receiver.books (p : Receiver) : Books where
  receive := p.app.receive
  entries := p.attempts.map Attempt.entry
  accepted := p.accepted
  counted := p.counted
  reported := p.reported

def Books.start (b : Books) (session : ReceiveSession) : Books :=
  { b with
    receive := some session
    accepted := b.accepted ++ [(session.sessionId, session.files)] }

def Books.upload (b : Books) (session : ReceiveSession) (fileId path : String) : Books :=
  { b with
    receive := some { session with inProgress := session.inProgress.insert fileId }
    entries := b.entries ++ [⟨session.sessionId, fileId, path, none⟩] }

/-- The summary is shown and the session cleared once it has ended with nothing
outstanding. -/
def Books.finish (b : Books) : Books :=
  match b.receive with
  | none => b
  | some session =>
      match session.ended with
      | none => b
      | some reason =>
          if session.inProgress.isEmpty then
            { b with
              receive := none
              reported := b.reported ++ [(session.sessionId, session.summary reason)] }
          else b

def Books.ended (b : Books) (session : ReceiveSession) (reason : SessionEndReasonV2) : Books :=
  { b with receive := some { session with ended := some reason } }.finish

def Books.current (b : Books) (sessionId : String) : Option ReceiveSession :=
  b.receive.filter fun session => session.sessionId = sessionId

/-- The current session counts the result of entry `k`. -/
def Books.settle (b : Books) (k : ℕ) (e : Entry) (session : ReceiveSession)
    (result : Except String Unit) : Books :=
  { b with
    receive := some (session.settle e.fileId result)
    entries := b.entries.set k (e.settle result)
    counted := b.counted ++ [(e.sessionId, e.fileId, result.toBool)] }

/-- The result of entry `k` comes in; only the current session counts it. -/
def Books.result (b : Books) (k : ℕ) (e : Entry) (result : Except String Unit) : Books :=
  match b.current e.sessionId with
  | none => { b with entries := b.entries.set k (e.settle result) }
  | some session => (b.settle k e session result).finish

def Books.cancel (b : Books) (session : ReceiveSession) : Books :=
  { b with
    receive := none
    reported := b.reported ++ [(session.sessionId,
      .cancelled session.«alias» session.finishedFiles session.files.entries.length)] }

theorem Books.finish_cases (b : Books) :
    (b.finish = b ∧
        ∀ session, b.receive = some session → session.ended = none ∨ session.inProgress ≠ []) ∨
      ∃ session reason, b.receive = some session ∧ session.ended = some reason ∧
        session.inProgress = [] ∧
        b.finish = { b with
          receive := none
          reported := b.reported ++ [(session.sessionId, session.summary reason)] } := by
  cases hs : b.receive with
  | none =>
      refine .inl ⟨?_, fun _ h => by cases h⟩
      simp only [Books.finish, hs]
  | some session =>
      cases he : session.ended with
      | none =>
          refine .inl ⟨?_, fun _ h => ?_⟩
          · simp only [Books.finish, hs, he]
          · cases h
            exact .inl he
      | some reason =>
          by_cases hempty : session.inProgress = []
          · refine .inr ⟨session, reason, rfl, he, hempty, ?_⟩
            simp [Books.finish, hs, he, hempty]
          · refine .inl ⟨?_, fun _ h => ?_⟩
            · simp [Books.finish, hs, he, hempty]
            · cases h
              exact .inr hempty

theorem Books.finish_entries (b : Books) : b.finish.entries = b.entries := by
  rcases b.finish_cases with ⟨h, -⟩ | ⟨_, _, -, -, -, h⟩ <;> rw [h]

theorem Books.finish_accepted (b : Books) : b.finish.accepted = b.accepted := by
  rcases b.finish_cases with ⟨h, -⟩ | ⟨_, _, -, -, -, h⟩ <;> rw [h]

theorem Books.result_accepted (b : Books) (k : ℕ) (e : Entry) (result : Except String Unit) :
    (b.result k e result).accepted = b.accepted := by
  unfold Books.result
  split
  · rfl
  · exact Books.finish_accepted _

theorem Books.result_length (b : Books) (k : ℕ) (e : Entry) (result : Except String Unit) :
    (b.result k e result).entries.length = b.entries.length := by
  unfold Books.result
  split
  · exact List.length_set
  · rw [Books.finish_entries]
    exact List.length_set

theorem Books.finish_receive {b : Books} {session : ReceiveSession}
    (h : b.finish.receive = some session) : b.receive = some session := by
  rcases b.finish_cases with ⟨hsame, -⟩ | ⟨_, _, -, -, -, hnone⟩
  · rwa [hsame] at h
  · rw [hnone] at h
    cases h

theorem finishReceiveIfDone_books (p : Receiver) :
    p.finishReceiveIfDone.books = p.books.finish := by
  unfold Receiver.finishReceiveIfDone Books.finish
  cases hs : p.app.receive with
  | none => simp only [Receiver.books, hs]
  | some session =>
      cases he : session.ended with
      | none => simp only [Receiver.books, hs, he]
      | some reason =>
          simp only [Receiver.books, hs, he]
          split_ifs
          · rfl
          · simp only [hs]

/-! ## §2  A server and its answers -/

/-- How the application uses its server, apart from taking events: a request is
accepted only for one of the sessions `S`. -/
def AppCall (S : List String) (c : ServerPool) : ServerLabel → Prop
  | .env (.decide tx (.accept ids)) => ids = [] ∨ ∃ sid ∈ S, Named c sid tx
  | .env (.decide _ .decline) | .env (.dropDecision _) | .env (.answerTarget _ _)
  | .env (.dropTarget _) | .env (.cancelV2Session _) => True
  | _ => False

theorem AppCall.mono {S S' : List String} {c : ServerPool} {l : ServerLabel}
    (h : AppCall S c l) (hS : S ⊆ S') : AppCall S' c l := by
  unfold AppCall at h ⊢
  split
  · rcases h with h | ⟨sid, hm, hn⟩
    · exact .inl h
    · exact .inr ⟨sid, hS hm, hn⟩
  all_goals simp_all

/-- A server that has sent these events and was told to accept the sessions `S`. -/
structure Served (X : Externals) (S : List String) (events : List ServerEventV2)
    (c : ServerPool) : Prop where
  reach : Reach (serverStep X) (.init none true 16) c
  news : ∀ t ∈ c.tasks, t.CancelNews
  history : EventHistory X events c
  decided : ∀ {tx ids}, c.shared.decisions[tx]? = some (.sent (.accept ids)) →
    ids = [] ∨ ∃ sid ∈ S, Named c sid tx
  granted : ∀ {ctx files}, Task.prepareUpload (.activate ctx files) ∈ c.tasks →
    ctx.sessionId ∈ S
  activated : ∀ {sid}, .activated sid ∈ c.log → sid ∈ S

section Served

variable {X : Externals} {S S' : List String} {events new : List ServerEventV2}
  {c c' : ServerPool}

theorem Served.init : Served X [] [] (.init none true 16) where
  reach := .refl
  news _ h := absurd h List.not_mem_nil
  history := .init X none true 16
  decided h := by simp [ServerPool.init, ServerV2.start] at h
  granted h := absurd h List.not_mem_nil
  activated h := absurd h List.not_mem_nil

theorem Served.mono (h : Served X S events c) (hS : S ⊆ S') : Served X S' events c where
  reach := h.reach
  news := h.news
  history := h.history
  decided hd := (h.decided hd).imp_right fun ⟨sid, hm, hn⟩ => ⟨sid, hS hm, hn⟩
  granted ht := hS (h.granted ht)
  activated hm := hS (h.activated hm)

theorem acceptedFiles_nil {minted : ℕ} {files : AssocMap String FileDto} :
    (acceptedFiles X minted files []).isEmpty = true := by
  rw [← Bool.not_eq_false]
  intro hne
  obtain ⟨fid, file, hf⟩ := AssocMap.exists_get?_of_ne_empty hne
  cases (acceptedFiles_eq_some hf).1

/-- A step of a task. -/
theorem Served.task (h : Served X S events c) {i : ℕ} {t : Task} {a : Act} {o : Step}
    (ht : c.tasks[i]? = some t) (ho : taskStep X c.shared t a = some o) :
    ∃ new, Emits X t o new ∧ Appends c.shared o.shared new ∧
      Served X S (events ++ new) (c.advance i o) := by
  have htm := List.mem_of_getElem? ht
  have hst : serverStep X c (.task i a) = some (c.advance i o) :=
    poolStep_task.mpr ⟨t, o, ht, ho, rfl⟩
  have hch := channelled_reach h.reach
  obtain ⟨new, hemits, happ⟩ := taskStep_emits (h.news t htm) ho
  refine ⟨new, hemits, happ, ?_⟩
  constructor
  case reach => exact h.reach.snoc trivial hst
  case news =>
    intro u hu
    rcases mem_advance_new hu with hu | hu
    · exact taskStep_cancelNews ho u hu
    · exact h.news u hu
  case history =>
    exact h.history.task ⟨ownership_reach h.reach, ht, h.news t htm, ho, hemits, happ⟩
  case decided =>
    intro tx ids hd
    have hold := serverStep_sent hch hst (fun _ _ hl => by cases hl) hd
    exact (h.decided hold).imp_right fun ⟨sid, hm, hn⟩ => ⟨sid, hm, hn.step hch hst⟩
  case granted =>
    intro ctx files hu
    rcases mem_advance_new hu with hu | hu
    · obtain ⟨-, rx, ids, hr, -, hd, hne⟩ := (taskStep_move ho).accepting_from (mem_roles hu)
      rcases h.decided hd with rfl | ⟨sid, hm, hn⟩
      · rw [acceptedFiles_nil] at hne
        cases hne
      · rw [hn.2 t htm ctx hr]
        exact hm
    · exact h.granted hu
  case activated =>
    intro sid hm
    rcases List.mem_append.mp hm with hm | hm
    · exact h.activated hm
    · -- only the handler of an accepted request activates its session
      cases taskStep_askMove (h.news t htm).only ho with
      | rest _ _ hseen => exact absurd hm (hseen sid).2
      | activate hact _ _ hseen =>
          rw [hseen, List.mem_singleton] at hm
          cases hm
          exact h.granted (hact ▸ htm)
      | claim _ _ _ hseen => rw [hseen] at hm; simp at hm
      | ask _ _ _ hseen | accept _ _ _ hseen | refuse _ _ _ hseen | abandon _ _ _ hseen
      | free _ _ _ hseen | abort _ _ _ hseen | unheard _ _ _ hseen =>
          rw [hseen] at hm
          cases hm

/-- Something else happens to the server. -/
theorem Served.env (h : Served X S events c) (e : Env) {s : ServerV2} {ts : List Task}
    (he : envStep c.shared e = some (s, ts))
    (hnew : ∀ event ∈ new, ∃ ip info, event = .register ip info)
    (hdec : ∀ tx ids, e = .decide tx (.accept ids) → ids = [] ∨ ∃ sid ∈ S, Named c sid tx) :
    Served X S (events ++ new) (c.enter s ts) := by
  have hst : serverStep X c (.env e) = some (c.enter s ts) :=
    poolStep_env.mpr ⟨s, ts, he, rfl⟩
  have hch := channelled_reach h.reach
  obtain ⟨-, hidle⟩ := envStep_quiet he
  constructor
  case reach => exact h.reach.snoc trivial hst
  case news =>
    intro u hu
    rcases List.mem_append.mp hu with hu | hu
    · exact h.news u hu
    · exact envStep_cancelNews he u hu
  case history => exact h.history.env he hnew
  case decided =>
    intro tx ids hd
    have hold : ids = [] ∨ ∃ sid ∈ S, Named c sid tx := by
      by_cases hdecide : ∃ tx' d, e = .decide tx' d
      · obtain ⟨tx', d, rfl⟩ := hdecide
        rcases decide_sent hst hd with hold | ⟨rfl, rfl⟩
        · exact h.decided hold
        · exact hdec _ _ rfl
      · exact h.decided (envStep_sent he (fun tx d hl => hdecide ⟨tx, d, hl⟩) hd)
    exact hold.imp_right fun ⟨sid, hm, hn⟩ => ⟨sid, hm, hn.step hch hst⟩
  case granted =>
    intro ctx files hu
    rcases List.mem_append.mp hu with hu | hu
    · exact h.granted hu
    · cases hidle _ hu
  case activated => exact h.activated

/-- A step of the server by itself: a task goes on, or something arrives that is not a
decision and sends at most a registration. -/
theorem external_cases {l : ServerLabel} (hl : l.external = true)
    (hst : serverStep X c l = some c') :
    (∃ i t a o, l = .task i a ∧ c.tasks[i]? = some t ∧ taskStep X c.shared t a = some o ∧
        c' = c.advance i o) ∨
      ∃ e s ts new, envStep c.shared e = some (s, ts) ∧ c' = c.enter s ts ∧
        (∀ event ∈ new, ∃ ip info, event = .register ip info) ∧
        s.events.queue = c.shared.events.queue ++ new ∧
        ∀ tx ids, e ≠ .decide tx (.accept ids) := by
  cases l with
  | task i a =>
      obtain ⟨t, o, ht, ho, rfl⟩ := poolStep_task.mp hst
      exact .inl ⟨i, t, a, o, rfl, ht, ho, rfl⟩
  | env e =>
      obtain ⟨s, ts, he, rfl⟩ := poolStep_env.mp hst
      change envStep c.shared e = some (s, ts) at he
      cases e with
      | register ip info =>
          have hstep := he
          simp only [envStep] at he
          split at he
          · rename_i hsend
            cases he
            refine .inr ⟨_, _, _, [.register ip info], hstep, rfl, ?_, ?_, by simp⟩
            · exact fun event hm => ⟨ip, info, List.mem_singleton.mp hm⟩
            · exact congrArg EventChannel.queue (EventChannel.send_eq_ok hsend)
          · cases he
            exact .inr ⟨_, _, _, [], hstep, rfl, by simp, (List.append_nil _).symm, by simp⟩
      | prepareUpload | upload | cancel =>
          have hsame : c.shared = s := (Prod.mk.inj (Option.some.inj he)).1
          refine .inr ⟨_, _, _, [], he, rfl, by simp, ?_, by simp⟩
          rw [← hsame, List.append_nil]
      | _ => cases hl

/-- The tasks of the server go on, or a request arrives. -/
theorem Served.external (h : Served X S events c) {l : ServerLabel} (hl : l.external = true)
    (hst : serverStep X c l = some c') :
    ∃ new, c'.shared.events.queue = c.shared.events.queue ++ new ∧
      Served X S (events ++ new) c' := by
  rcases external_cases hl hst with ⟨i, t, a, o, -, ht, ho, rfl⟩ |
    ⟨e, s, ts, new, he, rfl, hnew, hqueue, hdec⟩
  · obtain ⟨new, -, happ, hserved⟩ := h.task ht ho
    exact ⟨new, happ, hserved⟩
  · exact ⟨new, hqueue, h.env e he hnew fun tx ids hd => absurd hd (hdec tx ids)⟩

/-- The application uses the server. -/
theorem Served.call (h : Served X S events c) {l : ServerLabel} (hl : AppCall S c l)
    (hst : serverStep X c l = some c') :
    c'.shared.events.queue = c.shared.events.queue ∧ Served X S events c' := by
  cases l with
  | task => cases hl
  | env e =>
      obtain ⟨s, ts, he, rfl⟩ := poolStep_env.mp hst
      have hserved : (∀ tx ids, e = .decide tx (.accept ids) →
          ids = [] ∨ ∃ sid ∈ S, Named c sid tx) → Served X S events (c.enter s ts) := by
        intro hdec
        rw [← List.append_nil events]
        exact h.env e he (by simp) hdec
      cases e with
      | decide tx d =>
          obtain ⟨_, -, hs⟩ := Option.map_eq_some_iff.mp he
          cases hs
          refine ⟨rfl, hserved ?_⟩
          rintro _ _ ⟨⟩
          exact hl
      | dropDecision | answerTarget | dropTarget =>
          obtain ⟨_, -, hs⟩ := Option.map_eq_some_iff.mp he
          cases hs
          exact ⟨rfl, hserved (by simp)⟩
      | cancelV2Session =>
          cases he
          exact ⟨rfl, hserved (by simp)⟩
      | _ => cases hl

/-- The application takes the next event. -/
theorem Served.recv (h : Served X S events c)
    (hst : serverStep X c (.env .recv) = some c') :
    Served X S events c' ∧ ∃ event, c.shared.events.queue = event :: c'.shared.events.queue := by
  obtain ⟨s, ts, he, rfl⟩ := poolStep_env.mp hst
  constructor
  · rw [← List.append_nil events]
    exact h.env .recv he (by simp) (by simp)
  · simp only [serverMachine, envStep] at he
    split at he
    · cases he
    · rename_i event queue hq
      cases he
      exact ⟨event, hq⟩

/-- What the application does to its server between two events. -/
theorem Served.calls (h : Served X S events c)
    (hrun : Run (serverStep X) (AppCall S) c c') :
    c'.shared.events.queue = c.shared.events.queue ∧ Served X S events c' ∧
      ∀ {sid tx}, Named c sid tx → Named c' sid tx := by
  induction hrun with
  | refl => exact ⟨rfl, h, fun hn => hn⟩
  | snoc _ hl hst ih =>
      obtain ⟨hq, hserved, hnamed⟩ := ih
      obtain ⟨hq', hserved'⟩ := hserved.call hl hst
      refine ⟨hq'.trans hq, hserved', fun hn => ?_⟩
      exact (hnamed hn).step (channelled_reach hserved.reach) hst

end Served

/-! ## §3  What the handlers do -/

/-- From `p` a handler has used the server, for no session that is not accepted now;
it leaves these books and this request in hand, and unless it gives out a path the
uploads are as they were. -/
structure Handles (X : Externals) (p p' : Receiver) (b : Books)
    (pending : Option PendingReceive) : Prop where
  run : Run (serverStep X) (AppCall (b.accepted.map Prod.fst)) p.core p'.core
  books : p'.books = b
  pending : p'.app.pending = pending
  received : p'.received = p.received
  attempts : b.entries.length = p.attempts.length → p'.attempts = p.attempts

/-- Nothing but the server and the log has changed. -/
abbrev Keeps (X : Externals) (p p' : Receiver) : Prop :=
  Handles X p p' p.books p.app.pending

/-- Some handler waits for the decision on this channel. -/
def Receiver.heard (p : Receiver) (tx : ℕ) : Bool :=
  p.core.tasks.any (Task.awaits tx)

/-- The request is accepted without asking: its sender is paired, and it is not a
mere message. -/
def Receiver.autoAccepts (p : Receiver) (info : RegisterDtoV2)
    (certFingerprint : Option String) (files : AssocMap String FileDto) : Bool :=
  (messageOf files).isNone &&
    p.app.pairedDevices.contains (certFingerprint.getD info.fingerprint)

section Handlers

variable {X : Externals} {P : SavePlatform} {p p' q : Receiver} {b : Books}
  {pending : Option PendingReceive}

/-- The server was not used. -/
theorem Handles.of_core (hcore : p'.core = p.core) (hbooks : p'.books = b)
    (hpending : p'.app.pending = pending) (hreceived : p'.received = p.received)
    (hattempts : b.entries.length = p.attempts.length → p'.attempts = p.attempts) :
    Handles X p p' b pending := by
  refine ⟨?_, hbooks, hpending, hreceived, hattempts⟩
  rw [hcore]
  exact .refl

theorem Keeps.refl : Keeps X p p := .of_core rfl rfl rfl rfl fun _ => rfl

theorem Keeps.print (p : Receiver) (line : LogLine) : Keeps X p (p.print line) :=
  .of_core rfl rfl rfl rfl fun _ => rfl

theorem Handles.setPending (p : Receiver) (pending : Option PendingReceive) :
    Handles X p (p.setPending pending) p.books pending :=
  .of_core rfl rfl rfl rfl fun _ => rfl

/-- What a handler does first leaves the books to what it does next. -/
theorem Handles.after (h : Handles X p q p.books pending) {b' : Books}
    {pending' : Option PendingReceive} (h' : Handles X q p' b' pending')
    (hS : p.books.accepted ⊆ b'.accepted) : Handles X p p' b' pending' where
  run := by
    have hfirst := h.run.mono fun _ _ hl => AppCall.mono hl (List.map_subset Prod.fst hS)
    exact hfirst.trans h'.run
  books := h'.books
  pending := h'.pending
  received := h'.received.trans h.received
  attempts hlen := by
    have hsame : q.attempts = p.attempts := h.attempts (List.length_map _)
    exact (h'.attempts (hlen.trans (congrArg List.length hsame).symm)).trans hsame

theorem Handles.trans (h : Handles X p q p.books pending)
    {pending' : Option PendingReceive} (h' : Handles X q p' q.books pending') :
    Handles X p p' p.books pending' := by
  rw [h.books] at h'
  exact h.after h' (List.Subset.refl _)

theorem Handles.keep (h : Handles X p q b pending) (h' : Keeps X q p') :
    Handles X p p' b pending where
  run := by
    have hlast := h'.run
    rw [h.books] at hlast
    exact h.run.trans hlast
  books := h'.books.trans h.books
  pending := h'.pending.trans h.pending
  received := h'.received.trans h.received
  attempts hlen := (h'.attempts (List.length_map _)).trans (h.attempts hlen)

theorem Handles.report (h : Handles X p q b pending) (sid : String) (line : LogLine) :
    Handles X p (q.report sid line)
      { b with reported := b.reported ++ [(sid, line)] } pending := by
  obtain ⟨hrun, rfl, hpending, hreceived, hattempts⟩ := h
  exact ⟨hrun, rfl, hpending, hreceived, hattempts⟩

theorem use_same (X : Externals) (p : Receiver) (e : Env) :
    p.use X e = { p with core := (p.use X e).core } := by
  unfold Receiver.use
  cases serverStep X p.core (.env e) <;> rfl

theorem use_run {S : List String} (p : Receiver) {e : Env} (he : AppCall S p.core (.env e)) :
    Run (serverStep X) (AppCall S) p.core (p.use X e).core := by
  unfold Receiver.use
  cases hst : serverStep X p.core (.env e) with
  | none => exact .refl
  | some core => exact .single he hst

/-- A use of the server that accepts no request. -/
theorem Keeps.use (p : Receiver) {e : Env} (he : AppCall [] p.core (.env e)) :
    Keeps X p (p.use X e) := by
  refine ⟨use_run p (he.mono (List.nil_subset _)), ?_, ?_, ?_, fun _ => ?_⟩
  all_goals rw [use_same]
  all_goals rfl

theorem Keeps.dropDecision (p : Receiver) (tx : ℕ) : Keeps X p (p.use X (.dropDecision tx)) :=
  .use p trivial

theorem sendDecision_unheard {tx : ℕ} (h : p.heard tx = false)
    (d : PrepareUploadDecisionV2) :
    p.sendDecision X tx d = (p.use X (.dropDecision tx), false) := by
  unfold Receiver.sendDecision
  rw [show p.core.tasks.any (Task.awaits tx) = false from h]
  rfl

theorem sendDecision_heard {tx : ℕ} (h : p.heard tx = true) (d : PrepareUploadDecisionV2) :
    p.sendDecision X tx d = (p.use X (.decide tx d), true) := by
  unfold Receiver.sendDecision
  rw [show p.core.tasks.any (Task.awaits tx) = true from h]
  rfl

/-- A decision that starts no session. -/
theorem Keeps.sendDecision (p : Receiver) (tx : ℕ) {d : PrepareUploadDecisionV2}
    (hd : AppCall [] p.core (.env (.decide tx d))) : Keeps X p (p.sendDecision X tx d).1 := by
  cases hheard : p.heard tx with
  | true =>
      rw [sendDecision_heard hheard]
      exact .use p hd
  | false =>
      rw [sendDecision_unheard hheard]
      exact .dropDecision p tx

/-- The request of this session is accepted, and the session starts. -/
theorem Handles.start (p : Receiver) {tx : ℕ} {session : ReceiveSession} (ids : List String)
    (hn : Named p.core session.sessionId tx) :
    Handles X p ((p.use X (.decide tx (.accept ids))).startReceive session)
      (p.books.start session) p.app.pending := by
  constructor
  case run =>
    apply use_run p
    refine Or.inr ⟨session.sessionId, ?_, hn⟩
    rw [Books.start, List.map_append]
    exact List.mem_append_right _ (List.mem_singleton_self _)
  case attempts =>
    intro _
    rw [use_same]
    rfl
  all_goals rw [use_same]
  all_goals rfl

theorem Handles.dropPending (p : Receiver) :
    Handles X p (p.dropPending X) p.books none := by
  unfold Receiver.dropPending
  split
  · rename_i hnone
    exact .of_core rfl rfl hnone rfl fun _ => rfl
  · exact (Handles.setPending p none).trans (Keeps.dropDecision (p.setPending none) _)

/-- A request is answered at once, accepted at once, or put before the user. -/
theorem handlePrepareUpload_cases {sid : String} (ip : PeerIp) (info : RegisterDtoV2)
    (cert : Option String) (files : AssocMap String FileDto) {tx : ℕ}
    (hn : Named p.core sid tx)
    (hp' : p' = p.handlePrepareUpload X sid ip info cert files tx) :
    Keeps X p p' ∨
      (p.autoAccepts info cert files = true ∧ p.heard tx = true ∧
        Handles X p p' (p.books.start
          (.new sid info.«alias» (senderTarget ip info cert) files)) p.app.pending) ∨
      Handles X p p' p.books
        (some ⟨sid, info.«alias», senderTarget ip info cert, files, tx⟩) := by
  subst hp'
  unfold Receiver.handlePrepareUpload
  split
  · have hsend : Keeps X p (p.sendDecision X tx (.accept [])).1 :=
      .sendDecision p tx (Or.inl (Eq.refl ([] : List String)))
    exact .inl (hsend.keep (.print _ _))
  · rename_i hmessage
    by_cases hpaired : p.app.pairedDevices.contains (senderTarget ip info cert).fingerprint
    · simp only [hpaired, if_true]
      cases hheard : p.heard tx with
      | true =>
          rw [sendDecision_heard hheard]
          refine .inr (.inl ⟨?_, rfl, Handles.start p files.keys hn⟩)
          rw [Receiver.autoAccepts, hmessage]
          exact hpaired
      | false =>
          rw [sendDecision_unheard hheard]
          exact .inl (.dropDecision p tx)
    · simp only [hpaired, Bool.false_eq_true, if_false]
      refine .inr (.inr ?_)
      have hprint : Keeps X p (p.print (.request info.«alias» files.values
        (p.app.web ≠ some .receive))) := .print p _
      exact (hprint.trans (Handles.dropPending _)).trans (Handles.setPending _ _)

theorem Keeps.pair (p : Receiver) (pending : PendingReceive) (answer : Answer) :
    Keeps X p (p.pair pending answer) := by
  unfold Receiver.pair
  split
  · split_ifs
    · exact .refl
    · exact .of_core rfl rfl rfl rfl fun _ => rfl
  · exact .refl
  · exact .refl

/-- After an answer no request waits any more; one that was accepted in time is the
session that is received. -/
theorem answerPending_cases {pending : PendingReceive} (answer : Answer)
    (hp : p.app.pending = some pending)
    (hn : Named p.core pending.sessionId pending.decisionTx)
    (hp' : p' = p.answerPending X answer) :
    Handles X p p' p.books none ∨
      answer ≠ .decline ∧ p.heard pending.decisionTx = true ∧
        Handles X p p' (p.books.start (.new pending.sessionId pending.«alias» pending.sender
          pending.files)) none := by
  subst hp'
  have hnone := Handles.setPending (X := X) p none
  unfold Receiver.answerPending
  rw [hp]
  dsimp only
  split
  · have hsend : Keeps X (p.setPending none)
        ((p.setPending none).sendDecision X pending.decisionTx .decline).1 :=
      .sendDecision _ _ trivial
    exact .inl ((hnone.keep hsend).keep (.print _ _))
  · rename_i hne
    have hq : Handles X p (((p.setPending none).print (.youAccepted pending.«alias»)).pair
        pending answer) p.books none :=
      (hnone.keep (.print _ _)).keep (.pair _ pending answer)
    have hcore : (((p.setPending none).print (.youAccepted pending.«alias»)).pair
        pending answer).core = p.core := by
      unfold Receiver.pair
      split
      · split_ifs <;> rfl
      · rfl
      · rfl
    generalize ((p.setPending none).print (.youAccepted pending.«alias»)).pair pending answer = q
      at hq hcore
    have hsame : q.heard pending.decisionTx = p.heard pending.decisionTx := by
      rw [Receiver.heard, hcore, Receiver.heard]
    cases hheard : p.heard pending.decisionTx with
    | true =>
        rw [sendDecision_heard (hsame.trans hheard)]
        refine .inr ⟨hne, rfl, ?_⟩
        let session : ReceiveSession :=
          .new pending.sessionId pending.«alias» pending.sender pending.files
        have hnamed : Named q.core session.sessionId pending.decisionTx := hcore ▸ hn
        have hstart := Handles.start (X := X) q pending.files.keys hnamed
        rw [hq.books, hq.pending] at hstart
        exact hq.after hstart (List.subset_append_left _ _)
    | false =>
        rw [sendDecision_unheard (hsame.trans hheard)]
        exact .inl ((hq.keep (.dropDecision q _)).keep (.print _ _))

theorem handleFileUpload_cases {sid fid : String} {file : FileDto} {tx : ℕ}
    (hp' : p.handleFileUpload X P sid fid file tx = some p') :
    (p.current sid = none ∧ p'.attempts = p.attempts ∧ Keeps X p p') ∨
      ∃ session path, p.current sid = some session ∧
        p'.attempts = p.attempts ++ [⟨sid, fid, tx, path, .unopened, none, none⟩] ∧
        Handles X p p' (p.books.upload session fid path) p.app.pending := by
  unfold Receiver.handleFileUpload at hp'
  split at hp'
  · rename_i hnone
    obtain rfl := Option.some.inj hp'
    refine .inl ⟨hnone, ?_, .use p trivial⟩
    rw [use_same]
  · rename_i session hsome
    obtain ⟨path, -, rfl⟩ := Option.map_eq_some_iff.mp hp'
    obtain ⟨-, hid⟩ := Option.filter_eq_some_iff.mp hsome
    have hadd : Handles X p { p.setReceive (some
        { session with inProgress := session.inProgress.insert fid }) with
        attempts := p.attempts ++ [⟨sid, fid, tx, path, .unopened, none, none⟩] }
        (p.books.upload session fid path) p.app.pending := by
      refine .of_core rfl ?_ rfl rfl ?_
      case refine_2 =>
        intro hlen
        simp [Books.upload, Receiver.books] at hlen
      rw [Books.upload, of_decide_eq_true hid, Receiver.books, List.map_append]
      rfl
    refine .inr ⟨session, path, hsome, ?_, ?_⟩
    · rw [use_same]
      rfl
    · exact hadd.keep (.use (e := .answerTarget tx (.path path)) _ trivial)

theorem finishReceiveIfDone_handles (p : Receiver) :
    Handles X p p.finishReceiveIfDone p.books.finish p.app.pending := by
  refine .of_core ?_ (finishReceiveIfDone_books p) ?_ ?_ fun _ => ?_
  all_goals
    unfold Receiver.finishReceiveIfDone
    split
    · rfl
    · split
      · rfl
      · split_ifs <;> rfl

theorem handleSessionEnd_cases {sid : String} {reason : SessionEndReasonV2}
    (hp' : p' = p.handleSessionEnd sid reason) :
    (p.current sid = none ∧ Keeps X p p') ∨ ∃ session, p.current sid = some session ∧
      Handles X p p' (p.books.ended session reason) p.app.pending := by
  subst hp'
  unfold Receiver.handleSessionEnd
  split
  · rename_i hnone
    exact .inl ⟨hnone, .refl⟩
  · rename_i session hsome
    obtain ⟨hrun, hbooks, hpending, hreceived, hattempts⟩ := finishReceiveIfDone_handles (X := X)
      (p.setReceive (some { session with ended := some reason }))
    exact .inr ⟨session, hsome, hrun, hbooks, hpending, hreceived, hattempts⟩

/-- Only the request in hand is looked at. -/
theorem handleAborted_cases {sid : String} (hp' : p' = p.handleAborted X sid) :
    Handles X p p' p.books none ∨
      (∀ pending, p.app.pending = some pending → pending.sessionId ≠ sid) ∧ Keeps X p p' := by
  subst hp'
  unfold Receiver.handleAborted
  split
  · rename_i hnone
    refine .inr ⟨?_, .refl⟩
    intro pending hsome
    rw [hnone] at hsome
    cases hsome
  · rename_i pending hsome
    split_ifs with hsid
    · exact .inl ((Handles.dropPending p).keep (.print _ _))
    · refine .inr ⟨?_, .refl⟩
      rintro pending' hsome'
      rw [hsome] at hsome'
      cases hsome'
      exact hsid

theorem cancelReceive_cases (hp' : p' = p.cancelReceive X) :
    (p.app.receive = none ∧ Keeps X p p') ∨ ∃ session, p.app.receive = some session ∧
      Handles X p p' (p.books.cancel session) p.app.pending := by
  subst hp'
  unfold Receiver.cancelReceive
  split
  · rename_i hnone
    exact .inl ⟨hnone, .refl⟩
  · rename_i session hsome
    have hclear : Handles X p { p.setReceive none with
        notified := p.notified ++ [(session.sender, session.sessionId)] }
        { p.books with receive := none } p.app.pending := .of_core rfl rfl rfl rfl fun _ => rfl
    have hcancel := hclear.keep (.use (e := .cancelV2Session session.sessionId) _ trivial)
    exact .inr ⟨session, hsome, hcancel.report _ _⟩

theorem Keeps.showResult (session : ReceiveSession) (fid : String) (p : Receiver)
    (result : Except String Unit) :
    Keeps X p (session.showResult fid p result) := by
  cases result with
  | ok => exact .refl
  | error err => exact .print p _

/-- The result of upload `k`. -/
theorem receiveFileResult_handles {k : ℕ} {a : Attempt} (result : Except String Unit) :
    Handles X (p.setAttempt k { a with result := some result })
      ((p.setAttempt k { a with result := some result }).receiveFileResult
        a.sessionId a.fileId result)
      (p.books.result k a.entry result) p.app.pending := by
  have hset : (p.attempts.set k { a with result := some result }).map Attempt.entry =
      p.books.entries.set k (a.entry.settle result) := List.map_set
  have hcurrent : p.books.current a.entry.sessionId = p.current a.sessionId := rfl
  cases hc : p.current a.sessionId with
  | none =>
      have hp : (p.setAttempt k { a with result := some result }).receiveFileResult a.sessionId
          a.fileId result = p.setAttempt k { a with result := some result } := by
        unfold Receiver.receiveFileResult
        rw [show (p.setAttempt k { a with result := some result }).current a.sessionId = none
          from hc]
      rw [hp, Books.result, hcurrent, hc]
      refine .of_core rfl ?_ rfl rfl fun _ => rfl
      exact congrArg (fun entries => { p.books with entries }) hset
  | some session =>
      have hp : (p.setAttempt k { a with result := some result }).receiveFileResult a.sessionId
          a.fileId result = (session.showResult a.fileId
            { (p.setAttempt k { a with result := some result }).setReceive
                (some (session.settle a.fileId result)) with
              counted := p.counted ++ [(a.sessionId, a.fileId, result.toBool)] }
            result).finishReceiveIfDone := by
        unfold Receiver.receiveFileResult
        rw [show (p.setAttempt k { a with result := some result }).current a.sessionId =
          some session from hc]
        rfl
      rw [hp, Books.result, hcurrent, hc]
      dsimp only
      rw [Books.settle, ← hset]
      have hshow := Keeps.showResult (X := X) session a.fileId
        { (p.setAttempt k { a with result := some result }).setReceive
            (some (session.settle a.fileId result)) with
          counted := p.counted ++ [(a.sessionId, a.fileId, result.toBool)] } result
      have hfinish := finishReceiveIfDone_handles (X := X) (session.showResult a.fileId
        { (p.setAttempt k { a with result := some result }).setReceive
            (some (session.settle a.fileId result)) with
          counted := p.counted ++ [(a.sessionId, a.fileId, result.toBool)] } result)
      rw [hshow.books, hshow.pending] at hfinish
      have hboth := hshow.after hfinish (by rw [Books.finish_accepted]; exact List.Subset.refl _)
      exact ⟨hboth.run, hboth.books, hboth.pending, hboth.received, hboth.attempts⟩

end Handlers

/-! ## §4  What a step does to the books -/

/-- The step accepts a request, and its handler hears of it. -/
def Receiver.accepts (p : Receiver) : ReceiverLabel → Bool
  | .event =>
      match p.core.shared.events.queue with
      | .prepareUpload _ _ info certFingerprint files decisionTx :: _ =>
          p.autoAccepts info certFingerprint files && p.heard decisionTx
      | _ => false
  | .answer answer =>
      match p.app.pending with
      | some pending => answer ≠ .decline && p.heard pending.decisionTx
      | none => false
  | _ => false

/-- The event that the step takes. -/
def Receiver.taken (p : Receiver) : ReceiverLabel → List ServerEventV2
  | .event => p.core.shared.events.queue.take 1
  | _ => []

/-- The books after a step: a session starts that was offered and not aborted so far;
an upload of the current session gets a path; the current session ends; a result comes
in; the current session is cancelled; or nothing happens to them. -/
inductive BooksMove (p : Receiver) : ReceiverLabel → Books → Prop
  | still {l : ReceiverLabel} (hend : ∀ sid reason,
      p.taken l = [.sessionEnd sid reason] → p.current sid = none) : BooksMove p l p.books
  | start {l : ReceiverLabel} {sid «alias» : String} {sender : SenderTarget}
      {files : AssocMap String FileDto} (hl : p.accepts l = true)
      (hnew : sid ∉ p.accepted.map Prod.fst)
      (hoffered : (sid, files) ∈ offers (p.received ++ p.taken l))
      (haborted : .prepareUploadAborted sid ∉ p.received ++ p.taken l)
      (hend : ∀ reason, .sessionEnd sid reason ∉ p.received ++ p.taken l) :
      BooksMove p l (p.books.start (.new sid «alias» sender files))
  | upload {l : ReceiverLabel} {sid fid : String} {file : FileDto} {tx : ℕ}
      {session : ReceiveSession} {path : String}
      (htaken : p.taken l = [.fileUpload sid fid file tx])
      (hcurrent : p.current sid = some session) :
      BooksMove p l (p.books.upload session fid path)
  | ended {l : ReceiverLabel} {sid : String} {reason : SessionEndReasonV2}
      {session : ReceiveSession} (htaken : p.taken l = [.sessionEnd sid reason])
      (hcurrent : p.current sid = some session) : BooksMove p l (p.books.ended session reason)
  | result {k : ℕ} {err : String} {e : Entry} {result : Except String Unit}
      (he : p.books.entries[k]? = some e) (hnone : e.result = none) :
      BooksMove p (.result k err) (p.books.result k e result)
  | cancel {session : ReceiveSession} (hcurrent : p.app.receive = some session) :
      BooksMove p .ctrlC (p.books.cancel session)

/-- The uploads after a step: the server goes on with them, one is given a path, its
file is created, its result comes in, or nothing happens to them. -/
inductive AttemptsMove (X : Externals) (p : Receiver) : ReceiverLabel → List Attempt → Prop
  | same {l : ReceiverLabel} (hl : ∀ m, l ≠ .core m) : AttemptsMove X p l p.attempts
  | follow {m : ServerLabel} {core : ServerPool} (hst : serverStep X p.core m = some core) :
      AttemptsMove X p (.core m) (p.attempts.map (Attempt.follow p.core core m))
  | add {l : ReceiverLabel} {sid fid : String} {file : FileDto} {tx : ℕ} {path : String}
      (hl : ∀ m, l ≠ .core m) (hevent : .fileUpload sid fid file tx ∈ p.core.shared.events.queue) :
      AttemptsMove X p l (p.attempts ++ [⟨sid, fid, tx, path, .unopened, none, none⟩])
  | create {k : ℕ} {a : Attempt} (ha : p.attempts[k]? = some a) :
      AttemptsMove X p (.create k) (p.attempts.set k { a with file := .created })
  | result {k : ℕ} {err : String} {a : Attempt} {result : Except String Unit}
      (ha : p.attempts[k]? = some a) (hnone : a.result = none)
      (hresult : p.resultOf a err = some result) :
      AttemptsMove X p (.result k err) (p.attempts.set k { a with result := some result })

/-- The request in hand was offered, is not decided, and was not aborted so far. -/
structure Waiting (p : Receiver) (pending : PendingReceive) : Prop where
  offered : (pending.sessionId, pending.files) ∈ offers p.received
  undecided : pending.sessionId ∉ p.accepted.map Prod.fst
  named : Named p.core pending.sessionId pending.decisionTx
  aborted : .prepareUploadAborted pending.sessionId ∉ p.received

/-- The books of an application that has taken these events: a session is accepted
once, after it was offered, and paths are given to uploads that were announced. -/
structure Recorded (b : Books) (received : List ServerEventV2) : Prop where
  offered : b.accepted ⊆ offers received
  once : (b.accepted.map Prod.fst).Nodup
  receive : ∀ session, b.receive = some session →
    (session.sessionId, session.files) ∈ b.accepted
  entries : ∀ e ∈ b.entries, e.sessionId ∈ b.accepted.map Prod.fst
  uploads : List.Sublist (b.entries.map Entry.key)
    (received.filterMap ServerEventV2.upload?)

/-- What the application has heard and decided so far. -/
structure Asked (X : Externals) (p : Receiver) : Prop where
  served : Served X (p.accepted.map Prod.fst) (p.received ++ p.core.shared.events.queue) p.core
  recorded : Recorded p.books p.received
  pending : ∀ pending, p.app.pending = some pending → Waiting p pending

/-- What the step does to the server: a step of its own, or calls of the application. -/
abbrev ServerUse (l : ReceiverLabel) (S : List String) (c : ServerPool) (m : ServerLabel) :
    Prop :=
  l = .core m ∨ m = .env .recv ∨ AppCall S c m

/-- A step and what it leaves in hand. -/
structure Moves (X : Externals) (p : Receiver) (l : ReceiverLabel) (p' : Receiver) : Prop where
  books : BooksMove p l p'.books
  attempts : AttemptsMove X p l p'.attempts
  server : ∀ m, l = .core m → m.external = true ∧ serverStep X p.core m = some p'.core
  run : Run (serverStep X) (ServerUse l (p'.accepted.map Prod.fst)) p.core p'.core
  served : Served X (p'.accepted.map Prod.fst) (p'.received ++ p'.core.shared.events.queue)
    p'.core
  received : p'.received = p.received ++ p.taken l
  events : (∀ m, l ≠ .core m) → p'.received ++ p'.core.shared.events.queue =
    p.received ++ p.core.shared.events.queue
  pending : ∀ pending, p'.app.pending = some pending → Waiting p' pending

/-- The handler may begin: the event of the step was taken, if there is one. -/
structure Ready (X : Externals) (p : Receiver) (l : ReceiverLabel) (q : Receiver) : Prop where
  label : ∀ m, l ≠ .core m
  accepted : q.accepted = p.accepted
  run : Run (serverStep X) (fun _ m => m = .env .recv) p.core q.core
  served : Served X (p.accepted.map Prod.fst) (q.received ++ q.core.shared.events.queue) q.core
  received : q.received = p.received ++ p.taken l
  events : q.received ++ q.core.shared.events.queue =
    p.received ++ p.core.shared.events.queue

section Moves

variable {X : Externals} {P : SavePlatform} {p p' q : Receiver} {b : Books}
  {l : ReceiverLabel} {inHand : Option PendingReceive}

theorem Handles.accepted (h : Handles X p p' b inHand) : p'.accepted = b.accepted :=
  congrArg Books.accepted h.books

theorem Handles.served (h : Handles X p p' b inHand) {S : List String}
    (hserved : Served X S (p.received ++ p.core.shared.events.queue) p.core)
    (hS : S ⊆ b.accepted.map Prod.fst) :
    p'.core.shared.events.queue = p.core.shared.events.queue ∧
      Served X (p'.accepted.map Prod.fst) (p'.received ++ p'.core.shared.events.queue) p'.core ∧
      ∀ {sid tx}, Named p.core sid tx → Named p'.core sid tx := by
  obtain ⟨hqueue, hserved', hnamed⟩ := (hserved.mono hS).calls h.run
  rw [h.accepted, h.received, hqueue]
  exact ⟨rfl, hserved', hnamed⟩

/-- A request stays in hand while a handler is at work, unless it is decided. -/
theorem Waiting.handles {pending : PendingReceive} (hw : Waiting p pending)
    (h : Handles X p p' b inHand)
    (hnamed : Named p'.core pending.sessionId pending.decisionTx)
    (hb : pending.sessionId ∉ b.accepted.map Prod.fst) : Waiting p' pending where
  offered := by rw [h.received]; exact hw.offered
  undecided := by rw [h.accepted]; exact hb
  named := hnamed
  aborted := by rw [h.received]; exact hw.aborted

theorem taken_event {event : ServerEventV2} {rest : List ServerEventV2}
    (hq : p.core.shared.events.queue = event :: rest) : p.taken .event = [event] := by
  simp [Receiver.taken, hq]

theorem mem_taken {event : ServerEventV2} (h : event ∈ p.taken l) :
    l = .event ∧ ∃ rest, p.core.shared.events.queue = event :: rest := by
  cases l with
  | event =>
      cases hq : p.core.shared.events.queue with
      | nil => simp [Receiver.taken, hq] at h
      | cons event' rest =>
          rw [taken_event hq, List.mem_singleton] at h
          subst h
          exact ⟨rfl, rest, rfl⟩
  | _ => cases h

/-- The next event was taken. -/
structure Taken (X : Externals) (p : Receiver) (event : ServerEventV2) (q : Receiver) :
    Prop where
  app : q.app = p.app
  books : q.books = p.books
  attempts : q.attempts = p.attempts
  received : q.received = p.received ++ [event]
  tasks : q.core.tasks = p.core.tasks
  ready : Ready X p .event q
  named : ∀ {sid tx}, Named p.core sid tx → Named q.core sid tx
  offer : ∀ {sid tx}, event.responder = some (sid, tx) → Named q.core sid tx

theorem take_taken (h : Asked X p) {event : ServerEventV2} {rest : List ServerEventV2}
    (hq : p.core.shared.events.queue = event :: rest) : Taken X p event (p.take X event) := by
  have hrecv : envStep p.core.shared .recv = some
      ({ p.core.shared with events := { p.core.shared.events with queue := rest } }, []) := by
    simp only [envStep, hq]
  obtain ⟨core, hst, htasks⟩ : ∃ core, serverStep X p.core (.env .recv) = some core ∧
      core.tasks = p.core.tasks :=
    ⟨_, poolStep_env.mpr ⟨_, [], hrecv, rfl⟩, List.append_nil _⟩
  have htake : p.take X event = { p with core, received := p.received ++ [event] } := by
    unfold Receiver.take Receiver.use
    rw [hst]
  obtain ⟨hserved, event', hqueue⟩ := h.served.recv hst
  obtain ⟨rfl, hrest⟩ := List.cons.inj (hq.symm.trans hqueue)
  have hch := channelled_reach h.served.reach
  have hevents : (p.received ++ [event]) ++ core.shared.events.queue =
      p.received ++ p.core.shared.events.queue := by
    rw [hqueue, List.append_assoc, List.singleton_append]
  rw [htake]
  constructor
  case ready =>
    refine ⟨fun _ hl => (by cases hl), rfl, .single rfl hst, ?_, ?_, hevents⟩
    · rw [hevents]
      exact hserved
    · rw [taken_event hq]
  case tasks => exact htasks
  case named => exact fun hn => hn.step hch hst
  case offer =>
    intro sid tx hoffer
    have hmem : event ∈ p.core.shared.events.queue := by
      rw [hq]
      exact List.mem_cons_self
    exact (hch.offered event hmem sid tx hoffer).step hch hst
  all_goals rfl

theorem Taken.waiting {event : ServerEventV2} (h : Taken X p event q) {pending : PendingReceive}
    (hw : Waiting p pending) (hne : event ≠ .prepareUploadAborted pending.sessionId) :
    Waiting q pending where
  offered := by
    rw [h.received, offers_append]
    exact List.mem_append_left _ hw.offered
  undecided := by
    rw [h.ready.accepted]
    exact hw.undecided
  named := h.named hw.named
  aborted := by
    rw [h.received, List.mem_append, List.mem_singleton]
    rintro (hm | rfl)
    · exact hw.aborted hm
    · exact hne rfl

/-- A handler at work. -/
theorem Handles.moves (h : Handles X q p' b inHand) (hq : Ready X p l q)
    (hmove : BooksMove p l b) (hS : p.accepted.map Prod.fst ⊆ b.accepted.map Prod.fst)
    (hwait : ∀ pending, inHand = some pending →
      Waiting q pending ∧ pending.sessionId ∉ b.accepted.map Prod.fst)
    (hattempts : AttemptsMove X p l p'.attempts) : Moves X p l p' := by
  obtain ⟨hqueue, hserved, hnamed⟩ := h.served hq.served hS
  constructor
  case books => rw [h.books]; exact hmove
  case attempts => exact hattempts
  case server => exact fun m hl => absurd hl (hq.label m)
  case run =>
    have htake : Run _ (ServerUse l (p'.accepted.map Prod.fst)) _ _ :=
      hq.run.mono fun _ _ hm => .inr (.inl hm)
    have huse := h.run
    rw [← h.accepted] at huse
    exact htake.trans (huse.mono fun _ _ hm => .inr (.inr hm))
  case served => exact hserved
  case received => exact h.received.trans hq.received
  case events =>
    intro _
    rw [h.received, hqueue]
    exact hq.events
  case pending =>
    intro pending hp
    obtain ⟨hw, hfresh⟩ := hwait pending (h.pending.symm.trans hp)
    exact hw.handles h (hnamed hw.named) hfresh

/-- A handler that gives out no path. -/
theorem Handles.attempts_same (h : Handles X q p' b inHand) (hq : Ready X p l q)
    (hsame : q.attempts = p.attempts) (hlen : b.entries.length = p.attempts.length) :
    AttemptsMove X p l p'.attempts := by
  rw [h.attempts (hlen.trans (congrArg List.length hsame).symm), hsame]
  exact .same hq.label

theorem Waiting.congr {pending : PendingReceive} (hw : Waiting p pending)
    (hcore : q.core = p.core) (haccepted : q.accepted = p.accepted)
    (hreceived : q.received = p.received) : Waiting q pending where
  offered := by rw [hreceived]; exact hw.offered
  undecided := by rw [haccepted]; exact hw.undecided
  named := by rw [hcore]; exact hw.named
  aborted := by rw [hreceived]; exact hw.aborted

/-- A handler that starts no session. -/
theorem Handles.rest (h : Handles X q p' b inHand) (hq : Ready X p l q)
    (hmove : BooksMove p l b) (haccepted : b.accepted = p.accepted)
    (hwait : ∀ pending, inHand = some pending → Waiting q pending)
    (hattempts : AttemptsMove X p l p'.attempts) : Moves X p l p' := by
  refine h.moves hq hmove ?_ ?_ hattempts
  · rw [haccepted]
    exact List.Subset.refl _
  · intro pending hp
    rw [haccepted, ← hq.accepted]
    exact ⟨hwait pending hp, (hwait pending hp).undecided⟩

/-- Without an event there is nothing to wait for. -/
theorem Asked.ready (h : Asked X p) (hcore : q.core = p.core) (haccepted : q.accepted = p.accepted)
    (hreceived : q.received = p.received) (hl : p.taken l = []) (hlabel : ∀ m, l ≠ .core m) :
    Ready X p l q where
  label := hlabel
  accepted := haccepted
  run := by rw [hcore]; exact .refl
  served := by rw [hcore, hreceived]; exact h.served
  received := by rw [hreceived, hl, List.append_nil]
  events := by rw [hcore, hreceived]

/-- An element is replaced by one that looks the same through `f`. -/
theorem map_set_same {α β : Type*} {xs : List α} {k : ℕ} {x y : α} (f : α → β)
    (hx : xs[k]? = some x) (hf : f y = f x) : (xs.set k y).map f = xs.map f := by
  obtain ⟨hk, rfl⟩ := List.getElem?_eq_some_iff.mp hx
  have hlen : k < (xs.map f).length := by simpa using hk
  have hsame : (xs.map f).set k (xs.map f)[k] = xs.map f := List.set_getElem_self hlen
  rw [List.getElem_map] at hsame
  rw [List.map_set, hf]
  exact hsame

/-- A session that is not accepted has not ended. -/
theorem Asked.not_ended (h : Asked X p) {sid : String}
    (hsid : sid ∉ p.accepted.map Prod.fst) (reason : SessionEndReasonV2) :
    .sessionEnd sid reason ∉ p.received ++ p.core.shared.events.queue :=
  fun hm => hsid (h.served.activated (h.served.history.ended hm))

/-- The next request is a new one. -/
theorem Asked.next_offer (h : Asked X p) {rest : List ServerEventV2} {sid : String} {ip : PeerIp}
    {info : RegisterDtoV2} {cert : Option String} {files : AssocMap String FileDto} {tx : ℕ}
    (hq : p.core.shared.events.queue = .prepareUpload sid ip info cert files tx :: rest) :
    (∀ files', (sid, files') ∉ offers p.received) ∧
      .prepareUploadAborted sid ∉ p.received := by
  have hist := h.served.history
  have hmem : .prepareUpload sid ip info cert files tx ∈ p.core.shared.events.queue := by
    rw [hq]
    exact List.mem_cons_self
  constructor
  · intro files' hold
    have honce := hist.once
    rw [offers_append, List.map_append, List.nodup_append] at honce
    have hnew : (sid, files) ∈ offers p.core.shared.events.queue :=
      mem_offers.mpr ⟨ip, info, cert, tx, hmem⟩
    exact honce.2.2 sid (List.mem_map_of_mem hold) sid (List.mem_map_of_mem hnew) rfl
  · intro hold
    exact (List.pairwise_append.mp hist.ordered).2.2 _ hold _ hmem sid rfl rfl

theorem Asked.unaccepted (h : Asked X p) {sid : String}
    (hsid : ∀ files, (sid, files) ∉ offers p.received) : sid ∉ p.accepted.map Prod.fst := by
  intro hm
  obtain ⟨⟨_, files⟩, hpair, rfl⟩ := List.mem_map.mp hm
  exact hsid files (h.recorded.offered hpair)

/-- The handler of a request. -/
theorem Asked.prepareUpload_moves (h : Asked X p) {rest : List ServerEventV2} {sid : String}
    {ip : PeerIp} {info : RegisterDtoV2} {cert : Option String}
    {files : AssocMap String FileDto} {tx : ℕ}
    (hq : p.core.shared.events.queue = .prepareUpload sid ip info cert files tx :: rest)
    (ht : Taken X p (.prepareUpload sid ip info cert files tx) q)
    (hp' : p' = q.handlePrepareUpload X sid ip info cert files tx) : Moves X p .event p' := by
  have htaken := taken_event hq
  obtain ⟨hunoffered, hunaborted⟩ := h.next_offer hq
  have hfresh := h.unaccepted hunoffered
  have haccepted : q.books.accepted = p.accepted := ht.ready.accepted
  have hlen : q.books.entries.length = p.attempts.length := by
    rw [ht.books]
    exact List.length_map _
  have hreceived := ht.ready.received
  have hoffered : (sid, files) ∈ offers (p.received ++ p.taken .event) := by
    rw [htaken]
    exact mem_offers.mpr ⟨ip, info, cert, tx, List.mem_append_right _ (List.mem_singleton_self _)⟩
  have haborted : .prepareUploadAborted sid ∉ p.received ++ p.taken .event := by
    rw [htaken]
    simpa using hunaborted
  have hstill : BooksMove p .event q.books := by
    rw [ht.books]
    refine .still fun sid' reason htaken' => ?_
    rw [htaken] at htaken'
    cases htaken'
  -- the request that was in hand is not the new one
  have hold : ∀ pending, q.app.pending = some pending →
      Waiting q pending ∧ pending.sessionId ∉ p.accepted.map Prod.fst ∧
        pending.sessionId ≠ sid := by
    intro pending hp
    rw [ht.app] at hp
    have hw := h.pending pending hp
    refine ⟨ht.waiting hw (by simp), hw.undecided, ?_⟩
    rintro rfl
    exact hunoffered _ hw.offered
  rcases handlePrepareUpload_cases ip info cert files (ht.offer rfl) hp' with
    hkeep | ⟨hauto, hheard, hstart⟩ | hhand
  · exact hkeep.rest ht.ready hstill haccepted (fun pending hp => (hold pending hp).1)
      (hkeep.attempts_same ht.ready ht.attempts hlen)
  · rw [ht.books] at hstart
    refine hstart.moves ht.ready ?_ ?_ ?_
      (hstart.attempts_same ht.ready ht.attempts (List.length_map _))
    · refine .start ?_ hfresh hoffered haborted ?_
      · simp only [Receiver.accepts, hq, Bool.and_eq_true]
        constructor
        · rw [Receiver.autoAccepts, ← ht.app]
          exact hauto
        · rw [Receiver.heard, ← ht.tasks]
          exact hheard
      · intro reason hm
        rw [htaken, List.mem_append] at hm
        rcases hm with hm | hm
        · exact h.not_ended hfresh reason (List.mem_append_left _ hm)
        · cases List.mem_singleton.mp hm
    · rw [Books.start, List.map_append]
      exact List.subset_append_left _ _
    · intro pending hp
      obtain ⟨hw, hund, hne⟩ := hold pending hp
      refine ⟨hw, ?_⟩
      rw [Books.start, List.map_append, List.mem_append]
      rintro (hm | hm)
      · exact hund hm
      · exact hne (List.mem_singleton.mp hm)
  · refine hhand.rest ht.ready hstill haccepted ?_
      (hhand.attempts_same ht.ready ht.attempts hlen)
    rintro pending ⟨⟩
    refine ⟨?_, ?_, ht.offer rfl, ?_⟩
    · rw [hreceived]
      exact hoffered
    · rw [ht.ready.accepted]
      exact hfresh
    · rw [hreceived]
      exact haborted

theorem current_eq_some {sid : String} {session : ReceiveSession}
    (h : p.current sid = some session) :
    p.app.receive = some session ∧ session.sessionId = sid := by
  obtain ⟨hs, hid⟩ := Option.filter_eq_some_iff.mp h
  exact ⟨hs, of_decide_eq_true hid⟩

/-- The handler of an event. -/
theorem Asked.event_moves (h : Asked X p) {event : ServerEventV2} {rest : List ServerEventV2}
    (hq : p.core.shared.events.queue = event :: rest)
    (hp' : (p.take X event).handleServerEvent X P event = some p') : Moves X p .event p' := by
  have ht := take_taken h hq
  have htaken := taken_event hq
  have hsame := ht.ready.accepted
  have hlen : (p.take X event).books.entries.length = p.attempts.length := by
    rw [ht.books]
    exact List.length_map _
  have hcurrent : ∀ sid, (p.take X event).current sid = p.current sid := by
    intro sid
    rw [Receiver.current, ht.app, Receiver.current]
  have hstill : (∀ sid reason, event = .sessionEnd sid reason → p.current sid = none) →
      BooksMove p .event (p.take X event).books := by
    intro hend
    rw [ht.books]
    refine .still fun sid reason htaken' => ?_
    rw [htaken] at htaken'
    exact hend sid reason (List.cons.inj htaken').1
  have hkept : (∀ sid, event ≠ .prepareUploadAborted sid) →
      ∀ pending, (p.take X event).app.pending = some pending →
        Waiting (p.take X event) pending := by
    intro hne pending hp
    rw [ht.app] at hp
    exact ht.waiting (h.pending pending hp) (hne pending.sessionId)
  cases event with
  | prepareUpload sid ip info cert files tx =>
      exact h.prepareUpload_moves hq ht (Option.some.inj hp').symm
  | fileUpload sid fid file tx =>
      rcases handleFileUpload_cases hp' with ⟨-, -, hkeep⟩ |
        ⟨session, path, hc, hattempts, hadd⟩
      · exact hkeep.rest ht.ready (hstill (by simp)) hsame (hkept (by simp))
          (hkeep.attempts_same ht.ready ht.attempts hlen)
      · rw [ht.books] at hadd
        rw [hcurrent] at hc
        refine hadd.rest ht.ready (.upload htaken hc) rfl (hkept (by simp)) ?_
        rw [hattempts, ht.attempts]
        have hevent : .fileUpload sid fid file tx ∈ p.core.shared.events.queue := by
          rw [hq]
          exact List.mem_cons_self
        exact .add ht.ready.label hevent
  | sessionEnd sid reason =>
      rcases handleSessionEnd_cases (X := X) (Option.some.inj hp').symm with
        ⟨hc, hkeep⟩ | ⟨session, hc, hend⟩
      · rw [hcurrent] at hc
        refine hkeep.rest ht.ready (hstill ?_) hsame (hkept (by simp))
          (hkeep.attempts_same ht.ready ht.attempts hlen)
        rintro _ _ ⟨⟩
        exact hc
      · rw [ht.books] at hend
        rw [hcurrent] at hc
        refine hend.rest ht.ready (.ended htaken hc) (Books.finish_accepted _) (hkept (by simp))
          (hend.attempts_same ht.ready ht.attempts ?_)
        rw [Books.ended, Books.finish_entries]
        exact List.length_map _
  | prepareUploadAborted sid =>
      rcases handleAborted_cases (Option.some.inj hp').symm with hdrop | ⟨hne, hkeep⟩
      · refine hdrop.rest ht.ready (hstill (by simp)) hsame ?_
          (hdrop.attempts_same ht.ready ht.attempts hlen)
        rintro pending ⟨⟩
      · refine hkeep.rest ht.ready (hstill (by simp)) hsame ?_
          (hkeep.attempts_same ht.ready ht.attempts hlen)
        intro pending hp
        have hsid := hne pending hp
        rw [ht.app] at hp
        refine ht.waiting (h.pending pending hp) ?_
        rintro ⟨⟩
        exact hsid rfl
  | register ip info =>
      obtain rfl := Option.some.inj hp'
      exact Keeps.refl.rest ht.ready (hstill (by simp)) hsame (hkept (by simp))
        (Keeps.refl.attempts_same ht.ready ht.attempts hlen)
  | cancelReceived ip sid =>
      obtain rfl := Option.some.inj hp'
      exact Keeps.refl.rest ht.ready (hstill (by simp)) hsame (hkept (by simp))
        (Keeps.refl.attempts_same ht.ready ht.attempts hlen)

/-- The handler of an answer. -/
theorem Asked.answer_moves (h : Asked X p) {answer : Answer}
    (hp' : p' = p.answerPending X answer) : Moves X p (.answer answer) p' := by
  have hstill : BooksMove p (.answer answer) p.books := .still (by simp [Receiver.taken])
  have hready : Ready X p (.answer answer) p :=
    h.ready rfl rfl rfl rfl (fun _ hl => by cases hl)
  have hreceived := hready.received
  cases hp : p.app.pending with
  | none =>
      have hsame : p' = p := by
        rw [hp', Receiver.answerPending, hp]
      rw [hsame]
      exact Keeps.refl.rest hready hstill rfl h.pending (.same hready.label)
  | some pending =>
      have hw := h.pending pending hp
      rcases answerPending_cases answer hp hw.named hp' with hrest | ⟨hne, hheard, hstart⟩
      · refine hrest.rest hready hstill rfl ?_
          (hrest.attempts_same hready rfl (List.length_map _))
        rintro pending' ⟨⟩
      · refine hstart.moves hready (.start ?_ hw.undecided ?_ ?_ ?_) ?_ ?_
          (hstart.attempts_same hready rfl (List.length_map _))
        · simp only [Receiver.accepts, hp, Bool.and_eq_true, decide_eq_true_eq]
          exact ⟨hne, hheard⟩
        · rw [← hreceived]
          exact hw.offered
        · rw [← hreceived]
          exact hw.aborted
        · intro reason hm
          rw [← hreceived] at hm
          exact h.not_ended hw.undecided reason (List.mem_append_left _ hm)
        · rw [Books.start, List.map_append]
          exact List.subset_append_left _ _
        · rintro pending' ⟨⟩

/-- The user cancels: the request in hand is declined, then the session is over. -/
theorem Asked.ctrlC_moves (h : Asked X p) (hp' : p' = p.handleCtrlC X) :
    Moves X p .ctrlC p' := by
  have hready : Ready X p .ctrlC p :=
    h.ready rfl rfl rfl rfl (fun _ hl => by cases hl)
  obtain ⟨hdecline, hnone⟩ : Handles X p (p.answerPending X .decline) p.books none ∧
      (p.answerPending X .decline).app.pending = none := by
    cases hp : p.app.pending with
    | none =>
        have hsame : p.answerPending X .decline = p := by
          rw [Receiver.answerPending, hp]
        rw [hsame]
        exact ⟨.of_core rfl rfl hp rfl fun _ => rfl, hp⟩
    | some pending =>
        rcases answerPending_cases .decline hp (h.pending pending hp).named rfl with
          hrest | ⟨hne, -⟩
        · exact ⟨hrest, hrest.pending⟩
        · exact absurd rfl hne
  rcases cancelReceive_cases hp' with ⟨-, hkeep⟩ | ⟨session, hs, hcancel⟩
  · have hall := hdecline.keep hkeep
    refine hall.rest hready (.still (by simp [Receiver.taken])) rfl ?_
      (hall.attempts_same hready rfl (List.length_map _))
    rintro pending ⟨⟩
  · rw [hdecline.books, hdecline.pending] at hcancel
    have hreceive : p.app.receive = some session := by
      rw [← hs]
      exact (congrArg Books.receive hdecline.books).symm
    have hall : Handles X p p' (p.books.cancel session) none :=
      hdecline.after hcancel (List.Subset.refl _)
    refine hall.rest hready (.cancel hreceive) rfl ?_
      (hall.attempts_same hready rfl (List.length_map _))
    rintro pending ⟨⟩

theorem Attempt.entry_follow (c c' : ServerPool) (l : ServerLabel) (a : Attempt) :
    (a.follow c c' l).entry = a.entry := by
  unfold Attempt.follow
  split
  · split
    · split_ifs <;> rfl
    · rfl
  · split
    · split_ifs <;> rfl
    · rfl
  · rfl

/-- The server goes on by itself. -/
theorem Asked.core_moves (h : Asked X p) {l : ServerLabel} {core : ServerPool}
    (hl : l.external = true) (hst : serverStep X p.core l = some core)
    (hp' : p' = { p with core, attempts := p.attempts.map (Attempt.follow p.core core l) }) :
    Moves X p (.core l) p' := by
  obtain ⟨new, hqueue, hserved⟩ := h.served.external hl hst
  have hbooks : p'.books = p.books := by
    rw [hp', Receiver.books, List.map_map]
    have hentry : Attempt.entry ∘ Attempt.follow p.core core l = Attempt.entry :=
      funext (Attempt.entry_follow p.core core l)
    rw [hentry]
    rfl
  subst hp'
  constructor
  case books =>
    rw [hbooks]
    exact .still (by simp [Receiver.taken])
  case attempts => exact .follow hst
  case server =>
    rintro m ⟨⟩
    exact ⟨hl, hst⟩
  case run => exact .single (.inl rfl) hst
  case served =>
    rw [hqueue, ← List.append_assoc]
    exact hserved
  case received => exact (List.append_nil _).symm
  case events => exact fun hne => absurd rfl (hne l)
  case pending =>
    intro pending hp
    obtain ⟨hoffered, hundecided, hnamed, haborted⟩ := h.pending pending hp
    exact ⟨hoffered, hundecided, hnamed.step (channelled_reach h.served.reach) hst, haborted⟩

/-- **Every step** is one of these moves. -/
theorem Asked.moves (h : Asked X p) (hst : receiverStep X P p l = some p') :
    Moves X p l p' := by
  have hstill : (p.taken l = []) → BooksMove p l p.books := by
    intro hnil
    exact .still (by simp [hnil])
  cases l with
  | core l =>
      simp only [receiverStep] at hst
      split_ifs at hst with hl
      obtain ⟨core, hcore, rfl⟩ := Option.map_eq_some_iff.mp hst
      exact h.core_moves (Bool.and_eq_true_iff.mp hl).1 hcore rfl
  | event =>
      simp only [receiverStep] at hst
      split at hst
      · cases hst
      · rename_i event rest hq
        exact h.event_moves hq hst
  | answer answer => exact h.answer_moves (Option.some.inj hst).symm
  | ctrlC => exact h.ctrlC_moves (Option.some.inj hst).symm
  | create k =>
      obtain ⟨a, ha, hst⟩ := Option.bind_eq_some_iff.mp hst
      split_ifs at hst
      obtain rfl := Option.some.inj hst
      -- the entry of the upload says nothing of its file
      have hentries : (p.attempts.set k { a with file := .created }).map Attempt.entry =
          p.attempts.map Attempt.entry := map_set_same _ ha rfl
      have hbooks : (p.setAttempt k { a with file := .created }).books = p.books :=
        congrArg (fun entries => { p.books with entries }) hentries
      have hready : Ready X p (.create k) (p.setAttempt k { a with file := .created }) :=
        h.ready rfl rfl rfl rfl (fun _ hl => by cases hl)
      refine Handles.rest (q := p.setAttempt k { a with file := .created })
        (.of_core rfl hbooks rfl rfl fun _ => rfl) hready (hstill rfl) rfl ?_ (.create ha)
      exact fun pending hp => (h.pending pending hp).congr rfl rfl rfl
  | result k err =>
      obtain ⟨a, ha, hst⟩ := Option.bind_eq_some_iff.mp hst
      split_ifs at hst with hsome
      obtain ⟨result, hresult, rfl⟩ := Option.map_eq_some_iff.mp hst
      have hnone := Option.not_isSome_iff_eq_none.mp hsome
      have hentry : p.books.entries[k]? = some a.entry := by
        rw [show p.books.entries = p.attempts.map Attempt.entry from rfl, List.getElem?_map, ha]
        rfl
      have hready : Ready X p (.result k err)
          (p.setAttempt k { a with result := some result }) :=
        h.ready rfl rfl rfl rfl (fun _ hl => by cases hl)
      have hhandles := receiveFileResult_handles (X := X) (p := p) (k := k) (a := a) result
      refine hhandles.rest hready (.result hentry hnone) (Books.result_accepted _ _ _ _) ?_ ?_
      · exact fun pending hp => (h.pending pending hp).congr rfl rfl rfl
      · rw [hhandles.attempts ?_]
        · exact .result ha hnone hresult
        · rw [Books.result_length]
          simp [Receiver.setAttempt, Receiver.books]
  | disk content =>
      obtain rfl := Option.some.inj hst
      have hready : Ready X p (.disk content) p :=
    h.ready rfl rfl rfl rfl (fun _ hl => by cases hl)
      exact Handles.rest (q := p) (.of_core rfl rfl rfl rfl fun _ => rfl) hready (hstill rfl) rfl
        h.pending (.same hready.label)

/-! ## §5  Requests and sessions -/

theorem Recorded.finish {received : List ServerEventV2} (h : Recorded b received) :
    Recorded b.finish received where
  offered := by rw [Books.finish_accepted]; exact h.offered
  once := by rw [Books.finish_accepted]; exact h.once
  receive session hs := by rw [Books.finish_accepted]; exact h.receive session (b.finish_receive hs)
  entries := by rw [Books.finish_entries, Books.finish_accepted]; exact h.entries
  uploads := by rw [Books.finish_entries]; exact h.uploads

/-- More events were taken. -/
theorem Recorded.append {received : List ServerEventV2} (h : Recorded b received)
    (new : List ServerEventV2) : Recorded b (received ++ new) where
  offered := by
    rw [offers_append]
    exact fun _ hm => List.mem_append_left _ (h.offered hm)
  once := h.once
  receive := h.receive
  entries := h.entries
  uploads := by
    rw [List.filterMap_append]
    exact h.uploads.trans (List.sublist_append_left _ _)

/-- Another session of the same request is current, or none. -/
theorem Recorded.update {received : List ServerEventV2} (h : Recorded b received)
    {receive : Option ReceiveSession}
    (hreceive : ∀ session, receive = some session → ∃ session₀, b.receive = some session₀ ∧
      session.sessionId = session₀.sessionId ∧ session.files = session₀.files) :
    Recorded { b with receive } received where
  offered := h.offered
  once := h.once
  receive session hs := by
    obtain ⟨session₀, hs₀, hid, hfiles⟩ := hreceive session hs
    rw [hid, hfiles]
    exact h.receive session₀ hs₀
  entries := h.entries
  uploads := h.uploads

theorem ReceiveSession.settle_same (session : ReceiveSession) (fid : String)
    (result : Except String Unit) : (session.settle fid result).sessionId = session.sessionId ∧
      (session.settle fid result).files = session.files ∧
      (session.settle fid result).ended = session.ended ∧
      (session.settle fid result).inProgress = session.inProgress.filter (· ≠ fid) := by
  cases result with
  | ok => exact ⟨rfl, rfl, rfl, rfl⟩
  | error err => exact ⟨rfl, rfl, rfl, rfl⟩

theorem Recorded.upload {received : List ServerEventV2} (h : Recorded b received)
    {session : ReceiveSession} {fid path : String} {file : FileDto} {tx : ℕ}
    (hs : b.receive = some session) :
    Recorded (b.upload session fid path)
      (received ++ [.fileUpload session.sessionId fid file tx]) := by
  have hall : Recorded { b with
      receive := some { session with inProgress := session.inProgress.insert fid } }
      (received ++ [.fileUpload session.sessionId fid file tx]) := by
    refine (h.append _).update ?_
    rintro _ ⟨⟩
    exact ⟨session, hs, rfl, rfl⟩
  refine { hall with entries := ?_, uploads := ?_ }
  · intro e he
    rcases List.mem_append.mp he with he | he
    · exact h.entries e he
    · obtain rfl := List.mem_singleton.mp he
      exact List.mem_map_of_mem (h.receive session hs)
  · rw [Books.upload, List.map_append, List.filterMap_append]
    exact h.uploads.append (List.Sublist.refl _)

theorem Recorded.result {received : List ServerEventV2} (h : Recorded b received) {k : ℕ}
    {e : Entry} (he : b.entries[k]? = some e) (result : Except String Unit) :
    Recorded (b.result k e result) received := by
  have hkey : (b.entries.set k (e.settle result)).map Entry.key = b.entries.map Entry.key :=
    map_set_same _ he rfl
  have hset : Recorded { b with entries := b.entries.set k (e.settle result) } received := by
    refine ⟨h.offered, h.once, h.receive, ?_, ?_⟩
    · intro e' he'
      rcases List.mem_or_eq_of_mem_set he' with he' | rfl
      · exact h.entries e' he'
      · exact h.entries e (List.mem_of_getElem? he)
    · rw [hkey]
      exact h.uploads
  unfold Books.result
  split
  · exact hset
  · rename_i session hcurrent
    obtain ⟨hs, -⟩ := Option.filter_eq_some_iff.mp hcurrent
    obtain ⟨hid, hfiles, -⟩ := session.settle_same e.fileId result
    have hupdate : Recorded { b with
        receive := some (session.settle e.fileId result)
        entries := b.entries.set k (e.settle result) } received := by
      refine hset.update ?_
      rintro _ ⟨⟩
      exact ⟨session, hs, hid, hfiles⟩
    exact Recorded.finish ⟨hupdate.offered, hupdate.once, hupdate.receive, hupdate.entries,
      hupdate.uploads⟩

theorem BooksMove.recorded (hm : BooksMove p l b) (h : Recorded p.books p.received) :
    Recorded b (p.received ++ p.taken l) := by
  have happ := h.append (p.taken l)
  cases hm with
  | still => exact happ
  | start _ hnew hoffered =>
      refine ⟨?_, ?_, ?_, ?_, happ.uploads⟩
      · refine List.append_subset.mpr ⟨happ.offered, ?_⟩
        exact List.cons_subset.mpr ⟨hoffered, List.nil_subset _⟩
      · rw [Books.start, List.map_append]
        exact List.nodup_append_comm.mp (List.nodup_cons.mpr ⟨hnew, h.once⟩)
      · rintro _ ⟨⟩
        exact List.mem_append_right _ (List.mem_singleton_self _)
      · intro e he
        rw [Books.start, List.map_append]
        exact List.mem_append_left _ (h.entries e he)
  | upload htaken hcurrent =>
      obtain ⟨hs, rfl⟩ := current_eq_some hcurrent
      rw [htaken]
      exact h.upload hs
  | ended _ hcurrent =>
      obtain ⟨hs, rfl⟩ := current_eq_some hcurrent
      refine Recorded.finish (happ.update ?_)
      rintro _ ⟨⟩
      exact ⟨_, hs, rfl, rfl⟩
  | result he => exact happ.result he _
  | cancel =>
      have hnone : Recorded { p.books with receive := none } (p.received ++ p.taken .ctrlC) :=
        happ.update (fun _ hs => by cases hs)
      exact ⟨hnone.offered, hnone.once, hnone.receive, hnone.entries, hnone.uploads⟩

theorem Asked.step (h : Asked X p) (hm : Moves X p l p') : Asked X p' where
  served := hm.served
  recorded := by
    rw [hm.received]
    exact hm.books.recorded h.recorded
  pending := hm.pending

theorem Asked.init (destination : String) (paired : List String) (web : Option WebMode)
    (directory : List String) : Asked X (.init destination paired web directory) where
  served := .init
  recorded := by
    refine ⟨List.nil_subset _, List.nodup_nil, ?_, ?_, .slnil⟩
    · rintro _ ⟨⟩
    · intro e he
      cases he
  pending := by rintro _ ⟨⟩

end Moves

end Cli

end FireBoxTransfer

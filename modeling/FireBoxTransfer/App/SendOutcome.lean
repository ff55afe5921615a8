import FireBoxTransfer.App.SendSession
import Mathlib.Algebra.Order.BigOperators.Group.List
import Mathlib.Algebra.Order.Group.Nat

/-!
# How a send session ends

A session has a main loop, which sends the files the receiver has selected, and a loop for
every file that is tried again, also while the main loop is still running. When a loop comes
to its end it decides the status of the session from the statuses of the files: a retry only
when all of them are settled, the main loop at once.
-/

namespace FireBoxTransfer

open Runs

/-! ## §1  The loops -/

inductive LoopPoint where
  | uploading
  /-- `_sendFiles` has returned. -/
  | returning
  | ended
deriving DecidableEq

/-- A call of `_sendFiles`, with the files of its task that are not started and those that
are being sent. -/
structure SendLoop where
  isRetry : Bool
  taskId : ℕ
  files : List HttpUploadFile
  waiting : List String
  running : List String
  cancelled : Bool
  point : LoopPoint
deriving DecidableEq

structure SendState where
  provider : SendProvider
  loops : List SendLoop
  /-- The session and its files, when a loop closes it as successful. -/
  closedWith : Option (SendSessionState × AssocMap String FileStatus)

inductive SendAct where
  | event (i : ℕ) (event : HttpUploadEvent)
  | taskFailed (i : ℕ)
  | taskDone (i : ℕ)
  /-- A loop goes on after its upload. -/
  | finish (i : ℕ)
  | retry (key : String)
  | setBackground (background : Bool)
  | cancelByReceiver
  | cancel
  | close
  | clearAll
deriving DecidableEq

/-- The isolate reports a file as started, then as finished or failed. -/
def SendLoop.receive (loop : SendLoop) : HttpUploadEvent → Option SendLoop
  | .started id =>
      if loop.point = .uploading ∧ id ∈ loop.waiting then
        some { loop with waiting := loop.waiting.erase id, running := loop.running ++ [id] }
      else none
  | .progress id => if loop.point = .uploading ∧ id ∈ loop.running then some loop else none
  | .finished id | .failed id =>
      if loop.point = .uploading ∧ id ∈ loop.running then
        some { loop with running := loop.running.erase id }
      else none

/-- The statuses in which `sendFile` sends a file again. -/
def SessionStatus.allowsRetry : SessionStatus → Bool
  | .sending | .finishedWithErrors => true
  | _ => false

namespace SendProvider

variable (p : SendProvider) (sessionId : String)

/-- `_sendFiles`, up to the first event. -/
def sendFiles (isRetry : Bool) (taskId : ℕ) (files : List SendingFile) :
    SendProvider × SendLoop :=
  let loop : SendLoop := ⟨isRetry, taskId, uploadFiles files, [], [], false, .returning⟩
  match p.state.get? sessionId with
  | none => (p, loop)
  | some _ =>
      if (uploadFiles files).isEmpty then (p, loop)
      else
        (p.updateSession sessionId fun s => { s with sendingTasks := s.sendingTasks ++ [taskId] },
          { loop with
            waiting := (uploadFiles files).map HttpUploadFile.fileId
            point := .uploading })

/-- The end of a loop: a retry looks at all files before it decides. -/
def leave (isRetry : Bool) : SendProvider :=
  if isRetry && !((p.state.get? sessionId).isSome &&
      (p.transfers.getStatuses sessionId).all FileStatus.settled) then p
  else p.finish sessionId

end SendProvider

/-- The upload tasks of the session are cancelled. -/
def cancelTasks (tasks : List ℕ) (loops : List SendLoop) : List SendLoop :=
  loops.map fun loop => { loop with cancelled := loop.cancelled || tasks.contains loop.taskId }

/-- `_sendLoop`, up to the first event. -/
def SendState.init (p : SendProvider) (sessionId : String)
    (requestFiles : AssocMap String SendingFile) (fileMap : AssocMap String String) : SendState :=
  let (p, sendingFiles) := p.beginUpload sessionId requestFiles fileMap
  let (p, loop) := p.sendFiles sessionId false 0 sendingFiles.values
  ⟨p, [loop], none⟩

def sendStep (sessionId : String) (s : SendState) : SendAct → Option SendState
  | .event i event =>
      (s.loops[i]?).bind fun loop => (loop.receive event).map fun loop' =>
        { s with
          provider := s.provider.onEvent sessionId event
          loops := s.loops.set i loop' }
  | .taskFailed i =>
      match s.loops[i]? with
      | some loop =>
          if loop.point = .uploading then
            some { s with
              provider := (s.provider.onTaskFailed sessionId loop.files).removeTask sessionId
                loop.taskId
              loops := s.loops.set i
                { loop with waiting := [], running := [], point := .returning } }
          else none
      | none => none
  | .taskDone i =>
      match s.loops[i]? with
      | some loop =>
          -- only a cancelled task leaves files out
          if loop.point = .uploading ∧ loop.running = [] ∧
              (loop.waiting = [] ∨ loop.cancelled = true) then
            some { s with
              provider := s.provider.removeTask sessionId loop.taskId
              loops := s.loops.set i { loop with point := .returning } }
          else none
      | none => none
  | .finish i =>
      match s.loops[i]? with
      | some loop =>
          if loop.point = .returning then
            let provider := s.provider.leave sessionId loop.isRetry
            some
              { provider
                loops := s.loops.set i { loop with point := .ended }
                closedWith :=
                  match s.provider.state.get? sessionId, provider.state.get? sessionId with
                  | some session, none =>
                      some (session, s.provider.transfers.ofSession sessionId)
                  | _, _ => s.closedWith }
          else none
      | none => none
  | .retry key =>
      match s.provider.state.get? sessionId with
      | some session =>
          match session.files.get? key with
          | some file =>
              if file.token.isSome && session.status.allowsRetry then
                let p := { s.provider with
                  transfers := s.provider.transfers.setStatus sessionId file.file.id .queue }
                let (p, loop) := (p.setStatus sessionId .sending).sendFiles sessionId true
                  s.loops.length [file]
                some { s with provider := p, loops := s.loops ++ [loop] }
              else none
          | none => none
      | none => none
  | .setBackground background =>
      some { s with
        provider := s.provider.updateSession sessionId fun session => { session with background } }
  | .cancelByReceiver =>
      some { s with
        provider := s.provider.cancelSessionByReceiver sessionId
        loops := match s.provider.state.get? sessionId with
          | some session => cancelTasks session.sendingTasks s.loops
          | none => s.loops }
  | .cancel =>
      some { s with
        provider := s.provider.cancelSession sessionId
        loops := match s.provider.state.get? sessionId with
          | some session => cancelTasks session.sendingTasks s.loops
          | none => s.loops }
  | .close => some { s with provider := s.provider.closeSession sessionId }
  | .clearAll => some { s with provider := s.provider.clearAllSessions }

/-! ## §2  The outcome -/

section Outcome

/-- Every file the receiver has selected is finished or failed. -/
def AllEnded (session : SendSessionState) (statuses : AssocMap String FileStatus) : Prop :=
  ∀ key file, session.files.get? key = some file → file.token.isSome = true →
    statuses.get? file.file.id = some .finished ∨ statuses.get? file.file.id = some .failed

def NoneFailed (statuses : AssocMap String FileStatus) : Prop :=
  ∀ id, statuses.get? id ≠ some .failed

/-- **The outcome of a session** is told only when every file has come to its end, it tells
whether one has failed, and there is one when no loop is left. -/
structure OutcomeOk (sessionId : String) (s : SendState) : Prop where
  finished : ∀ session, s.provider.state.get? sessionId = some session →
    session.status = .finished →
      AllEnded session (s.provider.transfers.ofSession sessionId) ∧
        NoneFailed (s.provider.transfers.ofSession sessionId)
  finishedWithErrors : ∀ session, s.provider.state.get? sessionId = some session →
    session.status = .finishedWithErrors →
      AllEnded session (s.provider.transfers.ofSession sessionId) ∧
        ¬ NoneFailed (s.provider.transfers.ofSession sessionId)
  closed : ∀ session statuses, s.closedWith = some (session, statuses) →
    AllEnded session statuses ∧ NoneFailed statuses
  corrected : (∀ loop ∈ s.loops, loop.point = .ended) →
    ∀ session, s.provider.state.get? sessionId = some session → session.status ≠ .sending

/-- All files are settled when the main loop decides; only a file that is settled is tried
again; and a task that fails as a whole marks only files it is sending itself. -/
def DecidesInTime (sessionId : String) (s : SendState) : SendAct → Prop
  | .finish i => ∀ loop ∈ s.loops[i]?, loop.isRetry = false →
      ∀ session ∈ s.provider.state.get? sessionId, session.status = .sending →
        (s.provider.transfers.getStatuses sessionId).all FileStatus.settled = true
  | .retry key => ∀ session ∈ s.provider.state.get? sessionId, ∀ file ∈ session.files.get? key,
      (s.provider.transfers.getStatus sessionId file.file.id).settled = true
  | .taskFailed i => ∀ loop ∈ s.loops[i]?, ∀ file ∈ loop.files,
      (s.provider.transfers.getStatus sessionId file.fileId).settled = false →
        file.fileId ∈ loop.waiting ++ loop.running
  | _ => True

instance DecidesInTime.decidable (sessionId : String) (s : SendState) :
    ∀ a, Decidable (DecidesInTime sessionId s a)
  | .finish i => inferInstanceAs (Decidable (∀ loop ∈ s.loops[i]?, loop.isRetry = false →
      ∀ session ∈ s.provider.state.get? sessionId, session.status = .sending →
        (s.provider.transfers.getStatuses sessionId).all FileStatus.settled = true))
  | .retry key => inferInstanceAs (Decidable (∀ session ∈ s.provider.state.get? sessionId,
      ∀ file ∈ session.files.get? key,
        (s.provider.transfers.getStatus sessionId file.file.id).settled = true))
  | .taskFailed i => inferInstanceAs (Decidable (∀ loop ∈ s.loops[i]?, ∀ file ∈ loop.files,
      (s.provider.transfers.getStatus sessionId file.fileId).settled = false →
        file.fileId ∈ loop.waiting ++ loop.running))
  | .event .. | .taskDone _ | .setBackground _ | .cancelByReceiver | .cancel | .close
  | .clearAll => .isTrue trivial

end Outcome

/-! ## §3  What holds of a session -/

/-- How often a loop has yet to settle a file. -/
def SendLoop.count (loop : SendLoop) (id : String) : ℕ :=
  loop.waiting.count id + loop.running.count id

/-- How often the loops together have yet to settle a file. -/
def unsettledBy (loops : List SendLoop) (id : String) : ℕ :=
  (loops.map fun loop => loop.count id).sum

/-- A file that is not settled is to be settled by one loop. -/
def expected (status : Option FileStatus) : ℕ :=
  if status.any fun status => !status.settled then 1 else 0

def AllSettled (statuses : AssocMap String FileStatus) : Prop :=
  ∀ id status, statuses.get? id = some status → status.settled = true

structure LoopOk (loop : SendLoop) : Prop where
  idle : loop.point ≠ .uploading →
    loop.cancelled = true ∨ loop.waiting = [] ∧ loop.running = []
  own : ∀ id, 0 < loop.count id → ∃ file ∈ loop.files, file.fileId = id

/-- A session that was not cancelled, its files and its loops. -/
structure Live (session : SendSessionState) (statuses : AssocMap String FileStatus)
    (loops : List SendLoop) : Prop where
  tracked : ∀ id, unsettledBy loops id = expected (statuses.get? id)
  uncancelled : ∀ loop ∈ loops, loop.cancelled = false
  selected : ∀ key file, session.files.get? key = some file → file.token.isSome = true →
    ∃ status, statuses.get? file.file.id = some status ∧ status ≠ .skipped
  sending : session.status = .sending → ∃ loop ∈ loops, loop.point ≠ .ended
  decided : session.status ≠ .sending → AllSettled statuses ∧
    (session.status = .finished ∧ NoneFailed statuses ∨
      session.status = .finishedWithErrors ∧ ¬ NoneFailed statuses)

structure SendOk (sessionId : String) (s : SendState) : Prop where
  loops : ∀ loop ∈ s.loops, LoopOk loop
  closed : ∀ session statuses, s.closedWith = some (session, statuses) →
    AllEnded session statuses ∧ NoneFailed statuses
  live : ∀ session, s.provider.state.get? sessionId = some session →
    session.status ≠ .canceledByReceiver →
      Live session (s.provider.transfers.ofSession sessionId) s.loops

section Session

variable {sessionId : String} {s t : SendState} {session session' : SendSessionState}
  {statuses : AssocMap String FileStatus} {loops : List SendLoop} {loop : SendLoop} {id : String}

theorem all_settled_iff {t : FileTransfers} :
    (t.getStatuses sessionId).all FileStatus.settled = true ↔
      AllSettled (t.ofSession sessionId) := by
  rw [List.all_eq_true]
  constructor
  · intro h id status hstatus
    exact h status (AssocMap.mem_values_iff.mpr ⟨id, hstatus⟩)
  · intro h status hstatus
    obtain ⟨id, hid⟩ := AssocMap.mem_values_iff.mp hstatus
    exact h id status hid

theorem any_failed_iff {t : FileTransfers} :
    (t.getStatuses sessionId).any (fun status => status = .failed) = true ↔
      ¬ NoneFailed (t.ofSession sessionId) := by
  rw [List.any_eq_true]
  constructor
  · rintro ⟨status, hstatus, hfailed⟩ hnone
    obtain ⟨id, hid⟩ := AssocMap.mem_values_iff.mp hstatus
    rw [of_decide_eq_true hfailed] at hid
    exact hnone id hid
  · intro h
    by_contra hnot
    refine h fun id hid => hnot ?_
    exact ⟨.failed, AssocMap.mem_values_iff.mpr ⟨id, hid⟩, rfl⟩

/-- With every file settled, the selected ones have come to their end. -/
theorem Live.allEnded (h : Live session statuses loops) (hsettled : AllSettled statuses) :
    AllEnded session statuses := by
  intro key file hfile htoken
  obtain ⟨status, hstatus, hskipped⟩ := h.selected key file hfile htoken
  have hstatus' := hsettled _ _ hstatus
  cases status with
  | finished => exact .inl hstatus
  | failed => exact .inr hstatus
  | skipped => exact (hskipped rfl).elim
  | queue => cases hstatus'
  | sending => cases hstatus'

theorem SendOk.outcome (h : SendOk sessionId s) : OutcomeOk sessionId s := by
  constructor
  · intro session hsession hfinished
    have hlive := h.live session hsession (by rw [hfinished]; nofun)
    obtain ⟨hsettled, ⟨-, hnone⟩ | ⟨herrors, -⟩⟩ := hlive.decided (by rw [hfinished]; nofun)
    · exact ⟨hlive.allEnded hsettled, hnone⟩
    · rw [hfinished] at herrors
      cases herrors
  · intro session hsession herrors
    have hlive := h.live session hsession (by rw [herrors]; nofun)
    obtain ⟨hsettled, ⟨hfinished, -⟩ | ⟨-, hsome⟩⟩ := hlive.decided (by rw [herrors]; nofun)
    · rw [herrors] at hfinished
      cases hfinished
    · exact ⟨hlive.allEnded hsettled, hsome⟩
  · exact h.closed
  · intro hended session hsession hsending
    have hlive := h.live session hsession (by rw [hsending]; nofun)
    obtain ⟨loop, hmem, hopen⟩ := hlive.sending hsending
    exact hopen (hended loop hmem)

/-- What a loop has yet to settle is not settled, and so the session is still sending. -/
theorem Live.unsettled (h : Live session statuses loops) (hmem : loop ∈ loops)
    (hcount : 0 < loop.count id) :
    session.status = .sending ∧ unsettledBy loops id = 1 ∧
      ∃ status, statuses.get? id = some status ∧ status.settled = false := by
  have hle : loop.count id ≤ unsettledBy loops id :=
    List.le_sum_of_mem (List.mem_map_of_mem (f := fun loop => loop.count id) hmem)
  have htracked := h.tracked id
  unfold expected at htracked
  split_ifs at htracked with hany
  · obtain ⟨status, hstatus, hopen⟩ := (Option.any_eq_true _ _).mp hany
    have hopen : status.settled = false := (Bool.not_eq_true' _).mp hopen
    refine ⟨?_, htracked, status, hstatus, hopen⟩
    by_contra hsending
    rw [(h.decided hsending).1 id status hstatus] at hopen
    cases hopen
  · omega

/-- The same session, but for what no loop looks at. -/
theorem Live.congr (h : Live session statuses loops) (hstatus : session'.status = session.status)
    (hfiles : session'.files = session.files) : Live session' statuses loops := by
  constructor
  · exact h.tracked
  · exact h.uncancelled
  · rw [hfiles]
    exact h.selected
  · rw [hstatus]
    exact h.sending
  · rw [hstatus]
    exact h.decided

theorem unsettledBy_set {i : ℕ} (loop' : SendLoop) (hloop : loops[i]? = some loop) (id : String) :
    unsettledBy (loops.set i loop') id + loop.count id = unsettledBy loops id + loop'.count id :=
  TaskPool.sum_map_set (fun loop => loop.count id) loop' hloop

end Session

/-! ## §4  The events -/

/-- The file an event is about, and whether it is the last one about it. -/
def HttpUploadEvent.fileId : HttpUploadEvent → String
  | .started id | .progress id | .finished id | .failed id => id

def HttpUploadEvent.closes : HttpUploadEvent → Bool
  | .finished _ | .failed _ => true
  | _ => false

/-- The status an event gives a file. -/
def HttpUploadEvent.status (old : FileStatus) : HttpUploadEvent → FileStatus
  | .started _ => .sending
  | .progress _ => old
  | .finished _ => .finished
  | .failed _ => .failed

theorem settled_status {old : FileStatus} (hold : old.settled = false) (event : HttpUploadEvent) :
    (event.status old).settled = event.closes ∧ event.status old ≠ .skipped := by
  cases event with
  | progress id =>
      refine ⟨hold, ?_⟩
      rintro (rfl : old = .skipped)
      cases hold
  | started id => exact ⟨rfl, nofun⟩
  | finished id => exact ⟨rfl, nofun⟩
  | failed id => exact ⟨rfl, nofun⟩

section Events

variable {sessionId : String} {s t : SendState} {session : SendSessionState}
  {statuses : AssocMap String FileStatus} {loops : List SendLoop} {loop loop' : SendLoop}
  {event : HttpUploadEvent} {p : SendProvider}

theorem onEvent_state (p : SendProvider) (sessionId : String) (event : HttpUploadEvent) :
    (p.onEvent sessionId event).state = p.state := by
  cases event <;> rfl

theorem onEvent_statuses {old : FileStatus} (id : String)
    (hold : (p.transfers.ofSession sessionId).get? event.fileId = some old) :
    ((p.onEvent sessionId event).transfers.ofSession sessionId).get? id =
      if id = event.fileId then some (event.status old)
      else (p.transfers.ofSession sessionId).get? id := by
  cases event with
  | started fileId =>
      show ((p.transfers.setStatus _ _ _).ofSession sessionId).get? id = _
      rw [FileTransfers.ofSession_setStatus, AssocMap.get?_insert]
      rfl
  | progress fileId =>
      have hold : (p.transfers.ofSession sessionId).get? fileId = some old := hold
      show ((p.transfers.setProgress _ _).ofSession sessionId).get? id =
        if id = fileId then some old else _
      rw [FileTransfers.setProgress_of_known hold]
      by_cases hid : id = fileId
      · rw [hid, if_pos rfl, hold]
      · rw [if_neg hid]
  | finished fileId =>
      have hold : (p.transfers.ofSession sessionId).get? fileId = some old := hold
      show (((p.transfers.setProgress _ _).setStatus _ _ _).ofSession sessionId).get? id = _
      rw [FileTransfers.setProgress_of_known hold, FileTransfers.ofSession_setStatus,
        AssocMap.get?_insert]
      rfl
  | failed fileId =>
      show ((p.transfers.setStatus _ _ _).ofSession sessionId).get? id = _
      rw [FileTransfers.ofSession_setStatus, AssocMap.get?_insert]
      rfl

theorem count_erase_running {fileId : String} (hcount : 0 < loop.running.count fileId)
    (id : String) :
    SendLoop.count { loop with running := loop.running.erase fileId } id +
      (if id = fileId ∧ true = true then 1 else 0) = loop.count id := by
  simp only [SendLoop.count, List.count_erase]
  by_cases hid : id = fileId
  · subst hid
    simp
    omega
  · simp [hid, Ne.symm hid]

/-- **An event** is about a file the loop has yet to settle, and settles it if it is the last
one. -/
theorem receive_cases (h : loop.receive event = some loop') :
    loop.point = .uploading ∧ loop'.point = .uploading ∧ loop'.files = loop.files ∧
      loop'.cancelled = loop.cancelled ∧ 0 < loop.count event.fileId ∧
      ∀ id, loop'.count id + (if id = event.fileId ∧ event.closes = true then 1 else 0) =
        loop.count id := by
  cases event with
  | started fileId =>
      simp only [SendLoop.receive, Option.ite_none_right_eq_some, Option.some.injEq] at h
      obtain ⟨⟨hpoint, hmem⟩, rfl⟩ := h
      have hcount := List.count_pos_iff.mpr hmem
      refine ⟨hpoint, hpoint, rfl, rfl, Nat.add_pos_left hcount _, fun id => ?_⟩
      simp only [SendLoop.count, List.count_append, List.count_erase, List.count_singleton,
        HttpUploadEvent.closes]
      by_cases hid : fileId = id
      · subst hid
        simp
        omega
      · simp [hid]
  | progress fileId =>
      simp only [SendLoop.receive, Option.ite_none_right_eq_some, Option.some.injEq] at h
      obtain ⟨⟨hpoint, hmem⟩, rfl⟩ := h
      have hcount := List.count_pos_iff.mpr hmem
      refine ⟨hpoint, hpoint, rfl, rfl, Nat.add_pos_right _ hcount, fun id => ?_⟩
      simp [HttpUploadEvent.closes]
  | finished fileId =>
      simp only [SendLoop.receive, Option.ite_none_right_eq_some, Option.some.injEq] at h
      obtain ⟨⟨hpoint, hmem⟩, rfl⟩ := h
      have hcount := List.count_pos_iff.mpr hmem
      refine ⟨hpoint, hpoint, rfl, rfl, Nat.add_pos_right _ hcount, fun id => ?_⟩
      exact count_erase_running hcount id
  | failed fileId =>
      simp only [SendLoop.receive, Option.ite_none_right_eq_some, Option.some.injEq] at h
      obtain ⟨⟨hpoint, hmem⟩, rfl⟩ := h
      have hcount := List.count_pos_iff.mpr hmem
      refine ⟨hpoint, hpoint, rfl, rfl, Nat.add_pos_right _ hcount, fun id => ?_⟩
      exact count_erase_running hcount id

theorem expected_some (status : FileStatus) :
    expected (some status) = if status.settled = true then 0 else 1 := by
  cases status <;> rfl

theorem forall_mem_set {P : SendLoop → Prop} {i : ℕ} (h : ∀ other ∈ loops, P other)
    (hloop' : P loop') : ∀ other ∈ loops.set i loop', P other := by
  intro other hother
  rcases List.mem_or_eq_of_mem_set hother with hother | rfl
  · exact h other hother
  · exact hloop'

theorem SendOk.receive {i : ℕ} (h : SendOk sessionId s)
    (hstep : sendStep sessionId s (.event i event) = some t) : SendOk sessionId t := by
  obtain ⟨loop, hloop, hstep⟩ := Option.bind_eq_some_iff.mp hstep
  obtain ⟨loop', hreceive, rfl⟩ := Option.map_eq_some_iff.mp hstep
  obtain ⟨hpoint, hpoint', hfiles, hcancelled, hcount, hcounts⟩ := receive_cases hreceive
  have hlt := (List.getElem?_eq_some_iff.mp hloop).1
  have hmem := List.mem_of_getElem? hloop
  constructor
  · refine forall_mem_set h.loops ⟨fun hidle => (hidle hpoint').elim, fun id hid => ?_⟩
    rw [hfiles]
    have hsame := hcounts id
    exact (h.loops loop hmem).own id (by omega)
  · exact h.closed
  · intro session hsession hstatus
    rw [onEvent_state] at hsession
    have hlive := h.live session hsession hstatus
    obtain ⟨hsending, -, old, hold, hopen⟩ := hlive.unsettled hmem hcount
    obtain ⟨hsettled, hskipped⟩ := settled_status hopen event
    constructor
    · intro id
      have hset := unsettledBy_set loop' hloop id
      have hsame := hcounts id
      have htracked := hlive.tracked id
      show unsettledBy (s.loops.set i loop') id = _
      rw [onEvent_statuses id hold]
      by_cases hid : id = event.fileId
      · rw [if_pos hid, expected_some, hsettled]
        rw [hid, hold, expected_some, hopen] at htracked
        rw [hid] at hset hsame ⊢
        cases hcloses : event.closes with
        | true =>
            rw [hcloses, if_pos ⟨rfl, rfl⟩] at hsame
            simp only [Bool.false_eq_true, if_false, if_true] at htracked ⊢
            omega
        | false =>
            rw [hcloses, if_neg (by simp)] at hsame
            simp only [Bool.false_eq_true, if_false] at htracked ⊢
            omega
      · rw [if_neg hid, ← htracked]
        rw [if_neg fun hboth => hid hboth.1] at hsame
        omega
    · exact forall_mem_set hlive.uncancelled (hcancelled.trans (hlive.uncancelled loop hmem))
    · intro key file hfile htoken
      rw [onEvent_statuses _ hold]
      by_cases hid : file.file.id = event.fileId
      · exact ⟨_, if_pos hid, hskipped⟩
      · rw [if_neg hid]
        exact hlive.selected key file hfile htoken
    · exact fun _ => ⟨loop', List.mem_set hlt _, by rw [hpoint']; nofun⟩
    · exact fun hnot => (hnot hsending).elim

end Events

/-! ## §5  The ends of a task -/

section Tasks

variable {sessionId : String} {s t : SendState} {session : SendSessionState}
  {loop : SendLoop} {p : SendProvider}

theorem updateSession_get? (p : SendProvider) (sessionId : String)
    (f : SendSessionState → SendSessionState) :
    (p.updateSession sessionId f).state.get? sessionId = (p.state.get? sessionId).map f := by
  unfold SendProvider.updateSession
  cases hsession : p.state.get? sessionId with
  | none => simpa using hsession
  | some session => exact AssocMap.get?_insert_self

theorem updateSession_transfers (p : SendProvider) (sessionId : String)
    (f : SendSessionState → SendSessionState) :
    (p.updateSession sessionId f).transfers = p.transfers := by
  unfold SendProvider.updateSession
  cases p.state.get? sessionId <;> rfl

theorem exists_of_updateSession {f : SendSessionState → SendSessionState}
    (h : (p.updateSession sessionId f).state.get? sessionId = some session) :
    ∃ before, p.state.get? sessionId = some before ∧ f before = session := by
  rw [updateSession_get?] at h
  exact Option.map_eq_some_iff.mp h

theorem count_of_idle {id : String} (hwaiting : loop.waiting = []) (hrunning : loop.running = []) :
    loop.count id = 0 := by
  rw [SendLoop.count, hwaiting, hrunning]
  rfl

theorem SendOk.taskDone {i : ℕ} (h : SendOk sessionId s)
    (hstep : sendStep sessionId s (.taskDone i) = some t) : SendOk sessionId t := by
  simp only [sendStep] at hstep
  split at hstep
  · rename_i loop hloop
    simp only [Option.ite_none_right_eq_some, Option.some.injEq] at hstep
    obtain ⟨⟨hpoint, hrunning, hwaiting⟩, rfl⟩ := hstep
    have hlt := (List.getElem?_eq_some_iff.mp hloop).1
    have hmem := List.mem_of_getElem? hloop
    constructor
    · refine forall_mem_set h.loops ⟨fun _ => ?_, (h.loops loop hmem).own⟩
      obtain hwaiting | hcancelled := hwaiting
      · exact .inr ⟨hwaiting, hrunning⟩
      · exact .inl hcancelled
    · exact h.closed
    · intro session hsession hstatus
      obtain ⟨before, hbefore, rfl⟩ := exists_of_updateSession hsession
      have hlive := h.live before hbefore hstatus
      rw [SendProvider.removeTask, updateSession_transfers]
      refine Live.congr ⟨?_, ?_, hlive.selected, fun _ => ?_, hlive.decided⟩ rfl rfl
      · intro id
        have hset := unsettledBy_set { loop with point := .returning } hloop id
        rw [← hlive.tracked id]
        exact Nat.add_right_cancel hset
      · exact forall_mem_set hlive.uncancelled (hlive.uncancelled loop hmem)
      · exact ⟨_, List.mem_set hlt _, nofun⟩
  · cases hstep

theorem onTaskFailed_statuses (files : List HttpUploadFile) (id : String) :
    ((p.onTaskFailed sessionId files).transfers.ofSession sessionId).get? id =
      if (∃ file ∈ files, file.fileId = id) ∧
          (p.transfers.getStatus sessionId id).settled = false then some .failed
      else (p.transfers.ofSession sessionId).get? id := by
  show ((p.transfers.setStatuses _ _).ofSession sessionId).get? id = _
  rw [FileTransfers.ofSession_setStatuses, AssocMap.get?_foldl_insert_const]
  congr 1
  simp

theorem SendOk.taskFailed {i : ℕ} (h : SendOk sessionId s)
    (hguard : DecidesInTime sessionId s (.taskFailed i))
    (hstep : sendStep sessionId s (.taskFailed i) = some t) : SendOk sessionId t := by
  simp only [sendStep] at hstep
  split at hstep
  · rename_i loop hloop
    simp only [Option.ite_none_right_eq_some, Option.some.injEq] at hstep
    obtain ⟨hpoint, rfl⟩ := hstep
    have hlt := (List.getElem?_eq_some_iff.mp hloop).1
    have hmem := List.mem_of_getElem? hloop
    constructor
    · exact forall_mem_set h.loops ⟨fun _ => .inr ⟨rfl, rfl⟩,
        fun id hid => absurd hid (Nat.lt_irrefl 0)⟩
    · exact h.closed
    · intro session hsession hstatus
      obtain ⟨before, hbefore, rfl⟩ := exists_of_updateSession hsession
      have hlive := h.live before hbefore hstatus
      rw [SendProvider.removeTask, updateSession_transfers]
      -- what the task still had to do is what it marks as failed
      have hmarked : ∀ id, ((∃ file ∈ loop.files, file.fileId = id) ∧
          (s.provider.transfers.getStatus sessionId id).settled = false) ↔
            0 < loop.count id := by
        intro id
        constructor
        · rintro ⟨⟨file, hfile, rfl⟩, hopen⟩
          have hin := hguard loop hloop file hfile hopen
          rw [SendLoop.count, ← List.count_append]
          exact List.count_pos_iff.mpr hin
        · intro hcount
          obtain ⟨-, -, status, hknown, hopen⟩ := hlive.unsettled hmem hcount
          refine ⟨(h.loops loop hmem).own id hcount, ?_⟩
          rw [FileTransfers.getStatus, hknown]
          exact hopen
      have hstatuses : ∀ id, (((s.provider.onTaskFailed sessionId loop.files).transfers.ofSession
          sessionId).get? id) = if 0 < loop.count id then some .failed
            else (s.provider.transfers.ofSession sessionId).get? id := by
        intro id
        rw [onTaskFailed_statuses]
        simp only [hmarked id]
      refine Live.congr ⟨?_, ?_, ?_, fun _ => ?_, ?_⟩ rfl rfl
      · intro id
        have hset : unsettledBy (s.loops.set i _) id + loop.count id = unsettledBy s.loops id + 0 :=
          unsettledBy_set { loop with waiting := [], running := [], point := .returning } hloop id
        show unsettledBy (s.loops.set i _) id = _
        rw [hstatuses id]
        by_cases hcount : 0 < loop.count id
        · obtain ⟨-, hone, -⟩ := hlive.unsettled hmem hcount
          rw [if_pos hcount, expected_some]
          show _ = 0
          omega
        · rw [if_neg hcount, ← hlive.tracked id]
          omega
      · exact forall_mem_set hlive.uncancelled (hlive.uncancelled loop hmem)
      · intro key file hfile htoken
        rw [hstatuses]
        by_cases hcount : 0 < loop.count file.file.id
        · exact ⟨.failed, if_pos hcount, fun heq => by cases heq⟩
        · rw [if_neg hcount]
          exact hlive.selected key file hfile htoken
      · exact ⟨_, List.mem_set hlt _, fun heq => by cases heq⟩
      · intro hnot
        -- a session that is not sending has no file left, so nothing is marked
        have hsame : ∀ id, ((s.provider.onTaskFailed sessionId loop.files).transfers.ofSession
            sessionId).get? id = (s.provider.transfers.ofSession sessionId).get? id := by
          intro id
          rw [hstatuses id, if_neg]
          exact fun hcount => hnot (hlive.unsettled hmem hcount).1
        have hdecided := hlive.decided hnot
        unfold AllSettled NoneFailed at hdecided ⊢
        simp only [hsame]
        exact hdecided
  · cases hstep

end Tasks

/-! ## §6  The decision -/

section Decision

variable {sessionId : String} {s t : SendState} {session : SendSessionState}
  {loop : SendLoop} {p : SendProvider}

theorem closeSession_get? (p : SendProvider) (sessionId : String) :
    (p.closeSession sessionId).state.get? sessionId = none := by
  unfold SendProvider.closeSession
  cases hsession : p.state.get? sessionId with
  | none => exact hsession
  | some session =>
      show (p.state.filter fun id _ => id ≠ sessionId).get? sessionId = none
      rw [AssocMap.get?_filter_ne, if_pos rfl]

/-- **A decision** is made of a session that is sending, and follows the statuses. -/
theorem finish_cases (hsession : p.state.get? sessionId = some session) :
    (session.status ≠ .sending ∧ (p.finish sessionId).state.get? sessionId = some session ∧
        (p.finish sessionId).transfers = p.transfers) ∨
      (session.status = .sending ∧ NoneFailed (p.transfers.ofSession sessionId) ∧
        (p.finish sessionId).state.get? sessionId = none) ∨
      (session.status = .sending ∧ ∃ status,
        (status = .finished ∧ NoneFailed (p.transfers.ofSession sessionId) ∨
          status = .finishedWithErrors ∧ ¬ NoneFailed (p.transfers.ofSession sessionId)) ∧
        (p.finish sessionId).state.get? sessionId = some { session with status } ∧
        (p.finish sessionId).transfers = p.transfers) := by
  unfold SendProvider.finish
  simp only [hsession]
  by_cases hsending : session.status = .sending
  · rw [if_neg (not_not.mpr hsending)]
    refine .inr ?_
    have hfailed : (p.transfers.getStatuses sessionId).any (fun status => status = .failed) = true ↔
        ¬ NoneFailed (p.transfers.ofSession sessionId) := any_failed_iff
    cases herror : (p.transfers.getStatuses sessionId).any fun status => status = .failed with
    | true =>
        have hsome := hfailed.mp herror
        refine .inr ⟨hsending, .finishedWithErrors, .inr ⟨rfl, hsome⟩, ?_, ?_⟩
        · simp only [Bool.not_true, Bool.false_and, Bool.false_eq_true, if_false, if_true]
          rw [SendProvider.setStatus, updateSession_get?]
          simp only [hsession, Option.map_some]
        · simp only [Bool.not_true, Bool.false_and, Bool.false_eq_true, if_false, if_true]
          rw [SendProvider.setStatus, updateSession_transfers]
    | false =>
        have hnone : NoneFailed (p.transfers.ofSession sessionId) := by
          by_contra hnot
          rw [hfailed.mpr hnot] at herror
          cases herror
        cases hbackground : session.background with
        | true =>
            refine .inl ⟨hsending, hnone, ?_⟩
            simp only [Bool.not_false, Bool.and_self, if_true]
            exact closeSession_get? _ sessionId
        | false =>
            refine .inr ⟨hsending, .finished, .inl ⟨rfl, hnone⟩, ?_, ?_⟩
            · simp only [Bool.not_false, Bool.and_false, Bool.false_eq_true, if_false]
              rw [SendProvider.setStatus, updateSession_get?]
              simp only [hsession, Option.map_some, hbackground]
            · simp only [Bool.not_false, Bool.and_false, Bool.false_eq_true, if_false]
              rw [SendProvider.setStatus, updateSession_transfers]
  · rw [if_pos hsending]
    exact .inl ⟨hsending, hsession, rfl⟩

theorem finish_of_none (hsession : p.state.get? sessionId = none) : p.finish sessionId = p := by
  unfold SendProvider.finish
  simp only [hsession]

/-- A retry that is not the last to end leaves the decision to another loop. -/
theorem leave_cases (p : SendProvider) (sessionId : String) (isRetry : Bool) :
    (isRetry = true ∧ ¬ ((p.state.get? sessionId).isSome = true ∧
        AllSettled (p.transfers.ofSession sessionId)) ∧ p.leave sessionId isRetry = p) ∨
      ((isRetry = true → AllSettled (p.transfers.ofSession sessionId)) ∧
        p.leave sessionId isRetry = p.finish sessionId) := by
  have hsettled : (p.transfers.getStatuses sessionId).all FileStatus.settled = true ↔
      AllSettled (p.transfers.ofSession sessionId) := all_settled_iff
  unfold SendProvider.leave
  cases isRetry with
  | false => exact .inr ⟨nofun, rfl⟩
  | true =>
      by_cases hall : ((p.state.get? sessionId).isSome &&
          (p.transfers.getStatuses sessionId).all FileStatus.settled) = true
      · have hboth := (Bool.and_eq_true ..).mp hall
        refine .inr ⟨fun _ => hsettled.mp hboth.2, ?_⟩
        rw [hall]
        rfl
      · refine .inl ⟨rfl, fun hboth => hall ?_, ?_⟩
        · rw [hboth.1, hsettled.mpr hboth.2]
          rfl
        · rw [eq_false_of_ne_true hall]
          rfl

/-- As long as a file is not settled, a loop is uploading. -/
theorem Live.exists_uploading {statuses : AssocMap String FileStatus} {loops : List SendLoop}
    (h : Live session statuses loops) (hloops : ∀ loop ∈ loops, LoopOk loop)
    (hopen : ¬ AllSettled statuses) :
    ∃ (j : ℕ) (other : SendLoop), loops[j]? = some other ∧ other.point = .uploading := by
  unfold AllSettled at hopen
  push Not at hopen
  obtain ⟨id, status, hstatus, hopen⟩ := hopen
  have hone : unsettledBy loops id = 1 := by
    rw [h.tracked id, hstatus, expected_some, if_neg hopen]
  by_contra hnone
  push Not at hnone
  have hzero : unsettledBy loops id = 0 := by
    refine List.sum_eq_zero fun n hn => ?_
    obtain ⟨loop, hmem, rfl⟩ := List.mem_map.mp hn
    obtain ⟨j, hj⟩ := List.getElem?_of_mem hmem
    obtain hcancelled | ⟨hwaiting, hrunning⟩ := (hloops loop hmem).idle (hnone j loop hj)
    · rw [h.uncancelled loop hmem] at hcancelled
      cases hcancelled
    · exact count_of_idle hwaiting hrunning
  omega

theorem SendOk.finish {i : ℕ} (h : SendOk sessionId s)
    (hguard : DecidesInTime sessionId s (.finish i))
    (hstep : sendStep sessionId s (.finish i) = some t) : SendOk sessionId t := by
  simp only [sendStep] at hstep
  split at hstep
  · rename_i loop hloop
    simp only [Option.ite_none_right_eq_some, Option.some.injEq] at hstep
    obtain ⟨hpoint, rfl⟩ := hstep
    have hlt := (List.getElem?_eq_some_iff.mp hloop).1
    have hmem := List.mem_of_getElem? hloop
    have hidle := (h.loops loop hmem).idle (by rw [hpoint]; exact fun heq => by cases heq)
    have hloops : ∀ other ∈ s.loops.set i { loop with point := .ended }, LoopOk other :=
      forall_mem_set h.loops ⟨fun _ => hidle, (h.loops loop hmem).own⟩
    -- the loops, as far as the files are concerned, are what they were
    have hset : ∀ id, unsettledBy (s.loops.set i { loop with point := .ended }) id =
        unsettledBy s.loops id := fun id =>
      Nat.add_right_cancel (unsettledBy_set { loop with point := .ended } hloop id)
    have hends : ∀ {before after : SendSessionState} {statuses : AssocMap String FileStatus},
        Live before statuses s.loops → after.files = before.files →
        (after.status = .sending → ∃ other ∈ s.loops.set i { loop with point := .ended },
          other.point ≠ .ended) →
        (after.status ≠ .sending → AllSettled statuses ∧
          (after.status = .finished ∧ NoneFailed statuses ∨
            after.status = .finishedWithErrors ∧ ¬ NoneFailed statuses)) →
        Live after statuses (s.loops.set i { loop with point := .ended }) := by
      intro before after statuses hlive hfiles hsending hdecided
      refine ⟨fun id => (hset id).trans (hlive.tracked id),
        forall_mem_set hlive.uncancelled (hlive.uncancelled loop hmem), ?_, hsending, hdecided⟩
      rw [hfiles]
      exact hlive.selected
    cases hsession : s.provider.state.get? sessionId with
    | none =>
        have hleave : s.provider.leave sessionId loop.isRetry = s.provider := by
          obtain ⟨-, -, hleave⟩ | ⟨-, hleave⟩ := leave_cases s.provider sessionId loop.isRetry
          · exact hleave
          · rw [hleave, finish_of_none hsession]
        simp only [hleave]
        exact ⟨hloops, h.closed, fun session hfound => by rw [hsession] at hfound; cases hfound⟩
    | some session =>
        obtain ⟨hretry, hopen, hleave⟩ | ⟨hall, hleave⟩ :=
          leave_cases s.provider sessionId loop.isRetry
        · rw [hleave]
          simp only [hsession]
          refine ⟨hloops, h.closed, fun session' hfound hstatus => ?_⟩
          obtain rfl := Option.some.inj (hsession.symm.trans hfound)
          have hlive := h.live session hsession hstatus
          refine hends hlive rfl (fun _ => ?_) hlive.decided
          obtain ⟨j, other, hother, huploading⟩ := hlive.exists_uploading h.loops fun hall =>
            hopen ⟨by rw [hsession]; rfl, hall⟩
          have hji : j ≠ i := by
            rintro rfl
            obtain rfl := Option.some.inj (hloop.symm.trans hother)
            rw [hpoint] at huploading
            cases huploading
          refine ⟨other, List.mem_of_getElem? (i := j) ?_,
            by rw [huploading]; exact fun heq => by cases heq⟩
          rw [List.getElem?_set_ne (Ne.symm hji)]
          exact hother
        · have hsettled : session.status = .sending →
              AllSettled (s.provider.transfers.ofSession sessionId) := by
            intro hsending
            cases hretry : loop.isRetry with
            | true => exact hall hretry
            | false => exact all_settled_iff.mp (hguard loop hloop hretry session hsession hsending)
          rw [hleave]
          obtain ⟨hnot, hget, hsame⟩ | ⟨hsending, hnone, hget⟩ |
            ⟨hsending, status, hstatus, hget, hsame⟩ := finish_cases hsession
          · simp only [hget]
            refine ⟨hloops, h.closed, fun session' hfound hstatus => ?_⟩
            obtain rfl := Option.some.inj (hget.symm.trans hfound)
            have hlive := h.live session hsession hstatus
            rw [hsame]
            exact hends hlive rfl (fun hsending => (hnot hsending).elim) hlive.decided
          · have hlive := h.live session hsession (by rw [hsending]; exact fun heq => by cases heq)
            simp only [hget]
            refine ⟨hloops, ?_, fun session' hfound => by rw [hget] at hfound; cases hfound⟩
            intro closed statuses hclosed
            obtain ⟨rfl, rfl⟩ := Prod.mk.inj (Option.some.inj hclosed)
            exact ⟨hlive.allEnded (hsettled hsending), hnone⟩
          · have hlive := h.live session hsession (by rw [hsending]; exact fun heq => by cases heq)
            simp only [hget]
            refine ⟨hloops, h.closed, fun session' hfound _ => ?_⟩
            obtain rfl := Option.some.inj (hget.symm.trans hfound)
            rw [hsame]
            refine hends hlive rfl (fun hstill => ?_) fun _ => ⟨hsettled hsending, hstatus⟩
            obtain ⟨rfl, -⟩ | ⟨rfl, -⟩ := hstatus <;> cases hstill
  · cases hstep

end Decision

/-! ## §7  Every run -/

section Runs

variable {sessionId : String} {s t : SendState} {session : SendSessionState}

/-- A session that is gone has nothing to keep. -/
theorem SendOk.of_gone {p : SendProvider} {loops : List SendLoop} (h : SendOk sessionId s)
    (hloops : ∀ loop ∈ loops, LoopOk loop) (hgone : p.state.get? sessionId = none) :
    SendOk sessionId { s with provider := p, loops } :=
  ⟨hloops, h.closed, fun session hfound => by rw [hgone] at hfound; cases hfound⟩

theorem loopOk_cancelTasks {loops : List SendLoop} (tasks : List ℕ)
    (h : ∀ loop ∈ loops, LoopOk loop) : ∀ loop ∈ cancelTasks tasks loops, LoopOk loop := by
  intro loop' hmem'
  obtain ⟨loop, hmem, rfl⟩ := List.mem_map.mp hmem'
  refine ⟨fun hidle => ?_, (h loop hmem).own⟩
  obtain hcancelled | hempty := (h loop hmem).idle hidle
  · exact .inl (by rw [hcancelled]; rfl)
  · exact .inr hempty

/-- **A new loop** has to settle each of its files once. -/
theorem sendFiles_cases {p : SendProvider} (isRetry : Bool) (taskId : ℕ) (files : List SendingFile)
    (hsession : p.state.get? sessionId = some session) :
    ∃ tasks q loop, p.sendFiles sessionId isRetry taskId files = (q, loop) ∧
      q.state.get? sessionId = some { session with sendingTasks := tasks } ∧
      q.transfers = p.transfers ∧ LoopOk loop ∧ loop.cancelled = false ∧ loop.point ≠ .ended ∧
      ∀ id, loop.count id = ((uploadFiles files).map HttpUploadFile.fileId).count id := by
  unfold SendProvider.sendFiles
  simp only [hsession]
  by_cases hempty : (uploadFiles files).isEmpty = true
  · rw [if_pos hempty]
    refine ⟨session.sendingTasks, p, _, rfl, hsession, rfl, ⟨fun _ => .inr ⟨rfl, rfl⟩, ?_⟩, rfl,
      (fun hended => by cases hended), fun id => ?_⟩
    · exact fun id hid => absurd hid (Nat.lt_irrefl 0)
    · rw [List.isEmpty_iff.mp hempty]
      rfl
  · rw [if_neg hempty]
    refine ⟨session.sendingTasks ++ [taskId], _, _, rfl, ?_, updateSession_transfers _ _ _,
      ⟨fun hidle => (hidle rfl).elim, ?_⟩, rfl,
      (fun hended => by cases hended), fun id => rfl⟩
    · rw [updateSession_get?, hsession]
      rfl
    · intro id hid
      exact List.mem_map.mp (List.count_pos_iff.mp hid)

theorem SendOk.retry {key : String} (h : SendOk sessionId s)
    (hguard : DecidesInTime sessionId s (.retry key))
    (hstep : sendStep sessionId s (.retry key) = some t) : SendOk sessionId t := by
  simp only [sendStep] at hstep
  split at hstep
  · rename_i session hsession
    split at hstep
    · rename_i file hfile
      simp only [Option.ite_none_right_eq_some, Option.some.injEq, Bool.and_eq_true] at hstep
      obtain ⟨⟨htoken, hallowed⟩, hstep⟩ := hstep
      obtain ⟨token, htoken⟩ := Option.isSome_iff_exists.mp htoken
      have hstatus : session.status ≠ .canceledByReceiver := by
        rintro heq
        rw [heq] at hallowed
        cases hallowed
      have hlive := h.live session hsession hstatus
      have hstarted : ({ s.provider with
          transfers := s.provider.transfers.setStatus sessionId file.file.id .queue }.setStatus
            sessionId .sending).state.get? sessionId =
              some { session with status := .sending } := by
        rw [SendProvider.setStatus, updateSession_get?]
        simp only [hsession, Option.map_some]
      obtain ⟨tasks, q, loop, heq, hget, htransfers, hloop, hcancelled, hpoint, hcount⟩ :=
        sendFiles_cases true s.loops.length [file] hstarted
      rw [SendProvider.setStatus, updateSession_transfers] at htransfers
      have hstatuses : q.transfers.ofSession sessionId =
          (s.provider.transfers.ofSession sessionId).insert file.file.id .queue := by
        rw [htransfers]
        exact FileTransfers.ofSession_setStatus ..
      simp only [heq] at hstep
      obtain rfl := hstep
      have hloops : ∀ {P : SendLoop → Prop}, (∀ other ∈ s.loops, P other) → P loop →
          ∀ other ∈ s.loops ++ [loop], P other := by
        intro P hall hnew other hother
        obtain hother | hother := List.mem_append.mp hother
        · exact hall other hother
        · rw [List.mem_singleton.mp hother]
          exact hnew
      refine ⟨hloops h.loops hloop, h.closed, fun session' hfound _ => ?_⟩
      obtain rfl := Option.some.inj (hget.symm.trans hfound)
      rw [hstatuses]
      refine ⟨fun id => ?_, hloops hlive.uncancelled hcancelled,
        fun key' file' hfile' htoken' => ?_,
        fun _ => ⟨loop, List.mem_append_right _ List.mem_cons_self, hpoint⟩,
        fun hnot => (hnot rfl).elim⟩
      · have hsum : unsettledBy (s.loops ++ [loop]) id =
            unsettledBy s.loops id + loop.count id := by
          simp [unsettledBy]
        have hupload : (uploadFiles [file]).map HttpUploadFile.fileId = [file.file.id] := by
          simp [uploadFiles, htoken]
        rw [hsum, hlive.tracked id, hcount, hupload, List.count_singleton, AssocMap.get?_insert]
        by_cases hid : id = file.file.id
        · -- the file was settled, so that no other loop is at it
          have hsettled := hguard session hsession file hfile
          subst hid
          rw [if_pos rfl, expected_some]
          unfold FileTransfers.getStatus at hsettled
          cases hknown : (s.provider.transfers.ofSession sessionId).get? file.file.id with
          | none =>
              rw [hknown] at hsettled
              cases hsettled
          | some status =>
              rw [hknown] at hsettled
              have hsettled : status.settled = true := hsettled
              rw [expected_some, if_pos hsettled]
              simp [FileStatus.settled]
        · rw [if_neg hid]
          simp [Ne.symm hid]
      · rw [AssocMap.get?_insert]
        by_cases hid : file'.file.id = file.file.id
        · exact ⟨.queue, if_pos hid, fun heq => by cases heq⟩
        · rw [if_neg hid]
          exact hlive.selected key' file' hfile' htoken'
    · cases hstep
  · cases hstep

theorem cancelSession_get? (p : SendProvider) (sessionId : String) :
    (p.cancelSession sessionId).state.get? sessionId = none := by
  unfold SendProvider.cancelSession
  cases hsession : p.state.get? sessionId with
  | none => exact hsession
  | some session => exact closeSession_get? _ sessionId

theorem SendOk.step {a : SendAct} (h : SendOk sessionId s) (hguard : DecidesInTime sessionId s a)
    (hstep : sendStep sessionId s a = some t) : SendOk sessionId t := by
  cases a with
  | event i event => exact h.receive hstep
  | taskFailed i => exact h.taskFailed hguard hstep
  | taskDone i => exact h.taskDone hstep
  | finish i => exact h.finish hguard hstep
  | retry key => exact h.retry hguard hstep
  | setBackground background =>
      obtain rfl := Option.some.inj hstep
      refine ⟨h.loops, h.closed, fun session hfound hstatus => ?_⟩
      obtain ⟨before, hbefore, rfl⟩ := exists_of_updateSession hfound
      rw [updateSession_transfers]
      exact (h.live before hbefore hstatus).congr rfl rfl
  | cancelByReceiver =>
      obtain rfl := Option.some.inj hstep
      cases hsession : s.provider.state.get? sessionId with
      | none =>
          refine h.of_gone h.loops ?_
          simp only [SendProvider.cancelSessionByReceiver, hsession]
      | some session =>
          refine ⟨loopOk_cancelTasks _ h.loops, h.closed, fun session' hfound hstatus => ?_⟩
          simp only [SendProvider.cancelSessionByReceiver, hsession] at hfound
          obtain ⟨before, -, rfl⟩ := exists_of_updateSession hfound
          exact (hstatus rfl).elim
  | cancel =>
      obtain rfl := Option.some.inj hstep
      cases hsession : s.provider.state.get? sessionId with
      | none => exact h.of_gone h.loops (cancelSession_get? _ _)
      | some session => exact h.of_gone (loopOk_cancelTasks _ h.loops) (cancelSession_get? _ _)
  | close =>
      obtain rfl := Option.some.inj hstep
      exact h.of_gone h.loops (closeSession_get? _ _)
  | clearAll =>
      obtain rfl := Option.some.inj hstep
      exact h.of_gone h.loops rfl

/-- The ids of the selected files, in their order. -/
theorem map_fileId_uploadFiles (files : List SendingFile) :
    (uploadFiles files).map HttpUploadFile.fileId =
      (files.filter fun file => file.token.isSome).map fun file => file.file.id := by
  induction files with
  | nil => rfl
  | cons file files ih =>
      cases htoken : file.token with
      | none => simpa [uploadFiles, htoken] using ih
      | some token => simpa [uploadFiles, htoken] using ih

/-- The status of a file when the upload begins. -/
def beginStatus (file : SendingFile) : FileStatus :=
  if file.token.isSome then .queue else .skipped

theorem beginUpload_spec (p : SendProvider) (sessionId : String)
    (requestFiles : AssocMap String SendingFile) (fileMap : AssocMap String String) :
    ∃ q files, p.beginUpload sessionId requestFiles fileMap = (q, files) ∧
      q.state.get? sessionId =
        (p.state.get? sessionId).map (fun s => { s with status := .sending, files }) ∧
      q.transfers.ofSession sessionId =
        AssocMap.ofList (files.values.map fun file => (file.file.id, beginStatus file)) ∧
      ∀ key file, files.get? key = some file → file.file.id = key := by
  refine ⟨_, _, rfl, updateSession_get? .., ?_, ?_⟩
  · show FileTransfers.ofSession (SendProvider.updateSession ..).transfers sessionId = _
    rw [updateSession_transfers, FileTransfers.ofSession_setStatuses,
      FileTransfers.ofSession_removeSession]
    rfl
  · intro key file hfile
    obtain ⟨before, -, heq⟩ := List.mem_map.mp (AssocMap.mem_of_get?_ofList hfile)
    obtain ⟨rfl, rfl⟩ := Prod.mk.inj heq
    split <;> rfl

theorem sendOk_init {p : SendProvider} (requestFiles : AssocMap String SendingFile)
    (fileMap : AssocMap String String) (hsession : p.state.get? sessionId = some session) :
    SendOk sessionId (.init p sessionId requestFiles fileMap) := by
  obtain ⟨q, files, hbegin, hget, hstatuses, hkeys⟩ :=
    beginUpload_spec p sessionId requestFiles fileMap
  rw [hsession] at hget
  obtain ⟨tasks, r, loop, hsend, hsent, htransfers, hloop, hcancelled, hpoint, hcount⟩ :=
    sendFiles_cases false 0 files.values hget
  have hinit : SendState.init p sessionId requestFiles fileMap = ⟨r, [loop], none⟩ := by
    simp only [SendState.init, hbegin, hsend]
  -- the files are kept under their own ids, so that there is one of each
  have hnodup : (files.values.map fun file => file.file.id).Nodup := by
    have hids : files.values.map (fun file => file.file.id) = files.keys := by
      unfold AssocMap.values AssocMap.keys
      rw [List.map_map]
      refine List.map_congr_left fun entry hentry => ?_
      exact hkeys entry.1 entry.2 (AssocMap.get?_eq_some_iff.mpr hentry)
    rw [hids]
    exact files.nodup
  have hstatus : ∀ id status, (r.transfers.ofSession sessionId).get? id = some status ↔
      ∃ file ∈ files.values, file.file.id = id ∧ beginStatus file = status := by
    intro id status
    rw [htransfers, hstatuses, AssocMap.get?_ofList_eq_some_iff]
    · simp
    · rw [List.map_map]
      exact hnodup
  rw [hinit]
  constructor
  · exact fun other hother => List.mem_singleton.mp hother ▸ hloop
  · exact fun _ _ hclosed => nomatch hclosed
  · intro session' hfound _
    obtain rfl := Option.some.inj (hsent.symm.trans hfound)
    refine ⟨fun id => ?_, fun other hother => List.mem_singleton.mp hother ▸ hcancelled,
      fun key file hfile htoken => ?_, fun _ => ⟨loop, List.mem_cons_self, hpoint⟩,
      fun hnot => (hnot rfl).elim⟩
    · have hsum : unsettledBy [loop] id = loop.count id := by simp [unsettledBy]
      have hselected : ((files.values.filter fun file => file.token.isSome).map
          fun file => file.file.id).Nodup :=
        hnodup.sublist (List.filter_sublist.map _)
      rw [hsum, hcount, map_fileId_uploadFiles, hselected.count]
      by_cases hmem : ∃ file ∈ files.values, file.token.isSome = true ∧ file.file.id = id
      · obtain ⟨file, hfile, htoken, hid⟩ := hmem
        rw [(hstatus id .queue).mpr ⟨file, hfile, hid, if_pos htoken⟩, if_pos]
        · rfl
        · exact List.mem_map.mpr ⟨file, List.mem_filter.mpr ⟨hfile, htoken⟩, hid⟩
      · rw [if_neg]
        · cases hknown : (r.transfers.ofSession sessionId).get? id with
          | none => rfl
          | some status =>
              obtain ⟨file, hfile, hid, rfl⟩ := (hstatus id status).mp hknown
              rw [beginStatus, if_neg fun htoken => hmem ⟨file, hfile, htoken, hid⟩]
              rfl
        · intro hin
          obtain ⟨file, hfile, hid⟩ := List.mem_map.mp hin
          obtain ⟨hfile, htoken⟩ := List.mem_filter.mp hfile
          exact hmem ⟨file, hfile, htoken, hid⟩
    · refine ⟨.queue, (hstatus _ _).mpr ⟨file, ?_, rfl, if_pos htoken⟩, nofun⟩
      exact AssocMap.mem_values_iff.mpr ⟨key, hfile⟩

end Runs

/-- **The outcome of a send session**, when every decision is in time: it is told once every
selected file has come to its end, as it is, and a retry that ends later corrects it. -/
theorem send_outcome {p : SendProvider} {sessionId : String} {session : SendSessionState}
    (hsession : p.state.get? sessionId = some session)
    (requestFiles : AssocMap String SendingFile) (fileMap : AssocMap String String)
    {s : SendState}
    (hrun : Run (sendStep sessionId) (DecidesInTime sessionId)
      (.init p sessionId requestFiles fileMap) s) : OutcomeOk sessionId s := by
  have hok : SendOk sessionId s :=
    hrun.invariant (sendOk_init requestFiles fileMap hsession)
      fun _ _ _ h hguard hstep => h.step hguard hstep
  exact hok.outcome

/-! ## §8  A decision that comes too early -/

namespace TwoFiles

def file (id : String) : SendingFile := ⟨Sample.file id, none, some "/storage/photo.png", none⟩

def files : AssocMap String SendingFile := .ofList [("a", file "a"), ("b", file "b")]

def session : SendSessionState := ⟨some "remote", false, .waiting, files, []⟩

def provider : SendProvider :=
  ⟨.ofList [("s", session)], .empty, .empty, AssocMap.empty, .none⟩

def fileMap : AssocMap String String := .ofList [("a", "token-a"), ("b", "token-b")]

def firstFails : List SendAct :=
  [.event 0 (.started "a"), .event 0 (.started "b"), .event 0 (.failed "a")]

/-- The failed file is tried again when the main loop is over. -/
def later : List SendAct :=
  firstFails ++ [.event 0 (.finished "b"), .taskDone 0, .finish 0, .retry "a",
    .event 1 (.started "a"), .event 1 (.finished "a"), .taskDone 1, .finish 1]

/-- The failed file is tried again while the other one is being sent. -/
def meanwhile : List SendAct :=
  firstFails ++ [.retry "a", .event 0 (.finished "b"), .taskDone 0, .finish 0]

def statusOf (s : SendState) : Option SessionStatus :=
  (s.provider.state.get? "s").map SendSessionState.status

end TwoFiles

open TwoFiles in
theorem send_outcome_two : ∃ s session,
    Run (sendStep "s") (DecidesInTime "s") (.init provider "s" files fileMap) s ∧
      s.provider.state.get? "s" = some session ∧ session.status = .finished ∧
      NoneFailed (s.provider.transfers.ofSession "s") := by
  obtain ⟨s, hexec, hstatus⟩ := exists_of_exec_any (sendStep "s")
    (.init provider "s" files fileMap) later
    (fun s => decide (statusOf s = some .finished)) (by decide +kernel)
  obtain ⟨session', hsession, hfinished⟩ := Option.map_eq_some_iff.mp (of_decide_eq_true hstatus)
  have hguarded : Guarded (sendStep "s") (DecidesInTime "s") (.init provider "s" files fileMap)
      later := by
    decide +kernel
  have hrun := run_of_exec hexec hguarded
  have hfound : provider.state.get? "s" = some session := by decide
  have houtcome := send_outcome hfound files fileMap hrun
  exact ⟨s, session', hrun, hsession, hfinished,
    (houtcome.finished session' hsession hfinished).2⟩

/-- The page offers to send a file again when it has failed. -/
def RetriesFailed (sessionId : String) (s : SendState) : SendAct → Prop
  | .retry key => ∀ session ∈ s.provider.state.get? sessionId, ∀ file ∈ session.files.get? key,
      s.provider.transfers.getStatus sessionId file.file.id = .failed
  | _ => True

instance RetriesFailed.decidable (sessionId : String) (s : SendState) :
    ∀ a, Decidable (RetriesFailed sessionId s a)
  | .retry key => inferInstanceAs (Decidable (∀ session ∈ s.provider.state.get? sessionId,
      ∀ file ∈ session.files.get? key,
        s.provider.transfers.getStatus sessionId file.file.id = .failed))
  | .event .. | .taskFailed _ | .taskDone _ | .finish _ | .setBackground _ | .cancelByReceiver
  | .cancel | .close | .clearAll => .isTrue trivial

open TwoFiles in
/-- **Too early**: the session is finished although a file is still queued to be sent again. -/
theorem send_outcome_early :
    ¬ ∀ (p : SendProvider) (sessionId : String) (session : SendSessionState)
      (requestFiles : AssocMap String SendingFile) (fileMap : AssocMap String String)
      (s : SendState), p.state.get? sessionId = some session →
        Run (sendStep sessionId) (RetriesFailed sessionId)
          (.init p sessionId requestFiles fileMap) s → OutcomeOk sessionId s := by
  intro h
  obtain ⟨s, hexec, hearly⟩ := exists_of_exec_any (sendStep "s")
    (.init provider "s" files fileMap) meanwhile
    (fun s => decide ((s.provider.state.get? "s").map SendSessionState.status = some .finished ∧
      (s.provider.state.get? "s").bind (fun session => session.files.get? "a") =
        some { file "a" with token := some "token-a" } ∧
      (s.provider.transfers.ofSession "s").get? "a" = some .queue)) (by decide +kernel)
  obtain ⟨hstatus, hfile, hqueue⟩ := of_decide_eq_true hearly
  obtain ⟨session', hsession, hfinished⟩ := Option.map_eq_some_iff.mp hstatus
  rw [hsession] at hfile
  have hguarded : Guarded (sendStep "s") (RetriesFailed "s") (.init provider "s" files fileMap)
      meanwhile := by
    decide +kernel
  have hfound : provider.state.get? "s" = some session := by decide
  have houtcome := h provider "s" session files fileMap s hfound (run_of_exec hexec hguarded)
  obtain hended | hended := (houtcome.finished session' hsession hfinished).1 "a" _ hfile rfl
  · have hended : (s.provider.transfers.ofSession "s").get? "a" = some .finished := hended
    rw [hqueue] at hended
    cases hended
  · have hended : (s.provider.transfers.ofSession "s").get? "a" = some .failed := hended
    rw [hqueue] at hended
    cases hended

end FireBoxTransfer

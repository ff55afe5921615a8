import FireBoxTransfer.Bridge.UploadTask
import FireBoxTransfer.Isolates.TaskStreams

/-!
# The handlers of the three isolates

The discovery isolate sends `done` behind everything but the listener, the
upload isolate behind its pool of files, the server isolate when its events are
over. What they await may throw, and then the message loop logs the exception
and nothing is sent. A server that cannot be started sends an error, which does
not close the stream. A server that has stopped may still be receiving files,
and what these uploads report comes too late.
-/

namespace FireBoxTransfer

open Runs TaskPool

namespace Isolates

/-! ## §1  Discovery -/

section Discovery

variable (Device DeviceLog : Type)

inductive DiscoveryTask where
  | listen
  | announcement
  | restart
  | subnetScan (networkInterface : String) (port : ℕ) (https : Bool)
  | stagedScan (favorites : List (String × ℕ)) (networkInterfaces : List String) (port : ℕ)
      (https : Bool) (grace : ℕ)
  | addDevice (device : Device)
  | deviceLogs (fingerprint : String)

inductive DiscoveryResult where
  | device (device : Device)
  | deviceLogs (logs : List DeviceLog)

inductive DiscoveryPoint where
  | running (task : DiscoveryTask Device)
  | ended

/-- What the awaited call of the discovery comes to. -/
inductive DiscoveryAct where
  | device (device : Device)
  | logs (logs : List DeviceLog)
  | completed
  | threw

variable {Device DeviceLog}

def discoveryStep : DiscoveryPoint Device → DiscoveryAct Device DeviceLog →
    Option (DiscoveryPoint Device × List (Reply (DiscoveryResult Device DeviceLog)))
  | .ended, _ => none
  | .running .listen, .device d => some (.running .listen, [.event (.device d)])
  -- `return` behind the loop
  | .running .listen, .completed => some (.ended, [])
  | .running (.deviceLogs _), .logs l => some (.ended, [.event (.deviceLogs l), .done])
  | .running .announcement, .completed
  | .running .restart, .completed
  | .running (.subnetScan _ _ _), .completed
  | .running (.stagedScan _ _ _ _ _), .completed
  | .running (.addDevice _), .completed => some (.ended, [.done])
  | .running _, .threw => some (.ended, [])
  | .running _, _ => none

variable (Device DeviceLog)

def discovery : ChildIsolate where
  Task := DiscoveryTask Device
  Shared := Unit
  State := DiscoveryPoint Device
  Act := DiscoveryAct Device DeviceLog
  Data := DiscoveryResult Device DeviceLog
  fresh := ()
  listens
    | .listen | .subnetScan _ _ _ | .stagedScan _ _ _ _ _ | .deviceLogs _ => true
    | .announcement | .restart | .addDevice _ => false
  start _ task := ((), .running task)
  step _ _ point act := (discoveryStep point act).map fun r => ((), r)
  isOver
    | .running _ => false
    | .ended => true

/-- Nothing throws, and the devices do not come to an end. -/
def DiscoveryGood : DiscoveryPoint Device → DiscoveryAct Device DeviceLog → Prop
  | _, .threw => False
  | .running .listen, .completed => False
  | _, _ => True

end Discovery

/-! ## §2  Upload -/

inductive BaseHttpUploadTask where
  | files (files : List HttpUploadFile)
  | cancel (taskId : ℕ)

/-- The cancel tokens: which are registered, and which were cancelled by their
task. -/
structure CancelTokens where
  registered : List ℕ
  cancelled : List ℕ

inductive UploadPoint where
  /-- The client and the token are to be made. -/
  | starting (files : List HttpUploadFile)
  | pooling (files : List HttpUploadFile) (s : UploadTaskState)
  | ended

inductive UploadAct where
  | opened
  | progress (i : ℕ)
  | pool (a : UploadTaskAct)
  /-- An exception that is not one of a single file. -/
  | threw

/-- The task, as the tokens are. -/
def UploadTaskState.synced (id : ℕ) (tokens : CancelTokens) (s : UploadTaskState) :
    UploadTaskState :=
  { s with
    registered := id ∈ tokens.registered
    cancelled := s.cancelled || id ∈ tokens.cancelled }

/-- The request of the file is running. -/
def sending : FileRun → Bool
  | .adding _ | .requesting _ => true
  | _ => false

def CancelTokens.register (tokens : CancelTokens) (id : ℕ) : CancelTokens :=
  if id ∈ tokens.registered then tokens
  else { tokens with registered := tokens.registered ++ [id] }

def CancelTokens.remove (tokens : CancelTokens) (id : ℕ) : CancelTokens :=
  { tokens with registered := tokens.registered.filter (· ≠ id) }

/-- The handler of a cancel task. -/
def CancelTokens.cancel (tokens : CancelTokens) (taskId : ℕ) : CancelTokens :=
  if taskId ∈ tokens.registered then
    { registered := tokens.registered.filter (· ≠ taskId)
      cancelled := tokens.cancelled ++ [taskId] }
  else tokens

/-- What a step of the pool sends. -/
def poolReplies (s t : UploadTaskState) (a : UploadTaskAct) : List (Reply HttpUploadEvent) :=
  ((t.log.drop s.log.length).map fun e => .event e.2) ++ if a = .done then [.done] else []

def uploadStep (id : ℕ) (tokens : CancelTokens) : UploadPoint → UploadAct →
    Option (CancelTokens × UploadPoint × List (Reply HttpUploadEvent))
  | .starting files, .opened => some (tokens.register id, .pooling files (.init files), [])
  | .starting _, .threw => some (tokens, .ended, [])
  | .pooling files s, .progress i =>
      match s.runs[i]?, files[i]? with
      | some run, some file =>
          if sending run then some (tokens, .pooling files s, [.event (.progress file.fileId)])
          else none
      | _, _ => none
  | .pooling files s, .pool a =>
      -- a cancellation is a task of its own
      if a = .cancel then none
      else
        (uploadTaskStep files (UploadTaskState.synced id tokens s) a).map fun t =>
          (if a = .done then tokens.remove id else tokens, .pooling files t, poolReplies s t a)
  | .pooling files s, .threw =>
      if s.draining then some (tokens.remove id, .pooling files { s with draining := false }, [])
      else none
  | _, _ => none

def httpUpload : ChildIsolate where
  Task := BaseHttpUploadTask
  Shared := CancelTokens
  State := UploadPoint
  Act := UploadAct
  Data := HttpUploadEvent
  fresh := ⟨[], []⟩
  listens
    | .files _ => true
    | .cancel _ => false
  start tokens
    | .files files => (tokens, .starting files)
    | .cancel taskId => (tokens.cancel taskId, .ended)
  step := uploadStep
  isOver
    | .starting _ => false
    | .pooling _ s => !s.draining
    | .ended => true

def UploadGood (_ : UploadPoint) (a : UploadAct) : Prop := a ≠ .threw

/-! ## §3  Server -/

/-- The receive session that was accepted; the serial number tells sessions of
one id apart. -/
structure ReceiveSession where
  serial : ℕ
  sessionId : String
  fileIds : List String

structure SessionHolder where
  session : Option ReceiveSession
  /-- How many sessions there were. -/
  sessions : ℕ

structure HttpServerReceiveConfig where
  sessionId : String
  fileNameMap : AssocMap String String

inductive BaseHttpServerTask where
  | start
  | stop
  | updateRemoteFsAccess
  | prepareUploadDecision (config : Option HttpServerReceiveConfig)
  | cancelSession (sessionId : String)
  | prepareDownloadDecision
  | fileDownloadTarget
  | failFileDownload

section Server

variable (Info : Type)

inductive RsServerEvent where
  | prepareUpload (sessionId : String) (info : Info)
  | fileUpload (sessionId fileId : String) (info : Info)
  | sessionEnd (sessionId : String) (info : Info)
  /-- Any other event that is handed on. -/
  | other (info : Info)
  /-- A request for the remote file system, which is answered here. -/
  | remoteFs

inductive HttpServerEvent where
  | started
  | prepareUpload (sessionId : String) (info : Info)
  | fileUpload (sessionId fileId : String) (info : Info)
  | fileUploadProgress (sessionId fileId : String) (info : Info)
  | fileUploadResult (sessionId fileId : String) (info : Info)
  | sessionEnd (sessionId : String) (info : Info)
  | other (info : Info)

/-- An upload in the queue of its file. -/
structure QueuedUpload where
  serial : ℕ
  sessionId : String
  fileId : String
  info : Info
  started : Bool

inductive ServerPoint where
  | starting
  | serving (uploads : List (QueuedUpload Info))
  /-- The handler is over, its uploads may not be. -/
  | stopped (uploads : List (QueuedUpload Info))
  | stopping
  | answering
  | ended

inductive QueuedAct where
  | begin
  | progress (info : Info)
  | result (info : Info)
  | threw

inductive ServerAct where
  | started
  | startFailed (error : String)
  | event (event : RsServerEvent Info)
  | upload (i : ℕ) (act : QueuedAct Info)
  | completed
  | threw

variable {Info}

/-- The uploads of one file wait for each other. -/
def isNext (uploads : List (QueuedUpload Info)) (i : ℕ) (upload : QueuedUpload Info) : Bool :=
  (uploads.take i).all fun earlier =>
    (earlier.serial, earlier.fileId) ≠ (upload.serial, upload.fileId)

def queuedStep (uploads : List (QueuedUpload Info)) (i : ℕ) (act : QueuedAct Info) :
    Option (List (QueuedUpload Info) × List (Reply (HttpServerEvent Info))) :=
  match uploads[i]? with
  | none => none
  | some upload =>
      match upload.started, act with
      | false, .begin =>
          if isNext uploads i upload then
            some (uploads.set i { upload with started := true },
              [.event (.fileUpload upload.sessionId upload.fileId upload.info)])
          else none
      | true, .progress info =>
          some (uploads, [.event (.fileUploadProgress upload.sessionId upload.fileId info)])
      | true, .result info =>
          some (uploads.eraseIdx i,
            [.event (.fileUploadResult upload.sessionId upload.fileId info)])
      | true, .threw => some (uploads.eraseIdx i, [])
      | _, _ => none

/-- The session that an upload belongs to. -/
def SessionHolder.accepts (holder : SessionHolder) (sessionId fileId : String) :
    Option ReceiveSession :=
  holder.session.filter fun session =>
    session.sessionId = sessionId && session.fileIds.contains fileId

def SessionHolder.clear (holder : SessionHolder) : SessionHolder := { holder with session := none }

def SessionHolder.clearSession (holder : SessionHolder) (sessionId : String) : SessionHolder :=
  if holder.session.any fun session => session.sessionId = sessionId then holder.clear else holder

def SessionHolder.decide (holder : SessionHolder) (config : Option HttpServerReceiveConfig) :
    SessionHolder :=
  match config with
  | none => holder.clear
  | some config =>
      if config.fileNameMap.isEmpty then holder.clear
      else
        { session := some ⟨holder.sessions, config.sessionId, config.fileNameMap.keys⟩
          sessions := holder.sessions + 1 }

/-- The loop over the events of the server. -/
def eventStep (holder : SessionHolder) (uploads : List (QueuedUpload Info)) :
    RsServerEvent Info →
    SessionHolder × List (QueuedUpload Info) × List (Reply (HttpServerEvent Info))
  | .prepareUpload sessionId info =>
      (holder.clear, uploads, [.event (.prepareUpload sessionId info)])
  | .fileUpload sessionId fileId info =>
      match holder.accepts sessionId fileId with
      | some session => (holder, uploads ++ [⟨session.serial, sessionId, fileId, info, false⟩], [])
      -- rejected, with its session
      | none => (holder, uploads, [])
  | .sessionEnd sessionId info =>
      (holder.clearSession sessionId, uploads, [.event (.sessionEnd sessionId info)])
  | .other info => (holder, uploads, [.event (.other info)])
  | .remoteFs => (holder, uploads, [])

def serverStep (holder : SessionHolder) : ServerPoint Info → ServerAct Info →
    Option (SessionHolder × ServerPoint Info × List (Reply (HttpServerEvent Info)))
  | .starting, .started => some (holder, .serving [], [.event .started])
  | .starting, .startFailed error => some (holder, .ended, [.error error])
  | .starting, .threw => some (holder, .ended, [])
  | .serving uploads, .event event =>
      let r := eventStep holder uploads event
      some (r.1, .serving r.2.1, r.2.2)
  -- `finally`
  | .serving uploads, .completed | .serving uploads, .threw =>
      some (holder.clear, .stopped uploads, [.done])
  | .serving uploads, .upload i act =>
      (queuedStep uploads i act).map fun r => (holder, .serving r.1, r.2)
  | .stopped uploads, .upload i act =>
      (queuedStep uploads i act).map fun r => (holder, .stopped r.1, r.2)
  | .stopping, .completed => some (holder, .ended, [.done])
  | .stopping, .threw | .answering, .completed | .answering, .threw => some (holder, .ended, [])
  | _, _ => none

variable (Info)

def httpServer : ChildIsolate where
  Task := BaseHttpServerTask
  Shared := SessionHolder
  State := ServerPoint Info
  Act := ServerAct Info
  Data := HttpServerEvent Info
  fresh := ⟨none, 0⟩
  listens
    | .start | .stop => true
    | _ => false
  start holder
    | .start => (holder, .starting)
    | .stop => (holder.clear, .stopping)
    | .updateRemoteFsAccess => (holder, .ended)
    | .prepareUploadDecision config => (holder.decide config, .answering)
    | .cancelSession sessionId => (holder.clearSession sessionId, .answering)
    | .prepareDownloadDecision | .fileDownloadTarget | .failFileDownload => (holder, .answering)
  step _ := serverStep
  isOver
    | .starting | .serving _ | .stopping | .answering => false
    | .stopped _ | .ended => true

/-- The server starts and stops, and it receives nothing any more when its
events are over. -/
def ServerGood : ServerPoint Info → ServerAct Info → Prop
  | .starting, .startFailed _ | .starting, .threw | .stopping, .threw => False
  | .serving uploads, .completed | .serving uploads, .threw => uploads = []
  | _, _ => True

end Server

/-! ## §4  Orderly handlers -/

theorem discoveryStep_good {Device DeviceLog : Type} {point point' : DiscoveryPoint Device}
    {act : DiscoveryAct Device DeviceLog}
    {replies : List (Reply (DiscoveryResult Device DeviceLog))}
    (hgood : DiscoveryGood Device DeviceLog point act)
    (h : discoveryStep point act = some (point', replies)) :
    (discovery Device DeviceLog).isOver point = false ∧
      ∃ events : List (DiscoveryResult Device DeviceLog),
        replies = events.map .event ++ closing ((discovery Device DeviceLog).isOver point') := by
  cases point with
  | ended => cases h
  | running task =>
      refine ⟨rfl, ?_⟩
      cases act with
      | threw => exact hgood.elim
      | device device =>
          cases task with
          | listen =>
              obtain ⟨rfl, rfl⟩ := Prod.mk.inj (Option.some.inj h)
              exact ⟨[.device device], rfl⟩
          | _ => cases h
      | logs logs =>
          cases task with
          | deviceLogs fingerprint =>
              obtain ⟨rfl, rfl⟩ := Prod.mk.inj (Option.some.inj h)
              exact ⟨[.deviceLogs logs], rfl⟩
          | _ => cases h
      | completed =>
          cases task with
          | listen => exact hgood.elim
          | deviceLogs fingerprint => cases h
          | _ =>
              obtain ⟨rfl, rfl⟩ := Prod.mk.inj (Option.some.inj h)
              exact ⟨[], rfl⟩

theorem discovery_orderly (Device DeviceLog : Type) :
    Orderly (discovery Device DeviceLog) (DiscoveryGood Device DeviceLog) := by
  refine orderly_of_step (J := fun _ => True) (fun _ _ _ => ⟨trivial, rfl⟩) ?_
  intro id _ point act _ point' replies _ hgood hstep
  obtain ⟨⟨next, sent⟩, hpoint, heq⟩ := Option.map_eq_some_iff.mp hstep
  obtain ⟨rfl, rfl⟩ := Prod.mk.inj (Prod.mk.inj heq).2
  exact ⟨trivial, .inl (discoveryStep_good hgood hpoint)⟩

/-- A file moves, or the pool is drained. -/
theorem poolStep_cases {files : List HttpUploadFile} {s t : UploadTaskState} {a : UploadTaskAct}
    (ha : a ≠ .cancel) (h : uploadTaskStep files s a = some t) :
    (a ≠ .done ∧ t.draining = s.draining ∧ (∃ run ∈ s.runs, run.isOver = false) ∧
      ∃ events : List HttpUploadEvent, poolReplies s t a = events.map .event) ∨
    (a = .done ∧ s.draining = true ∧ t.draining = false ∧ t.runs = s.runs ∧
      (∀ run ∈ s.runs, run.isOver = true) ∧ poolReplies s t a = [.done]) := by
  have hmoves : ∀ {i : ℕ} {run run' : FileRun} {sent : List HttpUploadEvent}, a ≠ .done →
      FileMoves s t i run run' sent → poolReplies s t a = sent.map .event := by
    intro i run run' sent hdone hmoves
    unfold poolReplies
    rw [hmoves.log, List.drop_left, if_neg hdone, List.append_nil, List.map_map]
    rfl
  cases a with
  | take =>
      obtain ⟨i, file, -, -, ⟨-, hmove⟩ | ⟨-, hmove⟩⟩ := take_cases h
      · exact .inl ⟨nofun, hmove.draining, ⟨_, List.mem_of_getElem? hmove.found, rfl⟩, _,
          hmoves nofun hmove⟩
      · exact .inl ⟨nofun, hmove.draining, ⟨_, List.mem_of_getElem? hmove.found, rfl⟩, _,
          hmoves nofun hmove⟩
  | file i act =>
      obtain ⟨file, run, run', -, hrun, -, hmove⟩ := file_cases h
      have hopen := isOver_of_isActive (FileRun.step_cases hrun).1
      exact .inl ⟨nofun, hmove.draining, ⟨run, List.mem_of_getElem? hmove.found, hopen⟩, _,
        hmoves nofun hmove⟩
  | cancel => exact absurd rfl ha
  | done =>
      obtain ⟨hdraining, hover, rfl⟩ := done_cases h
      refine .inr ⟨rfl, hdraining, rfl, rfl, hover, ?_⟩
      unfold poolReplies
      rw [List.drop_length]
      rfl

/-- When the pool is drained every file is over. -/
def Drained : UploadPoint → Prop
  | .pooling _ s => s.draining = false → ∀ run ∈ s.runs, run.isOver = true
  | _ => True

theorem uploadStep_good {id : ℕ} {tokens tokens' : CancelTokens} {point point' : UploadPoint}
    {a : UploadAct} {replies : List (Reply HttpUploadEvent)} (hdrained : Drained point)
    (hgood : UploadGood point a)
    (h : uploadStep id tokens point a = some (tokens', point', replies)) :
    Drained point' ∧
      ((httpUpload.isOver point = false ∧
        ∃ events : List HttpUploadEvent,
          replies = events.map .event ++ closing (httpUpload.isOver point')) ∨
      (httpUpload.isOver point = true ∧ httpUpload.isOver point' = true ∧ replies = [])) := by
  cases point with
  | ended => cases h
  | starting files =>
      cases a with
      | opened =>
          obtain ⟨-, heq⟩ := Prod.mk.inj (Option.some.inj h)
          obtain ⟨rfl, rfl⟩ := Prod.mk.inj heq
          exact ⟨fun hdraining => (nomatch hdraining), .inl ⟨rfl, [], rfl⟩⟩
      | threw => exact absurd rfl hgood
      | progress i => cases h
      | pool a => cases h
  | pooling files s =>
      cases a with
      | opened => cases h
      | threw => exact absurd rfl hgood
      | progress i =>
          unfold uploadStep at h
          dsimp only at h
          split at h
          · rename_i run file hrun hfile
            split_ifs at h with hsending
            obtain ⟨-, heq⟩ := Prod.mk.inj (Option.some.inj h)
            obtain ⟨rfl, rfl⟩ := Prod.mk.inj heq
            refine ⟨hdrained, ?_⟩
            have hdraining : s.draining = true := by
              refine eq_true_of_ne_false fun hdraining => ?_
              have hover := hdrained hdraining run (List.mem_of_getElem? hrun)
              cases run with
              | adding ends => cases hover
              | requesting ends => cases hover
              | _ => cases hsending
            have hover : httpUpload.isOver (.pooling files s) = false := by
              show (!s.draining) = false
              rw [hdraining]
              rfl
            rw [hover]
            exact .inl ⟨rfl, [.progress file.fileId], rfl⟩
          · cases h
      | pool a =>
          unfold uploadStep at h
          dsimp only at h
          by_cases hcancel : a = .cancel
          · rw [if_pos hcancel] at h
            cases h
          · rw [if_neg hcancel] at h
            obtain ⟨t, hstep, heq⟩ := Option.map_eq_some_iff.mp h
            obtain ⟨-, heq⟩ := Prod.mk.inj heq
            obtain ⟨rfl, rfl⟩ := Prod.mk.inj heq
            have hover : ∀ s : UploadTaskState,
                httpUpload.isOver (.pooling files s) = !s.draining := fun _ => rfl
            rw [hover, hover]
            obtain ⟨-, hdraining, ⟨run, hrun, hopen⟩, events, hreplies⟩ |
              ⟨-, hdraining, hdraining', hruns, hall, hreplies⟩ := poolStep_cases hcancel hstep
            · -- a file that is not over is there while the pool is drained only
              have hstill : s.draining = true := by
                refine eq_true_of_ne_false fun hended => ?_
                have hover := hdrained hended run hrun
                rw [hopen] at hover
                cases hover
              have hdraining : t.draining = true := hdraining.trans hstill
              refine ⟨fun hended => ?_, .inl ⟨by rw [hstill]; rfl, events, ?_⟩⟩
              · rw [hdraining] at hended
                cases hended
              · rw [hdraining]
                exact hreplies.trans (List.append_nil _).symm
            · have hstill : s.draining = true := hdraining
              refine ⟨fun _ => hruns ▸ hall, .inl ⟨by rw [hstill]; rfl, [], ?_⟩⟩
              rw [hdraining']
              exact hreplies

theorem upload_orderly : Orderly httpUpload UploadGood := by
  refine orderly_of_step (J := Drained) (fun tokens task hlistens => ?_) ?_
  · cases task with
    | files files => exact ⟨trivial, rfl⟩
    | cancel taskId => cases hlistens
  · intro id tokens point a tokens' point' replies hdrained hgood hstep
    exact uploadStep_good hdrained hgood hstep

/-- Where a task is that starts or stops the server; no upload is left when its
handler is over. -/
def Finished {Info : Type} : ServerPoint Info → Prop
  | .stopped uploads => uploads = []
  | .answering => False
  | _ => True

theorem queuedStep_events {Info : Type} {uploads uploads' : List (QueuedUpload Info)} {i : ℕ}
    {act : QueuedAct Info} {replies : List (Reply (HttpServerEvent Info))}
    (h : queuedStep uploads i act = some (uploads', replies)) :
    uploads ≠ [] ∧ ∃ events : List (HttpServerEvent Info), replies = events.map .event := by
  unfold queuedStep at h
  split at h
  · cases h
  · rename_i upload hupload
    have hsome : uploads ≠ [] := by
      rintro rfl
      cases hupload
    refine ⟨hsome, ?_⟩
    split at h
    · split_ifs at h
      obtain ⟨-, rfl⟩ := Prod.mk.inj (Option.some.inj h)
      exact ⟨[_], rfl⟩
    · obtain ⟨-, rfl⟩ := Prod.mk.inj (Option.some.inj h)
      exact ⟨[_], rfl⟩
    · obtain ⟨-, rfl⟩ := Prod.mk.inj (Option.some.inj h)
      exact ⟨[_], rfl⟩
    · obtain ⟨-, rfl⟩ := Prod.mk.inj (Option.some.inj h)
      exact ⟨[], rfl⟩
    · cases h

theorem eventStep_events {Info : Type} (holder : SessionHolder)
    (uploads : List (QueuedUpload Info)) (event : RsServerEvent Info) :
    ∃ events : List (HttpServerEvent Info),
      (eventStep holder uploads event).2.2 = events.map .event := by
  cases event with
  | prepareUpload sessionId info => exact ⟨[_], rfl⟩
  | fileUpload sessionId fileId info =>
      unfold eventStep
      dsimp only
      split
      · exact ⟨[], rfl⟩
      · exact ⟨[], rfl⟩
  | sessionEnd sessionId info => exact ⟨[_], rfl⟩
  | other info => exact ⟨[_], rfl⟩
  | remoteFs => exact ⟨[], rfl⟩

theorem serverStep_good {Info : Type} {holder holder' : SessionHolder}
    {point point' : ServerPoint Info} {a : ServerAct Info}
    {replies : List (Reply (HttpServerEvent Info))} (hfinished : Finished point)
    (hgood : ServerGood Info point a)
    (h : serverStep holder point a = some (holder', point', replies)) :
    Finished point' ∧ (httpServer Info).isOver point = false ∧
      ∃ events : List (HttpServerEvent Info),
        replies = events.map .event ++ closing ((httpServer Info).isOver point') := by
  cases point with
  | starting =>
      cases a with
      | started =>
          obtain ⟨-, heq⟩ := Prod.mk.inj (Option.some.inj h)
          obtain ⟨rfl, rfl⟩ := Prod.mk.inj heq
          exact ⟨trivial, rfl, [.started], rfl⟩
      | startFailed error => exact hgood.elim
      | threw => exact hgood.elim
      | _ => cases h
  | serving uploads =>
      cases a with
      | event event =>
          obtain ⟨-, heq⟩ := Prod.mk.inj (Option.some.inj h)
          obtain ⟨rfl, rfl⟩ := Prod.mk.inj heq
          obtain ⟨events, hevents⟩ := eventStep_events holder uploads event
          exact ⟨trivial, rfl, events, hevents.trans (List.append_nil _).symm⟩
      | upload i act =>
          obtain ⟨⟨uploads', sent⟩, hqueued, heq⟩ := Option.map_eq_some_iff.mp h
          obtain ⟨-, heq⟩ := Prod.mk.inj heq
          obtain ⟨rfl, rfl⟩ := Prod.mk.inj heq
          obtain ⟨-, events, hevents⟩ := queuedStep_events hqueued
          exact ⟨trivial, rfl, events, hevents.trans (List.append_nil _).symm⟩
      | completed =>
          obtain ⟨-, heq⟩ := Prod.mk.inj (Option.some.inj h)
          obtain ⟨rfl, rfl⟩ := Prod.mk.inj heq
          exact ⟨hgood, rfl, [], rfl⟩
      | threw =>
          obtain ⟨-, heq⟩ := Prod.mk.inj (Option.some.inj h)
          obtain ⟨rfl, rfl⟩ := Prod.mk.inj heq
          exact ⟨hgood, rfl, [], rfl⟩
      | _ => cases h
  | stopped uploads =>
      cases a with
      | upload i act =>
          -- nothing is left of the uploads
          obtain ⟨⟨uploads', sent⟩, hqueued, -⟩ := Option.map_eq_some_iff.mp h
          exact absurd hfinished (queuedStep_events hqueued).1
      | _ => cases h
  | stopping =>
      cases a with
      | completed =>
          obtain ⟨-, heq⟩ := Prod.mk.inj (Option.some.inj h)
          obtain ⟨rfl, rfl⟩ := Prod.mk.inj heq
          exact ⟨trivial, rfl, [], rfl⟩
      | threw => exact hgood.elim
      | _ => cases h
  | answering => exact hfinished.elim
  | ended => cases h

theorem server_orderly (Info : Type) : Orderly (httpServer Info) (ServerGood Info) := by
  refine orderly_of_step (J := Finished) (fun holder task hlistens => ?_) ?_
  · cases task with
    | start => exact ⟨trivial, rfl⟩
    | stop => exact ⟨trivial, rfl⟩
    | _ => cases hlistens
  · intro id holder point a holder' point' replies hfinished hgood hstep
    obtain ⟨hfinished', hover, hevents⟩ := serverStep_good hfinished hgood hstep
    exact ⟨hfinished', .inl ⟨hover, hevents⟩⟩

/-! ## §5  Streams that end, and one that does not -/

/-- **Task streams end**, in every interleaving of the tasks of an isolate whose
listened handlers take good steps. -/
theorem taskStreams_end (Device DeviceLog Info : Type) :
    StreamsEnd (discovery Device DeviceLog) (DiscoveryGood Device DeviceLog) ∧
    StreamsEnd httpUpload UploadGood ∧
    StreamsEnd (httpServer Info) (ServerGood Info) :=
  ⟨(discovery_orderly Device DeviceLog).streamsEnd, upload_orderly.streamsEnd,
    (server_orderly Info).streamsEnd⟩

/-- A task without files. -/
def noFiles : List (Label UploadAct (LinkAct httpUpload)) :=
  [.env (.send (.files [])), .env .handleMessage, .task 0 .opened, .task 0 (.pool .done),
    .env .receive]

/-- Its stream delivers nothing and is closed. -/
theorem taskStreams_end_noFiles : ∃ p stream,
    Run (machine httpUpload).poolStep (GoodSteps UploadGood) (initial httpUpload) p ∧
      p.shared.streams = [(0, stream)] ∧ stream.closed = true ∧
        ∃ later, itemsOf (repliesOf 0 p.log) = stream.items ++ later := by
  obtain ⟨p, hexec, hcheck⟩ := exists_of_exec_any (machine httpUpload).poolStep
    (initial httpUpload) noFiles
    (fun p => p.shared.streams.map (fun s => (s.1, s.2.closed)) = [(0, true)]) (by decide)
  have hguard : Guarded (machine httpUpload).poolStep (GoodSteps UploadGood)
      (initial httpUpload) noFiles :=
    ⟨trivial, fun _ _ => ⟨trivial, fun _ _ => ⟨fun _ _ _ => nofun, fun _ _ =>
      ⟨fun _ _ _ => nofun, fun _ _ => ⟨trivial, fun _ _ => trivial⟩⟩⟩⟩⟩
  have hrun := run_of_exec hexec hguard
  obtain ⟨⟨id, stream⟩, hstreams, hstream⟩ := List.map_eq_singleton_iff.mp
    (of_decide_eq_true hcheck)
  obtain ⟨rfl, hclosed⟩ := Prod.mk.inj hstream
  refine ⟨p, stream, hrun, hstreams, hclosed, ?_⟩
  exact ((taskStreams_end Unit Unit Unit).2.1 p hrun 0 stream
    (hstreams ▸ List.mem_singleton_self _)).1

/-- The server is started on a port that is in use. -/
def portInUse : List (Label (ServerAct Unit) (LinkAct (httpServer Unit))) :=
  [.env (.send .start), .env .handleMessage, .task 0 (.startFailed "Address already in use"),
    .env .receive]

/-- The handler has ended, everything has arrived, and the stream stays open
with its subscription behind the error. -/
theorem failed_start_stays_open : ∃ p,
    Reach (machine (httpServer Unit)).poolStep (initial (httpServer Unit)) p ∧
      p.tasks = [⟨0, .start, .ended⟩] ∧ p.shared.toMain = [] ∧
      p.shared.streams = [(0, ⟨[.error "Address already in use"], false, true⟩)] := by
  have hrun : exec (machine (httpServer Unit)).poolStep (initial (httpServer Unit)) portInUse =
      some _ := rfl
  exact ⟨_, reach_of_exec hrun, rfl, rfl, rfl⟩

end Isolates

end FireBoxTransfer

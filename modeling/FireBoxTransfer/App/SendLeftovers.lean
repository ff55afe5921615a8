import FireBoxTransfer.App.SendOutcome

/-!
# What a removed send session leaves behind

`startSession` waits for the checksums, for the receiver, for the user and for the events of
the upload. The session can be removed at any of these, and what comes after goes on without
it.
-/

namespace FireBoxTransfer

open Runs

/-! ## §1  The call -/

/-- What a call of `startSession` waits for. -/
inductive StartPoint where
  /-- The checksum of the first of the files that are left. -/
  | hashing (hashes : AssocMap String String) (rest : List String)
  /-- The answer to the prepare-upload request. -/
  | preparing (files : AssocMap String SendingFile)
  | sleeping (files : AssocMap String SendingFile)
  | pinDialog (files : AssocMap String SendingFile)
  | uploading (taskId : ℕ) (files : List HttpUploadFile)
  /-- `_sendFiles` has returned. -/
  | returning
  | returned
deriving DecidableEq

inductive PrepareAnswer where
  | status (code : ℕ)
  /-- Any other error. -/
  | failed
  | nothingSelected
  /-- A success without a response. -/
  | noResponse
  | accepted (remoteSessionId : String) (files : AssocMap String String)
deriving DecidableEq

inductive CallAct where
  /-- Progress of a checksum. -/
  | progress
  | hashed (hash : Option String)
  | answered (answer : PrepareAnswer) (taskId : ℕ)
  | slept
  | pin (pin : Option String)
  | event (event : HttpUploadEvent)
  | taskFailed
  | taskDone
  | finish
deriving DecidableEq

/-- The status that tells of an error of the request. -/
def prepareStatus : ℕ → SessionStatus
  | 403 => .declined
  | 409 => .recipientBusy
  | 429 => .tooManyAttempts
  | _ => .finishedWithErrors

namespace SendProvider

variable (p : SendProvider) (sessionId : String)

def endHashing : SendProvider :=
  { p with hashCancelTokens := p.hashCancelTokens.filter fun id _ => id ≠ sessionId }

def endPreparing : SendProvider :=
  { p with
    prepareUploadCancelTokens := p.prepareUploadCancelTokens.filter fun id _ => id ≠ sessionId }

/-- From the last checksum to the request, which names them. -/
def prepare (hashes : AssocMap String String) : SendProvider × StartPoint :=
  match p.state.get? sessionId with
  | none => (p, .returned)
  | some session =>
      let files := session.files.mapVal fun id (file : SendingFile) =>
        { file with file := { file.file with sha256 := hashes.get? id } }
      let p := p.updateSession sessionId fun s => { s with files }
      ({ p with
          prepareUploadCancelTokens := p.prepareUploadCancelTokens.insert sessionId () },
        .preparing files)

/-- `startSession`, up to its first await. -/
def startSession (files : List SendingFile) (background createChecksums : Bool) :
    SendProvider × StartPoint :=
  let session : SendSessionState :=
    ⟨none, background, .waiting, .ofList (files.map fun file => (file.file.id, file)), []⟩
  let p := { p with
    state := p.state.insert sessionId session
    transfers := p.transfers.setStatuses sessionId
      (files.map fun (file : SendingFile) => (file.file.id, .queue)) }
  if createChecksums && !files.isEmpty then
    ({ p with hashCancelTokens := p.hashCancelTokens.insert sessionId () },
      .hashing .empty (files.map fun file => file.file.id))
  else p.prepare sessionId .empty

/-- From the answer of the receiver to the first event of the upload. -/
def answered (files : AssocMap String SendingFile) (taskId : ℕ) :
    PrepareAnswer → SendProvider × StartPoint
  | .status code =>
      if code = 401 then (p, .sleeping files)
      else ((p.setStatus sessionId (prepareStatus code)).endPreparing sessionId, .returned)
  | .failed => ((p.setStatus sessionId .finishedWithErrors).endPreparing sessionId, .returned)
  | .noResponse =>
      ((p.endPreparing sessionId).setStatus sessionId .finishedWithErrors, .returned)
  | .nothingSelected =>
      (((p.endPreparing sessionId).setStatus sessionId .finished).closeSession sessionId,
        .returned)
  | .accepted remoteSessionId fileMap =>
      let p := (p.endPreparing sessionId).updateSession sessionId fun s =>
        { s with remoteSessionId := some remoteSessionId }
      if fileMap.isEmpty then
        ((p.setStatus sessionId .finished).closeSession sessionId, .returned)
      else
        let (p, sendingFiles) := p.beginUpload sessionId files fileMap
        let (p, loop) := p.sendFiles sessionId false taskId sendingFiles.values
        (p, if loop.point = .uploading then .uploading taskId loop.files else .returning)

def resume : StartPoint → CallAct → Option (SendProvider × StartPoint)
  | .hashing hashes (id :: rest), .progress =>
      match p.state.get? sessionId with
      | none => some (p, .hashing hashes (id :: rest))
      | some _ =>
          some ({ p with transfers := p.transfers.setProgress sessionId id },
            .hashing hashes (id :: rest))
  | .hashing hashes (id :: rest), .hashed hash =>
      match p.state.get? sessionId with
      | none => some (p.endHashing sessionId, .returned)
      | some _ =>
          let p := { p with transfers := p.transfers.setProgress sessionId id }
          let hashes := match hash with
            | some hash => hashes.insert id hash
            | none => hashes
          match rest with
          | [] => some ((p.endHashing sessionId).prepare sessionId hashes)
          | rest => some (p, .hashing hashes rest)
  | .preparing files, .answered answer taskId => some (p.answered sessionId files taskId answer)
  | .sleeping files, .slept => some (p, .pinDialog files)
  | .pinDialog files, .pin (some _) => some (p, .preparing files)
  | .pinDialog _, .pin none =>
      some ((p.setStatus sessionId .canceledBySender).endPreparing sessionId, .returned)
  | .uploading taskId files, .event event =>
      some (p.onEvent sessionId event, .uploading taskId files)
  | .uploading taskId files, .taskFailed =>
      some ((p.onTaskFailed sessionId files).removeTask sessionId taskId, .returning)
  | .uploading taskId _, .taskDone => some (p.removeTask sessionId taskId, .returning)
  | .returning, .finish => some (p.finish sessionId, .returned)
  | _, _ => none

end SendProvider

/-! ## §2  The system -/

/-- The provider, with the calls of `startSession` under the ids of their sessions. -/
structure SendSystem where
  provider : SendProvider
  points : AssocMap String StartPoint

inductive SystemAct where
  | startSession (sessionId : String) (files : List SendingFile)
      (background createChecksums : Bool)
  | resume (sessionId : String) (act : CallAct)
  | cancelSession (sessionId : String)
  | closeSession (sessionId : String)
  | clearAllSessions
  /-- A transfer in the other direction. -/
  | receive (sessionId : String)
  | received (sessionId : String)
deriving DecidableEq

def SendSystem.init : SendSystem := ⟨⟨.empty, .empty, .empty, AssocMap.empty, .none⟩, .empty⟩

/-- The ids of sessions are never given twice. -/
def systemStep (s : SendSystem) : SystemAct → Option SendSystem
  | .startSession sessionId files background createChecksums =>
      if s.points.get? sessionId = none ∧ s.provider.notification.contains sessionId = false then
        let (provider, point) := s.provider.startSession sessionId files background createChecksums
        some ⟨provider, s.points.insert sessionId point⟩
      else none
  | .resume sessionId act =>
      (s.points.get? sessionId).bind fun point =>
        (s.provider.resume sessionId point act).map fun (provider, point) =>
          ⟨provider, s.points.insert sessionId point⟩
  | .cancelSession sessionId => some { s with provider := s.provider.cancelSession sessionId }
  | .closeSession sessionId => some { s with provider := s.provider.closeSession sessionId }
  | .clearAllSessions => some { s with provider := s.provider.clearAllSessions }
  | .receive sessionId =>
      if s.points.get? sessionId = none then
        some { s with provider := { s.provider with
          notification := s.provider.notification.start sessionId true } }
      else none
  | .received sessionId =>
      if s.points.get? sessionId = none then
        some { s with provider := { s.provider with
          notification := s.provider.notification.stop sessionId } }
      else none

/-- No entry is left under the id of the session. -/
structure Clean (p : SendProvider) (sessionId : String) : Prop where
  transfers : AssocMap.get? p.transfers sessionId = none
  hashCancelTokens : p.hashCancelTokens.get? sessionId = none
  prepareUploadCancelTokens : p.prepareUploadCancelTokens.get? sessionId = none
  notification : p.notification.contains sessionId = false

/-- The call makes entries for the statuses of the files, without a look at the session. -/
def CallAct.registers : CallAct → Bool
  | .answered (.accepted _ files) _ => !files.isEmpty
  | .event _ | .taskFailed => true
  | _ => false

/-- Entries are made only for a session that is there. -/
def RegistersInTime (s : SendSystem) : SystemAct → Prop
  | .resume sessionId act => act.registers = true →
      (s.provider.state.get? sessionId).isSome = true
  | _ => True

instance RegistersInTime.decidable (s : SendSystem) : ∀ a, Decidable (RegistersInTime s a)
  | .resume sessionId act => inferInstanceAs (Decidable (act.registers = true →
      (s.provider.state.get? sessionId).isSome = true))
  | .startSession .. | .cancelSession _ | .closeSession _ | .clearAllSessions | .receive _
  | .received _ => .isTrue trivial

/-! ## §3  Entries of other sessions -/

/-- The entries under an id are the same. -/
structure SameEntries (p q : SendProvider) (id : String) : Prop where
  state : q.state.get? id = p.state.get? id
  transfers : AssocMap.get? q.transfers id = AssocMap.get? p.transfers id
  hash : q.hashCancelTokens.get? id = p.hashCancelTokens.get? id
  prepare : q.prepareUploadCancelTokens.get? id = p.prepareUploadCancelTokens.get? id
  notification : q.notification.contains id = p.notification.contains id

section Frame

variable {p q r : SendProvider} {sessionId id : String}

theorem SameEntries.refl (p : SendProvider) (id : String) : SameEntries p p id :=
  ⟨rfl, rfl, rfl, rfl, rfl⟩

theorem SameEntries.trans (h : SameEntries p q id) (h' : SameEntries q r id) :
    SameEntries p r id :=
  ⟨h'.state.trans h.state, h'.transfers.trans h.transfers, h'.hash.trans h.hash,
    h'.prepare.trans h.prepare, h'.notification.trans h.notification⟩

theorem get?_erase_ne {α : Type*} (m : AssocMap String α) (hid : id ≠ sessionId) :
    (m.filter fun key _ => key ≠ sessionId).get? id = m.get? id := by
  rw [AssocMap.get?_filter_ne, if_neg hid]

theorem contains_start_ne (t : TransferNotification) (receiving : Bool) (hid : id ≠ sessionId) :
    (t.start sessionId receiving).contains id = t.contains id := by
  simp [TransferNotification.contains_start, hid]

theorem contains_stop_ne (t : TransferNotification) (hid : id ≠ sessionId) :
    (t.stop sessionId).contains id = t.contains id := by
  simp [TransferNotification.contains_stop, hid]

theorem setStatuses_ne (t : FileTransfers) (statuses : List (String × FileStatus))
    (hid : id ≠ sessionId) :
    AssocMap.get? (t.setStatuses sessionId statuses) id = AssocMap.get? t id :=
  AssocMap.get?_insert_ne hid

theorem setProgress_ne (t : FileTransfers) (fileId : String) (hid : id ≠ sessionId) :
    AssocMap.get? (t.setProgress sessionId fileId) id = AssocMap.get? t id := by
  unfold FileTransfers.setProgress
  split
  · rfl
  · exact setStatuses_ne t _ hid

theorem updateSession_frame (p : SendProvider) (f : SendSessionState → SendSessionState)
    (hid : id ≠ sessionId) : SameEntries p (p.updateSession sessionId f) id := by
  unfold SendProvider.updateSession
  cases p.state.get? sessionId with
  | none => exact .refl p id
  | some session => exact ⟨AssocMap.get?_insert_ne hid, rfl, rfl, rfl, rfl⟩

theorem onEvent_frame (p : SendProvider) (event : HttpUploadEvent) (hid : id ≠ sessionId) :
    SameEntries p (p.onEvent sessionId event) id := by
  cases event with
  | started fileId => exact ⟨rfl, setStatuses_ne _ _ hid, rfl, rfl, rfl⟩
  | progress fileId => exact ⟨rfl, setProgress_ne _ _ hid, rfl, rfl, rfl⟩
  | finished fileId =>
      exact ⟨rfl, (setStatuses_ne _ _ hid).trans (setProgress_ne _ _ hid), rfl, rfl, rfl⟩
  | failed fileId => exact ⟨rfl, setStatuses_ne _ _ hid, rfl, rfl, rfl⟩

theorem onTaskFailed_frame (p : SendProvider) (files : List HttpUploadFile)
    (hid : id ≠ sessionId) : SameEntries p (p.onTaskFailed sessionId files) id :=
  ⟨rfl, setStatuses_ne _ _ hid, rfl, rfl, rfl⟩

theorem endHashing_frame (p : SendProvider) (hid : id ≠ sessionId) :
    SameEntries p (p.endHashing sessionId) id :=
  ⟨rfl, rfl, get?_erase_ne _ hid, rfl, rfl⟩

theorem endPreparing_frame (p : SendProvider) (hid : id ≠ sessionId) :
    SameEntries p (p.endPreparing sessionId) id :=
  ⟨rfl, rfl, rfl, get?_erase_ne _ hid, rfl⟩

theorem closeSession_frame (p : SendProvider) (hid : id ≠ sessionId) :
    SameEntries p (p.closeSession sessionId) id := by
  unfold SendProvider.closeSession
  cases p.state.get? sessionId with
  | none => exact .refl p id
  | some session =>
      exact ⟨get?_erase_ne _ hid, get?_erase_ne _ hid, get?_erase_ne _ hid, get?_erase_ne _ hid,
        contains_stop_ne _ hid⟩

theorem cancelSession_frame (p : SendProvider) (hid : id ≠ sessionId) :
    SameEntries p (p.cancelSession sessionId) id := by
  unfold SendProvider.cancelSession
  cases p.state.get? sessionId with
  | none => exact .refl p id
  | some session =>
      refine SameEntries.trans ?_ (closeSession_frame _ hid)
      exact ⟨rfl, rfl, get?_erase_ne _ hid, get?_erase_ne _ hid, rfl⟩

theorem finish_frame (p : SendProvider) (hid : id ≠ sessionId) :
    SameEntries p (p.finish sessionId) id := by
  unfold SendProvider.finish
  cases p.state.get? sessionId with
  | none => exact .refl p id
  | some session =>
      have hstop : SameEntries p { p with notification := p.notification.stop sessionId } id :=
        ⟨rfl, rfl, rfl, rfl, contains_stop_ne _ hid⟩
      simp only
      split_ifs
      · exact hstop
      · exact hstop.trans (closeSession_frame _ hid)
      · exact hstop.trans (updateSession_frame _ _ hid)
      · exact hstop.trans (updateSession_frame _ _ hid)

theorem beginUpload_frame (p : SendProvider) (files : AssocMap String SendingFile)
    (fileMap : AssocMap String String) (hid : id ≠ sessionId) :
    SameEntries p (p.beginUpload sessionId files fileMap).1 id := by
  have hstatuses : SameEntries p { p with
      transfers := (p.transfers.removeSession sessionId).setStatuses sessionId
        ((p.beginUpload sessionId files fileMap).2.values.map fun file =>
          (file.file.id, beginStatus file)) } id :=
    ⟨rfl, (setStatuses_ne _ _ hid).trans (get?_erase_ne _ hid), rfl, rfl, rfl⟩
  have hsession := hstatuses.trans (updateSession_frame _ (fun s => { s with
    status := .sending, files := (p.beginUpload sessionId files fileMap).2 }) hid)
  exact hsession.trans ⟨rfl, rfl, rfl, rfl, contains_start_ne _ _ hid⟩

theorem sendFiles_frame (p : SendProvider) (isRetry : Bool) (taskId : ℕ)
    (files : List SendingFile) (hid : id ≠ sessionId) :
    SameEntries p (p.sendFiles sessionId isRetry taskId files).1 id := by
  unfold SendProvider.sendFiles
  cases p.state.get? sessionId with
  | none => exact .refl p id
  | some session =>
      simp only
      split_ifs
      · exact .refl p id
      · exact updateSession_frame _ _ hid

theorem prepare_frame (p : SendProvider) (hashes : AssocMap String String)
    (hid : id ≠ sessionId) : SameEntries p (p.prepare sessionId hashes).1 id := by
  unfold SendProvider.prepare
  cases p.state.get? sessionId with
  | none => exact .refl p id
  | some session =>
      exact (updateSession_frame _ _ hid).trans
        ⟨rfl, rfl, rfl, AssocMap.get?_insert_ne hid, rfl⟩

theorem startSession_frame (p : SendProvider) (files : List SendingFile)
    (background createChecksums : Bool) (hid : id ≠ sessionId) :
    SameEntries p (p.startSession sessionId files background createChecksums).1 id := by
  unfold SendProvider.startSession
  split_ifs
  · exact ⟨AssocMap.get?_insert_ne hid, setStatuses_ne _ _ hid, AssocMap.get?_insert_ne hid, rfl,
      rfl⟩
  · refine SameEntries.trans ?_ (prepare_frame _ _ hid)
    exact ⟨AssocMap.get?_insert_ne hid, setStatuses_ne _ _ hid, rfl, rfl, rfl⟩

theorem answered_frame (p : SendProvider) (files : AssocMap String SendingFile) (taskId : ℕ)
    (answer : PrepareAnswer) (hid : id ≠ sessionId) :
    SameEntries p (p.answered sessionId files taskId answer).1 id := by
  cases answer with
  | status code =>
      simp only [SendProvider.answered]
      split_ifs
      · exact .refl p id
      · exact (updateSession_frame _ _ hid).trans (endPreparing_frame _ hid)
  | failed => exact (updateSession_frame _ _ hid).trans (endPreparing_frame _ hid)
  | noResponse => exact (endPreparing_frame _ hid).trans (updateSession_frame _ _ hid)
  | nothingSelected =>
      exact ((endPreparing_frame _ hid).trans (updateSession_frame _ _ hid)).trans
        (closeSession_frame _ hid)
  | accepted remoteSessionId fileMap =>
      have hremote := (endPreparing_frame p hid).trans (updateSession_frame _ (fun s =>
        { s with remoteSessionId := some remoteSessionId }) hid)
      simp only [SendProvider.answered]
      split_ifs
      · exact (hremote.trans (updateSession_frame _ _ hid)).trans (closeSession_frame _ hid)
      · exact (hremote.trans (beginUpload_frame _ _ _ hid)).trans (sendFiles_frame _ _ _ _ hid)
      · exact (hremote.trans (beginUpload_frame _ _ _ hid)).trans (sendFiles_frame _ _ _ _ hid)

end Frame

/-! ## §4  Entries of the session -/

/-- A session that is gone has neither statuses nor a notification. -/
def Gone (p : SendProvider) (sessionId : String) : Prop :=
  p.state.get? sessionId = none →
    AssocMap.get? p.transfers sessionId = none ∧ p.notification.contains sessionId = false

/-- No token of the session is new. -/
structure FewerTokens (p q : SendProvider) (sessionId : String) : Prop where
  hash : (q.hashCancelTokens.get? sessionId).isSome = true →
    (p.hashCancelTokens.get? sessionId).isSome = true
  prepare : (q.prepareUploadCancelTokens.get? sessionId).isSome = true →
    (p.prepareUploadCancelTokens.get? sessionId).isSome = true

section Own

variable {p q r : SendProvider} {sessionId : String}

theorem gone_of_isSome (h : (p.state.get? sessionId).isSome = true) : Gone p sessionId := by
  intro hnone
  rw [hnone] at h
  cases h

theorem FewerTokens.refl (p : SendProvider) (sessionId : String) : FewerTokens p p sessionId :=
  ⟨id, id⟩

theorem FewerTokens.trans (h : FewerTokens p q sessionId) (h' : FewerTokens q r sessionId) :
    FewerTokens p r sessionId :=
  ⟨fun hash => h.hash (h'.hash hash), fun prepare => h.prepare (h'.prepare prepare)⟩

theorem erase_self {α : Type*} (m : AssocMap String α) :
    (m.filter fun key _ => key ≠ sessionId).get? sessionId = none := by
  rw [AssocMap.get?_filter_ne, if_pos rfl]

theorem isSome_erase {α : Type*} {m : AssocMap String α}
    (h : ((m.filter fun key _ => key ≠ sessionId).get? sessionId).isSome = true) :
    (m.get? sessionId).isSome = true := by
  rw [erase_self] at h
  cases h

theorem updateSession_isSome (p : SendProvider) (f : SendSessionState → SendSessionState) :
    ((p.updateSession sessionId f).state.get? sessionId).isSome =
      (p.state.get? sessionId).isSome := by
  rw [updateSession_get?, Option.isSome_map]

theorem updateSession_fewer (p : SendProvider) (sessionId : String)
    (f : SendSessionState → SendSessionState) :
    FewerTokens p (p.updateSession sessionId f) sessionId := by
  unfold SendProvider.updateSession
  cases p.state.get? sessionId <;> exact ⟨id, id⟩

theorem Gone.updateSession (h : Gone p sessionId) (f : SendSessionState → SendSessionState) :
    Gone (p.updateSession sessionId f) sessionId := by
  intro hnone
  rw [updateSession_get?, Option.map_eq_none_iff] at hnone
  unfold SendProvider.updateSession
  rw [hnone]
  exact h hnone

theorem closeSession_fewer (p : SendProvider) :
    FewerTokens p (p.closeSession sessionId) sessionId := by
  unfold SendProvider.closeSession
  cases p.state.get? sessionId with
  | none => exact .refl ..
  | some session => exact ⟨isSome_erase, isSome_erase⟩

/-- **A session that is closed** takes its entries with it. -/
theorem Gone.closeSession (h : Gone p sessionId) : Gone (p.closeSession sessionId) sessionId := by
  unfold SendProvider.closeSession
  cases hsession : p.state.get? sessionId with
  | none => exact h
  | some session =>
      intro _
      refine ⟨erase_self _, ?_⟩
      simp [TransferNotification.contains_stop]

theorem cancelSession_fewer (p : SendProvider) :
    FewerTokens p (p.cancelSession sessionId) sessionId := by
  unfold SendProvider.cancelSession
  cases p.state.get? sessionId with
  | none => exact .refl ..
  | some session =>
      have hcancel : FewerTokens p (p.cancelRunningRequests sessionId) sessionId :=
        ⟨isSome_erase, isSome_erase⟩
      exact hcancel.trans (closeSession_fewer _)

theorem Gone.cancelSession (h : Gone p sessionId) :
    Gone (p.cancelSession sessionId) sessionId := by
  unfold SendProvider.cancelSession
  cases hsession : p.state.get? sessionId with
  | none => exact h
  | some session =>
      have hcancel : Gone (p.cancelRunningRequests sessionId) sessionId := h
      exact hcancel.closeSession

theorem finish_fewer (p : SendProvider) : FewerTokens p (p.finish sessionId) sessionId := by
  unfold SendProvider.finish
  cases p.state.get? sessionId with
  | none => exact .refl ..
  | some session =>
      have hstop : FewerTokens p { p with notification := p.notification.stop sessionId }
          sessionId := ⟨id, id⟩
      simp only
      split_ifs
      · exact hstop
      · exact hstop.trans (closeSession_fewer _)
      · exact hstop.trans (updateSession_fewer _ _ _)
      · exact hstop.trans (updateSession_fewer _ _ _)

theorem Gone.finish (h : Gone p sessionId) : Gone (p.finish sessionId) sessionId := by
  cases hsession : p.state.get? sessionId with
  | none => rwa [finish_of_none hsession]
  | some session =>
      unfold SendProvider.finish
      simp only [hsession]
      have hstop : Gone { p with notification := p.notification.stop sessionId } sessionId :=
        gone_of_isSome (by rw [hsession]; rfl)
      split_ifs
      · exact hstop
      · exact hstop.closeSession
      · exact hstop.updateSession _
      · exact hstop.updateSession _

theorem beginUpload_fewer (p : SendProvider) (files : AssocMap String SendingFile)
    (fileMap : AssocMap String String) :
    FewerTokens p (p.beginUpload sessionId files fileMap).1 sessionId := by
  have hsession := updateSession_fewer { p with
      transfers := (p.transfers.removeSession sessionId).setStatuses sessionId
        ((p.beginUpload sessionId files fileMap).2.values.map fun file =>
          (file.file.id, beginStatus file)) } sessionId (fun s => { s with
    status := .sending, files := (p.beginUpload sessionId files fileMap).2 })
  exact ⟨hsession.hash, hsession.prepare⟩

theorem beginUpload_isSome (p : SendProvider) (files : AssocMap String SendingFile)
    (fileMap : AssocMap String String) :
    ((p.beginUpload sessionId files fileMap).1.state.get? sessionId).isSome =
      (p.state.get? sessionId).isSome :=
  updateSession_isSome ..

theorem sendFiles_fewer (p : SendProvider) (isRetry : Bool) (taskId : ℕ)
    (files : List SendingFile) :
    FewerTokens p (p.sendFiles sessionId isRetry taskId files).1 sessionId := by
  unfold SendProvider.sendFiles
  cases p.state.get? sessionId with
  | none => exact .refl ..
  | some session =>
      simp only
      split_ifs
      · exact .refl ..
      · exact updateSession_fewer ..

theorem sendFiles_isSome (p : SendProvider) (isRetry : Bool) (taskId : ℕ)
    (files : List SendingFile) :
    ((p.sendFiles sessionId isRetry taskId files).1.state.get? sessionId).isSome =
      (p.state.get? sessionId).isSome := by
  unfold SendProvider.sendFiles
  cases hsession : p.state.get? sessionId with
  | none =>
      show (p.state.get? sessionId).isSome = _
      rw [hsession]
  | some session =>
      simp only
      split_ifs
      · rw [hsession]
      · rw [updateSession_isSome, hsession]

end Own

/-! ## §5  One step -/

def StartPoint.isHashing : StartPoint → Bool
  | .hashing .. => true
  | _ => false

/-- The request is under way, or will be made again. -/
def StartPoint.isPreparing : StartPoint → Bool
  | .preparing _ | .sleeping _ | .pinDialog _ => true
  | _ => false

/-- **The entries of a session** against the point its call has come to. -/
structure Tidy (p : SendProvider) (sessionId : String) (point : Option StartPoint) : Prop where
  known : (p.state.get? sessionId).isSome = true → point.isSome = true
  gone : point.isSome = true → Gone p sessionId
  hash : (p.hashCancelTokens.get? sessionId).isSome = true →
    point.any StartPoint.isHashing = true
  prepare : (p.prepareUploadCancelTokens.get? sessionId).isSome = true →
    point.any StartPoint.isPreparing = true

section Step

variable {p q : SendProvider} {sessionId : String} {point point' : StartPoint} {act : CallAct}

theorem Tidy.same {other : Option StartPoint} (h : Tidy p sessionId other)
    (hsame : SameEntries p q sessionId) : Tidy q sessionId other := by
  constructor
  · rw [hsame.state]
    exact h.known
  · intro hsome hnone
    rw [hsame.state] at hnone
    rw [hsame.transfers, hsame.notification]
    exact h.gone hsome hnone
  · rw [hsame.hash]
    exact h.hash
  · rw [hsame.prepare]
    exact h.prepare

/-- A call goes on, and what token it does not need any more is taken out. -/
theorem Tidy.next (h : Tidy p sessionId (some point)) (hgone : Gone q sessionId)
    (hfewer : FewerTokens p q sessionId)
    (hhash : point.isHashing = true →
      point'.isHashing = true ∨ q.hashCancelTokens.get? sessionId = none)
    (hprepare : point.isPreparing = true →
      point'.isPreparing = true ∨ q.prepareUploadCancelTokens.get? sessionId = none) :
    Tidy q sessionId (some point') := by
  refine ⟨fun _ => rfl, fun _ => hgone, fun hsome => ?_, fun hsome => ?_⟩
  · obtain hnext | hnone := hhash (h.hash (hfewer.hash hsome))
    · exact hnext
    · rw [hnone] at hsome
      cases hsome
  · obtain hnext | hnone := hprepare (h.prepare (hfewer.prepare hsome))
    · exact hnext
    · rw [hnone] at hsome
      cases hsome

/-- The request is made only for a session that is there. -/
theorem tidy_prepare (hashes : AssocMap String String) (hgone : Gone p sessionId)
    (hhash : p.hashCancelTokens.get? sessionId = none)
    (hprepare : p.prepareUploadCancelTokens.get? sessionId = none) :
    Tidy (p.prepare sessionId hashes).1 sessionId (some (p.prepare sessionId hashes).2) := by
  unfold SendProvider.prepare
  cases hsession : p.state.get? sessionId with
  | none =>
      refine ⟨fun _ => rfl, fun _ => hgone, fun hsome => ?_, fun hsome => ?_⟩
      · rw [hhash] at hsome
        cases hsome
      · rw [hprepare] at hsome
        cases hsome
  | some session =>
      refine ⟨fun _ => rfl, fun _ => gone_of_isSome ?_, fun hsome => ?_, fun _ => rfl⟩
      · show ((p.updateSession sessionId _).state.get? sessionId).isSome = true
        rw [updateSession_isSome, hsession]
        rfl
      · have hsome := (updateSession_fewer p _ _).hash hsome
        rw [hhash] at hsome
        cases hsome

theorem Tidy.answered {files : AssocMap String SendingFile} {taskId : ℕ} {answer : PrepareAnswer}
    (h : Tidy p sessionId (some (.preparing files)))
    (hguard : (CallAct.answered answer taskId).registers = true →
      (p.state.get? sessionId).isSome = true) :
    Tidy (p.answered sessionId files taskId answer).1 sessionId
      (some (p.answered sessionId files taskId answer).2) := by
  have hgone := h.gone rfl
  have hended : Gone (p.endPreparing sessionId) sessionId := hgone
  have hfewer : FewerTokens p (p.endPreparing sessionId) sessionId := ⟨id, isSome_erase⟩
  have hnone : (p.endPreparing sessionId).prepareUploadCancelTokens.get? sessionId = none :=
    erase_self _
  -- no token of the request is found after it has ended
  have hstill : ∀ {q : SendProvider}, FewerTokens (p.endPreparing sessionId) q sessionId →
      q.prepareUploadCancelTokens.get? sessionId = none := by
    intro q hq
    refine Option.not_isSome_iff_eq_none.mp fun hsome => ?_
    have hsome := hq.prepare hsome
    rw [hnone] at hsome
    cases hsome
  cases answer with
  | status code =>
      simp only [SendProvider.answered]
      split_ifs
      · exact h.next hgone (.refl ..) nofun fun _ => .inl rfl
      · exact h.next (hgone.updateSession _)
          ((updateSession_fewer p _ _).trans ⟨id, isSome_erase⟩) nofun fun _ => .inr (erase_self _)
  | failed =>
      exact h.next (hgone.updateSession _)
        ((updateSession_fewer p _ _).trans ⟨id, isSome_erase⟩) nofun fun _ => .inr (erase_self _)
  | noResponse =>
      exact h.next (hended.updateSession _) (hfewer.trans (updateSession_fewer _ _ _)) nofun
        fun _ => .inr (hstill (updateSession_fewer _ _ _))
  | nothingSelected =>
      have hclosed := (updateSession_fewer (p.endPreparing sessionId) sessionId
        fun s => { s with status := .finished }).trans (closeSession_fewer _)
      exact h.next (hended.updateSession _).closeSession (hfewer.trans hclosed) nofun
        fun _ => .inr (hstill hclosed)
  | accepted remoteSessionId fileMap =>
      have hremote := updateSession_fewer (p.endPreparing sessionId) sessionId
        fun s => { s with remoteSessionId := some remoteSessionId }
      simp only [SendProvider.answered]
      by_cases hempty : fileMap.isEmpty = true
      · rw [if_pos hempty]
        have hclosed := (hremote.trans (updateSession_fewer _ _
          fun s => { s with status := .finished })).trans (closeSession_fewer _)
        exact h.next ((hended.updateSession _).updateSession _).closeSession
          (hfewer.trans hclosed) nofun fun _ => .inr (hstill hclosed)
      · rw [if_neg hempty]
        have hsome := hguard (by simp [CallAct.registers, hempty])
        have hbegun := hremote.trans (beginUpload_fewer _ files fileMap)
        refine h.next (gone_of_isSome ?_) (hfewer.trans (hbegun.trans (sendFiles_fewer ..))) nofun
          fun _ => .inr (hstill (hbegun.trans (sendFiles_fewer ..)))
        rw [sendFiles_isSome, beginUpload_isSome, updateSession_isSome]
        exact hsome

theorem Tidy.resume (h : Tidy p sessionId (some point))
    (hguard : act.registers = true → (p.state.get? sessionId).isSome = true)
    (hstep : p.resume sessionId point act = some (q, point')) :
    Tidy q sessionId (some point') ∧ ∀ id, id ≠ sessionId → SameEntries p q id := by
  have hgone := h.gone rfl
  unfold SendProvider.resume at hstep
  split at hstep
  · -- progress of a checksum
    split at hstep
    · obtain ⟨rfl, rfl⟩ := Prod.mk.inj (Option.some.inj hstep)
      exact ⟨h, fun id _ => .refl p id⟩
    · rename_i session hsession
      obtain ⟨rfl, rfl⟩ := Prod.mk.inj (Option.some.inj hstep)
      refine ⟨h.next (gone_of_isSome ?_) ⟨id, id⟩ .inl .inl, fun id hid => ?_⟩
      · rw [hsession]
        rfl
      · exact ⟨rfl, setProgress_ne _ _ hid, rfl, rfl, rfl⟩
  · -- a checksum
    rename_i hashes fileId rest hash
    split at hstep
    · obtain ⟨rfl, rfl⟩ := Prod.mk.inj (Option.some.inj hstep)
      exact ⟨h.next hgone ⟨isSome_erase, id⟩ (fun _ => .inr (erase_self _))
        (fun heq => by cases heq), fun id hid => endHashing_frame p hid⟩
    · rename_i session hsession
      have hsome : (p.state.get? sessionId).isSome = true := by
        rw [hsession]
        rfl
      simp only at hstep
      split at hstep
      · have hprepare : p.prepareUploadCancelTokens.get? sessionId = none :=
          Option.not_isSome_iff_eq_none.mp fun hsome => by cases h.prepare hsome
        obtain rfl := congrArg Prod.fst (Option.some.inj hstep)
        obtain rfl := congrArg Prod.snd (Option.some.inj hstep)
        refine ⟨tidy_prepare _ (gone_of_isSome hsome) (erase_self _) hprepare, fun id hid => ?_⟩
        refine SameEntries.trans ?_ (prepare_frame _ _ hid)
        exact ⟨rfl, setProgress_ne _ _ hid, get?_erase_ne _ hid, rfl, rfl⟩
      · obtain ⟨rfl, rfl⟩ := Prod.mk.inj (Option.some.inj hstep)
        refine ⟨h.next (gone_of_isSome hsome) ⟨id, id⟩ (fun _ => .inl rfl)
          (fun heq => by cases heq),
          fun id hid => ?_⟩
        exact ⟨rfl, setProgress_ne _ _ hid, rfl, rfl, rfl⟩
  · -- the answer of the receiver
    obtain rfl := congrArg Prod.fst (Option.some.inj hstep)
    obtain rfl := congrArg Prod.snd (Option.some.inj hstep)
    exact ⟨h.answered hguard, fun id hid => answered_frame _ _ _ _ hid⟩
  · obtain ⟨rfl, rfl⟩ := Prod.mk.inj (Option.some.inj hstep)
    exact ⟨h.next hgone (.refl ..) (fun heq => by cases heq) fun _ => .inl rfl,
      fun id _ => .refl p id⟩
  · obtain ⟨rfl, rfl⟩ := Prod.mk.inj (Option.some.inj hstep)
    exact ⟨h.next hgone (.refl ..) (fun heq => by cases heq) fun _ => .inl rfl,
      fun id _ => .refl p id⟩
  · obtain ⟨rfl, rfl⟩ := Prod.mk.inj (Option.some.inj hstep)
    refine ⟨h.next (hgone.updateSession _) ((updateSession_fewer p _ _).trans ⟨id, isSome_erase⟩)
      (fun heq => by cases heq) fun _ => .inr (erase_self _), fun id hid => ?_⟩
    exact (updateSession_frame _ _ hid).trans (endPreparing_frame _ hid)
  · -- events of the upload
    obtain ⟨rfl, rfl⟩ := Prod.mk.inj (Option.some.inj hstep)
    refine ⟨h.next (gone_of_isSome ?_) ?_ (fun heq => by cases heq) (fun heq => by cases heq),
      fun id hid => onEvent_frame _ _ hid⟩
    · rw [onEvent_state]
      exact hguard rfl
    · rename_i event
      cases event <;> exact ⟨id, id⟩
  · obtain ⟨rfl, rfl⟩ := Prod.mk.inj (Option.some.inj hstep)
    refine ⟨h.next (gone_of_isSome ?_) ?_ (fun heq => by cases heq) (fun heq => by cases heq),
      fun id hid => ?_⟩
    · rw [SendProvider.removeTask, updateSession_isSome]
      exact hguard rfl
    · exact FewerTokens.trans (q := p.onTaskFailed sessionId _) ⟨id, id⟩ (updateSession_fewer ..)
    · exact (onTaskFailed_frame _ _ hid).trans (updateSession_frame _ _ hid)
  · obtain ⟨rfl, rfl⟩ := Prod.mk.inj (Option.some.inj hstep)
    exact ⟨h.next (hgone.updateSession _) (updateSession_fewer ..)
      (fun heq => by cases heq) (fun heq => by cases heq),
      fun id hid => updateSession_frame _ _ hid⟩
  · obtain ⟨rfl, rfl⟩ := Prod.mk.inj (Option.some.inj hstep)
    exact ⟨h.next hgone.finish (finish_fewer p) (fun heq => by cases heq)
      (fun heq => by cases heq), fun id hid => finish_frame _ hid⟩
  · cases hstep

theorem tidy_startSession (h : Tidy p sessionId none) (files : List SendingFile)
    (background createChecksums : Bool) :
    Tidy (p.startSession sessionId files background createChecksums).1 sessionId
      (some (p.startSession sessionId files background createChecksums).2) := by
  have hhash : p.hashCancelTokens.get? sessionId = none :=
    Option.not_isSome_iff_eq_none.mp fun hsome => nomatch h.hash hsome
  have hprepare : p.prepareUploadCancelTokens.get? sessionId = none :=
    Option.not_isSome_iff_eq_none.mp fun hsome => nomatch h.prepare hsome
  unfold SendProvider.startSession
  split_ifs
  · refine ⟨fun _ => rfl, fun _ => gone_of_isSome ?_, fun _ => rfl, fun hsome => ?_⟩
    · show ((p.state.insert sessionId _).get? sessionId).isSome = true
      rw [AssocMap.get?_insert_self]
      rfl
    · have hsome : (p.prepareUploadCancelTokens.get? sessionId).isSome = true := hsome
      rw [hprepare] at hsome
      cases hsome
  · refine tidy_prepare _ (gone_of_isSome ?_) hhash hprepare
    show ((p.state.insert sessionId _).get? sessionId).isSome = true
    rw [AssocMap.get?_insert_self]
    rfl

end Step

/-! ## §6  Every run -/

section System

variable {s t : SendSystem} {a : SystemAct}

/-- **The entries of all sessions**, against the calls. -/
def AllTidy (s : SendSystem) : Prop :=
  ∀ id, Tidy s.provider id (s.points.get? id)

theorem foldl_stop_contains (t : TransferNotification) (ids : List String) (id : String) :
    (ids.foldl TransferNotification.stop t).contains id = (!ids.contains id && t.contains id) := by
  induction ids generalizing t with
  | nil => simp
  | cons other ids ih =>
      rw [List.foldl_cons, ih, TransferNotification.contains_stop]
      by_cases hid : id = other
      · simp [hid]
      · simp [hid]

/-- **Everything is cleared** of the sessions that are there, and nothing was left of others. -/
theorem Tidy.clearAllSessions {p : SendProvider} {id : String} {point : Option StartPoint}
    (h : Tidy p id point) : Tidy p.clearAllSessions id point := by
  refine ⟨nofun, fun hpoint _ => ⟨rfl, ?_⟩, nofun, nofun⟩
  show (p.state.keys.foldl TransferNotification.stop p.notification).contains id = false
  rw [foldl_stop_contains]
  cases hsession : p.state.get? id with
  | none => rw [(h.gone hpoint hsession).2, Bool.and_false]
  | some session =>
      have hmem : id ∈ p.state.keys := AssocMap.mem_keys_iff.mpr ⟨session, hsession⟩
      rw [List.contains_iff_mem.mpr hmem]
      rfl

/-- A step that changes the entries of one session, and tidily. -/
theorem AllTidy.update {q : SendProvider} {id : String} {point : StartPoint} (h : AllTidy s)
    (hown : Tidy q id (some point))
    (hframe : ∀ other, other ≠ id → SameEntries s.provider q other) :
    AllTidy ⟨q, s.points.insert id point⟩ := by
  intro other
  show Tidy q other ((s.points.insert id point).get? other)
  rw [AssocMap.get?_insert]
  by_cases hother : other = id
  · rw [if_pos hother, hother]
    exact hown
  · rw [if_neg hother]
    exact (h other).same (hframe other hother)

/-- Closing a session keeps it tidy, whatever its call waits for. -/
theorem AllTidy.close {q : SendProvider} {id : String} (h : AllTidy s)
    (hgone : Gone s.provider id → Gone q id) (hfewer : FewerTokens s.provider q id)
    (hstate : (q.state.get? id).isSome = true → (s.provider.state.get? id).isSome = true)
    (hframe : ∀ other, other ≠ id → SameEntries s.provider q other) :
    AllTidy { s with provider := q } := by
  intro other
  by_cases hother : other = id
  · subst hother
    have hown := h other
    exact ⟨fun hsome => hown.known (hstate hsome), fun hpoint => hgone (hown.gone hpoint),
      fun hsome => hown.hash (hfewer.hash hsome), fun hsome => hown.prepare (hfewer.prepare hsome)⟩
  · exact (h other).same (hframe other hother)

theorem AllTidy.step (h : AllTidy s) (hguard : RegistersInTime s a)
    (hstep : systemStep s a = some t) : AllTidy t := by
  cases a with
  | startSession sessionId files background createChecksums =>
      simp only [systemStep, Option.ite_none_right_eq_some, Option.some.injEq] at hstep
      obtain ⟨⟨hnew, -⟩, rfl⟩ := hstep
      refine h.update ?_ fun other hother => startSession_frame _ _ _ _ hother
      exact tidy_startSession (hnew ▸ h sessionId) files background createChecksums
  | resume sessionId act =>
      obtain ⟨point, hpoint, hstep⟩ := Option.bind_eq_some_iff.mp hstep
      obtain ⟨⟨q, point'⟩, hresume, rfl⟩ := Option.map_eq_some_iff.mp hstep
      obtain ⟨hown, hframe⟩ := (hpoint ▸ h sessionId).resume hguard hresume
      exact h.update hown hframe
  | cancelSession sessionId =>
      obtain rfl := Option.some.inj hstep
      refine h.close Gone.cancelSession (cancelSession_fewer _) (fun hsome => ?_)
        fun other hother => cancelSession_frame _ hother
      rw [cancelSession_get?] at hsome
      cases hsome
  | closeSession sessionId =>
      obtain rfl := Option.some.inj hstep
      refine h.close Gone.closeSession (closeSession_fewer _) (fun hsome => ?_)
        fun other hother => closeSession_frame _ hother
      rw [closeSession_get?] at hsome
      cases hsome
  | clearAllSessions =>
      obtain rfl := Option.some.inj hstep
      exact fun id => (h id).clearAllSessions
  | receive sessionId =>
      simp only [systemStep, Option.ite_none_right_eq_some, Option.some.injEq] at hstep
      obtain ⟨hnew, rfl⟩ := hstep
      intro other
      by_cases hother : other = sessionId
      · subst hother
        have hown := h other
        refine ⟨hown.known, fun hpoint => ?_, hown.hash, hown.prepare⟩
        have hpoint : (s.points.get? other).isSome = true := hpoint
        rw [hnew] at hpoint
        cases hpoint
      · exact (h other).same ⟨rfl, rfl, rfl, rfl, contains_start_ne _ _ hother⟩
  | received sessionId =>
      simp only [systemStep, Option.ite_none_right_eq_some, Option.some.injEq] at hstep
      obtain ⟨hnew, rfl⟩ := hstep
      intro other
      by_cases hother : other = sessionId
      · subst hother
        have hown := h other
        refine ⟨hown.known, fun hpoint => ?_, hown.hash, hown.prepare⟩
        have hpoint : (s.points.get? other).isSome = true := hpoint
        rw [hnew] at hpoint
        cases hpoint
      · exact (h other).same ⟨rfl, rfl, rfl, rfl, contains_stop_ne _ hother⟩

end System

/-- **No leftovers**, as long as entries are made in time: of a session that is gone, and whose
call has returned, nothing is left; and the foreground service runs only for a transfer that
is registered, of a session that is there or in the other direction. -/
theorem no_leftovers {s : SendSystem} (hrun : Run systemStep RegistersInTime .init s) :
    (∀ id, s.points.get? id = some .returned → s.provider.state.get? id = none →
        Clean s.provider id) ∧
      (s.provider.notification.service = true → ∃ id,
        s.provider.notification.contains id = true ∧
          ((s.provider.state.get? id).isSome = true ∨ s.points.get? id = none)) := by
  have hinit : AllTidy .init := fun id =>
    ⟨nofun, nofun, nofun, nofun⟩
  have htidy : AllTidy s :=
    hrun.invariant hinit fun _ _ _ h hguard hstep => h.step hguard hstep
  constructor
  · intro id hreturned hnone
    have hown := htidy id
    rw [hreturned] at hown
    obtain ⟨htransfers, hnotification⟩ := hown.gone rfl hnone
    refine ⟨htransfers, Option.not_isSome_iff_eq_none.mp fun hsome => ?_,
      Option.not_isSome_iff_eq_none.mp fun hsome => ?_, hnotification⟩
    · exact absurd (hown.hash hsome) Bool.false_ne_true
    · exact absurd (hown.prepare hsome) Bool.false_ne_true
  · intro hservice
    rw [s.provider.notification.runs, Bool.not_eq_true'] at hservice
    obtain ⟨id, receiving, hget⟩ := AssocMap.exists_get?_of_ne_empty hservice
    have hcontains : s.provider.notification.contains id = true := by
      rw [TransferNotification.contains, hget]
      rfl
    refine ⟨id, hcontains, ?_⟩
    cases hpoint : s.points.get? id with
    | none => exact .inr rfl
    | some point =>
        refine .inl (Option.isSome_iff_ne_none.mpr fun hnone => ?_)
        rw [((htidy id).gone (by rw [hpoint]; rfl) hnone).2] at hcontains
        cases hcontains

/-! ## §7  An answer after the removal -/

namespace LateAnswer

def answer : SystemAct :=
  .resume "s" (.answered (.accepted "remote" TwoFiles.fileMap) 0)

def start : List SystemAct :=
  [.startSession "s" [TwoFiles.file "a", TwoFiles.file "b"] false false]

/-- The session is closed while the files are being sent, and their events do not come any
more. -/
def inTime : List SystemAct :=
  start ++ [answer, .closeSession "s", .resume "s" .taskDone, .resume "s" .finish]

/-- The session is closed before the answer is handled. -/
def late : List SystemAct :=
  start ++ [.closeSession "s", answer, .resume "s" .finish]

end LateAnswer

open LateAnswer in
theorem no_leftovers_closed : ∃ s, Run systemStep RegistersInTime .init s ∧
    s.points.get? "s" = some .returned ∧ Clean s.provider "s" := by
  obtain ⟨s, hexec, hdone⟩ := exists_of_exec_any systemStep .init inTime
    (fun s => decide (s.points.get? "s" = some .returned ∧ s.provider.state.get? "s" = none))
    (by decide +kernel)
  obtain ⟨hreturned, hnone⟩ := of_decide_eq_true hdone
  have hguarded : Guarded systemStep RegistersInTime .init inTime := by
    decide +kernel
  have hrun := run_of_exec hexec hguarded
  exact ⟨s, hrun, hreturned, (no_leftovers hrun).1 "s" hreturned hnone⟩

open LateAnswer in
/-- **A leftover**: the answer to the request of a session that was closed registers the
statuses of its files and a notification that nothing takes back. -/
theorem leftovers_of_late_answer :
    ¬ ∀ s, Reach systemStep .init s → ∀ id, s.points.get? id = some .returned →
      s.provider.state.get? id = none → Clean s.provider id := by
  intro h
  obtain ⟨s, hexec, hlate⟩ := exists_of_exec_any systemStep .init late
    (fun s => decide (s.points.get? "s" = some .returned ∧
      s.provider.state.get? "s" = none ∧ s.provider.notification.contains "s" = true))
    (by decide +kernel)
  obtain ⟨hreturned, hnone, hcontains⟩ := of_decide_eq_true hlate
  have hclean := h s (reach_of_exec hexec) "s" hreturned hnone
  rw [hclean.notification] at hcontains
  cases hcontains

end FireBoxTransfer

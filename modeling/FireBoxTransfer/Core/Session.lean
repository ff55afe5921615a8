import FireBoxTransfer.Core.Model

/-!
# The v2 session slot

The single upload session slot and what the critical sections of the v2
handlers do to it. Each function here is the body of one lock scope of the
source, as a function of the slot; which handler runs it, and when, is the
business of `ServerV2`.
-/

namespace FireBoxTransfer

/-! ## §1  Sessions and files -/

inductive FileStatusV2 where
  | pending | inProgress | finished | failed
deriving DecidableEq

/-- Finished or failed. -/
def FileStatusV2.isFinal : FileStatusV2 → Bool
  | .finished | .failed => true
  | .pending | .inProgress => false

structure SessionFileV2 where
  dto : FileDto
  token : String
  status : FileStatusV2
  attempts : ℕ
deriving DecidableEq

structure UploadSessionV2 where
  sessionId : String
  senderIp : PeerIp
  files : AssocMap String SessionFileV2
deriving DecidableEq

/-- Whether all files reached a final state. -/
def UploadSessionV2.isComplete (session : UploadSessionV2) : Bool :=
  session.files.values.all fun file => file.status.isFinal

/-- A prepare-upload request that waits for the decision; `cancel` names its
cancellation token. -/
structure PendingSessionV2 where
  sessionId : String
  senderIp : PeerIp
  cancel : ℕ
deriving DecidableEq

inductive SessionStateV2 where
  | pending (pending : PendingSessionV2)
  | active (session : UploadSessionV2)
deriving DecidableEq

/-- Outcome of receiving an uploaded file. -/
inductive SaveResult where
  | success | failed | hashMismatch
deriving DecidableEq

def maxUploadAttempts : ℕ := 3

/-- `u8::saturating_add`. -/
def saturatingAddU8 (a b : ℕ) : ℕ := min (a + b) 255

theorem isComplete_eq_false_iff {session : UploadSessionV2} :
    session.isComplete = false ↔
      ∃ fid file, session.files.get? fid = some file ∧ file.status.isFinal = false := by
  rw [UploadSessionV2.isComplete, List.all_eq_false]
  constructor
  · rintro ⟨file, hmem, hfinal⟩
    obtain ⟨fid, hfid⟩ := AssocMap.mem_values_iff.mp hmem
    exact ⟨fid, file, hfid, by simpa using hfinal⟩
  · rintro ⟨fid, file, hfid, hfinal⟩
    exact ⟨file, AssocMap.mem_values_iff.mpr ⟨fid, hfid⟩, by simp [hfinal]⟩

/-! ## §2  The pending entry -/

/-- Claim the single session slot. -/
def claimSlot (pending : PendingSessionV2) (slot : Option SessionStateV2) :
    Except AppError SessionStateV2 :=
  if slot.isSome then .error (.message .conflict "Blocked by another session")
  else .ok (.pending pending)

/-- The first lock scope of `cancel`: the token of the pending request that
the caller may cancel. -/
def pendingToCancel (ip : PeerIp) (sessionId : Option String) :
    Option SessionStateV2 → Option PendingSessionV2
  | some (.pending pending) =>
      if pending.senderIp = ip ∧ sessionId.all (· = pending.sessionId) then some pending
      else none
  | _ => none

/-- `clear_pending_session`: whichever request is pending is removed. -/
def clearPendingSession : Option SessionStateV2 → Option SessionStateV2
  | some (.pending _) => none
  | slot => slot

theorem claimSlot_none {pending : PendingSessionV2} :
    claimSlot pending none = .ok (.pending pending) := rfl

theorem claimSlot_some {pending : PendingSessionV2} {st : SessionStateV2} :
    claimSlot pending (some st) =
      .error (.message .conflict "Blocked by another session") := rfl

theorem pendingToCancel_eq_some {ip : PeerIp} {sessionId : Option String}
    {slot : Option SessionStateV2} {pending : PendingSessionV2}
    (h : pendingToCancel ip sessionId slot = some pending) :
    slot = some (.pending pending) ∧ pending.senderIp = ip ∧
      ∀ id ∈ sessionId, id = pending.sessionId := by
  rcases slot with - | (p | session)
  · simp [pendingToCancel] at h
  · simp only [pendingToCancel, Option.ite_none_right_eq_some, Option.some.injEq] at h
    obtain ⟨⟨hip, hid⟩, rfl⟩ := h
    refine ⟨rfl, hip, ?_⟩
    rintro id rfl
    simpa using hid
  · simp [pendingToCancel] at h

theorem clearPendingSession_ne_pending {slot : Option SessionStateV2}
    {p : PendingSessionV2} : clearPendingSession slot ≠ some (.pending p) := by
  rcases slot with - | (q | session) <;> simp [clearPendingSession]

theorem clearPendingSession_eq_active {slot : Option SessionStateV2}
    {session : UploadSessionV2} :
    clearPendingSession slot = some (.active session) ↔ slot = some (.active session) := by
  rcases slot with - | (q | session) <;> simp [clearPendingSession]

/-! ## §3  Uploads -/

def invalidTokenError : AppError := .message .forbidden "Invalid token or IP address"

/-- An upload of the file starts. -/
def SessionFileV2.start (file : SessionFileV2) : SessionFileV2 :=
  { file with status := .inProgress, attempts := saturatingAddU8 file.attempts 1 }

/-- The lock scope at the start of `upload`: validate the request and mark
the file as in progress. -/
def beginUpload (ip : PeerIp) (sessionId fileId token : String) :
    Option SessionStateV2 → Except AppError (SessionStateV2 × FileDto)
  | some (.active session) =>
      if session.sessionId ≠ sessionId ∨ session.senderIp ≠ ip then .error invalidTokenError
      else
        match session.files.get? fileId with
        | none => .error invalidTokenError
        | some file =>
            if file.token ≠ token ∨ file.status ≠ .pending then .error invalidTokenError
            else
              .ok (.active { session with
                files := session.files.modify fileId SessionFileV2.start }, file.dto)
  | _ => .error invalidTokenError

/-- The status of a file after an upload attempt with the given result. -/
def finalStatus (result : SaveResult) (attempts : ℕ) : FileStatusV2 :=
  match result with
  | .success => .finished
  | .hashMismatch => if attempts < maxUploadAttempts then .pending else .failed
  | .failed => .failed

/-- A file that is not in progress keeps its status. -/
def SessionFileV2.finalize (result : SaveResult) (file : SessionFileV2) : SessionFileV2 :=
  if file.status = .inProgress then
    { file with status := finalStatus result file.attempts }
  else file

/-- The lock scope of `finalize_file`: the new slot and whether the session
ended. -/
def finalizeFile (sessionId fileId : String) (result : SaveResult) :
    Option SessionStateV2 → Option SessionStateV2 × Bool
  | some (.active session) =>
      if session.sessionId ≠ sessionId then (some (.active session), false)
      else
        let session := { session with
          files := session.files.modify fileId (SessionFileV2.finalize result) }
        if session.isComplete then (none, true) else (some (.active session), false)
  | slot => (slot, false)

/-- **What a started upload knows**: the slot holds the active session it
names, owned by the caller's address, with the file still pending under the
given token; only that file changes. -/
theorem beginUpload_eq_ok {ip : PeerIp} {sid fid token : String}
    {slot : Option SessionStateV2} {st : SessionStateV2} {dto : FileDto} :
    beginUpload ip sid fid token slot = .ok (st, dto) ↔
      ∃ session file, slot = some (.active session) ∧ session.sessionId = sid ∧
        session.senderIp = ip ∧ session.files.get? fid = some file ∧
        file.token = token ∧ file.status = .pending ∧ dto = file.dto ∧
        st = .active { session with
          files := session.files.modify fid SessionFileV2.start } := by
  rcases slot with - | (p | session)
  · simp [beginUpload]
  · simp [beginUpload]
  · constructor
    · intro h
      rw [beginUpload] at h
      split_ifs at h with hsess
      rw [not_or, not_not, not_not] at hsess
      cases hf : session.files.get? fid with
      | none => simp [hf] at h
      | some file =>
          rw [hf] at h
          dsimp only at h
          split_ifs at h with hfile
          rw [not_or, not_not, not_not] at hfile
          obtain ⟨rfl, rfl⟩ := Prod.mk.inj (Except.ok.inj h)
          exact ⟨session, file, rfl, hsess.1, hsess.2, hf, hfile.1, hfile.2, rfl, rfl⟩
    · rintro ⟨session', file, hslot, hid, hip, hf, htok, hst, rfl, rfl⟩
      obtain rfl : session = session' := by simpa using hslot
      simp [beginUpload, hid, hip, hf, htok, hst]

/-- A finalization that does not find its own session in the slot does
nothing. -/
theorem finalizeFile_of_ne {sid fid : String} {result : SaveResult}
    {slot : Option SessionStateV2}
    (h : ∀ session, slot = some (.active session) → session.sessionId ≠ sid) :
    finalizeFile sid fid result slot = (slot, false) := by
  rcases slot with - | (p | session)
  · rfl
  · rfl
  · rw [finalizeFile, if_pos (h session rfl)]

theorem finalizeFile_active {sid fid : String} {result : SaveResult}
    {session : UploadSessionV2} (h : session.sessionId = sid) :
    finalizeFile sid fid result (some (.active session)) =
      let session' := { session with
        files := session.files.modify fid (SessionFileV2.finalize result) }
      if session'.isComplete then (none, true) else (some (.active session'), false) := by
  rw [finalizeFile, if_neg (not_not.mpr h)]

theorem finalizeFile_eq_pending {sid fid : String} {result : SaveResult}
    {slot : Option SessionStateV2} {p : PendingSessionV2}
    (h : (finalizeFile sid fid result slot).1 = some (.pending p)) :
    slot = some (.pending p) := by
  rcases slot with - | (q | session)
  · exact h
  · exact h
  · by_cases hid : session.sessionId = sid
    · rw [finalizeFile_active hid] at h
      dsimp only at h
      split_ifs at h
      cases h
    · rw [finalizeFile, if_pos hid] at h
      cases h

/-- An active session after a finalization is the one before it: as it was,
or with the one file settled and still another one open. -/
theorem finalizeFile_eq_active {sid fid : String} {result : SaveResult}
    {slot : Option SessionStateV2} {session' : UploadSessionV2}
    (h : (finalizeFile sid fid result slot).1 = some (.active session')) :
    ∃ session, slot = some (.active session) ∧
      ((session.sessionId ≠ sid ∧ session' = session) ∨
        (session.sessionId = sid ∧ session'.isComplete = false ∧
          session' = { session with
            files := session.files.modify fid (SessionFileV2.finalize result) })) := by
  rcases slot with - | (q | session)
  · cases h
  · cases h
  · refine ⟨session, rfl, ?_⟩
    by_cases hid : session.sessionId = sid
    · rw [finalizeFile_active hid] at h
      dsimp only at h
      split_ifs at h with hc
      obtain rfl := SessionStateV2.active.inj (Option.some.inj h)
      exact .inr ⟨hid, by simpa using hc, rfl⟩
    · rw [finalizeFile, if_pos hid] at h
      obtain rfl := SessionStateV2.active.inj (Option.some.inj h)
      exact .inl ⟨hid, rfl⟩

/-- The session ends with its last file: the finalization found it active and
frees the slot. -/
theorem finalizeFile_eq_true {sid fid : String} {result : SaveResult}
    {slot : Option SessionStateV2} (h : (finalizeFile sid fid result slot).2 = true) :
    (finalizeFile sid fid result slot).1 = none ∧
      ∃ session, slot = some (.active session) ∧ session.sessionId = sid := by
  rcases slot with - | (p | session)
  · simp [finalizeFile] at h
  · simp [finalizeFile] at h
  · by_cases hid : session.sessionId = sid
    · rw [finalizeFile_active hid] at h ⊢
      dsimp only at h ⊢
      split_ifs at h ⊢
      exact ⟨rfl, session, rfl, hid⟩
    · rw [finalizeFile, if_pos hid] at h
      simp at h

/-- Otherwise an active session stays in the slot. -/
theorem finalizeFile_eq_false {sid fid : String} {result : SaveResult}
    {session : UploadSessionV2}
    (h : (finalizeFile sid fid result (some (.active session))).2 = false) :
    ∃ session', (finalizeFile sid fid result (some (.active session))).1 =
      some (.active session') ∧ session'.sessionId = session.sessionId := by
  by_cases hid : session.sessionId = sid
  · rw [finalizeFile_active hid] at h ⊢
    dsimp only at h ⊢
    split_ifs at h ⊢
    exact ⟨_, rfl, rfl⟩
  · rw [finalizeFile, if_pos hid]
    exact ⟨session, rfl, rfl⟩

/-- The file is being uploaded in the active session of the slot. -/
def InProgress (slot : Option SessionStateV2) (sid fid : String) : Prop :=
  ∃ session file, slot = some (.active session) ∧ session.sessionId = sid ∧
    session.files.get? fid = some file ∧ file.status = .inProgress

theorem beginUpload_inProgress {ip : PeerIp} {sid fid token sid' fid' : String}
    {slot : Option SessionStateV2} {st : SessionStateV2} {dto : FileDto}
    (h : beginUpload ip sid fid token slot = .ok (st, dto))
    (hin : InProgress (some st) sid' fid') :
    InProgress slot sid' fid' ∨ (sid' = sid ∧ fid' = fid) := by
  obtain ⟨session, file, rfl, rfl, -, hf, -, -, -, rfl⟩ := beginUpload_eq_ok.mp h
  obtain ⟨session', file', hs', hid, hf', hstat⟩ := hin
  obtain rfl := SessionStateV2.active.inj (Option.some.inj hs')
  by_cases hfid : fid' = fid
  · exact .inr ⟨hid.symm, hfid⟩
  · rw [AssocMap.get?_modify_ne hfid] at hf'
    exact .inl ⟨session, file', rfl, hid, hf', hstat⟩

theorem SessionFileV2.finalize_status_ne {result : SaveResult} {file : SessionFileV2} :
    (file.finalize result).status ≠ .inProgress := by
  by_cases h : file.status = .inProgress
  · rw [SessionFileV2.finalize, if_pos h]
    cases result <;> simp [finalStatus]
    split_ifs <;> simp
  · rwa [SessionFileV2.finalize, if_neg h]

theorem finalizeFile_inProgress {sid fid sid' fid' : String} {result : SaveResult}
    {slot : Option SessionStateV2}
    (hin : InProgress (finalizeFile sid fid result slot).1 sid' fid') :
    InProgress slot sid' fid' ∧ ¬ (sid' = sid ∧ fid' = fid) := by
  obtain ⟨session', file', hs', rfl, hf', hstat⟩ := hin
  obtain ⟨session, rfl, ⟨hne, rfl⟩ | ⟨rfl, -, rfl⟩⟩ := finalizeFile_eq_active hs'
  · exact ⟨⟨_, file', rfl, rfl, hf', hstat⟩, fun h => hne h.1⟩
  · have hfid : fid' ≠ fid := by
      rintro rfl
      rw [AssocMap.get?_modify_self] at hf'
      obtain ⟨file, -, rfl⟩ := Option.map_eq_some_iff.mp hf'
      exact SessionFileV2.finalize_status_ne hstat
    rw [AssocMap.get?_modify_ne hfid] at hf'
    exact ⟨⟨session, file', rfl, rfl, hf', hstat⟩, fun h => hfid h.2⟩

/-! ## §4  Removal of an active session -/

/-- The second lock scope of `cancel`. -/
def cancelActive (ip : PeerIp) (sessionId : String) :
    Option SessionStateV2 → Option SessionStateV2 × Bool
  | some (.active session) =>
      if session.sessionId = sessionId ∧ session.senderIp = ip then (none, true)
      else (some (.active session), false)
  | slot => (slot, false)

/-- `cancel_v2_session`. -/
def cancelV2Session (sessionId : String) :
    Option SessionStateV2 → Option SessionStateV2 × Bool
  | some (.active session) =>
      if session.sessionId = sessionId then (none, true)
      else (some (.active session), false)
  | slot => (slot, false)

theorem cancelActive_eq_true {ip : PeerIp} {sid : String} {slot : Option SessionStateV2}
    (h : (cancelActive ip sid slot).2 = true) :
    (cancelActive ip sid slot).1 = none ∧
      ∃ session, slot = some (.active session) ∧ session.sessionId = sid ∧
        session.senderIp = ip := by
  rcases slot with - | (p | session)
  · simp [cancelActive] at h
  · simp [cancelActive] at h
  · by_cases hs : session.sessionId = sid ∧ session.senderIp = ip
    · exact ⟨by rw [cancelActive, if_pos hs], session, rfl, hs⟩
    · rw [cancelActive, if_neg hs] at h
      simp at h

theorem cancelActive_eq_false {ip : PeerIp} {sid : String} {slot : Option SessionStateV2}
    (h : (cancelActive ip sid slot).2 = false) : (cancelActive ip sid slot).1 = slot := by
  rcases slot with - | (p | session)
  · rfl
  · rfl
  · by_cases hs : session.sessionId = sid ∧ session.senderIp = ip
    · rw [cancelActive, if_pos hs] at h
      simp at h
    · rw [cancelActive, if_neg hs]

theorem cancelV2Session_eq_true {sid : String} {slot : Option SessionStateV2}
    (h : (cancelV2Session sid slot).2 = true) :
    (cancelV2Session sid slot).1 = none ∧
      ∃ session, slot = some (.active session) ∧ session.sessionId = sid := by
  rcases slot with - | (p | session)
  · simp [cancelV2Session] at h
  · simp [cancelV2Session] at h
  · by_cases hs : session.sessionId = sid
    · exact ⟨by rw [cancelV2Session, if_pos hs], session, rfl, hs⟩
    · rw [cancelV2Session, if_neg hs] at h
      simp at h

theorem cancelV2Session_eq_false {sid : String} {slot : Option SessionStateV2}
    (h : (cancelV2Session sid slot).2 = false) : (cancelV2Session sid slot).1 = slot := by
  rcases slot with - | (p | session)
  · rfl
  · rfl
  · by_cases hs : session.sessionId = sid
    · rw [cancelV2Session, if_pos hs] at h
      simp at h
    · rw [cancelV2Session, if_neg hs]

end FireBoxTransfer
